import Mathlib.Data.List.Induction

/-!
# The last write decides

A cell is touched by some events of a history and left alone by the others. This
file relates the value the cell ends with, computed by folding over the history,
to the last event that touched it (`cell_eq_lastOf`), and reads that last
event off the history in the form specifications use, "the last event for which
`p` holds" (`lastOf`).
-/

namespace LastWrite

variable {ε β : Type}

/-- The cell after a history: an event either writes a value or leaves it alone. -/
def cell (eff : ε → Option β) (init : β) (h : List ε) : β :=
  h.foldl (fun c e => (eff e).getD c) init

theorem cell_snoc (eff : ε → Option β) (init : β) (h : List ε) (e : ε) :
    cell eff init (h ++ [e]) = (eff e).getD (cell eff init h) := by
  show (h ++ [e]).foldl (fun c e => (eff e).getD c) init = _
  rw [List.foldl_append]
  rfl

/-- The last event of a history that satisfies `p`. -/
def lastOf (p : ε → Bool) (h : List ε) : Option ε := (h.filter p).getLast?

/-- Appending one event: it is the last one if it satisfies `p`. -/
theorem lastOf_snoc (p : ε → Bool) (h : List ε) (e : ε) :
    lastOf p (h ++ [e]) = if p e then some e else lastOf p h := by
  show ((h ++ [e]).filter p).getLast? = if p e then some e else (h.filter p).getLast?
  rw [List.filter_append]
  by_cases hp : p e
  · simp [hp]
  · simp [hp]

/-- **The last write decides.** When exactly the events with `p` write, and event `e`
    writes `val e`, the cell holds what the last of them wrote. -/
theorem cell_eq_lastOf (p : ε → Bool) (val : ε → β) (init : β) (h : List ε) :
    cell (fun e => if p e then some (val e) else none) init h
      = ((lastOf p h).map val).getD init := by
  induction h using List.reverseRecOn with
  | nil => rfl
  | append_singleton h e ih =>
      rw [lastOf_snoc, cell_snoc, ih]
      by_cases hp : p e
      · simp [hp]
      · simp [hp]

/-- A component of a folded state that each step updates as a cell **is** that cell. -/
theorem proj_foldl_eq_cell {σ : Type} (step : σ → ε → σ) (proj : σ → β)
    (eff : ε → Option β)
    (hstep : ∀ s e, proj (step s e) = (eff e).getD (proj s)) (s : σ) (h : List ε) :
    proj (h.foldl step s) = cell eff (proj s) h := by
  induction h using List.reverseRecOn with
  | nil => rfl
  | append_singleton h e ih =>
      rw [List.foldl_append, cell_snoc, ← ih]
      exact hstep _ e

end LastWrite
