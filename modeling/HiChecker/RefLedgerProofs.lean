import Mathlib.Data.List.Nodup
import Mathlib.Logic.Function.Basic

/-!
# References and the variables that hold them

References are created into variables and deleted through them. Creating into a variable
overwrites what it held; deleting clears the variable.

* **`Ledger`** — the references created, those deleted, and what each variable holds.
* **`Sound`** — what no sequence of operations breaks: what is held is live, no two
  variables share a reference, and none is deleted twice.
* **`Accounted`** — the live references are exactly those held.
* **`accounted_run_iff`** — a sequence of operations keeps the references accounted for
  exactly when each creation finds its variable empty.
-/

namespace RefLedgerLib

variable {H : Type} [DecidableEq H]

-- ── Ledgers ───────────────────────────────────────────────────────────────────────

/-- References are numbered as they are created. -/
structure Ledger (H : Type) where
  created : Nat := 0
  /-- the deletions, the latest first -/
  deleted : List Nat := []
  holds : H → Option Nat := fun _ => none

/-- A new reference is stored in `h`, over what `h` held. -/
def Ledger.create (h : H) (l : Ledger H) : Ledger H :=
  { l with created := l.created + 1
           holds := Function.update l.holds h (some l.created) }

/-- What `h` holds is deleted, and `h` is cleared. -/
def Ledger.delete (h : H) (l : Ledger H) : Ledger H :=
  match l.holds h with
  | none => l
  | some n => { l with deleted := n :: l.deleted, holds := Function.update l.holds h none }

/-- An operation on the references of one module. -/
inductive Op (H : Type) where
  | create (h : H)
  | delete (h : H)

/-- What an operation does to the ledger. -/
def Ledger.apply (l : Ledger H) : Op H → Ledger H
  | .create h => l.create h
  | .delete h => l.delete h

/-- What several operations do to it, one after another. -/
def Ledger.run (l : Ledger H) (ops : List (Op H)) : Ledger H := ops.foldl Ledger.apply l

@[simp] theorem run_cons (l : Ledger H) (op : Op H) (ops : List (Op H)) :
    l.run (op :: ops) = (l.apply op).run ops := rfl

/-- Operations in two parts. -/
theorem run_append (l : Ledger H) (ops ops' : List (Op H)) :
    l.run (ops ++ ops') = (l.run ops).run ops' := List.foldl_append

/-- Deleting where nothing is held does nothing. -/
theorem delete_of_none {h : H} {l : Ledger H} (hnone : l.holds h = none) :
    l.delete h = l := by
  simp only [Ledger.delete, hnone]

/-- Deleting where something is held deletes that reference. -/
theorem delete_of_some {h : H} {l : Ledger H} {n : Nat} (hsome : l.holds h = some n) :
    l.delete h
      = { l with deleted := n :: l.deleted, holds := Function.update l.holds h none } := by
  simp only [Ledger.delete, hsome]

@[simp] theorem create_holds_self (h : H) (l : Ledger H) :
    (l.create h).holds h = some l.created := Function.update_self ..

/-- Creating leaves the other holders alone. -/
theorem create_holds_of_ne {h h' : H} (hne : h' ≠ h) (l : Ledger H) :
    (l.create h).holds h' = l.holds h' := Function.update_of_ne hne ..

@[simp] theorem delete_holds_self (h : H) (l : Ledger H) : (l.delete h).holds h = none := by
  cases hheld : l.holds h with
  | none => rw [delete_of_none hheld, hheld]
  | some n =>
      rw [delete_of_some hheld]
      exact Function.update_self ..

/-- Deleting leaves the other holders alone. -/
theorem delete_holds_of_ne {h h' : H} (hne : h' ≠ h) (l : Ledger H) :
    (l.delete h).holds h' = l.holds h' := by
  cases hheld : l.holds h with
  | none => rw [delete_of_none hheld]
  | some n =>
      rw [delete_of_some hheld]
      exact Function.update_of_ne hne ..

-- ── Which variables are filled ────────────────────────────────────────────────────

/-- Who holds something after a creation. -/
theorem isSome_create (h h' : H) (l : Ledger H) :
    ((l.create h').holds h).isSome = (decide (h = h') || (l.holds h).isSome) := by
  by_cases heq : h = h'
  · rw [heq, create_holds_self, decide_eq_true rfl]
    rfl
  · rw [create_holds_of_ne heq, decide_eq_false heq, Bool.false_or]

/-- Who holds something after a deletion. -/
theorem isSome_delete (h h' : H) (l : Ledger H) :
    ((l.delete h').holds h).isSome = ((l.holds h).isSome && decide (h ≠ h')) := by
  by_cases heq : h = h'
  · rw [heq, delete_holds_self, Option.isSome_none, decide_eq_false (fun hne => hne rfl),
      Bool.and_false]
  · rw [delete_holds_of_ne heq, decide_eq_true heq, Bool.and_true]

/-- Deletions alone clear the variables they name. -/
theorem isSome_deletes (h : H) (hs : List H) (l : Ledger H) :
    ((l.run (hs.map Op.delete)).holds h).isSome
      = ((l.holds h).isSome && decide (h ∉ hs)) := by
  induction hs generalizing l with
  | nil =>
      rw [decide_eq_true List.not_mem_nil, Bool.and_true]
      rfl
  | cons h' hs ih =>
      rw [List.map_cons, run_cons, ih]
      show (((l.delete h').holds h).isSome && _) = _
      rw [isSome_delete, Bool.and_assoc, ← Bool.decide_and]
      simp only [List.mem_cons, not_or]

-- ── Live and held ─────────────────────────────────────────────────────────────────

/-- Created and not yet deleted. -/
def Ledger.Live (l : Ledger H) (n : Nat) : Prop := n < l.created ∧ n ∉ l.deleted

/-- Some variable holds the reference. -/
def Ledger.Held (l : Ledger H) (n : Nat) : Prop := ∃ h, l.holds h = some n

/-- The live references are exactly those held. -/
def Ledger.Accounted (l : Ledger H) : Prop := ∀ n, l.Live n ↔ l.Held n

/-- What creating and deleting through the variables never breaks. -/
structure Sound (l : Ledger H) : Prop where
  live : ∀ n, l.Held n → l.Live n
  apart : ∀ h h' n, l.holds h = some n → l.holds h' = some n → h = h'
  once : l.deleted.Nodup
  known : ∀ n ∈ l.deleted, n < l.created

omit [DecidableEq H] in
/-- The empty ledger is sound. -/
theorem sound_empty : Sound ({} : Ledger H) where
  live := fun _ ⟨_, hheld⟩ => absurd hheld.symm (Option.some_ne_none _)
  apart := fun _ _ _ hheld _ => absurd hheld.symm (Option.some_ne_none _)
  once := List.nodup_nil
  known := fun _ hmem => absurd hmem List.not_mem_nil

omit [DecidableEq H] in
/-- Nothing is lost in the empty ledger. -/
theorem accounted_empty : ({} : Ledger H).Accounted := by
  intro n
  refine iff_of_false ?_ ?_
  · exact fun hlive => Nat.not_lt_zero n hlive.1
  · exact fun ⟨_, hheld⟩ => Option.some_ne_none n hheld.symm

-- ── Creating ──────────────────────────────────────────────────────────────────────

omit [DecidableEq H] in
/-- A held reference is older than the next one. -/
theorem Sound.lt_created {l : Ledger H} (hl : Sound l) {h : H} {n : Nat}
    (hheld : l.holds h = some n) : n < l.created := (hl.live n ⟨h, hheld⟩).1

/-- A creation adds one live reference. -/
theorem live_create_iff {l : Ledger H} (hl : Sound l) (h : H) (n : Nat) :
    (l.create h).Live n ↔ l.Live n ∨ n = l.created := by
  show n < l.created + 1 ∧ n ∉ l.deleted ↔ (n < l.created ∧ n ∉ l.deleted) ∨ n = l.created
  constructor
  · rintro ⟨hlt, hkept⟩
    rcases Nat.lt_succ_iff_lt_or_eq.mp hlt with hold | hnew
    · exact Or.inl ⟨hold, hkept⟩
    · exact Or.inr hnew
  · rintro (⟨hlt, hkept⟩ | rfl)
    · exact ⟨Nat.lt_succ_of_lt hlt, hkept⟩
    · exact ⟨Nat.lt_succ_self _, fun hmem => Nat.lt_irrefl _ (hl.known _ hmem)⟩

/-- A creation lets go of what its holder held. -/
theorem held_create_iff (l : Ledger H) (h : H) (n : Nat) :
    (l.create h).Held n ↔ n = l.created ∨ ∃ h', h' ≠ h ∧ l.holds h' = some n := by
  constructor
  · rintro ⟨h', hheld⟩
    by_cases heq : h' = h
    · rw [heq, create_holds_self] at hheld
      exact Or.inl (Option.some.inj hheld).symm
    · rw [create_holds_of_ne heq] at hheld
      exact Or.inr ⟨h', heq, hheld⟩
  · rintro (rfl | ⟨h', hne, hheld⟩)
    · exact ⟨h, create_holds_self h l⟩
    · refine ⟨h', ?_⟩
      rw [create_holds_of_ne hne]
      exact hheld

/-- A creation keeps the ledger sound. -/
theorem sound_create {l : Ledger H} (hl : Sound l) (h : H) : Sound (l.create h) where
  live := by
    intro n hheld
    rw [live_create_iff hl]
    rcases (held_create_iff l h n).mp hheld with hnew | ⟨h', -, hold⟩
    · exact Or.inr hnew
    · exact Or.inl (hl.live n ⟨h', hold⟩)
  apart := by
    intro h₁ h₂ n hheld₁ hheld₂
    -- the new reference is in `h` alone
    have hfresh : ∀ h', h' ≠ h → (l.create h).holds h' ≠ some l.created := by
      intro h' hne hheld
      rw [create_holds_of_ne hne] at hheld
      exact Nat.lt_irrefl _ (hl.lt_created hheld)
    by_cases heq₁ : h₁ = h
    · rw [heq₁, create_holds_self] at hheld₁
      obtain rfl := Option.some.inj hheld₁
      by_contra hne
      exact hfresh h₂ (fun heq₂ => hne (heq₁.trans heq₂.symm)) hheld₂
    · by_cases heq₂ : h₂ = h
      · rw [heq₂, create_holds_self] at hheld₂
        obtain rfl := Option.some.inj hheld₂
        exact absurd hheld₁ (hfresh h₁ heq₁)
      · rw [create_holds_of_ne heq₁] at hheld₁
        rw [create_holds_of_ne heq₂] at hheld₂
        exact hl.apart h₁ h₂ n hheld₁ hheld₂
  once := hl.once
  known := fun n hmem => Nat.lt_succ_of_lt (hl.known n hmem)

/-- **A creation keeps the references accounted for** exactly when its variable is empty. -/
theorem accounted_create_iff {l : Ledger H} (hl : Sound l) (h : H) :
    (l.create h).Accounted ↔ l.Accounted ∧ l.holds h = none := by
  constructor
  · intro hacc
    have hheld : ∀ n, l.Live n → ∃ h', h' ≠ h ∧ l.holds h' = some n := by
      intro n hlive
      have hcreated := (hacc n).mp ((live_create_iff hl h n).mpr (Or.inl hlive))
      rcases (held_create_iff l h n).mp hcreated with hnew | hother
      · exact absurd hlive.1 (hnew ▸ Nat.lt_irrefl _)
      · exact hother
    refine ⟨?_, ?_⟩
    · intro n
      refine ⟨fun hlive => ?_, hl.live n⟩
      obtain ⟨h', -, hh'⟩ := hheld n hlive
      exact ⟨h', hh'⟩
    · cases hfull : l.holds h with
      | none => rfl
      | some n =>
          obtain ⟨h', hne, hh'⟩ := hheld n (hl.live n ⟨h, hfull⟩)
          exact absurd (hl.apart h' h n hh' hfull) hne
  · rintro ⟨hacc, hnone⟩ n
    rw [live_create_iff hl, held_create_iff, or_comm]
    refine or_congr_right ((hacc n).trans ⟨?_, ?_⟩)
    · rintro ⟨h', hheld⟩
      refine ⟨h', ?_, hheld⟩
      rintro rfl
      exact Option.some_ne_none n (hheld.symm.trans hnone)
    · rintro ⟨h', -, hheld⟩
      exact ⟨h', hheld⟩

-- ── Deleting ──────────────────────────────────────────────────────────────────────

/-- A deletion ends the life of what was held. -/
theorem live_delete_iff {l : Ledger H} {h : H} {n : Nat} (hheld : l.holds h = some n)
    (m : Nat) : (l.delete h).Live m ↔ l.Live m ∧ m ≠ n := by
  rw [delete_of_some hheld]
  show m < l.created ∧ m ∉ n :: l.deleted ↔ (m < l.created ∧ m ∉ l.deleted) ∧ m ≠ n
  rw [List.mem_cons, not_or, and_assoc, and_comm (a := m ≠ n)]

/-- A deletion lets go of what was held, and of nothing else. -/
theorem held_delete_iff {l : Ledger H} (hl : Sound l) {h : H} {n : Nat}
    (hheld : l.holds h = some n) (m : Nat) : (l.delete h).Held m ↔ l.Held m ∧ m ≠ n := by
  constructor
  · rintro ⟨h', hh'⟩
    by_cases heq : h' = h
    · rw [heq, delete_holds_self] at hh'
      exact absurd hh'.symm (Option.some_ne_none m)
    · rw [delete_holds_of_ne heq] at hh'
      refine ⟨⟨h', hh'⟩, ?_⟩
      rintro rfl
      exact heq (hl.apart h' h m hh' hheld)
  · rintro ⟨⟨h', hh'⟩, hne⟩
    refine ⟨h', ?_⟩
    rw [delete_holds_of_ne]
    · exact hh'
    · rintro rfl
      exact hne (Option.some.inj (hh'.symm.trans hheld))

/-- A deletion keeps the ledger sound. -/
theorem sound_delete {l : Ledger H} (hl : Sound l) (h : H) : Sound (l.delete h) := by
  cases hheld : l.holds h with
  | none =>
      rw [delete_of_none hheld]
      exact hl
  | some n =>
      have hlive := hl.live n ⟨h, hheld⟩
      refine ⟨?_, ?_, ?_, ?_⟩
      · intro m hm
        obtain ⟨hold, hne⟩ := (held_delete_iff hl hheld m).mp hm
        exact (live_delete_iff hheld m).mpr ⟨hl.live m hold, hne⟩
      · intro h₁ h₂ m hh₁ hh₂
        have hkept : ∀ h', (l.delete h).holds h' = some m → l.holds h' = some m := by
          intro h' hh'
          by_cases heq : h' = h
          · rw [heq, delete_holds_self] at hh'
            exact absurd hh'.symm (Option.some_ne_none m)
          · rw [delete_holds_of_ne heq] at hh'
            exact hh'
        exact hl.apart h₁ h₂ m (hkept h₁ hh₁) (hkept h₂ hh₂)
      · rw [delete_of_some hheld]
        exact List.nodup_cons.mpr ⟨hlive.2, hl.once⟩
      · rw [delete_of_some hheld]
        intro m hm
        rcases List.mem_cons.mp hm with rfl | hold
        · exact hlive.1
        · exact hl.known m hold

/-- **A deletion** neither loses a reference nor finds a lost one. -/
theorem accounted_delete_iff {l : Ledger H} (hl : Sound l) (h : H) :
    (l.delete h).Accounted ↔ l.Accounted := by
  cases hheld : l.holds h with
  | none => rw [delete_of_none hheld]
  | some n =>
      constructor
      · intro hacc m
        by_cases heq : m = n
        · rw [heq]
          exact iff_of_true (hl.live n ⟨h, hheld⟩) ⟨h, hheld⟩
        · have hm := hacc m
          rw [live_delete_iff hheld, held_delete_iff hl hheld, and_iff_left heq,
            and_iff_left heq] at hm
          exact hm
      · intro hacc m
        rw [live_delete_iff hheld, held_delete_iff hl hheld, hacc m]

-- ── Sequences of operations ───────────────────────────────────────────────────────

/-- Each creation finds its variable empty. -/
def Clean : List (Op H) → Ledger H → Prop
  | [], _ => True
  | op :: ops, l =>
      (match op with
        | .create h => l.holds h = none
        | .delete _ => True) ∧ Clean ops (l.apply op)

/-- Every operation keeps the ledger sound. -/
theorem sound_apply {l : Ledger H} (hl : Sound l) (op : Op H) : Sound (l.apply op) := by
  cases op with
  | create h => exact sound_create hl h
  | delete h => exact sound_delete hl h

/-- So do several. -/
theorem sound_run {l : Ledger H} (hl : Sound l) (ops : List (Op H)) : Sound (l.run ops) := by
  induction ops generalizing l with
  | nil => exact hl
  | cons op ops ih => exact ih (sound_apply hl op)

/-- **The references stay accounted for** exactly when each creation finds its variable
    empty: a reference that was overwritten is never found again. -/
theorem accounted_run_iff {l : Ledger H} (hl : Sound l) (ops : List (Op H)) :
    (l.run ops).Accounted ↔ l.Accounted ∧ Clean ops l := by
  induction ops generalizing l with
  | nil => exact (and_iff_left trivial).symm
  | cons op ops ih =>
      rw [run_cons, ih (sound_apply hl op)]
      cases op with
      | create h =>
          show (l.create h).Accounted ∧ _ ↔ l.Accounted ∧ l.holds h = none ∧ _
          rw [accounted_create_iff hl, and_assoc]
      | delete h =>
          show (l.delete h).Accounted ∧ _ ↔ l.Accounted ∧ True ∧ _
          rw [accounted_delete_iff hl, true_and]

/-- Clean operations in two parts. -/
theorem clean_append (ops ops' : List (Op H)) (l : Ledger H) :
    Clean (ops ++ ops') l ↔ Clean ops l ∧ Clean ops' (l.run ops) := by
  induction ops generalizing l with
  | nil => exact (and_iff_right trivial).symm
  | cons op ops ih =>
      show _ ∧ Clean (ops ++ ops') (l.apply op) ↔ (_ ∧ Clean ops (l.apply op)) ∧ _
      rw [ih, and_assoc, run_cons]

/-- Deletions alone are clean. -/
theorem clean_deletes (hs : List H) (l : Ledger H) : Clean (hs.map Op.delete) l := by
  induction hs generalizing l with
  | nil => trivial
  | cons h hs ih => exact ⟨trivial, ih (l.delete h)⟩

/-- Creations into different variables. -/
theorem clean_creates_iff {hs : List H} (hnodup : hs.Nodup) (l : Ledger H) :
    Clean (hs.map Op.create) l ↔ ∀ h ∈ hs, l.holds h = none := by
  induction hs generalizing l with
  | nil => exact iff_of_true trivial (fun _ hmem => absurd hmem List.not_mem_nil)
  | cons h hs ih =>
      obtain ⟨hnot, hrest⟩ := List.nodup_cons.mp hnodup
      show l.holds h = none ∧ Clean (hs.map Op.create) (l.create h) ↔ _
      rw [ih hrest, List.forall_mem_cons]
      refine and_congr_right (fun _ => forall₂_congr (fun h' hmem => ?_))
      have hne : h' ≠ h := by
        rintro rfl
        exact hnot hmem
      rw [create_holds_of_ne hne]

end RefLedgerLib
