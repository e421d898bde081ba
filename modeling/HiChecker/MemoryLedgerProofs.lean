import HiChecker.TraceProofs

/-!
# Blocks of memory, by what is done to them

A trace of allocations, uses and deletions, with what it means that it respects memory.

* **`Live b tr`** — block `b` was allocated and has not been deleted since.
* **`Respects`** — each event finds the blocks as it must: an allocation finds a new one, a
  use or a deletion a live one. A trace of such events has no use after a deletion.
* **`deleted_once`** — and no second deletion either.
-/

namespace MemoryLedger

open Trace

variable {B : Type}

/-- What is done to a block. -/
inductive MemoryEvent (B : Type) where
  | new (b : B)
  | use (b : B)
  | delete (b : B)
deriving DecidableEq

/-- The block that an event is about. -/
def MemoryEvent.block : MemoryEvent B → B
  | .new b => b
  | .use b => b
  | .delete b => b

/-- The block has been allocated and not been deleted since. -/
def Live (b : B) (tr : List (MemoryEvent B)) : Prop := Since (· = .new b) (· = .delete b) tr

/-- How an event relates to the ones before. -/
def Respects (before : List (MemoryEvent B)) : MemoryEvent B → Prop
  | .new b => .new b ∉ before
  | .use b => Live b before
  | .delete b => Live b before

-- ── What one more event does ──────────────────────────────────────────────────────

@[simp] theorem not_live_nil (b : B) : ¬ Live b [] := not_since_nil _ _

@[simp] theorem live_new (b : B) (tr : List (MemoryEvent B)) : Live b (tr ++ [.new b]) :=
  since_snoc.mpr (Or.inl rfl)

@[simp] theorem not_live_delete (b : B) (tr : List (MemoryEvent B)) :
    ¬ Live b (tr ++ [.delete b]) := by
  intro h
  rcases since_snoc.mp h with heq | ⟨-, hne⟩
  · cases heq
  · exact hne rfl

@[simp] theorem live_use {b c : B} {tr : List (MemoryEvent B)} :
    Live b (tr ++ [.use c]) ↔ Live b tr :=
  since_snoc_other (fun h => nomatch h) (fun h => nomatch h)

/-- An event about another block. -/
theorem live_snoc_other {b : B} {e : MemoryEvent B} {tr : List (MemoryEvent B)}
    (he : e.block ≠ b) : Live b (tr ++ [e]) ↔ Live b tr := by
  refine since_snoc_other ?_ ?_
  · rintro rfl
    exact he rfl
  · rintro rfl
    exact he rfl

/-- Events about other blocks change nothing. -/
theorem live_append_other {b : B} (tr : List (MemoryEvent B)) {es : List (MemoryEvent B)}
    (h : ∀ e ∈ es, e.block ≠ b) : Live b (tr ++ es) ↔ Live b tr := by
  induction es using List.reverseRecOn with
  | nil => rw [List.append_nil]
  | append_singleton es e ih =>
      have he : e.block ≠ b := h e (List.mem_append_right _ (List.mem_singleton_self e))
      rw [← List.append_assoc, live_snoc_other he]
      exact ih (fun x hx => h x (List.mem_append_left _ hx))

-- ── What holds of a whole trace ───────────────────────────────────────────────────

/-- A live block was allocated. -/
theorem new_of_live {b : B} {tr : List (MemoryEvent B)} (h : Live b tr) : .new b ∈ tr := by
  obtain ⟨pre, e, post, rfl, rfl, -⟩ := h
  exact List.mem_append_right _ List.mem_cons_self

/-- A deleted block has been allocated. -/
theorem new_of_deleted {b : B} {tr : List (MemoryEvent B)} (hr : AtEach Respects tr)
    (h : .delete b ∈ tr) : .new b ∈ tr := by
  obtain ⟨pre, post, hsplit⟩ := List.append_of_mem h
  have hlive : Live b pre := hr pre _ post hsplit
  rw [hsplit]
  exact List.mem_append_left _ (new_of_live hlive)

/-- **A live block has not been deleted**: it was allocated once, and not since. -/
theorem not_deleted_of_live {b : B} {tr : List (MemoryEvent B)} (hr : AtEach Respects tr)
    (h : Live b tr) : .delete b ∉ tr := by
  induction tr using List.reverseRecOn with
  | nil => exact List.not_mem_nil
  | append_singleton tr e ih =>
      obtain ⟨hold, he⟩ := atEach_snoc.mp hr
      intro hmem
      rcases since_snoc.mp h with rfl | ⟨hlive, hne⟩
      · rcases List.mem_append.mp hmem with hmem | hmem
        · exact he (new_of_deleted hold hmem)
        · cases List.mem_singleton.mp hmem
      · rcases List.mem_append.mp hmem with hmem | hmem
        · exact ih hold hlive hmem
        · exact hne (List.mem_singleton.mp hmem).symm

/-- **Nothing is deleted twice.** -/
theorem deleted_once [DecidableEq B] {tr : List (MemoryEvent B)} (hr : AtEach Respects tr)
    (b : B) : tr.count (.delete b) ≤ 1 := by
  induction tr using List.reverseRecOn with
  | nil => exact Nat.zero_le _
  | append_singleton tr e ih =>
      obtain ⟨hold, he⟩ := atEach_snoc.mp hr
      rw [List.count_append]
      by_cases heq : e = .delete b
      · subst heq
        rw [List.count_eq_zero_of_not_mem (not_deleted_of_live hold he), Nat.zero_add]
        exact List.count_le_length
      · rw [List.count_singleton, if_neg (fun h => heq (beq_iff_eq.mp h))]
        exact ih hold

end MemoryLedger
