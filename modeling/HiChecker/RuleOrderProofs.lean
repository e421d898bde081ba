import HiChecker.RuleTraceProofs
import Mathlib.Data.List.Induction

/-!
# When the order of two calls matters

Two calls conflict when both are accepted, one is an `AddRule` and the other a `RemoveRule`,
and they name a rule that both of them write: any common rule for two calls of one thread, a
common process or caution rule for calls of different threads.

* **`Swaps`** — histories up to exchanges of independent neighbours; **`Swaps.foldl_eq`**: where
  independent events commute in every state of an invariant, they end in the same state.
* **`commute_iff`** — two calls commute exactly when they do not conflict.
* **`order_matters_iff`** — so a history may be rearranged by exchanging neighbours that do not
  conflict, and no further.
-/

-- ── Histories up to the order of independent events ───────────────────────────────

namespace SwapsLib

variable {ε σ : Type} {indep : ε → ε → Prop}

/-- Exchanges of independent neighbours. -/
inductive Swaps (indep : ε → ε → Prop) : List ε → List ε → Prop where
  | refl (h : List ε) : Swaps indep h h
  | swap (before after : List ε) {e e' : ε} : indep e e' →
      Swaps indep (before ++ e :: e' :: after) (before ++ e' :: e :: after)
  | trans {h h' h'' : List ε} : Swaps indep h h' → Swaps indep h' h'' → Swaps indep h h''

variable {f : σ → ε → σ} {Inv : σ → Prop}

/-- The invariant holds wherever a history leads. -/
theorem inv_foldl (hstep : ∀ s e, Inv s → Inv (f s e)) {s : σ} (hs : Inv s) (h : List ε) :
    Inv (h.foldl f s) := by
  induction h generalizing s with
  | nil => exact hs
  | cons e h ih => exact ih (hstep s e hs)

/-- **Independent events may come in either order.** -/
theorem Swaps.foldl_eq (hstep : ∀ s e, Inv s → Inv (f s e))
    (hcomm : ∀ s e e', Inv s → indep e e' → f (f s e) e' = f (f s e') e)
    {h h' : List ε} (hswaps : Swaps indep h h') {s : σ} (hs : Inv s) :
    h.foldl f s = h'.foldl f s := by
  induction hswaps with
  | refl h => rfl
  | @swap before after e e' hindep =>
      rw [List.foldl_append, List.foldl_append, List.foldl_cons, List.foldl_cons,
        List.foldl_cons, List.foldl_cons, hcomm _ e e' (inv_foldl hstep hs before) hindep]
  | trans hleft hright ihleft ihright => exact ihleft.trans ihright

end SwapsLib

namespace RuleOrder

open BitMask RuleStore RuleTrace SwapsLib

variable {Thread : Type} [DecidableEq Thread]

/-- The store after one more call. -/
def apply (s : Store Thread) (e : Thread × RuleCall) : Store Thread := e.2.run e.1 s

/-- The two calls write different values to a bit of the same word. -/
structure Conflict (e e' : Thread × RuleCall) : Prop where
  accepted : checkRule e.2.mask = true
  accepted' : checkRule e'.2.mask = true
  opposite : e.2.isAdd ≠ e'.2.isAdd
  shared : ∃ b ∈ bits e.2.mask, b ∈ bits e'.2.mask ∧ (e.1 = e'.1 ∨ b ∈ processScope)

/-- Two writes to one cell come to the same in either order exactly when they write the same
    or do not both reach it. -/
theorem two_writes {r r' : Prop} [Decidable r] [Decidable r'] {v v' old : Prop} :
    ((if r' then v' else if r then v else old) ↔ (if r then v else if r' then v' else old))
      ↔ (r → r' → (v ↔ v')) := by
  by_cases hr : r
  · by_cases hr' : r'
    · simp only [if_pos hr, if_pos hr']
      exact ⟨fun h _ _ => h.symm, fun h => (h hr hr').symm⟩
    · simp only [if_pos hr, if_neg hr']
      exact iff_of_true trivial (fun _ h => absurd h hr')
  · simp only [if_neg hr]
    exact iff_of_true trivial (fun h => absurd h hr)

variable {e e' : Thread × RuleCall} (s : Store Thread)

/-- One bit of a thread word after two calls, in either order. -/
theorem thread_either (hc : checkRule e.2.mask = true) (hc' : checkRule e'.2.mask = true)
    (u : Thread) {b : Nat} (hb : b ∈ threadScope) :
    (b ∈ bits ((apply (apply s e) e').threadLocalRules u)
        ↔ b ∈ bits ((apply (apply s e') e).threadLocalRules u))
      ↔ (e.1 = u ∧ b ∈ bits e.2.mask → e'.1 = u ∧ b ∈ bits e'.2.mask →
          (e.2.isAdd = true ↔ e'.2.isAdd = true)) := by
  have hby : ∀ t : Thread, byThread u t = true ↔ t = u := fun t => beq_iff_eq
  rw [apply, mem_thread_run hc' e'.1 u _ hb, apply, mem_thread_run hc e.1 u _ hb, apply,
    mem_thread_run hc e.1 u _ hb, apply, mem_thread_run hc' e'.1 u _ hb, two_writes, hby, hby]

/-- One bit of the process word after two calls, in either order. -/
theorem process_either (hc : checkRule e.2.mask = true) (hc' : checkRule e'.2.mask = true)
    {b : Nat} (hb : b ∈ processScope) :
    (b ∈ bits (apply (apply s e) e').processRules
        ↔ b ∈ bits (apply (apply s e') e).processRules)
      ↔ (b ∈ bits e.2.mask → b ∈ bits e'.2.mask →
          (e.2.isAdd = true ↔ e'.2.isAdd = true)) := by
  have hany : ∀ (t : Thread) (p : Prop), byAnyone t = true ∧ p ↔ p :=
    fun _ _ => and_iff_right rfl
  rw [apply, mem_process_run hc' e'.1 _ hb, apply, mem_process_run hc e.1 _ hb, apply,
    mem_process_run hc e.1 _ hb, apply, mem_process_run hc' e'.1 _ hb, two_writes, hany, hany]

variable {s}

theorem scoped_apply (hs : Scoped s) (e : Thread × RuleCall) : Scoped (apply s e) := by
  obtain ⟨t, c⟩ := e
  cases c with
  | add rule => exact scoped_addRule hs t rule
  | remove rule => exact scoped_removeRule hs t rule

/-- Accepted calls that do not conflict commute. -/
theorem commute_of_not_conflict (hs : Scoped s) (hc : checkRule e.2.mask = true)
    (hc' : checkRule e'.2.mask = true) (hno : ¬ Conflict e e') :
    apply (apply s e) e' = apply (apply s e') e := by
  have hsame : ∀ b ∈ bits e.2.mask, b ∈ bits e'.2.mask → e.1 = e'.1 ∨ b ∈ processScope →
      (e.2.isAdd = true ↔ e'.2.isAdd = true) := by
    intro b hb hb' hword
    rw [← Bool.eq_iff_iff]
    by_contra hne
    exact hno ⟨hc, hc', hne, b, hb, hb', hword⟩
  have hscoped := scoped_apply (scoped_apply hs e) e'
  have hscoped' := scoped_apply (scoped_apply hs e') e
  refine scoped_ext hscoped hscoped' ?_ ?_
  · ext b
    by_cases hb : b ∈ processScope
    · refine (process_either s hc hc' hb).mpr ?_
      intro hmem hmem'
      exact hsame b hmem hmem' (Or.inr hb)
    · exact iff_of_false (fun h => hb (hscoped.process h)) (fun h => hb (hscoped'.process h))
  · intro u
    ext b
    by_cases hb : b ∈ threadScope
    · refine (thread_either s hc hc' u hb).mpr ?_
      intro hmem hmem'
      exact hsame b hmem.2 hmem'.2 (Or.inl (hmem.1.trans hmem'.1.symm))
    · exact iff_of_false (fun h => hb (hscoped.thread u h)) (fun h => hb (hscoped'.thread u h))

/-- Conflicting calls leave a different store in either order, whatever it was before. -/
theorem ne_of_conflict (h : Conflict e e') :
    apply (apply s e) e' ≠ apply (apply s e') e := by
  intro heq
  obtain ⟨b, hb, hb', hword⟩ := h.shared
  have hne : ¬ (e.2.isAdd = true ↔ e'.2.isAdd = true) :=
    fun hiff => h.opposite (Bool.eq_iff_iff.mpr hiff)
  by_cases hprocess : b ∈ processScope
  · exact hne ((process_either s h.accepted h.accepted' hprocess).mp (by rw [heq]) hb hb')
  · -- what is no process rule is a thread rule, so the two calls are of one thread
    have hthread : b ∈ threadScope := by
      have hall : b ∈ bits allRules := ((checkRule_iff e.2.mask).mp h.accepted).2 hb
      rw [bits_allRules] at hall
      exact hall.resolve_right hprocess
    have hsame : e.1 = e'.1 := hword.resolve_right hprocess
    exact hne ((thread_either s h.accepted h.accepted' e'.1 hthread).mp (by rw [heq])
      ⟨hsame, hb⟩ ⟨rfl, hb'⟩)

/-- **Two calls commute exactly when they do not conflict.** -/
theorem commute_iff (hs : Scoped s) :
    apply (apply s e) e' = apply (apply s e') e ↔ ¬ Conflict e e' := by
  constructor
  · intro heq hconflict
    exact ne_of_conflict hconflict heq
  · intro hno
    cases hc : checkRule e.2.mask with
    | false => rw [apply, apply, apply, apply, run_rejected hc, run_rejected hc]
    | true =>
        cases hc' : checkRule e'.2.mask with
        | false => rw [apply, apply, apply, apply, run_rejected hc', run_rejected hc']
        | true => exact commute_of_not_conflict hs hc hc' hno

/-- **The order of calls matters up to conflicts.** Exchanging neighbours that do not conflict,
    any number of times, leaves the store as it was; two conflicting calls leave a different one
    in either order, behind every history. -/
theorem order_matters_iff (h : List (Thread × RuleCall)) :
    (∀ h', Swaps (fun e e' => ¬ Conflict e e') h h' → replay h' = replay h) ∧
    ∀ e e', replay (h ++ [e, e']) = replay (h ++ [e', e]) ↔ ¬ Conflict e e' := by
  constructor
  · intro h' hswaps
    exact (hswaps.foldl_eq (f := apply) (fun _ e hs => scoped_apply hs e)
      (fun _ _ _ hs hno => (commute_iff hs).mpr hno) scoped_initial).symm
  · intro e e'
    have hsnoc : ∀ e e' : Thread × RuleCall,
        replay (h ++ [e, e']) = apply (apply (replay h) e) e' := by
      intro e e'
      rw [replay, List.foldl_append]
      rfl
    rw [hsnoc, hsnoc]
    exact commute_iff (scoped_replay h)

end RuleOrder
