import Mathlib.Data.List.Basic
import Mathlib.Data.List.Induction

/-!
# Properties of a trace, event by event

The two temporal forms that specifications of a run use, with the lemmas that say what
one more event does to them.

* **`AtEach P tr`** — every event of `tr` stands in the relation `P` to the events
  before it ("whenever this is emitted, that was emitted before").
* **`Since p q tr`** — an event with `p` occurs in `tr` and no event with `q` after it
  ("there has been a `p` since the last `q`").
-/

namespace Trace

variable {ε : Type}

/-- Every event stands in the relation `P` to its past. -/
def AtEach (P : List ε → ε → Prop) (tr : List ε) : Prop :=
  ∀ (pre : List ε) (e : ε) (post : List ε), tr = pre ++ e :: post → P pre e

@[simp] theorem atEach_nil (P : List ε → ε → Prop) : AtEach P [] := by
  intro pre e post h
  exact absurd h.symm (List.append_ne_nil_of_right_ne_nil pre (List.cons_ne_nil e post))

/-- One more event: it must stand in the relation to everything before. -/
theorem atEach_snoc {P : List ε → ε → Prop} {tr : List ε} {e : ε} :
    AtEach P (tr ++ [e]) ↔ AtEach P tr ∧ P tr e := by
  constructor
  · intro h
    refine ⟨?_, h tr e [] rfl⟩
    intro pre x post hx
    refine h pre x (post ++ [e]) ?_
    rw [hx, List.append_assoc, List.cons_append]
  · rintro ⟨h, he⟩ pre x post hx
    induction post using List.reverseRecOn with
    | nil =>
        obtain ⟨hpre, hlast⟩ := List.append_inj' hx rfl
        obtain rfl : e = x := List.singleton_inj.mp hlast
        rw [← hpre]
        exact he
    | append_singleton post y _ =>
        have hsplit : tr ++ [e] = (pre ++ x :: post) ++ [y] := by
          rw [hx, List.append_assoc, List.cons_append]
        exact h pre x post (List.append_inj' hsplit rfl).1

/-- Several more events, the first of them first. -/
theorem atEach_append_cons {P : List ε → ε → Prop} {tr es : List ε} {e : ε} :
    AtEach P (tr ++ e :: es) ↔ AtEach P ((tr ++ [e]) ++ es) := by
  rw [List.append_assoc, List.singleton_append]

/-- Events that stand in the relation to any past make no difference. -/
theorem atEach_append_free {P : List ε → ε → Prop} (tr : List ε) {es : List ε}
    (h : ∀ e ∈ es, ∀ pre, P pre e) : AtEach P (tr ++ es) ↔ AtEach P tr := by
  induction es using List.reverseRecOn with
  | nil => rw [List.append_nil]
  | append_singleton es e ih =>
      have hes : ∀ x ∈ es, ∀ pre, P pre x := fun x hx => h x (List.mem_append_left [e] hx)
      have he : P (tr ++ es) e := h e (List.mem_append_right es List.mem_cons_self) _
      rw [← List.append_assoc, atEach_snoc, ih hes]
      exact and_iff_left he

/-- Two relations that agree along the trace give the same property of it. -/
theorem atEach_congr {P Q : List ε → ε → Prop} {tr : List ε}
    (h : AtEach (fun pre e => P pre e ↔ Q pre e) tr) : AtEach P tr ↔ AtEach Q tr := by
  constructor
  · intro hP pre e post he
    exact (h pre e post he).mp (hP pre e post he)
  · intro hQ pre e post he
    exact (h pre e post he).mpr (hQ pre e post he)

/-- There has been a `p` since the last `q`. -/
def Since (p q : ε → Prop) (tr : List ε) : Prop :=
  ∃ (pre : List ε) (e : ε) (post : List ε),
    tr = pre ++ e :: post ∧ p e ∧ ∀ x ∈ post, ¬ q x

@[simp] theorem not_since_nil (p q : ε → Prop) : ¬ Since p q [] := by
  rintro ⟨pre, e, post, h, -, -⟩
  exact absurd h.symm (List.append_ne_nil_of_right_ne_nil pre (List.cons_ne_nil e post))

/-- One more event: it is a `p` itself, or it leaves what there was unless it is a `q`. -/
theorem since_snoc {p q : ε → Prop} {tr : List ε} {e : ε} :
    Since p q (tr ++ [e]) ↔ p e ∨ (Since p q tr ∧ ¬ q e) := by
  constructor
  · rintro ⟨pre, x, post, hx, hp, hq⟩
    induction post using List.reverseRecOn with
    | nil =>
        obtain ⟨-, hlast⟩ := List.append_inj' hx rfl
        obtain rfl : e = x := List.singleton_inj.mp hlast
        exact Or.inl hp
    | append_singleton post y _ =>
        have hsplit : tr ++ [e] = (pre ++ x :: post) ++ [y] := by
          rw [hx, List.append_assoc, List.cons_append]
        obtain ⟨htr, hlast⟩ := List.append_inj' hsplit rfl
        obtain rfl : e = y := List.singleton_inj.mp hlast
        refine Or.inr ⟨⟨pre, x, post, htr, hp, ?_⟩, ?_⟩
        · intro z hz
          exact hq z (List.mem_append_left [e] hz)
        · exact hq e (List.mem_append_right post List.mem_cons_self)
  · rintro (hp | ⟨⟨pre, x, post, hx, hp, hq⟩, he⟩)
    · exact ⟨tr, e, [], rfl, hp, fun x hx => nomatch hx⟩
    · refine ⟨pre, x, post ++ [e], ?_, hp, ?_⟩
      · rw [hx, List.append_assoc, List.cons_append]
      · intro z hz
        rcases List.mem_append.mp hz with hz | hz
        · exact hq z hz
        · rw [List.mem_singleton.mp hz]
          exact he

/-- Events that are neither leave the property as it was. -/
theorem since_snoc_other {p q : ε → Prop} {tr : List ε} {e : ε} (hp : ¬ p e) (hq : ¬ q e) :
    Since p q (tr ++ [e]) ↔ Since p q tr := by
  rw [since_snoc, or_iff_right hp]
  exact and_iff_left hq

end Trace
