import Mathlib.Data.List.Basic

/-!
# Machines, guarded runs and what holds along them

A machine takes one input at a time, may refuse it, and emits events. Everything
that is proved about "every order of steps" later on is an invariant of such a
machine, stated over the state reached **and** the events emitted on the way.

* **`Machine`** — an initial state and a partial step that returns the next state
  and the events of the step.
* **`Run M G s tr`** — `s` is reached, `tr` was emitted, and every step on the way
  met the guard `G` (a condition on the state before the step and the input). The
  trivial guard `anyStep` gives plain reachability.
* **`Run.invariant`** — the induction rule: holds at the start, preserved by each
  guarded step, hence holds along every guarded run.
* **`exec`** / **`run_of_exec`** — a run on a concrete list of inputs is computed,
  and what it computes is a `Run`.
* **`Machine.logged`** — the machine that keeps its own trace, for guards that speak
  of the past.
* **`Machine.observing`** — the same machine, seen through other events.
-/

namespace Transition

/-- A deterministic machine with partial steps and emitted events. -/
structure Machine (σ α ε : Type) where
  init : σ
  step : σ → α → Option (σ × List ε)

/-- The guard that admits every step. -/
def anyStep {σ α : Type} : σ → α → Prop := fun _ _ => True

instance {σ α : Type} : DecidableRel (anyStep (σ := σ) (α := α)) :=
  fun _ _ => isTrue trivial

variable {σ α ε : Type} {M : Machine σ α ε} {G : σ → α → Prop}

/-- The guarded runs of a machine: the state reached and the events emitted. -/
inductive Run (M : Machine σ α ε) (G : σ → α → Prop) : σ → List ε → Prop where
  | start : Run M G M.init []
  | next {s s' : σ} {tr es : List ε} {a : α} :
      Run M G s tr → G s a → M.step s a = some (s', es) → Run M G s' (tr ++ es)

/-- **The invariant rule.** What holds at the start and survives every guarded step
    holds of every guarded run, events included. -/
theorem Run.invariant {I : σ → List ε → Prop} (h0 : I M.init [])
    (hstep : ∀ s tr a s' es, I s tr → G s a → M.step s a = some (s', es) →
      I s' (tr ++ es))
    {s : σ} {tr : List ε} (hr : Run M G s tr) : I s tr := by
  induction hr with
  | start => exact h0
  | next _ hg hs ih => exact hstep _ _ _ _ _ ih hg hs

/-- The invariant rule for a property of the state alone. -/
theorem Run.state_invariant {I : σ → Prop} (h0 : I M.init)
    (hstep : ∀ s a s' es, I s → G s a → M.step s a = some (s', es) → I s')
    {s : σ} {tr : List ε} (hr : Run M G s tr) : I s :=
  Run.invariant (I := fun s _ => I s) h0
    (fun s _ a s' es hI hg hs => hstep s a s' es hI hg hs) hr

/-- Run a list of inputs, refusing when a step does or when the guard fails. -/
def execFrom (M : Machine σ α ε) (G : σ → α → Prop) [DecidableRel G] :
    σ → List α → Option (σ × List ε)
  | s, [] => some (s, [])
  | s, a :: as =>
      if G s a then
        match M.step s a with
        | none => none
        | some (s', es) =>
            match execFrom M G s' as with
            | none => none
            | some (t, tr) => some (t, es ++ tr)
      else none

/-- A step, and what is computed from there on. -/
theorem execFrom_cons [DecidableRel G] {s s' t : σ} {a : α} {as : List α} {es tr : List ε}
    (hg : G s a) (hs : M.step s a = some (s', es)) (he : execFrom M G s' as = some (t, tr)) :
    execFrom M G s (a :: as) = some (t, es ++ tr) := by
  simp only [execFrom, if_pos hg, hs, he]

/-- One computed continuation after another. -/
theorem execFrom_append [DecidableRel G] {s t u : σ} {as bs : List α} {es fs : List ε}
    (h : execFrom M G s as = some (t, es)) (h' : execFrom M G t bs = some (u, fs)) :
    execFrom M G s (as ++ bs) = some (u, es ++ fs) := by
  induction as generalizing s es with
  | nil =>
      obtain ⟨rfl, rfl⟩ := Prod.mk.inj (Option.some.inj h)
      exact h'
  | cons a as ih =>
      rw [execFrom] at h
      by_cases hg : G s a
      · rw [if_pos hg] at h
        split at h
        · exact absurd h.symm (Option.some_ne_none _)
        · rename_i s₁ es₁ hs
          split at h
          · exact absurd h.symm (Option.some_ne_none _)
          · rename_i t₁ tr₁ hx
            obtain ⟨rfl, rfl⟩ := Prod.mk.inj (Option.some.inj h)
            rw [List.append_assoc]
            exact execFrom_cons hg hs (ih hx)
      · rw [if_neg hg] at h
        exact absurd h.symm (Option.some_ne_none _)

/-- Run a list of inputs from the initial state. -/
def exec (M : Machine σ α ε) (G : σ → α → Prop) [DecidableRel G] (as : List α) :
    Option (σ × List ε) :=
  execFrom M G M.init as

/-- A computed continuation extends a run. -/
theorem run_of_execFrom [DecidableRel G] (as : List α) :
    ∀ (s t : σ) (pre tr : List ε), Run M G s pre →
      execFrom M G s as = some (t, tr) → Run M G t (pre ++ tr) := by
  induction as with
  | nil =>
      intro s t pre tr hr he
      simp only [execFrom, Option.some.injEq, Prod.mk.injEq] at he
      obtain ⟨rfl, rfl⟩ := he
      simpa using hr
  | cons a as ih =>
      intro s t pre tr hr he
      simp only [execFrom] at he
      by_cases hg : G s a
      · rw [if_pos hg] at he
        cases hs : M.step s a with
        | none => rw [hs] at he; exact nomatch he
        | some p =>
            obtain ⟨s', es⟩ := p
            rw [hs] at he
            simp only at he
            cases hx : execFrom M G s' as with
            | none => rw [hx] at he; exact nomatch he
            | some q =>
                obtain ⟨t', tr'⟩ := q
                rw [hx] at he
                simp only [Option.some.injEq, Prod.mk.injEq] at he
                obtain ⟨rfl, rfl⟩ := he
                rw [← List.append_assoc]
                exact ih s' t' (pre ++ es) tr' (Run.next hr hg hs) hx
      · rw [if_neg hg] at he; exact nomatch he

/-- **What `exec` computes is a run.** -/
theorem run_of_exec [DecidableRel G] {as : List α} {t : σ} {tr : List ε}
    (he : exec M G as = some (t, tr)) : Run M G t tr := by
  have h := run_of_execFrom as M.init t [] tr Run.start he
  simpa using h

-- ── Guards that see the past ──────────────────────────────────────────────────────

/-- The machine with its trace in its state. -/
def Machine.logged (M : Machine σ α ε) : Machine (σ × List ε) α ε where
  init := (M.init, [])
  step := fun p a => (M.step p.1 a).map (fun q => ((q.1, p.2 ++ q.2), q.2))

/-- A step of the logged machine is a step of the machine, and writes its events down. -/
theorem Machine.logged_step {p p' : σ × List ε} {a : α} {es : List ε}
    (hs : M.logged.step p a = some (p', es)) :
    M.step p.1 a = some (p'.1, es) ∧ p'.2 = p.2 ++ es := by
  obtain ⟨q, hq, heq⟩ := Option.map_eq_some_iff.mp hs
  obtain ⟨rfl, rfl⟩ := Prod.mk.inj heq
  exact ⟨hq, rfl⟩

/-- **The log is the trace.** -/
theorem Run.log_eq {G : σ × List ε → α → Prop} {p : σ × List ε} {tr : List ε}
    (hr : Run M.logged G p tr) : p.2 = tr := by
  induction hr with
  | start => rfl
  | next _ _ hs ih => rw [(Machine.logged_step hs).2, ih]

-- ── Other events ──────────────────────────────────────────────────────────────────

/-- The machine with the events that an observer reads off each step. -/
def Machine.observing {ε' : Type} (M : Machine σ α ε) (obs : σ → α → List ε') :
    Machine σ α ε' where
  init := M.init
  step := fun s a => (M.step s a).map (fun p => (p.1, obs s a))

/-- An observed step is a step, with what the observer reads off it. -/
theorem Machine.observing_step {ε' : Type} {obs : σ → α → List ε'} {s s' : σ} {a : α}
    {es : List ε'} (hs : (M.observing obs).step s a = some (s', es)) :
    (∃ es', M.step s a = some (s', es')) ∧ es = obs s a := by
  obtain ⟨p, hp, heq⟩ := Option.map_eq_some_iff.mp hs
  obtain ⟨rfl, rfl⟩ := Prod.mk.inj heq
  exact ⟨⟨p.2, hp⟩, rfl⟩

end Transition
