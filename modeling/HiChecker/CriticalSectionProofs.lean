import HiChecker.TransitionProofs

/-!
# Critical sections

Calls that hold one lock from their first statement to their last. The statements of a
call work on the shared state and on registers of its own, and between any two of them
anything may happen that does not need the lock.

* **`Procedure`** — the statements of a call; `Procedure.run` executes them at once.
* **`locked`** — the machine that executes them one at a time, under the lock.
* **`atomic`** — the machine whose steps are whole calls.
* **`serialized`** — what the callers of `locked` see is what the callers of `atomic` see,
  in the order in which the calls return.
* **`view_between`** — a variable that a call writes once, read without the lock, has the
  value of before or of after the call.
-/

namespace CriticalSectionLib

open Transition

variable {σ ρ Call : Type}

-- ── Procedures ────────────────────────────────────────────────────────────────────

/-- A statement works on the shared state and on the registers of its call. -/
abbrev Statement (σ ρ : Type) := σ × ρ → σ × ρ

/-- What a call does while it has the lock. -/
structure Procedure (σ ρ : Type) where
  registers : ρ
  body : List (Statement σ ρ)

/-- Execute statements, one after another. -/
def execute (body : List (Statement σ ρ)) (x : σ × ρ) : σ × ρ :=
  body.foldl (fun x statement => statement x) x

theorem execute_append (body body' : List (Statement σ ρ)) (x : σ × ρ) :
    execute (body ++ body') x = execute body' (execute body x) :=
  List.foldl_append

theorem execute_snoc (body : List (Statement σ ρ)) (statement : Statement σ ρ) (x : σ × ρ) :
    execute (body ++ [statement]) x = statement (execute body x) :=
  execute_append body [statement] x

/-- The whole call at once. -/
def Procedure.run (p : Procedure σ ρ) (s : σ) : σ × ρ := execute p.body (s, p.registers)

-- ── The two machines ──────────────────────────────────────────────────────────────

/-- The call that has the lock, and the statements it has not executed yet. -/
structure Holder (Call σ ρ : Type) where
  call : Call
  registers : ρ
  rest : List (Statement σ ρ)

/-- What the lock guards, and the call that has it. -/
structure Guarded (Call σ ρ : Type) where
  shared : σ
  holder : Option (Holder Call σ ρ) := none

/-- A call takes the lock, goes on, or gives it back. -/
inductive Move (Call : Type) where
  | acquire (call : Call)
  | statement
  | release

/-- A call that has returned, with its registers. -/
structure Returned (Call ρ : Type) where
  call : Call
  registers : ρ

variable (proc : Call → Procedure σ ρ)

/-- One move, where it is possible. -/
def step (s : Guarded Call σ ρ) :
    Move Call → Option (Guarded Call σ ρ × List (Returned Call ρ))
  | .acquire call =>
      match s.holder with
      | some _ => none
      | none =>
          some ({ s with holder := some ⟨call, (proc call).registers, (proc call).body⟩ }, [])
  | .statement =>
      match s.holder with
      | some ⟨call, registers, statement :: rest⟩ =>
          let x := statement (s.shared, registers)
          some ({ shared := x.1, holder := some ⟨call, x.2, rest⟩ }, [])
      | _ => none
  | .release =>
      match s.holder with
      | some ⟨call, registers, []⟩ => some ({ s with holder := none }, [⟨call, registers⟩])
      | _ => none

/-- One statement at a time. -/
def locked (init : σ) : Machine (Guarded Call σ ρ) (Move Call) (Returned Call ρ) :=
  ⟨{ shared := init }, step proc⟩

/-- One call at a time. -/
def atomic (init : σ) : Machine σ Call (Returned Call ρ) :=
  ⟨init, fun s call => some (((proc call).run s).1, [⟨call, ((proc call).run s).2⟩])⟩

-- ── Between two calls ─────────────────────────────────────────────────────────────

/-- The shared state after whole calls that led to `s₀`, and after what the call that has
    the lock has executed. -/
inductive InProgress (s₀ : σ) : Guarded Call σ ρ → Prop where
  | free : InProgress s₀ { shared := s₀ }
  | busy (call : Call) (done rest : List (Statement σ ρ))
      (hbody : (proc call).body = done ++ rest) :
      InProgress s₀
        { shared := (execute done (s₀, (proc call).registers)).1
          holder := some ⟨call, (execute done (s₀, (proc call).registers)).2, rest⟩ }

variable {proc}

/-- All that a step can do: it begins a call, goes on with it, or ends it. -/
theorem step_cases {s₀ : σ} {s s' : Guarded Call σ ρ} {m : Move Call}
    {es : List (Returned Call ρ)} (h : InProgress proc s₀ s)
    (hs : step proc s m = some (s', es)) :
    (es = [] ∧ InProgress proc s₀ s')
      ∨ ∃ call, es = [⟨call, ((proc call).run s₀).2⟩]
          ∧ s' = { shared := ((proc call).run s₀).1 } := by
  cases h with
  | free =>
      cases m with
      | acquire call =>
          obtain ⟨rfl, rfl⟩ := Prod.mk.inj (Option.some.inj hs)
          exact Or.inl ⟨rfl, InProgress.busy call [] (proc call).body rfl⟩
      | statement => exact absurd hs.symm (Option.some_ne_none _)
      | release => exact absurd hs.symm (Option.some_ne_none _)
  | busy call done rest hbody =>
      cases m with
      | acquire call' => exact absurd hs.symm (Option.some_ne_none _)
      | statement =>
          cases rest with
          | nil => exact absurd hs.symm (Option.some_ne_none _)
          | cons statement rest =>
              obtain ⟨rfl, rfl⟩ := Prod.mk.inj (Option.some.inj hs)
              have hbody' : (proc call).body = (done ++ [statement]) ++ rest := by
                rw [hbody, List.append_assoc]
                rfl
              have hnext : InProgress proc s₀ _ :=
                InProgress.busy call (done ++ [statement]) rest hbody'
              rw [execute_snoc] at hnext
              exact Or.inl ⟨rfl, hnext⟩
      | release =>
          cases rest with
          | cons statement rest => exact absurd hs.symm (Option.some_ne_none _)
          | nil =>
              obtain ⟨rfl, rfl⟩ := Prod.mk.inj (Option.some.inj hs)
              rw [List.append_nil] at hbody
              refine Or.inr ⟨call, ?_, ?_⟩
              · rw [Procedure.run, hbody]
              · rw [Procedure.run, hbody]

/-- What returns had the lock. -/
theorem returned_held {s s' : Guarded Call σ ρ} {m : Move Call} {es : List (Returned Call ρ)}
    (hs : step proc s m = some (s', es)) {e : Returned Call ρ} (he : e ∈ es) :
    ∃ holder, s.holder = some holder ∧ holder.call = e.call := by
  obtain ⟨shared, holder⟩ := s
  cases m with
  | acquire call =>
      cases holder with
      | some holder => exact absurd hs.symm (Option.some_ne_none _)
      | none =>
          obtain ⟨rfl, rfl⟩ := Prod.mk.inj (Option.some.inj hs)
          exact absurd he List.not_mem_nil
  | statement =>
      rcases holder with _ | ⟨call, registers, _ | ⟨statement, rest⟩⟩
      · exact absurd hs.symm (Option.some_ne_none _)
      · exact absurd hs.symm (Option.some_ne_none _)
      · obtain ⟨rfl, rfl⟩ := Prod.mk.inj (Option.some.inj hs)
        exact absurd he List.not_mem_nil
  | release =>
      rcases holder with _ | ⟨call, registers, _ | ⟨statement, rest⟩⟩
      · exact absurd hs.symm (Option.some_ne_none _)
      · obtain ⟨rfl, rfl⟩ := Prod.mk.inj (Option.some.inj hs)
        rw [List.mem_singleton.mp he]
        exact ⟨_, rfl, rfl⟩
      · exact absurd hs.symm (Option.some_ne_none _)

/-- Whoever has the lock after a step has just taken it, or had it before. -/
theorem holder_of_step {s s' : Guarded Call σ ρ} {m : Move Call} {es : List (Returned Call ρ)}
    (hs : step proc s m = some (s', es)) {holder : Holder Call σ ρ}
    (hholder : s'.holder = some holder) :
    m = .acquire holder.call ∨ ∃ before, s.holder = some before ∧ before.call = holder.call := by
  obtain ⟨shared, held⟩ := s
  cases m with
  | acquire call =>
      cases held with
      | some held => exact absurd hs.symm (Option.some_ne_none _)
      | none =>
          obtain ⟨rfl, rfl⟩ := Prod.mk.inj (Option.some.inj hs)
          rw [← Option.some.inj hholder]
          exact Or.inl rfl
  | statement =>
      rcases held with _ | ⟨call, registers, _ | ⟨statement, rest⟩⟩
      · exact absurd hs.symm (Option.some_ne_none _)
      · exact absurd hs.symm (Option.some_ne_none _)
      · obtain ⟨rfl, rfl⟩ := Prod.mk.inj (Option.some.inj hs)
        rw [← Option.some.inj hholder]
        exact Or.inr ⟨_, rfl, rfl⟩
  | release =>
      rcases held with _ | ⟨call, registers, _ | ⟨statement, rest⟩⟩
      · exact absurd hs.symm (Option.some_ne_none _)
      · obtain ⟨rfl, rfl⟩ := Prod.mk.inj (Option.some.inj hs)
        exact absurd hholder.symm (Option.some_ne_none _)
      · exact absurd hs.symm (Option.some_ne_none _)

/-- **Calls under the lock are serialized**: what returned is what a run of whole calls
    returns, and the shared state is what they lead to, but for the call in progress. -/
theorem serialized {init : σ} {s : Guarded Call σ ρ} {tr : List (Returned Call ρ)}
    (hr : Run (locked proc init) anyStep s tr) :
    ∃ s₀, Run (atomic proc init) anyStep s₀ tr ∧ InProgress proc s₀ s := by
  induction hr with
  | start => exact ⟨init, Run.start, InProgress.free⟩
  | next _ _ hs ih =>
      obtain ⟨s₀, hrun, hprogress⟩ := ih
      rcases step_cases hprogress hs with ⟨rfl, hprogress'⟩ | ⟨call, rfl, rfl⟩
      · rw [List.append_nil]
        exact ⟨s₀, hrun, hprogress'⟩
      · exact ⟨((proc call).run s₀).1, Run.next (a := call) hrun trivial rfl, InProgress.free⟩

/-- Whole calls lead to the fold of the calls. -/
theorem shared_of_atomic {init s₀ : σ} {tr : List (Returned Call ρ)}
    (hr : Run (atomic proc init) anyStep s₀ tr) :
    s₀ = tr.foldl (fun s e => ((proc e.call).run s).1) init := by
  induction hr with
  | start => rfl
  | next _ _ hs ih =>
      obtain ⟨rfl, rfl⟩ := Prod.mk.inj (Option.some.inj hs)
      rw [List.foldl_append, ← ih]
      rfl

/-- Each call returns what it returns after those before it. -/
theorem returned_of_atomic {init s₀ : σ} {tr : List (Returned Call ρ)}
    (hr : Run (atomic proc init) anyStep s₀ tr) {before after : List (Returned Call ρ)}
    {e : Returned Call ρ} (htr : tr = before ++ e :: after) :
    e.registers
      = ((proc e.call).run
          (before.foldl (fun s e => ((proc e.call).run s).1) init)).2 := by
  induction hr generalizing after with
  | start =>
      exact absurd htr.symm
        (List.append_ne_nil_of_right_ne_nil before (List.cons_ne_nil e after))
  | next hrun _ hs ih =>
      obtain ⟨rfl, rfl⟩ := Prod.mk.inj (Option.some.inj hs)
      rcases List.eq_nil_or_concat after with rfl | ⟨after, e', rfl⟩
      · obtain ⟨rfl, hlast⟩ := List.append_inj' htr rfl
        obtain rfl := (List.cons.inj hlast).1
        rw [← shared_of_atomic hrun]
      · rw [List.concat_eq_append, ← List.cons_append, ← List.append_assoc] at htr
        exact ih (List.append_inj' htr rfl).1

-- ── Reading without the lock ──────────────────────────────────────────────────────

/-- The call writes the variable once, or not at all. -/
def Procedure.WritesOnce {β : Type} (view : σ → β) (p : Procedure σ ρ) : Prop :=
  ∀ done rest, p.body = done ++ rest → ∀ s,
    view (execute done (s, p.registers)).1 = view s
      ∨ view (execute done (s, p.registers)).1 = view (p.run s).1

/-- A statement leaves the variable alone. -/
def Keeps {β : Type} (view : σ → β) (statement : Statement σ ρ) : Prop :=
  ∀ x, view (statement x).1 = view x.1

/-- What no statement touches stays. -/
theorem view_execute {β : Type} {view : σ → β} {body : List (Statement σ ρ)}
    (h : ∀ statement ∈ body, Keeps view statement) (x : σ × ρ) :
    view (execute body x).1 = view x.1 := by
  induction body generalizing x with
  | nil => rfl
  | cons statement body ih =>
      have htail := ih (fun m hm => h m (List.mem_cons_of_mem statement hm)) (statement x)
      exact htail.trans (h statement List.mem_cons_self x)

/-- No statement but one writes the variable. -/
theorem writesOnce_of_one {β : Type} {view : σ → β} {p : Procedure σ ρ}
    {pre post : List (Statement σ ρ)} {statement : Statement σ ρ}
    (hbody : p.body = pre ++ statement :: post) (hpre : ∀ m ∈ pre, Keeps view m)
    (hpost : ∀ m ∈ post, Keeps view m) : p.WritesOnce view := by
  intro done rest hsplit s
  rcases List.append_eq_append_iff.mp (hbody.symm.trans hsplit) with
    ⟨middle, rfl, htail⟩ | ⟨middle, rfl, -⟩
  · -- the write is the head of what follows `pre`, or nothing is executed behind `pre`
    cases middle with
    | nil =>
        rw [List.append_nil]
        exact Or.inl (view_execute hpre _)
    | cons m middle =>
        obtain ⟨rfl, rfl⟩ := List.cons.inj htail
        have hrest : ∀ m ∈ rest, Keeps view m :=
          fun m hm => hpost m (List.mem_append_right middle hm)
        have hrun : p.run s
            = execute rest (execute (pre ++ statement :: middle) (s, p.registers)) :=
          (congrArg (fun body => execute body (s, p.registers)) hsplit).trans
            (execute_append _ _ _)
        refine Or.inr ?_
        rw [hrun]
        exact (view_execute hrest _).symm
  · exact Or.inl (view_execute (fun m hm => hpre m (List.mem_append_left middle hm)) _)

/-- What is never written is written at most once. -/
theorem writesOnce_of_keeps {β : Type} {view : σ → β} {p : Procedure σ ρ}
    (h : ∀ m ∈ p.body, Keeps view m) : p.WritesOnce view := by
  intro done rest hsplit s
  refine Or.inl (view_execute (fun m hm => h m ?_) _)
  rw [hsplit]
  exact List.mem_append_left rest hm

/-- **A reader without the lock** sees such a variable as it is after the calls that have
    returned, or after these and the call in progress. -/
theorem view_between {β : Type} {view : σ → β} (honce : ∀ call, (proc call).WritesOnce view)
    {s₀ : σ} {s : Guarded Call σ ρ} (h : InProgress proc s₀ s) :
    view s.shared = view s₀
      ∨ ∃ holder, s.holder = some holder
          ∧ view s.shared = view ((proc holder.call).run s₀).1 := by
  cases h with
  | free => exact Or.inl rfl
  | busy call done rest hbody =>
      rcases honce call done rest hbody s₀ with hbefore | hafter
      · exact Or.inl hbefore
      · exact Or.inr ⟨_, rfl, hafter⟩

end CriticalSectionLib
