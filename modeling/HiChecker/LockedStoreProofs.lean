import HiChecker.CriticalSectionProofs
import HiChecker.StartupParamProofs

/-!
# The rule store, one statement at a time

`AddRule`, `RemoveRule`, `GetRule` and `Contains` hold `mutexLock_` while they run; the
functions that ask for a caution read the two words and `checkMode_` without it. Here the
four are run statement by statement, a compound assignment as its loads and its store.

* **`procedure`** — the statements of each of them; **`run_fst`** and **`run_answer`** say
  that together they are the call of `RuleStore`.
* **`store_serialized`** — every interleaving of the statements answers and stores what the
  calls do one after another.
* **`unlocked_reads`** — what a reader without the lock may find.
-/

namespace LockedStore

open Transition CriticalSectionLib BitMask RuleStore RuleTrace
open StartupParam (needCheckSlowEvent)

variable {Thread : Type} [DecidableEq Thread]

-- ── The statements ────────────────────────────────────────────────────────────────

/-- The calls that take the lock. -/
inductive StoreCall where
  | addRule (rule : Word)
  | removeRule (rule : Word)
  | getRule
  | contains (rule : Word)

/-- What a call returns. -/
inductive Answer where
  | nothing
  | rules (rules : Word)
  | contained (answer : Bool)
deriving DecidableEq

/-- The registers of a call: the left and the right operand of the expression that it
    evaluates, and what it returns. -/
structure Registers where
  left : Word := 0#64
  right : Word := 0#64
  answer : Answer := .nothing

/-- `if (RULE_CHECK_SLOW_EVENT & rule) checkMode_ = mode` -/
def writeCheckMode (rule : Word) (mode : Bool) : Statement (Store Thread) Registers :=
  fun (s, r) =>
    ({ s with checkMode := if ruleCheckSlowEvent &&& rule ≠ 0#64 then mode else s.checkMode }, r)

/-- The right operand is computed from a word, which is loaded for it. -/
def loadRight (word : Store Thread → Word) (f : Word → Word) :
    Statement (Store Thread) Registers :=
  fun (s, r) => (s, { r with right := f (word s) })

/-- Load the word that an assignment starts from. -/
def loadLeft (word : Store Thread → Word) : Statement (Store Thread) Registers :=
  fun (s, r) => (s, { r with left := word s })

/-- Store the combined word of the thread. -/
def storeThread (t : Thread) (op : Word → Word → Word) :
    Statement (Store Thread) Registers :=
  fun (s, r) =>
    ({ s with threadLocalRules := Function.update s.threadLocalRules t (op r.left r.right) }, r)

/-- Store the combined word of the process. -/
def storeProcess (op : Word → Word → Word) : Statement (Store Thread) Registers :=
  fun (s, r) => ({ s with processRules := op r.left r.right }, r)

/-- Answer from what was loaded. -/
def returnAnswer (answer : Registers → Answer) : Statement (Store Thread) Registers :=
  fun (s, r) => (s, { r with answer := answer r })

/-- `threadLocalRules_` of thread `t`. -/
def threadWord (t : Thread) (s : Store Thread) : Word := s.threadLocalRules t

/-- A compound assignment to a word: the right operand is evaluated before the left one. -/
def assign (word : Store Thread → Word) (operand : Word → Word)
    (store : Statement (Store Thread) Registers) : List (Statement (Store Thread) Registers) :=
  [loadRight word operand, loadLeft word, store]

/-- Both mutators: the flag, and a compound assignment to each word. -/
def assignWords (t : Thread) (rule : Word) (mode : Bool) (thread process : Word → Word)
    (op : Word → Word → Word) : List (Statement (Store Thread) Registers) :=
  if checkRule rule = false then []
  else
    [writeCheckMode rule mode] ++ assign (threadWord t) thread (storeThread t op)
      ++ assign Store.processRules process (storeProcess op)

/-- Both queries read the two words. -/
def readWords (t : Thread) (answer : Registers → Answer) :
    List (Statement (Store Thread) Registers) :=
  [loadLeft (threadWord t), loadRight Store.processRules id, returnAnswer answer]

/-- The statements under the lock. -/
def procedure : Thread × StoreCall → Procedure (Store Thread) Registers
  | (t, .addRule rule) =>
      { registers := {}
        body := assignWords t rule true
          (fun _ => (allThreadRules ||| allCautionRules) &&& rule)
          (fun _ => (allProcessRules ||| allCautionRules) &&& rule) (· ||| ·) }
  | (t, .removeRule rule) =>
      { registers := {}
        body := assignWords t rule false (· &&& rule) (· &&& rule) (· ^^^ ·) }
  | (t, .getRule) =>
      { registers := {}
        body := readWords t (fun r => .rules (r.left ||| r.right)) }
  | (t, .contains rule) =>
      { registers := {}
        body := if checkRule rule = false then [returnAnswer (fun _ => .contained false)] else
          readWords t (fun r => .contained (rule == (rule &&& (r.left ||| r.right)))) }

-- ── Together they are the calls ───────────────────────────────────────────────────

/-- The history entry of a call that may change the store. -/
def mutation : Thread × StoreCall → Option (Thread × RuleCall)
  | (t, .addRule rule) => some (t, .add rule)
  | (t, .removeRule rule) => some (t, .remove rule)
  | (_, .getRule) => none
  | (_, .contains _) => none

/-- What a call answers on a store. -/
def answerOn (s : Store Thread) : Thread × StoreCall → Answer
  | (_, .addRule _) => .nothing
  | (_, .removeRule _) => .nothing
  | (t, .getRule) => .rules (RuleStore.getRule t s)
  | (t, .contains rule) => .contained (RuleStore.contains t rule s)

/-- A rule that is refused changes nothing. -/
theorem execute_rejected {t : Thread} {rule : Word} (hc : checkRule rule = false)
    {mode : Bool} {thread process : Word → Word} {op : Word → Word → Word}
    (x : Store Thread × Registers) :
    execute (assignWords t rule mode thread process op) x = x := by
  rw [assignWords, if_pos hc]
  rfl

/-- A rule that is accepted changes the words at once, seen from outside. -/
theorem execute_accepted {t : Thread} {rule : Word} (hc : checkRule rule = true)
    {mode : Bool} {thread process : Word → Word} {op : Word → Word → Word} (s : Store Thread) :
    execute (assignWords t rule mode thread process op) (s, {})
      = ({ checkMode := if ruleCheckSlowEvent &&& rule ≠ 0#64 then mode else s.checkMode
           threadLocalRules := Function.update s.threadLocalRules t
             (op (s.threadLocalRules t) (thread (s.threadLocalRules t)))
           processRules := op s.processRules (process s.processRules) },
          { left := s.processRules, right := process s.processRules }) := by
  rw [assignWords, hc, if_neg Bool.noConfusion]
  rfl

/-- **The statements store what the call stores.** -/
theorem run_fst (call : Thread × StoreCall) (s : Store Thread) :
    ((procedure call).run s).1
      = (mutation call).toList.foldl (fun s e => e.2.run e.1 s) s := by
  obtain ⟨t, call⟩ := call
  cases call with
  | addRule rule =>
      show (execute (assignWords t rule _ _ _ _) (s, {})).1 = RuleStore.addRule t rule s
      cases hc : checkRule rule with
      | false => rw [execute_rejected hc, addRule_rejected t hc]
      | true =>
          rw [execute_accepted hc, RuleStore.addRule, hc]
          rfl
  | removeRule rule =>
      show (execute (assignWords t rule _ _ _ _) (s, {})).1 = RuleStore.removeRule t rule s
      cases hc : checkRule rule with
      | false => rw [execute_rejected hc, removeRule_rejected t hc]
      | true =>
          rw [execute_accepted hc, RuleStore.removeRule, hc]
          rfl
  | getRule => rfl
  | contains rule =>
      simp only [Procedure.run, procedure]
      cases checkRule rule with
      | false => rfl
      | true => rfl

/-- **They answer what the call answers.** -/
theorem run_answer (call : Thread × StoreCall) (s : Store Thread) :
    ((procedure call).run s).2.answer = answerOn s call := by
  obtain ⟨t, call⟩ := call
  cases call with
  | addRule rule =>
      show (execute (assignWords t rule _ _ _ _) (s, {})).2.answer = .nothing
      cases hc : checkRule rule with
      | false => rw [execute_rejected hc]
      | true => rw [execute_accepted hc]
  | removeRule rule =>
      show (execute (assignWords t rule _ _ _ _) (s, {})).2.answer = .nothing
      cases hc : checkRule rule with
      | false => rw [execute_rejected hc]
      | true => rw [execute_accepted hc]
  | getRule => rfl
  | contains rule =>
      simp only [Procedure.run, procedure, answerOn, RuleStore.contains]
      cases checkRule rule with
      | false => rfl
      | true => rfl

-- ── Every interleaving ────────────────────────────────────────────────────────────

/-- The store under its lock, with what the calls have executed so far. -/
abbrev Locked (Thread : Type) := Guarded (Thread × StoreCall) (Store Thread) Registers

/-- The store behind its lock. -/
def lockedStore :
    Machine (Locked Thread) (Move (Thread × StoreCall))
      (Returned (Thread × StoreCall) Registers) :=
  locked procedure initial

/-- The history of the calls that returned. -/
def mutations (tr : List (Returned (Thread × StoreCall) Registers)) :
    List (Thread × RuleCall) :=
  tr.filterMap (fun e => mutation e.call)

/-- The call that has the lock, if it may change the store. -/
def inFlight (s : Locked Thread) : List (Thread × RuleCall) :=
  match s.holder with
  | none => []
  | some holder => (mutation holder.call).toList

omit [DecidableEq Thread] in
/-- The mutations, one call later. -/
theorem mutations_snoc (tr : List (Returned (Thread × StoreCall) Registers))
    (e : Returned (Thread × StoreCall) Registers) :
    mutations (tr ++ [e]) = mutations tr ++ (mutation e.call).toList := by
  rw [mutations, List.filterMap_append]
  cases hmutation : mutation e.call with
  | none =>
      have hlast : [e].filterMap (fun e => mutation e.call) = [] :=
        List.filterMap_cons_none hmutation
      rw [hlast]
      rfl
  | some entry =>
      have hlast : [e].filterMap (fun e => mutation e.call) = [entry] :=
        List.filterMap_cons_some hmutation
      rw [hlast]
      rfl

theorem replay_append (h h' : List (Thread × RuleCall)) :
    replay (h ++ h') = h'.foldl (fun s e => e.2.run e.1 s) (replay h) := List.foldl_append

theorem foldl_run (tr : List (Returned (Thread × StoreCall) Registers)) :
    tr.foldl (fun s e => ((procedure e.call).run s).1) initial = replay (mutations tr) := by
  induction tr using List.reverseRecOn with
  | nil => rfl
  | append_singleton tr e ih =>
      rw [List.foldl_append, ih, mutations_snoc, replay_append]
      exact run_fst e.call (replay (mutations tr))

/-- **Serialization.** However the statements of any calls of any threads are interleaved:
    when no call is in progress, the store is that of the calls which returned, one after
    another; and each returned what it answers after those before it. -/
theorem store_serialized {s : Locked Thread}
    {tr : List (Returned (Thread × StoreCall) Registers)} (hr : Run lockedStore anyStep s tr) :
    (s.holder = none → s.shared = replay (mutations tr))
      ∧ ∀ before e after, tr = before ++ e :: after →
          e.registers.answer = answerOn (replay (mutations before)) e.call := by
  obtain ⟨s₀, hatomic, hprogress⟩ := serialized hr
  constructor
  · intro hfree
    rw [← foldl_run, ← shared_of_atomic hatomic]
    cases hprogress with
    | free => rfl
    | busy call done rest hbody => exact absurd hfree (Option.some_ne_none _)
  · intro before e after htr
    rw [returned_of_atomic hatomic htr, run_answer, foldl_run]

/-- Thread 0 switches slow events on, statement by statement, and thread 1 asks. -/
def addThenGet : List (Move (Nat × StoreCall)) :=
  [.acquire (0, .addRule ruleCheckSlowEvent)] ++ List.replicate 7 .statement
    ++ [.release, .acquire (1, .getRule)] ++ List.replicate 3 .statement ++ [.release]

/-- Thread 1 is told of the rule. -/
theorem store_serialized_addThenGet :
    ∃ s tr e, Run lockedStore anyStep s tr
      ∧ s.shared = replay [((0 : Nat), .add ruleCheckSlowEvent)]
      ∧ tr.getLast? = some e ∧ e.registers.answer = .rules ruleCheckSlowEvent := by
  obtain ⟨p, hp⟩ : ∃ p, exec lockedStore anyStep addThenGet = some p := ⟨_, rfl⟩
  obtain ⟨hshared, hanswers⟩ := store_serialized (run_of_exec hp)
  obtain ⟨e, e', htr, hcall, hcall'⟩ : ∃ e e', p.2 = [e, e']
      ∧ e.call = (0, .addRule ruleCheckSlowEvent) ∧ e'.call = (1, .getRule) := by
    obtain rfl := Option.some.inj hp
    exact ⟨_, _, rfl, rfl, rfl⟩
  have hfree : p.1.holder = none := by
    obtain rfl := Option.some.inj hp
    rfl
  refine ⟨p.1, p.2, e', run_of_exec hp, ?_, ?_, ?_⟩
  · rw [hshared hfree, htr]
    simp only [mutations, List.filterMap_cons, hcall, hcall', mutation, List.filterMap_nil]
  · rw [htr]
    rfl
  · rw [hanswers [e] e' [] htr, hcall']
    simp only [mutations, List.filterMap_cons, hcall, mutation, List.filterMap_nil]
    rfl

-- ── Readers without the lock ──────────────────────────────────────────────────────

/-- A statement that writes nothing. -/
def Reads (m : Statement (Store Thread) Registers) : Prop := ∀ x, (m x).1 = x.1

omit [DecidableEq Thread] in
theorem Reads.keeps {β : Type} {view : Store Thread → β}
    {m : Statement (Store Thread) Registers} (h : Reads m) : Keeps view m :=
  fun x => congrArg view (h x)

omit [DecidableEq Thread] in
theorem readWords_reads (t : Thread) (answer : Registers → Answer) :
    ∀ m ∈ readWords t answer, Reads m := by
  intro m hm
  simp only [readWords, List.mem_cons, List.not_mem_nil, or_false] at hm
  rcases hm with rfl | rfl | rfl
  · exact fun _ => rfl
  · exact fun _ => rfl
  · exact fun _ => rfl

/-- A variable that both mutators write once is written once by every call. -/
theorem writesOnce_of_assign {β : Type} {view : Store Thread → β}
    (h : ∀ (p : Procedure (Store Thread) Registers) t rule mode thread process op,
      checkRule rule = true → p.body = assignWords t rule mode thread process op →
        p.WritesOnce view)
    (call : Thread × StoreCall) : (procedure call).WritesOnce view := by
  have hassign : ∀ p : Procedure (Store Thread) Registers, ∀ t rule mode thread process op,
      p.body = assignWords t rule mode thread process op → p.WritesOnce view := by
    intro p t rule mode thread process op hbody
    cases hc : checkRule rule with
    | true => exact h p t rule mode thread process op hc hbody
    | false =>
        rw [assignWords, if_pos hc] at hbody
        refine writesOnce_of_keeps ?_
        rw [hbody]
        exact fun m hm => absurd hm List.not_mem_nil
  obtain ⟨t, call⟩ := call
  cases call with
  | addRule rule => exact hassign _ t rule _ _ _ _ rfl
  | removeRule rule => exact hassign _ t rule _ _ _ _ rfl
  | getRule => exact writesOnce_of_keeps (fun m hm => (readWords_reads t _ m hm).keeps)
  | contains rule =>
      refine writesOnce_of_keeps ?_
      intro m hm
      simp only [procedure] at hm
      split at hm
      · rw [List.mem_singleton.mp hm]
        exact fun _ => rfl
      · exact (readWords_reads t _ m hm).keeps

theorem assignWords_of_accepted {rule : Word} (hc : checkRule rule = true) (t : Thread)
    (mode : Bool) (thread process : Word → Word) (op : Word → Word → Word) :
    assignWords t rule mode thread process op
      = [writeCheckMode rule mode] ++ assign (threadWord t) thread (storeThread t op)
        ++ assign Store.processRules process (storeProcess op) := by
  rw [assignWords, hc]
  exact if_neg Bool.noConfusion

/-- Each call writes the flag at most once. -/
theorem writesOnce_checkMode (call : Thread × StoreCall) :
    (procedure call).WritesOnce Store.checkMode := by
  refine writesOnce_of_assign ?_ call
  intro p t rule mode thread process op hc hbody
  rw [assignWords_of_accepted hc] at hbody
  have hsplit : p.body = [] ++ writeCheckMode rule mode
      :: (assign (threadWord t) thread (storeThread t op)
        ++ assign Store.processRules process (storeProcess op)) := hbody
  refine writesOnce_of_one hsplit ?_ ?_
  · simp
  · simp [assign, Keeps, loadRight, loadLeft, storeThread, storeProcess]

/-- Each call writes a thread's word at most once. -/
theorem writesOnce_threadWord (u : Thread) (call : Thread × StoreCall) :
    (procedure call).WritesOnce (threadWord u) := by
  refine writesOnce_of_assign ?_ call
  intro p t rule mode thread process op hc hbody
  rw [assignWords_of_accepted hc] at hbody
  have hsplit : p.body = [writeCheckMode rule mode, loadRight (threadWord t) thread,
        loadLeft (threadWord t)]
      ++ storeThread t op :: assign Store.processRules process (storeProcess op) := hbody
  refine writesOnce_of_one hsplit ?_ ?_
  · simp [Keeps, loadRight, loadLeft, writeCheckMode, threadWord]
  · simp [assign, Keeps, loadRight, loadLeft, storeProcess, threadWord]

/-- Each call writes the process's word at most once. -/
theorem writesOnce_processRules (call : Thread × StoreCall) :
    (procedure call).WritesOnce Store.processRules := by
  refine writesOnce_of_assign ?_ call
  intro p t rule mode thread process op hc hbody
  rw [assignWords_of_accepted hc] at hbody
  have hsplit : p.body = ([writeCheckMode rule mode]
        ++ assign (threadWord t) thread (storeThread t op)
        ++ [loadRight Store.processRules process, loadLeft Store.processRules])
      ++ storeProcess op :: [] := hbody
  refine writesOnce_of_one hsplit ?_ ?_
  · simp [assign, Keeps, loadRight, loadLeft, writeCheckMode, storeThread]
  · simp

/-- What a reader without the lock finds in a variable that calls write once. -/
theorem read_without_lock {β : Type} {view : Store Thread → β}
    (honce : ∀ call : Thread × StoreCall, (procedure call).WritesOnce view) {s : Locked Thread}
    {tr : List (Returned (Thread × StoreCall) Registers)} (hr : Run lockedStore anyStep s tr) :
    view s.shared = view (replay (mutations tr))
      ∨ view s.shared = view (replay (mutations tr ++ inFlight s)) := by
  obtain ⟨s₀, hatomic, hprogress⟩ := serialized hr
  have hbefore : s₀ = replay (mutations tr) := by
    rw [← foldl_run]
    exact shared_of_atomic hatomic
  rcases view_between honce hprogress with hview | ⟨holder, hholder, hview⟩
  · left
    rw [hview, hbefore]
  · right
    rw [hview, run_fst, replay_append, ← hbefore, inFlight, hholder]

/-- A call on another thread leaves a thread word alone. -/
theorem threadWord_run {t u : Thread} (hne : t ≠ u) (c : RuleCall) (s : Store Thread) :
    threadWord u (c.run t s) = threadWord u s := by
  cases c with
  | add rule =>
      show (addRule t rule s).threadLocalRules u = _
      rw [RuleStore.addRule]
      split
      · rfl
      · exact Function.update_of_ne hne.symm _ _
  | remove rule =>
      show (removeRule t rule s).threadLocalRules u = _
      rw [RuleStore.removeRule]
      split
      · rfl
      · exact Function.update_of_ne hne.symm _ _

omit [DecidableEq Thread] in
/-- At most one mutation is on its way. -/
theorem inFlight_cases (s : Locked Thread) :
    inFlight s = [] ∨ ∃ holder e, s.holder = some holder ∧ mutation holder.call = some e
      ∧ inFlight s = [e] := by
  cases hholder : s.holder with
  | none =>
      left
      rw [inFlight, hholder]
  | some holder =>
      have hflight : inFlight s = (mutation holder.call).toList := by
        rw [inFlight, hholder]
      rw [hflight]
      cases hmutation : mutation holder.call with
      | none => exact Or.inl rfl
      | some e => exact Or.inr ⟨holder, e, rfl, hmutation, rfl⟩

/-- Calls of other threads leave a thread word alone. -/
theorem threadWord_replay_append (h : List (Thread × RuleCall)) {u : Thread}
    {others : List (Thread × RuleCall)} (hothers : ∀ e ∈ others, e.1 ≠ u) :
    threadWord u (replay (h ++ others)) = threadWord u (replay h) := by
  induction others using List.reverseRecOn with
  | nil => rw [List.append_nil]
  | append_singleton others e ih =>
      obtain ⟨t, c⟩ := e
      have hne : t ≠ u := hothers (t, c) (List.mem_append_right others (List.mem_singleton_self _))
      rw [← List.append_assoc, replay_snoc, threadWord_run hne]
      exact ih (fun e he => hothers e (List.mem_append_left [(t, c)] he))

/-- A thread finds in its own word what its calls have made of it. -/
theorem own_word {s : Locked Thread} {tr : List (Returned (Thread × StoreCall) Registers)}
    (hr : Run lockedStore anyStep s tr) {u : Thread} (hown : ∀ e ∈ inFlight s, e.1 ≠ u) :
    s.shared.threadLocalRules u = (replay (mutations tr)).threadLocalRules u := by
  rcases read_without_lock (writesOnce_threadWord u) hr with hview | hview
  · exact hview
  · exact hview.trans (threadWord_replay_append (mutations tr) hown)

/-- An accepted call about slow events. -/
def OnSlowEvent (c : RuleCall) : Prop := checkRule c.mask = true ∧ 32 ∈ bits c.mask

/-- Any other call leaves the flag and the rule alone. -/
theorem slowEvent_run {c : RuleCall} (hc : ¬ OnSlowEvent c) (t : Thread) (s : Store Thread) :
    (c.run t s).checkMode = s.checkMode
      ∧ (32 ∈ bits (c.run t s).processRules ↔ 32 ∈ bits s.processRules) := by
  cases haccepted : checkRule c.mask with
  | false =>
      rw [run_rejected haccepted]
      exact ⟨rfl, Iff.rfl⟩
  | true =>
      have h32 : 32 ∉ bits c.mask := fun hmem => hc ⟨haccepted, hmem⟩
      cases c with
      | add rule =>
          constructor
          · rw [Bool.eq_iff_iff]
            exact (checkMode_addRule haccepted t s).trans (or_iff_left h32)
          · exact (mem_process_addRule haccepted t s 32).trans
              (or_iff_left (fun hmem => h32 hmem.2))
      | remove rule =>
          constructor
          · rw [Bool.eq_iff_iff]
            exact (checkMode_removeRule haccepted t s).trans (and_iff_left h32)
          · exact (mem_process_removeRule haccepted t s 32).trans (and_iff_left h32)

/-- **Reads without the lock.** At every moment of every interleaving: the flag and each word
    are as they were before the call in progress or as it leaves them; the word of a thread
    without a call in progress is what its own calls made of it; and unless the call in
    progress is about slow events, the flag says whether the process word has the rule. -/
theorem unlocked_reads {s : Locked Thread}
    {tr : List (Returned (Thread × StoreCall) Registers)} (hr : Run lockedStore anyStep s tr) :
    let before := replay (mutations tr)
    let after := replay (mutations tr ++ inFlight s)
    (s.shared.checkMode = before.checkMode ∨ s.shared.checkMode = after.checkMode) ∧
    (s.shared.processRules = before.processRules
      ∨ s.shared.processRules = after.processRules) ∧
    (∀ u, s.shared.threadLocalRules u = before.threadLocalRules u
      ∨ s.shared.threadLocalRules u = after.threadLocalRules u) ∧
    (∀ u, (∀ e ∈ inFlight s, e.1 ≠ u) →
      s.shared.threadLocalRules u = before.threadLocalRules u) ∧
    ((∀ e ∈ inFlight s, ¬ OnSlowEvent e.2) →
      (needCheckSlowEvent s.shared = true ↔ 32 ∈ bits s.shared.processRules)) := by
  intro before after
  have hmode := read_without_lock writesOnce_checkMode hr
  have hprocess := read_without_lock writesOnce_processRules hr
  refine ⟨hmode, hprocess, fun u => read_without_lock (writesOnce_threadWord u) hr,
    fun u hown => own_word hr hown, ?_⟩
  intro hquiet
  have hsame : after.checkMode = before.checkMode
      ∧ (32 ∈ bits after.processRules ↔ 32 ∈ bits before.processRules) := by
    show (replay (mutations tr ++ inFlight s)).checkMode = _ ∧ (32 ∈ bits
      (replay (mutations tr ++ inFlight s)).processRules ↔ _)
    rcases inFlight_cases s with hnone | ⟨_, e, -, -, hone⟩
    · rw [hnone, List.append_nil]
      exact ⟨rfl, Iff.rfl⟩
    · have hother : ¬ OnSlowEvent e.2 := hquiet e (hone ▸ List.mem_singleton_self e)
      rw [hone, replay_append]
      exact slowEvent_run hother e.1 (replay (mutations tr))
  have hflag : s.shared.checkMode = before.checkMode := by
    rcases hmode with h | h
    · exact h
    · exact h.trans hsame.1
  have hrule : 32 ∈ bits s.shared.processRules ↔ 32 ∈ bits before.processRules := by
    rcases hprocess with h | h
    · rw [h]
    · rw [h]
      exact hsame.2
  rw [needCheckSlowEvent, hflag, hrule]
  exact (scoped_replay (mutations tr)).mode

/-- In the middle of an `AddRule` of thread 0 the flag is up before the word has the rule; the
    word of thread 1 is as its own calls made it. -/
theorem unlocked_reads_addRule :
    ∃ s tr, Run lockedStore anyStep s tr ∧ s.shared.checkMode = true
      ∧ 32 ∉ bits s.shared.processRules
      ∧ s.shared.threadLocalRules (1 : Nat) = (replay (mutations tr)).threadLocalRules 1 := by
  obtain ⟨p, hp⟩ : ∃ p, exec lockedStore anyStep
      [.acquire ((0 : Nat), .addRule ruleCheckSlowEvent), .statement] = some p := ⟨_, rfl⟩
  obtain ⟨-, -, -, hown, -⟩ := unlocked_reads (run_of_exec hp)
  refine ⟨p.1, p.2, run_of_exec hp, ?_, ?_, hown 1 ?_⟩
  · obtain rfl := Option.some.inj hp
    rfl
  · obtain rfl := Option.some.inj hp
    rw [mem_bits]
    exact Bool.noConfusion
  · obtain rfl := Option.some.inj hp
    intro e he
    rw [List.mem_singleton.mp he]
    exact Nat.zero_ne_one

end LockedStore
