import HiChecker.LockedStoreProofs

/-!
# Notifications between the statements of the store

A notification takes no lock. It tests the word of its rule at its gate, `HandleCaution`
tests both words again and copies the one that it picks, and the copy decides between a log
line and an abort: up to four reads, between which other threads go on.

* **`System`** — the store under its lock, and of each thread the notification that it is in.
* **`advance`** — the next read of a notification, with what it does then.
* **`notified_iff`** — a notification has the effects of one that runs at its last moment
  without interruption exactly when its rule is still on by then, or when it did nothing. One
  about the thread's own rules always has.
-/

namespace NotifyAtomic

open Transition CriticalSectionLib BitMask RuleStore RuleTrace CautionNotify LockedStore

variable {Thread : Type} [DecidableEq Thread]

-- ── The reads of a notification ───────────────────────────────────────────────────

/-- The rule that the gate tests. -/
def rule : Notification → Word
  | .slowProcess _ _ => ruleThreadCheckSlowProcess
  | .netWorkUsage => ruleThreadCheckNetworkUsage
  | .slowEvent _ _ => ruleCheckSlowEvent
  | .abilityConnectionLeak _ => ruleCheckAbilityConnectionLeak

/-- What is handed to `HandleCaution`. -/
def caution : Notification → Caution
  | .slowProcess bt tag =>
      { triggerRule := ruleThreadCheckSlowProcess
        cautionMsg := "trigger:RULE_THREAD_CHECK_SLOW_PROCESS," ++ tag
        stackTrace := bt.msg }
  | .netWorkUsage =>
      { triggerRule := ruleThreadCheckNetworkUsage
        cautionMsg := "trigger:RULE_THREAD_CHECK_NETWORK_USAGE" }
  | .slowEvent bt tag =>
      { triggerRule := ruleCheckSlowEvent
        cautionMsg := "trigger:RULE_CHECK_SLOW_EVENT," ++ tag
        stackTrace := bt.msg }
  | .abilityConnectionLeak leak => leak.caution

/-- The read that comes next. -/
inductive Stage where
  | gate
  /-- `if ((threadLocalRules_ & triggerRule))` -/
  | testThread
  /-- `CautionDetail cautionDetail(caution, threadLocalRules_)` -/
  | copyThread
  | testProcess
  | copyProcess
deriving DecidableEq

/-- A notification that has begun. -/
structure Pending where
  notification : Notification
  stage : Stage := .gate
  effects : List Effect := []

/-- The notification goes on, or ends with its effects. -/
inductive Progress where
  | next (p : Pending)
  | done (effects : List Effect)

/-- One read of a notification of thread `t`. -/
def advance (t : Thread) (s : Store Thread) (p : Pending) : Progress :=
  let caution := caution p.notification
  match p.stage with
  | .gate =>
      if p.notification.scope t s &&& rule p.notification = 0#64 then .done p.effects
      else
        .next { p with stage := .testThread
                       effects := p.effects ++ p.notification.backtraceLog }
  | .testThread =>
      if s.threadLocalRules t &&& caution.triggerRule ≠ 0#64 then
        .next { p with stage := .copyThread }
      else .next { p with stage := .testProcess }
  | .copyThread =>
      .done (p.effects
        ++ onThreadCautionFound { caution := caution, rules := s.threadLocalRules t })
  | .testProcess =>
      if s.processRules &&& caution.triggerRule ≠ 0#64 then
        .next { p with stage := .copyProcess }
      else .done p.effects
  | .copyProcess =>
      .done (p.effects
        ++ onProcessCautionFound { caution := caution, rules := s.processRules })

-- ── The system ────────────────────────────────────────────────────────────────────

/-- The store behind its lock, and the notification that each thread is in. -/
structure System (Thread : Type) where
  store : Locked Thread
  notifying : Thread → Option Pending := fun _ => none

/-- The store goes on, or a notification does. -/
inductive Input (Thread : Type) where
  /-- the call that has the lock goes on, or one takes the lock -/
  | call (m : Move (Thread × StoreCall))
  | notify (t : Thread) (n : Notification)
  /-- the next read of a notification -/
  | proceed (t : Thread)

/-- What is seen: a call that returned, a notification that is over. -/
inductive Event (Thread : Type) where
  | returned (e : Returned (Thread × StoreCall) Registers)
  | notified (t : Thread) (n : Notification) (effects : List Effect)

/-- A thread has the lock. -/
def inCall (t : Thread) (s : Locked Thread) : Bool :=
  s.holder.any (fun holder => decide (holder.call.1 = t))

/-- A thread does one thing at a time. -/
def mayAcquire (s : System Thread) : Move (Thread × StoreCall) → Bool
  | .acquire call => (s.notifying call.1).isNone
  | .statement => true
  | .release => true

/-- Thread `t` is in a notification, or in none. -/
def System.put (t : Thread) (p : Option Pending) (s : System Thread) : System Thread :=
  { s with notifying := Function.update s.notifying t p }

/-- One step: a thread that notifies makes no call meanwhile. -/
def step (s : System Thread) : Input Thread → Option (System Thread × List (Event Thread))
  | .call m =>
      if mayAcquire s m then
        (CriticalSectionLib.step procedure s.store m).map (fun p =>
          ({ s with store := p.1 }, p.2.map Event.returned))
      else none
  | .notify t n =>
      if (s.notifying t).isNone && !inCall t s.store then
        some (s.put t (some { notification := n }), [])
      else none
  | .proceed t =>
      match s.notifying t with
      | none => none
      | some p =>
          match advance t s.store.shared p with
          | .next p => some (s.put t (some p), [])
          | .done effects => some (s.put t none, [.notified t p.notification effects])

/-- Calls and notifications of any number of threads. -/
def system : Machine (System Thread) (Input Thread) (Event Thread) :=
  ⟨{ store := lockedStore.init }, step⟩

/-- The calls that returned. -/
def returns (tr : List (Event Thread)) : List (Returned (Thread × StoreCall) Registers) :=
  tr.filterMap (fun e => match e with
    | .returned e => some e
    | .notified _ _ _ => none)

omit [DecidableEq Thread] in
/-- The calls that returned, in two parts. -/
theorem returns_append (tr es : List (Event Thread)) :
    returns (tr ++ es) = returns tr ++ returns es := List.filterMap_append

omit [DecidableEq Thread] in
theorem returns_returned (es : List (Returned (Thread × StoreCall) Registers)) :
    returns (es.map Event.returned) = es := by
  rw [returns, List.filterMap_map]
  exact List.filterMap_some

-- ── What a step can do ────────────────────────────────────────────────────────────

/-- All that a step can do. -/
inductive StepEffect (s : System Thread) : Input Thread → System Thread → List (Event Thread)
    → Prop where
  | called (m : Move (Thread × StoreCall)) (hmay : mayAcquire s m = true)
      {store : Locked Thread} {es : List (Returned (Thread × StoreCall) Registers)}
      (hstep : CriticalSectionLib.step procedure s.store m = some (store, es)) :
      StepEffect s (.call m) { s with store := store } (es.map Event.returned)
  | began (t : Thread) (n : Notification) (hfree : inCall t s.store = false) :
      StepEffect s (.notify t n) (s.put t (some { notification := n })) []
  | went (t : Thread) {p p' : Pending} (hp : s.notifying t = some p)
      (hnext : advance t s.store.shared p = .next p') :
      StepEffect s (.proceed t) (s.put t (some p')) []
  | ended (t : Thread) {p : Pending} {effects : List Effect} (hp : s.notifying t = some p)
      (hdone : advance t s.store.shared p = .done effects) :
      StepEffect s (.proceed t) (s.put t none) [.notified t p.notification effects]

/-- All that a step can do. -/
theorem step_effect {s s' : System Thread} {a : Input Thread} {es : List (Event Thread)}
    (hs : step s a = some (s', es)) : StepEffect s a s' es := by
  cases a with
  | call m =>
      obtain ⟨hmay, hs⟩ := Option.ite_none_right_eq_some.mp hs
      obtain ⟨⟨store, es'⟩, hstep, heq⟩ := Option.map_eq_some_iff.mp hs
      obtain ⟨rfl, rfl⟩ := Prod.mk.inj heq
      exact StepEffect.called m hmay hstep
  | notify t n =>
      obtain ⟨hmay, hs⟩ := Option.ite_none_right_eq_some.mp hs
      obtain ⟨rfl, rfl⟩ := Prod.mk.inj (Option.some.inj hs)
      have hfree := (Bool.and_eq_true_iff.mp hmay).2
      exact StepEffect.began t n (Bool.not_eq_true' _ ▸ hfree)
  | proceed t =>
      simp only [step] at hs
      cases hp : s.notifying t with
      | none =>
          rw [hp] at hs
          exact absurd hs.symm (Option.some_ne_none _)
      | some p =>
          rw [hp] at hs
          cases hadvance : advance t s.store.shared p with
          | next p' =>
              simp only [hadvance] at hs
              obtain ⟨rfl, rfl⟩ := Prod.mk.inj (Option.some.inj hs)
              exact StepEffect.went t hp hadvance
          | done effects =>
              simp only [hadvance] at hs
              obtain ⟨rfl, rfl⟩ := Prod.mk.inj (Option.some.inj hs)
              exact StepEffect.ended t hp hadvance

/-- **The store does not notice notifications.** -/
theorem store_run {s : System Thread} {tr : List (Event Thread)}
    (hr : Run system anyStep s tr) : Run lockedStore anyStep s.store (returns tr) := by
  have hquiet : ∀ {store : Locked Thread} {tr es : List (Event Thread)}, returns es = [] →
      Run lockedStore anyStep store (returns tr) →
        Run lockedStore anyStep store (returns (tr ++ es)) := by
    intro store tr es hes hrun
    rw [returns_append, hes, List.append_nil]
    exact hrun
  induction hr with
  | start => exact Run.start
  | next _ _ hs ih =>
      cases step_effect hs with
      | called m hmay hstep =>
          rw [returns_append, returns_returned]
          exact Run.next ih trivial hstep
      | began t n hfree => exact hquiet rfl ih
      | went t hp hnext => exact hquiet rfl ih
      | ended t hp hdone => exact hquiet rfl ih

-- ── A thread word while its thread notifies ───────────────────────────────────────

omit [DecidableEq Thread] in
/-- A mutation is one of the calling thread. -/
theorem thread_of_mutation {call : Thread × StoreCall} {e : Thread × RuleCall}
    (h : mutation call = some e) : e.1 = call.1 := by
  obtain ⟨t, call⟩ := call
  cases call with
  | addRule rule => rw [← Option.some.inj h]
  | removeRule rule => rw [← Option.some.inj h]
  | getRule => exact absurd h.symm (Option.some_ne_none _)
  | contains rule => exact absurd h.symm (Option.some_ne_none _)

theorem inCall_eq_false_iff {t : Thread} {s : Locked Thread} :
    inCall t s = false ↔ ∀ holder, s.holder = some holder → holder.call.1 ≠ t := by
  rw [inCall]
  cases s.holder with
  | none => exact iff_of_true rfl (fun _ h => absurd h.symm (Option.some_ne_none _))
  | some holder =>
      rw [Option.any_some, decide_eq_false_iff_not]
      constructor
      · intro h holder' heq
        rw [← Option.some.inj heq]
        exact h
      · exact fun h => h holder rfl

theorem inFlight_other {t : Thread} {s : Locked Thread} (hfree : inCall t s = false) :
    ∀ e ∈ inFlight s, e.1 ≠ t := by
  intro e he
  rcases inFlight_cases s with hnone | ⟨holder, e', hholder, hmutation, hone⟩
  · rw [hnone] at he
    exact absurd he List.not_mem_nil
  · rw [hone] at he
    rw [List.mem_singleton.mp he, thread_of_mutation hmutation]
    exact inCall_eq_false_iff.mp hfree holder hholder

/-- The calls of other threads leave the word of a thread alone, statement by statement. -/
theorem word_kept {s s' : Locked Thread} {tr es : List (Returned (Thread × StoreCall) Registers)}
    {m : Move (Thread × StoreCall)} (hr : Run lockedStore anyStep s tr)
    (hs : CriticalSectionLib.step procedure s m = some (s', es)) {t : Thread}
    (hfree : inCall t s = false) (hfree' : inCall t s' = false) :
    s'.shared.threadLocalRules t = s.shared.threadLocalRules t := by
  have hr' : Run lockedStore anyStep s' (tr ++ es) := Run.next hr trivial hs
  rw [own_word hr (inFlight_other hfree), own_word hr' (inFlight_other hfree')]
  have happend : mutations (tr ++ es) = mutations tr ++ mutations es := List.filterMap_append
  rw [happend]
  refine threadWord_replay_append (mutations tr) ?_
  intro x hx
  obtain ⟨e, he, hmutation⟩ := List.mem_filterMap.mp hx
  obtain ⟨holder, hholder, hcall⟩ := returned_held hs he
  rw [thread_of_mutation hmutation, ← hcall]
  exact inCall_eq_false_iff.mp hfree holder hholder

/-- At every moment the words stay in their scopes. -/
structure WordsScoped (s : Store Thread) : Prop where
  thread : ∀ t, bits (s.threadLocalRules t) ⊆ threadScope
  process : bits s.processRules ⊆ processScope

/-- The words stay in their scopes along every run. -/
theorem wordsScoped_of_run {s : Locked Thread}
    {tr : List (Returned (Thread × StoreCall) Registers)} (hr : Run lockedStore anyStep s tr) :
    WordsScoped s.shared where
  thread := by
    intro t
    rcases read_without_lock (writesOnce_threadWord t) hr with h | h
    · show bits (threadWord t s.shared) ⊆ _
      rw [h]
      exact (scoped_replay _).thread t
    · show bits (threadWord t s.shared) ⊆ _
      rw [h]
      exact (scoped_replay _).thread t
  process := by
    rcases read_without_lock writesOnce_processRules hr with h | h
    · rw [h]
      exact (scoped_replay _).process
    · rw [h]
      exact (scoped_replay _).process

-- ── The effects of a notification without interruption ────────────────────────────

/-- The rule of the notification is one of its thread. -/
def ofThread : Notification → Bool
  | .slowProcess _ _ => true
  | .netWorkUsage => true
  | .slowEvent _ _ => false
  | .abilityConnectionLeak _ => false

omit [DecidableEq Thread] in
/-- A notification of the thread reads the thread's word. -/
theorem scope_of_thread {n : Notification} (h : ofThread n = true) (t : Thread)
    (s : Store Thread) : n.scope t s = s.threadLocalRules t := by
  cases n with
  | slowProcess bt tag => rfl
  | netWorkUsage => rfl
  | slowEvent bt tag => exact absurd h Bool.false_ne_true
  | abilityConnectionLeak leak => exact absurd h Bool.false_ne_true

omit [DecidableEq Thread] in
/-- Any other reads the process's word. -/
theorem scope_of_process {n : Notification} (h : ofThread n = false) (t : Thread)
    (s : Store Thread) : n.scope t s = s.processRules := by
  cases n with
  | slowProcess bt tag => exact absurd h.symm Bool.false_ne_true
  | netWorkUsage => exact absurd h.symm Bool.false_ne_true
  | slowEvent bt tag => rfl
  | abilityConnectionLeak leak => rfl

theorem checkBit_of_process {n : Notification} (h : ofThread n = false) :
    n.checkBit ∉ threadScope := by
  rw [mem_threadScope]
  cases n with
  | slowProcess bt tag => exact absurd h.symm Bool.false_ne_true
  | netWorkUsage => exact absurd h.symm Bool.false_ne_true
  | slowEvent bt tag => simp [Notification.checkBit]
  | abilityConnectionLeak leak => simp [Notification.checkBit]

/-- Each notification has one rule. -/
theorem bits_rule (n : Notification) : bits (rule n) = {n.checkBit} := by
  cases n with
  | slowProcess bt tag => exact bits_ruleThreadCheckSlowProcess
  | netWorkUsage => exact bits_ruleThreadCheckNetworkUsage
  | slowEvent bt tag => exact bits_ruleCheckSlowEvent
  | abilityConnectionLeak leak => exact bits_ruleCheckAbilityConnectionLeak

theorem bits_trigger (n : Notification) : bits (caution n).triggerRule = {n.checkBit} := by
  cases n with
  | slowProcess bt tag => exact bits_ruleThreadCheckSlowProcess
  | netWorkUsage => exact bits_ruleThreadCheckNetworkUsage
  | slowEvent bt tag => exact bits_ruleCheckSlowEvent
  | abilityConnectionLeak leak =>
      show bits leak.caution.triggerRule = _
      rw [leak.trigger]
      exact bits_ruleCheckAbilityConnectionLeak

/-- The caution is carried out as the verdict says. -/
theorem verdict_caution (n : Notification) (w : Word) :
    onThreadCautionFound { caution := caution n, rules := w } = verdict w n.report := by
  rw [onThreadCautionFound_eq]
  cases n with
  | slowProcess bt tag => rfl
  | netWorkUsage => rfl
  | slowEvent bt tag => rfl
  | abilityConnectionLeak leak => rfl

omit [DecidableEq Thread] in
/-- The flag plays no part in a notification. -/
theorem notify_of_words (t : Thread) (n : Notification) (s : Store Thread) (mode : Bool) :
    (notify t n { s with checkMode := mode }).2 = (notify t n s).2 := by
  cases n with
  | slowProcess bt tag =>
      simp only [notify, notifySlowProcess, handleCaution]
      split
      · rfl
      · rfl
  | netWorkUsage =>
      simp only [notify, notifyNetWorkUsage, handleCaution]
      split
      · rfl
      · rfl
  | slowEvent bt tag =>
      simp only [notify, notifySlowEvent, handleCaution]
      split
      · rfl
      · rfl
  | abilityConnectionLeak leak =>
      simp only [notify, notifyAbilityConnectionLeak, handleCaution]
      split
      · rfl
      · rfl

omit [DecidableEq Thread] in
/-- **A notification without interruption**, on words that are in their scopes. -/
theorem notify_effects (t : Thread) (n : Notification) {s : Store Thread} (h : WordsScoped s) :
    (notify t n s).2
      = if n.checkBit ∈ bits (n.scope t s) then n.backtraceLog ++ verdict (n.scope t s) n.report
        else [] := by
  let settled : Store Thread := { s with checkMode := s.processRules.getLsbD 32 }
  have hscope : n.scope t settled = n.scope t s := by
    cases n with
    | slowProcess bt tag => rfl
    | netWorkUsage => rfl
    | slowEvent bt tag => rfl
    | abilityConnectionLeak leak => rfl
  have hsettled : Scoped settled := ⟨h.thread, h.process, (mem_bits _ _).symm⟩
  rw [← notify_of_words t n s (s.processRules.getLsbD 32)]
  show (notify t n settled).2 = _
  by_cases hon : n.checkBit ∈ bits (n.scope t s)
  · rw [if_pos hon, notify_on t n hsettled (hscope ▸ hon), hscope]
  · rw [if_neg hon, notify_off t n settled (hscope ▸ hon)]

-- ── One read after another ────────────────────────────────────────────────────────

/-- A thread rule leads to the copy of the thread word, a process rule to the other one. -/
def onPath (n : Notification) : Stage → Bool
  | .gate => true
  | .testThread => true
  | .copyThread => ofThread n
  | .testProcess => !ofThread n
  | .copyProcess => !ofThread n

/-- What holds of a notification that has begun, whatever the other threads do. -/
structure Sound (t : Thread) (s : Store Thread) (p : Pending) : Prop where
  path : onPath p.notification p.stage = true
  effects : p.effects = if p.stage = .gate then [] else p.notification.backtraceLog
  on : ofThread p.notification = true → p.stage ≠ .gate →
    p.notification.checkBit ∈ bits (s.threadLocalRules t)

omit [DecidableEq Thread] in
/-- What a notification has read stays true while the word does. -/
theorem Sound.of_word {t : Thread} {s s' : Store Thread} {p : Pending} (h : Sound t s p)
    (hword : s'.threadLocalRules t = s.threadLocalRules t) : Sound t s' p where
  path := h.path
  effects := h.effects
  on := by
    rw [hword]
    exact h.on

omit [DecidableEq Thread] in
/-- **A read that does not end the notification.** -/
theorem sound_next {t : Thread} {s : Store Thread} {p p' : Pending} (hs : WordsScoped s)
    (h : Sound t s p) (hnext : advance t s p = .next p') : Sound t s p' := by
  obtain ⟨n, stage, effects⟩ := p
  have htest : ∀ w : Word, w &&& (caution n).triggerRule ≠ 0#64 ↔ n.checkBit ∈ bits w :=
    fun w => and_ne_zero_iff_mem w (bits_trigger n)
  cases stage with
  | gate =>
      simp only [advance] at hnext
      split at hnext
      · cases hnext
      · rename_i hon
        cases hnext
        obtain rfl : effects = [] := h.effects
        refine ⟨rfl, rfl, ?_⟩
        intro hthread _
        rw [← scope_of_thread hthread t s]
        exact not_not.mp (fun hoff => hon ((gate_iff _ (bits_rule n)).mpr hoff))
  | testThread =>
      simp only [advance] at hnext
      split at hnext
      · rename_i hon
        cases hnext
        refine ⟨?_, h.effects, fun hthread _ => h.on hthread Stage.noConfusion⟩
        show ofThread n = true
        rw [← Bool.not_eq_false]
        intro hprocess
        exact checkBit_of_process hprocess (hs.thread t ((htest _).mp hon))
      · rename_i hoff
        cases hnext
        refine ⟨?_, h.effects, fun hthread _ => h.on hthread Stage.noConfusion⟩
        show (!ofThread n) = true
        rw [Bool.not_eq_true', ← Bool.not_eq_true]
        intro hthread
        exact hoff ((htest _).mpr (h.on hthread Stage.noConfusion))
  | copyThread => cases hnext
  | testProcess =>
      simp only [advance] at hnext
      split at hnext
      · cases hnext
        exact ⟨h.path, h.effects, fun hthread _ => h.on hthread Stage.noConfusion⟩
      · cases hnext
  | copyProcess => cases hnext

/-- What a notification that ends with these effects has done, seen from the moment of its
    last read. -/
structure Ended (t : Thread) (s : Store Thread) (n : Notification) (effects : List Effect) :
    Prop where
  /-- it is like one without interruption if its rule is still on, or if it did nothing -/
  atomic_iff : effects = (notify t n s).2
    ↔ n.checkBit ∈ bits (n.scope t s) ∨ effects = []
  /-- about a rule of its own thread, it always is -/
  ofThread : ofThread n = true → effects = (notify t n s).2
  /-- it aborts by what its word says at this moment -/
  aborts : Aborts effects → 62 ∈ bits (n.scope t s)

omit [DecidableEq Thread] in
/-- **The read that ends a notification.** -/
theorem ended_of_done {t : Thread} {s : Store Thread} {p : Pending} {effects : List Effect}
    (hs : WordsScoped s) (h : Sound t s p) (hdone : advance t s p = .done effects) :
    Ended t s p.notification effects := by
  obtain ⟨n, stage, sofar⟩ := p
  have heffects := notify_effects t n hs
  have htest : ∀ w : Word, w &&& (caution n).triggerRule ≠ 0#64 ↔ n.checkBit ∈ bits w :=
    fun w => and_ne_zero_iff_mem w (bits_trigger n)
  have hnothing : n.checkBit ∉ bits (n.scope t s) → (notify t n s).2 = [] := by
    intro hoff
    rw [heffects, if_neg hoff]
  have hcopied : ∀ {w : Word}, n.scope t s = w →
      effects = n.backtraceLog ++ verdict w n.report →
      (ofThread n = true → n.checkBit ∈ bits w) → Ended t s n effects := by
    rintro w rfl rfl hon
    have hsame : n.checkBit ∈ bits (n.scope t s) →
        n.backtraceLog ++ verdict (n.scope t s) n.report = (notify t n s).2 := by
      intro hon
      rw [heffects, if_pos hon]
    have hsome : n.backtraceLog ++ verdict (n.scope t s) n.report ≠ [] :=
      List.append_ne_nil_of_right_ne_nil _ (verdict_ne_nil _ _)
    refine ⟨?_, fun hthread => hsame (hon hthread), ?_⟩
    · constructor
      · intro heq
        refine Or.inl (not_not.mp (fun hoff => hsome ?_))
        rw [heq, hnothing hoff]
      · rintro (hon | hnil)
        · exact hsame hon
        · exact absurd hnil hsome
    · intro habort
      exact (aborts_verdict _ _).mp ((aborts_backtraceLog n _).mp habort)
  cases stage with
  | gate =>
      simp only [advance] at hdone
      split at hdone
      · rename_i hgate
        cases hdone
        have hoff := (gate_iff _ (bits_rule n)).mp hgate
        obtain rfl : effects = [] := h.effects
        have hnil := (hnothing hoff).symm
        exact ⟨iff_of_true hnil (Or.inr rfl), fun _ => hnil,
          fun habort => absurd habort List.not_mem_nil⟩
      · cases hdone
  | testThread =>
      simp only [advance] at hdone
      split at hdone
      · cases hdone
      · cases hdone
  | copyThread =>
      cases hdone
      have hthread : ofThread n = true := h.path
      refine hcopied (scope_of_thread hthread t s) ?_
        (fun _ => h.on hthread Stage.noConfusion)
      rw [verdict_caution]
      exact congrArg (· ++ _) h.effects
  | testProcess =>
      simp only [advance] at hdone
      split at hdone
      · cases hdone
      · rename_i hoff
        cases hdone
        have hprocess : ofThread n = false := (Bool.not_eq_true' _).mp h.path
        have hscope := scope_of_process hprocess t s
        have hoff' : n.checkBit ∉ bits (n.scope t s) := by
          rw [hscope]
          exact fun hon => hoff ((htest _).mpr hon)
        obtain rfl : effects = n.backtraceLog := h.effects
        refine ⟨?_, fun hthread => absurd (hprocess.symm.trans hthread) Bool.false_ne_true, ?_⟩
        · rw [hnothing hoff', or_iff_right hoff']
        · intro habort
          exact Effect.noConfusion (backtraceLog_mem habort)
  | copyProcess =>
      cases hdone
      have hprocess : ofThread n = false := (Bool.not_eq_true' _).mp h.path
      refine hcopied (scope_of_process hprocess t s) ?_
        (fun hthread => absurd (hprocess.symm.trans hthread) Bool.false_ne_true)
      show _ ++ onThreadCautionFound _ = _
      rw [verdict_caution]
      exact congrArg (· ++ _) h.effects

-- ── Every interleaving ────────────────────────────────────────────────────────────

/-- A notification that has begun is sound, and its thread has not the lock. -/
def Inv (s : System Thread) : Prop :=
  ∀ t p, s.notifying t = some p → inCall t s.store = false ∧ Sound t s.store.shared p

/-- A step of the store keeps what holds of the notifications. -/
theorem inv_called {s : System Thread} {tr : List (Event Thread)} (hr : Run system anyStep s tr)
    (hI : Inv s) {m : Move (Thread × StoreCall)} (hmay : mayAcquire s m = true)
    {store : Locked Thread} {es : List (Returned (Thread × StoreCall) Registers)}
    (hstep : CriticalSectionLib.step procedure s.store m = some (store, es)) :
    Inv { s with store := store } := by
  intro t p hp
  obtain ⟨hfree, hsound⟩ := hI t p hp
  have hfree' : inCall t store = false := by
    refine inCall_eq_false_iff.mpr ?_
    intro holder hholder
    rcases holder_of_step hstep hholder with rfl | ⟨before, hbefore, hcall⟩
    · rintro rfl
      have hnone : (s.notifying holder.call.1).isNone = true := hmay
      have hp' : s.notifying holder.call.1 = some p := hp
      rw [hp'] at hnone
      exact Bool.false_ne_true hnone
    · rw [← hcall]
      exact inCall_eq_false_iff.mp hfree before hbefore
  exact ⟨hfree', hsound.of_word (word_kept (store_run hr) hstep hfree hfree')⟩

/-- A thread that goes on in its notification leaves the others alone. -/
theorem inv_put {s : System Thread} (hI : Inv s) {t : Thread} {p : Option Pending}
    (hp : ∀ p', p = some p' → inCall t s.store = false ∧ Sound t s.store.shared p') :
    Inv (s.put t p) := by
  intro u p' hu
  by_cases heq : u = t
  · subst heq
    have hput : Function.update s.notifying u p u = p := Function.update_self ..
    exact hp p' (hput.symm.trans hu)
  · have hput : Function.update s.notifying t p u = s.notifying u := Function.update_of_ne heq ..
    exact hI u p' (hput.symm.trans hu)

/-- The invariant holds along every run. -/
theorem inv_of_run {s : System Thread} {tr : List (Event Thread)}
    (hr : Run system anyStep s tr) : Inv s := by
  induction hr with
  | start => exact fun t p hp => absurd hp.symm (Option.some_ne_none p)
  | next hrun _ hs ih =>
      cases step_effect hs with
      | called m hmay hstep => exact inv_called hrun ih hmay hstep
      | began t n hfree =>
          refine inv_put ih ?_
          intro p' hp'
          rw [← Option.some.inj hp']
          exact ⟨hfree, rfl, rfl, fun _ hgate => absurd rfl hgate⟩
      | went t hp hnext =>
          obtain ⟨hfree, hsound⟩ := ih t _ hp
          refine inv_put ih ?_
          intro p' hp'
          rw [← Option.some.inj hp']
          exact ⟨hfree, sound_next (wordsScoped_of_run (store_run hrun)) hsound hnext⟩
      | ended t hp hdone =>
          exact inv_put ih (fun p' hp' => absurd hp'.symm (Option.some_ne_none p'))

/-- **Notifications among the statements of the store.** In every interleaving of statements
    and reads, a notification that ends has the effects of one that ran at that moment without
    interruption exactly when its rule is still on, or when it did nothing; one about a rule
    of its own thread always has; and none aborts unless its word has the crash rule. -/
theorem notified_iff {s s' : System Thread} {tr es : List (Event Thread)} {a : Input Thread}
    (hr : Run system anyStep s tr) (hs : step s a = some (s', es)) {t : Thread}
    {n : Notification} {effects : List Effect} (he : .notified t n effects ∈ es) :
    (effects = (notify t n s.store.shared).2
        ↔ n.checkBit ∈ bits (n.scope t s.store.shared) ∨ effects = [])
      ∧ (ofThread n = true → effects = (notify t n s.store.shared).2)
      ∧ (Aborts effects → 62 ∈ bits (n.scope t s.store.shared)) := by
  cases step_effect hs with
  | called m hmay hstep =>
      obtain ⟨_, -, heq⟩ := List.mem_map.mp he
      cases heq
  | began t n hfree => exact absurd he List.not_mem_nil
  | went t hp hnext => exact absurd he List.not_mem_nil
  | ended t hp hdone =>
      obtain ⟨rfl, rfl, rfl⟩ := Event.notified.inj (List.mem_singleton.mp he)
      have hsound := (inv_of_run hr t _ hp).2
      have hended := ended_of_done (wordsScoped_of_run (store_run hr)) hsound hdone
      exact ⟨hended.atomic_iff, hended.ofThread, hended.aborts⟩

/-- The statements of one call, from the lock to its release. -/
def wholeCall (t : Nat) (call : StoreCall) : List (Input Nat) :=
  .call (.acquire (t, call)) :: List.replicate 7 (.call .statement) ++ [.call .release]

/-- Thread 0 notifies of a slow event. Behind its test of the process word, thread 1 withdraws
    the rule, and then switches the crash rule on. -/
def withdrawn : List (Input Nat) :=
  wholeCall 1 (.addRule ruleCheckSlowEvent) ++ [.notify 0 (.slowEvent ⟨true, ""⟩ "tag")]
    ++ List.replicate 3 (.proceed 0) ++ wholeCall 1 (.removeRule ruleCheckSlowEvent)
    ++ wholeCall 1 (.addRule ruleCautionTriggerCrash)

/-- The notification aborts the process although the two rules were never on together. -/
theorem notified_iff_withdrawn :
    ∃ s s' tr es effects, Run system anyStep s tr ∧ step s (.proceed (0 : Nat)) = some (s', es)
      ∧ .notified 0 (.slowEvent ⟨true, ""⟩ "tag") effects ∈ es ∧ Aborts effects
      ∧ effects ≠ (notify 0 (.slowEvent ⟨true, ""⟩ "tag") s.store.shared).2 := by
  obtain ⟨p, hp⟩ : ∃ p, exec system anyStep withdrawn = some p := ⟨_, rfl⟩
  obtain ⟨s', hstep⟩ : ∃ s', step p.1 (.proceed 0) = some (s', [.notified 0
      (.slowEvent ⟨true, ""⟩ "tag")
      [.crashLog "trigger:RULE_CHECK_SLOW_EVENT,tag" "", .abort]]) := by
    obtain rfl := Option.some.inj hp
    exact ⟨_, rfl⟩
  have hoff : 32 ∉ bits p.1.store.shared.processRules := by
    obtain rfl := Option.some.inj hp
    rw [mem_bits]
    exact Bool.noConfusion
  obtain ⟨hiff, -, -⟩ := notified_iff (run_of_exec hp) hstep (List.mem_singleton_self _)
  refine ⟨p.1, s', p.2, _, _, run_of_exec hp, hstep, List.mem_singleton_self _, ?_, ?_⟩
  · exact List.mem_cons_of_mem _ (List.mem_singleton_self _)
  · intro heq
    rcases hiff.mp heq with hon | hnil
    · exact hoff hon
    · exact absurd hnil (List.cons_ne_nil _ _)

end NotifyAtomic
