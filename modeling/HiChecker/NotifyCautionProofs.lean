import HiChecker.StartupParamProofs

/-!
# The common notification and the dedicated ones

`NotifyCaution` takes a rule and an object of the caller. It tests the rule like the
dedicated functions do, in both words, and fills in the message. `HandleCaution` then goes
by the **trigger rule of the object**, which is whatever the caller left in it; the
dedicated functions build an object with the rule they tested.

* **`notifyCaution`** — the code's own; **`notifyCaution_on`**, **`notifyCaution_off`** are
  its effects.
* **`pickedWord`** — the word that `HandleCaution` picks for a trigger rule.
* **`notifyCaution_agrees_iff`** — when it does what the dedicated function does.
* **`notifyCaution_agrees_of_trigger`** — with the tested rule as trigger rule it does.
-/

namespace NotifyCaution

open BitMask RuleStore CautionNotify StartupParam

variable {Thread : Type}

/-- The message for a rule, empty for the rules without one. -/
def cautionMessage (rule : Word) (tag : String) : String :=
  if rule = ruleThreadCheckSlowProcess then "trigger:RULE_THREAD_CHECK_SLOW_PROCESS," ++ tag
  else if rule = ruleCheckSlowEvent then "trigger:RULE_CHECK_SLOW_EVENT," ++ tag
  else if rule = ruleCheckArkuiPerformance then "trigger:RULE_CHECK_ARKUI_PERFORMANCE," ++ tag
  else if rule = ruleThreadCheckNetworkUsage then "trigger:RULE_THREAD_CHECK_NETWORK_USAGE"
  else ""

/-- `NotifyCaution` on thread `t`: the caller's object afterwards, and the effects. -/
def notifyCaution (t : Thread) (rule : Word) (bt : Backtrace) (tag : String) (caution : Caution)
    (s : Store Thread) : Caution × List Effect :=
  if s.threadLocalRules t &&& rule = 0#64 ∧ s.processRules &&& rule = 0#64 then (caution, [])
  else
    if ruleCheckAbilityConnectionLeak ≠ rule then
      let caution :=
        { caution with cautionMsg := cautionMessage rule tag, stackTrace := bt.msg }
      (caution, dumpStackTrace bt ++ handleCaution t caution s)
    else (caution, handleCaution t caution s)

-- ── The word that is picked ───────────────────────────────────────────────────────

/-- The word that `HandleCaution` picks for a trigger rule, the thread's first. -/
def pickedWord (t : Thread) (triggerRule : Word) (s : Store Thread) : Option Word :=
  if s.threadLocalRules t &&& triggerRule ≠ 0#64 then some (s.threadLocalRules t)
  else if s.processRules &&& triggerRule ≠ 0#64 then some s.processRules
  else none

/-- **`HandleCaution`** for any object: the verdict of the picked word, if there is one. -/
theorem handleCaution_eq (t : Thread) (c : Caution) (s : Store Thread) :
    handleCaution t c s = match pickedWord t c.triggerRule s with
      | none => []
      | some w => verdict w (c.cautionMsg, c.stackTrace) := by
  rw [handleCaution, pickedWord]
  by_cases hthread : s.threadLocalRules t &&& c.triggerRule ≠ 0#64
  · rw [if_pos hthread, if_pos hthread, onThreadCautionFound_eq]
    rfl
  · rw [if_neg hthread, if_neg hthread]
    by_cases hprocess : s.processRules &&& c.triggerRule ≠ 0#64
    · rw [if_pos hprocess, if_pos hprocess, onProcessCautionFound, onThreadCautionFound_eq]
      rfl
    · rw [if_neg hprocess, if_neg hprocess]

-- ── Actions ───────────────────────────────────────────────────────────────────────

/-- What a notification does about a caution, with its message. -/
inductive Action where
  | log (cautionMsg : String)
  | crashLog (cautionMsg : String)
  | abort
deriving DecidableEq

/-- The action an effect is; the log line of a failed backtrace is none. -/
def actionOf : Effect → Option Action
  | .dumpStackTraceFail => none
  | .printLog cautionMsg _ => some (.log cautionMsg)
  | .crashLog cautionMsg _ => some (.crashLog cautionMsg)
  | .abort => some .abort

def actions (es : List Effect) : List Action := es.filterMap actionOf

theorem actions_append (es es' : List Effect) : actions (es ++ es') = actions es ++ actions es' :=
  List.filterMap_append

theorem actions_dumpStackTrace (bt : Backtrace) : actions (dumpStackTrace bt) = [] := by
  refine List.filterMap_eq_nil_iff.mpr ?_
  intro e he
  rw [dumpStackTrace_mem he]
  rfl

theorem actions_backtraceLog (n : Notification) : actions n.backtraceLog = [] := by
  refine List.filterMap_eq_nil_iff.mpr ?_
  intro e he
  rw [backtraceLog_mem he]
  rfl

theorem actions_verdict (w : Word) (r : String × String) :
    actions (verdict w r) = if 62 ∈ bits w then [.crashLog r.1, .abort] else [.log r.1] := by
  rw [verdict]
  split
  · rfl
  · rfl

/-- Two words do the same about a message exactly when they agree on the crash rule. -/
theorem actions_verdict_eq_iff (w w' : Word) (msg st st' : String) :
    actions (verdict w (msg, st)) = actions (verdict w' (msg, st'))
      ↔ (62 ∈ bits w ↔ 62 ∈ bits w') := by
  rw [actions_verdict, actions_verdict]
  by_cases h : 62 ∈ bits w
  · by_cases h' : 62 ∈ bits w'
    · rw [if_pos h, if_pos h']
      exact iff_of_true rfl (iff_of_true h h')
    · rw [if_pos h, if_neg h']
      exact iff_of_false (fun heq => by simp at heq) (fun hiff => h' (hiff.mp h))
  · by_cases h' : 62 ∈ bits w'
    · rw [if_neg h, if_pos h']
      exact iff_of_false (fun heq => by simp at heq) (fun hiff => h (hiff.mpr h'))
    · rw [if_neg h, if_neg h']
      exact iff_of_true rfl (iff_of_false h h')

theorem actions_verdict_ne_nil (w : Word) (r : String × String) : actions (verdict w r) ≠ [] := by
  rw [actions_verdict]
  split
  · exact List.cons_ne_nil _ _
  · exact List.cons_ne_nil _ _

-- ── The three checks with both functions ──────────────────────────────────────────

/-- A check that has a dedicated function and a message of its own. -/
inductive Check where
  | slowProcess
  | slowEvent
  | netWorkUsage

/-- The rule of a check. -/
def Check.rule : Check → Word
  | .slowProcess => ruleThreadCheckSlowProcess
  | .slowEvent => ruleCheckSlowEvent
  | .netWorkUsage => ruleThreadCheckNetworkUsage

/-- The call of its dedicated function. -/
def Check.dedicated (bt : Backtrace) (tag : String) : Check → Notification
  | .slowProcess => .slowProcess bt tag
  | .slowEvent => .slowEvent bt tag
  | .netWorkUsage => .netWorkUsage

theorem Check.bits_rule (c : Check) (bt : Backtrace) (tag : String) :
    bits c.rule = {(c.dedicated bt tag).checkBit} := by
  cases c with
  | slowProcess => exact bits_ruleThreadCheckSlowProcess
  | slowEvent => exact bits_ruleCheckSlowEvent
  | netWorkUsage => exact bits_ruleThreadCheckNetworkUsage

/-- Both functions make the same message. -/
theorem Check.cautionMessage_eq (c : Check) (bt : Backtrace) (tag : String) :
    cautionMessage c.rule tag = (c.dedicated bt tag).report.1 := by
  cases c with
  | slowProcess => exact if_pos rfl
  | slowEvent => exact (if_neg (by decide)).trans (if_pos rfl)
  | netWorkUsage =>
      exact (if_neg (by decide)).trans ((if_neg (by decide)).trans
        ((if_neg (by decide)).trans (if_pos rfl)))

/-- In a scoped store the two words are tested as the one in the scope of the rule. -/
theorem Check.gate_iff (c : Check) (t : Thread) (bt : Backtrace) (tag : String)
    {s : Store Thread} (hs : Scoped s) :
    (s.threadLocalRules t &&& c.rule = 0#64 ∧ s.processRules &&& c.rule = 0#64)
      ↔ (c.dedicated bt tag).checkBit ∉ bits ((c.dedicated bt tag).scope t s) := by
  rw [CautionNotify.gate_iff _ (c.bits_rule bt tag), CautionNotify.gate_iff _ (c.bits_rule bt tag)]
  have hthread : ∀ k, k ∉ processScope → k ∉ bits s.processRules := fun k hk h => hk (hs.process h)
  have hprocess : ∀ k, k ∉ threadScope → k ∉ bits (s.threadLocalRules t) := fun k hk h =>
    hk (hs.thread t h)
  cases c with
  | slowProcess =>
      exact and_iff_left (hthread 0 (by rw [mem_processScope]; omega))
  | slowEvent =>
      exact and_iff_right (hprocess 32 (by rw [mem_threadScope]; omega))
  | netWorkUsage =>
      exact and_iff_left (hthread 1 (by rw [mem_processScope]; omega))

/-- With the check off in its scope the common function does nothing. -/
theorem notifyCaution_off (c : Check) (t : Thread) (bt bt' : Backtrace) (tag : String)
    (caution : Caution) {s : Store Thread} (hs : Scoped s)
    (hoff : (c.dedicated bt tag).checkBit ∉ bits ((c.dedicated bt tag).scope t s)) :
    notifyCaution t c.rule bt' tag caution s = (caution, []) :=
  if_pos ((c.gate_iff t bt tag hs).mpr hoff)

/-- **With the check on, the trigger rule of the object decides**, and the message is that
    of the dedicated function. -/
theorem notifyCaution_on (c : Check) (t : Thread) (bt bt' : Backtrace) (tag : String)
    (caution : Caution) {s : Store Thread} (hs : Scoped s)
    (hon : (c.dedicated bt tag).checkBit ∈ bits ((c.dedicated bt tag).scope t s)) :
    (notifyCaution t c.rule bt' tag caution s).2
      = dumpStackTrace bt' ++ match pickedWord t caution.triggerRule s with
        | none => []
        | some w => verdict w ((c.dedicated bt tag).report.1, bt'.msg) := by
  have hgate : ¬ (s.threadLocalRules t &&& c.rule = 0#64 ∧ s.processRules &&& c.rule = 0#64) :=
    fun h => (c.gate_iff t bt tag hs).mp h hon
  have hleak : ruleCheckAbilityConnectionLeak ≠ c.rule := by
    cases c with
    | slowProcess => decide
    | slowEvent => decide
    | netWorkUsage => decide
  rw [notifyCaution, if_neg hgate, if_pos hleak, c.cautionMessage_eq bt tag]
  exact congrArg (dumpStackTrace bt' ++ ·) (handleCaution_eq t _ s)

/-- The rule that was tested picks the scope of the check. -/
theorem pickedWord_rule (c : Check) (t : Thread) (bt : Backtrace) (tag : String)
    {s : Store Thread} (hs : Scoped s)
    (hon : (c.dedicated bt tag).checkBit ∈ bits ((c.dedicated bt tag).scope t s)) :
    pickedWord t c.rule s = some ((c.dedicated bt tag).scope t s) := by
  have hmem : ∀ w : Word, w &&& c.rule ≠ 0#64 ↔ (c.dedicated bt tag).checkBit ∈ bits w :=
    fun w => and_ne_zero_iff_mem w (c.bits_rule bt tag)
  rw [pickedWord]
  cases c with
  | slowProcess => exact if_pos ((hmem _).mpr hon)
  | netWorkUsage => exact if_pos ((hmem _).mpr hon)
  | slowEvent =>
      have hthread : ¬ s.threadLocalRules t &&& Check.slowEvent.rule ≠ 0#64 := by
        rw [hmem]
        intro hbit
        have hscope : 32 ∈ threadScope := hs.thread t hbit
        rw [mem_threadScope] at hscope
        omega
      exact (if_neg hthread).trans (if_pos ((hmem _).mpr hon))

section Agreement

variable [DecidableEq Thread]

/-- **When the common function does what the dedicated one does**, after every history of
    rule calls, on every thread, for every tag and object: the check is off in its scope,
    or the trigger rule of the object picks a word that agrees with the scope of the check
    on the crash rule. -/
theorem notifyCaution_agrees_iff (h : List (Thread × StoreCall)) (t : Thread) (c : Check)
    (bt bt' : Backtrace) (tag : String) (caution : Caution) :
    let s := storeAfter h
    let n := c.dedicated bt tag
    actions (notifyCaution t c.rule bt' tag caution s).2 = actions (notify t n s).2
      ↔ n.checkBit ∉ bits (n.scope t s)
        ∨ ∃ w, pickedWord t caution.triggerRule s = some w
            ∧ (62 ∈ bits w ↔ 62 ∈ bits (n.scope t s)) := by
  intro s n
  have hs : Scoped s := scoped_storeAfter h
  by_cases hon : n.checkBit ∈ bits (n.scope t s)
  · rw [notify_on t n hs hon, notifyCaution_on c t bt bt' tag caution hs hon, actions_append,
      actions_append, actions_dumpStackTrace, actions_backtraceLog, List.nil_append,
      List.nil_append, or_iff_right (not_not.mpr hon)]
    cases hpicked : pickedWord t caution.triggerRule s with
    | none =>
        refine iff_of_false (fun heq => actions_verdict_ne_nil _ _ heq.symm) ?_
        rintro ⟨w, hw, -⟩
        exact Option.some_ne_none w hw.symm
    | some w =>
        simp only [Option.some.injEq, exists_eq_left']
        exact actions_verdict_eq_iff w (n.scope t s) n.report.1 bt'.msg n.report.2
  · rw [notify_off t n s hon, notifyCaution_off c t bt bt' tag caution hs hon]
    exact iff_of_true rfl (Or.inl hon)

/-- **An object whose trigger rule is the rule that is tested** is handled as the dedicated
    function handles its own. -/
theorem notifyCaution_agrees_of_trigger (h : List (Thread × StoreCall)) (t : Thread) (c : Check)
    (bt bt' : Backtrace) (tag : String) {caution : Caution}
    (htrigger : caution.triggerRule = c.rule) :
    actions (notifyCaution t c.rule bt' tag caution (storeAfter h)).2
      = actions (notify t (c.dedicated bt tag) (storeAfter h)).2 := by
  have hs : Scoped (storeAfter h) := scoped_storeAfter h
  by_cases hon : (c.dedicated bt tag).checkBit ∈ bits ((c.dedicated bt tag).scope t (storeAfter h))
  · rw [notifyCaution_on c t bt bt' tag caution hs hon, htrigger, pickedWord_rule c t bt tag hs hon,
      notify_on t _ hs hon, actions_append, actions_append, actions_dumpStackTrace,
      actions_backtraceLog, actions_verdict, actions_verdict]
  · rw [notify_off t _ _ hon, notifyCaution_off c t bt bt' tag caution hs hon]

end Agreement

/-- A default object: the check is on, the dedicated function prints a log, and the common
    one does nothing. -/
theorem notifyCaution_drops :
    ¬ ∀ (h : List (Unit × StoreCall)) (c : Check) (bt bt' : Backtrace) (tag : String)
        (caution : Caution),
        actions (notifyCaution () c.rule bt' tag caution (storeAfter h)).2
          = actions (notify () (c.dedicated bt tag) (storeAfter h)).2 := by
  intro h
  have hsame := h [((), .addRule ruleThreadCheckSlowProcess)] .slowProcess ⟨true, ""⟩ ⟨true, ""⟩
    "tag" {}
  exact absurd hsame (by decide +kernel)

end NotifyCaution
