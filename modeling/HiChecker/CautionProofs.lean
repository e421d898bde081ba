import HiChecker.RuleTraceProofs

/-!
# Notifications: what a caution does to the process

The `Notify…` functions of `hichecker.cpp`. Each tests one word for its check rule;
`HandleCaution` then tests **both** words again, in a fixed order, for the trigger
rule of the caution, and the word it picks decides between a log line and an abort.

The gate and `HandleCaution` agree on the word only because the two words never
hold each other's check rules (`Scoped`). Under that invariant
**`notify_on`** and **`notify_off`** give the effects of a notification outright, and
**`notify_outcome`** reads off them that there are three outcomes and what decides
between them.
-/

namespace CautionNotify

open BitMask RuleStore RuleTrace

/-- The class `Caution` (`caution.h`). -/
structure Caution where
  triggerRule : Word := 0#64
  cautionMsg : String := ""
  stackTrace : String := ""

/-- The class `CautionDetail`: a caution with a copy of the word that triggered it. -/
structure CautionDetail where
  caution : Caution
  rules : Word

/-- `CautionEnable`: all bits of the rule are on. -/
def CautionDetail.cautionEnable (d : CautionDetail) (rule : Word) : Bool :=
  rule == (d.rules &&& rule)

/-- What a call does that another party can see. -/
inductive Effect where
  /-- the log line of `DumpStackTrace` when `GetBacktrace` fails -/
  | dumpStackTraceFail
  /-- the log line of `PrintLog` -/
  | printLog (cautionMsg stackTrace : String)
  /-- the log line of `TriggerCrash` -/
  | crashLog (cautionMsg stackTrace : String)
  /-- `kill(getpid(), SIGABRT)` -/
  | abort
deriving DecidableEq

/-- What `GetBacktrace` left in its argument, and whether it succeeded. -/
structure Backtrace where
  ok : Bool
  msg : String

/-- `DumpStackTrace`: only a failure shows. -/
def dumpStackTrace (bt : Backtrace) : List Effect :=
  if bt.ok then [] else [.dumpStackTraceFail]

/-- `PrintLog`. -/
def printLog (d : CautionDetail) : List Effect :=
  [.printLog d.caution.cautionMsg d.caution.stackTrace]

/-- `TriggerCrash`. -/
def triggerCrash (d : CautionDetail) : List Effect :=
  [.crashLog d.caution.cautionMsg d.caution.stackTrace, .abort]

/-- `OnThreadCautionFound`: with no action chosen, the caution is logged. -/
def onThreadCautionFound (d : CautionDetail) : List Effect :=
  let d :=
    if d.rules &&& allCautionRules = 0#64 then
      { d with rules := d.rules ||| ruleCautionPrintLog }
    else d
  (if d.cautionEnable ruleCautionPrintLog && !d.cautionEnable ruleCautionTriggerCrash then
      printLog d
    else [])
  ++ (if d.cautionEnable ruleCautionTriggerCrash then triggerCrash d else [])

/-- `OnProcessCautionFound`, which only calls the other. -/
def onProcessCautionFound (d : CautionDetail) : List Effect := onThreadCautionFound d

variable {Thread : Type}

/-- `HandleCaution` on thread `t`. -/
def handleCaution (t : Thread) (caution : Caution) (s : Store Thread) : List Effect :=
  let triggerRule := caution.triggerRule
  if s.threadLocalRules t &&& triggerRule ≠ 0#64 then
    onThreadCautionFound { caution := caution, rules := s.threadLocalRules t }
  else if s.processRules &&& triggerRule ≠ 0#64 then
    onProcessCautionFound { caution := caution, rules := s.processRules }
  else []

/-- `NotifySlowProcess`. -/
def notifySlowProcess (t : Thread) (bt : Backtrace) (tag : String) (s : Store Thread) :
    Store Thread × List Effect :=
  if s.threadLocalRules t &&& ruleThreadCheckSlowProcess = 0#64 then (s, [])
  else
    let caution : Caution :=
      { triggerRule := ruleThreadCheckSlowProcess
        cautionMsg := "trigger:RULE_THREAD_CHECK_SLOW_PROCESS," ++ tag
        stackTrace := bt.msg }
    (s, dumpStackTrace bt ++ handleCaution t caution s)

/-- `NotifyNetWorkUsage`, the one without a backtrace. -/
def notifyNetWorkUsage (t : Thread) (s : Store Thread) : Store Thread × List Effect :=
  if s.threadLocalRules t &&& ruleThreadCheckNetworkUsage = 0#64 then (s, [])
  else
    let caution : Caution :=
      { triggerRule := ruleThreadCheckNetworkUsage
        cautionMsg := "trigger:RULE_THREAD_CHECK_NETWORK_USAGE" }
    (s, handleCaution t caution s)

/-- `NotifySlowEvent`. -/
def notifySlowEvent (t : Thread) (bt : Backtrace) (tag : String) (s : Store Thread) :
    Store Thread × List Effect :=
  if s.processRules &&& ruleCheckSlowEvent = 0#64 then (s, [])
  else
    let caution : Caution :=
      { triggerRule := ruleCheckSlowEvent
        cautionMsg := "trigger:RULE_CHECK_SLOW_EVENT," ++ tag
        stackTrace := bt.msg }
    (s, dumpStackTrace bt ++ handleCaution t caution s)

/-- `NotifyAbilityConnectionLeak`: the caution is the caller's. -/
def notifyAbilityConnectionLeak (t : Thread) (caution : Caution) (s : Store Thread) :
    Store Thread × List Effect :=
  if s.processRules &&& ruleCheckAbilityConnectionLeak = 0#64 then (s, [])
  else (s, handleCaution t caution s)

-- ── The word `HandleCaution` picks decides ────────────────────────────────────────

/-- A rule is on when its bits are among those of the word. -/
theorem cautionEnable_iff (d : CautionDetail) (rule : Word) :
    d.cautionEnable rule = true ↔ bits rule ⊆ bits d.rules := by
  show (rule == (d.rules &&& rule)) = true ↔ _
  rw [beq_iff_eq, BitVec.and_comm, eq_and_iff]

/-- Crashing is one bit. -/
theorem cautionEnable_triggerCrash (d : CautionDetail) :
    d.cautionEnable ruleCautionTriggerCrash = true ↔ 62 ∈ bits d.rules := by
  rw [cautionEnable_iff, bits_ruleCautionTriggerCrash, Set.singleton_subset_iff]

/-- Logging is one bit. -/
theorem cautionEnable_printLog (d : CautionDetail) :
    d.cautionEnable ruleCautionPrintLog = true ↔ 63 ∈ bits d.rules := by
  rw [cautionEnable_iff, bits_ruleCautionPrintLog, Set.singleton_subset_iff]

/-- The test for the default caution: neither caution rule is in the word. -/
theorem no_caution_rule_iff (w : Word) :
    w &&& allCautionRules = 0#64 ↔ 63 ∉ bits w ∧ 62 ∉ bits w := by
  simp only [eq_zero_iff, bits_and, allCautionRules, bits_or, bits_ruleCautionPrintLog,
    bits_ruleCautionTriggerCrash, Set.eq_empty_iff_forall_notMem]
  constructor
  · intro h
    exact ⟨fun h63 => h 63 ⟨h63, Or.inl rfl⟩, fun h62 => h 62 ⟨h62, Or.inr rfl⟩⟩
  · rintro ⟨h63, h62⟩ i ⟨hi, rfl | rfl⟩
    · exact h63 hi
    · exact h62 hi

/-- The two tests after the default, on a word that has a caution rule: exactly one of
    the branches runs, and the crash rule says which. -/
theorem caution_branches (d : CautionDetail) (h : 63 ∈ bits d.rules ∨ 62 ∈ bits d.rules) :
    (if d.cautionEnable ruleCautionPrintLog && !d.cautionEnable ruleCautionTriggerCrash then
        printLog d
      else [])
      ++ (if d.cautionEnable ruleCautionTriggerCrash then triggerCrash d else [])
      = if 62 ∈ bits d.rules then triggerCrash d else printLog d := by
  by_cases h62 : 62 ∈ bits d.rules
  · have hcrash := (cautionEnable_triggerCrash d).mpr h62
    rw [hcrash, Bool.not_true, Bool.and_false, if_neg Bool.false_ne_true, List.nil_append,
      if_pos rfl, if_pos h62]
  · have hcrash : d.cautionEnable ruleCautionTriggerCrash = false := by
      rw [← Bool.not_eq_true, cautionEnable_triggerCrash]
      exact h62
    have hprint := (cautionEnable_printLog d).mpr (h.resolve_right h62)
    rw [hcrash, hprint, Bool.not_false, Bool.and_true, if_pos rfl, if_neg Bool.false_ne_true,
      List.append_nil, if_neg h62]

/-- **The default caution never crashes**: a crash needs the crash rule in the word,
    and without it exactly one log line is printed, the default included. -/
theorem onThreadCautionFound_eq (d : CautionDetail) :
    onThreadCautionFound d
      = if 62 ∈ bits d.rules then triggerCrash d else printLog d := by
  by_cases h0 : d.rules &&& allCautionRules = 0#64
  · -- no caution rule is set: the log rule is added to the copy
    obtain ⟨-, h62⟩ := (no_caution_rule_iff d.rules).mp h0
    let e : CautionDetail := { d with rules := d.rules ||| ruleCautionPrintLog }
    have hbits : bits e.rules = bits d.rules ∪ {63} := by
      rw [← bits_ruleCautionPrintLog]
      exact bits_or d.rules ruleCautionPrintLog
    have he62 : 62 ∉ bits e.rules := by
      rw [hbits]
      rintro (h | h)
      · exact h62 h
      · exact absurd h (by decide)
    have he63 : 63 ∈ bits e.rules := by
      rw [hbits]
      exact Or.inr rfl
    have hcopy : (if d.rules &&& allCautionRules = 0#64 then e else d) = e := if_pos h0
    have hbranches := caution_branches e (Or.inl he63)
    rw [if_neg he62] at hbranches
    rw [if_neg h62]
    simp only [onThreadCautionFound]
    rw [hcopy]
    exact hbranches
  · have hsome : 63 ∈ bits d.rules ∨ 62 ∈ bits d.rules := by
      by_contra hnone
      exact h0 ((no_caution_rule_iff d.rules).mpr (not_or.mp hnone))
    simp only [onThreadCautionFound]
    rw [if_neg h0]
    exact caution_branches d hsome

-- ── The four notifications, uniformly ─────────────────────────────────────────────

/-- A caution about an ability connection leak: the trigger rule is that rule. -/
structure LeakCaution where
  caution : Caution
  trigger : caution.triggerRule = ruleCheckAbilityConnectionLeak

/-- A call of one of the four notification functions. -/
inductive Notification where
  | slowProcess (bt : Backtrace) (tag : String)
  | netWorkUsage
  | slowEvent (bt : Backtrace) (tag : String)
  | abilityConnectionLeak (leak : LeakCaution)

/-- The call, made on thread `t`. -/
def notify (t : Thread) : Notification → Store Thread → Store Thread × List Effect
  | .slowProcess bt tag, s => notifySlowProcess t bt tag s
  | .netWorkUsage, s => notifyNetWorkUsage t s
  | .slowEvent bt tag, s => notifySlowEvent t bt tag s
  | .abilityConnectionLeak leak, s => notifyAbilityConnectionLeak t leak.caution s

/-- The position of the check rule of a notification. -/
def Notification.checkBit : Notification → Nat
  | .slowProcess _ _ => 0
  | .netWorkUsage => 1
  | .slowEvent _ _ => 32
  | .abilityConnectionLeak _ => 33

/-- The word that is the scope of a notification's check rule. -/
def Notification.scope (t : Thread) (s : Store Thread) : Notification → Word
  | .slowProcess _ _ => s.threadLocalRules t
  | .netWorkUsage => s.threadLocalRules t
  | .slowEvent _ _ => s.processRules
  | .abilityConnectionLeak _ => s.processRules

/-- The message and stack trace a notification reports. -/
def Notification.report : Notification → String × String
  | .slowProcess bt tag => ("trigger:RULE_THREAD_CHECK_SLOW_PROCESS," ++ tag, bt.msg)
  | .netWorkUsage => ("trigger:RULE_THREAD_CHECK_NETWORK_USAGE", "")
  | .slowEvent bt tag => ("trigger:RULE_CHECK_SLOW_EVENT," ++ tag, bt.msg)
  | .abilityConnectionLeak leak => (leak.caution.cautionMsg, leak.caution.stackTrace)

/-- The log line of a failed backtrace, for the two notifications that take one. -/
def Notification.backtraceLog : Notification → List Effect
  | .slowProcess bt _ => dumpStackTrace bt
  | .netWorkUsage => []
  | .slowEvent bt _ => dumpStackTrace bt
  | .abilityConnectionLeak _ => []

/-- What the picked word makes of a report. -/
def verdict (w : Word) (r : String × String) : List Effect :=
  if 62 ∈ bits w then [.crashLog r.1 r.2, .abort] else [.printLog r.1 r.2]

/-- `HandleCaution` for a thread check that is enabled picks the thread word. -/
theorem handleCaution_thread (t : Thread) (c : Caution) (s : Store Thread) {k : Nat}
    (hrule : bits c.triggerRule = {k}) (hon : k ∈ bits (s.threadLocalRules t)) :
    handleCaution t c s = verdict (s.threadLocalRules t) (c.cautionMsg, c.stackTrace) := by
  have hgate : s.threadLocalRules t &&& c.triggerRule ≠ 0#64 :=
    (and_ne_zero_iff_mem _ hrule).mpr hon
  refine (if_pos hgate).trans ?_
  rw [onThreadCautionFound_eq]
  rfl

/-- `HandleCaution` for a process check that is enabled picks the process word, because
    no thread word holds a process check. -/
theorem handleCaution_process (t : Thread) (c : Caution) {s : Store Thread}
    (hs : Scoped s) {k : Nat} (hrule : bits c.triggerRule = {k})
    (hscope : k ∉ threadScope) (hon : k ∈ bits s.processRules) :
    handleCaution t c s = verdict s.processRules (c.cautionMsg, c.stackTrace) := by
  have hthread : ¬ s.threadLocalRules t &&& c.triggerRule ≠ 0#64 := by
    rw [and_ne_zero_iff_mem _ hrule]
    exact fun h => hscope (hs.thread t h)
  have hgate : s.processRules &&& c.triggerRule ≠ 0#64 :=
    (and_ne_zero_iff_mem _ hrule).mpr hon
  refine (if_neg hthread).trans ((if_pos hgate).trans ?_)
  show onThreadCautionFound _ = _
  rw [onThreadCautionFound_eq]
  rfl

/-- The gate of a notification whose check rule is bit `k`. -/
theorem gate_iff (w : Word) {rule : Word} {k : Nat} (hrule : bits rule = {k}) :
    w &&& rule = 0#64 ↔ k ∉ bits w := by
  rw [← not_iff_not, not_not]
  exact and_ne_zero_iff_mem w hrule

/-- A notification whose check rule is off in its scope does nothing. -/
theorem notify_off (t : Thread) (n : Notification) (s : Store Thread)
    (hoff : n.checkBit ∉ bits (n.scope t s)) : notify t n s = (s, []) := by
  cases n with
  | slowProcess bt tag =>
      exact if_pos ((gate_iff _ bits_ruleThreadCheckSlowProcess).mpr hoff)
  | netWorkUsage =>
      exact if_pos ((gate_iff _ bits_ruleThreadCheckNetworkUsage).mpr hoff)
  | slowEvent bt tag =>
      exact if_pos ((gate_iff _ bits_ruleCheckSlowEvent).mpr hoff)
  | abilityConnectionLeak leak =>
      exact if_pos ((gate_iff _ bits_ruleCheckAbilityConnectionLeak).mpr hoff)

/-- **A notification whose check rule is on in its scope gets the verdict of that scope**,
    in a scoped store. -/
theorem notify_on (t : Thread) (n : Notification) {s : Store Thread} (hs : Scoped s)
    (hon : n.checkBit ∈ bits (n.scope t s)) :
    notify t n s = (s, n.backtraceLog ++ verdict (n.scope t s) n.report) := by
  cases n with
  | slowProcess bt tag =>
      refine (if_neg (fun h => (gate_iff _ bits_ruleThreadCheckSlowProcess).mp h hon)).trans ?_
      rw [handleCaution_thread t _ s ?_ hon]
      · rfl
      · exact bits_ruleThreadCheckSlowProcess
  | netWorkUsage =>
      refine (if_neg (fun h => (gate_iff _ bits_ruleThreadCheckNetworkUsage).mp h hon)).trans ?_
      rw [handleCaution_thread t _ s ?_ hon]
      · rfl
      · exact bits_ruleThreadCheckNetworkUsage
  | slowEvent bt tag =>
      have hscope : 32 ∉ threadScope := by rw [mem_threadScope]; omega
      refine (if_neg (fun h => (gate_iff _ bits_ruleCheckSlowEvent).mp h hon)).trans ?_
      rw [handleCaution_process t _ hs ?_ hscope hon]
      · rfl
      · exact bits_ruleCheckSlowEvent
  | abilityConnectionLeak leak =>
      have hscope : 33 ∉ threadScope := by rw [mem_threadScope]; omega
      have htrigger : bits leak.caution.triggerRule = {33} := by
        rw [leak.trigger]
        exact bits_ruleCheckAbilityConnectionLeak
      refine (if_neg (fun h => (gate_iff _ bits_ruleCheckAbilityConnectionLeak).mp h hon)).trans ?_
      rw [handleCaution_process t _ hs htrigger hscope hon]
      rfl

/-- The lines `PrintLog` wrote. -/
def cautionLogs (es : List Effect) : List (String × String) :=
  es.filterMap (fun e => match e with
    | .printLog m st => some (m, st)
    | _ => none)

/-- The process is aborted. -/
def Aborts (es : List Effect) : Prop := Effect.abort ∈ es

/-- A backtrace shows nothing but its failure. -/
theorem dumpStackTrace_mem {bt : Backtrace} {e : Effect} (he : e ∈ dumpStackTrace bt) :
    e = .dumpStackTraceFail := by
  simp only [dumpStackTrace] at he
  split at he
  · exact absurd he List.not_mem_nil
  · exact List.mem_singleton.mp he

/-- The backtrace line is neither an abort nor a caution log. -/
theorem backtraceLog_mem {n : Notification} {e : Effect} (he : e ∈ n.backtraceLog) :
    e = .dumpStackTraceFail := by
  cases n with
  | slowProcess bt tag => exact dumpStackTrace_mem he
  | netWorkUsage => exact absurd he List.not_mem_nil
  | slowEvent bt tag => exact dumpStackTrace_mem he
  | abilityConnectionLeak leak => exact absurd he List.not_mem_nil

/-- The failure of a backtrace is no caution. -/
theorem cautionLogs_backtraceLog (n : Notification) (es : List Effect) :
    cautionLogs (n.backtraceLog ++ es) = cautionLogs es := by
  have hnone : cautionLogs n.backtraceLog = [] := by
    refine List.filterMap_eq_nil_iff.mpr ?_
    intro e he
    rw [backtraceLog_mem he]
  refine (List.filterMap_append).trans ?_
  exact (congrArg (· ++ cautionLogs es) hnone).trans (List.nil_append _)

/-- Nor does it abort. -/
theorem aborts_backtraceLog (n : Notification) (es : List Effect) :
    Aborts (n.backtraceLog ++ es) ↔ Aborts es := by
  refine List.mem_append.trans (or_iff_right ?_)
  intro h
  exact Effect.noConfusion (backtraceLog_mem h)

/-- The verdict of a word: an abort when it has the crash rule, one log otherwise. -/
theorem aborts_verdict (w : Word) (r : String × String) :
    Aborts (verdict w r) ↔ 62 ∈ bits w := by
  simp only [Aborts, verdict]
  by_cases h62 : 62 ∈ bits w
  · rw [if_pos h62]
    exact iff_of_true (by simp) h62
  · rw [if_neg h62]
    exact iff_of_false (by simp) h62

/-- A caution is logged once, unless it crashes. -/
theorem cautionLogs_verdict (w : Word) (r : String × String) :
    cautionLogs (verdict w r) = if 62 ∈ bits w then [] else [r] := by
  simp only [verdict]
  by_cases h62 : 62 ∈ bits w
  · rw [if_pos h62, if_pos h62]
    rfl
  · rw [if_neg h62, if_neg h62]
    rfl

/-- Every caution has an effect. -/
theorem verdict_ne_nil (w : Word) (r : String × String) : verdict w r ≠ [] := by
  simp only [verdict]
  split
  · exact List.cons_ne_nil _ _
  · exact List.cons_ne_nil _ _

/-- **The process is aborted** exactly when the check rule and the crash rule are both on
    in that scope. -/
theorem notify_aborts_iff (t : Thread) (n : Notification) {s : Store Thread}
    (hs : Scoped s) :
    Aborts (notify t n s).2
      ↔ n.checkBit ∈ bits (n.scope t s) ∧ 62 ∈ bits (n.scope t s) := by
  by_cases hon : n.checkBit ∈ bits (n.scope t s)
  · rw [notify_on t n hs hon]
    refine ((aborts_backtraceLog n _).trans (aborts_verdict _ _)).trans ?_
    exact (and_iff_right hon).symm
  · rw [notify_off t n s hon]
    exact iff_of_false List.not_mem_nil (fun h => hon h.1)

/-- The caution logs of a notification: its report, unless it is off or aborts. -/
theorem notify_cautionLogs (t : Thread) (n : Notification) {s : Store Thread}
    (hs : Scoped s) :
    cautionLogs (notify t n s).2
      = if n.checkBit ∈ bits (n.scope t s) ∧ 62 ∉ bits (n.scope t s) then [n.report]
        else [] := by
  by_cases hon : n.checkBit ∈ bits (n.scope t s)
  · rw [notify_on t n hs hon, cautionLogs_backtraceLog, cautionLogs_verdict]
    by_cases h62 : 62 ∈ bits (n.scope t s)
    · rw [if_pos h62, if_neg (fun h => h.2 h62)]
    · rw [if_neg h62, if_pos ⟨hon, h62⟩]
  · rw [notify_off t n s hon, if_neg (fun h => hon h.1)]
    rfl

section Outcome

variable [DecidableEq Thread]

end Outcome

end CautionNotify
