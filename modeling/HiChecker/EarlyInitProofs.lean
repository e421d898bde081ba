import HiChecker.EventLedgerProofs
import HiChecker.LeakReportProofs
import HiChecker.RestartProofs

/-!
# Early initialization, and the events that leave the process

`JSLeakWatcherEarlyInit` of `js_leak_watcher_ts.cpp` starts the watcher of a debuggable
application when a system parameter names it, and writes down its decision in
`g_enableStatus`. `ReportRawHeap` asks for that decision each time the module reports a dump.

* **`System`** — the watcher with the decision beside it; **`system`** runs both.
* **`events_gated`** — which reports become system events, and what the events say.
* **`earlyInit_starts`** — what an early initialization does to the watcher.
-/

namespace EarlyInit

open Transition Trace JsValue WatcherConfig DumpFile TimerQueue Watcher LeakAgreement LeakReport
open LeakListText (leakListText)
open LeakRound (ObjMsg)

-- ── Parameters of the device ──────────────────────────────────────────────────────

/-- What the early initialization reads of the device. -/
structure Device where
  /-- `const.debuggable` -/
  debuggable : Bool := false
  /-- the environment variable `HAP_DEBUGGABLE` -/
  hapDebuggable : Option String := none
  /-- `hiviewdfx.hichecker.jsleakwatcher.leak.check` -/
  leakCheck : SystemParameter := .unset

/-- `IsDebuggableHap`. -/
def isDebuggableHap (device : Device) : Bool :=
  match device.hapDebuggable with
  | none => false
  | some value => value = "true"

/-- `IsRootVersion`. -/
def isRootVersion (device : Device) : Bool := device.debuggable

/-- `none` is a null pointer. -/
def checkJsLeakWatcherParam (device : Device) (bundleName : Option String) : Bool :=
  match bundleName with
  | none => false
  | some bundleName =>
      match device.leakCheck.get ("disable." ++ bundleName) with
      | none => false
      | some paramValue => paramValue = "enable." ++ bundleName

-- ── The system event ──────────────────────────────────────────────────────────────

/-- The parameters of the event `MEMORY_LEAK_JS_LEAK_WATCHER`. -/
structure LeakEvent where
  pid : BitVec 32
  happenTime : String
  moduleName : String
  leakList : String
  dynamicRawheapPath : String
  staticRawheapPath : String
  leakListPath : String
  leakObjectCount : BitVec 32
deriving DecidableEq

/-- `ReportRawHeap`: the event that `HiSysEventWrite` gets, unless the watcher was not enabled. -/
def reportRawHeap (enableStatus : Bool) (report : ReportRawHeap) : Option LeakEvent :=
  if !enableStatus then none
  else
    some
      { pid := (JsNum.ofNat report.pid).toInt32
        happenTime := report.happenTime
        moduleName := report.moduleName
        leakList := report.leakList
        dynamicRawheapPath := report.dynamicRawheapPath
        staticRawheapPath := report.staticRawheapPath
        leakListPath := report.leakListPath
        leakObjectCount := (JsNum.ofNat report.leakObjectCount).toInt32 }

-- ── The system ────────────────────────────────────────────────────────────────────

/-- The watcher in its process, with the switch of the early initialization. -/
structure System (Dir : Type) where
  world : World Dir
  /-- `g_enableStatus` -/
  enableStatus : Bool := false

/-- An early initialization, or a step of the watcher. -/
inductive Input (Dir : Type) where
  | earlyInit (device : Device) (bundleName : String) (out : Surroundings)
  | watcher (a : Watcher.Input Dir)

/-- What is seen of the process. -/
inductive SystemEvent where
  /-- an early initialization wrote its decision -/
  | decided (device : Device) (bundleName : String) (status : Bool)
  /-- the module reported, with `intersection` and the dump status as they were, and what
      became of the report -/
  | reported (leaks : List ObjMsg) (dumpStatus : Bool) (report : ReportRawHeap)
      (written : Option LeakEvent)

/-- The object with `monitorObjectTypes` alone. -/
def earlyConfigs : Configs :=
  .object { monitorObjectTypes := some (.fin (-1)) } none []

/-- The function `myInternalCallback`. -/
def internalCallback : JsVal := .obj 0

variable {Dir : Type} (plat : Platform Dir)

/-- `JSLeakWatcherEarlyInit`: a device that is neither root nor debuggable keeps its status. -/
def jsLeakWatcherEarlyInit (device : Device) (bundleName : String) (out : Surroundings)
    (s : System Dir) : System Dir × List SystemEvent :=
  if !isRootVersion device && !isDebuggableHap device then (s, [])
  else
    let ret := checkJsLeakWatcherParam device (some bundleName)
    let s := { s with enableStatus := ret }
    if !ret then (s, [.decided device bundleName ret])
    else
      let call :=
        enableLeakWatcher plat out (.bool true) earlyConfigs internalCallback s.world
      ({ s with world := call.1 }, [.decided device bundleName ret])

/-- The report in an event, if it is one. -/
def reportOf : Event → Option ReportRawHeap
  | .dump (.reportRawHeap report) => some report
  | _ => none

/-- The reports of a step that ends in `w`, with what `ReportRawHeap` makes of them. -/
def systemEvents (enableStatus : Bool) (w : World Dir) (es : List Event) : List SystemEvent :=
  (es.filterMap reportOf).map (fun report =>
    .reported w.appState.intersection w.dump.dumpStatus report (reportRawHeap enableStatus report))

variable [DecidableEq Dir]

/-- One step of the process. -/
def step (s : System Dir) : Input Dir → Option (System Dir × List SystemEvent)
  | .earlyInit device bundleName out => some (jsLeakWatcherEarlyInit plat device bundleName out s)
  | .watcher a =>
      match Watcher.step plat s.world a with
      | none => none
      | some (world, es) => some ({ s with world := world }, systemEvents s.enableStatus world es)

/-- The process, from its start. -/
def system (load : DumpState Dir) : Machine (System Dir) (Input Dir) SystemEvent :=
  ⟨{ world := { dump := load } }, step plat⟩

-- ── What the parameters decide ────────────────────────────────────────────────────

/-- The variable has to be `true`, and nothing else. -/
theorem isDebuggableHap_iff (device : Device) :
    isDebuggableHap device = true ↔ device.hapDebuggable = some "true" := by
  rw [isDebuggableHap]
  cases device.hapDebuggable with
  | none => exact iff_of_false Bool.false_ne_true (Option.some_ne_none "true").symm
  | some value => exact decide_eq_true_iff.trans (Option.some_inj).symm

/-- The watcher is enabled for a bundle by the one value that names it. -/
theorem checkJsLeakWatcherParam_iff (device : Device) (bundleName : String) :
    checkJsLeakWatcherParam device (some bundleName) = true
      ↔ device.leakCheck = .set ("enable." ++ bundleName) := by
  have hdefault : "disable." ++ bundleName ≠ "enable." ++ bundleName := by
    intro heq
    have hlist := congrArg String.toList heq
    rw [String.toList_append, String.toList_append] at hlist
    exact absurd (List.append_left_injective _ hlist) (by decide)
  rw [checkJsLeakWatcherParam]
  cases device.leakCheck with
  | unavailable => exact iff_of_false Bool.false_ne_true (fun h => SystemParameter.noConfusion h)
  | unreadable => exact iff_of_false Bool.false_ne_true (fun h => SystemParameter.noConfusion h)
  | unset =>
      refine iff_of_false ?_ (fun h => SystemParameter.noConfusion h)
      exact fun h => hdefault (of_decide_eq_true h)
  | set value =>
      refine decide_eq_true_iff.trans ?_
      exact ⟨fun h => congrArg SystemParameter.set h, SystemParameter.set.inj⟩

-- ── Reports become events while the decision allows them ──────────────────────────

variable {plat}

/-- An early initialization for the bundle that the parameter names. -/
def allows : SystemEvent → Prop
  | .decided device bundleName _ => device.leakCheck = .set ("enable." ++ bundleName)
  | .reported _ _ _ _ => False

/-- An early initialization for another bundle, or without the parameter. -/
def forbids : SystemEvent → Prop
  | .decided device bundleName _ => device.leakCheck ≠ .set ("enable." ++ bundleName)
  | .reported _ _ _ _ => False

/-- The application may be debugged. -/
def Debuggable (device : Device) : Prop :=
  device.debuggable = true ∨ device.hapDebuggable = some "true"

/-- A system event says what the report says, with its numbers in 32 bits. -/
structure Says (report : ReportRawHeap) (event : LeakEvent) : Prop where
  pid : event.pid = BitVec.ofNat 32 report.pid
  time : event.happenTime = report.happenTime
  moduleName : event.moduleName = report.moduleName
  leakList : event.leakList = report.leakList
  count : event.leakObjectCount = BitVec.ofNat 32 report.leakObjectCount
  dynamicPath : event.dynamicRawheapPath = report.dynamicRawheapPath
  staticPath : event.staticRawheapPath = report.staticRawheapPath
  listPath : event.leakListPath = report.leakListPath

/-- How an event relates to the ones before: a report describes `intersection` and the names of
    its dump, and is written as it is, or not at all. -/
def Gated (before : List SystemEvent) : SystemEvent → Prop
  | .decided device _ _ => Debuggable device
  | .reported leaks dumpStatus report written =>
      (∃ fileList, Describes leaks dumpStatus fileList report)
        ∧ (written.isSome = true ↔ Since allows forbids before)
        ∧ ∀ event, written = some event → Says report event

/-- Natural numbers reach the event modulo `2 ^ 32`. -/
theorem toInt32_ofNat (n : Nat) : (JsNum.ofNat n).toInt32 = BitVec.ofNat 32 n := by
  show BitVec.ofInt 32 (if 0 ≤ ((n : Int) : Rat) then ((n : Int) : Rat).floor
    else ((n : Int) : Rat).ceil) = _
  rw [Rat.floor_intCast, Rat.ceil_intCast, ite_self]
  exact BitVec.ofInt_natCast 32 n

/-- A report is written exactly when the status allows it. -/
theorem reportRawHeap_isSome (enableStatus : Bool) (report : ReportRawHeap) :
    (reportRawHeap enableStatus report).isSome = enableStatus := by
  cases enableStatus with
  | true => rfl
  | false => rfl

/-- The event written says what the report does. -/
theorem says_of_written {report : ReportRawHeap} {enableStatus : Bool} {event : LeakEvent}
    (hevent : reportRawHeap enableStatus report = some event) : Says report event := by
  obtain ⟨-, heq⟩ := Option.ite_none_left_eq_some.mp hevent
  rw [← Option.some.inj heq]
  exact ⟨toInt32_ofNat _, rfl, rfl, rfl, toInt32_ofNat _, rfl, rfl, rfl⟩

/-- The decision that holds, and the events so far. -/
structure Decided (s : System Dir) (tr : List SystemEvent) : Prop where
  status : s.enableStatus = true ↔ Since allows forbids tr
  gated : AtEach Gated tr

omit [DecidableEq Dir] in
/-- Reports leave the decision alone. -/
theorem Decided.report {s : System Dir} {tr : List SystemEvent} (h : Decided s tr)
    {leaks : List ObjMsg} {dumpStatus : Bool} (reports : List ReportRawHeap)
    (hreports : ∀ report ∈ reports, ∃ fileList, Describes leaks dumpStatus fileList report) :
    Decided s (tr ++ reports.map (fun report =>
      .reported leaks dumpStatus report (reportRawHeap s.enableStatus report))) := by
  induction reports using List.reverseRecOn with
  | nil =>
      rw [List.map_nil, List.append_nil]
      exact h
  | append_singleton reports report ih =>
      have hold := ih (fun r hr => hreports r (List.mem_append_left _ hr))
      have hdescribes := hreports report
        (List.mem_append_right _ (List.mem_singleton_self report))
      rw [List.map_append, ← List.append_assoc]
      refine ⟨?_, atEach_snoc.mpr ⟨hold.gated, hdescribes, ?_, ?_⟩⟩
      · exact hold.status.trans (since_snoc_other id id).symm
      · rw [reportRawHeap_isSome]
        exact hold.status
      · exact fun event hevent => says_of_written hevent

omit [DecidableEq Dir] in
/-- A decision replaces the one before. -/
theorem Decided.decide {s s' : System Dir} {tr : List SystemEvent} (h : Decided s tr)
    {device : Device} {bundleName : String} (hdebug : Debuggable device)
    (hs : s'.enableStatus = true ↔ device.leakCheck = .set ("enable." ++ bundleName)) :
    Decided s' (tr ++ [.decided device bundleName s'.enableStatus]) := by
  refine ⟨?_, atEach_snoc.mpr ⟨h.gated, hdebug⟩⟩
  rw [since_snoc, hs]
  constructor
  · exact Or.inl
  · rintro (hnamed | ⟨-, hnot⟩)
    · exact hnamed
    · exact not_not.mp hnot

/-- The test at the head of the early initialization. -/
theorem debuggable_iff (device : Device) :
    Debuggable device ↔ ¬ (!isRootVersion device && !isDebuggableHap device) = true := by
  rw [Debuggable, ← isDebuggableHap_iff, isRootVersion]
  cases device.debuggable with
  | true => exact iff_of_true (Or.inl rfl) Bool.false_ne_true
  | false =>
      cases isDebuggableHap device with
      | true => exact iff_of_true (Or.inr rfl) Bool.false_ne_true
      | false => exact iff_of_false (fun h => h.elim nofun nofun) (fun h => h rfl)

section Ways

variable {device : Device} {bundleName : String}

omit [DecidableEq Dir] in
/-- Where the application may not be debugged nothing happens. -/
theorem earlyInit_of_not_debuggable (h : ¬ Debuggable device) (out : Surroundings)
    (s : System Dir) : jsLeakWatcherEarlyInit plat device bundleName out s = (s, []) := by
  rw [jsLeakWatcherEarlyInit, if_pos (not_not.mp ((debuggable_iff device).not.mp h))]

omit [DecidableEq Dir] in
/-- A parameter that does not name the bundle withdraws the decision. -/
theorem earlyInit_of_other (h : Debuggable device)
    (hother : device.leakCheck ≠ .set ("enable." ++ bundleName)) (out : Surroundings)
    (s : System Dir) :
    jsLeakWatcherEarlyInit plat device bundleName out s
      = ({ s with enableStatus := false }, [.decided device bundleName false]) := by
  have hret : checkJsLeakWatcherParam device (some bundleName) = false :=
    Bool.eq_false_iff.mpr ((checkJsLeakWatcherParam_iff device bundleName).not.mpr hother)
  rw [jsLeakWatcherEarlyInit, if_neg ((debuggable_iff device).mp h), hret]
  rfl

omit [DecidableEq Dir] in
/-- The parameter that names the bundle switches the watcher on. -/
theorem earlyInit_of_named (h : Debuggable device)
    (hnamed : device.leakCheck = .set ("enable." ++ bundleName)) (out : Surroundings)
    (s : System Dir) :
    jsLeakWatcherEarlyInit plat device bundleName out s
      = ({ s with
            enableStatus := true
            world := (enableLeakWatcher plat out (.bool true) earlyConfigs internalCallback
              s.world).1 }, [.decided device bundleName true]) := by
  have hret := (checkJsLeakWatcherParam_iff device bundleName).mpr hnamed
  rw [jsLeakWatcherEarlyInit, if_neg ((debuggable_iff device).mp h), hret]
  rfl

end Ways

/-- A report among the events is one of a dump. -/
theorem mem_filterMap_reportOf {es : List Event} {report : ReportRawHeap}
    (h : report ∈ es.filterMap reportOf) : .reportRawHeap report ∈ dumpEvents es := by
  obtain ⟨e, he, heq⟩ := List.mem_filterMap.mp h
  refine mem_dumpEvents.mpr ?_
  cases e with
  | thrown t => exact absurd heq.symm (Option.some_ne_none _)
  | round tick event => exact absurd heq.symm (Option.some_ne_none _)
  | dump event =>
      cases event with
      | reportRawHeap report' =>
          rw [← Option.some.inj heq]
          exact he
      | _ => exact absurd heq.symm (Option.some_ne_none _)

/-- A step of the watcher inside the system. -/
theorem step_watcher {s s' : System Dir} {a : Watcher.Input Dir} {es : List SystemEvent}
    (hs : step plat s (.watcher a) = some (s', es)) :
    ∃ events, Watcher.step plat s.world a = some (s'.world, events)
      ∧ s'.enableStatus = s.enableStatus ∧ es = systemEvents s.enableStatus s'.world events := by
  simp only [step] at hs
  split at hs
  · exact absurd hs.symm (Option.some_ne_none _)
  · rename_i world events hstep
    obtain ⟨rfl, rfl⟩ := Prod.mk.inj (Option.some.inj hs)
    exact ⟨events, hstep, rfl, rfl⟩

/-- **Every step** of the system. -/
theorem decided_step {s s' : System Dir} {a : Input Dir} {tr es : List SystemEvent}
    (h : Decided s tr) (hs : step plat s a = some (s', es)) : Decided s' (tr ++ es) := by
  cases a with
  | earlyInit device bundleName out =>
      have heq := Option.some.inj hs
      by_cases hdebug : Debuggable device
      · by_cases hnamed : device.leakCheck = .set ("enable." ++ bundleName)
        · rw [earlyInit_of_named hdebug hnamed] at heq
          obtain ⟨rfl, rfl⟩ := Prod.mk.inj heq
          exact h.decide hdebug (iff_of_true rfl hnamed)
        · rw [earlyInit_of_other hdebug hnamed] at heq
          obtain ⟨rfl, rfl⟩ := Prod.mk.inj heq
          exact h.decide hdebug (iff_of_false Bool.false_ne_true hnamed)
      · rw [earlyInit_of_not_debuggable hdebug] at heq
        obtain ⟨rfl, rfl⟩ := Prod.mk.inj heq
        rw [List.append_nil]
        exact h
  | watcher a =>
      obtain ⟨events, hstep, hstatus, rfl⟩ := step_watcher hs
      have hreport := h.report (events.filterMap reportOf)
        (fun report hr => consistent_step hstep report (mem_filterMap_reportOf hr))
      refine ⟨?_, hreport.gated⟩
      rw [hstatus]
      exact hreport.status

/-- **Which reports leave the process.** Along every run an early initialization decides only
    where the application may be debugged. The report of a dump becomes a system event exactly
    when the last early initialization that decided was for the bundle that the parameter
    names; no call, switch or event of the module changes that. The event then says what the
    report says, which is `intersection`, its length, and in each of the three paths the two
    names of the dump, the second one empty where the dump status is off. -/
theorem events_gated {load : DumpState Dir} {s : System Dir} {tr : List SystemEvent}
    (hr : Run (system plat load) anyStep s tr) :
    AtEach Gated tr ∧ (s.enableStatus = true ↔ Since allows forbids tr) := by
  have h : Decided s tr := by
    refine Run.invariant (I := Decided) ?_ (fun s tr a s' es h _ hs => decided_step h hs) hr
    exact ⟨iff_of_false Bool.false_ne_true (not_since_nil _ _), atEach_nil _⟩
  exact ⟨h.gated, h.status⟩

/-- A device on which the watcher is enabled for the bundle `app`. -/
def deviceOfApp : Device := { debuggable := true, leakCheck := .set "enable.app" }

/-- An early initialization, and a round in which one object has leaked. -/
def oneLeak : List (Input String) :=
  [.earlyInit deviceOfApp "app" plainSurroundings,
    .watcher (.watch (some (WatchMap.page 7)) (some "first")), .watcher (.advance 90000),
    .watcher (.deliver plainSurroundings 0),
    .watcher (.settle 0 (.resolve (some [{ processName := "app", state := 1 }]))),
    .watcher (.advance 5000), .watcher (.deliver dumpsOff 1)]

/-- The event is written, and its number of leaks is `n`. -/
def writes (n : BitVec 32) : SystemEvent → Bool
  | .reported _ _ _ (some event) => event.leakObjectCount = n
  | _ => false

/-- The event of the round is written, with the decision of the early initialization. -/
theorem events_gated_oneLeak :
    ∃ (s : System String) (before after : List SystemEvent) (leaks : List ObjMsg)
      (dumpStatus : Bool) (report : ReportRawHeap) (event : LeakEvent),
      Run (system plainPlatform DumpIdentity.noFiles) anyStep s
          (before ++ .reported leaks dumpStatus report (some event) :: after)
        ∧ Since allows forbids before ∧ event.leakObjectCount = 1#32
        ∧ event.leakList = leakListText leaks := by
  obtain ⟨p, hp⟩ : ∃ p, exec (system plainPlatform DumpIdentity.noFiles) anyStep oneLeak
      = some p := ⟨_, rfl⟩
  have hwrites : p.2.any (writes 1#32) = true := by
    obtain rfl := Option.some.inj hp
    decide +kernel
  obtain ⟨e, hmem, he⟩ := List.any_eq_true.mp hwrites
  obtain ⟨before, after, hsplit⟩ := List.append_of_mem hmem
  have hrun := run_of_exec hp
  obtain ⟨hgated, -⟩ := events_gated hrun
  cases e with
  | decided device bundleName status => exact absurd he Bool.false_ne_true
  | reported leaks dumpStatus report written =>
      cases written with
      | none => exact absurd he Bool.false_ne_true
      | some event =>
          obtain ⟨⟨fileList, -, hreports, -⟩, hwritten, hwhole⟩ := hgated before _ after hsplit
          exact ⟨p.1, before, after, leaks, dumpStatus, report, event, hsplit ▸ hrun,
            hwritten.mp rfl, of_decide_eq_true he, (hwhole event rfl).leakList.trans hreports.1⟩

-- ── What an early initialization starts ───────────────────────────────────────────

/-- Every kind of object is monitored and no threshold, exclusion or id stands in the way:
    `v` is the world before, and `w` is the one in which the watcher has started. -/
structure MonitorsAll (out : Surroundings) (v w : World Dir) : Prop where
  enabled : w.enabled = .bool true
  running : w.handler.isRunning = true
  tasks : w.handler.gcFuncRef.isSome = true ∧ w.handler.dumpFuncRef.isSome = true
  gcEvent : ⟨.gcEvent, v.now, 90000⟩ ∈ w.queue
  mode : w.settings.isConfigObj = true
  delays : w.settings.gcDelayTime = 90000#32 ∧ w.settings.dumpDelayTime = 5000#32
  kept : w.settings.maxFileNum = .ofNat 20
  thresholds : ∀ n applicationState,
    LeakRound.belowThreshold w.settings.leakWatcherConfig n applicationState = false
  exclusions : ∀ toLowerCase name, excludes toLowerCase w.settings.leakWatcherConfig name = false
  ids : w.settings.leakWatcherConfig.objectUniqueIDs = []
  component : w.registrations.component = true
  window : w.registrations.window = true
  ability : v.nextAbilityId ∈ w.registrations.abilities
  native : match out.uiContext with
    | some uiContext => uiContext ∈ w.registrations.native
    | none => w.retryMonitorObjectTypes = some (nodeContainer ||| xComponent)

omit [DecidableEq Dir] in
/-- The start, from settings whose fallbacks are those of module load. -/
theorem monitorsAll_launch {v : World Dir} (hctx : plat.hasContext = true)
    (hfallbacks : Fallbacks v.settings.leakWatcherConfig) (out : Surroundings)
    (callback : JsVal) : MonitorsAll out v
      (launch plat out earlyConfigs callback (configured out (.bool true) earlyConfigs v)) := by
  let armed := arm out earlyConfigs callback (configured out (.bool true) earlyConfigs v)
  have happlied : Applied { monitorObjectTypes := some (.fin (-1)) } v.settings armed.settings :=
    setLeakWatcherConfig_spec _ out.bundleInfo v.settings
  have hall : typeMask armed.settings.leakWatcherConfig.monitorObjectTypes = 0xffffffff#32 := by
    rw [happlied.types]
    decide +kernel
  have heffect := executeRegister_spec plat hctx out
    (typeMask armed.settings.leakWatcherConfig.monitorObjectTypes) armed
  rw [hall] at heffect
  have hlaunch : launch plat out earlyConfigs callback (configured out (.bool true) earlyConfigs v)
      = executeRegister plat out 0xffffffff#32 armed := by
    rw [launch, hall]
  have hsettings : (executeRegister plat out 0xffffffff#32 armed).settings = armed.settings := by
    obtain ⟨_, _, _, _, _, hframe⟩ := executeRegister_frame plat out 0xffffffff#32 armed
    rw [hframe]
  have hschedule :=
    launch_schedule plat out earlyConfigs callback (configured out (.bool true) earlyConfigs v)
  have hqueue : (launch plat out earlyConfigs callback
      (configured out (.bool true) earlyConfigs v)).queue = _ :=
    EventLedger.launch_queue out (.bool true) earlyConfigs callback v
  have hhandler : EventLedger.SameHandler armed (executeRegister plat out 0xffffffff#32 armed) :=
    EventLedger.executeRegister_handler plat out _ armed
  rw [hlaunch] at hschedule hqueue ⊢
  have hrefuses : acceptsDelays { monitorObjectTypes := some (.fin (-1)) } = false := rfl
  have hdelays := delays_of_not_accepts hfallbacks hrefuses
  constructor
  · exact hschedule.enabled
  · exact hhandler.running
  · exact ⟨congrArg Option.isSome hhandler.gcTask, congrArg Option.isSome hhandler.dumpTask⟩
  · have hgc : (configured out (.bool true) earlyConfigs v).settings.gcDelayTime = 90000#32 :=
      happlied.gcDelay.trans hdelays.1
    rw [hqueue, hgc]
    exact List.mem_append_right _ (List.mem_singleton_self _)
  · rw [hsettings]
    exact happlied.mode
  · rw [hsettings]
    exact ⟨happlied.gcDelay.trans hdelays.1, happlied.dumpDelay.trans hdelays.2⟩
  · rw [hsettings, happlied.saveAmount]
    show v.settings.leakWatcherConfig.maxStoredHeapDumps.double = _
    rw [hfallbacks.stored]
    decide +kernel
  · intro n applicationState
    rw [hsettings, LeakRound.belowThreshold, happlied.foreground, happlied.background]
    rfl
  · intro toLowerCase name
    rw [hsettings, excludes, happlied.exclusions]
    rfl
  · rw [hsettings, happlied.ids]
    rfl
  · rw [heffect.component]
    exact Bool.or_true _
  · rw [heffect.window]
    exact Bool.or_true _
  · rw [heffect.abilities]
    exact List.mem_cons_self
  · split
    · rename_i uiContext hui
      rw [heffect.native, hui]
      exact List.mem_cons_self
    · rename_i hui
      rw [heffect.retry, hui]
      rfl

/-- The fallbacks of the configuration are those of module load along every run. -/
theorem remains_of_run {load : DumpState Dir} {s : System Dir} {tr : List SystemEvent}
    (hr : Run (system plat load) anyStep s tr) : Restart.Remains s.world := by
  refine Run.state_invariant (I := fun s : System Dir => Restart.Remains s.world) ?_ ?_ hr
  · have hstart : Run (watcher plat load) anyStep _ _ := Run.start
    exact Restart.remains_of_run hstart
  · intro s a s' es h _ hs
    cases a with
    | earlyInit device bundleName out =>
        have heq := Option.some.inj hs
        by_cases hdebug : Debuggable device
        · by_cases hnamed : device.leakCheck = .set ("enable." ++ bundleName)
          · rw [earlyInit_of_named hdebug hnamed] at heq
            obtain ⟨rfl, -⟩ := Prod.mk.inj heq
            exact Restart.enableLeakWatcher_remains out _ _ _ h
          · rw [earlyInit_of_other hdebug hnamed] at heq
            obtain ⟨rfl, -⟩ := Prod.mk.inj heq
            exact h
        · rw [earlyInit_of_not_debuggable hdebug] at heq
          obtain ⟨rfl, -⟩ := Prod.mk.inj heq
          exact h
    | watcher a =>
        obtain ⟨events, hstep, -⟩ := step_watcher hs
        exact Restart.step_remains h hstep

omit [DecidableEq Dir] in
/-- The watcher accepts the call unless it was enabled with `true` before. -/
theorem accepts_early_iff (w : World Dir) :
    accepts (.bool true) earlyConfigs internalCallback w = true ↔ w.enabled ≠ .bool true := by
  rw [accepts]
  cases henabled : w.enabled with
  | bool b =>
      cases b with
      | false => exact iff_of_true rfl (fun h => Bool.false_ne_true (JsVal.bool.inj h))
      | true => exact iff_of_false Bool.false_ne_true (fun h => h rfl)
  | _ => exact iff_of_true rfl (fun h => JsVal.noConfusion h)

omit [DecidableEq Dir] in
/-- Without a context or a directory the call writes the flag and the configuration. -/
theorem enableLeakWatcher_of_not_launches {out : Surroundings} {w : World Dir}
    (hoff : w.enabled ≠ .bool true) (h : launches plat out = false) :
    (enableLeakWatcher plat out (.bool true) earlyConfigs internalCallback w).1
      = configured out (.bool true) earlyConfigs w := by
  rw [enableLeakWatcher_of_accepts plat ((accepts_early_iff w).mpr hoff)]
  show (start plat out earlyConfigs internalCallback
    (configured out (.bool true) earlyConfigs w)).1 = _
  rcases start_of_not_launches plat h earlyConfigs internalCallback
    (configured out (.bool true) earlyConfigs w) with heq | heq
  · rw [heq]
  · rw [heq]

/-- **What an early initialization does**, in every reachable state. Where the application may
    not be debugged it does nothing, and an earlier decision stands. A parameter that does not
    name the bundle withdraws the decision and leaves the watcher running if it runs. The
    parameter that does starts the watcher with every kind of object and without thresholds,
    unless it was enabled with `true` before. Without an application context or a directory to
    dump to it only writes the flag and the configuration: nothing is started, sent or
    registered, and the next initialization finds the watcher enabled. -/
theorem earlyInit_starts {load : DumpState Dir} {s : System Dir} {tr : List SystemEvent}
    (hr : Run (system plat load) anyStep s tr) (device : Device) (bundleName : String)
    (out : Surroundings) :
    let s' := (jsLeakWatcherEarlyInit plat device bundleName out s).1
    (¬ Debuggable device → s' = s)
      ∧ (Debuggable device → device.leakCheck ≠ .set ("enable." ++ bundleName) →
          s' = { s with enableStatus := false })
      ∧ (Debuggable device → device.leakCheck = .set ("enable." ++ bundleName) →
          s'.enableStatus = true
            ∧ (s.world.enabled = .bool true → s'.world = s.world)
            ∧ (s.world.enabled ≠ .bool true → launches plat out = true →
                MonitorsAll out s.world s'.world)
            ∧ (s.world.enabled ≠ .bool true → launches plat out = false →
                s'.world = { s.world with enabled := .bool true, settings := s'.world.settings }
                  ∧ Applied { monitorObjectTypes := some (.fin (-1)) } s.world.settings
                      s'.world.settings)) := by
  intro s'
  have hs' : s' = (jsLeakWatcherEarlyInit plat device bundleName out s).1 := rfl
  refine ⟨fun hnot => ?_, fun hdebug hother => ?_, fun hdebug hnamed => ?_⟩
  · rw [hs', earlyInit_of_not_debuggable hnot]
  · rw [hs', earlyInit_of_other hdebug hother]
  · rw [earlyInit_of_named hdebug hnamed] at hs'
    have hworld : s'.world = (enableLeakWatcher plat out (.bool true) earlyConfigs internalCallback
        s.world).1 := congrArg System.world hs'
    refine ⟨congrArg System.enableStatus hs', fun hon => ?_, fun hoff hlaunches => ?_,
      fun hoff hlaunches => ?_⟩
    · have hrefused : accepts (.bool true) earlyConfigs internalCallback s.world = false :=
        Bool.eq_false_iff.mpr (fun haccepts => (accepts_early_iff s.world).mp haccepts hon)
      obtain ⟨t, ht⟩ := enableLeakWatcher_of_refused plat out hrefused
      rw [hworld, ht]
    · have hstarts : starts plat out (.bool true) earlyConfigs internalCallback s.world = true := by
        rw [starts, (accepts_early_iff s.world).mpr hoff, hlaunches]
        rfl
      have hctx : plat.hasContext = true := (Bool.and_eq_true_iff.mp hlaunches).1
      rw [hworld, enableLeakWatcher_of_starts plat hstarts]
      exact monitorsAll_launch hctx (remains_of_run hr).fallbacks out internalCallback
    · rw [hworld, enableLeakWatcher_of_not_launches hoff hlaunches]
      exact ⟨rfl, setLeakWatcherConfig_spec _ out.bundleInfo s.world.settings⟩

/-- The watcher starts for the bundle, and a second initialization for another one leaves it
    running. -/
theorem earlyInit_starts_app :
    ∃ s : System String, MonitorsAll plainSurroundings { dump := DumpIdentity.noFiles } s.world
      ∧ (jsLeakWatcherEarlyInit plainPlatform deviceOfApp "other" plainSurroundings s).1
        = { s with enableStatus := false } := by
  have hnamed : deviceOfApp.leakCheck = .set ("enable." ++ "app") := rfl
  have hother : deviceOfApp.leakCheck ≠ .set ("enable." ++ "other") := by
    intro h
    exact absurd (SystemParameter.set.inj h) (by decide)
  have hload : Run (system plainPlatform DumpIdentity.noFiles) anyStep _ _ := Run.start
  obtain ⟨-, -, hstart⟩ := earlyInit_starts hload deviceOfApp "app" plainSurroundings
  obtain ⟨-, -, hall, -⟩ := hstart (Or.inl rfl) hnamed
  have hoff : JsVal.bool false ≠ .bool true := fun h => Bool.false_ne_true (JsVal.bool.inj h)
  let started := jsLeakWatcherEarlyInit plainPlatform deviceOfApp "app" plainSurroundings
    (system plainPlatform DumpIdentity.noFiles).init
  have hstep : (system plainPlatform DumpIdentity.noFiles).step
      (system plainPlatform DumpIdentity.noFiles).init
      (.earlyInit deviceOfApp "app" plainSurroundings) = some started := rfl
  obtain ⟨-, hsecond, -⟩ :=
    earlyInit_starts (Run.next (G := anyStep) Run.start trivial hstep) deviceOfApp "other"
      plainSurroundings
  exact ⟨started.1, hall hoff rfl, hsecond (Or.inl rfl) hother⟩

end EarlyInit
