import HiChecker.SetEqualityProofs

/-!
# What a leak report says

`setReportData` fills the event that `reportRawHeap` gets. Its leaks are `intersection`, its
paths the names that the dump delivers.

* **`Describes`** — a report carries these leaks and these names.
* **`consistent_step`** — every report of a step carries what `intersection` lists after it.
* **`reports_exact`** — and that is what the watch map held both at the dump tick that took
  `intersection` and at the GC tick before.
-/

namespace LeakReport

open Transition Trace JsValue OrderedMapLib MapHistory WatcherConfig DumpFile TimerQueue Watcher
open WatchMap LeakAgreement LeakLists SetEquality
open LeakListText (leakListText)
open LeakRound (Hash ObjMsg getLeakList hashes survivors survivors_eq startDumptask)

variable {Dir : Type} [DecidableEq Dir] {plat : Platform Dir}

-- ── What a report says ────────────────────────────────────────────────────────────

/-- `JSON.stringify(fileList)`. -/
def pathsText (fileList : List String) : String := Json.array (fileList.map Json.quote)

/-- The two names that a dump delivers: the second one is empty where the heap is not dumped. -/
def FileList (dumpStatus : Bool) (fileList : List String) : Prop :=
  ∃ path, fileList = [path ++ ".jsleaklist", if dumpStatus then path ++ ".rawheap" else ""]

/-- A report describes one dump: it carries the leaks and their number, and the names of the
    dump in each of its three paths. -/
def Describes (leaks : List ObjMsg) (dumpStatus : Bool) (fileList : List String)
    (report : ReportRawHeap) : Prop :=
  FileList dumpStatus fileList ∧ Reports leaks report
    ∧ report.dynamicRawheapPath = pathsText fileList
    ∧ report.staticRawheapPath = pathsText fileList ∧ report.leakListPath = pathsText fileList

/-- The reports among these events describe dumps with these leaks. -/
def Consistent (leaks : List ObjMsg) (dumpStatus : Bool) (es : List DumpEvent) : Prop :=
  ∀ report, .reportRawHeap report ∈ es →
    ∃ fileList, Describes leaks dumpStatus fileList report

/-- Events without a report are consistent with any leaks. -/
theorem consistent_of_none (leaks : List ObjMsg) (dumpStatus : Bool) {es : List DumpEvent}
    (h : ∀ report, .reportRawHeap report ∉ es) : Consistent leaks dumpStatus es :=
  fun report hreport => absurd hreport (h report)

-- ── The calls, case by case ───────────────────────────────────────────────────────

section Dumps

variable {host : Host Dir}

/-- The end of a dump reports `intersection` as it stands. -/
theorem consistent_deliver (out : Outside) (session : Session) (filePath : String)
    (jsCallback : Bool) (d : DumpState Dir) :
    let result := DumpFile.deliver host out session filePath true jsCallback d
    Consistent session.intersection result.1.dumpStatus result.2 := by
  intro result report h
  obtain ⟨d', rfl, hnames⟩ := reports_deliver host h
  obtain ⟨-, -, hstatus, -, -⟩ := deliver_keeps host out session filePath true jsCallback d
  have hsame : result.1.dumpStatus = d.dumpStatus := hstatus
  rw [hsame]
  exact ⟨d'.leakListPath, ⟨_, hnames rfl⟩, ⟨rfl, rfl⟩, rfl, rfl, rfl⟩

/-- Writing the lists first changes nothing of what is reported. -/
theorem consistent_getJsleaklistFile (out : Outside) (session : Session) (filePath : String)
    (jsCallback : Bool) (d : DumpState Dir) :
    let result := getJsleaklistFile host out session filePath true true jsCallback d
    Consistent session.intersection result.1.dumpStatus result.2 := by
  intro result
  show Consistent session.intersection
    (getJsleaklistFile host out session filePath true true jsCallback d).1.dumpStatus
    (getJsleaklistFile host out session filePath true true jsCallback d).2
  rw [getJsleaklistFile_writes]
  cases hwritten : writtenText host out session.watchObjMap filePath d with
  | none =>
      exact consistent_of_none _ _ (fun report h =>
        DumpEvent.noConfusion (List.mem_singleton.mp h))
  | some text => exact consistent_deliver out session filePath jsCallback _

/-- A dump that is described at once reports `intersection`, one left to its thread nothing. -/
theorem consistent_dumpInner (out : Outside) (session : Session) (filePath : String)
    (jsCallback : Bool) (d : DumpState Dir) :
    let result := dumpInner host out session filePath true true jsCallback d
    Consistent session.intersection result.1.dumpStatus result.2 := by
  intro result report h
  obtain ⟨-, hsame⟩ := dumpInner_of_report h
  have hresult : result = getJsleaklistFile host out session filePath true true jsCallback
      { d with dumpStatus := out.status } := hsame
  rw [hresult] at h ⊢
  exact consistent_getJsleaklistFile out session filePath jsCallback _ report h

end Dumps

-- ── Every step of the watcher ─────────────────────────────────────────────────────

/-- The event of a dump, if it is one. -/
def dumpEventOf : Event → Option DumpEvent
  | .dump event => some event
  | _ => none

/-- The events of the dumps in a step. -/
def dumpEvents (es : List Event) : List DumpEvent := es.filterMap dumpEventOf

theorem dumpEvents_dump (events : List DumpEvent) :
    dumpEvents (events.map Event.dump) = events := by
  rw [dumpEvents, List.filterMap_map]
  exact List.filterMap_some

/-- Events of another kind are no events of a dump. -/
theorem dumpEvents_other {α : Type} {f : α → Event} (hf : ∀ x, dumpEventOf (f x) = none)
    (l : List α) : dumpEvents (l.map f) = [] := by
  rw [dumpEvents, List.filterMap_map]
  exact List.filterMap_eq_nil_iff.mpr (fun x _ => hf x)

theorem dumpEvents_append (es es' : List Event) :
    dumpEvents (es ++ es') = dumpEvents es ++ dumpEvents es' := List.filterMap_append

/-- A step has an event of a dump exactly when the dump has it. -/
theorem mem_dumpEvents {es : List Event} {event : DumpEvent} :
    event ∈ dumpEvents es ↔ .dump event ∈ es := by
  rw [dumpEvents, List.mem_filterMap]
  constructor
  · rintro ⟨e, he, heq⟩
    cases e with
    | dump event' =>
        obtain rfl := Option.some.inj heq
        exact he
    | _ => exact absurd heq.symm (Option.some_ne_none event)
  · exact fun he => ⟨_, he, rfl⟩

theorem consistent_nil (leaks : List ObjMsg) (dumpStatus : Bool) :
    Consistent leaks dumpStatus [] :=
  consistent_of_none leaks dumpStatus (fun _ => List.not_mem_nil)

/-- What a step of the watcher reports is what `intersection` lists after it, and the names are
    those of the dump status after it. -/
def Steady (w : World Dir) (es : List Event) : Prop :=
  Consistent w.appState.intersection w.dump.dumpStatus (dumpEvents es)

omit [DecidableEq Dir] in
theorem steady_nil (w : World Dir) : Steady w [] := consistent_nil _ _

/-- The call that a tick makes. -/
theorem steady_callDumpInner (out : Surroundings) (task : DumpTask) (w : World Dir) :
    Steady (callDumpInner plat out task w).1 (callDumpInner plat out task w).2 := by
  show Consistent w.session.intersection _ (dumpEvents (List.map Event.dump _))
  rw [dumpEvents_dump]
  exact consistent_dumpInner out.dump w.session task.filePath task.callback.truthy w.dump

/-- The dump closure: what the round says of itself is no event of a dump. -/
theorem steady_dumpTask (out : Surroundings) (task : DumpTask) (w : World Dir) :
    Steady (dumpTask plat out task w).1 (dumpTask plat out task w).2 := by
  simp only [dumpTask]
  split
  · split
    · rw [Steady, dumpEvents_append, dumpEvents_other (fun _ => rfl), List.nil_append]
      exact steady_callDumpInner out task _
    · rw [Steady, dumpEvents_other (fun _ => rfl)]
      exact consistent_nil _ _
  · split
    · exact steady_nil _
    · exact steady_callDumpInner out task w

/-- The delivery of an event: only a dump tick makes a call. -/
theorem steady_processEvent (out : Surroundings) (t : Timer EventId) (w : World Dir) :
    Steady (processEvent plat out t w).1 (processEvent plat out t w).2 := by
  have heffect := processEvent_effect plat out t w
  generalize processEvent plat out t w = result at heffect ⊢
  cases heffect with
  | dropped hrun => exact steady_nil _
  | noDump hrun hevent => exact steady_nil _
  | dumped task hrun hevent => exact steady_dumpTask out task w
  | noGc hrun hevent htask => exact steady_nil _
  | collected task hrun hevent htask =>
      simp only [gcTask]
      split
      · rw [Steady, dumpEvents_other (fun _ => rfl)]
        exact consistent_nil _ _
      · exact steady_nil _

/-- **Every step** of the watcher reports what `intersection` lists after it. -/
theorem consistent_step {w w' : World Dir} {a : Watcher.Input Dir} {es : List Event}
    (hs : Watcher.step plat w a = some (w', es)) : Steady w' es := by
  cases a with
  | deliver out i =>
      obtain ⟨t, queue, -, rfl, rfl⟩ := step_deliver hs
      exact steady_processEvent out t (w.withQueue queue)
  | dumpDone out k =>
      obtain ⟨task, -, rfl, rfl⟩ := step_dumpDone hs
      rw [Steady, dumpEvents_dump]
      exact consistent_getJsleaklistFile out.dump w.session task.filePath task.callback.truthy
        w.dump
  | dump out filePath =>
      cases filePath with
      | none =>
          obtain ⟨-, rfl⟩ := Prod.mk.inj (Option.some.inj hs)
          exact steady_nil _
      | some filePath =>
          obtain ⟨-, rfl⟩ := Prod.mk.inj (Option.some.inj hs)
          rw [Steady, dumpEvents_dump]
          exact consistent_of_none _ _ (dumpInnerSync_no_report plat.host out.dump w.session
            filePath false false w.dump)
  | enableLeakWatcher out isEnabled configs callback =>
      obtain ⟨-, rfl⟩ := Prod.mk.inj (Option.some.inj hs)
      rw [Steady, dumpEvents_other (fun _ => rfl)]
      exact consistent_nil _ _
  | _ =>
      have hevents := (step_quiet hs trivial).events (fun _ _ => by simp) (fun _ _ => by simp)
      exact consistent_of_none _ _ (fun report h => hevents _ (mem_dumpEvents.mp h))

-- ── The leaks are those of two ticks ──────────────────────────────────────────────

/-- The entries of the map at a tick. -/
def entriesAt (tick : Option Moment) : List ObjMsg :=
  match tick with
  | none => []
  | some moment => getLeakList moment.watchObjMap

/-- `intersection` holds the entries of the map at the dump tick that took it whose hashes
    were in the map at the GC tick before. -/
structure Taken (s : Traced Dir) : Prop where
  intersection : s.world.appState.intersection
    = (entriesAt s.dumpTick).filter (fun objMsg => decide (objMsg.hash ∈ hashesAt s.comparedTick))
  keyed : ∀ d ∈ s.dumpTick, Keyed d.watchObjMap
  earlier : ∀ d ∈ s.dumpTick, ∀ m ∈ s.comparedTick, m.Before d.history

/-- **The step lemma.** -/
theorem taken_next {s s' : Traced Dir} {a : Watcher.Input Dir} {es : List Event}
    (hrecalled : Recalled s) (h : Taken s) (hs : next plat s a = some (s', es)) : Taken s' := by
  obtain ⟨w', hstep, rfl⟩ := step_of_next hs
  have hlists := step_lists plat hstep
  have hintersection := hlists.intersection
  cases hrecords : dumpTicks s.world a with
  | true =>
      rw [hrecords, if_pos rfl, survivors_eq, hrecalled.current] at hintersection
      refine ⟨hintersection, ?_, ?_⟩
      · intro d hd
        obtain rfl := Option.some.inj hd
        exact hrecalled.keyed
      · intro d hd m hm
        obtain rfl := Option.some.inj hd
        exact hrecalled.gcTick m hm
  | false =>
      rw [hrecords, if_neg Bool.false_ne_true] at hintersection
      exact ⟨hintersection.trans h.intersection, h.keyed, h.earlier⟩

/-- Both invariants hold along every run. -/
theorem taken_of_run {load : DumpState Dir} {s : Traced Dir} {tr : List Event}
    (hr : Run (traced plat load) anyStep s tr) : Recalled s ∧ Taken s := by
  refine Run.state_invariant (I := fun s => Recalled s ∧ Taken s) ?_ ?_ hr
  · exact ⟨recalled_start load, rfl, fun d hd => absurd hd.symm (Option.some_ne_none d),
      fun d hd => absurd hd.symm (Option.some_ne_none d)⟩
  · rintro s a s' es ⟨hrecalled, h⟩ - hs
    exact ⟨recalled_next hrecalled hs, taken_next hrecalled h hs⟩

/-- The entries of a map are under their hashes. -/
theorem mem_getLeakList {watchObjMap : LeakRound.WatchMap} (h : Keyed watchObjMap)
    (objMsg : ObjMsg) :
    objMsg ∈ getLeakList watchObjMap ↔ watchObjMap.get objMsg.hash = some objMsg := by
  rw [getLeakList, values_eq, List.mem_filterMap]
  constructor
  · rintro ⟨k, -, hget⟩
    rw [h k objMsg hget]
    exact hget
  · intro hget
    refine ⟨objMsg.hash, ?_, hget⟩
    exact (OrderedMap.mem_keys_iff _ _).mpr ((OrderedMap.has_iff _ _).mpr ⟨objMsg, hget⟩)

omit [DecidableEq Dir] in
/-- What `intersection` lists, in terms of the two ticks. -/
theorem mem_intersection_iff {s : Traced Dir} (hrecalled : Recalled s) (htaken : Taken s)
    (objMsg : ObjMsg) : objMsg ∈ s.world.appState.intersection
      ↔ ∃ d ∈ s.dumpTick, ∃ m ∈ s.comparedTick, m.Before d.history ∧ d.Before s.history
          ∧ m.watchObjMap.has objMsg.hash = true
          ∧ d.watchObjMap.get objMsg.hash = some objMsg := by
  rw [htaken.intersection, List.mem_filter, decide_eq_true_iff]
  constructor
  · rintro ⟨hentry, hcaptured⟩
    cases hd : s.dumpTick with
    | none =>
        rw [hd] at hentry
        exact absurd hentry List.not_mem_nil
    | some d =>
        cases hm : s.comparedTick with
        | none =>
            rw [hm] at hcaptured
            exact absurd hcaptured List.not_mem_nil
        | some m =>
            rw [hd] at hentry
            rw [hm] at hcaptured
            exact ⟨d, rfl, m, rfl, htaken.earlier d hd m hm, hrecalled.dumpTick d hd,
              (OrderedMap.mem_keys_iff _ _).mp hcaptured,
              (mem_getLeakList (htaken.keyed d hd) objMsg).mp hentry⟩
  · rintro ⟨d, hd, m, hm, -, -, hhas, hget⟩
    rw [Option.mem_def.mp hd, Option.mem_def.mp hm]
    exact ⟨(mem_getLeakList (htaken.keyed d hd) objMsg).mpr hget,
      (OrderedMap.mem_keys_iff _ _).mpr hhas⟩

/-- **A report accuses whom it should**, in every step of every run. It lists, each object once
    and with its number, exactly the entries of the watch map at a dump tick whose objects were
    in the map at an earlier GC tick already: each of them was registered before that GC tick,
    and it is listed with the name and the message of its last registration before the dump
    tick. As long as no dump tick has taken a list, a report lists nothing. -/
theorem reports_exact {load : DumpState Dir} {s s' : Traced Dir} {tr es : List Event}
    {a : Watcher.Input Dir} {report : ReportRawHeap} (hr : Run (traced plat load) anyStep s tr)
    (hs : next plat s a = some (s', es)) (hreport : .dump (.reportRawHeap report) ∈ es) :
    ∃ leaks, Reports leaks report ∧ (hashes leaks).Nodup
      ∧ (∀ objMsg, objMsg ∈ leaks ↔ ∃ d ∈ s'.dumpTick, ∃ m ∈ s'.comparedTick,
          m.Before d.history ∧ d.Before s'.history
            ∧ m.watchObjMap.has objMsg.hash = true
            ∧ d.watchObjMap.get objMsg.hash = some objMsg)
      ∧ ∀ objMsg ∈ leaks, ∀ d ∈ s'.dumpTick, ∀ m ∈ s'.comparedTick,
          lastPut objMsg.hash d.history = some objMsg
            ∧ ∃ old, lastPut objMsg.hash m.history = some old := by
  obtain ⟨hrecalled, htaken⟩ := taken_of_run (Run.next hr trivial hs)
  obtain ⟨w', hstep, heq⟩ := step_of_next hs
  have hworld : s'.world = w' := by
    rw [heq]
  rw [← hworld] at hstep
  obtain ⟨fileList, -, hreports, -⟩ :=
    consistent_step hstep report (mem_dumpEvents.mpr hreport)
  have hnodup : (hashes s'.world.appState.intersection).Nodup := by
    rw [hrecalled.intersection]
    exact (nodup_hashesAt s'.dumpTick).filter _
  have hleaks := fun objMsg => mem_intersection_iff hrecalled htaken objMsg
  refine ⟨s'.world.appState.intersection, hreports, hnodup, hleaks, ?_⟩
  intro objMsg hobj d hd m hm
  obtain ⟨d', hd', m', hm', hbefore, hdumped, hhas, hget⟩ := (hleaks objMsg).mp hobj
  obtain rfl := Option.mem_unique hd hd'
  obtain rfl := Option.mem_unique hm hm'
  obtain ⟨old, hold⟩ := (OrderedMap.has_iff _ _).mp hhas
  rw [hbefore.map] at hold
  rw [hdumped.map] at hget
  exact ⟨get_replay hget, old, get_replay hold⟩

/-- A report with this number of leaks. -/
def reportsCount (n : Nat) : Event → Bool
  | .dump (.reportRawHeap report) => report.leakObjectCount = n
  | _ => false

/-- One object is watched before the GC tick and another one after it: the report lists the
    first one. -/
theorem reports_exact_captured :
    ∃ (s s' : Traced String) (tr es : List Event) (report : ReportRawHeap)
      (leaks : List ObjMsg), Run (traced plainPlatform DumpIdentity.noFiles) anyStep s tr
        ∧ next plainPlatform s (.deliver dumpsOff 1) = some (s', es)
        ∧ .dump (.reportRawHeap report) ∈ es
        ∧ Reports leaks report ∧ leaks.length = 1 ∧ (∃ d ∈ s'.dumpTick, d.watchObjMap.size = 2)
        ∧ ∀ objMsg ∈ leaks, objMsg.hash ∈ hashesAt s'.comparedTick := by
  obtain ⟨p, hp⟩ : ∃ p, exec (traced plainPlatform DumpIdentity.noFiles) anyStep
      (untilDump [.watch (some (page 8)) (some "second")]) = some p := ⟨_, rfl⟩
  obtain ⟨q, hq, hany, hdump⟩ : ∃ q, next plainPlatform p.1 (.deliver dumpsOff 1) = some q
      ∧ q.2.any (reportsCount 1) = true ∧ ∃ d ∈ q.1.dumpTick, d.watchObjMap.size = 2 := by
    obtain rfl := Option.some.inj hp
    refine ⟨_, rfl, ?_, ⟨_, rfl, rfl⟩⟩
    decide +kernel
  obtain ⟨e, hmem, he⟩ := List.any_eq_true.mp hany
  cases e with
  | thrown t => exact absurd he Bool.false_ne_true
  | round tick event => exact absurd he Bool.false_ne_true
  | dump event =>
      cases event with
      | reportRawHeap report =>
          have hr := run_of_exec hp
          obtain ⟨leaks, hreports, -, hexact, -⟩ := reports_exact hr hq hmem
          refine ⟨p.1, q.1, p.2, q.2, report, leaks, hr, hq, hmem, hreports,
            hreports.2.symm.trans (of_decide_eq_true he), hdump, ?_⟩
          intro objMsg hobj
          obtain ⟨-, -, m, hm, -, -, hhas, -⟩ := (hexact objMsg).mp hobj
          rw [Option.mem_def.mp hm]
          exact (OrderedMap.mem_keys_iff _ _).mpr hhas
      | _ => exact absurd he Bool.false_ne_true

end LeakReport
