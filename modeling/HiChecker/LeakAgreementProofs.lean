import HiChecker.EventLedgerProofs
import HiChecker.LeakListTextProofs
import HiChecker.LeakListsProofs
import HiChecker.WatchMapProofs
import Mathlib.Data.Finset.Card

/-!
# The leaks in the file and in the event

`getJsleaklistFile` writes the objects that are **in the map** into the `.jsleaklist` file,
and `setReportData` reports `appState.intersection`, which the last dump tick computed from
the map and from what the GC tick captured. With the dump status on, the file is written in
the callback of the heap dump, any time later.

* **`Described`** — a reported dump: the text, the file, the event, and what the map and the
  round were when the step began; **`reported_iff`** connects `dumpsOf` with the events of a
  step.
* **`names_agree_iff`** — the two texts of a dump list the same hashes exactly when the map held
  what the round compared.
* **`Undisturbed`** — from the GC tick to the dump tick nothing new is registered; while a
  callback is outstanding nothing leaves the map either; and a file is not longer than its text.
* **`leaks_agree`** — in every such run the file and the event of a dump list the same hashes.
-/

namespace LeakAgreement

open Transition JsValue OrderedMapLib WatcherConfig DumpFile FileStore TimerQueue Watcher
open WatchMap LeakListText LeakLists
open EventLedger (ArmedWhileRunning armed_step)
open LeakRound (Hash ObjMsg WatchMap AppState getLeakList hashes hashEqual survivors
  startDumptask)

-- ── What a dump writes and reports ────────────────────────────────────────────────

section Texts

variable {Dir : Type} [DecidableEq Dir] (host : Host Dir)

/-- The reports among the events of a dump. -/
def reportsOf (es : List DumpEvent) : List ReportRawHeap :=
  es.filterMap (fun e => match e with
    | .reportRawHeap report => some report
    | _ => none)

/-- A report describes `intersection`. -/
def Reports (intersection : List ObjMsg) (report : ReportRawHeap) : Prop :=
  report.leakList = leakListText intersection
    ∧ report.leakObjectCount = intersection.length

theorem mem_reportsOf {es : List DumpEvent} {report : ReportRawHeap} :
    report ∈ reportsOf es ↔ .reportRawHeap report ∈ es := by
  simp only [reportsOf, List.mem_filterMap]
  constructor
  · rintro ⟨e, he, heq⟩
    cases e with
    | reportRawHeap r =>
        obtain rfl := Option.some.inj heq
        exact he
    | _ => exact absurd heq.symm (Option.some_ne_none report)
  · exact fun he => ⟨_, he, rfl⟩

/-- The eviction reports nothing. -/
theorem deleteOldFile_events (out : Outside) (filePath : String) (maxFileNum : JsNum)
    (files : Files Dir) (report : ReportRawHeap) :
    .reportRawHeap report ∉ (deleteOldFile host out filePath maxFileNum files).2.2 := by
  show .reportRawHeap report ∉ (if _ then (_, _, _) else (files, true, []) :
    Files Dir × Bool × List DumpEvent).2.2
  split
  · intro h
    exact DumpEvent.noConfusion (List.mem_singleton.mp h)
  · exact List.not_mem_nil

/-- What `deliver` reports is `intersection`. -/
theorem reports_deliver {out : Outside} {session : Session} {filePath : String}
    {needSandBox jsCallback : Bool} {d : DumpState Dir} {report : ReportRawHeap}
    (h : .reportRawHeap report
      ∈ (DumpFile.deliver host out session filePath needSandBox jsCallback d).2) :
    ∃ d', report = (setReportData host out session d').report
      ∧ (needSandBox = true → d'.leakListPath
        = [filePath ++ "/" ++ getHeapBaseName host d ++ ".jsleaklist",
          if d.dumpStatus then filePath ++ "/" ++ getHeapBaseName host d ++ ".rawheap"
          else ""]) := by
  have hold := deleteOldFile_events host out filePath session.settings.maxFileNum d.files report
  have hcalled : ∀ (called : Bool) (fileList : List String),
      .reportRawHeap report ∉ (if called then [DumpEvent.jsCallback fileList] else []) := by
    intro called fileList
    cases called with
    | false => exact List.not_mem_nil
    | true => exact fun hmem => DumpEvent.noConfusion (List.mem_singleton.mp hmem)
  rcases deliver_cases host out session filePath needSandBox jsCallback d
    with heq | ⟨fileList, hnames, ⟨-, -, heq⟩ | ⟨-, heq⟩⟩
  · rw [heq] at h
    rcases List.mem_append.mp h with h | h
    · exact absurd h hold
    · exact DumpEvent.noConfusion (List.mem_singleton.mp h)
  · rw [heq] at h
    rcases List.mem_append.mp h with h | h
    · rcases List.mem_append.mp h with h | h
      · exact absurd h hold
      · exact absurd h (hcalled true fileList)
    · exact DumpEvent.noConfusion (List.mem_singleton.mp h)
  · rw [heq] at h
    rcases List.mem_append.mp h with h | h
    · rcases List.mem_append.mp h with h | h
      · exact absurd h hold
      · exact absurd h (hcalled jsCallback fileList)
    · exact ⟨_, DumpEvent.reportRawHeap.inj (List.mem_singleton.mp h), hnames⟩

/-- A call that reports has written a text before. -/
theorem reports_getJsleaklistFile {out : Outside} {session : Session} {filePath : String}
    {needSandBox jsCallback : Bool} {d : DumpState Dir} {report : ReportRawHeap}
    (h : .reportRawHeap report
      ∈ (getJsleaklistFile host out session filePath needSandBox true jsCallback d).2) :
    Reports session.intersection report
      ∧ ∃ text, writtenText host out session.watchObjMap filePath d = some text := by
  rw [getJsleaklistFile_writes] at h
  cases hwritten : writtenText host out session.watchObjMap filePath d with
  | none =>
      simp only [hwritten] at h
      exact absurd (List.mem_singleton.mp h) DumpEvent.noConfusion
  | some text =>
      simp only [hwritten] at h
      obtain ⟨d', rfl, -⟩ := reports_deliver host h
      exact ⟨⟨rfl, rfl⟩, text, rfl⟩

/-- **The file of a dump** is its text over what the file held when it was opened; only
    retention takes it away. -/
theorem file_getJsleaklistFile {out : Outside} {session : Session} {filePath text : String}
    (needSandBox jsCallback : Bool) {d : DumpState Dir}
    (hwritten : writtenText host out session.watchObjMap filePath d = some text) :
    let opened := prepared host out filePath d
    let path := jsleaklistPath host filePath opened
    let result := getJsleaklistFile host out session filePath needSandBox true jsCallback d
    let left := ((opened.files.get path).getD []).drop (utf8 text).length
    (∀ bytes, result.1.files.get path = some bytes → bytes = utf8 text ++ left)
      ∧ (.retention ∉ result.2 → result.1.files.get path = some (utf8 text ++ left)) := by
  intro opened path result left
  have hfile : (writeSync path (utf8 text) (openCreate path opened.files)).get path
      = some (utf8 text ++ left) := writeSync_openCreate path (utf8 text) opened.files
  have hresult : result = DumpFile.deliver host out session filePath needSandBox jsCallback
      { opened with files := writeSync path (utf8 text) (openCreate path opened.files) } := by
    show getJsleaklistFile host out session filePath needSandBox true jsCallback d = _
    rw [getJsleaklistFile_writes, hwritten]
  rw [hresult]
  refine ⟨fun bytes hbytes => ?_, fun hret => ?_⟩
  · rcases deliver_within host out session filePath needSandBox jsCallback _ path
      with hnone | hsame
    · exact absurd (hnone.symm.trans hbytes).symm (Option.some_ne_none bytes)
    · exact Option.some.inj (hbytes.symm.trans (hsame.trans hfile))
  · obtain ⟨hfiles, -, -, -, hevents⟩ :=
      deliver_keeps host out session filePath needSandBox jsCallback
        { opened with files := writeSync path (utf8 text) (openCreate path opened.files) }
    rw [hfiles, deleteOldFile_of_no_retention host (fun hmem => hret (hevents _ hmem))]
    exact hfile

variable {host} in
/-- `dumpInner` reports by way of `getJsleaklistFile` alone, with dumps off. -/
theorem dumpInner_of_report {out : Outside} {session : Session} {filePath : String}
    {jsCallback : Bool} {d : DumpState Dir} {report : ReportRawHeap}
    (h : .reportRawHeap report ∈ (dumpInner host out session filePath true true jsCallback d).2) :
    out.status = false
      ∧ dumpInner host out session filePath true true jsCallback d
        = getJsleaklistFile host out session filePath true true jsCallback
          { d with dumpStatus := out.status } := by
  cases hen : session.enabled with
  | false =>
      rw [DumpIdentity.dumpInner_disabled host hen] at h
      exact absurd h List.not_mem_nil
  | true =>
      rcases DumpIdentity.dumpInner_cases host hen out filePath jsCallback d
        with hfailed | hsame | ⟨desFilePath, hstarted⟩
      · rw [hfailed] at h
        exact absurd (List.mem_singleton.mp h) DumpEvent.noConfusion
      · exact hsame
      · rw [hstarted] at h
        exact absurd (List.mem_singleton.mp h) DumpEvent.noConfusion

/-- The exported `dump` does not report. -/
theorem dumpInnerSync_no_report (out : Outside) (session : Session) (filePath : String)
    (needSandBox isRawHeap : Bool) (d : DumpState Dir) (report : ReportRawHeap) :
    .reportRawHeap report
      ∉ (dumpInnerSync host out session filePath needSandBox isRawHeap d).2 := by
  have hdescribe : ∀ d : DumpState Dir, .reportRawHeap report
      ∉ (describeSync host out session filePath needSandBox isRawHeap d).2 := by
    intro d h
    simp only [describeSync] at h
    split at h
    · simp at h
    · split at h
      · rcases List.mem_append.mp h with h | h
        · exact deleteOldFile_events host out filePath _ _ report h
        · simp at h
      · split at h
        · rcases List.mem_append.mp h with h | h
          · exact deleteOldFile_events host out filePath _ _ report h
          · simp at h
        · rcases List.mem_append.mp h with h | h
          · exact deleteOldFile_events host out filePath _ _ report h
          · simp at h
  intro h
  simp only [dumpInnerSync] at h
  split at h
  · simp at h
  · split at h
    · simp at h
    · split at h
      · simp at h
      · exact hdescribe _ h

/-- The text lists the map. -/
theorem text_of_written {out : Outside} {watchObjMap : WatchMap} {filePath text : String}
    {d : DumpState Dir} (h : writtenText host out watchObjMap filePath d = some text) :
    ∃ hash, text = resultText true hash (getLeakList watchObjMap) := by
  obtain ⟨hash, -, rfl⟩ := Option.map_eq_some_iff.mp h
  exact ⟨hash, rfl⟩

end Texts

-- ── Watched objects and their hashes ──────────────────────────────────────────────

/-- Each object is under its hash. -/
def Keyed (watchObjMap : WatchMap) : Prop := MapHistory.KeyedBy ObjMsg.hash watchObjMap

/-- A keyed map lists the hashes that it has. -/
theorem mem_hashes_of_keyed {watchObjMap : WatchMap} (h : Keyed watchObjMap) (k : Hash) :
    k ∈ hashes (getLeakList watchObjMap) ↔ watchObjMap.has k = true :=
  h.mem_map_values k

theorem nodup_of_keyed {watchObjMap : WatchMap} (h : Keyed watchObjMap) :
    (hashes (getLeakList watchObjMap)).Nodup := by
  have hkeys : hashes (getLeakList watchObjMap) = watchObjMap.keys := h.map_values
  rw [hkeys]
  exact watchObjMap.nodup

/-- The survivors are watched objects, each once. -/
theorem nodup_survivors {watchObjMap : WatchMap} (h : Keyed watchObjMap)
    (appState : AppState) : (hashes (survivors watchObjMap appState)).Nodup :=
  (List.filter_sublist.map ObjMsg.hash).nodup (nodup_of_keyed h)

/-- A survivor is in the map and in the capture. -/
theorem mem_hashes_survivors {watchObjMap : WatchMap} (h : Keyed watchObjMap)
    (appState : AppState) (k : Hash) :
    k ∈ hashes (survivors watchObjMap appState)
      ↔ watchObjMap.has k = true ∧ k ∈ hashes appState.currentLeakList := by
  rw [LeakRound.hashes_survivors, List.mem_filter, decide_eq_true_iff, mem_hashes_of_keyed h]

/-- A step keeps the map keyed. -/
theorem keyed_step {Dir : Type} [DecidableEq Dir] {plat : Platform Dir} {w w' : World Dir}
    {a : Input Dir} {es : List Event} (h : Keyed w.watchObjMap)
    (hs : step plat w a = some (w', es)) : Keyed w'.watchObjMap := by
  rw [step_map plat hs]
  refine h.foldl ?_
  intro op hop k objMsg heq
  simp only [mapOps] at hop
  split at hop
  · rw [heq] at hop
    exact absurd (List.mem_singleton.mp hop) (by simp)
  · rcases List.mem_append.mp hop with hop | hop
    · obtain ⟨j, -, hj⟩ := List.mem_map.mp hop
      exact absurd (hj.trans heq) (by simp)
    · obtain ⟨r, -, hr⟩ := List.mem_map.mp hop
      obtain ⟨rfl, rfl⟩ := MapHistory.Op.put.inj (hr.trans heq)
      rfl

-- ── Reported dumps ────────────────────────────────────────────────────────────────

/-- A dump that was reported: what was written, what the file is after the step, what was
    reported, and the map and the round when the step began that did it all. -/
structure Described where
  text : String
  /-- `none` when the file is gone -/
  file : Option (List UInt8)
  /-- the step had to delete old files -/
  retention : Bool
  report : ReportRawHeap
  /-- the step is the dump tick, not the callback of the heap dump -/
  inTick : Bool
  watchObjMap : WatchMap
  appState : AppState

/-- The two texts list the same hashes, and the count is their number. -/
def Described.NamesAgree (x : Described) : Prop :=
  ∃ inFile inEvent : List ObjMsg, (∃ hash, x.text = resultText true hash inFile)
    ∧ x.report.leakList = leakListText inEvent
    ∧ (∀ k, k ∈ hashes inFile ↔ k ∈ hashes inEvent)
    ∧ x.report.leakObjectCount = (hashes inEvent).toFinset.card

/-- The file is what was written, unless retention took it away. -/
def Described.FileKept (x : Described) : Prop :=
  (∀ bytes, x.file = some bytes → bytes = utf8 x.text)
    ∧ (x.retention = false → x.file = some (utf8 x.text))

/-- In the tick, everything in the map was captured by the GC tick; in the callback, the
    map holds what the last dump tick found in it. -/
def Described.Kept (x : Described) : Prop :=
  if x.inTick then
    ∀ k, x.watchObjMap.has k = true → k ∈ hashes x.appState.currentLeakList
  else ∀ k, x.watchObjMap.has k = true ↔ k ∈ hashes x.appState.intersection

/-- **Texts are compared as lists**: the two texts determine what they list. -/
theorem agrees_iff {x : Described} {intersection : List ObjMsg} (hkeyed : Keyed x.watchObjMap)
    (hnodup : (hashes intersection).Nodup)
    (htext : ∃ hash, x.text = resultText true hash (getLeakList x.watchObjMap))
    (hreport : Reports intersection x.report) :
    x.NamesAgree ↔ ∀ k, x.watchObjMap.has k = true ↔ k ∈ hashes intersection := by
  constructor
  · rintro ⟨inFile, inEvent, ⟨hash, hfile⟩, hevent, hsame, -⟩ k
    obtain ⟨hash', hfile'⟩ := htext
    rw [← mem_hashes_of_keyed hkeyed, ← (resultText_inj (hfile.symm.trans hfile')).2,
      ← leakListText_injective (hevent.symm.trans hreport.1)]
    exact hsame k
  · intro hkept
    refine ⟨getLeakList x.watchObjMap, intersection, htext, hreport.1, ?_, ?_⟩
    · intro k
      rw [mem_hashes_of_keyed hkeyed]
      exact hkept k
    · rw [hreport.2, List.toFinset_card_of_nodup hnodup]
      exact (List.length_map ObjMsg.hash).symm

/-- A dump tick leaves the intersection alone, or computes it. -/
theorem intersection_cases (st : Settings) (watchObjMap : WatchMap) (appState : AppState) :
    (startDumptask st watchObjMap appState).1.intersection = appState.intersection
        ∧ (startDumptask st watchObjMap appState).2.1 = false
      ∨ (startDumptask st watchObjMap appState).1.intersection
          = survivors watchObjMap appState := by
  rcases LeakRound.startDumptask_cases st watchObjMap appState with
    ⟨-, h⟩ | ⟨-, -, h⟩ | ⟨-, -, -, h⟩ | ⟨-, -, -, h⟩
  · rw [h]
    exact Or.inl ⟨rfl, rfl⟩
  · rw [h]
    exact Or.inl ⟨rfl, rfl⟩
  · rw [h]
    exact Or.inr rfl
  · rw [h]
    exact Or.inr rfl

/-- A round that dumps has taken the survivors. -/
theorem intersection_of_dumps {st : Settings} {watchObjMap : WatchMap} {appState : AppState}
    (h : (startDumptask st watchObjMap appState).2.1 = true) :
    (startDumptask st watchObjMap appState).1.intersection
      = survivors watchObjMap appState := by
  rcases intersection_cases st watchObjMap appState with ⟨-, hfalse⟩ | hnew
  · exact absurd (hfalse.symm.trans h) Bool.false_ne_true
  · exact hnew

section Steps

variable {Dir : Type} [DecidableEq Dir] (plat : Platform Dir)

/-- The reported dumps of a call that describes a dump, in a step that began in `w`; `d` is the
    state of the dumps when `getJsleaklistFile` is called. -/
def describedIn (w : World Dir) (inTick : Bool) (out : Outside) (filePath : String)
    (d : DumpState Dir) (result : DumpState Dir × List DumpEvent) : List Described :=
  let path := jsleaklistPath plat.host filePath (prepared plat.host out filePath d)
  (writtenText plat.host out w.watchObjMap filePath d).toList.flatMap (fun text =>
    (reportsOf result.2).map (fun report =>
      { text := text
        file := result.1.files.get path
        retention := decide (.retention ∈ result.2)
        report := report
        inTick := inTick
        watchObjMap := w.watchObjMap
        appState := w.appState }))

/-- The closure that an event runs, when it is the dump event. -/
def dumpRun (w : World Dir) (t : Timer EventId) : Option DumpTask :=
  match t.event with
  | .gcEvent => none
  | .dumpEvent => if w.handler.isRunning then w.handler.dumpFuncRef else none

/-- The dumps that `startDumptask` starts and reports in one tick. -/
def tickDumps (out : Surroundings) (task : DumpTask) (w : World Dir) : List Described :=
  let round := startDumptask w.settings w.watchObjMap w.appState
  if w.settings.isConfigObj && round.2.1 then
    let session := World.session { w with appState := round.1 }
    describedIn plat w true out.dump task.filePath { w.dump with dumpStatus := out.dump.status }
      (dumpInner plat.host out.dump session task.filePath true true task.callback.truthy w.dump)
  else []

/-- The dumps that the callback of a heap dump reports. -/
def callbackDumps (out : Surroundings) (task : DumpTask) (w : World Dir) : List Described :=
  describedIn plat w false out.dump task.filePath w.dump
    (getJsleaklistFile plat.host out.dump w.session task.filePath true true
      task.callback.truthy w.dump)

/-- The dumps that a step reports. -/
def dumpsOf (w : World Dir) : Input Dir → List Described
  | .deliver out i =>
      match TimerQueue.deliver w.now w.queue i with
      | none => []
      | some (t, _) =>
          match dumpRun w t with
          | none => []
          | some task => tickDumps plat out task w
  | .dumpDone out k =>
      match w.outstanding[k]? with
      | none => []
      | some task => callbackDumps plat out task w
  | _ => []

/-- The watcher, seen through the dumps it reports. -/
def dumpHistory (load : DumpState Dir) : Machine (World Dir) (Input Dir) Described :=
  (watcher plat load).observing (dumpsOf plat)

theorem mem_describedIn {w : World Dir} {inTick : Bool} {out : Outside} {filePath : String}
    {d : DumpState Dir} {result : DumpState Dir × List DumpEvent} {x : Described}
    (hx : x ∈ describedIn plat w inTick out filePath d result) :
    writtenText plat.host out w.watchObjMap filePath d = some x.text
      ∧ .reportRawHeap x.report ∈ result.2
      ∧ x.file = result.1.files.get
        (jsleaklistPath plat.host filePath (prepared plat.host out filePath d))
      ∧ x.retention = decide (.retention ∈ result.2)
      ∧ x.inTick = inTick ∧ x.watchObjMap = w.watchObjMap ∧ x.appState = w.appState := by
  simp only [describedIn, List.mem_flatMap, Option.mem_toList, List.mem_map] at hx
  obtain ⟨text, htext, report, hreport, rfl⟩ := hx
  exact ⟨htext, mem_reportsOf.mp hreport, rfl, rfl, rfl, rfl, rfl⟩

/-- A dump of a dump tick: the tick took `intersection`, and dumps are off. -/
theorem tick_dump {w : World Dir} {out : Surroundings} {i : Nat} {x : Described}
    (hx : x ∈ dumpsOf plat w (.deliver out i)) :
    ∃ t queue task, TimerQueue.deliver w.now w.queue i = some (t, queue)
      ∧ dumpRun w t = some task ∧ w.settings.isConfigObj = true
      ∧ out.dump.status = false
      ∧ let session := World.session { w with
          appState := (startDumptask w.settings w.watchObjMap w.appState).1 }
        session.intersection = survivors w.watchObjMap w.appState
        ∧ x ∈ describedIn plat w true out.dump task.filePath { w.dump with dumpStatus := false }
          (getJsleaklistFile plat.host out.dump session task.filePath true true
            task.callback.truthy { w.dump with dumpStatus := false }) := by
  simp only [dumpsOf] at hx
  split at hx
  · exact absurd hx List.not_mem_nil
  · rename_i t queue hdeliver
    split at hx
    · exact absurd hx List.not_mem_nil
    · rename_i task hrun
      simp only [tickDumps] at hx
      split at hx
      · rename_i hdumps
        obtain ⟨hconfig, hround⟩ := Bool.and_eq_true_iff.mp hdumps
        obtain ⟨hoff, hcall⟩ := dumpInner_of_report (mem_describedIn plat hx).2.1
        rw [hcall, hoff] at hx
        exact ⟨t, queue, task, hdeliver, hrun, hconfig, hoff, intersection_of_dumps hround, hx⟩
      · exact absurd hx List.not_mem_nil

/-- A dump of a callback. -/
theorem callback_dump {w : World Dir} {out : Surroundings} {k : Nat} {x : Described}
    (hx : x ∈ dumpsOf plat w (.dumpDone out k)) :
    ∃ task, w.outstanding[k]? = some task ∧ x ∈ callbackDumps plat out task w := by
  simp only [dumpsOf] at hx
  split at hx
  · exact absurd hx List.not_mem_nil
  · rename_i task hk
    exact ⟨task, hk, hx⟩

/-- What holds in every run: objects are under their hashes, and the intersection lists
    each object once. -/
structure Listed (w : World Dir) : Prop where
  keyed : Keyed w.watchObjMap
  nodup : (hashes w.appState.intersection).Nodup

-- ── What the rounds do to the intersection ────────────────────────────────────────

/-- The intersection is as it was, or the survivors of the map. -/
def Recomputed (w w' : World Dir) : Prop :=
  w'.appState.intersection = w.appState.intersection
    ∨ ∃ appState, w'.appState.intersection = survivors w.watchObjMap appState

theorem step_recomputed {w w' : World Dir} {a : Input Dir} {es : List Event}
    (hs : step plat w a = some (w', es)) : Recomputed w w' := by
  have hlists := (LeakLists.step_lists plat hs).intersection
  cases hrecords : LeakLists.dumpTicks w a with
  | true =>
      rw [hrecords] at hlists
      exact Or.inr ⟨w.appState, hlists⟩
  | false =>
      rw [hrecords] at hlists
      exact Or.inl hlists

/-- A step keeps what is listed true. -/
theorem listed_step {w w' : World Dir} {a : Input Dir} {es : List Event} (hw : Listed w)
    (hs : step plat w a = some (w', es)) : Listed w' where
  keyed := keyed_step hw.keyed hs
  nodup := by
    rcases step_recomputed plat hs with hsame | ⟨appState, hnew⟩
    · rw [hsame]
      exact hw.nodup
    · rw [hnew]
      exact nodup_survivors hw.keyed appState

/-- **The two texts of a dump agree** exactly when the map held what the round compared. -/
theorem names_agree_iff {w : World Dir} (hw : Listed w) {a : Input Dir} {x : Described}
    (hx : x ∈ dumpsOf plat w a) : x.NamesAgree ↔ x.Kept := by
  cases a with
  | deliver out i =>
      obtain ⟨t, queue, task, -, -, -, -, hintersection, hmem⟩ := tick_dump plat hx
      obtain ⟨htext, hreport, -, -, htick, hmap, hstate⟩ := mem_describedIn plat hmem
      obtain ⟨hreports, -⟩ := reports_getJsleaklistFile plat.host hreport
      have hkeyed : Keyed x.watchObjMap := hmap ▸ hw.keyed
      have hnodup := nodup_survivors hw.keyed w.appState
      have hsurvivors : Reports (survivors w.watchObjMap w.appState) x.report :=
        hintersection ▸ hreports
      rw [agrees_iff hkeyed hnodup (hmap ▸ text_of_written plat.host htext) hsurvivors]
      show _ ↔ (if x.inTick = true then _ else _)
      rw [htick, hstate, hmap]
      simp only [mem_hashes_survivors hw.keyed]
      show (∀ k, _) ↔ ∀ k, _
      refine forall_congr' (fun k => ?_)
      exact ⟨fun h hk => (h.mp hk).2, fun h => ⟨fun hk => ⟨hk, h hk⟩, And.left⟩⟩
  | dumpDone out k =>
      obtain ⟨task, -, hmem⟩ := callback_dump plat hx
      obtain ⟨htext, hreport, -, -, htick, hmap, hstate⟩ := mem_describedIn plat hmem
      obtain ⟨hreports, -⟩ := reports_getJsleaklistFile plat.host hreport
      have hkeyed : Keyed x.watchObjMap := hmap ▸ hw.keyed
      rw [agrees_iff hkeyed hw.nodup (hmap ▸ text_of_written plat.host htext) hreports]
      show _ ↔ (if x.inTick = true then _ else _)
      rw [htick, hstate]
      rfl
  | _ => exact absurd hx List.not_mem_nil

-- ── Reported dumps are the reports of the step ────────────────────────────────────

theorem exists_describedIn {w : World Dir} {inTick : Bool} {out : Outside} {filePath : String}
    {d : DumpState Dir} {result : DumpState Dir × List DumpEvent} {report : ReportRawHeap}
    (htext : .reportRawHeap report ∈ result.2 →
      ∃ text, writtenText plat.host out w.watchObjMap filePath d = some text) :
    (∃ x ∈ describedIn plat w inTick out filePath d result, x.report = report)
      ↔ .reportRawHeap report ∈ result.2 := by
  constructor
  · rintro ⟨x, hx, rfl⟩
    exact (mem_describedIn plat hx).2.1
  · intro hreport
    obtain ⟨text, hwritten⟩ := htext hreport
    simp only [describedIn, hwritten]
    exact ⟨_, List.mem_flatMap.mpr ⟨text, List.mem_cons_self,
      List.mem_map.mpr ⟨report, mem_reportsOf.mpr hreport, rfl⟩⟩, rfl⟩

theorem not_reported_nil {report : ReportRawHeap} :
    ¬ ∃ x ∈ ([] : List Described), x.report = report := by
  rintro ⟨x, hx, -⟩
  exact List.not_mem_nil hx

theorem mem_map_dump {es : List DumpEvent} {report : ReportRawHeap} :
    Event.dump (.reportRawHeap report) ∈ es.map Event.dump ↔ .reportRawHeap report ∈ es := by
  rw [List.mem_map]
  constructor
  · rintro ⟨e, he, heq⟩
    rw [← Event.dump.inj heq]
    exact he
  · exact fun he => ⟨_, he, rfl⟩

/-- In config-object mode a dump tick reports what `tickDumps` lists. -/
theorem dumpTask_reports (out : Surroundings) (task : DumpTask) {w : World Dir}
    (hconfig : w.settings.isConfigObj = true) (report : ReportRawHeap) :
    Event.dump (.reportRawHeap report) ∈ (dumpTask plat out task w).2
      ↔ ∃ x ∈ tickDumps plat out task w, x.report = report := by
  have hround : ∀ es : List LeakRound.Event,
      Event.dump (.reportRawHeap report) ∉ es.map (Event.round none) := by
    intro es h
    obtain ⟨_, -, heq⟩ := List.mem_map.mp h
    exact Event.noConfusion heq
  simp only [dumpTask, tickDumps, hconfig, Bool.true_and, if_true]
  split
  · rw [List.mem_append, or_iff_right (hround _), exists_describedIn]
    · exact mem_map_dump
    · intro hreport
      have hcall := (dumpInner_of_report hreport).2
      rw [hcall] at hreport
      exact (reports_getJsleaklistFile plat.host hreport).2
  · exact iff_of_false (hround _) not_reported_nil

theorem processEvent_reports (out : Surroundings) (t : Timer EventId)
    (queue : List (Timer EventId)) {w : World Dir} (hconfig : w.settings.isConfigObj = true)
    (report : ReportRawHeap) :
    Event.dump (.reportRawHeap report) ∈ (processEvent plat out t (w.withQueue queue)).2
      ↔ ∃ x ∈ (match dumpRun w t with
          | none => []
          | some task => tickDumps plat out task w), x.report = report := by
  by_cases hrun : w.handler.isRunning = true
  · have hrun' : (w.withQueue queue).handler.isRunning = true := hrun
    rw [processEvent_of_running plat hrun']
    simp only [dumpRun, hrun, if_true]
    cases hevent : t.event with
    | gcEvent =>
        simp only [executeJsFunc, hevent]
        refine iff_of_false (fun h => ?_) not_reported_nil
        split at h
        · exact List.not_mem_nil h
        · simp only [gcTask] at h
          split at h
          · obtain ⟨_, -, heq⟩ := List.mem_map.mp h
            exact Event.noConfusion heq
          · exact Event.noConfusion (List.mem_singleton.mp h)
    | dumpEvent =>
        simp only [executeJsFunc, hevent]
        show Event.dump (.reportRawHeap report) ∈ (match w.handler.dumpFuncRef with
          | none => (w.withQueue queue, [])
          | some task => dumpTask plat out task (w.withQueue queue)).2 ↔ _
        cases w.handler.dumpFuncRef with
        | none => exact iff_of_false List.not_mem_nil not_reported_nil
        | some task => exact dumpTask_reports plat out task (w := w.withQueue queue) hconfig report
  · have hoff : (w.withQueue queue).handler.isRunning = false := Bool.eq_false_iff.mpr hrun
    rw [processEvent_of_stopped plat hoff]
    simp only [dumpRun]
    refine iff_of_false List.not_mem_nil ?_
    cases t.event with
    | gcEvent => exact not_reported_nil
    | dumpEvent =>
        rw [if_neg hrun]
        exact not_reported_nil

/-- **The reported dumps of a step**, in config-object mode, are those that the step hands
    to `reportRawHeap`. -/
theorem reported_iff {w w' : World Dir} {a : Input Dir} {es : List Event}
    (hconfig : w.settings.isConfigObj = true) (hs : step plat w a = some (w', es))
    (report : ReportRawHeap) :
    Event.dump (.reportRawHeap report) ∈ es ↔ ∃ x ∈ dumpsOf plat w a, x.report = report := by
  cases a with
  | deliver out i =>
      obtain ⟨t, queue, hdeliver, -, rfl⟩ := step_deliver hs
      simp only [dumpsOf, hdeliver]
      exact processEvent_reports plat out t queue hconfig report
  | dumpDone out k =>
      obtain ⟨task, hk, -, rfl⟩ := step_dumpDone hs
      simp only [dumpsOf, hk, callbackDumps]
      rw [mem_map_dump, exists_describedIn]
      intro hreport
      exact (reports_getJsleaklistFile plat.host hreport).2
  | enableLeakWatcher out isEnabled configs callback =>
      obtain ⟨-, rfl⟩ := Prod.mk.inj (Option.some.inj hs)
      refine iff_of_false (fun h => ?_) not_reported_nil
      obtain ⟨_, -, heq⟩ := List.mem_map.mp h
      exact Event.noConfusion heq
  | dump out filePath =>
      refine iff_of_false (fun h => ?_) not_reported_nil
      cases filePath with
      | none =>
          obtain ⟨-, rfl⟩ := Prod.mk.inj (Option.some.inj hs)
          exact Event.noConfusion (List.mem_singleton.mp h)
      | some filePath =>
          obtain ⟨-, rfl⟩ := Prod.mk.inj (Option.some.inj hs)
          exact dumpInnerSync_no_report plat.host _ _ _ _ _ _ report (mem_map_dump.mp h)
  | _ =>
      have hevents := (step_quiet hs trivial).events (fun _ _ => by simp) (fun _ _ => by simp)
      exact iff_of_false (hevents (.reportRawHeap report)) not_reported_nil

-- ── Runs that keep the leaks together ─────────────────────────────────────────────

/-- A dump event was sent and is still to come. -/
def DumpDue (w : World Dir) : Prop := ∃ t ∈ w.queue, t.event = .dumpEvent

instance (w : World Dir) : Decidable (DumpDue w) :=
  inferInstanceAs (Decidable (∃ t ∈ w.queue, t.event = .dumpEvent))

/-- The call of `getJsleaklistFile` that a step may make: what it finds outside, the directory,
    and the state of the dumps. -/
def describes (w : World Dir) : Input Dir → Option (Outside × String × DumpState Dir)
  | .deliver out i =>
      if out.dump.status then none
      else
        match TimerQueue.deliver w.now w.queue i with
        | none => none
        | some (t, _) => (dumpRun w t).map (fun task =>
            (out.dump, task.filePath, { w.dump with dumpStatus := false }))
  | .dumpDone out k => (w.outstanding[k]?).map (fun task => (out.dump, task.filePath, w.dump))
  | _ => none

/-- Where a text is to be written, there is no longer file: it is not truncated. -/
def Fits (w : World Dir) (call : Outside × String × DumpState Dir) : Prop :=
  let (out, filePath, d) := call
  ∀ text ∈ writtenText plat.host out w.watchObjMap filePath d,
    ((d.files.get (jsleaklistPath plat.host filePath
      (prepared plat.host out filePath d))).getD []).length ≤ (utf8 text).length

instance (w : World Dir) (call : Outside × String × DumpState Dir) :
    Decidable (Fits plat w call) :=
  inferInstanceAs (Decidable (∀ text ∈ writtenText plat.host call.1 w.watchObjMap call.2.1
    call.2.2, ((call.2.2.files.get (jsleaklistPath plat.host call.2.1
      (prepared plat.host call.1 call.2.1 call.2.2))).getD []).length ≤ (utf8 text).length))

/-- What keeps the file and the event together: the ticks find a configuration object; from a GC
    tick until its dump tick, and until the callback of the heap dump, no new object is
    registered; while a callback is outstanding none leaves the map, and it is not cleared; and
    the file to be written is not longer than its text. -/
def Undisturbed (w : World Dir) (a : Input Dir) : Prop :=
  (eventDue w a ≠ none → w.settings.isConfigObj = true)
    ∧ (DumpDue w ∨ w.outstanding ≠ [] → ∀ r ∈ registers plat w a, w.watchObjMap.has r.1.hash = true)
    ∧ (w.outstanding ≠ [] → (∀ k ∈ finalizes w a, w.watchObjMap.has k = false)
      ∧ (asksClear w a = true → w.watchObjMap.size = 0))
    ∧ ∀ call ∈ describes w a, Fits plat w call

instance : DecidableRel (Undisturbed plat) := fun w a =>
  inferInstanceAs (Decidable ((eventDue w a ≠ none → w.settings.isConfigObj = true)
    ∧ (DumpDue w ∨ w.outstanding ≠ [] →
      ∀ r ∈ registers plat w a, w.watchObjMap.has r.1.hash = true)
    ∧ (w.outstanding ≠ [] → (∀ k ∈ finalizes w a, w.watchObjMap.has k = false)
      ∧ (asksClear w a = true → w.watchObjMap.size = 0))
    ∧ ∀ call ∈ describes w a, Fits plat w call))

/-- The invariant: what is in the map was captured while a dump event is to come, and is what the
    last dump tick found while a callback is outstanding. -/
structure Together (w : World Dir) : Prop where
  listed : Listed w
  armed : ArmedWhileRunning w
  captured : DumpDue w → ∀ k, w.watchObjMap.has k = true → k ∈ hashes w.appState.currentLeakList
  compared : w.outstanding ≠ [] →
    ∀ k, w.watchObjMap.has k = true ↔ k ∈ hashes w.appState.intersection

variable {plat}

/-- **No new object** comes into the map where none is registered. -/
theorem has_of_step {w w' : World Dir} {a : Input Dir} {es : List Event}
    (hs : step plat w a = some (w', es))
    (hnew : ∀ r ∈ registers plat w a, w.watchObjMap.has r.1.hash = true) {k : Hash}
    (hk : w'.watchObjMap.has k = true) : w.watchObjMap.has k = true := by
  rw [step_map plat hs] at hk
  obtain ⟨objMsg, hget⟩ := (OrderedMap.has_iff _ k).mp hk
  rcases MapHistory.get_foldl hget with hput | hbefore
  · simp only [mapOps] at hput
    split at hput
    · cases List.mem_singleton.mp hput
    · rcases List.mem_append.mp hput with hdrop | hput
      · obtain ⟨_, -, heq⟩ := List.mem_map.mp hdrop
        cases heq
      · obtain ⟨r, hr, heq⟩ := List.mem_map.mp hput
        obtain ⟨rfl, -⟩ := MapHistory.Op.put.inj heq
        exact hnew r (Option.mem_toList.mp hr)
  · exact (OrderedMap.has_iff _ k).mpr ⟨objMsg, hbefore⟩

omit [DecidableEq Dir] in
/-- A call that clears the map was to clear it. -/
theorem asksClear_of_clears {w : World Dir} {a : Input Dir} (h : clears plat w a = true) :
    asksClear w a = true := by
  cases a with
  | enable isEnable => exact h
  | enableLeakWatcher out isEnabled configs callback => exact (Bool.and_eq_true_iff.mp h).1
  | _ => exact absurd h Bool.false_ne_true

/-- **None leaves it** where none is finalized and it is not cleared. -/
theorem has_step {w w' : World Dir} {a : Input Dir} {es : List Event}
    (hs : step plat w a = some (w', es))
    (hfinal : ∀ k ∈ finalizes w a, w.watchObjMap.has k = false)
    (hclear : asksClear w a = true → w.watchObjMap.size = 0) {k : Hash}
    (hk : w.watchObjMap.has k = true) : w'.watchObjMap.has k = true := by
  rw [step_map plat hs]
  refine MapHistory.has_foldl (fun op hop => ?_) hk
  simp only [mapOps] at hop
  split at hop
  · rename_i hclears
    have hempty : w.watchObjMap.entries = [] :=
      List.length_eq_zero_iff.mp (hclear (asksClear_of_clears hclears))
    rw [← OrderedMap.mem_keys_iff, OrderedMap.keys, hempty] at hk
    exact absurd hk List.not_mem_nil
  · rcases List.mem_append.mp hop with hdrop | hput
    · obtain ⟨j, hj, rfl⟩ := List.mem_map.mp hdrop
      refine ⟨rfl, decide_eq_false ?_⟩
      rintro rfl
      exact absurd ((hfinal j (Option.mem_toList.mp hj)).symm.trans hk) Bool.false_ne_true
    · obtain ⟨r, -, rfl⟩ := List.mem_map.mp hput
      exact ⟨rfl, rfl⟩

/-- The map does not change where an event is due. -/
theorem map_of_due {w w' : World Dir} {a : Input Dir} {es : List Event}
    (hs : step plat w a = some (w', es)) (hdue : eventDue w a ≠ none) :
    w'.watchObjMap = w.watchObjMap := by
  rw [step_map plat hs]
  cases a with
  | deliver out i => rfl
  | _ => exact absurd rfl hdue

-- ── The dump events and the callbacks to come ─────────────────────────────────────

omit [DecidableEq Dir] in
/-- A dump event that is due was to come. -/
theorem dumpDue_of_event {w : World Dir} {a : Input Dir}
    (h : eventDue w a = some .dumpEvent) : DumpDue w := by
  cases a with
  | deliver out i =>
      simp only [eventDue] at h
      split at h
      · obtain ⟨d, hd, hevent⟩ := Option.map_eq_some_iff.mp h
        exact ⟨d.1, (deliver_spec hd).1.subset List.mem_cons_self, hevent⟩
      · exact absurd h.symm (Option.some_ne_none _)
  | _ => exact absurd h.symm (Option.some_ne_none _)

omit [DecidableEq Dir] in
/-- A GC tick is a GC event that is due. -/
theorem due_of_gcTicks {w : World Dir} {a : Input Dir} (h : gcTicks w a = true) :
    eventDue w a = some .gcEvent :=
  of_decide_eq_true (Bool.and_eq_true_iff.mp h).2

omit [DecidableEq Dir] in
/-- A dump tick is a dump event that is due. -/
theorem due_of_dumpTicks {w : World Dir} {a : Input Dir} (h : dumpTicks w a = true) :
    eventDue w a = some .dumpEvent := by
  obtain ⟨h, -⟩ := Bool.and_eq_true_iff.mp h
  obtain ⟨h, -⟩ := Bool.and_eq_true_iff.mp h
  exact of_decide_eq_true (Bool.and_eq_true_iff.mp h).2

omit [DecidableEq Dir] in
theorem dumpDue_of_queue {w w' : World Dir} (hqueue : ∀ t ∈ w'.queue, t ∈ w.queue)
    (h : DumpDue w') : DumpDue w := by
  obtain ⟨t, ht, hevent⟩ := h
  exact ⟨t, hqueue t ht, hevent⟩

omit [DecidableEq Dir] in
/-- A switch sends GC events only. -/
theorem dumpDue_switch (out : Surroundings) (isEnabled : JsVal) (configs : Configs)
    (callback : JsVal) {w : World Dir}
    (h : DumpDue (enableLeakWatcher plat out isEnabled configs callback w).1) : DumpDue w := by
  have hout := enableLeakWatcher_outcome plat out isEnabled configs callback w
  generalize enableLeakWatcher plat out isEnabled configs callback w = result at hout h
  cases hout with
  | refused _ t => exact h
  | stopped _ =>
      have hqueue := (shutdown_schedule plat out { w with enabled := isEnabled }).queue
      exact dumpDue_of_queue (fun t ht => hqueue ▸ ht) h
  | rejected _ _ _ => exact h
  | idle _ _ t _ => exact h
  | started _ =>
      obtain ⟨t, ht, hevent⟩ := h
      have hsent : (launch plat out configs callback (configured out isEnabled configs w)).queue
          = _ := EventLedger.launch_queue out isEnabled configs callback w
      rw [hsent] at ht
      rcases List.mem_append.mp ht with hold | hnew
      · exact ⟨t, hold, hevent⟩
      · rw [List.mem_singleton.mp hnew] at hevent
        exact EventId.noConfusion hevent

/-- A delivery brings a dump event only when it is a GC tick. -/
theorem dumpDue_deliver {w : World Dir} {out : Surroundings} {i : Nat} {t : Timer EventId}
    {queue : List (Timer EventId)} (hd : TimerQueue.deliver w.now w.queue i = some (t, queue))
    (harmed : ArmedWhileRunning w)
    (hconfig : eventDue w (.deliver out i) ≠ none → w.settings.isConfigObj = true)
    (hdue : DumpDue (processEvent plat out t (w.withQueue queue)).1) :
    DumpDue w ∨ gcTicks w (.deliver out i) = true := by
  have hold : ∀ u ∈ queue, u ∈ w.queue := fun u hu =>
    (deliver_spec hd).1.subset (List.mem_cons_of_mem t hu)
  have heffect := processEvent_effect plat out t (w.withQueue queue)
  generalize processEvent plat out t (w.withQueue queue) = result at heffect hdue
  cases heffect with
  | dropped hrun => exact Or.inl (dumpDue_of_queue hold hdue)
  | noDump hrun hevent htask => exact Or.inl (dumpDue_of_queue hold hdue)
  | dumped task hrun hevent htask =>
      have hqueue := (EventLedger.dumpTask_keeps plat out task (w.withQueue queue)).2.1
      refine Or.inl (dumpDue_of_queue (fun u hu => hold u ?_) hdue)
      rw [hqueue] at hu
      exact hu
  | noGc hrun hevent htask =>
      obtain ⟨task, hset⟩ := (harmed hrun).gcTask
      exact absurd (htask.symm.trans hset).symm (Option.some_ne_none task)
  | collected task hrun hevent htask =>
      have hon : w.handler.isRunning = true := hrun
      have hset : w.handler.gcFuncRef = some task := htask
      have hevent' : eventDue w (.deliver out i) = some .gcEvent := by
        rw [eventDue_deliver hd, if_pos hon, hevent]
      have hmode := hconfig (hevent' ▸ Option.some_ne_none _)
      refine Or.inr ?_
      rw [gcTicks, hmode, hset, hevent']
      rfl

/-- **A dump event comes into the queue with a GC tick.** -/
theorem dumpDue_step {w w' : World Dir} {a : Input Dir} {es : List Event}
    (hs : step plat w a = some (w', es)) (harmed : ArmedWhileRunning w)
    (hconfig : eventDue w a ≠ none → w.settings.isConfigObj = true) (hdue : DumpDue w') :
    DumpDue w ∨ gcTicks w a = true := by
  cases a with
  | deliver out i =>
      obtain ⟨t, queue, hd, rfl, -⟩ := step_deliver hs
      exact dumpDue_deliver hd harmed hconfig hdue
  | enableLeakWatcher out isEnabled configs callback =>
      obtain ⟨rfl, -⟩ := Prod.mk.inj (Option.some.inj hs)
      exact Or.inl (dumpDue_switch out isEnabled configs callback hdue)
  | _ =>
      have hqueue := (step_quiet hs trivial).queue
      exact Or.inl (dumpDue_of_queue (fun t ht => hqueue ▸ ht) hdue)

/-- In config-object mode only a tick that takes the lists starts a dump. -/
theorem outstanding_dumpTask (out : Surroundings) (task : DumpTask) {w : World Dir}
    (hconfig : w.settings.isConfigObj = true)
    (h : (dumpTask plat out task w).1.outstanding ≠ []) :
    w.outstanding ≠ [] ∨ (w.appState.isGC = true ∧ hashEqual w.appState = false) := by
  simp only [dumpTask, hconfig, if_true] at h
  split at h
  · rename_i hdumps
    rcases LeakRound.startDumptask_cases w.settings w.watchObjMap w.appState with
      ⟨-, heq⟩ | ⟨-, -, heq⟩ | ⟨hgc, hequal, -, -⟩ | ⟨hgc, hequal, -, -⟩
    · rw [heq] at hdumps
      exact absurd hdumps Bool.false_ne_true
    · rw [heq] at hdumps
      exact absurd hdumps Bool.false_ne_true
    · exact Or.inr ⟨hgc, hequal⟩
    · exact Or.inr ⟨hgc, hequal⟩
  · exact Or.inl h

theorem outstanding_deliver {w : World Dir} {out : Surroundings} {i : Nat} {t : Timer EventId}
    {queue : List (Timer EventId)} (hd : TimerQueue.deliver w.now w.queue i = some (t, queue))
    (hconfig : eventDue w (.deliver out i) ≠ none → w.settings.isConfigObj = true)
    (h : (processEvent plat out t (w.withQueue queue)).1.outstanding ≠ []) :
    w.outstanding ≠ [] ∨ dumpTicks w (.deliver out i) = true := by
  have heffect := processEvent_effect plat out t (w.withQueue queue)
  generalize processEvent plat out t (w.withQueue queue) = result at heffect h
  cases heffect with
  | dropped hrun => exact Or.inl h
  | noDump hrun hevent htask => exact Or.inl h
  | dumped task hrun hevent htask =>
      have hon : w.handler.isRunning = true := hrun
      have hset : w.handler.dumpFuncRef = some task := htask
      have hevent' : eventDue w (.deliver out i) = some .dumpEvent := by
        rw [eventDue_deliver hd, if_pos hon, hevent]
      have hmode := hconfig (hevent' ▸ Option.some_ne_none _)
      refine (outstanding_dumpTask out task (w := w.withQueue queue) hmode h).imp_right ?_
      rintro ⟨hgc, hequal⟩
      have hgc' : w.appState.isGC = true := hgc
      have hequal' : hashEqual w.appState = false := hequal
      rw [dumpTicks, hmode, hset, hevent', hgc', hequal']
      rfl
  | noGc hrun hevent htask => exact Or.inl h
  | collected task hrun hevent htask =>
      obtain ⟨_, _, hframe⟩ := gcTask_frame plat out (t.tick w.now) task (w.withQueue queue)
      obtain ⟨_, _, _, _, _, _, hretry⟩ := retryRegister_frame plat out (w.withQueue queue)
      have hsame : (gcTask plat out (t.tick w.now) task (w.withQueue queue)).1.outstanding
          = w.outstanding := by
        rw [hframe, hretry]
        rfl
      have h' : (gcTask plat out (t.tick w.now) task (w.withQueue queue)).1.outstanding ≠ [] := h
      exact Or.inl (hsame ▸ h')

/-- **A callback is outstanding** after a dump tick that took the lists. -/
theorem outstanding_step {w w' : World Dir} {a : Input Dir} {es : List Event}
    (hs : step plat w a = some (w', es))
    (hconfig : eventDue w a ≠ none → w.settings.isConfigObj = true)
    (h : w'.outstanding ≠ []) : w.outstanding ≠ [] ∨ dumpTicks w a = true := by
  cases a with
  | deliver out i =>
      obtain ⟨t, queue, hd, rfl, -⟩ := step_deliver hs
      exact outstanding_deliver hd hconfig h
  | enableLeakWatcher out isEnabled configs callback =>
      obtain ⟨rfl, -⟩ := Prod.mk.inj (Option.some.inj hs)
      rw [(enableLeakWatcher_rounds plat out isEnabled configs callback w).2] at h
      exact Or.inl h
  | dumpDone out k =>
      obtain ⟨task, hk, -⟩ := step_dumpDone hs
      exact Or.inl (List.ne_nil_of_mem (List.mem_of_getElem? hk))
  | _ =>
      have hsame := (step_quiet hs trivial).outstanding (fun _ _ => by simp)
      exact Or.inl (hsame ▸ h)

-- ── The run ───────────────────────────────────────────────────────────────────────

/-- In every run, whatever its steps are. -/
theorem run_listed {load : DumpState Dir} {w : World Dir} {tr : List Described}
    (hr : Run (dumpHistory plat load) anyStep w tr) : Listed w := by
  have hinit : Listed (dumpHistory plat load).init :=
    ⟨MapHistory.keyedBy_empty ObjMsg.hash, List.nodup_nil⟩
  refine Run.state_invariant (I := Listed) hinit ?_ hr
  intro w a w' xs hw _ hs
  obtain ⟨⟨es, hstep⟩, -⟩ := Machine.observing_step hs
  exact listed_step plat hw hstep

/-- **The step lemma.** -/
theorem together_step {w w' : World Dir} {a : Input Dir} {es : List Event} (hw : Together w)
    (hg : Undisturbed plat w a) (hs : step plat w a = some (w', es)) : Together w' := by
  obtain ⟨hconfig, hnew, hkeep, -⟩ := hg
  have hlists := LeakLists.step_lists plat hs
  refine ⟨listed_step plat hw.listed hs, armed_step hs hw.armed, ?_, ?_⟩
  · intro hdue k hk
    rw [hlists.current]
    cases hgc : gcTicks w a with
    | true =>
        rw [map_of_due hs (due_of_gcTicks hgc ▸ Option.some_ne_none _)] at hk
        exact (mem_hashes_of_keyed hw.listed.keyed k).mpr hk
    | false =>
        have hbefore : DumpDue w := (dumpDue_step hs hw.armed hconfig hdue).resolve_right
          (fun htick => Bool.false_ne_true (hgc.symm.trans htick))
        exact hw.captured hbefore k (has_of_step hs (hnew (Or.inl hbefore)) hk)
  · intro hout k
    rw [hlists.intersection]
    cases hdump : dumpTicks w a with
    | true =>
        have hevent := due_of_dumpTicks hdump
        rw [map_of_due hs (hevent ▸ Option.some_ne_none _)]
        refine Iff.trans ?_ (mem_hashes_survivors hw.listed.keyed w.appState k).symm
        exact ⟨fun hk => ⟨hk, hw.captured (dumpDue_of_event hevent) k hk⟩, And.left⟩
    | false =>
        have hbefore : w.outstanding ≠ [] := (outstanding_step hs hconfig hout).resolve_right
          (fun htick => Bool.false_ne_true (hdump.symm.trans htick))
        obtain ⟨hfinal, hclear⟩ := hkeep hbefore
        refine Iff.trans ?_ (hw.compared hbefore k)
        exact ⟨has_of_step hs (hnew (Or.inr hbefore)), has_step hs hfinal hclear⟩

/-- The two lists stay together along every run. -/
theorem together_of_run {load : DumpState Dir} {w : World Dir} {tr : List Described}
    (hr : Run (dumpHistory plat load) (Undisturbed plat) w tr) : Together w := by
  have hinit : Together (dumpHistory plat load).init :=
    ⟨⟨MapHistory.keyedBy_empty ObjMsg.hash, List.nodup_nil⟩,
      fun hrun => absurd hrun Bool.false_ne_true,
      fun ⟨_, ht, _⟩ => absurd ht List.not_mem_nil, fun hout => absurd rfl hout⟩
  refine Run.state_invariant (I := Together) hinit ?_ hr
  intro w a w' xs hw hg hs
  obtain ⟨⟨es, hstep⟩, -⟩ := Machine.observing_step hs
  exact together_step hw hg hstep

/-- The map of a dump is what the round compared. -/
theorem kept_of_together {w : World Dir} (hw : Together w) {a : Input Dir} {x : Described}
    (hx : x ∈ dumpsOf plat w a) : x.Kept := by
  show if x.inTick = true then _ else _
  cases a with
  | deliver out i =>
      obtain ⟨t, queue, task, hd, hrun, -, -, -, hmem⟩ := tick_dump plat hx
      obtain ⟨-, -, -, -, htick, hmap, hstate⟩ := mem_describedIn plat hmem
      rw [htick, hmap, hstate, if_pos rfl]
      refine hw.captured ⟨t, (deliver_spec hd).1.subset List.mem_cons_self, ?_⟩
      cases hevent : t.event with
      | dumpEvent => rfl
      | gcEvent =>
          simp only [dumpRun, hevent] at hrun
          exact absurd hrun.symm (Option.some_ne_none task)
  | dumpDone out k =>
      obtain ⟨task, hk, hmem⟩ := callback_dump plat hx
      obtain ⟨-, -, -, -, htick, hmap, hstate⟩ := mem_describedIn plat hmem
      rw [htick, hmap, hstate, if_neg Bool.false_ne_true]
      exact hw.compared (List.ne_nil_of_mem (List.mem_of_getElem? hk))
  | _ => exact absurd hx List.not_mem_nil

/-- The file of a reported dump is what was written, when that fits. -/
theorem fileKept_of_described {w : World Dir} {inTick jsCallback : Bool} {out : Outside}
    {session : Session} {filePath : String} {d : DumpState Dir} {x : Described}
    (hx : x ∈ describedIn plat w inTick out filePath d
      (getJsleaklistFile plat.host out session filePath true true jsCallback d))
    (hsession : session.watchObjMap = w.watchObjMap) (hfits : Fits plat w (out, filePath, d)) :
    x.FileKept := by
  obtain ⟨htext, -, hfile, hret, -, -, -⟩ := mem_describedIn plat hx
  have hlength := hfits x.text htext
  have hleft : (((prepared plat.host out filePath d).files.get
      (jsleaklistPath plat.host filePath (prepared plat.host out filePath d))).getD []).drop
        (utf8 x.text).length = [] := by
    rw [List.drop_eq_nil_iff]
    rcases prepared_within plat.host out filePath d
      (jsleaklistPath plat.host filePath (prepared plat.host out filePath d)) with hnone | hsame
    · rw [hnone]
      exact Nat.zero_le _
    · rw [hsame]
      exact hlength
  rw [← hsession] at htext
  obtain ⟨hsame, hthere⟩ := file_getJsleaklistFile plat.host true jsCallback htext
  rw [hleft, List.append_nil] at hsame hthere
  refine ⟨fun bytes hbytes => hsame bytes (hfile ▸ hbytes), fun hno => ?_⟩
  rw [hfile]
  exact hthere (of_decide_eq_false (hret ▸ hno))

/-- A step whose file fits writes it. -/
theorem fileKept_of_fits {w : World Dir} {a : Input Dir}
    (hfits : ∀ call ∈ describes w a, Fits plat w call) {x : Described}
    (hx : x ∈ dumpsOf plat w a) : x.FileKept := by
  cases a with
  | deliver out i =>
      obtain ⟨t, queue, task, hd, hrun, -, hoff, -, hmem⟩ := tick_dump plat hx
      have hcall : describes w (.deliver out i)
          = some (out.dump, task.filePath, { w.dump with dumpStatus := false }) := by
        simp only [describes, hoff, hd, hrun, Bool.false_eq_true, if_false, Option.map_some]
      exact fileKept_of_described hmem rfl (hfits _ hcall)
  | dumpDone out k =>
      obtain ⟨task, hk, hmem⟩ := callback_dump plat hx
      have hcall : describes w (.dumpDone out k) = some (out.dump, task.filePath, w.dump) := by
        simp only [describes, hk, Option.map_some]
      exact fileKept_of_described hmem rfl (hfits _ hcall)
  | _ => exact absurd hx List.not_mem_nil

/-- **Event and file agree**, for every dump that a run reports, as long as nothing is
    registered from a GC tick to its dump tick, the map does not change while a callback is
    outstanding, and no longer file stands where one is written. -/
theorem leaks_agree {load : DumpState Dir} {w : World Dir} {tr : List Described}
    (hr : Run (dumpHistory plat load) (Undisturbed plat) w tr) :
    ∀ x ∈ tr, x.NamesAgree ∧ x.FileKept := by
  induction hr with
  | start => exact fun x hx => absurd hx List.not_mem_nil
  | next hr hg hs ih =>
      obtain ⟨-, rfl⟩ := Machine.observing_step hs
      have hbefore := together_of_run hr
      intro x hx
      rcases List.mem_append.mp hx with hold | hnew
      · exact ih x hold
      · exact ⟨(names_agree_iff plat hbefore.listed hnew).mpr (kept_of_together hbefore hnew),
          fileKept_of_fits hg.2.2.2 hnew⟩

end Steps

/-- The dump status is off. -/
def dumpsOff : Surroundings :=
  { plainSurroundings with dump := { DumpIdentity.outsideAt 1 with dumpParameter := .set "false" } }

/-- A session with a configuration object, up to the dump tick: one object is watched when
    the GC tick captures, `later` is watched after it. -/
def untilDump (later : List (Input String)) : List (Input String) :=
  [.enableLeakWatcher plainSurroundings (.bool true)
      (.object { monitorObjectTypes := some monitorAll } none []) (.obj 1),
    .watch (some (page 7)) (some "first"), .advance 90000, .deliver plainSurroundings 0,
    .settle 0 (.resolve (some [{ processName := "app", state := 1 }])), .advance 5000] ++ later

/-- Nothing is registered after the capture. -/
theorem leaks_agree_captured : ∃ (w : World String) (tr : List Described),
    Run (dumpHistory plainPlatform DumpIdentity.noFiles) (Undisturbed plainPlatform) w tr
      ∧ ∃ x ∈ tr, x.report.leakObjectCount = 1 ∧ x.NamesAgree ∧ x.FileKept := by
  obtain ⟨p, hp⟩ : ∃ p, exec (dumpHistory plainPlatform DumpIdentity.noFiles)
      (Undisturbed plainPlatform) (untilDump []) = some p := ⟨_, rfl⟩
  obtain ⟨hguard, q, hq, x, hmem, hcount⟩ :
      Undisturbed plainPlatform p.1 (.deliver dumpsOff 1)
        ∧ ∃ q, (dumpHistory plainPlatform DumpIdentity.noFiles).step p.1 (.deliver dumpsOff 1)
          = some q ∧ ∃ x ∈ q.2, x.report.leakObjectCount = 1 := by
    obtain rfl := Option.some.inj hp
    refine ⟨?_, _, rfl, ?_⟩
    · decide +kernel
    · decide +kernel
  have hrun := Run.next (run_of_exec hp) hguard hq
  have hnew := List.mem_append_right p.2 hmem
  exact ⟨q.1, p.2 ++ q.2, hrun, x, hnew, hcount, leaks_agree hrun x hnew⟩

/-- Another object is registered between the GC tick and the dump tick: the file lists
    both, the event lists one. -/
theorem file_lists_more :
    ¬ ∀ (load : DumpState String) (w : World String) (tr : List Described),
        Run (dumpHistory plainPlatform load) anyStep w tr → ∀ x ∈ tr, x.NamesAgree := by
  intro h
  obtain ⟨p, hp⟩ : ∃ p, exec (dumpHistory plainPlatform DumpIdentity.noFiles) anyStep
      (untilDump [.watch (some (page 8)) (some "second")]) = some p := ⟨_, rfl⟩
  obtain ⟨hmap, hcaptured, q, hq, x, hmem, -⟩ : p.1.watchObjMap.has (some 8) = true
      ∧ hashes p.1.appState.currentLeakList = [some 7]
      ∧ ∃ q, (dumpHistory plainPlatform DumpIdentity.noFiles).step p.1 (.deliver dumpsOff 1)
          = some q ∧ ∃ x ∈ q.2, x.report.leakObjectCount = 1 := by
    obtain rfl := Option.some.inj hp
    refine ⟨rfl, rfl, _, rfl, ?_⟩
    decide +kernel
  obtain ⟨-, hobs⟩ := Machine.observing_step hq
  have hrun := Run.next (G := anyStep) (run_of_exec hp) trivial hq
  have hagree := h DumpIdentity.noFiles q.1 _ hrun x (List.mem_append_right _ hmem)
  have hnew : x ∈ dumpsOf plainPlatform p.1 (.deliver dumpsOff 1) := hobs ▸ hmem
  have hkept := (names_agree_iff plainPlatform (run_listed (run_of_exec hp)) hnew).mp hagree
  obtain ⟨_, _, _, -, -, -, -, -, hdump⟩ := tick_dump plainPlatform hnew
  obtain ⟨-, -, -, -, htick, hmap', hstate⟩ := mem_describedIn plainPlatform hdump
  have hboth : ∀ k, p.1.watchObjMap.has k = true
      → k ∈ hashes p.1.appState.currentLeakList := by
    have hkept' : if x.inTick = true then _ else _ := hkept
    rw [htick, hmap', hstate, if_pos rfl] at hkept'
    exact hkept'
  have hlate := hboth (some 8) hmap
  rw [hcaptured] at hlate
  exact absurd hlate (by decide)

end LeakAgreement
