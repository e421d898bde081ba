import HiChecker.RetentionProofs
import HiChecker.DumpPartiesProofs
import HiChecker.LeakListTextProofs

/-!
# The names a dump hands out

A dump writes its files, deletes old ones, and then hands out the names of its own files:
`dumpInnerSync` returns them, `getJsleaklistFile` gives them to the callback and to the
report. In between, the retention step treats the new files like the others.

* **`writtenSync`**, **`writtenAsync`** — the state when the retention step starts.
* **`has_writtenSync_iff`**, **`has_writtenAsync_iff`** — which files the directory then has.
* **`Spared`** — the own files stand behind the cut.
* **`delivered_exist_iff`** — every name handed out exists exactly when they are spared.
-/

namespace Delivered

open JsValue OrderedMapLib WatcherConfig FileStore DumpFile DumpIdentity DumpNames DumpCleanUp
open Retention LeakListText

variable {Dir : Type} [DecidableEq Dir] (host : Host Dir) (out : Outside) (session : Session)
  (filePath : String)

-- ── Before the retention step ─────────────────────────────────────────────────────

/-- The state in which `dumpInnerSync` reaches `deleteOldFile`. -/
def writtenSync (d : DumpState Dir) : DumpState Dir :=
  (DumpParties.writeJsleaklist host out session filePath false true
    (DumpParties.createHeapFile host out filePath false (cleanUp host out filePath d)).1).1

/-- The state in which `getJsleaklistFile` writes: with dumps off it cleans up and stamps,
    with dumps on its caller has done so. -/
def prepared (d : DumpState Dir) : DumpState Dir :=
  if d.dumpStatus then d else stamp out (cleanUp host out filePath d)

/-- The state in which `getJsleaklistFile` reaches `deleteOldFile`. -/
def writtenAsync (d : DumpState Dir) : DumpState Dir :=
  (DumpParties.writeJsleaklist host out session filePath true d.dumpStatus
    (prepared host out filePath d)).1

/-- What is there after a clean-up and after writing own files over it. -/
theorem has_written_iff {dir : Dir} {gone : String → Prop} (own : String → Prop)
    {written cleaned files : Files Dir} (hgone : Unlinked dir gone cleaned files)
    (hsame : SameBut (fun q => own q.2) written cleaned)
    (hown : ∀ name, own name → written.has (dir, name) = true) (name : String) :
    written.has (dir, name) = true
      ↔ own name ∨ (files.has (dir, name) = true ∧ ¬ gone name) := by
  by_cases ho : own name
  · exact iff_of_true (hown name ho) (Or.inl ho)
  · have hget : written.has (dir, name) = cleaned.has (dir, name) := by
      rw [Bool.eq_iff_iff, OrderedMap.has_iff, OrderedMap.has_iff, hsame (dir, name) ho]
    rw [or_iff_right ho, hget]
    constructor
    · intro h
      exact ⟨(hgone.has_of h).1, fun hg => (hgone.has_of h).2 ⟨rfl, hg⟩⟩
    · rintro ⟨h, hkept⟩
      rw [hgone.has_iff hkept]
      exact h

/-- **The directory when `dumpInnerSync` reaches the retention step**: what the clean-up
    left of it, and the two files of the dump. -/
theorem has_writtenSync_iff (d : DumpState Dir) (name : String) :
    (writtenSync host out session filePath d).files.has (host.dirOf filePath, name) = true
      ↔ (∃ suffix ∈ [".jsleaklist", ".heapsnapshot"],
          name = fileName host.process out.time suffix)
        ∨ (d.files.has (host.dirOf filePath, name) = true
            ∧ ¬ Cleared host out filePath d name) := by
  obtain ⟨heap, des, hcreate, -, hheap, hheap'⟩ := DumpParties.createHeapFile_spec host out
    filePath false (cleanUp host out filePath d)
  obtain ⟨files, ok, hwrite, -, hlist, hkept, hlist'⟩ := DumpParties.writeJsleaklist_spec host out
    session filePath false true
    { cleanUp host out filePath d with curTimeStamp := toString out.time, files := heap }
  rw [writtenSync, hcreate, hwrite]
  refine has_written_iff (fun n => ∃ suffix ∈ [".jsleaklist", ".heapsnapshot"],
    n = fileName host.process out.time suffix) (cleanUp_unlinked host out filePath d) ?_ ?_ name
  · refine SameBut.trans (b := heap) (hlist'.mono ?_) (hheap'.mono ?_)
    · exact fun q hq => ⟨_, List.mem_cons_self, hq⟩
    · exact fun q hq => ⟨_, List.mem_cons_of_mem _ List.mem_cons_self, hq⟩
  · rintro n ⟨suffix, hs, rfl⟩
    rcases List.mem_pair.mp hs with rfl | rfl
    · exact hlist
    · exact hkept _ hheap

/-- **The directory when `getJsleaklistFile` reaches the retention step.** With dumps on it
    has one file more, the leak list; with dumps off it has been cleaned up as well. -/
theorem has_writtenAsync_iff (d : DumpState Dir) (name : String) :
    let written := writtenAsync host out session filePath d
    written.files.has (host.dirOf filePath, name) = true
      ↔ name = getHeapBaseName host written ++ ".jsleaklist"
        ∨ (d.files.has (host.dirOf filePath, name) = true
            ∧ ¬ (d.dumpStatus = false ∧ Cleared host out filePath d name)) := by
  intro written
  obtain ⟨files, ok, hwrite, -, hlist, -, hlist'⟩ := DumpParties.writeJsleaklist_spec host out
    session filePath true d.dumpStatus (prepared host out filePath d)
  have hwritten : written = { prepared host out filePath d with files := files } :=
    congrArg Prod.fst hwrite
  have hgone : Unlinked (host.dirOf filePath)
      (fun n => d.dumpStatus = false ∧ Cleared host out filePath d n)
      (prepared host out filePath d).files d.files := by
    cases hstatus : d.dumpStatus with
    | true =>
        rw [prepared, if_pos hstatus]
        exact (unlinked_false _ d.files).congr (fun n =>
          ⟨False.elim, fun h => Bool.false_ne_true h.1.symm⟩)
    | false =>
        rw [prepared, hstatus, if_neg Bool.false_ne_true]
        exact (cleanUp_unlinked host out filePath d).congr (fun n => (and_iff_right rfl).symm)
  rw [hwritten]
  refine has_written_iff (fun n => n = getHeapBaseName host (prepared host out filePath d)
    ++ ".jsleaklist") hgone hlist' ?_ name
  rintro n rfl
  exact hlist

-- ── The names handed out ──────────────────────────────────────────────────────────

/-- The lists of names that a dump hands out: returned, given to the callback, or in the
    report. -/
def HandsOut (events : List DumpEvent) (list : List String) : Prop :=
  .returned list ∈ events ∨ .jsCallback list ∈ events
    ∨ ∃ report, .reportRawHeap report ∈ events
      ∧ report.leakListPath = Json.array (list.map Json.quote)

/-- Every name in a list that is not empty is that of a file in a directory; `path` stands
    before the names. -/
def NamesExist (dir : Dir) (path : String) (files : Files Dir) (list : List String) : Prop :=
  ∀ name ∈ list, name ≠ "" → ∃ file, name = path ++ file ∧ files.has (dir, file) = true

/-- `maxStoredHeapDumps` is set. -/
def storing (m : Nat) : Session :=
  { session with
    settings := setDumpFileSaveAmount { maxStoredHeapDumps := some (JsNum.ofNat m) }
      session.settings }

variable {m : Nat}

/-- Over a positive limit `deleteOldFile` returns. -/
theorem deleteOldFile_returns (hm : 0 < m) (files : Files Dir) :
    ∃ files' es, deleteOldFile host out filePath (storing session m).settings.maxFileNum files
        = (files', true, es) ∧ ∀ e ∈ es, e = .retention := by
  have hlimit : (storing session m).settings.maxFileNum = (JsNum.ofNat m).double :=
    maxFileNum_stored session.settings hm
  have hnone : ∀ {maxFileNum : JsNum},
      maxFileNum.lt (JsNum.ofNat (matching host out filePath files).length) = false →
      ∃ files' es, deleteOldFile host out filePath maxFileNum files = (files', true, es)
        ∧ ∀ e ∈ es, e = .retention := fun hlt =>
    ⟨files, [], deleteOldFile_within_limit host out filePath files hlt,
      fun e he => absurd he List.not_mem_nil⟩
  rw [hlimit]
  rcases double_ofNat m with hinf | hfin
  · rw [hinf]
    exact hnone rfl
  · rw [hfin]
    by_cases hover : 2 * m < (matching host out filePath files).length
    · obtain ⟨files', -, hrun, -⟩ :=
        deleteOldFile_spec host out filePath files (by omega) hover
      exact ⟨files', _, hrun, fun e he => List.mem_singleton.mp he⟩
    · refine hnone ?_
      rw [← Bool.not_eq_true, JsNum.lt_ofNat]
      exact hover

/-- The own files are not over the limit, or stand behind the cut of the sorted names. -/
def Spared (m : Nat) (names : List String) (base : String) (suffixes : List String) : Prop :=
  (JsNum.ofNat m).double.lt (JsNum.ofNat names.length) = false
    ∨ ∀ suffix ∈ suffixes, cut (2 * m) names ≤ (sortOldestFirst names).idxOf (base ++ suffix)

/-- **The retention step and the own files**: they are there afterwards exactly when they
    are spared. -/
theorem own_kept_iff (hm : 0 < m) {files : Files Dir} {base : String} {suffixes : List String}
    (hsuffixes : suffixes ⊆ dumpSuffixes)
    (hthere : ∀ suffix ∈ suffixes, files.has (host.dirOf filePath, base ++ suffix) = true) :
    (∀ suffix ∈ suffixes,
        (deleteOldFile host out filePath (storing session m).settings.maxFileNum files).1.has
          (host.dirOf filePath, base ++ suffix) = true)
      ↔ Spared m (matching host out filePath files) base suffixes := by
  have hlimit : (storing session m).settings.maxFileNum = (JsNum.ofNat m).double :=
    maxFileNum_stored session.settings hm
  have hkept : ∀ suffix ∈ suffixes, _ := fun suffix hs =>
    kept_iff_stored host out filePath files hm
      (mem_matching host out filePath files (hsuffixes hs) (hthere suffix hs))
  rw [hlimit]
  constructor
  · intro hall
    by_cases hlt : (JsNum.ofNat m).double.lt
        (JsNum.ofNat (matching host out filePath files).length) = false
    · exact Or.inl hlt
    · exact Or.inr (fun suffix hs =>
        ((hkept suffix hs).mp (hall suffix hs)).resolve_left hlt)
  · rintro (hlt | hbehind) suffix hs
    · exact (hkept suffix hs).mpr (Or.inl hlt)
    · exact (hkept suffix hs).mpr (Or.inr (hbehind suffix hs))

/-- A list that names the own files, with or without an empty name behind them. -/
theorem namesExist_iff {dir : Dir} {path base : String} {files : Files Dir}
    {suffixes : List String} {list : List String}
    (hlist : ∀ name, (name ∈ list ∧ name ≠ "")
      ↔ ∃ suffix ∈ suffixes, name = path ++ base ++ suffix) :
    NamesExist dir path files list
      ↔ ∀ suffix ∈ suffixes, files.has (dir, base ++ suffix) = true := by
  constructor
  · intro h suffix hs
    obtain ⟨hmem, hne⟩ := (hlist _).mpr ⟨suffix, hs, rfl⟩
    obtain ⟨file, hfile, hhas⟩ := h _ hmem hne
    rw [String.append_assoc, String.append_right_inj] at hfile
    rw [hfile]
    exact hhas
  · intro h name hmem hne
    obtain ⟨suffix, hs, rfl⟩ := (hlist name).mp ⟨hmem, hne⟩
    exact ⟨base ++ suffix, String.append_assoc, h suffix hs⟩

-- ── The synchronous call ──────────────────────────────────────────────────────────

/-- **A call of `dumpInnerSync` that is let through** returns the names of its two files
    after the retention step. -/
theorem dumpInnerSync_spec (hm : 0 < m) (hadm : DumpParties.admitted session out = true)
    (d : DumpState Dir) :
    let session := storing session m
    let written := writtenSync host out session filePath d
    let base := getHeapBaseName host written
    ∃ es, (∀ e ∈ es, e = .retention)
      ∧ dumpInnerSync host out session filePath false false d
        = ({ written with
              files := (deleteOldFile host out filePath session.settings.maxFileNum
                written.files).1 },
            es ++ [.returned [base ++ ".jsleaklist", base ++ ".heapsnapshot"]])
      ∧ ∀ suffix ∈ [".jsleaklist", ".heapsnapshot"],
          written.files.has (host.dirOf filePath, base ++ suffix) = true := by
  intro session' written base
  obtain ⟨heap, des, hcreate, -, hheap, -⟩ := DumpParties.createHeapFile_spec host out
    filePath false (cleanUp host out filePath d)
  obtain ⟨files, ok, hwrite, hok, hlist, hkept, -⟩ := DumpParties.writeJsleaklist_spec host out
    session' filePath false true
    { cleanUp host out filePath d with curTimeStamp := toString out.time, files := heap }
  obtain rfl : ok = true := hok (Or.inr hheap)
  have hwritten : written = { cleanUp host out filePath d with
      curTimeStamp := toString out.time, files := files } := by
    show writtenSync host out session' filePath d = _
    rw [writtenSync, hcreate, hwrite]
  obtain ⟨files', es, hold, hes⟩ :=
    deleteOldFile_returns host out session filePath hm written.files
  refine ⟨es, hes, ?_, ?_⟩
  · have hadm' : DumpParties.admitted session' out = true := hadm
    rw [DumpParties.dumpInnerSync_admitted host hadm', DumpParties.describeSync_eq, hcreate, hwrite]
    show DumpParties.deliverSync host out session' filePath _ = _
    rw [← hwritten, DumpParties.deliverSync, hold]
    rfl
  · intro suffix hs
    show written.files.has (host.dirOf filePath, getHeapBaseName host written ++ suffix) = true
    rw [hwritten]
    rcases List.mem_pair.mp hs with rfl | rfl
    · exact hlist
    · exact hkept _ hheap

/-- A retention step hands out nothing. -/
theorem handsOut_append {es tail : List DumpEvent} (hes : ∀ e ∈ es, e = .retention)
    (list : List String) : HandsOut (es ++ tail) list ↔ HandsOut tail list := by
  have hmem : ∀ e : DumpEvent, e ≠ .retention → (e ∈ es ++ tail ↔ e ∈ tail) := by
    intro e hne
    rw [List.mem_append, or_iff_right (fun h => hne (hes e h))]
  refine or_congr (hmem _ nofun) (or_congr (hmem _ nofun) ?_)
  exact exists_congr (fun report => and_congr_left' (hmem _ nofun))

/-- The only list a synchronous call hands out is the one it returns. -/
theorem handsOut_returned {es : List DumpEvent} (hes : ∀ e ∈ es, e = .retention)
    {names list : List String} :
    HandsOut (es ++ [.returned names]) list ↔ list = names := by
  rw [handsOut_append hes]
  simp only [HandsOut, List.mem_singleton, DumpEvent.returned.injEq, reduceCtorEq, false_and,
    exists_false, or_false]

-- ── The asynchronous call ─────────────────────────────────────────────────────────

/-- A leak list that was written with a hash has its heap file. -/
theorem heap_of_hashed (isRawHeap : Bool) (d : DumpState Dir)
    (h : (DumpParties.writeJsleaklist host out session filePath isRawHeap true d).2 = true) :
    (DumpParties.writeJsleaklist host out session filePath isRawHeap true d).1.files.has
      (host.dirOf filePath, getHeapBaseName host d ++ heapSuffix isRawHeap) = true := by
  rw [DumpParties.writeJsleaklist] at h ⊢
  dsimp only [getHeapBaseName] at h ⊢
  rw [if_pos rfl, getHeapDumpSHA256_eq] at h ⊢
  cases hget : (openCreate (host.dirOf filePath,
      getHeapPrefix host.process ++ d.curTimeStamp ++ ".jsleaklist") d.files).get
      (host.dirOf filePath,
        getHeapPrefix host.process ++ d.curTimeStamp ++ heapSuffix isRawHeap) with
  | none =>
      rw [hget] at h
      exact absurd h Bool.false_ne_true
  | some heap => exact has_writeSync _ _ _ ((OrderedMap.has_iff _ _).mpr ⟨heap, hget⟩)

/-- The files of a dump whose names `getJsleaklistFile` hands out. -/
def listedSuffixes (dumpStatus : Bool) : List String :=
  if dumpStatus then [".jsleaklist", ".rawheap"] else [".jsleaklist"]

omit [DecidableEq Dir] in
theorem listedSuffixes_subset (dumpStatus : Bool) : listedSuffixes dumpStatus ⊆ dumpSuffixes := by
  cases dumpStatus with
  | true => decide
  | false => decide

theorem prepared_dumpStatus (d : DumpState Dir) :
    (prepared host out filePath d).dumpStatus = d.dumpStatus := by
  rw [prepared]
  split
  · rfl
  · exact (DumpParties.cleanUp_variables host out filePath d).2

theorem getJsleaklistFile_eq_describe (d : DumpState Dir) :
    getJsleaklistFile host out session filePath true true true d
      = describe host out session filePath true true true (prepared host out filePath d) := by
  cases hstatus : d.dumpStatus with
  | true => rw [getJsleaklistFile_on hstatus, prepared, if_pos hstatus]
  | false =>
      rw [DumpParties.getJsleaklistFile_cleaned host out session filePath hstatus, prepared,
        hstatus, if_neg Bool.false_ne_true]

/-- The list of names that `getJsleaklistFile` makes. -/
def fileList (base : String) (dumpStatus : Bool) : List String :=
  [filePath ++ "/" ++ base ++ ".jsleaklist",
    if dumpStatus then filePath ++ "/" ++ base ++ ".rawheap" else ""]

/-- No file operation of a call fails: it does not fail, or only when the callback was called. -/
def Reaches (events : List DumpEvent) : Prop :=
  .failed ∈ events → ∃ list, .jsCallback list ∈ events

/-- What follows the callback: it throws, or the report has the same names. -/
def Closes (names : List String) (last : DumpEvent) : Prop :=
  last = .failed ∨ ∃ report, last = .reportRawHeap report
    ∧ report.leakListPath = Json.array (names.map Json.quote)

/-- **A call of `getJsleaklistFile` whose file operations do not fail** hands out the names of
    its files after the retention step, to the callback and in the report. -/
theorem getJsleaklistFile_spec (hm : 0 < m) (d : DumpState Dir)
    (hok : Reaches
      (getJsleaklistFile host out (storing session m) filePath true true true d).2) :
    let session := storing session m
    let call := getJsleaklistFile host out session filePath true true true d
    let written := writtenAsync host out session filePath d
    let base := getHeapBaseName host written
    call.1.files = (deleteOldFile host out filePath session.settings.maxFileNum written.files).1
    ∧ (∃ es last, (∀ e ∈ es, e = .retention)
        ∧ call.2 = es ++ [.jsCallback (fileList filePath base d.dumpStatus), last]
        ∧ Closes (fileList filePath base d.dumpStatus) last)
    ∧ ∀ suffix ∈ listedSuffixes d.dumpStatus,
        written.files.has (host.dirOf filePath, base ++ suffix) = true := by
  intro session' call written base
  have hstatus := prepared_dumpStatus host out filePath d
  obtain ⟨files, ok, hwrite, -, hlist, -, -⟩ := DumpParties.writeJsleaklist_spec host out
    session' filePath true d.dumpStatus (prepared host out filePath d)
  have hwritten : written = { prepared host out filePath d with files := files } :=
    congrArg Prod.fst hwrite
  have hcall : call = if ok then DumpFile.deliver host out session' filePath true true written
      else (written, [.failed]) := by
    show getJsleaklistFile host out session' filePath true true true d = _
    rw [getJsleaklistFile_eq_describe, DumpParties.describe_eq, hstatus, hwrite, hwritten]
    cases ok with
    | false => rfl
    | true => rfl
  have hreaches : Reaches call.2 := hok
  cases ok with
  | false =>
      rw [hcall] at hreaches
      obtain ⟨list, hlist⟩ := hreaches List.mem_cons_self
      exact DumpEvent.noConfusion (List.mem_singleton.mp hlist)
  | true =>
      obtain ⟨files', es, hold, hes⟩ :=
        deleteOldFile_returns host out session filePath hm written.files
      have hwstatus : written.dumpStatus = d.dumpStatus := by
        rw [hwritten]
        exact hstatus
      have hdeliver : call = DumpFile.deliver host out session' filePath true true written := hcall
      have hkeeps := (DumpFile.deliver_keeps host out session' filePath true true written).1
      have hevents : ∃ last, call.2
            = es ++ [.jsCallback (fileList filePath base d.dumpStatus), last]
          ∧ Closes (fileList filePath base d.dumpStatus) last := by
        rw [hdeliver, DumpFile.deliver, hold, ← hwstatus]
        cases out.callbackThrows with
        | false =>
            let reported := setReportData host out session' { written with
              files := files', leakListPath := fileList filePath base written.dumpStatus }
            exact ⟨.reportRawHeap reported.report, List.append_assoc es [_] [_],
              Or.inr ⟨_, rfl, rfl⟩⟩
        | true => exact ⟨.failed, List.append_assoc es [_] [_], Or.inl rfl⟩
      obtain ⟨last, hcalled, hlast⟩ := hevents
      refine ⟨?_, ⟨es, last, hes, hcalled, hlast⟩, ?_⟩
      · rw [hdeliver]
        exact hkeeps
      · intro suffix hs
        have hlisted : written.files.has (host.dirOf filePath, base ++ ".jsleaklist") = true := by
          show written.files.has (_, getHeapBaseName host written ++ ".jsleaklist") = true
          rw [hwritten]
          exact hlist
        cases hd : d.dumpStatus with
        | false =>
            rw [hd] at hs
            obtain rfl := List.mem_singleton.mp hs
            exact hlisted
        | true =>
            rw [hd] at hs hwrite
            rcases List.mem_pair.mp hs with rfl | rfl
            · exact hlisted
            · have hheap := heap_of_hashed host out session' filePath true
                (prepared host out filePath d) (congrArg Prod.snd hwrite)
              rw [hwrite] at hheap
              show written.files.has (_, getHeapBaseName host written ++ ".rawheap") = true
              rw [hwritten]
              exact hheap

/-- An asynchronous call hands out one list, to the callback and in the report. -/
theorem handsOut_jsCallback {es : List DumpEvent} (hes : ∀ e ∈ es, e = .retention)
    {names list : List String} {last : DumpEvent} (hlast : Closes names last) :
    HandsOut (es ++ [.jsCallback names, last]) list ↔ list = names := by
  rw [handsOut_append hes]
  rcases hlast with rfl | ⟨report, rfl, hreport⟩
  · simp only [HandsOut, List.mem_cons, List.not_mem_nil, or_false, DumpEvent.jsCallback.injEq,
      reduceCtorEq, false_or, false_and, exists_false]
  · simp only [HandsOut, List.mem_cons, List.not_mem_nil, or_false, DumpEvent.jsCallback.injEq,
      DumpEvent.reportRawHeap.injEq, reduceCtorEq, false_or, exists_eq_left, hreport]
    refine or_iff_left_of_imp ?_
    intro hpaths
    exact (pathsText_injective hpaths).symm

-- ── Every name exists ─────────────────────────────────────────────────────────────

/-- With one list handed out, its names exist exactly when the own files are spared. -/
theorem names_exist_iff (hm : 0 < m) {path base : String} {files files' : Files Dir}
    {suffixes names : List String} {events : List DumpEvent} (hsuffixes : suffixes ⊆ dumpSuffixes)
    (hthere : ∀ suffix ∈ suffixes, files.has (host.dirOf filePath, base ++ suffix) = true)
    (hhands : ∀ list, HandsOut events list ↔ list = names)
    (hnames : ∀ name, (name ∈ names ∧ name ≠ "")
      ↔ ∃ suffix ∈ suffixes, name = path ++ base ++ suffix)
    (hfiles : files' = (deleteOldFile host out filePath
      (storing session m).settings.maxFileNum files).1) :
    (∀ list, HandsOut events list → NamesExist (host.dirOf filePath) path files' list)
      ↔ Spared m (matching host out filePath files) base suffixes := by
  rw [← own_kept_iff host out session filePath hm hsuffixes hthere, hfiles,
    ← namesExist_iff hnames]
  constructor
  · exact fun h => h names ((hhands names).mpr rfl)
  · intro h list hlist
    rw [(hhands list).mp hlist]
    exact h

omit [DecidableEq Dir] in
/-- The names `dumpInnerSync` returns. -/
theorem mem_returned_iff (base name : String) :
    (name ∈ [base ++ ".jsleaklist", base ++ ".heapsnapshot"] ∧ name ≠ "")
      ↔ ∃ suffix ∈ [".jsleaklist", ".heapsnapshot"], name = "" ++ base ++ suffix := by
  simp only [List.mem_cons, List.not_mem_nil, or_false, exists_eq_or_imp, exists_eq_left,
    String.empty_append]
  refine and_iff_left_of_imp ?_
  rintro (rfl | rfl) hempty
  · exact absurd (congrArg String.toList hempty) (by simp)
  · exact absurd (congrArg String.toList hempty) (by simp)

omit [DecidableEq Dir] in
/-- The names `getJsleaklistFile` hands out. -/
theorem mem_fileList_iff (base name : String) (dumpStatus : Bool) :
    (name ∈ fileList filePath base dumpStatus ∧ name ≠ "")
      ↔ ∃ suffix ∈ listedSuffixes dumpStatus, name = filePath ++ "/" ++ base ++ suffix := by
  have hne : ∀ suffix : String, filePath ++ "/" ++ base ++ suffix ≠ "" := by
    intro suffix hempty
    exact absurd (congrArg String.toList hempty) (by simp)
  cases dumpStatus with
  | true =>
      simp only [fileList, listedSuffixes, if_true, List.mem_cons, List.not_mem_nil, or_false,
        exists_eq_or_imp, exists_eq_left]
      refine and_iff_left_of_imp ?_
      rintro (rfl | rfl)
      · exact hne _
      · exact hne _
  | false =>
      simp only [fileList, listedSuffixes, Bool.false_eq_true, if_false, List.mem_cons,
        List.not_mem_nil, or_false, exists_eq_left]
      constructor
      · rintro ⟨h, hname⟩
        exact h.resolve_right hname
      · rintro rfl
        exact ⟨Or.inl rfl, hne _⟩

/-- **When the names that are handed out exist**, for every directory, clock, listing order
    and positive `maxStoredHeapDumps`, in calls in which no file operation fails, whether the
    callback throws or not: the watcher is off and hands out nothing, or the own files are within
    the limit, or stand behind the cut of the sorted names. -/
theorem delivered_exist_iff (d : DumpState Dir) (hm : 0 < m) :
    let session' := storing session m
    let dir := host.dirOf filePath
    (let call := dumpInnerSync host out session' filePath false false d
      let written := writtenSync host out session' filePath d
      .failed ∉ call.2 →
        ((∀ list, HandsOut call.2 list → NamesExist dir "" call.1.files list)
          ↔ session.enabled = false
            ∨ Spared m (matching host out filePath written.files) (getHeapBaseName host written)
                [".jsleaklist", ".heapsnapshot"]))
    ∧ (let call := getJsleaklistFile host out session' filePath true true true d
      let written := writtenAsync host out session' filePath d
      Reaches call.2 →
        ((∀ list, HandsOut call.2 list → NamesExist dir (filePath ++ "/") call.1.files list)
          ↔ Spared m (matching host out filePath written.files) (getHeapBaseName host written)
              (listedSuffixes d.dumpStatus))) := by
  intro session' dir
  constructor
  · intro call written hok
    cases henabled : session.enabled with
    | false =>
        have hcall : call = (d, [.returned []]) := by
          show dumpInnerSync host out session' filePath false false d = _
          rw [dumpInnerSync, show session'.enabled = false from henabled]
          rfl
        refine iff_of_true ?_ (Or.inl rfl)
        intro list hlist
        rw [hcall] at hlist
        have hnone : ∀ e ∈ ([] : List DumpEvent), e = .retention := fun e he =>
          absurd he List.not_mem_nil
        rw [(handsOut_returned hnone).mp hlist]
        exact fun name hname => absurd hname List.not_mem_nil
    | true =>
        rw [or_iff_right (fun h => Bool.false_ne_true h.symm)]
        cases haccess : out.access with
        | false =>
            refine absurd ?_ hok
            show DumpEvent.failed ∈ (dumpInnerSync host out session' filePath false false d).2
            rw [dumpInnerSync, show session'.enabled = true from henabled, haccess]
            exact List.mem_cons_self
        | true =>
            have hadm : DumpParties.admitted session out = true := by
              rw [DumpParties.admitted, henabled, haccess]
              rfl
            obtain ⟨es, hes, hcall, hthere⟩ :=
              dumpInnerSync_spec host out session filePath hm hadm d
            have hcall' : call = _ := hcall
            rw [hcall']
            exact names_exist_iff host out session filePath hm (by decide) hthere
              (fun list => handsOut_returned hes) (mem_returned_iff _) rfl
  · intro call written hok
    obtain ⟨hfiles, ⟨es, last, hes, hevents, hlast⟩, hthere⟩ :=
      getJsleaklistFile_spec host out session filePath hm d hok
    have hevents' : call.2 = _ := hevents
    rw [hevents']
    exact names_exist_iff host out session filePath hm (listedSuffixes_subset d.dumpStatus) hthere
      (fun list => handsOut_jsCallback hes hlast)
      (fun name => mem_fileList_iff filePath _ name d.dumpStatus) hfiles

/-- A directory with the two files of a dump that has a later timestamp than the clock. -/
def laterDump : DumpState String :=
  { noFiles with
    files := (OrderedMap.empty.set ("jsleak", fileName ⟨200, 201⟩ 9 ".heapsnapshot") [1]).set
      ("jsleak", fileName ⟨200, 201⟩ 9 ".jsleaklist") [1] }

/-- Two dumps are to be kept: nothing is deleted. -/
theorem laterDump_kept :
    NamesExist "jsleak" "" (dumpInnerSync plainHost (outsideAt 6) (storing openSession 2) "jsleak"
        false false laterDump).1.files
      ["jsleakwatcher-100-101-6.jsleaklist", "jsleakwatcher-100-101-6.heapsnapshot"] :=
  ((delivered_exist_iff plainHost (outsideAt 6) openSession "jsleak" laterDump (m := 2)
    (by decide)).1 (by decide +kernel)).mpr (Or.inr (Or.inl (by decide +kernel))) _
    (Or.inl (by decide +kernel))

/-- One dump is to be kept. The dump just written is the older one by its name, and both
    its files are gone when their names are returned. -/
theorem delivered_evicted :
    ¬ ∀ (Dir : Type) (_ : DecidableEq Dir) (host : Host Dir) (out : Outside) (session : Session)
        (filePath : String) (m : Nat) (d : DumpState Dir), 0 < m →
        let sync := dumpInnerSync host out (storing session m) filePath false false d
        let async := getJsleaklistFile host out (storing session m) filePath true true true d
        (.failed ∉ sync.2 → ∀ list, HandsOut sync.2 list →
          NamesExist (host.dirOf filePath) "" sync.1.files list)
        ∧ (.failed ∉ async.2 → ∀ list, HandsOut async.2 list →
          NamesExist (host.dirOf filePath) (filePath ++ "/") async.1.files list) := by
  intro h
  obtain ⟨hsync, -⟩ := h String inferInstance plainHost (outsideAt 6) openSession "jsleak" 1
    laterDump Nat.one_pos
  obtain ⟨file, hfile, hhas⟩ := hsync (by decide +kernel)
    ["jsleakwatcher-100-101-6.jsleaklist", "jsleakwatcher-100-101-6.heapsnapshot"]
    (Or.inl (by decide +kernel)) "jsleakwatcher-100-101-6.jsleaklist" List.mem_cons_self
    (by decide)
  rw [String.empty_append] at hfile
  subst hfile
  exact absurd hhas (by decide +kernel)

end Delivered
