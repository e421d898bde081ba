import HiChecker.TransitionProofs
import HiChecker.DumpFileProofs

/-!
# Overlapping dumps and their names

An asynchronous dump starts in `dumpInner` and ends in a callback that may come at any
later time. The callback does not know the base name of its dump: it reads
`curTimeStamp` again, and `dumpStatus`, as they are by then. Every other dump that
starts in between writes them.

* **`Dumps`** — the dumps of one JS thread: starts, synchronous dumps, callbacks, and
  the dump threads writing their heap files, before their callbacks and after.
* **`NoOverlap`** — while a callback is outstanding, no other dump gets past its tests; and
  no thread changes a heap file that was hashed.
* **`dump_keeps_identity`** — in runs without overlap, every dump ends with its own
  `.jsleaklist` and a list of its own files, and the hash in the one stays that of the other.
-/

namespace DumpIdentity

open Transition JsValue OrderedMapLib WatcherConfig LeakRound FileStore DumpFile

variable {Dir : Type} (host : Host Dir)

-- ── The names of a dump ───────────────────────────────────────────────────────────

/-- The name of a file of the dump started at a time. -/
def dumpName (time : Nat) (suffix : String) : String :=
  getHeapPrefix host.process ++ toString time ++ suffix

/-- **A name determines its dump**: digits end where the suffix starts. -/
theorem dumpName_inj {time time' : Nat} {suffix suffix' : String}
    (hs : suffix ∈ dumpSuffixes) (hs' : suffix' ∈ dumpSuffixes)
    (h : dumpName host time suffix = dumpName host time' suffix') :
    time = time' ∧ suffix = suffix' := by
  have hdot : ∀ {s : String}, s ∈ dumpSuffixes → ∃ rest, s.toList = '.' :: rest := by
    intro s hmem
    rcases List.mem_cons.mp hmem with rfl | hmem
    · exact ⟨_, rfl⟩
    · rcases List.mem_cons.mp hmem with rfl | hmem
      · exact ⟨_, rfl⟩
      · obtain rfl := List.mem_singleton.mp hmem
        exact ⟨_, rfl⟩
  have htake : ∀ n : Nat, ∀ r, (Nat.toDigits 10 n ++ '.' :: r).takeWhile Char.isDigit
      = Nat.toDigits 10 n := by
    intro n r
    rw [List.takeWhile_append_of_pos
      (fun c hc => Nat.isDigit_of_mem_toDigits (by decide) (by decide) hc)]
    exact List.append_nil _
  have hlist : Nat.toDigits 10 time ++ suffix.toList
      = Nat.toDigits 10 time' ++ suffix'.toList := by
    have htl := congrArg String.toList h
    simp only [dumpName, String.toList_append, Nat.toString_eq_repr, Nat.toList_repr,
      List.append_assoc, List.append_cancel_left_eq] at htl
    exact htl
  obtain ⟨rest, hrest⟩ := hdot hs
  obtain ⟨rest', hrest'⟩ := hdot hs'
  rw [hrest, hrest'] at hlist
  have hdigits := congrArg (List.takeWhile Char.isDigit) hlist
  rw [htake, htake] at hdigits
  have htime : time = time' := by
    have hparse := congrArg (fun ds => Nat.ofDigitChars 10 ds 0) hdigits
    simpa only [Nat.ofDigitChars_ten_toDigits] using hparse
  refine ⟨htime, ?_⟩
  rw [htime] at hlist
  have hsuffix := List.append_cancel_left hlist
  rw [← hrest, ← hrest'] at hsuffix
  exact String.toList_inj.mp hsuffix

/-- A path of the dump started at a time. -/
def NamedAt (time : Nat) (p : Path Dir) : Prop :=
  ∃ suffix ∈ dumpSuffixes, p.2 = dumpName host time suffix

theorem namedAt (time : Nat) {suffix : String} (hs : suffix ∈ dumpSuffixes) (dir : Dir) :
    NamedAt host time (dir, dumpName host time suffix) :=
  ⟨suffix, hs, rfl⟩

theorem mem_rawheap : ".rawheap" ∈ dumpSuffixes := by decide

theorem mem_jsleaklist : ".jsleaklist" ∈ dumpSuffixes := by decide

theorem mem_heapsnapshot : ".heapsnapshot" ∈ dumpSuffixes := by decide

-- ── The dumps of one JS thread ────────────────────────────────────────────────────

/-- An asynchronous dump: what its closure holds, and the time it started, which its base
    name was made from. -/
structure Started where
  filePath : String
  time : Nat
deriving DecidableEq

/-- The variables of the dumps, those that were started, and the clock. -/
structure Dumps (Dir : Type) where
  dump : DumpState Dir
  session : Session
  /-- all that were started, in their order; each has a thread that writes its heap file -/
  threads : List Started
  /-- those whose callback did not run yet -/
  outstanding : List Started
  /-- when the last dump or callback ran -/
  clock : Nat

/-- What can happen next: a dump is called for, its thread writes, or its callback runs. -/
inductive Input where
  /-- the other module variables become what they like -/
  | setup (session : Session)
  /-- a call of `dumpInner`, as both of its callers make it -/
  | dumpInner (filePath : String) (out : Outside)
  /-- a call of the exported `dump` -/
  | dump (filePath : Option String) (out : Outside)
  /-- the thread of the `k`-th dump opens its heap file to append to it, and creates it when
      it is gone -/
  | heapOpen (k : Nat)
  /-- the thread of the `k`-th dump writes to its heap file -/
  | heapWrite (k : Nat) (bytes : List UInt8)
  /-- the callback of the `k`-th outstanding dump runs -/
  | complete (k : Nat) (out : Outside)

/-- The call started an asynchronous dump. -/
def starts (events : List DumpEvent) : Bool :=
  events.any (fun e => match e with
    | .dumpRawHeap _ => true
    | _ => false)

/-- Where a dump's file with this suffix is. -/
def Started.path (st : Started) (suffix : String) : Path Dir :=
  (host.dirOf st.filePath, dumpName host st.time suffix)

variable [DecidableEq Dir]

/-- The thread of the `k`-th dump works on its heap file. `DumpRawHeapImpl` posts the callback
    first and appends the metadata after it, so it may do so at any time. -/
def onHeap (s : Dumps Dir) (k : Nat) (change : Path Dir → Files Dir → Files Dir) :
    Option (Dumps Dir × List DumpEvent) :=
  match s.threads[k]? with
  | none => none
  | some st =>
      some ({ s with dump :=
        { s.dump with files := change (st.path host ".rawheap") s.dump.files } }, [])

/-- One step of the dumps; each dump finds a later time than those before it. -/
def step (s : Dumps Dir) : Input → Option (Dumps Dir × List DumpEvent)
  | .setup session => some ({ s with session := session }, [])
  | .dumpInner filePath out =>
      if s.clock < out.time then
        let call := dumpInner host out s.session filePath true true true s.dump
        let started := if starts call.2 then [{ filePath := filePath, time := out.time }] else []
        some ({ s with dump := call.1
                       clock := out.time
                       threads := s.threads ++ started
                       outstanding := s.outstanding ++ started }, call.2)
      else none
  | .dump filePath out =>
      if s.clock < out.time then
        match filePath with
        | none => some ({ s with clock := out.time }, [.failed])
        | some filePath =>
            let call := dumpInnerSync host out s.session filePath false false s.dump
            some ({ s with dump := call.1, clock := out.time }, call.2)
      else none
  | .heapOpen k => onHeap host s k openCreate
  | .heapWrite k bytes => onHeap host s k (fun p => appendTo p bytes)
  | .complete k out =>
      match s.outstanding[k]? with
      | none => none
      | some st =>
          if s.clock ≤ out.time then
            let call := getJsleaklistFile host out s.session st.filePath true true true s.dump
            some ({ s with dump := call.1
                           clock := out.time
                           outstanding := s.outstanding.eraseIdx k }, call.2)
          else none

/-- The dumps of a thread that finds the given state and files at module load. -/
def dumps (dump : DumpState Dir) (session : Session) (clock : Nat) :
    Machine (Dumps Dir) Input DumpEvent :=
  ⟨{ dump := dump, session := session, threads := [], outstanding := [], clock := clock },
    step host⟩

-- ── What a call leaves of the files ───────────────────────────────────────────────

/-- No file bears the name of a dump that is yet to start. -/
def Fresh (clock : Nat) (files : Files Dir) : Prop :=
  ∀ (dir : Dir) (time : Nat) (suffix : String), clock < time → suffix ∈ dumpSuffixes →
    files.get (dir, dumpName host time suffix) = none

variable {host}

/-- What is fresh stays fresh as time goes on. -/
theorem Fresh.mono {clock clock' : Nat} {files : Files Dir} (h : Fresh host clock files)
    (hle : clock ≤ clock') : Fresh host clock' files :=
  fun dir time suffix ht hs => h dir time suffix (Nat.lt_of_le_of_lt hle ht) hs

/-- Writing only under a name already made keeps later names free. -/
theorem Fresh.withinBut {clock time : Nat} (hle : time ≤ clock) {files files' : Files Dir}
    (h : Fresh host clock files) (hw : WithinBut (NamedAt host time) files' files) :
    Fresh host clock files' := by
  intro dir time' suffix ht hs
  refine hw.absent ?_ (h dir time' suffix ht hs)
  rintro ⟨suffix', hs', hname⟩
  obtain ⟨rfl, -⟩ := dumpName_inj host hs hs' hname
  exact absurd ht (Nat.not_lt.mpr hle)

-- ── What a call does to the files ─────────────────────────────────────────────────

omit [DecidableEq Dir] in
/-- The name of the moment, when `curTimeStamp` is that of a time. -/
theorem baseName_eq {d : DumpState Dir} {time : Nat} (h : d.curTimeStamp = toString time)
    (suffix : String) : getHeapBaseName host d ++ suffix = dumpName host time suffix := by
  show getHeapPrefix host.process ++ d.curTimeStamp ++ suffix = _
  rw [h]
  rfl

/-- With dumps on, `getJsleaklistFile` takes the base name of the moment. -/
theorem getJsleaklistFile_on {d : DumpState Dir} (hstatus : d.dumpStatus = true)
    (out : Outside) (session : Session) (filePath : String)
    (needSandBox isRawHeap jsCallback : Bool) :
    getJsleaklistFile host out session filePath needSandBox isRawHeap jsCallback d
      = describe host out session filePath needSandBox isRawHeap jsCallback d := by
  obtain ⟨dumpStatus, firstDump, curTimeStamp, leakListPath, report, files⟩ := d
  obtain rfl : dumpStatus = true := hstatus
  rfl

/-- With the heap dumped, nothing is prepared. -/
theorem prepared_on {d : DumpState Dir} (hstatus : d.dumpStatus = true) (out : Outside)
    (filePath : String) : prepared host out filePath d = d := if_pos hstatus

/-- With dumps off it makes a base name of its own. -/
theorem prepared_off {d : DumpState Dir} (hstatus : d.dumpStatus = false) (out : Outside)
    (filePath : String) :
    (prepared host out filePath d).curTimeStamp = toString out.time
      ∧ (prepared host out filePath d).dumpStatus = false := by
  obtain ⟨files, -, hclean⟩ := cleanUp_spec host out filePath d
  rw [prepared, if_neg (by rw [hstatus]; decide), hclean]
  exact ⟨rfl, hstatus⟩

/-- `getJsleaklistFile` touches only files of the base name that it works under. -/
theorem getJsleaklistFile_withinBut {out : Outside} {filePath : String} {d : DumpState Dir}
    {time : Nat} (hstamp : (prepared host out filePath d).curTimeStamp = toString time)
    (session : Session) (needSandBox jsCallback : Bool) :
    WithinBut (NamedAt host time)
      (getJsleaklistFile host out session filePath needSandBox true jsCallback d).1.files
      d.files := by
  have hfile : NamedAt host time
      (jsleaklistPath host filePath (prepared host out filePath d)) := by
    rw [jsleaklistPath, baseName_eq hstamp]
    exact namedAt host time mem_jsleaklist _
  have hopen := (sameBut_openCreate hfile (prepared host out filePath d).files).withinBut.trans
    ((prepared_within host out filePath d).but _)
  rw [getJsleaklistFile_writes]
  cases writtenText host out session.watchObjMap filePath d with
  | none => exact hopen
  | some text =>
      exact ((deliver_within host _ _ _ _ _ _).but _).trans
        ((sameBut_writeSync hfile _ _).withinBut.trans hopen)

/-- A dump is started in one of two parts. -/
theorem starts_append (es es' : List DumpEvent) :
    starts (es ++ es') = (starts es || starts es') := List.any_append

/-- A description starts no dump. -/
theorem starts_deliver (out : Outside) (session : Session) (filePath : String)
    (needSandBox jsCallback : Bool) (d : DumpState Dir) :
    starts (deliver host out session filePath needSandBox jsCallback d).2 = false := by
  have hold : starts (deleteOldFile host out filePath session.settings.maxFileNum d.files).2.2
      = false := by
    show starts (if _ then (_, _, _) else (_, _, _) : Files Dir × Bool × List DumpEvent).2.2
      = false
    split
    · rfl
    · rfl
  rcases deliver_cases host out session filePath needSandBox jsCallback d
    with heq | ⟨fileList, -, ⟨-, -, heq⟩ | ⟨-, heq⟩⟩
  · rw [heq, starts_append, hold]
    rfl
  · rw [heq, starts_append, starts_append, hold]
    rfl
  · rw [heq, starts_append, starts_append, hold]
    cases jsCallback with
    | false => rfl
    | true => rfl

/-- Describing a dump starts none. -/
theorem starts_describe (out : Outside) (session : Session) (filePath : String)
    (needSandBox isRawHeap jsCallback : Bool) (d : DumpState Dir) :
    starts (describe host out session filePath needSandBox isRawHeap jsCallback d).2
      = false := by
  show starts (match (if d.dumpStatus = true then _ else some "" : Option String) with
    | none => _
    | some heapDumpSHA256 => _ : DumpState Dir × List DumpEvent).2 = false
  split
  · rfl
  · exact starts_deliver _ _ _ _ _ _

-- ── How a dump starts ─────────────────────────────────────────────────────────────

variable (host) in
/-- A raw heap dump creates its heap file, under the name it was just given. -/
theorem createHeapDumpFile_raw (out : Outside) (filePath : String) (d : DumpState Dir) :
    ∃ files, Within files d.files ∧
      createHeapDumpFile host out filePath true false d
        = ({ d with firstDump := false
                    curTimeStamp := toString out.time
                    files := openCreate (host.dirOf filePath,
                      dumpName host out.time ".rawheap") files }, true,
            [.dumpRawHeap (filePath ++ "/" ++ dumpName host out.time ".rawheap")]) := by
  obtain ⟨files, hwithin, hclean⟩ := cleanUp_spec host out filePath d
  refine ⟨files, hwithin, ?_⟩
  simp only [createHeapDumpFile]
  rw [hclean]
  rfl

variable (host) in
/-- A heap snapshot is written in the sandbox and moved to its name. -/
theorem createHeapDumpFile_snapshot (out : Outside) (filePath : String)
    (d : DumpState Dir) :
    ∃ files, createHeapDumpFile host out filePath false true d
        = ({ d with firstDump := false
                    curTimeStamp := toString out.time
                    files := files }, true, [])
      ∧ files.get (host.dirOf filePath, dumpName host out.time ".heapsnapshot")
          = some out.heapData
      ∧ WithinBut (fun p => p.2 = dumpName host out.time ".heapsnapshot") files d.files := by
  obtain ⟨clean, hwithin, hclean⟩ := cleanUp_spec host out filePath d
  have hset : (clean.set (host.dirOf sandboxPath, dumpName host out.time ".heapsnapshot")
      out.heapData).get (host.dirOf sandboxPath, dumpName host out.time ".heapsnapshot")
      = some out.heapData := by
    rw [OrderedMap.get_set]
    exact if_pos rfl
  obtain ⟨files, hmove, hget, hbut⟩ := moveFileSync_spec
    (P := fun p => p.2 = dumpName host out.time ".heapsnapshot")
    (host.dirOf filePath, dumpName host out.time ".heapsnapshot") rfl hset
  have hsetBut : WithinBut (fun p => p.2 = dumpName host out.time ".heapsnapshot")
      (clean.set (host.dirOf sandboxPath, dumpName host out.time ".heapsnapshot")
        out.heapData) clean :=
    (sameBut_set (P := fun p => p.2 = dumpName host out.time ".heapsnapshot") rfl _ _).withinBut
  refine ⟨files, ?_, hget, hbut.trans (hsetBut.trans (hwithin.but _))⟩
  simp only [createHeapDumpFile]
  rw [hclean]
  exact moveHeapFile_of_some hmove

-- ── How a dump ends ───────────────────────────────────────────────────────────────

variable (host) in
omit [DecidableEq Dir] in
/-- Paths of one dump differ where the suffixes do. -/
theorem path_ne (dir : Dir) (time : Nat) {suffix suffix' : String}
    (hs : suffix ∈ dumpSuffixes) (hs' : suffix' ∈ dumpSuffixes) (hne : suffix ≠ suffix') :
    ¬ (dir, dumpName host time suffix) = (dir, dumpName host time suffix') := by
  intro h
  exact hne (dumpName_inj host hs hs' (congrArg Prod.snd h)).2

/-- The leak list goes to a new file, and the heap file of the dump stays what it was. -/
theorem get_listed (dir : Dir) {time : Nat} {suffix : String} (hs : suffix ∈ dumpSuffixes)
    (hne : suffix ≠ ".jsleaklist") {heap : List UInt8} {files : Files Dir}
    (hheap : files.get (dir, dumpName host time suffix) = some heap)
    (hlist : files.get (dir, dumpName host time ".jsleaklist") = none) (text : List UInt8) :
    let file := (dir, dumpName host time ".jsleaklist")
    (openCreate file files).get (dir, dumpName host time suffix) = some heap
      ∧ (writeSync file text (openCreate file files)).get (dir, dumpName host time suffix)
          = some heap
      ∧ (writeSync file text (openCreate file files)).get file = some text := by
  intro file
  have hpath := path_ne host dir time mem_jsleaklist hs hne.symm
  have hwrite := get_writeSync_openCreate hlist text
  refine ⟨?_, ?_, ?_⟩
  · rw [get_openCreate, if_neg hpath]
    exact hheap
  · rw [hwrite, if_neg hpath]
    exact hheap
  · rw [hwrite, if_pos rfl]

/-- With its heap file there, a callback writes the hash of the file. -/
theorem writtenText_of_heap {filePath : String} {time : Nat} {heap : List UInt8}
    {d : DumpState Dir} (hstatus : d.dumpStatus = true)
    (hstamp : d.curTimeStamp = toString time)
    (hheap : d.files.get (host.dirOf filePath, dumpName host time ".rawheap") = some heap)
    (out : Outside) (watchObjMap : WatchMap) :
    writtenText host out watchObjMap filePath d
      = some (resultText true (toHex (host.sha256 heap)) (getLeakList watchObjMap)) := by
  have hpath := path_ne host (host.dirOf filePath) time mem_jsleaklist mem_rawheap (by decide)
  simp only [writtenText, prepared_on hstatus, jsleaklistPath]
  rw [if_pos hstatus, baseName_eq hstamp, baseName_eq hstamp, getHeapDumpSHA256_eq,
    get_openCreate, if_neg hpath, hheap]
  rfl

/-- With dumps off there is no hash. -/
theorem writtenText_off {d : DumpState Dir} (hstatus : d.dumpStatus = false) (out : Outside)
    (watchObjMap : WatchMap) (filePath : String) :
    writtenText host out watchObjMap filePath d
      = some (resultText true "" (getLeakList watchObjMap)) := by
  simp only [writtenText]
  rw [if_neg (by rw [(prepared_off hstatus out filePath).2]; decide)]
  rfl

/-- What is there after a dump was there when its leak list was written. -/
theorem getJsleaklistFile_within {out : Outside} {session : Session} {filePath text : String}
    {d : DumpState Dir} {time : Nat}
    (hstamp : (prepared host out filePath d).curTimeStamp = toString time)
    (hwritten : writtenText host out session.watchObjMap filePath d = some text) :
    let file := (host.dirOf filePath, dumpName host time ".jsleaklist")
    Within (getJsleaklistFile host out session filePath true true true d).1.files
      (writeSync file (utf8 text) (openCreate file (prepared host out filePath d).files)) := by
  intro file
  have hfile : jsleaklistPath host filePath (prepared host out filePath d) = file := by
    rw [jsleaklistPath, baseName_eq hstamp]
  rw [getJsleaklistFile_writes, hwritten, ← hfile]
  exact deliver_within host _ _ _ _ _ _

/-- **The end of a dump**, within the retention limit: the leak list is written under the base
    name of the dump, and the callback gets its names. -/
theorem getJsleaklistFile_delivers {out : Outside} {session : Session} {filePath text : String}
    {d : DumpState Dir} {time : Nat}
    (hstamp : (prepared host out filePath d).curTimeStamp = toString time)
    (hwritten : writtenText host out session.watchObjMap filePath d = some text)
    (hret : DumpEvent.retention
      ∉ (getJsleaklistFile host out session filePath true true true d).2) :
    let file := (host.dirOf filePath, dumpName host time ".jsleaklist")
    ∃ d' report, getJsleaklistFile host out session filePath true true true d
        = (d', [.jsCallback [filePath ++ "/" ++ dumpName host time ".jsleaklist",
            if (prepared host out filePath d).dumpStatus then
              filePath ++ "/" ++ dumpName host time ".rawheap" else ""],
            if out.callbackThrows then .failed else .reportRawHeap report])
      ∧ d'.files
        = writeSync file (utf8 text) (openCreate file (prepared host out filePath d).files) := by
  intro file
  have hfile : jsleaklistPath host filePath (prepared host out filePath d) = file := by
    rw [jsleaklistPath, baseName_eq hstamp]
  have hjoin : ∀ suffix,
      filePath ++ "/" ++ getHeapBaseName host (prepared host out filePath d) ++ suffix
        = filePath ++ "/" ++ dumpName host time suffix := by
    intro suffix
    rw [String.append_assoc, baseName_eq hstamp]
  rw [getJsleaklistFile_writes] at hret ⊢
  simp only [hwritten] at hret ⊢
  obtain ⟨d', report, hdeliver, hfiles⟩ := deliver_of_no_retention host hret
  refine ⟨d', report, ?_, ?_⟩
  · rw [hdeliver]
    show (d', [DumpEvent.jsCallback
      [filePath ++ "/" ++ getHeapBaseName host (prepared host out filePath d) ++ ".jsleaklist",
        if (prepared host out filePath d).dumpStatus then
          filePath ++ "/" ++ getHeapBaseName host (prepared host out filePath d) ++ ".rawheap"
        else ""], _]) = _
    rw [hjoin, hjoin]
  · rw [hfiles, hfile]

/-- With its heap file there, a synchronous dump gets past the hash. -/
theorem describeSync_of_heap (out : Outside) (session : Session) {filePath : String}
    {time : Nat} {heap : List UInt8} {d : DumpState Dir}
    (hstamp : d.curTimeStamp = toString time)
    (hopen : (openCreate (host.dirOf filePath, dumpName host time ".jsleaklist") d.files).get
      (host.dirOf filePath, dumpName host time ".heapsnapshot") = some heap) :
    let old := deleteOldFile host out filePath session.settings.maxFileNum
      (writeSync (host.dirOf filePath, dumpName host time ".jsleaklist")
        (utf8 (resultText false (toHex (host.sha256 heap)) (getLeakList session.watchObjMap)))
        (openCreate (host.dirOf filePath, dumpName host time ".jsleaklist") d.files))
    describeSync host out session filePath false false d
      = if (!old.2.1) = true then ({ d with files := old.1 }, old.2.2 ++ [.failed, .returned []])
        else ({ d with files := old.1 }, old.2.2 ++
          [.returned [dumpName host time ".jsleaklist", dumpName host time ".heapsnapshot"]]) := by
  intro old
  show (match getHeapDumpSHA256 host out
        (host.dirOf filePath, getHeapBaseName host d ++ ".heapsnapshot")
        (openCreate (host.dirOf filePath, getHeapBaseName host d ++ ".jsleaklist") d.files) with
    | none => _
    | some hash =>
        let name := getHeapBaseName host d ++ ".jsleaklist"
        let text := resultText false hash (getLeakList session.watchObjMap)
        let files := openCreate (host.dirOf filePath, name) d.files
        let old := deleteOldFile host out filePath session.settings.maxFileNum
          (writeSync (host.dirOf filePath, name) (utf8 text) files)
        if (!old.2.1) = true then
          ({ d with files := old.1 }, old.2.2 ++ [DumpEvent.failed, .returned []])
        else ({ d with files := old.1 }, old.2.2 ++
          [DumpEvent.returned [name, getHeapBaseName host d ++ ".heapsnapshot"]])) = _
  rw [baseName_eq hstamp, baseName_eq hstamp, getHeapDumpSHA256_eq, hopen]
  rfl

/-- **A synchronous dump** does the same within one call. -/
theorem describeSync_own {out : Outside} {session : Session} {filePath : String}
    {time : Nat} {heap : List UInt8} {d : DumpState Dir}
    (hstamp : d.curTimeStamp = toString time)
    (hheap : d.files.get (host.dirOf filePath, dumpName host time ".heapsnapshot") = some heap)
    (hlist : d.files.get (host.dirOf filePath, dumpName host time ".jsleaklist") = none)
    (hret : DumpEvent.retention ∉ (describeSync host out session filePath false false d).2) :
    ∃ d', describeSync host out session filePath false false d
        = (d', [.returned [dumpName host time ".jsleaklist", dumpName host time ".heapsnapshot"]])
      ∧ d'.files.get (host.dirOf filePath, dumpName host time ".heapsnapshot") = some heap
      ∧ d'.files.get (host.dirOf filePath, dumpName host time ".jsleaklist")
          = some (utf8 (resultText false (toHex (host.sha256 heap))
              (getLeakList session.watchObjMap))) := by
  let text := utf8 (resultText false (toHex (host.sha256 heap)) (getLeakList session.watchObjMap))
  let files := writeSync (host.dirOf filePath, dumpName host time ".jsleaklist") text
    (openCreate (host.dirOf filePath, dumpName host time ".jsleaklist") d.files)
  obtain ⟨hopen, hheap', hlist'⟩ :=
    get_listed (host.dirOf filePath) mem_heapsnapshot (by decide) hheap hlist text
  have hrun := describeSync_of_heap out session hstamp hopen
  have hold : deleteOldFile host out filePath session.settings.maxFileNum files
      = (files, true, []) := by
    refine deleteOldFile_of_no_retention host ?_
    intro hmem
    rw [hrun] at hret
    refine hret ?_
    split
    · exact List.mem_append_left _ hmem
    · exact List.mem_append_left _ hmem
  refine ⟨{ d with files := files }, ?_, hheap', hlist'⟩
  rw [hrun]
  show (if (!(deleteOldFile host out filePath session.settings.maxFileNum files).2.1) = true
    then _ else _) = _
  rw [hold]
  rfl

/-- It touches only the files of its base name, whatever the retention does. -/
theorem describeSync_withinBut {time : Nat} (out : Outside) (session : Session)
    (filePath : String) (needSandBox isRawHeap : Bool) {d : DumpState Dir}
    (hstamp : d.curTimeStamp = toString time) :
    WithinBut (NamedAt host time)
      (describeSync host out session filePath needSandBox isRawHeap d).1.files d.files := by
  have hfile : NamedAt host time
      (host.dirOf filePath, getHeapBaseName host d ++ ".jsleaklist") := by
    rw [baseName_eq hstamp]
    exact namedAt host time mem_jsleaklist _
  have hopen := (sameBut_openCreate hfile d.files).withinBut
  show WithinBut _ (match getHeapDumpSHA256 host out _ _ with
    | none => _
    | some heapDumpSHA256 => _ : DumpState Dir × List DumpEvent).1.files d.files
  split
  · exact hopen
  · have hwritten : ∀ bytes, WithinBut (NamedAt host time)
        (deleteOldFile host out filePath session.settings.maxFileNum
          (writeSync (host.dirOf filePath, getHeapBaseName host d ++ ".jsleaklist") bytes
            (openCreate (host.dirOf filePath, getHeapBaseName host d ++ ".jsleaklist")
              d.files))).1 d.files := fun bytes =>
      ((deleteOldFile_within host out filePath _ _).but _).trans
        ((sameBut_writeSync hfile bytes _).withinBut.trans hopen)
    show WithinBut _ (if _ then _ else if _ then _ else _ :
      DumpState Dir × List DumpEvent).1.files d.files
    split
    · exact hwritten _
    · split
      · exact hwritten _
      · exact hwritten _

-- ── The calls, case by case ───────────────────────────────────────────────────────

/-- A call that does not get past the tests only reads the dump parameter. -/
theorem dumpInner_refused {out : Outside} {session : Session}
    (h : session.enabled = false ∨ out.access = false) (filePath : String)
    (needSandBox isRawHeap jsCallback : Bool) (d : DumpState Dir) :
    (dumpInner host out session filePath needSandBox isRawHeap jsCallback d).1
        = { d with dumpStatus := out.status }
      ∧ starts (dumpInner host out session filePath needSandBox isRawHeap jsCallback d).2
        = false := by
  rcases h with h | h
  · rw [dumpInner, h]
    exact ⟨rfl, rfl⟩
  · rw [dumpInner, h]
    cases session.enabled with
    | true => exact ⟨rfl, rfl⟩
    | false => exact ⟨rfl, rfl⟩

/-- With dumps off a call only writes a leak list. -/
theorem dumpInner_off {out : Outside} {session : Session} (henabled : session.enabled = true)
    (haccess : out.access = true) (hstatus : out.status = false) (filePath : String)
    (needSandBox isRawHeap jsCallback : Bool) (d : DumpState Dir) :
    dumpInner host out session filePath needSandBox isRawHeap jsCallback d
      = getJsleaklistFile host out session filePath needSandBox isRawHeap jsCallback
          { d with dumpStatus := false } := by
  rw [dumpInner, henabled, haccess, hstatus]
  rfl

/-- With dumps on a call starts an asynchronous raw heap dump. -/
theorem dumpInner_on {out : Outside} {session : Session} (henabled : session.enabled = true)
    (haccess : out.access = true) (hstatus : out.status = true) (filePath : String)
    (jsCallback : Bool) (d : DumpState Dir) :
    ∃ files, Within files d.files ∧
      dumpInner host out session filePath true true jsCallback d
        = ({ d with dumpStatus := true
                    firstDump := false
                    curTimeStamp := toString out.time
                    files := openCreate (host.dirOf filePath,
                      dumpName host out.time ".rawheap") files },
            [.dumpRawHeap (filePath ++ "/" ++ dumpName host out.time ".rawheap")]) := by
  obtain ⟨files, hwithin, hcreate⟩ :=
    createHeapDumpFile_raw host out filePath { d with dumpStatus := true }
  refine ⟨files, hwithin, ?_⟩
  rw [dumpInner, henabled, haccess, hstatus]
  show (if (!(createHeapDumpFile host out filePath true false
    { d with dumpStatus := true }).2.1) = true then _ else _) = _
  rw [hcreate]
  rfl

variable (host) in
/-- A disabled `dumpInner` does nothing. -/
theorem dumpInner_disabled {session : Session} (h : session.enabled = false) (out : Outside)
    (filePath : String) (jsCallback : Bool) (d : DumpState Dir) :
    (dumpInner host out session filePath true true jsCallback d).2 = [] := by
  rw [dumpInner, h]
  rfl

variable (host) in
/-- **`dumpInner`, while the watcher is enabled**, fails, describes the dump, or leaves it to a
    dump thread. -/
theorem dumpInner_cases {session : Session} (h : session.enabled = true) (out : Outside)
    (filePath : String) (jsCallback : Bool) (d : DumpState Dir) :
    let result := dumpInner host out session filePath true true jsCallback d
    result.2 = [.failed]
      ∨ (out.status = false
        ∧ result = getJsleaklistFile host out session filePath true true jsCallback
          { d with dumpStatus := out.status })
      ∨ ∃ desFilePath, result.2 = [.dumpRawHeap desFilePath] := by
  intro result
  cases haccess : out.access with
  | false =>
      refine Or.inl ?_
      simp only [result, dumpInner, h, haccess]
      rfl
  | true =>
      cases hstatus : out.status with
      | false => exact Or.inr (Or.inl ⟨rfl, dumpInner_off h haccess hstatus ..⟩)
      | true =>
          obtain ⟨files, -, hstarted⟩ : ∃ files, _ ∧ result = (_, [.dumpRawHeap _]) :=
            dumpInner_on h haccess hstatus filePath jsCallback d
          exact Or.inr (Or.inr ⟨_, congrArg Prod.snd hstarted⟩)

/-- A refused `dumpInnerSync` changes nothing. -/
theorem dumpInnerSync_refused {out : Outside} {session : Session}
    (h : session.enabled = false ∨ out.access = false) (filePath : String)
    (needSandBox isRawHeap : Bool) (d : DumpState Dir) :
    (dumpInnerSync host out session filePath needSandBox isRawHeap d).1 = d := by
  rcases h with h | h
  · rw [dumpInnerSync, h]
    rfl
  · rw [dumpInnerSync, h]
    cases session.enabled with
    | true => rfl
    | false => rfl

variable (host) in
/-- A synchronous dump gets a heap file of its own name before it is described. -/
theorem dumpInnerSync_on {out : Outside} {session : Session}
    (henabled : session.enabled = true) (haccess : out.access = true) (filePath : String)
    (d : DumpState Dir) :
    ∃ d₀, dumpInnerSync host out session filePath false false d
        = describeSync host out session filePath false false d₀
      ∧ d₀.curTimeStamp = toString out.time
      ∧ d₀.files.get (host.dirOf filePath, dumpName host out.time ".heapsnapshot")
          = some out.heapData
      ∧ WithinBut (fun p => p.2 = dumpName host out.time ".heapsnapshot") d₀.files d.files := by
  obtain ⟨files, hcreate, hheap, hbut⟩ :=
    createHeapDumpFile_snapshot host out filePath d
  refine ⟨{ d with firstDump := false
                   curTimeStamp := toString out.time
                   files := files }, ?_, rfl, hheap, hbut⟩
  rw [dumpInnerSync, henabled, haccess]
  show (if (!(createHeapDumpFile host out filePath false true d).2.1) = true then _
    else describeSync host out session filePath false false
      (createHeapDumpFile host out filePath false true d).1) = _
  rw [hcreate]
  rfl

-- ── Runs without overlap ──────────────────────────────────────────────────────────

/-- The callback of a dump ran, and the leak list that it wrote is there. -/
def Hashed (host : Host Dir) (s : Dumps Dir) (st : Started) : Prop :=
  st ∉ s.outstanding ∧ s.dump.files.has (st.path host ".jsleaklist") = true

instance (host : Host Dir) (s : Dumps Dir) (st : Started) : Decidable (Hashed host s st) :=
  inferInstanceAs (Decidable (_ ∧ _))

/-- While a callback is outstanding no other dump gets past its tests, and no call of
    `dumpInner` reads the dump parameter as off. And a thread that is late, because its
    callback ran and hashed the heap file, leaves this file as it is. -/
def NoOverlap (host : Host Dir) : Dumps Dir → Input → Prop
  | s, .dumpInner _ out =>
      s.outstanding = []
        ∨ (out.status = true ∧ (s.session.enabled = false ∨ out.access = false))
  | s, .dump (some _) out =>
      s.outstanding = [] ∨ s.session.enabled = false ∨ out.access = false
  | s, .heapOpen k => ∀ st ∈ s.threads[k]?, Hashed host s st →
      s.dump.files.has (st.path host ".rawheap") = true
  | s, .heapWrite k bytes => ∀ st ∈ s.threads[k]?, Hashed host s st →
      bytes = [] ∨ s.dump.files.has (st.path host ".rawheap") = false
  | _, _ => True

instance (host : Host Dir) : DecidableRel (NoOverlap host)
  | _, .setup _ => isTrue trivial
  | s, .dumpInner _ out =>
      inferInstanceAs (Decidable (s.outstanding = []
        ∨ (out.status = true ∧ (s.session.enabled = false ∨ out.access = false))))
  | _, .dump none _ => isTrue trivial
  | s, .dump (some _) out =>
      inferInstanceAs (Decidable (s.outstanding = [] ∨ s.session.enabled = false
        ∨ out.access = false))
  | s, .heapOpen k =>
      inferInstanceAs (Decidable (∀ st ∈ s.threads[k]?, Hashed host s st →
        s.dump.files.has (st.path host ".rawheap") = true))
  | s, .heapWrite k bytes =>
      inferInstanceAs (Decidable (∀ st ∈ s.threads[k]?, Hashed host s st →
        bytes = [] ∨ s.dump.files.has (st.path host ".rawheap") = false))
  | _, .complete _ _ => isTrue trivial

/-- Where the leak list and the heap file of a dump are both there, the one has the hash of
    the other. -/
def HashAgrees (host : Host Dir) (files : Files Dir) (st : Started) : Prop :=
  ∀ heap list, files.get (st.path host ".rawheap") = some heap →
    files.get (st.path host ".jsleaklist") = some list →
      ∃ leaks, list = utf8 (resultText true (toHex (host.sha256 heap)) leaks)

omit [DecidableEq Dir] in
/-- The files of another dump have other names. -/
theorem not_namedAt {st : Started} {time : Nat} (hne : st.time ≠ time) {suffix : String}
    (hs : suffix ∈ dumpSuffixes) : ¬ NamedAt host time (st.path host suffix) := by
  rintro ⟨suffix', hs', hname⟩
  exact hne (dumpName_inj host hs hs' hname).1

/-- A hash stays right while the two files stay, or go. -/
theorem HashAgrees.of_files {files files' : Files Dir} {st : Started}
    (h : HashAgrees host files st)
    (hfiles : ∀ suffix ∈ dumpSuffixes, files'.get (st.path host suffix) = none
      ∨ files'.get (st.path host suffix) = files.get (st.path host suffix)) :
    HashAgrees host files' st := by
  intro heap list hheap hlist
  have hsame : ∀ {suffix : String} {bytes : List UInt8}, suffix ∈ dumpSuffixes →
      files'.get (st.path host suffix) = some bytes →
        files.get (st.path host suffix) = some bytes := by
    intro suffix bytes hs hbytes
    rcases hfiles suffix hs with hnone | hkept
    · exact absurd (hnone.symm.trans hbytes).symm (Option.some_ne_none bytes)
    · exact hkept.symm.trans hbytes
  exact h heap list (hsame mem_rawheap hheap) (hsame mem_jsleaklist hlist)

/-- What another dump does leaves it right. -/
theorem HashAgrees.other {files files' : Files Dir} {st : Started} {time : Nat}
    (h : HashAgrees host files st) (hne : st.time ≠ time)
    (hw : WithinBut (NamedAt host time) files' files) : HashAgrees host files' st :=
  h.of_files (fun _ hs => (hw _).resolve_left (not_namedAt hne hs))

/-- The outstanding dump is the only one, and the module variables still say its name. -/
structure Owns (host : Host Dir) (s : Dumps Dir) (st : Started) : Prop where
  only : s.outstanding = [st]
  started : st ∈ s.threads
  status : s.dump.dumpStatus = true
  stamp : s.dump.curTimeStamp = toString st.time
  heap : s.dump.files.has (st.path host ".rawheap") = true
  list : s.dump.files.get (st.path host ".jsleaklist") = none

/-- The invariant: later names are free, earlier ones distinct, an outstanding dump owns the
    names, and the hashes written by the others are right. -/
structure Inv (host : Host Dir) (s : Dumps Dir) : Prop where
  fresh : Fresh host s.clock s.dump.files
  past : ∀ st ∈ s.threads, st.time ≤ s.clock
  distinct : ∀ st ∈ s.threads, ∀ st' ∈ s.threads, st.time = st'.time → st = st'
  owns : s.outstanding = [] ∨ ∃ st, Owns host s st
  agrees : ∀ st ∈ s.threads, st ∉ s.outstanding → HashAgrees host s.dump.files st

/-- A call that only reads the dump parameter keeps the invariant. -/
theorem Inv.keep {s : Dumps Dir} (hI : Inv host s) {clock : Nat} (hclock : s.clock ≤ clock)
    {status : Bool} (hstatus : s.outstanding = [] ∨ s.dump.dumpStatus = status ∨ status = true)
    (session : Session) :
    Inv host { s with dump := { s.dump with dumpStatus := status }
                      session := session
                      clock := clock } where
  fresh := hI.fresh.mono hclock
  past := fun st hst => Nat.le_trans (hI.past st hst) hclock
  distinct := hI.distinct
  agrees := hI.agrees
  owns := by
    rcases hI.owns with hnil | ⟨st, hst⟩
    · exact Or.inl hnil
    · rcases hstatus with hnil | hsame | hon
      · exact Or.inl hnil
      · exact Or.inr ⟨st, { hst with status := hsame.symm.trans hst.status }⟩
      · exact Or.inr ⟨st, { hst with status := hon }⟩

/-- With nothing outstanding, so does what is done under a new name. -/
theorem Inv.renew {s : Dumps Dir} (hI : Inv host s) {time : Nat} (hclock : s.clock < time)
    (hnil : s.outstanding = []) {d : DumpState Dir}
    (hw : WithinBut (NamedAt host time) d.files s.dump.files) :
    Inv host { s with dump := d, clock := time } where
  fresh := (hI.fresh.mono (Nat.le_of_lt hclock)).withinBut (Nat.le_refl _) hw
  past := fun st hst => Nat.le_trans (hI.past st hst) (Nat.le_of_lt hclock)
  distinct := hI.distinct
  owns := Or.inl hnil
  agrees := by
    intro st hst hout
    have hpast : st.time ≠ time :=
      Nat.ne_of_lt (Nat.lt_of_le_of_lt (hI.past st hst) hclock)
    exact (hI.agrees st hst hout).other hpast hw

/-- A dump that starts then owns the names. -/
theorem Inv.start {s : Dumps Dir} (hI : Inv host s) (st : Started) (hclock : s.clock < st.time)
    (hnil : s.outstanding = []) {d : DumpState Dir}
    (hw : WithinBut (NamedAt host st.time) d.files s.dump.files) (hstatus : d.dumpStatus = true)
    (hstamp : d.curTimeStamp = toString st.time)
    (hheap : d.files.has (st.path host ".rawheap") = true)
    (hlist : d.files.get (st.path host ".jsleaklist") = none) :
    Inv host { s with dump := d
                      clock := st.time
                      threads := s.threads ++ [st]
                      outstanding := s.outstanding ++ [st] } := by
  have hrenewed := hI.renew hclock hnil hw
  have hpast : ∀ st' ∈ s.threads, st'.time ≠ st.time := fun st' hst' =>
    Nat.ne_of_lt (Nat.lt_of_le_of_lt (hI.past st' hst') hclock)
  refine ⟨hrenewed.fresh, ?_, ?_, Or.inr ⟨st, ⟨by rw [hnil]; rfl,
    List.mem_append_right _ List.mem_cons_self, hstatus, hstamp, hheap, hlist⟩⟩, ?_⟩
  · intro st' hst'
    rcases List.mem_append.mp hst' with hold | hnew
    · exact hrenewed.past st' hold
    · obtain rfl := List.mem_singleton.mp hnew
      exact Nat.le_refl _
  · intro st₁ h₁ st₂ h₂ htime
    rcases List.mem_append.mp h₁ with hold₁ | hnew₁
    · rcases List.mem_append.mp h₂ with hold₂ | hnew₂
      · exact hI.distinct st₁ hold₁ st₂ hold₂ htime
      · obtain rfl := List.mem_singleton.mp hnew₂
        exact absurd htime (hpast st₁ hold₁)
    · obtain rfl := List.mem_singleton.mp hnew₁
      rcases List.mem_append.mp h₂ with hold₂ | hnew₂
      · exact absurd htime.symm (hpast st₂ hold₂)
      · exact (List.mem_singleton.mp hnew₂).symm
  · intro st' hst' hout
    rcases List.mem_append.mp hst' with hold | hnew
    · exact hrenewed.agrees st' hold (fun h => hout (List.mem_append_left _ h))
    · exact absurd (List.mem_append_right _ hnew) hout

/-- The outstanding dump is the one that owns the names. -/
theorem Inv.owns_of_mem {s : Dumps Dir} (hI : Inv host s) {st : Started}
    (hst : st ∈ s.outstanding) : Owns host s st := by
  rcases hI.owns with hnil | ⟨st', howns⟩
  · rw [hnil] at hst
    exact nomatch hst
  · rw [howns.only] at hst
    obtain rfl := List.mem_singleton.mp hst
    exact howns

/-- The state after a call of `dumpInner`. -/
def afterDumpInner (host : Host Dir) (s : Dumps Dir) (filePath : String) (out : Outside) :
    Dumps Dir :=
  let call := dumpInner host out s.session filePath true true true s.dump
  let started := if starts call.2 then [{ filePath := filePath, time := out.time }] else []
  { s with dump := call.1
           clock := out.time
           threads := s.threads ++ started
           outstanding := s.outstanding ++ started }

/-- A call that starts no dump adds nothing to wait for. -/
theorem afterDumpInner_quiet {s : Dumps Dir} {filePath : String} {out : Outside}
    (h : starts (dumpInner host out s.session filePath true true true s.dump).2 = false) :
    afterDumpInner host s filePath out = { s with
      dump := (dumpInner host out s.session filePath true true true s.dump).1
      clock := out.time } := by
  simp only [afterDumpInner, h, Bool.false_eq_true, if_false, List.append_nil]

/-- With dumps off and nothing outstanding, a call only writes under a new name. -/
theorem inv_dumpInner_off {s : Dumps Dir} (hI : Inv host s) {filePath : String}
    {out : Outside} (hclock : s.clock < out.time) (hnil : s.outstanding = [])
    (henabled : s.session.enabled = true) (haccess : out.access = true)
    (hstatus : out.status = false) : Inv host (afterDumpInner host s filePath out) := by
  have hcall : dumpInner host out s.session filePath true true true s.dump = _ :=
    dumpInner_off henabled haccess hstatus filePath true true true s.dump
  have hquiet : starts (dumpInner host out s.session filePath true true true s.dump).2
      = false := by
    rw [hcall]
    exact starts_describe _ _ _ _ _ _ _
  rw [afterDumpInner_quiet hquiet, hcall]
  exact hI.renew hclock hnil (getJsleaklistFile_withinBut
    (prepared_off (d := { s.dump with dumpStatus := false }) rfl out filePath).1 s.session true
    true)

/-- With dumps on and nothing outstanding, a call starts the dump that owns the names. -/
theorem inv_dumpInner_on {s : Dumps Dir} (hI : Inv host s) {filePath : String}
    {out : Outside} (hclock : s.clock < out.time) (hnil : s.outstanding = [])
    (henabled : s.session.enabled = true) (haccess : out.access = true)
    (hstatus : out.status = true) : Inv host (afterDumpInner host s filePath out) := by
  obtain ⟨files, hwithin, hon⟩ : ∃ files, Within files s.dump.files ∧
      dumpInner host out s.session filePath true true true s.dump = _ :=
    dumpInner_on henabled haccess hstatus filePath true s.dump
  -- the name is new, so there is no leak list under it yet
  have hnew := hI.fresh (host.dirOf filePath) out.time ".jsleaklist" hclock mem_jsleaklist
  have hne := path_ne host (host.dirOf filePath) out.time
    mem_rawheap mem_jsleaklist (by decide)
  rw [afterDumpInner, hon]
  refine hI.start { filePath := filePath, time := out.time } hclock hnil
    ((sameBut_openCreate (namedAt host out.time mem_rawheap _) files).withinBut.trans
      (hwithin.but _)) rfl rfl ?_ ?_
  · exact has_openCreate _ _ (Or.inl rfl)
  · refine (get_openCreate _ _ _).trans ((if_neg hne).trans ?_)
    exact hwithin.absent hnew

/-- **A call of `dumpInner` keeps the invariant.** -/
theorem inv_dumpInner {s : Dumps Dir} (hI : Inv host s) {filePath : String} {out : Outside}
    (hclock : s.clock < out.time) (hG : NoOverlap host s (.dumpInner filePath out)) :
    Inv host (afterDumpInner host s filePath out) := by
  by_cases hrefused : s.session.enabled = false ∨ out.access = false
  · obtain ⟨hkept, hquiet⟩ := dumpInner_refused hrefused filePath true true true s.dump
    rw [afterDumpInner_quiet hquiet, hkept]
    exact hI.keep (Nat.le_of_lt hclock) (hG.imp id (fun h => Or.inr h.1)) s.session
  · obtain ⟨henabled, haccess⟩ := not_or.mp hrefused
    rw [Bool.not_eq_false] at henabled haccess
    have hnil : s.outstanding = [] := hG.resolve_right (fun h => hrefused h.2)
    cases hstatus : out.status with
    | false => exact inv_dumpInner_off hI hclock hnil henabled haccess hstatus
    | true => exact inv_dumpInner_on hI hclock hnil henabled haccess hstatus

/-- A call of the exported `dump` keeps it. -/
theorem inv_dump {s : Dumps Dir} (hI : Inv host s) {filePath : String} {out : Outside}
    (hclock : s.clock < out.time) (hG : NoOverlap host s (.dump (some filePath) out)) :
    Inv host { s with
      dump := (dumpInnerSync host out s.session filePath false false s.dump).1
      clock := out.time } := by
  by_cases hrefused : s.session.enabled = false ∨ out.access = false
  · rw [dumpInnerSync_refused hrefused]
    exact hI.keep (Nat.le_of_lt hclock) (Or.inr (Or.inl rfl)) s.session
  · obtain ⟨henabled, haccess⟩ := not_or.mp hrefused
    rw [Bool.not_eq_false] at henabled haccess
    have hnil : s.outstanding = [] := hG.resolve_right hrefused
    obtain ⟨d₀, hcall, hstamp, -, hbut⟩ :=
      dumpInnerSync_on host henabled haccess filePath s.dump
    rw [hcall]
    refine hI.renew hclock hnil ?_
    exact (describeSync_withinBut out s.session filePath false false hstamp).trans
      (hbut.mono (fun _ hname => ⟨_, mem_heapsnapshot, hname⟩))

/-- **A thread at work on its heap file keeps it**, unless it changes what was hashed. -/
theorem inv_onHeap {s : Dumps Dir} (hI : Inv host s) {st : Started} (hst : st ∈ s.threads)
    {files : Files Dir}
    (hbut : SameBut (fun p => p = st.path host ".rawheap") files s.dump.files)
    (hthere : s.dump.files.has (st.path host ".rawheap") = true →
      files.has (st.path host ".rawheap") = true)
    (hlate : Hashed host s st → files.get (st.path host ".rawheap")
      = s.dump.files.get (st.path host ".rawheap")) :
    Inv host { s with dump := { s.dump with files := files } } := by
  have hat : WithinBut (NamedAt host st.time) files s.dump.files :=
    (hbut.mono (fun p hp => hp ▸ namedAt host st.time mem_rawheap _)).withinBut
  have hlist : files.get (st.path host ".jsleaklist")
      = s.dump.files.get (st.path host ".jsleaklist") :=
    hbut _ (path_ne host _ _ mem_jsleaklist mem_rawheap (by decide))
  refine ⟨hI.fresh.withinBut (hI.past st hst) hat, hI.past, hI.distinct, ?_, ?_⟩
  · rcases hI.owns with hnil | ⟨st', howns⟩
    · exact Or.inl hnil
    · refine Or.inr ⟨st', ⟨howns.only, howns.started, howns.status, howns.stamp, ?_, ?_⟩⟩
      · by_cases hsame : st'.time = st.time
        · obtain rfl := hI.distinct st' howns.started st hst hsame
          exact hthere howns.heap
        · have hother : ¬ st'.path host ".rawheap" = st.path host ".rawheap" := by
            intro heq
            have hname : ¬ NamedAt host st.time (st'.path host ".rawheap") :=
              not_namedAt hsame mem_rawheap
            rw [heq] at hname
            exact hname (namedAt host st.time mem_rawheap _)
          exact (has_congr (hbut _ hother)).trans howns.heap
      · by_cases hsame : st'.time = st.time
        · obtain rfl := hI.distinct st' howns.started st hst hsame
          exact hlist.trans howns.list
        · exact hat.absent (not_namedAt hsame mem_jsleaklist) howns.list
  · intro st' hst' hout
    by_cases hsame : st'.time = st.time
    · obtain rfl := hI.distinct st' hst' st hst hsame
      intro heap list hheap hfound
      rw [hlist] at hfound
      have hhashed : Hashed host s st' :=
        ⟨hout, (OrderedMap.has_iff _ _).mpr ⟨list, hfound⟩⟩
      exact hI.agrees st' hst' hout heap list ((hlate hhashed).symm.trans hheap) hfound
    · exact (hI.agrees st' hst' hout).other hsame hat

/-- The files when a callback has written the leak list of the dump that owns the names. -/
theorem Owns.written {s : Dumps Dir} {st : Started} (h : Owns host s st) (out : Outside) :
    ∃ heap, s.dump.files.get (st.path host ".rawheap") = some heap
      ∧ writtenText host out s.session.watchObjMap st.filePath s.dump
        = some (resultText true (toHex (host.sha256 heap)) (getLeakList s.session.watchObjMap))
      ∧ ∀ text, let file := st.path host ".jsleaklist"
        (writeSync file text (openCreate file s.dump.files)).get (st.path host ".rawheap")
            = some heap
          ∧ (writeSync file text (openCreate file s.dump.files)).get file = some text := by
  obtain ⟨heap, hheap⟩ := (OrderedMap.has_iff _ _).mp h.heap
  refine ⟨heap, hheap, writtenText_of_heap h.status h.stamp hheap out _, fun text => ?_⟩
  exact (get_listed (host.dirOf st.filePath) mem_rawheap (by decide) hheap h.list text).2

/-- The leak list is named as its heap file. -/
theorem Owns.prepared {s : Dumps Dir} {st : Started} (h : Owns host s st) (out : Outside) :
    (prepared host out st.filePath s.dump).curTimeStamp = toString st.time := by
  rw [prepared_on h.status]
  exact h.stamp

/-- The callback of an outstanding dump keeps it. -/
theorem inv_complete {s : Dumps Dir} (hI : Inv host s) {k : Nat} {st : Started}
    (hk : s.outstanding[k]? = some st) {out : Outside} (hclock : s.clock ≤ out.time) :
    Inv host { s with
      dump := (getJsleaklistFile host out s.session st.filePath true true true s.dump).1
      clock := out.time
      outstanding := s.outstanding.eraseIdx k } := by
  have howns := hI.owns_of_mem (List.mem_of_getElem? hk)
  have hat := getJsleaklistFile_withinBut (howns.prepared out) s.session true true
  have hle : st.time ≤ out.time := Nat.le_trans (hI.past st howns.started) hclock
  refine ⟨(hI.fresh.mono hclock).withinBut hle hat,
    fun st' hst' => Nat.le_trans (hI.past st' hst') hclock, hI.distinct, Or.inl ?_, ?_⟩
  · show s.outstanding.eraseIdx k = []
    rw [howns.only] at hk ⊢
    cases k with
    | zero => rfl
    | succ k => exact nomatch hk
  · intro st' hst' _
    by_cases hsame : st'.time = st.time
    · obtain rfl := hI.distinct st' hst' st howns.started hsame
      obtain ⟨heap, -, hwritten, hfiles⟩ := howns.written out
      have hwithin := getJsleaklistFile_within (howns.prepared out) hwritten
      rw [prepared_on howns.status] at hwithin
      have hagrees : HashAgrees host (writeSync (st'.path host ".jsleaklist")
          (utf8 (resultText true (toHex (host.sha256 heap))
            (getLeakList s.session.watchObjMap)))
          (openCreate (st'.path host ".jsleaklist") s.dump.files)) st' := by
        intro heap' list hheap' hlist
        obtain rfl := Option.some.inj ((hfiles _).1.symm.trans hheap')
        obtain rfl := Option.some.inj ((hfiles _).2.symm.trans hlist)
        exact ⟨_, rfl⟩
      exact hagrees.of_files (fun _ _ => hwithin _)
    · refine (hI.agrees st' hst' ?_).other hsame hat
      rw [howns.only]
      exact fun h => hsame (congrArg Started.time (List.mem_singleton.mp h))

omit [DecidableEq Dir] in
/-- What a step of a dump thread does. -/
theorem onHeap_cases {s s' : Dumps Dir} {k : Nat} {change : Path Dir → Files Dir → Files Dir}
    {es : List DumpEvent} (hs : onHeap host s k change = some (s', es)) :
    ∃ st, s.threads[k]? = some st ∧ es = []
      ∧ s' = { s with dump :=
        { s.dump with files := change (st.path host ".rawheap") s.dump.files } } := by
  rw [onHeap] at hs
  cases hk : s.threads[k]? with
  | none =>
      rw [hk] at hs
      exact nomatch hs
  | some st =>
      rw [hk] at hs
      obtain ⟨rfl, rfl⟩ := Prod.mk.inj (Option.some.inj hs)
      exact ⟨st, rfl, rfl, rfl⟩

/-- What a step that runs a callback does. -/
theorem step_complete_cases {s s' : Dumps Dir} {k : Nat} {out : Outside}
    {es : List DumpEvent} (hs : step host s (.complete k out) = some (s', es)) :
    ∃ st, s.outstanding[k]? = some st ∧ s.clock ≤ out.time
      ∧ s' = { s with
          dump := (getJsleaklistFile host out s.session st.filePath true true true s.dump).1
          clock := out.time
          outstanding := s.outstanding.eraseIdx k }
      ∧ es = (getJsleaklistFile host out s.session st.filePath true true true s.dump).2 := by
  have hmatch : (match s.outstanding[k]? with
    | none => none
    | some st => if s.clock ≤ out.time then
        some ({ s with
          dump := (getJsleaklistFile host out s.session st.filePath true true true s.dump).1
          clock := out.time
          outstanding := s.outstanding.eraseIdx k },
          (getJsleaklistFile host out s.session st.filePath true true true s.dump).2)
      else none) = some (s', es) := hs
  cases hk : s.outstanding[k]? with
  | none =>
      rw [hk] at hmatch
      exact nomatch hmatch
  | some st =>
      rw [hk] at hmatch
      by_cases hclock : s.clock ≤ out.time
      · obtain ⟨rfl, rfl⟩ := Prod.mk.inj (Option.some.inj ((if_pos hclock).symm.trans hmatch))
        exact ⟨st, rfl, hclock, rfl, rfl⟩
      · exact nomatch (if_neg hclock).symm.trans hmatch

/-- **Every step without overlap keeps the invariant.** -/
theorem step_inv {s s' : Dumps Dir} {a : Input} {es : List DumpEvent} (hI : Inv host s)
    (hG : NoOverlap host s a) (hs : step host s a = some (s', es)) : Inv host s' := by
  cases a with
  | setup session =>
      obtain ⟨rfl, rfl⟩ := Prod.mk.inj (Option.some.inj hs)
      exact hI.keep (Nat.le_refl _) (Or.inr (Or.inl rfl)) session
  | dumpInner filePath out =>
      by_cases hclock : s.clock < out.time
      · obtain ⟨rfl, rfl⟩ := Prod.mk.inj (Option.some.inj ((if_pos hclock).symm.trans hs))
        exact inv_dumpInner hI hclock hG
      · exact nomatch (if_neg hclock).symm.trans hs
  | dump filePath out =>
      by_cases hclock : s.clock < out.time
      · cases filePath with
        | none =>
            obtain ⟨rfl, rfl⟩ := Prod.mk.inj (Option.some.inj ((if_pos hclock).symm.trans hs))
            exact hI.keep (Nat.le_of_lt hclock) (Or.inr (Or.inl rfl)) s.session
        | some filePath =>
            obtain ⟨rfl, rfl⟩ := Prod.mk.inj (Option.some.inj ((if_pos hclock).symm.trans hs))
            exact inv_dump hI hclock hG
      · exact nomatch (if_neg hclock).symm.trans hs
  | heapOpen k =>
      obtain ⟨st, hk, -, rfl⟩ := onHeap_cases hs
      refine inv_onHeap hI (List.mem_of_getElem? hk)
        (sameBut_openCreate (P := fun p => p = st.path host ".rawheap") rfl _)
        (fun h => has_openCreate _ _ (Or.inr h)) (fun hhashed => ?_)
      rw [openCreate, if_pos (hG st hk hhashed)]
  | heapWrite k bytes =>
      have hwrites : onHeap host s k (fun p => appendTo p bytes) = some (s', es) := hs
      obtain ⟨st, hk, -, rfl⟩ := onHeap_cases hwrites
      refine inv_onHeap hI (List.mem_of_getElem? hk)
        (sameBut_appendTo (P := fun p => p = st.path host ".rawheap") rfl _ _)
        (has_appendTo _ _ _) (fun hhashed => ?_)
      rw [get_appendTo, if_pos rfl]
      rcases hG st hk hhashed with rfl | hgone
      · simp only [List.append_nil, Option.map_id_fun']
        rfl
      · rw [(OrderedMap.has_eq_false_iff _ _).mp hgone]
        rfl
  | complete k out =>
      obtain ⟨st, hk, hclock, rfl, -⟩ := step_complete_cases hs
      exact inv_complete hI hk hclock

-- ── Every dump ends under its own name ────────────────────────────────────────────

/-- **A dump keeps its identity** where it ends, provided the retention limit is not
    reached: the leak list under its base name has the hash of the heap file under its
    base name, or none when dumps are off, and the files delivered are these. -/
def KeepsIdentity (host : Host Dir) (s : Dumps Dir) (a : Input) (s' : Dumps Dir)
    (es : List DumpEvent) : Prop :=
  match a with
  | .dumpInner filePath out =>
      s.session.enabled = true → out.access = true → out.status = false →
        DumpEvent.retention ∉ es →
        s'.dump.files.get (host.dirOf filePath, dumpName host out.time ".jsleaklist")
            = some (utf8 (resultText true "" (getLeakList s.session.watchObjMap)))
          ∧ ∃ report, es
            = [.jsCallback [filePath ++ "/" ++ dumpName host out.time ".jsleaklist", ""],
                if out.callbackThrows then .failed else .reportRawHeap report]
  | .complete k out =>
      ∀ st, s.outstanding[k]? = some st → DumpEvent.retention ∉ es →
        ∃ heap report, s.dump.files.get (st.path host ".rawheap") = some heap
          ∧ s'.dump.files.get (st.path host ".rawheap") = some heap
          ∧ s'.dump.files.get (st.path host ".jsleaklist")
              = some (utf8 (resultText true (toHex (host.sha256 heap))
                  (getLeakList s.session.watchObjMap)))
          ∧ es = [.jsCallback [st.filePath ++ "/" ++ dumpName host st.time ".jsleaklist",
              st.filePath ++ "/" ++ dumpName host st.time ".rawheap"],
              if out.callbackThrows then .failed else .reportRawHeap report]
  | .dump (some filePath) out =>
      s.session.enabled = true → out.access = true → DumpEvent.retention ∉ es →
        s'.dump.files.get (host.dirOf filePath, dumpName host out.time ".heapsnapshot")
            = some out.heapData
          ∧ s'.dump.files.get (host.dirOf filePath, dumpName host out.time ".jsleaklist")
              = some (utf8 (resultText false (toHex (host.sha256 out.heapData))
                  (getLeakList s.session.watchObjMap)))
          ∧ es = [.returned [dumpName host out.time ".jsleaklist",
              dumpName host out.time ".heapsnapshot"]]
  | _ => True

/-- A dump that only lists its leaks. -/
theorem keeps_dumpInner {s : Dumps Dir} (hI : Inv host s) {filePath : String} {out : Outside}
    (hclock : s.clock < out.time) :
    KeepsIdentity host s (.dumpInner filePath out) (afterDumpInner host s filePath out)
      (dumpInner host out s.session filePath true true true s.dump).2 := by
  intro henabled haccess hstatus hret
  have hcall : dumpInner host out s.session filePath true true true s.dump = _ :=
    dumpInner_off henabled haccess hstatus filePath true true true s.dump
  obtain ⟨hstamp, hoff⟩ :
      (prepared host out filePath { s.dump with dumpStatus := false }).curTimeStamp
          = toString out.time
        ∧ (prepared host out filePath { s.dump with dumpStatus := false }).dumpStatus = false :=
    prepared_off rfl out filePath
  have hnone : (prepared host out filePath { s.dump with dumpStatus := false }).files.get
      (host.dirOf filePath, dumpName host out.time ".jsleaklist") = none :=
    (prepared_within host out filePath { s.dump with dumpStatus := false }).absent
      (hI.fresh _ _ _ hclock mem_jsleaklist)
  rw [hcall] at hret
  obtain ⟨d', report, hrun, hfiles⟩ := getJsleaklistFile_delivers hstamp
    (writtenText_off (d := { s.dump with dumpStatus := false }) rfl out _ filePath) hret
  rw [afterDumpInner, hcall, hrun, hoff]
  refine ⟨?_, report, rfl⟩
  show d'.files.get _ = _
  rw [hfiles, get_writeSync_openCreate hnone, if_pos rfl]

/-- A synchronous dump. -/
theorem keeps_dump {s : Dumps Dir} (hI : Inv host s) {filePath : String} {out : Outside}
    (hclock : s.clock < out.time) :
    KeepsIdentity host s (.dump (some filePath) out) { s with
        dump := (dumpInnerSync host out s.session filePath false false s.dump).1
        clock := out.time }
      (dumpInnerSync host out s.session filePath false false s.dump).2 := by
  intro henabled haccess hret
  obtain ⟨d₀, hcall, hstamp, hheap, hbut⟩ :=
    dumpInnerSync_on host henabled haccess filePath s.dump
  have hnew := hI.fresh (host.dirOf filePath) out.time ".jsleaklist" hclock mem_jsleaklist
  have hlist : d₀.files.get (host.dirOf filePath, dumpName host out.time ".jsleaklist")
      = none := by
    refine hbut.absent ?_ hnew
    intro hname
    have hsuffix := (dumpName_inj host mem_jsleaklist mem_heapsnapshot hname).2
    exact absurd hsuffix (by decide)
  rw [hcall] at hret ⊢
  obtain ⟨d', hrun, hheap', hlist'⟩ := describeSync_own hstamp hheap hlist hret
  rw [hrun]
  exact ⟨hheap', hlist', rfl⟩

/-- The callback of an asynchronous dump. Its thread may still be at work: what is appended
    before the last read is hashed, what comes after it is late. -/
theorem keeps_complete {s : Dumps Dir} (hI : Inv host s) {k : Nat} {st : Started}
    (hk : s.outstanding[k]? = some st) (out : Outside) :
    KeepsIdentity host s (.complete k out) { s with
        dump := (getJsleaklistFile host out s.session st.filePath true true true s.dump).1
        clock := out.time
        outstanding := s.outstanding.eraseIdx k }
      (getJsleaklistFile host out s.session st.filePath true true true s.dump).2 := by
  intro st' hst' hret
  obtain rfl : st = st' := Option.some.inj (hk.symm.trans hst')
  have howns := hI.owns_of_mem (List.mem_of_getElem? hk)
  obtain ⟨heap, hheap, hwritten, hfiles⟩ := howns.written out
  obtain ⟨d', report, hrun, hleft⟩ :=
    getJsleaklistFile_delivers (howns.prepared out) hwritten hret
  rw [prepared_on howns.status] at hrun hleft
  rw [hrun, howns.status]
  refine ⟨heap, report, hheap, ?_, ?_, rfl⟩
  · show d'.files.get _ = _
    rw [hleft]
    exact (hfiles _).1
  · show d'.files.get _ = _
    rw [hleft]
    exact (hfiles _).2

/-- **A step keeps the identity of the dump it ends.** -/
theorem keeps_step {s s' : Dumps Dir} {a : Input} {es : List DumpEvent} (hI : Inv host s)
    (hs : step host s a = some (s', es)) : KeepsIdentity host s a s' es := by
  cases a with
  | setup session => trivial
  | heapOpen k => trivial
  | heapWrite k bytes => trivial
  | dumpInner filePath out =>
      by_cases hclock : s.clock < out.time
      · obtain ⟨rfl, rfl⟩ := Prod.mk.inj (Option.some.inj ((if_pos hclock).symm.trans hs))
        exact keeps_dumpInner hI hclock
      · exact nomatch (if_neg hclock).symm.trans hs
  | dump filePath out =>
      cases filePath with
      | none => trivial
      | some filePath =>
          by_cases hclock : s.clock < out.time
          · obtain ⟨rfl, rfl⟩ := Prod.mk.inj (Option.some.inj ((if_pos hclock).symm.trans hs))
            exact keeps_dump hI hclock
          · exact nomatch (if_neg hclock).symm.trans hs
  | complete k out =>
      obtain ⟨st, hk, -, rfl, rfl⟩ := step_complete_cases hs
      exact keeps_complete hI hk out

/-- **Overlapping dumps keep their identity**, for every directory content and every
    interleaving in which, while a callback is outstanding, no other dump gets past its
    tests and none reads the dump parameter as off, and in which no thread changes a heap
    file that was hashed: each dump ends under its own name, and from then on the hash in its
    leak list is that of its heap file. -/
theorem dump_keeps_identity {dump : DumpState Dir} {session : Session} {clock : Nat}
    (hfresh : Fresh host clock dump.files) {s : Dumps Dir} {tr : List DumpEvent}
    (hr : Run (dumps host dump session clock) (NoOverlap host) s tr) :
    (∀ st ∈ s.threads, st ∉ s.outstanding → HashAgrees host s.dump.files st)
      ∧ ∀ a s' es, step host s a = some (s', es) → KeepsIdentity host s a s' es := by
  have hinit : Inv host (dumps host dump session clock).init :=
    { fresh := hfresh
      past := fun _ hst => absurd hst List.not_mem_nil
      distinct := fun _ hst => absurd hst List.not_mem_nil
      owns := Or.inl rfl
      agrees := fun _ hst => absurd hst List.not_mem_nil }
  have hI : Inv host s :=
    Run.state_invariant (I := Inv host) hinit (fun _ _ _ _ hI hG hs => step_inv hI hG hs) hr
  exact ⟨hI.agrees, fun _ _ _ hs => keeps_step hI hs⟩

/-- The SHA-256 digest of the byte 7, and of the empty file. -/
def digestOf (bytes : List UInt8) : List UInt8 :=
  if bytes = [7] then
    [202, 53, 135, 88, 246, 210, 126, 108, 244, 82, 114, 147, 121, 119, 167, 72, 253, 136, 57,
      29, 182, 121, 206, 218, 125, 199, 191, 31, 0, 94, 232, 121]
  else
    [227, 176, 196, 66, 152, 252, 28, 20, 154, 251, 244, 200, 153, 111, 185, 36, 39, 174, 65,
      228, 100, 155, 147, 76, 164, 149, 153, 27, 120, 82, 184, 85]

/-- A process, with directories that are their own paths, and the digests of the files of
    the runs below. -/
def plainHost : Host String := { process := ⟨100, 101⟩, dirOf := id, sha256 := digestOf }

/-- Dumps are on, the directory is there. -/
def outsideAt (time : Nat) : Outside :=
  { time := time, dumpParameter := .unset, access := true, order := .asIs, reads := fun _ => 1,
    heapData := [] }

/-- The watcher is on and watches nothing. -/
def openSession : Session :=
  { enabled := true, settings := {}, intersection := [], watchObjMap := OrderedMap.empty }

/-- No file yet. -/
def noFiles : DumpState String :=
  { dumpStatus := true, report := { pid := 100, happenTime := "0" }, files := OrderedMap.empty }

theorem fresh_noFiles (clock : Nat) : Fresh plainHost clock noFiles.files :=
  fun _ _ _ _ _ => rfl

/-- One dump, whose thread is done when its callback runs. -/
theorem dump_keeps_identity_async :
    ∃ (s s' : Dumps String) (tr es : List DumpEvent),
      Run (dumps plainHost noFiles openSession 0) (NoOverlap plainHost) s tr
        ∧ s.outstanding = [{ filePath := "jsleak", time := 1 }]
        ∧ step plainHost s (.complete 0 (outsideAt 2)) = some (s', es)
        ∧ DumpEvent.retention ∉ es
        ∧ KeepsIdentity plainHost s (.complete 0 (outsideAt 2)) s' es
        ∧ HashAgrees plainHost s'.dump.files { filePath := "jsleak", time := 1 } := by
  obtain ⟨p, hp⟩ : ∃ p, exec (dumps plainHost noFiles openSession 0) (NoOverlap plainHost)
      [.dumpInner "jsleak" (outsideAt 1), .heapOpen 0, .heapWrite 0 [7]] = some p := ⟨_, rfl⟩
  obtain ⟨hout, q, hq, hret, hst, hdone⟩ :
      p.1.outstanding = [{ filePath := "jsleak", time := 1 }]
      ∧ ∃ q, step plainHost p.1 (.complete 0 (outsideAt 2)) = some q
        ∧ DumpEvent.retention ∉ q.2
        ∧ { filePath := "jsleak", time := 1 } ∈ q.1.threads
        ∧ { filePath := "jsleak", time := 1 } ∉ q.1.outstanding := by
    obtain rfl := Option.some.inj hp
    exact ⟨rfl, _, rfl, by decide +kernel, by decide +kernel, by decide +kernel⟩
  have hrun := run_of_exec hp
  have hguard : NoOverlap plainHost p.1 (.complete 0 (outsideAt 2)) := trivial
  have hended := Run.next hrun hguard hq
  exact ⟨p.1, q.1, p.2, q.2, hrun, hout, hq, hret,
    (dump_keeps_identity (fresh_noFiles 0) hrun).2 _ _ _ hq,
    (dump_keeps_identity (fresh_noFiles 0) hended).1 _ hst hdone⟩

/-- A second dump starts before the callback of the first: the callback of the first
    takes the base name of the second. -/
theorem dump_loses_identity :
    ¬ ∀ (Dir : Type) (_ : DecidableEq Dir) (host : Host Dir) (dump : DumpState Dir)
        (session : Session) (clock : Nat), Fresh host clock dump.files →
        ∀ (s : Dumps Dir) (tr : List DumpEvent), Run (dumps host dump session clock) anyStep s tr →
          (∀ st ∈ s.threads, st ∉ s.outstanding → HashAgrees host s.dump.files st)
            ∧ ∀ a s' es, step host s a = some (s', es) → KeepsIdentity host s a s' es := by
  intro h
  obtain ⟨p, hp⟩ : ∃ p, exec (dumps plainHost noFiles openSession 0) anyStep
      [.dumpInner "jsleak" (outsideAt 1), .dumpInner "jsleak" (outsideAt 2)] = some p :=
    ⟨_, rfl⟩
  obtain ⟨hout, q, hq, hret, hnone⟩ : p.1.outstanding[0]? = some { filePath := "jsleak", time := 1 }
      ∧ ∃ q, step plainHost p.1 (.complete 0 (outsideAt 3)) = some q
        ∧ DumpEvent.retention ∉ q.2
        ∧ q.1.dump.files.get ("jsleak", dumpName plainHost 1 ".jsleaklist") = none := by
    obtain rfl := Option.some.inj hp
    exact ⟨rfl, _, rfl, by decide +kernel, by decide +kernel⟩
  have hkeeps := (h String inferInstance plainHost noFiles openSession 0 (fresh_noFiles 0)
    p.1 p.2 (run_of_exec hp)).2 _ _ _ hq
  obtain ⟨heap, report, -, -, hlist, -⟩ := hkeeps _ hout hret
  exact nomatch hnone.symm.trans hlist

end DumpIdentity
