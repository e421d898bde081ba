import HiChecker.LeakRoundProofs
import HiChecker.FileStoreProofs
import Mathlib.Data.List.Infix
import Mathlib.Data.List.Sort

/-!
# Dump files: their names, their clean-up, their contents

The part of `js_leak_watcher.ts` from `getJsleaklistFile` to `dumpInner` that creates,
hashes, describes and deletes dump files. A dump is a heap file and a `.jsleaklist`
file with one base name, `jsleakwatcher-<pid>-<tid>-<timestamp>`. The timestamp is a
**module variable**, `curTimeStamp`, written when a dump starts and read back whenever
a name is needed.

* **`DumpState`** — the module variables of the dumps, and the files.
* **`Outside`** — what one call finds outside the module: the clock, the dump
  parameter, the listing order, the sizes of the reads, the heap.
* **`getHeapDumpSHA256_eq`** — however the reads are cut, the whole file is hashed.
* **`deleteLastOldFile_within`**, **`deleteUnMatchDumpFile_within`** — the clean-up
  only removes files.
-/

namespace DumpFile

open JsValue OrderedMapLib WatcherConfig LeakRound FileStore

-- ── File names ────────────────────────────────────────────────────────────────────

/-- The ids that enter the names of a process thread's files. -/
structure Process where
  pid : Nat
  tid : Nat
deriving DecidableEq

/-- `getHeapPrefix`: what all names of this process begin with. -/
def getHeapPrefix (process : Process) : String :=
  "jsleakwatcher-" ++ toString process.pid ++ "-" ++ toString process.tid ++ "-"

/-- The alternatives of the regular expression, with the dot before them. -/
def dumpSuffixes : List String := [".heapsnapshot", ".jsleaklist", ".rawheap"]

/-- The first group of the first match of `(\\d+)\\.(heapsnapshot|jsleaklist|rawheap)`: a
    run of digits can only be followed by the dot where it ends. -/
def matchStamp : List Char → Option (List Char)
  | [] => none
  | c :: cs =>
      if c.isDigit && dumpSuffixes.any (fun suffix =>
          suffix.toList.isPrefixOf (cs.dropWhile Char.isDigit)) then
        some (c :: cs.takeWhile Char.isDigit)
      else matchStamp cs

/-- `getTimestampByFileName`: a name without a stamp counts as the oldest. -/
def getTimestampByFileName (fileName : String) : JsNum :=
  match matchStamp fileName.toList with
  | none => .ofNat 0
  | some digits => JsNum.ofDigits digits

/-- `files.sort((a, b) => timestamp(b) - timestamp(a))`, which is stable. -/
def sortNewestFirst (files : List String) : List String :=
  files.insertionSort (fun a b =>
    (getTimestampByFileName a).lt (getTimestampByFileName b) = false)

/-- `files.sort((a, b) => timestamp(a) - timestamp(b))`, which is stable. -/
def sortOldestFirst (files : List String) : List String :=
  files.insertionSort (fun a b =>
    (getTimestampByFileName b).lt (getTimestampByFileName a) = false)

-- ── State and surroundings ────────────────────────────────────────────────────────

/-- The event handed to `reportRawHeap`. -/
structure ReportRawHeap where
  pid : Nat
  happenTime : String
  moduleName : String := ""
  leakList : String := ""
  dynamicRawheapPath : String := ""
  staticRawheapPath : String := ""
  leakListPath : String := ""
  leakObjectCount : Nat := 0
deriving DecidableEq

/-- The module variables of the dumps, and the files they work on. -/
structure DumpState (Dir : Type) where
  dumpStatus : Bool
  firstDump : Bool := true
  curTimeStamp : String := ""
  /-- `appState.leakListPath` -/
  leakListPath : List String := []
  report : ReportRawHeap
  files : Files Dir

/-- What a dump reads of the other module variables. -/
structure Session where
  enabled : Bool
  settings : Settings
  intersection : List ObjMsg
  watchObjMap : WatchMap

/-- A system parameter, as `CachedParameterCreate` and `CachedParameterGet` find it. -/
inductive SystemParameter where
  /-- there is no handle -/
  | unavailable
  /-- the value is a null pointer -/
  | unreadable
  | unset
  | set (value : String)

/-- `CachedParameterGet` on a handle made with a default. -/
def SystemParameter.get (defValue : String) : SystemParameter → Option String
  | .unavailable => none
  | .unreadable => none
  | .unset => some defValue
  | .set value => some value

/-- `GetDumpStatus`, on `hiviewdfx.hichecker.jsleakwatcher.dump`. -/
def getDumpStatus (parameter : SystemParameter) : Bool :=
  match parameter.get "true" with
  | none => true
  | some paramValue => !(paramValue.length ≠ 0 && paramValue = "false")

/-- What one call finds outside the module. -/
structure Outside where
  /-- `new Date().getTime()` -/
  time : Nat
  /-- `hiviewdfx.hichecker.jsleakwatcher.dump` -/
  dumpParameter : SystemParameter
  /-- `fs.accessSync(filePath)` on the directory -/
  access : Bool
  order : ListingOrder
  /-- the number of bytes the `k`-th read is ready to return -/
  reads : Nat → Nat
  /-- what `hidebug.dumpJsHeapData` writes -/
  heapData : List UInt8
  /-- calling what the application passed as its callback throws: it does so itself, or is
      nothing that can be called -/
  callbackThrows : Bool := false

/-- What `getDumpStatus()` returns there. -/
def Outside.status (out : Outside) : Bool := getDumpStatus out.dumpParameter

/-- What a dump does that others see. -/
inductive DumpEvent where
  /-- `jsLeakWatcherNative.dumpRawHeap`: the dump runs on, its callback comes later -/
  | dumpRawHeap (desFilePath : String)
  /-- `deleteOldFile` found more files than it keeps -/
  | retention
  | jsCallback (fileList : List String)
  | reportRawHeap (report : ReportRawHeap)
  /-- the list `dumpInnerSync` returns -/
  | returned (fileList : List String)
  /-- an exception reaches the caller, or is caught and gives the empty list -/
  | failed
deriving DecidableEq

variable {Dir : Type} [DecidableEq Dir]

/-- The process, how paths resolve to directories, and the digest. -/
structure Host (Dir : Type) where
  process : Process
  dirOf : String → Dir
  sha256 : List UInt8 → List UInt8

variable (host : Host Dir)

/-- `SANDBOX_PATH`. -/
def sandboxPath : String := "/data/storage/el2/base/files/"

-- ── Base names ────────────────────────────────────────────────────────────────────

/-- `getHeapBaseName(true)`, the write of `curTimeStamp`. -/
def stamp (out : Outside) (d : DumpState Dir) : DumpState Dir :=
  { d with curTimeStamp := toString out.time }

/-- `getHeapBaseName(false)`. -/
def getHeapBaseName (d : DumpState Dir) : String :=
  getHeapPrefix host.process ++ d.curTimeStamp

-- ── Clean-up ──────────────────────────────────────────────────────────────────────

/-- Unlink a file, and go on without it: a failure is caught. -/
def unlinkQuietly (p : Path Dir) (files : Files Dir) : Files Dir :=
  (unlinkSync p files).getD files

/-- `deleteLastOldFile`: the newest leak list goes with its heap file, if it is this process's. -/
def deleteLastOldFile (out : Outside) (filePath : String) (files : Files Dir) : Files Dir :=
  let dir := host.dirOf filePath
  match sortNewestFirst (listFileSync out.order dir [".jsleaklist"] files) with
  | [] => files
  | newest :: _ =>
      let namePrefix := getHeapPrefix host.process
      if !namePrefix.toList.isPrefixOf newest.toList then files
      else
        let fileBaseName := namePrefix ++ (getTimestampByFileName newest).toStr
        let files := unlinkQuietly (dir, fileBaseName ++ ".jsleaklist") files
        if accessSync (dir, fileBaseName ++ ".rawheap") files then
          unlinkQuietly (dir, fileBaseName ++ ".rawheap") files
        else unlinkQuietly (dir, fileBaseName ++ ".heapsnapshot") files

/-- The base name of a file that ends in `.rawheap`; `none` when nothing is before it. -/
def rawheapBase (file : String) : Option String :=
  let suffixOffset := file.toList.length - ".rawheap".toList.length
  if suffixOffset = 0 then none else some (String.ofList (file.toList.take suffixOffset))

/-- One turn of the loop of `deleteUnMatchDumpFile`. -/
def deleteUnMatched (dir : Dir) (files : Files Dir) (file : String) : Files Dir :=
  match rawheapBase file with
  | none => files
  | some base =>
      if !accessSync (dir, base ++ ".jsleaklist") files then unlinkQuietly (dir, file) files
      else files

/-- `deleteUnMatchDumpFile`: every heap file without a leak list. -/
def deleteUnMatchDumpFile (out : Outside) (filePath : String) (files : Files Dir) :
    Files Dir :=
  let dir := host.dirOf filePath
  (listFileSync out.order dir [".rawheap"] files).foldl (deleteUnMatched dir) files

/-- The loop of `deleteOldFile` from position `i` on, with the files still ahead; the
    boolean is `false` when it threw. -/
def evictFrom (dir : Dir) (limit : JsNum) : Nat → List String → Files Dir → Files Dir × Bool
  | _, [], files => (files, true)
  | i, [file], files =>
      if (JsNum.ofNat i).lt limit then
        match unlinkSync (dir, file) files with
        | none => (files, false)
        -- `files[i + 1]` is `undefined`
        | some files => (files, false)
      else (files, true)
  | i, file :: next :: rest, files =>
      if (JsNum.ofNat i).lt limit then
        match unlinkSync (dir, file) files with
        | none => (files, false)
        | some files =>
            let timeStamp := (getTimestampByFileName file).toStr
            if timeStamp.toList <:+: next.toList then
              match unlinkSync (dir, next) files with
              | none => (files, false)
              | some files => evictFrom dir limit (i + 2) rest files
            else evictFrom dir limit (i + 1) (next :: rest) files
      else (files, true)

/-- `deleteOldFile`: the files, whether it returned, and whether it had to delete. -/
def deleteOldFile (out : Outside) (filePath : String) (maxFileNum : JsNum)
    (files : Files Dir) : Files Dir × Bool × List DumpEvent :=
  let dir := host.dirOf filePath
  let names := listFileSync out.order dir dumpSuffixes files
  let count := JsNum.ofNat names.length
  if maxFileNum.lt count then
    let result := evictFrom dir (count.sub maxFileNum) 0 (sortOldestFirst names) files
    (result.1, result.2, [.retention])
  else (files, true, [])

-- ── The hash of the heap file ─────────────────────────────────────────────────────

/-- The block the `k`-th read returns at an offset: as much as the read is ready to
    return, at least one byte, up to the buffer and to the end of the file. -/
def readBlock (reads : Nat → Nat) (k : Nat) (rest : List UInt8) : List UInt8 :=
  rest.take (min (max 1 (reads k)) 40960)

/-- The loop of `getHeapDumpSHA256`: the blocks given to `updateSync`, joined. -/
def updateLoop (reads : Nat → Nat) (file : List UInt8) :
    Nat → Nat → List UInt8 → List UInt8
  | 0, _, updated => updated
  | fuel + 1, k, updated =>
      let block := readBlock reads k (file.drop updated.length)
      if block = [] then updated else updateLoop reads file fuel (k + 1) (updated ++ block)

/-- Two hexadecimal digits a byte, in upper case. -/
def toHex (digest : List UInt8) : String :=
  String.ofList ((digest.flatMap (fun byte =>
    let text := '0' :: Nat.toDigits 16 byte.toNat
    text.drop (text.length - 2))).map Char.toUpper)

/-- `none` when the file cannot be opened. -/
def getHeapDumpSHA256 (out : Outside) (p : Path Dir) (files : Files Dir) : Option String :=
  match files.get p with
  | none => none
  | some file =>
      some (toHex (host.sha256 (updateLoop out.reads file (file.length + 1) 0 [])))

-- ── The `.jsleaklist` file ────────────────────────────────────────────────────────

/-- The text of a leaked object in `JSON.stringify`. -/
def objMsgText (obj : ObjMsg) : String :=
  Json.object [("hash", match obj.hash with
      | none => "null"
      | some hash => toString hash),
    ("name", Json.quote obj.name), ("msg", Json.quote obj.msg)]

/-- `JSON.stringify(result)`. -/
def resultText (isRawHeap : Bool) (snapshotHash : String) (leakObjList : List ObjMsg) :
    String :=
  let fields := [("snapshot_hash", Json.quote snapshotHash),
    ("leakObjList", Json.array (leakObjList.map objMsgText))]
  Json.object (if isRawHeap then ("version", Json.quote "2.0.0") :: fields else fields)

/-- The bytes that a text is written as. -/
def utf8 (text : String) : List UInt8 := text.toUTF8.data.toList

/-- `setReportData`. -/
def setReportData (out : Outside) (session : Session) (d : DumpState Dir) : DumpState Dir :=
  let paths := Json.array (d.leakListPath.map Json.quote)
  { d with report :=
      { pid := host.process.pid
        happenTime := toString out.time
        moduleName := session.settings.bundleName
        leakList := Json.array (session.intersection.map objMsgText)
        dynamicRawheapPath := paths
        staticRawheapPath := paths
        leakListPath := paths
        leakObjectCount := session.intersection.length } }

/-- The clean-up before a dump: of all leftovers the first time, later of the last dump alone. -/
def cleanUp (out : Outside) (filePath : String) (d : DumpState Dir) : DumpState Dir :=
  if d.firstDump then
    { d with firstDump := false, files := deleteUnMatchDumpFile host out filePath d.files }
  else { d with files := deleteLastOldFile host out filePath d.files }

/-- The suffix of a heap file. -/
def heapSuffix (isRawHeap : Bool) : String :=
  if isRawHeap then ".rawheap" else ".heapsnapshot"

/-- The end of `getJsleaklistFile`, from `deleteOldFile` on. -/
def deliver (out : Outside) (session : Session) (filePath : String) (needSandBox : Bool)
    (jsCallback : Bool) (d : DumpState Dir) : DumpState Dir × List DumpEvent :=
  let old := deleteOldFile host out filePath session.settings.maxFileNum d.files
  let d := { d with files := old.1 }
  if !old.2.1 then (d, old.2.2 ++ [.failed])
  else
    let base := getHeapBaseName host d
    let fileList :=
      if needSandBox then
        [filePath ++ "/" ++ base ++ ".jsleaklist",
          if d.dumpStatus then filePath ++ "/" ++ base ++ ".rawheap" else ""]
      else [base ++ ".jsleaklist", base ++ ".heapsnapshot"]
    let d := { d with leakListPath := fileList }
    let called := if jsCallback then [.jsCallback fileList] else []
    if jsCallback && out.callbackThrows then (d, old.2.2 ++ called ++ [.failed])
    else
      let d := setReportData host out session d
      (d, old.2.2 ++ called ++ [.reportRawHeap d.report])

/-- The middle of `getJsleaklistFile`, once the base name is settled: create the
    `.jsleaklist` file, hash the heap file, write. -/
def describe (out : Outside) (session : Session) (filePath : String)
    (needSandBox isRawHeap jsCallback : Bool) (d : DumpState Dir) :
    DumpState Dir × List DumpEvent :=
  let dir := host.dirOf filePath
  let file := (dir, getHeapBaseName host d ++ ".jsleaklist")
  let d := { d with files := openCreate file d.files }
  let desFilePath := (dir, getHeapBaseName host d ++ heapSuffix isRawHeap)
  match (if d.dumpStatus then getHeapDumpSHA256 host out desFilePath d.files else some "") with
  | none => (d, [.failed])
  | some heapDumpSHA256 =>
      let text := resultText isRawHeap heapDumpSHA256 (getLeakList session.watchObjMap)
      let d := { d with files := writeSync file (utf8 text) d.files }
      deliver host out session filePath needSandBox jsCallback d

/-- `getJsleaklistFile`; with the heap dumped, its clean-up and its stamp were made before. -/
def getJsleaklistFile (out : Outside) (session : Session) (filePath : String)
    (needSandBox isRawHeap jsCallback : Bool) (d : DumpState Dir) :
    DumpState Dir × List DumpEvent :=
  let d := if !d.dumpStatus then cleanUp host out filePath d else d
  let d := if d.dumpStatus then d else stamp out d
  describe host out session filePath needSandBox isRawHeap jsCallback d

-- ── Dumps ─────────────────────────────────────────────────────────────────────────

/-- `fs.moveFileSync(src, dest, 0)`; the boolean is `false` when it threw. -/
def moveHeapFile (src dest : Path Dir) (d : DumpState Dir) :
    DumpState Dir × Bool × List DumpEvent :=
  match moveFileSync src dest d.files with
  | none => (d, false, [])
  | some files => ({ d with files := files }, true, [])

/-- `createHeapDumpFile`; the boolean is `false` when it threw. -/
def createHeapDumpFile (out : Outside) (filePath : String) (isRawHeap isSync : Bool)
    (d : DumpState Dir) : DumpState Dir × Bool × List DumpEvent :=
  let dir := host.dirOf filePath
  let d := stamp out (cleanUp host out filePath d)
  let fileName := getHeapBaseName host d
  let heapDumpFileName := fileName ++ heapSuffix isRawHeap
  if isRawHeap then
    if !isSync then
      -- `CreateFile` keeps a file that is there
      ({ d with files := openCreate (dir, heapDumpFileName) d.files }, true,
        [.dumpRawHeap (filePath ++ "/" ++ heapDumpFileName)])
    else
      -- `DumpRawHeapSync` takes one argument, is given two, and gives up
      (d, true, [])
  else
    let sandbox := (host.dirOf sandboxPath, heapDumpFileName)
    moveHeapFile sandbox (dir, heapDumpFileName)
      { d with files := d.files.set sandbox out.heapData }

/-- The rest of `dumpInnerSync` after the heap file was created. -/
def describeSync (out : Outside) (session : Session) (filePath : String)
    (needSandBox isRawHeap : Bool) (d : DumpState Dir) : DumpState Dir × List DumpEvent :=
  let dir := host.dirOf filePath
  let base := getHeapBaseName host d
  let file := (dir, base ++ ".jsleaklist")
  let d := { d with files := openCreate file d.files }
  match getHeapDumpSHA256 host out (dir, base ++ heapSuffix isRawHeap) d.files with
  | none => (d, [.failed, .returned []])
  | some heapDumpSHA256 =>
      let text := resultText isRawHeap heapDumpSHA256 (getLeakList session.watchObjMap)
      let d := { d with files := writeSync file (utf8 text) d.files }
      let old := deleteOldFile host out filePath session.settings.maxFileNum d.files
      let d := { d with files := old.1 }
      if !old.2.1 then (d, old.2.2 ++ [.failed, .returned []])
      else if needSandBox then
        (d, old.2.2 ++ [.returned [filePath ++ "/" ++ base ++ ".jsleaklist",
          filePath ++ "/" ++ base ++ ".rawheap"]])
      else
        (d, old.2.2 ++ [.returned [base ++ ".jsleaklist", base ++ ".heapsnapshot"]])

/-- `dumpInnerSync`: it catches what it throws itself. -/
def dumpInnerSync (out : Outside) (session : Session) (filePath : String)
    (needSandBox isRawHeap : Bool) (d : DumpState Dir) : DumpState Dir × List DumpEvent :=
  if !session.enabled then (d, [.returned []])
  else if !out.access then (d, [.failed])
  else
    let created := createHeapDumpFile host out filePath isRawHeap true d
    if !created.2.1 then (created.1, [.failed, .returned []])
    else describeSync host out session filePath needSandBox isRawHeap created.1

/-- `dumpInner`: the parameter decides whether the heap is dumped. -/
def dumpInner (out : Outside) (session : Session) (filePath : String)
    (needSandBox isRawHeap jsCallback : Bool) (d : DumpState Dir) :
    DumpState Dir × List DumpEvent :=
  let d := { d with dumpStatus := out.status }
  if !session.enabled then (d, [])
  else if !out.access then (d, [.failed])
  else if !d.dumpStatus then
    getJsleaklistFile host out session filePath needSandBox isRawHeap jsCallback d
  else
    let created := createHeapDumpFile host out filePath isRawHeap false d
    if !created.2.1 then (created.1, [.failed]) else (created.1, created.2.2)

/-- A move that succeeds changes the files alone. -/
theorem moveHeapFile_of_some {src dest : Path Dir} {d : DumpState Dir} {files : Files Dir}
    (h : moveFileSync src dest d.files = some files) :
    moveHeapFile src dest d = ({ d with files := files }, true, []) := by
  simp only [moveHeapFile, h]

-- ── The clean-up only removes files ───────────────────────────────────────────────

/-- A quiet unlink takes the file away, or nothing. -/
theorem unlinkQuietly_eq (p : Path Dir) (files : Files Dir) :
    unlinkQuietly p files = files ∨ unlinkQuietly p files = files.delete p := by
  show (if files.has p = true then some (files.delete p) else none).getD files = files
    ∨ (if files.has p = true then some (files.delete p) else none).getD files = files.delete p
  by_cases hp : files.has p = true
  · rw [if_pos hp]
    exact Or.inr rfl
  · rw [if_neg hp]
    exact Or.inl rfl

/-- A quiet unlink adds nothing. -/
theorem unlinkQuietly_within (p : Path Dir) (files : Files Dir) :
    Within (unlinkQuietly p files) files := by
  rcases unlinkQuietly_eq p files with h | h
  · rw [h]
    exact Within.refl files
  · rw [h]
    exact within_delete files p

/-- The clean-up of the last dump adds nothing. -/
theorem deleteLastOldFile_within (out : Outside) (filePath : String) (files : Files Dir) :
    Within (deleteLastOldFile host out filePath files) files := by
  simp only [deleteLastOldFile]
  cases sortNewestFirst
      (listFileSync out.order (host.dirOf filePath) [".jsleaklist"] files) with
  | nil => exact Within.refl files
  | cons newest older =>
      simp only
      split
      · exact Within.refl files
      · split
        · exact (unlinkQuietly_within _ _).trans (unlinkQuietly_within _ _)
        · exact (unlinkQuietly_within _ _).trans (unlinkQuietly_within _ _)

/-- A turn of the loop, on a name with nothing before the suffix, and on the others. -/
theorem deleteUnMatched_of_none {file : String} (h : rawheapBase file = none) (dir : Dir)
    (files : Files Dir) : deleteUnMatched dir files file = files := by
  show (match rawheapBase file with
    | none => files
    | some base => _) = _
  rw [h]

/-- What the clean-up does to one heap file. -/
theorem deleteUnMatched_of_some {file base : String} (h : rawheapBase file = some base)
    (dir : Dir) (files : Files Dir) : deleteUnMatched dir files file
      = if !accessSync (dir, base ++ ".jsleaklist") files then unlinkQuietly (dir, file) files
        else files := by
  show (match rawheapBase file with
    | none => files
    | some base => _) = _
  rw [h]

/-- The clean-up of one heap file adds nothing. -/
theorem deleteUnMatched_within (dir : Dir) (files : Files Dir) (file : String) :
    Within (deleteUnMatched dir files file) files := by
  cases hbase : rawheapBase file with
  | none =>
      rw [deleteUnMatched_of_none hbase]
      exact Within.refl files
  | some base =>
      rw [deleteUnMatched_of_some hbase]
      split
      · exact unlinkQuietly_within _ _
      · exact Within.refl files

/-- The clean-up of all heap files adds nothing. -/
theorem deleteUnMatchDumpFile_within (out : Outside) (filePath : String)
    (files : Files Dir) : Within (deleteUnMatchDumpFile host out filePath files) files := by
  show Within ((listFileSync out.order (host.dirOf filePath) [".rawheap"] files).foldl
    (deleteUnMatched (host.dirOf filePath)) files) files
  generalize listFileSync out.order (host.dirOf filePath) [".rawheap"] files = names
  induction names generalizing files with
  | nil => exact Within.refl files
  | cons name names ih => exact (ih _).trans (deleteUnMatched_within _ files name)

/-- **The clean-up before a dump** removes files and writes nothing but `firstDump`. -/
theorem cleanUp_spec (out : Outside) (filePath : String) (d : DumpState Dir) :
    ∃ files, Within files d.files
      ∧ cleanUp host out filePath d = { d with firstDump := false, files := files } := by
  show ∃ files, Within files d.files ∧ (if d.firstDump = true then
      { d with firstDump := false
               files := deleteUnMatchDumpFile host out filePath d.files }
    else { d with files := deleteLastOldFile host out filePath d.files }) = _
  by_cases hfirst : d.firstDump = true
  · rw [if_pos hfirst]
    exact ⟨_, deleteUnMatchDumpFile_within host out filePath d.files, rfl⟩
  · refine ⟨_, deleteLastOldFile_within host out filePath d.files, ?_⟩
    rw [if_neg hfirst, ← Bool.not_eq_true _ |>.mp hfirst]

/-- An unlink adds nothing. -/
theorem unlinkSync_within {p : Path Dir} {files files' : Files Dir}
    (h : unlinkSync p files = some files') : Within files' files := by
  by_cases hp : files.has p = true
  · obtain rfl := Option.some.inj ((if_pos hp).symm.trans h)
    exact within_delete files p
  · exact nomatch (if_neg hp).symm.trans h

/-- The eviction loop only removes files; one case for each way through a turn. -/
theorem evictFrom_within (dir : Dir) (limit : JsNum) (i : Nat) (names : List String)
    (files : Files Dir) : Within (evictFrom dir limit i names files).1 files := by
  fun_induction evictFrom dir limit i names files with
  | case1 i files => exact Within.refl files
  | case2 i file files hi hfail => exact Within.refl files
  | case3 i file files hi files₁ hfirst => exact unlinkSync_within hfirst
  | case4 i file files hi => exact Within.refl files
  | case5 i file next rest files hi hfail => exact Within.refl files
  | case6 i file next rest files hi files₁ hfirst stamp hpair hfail =>
      exact unlinkSync_within hfirst
  | case7 i file next rest files hi files₁ hfirst stamp hpair files₂ hsecond ih =>
      exact ih.trans ((unlinkSync_within hsecond).trans (unlinkSync_within hfirst))
  | case8 i file next rest files hi files₁ hfirst stamp hpair ih =>
      exact ih.trans (unlinkSync_within hfirst)
  | case9 i file next rest files hi => exact Within.refl files

/-- The eviction adds nothing. -/
theorem deleteOldFile_within (out : Outside) (filePath : String) (maxFileNum : JsNum)
    (files : Files Dir) :
    Within (deleteOldFile host out filePath maxFileNum files).1 files := by
  show Within (if _ then (_, _, _) else (files, true, []) :
    Files Dir × Bool × List DumpEvent).1 files
  split
  · exact evictFrom_within _ _ _ _ files
  · exact Within.refl files

/-- Within the limit `deleteOldFile` does nothing. -/
theorem deleteOldFile_of_no_retention {out : Outside} {filePath : String}
    {maxFileNum : JsNum} {files : Files Dir}
    (h : DumpEvent.retention ∉ (deleteOldFile host out filePath maxFileNum files).2.2) :
    deleteOldFile host out filePath maxFileNum files = (files, true, []) := by
  let names := listFileSync out.order (host.dirOf filePath) dumpSuffixes files
  by_cases hcount : maxFileNum.lt (JsNum.ofNat names.length) = true
  · refine absurd ?_ h
    show DumpEvent.retention ∈ (if maxFileNum.lt (JsNum.ofNat names.length) = true then
      _ else _ : Files Dir × Bool × List DumpEvent).2.2
    rw [if_pos hcount]
    exact List.mem_cons_self
  · exact if_neg hcount

-- ── The end of a dump ─────────────────────────────────────────────────────────────

/-- **All that the end of a dump can do**: the removal of old files fails; or the names are
    settled, the callback gets them, and it throws or the report is made. -/
theorem deliver_cases (out : Outside) (session : Session) (filePath : String)
    (needSandBox jsCallback : Bool) (d : DumpState Dir) :
    let old := deleteOldFile host out filePath session.settings.maxFileNum d.files
    let result := deliver host out session filePath needSandBox jsCallback d
    let path := filePath ++ "/" ++ getHeapBaseName host d
    result = ({ d with files := old.1 }, old.2.2 ++ [.failed])
      ∨ ∃ fileList,
          let named := { d with files := old.1, leakListPath := fileList }
          (needSandBox = true → fileList = [path ++ ".jsleaklist",
              if d.dumpStatus then path ++ ".rawheap" else ""])
            ∧ ((jsCallback = true ∧ out.callbackThrows = true
                ∧ result = (named, old.2.2 ++ [.jsCallback fileList] ++ [.failed]))
              ∨ let reported := setReportData host out session named
                (jsCallback && out.callbackThrows) = false
                  ∧ result = (reported, old.2.2
                    ++ (if jsCallback then [.jsCallback fileList] else [])
                    ++ [.reportRawHeap reported.report])) := by
  intro old result path
  cases hold : old.2.1 with
  | false =>
      refine Or.inl ?_
      show (if (!old.2.1) = true then _ else _) = _
      rw [hold]
      rfl
  | true =>
      refine Or.inr ⟨if needSandBox then [path ++ ".jsleaklist",
        if d.dumpStatus then path ++ ".rawheap" else ""]
        else [getHeapBaseName host d ++ ".jsleaklist", getHeapBaseName host d ++ ".heapsnapshot"],
        fun h => if_pos h, ?_⟩
      simp only [result, deliver]
      rw [if_neg (by rw [hold]; decide)]
      by_cases hthrows : jsCallback && out.callbackThrows
      · obtain ⟨rfl, hout⟩ := Bool.and_eq_true_iff.mp hthrows
        rw [if_pos hthrows]
        exact Or.inl ⟨rfl, hout, rfl⟩
      · rw [if_neg hthrows]
        exact Or.inr ⟨Bool.not_eq_true _ |>.mp hthrows, rfl⟩

/-- It deletes old files, and changes no variable that makes a base name. -/
theorem deliver_keeps (out : Outside) (session : Session) (filePath : String)
    (needSandBox jsCallback : Bool) (d : DumpState Dir) :
    let old := deleteOldFile host out filePath session.settings.maxFileNum d.files
    let call := deliver host out session filePath needSandBox jsCallback d
    call.1.files = old.1 ∧ call.1.curTimeStamp = d.curTimeStamp
      ∧ call.1.dumpStatus = d.dumpStatus ∧ call.1.firstDump = d.firstDump
      ∧ ∀ e ∈ old.2.2, e ∈ call.2 := by
  intro old call
  rcases deliver_cases host out session filePath needSandBox jsCallback d
    with heq | ⟨fileList, -, ⟨-, -, heq⟩ | ⟨-, heq⟩⟩
  · have hcall : call = _ := heq
    rw [hcall]
    exact ⟨rfl, rfl, rfl, rfl, fun e he => List.mem_append_left _ he⟩
  · have hcall : call = _ := heq
    rw [hcall]
    exact ⟨rfl, rfl, rfl, rfl, fun e he => List.mem_append_left _ (List.mem_append_left _ he)⟩
  · have hcall : call = _ := heq
    rw [hcall]
    exact ⟨rfl, rfl, rfl, rfl, fun e he => List.mem_append_left _ (List.mem_append_left _ he)⟩

/-- The delivery adds nothing. -/
theorem deliver_within (out : Outside) (session : Session) (filePath : String)
    (needSandBox jsCallback : Bool) (d : DumpState Dir) :
    Within (deliver host out session filePath needSandBox jsCallback d).1.files d.files := by
  rw [(deliver_keeps host out session filePath needSandBox jsCallback d).1]
  exact deleteOldFile_within host out filePath session.settings.maxFileNum d.files

/-- Within the retention limit nothing is deleted, and the callback gets the names of the
    dump. -/
theorem deliver_of_no_retention {out : Outside} {session : Session} {filePath : String}
    {d : DumpState Dir}
    (hret : DumpEvent.retention ∉ (deliver host out session filePath true true d).2) :
    let path := filePath ++ "/" ++ getHeapBaseName host d
    ∃ d' report, deliver host out session filePath true true d
        = (d', [.jsCallback
              [path ++ ".jsleaklist", if d.dumpStatus then path ++ ".rawheap" else ""],
            if out.callbackThrows then .failed else .reportRawHeap report])
      ∧ d'.files = d.files := by
  intro path
  have hold : deleteOldFile host out filePath session.settings.maxFileNum d.files
      = (d.files, true, []) := by
    have hevents := (deliver_keeps host out session filePath true true d).2.2.2.2
    exact deleteOldFile_of_no_retention host (fun hmem => hret (hevents _ hmem))
  rw [deliver, hold]
  cases out.callbackThrows with
  | false => exact ⟨_, _, rfl, rfl⟩
  | true => exact ⟨_, d.report, rfl, rfl⟩

-- ── What is written ───────────────────────────────────────────────────────────────

/-- The state of the dumps when `getJsleaklistFile` creates the `.jsleaklist` file. -/
def prepared (out : Outside) (filePath : String) (d : DumpState Dir) : DumpState Dir :=
  if d.dumpStatus then d else stamp out (cleanUp host out filePath d)

/-- Where the leak list of a dump is written. -/
def jsleaklistPath (filePath : String) (d : DumpState Dir) : Path Dir :=
  (host.dirOf filePath, getHeapBaseName host d ++ ".jsleaklist")

/-- What is written to the `.jsleaklist` file, unless the heap file cannot be opened. -/
def writtenText (out : Outside) (watchObjMap : WatchMap) (filePath : String)
    (d : DumpState Dir) : Option String :=
  let d := prepared host out filePath d
  let desFilePath := (host.dirOf filePath, getHeapBaseName host d ++ ".rawheap")
  let hash :=
    if d.dumpStatus then
      getHeapDumpSHA256 host out desFilePath (openCreate (jsleaklistPath host filePath d) d.files)
    else some ""
  hash.map (fun hash => resultText true hash (getLeakList watchObjMap))

/-- **The text is what the code writes.** -/
theorem getJsleaklistFile_writes (out : Outside) (session : Session) (filePath : String)
    (needSandBox jsCallback : Bool) (d : DumpState Dir) :
    getJsleaklistFile host out session filePath needSandBox true jsCallback d
      = let d' := prepared host out filePath d
        let file := jsleaklistPath host filePath d'
        match writtenText host out session.watchObjMap filePath d with
        | none => ({ d' with files := openCreate file d'.files }, [.failed])
        | some text =>
            deliver host out session filePath needSandBox jsCallback
              { d' with files := writeSync file (utf8 text) (openCreate file d'.files) } := by
  have hprepared : getJsleaklistFile host out session filePath needSandBox true jsCallback d
      = describe host out session filePath needSandBox true jsCallback
          (prepared host out filePath d) := by
    simp only [getJsleaklistFile, prepared]
    cases hstatus : d.dumpStatus with
    | true =>
        rw [Bool.not_true, if_neg Bool.false_ne_true, hstatus]
        rfl
    | false =>
        obtain ⟨files, -, hclean⟩ := cleanUp_spec host out filePath d
        rw [Bool.not_false, if_pos rfl, hclean]
        show describe host out session filePath needSandBox true jsCallback
          (if d.dumpStatus = true then _ else _) = _
        rw [hstatus]
        rfl
  rw [hprepared]
  simp only [writtenText]
  generalize prepared host out filePath d = d'
  show (match (if d'.dumpStatus then getHeapDumpSHA256 host out
      (host.dirOf filePath, getHeapBaseName host d' ++ ".rawheap")
      (openCreate (jsleaklistPath host filePath d') d'.files) else some "") with
    | none => _
    | some heapDumpSHA256 => _) = _
  generalize (if d'.dumpStatus then getHeapDumpSHA256 host out
      (host.dirOf filePath, getHeapBaseName host d' ++ ".rawheap")
      (openCreate (jsleaklistPath host filePath d') d'.files) else some "") = hash
  cases hash with
  | none => rfl
  | some hash => rfl

/-- What precedes the leak list adds no file. -/
theorem prepared_within (out : Outside) (filePath : String) (d : DumpState Dir) :
    Within (prepared host out filePath d).files d.files := by
  simp only [prepared]
  split
  · exact Within.refl _
  · obtain ⟨files, hwithin, hclean⟩ := cleanUp_spec host out filePath d
    rw [hclean]
    exact hwithin

-- ── The hash covers the file ──────────────────────────────────────────────────────

/-- A read before the end of the file returns something. -/
theorem readBlock_eq_nil_iff (reads : Nat → Nat) (k : Nat) (rest : List UInt8) :
    readBlock reads k rest = [] ↔ rest = [] := by
  show rest.take (min (max 1 (reads k)) 40960) = [] ↔ rest = []
  rw [List.take_eq_nil_iff]
  refine or_iff_right ?_
  omega

/-- **The loop hashes the whole file**, however the reads are cut. -/
theorem updateLoop_eq (reads : Nat → Nat) (file : List UInt8) :
    ∀ (fuel k : Nat) (updated : List UInt8), updated <+: file →
      file.length < updated.length + fuel → updateLoop reads file fuel k updated = file := by
  intro fuel
  induction fuel with
  | zero =>
      intro k updated hpre hlen
      exact absurd hpre.length_le (by omega)
  | succ fuel ih =>
      intro k updated hpre hlen
      obtain ⟨rest, hrest⟩ := hpre
      have hdrop : file.drop updated.length = rest := by rw [← hrest, List.drop_left]
      show (if readBlock reads k (file.drop updated.length) = [] then updated
        else updateLoop reads file fuel (k + 1)
          (updated ++ readBlock reads k (file.drop updated.length))) = file
      rw [hdrop]
      by_cases hblock : readBlock reads k rest = []
      · rw [if_pos hblock, ← hrest, (readBlock_eq_nil_iff reads k rest).mp hblock,
          List.append_nil]
      · rw [if_neg hblock]
        have hpos : 0 < (readBlock reads k rest).length := List.length_pos_iff.mpr hblock
        refine ih (k + 1) (updated ++ readBlock reads k rest) ?_ ?_
        · rw [← hrest]
          exact (List.prefix_append_right_inj updated).mpr (List.take_prefix _ rest)
        · rw [List.length_append]
          omega

/-- The hash is that of the file as it stands. -/
theorem getHeapDumpSHA256_eq (out : Outside) (p : Path Dir) (files : Files Dir) :
    getHeapDumpSHA256 host out p files
      = (files.get p).map (fun file => toHex (host.sha256 file)) := by
  show (match files.get p with
    | none => none
    | some file => some (toHex (host.sha256 (updateLoop out.reads file (file.length + 1) 0 []))))
    = _
  cases files.get p with
  | none => rfl
  | some file =>
      have hloop : updateLoop out.reads file (file.length + 1) 0 [] = file :=
        updateLoop_eq out.reads file _ 0 [] List.nil_prefix (by rw [List.length_nil]; omega)
      show some (toHex (host.sha256 (updateLoop out.reads file (file.length + 1) 0 []))) = _
      rw [hloop]
      rfl

end DumpFile
