import HiChecker.DumpCleanUpProofs

/-!
# Several process threads that dump into shared directories

Each process thread runs its own copy of the script, with its own module variables; what
they share is the files. A dump is not one step: it cleans up, creates its heap file, has
it written on another thread, writes its `.jsleaklist` and deletes old files, and between
any two of these another party may run.

* **`Parties`** — the files, and of each party its module variables, the dumps whose
  callback is outstanding, and where its running call is.
* **`parties`** — the machine: one file operation of a dump at a time.
* **`step_files`** — what a step does to the files.
* **`solo_step`** — one party's calls, run without interruption, are the dumps of
  `DumpIdentity`.
-/

namespace DumpParties

open Transition JsValue OrderedMapLib WatcherConfig LeakRound FileStore DumpFile DumpIdentity
open DumpNames DumpCleanUp

variable {Dir : Type}

-- ── A dump in progress ────────────────────────────────────────────────────────────

/-- The host as it is for a process thread. -/
def hostOf (host : Host Dir) (p : Process) : Host Dir := { host with process := p }

/-- A dump with a heap file. -/
structure HeapDump where
  filePath : String
  time : Nat
  isRawHeap : Bool
deriving DecidableEq

/-- The heap file of a dump of a party. -/
def HeapDump.heap (host : Host Dir) (p : Process) (dump : HeapDump) : Path Dir :=
  (host.dirOf dump.filePath, fileName p dump.time (heapSuffix dump.isRawHeap))

/-- Its leak list. -/
def HeapDump.list (host : Host Dir) (p : Process) (dump : HeapDump) : Path Dir :=
  (host.dirOf dump.filePath, fileName p dump.time ".jsleaklist")

/-- What the running call of a party does next. -/
inductive Stage where
  | idle
  /-- create the heap file -/
  | create (filePath : String) (isRawHeap : Bool)
  /-- write a leak list alone, dumps being off; in the callback of a dump, or not -/
  | listOff (filePath : String) (dump : Option HeapDump)
  /-- write the leak list of a synchronous dump -/
  | list (dump : HeapDump)
  /-- delete old files, and deliver -/
  | deliver (filePath : String) (isSync : Bool) (dump : Option HeapDump)
deriving DecidableEq

/-- The dump that the running call is to complete. -/
def Stage.dumps : Stage → List HeapDump
  | .listOff _ dump => dump.toList
  | .list dump => [dump]
  | .deliver _ _ dump => dump.toList
  | _ => []

/-- A process thread. The files in `dump` are those of its last step. -/
structure Party (Dir : Type) where
  dump : DumpState Dir
  /-- the dumps whose callback is outstanding -/
  outstanding : List HeapDump
  stage : Stage

/-- The dumps that have started, with their heap file, and are not completed. -/
def Party.unfinished (x : Party Dir) : List HeapDump := x.outstanding ++ x.stage.dumps

/-- The one directory tree, and each party with its own variables. -/
structure Parties (Dir : Type) where
  files : Files Dir
  party : Process → Party Dir

/-- The state of the dumps as a party sees it. -/
def Parties.view (s : Parties Dir) (p : Process) : DumpState Dir :=
  { (s.party p).dump with files := s.files }

/-- The parties after a step of one of them. -/
def Parties.after (s : Parties Dir) (p : Process) (d : DumpState Dir)
    (outstanding : List HeapDump) (stage : Stage) : Parties Dir where
  files := d.files
  party := fun q =>
    if q = p then { dump := d, outstanding := outstanding, stage := stage } else s.party q

@[simp] theorem after_files (s : Parties Dir) (p : Process) (d : DumpState Dir)
    (outstanding : List HeapDump) (stage : Stage) :
    (s.after p d outstanding stage).files = d.files := rfl

@[simp] theorem after_self (s : Parties Dir) (p : Process) (d : DumpState Dir)
    (outstanding : List HeapDump) (stage : Stage) :
    (s.after p d outstanding stage).party p
      = { dump := d, outstanding := outstanding, stage := stage } := if_pos rfl

/-- A step of one party leaves the variables of the others. -/
theorem after_other (s : Parties Dir) {p q : Process} (hq : q ≠ p) (d : DumpState Dir)
    (outstanding : List HeapDump) (stage : Stage) :
    (s.after p d outstanding stage).party q = s.party q := if_neg hq

@[simp] theorem after_view (s : Parties Dir) (p : Process) (d : DumpState Dir)
    (outstanding : List HeapDump) (stage : Stage) :
    (s.after p d outstanding stage).view p = d := by
  rw [Parties.view, after_self]
  rfl

variable [DecidableEq Dir]

-- ── The steps of a dump ───────────────────────────────────────────────────────────

/-- `createHeapDumpFile` after its clean-up. -/
def createHeapFile (host : Host Dir) (out : Outside) (filePath : String) (isRawHeap : Bool)
    (d : DumpState Dir) : DumpState Dir × Bool × List DumpEvent :=
  let dir := host.dirOf filePath
  let d := stamp out d
  let heapDumpFileName := getHeapBaseName host d ++ heapSuffix isRawHeap
  if isRawHeap then
    ({ d with files := openCreate (dir, heapDumpFileName) d.files }, true,
      [.dumpRawHeap (filePath ++ "/" ++ heapDumpFileName)])
  else
    let sandbox := (host.dirOf sandboxPath, heapDumpFileName)
    moveHeapFile sandbox (dir, heapDumpFileName)
      { d with files := d.files.set sandbox out.heapData }

/-- Open the `.jsleaklist` file, hash the heap file, write; the boolean is `false` when the
    heap file could not be opened. -/
def writeJsleaklist (host : Host Dir) (out : Outside) (session : Session) (filePath : String)
    (isRawHeap hashes : Bool) (d : DumpState Dir) : DumpState Dir × Bool :=
  let dir := host.dirOf filePath
  let file := (dir, getHeapBaseName host d ++ ".jsleaklist")
  let d := { d with files := openCreate file d.files }
  let desFilePath := (dir, getHeapBaseName host d ++ heapSuffix isRawHeap)
  match (if hashes then getHeapDumpSHA256 host out desFilePath d.files else some "") with
  | none => (d, false)
  | some heapDumpSHA256 =>
      let text := resultText isRawHeap heapDumpSHA256 (getLeakList session.watchObjMap)
      ({ d with files := writeSync file (utf8 text) d.files }, true)

/-- `dumpInnerSync` from `deleteOldFile` on. -/
def deliverSync (host : Host Dir) (out : Outside) (session : Session) (filePath : String)
    (d : DumpState Dir) : DumpState Dir × List DumpEvent :=
  let old := deleteOldFile host out filePath session.settings.maxFileNum d.files
  let d := { d with files := old.1 }
  if !old.2.1 then (d, old.2.2 ++ [.failed, .returned []])
  else (d, old.2.2 ++ [.returned [getHeapBaseName host d ++ ".jsleaklist",
    getHeapBaseName host d ++ ".heapsnapshot"]])

/-- The tests that a call makes before it touches a file let it through. -/
def admitted (session : Session) (out : Outside) : Bool := session.enabled && out.access

/-- `createHeapDumpFile` is its clean-up, and then the file. -/
theorem createHeapDumpFile_eq (host : Host Dir) (out : Outside) (filePath : String)
    (isRawHeap : Bool) (d : DumpState Dir) :
    createHeapDumpFile host out filePath isRawHeap (!isRawHeap) d
      = createHeapFile host out filePath isRawHeap (cleanUp host out filePath d) := by
  cases isRawHeap with
  | true => rfl
  | false => rfl

/-- `describe` is the leak list, and then the delivery. -/
theorem describe_eq (host : Host Dir) (out : Outside) (session : Session) (filePath : String)
    (needSandBox isRawHeap jsCallback : Bool) (d : DumpState Dir) :
    describe host out session filePath needSandBox isRawHeap jsCallback d
      = match writeJsleaklist host out session filePath isRawHeap d.dumpStatus d with
        | (d, false) => (d, [.failed])
        | (d, true) => DumpFile.deliver host out session filePath needSandBox jsCallback d := by
  rw [describe, writeJsleaklist]
  dsimp only
  generalize (if d.dumpStatus = true then getHeapDumpSHA256 host _ _ _ else some "") = hash
  cases hash with
  | none => rfl
  | some heapDumpSHA256 => rfl

/-- `describeSync` is the leak list, and then the delivery. -/
theorem describeSync_eq (host : Host Dir) (out : Outside) (session : Session)
    (filePath : String) (d : DumpState Dir) :
    describeSync host out session filePath false false d
      = match writeJsleaklist host out session filePath false true d with
        | (d, false) => (d, [.failed, .returned []])
        | (d, true) => deliverSync host out session filePath d := by
  rw [describeSync, writeJsleaklist]
  dsimp only [getHeapBaseName]
  rw [if_pos rfl]
  generalize getHeapDumpSHA256 host _ _ _ = hash
  cases hash with
  | none => rfl
  | some heapDumpSHA256 => rfl

/-- With dumps on, a call of `dumpInner` cleans up and creates the heap file. -/
theorem dumpInner_admitted (host : Host Dir) {session : Session} {out : Outside}
    (hadm : admitted session out = true) (hstatus : out.status = true) (filePath : String)
    (d : DumpState Dir) :
    dumpInner host out session filePath true true true d
      = ((createHeapFile host out filePath true
            (cleanUp host out filePath { d with dumpStatus := out.status })).1,
          (createHeapFile host out filePath true
            (cleanUp host out filePath { d with dumpStatus := out.status })).2.2) := by
  obtain ⟨henabled, haccess⟩ := Bool.and_eq_true_iff.mp hadm
  have hcreated := createHeapDumpFile_eq host out filePath true { d with dumpStatus := out.status }
  rw [dumpInner, henabled, haccess]
  show (if (!out.status) = true then _ else if
    (!(createHeapDumpFile host out filePath true false
      { d with dumpStatus := out.status }).2.1) = true then _
    else ((createHeapDumpFile host out filePath true false
        { d with dumpStatus := out.status }).1,
      (createHeapDumpFile host out filePath true false
        { d with dumpStatus := out.status }).2.2)) = _
  rw [if_neg (by rw [hstatus]; decide), show createHeapDumpFile host out filePath true false
    { d with dumpStatus := out.status } = _ from hcreated]
  rfl

/-- A synchronous call cleans up, creates the heap file and describes it. -/
theorem dumpInnerSync_admitted (host : Host Dir) {session : Session} {out : Outside}
    (hadm : admitted session out = true) (filePath : String) (d : DumpState Dir) :
    dumpInnerSync host out session filePath false false d
      = describeSync host out session filePath false false
          (createHeapFile host out filePath false (cleanUp host out filePath d)).1 := by
  obtain ⟨henabled, haccess⟩ := Bool.and_eq_true_iff.mp hadm
  obtain ⟨heap, hcreated, -⟩ := createHeapDumpFile_snapshot host out filePath d
  have hfile := createHeapDumpFile_eq host out filePath false d
  rw [dumpInnerSync, henabled, haccess]
  show (if (!(createHeapDumpFile host out filePath false true d).2.1) = true then _
    else describeSync host out session filePath false false
      (createHeapDumpFile host out filePath false true d).1) = _
  rw [← hfile]
  show _ = describeSync host out session filePath false false
    (createHeapDumpFile host out filePath false true d).1
  rw [hcreated]
  rfl

-- ── The machine ───────────────────────────────────────────────────────────────────

/-- What can happen next: a party makes the next step of its call, a dump thread writes or is over,
    or somebody else touches a file. -/
inductive Input (Dir : Type) where
  /-- a file that is not a dump's is put, or taken away: the application's own, or another
      component's -/
  | application (path : Path Dir) (bytes : Option (List UInt8))
  /-- `dumpInner` is called, and runs up to its clean-up -/
  | dumpInner (p : Process) (filePath : String) (session : Session) (out : Outside)
  /-- `dumpInnerSync` is called, and runs up to its clean-up -/
  | dump (p : Process) (filePath : String) (session : Session) (out : Outside)
  | createHeap (p : Process) (out : Outside)
  /-- the thread of the `k`-th outstanding dump writes to its heap file -/
  | heapWrite (p : Process) (k : Nat) (bytes : List UInt8)
  /-- the callback of the `k`-th outstanding dump runs, up to its first change of a file -/
  | callback (p : Process) (k : Nat) (session : Session) (out : Outside)
  | writeList (p : Process) (session : Session) (out : Outside)
  /-- `deleteOldFile`, and what follows it -/
  | retention (p : Process) (session : Session) (out : Outside)

/-- What is seen of the parties. -/
inductive Event where
  | dump (p : Process) (e : DumpEvent)
  /-- a dump with a heap file is over -/
  | ended (p : Process) (dump : HeapDump)
deriving DecidableEq

/-- A file that no dump writes is put or taken away. -/
def stepApplication (s : Parties Dir) (path : Path Dir) (bytes : Option (List UInt8)) :
    Option (Parties Dir × List Event) :=
  if WatcherName path.2 then none
  else
    match bytes with
    | none => some ({ s with files := s.files.delete path }, [])
    | some bytes => some ({ s with files := s.files.set path bytes }, [])

variable (host : Host Dir)

/-- `dumpInner`, up to its clean-up or through the branch without a heap. -/
def stepDumpInner (s : Parties Dir) (p : Process) (filePath : String) (session : Session)
    (out : Outside) : Option (Parties Dir × List Event) :=
  let outstanding := (s.party p).outstanding
  match (s.party p).stage with
  | .idle =>
      let d := { s.view p with dumpStatus := out.status }
      if !admitted session out then
        some (s.after p d outstanding .idle, if !session.enabled then [] else [.dump p .failed])
      else
        let d := cleanUp (hostOf host p) out filePath d
        some (s.after p d outstanding
          (if out.status then .create filePath true else .listOff filePath none), [])
  | _ => none

/-- `dumpInnerSync`, up to its clean-up. -/
def stepDump (s : Parties Dir) (p : Process) (filePath : String) (session : Session)
    (out : Outside) : Option (Parties Dir × List Event) :=
  let outstanding := (s.party p).outstanding
  match (s.party p).stage with
  | .idle =>
      if !admitted session out then
        some (s.after p (s.view p) outstanding .idle,
          [.dump p (if !session.enabled then .returned [] else .failed)])
      else
        let d := cleanUp (hostOf host p) out filePath (s.view p)
        some (s.after p d outstanding (.create filePath false), [])
  | _ => none

/-- The heap file is created, and filled or left to its thread. -/
def stepCreateHeap (s : Parties Dir) (p : Process) (out : Outside) :
    Option (Parties Dir × List Event) :=
  let outstanding := (s.party p).outstanding
  match (s.party p).stage with
  | .create filePath isRawHeap =>
      let created := createHeapFile (hostOf host p) out filePath isRawHeap (s.view p)
      let dump := { filePath := filePath, time := out.time, isRawHeap := isRawHeap }
      if !created.2.1 then
        some (s.after p created.1 outstanding .idle, [.dump p .failed, .dump p (.returned [])])
      else if isRawHeap then
        some (s.after p created.1 (outstanding ++ [dump]) .idle, created.2.2.map (.dump p))
      else some (s.after p created.1 outstanding (.list dump), [])
  | _ => none

/-- A dump thread writes a part of its heap file. -/
def stepHeapWrite (s : Parties Dir) (p : Process) (k : Nat) (bytes : List UInt8) :
    Option (Parties Dir × List Event) :=
  match (s.party p).outstanding[k]? with
  | none => none
  | some dump => some ({ s with files := appendTo (dump.heap host p) bytes s.files }, [])

/-- A dump thread is over, and its callback is called. -/
def stepCallback (s : Parties Dir) (p : Process) (k : Nat) (session : Session)
    (out : Outside) : Option (Parties Dir × List Event) :=
  match (s.party p).stage, (s.party p).outstanding[k]? with
  | .idle, some dump =>
      let d := s.view p
      let outstanding := (s.party p).outstanding.eraseIdx k
      if d.dumpStatus then
        let written := writeJsleaklist (hostOf host p) out session dump.filePath true true d
        if written.2 then
          some (s.after p written.1 outstanding (.deliver dump.filePath false (some dump)), [])
        else some (s.after p written.1 outstanding .idle, [.dump p .failed, .ended p dump])
      else
        let d := cleanUp (hostOf host p) out dump.filePath d
        some (s.after p d outstanding (.listOff dump.filePath (some dump)), [])
  | _, _ => none

/-- The leak list is written. -/
def stepWriteList (s : Parties Dir) (p : Process) (session : Session) (out : Outside) :
    Option (Parties Dir × List Event) :=
  let outstanding := (s.party p).outstanding
  match (s.party p).stage with
  | .listOff filePath dump =>
      let written := writeJsleaklist (hostOf host p) out session filePath true false
        (stamp out (s.view p))
      some (s.after p written.1 outstanding (.deliver filePath false dump), [])
  | .list dump =>
      let written := writeJsleaklist (hostOf host p) out session dump.filePath false true
        (s.view p)
      if written.2 then
        some (s.after p written.1 outstanding (.deliver dump.filePath true (some dump)), [])
      else
        some (s.after p written.1 outstanding .idle,
          [.dump p .failed, .dump p (.returned []), .ended p dump])
  | _ => none

/-- The old files are evicted, and the dump is delivered. -/
def stepRetention (s : Parties Dir) (p : Process) (session : Session) (out : Outside) :
    Option (Parties Dir × List Event) :=
  match (s.party p).stage with
  | .deliver filePath isSync dump =>
      let call :=
        if isSync then deliverSync (hostOf host p) out session filePath (s.view p)
        else DumpFile.deliver (hostOf host p) out session filePath true true (s.view p)
      some (s.after p call.1 (s.party p).outstanding .idle,
        call.2.map (.dump p) ++ dump.toList.map (.ended p))
  | _ => none

/-- One step of one party. -/
def step (s : Parties Dir) : Input Dir → Option (Parties Dir × List Event)
  | .application path bytes => stepApplication s path bytes
  | .dumpInner p filePath session out => stepDumpInner host s p filePath session out
  | .dump p filePath session out => stepDump host s p filePath session out
  | .createHeap p out => stepCreateHeap host s p out
  | .heapWrite p k bytes => stepHeapWrite host s p k bytes
  | .callback p k session out => stepCallback host s p k session out
  | .writeList p session out => stepWriteList host s p session out
  | .retention p session out => stepRetention host s p session out

/-- The parties, none of which has started a dump, over any files. -/
def parties (files : Files Dir) (load : Process → DumpState Dir) :
    Machine (Parties Dir) (Input Dir) Event :=
  ⟨{ files := files
     party := fun p => { dump := load p, outstanding := [], stage := .idle } }, step host⟩

variable {host}

-- ── What a step does, case by case ────────────────────────────────────────────────

section Cases

variable {s s' : Parties Dir} {es : List Event} {p : Process} {session : Session}
  {out : Outside} {filePath : String}

/-- What the application can do. -/
theorem stepApplication_cases {path : Path Dir} {bytes : Option (List UInt8)}
    (h : stepApplication s path bytes = some (s', es)) :
    ¬ WatcherName path.2 ∧ s'.party = s.party ∧ es = []
      ∧ SameBut (fun q => q = path) s'.files s.files := by
  rw [stepApplication.eq_def] at h
  by_cases hname : WatcherName path.2
  · exact absurd ((if_pos hname).symm.trans h).symm (Option.some_ne_none _)
  · rw [if_neg hname] at h
    refine ⟨hname, ?_⟩
    cases bytes with
    | none =>
        obtain ⟨rfl, rfl⟩ := Prod.mk.inj (Option.some.inj h)
        exact ⟨rfl, rfl, sameBut_delete (P := fun q => q = path) rfl s.files⟩
    | some bytes =>
        obtain ⟨rfl, rfl⟩ := Prod.mk.inj (Option.some.inj h)
        exact ⟨rfl, rfl, sameBut_set (P := fun q => q = path) rfl bytes s.files⟩

/-- What a call of `dumpInner` can do. -/
theorem stepDumpInner_cases (h : stepDumpInner host s p filePath session out = some (s', es)) :
    (s.party p).stage = .idle ∧
    ((admitted session out = false ∧ s' = s.after p { s.view p with dumpStatus := out.status }
        (s.party p).outstanding .idle ∧ (es = [] ∨ es = [.dump p .failed]))
      ∨ (admitted session out = true ∧ s' = s.after p
          (cleanUp (hostOf host p) out filePath { s.view p with dumpStatus := out.status })
          (s.party p).outstanding
          (if out.status then .create filePath true else .listOff filePath none) ∧ es = [])) := by
  rw [stepDumpInner] at h
  cases hstage : (s.party p).stage with
  | idle =>
      rw [hstage] at h
      refine ⟨rfl, ?_⟩
      cases hadm : admitted session out with
      | false =>
          rw [hadm] at h
          obtain ⟨rfl, rfl⟩ := Prod.mk.inj (Option.some.inj h)
          refine Or.inl ⟨rfl, rfl, ?_⟩
          cases session.enabled with
          | false => exact Or.inl rfl
          | true => exact Or.inr rfl
      | true =>
          rw [hadm] at h
          obtain ⟨rfl, rfl⟩ := Prod.mk.inj (Option.some.inj h)
          exact Or.inr ⟨rfl, rfl, rfl⟩
  | _ =>
      rw [hstage] at h
      exact absurd h.symm (Option.some_ne_none _)

/-- What a call of `dumpInnerSync` can do. -/
theorem stepDump_cases (h : stepDump host s p filePath session out = some (s', es)) :
    (s.party p).stage = .idle ∧
    ((admitted session out = false ∧ s' = s.after p (s.view p) (s.party p).outstanding .idle
        ∧ (es = [.dump p (.returned [])] ∨ es = [.dump p .failed]))
      ∨ (admitted session out = true ∧ s' = s.after p
          (cleanUp (hostOf host p) out filePath (s.view p)) (s.party p).outstanding
          (.create filePath false) ∧ es = [])) := by
  rw [stepDump] at h
  cases hstage : (s.party p).stage with
  | idle =>
      rw [hstage] at h
      refine ⟨rfl, ?_⟩
      cases hadm : admitted session out with
      | false =>
          rw [hadm] at h
          obtain ⟨rfl, rfl⟩ := Prod.mk.inj (Option.some.inj h)
          refine Or.inl ⟨rfl, rfl, ?_⟩
          cases session.enabled with
          | false => exact Or.inl rfl
          | true => exact Or.inr rfl
      | true =>
          rw [hadm] at h
          obtain ⟨rfl, rfl⟩ := Prod.mk.inj (Option.some.inj h)
          exact Or.inr ⟨rfl, rfl, rfl⟩
  | _ =>
      rw [hstage] at h
      exact absurd h.symm (Option.some_ne_none _)

/-- Creating the heap file never fails: what is moved was just written. -/
theorem createHeapFile_spec (host : Host Dir) (out : Outside) (filePath : String)
    (isRawHeap : Bool) (d : DumpState Dir) :
    ∃ files es, createHeapFile host out filePath isRawHeap d
        = ({ d with curTimeStamp := toString out.time, files := files }, true, es)
      ∧ (∀ e ∈ es, ∃ path, e = .dumpRawHeap path)
      ∧ files.has (host.dirOf filePath,
          fileName host.process out.time (heapSuffix isRawHeap)) = true
      ∧ SameBut (fun q => q.2 = fileName host.process out.time (heapSuffix isRawHeap))
          files d.files := by
  cases isRawHeap with
  | true =>
      refine ⟨_, _, rfl, ?_, has_openCreate _ _ (Or.inl rfl), sameBut_openCreate
        (P := fun q => q.2 = fileName host.process out.time ".rawheap") rfl d.files⟩
      intro e he
      exact ⟨_, List.mem_singleton.mp he⟩
  | false =>
      let name := fileName host.process out.time ".heapsnapshot"
      have hset : (d.files.set (host.dirOf sandboxPath, name) out.heapData).get
          (host.dirOf sandboxPath, name) = some out.heapData := by
        rw [OrderedMap.get_set]
        exact if_pos rfl
      obtain ⟨files, hmove, hget, -⟩ := moveFileSync_spec (P := fun _ => True)
        (host.dirOf filePath, name) trivial hset
      refine ⟨files, [], ?_, fun e he => absurd he List.not_mem_nil,
        (OrderedMap.has_iff _ _).mpr ⟨_, hget⟩, ?_⟩
      · exact moveHeapFile_of_some (d := { d with
          curTimeStamp := toString out.time
          files := d.files.set (host.dirOf sandboxPath, name) out.heapData }) hmove
      · exact (sameBut_moveFileSync (P := fun q => q.2 = name) rfl rfl hmove).trans
          (sameBut_set (P := fun q => q.2 = name) rfl _ _)

/-- What creating the heap file can do. -/
theorem stepCreateHeap_cases (h : stepCreateHeap host s p out = some (s', es)) :
    ∃ filePath isRawHeap, (s.party p).stage = .create filePath isRawHeap
      ∧ ∃ files, s' = s.after p { s.view p with curTimeStamp := toString out.time, files := files }
          (if isRawHeap then (s.party p).outstanding ++ [⟨filePath, out.time, true⟩]
            else (s.party p).outstanding)
          (if isRawHeap then .idle else .list ⟨filePath, out.time, false⟩)
        ∧ (∀ e ∈ es, ∃ path, e = .dump p (.dumpRawHeap path))
        ∧ files.has (host.dirOf filePath, fileName p out.time (heapSuffix isRawHeap)) = true
        ∧ SameBut (fun q => q.2 = fileName p out.time (heapSuffix isRawHeap)) files s.files := by
  rw [stepCreateHeap] at h
  cases hstage : (s.party p).stage with
  | create filePath isRawHeap =>
      rw [hstage] at h
      obtain ⟨files, des, hrun, hdes, hhas, hsame⟩ :=
        createHeapFile_spec (hostOf host p) out filePath isRawHeap (s.view p)
      simp only [hrun] at h
      refine ⟨filePath, isRawHeap, rfl, files, ?_⟩
      cases isRawHeap with
      | true =>
          obtain ⟨rfl, rfl⟩ := Prod.mk.inj (Option.some.inj h)
          refine ⟨rfl, ?_, hhas, hsame⟩
          intro e he
          obtain ⟨de, hde, rfl⟩ := List.mem_map.mp he
          obtain ⟨path, rfl⟩ := hdes de hde
          exact ⟨path, rfl⟩
      | false =>
          obtain ⟨rfl, rfl⟩ := Prod.mk.inj (Option.some.inj h)
          exact ⟨rfl, fun e he => absurd he List.not_mem_nil, hhas, hsame⟩
  | _ =>
      rw [hstage] at h
      exact absurd h.symm (Option.some_ne_none _)

/-- What a write of a dump thread does. -/
theorem stepHeapWrite_cases {k : Nat} {bytes : List UInt8}
    (h : stepHeapWrite host s p k bytes = some (s', es)) :
    ∃ dump, (s.party p).outstanding[k]? = some dump ∧ es = []
      ∧ s' = { s with files := appendTo (dump.heap host p) bytes s.files } := by
  rw [stepHeapWrite] at h
  cases hk : (s.party p).outstanding[k]? with
  | none =>
      rw [hk] at h
      exact absurd h.symm (Option.some_ne_none _)
  | some dump =>
      rw [hk] at h
      obtain ⟨rfl, rfl⟩ := Prod.mk.inj (Option.some.inj h)
      exact ⟨dump, rfl, rfl, rfl⟩

/-- The leak list is written under the name of the moment; without its heap file only an
    empty one is left. -/
theorem writeJsleaklist_spec (host : Host Dir) (out : Outside) (session : Session)
    (filePath : String) (isRawHeap hashes : Bool) (d : DumpState Dir) :
    ∃ files ok, writeJsleaklist host out session filePath isRawHeap hashes d
        = ({ d with files := files }, ok)
      ∧ (hashes = false ∨ d.files.has (host.dirOf filePath,
          getHeapBaseName host d ++ heapSuffix isRawHeap) = true → ok = true)
      ∧ files.has (host.dirOf filePath, getHeapBaseName host d ++ ".jsleaklist") = true
      ∧ (∀ q, d.files.has q = true → files.has q = true)
      ∧ SameBut (fun q => q.2 = getHeapBaseName host d ++ ".jsleaklist") files d.files := by
  let file := (host.dirOf filePath, getHeapBaseName host d ++ ".jsleaklist")
  have hopen : ∀ q, q = file ∨ d.files.has q = true → (openCreate file d.files).has q = true :=
    fun q hq => has_openCreate file d.files hq
  have hsame : SameBut (fun q => q.2 = getHeapBaseName host d ++ ".jsleaklist")
      (openCreate file d.files) d.files :=
    sameBut_openCreate (P := fun q => q.2 = getHeapBaseName host d ++ ".jsleaklist") rfl d.files
  rw [writeJsleaklist]
  dsimp only
  cases hhash : (if hashes = true then getHeapDumpSHA256 host out _ _ else some "") with
  | none =>
      refine ⟨_, false, rfl, ?_, hopen _ (Or.inl rfl), fun q hq => hopen q (Or.inr hq), hsame⟩
      rintro (rfl | hheap)
      · exact absurd hhash (Option.some_ne_none _)
      · cases hashes with
        | false => exact absurd hhash (Option.some_ne_none _)
        | true =>
            rw [if_pos rfl, getHeapDumpSHA256_eq, Option.map_eq_none_iff] at hhash
            obtain ⟨heap, hget⟩ := (OrderedMap.has_iff _ _).mp (hopen _ (Or.inr hheap))
            exact absurd (hget.symm.trans hhash) (Option.some_ne_none _)
  | some hash =>
      refine ⟨_, true, rfl, fun _ => rfl, has_writeSync _ _ _ (hopen _ (Or.inl rfl)),
        fun q hq => has_writeSync _ _ _ (hopen q (Or.inr hq)), ?_⟩
      exact (sameBut_writeSync
        (P := fun q => q.2 = getHeapBaseName host d ++ ".jsleaklist") rfl _ _).trans hsame

/-- What the callback of a dump thread can do. -/
theorem stepCallback_cases {k : Nat} (h : stepCallback host s p k session out = some (s', es)) :
    (s.party p).stage = .idle ∧ ∃ dump, (s.party p).outstanding[k]? = some dump ∧
    (((s.party p).dump.dumpStatus = false ∧ s' = s.after p
        (cleanUp (hostOf host p) out dump.filePath (s.view p))
        ((s.party p).outstanding.eraseIdx k) (.listOff dump.filePath (some dump)) ∧ es = [])
      ∨ ((s.party p).dump.dumpStatus = true ∧ ∃ files ok, s' = s.after p
          { s.view p with files := files } ((s.party p).outstanding.eraseIdx k)
          (if ok then .deliver dump.filePath false (some dump) else .idle)
        ∧ es = (if ok then [] else [.dump p .failed, .ended p dump])
        ∧ writeJsleaklist (hostOf host p) out session dump.filePath true true (s.view p)
            = ({ s.view p with files := files }, ok))) := by
  rw [stepCallback] at h
  cases hstage : (s.party p).stage with
  | idle =>
      cases hk : (s.party p).outstanding[k]? with
      | none =>
          rw [hstage, hk] at h
          exact absurd h.symm (Option.some_ne_none _)
      | some dump =>
          rw [hstage, hk] at h
          refine ⟨rfl, dump, rfl, ?_⟩
          have hview : (s.view p).dumpStatus = (s.party p).dump.dumpStatus := rfl
          simp only [hview] at h
          cases hstatus : (s.party p).dump.dumpStatus with
          | false =>
              rw [hstatus] at h
              obtain ⟨rfl, rfl⟩ := Prod.mk.inj (Option.some.inj h)
              exact Or.inl ⟨rfl, rfl, rfl⟩
          | true =>
              obtain ⟨files, ok, hrun, -⟩ := writeJsleaklist_spec (hostOf host p) out session
                dump.filePath true true (s.view p)
              rw [hstatus, hrun] at h
              refine Or.inr ⟨rfl, files, ok, ?_⟩
              cases ok with
              | true =>
                  obtain ⟨rfl, rfl⟩ := Prod.mk.inj (Option.some.inj h)
                  exact ⟨rfl, rfl, hrun⟩
              | false =>
                  obtain ⟨rfl, rfl⟩ := Prod.mk.inj (Option.some.inj h)
                  exact ⟨rfl, rfl, hrun⟩
  | _ =>
      rw [hstage] at h
      exact absurd h.symm (Option.some_ne_none _)

/-- What writing the leak list can do. -/
theorem stepWriteList_cases (h : stepWriteList host s p session out = some (s', es)) :
    (∃ filePath dump, (s.party p).stage = .listOff filePath dump ∧ es = [] ∧ ∃ files,
      s' = s.after p { s.view p with curTimeStamp := toString out.time, files := files }
        (s.party p).outstanding (.deliver filePath false dump)
      ∧ SameBut (fun q => q.2 = fileName p out.time ".jsleaklist") files s.files)
    ∨ (∃ dump, (s.party p).stage = .list dump ∧ ∃ files ok,
      s' = s.after p { s.view p with files := files } (s.party p).outstanding
        (if ok then .deliver dump.filePath true (some dump) else .idle)
      ∧ es = (if ok then []
          else [.dump p .failed, .dump p (.returned []), .ended p dump])
      ∧ writeJsleaklist (hostOf host p) out session dump.filePath false true (s.view p)
          = ({ s.view p with files := files }, ok)) := by
  rw [stepWriteList] at h
  cases hstage : (s.party p).stage with
  | listOff filePath dump =>
      rw [hstage] at h
      obtain ⟨files, ok, hrun, -, -, -, hsame⟩ := writeJsleaklist_spec (hostOf host p) out
        session filePath true false (stamp out (s.view p))
      simp only [hrun] at h
      obtain ⟨rfl, rfl⟩ := Prod.mk.inj (Option.some.inj h)
      exact Or.inl ⟨filePath, dump, rfl, rfl, files, rfl, hsame⟩
  | list dump =>
      rw [hstage] at h
      obtain ⟨files, ok, hrun, -⟩ := writeJsleaklist_spec (hostOf host p) out session
        dump.filePath false true (s.view p)
      simp only [hrun] at h
      refine Or.inr ⟨dump, rfl, files, ok, ?_⟩
      cases ok with
      | true =>
          obtain ⟨rfl, rfl⟩ := Prod.mk.inj (Option.some.inj h)
          exact ⟨rfl, rfl, hrun⟩
      | false =>
          obtain ⟨rfl, rfl⟩ := Prod.mk.inj (Option.some.inj h)
          exact ⟨rfl, rfl, hrun⟩
  | _ =>
      rw [hstage] at h
      exact absurd h.symm (Option.some_ne_none _)

/-- The ends of both kinds of dump delete old files, and change no variable that makes a
    base name. -/
theorem deliver_spec (host : Host Dir) (out : Outside) (session : Session) (filePath : String)
    (isSync : Bool) (d : DumpState Dir) :
    let old := deleteOldFile host out filePath session.settings.maxFileNum d.files
    let call := if isSync then deliverSync host out session filePath d
      else DumpFile.deliver host out session filePath true true d
    call.1.files = old.1 ∧ call.1.curTimeStamp = d.curTimeStamp
      ∧ call.1.dumpStatus = d.dumpStatus ∧ call.1.firstDump = d.firstDump
      ∧ ∀ e ∈ old.2.2, e ∈ call.2 := by
  intro old call
  cases isSync with
  | true =>
      have hcall : call = if (!old.2.1) = true then
          ({ d with files := old.1 }, old.2.2 ++ [.failed, .returned []])
        else ({ d with files := old.1 }, old.2.2 ++ [.returned
          [getHeapBaseName host d ++ ".jsleaklist", getHeapBaseName host d ++ ".heapsnapshot"]]) :=
        rfl
      rw [hcall]
      split
      · exact ⟨rfl, rfl, rfl, rfl, fun e he => List.mem_append_left _ he⟩
      · exact ⟨rfl, rfl, rfl, rfl, fun e he => List.mem_append_left _ he⟩
  | false =>
      exact deliver_keeps host out session filePath true true d

/-- What the delivery does. -/
theorem stepRetention_cases (h : stepRetention host s p session out = some (s', es)) :
    ∃ filePath isSync dump, (s.party p).stage = .deliver filePath isSync dump
      ∧ ∃ (d : DumpState Dir) (des : List DumpEvent),
          s' = s.after p d (s.party p).outstanding .idle
        ∧ es = des.map (.dump p) ++ dump.toList.map (.ended p)
        ∧ d.files = (deleteOldFile (hostOf host p) out filePath session.settings.maxFileNum
            s.files).1
        ∧ d.curTimeStamp = (s.party p).dump.curTimeStamp
        ∧ d.dumpStatus = (s.party p).dump.dumpStatus
        ∧ (Event.dump p .retention ∉ es → d.files = s.files) := by
  rw [stepRetention] at h
  cases hstage : (s.party p).stage with
  | deliver filePath isSync dump =>
      rw [hstage] at h
      obtain ⟨hfiles, hstamp, hstatus, -, hold⟩ :=
        deliver_spec (hostOf host p) out session filePath isSync (s.view p)
      obtain ⟨rfl, rfl⟩ := Prod.mk.inj (Option.some.inj h)
      refine ⟨filePath, isSync, dump, rfl, _, _, rfl, rfl, hfiles, hstamp, hstatus, ?_⟩
      intro hret
      rw [hfiles, deleteOldFile_of_no_retention]
      · rfl
      · intro hmem
        exact hret (List.mem_append_left _ (List.mem_map_of_mem (hold _ hmem)))
  | _ =>
      rw [hstage] at h
      exact absurd h.symm (Option.some_ne_none _)

end Cases

-- ── What a step does to the files ─────────────────────────────────────────────────

/-- The party that takes a step. -/
def actor : Input Dir → Option Process
  | .application _ _ => none
  | .dumpInner p _ _ _ | .dump p _ _ _ | .createHeap p _ | .heapWrite p _ _ | .callback p _ _ _
  | .writeList p _ _ | .retention p _ _ => some p

/-- A clean-up before a dump, and the call it is made in. -/
structure CleanUpCall where
  process : Process
  filePath : String
  out : Outside

/-- The clean-up that a step makes. -/
def cleaning (s : Parties Dir) : Input Dir → Option CleanUpCall
  | .dumpInner p filePath session out =>
      if admitted session out then some ⟨p, filePath, out⟩ else none
  | .dump p filePath session out =>
      if admitted session out then some ⟨p, filePath, out⟩ else none
  | .callback p k _ out =>
      match (s.party p).outstanding[k]? with
      | none => none
      | some dump =>
          if (s.party p).dump.dumpStatus then none else some ⟨p, dump.filePath, out⟩
  | _ => none

/-- A call of `deleteOldFile`. -/
structure RetentionCall where
  process : Process
  filePath : String
  out : Outside
  maxFileNum : JsNum

/-- The call of `deleteOldFile` that a step makes. -/
def retaining (s : Parties Dir) : Input Dir → Option RetentionCall
  | .retention p session out =>
      match (s.party p).stage with
      | .deliver filePath _ _ => some ⟨p, filePath, out, session.settings.maxFileNum⟩
      | _ => none
  | _ => none

omit [DecidableEq Dir] in
/-- A step makes at most one of the clean-ups. -/
theorem retaining_of_cleaning {s : Parties Dir} {a : Input Dir} {c : CleanUpCall}
    (h : cleaning s a = some c) : retaining s a = none := by
  cases a with
  | retention p session out => exact absurd h.symm (Option.some_ne_none _)
  | _ => rfl

/-- A name of a file that a party's dump writes: its base name was just made, or is that of
    a dump it has not completed. -/
def OwnName (s : Parties Dir) (p : Process) (name : String) : Prop :=
  ∃ text, ∃ suffix ∈ dumpSuffixes, name = getHeapPrefix p ++ text ++ suffix
    ∧ ((∃ time : Nat, text = toString time)
      ∨ (text = (s.party p).dump.curTimeStamp ∧ (s.party p).unfinished ≠ []))

/-- The paths that a step may write to. -/
def Touched (s : Parties Dir) (a : Input Dir) (path : Path Dir) : Prop :=
  match a with
  | .application path' _ => path = path' ∧ ¬ WatcherName path'.2
  | .dumpInner p _ _ _ | .dump p _ _ _ | .createHeap p _ | .heapWrite p _ _ | .callback p _ _ _
  | .writeList p _ _ | .retention p _ _ => OwnName s p path.2

omit [DecidableEq Dir] in
/-- A clean-up is made by the party that takes the step. -/
theorem actor_of_cleaning {s : Parties Dir} {a : Input Dir} {c : CleanUpCall}
    (h : cleaning s a = some c) : actor a = some c.process := by
  cases a with
  | dumpInner p filePath session out =>
      rw [cleaning] at h
      split at h
      · obtain rfl := Option.some.inj h
        rfl
      · exact absurd h.symm (Option.some_ne_none c)
  | dump p filePath session out =>
      rw [cleaning] at h
      split at h
      · obtain rfl := Option.some.inj h
        rfl
      · exact absurd h.symm (Option.some_ne_none c)
  | callback p k session out =>
      rw [cleaning] at h
      split at h
      · exact absurd h.symm (Option.some_ne_none c)
      · split at h
        · exact absurd h.symm (Option.some_ne_none c)
        · obtain rfl := Option.some.inj h
          rfl
  | _ => exact absurd h.symm (Option.some_ne_none c)

omit [DecidableEq Dir] in
/-- A file named by a party is not among those that the other steps write. -/
theorem not_touched_of_other {s : Parties Dir} {a : Input Dir} {q : Process}
    (hq : actor a ≠ some q) (dir : Dir) (time : Nat) {suffix : String}
    (hs : suffix ∈ dumpSuffixes) : ¬ Touched s a (dir, fileName q time suffix) := by
  intro htouched
  have hown : ∀ p, OwnName s p (fileName q time suffix) → p = q := by
    rintro p ⟨text, suffix', -, hname, -⟩
    rw [fileName, String.append_assoc, String.append_assoc] at hname
    exact (getHeapPrefix_inj hname).1.symm
  cases a with
  | application path bytes =>
      obtain ⟨rfl, hname⟩ := htouched
      exact hname (watcherName q time hs)
  | _ => exact hq (congrArg some (hown _ htouched))

/-- **The frame of a step**: the module variables and dumps of the other parties. -/
theorem step_party {s s' : Parties Dir} {a : Input Dir} {es : List Event} {q : Process}
    (hs : step host s a = some (s', es)) (hq : actor a ≠ some q) :
    s'.party q = s.party q := by
  have hne : ∀ {p : Process}, actor a = some p → q ≠ p := by
    rintro p hp rfl
    exact hq hp
  cases a with
  | application path bytes =>
      obtain ⟨-, hparty, -⟩ := stepApplication_cases hs
      rw [hparty]
  | dumpInner p filePath session out =>
      obtain ⟨-, ⟨-, rfl, -⟩ | ⟨-, rfl, -⟩⟩ := stepDumpInner_cases hs
      · exact after_other s (hne rfl) _ _ _
      · exact after_other s (hne rfl) _ _ _
  | dump p filePath session out =>
      obtain ⟨-, ⟨-, rfl, -⟩ | ⟨-, rfl, -⟩⟩ := stepDump_cases hs
      · exact after_other s (hne rfl) _ _ _
      · exact after_other s (hne rfl) _ _ _
  | createHeap p out =>
      obtain ⟨filePath, isRawHeap, -, files, rfl, -⟩ := stepCreateHeap_cases hs
      exact after_other s (hne rfl) _ _ _
  | heapWrite p k bytes =>
      obtain ⟨dump, -, -, rfl⟩ := stepHeapWrite_cases hs
      rfl
  | callback p k session out =>
      obtain ⟨-, dump, -, ⟨-, rfl, -⟩ | ⟨-, files, ok, rfl, -⟩⟩ := stepCallback_cases hs
      · exact after_other s (hne rfl) _ _ _
      · exact after_other s (hne rfl) _ _ _
  | writeList p session out =>
      rcases stepWriteList_cases hs with
        ⟨filePath, dump, -, -, files, rfl, -⟩ | ⟨dump, -, files, ok, rfl, -⟩
      · exact after_other s (hne rfl) _ _ _
      · exact after_other s (hne rfl) _ _ _
  | retention p session out =>
      obtain ⟨filePath, isSync, dump, -, d, des, rfl, -⟩ := stepRetention_cases hs
      exact after_other s (hne rfl) _ _ _

/-- A heap file has a suffix of the watcher's. -/
theorem mem_heapSuffix (isRawHeap : Bool) : heapSuffix isRawHeap ∈ dumpSuffixes := by
  cases isRawHeap with
  | true => exact mem_rawheap
  | false => exact mem_heapsnapshot

omit [DecidableEq Dir] in
/-- The files of a dump started at some time bear its party's name. -/
theorem ownName_time (s : Parties Dir) (p : Process) (time : Nat) {suffix : String}
    (hs : suffix ∈ dumpSuffixes) : OwnName s p (fileName p time suffix) :=
  ⟨toString time, suffix, hs, rfl, Or.inl ⟨time, rfl⟩⟩

/-- The dump parameter does not matter to the clean-up. -/
theorem cleanUp_status (host : Host Dir) (out : Outside) (filePath : String)
    (d : DumpState Dir) (status : Bool) :
    (cleanUp host out filePath { d with dumpStatus := status }).files
      = (cleanUp host out filePath d).files := by
  rw [cleanUp, cleanUp]
  cases hfirst : d.firstDump with
  | true => rfl
  | false => rfl

/-- **What a step does to the files**: it cleans up, or deletes old files, or writes under
    its own names. -/
theorem step_files {s s' : Parties Dir} {a : Input Dir} {es : List Event}
    (hs : step host s a = some (s', es)) :
    (∃ c, cleaning s a = some c ∧ s'.files
        = (cleanUp (hostOf host c.process) c.out c.filePath (s.view c.process)).files)
    ∨ (∃ c, retaining s a = some c ∧ s'.files
        = (deleteOldFile (hostOf host c.process) c.out c.filePath c.maxFileNum s.files).1
        ∧ (Event.dump c.process .retention ∉ es → s'.files = s.files))
    ∨ (cleaning s a = none ∧ retaining s a = none ∧ SameBut (Touched s a) s'.files s.files) := by
  cases a with
  | application path bytes =>
      obtain ⟨hname, -, -, hsame⟩ := stepApplication_cases hs
      refine Or.inr (Or.inr ⟨rfl, rfl, hsame.mono ?_⟩)
      rintro _ rfl
      exact ⟨rfl, hname⟩
  | dumpInner p filePath session out =>
      obtain ⟨-, ⟨hadm, rfl, -⟩ | ⟨hadm, rfl, -⟩⟩ := stepDumpInner_cases hs
      · refine Or.inr (Or.inr ⟨?_, rfl, SameBut.refl _ _⟩)
        rw [cleaning, hadm]
        rfl
      · refine Or.inl ⟨⟨p, filePath, out⟩, if_pos hadm, ?_⟩
        exact cleanUp_status _ out filePath (s.view p) out.status
  | dump p filePath session out =>
      obtain ⟨-, ⟨hadm, rfl, -⟩ | ⟨hadm, rfl, -⟩⟩ := stepDump_cases hs
      · refine Or.inr (Or.inr ⟨?_, rfl, SameBut.refl _ _⟩)
        rw [cleaning, hadm]
        rfl
      · exact Or.inl ⟨⟨p, filePath, out⟩, if_pos hadm, rfl⟩
  | createHeap p out =>
      obtain ⟨filePath, isRawHeap, -, files, rfl, -, -, hsame⟩ := stepCreateHeap_cases hs
      refine Or.inr (Or.inr ⟨rfl, rfl, hsame.mono ?_⟩)
      rintro ⟨dir, _⟩ rfl
      exact ownName_time s p out.time (mem_heapSuffix isRawHeap)
  | heapWrite p k bytes =>
      obtain ⟨dump, -, -, rfl⟩ := stepHeapWrite_cases hs
      refine Or.inr (Or.inr ⟨rfl, rfl, sameBut_appendTo ?_ bytes s.files⟩)
      exact ownName_time s p dump.time (mem_heapSuffix dump.isRawHeap)
  | callback p k session out =>
      obtain ⟨-, dump, hk, ⟨hstatus, rfl, -⟩ | ⟨hstatus, files, ok, rfl, -, hrun⟩⟩ :=
        stepCallback_cases hs
      · refine Or.inl ⟨⟨p, dump.filePath, out⟩, ?_, rfl⟩
        rw [cleaning, hk, hstatus]
        rfl
      · refine Or.inr (Or.inr ⟨?_, rfl, ?_⟩)
        · rw [cleaning, hk, hstatus]
          rfl
        · obtain ⟨files', ok', hrun', -, -, -, hsame⟩ := writeJsleaklist_spec (hostOf host p) out
            session dump.filePath true true (s.view p)
          have hfiles : files = files' :=
            congrArg (fun r => r.1.files) (hrun.symm.trans hrun')
          rw [hfiles]
          refine hsame.mono ?_
          rintro ⟨dir, _⟩ rfl
          refine ⟨_, _, mem_jsleaklist, rfl, Or.inr ⟨rfl, ?_⟩⟩
          intro hnil
          rw [(List.append_eq_nil_iff.mp hnil).1] at hk
          exact absurd hk.symm (Option.some_ne_none _)
  | writeList p session out =>
      rcases stepWriteList_cases hs with
        ⟨filePath, dump, -, -, files, rfl, hsame⟩ | ⟨dump, hstage, files, ok, rfl, -, hrun⟩
      · refine Or.inr (Or.inr ⟨rfl, rfl, hsame.mono ?_⟩)
        rintro ⟨dir, _⟩ rfl
        exact ownName_time s p out.time mem_jsleaklist
      · refine Or.inr (Or.inr ⟨rfl, rfl, ?_⟩)
        obtain ⟨files', ok', hrun', -, -, -, hsame⟩ := writeJsleaklist_spec (hostOf host p) out
          session dump.filePath false true (s.view p)
        have hfiles : files = files' :=
          congrArg (fun r => r.1.files) (hrun.symm.trans hrun')
        rw [hfiles]
        refine hsame.mono ?_
        rintro ⟨dir, _⟩ rfl
        refine ⟨_, _, mem_jsleaklist, rfl, Or.inr ⟨rfl, ?_⟩⟩
        intro hnil
        have hdumps := (List.append_eq_nil_iff.mp hnil).2
        rw [hstage] at hdumps
        exact absurd hdumps (List.cons_ne_nil _ _)
  | retention p session out =>
      obtain ⟨filePath, isSync, dump, hstage, d, des, rfl, -, hfiles, -, -, hkept⟩ :=
        stepRetention_cases hs
      refine Or.inr (Or.inl
        ⟨⟨p, filePath, out, session.settings.maxFileNum⟩, ?_, hfiles, hkept⟩)
      rw [retaining, hstage]

-- ── The base name of an uncompleted dump ──────────────────────────────────────────

/-- A party with an uncompleted dump has made a base name. -/
def Stamped (s : Parties Dir) : Prop :=
  ∀ p, (s.party p).unfinished ≠ [] →
    ∃ time : Nat, (s.party p).dump.curTimeStamp = toString time

/-- The clean-up changes files, and no variable. -/
theorem cleanUp_variables (host : Host Dir) (out : Outside) (filePath : String)
    (d : DumpState Dir) : (cleanUp host out filePath d).curTimeStamp = d.curTimeStamp
      ∧ (cleanUp host out filePath d).dumpStatus = d.dumpStatus := by
  obtain ⟨files, -, hclean⟩ := cleanUp_spec host out filePath d
  rw [hclean]
  exact ⟨rfl, rfl⟩

omit [DecidableEq Dir] in
/-- A step of a party keeps it when the party makes a base name, or keeps the one it has
    and had an uncompleted dump before. -/
theorem Stamped.after {s : Parties Dir} (h : Stamped s) {p : Process} {d : DumpState Dir}
    {outstanding : List HeapDump} {stage : Stage}
    (hp : (∃ time : Nat, d.curTimeStamp = toString time)
      ∨ (d.curTimeStamp = (s.party p).dump.curTimeStamp
        ∧ (outstanding ++ stage.dumps ≠ [] → (s.party p).unfinished ≠ []))) :
    Stamped (s.after p d outstanding stage) := by
  intro q hq
  by_cases hqp : q = p
  · rw [hqp, after_self] at hq ⊢
    rcases hp with htime | ⟨hsame, hdumps⟩
    · exact htime
    · obtain ⟨time, htime⟩ := h p (hdumps hq)
      exact ⟨time, hsame.trans htime⟩
  · rw [after_other s hqp] at hq ⊢
    exact h q hq

/-- **A step keeps the names stamped.** -/
theorem step_stamped {s s' : Parties Dir} {a : Input Dir} {es : List Event} (h : Stamped s)
    (hs : step host s a = some (s', es)) : Stamped s' := by
  have houtstanding : ∀ {p : Process} {k : Nat} {dump : HeapDump},
      (s.party p).outstanding[k]? = some dump → (s.party p).unfinished ≠ [] := by
    intro p k dump hk hnil
    rw [(List.append_eq_nil_iff.mp hnil).1] at hk
    exact absurd hk.symm (Option.some_ne_none _)
  cases a with
  | application path bytes =>
      obtain ⟨-, hparty, -, -⟩ := stepApplication_cases hs
      intro p hp
      rw [hparty] at hp ⊢
      exact h p hp
  | dumpInner p filePath session out =>
      obtain ⟨hidle, ⟨-, rfl, -⟩ | ⟨-, rfl, -⟩⟩ := stepDumpInner_cases hs
      · refine h.after (Or.inr ⟨rfl, fun hdumps hnil => hdumps ?_⟩)
        rw [(List.append_eq_nil_iff.mp hnil).1]
        rfl
      · refine h.after (Or.inr ⟨(cleanUp_variables _ _ _ _).1, fun hdumps hnil => hdumps ?_⟩)
        rw [(List.append_eq_nil_iff.mp hnil).1]
        cases out.status with
        | true => rfl
        | false => rfl
  | dump p filePath session out =>
      obtain ⟨hidle, ⟨-, rfl, -⟩ | ⟨-, rfl, -⟩⟩ := stepDump_cases hs
      · refine h.after (Or.inr ⟨rfl, fun hdumps hnil => hdumps ?_⟩)
        rw [(List.append_eq_nil_iff.mp hnil).1]
        rfl
      · refine h.after (Or.inr ⟨(cleanUp_variables _ _ _ _).1, fun hdumps hnil => hdumps ?_⟩)
        rw [(List.append_eq_nil_iff.mp hnil).1]
        rfl
  | createHeap p out =>
      obtain ⟨filePath, isRawHeap, -, files, rfl, -⟩ := stepCreateHeap_cases hs
      exact h.after (Or.inl ⟨out.time, rfl⟩)
  | heapWrite p k bytes =>
      obtain ⟨dump, -, -, rfl⟩ := stepHeapWrite_cases hs
      exact h
  | callback p k session out =>
      obtain ⟨-, dump, hk, ⟨-, rfl, -⟩ | ⟨-, files, ok, rfl, -⟩⟩ := stepCallback_cases hs
      · exact h.after (Or.inr ⟨(cleanUp_variables _ _ _ _).1, fun _ => houtstanding hk⟩)
      · exact h.after (Or.inr ⟨rfl, fun _ => houtstanding hk⟩)
  | writeList p session out =>
      rcases stepWriteList_cases hs with
        ⟨filePath, dump, -, -, files, rfl, -⟩ | ⟨dump, hstage, files, ok, rfl, -⟩
      · exact h.after (Or.inl ⟨out.time, rfl⟩)
      · refine h.after (Or.inr ⟨rfl, fun _ hnil => ?_⟩)
        have hdumps := (List.append_eq_nil_iff.mp hnil).2
        rw [hstage] at hdumps
        exact absurd hdumps (List.cons_ne_nil _ _)
  | retention p session out =>
      obtain ⟨filePath, isSync, dump, -, d, des, rfl, -, -, hstamp, -⟩ := stepRetention_cases hs
      refine h.after (Or.inr ⟨hstamp, fun hdumps hnil => hdumps ?_⟩)
      rw [(List.append_eq_nil_iff.mp hnil).1]
      rfl

omit [DecidableEq Dir] in
/-- Along every run the names a party writes have the form of its own files. -/
theorem OwnName.watcherName {s : Parties Dir} (h : Stamped s) {p : Process} {name : String}
    (hname : OwnName s p name) : WatcherName name := by
  obtain ⟨text, suffix, hs, rfl, htext⟩ := hname
  refine (watcherName_prefix_iff p text hs).mpr ?_
  rcases htext with htime | ⟨rfl, hdumps⟩
  · exact htime
  · exact h p hdumps

-- ── One party alone ───────────────────────────────────────────────────────────────

/-- An asynchronous dump, as the party that started it knows it. -/
def rawHeap (st : Started) : HeapDump := ⟨st.filePath, st.time, true⟩

/-- The party is between two calls, with these module variables and outstanding dumps. -/
structure Solo (p : Process) (d : DumpState Dir) (outstanding : List HeapDump)
    (s : Parties Dir) : Prop where
  view : s.view p = d
  outstanding : (s.party p).outstanding = outstanding
  stage : (s.party p).stage = .idle

/-- What the dumps emit. -/
def dumpEvents (es : List Event) : List DumpEvent :=
  es.filterMap (fun e => match e with
    | .dump _ e => some e
    | .ended _ _ => none)

omit [DecidableEq Dir] in
/-- A party that is through its call stands alone again. -/
theorem solo_after (s : Parties Dir) (p : Process) (d : DumpState Dir)
    (outstanding : List HeapDump) : Solo p d outstanding (s.after p d outstanding .idle) := by
  refine ⟨after_view s p d outstanding .idle, ?_, ?_⟩
  · rw [after_self]
  · rw [after_self]

/-- What a party shows of its dump is the dump's events. -/
theorem dumpEvents_dump (p : Process) (des : List DumpEvent) {es : List Event}
    (hes : dumpEvents es = []) : dumpEvents (des.map (.dump p) ++ es) = des := by
  have hmap : dumpEvents (des.map (.dump p)) = des := by
    rw [dumpEvents, List.filterMap_map]
    exact List.filterMap_some
  show (des.map (Event.dump p) ++ es).filterMap _ = des
  rw [List.filterMap_append]
  show dumpEvents (des.map (.dump p)) ++ dumpEvents es = des
  rw [hmap, hes, List.append_nil]

/-- The end of a dump is none of its events. -/
theorem dumpEvents_ended (p : Process) (dump : Option HeapDump) :
    dumpEvents (dump.toList.map (.ended p)) = [] := by
  cases dump with
  | none => rfl
  | some dump => rfl

section Calls

variable {s s₁ : Parties Dir} {p : Process} {filePath : String} {session : Session}
  {out : Outside} {outstanding : List HeapDump}
variable (files : Files Dir) (load : Process → DumpState Dir)

variable (host) in
/-- The steps of one party, from `s` on, do what a call does; then these dumps are
    outstanding. -/
def Plays (s : Parties Dir) (p : Process) (call : DumpState Dir × List DumpEvent)
    (outstanding : List HeapDump) : Prop :=
  ∃ as s' es, execFrom (parties host files load) anyStep s as = some (s', es)
    ∧ Solo p call.1 outstanding s' ∧ dumpEvents es = call.2

variable {files load}

/-- The last step of a call. -/
theorem plays_step {a : Input Dir} {d : DumpState Dir} {es : List Event}
    (hs : step host s a = some (s.after p d outstanding .idle, es)) :
    Plays host files load s p (d, dumpEvents es) outstanding := by
  refine ⟨[a], _, _, execFrom_cons (M := parties host files load) trivial hs rfl,
    solo_after s p d outstanding, ?_⟩
  rw [List.append_nil]

/-- A step before the last one. -/
theorem Plays.after_step {a : Input Dir} {call : DumpState Dir × List DumpEvent}
    (h : Plays host files load s₁ p call outstanding) (hs : step host s a = some (s₁, [])) :
    Plays host files load s p call outstanding := by
  obtain ⟨as, s', es, hrun, hsolo, hes⟩ := h
  exact ⟨a :: as, s', [] ++ es,
    execFrom_cons (M := parties host files load) trivial hs hrun, hsolo, hes⟩

/-- A call that is admitted gets to its clean-up. -/
theorem stepDumpInner_of (hidle : (s.party p).stage = .idle)
    (hadm : admitted session out = true) :
    step host s (.dumpInner p filePath session out) = some (s.after p
      (cleanUp (hostOf host p) out filePath { s.view p with dumpStatus := out.status })
      (s.party p).outstanding
      (if out.status then .create filePath true else .listOff filePath none), []) := by
  rw [step, stepDumpInner, hidle]
  simp only
  rw [hadm]
  rfl

/-- A synchronous call that is admitted gets to its clean-up. -/
theorem stepDump_of (hidle : (s.party p).stage = .idle) (hadm : admitted session out = true) :
    step host s (.dump p filePath session out) = some (s.after p
      (cleanUp (hostOf host p) out filePath (s.view p)) (s.party p).outstanding
      (.create filePath false), []) := by
  rw [step, stepDump, hidle]
  simp only
  rw [hadm]
  rfl

variable (session out)

/-- The end of a call. -/
theorem plays_deliver (isSync : Bool) (dump : Option HeapDump)
    (hstage : (s.party p).stage = .deliver filePath isSync dump) :
    Plays host files load s p
      (if isSync then deliverSync (hostOf host p) out session filePath (s.view p)
        else DumpFile.deliver (hostOf host p) out session filePath true true (s.view p))
      (s.party p).outstanding := by
  let call := if isSync then deliverSync (hostOf host p) out session filePath (s.view p)
    else DumpFile.deliver (hostOf host p) out session filePath true true (s.view p)
  have hstep : step host s (.retention p session out)
      = some (s.after p call.1 (s.party p).outstanding .idle,
          call.2.map (.dump p) ++ dump.toList.map (.ended p)) := by
    rw [step, stepRetention, hstage]
  have hplays : Plays host files load s p _ (s.party p).outstanding := plays_step hstep
  rw [dumpEvents_dump p call.2 (dumpEvents_ended p dump)] at hplays
  exact hplays

/-- The end of a call that found dumps off. -/
theorem plays_listOff (dump : Option HeapDump)
    (hstage : (s.party p).stage = .listOff filePath dump)
    (hstatus : (s.view p).dumpStatus = false) :
    Plays host files load s p
      (describe (hostOf host p) out session filePath true true true (stamp out (s.view p)))
      (s.party p).outstanding := by
  obtain ⟨listed, ok, hwrite, hok, -⟩ := writeJsleaklist_spec (hostOf host p) out session
    filePath true false (stamp out (s.view p))
  obtain rfl := hok (Or.inl rfl)
  let s₁ := s.after p { stamp out (s.view p) with files := listed } (s.party p).outstanding
    (.deliver filePath false dump)
  have hstep : step host s (.writeList p session out) = some (s₁, []) := by
    rw [step, stepWriteList, hstage]
    simp only [hwrite]
    rfl
  have hcall : describe (hostOf host p) out session filePath true true true
      (stamp out (s.view p))
      = DumpFile.deliver (hostOf host p) out session filePath true true (s₁.view p) := by
    have hoff : (stamp out (s.view p)).dumpStatus = false := hstatus
    rw [describe_eq, hoff, hwrite, after_view]
  have hplays : Plays host files load s₁ p
      (DumpFile.deliver (hostOf host p) out session filePath true true (s₁.view p))
      (s₁.party p).outstanding := plays_deliver session out false dump (by rw [after_self])
  rw [after_self] at hplays
  rw [hcall]
  exact hplays.after_step hstep

/-- A callback that finds dumps on. -/
theorem plays_callback_on {k : Nat} {dump : HeapDump} (hidle : (s.party p).stage = .idle)
    (hk : (s.party p).outstanding[k]? = some dump) (hstatus : (s.view p).dumpStatus = true) :
    Plays host files load s p
      (describe (hostOf host p) out session dump.filePath true true true (s.view p))
      ((s.party p).outstanding.eraseIdx k) := by
  obtain ⟨listed, ok, hwrite, -⟩ := writeJsleaklist_spec (hostOf host p) out session
    dump.filePath true true (s.view p)
  have hstep : step host s (.callback p k session out)
      = some (s.after p { s.view p with files := listed } ((s.party p).outstanding.eraseIdx k)
          (if ok then .deliver dump.filePath false (some dump) else .idle),
        if ok then [] else [.dump p .failed, .ended p dump]) := by
    rw [step, stepCallback, hidle, hk]
    simp only [hstatus, hwrite]
    cases ok with
    | true => rfl
    | false => rfl
  rw [describe_eq, hstatus, hwrite]
  cases ok with
  | false => exact plays_step hstep
  | true =>
      let s₁ := s.after p { s.view p with files := listed }
        ((s.party p).outstanding.eraseIdx k) (.deliver dump.filePath false (some dump))
      have hview : s₁.view p = { s.view p with files := listed } := after_view s p _ _ _
      have hplays : Plays host files load s₁ p
          (DumpFile.deliver (hostOf host p) out session dump.filePath true true (s₁.view p))
          (s₁.party p).outstanding :=
        plays_deliver session out false (some dump) (by rw [after_self])
      rw [hview, after_self] at hplays
      exact hplays.after_step hstep

/-- With dumps off `getJsleaklistFile` cleans up and makes a base name first. -/
theorem getJsleaklistFile_cleaned (host : Host Dir) (out : Outside) (session : Session)
    (filePath : String) {d : DumpState Dir} (hstatus : d.dumpStatus = false) :
    getJsleaklistFile host out session filePath true true true d
      = describe host out session filePath true true true
          (stamp out (cleanUp host out filePath d)) := by
  have hoff : (cleanUp host out filePath d).dumpStatus = false :=
    (cleanUp_variables host out filePath d).2.trans hstatus
  rw [getJsleaklistFile, hstatus]
  show describe _ _ _ _ _ _ _ (if (cleanUp host out filePath d).dumpStatus = true then _
    else _) = _
  rw [hoff]
  rfl

/-- Dumps being off: what follows the clean-up. -/
theorem plays_cleaned {a : Input Dir} {d : DumpState Dir} (dump : Option HeapDump)
    (hstatus : d.dumpStatus = false)
    (hstep : step host s a = some (s.after p (cleanUp (hostOf host p) out filePath d) outstanding
      (.listOff filePath dump), [])) :
    Plays host files load s p
      (getJsleaklistFile (hostOf host p) out session filePath true true true d) outstanding := by
  let cleaned := cleanUp (hostOf host p) out filePath d
  let s₁ := s.after p cleaned outstanding (.listOff filePath dump)
  have hview : s₁.view p = cleaned := after_view s p _ _ _
  have hoff : (s₁.view p).dumpStatus = false := by
    rw [hview]
    exact (cleanUp_variables _ out filePath d).2.trans hstatus
  have hplays : Plays host files load s₁ p
      (describe (hostOf host p) out session filePath true true true (stamp out (s₁.view p)))
      (s₁.party p).outstanding := plays_listOff session out dump (by rw [after_self]) hoff
  rw [hview, after_self] at hplays
  rw [getJsleaklistFile_cleaned (hostOf host p) out session filePath hstatus]
  exact hplays.after_step hstep

/-- **A callback** is a call of `getJsleaklistFile`. -/
theorem plays_callback {k : Nat} {dump : HeapDump} (hidle : (s.party p).stage = .idle)
    (hk : (s.party p).outstanding[k]? = some dump) :
    Plays host files load s p
      (getJsleaklistFile (hostOf host p) out session dump.filePath true true true (s.view p))
      ((s.party p).outstanding.eraseIdx k) := by
  cases hstatus : (s.view p).dumpStatus with
  | true =>
      rw [getJsleaklistFile_on hstatus]
      exact plays_callback_on session out hidle hk hstatus
  | false =>
      refine plays_cleaned session out (some dump) hstatus (a := .callback p k session out) ?_
      rw [step, stepCallback, hidle, hk]
      simp only [hstatus]
      rfl

/-- A synchronous dump that was admitted. -/
theorem plays_sync (hidle : (s.party p).stage = .idle) (hadm : admitted session out = true) :
    Plays host files load s p
      (dumpInnerSync (hostOf host p) out session filePath false false (s.view p))
      (s.party p).outstanding := by
  let cleaned := cleanUp (hostOf host p) out filePath (s.view p)
  let s₁ := s.after p cleaned (s.party p).outstanding (.create filePath false)
  have hclean : step host s (.dump p filePath session out) = some (s₁, []) :=
    stepDump_of hidle hadm
  obtain ⟨heap, des, hcreate, -⟩ :=
    createHeapFile_spec (hostOf host p) out filePath false cleaned
  let d := { cleaned with curTimeStamp := toString out.time, files := heap }
  let dump : HeapDump := ⟨filePath, out.time, false⟩
  let s₂ := s₁.after p d (s.party p).outstanding (.list dump)
  have hview₁ : s₁.view p = cleaned := after_view s p _ _ _
  have hview₂ : s₂.view p = d := after_view s₁ p _ _ _
  have houtstanding : ∀ (s : Parties Dir) (d : DumpState Dir) (o : List HeapDump) (st : Stage),
      ((s.after p d o st).party p).outstanding = o := by
    intro s d o st
    rw [after_self]
  have hheap : step host s₁ (.createHeap p out) = some (s₂, []) := by
    have hstage : (s₁.party p).stage = .create filePath false := by rw [after_self]
    rw [step, stepCreateHeap, hstage]
    simp only [hview₁, hcreate]
    rw [houtstanding]
    rfl
  obtain ⟨listed, ok, hwrite, -⟩ := writeJsleaklist_spec (hostOf host p) out session
    filePath false true d
  have hlist : step host s₂ (.writeList p session out)
      = some (s₂.after p { d with files := listed } (s.party p).outstanding
          (if ok then .deliver filePath true (some dump) else .idle),
        if ok then [] else [.dump p .failed, .dump p (.returned []), .ended p dump]) := by
    have hstage : (s₂.party p).stage = .list dump := by rw [after_self]
    rw [step, stepWriteList, hstage]
    simp only [hview₂]
    have hwrite' : writeJsleaklist (hostOf host p) out session dump.filePath false true d
        = ({ d with files := listed }, ok) := hwrite
    rw [hwrite', houtstanding]
    cases ok with
    | true => rfl
    | false => rfl
  have hcreated : (createHeapFile (hostOf host p) out filePath false cleaned).1 = d :=
    congrArg Prod.fst hcreate
  rw [dumpInnerSync_admitted (hostOf host p) hadm, hcreated, describeSync_eq, hwrite]
  refine Plays.after_step (Plays.after_step ?_ hheap) hclean
  cases ok with
  | false => exact plays_step hlist
  | true =>
      let s₃ := s₂.after p { d with files := listed } (s.party p).outstanding
        (.deliver filePath true (some dump))
      have hview₃ : s₃.view p = { d with files := listed } := after_view s₂ p _ _ _
      have hplays : Plays host files load s₃ p
          (deliverSync (hostOf host p) out session filePath (s₃.view p))
          (s₃.party p).outstanding :=
        plays_deliver session out true (some dump) (by rw [after_self])
      rw [hview₃, houtstanding] at hplays
      exact hplays.after_step hlist

/-- **A call of `dumpInnerSync`**, let through by its tests or not. -/
theorem plays_dump (hidle : (s.party p).stage = .idle) :
    Plays host files load s p
      (dumpInnerSync (hostOf host p) out session filePath false false (s.view p))
      (s.party p).outstanding := by
  cases hadm : admitted session out with
  | true => exact plays_sync session out hidle hadm
  | false =>
      have hrefused : dumpInnerSync (hostOf host p) out session filePath false false (s.view p)
          = (s.view p, [if !session.enabled then .returned [] else .failed]) := by
        rw [dumpInnerSync]
        rcases Bool.and_eq_false_iff.mp hadm with henabled | haccess
        · rw [henabled]
          rfl
        · rw [haccess]
          cases session.enabled with
          | false => rfl
          | true => rfl
      have hstep : step host s (.dump p filePath session out) = some
          (s.after p (s.view p) (s.party p).outstanding .idle,
            [.dump p (if !session.enabled then .returned [] else .failed)]) := by
        rw [step, stepDump, hidle]
        simp only
        rw [hadm]
        rfl
      rw [hrefused]
      exact plays_step hstep

/-- A call of `dumpInner` that the tests stop has read the dump parameter. -/
theorem plays_dumpInner_refused (hidle : (s.party p).stage = .idle)
    (hadm : admitted session out = false) :
    let call := DumpFile.dumpInner (hostOf host p) out session filePath true true true (s.view p)
    Plays host files load s p call (s.party p).outstanding ∧ starts call.2 = false := by
  intro call
  let d := { s.view p with dumpStatus := out.status }
  have hcall : call = (d, if !session.enabled then [] else [.failed]) := by
    show DumpFile.dumpInner _ _ _ _ _ _ _ _ = _
    rw [DumpFile.dumpInner]
    rcases Bool.and_eq_false_iff.mp hadm with henabled | haccess
    · rw [henabled]
      rfl
    · rw [haccess]
      cases session.enabled with
      | false => rfl
      | true => rfl
  have hstep : step host s (.dumpInner p filePath session out) = some
      (s.after p d (s.party p).outstanding .idle,
        if !session.enabled then [] else [.dump p .failed]) := by
    rw [step, stepDumpInner, hidle]
    simp only
    rw [hadm]
    rfl
  have hplays : Plays host files load s p _ (s.party p).outstanding := plays_step hstep
  rw [hcall]
  cases henabled : session.enabled with
  | false =>
      rw [henabled] at hplays
      exact ⟨hplays, rfl⟩
  | true =>
      rw [henabled] at hplays
      exact ⟨hplays, rfl⟩

/-- A call of `dumpInner` that finds dumps off. -/
theorem plays_dumpInner_off (hidle : (s.party p).stage = .idle)
    (hadm : admitted session out = true) (hstatus : out.status = false) :
    let call := DumpFile.dumpInner (hostOf host p) out session filePath true true true (s.view p)
    Plays host files load s p call (s.party p).outstanding ∧ starts call.2 = false := by
  intro call
  obtain ⟨henabled, haccess⟩ := Bool.and_eq_true_iff.mp hadm
  let d := { s.view p with dumpStatus := false }
  have hcall : call = getJsleaklistFile (hostOf host p) out session filePath true true true d :=
    dumpInner_off henabled haccess hstatus filePath true true true (s.view p)
  have hstep : step host s (.dumpInner p filePath session out) = some (s.after p
      (cleanUp (hostOf host p) out filePath d) (s.party p).outstanding (.listOff filePath none),
      []) := by
    rw [stepDumpInner_of hidle hadm, hstatus]
    rfl
  rw [hcall]
  refine ⟨plays_cleaned session out none rfl hstep, ?_⟩
  rw [getJsleaklistFile_cleaned (hostOf host p) out session filePath rfl]
  exact starts_describe _ _ _ _ _ _ _

/-- A call of `dumpInner` that starts a dump. -/
theorem plays_dumpInner_on (hidle : (s.party p).stage = .idle)
    (hadm : admitted session out = true) (hstatus : out.status = true) :
    let call := DumpFile.dumpInner (hostOf host p) out session filePath true true true (s.view p)
    Plays host files load s p call ((s.party p).outstanding ++ [⟨filePath, out.time, true⟩])
      ∧ starts call.2 = true := by
  intro call
  let cleaned := cleanUp (hostOf host p) out filePath { s.view p with dumpStatus := out.status }
  let s₁ := s.after p cleaned (s.party p).outstanding (.create filePath true)
  have hview : s₁.view p = cleaned := after_view s p _ _ _
  have hstep : step host s (.dumpInner p filePath session out) = some (s₁, []) := by
    have hstage : (if out.status = true then Stage.create filePath true
        else .listOff filePath none) = .create filePath true := if_pos hstatus
    rw [stepDumpInner_of hidle hadm, hstage]
  let heapName := getHeapBaseName (hostOf host p) (stamp out cleaned) ++ ".rawheap"
  let d' := { stamp out cleaned with
    files := openCreate (host.dirOf filePath, heapName) cleaned.files }
  have hheap : step host s₁ (.createHeap p out)
      = some (s₁.after p d' ((s.party p).outstanding ++ [⟨filePath, out.time, true⟩]) .idle,
          [.dump p (.dumpRawHeap (filePath ++ "/" ++ heapName))]) := by
    have hstage : (s₁.party p).stage = .create filePath true := by rw [after_self]
    have houtstanding : (s₁.party p).outstanding = (s.party p).outstanding := by
      rw [after_self]
    rw [step, stepCreateHeap, hstage]
    simp only [hview]
    rw [houtstanding]
    rfl
  have hcall : call = (d', [.dumpRawHeap (filePath ++ "/" ++ heapName)]) :=
    dumpInner_admitted (hostOf host p) hadm hstatus filePath (s.view p)
  rw [hcall]
  exact ⟨(plays_step hheap).after_step hstep, rfl⟩

/-- **A call of `dumpInner`**, whatever its tests find. -/
theorem plays_dumpInner (hidle : (s.party p).stage = .idle) :
    let call := DumpFile.dumpInner (hostOf host p) out session filePath true true true (s.view p)
    Plays host files load s p call (if starts call.2 then
      (s.party p).outstanding ++ [⟨filePath, out.time, true⟩] else (s.party p).outstanding) := by
  intro call
  cases hadm : admitted session out with
  | false =>
      have hplays : Plays host files load s p call (s.party p).outstanding
          ∧ starts call.2 = false := plays_dumpInner_refused session out hidle hadm
      rw [hplays.2]
      exact hplays.1
  | true =>
      cases hstatus : out.status with
      | false =>
          have hplays : Plays host files load s p call (s.party p).outstanding
              ∧ starts call.2 = false := plays_dumpInner_off session out hidle hadm hstatus
          rw [hplays.2]
          exact hplays.1
      | true =>
          have hplays : Plays host files load s p call
                ((s.party p).outstanding ++ [⟨filePath, out.time, true⟩])
              ∧ starts call.2 = true := plays_dumpInner_on session out hidle hadm hstatus
          rw [hplays.2]
          exact hplays.1

/-- **A write to the heap file** of an outstanding dump is a step of its own. -/
theorem plays_heapWrite {k : Nat} {dump : HeapDump} (hidle : (s.party p).stage = .idle)
    (hk : (s.party p).outstanding[k]? = some dump) (bytes : List UInt8) :
    Plays host files load s p
      ({ s.view p with files := appendTo (dump.heap host p) bytes s.files }, [])
      (s.party p).outstanding := by
  have hstep : step host s (.heapWrite p k bytes)
      = some ({ s with files := appendTo (dump.heap host p) bytes s.files }, []) := by
    rw [step, stepHeapWrite, hk]
  exact ⟨[.heapWrite p k bytes], _, _,
    execFrom_cons (M := parties host files load) trivial hstep rfl, ⟨rfl, rfl, hidle⟩, rfl⟩

/-- A party and its dumps as `DumpIdentity` has them. -/
def Tracks (p : Process) (x : Dumps Dir) (s : Parties Dir) : Prop :=
  Solo p x.dump (x.outstanding.map rawHeap) s

/-- What the parties do as well: a call without a path throws before it becomes a dump, and
    their threads are done with their heap files when the callbacks run. -/
def Played (x : Dumps Dir) : DumpIdentity.Input → Prop
  | .dump none _ => False
  | .heapOpen _ => False
  | .heapWrite k _ => ∀ st ∈ x.threads[k]?, st ∈ x.outstanding
  | _ => True

variable (files load) in
/-- **One party's calls, run without interruption, are the dumps of `DumpIdentity`**: with
    the same files, the same module variables and the same events. -/
theorem solo_step {x x' : Dumps Dir} {a : DumpIdentity.Input} {des : List DumpEvent}
    (hx : Tracks p x s) (hcall : Played x a)
    (hs : DumpIdentity.step (hostOf host p) x a = some (x', des)) :
    ∃ as s' es, execFrom (parties host files load) anyStep s as = some (s', es)
      ∧ Tracks p x' s' ∧ dumpEvents es = des := by
  obtain ⟨hview, houtstanding, hidle⟩ := hx
  -- where the party's steps lead, with its outstanding dumps as `DumpIdentity` lists them
  have hplays : ∀ {outstanding : List HeapDump}, outstanding = x'.outstanding.map rawHeap →
      Plays host files load s p (x'.dump, des) outstanding → ∃ as s' es,
        execFrom (parties host files load) anyStep s as = some (s', es)
          ∧ Tracks p x' s' ∧ dumpEvents es = des := by
    rintro _ rfl h
    exact h
  cases a with
  | setup session =>
      obtain ⟨rfl, rfl⟩ := Prod.mk.inj (Option.some.inj hs)
      exact ⟨[], s, [], rfl, ⟨hview, houtstanding, hidle⟩, rfl⟩
  | dumpInner filePath out =>
      by_cases hclock : x.clock < out.time
      · obtain ⟨rfl, rfl⟩ := Prod.mk.inj (Option.some.inj ((if_pos hclock).symm.trans hs))
        refine hplays ?_ (by rw [← hview]; exact plays_dumpInner x.session out hidle)
        rw [houtstanding, hview]
        show _ = List.map rawHeap (x.outstanding ++ if _ then [_] else [])
        rw [List.map_append, apply_ite (List.map rawHeap)]
        split
        · rfl
        · exact (List.append_nil _).symm
      · exact absurd ((if_neg hclock).symm.trans hs).symm (Option.some_ne_none _)
  | dump path out =>
      cases path with
      | none => exact hcall.elim
      | some filePath =>
          by_cases hclock : x.clock < out.time
          · obtain ⟨rfl, rfl⟩ := Prod.mk.inj (Option.some.inj ((if_pos hclock).symm.trans hs))
            refine hplays houtstanding ?_
            rw [← hview]
            exact plays_dump x.session out hidle
          · exact absurd ((if_neg hclock).symm.trans hs).symm (Option.some_ne_none _)
  | heapOpen k => exact hcall.elim
  | heapWrite k bytes =>
      have hwrites : onHeap (hostOf host p) x k (fun p => appendTo p bytes) = some (x', des) := hs
      obtain ⟨st, hk, rfl, rfl⟩ := onHeap_cases hwrites
      obtain ⟨j, hj⟩ := List.mem_iff_getElem?.mp (hcall st hk)
      have hj' : (s.party p).outstanding[j]? = some (rawHeap st) := by
        rw [houtstanding, List.getElem?_map, hj]
        rfl
      refine hplays houtstanding ?_
      rw [← hview]
      exact plays_heapWrite hidle hj' bytes
  | complete k out =>
      obtain ⟨st, hk, -, rfl, rfl⟩ := step_complete_cases hs
      have hk' : (s.party p).outstanding[k]? = some (rawHeap st) := by
        rw [houtstanding, List.getElem?_map, hk]
        rfl
      have herase : (s.party p).outstanding.eraseIdx k
          = (x.outstanding.eraseIdx k).map rawHeap := by
        rw [houtstanding, List.eraseIdx_map]
      have hcallback : Plays host files load s p (getJsleaklistFile (hostOf host p) out x.session
          (rawHeap st).filePath true true true (s.view p)) ((s.party p).outstanding.eraseIdx k) :=
        plays_callback x.session out hidle hk'
      rw [hview] at hcallback
      exact hplays herase hcallback

end Calls

end DumpParties
