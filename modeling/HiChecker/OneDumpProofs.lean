import HiChecker.DumpPartiesProofs

/-!
# One dump of each process thread in a shared directory

Any number of parties dump into one directory, one complete dump after another. Before a
party creates its files it unlinks the dump that the newest leak list of the **whole**
directory belongs to, provided that the list is its own: an older dump of its own, behind
a newer one of another party, stays.

* **`dumpsOneByOne`** — the machine; a step is a complete dump.
* **`step_uninterrupted`** — such a step is a run of `DumpParties` in which the party acts
  alone.
* **`OnlyDump`** — a party's files in a directory are those of one dump.
* **`NewestIsOwn`** — each file of the party that a dump of it does not write again is of
  the timestamp that the newest leak list, one of its own, has.
* **`one_dump_each`** — a dump that meets `NewestIsOwn` leaves nothing else of its party,
  and of those that evict nothing only these do.
-/

namespace OneDump

open Transition JsValue OrderedMapLib WatcherConfig LeakRound FileStore DumpFile DumpIdentity
open DumpNames DumpCleanUp
open DumpParties (Parties parties hostOf Plays dumpEvents)

variable {Dir : Type} [DecidableEq Dir]

-- ── Complete dumps ────────────────────────────────────────────────────────────────

/-- A complete dump of a process thread. -/
inductive Input where
  /-- dumps are on: the other thread writes the heap, then the callback runs -/
  | rawHeap (p : Process) (session : Session) (start : Outside) (heap : List UInt8)
      (session' : Session) (finish : Outside)
  /-- dumps are off: a leak list alone -/
  | listOnly (p : Process) (session : Session) (out : Outside)
  /-- `dumpInnerSync` -/
  | snapshot (p : Process) (session : Session) (out : Outside)

/-- The party that dumps. -/
def Input.process : Input → Process
  | .rawHeap p _ _ _ _ _ | .listOnly p _ _ | .snapshot p _ _ => p

/-- What a dump finds when it starts. -/
def Input.out : Input → Outside
  | .rawHeap _ _ start _ _ _ => start
  | .listOnly _ _ out | .snapshot _ _ out => out

/-- The timestamp in its names. -/
def Input.time (a : Input) : Nat := a.out.time

/-- The files it makes. -/
def Input.suffixes : Input → List String
  | .rawHeap _ _ _ _ _ _ => [".jsleaklist", ".rawheap"]
  | .listOnly _ _ _ => [".jsleaklist"]
  | .snapshot _ _ _ => [".jsleaklist", ".heapsnapshot"]

/-- The calls that a complete dump consists of. -/
def Input.call (host : Host Dir) (filePath : String) (d : DumpState Dir) :
    Input → DumpState Dir × List DumpEvent
  | .rawHeap _ session start heap session' finish =>
      let started := dumpInner host start session filePath true true true d
      let file := (host.dirOf filePath, fileName host.process start.time ".rawheap")
      let d := { started.1 with files := appendTo file heap started.1.files }
      let finished := getJsleaklistFile host finish session' filePath true true true d
      (finished.1, started.2 ++ finished.2)
  | .listOnly _ session out => dumpInner host out session filePath true true true d
  | .snapshot _ session out => dumpInnerSync host out session filePath false false d

/-- The call gets past its tests, and the dump parameter is that of its kind. -/
def Input.admitted : Input → Bool
  | .rawHeap _ session start _ _ _ => DumpParties.admitted session start && start.status
  | .listOnly _ session out => DumpParties.admitted session out && !out.status
  | .snapshot _ session out => DumpParties.admitted session out

variable (host : Host Dir) (filePath : String)

/-- A dump that succeeds, from its call to its end. -/
def step (s : Parties Dir) (a : Input) :
    Option (Parties Dir × List DumpEvent) :=
  let done := a.call (hostOf host a.process) filePath (s.view a.process)
  if a.admitted = true ∧ .failed ∉ done.2 then
    some (s.after a.process done.1 [] .idle, done.2)
  else none

/-- The dumps of all parties into one directory. -/
def dumpsOneByOne (files : Files Dir) (load : Process → DumpState Dir) :
    Machine (Parties Dir) Input DumpEvent :=
  ⟨(parties host files load).init, step host filePath⟩

variable {host filePath}

/-- What a whole dump can do. -/
theorem step_cases {s s' : Parties Dir} {a : Input} {es : List DumpEvent}
    (hs : step host filePath s a = some (s', es)) :
    let done := a.call (hostOf host a.process) filePath (s.view a.process)
    a.admitted = true ∧ s' = s.after a.process done.1 [] .idle ∧ es = done.2 := by
  intro done
  by_cases h : a.admitted = true ∧ .failed ∉ done.2
  · obtain ⟨rfl, rfl⟩ := Prod.mk.inj (Option.some.inj ((if_pos h).symm.trans hs))
    exact ⟨h.1, rfl, rfl⟩
  · exact absurd ((if_neg h).symm.trans hs).symm (Option.some_ne_none _)

theorem Input.suffixes_subset (a : Input) : ∀ suffix ∈ a.suffixes, suffix ∈ dumpSuffixes := by
  cases a with
  | rawHeap _ _ _ _ _ _ =>
      show ∀ suffix ∈ [".jsleaklist", ".rawheap"], suffix ∈ dumpSuffixes
      decide
  | listOnly _ _ _ =>
      show ∀ suffix ∈ [".jsleaklist"], suffix ∈ dumpSuffixes
      decide
  | snapshot _ _ _ =>
      show ∀ suffix ∈ [".jsleaklist", ".heapsnapshot"], suffix ∈ dumpSuffixes
      decide

-- ── Complete dumps as uninterrupted runs ──────────────────────────────────────────

/-- A raw heap dump: the call, the writes of the other thread, the callback. -/
theorem plays_rawHeap {s : Parties Dir} {p : Process} {session session' : Session}
    {start finish : Outside} {files : Files Dir} {load : Process → DumpState Dir}
    (hidle : (s.party p).stage = .idle) (hnone : (s.party p).outstanding = [])
    (hadm : DumpParties.admitted session start = true) (hstatus : start.status = true)
    (heap : List UInt8) :
    Plays host files load s p (Input.call (hostOf host p) filePath (s.view p)
      (.rawHeap p session start heap session' finish)) [] := by
  let started := dumpInner (hostOf host p) start session filePath true true true (s.view p)
  let dump : DumpParties.HeapDump := ⟨filePath, start.time, true⟩
  let d : DumpState Dir :=
    { started.1 with files := appendTo (dump.heap host p) heap started.1.files }
  have hstarted : Plays host files load s p started
      ((s.party p).outstanding ++ [dump]) ∧ starts started.2 = true :=
    DumpParties.plays_dumpInner_on session start hidle hadm hstatus
  obtain ⟨as, s₁, evs, hrun, ⟨hview, houtstanding, hidle₁⟩, hevs⟩ := hstarted.1
  rw [hnone, List.nil_append] at houtstanding
  have hk : (s₁.party p).outstanding[0]? = some dump := by
    rw [houtstanding]
    rfl
  have hwrite : Plays host files load s₁ p (d, []) [dump] := by
    rw [← houtstanding]
    have hplays : Plays host files load s₁ p ({ s₁.view p with
        files := appendTo (dump.heap host p) heap (s₁.view p).files }, [])
        (s₁.party p).outstanding := DumpParties.plays_heapWrite hidle₁ hk heap
    rw [hview] at hplays
    exact hplays
  obtain ⟨as₂, s₂, evs₂, hrun₂, ⟨hview₂, houtstanding₂, hidle₂⟩, hevs₂⟩ := hwrite
  have hk₂ : (s₂.party p).outstanding[0]? = some dump := by
    rw [houtstanding₂]
    rfl
  have hfinish : Plays host files load s₂ p (getJsleaklistFile (hostOf host p) finish session'
      dump.filePath true true true (s₂.view p)) ((s₂.party p).outstanding.eraseIdx 0) :=
    DumpParties.plays_callback session' finish hidle₂ hk₂
  rw [hview₂, houtstanding₂] at hfinish
  obtain ⟨as₃, s₃, evs₃, hrun₃, hsolo, hevs₃⟩ := hfinish
  refine ⟨as ++ (as₂ ++ as₃), s₃, evs ++ (evs₂ ++ evs₃),
    execFrom_append hrun (execFrom_append hrun₂ hrun₃), hsolo, ?_⟩
  have hall : dumpEvents (evs ++ (evs₂ ++ evs₃))
      = dumpEvents evs ++ (dumpEvents evs₂ ++ dumpEvents evs₃) := by
    rw [dumpEvents, List.filterMap_append, List.filterMap_append]
    rfl
  rw [hall, hevs, hevs₂, hevs₃]
  rfl

/-- Between complete dumps no party has a dump outstanding. -/
theorem run_idle {files : Files Dir} {load : Process → DumpState Dir}
    {G : Parties Dir → Input → Prop} {s : Parties Dir} {tr : List DumpEvent}
    (hr : Run (dumpsOneByOne host filePath files load) G s tr) (p : Process) :
    (s.party p).stage = .idle ∧ (s.party p).outstanding = [] := by
  refine Run.state_invariant (I := fun s => (s.party p).stage = .idle ∧
    (s.party p).outstanding = []) ⟨rfl, rfl⟩ ?_ hr
  intro s a s' es hI _ hs
  obtain ⟨-, rfl, -⟩ := step_cases hs
  by_cases hp : p = a.process
  · rw [hp, DumpParties.after_self]
    exact ⟨rfl, rfl⟩
  · rw [DumpParties.after_other s hp]
    exact hI

/-- **A complete dump is a run of the parties** in which one of them takes all the steps. -/
theorem step_uninterrupted {files : Files Dir} {load : Process → DumpState Dir}
    {G : Parties Dir → Input → Prop} {s s' : Parties Dir} {a : Input} {tr es : List DumpEvent}
    (hr : Run (dumpsOneByOne host filePath files load) G s tr)
    (hs : step host filePath s a = some (s', es)) :
    Plays host files load s a.process (s'.view a.process, es) [] := by
  obtain ⟨hadm, rfl, rfl⟩ := step_cases hs
  obtain ⟨hidle, hnone⟩ := run_idle hr a.process
  rw [DumpParties.after_view]
  cases a with
  | rawHeap p session start heap session' finish =>
      obtain ⟨hadm', hstatus⟩ := Bool.and_eq_true_iff.mp hadm
      exact plays_rawHeap hidle hnone hadm' hstatus heap
  | listOnly p session out =>
      have hplays : Plays host files load s p
          (dumpInner (hostOf host p) out session filePath true true true (s.view p))
          (s.party p).outstanding :=
        (DumpParties.plays_dumpInner_off session out hidle (Bool.and_eq_true_iff.mp hadm).1
          (Bool.not_eq_true' _ |>.mp (Bool.and_eq_true_iff.mp hadm).2)).1
      rw [show (s.party p).outstanding = [] from hnone] at hplays
      exact hplays
  | snapshot p session out =>
      have hplays : Plays host files load s p
          (dumpInnerSync (hostOf host p) out session filePath false false (s.view p))
          (s.party p).outstanding := DumpParties.plays_sync session out hidle hadm
      rw [show (s.party p).outstanding = [] from hnone] at hplays
      exact hplays

-- ── What a complete dump does to the files ────────────────────────────────────────

/-- The leak list is written under the base name, and old files are deleted; whether the
    dump is synchronous or not. -/
theorem listed_files (host : Host Dir) (out : Outside) (session : Session) (filePath : String)
    (isRawHeap hashes isSync : Bool) (d : DumpState Dir) {done : DumpState Dir × List DumpEvent}
    (hfail : (DumpParties.writeJsleaklist host out session filePath isRawHeap hashes d).2 = false →
      done.1 = (DumpParties.writeJsleaklist host out session filePath isRawHeap hashes d).1)
    (hok : (DumpParties.writeJsleaklist host out session filePath isRawHeap hashes d).2 = true →
      done = if isSync then DumpParties.deliverSync host out session filePath
          (DumpParties.writeJsleaklist host out session filePath isRawHeap hashes d).1
        else DumpFile.deliver host out session filePath true true
          (DumpParties.writeJsleaklist host out session filePath isRawHeap hashes d).1) :
    ∃ written, SameBut (fun q => q.2 = getHeapBaseName host d ++ ".jsleaklist") written d.files
      ∧ Within done.1.files written ∧ (.retention ∉ done.2 → done.1.files = written)
      ∧ done.1.firstDump = d.firstDump := by
  obtain ⟨files, ok, hwrite, -, -, -, hsame⟩ :=
    DumpParties.writeJsleaklist_spec host out session filePath isRawHeap hashes d
  rw [hwrite] at hfail hok
  cases ok with
  | false =>
      rw [hfail rfl]
      exact ⟨files, hsame, Within.refl files, fun _ => rfl, rfl⟩
  | true =>
      obtain ⟨hfiles, -, -, hfirst, hold⟩ := DumpParties.deliver_spec host out session filePath
        isSync { d with files := files }
      rw [← hok rfl] at hfiles hfirst hold
      refine ⟨files, hsame, ?_, ?_, hfirst⟩
      · rw [hfiles]
        exact deleteOldFile_within host out filePath session.settings.maxFileNum files
      · intro hret
        rw [hfiles, deleteOldFile_of_no_retention host (fun hmem => hret (hold _ hmem))]

/-- What describing a dump does to its two files. -/
theorem describe_files (host : Host Dir) (out : Outside) (session : Session) (filePath : String)
    (d : DumpState Dir) :
    let done := describe host out session filePath true true true d
    ∃ written, SameBut (fun q => q.2 = getHeapBaseName host d ++ ".jsleaklist") written d.files
      ∧ Within done.1.files written ∧ (.retention ∉ done.2 → done.1.files = written)
      ∧ done.1.firstDump = d.firstDump := by
  intro done
  have hdone : done = _ := DumpParties.describe_eq host out session filePath true true true d
  obtain ⟨files, ok, hwrite, -⟩ :=
    DumpParties.writeJsleaklist_spec host out session filePath true d.dumpStatus d
  rw [hwrite] at hdone
  refine listed_files host out session filePath true d.dumpStatus false d ?_ ?_
  · intro hok
    rw [hwrite] at hok ⊢
    obtain rfl : ok = false := hok
    rw [hdone]
  · intro hok
    rw [hwrite] at hok ⊢
    obtain rfl : ok = true := hok
    exact hdone

/-- What describing a synchronous dump does to its two files. -/
theorem describeSync_files (host : Host Dir) (out : Outside) (session : Session)
    (filePath : String) (d : DumpState Dir) :
    let done := describeSync host out session filePath false false d
    ∃ written, SameBut (fun q => q.2 = getHeapBaseName host d ++ ".jsleaklist") written d.files
      ∧ Within done.1.files written ∧ (.retention ∉ done.2 → done.1.files = written)
      ∧ done.1.firstDump = d.firstDump := by
  intro done
  have hdone : done = _ := DumpParties.describeSync_eq host out session filePath d
  obtain ⟨files, ok, hwrite, -⟩ :=
    DumpParties.writeJsleaklist_spec host out session filePath false true d
  rw [hwrite] at hdone
  refine listed_files host out session filePath false true true d ?_ ?_
  · intro hok
    rw [hwrite] at hok ⊢
    obtain rfl : ok = false := hok
    rw [hdone]
  · intro hok
    rw [hwrite] at hok ⊢
    obtain rfl : ok = true := hok
    exact hdone

/-- What the clean-up does. -/
theorem cleanUp_files (host : Host Dir) (out : Outside) (filePath : String) (d : DumpState Dir) :
    ∃ cleaned, cleanUp host out filePath d = { d with firstDump := false, files := cleaned }
      ∧ Unlinked (host.dirOf filePath) (Cleared host out filePath d) cleaned d.files := by
  obtain ⟨cleaned, -, hclean⟩ := cleanUp_spec host out filePath d
  have hgone := cleanUp_unlinked host out filePath d
  rw [hclean] at hgone
  exact ⟨cleaned, hclean, hgone⟩

/-- What a complete dump does to the files: it clears what its clean-up clears, writes under
    its own names, and then may delete old files. -/
def FileEffect (host : Host Dir) (filePath : String) (d : DumpState Dir) (a : Input)
    (done : DumpState Dir × List DumpEvent) : Prop :=
  ∃ cleaned written, Unlinked (host.dirOf filePath) (Cleared host a.out filePath d) cleaned d.files
    ∧ SameBut (fun q => ∃ suffix ∈ a.suffixes, q.2 = fileName host.process a.time suffix)
        written cleaned
    ∧ Within done.1.files written ∧ (.retention ∉ done.2 → done.1.files = written)
    ∧ done.1.firstDump = false

omit [DecidableEq Dir] in
/-- A name that the dump writes under. -/
theorem Input.own_name (host : Host Dir) (a : Input) {suffix : String} (hs : suffix ∈ a.suffixes)
    (q : Path Dir) (hq : q.2 = fileName host.process a.time suffix) :
    ∃ suffix ∈ a.suffixes, q.2 = fileName host.process a.time suffix := ⟨suffix, hs, hq⟩

/-- A dump with its heap. -/
theorem rawHeap_effect (host : Host Dir) (filePath : String) (d : DumpState Dir) (p : Process)
    {session : Session} {start : Outside} (hadm : DumpParties.admitted session start = true)
    (hstatus : start.status = true) (heap : List UInt8) (session' : Session) (finish : Outside) :
    FileEffect host filePath d (.rawHeap p session start heap session' finish)
      (Input.call host filePath d (.rawHeap p session start heap session' finish)) := by
  let a : Input := .rawHeap p session start heap session' finish
  obtain ⟨cleaned, hclean, hgone⟩ :=
    cleanUp_files host start filePath { d with dumpStatus := start.status }
  obtain ⟨files, des, hfile, -, -, hheap⟩ := DumpParties.createHeapFile_spec host start filePath
    true (cleanUp host start filePath { d with dumpStatus := start.status })
  rw [hclean] at hfile hheap
  have hstarted : dumpInner host start session filePath true true true d
      = ({ d with dumpStatus := start.status
                  firstDump := false
                  curTimeStamp := toString start.time
                  files := files }, des) := by
    rw [DumpParties.dumpInner_admitted host hadm hstatus, hclean, hfile]
  let file := (host.dirOf filePath, fileName host.process start.time ".rawheap")
  let d₁ : DumpState Dir :=
    { d with dumpStatus := start.status
             firstDump := false
             curTimeStamp := toString start.time
             files := appendTo file heap files }
  have hdone : a.call host filePath d
      = ((describe host finish session' filePath true true true d₁).1,
          des ++ (describe host finish session' filePath true true true d₁).2) := by
    rw [← getJsleaklistFile_on (d := d₁) hstatus]
    show Input.call host filePath d (.rawHeap p session start heap session' finish) = _
    rw [Input.call, hstarted]
  obtain ⟨written, hlist, hwithin, hret, hfirst⟩ :=
    describe_files host finish session' filePath d₁
  have hwrite : SameBut (fun q => q.2 = fileName host.process a.time ".rawheap")
      (appendTo file heap files) cleaned :=
    (sameBut_appendTo (P := fun q => q.2 = fileName host.process a.time ".rawheap") rfl heap
      files).trans hheap
  show FileEffect host filePath d a (a.call host filePath d)
  rw [hdone]
  refine ⟨cleaned, written, hgone, ?_, hwithin, ?_, hfirst⟩
  · exact (hlist.mono (a.own_name host List.mem_cons_self)).trans
      (hwrite.mono (a.own_name host (List.mem_cons_of_mem _ List.mem_cons_self)))
  · exact fun h => hret (fun hmem => h (List.mem_append_right _ hmem))

/-- A dump without one. -/
theorem listOnly_effect (host : Host Dir) (filePath : String) (d : DumpState Dir) (p : Process)
    {session : Session} {out : Outside} (hadm : DumpParties.admitted session out = true)
    (hoff : out.status = false) :
    FileEffect host filePath d (.listOnly p session out)
      (Input.call host filePath d (.listOnly p session out)) := by
  obtain ⟨henabled, haccess⟩ := Bool.and_eq_true_iff.mp hadm
  obtain ⟨cleaned, hclean, hgone⟩ := cleanUp_files host out filePath { d with dumpStatus := false }
  let d₁ := stamp out { d with dumpStatus := false, firstDump := false, files := cleaned }
  have hdone : Input.call host filePath d (.listOnly p session out)
      = describe host out session filePath true true true d₁ := by
    show dumpInner host out session filePath true true true d = _
    rw [dumpInner_off henabled haccess hoff,
      DumpParties.getJsleaklistFile_cleaned host out session filePath rfl, hclean]
  obtain ⟨written, hlist, hwithin, hret, hfirst⟩ := describe_files host out session filePath d₁
  rw [hdone]
  exact ⟨cleaned, written, hgone,
    hlist.mono (Input.own_name host (.listOnly p session out) List.mem_cons_self), hwithin, hret,
    hfirst⟩

/-- A synchronous dump. -/
theorem snapshot_effect (host : Host Dir) (filePath : String) (d : DumpState Dir) (p : Process)
    {session : Session} {out : Outside} (hadm : DumpParties.admitted session out = true) :
    FileEffect host filePath d (.snapshot p session out)
      (Input.call host filePath d (.snapshot p session out)) := by
  let a : Input := .snapshot p session out
  obtain ⟨cleaned, hclean, hgone⟩ := cleanUp_files host out filePath d
  obtain ⟨files, des, hfile, -, -, hheap⟩ := DumpParties.createHeapFile_spec host out filePath
    false (cleanUp host out filePath d)
  rw [hclean] at hfile hheap
  let d₁ : DumpState Dir :=
    { d with firstDump := false, curTimeStamp := toString out.time, files := files }
  have hdone : Input.call host filePath d (.snapshot p session out)
      = describeSync host out session filePath false false d₁ := by
    show dumpInnerSync host out session filePath false false d = _
    rw [DumpParties.dumpInnerSync_admitted host hadm, hclean, hfile]
  obtain ⟨written, hlist, hwithin, hret, hfirst⟩ :=
    describeSync_files host out session filePath d₁
  rw [hdone]
  refine ⟨cleaned, written, hgone, ?_, hwithin, hret, hfirst⟩
  exact (hlist.mono (a.own_name host List.mem_cons_self)).trans
    (hheap.mono (a.own_name host (List.mem_cons_of_mem _ List.mem_cons_self)))

/-- **Each kind of dump** does that. -/
theorem call_effect (host : Host Dir) (filePath : String) (d : DumpState Dir) {a : Input}
    (hadm : a.admitted = true) : FileEffect host filePath d a (a.call host filePath d) := by
  cases a with
  | rawHeap p session start heap session' finish =>
      obtain ⟨hadm', hstatus⟩ := Bool.and_eq_true_iff.mp hadm
      exact rawHeap_effect host filePath d p hadm' hstatus heap session' finish
  | listOnly p session out =>
      obtain ⟨hadm', hoff⟩ := Bool.and_eq_true_iff.mp hadm
      exact listOnly_effect host filePath d p hadm' (Bool.not_eq_true' _ |>.mp hoff)
  | snapshot p session out => exact snapshot_effect host filePath d p hadm

-- ── At most one dump ──────────────────────────────────────────────────────────────

/-- The files of a party's dumps in a directory are those of one dump. -/
def OnlyDump (dir : Dir) (p : Process) (files : Files Dir) (time : Nat)
    (suffixes : List String) : Prop :=
  ∀ t, ∀ suffix ∈ dumpSuffixes, files.has (dir, fileName p t suffix) = true →
    t = time ∧ suffix ∈ suffixes

/-- There are none. -/
def NoDump (dir : Dir) (p : Process) (files : Files Dir) : Prop :=
  ∀ t, ∀ suffix ∈ dumpSuffixes, files.has (dir, fileName p t suffix) = false

/-- The leak list that the clean-up looks at is one of the party's own, of that timestamp. -/
def NewestOf (host : Host Dir) (out : Outside) (filePath : String) (files : Files Dir)
    (p : Process) (time : Nat) : Prop :=
  ∃ newest, newestList host out filePath files = some newest
    ∧ (getHeapPrefix p).toList.isPrefixOf newest.toList = true
    ∧ (getTimestampByFileName newest).toStr = toString time

/-- When the party dumps, each of its files in the directory either is one that this dump
    writes again, or has the timestamp of the newest leak list, and that is its own. -/
def NewestIsOwn (host : Host Dir) (filePath : String) (p : Process) (s : Parties Dir)
    (a : Input) : Prop :=
  a.process = p → ∀ t, ∀ suffix ∈ dumpSuffixes,
    s.files.has (host.dirOf filePath, fileName p t suffix) = true →
      (t = a.time ∧ suffix ∈ a.suffixes) ∨ NewestOf host a.out filePath s.files p t

/-- What holds of a party between dumps: it has one dump at most, and none before its first. -/
structure Single (dir : Dir) (p : Process) (s : Parties Dir) : Prop where
  first : (s.party p).dump.firstDump = true → NoDump dir p s.files
  only : ∃ time isRawHeap, OnlyDump dir p s.files time [".jsleaklist", heapSuffix isRawHeap]

/-- Each kind of dump makes a leak list, and one kind of heap file at most. -/
theorem Input.suffixes_kind (a : Input) :
    ∃ isRawHeap, ∀ suffix ∈ a.suffixes, suffix ∈ [".jsleaklist", heapSuffix isRawHeap] := by
  cases a with
  | rawHeap _ _ _ _ _ _ => exact ⟨true, fun _ hs => hs⟩
  | listOnly _ _ _ =>
      refine ⟨true, ?_⟩
      intro suffix hs
      obtain rfl := List.mem_singleton.mp hs
      exact List.mem_cons_self
  | snapshot _ _ _ => exact ⟨false, fun _ hs => hs⟩

/-- **What the clean-up takes of a party's single dump**: all of it, when the newest leak
    list is that dump's; else nothing. -/
theorem cleared_iff {p : Process} {d : DumpState Dir} {out : Outside} {isRawHeap : Bool}
    {time t : Nat} {suffix : String} (hfirst : d.firstDump = false)
    (honly : OnlyDump (host.dirOf filePath) p d.files time [".jsleaklist", heapSuffix isRawHeap])
    (hs : suffix ∈ dumpSuffixes)
    (hhas : d.files.has (host.dirOf filePath, fileName p t suffix) = true) :
    Cleared (hostOf host p) out filePath d (fileName p t suffix)
      ↔ NewestOf host out filePath d.files p t := by
  rw [Cleared, if_neg (by rw [hfirst]; exact Bool.false_ne_true)]
  constructor
  · rintro ⟨base, hbase, hname⟩
    obtain ⟨newest, hnewest, hpre, rfl⟩ := lastBase_eq_some_iff.mp hbase
    -- both names end in a suffix, so they agree on the timestamp
    have hstamp : ∀ {suffix' : String}, suffix' ∈ dumpSuffixes → fileName p t suffix
        = getHeapPrefix p ++ (getTimestampByFileName newest).toStr ++ suffix' →
        (getTimestampByFileName newest).toStr = toString t := by
      intro suffix' hs' heq
      exact (getHeapPrefix_inj (append_suffix_inj hs hs' heq).1).2.symm
    refine ⟨newest, hnewest, hpre, ?_⟩
    rcases hname with hname | hname
    · exact hstamp mem_jsleaklist hname
    · rw [heapOf] at hname
      split at hname
      · exact hstamp mem_rawheap hname
      · exact hstamp mem_heapsnapshot hname
  · rintro ⟨newest, hnewest, hpre, hstamp⟩
    refine ⟨getHeapPrefix p ++ toString t, lastBase_eq_some_iff.mpr
      ⟨newest, hnewest, hpre, by rw [hstamp]; rfl⟩, ?_⟩
    obtain ⟨rfl, hmem⟩ := honly t suffix hs hhas
    rcases List.mem_cons.mp hmem with rfl | hmem
    · exact Or.inl rfl
    · obtain rfl := List.mem_singleton.mp hmem
      refine Or.inr ?_
      show fileName p t (heapSuffix isRawHeap) = fileName p t (if d.files.has
        (host.dirOf filePath, fileName p t ".rawheap") = true then ".rawheap" else ".heapsnapshot")
      cases isRawHeap with
      | true => exact congrArg (fileName p t) (if_pos hhas).symm
      | false =>
          refine congrArg (fileName p t) (if_neg ?_).symm
          intro hraw
          exact absurd (honly t ".rawheap" mem_rawheap hraw).2 (by decide)

/-- A step, as `call_effect` has it. -/
theorem step_files {s s' : Parties Dir} {a : Input} {es : List DumpEvent}
    (hs : step host filePath s a = some (s', es)) :
    (∃ cleaned written, Unlinked (host.dirOf filePath)
        (Cleared (hostOf host a.process) a.out filePath (s.view a.process)) cleaned s.files
      ∧ SameBut (fun q => ∃ suffix ∈ a.suffixes, q.2 = fileName a.process a.time suffix)
          written cleaned
      ∧ Within s'.files written ∧ (.retention ∉ es → s'.files = written))
    ∧ (s'.party a.process).dump.firstDump = false
    ∧ ∀ q, q ≠ a.process → s'.party q = s.party q := by
  obtain ⟨hadm, rfl, rfl⟩ := step_cases hs
  obtain ⟨cleaned, written, hgone, hsame, hwithin, hret, hfirst⟩ :=
    call_effect (hostOf host a.process) filePath (s.view a.process) hadm
  refine ⟨⟨cleaned, written, hgone, hsame, hwithin, hret⟩, ?_, ?_⟩
  · rw [DumpParties.after_self]
    exact hfirst
  · exact fun q hq => DumpParties.after_other s hq _ _ _

/-- A dump of another party leaves no file of the party that was not there before. -/
theorem step_other {s s' : Parties Dir} {a : Input} {es : List DumpEvent} {p : Process}
    (hs : step host filePath s a = some (s', es)) (hne : p ≠ a.process) {dir : Dir} {t : Nat}
    {suffix : String} (hhas : s'.files.has (dir, fileName p t suffix) = true) :
    s.files.has (dir, fileName p t suffix) = true := by
  obtain ⟨⟨cleaned, written, hgone, hsame, hwithin, -⟩, -, -⟩ := step_files hs
  have hnot : ¬ ∃ suffix' ∈ a.suffixes,
      fileName p t suffix = fileName a.process a.time suffix' := by
    rintro ⟨suffix', -, heq⟩
    rw [fileName, fileName, String.append_assoc, String.append_assoc] at heq
    exact hne (getHeapPrefix_inj heq).1
  have hwritten := hwithin.has_of hhas
  rw [has_congr (hsame (dir, fileName p t suffix) hnot)] at hwritten
  exact (hgone.has_of hwritten).1

/-- **A dump of the party**: nothing of its earlier dump is left when the newest leak list
    was that dump's, and only then as long as no retention helps. -/
theorem step_own {s s' : Parties Dir} {a : Input} {es : List DumpEvent} {p : Process}
    (hs : step host filePath s a = some (s', es)) (hp : a.process = p)
    (h : Single (host.dirOf filePath) p s) :
    (NewestIsOwn host filePath p s a →
        OnlyDump (host.dirOf filePath) p s'.files a.time a.suffixes)
      ∧ (.retention ∉ es → OnlyDump (host.dirOf filePath) p s'.files a.time a.suffixes →
          NewestIsOwn host filePath p s a) := by
  obtain rfl := hp
  obtain ⟨⟨cleaned, written, hgone, hsame, hwithin, hret⟩, -, -⟩ := step_files hs
  -- a name of the party that the dump does not write again
  have hother : ∀ {t : Nat} {suffix : String}, suffix ∈ dumpSuffixes →
      ¬ (t = a.time ∧ suffix ∈ a.suffixes) →
      written.has (host.dirOf filePath, fileName a.process t suffix)
        = cleaned.has (host.dirOf filePath, fileName a.process t suffix) := by
    intro t suffix hsuf hnot
    refine has_congr (hsame (host.dirOf filePath, fileName a.process t suffix) ?_)
    rintro ⟨suffix', hs', heq⟩
    obtain ⟨-, rfl, rfl⟩ := fileName_inj hsuf (a.suffixes_subset suffix' hs') heq
    exact hnot ⟨rfl, hs'⟩
  -- what the clean-up does to a file that is there
  have hcleared : ∀ {t : Nat} {suffix : String}, suffix ∈ dumpSuffixes →
      s.files.has (host.dirOf filePath, fileName a.process t suffix) = true →
      (Cleared (hostOf host a.process) a.out filePath (s.view a.process)
        (fileName a.process t suffix) ↔ NewestOf host a.out filePath s.files a.process t) := by
    intro t suffix hsuf hhas
    obtain ⟨time, isRawHeap, honly⟩ := h.only
    refine cleared_iff (d := s.view a.process) ?_ honly hsuf hhas
    rw [← Bool.not_eq_true]
    intro hfirst
    exact Bool.false_ne_true ((h.first hfirst t suffix hsuf).symm.trans hhas)
  refine ⟨?_, ?_⟩
  · intro hG t suffix hsuf hhas
    by_contra hnot
    have hclean := hwithin.has_of hhas
    rw [hother hsuf hnot] at hclean
    obtain ⟨hbefore, hkept⟩ := hgone.has_of hclean
    have hnewest := (hG rfl t suffix hsuf hbefore).resolve_left hnot
    exact hkept ⟨rfl, (hcleared hsuf hbefore).mpr hnewest⟩
  · intro hquiet honly _ t suffix hsuf hhas
    by_contra hnor
    obtain ⟨hnot, hnewest⟩ := not_or.mp hnor
    have hkept : cleaned.has (host.dirOf filePath, fileName a.process t suffix) = true := by
      rw [hgone.has_iff (fun hclear => hnewest ((hcleared hsuf hhas).mp hclear))]
      exact hhas
    rw [← hother hsuf hnot, ← hret hquiet] at hkept
    exact hnot (honly t suffix hsuf hkept)

/-- **The step lemma**: what meets the condition keeps the party at one dump. -/
theorem step_single {s s' : Parties Dir} {a : Input} {es : List DumpEvent} {p : Process}
    (h : Single (host.dirOf filePath) p s) (hG : NewestIsOwn host filePath p s a)
    (hs : step host filePath s a = some (s', es)) : Single (host.dirOf filePath) p s' := by
  obtain ⟨-, hfirst, hparty⟩ := step_files hs
  by_cases hp : a.process = p
  · refine ⟨?_, ?_⟩
    · intro hone
      rw [← hp, hfirst] at hone
      exact absurd hone Bool.false_ne_true
    · obtain ⟨isRawHeap, hkind⟩ := a.suffixes_kind
      refine ⟨a.time, isRawHeap, ?_⟩
      intro t suffix hsuf hhas
      obtain ⟨ht, hmem⟩ := (step_own hs hp h).1 hG t suffix hsuf hhas
      exact ⟨ht, hkind suffix hmem⟩
  · have hne : p ≠ a.process := fun heq => hp heq.symm
    refine ⟨?_, ?_⟩
    · intro hone t suffix hsuf
      rw [hparty p hne] at hone
      by_contra hhas
      have hbefore := step_other hs hne (Bool.not_eq_false _ |>.mp hhas)
      exact Bool.false_ne_true ((h.first hone t suffix hsuf).symm.trans hbefore)
    · obtain ⟨time, isRawHeap, honly⟩ := h.only
      exact ⟨time, isRawHeap, fun t suffix hsuf hhas =>
        honly t suffix hsuf (step_other hs hne hhas)⟩

/-- **One dump of each process thread**, for any number of parties that dump into one
    directory, one after another, with any timestamps. In a directory without a dump of
    the party, every dump of the party leaves nothing of an earlier one, in every run in
    which the party's dumps meet `NewestIsOwn`; and as long as a dump evicts nothing, it
    leaves nothing of an earlier one only when it meets it. The party's
    `deleteLastOldFile` never removes a file of another party. -/
theorem one_dump_each (host : Host Dir) (filePath : String) (files : Files Dir)
    (load : Process → DumpState Dir) (p : Process) (hnone : NoDump (host.dirOf filePath) p files) :
    (∀ (s : Parties Dir) (tr : List DumpEvent),
      Run (dumpsOneByOne host filePath files load) (NewestIsOwn host filePath p) s tr →
      ∀ (a : Input) (s' : Parties Dir) (es : List DumpEvent),
        step host filePath s a = some (s', es) → a.process = p →
          (NewestIsOwn host filePath p s a →
              OnlyDump (host.dirOf filePath) p s'.files a.time a.suffixes)
            ∧ (.retention ∉ es → OnlyDump (host.dirOf filePath) p s'.files a.time a.suffixes →
                NewestIsOwn host filePath p s a))
    ∧ ∀ (out : Outside) (store : Files Dir) (q : Process), q ≠ p →
      ∀ (dir : Dir) (time : Nat) (suffix : String),
        (deleteLastOldFile (hostOf host p) out filePath store).get (dir, fileName q time suffix)
          = store.get (dir, fileName q time suffix) := by
  refine ⟨?_, ?_⟩
  · intro s tr hr a s' es hs hp
    have hsingle : Single (host.dirOf filePath) p s := by
      refine Run.state_invariant (I := Single (host.dirOf filePath) p) ?_ ?_ hr
      swap
      · exact fun _ _ _ _ hI hG hs => step_single hI hG hs
      refine ⟨fun _ => hnone, 0, true, ?_⟩
      intro t suffix hsuf hhas
      exact absurd ((hnone t suffix hsuf).symm.trans hhas) Bool.false_ne_true
    exact step_own hs hp hsingle
  · intro out store q hq dir time suffix
    refine (deleteLastOldFile_unlinked (hostOf host p) out filePath store).kept
      (dir, fileName q time suffix) ?_
    rintro ⟨-, hlast⟩
    exact not_lastDump (hostOf host p) hq out filePath store time suffix hlast

/-- The two process threads of the runs below. -/
def first : Process := ⟨100, 101⟩

/-- The other of two processes. -/
def second : Process := ⟨200, 201⟩

/-- A raw heap dump that starts and ends at these times. -/
def dumpAt (p : Process) (start finish : Nat) : Input :=
  .rawHeap p openSession (outsideAt start) [7] openSession (outsideAt finish)

/-- The machine of the runs below: an empty directory. -/
def emptyDirectory : Machine (Parties String) Input DumpEvent :=
  dumpsOneByOne plainHost "jsleak" OrderedMap.empty (fun _ => noFiles)

theorem noDump_empty (p : Process) : NoDump "jsleak" p OrderedMap.empty := fun _ _ _ => rfl

/-- The second party dumps first; then the first one dumps twice, and keeps its last dump. -/
theorem one_dump_each_twice :
    ∃ (s s' : Parties String) (es : List DumpEvent),
      step plainHost "jsleak" s (dumpAt first 5 6) = some (s', es)
        ∧ s.files.has ("jsleak", fileName first 3 ".rawheap") = true
        ∧ OnlyDump "jsleak" first s'.files 5 [".jsleaklist", ".rawheap"] := by
  obtain ⟨s₁, s₂, s₃, e₁, e₂, e₃, h₁, h₂, h₃, hhas, hnewest⟩ : ∃ s₁ s₂ s₃ e₁ e₂ e₃,
      step plainHost "jsleak" emptyDirectory.init (dumpAt second 1 2) = some (s₁, e₁)
        ∧ step plainHost "jsleak" s₁ (dumpAt first 3 4) = some (s₂, e₂)
        ∧ step plainHost "jsleak" s₂ (dumpAt first 5 6) = some (s₃, e₃)
        ∧ s₂.files.has ("jsleak", fileName first 3 ".rawheap") = true
        ∧ NewestOf plainHost (outsideAt 5) "jsleak" s₂.files first 3 :=
    ⟨_, _, _, _, _, _, rfl, rfl, rfl, by decide +kernel, _, rfl, by decide +kernel,
      by decide +kernel⟩
  have hdumps := (one_dump_each plainHost "jsleak" OrderedMap.empty (fun _ => noFiles) first
    (noDump_empty first)).1
  have hG₁ : NewestIsOwn plainHost "jsleak" first emptyDirectory.init (dumpAt second 1 2) :=
    fun hp => absurd hp (by decide)
  have hr₁ : Run emptyDirectory (NewestIsOwn plainHost "jsleak" first) s₁ ([] ++ e₁) :=
    Run.next Run.start hG₁ h₁
  have hG₂ : NewestIsOwn plainHost "jsleak" first s₁ (dumpAt first 3 4) := by
    intro _ t suffix hsuf hthere
    have hbefore : emptyDirectory.init.files.has ("jsleak", fileName first t suffix) = true :=
      step_other h₁ (by decide) hthere
    exact absurd hbefore Bool.false_ne_true
  have hr₂ : Run emptyDirectory (NewestIsOwn plainHost "jsleak" first) s₂ ([] ++ e₁ ++ e₂) :=
    Run.next hr₁ hG₂ h₂
  have hG₃ : NewestIsOwn plainHost "jsleak" first s₂ (dumpAt first 5 6) := by
    intro _ t suffix hsuf hthere
    obtain ⟨rfl, -⟩ := (hdumps s₁ _ hr₁ _ s₂ e₂ h₂ rfl).1 hG₂ t suffix hsuf hthere
    exact Or.inr hnewest
  exact ⟨s₂, s₃, e₃, h₃, hhas, (hdumps s₂ _ hr₂ _ s₃ e₃ h₃ rfl).1 hG₃⟩

/-- Between two dumps of the first party the second one dumps: the newest leak list is not
    the first party's own, and its earlier dump stays. -/
theorem earlier_dump_stays :
    ¬ ∀ (Dir : Type) (_ : DecidableEq Dir) (host : Host Dir) (filePath : String)
        (files : Files Dir) (load : Process → DumpState Dir) (p : Process),
        NoDump (host.dirOf filePath) p files → ∀ (s : Parties Dir) (tr : List DumpEvent),
        Run (dumpsOneByOne host filePath files load) anyStep s tr →
        ∀ (a : Input) (s' : Parties Dir) (es : List DumpEvent),
          step host filePath s a = some (s', es) → a.process = p →
            OnlyDump (host.dirOf filePath) p s'.files a.time a.suffixes
              ∧ ∀ (out : Outside) (q : Process), q ≠ p → ∀ (time : Nat) (suffix : String),
                (deleteLastOldFile (hostOf host p) out filePath s.files).get
                    (host.dirOf filePath, fileName q time suffix)
                  = s.files.get (host.dirOf filePath, fileName q time suffix) := by
  intro h
  obtain ⟨p, hp⟩ : ∃ p, exec emptyDirectory anyStep [dumpAt first 1 2, dumpAt second 3 4]
      = some p := ⟨_, rfl⟩
  obtain ⟨q, hq, hold⟩ : ∃ q, step plainHost "jsleak" p.1 (dumpAt first 5 6) = some q
      ∧ q.1.files.has ("jsleak", fileName first 1 ".rawheap") = true := by
    obtain rfl := Option.some.inj hp
    exact ⟨_, rfl, by decide +kernel⟩
  have honly := (h String inferInstance plainHost "jsleak" OrderedMap.empty (fun _ => noFiles)
    first (noDump_empty first) p.1 p.2 (run_of_exec hp) (dumpAt first 5 6) q.1 q.2 hq rfl).1
  exact absurd (honly 1 ".rawheap" mem_rawheap hold).1 (by decide)

end OneDump
