import HiChecker.DumpPartiesProofs

/-!
# Dumps of several parties at the same time

A raw heap is on disk from the moment its dump starts; its leak list follows when the
callback runs, seconds later. The first clean-up of every process thread unlinks the raw
heaps without a leak list, whoever made them.

* **`SparesInProgress`** — a clean-up leaves the heap files that other parties' uncompleted
  dumps have created.
* **`NoneInProgress`** — at a first clean-up, no other party has a raw heap in the
  directory that still waits for its leak list.
* **`Steady`** — of a party: what a dump that has started finds again when it goes on.
* **`dumps_undisturbed`** — a clean-up spares the dumps in progress exactly when
  `NoneInProgress` holds; and when it does at every step, and no party starts a dump while
  one of its own is outstanding, every dump ends with both its files.
-/

namespace ConcurrentDump

open Transition JsValue OrderedMapLib FileStore DumpFile DumpIdentity DumpNames
open DumpCleanUp DumpParties

variable {Dir : Type} [DecidableEq Dir] (host : Host Dir)

-- ── A clean-up and the dumps in progress ──────────────────────────────────────────

/-- A clean-up of one party leaves the heap files that the uncompleted dumps of the others
    have created. -/
def SparesInProgress (s : Parties Dir) (a : Input Dir) (s' : Parties Dir) : Prop :=
  ∀ c, cleaning s a = some c → ∀ q, q ≠ c.process → ∀ dump ∈ (s.party q).unfinished,
    s'.files.get (dump.heap host q) = s.files.get (dump.heap host q)

/-- A first clean-up finds no raw heap of another party's uncompleted dump without its leak
    list. -/
def NoneInProgress (s : Parties Dir) (a : Input Dir) : Prop :=
  ∀ c, cleaning s a = some c → (s.party c.process).dump.firstDump = true →
    ∀ q, q ≠ c.process → ∀ dump ∈ (s.party q).unfinished, dump.isRawHeap = true →
      host.dirOf dump.filePath = host.dirOf c.filePath →
      s.files.has (dump.heap host q) = true → s.files.has (dump.list host q) = true

variable {host}

/-- The first clean-up removes no leak list. -/
theorem not_unmatched_list (dir : Dir) (files : Files Dir) (base : String) :
    ¬ Unmatched dir files (base ++ ".jsleaklist") := by
  rintro ⟨base', -, hname, -⟩
  exact suffix_ne mem_jsleaklist mem_rawheap (by decide) hname

/-- Which of another party's raw heaps it removes. -/
theorem unmatched_rawheap_iff (dir : Dir) (files : Files Dir) (q : Process) (time : Nat) :
    Unmatched dir files (fileName q time ".rawheap")
      ↔ files.has (dir, fileName q time ".rawheap") = true
        ∧ files.has (dir, fileName q time ".jsleaklist") = false := by
  constructor
  · rintro ⟨base, -, hname, hhas, hlist⟩
    obtain ⟨rfl, -⟩ := append_suffix_inj mem_rawheap mem_rawheap hname
    exact ⟨hhas, hlist⟩
  · rintro ⟨hhas, hlist⟩
    refine ⟨getHeapPrefix q ++ toString time, ?_, rfl, hhas, hlist⟩
    intro hempty
    have hlen := congrArg String.toList hempty
    rw [String.toList_append, toList_getHeapPrefix] at hlen
    exact absurd hlen (List.cons_ne_nil _ _)

/-- **A clean-up spares the dumps in progress exactly when it is not a first one that
    finds a raw heap of theirs still without its leak list.** -/
theorem spares_iff {s s' : Parties Dir} {a : Input Dir} {es : List Event}
    (hs : step host s a = some (s', es)) :
    SparesInProgress host s a s' ↔ NoneInProgress host s a := by
  cases hclean : cleaning s a with
  | none =>
      refine iff_of_true ?_ ?_
      · intro c hc
        exact absurd (hclean.symm.trans hc).symm (Option.some_ne_none c)
      · intro c hc
        exact absurd (hclean.symm.trans hc).symm (Option.some_ne_none c)
  | some c =>
      have hfiles : s'.files
          = (cleanUp (hostOf host c.process) c.out c.filePath (s.view c.process)).files := by
        rcases step_files hs with ⟨c', hc', hfiles⟩ | ⟨c', hc', -⟩ | ⟨hnone, -⟩
        · obtain rfl := Option.some.inj (hclean.symm.trans hc')
          exact hfiles
        · exact absurd ((retaining_of_cleaning hclean).symm.trans hc').symm (Option.some_ne_none c')
        · exact absurd (hclean.symm.trans hnone) (Option.some_ne_none c)
      have hgone := cleanUp_unlinked (hostOf host c.process) c.out c.filePath (s.view c.process)
      rw [← hfiles] at hgone
      have hview : (s.view c.process).firstDump = (s.party c.process).dump.firstDump := rfl
      -- what a clean-up does to one heap file of another party
      have hone : ∀ q, q ≠ c.process → ∀ dump : HeapDump,
          s'.files.get (dump.heap host q) = s.files.get (dump.heap host q)
            ↔ ((s.party c.process).dump.firstDump = true → dump.isRawHeap = true →
              host.dirOf dump.filePath = host.dirOf c.filePath →
              s.files.has (dump.heap host q) = true → s.files.has (dump.list host q) = true) := by
        intro q hq dump
        by_cases hdir : host.dirOf dump.filePath = host.dirOf c.filePath
        · rw [HeapDump.heap, HeapDump.list, hdir]
          refine (hgone.kept_iff _).trans ?_
          rw [Cleared, hview]
          by_cases hfirst : (s.party c.process).dump.firstDump = true
          · rw [if_pos hfirst]
            cases hraw : dump.isRawHeap with
            | true =>
                show (Unmatched (host.dirOf c.filePath) s.files (fileName q dump.time ".rawheap")
                  → _) ↔ _
                rw [unmatched_rawheap_iff]
                constructor
                · intro h _ _ _ hheap
                  by_contra hlist
                  have hnone := h ⟨hheap, Bool.not_eq_true _ |>.mp hlist⟩
                  exact Bool.false_ne_true (hnone.symm.trans hheap)
                · rintro h ⟨hheap, hlist⟩
                  have hthere := h hfirst rfl rfl hheap
                  exact absurd (hlist.symm.trans hthere) Bool.false_ne_true
            | false =>
                refine iff_of_true ?_ (fun _ h => absurd h Bool.false_ne_true)
                rintro ⟨base, -, hname, -⟩
                exact absurd hname (suffix_ne mem_heapsnapshot mem_rawheap (by decide))
          · rw [if_neg hfirst]
            refine iff_of_true (fun hlast => ?_) (fun h => absurd h hfirst)
            exact absurd hlast (not_lastDump (hostOf host c.process) hq _ _ _ _ _)
        · refine iff_of_true (hgone.kept _ (fun h => hdir h.1)) ?_
          intro _ _ h
          exact absurd h hdir
      constructor
      · intro h c' hc' hfirst q hq dump hmem
        obtain rfl := Option.some.inj (hclean.symm.trans hc')
        exact (hone q hq dump).mp (h c hclean q hq dump hmem) hfirst
      · intro h c' hc' q hq dump hmem
        obtain rfl := Option.some.inj (hclean.symm.trans hc')
        exact (hone q hq dump).mpr (fun hfirst => h c hclean hfirst q hq dump hmem)

-- ── Runs in which nothing is disturbed ────────────────────────────────────────────

/-- While a dump of a party is outstanding, no other call of that party gets past its
    tests, and none reads the dump parameter as off. -/
def NoOverlap (s : Parties Dir) : Input Dir → Prop
  | .dumpInner p _ session out =>
      (s.party p).outstanding = [] ∨ (admitted session out = false ∧ out.status = true)
  | .dump p _ session out => (s.party p).outstanding = [] ∨ admitted session out = false
  | _ => True

variable (host) in
/-- No first clean-up meets a raw heap in progress, and no party overlaps its own dumps. -/
def Undisturbed (s : Parties Dir) (a : Input Dir) : Prop := NoneInProgress host s a ∧ NoOverlap s a

/-- What a dump that has started finds again when it goes on: one case for each place in
    which it can wait. -/
inductive Steady (host : Host Dir) (files : Files Dir) (p : Process) (x : Party Dir) : Prop where
  | clear (hnone : x.unfinished = [])
      (hstatus : ∀ filePath, x.stage = .create filePath true → x.dump.dumpStatus = true)
  | waiting (dump : HeapDump) (houtstanding : x.outstanding = [dump]) (hstage : x.stage = .idle)
      (hraw : dump.isRawHeap = true) (hstatus : x.dump.dumpStatus = true)
      (hstamp : x.dump.curTimeStamp = toString dump.time)
      (hheap : files.has (dump.heap host p) = true)
  | heaped (dump : HeapDump) (houtstanding : x.outstanding = []) (hstage : x.stage = .list dump)
      (hraw : dump.isRawHeap = false) (hstamp : x.dump.curTimeStamp = toString dump.time)
      (hheap : files.has (dump.heap host p) = true)
  | listed (dump : HeapDump) (filePath : String) (isSync : Bool)
      (houtstanding : x.outstanding = [])
      (hstage : x.stage = .deliver filePath isSync (some dump))
      (hheap : files.has (dump.heap host p) = true)
      (hlist : files.has (dump.list host p) = true)

/-- Both files of every dump that ends are there. -/
def BothFiles (host : Host Dir) (s : Parties Dir) (es : List Event) : Prop :=
  ∀ p dump, Event.ended p dump ∈ es →
    s.files.has (dump.heap host p) = true ∧ s.files.has (dump.list host p) = true

/-- The heap file of an uncompleted dump is there. -/
theorem Steady.heap {files : Files Dir} {p : Process} {x : Party Dir}
    (h : Steady host files p x) {dump : HeapDump} (hmem : dump ∈ x.unfinished) :
    files.has (dump.heap host p) = true := by
  cases h with
  | clear hnone _ =>
      rw [hnone] at hmem
      exact absurd hmem List.not_mem_nil
  | waiting dump' houtstanding hstage _ _ _ hheap =>
      rw [Party.unfinished, houtstanding, hstage] at hmem
      obtain rfl := List.mem_singleton.mp hmem
      exact hheap
  | heaped dump' houtstanding hstage _ _ hheap =>
      rw [Party.unfinished, houtstanding, hstage] at hmem
      obtain rfl := List.mem_singleton.mp hmem
      exact hheap
  | listed dump' filePath isSync houtstanding hstage hheap _ =>
      rw [Party.unfinished, houtstanding, hstage] at hmem
      obtain rfl := List.mem_singleton.mp hmem
      exact hheap

/-- A step that keeps the party, and the files of its dumps, keeps it. -/
theorem Steady.keep {files files' : Files Dir} {p : Process} {x : Party Dir}
    (h : Steady host files p x)
    (hheap : ∀ dump ∈ x.unfinished, files.has (dump.heap host p) = true →
      files'.has (dump.heap host p) = true)
    (hlist : ∀ dump : HeapDump, files.has (dump.list host p) = true →
      files'.has (dump.list host p) = true) : Steady host files' p x := by
  have hthere : ∀ dump ∈ x.unfinished, files'.has (dump.heap host p) = true :=
    fun dump hmem => hheap dump hmem (h.heap hmem)
  cases h with
  | clear hnone hstatus => exact .clear hnone hstatus
  | waiting dump houtstanding hstage hraw hstatus hstamp _ =>
      refine .waiting dump houtstanding hstage hraw hstatus hstamp (hthere dump ?_)
      rw [Party.unfinished, houtstanding]
      exact List.mem_cons_self
  | heaped dump houtstanding hstage hraw hstamp _ =>
      refine .heaped dump houtstanding hstage hraw hstamp (hthere dump ?_)
      rw [Party.unfinished, houtstanding, hstage]
      exact List.mem_cons_self
  | listed dump filePath isSync houtstanding hstage _ hlisted =>
      refine .listed dump filePath isSync houtstanding hstage (hthere dump ?_) (hlist dump hlisted)
      rw [Party.unfinished, houtstanding, hstage]
      exact List.mem_cons_self

/-- A party has no dump outstanding, or exactly one, and then it is between two calls. -/
theorem Steady.outstanding {files : Files Dir} {p : Process} {x : Party Dir}
    (h : Steady host files p x) :
    x.outstanding = [] ∨ ∃ dump, x.outstanding = [dump] ∧ x.stage = .idle
      ∧ dump.isRawHeap = true ∧ x.dump.dumpStatus = true
      ∧ x.dump.curTimeStamp = toString dump.time ∧ files.has (dump.heap host p) = true := by
  cases h with
  | clear hnone _ => exact Or.inl (List.append_eq_nil_iff.mp hnone).1
  | waiting dump houtstanding hstage hraw hstatus hstamp hheap =>
      exact Or.inr ⟨dump, houtstanding, hstage, hraw, hstatus, hstamp, hheap⟩
  | heaped dump houtstanding _ _ _ _ => exact Or.inl houtstanding
  | listed dump filePath isSync houtstanding _ _ _ => exact Or.inl houtstanding

/-- What a party finds when it goes on, by the stage it is in: before the heap file. -/
theorem Steady.of_create {files : Files Dir} {p : Process} {x : Party Dir}
    (h : Steady host files p x) {filePath : String} {isRawHeap : Bool}
    (hstage : x.stage = .create filePath isRawHeap) :
    x.outstanding = [] ∧ (isRawHeap = true → x.dump.dumpStatus = true) := by
  cases h with
  | clear hnone hstatus =>
      refine ⟨(List.append_eq_nil_iff.mp hnone).1, ?_⟩
      rintro rfl
      exact hstatus filePath hstage
  | waiting dump _ hidle => exact Stage.noConfusion (hstage.symm.trans hidle)
  | heaped dump _ hlist => exact Stage.noConfusion (hstage.symm.trans hlist)
  | listed dump _ _ _ hdeliver => exact Stage.noConfusion (hstage.symm.trans hdeliver)

/-- A leak list alone belongs to no dump with a heap file. -/
theorem Steady.of_listOff {files : Files Dir} {p : Process} {x : Party Dir}
    (h : Steady host files p x) {filePath : String} {dump : Option HeapDump}
    (hstage : x.stage = .listOff filePath dump) : x.outstanding = [] ∧ dump.toList = [] := by
  cases h with
  | clear hnone _ =>
      obtain ⟨hnil, hdumps⟩ := List.append_eq_nil_iff.mp hnone
      rw [hstage] at hdumps
      exact ⟨hnil, hdumps⟩
  | waiting dump' _ hidle => exact Stage.noConfusion (hstage.symm.trans hidle)
  | heaped dump' _ hlist => exact Stage.noConfusion (hstage.symm.trans hlist)
  | listed dump' _ _ _ hdeliver => exact Stage.noConfusion (hstage.symm.trans hdeliver)

/-- Before the leak list of a synchronous dump, its heap file is there. -/
theorem Steady.of_list {files : Files Dir} {p : Process} {x : Party Dir}
    (h : Steady host files p x) {dump : HeapDump} (hstage : x.stage = .list dump) :
    x.outstanding = [] ∧ dump.isRawHeap = false ∧ x.dump.curTimeStamp = toString dump.time
      ∧ files.has (dump.heap host p) = true := by
  cases h with
  | clear hnone _ =>
      have hdumps := (List.append_eq_nil_iff.mp hnone).2
      rw [hstage] at hdumps
      exact absurd hdumps (List.cons_ne_nil _ _)
  | waiting dump' _ hidle => exact Stage.noConfusion (hstage.symm.trans hidle)
  | heaped dump' hnil hlist hraw hstamp hheap =>
      obtain rfl := Stage.list.inj (hstage.symm.trans hlist)
      exact ⟨hnil, hraw, hstamp, hheap⟩
  | listed dump' _ _ _ hdeliver => exact Stage.noConfusion (hstage.symm.trans hdeliver)

/-- Before the end, both files are. -/
theorem Steady.of_deliver {files : Files Dir} {p : Process} {x : Party Dir}
    (h : Steady host files p x) {filePath : String} {isSync : Bool} {dump : Option HeapDump}
    (hstage : x.stage = .deliver filePath isSync dump) :
    x.outstanding = [] ∧ ∀ dump' ∈ dump.toList,
      files.has (dump'.heap host p) = true ∧ files.has (dump'.list host p) = true := by
  cases h with
  | clear hnone _ =>
      obtain ⟨hnil, hdumps⟩ := List.append_eq_nil_iff.mp hnone
      rw [hstage] at hdumps
      refine ⟨hnil, fun dump' hmem => ?_⟩
      rw [show dump.toList = [] from hdumps] at hmem
      exact absurd hmem List.not_mem_nil
  | waiting dump' _ hidle => exact Stage.noConfusion (hstage.symm.trans hidle)
  | heaped dump' _ hlist => exact Stage.noConfusion (hstage.symm.trans hlist)
  | listed dump' _ _ hnil hdeliver hheap hlist =>
      obtain ⟨-, -, rfl⟩ := Stage.deliver.inj (hstage.symm.trans hdeliver)
      refine ⟨hnil, fun dump'' hmem => ?_⟩
      obtain rfl := List.mem_singleton.mp hmem
      exact ⟨hheap, hlist⟩

/-- **A step of another party** leaves a party's dumps what they find. -/
theorem steady_other {s s' : Parties Dir} {a : Input Dir} {es : List Event} {q : Process}
    (h : Steady host s.files q (s.party q)) (hG : NoneInProgress host s a)
    (hs : step host s a = some (s', es)) (hret : ∀ p, Event.dump p .retention ∉ es)
    (hq : actor a ≠ some q) : Steady host s'.files q (s'.party q) := by
  rw [step_party hs hq]
  have hlist : ∀ dump : HeapDump, s'.files.get (dump.list host q) = s.files.get (dump.list host q)
      → s.files.has (dump.list host q) = true → s'.files.has (dump.list host q) = true := by
    intro dump hsame hhas
    rw [has_congr hsame]
    exact hhas
  have hheap : ∀ dump : HeapDump, s'.files.get (dump.heap host q) = s.files.get (dump.heap host q)
      → s.files.has (dump.heap host q) = true → s'.files.has (dump.heap host q) = true := by
    intro dump hsame hhas
    rw [has_congr hsame]
    exact hhas
  rcases step_files hs with ⟨c, hc, hfiles⟩ | ⟨c, hc, -, hkept⟩ | ⟨-, -, hsame⟩
  · have hne : q ≠ c.process := by
      rintro rfl
      exact hq (actor_of_cleaning hc)
    have hgone := cleanUp_unlinked (hostOf host c.process) c.out c.filePath (s.view c.process)
    rw [← hfiles] at hgone
    refine h.keep (fun dump hmem => hheap dump ?_) (fun dump => hlist dump ?_)
    · exact (spares_iff hs).mpr hG c hc q hne dump hmem
    · refine hgone.kept _ (fun hcleared => ?_)
      have hname := hcleared.2
      rw [Cleared] at hname
      split at hname
      · exact not_unmatched_list _ _ _ hname
      · exact not_lastDump (hostOf host c.process) hne _ _ _ _ _ hname
  · rw [hkept (hret c.process)]
    exact h
  · refine h.keep (fun dump _ => hheap dump ?_) (fun dump => hlist dump ?_)
    · exact hsame _ (not_touched_of_other hq _ _ (mem_heapSuffix dump.isRawHeap))
    · exact hsame _ (not_touched_of_other hq _ _ mem_jsleaklist)

omit [DecidableEq Dir] in
/-- The base name of the moment, when `curTimeStamp` is that of a dump. -/
theorem fileName_eq (host : Host Dir) (p : Process) {d : DumpState Dir} {time : Nat}
    (h : d.curTimeStamp = toString time) (suffix : String) :
    getHeapBaseName (hostOf host p) d ++ suffix = fileName p time suffix :=
  congrArg (fun stamp => getHeapPrefix p ++ stamp ++ suffix) h

/-- With its heap file there, a dump gets its leak list written. -/
theorem writeJsleaklist_own {p : Process} {d : DumpState Dir} {dump : HeapDump}
    (hstamp : d.curTimeStamp = toString dump.time)
    (hheap : d.files.has (dump.heap host p) = true) {out : Outside} {session : Session}
    {files : Files Dir} {ok : Bool}
    (hrun : writeJsleaklist (hostOf host p) out session dump.filePath dump.isRawHeap true d
      = ({ d with files := files }, ok)) :
    ok = true ∧ files.has (dump.heap host p) = true ∧ files.has (dump.list host p) = true := by
  obtain ⟨files', ok', hrun', hok, hlist, hgrows, -⟩ := writeJsleaklist_spec (hostOf host p) out
    session dump.filePath dump.isRawHeap true d
  obtain ⟨hd, rfl⟩ := Prod.mk.inj (hrun.symm.trans hrun')
  obtain rfl : files = files' := congrArg DumpState.files hd
  rw [fileName_eq host p hstamp] at hok hlist
  exact ⟨hok (Or.inr hheap), hgrows _ hheap, hlist⟩

/-- A call that the tests stop leaves the dump that is outstanding its names. -/
theorem steady_refused {s : Parties Dir} {p : Process} {d : DumpState Dir}
    (h : Steady host s.files p (s.party p)) (hfiles : d.files = s.files)
    (hstamp : d.curTimeStamp = (s.party p).dump.curTimeStamp)
    (hstatus : (s.party p).outstanding = [] ∨
      ((s.party p).dump.dumpStatus = true → d.dumpStatus = true)) :
    Steady host (s.after p d (s.party p).outstanding .idle).files p
      ((s.after p d (s.party p).outstanding .idle).party p) := by
  rw [after_self, after_files, hfiles]
  rcases h.outstanding with hnil | ⟨dump, hone, -, hraw, hon, hstamp', hheap⟩
  · refine .clear ?_ (fun _ hstage => Stage.noConfusion hstage)
    rw [Party.unfinished, hnil]
    rfl
  · rcases hstatus with hnil | hstatus
    · exact absurd (hone.symm.trans hnil) (List.cons_ne_nil _ _)
    · exact .waiting dump hone rfl hraw (hstatus hon) (hstamp.trans hstamp') hheap

/-- A call that gets past the tests has no dump outstanding. -/
theorem steady_admitted {s : Parties Dir} {p : Process} {d : DumpState Dir} {stage : Stage}
    (hnil : (s.party p).outstanding = []) (hdumps : stage.dumps = [])
    (hstatus : ∀ filePath, stage = .create filePath true → d.dumpStatus = true) :
    Steady host (s.after p d (s.party p).outstanding stage).files p
      ((s.after p d (s.party p).outstanding stage).party p) := by
  rw [after_self]
  refine .clear ?_ hstatus
  rw [Party.unfinished, hnil, hdumps]
  rfl

/-- A step that ends no dump. -/
theorem bothFiles_of_none {s : Parties Dir} {es : List Event}
    (h : ∀ p dump, Event.ended p dump ∉ es) : BothFiles host s es :=
  fun p dump hmem => absurd hmem (h p dump)

section Own

variable {s s' : Parties Dir} {es : List Event} {p : Process} {session : Session}
  {out : Outside} {filePath : String}

theorem steady_dumpInner (h : Steady host s.files p (s.party p))
    (hG : NoOverlap s (.dumpInner p filePath session out))
    (hs : stepDumpInner host s p filePath session out = some (s', es)) :
    Steady host s'.files p (s'.party p) ∧ BothFiles host s' es := by
  obtain ⟨hidle, ⟨hadm, rfl, hes⟩ | ⟨hadm, rfl, rfl⟩⟩ := stepDumpInner_cases hs
  · refine ⟨steady_refused h rfl rfl (hG.imp id (fun hrefused _ => hrefused.2)), ?_⟩
    refine bothFiles_of_none (fun q dump hmem => ?_)
    rcases hes with rfl | rfl
    · exact absurd hmem List.not_mem_nil
    · exact Event.noConfusion (List.mem_singleton.mp hmem)
  · have hnil := hG.resolve_right (fun hrefused =>
      Bool.false_ne_true (hrefused.1.symm.trans hadm))
    refine ⟨steady_admitted hnil ?_ ?_, bothFiles_of_none (fun _ _ => List.not_mem_nil)⟩
    · split
      · rfl
      · rfl
    · intro filePath' hstage
      rw [(cleanUp_variables _ _ _ _).2]
      show out.status = true
      by_contra hoff
      rw [if_neg hoff] at hstage
      exact Stage.noConfusion hstage

theorem steady_dump (h : Steady host s.files p (s.party p))
    (hG : NoOverlap s (.dump p filePath session out))
    (hs : stepDump host s p filePath session out = some (s', es)) :
    Steady host s'.files p (s'.party p) ∧ BothFiles host s' es := by
  obtain ⟨hidle, ⟨hadm, rfl, hes⟩ | ⟨hadm, rfl, rfl⟩⟩ := stepDump_cases hs
  · refine ⟨steady_refused h rfl rfl (Or.inr id), bothFiles_of_none (fun q dump hmem => ?_)⟩
    rcases hes with rfl | rfl
    · exact Event.noConfusion (List.mem_singleton.mp hmem)
    · exact Event.noConfusion (List.mem_singleton.mp hmem)
  · have hnil := hG.resolve_right (fun hrefused =>
      Bool.false_ne_true (hrefused.symm.trans hadm))
    refine ⟨steady_admitted hnil rfl ?_, bothFiles_of_none (fun _ _ => List.not_mem_nil)⟩
    intro filePath' hstage
    exact absurd (Stage.create.inj hstage).2 Bool.false_ne_true

theorem steady_createHeap (h : Steady host s.files p (s.party p))
    (hs : stepCreateHeap host s p out = some (s', es)) :
    Steady host s'.files p (s'.party p) ∧ BothFiles host s' es := by
  obtain ⟨filePath, isRawHeap, hstage, files, rfl, hes, hheap, -⟩ := stepCreateHeap_cases hs
  obtain ⟨hnil, hstatus⟩ := h.of_create hstage
  refine ⟨?_, bothFiles_of_none (fun q dump hmem => ?_)⟩
  · rw [after_self, hnil]
    cases isRawHeap with
    | true => exact .waiting ⟨filePath, out.time, true⟩ rfl rfl rfl (hstatus rfl) rfl hheap
    | false => exact .heaped ⟨filePath, out.time, false⟩ rfl rfl rfl rfl hheap
  · obtain ⟨path, hpath⟩ := hes _ hmem
    exact Event.noConfusion hpath

theorem steady_callback {k : Nat} (h : Steady host s.files p (s.party p))
    (hs : stepCallback host s p k session out = some (s', es)) :
    Steady host s'.files p (s'.party p) ∧ BothFiles host s' es := by
  obtain ⟨hidle, dump, hk, hcases⟩ := stepCallback_cases hs
  rcases h.outstanding with hnil | ⟨dump', hone, -, hraw, hon, hstamp, hheap⟩
  · rw [hnil] at hk
    exact absurd hk.symm (Option.some_ne_none _)
  · -- the callback is that of the one dump outstanding
    rw [hone] at hk
    obtain ⟨rfl, rfl⟩ : k = 0 ∧ dump' = dump := by
      cases k with
      | zero => exact ⟨rfl, Option.some.inj hk⟩
      | succ k => exact absurd hk.symm (Option.some_ne_none _)
    rcases hcases with ⟨hoff, -⟩ | ⟨-, files, ok, rfl, rfl, hrun⟩
    · exact absurd (hoff.symm.trans hon) Bool.false_ne_true
    · rw [← hraw] at hrun
      obtain ⟨rfl, hheap', hlist'⟩ := writeJsleaklist_own (d := s.view p) hstamp hheap
        (by rw [hraw] at hrun ⊢; exact hrun)
      refine ⟨?_, bothFiles_of_none (fun _ _ => List.not_mem_nil)⟩
      rw [after_self, hone]
      exact .listed dump' dump'.filePath false rfl rfl hheap' hlist'

theorem steady_writeList (h : Steady host s.files p (s.party p))
    (hs : stepWriteList host s p session out = some (s', es)) :
    Steady host s'.files p (s'.party p) ∧ BothFiles host s' es := by
  rcases stepWriteList_cases hs with
    ⟨filePath, dump, hstage, rfl, files, rfl, -⟩ | ⟨dump, hstage, files, ok, rfl, rfl, hrun⟩
  · obtain ⟨hnil, hdumps⟩ := h.of_listOff hstage
    refine ⟨steady_admitted hnil hdumps ?_, bothFiles_of_none (fun _ _ => List.not_mem_nil)⟩
    exact fun _ hcreate => Stage.noConfusion hcreate
  · obtain ⟨hnil, hraw, hstamp, hheap⟩ := h.of_list hstage
    rw [← hraw] at hrun
    obtain ⟨rfl, hheap', hlist'⟩ := writeJsleaklist_own (d := s.view p) hstamp hheap
      (by rw [hraw] at hrun ⊢; exact hrun)
    refine ⟨?_, bothFiles_of_none (fun _ _ => List.not_mem_nil)⟩
    rw [after_self, hnil]
    exact .listed dump dump.filePath true rfl rfl hheap' hlist'

theorem steady_retention (h : Steady host s.files p (s.party p))
    (hret : ∀ p, Event.dump p .retention ∉ es)
    (hs : stepRetention host s p session out = some (s', es)) :
    Steady host s'.files p (s'.party p) ∧ BothFiles host s' es := by
  obtain ⟨filePath, isSync, dump, hstage, d, des, rfl, rfl, -, -, -, hkept⟩ :=
    stepRetention_cases hs
  obtain ⟨hnil, hboth⟩ := h.of_deliver hstage
  refine ⟨steady_admitted hnil rfl (fun _ hcreate => Stage.noConfusion hcreate), ?_⟩
  intro q dump' hmem
  rcases List.mem_append.mp hmem with hdes | hended
  · obtain ⟨e, -, he⟩ := List.mem_map.mp hdes
    exact Event.noConfusion he
  · obtain ⟨dump'', hdump, he⟩ := List.mem_map.mp hended
    obtain ⟨rfl, rfl⟩ := Event.ended.inj he
    rw [after_files, hkept (hret p)]
    exact hboth dump'' hdump

end Own

/-- **A step of the party itself**: it finds what it left, and a dump that ends has both
    its files. -/
theorem steady_own {s s' : Parties Dir} {a : Input Dir} {es : List Event} {p : Process}
    (h : Steady host s.files p (s.party p)) (hG : NoOverlap s a)
    (hs : step host s a = some (s', es)) (hret : ∀ p, Event.dump p .retention ∉ es)
    (hp : actor a = some p) :
    Steady host s'.files p (s'.party p) ∧ BothFiles host s' es := by
  cases a with
  | application path bytes => exact absurd hp.symm (Option.some_ne_none p)
  | dumpInner p' filePath session out =>
      obtain rfl := Option.some.inj hp
      exact steady_dumpInner h hG hs
  | dump p' filePath session out =>
      obtain rfl := Option.some.inj hp
      exact steady_dump h hG hs
  | createHeap p' out =>
      obtain rfl := Option.some.inj hp
      exact steady_createHeap h hs
  | heapWrite p' k bytes =>
      obtain rfl := Option.some.inj hp
      obtain ⟨dump, -, rfl, rfl⟩ := stepHeapWrite_cases hs
      refine ⟨h.keep (fun _ _ => has_appendTo _ _ _) (fun _ => has_appendTo _ _ _), ?_⟩
      exact bothFiles_of_none (fun _ _ => List.not_mem_nil)
  | callback p' k session out =>
      obtain rfl := Option.some.inj hp
      exact steady_callback h hs
  | writeList p' session out =>
      obtain rfl := Option.some.inj hp
      exact steady_writeList h hs
  | retention p' session out =>
      obtain rfl := Option.some.inj hp
      exact steady_retention h hret hs

/-- **The step lemma**: a step that disturbs nothing keeps all parties steady, and a dump
    that it ends has both its files. -/
theorem step_steady {s s' : Parties Dir} {a : Input Dir} {es : List Event}
    (h : ∀ p, Steady host s.files p (s.party p)) (hG : Undisturbed host s a)
    (hs : step host s a = some (s', es)) (hret : ∀ p, Event.dump p .retention ∉ es) :
    (∀ p, Steady host s'.files p (s'.party p)) ∧ BothFiles host s' es := by
  refine ⟨?_, ?_⟩
  · intro p
    by_cases hp : actor a = some p
    · exact (steady_own (h p) hG.2 hs hret hp).1
    · exact steady_other (h p) hG.1 hs hret hp
  · cases ha : actor a with
    | some p => exact (steady_own (h p) hG.2 hs hret ha).2
    | none =>
        cases a with
        | application path bytes =>
            obtain ⟨-, -, rfl, -⟩ := stepApplication_cases hs
            exact fun q dump hmem => absurd hmem List.not_mem_nil
        | _ => exact absurd ha (Option.some_ne_none _)

/-- **Concurrent dumps leave each other alone**, for any number of parties, any files and
    any interleaving of their steps. A clean-up of one party spares the heap files of the
    others' uncompleted dumps exactly when it is not a first one that finds a raw heap of
    theirs still without its leak list. In every run whose steps meet this condition, and
    in which no party starts a dump while one of its own is outstanding, each dump has both
    its files when it ends, as long as the retention has deleted nothing. -/
theorem dumps_undisturbed (host : Host Dir) (files : Files Dir)
    (load : Process → DumpState Dir) :
    (∀ (s : Parties Dir) (tr : List Event), Run (parties host files load) anyStep s tr →
      ∀ (a : Input Dir) (s' : Parties Dir) (es : List Event), step host s a = some (s', es) →
        (SparesInProgress host s a s' ↔ NoneInProgress host s a))
    ∧ ∀ (s : Parties Dir) (tr : List Event),
      Run (parties host files load) (Undisturbed host) s tr →
      ∀ (a : Input Dir) (s' : Parties Dir) (es : List Event), Undisturbed host s a →
        step host s a = some (s', es) → (∀ p, Event.dump p .retention ∉ tr ++ es) →
          BothFiles host s' es := by
  refine ⟨fun s tr _ a s' es hs => spares_iff hs, ?_⟩
  intro s tr hr a s' es hG hs hret
  have hI : (∀ p, Event.dump p .retention ∉ tr) → ∀ p, Steady host s.files p (s.party p) := by
    refine Run.invariant (I := fun s tr => (∀ p, Event.dump p .retention ∉ tr) →
      ∀ p, Steady host s.files p (s.party p)) ?_ ?_ hr
    · exact fun _ p => .clear rfl (fun _ hstage => Stage.noConfusion hstage)
    · intro s tr a s' es hI hG hs hret
      refine (step_steady (hI ?_) hG hs ?_).1
      · exact fun p hmem => hret p (List.mem_append_left _ hmem)
      · exact fun p hmem => hret p (List.mem_append_right _ hmem)
  refine (step_steady (hI ?_) hG hs ?_).2
  · exact fun p hmem => hret p (List.mem_append_left _ hmem)
  · exact fun p hmem => hret p (List.mem_append_right _ hmem)

/-- The two process threads of the runs below. -/
def first : Process := ⟨100, 101⟩

def second : Process := ⟨200, 201⟩

/-- The machine of the runs below: an empty directory. -/
def emptyDirectory : Machine (Parties String) (Input String) Event :=
  parties plainHost OrderedMap.empty (fun _ => noFiles)

/-- The event of a `deleteOldFile` over its limit. -/
def isRetention : Event → Bool
  | .dump _ .retention => true
  | _ => false

/-- A call that gets past its tests while no party has an uncompleted dump. -/
theorem undisturbed_of_none {s : Parties Dir} (h : ∀ q, (s.party q).unfinished = [])
    (p : Process) (filePath : String) (session : Session) (out : Outside) :
    Undisturbed host s (.dumpInner p filePath session out) := by
  refine ⟨?_, Or.inl (List.append_eq_nil_iff.mp (h p)).1⟩
  intro c _ _ q _ dump hmem
  rw [h q] at hmem
  exact absurd hmem List.not_mem_nil

/-- A step without a clean-up, and without a call that makes one. -/
theorem noneInProgress_of_not_cleaning {s : Parties Dir} {a : Input Dir}
    (h : cleaning s a = none) : NoneInProgress host s a :=
  fun c hc => absurd (h.symm.trans hc).symm (Option.some_ne_none c)

/-- Two parties whose dumps overlap, after both have cleaned up: the first one ends. -/
theorem dumps_undisturbed_overlapping :
    ∃ (s : Parties String) (es : List Event), Event.ended first ⟨"jsleak", 3, true⟩ ∈ es
      ∧ BothFiles plainHost s es := by
  obtain ⟨s₁, s₂, s₃, s₄, s₅, s₆, e₃, e₄, es, h₁, h₂, h₃, h₄, h₅, h₆, hnone, hclean, hended,
      hfree⟩ : ∃ s₁ s₂ s₃ s₄ s₅ s₆ e₃ e₄ es,
      emptyDirectory.step emptyDirectory.init (.dumpInner first "jsleak" openSession (outsideAt 1))
          = some (s₁, [])
        ∧ emptyDirectory.step s₁ (.dumpInner second "jsleak" openSession (outsideAt 2))
          = some (s₂, [])
        ∧ emptyDirectory.step s₂ (.createHeap first (outsideAt 3)) = some (s₃, e₃)
        ∧ emptyDirectory.step s₃ (.createHeap second (outsideAt 4)) = some (s₄, e₄)
        ∧ emptyDirectory.step s₄ (.callback first 0 openSession (outsideAt 5)) = some (s₅, [])
        ∧ emptyDirectory.step s₅ (.retention first openSession (outsideAt 6)) = some (s₆, es)
        ∧ (∀ q, (s₁.party q).unfinished = [])
        ∧ cleaning s₄ (.callback first 0 openSession (outsideAt 5)) = none
        ∧ Event.ended first ⟨"jsleak", 3, true⟩ ∈ es
        ∧ ∀ e ∈ e₃ ++ e₄ ++ es, isRetention e = false := by
    refine ⟨_, _, _, _, _, _, _, _, _, rfl, rfl, rfl, rfl, rfl, rfl, ?_, rfl, by decide +kernel,
      by decide +kernel⟩
    intro q
    show (if q = first then _ else _ : Party String).unfinished = []
    split
    · rfl
    · rfl
  have hr : Run emptyDirectory (Undisturbed plainHost) s₅
      ([] ++ [] ++ [] ++ e₃ ++ e₄ ++ []) := by
    refine Run.next (Run.next (Run.next (Run.next (Run.next Run.start ?_ h₁) ?_ h₂) ?_ h₃) ?_ h₄)
      ?_ h₅
    · exact undisturbed_of_none (fun _ => rfl) _ _ _ _
    · exact undisturbed_of_none hnone _ _ _ _
    · exact ⟨noneInProgress_of_not_cleaning rfl, trivial⟩
    · exact ⟨noneInProgress_of_not_cleaning rfl, trivial⟩
    · exact ⟨noneInProgress_of_not_cleaning hclean, trivial⟩
  have hlast : Undisturbed plainHost s₅ (.retention first openSession (outsideAt 6)) :=
    ⟨noneInProgress_of_not_cleaning rfl, trivial⟩
  refine ⟨s₆, es, hended, (dumps_undisturbed plainHost OrderedMap.empty (fun _ => noFiles)).2 s₅ _
    hr (.retention first openSession (outsideAt 6)) s₆ es hlast h₆ ?_⟩
  intro p hmem
  have hmem' : Event.dump p .retention ∈ e₃ ++ e₄ ++ es := by
    simpa only [List.nil_append, List.append_nil] using hmem
  exact Bool.false_ne_true ((hfree _ hmem').symm.trans rfl)

/-- The second party's first clean-up comes while the first party's dump is in progress:
    it unlinks the raw heap. -/
theorem raw_heap_in_progress_removed :
    ¬ ∀ (Dir : Type) (_ : DecidableEq Dir) (host : Host Dir) (files : Files Dir)
        (load : Process → DumpState Dir) (s : Parties Dir) (tr : List Event),
        Run (parties host files load) anyStep s tr →
        ∀ (a : Input Dir) (s' : Parties Dir) (es : List Event), step host s a = some (s', es) →
          SparesInProgress host s a s'
            ∧ ((∀ p, Event.dump p .retention ∉ tr ++ es) → BothFiles host s' es) := by
  intro h
  obtain ⟨p, hp⟩ : ∃ p, exec emptyDirectory anyStep
      [.dumpInner first "jsleak" openSession (outsideAt 1), .createHeap first (outsideAt 1)]
        = some p := ⟨_, rfl⟩
  let dump : HeapDump := ⟨"jsleak", 1, true⟩
  obtain ⟨q, hq, hclean, hmem, hbefore, hafter⟩ : ∃ q,
      step plainHost p.1 (.dumpInner second "jsleak" openSession (outsideAt 2)) = some q
        ∧ cleaning p.1 (.dumpInner second "jsleak" openSession (outsideAt 2))
            = some ⟨second, "jsleak", outsideAt 2⟩
        ∧ dump ∈ (p.1.party first).unfinished
        ∧ p.1.files.get (dump.heap plainHost first) = some []
        ∧ q.1.files.get (dump.heap plainHost first) = none := by
    obtain rfl := Option.some.inj hp
    exact ⟨_, rfl, rfl, List.mem_singleton_self _, by decide +kernel, by decide +kernel⟩
  have hkept := (h String inferInstance plainHost OrderedMap.empty (fun _ => noFiles) p.1 p.2
    (run_of_exec hp) _ q.1 q.2 hq).1 _ hclean first (by decide) dump hmem
  rw [hbefore, hafter] at hkept
  exact absurd hkept.symm (Option.some_ne_none _)

end ConcurrentDump
