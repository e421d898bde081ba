import HiChecker.DumpPartiesProofs
import HiChecker.RetentionProofs

/-!
# Files that are not the watcher's

The directory of the dumps belongs to the application. `deleteLastOldFile` compares names
with its own prefix before it unlinks; `deleteUnMatchDumpFile` and `deleteOldFile` go by
the suffix alone.

* **`Spares`** — every file whose name has not the watcher's form is what it was.
* **`spares_deleteUnMatchDumpFile_iff`**, **`spares_deleteLastOldFile_iff`**,
  **`spares_deleteOldFile_iff`** — when each routine spares them, on any directory.
* **`SparesForeign`** — the condition on the state before a step.
* **`foreign_files_survive`** — in runs that meet it, whatever the parties and the
  application do in between, no clean-up takes a file that is not the watcher's.
-/

namespace ForeignFiles

open Transition JsValue OrderedMapLib FileStore DumpFile DumpIdentity DumpNames DumpCleanUp
open DumpParties

variable {Dir : Type} [DecidableEq Dir]

/-- The files that are not the watcher's are what they were. -/
def Spares (files' files : Files Dir) : Prop :=
  ∀ dir name, ¬ WatcherName name → files'.get (dir, name) = files.get (dir, name)

-- ── Each routine ──────────────────────────────────────────────────────────────────

/-- A removal spares them when none of the names that go is there. -/
theorem spares_iff_of_unlinked {dir : Dir} {gone : String → Prop} {files' files : Files Dir}
    (h : Unlinked dir gone files' files) :
    Spares files' files
      ↔ ∀ name, ¬ WatcherName name → gone name → files.has (dir, name) = false := by
  constructor
  · intro hspares name hname
    exact (h.kept_iff name).mp (hspares dir name hname)
  · intro hnone dir' name hname
    by_cases hdir : dir' = dir
    · rw [hdir]
      exact (h.kept_iff name).mpr (hnone name hname)
    · exact h.kept (dir', name) (fun hgone => hdir hgone.1)

/-- Every raw heap of another owner, if there is a name before the suffix, has a leak list
    beside it. -/
def ForeignMatched (dir : Dir) (files : Files Dir) : Prop :=
  ∀ base, base ≠ "" → ¬ WatcherName (base ++ ".rawheap") →
    files.has (dir, base ++ ".rawheap") = true → files.has (dir, base ++ ".jsleaklist") = true

theorem spares_deleteUnMatchDumpFile_iff (host : Host Dir) (out : Outside) (filePath : String)
    (files : Files Dir) :
    Spares (deleteUnMatchDumpFile host out filePath files) files
      ↔ ForeignMatched (host.dirOf filePath) files := by
  rw [spares_iff_of_unlinked (deleteUnMatchDumpFile_unlinked host out filePath files)]
  constructor
  · intro hnone base hbase hname hhas
    by_contra hlist
    rw [Bool.not_eq_true] at hlist
    have hgone := hnone _ hname ⟨base, hbase, rfl, hhas, hlist⟩
    exact Bool.false_ne_true (hgone.symm.trans hhas)
  · rintro hmatched name hname ⟨base, hbase, rfl, hhas, hlist⟩
    have hlist' := hmatched base hbase hname hhas
    exact absurd (hlist.symm.trans hlist') Bool.false_ne_true

/-- The newest leak list, if it starts with the own prefix, has a timestamp below 10²¹, or
    no file bears the base name made from it. -/
def LastPlain (host : Host Dir) (out : Outside) (filePath : String) (files : Files Dir) : Prop :=
  ∀ newest, newestList host out filePath files = some newest →
    (getHeapPrefix host.process).toList.isPrefixOf newest.toList = true →
    Plain (getTimestampByFileName newest) ∨ ∀ suffix ∈ dumpSuffixes, files.has
      (host.dirOf filePath,
        getHeapPrefix host.process ++ (getTimestampByFileName newest).toStr ++ suffix) = false

/-- The heap file that goes is there when either kind is. -/
theorem has_heapOf_eq_false_iff (dir : Dir) (files : Files Dir) (base : String) :
    files.has (dir, heapOf dir files base) = false
      ↔ files.has (dir, base ++ ".rawheap") = false
        ∧ files.has (dir, base ++ ".heapsnapshot") = false := by
  rw [heapOf]
  cases hraw : files.has (dir, base ++ ".rawheap") with
  | true =>
      rw [if_pos rfl, hraw]
      exact iff_of_false (fun h => Bool.false_ne_true h.symm)
        (fun h => Bool.false_ne_true h.1.symm)
  | false =>
      rw [if_neg Bool.false_ne_true]
      exact (and_iff_right rfl).symm

theorem spares_deleteLastOldFile_iff (host : Host Dir) (out : Outside) (filePath : String)
    (files : Files Dir) :
    Spares (deleteLastOldFile host out filePath files) files
      ↔ LastPlain host out filePath files := by
  rw [spares_iff_of_unlinked (deleteLastOldFile_unlinked host out filePath files)]
  constructor
  · intro hnone newest hnewest hpre
    refine or_iff_not_imp_left.mpr (fun hplain => ?_)
    let base := getHeapPrefix host.process ++ (getTimestampByFileName newest).toStr
    have hbase : lastBase host out filePath files = some base :=
      lastBase_eq_some_iff.mpr ⟨newest, hnewest, hpre, rfl⟩
    -- no name of this base has the form, for its timestamp is not a numeral
    have hforeign : ∀ suffix ∈ dumpSuffixes, ¬ WatcherName (base ++ suffix) :=
      fun suffix hs hname => hplain ((toStr_plain_iff newest).mp
        ((watcherName_prefix_iff host.process _ hs).mp hname))
    have hlist := hnone _ (hforeign _ mem_jsleaklist) ⟨base, hbase, Or.inl rfl⟩
    have hheapName : ¬ WatcherName (heapOf (host.dirOf filePath) files base) := by
      rw [heapOf]
      split
      · exact hforeign _ mem_rawheap
      · exact hforeign _ mem_heapsnapshot
    obtain ⟨hraw, hsnapshot⟩ := (has_heapOf_eq_false_iff _ files base).mp
      (hnone _ hheapName ⟨base, hbase, Or.inr rfl⟩)
    intro suffix hs
    rcases List.mem_cons.mp hs with rfl | hs
    · exact hsnapshot
    · rcases List.mem_cons.mp hs with rfl | hs
      · exact hlist
      · obtain rfl := List.mem_singleton.mp hs
        exact hraw
  · rintro hlast name hname ⟨base, hbase, hgone⟩
    obtain ⟨newest, hnewest, hpre, rfl⟩ := lastBase_eq_some_iff.mp hbase
    rcases hlast newest hnewest hpre with hplain | hnone
    · have hform : ∀ suffix ∈ dumpSuffixes, WatcherName
          (getHeapPrefix host.process ++ (getTimestampByFileName newest).toStr ++ suffix) :=
        fun suffix hs => (watcherName_prefix_iff host.process _ hs).mpr
          ((toStr_plain_iff newest).mpr hplain)
      rcases hgone with rfl | rfl
      · exact absurd (hform _ mem_jsleaklist) hname
      · rw [heapOf] at hname
        split at hname
        · exact absurd (hform _ mem_rawheap) hname
        · exact absurd (hform _ mem_heapsnapshot) hname
    · rcases hgone with rfl | rfl
      · exact hnone _ mem_jsleaklist
      · exact (has_heapOf_eq_false_iff _ files _).mpr
          ⟨hnone _ mem_rawheap, hnone _ mem_heapsnapshot⟩

/-- Over the limit, the oldest names that `deleteOldFile` lists are the watcher's: as many as
    are too many, and one more when the run of paired neighbours before the cut is odd. -/
def OldestOwn (host : Host Dir) (out : Outside) (filePath : String) (maxFileNum : JsNum)
    (files : Files Dir) : Prop :=
  let names := Retention.matching host out filePath files
  maxFileNum.lt (JsNum.ofNat names.length) = true →
    ∀ name ∈ (sortOldestFirst names).take (Retention.goneCount maxFileNum names),
      WatcherName name

/-- The names that go are those in front. -/
theorem evicted_iff (host : Host Dir) (out : Outside) (filePath : String) (maxFileNum : JsNum)
    (files : Files Dir) (name : String) :
    let names := Retention.matching host out filePath files
    Evicted host out filePath maxFileNum files name
      ↔ maxFileNum.lt (JsNum.ofNat names.length) = true
        ∧ name ∈ (sortOldestFirst names).take (Retention.goneCount maxFileNum names) := by
  refine and_congr_right (fun hover => ?_)
  rw [Retention.matching, ← Retention.evictedNames_eq_take hover]

theorem spares_deleteOldFile_iff (host : Host Dir) (out : Outside) (filePath : String)
    (maxFileNum : JsNum) (files : Files Dir) :
    Spares (deleteOldFile host out filePath maxFileNum files).1 files
      ↔ OldestOwn host out filePath maxFileNum files := by
  rw [spares_iff_of_unlinked (deleteOldFile_unlinked host out filePath maxFileNum files)]
  constructor
  · intro hnone hover name htaken
    by_contra hname
    -- only names that were listed go
    have hlisted := (Retention.sortOldestFirst_perm _).mem_iff.mp (List.mem_of_mem_take htaken)
    have hhas := Retention.has_of_mem_matching host out filePath files hlisted
    have hgone := (evicted_iff host out filePath maxFileNum files name).mpr ⟨hover, htaken⟩
    exact Bool.false_ne_true ((hnone name hname hgone).symm.trans hhas)
  · intro hown name hname hgone
    obtain ⟨hover, htaken⟩ := (evicted_iff host out filePath maxFileNum files name).mp hgone
    exact absurd (hown hover name htaken) hname

-- ── Runs ──────────────────────────────────────────────────────────────────────────

variable (host : Host Dir)

/-- The files before and after a step. -/
structure Change (Dir : Type) where
  before : Files Dir
  after : Files Dir

/-- What a step of a party does to the files; the application may do what it likes with
    its own. -/
def changeOf (s : Parties Dir) : Input Dir → List (Change Dir)
  | .application _ _ => []
  | a =>
      match step host s a with
      | none => []
      | some (s', _) => [⟨s.files, s'.files⟩]

/-- The parties, with what their steps did to the files as the trace. -/
def history (files : Files Dir) (load : Process → DumpState Dir) :
    Machine (Parties Dir) (Input Dir) (Change Dir) :=
  (parties host files load).observing (changeOf host)

/-- The clean-up that a step makes finds no file of another owner among those it takes: a
    first one no raw heap without a leak list, a later one no unprintable timestamp, and
    the retention none among the oldest that are too many. -/
def SparesForeign (s : Parties Dir) (a : Input Dir) : Prop :=
  (∀ c, cleaning s a = some c →
    if (s.party c.process).dump.firstDump then ForeignMatched (host.dirOf c.filePath) s.files
    else LastPlain (hostOf host c.process) c.out c.filePath s.files)
  ∧ ∀ c, retaining s a = some c →
    OldestOwn (hostOf host c.process) c.out c.filePath c.maxFileNum s.files

variable {host}

/-- The clean-up before a dump, first or later. -/
theorem spares_cleanUp_iff (host : Host Dir) (out : Outside) (filePath : String)
    (d : DumpState Dir) :
    Spares (cleanUp host out filePath d).files d.files
      ↔ if d.firstDump then ForeignMatched (host.dirOf filePath) d.files
        else LastPlain host out filePath d.files := by
  rw [cleanUp]
  by_cases hfirst : d.firstDump = true
  · rw [if_pos hfirst, if_pos hfirst]
    exact spares_deleteUnMatchDumpFile_iff host out filePath d.files
  · rw [if_neg hfirst, if_neg hfirst]
    exact spares_deleteLastOldFile_iff host out filePath d.files

/-- **The step lemma**: a step of a party spares the files of others exactly under the
    condition. -/
theorem spares_step_iff {s s' : Parties Dir} {a : Input Dir} {es : List Event}
    (hstamped : Stamped s) (hs : step host s a = some (s', es))
    (hparty : ∀ path bytes, a ≠ .application path bytes) :
    Spares s'.files s.files ↔ SparesForeign host s a := by
  rcases step_files hs with
    ⟨c, hc, hfiles⟩ | ⟨c, hc, hfiles, -⟩ | ⟨hclean, hretain, hsame⟩
  · have hretain := retaining_of_cleaning hc
    rw [hfiles]
    refine (spares_cleanUp_iff (hostOf host c.process) c.out c.filePath
      (s.view c.process)).trans ?_
    constructor
    · intro h
      refine ⟨?_, ?_⟩
      · intro c' hc'
        obtain rfl := Option.some.inj (hc.symm.trans hc')
        exact h
      · intro c' hc'
        exact absurd (hretain.symm.trans hc').symm (Option.some_ne_none c')
    · exact fun h => h.1 c hc
  · have hclean : cleaning s a = none := by
      cases hcase : cleaning s a with
      | none => rfl
      | some c' =>
          exact absurd ((retaining_of_cleaning hcase).symm.trans hc).symm (Option.some_ne_none c)
    rw [hfiles, spares_deleteOldFile_iff]
    constructor
    · intro h
      refine ⟨?_, ?_⟩
      · intro c' hc'
        exact absurd (hclean.symm.trans hc').symm (Option.some_ne_none c')
      · intro c' hc'
        obtain rfl := Option.some.inj (hc.symm.trans hc')
        exact h
    · exact fun h => h.2 c hc
  · -- the other steps write under the watcher's names only
    refine iff_of_true ?_ ⟨?_, ?_⟩
    · intro dir name hname
      refine hsame (dir, name) (fun htouched => hname ?_)
      cases a with
      | application path bytes => exact absurd rfl (hparty path bytes)
      | _ => exact OwnName.watcherName hstamped htouched
    · intro c hc
      exact absurd (hclean.symm.trans hc).symm (Option.some_ne_none c)
    · intro c hc
      exact absurd (hretain.symm.trans hc).symm (Option.some_ne_none c)

/-- What is observed of an enabled step. -/
theorem spares_changeOf_iff {s s' : Parties Dir} {a : Input Dir} {es : List Event}
    (hstamped : Stamped s) (hs : step host s a = some (s', es)) :
    (∀ c ∈ changeOf host s a, Spares c.after c.before) ↔ SparesForeign host s a := by
  by_cases hparty : ∀ path bytes, a ≠ .application path bytes
  · have hchange : changeOf host s a = [⟨s.files, s'.files⟩] := by
      cases a with
      | application path bytes => exact absurd rfl (hparty path bytes)
      | _ =>
          rw [changeOf, hs]
          exact fun path bytes h => nomatch h
    rw [hchange, ← spares_step_iff hstamped hs hparty]
    exact List.forall_mem_singleton
  · obtain ⟨path, hparty⟩ := not_forall.mp hparty
    obtain ⟨bytes, ha⟩ := not_forall.mp hparty
    obtain rfl := not_not.mp ha
    refine iff_of_true (fun c hc => absurd hc List.not_mem_nil) ⟨?_, ?_⟩
    · intro c hc
      exact absurd hc.symm (Option.some_ne_none c)
    · intro c hc
      exact absurd hc.symm (Option.some_ne_none c)

/-- **No clean-up takes a file that is not the watcher's**, in every run of any number of
    parties over any files whose steps meet the condition; and the next step of such a run
    takes none exactly when it meets the condition too. -/
theorem foreign_files_survive {files : Files Dir} {load : Process → DumpState Dir}
    {s : Parties Dir} {tr : List (Change Dir)}
    (hr : Run (history host files load) (SparesForeign host) s tr) :
    (∀ c ∈ tr, Spares c.after c.before) ∧
    ∀ (a : Input Dir) (s' : Parties Dir) (es : List Event), step host s a = some (s', es) →
      ((∀ c ∈ changeOf host s a, Spares c.after c.before) ↔ SparesForeign host s a) := by
  have hI : Stamped s ∧ ∀ c ∈ tr, Spares c.after c.before := by
    refine Run.invariant (I := fun s tr => Stamped s ∧ ∀ c ∈ tr, Spares c.after c.before)
      ⟨fun p hp => absurd rfl hp, fun c hc => absurd hc List.not_mem_nil⟩ ?_ hr
    intro s tr a s' es hI hG hs
    obtain ⟨⟨es', hstep⟩, rfl⟩ := Machine.observing_step hs
    refine ⟨step_stamped hI.1 hstep, ?_⟩
    intro c hc
    rcases List.mem_append.mp hc with hold | hnew
    · exact hI.2 c hold
    · exact (spares_changeOf_iff hI.1 hstep).mpr hG c hnew
  exact ⟨hI.2, fun a s' es hs => spares_changeOf_iff hI.1 hs⟩

/-- A raw heap of the application's, without and with a leak list beside it. -/
def traceHeap : Files String := OrderedMap.empty.set ("jsleak", "trace.rawheap") [1]

def traceDump : Files String := traceHeap.set ("jsleak", "trace.jsleaklist") [2]

/-- A first dump finds the application's raw heap with a leak list beside it. -/
theorem foreign_files_survive_matched :
    ∃ (tr : List (Change String)), (∃ c ∈ tr, c.before.has ("jsleak", "trace.rawheap") = true)
      ∧ ∀ c ∈ tr, Spares c.after c.before := by
  let a : Input String := .dumpInner ⟨100, 101⟩ "jsleak" openSession (outsideAt 1)
  obtain ⟨s', hs⟩ : ∃ s', (history plainHost traceDump (fun _ => noFiles)).step
      (history plainHost traceDump (fun _ => noFiles)).init a
        = some (s', [⟨traceDump, s'.files⟩]) := ⟨_, rfl⟩
  have hmatched : ForeignMatched "jsleak" traceDump := by
    intro base _ _ hhas
    have hkey : ("jsleak", base ++ ".rawheap") ∈ traceDump.keys :=
      (OrderedMap.mem_keys_iff _ _).mpr hhas
    have hkeys : traceDump.keys
        = [("jsleak", "trace" ++ ".rawheap"), ("jsleak", "trace" ++ ".jsleaklist")] := by
      decide +kernel
    rw [hkeys, List.mem_cons, List.mem_singleton] at hkey
    rcases hkey with hkey | hkey
    · obtain ⟨rfl, -⟩ := append_suffix_inj mem_rawheap mem_rawheap (Prod.mk.inj hkey).2
      decide +kernel
    · exact absurd (Prod.mk.inj hkey).2 (suffix_ne mem_rawheap mem_jsleaklist (by decide))
  have hG : SparesForeign plainHost (history plainHost traceDump (fun _ => noFiles)).init a := by
    refine ⟨?_, fun c hc => absurd hc.symm (Option.some_ne_none c)⟩
    intro c hc
    obtain rfl := Option.some.inj hc
    exact hmatched
  have hthere : traceDump.has ("jsleak", "trace.rawheap") = true := by decide +kernel
  refine ⟨[] ++ [⟨traceDump, s'.files⟩], ⟨_, List.mem_singleton_self _, hthere⟩, ?_⟩
  exact (foreign_files_survive (Run.next Run.start hG hs)).1

/-- A first dump unlinks the application's raw heap, which has no leak list. -/
theorem foreign_raw_heap_removed :
    ¬ ∀ (Dir : Type) (_ : DecidableEq Dir) (host : Host Dir) (files : Files Dir)
        (load : Process → DumpState Dir) (s : Parties Dir) (tr : List (Change Dir)),
        Run (history host files load) anyStep s tr → ∀ c ∈ tr, Spares c.after c.before := by
  intro h
  obtain ⟨p, hp⟩ : ∃ p, exec (history plainHost traceHeap (fun _ => noFiles)) anyStep
      [.dumpInner ⟨100, 101⟩ "jsleak" openSession (outsideAt 1)] = some p := ⟨_, rfl⟩
  obtain ⟨c, hc, hbefore, hafter⟩ : ∃ c ∈ p.2,
      c.before.get ("jsleak", "trace.rawheap") = some [1]
        ∧ c.after.get ("jsleak", "trace.rawheap") = none := by
    obtain rfl := Option.some.inj hp
    exact ⟨_, List.mem_singleton_self _, by decide +kernel, by decide +kernel⟩
  have hname : ¬ WatcherName "trace.rawheap" := by decide +kernel
  have hkept := h String inferInstance plainHost traceHeap (fun _ => noFiles) p.1 p.2
    (run_of_exec hp) c hc "jsleak" "trace.rawheap" hname
  rw [hbefore, hafter] at hkept
  exact absurd hkept.symm (Option.some_ne_none _)

end ForeignFiles
