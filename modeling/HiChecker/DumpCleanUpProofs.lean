import HiChecker.DumpNamesProofs

/-!
# What the three clean-up routines remove

`deleteUnMatchDumpFile`, `deleteLastOldFile` and `deleteOldFile` list a directory, decide
on names and unlink. Which names go is said here without the loops; each routine is shown
to remove exactly these, and to change nothing else.

* **`Unmatched`** — a raw heap without its leak list.
* **`LastDump`** — the files of the base name made from the newest leak list.
* **`evictedNames`** — the names the retention loop reaches, without the files.
* **`cleanUp_unlinked`**, **`deleteOldFile_unlinked`** — the routines remove these names.
-/

namespace DumpCleanUp

open JsValue OrderedMapLib FileStore DumpFile DumpIdentity DumpNames

variable {Dir : Type} [DecidableEq Dir]

-- ── Unlinking quietly ─────────────────────────────────────────────────────────────

theorem unlinkQuietly_unlinked (dir : Dir) (name : String) (files : Files Dir) :
    Unlinked dir (fun n => n = name) (unlinkQuietly (dir, name) files) files := by
  show Unlinked dir _ ((if files.has (dir, name) = true then some (files.delete (dir, name))
    else none).getD files) files
  by_cases hp : files.has (dir, name) = true
  · rw [if_pos hp]
    exact unlinked_delete dir name files
  · rw [if_neg hp]
    refine ⟨?_, fun _ _ => rfl⟩
    rintro _ rfl
    exact (OrderedMap.has_eq_false_iff files _).mp (Bool.eq_false_iff.mpr hp)

/-- Names that end in different suffixes are different. -/
theorem suffix_ne {x y s s' : String} (hs : s ∈ dumpSuffixes) (hs' : s' ∈ dumpSuffixes)
    (hne : s ≠ s') : x ++ s ≠ y ++ s' :=
  fun h => hne (append_suffix_inj hs hs' h).2

-- ── Raw heaps without a leak list ─────────────────────────────────────────────────

/-- A raw heap file whose leak list is not there. -/
def Unmatched (dir : Dir) (files : Files Dir) (name : String) : Prop :=
  ∃ base, base ≠ "" ∧ name = base ++ ".rawheap" ∧ files.has (dir, name) = true
    ∧ files.has (dir, base ++ ".jsleaklist") = false

/-- The base of a name in `.rawheap` is what stands before it, unless that is empty. -/
theorem rawheapBase_append (base : String) :
    rawheapBase (base ++ ".rawheap") = if base = "" then none else some base := by
  have hlen : (base ++ ".rawheap").toList.length - ".rawheap".toList.length
      = base.toList.length := by
    rw [String.toList_append, List.length_append, Nat.add_sub_cancel]
  have htake : String.ofList ((base ++ ".rawheap").toList.take base.toList.length) = base := by
    rw [String.toList_append, List.take_left, String.ofList_toList]
  rw [rawheapBase]
  simp only [hlen, htake]
  have hempty : base.toList.length = 0 ↔ base = "" := by
    rw [List.length_eq_zero_iff]
    exact String.toList_eq_nil_iff
  simp only [hempty]

/-- A turn of the loop, on a raw heap with a base name. -/
theorem deleteUnMatched_append (dir : Dir) (files : Files Dir) {base : String}
    (hbase : base ≠ "") : deleteUnMatched dir files (base ++ ".rawheap")
      = if files.has (dir, base ++ ".jsleaklist") = true then files
        else unlinkQuietly (dir, base ++ ".rawheap") files := by
  rw [deleteUnMatched_of_some ((rawheapBase_append base).trans (if_neg hbase)), accessSync]
  cases files.has (dir, base ++ ".jsleaklist") with
  | true => rfl
  | false => rfl

/-- **One turn** removes its name exactly when it is an unmatched raw heap; whether it is
    one, the turns before it have not changed, for they removed no leak list. -/
theorem deleteUnMatched_unlinked {dir : Dir} {done : String → Prop} {files files₀ : Files Dir}
    (h : Unlinked dir done files files₀)
    (hdone : ∀ name, done name → ∃ base, name = base ++ ".rawheap") {name base : String}
    (hname : name = base ++ ".rawheap") (hhas : files₀.has (dir, name) = true) :
    Unlinked dir (fun n => done n ∨ n = name ∧ Unmatched dir files₀ n)
      (deleteUnMatched dir files name) files₀ := by
  have hlist : files.has (dir, base ++ ".jsleaklist")
      = files₀.has (dir, base ++ ".jsleaklist") := by
    refine h.has_iff ?_
    intro hgone
    obtain ⟨base', heq⟩ := hdone _ hgone
    exact suffix_ne mem_jsleaklist mem_rawheap (by decide) heq
  have hunmatched : Unmatched dir files₀ name
      ↔ base ≠ "" ∧ files₀.has (dir, base ++ ".jsleaklist") = false := by
    constructor
    · rintro ⟨base', hne, heq, -, hnone⟩
      obtain ⟨rfl, -⟩ := append_suffix_inj mem_rawheap mem_rawheap (hname.symm.trans heq)
      exact ⟨hne, hnone⟩
    · rintro ⟨hne, hnone⟩
      exact ⟨base, hne, hname, hhas, hnone⟩
  -- a turn that keeps its name
  have hskip : ¬ Unmatched dir files₀ name →
      Unlinked dir (fun n => done n ∨ n = name ∧ Unmatched dir files₀ n) files files₀ := by
    intro hnot
    refine h.congr (fun n => ⟨Or.inl, ?_⟩)
    rintro (hd | ⟨rfl, hun⟩)
    · exact hd
    · exact absurd hun hnot
  by_cases hbase : base = ""
  · rw [hname, deleteUnMatched_of_none ((rawheapBase_append base).trans (if_pos hbase)), ← hname]
    exact hskip (fun hun => (hunmatched.mp hun).1 hbase)
  · rw [hname, deleteUnMatched_append dir files hbase, hlist, ← hname]
    cases hcase : files₀.has (dir, base ++ ".jsleaklist") with
    | true =>
        rw [if_pos rfl]
        exact hskip (fun hun => Bool.false_ne_true ((hunmatched.mp hun).2.symm.trans hcase))
    | false =>
        rw [if_neg Bool.false_ne_true]
        refine (h.trans (unlinkQuietly_unlinked dir name files)).congr (fun n => ?_)
        refine or_congr_right ⟨?_, And.left⟩
        rintro rfl
        exact ⟨rfl, hunmatched.mpr ⟨hbase, hcase⟩⟩

/-- The loop, by induction on the names still ahead. -/
theorem foldl_deleteUnMatched_unlinked {dir : Dir} {files₀ : Files Dir} :
    ∀ (names : List String) {done : String → Prop} {files : Files Dir},
      Unlinked dir done files files₀ →
      (∀ name, done name → ∃ base, name = base ++ ".rawheap") →
      (∀ name ∈ names, files₀.has (dir, name) = true ∧ ∃ base, name = base ++ ".rawheap") →
      Unlinked dir (fun n => done n ∨ n ∈ names ∧ Unmatched dir files₀ n)
        (names.foldl (deleteUnMatched dir) files) files₀ := by
  intro names
  induction names with
  | nil =>
      intro done files h _ _
      refine h.congr (fun n => ⟨Or.inl, ?_⟩)
      rintro (hd | ⟨hmem, -⟩)
      · exact hd
      · exact absurd hmem List.not_mem_nil
  | cons name names ih =>
      intro done files h hdone hnames
      obtain ⟨hhas, base, hname⟩ := hnames name List.mem_cons_self
      have hturn := deleteUnMatched_unlinked h hdone hname hhas
      refine (ih hturn ?_ (fun n hn => hnames n (List.mem_cons_of_mem _ hn))).congr ?_
      · rintro n (hd | ⟨rfl, -⟩)
        · exact hdone n hd
        · exact ⟨base, hname⟩
      · intro n
        rw [List.mem_cons, or_and_right, or_assoc]

/-- **`deleteUnMatchDumpFile` removes the unmatched raw heaps**, in whatever order they
    are listed. -/
theorem deleteUnMatchDumpFile_unlinked (host : Host Dir) (out : Outside) (filePath : String)
    (files : Files Dir) :
    Unlinked (host.dirOf filePath) (Unmatched (host.dirOf filePath) files)
      (deleteUnMatchDumpFile host out filePath files) files := by
  have hnames : ∀ name ∈ listFileSync out.order (host.dirOf filePath) [".rawheap"] files,
      files.has (host.dirOf filePath, name) = true ∧ ∃ base, name = base ++ ".rawheap" := by
    intro name hmem
    obtain ⟨hhas, suffix, hs, hsuf⟩ := mem_listFileSync.mp hmem
    obtain rfl := List.mem_singleton.mp hs
    obtain ⟨base, hbase⟩ := hsuf
    refine ⟨hhas, String.ofList base, String.toList_inj.mp ?_⟩
    rw [String.toList_append, String.toList_ofList, hbase]
  refine (foldl_deleteUnMatched_unlinked _ (unlinked_false (host.dirOf filePath) files)
    (fun _ h => h.elim) hnames).congr ?_
  intro name
  constructor
  · rintro (hfalse | ⟨-, hun⟩)
    · exact hfalse.elim
    · exact hun
  · rintro ⟨base, hne, hname, hhas, hnone⟩
    refine Or.inr ⟨mem_listFileSync.mpr ⟨hhas, ".rawheap", List.mem_singleton_self _, ?_⟩,
      base, hne, hname, hhas, hnone⟩
    rw [hname, String.toList_append]
    exact List.suffix_append _ _

-- ── The last dump of the own process thread ───────────────────────────────────────

/-- The leak list that `deleteLastOldFile` looks at. -/
def newestList (host : Host Dir) (out : Outside) (filePath : String) (files : Files Dir) :
    Option String :=
  (sortNewestFirst (listFileSync out.order (host.dirOf filePath) [".jsleaklist"] files)).head?

/-- The base name it makes: the own prefix and the parsed timestamp, provided that the
    newest leak list starts with the own prefix. -/
def lastBase (host : Host Dir) (out : Outside) (filePath : String) (files : Files Dir) :
    Option String :=
  match newestList host out filePath files with
  | none => none
  | some newest =>
      if (getHeapPrefix host.process).toList.isPrefixOf newest.toList then
        some (getHeapPrefix host.process ++ (getTimestampByFileName newest).toStr)
      else none

/-- The heap file that goes with a base name: a raw heap, or else a snapshot. -/
def heapOf (dir : Dir) (files : Files Dir) (base : String) : String :=
  base ++ (if files.has (dir, base ++ ".rawheap") = true then ".rawheap" else ".heapsnapshot")

/-- The two files of the base name made from the newest leak list. -/
def LastDump (host : Host Dir) (out : Outside) (filePath : String) (files : Files Dir)
    (name : String) : Prop :=
  ∃ base, lastBase host out filePath files = some base
    ∧ (name = base ++ ".jsleaklist" ∨ name = heapOf (host.dirOf filePath) files base)

/-- When `deleteLastOldFile` makes a base name, it is from the newest leak list. -/
theorem lastBase_eq_some_iff {host : Host Dir} {out : Outside} {filePath : String}
    {files : Files Dir} {base : String} :
    lastBase host out filePath files = some base
      ↔ ∃ newest, newestList host out filePath files = some newest
        ∧ (getHeapPrefix host.process).toList.isPrefixOf newest.toList = true
        ∧ base = getHeapPrefix host.process ++ (getTimestampByFileName newest).toStr := by
  rw [lastBase]
  cases newestList host out filePath files with
  | none =>
      refine iff_of_false (fun h => Option.some_ne_none base h.symm) ?_
      rintro ⟨newest, hnewest, -⟩
      exact Option.some_ne_none newest hnewest.symm
  | some newest =>
      show (if _ then some _ else none) = some base ↔ _
      constructor
      · intro h
        by_cases hpre : (getHeapPrefix host.process).toList.isPrefixOf newest.toList = true
        · exact ⟨newest, rfl, hpre, (Option.some.inj ((if_pos hpre).symm.trans h)).symm⟩
        · exact absurd ((if_neg hpre).symm.trans h).symm (Option.some_ne_none _)
      · rintro ⟨newest', hnewest, hpre, rfl⟩
        obtain rfl := Option.some.inj hnewest
        exact if_pos hpre

/-- Once the base name is made, both files of it are unlinked. -/
theorem deleteLastOldFile_of_base {host : Host Dir} {out : Outside} {filePath : String}
    {files : Files Dir} {base : String} (h : lastBase host out filePath files = some base) :
    deleteLastOldFile host out filePath files
      = unlinkQuietly (host.dirOf filePath, heapOf (host.dirOf filePath) files base)
          (unlinkQuietly (host.dirOf filePath, base ++ ".jsleaklist") files) := by
  rw [lastBase, newestList] at h
  rw [deleteLastOldFile]
  simp only
  cases hsort : sortNewestFirst
      (listFileSync out.order (host.dirOf filePath) [".jsleaklist"] files) with
  | nil =>
      rw [hsort] at h
      exact absurd h.symm (Option.some_ne_none _)
  | cons newest older =>
      rw [hsort] at h
      simp only [List.head?_cons] at h ⊢
      by_cases hpre : (getHeapPrefix host.process).toList.isPrefixOf newest.toList = true
      · obtain rfl := Option.some.inj ((if_pos hpre).symm.trans h)
        rw [hpre]
        let base := getHeapPrefix host.process ++ (getTimestampByFileName newest).toStr
        have hne : base ++ ".rawheap" ≠ base ++ ".jsleaklist" :=
          suffix_ne mem_rawheap mem_jsleaklist (by decide)
        have hhas := (unlinkQuietly_unlinked (host.dirOf filePath) (base ++ ".jsleaklist")
          files).has_iff hne
        show (if accessSync (host.dirOf filePath, base ++ ".rawheap") _ = true then _ else _) = _
        rw [heapOf, accessSync, hhas]
        split
        · rfl
        · rfl
      · exact absurd ((if_neg hpre).symm.trans h).symm (Option.some_ne_none _)

theorem deleteLastOldFile_of_none {host : Host Dir} {out : Outside} {filePath : String}
    {files : Files Dir} (h : lastBase host out filePath files = none) :
    deleteLastOldFile host out filePath files = files := by
  rw [lastBase, newestList] at h
  rw [deleteLastOldFile]
  simp only
  cases hsort : sortNewestFirst
      (listFileSync out.order (host.dirOf filePath) [".jsleaklist"] files) with
  | nil => rfl
  | cons newest older =>
      rw [hsort] at h
      simp only [List.head?_cons] at h ⊢
      by_cases hpre : (getHeapPrefix host.process).toList.isPrefixOf newest.toList = true
      · exact absurd ((if_pos hpre).symm.trans h) (Option.some_ne_none _)
      · rw [Bool.not_eq_true _ |>.mp hpre]
        rfl

/-- **`deleteLastOldFile` removes the files of that base name**, and no others. -/
theorem deleteLastOldFile_unlinked (host : Host Dir) (out : Outside) (filePath : String)
    (files : Files Dir) :
    Unlinked (host.dirOf filePath) (LastDump host out filePath files)
      (deleteLastOldFile host out filePath files) files := by
  cases hbase : lastBase host out filePath files with
  | none =>
      rw [deleteLastOldFile_of_none hbase]
      refine (unlinked_false _ files).congr (fun name => ⟨False.elim, ?_⟩)
      rintro ⟨base, hsome, -⟩
      exact Option.some_ne_none base (hsome.symm.trans hbase)
  | some base =>
      rw [deleteLastOldFile_of_base hbase]
      refine ((unlinkQuietly_unlinked _ _ files).trans
        (unlinkQuietly_unlinked _ _ _)).congr (fun name => ?_)
      constructor
      · exact fun h => ⟨base, hbase, h⟩
      · rintro ⟨base', hsome, h⟩
        obtain rfl := Option.some.inj (hbase.symm.trans hsome)
        exact h

/-- What it removes starts with the own prefix. -/
theorem LastDump.own {host : Host Dir} {out : Outside} {filePath : String} {files : Files Dir}
    {name : String} (h : LastDump host out filePath files name) :
    ∃ rest, name = getHeapPrefix host.process ++ rest := by
  obtain ⟨base, hbase, hname⟩ := h
  obtain ⟨newest, -, -, rfl⟩ := lastBase_eq_some_iff.mp hbase
  rcases hname with rfl | rfl
  · exact ⟨_, String.append_assoc⟩
  · exact ⟨_, String.append_assoc⟩

/-- **The later clean-ups of a party remove nothing that bears another party's name.** -/
theorem not_lastDump (host : Host Dir) {q : Process} (hne : q ≠ host.process) (out : Outside)
    (filePath : String) (files : Files Dir) (time : Nat) (suffix : String) :
    ¬ LastDump host out filePath files (fileName q time suffix) := by
  intro h
  obtain ⟨rest, hrest⟩ := h.own
  rw [fileName, String.append_assoc] at hrest
  exact hne (getHeapPrefix_inj hrest).1

-- ── The clean-up before a dump ────────────────────────────────────────────────────

/-- What the clean-up before a dump removes: the first one the unmatched raw heaps, the
    later ones the last dump. -/
def Cleared (host : Host Dir) (out : Outside) (filePath : String) (d : DumpState Dir)
    (name : String) : Prop :=
  if d.firstDump then Unmatched (host.dirOf filePath) d.files name
  else LastDump host out filePath d.files name

theorem cleanUp_unlinked (host : Host Dir) (out : Outside) (filePath : String)
    (d : DumpState Dir) :
    Unlinked (host.dirOf filePath) (Cleared host out filePath d)
      (cleanUp host out filePath d).files d.files := by
  rw [cleanUp]
  by_cases hfirst : d.firstDump = true
  · rw [if_pos hfirst]
    refine (deleteUnMatchDumpFile_unlinked host out filePath d.files).congr (fun name => ?_)
    rw [Cleared, if_pos hfirst]
  · rw [if_neg hfirst]
    refine (deleteLastOldFile_unlinked host out filePath d.files).congr (fun name => ?_)
    rw [Cleared, if_neg hfirst]

-- ── Retention ─────────────────────────────────────────────────────────────────────

/-- The names the loop of `deleteOldFile` unlinks from position `i` on: a name, and the
    name after it when that contains its timestamp. -/
def evictedNames (limit : JsNum) : Nat → List String → List String
  | _, [] => []
  | i, [file] => if (JsNum.ofNat i).lt limit then [file] else []
  | i, file :: next :: rest =>
      if (JsNum.ofNat i).lt limit then
        if (getTimestampByFileName file).toStr.toList <:+: next.toList then
          file :: next :: evictedNames limit (i + 2) rest
        else file :: evictedNames limit (i + 1) (next :: rest)
      else []

/-- Unlinking a file that is there. -/
theorem unlinkSync_of_has {p : Path Dir} {files : Files Dir} (h : files.has p = true) :
    unlinkSync p files = some (files.delete p) := if_pos h

/-- A file that is there stays when another one goes. -/
theorem has_delete_of_ne {dir : Dir} {name other : String} {files : Files Dir}
    (hne : other ≠ name) (h : files.has (dir, other) = true) :
    (files.delete (dir, name)).has (dir, other) = true := by
  rw [(unlinked_delete dir name files).has_iff hne]
  exact h

/-- **The loop of `deleteOldFile`** over names that are there, each once. -/
theorem evictFrom_unlinked (dir : Dir) (limit : JsNum) (i : Nat) (names : List String)
    (files : Files Dir) (hnodup : names.Nodup)
    (hthere : ∀ name ∈ names, files.has (dir, name) = true) :
    Unlinked dir (fun name => name ∈ evictedNames limit i names)
      (evictFrom dir limit i names files).1 files := by
  have hnone : ∀ files : Files Dir, Unlinked dir (fun name => name ∈ ([] : List String))
      files files := fun files =>
    (unlinked_false dir files).congr (fun _ => ⟨False.elim, fun h => absurd h List.not_mem_nil⟩)
  fun_induction evictedNames limit i names generalizing files with
  | case1 i => exact hnone files
  | case2 i file hi =>
      rw [evictFrom, if_pos hi, unlinkSync_of_has (hthere file List.mem_cons_self)]
      exact (unlinked_delete dir file files).congr (fun n => List.mem_singleton.symm)
  | case3 i file hi =>
      rw [evictFrom, if_neg hi]
      exact hnone files
  | case4 i file next rest hi hpair ih =>
      -- the two files of a pair go in one turn
      obtain ⟨hfile, hrest⟩ := List.nodup_cons.mp hnodup
      obtain ⟨hnext, hnodup'⟩ := List.nodup_cons.mp hrest
      have hne : next ≠ file := fun h => hfile (h ▸ List.mem_cons_self)
      have hthere' : ∀ name ∈ rest,
          ((files.delete (dir, file)).delete (dir, next)).has (dir, name) = true := by
        intro name hmem
        have hmem' := List.mem_cons_of_mem next hmem
        refine has_delete_of_ne (fun h => hnext (h ▸ hmem)) ?_
        exact has_delete_of_ne (fun h => hfile (h ▸ hmem'))
          (hthere name (List.mem_cons_of_mem file hmem'))
      rw [evictFrom, if_pos hi, unlinkSync_of_has (hthere file List.mem_cons_self)]
      simp only
      rw [if_pos hpair, unlinkSync_of_has (has_delete_of_ne hne
        (hthere next (List.mem_cons_of_mem _ List.mem_cons_self)))]
      refine (((unlinked_delete dir file files).trans (unlinked_delete dir next _)).trans
        (ih _ hnodup' hthere')).congr (fun n => ?_)
      rw [List.mem_cons, List.mem_cons, or_assoc]
  | case5 i file next rest hi hpair ih =>
      obtain ⟨hfile, hrest⟩ := List.nodup_cons.mp hnodup
      have hthere' : ∀ name ∈ next :: rest,
          (files.delete (dir, file)).has (dir, name) = true := fun name hmem =>
        has_delete_of_ne (fun h => hfile (h ▸ hmem))
          (hthere name (List.mem_cons_of_mem file hmem))
      rw [evictFrom, if_pos hi, unlinkSync_of_has (hthere file List.mem_cons_self)]
      simp only
      rw [if_neg hpair]
      refine ((unlinked_delete dir file files).trans (ih _ hrest hthere')).congr (fun n => ?_)
      rw [List.mem_cons]
  | case6 i file next rest hi =>
      rw [evictFrom, if_neg hi]
      exact hnone files

/-- The names `deleteOldFile` removes: over the limit, those its loop reaches. -/
def Evicted (host : Host Dir) (out : Outside) (filePath : String) (maxFileNum : JsNum)
    (files : Files Dir) (name : String) : Prop :=
  let names := listFileSync out.order (host.dirOf filePath) dumpSuffixes files
  maxFileNum.lt (JsNum.ofNat names.length) = true
    ∧ name ∈ evictedNames ((JsNum.ofNat names.length).sub maxFileNum) 0 (sortOldestFirst names)

/-- **`deleteOldFile` removes these names**, and nothing else. -/
theorem deleteOldFile_unlinked (host : Host Dir) (out : Outside) (filePath : String)
    (maxFileNum : JsNum) (files : Files Dir) :
    Unlinked (host.dirOf filePath) (Evicted host out filePath maxFileNum files)
      (deleteOldFile host out filePath maxFileNum files).1 files := by
  let names := listFileSync out.order (host.dirOf filePath) dumpSuffixes files
  have hperm : (sortOldestFirst names).Perm names := List.perm_insertionSort _ names
  by_cases hcount : maxFileNum.lt (JsNum.ofNat names.length) = true
  · have hrun : (deleteOldFile host out filePath maxFileNum files).1
        = (evictFrom (host.dirOf filePath) ((JsNum.ofNat names.length).sub maxFileNum) 0
            (sortOldestFirst names) files).1 := congrArg Prod.fst (if_pos hcount)
    rw [hrun]
    refine (evictFrom_unlinked _ _ 0 _ files
      (hperm.nodup_iff.mpr (nodup_listFileSync _ _ _ files)) ?_).congr (fun name => ?_)
    · intro name hmem
      exact (mem_listFileSync.mp (hperm.mem_iff.mp hmem)).1
    · exact (and_iff_right hcount).symm
  · have hrun : (deleteOldFile host out filePath maxFileNum files).1 = files :=
      congrArg Prod.fst (if_neg hcount)
    rw [hrun]
    refine (unlinked_false _ files).congr (fun name => ⟨False.elim, ?_⟩)
    exact fun h => hcount h.1

end DumpCleanUp
