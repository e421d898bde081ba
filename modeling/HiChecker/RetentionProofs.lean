import HiChecker.PairWalkProofs
import HiChecker.DumpCleanUpProofs

/-!
# Retention: which files `deleteOldFile` keeps

Over its limit `deleteOldFile` sorts the dump files of a directory by the timestamps in
their names and unlinks from the oldest on. A file whose successor's name contains its
timestamp takes the successor along, so the loop stops at the limit or one file later.

* **`cut`** — where it stops, read off the sorted names.
* **`deleteOldFile_spec`** — the loop returns, and has unlinked the files before the cut,
  one after another.
* **`retention_bound`** — how many files are left, and that none is older than one that
  went.
* **`split_stamp`** — a dump is only split inside a group of equal timestamps.
* **`never_splits_iff`** — every complete dump is kept or deleted as a whole exactly when
  none has one of its files on either side of the cut.
-/

namespace Retention

open JsValue OrderedMapLib WatcherConfig FileStore DumpFile DumpIdentity DumpNames DumpCleanUp
open PairWalk

-- ── The order of the names ────────────────────────────────────────────────────────

/-- The timestamp in a name, where a numeral beyond all doubles is infinite. -/
def stampOf (name : String) : WithTop Nat :=
  match getTimestampByFileName name with
  | .fin q => (q.num.toNat : Nat)
  | _ => ⊤

/-- The comparison of timestamps is that of a linear order. -/
theorem older_iff (a b : String) :
    (getTimestampByFileName a).lt (getTimestampByFileName b) = true ↔ stampOf a < stampOf b := by
  have hnum : ∀ m : Nat, ((m : Rat).num.toNat : Nat) = m := by
    intro m
    rw [Rat.num_natCast, Int.toNat_natCast]
  rcases getTimestampByFileName_cases a with ⟨m, ha⟩ | ha
  · rcases getTimestampByFileName_cases b with ⟨n, hb⟩ | hb
    · simp only [stampOf, ha, hb, JsNum.ofNat, hnum]
      rw [Nat.cast_lt]
      exact JsNum.lt_ofNat m n
    · simp only [stampOf, ha, hb, JsNum.ofNat, hnum]
      exact iff_of_true rfl (WithTop.coe_lt_top m)
  · simp only [stampOf, ha]
    refine iff_of_false ?_ not_top_lt
    rcases getTimestampByFileName_cases b with ⟨n, hb⟩ | hb
    · rw [hb]
      exact Bool.false_ne_true
    · rw [hb]
      exact Bool.false_ne_true

/-- One name may stand before another in the sorted list. -/
def NotNewer (a b : String) : Prop :=
  (getTimestampByFileName b).lt (getTimestampByFileName a) = false

theorem notNewer_iff (a b : String) : NotNewer a b ↔ stampOf a ≤ stampOf b := by
  rw [NotNewer, ← Bool.not_eq_true, older_iff, not_lt]

/-- **The sort sorts.** -/
theorem sortOldestFirst_pairwise (names : List String) :
    (sortOldestFirst names).Pairwise NotNewer := by
  let r : String → String → Prop := fun a b =>
    (getTimestampByFileName b).lt (getTimestampByFileName a) = false
  have htotal : Std.Total r := ⟨fun a b => by
    show NotNewer a b ∨ NotNewer b a
    rw [notNewer_iff, notNewer_iff]
    exact le_total _ _⟩
  have htrans : IsTrans String r := ⟨fun a b c hab hbc => by
    have hab' : NotNewer a b := hab
    have hbc' : NotNewer b c := hbc
    show NotNewer a c
    rw [notNewer_iff] at hab' hbc' ⊢
    exact hab'.trans hbc'⟩
  exact List.pairwise_insertionSort r names

/-- Sorting loses no name. -/
theorem sortOldestFirst_perm (names : List String) : (sortOldestFirst names).Perm names :=
  List.perm_insertionSort _ names

theorem length_sortOldestFirst (names : List String) :
    (sortOldestFirst names).length = names.length := (sortOldestFirst_perm names).length_eq

-- ── Where the loop stops ──────────────────────────────────────────────────────────

/-- The name of the next file contains the timestamp of this one. -/
def pairs (file next : String) : Bool :=
  decide ((getTimestampByFileName file).toStr.toList <:+: next.toList)

/-- The number of files before the cut: the excess, and one more when the unbroken run of
    paired neighbours right before it is odd. -/
def cut (maxFileNum : Nat) (names : List String) : Nat :=
  let excess := names.length - maxFileNum
  excess + trailing ((flags pairs (sortOldestFirst names)).take excess) % 2

/-- An odd excess is rounded up. -/
theorem cut_cases (maxFileNum : Nat) (names : List String) :
    cut maxFileNum names = names.length - maxFileNum
      ∨ cut maxFileNum names = names.length - maxFileNum + 1 := by
  have hparity := Nat.mod_two_eq_zero_or_one
    (trailing ((flags pairs (sortOldestFirst names)).take (names.length - maxFileNum)))
  simp only [cut]
  omega

/-- The names the loop unlinks are a walk along the sorted list, when its counter stays below
    the limit for `turns` values. -/
theorem evictedNames_eq_walk {limit : JsNum} {count turns : Nat}
    (hturns : ∀ i < count, (JsNum.ofNat i).lt limit = true ↔ i < turns) (i : Nat)
    (names : List String) (hcount : i + names.length ≤ count) :
    evictedNames limit i names = walk pairs (turns - i) names := by
  fun_induction evictedNames limit i names with
  | case1 i =>
      cases turns - i with
      | zero => rfl
      | succ n => rfl
  | case2 i file hi =>
      rw [List.length_singleton] at hcount
      rw [hturns i (by omega)] at hi
      rw [show turns - i = turns - i - 1 + 1 by omega]
      rfl
  | case3 i file hi =>
      rw [List.length_singleton] at hcount
      rw [hturns i (by omega)] at hi
      rw [show turns - i = 0 by omega]
      rfl
  | case4 i file next rest hi hpair ih =>
      rw [List.length_cons, List.length_cons] at hcount
      rw [hturns i (by omega)] at hi
      rw [ih (by omega), show turns - i = turns - i - 1 + 1 by omega, walk,
        if_pos (show pairs file next = true from decide_eq_true hpair),
        show turns - i - 1 - 1 = turns - (i + 2) by omega]
  | case5 i file next rest hi hpair ih =>
      rw [List.length_cons] at hcount
      rw [hturns i (by omega)] at hi
      rw [ih (by omega), show turns - i = turns - i - 1 + 1 by omega, walk,
        if_neg (show ¬ pairs file next = true from fun h => hpair (of_decide_eq_true h)),
        show turns - i - 1 = turns - (i + 1) by omega]
  | case6 i file next rest hi =>
      rw [List.length_cons] at hcount
      rw [hturns i (by omega)] at hi
      rw [show turns - i = 0 by omega]
      rfl

/-- How many values of the counter are below the excess over a limit: the excess, rounded up,
    for the limit may be no integer. -/
def turns (maxFileNum : JsNum) (count : Nat) : Nat :=
  match maxFileNum with
  | .fin q => ⌈(count : Rat) - q⌉.toNat
  | _ => count

/-- The turns of the loop, counted. -/
theorem lt_excess_iff {maxFileNum : JsNum} {count : Nat}
    (hover : maxFileNum.lt (JsNum.ofNat count) = true) {i : Nat} (hi : i < count) :
    (JsNum.ofNat i).lt ((JsNum.ofNat count).sub maxFileNum) = true
      ↔ i < turns maxFileNum count := by
  cases maxFileNum with
  | nan => exact absurd hover Bool.false_ne_true
  | negInf => exact iff_of_true rfl hi
  | posInf => exact absurd hover Bool.false_ne_true
  | fin q =>
      show (JsNum.fin i).lt (JsNum.fin ((count : Rat) - q)) = true ↔ _
      rw [JsNum.lt_fin, turns, Int.lt_toNat, Int.lt_ceil, Int.cast_natCast]

/-- The number of files that go when there are more than `maxFileNum`, whatever number that
    is: all of them when the counter outruns the names. -/
def goneCount (maxFileNum : JsNum) (names : List String) : Nat :=
  let excess := turns maxFileNum names.length
  if excess < names.length then
    excess + trailing ((flags pairs (sortOldestFirst names)).take excess) % 2
  else names.length

/-- **What goes stands in front**, for every limit. -/
theorem evictedNames_eq_take {maxFileNum : JsNum} {names : List String}
    (hover : maxFileNum.lt (JsNum.ofNat names.length) = true) :
    evictedNames ((JsNum.ofNat names.length).sub maxFileNum) 0 (sortOldestFirst names)
      = (sortOldestFirst names).take (goneCount maxFileNum names) := by
  have hlength := length_sortOldestFirst names
  have hcount : 0 + (sortOldestFirst names).length ≤ names.length := by
    rw [hlength, Nat.zero_add]
  rw [evictedNames_eq_walk (fun i hi => lt_excess_iff hover hi) 0 _ hcount, Nat.sub_zero]
  by_cases hturns : turns maxFileNum names.length < names.length
  · have hwalk := length_walk pairs (turns maxFileNum names.length) (sortOldestFirst names) (by
      rw [hlength]
      exact hturns)
    rw [walk_eq_take, hwalk, goneCount, if_pos hturns]
  · rw [goneCount, if_neg hturns, ← hlength, List.take_length]
    exact walk_eq_self pairs _ _ (by rw [hlength]; exact Nat.not_lt.mp hturns)

/-- Subtraction of natural numbers that does not go below zero. -/
theorem sub_ofNat {m n : Nat} (h : m ≤ n) :
    (JsNum.ofNat n).sub (JsNum.ofNat m) = JsNum.ofNat (n - m) := by
  show JsNum.fin ((n : Rat) - m) = JsNum.fin ((n - m : Nat) : Rat)
  rw [Nat.cast_sub h]

/-- For a limit that is a positive integer, the cut stands where the loop stops. -/
theorem goneCount_ofNat {maxFileNum : Nat} (hmax : 1 ≤ maxFileNum) {names : List String}
    (hover : maxFileNum < names.length) :
    goneCount (JsNum.ofNat maxFileNum) names = cut maxFileNum names := by
  have hturns : turns (JsNum.ofNat maxFileNum) names.length = names.length - maxFileNum := by
    show ⌈(names.length : Rat) - (maxFileNum : Rat)⌉.toNat = _
    rw [← Nat.cast_sub hover.le, Int.ceil_natCast, Int.toNat_natCast]
  have hlt : names.length - maxFileNum < names.length := by omega
  rw [goneCount, hturns, if_pos hlt]
  rfl

-- ── The loop returns ──────────────────────────────────────────────────────────────

variable {Dir : Type} [DecidableEq Dir]

/-- One `unlinkSync` for each name, in order; `none` when one of them throws. -/
def unlinkEach (dir : Dir) : List String → Files Dir → Option (Files Dir)
  | [], files => some files
  | name :: names, files =>
      match unlinkSync (dir, name) files with
      | none => none
      | some files => unlinkEach dir names files

/-- The first name is unlinked, then the others. -/
theorem unlinkEach_cons {dir : Dir} {name : String} {files : Files Dir} (names : List String)
    (h : files.has (dir, name) = true) :
    unlinkEach dir (name :: names) files = unlinkEach dir names (files.delete (dir, name)) := by
  rw [unlinkEach, unlinkSync_of_has h]

/-- **The loop of `deleteOldFile`**, over names that are there, each once, and that it cannot
    run past: it returns, and has unlinked its names one after another. -/
theorem evictFrom_eq_unlinkEach (dir : Dir) (limit i : Nat) (names : List String)
    (files : Files Dir) (hend : names = [] ∨ limit < i + names.length) (hnodup : names.Nodup)
    (hthere : ∀ name ∈ names, files.has (dir, name) = true) :
    ∃ files', unlinkEach dir (evictedNames (JsNum.ofNat limit) i names) files = some files'
      ∧ evictFrom dir (JsNum.ofNat limit) i names files = (files', true) := by
  fun_induction evictedNames (JsNum.ofNat limit) i names generalizing files with
  | case1 i => exact ⟨files, rfl, rfl⟩
  | case2 i file hi =>
      -- a turn on the last name would read behind the list
      rw [JsNum.lt_ofNat] at hi
      rcases hend with hnil | hlt
      · exact absurd hnil (List.cons_ne_nil _ _)
      · rw [List.length_singleton] at hlt
        omega
  | case3 i file hi =>
      rw [evictFrom, if_neg hi]
      exact ⟨files, rfl, rfl⟩
  | case4 i file next rest hi hpair ih =>
      obtain ⟨hfile, hrest⟩ := List.nodup_cons.mp hnodup
      obtain ⟨hnext, hnodup'⟩ := List.nodup_cons.mp hrest
      have hne : next ≠ file := fun h => hfile (h ▸ List.mem_cons_self)
      have hhas : files.has (dir, file) = true := hthere file List.mem_cons_self
      have hhas' : (files.delete (dir, file)).has (dir, next) = true :=
        has_delete_of_ne hne (hthere next (List.mem_cons_of_mem _ List.mem_cons_self))
      have hthere' : ∀ name ∈ rest,
          ((files.delete (dir, file)).delete (dir, next)).has (dir, name) = true := by
        intro name hmem
        have hmem' := List.mem_cons_of_mem next hmem
        refine has_delete_of_ne (fun h => hnext (h ▸ hmem)) ?_
        exact has_delete_of_ne (fun h => hfile (h ▸ hmem'))
          (hthere name (List.mem_cons_of_mem file hmem'))
      have hend' : rest = [] ∨ limit < i + 2 + rest.length := by
        rcases hend with hnil | hlt
        · exact absurd hnil (List.cons_ne_nil _ _)
        · rw [List.length_cons, List.length_cons] at hlt
          exact Or.inr (by omega)
      obtain ⟨files', heach, hloop⟩ := ih _ hend' hnodup' hthere'
      refine ⟨files', ?_, ?_⟩
      · rw [unlinkEach_cons _ hhas, unlinkEach_cons _ hhas']
        exact heach
      · rw [evictFrom, if_pos hi, unlinkSync_of_has hhas]
        simp only
        rw [if_pos hpair, unlinkSync_of_has hhas']
        exact hloop
  | case5 i file next rest hi hpair ih =>
      obtain ⟨hfile, hrest⟩ := List.nodup_cons.mp hnodup
      have hhas : files.has (dir, file) = true := hthere file List.mem_cons_self
      have hthere' : ∀ name ∈ next :: rest,
          (files.delete (dir, file)).has (dir, name) = true := fun name hmem =>
        has_delete_of_ne (fun h => hfile (h ▸ hmem))
          (hthere name (List.mem_cons_of_mem file hmem))
      have hend' : next :: rest = [] ∨ limit < i + 1 + (next :: rest).length := by
        rcases hend with hnil | hlt
        · exact absurd hnil (List.cons_ne_nil _ _)
        · rw [List.length_cons] at hlt
          exact Or.inr (by omega)
      obtain ⟨files', heach, hloop⟩ := ih _ hend' hrest hthere'
      refine ⟨files', ?_, ?_⟩
      · rw [unlinkEach_cons _ hhas]
        exact heach
      · rw [evictFrom, if_pos hi, unlinkSync_of_has hhas]
        simp only
        rw [if_neg hpair]
        exact hloop
  | case6 i file next rest hi =>
      rw [evictFrom, if_neg hi]
      exact ⟨files, rfl, rfl⟩

-- ── What is left of a directory ───────────────────────────────────────────────────

/-- The names `deleteOldFile` lists. -/
def matching (host : Host Dir) (out : Outside) (filePath : String) (files : Files Dir) :
    List String :=
  listFileSync out.order (host.dirOf filePath) dumpSuffixes files

variable (host : Host Dir) (out : Outside) (filePath : String) (files : Files Dir)

theorem matching_nodup : (matching host out filePath files).Nodup :=
  nodup_listFileSync out.order (host.dirOf filePath) dumpSuffixes files

theorem has_of_mem_matching {name : String} (h : name ∈ matching host out filePath files) :
    files.has (host.dirOf filePath, name) = true := (mem_listFileSync.mp h).1

theorem mem_matching {name : String} {suffix : String} (hs : suffix ∈ dumpSuffixes)
    (h : files.has (host.dirOf filePath, name ++ suffix) = true) :
    name ++ suffix ∈ matching host out filePath files := by
  refine mem_listFileSync.mpr ⟨h, suffix, hs, ?_⟩
  rw [String.toList_append]
  exact List.suffix_append _ _

/-- Within the limit nothing is done. -/
theorem deleteOldFile_within_limit {maxFileNum : JsNum}
    (h : maxFileNum.lt (JsNum.ofNat (matching host out filePath files).length) = false) :
    deleteOldFile host out filePath maxFileNum files = (files, true, []) :=
  if_neg (fun hlt => Bool.false_ne_true (h.symm.trans hlt))

/-- **Over the limit** the files before the cut go, one after another, and nothing throws. -/
theorem deleteOldFile_spec {maxFileNum : Nat} (hmax : 1 ≤ maxFileNum)
    (hover : maxFileNum < (matching host out filePath files).length) :
    let names := matching host out filePath files
    let gone := (sortOldestFirst names).take (cut maxFileNum names)
    ∃ files', unlinkEach (host.dirOf filePath) gone files = some files'
      ∧ deleteOldFile host out filePath (JsNum.ofNat maxFileNum) files
        = (files', true, [.retention])
      ∧ Unlinked (host.dirOf filePath) (fun name => name ∈ gone) files' files := by
  intro names gone
  have hover' : (JsNum.ofNat maxFileNum).lt (JsNum.ofNat names.length) = true :=
    (JsNum.lt_ofNat _ _).mpr hover
  have hexcess : (JsNum.ofNat names.length).sub (JsNum.ofNat maxFileNum)
      = JsNum.ofNat (names.length - maxFileNum) := sub_ofNat hover.le
  have hgone : evictedNames ((JsNum.ofNat names.length).sub (JsNum.ofNat maxFileNum)) 0
      (sortOldestFirst names) = gone := by
    rw [evictedNames_eq_take hover', goneCount_ofNat hmax hover]
  have hend : sortOldestFirst names = []
      ∨ names.length - maxFileNum < 0 + (sortOldestFirst names).length := by
    have hlength : (sortOldestFirst names).length = names.length := length_sortOldestFirst names
    have hsome : maxFileNum < names.length := hover
    rw [hlength]
    exact Or.inr (by omega)
  obtain ⟨files', heach, hloop⟩ := evictFrom_eq_unlinkEach (host.dirOf filePath)
    (names.length - maxFileNum) 0 (sortOldestFirst names) files hend
    ((sortOldestFirst_perm names).nodup_iff.mpr (matching_nodup host out filePath files))
    (fun name hmem => has_of_mem_matching host out filePath files
      ((sortOldestFirst_perm names).mem_iff.mp hmem))
  rw [← hexcess] at heach hloop
  rw [hgone] at heach
  have hrun : deleteOldFile host out filePath (JsNum.ofNat maxFileNum) files
      = (files', true, [.retention]) := by
    refine (if_pos hover').trans ?_
    show ((evictFrom _ ((JsNum.ofNat names.length).sub (JsNum.ofNat maxFileNum)) 0
        (sortOldestFirst names) files).1,
      (evictFrom _ ((JsNum.ofNat names.length).sub (JsNum.ofNat maxFileNum)) 0
        (sortOldestFirst names) files).2, [DumpEvent.retention]) = _
    rw [hloop]
  refine ⟨files', heach, hrun, ?_⟩
  have hunlinked := deleteOldFile_unlinked host out filePath (JsNum.ofNat maxFileNum) files
  rw [hrun] at hunlinked
  refine hunlinked.congr (fun name => ?_)
  rw [← hgone]
  exact and_iff_right hover'

/-- **A listed file is kept** when there is no excess, or when it stands behind the cut. -/
theorem kept_iff {maxFileNum : Nat} (hmax : 1 ≤ maxFileNum) {name : String}
    (hname : name ∈ matching host out filePath files) :
    (deleteOldFile host out filePath (JsNum.ofNat maxFileNum) files).1.has
        (host.dirOf filePath, name) = true
      ↔ (matching host out filePath files).length ≤ maxFileNum
        ∨ cut maxFileNum (matching host out filePath files)
            ≤ (sortOldestFirst (matching host out filePath files)).idxOf name := by
  let names := matching host out filePath files
  by_cases hover : maxFileNum < names.length
  · obtain ⟨files', -, hrun, hunlinked⟩ := deleteOldFile_spec host out filePath files hmax hover
    have hmem : name ∈ sortOldestFirst names := (sortOldestFirst_perm names).mem_iff.mpr hname
    rw [hrun, or_iff_right (Nat.not_le.mpr hover), ← Nat.not_lt,
      ← List.mem_take_iff_idxOf_lt hmem]
    constructor
    · intro hhas hgone
      exact (hunlinked.has_of hhas).2 ⟨rfl, hgone⟩
    · intro hkept
      rw [hunlinked.has_iff hkept]
      exact has_of_mem_matching host out filePath files hname
  · have hlt : (JsNum.ofNat maxFileNum).lt (JsNum.ofNat names.length) = false := by
      rw [← Bool.not_eq_true, JsNum.lt_ofNat]
      exact hover
    rw [deleteOldFile_within_limit host out filePath files hlt]
    exact iff_of_true (has_of_mem_matching host out filePath files hname)
      (Or.inl (Nat.not_lt.mp hover))

-- ── The bound ─────────────────────────────────────────────────────────────────────

/-- The listed names that are still there in a store. -/
def survivors (files' : Files Dir) : List String :=
  (matching host out filePath files).filter (fun name => files'.has (host.dirOf filePath, name))

/-- Removing the first `k` names of the sorted list leaves the others. -/
theorem length_survivors {files' : Files Dir} {k : Nat}
    (hgone : Unlinked (host.dirOf filePath)
      (fun name => name ∈ (sortOldestFirst (matching host out filePath files)).take k)
      files' files) :
    (survivors host out filePath files files').length
      = (matching host out filePath files).length - k := by
  let sorted := sortOldestFirst (matching host out filePath files)
  have hperm : sorted.Perm (matching host out filePath files) := sortOldestFirst_perm _
  have hnodup : sorted.Nodup := hperm.nodup_iff.mpr (matching_nodup host out filePath files)
  have hlength : (survivors host out filePath files files').length
      = (sorted.filter (fun name => files'.has (host.dirOf filePath, name))).length :=
    (hperm.filter _).symm.length_eq
  have htake : (sorted.take k).filter (fun name => files'.has (host.dirOf filePath, name))
      = [] := by
    rw [List.filter_eq_nil_iff]
    intro name hmem hhas
    exact (hgone.has_of hhas).2 ⟨rfl, hmem⟩
  have hdrop : (sorted.drop k).filter (fun name => files'.has (host.dirOf filePath, name))
      = sorted.drop k := by
    rw [List.filter_eq_self]
    intro name hmem
    have hkept : name ∉ sorted.take k := by
      intro htaken
      rw [← List.take_append_drop k sorted] at hnodup
      exact (List.nodup_append.mp hnodup).2.2 name htaken name hmem rfl
    rw [hgone.has_iff hkept]
    exact has_of_mem_matching host out filePath files
      (hperm.mem_iff.mp (List.mem_of_mem_drop hmem))
  rw [hlength, ← List.take_append_drop k sorted, List.filter_append, htake, hdrop,
    List.nil_append, List.length_drop, hperm.length_eq]

/-- What goes is not newer than what stays. -/
theorem notNewer_of_cut {k : Nat} {names : List String} {a b : String}
    (ha : a ∈ (sortOldestFirst names).take k) (hb : b ∈ names)
    (hkept : b ∉ (sortOldestFirst names).take k) : NotNewer a b := by
  have hsorted := sortOldestFirst_pairwise names
  have hmem : b ∈ sortOldestFirst names := (sortOldestFirst_perm names).mem_iff.mpr hb
  rw [← List.take_append_drop k (sortOldestFirst names)] at hsorted hmem
  exact (List.pairwise_append.mp hsorted).2.2 a ha b
    ((List.mem_append.mp hmem).resolve_left hkept)

/-- What `old`, the outcome of `deleteOldFile`, leaves of the files `names` of a directory,
    with a limit of `maxFileNum`. -/
structure Bounded (dir : Dir) (files : Files Dir) (names : List String) (maxFileNum : Nat)
    (old : Files Dir × Bool × List DumpEvent) (left : List String) : Prop where
  /-- the list it goes through is the one it found, sorted -/
  perm : (sortOldestFirst names).Perm names
  sorted : (sortOldestFirst names).Pairwise NotNewer
  nodup : names.Nodup
  /-- it returns, and never reads behind its list -/
  returns : old.2.1 = true
  within_limit : names.length ≤ maxFileNum → old.1 = files
  /-- over the limit it unlinks names from the front, one after another -/
  over_limit : maxFileNum < names.length →
    ∃ k, (k = names.length - maxFileNum ∨ k = names.length - maxFileNum + 1)
      ∧ unlinkEach dir ((sortOldestFirst names).take k) files = some old.1
      ∧ Unlinked dir (fun name => name ∈ (sortOldestFirst names).take k) old.1 files
  at_least : maxFileNum < names.length → maxFileNum - 1 ≤ left.length
  at_most : maxFileNum < names.length → left.length ≤ maxFileNum
  oldest_first : ∀ a ∈ names, ∀ b ∈ names, old.1.has (dir, a) = false →
    old.1.has (dir, b) = true → NotNewer a b

/-- **The bound and the order of retention**, for every directory and every order in which
    it is listed. Up to the limit nothing is deleted. Over the limit the first names of the
    list sorted by timestamp are unlinked: as many as there are too many, or one more. So
    at most the limit is left, at least one less, and no survivor is older than a deleted
    file. -/
theorem retention_bound {maxFileNum : Nat} (hmax : 1 ≤ maxFileNum) :
    Bounded (host.dirOf filePath) files (matching host out filePath files) maxFileNum
      (deleteOldFile host out filePath (JsNum.ofNat maxFileNum) files)
      (survivors host out filePath files
        (deleteOldFile host out filePath (JsNum.ofNat maxFileNum) files).1) := by
  let names := matching host out filePath files
  have hperm := sortOldestFirst_perm names
  have hsorted := sortOldestFirst_pairwise names
  have hnodup := matching_nodup host out filePath files
  by_cases hover : maxFileNum < names.length
  · obtain ⟨files', heach, hold, hgone⟩ := deleteOldFile_spec host out filePath files hmax hover
    have hleft := length_survivors host out filePath files hgone
    have hcut := cut_cases maxFileNum names
    rw [hold]
    refine ⟨hperm, hsorted, hnodup, rfl, fun hle => absurd hover (Nat.not_lt.mpr hle),
      fun _ => ⟨cut maxFileNum names, hcut, heach, hgone⟩, fun _ => ?_, fun _ => ?_, ?_⟩
    · rw [hleft]
      show maxFileNum - 1 ≤ names.length - cut maxFileNum names
      omega
    · rw [hleft]
      show names.length - cut maxFileNum names ≤ maxFileNum
      omega
    · intro a ha b hb hgone_a hkept_b
      have htaken : a ∈ (sortOldestFirst names).take (cut maxFileNum names) := by
        by_contra hnot
        rw [hgone.has_iff hnot, has_of_mem_matching host out filePath files ha] at hgone_a
        exact Bool.false_ne_true hgone_a.symm
      exact notNewer_of_cut htaken hb (fun hmem => (hgone.has_of hkept_b).2 ⟨rfl, hmem⟩)
  · have hlt : (JsNum.ofNat maxFileNum).lt (JsNum.ofNat names.length) = false := by
      rw [← Bool.not_eq_true, JsNum.lt_ofNat]
      exact hover
    rw [deleteOldFile_within_limit host out filePath files hlt]
    refine ⟨hperm, hsorted, hnodup, rfl, fun _ => rfl, fun h => absurd h hover,
      fun h => absurd h hover, fun h => absurd h hover, ?_⟩
    intro a ha b _ hgone_a _
    have hhas : files.has (host.dirOf filePath, a) = true :=
      has_of_mem_matching host out filePath files ha
    exact absurd (hgone_a.symm.trans hhas) Bool.false_ne_true

/-- Two process threads dump in the same millisecond: both heap files first, then both leak
    lists. -/
def sameMillisecond : Files String :=
  [".rawheap", ".jsleaklist"].foldl (fun files suffix =>
      (files.set ("jsleak", fileName ⟨100, 101⟩ 5 suffix) [1]).set
        ("jsleak", fileName ⟨200, 201⟩ 5 suffix) [1])
    OrderedMap.empty

theorem sameMillisecond_bound :
    (survivors plainHost (outsideAt 6) "jsleak" sameMillisecond
      (deleteOldFile plainHost (outsideAt 6) "jsleak" (JsNum.ofNat 2) sameMillisecond).1).length
        ≤ 2 :=
  (retention_bound plainHost (outsideAt 6) "jsleak" sameMillisecond (by decide)).at_most
    (by decide +kernel)

-- ── Complete dumps ────────────────────────────────────────────────────────────────

/-- What `maxStoredHeapDumps` becomes: the count of files, unless that is no double. -/
theorem double_ofNat (m : Nat) :
    (JsNum.ofNat m).double = .posInf ∨ (JsNum.ofNat m).double = JsNum.ofNat (2 * m) := by
  have hbig : ¬ 2 * (m : Rat) < -JsNum.maxValue := by
    have hm : (0 : Rat) ≤ m := Nat.cast_nonneg m
    have hv : (0 : Rat) ≤ JsNum.maxValue := by
      rw [JsNum.maxValue]
      norm_num
    linarith
  show (if JsNum.maxValue < 2 * (m : Rat) then JsNum.posInf
    else if 2 * (m : Rat) < -JsNum.maxValue then .negInf else .fin (2 * (m : Rat))) = _ ∨ _ = _
  by_cases hover : JsNum.maxValue < 2 * (m : Rat)
  · exact Or.inl (if_pos hover)
  · refine Or.inr ((if_neg hover).trans ((if_neg hbig).trans ?_))
    rw [JsNum.ofNat, Nat.cast_mul, Nat.cast_ofNat]

/-- The limit is twice what was configured. -/
theorem maxFileNum_stored (st : Settings) {m : Nat} (hm : 0 < m) :
    (setDumpFileSaveAmount { maxStoredHeapDumps := some (JsNum.ofNat m) } st).maxFileNum
      = (JsNum.ofNat m).double :=
  setDumpFileSaveAmount_of_pos rfl ((JsNum.lt_ofNat 0 m).mpr hm) st

/-- A listed file is kept, when the limit comes from `maxStoredHeapDumps`. -/
theorem kept_iff_stored {m : Nat} (hm : 0 < m) {name : String}
    (hname : name ∈ matching host out filePath files) :
    (deleteOldFile host out filePath (JsNum.ofNat m).double files).1.has
        (host.dirOf filePath, name) = true
      ↔ (JsNum.ofNat m).double.lt (JsNum.ofNat (matching host out filePath files).length) = false
        ∨ cut (2 * m) (matching host out filePath files)
            ≤ (sortOldestFirst (matching host out filePath files)).idxOf name := by
  rcases double_ofNat m with hinf | hfin
  · have hlt : (JsNum.ofNat m).double.lt
        (JsNum.ofNat (matching host out filePath files).length) = false := by
      rw [hinf]
      rfl
    rw [deleteOldFile_within_limit host out filePath files hlt]
    exact iff_of_true (has_of_mem_matching host out filePath files hname) (Or.inl hlt)
  · rw [hfin, ← Bool.not_eq_true, JsNum.lt_ofNat, Nat.not_lt]
    exact kept_iff host out filePath files (by omega) hname

/-- A leak list with a heap file of the same base name. -/
structure CompleteDump (dir : Dir) (files : Files Dir) (base heap : String) : Prop where
  kind : heap = ".rawheap" ∨ heap = ".heapsnapshot"
  list_there : files.has (dir, base ++ ".jsleaklist") = true
  heap_there : files.has (dir, base ++ heap) = true

/-- Both files of a dump are there, or neither. -/
def Whole (dir : Dir) (files : Files Dir) (base heap : String) : Prop :=
  (files.has (dir, base ++ ".jsleaklist") = true ∧ files.has (dir, base ++ heap) = true)
    ∨ (files.has (dir, base ++ ".jsleaklist") = false ∧ files.has (dir, base ++ heap) = false)

theorem whole_iff (dir : Dir) (files : Files Dir) (base heap : String) :
    Whole dir files base heap
      ↔ (files.has (dir, base ++ ".jsleaklist") = true ↔ files.has (dir, base ++ heap) = true) := by
  rw [Whole]
  cases files.has (dir, base ++ ".jsleaklist") with
  | true =>
      cases files.has (dir, base ++ heap) with
      | true => exact iff_of_true (Or.inl ⟨rfl, rfl⟩) Iff.rfl
      | false =>
          refine iff_of_false ?_ (fun h => Bool.false_ne_true (h.mp rfl))
          rintro (⟨-, h⟩ | ⟨h, -⟩)
          · exact Bool.false_ne_true h
          · exact Bool.false_ne_true h.symm
  | false =>
      cases files.has (dir, base ++ heap) with
      | true =>
          refine iff_of_false ?_ (fun h => Bool.false_ne_true (h.mpr rfl))
          rintro (⟨h, -⟩ | ⟨-, h⟩)
          · exact Bool.false_ne_true h
          · exact Bool.false_ne_true h.symm
      | false => exact iff_of_true (Or.inr ⟨rfl, rfl⟩) Iff.rfl

/-- The two files of a dump stand on the same side of a position in the sorted list. -/
def SameSide (k : Nat) (names : List String) (base heap : String) : Prop :=
  (sortOldestFirst names).idxOf (base ++ ".jsleaklist") < k
    ↔ (sortOldestFirst names).idxOf (base ++ heap) < k

omit [DecidableEq Dir] in
theorem heap_suffix {heap : String} (h : heap = ".rawheap" ∨ heap = ".heapsnapshot") :
    heap ∈ dumpSuffixes := by
  rcases h with rfl | rfl
  · exact mem_rawheap
  · exact mem_heapsnapshot

/-- **When retention splits no dump**, for every directory, listing order and positive
    `maxStoredHeapDumps`: there are no more files than it keeps, or every complete dump has
    both its files on the same side of the cut. -/
theorem never_splits_iff (st : Settings) {m : Nat} (hm : 0 < m) :
    let dir := host.dirOf filePath
    let names := matching host out filePath files
    let maxFileNum :=
      (setDumpFileSaveAmount { maxStoredHeapDumps := some (JsNum.ofNat m) } st).maxFileNum
    (∀ base heap, CompleteDump dir files base heap →
        Whole dir (deleteOldFile host out filePath maxFileNum files).1 base heap)
      ↔ maxFileNum.lt (JsNum.ofNat names.length) = false
        ∨ ∀ base heap, CompleteDump dir files base heap →
            SameSide (cut (2 * m) names) names base heap := by
  intro dir names maxFileNum
  have hlimit : maxFileNum = (JsNum.ofNat m).double := maxFileNum_stored st hm
  have hkept : ∀ {base heap : String}, CompleteDump dir files base heap →
      (Whole dir (deleteOldFile host out filePath maxFileNum files).1 base heap
        ↔ maxFileNum.lt (JsNum.ofNat names.length) = false
          ∨ SameSide (cut (2 * m) names) names base heap) := by
    intro base heap hdump
    have hlist := mem_matching host out filePath files mem_jsleaklist hdump.list_there
    have hheap := mem_matching host out filePath files (heap_suffix hdump.kind) hdump.heap_there
    rw [whole_iff, hlimit, kept_iff_stored host out filePath files hm hlist,
      kept_iff_stored host out filePath files hm hheap, SameSide, ← Nat.not_le, ← Nat.not_le,
      not_iff_not]
    by_cases hlt : (JsNum.ofNat m).double.lt (JsNum.ofNat names.length) = false
    · exact iff_of_true (iff_of_true (Or.inl hlt) (Or.inl hlt)) (Or.inl hlt)
    · rw [or_iff_right hlt, or_iff_right hlt, or_iff_right hlt]
  constructor
  · intro hwhole
    by_cases hlt : maxFileNum.lt (JsNum.ofNat names.length) = false
    · exact Or.inl hlt
    · refine Or.inr ?_
      intro base heap hdump
      exact ((hkept hdump).mp (hwhole base heap hdump)).resolve_left hlt
  · intro hcond base heap hdump
    refine (hkept hdump).mpr ?_
    rcases hcond with hlt | hside
    · exact Or.inl hlt
    · exact Or.inr (hside base heap hdump)

/-- **A dump is only split inside a group of equal timestamps**: the files right before and
    right behind the cut have the timestamp of the dump. -/
theorem split_stamp {k : Nat} {names : List String} {base heap : String}
    (hheap : heap = ".rawheap" ∨ heap = ".heapsnapshot")
    (hmem : base ++ ".jsleaklist" ∈ names) (hmem' : base ++ heap ∈ names)
    (hsplit : ¬ SameSide k names base heap) :
    ∃ a b, (sortOldestFirst names)[k - 1]? = some a ∧ (sortOldestFirst names)[k]? = some b
      ∧ stampOf a = stampOf (base ++ heap) ∧ stampOf b = stampOf (base ++ heap) := by
  let sorted := sortOldestFirst names
  have hsame : stampOf (base ++ ".jsleaklist") = stampOf (base ++ heap) := by
    rw [stampOf, stampOf, getTimestampByFileName_append base mem_jsleaklist (heap_suffix hheap)]
  -- an earlier file is not newer
  have hle : ∀ i j (hi : i < sorted.length) (hj : j < sorted.length), i ≤ j →
      stampOf (sorted.get ⟨i, hi⟩) ≤ stampOf (sorted.get ⟨j, hj⟩) := by
    intro i j hi hj hij
    rcases Nat.lt_or_eq_of_le hij with hlt | rfl
    · exact (notNewer_iff _ _).mp
        (List.pairwise_iff_get.mp (sortOldestFirst_pairwise names) ⟨i, hi⟩ ⟨j, hj⟩ hlt)
    · exact le_refl _
  have hbetween : ∀ x ∈ names, ∀ y ∈ names, stampOf x = stampOf (base ++ heap) →
      stampOf y = stampOf (base ++ heap) → sorted.idxOf x < k → k ≤ sorted.idxOf y →
      ∃ a b, sorted[k - 1]? = some a ∧ sorted[k]? = some b
        ∧ stampOf a = stampOf (base ++ heap) ∧ stampOf b = stampOf (base ++ heap) := by
    intro x hx y hy hxs hys hbefore hbehind
    have hxlt : sorted.idxOf x < sorted.length :=
      List.idxOf_lt_length_of_mem ((sortOldestFirst_perm names).mem_iff.mpr hx)
    have hylt : sorted.idxOf y < sorted.length :=
      List.idxOf_lt_length_of_mem ((sortOldestFirst_perm names).mem_iff.mpr hy)
    have hk' : k - 1 < sorted.length := by omega
    have hk : k < sorted.length := by omega
    have h₁ := hle _ _ hxlt hk' (by omega)
    have h₂ := hle _ _ hk' hk (by omega)
    have h₃ := hle _ _ hk hylt hbehind
    rw [List.get_eq_getElem, List.getElem_idxOf, hxs] at h₁
    rw [List.get_eq_getElem (i := ⟨sorted.idxOf y, hylt⟩), List.getElem_idxOf, hys] at h₃
    refine ⟨_, _, List.getElem?_eq_getElem hk', List.getElem?_eq_getElem hk, ?_, ?_⟩
    · exact le_antisymm (h₂.trans h₃) h₁
    · exact le_antisymm h₃ (h₁.trans h₂)
  rw [SameSide, iff_iff_and_or_not_and_not] at hsplit
  by_cases hlist : sorted.idxOf (base ++ ".jsleaklist") < k
  · have hother : ¬ sorted.idxOf (base ++ heap) < k := fun h => hsplit (Or.inl ⟨hlist, h⟩)
    exact hbetween _ hmem _ hmem' hsame rfl hlist (Nat.not_lt.mp hother)
  · have hother : sorted.idxOf (base ++ heap) < k := by
      by_contra h
      exact hsplit (Or.inr ⟨hlist, h⟩)
    exact hbetween _ hmem' _ hmem rfl hsame hother (Nat.not_lt.mp hlist)

/-- Two dumps are to be kept, and there are two. -/
theorem sameMillisecond_whole :
    Whole "jsleak" (deleteOldFile plainHost (outsideAt 6) "jsleak"
      (setDumpFileSaveAmount { maxStoredHeapDumps := some (JsNum.ofNat 2) } {}).maxFileNum
      sameMillisecond).1 "jsleakwatcher-100-101-5" ".rawheap" :=
  (never_splits_iff plainHost (outsideAt 6) "jsleak" sameMillisecond {} (by decide)).mpr
    (Or.inl (by decide +kernel)) _ _ ⟨Or.inl rfl, by decide +kernel, by decide +kernel⟩

/-- One dump is to be kept. The two heap files stand before the cut and the two leak lists
    behind it: both heaps go, and both leak lists stay. -/
theorem dump_split :
    ¬ ∀ (Dir : Type) (_ : DecidableEq Dir) (host : Host Dir) (out : Outside)
        (filePath : String) (files : Files Dir) (st : Settings) (m : Nat), 0 < m →
        ∀ base heap, CompleteDump (host.dirOf filePath) files base heap →
          Whole (host.dirOf filePath) (deleteOldFile host out filePath
            (setDumpFileSaveAmount { maxStoredHeapDumps := some (JsNum.ofNat m) } st).maxFileNum
            files).1 base heap := by
  intro h
  have hwhole := h String inferInstance plainHost (outsideAt 6) "jsleak" sameMillisecond {} 1
    Nat.one_pos "jsleakwatcher-100-101-5" ".rawheap"
    ⟨Or.inl rfl, by decide +kernel, by decide +kernel⟩
  rw [whole_iff] at hwhole
  exact absurd (hwhole.mp (by decide +kernel)) (by decide +kernel)

end Retention
