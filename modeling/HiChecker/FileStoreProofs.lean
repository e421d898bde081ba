import HiChecker.OrderedMapProofs

/-!
# A store of files, by directory and name

The file operations a script makes: test, open or create, write at the start, unlink,
rename, and list a directory by suffix in an order nobody promises.

* **`Files`** — the contents by directory and name.
* **`ListingOrder`** — an order of listing; that it only permutes is a field.
* **`Within`** — one store holds nothing that another does not hold: what any amount
  of unlinking leaves.
* **`WithinBut P`** — the same, outside the paths with `P`: what writing only to those
  paths leaves.
* **`SameBut P`** — nothing is changed outside the paths with `P`.
* **`Unlinked dir gone`** — exactly the names with `gone` are gone from a directory.
-/

namespace FileStore

open OrderedMapLib

/-- A directory and the name of a file in it. -/
abbrev Path (Dir : Type) := Dir × String

/-- The files that there are, with their bytes. -/
abbrev Files (Dir : Type) := OrderedMap (Path Dir) (List UInt8)

variable {Dir : Type} [DecidableEq Dir]

/-- `fs.accessSync`. -/
def accessSync (p : Path Dir) (files : Files Dir) : Bool := files.has p

/-- Open for reading and writing, and create the file when it is not there. -/
def openCreate (p : Path Dir) (files : Files Dir) : Files Dir :=
  if files.has p then files else files.set p []

/-- Write at position zero. Nothing is truncated: the tail of a longer file stays. -/
def writeSync (p : Path Dir) (bytes : List UInt8) (files : Files Dir) : Files Dir :=
  match files.get p with
  | none => files
  | some old => files.set p (bytes ++ old.drop bytes.length)

/-- Append to a file that is there. -/
def appendTo (p : Path Dir) (bytes : List UInt8) (files : Files Dir) : Files Dir :=
  match files.get p with
  | none => files
  | some old => files.set p (old ++ bytes)

/-- Remove a file; throws when it is not there. -/
def unlinkSync (p : Path Dir) (files : Files Dir) : Option (Files Dir) :=
  if files.has p then some (files.delete p) else none

/-- Move a file, over one that may be there. -/
def moveFileSync (src dest : Path Dir) (files : Files Dir) : Option (Files Dir) :=
  match files.get src with
  | none => none
  | some bytes =>
      if src = dest then some files else some ((files.delete src).set dest bytes)

/-- The names in a directory that end in one of the suffixes. -/
def namesWith (dir : Dir) (suffixes : List String) (files : Files Dir) : List String :=
  (files.keys.filterMap (fun p => if p.1 = dir then some p.2 else none)).filter
    (fun name => suffixes.any (fun suffix => suffix.toList.isSuffixOf name.toList))

/-- The order in which a directory is listed. -/
structure ListingOrder where
  apply : List String → List String
  perm : ∀ names, (apply names).Perm names

/-- The order of creation. -/
def ListingOrder.asIs : ListingOrder := ⟨id, fun names => List.Perm.refl names⟩

/-- `fs.listFileSync`, filtered by suffix, in the order the system gives. -/
def listFileSync (order : ListingOrder) (dir : Dir) (suffixes : List String)
    (files : Files Dir) : List String :=
  order.apply (namesWith dir suffixes files)

-- ── What the operations leave ─────────────────────────────────────────────────────

/-- Every file of the first store is in the second, with the same content. -/
def Within (files' files : Files Dir) : Prop :=
  ∀ p, files'.get p = none ∨ files'.get p = files.get p

theorem Within.refl (files : Files Dir) : Within files files := fun _ => Or.inr rfl

theorem Within.trans {a b c : Files Dir} (hab : Within a b) (hbc : Within b c) :
    Within a c := by
  intro p
  rcases hab p with h | h
  · exact Or.inl h
  · rw [h]
    exact hbc p

/-- Taking a file away adds none. -/
theorem within_delete (files : Files Dir) (p : Path Dir) : Within (files.delete p) files := by
  intro q
  rw [OrderedMap.get_delete]
  by_cases hpq : p = q
  · rw [if_pos hpq]
    exact Or.inl rfl
  · rw [if_neg hpq]
    exact Or.inr rfl

/-- What is absent stays absent. -/
theorem Within.absent {files' files : Files Dir} (h : Within files' files) {p : Path Dir}
    (hp : files.get p = none) : files'.get p = none := by
  rcases h p with h | h
  · exact h
  · rw [h, hp]

/-- What is still there was there before. -/
theorem Within.has_of {files' files : Files Dir} (h : Within files' files) {p : Path Dir}
    (hp : files'.has p = true) : files.has p = true := by
  obtain ⟨bytes, hbytes⟩ := (OrderedMap.has_iff files' p).mp hp
  rcases h p with hnone | hsame
  · exact absurd (hbytes.symm.trans hnone) (Option.some_ne_none bytes)
  · exact (OrderedMap.has_iff files p).mpr ⟨bytes, hsame.symm.trans hbytes⟩

/-- What opening leaves of a file: its content, or an empty file. -/
theorem get_openCreate (p q : Path Dir) (files : Files Dir) :
    (openCreate p files).get q
      = if p = q then some ((files.get p).getD []) else files.get q := by
  show (if files.has p = true then files else files.set p []).get q = _
  by_cases hp : files.has p = true
  · rw [if_pos hp]
    obtain ⟨bytes, hbytes⟩ := (OrderedMap.has_iff files p).mp hp
    by_cases hpq : p = q
    · rw [if_pos hpq, ← hpq, hbytes]
      rfl
    · rw [if_neg hpq]
  · rw [if_neg hp, OrderedMap.get_set]
    have hnone : files.get p = none :=
      (OrderedMap.has_eq_false_iff files p).mp (Bool.eq_false_iff.mpr hp)
    rw [hnone]
    rfl

/-- A write to a file that is there and empty gives it that content. -/
theorem get_writeSync {p : Path Dir} {files : Files Dir} (bytes : List UInt8)
    (hp : files.get p = some []) (q : Path Dir) :
    (writeSync p bytes files).get q = if p = q then some bytes else files.get q := by
  have hwrite : writeSync p bytes files = files.set p (bytes ++ [].drop bytes.length) := by
    show (match files.get p with
      | none => files
      | some old => files.set p (bytes ++ old.drop bytes.length)) = _
    rw [hp]
  rw [hwrite, OrderedMap.get_set, List.drop_nil, List.append_nil]

/-- A file that is created and written has what was written. -/
theorem get_writeSync_openCreate {p : Path Dir} {files : Files Dir} (hp : files.get p = none)
    (bytes : List UInt8) (q : Path Dir) :
    (writeSync p bytes (openCreate p files)).get q = if p = q then some bytes else files.get q := by
  have hopen : (openCreate p files).get p = some [] := by
    rw [get_openCreate, if_pos rfl, hp]
    rfl
  rw [get_writeSync bytes hopen, get_openCreate]
  by_cases hpq : p = q
  · rw [if_pos hpq, if_pos hpq]
  · rw [if_neg hpq, if_neg hpq, if_neg hpq]

/-- A file that is opened and written keeps what it had beyond the text. -/
theorem writeSync_openCreate (p : Path Dir) (bytes : List UInt8) (files : Files Dir) :
    (writeSync p bytes (openCreate p files)).get p
      = some (bytes ++ ((files.get p).getD []).drop bytes.length) := by
  have hopen : (openCreate p files).get p = some ((files.get p).getD []) := by
    rw [get_openCreate, if_pos rfl]
  simp only [writeSync, hopen]
  rw [OrderedMap.get_set, if_pos rfl]

/-- Appending changes only a file that is there. -/
theorem get_appendTo (p q : Path Dir) (bytes : List UInt8) (files : Files Dir) :
    (appendTo p bytes files).get q
      = if p = q then (files.get p).map (fun old => old ++ bytes) else files.get q := by
  show (match files.get p with
    | none => files
    | some old => files.set p (old ++ bytes)).get q = _
  cases hp : files.get p with
  | none =>
      by_cases hpq : p = q
      · rw [if_pos hpq, ← hpq, hp]
        rfl
      · rw [if_neg hpq]
  | some old => exact OrderedMap.get_set files p q (old ++ bytes)

-- ── What stays as it is ───────────────────────────────────────────────────────────

/-- Outside the paths with `P` the stores are the same. -/
def SameBut (P : Path Dir → Prop) (files' files : Files Dir) : Prop :=
  ∀ p, ¬ P p → files'.get p = files.get p

theorem SameBut.refl (P : Path Dir → Prop) (files : Files Dir) : SameBut P files files :=
  fun _ _ => rfl

theorem SameBut.trans {P : Path Dir → Prop} {a b c : Files Dir} (hab : SameBut P a b)
    (hbc : SameBut P b c) : SameBut P a c :=
  fun p hp => (hab p hp).trans (hbc p hp)

theorem SameBut.mono {P Q : Path Dir → Prop} {files' files : Files Dir}
    (h : SameBut P files' files) (himp : ∀ p, P p → Q p) : SameBut Q files' files :=
  fun p hp => h p (fun hP => hp (himp p hP))

/-- Setting a file changes that file alone. -/
theorem sameBut_set {P : Path Dir → Prop} {p : Path Dir} (hp : P p) (bytes : List UInt8)
    (files : Files Dir) : SameBut P (files.set p bytes) files := by
  intro q hq
  rw [OrderedMap.get_set, if_neg]
  rintro rfl
  exact hq hp

/-- Deleting a file changes that file alone. -/
theorem sameBut_delete {P : Path Dir → Prop} {p : Path Dir} (hp : P p) (files : Files Dir) :
    SameBut P (files.delete p) files := by
  intro q hq
  rw [OrderedMap.get_delete, if_neg]
  rintro rfl
  exact hq hp

/-- Opening changes its file alone. -/
theorem sameBut_openCreate {P : Path Dir → Prop} {p : Path Dir} (hp : P p)
    (files : Files Dir) : SameBut P (openCreate p files) files := by
  rw [openCreate]
  split
  · exact SameBut.refl P files
  · exact sameBut_set hp [] files

/-- Writing changes its file alone. -/
theorem sameBut_writeSync {P : Path Dir → Prop} {p : Path Dir} (hp : P p)
    (bytes : List UInt8) (files : Files Dir) : SameBut P (writeSync p bytes files) files := by
  rw [writeSync]
  split
  · exact SameBut.refl P files
  · exact sameBut_set hp _ files

/-- Appending changes its file alone. -/
theorem sameBut_appendTo {P : Path Dir → Prop} {p : Path Dir} (hp : P p)
    (bytes : List UInt8) (files : Files Dir) : SameBut P (appendTo p bytes files) files := by
  rw [appendTo]
  split
  · exact SameBut.refl P files
  · exact sameBut_set hp _ files

/-- Moving changes the two files alone. -/
theorem sameBut_moveFileSync {P : Path Dir → Prop} {src dest : Path Dir} (hsrc : P src)
    (hdest : P dest) {files files' : Files Dir} (h : moveFileSync src dest files = some files') :
    SameBut P files' files := by
  rw [moveFileSync] at h
  split at h
  · exact absurd h.symm (Option.some_ne_none _)
  · split at h
    · obtain rfl := Option.some.inj h
      exact SameBut.refl P files
    · obtain rfl := Option.some.inj h
      exact (sameBut_set hdest _ _).trans (sameBut_delete hsrc files)

-- ── What adds nothing elsewhere ───────────────────────────────────────────────────

/-- Outside the paths with `P`, every file of the first store is in the second. -/
def WithinBut (P : Path Dir → Prop) (files' files : Files Dir) : Prop :=
  ∀ p, P p ∨ files'.get p = none ∨ files'.get p = files.get p

theorem Within.but {files' files : Files Dir} (h : Within files' files)
    (P : Path Dir → Prop) : WithinBut P files' files := fun p => Or.inr (h p)

theorem WithinBut.trans {P : Path Dir → Prop} {a b c : Files Dir} (hab : WithinBut P a b)
    (hbc : WithinBut P b c) : WithinBut P a c := by
  intro p
  rcases hab p with h | h | h
  · exact Or.inl h
  · exact Or.inr (Or.inl h)
  · rw [h]
    exact hbc p

theorem WithinBut.mono {P Q : Path Dir → Prop} {files' files : Files Dir}
    (h : WithinBut P files' files) (himp : ∀ p, P p → Q p) : WithinBut Q files' files := by
  intro p
  rcases h p with hp | hp
  · exact Or.inl (himp p hp)
  · exact Or.inr hp

/-- What is absent, outside the paths with `P`, stays absent. -/
theorem WithinBut.absent {P : Path Dir → Prop} {files' files : Files Dir}
    (h : WithinBut P files' files) {p : Path Dir} (hP : ¬ P p) (hp : files.get p = none) :
    files'.get p = none := by
  rcases h p with h | h | h
  · exact absurd h hP
  · exact h
  · rw [h, hp]

/-- What leaves the other paths the same adds nothing there. -/
theorem SameBut.withinBut {P : Path Dir → Prop} {files' files : Files Dir}
    (h : SameBut P files' files) : WithinBut P files' files := by
  intro p
  by_cases hp : P p
  · exact Or.inl hp
  · exact Or.inr (Or.inr (h p hp))

/-- Moving a file that is there gives the destination its content, and touches no path
    but the destination. -/
theorem moveFileSync_spec {P : Path Dir → Prop} {src : Path Dir} {bytes : List UInt8}
    {files : Files Dir} (dest : Path Dir) (hdest : P dest) (hsrc : files.get src = some bytes) :
    ∃ files', moveFileSync src dest files = some files' ∧ files'.get dest = some bytes
      ∧ WithinBut P files' files := by
  have hmove : moveFileSync src dest files
      = if src = dest then some files else some ((files.delete src).set dest bytes) := by
    show (match files.get src with
      | none => none
      | some bytes =>
          if src = dest then some files else some ((files.delete src).set dest bytes)) = _
    rw [hsrc]
  rw [hmove]
  by_cases hsame : src = dest
  · rw [if_pos hsame]
    exact ⟨files, rfl, hsame ▸ hsrc, (Within.refl files).but P⟩
  · rw [if_neg hsame]
    refine ⟨_, rfl, ?_, ?_⟩
    · rw [OrderedMap.get_set]
      exact if_pos rfl
    · exact (sameBut_set hdest bytes _).withinBut.trans ((within_delete files src).but P)

-- ── What is still there ───────────────────────────────────────────────────────────

/-- A file that is there stays there when it is opened, written or appended to. -/
theorem has_openCreate (p : Path Dir) (files : Files Dir) {q : Path Dir}
    (hq : q = p ∨ files.has q = true) : (openCreate p files).has q = true := by
  rw [OrderedMap.has_iff, get_openCreate]
  by_cases hpq : p = q
  · exact ⟨_, if_pos hpq⟩
  · rw [if_neg hpq, ← OrderedMap.has_iff]
    exact hq.resolve_left (fun h => hpq h.symm)

/-- Writing takes no file away. -/
theorem has_writeSync (p : Path Dir) (bytes : List UInt8) (files : Files Dir) {q : Path Dir}
    (hq : files.has q = true) : (writeSync p bytes files).has q = true := by
  rw [writeSync]
  split
  · exact hq
  · rw [OrderedMap.has_iff, OrderedMap.get_set]
    by_cases hpq : p = q
    · exact ⟨_, if_pos hpq⟩
    · rw [if_neg hpq, ← OrderedMap.has_iff]
      exact hq

/-- Appending takes no file away. -/
theorem has_appendTo (p : Path Dir) (bytes : List UInt8) (files : Files Dir) {q : Path Dir}
    (hq : files.has q = true) : (appendTo p bytes files).has q = true := by
  rw [OrderedMap.has_iff, get_appendTo]
  obtain ⟨old, hold⟩ := (OrderedMap.has_iff files q).mp hq
  by_cases hpq : p = q
  · rw [if_pos hpq, hpq, hold]
    exact ⟨_, rfl⟩
  · rw [if_neg hpq]
    exact ⟨old, hold⟩

theorem has_congr {files files' : Files Dir} {q : Path Dir} (h : files'.get q = files.get q) :
    files'.has q = files.has q := by
  rw [Bool.eq_iff_iff, OrderedMap.has_iff, OrderedMap.has_iff, h]

-- ── What exactly is gone ──────────────────────────────────────────────────────────

/-- The names with one of these suffixes. -/
theorem mem_namesWith {dir : Dir} {suffixes : List String} {files : Files Dir}
    {name : String} : name ∈ namesWith dir suffixes files
      ↔ files.has (dir, name) = true
        ∧ ∃ suffix ∈ suffixes, suffix.toList <:+ name.toList := by
  have hkeys : name ∈ files.keys.filterMap (fun p => if p.1 = dir then some p.2 else none)
      ↔ files.has (dir, name) = true := by
    rw [← OrderedMap.mem_keys_iff, List.mem_filterMap]
    constructor
    · rintro ⟨⟨d, n⟩, hmem, hsome⟩
      by_cases hd : d = dir
      · obtain rfl := Option.some.inj ((if_pos hd).symm.trans hsome)
        exact hd ▸ hmem
      · exact absurd ((if_neg hd).symm.trans hsome).symm (Option.some_ne_none _)
    · intro hmem
      exact ⟨(dir, name), hmem, if_pos rfl⟩
  rw [namesWith, List.mem_filter, hkeys]
  refine and_congr_right (fun _ => ?_)
  rw [List.any_eq_true]
  refine exists_congr (fun suffix => and_congr_right (fun _ => ?_))
  exact List.isSuffixOf_iff_suffix

/-- Any order lists the same names. -/
theorem mem_listFileSync {order : ListingOrder} {dir : Dir} {suffixes : List String}
    {files : Files Dir} {name : String} : name ∈ listFileSync order dir suffixes files
      ↔ files.has (dir, name) = true ∧ ∃ suffix ∈ suffixes, suffix.toList <:+ name.toList :=
  (order.perm _).mem_iff.trans mem_namesWith

/-- A directory lists a name once. -/
theorem nodup_listFileSync (order : ListingOrder) (dir : Dir) (suffixes : List String)
    (files : Files Dir) : (listFileSync order dir suffixes files).Nodup := by
  refine (order.perm _).nodup_iff.mpr (List.Nodup.filter _ (List.Nodup.filterMap ?_ files.nodup))
  rintro ⟨d, n⟩ ⟨d', n'⟩ name hname hname'
  by_cases hd : d = dir
  · by_cases hd' : d' = dir
    · have hn : n = name := Option.some.inj ((if_pos hd).symm.trans hname)
      have hn' : n' = name := Option.some.inj ((if_pos hd').symm.trans hname')
      rw [hd, hd', hn, hn']
    · exact absurd ((if_neg hd').symm.trans hname').symm (Option.some_ne_none _)
  · exact absurd ((if_neg hd).symm.trans hname).symm (Option.some_ne_none _)

/-- Exactly the files of a directory whose names have `gone` are gone; nothing else is
    changed. -/
structure Unlinked (dir : Dir) (gone : String → Prop) (files' files : Files Dir) : Prop where
  absent : ∀ name, gone name → files'.get (dir, name) = none
  kept : ∀ p, ¬ (p.1 = dir ∧ gone p.2) → files'.get p = files.get p

/-- Nothing was unlinked. -/
theorem unlinked_false (dir : Dir) (files : Files Dir) :
    Unlinked dir (fun _ => False) files files where
  absent := fun _ h => h.elim
  kept := fun _ _ => rfl

theorem Unlinked.congr {dir : Dir} {gone gone' : String → Prop} {files' files : Files Dir}
    (h : Unlinked dir gone files' files) (heq : ∀ name, gone name ↔ gone' name) :
    Unlinked dir gone' files' files where
  absent := fun name hg => h.absent name ((heq name).mpr hg)
  kept := fun p hp => h.kept p (fun hg => hp ⟨hg.1, (heq p.2).mp hg.2⟩)

/-- One removal after another. -/
theorem Unlinked.trans {dir : Dir} {gone gone' : String → Prop} {a b c : Files Dir}
    (hbc : Unlinked dir gone b c) (hab : Unlinked dir gone' a b) :
    Unlinked dir (fun name => gone name ∨ gone' name) a c where
  absent := by
    intro name hg
    by_cases hg' : gone' name
    · exact hab.absent name hg'
    · rw [hab.kept (dir, name) (fun h => hg' h.2)]
      exact hbc.absent name (hg.resolve_right hg')
  kept := by
    intro p hp
    rw [hab.kept p (fun h => hp ⟨h.1, Or.inr h.2⟩)]
    exact hbc.kept p (fun h => hp ⟨h.1, Or.inl h.2⟩)

/-- Deleting a file unlinks it. -/
theorem unlinked_delete (dir : Dir) (name : String) (files : Files Dir) :
    Unlinked dir (fun n => n = name) (files.delete (dir, name)) files where
  absent := by
    rintro _ rfl
    rw [OrderedMap.get_delete, if_pos rfl]
  kept := by
    intro p hp
    rw [OrderedMap.get_delete, if_neg]
    intro h
    exact hp ⟨(congrArg Prod.fst h).symm, (congrArg Prod.snd h).symm⟩

/-- A file survives exactly when it is not among the names that go, or was not there. -/
theorem Unlinked.kept_iff {dir : Dir} {gone : String → Prop} {files' files : Files Dir}
    (h : Unlinked dir gone files' files) (name : String) :
    files'.get (dir, name) = files.get (dir, name)
      ↔ (gone name → files.has (dir, name) = false) := by
  rw [OrderedMap.has_eq_false_iff]
  constructor
  · intro hsame hg
    rw [← hsame]
    exact h.absent name hg
  · intro hnone
    by_cases hg : gone name
    · rw [h.absent name hg, hnone hg]
    · exact h.kept (dir, name) (fun h => hg h.2)

/-- What is still there was there before, and is not among the names that go. -/
theorem Unlinked.has_of {dir : Dir} {gone : String → Prop} {files' files : Files Dir}
    (h : Unlinked dir gone files' files) {p : Path Dir} (hp : files'.has p = true) :
    files.has p = true ∧ ¬ (p.1 = dir ∧ gone p.2) := by
  have hnot : ¬ (p.1 = dir ∧ gone p.2) := by
    rintro ⟨hd, hg⟩
    have hnone : files'.get (dir, p.2) = none := h.absent p.2 hg
    rw [← hd, ← OrderedMap.has_eq_false_iff, hp] at hnone
    exact Bool.false_ne_true hnone.symm
  exact ⟨(has_congr (h.kept p hnot)).symm.trans hp, hnot⟩

/-- Presence after a removal. -/
theorem Unlinked.has_iff {dir : Dir} {gone : String → Prop} {files' files : Files Dir}
    (h : Unlinked dir gone files' files) {name : String} (hg : ¬ gone name) :
    files'.has (dir, name) = files.has (dir, name) :=
  has_congr (h.kept (dir, name) (fun h => hg h.2))

end FileStore
