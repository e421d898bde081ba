import HiChecker.StreamCopyProofs
import HiChecker.SnapshotHashProofs
import Mathlib.Algebra.Group.Nat.Defs

/-!
# The metadata trailer of a heap file

`AppendMetaData` appends the metadata of the runtime to a heap file, and behind it the
sizes of both parts, each in four bytes. It writes through the stream of the heap file,
which passes what it takes on to the file when its buffer is full, or is closed. Every
operation may fail: `stat` and `fopen` on either file, a read of the metadata, a write of a
block or of a size, and the `fclose` behind them, whose result is not looked at.

* **`Operations`** — which of them fail, and how.
* **`appendMetaData_eq`** — the writes are those of the blocks and the two size fields.
* **`trailer_roundTrip_iff`** — a reader gets both parts back exactly when their sizes fit
  into the fields.
* **`all_or_nothing_iff`** — which failures leave the heap file as it was.
-/

namespace AppendMetaData

open StreamCopyLib SnapshotHash

/-- How the operations of a call turn out. -/
structure Operations where
  /-- `stat` succeeds on a file that is there -/
  statTarget : Bool
  statMetaData : Bool
  /-- `fopen(filePath, "ab")` -/
  openTarget : Bool
  /-- `fopen(metaDataPath, "rb")` on a file that is there -/
  openMetaData : Bool
  /-- the number of bytes the `k`-th `fread` is ready to return, zero when it fails -/
  reads : Nat → Nat
  /-- the number of bytes after which the `k`-th `fwrite` fails -/
  writes : Nat → Option Nat
  /-- the number of bytes that the stream passes on to the file during the `k`-th `fwrite` -/
  flushes : Nat → Nat
  /-- `fclose(targetFile)`: the number of bytes after which it fails, the others being lost -/
  fclose : Option Nat

/-- `GetFileSize`: zero for a file that `stat` does not find. -/
def getFileSize (stat : Bool) (file : Option (List UInt8)) : Nat :=
  if stat then
    match file with
    | none => 0
    | some bytes => bytes.length
  else 0

/-- The copy loop: the stream of the target file, and the number of writes made unless one
    failed. -/
def copyLoop (ops : Operations) (metaDataFile : List UInt8) :
    Nat → Nat → Nat → Stream UInt8 → Stream UInt8 × Option Nat
  | 0, k, _, targetFile => (targetFile, some k)
  | fuel + 1, k, pos, targetFile =>
      let buff := read (ops.reads k) buffSize (metaDataFile.drop pos)
      if buff = [] then (targetFile, some k)
      else
        let written := write (ops.writes k) (ops.flushes k) buff targetFile
        if written.2 ≠ buff.length then (written.1, none)
        else copyLoop ops metaDataFile fuel (k + 1) (pos + buff.length) written.1

/-- `AppendMetaData`: the target file afterwards, and the value returned. A size field is
    one element of four bytes, so `fwrite` returns 1 when all four were taken. -/
def appendMetaData (ops : Operations) (target metaData : Option (List UInt8)) :
    Option (List UInt8) × Bool :=
  let rawHeapFileSize := BitVec.ofNat 32 (getFileSize ops.statTarget target)
  let metaDataFileSize := BitVec.ofNat 32 (getFileSize ops.statMetaData metaData)
  if !ops.openTarget then (target, false)
  else
    -- mode "ab" creates a file that is not there
    let targetFile := Stream.ofFile (target.getD [])
    match (if ops.openMetaData then metaData else none) with
    | none => (some (close ops.fclose targetFile), false)
    | some metaDataFile =>
        let copied := copyLoop ops metaDataFile (metaDataFile.length + 1) 0 0 targetFile
        match copied.2 with
        | none => (some (close ops.fclose copied.1), false)
        | some k =>
            let written := write (ops.writes k) (ops.flushes k) (le32 rawHeapFileSize) copied.1
            if written.2 / 4 ≠ 1 then (some (close ops.fclose written.1), false)
            else
              let written := write (ops.writes (k + 1)) (ops.flushes (k + 1))
                (le32 metaDataFileSize) written.1
              if written.2 / 4 ≠ 1 then (some (close ops.fclose written.1), false)
              else (some (close ops.fclose written.1), true)

-- ── The writes of a call ──────────────────────────────────────────────────────────

theorem length_le32 (w : BitVec 32) : (le32 w).length = 4 := rfl

/-- The copy loop writes the blocks it reads. -/
theorem copyLoop_eq (ops : Operations) (metaDataFile : List UInt8) (fuel k pos : Nat)
    (targetFile : Stream UInt8) :
    copyLoop ops metaDataFile fuel k pos targetFile
      = let copied := blocks ops.reads buffSize metaDataFile fuel k pos
        ((writeAll ops.writes ops.flushes k copied targetFile).1,
          if (writeAll ops.writes ops.flushes k copied targetFile).2 then
            some (k + copied.length)
          else none) := by
  induction fuel generalizing k pos targetFile with
  | zero => rfl
  | succ fuel ih =>
      rw [copyLoop, blocks]
      by_cases hnil : read (ops.reads k) buffSize (metaDataFile.drop pos) = []
      · simp only [if_pos hnil]
        rfl
      · simp only [if_neg hnil]
        by_cases hshort : Short (ops.writes k) (read (ops.reads k) buffSize (metaDataFile.drop pos))
        · rw [if_pos (fun hcount => (write_count_iff _ _ _ _).mp hcount hshort),
            writeAll_cons_short ops.writes ops.flushes hshort]
          rfl
        · rw [if_neg (not_not.mpr ((write_count_iff _ _ _ _).mpr hshort)),
            writeAll_cons_complete ops.writes ops.flushes hshort, ih]
          simp only [List.length_cons, Nat.add_assoc, Nat.add_comm 1]

/-- The write of a size field is complete when `fwrite` returns 1. -/
theorem field_count_iff (limit : Option Nat) (flushed : Nat) (w : BitVec 32)
    (s : Stream UInt8) :
    (write limit flushed (le32 w) s).2 / 4 = 1 ↔ ¬ Short limit (le32 w) := by
  rw [← write_count_iff limit flushed (le32 w) s, length_le32]
  have hle : (write limit flushed (le32 w) s).2 ≤ 4 := by
    cases limit with
    | none => exact le_of_eq (length_le32 w)
    | some n =>
        show ((le32 w).take n).length ≤ 4
        rw [List.length_take]
        exact Nat.min_le_right n _
  omega

/-- The blocks of the metadata that are read. -/
def metaBlocks (ops : Operations) (metaDataFile : List UInt8) : List (List UInt8) :=
  blocks ops.reads buffSize metaDataFile (metaDataFile.length + 1) 0 0

/-- What a call writes, in order: the blocks, and the sizes of the two files. -/
def written (ops : Operations) (target : Option (List UInt8)) (metaDataFile : List UInt8) :
    List (List UInt8) :=
  metaBlocks ops metaDataFile
    ++ [le32 (BitVec.ofNat 32 (getFileSize ops.statTarget target)),
      le32 (BitVec.ofNat 32 (getFileSize ops.statMetaData (some metaDataFile)))]

/-- The two size fields, behind the blocks. -/
theorem writeAll_fields (writes : Nat → Option Nat) (flushes : Nat → Nat) (k : Nat)
    (v w : BitVec 32) (s : Stream UInt8) :
    writeAll writes flushes k [le32 v, le32 w] s
      = let raw := write (writes k) (flushes k) (le32 v) s
        let metaSize := write (writes (k + 1)) (flushes (k + 1)) (le32 w) raw.1
        if raw.2 / 4 ≠ 1 then (raw.1, false)
        else if metaSize.2 / 4 ≠ 1 then (metaSize.1, false)
        else (metaSize.1, true) := by
  by_cases hfirst : Short (writes k) (le32 v)
  · rw [writeAll_cons_short writes flushes hfirst]
    exact (if_pos (fun hcount => (field_count_iff _ _ _ _).mp hcount hfirst)).symm
  · rw [writeAll_cons_complete writes flushes hfirst]
    refine Eq.trans ?_ (if_neg (not_not.mpr ((field_count_iff _ _ _ _).mpr hfirst))).symm
    by_cases hsecond : Short (writes (k + 1)) (le32 w)
    · rw [writeAll_cons_short writes flushes hsecond]
      exact (if_pos (fun hcount => (field_count_iff _ _ _ _).mp hcount hsecond)).symm
    · rw [writeAll_cons_complete writes flushes hsecond]
      exact (if_neg (not_not.mpr ((field_count_iff _ _ _ _).mpr hsecond))).symm

/-- The stream after the writes of a call, and whether all were complete. -/
def afterWrites (ops : Operations) (target : Option (List UInt8)) (metaDataFile : List UInt8) :
    Stream UInt8 × Bool :=
  writeAll ops.writes ops.flushes 0 (written ops target metaDataFile)
    (Stream.ofFile (target.getD []))

/-- **With both files open** a call makes these writes, up to the first one that fails, and
    closes the stream. -/
theorem appendMetaData_eq (ops : Operations) (target : Option (List UInt8))
    (metaDataFile : List UInt8) (htarget : ops.openTarget = true)
    (hmeta : ops.openMetaData = true) :
    appendMetaData ops target (some metaDataFile)
      = (some (close ops.fclose (afterWrites ops target metaDataFile).1),
          (afterWrites ops target metaDataFile).2) := by
  rw [afterWrites, written, writeAll_append, appendMetaData, htarget, hmeta]
  simp only [Bool.not_true, Bool.false_eq_true, if_false, if_true, copyLoop_eq, Nat.zero_add]
  rw [← metaBlocks]
  cases hcopied : (writeAll ops.writes ops.flushes 0 (metaBlocks ops metaDataFile)
      (Stream.ofFile (target.getD []))).2 with
  | false =>
      simp only [Bool.false_eq_true, if_false]
      rw [hcopied]
  | true =>
      simp only [if_true]
      rw [writeAll_fields]
      simp only
      split
      · rfl
      · split
        · rfl
        · rfl

-- ── The round trip ────────────────────────────────────────────────────────────────

/-- Every operation succeeds. -/
structure AllSucceed (ops : Operations) : Prop where
  statTarget : ops.statTarget = true
  statMetaData : ops.statMetaData = true
  openTarget : ops.openTarget = true
  openMetaData : ops.openMetaData = true
  reads : ∀ k, 0 < ops.reads k
  writes : ∀ k, ops.writes k = none
  fclose : ops.fclose = none

/-- The value of bytes in little-endian order. -/
def leValue (bytes : List UInt8) : Nat := bytes.foldr (fun byte rest => byte.toNat + 256 * rest) 0

/-- The values of the last two fields of four bytes. -/
def sizeFields (file : List UInt8) : Nat × Nat :=
  let fields := file.drop (file.length - 8)
  (leValue (fields.take 4), leValue (fields.drop 4))

/-- A reader of the heap file takes the sizes of the two parts from its last eight bytes. -/
def readTrailer (file : List UInt8) : List UInt8 × List UInt8 :=
  let sizes := sizeFields file
  (file.take sizes.1, (file.drop sizes.1).take sizes.2)

/-- The file is the two parts with their true sizes behind them, and a reader gets both
    parts back. -/
structure RoundTrip (rawHeap metaData file : List UInt8) : Prop where
  layout : ∃ rawSize metaSize, file = rawHeap ++ metaData ++ rawSize ++ metaSize
    ∧ rawSize.length = 4 ∧ leValue rawSize = rawHeap.length
    ∧ metaSize.length = 4 ∧ leValue metaSize = metaData.length
  recovered : readTrailer file = (rawHeap, metaData)

theorem leValue_le32 (w : BitVec 32) : leValue (le32 w) = w.toNat := by
  have hlt := w.isLt
  simp only [leValue, le32, List.map_cons, List.map_nil, List.foldr_cons, List.foldr_nil,
    UInt8.toNat_ofBitVec, BitVec.toNat_setWidth, BitVec.toNat_ushiftRight,
    Nat.shiftRight_eq_div_pow]
  omega

/-- A length fits into a field exactly when the field has its value. -/
theorem leValue_length_iff (part : List UInt8) :
    leValue (le32 (BitVec.ofNat 32 part.length)) = part.length ↔ part.length < 2 ^ 32 := by
  rw [leValue_le32, BitVec.toNat_ofNat]
  constructor
  · intro h
    rw [← h]
    exact Nat.mod_lt _ (by decide)
  · exact Nat.mod_eq_of_lt

/-- The fields at the end of a file. -/
theorem sizeFields_append (file : List UInt8) {rawSize metaSize : List UInt8}
    (hraw : rawSize.length = 4) (hmeta : metaSize.length = 4) :
    sizeFields (file ++ rawSize ++ metaSize) = (leValue rawSize, leValue metaSize) := by
  have hlength : (file ++ rawSize ++ metaSize).length - 8 = file.length := by
    rw [List.length_append, List.length_append, hraw, hmeta]
    omega
  rw [sizeFields, hlength, List.append_assoc, List.drop_left, ← hraw, List.take_left,
    List.drop_left]

/-- **With every operation succeeding** the trailer is appended, however much of it waited in
    the stream. -/
theorem appendMetaData_succeeds {ops : Operations} (h : AllSucceed ops)
    (rawHeap metaData : List UInt8) :
    appendMetaData ops (some rawHeap) (some metaData)
      = (some (rawHeap ++ trailer rawHeap metaData), true) := by
  have hcomplete : Complete ops.writes 0 (written ops (some rawHeap) metaData) := by
    rintro i block - ⟨n, hn, -⟩
    exact Option.some_ne_none n (hn.symm.trans (h.writes _))
  have hblocks : (metaBlocks ops metaData).flatten = metaData :=
    flatten_blocks ops.reads buffSize metaData (by decide) h.reads _ 0 0 (by omega)
  have hwritten : (written ops (some rawHeap) metaData).flatten = trailer rawHeap metaData := by
    rw [written, List.flatten_append, hblocks, h.statTarget, h.statMetaData, trailer,
      List.append_assoc]
    rfl
  have hfile : close ops.fclose (afterWrites ops (some rawHeap) metaData).1
      = rawHeap ++ trailer rawHeap metaData := by
    have hcontents := writeAll_complete ops.writes ops.flushes hcomplete
      (Stream.ofFile rawHeap)
    rw [hwritten] at hcontents
    rw [h.fclose]
    exact hcontents.trans (congrArg (· ++ _) (List.append_nil rawHeap))
  rw [appendMetaData_eq ops (some rawHeap) metaData h.openTarget h.openMetaData, hfile]
  exact congrArg (Prod.mk _) ((writeAll_iff ops.writes ops.flushes 0 _ _).mpr hcomplete)

/-- **When the trailer of a heap file round-trips**: for every raw heap and metadata, with
    every operation succeeding and however the reads are cut, the call returns `true`, and
    the trailer gives both parts back exactly when neither has 2³² bytes or more. -/
theorem trailer_roundTrip_iff {ops : Operations} (h : AllSucceed ops)
    (rawHeap metaData : List UInt8) :
    ∃ file, appendMetaData ops (some rawHeap) (some metaData) = (some file, true)
      ∧ (RoundTrip rawHeap metaData file
          ↔ rawHeap.length < 2 ^ 32 ∧ metaData.length < 2 ^ 32) := by
  refine ⟨_, appendMetaData_succeeds h rawHeap metaData, ?_⟩
  let rawSize := le32 (BitVec.ofNat 32 rawHeap.length)
  let metaSize := le32 (BitVec.ofNat 32 metaData.length)
  have hfile : rawHeap ++ trailer rawHeap metaData
      = rawHeap ++ metaData ++ rawSize ++ metaSize := by
    rw [trailer, List.append_assoc, List.append_assoc, List.append_assoc]
  have hfields := sizeFields_append (rawHeap ++ metaData) (length_le32 _ : rawSize.length = 4)
    (length_le32 _ : metaSize.length = 4)
  rw [hfile]
  constructor
  · rintro ⟨⟨rawSize', metaSize', hsame, hrawlen, hraw, hmetalen, hmeta⟩, -⟩
    rw [hsame, sizeFields_append _ hrawlen hmetalen, Prod.mk.injEq, hraw, hmeta] at hfields
    exact ⟨(leValue_length_iff rawHeap).mp hfields.1.symm,
      (leValue_length_iff metaData).mp hfields.2.symm⟩
  · rintro ⟨hraw, hmeta⟩
    have hrawValue : leValue rawSize = rawHeap.length := (leValue_length_iff rawHeap).mpr hraw
    have hmetaValue : leValue metaSize = metaData.length :=
      (leValue_length_iff metaData).mpr hmeta
    refine ⟨⟨rawSize, metaSize, rfl, rfl, hrawValue, rfl, hmetaValue⟩, ?_⟩
    rw [readTrailer, hfields, hrawValue, hmetaValue, List.append_assoc, List.append_assoc,
      List.take_left, List.drop_left, List.take_left]

/-- Operations that succeed, with one byte a read, and nothing passed on before `fclose`. -/
def byteByByte : Operations :=
  { statTarget := true, statMetaData := true, openTarget := true, openMetaData := true,
    reads := fun _ => 1, writes := fun _ => none, flushes := fun _ => 0, fclose := none }

theorem allSucceed_byteByByte : AllSucceed byteByByte :=
  ⟨rfl, rfl, rfl, rfl, fun _ => Nat.one_pos, fun _ => rfl, rfl⟩

theorem trailer_roundTrip_short :
    ∃ file, appendMetaData byteByByte (some [1, 2]) (some [3]) = (some file, true)
      ∧ RoundTrip [1, 2] [3] file := by
  obtain ⟨file, hcall, hround⟩ := trailer_roundTrip_iff allSucceed_byteByByte [1, 2] [3]
  exact ⟨file, hcall, hround.mpr (by decide)⟩

/-- A raw heap of 2³² bytes: its size field is zero. -/
theorem trailer_wraps :
    ¬ ∀ (ops : Operations) (rawHeap metaData file : List UInt8), AllSucceed ops →
        appendMetaData ops (some rawHeap) (some metaData) = (some file, true) →
        RoundTrip rawHeap metaData file := by
  intro h
  let rawHeap : List UInt8 := List.replicate (2 ^ 32) 0
  have hround := h byteByByte rawHeap [] _ allSucceed_byteByByte
    (appendMetaData_succeeds allSucceed_byteByByte rawHeap [])
  obtain ⟨rawSize, metaSize, hfile, hrawlen, hraw, hmetalen, hmeta⟩ := hround.layout
  have hfields := sizeFields_append (rawHeap ++ []) hrawlen hmetalen
  rw [← hfile, trailer, ← List.append_assoc, ← List.append_assoc,
    sizeFields_append _ (length_le32 _) (length_le32 _), Prod.mk.injEq, hraw,
    leValue_length_iff] at hfields
  have hlength : rawHeap.length = 2 ^ 32 := List.length_replicate
  exact absurd hfields.1 (by rw [hlength]; exact Nat.lt_irrefl _)

-- ── All or nothing ────────────────────────────────────────────────────────────────

theorem written_ne_nil (ops : Operations) (target : Option (List UInt8))
    (metaDataFile : List UInt8) : ∀ block ∈ written ops target metaDataFile, block ≠ [] := by
  intro block hmem
  rcases List.mem_append.mp hmem with hblock | hfield
  · exact blocks_ne_nil _ _ _ _ _ _ block hblock
  · rcases List.mem_pair.mp hfield with rfl | rfl
    · exact List.cons_ne_nil _ _
    · exact List.cons_ne_nil _ _

/-- The metadata file that the call gets to read. -/
def opened (ops : Operations) (metaData : Option (List UInt8)) : Option (List UInt8) :=
  if ops.openMetaData then metaData else none

/-- A target that cannot be opened is not touched. -/
theorem appendMetaData_of_not_open {ops : Operations} (h : ops.openTarget = false)
    (target metaData : Option (List UInt8)) :
    appendMetaData ops target metaData = (target, false) := by
  rw [appendMetaData, h]
  rfl

/-- Without the metadata file the target is only created. -/
theorem appendMetaData_of_no_metaData {ops : Operations} (htarget : ops.openTarget = true)
    (target : Option (List UInt8)) {metaData : Option (List UInt8)}
    (hmeta : opened ops metaData = none) :
    appendMetaData ops target metaData = (some (target.getD []), false) := by
  have hclose : close ops.fclose (Stream.ofFile (target.getD [])) = target.getD [] := by
    cases ops.fclose with
    | none => exact List.append_nil _
    | some n => exact (congrArg (_ ++ ·) List.take_nil).trans (List.append_nil _)
  rw [opened] at hmeta
  rw [appendMetaData, htarget, hmeta]
  simp only [Bool.not_true, Bool.false_eq_true, if_false, hclose]

theorem appendMetaData_of_opened {ops : Operations} (htarget : ops.openTarget = true)
    (target : Option (List UInt8)) {metaData : Option (List UInt8)} {metaDataFile : List UInt8}
    (hmeta : opened ops metaData = some metaDataFile) :
    appendMetaData ops target metaData
      = (some (close ops.fclose (afterWrites ops target metaDataFile).1),
          (afterWrites ops target metaDataFile).2) := by
  rw [opened] at hmeta
  by_cases hopen : ops.openMetaData = true
  · obtain rfl : metaData = some metaDataFile := (if_pos hopen).symm.trans hmeta
    exact appendMetaData_eq ops target metaDataFile htarget hopen
  · exact nomatch (if_neg hopen).symm.trans hmeta

/-- The first write takes nothing; or no write that is made passes anything on to the file,
    and neither does `fclose`. -/
def NothingArrives (ops : Operations) (target : Option (List UInt8))
    (metaDataFile : List UInt8) : Prop :=
  ops.writes 0 = some 0
    ∨ (ops.fclose = some 0
        ∧ NoFlush ops.writes ops.flushes 0 (written ops target metaDataFile))

/-- The bytes of the target, none where there is no file: the writes of a call that fails
    leave them as they were when nothing arrives at the file. -/
theorem bytes_unchanged_iff (ops : Operations) (target : Option (List UInt8))
    (metaDataFile : List UInt8) :
    ((afterWrites ops target metaDataFile).2 = false →
        close ops.fclose (afterWrites ops target metaDataFile).1 = target.getD [])
      ↔ Complete ops.writes 0 (written ops target metaDataFile)
        ∨ NothingArrives ops target metaDataFile := by
  have hsuccess := writeAll_iff ops.writes ops.flushes 0 (written ops target metaDataFile)
    (Stream.ofFile (target.getD []))
  by_cases hcomplete : Complete ops.writes 0 (written ops target metaDataFile)
  · have htrue : (afterWrites ops target metaDataFile).2 = true := hsuccess.mpr hcomplete
    exact iff_of_true (fun hfalse => absurd (htrue.symm.trans hfalse) Bool.false_ne_true.symm)
      (Or.inl hcomplete)
  · have hfalse : (afterWrites ops target metaDataFile).2 = false :=
      Bool.not_eq_true _ |>.mp (fun htrue => hcomplete (hsuccess.mp htrue))
    rw [or_iff_right hcomplete, forall_prop_of_true hfalse]
    exact close_unchanged_iff ops.writes ops.flushes ops.fclose 0
      (written_ne_nil ops target metaDataFile) (target.getD []) hcomplete

/-- **When a failed call leaves the heap file as it was**, for every content of both files
    and every pattern of failing operations: the heap file cannot be opened; or no write
    falls short; or there was a heap file, and the call fails before it writes, or at its
    first write with nothing taken, or with nothing of what was taken passed on to the file,
    up to and including `fclose`. -/
theorem all_or_nothing_iff (ops : Operations) (target metaData : Option (List UInt8)) :
    ((appendMetaData ops target metaData).2 = false →
        (appendMetaData ops target metaData).1 = target)
      ↔ ops.openTarget = false
        ∨ (∃ metaDataFile, opened ops metaData = some metaDataFile
            ∧ Complete ops.writes 0 (written ops target metaDataFile))
        ∨ (target ≠ none ∧ ∀ metaDataFile, opened ops metaData = some metaDataFile →
            NothingArrives ops target metaDataFile) := by
  cases htarget : ops.openTarget with
  | false =>
      rw [appendMetaData_of_not_open htarget]
      exact iff_of_true (fun _ => rfl) (Or.inl rfl)
  | true =>
      rw [or_iff_right (fun h => Bool.false_ne_true h.symm)]
      cases hmeta : opened ops metaData with
      | none =>
          rw [appendMetaData_of_no_metaData htarget target hmeta]
          cases target with
          | some file =>
              exact iff_of_true (fun _ => rfl)
                (Or.inr ⟨Option.some_ne_none file, fun _ h => nomatch h⟩)
          | none =>
              -- the file has been created
              refine iff_of_false (fun h => Option.some_ne_none _ (h rfl)) ?_
              rintro (⟨metaDataFile, h, -⟩ | ⟨h, -⟩)
              · exact Option.some_ne_none _ h.symm
              · exact h rfl
      | some metaDataFile =>
          have hbytes := bytes_unchanged_iff ops target metaDataFile
          rw [appendMetaData_of_opened htarget target hmeta]
          simp only [Option.some.injEq, exists_eq_left', forall_eq']
          cases target with
          | some file =>
              simp only [Option.some.injEq, ne_eq, reduceCtorEq, not_false_eq_true, true_and]
              exact hbytes
          | none =>
              -- the file has been created, so only success will do
              have hsuccess := writeAll_iff ops.writes ops.flushes 0
                (written ops none metaDataFile) (Stream.ofFile (Option.getD none []))
              simp only [reduceCtorEq, imp_false, Bool.not_eq_false, ne_eq, not_true_eq_false,
                false_and, or_false]
              exact hsuccess

/-- A buffer of 1024 bytes, and a disk with room for 1000: the first block waits in the
    stream, the second one makes it pass on what it can, and the rest is dropped. -/
def diskFull : Operations :=
  { byteByByte with
    reads := fun _ => 1024
    writes := fun k => if k = 1 then some 0 else none
    flushes := fun k => if k = 1 then 1000 else 0
    fclose := some 0 }

/-- The call returns `false`, and the heap file has the front of the metadata behind it. -/
theorem metaData_left_behind :
    ¬ ∀ (ops : Operations) (target metaData : Option (List UInt8)),
        (appendMetaData ops target metaData).2 = false →
          (appendMetaData ops target metaData).1 = target := by
  intro h
  have hcall : appendMetaData diskFull (some [1]) (some (List.replicate 2048 7))
      = (some (1 :: List.replicate 1000 7), false) := by
    decide +kernel
  have hsame := h diskFull (some [1]) (some (List.replicate 2048 7)) (congrArg Prod.snd hcall)
  rw [hcall] at hsame
  exact absurd (congrArg (Option.map List.length) hsame) (by decide +kernel)

end AppendMetaData
