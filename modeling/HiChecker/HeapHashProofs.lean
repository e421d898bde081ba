import HiChecker.DumpIdentityProofs
import HiChecker.StreamCopyProofs

/-!
# The hash of a heap file

`getHeapDumpSHA256` reads the heap file into one buffer, again and again, and gives the
front of the buffer to the digest, as many bytes as the read has returned. A read may
return fewer bytes than are left; what the buffer had behind them stays there.

* **`encode`**, **`decode`** — bytes as upper-case hexadecimal digits, two a byte, and the reader
  of such texts; **`decode_encode`**: what is written is read back.
* **`pad_toDigits`** — the usual way to write a byte, by its shortest numeral with a zero put
  before it where that has one digit, gives the same two digits.
* **`Schedule`** — how many bytes each read is ready to return.
* **`loop`** — the loop with its buffer, its offset and the digest object.
* **`Reading`** — the digest has the file up to the offset, and the front of the buffer is
  what follows there.
* **`getHeapDumpSHA256_reads_file`** — the loop ends, the blocks are the file, and the
  text is the digest of the file in upper-case hexadecimal digits.
* **`getHeapDumpSHA256_refines`** — the function that the dumps use, which joins the
  blocks at once, returns the same text.
-/

-- ── Hexadecimal digits ────────────────────────────────────────────────────────────

namespace HexCodeLib

/-- The sixteen digits. -/
def digits : List Char :=
  ['0', '1', '2', '3', '4', '5', '6', '7', '8', '9', 'A', 'B', 'C', 'D', 'E', 'F']

/-- The digit of a value below sixteen. -/
def digit (n : Nat) : Char := digits.getD n '0'

/-- The value of a digit. -/
def value (c : Char) : Option Nat := digits.idxOf? c

/-- The two digits of a byte. -/
def encodeByte (byte : UInt8) : List Char :=
  [digit (byte.toNat / 16), digit (byte.toNat % 16)]

/-- Two digits for each byte. -/
def encode (bytes : List UInt8) : List Char := bytes.flatMap encodeByte

/-- `none` for a text that has an odd length or another character in it. -/
def decode : List Char → Option (List UInt8)
  | [] => some []
  | [_] => none
  | high :: low :: rest =>
      match value high, value low, decode rest with
      | some h, some l, some bytes => some (UInt8.ofNat (16 * h + l) :: bytes)
      | _, _, _ => none

theorem value_digit {n : Nat} (h : n < 16) : value (digit n) = some n := by
  have hall : ∀ i : Fin 16, value (digit i) = some i.val := by decide
  exact hall ⟨n, h⟩

/-- **What is written is read back.** -/
theorem decode_encode (bytes : List UInt8) : decode (encode bytes) = some bytes := by
  induction bytes with
  | nil => rfl
  | cons byte bytes ih =>
      have hbyte : byte.toNat < 256 := byte.toNat_lt
      have hhigh : value (digit (byte.toNat / 16)) = some (byte.toNat / 16) :=
        value_digit (by omega)
      have hlow : value (digit (byte.toNat % 16)) = some (byte.toNat % 16) :=
        value_digit (by omega)
      have hjoin : UInt8.ofNat (16 * (byte.toNat / 16) + byte.toNat % 16) = byte := by
        rw [Nat.div_add_mod, UInt8.ofNat_toNat]
      show decode (digit (byte.toNat / 16) :: digit (byte.toNat % 16) :: encode bytes) = _
      simp only [decode, hhigh, hlow, ih, hjoin]

theorem length_encode (bytes : List UInt8) : (encode bytes).length = 2 * bytes.length := by
  induction bytes with
  | nil => rfl
  | cons byte bytes ih =>
      rw [encode, List.flatMap_cons, List.length_append, ← encode, ih, List.length_cons]
      show 2 + 2 * bytes.length = 2 * (bytes.length + 1)
      omega

/-- The numeral's own digits are these, in lower case. -/
theorem toUpper_digitChar {n : Nat} (h : n < 16) : n.digitChar.toUpper = digit n := by
  have hall : ∀ i : Fin 16, i.val.digitChar.toUpper = digit i := by decide
  exact hall ⟨n, h⟩

/-- The last two characters of the numeral with a zero before it. -/
theorem pad_toDigits {n : Nat} (h : n < 256) :
    (('0' :: Nat.toDigits 16 n).drop (('0' :: Nat.toDigits 16 n).length - 2)).map Char.toUpper
      = [digit (n / 16), digit (n % 16)] := by
  by_cases hsmall : n < 16
  · rw [Nat.toDigits_of_lt_base hsmall, Nat.div_eq_of_lt hsmall, Nat.mod_eq_of_lt hsmall,
      ← toUpper_digitChar hsmall]
    rfl
  · have hhigh : n / 16 < 16 := by omega
    rw [Nat.toDigits_of_base_le (by omega) (by omega), Nat.toDigits_of_lt_base hhigh,
      ← toUpper_digitChar hhigh, ← toUpper_digitChar (Nat.mod_lt n (by omega))]
    rfl

end HexCodeLib

namespace HeapHash

open DumpFile FileStore HexCodeLib

-- ── The loop ──────────────────────────────────────────────────────────────────────

/-- The buffer of the loop. -/
def bufSize : Nat := 40960

/-- The number of bytes that the `k`-th read is ready to return at an offset; a read
    before the end of the file returns one at least. -/
structure Schedule where
  ready : Nat → Nat → Nat
  ready_pos : ∀ k offset, 0 < ready k offset

/-- `fs.readSync(fd, buf, { offset, length })`: the buffer afterwards, and the number of
    bytes read. Behind these the buffer keeps what it had. -/
def readSync (sched : Schedule) (file : List UInt8) (k offset length : Nat)
    (buf : List UInt8) : List UInt8 × Nat :=
  let block := StreamCopyLib.read (sched.ready k offset) length (file.drop offset)
  (block ++ buf.drop block.length, block.length)

/-- The locals of `getHeapDumpSHA256`. -/
structure Hashing where
  /-- the digest object: the blocks given to `updateSync`, in order -/
  md : List (List UInt8)
  readSize : Nat
  buf : List UInt8
  readLen : Nat
  /-- the number of reads made -/
  reads : Nat

variable (sched : Schedule) (file : List UInt8)

/-- Up to the loop. -/
def start : Hashing :=
  let read := readSync sched file 0 0 bufSize (List.replicate bufSize 0)
  { md := [], readSize := 0, buf := read.1, readLen := read.2, reads := 1 }

/-- One pass through the body. -/
def iterate (s : Hashing) : Hashing :=
  let readSize := s.readSize + s.readLen
  let read := readSync sched file s.reads readSize bufSize s.buf
  { md := s.md ++ [s.buf.take s.readLen], readSize := readSize, buf := read.1,
    readLen := read.2, reads := s.reads + 1 }

/-- `while (readLen > 0)`; `none` when the fuel does not last. -/
def loop : Nat → Hashing → Option Hashing
  | 0, _ => none
  | fuel + 1, s => if 0 < s.readLen then loop fuel (iterate sched file s) else some s

/-- The blocks given to `updateSync`, and the text returned. -/
def getHeapDumpSHA256 (digestSync : List (List UInt8) → List UInt8) (fuel : Nat) :
    Option (List (List UInt8) × String) :=
  (loop sched file fuel (start sched file)).map (fun s => (s.md, toHex (digestSync s.md)))

-- ── What a read leaves ────────────────────────────────────────────────────────────

variable {sched file}

/-- The front of the buffer is what the file has at the offset, and nothing is read only
    at the end of the file. -/
structure Filled (file : List UInt8) (offset : Nat) (read : List UInt8 × Nat) : Prop where
  front : read.1.take read.2 = (file.drop offset).take read.2
  inFile : read.2 ≤ (file.drop offset).length
  inBuffer : read.2 ≤ bufSize
  ends : read.2 = 0 → file.drop offset = []

/-- A read fills the buffer from the offset on. -/
theorem readSync_filled (k offset : Nat) (buf : List UInt8) :
    Filled file offset (readSync sched file k offset bufSize buf) := by
  have hready := sched.ready_pos k offset
  set block := StreamCopyLib.read (sched.ready k offset) bufSize (file.drop offset) with hblock
  have hprefix : block <+: file.drop offset := List.take_prefix _ _
  constructor
  · show (block ++ buf.drop block.length).take block.length = _
    rw [List.take_left]
    exact List.prefix_iff_eq_take.mp hprefix
  · exact hprefix.length_le
  · show block.length ≤ bufSize
    rw [hblock, StreamCopyLib.read, List.length_take]
    omega
  · intro hnone
    have hnil : block = [] := List.length_eq_zero_iff.mp hnone
    rw [hblock, StreamCopyLib.read, List.take_eq_nil_iff] at hnil
    refine hnil.resolve_left ?_
    simp only [bufSize]
    omega

-- ── What holds along the loop ─────────────────────────────────────────────────────

/-- The digest has the file up to the offset, in blocks that a read can return, and the
    last read was made there. -/
structure Reading (file : List UInt8) (s : Hashing) : Prop where
  updated : s.md.flatten = file.take s.readSize
  offset : s.readSize ≤ file.length
  filled : Filled file s.readSize (s.buf, s.readLen)
  blocks : ∀ block ∈ s.md, 1 ≤ block.length ∧ block.length ≤ bufSize

theorem start_reading : Reading file (start sched file) :=
  ⟨rfl, Nat.zero_le _, readSync_filled 0 0 _, fun _ hmem => absurd hmem List.not_mem_nil⟩

/-- The block of a pass is what the file has next. -/
theorem iterate_reading {s : Hashing} (h : Reading file s) (hread : 0 < s.readLen) :
    Reading file (iterate sched file s) := by
  have hfront : s.buf.take s.readLen = (file.drop s.readSize).take s.readLen := h.filled.front
  have hin : s.readLen ≤ (file.drop s.readSize).length := h.filled.inFile
  constructor
  · calc (s.md ++ [s.buf.take s.readLen]).flatten
        = s.md.flatten ++ s.buf.take s.readLen := by
          rw [List.flatten_append, List.flatten_singleton]
      _ = file.take s.readSize ++ (file.drop s.readSize).take s.readLen := by
          rw [h.updated, hfront]
      _ = file.take (s.readSize + s.readLen) := List.take_add.symm
  · show s.readSize + s.readLen ≤ file.length
    have hoffset := h.offset
    rw [List.length_drop] at hin
    omega
  · exact readSync_filled s.reads (s.readSize + s.readLen) s.buf
  · intro block hmem
    rcases List.mem_append.mp hmem with hold | hnew
    · exact h.blocks block hold
    · obtain rfl := List.mem_singleton.mp hnew
      rw [hfront, List.length_take, Nat.min_eq_left hin]
      exact ⟨hread, h.filled.inBuffer⟩

/-- Where the last read returned nothing, the digest has the whole file. -/
theorem flatten_of_ended {s : Hashing} (h : Reading file s) (hread : ¬ 0 < s.readLen) :
    s.md.flatten = file := by
  have hnone : s.readLen = 0 := Nat.eq_zero_of_not_pos hread
  have hrest : file.drop s.readSize = [] := h.filled.ends hnone
  rw [h.updated, List.take_of_length_le (List.drop_eq_nil_iff.mp hrest)]

/-- **The loop ends**: every pass takes the offset on, and the fuel need not exceed what
    is left of the file. -/
theorem loop_ends {s : Hashing} (h : Reading file s) {fuel : Nat}
    (hfuel : file.length < s.readSize + fuel) :
    ∃ t, loop sched file fuel s = some t ∧ Reading file t ∧ ¬ 0 < t.readLen := by
  induction fuel generalizing s with
  | zero =>
      have hoffset := h.offset
      omega
  | succ fuel ih =>
      rw [loop]
      by_cases hread : 0 < s.readLen
      · rw [if_pos hread]
        refine ih (iterate_reading h hread) ?_
        show file.length < s.readSize + s.readLen + fuel
        omega
      · rw [if_neg hread]
        exact ⟨s, rfl, h, hread⟩

-- ── The text ──────────────────────────────────────────────────────────────────────

/-- Every byte has its two digits, a small one with a zero in front. -/
theorem toHex_eq (digest : List UInt8) : toHex digest = String.ofList (encode digest) := by
  rw [toHex, encode, List.map_flatMap]
  refine congrArg String.ofList (List.flatMap_congr ?_)
  intro byte _
  exact pad_toDigits byte.toNat_lt

-- ── The whole file, once ──────────────────────────────────────────────────────────

/-- The digest after successive updates is that of their concatenation. -/
def DigestsConcatenation (digestSync : List (List UInt8) → List UInt8)
    (sha256 : List UInt8 → List UInt8) : Prop :=
  ∀ blocks, digestSync blocks = sha256 blocks.flatten

/-- **The hash covers the file.** For every file and however its reads are cut, the loop
    ends; the blocks given to the digest, each of a size that a read can return, are the
    file; and the text is the digest of the file, two upper-case digits for each byte,
    from which it can be read back. -/
theorem getHeapDumpSHA256_reads_file (sched : Schedule) (file : List UInt8)
    {digestSync : List (List UInt8) → List UInt8} {sha256 : List UInt8 → List UInt8}
    (hdigest : DigestsConcatenation digestSync sha256) {fuel : Nat}
    (hfuel : file.length < fuel) :
    ∃ blocks text, getHeapDumpSHA256 sched file digestSync fuel = some (blocks, text)
      ∧ blocks.flatten = file
      ∧ (∀ block ∈ blocks, 1 ≤ block.length ∧ block.length ≤ bufSize)
      ∧ text = String.ofList (encode (sha256 file))
      ∧ text.length = 2 * (sha256 file).length
      ∧ decode text.toList = some (sha256 file) := by
  have hstart : Reading file (start sched file) := start_reading
  obtain ⟨t, hloop, hreading, hended⟩ := loop_ends hstart (show file.length < 0 + fuel by omega)
  have hflatten : t.md.flatten = file := flatten_of_ended hreading hended
  have htext : toHex (digestSync t.md) = String.ofList (encode (sha256 file)) := by
    rw [toHex_eq, hdigest, hflatten]
  refine ⟨t.md, toHex (digestSync t.md), ?_, hflatten, hreading.blocks, htext, ?_, ?_⟩
  · rw [getHeapDumpSHA256, hloop]
    rfl
  · rw [htext, String.length_ofList, length_encode]
  · rw [htext, String.toList_ofList, decode_encode]

/-- A file of three bytes that is read in two blocks. -/
theorem getHeapDumpSHA256_reads_file_seven :
    ∃ text, getHeapDumpSHA256 ⟨fun _ _ => 2, fun _ _ => Nat.two_pos⟩ [7, 8, 9]
        (fun blocks => DumpIdentity.digestOf blocks.flatten) 4 = some ([[7, 8], [9]], text)
      ∧ decode text.toList = some (DumpIdentity.digestOf [7, 8, 9]) := by
  have hdigest : DigestsConcatenation (fun blocks => DumpIdentity.digestOf blocks.flatten)
      DumpIdentity.digestOf := fun _ => rfl
  obtain ⟨blocks, text, hreturns, -, -, -, -, hdecode⟩ :=
    getHeapDumpSHA256_reads_file ⟨fun _ _ => 2, fun _ _ => Nat.two_pos⟩ [7, 8, 9] hdigest
      (show [(7 : UInt8), 8, 9].length < 4 from Nat.lt_succ_self 3)
  have hblocks : (getHeapDumpSHA256 ⟨fun _ _ => 2, fun _ _ => Nat.two_pos⟩ [7, 8, 9]
      (fun blocks => DumpIdentity.digestOf blocks.flatten) 4).map Prod.fst
        = some [[7, 8], [9]] := by decide +kernel
  rw [hreturns] at hblocks
  obtain rfl := Option.some.inj hblocks
  exact ⟨text, hreturns, hdecode⟩

-- ── The function of the dumps ─────────────────────────────────────────────────────

/-- The function that the dumps use, which keeps no buffer and joins the blocks at once,
    returns the same text. -/
theorem getHeapDumpSHA256_refines {Dir : Type} [DecidableEq Dir] (host : Host Dir)
    (out : Outside) (p : Path Dir) (files : Files Dir) (sched : Schedule)
    {digestSync : List (List UInt8) → List UInt8}
    (hdigest : DigestsConcatenation digestSync host.sha256) :
    DumpFile.getHeapDumpSHA256 host out p files
      = (files.get p).bind (fun file =>
          (getHeapDumpSHA256 sched file digestSync (file.length + 1)).map Prod.snd) := by
  rw [getHeapDumpSHA256_eq]
  cases files.get p with
  | none => rfl
  | some file =>
      have hstart : Reading file (start sched file) := start_reading
      obtain ⟨t, hloop, hreading, hended⟩ :=
        loop_ends hstart (show file.length < 0 + (file.length + 1) by omega)
      have htext : digestSync t.md = host.sha256 file := by
        rw [hdigest, flatten_of_ended hreading hended]
      rw [Option.map_some, Option.bind_some, getHeapDumpSHA256, hloop, Option.map_some,
        Option.map_some, htext]

end HeapHash
