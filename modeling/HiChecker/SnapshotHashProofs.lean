import HiChecker.TransitionProofs
import Mathlib.Data.List.Infix

/-!
# The snapshot hash and the metadata trailer

An asynchronous raw heap dump ends in the lambda of `DumpRawHeapImpl`, on a thread of
the dump: it **first** posts the result to the JS thread and **then** appends the
metadata to the heap file (`AppendMetaData`). The JS thread, on the message, hashes
the heap file block by block (`getHeapDumpSHA256`) and stores the digest in the
`.jsleaklist` file. `DumpRawHeapSync` appends first.

The machine below interleaves the statements of the two threads. What `fwrite` gives to
the stream reaches the file when the library flushes it, at the latest in `fclose`, so
any split of the trailer over the JS thread's reads is possible.

* **`writing_step`** — the file and the stream together hold the raw heap and what was
  written of the trailer.
* **`snapshot_hash_iff`** — the stored hash is that of the final file exactly when the
  read that ended the hashing came after the last byte of the trailer.
-/

namespace SnapshotHash

open Transition

variable {Digest : Type} (sha256 : List UInt8 → Digest) (rawHeap metaData : List UInt8)

/-- `fwrite(&size, sizeof(size), 1, file)` for a `uint32_t`, on a little-endian machine. -/
def le32 (w : BitVec 32) : List UInt8 :=
  [0, 8, 16, 24].map (fun i => UInt8.ofBitVec ((w >>> i).setWidth 8))

/-- The local `buffSize` of `AppendMetaData`. -/
def buffSize : Nat := 1024

/-- The local `bufSize` of `getHeapDumpSHA256`. -/
def bufSize : Nat := 40960

/-- Where the dump thread is. -/
inductive DumpPc where
  /-- the lambda starts: the raw heap is in the file -/
  | callback
  /-- the message is posted, `AppendMetaData` starts -/
  | appendMetaData
  /-- both files are open and `pos` bytes of the metadata were copied -/
  | copying (rawHeapFileSize metaDataFileSize : BitVec 32) (pos : Nat)
  | rawSizeField (rawHeapFileSize metaDataFileSize : BitVec 32)
  | metaSizeField (metaDataFileSize : BitVec 32)
  | closing
  | done

/-- Where the JS thread is. -/
inductive JsPc (Digest : Type) where
  | waiting
  /-- in the loop of `getHeapDumpSHA256`, with the bytes given to `updateSync` so far -/
  | hashing (updated : List UInt8)
  /-- the `.jsleaklist` file is written -/
  | finished (snapshotHash : Digest)

/-- The heap file, the stream over it, and the two threads. -/
structure Snapshot (Digest : Type) where
  /-- the content of the `.rawheap` file -/
  file : List UInt8
  /-- what `fwrite` was given and the file does not have yet -/
  stream : List UInt8
  dump : DumpPc
  js : JsPc Digest

/-- What can happen next. -/
inductive Input where
  /-- the next statement of the dump thread -/
  | dumpThread
  /-- the library flushes `n` bytes of the stream -/
  | flush (n : Nat)
  /-- the message is delivered -/
  | receive
  /-- a `readSync` of the JS thread returns `n` bytes, zero at the end of the file -/
  | read (n : Nat)

/-- What is seen of the two threads. -/
inductive Event where
  /-- `napi_call_threadsafe_function` -/
  | posted
  /-- a read found the end of the file, `unwritten` bytes before the final one -/
  | closingRead (unwritten : Nat)
deriving DecidableEq

/-- The part of the heap file that `AppendMetaData` adds. -/
def trailer : List UInt8 :=
  metaData ++ le32 (BitVec.ofNat 32 rawHeap.length) ++ le32 (BitVec.ofNat 32 metaData.length)

/-- What the dump thread has yet to bring to the file. -/
def unwritten (s : Snapshot Digest) : Nat :=
  rawHeap.length + (trailer rawHeap metaData).length - s.file.length

/-- One statement of the dump thread. -/
def dumpStep (s : Snapshot Digest) : Option (Snapshot Digest × List Event) :=
  match s.dump with
  | .callback => some ({ s with dump := .appendMetaData }, [.posted])
  | .appendMetaData =>
      -- `GetFileSize` of both files, cast to `uint32_t`, then both `fopen`
      some ({ s with dump := .copying (BitVec.ofNat 32 s.file.length)
                               (BitVec.ofNat 32 metaData.length) 0 }, [])
  | .copying rawHeapFileSize metaDataFileSize pos =>
      let buff := (metaData.drop pos).take buffSize
      if buff ≠ [] then
        some ({ s with stream := s.stream ++ buff
                       dump := .copying rawHeapFileSize metaDataFileSize
                                 (pos + buff.length) }, [])
      else some ({ s with dump := .rawSizeField rawHeapFileSize metaDataFileSize }, [])
  | .rawSizeField rawHeapFileSize metaDataFileSize =>
      some ({ s with stream := s.stream ++ le32 rawHeapFileSize
                     dump := .metaSizeField metaDataFileSize }, [])
  | .metaSizeField metaDataFileSize =>
      some ({ s with stream := s.stream ++ le32 metaDataFileSize, dump := .closing }, [])
  | .closing => some ({ s with file := s.file ++ s.stream, stream := [], dump := .done }, [])
  | .done => none

/-- A `readSync` at the offset reached, which returns `n` bytes. -/
def readStep (n : Nat) (s : Snapshot Digest) : Option (Snapshot Digest × List Event) :=
  match s.js with
  | .hashing updated =>
      let rest := s.file.drop updated.length
      if rest = [] then
        if n = 0 then
          some ({ s with js := .finished (sha256 updated) },
            [.closingRead (unwritten rawHeap metaData s)])
        else none
      else if 0 < n ∧ n ≤ bufSize ∧ n ≤ rest.length then
        some ({ s with js := .hashing (updated ++ rest.take n) }, [])
      else none
  | _ => none

/-- One step of either thread, or of the library. -/
def step (s : Snapshot Digest) : Input → Option (Snapshot Digest × List Event)
  | .dumpThread => dumpStep metaData s
  | .flush n =>
      some ({ s with file := s.file ++ s.stream.take n, stream := s.stream.drop n }, [])
  | .receive =>
      match s.dump, s.js with
      | .callback, _ => none
      | _, .waiting => some ({ s with js := .hashing [] }, [])
      | _, _ => none
  | .read n => readStep sha256 rawHeap metaData n s

/-- The two threads, from the start of the dump's callback. -/
def snapshots : Machine (Snapshot Digest) Input Event :=
  ⟨{ file := rawHeap, stream := [], dump := .callback, js := .waiting },
    step sha256 rawHeap metaData⟩

-- ── The dump thread ───────────────────────────────────────────────────────────────

/-- What the dump thread has given to the stream, by where it is. -/
inductive Writing : DumpPc → List UInt8 → List UInt8 → Prop where
  | callback : Writing .callback [] []
  | appendMetaData : Writing .appendMetaData [] []
  | copying {stream : List UInt8} (pos : Nat) :
      Writing (.copying (BitVec.ofNat 32 rawHeap.length) (BitVec.ofNat 32 metaData.length) pos)
        stream (metaData.take pos)
  | rawSizeField {stream : List UInt8} :
      Writing (.rawSizeField (BitVec.ofNat 32 rawHeap.length)
        (BitVec.ofNat 32 metaData.length)) stream metaData
  | metaSizeField {stream : List UInt8} :
      Writing (.metaSizeField (BitVec.ofNat 32 metaData.length)) stream
        (metaData ++ le32 (BitVec.ofNat 32 rawHeap.length))
  | closing {stream : List UInt8} : Writing .closing stream (trailer rawHeap metaData)
  | done : Writing .done [] (trailer rawHeap metaData)

variable {rawHeap metaData}

/-- Flushing takes bytes out of the stream and changes nothing else. -/
theorem Writing.drop {pc : DumpPc} {stream bytes : List UInt8}
    (h : Writing rawHeap metaData pc stream bytes) (n : Nat) :
    Writing rawHeap metaData pc (stream.drop n) bytes := by
  cases h with
  | callback => rw [List.drop_nil]; exact .callback
  | appendMetaData => rw [List.drop_nil]; exact .appendMetaData
  | copying pos => exact .copying pos
  | rawSizeField => exact .rawSizeField
  | metaSizeField => exact .metaSizeField
  | closing => exact .closing
  | done => rw [List.drop_nil]; exact .done

/-- What was written is the start of the trailer. -/
theorem Writing.isPrefix {pc : DumpPc} {stream bytes : List UInt8}
    (h : Writing rawHeap metaData pc stream bytes) : bytes <+: trailer rawHeap metaData := by
  have hmeta : metaData <+: trailer rawHeap metaData := by
    show metaData <+: metaData ++ _ ++ _
    rw [List.append_assoc]
    exact List.prefix_append _ _
  cases h with
  | callback => exact List.nil_prefix
  | appendMetaData => exact List.nil_prefix
  | copying pos => exact (List.take_prefix pos metaData).trans hmeta
  | rawSizeField => exact hmeta
  | metaSizeField => exact List.prefix_append _ _
  | closing => exact List.prefix_rfl
  | done => exact List.prefix_rfl

/-- A block read at `pos` extends what was read up to there. -/
theorem take_append_block (xs : List UInt8) (pos n : Nat) :
    xs.take pos ++ (xs.drop pos).take n
      = xs.take (pos + ((xs.drop pos).take n).length) := by
  have hblock : (xs.drop pos).take n
      = (xs.drop pos).take ((xs.drop pos).take n).length :=
    List.prefix_iff_eq_take.mp (List.take_prefix n (xs.drop pos))
  rw [List.take_add, ← hblock]

/-- File and stream together hold the raw heap and what was written of the trailer. -/
def Written (rawHeap metaData : List UInt8) (s : Snapshot Digest) : Prop :=
  ∃ bytes, Writing rawHeap metaData s.dump s.stream bytes ∧ s.file ++ s.stream = rawHeap ++ bytes

/-- **One statement of the dump thread** keeps that, only appends to the file, and leaves
    the JS thread alone. -/
theorem dumpStep_spec {s s' : Snapshot Digest} {es : List Event}
    (hw : Written rawHeap metaData s) (hs : dumpStep metaData s = some (s', es)) :
    Written rawHeap metaData s' ∧ s.file <+: s'.file ∧ s'.js = s.js
      ∧ (es = [] ∨ es = [.posted]) := by
  obtain ⟨bytes, hwriting, hfile⟩ := hw
  obtain ⟨file, stream, dump, js⟩ := s
  have hfile' : file ++ stream = rawHeap ++ bytes := hfile
  cases hwriting with
  | callback =>
      obtain ⟨rfl, rfl⟩ := Prod.mk.inj (Option.some.inj hs)
      exact ⟨⟨_, .appendMetaData, hfile⟩, List.prefix_rfl, rfl, Or.inr rfl⟩
  | appendMetaData =>
      obtain ⟨rfl, rfl⟩ := Prod.mk.inj (Option.some.inj hs)
      rw [List.append_nil, List.append_nil] at hfile'
      obtain rfl := hfile'
      refine ⟨⟨_, .copying 0, ?_⟩, List.prefix_rfl, rfl, Or.inl rfl⟩
      rw [List.take_zero]
  | copying pos =>
      by_cases hbuff : (metaData.drop pos).take buffSize = []
      · have hstep := (if_neg (not_not_intro hbuff)).symm.trans hs
        obtain ⟨rfl, rfl⟩ := Prod.mk.inj (Option.some.inj hstep)
        refine ⟨⟨_, .rawSizeField, ?_⟩, List.prefix_rfl, rfl, Or.inl rfl⟩
        -- nothing is left to copy, so everything was copied
        have hpos : metaData.length ≤ pos := by
          rcases List.take_eq_nil_iff.mp hbuff with h | h
          · exact absurd h (by decide)
          · exact List.drop_eq_nil_iff.mp h
        rw [List.take_of_length_le hpos] at hfile'
        exact hfile'
      · have hstep := (if_pos hbuff).symm.trans hs
        obtain ⟨rfl, rfl⟩ := Prod.mk.inj (Option.some.inj hstep)
        refine ⟨⟨_, .copying _, ?_⟩, List.prefix_rfl, rfl, Or.inl rfl⟩
        show file ++ (stream ++ (metaData.drop pos).take buffSize) = _
        rw [← List.append_assoc, hfile', List.append_assoc, take_append_block]
  | rawSizeField =>
      obtain ⟨rfl, rfl⟩ := Prod.mk.inj (Option.some.inj hs)
      refine ⟨⟨_, .metaSizeField, ?_⟩, List.prefix_rfl, rfl, Or.inl rfl⟩
      show file ++ (stream ++ _) = _
      rw [← List.append_assoc, hfile', List.append_assoc]
  | metaSizeField =>
      obtain ⟨rfl, rfl⟩ := Prod.mk.inj (Option.some.inj hs)
      refine ⟨⟨_, .closing, ?_⟩, List.prefix_rfl, rfl, Or.inl rfl⟩
      show file ++ (stream ++ _) = _
      rw [← List.append_assoc, hfile', List.append_assoc]
      rfl
  | closing =>
      obtain ⟨rfl, rfl⟩ := Prod.mk.inj (Option.some.inj hs)
      refine ⟨⟨_, .done, ?_⟩, List.prefix_append _ _, rfl, Or.inl rfl⟩
      show (file ++ stream) ++ [] = _
      rw [List.append_nil]
      exact hfile'
  | done => exact nomatch hs

/-- The message starts the hashing, once. -/
theorem receive_cases {s s' : Snapshot Digest} {es : List Event}
    (hs : step sha256 rawHeap metaData s .receive = some (s', es)) :
    s.js = .waiting ∧ s' = { s with js := .hashing [] } ∧ es = [] := by
  obtain ⟨file, stream, dump, js⟩ := s
  cases js with
  | waiting =>
      cases dump with
      | callback => exact nomatch hs
      | appendMetaData | copying | rawSizeField | metaSizeField | closing | done =>
          obtain ⟨rfl, rfl⟩ := Prod.mk.inj (Option.some.inj hs)
          exact ⟨rfl, rfl, rfl⟩
  | hashing updated => cases dump <;> exact nomatch hs
  | finished snapshotHash => cases dump <;> exact nomatch hs

/-- A read takes a block of the file, or finds its end and finishes. -/
theorem readStep_cases {n : Nat} {s s' : Snapshot Digest} {es : List Event}
    (hs : readStep sha256 rawHeap metaData n s = some (s', es)) :
    ∃ updated, s.js = .hashing updated ∧
      ((s.file.drop updated.length = [] ∧ s' = { s with js := .finished (sha256 updated) }
          ∧ es = [.closingRead (unwritten rawHeap metaData s)])
        ∨ (s' = { s with js := .hashing (updated ++ (s.file.drop updated.length).take n) }
          ∧ es = [])) := by
  obtain ⟨file, stream, dump, js⟩ := s
  cases js with
  | waiting => exact nomatch hs
  | finished snapshotHash => exact nomatch hs
  | hashing updated =>
      refine ⟨updated, rfl, ?_⟩
      by_cases hend : file.drop updated.length = []
      · have hs := (if_pos hend).symm.trans hs
        by_cases hn : n = 0
        · obtain ⟨rfl, rfl⟩ := Prod.mk.inj (Option.some.inj ((if_pos hn).symm.trans hs))
          exact Or.inl ⟨hend, rfl, rfl⟩
        · exact nomatch (if_neg hn).symm.trans hs
      · have hs := (if_neg hend).symm.trans hs
        by_cases hn : 0 < n ∧ n ≤ bufSize ∧ n ≤ (file.drop updated.length).length
        · obtain ⟨rfl, rfl⟩ := Prod.mk.inj (Option.some.inj ((if_pos hn).symm.trans hs))
          exact Or.inr ⟨rfl, rfl⟩
        · exact nomatch (if_neg hn).symm.trans hs

/-- **Every step** keeps it, and only appends to the file. -/
theorem writing_step {s s' : Snapshot Digest} {a : Input} {es : List Event}
    (hw : Written rawHeap metaData s)
    (hs : step sha256 rawHeap metaData s a = some (s', es)) :
    Written rawHeap metaData s' ∧ s.file <+: s'.file := by
  cases a with
  | dumpThread =>
      obtain ⟨hw', hfile, -, -⟩ := dumpStep_spec hw hs
      exact ⟨hw', hfile⟩
  | flush n =>
      obtain ⟨rfl, rfl⟩ := Prod.mk.inj (Option.some.inj hs)
      obtain ⟨bytes, hwriting, hfile⟩ := hw
      refine ⟨⟨bytes, hwriting.drop n, ?_⟩, List.prefix_append _ _⟩
      show (s.file ++ s.stream.take n) ++ s.stream.drop n = _
      rw [List.append_assoc, List.take_append_drop]
      exact hfile
  | receive =>
      obtain ⟨-, rfl, -⟩ := receive_cases sha256 hs
      exact ⟨hw, List.prefix_rfl⟩
  | read n =>
      obtain ⟨updated, -, ⟨-, rfl, -⟩ | ⟨rfl, -⟩⟩ := readStep_cases sha256 hs
      · exact ⟨hw, List.prefix_rfl⟩
      · exact ⟨hw, List.prefix_rfl⟩

/-- The final file, once the dump thread is done. -/
theorem Written.file_of_done {s : Snapshot Digest} (hw : Written rawHeap metaData s)
    (hd : s.dump = .done) : s.file = rawHeap ++ trailer rawHeap metaData := by
  obtain ⟨bytes, hwriting, hfile⟩ := hw
  rw [hd] at hwriting
  generalize hstream : s.stream = stream at hwriting hfile
  cases hwriting with
  | done =>
      rw [List.append_nil] at hfile
      exact hfile

/-- Until then the file is the start of it. -/
theorem Written.file_prefix {s : Snapshot Digest} (hw : Written rawHeap metaData s) :
    s.file <+: rawHeap ++ trailer rawHeap metaData := by
  obtain ⟨bytes, hwriting, hfile⟩ := hw
  have hstream : s.file <+: rawHeap ++ bytes := by
    rw [← hfile]
    exact List.prefix_append _ _
  exact hstream.trans ((List.prefix_append_right_inj rawHeap).mpr hwriting.isPrefix)

-- ── The JS thread ─────────────────────────────────────────────────────────────────

/-- The closing reads of a trace, by what the file still lacked. -/
def closingReads (tr : List Event) : List Nat :=
  tr.filterMap (fun e => match e with
    | .closingRead n => some n
    | .posted => none)

/-- What the JS thread has hashed, by where it is. -/
inductive Hashing (total : Nat) (file : List UInt8) : JsPc Digest → List Nat → Prop where
  | waiting : Hashing total file .waiting []
  | hashing {updated : List UInt8} (sofar : updated <+: file) :
      Hashing total file (.hashing updated) []
  | finished {updated : List UInt8} {unwritten : Nat} (sofar : updated <+: file)
      (left : updated.length + unwritten = total) :
      Hashing total file (.finished (sha256 updated)) [unwritten]

variable {sha256}

/-- A file that grows keeps what was hashed a start of it. -/
theorem Hashing.mono {total : Nat} {file file' : List UInt8} {js : JsPc Digest}
    {closing : List Nat} (h : Hashing sha256 total file js closing) (hf : file <+: file') :
    Hashing sha256 total file' js closing := by
  cases h with
  | waiting => exact .waiting
  | hashing sofar => exact .hashing (sofar.trans hf)
  | finished sofar left => exact .finished (sofar.trans hf) left

/-- A block read where the hashing stands extends what was hashed. -/
theorem prefix_append_block {updated file : List UInt8} (h : updated <+: file) (n : Nat) :
    updated ++ (file.drop updated.length).take n <+: file := by
  have hblock : updated ++ file.drop updated.length = file := by
    obtain ⟨rest, hrest⟩ := h
    rw [← hrest, List.drop_left]
  have hext : updated ++ (file.drop updated.length).take n
      <+: updated ++ file.drop updated.length :=
    (List.prefix_append_right_inj updated).mpr (List.take_prefix n _)
  rw [hblock] at hext
  exact hext

/-- At the end of the file, what was hashed and what is unwritten make up the final file. -/
theorem length_add_unwritten {s : Snapshot Digest} (hw : Written rawHeap metaData s)
    {updated : List UInt8} (h : updated <+: s.file) (hend : s.file.drop updated.length = []) :
    updated.length + unwritten rawHeap metaData s
      = rawHeap.length + (trailer rawHeap metaData).length := by
  have hlen : s.file.length ≤ updated.length := List.drop_eq_nil_iff.mp hend
  have hle : updated.length ≤ s.file.length := h.length_le
  have hfile := hw.file_prefix.length_le
  rw [List.length_append] at hfile
  show updated.length
    + (rawHeap.length + (trailer rawHeap metaData).length - s.file.length) = _
  omega

/-- **The step lemma** of the JS thread. -/
theorem hashing_step {s s' : Snapshot Digest} {tr : List Event} {a : Input}
    {es : List Event} (hw : Written rawHeap metaData s)
    (hh : Hashing sha256 (rawHeap.length + (trailer rawHeap metaData).length) s.file s.js
      (closingReads tr))
    (hs : step sha256 rawHeap metaData s a = some (s', es)) :
    Hashing sha256 (rawHeap.length + (trailer rawHeap metaData).length) s'.file s'.js
      (closingReads (tr ++ es)) := by
  have happend : closingReads (tr ++ es) = closingReads tr ++ closingReads es :=
    List.filterMap_append
  rw [happend]
  cases a with
  | dumpThread =>
      obtain ⟨-, hfile, hjs, hes⟩ := dumpStep_spec hw hs
      have hnone : closingReads es = [] := by
        rcases hes with rfl | rfl
        · rfl
        · rfl
      rw [hnone, List.append_nil, hjs]
      exact hh.mono hfile
  | flush n =>
      obtain ⟨rfl, rfl⟩ := Prod.mk.inj (Option.some.inj hs)
      show Hashing _ _ _ _ (closingReads tr ++ [])
      rw [List.append_nil]
      exact hh.mono (List.prefix_append _ _)
  | receive =>
      obtain ⟨hjs, rfl, rfl⟩ := receive_cases sha256 hs
      generalize hclosing : closingReads tr = closing at hh ⊢
      rw [hjs] at hh
      cases hh with
      | waiting => exact .hashing List.nil_prefix
  | read n =>
      obtain ⟨updated, hjs, hcases⟩ := readStep_cases sha256 hs
      generalize hclosing : closingReads tr = closing at hh ⊢
      rw [hjs] at hh
      cases hh with
      | hashing sofar =>
          rcases hcases with ⟨hend, rfl, rfl⟩ | ⟨rfl, rfl⟩
          · exact .finished sofar (length_add_unwritten hw sofar hend)
          · exact .hashing (prefix_append_block sofar n)

/-- **The stored hash is that of the final file** exactly when the read that ended the
    hashing found the trailer complete: for every raw heap, every metadata, every
    interleaving of the two threads, and every injective digest. -/
theorem snapshot_hash_iff (hsha : Function.Injective sha256) {s : Snapshot Digest}
    {tr : List Event} {snapshotHash : Digest}
    (hr : Run (snapshots sha256 rawHeap metaData) anyStep s tr) (hdump : s.dump = .done)
    (hjs : s.js = .finished snapshotHash) :
    snapshotHash = sha256 s.file ↔ closingReads tr = [0] := by
  have hI : Written rawHeap metaData s
      ∧ Hashing sha256 (rawHeap.length + (trailer rawHeap metaData).length) s.file s.js
          (closingReads tr) := by
    refine Run.invariant (I := fun s tr => Written rawHeap metaData s
      ∧ Hashing sha256 (rawHeap.length + (trailer rawHeap metaData).length) s.file s.js
          (closingReads tr)) ⟨⟨[], .callback, ?_⟩, .waiting⟩ ?_ hr
    · rfl
    · intro s tr a s' es hI _ hs
      exact ⟨(writing_step sha256 hI.1 hs).1, hashing_step hI.1 hI.2 hs⟩
  obtain ⟨hw, hh⟩ := hI
  have hfile : s.file = rawHeap ++ trailer rawHeap metaData := hw.file_of_done hdump
  have hlength : s.file.length = rawHeap.length + (trailer rawHeap metaData).length := by
    rw [hfile, List.length_append]
  generalize closingReads tr = closing at hh ⊢
  rw [hjs] at hh
  cases hh with
  | @finished updated unwritten sofar left =>
      constructor
      · intro hsame
        have hupdated : updated = s.file := hsha hsame
        rw [hupdated, hlength] at left
        have hzero : unwritten = 0 := by omega
        rw [hzero]
      · intro hzero
        obtain rfl : unwritten = 0 := List.singleton_inj.mp hzero
        have hupdated : updated = s.file := sofar.eq_of_length (by omega)
        rw [hupdated]

/-- The dump thread from start to end: post, open, copy one block, find the end of the
    metadata, both sizes, close. -/
def wholeDump : List Input := List.replicate 7 .dumpThread

/-- A message delivered after the trailer is complete. -/
theorem snapshot_hash_iff_late :
    ∃ (s : Snapshot (List UInt8)) (tr : List Event),
      s.dump = .done ∧ s.js = .finished s.file ∧ closingReads tr = [0] := by
  obtain ⟨p, hp⟩ : ∃ p, exec (snapshots id [1, 2, 3] [7]) anyStep
      (wholeDump ++ [.receive, .read 5, .read 7, .read 0]) = some p := ⟨_, rfl⟩
  obtain ⟨snapshotHash, hjs⟩ : ∃ h, p.1.js = .finished h := by
    obtain rfl := Option.some.inj hp
    exact ⟨_, rfl⟩
  have hdone : p.1.dump = .done ∧ closingReads p.2 = [0] := by
    obtain rfl := Option.some.inj hp
    exact ⟨rfl, rfl⟩
  have hhash : snapshotHash = id p.1.file :=
    (snapshot_hash_iff Function.injective_id (run_of_exec hp) hdone.1 hjs).mpr hdone.2
  refine ⟨p.1, p.2, hdone.1, ?_, hdone.2⟩
  rw [hjs, hhash]
  rfl

/-- A message delivered at once: the JS thread hashes the bare raw heap, and the trailer
    comes after. -/
theorem snapshot_hash_stale :
    ¬ ∀ (Digest : Type) (sha256 : List UInt8 → Digest), Function.Injective sha256 →
      ∀ (rawHeap metaData : List UInt8) (s : Snapshot Digest) (tr : List Event)
        (snapshotHash : Digest), Run (snapshots sha256 rawHeap metaData) anyStep s tr →
        s.dump = .done → s.js = .finished snapshotHash → snapshotHash = sha256 s.file := by
  intro h
  obtain ⟨p, hp⟩ : ∃ p, exec (snapshots id [1, 2, 3] [7]) anyStep
      ([.dumpThread, .receive, .read 3, .read 0] ++ wholeDump.drop 1) = some p := ⟨_, rfl⟩
  have hp' : p.1.dump = .done ∧ p.1.js = .finished [1, 2, 3] ∧ p.1.file.length = 12 := by
    obtain rfl := Option.some.inj hp
    exact ⟨rfl, rfl, rfl⟩
  have hhash := h (List UInt8) id Function.injective_id [1, 2, 3] [7] p.1 p.2 [1, 2, 3]
    (run_of_exec hp) hp'.1 hp'.2.1
  have hlen : p.1.file.length = 3 := congrArg List.length hhash.symm
  omega

end SnapshotHash
