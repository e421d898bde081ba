import Mathlib.Data.List.Infix

/-!
# Copying in blocks through a stream, with reads and writes that may fail

A source is read block by block, and the blocks go one after another into a stream on a
file. A read returns what it is ready to return, up to the size of the buffer, and nothing
when it fails. What a write takes waits in the buffer of the stream, from which any number of
elements may go on to the file at any write; a write that fails has taken the front of its
block, and no write follows. What waits at the end goes to the file when the stream is
closed, unless that fails.

* **`writeAll`** — the stream after the writes, and whether all of them were complete.
* **`writeAll_complete`** — then the stream has all the blocks.
* **`close_unchanged_iff`** — after a failure the file is what it was exactly when the first
  write took nothing, or nothing of what was taken got past the buffer.
* **`blocks`**, **`flatten_blocks`** — the blocks read; together they are the source when
  no read fails.
-/

namespace StreamCopyLib

variable {α : Type}

-- ── Writing ───────────────────────────────────────────────────────────────────────

/-- A file that is written through a buffer. -/
structure Stream (α : Type) where
  file : List α
  /-- what was taken and has not gone on to the file -/
  pending : List α

/-- A stream that was just opened. -/
def Stream.ofFile (file : List α) : Stream α := { file := file, pending := [] }

/-- What the file has once everything has gone on to it. -/
def Stream.contents (s : Stream α) : List α := s.file ++ s.pending

/-- What a write takes of its block; with a limit it fails once that much is taken. -/
def taken (limit : Option Nat) (block : List α) : List α :=
  match limit with
  | none => block
  | some n => block.take n

/-- The stream after the write of a block, when `flushed` elements go on to the file, and how
    much of the block was taken. -/
def write (limit : Option Nat) (flushed : Nat) (block : List α) (s : Stream α) :
    Stream α × Nat :=
  let waiting := s.pending ++ taken limit block
  ({ file := s.file ++ waiting.take flushed, pending := waiting.drop flushed },
    (taken limit block).length)

/-- The file after the stream was closed; with a limit that much of what was waiting gets to
    the file, and the rest is lost. -/
def close (limit : Option Nat) (s : Stream α) : List α := s.file ++ taken limit s.pending

/-- A write that does not take all of its block. -/
def Short (limit : Option Nat) (block : List α) : Prop := ∃ n, limit = some n ∧ n < block.length

theorem taken_of_complete {limit : Option Nat} {block : List α} (h : ¬ Short limit block) :
    taken limit block = block := by
  cases limit with
  | none => rfl
  | some n => exact List.take_of_length_le (Nat.not_lt.mp (fun hlt => h ⟨n, rfl, hlt⟩))

/-- Nothing is taken of a block when the write fails at once. -/
theorem taken_eq_nil_iff {limit : Option Nat} {block : List α} (hne : block ≠ []) :
    taken limit block = [] ↔ limit = some 0 := by
  cases limit with
  | none => exact iff_of_false hne (fun h => nomatch h)
  | some n =>
      show block.take n = [] ↔ _
      rw [List.take_eq_nil_iff, Option.some.injEq, or_iff_left hne]

/-- The count that a write returns tells whether it was complete. -/
theorem write_count_iff (limit : Option Nat) (flushed : Nat) (block : List α) (s : Stream α) :
    (write limit flushed block s).2 = block.length ↔ ¬ Short limit block := by
  show (taken limit block).length = block.length ↔ _
  constructor
  · rintro hcount ⟨n, rfl, hn⟩
    have hmin : (block.take n).length = block.length := hcount
    rw [List.length_take] at hmin
    omega
  · intro h
    rw [taken_of_complete h]

/-- No write loses what it has taken. -/
theorem contents_write (limit : Option Nat) (flushed : Nat) (block : List α) (s : Stream α) :
    (write limit flushed block s).1.contents = s.contents ++ taken limit block := by
  show s.file ++ (s.pending ++ taken limit block).take flushed
    ++ (s.pending ++ taken limit block).drop flushed = s.file ++ s.pending ++ taken limit block
  rw [List.append_assoc, List.take_append_drop, List.append_assoc]

/-- The writes of several blocks, up to the first one that falls short. -/
def writeAll (limits : Nat → Option Nat) (flushes : Nat → Nat) :
    Nat → List (List α) → Stream α → Stream α × Bool
  | _, [], s => (s, true)
  | k, block :: blocks, s =>
      let written := write (limits k) (flushes k) block s
      if written.2 ≠ block.length then (written.1, false)
      else writeAll limits flushes (k + 1) blocks written.1

variable (limits : Nat → Option Nat) (flushes : Nat → Nat)

theorem writeAll_cons_short {k : Nat} {block : List α} (h : Short (limits k) block)
    (blocks : List (List α)) (s : Stream α) :
    writeAll limits flushes k (block :: blocks) s
      = ((write (limits k) (flushes k) block s).1, false) :=
  if_pos (fun hcount => (write_count_iff _ _ _ s).mp hcount h)

theorem writeAll_cons_complete {k : Nat} {block : List α} (h : ¬ Short (limits k) block)
    (blocks : List (List α)) (s : Stream α) :
    writeAll limits flushes k (block :: blocks) s
      = writeAll limits flushes (k + 1) blocks (write (limits k) (flushes k) block s).1 :=
  if_neg (not_not.mpr ((write_count_iff _ _ _ s).mpr h))

theorem writeAll_append (k : Nat) (blocks more : List (List α)) (s : Stream α) :
    writeAll limits flushes k (blocks ++ more) s
      = if (writeAll limits flushes k blocks s).2 then
          writeAll limits flushes (k + blocks.length) more
            (writeAll limits flushes k blocks s).1
        else writeAll limits flushes k blocks s := by
  induction blocks generalizing k s with
  | nil => rfl
  | cons block blocks ih =>
      by_cases hshort : Short (limits k) block
      · rw [List.cons_append, writeAll_cons_short limits flushes hshort,
          writeAll_cons_short limits flushes hshort]
        rfl
      · rw [List.cons_append, writeAll_cons_complete limits flushes hshort,
          writeAll_cons_complete limits flushes hshort, ih, List.length_cons,
          show k + 1 + blocks.length = k + (blocks.length + 1) by omega]

/-- No write of the blocks falls short, the first one being write `k`. -/
def Complete (k : Nat) (blocks : List (List α)) : Prop :=
  ∀ i block, blocks[i]? = some block → ¬ Short (limits (k + i)) block

theorem complete_cons_iff (k : Nat) (block : List α) (blocks : List (List α)) :
    Complete limits k (block :: blocks)
      ↔ ¬ Short (limits k) block ∧ Complete limits (k + 1) blocks := by
  constructor
  · intro h
    refine ⟨h 0 block rfl, ?_⟩
    intro i b hb
    have hnext := h (i + 1) b hb
    rwa [show k + (i + 1) = k + 1 + i by omega] at hnext
  · rintro ⟨hfirst, hrest⟩ i b hb
    cases i with
    | zero =>
        obtain rfl := Option.some.inj hb
        exact hfirst
    | succ i =>
        rw [show k + (i + 1) = k + 1 + i by omega]
        exact hrest i b hb

/-- **The writes report success** exactly when none falls short. -/
theorem writeAll_iff (k : Nat) (blocks : List (List α)) (s : Stream α) :
    (writeAll limits flushes k blocks s).2 = true ↔ Complete limits k blocks := by
  induction blocks generalizing k s with
  | nil => exact iff_of_true rfl (fun i b hb => nomatch hb)
  | cons block blocks ih =>
      rw [complete_cons_iff]
      by_cases hshort : Short (limits k) block
      · rw [writeAll_cons_short limits flushes hshort]
        exact iff_of_false Bool.false_ne_true (fun h => h.1 hshort)
      · rw [writeAll_cons_complete limits flushes hshort, ih, and_iff_right hshort]

/-- **When they do, the stream has all the blocks.** -/
theorem writeAll_complete {k : Nat} {blocks : List (List α)} (h : Complete limits k blocks)
    (s : Stream α) :
    (writeAll limits flushes k blocks s).1.contents = s.contents ++ blocks.flatten := by
  induction blocks generalizing k s with
  | nil => rw [List.flatten_nil, List.append_nil, writeAll]
  | cons block blocks ih =>
      obtain ⟨hfirst, hrest⟩ := (complete_cons_iff limits k block blocks).mp h
      rw [writeAll_cons_complete limits flushes hfirst, ih hrest, contents_write,
        taken_of_complete hfirst, List.flatten_cons, List.append_assoc]

/-- Whatever fails, what was in the file stays in front. -/
theorem isPrefix_writeAll (k : Nat) (blocks : List (List α)) (s : Stream α) :
    s.file <+: (writeAll limits flushes k blocks s).1.file := by
  induction blocks generalizing k s with
  | nil => exact List.prefix_refl s.file
  | cons block blocks ih =>
      have hfirst : s.file <+: (write (limits k) (flushes k) block s).1.file :=
        List.prefix_append _ _
      by_cases hshort : Short (limits k) block
      · rw [writeAll_cons_short limits flushes hshort]
        exact hfirst
      · rw [writeAll_cons_complete limits flushes hshort]
        exact hfirst.trans (ih (k + 1) _)

-- ── What a failure leaves ─────────────────────────────────────────────────────────

/-- None of the writes that are made passes anything on to the file: the first one does not,
    nor does any other one before which all were complete. -/
def NoFlush (k : Nat) (blocks : List (List α)) : Prop :=
  ∀ i < blocks.length, Complete limits k (blocks.take i) → flushes (k + i) = 0

theorem noFlush_cons_iff (k : Nat) (block : List α) (blocks : List (List α)) :
    NoFlush limits flushes k (block :: blocks)
      ↔ flushes k = 0
        ∧ (¬ Short (limits k) block → NoFlush limits flushes (k + 1) blocks) := by
  constructor
  · intro h
    refine ⟨h 0 (Nat.succ_pos _) (fun i b hb => nomatch hb), ?_⟩
    intro hfirst i hi hcomplete
    have hnext := h (i + 1) (Nat.succ_lt_succ hi)
      ((complete_cons_iff limits k block (blocks.take i)).mpr ⟨hfirst, hcomplete⟩)
    rwa [show k + (i + 1) = k + 1 + i by omega] at hnext
  · rintro ⟨hzero, hrest⟩ i hi hcomplete
    cases i with
    | zero => exact hzero
    | succ i =>
        rw [List.take_succ_cons, complete_cons_iff] at hcomplete
        rw [show k + (i + 1) = k + 1 + i by omega]
        exact hrest hcomplete.1 i (Nat.lt_of_succ_lt_succ hi) hcomplete.2

/-- Something has waited: the file is what it was when none of it went on, at the write or
    when the stream was closed. -/
theorem close_write_iff (limit stop : Option Nat) (flushed : Nat) (block : List α)
    (s : Stream α) (hwaiting : s.pending ++ taken limit block ≠ []) :
    close stop (write limit flushed block s).1 = s.file ↔ stop = some 0 ∧ flushed = 0 := by
  let waiting := s.pending ++ taken limit block
  show s.file ++ waiting.take flushed ++ taken stop (waiting.drop flushed) = s.file ↔ _
  rw [List.append_assoc, List.append_right_eq_self, List.append_eq_nil_iff, List.take_eq_nil_iff,
    or_iff_left hwaiting]
  constructor
  · rintro ⟨hflushed, hstop⟩
    rw [hflushed, List.drop_zero, taken_eq_nil_iff hwaiting] at hstop
    exact ⟨hstop, hflushed⟩
  · rintro ⟨hstop, hflushed⟩
    rw [hflushed, List.drop_zero, taken_eq_nil_iff hwaiting]
    exact ⟨rfl, hstop⟩

/-- The step of `close_unchanged_iff`: something waits from the first write on. -/
theorem close_writeAll_iff (stop : Option Nat) (k : Nat) (block : List α)
    (blocks : List (List α)) (s : Stream α)
    (hwaiting : s.pending ++ taken (limits k) block ≠ [])
    (hfail : ¬ Complete limits k (block :: blocks)) :
    close stop (writeAll limits flushes k (block :: blocks) s).1 = s.file
      ↔ stop = some 0 ∧ NoFlush limits flushes k (block :: blocks) := by
  induction blocks generalizing k block s with
  | nil =>
      have hshort : Short (limits k) block := by
        by_contra hcomplete
        exact hfail ((complete_cons_iff limits k block []).mpr
          ⟨hcomplete, fun i b hb => nomatch hb⟩)
      rw [writeAll_cons_short limits flushes hshort, close_write_iff _ _ _ _ _ hwaiting,
        noFlush_cons_iff, and_iff_left (fun hcomplete => absurd hshort hcomplete)]
  | cons next blocks ih =>
      by_cases hshort : Short (limits k) block
      · rw [writeAll_cons_short limits flushes hshort, close_write_iff _ _ _ _ _ hwaiting,
          noFlush_cons_iff, and_iff_left (fun hcomplete => absurd hshort hcomplete)]
      · rw [complete_cons_iff, and_iff_right hshort] at hfail
        rw [writeAll_cons_complete limits flushes hshort, noFlush_cons_iff]
        let s' := (write (limits k) (flushes k) block s).1
        by_cases hzero : flushes k = 0
        · -- the file is as before, and the same elements still wait
          have hfile : s'.file = s.file := by
            show s.file ++ (s.pending ++ taken (limits k) block).take (flushes k) = s.file
            rw [hzero, List.take_zero, List.append_nil]
          have hpending : s'.pending ≠ [] := by
            show (s.pending ++ taken (limits k) block).drop (flushes k) ≠ []
            rw [hzero]
            exact hwaiting
          have hnext := ih (k + 1) next s' (List.append_ne_nil_of_left_ne_nil hpending _) hfail
          rw [hfile] at hnext
          rw [hnext]
          exact and_congr_right (fun _ => ⟨fun h => ⟨hzero, fun _ => h⟩, fun h => h.2 hshort⟩)
        · -- something has gone on to the file, and stays there
          refine iff_of_false ?_ (fun h => hzero h.2.1)
          intro hsame
          have hkept := isPrefix_writeAll limits flushes (k + 1) (next :: blocks) s'
          have hlength : s'.file.length ≤ s.file.length := by
            rw [← hsame, close, List.length_append]
            exact hkept.length_le.trans (Nat.le_add_right _ _)
          have hpos : 0 < (s.pending ++ taken (limits k) block).length :=
            List.length_pos_iff.mpr hwaiting
          have hgrown : s'.file.length = s.file.length
              + min (flushes k) (s.pending ++ taken (limits k) block).length := by
            show (s.file ++ (s.pending ++ taken (limits k) block).take (flushes k)).length = _
            rw [List.length_append, List.length_take]
          omega

/-- **When a failure leaves the file as it was**: the first write took nothing, or nothing
    that was taken went on to the file, neither at a write nor when the stream was closed. -/
theorem close_unchanged_iff (stop : Option Nat) (k : Nat) {blocks : List (List α)}
    (hne : ∀ block ∈ blocks, block ≠ []) (file : List α)
    (hfail : ¬ Complete limits k blocks) :
    close stop (writeAll limits flushes k blocks (Stream.ofFile file)).1 = file
      ↔ limits k = some 0 ∨ (stop = some 0 ∧ NoFlush limits flushes k blocks) := by
  cases blocks with
  | nil => exact absurd (fun i b hb => nomatch hb) hfail
  | cons block blocks =>
      have hblock := hne block List.mem_cons_self
      by_cases hzero : limits k = some 0
      · have hshort : Short (limits k) block := ⟨0, hzero, List.length_pos_iff.mpr hblock⟩
        rw [writeAll_cons_short limits flushes hshort]
        refine iff_of_true ?_ (Or.inl hzero)
        have hnil : taken (limits k) block = [] := (taken_eq_nil_iff hblock).mpr hzero
        show file ++ ([] ++ taken (limits k) block).take (flushes k)
          ++ taken stop (([] ++ taken (limits k) block).drop (flushes k)) = file
        rw [hnil, List.append_nil, List.take_nil, List.drop_nil, List.append_nil]
        cases stop with
        | none => exact List.append_nil file
        | some n =>
            show file ++ List.take n [] = file
            rw [List.take_nil, List.append_nil]
      · rw [or_iff_right hzero]
        exact close_writeAll_iff limits flushes stop k block blocks (Stream.ofFile file)
          (fun hnil => hzero ((taken_eq_nil_iff hblock).mp hnil)) hfail

-- ── Reading ───────────────────────────────────────────────────────────────────────

/-- The block that a read returns of what is left. -/
def read (ready buffer : Nat) (rest : List α) : List α := rest.take (min ready buffer)

/-- The blocks read from a position on, up to the read that returns nothing. -/
def blocks (reads : Nat → Nat) (buffer : Nat) (source : List α) : Nat → Nat → Nat → List (List α)
  | 0, _, _ => []
  | fuel + 1, k, pos =>
      let block := read (reads k) buffer (source.drop pos)
      if block = [] then []
      else block :: blocks reads buffer source fuel (k + 1) (pos + block.length)

variable (reads : Nat → Nat) (buffer : Nat) (source : List α)

/-- Every block has something in it. -/
theorem blocks_ne_nil (fuel k pos : Nat) :
    ∀ block ∈ blocks reads buffer source fuel k pos, block ≠ [] := by
  induction fuel generalizing k pos with
  | zero =>
      intro block hmem
      exact absurd hmem List.not_mem_nil
  | succ fuel ih =>
      intro block hmem
      rw [blocks] at hmem
      by_cases hnil : read (reads k) buffer (source.drop pos) = []
      · rw [if_pos hnil] at hmem
        exact absurd hmem List.not_mem_nil
      · rw [if_neg hnil] at hmem
        rcases List.mem_cons.mp hmem with rfl | hrest
        · exact hnil
        · exact ih _ _ block hrest

/-- **The blocks are the source** when no read fails. -/
theorem flatten_blocks (hbuffer : 0 < buffer) (hreads : ∀ k, 0 < reads k) (fuel k pos : Nat)
    (hfuel : source.length < pos + fuel) :
    (blocks reads buffer source fuel k pos).flatten = source.drop pos := by
  induction fuel generalizing k pos with
  | zero =>
      rw [blocks, List.flatten_nil, List.drop_eq_nil_of_le (by omega)]
  | succ fuel ih =>
      have hready := hreads k
      rw [blocks]
      by_cases hnil : read (reads k) buffer (source.drop pos) = []
      · rw [if_pos hnil, List.flatten_nil]
        rw [read, List.take_eq_nil_iff] at hnil
        exact (hnil.resolve_left (by omega)).symm
      · have hpos : 0 < (read (reads k) buffer (source.drop pos)).length :=
          List.length_pos_iff.mpr hnil
        rw [if_neg hnil, List.flatten_cons, ih _ _ (by omega), ← List.drop_drop]
        have hread : read (reads k) buffer (source.drop pos)
            = (source.drop pos).take (read (reads k) buffer (source.drop pos)).length :=
          List.prefix_iff_eq_take.mp (List.take_prefix _ _)
        nth_rewrite 1 [hread]
        exact List.take_append_drop _ _

end StreamCopyLib
