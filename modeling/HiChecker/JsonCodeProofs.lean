import Mathlib.Data.List.TakeWhile

/-!
# JSON, written and read

The part of JSON that records of strings and integers need: no fractions and no booleans. The
writer is compact, the reader skips white space wherever JSON allows it. What is written is
read back, whatever follows it.

* **`Escaping`** — a way to write the characters of a string, with the proof that it can be
  read.
* **`skipSpace`** — the white space in front of a token.
* **`Value`**, **`write`**, **`read`** — values, their text, and its reader.
* **`readList_write`** — the rule for lists: items that are read back, between separators.
* **`read_write_append`** — behind a written value that shows where it ends, the reader accepts
  white space and nothing else; **`read_write`** — so it inverts the writer.
-/

namespace JsonCode

/-- Characters as they stand inside a string. -/
structure Escaping where
  escape : Char → List Char
  readChar : List Char → Option (Char × List Char)
  readChar_escape : ∀ c rest, readChar (escape c ++ rest) = some (c, rest)
  /-- no character is taken for the end of the string -/
  startsOff : ∀ c, ∃ d ds, escape c = d :: ds ∧ d ≠ '"'

-- ── White space ───────────────────────────────────────────────────────────────────

/-- Space, tab, line feed and carriage return. -/
def isSpace (c : Char) : Bool := c = '\x20' || c = '\x09' || c = '\x0a' || c = '\x0d'

/-- The text from its next token on. -/
def skipSpace (text : List Char) : List Char := text.dropWhile isSpace

/-- Nothing is skipped before a character that is no white space. -/
theorem skipSpace_of_not {c : Char} (h : isSpace c = false) (rest : List Char) :
    skipSpace (c :: rest) = c :: rest := by
  rw [skipSpace, List.dropWhile_cons, if_neg (by rw [h]; exact Bool.false_ne_true)]

/-- All is skipped exactly when all is white space. -/
theorem skipSpace_eq_nil_iff {text : List Char} :
    skipSpace text = [] ↔ ∀ c ∈ text, isSpace c = true :=
  List.dropWhile_eq_nil_iff

theorem not_isSpace_of_isDigit {c : Char} (h : c.isDigit = true) : isSpace c = false := by
  refine Bool.eq_false_iff.mpr (fun hspace => ?_)
  simp only [isSpace, Bool.or_eq_true, decide_eq_true_iff] at hspace
  rcases hspace with ((rfl | rfl) | rfl) | rfl
  all_goals exact absurd h (by decide)

-- ── Integers ──────────────────────────────────────────────────────────────────────

/-- A number is its decimal digits. -/
def writeNat (n : Nat) : List Char := Nat.toDigits 10 n

/-- A sign goes before a negative number. -/
def writeInt (i : Int) : List Char :=
  if i < 0 then '-' :: writeNat i.natAbs else writeNat i.natAbs

/-- The longest run of digits, and what follows it. -/
def readNat (text : List Char) : Option (Nat × List Char) :=
  match text.takeWhile Char.isDigit with
  | [] => none
  | c :: digits => some (Nat.ofDigitChars 10 (c :: digits) 0, text.dropWhile Char.isDigit)

/-- A number, with a sign before it or not. -/
def readInt : List Char → Option (Int × List Char)
  | [] => none
  | c :: rest =>
      if c = '-' then (readNat rest).map (fun p => (-(p.1 : Int), p.2))
      else (readNat (c :: rest)).map (fun p => ((p.1 : Int), p.2))

/-- No digit follows: an integer ends here. -/
def EndsNumber (rest : List Char) : Prop := ∀ c ∈ rest.head?, c.isDigit = false

/-- A number that ends is read to its end. -/
theorem takeWhile_digits {digits rest : List Char} (h : ∀ c ∈ digits, c.isDigit = true)
    (hrest : EndsNumber rest) :
    (digits ++ rest).takeWhile Char.isDigit = digits
      ∧ (digits ++ rest).dropWhile Char.isDigit = rest := by
  have hstop : rest.takeWhile Char.isDigit = [] ∧ rest.dropWhile Char.isDigit = rest := by
    cases rest with
    | nil => exact ⟨rfl, rfl⟩
    | cons c rest =>
        have hc : c.isDigit = false := hrest c rfl
        simp only [List.takeWhile_cons, List.dropWhile_cons, hc, Bool.false_eq_true, if_false,
          and_self]
  refine ⟨?_, ?_⟩
  · rw [List.takeWhile_append_of_pos h, hstop.1, List.append_nil]
  · rw [List.dropWhile_append_of_pos h, hstop.2]

theorem readNat_writeNat (n : Nat) {rest : List Char} (hrest : EndsNumber rest) :
    readNat (writeNat n ++ rest) = some (n, rest) := by
  have hdigits : ∀ c ∈ Nat.toDigits 10 n, c.isDigit = true :=
    fun _ hc => Nat.isDigit_of_mem_toDigits (by decide) (by decide) hc
  obtain ⟨htake, hdrop⟩ := takeWhile_digits hdigits hrest
  simp only [readNat, writeNat, htake, hdrop]
  cases htext : Nat.toDigits 10 n with
  | nil => exact absurd htext Nat.toDigits_ne_nil
  | cons c digits =>
      simp only
      rw [← htext, Nat.ofDigitChars_ten_toDigits]

theorem readInt_writeInt (i : Int) {rest : List Char} (hrest : EndsNumber rest) :
    readInt (writeInt i ++ rest) = some (i, rest) := by
  simp only [writeInt]
  split
  · rename_i hneg
    have hsign : readInt ('-' :: (writeNat i.natAbs ++ rest))
        = (readNat (writeNat i.natAbs ++ rest)).map (fun p => (-(p.1 : Int), p.2)) := by
      simp only [readInt, if_true]
    rw [List.cons_append, hsign, readNat_writeNat _ hrest, Option.map_some]
    refine congrArg (fun j => some (j, rest)) ?_
    omega
  · rename_i hpos
    have hread := readNat_writeNat i.natAbs hrest
    cases hdigits : writeNat i.natAbs with
    | nil => exact absurd hdigits Nat.toDigits_ne_nil
    | cons c digits =>
        have hc : c ≠ '-' := by
          rintro rfl
          have hmem : '-' ∈ Nat.toDigits 10 i.natAbs := by
            rw [← writeNat, hdigits]
            exact List.mem_cons_self
          exact absurd (Nat.isDigit_of_mem_toDigits (by decide) (by decide) hmem) (by decide)
        rw [hdigits] at hread
        have hplain : readInt (c :: (digits ++ rest))
            = (readNat (c :: (digits ++ rest))).map (fun p => ((p.1 : Int), p.2)) := if_neg hc
        rw [List.cons_append] at hread ⊢
        rw [hplain, hread, Option.map_some]
        refine congrArg (fun j => some (j, rest)) ?_
        omega

-- ── Strings ───────────────────────────────────────────────────────────────────────

variable (E : Escaping)

/-- A string stands between quotes, each character escaped. -/
def writeString (s : String) : List Char := '"' :: (s.toList.flatMap E.escape ++ ['"'])

/-- The characters up to the quote that closes the string. -/
def readChars : Nat → List Char → Option (List Char × List Char)
  | 0, _ => none
  | _ + 1, [] => none
  | fuel + 1, c :: rest =>
      if c = '"' then some ([], rest)
      else
        match E.readChar (c :: rest) with
        | none => none
        | some (d, rest) => (readChars fuel rest).map (fun p => (d :: p.1, p.2))

/-- A string, from its opening quote on. -/
def readString : List Char → Option (String × List Char)
  | [] => none
  | c :: rest =>
      if c = '"' then (readChars E rest.length rest).map (fun p => (String.ofList p.1, p.2))
      else none

/-- Escaped characters are read up to the closing quote. -/
theorem readChars_flatMap (s rest : List Char) (fuel : Nat) (h : s.length < fuel) :
    readChars E fuel (s.flatMap E.escape ++ '"' :: rest) = some (s, rest) := by
  induction s generalizing fuel with
  | nil =>
      obtain ⟨fuel, rfl⟩ := Nat.exists_eq_succ_of_ne_zero (Nat.ne_of_gt h)
      exact if_pos rfl
  | cons c s ih =>
      obtain ⟨fuel, rfl⟩ := Nat.exists_eq_succ_of_ne_zero (Nat.ne_of_gt (Nat.zero_lt_of_lt h))
      obtain ⟨d, ds, hescape, hd⟩ := E.startsOff c
      have hread := E.readChar_escape c (s.flatMap E.escape ++ '"' :: rest)
      rw [List.flatMap_cons, List.append_assoc]
      rw [hescape, List.cons_append] at hread ⊢
      simp only [readChars, if_neg hd, hread]
      rw [ih fuel (Nat.lt_of_succ_lt_succ h)]
      rfl

/-- No character is written as nothing. -/
theorem length_le_flatMap (s : List Char) : s.length ≤ (s.flatMap E.escape).length := by
  induction s with
  | nil => exact Nat.le_refl 0
  | cons c s ih =>
      obtain ⟨d, ds, hescape, -⟩ := E.startsOff c
      rw [List.flatMap_cons, hescape, List.length_append, List.length_cons, List.length_cons]
      omega

theorem readString_writeString (s : String) (rest : List Char) :
    readString E (writeString E s ++ rest) = some (s, rest) := by
  have hfuel : s.toList.length < (s.toList.flatMap E.escape ++ '"' :: rest).length := by
    have hle := length_le_flatMap E s.toList
    rw [List.length_append, List.length_cons]
    omega
  have hread := readChars_flatMap E s.toList rest _ hfuel
  have htext : writeString E s ++ rest = '"' :: (s.toList.flatMap E.escape ++ '"' :: rest) := by
    simp only [writeString, List.cons_append, List.append_assoc, List.nil_append]
  rw [htext]
  show (if '"' = '"' then (readChars E _ _).map _ else none) = _
  rw [if_pos rfl, hread, Option.map_some, String.ofList_toList]

-- ── Lists ─────────────────────────────────────────────────────────────────────────

section Lists

variable {α : Type}

/-- Items up to the character that closes the list, one at least. -/
def readItems (item : List Char → Option (α × List Char)) (close : Char) :
    Nat → List Char → Option (List α × List Char)
  | 0, _ => none
  | fuel + 1, text =>
      match item text with
      | none => none
      | some (a, rest) =>
          match skipSpace rest with
          | [] => none
          | c :: rest =>
              if c = close then some ([a], rest)
              else if c = ',' then
                (readItems item close fuel rest).map (fun p => (a :: p.1, p.2))
              else none

/-- The items up to the closing bracket, if there are any. -/
def readList (item : List Char → Option (α × List Char)) (close : Char) (text : List Char) :
    Option (List α × List Char) :=
  match skipSpace text with
  | [] => none
  | c :: rest =>
      if c = close then some ([], rest) else readItems item close (c :: rest).length (c :: rest)

/-- Items with a comma between each two. -/
def writeList (item : α → List Char) (items : List α) : List Char :=
  [','].intercalate (items.map item)

/-- What is read back in front of a separator and in front of the end of the list. -/
def ReadsBack (item : List Char → Option (α × List Char)) (close : Char) (a : α)
    (text : List Char) : Prop :=
  ∀ c rest, c = ',' ∨ c = close → item (text ++ c :: rest) = some (a, c :: rest)

variable {item : List Char → Option (α × List Char)} {code : α → List Char} {close : Char}

/-- **A list is read back**, whatever stands behind its closing bracket. -/
theorem readItems_write (hclose : close ≠ ',') (hspace : isSpace close = false) {a : α}
    {items : List α}
    (hread : ∀ b ∈ a :: items, ReadsBack item close b (code b)) (rest : List Char)
    (fuel : Nat) (hfuel : items.length < fuel) :
    readItems item close fuel (writeList code (a :: items) ++ close :: rest)
      = some (a :: items, rest) := by
  induction items generalizing a fuel with
  | nil =>
      obtain ⟨fuel, rfl⟩ := Nat.exists_eq_succ_of_ne_zero (Nat.ne_of_gt hfuel)
      have ha := hread a List.mem_cons_self close rest (Or.inr rfl)
      have htext : writeList code [a] = code a := List.intercalate_singleton
      simp only [readItems, htext, ha, skipSpace_of_not hspace, if_true]
  | cons b items ih =>
      obtain ⟨fuel, rfl⟩ := Nat.exists_eq_succ_of_ne_zero (Nat.ne_of_gt (Nat.zero_lt_of_lt hfuel))
      have ha := hread a List.mem_cons_self ','
        (writeList code (b :: items) ++ close :: rest) (Or.inl rfl)
      have htext : writeList code (a :: b :: items) ++ close :: rest
          = code a ++ ',' :: (writeList code (b :: items) ++ close :: rest) := by
        simp only [writeList, List.map_cons, List.intercalate_cons_cons, List.append_assoc,
          List.cons_append, List.nil_append]
      rw [htext]
      have hcomma : isSpace ',' = false := by decide
      simp only [readItems, ha, skipSpace_of_not hcomma, if_neg (Ne.symm hclose), if_true]
      rw [ih (fun b hb => hread b (List.mem_cons_of_mem a hb)) fuel
        (Nat.lt_of_succ_lt_succ hfuel)]
      rfl

/-- A list is at least as long as each of its items. -/
theorem length_le_writeList {a : α} {items : List α} (h : a ∈ items) :
    (code a).length ≤ (writeList code items).length := by
  induction items with
  | nil => exact absurd h List.not_mem_nil
  | cons b items ih =>
      cases items with
      | nil =>
          refine Nat.le_of_eq ?_
          rw [List.mem_singleton.mp h, writeList, List.map_singleton, List.intercalate_singleton]
      | cons b' items =>
          have hlength : (writeList code (b :: b' :: items)).length
              = (code b).length + 1 + (writeList code (b' :: items)).length := by
            simp only [writeList, List.map_cons, List.intercalate_cons_cons, List.length_append,
              List.length_singleton]
          rw [hlength]
          rcases List.mem_cons.mp h with rfl | h
          · omega
          · have hle := ih h
            omega

/-- The separators alone are as many as the items behind the first one. -/
theorem length_lt_writeList (a : α) (items : List α) :
    items.length ≤ (writeList code (a :: items)).length := by
  induction items generalizing a with
  | nil => exact Nat.zero_le _
  | cons b items ih =>
      have hle := ih b
      simp only [writeList, List.map_cons, List.intercalate_cons_cons, List.length_append,
        List.length_cons] at hle ⊢
      omega

/-- **A list is read back** when its items are and none starts as the list ends. -/
theorem readList_write (hclose : close ≠ ',') (hspace : isSpace close = false) {items : List α}
    (hread : ∀ a ∈ items, ReadsBack item close a (code a))
    (hoff : ∀ a ∈ items, ∃ d ds, code a = d :: ds ∧ d ≠ close ∧ isSpace d = false)
    (rest : List Char) :
    readList item close (writeList code items ++ close :: rest) = some (items, rest) := by
  cases items with
  | nil =>
      have hskip : skipSpace (writeList code [] ++ close :: rest) = close :: rest :=
        skipSpace_of_not hspace rest
      simp only [readList, hskip, if_true]
  | cons a items =>
      obtain ⟨d, ds, ha, hd, hdspace⟩ := hoff a List.mem_cons_self
      obtain ⟨ds', htext⟩ : ∃ ds', writeList code (a :: items) ++ close :: rest = d :: ds' := by
        cases items with
        | nil =>
            rw [writeList, List.map_singleton, List.intercalate_singleton, ha]
            exact ⟨_, rfl⟩
        | cons b items =>
            simp only [writeList, List.map_cons, List.intercalate_cons_cons, ha]
            exact ⟨_, rfl⟩
      have hfuel : items.length < (writeList code (a :: items) ++ close :: rest).length := by
        have hle : items.length ≤ (writeList code (a :: items)).length :=
          length_lt_writeList a items
        rw [List.length_append, List.length_cons]
        omega
      have hitems := readItems_write hclose hspace hread rest _ hfuel
      rw [htext] at hitems ⊢
      simp only [readList, skipSpace_of_not hdspace, if_neg hd]
      exact hitems

end Lists

-- ── Values ────────────────────────────────────────────────────────────────────────

/-- A JSON value, its fields in the order they are written. -/
inductive Value where
  | null
  | number (i : Int)
  | string (s : String)
  | array (items : List Value)
  | object (fields : List (String × Value))

/-- The compact text of a value. -/
def write : Value → List Char
  | .null => ['n', 'u', 'l', 'l']
  | .number i => writeInt i
  | .string s => writeString E s
  | .array items => '[' :: ([','].intercalate (items.map write) ++ [']'])
  | .object fields =>
      '\x7b' :: ([','].intercalate (fields.map (fun f => writeString E f.1 ++ ':' :: write f.2))
        ++ ['\x7d'])
decreasing_by
  · decreasing_tactic
  · rename_i hf
    obtain ⟨key, value⟩ := f
    have hlt := List.sizeOf_lt_of_mem hf
    simp only [Prod.mk.sizeOf_spec, Value.object.sizeOf_spec] at hlt ⊢
    omega

/-- A key, a colon and a value. -/
def writeField (f : String × Value) : List Char := writeString E f.1 ++ ':' :: write E f.2

theorem write_array (items : List Value) :
    write E (.array items) = '[' :: (writeList (write E) items ++ [']']) := by
  rw [write]
  rfl

theorem write_object (fields : List (String × Value)) :
    write E (.object fields) = '\x7b' :: (writeList (writeField E) fields ++ ['\x7d']) := by
  rw [write]
  rfl

/-- A key, a colon and a value. -/
def readField (value : List Char → Option (Value × List Char)) (text : List Char) :
    Option ((String × Value) × List Char) :=
  match readString E (skipSpace text) with
  | none => none
  | some (key, rest) =>
      match skipSpace rest with
      | [] => none
      | c :: rest =>
          if c = ':' then (value rest).map (fun p => ((key, p.1), p.2)) else none

/-- A value, by its first character. The fuel bounds the nesting. -/
def readValue : Nat → List Char → Option (Value × List Char)
  | 0, _ => none
  | fuel + 1, text =>
      match skipSpace text with
      | [] => none
      | c :: rest =>
          if c = 'n' then
            if rest.take 3 = ['u', 'l', 'l'] then some (.null, rest.drop 3) else none
          else if c = '"' then (readString E (c :: rest)).map (fun p => (.string p.1, p.2))
          else if c = '[' then
            (readList (readValue fuel) ']' rest).map (fun p => (.array p.1, p.2))
          else if c = '\x7b' then
            (readList (readField E (readValue fuel)) '\x7d' rest).map
              (fun p => (.object p.1, p.2))
          else (readInt (c :: rest)).map (fun p => (.number p.1, p.2))

/-- The value that a whole text writes. -/
def read (text : List Char) : Option Value :=
  match readValue E (text.length + 1) text with
  | none => none
  | some (v, rest) => if skipSpace rest = [] then some v else none

/-- A sign or a digit, for the first character of a number. -/
theorem writeInt_head (i : Int) :
    ∃ c cs, writeInt i = c :: cs ∧ (c = '-' ∨ c.isDigit = true) := by
  simp only [writeInt]
  split
  · exact ⟨'-', _, rfl, Or.inl rfl⟩
  · cases hdigits : writeNat i.natAbs with
    | nil => exact absurd hdigits Nat.toDigits_ne_nil
    | cons c digits =>
        have hmem : c ∈ Nat.toDigits 10 i.natAbs := by
          rw [← writeNat, hdigits]
          exact List.mem_cons_self
        exact ⟨c, digits, rfl, Or.inr (Nat.isDigit_of_mem_toDigits (by decide) (by decide) hmem)⟩

/-- No value starts with the end of an array, or with white space. -/
theorem write_startsOff (v : Value) :
    ∃ c cs, write E v = c :: cs ∧ c ≠ ']' ∧ isSpace c = false := by
  cases v with
  | null => exact ⟨'n', ['u', 'l', 'l'], by rw [write], by decide, by decide⟩
  | number i =>
      obtain ⟨c, cs, htext, hc⟩ := writeInt_head i
      refine ⟨c, cs, by rw [write, htext], ?_, ?_⟩
      · rintro rfl
        rcases hc with hc | hc
        · exact absurd hc (by decide)
        · exact absurd hc (by decide)
      · rcases hc with rfl | hc
        · decide
        · exact not_isSpace_of_isDigit hc
  | string s => exact ⟨'"', _, by rw [write]; rfl, by decide, by decide⟩
  | array items => exact ⟨'[', _, write_array E items, by decide, by decide⟩
  | object fields => exact ⟨'\x7b', _, write_object E fields, by decide, by decide⟩

/-- A character that is no digit ends a number. -/
theorem endsNumber_of_not_digit {c : Char} (h : c.isDigit = false) (rest : List Char) :
    EndsNumber (c :: rest) := by
  intro d hd
  obtain rfl := Option.some.inj hd
  exact h

/-- What the reader sees of a written value: its first character is that of the value. -/
theorem skipSpace_write (v : Value) (rest : List Char) :
    skipSpace (write E v ++ rest) = write E v ++ rest := by
  obtain ⟨c, cs, htext, -, hspace⟩ := write_startsOff E v
  rw [htext]
  exact skipSpace_of_not hspace (cs ++ rest)

/-- A field is read back when its value is. -/
theorem readField_write {value : List Char → Option (Value × List Char)} {f : String × Value}
    {rest : List Char} (hvalue : value (write E f.2 ++ rest) = some (f.2, rest)) :
    readField E value (writeField E f ++ rest) = some (f, rest) := by
  have hkey := readString_writeString E f.1 (':' :: (write E f.2 ++ rest))
  have hquote : skipSpace (writeString E f.1 ++ ':' :: (write E f.2 ++ rest))
      = writeString E f.1 ++ ':' :: (write E f.2 ++ rest) := skipSpace_of_not (by decide) _
  have hcolon : isSpace ':' = false := by decide
  simp only [writeField, List.append_assoc, List.cons_append, readField, hquote, hkey,
    skipSpace_of_not hcolon, if_true, hvalue, Option.map_some]

/-- **A value is read back**, whatever follows it, unless a number goes on. -/
theorem readValue_write (fuel : Nat) (v : Value) (h : (write E v).length < fuel)
    {rest : List Char} (hrest : ∀ i, v = .number i → EndsNumber rest) :
    readValue E fuel (write E v ++ rest) = some (v, rest) := by
  induction fuel generalizing v rest with
  | zero => exact absurd h (Nat.not_lt_zero _)
  | succ fuel ih =>
      rw [readValue, skipSpace_write]
      cases v with
      | null =>
          rw [write]
          rfl
      | number i =>
          rw [write]
          have hread := readInt_writeInt i (hrest i rfl)
          obtain ⟨c, cs, htext, hc⟩ := writeInt_head i
          have hother : c ≠ 'n' ∧ c ≠ '"' ∧ c ≠ '[' ∧ c ≠ '\x7b' := by
            refine ⟨?_, ?_, ?_, ?_⟩
            all_goals
              rintro rfl
              rcases hc with hc | hc
              · exact absurd hc (by decide)
              · exact absurd hc (by decide)
          rw [htext, List.cons_append] at hread ⊢
          simp only [if_neg hother.1, if_neg hother.2.1, if_neg hother.2.2.1,
            if_neg hother.2.2.2, hread, Option.map_some]
      | string s =>
          rw [write]
          have hread := readString_writeString E s rest
          have htext : writeString E s ++ rest
              = '"' :: (s.toList.flatMap E.escape ++ ['"'] ++ rest) := rfl
          rw [htext] at hread ⊢
          simp only [hread, Option.map_some]
          rfl
      | array items =>
          rw [write_array] at h ⊢
          have hitems : ∀ a ∈ items, ReadsBack (readValue E fuel) ']' a (write E a) := by
            intro a ha c rest hc
            refine ih a ?_ (fun _ _ => endsNumber_of_not_digit ?_ rest)
            · have hle : (write E a).length ≤ (writeList (write E) items).length :=
                length_le_writeList ha
              rw [List.length_cons, List.length_append] at h
              omega
            · rcases hc with rfl | rfl
              · rfl
              · rfl
          have hread := readList_write (by decide) (by decide) hitems
            (fun a _ => write_startsOff E a) rest
          rw [List.cons_append, List.append_assoc]
          simp only [List.singleton_append, hread, Option.map_some]
          rfl
      | object fields =>
          rw [write_object] at h ⊢
          have hfields : ∀ f ∈ fields,
              ReadsBack (readField E (readValue E fuel)) '\x7d' f (writeField E f) := by
            intro f hf c rest hc
            have hvalue : readValue E fuel (write E f.2 ++ c :: rest) = some (f.2, c :: rest) := by
              refine ih f.2 ?_ (fun _ _ => endsNumber_of_not_digit ?_ rest)
              · have hle : (writeField E f).length ≤ (writeList (writeField E) fields).length :=
                  length_le_writeList hf
                rw [List.length_cons, List.length_append] at h
                rw [writeField, List.length_append, List.length_cons] at hle
                omega
              · rcases hc with rfl | rfl
                · rfl
                · rfl
            exact readField_write E hvalue
          have hread := readList_write (by decide) (by decide) hfields
            (fun f _ => ⟨'"', _, rfl, by decide, by decide⟩) rest
          rw [List.cons_append, List.append_assoc]
          simp only [List.singleton_append, hread, Option.map_some]
          rfl

/-- **Behind a value that shows where it ends** the reader takes white space and nothing else. -/
theorem read_write_append {v : Value} (h : ∀ i, v ≠ .number i) (rest : List Char) :
    read E (write E v ++ rest) = if skipSpace rest = [] then some v else none := by
  have hlength : (write E v).length < (write E v ++ rest).length + 1 := by
    rw [List.length_append]
    omega
  have hread : readValue E ((write E v ++ rest).length + 1) (write E v ++ rest)
      = some (v, rest) := readValue_write E _ v hlength (fun i hi => absurd hi (h i))
  simp only [read, hread]

/-- **The reader inverts the writer.** -/
theorem read_write (v : Value) : read E (write E v) = some v := by
  have hends : EndsNumber [] := fun _ hc => absurd hc (Option.not_mem_none _)
  have hread := readValue_write E ((write E v).length + 1) v (Nat.lt_succ_self _)
    (fun _ _ => hends)
  rw [List.append_nil] at hread
  simp only [read, hread]
  rfl

end JsonCode
