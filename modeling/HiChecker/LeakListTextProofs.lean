import HiChecker.DumpFileProofs
import HiChecker.PrefixCodeProofs
import Mathlib.Tactic.IntervalCases

/-!
# The text of a leak list

`JSON.stringify` writes a leak list into the `.jsleaklist` file and into the reported
event. What was written determines the list.

* **`quote_selfDelimiting`** — a JSON string ends at the quote that no escape starts with.
* **`objMsgText_selfDelimiting`** — so does the record of an object.
* **`pathsText_injective`** — a list of file names is determined by its text.
* **`leakListText_injective`**, **`resultText_inj`** — the two texts determine their lists.
-/

namespace LeakListText

open JsValue LeakRound DumpFile PrefixCodeLib

-- ── Strings ───────────────────────────────────────────────────────────────────────

/-- The value of a hexadecimal digit. -/
def hexValue (c : Char) : Nat := if c.isDigit then c.toNat - 48 else c.toNat - 87

/-- The character behind a backslash. -/
def readEscape : List Char → Option (Char × List Char)
  | [] => none
  | 'b' :: rest => some (Char.ofNat 8, rest)
  | 't' :: rest => some (Char.ofNat 9, rest)
  | 'n' :: rest => some (Char.ofNat 10, rest)
  | 'f' :: rest => some (Char.ofNat 12, rest)
  | 'r' :: rest => some (Char.ofNat 13, rest)
  | 'u' :: '0' :: '0' :: high :: low :: rest =>
      some (Char.ofNat (16 * hexValue high + hexValue low), rest)
  | c :: rest => some (c, rest)

/-- The first character of a JSON string, and what is behind it. -/
def readChar : List Char → Option (Char × List Char)
  | [] => none
  | c :: rest => if c = '\\' then readEscape rest else some (c, rest)

/-- A character that needs no escape. -/
theorem escape_of_plain {c : Char} (h : 32 ≤ c.toNat) (hquote : c.toNat ≠ 34)
    (hslash : c.toNat ≠ 92) : Json.escape c = [c] := by
  simp only [Json.escape]
  split
  any_goals omega
  exact if_neg (by omega)

/-- The characters, by how they are escaped. -/
theorem escape_cases {P : Char → Prop} (control : ∀ n, n < 32 → P (Char.ofNat n))
    (quote : P '"') (slash : P '\\')
    (plain : ∀ c, c ≠ '"' → c ≠ '\\' → Json.escape c = [c] → P c) (c : Char) : P c := by
  have hof : Char.ofNat c.toNat = c := Char.ofNat_toNat c
  by_cases hsmall : c.toNat < 32
  · rw [← hof]
    exact control c.toNat hsmall
  · by_cases hquote : c = '"'
    · rw [hquote]
      exact quote
    · by_cases hslash : c = '\\'
      · rw [hslash]
        exact slash
      · refine plain c hquote hslash (escape_of_plain (Nat.le_of_not_lt hsmall) ?_ ?_)
        · intro h
          rw [h] at hof
          exact hquote hof.symm
        · intro h
          rw [h] at hof
          exact hslash hof.symm

/-- **A character is read back**, whatever is behind it. -/
theorem readChar_escape (c : Char) (x : List Char) :
    readChar (Json.escape c ++ x) = some (c, x) := by
  refine escape_cases (P := fun c => readChar (Json.escape c ++ x) = some (c, x)) ?_ rfl rfl ?_ c
  · intro n hn
    interval_cases n <;> rfl
  · intro c _ hslash hplain
    rw [hplain]
    exact if_neg hslash

/-- No escape is the beginning of another. -/
theorem escape_selfDelimiting : SelfDelimiting Json.escape := by
  intro a b x y h
  have hread := readChar_escape a x
  rw [h, readChar_escape b y] at hread
  obtain ⟨rfl, rfl⟩ := Prod.mk.inj (Option.some.inj hread)
  exact ⟨rfl, rfl⟩

/-- No escaped character starts with a quote. -/
theorem escape_startsOff : StartsOff '"' Json.escape := by
  have hslash : '\\' ≠ '"' := by decide
  refine escape_cases ?_ ⟨'\\', _, rfl, hslash⟩ ⟨'\\', _, rfl, hslash⟩ ?_
  · intro n hn
    refine ⟨'\\', (Json.escape (Char.ofNat n)).tail, ?_, hslash⟩
    interval_cases n <;> rfl
  · intro c hquote _ hplain
    exact ⟨c, [], hplain, hquote⟩

theorem toList_quote (s : String) :
    (Json.quote s).toList = ['"'] ++ (s.toList.flatMap Json.escape ++ ['"']) := by
  simp only [Json.quote, String.toList_append, String.toList_ofList, List.append_assoc]
  rfl

/-- **A JSON string** shows where it ends. -/
theorem quote_selfDelimiting : SelfDelimiting (fun s : String => (Json.quote s).toList) := by
  have hchars := (escape_selfDelimiting.closed escape_startsOff).after ['"']
  have hstrings := hchars.comp (g := String.toList) (fun _ _ => String.toList_inj.mp)
  have heq : (fun s : String => (Json.quote s).toList)
      = fun s => ['"'] ++ (s.toList.flatMap Json.escape ++ ['"']) := funext toList_quote
  rw [heq]
  exact hstrings

/-- A quoted string does not begin with a bracket. -/
theorem quote_startsOff : StartsOff ']' (fun s : String => (Json.quote s).toList) := by
  intro s
  refine ⟨'"', (Json.quote s).toList.tail, ?_, by decide⟩
  show (Json.quote s).toList = _
  rw [toList_quote]
  rfl

-- ── Hashes ────────────────────────────────────────────────────────────────────────

/-- A hash in the record of an object. -/
def hashText : Hash → String
  | none => "null"
  | some hash => toString hash

/-- A number has only digits. -/
theorem repr_free {c : Char} (hdigit : c.isDigit = false) (n : Nat) : c ∉ n.repr.toList := by
  intro hc
  rw [Nat.toList_repr] at hc
  have h := Nat.isDigit_of_mem_toDigits (by decide) (by decide) hc
  exact Bool.false_ne_true (hdigit.symm.trans h)

/-- Distinct numbers have distinct texts. -/
theorem natRepr_injective {m n : Nat} (h : m.repr.toList = n.repr.toList) : m = n := by
  rw [Nat.toList_repr, Nat.toList_repr] at h
  have hparse := congrArg (fun ds => Nat.ofDigitChars 10 ds 0) h
  simpa only [Nat.ofDigitChars_ten_toDigits] using hparse

/-- The text of an integer: its digits, after a sign if it is negative. -/
theorem intText_cases (i : Int) :
    ∃ n : Nat, ((toString i).toList = n.repr.toList ∧ i = n)
      ∨ ((toString i).toList = '-' :: n.repr.toList ∧ i = -n) := by
  rw [Int.toString_eq_repr, Int.repr_eq_if]
  split
  · exact ⟨i.toNat, Or.inl ⟨rfl, by omega⟩⟩
  · refine ⟨(-i).toNat, Or.inr ⟨?_, by omega⟩⟩
    rw [String.toList_append]
    rfl

/-- An integer has only digits and its sign. -/
theorem intText_free {c : Char} (hdigit : c.isDigit = false) (hminus : c ≠ '-') (i : Int) :
    c ∉ (toString i).toList := by
  obtain ⟨n, ⟨htext, -⟩ | ⟨htext, -⟩⟩ := intText_cases i
  · rw [htext]
    exact repr_free hdigit n
  · rw [htext]
    exact List.not_mem_cons_of_ne_of_not_mem hminus (repr_free hdigit n)

/-- Distinct integers have distinct texts. -/
theorem intText_injective {i j : Int} (h : (toString i).toList = (toString j).toList) :
    i = j := by
  have hsign : ∀ m n : Nat, m.repr.toList ≠ '-' :: n.repr.toList := by
    intro m n heq
    refine repr_free (c := '-') rfl m ?_
    rw [heq]
    exact List.mem_cons_self
  obtain ⟨m, ⟨hi, him⟩ | ⟨hi, him⟩⟩ := intText_cases i
  · obtain ⟨n, ⟨hj, hjn⟩ | ⟨hj, hjn⟩⟩ := intText_cases j
    · rw [hi, hj] at h
      rw [him, hjn, natRepr_injective h]
    · rw [hi, hj] at h
      exact absurd h (hsign m n)
  · obtain ⟨n, ⟨hj, hjn⟩ | ⟨hj, hjn⟩⟩ := intText_cases j
    · rw [hi, hj] at h
      exact absurd h.symm (hsign n m)
    · rw [hi, hj] at h
      rw [him, hjn, natRepr_injective (List.cons.inj h).2]

/-- A hash has no comma. -/
theorem hashText_free (hash : Hash) : ',' ∉ (hashText hash).toList := by
  cases hash with
  | none => decide
  | some i => exact intText_free rfl (by decide) i

/-- Distinct hashes have distinct texts. -/
theorem hashText_injective {a b : Hash} (h : (hashText a).toList = (hashText b).toList) :
    a = b := by
  have hnull : ∀ i : Int, (hashText none).toList ≠ (hashText (some i)).toList := by
    intro i heq
    refine intText_free (c := 'n') rfl (by decide) i ?_
    show 'n' ∈ (hashText (some i)).toList
    rw [← heq]
    exact List.mem_cons_self
  cases a with
  | none =>
      cases b with
      | none => rfl
      | some j => exact absurd h (hnull j)
  | some i =>
      cases b with
      | none => exact absurd h.symm (hnull i)
      | some j => exact congrArg some (intText_injective h)

/-- A hash, and the comma behind it. -/
theorem hashText_selfDelimiting :
    SelfDelimiting (fun hash : Hash => (hashText hash).toList ++ [',']) :=
  SelfDelimiting.before (fun _ _ h => hashText_injective h) hashText_free

-- ── Records and lists ─────────────────────────────────────────────────────────────

/-- The key of a field, with what is before the value. -/
def keyText (before : List Char) (key : String) : List Char :=
  before ++ (Json.quote key).toList ++ [':']

theorem toList_objMsgText (obj : ObjMsg) :
    (objMsgText obj).toList
      = keyText ['\x7b'] "hash" ++ ((hashText obj.hash).toList ++ [','])
        ++ (keyText [] "name" ++ (Json.quote obj.name).toList)
        ++ (keyText [','] "msg" ++ (Json.quote obj.msg).toList) ++ ['\x7d'] := by
  obtain ⟨hash, name, msg⟩ := obj
  show (Json.object [("hash", hashText hash), ("name", Json.quote name),
    ("msg", Json.quote msg)]).toList = _
  simp only [Json.object, List.map_cons, List.map_nil, String.intercalate_cons_cons,
    String.intercalate_singleton, String.toList_append, keyText, List.append_assoc,
    List.nil_append]
  rfl

/-- No record is the beginning of another. -/
theorem objMsgText_selfDelimiting : SelfDelimiting (fun obj => (objMsgText obj).toList) := by
  have hhash := hashText_selfDelimiting.after (keyText ['\x7b'] "hash")
  have hname := quote_selfDelimiting.after (keyText [] "name")
  have hmsg := quote_selfDelimiting.after (keyText [','] "msg")
  have hfields := ((hhash.pair hname).pair hmsg).followed ['\x7d']
  have hobj := hfields.comp (g := fun obj : ObjMsg => ((obj.hash, obj.name), obj.msg)) (by
    rintro ⟨hash, name, msg⟩ ⟨hash', name', msg'⟩ h
    obtain ⟨hpair, rfl⟩ := Prod.mk.inj h
    obtain ⟨rfl, rfl⟩ := Prod.mk.inj hpair
    rfl)
  have heq : (fun obj => (objMsgText obj).toList) = _ := funext toList_objMsgText
  rw [heq]
  exact hobj

theorem objMsgText_startsOff : StartsOff ']' (fun obj => (objMsgText obj).toList) := by
  intro obj
  refine ⟨'\x7b', (objMsgText obj).toList.tail, ?_, by decide⟩
  show (objMsgText obj).toList = _
  rw [toList_objMsgText]
  rfl

/-- **A JSON array** shows where it ends when its items do, and none starts as it ends. -/
theorem array_selfDelimiting {α : Type} {f : α → String}
    (hf : SelfDelimiting (fun a => (f a).toList)) (hoff : StartsOff ']' (fun a => (f a).toList)) :
    SelfDelimiting (fun items : List α => (Json.array (items.map f)).toList) := by
  have hne : ',' ≠ ']' := by decide
  have hlist := (hf.separated hne hoff).after ['[']
  have heq : (fun items : List α => (Json.array (items.map f)).toList)
      = fun items => ['['] ++ ([','].intercalate (items.map (fun a => (f a).toList)) ++ [']']) := by
    funext items
    simp only [Json.array, String.toList_append, String.toList_intercalate, List.map_map,
      List.append_assoc]
    rfl
  rw [heq]
  exact hlist

/-- The text of a list of paths determines the list. -/
theorem pathsText_injective {paths paths' : List String}
    (h : Json.array (paths.map Json.quote) = Json.array (paths'.map Json.quote)) :
    paths = paths' :=
  (array_selfDelimiting quote_selfDelimiting quote_startsOff).injective (congrArg String.toList h)

/-- `JSON.stringify` of a leak list. -/
def leakListText (leaks : List ObjMsg) : String := Json.array (leaks.map objMsgText)

/-- No list of leaks is the beginning of another. -/
theorem leakListText_selfDelimiting :
    SelfDelimiting (fun leaks => (leakListText leaks).toList) :=
  array_selfDelimiting objMsgText_selfDelimiting objMsgText_startsOff

/-- **The text of a leak list** determines the list. -/
theorem leakListText_injective {leaks leaks' : List ObjMsg}
    (h : leakListText leaks = leakListText leaks') : leaks = leaks' :=
  leakListText_selfDelimiting.injective (congrArg String.toList h)

/-- **The text of the `.jsleaklist` file** determines the hash of the heap and the list. -/
theorem resultText_inj {isRawHeap : Bool} {hash hash' : String} {leaks leaks' : List ObjMsg}
    (h : resultText isRawHeap hash leaks = resultText isRawHeap hash' leaks') :
    hash = hash' ∧ leaks = leaks' := by
  have hhash := fun text => quote_selfDelimiting.after text
  have hleaks := leakListText_selfDelimiting.after (keyText [','] "leakObjList")
  have hfields := fun text => ((hhash text).pair hleaks).followed ['\x7d']
  have hlist := congrArg String.toList h
  cases isRawHeap with
  | true =>
      have heq : ∀ hash leaks, (resultText true hash leaks).toList
          = keyText ['\x7b'] "version" ++ (Json.quote "2.0.0").toList
              ++ keyText [','] "snapshot_hash" ++ (Json.quote hash).toList
            ++ (keyText [','] "leakObjList" ++ (leakListText leaks).toList) ++ ['\x7d'] := by
        intro hash leaks
        show (Json.object [("version", Json.quote "2.0.0"),
          ("snapshot_hash", Json.quote hash), ("leakObjList", leakListText leaks)]).toList = _
        simp only [Json.object, List.map_cons, List.map_nil, String.intercalate_cons_cons,
          String.intercalate_singleton, String.toList_append, keyText, List.append_assoc]
        rfl
      rw [heq, heq] at hlist
      exact Prod.mk.inj ((hfields _).injective hlist)
  | false =>
      have heq : ∀ hash leaks, (resultText false hash leaks).toList
          = keyText ['\x7b'] "snapshot_hash" ++ (Json.quote hash).toList
            ++ (keyText [','] "leakObjList" ++ (leakListText leaks).toList) ++ ['\x7d'] := by
        intro hash leaks
        show (Json.object [("snapshot_hash", Json.quote hash),
          ("leakObjList", leakListText leaks)]).toList = _
        simp only [Json.object, List.map_cons, List.map_nil, String.intercalate_cons_cons,
          String.intercalate_singleton, String.toList_append, keyText, List.append_assoc]
        rfl
      rw [heq, heq] at hlist
      exact Prod.mk.inj ((hfields _).injective hlist)

end LeakListText
