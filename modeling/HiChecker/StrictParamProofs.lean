import HiChecker.StartupParamProofs
import Mathlib.Data.List.TakeWhile

/-!
# What the startup parameter may look like

`InitHicheckerParam` is meant to take a decimal numeral of 64 bits. It gives the text to
`strtoull`, which reads a numeral off the front: behind blanks and a sign, up to the first
character that is no digit. The position where it stopped is fetched into `endPtr` and not
looked at, and neither is the range error.

* **`ParamValue`** — a value of a parameter; that it fits into the buffer is a field.
* **`DecimalNumeral`** — the texts that are meant; **`strtoull_of_decimalNumeral`** reads
  them right.
* **`ReadsRule`** — the texts in which `strtoull` finds the rule.
* **`param_strict_iff`** — when the code does with a text what is meant.
-/

namespace StrictParam

open BitMask RuleStore StartupParam

variable {Thread : Type}

-- ── Parameters ────────────────────────────────────────────────────────────────────

/-- The value of a system parameter. -/
structure ParamValue where
  bytes : Bytes
  fits : bytes.length < paramBufLen
  noZero : ∀ b ∈ bytes, b ≠ 0

/-- `GetParameter`: the length of the value, and the value in the buffer. -/
def getParameter (params : Bytes → ParamValue) (checkerName : Bytes) : ParamRead :=
  ⟨(params checkerName).bytes.length, (params checkerName).bytes⟩

/-- The buffer holds `hiviewdfx.hichecker.`, the name and a terminating zero. -/
def NameFits (processName : Bytes) : Prop :=
  checkerPrefix.length + processName.length < querynameLen

instance (processName : Bytes) : Decidable (NameFits processName) :=
  inferInstanceAs (Decidable (_ < _))

/-- The text is digits only, and writes a number below 2⁶⁴. -/
def DecimalNumeral (value : Bytes) : Prop :=
  value ≠ [] ∧ (∀ b ∈ value, isDigit b = true) ∧ numeral value < 2 ^ 64

instance (value : Bytes) : Decidable (DecimalNumeral value) :=
  inferInstanceAs (Decidable (_ ∧ _ ∧ _))

/-- What `strtoull` reads has bit 34: a number out of range counts as 2⁶⁴ - 1, one behind a
    minus is subtracted from 2⁶⁴. -/
def ReadsRule (value : Bytes) : Prop :=
  let signed := sign (value.dropWhile isSpace)
  let n := numeral (signed.2.takeWhile isDigit)
  2 ^ 64 ≤ n ∨ n < 2 ^ 64 ∧ ((2 ^ 64 - n) % 2 ^ 64).testBit 34 = true ∧ signed.1 = true
    ∨ n < 2 ^ 64 ∧ n.testBit 34 = true ∧ signed.1 = false

instance (value : Bytes) : Decidable (ReadsRule value) :=
  inferInstanceAs (Decidable (_ ∨ _ ∧ _ ∧ _ ∨ _ ∧ _ ∧ _))

/-- The buffer, read as a string, is the value. -/
theorem value_getParameter (params : Bytes → ParamValue) (checkerName : Bytes) :
    (getParameter params checkerName).value = (params checkerName).bytes := by
  show (((params checkerName).bytes.take (Int.toNat (params checkerName).bytes.length)).takeWhile
    (fun b => b ≠ 0)) = _
  rw [Int.toNat_natCast, List.take_length]
  refine List.takeWhile_eq_self_iff.mpr ?_
  intro b hb
  exact decide_eq_true ((params checkerName).noZero b hb)

-- ── The numeral that is read ──────────────────────────────────────────────────────

/-- A bit of a number that fits. -/
theorem mem_bits_ofNat {n : Nat} (h : n < 2 ^ 64) (i : Nat) :
    i ∈ bits (BitVec.ofNat 64 n) ↔ n.testBit i = true := by
  rw [mem_bits, ← BitVec.testBit_toNat, BitVec.toNat_ofNat, Nat.mod_eq_of_lt h]

/-- **When `strtoull` reads the rule.** -/
theorem mem_bits_strtoull_iff (value : Bytes) :
    34 ∈ bits (strtoull value) ↔ ReadsRule value := by
  let signed := sign (value.dropWhile isSpace)
  let n := numeral (signed.2.takeWhile isDigit)
  show 34 ∈ bits (if 2 ^ 64 ≤ n then BitVec.allOnes 64
    else if signed.1 = true then -(BitVec.ofNat 64 n) else BitVec.ofNat 64 n) ↔
      2 ^ 64 ≤ n ∨ n < 2 ^ 64 ∧ ((2 ^ 64 - n) % 2 ^ 64).testBit 34 = true ∧ signed.1 = true
        ∨ n < 2 ^ 64 ∧ n.testBit 34 = true ∧ signed.1 = false
  by_cases hrange : 2 ^ 64 ≤ n
  · rw [if_pos hrange]
    exact iff_of_true (by decide) (Or.inl hrange)
  · have hlt : n < 2 ^ 64 := Nat.not_le.mp hrange
    rw [if_neg hrange, or_iff_right hrange]
    cases hsign : signed.1 with
    | true =>
        have hneg : -(BitVec.ofNat 64 n) = BitVec.ofNat 64 ((2 ^ 64 - n) % 2 ^ 64) := by
          apply BitVec.eq_of_toNat_eq
          rw [BitVec.toNat_neg, BitVec.toNat_ofNat, BitVec.toNat_ofNat, Nat.mod_eq_of_lt hlt,
            Nat.mod_mod]
        rw [if_pos rfl, hneg, mem_bits_ofNat (Nat.mod_lt _ (by decide))]
        simp only [hlt, true_and, and_true, Bool.true_eq_false, and_false, or_false]
    | false =>
        rw [if_neg Bool.false_ne_true, mem_bits_ofNat hlt]
        simp only [hlt, true_and, and_true, Bool.false_eq_true, and_false, false_or]

/-- A digit is no blank and no sign. -/
theorem digit_cases {b : UInt8} (h : isDigit b = true) :
    isSpace b = false ∧ b ≠ minus ∧ b ≠ plus := by
  have hall : ∀ n < 256, isDigit (UInt8.ofNat n) = true → isSpace (UInt8.ofNat n) = false
      ∧ UInt8.ofNat n ≠ minus ∧ UInt8.ofNat n ≠ plus := by decide +kernel
  have hb := hall b.toNat b.toNat_lt
  rw [UInt8.ofNat_toNat] at hb
  exact hb h

/-- **A decimal numeral is read as its number.** -/
theorem strtoull_of_decimalNumeral {value : Bytes} (h : DecimalNumeral value) :
    strtoull value = BitVec.ofNat 64 (numeral value) := by
  obtain ⟨hne, hdigits, hlt⟩ := h
  obtain ⟨b, rest, rfl⟩ := List.exists_cons_of_ne_nil hne
  obtain ⟨hspace, hminus, hplus⟩ := digit_cases (hdigits b List.mem_cons_self)
  have hdrop : (b :: rest).dropWhile isSpace = b :: rest := by
    rw [List.dropWhile_cons, hspace]
    rfl
  have hsign : sign (b :: rest) = (false, b :: rest) := by
    rw [sign, if_neg hminus, if_neg hplus]
  have htake : (b :: rest).takeWhile isDigit = b :: rest :=
    List.takeWhile_eq_self_iff.mpr hdigits
  rw [strtoull]
  simp only [hdrop, hsign, htake]
  rw [if_neg (Nat.not_le.mpr hlt), if_neg Bool.false_ne_true]

-- ── The store with the rule ───────────────────────────────────────────────────────

/-- The store with `RULE_CHECK_ARKUI_PERFORMANCE` on, and nothing else changed. -/
def withRule (s : Store Thread) : Store Thread :=
  { s with processRules := s.processRules ||| ruleCheckArkuiPerformance }

/-- Adding the rule touches the process word only. -/
theorem addRule_arkuiPerformance [DecidableEq Thread] (t : Thread) (s : Store Thread) :
    addRule t ruleCheckArkuiPerformance s = withRule s := by
  have hthread : (allThreadRules ||| allCautionRules) &&& ruleCheckArkuiPerformance = 0#64 := by
    decide
  have hprocess : (allProcessRules ||| allCautionRules) &&& ruleCheckArkuiPerformance
      = ruleCheckArkuiPerformance := by decide
  have hmode : ¬ ruleCheckSlowEvent &&& ruleCheckArkuiPerformance ≠ 0#64 := by decide
  rw [addRule, if_neg (by decide), if_neg hmode, hthread, hprocess, BitVec.or_zero,
    Function.update_eq_self]
  rfl

theorem withRule_eq_self_iff (s : Store Thread) :
    withRule s = s ↔ 34 ∈ bits s.processRules := by
  have hword : s.processRules ||| ruleCheckArkuiPerformance = s.processRules
      ↔ 34 ∈ bits s.processRules := by
    rw [or_eq_left_iff, bits_ruleCheckArkuiPerformance, Set.singleton_subset_iff]
  rw [← hword]
  constructor
  · exact fun h => congrArg Store.processRules h
  · intro h
    rw [withRule, h]

/-- **What the code does with a parameter**: it adds the rule when the name fits and
    `strtoull` reads the rule. -/
theorem initHicheckerParam_eq [DecidableEq Thread] (params : Bytes → ParamValue) (t : Thread)
    (processName : Bytes) (s : Store Thread) :
    initHicheckerParam (getParameter params) t (some processName) s
      = if NameFits processName ∧ ReadsRule (params (checkerPrefix ++ processName)).bytes then
          withRule s
        else s := by
  let value := (params (checkerPrefix ++ processName)).bytes
  rw [initHicheckerParam]
  by_cases hname : NameFits processName
  · have hcat : strcat_s checkerPrefix querynameLen (some processName)
        = some (checkerPrefix ++ processName) := if_pos hname
    have hread : (getParameter params (checkerPrefix ++ processName)).value = value :=
      value_getParameter params _
    rw [hcat]
    simp only [hread]
    have hlong : ¬ (paramBufLen : Int) - 1 < value.length := by
      have hfits : value.length < paramBufLen := (params (checkerPrefix ++ processName)).fits
      omega
    show (if (value.length : Int) ≤ 0 ∨ (paramBufLen : Int) - 1 < value.length then s
      else if strtoull value &&& allowedRule = 0#64 then s
      else addRule t (strtoull value &&& allowedRule) s) = if _ ∧ ReadsRule value then _ else _
    have hbit : strtoull value &&& allowedRule ≠ 0#64 ↔ ReadsRule value :=
      (and_ne_zero_iff_mem _ bits_ruleCheckArkuiPerformance).trans (mem_bits_strtoull_iff value)
    by_cases hreads : ReadsRule value
    · have hne : value ≠ [] := by
        intro hnil
        rw [hnil] at hreads
        exact absurd ((mem_bits_strtoull_iff []).mpr hreads) (by decide)
      have hpos : 0 < value.length := List.length_pos_iff.mpr hne
      have hmask := hbit.mpr hreads
      rw [if_neg (fun h => h.elim (fun hle => by omega) hlong), if_neg hmask,
        and_allowedRule _ hmask, if_pos ⟨hname, hreads⟩]
      exact addRule_arkuiPerformance t s
    · have hmask : strtoull value &&& allowedRule = 0#64 :=
        not_not.mp (fun h => hreads (hbit.mp h))
      rw [if_pos hmask, ite_self, if_neg (fun h => hreads h.2)]
  · have hcat : strcat_s checkerPrefix querynameLen (some processName) = none := if_neg hname
    rw [hcat, if_neg (fun h => hname h.1)]

/-- What is meant: the rule is added for a name that fits and a decimal numeral with bit 34,
    and nothing is done otherwise. -/
def strictParam (params : Bytes → ParamValue) (processName : Bytes) (s : Store Thread) :
    Store Thread :=
  let value := (params (checkerPrefix ++ processName)).bytes
  if NameFits processName ∧ DecimalNumeral value ∧ (numeral value).testBit 34 = true then
    withRule s
  else s

/-- **When a startup parameter is read strictly**, for every process name, every value,
    every thread and every rule state: the name does not fit, or the value is a decimal
    numeral below 2⁶⁴, or `strtoull` does not read the rule out of it, or the rule is on
    already. -/
theorem param_strict_iff [DecidableEq Thread] (params : Bytes → ParamValue) (t : Thread)
    (processName : Bytes) (s : Store Thread) :
    let value := (params (checkerPrefix ++ processName)).bytes
    initHicheckerParam (getParameter params) t (some processName) s
        = strictParam params processName s
      ↔ ¬ NameFits processName ∨ DecimalNumeral value ∨ ¬ ReadsRule value
        ∨ 34 ∈ bits s.processRules := by
  intro value
  let meant := DecimalNumeral value ∧ (numeral value).testBit 34 = true
  show initHicheckerParam (getParameter params) t (some processName) s
    = (if NameFits processName ∧ meant then withRule s else s) ↔ _
  rw [initHicheckerParam_eq]
  by_cases hname : NameFits processName
  · rw [or_iff_right (not_not.mpr hname)]
    by_cases hnum : DecimalNumeral value
    · have hsame : ReadsRule value ↔ meant := by
        show _ ↔ DecimalNumeral value ∧ _
        rw [and_iff_right hnum, ← mem_bits_strtoull_iff, strtoull_of_decimalNumeral hnum,
          mem_bits_ofNat hnum.2.2]
      refine iff_of_true ?_ (Or.inl hnum)
      by_cases hreads : ReadsRule value
      · rw [if_pos ⟨hname, hreads⟩, if_pos ⟨hname, hsame.mp hreads⟩]
      · rw [if_neg (fun h => hreads h.2), if_neg (fun h => hreads (hsame.mpr h.2))]
    · rw [or_iff_right hnum, if_neg (c := NameFits processName ∧ meant) (fun h => hnum h.2.1)]
      by_cases hreads : ReadsRule value
      · rw [if_pos ⟨hname, hreads⟩, or_iff_right (not_not.mpr hreads), withRule_eq_self_iff]
      · rw [if_neg (fun h => hreads h.2)]
        exact iff_of_true rfl (Or.inl hreads)
  · rw [if_neg (fun h => hname h.1), if_neg (fun h => hname h.1)]
    exact iff_of_true rfl (Or.inl hname)

/-- The parameter of every process is a numeral with letters behind it. -/
def trailingLetters (_ : Bytes) : ParamValue :=
  ⟨"17179869184abc".toUTF8.toList, by decide +kernel, by decide +kernel⟩

/-- The rule is added. -/
theorem param_not_strict :
    ¬ ∀ (params : Bytes → ParamValue) (processName : Bytes) (s : Store Unit),
        initHicheckerParam (getParameter params) () (some processName) s
          = strictParam params processName s := by
  intro h
  have hword := congrArg Store.processRules (h trailingLetters [] initial)
  exact absurd hword (by decide +kernel)

end StrictParam
