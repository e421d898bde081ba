import HiChecker.RuleBindingProofs

/-!
# Rule words on their way out of ANI and back

`GetRule` of `ani_hichecker.cpp` hands a rule word to its caller as a `BigInt`: the word
is printed in decimal, and the constructor of `BigInt` reads the text. `GetRuleParam` takes
the `BigInt` back by `getLong`, a signed value, which it casts to an unsigned one. The
highest bit of a word is `RULE_CAUTION_PRINT_LOG`, so words on both sides of the sign are
legal.

* **`AniRuntime`** — what the runtime documents about both directions.
* **`buildBigintResult_eq`** — the integer of a word is its unsigned value.
* **`contains_getRule`**, **`getRule_removeRule_getRule`** — what a thread sees of the
  store is in the store, and can be removed as a whole.
* **`rule_values_survive`** — so a caller of ANI can use what `GetRule` gave.
-/

namespace RuleRoundTrip

open BitMask RuleStore RuleTrace RuleBinding

/-- What the runtime documents about making a `BigInt` of a text. -/
structure AniRuntime extends BigintRuntime where
  /-- `new BigInt(text)`; `none` when it throws -/
  newBigint : String → Option Int
  newBigint_decimal : ∀ text : String, text.toList ≠ [] →
    (∀ c ∈ text.toList, c.isDigit = true) →
    newBigint text = some (Int.ofNat (Nat.ofDigitChars 10 text.toList 0))

/-- Whether the calls that `BuildBigintResult` makes on `ani_env` return `ANI_OK`. -/
structure Env where
  findClass : Bool
  findMethod : Bool
  newUTF8 : Bool
  objectNew : Bool

variable (rt : AniRuntime)

/-- `BuildBigintResult`; `none` is the object it starts with, which is no `BigInt`. -/
def buildBigintResult (env : Env) (rule : Word) : Option Int :=
  if !env.findClass then none
  else if !env.findMethod then none
  else
    let bigUintStr := toString rule.toNat
    if !env.newUTF8 then none
    else if !env.objectNew then none
    else rt.newBigint bigUintStr

variable {Thread : Type} [DecidableEq Thread]

/-- `GetRule` of the static binding. -/
def getRule (env : Env) (t : Thread) (s : Store Thread) : Option Int :=
  buildBigintResult rt env (RuleStore.getRule t s)

-- ── Out and back ──────────────────────────────────────────────────────────────────

/-- The printed word is read as its unsigned value. -/
theorem newBigint_toString (n : Nat) : rt.newBigint (toString n) = some (n : Int) := by
  have hlist : (toString n).toList = Nat.toDigits 10 n := by
    rw [Nat.toString_eq_ofList_toDigits, String.toList_ofList]
  rw [rt.newBigint_decimal, hlist, Nat.ofDigitChars_ten_toDigits]
  · rfl
  · rw [hlist]
    exact Nat.toDigits_ne_nil
  · intro c hc
    rw [hlist] at hc
    exact Nat.isDigit_of_mem_toDigits (by decide) (by decide) hc

/-- All four calls return `ANI_OK`. -/
def Env.succeeds (env : Env) : Bool :=
  env.findClass && env.findMethod && env.newUTF8 && env.objectNew

theorem buildBigintResult_eq (env : Env) (v : Word) :
    buildBigintResult rt env v = if env.succeeds then some (v.toNat : Int) else none := by
  obtain ⟨findClass, findMethod, newUTF8, objectNew⟩ := env
  simp only [buildBigintResult, newBigint_toString]
  cases findClass with
  | false => rfl
  | true =>
      cases findMethod with
      | false => rfl
      | true =>
          cases newUTF8 with
          | false => rfl
          | true =>
              cases objectNew with
              | false => rfl
              | true => rfl

/-- What is built stands for the word. -/
theorem eq_toNat_of_built {env : Env} {v : Word} {n : Int}
    (h : buildBigintResult rt env v = some n) : n = v.toNat := by
  rw [buildBigintResult_eq] at h
  exact (Option.some.inj (Option.ite_none_right_eq_some.mp h).2).symm

/-- `getLong` of the unsigned value is the signed one. -/
theorem getLong_toNat (v : Word) : rt.getLong v.toNat = v.toInt := by
  rw [rt.getLong_eq, BitVec.ofInt_natCast, BitVec.ofNat_toNat, BitVec.setWidth_eq]

/-- **A word comes back** from its unsigned value. -/
theorem getRuleParam_toNat (v : Word) :
    Ani.getRuleParam rt.toBigintRuntime (.bigint v.toNat) = v := by
  rw [Ani.getRuleParam, getLong_toNat, BitVec.ofInt_toInt]

/-- It passes through a negative value when its highest bit is set. -/
theorem getLong_neg_iff (v : Word) : rt.getLong v.toNat < 0 ↔ 63 ∈ bits v := by
  have hmsb : v.msb = decide (v.toInt < 0) := BitVec.msb_eq_toInt
  rw [getLong_toNat, mem_bits, show v.getLsbD 63 = v.msb from (BitVec.msb_eq_getLsbD_last v).symm,
    hmsb, decide_eq_true_iff]

-- ── What a thread sees of the store ───────────────────────────────────────────────

omit [DecidableEq Thread] in
/-- A thread sees nothing but rules. -/
theorem checkRule_getRule {s : Store Thread} (hs : Scoped s) {t : Thread}
    (hne : RuleStore.getRule t s ≠ 0#64) : checkRule (RuleStore.getRule t s) = true := by
  refine (checkRule_iff _).mpr ⟨hne, ?_⟩
  intro b hb
  rw [bits_allRules]
  rcases (mem_getRule t s b).mp hb with hthread | hprocess
  · exact Or.inl (hs.thread t hthread)
  · exact Or.inr (hs.process hprocess)

omit [DecidableEq Thread] in
/-- What a thread sees is in the store. -/
theorem contains_getRule {s : Store Thread} (hs : Scoped s) {t : Thread}
    (hne : RuleStore.getRule t s ≠ 0#64) : contains t (RuleStore.getRule t s) s = true :=
  (contains_iff t _ s).mpr ⟨checkRule_getRule hs hne, subset_rfl⟩

/-- Removed as a whole, it leaves nothing to see. -/
theorem getRule_removeRule_getRule {s : Store Thread} (hs : Scoped s) {t : Thread}
    (hne : RuleStore.getRule t s ≠ 0#64) :
    RuleStore.getRule t (removeRule t (RuleStore.getRule t s) s) = 0#64 := by
  have hc := checkRule_getRule hs hne
  rw [eq_zero_iff]
  refine Set.eq_empty_of_forall_notMem ?_
  intro b hb
  rcases (mem_getRule t _ b).mp hb with hthread | hprocess
  · obtain ⟨hin, hout⟩ := (mem_thread_removeRule hc t t s b).mp hthread
    exact hout ⟨rfl, (mem_getRule t s b).mpr (Or.inl hin)⟩
  · obtain ⟨hin, hout⟩ := (mem_process_removeRule hc t s b).mp hprocess
    exact hout ((mem_getRule t s b).mpr (Or.inr hin))

-- ── The binding on what it gave out ───────────────────────────────────────────────

/-- Removing by the unsigned value removes the word. -/
theorem aniRemoveRule_toNat {v : Word} (hv : v ≠ 0#64) (t : Thread) (s : Store Thread) :
    (Ani.removeRule rt.toBigintRuntime t (.bigint v.toNat) s).1 = removeRule t v s := by
  simp only [Ani.removeRule, getRuleParam_toNat]
  exact congrArg Prod.fst (if_pos hv)

omit [DecidableEq Thread] in
/-- What a thread sees is handed out as its unsigned value. -/
theorem getRule_eq {env : Env} (h : env.succeeds = true) (t : Thread) (s : Store Thread) :
    getRule rt env t s = some ((RuleStore.getRule t s).toNat : Int) := by
  rw [getRule, buildBigintResult_eq, if_pos h]

/-- **Rule values survive the way out and back.** Where the runtime's calls succeed, every
    word is handed out as its unsigned value, and `GetRule` hands out the word that the
    thread sees. The `BigInt` of any word is decoded to the word, by way of a negative
    value for the words with the highest bit; and in every store that calls can lead to,
    what `GetRule` gave a thread is contained there, and once removed `GetRule` gives the
    thread zero. -/
theorem rule_values_survive (env : Env) :
    (env.succeeds = true → ∀ v : Word, buildBigintResult rt env v = some (v.toNat : Int))
      ∧ (env.succeeds = true → ∀ (h : List (Thread × RuleCall)) (t : Thread),
          getRule rt env t (replay h) = some ((RuleStore.getRule t (replay h)).toNat : Int))
      ∧ (∀ (v : Word) (n : Int), buildBigintResult rt env v = some n →
          Ani.getRuleParam rt.toBigintRuntime (.bigint n) = v
            ∧ (rt.getLong n < 0 ↔ 63 ∈ bits v))
      ∧ ∀ (h : List (Thread × RuleCall)) (t : Thread) (n : Int),
          getRule rt env t (replay h) = some n → n ≠ 0 →
          (Ani.contains rt.toBigintRuntime t (.bigint n) (replay h)).2.value = some true
            ∧ getRule rt env t (Ani.removeRule rt.toBigintRuntime t (.bigint n) (replay h)).1
              = some 0 := by
  refine ⟨?built, ?handed, ?decoded, ?used⟩
  case built =>
    intro hsucceeds v
    rw [buildBigintResult_eq, if_pos hsucceeds]
  case handed =>
    intro hsucceeds h t
    exact getRule_eq rt hsucceeds t (replay h)
  case decoded =>
    intro v n hbuilt
    obtain rfl := eq_toNat_of_built rt hbuilt
    exact ⟨getRuleParam_toNat rt v, getLong_neg_iff rt v⟩
  case used =>
    intro h t n hgot hne
    have hscoped := scoped_replay h
    have hsucceeds : env.succeeds = true := by
      rw [getRule, buildBigintResult_eq] at hgot
      exact (Option.ite_none_right_eq_some.mp hgot).1
    obtain rfl := eq_toNat_of_built rt hgot
    have hword : RuleStore.getRule t (replay h) ≠ 0#64 := by
      intro hzero
      rw [hzero] at hne
      exact hne rfl
    constructor
    · show some (contains t (Ani.getRuleParam rt.toBigintRuntime _) (replay h)) = _
      rw [getRuleParam_toNat, contains_getRule hscoped hword]
    · rw [aniRemoveRule_toNat rt hword, getRule_eq rt hsucceeds,
        getRule_removeRule_getRule hscoped hword]
      rfl

/-- The constructor of `BigInt` on numerals without a sign. -/
def newBigintOfDigits (text : String) : Option Int :=
  if !text.toList.isEmpty && text.toList.all Char.isDigit then
    some (Int.ofNat (Nat.ofDigitChars 10 text.toList 0))
  else none

def documentedAniRuntime : AniRuntime :=
  { documentedRuntime with
    newBigint := newBigintOfDigits
    newBigint_decimal := by
      intro text hne hdigits
      refine if_pos ?_
      rw [List.isEmpty_eq_false_iff.mpr hne, List.all_eq_true.mpr hdigits]
      rfl }

/-- The rule with the highest bit: its `BigInt` is 2⁶³, which is decoded to it; the thread
    that added it is given 2⁶³, and can take it back. -/
theorem rule_values_survive_printLog :
    buildBigintResult documentedAniRuntime ⟨true, true, true, true⟩ ruleCautionPrintLog
        = some (2 ^ 63)
      ∧ getRule documentedAniRuntime ⟨true, true, true, true⟩ (0 : Nat)
          (replay [(0, .add ruleCautionPrintLog)]) = some (2 ^ 63)
      ∧ Ani.getRuleParam documentedRuntime (.bigint (2 ^ 63)) = ruleCautionPrintLog
      ∧ getRule documentedAniRuntime ⟨true, true, true, true⟩ (0 : Nat)
          (Ani.removeRule documentedRuntime 0 (.bigint (2 ^ 63))
            (replay [(0, .add ruleCautionPrintLog)])).1 = some 0 := by
  obtain ⟨hbuilt, hgot, hdecoded, hused⟩ :=
    @rule_values_survive documentedAniRuntime Nat inferInstance ⟨true, true, true, true⟩
  have hword := hbuilt rfl ruleCautionPrintLog
  have hrule := hgot rfl [(0, .add ruleCautionPrintLog)] 0
  exact ⟨hword, hrule, (hdecoded _ _ hword).1, (hused _ 0 _ hrule (by decide)).2⟩

end RuleRoundTrip
