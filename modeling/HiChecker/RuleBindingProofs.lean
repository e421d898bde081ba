import HiChecker.RuleTraceProofs
import Mathlib.Algebra.Group.Int.Defs

/-!
# The two language bindings of the rule store

`interfaces/js/kits/napi/src/napi_hichecker.cpp` (dynamic) and
`interfaces/ets/ani/hichecker/src/ani_hichecker.cpp` (static) expose the same six
functions on a `bigint`. They decode it differently: N-API asks for a lossless
64-bit value and gives up otherwise, ANI takes `getLong`, the low 64 bits.

* **`Napi`** and **`Ani`** are the two bindings, function by function.
* **`bindings_agree_iff`** says for which call on which integer in which state they
  agree. On every word they do. Beyond the words N-API sees nothing and ANI sees
  the wrapped word, so they agree only where that word makes no difference, and
  the three checking functions differ wherever the wrapped word is not zero.
-/

namespace RuleBinding

open BitMask RuleStore RuleTrace

/-- A JavaScript argument, as far as the bindings look at it. -/
inductive Argument where
  | bigint (n : Int)
  | other

/-- What the two runtimes document about reading a `bigint` as 64 bits. -/
structure BigintRuntime where
  /-- `napi_get_value_bigint_uint64`: the value and the `lossless` flag -/
  getValueBigintUint64 : Int → Word × Bool
  /-- `BigInt.getLong`, an `ani_long` -/
  getLong : Int → Int
  lossless_iff : ∀ n, (getValueBigintUint64 n).2 = true ↔ 0 ≤ n ∧ n < 2 ^ 64
  value_of_lossless : ∀ n, 0 ≤ n → n < 2 ^ 64 →
    (getValueBigintUint64 n).1 = BitVec.ofInt 64 n
  getLong_eq : ∀ n, getLong n = (BitVec.ofInt 64 n).toInt

/-- A thrown `BusinessError`. -/
structure Thrown where
  code : Nat
  message : String
deriving DecidableEq

/-- What a call gives its caller: the error it threw, and the boolean it returned. -/
structure Reply where
  thrown : Option Thrown := none
  value : Option Bool := none
deriving DecidableEq

/-- `GET_RULE_PARAM_FAIL`: a word that selects no rule stands for a failed call. -/
def getRuleParamFail : Word := 0#64

/-- `ERR_PARAM`, the one code that the bindings throw. -/
def errParam : Nat := 401

/-- The `errMap` of both `ThrowError` functions. -/
def errMap (errCode : Nat) : Option String :=
  if errCode = errParam then
    some "Invalid input parameter! only one bigint type parameter is needed"
  else none

/-- `ThrowError` of both bindings. -/
def throwBusinessError (errCode : Nat) : Option Thrown :=
  (errMap errCode).map (fun message => { code := errCode, message := message })

variable {Thread : Type} [DecidableEq Thread] (rt : BigintRuntime)

-- ── N-API ─────────────────────────────────────────────────────────────────────────

namespace Napi

/-- `GetRuleParam`: one argument, a bigint, lossless. -/
def getRuleParam : List Argument → Word
  | [.bigint n] =>
      let (rule, lossless) := rt.getValueBigintUint64 n
      if lossless then rule else getRuleParamFail
  | _ => getRuleParamFail

/-- `AddRule`: a parameter that was not read is ignored. -/
def addRule (t : Thread) (info : List Argument) (s : Store Thread) : Store Thread × Reply :=
  let rule := getRuleParam rt info
  if rule ≠ getRuleParamFail then (RuleStore.addRule t rule s, {}) else (s, {})

/-- `RemoveRule`: a parameter that was not read is ignored. -/
def removeRule (t : Thread) (info : List Argument) (s : Store Thread) :
    Store Thread × Reply :=
  let rule := getRuleParam rt info
  if rule ≠ getRuleParamFail then (RuleStore.removeRule t rule s, {}) else (s, {})

/-- `Contains`: the store is asked whatever was read. -/
def contains (t : Thread) (info : List Argument) (s : Store Thread) : Store Thread × Reply :=
  let rule := getRuleParam rt info
  (s, { value := some (RuleStore.contains t rule s) })

/-- `AddCheckRule`: a parameter that was not read is thrown. -/
def addCheckRule (t : Thread) (info : List Argument) (s : Store Thread) :
    Store Thread × Reply :=
  let rule := getRuleParam rt info
  if rule ≠ getRuleParamFail then (RuleStore.addRule t rule s, {})
  else (s, { thrown := throwBusinessError errParam })

/-- `RemoveCheckRule`: a parameter that was not read is thrown. -/
def removeCheckRule (t : Thread) (info : List Argument) (s : Store Thread) :
    Store Thread × Reply :=
  let rule := getRuleParam rt info
  if rule ≠ getRuleParamFail then (RuleStore.removeRule t rule s, {})
  else (s, { thrown := throwBusinessError errParam })

/-- `ContainsCheckRule`: it throws, and asks the store all the same. -/
def containsCheckRule (t : Thread) (info : List Argument) (s : Store Thread) :
    Store Thread × Reply :=
  let rule := getRuleParam rt info
  let thrown := if rule = getRuleParamFail then throwBusinessError errParam else none
  (s, { thrown := thrown, value := some (RuleStore.contains t rule s) })

end Napi

-- ── ANI ───────────────────────────────────────────────────────────────────────────

namespace Ani

/-- `GetRuleParam`: a `BigInt` object, read by `getLong` and cast to `uint64_t`. -/
def getRuleParam : Argument → Word
  | .bigint n => BitVec.ofInt 64 (rt.getLong n)
  | .other => getRuleParamFail

/-- `AddRule`: a parameter that was not read is ignored. -/
def addRule (t : Thread) (rule : Argument) (s : Store Thread) : Store Thread × Reply :=
  let ruleVal := getRuleParam rt rule
  if ruleVal ≠ getRuleParamFail then (RuleStore.addRule t ruleVal s, {}) else (s, {})

/-- `RemoveRule`: a parameter that was not read is ignored. -/
def removeRule (t : Thread) (rule : Argument) (s : Store Thread) : Store Thread × Reply :=
  let ruleVal := getRuleParam rt rule
  if ruleVal ≠ getRuleParamFail then (RuleStore.removeRule t ruleVal s, {}) else (s, {})

/-- `Contains`: the store is asked whatever was read. -/
def contains (t : Thread) (rule : Argument) (s : Store Thread) : Store Thread × Reply :=
  let ruleVal := getRuleParam rt rule
  (s, { value := some (RuleStore.contains t ruleVal s) })

/-- `AddCheckRule`: a parameter that was not read is thrown. -/
def addCheckRule (t : Thread) (rule : Argument) (s : Store Thread) : Store Thread × Reply :=
  let ruleVal := getRuleParam rt rule
  if ruleVal ≠ getRuleParamFail then (RuleStore.addRule t ruleVal s, {})
  else (s, { thrown := throwBusinessError errParam })

/-- `RemoveCheckRule`: a parameter that was not read is thrown. -/
def removeCheckRule (t : Thread) (rule : Argument) (s : Store Thread) :
    Store Thread × Reply :=
  let ruleVal := getRuleParam rt rule
  if ruleVal ≠ getRuleParamFail then (RuleStore.removeRule t ruleVal s, {})
  else (s, { thrown := throwBusinessError errParam })

/-- `ContainsCheckRule`: it throws, and asks the store all the same. -/
def containsCheckRule (t : Thread) (rule : Argument) (s : Store Thread) :
    Store Thread × Reply :=
  let ruleVal := getRuleParam rt rule
  let thrown := if ruleVal = getRuleParamFail then throwBusinessError errParam else none
  (s, { thrown := thrown, value := some (RuleStore.contains t ruleVal s) })

end Ani

-- ── The six functions, uniformly ──────────────────────────────────────────────────

/-- The functions both bindings export. -/
inductive Op where
  | addRule
  | removeRule
  | contains
  | addCheckRule
  | removeCheckRule
  | containsCheckRule
deriving DecidableEq

/-- A call of the dynamic binding. -/
def Napi.call (t : Thread) : Op → List Argument → Store Thread → Store Thread × Reply
  | .addRule => Napi.addRule rt t
  | .removeRule => Napi.removeRule rt t
  | .contains => Napi.contains rt t
  | .addCheckRule => Napi.addCheckRule rt t
  | .removeCheckRule => Napi.removeCheckRule rt t
  | .containsCheckRule => Napi.containsCheckRule rt t

/-- A call of the static binding. -/
def Ani.call (t : Thread) : Op → Argument → Store Thread → Store Thread × Reply
  | .addRule => Ani.addRule rt t
  | .removeRule => Ani.removeRule rt t
  | .contains => Ani.contains rt t
  | .addCheckRule => Ani.addCheckRule rt t
  | .removeCheckRule => Ani.removeCheckRule rt t
  | .containsCheckRule => Ani.containsCheckRule rt t

/-- **What a call does with a decoded word**, in either binding. -/
def onWord (t : Thread) (op : Op) (w : Word) (s : Store Thread) : Store Thread × Reply :=
  match op with
  | .addRule => if w ≠ 0#64 then (RuleStore.addRule t w s, {}) else (s, {})
  | .removeRule => if w ≠ 0#64 then (RuleStore.removeRule t w s, {}) else (s, {})
  | .contains => (s, { value := some (RuleStore.contains t w s) })
  | .addCheckRule =>
      if w ≠ 0#64 then (RuleStore.addRule t w s, {})
      else (s, { thrown := throwBusinessError errParam })
  | .removeCheckRule =>
      if w ≠ 0#64 then (RuleStore.removeRule t w s, {})
      else (s, { thrown := throwBusinessError errParam })
  | .containsCheckRule =>
      (s, { thrown := if w = 0#64 then throwBusinessError errParam else none
            value := some (RuleStore.contains t w s) })

/-- A native call depends on its arguments through the word read from them. -/
theorem Napi.call_eq (t : Thread) (op : Op) (info : List Argument) (s : Store Thread) :
    Napi.call rt t op info s = onWord t op (Napi.getRuleParam rt info) s := by
  cases op <;> rfl

/-- So does a static call. -/
theorem Ani.call_eq (t : Thread) (op : Op) (rule : Argument) (s : Store Thread) :
    Ani.call rt t op rule s = onWord t op (Ani.getRuleParam rt rule) s := by
  cases op <;> rfl

-- ── The two decoders ──────────────────────────────────────────────────────────────

/-- The low 64 bits of an integer. -/
def low64 (n : Int) : Word := BitVec.ofInt 64 n

/-- A number of 64 bits is read as it is. -/
theorem Napi.getRuleParam_inRange {n : Int} (h : 0 ≤ n ∧ n < 2 ^ 64) :
    Napi.getRuleParam rt [.bigint n] = low64 n := by
  have hl := (rt.lossless_iff n).mpr h
  have hv := rt.value_of_lossless n h.1 h.2
  change (if (rt.getValueBigintUint64 n).2 then (rt.getValueBigintUint64 n).1
    else getRuleParamFail) = low64 n
  rw [if_pos hl, hv]
  rfl

/-- Any other number is not lossless, and is refused. -/
theorem Napi.getRuleParam_outOfRange {n : Int} (h : ¬ (0 ≤ n ∧ n < 2 ^ 64)) :
    Napi.getRuleParam rt [.bigint n] = 0#64 := by
  have hl : ¬ (rt.getValueBigintUint64 n).2 = true := fun hl => h ((rt.lossless_iff n).mp hl)
  change (if (rt.getValueBigintUint64 n).2 then (rt.getValueBigintUint64 n).1
    else getRuleParamFail) = 0#64
  rw [if_neg hl]
  rfl

/-- `getLong` and the cast read every number modulo `2 ^ 64`. -/
theorem Ani.getRuleParam_bigint (n : Int) :
    Ani.getRuleParam rt (.bigint n) = low64 n := by
  change BitVec.ofInt 64 (rt.getLong n) = low64 n
  rw [rt.getLong_eq, BitVec.ofInt_toInt]
  rfl

-- ── Where the bindings agree ──────────────────────────────────────────────────────

/-- Both bindings throw, leave the store and answer alike. -/
def Agree (t : Thread) (op : Op) (n : Int) (s : Store Thread) : Prop :=
  Napi.call rt t op [.bigint n] s = Ani.call rt t op (.bigint n) s

/-- The wrapped word makes no difference to the call: the function does not report a
    bad argument, and the word is rejected, or its bits are already as the call
    would leave them. -/
def Harmless (t : Thread) (op : Op) (w : Word) (s : Store Thread) : Prop :=
  match op with
  | .addRule => checkRule w = false
      ∨ (threadScope ∩ bits w ⊆ bits (s.threadLocalRules t)
          ∧ processScope ∩ bits w ⊆ bits s.processRules)
  | .removeRule => checkRule w = false ∨ Disjoint (bits w) (bits (getRule t s))
  | .contains => checkRule w = false ∨ ¬ bits w ⊆ bits (getRule t s)
  | .addCheckRule => False
  | .removeCheckRule => False
  | .containsCheckRule => False

/-- **Seeing a word or seeing zero**: a call cannot tell a non-zero word from zero
    exactly when the word is harmless to it. -/
theorem onWord_zero_iff (t : Thread) (op : Op) {w : Word} (hw : w ≠ 0#64)
    {s : Store Thread} (hs : Scoped s) :
    onWord t op 0#64 s = onWord t op w s ↔ Harmless t op w s := by
  have hthrow : throwBusinessError errParam ≠ none := by decide
  cases op with
  | addRule =>
      have hiff := addRule_eq_self_iff t w hs
      simp only [onWord, Harmless, if_pos hw, ne_eq, not_true_eq_false, if_false,
        Prod.mk.injEq, and_true]
      rw [← hiff]
      exact eq_comm
  | removeRule =>
      have hiff := removeRule_eq_self_iff t w hs
      simp only [onWord, Harmless, if_pos hw, ne_eq, not_true_eq_false, if_false,
        Prod.mk.injEq, and_true]
      rw [← hiff]
      exact eq_comm
  | contains =>
      have hzero : RuleStore.contains t 0#64 s = false :=
        (contains_eq_false_iff t 0#64 s).mpr (Or.inl (by decide))
      have hiff := contains_eq_false_iff t w s
      simp only [onWord, Harmless, hzero, Prod.mk.injEq, true_and, Reply.mk.injEq,
        Option.some.injEq]
      rw [← hiff]
      exact eq_comm
  | addCheckRule =>
      simp only [onWord, Harmless, if_pos hw, ne_eq, not_true_eq_false, if_false,
        Prod.mk.injEq, Reply.mk.injEq, and_true, iff_false, not_and]
      exact fun _ => hthrow
  | removeCheckRule =>
      simp only [onWord, Harmless, if_pos hw, ne_eq, not_true_eq_false, if_false,
        Prod.mk.injEq, Reply.mk.injEq, and_true, iff_false, not_and]
      exact fun _ => hthrow
  | containsCheckRule =>
      simp only [onWord, Harmless, if_neg hw, if_true, Prod.mk.injEq, true_and,
        Reply.mk.injEq, iff_false, not_and]
      exact fun h => absurd h hthrow

/-- **Where the two bindings agree**, for every integer, every function, every thread and
    every reachable store: on the 64-bit words, on the multiples of 2⁶⁴, and where
    the wrapped word is harmless to the call. -/
theorem bindings_agree_iff (h : List (Thread × RuleCall)) (t : Thread) (op : Op) (n : Int) :
    Agree rt t op n (replay h)
      ↔ (0 ≤ n ∧ n < 2 ^ 64) ∨ low64 n = 0#64 ∨ Harmless t op (low64 n) (replay h) := by
  rw [Agree, Napi.call_eq, Ani.call_eq, Ani.getRuleParam_bigint]
  by_cases hr : 0 ≤ n ∧ n < 2 ^ 64
  · rw [Napi.getRuleParam_inRange rt hr]
    exact iff_of_true rfl (Or.inl hr)
  · rw [Napi.getRuleParam_outOfRange rt hr, or_iff_right hr]
    by_cases hz : low64 n = 0#64
    · rw [hz]
      exact iff_of_true rfl (Or.inl rfl)
    · rw [or_iff_right hz]
      exact onWord_zero_iff t op hz (scoped_replay h)

/-- The documented behaviour is that of a runtime. -/
def documentedRuntime : BigintRuntime where
  getValueBigintUint64 := fun n => (BitVec.ofInt 64 n, decide (0 ≤ n ∧ n < 2 ^ 64))
  getLong := fun n => (BitVec.ofInt 64 n).toInt
  lossless_iff := fun _ => decide_eq_true_iff
  value_of_lossless := fun _ _ _ => rfl
  getLong_eq := fun _ => rfl

/-- 2⁶⁴ + 1 wraps to a legal rule: the dynamic binding throws, the static one adds it. -/
theorem bindings_disagree :
    ¬ Agree documentedRuntime (0 : Nat) .addCheckRule (2 ^ 64 + 1) (replay []) := by
  intro h
  have hthrown := congrArg (fun p => p.2.thrown) h
  exact absurd hthrown (by decide)

end RuleBinding
