import HiChecker.BitMaskProofs
import Mathlib.Logic.Function.Basic
import Mathlib.Data.Set.BooleanAlgebra
import Mathlib.Order.CompletePartialOrder

/-!
# The rule store: one shared word and one word for each thread

The store of `frameworks/native/hichecker.cpp`. A process has one word of rules,
every thread has one of its own, and `checkMode` duplicates one bit of the shared
word so that it can be read without the lock. Every mutator holds `mutexLock_`
from its first line to its last, so a call is one step and an interleaving of
calls is a list of steps.

* **`Store`**, `checkRule`, `addRule`, `removeRule`, `getRule`, `contains` are the
  code's own.
* **`RuleSets`** is what the store is for: a set of rules for each thread and one
  for the process. **`abs_addRule`** and **`abs_removeRule`** say that the words
  compute exactly the unions and differences of these sets.
* **`Scoped`** is the invariant that the two kinds of words never hold each
  other's check rules, and that `checkMode` is the slow-event bit.
-/

namespace RuleStore

open BitMask

/-- `uint64_t`. -/
abbrev Word := BitVec 64

-- ── The rules (`hichecker.h`) ─────────────────────────────────────────────────────

/-- `RULE_CAUTION_PRINT_LOG`, and the other rules that the library knows. -/
def ruleCautionPrintLog : Word := 1#64 <<< 63
def ruleCautionTriggerCrash : Word := 1#64 <<< 62
def ruleThreadCheckSlowProcess : Word := 1#64
def ruleThreadCheckNetworkUsage : Word := 1#64 <<< 1
def ruleCheckSlowEvent : Word := 1#64 <<< 32
def ruleCheckAbilityConnectionLeak : Word := 1#64 <<< 33
def ruleCheckArkuiPerformance : Word := 1#64 <<< 34

/-- `ALL_RULES`. -/
def allRules : Word :=
  ruleCautionPrintLog ||| ruleCautionTriggerCrash ||| ruleThreadCheckSlowProcess
    ||| ruleCheckSlowEvent ||| ruleCheckAbilityConnectionLeak ||| ruleCheckArkuiPerformance
    ||| ruleThreadCheckNetworkUsage

/-- `ALL_PROCESS_RULES`. -/
def allProcessRules : Word :=
  ruleCheckSlowEvent ||| ruleCheckAbilityConnectionLeak ||| ruleCheckArkuiPerformance

/-- `ALL_THREAD_RULES`. -/
def allThreadRules : Word := ruleThreadCheckSlowProcess ||| ruleThreadCheckNetworkUsage

/-- `ALL_CAUTION_RULES`. -/
def allCautionRules : Word := ruleCautionPrintLog ||| ruleCautionTriggerCrash

@[simp] theorem bits_ruleCautionPrintLog : bits ruleCautionPrintLog = {63} :=
  bits_one_shiftLeft (by decide)

@[simp] theorem bits_ruleCautionTriggerCrash : bits ruleCautionTriggerCrash = {62} :=
  bits_one_shiftLeft (by decide)

@[simp] theorem bits_ruleThreadCheckSlowProcess : bits ruleThreadCheckSlowProcess = {0} :=
  bits_one_shiftLeft (n := 64) (k := 0) (by decide)

@[simp] theorem bits_ruleThreadCheckNetworkUsage : bits ruleThreadCheckNetworkUsage = {1} :=
  bits_one_shiftLeft (by decide)

@[simp] theorem bits_ruleCheckSlowEvent : bits ruleCheckSlowEvent = {32} :=
  bits_one_shiftLeft (by decide)

@[simp] theorem bits_ruleCheckAbilityConnectionLeak :
    bits ruleCheckAbilityConnectionLeak = {33} :=
  bits_one_shiftLeft (by decide)

@[simp] theorem bits_ruleCheckArkuiPerformance : bits ruleCheckArkuiPerformance = {34} :=
  bits_one_shiftLeft (by decide)

/-- The rules a thread word may hold. -/
def threadScope : Set Nat := bits allThreadRules ∪ bits allCautionRules

/-- The rules the process word may hold. -/
def processScope : Set Nat := bits allProcessRules ∪ bits allCautionRules

/-- The bits of the thread scope, one by one. -/
theorem mem_threadScope (b : Nat) : b ∈ threadScope ↔ b = 0 ∨ b = 1 ∨ b = 63 ∨ b = 62 := by
  simp only [threadScope, allThreadRules, allCautionRules, bits_or,
    bits_ruleThreadCheckSlowProcess, bits_ruleThreadCheckNetworkUsage,
    bits_ruleCautionPrintLog, bits_ruleCautionTriggerCrash, Set.mem_union,
    Set.mem_singleton_iff, or_assoc]

/-- The bits of the process scope, one by one. -/
theorem mem_processScope (b : Nat) :
    b ∈ processScope ↔ b = 32 ∨ b = 33 ∨ b = 34 ∨ b = 63 ∨ b = 62 := by
  simp only [processScope, allProcessRules, allCautionRules, bits_or,
    bits_ruleCheckSlowEvent, bits_ruleCheckAbilityConnectionLeak,
    bits_ruleCheckArkuiPerformance, bits_ruleCautionPrintLog,
    bits_ruleCautionTriggerCrash, Set.mem_union, Set.mem_singleton_iff, or_assoc]

/-- Every rule belongs to a thread, to the process, or to both. -/
theorem bits_allRules : bits allRules = threadScope ∪ processScope := by
  ext b
  rw [Set.mem_union, mem_threadScope, mem_processScope]
  simp only [allRules, bits_or, bits_ruleCautionPrintLog, bits_ruleCautionTriggerCrash,
    bits_ruleThreadCheckSlowProcess, bits_ruleCheckSlowEvent,
    bits_ruleCheckAbilityConnectionLeak, bits_ruleCheckArkuiPerformance,
    bits_ruleThreadCheckNetworkUsage, Set.mem_union, Set.mem_singleton_iff]
  omega

-- ── The store and its operations (`hichecker.cpp`) ────────────────────────────────

variable {Thread : Type}

/-- The static members of `HiChecker`; `threadLocalRules_` is `thread_local`. -/
structure Store (Thread : Type) where
  checkMode : Bool
  processRules : Word
  threadLocalRules : Thread → Word

/-- Static storage starts at zero. -/
def initial : Store Thread where
  checkMode := false
  processRules := 0#64
  threadLocalRules := fun _ => 0#64

/-- `CheckRule`: a rule of no bits, or with a bit outside `ALL_RULES`, is refused. -/
def checkRule (rule : Word) : Bool :=
  if rule ≤ 0#64 ∨ allRules ≠ (allRules ||| rule) then false else true

/-- `AddRule` called on thread `t`. -/
def addRule [DecidableEq Thread] (t : Thread) (rule : Word) (s : Store Thread) :
    Store Thread :=
  if checkRule rule = false then s
  else
    { checkMode := if ruleCheckSlowEvent &&& rule ≠ 0#64 then true else s.checkMode
      threadLocalRules := Function.update s.threadLocalRules t
        (s.threadLocalRules t ||| ((allThreadRules ||| allCautionRules) &&& rule))
      processRules := s.processRules ||| ((allProcessRules ||| allCautionRules) &&& rule) }

/-- `RemoveRule` called on thread `t`. -/
def removeRule [DecidableEq Thread] (t : Thread) (rule : Word) (s : Store Thread) :
    Store Thread :=
  if checkRule rule = false then s
  else
    { checkMode := if ruleCheckSlowEvent &&& rule ≠ 0#64 then false else s.checkMode
      threadLocalRules := Function.update s.threadLocalRules t
        (s.threadLocalRules t ^^^ (s.threadLocalRules t &&& rule))
      processRules := s.processRules ^^^ (s.processRules &&& rule) }

/-- `GetRule` called on thread `t`. -/
def getRule (t : Thread) (s : Store Thread) : Word :=
  s.threadLocalRules t ||| s.processRules

/-- `Contains` called on thread `t`. -/
def contains (t : Thread) (rule : Word) (s : Store Thread) : Bool :=
  if checkRule rule = false then false
  else rule == (rule &&& (s.threadLocalRules t ||| s.processRules))

/-- **Which rules are accepted**: a non-empty selection of known bits. -/
theorem checkRule_iff (rule : Word) :
    checkRule rule = true ↔ rule ≠ 0#64 ∧ bits rule ⊆ bits allRules := by
  have hle : rule ≤ 0#64 ↔ rule = 0#64 := BitVec.le_zero_iff
  have hor : allRules = allRules ||| rule ↔ bits rule ⊆ bits allRules := by
    rw [eq_comm]
    exact or_eq_left_iff allRules rule
  simp only [checkRule]
  by_cases h0 : rule = 0#64
  · simp [h0]
  · by_cases hsub : bits rule ⊆ bits allRules
    · rw [if_neg (by rw [hle, Ne, hor]; exact fun h => h.elim h0 (fun h' => h' hsub))]
      exact iff_of_true rfl ⟨h0, hsub⟩
    · rw [if_pos (Or.inr (fun h => hsub (hor.mp h)))]
      exact iff_of_false (by decide) (fun h => hsub h.2)

/-- **What `Contains` answers.** -/
theorem contains_iff (t : Thread) (rule : Word) (s : Store Thread) :
    contains t rule s = true ↔ checkRule rule = true ∧ bits rule ⊆ bits (getRule t s) := by
  simp only [contains, getRule]
  cases hc : checkRule rule with
  | false => simp
  | true =>
      rw [if_neg (by decide), beq_iff_eq, eq_and_iff]
      simp

/-- `GetRule` shows a bit when either word has it. -/
theorem mem_getRule (t : Thread) (s : Store Thread) (b : Nat) :
    b ∈ bits (getRule t s)
      ↔ b ∈ bits (s.threadLocalRules t) ∨ b ∈ bits s.processRules := by
  show b ∈ bits (s.threadLocalRules t ||| s.processRules) ↔ _
  rw [bits_or, Set.mem_union]

-- ── What the store is for: sets of rules ──────────────────────────────────────────

/-- The rules switched on: for each thread, and for the process. -/
structure RuleSets (Thread : Type) where
  ofThread : Thread → Set Nat
  ofProcess : Set Nat

/-- Switch rules on from thread `t`: each rule goes where its scope says. -/
def RuleSets.add [DecidableEq Thread] (t : Thread) (r : Set Nat) (A : RuleSets Thread) :
    RuleSets Thread where
  ofThread := Function.update A.ofThread t (A.ofThread t ∪ (threadScope ∩ r))
  ofProcess := A.ofProcess ∪ (processScope ∩ r)

/-- Switch rules off from thread `t`: on the thread itself and on the process. -/
def RuleSets.remove [DecidableEq Thread] (t : Thread) (r : Set Nat) (A : RuleSets Thread) :
    RuleSets Thread where
  ofThread := Function.update A.ofThread t (A.ofThread t \ r)
  ofProcess := A.ofProcess \ r

/-- The sets a store stands for. -/
def abs (s : Store Thread) : RuleSets Thread where
  ofThread := fun t => bits (s.threadLocalRules t)
  ofProcess := bits s.processRules

/-- Updating one thread's word updates that thread's set. -/
theorem bits_update [DecidableEq Thread] (f : Thread → Word) (t : Thread) (w : Word) :
    (fun u => bits (Function.update f t w u))
      = Function.update (fun u => bits (f u)) t (bits w) := by
  funext u
  by_cases hu : u = t
  · subst hu
    simp
  · simp [Function.update_of_ne hu]

/-- **An accepted `AddRule` is a union in each scope.** -/
theorem abs_addRule [DecidableEq Thread] (t : Thread) {rule : Word}
    (hc : checkRule rule = true) (s : Store Thread) :
    abs (addRule t rule s) = (abs s).add t (bits rule) := by
  simp only [addRule, abs, RuleSets.add]
  rw [if_neg (by rw [hc]; decide)]
  simp only [bits_update, bits_or, bits_and, threadScope, processScope]

/-- **An accepted `RemoveRule` is a difference in each scope.** -/
theorem abs_removeRule [DecidableEq Thread] (t : Thread) {rule : Word}
    (hc : checkRule rule = true) (s : Store Thread) :
    abs (removeRule t rule s) = (abs s).remove t (bits rule) := by
  simp only [removeRule, abs, RuleSets.remove]
  rw [if_neg (by rw [hc]; decide)]
  simp only [bits_update, bits_clear]

/-- A rejected `AddRule` changes nothing. -/
theorem addRule_rejected [DecidableEq Thread] (t : Thread) {rule : Word}
    (hc : checkRule rule = false) (s : Store Thread) : addRule t rule s = s :=
  if_pos hc

/-- A rejected `RemoveRule` changes nothing. -/
theorem removeRule_rejected [DecidableEq Thread] (t : Thread) {rule : Word}
    (hc : checkRule rule = false) (s : Store Thread) : removeRule t rule s = s :=
  if_pos hc

/-- What an addition does to the set of a thread. -/
theorem RuleSets.mem_ofThread_add [DecidableEq Thread] (A : RuleSets Thread)
    (t u : Thread) (r : Set Nat) (b : Nat) :
    b ∈ (A.add t r).ofThread u
      ↔ b ∈ A.ofThread u ∨ (t = u ∧ b ∈ threadScope ∧ b ∈ r) := by
  by_cases hu : u = t
  · subst hu
    simp [RuleSets.add]
  · simp [RuleSets.add, Function.update_of_ne hu, Ne.symm hu]

/-- What a removal does to the set of a thread. -/
theorem RuleSets.mem_ofThread_remove [DecidableEq Thread] (A : RuleSets Thread)
    (t u : Thread) (r : Set Nat) (b : Nat) :
    b ∈ (A.remove t r).ofThread u ↔ b ∈ A.ofThread u ∧ ¬ (t = u ∧ b ∈ r) := by
  by_cases hu : u = t
  · subst hu
    simp [RuleSets.remove]
  · simp [RuleSets.remove, Function.update_of_ne hu, Ne.symm hu]

-- The four bit lemmas: what an accepted call does to a bit of a word.

/-- The bits of a thread after `AddRule`. -/
theorem mem_thread_addRule [DecidableEq Thread] {rule : Word} (hc : checkRule rule = true)
    (t u : Thread) (s : Store Thread) (b : Nat) :
    b ∈ bits ((addRule t rule s).threadLocalRules u)
      ↔ b ∈ bits (s.threadLocalRules u) ∨ (t = u ∧ b ∈ threadScope ∧ b ∈ bits rule) := by
  have habs : bits ((addRule t rule s).threadLocalRules u)
      = ((abs s).add t (bits rule)).ofThread u :=
    congrFun (congrArg RuleSets.ofThread (abs_addRule t hc s)) u
  rw [habs]
  exact RuleSets.mem_ofThread_add (abs s) t u (bits rule) b

/-- The bits of a thread after `RemoveRule`. -/
theorem mem_thread_removeRule [DecidableEq Thread] {rule : Word}
    (hc : checkRule rule = true) (t u : Thread) (s : Store Thread) (b : Nat) :
    b ∈ bits ((removeRule t rule s).threadLocalRules u)
      ↔ b ∈ bits (s.threadLocalRules u) ∧ ¬ (t = u ∧ b ∈ bits rule) := by
  have habs : bits ((removeRule t rule s).threadLocalRules u)
      = ((abs s).remove t (bits rule)).ofThread u :=
    congrFun (congrArg RuleSets.ofThread (abs_removeRule t hc s)) u
  rw [habs]
  exact RuleSets.mem_ofThread_remove (abs s) t u (bits rule) b

/-- The bits of the process after `AddRule`. -/
theorem mem_process_addRule [DecidableEq Thread] {rule : Word} (hc : checkRule rule = true)
    (t : Thread) (s : Store Thread) (b : Nat) :
    b ∈ bits (addRule t rule s).processRules
      ↔ b ∈ bits s.processRules ∨ (b ∈ processScope ∧ b ∈ bits rule) := by
  have habs : bits (addRule t rule s).processRules
      = ((abs s).add t (bits rule)).ofProcess :=
    congrArg RuleSets.ofProcess (abs_addRule t hc s)
  rw [habs]
  rfl

/-- The bits of the process after `RemoveRule`. -/
theorem mem_process_removeRule [DecidableEq Thread] {rule : Word}
    (hc : checkRule rule = true) (t : Thread) (s : Store Thread) (b : Nat) :
    b ∈ bits (removeRule t rule s).processRules
      ↔ b ∈ bits s.processRules ∧ b ∉ bits rule := by
  have habs : bits (removeRule t rule s).processRules
      = ((abs s).remove t (bits rule)).ofProcess :=
    congrArg RuleSets.ofProcess (abs_removeRule t hc s)
  rw [habs]
  rfl

-- ── The scope invariant ───────────────────────────────────────────────────────────

/-- **Scope partition.** Thread words hold thread and caution rules, the process word
    holds process and caution rules, and `checkMode` is the slow-event bit. -/
structure Scoped (s : Store Thread) : Prop where
  thread : ∀ t, bits (s.threadLocalRules t) ⊆ threadScope
  process : bits s.processRules ⊆ processScope
  mode : s.checkMode = true ↔ 32 ∈ bits s.processRules

/-- The empty store is scoped. -/
theorem scoped_initial : Scoped (initial : Store Thread) where
  thread := by
    intro t
    simp [initial]
  process := by simp [initial]
  mode := by simp [initial]

/-- The slow-event test of both mutators reads bit 32 of the argument. -/
theorem slowEvent_test (rule : Word) :
    ruleCheckSlowEvent &&& rule ≠ 0#64 ↔ 32 ∈ bits rule := by
  rw [BitVec.and_comm]
  exact and_ne_zero_iff_mem rule bits_ruleCheckSlowEvent

/-- `AddRule` sets the flag for a slow event, and never clears it. -/
theorem checkMode_addRule [DecidableEq Thread] {rule : Word} (hc : checkRule rule = true)
    (t : Thread) (s : Store Thread) :
    (addRule t rule s).checkMode = true ↔ s.checkMode = true ∨ 32 ∈ bits rule := by
  rw [addRule, if_neg (by rw [hc]; decide)]
  change (if ruleCheckSlowEvent &&& rule ≠ 0#64 then true else s.checkMode) = true ↔ _
  by_cases h32 : 32 ∈ bits rule
  · rw [if_pos ((slowEvent_test rule).mpr h32)]
    exact iff_of_true rfl (Or.inr h32)
  · rw [if_neg (fun h => h32 ((slowEvent_test rule).mp h))]
    exact (or_iff_left h32).symm

/-- `RemoveRule` clears the flag for a slow event, and never sets it. -/
theorem checkMode_removeRule [DecidableEq Thread] {rule : Word}
    (hc : checkRule rule = true) (t : Thread) (s : Store Thread) :
    (removeRule t rule s).checkMode = true ↔ s.checkMode = true ∧ 32 ∉ bits rule := by
  rw [removeRule, if_neg (by rw [hc]; decide)]
  change (if ruleCheckSlowEvent &&& rule ≠ 0#64 then false else s.checkMode) = true ↔ _
  by_cases h32 : 32 ∈ bits rule
  · rw [if_pos ((slowEvent_test rule).mpr h32)]
    exact iff_of_false Bool.false_ne_true (fun h => h.2 h32)
  · rw [if_neg (fun h => h32 ((slowEvent_test rule).mp h))]
    exact (and_iff_left h32).symm

/-- `AddRule` keeps the store scoped. -/
theorem scoped_addRule [DecidableEq Thread] {s : Store Thread} (h : Scoped s)
    (t : Thread) (rule : Word) : Scoped (addRule t rule s) := by
  cases hc : checkRule rule with
  | false => rw [addRule_rejected t hc]; exact h
  | true =>
      refine ⟨?_, ?_, ?_⟩
      · intro u b hb
        rcases (mem_thread_addRule hc t u s b).mp hb with hold | ⟨-, hscope, -⟩
        · exact h.thread u hold
        · exact hscope
      · intro b hb
        rcases (mem_process_addRule hc t s b).mp hb with hold | ⟨hscope, -⟩
        · exact h.process hold
        · exact hscope
      · have hscope : (32 : Nat) ∈ processScope := by
          rw [mem_processScope]
          omega
        rw [checkMode_addRule hc, mem_process_addRule hc, h.mode]
        exact or_congr_right (and_iff_right hscope).symm

/-- `RemoveRule` keeps the store scoped. -/
theorem scoped_removeRule [DecidableEq Thread] {s : Store Thread} (h : Scoped s)
    (t : Thread) (rule : Word) : Scoped (removeRule t rule s) := by
  cases hc : checkRule rule with
  | false => rw [removeRule_rejected t hc]; exact h
  | true =>
      refine ⟨?_, ?_, ?_⟩
      · intro u b hb
        exact h.thread u ((mem_thread_removeRule hc t u s b).mp hb).1
      · intro b hb
        exact h.process ((mem_process_removeRule hc t s b).mp hb).1
      · rw [checkMode_removeRule hc, mem_process_removeRule hc, h.mode]

-- ── When a call changes nothing ───────────────────────────────────────────────────

/-- Stores are equal when their words and flag are. -/
theorem store_ext {s s' : Store Thread} (hmode : s.checkMode = s'.checkMode)
    (hprocess : bits s.processRules = bits s'.processRules)
    (hthread : ∀ t, bits (s.threadLocalRules t) = bits (s'.threadLocalRules t)) :
    s = s' := by
  cases s with
  | mk m p f =>
      cases s' with
      | mk m' p' f' =>
          have hm : m = m' := hmode
          have hp : p = p' := bits_inj hprocess
          have hf : f = f' := funext (fun u => bits_inj (hthread u))
          rw [hm, hp, hf]

/-- Two scoped stores with the same words are equal: the flag is one of the bits. -/
theorem scoped_ext {s s' : Store Thread} (hs : Scoped s) (hs' : Scoped s')
    (hprocess : bits s.processRules = bits s'.processRules)
    (hthread : ∀ u, bits (s.threadLocalRules u) = bits (s'.threadLocalRules u)) :
    s = s' := by
  refine store_ext ?_ hprocess hthread
  rw [Bool.eq_iff_iff, hs.mode, hs'.mode, hprocess]

/-- When an `AddRule` changes nothing. -/
theorem addRule_eq_self_iff [DecidableEq Thread] (t : Thread) (w : Word) {s : Store Thread}
    (hs : Scoped s) :
    addRule t w s = s ↔ checkRule w = false
      ∨ (threadScope ∩ bits w ⊆ bits (s.threadLocalRules t)
          ∧ processScope ∩ bits w ⊆ bits s.processRules) := by
  cases hc : checkRule w with
  | false => exact iff_of_true (addRule_rejected t hc s) (Or.inl rfl)
  | true =>
      rw [or_iff_right (Bool.noConfusion : ¬ true = false)]
      constructor
      · intro heq
        constructor
        · intro b hb
          have h := (mem_thread_addRule hc t t s b).mpr (Or.inr ⟨rfl, hb.1, hb.2⟩)
          rwa [heq] at h
        · intro b hb
          have h := (mem_process_addRule hc t s b).mpr (Or.inr ⟨hb.1, hb.2⟩)
          rwa [heq] at h
      · rintro ⟨hthread, hprocess⟩
        refine scoped_ext (scoped_addRule hs t w) hs ?_ ?_
        · ext b
          rw [mem_process_addRule hc]
          exact or_iff_left_of_imp (fun h => hprocess ⟨h.1, h.2⟩)
        · intro u
          ext b
          rw [mem_thread_addRule hc]
          exact or_iff_left_of_imp (fun h => h.1 ▸ hthread ⟨h.2.1, h.2.2⟩)

/-- When a `RemoveRule` changes nothing. -/
theorem removeRule_eq_self_iff [DecidableEq Thread] (t : Thread) (w : Word) {s : Store Thread}
    (hs : Scoped s) :
    removeRule t w s = s
      ↔ checkRule w = false ∨ Disjoint (bits w) (bits (getRule t s)) := by
  cases hc : checkRule w with
  | false => exact iff_of_true (removeRule_rejected t hc s) (Or.inl rfl)
  | true =>
      rw [or_iff_right (Bool.noConfusion : ¬ true = false), Set.disjoint_left]
      constructor
      · intro heq b hb hget
        rcases (mem_getRule t s b).mp hget with hthread | hprocess
        · rw [← heq] at hthread
          exact ((mem_thread_removeRule hc t t s b).mp hthread).2 ⟨rfl, hb⟩
        · rw [← heq] at hprocess
          exact ((mem_process_removeRule hc t s b).mp hprocess).2 hb
      · intro hdisj
        refine scoped_ext (scoped_removeRule hs t w) hs ?_ ?_
        · ext b
          rw [mem_process_removeRule hc]
          exact and_iff_left_of_imp
            (fun hp hb => hdisj hb ((mem_getRule t s b).mpr (Or.inr hp)))
        · intro u
          ext b
          rw [mem_thread_removeRule hc]
          refine and_iff_left_of_imp (fun hp h => ?_)
          obtain ⟨rfl, hb⟩ := h
          exact hdisj hb ((mem_getRule t s b).mpr (Or.inl hp))

/-- `Contains` says no when the word is rejected or not all there. -/
theorem contains_eq_false_iff (t : Thread) (w : Word) (s : Store Thread) :
    contains t w s = false
      ↔ checkRule w = false ∨ ¬ bits w ⊆ bits (getRule t s) := by
  rw [← Bool.not_eq_true, contains_iff, not_and_or, Bool.not_eq_true]

end RuleStore
