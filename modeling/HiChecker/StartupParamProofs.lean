import HiChecker.CautionProofs
import Mathlib.Algebra.Ring.Nat

/-!
# Rules from a startup parameter, and the flag that stands for one of them

`InitHicheckerParam` of `hichecker.cpp` reads the system parameter
`hiviewdfx.hichecker.<process>` and may switch one rule on. It touches the store only
through `AddRule`, so with it the store still has the two mutators of before.

* **`initHicheckerParam`** is the code's own; `GetParameter` is the system's, and its
  answer is an argument.
* **`initHicheckerParam_cases`** — whatever the parameter holds, the call does nothing
  or adds `RULE_CHECK_ARKUI_PERFORMANCE`.
* **`slowEvent_flag_agrees`** — after every history of calls by all threads, the scopes
  are kept apart, and the unlocked flag, the locked query and the notification give
  the same verdict on slow events.
-/

namespace StartupParam

open BitMask RuleStore RuleTrace CautionNotify

-- ── Strings of C ──────────────────────────────────────────────────────────────────

/-- The bytes of a string, without the terminating zero. -/
abbrev Bytes := List UInt8

/-- The characters that the parameter is split and signed by. -/
def space : UInt8 := 0x20
def plus : UInt8 := 0x2b
def minus : UInt8 := 0x2d

/-- `isspace`: the blank and the characters from tab to carriage return. -/
def isSpace (b : UInt8) : Bool := b = space || (0x09 ≤ b && b ≤ 0x0d)

/-- `isdigit`. -/
def isDigit (b : UInt8) : Bool := 0x30 ≤ b && b ≤ 0x39

/-- The number that decimal digits write. -/
def numeral (digits : Bytes) : Nat :=
  digits.foldl (fun n d => 10 * n + (d.toNat - 0x30)) 0

/-- The optional sign of a numeral: whether it is a minus, and what follows it. -/
def sign : Bytes → Bool × Bytes
  | [] => (false, [])
  | b :: s => if b = minus then (true, s) else if b = plus then (false, s) else (false, b :: s)

/-- `strtoull` to base 10: blanks, a sign, digits, and anything after them; out of range
    is `ULLONG_MAX`, a minus negates in 64 bits. -/
def strtoull (s : Bytes) : Word :=
  let signed := sign (s.dropWhile isSpace)
  let n := numeral (signed.2.takeWhile isDigit)
  if 2 ^ 64 ≤ n then BitVec.allOnes 64
  else if signed.1 then -(BitVec.ofNat 64 n)
  else BitVec.ofNat 64 n

/-- `strcat_s`: the joined string, or an error when there is no source or the buffer
    cannot hold it with its terminating zero. -/
def strcat_s (dest : Bytes) (destMax : Nat) (src : Option Bytes) : Option Bytes :=
  match src with
  | none => none
  | some src => if dest.length + src.length < destMax then some (dest ++ src) else none

-- ── `InitHicheckerParam` ──────────────────────────────────────────────────────────

/-- `PARAM_BUF_LEN`, and the other constants of the file. -/
def paramBufLen : Nat := 128
def querynameLen : Nat := 80
def allowedRule : Word := ruleCheckArkuiPerformance

/-- The initial bytes of `checkerName`. -/
def checkerPrefix : Bytes := "hiviewdfx.hichecker.".toUTF8.toList

/-- What `GetParameter` returned and left in the buffer. -/
structure ParamRead where
  retLen : Int
  paramOutBuf : Bytes

/-- The buffer as a string, once its byte `retLen` is zero. -/
def ParamRead.value (read : ParamRead) : Bytes :=
  (read.paramOutBuf.take read.retLen.toNat).takeWhile (fun b => b ≠ 0)

variable {Thread : Type}

/-- `InitHicheckerParam` called on thread `t`; a null name is `none`. -/
def initHicheckerParam [DecidableEq Thread] (getParameter : Bytes → ParamRead) (t : Thread)
    (processName : Option Bytes) (s : Store Thread) : Store Thread :=
  match strcat_s checkerPrefix querynameLen processName with
  | none => s
  | some checkerName =>
      let read := getParameter checkerName
      if read.retLen ≤ 0 ∨ (paramBufLen : Int) - 1 < read.retLen then s
      else
        let rule := strtoull read.value
        if rule &&& allowedRule = 0#64 then s
        else addRule t (rule &&& allowedRule) s

/-- The mask has one bit, so what is left of a word under it is nothing or all of it. -/
theorem and_allowedRule (rule : Word) (h : rule &&& allowedRule ≠ 0#64) :
    rule &&& allowedRule = allowedRule := by
  have hmem : 34 ∈ bits rule :=
    (and_ne_zero_iff_mem rule bits_ruleCheckArkuiPerformance).mp h
  have hsub : bits allowedRule ⊆ bits rule := by
    rw [show bits allowedRule = {34} from bits_ruleCheckArkuiPerformance]
    exact Set.singleton_subset_iff.mpr hmem
  rw [BitVec.and_comm]
  exact ((eq_and_iff allowedRule rule).mpr hsub).symm

/-- **The two outcomes of `InitHicheckerParam`.** -/
theorem initHicheckerParam_cases [DecidableEq Thread] (getParameter : Bytes → ParamRead)
    (t : Thread) (processName : Option Bytes) (s : Store Thread) :
    initHicheckerParam getParameter t processName s = s
      ∨ initHicheckerParam getParameter t processName s
          = addRule t ruleCheckArkuiPerformance s := by
  rw [initHicheckerParam]
  cases strcat_s checkerPrefix querynameLen processName with
  | none => exact Or.inl rfl
  | some checkerName =>
      let read := getParameter checkerName
      by_cases hlen : read.retLen ≤ 0 ∨ (paramBufLen : Int) - 1 < read.retLen
      · exact Or.inl (if_pos hlen)
      · by_cases hrule : strtoull read.value &&& allowedRule = 0#64
        · exact Or.inl ((if_neg hlen).trans (if_pos hrule))
        · refine Or.inr ((if_neg hlen).trans ((if_neg hrule).trans ?_))
          rw [and_allowedRule _ hrule]
          rfl

/-- A name that fits, and the parameter set to the decimal text of bit 34. -/
example :
    initHicheckerParam (fun _ => ⟨11, "17179869184".toUTF8.toList⟩) () (some []) initial
      = addRule () ruleCheckArkuiPerformance initial := by
  rcases initHicheckerParam_cases (fun _ => ⟨11, "17179869184".toUTF8.toList⟩) ()
    (some []) initial with h | h
  · exact absurd (congrArg Store.processRules h) (by decide +kernel)
  · exact h

-- ── Histories with startup parameters ─────────────────────────────────────────────

/-- A call that may change the store, with what the system answers it. -/
inductive StoreCall where
  | addRule (rule : Word)
  | removeRule (rule : Word)
  | initHicheckerParam (getParameter : Bytes → ParamRead) (processName : Option Bytes)

variable [DecidableEq Thread]

/-- The call, made on thread `t`; `mutexLock_` makes the part that writes one step. -/
def StoreCall.run (t : Thread) : StoreCall → Store Thread → Store Thread
  | .addRule rule, s => RuleStore.addRule t rule s
  | .removeRule rule, s => RuleStore.removeRule t rule s
  | .initHicheckerParam getParameter processName, s =>
      StartupParam.initHicheckerParam getParameter t processName s

/-- The store after a history of calls, from all-zero state. -/
def storeAfter (h : List (Thread × StoreCall)) : Store Thread :=
  h.foldl (fun s e => e.2.run e.1 s) initial

/-- A call keeps the scopes. -/
theorem scoped_run (t : Thread) (c : StoreCall) {s : Store Thread} (hs : Scoped s) :
    Scoped (c.run t s) := by
  cases c with
  | addRule rule => exact scoped_addRule hs t rule
  | removeRule rule => exact scoped_removeRule hs t rule
  | initHicheckerParam getParameter processName =>
      show Scoped (initHicheckerParam getParameter t processName s)
      rcases initHicheckerParam_cases getParameter t processName s with h | h
      · rw [h]
        exact hs
      · rw [h]
        exact scoped_addRule hs t _

/-- **The scopes are kept by every history.** -/
theorem scoped_storeAfter (h : List (Thread × StoreCall)) : Scoped (storeAfter h) := by
  induction h using List.reverseRecOn with
  | nil => exact scoped_initial
  | append_singleton h e ih =>
      have hsnoc : storeAfter (h ++ [e]) = e.2.run e.1 (storeAfter h) := by
        show (h ++ [e]).foldl _ initial = _
        rw [List.foldl_append]
        rfl
      rw [hsnoc]
      exact scoped_run e.1 e.2 ih

-- ── The flag, the query and the notification ──────────────────────────────────────

/-- `NeedCheckSlowEvent`, the read without a lock. -/
def needCheckSlowEvent (s : Store Thread) : Bool := s.checkMode

/-- Effects that report a caution: a caution log or an abort. -/
def Reports (es : List Effect) : Prop := cautionLogs es ≠ [] ∨ Aborts es

omit [DecidableEq Thread] in
/-- In a scoped store a thread word never shows the slow-event bit. -/
theorem contains_slowEvent (t : Thread) {s : Store Thread} (hs : Scoped s) :
    contains t ruleCheckSlowEvent s = true ↔ 32 ∈ bits s.processRules := by
  have hrule : checkRule ruleCheckSlowEvent = true := by decide
  have hthread : 32 ∉ bits (s.threadLocalRules t) := by
    intro hmem
    have hscope := hs.thread t hmem
    rw [mem_threadScope] at hscope
    omega
  rw [contains_iff, and_iff_right hrule, bits_ruleCheckSlowEvent, Set.singleton_subset_iff,
    mem_getRule, or_iff_right hthread]

omit [DecidableEq Thread] in
/-- In a scoped store the notification reports exactly when the process word has the bit. -/
theorem reports_notifySlowEvent (t : Thread) (bt : Backtrace) (tag : String)
    {s : Store Thread} (hs : Scoped s) :
    Reports (notifySlowEvent t bt tag s).2 ↔ 32 ∈ bits s.processRules := by
  let n : Notification := .slowEvent bt tag
  show cautionLogs (notify t n s).2 ≠ [] ∨ Aborts (notify t n s).2 ↔ _
  rw [notify_cautionLogs t n hs, notify_aborts_iff t n hs]
  show (if 32 ∈ bits s.processRules ∧ 62 ∉ bits s.processRules then [n.report] else []) ≠ []
    ∨ (32 ∈ bits s.processRules ∧ 62 ∈ bits s.processRules) ↔ _
  by_cases h32 : 32 ∈ bits s.processRules
  · refine iff_of_true ?_ h32
    by_cases h62 : 62 ∈ bits s.processRules
    · exact Or.inr ⟨h32, h62⟩
    · rw [if_pos ⟨h32, h62⟩]
      exact Or.inl (List.cons_ne_nil _ _)
  · rw [if_neg (fun h => h32 h.1)]
    exact iff_of_false (fun h => h.elim (fun hne => hne rfl) (fun h' => h32 h'.1)) h32

/-- **Scope partition and the slow-event flag**, after every history of `AddRule`,
    `RemoveRule` and `InitHicheckerParam` by any threads with any arguments: the words
    stay in their scopes, and on every thread the flag, the query and the notification
    agree about slow events. -/
theorem slowEvent_flag_agrees (h : List (Thread × StoreCall)) :
    let s := storeAfter h
    (∀ t, bits (s.threadLocalRules t) ⊆ bits allThreadRules ∪ bits allCautionRules) ∧
    bits s.processRules ⊆ bits allProcessRules ∪ bits allCautionRules ∧
    ∀ (t : Thread) (bt : Backtrace) (tag : String),
      (needCheckSlowEvent s = true ↔ contains t ruleCheckSlowEvent s = true) ∧
      (contains t ruleCheckSlowEvent s = true ↔ Reports (notifySlowEvent t bt tag s).2) := by
  intro s
  have hs : Scoped s := scoped_storeAfter h
  refine ⟨hs.thread, hs.process, ?_⟩
  intro t bt tag
  constructor
  · rw [contains_slowEvent t hs]
    exact hs.mode
  · rw [contains_slowEvent t hs, reports_notifySlowEvent t bt tag hs]

end StartupParam
