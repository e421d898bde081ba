import HiChecker.LastWriteProofs
import HiChecker.RuleStoreProofs

/-!
# The rule store against the history of its callers

`replay h` is the store after the calls of `h`, taken in the order in which the
lock was acquired, by any threads and with any 64-bit arguments. Each bit of each
word is then a cell in the sense of `LastWrite`: some calls write it, the others
leave it alone. So a bit is set exactly when the last accepted call that reached
it was an `AddRule` — of the same thread for a thread word
(`threadBit_iff`), of any thread for the process word (`processBit_iff`).

**`ruleStore_agrees_with_trace`** puts the two words together: thread checks follow
the thread's own calls, process checks follow everybody's, and a caution rule shows
as long as either of its two copies does.
-/

namespace RuleTrace

open BitMask RuleStore LastWrite

variable {Thread : Type} [DecidableEq Thread]

/-- A call that may change the store. -/
inductive RuleCall where
  | add (rule : Word)
  | remove (rule : Word)

/-- The argument of the call. -/
def RuleCall.mask : RuleCall → Word
  | .add rule => rule
  | .remove rule => rule

def RuleCall.isAdd : RuleCall → Bool
  | .add _ => true
  | .remove _ => false

/-- The call, made on thread `t`. -/
def RuleCall.run (t : Thread) : RuleCall → Store Thread → Store Thread
  | .add rule, s => addRule t rule s
  | .remove rule, s => removeRule t rule s

/-- The store after a history of calls, from all-zero state. -/
def replay (h : List (Thread × RuleCall)) : Store Thread :=
  h.foldl (fun s e => e.2.run e.1 s) initial

/-- The last accepted call by one of the threads `who` whose mask has bit `b`. -/
def lastAccepted (who : Thread → Bool) (b : Nat) (h : List (Thread × RuleCall)) :
    Option (Thread × RuleCall) :=
  lastOf (fun e => who e.1 && checkRule e.2.mask && e.2.mask.getLsbD b) h

/-- There is such a call, and it is an `AddRule`. -/
def lastIsAdd (who : Thread → Bool) (b : Nat) (h : List (Thread × RuleCall)) : Bool :=
  (lastAccepted who b h).any (fun e => e.2.isAdd)

/-- Thread `t` alone. -/
def byThread (t : Thread) : Thread → Bool := fun u => u == t

/-- Any thread. -/
def byAnyone : Thread → Bool := fun _ => true

theorem replay_snoc (h : List (Thread × RuleCall)) (t : Thread) (c : RuleCall) :
    replay (h ++ [(t, c)]) = c.run t (replay h) := by
  show (h ++ [(t, c)]).foldl _ initial = _
  rw [List.foldl_append]
  rfl

/-- A rejected call changes nothing. -/
theorem run_rejected {c : RuleCall} (hc : checkRule c.mask = false) (t : Thread)
    (s : Store Thread) : c.run t s = s := by
  cases c with
  | add rule => exact addRule_rejected t hc s
  | remove rule => exact removeRule_rejected t hc s

/-- The invariant of the store holds after every history. -/
theorem scoped_replay (h : List (Thread × RuleCall)) : Scoped (replay h) := by
  induction h using List.reverseRecOn with
  | nil => exact scoped_initial
  | append_singleton h e ih =>
      obtain ⟨t, c⟩ := e
      rw [replay_snoc]
      cases c with
      | add rule => exact scoped_addRule ih t rule
      | remove rule => exact scoped_removeRule ih t rule

-- ── One bit is one cell ───────────────────────────────────────────────────────────

/-- What a call writes to a bit it reaches. -/
def writes (p : Thread × RuleCall → Bool) (e : Thread × RuleCall) : Option Bool :=
  if p e then some e.2.isAdd else none

omit [DecidableEq Thread] in
/-- A cell written by exactly the calls with `p` holds the verdict of the last one. -/
theorem cell_writes (p : Thread × RuleCall → Bool) (h : List (Thread × RuleCall)) :
    cell (writes p) false h = (lastOf p h).any (fun e => e.2.isAdd) := by
  refine (cell_eq_lastOf p (fun e => e.2.isAdd) false h).trans ?_
  cases lastOf p h with
  | none => rfl
  | some e => rfl

/-- One accepted call and one bit of a thread word: the caller's own bits take the
    verdict of the call, the rest stay. -/
theorem mem_thread_run {c : RuleCall} (hc : checkRule c.mask = true) (t u : Thread)
    (s : Store Thread) {b : Nat} (hb : b ∈ threadScope) :
    b ∈ bits ((c.run t s).threadLocalRules u)
      ↔ if byThread u t = true ∧ b ∈ bits c.mask then c.isAdd = true
        else b ∈ bits (s.threadLocalRules u) := by
  have hby : byThread u t = true ↔ t = u := beq_iff_eq
  cases c with
  | add rule =>
      have hrule : checkRule rule = true := hc
      change b ∈ bits ((addRule t rule s).threadLocalRules u)
        ↔ if byThread u t = true ∧ b ∈ bits rule then true = true else _
      rw [mem_thread_addRule hrule]
      by_cases hr : byThread u t = true ∧ b ∈ bits rule
      · rw [if_pos hr]
        exact iff_of_true (Or.inr ⟨hby.mp hr.1, hb, hr.2⟩) rfl
      · rw [if_neg hr]
        exact or_iff_left (fun h => hr ⟨hby.mpr h.1, h.2.2⟩)
  | remove rule =>
      have hrule : checkRule rule = true := hc
      change b ∈ bits ((removeRule t rule s).threadLocalRules u)
        ↔ if byThread u t = true ∧ b ∈ bits rule then false = true else _
      rw [mem_thread_removeRule hrule]
      by_cases hr : byThread u t = true ∧ b ∈ bits rule
      · rw [if_pos hr]
        exact iff_of_false (fun h => h.2 ⟨hby.mp hr.1, hr.2⟩) Bool.false_ne_true
      · rw [if_neg hr]
        exact and_iff_left (fun h => hr ⟨hby.mpr h.1, h.2⟩)

/-- One accepted call and one bit of the process word. -/
theorem mem_process_run {c : RuleCall} (hc : checkRule c.mask = true) (t : Thread)
    (s : Store Thread) {b : Nat} (hb : b ∈ processScope) :
    b ∈ bits (c.run t s).processRules
      ↔ if byAnyone t = true ∧ b ∈ bits c.mask then c.isAdd = true
        else b ∈ bits s.processRules := by
  cases c with
  | add rule =>
      have hrule : checkRule rule = true := hc
      change b ∈ bits (addRule t rule s).processRules
        ↔ if byAnyone t = true ∧ b ∈ bits rule then true = true else _
      rw [mem_process_addRule hrule]
      by_cases hr : b ∈ bits rule
      · rw [if_pos ⟨rfl, hr⟩]
        exact iff_of_true (Or.inr ⟨hb, hr⟩) rfl
      · rw [if_neg (fun h => hr h.2)]
        exact or_iff_left (fun h => hr h.2)
  | remove rule =>
      have hrule : checkRule rule = true := hc
      change b ∈ bits (removeRule t rule s).processRules
        ↔ if byAnyone t = true ∧ b ∈ bits rule then false = true else _
      rw [mem_process_removeRule hrule]
      by_cases hr : b ∈ bits rule
      · rw [if_pos ⟨rfl, hr⟩]
        exact iff_of_false (fun h => h.2 hr) Bool.false_ne_true
      · rw [if_neg (fun h => hr h.2)]
        exact and_iff_left hr

/-- **A bit that accepted calls of `who` write is a last-write cell.** Shared by the
    thread words and the process word. -/
theorem bit_of_replay (word : Store Thread → Word) (who : Thread → Bool) (b : Nat)
    (hinit : word initial = 0#64)
    (hrun : ∀ (c : RuleCall) (t : Thread) (s : Store Thread), checkRule c.mask = true →
      (b ∈ bits (word (c.run t s))
        ↔ if who t = true ∧ b ∈ bits c.mask then c.isAdd = true else b ∈ bits (word s)))
    (h : List (Thread × RuleCall)) :
    b ∈ bits (word (replay h)) ↔ lastIsAdd who b h = true := by
  let p : Thread × RuleCall → Bool :=
    fun e => who e.1 && checkRule e.2.mask && e.2.mask.getLsbD b
  have hstep : ∀ (s : Store Thread) (e : Thread × RuleCall),
      (word (e.2.run e.1 s)).getLsbD b = (writes p e).getD ((word s).getLsbD b) := by
    intro s e
    obtain ⟨t, c⟩ := e
    cases hc : checkRule c.mask with
    | false =>
        have hp : writes p (t, c) = none := by simp [writes, p, hc]
        rw [run_rejected hc, hp]
        rfl
    | true =>
        have hp : p (t, c) = true ↔ who t = true ∧ b ∈ bits c.mask := by
          simp [p, hc]
        rw [Bool.eq_iff_iff, ← mem_bits, hrun c t s hc]
        show _ ↔ ((if p (t, c) then some c.isAdd else none).getD _) = true
        by_cases hr : who t = true ∧ b ∈ bits c.mask
        · rw [if_pos hr, if_pos (hp.mpr hr)]
          rfl
        · rw [if_neg hr, if_neg (fun h => hr (hp.mp h))]
          rfl
  have hcell := proj_foldl_eq_cell (fun s (e : Thread × RuleCall) => e.2.run e.1 s)
    (fun s => (word s).getLsbD b) (writes p) hstep initial h
  have h0 : (word initial).getLsbD b = false := by
    rw [hinit]
    simp
  rw [h0, cell_writes] at hcell
  rw [mem_bits]
  exact Bool.eq_iff_iff.mp hcell

/-- **A bit of a thread word** is set exactly when the thread's own last accepted call
    on it was an `AddRule`. -/
theorem threadBit_iff (h : List (Thread × RuleCall)) (t : Thread) {b : Nat}
    (hb : b ∈ threadScope) :
    b ∈ bits ((replay h).threadLocalRules t) ↔ lastIsAdd (byThread t) b h = true :=
  bit_of_replay (fun s => s.threadLocalRules t) (byThread t) b rfl
    (fun _ u s hc => mem_thread_run hc u t s hb) h

/-- **A bit of the process word** is set exactly when the last accepted call on it, by
    any thread, was an `AddRule`. -/
theorem processBit_iff (h : List (Thread × RuleCall)) {b : Nat} (hb : b ∈ processScope) :
    b ∈ bits (replay h).processRules ↔ lastIsAdd byAnyone b h = true :=
  bit_of_replay (fun s => s.processRules) byAnyone b rfl
    (fun _ t s hc => mem_process_run hc t s hb) h

-- ── The store agrees with its history ─────────────────────────────────────────────

/-- A bit outside a word's scope is never in the word. -/
theorem not_mem_thread (h : List (Thread × RuleCall)) (t : Thread) {b : Nat}
    (hb : b ∉ threadScope) : b ∉ bits ((replay h).threadLocalRules t) :=
  fun hm => hb ((scoped_replay h).thread t hm)

theorem not_mem_process (h : List (Thread × RuleCall)) {b : Nat}
    (hb : b ∉ processScope) : b ∉ bits (replay h).processRules :=
  fun hm => hb ((scoped_replay h).process hm)

/-- The three kinds of rules occupy different bits. -/
theorem allThreadRules_not_process {b : Nat} (hb : b ∈ bits allThreadRules) :
    b ∉ processScope := by
  rw [mem_processScope]
  simp only [allThreadRules, bits_or, bits_ruleThreadCheckSlowProcess,
    bits_ruleThreadCheckNetworkUsage, Set.mem_union, Set.mem_singleton_iff] at hb
  omega

theorem allProcessRules_not_thread {b : Nat} (hb : b ∈ bits allProcessRules) :
    b ∉ threadScope := by
  rw [mem_threadScope]
  simp only [allProcessRules, bits_or, bits_ruleCheckSlowEvent,
    bits_ruleCheckAbilityConnectionLeak, bits_ruleCheckArkuiPerformance, Set.mem_union,
    Set.mem_singleton_iff] at hb
  omega

/-- **The store agrees with its trace**, for any number of threads and any history:
    which calls are accepted, that a rejected call changes nothing, which bits
    `GetRule` shows on a thread by the three visibility rules, and what `Contains`
    answers there. -/
theorem ruleStore_agrees_with_trace (h : List (Thread × RuleCall)) (t : Thread) :
    (∀ r : Word, checkRule r = true ↔ r ≠ 0#64 ∧ bits r ⊆ bits allRules) ∧
    (∀ (u : Thread) (c : RuleCall), checkRule c.mask = false →
      replay (h ++ [(u, c)]) = replay h) ∧
    (∀ b ∈ bits allThreadRules,
      b ∈ bits (getRule t (replay h)) ↔ lastIsAdd (byThread t) b h = true) ∧
    (∀ b ∈ bits allProcessRules,
      b ∈ bits (getRule t (replay h)) ↔ lastIsAdd byAnyone b h = true) ∧
    (∀ b ∈ bits allCautionRules,
      b ∈ bits (getRule t (replay h))
        ↔ lastIsAdd (byThread t) b h = true ∨ lastIsAdd byAnyone b h = true) ∧
    bits (getRule t (replay h)) ⊆ bits allRules ∧
    (∀ q : Word, contains t q (replay h) = true
      ↔ checkRule q = true ∧ bits q ⊆ bits (getRule t (replay h))) := by
  refine ⟨checkRule_iff, ?_, ?_, ?_, ?_, ?_, ?_⟩
  · intro u c hc
    rw [replay_snoc, run_rejected hc]
  · intro b hb
    rw [mem_getRule, or_iff_left (not_mem_process h (allThreadRules_not_process hb))]
    exact threadBit_iff h t (Or.inl hb)
  · intro b hb
    rw [mem_getRule, or_iff_right (not_mem_thread h t (allProcessRules_not_thread hb))]
    exact processBit_iff h (Or.inl hb)
  · intro b hb
    rw [mem_getRule, threadBit_iff h t (Or.inr hb), processBit_iff h (Or.inr hb)]
  · intro b hb
    rw [bits_allRules]
    exact ((mem_getRule t (replay h) b).mp hb).imp
      (fun hm => (scoped_replay h).thread t hm) (fun hm => (scoped_replay h).process hm)
  · intro q
    exact contains_iff t q (replay h)

end RuleTrace
