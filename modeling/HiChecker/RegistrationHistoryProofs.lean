import HiChecker.EventLedgerProofs
import HiChecker.TraceProofs

/-!
# What is registered, and since when

Callbacks are registered by starts and by the retries of the GC closure, and unregistered by
shutdowns. `changes` reads these calls off a run; what is registered at any moment, whatever
the order of starts, stops, ticks and refused calls, follows from them alone.

* **`registered_since`** — a callback is registered exactly when a registration that selects it
  came after the last shutdown that reaches it.
* **`retries_bounded`** — a retry is made for the two native types only, after a registration
  without a UI context, and at most `attemptCount` times in the life of the process.
-/

namespace RegistrationHistory

open Transition Trace JsValue TimerQueue WatcherConfig Watcher Lifecycle TimerChain
open DumpFile (DumpState)

variable {Dir : Type} (plat : Platform Dir)

-- ── Calls that change what is registered ──────────────────────────────────────────

/-- What a step does to the registrations. -/
inductive Change where
  /-- `executeRegister`: the types, the UI context it finds and the next ability id -/
  | registered (types : BitVec 32) (uiContext : Option Nat) (abilityId : Nat) (retry : Bool)
  /-- a shutdown: the UI context it finds, and the ability callback it gets to -/
  | unregistered (uiContext : Option Nat) (abilityId : Option Nat)

/-- The ability callback that a shutdown names, unless the component call ends it. -/
def namedAbility (out : Surroundings) (w : World Dir) : Option Nat :=
  if !w.registrations.component && out.deadComponentThrows then none
  else if plat.hasContext then w.lifecycleId
  else none

/-- The retry of the GC closure. -/
def retryChanges (out : Surroundings) (w : World Dir) : List Change :=
  match w.retryMonitorObjectTypes with
  | none => []
  | some types =>
      if w.currentAttempt ≤ attemptCount then
        [.registered types out.uiContext w.nextAbilityId true]
      else []

/-- The changes of a step, read from its input and the state before it. -/
def changes (w : World Dir) : Input Dir → List Change
  | .enableLeakWatcher out isEnabled configs callback =>
      if starts plat out isEnabled configs callback w then
        [.registered (startTypes out configs w) out.uiContext w.nextAbilityId false]
      else if stops isEnabled configs callback w then
        [.unregistered out.uiContext (namedAbility plat out w)]
      else []
  | .deliver out i =>
      match deliver w.now w.queue i with
      | none => []
      | some (t, _) =>
          if w.handler.isRunning && isGc t.event && w.handler.gcFuncRef.isSome then
            retryChanges out w
          else []
  | _ => []

/-- The watcher, seen through its registrations. -/
def registrationHistory [DecidableEq Dir] (load : DumpState Dir) :
    Machine (World Dir) (Input Dir) Change :=
  (watcher plat load).observing (changes plat)

-- ── What a change reaches ─────────────────────────────────────────────────────────

/-- A registration names the type. -/
def selects (type : BitVec 32) : Change → Prop
  | .registered types _ _ _ => monitors types type = true
  | .unregistered _ _ => False

/-- The native callback is registered on a UI context. -/
def selectsNative (uiContext : Nat) : Change → Prop
  | .registered types found _ _ => monitorsNative types = true ∧ found = some uiContext
  | .unregistered _ _ => False

/-- A registration makes this ability callback. -/
def selectsAbility (id : Nat) : Change → Prop
  | .registered types _ next _ => monitors types ability = true ∧ next = id
  | .unregistered _ _ => False

/-- It is a shutdown. -/
def unregisters : Change → Prop
  | .registered _ _ _ _ => False
  | .unregistered _ _ => True

/-- A shutdown finds this UI context. -/
def unregistersNative (uiContext : Nat) : Change → Prop
  | .registered _ _ _ _ => False
  | .unregistered found _ => found = some uiContext

/-- A shutdown gets to this ability callback. -/
def unregistersAbility (id : Nat) : Change → Prop
  | .registered _ _ _ _ => False
  | .unregistered _ named => named = some id

/-- The native registration failed. -/
def failed : Change → Prop
  | .registered types found _ _ => monitorsNative types = true ∧ found = none
  | .unregistered _ _ => False

/-- It is a registration. -/
def registers : Change → Prop
  | .registered _ _ _ _ => True
  | .unregistered _ _ => False

/-- It is the registration of a GC tick. -/
def isRetry : Change → Bool
  | .registered _ _ _ retry => retry
  | .unregistered _ _ => false

/-- A retry follows a failed registration, and takes up the two native types. -/
def RetryAfterFailure (before : List Change) : Change → Prop
  | .registered types _ _ retry =>
      retry = true → types = nodeContainer ||| xComponent ∧ Since failed registers before
  | .unregistered _ _ => True

/-- What the changes say of a state. -/
structure History (w : World Dir) (tr : List Change) : Prop where
  component : w.registrations.component = true ↔ Since (selects customComponent) unregisters tr
  window : w.registrations.window = true ↔ Since (selects window) unregisters tr
  native : ∀ c, c ∈ w.registrations.native ↔ Since (selectsNative c) (unregistersNative c) tr
  abilities : ∀ id,
    id ∈ w.registrations.abilities ↔ Since (selectsAbility id) (unregistersAbility id) tr
  pending : w.retryMonitorObjectTypes ≠ none ↔ Since failed registers tr
  types : ∀ types, w.retryMonitorObjectTypes = some types → types = nodeContainer ||| xComponent
  context : w.retryMonitorObjectTypes ≠ none → plat.hasContext = true
  retries : AtEach RetryAfterFailure tr
  attempts : (tr.filter isRetry).length + 1 = w.currentAttempt
  bounded : w.currentAttempt ≤ attemptCount + 1

variable {plat} {tr : List Change}

/-- What a step has to leave alone for the history to be as it was. -/
structure Untouched (w w' : World Dir) : Prop where
  registrations : w'.registrations = w.registrations
  retry : w'.retryMonitorObjectTypes = w.retryMonitorObjectTypes
  attempt : w'.currentAttempt = w.currentAttempt

/-- A step without a change, the record extended by none. -/
theorem History.idle {w w' : World Dir} (h : History plat w tr) (hsame : Untouched w w') :
    History plat w' (tr ++ []) := by
  rw [List.append_nil]
  constructor
  · rw [hsame.registrations]
    exact h.component
  · rw [hsame.registrations]
    exact h.window
  · rw [hsame.registrations]
    exact h.native
  · rw [hsame.registrations]
    exact h.abilities
  · rw [hsame.retry]
    exact h.pending
  · rw [hsame.retry]
    exact h.types
  · rw [hsame.retry]
    exact h.context
  · exact h.retries
  · rw [hsame.attempt]
    exact h.attempts
  · rw [hsame.attempt]
    exact h.bounded

-- ── A registration ────────────────────────────────────────────────────────────────

/-- A registration adds the UI context it finds. -/
theorem mem_nativeAfter (uiContext : Option Nat) (contexts : List Nat) (c : Nat) :
    c ∈ nativeAfter uiContext contexts ↔ uiContext = some c ∨ c ∈ contexts := by
  cases uiContext with
  | none => exact (or_iff_right (fun h => Option.some_ne_none c h.symm)).symm
  | some found =>
      show c ∈ found :: contexts.filter (· ≠ found) ↔ _
      rw [List.mem_cons, List.mem_filter, decide_eq_true_eq, Option.some.injEq]
      constructor
      · rintro (rfl | ⟨hmem, -⟩)
        · exact Or.inl rfl
        · exact Or.inr hmem
      · rintro (rfl | hmem)
        · exact Or.inl rfl
        · by_cases heq : c = found
          · exact Or.inl heq
          · exact Or.inr ⟨hmem, heq⟩

/-- `executeRegister`, with the change it is. -/
theorem History.register {w w' : World Dir} {out : Surroundings} {types : BitVec 32}
    {r : Bool} (h : History plat w tr) (heffect : RegisterEffect out types w w')
    (hctx : plat.hasContext = true) (hretry : r = true → w.retryMonitorObjectTypes = some types)
    (hattempt : w'.currentAttempt = w.currentAttempt + if r then 1 else 0)
    (hbound : r = true → w.currentAttempt ≤ attemptCount) :
    History plat w' (tr ++ [.registered types out.uiContext w.nextAbilityId r]) := by
  have hno : ∀ {p : Prop}, (p ∧ ¬ False) ↔ p := fun {p} => and_iff_left id
  constructor
  · rw [since_snoc, heffect.component, Bool.or_eq_true, h.component, or_comm]
    exact or_congr_right hno.symm
  · rw [since_snoc, heffect.window, Bool.or_eq_true, h.window, or_comm]
    exact or_congr_right hno.symm
  · intro c
    rw [since_snoc, heffect.native]
    show _ ↔ (monitorsNative types = true ∧ out.uiContext = some c) ∨ (_ ∧ ¬ False)
    rw [hno, ← h.native c]
    cases monitorsNative types with
    | true =>
        rw [if_pos rfl, mem_nativeAfter]
        exact or_congr_left (and_iff_right rfl).symm
    | false =>
        rw [if_neg Bool.false_ne_true]
        exact (or_iff_right (fun hsel => Bool.false_ne_true hsel.1)).symm
  · intro id
    rw [since_snoc, heffect.abilities]
    show _ ↔ (monitors types ability = true ∧ w.nextAbilityId = id) ∨ (_ ∧ ¬ False)
    rw [hno, ← h.abilities id]
    cases monitors types ability with
    | true =>
        rw [if_pos rfl, List.mem_cons]
        exact or_congr_left (eq_comm.trans (and_iff_right rfl).symm)
    | false =>
        rw [if_neg Bool.false_ne_true]
        exact (or_iff_right (fun hsel => Bool.false_ne_true hsel.1)).symm
  · rw [since_snoc, heffect.retry]
    show _ ↔ (monitorsNative types = true ∧ out.uiContext = none) ∨ (_ ∧ ¬ True)
    rw [or_iff_left (fun hcontra => hcontra.2 trivial), ← Option.isNone_iff_eq_none,
      ← Bool.and_eq_true]
    cases monitorsNative types && out.uiContext.isNone with
    | true => exact iff_of_true (Option.some_ne_none _) rfl
    | false => exact iff_of_false (fun hne => hne rfl) Bool.false_ne_true
  · intro again hagain
    rw [heffect.retry] at hagain
    split at hagain
    · exact (Option.some.inj hagain).symm
    · exact absurd hagain.symm (Option.some_ne_none again)
  · exact fun _ => hctx
  · refine atEach_snoc.mpr ⟨h.retries, ?_⟩
    intro hr
    have hpending := hretry hr
    refine ⟨h.types types hpending, h.pending.mp ?_⟩
    rw [hpending]
    exact Option.some_ne_none types
  · rw [List.filter_append, List.length_append, hattempt, ← h.attempts]
    cases r with
    | true => exact Nat.add_right_comm _ 1 1
    | false => rfl
  · rw [hattempt]
    cases r with
    | true => exact Nat.succ_le_succ (hbound rfl)
    | false => exact h.bounded

-- ── A shutdown ────────────────────────────────────────────────────────────────────

/-- The ability callbacks that a shutdown leaves. -/
theorem mem_abilities_shutdown (out : Surroundings) (w : World Dir) (id : Nat) :
    id ∈ (shutdownJsLeakWatcher plat out w).1.registrations.abilities
      ↔ id ∈ w.registrations.abilities ∧ namedAbility plat out w ≠ some id := by
  have hpasses : ¬ (w.registrations.component = false ∧ out.deadComponentThrows = true) →
      namedAbility plat out w = if plat.hasContext then w.lifecycleId else none := by
    intro hno
    refine if_neg (fun hthrows => hno ?_)
    obtain ⟨hdead, hthrow⟩ := Bool.and_eq_true_iff.mp hthrows
    rw [Bool.not_eq_true'] at hdead
    exact ⟨hdead, hthrow⟩
  cases (shutdown_spec plat out w).2 with
  | atComponent dead throws abilities watched =>
      have hnone : namedAbility plat out w = none := by
        refine if_pos ?_
        rw [dead, throws]
        rfl
      rw [abilities, hnone]
      exact (and_iff_left (Option.some_ne_none id).symm).symm
  | atAbility passes dead abilities watched =>
      -- the callback it names is not registered, so nothing is left out
      rw [abilities, hpasses passes, if_pos dead.1]
      refine (and_iff_left_of_imp ?_).symm
      intro hmem hnamed
      have hlive : lifecycleLive w = true := by
        rw [lifecycleLive, hnamed]
        exact decide_eq_true hmem
      exact Bool.false_ne_true (dead.2.1.symm.trans hlive)
  | atEnd passes passes' abilities watched =>
      rw [abilities, hpasses passes]
      cases plat.hasContext with
      | true =>
          rw [if_pos rfl, if_pos rfl, List.mem_filter]
          exact and_congr_right (fun _ => decide_eq_true_iff)
      | false =>
          rw [if_neg Bool.false_ne_true, if_neg Bool.false_ne_true]
          exact (and_iff_left (Option.some_ne_none id).symm).symm

/-- A shutdown takes away what it finds. -/
theorem History.unregister {w : World Dir} (h : History plat w tr) (out : Surroundings)
    (isEnabled : JsVal) :
    History plat (shutdownJsLeakWatcher plat out { w with enabled := isEnabled }).1
      (tr ++ [.unregistered out.uiContext (namedAbility plat out w)]) := by
  obtain ⟨hshut, -⟩ := shutdown_spec plat out { w with enabled := isEnabled }
  obtain ⟨_, _, _, hframe⟩ := shutdown_frame plat out { w with enabled := isEnabled }
  have hretry : (shutdownJsLeakWatcher plat out
      { w with enabled := isEnabled }).1.retryMonitorObjectTypes = w.retryMonitorObjectTypes := by
    rw [hframe]
  have hattempt : (shutdownJsLeakWatcher plat out
      { w with enabled := isEnabled }).1.currentAttempt = w.currentAttempt := by
    rw [hframe]
  have hgone : ∀ {p q : Change → Prop}, ¬ p (.unregistered out.uiContext (namedAbility plat out w))
      → q (.unregistered out.uiContext (namedAbility plat out w)) →
      ¬ Since p q (tr ++ [.unregistered out.uiContext (namedAbility plat out w)]) := by
    intro p q hp hq hsince
    rcases since_snoc.mp hsince with hnow | ⟨-, hkept⟩
    · exact hp hnow
    · exact hkept hq
  constructor
  · rw [hshut.component]
    exact iff_of_false Bool.false_ne_true (hgone id trivial)
  · rw [hshut.window]
    exact iff_of_false Bool.false_ne_true (hgone id trivial)
  · intro c
    rw [since_snoc, hshut.native, mem_unregisterNative]
    exact (and_congr_left' (h.native c)).trans (or_iff_right id).symm
  · intro abilityId
    rw [since_snoc, mem_abilities_shutdown]
    exact (and_congr_left' (h.abilities abilityId)).trans (or_iff_right id).symm
  · rw [hretry, since_snoc]
    exact h.pending.trans ((and_iff_left id).symm.trans (or_iff_right id).symm)
  · rw [hretry]
    exact h.types
  · rw [hretry]
    exact h.context
  · exact atEach_snoc.mpr ⟨h.retries, trivial⟩
  · rw [hattempt, List.filter_append, List.length_append]
    exact h.attempts
  · rw [hattempt]
    exact h.bounded

-- ── Every step ────────────────────────────────────────────────────────────────────

/-- A call of `enableLeakWatcher` makes its changes. -/
theorem history_switch (out : Surroundings) (isEnabled : JsVal) (configs : Configs)
    (callback : JsVal) {w : World Dir} (h : History plat w tr) :
    History plat (enableLeakWatcher plat out isEnabled configs callback w).1
      (tr ++ changes plat w (.enableLeakWatcher out isEnabled configs callback)) := by
  simp only [changes]
  have hout := enableLeakWatcher_outcome plat out isEnabled configs callback w
  cases hstarts : starts plat out isEnabled configs callback w with
  | true =>
      have hctx : plat.hasContext = true :=
        (Bool.and_eq_true_iff.mp (accepts_of_starts plat hstarts).2.2.2).1
      let armed := arm out configs callback (configured out isEnabled configs w)
      have heffect := executeRegister_spec plat hctx out
        (startTypes out configs w) armed
      obtain ⟨_, _, _, _, _, hframe⟩ := executeRegister_frame plat out
        (startTypes out configs w) armed
      have hattempt : (executeRegister plat out (startTypes out configs w)
          armed).currentAttempt = w.currentAttempt := by
        rw [hframe]
        rfl
      rw [enableLeakWatcher_of_starts plat hstarts, if_pos rfl]
      have harmed : History plat armed (tr ++ []) := h.idle ⟨rfl, rfl, rfl⟩
      rw [List.append_nil] at harmed
      exact harmed.register heffect hctx (fun hr => absurd hr Bool.false_ne_true) hattempt
        (fun hr => absurd hr Bool.false_ne_true)
  | false =>
      rw [if_neg Bool.false_ne_true]
      cases hstops : stops isEnabled configs callback w with
      | true =>
          have hstop := Bool.and_eq_true_iff.mp hstops
          rw [enableLeakWatcher_of_accepts plat hstop.1, if_pos hstop.2, if_pos rfl]
          exact h.unregister out isEnabled
      | false =>
          rw [if_neg Bool.false_ne_true]
          generalize enableLeakWatcher plat out isEnabled configs callback w = result at hout ⊢
          cases hout with
          | refused _ t => exact h.idle ⟨rfl, rfl, rfl⟩
          | stopped hs => exact absurd (hstops.symm.trans hs) Bool.false_ne_true
          | rejected _ _ _ => exact h.idle ⟨rfl, rfl, rfl⟩
          | idle _ _ t _ => exact h.idle ⟨rfl, rfl, rfl⟩
          | started hs => exact absurd (hstarts.symm.trans hs) Bool.false_ne_true

/-- **A retry** registers what failed before, and counts. -/
theorem history_retry (out : Surroundings) {w : World Dir} (h : History plat w tr) :
    History plat (retryRegister plat out w) (tr ++ retryChanges out w) := by
  cases hretry : w.retryMonitorObjectTypes with
  | none =>
      simp only [retryRegister, retryChanges, hretry]
      exact h.idle ⟨rfl, rfl, rfl⟩
  | some types =>
      simp only [retryRegister, retryChanges, hretry]
      split
      · rename_i hattempt
        have hctx : plat.hasContext = true := by
          refine h.context ?_
          rw [hretry]
          exact Option.some_ne_none types
        have heffect := executeRegister_spec plat hctx out types w
        obtain ⟨_, _, _, _, _, hframe⟩ := executeRegister_frame plat out types w
        refine h.register (r := true) ?_ hctx (fun _ => hretry) ?_ (fun _ => hattempt)
        · exact ⟨heffect.component, heffect.window, heffect.native, heffect.abilities,
            heffect.lifecycle, heffect.handler, heffect.retry⟩
        · rw [hframe]
          rfl
      · exact h.idle ⟨rfl, rfl, rfl⟩

/-- What touches no registration keeps the record true. -/
theorem History.same {w w' : World Dir} (h : History plat w tr) (hsame : Untouched w w') :
    History plat w' tr := by
  have hidle := h.idle hsame
  rw [List.append_nil] at hidle
  exact hidle

variable [DecidableEq Dir]

/-- **A delivery** registers what its retry does. -/
theorem history_deliver (out : Surroundings) (t : Timer EventId) {w : World Dir}
    (queue : List (Timer EventId)) (h : History plat w tr) :
    History plat (processEvent plat out t (w.withQueue queue)).1
      (tr ++ if w.handler.isRunning && isGc t.event && w.handler.gcFuncRef.isSome then
        retryChanges out w else []) := by
  have hqueue : History plat (w.withQueue queue) tr := h.same ⟨rfl, rfl, rfl⟩
  have hquiet : ∀ {v : World Dir},
      (w.handler.isRunning && isGc t.event && w.handler.gcFuncRef.isSome) = false →
      Untouched w v → History plat v (tr ++
        if w.handler.isRunning && isGc t.event && w.handler.gcFuncRef.isSome then
          retryChanges out w else []) := by
    intro v hno hsame
    rw [hno]
    exact h.idle hsame
  have heffect := processEvent_effect plat out t (w.withQueue queue)
  generalize processEvent plat out t (w.withQueue queue) = result at heffect ⊢
  cases heffect with
  | dropped hrun =>
      refine hquiet ?_ ⟨rfl, rfl, rfl⟩
      rw [show w.handler.isRunning = false from hrun]
      rfl
  | noDump hrun hevent =>
      refine hquiet ?_ ⟨rfl, rfl, rfl⟩
      rw [hevent, isGc, Bool.and_false, Bool.false_and]
  | dumped task hrun hevent =>
      obtain ⟨_, _, _, hframe⟩ := dumpTask_frame plat out task (w.withQueue queue)
      rw [hframe]
      refine hquiet ?_ ⟨rfl, rfl, rfl⟩
      rw [hevent, isGc, Bool.and_false, Bool.false_and]
  | noGc hrun hevent htask =>
      refine hquiet ?_ ⟨rfl, rfl, rfl⟩
      rw [show w.handler.gcFuncRef = none from htask]
      exact Bool.and_false _
  | collected task hrun hevent htask =>
      have hyes : (w.handler.isRunning && isGc t.event && w.handler.gcFuncRef.isSome) = true := by
        rw [show w.handler.isRunning = true from hrun, hevent,
          show w.handler.gcFuncRef = some task from htask]
        rfl
      obtain ⟨_, _, hframe⟩ :=
        gcTask_frame plat out (t.tick (w.withQueue queue).now) task (w.withQueue queue)
      rw [hyes, hframe]
      exact (history_retry out hqueue).same ⟨rfl, rfl, rfl⟩

/-- **Every step** changes the registrations by its `changes`. -/
theorem history_step {w w' : World Dir} {a : Input Dir} {es : List Event}
    (hs : Watcher.step plat w a = some (w', es)) (h : History plat w tr) :
    History plat w' (tr ++ changes plat w a) := by
  cases a with
  | deliver out i =>
      obtain ⟨t, queue, hd, rfl, -⟩ := step_deliver hs
      simp only [changes, hd]
      exact history_deliver out t queue h
  | enableLeakWatcher out isEnabled configs callback =>
      obtain ⟨rfl, -⟩ := Prod.mk.inj (Option.some.inj hs)
      exact history_switch out isEnabled configs callback h
  | _ =>
      have hquiet := step_quiet hs trivial
      exact h.idle ⟨hquiet.registrations, hquiet.retry, hquiet.attempt⟩

/-- Nothing is registered at the start. -/
theorem history_init (load : DumpState Dir) : History plat (watcher plat load).init [] := by
  have hoff : ∀ {p q : Change → Prop}, ¬ Since p q [] := fun {p q} => not_since_nil p q
  constructor
  · exact iff_of_false Bool.false_ne_true hoff
  · exact iff_of_false Bool.false_ne_true hoff
  · exact fun c => iff_of_false List.not_mem_nil hoff
  · exact fun id => iff_of_false List.not_mem_nil hoff
  · exact iff_of_false (fun hne => hne rfl) hoff
  · exact fun types htypes => absurd htypes.symm (Option.some_ne_none types)
  · exact fun hne => absurd rfl hne
  · exact atEach_nil _
  · rfl
  · exact Nat.succ_le_succ (Nat.zero_le attemptCount)

/-- The record is true along every run. -/
theorem history_of_run {load : DumpState Dir} {w : World Dir}
    (hr : Run (registrationHistory plat load) anyStep w tr) : History plat w tr := by
  refine Run.invariant (I := History plat) (history_init load) ?_ hr
  intro w tr a w' es h _ hs
  obtain ⟨⟨_, hstep⟩, rfl⟩ := Machine.observing_step hs
  exact history_step hstep h

/-- **What is registered, and since when.** In every run a component or window callback is
    registered exactly when a registration that selects its type came after the last shutdown,
    the native callback on a UI context exactly when one that found this context came after the
    last shutdown that found it, and an ability callback exactly when no shutdown that gets
    as far as naming it came after its registration. -/
theorem registered_since {load : DumpState Dir} {w : World Dir}
    (hr : Run (registrationHistory plat load) anyStep w tr) :
    (w.registrations.component = true ↔ Since (selects customComponent) unregisters tr) ∧
    (w.registrations.window = true ↔ Since (selects window) unregisters tr) ∧
    (∀ c, c ∈ w.registrations.native ↔ Since (selectsNative c) (unregistersNative c) tr) ∧
    ∀ id, id ∈ w.registrations.abilities
      ↔ Since (selectsAbility id) (unregistersAbility id) tr := by
  have h := history_of_run hr
  exact ⟨h.component, h.window, h.native, h.abilities⟩

/-- A call on the UI thread that finds the given UI context. -/
def onContext (uiContext : Option Nat) : Surroundings :=
  { plainSurroundings with uiContext := uiContext }

/-- A start that monitors everything. -/
def startAll (uiContext : Option Nat) : Input String :=
  .enableLeakWatcher (onContext uiContext) (.bool true) (.array []) (.obj 1)

/-- A shutdown. -/
def stopAll (uiContext : Option Nat) : Input String :=
  .enableLeakWatcher (onContext uiContext) (.bool false) (.array []) (.obj 1)

/-- A retry registers the native callback on context 1, and the shutdown finds context 2: all
    but the native callback is unregistered. -/
theorem registered_since_otherContext :
    ∃ (w : World String) (tr : List Change),
      Run (registrationHistory plainPlatform DumpIdentity.noFiles) anyStep w tr
        ∧ Since (selectsNative 1) (unregistersNative 1) tr
        ∧ ¬ Since (selects window) unregisters tr := by
  obtain ⟨p, hp⟩ : ∃ p, exec (registrationHistory plainPlatform DumpIdentity.noFiles) anyStep
      [startAll none, .advance 90000, .deliver (onContext (some 1)) 0, stopAll (some 2)]
        = some p := ⟨_, rfl⟩
  obtain ⟨hnative, hwindow⟩ :
      p.1.registrations.native = [1] ∧ p.1.registrations.window = false := by
    obtain rfl := Option.some.inj hp
    exact ⟨rfl, rfl⟩
  obtain ⟨-, hiffWindow, hiffNative, -⟩ := registered_since (run_of_exec hp)
  refine ⟨p.1, p.2, run_of_exec hp, (hiffNative 1).mp ?_, ?_⟩
  · rw [hnative]
    exact List.mem_singleton_self 1
  · rw [← hiffWindow, hwindow]
    exact Bool.false_ne_true

end RegistrationHistory
