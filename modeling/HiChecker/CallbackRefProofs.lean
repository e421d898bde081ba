import HiChecker.LifecycleProofs
import HiChecker.RefLedgerProofs

/-!
# The references to the callbacks

`GetCallbackRef` makes a `napi_ref` of each callback that the module hands to the native
side, and five variables hold them: `g_callbackRef`, `callbackRef_` of `g_listener`, and the
three function references of the handler. A setter overwrites what its variable held.

* **`Call`** / **`NapiState.call`** — the native calls that store or drop a reference.
* **`callsOf`** — the calls that a step of the watcher makes; **`run_agrees`** connects the
  variables with the state of the watcher.
* **`AccountedFor`** — the live references are those held, none is deleted twice, and a
  handler that runs has live references.
* **`references_accounted`** — over a run whose calls store into empty variables, the
  references are accounted for; from such a run, the next step keeps them so exactly
  when its calls do.
-/

namespace CallbackRef

open Transition JsValue WatcherConfig TimerQueue Watcher Lifecycle RefLedgerLib

-- ── The native side ───────────────────────────────────────────────────────────────

/-- The variables of type `napi_ref` that outlive a call. -/
inductive Holder where
  /-- `g_callbackRef` -/
  | callbackRef
  /-- `callbackRef_` of `g_listener` -/
  | listener
  | dumpFuncRef
  | gcFuncRef
  | shutdownFuncRef
deriving DecidableEq

/-- The references of the native module, and what guards their deletion. -/
structure NapiState where
  refs : Ledger Holder := {}
  /-- `env_` of the handler is not null -/
  env : Bool := false
  isRunning : Bool := false

/-- `GetCallbackRef` into `h`, or into a local that a setter copies to `h`. The module
    passes one argument each time. -/
def NapiState.getCallbackRef (h : Holder) (s : NapiState) : NapiState :=
  { s with refs := s.refs.create h }

/-- The callback is stored before the UI context is looked for. -/
def NapiState.registerArkUIObjectLifeCycleCallback (uiContext : Option Nat)
    (s : NapiState) : NapiState × Bool :=
  (s.getCallbackRef .callbackRef, uiContext.isSome)

/-- `UnregisterArkUIObjectLifeCycleCallback`: without a UI context the reference stays. -/
def NapiState.unregisterArkUIObjectLifeCycleCallback (uiContext : Option Nat)
    (s : NapiState) : NapiState :=
  match uiContext with
  | none => s
  | some _ => { s with refs := s.refs.delete .callbackRef }

/-- `RegisterWindowLifeCycleCallback`. -/
def NapiState.registerWindowLifeCycleCallback (s : NapiState) : NapiState × Bool :=
  (s.getCallbackRef .listener, true)

/-- `g_listener->Reset()`. -/
def NapiState.unregisterWindowLifeCycleCallback (s : NapiState) : NapiState :=
  { s with refs := s.refs.delete .listener }

/-- `SetEnv`. -/
def NapiState.setEnv (s : NapiState) : NapiState := { s with env := true }

/-- `Reset`, for one of its three references: nothing is deleted before `env_` is set. -/
def NapiState.resetRef (h : Holder) (s : NapiState) : NapiState :=
  if s.env && (s.refs.holds h).isSome then { s with refs := s.refs.delete h } else s

/-- `Reset` of the handler. -/
def NapiState.reset (s : NapiState) : NapiState :=
  ((s.resetRef .dumpFuncRef).resetRef .gcFuncRef).resetRef .shutdownFuncRef

/-- `SetJsLeakWatcherStatus`: stopping resets the handler. -/
def NapiState.setJsLeakWatcherStatus (isRunning : Bool) (s : NapiState) : NapiState :=
  let s := { s with isRunning := isRunning }
  if !isRunning then s.reset else s

/-- `HandleDumpTask`. -/
def NapiState.handleDumpTask (s : NapiState) : NapiState :=
  (s.getCallbackRef .dumpFuncRef).setEnv.setJsLeakWatcherStatus true

/-- `HandleGCTask`. -/
def NapiState.handleGCTask (s : NapiState) : NapiState :=
  (s.getCallbackRef .gcFuncRef).setEnv

/-- `HandleShutdownTask`. -/
def NapiState.handleShutdownTask (s : NapiState) : NapiState :=
  (s.getCallbackRef .shutdownFuncRef).setEnv

/-- `RemoveTask`. -/
def NapiState.removeTask (s : NapiState) : NapiState := s.setJsLeakWatcherStatus false

/-- The calls of the module that reach a reference. -/
inductive Call where
  | registerArkUI (uiContext : Option Nat)
  | unregisterArkUI (uiContext : Option Nat)
  | registerWindow
  | unregisterWindow
  | handleDumpTask
  | handleGCTask
  | handleShutdownTask
  | removeTask

/-- What each native call does. -/
def NapiState.call (s : NapiState) : Call → NapiState
  | .registerArkUI uiContext => (s.registerArkUIObjectLifeCycleCallback uiContext).1
  | .unregisterArkUI uiContext => s.unregisterArkUIObjectLifeCycleCallback uiContext
  | .registerWindow => s.registerWindowLifeCycleCallback.1
  | .unregisterWindow => s.unregisterWindowLifeCycleCallback
  | .handleDumpTask => s.handleDumpTask
  | .handleGCTask => s.handleGCTask
  | .handleShutdownTask => s.handleShutdownTask
  | .removeTask => s.removeTask

/-- Several calls, one after another. -/
def NapiState.calls (s : NapiState) (cs : List Call) : NapiState := cs.foldl NapiState.call s

/-- The native side after a sequence of calls. -/
def after (cs : List Call) : NapiState := NapiState.calls {} cs

/-- Calls in two parts. -/
theorem calls_append (s : NapiState) (cs cs' : List Call) :
    s.calls (cs ++ cs') = (s.calls cs).calls cs' := List.foldl_append

-- ── The calls of a step ───────────────────────────────────────────────────────────

variable {Dir : Type} (plat : Platform Dir)

/-- The calls of `executeRegister`. -/
def registerCalls (out : Surroundings) (types : BitVec 32) : List Call :=
  (if monitors types window then [.registerWindow] else [])
    ++ (if monitorsNative types then [.registerArkUI out.uiContext] else [])

/-- The calls of the retry in a GC tick. -/
def retryCalls (out : Surroundings) (w : World Dir) : List Call :=
  match w.retryMonitorObjectTypes with
  | none => []
  | some types => if w.currentAttempt ≤ attemptCount then registerCalls out types else []

/-- The calls that arm the handler. -/
def armCalls : List Call := [.handleGCTask, .handleDumpTask, .handleShutdownTask]

/-- The native calls of `shutdownJsLeakWatcher`. -/
def shutdownCalls (out : Surroundings) : List Call :=
  [.removeTask, .unregisterArkUI out.uiContext, .unregisterWindow]

/-- The GC closure runs when the event is processed. -/
def runsGcTask (w : World Dir) (t : Timer EventId) : Bool :=
  w.handler.isRunning && decide (t.event = .gcEvent) && w.handler.gcFuncRef.isSome

/-- The native calls of a step, in order. -/
def callsOf (w : World Dir) : Input Dir → List Call
  | .enableLeakWatcher out isEnabled configs callback =>
      if stops isEnabled configs callback w then shutdownCalls out
      else if starts plat out isEnabled configs callback w then
        armCalls ++ registerCalls out (startTypes out configs w)
      else []
  | .deliver out i =>
      match deliver w.now w.queue i with
      | none => []
      | some (t, _) => if runsGcTask w t then retryCalls out w else []
  | _ => []

/-- The watcher, seen through its native calls. -/
def nativeHistory (load : DumpFile.DumpState Dir) [DecidableEq Dir] :
    Machine (World Dir) (Input Dir) Call :=
  (watcher plat load).observing (callsOf plat)

-- ── References that are accounted for ─────────────────────────────────────────────

/-- `ProcessEvent` calls through these. -/
def eventRefs : List Holder := [.gcFuncRef, .dumpFuncRef]

/-- The references created and not deleted are exactly those held, none is deleted twice,
    and a handler that runs has live references to call. -/
structure AccountedFor (s : NapiState) : Prop where
  accounted : s.refs.Accounted
  once : s.refs.deleted.Nodup
  callable : s.isRunning = true → ∀ h ∈ eventRefs, ∃ n, s.refs.holds h = some n ∧ s.refs.Live n

/-- The variable that a call stores a new reference in. -/
def Call.stores : Call → Option Holder
  | .registerArkUI _ => some .callbackRef
  | .registerWindow => some .listener
  | .handleDumpTask => some .dumpFuncRef
  | .handleGCTask => some .gcFuncRef
  | .handleShutdownTask => some .shutdownFuncRef
  | .unregisterArkUI _ => none
  | .unregisterWindow => none
  | .removeTask => none

/-- What the state of the watcher says of a variable: it is not null. -/
def occupied (w : World Dir) : Holder → Bool
  | .callbackRef => w.handler.callbackRef
  | .listener => w.registrations.window
  | .dumpFuncRef => w.handler.dumpFuncRef.isSome
  | .gcFuncRef => w.handler.gcFuncRef.isSome
  | .shutdownFuncRef => w.handler.shutdownFuncRef

/-- Every call of the step stores into a variable that is null before it. -/
def StoresInEmpty (w : World Dir) (a : Input Dir) : Prop :=
  ∀ c ∈ callsOf plat w a, ∀ h, c.stores = some h → occupied w h = false

-- ── Calls as operations ───────────────────────────────────────────────────────────

/-- The variables that a call deletes through. -/
def Call.drops : Call → List Holder
  | .unregisterArkUI (some _) => [.callbackRef]
  | .unregisterWindow => [.listener]
  | .removeTask => [.dumpFuncRef, .gcFuncRef, .shutdownFuncRef]
  | _ => []

/-- What a call does to the ledger of references. -/
def Call.ops (c : Call) : List (Op Holder) :=
  match c.stores with
  | some h => [.create h]
  | none => c.drops.map .delete

/-- What several calls do to it. -/
def opsOf (cs : List Call) : List (Op Holder) := cs.flatMap Call.ops

/-- Whether a variable is null after a call, from whether it was before. -/
def Call.occupies (c : Call) (h : Holder) (before : Bool) : Bool :=
  match c.stores with
  | some h' => decide (h = h') || before
  | none => before && decide (h ∉ c.drops)

/-- The variables of the handler. -/
def handlerRefs : List Holder := [.dumpFuncRef, .gcFuncRef, .shutdownFuncRef]

/-- A handler that holds a reference has an `env_`. -/
def Enved (s : NapiState) : Prop :=
  ∀ h ∈ handlerRefs, (s.refs.holds h).isSome = true → s.env = true

/-- With `env_` set wherever something is held, resetting is deleting. -/
theorem resetRef_eq {h : Holder} {s : NapiState}
    (henv : (s.refs.holds h).isSome = true → s.env = true) :
    s.resetRef h = { s with refs := s.refs.delete h } := by
  simp only [NapiState.resetRef]
  cases hheld : s.refs.holds h with
  | none =>
      rw [Option.isSome_none, Bool.and_false, if_neg Bool.false_ne_true, delete_of_none hheld]
  | some n =>
      rw [hheld] at henv
      rw [henv rfl, Option.isSome_some, Bool.and_true, if_pos rfl]

/-- `RemoveTask` clears the three references. -/
theorem removeTask_eq {s : NapiState} (hs : Enved s) :
    s.removeTask
      = { s with isRunning := false
                 refs := s.refs.run (Call.ops .removeTask) } := by
  -- what a deletion leaves filled was filled before
  have hfilled : ∀ (h : Holder) {h' : Holder} {l : Ledger Holder},
      ((l.delete h').holds h).isSome = true → (l.holds h).isSome = true := by
    intro h h' l hheld
    rw [isSome_delete] at hheld
    exact (Bool.and_eq_true_iff.mp hheld).1
  have hdump := resetRef_eq (s := { s with isRunning := false })
    (hs .dumpFuncRef (by decide))
  have hgc := resetRef_eq
    (s := { s with isRunning := false, refs := s.refs.delete .dumpFuncRef })
    (fun hheld => hs .gcFuncRef (by decide) (hfilled .gcFuncRef hheld))
  have hshutdown := resetRef_eq
    (s := { s with isRunning := false
                   refs := (s.refs.delete .dumpFuncRef).delete .gcFuncRef })
    (fun hheld => hs .shutdownFuncRef (by decide)
      (hfilled .shutdownFuncRef (hfilled .shutdownFuncRef hheld)))
  show NapiState.reset { s with isRunning := false } = _
  rw [NapiState.reset, hdump, hgc, hshutdown]
  rfl

/-- **Each call** is its operations on the references. -/
theorem call_refs {s : NapiState} (hs : Enved s) (c : Call) :
    (s.call c).refs = s.refs.run c.ops := by
  cases c with
  | registerArkUI uiContext => rfl
  | unregisterArkUI uiContext =>
      cases uiContext with
      | none => rfl
      | some c => rfl
  | registerWindow => rfl
  | unregisterWindow => rfl
  | handleDumpTask => rfl
  | handleGCTask => rfl
  | handleShutdownTask => rfl
  | removeTask => exact congrArg NapiState.refs (removeTask_eq hs)

/-- **Which variables are null** after a call. -/
theorem call_occupies {s : NapiState} (hs : Enved s) (c : Call) (h : Holder) :
    ((s.call c).refs.holds h).isSome = c.occupies h (s.refs.holds h).isSome := by
  rw [call_refs hs]
  simp only [Call.ops, Call.occupies]
  cases c.stores with
  | some h' => exact isSome_create h h' s.refs
  | none => exact isSome_deletes h c.drops s.refs

theorem call_running {s : NapiState} (hs : Enved s) (c : Call) :
    (s.call c).isRunning
      = match c with
        | .handleDumpTask => true
        | .removeTask => false
        | _ => s.isRunning := by
  cases c with
  | registerArkUI uiContext => rfl
  | unregisterArkUI uiContext =>
      cases uiContext with
      | none => rfl
      | some c => rfl
  | registerWindow => rfl
  | unregisterWindow => rfl
  | handleDumpTask => rfl
  | handleGCTask => rfl
  | handleShutdownTask => rfl
  | removeTask => exact congrArg NapiState.isRunning (removeTask_eq hs)

/-- Every call leaves `env_` set wherever something is held. -/
theorem enved_call {s : NapiState} (hs : Enved s) (c : Call) : Enved (s.call c) := by
  -- a call that stores in no variable of the handler keeps `env_`
  have hkeep : (∀ h ∈ c.stores, h ∉ handlerRefs) → (s.call c).env = s.env →
      Enved (s.call c) := by
    intro hstores henv h hmem hheld
    rw [henv]
    rw [call_occupies hs] at hheld
    refine hs h hmem ?_
    simp only [Call.occupies] at hheld
    cases hc : c.stores with
    | none =>
        rw [hc] at hheld
        exact (Bool.and_eq_true_iff.mp hheld).1
    | some h' =>
        rw [hc] at hheld
        rcases Bool.or_eq_true_iff.mp hheld with heq | hold
        · rw [of_decide_eq_true heq] at hmem
          exact absurd hmem (hstores h' hc)
        · exact hold
  have hcallback : ∀ h ∈ some Holder.callbackRef, h ∉ handlerRefs := by decide
  have hlistener : ∀ h ∈ some Holder.listener, h ∉ handlerRefs := by decide
  have hnone : ∀ h ∈ (none : Option Holder), h ∉ handlerRefs := by decide
  cases c with
  | registerArkUI uiContext => exact hkeep hcallback rfl
  | unregisterArkUI uiContext =>
      cases uiContext with
      | none => exact hs
      | some c => exact hkeep hnone rfl
  | registerWindow => exact hkeep hlistener rfl
  | unregisterWindow => exact hkeep hnone rfl
  | handleDumpTask => exact fun _ _ _ => rfl
  | handleGCTask => exact fun _ _ _ => rfl
  | handleShutdownTask => exact fun _ _ _ => rfl
  | removeTask =>
      refine hkeep hnone ?_
      show s.removeTask.env = s.env
      rw [removeTask_eq hs]

/-- **A sequence of calls** is its operations on the references. -/
theorem calls_refs {s : NapiState} (hs : Enved s) (cs : List Call) :
    (s.calls cs).refs = s.refs.run (opsOf cs) := by
  induction cs generalizing s with
  | nil => rfl
  | cons c cs ih =>
      show ((s.call c).calls cs).refs = _
      rw [ih (enved_call hs c), call_refs hs]
      exact (run_append s.refs c.ops (opsOf cs)).symm

-- ── The watcher and its native side ───────────────────────────────────────────────

/-- The state of the watcher tells which variables are null and whether the handler runs. -/
structure Agrees (w : World Dir) (s : NapiState) : Prop where
  running : s.isRunning = w.handler.isRunning
  held : ∀ h, (s.refs.holds h).isSome = occupied w h
  env : Enved s

/-- A call that changes the watcher as it changes the variables. -/
theorem Agrees.call {w w' : World Dir} {s : NapiState} (hag : Agrees w s) (c : Call)
    (hrunning : w'.handler.isRunning = match c with
      | .handleDumpTask => true
      | .removeTask => false
      | _ => w.handler.isRunning)
    (hheld : ∀ h, occupied w' h = c.occupies h (occupied w h)) : Agrees w' (s.call c) where
  running := by
    rw [call_running hag.env, hrunning, hag.running]
  held := by
    intro h
    rw [call_occupies hag.env, hag.held, hheld]
  env := enved_call hag.env c

/-- A step that touches neither the handler nor the window callback. -/
theorem Agrees.same {w w' : World Dir} {s : NapiState} (hag : Agrees w s)
    (hhandler : w'.handler = w.handler)
    (hwindow : w'.registrations.window = w.registrations.window) : Agrees w' s where
  running := by
    rw [hhandler]
    exact hag.running
  held := by
    intro h
    rw [hag.held]
    cases h with
    | callbackRef => exact congrArg Native.callbackRef hhandler.symm
    | listener => exact hwindow.symm
    | dumpFuncRef => exact congrArg (fun n => n.dumpFuncRef.isSome) hhandler.symm
    | gcFuncRef => exact congrArg (fun n => n.gcFuncRef.isSome) hhandler.symm
    | shutdownFuncRef => exact congrArg Native.shutdownFuncRef hhandler.symm
  env := hag.env

/-- `handleGCTask` stores what the handler holds. -/
theorem agrees_handleGCTask (task : GcTask) {w : World Dir} {s : NapiState}
    (hag : Agrees w s) : Agrees (Watcher.handleGCTask task w) (s.call .handleGCTask) := by
  refine hag.call .handleGCTask rfl (fun h => ?_)
  cases h <;> rfl

/-- `handleDumpTask` stores what the handler holds, and starts it. -/
theorem agrees_handleDumpTask (task : DumpTask) {w : World Dir} {s : NapiState}
    (hag : Agrees w s) : Agrees (Watcher.handleDumpTask task w) (s.call .handleDumpTask) := by
  refine hag.call .handleDumpTask rfl (fun h => ?_)
  cases h <;> rfl

/-- `handleShutdownTask` stores what the handler holds. -/
theorem agrees_handleShutdownTask {w : World Dir} {s : NapiState} (hag : Agrees w s) :
    Agrees (Watcher.handleShutdownTask w) (s.call .handleShutdownTask) := by
  refine hag.call .handleShutdownTask rfl (fun h => ?_)
  cases h <;> rfl

/-- Arming is its three calls. -/
theorem agrees_arm (out : Surroundings) (configs : Configs) (callback : JsVal)
    {w : World Dir} {s : NapiState} (hag : Agrees w s) :
    Agrees (arm out configs callback w) (s.calls armCalls) := by
  obtain ⟨gcTask, dumpTask, settings, heq⟩ : ∃ gcTask dumpTask settings,
      arm out configs callback w
        = { Watcher.handleShutdownTask
              (Watcher.handleDumpTask dumpTask (Watcher.handleGCTask gcTask w)) with
            settings := settings } := ⟨_, _, _, rfl⟩
  have hgc := agrees_handleGCTask gcTask hag
  have hdump := agrees_handleDumpTask dumpTask hgc
  rw [heq]
  exact (agrees_handleShutdownTask hdump).same rfl rfl

/-- The window callback is registered by its call. -/
theorem agrees_executeWindow (types : BitVec 32) {w : World Dir} {s : NapiState}
    (hag : Agrees w s) :
    Agrees (executeWindow types w)
      (s.calls (if monitors types window then [.registerWindow] else [])) := by
  rw [executeWindow_eq]
  cases monitors types window with
  | false => exact hag.same rfl (Bool.or_false _)
  | true =>
      refine hag.call .registerWindow rfl (fun h => ?_)
      cases h with
      | listener => exact Bool.or_true _
      | callbackRef => rfl
      | dumpFuncRef => rfl
      | gcFuncRef => rfl
      | shutdownFuncRef => rfl

/-- The native callback is registered by its call. -/
theorem agrees_executeNative (out : Surroundings) (types : BitVec 32) {w : World Dir}
    {s : NapiState} (hretry : w.retryMonitorObjectTypes = none) (hag : Agrees w s) :
    Agrees (executeNative out types w)
      (s.calls (if monitorsNative types then [.registerArkUI out.uiContext] else [])) := by
  rw [executeNative_eq out types hretry]
  cases monitorsNative types with
  | false => exact hag
  | true =>
      refine hag.call (.registerArkUI out.uiContext) rfl (fun h => ?_)
      cases h <;> rfl

/-- The ability callback is no reference of the native side. -/
theorem agrees_executeAbility (types : BitVec 32) {w : World Dir} {s : NapiState}
    (hag : Agrees w s) : Agrees (executeAbility plat types w) s := by
  simp only [executeAbility, registerAbilityLifecycleCallback]
  cases monitors types ability with
  | false => exact hag
  | true =>
      cases plat.hasContext with
      | false => exact hag.same rfl rfl
      | true => exact hag.same rfl rfl

/-- `executeRegister` and its calls. -/
theorem agrees_executeRegister (out : Surroundings) (types : BitVec 32) {w : World Dir}
    {s : NapiState} (hag : Agrees w s) :
    Agrees (executeRegister plat out types w) (s.calls (registerCalls out types)) := by
  let cleared : World Dir := { w with retryMonitorObjectTypes := none }
  have hcomponent : Agrees (executeComponent types cleared) s := by
    rw [executeComponent_eq]
    exact hag.same rfl rfl
  have hwindow := agrees_executeWindow types hcomponent
  have hretry : (executeWindow types (executeComponent types cleared)).retryMonitorObjectTypes
      = none := by
    rw [executeWindow_eq, executeComponent_eq]
  have hnative := agrees_executeNative out types hretry hwindow
  rw [registerCalls, calls_append]
  exact agrees_executeAbility plat types hnative

/-- A retry is the calls of its registration. -/
theorem agrees_retry (out : Surroundings) {w : World Dir} {s : NapiState}
    (hag : Agrees w s) :
    Agrees (retryRegister plat out w) (s.calls (retryCalls out w)) := by
  cases hretry : w.retryMonitorObjectTypes with
  | none =>
      simp only [retryRegister, retryCalls, hretry]
      exact hag
  | some types =>
      simp only [retryRegister, retryCalls, hretry]
      split
      · exact (agrees_executeRegister plat out types hag).same rfl rfl
      · exact hag

/-- The component callback is no reference of the native module. -/
theorem agrees_unregisterComponent (out : Surroundings) {w : World Dir} {s : NapiState}
    (hag : Agrees w s) : Agrees (unregisterComponent out w).1 s := by
  simp only [unregisterComponent]
  split
  · exact hag
  · exact hag.same rfl rfl

/-- Nor is the ability callback. -/
theorem agrees_shutdownEnd (out : Surroundings) {w : World Dir} {s : NapiState}
    (hag : Agrees w s) : Agrees (shutdownEnd plat out w).1 s := by
  have hability : Agrees (unregisterAbilityLifecycleCallback plat out w).1 s := by
    simp only [unregisterAbilityLifecycleCallback]
    split
    · exact hag
    · split
      · exact hag
      · exact hag.same rfl rfl
  simp only [shutdownEnd]
  split
  · exact hability
  · exact hability.same rfl rfl

/-- A shutdown and its calls. -/
theorem agrees_shutdown (out : Surroundings) {w : World Dir} {s : NapiState}
    (hag : Agrees w s) :
    Agrees (shutdownJsLeakWatcher plat out w).1 (s.calls (shutdownCalls out)) := by
  have hremove : Agrees (Watcher.removeTask w) (s.call .removeTask) := by
    refine hag.call .removeTask rfl (fun h => ?_)
    cases h with
    | callbackRef => exact (Bool.and_true _).symm
    | listener => exact (Bool.and_true _).symm
    | dumpFuncRef => exact (Bool.and_false _).symm
    | gcFuncRef => exact (Bool.and_false _).symm
    | shutdownFuncRef => exact (Bool.and_false _).symm
  have hnative : Agrees (unregisterNative out (Watcher.removeTask w))
      ((s.call .removeTask).call (.unregisterArkUI out.uiContext)) := by
    cases hctx : out.uiContext with
    | none =>
        simp only [unregisterNative, hctx]
        exact hremove
    | some c =>
        simp only [unregisterNative, hctx]
        refine hremove.call (.unregisterArkUI (some c)) rfl (fun h => ?_)
        cases h with
        | callbackRef => exact (Bool.and_false _).symm
        | listener => exact (Bool.and_true _).symm
        | dumpFuncRef => rfl
        | gcFuncRef => rfl
        | shutdownFuncRef => rfl
  have hwindow : Agrees (unregisterWindow (unregisterNative out (Watcher.removeTask w)))
      (s.calls (shutdownCalls out)) := by
    refine hnative.call .unregisterWindow rfl (fun h => ?_)
    cases h with
    | listener => exact (Bool.and_false _).symm
    | callbackRef => exact (Bool.and_true _).symm
    | dumpFuncRef => exact (Bool.and_true _).symm
    | gcFuncRef => exact (Bool.and_true _).symm
    | shutdownFuncRef => exact (Bool.and_true _).symm
  have hend := agrees_shutdownEnd plat out (agrees_unregisterComponent out hwindow)
  show Agrees (if _ then unregisterComponent out _ else shutdownEnd plat out _).1 _
  split
  · exact agrees_unregisterComponent out hwindow
  · exact hend

/-- A start arms and registers. -/
theorem agrees_launch (out : Surroundings) (configs : Configs) (callback : JsVal)
    {w : World Dir} {s : NapiState} (hag : Agrees w s) :
    Agrees (launch plat out configs callback w)
      (s.calls (armCalls ++ registerCalls out
        (typeMask (withMonitorObjectTypes configs
          w.settings).leakWatcherConfig.monitorObjectTypes))) := by
  rw [calls_append]
  exact agrees_executeRegister plat out _ (agrees_arm out configs callback hag)

/-- A call of `enableLeakWatcher` and its native calls. -/
theorem agrees_switch (out : Surroundings) (isEnabled : JsVal) (configs : Configs)
    (callback : JsVal) {w : World Dir} {s : NapiState} (hag : Agrees w s) :
    Agrees (enableLeakWatcher plat out isEnabled configs callback w).1
      (s.calls (callsOf plat w (.enableLeakWatcher out isEnabled configs callback))) := by
  simp only [callsOf]
  cases hstops : stops isEnabled configs callback w with
  | true =>
      obtain ⟨hacc, ht⟩ := Bool.and_eq_true_iff.mp hstops
      rw [if_pos rfl, enableLeakWatcher_of_accepts plat hacc, if_pos ht]
      have hwritten : Agrees { w with enabled := isEnabled } s := hag.same rfl rfl
      exact agrees_shutdown plat out hwritten
  | false =>
      rw [if_neg Bool.false_ne_true]
      have hconfigured : Agrees (configured out isEnabled configs w) s := hag.same rfl rfl
      cases hstarts : starts plat out isEnabled configs callback w with
      | true =>
          rw [if_pos rfl, enableLeakWatcher_of_starts plat hstarts]
          exact agrees_launch plat out configs callback hconfigured
      | false =>
          rw [if_neg Bool.false_ne_true]
          have hout := enableLeakWatcher_outcome plat out isEnabled configs callback w
          generalize enableLeakWatcher plat out isEnabled configs callback w = result at hout ⊢
          cases hout with
          | refused _ t => exact hag
          | stopped h => exact absurd (hstops.symm.trans h) Bool.false_ne_true
          | rejected _ _ _ => exact hconfigured
          | idle _ _ t _ => exact hconfigured
          | started h => exact absurd (hstarts.symm.trans h) Bool.false_ne_true

section Steps

variable [DecidableEq Dir]

/-- The processing of an event and its native calls. -/
theorem agrees_processEvent (out : Surroundings) (t : Timer EventId) {w : World Dir}
    {s : NapiState} (hag : Agrees w s) :
    Agrees (processEvent plat out t w).1
      (s.calls (if runsGcTask w t then retryCalls out w else [])) := by
  have heffect := processEvent_effect plat out t w
  generalize processEvent plat out t w = result at heffect ⊢
  cases heffect with
  | dropped hrun =>
      simp only [runsGcTask, hrun]
      exact hag
  | noDump hrun hevent =>
      simp only [runsGcTask, hrun, hevent]
      exact hag
  | dumped task hrun hevent =>
      obtain ⟨_, _, _, heq⟩ := dumpTask_frame plat out task w
      simp only [runsGcTask, hrun, hevent]
      rw [heq]
      exact hag.same rfl rfl
  | noGc hrun hevent htask =>
      simp only [runsGcTask, hrun, hevent, htask]
      exact hag.same rfl rfl
  | collected task hrun hevent htask =>
      obtain ⟨_, _, heq⟩ := gcTask_frame plat out (t.tick w.now) task w
      simp only [runsGcTask, hrun, hevent, htask]
      rw [heq]
      exact (agrees_retry plat out hag).same rfl rfl

/-- **A step of the watcher** changes the variables as its native calls do. -/
theorem agrees_step {w w' : World Dir} {a : Input Dir} {es : List Event} {s : NapiState}
    (hag : Agrees w s) (hs : step plat w a = some (w', es)) :
    Agrees w' (s.calls (callsOf plat w a)) := by
  cases a with
  | enableLeakWatcher out isEnabled configs callback =>
      obtain ⟨rfl, -⟩ := Prod.mk.inj (Option.some.inj hs)
      exact agrees_switch plat out isEnabled configs callback hag
  | deliver out i =>
      obtain ⟨t, queue, hdeliver, rfl, -⟩ := step_deliver hs
      simp only [callsOf, hdeliver]
      have htaken : Agrees (w.withQueue queue) s := hag.same rfl rfl
      exact agrees_processEvent plat out t htaken
  | _ =>
      -- a quiet step makes no native call that reaches a reference
      have hquiet := step_quiet hs trivial
      exact hag.same hquiet.handler (congrArg Registrations.window hquiet.registrations)

end Steps

-- ── A handler that runs ───────────────────────────────────────────────────────────

/-- A handler that runs holds the references to call. -/
def Ready (s : NapiState) : Prop :=
  s.isRunning = true → ∀ h ∈ eventRefs, (s.refs.holds h).isSome = true

/-- Only `handleDumpTask` makes the handler run. -/
theorem ready_call {s : NapiState} (hs : Enved s) (hready : Ready s) {c : Call}
    (hc : c ≠ .handleDumpTask) : Ready (s.call c) := by
  have hkeep : (s.call c).isRunning = s.isRunning → (∀ h ∈ eventRefs, h ∉ c.drops) →
      Ready (s.call c) := by
    intro hrunning hdrops hrun h hmem
    rw [call_occupies hs, hready (hrunning ▸ hrun) h hmem]
    simp only [Call.occupies]
    cases c.stores with
    | none => exact decide_eq_true (hdrops h hmem)
    | some h' => exact Bool.or_true _
  have hcallback : ∀ h ∈ eventRefs, h ∉ [Holder.callbackRef] := by decide
  have hlistener : ∀ h ∈ eventRefs, h ∉ [Holder.listener] := by decide
  have hnone : ∀ h ∈ eventRefs, h ∉ ([] : List Holder) := fun _ _ => List.not_mem_nil
  cases c with
  | registerArkUI uiContext => exact hkeep rfl hnone
  | unregisterArkUI uiContext =>
      cases uiContext with
      | none => exact hready
      | some c => exact hkeep rfl hcallback
  | registerWindow => exact hkeep rfl hnone
  | unregisterWindow => exact hkeep rfl hlistener
  | handleDumpTask => exact absurd rfl hc
  | handleGCTask => exact hkeep rfl hnone
  | handleShutdownTask => exact hkeep rfl hnone
  | removeTask =>
      intro hrun
      rw [call_running hs] at hrun
      exact absurd hrun Bool.false_ne_true

/-- Calls that do not hand over the dump closure leave the handler ready. -/
theorem ready_calls {s : NapiState} (hs : Enved s) (hready : Ready s) {cs : List Call}
    (hcs : .handleDumpTask ∉ cs) : Ready (s.calls cs) := by
  induction cs generalizing s with
  | nil => exact hready
  | cons c cs ih =>
      obtain ⟨hne, hrest⟩ := not_or.mp (fun h => hcs (List.mem_cons.mpr h))
      exact ih (enved_call hs c) (ready_call hs hready (fun h => hne h.symm)) hrest

/-- The GC reference is there before the handler is made to run. -/
theorem ready_handleDumpTask {s : NapiState} (hs : Enved s) :
    Ready ((s.call .handleGCTask).call .handleDumpTask) := by
  intro _ h hmem
  rw [call_occupies (enved_call hs _), call_occupies hs]
  simp only [eventRefs, List.mem_cons, List.not_mem_nil, or_false] at hmem
  rcases hmem with rfl | rfl
  · rfl
  · rfl

theorem not_mem_registerCalls (out : Surroundings) (types : BitVec 32) :
    .handleDumpTask ∉ registerCalls out types := by
  simp only [registerCalls]
  cases monitors types window with
  | true => cases monitorsNative types <;> simp
  | false => cases monitorsNative types <;> simp

/-- The calls of a start keep the handler ready at each of them. -/
theorem ready_start {s : NapiState} (hs : Enved s) (hready : Ready s) {cs rest : List Call}
    (hrest : .handleDumpTask ∉ rest) (hpre : cs <+: armCalls ++ rest) :
    Ready (s.calls cs) := by
  rcases List.prefix_cons_iff.mp hpre with rfl | ⟨cs₁, rfl, hpre₁⟩
  · exact hready
  have hgc : Ready (s.call .handleGCTask) := ready_call hs hready Call.noConfusion
  rcases List.prefix_cons_iff.mp hpre₁ with rfl | ⟨cs₂, rfl, hpre₂⟩
  · exact hgc
  have henved := enved_call (enved_call hs .handleGCTask) .handleDumpTask
  have hafter : .handleDumpTask ∉ cs₂ := by
    intro hmem
    rcases List.mem_cons.mp (hpre₂.subset hmem) with heq | hin
    · exact Call.noConfusion heq
    · exact hrest hin
  exact ready_calls henved (ready_handleDumpTask hs) hafter

/-- No step makes the handler run before its references are there. -/
theorem ready_callsOf {w : World Dir} {a : Input Dir} {s : NapiState} (hs : Enved s)
    (hready : Ready s) {cs : List Call} (hpre : cs <+: callsOf plat w a) :
    Ready (s.calls cs) := by
  have hother : .handleDumpTask ∉ callsOf plat w a → Ready (s.calls cs) := by
    intro hnot
    exact ready_calls hs hready (fun hmem => hnot (hpre.subset hmem))
  cases a with
  | enableLeakWatcher out isEnabled configs callback =>
      simp only [callsOf] at hpre hother
      split at hpre
      · rename_i hstops
        rw [if_pos hstops] at hother
        exact hother (by simp [shutdownCalls])
      · split at hpre
        · exact ready_start hs hready (not_mem_registerCalls _ _) hpre
        · rw [List.prefix_nil.mp hpre]
          exact hready
  | deliver out i =>
      refine hother ?_
      simp only [callsOf]
      cases TimerQueue.deliver w.now w.queue i with
      | none => exact List.not_mem_nil
      | some p =>
          show .handleDumpTask ∉ (if _ then retryCalls out w else [])
          simp only [retryCalls]
          split
          · split
            · exact List.not_mem_nil
            · split
              · exact not_mem_registerCalls _ _
              · exact List.not_mem_nil
          · exact List.not_mem_nil
  | _ => exact hother List.not_mem_nil

-- ── When a step keeps the references accounted for ────────────────────────────────

/-- Calls that store create references. -/
theorem opsOf_of_stores {cs : List Call} (hcs : ∀ c ∈ cs, c.stores ≠ none) :
    opsOf cs = (cs.filterMap Call.stores).map Op.create := by
  induction cs with
  | nil => rfl
  | cons c cs ih =>
      obtain ⟨hc, hrest⟩ := List.forall_mem_cons.mp hcs
      obtain ⟨h, hh⟩ := Option.ne_none_iff_exists'.mp hc
      show c.ops ++ opsOf cs = _
      rw [ih hrest, List.filterMap_cons_some hh, Call.ops, hh]
      rfl

/-- Calls that drop delete them. -/
theorem opsOf_of_drops {cs : List Call} (hcs : ∀ c ∈ cs, c.stores = none) :
    opsOf cs = (cs.flatMap Call.drops).map Op.delete := by
  induction cs with
  | nil => rfl
  | cons c cs ih =>
      obtain ⟨hc, hrest⟩ := List.forall_mem_cons.mp hcs
      show c.ops ++ opsOf cs = _
      rw [ih hrest, Call.ops, hc, List.flatMap_cons, List.map_append]

/-- The calls of a step store, each in its own variable, or they drop. -/
theorem callsOf_cases (w : World Dir) (a : Input Dir) :
    (∀ c ∈ callsOf plat w a, c.stores = none)
      ∨ (∀ c ∈ callsOf plat w a, c.stores ≠ none)
        ∧ ((callsOf plat w a).filterMap Call.stores).Nodup := by
  have hnone : ∀ c ∈ ([] : List Call), c.stores = none :=
    fun _ hmem => absurd hmem List.not_mem_nil
  have hregister : ∀ (pre : List Call) (out : Surroundings) (types : BitVec 32),
      pre = [] ∨ pre = armCalls →
      (∀ c ∈ pre ++ registerCalls out types, c.stores ≠ none)
        ∧ ((pre ++ registerCalls out types).filterMap Call.stores).Nodup := by
    intro pre out types hpre
    simp only [registerCalls]
    rcases hpre with rfl | rfl
    · cases monitors types window <;> cases monitorsNative types <;>
        simp [Call.stores]
    · cases monitors types window <;> cases monitorsNative types <;>
        simp [armCalls, Call.stores]
  cases a with
  | enableLeakWatcher out isEnabled configs callback =>
      simp only [callsOf]
      split
      · exact Or.inl (by simp [shutdownCalls, Call.stores])
      · split
        · exact Or.inr (hregister armCalls out _ (Or.inr rfl))
        · exact Or.inl hnone
  | deliver out i =>
      simp only [callsOf]
      split
      · exact Or.inl hnone
      · split
        · simp only [retryCalls]
          split
          · exact Or.inl hnone
          · split
            · exact Or.inr (hregister [] out _ (Or.inl rfl))
            · exact Or.inl hnone
        · exact Or.inl hnone
  | _ => exact Or.inl hnone

/-- The state of the watcher tells whether the calls of a step lose a reference. -/
theorem clean_callsOf_iff {w : World Dir} {s : NapiState} (hag : Agrees w s)
    (a : Input Dir) :
    Clean (opsOf (callsOf plat w a)) s.refs ↔ StoresInEmpty plat w a := by
  rcases callsOf_cases plat w a with hdrops | ⟨hstores, hnodup⟩
  · rw [opsOf_of_drops hdrops]
    refine iff_of_true (clean_deletes _ _) ?_
    intro c hmem h hh
    exact absurd (hh.symm.trans (hdrops c hmem)) (Option.some_ne_none h)
  · rw [opsOf_of_stores hstores, clean_creates_iff hnodup]
    have hempty : ∀ h, s.refs.holds h = none ↔ occupied w h = false := by
      intro h
      rw [← hag.held, Option.isSome_eq_false_iff, Option.isNone_iff_eq_none]
    constructor
    · intro hall c hmem h hh
      exact (hempty h).mp (hall h (List.mem_filterMap.mpr ⟨c, hmem, hh⟩))
    · intro hall h hmem
      obtain ⟨c, hc, hh⟩ := List.mem_filterMap.mp hmem
      exact (hempty h).mpr (hall c hc h hh)

/-- On a sound ledger, what is accounted for is what the ledger accounts for. -/
theorem accountedFor_iff {s : NapiState} (hsound : Sound s.refs) (hready : Ready s) :
    AccountedFor s ↔ s.refs.Accounted := by
  refine ⟨AccountedFor.accounted, fun hacc => ⟨hacc, hsound.once, ?_⟩⟩
  intro hrun h hmem
  obtain ⟨n, hn⟩ := Option.isSome_iff_exists.mp (hready hrun h hmem)
  exact ⟨n, hn, hsound.live n ⟨h, hn⟩⟩

/-- What holds of the watcher and its native side in every run. -/
structure Joined (w : World Dir) (s : NapiState) : Prop where
  agrees : Agrees w s
  sound : Sound s.refs
  ready : Ready s

/-- The two start together. -/
theorem joined_init (load : DumpFile.DumpState Dir) :
    Joined ({ dump := load } : World Dir) (after []) where
  agrees := by
    refine ⟨rfl, fun h => ?_, fun _ _ hheld => absurd hheld Bool.false_ne_true⟩
    cases h <;> rfl
  sound := sound_empty
  ready := fun hrun => absurd hrun Bool.false_ne_true

/-- **The step lemma**: at each call of a step the references are accounted for, exactly
    when every call stores into a null variable. -/
theorem accountedFor_step_iff {w : World Dir} {s : NapiState} (hj : Joined w s)
    (hacc : s.refs.Accounted) (a : Input Dir) :
    (∀ cs, cs <+: callsOf plat w a → AccountedFor (s.calls cs)) ↔ StoresInEmpty plat w a := by
  have henv := hj.agrees.env
  have hiff : ∀ cs, cs <+: callsOf plat w a →
      (AccountedFor (s.calls cs) ↔ Clean (opsOf cs) s.refs) := by
    intro cs hpre
    have hsound : Sound (s.calls cs).refs := by
      rw [calls_refs henv]
      exact sound_run hj.sound _
    rw [accountedFor_iff hsound (ready_callsOf plat henv hj.ready hpre), calls_refs henv,
      accounted_run_iff hj.sound, and_iff_right hacc]
  rw [← clean_callsOf_iff plat hj.agrees]
  constructor
  · intro hall
    exact (hiff _ (List.prefix_refl _)).mp (hall _ (List.prefix_refl _))
  · rintro hclean cs ⟨rest, hrest⟩
    refine (hiff cs ⟨rest, hrest⟩).mpr ?_
    rw [← hrest, opsOf, List.flatMap_append] at hclean
    exact ((clean_append _ _ _).mp hclean).1

section Runs

variable [DecidableEq Dir]

/-- A step of the watcher is its native calls. -/
theorem joined_step {w w' : World Dir} {a : Input Dir} {es : List Event} {s : NapiState}
    (hj : Joined w s) (hs : step plat w a = some (w', es)) :
    Joined w' (s.calls (callsOf plat w a)) where
  agrees := agrees_step plat hj.agrees hs
  sound := by
    rw [calls_refs hj.agrees.env]
    exact sound_run hj.sound _
  ready := ready_callsOf plat hj.agrees.env hj.ready (List.prefix_refl _)

variable {plat}

/-- **The model of the native side refines the watcher's**: in every run, the variables and
    `isRunning_` are what the state of the watcher says. -/
theorem run_agrees {load : DumpFile.DumpState Dir} {G : World Dir → Input Dir → Prop}
    {w : World Dir} {tr : List Call} (hr : Run (nativeHistory plat load) G w tr) :
    Joined w (after tr) := by
  refine Run.invariant (I := fun w tr => Joined w (after tr)) (joined_init load) ?_ hr
  intro w tr a w' cs hj _ hs
  obtain ⟨⟨es, hstep⟩, rfl⟩ := Machine.observing_step hs
  rw [after, calls_append]
  exact joined_step plat hj hstep

/-- **The references are accounted for** at each native call of a run whose calls store into
    null variables; and the next step keeps them so exactly when its calls do. -/
theorem references_accounted {load : DumpFile.DumpState Dir} {w : World Dir} {tr : List Call}
    (hr : Run (nativeHistory plat load) (StoresInEmpty plat) w tr) :
    (∀ cs, cs <+: tr → AccountedFor (after cs)) ∧
    ∀ (a : Input Dir) (w' : World Dir) (next : List Call),
      (nativeHistory plat load).step w a = some (w', next) →
        ((∀ cs, cs <+: next → AccountedFor (after (tr ++ cs))) ↔ StoresInEmpty plat w a) := by
  have hall : ∀ cs, cs <+: tr → AccountedFor (after cs) := by
    induction hr with
    | start =>
        intro cs hpre
        rw [List.prefix_nil.mp hpre]
        have hj : Joined ({ dump := load } : World Dir) (after []) := joined_init load
        exact (accountedFor_iff hj.sound hj.ready).mpr accounted_empty
    | @next w w' tr next a hr hG hs ih =>
        obtain ⟨-, rfl⟩ := Machine.observing_step hs
        intro cs hpre
        rcases List.prefix_or_prefix_of_prefix hpre (List.prefix_append tr _) with hold | hnew
        · exact ih cs hold
        · obtain ⟨cs', rfl⟩ := hnew
          rw [after, calls_append]
          have hacc := (ih tr (List.prefix_refl _)).accounted
          exact (accountedFor_step_iff plat (run_agrees hr) hacc a).mpr hG cs'
            ((List.prefix_append_right_inj tr).mp hpre)
  refine ⟨hall, ?_⟩
  intro a w' next hs
  obtain ⟨-, rfl⟩ := Machine.observing_step hs
  have hacc := (hall tr (List.prefix_refl _)).accounted
  simp only [after, calls_append]
  exact accountedFor_step_iff plat (run_agrees hr) hacc a

end Runs

/-- A start of all types. -/
theorem references_accounted_allTypes :
    AccountedFor (after [.handleGCTask, .handleDumpTask, .handleShutdownTask, .registerWindow,
      .registerArkUI (some 1)]) := by
  obtain ⟨p, hp, hcalls⟩ : ∃ p, (nativeHistory plainPlatform DumpIdentity.noFiles).step
      (nativeHistory plainPlatform DumpIdentity.noFiles).init
        (.enableLeakWatcher plainSurroundings (.bool true) (.array []) (.obj 1)) = some p
      ∧ p.2 = [.handleGCTask, .handleDumpTask, .handleShutdownTask, .registerWindow,
          .registerArkUI (some 1)] := ⟨_, rfl, rfl⟩
  have hempty : StoresInEmpty plainPlatform
      (nativeHistory plainPlatform DumpIdentity.noFiles).init
        (.enableLeakWatcher plainSurroundings (.bool true) (.array []) (.obj 1)) := by
    intro c _ h _
    cases h <;> rfl
  have hrun := Run.next Run.start hempty hp
  have haccounted := (references_accounted hrun).1 p.2 (List.prefix_refl _)
  rw [hcalls] at haccounted
  exact haccounted

/-- `Kit::UIContext::Current()` is null. -/
def noContext : Surroundings := { plainSurroundings with uiContext := none }

/-- A start without a UI context stores the ArkUI callback, and so does the retry in the
    first GC tick: the first reference is lost. -/
theorem reference_lost_by_retry :
    ¬ ∀ (load : DumpFile.DumpState String) (w : World String) (tr : List Call),
        Run (nativeHistory plainPlatform load) anyStep w tr → AccountedFor (after tr) := by
  intro h
  obtain ⟨p, hp⟩ : ∃ p, exec (nativeHistory plainPlatform DumpIdentity.noFiles) anyStep
      [.enableLeakWatcher noContext (.bool true) (.array []) (.obj 1),
        .advance 90000, .deliver noContext 0] = some p := ⟨_, rfl⟩
  have hcalls : p.2 = [.handleGCTask, .handleDumpTask, .handleShutdownTask, .registerWindow,
      .registerArkUI none, .registerArkUI none] := by
    obtain rfl := Option.some.inj hp
    rfl
  have haccounted := (h DumpIdentity.noFiles p.1 p.2 (run_of_exec hp)).accounted 4
  rw [hcalls] at haccounted
  obtain ⟨holder, hheld⟩ := haccounted.mp ⟨by decide, by decide⟩
  cases holder <;> exact absurd hheld (by decide)

end CallbackRef
