import HiChecker.DumpIdentityProofs
import HiChecker.TimerQueueProofs

/-!
# The leak watcher

The module `js_leak_watcher.ts` with the native handler under it: the two switches
`enable` and `enableLeakWatcher`, the four kinds of lifecycle callbacks, the GC and dump
events that the handler sends to itself, and what the rounds and the dumps of the other
modules do inside them.

* **`World`** — the module variables, the handler, what is registered with the
  framework, and the event queue.
* **`Surroundings`** — what one call finds outside.
* **`watcher`** — calls, notifications, deliveries, promise settlements, dump callbacks
  and finalizations, in any order.
* **`enableLeakWatcher_outcome`** — the five ways through `enableLeakWatcher`.
* **`executeRegister_spec`** — what a start or a retry registers.
* **`step_effect`** — all that a step can do.
-/

namespace Watcher

open Transition JsValue OrderedMapLib WatcherConfig LeakRound FileStore DumpFile TimerQueue

-- ── Errors ────────────────────────────────────────────────────────────────────────

/-- `ERROR_CODE_INVALID_PARAM`, and the other codes and messages of the module. -/
def errorCodeInvalidParam : Nat := 401
def errorMsgInvalidParam : String := "Parameter error. Please check!"
def errorCodeEnableInvalid : Nat := 10801001
def errorMsgEnableInvalid : String := "The parameter isEnabled invalid. Please check!"
def errorCodeConfigInvalid : Nat := 10801002
def errorMsgConfigInvalid : String := "The parameter config invalid. Please check!"
def errorCodeCallbackInvalid : Nat := 10801003
def errorMsgCallbackInvalid : String := "The parameter callback invalid. Please check!"

/-- `errMap`: the message of each code. -/
def errMap : List (Nat × String) :=
  [(errorCodeInvalidParam, errorMsgInvalidParam),
    (errorCodeEnableInvalid, errorMsgEnableInvalid),
    (errorCodeConfigInvalid, errorMsgConfigInvalid),
    (errorCodeCallbackInvalid, errorMsgCallbackInvalid)]

/-- What a call throws: an error of the module, or one that comes from outside it. -/
inductive Thrown where
  | businessError (code : Nat) (message : String)
  | external
deriving DecidableEq

/-- `new BusinessError(code)`. -/
def businessError (code : Nat) : Thrown :=
  .businessError code ((errMap.lookup code).getD errorMsgInvalidParam)

-- ── The native handler ────────────────────────────────────────────────────────────

/-- `DUMP_EVENT_ID` and `GC_EVENT_ID`. -/
inductive EventId where
  | dumpEvent
  | gcEvent
deriving DecidableEq

/-- The closure given to `handleGCTask`: whether its `context` is defined. -/
structure GcTask where
  context : Bool
deriving DecidableEq

/-- The closure given to `handleDumpTask`. -/
structure DumpTask where
  filePath : String
  callback : JsVal
deriving DecidableEq

/-- The fields of `LeakWatcherEventHandler` but the delays, and `g_callbackRef`. -/
structure Native where
  isRunning : Bool := false
  gcFuncRef : Option GcTask := none
  dumpFuncRef : Option DumpTask := none
  /-- set and reset like the others, and never called -/
  shutdownFuncRef : Bool := false
  callbackRef : Bool := false
deriving DecidableEq

/-- What the framework holds of the module's lifecycle callbacks. -/
structure Registrations where
  /-- the global `registerArkUIObjectLifeCycleCallback` -/
  component : Bool := false
  /-- the UI contexts that hold the native ArkUI callback -/
  native : List Nat := []
  window : Bool := false
  /-- the ids of the ability callbacks -/
  abilities : List Nat := []
deriving DecidableEq

-- ── The state ─────────────────────────────────────────────────────────────────────

/-- The module variables of the script, the handler under it, what is registered with the
    framework, and what is on its way to them. -/
structure World (Dir : Type) where
  enabled : JsVal := .bool false
  settings : Settings := {}
  appState : AppState := {}
  watchObjMap : WatchMap := OrderedMap.empty
  /-- the objects the `FinalizationRegistry` still waits for -/
  registry : List Hash := []
  retryMonitorObjectTypes : Option (BitVec 32) := none
  currentAttempt : Nat := 1
  lifecycleId : Option Nat := none
  /-- the GC ticks whose process information has not arrived -/
  promises : List Tick := []
  dump : DumpState Dir
  /-- the dumps whose callback has not run -/
  outstanding : List DumpTask := []
  handler : Native := {}
  registrations : Registrations := {}
  /-- the id of the next ability callback -/
  nextAbilityId : Nat := 0
  queue : List (Timer EventId) := []
  now : Nat := 0

/-- What one call finds outside the module. -/
structure Surroundings where
  /-- the name in `getBundleInfoForSelfSync`, unless it throws -/
  bundleInfo : Option String := none
  /-- `filesDir` of `getContext(this)`, unless that is undefined -/
  filesDir : Option String := none
  /-- `filesDir` of the application context -/
  appFilesDir : String := ""
  /-- `fs.accessSync(filePath)` -/
  dirExists : Bool := true
  /-- `fs.mkdirSync(filePath)` returns -/
  mkdir : Bool := true
  /-- `Kit::UIContext::Current()` -/
  uiContext : Option Nat := none
  /-- unregistering a component callback that is not registered throws -/
  deadComponentThrows : Bool := false
  /-- unregistering an ability callback that is not registered throws -/
  deadAbilityThrows : Bool := false
  /-- `getRunningProcessInformation` returns a promise -/
  promised : Bool := true
  dump : Outside

/-- The device and the application. -/
structure Platform (Dir : Type) where
  host : Host Dir
  toLowerCase : String → String
  /-- `getApplicationContext` gave one when the module was loaded -/
  hasContext : Bool

/-- What a step shows to a specification. -/
inductive Event where
  | thrown (t : Thrown)
  /-- a round of the GC tick, or of the dump tick for `none` -/
  | round (tick : Option Tick) (event : LeakRound.Event)
  | dump (event : DumpEvent)
deriving DecidableEq

-- ── Watched objects ───────────────────────────────────────────────────────────────

/-- An object, as far as the module looks at it. -/
structure Obj where
  /-- `util.getHash(obj)` -/
  hash : Hash
  /-- `obj.constructor.name` -/
  constructorName : String
  /-- `obj.__nativeId__Internal` -/
  nativeId : Option JsNum := none

variable {Dir : Type}

/-- `watchObjMap.set` and `registry.register`. -/
def record (obj : Obj) (msg : String) (w : World Dir) : World Dir :=
  let objMsg : ObjMsg := { hash := obj.hash, name := obj.constructorName, msg := msg }
  { w with watchObjMap := w.watchObjMap.set objMsg.hash objMsg
           registry := w.registry ++ [objMsg.hash] }

/-- `registerObject`: nothing is recorded without an object. -/
def registerObject (obj : Option Obj) (msg : String) (w : World Dir) : World Dir :=
  match obj with
  | none => w
  | some obj => record obj msg w

/-- `objectUniqueIDs.includes(id)`. -/
def includesId (config : LeakWatcherConfig) (id : Option JsNum) : Bool :=
  match id with
  | none => false
  | some id => decide (id ∈ config.objectUniqueIDs)

/-- `exclusionList.some(item => item.toLowerCase() === name.toLowerCase())`. -/
def excludes (toLowerCase : String → String) (config : LeakWatcherConfig) (name : String) :
    Bool :=
  config.exclusionList.any (fun item => toLowerCase item = toLowerCase name)

/-- `monitorLeakIDandWhitelist`: whether the component callback leaves the object out. -/
def monitorLeakIDandWhitelist (toLowerCase : String → String) (config : LeakWatcherConfig)
    (obj : Obj) : Bool :=
  if 0 < config.objectUniqueIDs.length && !includesId config obj.nativeId then true
  else
    excludes toLowerCase config obj.constructorName && !includesId config obj.nativeId

variable (plat : Platform Dir)

-- ── Lifecycle callbacks ───────────────────────────────────────────────────────────

/-- The component callback. An object that is gone is not recorded: the tests on it throw,
    or `registerObject` returns. -/
def onComponent (weakRef : Option (Option Obj)) (msg : String) (w : World Dir) : World Dir :=
  match weakRef with
  | none => w
  | some none => w
  | some (some obj) =>
      if w.settings.isConfigObj
          && monitorLeakIDandWhitelist plat.toLowerCase w.settings.leakWatcherConfig obj then w
      else registerObject (some obj) msg w

/-- The native ArkUI callback, called through `g_callbackRef`. -/
def onNativeObject (weakRef : Option (Option Obj)) (w : World Dir) : World Dir :=
  if !w.handler.callbackRef then w
  else
    match weakRef with
    | none => w
    | some obj => registerObject obj "" w

/-- The window callback. -/
def onWindow (obj : Option Obj) (windowName : String) (w : World Dir) : World Dir :=
  if w.settings.isConfigObj && obj.isSome
      && excludes plat.toLowerCase w.settings.leakWatcherConfig windowName then w
  else registerObject obj "" w

/-- `onAbilityDestroy`. -/
def onAbilityDestroy (ability : Obj) (name : String) (w : World Dir) : World Dir :=
  if w.settings.isConfigObj
      && excludes plat.toLowerCase w.settings.leakWatcherConfig name then w
  else registerObject (some ability) "" w

/-- The global `registerArkUIObjectLifeCycleCallback`; it always succeeds. -/
def registerComponent (w : World Dir) : World Dir :=
  { w with registrations := { w.registrations with component := true } }

/-- `registerWindowLifeCycleCallback`, called with one argument. -/
def registerWindow (w : World Dir) : World Dir × Bool :=
  ({ w with registrations := { w.registrations with window := true } }, true)

/-- The native `registerArkUIObjectLifeCycleCallback`: the callback is stored before the UI
    context is looked for. -/
def registerNative (out : Surroundings) (w : World Dir) : World Dir × Bool :=
  let w := { w with handler := { w.handler with callbackRef := true } }
  match out.uiContext with
  | none => (w, false)
  | some uiContext =>
      ({ w with registrations :=
        { w.registrations with
          native := uiContext :: w.registrations.native.filter (· ≠ uiContext) } }, true)

/-- `registerAbilityLifecycleCallback`: without an application context there is nothing to register
    with. -/
def registerAbilityLifecycleCallback (w : World Dir) : World Dir × Bool :=
  if !plat.hasContext then (w, false)
  else
    ({ w with
        lifecycleId := some w.nextAbilityId
        nextAbilityId := w.nextAbilityId + 1
        registrations :=
          { w.registrations with abilities := w.nextAbilityId :: w.registrations.abilities } },
      true)

/-- Remember a type whose registration failed. -/
def addRetry (first type : BitVec 32) (w : World Dir) : World Dir :=
  { w with retryMonitorObjectTypes := some (match w.retryMonitorObjectTypes with
      | none => first
      | some types => types ||| type) }

/-- The first test of `executeRegister`. -/
def executeComponent (config : BitVec 32) (w : World Dir) : World Dir :=
  if monitors config customComponent then registerComponent w else w

/-- The second test of `executeRegister`: a registration that fails is tried again. -/
def executeWindow (config : BitVec 32) (w : World Dir) : World Dir :=
  if monitors config window then
    let registered := registerWindow w
    if !registered.2 then addRetry window window registered.1 else registered.1
  else w

/-- The third test of `executeRegister`: one registration serves both native types. -/
def executeNative (out : Surroundings) (config : BitVec 32) (w : World Dir) : World Dir :=
  if monitors config nodeContainer || monitors config xComponent then
    let registered := registerNative out w
    if !registered.2 then
      -- the second test names `WINDOW`, but after the first one it never takes that branch
      addRetry window xComponent (addRetry nodeContainer nodeContainer registered.1)
    else registered.1
  else w

/-- The last test of `executeRegister`. -/
def executeAbility (config : BitVec 32) (w : World Dir) : World Dir :=
  if monitors config ability then
    let registered := registerAbilityLifecycleCallback plat w
    if !registered.2 then addRetry ability ability registered.1 else registered.1
  else w

/-- `executeRegister`, one definition for each of its four tests. -/
def executeRegister (out : Surroundings) (config : BitVec 32) (w : World Dir) : World Dir :=
  let w := { w with retryMonitorObjectTypes := none }
  executeAbility plat config
    (executeNative out config (executeWindow config (executeComponent config w)))

-- ── Shutdown ──────────────────────────────────────────────────────────────────────

/-- `RemoveTask`: `isRunning_` is cleared and the references are dropped. What is in the
    queue stays there. -/
def removeTask (w : World Dir) : World Dir :=
  { w with handler :=
    { w.handler with
      isRunning := false
      gcFuncRef := none
      dumpFuncRef := none
      shutdownFuncRef := false } }

/-- The native `unregisterArkUIObjectLifeCycleCallback`: it asks the current UI context. -/
def unregisterNative (out : Surroundings) (w : World Dir) : World Dir :=
  match out.uiContext with
  | none => w
  | some uiContext =>
      { w with
        registrations :=
          { w.registrations with native := w.registrations.native.filter (· ≠ uiContext) }
        handler := { w.handler with callbackRef := false } }

/-- `unregisterWindowLifeCycleCallback`. -/
def unregisterWindow (w : World Dir) : World Dir :=
  { w with registrations := { w.registrations with window := false } }

/-- The component callback is gone. -/
def dropComponent (w : World Dir) : World Dir :=
  { w with registrations := { w.registrations with component := false } }

/-- The global `unregisterArkUIObjectLifeCycleCallback`. -/
def unregisterComponent (out : Surroundings) (w : World Dir) : World Dir × Option Thrown :=
  if !w.registrations.component && out.deadComponentThrows then (w, some .external)
  else (dropComponent w, none)

/-- `lifecycleId` names a callback that is registered. -/
def lifecycleLive (w : World Dir) : Bool :=
  w.lifecycleId.any (fun id => decide (id ∈ w.registrations.abilities))

/-- The ability callback that `lifecycleId` names is gone. -/
def dropAbility (w : World Dir) : World Dir :=
  { w with registrations :=
    { w.registrations with
      abilities := w.registrations.abilities.filter (fun id => w.lifecycleId ≠ some id) } }

/-- `unregisterAbilityLifecycleCallback`: a callback that is not registered makes the framework
    throw. -/
def unregisterAbilityLifecycleCallback (out : Surroundings) (w : World Dir) :
    World Dir × Option Thrown :=
  if !plat.hasContext then (w, none)
  else if !lifecycleLive w && out.deadAbilityThrows then (w, some .external)
  else (dropAbility w, none)

/-- `watchObjMap.clear()`. -/
def clearMap (w : World Dir) : World Dir := { w with watchObjMap := OrderedMap.empty }

/-- The end of `shutdownJsLeakWatcher`, after the component callback. -/
def shutdownEnd (out : Surroundings) (w : World Dir) : World Dir × Option Thrown :=
  let ability := unregisterAbilityLifecycleCallback plat out w
  if ability.2.isSome then ability else (clearMap ability.1, none)

/-- `shutdownJsLeakWatcher`: each call of it is made only where the one before returned. -/
def shutdownJsLeakWatcher (out : Surroundings) (w : World Dir) : World Dir × Option Thrown :=
  let w := unregisterWindow (unregisterNative out (removeTask w))
  let component := unregisterComponent out w
  if component.2.isSome then component else shutdownEnd plat out component.1

-- ── The tasks of the handler ──────────────────────────────────────────────────────

/-- `SendEvent`: the event is due after the delay. -/
def sendEvent (event : EventId) (delay : BitVec 32) (w : World Dir) : World Dir :=
  { w with queue := send w.now delay.toNat event w.queue }

/-- `handleGCTask`: the reference is stored and the first GC event is sent. -/
def handleGCTask (task : GcTask) (w : World Dir) : World Dir :=
  sendEvent .gcEvent w.settings.gcDelayTime
    { w with handler := { w.handler with gcFuncRef := some task } }

/-- `handleDumpTask`: the handler runs from here on. -/
def handleDumpTask (task : DumpTask) (w : World Dir) : World Dir :=
  { w with handler := { w.handler with dumpFuncRef := some task, isRunning := true } }

/-- `handleShutdownTask`: the reference is stored, and no event reads it. -/
def handleShutdownTask (w : World Dir) : World Dir :=
  { w with handler := { w.handler with shutdownFuncRef := true } }

/-- `ATTEMPT_COUNT`. -/
def attemptCount : Nat := 2

/-- The retry at the head of the GC closure. -/
def retryRegister (out : Surroundings) (w : World Dir) : World Dir :=
  match w.retryMonitorObjectTypes with
  | none => w
  | some types =>
      if w.currentAttempt ≤ attemptCount then
        let registered := executeRegister plat out types w
        { registered with currentAttempt := registered.currentAttempt + 1 }
      else w

/-- The closure given to `handleGCTask`. -/
def gcTask (out : Surroundings) (tick : Tick) (task : GcTask) (w : World Dir) :
    World Dir × List Event :=
  let w := retryRegister plat out w
  if w.settings.isConfigObj then
    let started := startGCtask w.watchObjMap w.appState
    ({ w with appState := started.1
              promises := if task.context && out.promised then w.promises ++ [tick]
                else w.promises },
      started.2.map (Event.round (some tick)))
  else (w, [.round (some tick) .forceFullGC])

/-- What a dump reads of the other module variables. -/
def World.session (w : World Dir) : Session :=
  { enabled := w.enabled.truthy
    settings := w.settings
    intersection := w.appState.intersection
    watchObjMap := w.watchObjMap }

section Dumps

variable [DecidableEq Dir]

/-- `dumpInner(filePath, true, true, callback)`. -/
def callDumpInner (out : Surroundings) (task : DumpTask) (w : World Dir) :
    World Dir × List Event :=
  let call := dumpInner plat.host out.dump w.session task.filePath true true
    task.callback.truthy w.dump
  ({ w with dump := call.1
            outstanding := if DumpIdentity.starts call.2 then w.outstanding ++ [task]
              else w.outstanding },
    call.2.map Event.dump)

/-- The closure given to `handleDumpTask`. -/
def dumpTask (out : Surroundings) (task : DumpTask) (w : World Dir) :
    World Dir × List Event :=
  if w.settings.isConfigObj then
    let round := startDumptask w.settings w.watchObjMap w.appState
    let w := { w with appState := round.1 }
    let events := round.2.2.map (Event.round none)
    if round.2.1 then
      let call := callDumpInner plat out task w
      (call.1, events ++ call.2)
    else (w, events)
  else if w.watchObjMap.size = 0 then (w, [])
  else callDumpInner plat out task w

/-- `ExecuteJsFunc` on the reference for an event; nothing runs when there is none. -/
def executeJsFunc (out : Surroundings) (t : Timer EventId) (w : World Dir) :
    World Dir × List Event :=
  match t.event with
  | .dumpEvent =>
      match w.handler.dumpFuncRef with
      | none => (w, [])
      | some task => dumpTask plat out task w
  | .gcEvent =>
      match w.handler.gcFuncRef with
      | none => (w, [])
      | some task => gcTask plat out (t.tick w.now) task w

/-- `ProcessEvent`, for an event just taken from the queue. -/
def processEvent (out : Surroundings) (t : Timer EventId) (w : World Dir) :
    World Dir × List Event :=
  if !w.handler.isRunning then (w, [])
  else
    let ran := executeJsFunc plat out t w
    match t.event with
    | .dumpEvent => ran
    | .gcEvent =>
        let w := sendEvent .gcEvent ran.1.settings.gcDelayTime ran.1
        (sendEvent .dumpEvent w.settings.dumpDelayTime w, ran.2)

end Dumps

-- ── The exported calls ────────────────────────────────────────────────────────────

/-- `watch(obj, msg)`. -/
def watch (obj : Option Obj) (msg : Option String) (w : World Dir) :
    World Dir × Option Thrown :=
  match obj, msg with
  | some obj, some msg => if !w.enabled.truthy then (w, none) else (record obj msg w, none)
  | _, _ => (w, some (businessError errorCodeInvalidParam))

/-- `enable(isEnable)`: switching off clears the map. -/
def enable (isEnable : JsVal) (w : World Dir) : World Dir × Option Thrown :=
  if isEnable.isNullish then (w, some (businessError errorCodeInvalidParam))
  else
    let w := { w with enabled := isEnable }
    if !isEnable.truthy then (clearMap w, none) else (w, none)

/-- `Array.isArray(configs)` once `configs` was replaced when its length is zero. -/
def arrayAtLast (configs : Configs) : Bool :=
  configs.isArray || configs.length.any (fun n => n.strictEq (.ofNat 0))

/-- The types in `leakWatcherConfig` once the configuration has been applied. -/
def withMonitorObjectTypes (configs : Configs) (st : Settings) : Settings :=
  if arrayAtLast configs then
    let configArray := if configs.isArray then configs.items else []
    { st with leakWatcherConfig :=
      { st.leakWatcherConfig with monitorObjectTypes := some (convertToMask configArray) } }
  else st

/-- The three tasks are handed to the handler, and the types to monitor are written. -/
def arm (out : Surroundings) (configs : Configs) (callback : JsVal) (w : World Dir) :
    World Dir :=
  let context := !arrayAtLast configs || out.filesDir.isSome
  let filePath :=
    if arrayAtLast configs then out.filesDir.getD sandboxPath
    else out.appFilesDir ++ "/" ++ "jsleak"
  let w := handleGCTask { context := context } w
  let w := handleDumpTask { filePath := filePath, callback := callback } w
  let w := handleShutdownTask w
  { w with settings := withMonitorObjectTypes configs w.settings }

/-- The types that a start registers. -/
def startTypes (out : Surroundings) (configs : Configs) (w : World Dir) : BitVec 32 :=
  typeMask (withMonitorObjectTypes configs
    (getCustomAttribute configs out.bundleInfo w.settings)).leakWatcherConfig.monitorObjectTypes

/-- The end of `enableLeakWatcher`, from `handleGCTask` on. -/
def launch (out : Surroundings) (configs : Configs) (callback : JsVal) (w : World Dir) :
    World Dir :=
  let w := arm out configs callback w
  executeRegister plat out (typeMask w.settings.leakWatcherConfig.monitorObjectTypes) w

/-- The part of `enableLeakWatcher` after the validation loop. -/
def start (out : Surroundings) (configs : Configs) (callback : JsVal) (w : World Dir) :
    World Dir × Option Thrown :=
  if !plat.hasContext then (w, none)
  else if !out.dirExists && !out.mkdir then (w, some .external)
  else (launch plat out configs callback w, none)

/-- `enableLeakWatcher(isEnabled, configs, callback)`: the checks in the order of the source, then
    the start or the shutdown. -/
def enableLeakWatcher (out : Surroundings) (isEnabled : JsVal) (configs : Configs)
    (callback : JsVal) (w : World Dir) : World Dir × Option Thrown :=
  if isEnabled.isNullish then (w, some (businessError errorCodeEnableInvalid))
  else if configs.isNullish then (w, some (businessError errorCodeConfigInvalid))
  else if callback.isNullish then (w, some (businessError errorCodeCallbackInvalid))
  else if isEnabled.strictEq w.enabled then (w, none)
  else
    let w := { w with enabled := isEnabled }
    if !isEnabled.truthy then shutdownJsLeakWatcher plat out w
    else
      let w := { w with settings := getCustomAttribute configs out.bundleInfo w.settings }
      if rejects configs then (w, some (businessError errorCodeConfigInvalid))
      else start plat out configs callback w

-- ── The ways through `enableLeakWatcher` ──────────────────────────────────────────

/-- The call gets past the tests on its arguments and on `enabled`. -/
def accepts (isEnabled : JsVal) (configs : Configs) (callback : JsVal) (w : World Dir) :
    Bool :=
  !isEnabled.isNullish && !configs.isNullish && !callback.isNullish
    && !isEnabled.strictEq w.enabled

/-- The call shuts the watcher down. -/
def stops (isEnabled : JsVal) (configs : Configs) (callback : JsVal) (w : World Dir) : Bool :=
  accepts isEnabled configs callback w && !isEnabled.truthy

/-- There is an application context and a directory to dump to. -/
def launches (out : Surroundings) : Bool :=
  plat.hasContext && (out.dirExists || out.mkdir)

/-- The call arms the handler and registers the callbacks. -/
def starts (out : Surroundings) (isEnabled : JsVal) (configs : Configs) (callback : JsVal)
    (w : World Dir) : Bool :=
  accepts isEnabled configs callback w && isEnabled.truthy && !rejects configs
    && launches plat out

/-- The world after the flag and the configuration are written. -/
def configured (out : Surroundings) (isEnabled : JsVal) (configs : Configs) (w : World Dir) :
    World Dir :=
  { w with enabled := isEnabled
           settings := getCustomAttribute configs out.bundleInfo w.settings }

/-- A call that is refused changes nothing. -/
theorem enableLeakWatcher_of_refused (out : Surroundings) {isEnabled : JsVal}
    {configs : Configs} {callback : JsVal} {w : World Dir}
    (h : accepts isEnabled configs callback w = false) :
    ∃ t, enableLeakWatcher plat out isEnabled configs callback w = (w, t) := by
  show ∃ t, (if isEnabled.isNullish = true then
      (w, some (businessError errorCodeEnableInvalid))
    else if configs.isNullish = true then (w, some (businessError errorCodeConfigInvalid))
    else if callback.isNullish = true then (w, some (businessError errorCodeCallbackInvalid))
    else if isEnabled.strictEq w.enabled = true then (w, none)
    else _) = (w, t)
  cases h1 : isEnabled.isNullish with
  | true => exact ⟨_, rfl⟩
  | false =>
      cases h2 : configs.isNullish with
      | true => exact ⟨_, rfl⟩
      | false =>
          cases h3 : callback.isNullish with
          | true => exact ⟨_, rfl⟩
          | false =>
              cases h4 : isEnabled.strictEq w.enabled with
              | true => exact ⟨_, rfl⟩
              | false =>
                  have htrue : accepts isEnabled configs callback w = true := by
                    show (!isEnabled.isNullish && !configs.isNullish && !callback.isNullish
                      && !isEnabled.strictEq w.enabled) = true
                    rw [h1, h2, h3, h4]
                    rfl
                  exact nomatch h.symm.trans htrue

/-- A call that is accepted writes the flag first. -/
theorem enableLeakWatcher_of_accepts {out : Surroundings} {isEnabled : JsVal}
    {configs : Configs} {callback : JsVal} {w : World Dir}
    (h : accepts isEnabled configs callback w = true) :
    enableLeakWatcher plat out isEnabled configs callback w
      = if !isEnabled.truthy then shutdownJsLeakWatcher plat out { w with enabled := isEnabled }
        else if rejects configs then
          (configured out isEnabled configs w, some (businessError errorCodeConfigInvalid))
        else start plat out configs callback (configured out isEnabled configs w) := by
  obtain ⟨h, h4⟩ := Bool.and_eq_true_iff.mp h
  obtain ⟨h, h3⟩ := Bool.and_eq_true_iff.mp h
  obtain ⟨h1, h2⟩ := Bool.and_eq_true_iff.mp h
  have hne : ∀ {b : Bool}, (!b) = true → ¬ b = true := by
    intro b hb hb'
    rw [hb'] at hb
    exact nomatch hb
  exact (if_neg (hne h1)).trans ((if_neg (hne h2)).trans
    ((if_neg (hne h3)).trans (if_neg (hne h4))))

/-- A call that is accepted and fails the validation has written by then. -/
theorem enableLeakWatcher_of_rejects (out : Surroundings) {isEnabled : JsVal}
    {configs : Configs} {callback : JsVal} {w : World Dir}
    (h : accepts isEnabled configs callback w = true) (ht : isEnabled.truthy = true)
    (hr : rejects configs = true) :
    enableLeakWatcher plat out isEnabled configs callback w
      = (configured out isEnabled configs w, some (businessError errorCodeConfigInvalid)) := by
  rw [enableLeakWatcher_of_accepts plat h, ht, hr]
  rfl

/-- A call that starts the watcher passed every test. -/
theorem accepts_of_starts {out : Surroundings} {isEnabled : JsVal} {configs : Configs}
    {callback : JsVal} {w : World Dir}
    (h : starts plat out isEnabled configs callback w = true) :
    accepts isEnabled configs callback w = true ∧ isEnabled.truthy = true
      ∧ rejects configs = false ∧ launches plat out = true := by
  obtain ⟨h, hlaunch⟩ := Bool.and_eq_true_iff.mp h
  obtain ⟨h, hrej⟩ := Bool.and_eq_true_iff.mp h
  obtain ⟨hacc, htruthy⟩ := Bool.and_eq_true_iff.mp h
  rw [Bool.not_eq_true'] at hrej
  exact ⟨hacc, htruthy, hrej, hlaunch⟩

/-- With a context and a directory, what is left is to launch. -/
theorem start_of_launches {out : Surroundings} (h : launches plat out = true)
    (configs : Configs) (callback : JsVal) (w : World Dir) :
    start plat out configs callback w = (launch plat out configs callback w, none) := by
  obtain ⟨hctx, hdir⟩ := Bool.and_eq_true_iff.mp h
  have hfound : ¬ (!out.dirExists && !out.mkdir) = true := by
    rw [← Bool.not_or, hdir]
    exact Bool.false_ne_true
  show (if (!plat.hasContext) = true then _ else if _ then _ else _) = _
  rw [hctx]
  exact (if_neg Bool.false_ne_true).trans (if_neg hfound)

/-- Without one of the two, nothing more happens. -/
theorem start_of_not_launches {out : Surroundings} (h : launches plat out = false)
    (configs : Configs) (callback : JsVal) (w : World Dir) :
    start plat out configs callback w = (w, none)
      ∨ start plat out configs callback w = (w, some .external) := by
  cases hctx : plat.hasContext with
  | false =>
      refine Or.inl (if_pos ?_)
      rw [hctx]
      rfl
  | true =>
      have hdir : out.dirExists = false ∧ out.mkdir = false := by
        refine Bool.or_eq_false_iff.mp ?_
        have hboth : (plat.hasContext && (out.dirExists || out.mkdir)) = false := h
        rw [hctx] at hboth
        exact hboth
      refine Or.inr ((if_neg ?_).trans (if_pos ?_))
      · rw [hctx]
        exact Bool.false_ne_true
      · rw [hdir.1, hdir.2]
        rfl

/-- A call that starts the watcher is its `launch`, and throws nothing. -/
theorem enableLeakWatcher_of_starts {out : Surroundings} {isEnabled : JsVal}
    {configs : Configs} {callback : JsVal} {w : World Dir}
    (h : starts plat out isEnabled configs callback w = true) :
    enableLeakWatcher plat out isEnabled configs callback w
      = (launch plat out configs callback (configured out isEnabled configs w), none) := by
  obtain ⟨hacc, htruthy, hrej, hlaunch⟩ := accepts_of_starts plat h
  rw [enableLeakWatcher_of_accepts plat hacc, htruthy, hrej]
  exact start_of_launches plat hlaunch configs callback (configured out isEnabled configs w)

/-- The five ways through `enableLeakWatcher`, with what it returns. -/
inductive SwitchOutcome (out : Surroundings) (isEnabled : JsVal) (configs : Configs)
    (callback : JsVal) (w : World Dir) : World Dir × Option Thrown → Prop where
  | refused (h : accepts isEnabled configs callback w = false) (t : Option Thrown) :
      SwitchOutcome out isEnabled configs callback w (w, t)
  | stopped (h : stops isEnabled configs callback w = true) :
      SwitchOutcome out isEnabled configs callback w
        (shutdownJsLeakWatcher plat out { w with enabled := isEnabled })
  | rejected (h : accepts isEnabled configs callback w = true)
      (ht : isEnabled.truthy = true) (hr : rejects configs = true) :
      SwitchOutcome out isEnabled configs callback w
        (configured out isEnabled configs w, some (businessError errorCodeConfigInvalid))
  /-- no application context, or no directory to dump to -/
  | idle (h : accepts isEnabled configs callback w = true)
      (ht : isEnabled.truthy = true) (t : Option Thrown)
      (hthrown : ∀ code message, t ≠ some (.businessError code message)) :
      SwitchOutcome out isEnabled configs callback w (configured out isEnabled configs w, t)
  | started (h : starts plat out isEnabled configs callback w = true) :
      SwitchOutcome out isEnabled configs callback w
        (launch plat out configs callback (configured out isEnabled configs w), none)

/-- **Every call** takes one of the five ways. -/
theorem enableLeakWatcher_outcome (out : Surroundings) (isEnabled : JsVal)
    (configs : Configs) (callback : JsVal) (w : World Dir) :
    SwitchOutcome plat out isEnabled configs callback w
      (enableLeakWatcher plat out isEnabled configs callback w) := by
  cases hacc : accepts isEnabled configs callback w with
  | false =>
      obtain ⟨t, ht⟩ := enableLeakWatcher_of_refused plat out hacc
      rw [ht]
      exact SwitchOutcome.refused hacc t
  | true =>
      cases htruthy : isEnabled.truthy with
      | false =>
          rw [enableLeakWatcher_of_accepts plat hacc, htruthy]
          refine SwitchOutcome.stopped ?_
          show (accepts isEnabled configs callback w && !isEnabled.truthy) = true
          rw [hacc, htruthy]
          rfl
      | true =>
          cases hrej : rejects configs with
          | true =>
              rw [enableLeakWatcher_of_rejects plat out hacc htruthy hrej]
              exact SwitchOutcome.rejected hacc htruthy hrej
          | false =>
              cases hlaunch : launches plat out with
              | true =>
                  have hstarts : starts plat out isEnabled configs callback w = true := by
                    show (accepts isEnabled configs callback w && isEnabled.truthy
                      && !rejects configs && launches plat out) = true
                    rw [hacc, htruthy, hrej, hlaunch]
                    rfl
                  rw [enableLeakWatcher_of_starts plat hstarts]
                  exact SwitchOutcome.started hstarts
              | false =>
                  rw [enableLeakWatcher_of_accepts plat hacc, htruthy, hrej]
                  show SwitchOutcome plat out isEnabled configs callback w
                    (start plat out configs callback (configured out isEnabled configs w))
                  rcases start_of_not_launches plat hlaunch configs callback
                    (configured out isEnabled configs w) with heq | heq
                  · rw [heq]
                    exact SwitchOutcome.idle hacc htruthy none (fun _ _ => nofun)
                  · rw [heq]
                    exact SwitchOutcome.idle hacc htruthy (some .external) (fun _ _ => nofun)

-- ── What registering and shutting down write ──────────────────────────────────────

/-- Only what belongs to the registration of callbacks differs. -/
def Reregistered (w w' : World Dir) : Prop :=
  ∃ registrations handler lifecycleId nextAbilityId retryMonitorObjectTypes,
    w' = { w with registrations := registrations
                  handler := handler
                  lifecycleId := lifecycleId
                  nextAbilityId := nextAbilityId
                  retryMonitorObjectTypes := retryMonitorObjectTypes }

theorem Reregistered.refl (w : World Dir) : Reregistered w w := ⟨_, _, _, _, _, rfl⟩

/-- Registering twice is registering. -/
theorem Reregistered.trans {w w' w'' : World Dir} (h : Reregistered w w')
    (h' : Reregistered w' w'') : Reregistered w w'' := by
  obtain ⟨_, _, _, _, _, rfl⟩ := h
  obtain ⟨_, _, _, _, _, rfl⟩ := h'
  exact ⟨_, _, _, _, _, rfl⟩

/-- The component callback is a registration. -/
theorem executeComponent_frame (config : BitVec 32) (w : World Dir) :
    Reregistered w (executeComponent config w) := by
  show Reregistered w (if monitors config customComponent = true then _ else w)
  split
  · exact ⟨_, _, _, _, _, rfl⟩
  · exact Reregistered.refl w

/-- So is the window callback. -/
theorem executeWindow_frame (config : BitVec 32) (w : World Dir) :
    Reregistered w (executeWindow config w) := by
  show Reregistered w (if monitors config window = true then (registerWindow w).1 else w)
  split
  · exact ⟨_, _, _, _, _, rfl⟩
  · exact Reregistered.refl w

/-- So is the native callback, with or without a UI context. -/
theorem executeNative_frame (out : Surroundings) (config : BitVec 32) (w : World Dir) :
    Reregistered w (executeNative out config w) := by
  show Reregistered w (if _ then _ else w)
  split
  · cases hctx : out.uiContext with
    | none =>
        simp only [registerNative, hctx]
        exact ⟨_, _, _, _, _, rfl⟩
    | some uiContext =>
        simp only [registerNative, hctx]
        exact ⟨_, _, _, _, _, rfl⟩
  · exact Reregistered.refl w

/-- So is the ability callback, with or without an application context. -/
theorem executeAbility_frame (config : BitVec 32) (w : World Dir) :
    Reregistered w (executeAbility plat config w) := by
  show Reregistered w (if monitors config ability = true then _ else w)
  split
  · cases hctx : plat.hasContext with
    | false =>
        simp only [registerAbilityLifecycleCallback, hctx]
        exact ⟨_, _, _, _, _, rfl⟩
    | true =>
        simp only [registerAbilityLifecycleCallback, hctx]
        exact ⟨_, _, _, _, _, rfl⟩
  · exact Reregistered.refl w

/-- **`executeRegister` writes registrations only.** -/
theorem executeRegister_frame (out : Surroundings) (config : BitVec 32) (w : World Dir) :
    Reregistered w (executeRegister plat out config w) := by
  have hclear : Reregistered w { w with retryMonitorObjectTypes := none } :=
    ⟨_, _, _, _, _, rfl⟩
  have hcomponent := hclear.trans (executeComponent_frame config _)
  have hwindow := hcomponent.trans (executeWindow_frame config _)
  have hnative := hwindow.trans (executeNative_frame out config _)
  exact hnative.trans (executeAbility_frame plat config _)

/-- The retry writes registrations and counts the attempt. -/
theorem retryRegister_frame (out : Surroundings) (w : World Dir) :
    ∃ currentAttempt, Reregistered { w with currentAttempt := currentAttempt }
      (retryRegister plat out w) := by
  cases hretry : w.retryMonitorObjectTypes with
  | none =>
      simp only [retryRegister, hretry]
      exact ⟨w.currentAttempt, Reregistered.refl w⟩
  | some types =>
      simp only [retryRegister, hretry]
      split
      · obtain ⟨_, _, _, _, _, heq⟩ := executeRegister_frame plat out types w
        rw [heq]
        exact ⟨w.currentAttempt + 1, _, _, _, _, _, rfl⟩
      · exact ⟨w.currentAttempt, Reregistered.refl w⟩

/-- **A shutdown writes the registrations, the handler and the map.** -/
theorem shutdown_frame (out : Surroundings) (w : World Dir) :
    ∃ registrations handler watchObjMap, (shutdownJsLeakWatcher plat out w).1
      = { w with registrations := registrations
                 handler := handler
                 watchObjMap := watchObjMap } := by
  have hnative : ∀ v : World Dir, ∃ registrations handler, unregisterNative out v
      = { v with registrations := registrations, handler := handler } := by
    intro v
    cases hctx : out.uiContext with
    | none =>
        simp only [unregisterNative, hctx]
        exact ⟨_, _, rfl⟩
    | some uiContext =>
        simp only [unregisterNative, hctx]
        exact ⟨_, _, rfl⟩
  have hcomponent : ∀ v : World Dir, ∃ registrations,
      (unregisterComponent out v).1 = { v with registrations := registrations } := by
    intro v
    simp only [unregisterComponent]
    split
    · exact ⟨_, rfl⟩
    · exact ⟨_, rfl⟩
  have hability : ∀ v : World Dir, ∃ registrations,
      (unregisterAbilityLifecycleCallback plat out v).1
        = { v with registrations := registrations } := by
    intro v
    simp only [unregisterAbilityLifecycleCallback]
    split
    · exact ⟨_, rfl⟩
    · split
      · exact ⟨_, rfl⟩
      · exact ⟨_, rfl⟩
  obtain ⟨_, _, hn⟩ := hnative (removeTask w)
  simp only [shutdownJsLeakWatcher, shutdownEnd, hn]
  obtain ⟨_, hc⟩ := hcomponent (unregisterWindow (unregisterNative out (removeTask w)))
  rw [hn] at hc
  split
  · rw [hc]
    exact ⟨_, _, _, rfl⟩
  · obtain ⟨_, ha⟩ := hability
      (unregisterComponent out (unregisterWindow (unregisterNative out (removeTask w)))).1
    rw [hn, hc] at ha
    rw [hc]
    split
    · rw [ha]
      exact ⟨_, _, _, rfl⟩
    · rw [ha]
      exact ⟨_, _, _, rfl⟩

-- ── What `executeRegister` registers ──────────────────────────────────────────────

/-- The types that share the native ArkUI callback. -/
def monitorsNative (config : BitVec 32) : Bool :=
  monitors config nodeContainer || monitors config xComponent

/-- The UI contexts that hold the native callback after a registration. -/
def nativeAfter (uiContext : Option Nat) (contexts : List Nat) : List Nat :=
  match uiContext with
  | none => contexts
  | some uiContext => uiContext :: contexts.filter (· ≠ uiContext)

/-- What `executeRegister` does, where there is an application context. -/
structure RegisterEffect (out : Surroundings) (config : BitVec 32) (w w' : World Dir) :
    Prop where
  component : w'.registrations.component
    = (w.registrations.component || monitors config customComponent)
  window : w'.registrations.window = (w.registrations.window || monitors config window)
  native : w'.registrations.native
    = if monitorsNative config then nativeAfter out.uiContext w.registrations.native
      else w.registrations.native
  abilities : w'.registrations.abilities
    = if monitors config ability then w.nextAbilityId :: w.registrations.abilities
      else w.registrations.abilities
  lifecycle : w'.lifecycleId
    = if monitors config ability then some w.nextAbilityId else w.lifecycleId
  handler : w'.handler
    = if monitorsNative config then { w.handler with callbackRef := true } else w.handler
  /-- only the native registration can fail -/
  retry : w'.retryMonitorObjectTypes
    = if monitorsNative config && out.uiContext.isNone then some (nodeContainer ||| xComponent)
      else none

/-- The component callback is registered where the types name it, and stays registered. -/
theorem executeComponent_eq (config : BitVec 32) (w : World Dir) :
    executeComponent config w
      = { w with registrations :=
          { w.registrations with
            component := w.registrations.component || monitors config customComponent } } := by
  simp only [executeComponent]
  cases monitors config customComponent with
  | true =>
      rw [Bool.or_true]
      rfl
  | false =>
      rw [Bool.or_false]
      rfl

/-- The window callback is registered where the types name it, and stays registered. -/
theorem executeWindow_eq (config : BitVec 32) (w : World Dir) :
    executeWindow config w
      = { w with registrations :=
          { w.registrations with
            window := w.registrations.window || monitors config window } } := by
  simp only [executeWindow]
  cases monitors config window with
  | true =>
      rw [Bool.or_true]
      rfl
  | false =>
      rw [Bool.or_false]
      rfl

/-- The native callback is stored where one of its types is named; without a UI context both types
    are tried again. -/
theorem executeNative_eq (out : Surroundings) (config : BitVec 32) {w : World Dir}
    (h : w.retryMonitorObjectTypes = none) :
    executeNative out config w
      = if monitorsNative config then
          { w with
            registrations :=
              { w.registrations with
                native := nativeAfter out.uiContext w.registrations.native }
            handler := { w.handler with callbackRef := true }
            retryMonitorObjectTypes :=
              if out.uiContext.isNone then some (nodeContainer ||| xComponent) else none }
        else w := by
  simp only [executeNative]
  show (if monitorsNative config = true then _ else w) = _
  cases monitorsNative config with
  | false => rfl
  | true =>
      rw [if_pos rfl, if_pos rfl]
      cases hctx : out.uiContext with
      | none =>
          simp only [registerNative, hctx, addRetry, nativeAfter, h]
          rfl
      | some uiContext =>
          simp only [registerNative, hctx, nativeAfter]
          rw [h]
          rfl

/-- A new ability callback is registered where the types name it. -/
theorem executeAbility_eq (hctx : plat.hasContext = true) (config : BitVec 32)
    (w : World Dir) :
    executeAbility plat config w
      = if monitors config ability then
          { w with
            lifecycleId := some w.nextAbilityId
            nextAbilityId := w.nextAbilityId + 1
            registrations :=
              { w.registrations with
                abilities := w.nextAbilityId :: w.registrations.abilities } }
        else w := by
  have hreg : registerAbilityLifecycleCallback plat w
      = ({ w with
            lifecycleId := some w.nextAbilityId
            nextAbilityId := w.nextAbilityId + 1
            registrations :=
              { w.registrations with
                abilities := w.nextAbilityId :: w.registrations.abilities } }, true) := by
    simp only [registerAbilityLifecycleCallback, hctx]
    rfl
  simp only [executeAbility, hreg]
  rfl

/-- **What `executeRegister` registers**: what the types select, and nothing else. -/
theorem executeRegister_spec (hctx : plat.hasContext = true) (out : Surroundings)
    (config : BitVec 32) (w : World Dir) :
    RegisterEffect out config w (executeRegister plat out config w) := by
  simp only [executeRegister, executeComponent_eq, executeWindow_eq]
  rw [executeNative_eq out config rfl, executeAbility_eq plat hctx]
  constructor
  all_goals
    cases monitorsNative config with
    | true =>
        cases monitors config ability with
        | true => rfl
        | false => rfl
    | false =>
        cases monitors config ability with
        | true => rfl
        | false => rfl

-- ── What leaves the schedule alone ────────────────────────────────────────────────

/-- The flag, the queue, the clock and the promises are the same. -/
structure KeepsSchedule (w w' : World Dir) : Prop where
  enabled : w'.enabled = w.enabled
  promises : w'.promises = w.promises
  queue : w'.queue = w.queue
  now : w'.now = w.now

theorem KeepsSchedule.refl (w : World Dir) : KeepsSchedule w w := ⟨rfl, rfl, rfl, rfl⟩

/-- Whatever registers callbacks alone. -/
theorem Reregistered.schedule {w w' : World Dir} (h : Reregistered w w') :
    KeepsSchedule w w' := by
  obtain ⟨_, _, _, _, _, rfl⟩ := h
  exact ⟨rfl, rfl, rfl, rfl⟩

/-- A start that has armed the timers registers, and nothing more. -/
theorem launch_schedule (out : Surroundings) (configs : Configs) (callback : JsVal)
    (w : World Dir) :
    KeepsSchedule (arm out configs callback w) (launch plat out configs callback w) :=
  (executeRegister_frame plat out _ _).schedule

/-- A retry touches neither the flag nor the queue. -/
theorem retryRegister_schedule (out : Surroundings) (w : World Dir) :
    KeepsSchedule w (retryRegister plat out w) := by
  obtain ⟨_, hframe⟩ := retryRegister_frame plat out w
  have hkeeps := hframe.schedule
  exact ⟨hkeeps.enabled, hkeeps.promises, hkeeps.queue, hkeeps.now⟩

/-- A shutdown stops the handler and leaves its queue. -/
theorem shutdown_schedule (out : Surroundings) (w : World Dir) :
    KeepsSchedule w (shutdownJsLeakWatcher plat out w).1 := by
  obtain ⟨_, _, _, hframe⟩ := shutdown_frame plat out w
  rw [hframe]
  exact ⟨rfl, rfl, rfl, rfl⟩

-- ── What the callbacks and the tasks leave alone ──────────────────────────────────

/-- At most one object was recorded. -/
def Recorded (w w' : World Dir) : Prop := w' = w ∨ ∃ obj msg, w' = record obj msg w

/-- Recording an object touches neither the flag nor the queue. -/
theorem Recorded.schedule {w w' : World Dir} (h : Recorded w w') : KeepsSchedule w w' := by
  rcases h with rfl | ⟨obj, msg, rfl⟩
  · exact KeepsSchedule.refl _
  · exact ⟨rfl, rfl, rfl, rfl⟩

/-- `registerObject` records its object, when there is one. -/
theorem registerObject_recorded (obj : Option Obj) (msg : String) (w : World Dir) :
    Recorded w (registerObject obj msg w) := by
  cases obj with
  | none => exact Or.inl rfl
  | some obj => exact Or.inr ⟨obj, msg, rfl⟩

/-- The component callback records at most its object. -/
theorem onComponent_recorded (weakRef : Option (Option Obj)) (msg : String)
    (w : World Dir) : Recorded w (onComponent plat weakRef msg w) := by
  cases weakRef with
  | none => exact Or.inl rfl
  | some obj =>
      cases obj with
      | none => exact Or.inl rfl
      | some obj =>
          show Recorded w (if _ then w else registerObject (some obj) msg w)
          split
          · exact Or.inl rfl
          · exact registerObject_recorded (some obj) msg w

/-- The native callback records at most its object. -/
theorem onNativeObject_recorded (weakRef : Option (Option Obj)) (w : World Dir) :
    Recorded w (onNativeObject weakRef w) := by
  show Recorded w (if _ then w else match weakRef with
    | none => w
    | some obj => registerObject obj "" w)
  split
  · exact Or.inl rfl
  · cases weakRef with
    | none => exact Or.inl rfl
    | some obj => exact registerObject_recorded obj "" w

/-- The window callback records at most its window. -/
theorem onWindow_recorded (obj : Option Obj) (windowName : String) (w : World Dir) :
    Recorded w (onWindow plat obj windowName w) := by
  show Recorded w (if _ then w else registerObject obj "" w)
  split
  · exact Or.inl rfl
  · exact registerObject_recorded obj "" w

/-- The ability callback records at most its ability. -/
theorem onAbilityDestroy_recorded (ability : Obj) (name : String) (w : World Dir) :
    Recorded w (onAbilityDestroy plat ability name w) := by
  show Recorded w (if _ then w else registerObject (some ability) "" w)
  split
  · exact Or.inl rfl
  · exact registerObject_recorded (some ability) "" w

/-- `watch` records nothing while the watcher is disabled. -/
theorem watch_recorded (obj : Option Obj) (msg : Option String) (w : World Dir) :
    (watch obj msg w).1 = w
      ∨ (w.enabled.truthy = true ∧ ∃ o m, (watch obj msg w).1 = record o m w) := by
  cases obj with
  | none => exact Or.inl rfl
  | some obj =>
      cases msg with
      | none => exact Or.inl rfl
      | some msg =>
          show (if (!w.enabled.truthy) = true then (w, none)
            else (record obj msg w, none) : World Dir × Option Thrown).1 = w ∨ _
          cases hen : w.enabled.truthy with
          | false => exact Or.inl rfl
          | true =>
              refine Or.inr ⟨rfl, obj, msg, ?_⟩
              show (if (!w.enabled.truthy) = true then (w, none)
                else (record obj msg w, none) : World Dir × Option Thrown).1 = _
              rw [hen]
              rfl

/-- The GC closure writes `currentLeakList` and the promises, after the retry. -/
theorem gcTask_frame (out : Surroundings) (tick : Tick) (task : GcTask) (w : World Dir) :
    ∃ appState promises, (gcTask plat out tick task w).1
      = { retryRegister plat out w with appState := appState, promises := promises } := by
  simp only [gcTask]
  split
  · exact ⟨_, _, rfl⟩
  · exact ⟨_, _, rfl⟩

section Dumps

variable [DecidableEq Dir]

/-- The dump closure writes what belongs to rounds and dumps. -/
theorem dumpTask_frame (out : Surroundings) (task : DumpTask) (w : World Dir) :
    ∃ appState dump outstanding, (dumpTask plat out task w).1
      = { w with appState := appState, dump := dump, outstanding := outstanding } := by
  simp only [dumpTask]
  split
  · split
    · exact ⟨_, _, _, rfl⟩
    · exact ⟨_, _, _, rfl⟩
  · split
    · exact ⟨_, _, _, rfl⟩
    · exact ⟨_, _, _, rfl⟩

/-- A handler that does not run drops what is delivered. -/
theorem processEvent_of_stopped {w : World Dir} (h : w.handler.isRunning = false)
    (out : Surroundings) (t : Timer EventId) : processEvent plat out t w = (w, []) := by
  refine if_pos ?_
  rw [h]
  rfl

/-- Both events of a tick are sent after the GC closure ran. -/
def rearm (w : World Dir) : World Dir :=
  sendEvent .dumpEvent w.settings.dumpDelayTime (sendEvent .gcEvent w.settings.gcDelayTime w)

/-- **A handler that runs** runs the closure, and sends both events again after a GC event. -/
theorem processEvent_of_running {w : World Dir} (h : w.handler.isRunning = true)
    (out : Surroundings) (t : Timer EventId) :
    processEvent plat out t w
      = (match t.event with
          | .dumpEvent => (executeJsFunc plat out t w).1
          | .gcEvent => rearm (executeJsFunc plat out t w).1,
        (executeJsFunc plat out t w).2) := by
  have hbody : processEvent plat out t w
      = match t.event with
        | .dumpEvent => executeJsFunc plat out t w
        | .gcEvent => (rearm (executeJsFunc plat out t w).1, (executeJsFunc plat out t w).2) := by
    refine if_neg ?_
    rw [h]
    exact Bool.false_ne_true
  rw [hbody]
  cases t.event with
  | dumpEvent => rfl
  | gcEvent => rfl

/-- All that the delivery of an event can do. -/
inductive EventEffect (out : Surroundings) (t : Timer EventId) (w : World Dir) :
    World Dir × List Event → Prop where
  | dropped (hrun : w.handler.isRunning = false) : EventEffect out t w (w, [])
  /-- a dump event without a task -/
  | noDump (hrun : w.handler.isRunning = true) (hevent : t.event = .dumpEvent)
      (htask : w.handler.dumpFuncRef = none) : EventEffect out t w (w, [])
  | dumped (task : DumpTask) (hrun : w.handler.isRunning = true)
      (hevent : t.event = .dumpEvent) (htask : w.handler.dumpFuncRef = some task) :
      EventEffect out t w (dumpTask plat out task w)
  /-- a GC event without a task -/
  | noGc (hrun : w.handler.isRunning = true) (hevent : t.event = .gcEvent)
      (htask : w.handler.gcFuncRef = none) : EventEffect out t w (rearm w, [])
  | collected (task : GcTask) (hrun : w.handler.isRunning = true)
      (hevent : t.event = .gcEvent) (htask : w.handler.gcFuncRef = some task) :
      EventEffect out t w (rearm (gcTask plat out (t.tick w.now) task w).1,
        (gcTask plat out (t.tick w.now) task w).2)

/-- **Every delivery** has one of the effects. -/
theorem processEvent_effect (out : Surroundings) (t : Timer EventId) (w : World Dir) :
    EventEffect plat out t w (processEvent plat out t w) := by
  cases hrun : w.handler.isRunning with
  | false =>
      rw [processEvent_of_stopped plat hrun]
      exact EventEffect.dropped hrun
  | true =>
      rw [processEvent_of_running plat hrun]
      cases hevent : t.event with
      | dumpEvent =>
          simp only [executeJsFunc, hevent]
          cases htask : w.handler.dumpFuncRef with
          | none => exact EventEffect.noDump hrun hevent htask
          | some task => exact EventEffect.dumped task hrun hevent htask
      | gcEvent =>
          simp only [executeJsFunc, hevent]
          cases htask : w.handler.gcFuncRef with
          | none => exact EventEffect.noGc hrun hevent htask
          | some task => exact EventEffect.collected task hrun hevent htask

end Dumps

-- ── The machine ───────────────────────────────────────────────────────────────────

/-- What can happen next: a call of an exported function, a notification of the framework, an event
    of the handler, a promise, a dump thread or the garbage collector. -/
inductive Input (Dir : Type) where
  | enable (isEnable : JsVal)
  | enableLeakWatcher (out : Surroundings) (isEnabled : JsVal) (configs : Configs)
      (callback : JsVal)
  | watch (obj : Option Obj) (msg : Option String)
  /-- the exported `dump` -/
  | dump (out : Surroundings) (filePath : Option String)
  | componentNotified (weakRef : Option (Option Obj)) (msg : String)
  | nativeNotified (uiContext : Nat) (weakRef : Option (Option Obj))
  | windowDestroyed (obj : Option Obj) (windowName : String)
  | abilityDestroyed (id : Nat) (ability : Obj) (name : String)
  /-- the event at a position of the queue is delivered -/
  | deliver (out : Surroundings) (i : Nat)
  /-- a promise of process information settles -/
  | settle (k : Nat) (settlement : Settlement)
  /-- the callback of an asynchronous dump runs -/
  | dumpDone (out : Surroundings) (k : Nat)
  /-- the `FinalizationRegistry` reports an object -/
  | finalize (k : Nat)
  /-- dump threads and others write to files -/
  | filesChange (files : Files Dir)
  | advance (milliseconds : Nat)

/-- The world once an event has been taken from the queue. -/
def World.withQueue (w : World Dir) (queue : List (Timer EventId)) : World Dir :=
  { w with queue := queue }

/-- A call and what it throws. -/
def report (call : World Dir × Option Thrown) : Option (World Dir × List Event) :=
  some (call.1, call.2.toList.map Event.thrown)

variable [DecidableEq Dir]

/-- One step of the watcher, where that input can happen. -/
def step (w : World Dir) : Input Dir → Option (World Dir × List Event)
  | .enable isEnable => report (enable isEnable w)
  | .enableLeakWatcher out isEnabled configs callback =>
      report (enableLeakWatcher plat out isEnabled configs callback w)
  | .watch obj msg => report (watch obj msg w)
  | .dump _ none => report (w, some (businessError errorCodeInvalidParam))
  | .dump out (some filePath) =>
      let call := dumpInnerSync plat.host out.dump w.session filePath false false w.dump
      some ({ w with dump := call.1 }, call.2.map Event.dump)
  | .componentNotified weakRef msg =>
      if w.registrations.component then some (onComponent plat weakRef msg w, []) else none
  | .nativeNotified uiContext weakRef =>
      if uiContext ∈ w.registrations.native then some (onNativeObject weakRef w, []) else none
  | .windowDestroyed obj windowName =>
      if w.registrations.window then some (onWindow plat obj windowName w, []) else none
  | .abilityDestroyed id ability name =>
      if id ∈ w.registrations.abilities then some (onAbilityDestroy plat ability name w, [])
      else none
  | .deliver out i =>
      match deliver w.now w.queue i with
      | none => none
      | some (t, queue) => some (processEvent plat out t (w.withQueue queue))
  | .settle k settlement =>
      match w.promises[k]? with
      | none => none
      | some tick =>
          let task := onSettled w.settings settlement w.appState
          some ({ w with appState := task.1, promises := w.promises.eraseIdx k },
            task.2.map (Event.round (some tick)))
  | .dumpDone out k =>
      match w.outstanding[k]? with
      | none => none
      | some task =>
          let call := getJsleaklistFile plat.host out.dump w.session task.filePath true true
            task.callback.truthy w.dump
          some ({ w with dump := call.1, outstanding := w.outstanding.eraseIdx k },
            call.2.map Event.dump)
  | .finalize k =>
      match w.registry[k]? with
      | none => none
      | some hash =>
          some ({ w with
            registry := w.registry.eraseIdx k
            watchObjMap := if w.watchObjMap.has hash then w.watchObjMap.delete hash
              else w.watchObjMap }, [])
  | .filesChange files => some ({ w with dump := { w.dump with files := files } }, [])
  | .advance milliseconds => some ({ w with now := w.now + milliseconds }, [])

/-- The watcher, from the state in which the module is loaded. -/
def watcher (load : DumpState Dir) : Machine (World Dir) (Input Dir) Event :=
  ⟨{ dump := load }, step plat⟩

-- ── What a step can do ────────────────────────────────────────────────────────────

/-- All that a step can do. -/
inductive StepEffect (w : World Dir) : Input Dir → World Dir → List Event → Prop where
  | enabled (isEnable : JsVal) :
      StepEffect w (.enable isEnable) (enable isEnable w).1
        ((enable isEnable w).2.toList.map Event.thrown)
  | switched (out : Surroundings) (isEnabled : JsVal) (configs : Configs) (callback : JsVal) :
      StepEffect w (.enableLeakWatcher out isEnabled configs callback)
        (enableLeakWatcher plat out isEnabled configs callback w).1
        ((enableLeakWatcher plat out isEnabled configs callback w).2.toList.map Event.thrown)
  /-- a call that records an object at most, and none while the watcher is disabled -/
  | called {a : Input Dir} {w' : World Dir} (t : Option Thrown)
      (h : w' = w ∨ (w.enabled.truthy = true ∧ ∃ obj msg, w' = record obj msg w)) :
      StepEffect w a w' (t.toList.map Event.thrown)
  /-- a notification, which comes from a callback that is registered -/
  | notified {a : Input Dir} {w' : World Dir} (hon : w.registrations ≠ {})
      (h : Recorded w w') : StepEffect w a w' []
  | dumped {a : Input Dir} (dump : DumpState Dir) (outstanding : List DumpTask)
      (events : List DumpEvent) :
      StepEffect w a { w with dump := dump, outstanding := outstanding }
        (events.map Event.dump)
  | delivered (out : Surroundings) (i : Nat) {t : Timer EventId}
      {queue : List (Timer EventId)} (h : deliver w.now w.queue i = some (t, queue)) :
      StepEffect w (.deliver out i) (processEvent plat out t (w.withQueue queue)).1
        (processEvent plat out t (w.withQueue queue)).2
  | settled (k : Nat) (settlement : Settlement) {tick : Tick}
      (h : w.promises[k]? = some tick) :
      StepEffect w (.settle k settlement)
        { w with appState := (onSettled w.settings settlement w.appState).1
                 promises := w.promises.eraseIdx k }
        ((onSettled w.settings settlement w.appState).2.map (Event.round (some tick)))
  | finalized {a : Input Dir} (registry : List Hash) (hash : Hash) :
      StepEffect w a { w with
        registry := registry
        watchObjMap := if w.watchObjMap.has hash then w.watchObjMap.delete hash
          else w.watchObjMap } []
  | advanced {a : Input Dir} (milliseconds : Nat) :
      StepEffect w a { w with now := w.now + milliseconds } []

variable {plat}

/-- What is delivered was in the queue. -/
theorem step_deliver {w w' : World Dir} {out : Surroundings} {i : Nat} {es : List Event}
    (h : step plat w (.deliver out i) = some (w', es)) :
    ∃ t queue, deliver w.now w.queue i = some (t, queue)
      ∧ w' = (processEvent plat out t (w.withQueue queue)).1
      ∧ es = (processEvent plat out t (w.withQueue queue)).2 := by
  cases hdeliver : deliver w.now w.queue i with
  | none =>
      simp only [step, hdeliver] at h
      exact absurd h.symm (Option.some_ne_none _)
  | some p =>
      simp only [step, hdeliver] at h
      obtain ⟨rfl, rfl⟩ := Prod.mk.inj (Option.some.inj h)
      exact ⟨p.1, p.2, rfl, rfl, rfl⟩

/-- What settles was pending. -/
theorem step_settle {w w' : World Dir} {k : Nat} {settlement : Settlement} {es : List Event}
    (h : step plat w (.settle k settlement) = some (w', es)) :
    ∃ tick, w.promises[k]? = some tick
      ∧ w' = { w with appState := (onSettled w.settings settlement w.appState).1
                      promises := w.promises.eraseIdx k }
      ∧ es = (onSettled w.settings settlement w.appState).2.map (Event.round (some tick)) := by
  cases hk : w.promises[k]? with
  | none =>
      simp only [step, hk] at h
      exact absurd h.symm (Option.some_ne_none _)
  | some tick =>
      simp only [step, hk] at h
      obtain ⟨rfl, rfl⟩ := Prod.mk.inj (Option.some.inj h)
      exact ⟨tick, rfl, rfl, rfl⟩

/-- A callback that runs is that of an outstanding dump. -/
theorem step_dumpDone {w w' : World Dir} {out : Surroundings} {k : Nat} {es : List Event}
    (h : step plat w (.dumpDone out k) = some (w', es)) :
    ∃ task, w.outstanding[k]? = some task
      ∧ w' = { w with
          dump := (getJsleaklistFile plat.host out.dump w.session task.filePath true true
            task.callback.truthy w.dump).1
          outstanding := w.outstanding.eraseIdx k }
      ∧ es = (getJsleaklistFile plat.host out.dump w.session task.filePath true true
          task.callback.truthy w.dump).2.map Event.dump := by
  cases hk : w.outstanding[k]? with
  | none =>
      simp only [step, hk] at h
      exact absurd h.symm (Option.some_ne_none _)
  | some task =>
      simp only [step, hk] at h
      obtain ⟨rfl, rfl⟩ := Prod.mk.inj (Option.some.inj h)
      exact ⟨task, rfl, rfl, rfl⟩

/-- An object that is reported was registered. -/
theorem step_finalize {w w' : World Dir} {k : Nat} {es : List Event}
    (h : step plat w (.finalize k) = some (w', es)) :
    ∃ hash, w.registry[k]? = some hash
      ∧ w' = { w with
          registry := w.registry.eraseIdx k
          watchObjMap := if w.watchObjMap.has hash then w.watchObjMap.delete hash
            else w.watchObjMap }
      ∧ es = [] := by
  cases hk : w.registry[k]? with
  | none =>
      simp only [step, hk] at h
      exact absurd h.symm (Option.some_ne_none _)
  | some hash =>
      simp only [step, hk] at h
      obtain ⟨rfl, rfl⟩ := Prod.mk.inj (Option.some.inj h)
      exact ⟨hash, rfl, rfl, rfl⟩

/-- **Every step** has one of the effects. -/
theorem step_effect {w w' : World Dir} {a : Input Dir} {es : List Event}
    (h : step plat w a = some (w', es)) : StepEffect plat w a w' es := by
  cases a with
  | enable isEnable =>
      obtain ⟨rfl, rfl⟩ := Prod.mk.inj (Option.some.inj h)
      exact StepEffect.enabled isEnable
  | enableLeakWatcher out isEnabled configs callback =>
      obtain ⟨rfl, rfl⟩ := Prod.mk.inj (Option.some.inj h)
      exact StepEffect.switched out isEnabled configs callback
  | watch obj msg =>
      obtain ⟨rfl, rfl⟩ := Prod.mk.inj (Option.some.inj h)
      exact StepEffect.called (watch obj msg w).2 (watch_recorded obj msg w)
  | dump out filePath =>
      cases filePath with
      | none =>
          obtain ⟨rfl, rfl⟩ := Prod.mk.inj (Option.some.inj h)
          exact StepEffect.called (some (businessError errorCodeInvalidParam)) (Or.inl rfl)
      | some filePath =>
          obtain ⟨rfl, rfl⟩ := Prod.mk.inj (Option.some.inj h)
          exact StepEffect.dumped _ w.outstanding _
  | componentNotified weakRef msg =>
      obtain ⟨hon, heq⟩ := Option.ite_none_right_eq_some.mp h
      obtain ⟨rfl, rfl⟩ := Prod.mk.inj (Option.some.inj heq)
      refine StepEffect.notified (fun hoff => ?_) (onComponent_recorded plat weakRef msg w)
      rw [hoff] at hon
      exact absurd hon Bool.false_ne_true
  | nativeNotified uiContext weakRef =>
      obtain ⟨hon, heq⟩ := Option.ite_none_right_eq_some.mp h
      obtain ⟨rfl, rfl⟩ := Prod.mk.inj (Option.some.inj heq)
      refine StepEffect.notified (fun hoff => ?_) (onNativeObject_recorded weakRef w)
      rw [hoff] at hon
      exact absurd hon List.not_mem_nil
  | windowDestroyed obj windowName =>
      obtain ⟨hon, heq⟩ := Option.ite_none_right_eq_some.mp h
      obtain ⟨rfl, rfl⟩ := Prod.mk.inj (Option.some.inj heq)
      refine StepEffect.notified (fun hoff => ?_) (onWindow_recorded plat obj windowName w)
      rw [hoff] at hon
      exact absurd hon Bool.false_ne_true
  | abilityDestroyed id ability name =>
      obtain ⟨hon, heq⟩ := Option.ite_none_right_eq_some.mp h
      obtain ⟨rfl, rfl⟩ := Prod.mk.inj (Option.some.inj heq)
      refine StepEffect.notified (fun hoff => ?_) (onAbilityDestroy_recorded plat ability name w)
      rw [hoff] at hon
      exact absurd hon List.not_mem_nil
  | deliver out i =>
      obtain ⟨t, queue, hdeliver, rfl, rfl⟩ := step_deliver h
      exact StepEffect.delivered out i hdeliver
  | settle k settlement =>
      obtain ⟨tick, hk, rfl, rfl⟩ := step_settle h
      exact StepEffect.settled k settlement hk
  | dumpDone out k =>
      obtain ⟨task, -, rfl, rfl⟩ := step_dumpDone h
      exact StepEffect.dumped _ _ _
  | finalize k =>
      obtain ⟨hash, -, rfl, rfl⟩ := step_finalize h
      exact StepEffect.finalized _ hash
  | filesChange files =>
      obtain ⟨rfl, rfl⟩ := Prod.mk.inj (Option.some.inj h)
      exact StepEffect.dumped { w.dump with files := files } w.outstanding []
  | advance milliseconds =>
      obtain ⟨rfl, rfl⟩ := Prod.mk.inj (Option.some.inj h)
      exact StepEffect.advanced milliseconds

-- ── Quiet steps ───────────────────────────────────────────────────────────────────

/-- Any input but a switch or a delivery. -/
def Quiet : Input Dir → Prop
  | .enableLeakWatcher _ _ _ _ => False
  | .deliver _ _ => False
  | _ => True

/-- What a quiet step leaves alone: all that drives the ticks and all that is registered. The
    rounds change when a promise settles, and dumps show only in the two calls that make them. -/
structure QuietEffect (w : World Dir) (a : Input Dir) (w' : World Dir) (es : List Event) :
    Prop where
  handler : w'.handler = w.handler
  registrations : w'.registrations = w.registrations
  retry : w'.retryMonitorObjectTypes = w.retryMonitorObjectTypes
  attempt : w'.currentAttempt = w.currentAttempt
  queue : w'.queue = w.queue
  clock : w.now ≤ w'.now
  rounds : (∀ k settlement, a ≠ .settle k settlement) → w'.appState = w.appState
  outstanding : (∀ out k, a ≠ .dumpDone out k) → w'.outstanding = w.outstanding
  events : (∀ out filePath, a ≠ .dump out filePath) → (∀ out k, a ≠ .dumpDone out k) →
    ∀ event, .dump event ∉ es

omit [DecidableEq Dir] in
/-- An object is recorded, or nothing happens. -/
theorem quietEffect_of_recorded {w w' : World Dir} (a : Input Dir) {es : List Event}
    (h : Recorded w w') (hes : ∀ event, .dump event ∉ es) : QuietEffect w a w' es := by
  rcases h with rfl | ⟨obj, msg, rfl⟩
  · exact ⟨rfl, rfl, rfl, rfl, rfl, Nat.le_refl _, fun _ => rfl, fun _ => rfl, fun _ _ => hes⟩
  · exact ⟨rfl, rfl, rfl, rfl, rfl, Nat.le_refl _, fun _ => rfl, fun _ => rfl, fun _ _ => hes⟩

/-- No event of this kind is one of a dump. -/
theorem not_dump_of_map {α : Type} {f : α → Event} (hf : ∀ x event, f x ≠ .dump event)
    (l : List α) (event : DumpEvent) : .dump event ∉ l.map f := by
  intro h
  obtain ⟨x, -, hx⟩ := List.mem_map.mp h
  exact hf x event hx

/-- **Every quiet step** leaves these alone. -/
theorem step_quiet {w w' : World Dir} {a : Input Dir} {es : List Event}
    (hs : step plat w a = some (w', es)) (ha : Quiet a) : QuietEffect w a w' es := by
  have hthrown : ∀ (t : Option Thrown) (event : DumpEvent),
      .dump event ∉ t.toList.map Event.thrown := fun t =>
    not_dump_of_map (fun _ _ => Event.noConfusion) t.toList
  have hnone : ∀ event : DumpEvent, Event.dump event ∉ ([] : List Event) :=
    fun _ => List.not_mem_nil
  cases a with
  | enableLeakWatcher out isEnabled configs callback => exact ha.elim
  | deliver out i => exact ha.elim
  | enable isEnable =>
      obtain ⟨rfl, rfl⟩ := Prod.mk.inj (Option.some.inj hs)
      have hsame : ∃ enabled watchObjMap, (enable isEnable w).1
          = { w with enabled := enabled, watchObjMap := watchObjMap } := by
        simp only [enable]
        split
        · exact ⟨_, _, rfl⟩
        · split
          · exact ⟨_, _, rfl⟩
          · exact ⟨_, _, rfl⟩
      obtain ⟨_, _, heq⟩ := hsame
      rw [heq]
      exact ⟨rfl, rfl, rfl, rfl, rfl, Nat.le_refl _, fun _ => rfl, fun _ => rfl,
        fun _ _ => hthrown _⟩
  | watch obj msg =>
      obtain ⟨rfl, rfl⟩ := Prod.mk.inj (Option.some.inj hs)
      exact quietEffect_of_recorded _ ((watch_recorded obj msg w).imp_right And.right) (hthrown _)
  | dump out filePath =>
      cases filePath with
      | none =>
          obtain ⟨rfl, rfl⟩ := Prod.mk.inj (Option.some.inj hs)
          exact quietEffect_of_recorded _ (Or.inl rfl) (hthrown (some _))
      | some filePath =>
          obtain ⟨rfl, rfl⟩ := Prod.mk.inj (Option.some.inj hs)
          exact ⟨rfl, rfl, rfl, rfl, rfl, Nat.le_refl _, fun _ => rfl, fun _ => rfl,
            fun hdump => absurd rfl (hdump out (some filePath))⟩
  | componentNotified weakRef msg =>
      obtain ⟨-, heq⟩ := Option.ite_none_right_eq_some.mp hs
      obtain ⟨rfl, rfl⟩ := Prod.mk.inj (Option.some.inj heq)
      exact quietEffect_of_recorded _ (onComponent_recorded plat weakRef msg w) hnone
  | nativeNotified uiContext weakRef =>
      obtain ⟨-, heq⟩ := Option.ite_none_right_eq_some.mp hs
      obtain ⟨rfl, rfl⟩ := Prod.mk.inj (Option.some.inj heq)
      exact quietEffect_of_recorded _ (onNativeObject_recorded weakRef w) hnone
  | windowDestroyed obj windowName =>
      obtain ⟨-, heq⟩ := Option.ite_none_right_eq_some.mp hs
      obtain ⟨rfl, rfl⟩ := Prod.mk.inj (Option.some.inj heq)
      exact quietEffect_of_recorded _ (onWindow_recorded plat obj windowName w) hnone
  | abilityDestroyed id ability name =>
      obtain ⟨-, heq⟩ := Option.ite_none_right_eq_some.mp hs
      obtain ⟨rfl, rfl⟩ := Prod.mk.inj (Option.some.inj heq)
      exact quietEffect_of_recorded _ (onAbilityDestroy_recorded plat ability name w) hnone
  | settle k settlement =>
      obtain ⟨tick, -, rfl, rfl⟩ := step_settle hs
      exact ⟨rfl, rfl, rfl, rfl, rfl, Nat.le_refl _,
        fun hsettle => absurd rfl (hsettle k settlement), fun _ => rfl,
        fun _ _ => not_dump_of_map (fun _ _ => Event.noConfusion) _⟩
  | dumpDone out k =>
      obtain ⟨task, -, rfl, rfl⟩ := step_dumpDone hs
      exact ⟨rfl, rfl, rfl, rfl, rfl, Nat.le_refl _, fun _ => rfl,
        fun hdone => absurd rfl (hdone out k), fun _ hdone => absurd rfl (hdone out k)⟩
  | finalize k =>
      obtain ⟨hash, -, rfl, rfl⟩ := step_finalize hs
      exact ⟨rfl, rfl, rfl, rfl, rfl, Nat.le_refl _, fun _ => rfl, fun _ => rfl, fun _ _ => hnone⟩
  | filesChange files =>
      obtain ⟨rfl, rfl⟩ := Prod.mk.inj (Option.some.inj hs)
      exact ⟨rfl, rfl, rfl, rfl, rfl, Nat.le_refl _, fun _ => rfl, fun _ => rfl, fun _ _ => hnone⟩
  | advance milliseconds =>
      obtain ⟨rfl, rfl⟩ := Prod.mk.inj (Option.some.inj hs)
      exact ⟨rfl, rfl, rfl, rfl, rfl, Nat.le_add_right _ _, fun _ => rfl, fun _ => rfl,
        fun _ _ => hnone⟩

/-- A device with an application context. -/
def plainPlatform : Platform String :=
  { host := DumpIdentity.plainHost, toLowerCase := String.toLower, hasContext := true }

/-- A call on the UI thread, with everything where it is looked for. -/
def plainSurroundings : Surroundings :=
  { bundleInfo := some "app", filesDir := some "/data/storage/el2/base/haps/entry/files",
    uiContext := some 1, dump := DumpIdentity.outsideAt 1 }

end Watcher
