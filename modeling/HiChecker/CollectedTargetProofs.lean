import HiChecker.ExclusionProofs

/-!
# Notifications about an object that is gone

The framework tells a callback of `executeRegister` about an object through a weak
reference, or passes the window itself. By then the object can be gone: the reference is
missing, `deref()` gives `undefined`, or the window is `undefined`. This file runs the
three callbacks once more with the property reads in them made explicit, since reading a
property of `undefined` throws.

* **`read`** — a property of an object that may be `undefined`.
* **`callback`** — the component, native ArkUI and window callbacks, up to what they throw.
* **`step_notified`** — the watcher's own step is this callback, with the world as it was
  where the callback throws.
* **`TestsMissing`** — the component callback tests an object that is gone: it looks at
  its ID or its class before `registerObject` has looked at the object.
* **`missing_tolerated_iff`** — that is the only notification about an object that is gone
  which is not simply dropped.
-/

namespace CollectedTarget

open Transition JsValue OrderedMapLib WatcherConfig DumpFile Watcher

variable {Dir : Type}

-- ── Reading from an object that may be gone ───────────────────────────────────────

/-- What the engine throws into a callback. -/
inductive JsError where
  | typeError
deriving DecidableEq

/-- A property of `obj`, where `none` is `undefined`. -/
def read {α : Type} (obj : Option Obj) (property : Obj → α) : Except JsError α :=
  match obj with
  | none => .error .typeError
  | some obj => .ok (property obj)

/-- `list.some(test)`, which ends at the first element that passes or throws. -/
def someItem (test : String → Except JsError Bool) (list : List String) :
    Except JsError Bool :=
  list.anyM test

/-- `objectUniqueIDs.length > 0 && !objectUniqueIDs.includes(obj.__nativeId__Internal)`. -/
def unmonitored (config : LeakWatcherConfig) (obj : Option Obj) : Except JsError Bool :=
  if 0 < config.objectUniqueIDs.length then do
    let id ← read obj Obj.nativeId
    return !includesId config id
  else return false

/-- `item.toLowerCase() === obj.constructor.name.toLowerCase()` of some `item`. -/
def whitelisted (toLowerCase : String → String) (config : LeakWatcherConfig)
    (obj : Option Obj) : Except JsError Bool :=
  someItem (fun item => do
    let name ← read obj Obj.constructorName
    return decide (toLowerCase item = toLowerCase name)) config.exclusionList

/-- `monitorLeakIDandWhitelist`, with the two tests in their order. -/
def monitorLeakIDandWhitelist (toLowerCase : String → String) (config : LeakWatcherConfig)
    (obj : Option Obj) : Except JsError Bool := do
  if ← unmonitored config obj then return true
  else if ← whitelisted toLowerCase config obj then
    let id ← read obj Obj.nativeId
    return !includesId config id
  else return false

-- ── The callbacks ─────────────────────────────────────────────────────────────────

variable (plat : Platform Dir)

/-- The component callback: the tests come before the object is recorded. -/
def componentCallback (weakRef : Option (Option Obj)) (msg : String) (w : World Dir) :
    Except JsError (World Dir) :=
  match weakRef with
  | none => .ok w
  | some obj => do
      let skipped ←
        if w.settings.isConfigObj then
          monitorLeakIDandWhitelist plat.toLowerCase w.settings.leakWatcherConfig obj
        else pure false
      if skipped then return w
      else return registerObject obj msg w

/-- Through `g_callbackRef`; without it nothing is called. -/
def nativeCallback (weakRef : Option (Option Obj)) (w : World Dir) :
    Except JsError (World Dir) :=
  if !w.handler.callbackRef then .ok w
  else
    match weakRef with
    | none => .ok w
    | some obj => .ok (registerObject obj "" w)

/-- The test looks at the window only where it is defined; its name is `windowName`. -/
def windowCallback (obj : Option Obj) (windowName : String) (w : World Dir) :
    Except JsError (World Dir) := do
  let excluded ←
    if w.settings.isConfigObj then
      someItem (fun item =>
        if obj.isSome then do
          let name ← read obj (fun _ => windowName)
          return decide (plat.toLowerCase item = plat.toLowerCase name)
        else return false) w.settings.leakWatcherConfig.exclusionList
    else pure false
  if excluded then return w
  else return registerObject obj "" w

/-- What the framework tells the callbacks of `executeRegister`, but `onAbilityDestroy`,
    which gets the ability itself. -/
inductive Notification where
  | component (weakRef : Option (Option Obj)) (msg : String)
  | native (uiContext : Nat) (weakRef : Option (Option Obj))
  | window (obj : Option Obj) (windowName : String)

namespace Notification

/-- The input of the watcher. -/
def input : Notification → Input Dir
  | .component weakRef msg => .componentNotified weakRef msg
  | .native uiContext weakRef => .nativeNotified uiContext weakRef
  | .window obj windowName => .windowDestroyed obj windowName

/-- The object that the callback gets hold of. -/
def target : Notification → Option Obj
  | .component weakRef _ => weakRef.join
  | .native _ weakRef => weakRef.join
  | .window obj _ => obj

/-- The weak reference is missing, or the object behind it, or the window. -/
def Missing (n : Notification) : Prop := n.target = none

/-- The framework holds the callback. -/
def registered (n : Notification) (w : World Dir) : Bool :=
  match n with
  | .component _ _ => w.registrations.component
  | .native uiContext _ => decide (uiContext ∈ w.registrations.native)
  | .window _ _ => w.registrations.window

end Notification

/-- The callback of each kind of notification. -/
def callback (n : Notification) (w : World Dir) : Except JsError (World Dir) :=
  match n with
  | .component weakRef msg => componentCallback plat weakRef msg w
  | .native _ weakRef => nativeCallback weakRef w
  | .window obj windowName => windowCallback plat obj windowName w

/-- The framework calls the callback, if it holds one. -/
def notify (n : Notification) (w : World Dir) : Except JsError (World Dir) :=
  if n.registered w then callback plat n w else .ok w

/-- The callback returns, and `watchObjMap` is what it was. -/
def Tolerates (n : Notification) (w : World Dir) : Prop :=
  ∃ w', notify plat n w = .ok w' ∧ w'.watchObjMap = w.watchObjMap

-- ── The tests on an object ────────────────────────────────────────────────────────

variable {plat}

/-- The first test on an object that is there. -/
theorem unmonitored_some (config : LeakWatcherConfig) (obj : Obj) :
    unmonitored config (some obj)
      = .ok (decide (0 < config.objectUniqueIDs.length) && !includesId config obj.nativeId) := by
  rw [unmonitored]
  by_cases hids : 0 < config.objectUniqueIDs.length
  · rw [if_pos hids, decide_eq_true hids, Bool.true_and]
    rfl
  · rw [if_neg hids, decide_eq_false hids, Bool.false_and]
    rfl

/-- The first test on one that is gone. -/
theorem unmonitored_none (config : LeakWatcherConfig) :
    unmonitored config none
      = if config.objectUniqueIDs = [] then .ok false else .error .typeError := by
  rw [unmonitored]
  cases config.objectUniqueIDs with
  | nil => rfl
  | cons id ids => rfl

/-- The second test on an object that is there. -/
theorem whitelisted_some (toLowerCase : String → String) (config : LeakWatcherConfig)
    (obj : Obj) :
    whitelisted toLowerCase config (some obj)
      = .ok (excludes toLowerCase config obj.constructorName) :=
  List.anyM_pure

/-- The second test on one that is gone. -/
theorem whitelisted_none (toLowerCase : String → String) (config : LeakWatcherConfig) :
    whitelisted toLowerCase config none
      = if config.exclusionList = [] then .ok false else .error .typeError := by
  rw [whitelisted, someItem]
  cases config.exclusionList with
  | nil => rfl
  | cons item items => rfl

/-- On an object that is there, the tests are those of the watcher. -/
theorem monitorLeakIDandWhitelist_some (toLowerCase : String → String)
    (config : LeakWatcherConfig) (obj : Obj) :
    monitorLeakIDandWhitelist toLowerCase config (some obj)
      = .ok (Watcher.monitorLeakIDandWhitelist toLowerCase config obj) := by
  rw [monitorLeakIDandWhitelist, unmonitored_some, whitelisted_some,
    Watcher.monitorLeakIDandWhitelist]
  cases decide (0 < config.objectUniqueIDs.length) && !includesId config obj.nativeId with
  | true => rfl
  | false =>
      cases excludes toLowerCase config obj.constructorName with
      | true => rfl
      | false => rfl

/-- On `undefined`, they return only where there is nothing to compare with. -/
theorem monitorLeakIDandWhitelist_none (toLowerCase : String → String)
    (config : LeakWatcherConfig) :
    monitorLeakIDandWhitelist toLowerCase config none
      = if config.objectUniqueIDs = [] ∧ config.exclusionList = [] then .ok false
        else .error .typeError := by
  rw [monitorLeakIDandWhitelist, unmonitored_none, whitelisted_none]
  by_cases hids : config.objectUniqueIDs = []
  · rw [if_pos hids]
    by_cases hlist : config.exclusionList = []
    · rw [if_pos hlist, if_pos ⟨hids, hlist⟩]
      rfl
    · rw [if_neg hlist, if_neg (fun h => hlist h.2)]
      rfl
  · have hsome : ¬ (config.objectUniqueIDs = [] ∧ config.exclusionList = []) :=
      fun h => hids h.1
    rw [if_neg hids, if_neg hsome]
    rfl

-- ── What a callback does ──────────────────────────────────────────────────────────

/-- The component callback tests an object that has been collected. -/
structure TestsMissing (n : Notification) (w : World Dir) : Prop where
  collected : ∃ msg, n = .component (some none) msg
  mode : w.settings.isConfigObj = true
  compares : w.settings.leakWatcherConfig.objectUniqueIDs ≠ []
    ∨ w.settings.leakWatcherConfig.exclusionList ≠ []

variable (plat)

/-- What the watcher's step makes of the world. -/
def next (n : Notification) (w : World Dir) : World Dir :=
  match n with
  | .component weakRef msg => onComponent plat weakRef msg w
  | .native _ weakRef => onNativeObject weakRef w
  | .window obj windowName => onWindow plat obj windowName w

variable {plat}

theorem componentCallback_some (obj : Obj) (msg : String) (w : World Dir) :
    componentCallback plat (some (some obj)) msg w
      = .ok (onComponent plat (some (some obj)) msg w) := by
  simp only [componentCallback, onComponent, monitorLeakIDandWhitelist_some]
  cases w.settings.isConfigObj with
  | false => rfl
  | true =>
      cases Watcher.monitorLeakIDandWhitelist plat.toLowerCase w.settings.leakWatcherConfig
        obj with
      | true => rfl
      | false => rfl

theorem componentCallback_none {msg : String} {w : World Dir}
    (h : ¬ TestsMissing (.component (some none) msg) w) :
    componentCallback plat (some none) msg w = .ok w := by
  simp only [componentCallback, monitorLeakIDandWhitelist_none]
  cases hmode : w.settings.isConfigObj with
  | false => rfl
  | true =>
      have hnone : w.settings.leakWatcherConfig.objectUniqueIDs = []
          ∧ w.settings.leakWatcherConfig.exclusionList = [] := by
        by_contra hsome
        exact h ⟨⟨msg, rfl⟩, hmode, not_and_or.mp hsome⟩
      rw [if_pos hnone]
      rfl

/-- The window callback never reads from `undefined`. -/
theorem windowCallback_eq (obj : Option Obj) (windowName : String) (w : World Dir) :
    windowCallback plat obj windowName w = .ok (onWindow plat obj windowName w) := by
  have hsome : someItem (fun item =>
      if obj.isSome then do
        let name ← read obj (fun _ => windowName)
        return decide (plat.toLowerCase item = plat.toLowerCase name)
      else return false) w.settings.leakWatcherConfig.exclusionList
        = .ok (obj.isSome
            && excludes plat.toLowerCase w.settings.leakWatcherConfig windowName) := by
    cases obj with
    | some obj => exact List.anyM_pure
    | none =>
        refine Eq.trans (List.anyM_pure (p := fun _ => false)) ?_
        rw [List.any_eq_false.mpr (fun _ _ => Bool.false_ne_true)]
        rfl
  rw [windowCallback, hsome, onWindow, Bool.and_assoc]
  cases w.settings.isConfigObj with
  | false => rfl
  | true =>
      cases obj.isSome
        && excludes plat.toLowerCase w.settings.leakWatcherConfig windowName with
      | true => rfl
      | false => rfl

theorem nativeCallback_eq (weakRef : Option (Option Obj)) (w : World Dir) :
    nativeCallback weakRef w = .ok (onNativeObject weakRef w) := by
  simp only [nativeCallback, onNativeObject]
  cases w.handler.callbackRef with
  | false => rfl
  | true =>
      cases weakRef with
      | none => rfl
      | some obj => rfl

/-- The test of a collected object throws. -/
theorem callback_of_testsMissing {n : Notification} {w : World Dir} (h : TestsMissing n w) :
    callback plat n w = .error .typeError := by
  obtain ⟨⟨msg, rfl⟩, hmode, hcompares⟩ := h
  simp only [callback, componentCallback, monitorLeakIDandWhitelist_none]
  rw [if_pos hmode, if_neg (not_and_or.mpr hcompares)]
  rfl

/-- Everything else returns. -/
theorem callback_of_not_testsMissing {n : Notification} {w : World Dir}
    (h : ¬ TestsMissing n w) : callback plat n w = .ok (next plat n w) := by
  cases n with
  | component weakRef msg =>
      cases weakRef with
      | none => rfl
      | some obj =>
          cases obj with
          | none => exact componentCallback_none h
          | some obj => exact componentCallback_some obj msg w
  | native uiContext weakRef => exact nativeCallback_eq weakRef w
  | window obj windowName => exact windowCallback_eq obj windowName w

/-- An object that is gone is not recorded. -/
theorem next_of_missing {n : Notification} (h : n.Missing) (w : World Dir) :
    next plat n w = w := by
  cases n with
  | component weakRef msg =>
      cases weakRef with
      | none => rfl
      | some obj =>
          obtain rfl : obj = none := h
          rfl
  | native uiContext weakRef =>
      cases weakRef with
      | none => exact ite_self w
      | some obj =>
          obtain rfl : obj = none := h
          exact ite_self w
  | window obj windowName =>
      obtain rfl : obj = none := h
      exact ite_self w

-- ── The watcher's step ────────────────────────────────────────────────────────────

/-- The world after a callback: one that throws has written nothing. -/
def after (w : World Dir) (called : Except JsError (World Dir)) : World Dir :=
  match called with
  | .ok w' => w'
  | .error _ => w

/-- Whether the callback returns or throws, the watcher's step leaves the same world. -/
theorem after_callback (n : Notification) (w : World Dir) :
    after w (callback plat n w) = next plat n w := by
  by_cases htests : TestsMissing n w
  · rw [callback_of_testsMissing htests]
    obtain ⟨⟨msg, rfl⟩, -, -⟩ := htests
    rfl
  · rw [callback_of_not_testsMissing htests]
    rfl

/-- **The step of the watcher** at a notification is the callback, if it is registered. -/
theorem step_notified [DecidableEq Dir] (n : Notification) (w : World Dir) :
    Watcher.step plat w n.input
      = if n.registered w then some (after w (callback plat n w), []) else none := by
  rw [after_callback]
  cases n with
  | component weakRef msg => rfl
  | native uiContext weakRef =>
      simp only [Notification.input, Watcher.step, Notification.registered, next,
        decide_eq_true_iff]
  | window obj windowName => rfl

-- ── Which notifications are dropped ───────────────────────────────────────────────

/-- A notification about an object that is gone is dropped, unless a callback that is
    registered tests the object. -/
theorem tolerates_iff {n : Notification} (h : n.Missing) (w : World Dir) :
    Tolerates plat n w ↔ ¬ (n.registered w = true ∧ TestsMissing n w) := by
  rw [Tolerates, notify]
  by_cases hreg : n.registered w = true
  · rw [if_pos hreg]
    by_cases htests : TestsMissing n w
    · rw [callback_of_testsMissing htests]
      refine iff_of_false ?_ (fun hno => hno ⟨hreg, htests⟩)
      rintro ⟨w', hthrown, -⟩
      cases hthrown
    · rw [callback_of_not_testsMissing htests, next_of_missing h]
      exact iff_of_true ⟨w, rfl, rfl⟩ (fun hboth => htests hboth.2)
  · rw [if_neg hreg]
    exact iff_of_true ⟨w, rfl, rfl⟩ (fun hboth => hreg hboth.1)

/-- `executeRegister` hands out the component callback when the mask asks for it, with an
    application context or without one. -/
theorem executeRegister_component (out : Surroundings) (types : BitVec 32) (w : World Dir) :
    (executeRegister plat out types w).registrations.component
      = (w.registrations.component || monitors types customComponent) := by
  cases hctx : plat.hasContext with
  | true => exact (executeRegister_spec plat hctx out types w).component
  | false =>
      have hability : ∀ v, (executeAbility plat types v).registrations = v.registrations := by
        intro v
        simp only [executeAbility, registerAbilityLifecycleCallback, hctx]
        split
        · rfl
        · rfl
      rw [executeRegister, hability, executeComponent_eq, executeWindow_eq,
        executeNative_eq out types rfl]
      split
      · rfl
      · rfl

/-- **Objects that are gone.** Whatever the mask the callbacks were registered with, and
    whatever is configured by the time of the notification: the callback returns and
    leaves `watchObjMap` alone, unless the component callback is registered, was given an
    object that has been collected, and has IDs or names to compare it with. -/
theorem missing_tolerated_iff (out : Surroundings) (types : BitVec 32) {w w' : World Dir}
    (hregs : w'.registrations = (executeRegister plat out types w).registrations)
    {n : Notification} (hmissing : n.Missing) :
    Tolerates plat n w'
      ↔ ¬ ((w.registrations.component = true ∨ monitors types customComponent = true)
        ∧ TestsMissing n w') := by
  have hcomponent : w'.registrations.component = true
      ↔ w.registrations.component = true ∨ monitors types customComponent = true := by
    rw [hregs, executeRegister_component, Bool.or_eq_true]
  rw [tolerates_iff hmissing, ← hcomponent]
  refine not_congr (and_congr_left ?_)
  rintro ⟨⟨msg, rfl⟩, -, -⟩
  exact Iff.rfl

/-- The class `Chart` is excluded in config-object mode, and nothing is registered yet. -/
def chartsExcluded : World String :=
  { dump := DumpIdentity.noFiles
    settings :=
      { ({} : Settings) with
        isConfigObj := true
        leakWatcherConfig := { ({} : LeakWatcherConfig) with exclusionList := ["Chart"] } } }

/-- Registered for components alone: a window that is gone would be dropped, a component
    that is gone is not. -/
theorem missing_tolerated_iff_charts :
    (Tolerates plainPlatform (.window none "")
        (executeRegister plainPlatform plainSurroundings customComponent chartsExcluded))
      ∧ ¬ Tolerates plainPlatform (.component (some none) "")
        (executeRegister plainPlatform plainSurroundings customComponent chartsExcluded) := by
  constructor
  · have hmissing : (Notification.window none "").Missing := rfl
    refine (missing_tolerated_iff plainSurroundings customComponent (w := chartsExcluded) rfl
      hmissing).mpr ?_
    rintro ⟨-, ⟨msg, hwindow⟩, -, -⟩
    cases hwindow
  · have hmissing : (Notification.component (some none) "").Missing := rfl
    intro htolerates
    refine (missing_tolerated_iff plainSurroundings customComponent (w := chartsExcluded) rfl
      hmissing).mp htolerates ⟨Or.inr rfl, ⟨"", rfl⟩, rfl, Or.inr ?_⟩
    exact List.cons_ne_nil _ _

/-- A watcher started with `Chart` on the exclusion list throws at a component that has
    been collected. -/
theorem collected_component_throws :
    ¬ ∀ (w : World String) (tr : List Event),
        Run (watcher plainPlatform DumpIdentity.noFiles) anyStep w tr →
        ∀ n : Notification, n.Missing → Tolerates plainPlatform n w := by
  intro h
  obtain ⟨p, hp⟩ : ∃ p, exec (watcher plainPlatform DumpIdentity.noFiles) anyStep
      [Exclusion.startWithoutCharts] = some p := ⟨_, rfl⟩
  have hmissing : (Notification.component (some none) "").Missing := rfl
  refine (tolerates_iff hmissing p.1).mp (h p.1 p.2 (run_of_exec hp) _ hmissing) ?_
  obtain rfl := Option.some.inj hp
  exact ⟨rfl, ⟨"", rfl⟩, rfl, Or.inr (List.cons_ne_nil _ _)⟩

end CollectedTarget
