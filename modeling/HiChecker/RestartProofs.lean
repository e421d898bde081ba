import HiChecker.WatcherProofs

/-!
# A restarted watcher and a fresh one

Most of what a session runs under is written when it starts: an object configuration
writes every threshold and delay, and `executeRegister` starts with no type to retry.
The rest is written at module load and by earlier sessions, and neither a start nor a
shutdown puts it back.

* **`SameSession`** — two worlds whose sessions run under the same configuration.
* **`Remains`** — what holds of the settings in every reachable world: nothing but an
  object configuration changes them, and none is ever taken back.
* **`CarriesNothing`** — the variables that the start leaves alone are as they were at
  module load.
* **`restart_fresh_iff`** — after a stop, a start gives the session of a fresh process
  exactly under that condition.
-/

namespace Restart

open Transition JsValue OrderedMapLib WatcherConfig LeakRound DumpFile TimerQueue Watcher

variable {Dir : Type}

-- ── What a session runs under ─────────────────────────────────────────────────────

/-- The two sessions run under the same configuration and the same memory of the past. -/
structure SameSession (w v : World Dir) : Prop where
  isConfigObj : w.settings.isConfigObj = v.settings.isConfigObj
  foreground : w.settings.leakWatcherConfig.fgLeakCountThreshold
    = v.settings.leakWatcherConfig.fgLeakCountThreshold
  background : w.settings.leakWatcherConfig.bgLeakCountThreshold
    = v.settings.leakWatcherConfig.bgLeakCountThreshold
  exclusions : w.settings.leakWatcherConfig.exclusionList
    = v.settings.leakWatcherConfig.exclusionList
  ids : w.settings.leakWatcherConfig.objectUniqueIDs
    = v.settings.leakWatcherConfig.objectUniqueIDs
  types : w.settings.leakWatcherConfig.monitorObjectTypes
    = v.settings.leakWatcherConfig.monitorObjectTypes
  gcDelay : w.settings.gcDelayTime = v.settings.gcDelayTime
  dumpDelay : w.settings.dumpDelayTime = v.settings.dumpDelayTime
  maxFileNum : w.settings.maxFileNum = v.settings.maxFileNum
  retry : w.retryMonitorObjectTypes = v.retryMonitorObjectTypes
  attempts : w.currentAttempt = v.currentAttempt
  reported : w.appState.duplicateLeakList = v.appState.duplicateLeakList

/-- The settings of module load, but for the monitored types and the bundle name. -/
structure Untouched (st : Settings) : Prop where
  foreground : st.leakWatcherConfig.fgLeakCountThreshold = some (.ofNat 5)
  background : st.leakWatcherConfig.bgLeakCountThreshold = some (.ofNat 1)
  exclusions : st.leakWatcherConfig.exclusionList = []
  ids : st.leakWatcherConfig.objectUniqueIDs = []
  gcDelay : st.gcDelayTime = 90000#32
  dumpDelay : st.dumpDelayTime = 3000#32
  maxFileNum : st.maxFileNum = .ofNat 20

/-- What holds of the settings and of the recorded list in every reachable world. -/
structure Remains (w : World Dir) : Prop where
  fallbacks : Fallbacks w.settings.leakWatcherConfig
  /-- before the first object, everything but the types is as at module load -/
  untouched : w.settings.isConfigObj = false → Untouched w.settings
  reported : w.settings.isConfigObj = false → w.appState.duplicateLeakList = []

theorem Remains.of_eq {w w' : World Dir} (h : Remains w) (hsettings : w'.settings = w.settings)
    (hreported : w'.appState.duplicateLeakList = w.appState.duplicateLeakList) :
    Remains w' where
  fallbacks := by
    rw [hsettings]
    exact h.fallbacks
  untouched := by
    rw [hsettings]
    exact h.untouched
  reported := by
    rw [hsettings, hreported]
    exact h.reported

-- ── Every step keeps it ───────────────────────────────────────────────────────────

/-- The monitored types of an array leave the rest of the settings alone. -/
theorem withMonitorObjectTypes_eq (configs : Configs) (st : Settings) :
    withMonitorObjectTypes configs st
      = { st with leakWatcherConfig :=
          { st.leakWatcherConfig with
            monitorObjectTypes :=
              (withMonitorObjectTypes configs st).leakWatcherConfig.monitorObjectTypes } } := by
  simp only [withMonitorObjectTypes]
  split
  · rfl
  · rfl

/-- A configuration: an object is applied, an array is not looked at yet. -/
theorem getCustomAttribute_remains (configs : Configs) (bundleInfo : Option String)
    {w w' : World Dir} (h : Remains w)
    (hsettings : w'.settings = getCustomAttribute configs bundleInfo w.settings)
    (hreported : w'.appState.duplicateLeakList = w.appState.duplicateLeakList) :
    Remains w' := by
  cases configs with
  | undefined => exact h.of_eq hsettings hreported
  | null => exact h.of_eq hsettings hreported
  | array items => exact h.of_eq hsettings hreported
  | object attrs length items =>
      have happlied : Applied attrs w.settings w'.settings := by
        rw [hsettings]
        exact setLeakWatcherConfig_spec attrs bundleInfo w.settings
      have hmode : ¬ w'.settings.isConfigObj = false := by
        rw [happlied.mode]
        exact Bool.noConfusion
      exact ⟨happlied.fallbacks h.fallbacks, fun hoff => absurd hoff hmode,
        fun hoff => absurd hoff hmode⟩

variable {plat : Platform Dir}

theorem launch_settings (plat : Platform Dir) (out : Surroundings) (configs : Configs)
    (callback : JsVal) (w : World Dir) :
    (launch plat out configs callback w).settings = withMonitorObjectTypes configs w.settings
      ∧ (launch plat out configs callback w).appState = w.appState
      ∧ (launch plat out configs callback w).currentAttempt = w.currentAttempt := by
  obtain ⟨_, _, _, _, _, heq⟩ := executeRegister_frame plat out
    (typeMask (arm out configs callback w).settings.leakWatcherConfig.monitorObjectTypes)
    (arm out configs callback w)
  simp only [launch]
  rw [heq]
  exact ⟨rfl, rfl, rfl⟩

theorem launch_remains (out : Surroundings) (configs : Configs) (callback : JsVal)
    {w : World Dir} (h : Remains w) : Remains (launch plat out configs callback w) := by
  obtain ⟨hsettings, happ, -⟩ := launch_settings plat out configs callback w
  have htypes := withMonitorObjectTypes_eq configs w.settings
  rw [htypes] at hsettings
  constructor
  · rw [hsettings]
    exact ⟨h.fallbacks.interval, h.fallbacks.wait, h.fallbacks.stored⟩
  · rw [hsettings]
    intro hoff
    have hun := h.untouched hoff
    exact ⟨hun.foreground, hun.background, hun.exclusions, hun.ids, hun.gcDelay,
      hun.dumpDelay, hun.maxFileNum⟩
  · rw [hsettings, happ]
    exact h.reported

theorem shutdown_remains (out : Surroundings) {w : World Dir} (h : Remains w) :
    Remains (shutdownJsLeakWatcher plat out w).1 := by
  obtain ⟨_, _, _, heq⟩ := shutdown_frame plat out w
  rw [heq]
  exact h.of_eq rfl rfl

theorem enableLeakWatcher_remains (out : Surroundings) (isEnabled : JsVal)
    (configs : Configs) (callback : JsVal) {w : World Dir} (h : Remains w) :
    Remains (enableLeakWatcher plat out isEnabled configs callback w).1 := by
  have hconfigured : Remains (configured out isEnabled configs w) :=
    getCustomAttribute_remains configs out.bundleInfo h rfl rfl
  have hout := enableLeakWatcher_outcome plat out isEnabled configs callback w
  generalize enableLeakWatcher plat out isEnabled configs callback w = result at hout ⊢
  cases hout with
  | refused _ t => exact h
  | stopped _ => exact shutdown_remains out (h.of_eq rfl rfl)
  | rejected _ _ _ => exact hconfigured
  | idle _ _ t _ => exact hconfigured
  | started _ => exact launch_remains out configs callback hconfigured

theorem enable_remains (isEnable : JsVal) {w : World Dir} (h : Remains w) :
    Remains (enable isEnable w).1 := by
  simp only [enable]
  split
  · exact h
  · split
    · exact h.of_eq rfl rfl
    · exact h.of_eq rfl rfl

/-- The GC closure writes neither the settings nor the recorded list. -/
theorem gcTask_remains (out : Surroundings) (tick : Tick) (task : GcTask) {w : World Dir}
    (h : Remains w) : Remains (gcTask plat out tick task w).1 := by
  obtain ⟨attempt, _, _, _, _, _, heq⟩ := retryRegister_frame plat out w
  simp only [gcTask, heq]
  split
  · exact h.of_eq rfl rfl
  · exact h.of_eq rfl rfl

section Steps

variable [DecidableEq Dir]

/-- The dump closure writes the recorded list in object mode only. -/
theorem dumpTask_remains (out : Surroundings) (task : DumpTask) {w : World Dir}
    (h : Remains w) : Remains (dumpTask plat out task w).1 := by
  cases hmode : w.settings.isConfigObj with
  | true =>
      obtain ⟨_, _, _, heq⟩ := dumpTask_frame plat out task w
      rw [heq]
      have hon : ¬ w.settings.isConfigObj = false := by
        rw [hmode]
        exact Bool.noConfusion
      exact ⟨h.fallbacks, fun hoff => absurd hoff hon, fun hoff => absurd hoff hon⟩
  | false =>
      simp only [dumpTask, hmode]
      rw [if_neg Bool.false_ne_true]
      split
      · exact h
      · exact h.of_eq rfl rfl

theorem processEvent_remains (out : Surroundings) (t : Timer EventId) {w : World Dir}
    (h : Remains w) : Remains (processEvent plat out t w).1 := by
  have heffect := processEvent_effect plat out t w
  generalize processEvent plat out t w = result at heffect ⊢
  cases heffect with
  | dropped hrun => exact h
  | noDump hrun hevent => exact h
  | dumped task hrun hevent => exact dumpTask_remains out task h
  | noGc hrun hevent htask => exact h.of_eq rfl rfl
  | collected task hrun hevent htask =>
      have hran : Remains (gcTask plat out (t.tick w.now) task w).1 :=
        gcTask_remains out (t.tick w.now) task h
      exact hran.of_eq rfl rfl

omit [DecidableEq Dir] in
theorem recorded_remains {w w' : World Dir} (h : Remains w) (hrec : Recorded w w') :
    Remains w' := by
  rcases hrec with rfl | ⟨obj, msg, rfl⟩
  · exact h
  · exact h.of_eq rfl rfl

/-- **The step lemma.** -/
theorem step_remains {w w' : World Dir} {a : Input Dir} {es : List Watcher.Event} (h : Remains w)
    (hs : step plat w a = some (w', es)) : Remains w' := by
  have heffect := step_effect hs
  cases heffect with
  | enabled isEnable => exact enable_remains isEnable h
  | switched out isEnabled configs callback =>
      exact enableLeakWatcher_remains out isEnabled configs callback h
  | called t hrec => exact recorded_remains h (hrec.imp_right And.right)
  | notified _ hrec => exact recorded_remains h hrec
  | dumped dump outstanding events => exact h.of_eq rfl rfl
  | delivered out i _ => exact processEvent_remains out _ (h.of_eq rfl rfl)
  | settled k settlement _ =>
      obtain ⟨appState', es, hrun, -, hdup, -⟩ :=
        onSettled_spec w.settings settlement w.appState
      rw [hrun]
      exact h.of_eq rfl hdup
  | finalized registry hash => exact h.of_eq rfl rfl
  | advanced milliseconds => exact h.of_eq rfl rfl

/-- **What remains**, in every reachable world. -/
theorem remains_of_run {load : DumpState Dir} {w : World Dir} {tr : List Watcher.Event}
    (hr : Run (watcher plat load) anyStep w tr) : Remains w := by
  refine Run.state_invariant (I := Remains) ?_ (fun _ _ _ _ h _ hs => step_remains h hs) hr
  exact ⟨⟨rfl, rfl, rfl⟩, fun _ => ⟨rfl, rfl, rfl, rfl, rfl, rfl, rfl⟩, fun _ => rfl⟩

end Steps

-- ── What the start writes ─────────────────────────────────────────────────────────

/-- What a start of the watcher leaves to retry depends on the call alone. -/
theorem executeNative_retry (out : Surroundings) (config : BitVec 32) {w v : World Dir}
    (h : w.retryMonitorObjectTypes = v.retryMonitorObjectTypes) :
    (executeNative out config w).retryMonitorObjectTypes
      = (executeNative out config v).retryMonitorObjectTypes := by
  simp only [executeNative]
  split
  · cases hctx : out.uiContext with
    | none =>
        simp only [registerNative, hctx]
        simp only [addRetry, h]
        rfl
    | some uiContext =>
        simp only [registerNative, hctx]
        exact h
  · exact h

theorem executeAbility_retry (config : BitVec 32) {w v : World Dir}
    (h : w.retryMonitorObjectTypes = v.retryMonitorObjectTypes) :
    (executeAbility plat config w).retryMonitorObjectTypes
      = (executeAbility plat config v).retryMonitorObjectTypes := by
  simp only [executeAbility]
  split
  · cases hctx : plat.hasContext with
    | false =>
        have hreg : ∀ u : World Dir, registerAbilityLifecycleCallback plat u = (u, false) := by
          intro u
          simp only [registerAbilityLifecycleCallback, hctx]
          rfl
        simp only [hreg]
        show (addRetry ability ability w).retryMonitorObjectTypes
          = (addRetry ability ability v).retryMonitorObjectTypes
        simp only [addRetry, h]
    | true =>
        simp only [registerAbilityLifecycleCallback, hctx]
        exact h
  · exact h

theorem executeRegister_retry (out : Surroundings) (config : BitVec 32) (w v : World Dir) :
    (executeRegister plat out config w).retryMonitorObjectTypes
      = (executeRegister plat out config v).retryMonitorObjectTypes := by
  have hcomponent : ∀ u : World Dir,
      (executeComponent config u).retryMonitorObjectTypes = u.retryMonitorObjectTypes := by
    intro u
    simp only [executeComponent]
    split
    · rfl
    · rfl
  have hwindow : ∀ u : World Dir,
      (executeWindow config u).retryMonitorObjectTypes = u.retryMonitorObjectTypes := by
    intro u
    simp only [executeWindow]
    split
    · rfl
    · rfl
  refine executeAbility_retry config (executeNative_retry out config ?_)
  rw [hwindow, hwindow, hcomponent, hcomponent]

/-- The settings after a start. -/
def startedSettings (plat : Platform Dir) (out : Surroundings) (configs : Configs)
    (st : Settings) : Settings :=
  if launches plat out then
    withMonitorObjectTypes configs (getCustomAttribute configs out.bundleInfo st)
  else getCustomAttribute configs out.bundleInfo st

/-- Only the monitored types are written after the configuration was read. -/
theorem startedSettings_eq (plat : Platform Dir) (out : Surroundings) (configs : Configs)
    (st : Settings) :
    startedSettings plat out configs st
      = { getCustomAttribute configs out.bundleInfo st with
          leakWatcherConfig :=
            { (getCustomAttribute configs out.bundleInfo st).leakWatcherConfig with
              monitorObjectTypes :=
                (startedSettings plat out configs st).leakWatcherConfig.monitorObjectTypes } } := by
  simp only [startedSettings]
  split
  · exact withMonitorObjectTypes_eq configs _
  · rfl

/-- The monitored types after a start. -/
theorem startedSettings_types (plat : Platform Dir) (out : Surroundings) (configs : Configs)
    (st : Settings) :
    (startedSettings plat out configs st).leakWatcherConfig.monitorObjectTypes
      = if launches plat out && arrayAtLast configs then
          some (convertToMask (if configs.isArray then configs.items else []))
        else
          (getCustomAttribute configs out.bundleInfo st).leakWatcherConfig.monitorObjectTypes := by
  simp only [startedSettings]
  cases launches plat out with
  | false => rfl
  | true =>
      simp only [withMonitorObjectTypes]
      cases arrayAtLast configs with
      | false => rfl
      | true => rfl

/-- A start that passes the tests on its arguments. -/
structure ValidStart (configs : Configs) (callback : JsVal) : Prop where
  given : configs.isNullish = false
  called : callback.isNullish = false
  valid : rejects configs = false

/-- The world after a valid start, as far as the session is concerned. -/
structure Started (plat : Platform Dir) (out : Surroundings) (configs : Configs)
    (w w' : World Dir) : Prop where
  settings : w'.settings = startedSettings plat out configs w.settings
  launched : launches plat out = true → ∀ v : World Dir, w'.retryMonitorObjectTypes
    = (executeRegister plat out
        (typeMask w'.settings.leakWatcherConfig.monitorObjectTypes) v).retryMonitorObjectTypes
  idle : launches plat out = false → w'.retryMonitorObjectTypes = w.retryMonitorObjectTypes
  attempts : w'.currentAttempt = w.currentAttempt
  appState : w'.appState = w.appState

/-- **A valid start** of a watcher that is off. -/
theorem start_spec (out : Surroundings) {configs : Configs} {callback : JsVal}
    (hvalid : ValidStart configs callback) {w : World Dir} (hoff : w.enabled = .bool false) :
    Started plat out configs w
      (enableLeakWatcher plat out (.bool true) configs callback w).1 := by
  have hacc : accepts (.bool true) configs callback w = true := by
    show (!(JsVal.bool true).isNullish && !configs.isNullish && !callback.isNullish
      && !(JsVal.bool true).strictEq w.enabled) = true
    rw [hvalid.given, hvalid.called, hoff]
    rfl
  rw [enableLeakWatcher_of_accepts plat hacc, hvalid.valid]
  show Started plat out configs w
    (start plat out configs callback (configured out (.bool true) configs w)).1
  cases hlaunch : launches plat out with
  | true =>
      rw [start_of_launches plat hlaunch]
      obtain ⟨hsettings, happ, hattempt⟩ :=
        launch_settings plat out configs callback (configured out (.bool true) configs w)
      have hstarted : startedSettings plat out configs w.settings
          = withMonitorObjectTypes configs (configured out (.bool true) configs w).settings :=
        if_pos hlaunch
      refine ⟨hsettings.trans hstarted.symm, ?_, ?_, hattempt, happ⟩
      · intro _ v
        rw [hsettings]
        exact executeRegister_retry out _ _ v
      · intro hidle
        exact absurd (hidle.symm.trans hlaunch) Bool.false_ne_true
  | false =>
      have hidle : (start plat out configs callback (configured out (.bool true) configs w)).1
          = configured out (.bool true) configs w := by
        rcases start_of_not_launches plat hlaunch configs callback
          (configured out (.bool true) configs w) with heq | heq
        · rw [heq]
        · rw [heq]
      rw [hidle]
      have hstarted : startedSettings plat out configs w.settings
          = getCustomAttribute configs out.bundleInfo w.settings :=
        if_neg (fun h => Bool.false_ne_true (hlaunch.symm.trans h))
      refine ⟨hstarted.symm, ?_, fun _ => rfl, rfl, rfl⟩
      intro hlaunched
      exact absurd (hlaunch.symm.trans hlaunched) Bool.false_ne_true

/-- **A stop** leaves the watcher off, and the settings and the memory as they were. -/
theorem stop_spec (out : Surroundings) {configs : Configs} {callback : JsVal}
    (hgiven : configs.isNullish = false) (hcalled : callback.isNullish = false)
    {w : World Dir} (hw : Remains w) :
    (enableLeakWatcher plat out (.bool false) configs callback w).1.enabled = .bool false
      ∧ Remains (enableLeakWatcher plat out (.bool false) configs callback w).1 := by
  refine ⟨?_, enableLeakWatcher_remains out _ configs callback hw⟩
  cases hacc : accepts (.bool false) configs callback w with
  | true =>
      rw [enableLeakWatcher_of_accepts plat hacc]
      show (shutdownJsLeakWatcher plat out { w with enabled := .bool false }).1.enabled = _
      obtain ⟨_, _, _, heq⟩ := shutdown_frame plat out { w with enabled := .bool false }
      rw [heq]
  | false =>
      -- the only test left to fail is the one on the flag
      obtain ⟨t, ht⟩ := enableLeakWatcher_of_refused plat out hacc
      rw [ht]
      have hsame : (JsVal.bool false).strictEq w.enabled = true := by
        have h : (!(JsVal.bool false).isNullish && !configs.isNullish && !callback.isNullish
            && !(JsVal.bool false).strictEq w.enabled) = false := hacc
        rw [hgiven, hcalled] at h
        cases hflag : (JsVal.bool false).strictEq w.enabled with
        | true => rfl
        | false =>
            rw [hflag] at h
            exact absurd h (Bool.noConfusion)
      exact (of_decide_eq_true hsame).symm

-- ── A restart against a fresh start ───────────────────────────────────────────────

/-- The variables that a start with `configs` leaves alone are as at module load. -/
structure CarriesNothing (plat : Platform Dir) (out : Surroundings) (configs : Configs)
    (w : World Dir) : Prop where
  attempts : w.currentAttempt = 1
  reported : w.appState.duplicateLeakList = []
  retry : launches plat out = false → w.retryMonitorObjectTypes = none
  /-- an object leaves the IDs alone unless it monitors components -/
  object : ∀ attrs length items, configs = .object attrs length items →
    monitors (typeMask attrs.monitorObjectTypes) customComponent = false →
      w.settings.leakWatcherConfig.objectUniqueIDs = []
  /-- an array leaves everything but the types alone -/
  array : ∀ items, configs = .array items →
    w.settings.isConfigObj = false ∧ (launches plat out = false →
      w.settings.leakWatcherConfig.monitorObjectTypes = some monitorAll)

/-- The IDs after a start with an object. -/
theorem started_ids {out : Surroundings} {attrs : ConfigObject} {length : Option JsNum}
    {items : List JsVal} (st : Settings) :
    (startedSettings plat out (.object attrs length items) st).leakWatcherConfig.objectUniqueIDs
      = if monitors (typeMask attrs.monitorObjectTypes) customComponent then
          attrs.objectUniqueIDs.getD []
        else st.leakWatcherConfig.objectUniqueIDs := by
  rw [startedSettings_eq]
  exact (setLeakWatcherConfig_spec attrs out.bundleInfo st).ids

/-- After a start, equal types leave equal types to retry. -/
theorem retry_of_types {out : Surroundings} {configs : Configs} {w w' v v' : World Dir}
    (hw : Started plat out configs w w') (hv : Started plat out configs v v')
    (htypes : w'.settings.leakWatcherConfig.monitorObjectTypes
      = v'.settings.leakWatcherConfig.monitorObjectTypes)
    (hidle : launches plat out = false →
      w.retryMonitorObjectTypes = v.retryMonitorObjectTypes) :
    w'.retryMonitorObjectTypes = v'.retryMonitorObjectTypes := by
  cases hlaunch : launches plat out with
  | true => rw [hw.launched hlaunch v, hv.launched hlaunch v, htypes]
  | false => rw [hw.idle hlaunch, hv.idle hlaunch, hidle hlaunch]

/-- What is carried over shows in the session. -/
theorem carriesNothing_of_same {out : Surroundings} {configs : Configs} {w w' v' : World Dir}
    {load : DumpState Dir} (hw : Started plat out configs w w')
    (hv : Started plat out configs { dump := load } v') (hsame : SameSession w' v') :
    CarriesNothing plat out configs w := by
  refine ⟨?_, ?_, ?_, ?_, ?_⟩
  · exact hw.attempts.symm.trans (hsame.attempts.trans hv.attempts)
  · rw [← hw.appState, hsame.reported, hv.appState]
  · intro hidle
    rw [← hw.idle hidle, hsame.retry, hv.idle hidle]
  · rintro attrs length items rfl hmask
    have hids := hsame.ids
    rw [hw.settings, hv.settings, started_ids, started_ids, hmask] at hids
    exact hids
  · rintro items rfl
    constructor
    · have hmode := hsame.isConfigObj
      rw [hw.settings, hv.settings, startedSettings_eq,
        startedSettings_eq plat out (.array items) {}] at hmode
      exact hmode
    · intro hidle
      have htypes := hsame.types
      rw [hw.settings, hv.settings, startedSettings_types, startedSettings_types, hidle]
        at htypes
      exact htypes

/-- The settings of the session are those read from the configuration, but for the types. -/
theorem Started.settings_eq {out : Surroundings} {configs : Configs} {w w' : World Dir}
    (h : Started plat out configs w w') :
    w'.settings = { getCustomAttribute configs out.bundleInfo w.settings with
      leakWatcherConfig :=
        { (getCustomAttribute configs out.bundleInfo w.settings).leakWatcherConfig with
          monitorObjectTypes := w'.settings.leakWatcherConfig.monitorObjectTypes } } := by
  have heq := h.settings.trans (startedSettings_eq plat out configs w.settings)
  rw [← h.settings] at heq
  exact heq

/-- An array that carries nothing over. -/
theorem same_of_array {out : Surroundings} {items : List JsVal} {w w' v' : World Dir}
    {load : DumpState Dir} (hrem : Remains w) (hw : Started plat out (.array items) w w')
    (hv : Started plat out (.array items) { dump := load } v')
    (hcarry : CarriesNothing plat out (.array items) w) : SameSession w' v' := by
  obtain ⟨hmode, hidleTypes⟩ := hcarry.array items rfl
  have hun := hrem.untouched hmode
  have htypes : w'.settings.leakWatcherConfig.monitorObjectTypes
      = v'.settings.leakWatcherConfig.monitorObjectTypes := by
    rw [hw.settings, hv.settings, startedSettings_types, startedSettings_types]
    cases hlaunch : launches plat out with
    | true => rfl
    | false => exact hidleTypes hlaunch
  have hws := hw.settings_eq
  have hvs := hv.settings_eq
  constructor
  · rw [hws, hvs]
    exact hmode
  · rw [hws, hvs]
    exact hun.foreground
  · rw [hws, hvs]
    exact hun.background
  · rw [hws, hvs]
    exact hun.exclusions
  · rw [hws, hvs]
    exact hun.ids
  · exact htypes
  · rw [hws, hvs]
    exact hun.gcDelay
  · rw [hws, hvs]
    exact hun.dumpDelay
  · rw [hws, hvs]
    exact hun.maxFileNum
  · exact retry_of_types hw hv htypes hcarry.retry
  · exact hw.attempts.trans (hcarry.attempts.trans hv.attempts.symm)
  · rw [hw.appState, hv.appState]
    exact hcarry.reported

/-- An object that carries nothing over: what it writes, it writes from the call alone. -/
theorem same_of_object {out : Surroundings} {attrs : ConfigObject} {length : Option JsNum}
    {items : List JsVal} {w w' v' : World Dir} {load : DumpState Dir} (hrem : Remains w)
    (hw : Started plat out (.object attrs length items) w w')
    (hv : Started plat out (.object attrs length items) { dump := load } v')
    (hcarry : CarriesNothing plat out (.object attrs length items) w) : SameSession w' v' := by
  have hA := setLeakWatcherConfig_spec attrs out.bundleInfo w.settings
  have hB := setLeakWatcherConfig_spec attrs out.bundleInfo {}
  have htypes : w'.settings.leakWatcherConfig.monitorObjectTypes
      = v'.settings.leakWatcherConfig.monitorObjectTypes := by
    rw [hw.settings, hv.settings, startedSettings_types, startedSettings_types]
    split
    · rfl
    · exact hA.types.trans hB.types.symm
  have hdelays := setGcDelayAndDumpDelay_congr attrs w.settings {}
    hrem.fallbacks.interval hrem.fallbacks.wait
  have hamount := setDumpFileSaveAmount_congr attrs w.settings {} hrem.fallbacks.stored
  have hws := hw.settings_eq
  have hvs := hv.settings_eq
  constructor
  · rw [hws, hvs]
    exact hA.mode.trans hB.mode.symm
  · rw [hws, hvs]
    exact hA.foreground.trans hB.foreground.symm
  · rw [hws, hvs]
    exact hA.background.trans hB.background.symm
  · rw [hws, hvs]
    exact hA.exclusions.trans hB.exclusions.symm
  · rw [hw.settings, hv.settings, started_ids, started_ids]
    split
    · rfl
    · exact hcarry.object attrs length items rfl (Bool.eq_false_iff.mpr ‹_›)
  · exact htypes
  · rw [hws, hvs]
    exact hA.gcDelay.trans (hdelays.1.trans hB.gcDelay.symm)
  · rw [hws, hvs]
    exact hA.dumpDelay.trans (hdelays.2.trans hB.dumpDelay.symm)
  · rw [hws, hvs]
    exact hA.saveAmount.trans (hamount.trans hB.saveAmount.symm)
  · exact retry_of_types hw hv htypes hcarry.retry
  · exact hw.attempts.trans (hcarry.attempts.trans hv.attempts.symm)
  · rw [hw.appState, hv.appState]
    exact hcarry.reported

/-- What is not carried over does not. -/
theorem same_of_carriesNothing {out : Surroundings} {configs : Configs} {callback : JsVal}
    (hvalid : ValidStart configs callback) {w w' v' : World Dir} {load : DumpState Dir}
    (hrem : Remains w) (hw : Started plat out configs w w')
    (hv : Started plat out configs { dump := load } v')
    (hcarry : CarriesNothing plat out configs w) : SameSession w' v' := by
  cases configs with
  | undefined => exact absurd hvalid.given Bool.noConfusion
  | null => exact absurd hvalid.given Bool.noConfusion
  | array items => exact same_of_array hrem hw hv hcarry
  | object attrs length items => exact same_of_object hrem hw hv hcarry

section Runs

variable [DecidableEq Dir]

/-- **A restart is a fresh start** — after any run that ends with a stop, for any valid
    start and any surroundings — exactly when the start finds every variable it leaves
    alone as it was at module load. -/
theorem restart_fresh_iff {load : DumpState Dir} (load' : DumpState Dir) {w : World Dir}
    {tr : List Watcher.Event} (hr : Run (watcher plat load) anyStep w tr)
    (outStop : Surroundings) {configsStop : Configs} {callbackStop : JsVal}
    (hgiven : configsStop.isNullish = false) (hcalled : callbackStop.isNullish = false)
    (out : Surroundings) {configs : Configs} {callback : JsVal}
    (hvalid : ValidStart configs callback) :
    let stopped :=
      (enableLeakWatcher plat outStop (.bool false) configsStop callbackStop w).1
    SameSession (enableLeakWatcher plat out (.bool true) configs callback stopped).1
        (enableLeakWatcher plat out (.bool true) configs callback
          (watcher plat load').init).1
      ↔ CarriesNothing plat out configs stopped := by
  intro stopped
  obtain ⟨hoff, hrem⟩ := stop_spec outStop hgiven hcalled (remains_of_run hr)
  have hw : Started plat out configs stopped _ := start_spec out hvalid hoff
  have hv : Started plat out configs (watcher plat load').init _ :=
    start_spec out hvalid rfl
  exact ⟨carriesNothing_of_same hw hv, same_of_carriesNothing hvalid hrem hw hv⟩

end Runs

/-- An object that monitors everything. -/
def monitorEverything : Configs := .object { monitorObjectTypes := some monitorAll } none []

/-- After a session with an array, an object starts afresh. -/
theorem restart_fresh_iff_object :
    ∃ w : World String, w.handler.isRunning = true ∧
      SameSession
        (enableLeakWatcher plainPlatform plainSurroundings (.bool true) monitorEverything
          (.obj 1) (enableLeakWatcher plainPlatform plainSurroundings (.bool false)
            (.array []) (.obj 1) w).1).1
        (enableLeakWatcher plainPlatform plainSurroundings (.bool true) monitorEverything
          (.obj 1) (watcher plainPlatform DumpIdentity.noFiles).init).1 := by
  obtain ⟨p, hp⟩ : ∃ p, exec (watcher plainPlatform DumpIdentity.noFiles) anyStep
      [.enableLeakWatcher plainSurroundings (.bool true) (.array []) (.obj 1)] = some p :=
    ⟨_, rfl⟩
  have hvalid : ValidStart monitorEverything (.obj 1) := ⟨rfl, rfl, rfl⟩
  have hgiven : (Configs.array []).isNullish = false := rfl
  have hcalled : (JsVal.obj 1).isNullish = false := rfl
  have hiff := restart_fresh_iff DumpIdentity.noFiles (run_of_exec hp) plainSurroundings
    hgiven hcalled plainSurroundings hvalid
  obtain ⟨hrun, hcarry⟩ : p.1.handler.isRunning = true ∧
      CarriesNothing plainPlatform plainSurroundings monitorEverything
        (enableLeakWatcher plainPlatform plainSurroundings (.bool false) (.array []) (.obj 1)
          p.1).1 := by
    obtain rfl := Option.some.inj hp
    refine ⟨rfl, rfl, rfl, fun _ => rfl, fun _ _ _ _ _ => rfl, ?_⟩
    intro items h
    exact absurd h (fun h => Configs.noConfusion h)
  exact ⟨p.1, hrun, hiff.mpr hcarry⟩

/-- An object session, a stop, and a start with an array: the mode is still that of the
    object. -/
theorem restart_remembers :
    ¬ ∀ (load load' : DumpState String) (w : World String) (tr : List Watcher.Event),
        Run (watcher plainPlatform load) anyStep w tr →
        ∀ (outStop : Surroundings) (configsStop : Configs) (callbackStop : JsVal),
          configsStop.isNullish = false → callbackStop.isNullish = false →
        ∀ (out : Surroundings) (configs : Configs) (callback : JsVal),
          ValidStart configs callback →
        SameSession
          (enableLeakWatcher plainPlatform out (.bool true) configs callback
            (enableLeakWatcher plainPlatform outStop (.bool false) configsStop callbackStop
              w).1).1
          (enableLeakWatcher plainPlatform out (.bool true) configs callback
            (watcher plainPlatform load').init).1 := by
  intro h
  obtain ⟨p, hp⟩ : ∃ p, exec (watcher plainPlatform DumpIdentity.noFiles) anyStep
      [.enableLeakWatcher plainSurroundings (.bool true) monitorEverything (.obj 1)]
        = some p := ⟨_, rfl⟩
  have hsame := h DumpIdentity.noFiles DumpIdentity.noFiles p.1 p.2 (run_of_exec hp)
    plainSurroundings (.array []) (.obj 1) rfl rfl
    plainSurroundings (.array []) (.obj 1) ⟨rfl, rfl, rfl⟩
  obtain rfl := Option.some.inj hp
  exact absurd hsame.isConfigObj.symm Bool.false_ne_true

end Restart
