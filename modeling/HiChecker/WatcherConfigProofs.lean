import HiChecker.JsValueProofs

/-!
# The configuration of the leak watcher

What `enableLeakWatcher` of `js_leak_watcher.ts` reads from its argument `configs`, the
module variables it writes from it, and the two delays it hands to the native
handler.

* **`ConfigObject`** — the argument, when it is an object: any attribute may be
  missing, which reads as `undefined`.
* **`Configs`** — the argument, whatever it is. An array has elements of any kind; an
  object may carry a `length` and elements of its own; a primitive reads like an
  object without attributes.
* **`Settings`** — the variables written, with their values at module load.
* **`setLeakWatcherConfig_spec`** — what each variable is after an object is applied.
* **`acceptsDelays_iff`** — the joint test of the two delays, with what each branch
  writes.
* **`rejects_iff`** — the element-by-element validation of `configs` fails exactly when
  some position below its length does not hold one of the five names.
-/

namespace WatcherConfig

open JsValue

-- ── Monitored object types ────────────────────────────────────────────────────────

/-- `MonitorObjectType.ALL`. -/
def monitorAll : JsNum := .fin (-1)

/-- `MonitorObjectType.CUSTOM_COMPONENT`, and the bits of the other types. -/
def customComponent : BitVec 32 := 1#32 <<< 0
def window : BitVec 32 := 1#32 <<< 1
def nodeContainer : BitVec 32 := 1#32 <<< 2
def xComponent : BitVec 32 := 1#32 <<< 3
def ability : BitVec 32 := 1#32 <<< 4

/-- The test `config & type`. -/
def monitors (config type : BitVec 32) : Bool := config &&& type ≠ 0#32

/-- The operand of `&`: a missing attribute counts as zero. -/
def typeMask : Option JsNum → BitVec 32
  | none => 0#32
  | some x => x.toInt32

/-- The `typeMap` of `convertToMask`. -/
def typeMap : JsVal → BitVec 32
  | .str "CustomComponent" => customComponent
  | .str "Window" => window
  | .str "NodeContainer" => nodeContainer
  | .str "XComponent" => xComponent
  | .str "Ability" => ability
  | _ => 0#32

/-- `convertToMask`: no types are all types, and an unknown name adds no bit. -/
def convertToMask (configArray : List JsVal) : JsNum :=
  if configArray.length = 0 then monitorAll
  else .fin (configArray.foldl (fun mask item => mask ||| typeMap item) 0#32).toInt

-- ── The argument ──────────────────────────────────────────────────────────────────

/-- The attributes of a `LeakWatcherConfig` given by the caller. -/
structure ConfigObject where
  monitorObjectTypes : Option JsNum := none
  /-- `none` when the attribute is not an array -/
  objectUniqueIDs : Option (List JsNum) := none
  checkInterval : Option JsNum := none
  fgLeakCountThreshold : Option JsNum := none
  bgLeakCountThreshold : Option JsNum := none
  maxStoredHeapDumps : Option JsNum := none
  dumpHeapWaitTimeMs : Option JsNum := none
  /-- `none` when the attribute is not an array -/
  exclusionList : Option (List String) := none

/-- The argument `configs`. -/
inductive Configs where
  | undefined
  | null
  | array (items : List JsVal)
  | object (attrs : ConfigObject) (length : Option JsNum) (items : List JsVal)

namespace Configs

/-- `configs === undefined || configs === null`. -/
def isNullish : Configs → Bool
  | .undefined => true
  | .null => true
  | _ => false

/-- `Array.isArray(configs)`. -/
def isArray : Configs → Bool
  | .array _ => true
  | _ => false

/-- `configs.length`; `none` is `undefined`. -/
def length : Configs → Option JsNum
  | .array items => some (JsNum.ofNat items.length)
  | .object _ length _ => length
  | _ => none

/-- `configs[i]` for `i = 0, 1, …`, up to the last element present. -/
def items : Configs → List JsVal
  | .array items => items
  | .object _ _ items => items
  | _ => []

end Configs

/-- `validConfig`. -/
def validConfig : List JsVal :=
  [.str "CustomComponent", .str "Window", .str "NodeContainer", .str "XComponent",
    .str "Ability"]

/-- The loop test `i < configs.length`. -/
def inRange (length : Option JsNum) (i : Nat) : Bool :=
  match length with
  | none => false
  | some n => (JsNum.ofNat i).lt n

/-- The validation loop from position `i` on: `true` when it throws. Past the last
    element present `configs[i]` is `undefined`, which is not valid. -/
def rejectsFrom (length : Option JsNum) : Nat → List JsVal → Bool
  | i, [] => inRange length i
  | i, item :: items =>
      if inRange length i then
        if item ∈ validConfig then rejectsFrom length (i + 1) items else true
      else false

/-- The validation loop throws. -/
def rejects (configs : Configs) : Bool := rejectsFrom configs.length 0 configs.items

-- ── The settings ──────────────────────────────────────────────────────────────────

/-- `MIN_CHECK_INTERVAL`: a `checkInterval` is taken above it. -/
def minCheckInterval : JsNum := .ofNat 90000

/-- The module variable `leakWatcherConfig`. -/
structure LeakWatcherConfig where
  monitorObjectTypes : Option JsNum := some monitorAll
  objectUniqueIDs : List JsNum := []
  checkInterval : JsNum := minCheckInterval
  fgLeakCountThreshold : Option JsNum := some (.ofNat 5)
  bgLeakCountThreshold : Option JsNum := some (.ofNat 1)
  maxStoredHeapDumps : JsNum := .ofNat 10
  dumpHeapWaitTimeMs : JsNum := .ofNat 5000
  exclusionList : List String := []
deriving DecidableEq

/-- Everything a configuration writes: module variables, two fields of `appState`, and
    the delays of the native handler. -/
structure Settings where
  leakWatcherConfig : LeakWatcherConfig := {}
  maxFileNum : JsNum := .ofNat 20
  /-- `appState.bundleName` -/
  bundleName : String := ""
  /-- `appState.isConfigObj` -/
  isConfigObj : Bool := false
  /-- `gcDelayTime_` -/
  gcDelayTime : BitVec 32 := 90000#32
  /-- `dumpDelayTime_` -/
  dumpDelayTime : BitVec 32 := 3000#32
deriving DecidableEq

/-- An attribute in a condition: a missing one is falsy. -/
def attrTruthy : Option JsNum → Bool
  | none => false
  | some x => x.truthy

/-- The operator `<` on attributes: `undefined` converts to `NaN`. -/
def attrLt : Option JsNum → Option JsNum → Bool
  | some a, some b => a.lt b
  | _, _ => false

/-- `napi_get_value_uint32` on an attribute that is a number. -/
def attrUint32 : Option JsNum → BitVec 32
  | none => 0#32
  | some x => x.toInt32

/-- The native `setGcDelay`. -/
def setGcDelay (delay : BitVec 32) (st : Settings) : Settings :=
  { st with gcDelayTime := delay }

/-- The native `setDumpDelay`. -/
def setDumpDelay (delay : BitVec 32) (st : Settings) : Settings :=
  { st with dumpDelayTime := delay }

/-- `setGcDelayAndDumpDelay`: both delays are taken together, or neither. -/
def setGcDelayAndDumpDelay (configs : ConfigObject) (st : Settings) : Settings :=
  if attrTruthy configs.checkInterval
      && attrLt (some minCheckInterval) configs.checkInterval
      && attrTruthy configs.dumpHeapWaitTimeMs
      && attrLt configs.dumpHeapWaitTimeMs configs.checkInterval then
    setDumpDelay (attrUint32 configs.dumpHeapWaitTimeMs)
      (setGcDelay (attrUint32 configs.checkInterval) st)
  else
    setDumpDelay st.leakWatcherConfig.dumpHeapWaitTimeMs.toInt32
      (setGcDelay st.leakWatcherConfig.checkInterval.toInt32 st)

/-- `setDumpFileSaveAmount`: two files are written for each dump. -/
def setDumpFileSaveAmount (configs : ConfigObject) (st : Settings) : Settings :=
  match configs.maxStoredHeapDumps with
  | none => { st with maxFileNum := st.leakWatcherConfig.maxStoredHeapDumps.double }
  | some x =>
      if !x.truthy || !(JsNum.ofNat 0).lt x then
        { st with maxFileNum := st.leakWatcherConfig.maxStoredHeapDumps.double }
      else { st with maxFileNum := x.double }

/-- `setMonitoredIDAndObjectType`. -/
def setMonitoredIDAndObjectType (configs : ConfigObject) (st : Settings) : Settings :=
  let ids :=
    if monitors (typeMask configs.monitorObjectTypes) customComponent then
      configs.objectUniqueIDs.getD []
    else st.leakWatcherConfig.objectUniqueIDs
  { st with
    leakWatcherConfig :=
      { st.leakWatcherConfig with
        objectUniqueIDs := ids
        monitorObjectTypes := configs.monitorObjectTypes } }

/-- `setWhiteList`. -/
def setWhiteList (configs : ConfigObject) (st : Settings) : Settings :=
  { st with
    leakWatcherConfig :=
      { st.leakWatcherConfig with exclusionList := configs.exclusionList.getD [] } }

/-- `setForegroundAndBackgroundThreshold`. -/
def setForegroundAndBackgroundThreshold (configs : ConfigObject) (st : Settings) :
    Settings :=
  { st with
    leakWatcherConfig :=
      { st.leakWatcherConfig with
        fgLeakCountThreshold := configs.fgLeakCountThreshold
        bgLeakCountThreshold := configs.bgLeakCountThreshold } }

/-- `getProcessName`; `none` when `getBundleInfoForSelfSync` throws. -/
def getProcessName (bundleInfo : Option String) (st : Settings) : Settings :=
  match bundleInfo with
  | none => st
  | some name => { st with bundleName := name }

/-- `setLeakWatcherConfig`, in the order of its calls. -/
def setLeakWatcherConfig (configs : ConfigObject) (bundleInfo : Option String)
    (st : Settings) : Settings :=
  let st := setWhiteList configs st
  let st := setMonitoredIDAndObjectType configs st
  let st := setGcDelayAndDumpDelay configs st
  let st := setForegroundAndBackgroundThreshold configs st
  let st := setDumpFileSaveAmount configs st
  getProcessName bundleInfo st

/-- `getCustomAttribute`: only an object sets `isConfigObj`. -/
def getCustomAttribute (configs : Configs) (bundleInfo : Option String) (st : Settings) :
    Settings :=
  match configs with
  | .object attrs _ _ =>
      setLeakWatcherConfig attrs bundleInfo { st with isConfigObj := true }
  | _ => st

-- ── What an object leaves in the settings ─────────────────────────────────────────

/-- The three attributes that stand in for what an object leaves out or gets wrong. No
    assignment reaches them. -/
structure Fallbacks (config : LeakWatcherConfig) : Prop where
  interval : config.checkInterval = minCheckInterval
  wait : config.dumpHeapWaitTimeMs = .ofNat 5000
  stored : config.maxStoredHeapDumps = .ofNat 10

/-- The settings after the object `attrs` was applied to `st`. -/
structure Applied (attrs : ConfigObject) (st st' : Settings) : Prop where
  mode : st'.isConfigObj = true
  types : st'.leakWatcherConfig.monitorObjectTypes = attrs.monitorObjectTypes
  ids : st'.leakWatcherConfig.objectUniqueIDs
    = if monitors (typeMask attrs.monitorObjectTypes) customComponent then
        attrs.objectUniqueIDs.getD []
      else st.leakWatcherConfig.objectUniqueIDs
  exclusions : st'.leakWatcherConfig.exclusionList = attrs.exclusionList.getD []
  foreground : st'.leakWatcherConfig.fgLeakCountThreshold = attrs.fgLeakCountThreshold
  background : st'.leakWatcherConfig.bgLeakCountThreshold = attrs.bgLeakCountThreshold
  gcDelay : st'.gcDelayTime = (setGcDelayAndDumpDelay attrs st).gcDelayTime
  dumpDelay : st'.dumpDelayTime = (setGcDelayAndDumpDelay attrs st).dumpDelayTime
  saveAmount : st'.maxFileNum = (setDumpFileSaveAmount attrs st).maxFileNum
  fallbacks : Fallbacks st.leakWatcherConfig → Fallbacks st'.leakWatcherConfig

/-- The two delays, whichever branch writes them. -/
theorem setGcDelayAndDumpDelay_eq (configs : ConfigObject) (st : Settings) :
    setGcDelayAndDumpDelay configs st
      = { st with
          gcDelayTime := (setGcDelayAndDumpDelay configs st).gcDelayTime
          dumpDelayTime := (setGcDelayAndDumpDelay configs st).dumpDelayTime } := by
  simp only [setGcDelayAndDumpDelay]
  split
  · rfl
  · rfl

/-- The delays depend on the object and on the fallbacks. -/
theorem setGcDelayAndDumpDelay_congr (configs : ConfigObject) (st st' : Settings)
    (hinterval : st.leakWatcherConfig.checkInterval = st'.leakWatcherConfig.checkInterval)
    (hwait : st.leakWatcherConfig.dumpHeapWaitTimeMs
      = st'.leakWatcherConfig.dumpHeapWaitTimeMs) :
    (setGcDelayAndDumpDelay configs st).gcDelayTime
        = (setGcDelayAndDumpDelay configs st').gcDelayTime
      ∧ (setGcDelayAndDumpDelay configs st).dumpDelayTime
        = (setGcDelayAndDumpDelay configs st').dumpDelayTime := by
  simp only [setGcDelayAndDumpDelay]
  split
  · exact ⟨rfl, rfl⟩
  · refine ⟨?_, ?_⟩
    · show st.leakWatcherConfig.checkInterval.toInt32 = _
      rw [hinterval]
      rfl
    · show st.leakWatcherConfig.dumpHeapWaitTimeMs.toInt32 = _
      rw [hwait]
      rfl

/-- `setDumpFileSaveAmount` writes `maxFileNum` alone. -/
theorem setDumpFileSaveAmount_eq (configs : ConfigObject) (st : Settings) :
    setDumpFileSaveAmount configs st
      = { st with maxFileNum := (setDumpFileSaveAmount configs st).maxFileNum } := by
  simp only [setDumpFileSaveAmount]
  split
  · rfl
  · split
    · rfl
    · rfl

/-- So does the retention limit. -/
theorem setDumpFileSaveAmount_congr (configs : ConfigObject) (st st' : Settings)
    (hstored : st.leakWatcherConfig.maxStoredHeapDumps
      = st'.leakWatcherConfig.maxStoredHeapDumps) :
    (setDumpFileSaveAmount configs st).maxFileNum
      = (setDumpFileSaveAmount configs st').maxFileNum := by
  simp only [setDumpFileSaveAmount, hstored]
  split
  · rfl
  · split
    · rfl
    · rfl

/-- A positive number of dumps is doubled. -/
theorem setDumpFileSaveAmount_of_pos {configs : ConfigObject} {x : JsNum}
    (hx : configs.maxStoredHeapDumps = some x) (hpos : (JsNum.ofNat 0).lt x = true)
    (st : Settings) : (setDumpFileSaveAmount configs st).maxFileNum = x.double := by
  simp only [setDumpFileSaveAmount, hx, JsNum.truthy_of_lt hpos, hpos]
  rfl

/-- `getProcessName` writes `bundleName` alone. -/
theorem getProcessName_eq (bundleInfo : Option String) (st : Settings) :
    getProcessName bundleInfo st
      = { st with bundleName := (getProcessName bundleInfo st).bundleName } := by
  cases bundleInfo with
  | none => rfl
  | some name => rfl

/-- **An object is applied**: every variable it writes, from its attributes and the
    fallbacks. -/
theorem setLeakWatcherConfig_spec (attrs : ConfigObject) (bundleInfo : Option String)
    (st : Settings) :
    Applied attrs st (setLeakWatcherConfig attrs bundleInfo { st with isConfigObj := true }) := by
  let named := setMonitoredIDAndObjectType attrs
    (setWhiteList attrs { st with isConfigObj := true })
  have hdelays := setGcDelayAndDumpDelay_congr attrs named st rfl rfl
  have hsave := setDumpFileSaveAmount_congr attrs
    (setForegroundAndBackgroundThreshold attrs (setGcDelayAndDumpDelay attrs named)) st
    (by rw [setGcDelayAndDumpDelay_eq]; rfl)
  simp only [setLeakWatcherConfig]
  rw [getProcessName_eq, setDumpFileSaveAmount_eq, setGcDelayAndDumpDelay_eq]
  constructor
  · rfl
  · rfl
  · rfl
  · rfl
  · rfl
  · rfl
  · exact hdelays.1
  · exact hdelays.2
  · rw [setGcDelayAndDumpDelay_eq] at hsave
    exact hsave
  · rintro ⟨hinterval, hwait, hstored⟩
    exact ⟨hinterval, hwait, hstored⟩

-- ── The two delays ────────────────────────────────────────────────────────────────

/-- The test of `setGcDelayAndDumpDelay`, on the two attributes together. -/
def acceptsDelays (attrs : ConfigObject) : Bool :=
  attrTruthy attrs.checkInterval
    && attrLt (some minCheckInterval) attrs.checkInterval
    && attrTruthy attrs.dumpHeapWaitTimeMs
    && attrLt attrs.dumpHeapWaitTimeMs attrs.checkInterval

/-- Both are given, the interval above its minimum and the wait neither zero nor as long. -/
theorem acceptsDelays_iff (attrs : ConfigObject) :
    acceptsDelays attrs = true
      ↔ ∃ x y, attrs.checkInterval = some x ∧ attrs.dumpHeapWaitTimeMs = some y
        ∧ minCheckInterval.lt x = true ∧ y.truthy = true ∧ y.lt x = true := by
  simp only [acceptsDelays, Bool.and_eq_true_iff]
  cases attrs.checkInterval with
  | none => exact iff_of_false (fun h => nomatch h.1.1.1) (fun ⟨_, _, h⟩ => nomatch h.1)
  | some x =>
      cases attrs.dumpHeapWaitTimeMs with
      | none => exact iff_of_false (fun h => nomatch h.1.2) (fun ⟨_, _, h⟩ => nomatch h.2.1)
      | some y =>
          constructor
          · rintro ⟨⟨⟨-, hmin⟩, hy⟩, hlt⟩
            exact ⟨x, y, rfl, rfl, hmin, hy, hlt⟩
          · rintro ⟨x', y', hx, hy', hmin, hy, hlt⟩
            obtain rfl := Option.some.inj hx
            obtain rfl := Option.some.inj hy'
            refine ⟨⟨⟨?_, hmin⟩, hy⟩, hlt⟩
            exact JsNum.truthy_of_lt hmin

/-- The delays of an object that passes the test. -/
theorem delays_of_accepts {attrs : ConfigObject} (st : Settings) {x y : JsNum}
    (h : acceptsDelays attrs = true) (hx : attrs.checkInterval = some x)
    (hy : attrs.dumpHeapWaitTimeMs = some y) :
    (setGcDelayAndDumpDelay attrs st).gcDelayTime = x.toInt32
      ∧ (setGcDelayAndDumpDelay attrs st).dumpDelayTime = y.toInt32 := by
  have hst : setGcDelayAndDumpDelay attrs st
      = setDumpDelay (attrUint32 attrs.dumpHeapWaitTimeMs)
        (setGcDelay (attrUint32 attrs.checkInterval) st) := if_pos h
  rw [hst, hx, hy]
  exact ⟨rfl, rfl⟩

/-- The delays of one that does not. -/
theorem delays_of_not_accepts {attrs : ConfigObject} {st : Settings}
    (hst : Fallbacks st.leakWatcherConfig) (h : acceptsDelays attrs = false) :
    (setGcDelayAndDumpDelay attrs st).gcDelayTime = 90000#32
      ∧ (setGcDelayAndDumpDelay attrs st).dumpDelayTime = 5000#32 := by
  have hst' : setGcDelayAndDumpDelay attrs st
      = setDumpDelay st.leakWatcherConfig.dumpHeapWaitTimeMs.toInt32
        (setGcDelay st.leakWatcherConfig.checkInterval.toInt32 st) := by
    refine if_neg ?_
    show ¬ acceptsDelays attrs = true
    rw [h]
    exact Bool.false_ne_true
  have hgc : minCheckInterval.toInt32 = 90000#32 := by decide +kernel
  have hdump : (JsNum.ofNat 5000).toInt32 = 5000#32 := by decide +kernel
  rw [hst', hst.interval, hst.wait]
  exact ⟨hgc, hdump⟩

-- ── What the validation loop accepts ──────────────────────────────────────────────

/-- Positions in range are closed downwards. -/
theorem inRange_mono {length : Option JsNum} {i j : Nat} (hij : i ≤ j)
    (hj : inRange length j = true) : inRange length i = true := by
  cases length with
  | none => exact nomatch hj
  | some n =>
      cases n with
      | nan => exact nomatch hj
      | negInf => exact nomatch hj
      | posInf => rfl
      | fin q =>
          have hlt : ((j : Nat) : Rat) < q := of_decide_eq_true hj
          have hle : ((i : Nat) : Rat) ≤ (j : Nat) := Nat.cast_le.mpr hij
          exact decide_eq_true (lt_of_le_of_lt hle hlt)

/-- The element at position `j` is one of the five names. -/
def ValidAt (items : List JsVal) (j : Nat) : Prop := ∃ v ∈ items[j]?, v ∈ validConfig

/-- The loop stops at the first item in its range that is no valid name. -/
theorem rejectsFrom_iff (length : Option JsNum) (items : List JsVal) :
    ∀ i, rejectsFrom length i items = true
      ↔ ∃ j, inRange length (i + j) = true ∧ ¬ ValidAt items j := by
  induction items with
  | nil =>
      intro i
      constructor
      · intro h
        exact ⟨0, h, fun ⟨v, hv, _⟩ => nomatch hv⟩
      · rintro ⟨j, hj, -⟩
        exact inRange_mono (Nat.le_add_right i j) hj
  | cons item items ih =>
      intro i
      show (if inRange length i = true then
          if item ∈ validConfig then rejectsFrom length (i + 1) items else true
        else false) = true ↔ _
      by_cases hi : inRange length i = true
      · rw [if_pos hi]
        by_cases hv : item ∈ validConfig
        · rw [if_pos hv, ih]
          constructor
          · rintro ⟨j, hj, hbad⟩
            refine ⟨j + 1, ?_, hbad⟩
            rw [Nat.add_comm j 1, ← Nat.add_assoc]
            exact hj
          · rintro ⟨j, hj, hbad⟩
            cases j with
            | zero => exact absurd ⟨item, rfl, hv⟩ hbad
            | succ j =>
                refine ⟨j, ?_, hbad⟩
                rw [Nat.add_assoc, Nat.add_comm 1 j]
                exact hj
        · rw [if_neg hv]
          refine iff_of_true rfl ⟨0, hi, ?_⟩
          rintro ⟨v, hmem, hvalid⟩
          obtain rfl : item = v := Option.some.inj hmem
          exact hv hvalid
      · rw [if_neg hi]
        refine iff_of_false (fun h => nomatch h) ?_
        rintro ⟨j, hj, -⟩
        exact hi (inRange_mono (Nat.le_add_right i j) hj)

/-- **The validation throws** exactly when some position below `configs.length` does not
    hold one of the five names. -/
theorem rejects_iff (configs : Configs) :
    rejects configs = true
      ↔ ∃ j, inRange configs.length j = true ∧ ¬ ValidAt configs.items j := by
  have h := rejectsFrom_iff configs.length configs.items 0
  simp only [Nat.zero_add] at h
  exact h

end WatcherConfig
