import HiChecker.WatcherConfigProofs

/-!
# Configurations with attributes left out

A `LeakWatcherConfig` of the application may leave attributes out, as the one of
`JSLeakWatcherEarlyInit` does, and `leakWatcherConfig` has a default for each of
them. The six setters write what they find by different idioms: some test the
attribute before they use it, some assign it as it is, and the two delays are tested
together.

* **`Takes`** — an attribute left out has the effect of its default, and a value in
  range has its own.
* **`Completes`** — the effect of each attribute on the settings.
* **`delays_take_iff`** — when both delays take effect.
* **`completes_iff`** — when every attribute does.
-/

namespace Completion

open JsValue WatcherConfig

-- ── Attributes and their effects ──────────────────────────────────────────────────

/-- The default takes effect when the attribute is left out, and a value that is given
    when it is in range. -/
def Takes {α : Type} (attr : Option α) (fallback : α) (inRange effect : α → Prop) : Prop :=
  match attr with
  | none => effect fallback
  | some x => inRange x → effect x

/-- A finite number is `n`, up to its fraction. -/
def Truncates (x : JsNum) (n : Int) : Prop := ∃ q : Rat, x = .fin q ∧ q.floor = n

/-- The check interval reaches its minimum, and the dump is due before it ends. -/
def IntervalInRange (wait : BitVec 32) (x : JsNum) : Prop :=
  x.lt minCheckInterval = false ∧ (JsNum.ofNat wait.toNat).lt x = true

/-- The dump wait is positive and ends before the check interval does. -/
def WaitInRange (interval : BitVec 32) (x : JsNum) : Prop :=
  (JsNum.ofNat 0).lt x = true ∧ x.lt (JsNum.ofNat interval.toNat) = true

/-- `st'` has the effect of every attribute of the object `attrs`, with the defaults for
    those it leaves out. -/
structure Completes (attrs : ConfigObject) (st' : Settings) : Prop where
  /-- the tests `config & type` come out as for the type given -/
  types : Takes attrs.monitorObjectTypes monitorAll (fun _ => True) (fun x =>
    ∀ type, monitors (typeMask st'.leakWatcherConfig.monitorObjectTypes) type
      = monitors x.toInt32 type)
  /-- the tests `leakList.length < threshold` come out as for the threshold given -/
  foreground : Takes attrs.fgLeakCountThreshold (.ofNat 5) (fun _ => True) (fun x =>
    ∀ n, attrLt (some (.ofNat n)) st'.leakWatcherConfig.fgLeakCountThreshold
      = (JsNum.ofNat n).lt x)
  background : Takes attrs.bgLeakCountThreshold (.ofNat 1) (fun _ => True) (fun x =>
    ∀ n, attrLt (some (.ofNat n)) st'.leakWatcherConfig.bgLeakCountThreshold
      = (JsNum.ofNat n).lt x)
  /-- two files are kept for each dump -/
  stored : Takes attrs.maxStoredHeapDumps (.ofNat 10) (fun x => (JsNum.ofNat 0).lt x = true)
    (fun x => st'.maxFileNum = x.double)
  interval : Takes attrs.checkInterval minCheckInterval (IntervalInRange st'.dumpDelayTime)
    (fun x => Truncates x st'.gcDelayTime.toNat)
  wait : Takes attrs.dumpHeapWaitTimeMs (.ofNat 5000) (WaitInRange st'.gcDelayTime)
    (fun x => Truncates x st'.dumpDelayTime.toNat)
  exclusions : Takes attrs.exclusionList [] (fun _ => True)
    (fun items => st'.leakWatcherConfig.exclusionList = items)
  /-- the identifiers are those of custom components -/
  ids : Takes attrs.objectUniqueIDs []
    (fun _ =>
      monitors (typeMask st'.leakWatcherConfig.monitorObjectTypes) customComponent = true)
    (fun items => st'.leakWatcherConfig.objectUniqueIDs = items)

/-- The settings before an object is applied for the first time, `leakWatcherConfig` as
    it is initialised. -/
def initial (st : Settings) : Settings :=
  { st with leakWatcherConfig := {}, isConfigObj := true }

-- ── Numbers in 32 bits ────────────────────────────────────────────────────────────

/-- What lies between two natural numbers is finite. -/
theorem fin_of_lt_lt {m n : Nat} {x : JsNum} (hm : (JsNum.ofNat m).lt x = true)
    (hn : x.lt (.ofNat n) = true) : ∃ q : Rat, x = .fin q ∧ (m : Rat) < q ∧ q < n := by
  cases x with
  | nan => exact nomatch hm
  | negInf => exact nomatch hm
  | posInf => exact nomatch hn
  | fin q => exact ⟨q, rfl, of_decide_eq_true hm, of_decide_eq_true hn⟩

/-- What is above a natural number is not below it. -/
theorem not_lt_of_gt {m : Nat} {x : JsNum} (h : (JsNum.ofNat m).lt x = true) :
    x.lt (.ofNat m) = false := by
  cases x with
  | nan => exact nomatch h
  | negInf => exact nomatch h
  | posInf => rfl
  | fin q =>
      have hq : (m : Rat) < q := of_decide_eq_true h
      exact decide_eq_false (not_lt.mpr hq.le)

/-- A number above `m` that is not below 2³² is above every word. -/
theorem lt_of_large {m : Nat} {x : JsNum} (hm : (JsNum.ofNat m).lt x = true)
    (h : x.lt (.ofNat (2 ^ 32)) = false) (d : BitVec 32) :
    (JsNum.ofNat d.toNat).lt x = true := by
  cases x with
  | nan => exact nomatch hm
  | negInf => exact nomatch hm
  | posInf => rfl
  | fin q =>
      have hle : ((2 ^ 32 : Nat) : Rat) ≤ q := not_lt.mp (of_decide_eq_false h)
      have hd : ((d.toNat : Nat) : Rat) < (2 ^ 32 : Nat) := Nat.cast_lt.mpr d.isLt
      exact decide_eq_true (lt_of_lt_of_le hd hle)

/-- A number of 32 bits loses its fraction only. -/
theorem truncates_toInt32 {q : Rat} (h0 : 0 ≤ q) (h32 : q < 2 ^ 32) :
    Truncates (.fin q) (JsNum.fin q).toInt32.toNat := by
  have hnonneg : 0 ≤ q.floor := Rat.le_floor_iff.mpr (by exact_mod_cast h0)
  have hlt : q.floor < 2 ^ 32 := by
    have hle : ((q.floor : Int) : Rat) ≤ q := Rat.floor_le q
    exact_mod_cast lt_of_le_of_lt hle h32
  refine ⟨q, rfl, ?_⟩
  show q.floor = (((BitVec.ofInt 32 (if 0 ≤ q then q.floor else q.ceil)).toNat : Nat) : Int)
  rw [if_pos h0, BitVec.toNat_ofInt, Int.toNat_of_nonneg (Int.emod_nonneg _ (by decide))]
  exact (Int.emod_eq_of_lt hnonneg hlt).symm

/-- No number from 2³² on is one of 32 bits. -/
theorem not_truncates_of_large {x : JsNum} (h : x.lt (.ofNat (2 ^ 32)) = false)
    (d : BitVec 32) : ¬ Truncates x d.toNat := by
  rintro ⟨q, rfl, hfloor⟩
  have hle : ((2 ^ 32 : Nat) : Rat) ≤ q := not_lt.mp (of_decide_eq_false h)
  have hlarge : (2 : Int) ^ 32 ≤ q.floor := Rat.le_floor_iff.mpr (by exact_mod_cast hle)
  have hsmall := d.isLt
  omega

-- ── When the delays take effect ───────────────────────────────────────────────────

/-- The objects whose two delays take effect, those they leave out with the defaults. -/
def DelaysTake (attrs : ConfigObject) : Prop :=
  if acceptsDelays attrs then ∀ x ∈ attrs.checkInterval, x.lt (.ofNat (2 ^ 32)) = true
  else
    (∀ x ∈ attrs.checkInterval, IntervalInRange 5000#32 x → Truncates x 90000)
      ∧ (∀ y ∈ attrs.dumpHeapWaitTimeMs, WaitInRange 90000#32 y → Truncates y 5000)

/-- An attribute whose default is in effect takes effect when it says the same. -/
theorem takes_iff_of_fallback {α : Type} {attr : Option α} {fallback : α}
    {inRange effect : α → Prop} (h : effect fallback) :
    Takes attr fallback inRange effect ↔ ∀ x ∈ attr, inRange x → effect x := by
  cases attr with
  | none => exact iff_of_true h (fun x hx => nomatch hx)
  | some x =>
      constructor
      · intro htakes y hy
        obtain rfl := Option.some.inj hy
        exact htakes
      · exact fun hall => hall x rfl

/-- Two delays that pass the joint test take effect when the interval fits in 32 bits. -/
theorem delays_take_of_accepts {attrs : ConfigObject} {st' : Settings} {x y : JsNum}
    (hmin : minCheckInterval.lt x = true) (hlt : y.lt x = true)
    (hx : attrs.checkInterval = some x) (hy : attrs.dumpHeapWaitTimeMs = some y)
    (hgc : st'.gcDelayTime = x.toInt32) (hdump : st'.dumpDelayTime = y.toInt32) :
    (Takes attrs.checkInterval minCheckInterval (IntervalInRange st'.dumpDelayTime)
        (fun x => Truncates x st'.gcDelayTime.toNat)
      ∧ Takes attrs.dumpHeapWaitTimeMs (.ofNat 5000) (WaitInRange st'.gcDelayTime)
        (fun x => Truncates x st'.dumpDelayTime.toNat))
      ↔ x.lt (.ofNat (2 ^ 32)) = true := by
  rw [hx, hy, hgc, hdump]
  show ((IntervalInRange y.toInt32 x → Truncates x x.toInt32.toNat)
    ∧ (WaitInRange x.toInt32 y → Truncates y y.toInt32.toNat)) ↔ _
  constructor
  · rintro ⟨hinterval, -⟩
    cases hlarge : x.lt (.ofNat (2 ^ 32)) with
    | true => rfl
    | false =>
        -- an interval this long is in range whatever the wait, and no delay equals it
        refine absurd (hinterval ⟨?_, ?_⟩) (not_truncates_of_large hlarge x.toInt32)
        · exact not_lt_of_gt hmin
        · exact lt_of_large hmin hlarge y.toInt32
  · intro hsmall
    obtain ⟨q, rfl, hq, hq32⟩ := fin_of_lt_lt hmin hsmall
    have hpos : 0 ≤ q := le_trans (Nat.cast_nonneg _) hq.le
    refine ⟨fun _ => truncates_toInt32 hpos (by exact_mod_cast hq32), ?_⟩
    rintro ⟨hy0, -⟩
    cases y with
    | nan => exact nomatch hy0
    | negInf => exact nomatch hy0
    | posInf => exact nomatch hlt
    | fin r =>
        have hr0 : ((0 : Nat) : Rat) < r := of_decide_eq_true hy0
        have hr : r < q := of_decide_eq_true hlt
        refine truncates_toInt32 ?_ (lt_trans hr (by exact_mod_cast hq32))
        exact_mod_cast hr0.le

/-- **When the two delays take effect**, among the settings an object leaves. -/
theorem delays_take_iff {attrs : ConfigObject} {st st' : Settings}
    (hst : Fallbacks st.leakWatcherConfig) (h : Applied attrs st st') :
    (Takes attrs.checkInterval minCheckInterval (IntervalInRange st'.dumpDelayTime)
        (fun x => Truncates x st'.gcDelayTime.toNat)
      ∧ Takes attrs.dumpHeapWaitTimeMs (.ofNat 5000) (WaitInRange st'.gcDelayTime)
        (fun x => Truncates x st'.dumpDelayTime.toNat))
      ↔ DelaysTake attrs := by
  cases hacc : acceptsDelays attrs with
  | true =>
      obtain ⟨x, y, hx, hy, hmin, -, hlt⟩ := (acceptsDelays_iff attrs).mp hacc
      obtain ⟨hgc, hdump⟩ := delays_of_accepts st hacc hx hy
      rw [delays_take_of_accepts hmin hlt hx hy (h.gcDelay.trans hgc) (h.dumpDelay.trans hdump),
        DelaysTake, hacc, if_pos rfl, hx]
      constructor
      · intro hsmall x' hx'
        obtain rfl := Option.some.inj hx'
        exact hsmall
      · exact fun hall => hall x rfl
  | false =>
      obtain ⟨hgc, hdump⟩ := delays_of_not_accepts hst hacc
      rw [h.gcDelay, h.dumpDelay, hgc, hdump, DelaysTake, hacc, if_neg Bool.false_ne_true]
      have hminimum : Truncates minCheckInterval (90000#32).toNat :=
        ⟨_, rfl, Rat.floor_intCast 90000⟩
      have hdefault : Truncates (.ofNat 5000) (5000#32).toNat :=
        ⟨_, rfl, Rat.floor_intCast 5000⟩
      exact and_congr (takes_iff_of_fallback hminimum) (takes_iff_of_fallback hdefault)

-- ── The other attributes ──────────────────────────────────────────────────────────

variable {attrs : ConfigObject} {st st' : Settings}

/-- The types are written as they are: left out, they are none. -/
theorem types_take_iff (h : Applied attrs st st') :
    Takes attrs.monitorObjectTypes monitorAll (fun _ => True) (fun x =>
        ∀ type, monitors (typeMask st'.leakWatcherConfig.monitorObjectTypes) type
          = monitors x.toInt32 type)
      ↔ attrs.monitorObjectTypes ≠ none := by
  rw [h.types]
  cases attrs.monitorObjectTypes with
  | none =>
      refine iff_of_false ?_ (fun hne => hne rfl)
      intro hall
      exact absurd (hall customComponent) (by decide +kernel)
  | some x => exact iff_of_true (fun _ _ => rfl) nofun

/-- So is a threshold: left out, no number of leaks is below it. -/
theorem threshold_takes_iff {given written : Option JsNum} (h : written = given)
    {default : Nat} (hpos : 0 < default) :
    Takes given (.ofNat default) (fun _ => True) (fun x =>
        ∀ n, attrLt (some (.ofNat n)) written = (JsNum.ofNat n).lt x)
      ↔ given ≠ none := by
  rw [h]
  cases given with
  | none =>
      refine iff_of_false ?_ (fun hne => hne rfl)
      intro hall
      have hlt : (JsNum.ofNat 0).lt (.ofNat default) = true :=
        decide_eq_true (Nat.cast_lt.mpr hpos)
      exact absurd ((hall 0).trans hlt) Bool.false_ne_true
  | some x => exact iff_of_true (fun _ _ => rfl) nofun

/-- The number of dumps is tested before it is used. -/
theorem stored_takes (hst : Fallbacks st.leakWatcherConfig) (h : Applied attrs st st') :
    Takes attrs.maxStoredHeapDumps (.ofNat 10) (fun x => (JsNum.ofNat 0).lt x = true)
      (fun x => st'.maxFileNum = x.double) := by
  rw [h.saveAmount]
  cases hattr : attrs.maxStoredHeapDumps with
  | none =>
      simp only [setDumpFileSaveAmount, hattr, hst.stored]
      rfl
  | some x =>
      exact fun hpos => setDumpFileSaveAmount_of_pos hattr hpos st

/-- A list left out is empty. -/
theorem exclusions_take (h : Applied attrs st st') :
    Takes attrs.exclusionList [] (fun _ => True)
      (fun items => st'.leakWatcherConfig.exclusionList = items) := by
  rw [h.exclusions]
  cases attrs.exclusionList with
  | none => rfl
  | some items => exact fun _ => rfl

/-- The identifiers are read when custom components are monitored, and were none. -/
theorem ids_take (hids : st.leakWatcherConfig.objectUniqueIDs = [])
    (h : Applied attrs st st') :
    Takes attrs.objectUniqueIDs []
      (fun _ =>
        monitors (typeMask st'.leakWatcherConfig.monitorObjectTypes) customComponent = true)
      (fun items => st'.leakWatcherConfig.objectUniqueIDs = items) := by
  rw [h.ids, h.types, hids]
  cases attrs.objectUniqueIDs with
  | none => exact ite_self []
  | some items => exact fun hmonitored => if_pos hmonitored

/-- **When a configuration is completed**: for every object applied to the initial
    `leakWatcherConfig`, the types and both thresholds have to be given, and the two
    delays either pass their joint test, the interval below 2³², or keep to the defaults
    wherever they are in range. -/
theorem completes_iff (attrs : ConfigObject) (bundleInfo : Option String) (st : Settings) :
    Completes attrs (setLeakWatcherConfig attrs bundleInfo (initial st))
      ↔ attrs.monitorObjectTypes ≠ none ∧ attrs.fgLeakCountThreshold ≠ none
        ∧ attrs.bgLeakCountThreshold ≠ none ∧ DelaysTake attrs := by
  have hfallbacks : Fallbacks (initial st).leakWatcherConfig := ⟨rfl, rfl, rfl⟩
  have happlied := setLeakWatcherConfig_spec attrs bundleInfo (initial st)
  have hdelays := delays_take_iff hfallbacks happlied
  constructor
  · intro h
    refine ⟨(types_take_iff happlied).mp h.types, ?_, ?_, hdelays.mp ⟨h.interval, h.wait⟩⟩
    · exact (threshold_takes_iff happlied.foreground (by decide)).mp h.foreground
    · exact (threshold_takes_iff happlied.background (by decide)).mp h.background
  · rintro ⟨htypes, hforeground, hbackground, htake⟩
    constructor
    · exact (types_take_iff happlied).mpr htypes
    · exact (threshold_takes_iff happlied.foreground (by decide)).mpr hforeground
    · exact (threshold_takes_iff happlied.background (by decide)).mpr hbackground
    · exact stored_takes hfallbacks happlied
    · exact (hdelays.mpr htake).1
    · exact (hdelays.mpr htake).2
    · exact exclusions_take happlied
    · exact ids_take rfl happlied

/-- The object of `JSLeakWatcherEarlyInit` monitors every type, and its foreground
    threshold is `undefined`: no leak at all is not below it. -/
theorem earlyInit_incomplete :
    ¬ ∀ (attrs : ConfigObject) (bundleInfo : Option String) (st : Settings),
        Completes attrs (setLeakWatcherConfig attrs bundleInfo (initial st)) := by
  intro h
  have hcompletes := h { monitorObjectTypes := some monitorAll } none {}
  exact absurd (hcompletes.foreground 0) (by decide +kernel)

end Completion
