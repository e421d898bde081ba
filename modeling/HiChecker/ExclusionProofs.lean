import HiChecker.WatchMapProofs

/-!
# Excluded objects and the watch map

In config-object mode an object whose name is on the exclusion list is to stay out of
`watchObjMap`, unless its native ID is on the list of IDs. The test is made in each of
the monitors on its own, on the name that the monitor knows: the name of the window, of
the ability, or of the class.

* **`Entry`** — an object put into `watchObjMap`, with what was configured then.
* **`Barred`** — a monitor put it there although its name is excluded.
* **`barred_iff`** — the calls that do that: those of the native ArkUI callback, which
  tests no name, for an object that is excluded.
* **`excluded_never_enters`** — in a run without such calls, whatever state it starts
  from, no excluded object enters, and nothing else is in the map.
-/

namespace Exclusion

open Transition JsValue OrderedMapLib MapHistory WatcherConfig DumpFile Watcher WatchMap
open LeakRound (ObjMsg)

variable {Dir : Type} (plat : Platform Dir)

-- ── What enters the map ───────────────────────────────────────────────────────────

/-- An object that is put into `watchObjMap`. -/
structure Entry where
  obj : Obj
  msg : String
  /-- the name a monitor knows it by; an object given to `watch` has none -/
  name : Option String
  /-- the configuration in force -/
  settings : Settings

/-- What the map holds of it. -/
def Entry.objMsg (e : Entry) : ObjMsg := objMsgOf e.obj e.msg

/-- The name that the monitor behind a notification knows the object by. -/
def monitorName (obj : Obj) : Input Dir → Option String
  | .componentNotified _ _ => some obj.constructorName
  | .nativeNotified _ _ => some obj.constructorName
  | .windowDestroyed _ windowName => some windowName
  | .abilityDestroyed _ _ name => some name
  | _ => none

/-- What a step puts into the map. -/
def entries (w : World Dir) (a : Input Dir) : List Entry :=
  (registers plat w a).toList.map (fun r => ⟨r.1, r.2, monitorName r.1 a, w.settings⟩)

/-- In config-object mode, a monitor puts an object into the map whose name equals an
    entry of the exclusion list, ignoring case, and whose native ID is not listed. -/
structure Barred (toLowerCase : String → String) (e : Entry) : Prop where
  mode : e.settings.isConfigObj = true
  excluded : ∃ name ∈ e.name, ∃ item ∈ e.settings.leakWatcherConfig.exclusionList,
    toLowerCase item = toLowerCase name
  unlisted : ∀ id ∈ e.obj.nativeId, id ∉ e.settings.leakWatcherConfig.objectUniqueIDs

-- ── The tests of the monitors ─────────────────────────────────────────────────────

variable {plat}

theorem excludes_iff (toLowerCase : String → String) (config : LeakWatcherConfig)
    (name : String) : excludes toLowerCase config name = true
      ↔ ∃ item ∈ config.exclusionList, toLowerCase item = toLowerCase name := by
  simp only [excludes, List.any_eq_true, decide_eq_true_iff]

theorem includesId_eq_false_iff (config : LeakWatcherConfig) (id : Option JsNum) :
    includesId config id = false ↔ ∀ i ∈ id, i ∉ config.objectUniqueIDs := by
  cases id with
  | none => exact iff_of_true rfl (fun i hi => nomatch hi)
  | some j =>
      show decide (j ∈ config.objectUniqueIDs) = false ↔ _
      rw [decide_eq_false_iff_not]
      constructor
      · intro hj i hi
        obtain rfl := Option.some.inj hi
        exact hj
      · exact fun hall => hall j rfl

/-- An object found by a monitor is barred when the tests say so. -/
theorem barred_found_iff (toLowerCase : String → String) (obj : Obj) (msg name : String)
    (st : Settings) : Barred toLowerCase ⟨obj, msg, some name, st⟩
      ↔ st.isConfigObj = true ∧ excludes toLowerCase st.leakWatcherConfig name = true
        ∧ includesId st.leakWatcherConfig obj.nativeId = false := by
  rw [excludes_iff, includesId_eq_false_iff]
  constructor
  · rintro ⟨hmode, ⟨name', hname, hitem⟩, hid⟩
    obtain rfl := Option.some.inj hname
    exact ⟨hmode, hitem, hid⟩
  · rintro ⟨hmode, hitem, hid⟩
    exact ⟨hmode, ⟨name, rfl, hitem⟩, hid⟩

/-- The component callback refuses what is excluded. -/
theorem refused_of_excludes {toLowerCase : String → String} {config : LeakWatcherConfig}
    {obj : Obj} (hname : excludes toLowerCase config obj.constructorName = true)
    (hid : includesId config obj.nativeId = false) :
    monitorLeakIDandWhitelist toLowerCase config obj = true := by
  simp only [monitorLeakIDandWhitelist, hname, hid]
  exact ite_self true

-- ── The monitor without a test ────────────────────────────────────────────────────

variable (plat)

/-- The native ArkUI callback runs for an object that is excluded. -/
def slips (w : World Dir) : Input Dir → Bool
  | .nativeNotified _ (some (some obj)) =>
      w.handler.callbackRef && w.settings.isConfigObj
        && excludes plat.toLowerCase w.settings.leakWatcherConfig obj.constructorName
        && !includesId w.settings.leakWatcherConfig obj.nativeId
  | _ => false

/-- An entry is the object that is registered. -/
theorem mem_entries {w : World Dir} {a : Input Dir} {e : Entry} :
    e ∈ entries plat w a ↔ ∃ obj msg, registers plat w a = some (obj, msg)
      ∧ e = ⟨obj, msg, monitorName obj a, w.settings⟩ := by
  simp only [entries, List.mem_map, Option.mem_toList]
  constructor
  · rintro ⟨⟨obj, msg⟩, hreg, rfl⟩
    exact ⟨obj, msg, hreg, rfl⟩
  · rintro ⟨obj, msg, hreg, rfl⟩
    exact ⟨(obj, msg), hreg, rfl⟩

/-- A monitor that registers an object unless the mode is on and its test holds puts
    nothing barred into the map, when the test holds of what is excluded. -/
theorem not_barred_of_tested {w : World Dir} {a : Input Dir} {obj : Obj} {msg name : String}
    {refuses : Bool}
    (hreg : registers plat w a
      = if w.settings.isConfigObj && refuses then none else some (obj, msg))
    (hname : monitorName obj a = some name)
    (htest : excludes plat.toLowerCase w.settings.leakWatcherConfig name = true →
      includesId w.settings.leakWatcherConfig obj.nativeId = false → refuses = true) :
    ∀ e ∈ entries plat w a, ¬ Barred plat.toLowerCase e := by
  intro e he hbarred
  obtain ⟨obj', msg', hreg', rfl⟩ := (mem_entries plat).mp he
  rw [hreg] at hreg'
  obtain ⟨hpass, hsome⟩ := Option.ite_none_left_eq_some.mp hreg'
  obtain ⟨rfl, rfl⟩ := Prod.mk.inj (Option.some.inj hsome)
  rw [hname, barred_found_iff] at hbarred
  obtain ⟨hmode, hexcluded, hid⟩ := hbarred
  refine hpass ?_
  rw [hmode, htest hexcluded hid]
  rfl

/-- Where nothing is registered, nothing barred is. -/
theorem not_barred_of_none {w : World Dir} {a : Input Dir} (h : registers plat w a = none) :
    ∀ e ∈ entries plat w a, ¬ Barred plat.toLowerCase e := by
  intro e he
  obtain ⟨_, _, hreg, -⟩ := (mem_entries plat).mp he
  exact absurd (h.symm.trans hreg) (Option.some_ne_none _).symm

/-- The native ArkUI callback tests nothing. -/
theorem barred_of_native (w : World Dir) (uiContext : Nat) (obj : Obj) :
    (∃ e ∈ entries plat w (.nativeNotified uiContext (some (some obj))),
        Barred plat.toLowerCase e)
      ↔ slips plat w (.nativeNotified uiContext (some (some obj))) = true := by
  simp only [slips, Bool.and_eq_true_iff, Bool.not_eq_true']
  constructor
  · rintro ⟨e, he, hbarred⟩
    obtain ⟨obj', msg, hreg, rfl⟩ := (mem_entries plat).mp he
    obtain ⟨href, hsome⟩ := Option.ite_none_right_eq_some.mp hreg
    obtain ⟨rfl, rfl⟩ := Prod.mk.inj (Option.some.inj hsome)
    obtain ⟨hmode, hexcluded, hid⟩ := (barred_found_iff _ _ _ _ _).mp hbarred
    exact ⟨⟨⟨href, hmode⟩, hexcluded⟩, hid⟩
  · rintro ⟨⟨⟨href, hmode⟩, hexcluded⟩, hid⟩
    refine ⟨⟨obj, "", some obj.constructorName, w.settings⟩, ?_, ?_⟩
    · exact (mem_entries plat).mpr ⟨obj, "", if_pos href, rfl⟩
    · exact (barred_found_iff _ _ _ _ _).mpr ⟨hmode, hexcluded, hid⟩

/-- **The step lemma**: which steps put a barred object into the map. -/
theorem barred_iff (w : World Dir) (a : Input Dir) :
    (∃ e ∈ entries plat w a, Barred plat.toLowerCase e) ↔ slips plat w a = true := by
  have hnot : (∀ e ∈ entries plat w a, ¬ Barred plat.toLowerCase e) → slips plat w a = false →
      ((∃ e ∈ entries plat w a, Barred plat.toLowerCase e) ↔ slips plat w a = true) := by
    intro hall hslips
    refine iff_of_false (fun ⟨e, he, hbarred⟩ => hall e he hbarred) ?_
    rw [hslips]
    exact Bool.false_ne_true
  cases a with
  | watch obj msg =>
      -- `watch` is no monitor: it knows no name
      refine hnot ?_ rfl
      rintro e he ⟨-, ⟨name, hname, -⟩, -⟩
      obtain ⟨_, _, -, rfl⟩ := (mem_entries plat).mp he
      exact nomatch hname
  | componentNotified weakRef msg =>
      refine hnot ?_ rfl
      cases weakRef with
      | none => exact not_barred_of_none plat rfl
      | some obj =>
          cases obj with
          | none => exact not_barred_of_none plat rfl
          | some obj => exact not_barred_of_tested plat rfl rfl refused_of_excludes
  | nativeNotified uiContext weakRef =>
      cases weakRef with
      | none => exact hnot (not_barred_of_none plat rfl) rfl
      | some obj =>
          cases obj with
          | none => exact hnot (not_barred_of_none plat rfl) rfl
          | some obj => exact barred_of_native plat w uiContext obj
  | windowDestroyed obj windowName =>
      refine hnot ?_ rfl
      cases obj with
      | none => exact not_barred_of_none plat rfl
      | some obj => exact not_barred_of_tested plat rfl rfl (fun hexcluded _ => hexcluded)
  | abilityDestroyed id ability name =>
      exact hnot (not_barred_of_tested plat rfl rfl (fun hexcluded _ => hexcluded)) rfl
  | _ => exact hnot (not_barred_of_none plat rfl) rfl

-- ── Along a run ───────────────────────────────────────────────────────────────────

variable [DecidableEq Dir]

/-- The watcher from the state `w₀` on, seen through what it puts into the map. -/
def entering (w₀ : World Dir) : Machine (World Dir) (Input Dir) Entry :=
  Machine.observing (ε := Event) ⟨w₀, step plat⟩ (entries plat)

/-- The call does not get an excluded object past its monitor. -/
def Tested (w : World Dir) (a : Input Dir) : Prop := slips plat w a = false

instance : DecidableRel (Tested plat) :=
  fun w a => inferInstanceAs (Decidable (slips plat w a = false))

/-- What a step leaves in the map was there before or has entered. -/
theorem entered_of_step {w w' : World Dir} {a : Input Dir} {es : List Event}
    (hs : step plat w a = some (w', es)) {k : LeakRound.Hash} {objMsg : ObjMsg}
    (hget : w'.watchObjMap.get k = some objMsg) :
    w.watchObjMap.get k = some objMsg
      ∨ ∃ e ∈ entries plat w a, e.obj.hash = k ∧ e.objMsg = objMsg := by
  rw [step_map plat hs] at hget
  rcases get_foldl hget with hput | hbefore
  · right
    simp only [mapOps] at hput
    cases hclears : clears plat w a with
    | true =>
        rw [hclears, if_pos rfl] at hput
        cases List.mem_singleton.mp hput
    | false =>
        rw [hclears, if_neg Bool.false_ne_true] at hput
        rcases List.mem_append.mp hput with hdrop | hreg
        · obtain ⟨_, -, heq⟩ := List.mem_map.mp hdrop
          cases heq
        · obtain ⟨⟨obj, msg⟩, hmem, heq⟩ := List.mem_map.mp hreg
          obtain ⟨rfl, rfl⟩ := Op.put.inj heq
          have hregisters : registers plat w a = some (obj, msg) := Option.mem_toList.mp hmem
          exact ⟨_, (mem_entries plat).mpr ⟨obj, msg, hregisters, rfl⟩, rfl, rfl⟩
  · exact Or.inl hbefore

/-- Nothing barred has entered, and what is in the map has entered or was there. -/
structure KeptOut (w₀ w : World Dir) (tr : List Entry) : Prop where
  clean : ∀ e ∈ tr, ¬ Barred plat.toLowerCase e
  entered : ∀ k objMsg, w.watchObjMap.get k = some objMsg →
    w₀.watchObjMap.get k = some objMsg ∨ ∃ e ∈ tr, e.obj.hash = k ∧ e.objMsg = objMsg

/-- A step that is tested keeps excluded objects out. -/
theorem keptOut_step {w₀ w w' : World Dir} {tr : List Entry} {a : Input Dir} {es : List Event}
    (h : KeptOut plat w₀ w tr) (htested : Tested plat w a)
    (hs : step plat w a = some (w', es)) : KeptOut plat w₀ w' (tr ++ entries plat w a) := by
  constructor
  · intro e he hbarred
    rcases List.mem_append.mp he with hold | hnew
    · exact h.clean e hold hbarred
    · have hslips := (barred_iff plat w a).mp ⟨e, hnew, hbarred⟩
      exact Bool.false_ne_true (htested.symm.trans hslips)
  · intro k objMsg hget
    rcases entered_of_step plat hs hget with hbefore | ⟨e, he, hentry⟩
    · rcases h.entered k objMsg hbefore with hstart | ⟨e, he, hentry⟩
      · exact Or.inl hstart
      · exact Or.inr ⟨e, List.mem_append_left _ he, hentry⟩
    · exact Or.inr ⟨e, List.mem_append_right _ he, hentry⟩

variable {plat}

/-- **No excluded object enters the map**, in any run, from any state, in which the native
    ArkUI callback is not called for one: whatever the map holds that it did not hold at
    the start is an object that has entered, and none of those is barred. -/
theorem excluded_never_enters {w₀ w : World Dir} {tr : List Entry}
    (hr : Run (entering plat w₀) (Tested plat) w tr) :
    (∀ e ∈ tr, ¬ Barred plat.toLowerCase e)
      ∧ ∀ k objMsg, w.watchObjMap.get k = some objMsg →
          w₀.watchObjMap.get k = some objMsg
            ∨ ∃ e ∈ tr, e.obj.hash = k ∧ e.objMsg = objMsg ∧ ¬ Barred plat.toLowerCase e := by
  have hkept : KeptOut plat w₀ w tr := by
    refine Run.invariant (I := KeptOut plat w₀) ?_ ?_ hr
    · exact ⟨fun e he => absurd he List.not_mem_nil, fun _ _ hget => Or.inl hget⟩
    · intro w tr a w' es h htested hs
      obtain ⟨⟨events, hstep⟩, rfl⟩ := Machine.observing_step hs
      exact keptOut_step plat h htested hstep
  refine ⟨hkept.clean, ?_⟩
  intro k objMsg hget
  rcases hkept.entered k objMsg hget with hstart | ⟨e, he, hhash, hmsg⟩
  · exact Or.inl hstart
  · exact Or.inr ⟨e, he, hhash, hmsg, hkept.clean e he⟩

/-- Every type is monitored, and the class `Chart` is excluded. -/
def withoutCharts : ConfigObject :=
  { monitorObjectTypes := some monitorAll, exclusionList := some ["Chart"] }

def chart : Obj := { hash := some 9, constructorName := "Chart" }

/-- The start of the watcher with that configuration. -/
def startWithoutCharts : Input String :=
  .enableLeakWatcher plainSurroundings (.bool true) (.object withoutCharts none []) (.obj 1)

/-- A chart and a window named `chart` are refused, and a page that the native callback
    finds is recorded. -/
theorem excluded_never_enters_charts :
    ∃ w tr, Run (entering plainPlatform (watcher plainPlatform DumpIdentity.noFiles).init)
        (Tested plainPlatform) w tr
      ∧ tr.map Entry.objMsg = [objMsgOf (page 8) ""]
      ∧ ∀ e ∈ tr, ¬ Barred plainPlatform.toLowerCase e := by
  have hexec : (exec (entering plainPlatform (watcher plainPlatform DumpIdentity.noFiles).init)
      (Tested plainPlatform)
      [startWithoutCharts, .componentNotified (some (some chart)) "",
        .windowDestroyed (some (page 7)) "chart", .nativeNotified 1 (some (some (page 8)))]).map
      (fun p => p.2.map Entry.objMsg) = some [objMsgOf (page 8) ""] := by decide +kernel
  obtain ⟨p, hp, hentries⟩ := Option.map_eq_some_iff.mp hexec
  exact ⟨p.1, p.2, run_of_exec hp, hentries, (excluded_never_enters (run_of_exec hp)).1⟩

/-- A chart that the native callback finds is recorded. -/
theorem excluded_enters :
    ¬ ∀ (w₀ w : World String) (tr : List Entry),
        Run (entering plainPlatform w₀) anyStep w tr →
        ∀ e ∈ tr, ¬ Barred plainPlatform.toLowerCase e := by
  intro h
  obtain ⟨p, hp⟩ : ∃ p,
      exec (entering plainPlatform (watcher plainPlatform DumpIdentity.noFiles).init) anyStep
        [startWithoutCharts, .nativeNotified 1 (some (some chart))] = some p := ⟨_, rfl⟩
  have hentry : (⟨chart, "", some "Chart", p.1.settings⟩ : Entry) ∈ p.2 := by
    obtain rfl := Option.some.inj hp
    exact List.mem_singleton_self _
  refine h _ p.1 p.2 (run_of_exec hp) _ hentry ⟨?_, ⟨"Chart", rfl, "Chart", ?_, rfl⟩, ?_⟩
  · obtain rfl := Option.some.inj hp
    rfl
  · obtain rfl := Option.some.inj hp
    exact List.mem_singleton_self _
  · exact fun id hid => nomatch hid

end Exclusion
