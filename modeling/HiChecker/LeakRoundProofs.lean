import HiChecker.TransitionProofs
import HiChecker.TraceProofs
import HiChecker.OrderedMapProofs
import HiChecker.WatcherConfigProofs

/-!
# Garbage-collection rounds in config-object mode

`startGCtask` and `startDumptask` of `js_leak_watcher.ts`, and the continuation of the
process-information promise between them. A round is spread over three moments that
the scheduler orders as it likes:

* the GC tick **captures** the watched objects in `currentLeakList` and asks for the
  process information;
* the **settlement** of that promise decides whether a full GC is forced, and writes
  `isGC` on most of its branches;
* the dump tick tests `isGC`, compares the capture with `duplicateLeakList`, and
  otherwise computes the surviving objects, records them, and dumps them if the
  process passes the thresholds.

The flag `isGC` and the list `duplicateLeakList` outlive the round, and both carry the
wrong thing over.

* **`suppressed_was_dumped`** — in runs where no dump tick records survivors that it
  then does not dump, the "no new leakage" exit is taken only on lists that were
  dumped before.
* **`dump_after_gc_iff`** — in every run, each computed list of survivors comes after a
  full GC of its own round exactly when it comes after a settlement, in that round,
  that writes `isGC`.
-/

namespace LeakRound

open Transition Trace JsValue OrderedMapLib WatcherConfig

-- ── Watched objects ───────────────────────────────────────────────────────────────

/-- `util.getHash(obj)`; `none` is the `null` that `startDumptask` tests for. -/
abbrev Hash := Option Int

/-- The record of a watched object (`objMsg`). -/
structure ObjMsg where
  hash : Hash
  name : String
  msg : String
deriving DecidableEq

/-- The type of `watchObjMap`. -/
abbrev WatchMap := OrderedMap Hash ObjMsg

/-- `getLeakList`: the values of the map, in its order. -/
def getLeakList (watchObjMap : WatchMap) : List ObjMsg := watchObjMap.values

/-- The hashes of a leak list, in order. -/
def hashes (leaks : List ObjMsg) : List Hash := leaks.map ObjMsg.hash

-- ── The state of the rounds ───────────────────────────────────────────────────────

/-- An entry of the process information. -/
structure ProcessInformation where
  processName : String
  state : Int
deriving DecidableEq

/-- The field `exists`: the empty array it starts with, or what `find` gave. -/
inductive Exists where
  | emptyArray
  | undefined
  | item (info : ProcessInformation)
deriving DecidableEq

/-- An empty array is truthy. -/
def Exists.truthy : Exists → Bool
  | .undefined => false
  | _ => true

/-- `appState.stateForeground`, and `appState.stateBackground`. -/
def stateForeground : Int := 1

def stateBackground : Int := 3

/-- The fields of `appState` that the rounds use. -/
structure AppState where
  /-- `none` after the promise resolved to `null` or `undefined` -/
  processInformation : Option (List ProcessInformation) := some []
  applicationState : Int := 2
  existing : Exists := .emptyArray
  currentLeakList : List ObjMsg := []
  duplicateLeakList : List ObjMsg := []
  intersection : List ObjMsg := []
  isGC : Bool := true

/-- The condition `processInformation && processInformation.length > 0 && exists`. -/
def AppState.processPresent (appState : AppState) : Bool :=
  match appState.processInformation with
  | none => false
  | some infos => decide (0 < infos.length) && appState.existing.truthy

/-- The comparison of a length with a threshold, which may be `undefined`. -/
def below (n : Nat) : Option JsNum → Bool
  | none => false
  | some threshold => (JsNum.ofNat n).lt threshold

/-- The two threshold tests of a round: `n` leaks are too few for the state. -/
def belowThreshold (config : LeakWatcherConfig) (n : Nat) (applicationState : Int) : Bool :=
  (below n config.fgLeakCountThreshold && applicationState = stateForeground)
    || (below n config.bgLeakCountThreshold && applicationState = stateBackground)

/-- How the promise of `getRunningProcessInformation` settles; `resolve none` is a
    resolution to `null` or `undefined`. -/
inductive Settlement where
  | resolve (data : Option (List ProcessInformation))
  | reject

/-- What a round does that a specification speaks of. -/
inductive Event where
  /-- `startGCtask` took `currentLeakList` -/
  | captured (hashes : List Hash)
  /-- a promise settled; `decides` when its branch writes `isGC` -/
  | settled (decides : Bool)
  /-- `ArkTools.forceFullGC()` -/
  | forceFullGC
  /-- `startDumptask` left with "No new leakage objects were added." -/
  | noNewLeakage (currentLeakList : List Hash)
  /-- `startDumptask` computed `intersection` -/
  | computed (intersection : List Hash)
  /-- `startDumptask` called `dumpInner` -/
  | dumpInner (intersection : List Hash)
deriving DecidableEq

-- ── The code of the rounds ────────────────────────────────────────────────────────

/-- `startGCtask`, up to the promise. -/
def startGCtask (watchObjMap : WatchMap) (appState : AppState) : AppState × List Event :=
  let leaks := getLeakList watchObjMap
  ({ appState with currentLeakList := leaks }, [.captured (hashes leaks)])

/-- The continuation of `startGCtask` when the promise settles. -/
def onSettled (st : Settings) (settlement : Settlement) (appState : AppState) :
    AppState × List Event :=
  match settlement with
  | .reject => ({ appState with isGC := false }, [])
  | .resolve none =>
      -- `find` on `null` throws, and the rejection handler runs
      ({ appState with processInformation := none, isGC := false }, [])
  | .resolve (some data) =>
      match data.find? (fun item => item.processName = st.bundleName) with
      | none =>
          ({ appState with processInformation := some data, existing := .undefined }, [])
      | some item =>
          let appState :=
            { appState with
              processInformation := some data
              existing := .item item
              applicationState := item.state }
          if belowThreshold st.leakWatcherConfig appState.currentLeakList.length
              appState.applicationState then
            ({ appState with isGC := false }, [])
          else ({ appState with isGC := true }, [.forceFullGC])

/-- The `every` of `startDumptask`; past the end of the second list its element is
    `undefined`, which ends the comparison. -/
def everyHash : List ObjMsg → List ObjMsg → Bool
  | [], _ => true
  | _ :: _, [] => false
  | item :: items, duplicate :: duplicates =>
      if item.hash = none ∨ duplicate.hash = none then false
      else decide (item.hash = duplicate.hash) && everyHash items duplicates

/-- `hashEqual`: as many, and each hash among the others. -/
def hashEqual (appState : AppState) : Bool :=
  decide (appState.currentLeakList.length = appState.duplicateLeakList.length)
    && everyHash appState.currentLeakList appState.duplicateLeakList

/-- The watched objects whose hash is in the capture. -/
def survivors (watchObjMap : WatchMap) (appState : AppState) : List ObjMsg :=
  (getLeakList watchObjMap).filter (fun item1 =>
    appState.currentLeakList.any (fun item2 => item2.hash = item1.hash))

/-- `startDumptask`; the boolean says whether it goes on to `dumpInner`. -/
def startDumptask (st : Settings) (watchObjMap : WatchMap) (appState : AppState) :
    AppState × Bool × List Event :=
  if !appState.isGC then (appState, false, [])
  else if hashEqual appState then
    (appState, false, [.noNewLeakage (hashes appState.currentLeakList)])
  else
    let intersection := survivors watchObjMap appState
    let appState :=
      { appState with intersection := intersection, duplicateLeakList := intersection }
    if appState.processPresent then
      if belowThreshold st.leakWatcherConfig intersection.length appState.applicationState then
        (appState, false, [.computed (hashes intersection)])
      else
        (appState, true, [.computed (hashes intersection), .dumpInner (hashes intersection)])
    else (appState, false, [.computed (hashes intersection)])

-- ── The machine of the rounds ─────────────────────────────────────────────────────

/-- The variables of the rounds, and the promises on their way. -/
structure Round where
  appState : AppState := {}
  settings : Settings := {}
  /-- promises that have not settled yet; they all have the same continuation -/
  pending : Nat := 0

/-- What moves the rounds: a configuration, a GC tick, a settled promise, a dump tick. -/
inductive Input where
  /-- a new session configures thresholds and names -/
  | configure (configs : ConfigObject) (bundleInfo : Option String)
  /-- a GC tick; `promised` unless `getRunningProcessInformation` throws -/
  | gcTick (watchObjMap : WatchMap) (promised : Bool)
  | settle (settlement : Settlement)
  | dumpTick (watchObjMap : WatchMap)

/-- The settlement takes a branch that writes `isGC`: every one but the branch on which
    the process itself is missing from the list. -/
def Settlement.decides (bundleName : String) : Settlement → Bool
  | .reject => true
  | .resolve none => true
  | .resolve (some data) => data.any (fun item => item.processName = bundleName)

/-- One step of the rounds. -/
def step (s : Round) : Input → Option (Round × List Event)
  | .configure configs bundleInfo =>
      some ({ s with settings := getCustomAttribute (.object configs none []) bundleInfo
                                   s.settings }, [])
  | .gcTick watchObjMap promised =>
      let task := startGCtask watchObjMap s.appState
      some ({ s with appState := task.1
                     pending := if promised then s.pending + 1 else s.pending }, task.2)
  | .settle settlement =>
      if s.pending = 0 then none
      else
        let task := onSettled s.settings settlement s.appState
        some ({ s with appState := task.1, pending := s.pending - 1 },
          .settled (settlement.decides s.settings.bundleName) :: task.2)
  | .dumpTick watchObjMap =>
      let task := startDumptask s.settings watchObjMap s.appState
      some ({ s with appState := task.1 }, task.2.2)

/-- The rounds of a process, from module load on. -/
def rounds : Machine Round Input Event := ⟨{}, step⟩

-- ── What a settlement and a dump tick can do ──────────────────────────────────────

/-- The process is missing from the list: `isGC` is not written. -/
theorem onSettled_of_missing {st : Settings} {data : List ProcessInformation}
    (h : data.find? (fun item => item.processName = st.bundleName) = none)
    (appState : AppState) :
    onSettled st (.resolve (some data)) appState
      = ({ appState with processInformation := some data, existing := .undefined }, []) := by
  simp only [onSettled, h]

/-- The process is in the list: the thresholds decide. -/
theorem onSettled_of_found {st : Settings} {data : List ProcessInformation}
    {item : ProcessInformation}
    (h : data.find? (fun item => item.processName = st.bundleName) = some item)
    (appState : AppState) :
    let found := { appState with processInformation := some data
                                 existing := .item item
                                 applicationState := item.state }
    onSettled st (.resolve (some data)) appState
      = if belowThreshold st.leakWatcherConfig appState.currentLeakList.length item.state then
          ({ found with isGC := false }, [])
        else ({ found with isGC := true }, [.forceFullGC]) := by
  simp only [onSettled, h]

/-- **A settlement**: it leaves the lists alone; it writes `isGC` exactly when it
    decides, and it forces a GC exactly when it decides for one. -/
theorem onSettled_spec (st : Settings) (settlement : Settlement) (appState : AppState) :
    ∃ appState' es, onSettled st settlement appState = (appState', es) ∧
      appState'.currentLeakList = appState.currentLeakList ∧
      appState'.duplicateLeakList = appState.duplicateLeakList ∧
      ((settlement.decides st.bundleName = true ∧ appState'.isGC = true
          ∧ es = [.forceFullGC])
        ∨ (settlement.decides st.bundleName = true ∧ appState'.isGC = false ∧ es = [])
        ∨ (settlement.decides st.bundleName = false ∧ appState'.isGC = appState.isGC
          ∧ es = [])) := by
  cases settlement with
  | reject => exact ⟨_, _, rfl, rfl, rfl, Or.inr (Or.inl ⟨rfl, rfl, rfl⟩)⟩
  | resolve data =>
      cases data with
      | none => exact ⟨_, _, rfl, rfl, rfl, Or.inr (Or.inl ⟨rfl, rfl, rfl⟩)⟩
      | some data =>
          cases hfind : data.find? (fun item => item.processName = st.bundleName) with
          | none =>
              have hdec : data.any (fun item => item.processName = st.bundleName) = false :=
                List.any_eq_false.mpr (List.find?_eq_none.mp hfind)
              exact ⟨_, _, onSettled_of_missing hfind appState, rfl, rfl,
                Or.inr (Or.inr ⟨hdec, rfl, rfl⟩)⟩
          | some item =>
              have hname := List.find?_some hfind
              have hdec : data.any (fun item => item.processName = st.bundleName) = true :=
                List.any_eq_true.mpr ⟨item, List.mem_of_find?_eq_some hfind, hname⟩
              have hrun := onSettled_of_found hfind appState
              by_cases hb : belowThreshold st.leakWatcherConfig
                  appState.currentLeakList.length item.state = true
              · exact ⟨_, _, hrun.trans (if_pos hb), rfl, rfl,
                  Or.inr (Or.inl ⟨hdec, rfl, rfl⟩)⟩
              · exact ⟨_, _, hrun.trans (if_neg hb), rfl, rfl, Or.inl ⟨hdec, rfl, rfl⟩⟩

/-- The process passes the gates between the survivors and `dumpInner`. -/
def reachesDump (st : Settings) (watchObjMap : WatchMap) (appState : AppState) : Bool :=
  appState.processPresent
    && !belowThreshold st.leakWatcherConfig (survivors watchObjMap appState).length
        appState.applicationState

/-- The state after the survivors were recorded. -/
def recorded (watchObjMap : WatchMap) (appState : AppState) : AppState :=
  { appState with
    intersection := survivors watchObjMap appState
    duplicateLeakList := survivors watchObjMap appState }

/-- The survivors, as the entries of the map whose hashes are in the capture. -/
theorem survivors_eq (watchObjMap : WatchMap) (appState : AppState) :
    survivors watchObjMap appState
      = (getLeakList watchObjMap).filter
          (fun objMsg => decide (objMsg.hash ∈ hashes appState.currentLeakList)) := by
  refine List.filter_congr (fun objMsg _ => ?_)
  rw [Bool.eq_iff_iff, List.any_eq_true, decide_eq_true_iff, hashes, List.mem_map]
  exact exists_congr (fun item => and_congr_right (fun _ => decide_eq_true_iff))

/-- Their hashes are those of the map that are in the capture. -/
theorem hashes_survivors (watchObjMap : WatchMap) (appState : AppState) :
    hashes (survivors watchObjMap appState)
      = (hashes (getLeakList watchObjMap)).filter
          (fun k => decide (k ∈ hashes appState.currentLeakList)) := by
  rw [survivors_eq]
  exact (List.filter_map (p := fun k => decide (k ∈ hashes appState.currentLeakList))).symm

/-- Past the two tests a dump tick records the survivors, and the gates decide. -/
theorem startDumptask_of_new {appState : AppState} (hgc : appState.isGC = true)
    (hne : hashEqual appState = false) (st : Settings) (watchObjMap : WatchMap) :
    startDumptask st watchObjMap appState
      = if reachesDump st watchObjMap appState then
          (recorded watchObjMap appState, true,
            [.computed (hashes (survivors watchObjMap appState)),
              .dumpInner (hashes (survivors watchObjMap appState))])
        else
          (recorded watchObjMap appState, false,
            [.computed (hashes (survivors watchObjMap appState))]) := by
  have hbody : startDumptask st watchObjMap appState
      = if appState.processPresent = true then
          if belowThreshold st.leakWatcherConfig (survivors watchObjMap appState).length
              appState.applicationState = true then
            (recorded watchObjMap appState, false,
              [.computed (hashes (survivors watchObjMap appState))])
          else (recorded watchObjMap appState, true,
            [.computed (hashes (survivors watchObjMap appState)),
              .dumpInner (hashes (survivors watchObjMap appState))])
        else (recorded watchObjMap appState, false,
          [.computed (hashes (survivors watchObjMap appState))]) := by
    refine (if_neg ?_).trans (if_neg ?_)
    · rw [hgc]
      exact Bool.false_ne_true
    · rw [hne]
      exact Bool.false_ne_true
  rw [hbody, reachesDump]
  cases appState.processPresent with
  | false => rfl
  | true =>
      cases belowThreshold st.leakWatcherConfig (survivors watchObjMap appState).length
          appState.applicationState with
      | true => rfl
      | false => rfl

/-- **A dump tick** does one of four things. -/
theorem startDumptask_cases (st : Settings) (watchObjMap : WatchMap) (appState : AppState) :
    (appState.isGC = false ∧ startDumptask st watchObjMap appState = (appState, false, []))
    ∨ (appState.isGC = true ∧ hashEqual appState = true ∧
        startDumptask st watchObjMap appState
          = (appState, false, [.noNewLeakage (hashes appState.currentLeakList)]))
    ∨ (appState.isGC = true ∧ hashEqual appState = false ∧
        reachesDump st watchObjMap appState = false ∧
        startDumptask st watchObjMap appState
          = (recorded watchObjMap appState, false,
              [.computed (hashes (survivors watchObjMap appState))]))
    ∨ (appState.isGC = true ∧ hashEqual appState = false ∧
        reachesDump st watchObjMap appState = true ∧
        startDumptask st watchObjMap appState
          = (recorded watchObjMap appState, true,
              [.computed (hashes (survivors watchObjMap appState)),
                .dumpInner (hashes (survivors watchObjMap appState))])) := by
  cases hgc : appState.isGC with
  | false =>
      refine Or.inl ⟨rfl, ?_⟩
      show (if (!appState.isGC) = true then _ else _) = _
      rw [hgc]
      rfl
  | true =>
      refine Or.inr ?_
      cases heq : hashEqual appState with
      | true =>
          refine Or.inl ⟨rfl, rfl, (if_neg ?_).trans (if_pos heq)⟩
          rw [hgc]
          exact Bool.false_ne_true
      | false =>
          refine Or.inr ?_
          rw [startDumptask_of_new hgc heq]
          cases reachesDump st watchObjMap appState with
          | false => exact Or.inl ⟨rfl, rfl, rfl, rfl⟩
          | true => exact Or.inr ⟨rfl, rfl, rfl, rfl⟩

/-- Lists the comparison calls equal carry the same hashes in the same order. -/
theorem hashes_eq_of_everyHash :
    ∀ {items duplicates : List ObjMsg}, items.length = duplicates.length →
      everyHash items duplicates = true → hashes items = hashes duplicates := by
  intro items
  induction items with
  | nil =>
      intro duplicates hlen _
      rw [List.length_eq_zero_iff.mp hlen.symm]
  | cons item items ih =>
      intro duplicates hlen h
      cases duplicates with
      | nil => exact nomatch hlen
      | cons duplicate duplicates =>
          by_cases hnull : item.hash = none ∨ duplicate.hash = none
          · exact absurd ((if_pos hnull).symm.trans h) Bool.false_ne_true
          · have hboth : (decide (item.hash = duplicate.hash)
                && everyHash items duplicates) = true := (if_neg hnull).symm.trans h
            obtain ⟨hhash, hrest⟩ := Bool.and_eq_true_iff.mp hboth
            have htail := ih (Nat.succ.inj hlen) hrest
            show item.hash :: hashes items = duplicate.hash :: hashes duplicates
            rw [of_decide_eq_true hhash, htail]

/-- Lists that compare equal have the same hashes. -/
theorem hashes_eq_of_hashEqual {appState : AppState} (h : hashEqual appState = true) :
    hashes appState.currentLeakList = hashes appState.duplicateLeakList := by
  obtain ⟨hlen, hevery⟩ := Bool.and_eq_true_iff.mp h
  exact hashes_eq_of_everyHash (of_decide_eq_true hlen) hevery

-- ── What a step can do ────────────────────────────────────────────────────────────

/-- The steps of the rounds, by what they do to the flag and the lists and emit. -/
inductive StepEffect (s : Round) : Input → Round → List Event → Prop where
  /-- a new configuration, or a dump tick that finds `isGC` down -/
  | idle {a : Input} {s' : Round} (app : s'.appState = s.appState) : StepEffect s a s' []
  | captured {a : Input} {s' : Round} {leaks : List Hash}
      (flag : s'.appState.isGC = s.appState.isGC)
      (dup : s'.appState.duplicateLeakList = s.appState.duplicateLeakList) :
      StepEffect s a s' [.captured leaks]
  | forced {a : Input} {s' : Round}
      (dup : s'.appState.duplicateLeakList = s.appState.duplicateLeakList) :
      StepEffect s a s' [.settled true, .forceFullGC]
  | declined {a : Input} {s' : Round} (flag : s'.appState.isGC = false)
      (dup : s'.appState.duplicateLeakList = s.appState.duplicateLeakList) :
      StepEffect s a s' [.settled true]
  /-- the process is not in the list: `isGC` stays what it was -/
  | undecided {a : Input} {s' : Round} (flag : s'.appState.isGC = s.appState.isGC)
      (dup : s'.appState.duplicateLeakList = s.appState.duplicateLeakList) :
      StepEffect s a s' [.settled false]
  | suppressed {a : Input} {s' : Round} (app : s'.appState = s.appState)
      (flag : s.appState.isGC = true) (equal : hashEqual s.appState = true) :
      StepEffect s a s' [.noNewLeakage (hashes s.appState.currentLeakList)]
  | withheld {watchObjMap : WatchMap} {s' : Round} (flag : s.appState.isGC = true)
      (differ : hashEqual s.appState = false)
      (gate : reachesDump s.settings watchObjMap s.appState = false)
      (app : s'.appState = recorded watchObjMap s.appState) :
      StepEffect s (.dumpTick watchObjMap) s'
        [.computed (hashes (survivors watchObjMap s.appState))]
  | dumped {watchObjMap : WatchMap} {s' : Round} (flag : s.appState.isGC = true)
      (differ : hashEqual s.appState = false)
      (gate : reachesDump s.settings watchObjMap s.appState = true)
      (app : s'.appState = recorded watchObjMap s.appState) :
      StepEffect s (.dumpTick watchObjMap) s'
        [.computed (hashes (survivors watchObjMap s.appState)),
          .dumpInner (hashes (survivors watchObjMap s.appState))]

/-- **Every step has one of these effects.** -/
theorem step_effect {s s' : Round} {a : Input} {es : List Event}
    (hs : step s a = some (s', es)) : StepEffect s a s' es := by
  cases a with
  | configure configs bundleInfo =>
      obtain ⟨rfl, rfl⟩ := Prod.mk.inj (Option.some.inj hs)
      exact .idle rfl
  | gcTick watchObjMap promised =>
      obtain ⟨rfl, rfl⟩ := Prod.mk.inj (Option.some.inj hs)
      exact .captured rfl rfl
  | settle settlement =>
      by_cases hp : s.pending = 0
      · exact nomatch (if_pos hp).symm.trans hs
      · obtain ⟨rfl, rfl⟩ := Prod.mk.inj (Option.some.inj ((if_neg hp).symm.trans hs))
        obtain ⟨appState', es, hrun, -, hdup, hcases⟩ :=
          onSettled_spec s.settings settlement s.appState
        rw [hrun]
        rcases hcases with ⟨hdec, -, rfl⟩ | ⟨hdec, hflag, rfl⟩ | ⟨hdec, hflag, rfl⟩
        · rw [hdec]
          exact .forced hdup
        · rw [hdec]
          exact .declined hflag hdup
        · rw [hdec]
          exact .undecided hflag hdup
  | dumpTick watchObjMap =>
      obtain ⟨rfl, rfl⟩ := Prod.mk.inj (Option.some.inj hs)
      rcases startDumptask_cases s.settings watchObjMap s.appState with
        ⟨-, hrun⟩ | ⟨hflag, hequal, hrun⟩ | ⟨hflag, hdiffer, hgate, hrun⟩
          | ⟨hflag, hdiffer, hgate, hrun⟩
      · rw [hrun]
        exact .idle rfl
      · rw [hrun]
        exact .suppressed rfl hflag hequal
      · rw [hrun]
        exact .withheld hflag hdiffer hgate rfl
      · rw [hrun]
        exact .dumped hflag hdiffer hgate rfl

-- ── No leak is suppressed unreported ──────────────────────────────────────────────

/-- The "no new leakage" exit with a non-empty list comes after a dump of that list. -/
def ReportedBefore : List Event → Event → Prop
  | pre, .noNewLeakage leaks => leaks ≠ [] → Event.dumpInner leaks ∈ pre
  | _, _ => True

/-- A dump tick that records survivors goes on to dump them. -/
def DumpsWhatItRecords : Round → Input → Prop
  | s, .dumpTick watchObjMap =>
      s.appState.isGC = true → hashEqual s.appState = false →
        survivors watchObjMap s.appState = []
          ∨ reachesDump s.settings watchObjMap s.appState = true
  | _, _ => True

instance : DecidableRel DumpsWhatItRecords
  | _, .configure _ _ => isTrue trivial
  | _, .gcTick _ _ => isTrue trivial
  | _, .settle _ => isTrue trivial
  | s, .dumpTick watchObjMap =>
      inferInstanceAs (Decidable (s.appState.isGC = true → hashEqual s.appState = false →
        survivors watchObjMap s.appState = []
          ∨ reachesDump s.settings watchObjMap s.appState = true))

/-- The recorded list is empty or was dumped. -/
def RecordedDumped (s : Round) (tr : List Event) : Prop :=
  s.appState.duplicateLeakList = []
    ∨ Event.dumpInner (hashes s.appState.duplicateLeakList) ∈ tr

/-- Emitting events keeps a dumped list dumped. -/
theorem RecordedDumped.append {s s' : Round} {tr : List Event} (h : RecordedDumped s tr)
    (hdup : s'.appState.duplicateLeakList = s.appState.duplicateLeakList)
    (es : List Event) : RecordedDumped s' (tr ++ es) := by
  rcases h with h | h
  · exact Or.inl (hdup.trans h)
  · refine Or.inr ?_
    rw [hdup]
    exact List.mem_append_left es h

/-- **The step lemma**: what is recorded was dumped, and every exit so far was right. -/
theorem suppression_step (s : Round) (tr : List Event) (a : Input) (s' : Round)
    (es : List Event) (hI : AtEach ReportedBefore tr ∧ RecordedDumped s tr)
    (hG : DumpsWhatItRecords s a) (hs : step s a = some (s', es)) :
    AtEach ReportedBefore (tr ++ es) ∧ RecordedDumped s' (tr ++ es) := by
  obtain ⟨hexits, hrec⟩ := hI
  have heffect := step_effect hs
  cases heffect with
  | idle app =>
      rw [List.append_nil]
      refine ⟨hexits, ?_⟩
      have h := hrec.append (congrArg AppState.duplicateLeakList app) []
      rwa [List.append_nil] at h
  | captured flag dup => exact ⟨atEach_snoc.mpr ⟨hexits, trivial⟩, hrec.append dup _⟩
  | forced dup =>
      refine ⟨?_, hrec.append dup _⟩
      rw [atEach_append_cons]
      exact atEach_snoc.mpr ⟨atEach_snoc.mpr ⟨hexits, trivial⟩, trivial⟩
  | declined flag dup => exact ⟨atEach_snoc.mpr ⟨hexits, trivial⟩, hrec.append dup _⟩
  | undecided flag dup => exact ⟨atEach_snoc.mpr ⟨hexits, trivial⟩, hrec.append dup _⟩
  | suppressed app flag equal =>
      refine ⟨atEach_snoc.mpr ⟨hexits, ?_⟩,
        hrec.append (congrArg AppState.duplicateLeakList app) _⟩
      -- the capture equals the recorded list, which was dumped
      intro hne
      rw [hashes_eq_of_hashEqual equal] at hne ⊢
      rcases hrec with hnil | hmem
      · rw [hnil] at hne
        exact absurd rfl hne
      · exact hmem
  | withheld flag differ gate app =>
      refine ⟨atEach_snoc.mpr ⟨hexits, trivial⟩, Or.inl ?_⟩
      rw [app]
      rcases hG flag differ with hnil | hdump
      · exact hnil
      · exact absurd (gate.symm.trans hdump) Bool.false_ne_true
  | dumped flag differ gate app =>
      refine ⟨?_, Or.inr ?_⟩
      · rw [atEach_append_cons]
        exact atEach_snoc.mpr ⟨atEach_snoc.mpr ⟨hexits, trivial⟩, trivial⟩
      · rw [app]
        exact List.mem_append_right tr (List.mem_cons_of_mem _ List.mem_cons_self)

/-- **No leak is suppressed unreported**, in every run in which each dump tick dumps the
    survivors it records: a non-empty list is only ever turned away as "no new
    leakage" after a dump of exactly that list. -/
theorem suppressed_was_dumped {s : Round} {tr : List Event}
    (hr : Run rounds DumpsWhatItRecords s tr) : AtEach ReportedBefore tr := by
  have hI : AtEach ReportedBefore tr ∧ RecordedDumped s tr :=
    Run.invariant ⟨atEach_nil _, Or.inl rfl⟩ suppression_step hr
  exact hI.1

/-- One watched page. -/
def watched : WatchMap :=
  OrderedMap.empty.set (some 1) { hash := some 1, name := "Page", msg := "" }

/-- The process, in the background. -/
def background : ProcessInformation := { processName := "app", state := stateBackground }

/-- A round that finds the process and dumps, and one with nothing new. -/
def dumpedRounds : List Input :=
  [.configure {} (some "app"),
    .gcTick watched true, .settle (.resolve (some [background])), .dumpTick watched,
    .gcTick watched true, .settle (.resolve (some [background])), .dumpTick watched]

theorem suppressed_was_dumped_twoRounds :
    ∃ tr, tr.getLast? = some (.noNewLeakage [some 1]) ∧ AtEach ReportedBefore tr := by
  obtain ⟨p, hp⟩ : ∃ p, exec rounds DumpsWhatItRecords dumpedRounds = some p := ⟨_, rfl⟩
  have hlast : p.2.getLast? = some (.noNewLeakage [some 1]) := by
    obtain rfl := Option.some.inj hp
    rfl
  exact ⟨p.2, hlast, suppressed_was_dumped (run_of_exec hp)⟩

/-- A round in which the process is missing records the page and does not dump it; the
    next round, in the background, turns it away as known. -/
theorem suppressed_unreported :
    ¬ ∀ (s : Round) (tr : List Event), Run rounds anyStep s tr →
      AtEach ReportedBefore tr := by
  intro h
  obtain ⟨s, hs⟩ : ∃ s, exec rounds anyStep
      [.configure {} (some "app"),
        .gcTick watched true, .settle (.resolve (some [])), .dumpTick watched,
        .gcTick watched true, .settle (.resolve (some [background])), .dumpTick watched]
      = some (s, [.captured [some 1], .settled false, .computed [some 1],
          .captured [some 1], .settled true, .forceFullGC] ++ [.noNewLeakage [some 1]]) :=
    ⟨_, rfl⟩
  have hlast := (atEach_snoc.mp (h s _ (run_of_exec hs))).2
  have hmem : Event.dumpInner [some 1] ∈ [Event.captured [some 1], .settled false,
      .computed [some 1], .captured [some 1], .settled true, .forceFullGC] :=
    hlast (List.cons_ne_nil _ _)
  exact absurd hmem (by decide)

-- ── A dump happens only after a GC of the same round ──────────────────────────────

/-- The start of a round. -/
def IsCapture (e : Event) : Prop := ∃ leaks, e = .captured leaks

/-- A list of survivors is computed only after an event `p` since the last capture. -/
def ComputedAfter (p : Event → Prop) : List Event → Event → Prop
  | pre, .computed _ => Since p IsCapture pre
  | _, _ => True

/-- A full GC. -/
def IsGC (e : Event) : Prop := e = .forceFullGC

/-- A settlement that writes `isGC`. -/
def IsDecision (e : Event) : Prop := e = .settled true

/-- While `isGC` is up, the GCs and the decisions of the current round go together. -/
def FlagTellsGC (s : Round) (tr : List Event) : Prop :=
  s.appState.isGC = true →
    (Since IsGC IsCapture tr ↔ Since IsDecision IsCapture tr)

/-- An event that is no GC, no decision and no capture keeps them together. -/
theorem FlagTellsGC.snoc {s s' : Round} {tr : List Event} (h : FlagTellsGC s tr)
    (hflag : s'.appState.isGC = s.appState.isGC) {e : Event} (hgc : ¬ IsGC e)
    (hdec : ¬ IsDecision e) (hcap : ¬ IsCapture e) :
    FlagTellsGC s' (tr ++ [e]) := by
  intro hup
  rw [since_snoc_other hgc hcap, since_snoc_other hdec hcap]
  exact h (hflag.symm.trans hup)

/-- Both readings of the trace, event by event. -/
def SameVerdict (pre : List Event) (e : Event) : Prop :=
  ComputedAfter IsGC pre e ↔ ComputedAfter IsDecision pre e

/-- **The step lemma**: the flag tells GCs from decisions, and both readings of the trace
    agree so far. -/
theorem dumpAfterGC_step (s : Round) (tr : List Event) (a : Input) (s' : Round)
    (es : List Event) (hI : AtEach SameVerdict tr ∧ FlagTellsGC s tr)
    (_ : anyStep s a) (hs : step s a = some (s', es)) :
    AtEach SameVerdict (tr ++ es) ∧ FlagTellsGC s' (tr ++ es) := by
  obtain ⟨hsame, hflag⟩ := hI
  have heffect := step_effect hs
  cases heffect with
  | idle app =>
      rw [List.append_nil]
      refine ⟨hsame, ?_⟩
      intro hup
      rw [app] at hup
      exact hflag hup
  | captured flag dup =>
      refine ⟨atEach_snoc.mpr ⟨hsame, Iff.rfl⟩, ?_⟩
      intro _
      rw [since_snoc, since_snoc]
      refine iff_of_false ?_ ?_
      · rintro (h | ⟨-, h⟩)
        · exact nomatch h
        · exact h ⟨_, rfl⟩
      · rintro (h | ⟨-, h⟩)
        · exact nomatch h
        · exact h ⟨_, rfl⟩
  | forced dup =>
      have hdec : ¬ IsDecision .forceFullGC := fun h => nomatch h
      have hcap : ¬ IsCapture .forceFullGC := fun ⟨_, h⟩ => nomatch h
      rw [List.append_cons]
      refine ⟨atEach_snoc.mpr ⟨atEach_snoc.mpr ⟨hsame, Iff.rfl⟩, Iff.rfl⟩, ?_⟩
      intro _
      refine iff_of_true (since_snoc.mpr (Or.inl rfl)) ?_
      rw [since_snoc_other hdec hcap]
      exact since_snoc.mpr (Or.inl rfl)
  | declined flag dup =>
      refine ⟨atEach_snoc.mpr ⟨hsame, Iff.rfl⟩, ?_⟩
      intro hup
      exact absurd (flag.symm.trans hup) Bool.false_ne_true
  | undecided flag dup =>
      exact ⟨atEach_snoc.mpr ⟨hsame, Iff.rfl⟩,
        hflag.snoc flag (fun h => nomatch h) (fun h => nomatch h) (fun ⟨_, h⟩ => nomatch h)⟩
  | suppressed app flag equal =>
      exact ⟨atEach_snoc.mpr ⟨hsame, Iff.rfl⟩,
        hflag.snoc (congrArg AppState.isGC app) (fun h => nomatch h) (fun h => nomatch h)
          (fun ⟨_, h⟩ => nomatch h)⟩
  | withheld flag differ gate app =>
      -- the flag was tested: it is up, so the invariant decides
      have hkeep : s'.appState.isGC = s.appState.isGC := by rw [app]; rfl
      exact ⟨atEach_snoc.mpr ⟨hsame, hflag flag⟩,
        hflag.snoc hkeep (fun h => nomatch h) (fun h => nomatch h)
          (fun ⟨_, h⟩ => nomatch h)⟩
  | dumped flag differ gate app =>
      have hkeep : s'.appState.isGC = s.appState.isGC := by rw [app]; rfl
      rw [List.append_cons]
      refine ⟨atEach_snoc.mpr ⟨atEach_snoc.mpr ⟨hsame, hflag flag⟩, Iff.rfl⟩, ?_⟩
      refine FlagTellsGC.snoc (s := s') ?_ rfl (fun h => nomatch h) (fun h => nomatch h)
        (fun ⟨_, h⟩ => nomatch h)
      exact hflag.snoc hkeep (fun h => nomatch h) (fun h => nomatch h)
        (fun ⟨_, h⟩ => nomatch h)

/-- **A dump happens only after a GC of the same round**, in a run, exactly when each
    computed list of survivors comes after a settlement of that round that writes
    `isGC`: the process information was refused, or came and lists the process. -/
theorem dump_after_gc_iff {s : Round} {tr : List Event} (hr : Run rounds anyStep s tr) :
    AtEach (ComputedAfter IsGC) tr ↔ AtEach (ComputedAfter IsDecision) tr := by
  have hI : AtEach SameVerdict tr ∧ FlagTellsGC s tr := by
    refine Run.invariant ⟨atEach_nil _, ?_⟩ dumpAfterGC_step hr
    intro _
    exact iff_of_false (not_since_nil _ _) (not_since_nil _ _)
  exact atEach_congr hI.1

theorem dump_after_gc_iff_twoRounds :
    ∃ tr, Event.dumpInner [some 1] ∈ tr
      ∧ (AtEach (ComputedAfter IsGC) tr ↔ AtEach (ComputedAfter IsDecision) tr) := by
  obtain ⟨p, hp⟩ : ∃ p, exec rounds anyStep dumpedRounds = some p := ⟨_, rfl⟩
  have hmem : Event.dumpInner [some 1] ∈ p.2 := by
    obtain rfl := Option.some.inj hp
    decide
  exact ⟨p.2, hmem, dump_after_gc_iff (run_of_exec hp)⟩

/-- The flag starts up: a dump tick that comes before the process information computes
    survivors that no GC was forced on. -/
theorem dump_without_gc :
    ¬ ∀ (s : Round) (tr : List Event), Run rounds anyStep s tr →
      AtEach (ComputedAfter IsGC) tr := by
  intro h
  obtain ⟨s, hs⟩ : ∃ s, exec rounds anyStep [.gcTick watched true, .dumpTick watched]
      = some (s, [.captured [some 1]] ++ [.computed [some 1]]) := ⟨_, rfl⟩
  have hlast := (atEach_snoc.mp (h s _ (run_of_exec hs))).2
  obtain ⟨pre, e, post, hsplit, rfl, -⟩ := hlast
  have hmem : Event.forceFullGC ∈ [Event.captured [some 1]] := by
    rw [hsplit]
    exact List.mem_append_right pre List.mem_cons_self
  exact absurd hmem (by decide)

end LeakRound
