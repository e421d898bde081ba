import HiChecker.WatcherProofs

/-!
# What a step does to the leak lists

The rounds keep three lists in `appState`: `currentLeakList`, taken by the GC tick, and
`intersection` and `duplicateLeakList`, taken together by a dump tick that is executed and
finds something new. Everything else that happens leaves them alone.

* **`gcTicks`**, **`dumpTicks`** — the steps that are such ticks, read off the input and the
  state before them.
* **`step_lists`** — after any step of the watcher, a list is as it was, or what the tick
  took from the map.
-/

namespace LeakLists

open Transition JsValue OrderedMapLib WatcherConfig DumpFile TimerQueue Watcher
open LeakRound (WatchMap AppState getLeakList survivors startDumptask onSettled hashEqual)

variable {Dir : Type} (plat : Platform Dir)

-- ── The ticks ─────────────────────────────────────────────────────────────────────

/-- The event that a step delivers to a handler that is running. -/
def eventDue (w : World Dir) : Input Dir → Option EventId
  | .deliver _ i =>
      if w.handler.isRunning then (deliver w.now w.queue i).map (fun d => d.1.event) else none
  | _ => none

/-- The event of a delivery is due when the handler runs. -/
theorem eventDue_deliver {w : World Dir} {i : Nat} {t : Timer EventId}
    {queue : List (Timer EventId)} (h : deliver w.now w.queue i = some (t, queue))
    (out : Surroundings) :
    eventDue w (.deliver out i) = if w.handler.isRunning then some t.event else none := by
  simp only [eventDue, h, Option.map_some]

/-- The step is a GC tick in config-object mode: its closure is there, and the event is due. -/
def gcTicks (w : World Dir) (a : Input Dir) : Bool :=
  w.settings.isConfigObj && w.handler.gcFuncRef.isSome
    && decide (eventDue w a = some .gcEvent)

/-- The step is a dump tick in config-object mode, the round has found `isGC`, and what was
    captured is not what was recorded. -/
def dumpTicks (w : World Dir) (a : Input Dir) : Bool :=
  w.settings.isConfigObj && w.handler.dumpFuncRef.isSome
    && decide (eventDue w a = some .dumpEvent) && w.appState.isGC && !hashEqual w.appState

-- ── What a step does to the lists ─────────────────────────────────────────────────

/-- The lists after a step on a map: as they were, or taken from it. -/
structure ListsAfter (watchObjMap : WatchMap) (appState appState' : AppState)
    (captures records : Bool) : Prop where
  current : appState'.currentLeakList
    = if captures then getLeakList watchObjMap else appState.currentLeakList
  intersection : appState'.intersection
    = if records then survivors watchObjMap appState else appState.intersection
  duplicate : appState'.duplicateLeakList
    = if records then survivors watchObjMap appState else appState.duplicateLeakList

/-- A step that leaves the lists alone. -/
theorem listsAfter_same {appState appState' : AppState} (watchObjMap : WatchMap)
    (h : appState' = appState) : ListsAfter watchObjMap appState appState' false false := by
  rw [h]
  exact ⟨rfl, rfl, rfl⟩

/-- A settled promise leaves `intersection` alone. -/
theorem onSettled_intersection (st : Settings) (settlement : LeakRound.Settlement)
    (appState : AppState) :
    (onSettled st settlement appState).1.intersection = appState.intersection := by
  cases settlement with
  | reject => rfl
  | resolve data =>
      cases data with
      | none => rfl
      | some data =>
          simp only [onSettled]
          split
          · rfl
          · split
            · rfl
            · rfl

/-- A start, a stop and a refused call leave the rounds and the waiting dumps as they are. -/
theorem enableLeakWatcher_rounds (out : Surroundings) (isEnabled : JsVal) (configs : Configs)
    (callback : JsVal) (w : World Dir) :
    (enableLeakWatcher plat out isEnabled configs callback w).1.appState = w.appState
      ∧ (enableLeakWatcher plat out isEnabled configs callback w).1.outstanding
        = w.outstanding := by
  have hout := enableLeakWatcher_outcome plat out isEnabled configs callback w
  generalize enableLeakWatcher plat out isEnabled configs callback w = result at hout ⊢
  cases hout with
  | refused _ t => exact ⟨rfl, rfl⟩
  | stopped _ =>
      obtain ⟨_, _, _, heq⟩ := shutdown_frame plat out { w with enabled := isEnabled }
      rw [heq]
      exact ⟨rfl, rfl⟩
  | rejected _ _ _ => exact ⟨rfl, rfl⟩
  | idle _ _ t _ => exact ⟨rfl, rfl⟩
  | started _ =>
      obtain ⟨_, _, _, _, _, heq⟩ := executeRegister_frame plat out
        (typeMask (arm out configs callback
          (configured out isEnabled configs w)).settings.leakWatcherConfig.monitorObjectTypes)
        (arm out configs callback (configured out isEnabled configs w))
      rw [launch, heq]
      exact ⟨rfl, rfl⟩

/-- A dump tick takes the two lists exactly when it is executed and finds something new. -/
theorem startDumptask_lists (st : Settings) (watchObjMap : WatchMap) (appState : AppState) :
    ListsAfter watchObjMap appState (startDumptask st watchObjMap appState).1 false
      (appState.isGC && !hashEqual appState) := by
  rcases LeakRound.startDumptask_cases st watchObjMap appState with
    ⟨hgc, h⟩ | ⟨hgc, hequal, h⟩ | ⟨hgc, hequal, -, h⟩ | ⟨hgc, hequal, -, h⟩
  · rw [h, hgc]
    exact ⟨rfl, rfl, rfl⟩
  · rw [h, hgc, hequal]
    exact ⟨rfl, rfl, rfl⟩
  · rw [h, hgc, hequal]
    exact ⟨rfl, rfl, rfl⟩
  · rw [h, hgc, hequal]
    exact ⟨rfl, rfl, rfl⟩

/-- A settled promise takes neither list. -/
theorem onSettled_lists (st : Settings) (settlement : LeakRound.Settlement)
    (watchObjMap : WatchMap) (appState : AppState) :
    ListsAfter watchObjMap appState (onSettled st settlement appState).1 false false := by
  have hintersection := onSettled_intersection st settlement appState
  obtain ⟨appState', es, hrun, hcurrent, hduplicate, -⟩ :=
    LeakRound.onSettled_spec st settlement appState
  rw [hrun] at hintersection ⊢
  exact ⟨hcurrent, hintersection, hduplicate⟩

/-- The GC closure takes the capture in config-object mode. -/
theorem gcTask_lists (out : Surroundings) (tick : Tick) (task : GcTask) (w : World Dir) :
    ListsAfter w.watchObjMap w.appState (gcTask plat out tick task w).1.appState
      w.settings.isConfigObj false := by
  obtain ⟨_, _, _, _, _, _, heq⟩ := retryRegister_frame plat out w
  have hmap : (retryRegister plat out w).watchObjMap = w.watchObjMap := by
    rw [heq]
  have happ : (retryRegister plat out w).appState = w.appState := by
    rw [heq]
  have hmode : (retryRegister plat out w).settings.isConfigObj = w.settings.isConfigObj := by
    rw [heq]
  simp only [gcTask]
  rw [hmode]
  cases w.settings.isConfigObj with
  | true =>
      rw [if_pos rfl, hmap, happ]
      exact ⟨rfl, rfl, rfl⟩
  | false =>
      rw [if_neg Bool.false_ne_true, happ]
      exact ⟨rfl, rfl, rfl⟩

variable [DecidableEq Dir]

/-- The dump closure takes the survivors in config-object mode. -/
theorem dumpTask_lists (out : Surroundings) (task : DumpTask) (w : World Dir) :
    ListsAfter w.watchObjMap w.appState (dumpTask plat out task w).1.appState false
      (w.settings.isConfigObj && (w.appState.isGC && !hashEqual w.appState)) := by
  have hround := startDumptask_lists w.settings w.watchObjMap w.appState
  simp only [dumpTask]
  cases w.settings.isConfigObj with
  | true =>
      rw [if_pos rfl]
      split
      · exact hround
      · exact hround
  | false =>
      rw [if_neg Bool.false_ne_true]
      split
      · exact listsAfter_same _ rfl
      · exact listsAfter_same _ rfl

/-- **A delivery** takes the lists as its event says. -/
theorem deliver_lists {w : World Dir} {out : Surroundings} {i : Nat} {t : Timer EventId}
    {queue : List (Timer EventId)} (h : deliver w.now w.queue i = some (t, queue)) :
    ListsAfter w.watchObjMap w.appState
      (processEvent plat out t (w.withQueue queue)).1.appState (gcTicks w (.deliver out i))
      (dumpTicks w (.deliver out i)) := by
  have hdue := eventDue_deliver h out
  have hnone : gcTicks w (.deliver out i) = false → dumpTicks w (.deliver out i) = false →
      ListsAfter w.watchObjMap w.appState w.appState (gcTicks w (.deliver out i))
        (dumpTicks w (.deliver out i)) := by
    intro hgc hdump
    rw [hgc, hdump]
    exact listsAfter_same _ rfl
  have heffect := processEvent_effect plat out t (w.withQueue queue)
  generalize processEvent plat out t (w.withQueue queue) = result at heffect ⊢
  cases heffect with
  | dropped hrun =>
      have hoff : w.handler.isRunning = false := hrun
      rw [hoff] at hdue
      refine hnone ?_ ?_
      · simp [gcTicks, hdue]
      · simp [dumpTicks, hdue]
  | noDump hrun hevent htask =>
      have hon : w.handler.isRunning = true := hrun
      have hfree : w.handler.dumpFuncRef = none := htask
      rw [hon, hevent] at hdue
      refine hnone ?_ ?_
      · simp [gcTicks, hdue]
      · simp [dumpTicks, hfree]
  | dumped task hrun hevent htask =>
      have hon : w.handler.isRunning = true := hrun
      have hset : w.handler.dumpFuncRef = some task := htask
      rw [hon, hevent] at hdue
      have hgc : gcTicks w (.deliver out i) = false := by simp [gcTicks, hdue]
      have hdump : dumpTicks w (.deliver out i)
          = (w.settings.isConfigObj && (w.appState.isGC && !hashEqual w.appState)) := by
        simp [dumpTicks, hdue, hset, Bool.and_assoc]
      rw [hgc, hdump]
      exact dumpTask_lists plat out task (w.withQueue queue)
  | noGc hrun hevent htask =>
      have hon : w.handler.isRunning = true := hrun
      have hfree : w.handler.gcFuncRef = none := htask
      rw [hon, hevent] at hdue
      refine hnone ?_ ?_
      · simp [gcTicks, hfree]
      · simp [dumpTicks, hdue]
  | collected task hrun hevent htask =>
      have hon : w.handler.isRunning = true := hrun
      have hset : w.handler.gcFuncRef = some task := htask
      rw [hon, hevent] at hdue
      have hgc : gcTicks w (.deliver out i) = w.settings.isConfigObj := by
        simp [gcTicks, hdue, hset]
      have hdump : dumpTicks w (.deliver out i) = false := by simp [dumpTicks, hdue]
      rw [hgc, hdump]
      exact gcTask_lists plat out _ task (w.withQueue queue)

/-- **The step lemma** for the lists. -/
theorem step_lists {w w' : World Dir} {a : Input Dir} {es : List Event}
    (hs : step plat w a = some (w', es)) :
    ListsAfter w.watchObjMap w.appState w'.appState (gcTicks w a) (dumpTicks w a) := by
  -- without a delivery no event is due, so neither tick takes anything
  have hnone : eventDue w a = none → w'.appState = w.appState →
      ListsAfter w.watchObjMap w.appState w'.appState (gcTicks w a) (dumpTicks w a) := by
    intro hdue hsame
    have hgc : gcTicks w a = false := by simp [gcTicks, hdue]
    have hdump : dumpTicks w a = false := by simp [dumpTicks, hdue]
    rw [hgc, hdump]
    exact listsAfter_same _ hsame
  cases a with
  | deliver out i =>
      obtain ⟨t, queue, hqueue, rfl, -⟩ := step_deliver hs
      exact deliver_lists plat hqueue
  | enableLeakWatcher out isEnabled configs callback =>
      obtain ⟨rfl, -⟩ := Prod.mk.inj (Option.some.inj hs)
      exact hnone rfl (enableLeakWatcher_rounds plat out isEnabled configs callback w).1
  | settle k settlement =>
      obtain ⟨_, -, rfl, -⟩ := step_settle hs
      have hgc : gcTicks w (.settle k settlement) = false := by simp [gcTicks, eventDue]
      have hdump : dumpTicks w (.settle k settlement) = false := by simp [dumpTicks, eventDue]
      rw [hgc, hdump]
      exact onSettled_lists w.settings settlement _ w.appState
  | _ => exact hnone rfl ((step_quiet hs trivial).rounds nofun)

end LeakLists
