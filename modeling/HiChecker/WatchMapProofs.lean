import HiChecker.MapHistoryProofs
import HiChecker.WatcherProofs

/-!
# The watch map against the history of the watched objects

Two paths put objects into `watchObjMap`: the exported `watch`, and `registerObject`
behind the four lifecycle callbacks. The `FinalizationRegistry` takes them out, once for
each time an object was put in, and `enable(false)` and a shutdown clear the map.

* **`mapOps`** — what a step of the watcher does to the map, read off the call.
* **`objectOps`** — what it is asked to do: the two differ where an unregister call throws
  in the middle of a shutdown.
* **`watchObjMap_eq_replay`** — the map is the replay of these operations.
* **`map_exact`** — as long as no object is registered after its finalization, the map
  lists the objects registered since the last clear, in the order in which each came
  first, without the finalized ones, each with the message it came with last; and
  `check()` returns that list while the watcher is enabled.
-/

namespace WatchMap

open Transition Trace JsValue OrderedMapLib MapHistory WatcherConfig DumpFile TimerQueue
open Watcher
open LeakRound (Hash ObjMsg WatchMap getLeakList)

variable {Dir : Type} (plat : Platform Dir)

/-- The record that is put into the map. -/
def objMsgOf (obj : Obj) (msg : String) : ObjMsg :=
  { hash := obj.hash, name := obj.constructorName, msg := msg }

/-- The exported `check`. -/
def check (w : World Dir) : String :=
  if !w.enabled.truthy then ""
  else Json.array ((getLeakList w.watchObjMap).map objMsgText)

-- ── What a step does to the map ───────────────────────────────────────────────────

/-- The object a call or a notification registers, with its message. -/
def registers (w : World Dir) : Input Dir → Option (Obj × String)
  | .watch (some obj) (some msg) => if w.enabled.truthy then some (obj, msg) else none
  | .componentNotified (some (some obj)) msg =>
      if w.settings.isConfigObj
          && monitorLeakIDandWhitelist plat.toLowerCase w.settings.leakWatcherConfig obj then
        none
      else some (obj, msg)
  | .nativeNotified _ (some (some obj)) => if w.handler.callbackRef then some (obj, "") else none
  | .windowDestroyed (some obj) windowName =>
      if w.settings.isConfigObj
          && excludes plat.toLowerCase w.settings.leakWatcherConfig windowName then none
      else some (obj, "")
  | .abilityDestroyed _ ability name =>
      if w.settings.isConfigObj
          && excludes plat.toLowerCase w.settings.leakWatcherConfig name then none
      else some (ability, "")
  | _ => none

/-- The call gets to a `watchObjMap.clear()`. -/
def clears (w : World Dir) : Input Dir → Bool
  | .enable isEnable => !isEnable.isNullish && !isEnable.truthy
  | .enableLeakWatcher out isEnabled configs callback =>
      stops isEnabled configs callback w
        && (shutdownJsLeakWatcher plat out { w with enabled := isEnabled }).2.isNone
  | _ => false

/-- The finalization that is delivered. -/
def finalizes (w : World Dir) : Input Dir → Option Hash
  | .finalize k => w.registry[k]?
  | _ => none

/-- The operations of a step on the map. -/
def mapOps (w : World Dir) (a : Input Dir) : List (Op Hash ObjMsg) :=
  if clears plat w a then [.clear]
  else
    (finalizes w a).toList.map Op.drop
      ++ (registers plat w a).toList.map (fun r => .put r.1.hash (objMsgOf r.1 r.2))

/-- The map after these operations. -/
def after (ops : List (Op Hash ObjMsg)) (m : WatchMap) : WatchMap :=
  ops.foldl (fun m op => op.run m) m

/-- The world once an object was recorded, if there is one. -/
def recordAny (r : Option (Obj × String)) (w : World Dir) : World Dir :=
  match r with
  | none => w
  | some (obj, msg) => record obj msg w

/-- A step that only records what is registered. -/
theorem after_registers {w : World Dir} {a : Input Dir} (hclears : clears plat w a = false)
    (hfinal : finalizes w a = none) :
    (recordAny (registers plat w a) w).watchObjMap
      = after (mapOps plat w a) w.watchObjMap := by
  rw [mapOps, hclears, hfinal]
  cases registers plat w a with
  | none => rfl
  | some r => rfl

/-- An object that is recorded unless a test holds. -/
theorem recordAny_ite (b : Bool) (obj : Obj) (msg : String) (w : World Dir) :
    (if b = true then w else record obj msg w)
      = recordAny (if b = true then none else some (obj, msg)) w := by
  cases b with
  | true => rfl
  | false => rfl

/-- A step that leaves the map alone. -/
theorem after_nothing {w w' : World Dir} {a : Input Dir}
    (hclears : clears plat w a = false) (hfinal : finalizes w a = none)
    (hnone : registers plat w a = none) (hkeep : w'.watchObjMap = w.watchObjMap) :
    w'.watchObjMap = after (mapOps plat w a) w.watchObjMap := by
  rw [mapOps, hclears, hfinal, hnone, hkeep]
  rfl

/-- A shutdown clears the map exactly when it returns. -/
theorem shutdown_map (out : Surroundings) (w : World Dir) :
    (shutdownJsLeakWatcher plat out w).1.watchObjMap
      = if (shutdownJsLeakWatcher plat out w).2.isNone then OrderedMap.empty
        else w.watchObjMap := by
  have huntasked : (unregisterWindow (unregisterNative out (removeTask w))).watchObjMap
      = w.watchObjMap := by
    cases hctx : out.uiContext with
    | none =>
        simp only [unregisterNative, hctx]
        rfl
    | some uiContext =>
        simp only [unregisterNative, hctx]
        rfl
  have hcomponent : ∀ v : World Dir,
      (unregisterComponent out v).1.watchObjMap = v.watchObjMap := by
    intro v
    simp only [unregisterComponent]
    split
    · rfl
    · rfl
  have hability : ∀ v : World Dir,
      (unregisterAbilityLifecycleCallback plat out v).1.watchObjMap = v.watchObjMap := by
    intro v
    simp only [unregisterAbilityLifecycleCallback]
    split
    · rfl
    · split
      · rfl
      · rfl
  have hthrown : ∀ {t : Option Thrown}, t.isSome = true → ¬ t.isNone = true := by
    intro t ht hn
    rw [Option.isNone_iff_eq_none.mp hn] at ht
    exact Bool.false_ne_true ht
  simp only [shutdownJsLeakWatcher, shutdownEnd]
  split
  · rw [if_neg (hthrown ‹_›), hcomponent, huntasked]
  · split
    · rw [if_neg (hthrown ‹_›), hability, hcomponent, huntasked]
    · rfl

/-- The tasks of the handler leave the map alone. -/
theorem processEvent_map [DecidableEq Dir] (out : Surroundings) (t : Timer EventId)
    (w : World Dir) : (processEvent plat out t w).1.watchObjMap = w.watchObjMap := by
  have heffect := processEvent_effect plat out t w
  generalize processEvent plat out t w = result at heffect ⊢
  cases heffect with
  | dropped hrun => rfl
  | noDump hrun hevent => rfl
  | dumped task hrun hevent =>
      obtain ⟨_, _, _, heq⟩ := dumpTask_frame plat out task w
      rw [heq]
  | noGc hrun hevent htask => rfl
  | collected task hrun hevent htask =>
      obtain ⟨_, _, heq⟩ := gcTask_frame plat out (t.tick w.now) task w
      obtain ⟨_, _, _, _, _, _, hretry⟩ := retryRegister_frame plat out w
      show (gcTask plat out (t.tick w.now) task w).1.watchObjMap = w.watchObjMap
      rw [heq, hretry]

/-- `enable` clears the map exactly when it is given a falsy value that is not nullish. -/
theorem enable_map (isEnable : JsVal) (w : World Dir) :
    (enable isEnable w).1.watchObjMap
      = if !isEnable.isNullish && !isEnable.truthy then OrderedMap.empty else w.watchObjMap := by
  simp only [enable]
  cases isEnable.isNullish with
  | true => rfl
  | false =>
      cases isEnable.truthy with
      | true => rfl
      | false => rfl

/-- `enableLeakWatcher` clears it exactly when a shutdown gets to its end. -/
theorem enableLeakWatcher_map (out : Surroundings) (isEnabled : JsVal) (configs : Configs)
    (callback : JsVal) (w : World Dir) :
    (enableLeakWatcher plat out isEnabled configs callback w).1.watchObjMap
      = if clears plat w (.enableLeakWatcher out isEnabled configs callback) then
          OrderedMap.empty
        else w.watchObjMap := by
  have hnot : stops isEnabled configs callback w = false →
      ¬ clears plat w (.enableLeakWatcher out isEnabled configs callback) = true := by
    intro hstops hclears
    exact absurd (hstops.symm.trans (Bool.and_eq_true_iff.mp hclears).1) Bool.false_ne_true
  have htruthy : isEnabled.truthy = true → stops isEnabled configs callback w = false := by
    intro ht
    show (accepts isEnabled configs callback w && !isEnabled.truthy) = false
    rw [ht]
    exact Bool.and_false _
  have hout := enableLeakWatcher_outcome plat out isEnabled configs callback w
  generalize enableLeakWatcher plat out isEnabled configs callback w = result at hout ⊢
  cases hout with
  | refused h t =>
      refine (if_neg (hnot ?_)).symm
      show (accepts isEnabled configs callback w && !isEnabled.truthy) = false
      rw [h]
      rfl
  | stopped h =>
      have hclears : clears plat w (.enableLeakWatcher out isEnabled configs callback)
          = (shutdownJsLeakWatcher plat out { w with enabled := isEnabled }).2.isNone := by
        show (stops isEnabled configs callback w && _) = _
        rw [h]
        exact Bool.true_and _
      rw [hclears]
      exact shutdown_map plat out { w with enabled := isEnabled }
  | rejected _ ht _ => exact (if_neg (hnot (htruthy ht))).symm
  | idle _ ht t _ => exact (if_neg (hnot (htruthy ht))).symm
  | started h =>
      obtain ⟨-, ht, -, -⟩ := accepts_of_starts plat h
      rw [if_neg (hnot (htruthy ht))]
      obtain ⟨_, _, _, _, _, heq⟩ := executeRegister_frame plat out
        (typeMask (arm out configs callback
          (configured out isEnabled configs w)).settings.leakWatcherConfig.monitorObjectTypes)
        (arm out configs callback (configured out isEnabled configs w))
      simp only [launch]
      rw [heq]
      rfl

/-- A step that clears the map or leaves it alone. -/
theorem after_clears {w w' : World Dir} {a : Input Dir} (hfinal : finalizes w a = none)
    (hnone : registers plat w a = none)
    (hmap : w'.watchObjMap = if clears plat w a then OrderedMap.empty else w.watchObjMap) :
    w'.watchObjMap = after (mapOps plat w a) w.watchObjMap := by
  rw [hmap, mapOps, hfinal, hnone]
  cases clears plat w a with
  | true => rfl
  | false => rfl

/-- What each path registers is what is read off its call. -/
theorem watch_registers (obj : Obj) (msg : String) (w : World Dir) :
    (watch (some obj) (some msg) w).1
      = recordAny (registers plat w (.watch (some obj) (some msg))) w := by
  simp only [watch, registers]
  cases w.enabled.truthy with
  | false => rfl
  | true => rfl

theorem onComponent_registers (weakRef : Option (Option Obj)) (msg : String) (w : World Dir) :
    onComponent plat weakRef msg w
      = recordAny (registers plat w (.componentNotified weakRef msg)) w := by
  cases weakRef with
  | none => rfl
  | some obj =>
      cases obj with
      | none => rfl
      | some obj => exact recordAny_ite _ obj msg w

theorem onNativeObject_registers (uiContext : Nat) (weakRef : Option (Option Obj))
    (w : World Dir) : onNativeObject weakRef w
      = recordAny (registers plat w (.nativeNotified uiContext weakRef)) w := by
  cases weakRef with
  | none => exact ite_self w
  | some obj =>
      cases obj with
      | none => exact ite_self w
      | some obj =>
          simp only [onNativeObject, registers]
          cases w.handler.callbackRef with
          | false => rfl
          | true => rfl

theorem onWindow_registers (obj : Option Obj) (windowName : String) (w : World Dir) :
    onWindow plat obj windowName w
      = recordAny (registers plat w (.windowDestroyed obj windowName)) w := by
  cases obj with
  | none => exact ite_self w
  | some obj =>
      simp only [onWindow, Option.isSome_some, Bool.and_true]
      exact recordAny_ite _ obj "" w

/-- The finalization callback tests for the key before it deletes. -/
theorem finalized_map {w : World Dir} {k : Nat} {hash : Hash} (hk : w.registry[k]? = some hash) :
    (if w.watchObjMap.has hash then w.watchObjMap.delete hash else w.watchObjMap)
      = after (mapOps plat w (.finalize k)) w.watchObjMap := by
  have hops : mapOps plat w (.finalize k) = [.drop hash] := by
    show ((w.registry[k]?).toList.map Op.drop ++ [] : List (Op Hash ObjMsg)) = _
    rw [hk]
    rfl
  rw [hops]
  show _ = w.watchObjMap.delete hash
  cases hhas : w.watchObjMap.has hash with
  | true => rfl
  | false => exact (delete_of_not_has hhas).symm

variable [DecidableEq Dir]

/-- **The step lemma**: a step does to the map what is read off it. -/
theorem step_map {w w' : World Dir} {a : Input Dir} {es : List Event}
    (hs : step plat w a = some (w', es)) :
    w'.watchObjMap = after (mapOps plat w a) w.watchObjMap := by
  cases a with
  | enable isEnable =>
      obtain ⟨rfl, -⟩ := Prod.mk.inj (Option.some.inj hs)
      exact after_clears plat rfl rfl (enable_map isEnable w)
  | enableLeakWatcher out isEnabled configs callback =>
      obtain ⟨rfl, -⟩ := Prod.mk.inj (Option.some.inj hs)
      exact after_clears plat rfl rfl
        (enableLeakWatcher_map plat out isEnabled configs callback w)
  | watch obj msg =>
      obtain ⟨rfl, -⟩ := Prod.mk.inj (Option.some.inj hs)
      cases obj with
      | none => exact after_nothing plat rfl rfl rfl rfl
      | some obj =>
          cases msg with
          | none => exact after_nothing plat rfl rfl rfl rfl
          | some msg =>
              rw [watch_registers plat obj msg w]
              exact after_registers plat rfl rfl
  | dump out filePath =>
      cases filePath with
      | none =>
          obtain ⟨rfl, -⟩ := Prod.mk.inj (Option.some.inj hs)
          exact after_nothing plat rfl rfl rfl rfl
      | some filePath =>
          obtain ⟨rfl, -⟩ := Prod.mk.inj (Option.some.inj hs)
          exact after_nothing plat rfl rfl rfl rfl
  | componentNotified weakRef msg =>
      obtain ⟨-, heq⟩ := Option.ite_none_right_eq_some.mp hs
      obtain ⟨rfl, -⟩ := Prod.mk.inj (Option.some.inj heq)
      rw [onComponent_registers plat weakRef msg w]
      exact after_registers plat rfl rfl
  | nativeNotified uiContext weakRef =>
      obtain ⟨-, heq⟩ := Option.ite_none_right_eq_some.mp hs
      obtain ⟨rfl, -⟩ := Prod.mk.inj (Option.some.inj heq)
      rw [onNativeObject_registers plat uiContext weakRef w]
      exact after_registers plat rfl rfl
  | windowDestroyed obj windowName =>
      obtain ⟨-, heq⟩ := Option.ite_none_right_eq_some.mp hs
      obtain ⟨rfl, -⟩ := Prod.mk.inj (Option.some.inj heq)
      rw [onWindow_registers plat obj windowName w]
      exact after_registers plat rfl rfl
  | abilityDestroyed id ability name =>
      obtain ⟨-, heq⟩ := Option.ite_none_right_eq_some.mp hs
      obtain ⟨rfl, -⟩ := Prod.mk.inj (Option.some.inj heq)
      have hrecord : onAbilityDestroy plat ability name w
          = recordAny (registers plat w (.abilityDestroyed id ability name)) w :=
        recordAny_ite _ ability "" w
      rw [hrecord]
      exact after_registers plat rfl rfl
  | deliver out i =>
      obtain ⟨t, queue, -, rfl, -⟩ := step_deliver hs
      exact after_nothing plat rfl rfl rfl (processEvent_map plat out t _)
  | settle k settlement =>
      obtain ⟨_, -, rfl, -⟩ := step_settle hs
      exact after_nothing plat rfl rfl rfl rfl
  | dumpDone out k =>
      obtain ⟨_, -, rfl, -⟩ := step_dumpDone hs
      exact after_nothing plat rfl rfl rfl rfl
  | finalize k =>
      obtain ⟨hash, hk, rfl, -⟩ := step_finalize hs
      exact finalized_map plat hk
  | filesChange files =>
      obtain ⟨rfl, -⟩ := Prod.mk.inj (Option.some.inj hs)
      exact after_nothing plat rfl rfl rfl rfl
  | advance milliseconds =>
      obtain ⟨rfl, -⟩ := Prod.mk.inj (Option.some.inj hs)
      exact after_nothing plat rfl rfl rfl rfl

-- ── The map and its history ───────────────────────────────────────────────────────

/-- The call is a clear: `enable(false)`, or a shutdown. -/
def asksClear (w : World Dir) : Input Dir → Bool
  | .enable isEnable => !isEnable.isNullish && !isEnable.truthy
  | .enableLeakWatcher _ isEnabled configs callback => stops isEnabled configs callback w
  | _ => false

/-- The registrations, finalizations and clears of a step. -/
def objectOps (w : World Dir) (a : Input Dir) : List (Op Hash ObjMsg) :=
  if asksClear w a then [.clear]
  else
    (finalizes w a).toList.map Op.drop
      ++ (registers plat w a).toList.map (fun r => .put r.1.hash (objMsgOf r.1 r.2))

/-- The unregister calls of a shutdown return: what they are to unregister is registered, or
    the runtime does not mind that it is not. -/
def UnregistersReturn (w : World Dir) : Input Dir → Prop
  | .enableLeakWatcher out isEnabled configs callback =>
      stops isEnabled configs callback w = true →
        (w.registrations.component = true ∨ out.deadComponentThrows = false)
          ∧ (plat.hasContext = false ∨ lifecycleLive w = true ∨ out.deadAbilityThrows = false)
  | _ => True

instance : DecidableRel (UnregistersReturn plat) := fun w a =>
  match a with
  | .enableLeakWatcher out isEnabled configs callback =>
      inferInstanceAs (Decidable (stops isEnabled configs callback w = true →
        (w.registrations.component = true ∨ out.deadComponentThrows = false)
          ∧ (plat.hasContext = false ∨ lifecycleLive w = true ∨ out.deadAbilityThrows = false)))
  | .enable _ => isTrue trivial
  | .watch _ _ => isTrue trivial
  | .dump _ _ => isTrue trivial
  | .componentNotified _ _ => isTrue trivial
  | .nativeNotified _ _ => isTrue trivial
  | .windowDestroyed _ _ => isTrue trivial
  | .abilityDestroyed _ _ _ => isTrue trivial
  | .deliver _ _ => isTrue trivial
  | .settle _ _ => isTrue trivial
  | .dumpDone _ _ => isTrue trivial
  | .finalize _ => isTrue trivial
  | .filesChange _ => isTrue trivial
  | .advance _ => isTrue trivial

/-- The watcher, seen through the registrations, finalizations and clears of its steps. -/
def mapHistory (load : DumpState Dir) : Machine (World Dir) (Input Dir) (Op Hash ObjMsg) :=
  (watcher plat load).observing (objectOps plat)

omit [DecidableEq Dir] in
/-- Then the shutdown returns. -/
theorem shutdown_returns (out : Surroundings) {w : World Dir}
    (hcomponent : w.registrations.component = true ∨ out.deadComponentThrows = false)
    (hability : plat.hasContext = false ∨ lifecycleLive w = true
      ∨ out.deadAbilityThrows = false) :
    (shutdownJsLeakWatcher plat out w).2 = none := by
  let cut := unregisterWindow (unregisterNative out (removeTask w))
  have hregistered : cut.registrations.component = w.registrations.component := by
    cases hctx : out.uiContext <;> simp only [cut, unregisterNative, hctx] <;> rfl
  have hlive : lifecycleLive (dropComponent cut) = lifecycleLive w := by
    cases hctx : out.uiContext <;> simp only [cut, unregisterNative, hctx] <;> rfl
  have hfirst : unregisterComponent out cut = (dropComponent cut, none) := by
    refine if_neg (fun hthrows => ?_)
    obtain ⟨hdead, hstrict⟩ := Bool.and_eq_true_iff.mp hthrows
    rw [hregistered, Bool.not_eq_true'] at hdead
    rcases hcomponent with h | h
    · exact Bool.false_ne_true (hdead.symm.trans h)
    · exact Bool.false_ne_true (h.symm.trans hstrict)
  have hsecond :
      (unregisterAbilityLifecycleCallback plat out (dropComponent cut)).2 = none := by
    rw [unregisterAbilityLifecycleCallback, hlive]
    rcases hability with h | h | h
    · rw [h]
      rfl
    · cases plat.hasContext <;> rw [h] <;> rfl
    · cases plat.hasContext <;> cases lifecycleLive w <;> rw [h] <;> rfl
  show (if (unregisterComponent out cut).2.isSome = true then _
    else shutdownEnd plat out (unregisterComponent out cut).1).2 = none
  rw [hfirst]
  show (shutdownEnd plat out (dropComponent cut)).2 = none
  rw [shutdownEnd, hsecond]
  rfl

omit [DecidableEq Dir] in
/-- **What is asked is what is done**, when the unregister calls return. -/
theorem mapOps_eq_objectOps {w : World Dir} {a : Input Dir} (h : UnregistersReturn plat w a) :
    mapOps plat w a = objectOps plat w a := by
  have hclears : clears plat w a = asksClear w a := by
    cases a with
    | enableLeakWatcher out isEnabled configs callback =>
        show (stops isEnabled configs callback w && _) = stops isEnabled configs callback w
        cases hstops : stops isEnabled configs callback w with
        | false => rfl
        | true =>
            obtain ⟨hcomponent, hability⟩ := h hstops
            have hreturns : (shutdownJsLeakWatcher plat out
                { w with enabled := isEnabled }).2 = none :=
              shutdown_returns plat out hcomponent hability
            rw [hreturns]
            rfl
    | _ => rfl
  rw [mapOps, objectOps, hclears]

variable {plat}

/-- **The map is the replay of its history.** -/
theorem watchObjMap_eq_replay {load : DumpState Dir} {w : World Dir}
    {h : List (Op Hash ObjMsg)}
    (hr : Run (mapHistory plat load) (UnregistersReturn plat) w h) :
    w.watchObjMap = replay h := by
  refine Run.invariant (I := fun w h => w.watchObjMap = replay h) rfl ?_ hr
  intro w h a w' ops hw hreturn hs
  obtain ⟨⟨es, hstep⟩, rfl⟩ := Machine.observing_step hs
  rw [step_map plat hstep, mapOps_eq_objectOps plat hreturn, hw]
  exact List.foldl_append.symm

/-- **The watch map is exact**, in every run in which the unregister calls of a shutdown
    return and no object is registered once its finalization was delivered: one entry for each
    object registered since the last clear and not finalized, in the order of first
    registration, with the latest message; and `check()` returns that list while the watcher is
    enabled. -/
theorem map_exact {load : DumpState Dir} {w : World Dir} {h : List (Op Hash ObjMsg)}
    (hr : Run (mapHistory plat load) (UnregistersReturn plat) w h)
    (hdead : AtEach NoReturn h) :
    (∀ k, w.watchObjMap.has k = true ↔ k ∈ keysPut h ∧ dropped k h = false) ∧
    w.watchObjMap.keys = liveKeys h ∧
    (∀ k objMsg, w.watchObjMap.get k = some objMsg → lastPut k h = some objMsg) ∧
    getLeakList w.watchObjMap = liveValues h ∧
    check w = if w.enabled.truthy then Json.array ((liveValues h).map objMsgText) else "" := by
  have hmap := watchObjMap_eq_replay hr
  have hlist : getLeakList w.watchObjMap = liveValues h := by
    rw [hmap]
    exact values_replay hdead
  refine ⟨?_, ?_, ?_, hlist, ?_⟩
  · intro k
    rw [hmap]
    exact has_replay hdead k
  · rw [hmap]
    exact keys_replay hdead
  · intro k objMsg hk
    rw [hmap] at hk
    exact get_replay hk
  · show (if (!w.enabled.truthy) = true then "" else _) = _
    rw [hlist]
    cases w.enabled.truthy with
    | false => rfl
    | true => rfl

/-- An object of the application. -/
def page (hash : Int) : Obj := { hash := some hash, constructorName := "Page" }

/-- The watcher is shut down with an object in the map, and enabled again. -/
def enabledAgain : List (Input String) :=
  [.enableLeakWatcher plainSurroundings (.bool true) (.array []) (.obj 1),
    .watch (some (page 9)) (some "before"),
    .enableLeakWatcher plainSurroundings (.bool false) (.array []) (.obj 1),
    .enable (.bool true)]

/-- Two objects, the first of them registered again, and the second finalized. -/
theorem map_exact_registeredAgain :
    ∃ (w : World String) (h : List (Op Hash ObjMsg)),
      Run (mapHistory plainPlatform DumpIdentity.noFiles) (UnregistersReturn plainPlatform) w h
        ∧ AtEach NoReturn h ∧ w.enabled.truthy = true
        ∧ getLeakList w.watchObjMap = [{ hash := some 7, name := "Page", msg := "again" }] := by
  obtain ⟨p, hp⟩ : ∃ p, exec (mapHistory plainPlatform DumpIdentity.noFiles)
      (UnregistersReturn plainPlatform)
      (enabledAgain ++ [.watch (some (page 7)) (some "first"),
        .watch (some (page 8)) (some "second"), .watch (some (page 7)) (some "again"),
        .finalize 2]) = some p := ⟨_, rfl⟩
  have hops : p.2 = [] ++ [Op.put (some 9) (objMsgOf (page 9) "before")] ++ [Op.clear]
      ++ [Op.put (some 7) (objMsgOf (page 7) "first")]
      ++ [Op.put (some 8) (objMsgOf (page 8) "second")]
      ++ [Op.put (some 7) (objMsgOf (page 7) "again")] ++ [Op.drop (some 8)] := by
    obtain rfl := Option.some.inj hp
    rfl
  have hdead : AtEach NoReturn p.2 := by
    rw [hops]
    refine atEach_snoc.mpr ⟨?_, fun k hk => absurd hk.symm (Option.some_ne_none k)⟩
    refine atEach_snoc.mpr ⟨?_, fun _ _ => rfl⟩
    refine atEach_snoc.mpr ⟨?_, fun _ _ => rfl⟩
    refine atEach_snoc.mpr ⟨?_, fun _ _ => rfl⟩
    refine atEach_snoc.mpr ⟨?_, fun k hk => absurd hk.symm (Option.some_ne_none k)⟩
    exact atEach_snoc.mpr ⟨atEach_nil _, fun _ _ => rfl⟩
  have hr := run_of_exec hp
  have hexact := (map_exact hr hdead).2.2.2.1
  have hen : p.1.enabled.truthy = true := by
    obtain rfl := Option.some.inj hp
    rfl
  refine ⟨p.1, p.2, hr, hdead, hen, hexact.trans ?_⟩
  rw [hops]
  decide

/-- A window is destroyed after `enable(false)`: its callback is still registered and puts
    it into the map, and `check()` returns the empty string. -/
theorem check_while_disabled :
    ¬ ∀ (load : DumpState String) (w : World String) (h : List (Op Hash ObjMsg)),
        Run (mapHistory plainPlatform load) (UnregistersReturn plainPlatform) w h →
        AtEach NoReturn h → check w = Json.array ((liveValues h).map objMsgText) := by
  intro hall
  obtain ⟨p, hp⟩ : ∃ p, exec (mapHistory plainPlatform DumpIdentity.noFiles)
      (UnregistersReturn plainPlatform)
      [.enableLeakWatcher plainSurroundings (.bool true) (.array []) (.obj 1),
        .enable (.bool false), .windowDestroyed (some (page 7)) "main"] = some p := ⟨_, rfl⟩
  have hops : p.2 = [] ++ [Op.clear] ++ [Op.put (some 7) (objMsgOf (page 7) "")] := by
    obtain rfl := Option.some.inj hp
    rfl
  have hdead : AtEach NoReturn p.2 := by
    rw [hops]
    refine atEach_snoc.mpr ⟨?_, fun _ _ => rfl⟩
    exact atEach_snoc.mpr ⟨atEach_nil _, fun k hk => absurd hk.symm (Option.some_ne_none k)⟩
  have hcheck := hall DumpIdentity.noFiles p.1 p.2 (run_of_exec hp) hdead
  have hempty : check p.1 = "" := by
    obtain rfl := Option.some.inj hp
    rfl
  rw [hempty] at hcheck
  have hlength := congrArg String.length hcheck
  rw [Json.array, String.length_append, String.length_append] at hlength
  have hbracket : "".length < "[".length := by decide
  omega

end WatchMap
