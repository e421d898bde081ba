import HiChecker.WatcherProofs

/-!
# The GC timer chain

`HandleGCTask` sends a GC event, and `ProcessEvent` sends the next one whenever it
delivers one to a running handler. Stopping the handler leaves the queue as it is. A
start that finds the GC event of an earlier session still there begins a second chain
beside it, and both re-arm themselves from then on.

* **`SingleStart`** — a start finds no GC event in the queue.
* **`ChainEffect`**, **`step_chain`** — all a step can do to the chain.
* **`single_gc_chain`** — with such starts at most one GC event is ever pending, and the
  ticks that force a full GC lie apart by the interval they were sent with.
-/

namespace TimerChain

open Transition TimerQueue WatcherConfig Watcher
open DumpFile (DumpState)

variable {Dir : Type}

-- ── What is pending, what was forced ──────────────────────────────────────────────

def isGc : EventId → Bool
  | .gcEvent => true
  | .dumpEvent => false

/-- The GC events in the queue. -/
def gcPending (w : World Dir) : List (Timer EventId) := pending isGc w.queue

/-- The tick for which an event forces a full GC. -/
def forcedTick : Event → Option Tick
  | .round tick .forceFullGC => tick
  | _ => none

/-- The ticks that forced a full GC, at once or when their process information came. -/
def forcedTicks (tr : List Event) : List Tick := tr.filterMap forcedTick

theorem forcedTicks_append (tr es : List Event) :
    forcedTicks (tr ++ es) = forcedTicks tr ++ forcedTicks es := List.filterMap_append

/-- A start finds no GC event in the queue. -/
def SingleStart (plat : Platform Dir) (w : World Dir) : Input Dir → Prop
  | .enableLeakWatcher out isEnabled configs callback =>
      starts plat out isEnabled configs callback w = true → gcPending w = []
  | _ => True

instance (plat : Platform Dir) : DecidableRel (SingleStart plat) := fun w a =>
  match a with
  | .enable _ => isTrue trivial
  | .enableLeakWatcher out isEnabled configs callback =>
      inferInstanceAs (Decidable
        (starts plat out isEnabled configs callback w = true → gcPending w = []))
  | .watch _ _ => isTrue trivial
  | .dump _ _ => isTrue trivial
  | .componentNotified _ _ => isTrue trivial
  | .nativeNotified _ _ => isTrue trivial
  | .windowDestroyed _ _ => isTrue trivial
  | .abilityDestroyed _ _ _ => isTrue trivial
  | .deliver _ _ => isTrue trivial
  | .settle _ _ => isTrue trivial
  | .dumpDone _ _ => isTrue trivial
  | .finalize _ => isTrue trivial
  | .filesChange _ => isTrue trivial
  | .advance _ => isTrue trivial

variable {plat : Platform Dir} {a : Input Dir}

/-- All that a step does to the chain: `forced` are the ticks it forces a GC for. -/
inductive ChainEffect (plat : Platform Dir) (w : World Dir) (a : Input Dir) (w' : World Dir)
    (forced : List Tick) : Prop where
  | idle (queue : List.Perm (gcPending w') (gcPending w))
      (promises : w'.promises = w.promises) (now : w.now ≤ w'.now) (none : forced = [])
  | started (clean : SingleStart plat w a → gcPending w = []) (delay : Nat)
      (queue : gcPending w' = send w.now delay .gcEvent (gcPending w))
      (promises : w'.promises = w.promises) (now : w'.now = w.now) (none : forced = [])
  /-- the handler was stopped in the meantime, and the chain ends -/
  | dropped (t : Timer EventId) (queue : List.Perm (t :: gcPending w') (gcPending w))
      (promises : w'.promises = w.promises) (now : w'.now = w.now) (none : forced = [])
  | ticked (t : Timer EventId) (rest : List (Timer EventId)) (delay : Nat)
      (queue : List.Perm (t :: rest) (gcPending w)) (due : t.due ≤ w.now)
      (queue' : gcPending w' = send w.now delay .gcEvent rest) (now : w'.now = w.now)
      (tick : (forced ++ w'.promises).Sublist (w.promises ++ [t.tick w.now])
        ∨ List.Perm (forced ++ w'.promises) (w.promises ++ [t.tick w.now]))
  | settled (tick : Tick) (queue : gcPending w' = gcPending w)
      (promises : List.Perm (tick :: w'.promises) w.promises) (now : w'.now = w.now)
      (settles : forced = [] ∨ forced = [tick])

/-- A step that leaves queue, promises and clock alone leaves the chain alone. -/
theorem chainEffect_of_eq {w w' : World Dir} {es : List Event} (hqueue : w'.queue = w.queue)
    (hpromises : w'.promises = w.promises) (hnow : w'.now = w.now)
    (hes : ∀ e ∈ es, forcedTick e = none) : ChainEffect plat w a w' (forcedTicks es) := by
  refine ChainEffect.idle ?_ hpromises hnow.ge (List.filterMap_eq_nil_iff.mpr hes)
  show List.Perm (pending isGc w'.queue) (pending isGc w.queue)
  rw [hqueue]

theorem chainEffect_of_schedule {w w' : World Dir} {es : List Event}
    (h : KeepsSchedule w w') (hes : ∀ e ∈ es, forcedTick e = none) :
    ChainEffect plat w a w' (forcedTicks es) :=
  chainEffect_of_eq h.queue h.promises h.now hes

theorem forcedTick_of_mem_map {α : Type} {f : α → Event}
    (hf : ∀ x, forcedTick (f x) = none) {l : List α} : ∀ e ∈ l.map f, forcedTick e = none := by
  intro e he
  obtain ⟨x, -, rfl⟩ := List.mem_map.mp he
  exact hf x

-- ── The invariant ─────────────────────────────────────────────────────────────────

/-- The invariant of runs with single starts, over the trace of the run. -/
structure ChainInv (w : World Dir) (tr : List Event) : Prop where
  single : (gcPending w).length ≤ 1
  spaced : Spaced w.now (gcPending w) (forcedTicks tr ++ w.promises)

/-- What the delivery of the single event leaves. -/
theorem spaced_ticked {w : World Dir} {tr : List Event} (hw : ChainInv w tr)
    {t : Timer EventId} {rest : List (Timer EventId)}
    (hqueue : List.Perm (t :: rest) (gcPending w)) (hdue : t.due ≤ w.now) :
    rest = []
      ∧ Spaced w.now ([] : List (Timer EventId))
          (forcedTicks tr ++ w.promises ++ [t.tick w.now]) := by
  have hlen := hqueue.length_eq
  have hsingle := hw.single
  obtain rfl : rest = [] := by
    refine List.eq_nil_of_length_eq_zero ?_
    rw [List.length_cons] at hlen
    omega
  exact ⟨rfl, (hw.spaced.perm hqueue (List.Perm.refl _)).tick hdue⟩

/-- **One step**: the chain stays single when a start finds it empty. -/
theorem ChainEffect.inv {w w' : World Dir} {tr es : List Event} (hw : ChainInv w tr)
    (h : ChainEffect plat w a w' (forcedTicks es)) (hclean : SingleStart plat w a) :
    ChainInv w' (tr ++ es) := by
  have hpast : forcedTicks (tr ++ es) ++ w'.promises
      = forcedTicks tr ++ (forcedTicks es ++ w'.promises) := by
    rw [forcedTicks_append, List.append_assoc]
  cases h with
  | idle queue promises now none =>
      refine ⟨?_, ?_⟩
      · rw [queue.length_eq]
        exact hw.single
      · rw [hpast, none, promises]
        exact (hw.spaced.advance now).perm queue (List.Perm.refl _)
  | started clean delay queue promises now none =>
      have hempty := clean hclean
      refine ⟨?_, ?_⟩
      · rw [queue, hempty]
        exact Nat.le_refl 1
      · rw [hpast, none, promises, queue, now]
        exact hw.spaced.send delay .gcEvent
  | dropped t queue promises now none =>
      have hlen := queue.length_eq
      have hsingle := hw.single
      rw [List.length_cons] at hlen
      refine ⟨by omega, ?_⟩
      rw [hpast, none, promises, now]
      exact (hw.spaced.perm queue (List.Perm.refl _)).tail
  | ticked t rest delay queue due queue' now tick =>
      obtain ⟨rfl, hspaced⟩ := spaced_ticked hw queue due
      refine ⟨?_, ?_⟩
      · rw [queue']
        exact Nat.le_refl 1
      · rw [hpast, queue', now]
        rw [List.append_assoc] at hspaced
        refine Spaced.send ?_ delay EventId.gcEvent
        rcases tick with hsub | hperm
        · exact hspaced.sublist ((List.Sublist.refl _).append hsub)
        · exact hspaced.perm (List.Perm.refl _) ((List.Perm.refl _).append hperm)
  | settled tick queue promises now settles =>
      refine ⟨?_, ?_⟩
      · rw [queue]
        exact hw.single
      · rw [hpast, queue, now]
        have hpromised := hw.spaced.perm (List.Perm.refl _)
          ((List.Perm.refl (forcedTicks tr)).append promises)
        rcases settles with hnone | hforced
        · rw [hnone]
          exact hpromised.sublist ((List.Sublist.refl _).append (List.sublist_cons_self _ _))
        · rw [hforced]
          exact hpromised

-- ── What the switches and the deliveries do ───────────────────────────────────────

theorem gcPending_start (plat : Platform Dir) (out : Surroundings)
    (isEnabled : JsValue.JsVal) (configs : Configs) (callback : JsValue.JsVal) (w : World Dir) :
    ∃ delay, gcPending (launch plat out configs callback (configured out isEnabled configs w))
      = send w.now delay .gcEvent (gcPending w) := by
  have hschedule :=
    launch_schedule plat out configs callback (configured out isEnabled configs w)
  refine ⟨(configured out isEnabled configs w).settings.gcDelayTime.toNat, ?_⟩
  show pending isGc (launch plat out configs callback _).queue = _
  have hqueue : (launch plat out configs callback (configured out isEnabled configs w)).queue
      = send w.now (configured out isEnabled configs w).settings.gcDelayTime.toNat .gcEvent
          w.queue := hschedule.queue
  rw [hqueue]
  exact pending_send_of_pos rfl _ _ _

theorem thrown_forces_nothing {t : Option Thrown} :
    ∀ e ∈ t.toList.map Event.thrown, forcedTick e = none :=
  forcedTick_of_mem_map (fun _ => rfl)

/-- **`enableLeakWatcher`** adds at most one GC event, when it starts. -/
theorem enableLeakWatcher_chain (out : Surroundings) (isEnabled : JsValue.JsVal)
    (configs : Configs) (callback : JsValue.JsVal) (w : World Dir) :
    ChainEffect plat w (.enableLeakWatcher out isEnabled configs callback)
      (enableLeakWatcher plat out isEnabled configs callback w).1
      (forcedTicks ((enableLeakWatcher plat out isEnabled configs callback w).2.toList.map
        Event.thrown)) := by
  have hout := enableLeakWatcher_outcome plat out isEnabled configs callback w
  generalize enableLeakWatcher plat out isEnabled configs callback w = result at hout ⊢
  cases hout with
  | refused h t => exact chainEffect_of_schedule (KeepsSchedule.refl w) thrown_forces_nothing
  | stopped h =>
      have hshut := shutdown_schedule plat out { w with enabled := isEnabled }
      exact chainEffect_of_eq hshut.queue hshut.promises hshut.now thrown_forces_nothing
  | rejected h ht hr => exact chainEffect_of_eq rfl rfl rfl thrown_forces_nothing
  | idle h ht t hthrown => exact chainEffect_of_eq rfl rfl rfl thrown_forces_nothing
  | started h =>
      obtain ⟨delay, hqueue⟩ := gcPending_start plat out isEnabled configs callback w
      have hschedule :=
        launch_schedule plat out configs callback (configured out isEnabled configs w)
      exact ChainEffect.started (fun hclean => hclean h) delay hqueue hschedule.promises
        hschedule.now rfl

/-- **`enable`** leaves the chain alone. -/
theorem enable_chain (isEnable : JsValue.JsVal) (w : World Dir) :
    ChainEffect plat w a (enable isEnable w).1
      (forcedTicks ((enable isEnable w).2.toList.map Event.thrown)) := by
  simp only [enable]
  split
  · exact chainEffect_of_eq rfl rfl rfl thrown_forces_nothing
  · split
    · exact chainEffect_of_eq rfl rfl rfl thrown_forces_nothing
    · exact chainEffect_of_eq rfl rfl rfl thrown_forces_nothing

/-- **A settlement** takes one promise, and may force the GC of its tick. -/
theorem settle_chain {w : World Dir} {k : Nat} {tick : Tick} (hk : w.promises[k]? = some tick)
    (settlement : LeakRound.Settlement) :
    ChainEffect plat w a
      { w with appState := (LeakRound.onSettled w.settings settlement w.appState).1
               promises := w.promises.eraseIdx k }
      (forcedTicks ((LeakRound.onSettled w.settings settlement w.appState).2.map
        (Event.round (some tick)))) := by
  obtain ⟨hlt, hget⟩ := List.getElem?_eq_some_iff.mp hk
  refine ChainEffect.settled tick rfl ?_ rfl ?_
  · rw [← hget]
    exact List.getElem_cons_eraseIdx_perm hlt
  · obtain ⟨appState, es, heq, -, -, hcases⟩ :=
      LeakRound.onSettled_spec w.settings settlement w.appState
    rw [heq]
    rcases hcases with ⟨-, -, rfl⟩ | ⟨-, -, rfl⟩ | ⟨-, -, rfl⟩
    · exact Or.inr rfl
    · exact Or.inl rfl
    · exact Or.inl rfl

variable (plat) in
/-- The GC closure: the tick forces a full GC at once, or asks for the process
    information first, or neither. -/
theorem gcTask_chain (out : Surroundings) (tick : Tick) (task : GcTask) (w : World Dir) :
    (gcTask plat out tick task w).1.queue = w.queue
      ∧ (gcTask plat out tick task w).1.now = w.now
      ∧ ((forcedTicks (gcTask plat out tick task w).2
            ++ (gcTask plat out tick task w).1.promises).Sublist (w.promises ++ [tick])
        ∨ List.Perm (forcedTicks (gcTask plat out tick task w).2
            ++ (gcTask plat out tick task w).1.promises) (w.promises ++ [tick])) := by
  have hretry := retryRegister_schedule plat out w
  simp only [gcTask]
  split
  · refine ⟨hretry.queue, hretry.now, Or.inl ?_⟩
    show ([] ++ if _ then _ else _ : List Tick).Sublist _
    rw [List.nil_append]
    split
    · rw [hretry.promises]
    · rw [hretry.promises]
      exact List.sublist_append_left _ _
  · refine ⟨hretry.queue, hretry.now, Or.inr ?_⟩
    show List.Perm (tick :: (retryRegister plat out w).promises) _
    rw [hretry.promises]
    exact (List.perm_append_singleton tick w.promises).symm

variable [DecidableEq Dir]

variable (plat) in
theorem callDumpInner_forces_nothing (out : Surroundings) (task : DumpTask) (w : World Dir) :
    ∀ e ∈ (callDumpInner plat out task w).2, forcedTick e = none :=
  forcedTick_of_mem_map (fun _ => rfl)

variable (plat) in
/-- The dump closure forces no GC. -/
theorem dumpTask_forces_nothing (out : Surroundings) (task : DumpTask) (w : World Dir) :
    ∀ e ∈ (dumpTask plat out task w).2, forcedTick e = none := by
  have hround : ∀ (events : List LeakRound.Event),
      ∀ e ∈ events.map (Event.round none), forcedTick e = none := by
    intro events
    refine forcedTick_of_mem_map (fun event => ?_)
    cases event with
    | forceFullGC => rfl
    | _ => rfl
  simp only [dumpTask]
  split
  · split
    · intro e he
      rcases List.mem_append.mp he with he | he
      · exact hround _ e he
      · exact callDumpInner_forces_nothing plat out task _ e he
    · exact hround _
  · split
    · exact fun e he => absurd he List.not_mem_nil
    · exact callDumpInner_forces_nothing plat out task w

variable (plat) in
/-- Delivering the dump event runs its closure, if there is one. -/
theorem executeDump_chain (out : Surroundings) {t : Timer EventId}
    (hevent : t.event = .dumpEvent) (w : World Dir) :
    (executeJsFunc plat out t w).1.queue = w.queue
      ∧ (executeJsFunc plat out t w).1.promises = w.promises
      ∧ (executeJsFunc plat out t w).1.now = w.now
      ∧ forcedTicks (executeJsFunc plat out t w).2 = [] := by
  simp only [executeJsFunc, hevent]
  cases w.handler.dumpFuncRef with
  | none => exact ⟨rfl, rfl, rfl, rfl⟩
  | some task =>
      obtain ⟨appState, dump, outstanding, hframe⟩ := dumpTask_frame plat out task w
      have hforced := List.filterMap_eq_nil_iff.mpr (dumpTask_forces_nothing plat out task w)
      rw [hframe]
      exact ⟨rfl, rfl, rfl, hforced⟩

variable (plat) in
/-- Delivering the GC event runs its closure, if there is one. -/
theorem executeGc_chain (out : Surroundings) {t : Timer EventId}
    (hevent : t.event = .gcEvent) (w : World Dir) :
    let ran := executeJsFunc plat out t w
    ran.1.queue = w.queue ∧ ran.1.now = w.now
      ∧ ((forcedTicks ran.2 ++ ran.1.promises).Sublist (w.promises ++ [t.tick w.now])
        ∨ List.Perm (forcedTicks ran.2 ++ ran.1.promises) (w.promises ++ [t.tick w.now])) := by
  simp only [executeJsFunc, hevent]
  cases w.handler.gcFuncRef with
  | none => exact ⟨rfl, rfl, Or.inl (List.sublist_append_left w.promises _)⟩
  | some task => exact gcTask_chain plat out (t.tick w.now) task w

omit [DecidableEq Dir] in
/-- Sending both events again adds one GC event. -/
theorem gcPending_rearm (w : World Dir) :
    gcPending (rearm w) = send w.now w.settings.gcDelayTime.toNat .gcEvent (gcPending w) := by
  show pending isGc (send w.now _ .dumpEvent
    (send w.now w.settings.gcDelayTime.toNat .gcEvent w.queue)) = _
  rw [pending_send_of_neg Bool.false_ne_true, pending_send_of_pos rfl]
  rfl

/-- **A delivery** ends the chain when the handler was stopped, and continues it otherwise. -/
theorem processEvent_chain (plat : Platform Dir) (a : Input Dir) (out : Surroundings)
    {t : Timer EventId} {w : World Dir} {queue : List (Timer EventId)}
    (hperm : List.Perm (t :: queue) w.queue) (hdue : t.due ≤ w.now) :
    ChainEffect plat w a (processEvent plat out t (w.withQueue queue)).1
      (forcedTicks (processEvent plat out t (w.withQueue queue)).2) := by
  cases hevent : t.event with
  | dumpEvent =>
      have hkind : ¬ isGc t.event = true := by
        rw [hevent]
        exact Bool.false_ne_true
      have hpending := pending_perm_of_neg hperm hkind
      cases hrun : w.handler.isRunning with
      | false =>
          rw [processEvent_of_stopped plat (w := w.withQueue queue) hrun]
          exact ChainEffect.idle hpending rfl (Nat.le_refl _) rfl
      | true =>
          obtain ⟨hqueue, hpromises, hnow, hforced⟩ :=
            executeDump_chain plat out hevent (w.withQueue queue)
          rw [processEvent_of_running plat (w := w.withQueue queue) hrun, hevent]
          refine ChainEffect.idle ?_ hpromises hnow.ge hforced
          show List.Perm (pending isGc _) (gcPending w)
          rw [hqueue]
          exact hpending
  | gcEvent =>
      have hkind : isGc t.event = true := by
        rw [hevent]
        rfl
      have hpending := pending_perm_of_pos hperm hkind
      cases hrun : w.handler.isRunning with
      | false =>
          rw [processEvent_of_stopped plat (w := w.withQueue queue) hrun]
          exact ChainEffect.dropped t hpending rfl rfl rfl
      | true =>
          obtain ⟨hqueue, hnow, htick⟩ := executeGc_chain plat out hevent (w.withQueue queue)
          rw [processEvent_of_running plat (w := w.withQueue queue) hrun, hevent]
          let ran := executeJsFunc plat out t (w.withQueue queue)
          have hrearm : gcPending (rearm ran.1)
              = send w.now ran.1.settings.gcDelayTime.toNat .gcEvent (pending isGc queue) := by
            rw [gcPending_rearm, hnow, gcPending, hqueue]
            rfl
          exact ChainEffect.ticked t (pending isGc queue) _ hpending hdue hrearm hnow htick

/-- **Every step** has one of the effects. -/
theorem step_chain {w w' : World Dir} {es : List Event}
    (hs : Watcher.step plat w a = some (w', es)) : ChainEffect plat w a w' (forcedTicks es) := by
  cases step_effect hs with
  | enabled isEnable => exact enable_chain isEnable w
  | switched out isEnabled configs callback =>
      exact enableLeakWatcher_chain out isEnabled configs callback w
  | called t h =>
      rcases h with rfl | ⟨-, obj, msg, rfl⟩
      · exact chainEffect_of_schedule (KeepsSchedule.refl _) thrown_forces_nothing
      · exact chainEffect_of_eq rfl rfl rfl thrown_forces_nothing
  | notified hon h =>
      exact chainEffect_of_schedule h.schedule (fun e he => absurd he List.not_mem_nil)
  | dumped dump outstanding events =>
      exact chainEffect_of_eq rfl rfl rfl (forcedTick_of_mem_map (fun _ => rfl))
  | delivered out i h =>
      obtain ⟨hperm, hdue⟩ := deliver_spec h
      exact processEvent_chain plat _ out hperm hdue
  | settled k settlement h => exact settle_chain h settlement
  | finalized registry hash =>
      exact chainEffect_of_eq rfl rfl rfl (fun e he => absurd he List.not_mem_nil)
  | advanced milliseconds =>
      exact ChainEffect.idle (List.Perm.refl _) rfl (Nat.le_add_right _ _) rfl

-- ── Every run ─────────────────────────────────────────────────────────────────────

/-- A start that finds a GC event pending leaves two. -/
theorem pending_of_not_single {w w' : World Dir} {es : List Event}
    (hnot : ¬ SingleStart plat w a) (h : Watcher.step plat w a = some (w', es)) :
    1 < (gcPending w').length := by
  cases a with
  | enableLeakWatcher out isEnabled configs callback =>
      obtain ⟨hstarts, hpending⟩ := Classical.not_imp.mp hnot
      obtain ⟨rfl, -⟩ := Prod.mk.inj (Option.some.inj h)
      obtain ⟨delay, hqueue⟩ := gcPending_start plat out isEnabled configs callback w
      rw [enableLeakWatcher_of_starts plat hstarts]
      show 1 < (gcPending (launch plat out configs callback
        (configured out isEnabled configs w))).length
      rw [hqueue]
      show 1 < (gcPending w ++ [_]).length
      rw [List.length_append, List.length_singleton]
      exact Nat.lt_add_of_pos_left (List.length_pos_iff.mpr hpending)
  | _ => exact absurd trivial hnot

theorem chainInv_init (load : DumpState Dir) : ChainInv (watcher plat load).init [] :=
  ⟨Nat.zero_le 1, Spaced.empty 0⟩

/-- **A single GC chain** in every run whose starts find none: at most one GC event is
    pending, and any two full GCs are forced by ticks that lie apart by the interval
    the later one was sent with. From there the next step keeps the chain single
    exactly when it is not a start that finds one. -/
theorem single_gc_chain {load : DumpState Dir} {w : World Dir} {tr : List Event}
    (hr : Run (watcher plat load) (SingleStart plat) w tr) :
    (gcPending w).length ≤ 1 ∧ (forcedTicks tr).Pairwise Apart
      ∧ ∀ a w' es, Watcher.step plat w a = some (w', es) →
          ((gcPending w').length ≤ 1 ↔ SingleStart plat w a) := by
  have hI : ChainInv w tr :=
    Run.invariant (I := ChainInv) (chainInv_init load)
      (fun _ _ _ _ _ hI hclean hs => (step_chain hs).inv hI hclean) hr
  refine ⟨hI.single, (List.pairwise_append.mp hI.spaced.apart).1, ?_⟩
  intro a w' es hs
  constructor
  · intro hlen
    by_contra hnot
    exact absurd (pending_of_not_single hnot hs) (Nat.not_lt.mpr hlen)
  · intro hclean
    exact ((step_chain hs).inv hI hclean).single

/-- Two ticks of one session, and the dump event between them. -/
theorem single_gc_chain_twoTicks :
    ∃ (w : World String) (tr : List Event),
      forcedTicks tr = [{ time := 90000, delay := 90000 }, { time := 180000, delay := 90000 }]
        ∧ (gcPending w).length ≤ 1 ∧ (forcedTicks tr).Pairwise Apart := by
  obtain ⟨p, hp⟩ : ∃ p, exec (watcher plainPlatform DumpIdentity.noFiles)
      (SingleStart plainPlatform)
      [.enableLeakWatcher plainSurroundings (.bool true) (.array []) (.obj 1),
        .advance 90000, .deliver plainSurroundings 0, .advance 3000,
        .deliver plainSurroundings 1, .advance 87000, .deliver plainSurroundings 0]
        = some p := ⟨_, rfl⟩
  have hticks : forcedTicks p.2
      = [{ time := 90000, delay := 90000 }, { time := 180000, delay := 90000 }] := by
    obtain rfl := Option.some.inj hp
    rfl
  obtain ⟨hsingle, hapart, -⟩ := single_gc_chain (run_of_exec hp)
  exact ⟨p.1, p.2, hticks, hsingle, hapart⟩

/-- Started, stopped and started again within one interval: two GC events are pending. -/
theorem two_gc_chains :
    ¬ ∀ (Dir : Type) (_ : DecidableEq Dir) (plat : Platform Dir) (load : DumpState Dir)
        (w : World Dir) (tr : List Event), Run (watcher plat load) anyStep w tr →
        (gcPending w).length ≤ 1 := by
  intro h
  obtain ⟨p, hp⟩ : ∃ p, exec (watcher plainPlatform DumpIdentity.noFiles) anyStep
      [.enableLeakWatcher plainSurroundings (.bool true) (.array []) (.obj 1),
        .enableLeakWatcher plainSurroundings (.bool false) (.array []) (.obj 1),
        .enableLeakWatcher plainSurroundings (.bool true) (.array []) (.obj 1)] = some p :=
    ⟨_, rfl⟩
  have htwo : (gcPending p.1).length = 2 := by
    obtain rfl := Option.some.inj hp
    rfl
  have hone := h String inferInstance plainPlatform DumpIdentity.noFiles p.1 p.2
    (run_of_exec hp)
  rw [htwo] at hone
  exact absurd hone (Nat.not_succ_le_self 1)

end TimerChain
