import HiChecker.LifecycleProofs
import HiChecker.QueueLedgerProofs
import HiChecker.TimerChainProofs

/-!
# The events of the handler

A start sends a GC event; a GC event that reaches a running handler runs the GC closure and
sends the next GC event and a dump event. Nothing else is ever sent, and nothing takes an
event out of the queue but its delivery, a stop included.

* **`queueEvents`** — what a step sends and delivers.
* **`Books`** — the ledger of the queue; **`books_step`**: every step keeps it.
* **`events_balance`** — starts, rounds, dump events and pending events, in every run.
* **`next_round_comes`** — while the handler runs, waiting is enough for the next GC round.
-/

namespace EventLedger

open Transition JsValue TimerQueue WatcherConfig Watcher Lifecycle TimerChain
open DumpFile (DumpState)

variable {Dir : Type} (plat : Platform Dir)

-- ── What is sent and delivered ────────────────────────────────────────────────────

/-- What the queue shows of a step. -/
inductive QueueEvent where
  /-- a start, with the GC event it sends -/
  | started (t : Timer EventId)
  /-- a GC event that reaches a running handler, with the two events sent after it -/
  | round (d : Delivery EventId) (gc dump : Timer EventId)
  /-- a dump event that reaches a running handler -/
  | dumped (d : Delivery EventId)
  /-- an event that finds the handler stopped -/
  | dropped (d : Delivery EventId)

/-- The two events that follow a GC round. -/
def nextGc (w : World Dir) : Timer EventId :=
  { event := .gcEvent, sent := w.now, delay := w.settings.gcDelayTime.toNat }

/-- The dump event that a GC event sends. -/
def nextDump (w : World Dir) : Timer EventId :=
  { event := .dumpEvent, sent := w.now, delay := w.settings.dumpDelayTime.toNat }

/-- What the delivery of an event shows. -/
def deliveryEvent (w : World Dir) (t : Timer EventId) : QueueEvent :=
  if !w.handler.isRunning then .dropped ⟨t, w.now⟩
  else if isGc t.event then .round ⟨t, w.now⟩ (nextGc w) (nextDump w)
  else .dumped ⟨t, w.now⟩

/-- What a step sends and delivers. -/
def queueEvents (w : World Dir) : Input Dir → List QueueEvent
  | .enableLeakWatcher out isEnabled configs callback =>
      if starts plat out isEnabled configs callback w then
        [.started (nextGc (configured out isEnabled configs w))]
      else []
  | .deliver _ i =>
      match deliver w.now w.queue i with
      | none => []
      | some (t, _) => [deliveryEvent w t]
  | _ => []

/-- The events it sends. -/
def sentBy : QueueEvent → List (Timer EventId)
  | .started t => [t]
  | .round _ gc dump => [gc, dump]
  | .dumped _ => []
  | .dropped _ => []

/-- The delivery it is. -/
def deliveryOf : QueueEvent → Option (Delivery EventId)
  | .started _ => none
  | .round d _ _ => some d
  | .dumped d => some d
  | .dropped d => some d

/-- Everything that was sent. -/
def sent (tr : List QueueEvent) : List (Timer EventId) := tr.flatMap sentBy

/-- Everything that was delivered, to a handler that runs or does not. -/
def deliveries (tr : List QueueEvent) : List (Delivery EventId) := tr.filterMap deliveryOf

theorem sent_snoc (tr : List QueueEvent) (e : QueueEvent) :
    sent (tr ++ [e]) = sent tr ++ sentBy e := by
  rw [sent, List.flatMap_append, List.flatMap_singleton]
  rfl

theorem deliveries_snoc (tr : List QueueEvent) (e : QueueEvent) :
    deliveries (tr ++ [e]) = deliveries tr ++ (deliveryOf e).toList := by
  rw [deliveries, List.filterMap_append]
  cases e with
  | _ => rfl

/-- The watcher, seen through its queue. -/
def queueHistory [DecidableEq Dir] (load : DumpState Dir) :
    Machine (World Dir) (Input Dir) QueueEvent :=
  (watcher plat load).observing (queueEvents plat)

-- ── What keeps the handler as it is ───────────────────────────────────────────────

/-- The handler may run, and its closures are the same. -/
structure SameHandler (w w' : World Dir) : Prop where
  running : w'.handler.isRunning = w.handler.isRunning
  gcTask : w'.handler.gcFuncRef = w.handler.gcFuncRef
  dumpTask : w'.handler.dumpFuncRef = w.handler.dumpFuncRef

theorem SameHandler.refl (w : World Dir) : SameHandler w w := ⟨rfl, rfl, rfl⟩

theorem sameHandler_of_eq {w w' : World Dir} (h : w'.handler = w.handler) :
    SameHandler w w' := by
  refine ⟨?_, ?_, ?_⟩
  · rw [h]
  · rw [h]
  · rw [h]

theorem SameHandler.trans {w w' w'' : World Dir} (h : SameHandler w w')
    (h' : SameHandler w' w'') : SameHandler w w'' :=
  ⟨h'.running.trans h.running, h'.gcTask.trans h.gcTask, h'.dumpTask.trans h.dumpTask⟩

/-- The native callback touches neither reference nor the flag. -/
theorem executeNative_handler (out : Surroundings) (config : BitVec 32) (w : World Dir) :
    SameHandler w (executeNative out config w) := by
  simp only [executeNative]
  split
  · cases hctx : out.uiContext with
    | none =>
        simp only [registerNative, hctx]
        exact ⟨rfl, rfl, rfl⟩
    | some uiContext =>
        simp only [registerNative, hctx]
        exact ⟨rfl, rfl, rfl⟩
  · exact SameHandler.refl w

/-- Nor does the ability callback. -/
theorem executeAbility_handler (config : BitVec 32) (w : World Dir) :
    SameHandler w (executeAbility plat config w) := by
  simp only [executeAbility]
  split
  · cases hctx : plat.hasContext with
    | false =>
        simp only [registerAbilityLifecycleCallback, hctx]
        exact ⟨rfl, rfl, rfl⟩
    | true =>
        simp only [registerAbilityLifecycleCallback, hctx]
        exact ⟨rfl, rfl, rfl⟩
  · exact SameHandler.refl w

/-- Registering callbacks leaves the closures and `isRunning_` alone. -/
theorem executeRegister_handler (out : Surroundings) (config : BitVec 32) (w : World Dir) :
    SameHandler w (executeRegister plat out config w) := by
  simp only [executeRegister, executeComponent_eq, executeWindow_eq]
  refine SameHandler.trans ?_ (executeAbility_handler plat config _)
  have hnative := fun v : World Dir => executeNative_handler out config v
  exact ⟨(hnative _).running, (hnative _).gcTask, (hnative _).dumpTask⟩

/-- Nor does a retry. -/
theorem retryRegister_handler (out : Surroundings) (w : World Dir) :
    SameHandler w (retryRegister plat out w) := by
  cases hretry : w.retryMonitorObjectTypes with
  | none =>
      simp only [retryRegister, hretry]
      exact SameHandler.refl w
  | some types =>
      simp only [retryRegister, hretry]
      split
      · exact (executeRegister_handler plat out types w).trans ⟨rfl, rfl, rfl⟩
      · exact SameHandler.refl w

/-- The GC closure leaves the handler, the queue, the clock and the settings alone. -/
theorem gcTask_keeps (out : Surroundings) (tick : Tick) (task : GcTask) (w : World Dir) :
    let w' := (gcTask plat out tick task w).1
    SameHandler w w' ∧ w'.queue = w.queue ∧ w'.now = w.now ∧ w'.settings = w.settings := by
  intro w'
  obtain ⟨appState, promises, hframe⟩ := gcTask_frame plat out tick task w
  have hretry := retryRegister_handler plat out w
  obtain ⟨_, _, _, _, _, _, heq⟩ := retryRegister_frame plat out w
  have hsettings : (retryRegister plat out w).settings = w.settings := by rw [heq]
  have hqueue : (retryRegister plat out w).queue = w.queue := by rw [heq]
  have hnow : (retryRegister plat out w).now = w.now := by rw [heq]
  show SameHandler w (gcTask plat out tick task w).1 ∧ (gcTask plat out tick task w).1.queue = _
    ∧ (gcTask plat out tick task w).1.now = _ ∧ (gcTask plat out tick task w).1.settings = _
  rw [hframe]
  exact ⟨hretry.trans ⟨rfl, rfl, rfl⟩, hqueue, hnow, hsettings⟩

/-- Nor do the registrations of a start. -/
theorem launch_handler (out : Surroundings) (configs : Configs) (callback : JsVal)
    (w : World Dir) : SameHandler (arm out configs callback w)
      (launch plat out configs callback w) :=
  executeRegister_handler plat out _ _

-- ── The books of the queue ────────────────────────────────────────────────────────

/-- The ledger of a state reached with a trace. -/
def Books (w : World Dir) (tr : List QueueEvent) : Prop :=
  Ledger w.now w.queue (sent tr) (deliveries tr)

variable {plat} {tr : List QueueEvent}

/-- A step that sends and delivers nothing. -/
theorem Books.idle {w w' : World Dir} (h : Books w tr) (hqueue : w'.queue = w.queue)
    (hnow : w.now ≤ w'.now) : Books w' (tr ++ []) := by
  show Ledger w'.now w'.queue _ _
  rw [List.append_nil, hqueue]
  exact h.advance hnow

/-- A start. -/
theorem Books.start {w w' : World Dir} (h : Books w tr) {v : World Dir} (hv : v.now = w.now)
    (hqueue : w'.queue = send w.now v.settings.gcDelayTime.toNat .gcEvent w.queue)
    (hnow : w'.now = w.now) : Books w' (tr ++ [.started (nextGc v)]) := by
  show Ledger w'.now w'.queue _ _
  rw [sent_snoc, deliveries_snoc, hqueue, hnow]
  show Ledger w.now _ (sent tr ++ [nextGc v]) (deliveries tr ++ [])
  rw [List.append_nil, nextGc, hv]
  exact Ledger.send h v.settings.gcDelayTime.toNat EventId.gcEvent

/-- A delivery that nothing is sent after. -/
theorem Books.taken {w v : World Dir} {t : Timer EventId} {queue : List (Timer EventId)}
    {i : Nat} (h : Books w tr) (hd : deliver w.now w.queue i = some (t, queue))
    (hqueue : v.queue = queue) (hnow : v.now = w.now) {e : QueueEvent}
    (hsent : sentBy e = []) (he : deliveryOf e = some ⟨t, w.now⟩) : Books v (tr ++ [e]) := by
  show Ledger v.now v.queue _ _
  rw [sent_snoc, deliveries_snoc, hqueue, hnow, hsent, he, List.append_nil]
  exact Ledger.deliver h hd

/-- A delivery that a round follows. -/
theorem Books.round {w v : World Dir} {t : Timer EventId} {queue : List (Timer EventId)}
    {i : Nat} (h : Books w tr) (hd : deliver w.now w.queue i = some (t, queue))
    (hqueue : v.queue = queue) (hnow : v.now = w.now) (hsettings : v.settings = w.settings) :
    Books (rearm v) (tr ++ [.round ⟨t, w.now⟩ (nextGc w) (nextDump w)]) := by
  show Ledger v.now (send v.now v.settings.dumpDelayTime.toNat EventId.dumpEvent
    (send v.now v.settings.gcDelayTime.toNat EventId.gcEvent v.queue)) _ _
  rw [sent_snoc, deliveries_snoc, hqueue, hnow, hsettings]
  have hgc := Ledger.send (Ledger.deliver h hd) w.settings.gcDelayTime.toNat EventId.gcEvent
  have hboth := Ledger.send hgc w.settings.dumpDelayTime.toNat EventId.dumpEvent
  have hsent : sent tr ++ [nextGc w, nextDump w]
      = send w.now w.settings.dumpDelayTime.toNat EventId.dumpEvent
          (send w.now w.settings.gcDelayTime.toNat EventId.gcEvent (sent tr)) := by
    rw [send, send, List.append_assoc]
    rfl
  show Ledger w.now _ (sent tr ++ [nextGc w, nextDump w]) _
  rw [hsent]
  exact hboth

/-- A start sends one GC event. -/
theorem launch_queue (out : Surroundings) (isEnabled : JsVal) (configs : Configs)
    (callback : JsVal) (w : World Dir) :
    (launch plat out configs callback (configured out isEnabled configs w)).queue
      = send w.now (configured out isEnabled configs w).settings.gcDelayTime.toNat .gcEvent
          w.queue :=
  (launch_schedule plat out configs callback (configured out isEnabled configs w)).queue

/-- **A switch** sends one GC event when it starts the watcher, and none otherwise. -/
theorem books_switch (out : Surroundings) (isEnabled : JsVal) (configs : Configs)
    (callback : JsVal) {w : World Dir} (h : Books w tr) :
    Books (enableLeakWatcher plat out isEnabled configs callback w).1
      (tr ++ queueEvents plat w (.enableLeakWatcher out isEnabled configs callback)) := by
  simp only [queueEvents]
  have hout := enableLeakWatcher_outcome plat out isEnabled configs callback w
  cases hstarts : starts plat out isEnabled configs callback w with
  | true =>
      rw [enableLeakWatcher_of_starts plat hstarts, if_pos rfl]
      have hschedule :=
        launch_schedule plat out configs callback (configured out isEnabled configs w)
      exact h.start rfl (launch_queue out isEnabled configs callback w) hschedule.now
  | false =>
      rw [if_neg Bool.false_ne_true]
      generalize enableLeakWatcher plat out isEnabled configs callback w = result at hout ⊢
      cases hout with
      | refused _ t => exact h.idle rfl (Nat.le_refl _)
      | stopped _ =>
          have hshut := shutdown_schedule plat out { w with enabled := isEnabled }
          exact h.idle hshut.queue hshut.now.ge
      | rejected _ _ _ => exact h.idle rfl (Nat.le_refl _)
      | idle _ _ t _ => exact h.idle rfl (Nat.le_refl _)
      | started hs => exact absurd (hstarts.symm.trans hs) Bool.false_ne_true

theorem deliveryEvent_dropped {w : World Dir} (hrun : w.handler.isRunning = false)
    (t : Timer EventId) : deliveryEvent w t = .dropped ⟨t, w.now⟩ := by
  rw [deliveryEvent, hrun]
  rfl

theorem deliveryEvent_dumped {w : World Dir} (hrun : w.handler.isRunning = true)
    {t : Timer EventId} (hevent : t.event = .dumpEvent) :
    deliveryEvent w t = .dumped ⟨t, w.now⟩ := by
  rw [deliveryEvent, hrun, hevent]
  rfl

theorem deliveryEvent_round {w : World Dir} (hrun : w.handler.isRunning = true)
    {t : Timer EventId} (hevent : t.event = .gcEvent) :
    deliveryEvent w t = .round ⟨t, w.now⟩ (nextGc w) (nextDump w) := by
  rw [deliveryEvent, hrun, hevent]
  rfl

variable [DecidableEq Dir]

/-- **A delivery** takes one event out, and a round puts two in. -/
theorem books_deliver (out : Surroundings) {t : Timer EventId} {w : World Dir}
    {queue : List (Timer EventId)} {i : Nat} (hd : deliver w.now w.queue i = some (t, queue))
    (h : Books w tr) :
    Books (processEvent plat out t (w.withQueue queue)).1 (tr ++ [deliveryEvent w t]) := by
  have heffect := processEvent_effect plat out t (w.withQueue queue)
  generalize processEvent plat out t (w.withQueue queue) = result at heffect ⊢
  cases heffect with
  | dropped hrun =>
      rw [deliveryEvent_dropped (w := w) hrun]
      exact h.taken (v := w.withQueue queue) (e := .dropped _) hd rfl rfl rfl rfl
  | noDump hrun hevent =>
      rw [deliveryEvent_dumped (w := w) hrun hevent]
      exact h.taken (v := w.withQueue queue) (e := .dumped _) hd rfl rfl rfl rfl
  | dumped task hrun hevent =>
      obtain ⟨_, _, _, hframe⟩ := dumpTask_frame plat out task (w.withQueue queue)
      have hqueue : (dumpTask plat out task (w.withQueue queue)).1.queue = queue := by
        rw [hframe]
        rfl
      have hnow : (dumpTask plat out task (w.withQueue queue)).1.now = w.now := by
        rw [hframe]
        rfl
      rw [deliveryEvent_dumped (w := w) hrun hevent]
      exact h.taken (e := .dumped _) hd hqueue hnow rfl rfl
  | noGc hrun hevent htask =>
      rw [deliveryEvent_round (w := w) hrun hevent]
      exact h.round hd rfl rfl rfl
  | collected task hrun hevent htask =>
      obtain ⟨-, hqueue, hnow, hsettings⟩ :=
        gcTask_keeps plat out (t.tick (w.withQueue queue).now) task (w.withQueue queue)
      rw [deliveryEvent_round (w := w) hrun hevent]
      exact h.round hd hqueue hnow hsettings

/-- **Every step** keeps the books. -/
theorem books_step {w w' : World Dir} {a : Input Dir} {es : List Event}
    (hs : Watcher.step plat w a = some (w', es)) (h : Books w tr) :
    Books w' (tr ++ queueEvents plat w a) := by
  cases a with
  | deliver out i =>
      obtain ⟨t, queue, hd, rfl, -⟩ := step_deliver hs
      simp only [queueEvents, hd]
      exact books_deliver out hd h
  | enableLeakWatcher out isEnabled configs callback =>
      obtain ⟨rfl, -⟩ := Prod.mk.inj (Option.some.inj hs)
      exact books_switch out isEnabled configs callback h
  | _ =>
      have hquiet := step_quiet hs trivial
      exact h.idle hquiet.queue hquiet.clock

/-- The books are kept along every run. -/
theorem books_of_run {load : DumpState Dir} {w : World Dir}
    (hr : Run (queueHistory plat load) anyStep w tr) : Books w tr := by
  refine Run.invariant (I := Books) ?_ ?_ hr
  · exact Ledger.empty 0
  · intro w tr a w' es h _ hs
    obtain ⟨⟨_, hstep⟩, rfl⟩ := Machine.observing_step hs
    exact books_step hstep h

-- ── Rounds, dumps and chains ──────────────────────────────────────────────────────

/-- What the kinds of events say of what they carry. -/
def Proper : QueueEvent → Prop
  | .started t => t.event = .gcEvent
  | .round d gc dump => d.timer.event = .gcEvent ∧ gc.event = .gcEvent ∧ gc.sent = d.time
      ∧ dump.event = .dumpEvent ∧ dump.sent = d.time
  | .dumped d => d.timer.event = .dumpEvent
  | .dropped _ => True

omit [DecidableEq Dir] in
theorem proper_deliveryEvent (w : World Dir) (t : Timer EventId) :
    Proper (deliveryEvent w t) := by
  cases hrun : w.handler.isRunning with
  | false =>
      rw [deliveryEvent_dropped hrun]
      exact trivial
  | true =>
      cases hevent : t.event with
      | dumpEvent =>
          rw [deliveryEvent_dumped hrun hevent]
          exact hevent
      | gcEvent =>
          rw [deliveryEvent_round hrun hevent]
          exact ⟨hevent, rfl, rfl, rfl, rfl⟩

omit [DecidableEq Dir] in
theorem proper_queueEvents (w : World Dir) (a : Input Dir) :
    ∀ e ∈ queueEvents plat w a, Proper e := by
  intro e he
  cases a with
  | deliver out i =>
      simp only [queueEvents] at he
      split at he
      · exact absurd he List.not_mem_nil
      · rw [List.mem_singleton.mp he]
        exact proper_deliveryEvent w _
  | enableLeakWatcher out isEnabled configs callback =>
      simp only [queueEvents] at he
      split at he
      · rw [List.mem_singleton.mp he]
        exact rfl
      · exact absurd he List.not_mem_nil
  | _ => exact absurd he List.not_mem_nil

/-- Every event of a run is proper. -/
theorem proper_of_run {load : DumpState Dir} {w : World Dir}
    (hr : Run (queueHistory plat load) anyStep w tr) : ∀ e ∈ tr, Proper e := by
  refine Run.invariant (I := fun _ tr => ∀ e ∈ tr, Proper e)
    (fun e he => absurd he List.not_mem_nil) ?_ hr
  intro w tr a w' es h _ hs e he
  obtain ⟨-, rfl⟩ := Machine.observing_step hs
  rcases List.mem_append.mp he with he | he
  · exact h e he
  · exact proper_queueEvents w a e he

/-- It is a dump event. -/
def isDump (event : EventId) : Bool := !isGc event

/-- The GC event of a start. -/
def startOf : QueueEvent → Option (Timer EventId)
  | .started t => some t
  | _ => none

/-- The dump event that a round sends. -/
def dumpOf : QueueEvent → Option (Timer EventId)
  | .round _ _ dump => some dump
  | _ => none

/-- The GC events that found the handler stopped: the end of a chain. -/
def endOf : QueueEvent → Option (Delivery EventId)
  | .dropped d => if isGc d.timer.event then some d else none
  | _ => none

/-- The dump events that were delivered. -/
def dumpDeliveries (tr : List QueueEvent) : List (Timer EventId) :=
  pending isDump ((deliveries tr).map Delivery.timer)

/-- The dump events that were sent are those of the rounds. -/
theorem pending_dump_sent (h : ∀ e ∈ tr, Proper e) :
    pending isDump (sent tr) = tr.filterMap dumpOf := by
  induction tr with
  | nil => rfl
  | cons e tr ih =>
      have hrest := ih (fun x hx => h x (List.mem_cons_of_mem e hx))
      have hproper := h e List.mem_cons_self
      have hcons : pending isDump (sent (e :: tr))
          = pending isDump (sentBy e) ++ pending isDump (sent tr) := by
        rw [sent, List.flatMap_cons]
        exact List.filter_append _ _
      rw [hcons, hrest, List.filterMap_cons]
      cases e with
      | started t =>
          have hkind : t.event = .gcEvent := hproper
          simp [sentBy, pending, Timer.ofKind, isDump, dumpOf, isGc, hkind]
      | round d gc dump =>
          obtain ⟨-, hgc, -, hdump, -⟩ := hproper
          simp [sentBy, pending, Timer.ofKind, isDump, dumpOf, isGc, hgc, hdump]
      | dumped d => rfl
      | dropped d => rfl

/-- A GC event was sent by a start or by a round. -/
theorem gc_sent (h : ∀ e ∈ tr, Proper e) :
    (pending isGc (sent tr)).length
      = (tr.filterMap startOf).length + (tr.filterMap dumpOf).length := by
  induction tr with
  | nil => rfl
  | cons e tr ih =>
      have hrest := ih (fun x hx => h x (List.mem_cons_of_mem e hx))
      have hproper := h e List.mem_cons_self
      have hcons : pending isGc (sent (e :: tr))
          = pending isGc (sentBy e) ++ pending isGc (sent tr) := by
        rw [sent, List.flatMap_cons]
        exact List.filter_append _ _
      rw [hcons, List.length_append, hrest]
      cases e with
      | started t =>
          have hkind : t.event = .gcEvent := hproper
          simp [sentBy, pending, Timer.ofKind, startOf, dumpOf, isGc, hkind, List.filterMap_cons]
          omega
      | round d gc dump =>
          obtain ⟨-, hgc, -, hdump, -⟩ := hproper
          simp [sentBy, pending, Timer.ofKind, startOf, dumpOf, isGc, hgc, hdump,
            List.filterMap_cons]
          omega
      | dumped d => exact Nat.zero_add _
      | dropped d => exact Nat.zero_add _

/-- A GC event was delivered for a round, or at the end of its chain. -/
theorem gc_delivered (h : ∀ e ∈ tr, Proper e) :
    (pending isGc ((deliveries tr).map Delivery.timer)).length
      = (tr.filterMap dumpOf).length + (tr.filterMap endOf).length := by
  induction tr with
  | nil => rfl
  | cons e tr ih =>
      have hrest := ih (fun x hx => h x (List.mem_cons_of_mem e hx))
      have hproper := h e List.mem_cons_self
      rw [deliveries] at hrest ⊢
      cases e with
      | started t => exact hrest
      | round d gc dump =>
          obtain ⟨hkind, -⟩ := hproper
          simp [deliveryOf, pending, Timer.ofKind, dumpOf, endOf, isGc, hkind,
            List.filterMap_cons] at hrest ⊢
          omega
      | dumped d =>
          have hkind : d.timer.event = .dumpEvent := hproper
          simp [deliveryOf, pending, Timer.ofKind, dumpOf, endOf, isGc, hkind,
            List.filterMap_cons] at hrest ⊢
          omega
      | dropped d =>
          cases hkind : d.timer.event with
          | gcEvent =>
              simp [deliveryOf, pending, Timer.ofKind, dumpOf, endOf, isGc, hkind,
            List.filterMap_cons] at hrest ⊢
              omega
          | dumpEvent =>
              simp [deliveryOf, pending, Timer.ofKind, dumpOf, endOf, isGc, hkind,
            List.filterMap_cons] at hrest ⊢
              omega

/-- **The events of the handler balance**, in every run. Events are delivered when they are due
    and in the order of their due times. Each GC round has one dump event, sent when the round
    ran, which is pending or was delivered once. And the GC events pending, with those
    that found the handler stopped, are as many as the starts. -/
theorem events_balance {load : DumpState Dir} {w : World Dir}
    (hr : Run (queueHistory plat load) anyStep w tr) :
    ((∀ d ∈ deliveries tr, d.timer.due ≤ d.time)
      ∧ ((deliveries tr).map (fun d => d.timer.due)).Pairwise (· ≤ ·)) ∧
    (List.Perm (pending isDump w.queue ++ dumpDeliveries tr) (tr.filterMap dumpOf)
      ∧ ∀ d gc dump, .round d gc dump ∈ tr → dump.sent = d.time) ∧
    (gcPending w).length + (tr.filterMap endOf).length = (tr.filterMap startOf).length := by
  have hbooks := books_of_run hr
  have hproper := proper_of_run hr
  have hfilter : ∀ p : EventId → Bool,
      List.Perm (pending p w.queue ++ pending p ((deliveries tr).map Delivery.timer))
        (pending p (sent tr)) := by
    intro p
    have hperm := hbooks.balanced.filter (Timer.ofKind p)
    rw [List.filter_append] at hperm
    exact hperm
  refine ⟨⟨hbooks.due, hbooks.in_order⟩, ⟨?_, ?_⟩, ?_⟩
  · rw [← pending_dump_sent hproper]
    exact hfilter isDump
  · intro d gc dump hround
    exact (hproper _ hround).2.2.2.2
  · have hlen := (hfilter isGc).length_eq
    rw [List.length_append, gc_sent hproper, gc_delivered hproper] at hlen
    show (pending isGc w.queue).length + _ = _
    omega

/-- Two rounds and the dump event of the first; the second one is still to come when the
    handler is stopped. -/
def twoRounds : List (Input String) :=
  [.enableLeakWatcher plainSurroundings (.bool true) (.array []) (.obj 1), .advance 90000,
    .deliver plainSurroundings 0, .advance 5000, .deliver plainSurroundings 1, .advance 85000,
    .deliver plainSurroundings 0,
    .enableLeakWatcher plainSurroundings (.bool false) (.array []) (.obj 1), .advance 90000,
    .deliver plainSurroundings 1, .deliver plainSurroundings 0]

/-- The one start is accounted for by the GC event that found the handler stopped. -/
theorem events_balance_twoRounds :
    ∃ (w : World String) (tr : List QueueEvent),
      Run (queueHistory plainPlatform DumpIdentity.noFiles) anyStep w tr
        ∧ (tr.filterMap dumpOf).length = 2 ∧ dumpDeliveries tr = tr.filterMap dumpOf
        ∧ (gcPending w).length = 0 := by
  obtain ⟨p, hp⟩ : ∃ p, exec (queueHistory plainPlatform DumpIdentity.noFiles) anyStep twoRounds
      = some p := ⟨_, rfl⟩
  obtain ⟨-, -, hchains⟩ := events_balance (run_of_exec hp)
  obtain ⟨hrounds, hdumps, hends, hstarts⟩ : (p.2.filterMap dumpOf).length = 2
      ∧ dumpDeliveries p.2 = p.2.filterMap dumpOf ∧ (p.2.filterMap endOf).length = 1
      ∧ (p.2.filterMap startOf).length = 1 := by
    obtain rfl := Option.some.inj hp
    exact ⟨rfl, rfl, rfl, rfl⟩
  refine ⟨p.1, p.2, run_of_exec hp, hrounds, hdumps, ?_⟩
  omega

-- ── The next round ────────────────────────────────────────────────────────────────

/-- A handler that runs has both closures, and its chain goes on. -/
structure Armed (w : World Dir) : Prop where
  gcTask : ∃ task, w.handler.gcFuncRef = some task
  dumpTask : ∃ task, w.handler.dumpFuncRef = some task
  chain : gcPending w ≠ []

omit [DecidableEq Dir] in
/-- What touches neither the handler nor the GC events keeps it armed. -/
theorem Armed.same {w w' : World Dir} (h : Armed w) (hhandler : SameHandler w w')
    (hqueue : List.Perm (gcPending w') (gcPending w)) : Armed w' := by
  refine ⟨?_, ?_, ?_⟩
  · rw [hhandler.gcTask]
    exact h.gcTask
  · rw [hhandler.dumpTask]
    exact h.dumpTask
  · intro hnil
    rw [hnil] at hqueue
    exact h.chain hqueue.nil_eq.symm

/-- The invariant of every run. -/
def ArmedWhileRunning (w : World Dir) : Prop := w.handler.isRunning = true → Armed w

omit [DecidableEq Dir] in
theorem ArmedWhileRunning.same {w w' : World Dir} (h : ArmedWhileRunning w)
    (hhandler : w'.handler = w.handler) (hqueue : w'.queue = w.queue) :
    ArmedWhileRunning w' := by
  intro hrun
  rw [hhandler] at hrun
  refine (h hrun).same (sameHandler_of_eq hhandler) ?_
  rw [gcPending, hqueue]
  exact List.Perm.refl _

omit [DecidableEq Dir] in
/-- A start arms the handler, a shutdown stops it. -/
theorem armed_switch (out : Surroundings) (isEnabled : JsVal) (configs : Configs)
    (callback : JsVal) {w : World Dir} (h : ArmedWhileRunning w) :
    ArmedWhileRunning (enableLeakWatcher plat out isEnabled configs callback w).1 := by
  have hout := enableLeakWatcher_outcome plat out isEnabled configs callback w
  generalize enableLeakWatcher plat out isEnabled configs callback w = result at hout ⊢
  cases hout with
  | refused _ t => exact h
  | stopped _ =>
      intro hrun
      have hoff := (shutdown_spec plat out { w with enabled := isEnabled }).1.running
      exact absurd (hoff.symm.trans hrun) Bool.false_ne_true
  | rejected _ _ _ => exact h.same rfl rfl
  | idle _ _ t _ => exact h.same rfl rfl
  | started hs =>
      intro _
      have hlaunch := launch_handler plat out configs callback (configured out isEnabled configs w)
      obtain ⟨delay, hqueue⟩ := gcPending_start plat out isEnabled configs callback w
      refine ⟨⟨_, hlaunch.gcTask⟩, ⟨_, hlaunch.dumpTask⟩, ?_⟩
      show gcPending (launch plat out configs callback (configured out isEnabled configs w)) ≠ []
      rw [hqueue]
      exact List.append_ne_nil_of_right_ne_nil _ (List.cons_ne_nil _ _)

omit [DecidableEq Dir] in
/-- Sending both events again goes on with the chain. -/
theorem armed_rearm {w v : World Dir} (h : Armed w) (hhandler : SameHandler w v) :
    Armed (rearm v) := by
  refine ⟨?_, ?_, ?_⟩
  · show ∃ task, v.handler.gcFuncRef = some task
    rw [hhandler.gcTask]
    exact h.gcTask
  · show ∃ task, v.handler.dumpFuncRef = some task
    rw [hhandler.dumpTask]
    exact h.dumpTask
  · rw [gcPending_rearm]
    exact List.append_ne_nil_of_right_ne_nil _ (List.cons_ne_nil _ _)

omit [DecidableEq Dir] in
/-- A delivery that leaves the handler and the rest of the queue as they were. -/
theorem armed_taken {w v : World Dir} {t : Timer EventId} {queue : List (Timer EventId)}
    (hperm : List.Perm (t :: queue) w.queue) (hevent : t.event = .dumpEvent) (h : Armed w)
    (hhandler : SameHandler w v) (hqueue : v.queue = queue) : Armed v := by
  have hkind : ¬ isGc t.event = true := by
    rw [hevent]
    exact Bool.false_ne_true
  refine h.same hhandler ?_
  rw [gcPending, hqueue]
  exact pending_perm_of_neg hperm hkind

variable (plat) in
theorem dumpTask_keeps (out : Surroundings) (task : DumpTask) (w : World Dir) :
    let w' := (dumpTask plat out task w).1
    SameHandler w w' ∧ w'.queue = w.queue ∧ w'.now = w.now := by
  intro w'
  obtain ⟨_, _, _, hframe⟩ := dumpTask_frame plat out task w
  show SameHandler w (dumpTask plat out task w).1 ∧ (dumpTask plat out task w).1.queue = _
    ∧ (dumpTask plat out task w).1.now = _
  rw [hframe]
  exact ⟨⟨rfl, rfl, rfl⟩, rfl, rfl⟩

/-- A GC event is followed by the next one. -/
theorem armed_deliver (out : Surroundings) {t : Timer EventId} {w : World Dir}
    {queue : List (Timer EventId)} (hperm : List.Perm (t :: queue) w.queue)
    (h : ArmedWhileRunning w) :
    ArmedWhileRunning (processEvent plat out t (w.withQueue queue)).1 := by
  have heffect := processEvent_effect plat out t (w.withQueue queue)
  generalize processEvent plat out t (w.withQueue queue) = result at heffect ⊢
  cases heffect with
  | dropped hrun => exact fun hon => absurd (hrun.symm.trans hon) Bool.false_ne_true
  | noDump hrun hevent => exact fun _ => armed_taken hperm hevent (h hrun) ⟨rfl, rfl, rfl⟩ rfl
  | dumped task hrun hevent =>
      obtain ⟨hhandler, hqueue, -⟩ := dumpTask_keeps plat out task (w.withQueue queue)
      exact fun _ => armed_taken hperm hevent (h hrun)
        ⟨hhandler.running, hhandler.gcTask, hhandler.dumpTask⟩ hqueue
  | noGc hrun hevent htask => exact fun _ => armed_rearm (h hrun) ⟨rfl, rfl, rfl⟩
  | collected task hrun hevent htask =>
      obtain ⟨hhandler, -⟩ :=
        gcTask_keeps plat out (t.tick (w.withQueue queue).now) task (w.withQueue queue)
      exact fun _ => armed_rearm (h hrun) ⟨hhandler.running, hhandler.gcTask, hhandler.dumpTask⟩

/-- **A step keeps a running handler armed.** -/
theorem armed_step {w w' : World Dir} {a : Input Dir} {es : List Event}
    (hs : Watcher.step plat w a = some (w', es)) (h : ArmedWhileRunning w) :
    ArmedWhileRunning w' := by
  cases a with
  | deliver out i =>
      obtain ⟨t, queue, hd, rfl, -⟩ := step_deliver hs
      exact armed_deliver out (deliver_spec hd).1 h
  | enableLeakWatcher out isEnabled configs callback =>
      obtain ⟨rfl, -⟩ := Prod.mk.inj (Option.some.inj hs)
      exact armed_switch out isEnabled configs callback h
  | _ =>
      have hquiet := step_quiet hs trivial
      exact h.same hquiet.handler hquiet.queue

/-- A running handler is armed along every run. -/
theorem armed_of_run {load : DumpState Dir} {w : World Dir} {events : List Event}
    (hr : Run (watcher plat load) anyStep w events) : ArmedWhileRunning w :=
  Run.state_invariant (I := ArmedWhileRunning)
    (fun hrun => absurd hrun Bool.false_ne_true)
    (fun _ _ _ _ h _ hs => armed_step hs h) hr

/-- Nothing but waiting: the clock goes on, and events are delivered. -/
def Waits (out : Surroundings) (_ : World Dir) : Input Dir → Prop
  | .advance _ => True
  | .deliver o _ => o = out
  | _ => False

/-- The watcher from a state on. -/
def watcherFrom (plat : Platform Dir) (w : World Dir) : Machine (World Dir) (Input Dir) Event :=
  ⟨w, Watcher.step plat⟩

/-- The state on the way to the delivery of `t`: the clock stands at `time`, and nothing but dump
    events was delivered. -/
structure OnTheWay (w : World Dir) (t : Timer EventId) (time : Nat) (v : World Dir) : Prop where
  handler : SameHandler w v
  clock : v.now = time
  pending : List.Perm (gcPending v) (gcPending w)
  queued : t ∈ v.queue

variable (plat) in
/-- A dump event leaves the handler, the rest of the queue and the clock alone. -/
theorem dump_delivered (out : Surroundings) {t : Timer EventId} (hevent : t.event = .dumpEvent)
    (queue : List (Timer EventId)) (w : World Dir) :
    let w' := (processEvent plat out t (w.withQueue queue)).1
    SameHandler w w' ∧ w'.queue = queue ∧ w'.now = w.now := by
  have heffect := processEvent_effect plat out t (w.withQueue queue)
  generalize processEvent plat out t (w.withQueue queue) = result at heffect ⊢
  cases heffect with
  | dropped hrun => exact ⟨⟨rfl, rfl, rfl⟩, rfl, rfl⟩
  | noDump hrun _ => exact ⟨⟨rfl, rfl, rfl⟩, rfl, rfl⟩
  | dumped task hrun _ =>
      obtain ⟨hhandler, hqueue, hnow⟩ := dumpTask_keeps plat out task (w.withQueue queue)
      exact ⟨⟨hhandler.running, hhandler.gcTask, hhandler.dumpTask⟩, hqueue, hnow⟩
  | noGc hrun hgc _ => exact EventId.noConfusion (hevent.symm.trans hgc)
  | collected task hrun hgc _ => exact EventId.noConfusion (hevent.symm.trans hgc)

/-- Dump events that are due earlier are delivered first; there are finitely many of them. -/
theorem drain {w : World Dir} (out : Surroundings) {t : Timer EventId} {time : Nat}
    (hdue : t.due ≤ time) (hfirst : ∀ u ∈ gcPending w, t.due ≤ u.due) (n : Nat) :
    ∀ {v : World Dir} {es : List Event}, v.queue.length = n →
      Run (watcherFrom plat w) (Waits out) v es → OnTheWay w t time v →
      ∃ v' es', Run (watcherFrom plat w) (Waits out) v' es' ∧ OnTheWay w t time v'
        ∧ ∀ u ∈ v'.queue, t.due ≤ u.due := by
  induction n with
  | zero =>
      intro v es hlen hr hway
      have hnil := List.eq_nil_of_length_eq_zero hlen
      have hmem := hway.queued
      rw [hnil] at hmem
      exact absurd hmem List.not_mem_nil
  | succ n ih =>
      intro v es hlen hr hway
      obtain ⟨u, hu, hleast⟩ := exists_first (List.ne_nil_of_mem hway.queued)
      by_cases hle : t.due ≤ u.due
      · exact ⟨v, es, hr, hway, fun x hx => Nat.le_trans hle (hleast x hx)⟩
      · have hlt : u.due < t.due := Nat.lt_of_not_le hle
        -- a GC event that is due earlier would be one of `w`
        have hevent : u.event = .dumpEvent := by
          cases hkind : u.event with
          | dumpEvent => rfl
          | gcEvent =>
              have hgc : u ∈ gcPending v := by
                refine List.mem_filter.mpr ⟨hu, ?_⟩
                rw [Timer.ofKind, hkind]
                rfl
              exact absurd (hfirst u (hway.pending.mem_iff.mp hgc)) (Nat.not_le.mpr hlt)
        have hready : u.due ≤ v.now := by
          rw [hway.clock]
          exact Nat.le_of_lt (Nat.lt_of_lt_of_le hlt hdue)
        obtain ⟨i, queue, hd⟩ := deliver_of_first hu hready hleast
        obtain ⟨hperm, -⟩ := deliver_spec hd
        have hstep : Watcher.step plat v (.deliver out i)
            = some (processEvent plat out u (v.withQueue queue)) := by
          simp only [Watcher.step, hd]
        have hkind : ¬ isGc u.event = true := by
          rw [hevent]
          exact Bool.false_ne_true
        have hpending : List.Perm (pending isGc queue) (gcPending w) :=
          (pending_perm_of_neg hperm hkind).trans hway.pending
        have hqueued : t ∈ queue := by
          rcases List.mem_cons.mp (hperm.mem_iff.mpr hway.queued) with rfl | hmem
          · exact absurd hlt (Nat.lt_irrefl _)
          · exact hmem
        have hshorter : queue.length = n := by
          have hsame := hperm.length_eq
          rw [List.length_cons, hlen] at hsame
          exact Nat.succ.inj hsame
        have hwaits : Waits out v (.deliver out i) := rfl
        have hnext : Run (watcherFrom plat w) (Waits out)
            (processEvent plat out u (v.withQueue queue)).1
            (es ++ (processEvent plat out u (v.withQueue queue)).2) := Run.next hr hwaits hstep
        obtain ⟨hhandler, hqueue, hnow⟩ := dump_delivered plat out hevent queue v
        refine ih ?_ hnext ⟨hway.handler.trans hhandler, hnow.trans hway.clock, ?_, ?_⟩
        · rw [hqueue]
          exact hshorter
        · rw [gcPending, hqueue]
          exact hpending
        · rw [hqueue]
          exact hqueued

/-- **The next round comes.** From every reachable state in which the handler runs, waiting is
    enough: the GC event that is due first gets to its turn when it is due, at once if it is
    overdue, and its delivery runs the GC closure and sends both events again. -/
theorem next_round_comes {load : DumpState Dir} {w : World Dir} {events : List Event}
    (hr : Run (watcher plat load) anyStep w events) (hrun : w.handler.isRunning = true)
    (out : Surroundings) :
    ∃ t ∈ gcPending w, ∃ task v es i queue,
      (∀ u ∈ gcPending w, t.due ≤ u.due) ∧ w.handler.gcFuncRef = some task
        ∧ Run (watcherFrom plat w) (Waits out) v es ∧ v.now = max w.now t.due
        ∧ deliver v.now v.queue i = some (t, queue)
        ∧ processEvent plat out t (v.withQueue queue)
          = (rearm (gcTask plat out (t.tick v.now) task (v.withQueue queue)).1,
              (gcTask plat out (t.tick v.now) task (v.withQueue queue)).2) := by
  obtain ⟨⟨task, htask⟩, -, hchain⟩ := armed_of_run hr hrun
  obtain ⟨t, hmem, hfirst⟩ := exists_first hchain
  have hqueued : t ∈ w.queue := (List.mem_filter.mp hmem).1
  have hevent : t.event = .gcEvent := by
    have hkind : isGc t.event = true := (List.mem_filter.mp hmem).2
    cases he : t.event with
    | gcEvent => rfl
    | dumpEvent =>
        rw [he] at hkind
        exact absurd hkind Bool.false_ne_true
  let time := max w.now t.due
  have hwaits : Waits out w (.advance (time - w.now)) := trivial
  have hwait : Run (watcherFrom plat w) (Waits out) { w with now := w.now + (time - w.now) } [] :=
    Run.next Run.start hwaits rfl
  have hclock : w.now + (time - w.now) = time := Nat.add_sub_cancel' (Nat.le_max_left _ _)
  obtain ⟨v, es, hv, hway, hleast⟩ := drain out (Nat.le_max_right w.now t.due) hfirst _ rfl
    hwait ⟨⟨rfl, rfl, rfl⟩, hclock, List.Perm.refl _, hqueued⟩
  have hready : t.due ≤ v.now := by
    rw [hway.clock]
    exact Nat.le_max_right _ _
  obtain ⟨i, queue, hd⟩ := deliver_of_first hway.queued hready hleast
  refine ⟨t, hmem, task, v, es, i, queue, hfirst, htask, hv, hway.clock, hd, ?_⟩
  have hon : (v.withQueue queue).handler.isRunning = true := hway.handler.running.trans hrun
  have hfunc : (v.withQueue queue).handler.gcFuncRef = some task := hway.handler.gcTask.trans htask
  rw [processEvent_of_running plat hon, hevent]
  simp only [executeJsFunc, hevent, hfunc]
  rfl

/-- Behind the first round the dump event comes before the second one. -/
theorem next_round_comes_second :
    ∃ (w v : World String) (events es : List Event),
      Run (watcher plainPlatform DumpIdentity.noFiles) anyStep w events
        ∧ Run (watcherFrom plainPlatform w) (Waits plainSurroundings) v es ∧ v.now = 180000 := by
  obtain ⟨p, hp⟩ : ∃ p, exec (watcher plainPlatform DumpIdentity.noFiles) anyStep
      [.enableLeakWatcher plainSurroundings (.bool true) (.array []) (.obj 1), .advance 90000,
        .deliver plainSurroundings 0] = some p := ⟨_, rfl⟩
  obtain ⟨hrun, hpending, hnow⟩ : p.1.handler.isRunning = true
      ∧ gcPending p.1 = [⟨.gcEvent, 90000, 90000⟩] ∧ p.1.now = 90000 := by
    obtain rfl := Option.some.inj hp
    exact ⟨rfl, rfl, rfl⟩
  obtain ⟨t, hmem, _, v, es, _, _, -, -, hv, hclock, -, -⟩ :=
    next_round_comes (run_of_exec hp) hrun plainSurroundings
  refine ⟨p.1, v, p.2, es, run_of_exec hp, hv, ?_⟩
  rw [hpending] at hmem
  rw [hclock, hnow, List.mem_singleton.mp hmem]
  rfl

end EventLedger
