import HiChecker.WatcherProofs

/-!
# Disabled means off

Two public switches write `enabled`, and only one of them touches the handler and the
registrations. `enable(false)` clears the flag and the map and leaves everything else
running; `enableLeakWatcher(false)` shuts everything down, as far as its four
unregister calls reach.

* **`Off`** — the handler does not run, nothing is registered, the map is empty.
* **`off_shutdown_iff`** — what has to hold before a shutdown for it to end in `Off`.
* **`SwitchesClean`** — the switches are used so that it does.
* **`off_when_disabled`** — then `enabled` is only ever false with the watcher off, and the
  first step that is not clean leaves it false with something on.
-/

namespace Lifecycle

open Transition JsValue OrderedMapLib WatcherConfig TimerQueue Watcher
open LeakRound (Hash WatchMap)
open DumpFile (DumpState)

variable {Dir : Type} (plat : Platform Dir)

-- ── Off, and what switches have to respect ────────────────────────────────────────

/-- Nothing of the watcher is left. -/
structure Off (w : World Dir) : Prop where
  handler : w.handler.isRunning = false
  callbacks : w.registrations = {}
  watched : w.watchObjMap.size = 0

/-- A shutdown reaches everything: each native callback is on the current UI context, each
    ability callback is the one `lifecycleId` names, and an unregister call that throws has
    nothing left to do after it. -/
structure UnregistersAll (out : Surroundings) (w : World Dir) : Prop where
  native : ∀ uiContext ∈ w.registrations.native, out.uiContext = some uiContext
  named : ∀ id ∈ w.registrations.abilities,
    plat.hasContext = true ∧ w.lifecycleId = some id
  component : w.registrations.component = false → out.deadComponentThrows = true →
    w.registrations.abilities = [] ∧ w.watchObjMap.size = 0
  ability : plat.hasContext = true → lifecycleLive w = false → out.deadAbilityThrows = true →
    w.watchObjMap.size = 0

instance (out : Surroundings) (w : World Dir) : Decidable (UnregistersAll plat out w) :=
  decidable_of_iff
    ((∀ uiContext ∈ w.registrations.native, out.uiContext = some uiContext)
      ∧ (∀ id ∈ w.registrations.abilities, plat.hasContext = true ∧ w.lifecycleId = some id)
      ∧ (w.registrations.component = false → out.deadComponentThrows = true →
        w.registrations.abilities = [] ∧ w.watchObjMap.size = 0)
      ∧ (plat.hasContext = true → lifecycleLive w = false → out.deadAbilityThrows = true →
        w.watchObjMap.size = 0))
    ⟨fun h => ⟨h.1, h.2.1, h.2.2.1, h.2.2.2⟩,
      fun h => ⟨h.native, h.named, h.component, h.ability⟩⟩

/-- The switches are used so that switching off reaches everything: `enable` gets a falsy
    value only when nothing runs, and a shutdown unregisters all there is. -/
def SwitchesClean (w : World Dir) : Input Dir → Prop
  | .enable isEnable =>
      isEnable.isNullish = true ∨ isEnable.truthy = true
        ∨ (w.handler.isRunning = false ∧ w.registrations = {})
  | .enableLeakWatcher out isEnabled configs callback =>
      stops isEnabled configs callback w = true → UnregistersAll plat out w
  | _ => True

instance : DecidableRel (SwitchesClean plat) := fun w a =>
  match a with
  | .enable isEnable =>
      inferInstanceAs (Decidable (isEnable.isNullish = true ∨ isEnable.truthy = true
        ∨ (w.handler.isRunning = false ∧ w.registrations = {})))
  | .enableLeakWatcher out isEnabled configs callback =>
      inferInstanceAs (Decidable
        (stops isEnabled configs callback w = true → UnregistersAll plat out w))
  | .watch _ _ => isTrue trivial
  | .dump _ _ => isTrue trivial
  | .componentNotified _ _ => isTrue trivial
  | .nativeNotified _ _ => isTrue trivial
  | .windowDestroyed _ _ => isTrue trivial
  | .abilityDestroyed _ _ _ => isTrue trivial
  | .deliver _ _ => isTrue trivial
  | .settle _ _ => isTrue trivial
  | .dumpDone _ _ => isTrue trivial
  | .finalize _ => isTrue trivial
  | .filesChange _ => isTrue trivial
  | .advance _ => isTrue trivial

variable {plat}

-- ── Shutting down ─────────────────────────────────────────────────────────────────

/-- The native callbacks that a call of unregister leaves. -/
theorem mem_unregisterNative (out : Surroundings) (w : World Dir) (c : Nat) :
    c ∈ (unregisterNative out w).registrations.native
      ↔ c ∈ w.registrations.native ∧ out.uiContext ≠ some c := by
  cases hctx : out.uiContext with
  | none =>
      have hsame : unregisterNative out w = w := by simp only [unregisterNative, hctx]
      rw [hsame]
      exact (and_iff_left (Option.some_ne_none c).symm).symm
  | some current =>
      have hfilter : (unregisterNative out w).registrations.native
          = w.registrations.native.filter (· ≠ current) := by
        simp only [unregisterNative, hctx]
      rw [hfilter, List.mem_filter, decide_eq_true_eq]
      refine and_congr_right (fun _ => not_congr ?_)
      rw [Option.some.injEq]
      exact eq_comm

/-- No native callback is left when each was on the context that is found. -/
theorem unregisterNative_native (out : Surroundings) (w : World Dir) :
    (unregisterNative out w).registrations.native = []
      ↔ ∀ uiContext ∈ w.registrations.native, out.uiContext = some uiContext := by
  simp only [List.eq_nil_iff_forall_not_mem, mem_unregisterNative, not_and, not_not]

/-- The world at the first unregister call that may throw. -/
def untasked (out : Surroundings) (w : World Dir) : World Dir :=
  unregisterWindow (unregisterNative out (removeTask w))

/-- What happened by then. -/
structure Untasked (out : Surroundings) (w w' : World Dir) : Prop where
  enabled : w'.enabled = w.enabled
  running : w'.handler.isRunning = false
  component : w'.registrations.component = w.registrations.component
  native : w'.registrations.native = (unregisterNative out w).registrations.native
  window : w'.registrations.window = false
  abilities : w'.registrations.abilities = w.registrations.abilities
  watched : w'.watchObjMap = w.watchObjMap
  lifecycle : w'.lifecycleId = w.lifecycleId

theorem untasked_spec (out : Surroundings) (w : World Dir) :
    Untasked out w (untasked out w) := by
  cases hctx : out.uiContext with
  | none =>
      constructor
      all_goals simp only [untasked, unregisterNative, hctx]
      all_goals rfl
  | some uiContext =>
      constructor
      all_goals simp only [untasked, unregisterNative, hctx]
      all_goals rfl

/-- A component callback that is not registered may throw. -/
theorem unregisterComponent_of_throws {out : Surroundings} {w : World Dir}
    (h : w.registrations.component = false ∧ out.deadComponentThrows = true) :
    unregisterComponent out w = (w, some .external) := by
  show (if (!w.registrations.component && out.deadComponentThrows) = true then _ else _) = _
  rw [h.1, h.2]
  rfl

/-- Otherwise it is gone. -/
theorem unregisterComponent_of_returns {out : Surroundings} {w : World Dir}
    (h : ¬ (w.registrations.component = false ∧ out.deadComponentThrows = true)) :
    unregisterComponent out w = (dropComponent w, none) := by
  refine if_neg (fun hboth => h ?_)
  obtain ⟨hdead, hthrows⟩ := Bool.and_eq_true_iff.mp hboth
  rw [Bool.not_eq_true'] at hdead
  exact ⟨hdead, hthrows⟩

/-- An ability callback that is not registered may throw. -/
theorem shutdownEnd_of_throws {out : Surroundings} {w : World Dir}
    (h : plat.hasContext = true ∧ lifecycleLive w = false ∧ out.deadAbilityThrows = true) :
    shutdownEnd plat out w = (w, some .external) := by
  have hcall : unregisterAbilityLifecycleCallback plat out w = (w, some .external) := by
    show (if (!plat.hasContext) = true then _
      else if (!lifecycleLive w && out.deadAbilityThrows) = true then _ else _) = _
    rw [h.1, h.2.1, h.2.2]
    rfl
  show (if (unregisterAbilityLifecycleCallback plat out w).2.isSome = true then _ else _) = _
  rw [hcall]
  rfl

/-- Otherwise the map is empty. -/
theorem shutdownEnd_of_returns {out : Surroundings} {w : World Dir}
    (h : ¬ (plat.hasContext = true ∧ lifecycleLive w = false ∧ out.deadAbilityThrows = true)) :
    shutdownEnd plat out w
      = (clearMap (if plat.hasContext = true then dropAbility w else w), none) := by
  have hcall : unregisterAbilityLifecycleCallback plat out w
      = (if plat.hasContext = true then dropAbility w else w, none) := by
    show (if (!plat.hasContext) = true then _
      else if (!lifecycleLive w && out.deadAbilityThrows) = true then _ else _) = _
    cases hctx : plat.hasContext with
    | false => rfl
    | true =>
        refine (if_neg Bool.false_ne_true).trans ((if_neg ?_).trans rfl)
        intro hboth
        obtain ⟨hdead, hthrows⟩ := Bool.and_eq_true_iff.mp hboth
        rw [Bool.not_eq_true'] at hdead
        exact h ⟨hctx, hdead, hthrows⟩
  show (if (unregisterAbilityLifecycleCallback plat out w).2.isSome = true then _ else _) = _
  rw [hcall]
  rfl

/-- What a shutdown does in any case. -/
structure ShutdownEffect (out : Surroundings) (w w' : World Dir) : Prop where
  enabled : w'.enabled = w.enabled
  running : w'.handler.isRunning = false
  component : w'.registrations.component = false
  native : w'.registrations.native = (unregisterNative out w).registrations.native
  window : w'.registrations.window = false

/-- How far a shutdown gets: the component call throws, or the ability call, or neither. -/
inductive ShutdownReach (plat : Platform Dir) (out : Surroundings) (w w' : World Dir) :
    Prop where
  | atComponent (dead : w.registrations.component = false)
      (throws : out.deadComponentThrows = true)
      (abilities : w'.registrations.abilities = w.registrations.abilities)
      (watched : w'.watchObjMap = w.watchObjMap)
  | atAbility (passes : ¬ (w.registrations.component = false ∧ out.deadComponentThrows = true))
      (dead : plat.hasContext = true ∧ lifecycleLive w = false ∧ out.deadAbilityThrows = true)
      (abilities : w'.registrations.abilities = w.registrations.abilities)
      (watched : w'.watchObjMap = w.watchObjMap)
  | atEnd (passes : ¬ (w.registrations.component = false ∧ out.deadComponentThrows = true))
      (passes' : ¬ (plat.hasContext = true ∧ lifecycleLive w = false
        ∧ out.deadAbilityThrows = true))
      (abilities : w'.registrations.abilities
        = if plat.hasContext = true then
            w.registrations.abilities.filter (fun id => w.lifecycleId ≠ some id)
          else w.registrations.abilities)
      (watched : w'.watchObjMap = OrderedMap.empty)

variable (plat) in
/-- **A shutdown.** -/
theorem shutdown_spec (out : Surroundings) (w : World Dir) :
    ShutdownEffect out w (shutdownJsLeakWatcher plat out w).1
      ∧ ShutdownReach plat out w (shutdownJsLeakWatcher plat out w).1 := by
  have hun := untasked_spec out w
  have hbody : shutdownJsLeakWatcher plat out w
      = if (unregisterComponent out (untasked out w)).2.isSome = true then
          unregisterComponent out (untasked out w)
        else shutdownEnd plat out (unregisterComponent out (untasked out w)).1 := rfl
  by_cases hthrows : w.registrations.component = false ∧ out.deadComponentThrows = true
  · have hcall : unregisterComponent out (untasked out w)
        = (untasked out w, some .external) :=
      unregisterComponent_of_throws ⟨hun.component.trans hthrows.1, hthrows.2⟩
    rw [hbody, hcall]
    exact ⟨⟨hun.enabled, hun.running, hun.component.trans hthrows.1, hun.native, hun.window⟩,
      ShutdownReach.atComponent hthrows.1 hthrows.2 hun.abilities hun.watched⟩
  · have hcall : unregisterComponent out (untasked out w)
        = (dropComponent (untasked out w), none) :=
      unregisterComponent_of_returns
        (fun h => hthrows ⟨hun.component.symm.trans h.1, h.2⟩)
    have hlive : lifecycleLive (dropComponent (untasked out w)) = lifecycleLive w := by
      simp only [lifecycleLive, dropComponent, hun.abilities, hun.lifecycle]
    rw [hbody, hcall]
    show ShutdownEffect out w (shutdownEnd plat out (dropComponent (untasked out w))).1
      ∧ ShutdownReach plat out w (shutdownEnd plat out (dropComponent (untasked out w))).1
    by_cases hability : plat.hasContext = true ∧ lifecycleLive w = false
        ∧ out.deadAbilityThrows = true
    · rw [shutdownEnd_of_throws ⟨hability.1, hlive.trans hability.2.1, hability.2.2⟩]
      exact ⟨⟨hun.enabled, hun.running, rfl, hun.native, hun.window⟩,
        ShutdownReach.atAbility hthrows hability hun.abilities hun.watched⟩
    · rw [shutdownEnd_of_returns (fun h => hability ⟨h.1, hlive.symm.trans h.2.1, h.2.2⟩)]
      cases hctx : plat.hasContext with
      | false =>
          refine ⟨⟨hun.enabled, hun.running, rfl, hun.native, hun.window⟩,
            ShutdownReach.atEnd hthrows hability ?_ rfl⟩
          rw [hctx]
          exact hun.abilities
      | true =>
          refine ⟨⟨hun.enabled, hun.running, rfl, hun.native, hun.window⟩,
            ShutdownReach.atEnd hthrows hability ?_ rfl⟩
          rw [if_pos hctx]
          show (untasked out w).registrations.abilities.filter
            (fun id => (untasked out w).lifecycleId ≠ some id) = _
          rw [hun.abilities, hun.lifecycle]

/-- An ability callback that `lifecycleId` names is live. -/
theorem lifecycleLive_of_named {w : World Dir} {id : Nat}
    (hid : id ∈ w.registrations.abilities) (hnamed : w.lifecycleId = some id) :
    lifecycleLive w = true := by
  show w.lifecycleId.any _ = true
  rw [hnamed]
  exact decide_eq_true hid

variable (plat) in
/-- A shutdown that returns leaves no ability callback exactly when it can name each. -/
theorem dropped_eq_nil_iff (w : World Dir) :
    (if plat.hasContext = true then
        w.registrations.abilities.filter (fun id => w.lifecycleId ≠ some id)
      else w.registrations.abilities) = []
      ↔ ∀ id ∈ w.registrations.abilities, plat.hasContext = true ∧ w.lifecycleId = some id := by
  cases hctx : plat.hasContext with
  | false =>
      rw [if_neg Bool.false_ne_true, List.eq_nil_iff_forall_not_mem]
      refine forall₂_congr fun id _ => ?_
      exact iff_of_false not_false (fun h => Bool.false_ne_true h.1)
  | true =>
      rw [if_pos rfl, List.filter_eq_nil_iff]
      refine forall₂_congr fun id _ => ?_
      rw [decide_eq_true_iff, not_not]
      exact (and_iff_right rfl).symm

theorem registrations_eq {r : Registrations} (hcomponent : r.component = false)
    (hwindow : r.window = false) : r = {} ↔ r.native = [] ∧ r.abilities = [] := by
  obtain ⟨component, native, window, abilities⟩ := r
  obtain rfl : component = false := hcomponent
  obtain rfl : window = false := hwindow
  constructor
  · intro h
    exact ⟨congrArg Registrations.native h, congrArg Registrations.abilities h⟩
  · rintro ⟨hnative, habilities⟩
    obtain rfl : native = [] := hnative
    obtain rfl : abilities = [] := habilities
    rfl

variable (plat) in
/-- **A shutdown ends with everything off** exactly when it reaches everything. -/
theorem off_shutdown_iff (out : Surroundings) (w : World Dir) :
    Off (shutdownJsLeakWatcher plat out w).1 ↔ UnregistersAll plat out w := by
  obtain ⟨heffect, hreach⟩ := shutdown_spec plat out w
  have hnative := unregisterNative_native out w
  rw [← heffect.native] at hnative
  have hregs := registrations_eq heffect.component heffect.window
  have hdropped := dropped_eq_nil_iff plat w
  constructor
  · intro hoff
    obtain ⟨hnil, habilities⟩ := hregs.mp hoff.callbacks
    have hwatched := hoff.watched
    have hnone : w.registrations.abilities = [] → ∀ id ∈ w.registrations.abilities,
        plat.hasContext = true ∧ w.lifecycleId = some id := by
      intro h id hid
      rw [h] at hid
      exact absurd hid List.not_mem_nil
    cases hreach with
    | atComponent hdead hthrows heq hmap =>
        rw [heq] at habilities
        rw [hmap] at hwatched
        exact ⟨hnative.mp hnil, hnone habilities, (fun _ _ => ⟨habilities, hwatched⟩),
          (fun _ _ _ => hwatched)⟩
    | atAbility hpasses hdead heq hmap =>
        rw [heq] at habilities
        rw [hmap] at hwatched
        exact ⟨hnative.mp hnil, hnone habilities, (fun h h' => absurd ⟨h, h'⟩ hpasses),
          (fun _ _ _ => hwatched)⟩
    | atEnd hpasses hpasses' heq hmap =>
        exact ⟨hnative.mp hnil, hdropped.mp (heq.symm.trans habilities),
          (fun h h' => absurd ⟨h, h'⟩ hpasses), (fun h h' h'' => absurd ⟨h, h', h''⟩ hpasses')⟩
  · intro hall
    have hnil := hnative.mpr hall.native
    cases hreach with
    | atComponent hdead hthrows heq hmap =>
        obtain ⟨habilities, hsize⟩ := hall.component hdead hthrows
        exact ⟨heffect.running, hregs.mpr ⟨hnil, heq.trans habilities⟩, hmap ▸ hsize⟩
    | atAbility _ hdead heq hmap =>
        -- a callback that is named would be live
        have habilities : w.registrations.abilities = [] := by
          refine List.eq_nil_iff_forall_not_mem.mpr fun id hid => ?_
          have hlive := lifecycleLive_of_named hid (hall.named id hid).2
          exact absurd (hdead.2.1.symm.trans hlive) Bool.false_ne_true
        exact ⟨heffect.running, hregs.mpr ⟨hnil, heq.trans habilities⟩,
          hmap ▸ hall.ability hdead.1 hdead.2.1 hdead.2.2⟩
    | atEnd _ _ heq hmap =>
        refine ⟨heffect.running, hregs.mpr ⟨hnil, heq.trans (hdropped.mpr hall.named)⟩, ?_⟩
        rw [hmap]
        rfl

-- ── The switches ──────────────────────────────────────────────────────────────────

/-- Off, if disabled. -/
def OffWhenDisabled (w : World Dir) : Prop := w.enabled.truthy = false → Off w

theorem offWhenDisabled_of_truthy {w : World Dir} (h : w.enabled.truthy = true) :
    OffWhenDisabled w :=
  fun hoff => absurd (hoff.symm.trans h) Bool.false_ne_true

/-- **`enable`** keeps disabled off exactly when it is used cleanly. -/
theorem enable_iff {w : World Dir} (hw : OffWhenDisabled w) (isEnable : JsVal) :
    OffWhenDisabled (enable isEnable w).1 ↔ SwitchesClean plat w (.enable isEnable) := by
  show OffWhenDisabled (if isEnable.isNullish = true then (w, _)
    else if (!isEnable.truthy) = true then (clearMap { w with enabled := isEnable }, none)
    else ({ w with enabled := isEnable }, none) : World Dir × Option Thrown).1
      ↔ isEnable.isNullish = true ∨ isEnable.truthy = true
        ∨ (w.handler.isRunning = false ∧ w.registrations = {})
  cases hnull : isEnable.isNullish with
  | true => exact iff_of_true hw (Or.inl rfl)
  | false =>
      cases htruthy : isEnable.truthy with
      | true => exact iff_of_true (offWhenDisabled_of_truthy htruthy) (Or.inr (Or.inl rfl))
      | false =>
          rw [or_iff_right Bool.false_ne_true, or_iff_right Bool.false_ne_true]
          constructor
          · intro h
            have hoff := h htruthy
            exact ⟨hoff.handler, hoff.callbacks⟩
          · rintro ⟨hrun, hregs⟩ _
            exact ⟨hrun, hregs, rfl⟩

/-- **`enableLeakWatcher`** does exactly when it is used cleanly: only a shutdown can leave
    something on. -/
theorem enableLeakWatcher_iff {w : World Dir} (hw : OffWhenDisabled w) (out : Surroundings)
    (isEnabled : JsVal) (configs : Configs) (callback : JsVal) :
    OffWhenDisabled (enableLeakWatcher plat out isEnabled configs callback w).1
      ↔ SwitchesClean plat w (.enableLeakWatcher out isEnabled configs callback) := by
  show _ ↔ (stops isEnabled configs callback w = true → UnregistersAll plat out w)
  have hnot : isEnabled.truthy = true → stops isEnabled configs callback w = true →
      UnregistersAll plat out w := by
    intro ht h
    have hfalsy := (Bool.and_eq_true_iff.mp h).2
    rw [ht] at hfalsy
    exact absurd hfalsy Bool.false_ne_true
  have hout := enableLeakWatcher_outcome plat out isEnabled configs callback w
  generalize enableLeakWatcher plat out isEnabled configs callback w = result at hout ⊢
  cases hout with
  | refused h t =>
      refine iff_of_true hw (fun hstops => ?_)
      have hacc := (Bool.and_eq_true_iff.mp hstops).1
      exact absurd (h.symm.trans hacc) Bool.false_ne_true
  | stopped h =>
      have hfalsy := (Bool.and_eq_true_iff.mp h).2
      rw [Bool.not_eq_true'] at hfalsy
      have hreaches := off_shutdown_iff plat out { w with enabled := isEnabled }
      have henabled := (shutdown_spec plat out { w with enabled := isEnabled }).1.enabled
      constructor
      · intro hoff _
        have hall := hreaches.mp (hoff ((congrArg JsVal.truthy henabled).trans hfalsy))
        exact ⟨hall.native, hall.named, hall.component, hall.ability⟩
      · intro hclean _
        have hall := hclean h
        exact hreaches.mpr ⟨hall.native, hall.named, hall.component, hall.ability⟩
  | rejected h ht hr => exact iff_of_true (offWhenDisabled_of_truthy ht) (hnot ht)
  | idle h ht t hthrown => exact iff_of_true (offWhenDisabled_of_truthy ht) (hnot ht)
  | started h =>
      obtain ⟨-, ht, -, -⟩ := accepts_of_starts plat h
      have hkept :=
        (launch_schedule plat out configs callback (configured out isEnabled configs w)).enabled
      refine iff_of_true (offWhenDisabled_of_truthy ?_) (hnot ht)
      exact (congrArg JsVal.truthy hkept).trans ht

-- ── Steps that are not a switch ───────────────────────────────────────────────────

/-- The step does not write the flag, and turns nothing on while disabled. -/
structure Quietly (w w' : World Dir) : Prop where
  enabled : w'.enabled = w.enabled
  off : w.enabled.truthy = false → Off w → Off w'

theorem Quietly.refl (w : World Dir) : Quietly w w := ⟨rfl, fun _ h => h⟩

/-- A quiet step keeps the watcher off. -/
theorem OffWhenDisabled.quietly {w w' : World Dir} (hw : OffWhenDisabled w)
    (h : Quietly w w') : OffWhenDisabled w' := by
  intro hoff
  rw [h.enabled] at hoff
  exact h.off hoff (hw hoff)

/-- A step between worlds that agree on everything `Off` looks at. -/
theorem quietly_of_eq {w w' : World Dir} (henabled : w'.enabled = w.enabled)
    (hregistrations : w'.registrations = w.registrations) (hhandler : w'.handler = w.handler)
    (hmap : w.watchObjMap.size = 0 → w'.watchObjMap.size = 0) : Quietly w w' where
  enabled := henabled
  off := by
    intro _ hoff
    refine ⟨?_, hregistrations.trans hoff.callbacks, hmap hoff.watched⟩
    rw [hhandler]
    exact hoff.handler

/-- A notification comes from a callback that is registered, so not while off. -/
theorem quietly_of_recorded {w w' : World Dir} (h : Recorded w w')
    (hon : w.registrations ≠ {}) : Quietly w w' :=
  ⟨h.schedule.enabled, fun _ hoff => absurd hoff.callbacks hon⟩

theorem size_delete_le (m : WatchMap) (hash : Hash) : (m.delete hash).size ≤ m.size :=
  List.length_filter_le _ m.entries

variable [DecidableEq Dir]

variable (plat) in
/-- **A delivery** does nothing unless the handler runs. -/
theorem processEvent_quietly (out : Surroundings) (t : Timer EventId) (w : World Dir) :
    Quietly w (processEvent plat out t w).1 := by
  have hrunning : ∀ {w' : World Dir}, w.handler.isRunning = true → w'.enabled = w.enabled →
      Quietly w w' := by
    intro w' hrun henabled
    exact ⟨henabled, fun _ hoff => absurd (hoff.handler.symm.trans hrun) Bool.false_ne_true⟩
  have heffect := processEvent_effect plat out t w
  generalize processEvent plat out t w = result at heffect ⊢
  cases heffect with
  | dropped hrun => exact Quietly.refl w
  | noDump hrun hevent => exact Quietly.refl w
  | dumped task hrun hevent =>
      obtain ⟨_, _, _, hframe⟩ := dumpTask_frame plat out task w
      refine hrunning hrun ?_
      rw [hframe]
  | noGc hrun hevent htask => exact hrunning hrun rfl
  | collected task hrun hevent htask =>
      obtain ⟨_, _, hframe⟩ := gcTask_frame plat out (t.tick w.now) task w
      refine hrunning hrun ?_
      show (gcTask plat out (t.tick w.now) task w).1.enabled = w.enabled
      rw [hframe]
      exact (retryRegister_schedule plat out w).enabled

-- ── Every run ─────────────────────────────────────────────────────────────────────

/-- **One step** that is clean keeps disabled off. -/
theorem step_off {w w' : World Dir} {a : Input Dir} {es : List Event}
    (hw : OffWhenDisabled w) (hclean : SwitchesClean plat w a)
    (hs : Watcher.step plat w a = some (w', es)) : OffWhenDisabled w' := by
  cases step_effect hs with
  | enabled isEnable => exact (enable_iff hw isEnable).mpr hclean
  | switched out isEnabled configs callback =>
      exact (enableLeakWatcher_iff hw out isEnabled configs callback).mpr hclean
  | called t h =>
      rcases h with rfl | ⟨hen, obj, msg, rfl⟩
      · exact hw
      · exact offWhenDisabled_of_truthy hen
  | notified hon h => exact hw.quietly (quietly_of_recorded h hon)
  | dumped dump outstanding events =>
      exact hw.quietly (quietly_of_eq rfl rfl rfl (fun h => h))
  | @delivered out i t queue h =>
      have htaken : OffWhenDisabled (w.withQueue queue) :=
        hw.quietly (quietly_of_eq rfl rfl rfl (fun h => h))
      exact htaken.quietly (processEvent_quietly plat out t (w.withQueue queue))
  | settled k settlement h =>
      exact hw.quietly (quietly_of_eq rfl rfl rfl (fun h => h))
  | finalized registry hash =>
      refine hw.quietly (quietly_of_eq rfl rfl rfl ?_)
      intro hsize
      show (if w.watchObjMap.has hash = true then w.watchObjMap.delete hash
        else w.watchObjMap).size = 0
      split
      · exact Nat.le_zero.mp ((size_delete_le w.watchObjMap hash).trans hsize.le)
      · exact hsize
  | advanced milliseconds =>
      exact hw.quietly (quietly_of_eq rfl rfl rfl (fun h => h))

/-- A step that keeps disabled off was clean. -/
theorem clean_of_off {w w' : World Dir} {a : Input Dir} {es : List Event}
    (hw : OffWhenDisabled w) (hs : Watcher.step plat w a = some (w', es))
    (hoff : OffWhenDisabled w') : SwitchesClean plat w a := by
  cases a with
  | enable isEnable =>
      obtain ⟨rfl, -⟩ := Prod.mk.inj (Option.some.inj hs)
      exact (enable_iff hw isEnable).mp hoff
  | enableLeakWatcher out isEnabled configs callback =>
      obtain ⟨rfl, -⟩ := Prod.mk.inj (Option.some.inj hs)
      exact (enableLeakWatcher_iff hw out isEnabled configs callback).mp hoff
  | _ => trivial

theorem offWhenDisabled_init (load : DumpState Dir) :
    OffWhenDisabled (watcher plat load).init := fun _ => ⟨rfl, rfl, rfl⟩

/-- **Disabled means off** as long as the switches are used cleanly: in every such run, a
    false `enabled` finds the handler stopped, no callback registered and the map empty.
    From there the next step keeps it so exactly when it is clean. -/
theorem off_when_disabled {load : DumpState Dir} {w : World Dir} {tr : List Event}
    (hr : Run (watcher plat load) (SwitchesClean plat) w tr) :
    (w.enabled.truthy = false → Off w)
      ∧ ∀ a w' es, Watcher.step plat w a = some (w', es) →
          ((w'.enabled.truthy = false → Off w') ↔ SwitchesClean plat w a) := by
  have hw : OffWhenDisabled w :=
    Run.state_invariant (I := OffWhenDisabled) (offWhenDisabled_init load)
      (fun _ _ _ _ hw hclean hs => step_off hw hclean hs) hr
  refine ⟨hw, ?_⟩
  intro a w' es hs
  exact ⟨clean_of_off hw hs, fun hclean => step_off hw hclean hs⟩

/-- Started, a window destroyed, and stopped by the switch that reaches everything. -/
theorem off_when_disabled_stopped :
    ∃ (w : World String) (tr : List Event),
      Run (watcher plainPlatform DumpIdentity.noFiles) (SwitchesClean plainPlatform) w tr
        ∧ w.enabled = .bool false ∧ w.lifecycleId = some 0 ∧ w.registry = [some 7] ∧ Off w := by
  obtain ⟨p, hp⟩ : ∃ p, exec (watcher plainPlatform DumpIdentity.noFiles)
      (SwitchesClean plainPlatform)
      [.enableLeakWatcher plainSurroundings (.bool true) (.array []) (.obj 1),
        .windowDestroyed (some { hash := some 7, constructorName := "Window" }) "main",
        .enableLeakWatcher plainSurroundings (.bool false) (.array []) (.obj 1)] = some p :=
    ⟨_, rfl⟩
  obtain ⟨hen, hid, hregistry⟩ : p.1.enabled = .bool false ∧ p.1.lifecycleId = some 0
      ∧ p.1.registry = [some 7] := by
    obtain rfl := Option.some.inj hp
    exact ⟨rfl, rfl, rfl⟩
  have hoff : p.1.enabled.truthy = false := by
    rw [hen]
    rfl
  exact ⟨p.1, p.2, run_of_exec hp, hen, hid, hregistry,
    (off_when_disabled (run_of_exec hp)).1 hoff⟩

/-- `enable(false)` after `enableLeakWatcher(true, [], callback)`: the handler still runs. -/
theorem disabled_still_running :
    ¬ ∀ (Dir : Type) (_ : DecidableEq Dir) (plat : Platform Dir) (load : DumpState Dir)
        (w : World Dir) (tr : List Event), Run (watcher plat load) anyStep w tr →
        w.enabled.truthy = false → Off w := by
  intro h
  obtain ⟨p, hp⟩ : ∃ p, exec (watcher plainPlatform DumpIdentity.noFiles) anyStep
      [.enableLeakWatcher plainSurroundings (.bool true) (.array []) (.obj 1),
        .enable (.bool false)] = some p := ⟨_, rfl⟩
  obtain ⟨hen, hrun⟩ : p.1.enabled.truthy = false ∧ p.1.handler.isRunning = true := by
    obtain rfl := Option.some.inj hp
    exact ⟨rfl, rfl⟩
  have hoff := h String inferInstance plainPlatform DumpIdentity.noFiles p.1 p.2
    (run_of_exec hp) hen
  exact nomatch hrun.symm.trans hoff.handler

end Lifecycle
