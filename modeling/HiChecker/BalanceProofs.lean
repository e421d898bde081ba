import HiChecker.LifecycleProofs

/-!
# What a shutdown unregisters

`executeRegister` registers what the type mask selects, and the native registration may
fail and be retried; `shutdownJsLeakWatcher` unregisters all four kinds whatever was
registered, the native one on the UI context of the moment and the ability one by
`lifecycleId`.

* **`shutdownWithCalls`** — the shutdown with the unregister calls that it issues, each by what
  it refers to; **`mem_live_shutdown`**: what is left live is what none of them names.
* **`Stop.Balanced`** — every call refers to a live registration, and every live
  registration is unregistered exactly once.
* **`RegisteredAll`** — a session of all types runs, on the UI context of the moment.
* **`stops_balanced`** — over sessions that start with `true` and stop with `false`, the
  stops are balanced as long as each finds everything registered; from such a run the
  next stop is balanced exactly then.
-/

namespace Balance

open Transition JsValue OrderedMapLib WatcherConfig DumpFile TimerQueue Watcher Lifecycle

variable {Dir : Type} (plat : Platform Dir)

-- ── Registrations and the calls that end them ─────────────────────────────────────

/-- One registration with the framework. -/
inductive Registration where
  | component
  | native (uiContext : Nat)
  | window
  | ability (id : Nat)
deriving DecidableEq

/-- The registrations that are live. -/
def live (r : Registrations) : List Registration :=
  (if r.component then [.component] else []) ++ r.native.map .native
    ++ (if r.window then [.window] else []) ++ r.abilities.map .ability

/-- `shutdownJsLeakWatcher`, writing down what each unregister call refers to; `none` is a call
    that names nothing: the native one without a UI context, the ability one with an undefined
    id. -/
def shutdownWithCalls (out : Surroundings) (w : World Dir) :
    (World Dir × Option Thrown) × List (Option Registration) :=
  let w := unregisterNative out (removeTask w)
  let calls := [out.uiContext.map Registration.native]
  let w := unregisterWindow w
  let calls := calls ++ [some .window]
  let component := unregisterComponent out w
  let calls := calls ++ [some .component]
  -- a component call that throws is the last one
  if component.2.isSome then (component, calls)
  else
    let calls :=
      if plat.hasContext then calls ++ [component.1.lifecycleId.map Registration.ability]
      else calls
    (shutdownEnd plat out component.1, calls)

/-- Writing the calls down does not change what is done. -/
theorem shutdownWithCalls_fst (out : Surroundings) (w : World Dir) :
    (shutdownWithCalls plat out w).1 = shutdownJsLeakWatcher plat out w := by
  simp only [shutdownWithCalls, shutdownJsLeakWatcher]
  split
  · rfl
  · rfl

/-- The unregister calls of a shutdown, in order. -/
def unregisterCalls (out : Surroundings) (w : World Dir) : List (Option Registration) :=
  (shutdownWithCalls plat out w).2

/-- The calls in the order of the source; the last is made where the one before returned. -/
theorem unregisterCalls_eq (out : Surroundings) (w : World Dir) :
    unregisterCalls plat out w
      = [out.uiContext.map .native, some .window, some .component]
        ++ (if !w.registrations.component && out.deadComponentThrows then []
            else if plat.hasContext then [w.lifecycleId.map .ability] else []) := by
  have huntasked := untasked_spec out w
  have hcall : unregisterComponent out (unregisterWindow (unregisterNative out (removeTask w)))
      = if !w.registrations.component && out.deadComponentThrows then
          (untasked out w, some .external)
        else (dropComponent (untasked out w), none) := by
    rw [unregisterComponent, ← huntasked.component]
    rfl
  have hlifecycle : (dropComponent (untasked out w)).lifecycleId = w.lifecycleId :=
    huntasked.lifecycle
  simp only [unregisterCalls, shutdownWithCalls, hcall]
  cases (!w.registrations.component && out.deadComponentThrows) with
  | true => rfl
  | false =>
      simp only [Bool.false_eq_true, if_false, Option.isSome_none, hlifecycle]
      cases plat.hasContext with
      | true => rfl
      | false => rfl

/-- The registrations that stand. -/
theorem mem_live (r : Registrations) (x : Registration) :
    x ∈ live r ↔ (x = .component ∧ r.component = true) ∨ (∃ c ∈ r.native, .native c = x)
      ∨ (x = .window ∧ r.window = true) ∨ ∃ id ∈ r.abilities, .ability id = x := by
  have hone : ∀ (b : Bool) (y : Registration),
      x ∈ (if b = true then [y] else []) ↔ x = y ∧ b = true := by
    intro b y
    cases b with
    | true => exact List.mem_singleton.trans (and_iff_left rfl).symm
    | false => exact iff_of_false List.not_mem_nil (fun h => Bool.false_ne_true h.2)
  simp only [live, List.mem_append, List.mem_map, hone, or_assoc]

@[simp] theorem mem_live_component (r : Registrations) :
    .component ∈ live r ↔ r.component = true := by
  simp [mem_live]

@[simp] theorem mem_live_native (r : Registrations) (c : Nat) :
    .native c ∈ live r ↔ c ∈ r.native := by
  simp [mem_live]

@[simp] theorem mem_live_window (r : Registrations) : .window ∈ live r ↔ r.window = true := by
  simp [mem_live]

@[simp] theorem mem_live_ability (r : Registrations) (id : Nat) :
    .ability id ∈ live r ↔ id ∈ r.abilities := by
  simp [mem_live]

/-- The component call of a shutdown throws. -/
def throwsAtComponent (out : Surroundings) (w : World Dir) : Prop :=
  w.registrations.component = false ∧ out.deadComponentThrows = true

/-- The calls of a shutdown. -/
theorem mem_calls (out : Surroundings) (w : World Dir) (c : Option Registration) :
    c ∈ unregisterCalls plat out w
      ↔ c = out.uiContext.map .native ∨ c = some .window ∨ c = some .component
        ∨ (¬ throwsAtComponent out w ∧ plat.hasContext = true
          ∧ c = w.lifecycleId.map .ability) := by
  have htest : (!w.registrations.component && out.deadComponentThrows) = true
      ↔ throwsAtComponent out w := by
    rw [Bool.and_eq_true, Bool.not_eq_true']
    rfl
  simp only [unregisterCalls_eq, List.mem_append, List.mem_cons, List.not_mem_nil, or_false,
    or_assoc]
  refine or_congr_right (or_congr_right (or_congr_right ?_))
  by_cases hthrows : throwsAtComponent out w
  · rw [if_pos (htest.mpr hthrows)]
    exact iff_of_false List.not_mem_nil (fun h => h.1 hthrows)
  · rw [if_neg (fun h => hthrows (htest.mp h)), and_iff_right hthrows]
    cases plat.hasContext with
    | true => exact List.mem_singleton.trans (and_iff_right rfl).symm
    | false => exact iff_of_false List.not_mem_nil (fun h => Bool.false_ne_true h.1)

/-- The native call names the UI context of the moment. -/
theorem mem_calls_native (out : Surroundings) (w : World Dir) (c : Nat) :
    some (.native c) ∈ unregisterCalls plat out w ↔ out.uiContext = some c := by
  rw [mem_calls]
  constructor
  · rintro (h | h | h | ⟨-, -, h⟩)
    · obtain ⟨x, hx, heq⟩ := Option.map_eq_some_iff.mp h.symm
      rw [hx, Registration.native.inj heq]
    · exact absurd (Option.some.inj h) Registration.noConfusion
    · exact absurd (Option.some.inj h) Registration.noConfusion
    · obtain ⟨x, -, heq⟩ := Option.map_eq_some_iff.mp h.symm
      exact absurd heq Registration.noConfusion
  · intro h
    rw [h]
    exact Or.inl rfl

/-- The ability call names `lifecycleId`. -/
theorem mem_calls_ability (out : Surroundings) (w : World Dir) (id : Nat) :
    some (.ability id) ∈ unregisterCalls plat out w
      ↔ ¬ throwsAtComponent out w ∧ plat.hasContext = true ∧ w.lifecycleId = some id := by
  rw [mem_calls]
  constructor
  · rintro (h | h | h | ⟨hpasses, hctx, h⟩)
    · obtain ⟨x, -, heq⟩ := Option.map_eq_some_iff.mp h.symm
      exact absurd heq Registration.noConfusion
    · exact absurd (Option.some.inj h) Registration.noConfusion
    · exact absurd (Option.some.inj h) Registration.noConfusion
    · obtain ⟨x, hx, heq⟩ := Option.map_eq_some_iff.mp h.symm
      exact ⟨hpasses, hctx, by rw [hx, Registration.ability.inj heq]⟩
  · rintro ⟨hpasses, hctx, h⟩
    rw [h]
    exact Or.inr (Or.inr (Or.inr ⟨hpasses, hctx, rfl⟩))

/-- **What a shutdown leaves live** is what was live and is named by none of its calls. -/
theorem mem_live_shutdown (out : Surroundings) (w : World Dir) (r : Registration) :
    r ∈ live (shutdownJsLeakWatcher plat out w).1.registrations
      ↔ r ∈ live w.registrations ∧ some r ∉ unregisterCalls plat out w := by
  obtain ⟨heffect, hreach⟩ := shutdown_spec plat out w
  cases r with
  | component =>
      rw [mem_live_component, heffect.component]
      refine iff_of_false Bool.false_ne_true (fun h => h.2 ?_)
      exact (mem_calls plat out w _).mpr (Or.inr (Or.inr (Or.inl rfl)))
  | window =>
      rw [mem_live_window, heffect.window]
      refine iff_of_false Bool.false_ne_true (fun h => h.2 ?_)
      exact (mem_calls plat out w _).mpr (Or.inr (Or.inl rfl))
  | native c =>
      rw [mem_live_native, mem_live_native, heffect.native, mem_calls_native]
      exact mem_unregisterNative out w c
  | ability id =>
      rw [mem_live_ability, mem_live_ability, mem_calls_ability]
      cases hreach with
      | atComponent hdead hthrows heq _ =>
          rw [heq]
          exact (and_iff_left (fun h => h.1 ⟨hdead, hthrows⟩)).symm
      | atAbility _ hdead heq _ =>
          rw [heq]
          refine (and_iff_left_of_imp ?_).symm
          -- an id that is live is not the one that was just found dead
          intro hid h
          have hlive := lifecycleLive_of_named hid h.2.2
          exact absurd (hdead.2.1.symm.trans hlive) Bool.false_ne_true
      | atEnd hpasses _ heq _ =>
          rw [heq]
          cases hctx : plat.hasContext with
          | false =>
              rw [if_neg Bool.false_ne_true]
              exact (and_iff_left (fun h => Bool.false_ne_true h.2.1)).symm
          | true =>
              rw [if_pos rfl, List.mem_filter, decide_eq_true_iff]
              refine and_congr_right (fun _ => not_congr ?_)
              exact ⟨fun h => ⟨hpasses, rfl, h⟩, fun h => h.2.2⟩

-- ── Balanced stops ────────────────────────────────────────────────────────────────

/-- A shutdown: the calls it issues, and what is live when it starts. -/
structure Stop where
  calls : List (Option Registration)
  live : List Registration

/-- Every call refers to a live registration, and every live registration is unregistered
    exactly once. -/
def Stop.Balanced (s : Stop) : Prop :=
  (∀ c ∈ s.calls, ∃ r ∈ s.live, c = some r) ∧ ∀ r ∈ s.live, s.calls.count (some r) = 1

/-- The shutdown that a step runs. -/
def stopsOf (w : World Dir) : Input Dir → List Stop
  | .enableLeakWatcher out isEnabled configs callback =>
      if stops isEnabled configs callback w then
        [⟨unregisterCalls plat out w, live w.registrations⟩]
      else []
  | _ => []

/-- The types that the session monitors. -/
def sessionTypes (w : World Dir) : BitVec 32 :=
  typeMask w.settings.leakWatcherConfig.monitorObjectTypes

/-- A session runs that monitors components, windows and abilities, and the native
    callback is registered on the UI context of the moment and on no other. -/
structure RegisteredAll (out : Surroundings) (w : World Dir) : Prop where
  running : w.handler.isRunning = true
  component : monitors (sessionTypes w) customComponent = true
  window : monitors (sessionTypes w) window = true
  ability : monitors (sessionTypes w) ability = true
  current : ∃ c, out.uiContext = some c
  native : ∀ c, c ∈ w.registrations.native ↔ out.uiContext = some c

/-- Sessions start and stop through `enableLeakWatcher` with a boolean. -/
def InSessions : World Dir → Input Dir → Prop
  | _, .enable _ => False
  | _, .enableLeakWatcher _ isEnabled _ _ => ∃ b, isEnabled = .bool b
  | _, _ => True

/-- A stop finds everything registered. -/
def StopsAfterAll (w : World Dir) : Input Dir → Prop
  | .enableLeakWatcher out isEnabled configs callback =>
      stops isEnabled configs callback w = true → RegisteredAll out w
  | _ => True

-- ── What a session has registered ─────────────────────────────────────────────────

/-- Between sessions nothing is registered; in a session, what its types select is, but for
    the native callback, which may be missing. -/
structure Session (w : World Dir) : Prop where
  flag : ∃ b, w.enabled = .bool b
  stopped : w.handler.isRunning = false → w.registrations = {}
  enabled : w.handler.isRunning = true → w.enabled = .bool true
  context : w.handler.isRunning = true → plat.hasContext = true
  component : w.handler.isRunning = true →
    w.registrations.component = monitors (sessionTypes w) customComponent
  window : w.handler.isRunning = true →
    w.registrations.window = monitors (sessionTypes w) WatcherConfig.window
  abilities : w.handler.isRunning = true → monitors (sessionTypes w) ability = true →
    ∃ id, w.lifecycleId = some id ∧ w.registrations.abilities = [id]
  noAbilities : w.handler.isRunning = true → monitors (sessionTypes w) ability = false →
    w.registrations.abilities = []
  retry : w.retryMonitorObjectTypes = none
    ∨ w.retryMonitorObjectTypes = some (nodeContainer ||| xComponent)

/-- What a session is made of is the same in both worlds. -/
structure Unmoved (w w' : World Dir) : Prop where
  enabled : w'.enabled = w.enabled
  settings : w'.settings = w.settings
  running : w'.handler.isRunning = w.handler.isRunning
  registrations : w'.registrations = w.registrations
  lifecycle : w'.lifecycleId = w.lifecycleId
  retry : w'.retryMonitorObjectTypes = w.retryMonitorObjectTypes

variable {plat}

/-- A session is kept by whatever keeps its callbacks, but for the native ones. -/
theorem Session.keep {w w' : World Dir} (h : Session plat w) (henabled : w'.enabled = w.enabled)
    (hsettings : w'.settings = w.settings)
    (hrunning : w'.handler.isRunning = w.handler.isRunning)
    (hstopped : w.handler.isRunning = false → w'.registrations = w.registrations)
    (hcomponent : w'.registrations.component = w.registrations.component)
    (hwindow : w'.registrations.window = w.registrations.window)
    (habilities : w'.registrations.abilities = w.registrations.abilities)
    (hlifecycle : w'.lifecycleId = w.lifecycleId)
    (hretry : w'.retryMonitorObjectTypes = none
      ∨ w'.retryMonitorObjectTypes = some (nodeContainer ||| xComponent)) :
    Session plat w' := by
  have htypes : sessionTypes w' = sessionTypes w := by
    rw [sessionTypes, hsettings]
    rfl
  constructor
  · rw [henabled]
    exact h.flag
  · rw [hrunning]
    exact fun hoff => (hstopped hoff).trans (h.stopped hoff)
  · rw [hrunning, henabled]
    exact h.enabled
  · rw [hrunning]
    exact h.context
  · rw [hrunning, hcomponent, htypes]
    exact h.component
  · rw [hrunning, hwindow, htypes]
    exact h.window
  · rw [hrunning, habilities, hlifecycle, htypes]
    exact h.abilities
  · rw [hrunning, habilities, htypes]
    exact h.noAbilities
  · exact hretry

/-- What moves no registration keeps the session. -/
theorem Session.unmoved {w w' : World Dir} (h : Session plat w) (hsame : Unmoved w w') :
    Session plat w' := by
  refine h.keep hsame.enabled hsame.settings hsame.running (fun _ => hsame.registrations) ?_ ?_ ?_
    hsame.lifecycle ?_
  · rw [hsame.registrations]
  · rw [hsame.registrations]
  · rw [hsame.registrations]
  · rw [hsame.retry]
    exact h.retry

/-- A world in which no session runs and nothing is registered. -/
theorem Session.of_stopped {w : World Dir} (hflag : ∃ b, w.enabled = .bool b)
    (hstopped : w.handler.isRunning = false) (hnone : w.registrations = {})
    (hretry : w.retryMonitorObjectTypes = none
      ∨ w.retryMonitorObjectTypes = some (nodeContainer ||| xComponent)) :
    Session plat w := by
  have hnot : ¬ w.handler.isRunning = true := by
    rw [hstopped]
    exact Bool.false_ne_true
  exact ⟨hflag, fun _ => hnone, fun h => absurd h hnot, fun h => absurd h hnot,
    fun h => absurd h hnot, fun h => absurd h hnot, fun h => absurd h hnot,
    fun h => absurd h hnot, hretry⟩

/-- The start of a session registers what its types select. -/
theorem session_launch {out : Surroundings} (hctx : plat.hasContext = true)
    (configs : Configs) (callback : JsVal) {w : World Dir} (hen : w.enabled = .bool true)
    (hnone : w.registrations = {}) : Session plat (launch plat out configs callback w) := by
  let armed := arm out configs callback w
  have hspec := executeRegister_spec plat hctx out (sessionTypes armed) armed
  obtain ⟨_, _, _, _, _, hframe⟩ := executeRegister_frame plat out (sessionTypes armed) armed
  have hregs : armed.registrations = {} := hnone
  have hen' : armed.enabled = .bool true := hen
  have hrunning : armed.handler.isRunning = true := rfl
  show Session plat (executeRegister plat out (sessionTypes armed) armed)
  have hhandler : (executeRegister plat out (sessionTypes armed) armed).handler.isRunning
      = true := by
    rw [hspec.handler]
    cases monitorsNative (sessionTypes armed) with
    | true => exact hrunning
    | false => exact hrunning
  have htypes : sessionTypes (executeRegister plat out (sessionTypes armed) armed)
      = sessionTypes armed := by
    rw [hframe]
    rfl
  constructor
  · exact ⟨true, by rw [hframe]; exact hen'⟩
  · intro hoff
    exact absurd (hoff.symm.trans hhandler) Bool.false_ne_true
  · intro _
    rw [hframe]
    exact hen'
  · exact fun _ => hctx
  · intro _
    rw [htypes, hspec.component, hregs]
    exact Bool.false_or _
  · intro _
    rw [htypes, hspec.window, hregs]
    exact Bool.false_or _
  · intro _ hability
    rw [htypes] at hability
    refine ⟨armed.nextAbilityId, ?_, ?_⟩
    · rw [hspec.lifecycle, if_pos hability]
    · rw [hspec.abilities, if_pos hability, hregs]
  · intro _ hability
    rw [htypes] at hability
    rw [hspec.abilities, hability, hregs]
    rfl
  · rw [hspec.retry]
    cases (monitorsNative (sessionTypes armed) && out.uiContext.isNone) with
    | true => exact Or.inr rfl
    | false => exact Or.inl rfl

/-- A retry touches the native registration only. -/
theorem session_retry (out : Surroundings) {w : World Dir} (h : Session plat w)
    (hrunning : w.handler.isRunning = true) : Session plat (retryRegister plat out w) := by
  rcases h.retry with hretry | hretry
  · simp only [retryRegister, hretry]
    exact h
  · simp only [retryRegister, hretry]
    split
    · have hspec := executeRegister_spec plat (h.context hrunning) out
        (nodeContainer ||| xComponent) w
      obtain ⟨_, _, _, _, _, hframe⟩ :=
        executeRegister_frame plat out (nodeContainer ||| xComponent) w
      generalize executeRegister plat out (nodeContainer ||| xComponent) w = v at hspec hframe ⊢
      have henabled : v.enabled = w.enabled := by rw [hframe]
      have hsettings : v.settings = w.settings := by rw [hframe]
      have hrun : v.handler.isRunning = w.handler.isRunning := by rw [hspec.handler]; rfl
      -- none of the three other kinds is among the types of a retry
      have hcomponent : v.registrations.component = w.registrations.component := by
        rw [hspec.component]
        exact Bool.or_false _
      have hwindow : v.registrations.window = w.registrations.window := by
        rw [hspec.window]
        exact Bool.or_false _
      refine h.keep henabled hsettings hrun ?_ hcomponent hwindow hspec.abilities
        hspec.lifecycle ?_
      · exact fun hoff => absurd (hoff.symm.trans hrunning) Bool.false_ne_true
      · show v.retryMonitorObjectTypes = none ∨ v.retryMonitorObjectTypes = some _
        rw [hspec.retry]
        cases (monitorsNative (nodeContainer ||| xComponent) && out.uiContext.isNone) with
        | true => exact Or.inr rfl
        | false => exact Or.inl rfl
    · exact h

-- ── When a stop is balanced ───────────────────────────────────────────────────────

/-- What is registered when everything is. -/
theorem RegisteredAll.registered {out : Surroundings} {w : World Dir}
    (hall : RegisteredAll out w) (h : Session plat w) :
    w.registrations.component = true ∧ w.registrations.window = true
      ∧ ∃ id, w.lifecycleId = some id ∧ w.registrations.abilities = [id] :=
  ⟨(h.component hall.running).trans hall.component, (h.window hall.running).trans hall.window,
    h.abilities hall.running hall.ability⟩

/-- A stop whose calls all refer to live registrations runs in a session of all types. -/
theorem registeredAll_of_balanced {out : Surroundings} {w : World Dir} (h : Session plat w)
    (hbalanced : (Stop.mk (unregisterCalls plat out w) (live w.registrations)).Balanced) :
    RegisteredAll out w := by
  obtain ⟨hcalls, hlive⟩ := hbalanced
  have hnamed : ∀ c ∈ unregisterCalls plat out w, ∃ r ∈ live w.registrations, c = some r :=
    hcalls
  -- the component call needs a component callback, so a session runs
  obtain ⟨r, hr, heq⟩ := hnamed (some .component)
    ((mem_calls plat out w _).mpr (Or.inr (Or.inr (Or.inl rfl))))
  obtain rfl := Option.some.inj heq
  have hcomponent := (mem_live_component w.registrations).mp hr
  have hrunning : w.handler.isRunning = true := by
    by_contra hoff
    rw [h.stopped (Bool.eq_false_iff.mpr hoff)] at hcomponent
    exact Bool.false_ne_true hcomponent
  have hpasses : ¬ throwsAtComponent out w := by
    intro hthrows
    exact Bool.false_ne_true (hthrows.1.symm.trans hcomponent)
  obtain ⟨r, hr, heq⟩ := hnamed (some .window)
    ((mem_calls plat out w _).mpr (Or.inr (Or.inl rfl)))
  obtain rfl := Option.some.inj heq
  have hwindow := (mem_live_window w.registrations).mp hr
  obtain ⟨r, hr, heq⟩ := hnamed (out.uiContext.map .native)
    ((mem_calls plat out w _).mpr (Or.inl rfl))
  obtain ⟨c, hc, rfl⟩ := Option.map_eq_some_iff.mp heq
  have hnative := (mem_live_native w.registrations c).mp hr
  obtain ⟨r, hr, heq⟩ := hnamed (w.lifecycleId.map .ability)
    ((mem_calls plat out w _).mpr
      (Or.inr (Or.inr (Or.inr ⟨hpasses, h.context hrunning, rfl⟩))))
  obtain ⟨id, -, rfl⟩ := Option.map_eq_some_iff.mp heq
  have hability := (mem_live_ability w.registrations id).mp hr
  refine ⟨hrunning, ?_, ?_, ?_, ⟨c, hc⟩, ?_⟩
  · rw [← h.component hrunning]
    exact hcomponent
  · rw [← h.window hrunning]
    exact hwindow
  · by_contra hoff
    rw [h.noAbilities hrunning (Bool.eq_false_iff.mpr hoff)] at hability
    exact List.not_mem_nil hability
  · intro c'
    constructor
    · intro hc'
      have hcount := hlive (.native c') ((mem_live_native w.registrations c').mpr hc')
      have hmem : some (.native c') ∈ unregisterCalls plat out w :=
        List.count_pos_iff.mp (hcount ▸ Nat.one_pos)
      exact (mem_calls_native plat out w c').mp hmem
    · intro hc'
      rw [← Option.some.inj (hc.symm.trans hc')]
      exact hnative

/-- In a session of all types a stop issues one call for each registration. -/
theorem balanced_of_registeredAll {out : Surroundings} {w : World Dir} (h : Session plat w)
    (hall : RegisteredAll out w) :
    (Stop.mk (unregisterCalls plat out w) (live w.registrations)).Balanced := by
  obtain ⟨c, hc⟩ := hall.current
  obtain ⟨hcomponent, hwindow, id, hid, habilities⟩ := hall.registered h
  have hnative : c ∈ w.registrations.native := (hall.native c).mpr hc
  have hcalls : unregisterCalls plat out w
      = [some (.native c), some .window, some .component, some (.ability id)] := by
    simp only [unregisterCalls_eq, hc, hid, hcomponent, h.context hall.running]
    rfl
  have hmemId : id ∈ w.registrations.abilities := by
    rw [habilities]
    exact List.mem_singleton_self id
  constructor
  · show ∀ x ∈ unregisterCalls plat out w, ∃ r ∈ live w.registrations, x = some r
    rw [hcalls]
    intro x hx
    simp only [List.mem_cons, List.not_mem_nil, or_false] at hx
    rcases hx with rfl | rfl | rfl | rfl
    · exact ⟨_, (mem_live_native _ c).mpr hnative, rfl⟩
    · exact ⟨_, (mem_live_window _).mpr hwindow, rfl⟩
    · exact ⟨_, (mem_live_component _).mpr hcomponent, rfl⟩
    · exact ⟨_, (mem_live_ability _ id).mpr hmemId, rfl⟩
  · show ∀ r ∈ live w.registrations, (unregisterCalls plat out w).count (some r) = 1
    rw [hcalls]
    intro r hr
    cases r with
    | component => rfl
    | window => rfl
    | native c' =>
        have hc' := (hall.native c').mp ((mem_live_native _ c').mp hr)
        rw [← Option.some.inj (hc.symm.trans hc')]
        simp
    | ability id' =>
        have hid' := (mem_live_ability _ id').mp hr
        rw [habilities] at hid'
        rw [List.mem_singleton.mp hid']
        simp

/-- **A stop is balanced** exactly when it finds everything registered. -/
theorem balanced_iff (out : Surroundings) {w : World Dir} (h : Session plat w) :
    (Stop.mk (unregisterCalls plat out w) (live w.registrations)).Balanced
      ↔ RegisteredAll out w :=
  ⟨registeredAll_of_balanced h, balanced_of_registeredAll h⟩

/-- After a balanced stop nothing is registered. -/
theorem session_stop (out : Surroundings) {b : Bool} {w : World Dir} (h : Session plat w)
    (hall : RegisteredAll out w) :
    Session plat (shutdownJsLeakWatcher plat out { w with enabled := .bool b }).1 := by
  let v : World Dir := { w with enabled := .bool b }
  obtain ⟨hcomponent, -, id, hid, habilities⟩ := hall.registered h
  have hlive : lifecycleLive w = true := by
    refine lifecycleLive_of_named ?_ hid
    rw [habilities]
    exact List.mem_singleton_self id
  have hreaches : UnregistersAll plat out v := by
    refine ⟨?_, ?_, ?_, ?_⟩
    · exact fun c hc => (hall.native c).mp hc
    · intro id' hid'
      have hmem : id' ∈ w.registrations.abilities := hid'
      rw [habilities] at hmem
      rw [List.mem_singleton.mp hmem]
      exact ⟨h.context hall.running, hid⟩
    · intro hdead _
      exact absurd (hdead.symm.trans hcomponent) Bool.false_ne_true
    · intro _ hdead _
      exact absurd (hdead.symm.trans hlive) Bool.false_ne_true
  have hoff := (off_shutdown_iff plat out v).mpr hreaches
  obtain ⟨_, _, _, hframe⟩ := shutdown_frame plat out v
  refine Session.of_stopped ?_ hoff.handler hoff.callbacks ?_
  · rw [hframe]
    exact ⟨b, rfl⟩
  · rw [hframe]
    exact h.retry

/-- A start is accepted only where no session runs. -/
theorem stopped_of_accepts {isEnabled : JsVal} {configs : Configs} {callback : JsVal}
    {w : World Dir} (h : Session plat w) (hbool : ∃ b, isEnabled = .bool b)
    (hacc : accepts isEnabled configs callback w = true) (ht : isEnabled.truthy = true) :
    isEnabled = .bool true ∧ w.handler.isRunning = false ∧ w.registrations = {} := by
  obtain ⟨b, rfl⟩ := hbool
  have hb : b = true := ht
  have hoff : w.handler.isRunning = false := by
    by_contra hon
    have hne := (Bool.and_eq_true_iff.mp hacc).2
    rw [h.enabled (Bool.eq_true_of_not_eq_false hon), hb] at hne
    exact Bool.false_ne_true hne
  exact ⟨congrArg JsVal.bool hb, hoff, h.stopped hoff⟩

/-- A start begins a session, a shutdown ends it. -/
theorem session_switch (out : Surroundings) {isEnabled : JsVal} (configs : Configs)
    (callback : JsVal) {w : World Dir} (h : Session plat w) (hbool : ∃ b, isEnabled = .bool b)
    (hG : stops isEnabled configs callback w = true → RegisteredAll out w) :
    Session plat (enableLeakWatcher plat out isEnabled configs callback w).1 := by
  have hidle : accepts isEnabled configs callback w = true → isEnabled.truthy = true →
      Session plat (configured out isEnabled configs w) := by
    intro hacc ht
    obtain ⟨htrue, hoff, hnone⟩ := stopped_of_accepts h hbool hacc ht
    exact Session.of_stopped ⟨true, htrue⟩ hoff hnone h.retry
  have hout := enableLeakWatcher_outcome plat out isEnabled configs callback w
  generalize enableLeakWatcher plat out isEnabled configs callback w = result at hout ⊢
  cases hout with
  | refused _ t => exact h
  | stopped hstops =>
      obtain ⟨b, rfl⟩ := hbool
      exact session_stop out h (hG hstops)
  | rejected hacc ht _ => exact hidle hacc ht
  | idle hacc ht t _ => exact hidle hacc ht
  | started hstarts =>
      obtain ⟨hacc, ht, -, hlaunch⟩ := accepts_of_starts plat hstarts
      obtain ⟨htrue, -, hnone⟩ := stopped_of_accepts h hbool hacc ht
      exact session_launch (Bool.and_eq_true_iff.mp hlaunch).1 configs callback htrue hnone

section Steps

variable [DecidableEq Dir]

/-- The events of the handler keep the session. -/
theorem session_event (out : Surroundings) (t : Timer EventId) {w : World Dir}
    (h : Session plat w) : Session plat (processEvent plat out t w).1 := by
  have heffect := processEvent_effect plat out t w
  generalize processEvent plat out t w = result at heffect ⊢
  cases heffect with
  | dropped hrun => exact h
  | noDump hrun hevent => exact h
  | dumped task hrun hevent =>
      obtain ⟨_, _, _, heq⟩ := dumpTask_frame plat out task w
      rw [heq]
      exact h.unmoved ⟨rfl, rfl, rfl, rfl, rfl, rfl⟩
  | noGc hrun hevent htask => exact h.unmoved ⟨rfl, rfl, rfl, rfl, rfl, rfl⟩
  | collected task hrun hevent htask =>
      obtain ⟨_, _, heq⟩ := gcTask_frame plat out (t.tick w.now) task w
      show Session plat (rearm (gcTask plat out (t.tick w.now) task w).1)
      rw [heq]
      exact (session_retry out h hrun).unmoved ⟨rfl, rfl, rfl, rfl, rfl, rfl⟩

/-- **The step lemma**: a step of a session keeps it, as long as a stop finds everything
    registered. -/
theorem session_step {w w' : World Dir} {a : Input Dir} {es : List Event}
    (h : Session plat w) (hin : InSessions w a) (hG : StopsAfterAll w a)
    (hs : step plat w a = some (w', es)) : Session plat w' := by
  have hrecorded : ∀ {v : World Dir}, Recorded w v → Session plat v := by
    rintro v (rfl | ⟨obj, msg, rfl⟩)
    · exact h
    · exact h.unmoved ⟨rfl, rfl, rfl, rfl, rfl, rfl⟩
  have heffect := step_effect hs
  cases heffect with
  | enabled isEnable => exact hin.elim
  | switched out isEnabled configs callback =>
      exact session_switch out configs callback h hin hG
  | called t hrec => exact hrecorded (hrec.imp_right And.right)
  | notified _ hrec => exact hrecorded hrec
  | dumped dump outstanding events => exact h.unmoved ⟨rfl, rfl, rfl, rfl, rfl, rfl⟩
  | delivered out i _ =>
      exact session_event out _ (h.unmoved ⟨rfl, rfl, rfl, rfl, rfl, rfl⟩)
  | settled k settlement _ => exact h.unmoved ⟨rfl, rfl, rfl, rfl, rfl, rfl⟩
  | finalized registry hash => exact h.unmoved ⟨rfl, rfl, rfl, rfl, rfl, rfl⟩
  | advanced milliseconds => exact h.unmoved ⟨rfl, rfl, rfl, rfl, rfl, rfl⟩

omit [DecidableEq Dir] in
/-- The stops of a step are balanced exactly when it meets the condition. -/
theorem stopsOf_balanced_iff {w : World Dir} (h : Session plat w) (a : Input Dir) :
    (∀ s ∈ stopsOf plat w a, s.Balanced) ↔ StopsAfterAll w a := by
  have hnone : (∀ s ∈ ([] : List Stop), s.Balanced) :=
    fun s hs => absurd hs List.not_mem_nil
  cases a with
  | enableLeakWatcher out isEnabled configs callback =>
      show (∀ s ∈ (if stops isEnabled configs callback w = true then
          [Stop.mk (unregisterCalls plat out w) (live w.registrations)] else []), Stop.Balanced s)
        ↔ (stops isEnabled configs callback w = true → RegisteredAll out w)
      cases stops isEnabled configs callback w with
      | false => exact iff_of_true hnone (fun h' => absurd h' Bool.false_ne_true)
      | true =>
          rw [if_pos rfl, List.forall_mem_singleton, balanced_iff out h]
          exact ⟨fun h' _ => h', fun h' => h' rfl⟩
  | enable isEnable => exact iff_of_true hnone trivial
  | watch obj msg => exact iff_of_true hnone trivial
  | dump out filePath => exact iff_of_true hnone trivial
  | componentNotified weakRef msg => exact iff_of_true hnone trivial
  | nativeNotified uiContext weakRef => exact iff_of_true hnone trivial
  | windowDestroyed obj windowName => exact iff_of_true hnone trivial
  | abilityDestroyed id ability name => exact iff_of_true hnone trivial
  | deliver out i => exact iff_of_true hnone trivial
  | settle k settlement => exact iff_of_true hnone trivial
  | dumpDone out k => exact iff_of_true hnone trivial
  | finalize k => exact iff_of_true hnone trivial
  | filesChange files => exact iff_of_true hnone trivial
  | advance milliseconds => exact iff_of_true hnone trivial

variable (plat) in
/-- The watcher, seen through its stops. -/
def stopHistory (load : DumpState Dir) : Machine (World Dir) (Input Dir) Stop :=
  (watcher plat load).observing (stopsOf plat)

/-- **Registrations are balanced**, in every sequence of sessions whose stops find everything
    registered; and the next step of such a sequence keeps them balanced exactly when it
    meets that condition. -/
theorem stops_balanced {load : DumpState Dir} {w : World Dir} {tr : List Stop}
    (hr : Run (stopHistory plat load) (fun w a => InSessions w a ∧ StopsAfterAll w a) w tr) :
    (∀ s ∈ tr, s.Balanced) ∧
    ∀ (a : Input Dir) (w' : World Dir) (ss : List Stop), InSessions w a →
      (stopHistory plat load).step w a = some (w', ss) →
        ((∀ s ∈ ss, s.Balanced) ↔ StopsAfterAll w a) := by
  have hI : Session plat w ∧ ∀ s ∈ tr, s.Balanced := by
    refine Run.invariant (I := fun w tr => Session plat w ∧ ∀ s ∈ tr, s.Balanced) ?_ ?_ hr
    · refine ⟨Session.of_stopped ⟨false, rfl⟩ rfl rfl (Or.inl rfl), ?_⟩
      exact fun s hs => absurd hs List.not_mem_nil
    · intro w tr a w' ss hI hG hs
      obtain ⟨⟨es, hstep⟩, rfl⟩ := Machine.observing_step hs
      refine ⟨session_step hI.1 hG.1 hG.2 hstep, ?_⟩
      intro s hmem
      rcases List.mem_append.mp hmem with hold | hnew
      · exact hI.2 s hold
      · exact (stopsOf_balanced_iff hI.1 a).mpr hG.2 s hnew
  refine ⟨hI.2, ?_⟩
  intro a w' ss _ hs
  obtain ⟨-, rfl⟩ := Machine.observing_step hs
  exact stopsOf_balanced_iff hI.1 a

end Steps

/-- The start and the stop of a session of all types, or of `configs`. -/
def startOf (configs : Configs) : Input String :=
  .enableLeakWatcher plainSurroundings (.bool true) configs (.obj 1)

/-- A shutdown. -/
def stop : Input String :=
  .enableLeakWatcher plainSurroundings (.bool false) (.array []) (.obj 1)

theorem inSessions_startOf (configs : Configs) (w : World String) :
    InSessions w (startOf configs) := ⟨true, rfl⟩

theorem stopsAfterAll_startOf (configs : Configs) (w : World String) :
    StopsAfterAll w (startOf configs) :=
  fun h => absurd (Bool.and_eq_true_iff.mp h).2 Bool.false_ne_true

theorem inSessions_stop (w : World String) : InSessions w stop := ⟨false, rfl⟩

/-- A session of all types. -/
theorem stops_balanced_allTypes :
    (Stop.mk [some (.native 1), some .window, some .component, some (.ability 0)]
      [.component, .native 1, .window, .ability 0]).Balanced := by
  obtain ⟨p, hp⟩ : ∃ p, (stopHistory plainPlatform DumpIdentity.noFiles).step
      (stopHistory plainPlatform DumpIdentity.noFiles).init (startOf (.array [])) = some p :=
    ⟨_, rfl⟩
  have hstart := Run.next
    (G := fun (w : World String) (a : Input String) => InSessions w a ∧ StopsAfterAll w a)
    Run.start ⟨inSessions_startOf _ _, stopsAfterAll_startOf _ _⟩ hp
  have hall : RegisteredAll plainSurroundings p.1 := by
    obtain rfl := Option.some.inj hp
    refine ⟨rfl, rfl, rfl, rfl, ⟨1, rfl⟩, ?_⟩
    intro c
    refine List.mem_singleton.trans ⟨?_, ?_⟩
    · exact fun h => congrArg some h.symm
    · exact fun h => (Option.some.inj h).symm
  obtain ⟨q, hq, hstop⟩ : ∃ q, (stopHistory plainPlatform DumpIdentity.noFiles).step p.1 stop
      = some q ∧ q.2 = [⟨[some (.native 1), some .window, some .component, some (.ability 0)],
          [.component, .native 1, .window, .ability 0]⟩] := by
    obtain rfl := Option.some.inj hp
    exact ⟨_, rfl, rfl⟩
  have hrun := Run.next hstart ⟨inSessions_stop _, fun _ => hall⟩ hq
  refine (stops_balanced hrun).1 _ ?_
  rw [hstop]
  exact List.mem_append_right _ (List.mem_singleton_self _)

/-- A session of windows alone: its stop unregisters a component callback that was never
    registered, and calls `unregisterAbilityLifecycleCallback(undefined)`. -/
theorem stop_unbalanced :
    ¬ ∀ (load : DumpState String) (w : World String) (tr : List Stop),
        Run (stopHistory plainPlatform load) InSessions w tr → ∀ s ∈ tr, s.Balanced := by
  intro h
  obtain ⟨p, hp⟩ : ∃ p, (stopHistory plainPlatform DumpIdentity.noFiles).step
      (stopHistory plainPlatform DumpIdentity.noFiles).init
        (startOf (.array [.str "Window"])) = some p := ⟨_, rfl⟩
  obtain ⟨q, hq, hstop⟩ : ∃ q, (stopHistory plainPlatform DumpIdentity.noFiles).step p.1 stop
      = some q ∧ q.2 = [⟨[some (.native 1), some .window, some .component, none],
          [.window]⟩] := by
    obtain rfl := Option.some.inj hp
    exact ⟨_, rfl, rfl⟩
  have hrun := Run.next
    (Run.next (G := InSessions) Run.start (inSessions_startOf _ _) hp) (inSessions_stop _) hq
  have hmem : Stop.mk [some (.native 1), some .window, some .component, none] [.window]
      ∈ p.2 ++ q.2 := by
    rw [hstop]
    exact List.mem_append_right _ (List.mem_singleton_self _)
  obtain ⟨r, -, heq⟩ := (h DumpIdentity.noFiles q.1 _ hrun _ hmem).1 none (by simp)
  exact Option.some_ne_none r heq.symm

end Balance
