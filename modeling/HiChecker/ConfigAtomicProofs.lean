import HiChecker.WatcherProofs

/-!
# A failed `enableLeakWatcher`

Four tests of `enableLeakWatcher` throw a `BusinessError`. The three on nullish arguments
come before anything is written. The fourth, on the names in `configs`, comes after the
flag and the configuration: a call it rejects leaves `enabled` raised with nothing
running, and the next call finds the watcher already started.

**`fails_cleanly_iff`** — a failing call leaves everything as it was exactly when it is
not one that gets to the fourth test and fails there.
-/

namespace ConfigAtomic

open Transition JsValue WatcherConfig Watcher
open DumpFile (DumpState)

variable {Dir : Type} (plat : Platform Dir)

/-- The part of the state that a failed call must leave alone. -/
structure Observed where
  enabled : JsVal
  isConfigObj : Bool
  leakWatcherConfig : LeakWatcherConfig
  maxFileNum : JsNum
  gcDelayTime : BitVec 32
  dumpDelayTime : BitVec 32
  registrations : Registrations

def observe (w : World Dir) : Observed :=
  { enabled := w.enabled
    isConfigObj := w.settings.isConfigObj
    leakWatcherConfig := w.settings.leakWatcherConfig
    maxFileNum := w.settings.maxFileNum
    gcDelayTime := w.settings.gcDelayTime
    dumpDelayTime := w.settings.dumpDelayTime
    registrations := w.registrations }

/-- If the call throws a `BusinessError`, it changes nothing that is observed, and every
    call after it does what it would have done without it. -/
def FailsCleanly (out : Surroundings) (isEnabled : JsVal) (configs : Configs)
    (callback : JsVal) (w : World Dir) : Prop :=
  ∀ w' code message,
    enableLeakWatcher plat out isEnabled configs callback w
        = (w', some (.businessError code message)) →
      observe w' = observe w
        ∧ ∀ out' isEnabled' configs' callback',
            enableLeakWatcher plat out' isEnabled' configs' callback' w'
              = enableLeakWatcher plat out' isEnabled' configs' callback' w

/-- The call gets to the validation loop and fails there: no argument is nullish, the flag
    is to change to a truthy value, and some position of `configs` does not hold one of
    the five names. -/
structure FailsLate (isEnabled : JsVal) (configs : Configs) (callback : JsVal)
    (w : World Dir) : Prop where
  enabledGiven : isEnabled.isNullish = false
  configsGiven : configs.isNullish = false
  callbackGiven : callback.isNullish = false
  changes : isEnabled.strictEq w.enabled = false
  truthy : isEnabled.truthy = true
  invalid : ∃ j, inRange configs.length j = true ∧ ¬ ValidAt configs.items j

variable {plat}

/-- What a shutdown throws comes from outside. -/
theorem shutdown_not_business (out : Surroundings) (w : World Dir) (code : Nat)
    (message : String) :
    (shutdownJsLeakWatcher plat out w).2 ≠ some (.businessError code message) := by
  have hexternal : some Thrown.external ≠ some (.businessError code message) := by
    intro h
    exact Thrown.noConfusion (Option.some.inj h)
  have hnone : (none : Option Thrown) ≠ some (.businessError code message) :=
    (Option.some_ne_none _).symm
  have hcomponent : ∀ v : World Dir, (unregisterComponent out v).2
      ≠ some (.businessError code message) := by
    intro v
    simp only [unregisterComponent]
    split
    · exact hexternal
    · exact hnone
  have hability : ∀ v : World Dir, (unregisterAbilityLifecycleCallback plat out v).2
      ≠ some (.businessError code message) := by
    intro v
    simp only [unregisterAbilityLifecycleCallback]
    split
    · exact hnone
    · split
      · exact hexternal
      · exact hnone
  simp only [shutdownJsLeakWatcher, shutdownEnd]
  split
  · exact hcomponent _
  · split
    · exact hability _
    · exact hnone

theorem accepts_of_failsLate {isEnabled : JsVal} {configs : Configs} {callback : JsVal}
    {w : World Dir} (h : FailsLate isEnabled configs callback w) :
    accepts isEnabled configs callback w = true := by
  show (!isEnabled.isNullish && !configs.isNullish && !callback.isNullish
    && !isEnabled.strictEq w.enabled) = true
  rw [h.enabledGiven, h.configsGiven, h.callbackGiven, h.changes]
  rfl

theorem failsLate_of_accepts {isEnabled : JsVal} {configs : Configs} {callback : JsVal}
    {w : World Dir} (h : accepts isEnabled configs callback w = true)
    (ht : isEnabled.truthy = true) (hr : rejects configs = true) :
    FailsLate isEnabled configs callback w := by
  obtain ⟨h, hchanges⟩ := Bool.and_eq_true_iff.mp h
  obtain ⟨h, hcallback⟩ := Bool.and_eq_true_iff.mp h
  obtain ⟨hisEnabled, hconfigs⟩ := Bool.and_eq_true_iff.mp h
  rw [Bool.not_eq_true'] at hisEnabled hconfigs hcallback hchanges
  exact ⟨hisEnabled, hconfigs, hcallback, hchanges, ht, (rejects_iff configs).mp hr⟩

/-- **`enableLeakWatcher` is atomic on error** for exactly the calls that do not fail in
    the validation loop. -/
theorem fails_cleanly_iff (out : Surroundings) (isEnabled : JsVal) (configs : Configs)
    (callback : JsVal) (w : World Dir) :
    FailsCleanly plat out isEnabled configs callback w
      ↔ ¬ FailsLate isEnabled configs callback w := by
  constructor
  · intro hclean hlate
    have hcall := enableLeakWatcher_of_rejects plat out
      (accepts_of_failsLate hlate) hlate.truthy ((rejects_iff configs).mpr hlate.invalid)
    obtain ⟨hsame, -⟩ := hclean _ _ _ hcall
    have henabled : isEnabled = w.enabled := congrArg Observed.enabled hsame
    have hself := JsVal.strictEq_self_of_truthy hlate.truthy
    have hchanges := hlate.changes
    rw [← henabled] at hchanges
    exact nomatch hchanges.symm.trans hself
  · intro hnot w' code message hcall
    have hout := enableLeakWatcher_outcome plat out isEnabled configs callback w
    generalize enableLeakWatcher plat out isEnabled configs callback w = result at hout hcall
    cases hout with
    | refused h t =>
        obtain ⟨rfl, -⟩ := Prod.mk.inj hcall
        exact ⟨rfl, fun _ _ _ _ => rfl⟩
    | stopped h => exact absurd (congrArg Prod.snd hcall) (shutdown_not_business out _ _ _)
    | rejected h ht hr => exact absurd (failsLate_of_accepts h ht hr) hnot
    | idle h ht t hexternal => exact absurd (Prod.mk.inj hcall).2 (hexternal code message)
    | started h => exact nomatch (Prod.mk.inj hcall).2

/-- `enableLeakWatcher(true, ["NoSuch"], callback)` on the loaded module: it throws with
    `enabled` raised, and the next valid call is refused as already started. -/
theorem fails_halfway :
    ¬ ∀ (Dir : Type) (_ : DecidableEq Dir) (plat : Platform Dir) (load : DumpState Dir)
        (w : World Dir) (tr : List Event), Run (watcher plat load) anyStep w tr →
        ∀ (out : Surroundings) (isEnabled : JsVal) (configs : Configs) (callback : JsVal),
          FailsCleanly plat out isEnabled configs callback w := by
  intro h
  have hclean := h String inferInstance plainPlatform DumpIdentity.noFiles _ _ Run.start
    plainSurroundings (.bool true) (.array [.str "NoSuch"]) (.obj 1)
  obtain ⟨w', hcall, henabled⟩ : ∃ w', enableLeakWatcher plainPlatform plainSurroundings
      (.bool true) (.array [.str "NoSuch"]) (.obj 1)
      (watcher plainPlatform DumpIdentity.noFiles).init
        = (w', some (.businessError errorCodeConfigInvalid errorMsgConfigInvalid))
      ∧ w'.enabled = .bool true := ⟨_, rfl, rfl⟩
  obtain ⟨hsame, -⟩ := hclean w' _ _ hcall
  have hstill : w'.enabled = .bool false := congrArg Observed.enabled hsame
  rw [henabled] at hstill
  exact nomatch hstill

end ConfigAtomic
