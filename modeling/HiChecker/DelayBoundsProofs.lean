import HiChecker.RestartProofs

/-!
# The delays of the handler, within their bounds

`setGcDelayAndDumpDelay` checks two numbers of JavaScript and hands them to the native
handler, which keeps them in 32 bits. The checks speak of the numbers, the timers of
their residues.

* **`Sane`** — the GC delay has its minimum, and a dump is due before the next GC.
* **`delays_accepted`**, **`delays_fallback`** — the two branches, on integers.
* **`delays_sane_iff`** — which integers leave the delays within the bounds.
* **`delays_sane_of_small`** — positive ones below 2³² do.
-/

namespace DelayBounds

open Transition JsValue WatcherConfig Watcher TimerQueue Restart
open DumpFile (DumpState)

variable {Dir : Type}

-- ── Integers as attributes ────────────────────────────────────────────────────────

/-- An attribute that is absent or an integer. -/
def integerAttr (n : Option Int) : Option JsNum := n.map (fun (n : Int) => .fin n)

theorem truthy_integer (a : Int) : (JsNum.fin a).truthy = true ↔ a ≠ 0 := by
  show decide ((a : Rat) ≠ 0) = true ↔ a ≠ 0
  rw [decide_eq_true_iff, Int.cast_ne_zero]

/-- The residue that an integer has in 32 bits. -/
theorem toNat_toInt32_integer (a : Int) :
    (((JsNum.fin a).toInt32.toNat : Nat) : Int) = a % 2 ^ 32 := by
  have hpos : (0 : Int) ≤ a % 2 ^ 32 := Int.emod_nonneg a (by decide)
  show (((BitVec.ofInt 32 (if 0 ≤ (a : Rat) then (a : Rat).floor else (a : Rat).ceil)).toNat : Nat)
    : Int) = a % 2 ^ 32
  rw [Rat.floor_intCast, Rat.ceil_intCast, ite_self, BitVec.toNat_ofInt]
  exact Int.toNat_of_nonneg hpos

-- ── The two delays ────────────────────────────────────────────────────────────────

/-- The delays are within their bounds, so that the dump event of a tick is due before
    the GC event that is sent with it. -/
structure Sane (w : World Dir) : Prop where
  gcDelay : 90000 ≤ w.settings.gcDelayTime.toNat
  dumpDelay : w.settings.dumpDelayTime.toNat < w.settings.gcDelayTime.toNat
  order : ∃ gc dump, (rearm w).queue = w.queue ++ [gc, dump] ∧ gc.event = .gcEvent
    ∧ dump.event = .dumpEvent ∧ dump.due < gc.due

/-- The order of the two events is that of the delays. -/
theorem sane_iff (w : World Dir) :
    Sane w ↔ 90000 ≤ w.settings.gcDelayTime.toNat
      ∧ w.settings.dumpDelayTime.toNat < w.settings.gcDelayTime.toNat := by
  constructor
  · exact fun h => ⟨h.gcDelay, h.dumpDelay⟩
  · rintro ⟨hgc, hdump⟩
    refine ⟨hgc, hdump, ⟨.gcEvent, w.now, w.settings.gcDelayTime.toNat⟩,
      ⟨.dumpEvent, w.now, w.settings.dumpDelayTime.toNat⟩, ?_, rfl, rfl, ?_⟩
    · show (w.queue ++ [_]) ++ [_] = _
      rw [List.append_assoc]
      rfl
    · exact Nat.add_lt_add_left hdump w.now

/-- The checks let two integers through. -/
def Accepts (checkInterval dumpHeapWaitTimeMs : Option Int) (c d : Int) : Prop :=
  checkInterval = some c ∧ dumpHeapWaitTimeMs = some d ∧ 90000 < c ∧ d ≠ 0 ∧ d < c

/-- The attributes of a configuration, with two integers for the delays. -/
def withDelays (configs : ConfigObject) (checkInterval dumpHeapWaitTimeMs : Option Int) :
    ConfigObject :=
  { configs with
    checkInterval := integerAttr checkInterval
    dumpHeapWaitTimeMs := integerAttr dumpHeapWaitTimeMs }

/-- The world once `setGcDelayAndDumpDelay` was called with them. -/
def retimed (configs : ConfigObject) (checkInterval dumpHeapWaitTimeMs : Option Int)
    (w : World Dir) : World Dir :=
  { w with settings :=
      setGcDelayAndDumpDelay (withDelays configs checkInterval dumpHeapWaitTimeMs) w.settings }

/-- What `setGcDelayAndDumpDelay` tests, for integers. -/
theorem accepts_iff (configs : ConfigObject) (checkInterval dumpHeapWaitTimeMs : Option Int) :
    acceptsDelays (withDelays configs checkInterval dumpHeapWaitTimeMs) = true
      ↔ ∃ c d, Accepts checkInterval dumpHeapWaitTimeMs c d := by
  have hmin : minCheckInterval = .fin ((90000 : Int) : Rat) := by
    rw [minCheckInterval, JsNum.ofNat]
    norm_num
  rw [acceptsDelays_iff]
  constructor
  · rintro ⟨_, _, hx, hy, hc, hd, hlt⟩
    obtain ⟨c, rfl, rfl⟩ := Option.map_eq_some_iff.mp hx
    obtain ⟨d, rfl, rfl⟩ := Option.map_eq_some_iff.mp hy
    rw [hmin, JsNum.lt_integer] at hc
    exact ⟨c, d, rfl, rfl, hc, (truthy_integer d).mp hd, (JsNum.lt_integer d c).mp hlt⟩
  · rintro ⟨c, d, rfl, rfl, hc, hd, hlt⟩
    refine ⟨.fin c, .fin d, rfl, rfl, ?_, (truthy_integer d).mpr hd, (JsNum.lt_integer d c).mpr hlt⟩
    rw [hmin, JsNum.lt_integer]
    exact hc

/-- **Accepted integers become delays by their residues.** -/
theorem delays_accepted (configs : ConfigObject) (st : Settings)
    {checkInterval dumpHeapWaitTimeMs : Option Int} {c d : Int}
    (h : Accepts checkInterval dumpHeapWaitTimeMs c d) :
    let st' := setGcDelayAndDumpDelay (withDelays configs checkInterval dumpHeapWaitTimeMs) st
    (st'.gcDelayTime.toNat : Int) = c % 2 ^ 32 ∧ (st'.dumpDelayTime.toNat : Int) = d % 2 ^ 32 := by
  intro st'
  have haccepts := (accepts_iff configs checkInterval dumpHeapWaitTimeMs).mpr ⟨c, d, h⟩
  obtain ⟨rfl, rfl, -⟩ := h
  obtain ⟨hgc, hdump⟩ := delays_of_accepts st haccepts rfl rfl
  rw [hgc, hdump]
  exact ⟨toNat_toInt32_integer c, toNat_toInt32_integer d⟩

/-- **All others give the defaults.** -/
theorem delays_fallback (configs : ConfigObject) {st : Settings}
    (hst : Fallbacks st.leakWatcherConfig) {checkInterval dumpHeapWaitTimeMs : Option Int}
    (h : ¬ ∃ c d, Accepts checkInterval dumpHeapWaitTimeMs c d) :
    let st' := setGcDelayAndDumpDelay (withDelays configs checkInterval dumpHeapWaitTimeMs) st
    st'.gcDelayTime = 90000#32 ∧ st'.dumpDelayTime = 5000#32 := by
  intro st'
  refine delays_of_not_accepts hst (Bool.eq_false_iff.mpr ?_)
  exact fun hacc => h ((accepts_iff configs checkInterval dumpHeapWaitTimeMs).mp hacc)

-- ── When they are within the bounds ───────────────────────────────────────────────

/-- Accepted integers leave the delays sane when their residues are. -/
theorem sane_of_accepts (configs : ConfigObject) {checkInterval dumpHeapWaitTimeMs : Option Int}
    {c d : Int} (h : Accepts checkInterval dumpHeapWaitTimeMs c d) (w : World Dir) :
    Sane (retimed configs checkInterval dumpHeapWaitTimeMs w)
      ↔ 90000 ≤ c % 2 ^ 32 ∧ d % 2 ^ 32 < c % 2 ^ 32 := by
  let st := setGcDelayAndDumpDelay (withDelays configs checkInterval dumpHeapWaitTimeMs) w.settings
  obtain ⟨hgc, hdump⟩ := delays_accepted configs w.settings h
  rw [← hgc, ← hdump, sane_iff]
  show 90000 ≤ st.gcDelayTime.toNat ∧ st.dumpDelayTime.toNat < st.gcDelayTime.toNat
    ↔ (90000 : Int) ≤ st.gcDelayTime.toNat ∧ (st.dumpDelayTime.toNat : Int) < st.gcDelayTime.toNat
  omega

/-- The defaults are sane. -/
theorem sane_of_fallback (configs : ConfigObject) {w : World Dir}
    (hw : Fallbacks w.settings.leakWatcherConfig) {checkInterval dumpHeapWaitTimeMs : Option Int}
    (h : ¬ ∃ c d, Accepts checkInterval dumpHeapWaitTimeMs c d) :
    Sane (retimed configs checkInterval dumpHeapWaitTimeMs w) := by
  let st := setGcDelayAndDumpDelay (withDelays configs checkInterval dumpHeapWaitTimeMs) w.settings
  obtain ⟨hgc, hdump⟩ := delays_fallback configs hw h
  have hgc' : st.gcDelayTime = 90000#32 := hgc
  have hdump' : st.dumpDelayTime = 5000#32 := hdump
  rw [sane_iff]
  show 90000 ≤ st.gcDelayTime.toNat ∧ st.dumpDelayTime.toNat < st.gcDelayTime.toNat
  rw [hgc', hdump']
  decide

variable {plat : Platform Dir} [DecidableEq Dir] {load : DumpState Dir} {w : World Dir}
  {tr : List Watcher.Event}

/-- **When the delays are sane**, in every reachable state and for every object whose two
    attributes are absent or integers: the checks refuse them, or their residues modulo
    2³² are in the same order, that of the interval not below 90000. -/
theorem delays_sane_iff (hr : Run (watcher plat load) anyStep w tr) (configs : ConfigObject)
    (checkInterval dumpHeapWaitTimeMs : Option Int) :
    Sane (retimed configs checkInterval dumpHeapWaitTimeMs w)
      ↔ ∀ c d, Accepts checkInterval dumpHeapWaitTimeMs c d →
          90000 ≤ c % 2 ^ 32 ∧ d % 2 ^ 32 < c % 2 ^ 32 := by
  by_cases hacc : ∃ c d, Accepts checkInterval dumpHeapWaitTimeMs c d
  · obtain ⟨c, d, h⟩ := hacc
    rw [sane_of_accepts configs h w]
    constructor
    · rintro hsane c' d' ⟨hc, hd, -⟩
      obtain rfl := Option.some.inj (h.1.symm.trans hc)
      obtain rfl := Option.some.inj (h.2.1.symm.trans hd)
      exact hsane
    · exact fun hall => hall c d h
  · exact iff_of_true (sane_of_fallback configs (remains_of_run hr).fallbacks hacc)
      (fun c d h => absurd ⟨c, d, h⟩ hacc)

/-- Positive numbers below 2³² are their own residues. -/
theorem delays_sane_of_small (hr : Run (watcher plat load) anyStep w tr)
    (configs : ConfigObject) {checkInterval dumpHeapWaitTimeMs : Option Int}
    (hc : ∀ c ∈ checkInterval, c < 2 ^ 32) (hd : ∀ d ∈ dumpHeapWaitTimeMs, 0 ≤ d) :
    Sane (retimed configs checkInterval dumpHeapWaitTimeMs w) := by
  by_cases hacc : ∃ c d, Accepts checkInterval dumpHeapWaitTimeMs c d
  · obtain ⟨c, d, h⟩ := hacc
    have hsmall := hc c h.1
    have hnonneg := hd d h.2.1
    obtain ⟨-, -, hmin, -, hlt⟩ := id h
    have hcmod : c % 2 ^ 32 = c := Int.emod_eq_of_lt (by omega) hsmall
    have hdmod : d % 2 ^ 32 = d := Int.emod_eq_of_lt hnonneg (by omega)
    rw [sane_of_accepts configs h w, hcmod, hdmod]
    exact ⟨by omega, hlt⟩
  · exact sane_of_fallback configs (remains_of_run hr).fallbacks hacc

/-- The loaded module, with an interval of two minutes and a wait of one. -/
theorem delays_sane_minutes :
    Sane (retimed {} (some 120000) (some 60000)
      (watcher plainPlatform DumpIdentity.noFiles).init) :=
  (delays_sane_iff (Run.start : Run (watcher plainPlatform DumpIdentity.noFiles) anyStep _ _) {}
    (some 120000) (some 60000)).mpr (by
      rintro c d ⟨hc, hd, -⟩
      obtain rfl := Option.some.inj hc
      obtain rfl := Option.some.inj hd
      decide)

/-- An interval of 2³² + 1 milliseconds passes the checks, and the handler's is one. -/
theorem delays_wrap :
    ¬ ∀ (w : World String) (tr : List Watcher.Event),
        Run (watcher plainPlatform DumpIdentity.noFiles) anyStep w tr →
        ∀ (configs : ConfigObject) (checkInterval dumpHeapWaitTimeMs : Option Int),
          Sane (retimed configs checkInterval dumpHeapWaitTimeMs w) := by
  intro h
  have hsane := h _ _ Run.start {} (some (2 ^ 32 + 1)) (some 5000)
  exact absurd hsane.gcDelay (by decide +kernel)

end DelayBounds
