import HiChecker.RuleRoundTripProofs
import HiChecker.StrictParamProofs

/-!
# One rule store behind four front ends

The rules of a process are switched by native callers, by JavaScript through N-API, by ArkTS
through ANI and by the startup parameter, on any threads and in any order. All of them end in
`AddRule` and `RemoveRule` of the same store.

* **`Call`** — a call of any front end; **`effect`** — what it asks of the store.
* **`storeAfter_eq`** — a program of such calls leaves the store that its effects leave.
* **`front_ends_agree`** — which rules a thread sees then, and that what either language reads
  is understood by both.
-/

namespace FrontEnds

open BitMask RuleStore RuleTrace StartupParam StrictParam RuleBinding RuleRoundTrip

/-- What the two runtimes document about numbers on their way in and out. -/
structure Runtime extends AniRuntime where
  /-- `napi_create_bigint_uint64` -/
  createBigintUint64 : Word → Int
  createBigintUint64_eq : ∀ v, createBigintUint64 v = v.toNat

/-- A call of one of the four front ends. -/
inductive Call where
  | native (c : RuleCall)
  | napi (op : Op) (info : List Argument)
  | ani (op : Op) (rule : Argument)
  | startup (params : Bytes → ParamValue) (processName : Bytes)

variable {Thread : Type} [DecidableEq Thread] (rt : Runtime)

/-- The call, made on thread `t`. -/
def Call.run (t : Thread) : Call → Store Thread → Store Thread
  | .native c, s => c.run t s
  | .napi op info, s => (Napi.call rt.toBigintRuntime t op info s).1
  | .ani op rule, s => (Ani.call rt.toBigintRuntime t op rule s).1
  | .startup params processName, s =>
      initHicheckerParam (StrictParam.getParameter params) t (some processName) s

/-- The store after a program of calls, from all-zero state. -/
def storeAfter (p : List (Thread × Call)) : Store Thread :=
  p.foldl (fun s e => e.2.run rt e.1 s) initial

/-- `GetRule` of the dynamic binding. -/
def napiGetRule (t : Thread) (s : Store Thread) : Int :=
  rt.createBigintUint64 (RuleStore.getRule t s)

-- ── What a call asks of the store ─────────────────────────────────────────────────

/-- What the function does with a word. -/
def mutation (w : Word) : Op → Option RuleCall
  | .addRule => some (.add w)
  | .addCheckRule => some (.add w)
  | .removeRule => some (.remove w)
  | .removeCheckRule => some (.remove w)
  | .contains => none
  | .containsCheckRule => none

/-- The word that JavaScript arguments mean: an integer of 64 bits, and nothing else. -/
def wordOfInfo : List Argument → Word
  | [.bigint n] => if 0 ≤ n ∧ n < 2 ^ 64 then low64 n else 0#64
  | _ => 0#64

/-- The word that an ArkTS argument means: the low bits of any integer. -/
def wordOfRule : Argument → Word
  | .bigint n => low64 n
  | .other => 0#64

/-- What a call of any front end asks of the store. -/
def Call.effect : Call → Option RuleCall
  | .native c => some c
  | .napi op info => mutation (wordOfInfo info) op
  | .ani op rule => mutation (wordOfRule rule) op
  | .startup params processName =>
      if NameFits processName ∧ ReadsRule (params (checkerPrefix ++ processName)).bytes then
        some (.add ruleCheckArkuiPerformance)
      else none

/-- The effects of a program, on the threads of the calls. -/
def effects (p : List (Thread × Call)) : List (Thread × RuleCall) :=
  p.filterMap (fun e => e.2.effect.map (fun c => (e.1, c)))

/-- An effect on the store, or none. -/
def applyAny (t : Thread) (c : Option RuleCall) (s : Store Thread) : Store Thread :=
  match c with
  | none => s
  | some c => c.run t s

/-- The native decoder in closed form. -/
theorem napi_getRuleParam_eq (info : List Argument) :
    Napi.getRuleParam rt.toBigintRuntime info = wordOfInfo info := by
  cases info with
  | nil => rfl
  | cons a rest =>
      cases rest with
      | cons b rest => cases a <;> rfl
      | nil =>
          cases a with
          | other => rfl
          | bigint n =>
              rw [wordOfInfo]
              by_cases hn : 0 ≤ n ∧ n < 2 ^ 64
              · rw [if_pos hn, Napi.getRuleParam_inRange _ hn]
              · rw [if_neg hn, Napi.getRuleParam_outOfRange _ hn]

/-- The static decoder in closed form. -/
theorem ani_getRuleParam_eq (rule : Argument) :
    Ani.getRuleParam rt.toBigintRuntime rule = wordOfRule rule := by
  cases rule with
  | bigint n => exact Ani.getRuleParam_bigint _ n
  | other => rfl

/-- A word of zero is not passed on, and would be rejected. -/
theorem onWord_store (t : Thread) (op : Op) (w : Word) (s : Store Thread) :
    (onWord t op w s).1 = applyAny t (mutation w op) s := by
  have hzero : checkRule 0#64 = false := by decide
  cases op with
  | addRule =>
      by_cases hw : w = 0#64
      · rw [hw]
        exact (addRule_rejected t hzero s).symm
      · exact congrArg Prod.fst (if_pos hw)
  | addCheckRule =>
      by_cases hw : w = 0#64
      · rw [hw]
        exact (addRule_rejected t hzero s).symm
      · exact congrArg Prod.fst (if_pos hw)
  | removeRule =>
      by_cases hw : w = 0#64
      · rw [hw]
        exact (removeRule_rejected t hzero s).symm
      · exact congrArg Prod.fst (if_pos hw)
  | removeCheckRule =>
      by_cases hw : w = 0#64
      · rw [hw]
        exact (removeRule_rejected t hzero s).symm
      · exact congrArg Prod.fst (if_pos hw)
  | contains => rfl
  | containsCheckRule => rfl

/-- **Every call** does to the store what it asks of it. -/
theorem run_eq (t : Thread) (c : Call) (s : Store Thread) :
    c.run rt t s = applyAny t c.effect s := by
  cases c with
  | native c => rfl
  | napi op info =>
      rw [Call.run, Napi.call_eq, onWord_store, napi_getRuleParam_eq]
      rfl
  | ani op rule =>
      rw [Call.run, Ani.call_eq, onWord_store, ani_getRuleParam_eq]
      rfl
  | startup params processName =>
      rw [Call.run, initHicheckerParam_eq, Call.effect]
      by_cases hreads :
          NameFits processName ∧ ReadsRule (params (checkerPrefix ++ processName)).bytes
      · rw [if_pos hreads, if_pos hreads]
        exact (addRule_arkuiPerformance t s).symm
      · rw [if_neg hreads, if_neg hreads]
        rfl

omit [DecidableEq Thread] in
theorem effects_snoc (p : List (Thread × Call)) (t : Thread) (c : Call) :
    effects (p ++ [(t, c)]) = effects p ++ (c.effect.map (fun c => (t, c))).toList := by
  rw [effects, List.filterMap_append]
  refine congrArg (effects p ++ ·) ?_
  rw [List.filterMap_cons, List.filterMap_nil]
  cases c.effect with
  | none => rfl
  | some c => rfl

/-- **A program of calls** leaves the store that its effects leave. -/
theorem storeAfter_eq (p : List (Thread × Call)) : storeAfter rt p = replay (effects p) := by
  induction p using List.reverseRecOn with
  | nil => rfl
  | append_singleton p e ih =>
      obtain ⟨t, c⟩ := e
      have hsnoc : storeAfter rt (p ++ [(t, c)]) = c.run rt t (storeAfter rt p) := by
        show (p ++ [(t, c)]).foldl _ initial = _
        rw [List.foldl_append]
        rfl
      rw [hsnoc, run_eq, ih, effects_snoc]
      cases c.effect with
      | none => exact congrArg replay (List.append_nil _).symm
      | some c => exact (replay_snoc _ t c).symm

-- ── What the languages read ───────────────────────────────────────────────────────

/-- Both languages take the number for the rules that the thread has. -/
structure Understood (t : Thread) (s : Store Thread) (n : Int) : Prop where
  napiContains : (Napi.contains rt.toBigintRuntime t [.bigint n] s).2.value = some true
  aniContains : (Ani.contains rt.toBigintRuntime t (.bigint n) s).2.value = some true
  napiRemoves : RuleStore.getRule t (Napi.removeRule rt.toBigintRuntime t [.bigint n] s).1 = 0#64
  aniRemoves : RuleStore.getRule t (Ani.removeRule rt.toBigintRuntime t (.bigint n) s).1 = 0#64

theorem low64_toNat (v : Word) : low64 v.toNat = v := by
  rw [low64, BitVec.ofInt_natCast, BitVec.ofNat_toNat, BitVec.setWidth_eq]

theorem wordOfInfo_toNat (v : Word) : wordOfInfo [.bigint v.toNat] = v := by
  have hrange : (0 : Int) ≤ v.toNat ∧ (v.toNat : Int) < 2 ^ 64 :=
    ⟨Int.natCast_nonneg _, Int.ofNat_lt.mpr v.isLt⟩
  rw [wordOfInfo, if_pos hrange, low64_toNat]

/-- The number of the rules that a thread has is understood. -/
theorem understood_getRule {t : Thread} {s : Store Thread} (hs : Scoped s)
    (hne : RuleStore.getRule t s ≠ 0#64) : Understood rt t s (RuleStore.getRule t s).toNat := by
  have hcontains := contains_getRule hs hne
  have hremoves := getRule_removeRule_getRule hs hne
  have hnapi : Napi.getRuleParam rt.toBigintRuntime [.bigint (RuleStore.getRule t s).toNat]
      = RuleStore.getRule t s := by
    rw [napi_getRuleParam_eq, wordOfInfo_toNat]
  have hani := getRuleParam_toNat rt.toAniRuntime (RuleStore.getRule t s)
  have hpassed : RuleStore.getRule t s ≠ getRuleParamFail := hne
  constructor
  · rw [Napi.contains, hnapi, hcontains]
  · rw [Ani.contains, hani, hcontains]
  · rw [Napi.removeRule, hnapi, if_pos hpassed]
    exact hremoves
  · rw [Ani.removeRule, hani, if_pos hpassed]
    exact hremoves

/-- **The front ends agree**, after every program of calls in any mixture of the four. What a
    thread sees follows from the effects of the calls: its thread rules from its own, process
    rules from everybody's, and a caution rule from either. ArkTS reads a number wherever the
    runtime's calls succeed, and the number that either language reads on a thread is that
    word; unless it is zero, both languages find the rules of the number contained and can take
    all of them away. -/
theorem front_ends_agree (p : List (Thread × Call)) (t : Thread) :
    let s := storeAfter rt p
    let seen := bits (RuleStore.getRule t s)
    (∀ b ∈ bits allThreadRules, b ∈ seen ↔ lastIsAdd (byThread t) b (effects p) = true)
      ∧ (∀ b ∈ bits allProcessRules, b ∈ seen ↔ lastIsAdd byAnyone b (effects p) = true)
      ∧ (∀ b ∈ bits allCautionRules, b ∈ seen
          ↔ lastIsAdd (byThread t) b (effects p) = true ∨ lastIsAdd byAnyone b (effects p) = true)
      ∧ (∀ env : Env, env.succeeds = true →
          RuleRoundTrip.getRule rt.toAniRuntime env t s
            = some ((RuleStore.getRule t s).toNat : Int))
      ∧ ∀ (env : Env) (n : Int),
          napiGetRule rt t s = n ∨ RuleRoundTrip.getRule rt.toAniRuntime env t s = some n →
            n = (RuleStore.getRule t s).toNat ∧ (n ≠ 0 → Understood rt t s n) := by
  intro s seen
  have hs : s = replay (effects p) := storeAfter_eq rt p
  obtain ⟨-, -, hthread, hprocess, hcaution, -, -⟩ := ruleStore_agrees_with_trace (effects p) t
  have hscoped : Scoped s := by
    rw [hs]
    exact scoped_replay (effects p)
  refine ⟨?_, ?_, ?_, ?_, ?_⟩
  · show ∀ b ∈ bits allThreadRules, b ∈ bits (RuleStore.getRule t s) ↔ _
    rw [hs]
    exact hthread
  · show ∀ b ∈ bits allProcessRules, b ∈ bits (RuleStore.getRule t s) ↔ _
    rw [hs]
    exact hprocess
  · show ∀ b ∈ bits allCautionRules, b ∈ bits (RuleStore.getRule t s) ↔ _
    rw [hs]
    exact hcaution
  · intro env hsucceeds
    exact getRule_eq rt.toAniRuntime hsucceeds t s
  · intro env n hread
    have hn : n = (RuleStore.getRule t s).toNat := by
      rcases hread with hnapi | hani
      · rw [← hnapi]
        exact rt.createBigintUint64_eq _
      · exact eq_toNat_of_built rt.toAniRuntime hani
    refine ⟨hn, fun hne => ?_⟩
    rw [hn]
    refine understood_getRule rt hscoped (fun hzero => hne ?_)
    rw [hn, hzero]
    rfl

/-- The runtimes as they are documented. -/
def documentedRuntimes : Runtime :=
  { documentedAniRuntime with
    createBigintUint64 := fun v => v.toNat
    createBigintUint64_eq := fun _ => rfl }

/-- Two threads: one asks in JavaScript for crashes and in ArkTS for slow processes, the other
    one takes the crashes back. -/
def mixed : List (Nat × Call) :=
  [(0, .napi .addCheckRule [.bigint (2 ^ 62)]), (0, .ani .addRule (.bigint 1)),
    (1, .native (.remove ruleCautionTriggerCrash)), (0, .ani .addCheckRule (.bigint (2 ^ 64)))]

/-- The first thread still has its own copy, and both languages know the number it reads. -/
theorem front_ends_agree_mixed :
    62 ∈ bits (RuleStore.getRule 0 (storeAfter documentedRuntimes mixed))
      ∧ RuleRoundTrip.getRule documentedAniRuntime ⟨true, true, true, true⟩ 0
          (storeAfter documentedRuntimes mixed)
        = some ((RuleStore.getRule 0 (storeAfter documentedRuntimes mixed)).toNat : Int)
      ∧ Understood documentedRuntimes 0 (storeAfter documentedRuntimes mixed) (2 ^ 62 + 1) := by
  obtain ⟨-, -, hcaution, hgiven, hread⟩ := front_ends_agree documentedRuntimes mixed (0 : Nat)
  have hgot : napiGetRule documentedRuntimes 0 (storeAfter documentedRuntimes mixed)
      = 2 ^ 62 + 1 := by
    decide +kernel
  obtain ⟨-, hunderstood⟩ := hread ⟨true, true, true, true⟩ _ (Or.inl hgot)
  refine ⟨(hcaution 62 (by decide)).mpr (Or.inl ?_), hgiven _ rfl, hunderstood (by decide)⟩
  decide +kernel

end FrontEnds
