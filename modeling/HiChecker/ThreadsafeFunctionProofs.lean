import HiChecker.MemoryLedgerProofs
import HiChecker.TransitionProofs

/-!
# The memory of asynchronous heap dumps

`DumpRawHeap` allocates a `TsfnContext` for the thread-safe function that brings the result of
the dump back, and the callback of the dump thread allocates the byte that `MainThreadExec`
gets. The context is deleted by the finalizer of the function, or at once when there is no
function; the byte by `MainThreadExec`. Any number of dumps run at the same time, and every
call may fail.

* **`dumps`** — the calls of one process, with what they do to these blocks.
* **`memory_accounted`** — no block is used or deleted after its deletion, and what is left
  over in the end is what the failures left.
-/

namespace ThreadsafeFunction

open Transition Trace MemoryLedger

-- ── One dump ──────────────────────────────────────────────────────────────────────

/-- The blocks of the `k`-th call of `DumpRawHeap`. -/
inductive Block where
  /-- its `TsfnContext` -/
  | context (k : Nat)
  /-- the `pData` of its dump -/
  | data (k : Nat)
deriving DecidableEq

/-- The thread-safe function after `MainThreadExec` asked for its release. -/
inductive Release where
  /-- `napi_release_threadsafe_function` failed -/
  | failed
  /-- the finalizer has still to run -/
  | closing
  | finalized
deriving DecidableEq

/-- How far a call has come. -/
inductive Phase where
  /-- there is no thread-safe function -/
  | refused
  | dumping
  /-- the callback of the dump has allocated `pData` -/
  | calling
  /-- `napi_call_threadsafe_function` failed -/
  | unsent
  | queued
  /-- `MainThreadExec` is in `napi_call_function` -/
  | executing
  /-- `MainThreadExec` gave up before it called -/
  | abandoned
  /-- `MainThreadExec` has still to delete `pData` -/
  | released (release : Release)
  | returned (release : Release)
deriving DecidableEq

/-- What a call does next. -/
inductive Action where
  /-- the callback of `DumpHeapSnapshot` begins -/
  | callback
  | call (ok : Bool)
  /-- `MainThreadExec` begins: `napi_get_global` and `napi_create_uint32` -/
  | execute (global uint32 : Bool)
  | release (ok : Bool)
  /-- the end of `MainThreadExec` -/
  | finish
  /-- the finalizer of the thread-safe function, once it has been released -/
  | finalize
deriving DecidableEq

/-- `Release.closing` turns into `Release.finalized`. -/
def finalize (k : Nat) : Release → Option (Release × List (MemoryEvent Block))
  | .closing => some (.finalized, [.delete (.context k)])
  | _ => none

/-- What an action does in each phase, and the memory it touches. -/
def act (k : Nat) : Phase → Action → Option (Phase × List (MemoryEvent Block))
  | .dumping, .callback => some (.calling, [.new (.data k), .use (.context k)])
  | .calling, .call ok => some (if ok then .queued else .unsent, [.use (.context k)])
  | .queued, .execute global uint32 =>
      if !global then some (.abandoned, [.use (.data k), .delete (.data k)])
      else if !uint32 then some (.abandoned, [.use (.data k), .delete (.data k)])
      else some (.executing, [.use (.data k)])
  | .executing, .release ok =>
      some (.released (if ok then .closing else .failed), [.use (.context k)])
  | .released release, .finish => some (.returned release, [.delete (.data k)])
  | .released release, .finalize =>
      (finalize k release).map (fun p => (.released p.1, p.2))
  | .returned release, .finalize =>
      (finalize k release).map (fun p => (.returned p.1, p.2))
  | _, _ => none

-- ── All dumps ─────────────────────────────────────────────────────────────────────

/-- What can happen next. -/
inductive Input where
  /-- `DumpRawHeap` gets to its `new`, and `napi_create_threadsafe_function` succeeds or not -/
  | dumpRawHeap (created : Bool)
  | act (k : Nat) (a : Action)

/-- `DumpRawHeap`: the context is allocated before the function is created. -/
def dumpRawHeap (created : Bool) (calls : List Phase) :
    List Phase × List (MemoryEvent Block) :=
  let context := Block.context calls.length
  if created then (calls ++ [.dumping], [.new context, .use context])
  else (calls ++ [.refused], [.new context, .delete context])

/-- One step of one call. -/
def step (calls : List Phase) : Input → Option (List Phase × List (MemoryEvent Block))
  | .dumpRawHeap created => some (dumpRawHeap created calls)
  | .act k a =>
      match calls[k]? with
      | none => none
      | some phase => (act k phase a).map (fun p => (calls.set k p.1, p.2))

/-- Any number of calls. -/
def dumps : Machine (List Phase) Input (MemoryEvent Block) := ⟨[], step⟩

-- ── What a phase holds ────────────────────────────────────────────────────────────

/-- The context has not been deleted. -/
def Phase.holdsContext : Phase → Bool
  | .refused => false
  | .released .finalized => false
  | .returned .finalized => false
  | _ => true

/-- `pData` has been allocated and not been deleted. -/
def Phase.holdsData : Phase → Bool
  | .calling => true
  | .unsent => true
  | .queued => true
  | .executing => true
  | .released _ => true
  | _ => false

/-- `pData` has not been allocated. -/
def Phase.beforeData : Phase → Bool
  | .refused => true
  | .dumping => true
  | _ => false

/-- Nothing more happens. -/
def Phase.final : Phase → Bool
  | .refused => true
  | .unsent => true
  | .abandoned => true
  | .returned .failed => true
  | .returned .finalized => true
  | _ => false

/-- A call to the runtime failed after the thread-safe function was there. -/
def Phase.leaks : Phase → Bool
  | .unsent => true
  | .abandoned => true
  | .returned .failed => true
  | _ => false

/-- The call that a block belongs to. -/
def Block.call : Block → Nat
  | .context k => k
  | .data k => k

/-- The blocks of the `k`-th call are as its phase has it. -/
structure Held (k : Nat) (phase : Phase) (tr : List (MemoryEvent Block)) : Prop where
  context : Live (.context k) tr ↔ phase.holdsContext = true
  data : Live (.data k) tr ↔ phase.holdsData = true
  fresh : phase.beforeData = true → .new (.data k) ∉ tr

/-- What holds along every run. -/
structure Accounted (calls : List Phase) (tr : List (MemoryEvent Block)) : Prop where
  respects : AtEach Respects tr
  held : ∀ k phase, calls[k]? = some phase → Held k phase tr
  known : ∀ e ∈ tr, e.block.call < calls.length

-- ── What an action can do ─────────────────────────────────────────────────────────

/-- All that an action can do. -/
inductive ActEffect (k : Nat) : Phase → Phase → List (MemoryEvent Block) → Prop where
  | calledBack : ActEffect k .dumping .calling [.new (.data k), .use (.context k)]
  | called (ok : Bool) :
      ActEffect k .calling (if ok then .queued else .unsent) [.use (.context k)]
  | gaveUp : ActEffect k .queued .abandoned [.use (.data k), .delete (.data k)]
  | executed : ActEffect k .queued .executing [.use (.data k)]
  | released (ok : Bool) :
      ActEffect k .executing (.released (if ok then .closing else .failed)) [.use (.context k)]
  | returned (release : Release) :
      ActEffect k (.released release) (.returned release) [.delete (.data k)]
  | finalizedEarly :
      ActEffect k (.released .closing) (.released .finalized) [.delete (.context k)]
  | finalized : ActEffect k (.returned .closing) (.returned .finalized) [.delete (.context k)]

/-- Finalizing deletes the context. -/
theorem finalize_eq {k : Nat} {release release' : Release} {es : List (MemoryEvent Block)}
    (h : finalize k release = some (release', es)) :
    release = .closing ∧ release' = .finalized ∧ es = [.delete (.context k)] := by
  cases release with
  | failed => exact absurd h.symm (Option.some_ne_none _)
  | closing =>
      obtain ⟨rfl, rfl⟩ := Prod.mk.inj (Option.some.inj h)
      exact ⟨rfl, rfl, rfl⟩
  | finalized => exact absurd h.symm (Option.some_ne_none _)

/-- **Every action** has one of the effects. -/
theorem act_effect {k : Nat} {phase phase' : Phase} {a : Action}
    {es : List (MemoryEvent Block)} (h : act k phase a = some (phase', es)) :
    ActEffect k phase phase' es := by
  cases phase with
  | dumping =>
      cases a with
      | callback =>
          obtain ⟨rfl, rfl⟩ := Prod.mk.inj (Option.some.inj h)
          exact ActEffect.calledBack
      | _ => exact absurd h.symm (Option.some_ne_none _)
  | calling =>
      cases a with
      | call ok =>
          obtain ⟨rfl, rfl⟩ := Prod.mk.inj (Option.some.inj h)
          exact ActEffect.called ok
      | _ => exact absurd h.symm (Option.some_ne_none _)
  | queued =>
      cases a with
      | execute global uint32 =>
          cases global with
          | false =>
              obtain ⟨rfl, rfl⟩ := Prod.mk.inj (Option.some.inj h)
              exact ActEffect.gaveUp
          | true =>
              cases uint32 with
              | false =>
                  obtain ⟨rfl, rfl⟩ := Prod.mk.inj (Option.some.inj h)
                  exact ActEffect.gaveUp
              | true =>
                  obtain ⟨rfl, rfl⟩ := Prod.mk.inj (Option.some.inj h)
                  exact ActEffect.executed
      | _ => exact absurd h.symm (Option.some_ne_none _)
  | executing =>
      cases a with
      | release ok =>
          obtain ⟨rfl, rfl⟩ := Prod.mk.inj (Option.some.inj h)
          exact ActEffect.released ok
      | _ => exact absurd h.symm (Option.some_ne_none _)
  | released release =>
      cases a with
      | finish =>
          obtain ⟨rfl, rfl⟩ := Prod.mk.inj (Option.some.inj h)
          exact ActEffect.returned release
      | finalize =>
          obtain ⟨p, hp, heq⟩ := Option.map_eq_some_iff.mp h
          obtain ⟨rfl, hrelease, hes⟩ := finalize_eq hp
          obtain ⟨rfl, rfl⟩ := Prod.mk.inj heq
          rw [hrelease, hes]
          exact ActEffect.finalizedEarly
      | _ => exact absurd h.symm (Option.some_ne_none _)
  | returned release =>
      cases a with
      | finalize =>
          obtain ⟨p, hp, heq⟩ := Option.map_eq_some_iff.mp h
          obtain ⟨rfl, hrelease, hes⟩ := finalize_eq hp
          obtain ⟨rfl, rfl⟩ := Prod.mk.inj heq
          rw [hrelease, hes]
          exact ActEffect.finalized
      | _ => exact absurd h.symm (Option.some_ne_none _)
  | _ => exact absurd h.symm (Option.some_ne_none _)

-- ── The blocks of a call ──────────────────────────────────────────────────────────

variable {k : Nat} {phase phase' : Phase} {tr es : List (MemoryEvent Block)}

theorem context_ne_data : Block.context k ≠ .data k := fun h => Block.noConfusion h

/-- A use of a block that the call holds. -/
theorem Held.use (h : Held k phase tr) (hr : AtEach Respects tr) {b : Block}
    (hlive : Live b tr) (hcontext : phase'.holdsContext = phase.holdsContext)
    (hdata : phase'.holdsData = phase.holdsData)
    (hfresh : phase'.beforeData = true → phase.beforeData = true) :
    Held k phase' (tr ++ [.use b]) ∧ AtEach Respects (tr ++ [.use b]) := by
  refine ⟨⟨?_, ?_, ?_⟩, atEach_snoc.mpr ⟨hr, hlive⟩⟩
  · rw [live_use, hcontext]
    exact h.context
  · rw [live_use, hdata]
    exact h.data
  · intro hbefore hmem
    rcases List.mem_append.mp hmem with hmem | hmem
    · exact h.fresh (hfresh hbefore) hmem
    · cases List.mem_singleton.mp hmem

/-- `new TsfnContext`. -/
theorem Held.newContext (h : Held k .refused tr) (hr : AtEach Respects tr)
    (hnew : .new (.context k) ∉ tr) :
    Held k .dumping (tr ++ [.new (.context k)]) ∧ AtEach Respects (tr ++ [.new (.context k)]) := by
  refine ⟨⟨iff_of_true (live_new _ _) rfl, ?_, ?_⟩, atEach_snoc.mpr ⟨hr, hnew⟩⟩
  · exact Iff.trans (live_snoc_other context_ne_data) h.data
  · intro hbefore hmem
    rcases List.mem_append.mp hmem with hmem | hmem
    · exact h.fresh hbefore hmem
    · cases List.mem_singleton.mp hmem

/-- `new uint8_t`. -/
theorem Held.newData (h : Held k .dumping tr) (hr : AtEach Respects tr) :
    Held k .calling (tr ++ [.new (.data k)]) ∧ AtEach Respects (tr ++ [.new (.data k)]) := by
  refine ⟨⟨?_, iff_of_true (live_new _ _) rfl, ?_⟩, atEach_snoc.mpr ⟨hr, h.fresh rfl⟩⟩
  · exact Iff.trans (live_snoc_other context_ne_data.symm) h.context
  · exact fun hbefore => absurd hbefore Bool.false_ne_true

/-- The context is deleted, by the finalizer or because there is no function. -/
theorem Held.deleteContext (h : Held k phase tr) (hr : AtEach Respects tr)
    (hold : phase.holdsContext = true) (hcontext : phase'.holdsContext = false)
    (hdata : phase'.holdsData = phase.holdsData)
    (hfresh : phase'.beforeData = true → phase.beforeData = true) :
    Held k phase' (tr ++ [.delete (.context k)])
      ∧ AtEach Respects (tr ++ [.delete (.context k)]) := by
  refine ⟨⟨?_, ?_, ?_⟩, atEach_snoc.mpr ⟨hr, h.context.mpr hold⟩⟩
  · rw [hcontext]
    exact iff_of_false (not_live_delete _ _) Bool.false_ne_true
  · rw [hdata]
    exact Iff.trans (live_snoc_other context_ne_data) h.data
  · intro hbefore hmem
    rcases List.mem_append.mp hmem with hmem | hmem
    · exact h.fresh (hfresh hbefore) hmem
    · cases List.mem_singleton.mp hmem

/-- `delete pData`. -/
theorem Held.deleteData (h : Held k phase tr) (hr : AtEach Respects tr)
    (hold : phase.holdsData = true) (hcontext : phase'.holdsContext = phase.holdsContext)
    (hdata : phase'.holdsData = false) (hfresh : phase'.beforeData = false) :
    Held k phase' (tr ++ [.delete (.data k)])
      ∧ AtEach Respects (tr ++ [.delete (.data k)]) := by
  refine ⟨⟨?_, ?_, ?_⟩, atEach_snoc.mpr ⟨hr, h.data.mpr hold⟩⟩
  · rw [hcontext]
    exact Iff.trans (live_snoc_other context_ne_data.symm) h.context
  · rw [hdata]
    exact iff_of_false (not_live_delete _ _) Bool.false_ne_true
  · rw [hfresh]
    exact fun hbefore => absurd hbefore Bool.false_ne_true

/-- **Every action** keeps the blocks of its call. -/
theorem held_act (h : Held k phase tr) (hr : AtEach Respects tr)
    (heffect : ActEffect k phase phase' es) :
    Held k phase' (tr ++ es) ∧ AtEach Respects (tr ++ es) := by
  cases heffect with
  | calledBack =>
      obtain ⟨hdata, hr'⟩ := h.newData hr
      rw [← List.singleton_append, ← List.append_assoc]
      exact hdata.use hr' (hdata.context.mpr rfl) rfl rfl id
  | called ok =>
      cases ok with
      | true => exact h.use hr (h.context.mpr rfl) rfl rfl nofun
      | false => exact h.use hr (h.context.mpr rfl) rfl rfl nofun
  | gaveUp =>
      have hused : Held k .queued (tr ++ [.use (.data k)]) ∧ AtEach Respects _ :=
        h.use hr (h.data.mpr rfl) rfl rfl id
      rw [← List.singleton_append, ← List.append_assoc]
      exact hused.1.deleteData hused.2 rfl rfl rfl rfl
  | executed => exact h.use hr (h.data.mpr rfl) rfl rfl id
  | released ok =>
      cases ok with
      | true => exact h.use hr (h.context.mpr rfl) rfl rfl nofun
      | false => exact h.use hr (h.context.mpr rfl) rfl rfl nofun
  | returned release =>
      cases release with
      | failed => exact h.deleteData hr rfl rfl rfl rfl
      | closing => exact h.deleteData hr rfl rfl rfl rfl
      | finalized => exact h.deleteData hr rfl rfl rfl rfl
  | finalizedEarly => exact h.deleteContext hr rfl rfl rfl id
  | finalized => exact h.deleteContext hr rfl rfl rfl id

/-- An action is about the blocks of its own call. -/
theorem call_act (heffect : ActEffect k phase phase' es) : ∀ e ∈ es, e.block.call = k := by
  intro e he
  cases heffect with
  | calledBack =>
      rcases List.mem_cons.mp he with rfl | he
      · rfl
      · rw [List.mem_singleton.mp he]
        rfl
  | gaveUp =>
      rcases List.mem_cons.mp he with rfl | he
      · rfl
      · rw [List.mem_singleton.mp he]
        rfl
  | _ =>
      rw [List.mem_singleton.mp he]
      rfl

/-- Events of other calls leave the blocks of a call alone. -/
theorem Held.other (h : Held k phase tr) (hes : ∀ e ∈ es, e.block.call ≠ k) :
    Held k phase (tr ++ es) := by
  have hother : ∀ b : Block, b.call = k → ∀ e ∈ es, e.block ≠ b :=
    fun b hb e he heq => hes e he (heq ▸ hb)
  refine ⟨?_, ?_, ?_⟩
  · rw [live_append_other tr (hother _ rfl)]
    exact h.context
  · rw [live_append_other tr (hother _ rfl)]
    exact h.data
  · intro hfresh hmem
    rcases List.mem_append.mp hmem with hmem | hmem
    · exact h.fresh hfresh hmem
    · exact hother _ rfl _ hmem rfl

-- ── Every run ─────────────────────────────────────────────────────────────────────

/-- A new call, whatever becomes of it. -/
theorem Accounted.snoc {calls : List Phase} (h : Accounted calls tr)
    (hes : ∀ e ∈ es, e.block.call = calls.length) (hheld : Held calls.length phase (tr ++ es))
    (hr : AtEach Respects (tr ++ es)) : Accounted (calls ++ [phase]) (tr ++ es) := by
  refine ⟨hr, ?_, ?_⟩
  · intro k phase' hk
    rcases Nat.lt_trichotomy k calls.length with hlt | rfl | hgt
    · rw [List.getElem?_append_left hlt] at hk
      exact (h.held k phase' hk).other (fun e he => (hes e he).symm ▸ Nat.ne_of_gt hlt)
    · rw [List.getElem?_concat_length] at hk
      rw [← Option.some.inj hk]
      exact hheld
    · have hout : (calls ++ [phase])[k]? = none :=
        List.getElem?_eq_none (List.length_append ▸ hgt)
      exact absurd (hout.symm.trans hk).symm (Option.some_ne_none _)
  · intro e he
    rw [List.length_append]
    rcases List.mem_append.mp he with he | he
    · exact Nat.lt_add_right 1 (h.known e he)
    · rw [hes e he]
      exact Nat.lt_succ_self _

/-- A new call is accounted for. -/
theorem Accounted.dumpRawHeap {calls : List Phase} (h : Accounted calls tr) (created : Bool) :
    Accounted (dumpRawHeap created calls).1 (tr ++ (dumpRawHeap created calls).2) := by
  have hnew : ∀ b : Block, b.call = calls.length → .new b ∉ tr := by
    intro b hb hmem
    exact absurd (h.known _ hmem) (Nat.not_lt.mpr (Nat.le_of_eq hb.symm))
  have hnothing : Held calls.length .refused tr :=
    ⟨iff_of_false (fun hlive => hnew _ rfl (new_of_live hlive)) Bool.false_ne_true,
      iff_of_false (fun hlive => hnew _ rfl (new_of_live hlive)) Bool.false_ne_true,
      fun _ => hnew _ rfl⟩
  obtain ⟨hheld, hr⟩ := hnothing.newContext h.respects (hnew _ rfl)
  cases created with
  | true =>
      have hused : Held calls.length .dumping _ ∧ AtEach Respects _ :=
        hheld.use hr (live_new _ _) rfl rfl id
      rw [List.append_assoc] at hused
      refine h.snoc ?_ hused.1 hused.2
      intro e he
      rcases List.mem_cons.mp he with rfl | he
      · rfl
      · rw [List.mem_singleton.mp he]
        rfl
  | false =>
      have hdeleted : Held calls.length .refused _ ∧ AtEach Respects _ :=
        hheld.deleteContext hr rfl rfl rfl id
      rw [List.append_assoc] at hdeleted
      refine h.snoc ?_ hdeleted.1 hdeleted.2
      intro e he
      rcases List.mem_cons.mp he with rfl | he
      · rfl
      · rw [List.mem_singleton.mp he]
        rfl

/-- An action of a call. -/
theorem Accounted.act {calls : List Phase} (h : Accounted calls tr)
    (hk : calls[k]? = some phase) (heffect : ActEffect k phase phase' es) :
    Accounted (calls.set k phase') (tr ++ es) := by
  obtain ⟨hheld, hr⟩ := held_act (h.held k phase hk) h.respects heffect
  have hes := call_act heffect
  have hlt : k < calls.length := (List.getElem?_eq_some_iff.mp hk).1
  refine ⟨hr, ?_, ?_⟩
  · intro j phase'' hj
    by_cases hjk : k = j
    · subst hjk
      rw [List.getElem?_set_self hlt] at hj
      rw [← Option.some.inj hj]
      exact hheld
    · rw [List.getElem?_set_ne hjk] at hj
      exact (h.held j phase'' hj).other (fun e he => (hes e he).symm ▸ hjk)
  · intro e he
    rw [List.length_set]
    rcases List.mem_append.mp he with he | he
    · exact h.known e he
    · rw [hes e he]
      exact hlt

/-- Every block is accounted for along every run. -/
theorem accounted_of_run {calls : List Phase} (hr : Run dumps anyStep calls tr) :
    Accounted calls tr := by
  refine Run.invariant (I := Accounted) ?_ ?_ hr
  · exact ⟨atEach_nil _, fun k phase hk => absurd hk.symm (Option.some_ne_none _),
      fun e he => absurd he List.not_mem_nil⟩
  · intro calls tr a calls' es h _ hs
    cases a with
    | dumpRawHeap created =>
        obtain ⟨rfl, rfl⟩ := Prod.mk.inj (Option.some.inj hs)
        exact h.dumpRawHeap created
    | act k a =>
        have hs : (match calls[k]? with
          | none => none
          | some phase => (act k phase a).map (fun p => (calls.set k p.1, p.2)))
            = some (calls', es) := hs
        split at hs
        · exact absurd hs.symm (Option.some_ne_none _)
        · rename_i phase hk
          obtain ⟨p, hp, heq⟩ := Option.map_eq_some_iff.mp hs
          obtain ⟨rfl, rfl⟩ := Prod.mk.inj heq
          exact h.act hk (act_effect hp)

/-- What is final is what cannot go on. -/
theorem final_of_stuck (h : ∀ a, act k phase a = none) : phase.final = true := by
  cases phase with
  | refused => rfl
  | dumping => exact nomatch h .callback
  | calling => exact nomatch h (.call true)
  | unsent => rfl
  | queued => exact nomatch h (.execute true true)
  | executing => exact nomatch h (.release true)
  | abandoned => rfl
  | released release => exact nomatch h .finish
  | returned release =>
      cases release with
      | failed => rfl
      | closing => exact nomatch h .finalize
      | finalized => rfl

/-- A call that will do nothing more leaves the block. -/
def Block.leftBy : Block → Phase → Prop
  | .context _, phase => phase.leaks = true
  | .data _, phase => phase = .unsent

/-- What a call leaves behind when it is over. -/
theorem leftBy_iff (h : Held k phase tr) (hfinal : phase.final = true) (b : Block)
    (hb : b.call = k) : Live b tr ↔ b.leftBy phase := by
  subst hb
  cases b with
  | context k =>
      refine h.context.trans ?_
      cases phase with
      | returned release =>
          cases release with
          | closing => exact absurd hfinal Bool.false_ne_true
          | _ => exact Iff.rfl
      | released release => exact absurd hfinal Bool.false_ne_true
      | refused => exact Iff.rfl
      | unsent => exact Iff.rfl
      | abandoned => exact Iff.rfl
      | _ => exact absurd hfinal Bool.false_ne_true
  | data k =>
      refine h.data.trans ?_
      cases phase with
      | unsent => exact iff_of_true rfl rfl
      | refused => exact iff_of_false Bool.false_ne_true Phase.noConfusion
      | abandoned => exact iff_of_false Bool.false_ne_true Phase.noConfusion
      | returned release => exact iff_of_false Bool.false_ne_true Phase.noConfusion
      | _ => exact absurd hfinal Bool.false_ne_true

/-- **The memory of the dumps is accounted for**, in every interleaving of any number of calls
    with their dump threads, `MainThreadExec` and the finalizers, whatever fails on the way: no
    block is used or deleted unless it is live, none is deleted twice, and once no call can go
    on the blocks left are the contexts whose message was not sent, or not brought to the
    release of its function, or whose release failed, and the bytes that were not sent. -/
theorem memory_accounted {calls : List Phase} (hr : Run dumps anyStep calls tr) :
    AtEach Respects tr ∧ (∀ b, tr.count (.delete b) ≤ 1)
      ∧ ((∀ k a, step calls (.act k a) = none) →
          ∀ b, Live b tr ↔ ∃ phase, calls[b.call]? = some phase ∧ b.leftBy phase) := by
  have h := accounted_of_run hr
  refine ⟨h.respects, deleted_once h.respects, fun hstuck b => ?_⟩
  cases hk : calls[b.call]? with
  | none =>
      refine iff_of_false (fun hlive => ?_) (fun ⟨phase, hphase, _⟩ => nomatch hphase)
      have hlt := h.known _ (new_of_live hlive)
      exact absurd hlt (Nat.not_lt.mpr (List.getElem?_eq_none_iff.mp hk))
  | some phase =>
      have hphase : phase.final = true := by
        refine final_of_stuck (k := b.call) (fun a => ?_)
        have hnone := hstuck b.call a
        simp only [step, hk] at hnone
        exact Option.map_eq_none_iff.mp hnone
      refine (leftBy_iff (h.held _ phase hk) hphase b rfl).trans ?_
      constructor
      · exact fun hleft => ⟨phase, rfl, hleft⟩
      · rintro ⟨_, heq, hleft⟩
        rw [Option.some.inj heq]
        exact hleft

/-- Two dumps at once: the first one is brought back and finalized, the message of the second
    one cannot be sent. -/
def oneUnsent : List Input :=
  [.dumpRawHeap true, .dumpRawHeap true, .act 1 .callback, .act 0 .callback, .act 0 (.call true),
    .act 0 (.execute true true), .act 1 (.call false), .act 0 (.release true), .act 0 .finalize,
    .act 0 .finish]

/-- Both blocks of the second dump are left. -/
theorem memory_accounted_oneUnsent : ∃ (calls : List Phase) (tr : List (MemoryEvent Block)),
    Run dumps anyStep calls tr ∧ AtEach Respects tr ∧ ¬ Live (.context 0) tr
      ∧ Live (.context 1) tr ∧ Live (.data 1) tr := by
  obtain ⟨p, hp⟩ : ∃ p, exec dumps anyStep oneUnsent = some p := ⟨_, rfl⟩
  obtain ⟨hrespects, -, hleft⟩ := memory_accounted (run_of_exec hp)
  have hcalls : p.1 = [.returned .finalized, .unsent] := by
    obtain rfl := Option.some.inj hp
    rfl
  have hstuck : ∀ k a, step [.returned .finalized, .unsent] (.act k a) = none := by
    intro k a
    cases k with
    | zero => cases a <;> rfl
    | succ k =>
        cases k with
        | zero => cases a <;> rfl
        | succ k => rfl
  rw [hcalls] at hleft
  refine ⟨p.1, p.2, run_of_exec hp, hrespects, ?_, ?_, ?_⟩
  · rw [hleft hstuck]
    rintro ⟨phase, hphase, hleaks⟩
    rw [← Option.some.inj hphase] at hleaks
    exact Bool.false_ne_true hleaks
  · exact (hleft hstuck _).mpr ⟨.unsent, rfl, rfl⟩
  · exact (hleft hstuck _).mpr ⟨.unsent, rfl, rfl⟩

end ThreadsafeFunction
