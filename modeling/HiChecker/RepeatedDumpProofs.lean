import HiChecker.LeakRoundProofs
import HiChecker.LastWriteProofs

/-!
# Dumping the same leaks twice

`startDumptask` compares the list **captured** at the GC tick with the list **recorded**
at the last dump tick, and then dumps a third one, the captured objects that are still
in the map. When the capture holds an object that dies before the dump tick, the
comparison fails on that object, and what is dumped may be what was dumped before.

* **`hashEqual_iff`** — what the comparison decides.
* **`Steady`** — the map still lists all that was captured, and the recorded list is that
  of the last dump.
* **`dumps_differ`** — the dumps of a run differ from one to the next as long as the dump
  ticks that pass the comparison and the gates find a steady round.
-/

namespace RepeatedDump

open Transition Trace LastWrite JsValue OrderedMapLib LeakRound

-- ── What the comparison decides ───────────────────────────────────────────────────

/-- Equal hashes, none of them null, pass the comparison. -/
theorem everyHash_of_hashes_eq :
    ∀ {items duplicates : List ObjMsg}, hashes items = hashes duplicates →
      none ∉ hashes items → everyHash items duplicates = true := by
  intro items
  induction items with
  | nil =>
      intro duplicates _ _
      rfl
  | cons item items ih =>
      intro duplicates heq hnull
      cases duplicates with
      | nil => exact absurd heq (List.cons_ne_nil _ _)
      | cons duplicate duplicates =>
          obtain ⟨hhead, htail⟩ := List.cons.inj heq
          have hitem : item.hash ≠ none :=
            fun h => hnull (h ▸ List.mem_cons_self)
          have hboth : ¬ (item.hash = none ∨ duplicate.hash = none) := by
            rw [← hhead, or_self]
            exact hitem
          have hrest := ih htail (fun h => hnull (List.mem_cons_of_mem _ h))
          show (if item.hash = none ∨ duplicate.hash = none then false
            else decide (item.hash = duplicate.hash) && everyHash items duplicates) = true
          rw [if_neg hboth, hrest, Bool.and_true]
          exact decide_eq_true hhead

/-- A passed comparison means that no captured hash is null. -/
theorem not_none_of_everyHash :
    ∀ {items duplicates : List ObjMsg}, everyHash items duplicates = true →
      none ∉ hashes items := by
  intro items
  induction items with
  | nil =>
      intro duplicates _
      exact List.not_mem_nil
  | cons item items ih =>
      intro duplicates h
      cases duplicates with
      | nil => exact absurd h Bool.false_ne_true
      | cons duplicate duplicates =>
          by_cases hnull : item.hash = none ∨ duplicate.hash = none
          · exact absurd ((if_pos hnull).symm.trans h) Bool.false_ne_true
          · have hboth : (decide (item.hash = duplicate.hash)
                && everyHash items duplicates) = true := (if_neg hnull).symm.trans h
            intro hmem
            rcases List.mem_cons.mp hmem with hhead | htail
            · exact hnull (Or.inl hhead.symm)
            · exact ih (Bool.and_eq_true_iff.mp hboth).2 htail

/-- **The comparison**: the same hashes in the same order, and no null among them. -/
theorem hashEqual_iff (appState : AppState) :
    hashEqual appState = true
      ↔ hashes appState.currentLeakList = hashes appState.duplicateLeakList
        ∧ none ∉ hashes appState.currentLeakList := by
  constructor
  · intro h
    exact ⟨hashes_eq_of_hashEqual h, not_none_of_everyHash (Bool.and_eq_true_iff.mp h).2⟩
  · rintro ⟨heq, hnull⟩
    have hlen : appState.currentLeakList.length = appState.duplicateLeakList.length := by
      have h := congrArg List.length heq
      simpa only [hashes, List.length_map] using h
    exact Bool.and_eq_true_iff.mpr
      ⟨decide_eq_true hlen, everyHash_of_hashes_eq heq hnull⟩

-- ── Dumps of a run ────────────────────────────────────────────────────────────────

/-- `startDumptask` called `dumpInner`. -/
def isDump : Event → Bool
  | .dumpInner _ => true
  | _ => false

/-- A dump has another list of hashes than the dump before it. -/
def DiffersFromLast (pre : List Event) (e : Event) : Prop :=
  isDump e = true → lastOf isDump pre ≠ some e

/-- Nothing of the capture has gone from the map, and what the map lists behind the capture
    was not captured. -/
def StillWatched (watchObjMap : WatchMap) (appState : AppState) : Prop :=
  hashes appState.currentLeakList <+: hashes (getLeakList watchObjMap)
    ∧ ∀ h ∈ (hashes (getLeakList watchObjMap)).drop (hashes appState.currentLeakList).length,
        h ∉ hashes appState.currentLeakList

/-- The tick compares what it is about to dump with what was dumped last: all objects of the
    capture are still watched, none of their hashes is null, and the recorded list is that
    of the last dump, if there was one. -/
def Steady (tr : List Event) (watchObjMap : WatchMap) (appState : AppState) : Prop :=
  StillWatched watchObjMap appState
    ∧ none ∉ hashes appState.currentLeakList
    ∧ (lastOf isDump tr = none
        ∨ lastOf isDump tr = some (.dumpInner (hashes appState.duplicateLeakList)))

/-- A dump tick that passes the comparison and the gates finds a steady round. -/
def DumpsSteady : Round × List Event → Input → Prop
  | (s, tr), .dumpTick watchObjMap =>
      s.appState.isGC = true → hashEqual s.appState = false →
        reachesDump s.settings watchObjMap s.appState = true →
          Steady tr watchObjMap s.appState
  | _, _ => True

instance (watchObjMap : WatchMap) (appState : AppState) :
    Decidable (StillWatched watchObjMap appState) :=
  inferInstanceAs (Decidable (_ ∧ _))

instance (tr : List Event) (watchObjMap : WatchMap) (appState : AppState) :
    Decidable (Steady tr watchObjMap appState) :=
  inferInstanceAs (Decidable (_ ∧ _ ∧ (_ ∨ _)))

instance : DecidableRel DumpsSteady
  | _, .configure _ _ => isTrue trivial
  | _, .gcTick _ _ => isTrue trivial
  | _, .settle _ => isTrue trivial
  | (s, tr), .dumpTick watchObjMap =>
      inferInstanceAs (Decidable (s.appState.isGC = true → hashEqual s.appState = false →
        reachesDump s.settings watchObjMap s.appState = true →
          Steady tr watchObjMap s.appState))

/-- While the capture is still watched, all of it survives. -/
theorem hashes_survivors_of_stillWatched {watchObjMap : WatchMap} {appState : AppState}
    (h : StillWatched watchObjMap appState) :
    hashes (survivors watchObjMap appState) = hashes appState.currentLeakList := by
  obtain ⟨⟨later, hlater⟩, hnew⟩ := h
  rw [← hlater, List.drop_left] at hnew
  rw [hashes_survivors, ← hlater, List.filter_append]
  have hcaptured : (hashes appState.currentLeakList).filter
      (fun k => decide (k ∈ hashes appState.currentLeakList))
        = hashes appState.currentLeakList :=
    List.filter_eq_self.mpr (fun k hk => decide_eq_true hk)
  have hrest : later.filter (fun k => decide (k ∈ hashes appState.currentLeakList)) = [] :=
    List.filter_eq_nil_iff.mpr (fun k hk => by simpa using hnew k hk)
  rw [hcaptured, hrest, List.append_nil]

/-- In a steady round, a dump of the list dumped last would have passed for nothing new. -/
theorem not_repeated_of_steady {tr : List Event} {watchObjMap : WatchMap}
    {appState : AppState} (hne : hashEqual appState = false)
    (h : Steady tr watchObjMap appState) :
    lastOf isDump tr ≠ some (.dumpInner (hashes (survivors watchObjMap appState))) := by
  obtain ⟨hwatched, hnull, hrecorded⟩ := h
  rw [hashes_survivors_of_stillWatched hwatched]
  intro hlast
  rcases hrecorded with hnone | hrecorded
  · exact absurd (hlast.symm.trans hnone) (Option.some_ne_none _)
  · have hsame : hashes appState.currentLeakList = hashes appState.duplicateLeakList :=
      Event.dumpInner.inj (Option.some.inj (hlast.symm.trans hrecorded))
    have heq : hashEqual appState = true := (hashEqual_iff appState).mpr ⟨hsame, hnull⟩
    exact absurd (hne.symm.trans heq) Bool.false_ne_true

/-- Events that are no dump keep the dumps apart. -/
theorem differs_append_free {tr es : List Event} (htr : AtEach DiffersFromLast tr)
    (h : ∀ e ∈ es, isDump e = false) : AtEach DiffersFromLast (tr ++ es) := by
  refine (atEach_append_free tr ?_).mpr htr
  intro e he pre hdump
  exact absurd ((h e he).symm.trans hdump) Bool.false_ne_true

/-- **The step lemma**: a step that meets the condition keeps the dumps apart. -/
theorem differs_step {s s' : Round} {tr es : List Event} {a : Input}
    (htr : AtEach DiffersFromLast tr) (hG : DumpsSteady (s, tr) a)
    (hs : step s a = some (s', es)) : AtEach DiffersFromLast (tr ++ es) := by
  have heffect := step_effect hs
  cases heffect with
  | @dumped watchObjMap _ flag differ gate app =>
      -- this tick dumps: its list is compared with the list dumped last
      rw [List.append_cons, atEach_snoc, atEach_snoc]
      refine ⟨⟨htr, fun h => absurd h Bool.false_ne_true⟩, ?_⟩
      intro _
      have hlast : lastOf isDump (tr ++ [.computed (hashes (survivors watchObjMap s.appState))])
          = lastOf isDump tr := lastOf_snoc isDump tr _
      rw [hlast]
      exact not_repeated_of_steady differ (hG flag differ gate)
  | _ => exact differs_append_free htr (by simp [isDump])

/-- **No repeated dump**, in every run whose dump ticks find a steady round when they pass the
    comparison and the gates. -/
theorem dumps_differ {p : Round × List Event} {tr : List Event}
    (hr : Run rounds.logged DumpsSteady p tr) : AtEach DiffersFromLast tr := by
  induction hr with
  | start => exact atEach_nil _
  | @next p p' tr es a hr hG hs ih =>
      obtain ⟨hstep, -⟩ := Machine.logged_step hs
      have hlog : p = (p.1, tr) := Prod.ext rfl hr.log_eq
      rw [hlog] at hG
      exact differs_step ih hG hstep

/-- A map with one page for each of the hashes. -/
def pages (hs : List Int) : WatchMap :=
  hs.foldl (fun m h => m.set (some h) { hash := some h, name := "Page", msg := "" })
    OrderedMap.empty

/-- One round, in the background: what is watched at its GC tick and at its dump tick. -/
def backgroundRound (captured left : List Int) : List Input :=
  [.gcTick (pages captured) true, .settle (.resolve (some [background])),
    .dumpTick (pages left)]

/-- The second round captures one more page, and a third one comes before its dump tick. -/
theorem dumps_differ_growing :
    ∃ p tr, Run rounds.logged DumpsSteady p tr
      ∧ lastOf isDump tr = some (.dumpInner [some 1, some 2])
      ∧ AtEach DiffersFromLast tr := by
  obtain ⟨p, hp⟩ : ∃ p, exec rounds.logged DumpsSteady
      (.configure {} (some "app")
        :: (backgroundRound [1] [1] ++ backgroundRound [1, 2] [1, 2, 3])) = some p := ⟨_, rfl⟩
  have hlast : lastOf isDump p.2 = some (.dumpInner [some 1, some 2]) := by
    obtain rfl := Option.some.inj hp
    rfl
  have hr := run_of_exec hp
  exact ⟨p.1, p.2, hr, hlast, dumps_differ hr⟩

/-- Each round captures the leaked page and one that is collected before the dump tick,
    another one each time; both rounds dump the leaked page alone. -/
theorem dumps_repeated :
    ¬ ∀ (s : Round) (tr : List Event), Run rounds anyStep s tr →
      AtEach DiffersFromLast tr := by
  intro h
  obtain ⟨s, hs⟩ : ∃ s, exec rounds anyStep
      (.configure {} (some "app") :: (backgroundRound [1, 2] [1] ++ backgroundRound [1, 3] [1]))
        = some (s, [.captured [some 1, some 2], .settled true, .forceFullGC,
            .computed [some 1], .dumpInner [some 1],
            .captured [some 1, some 3], .settled true, .forceFullGC,
            .computed [some 1]] ++ [.dumpInner [some 1]]) := ⟨_, rfl⟩
  have hlast := (atEach_snoc.mp (h s _ (run_of_exec hs))).2
  exact hlast rfl rfl

end RepeatedDump
