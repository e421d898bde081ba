import HiChecker.LeakAgreementProofs
import HiChecker.RepeatedDumpProofs

/-!
# Comparing leak lists position by position

`startDumptask` compares `currentLeakList`, taken at the GC tick, with `duplicateLeakList`,
taken at an earlier dump tick, position by position. Both were read off `watchObjMap` at
different times, and the second was filtered. That this decides whether the two hold the
same objects rests on the order in which a map lists its keys: registering an object again
and finalizing one leave it alone.

* **`Traced`** — the watcher with the history of its map, and the map as it was at the
  last ticks, which are read off the inputs and the states before them.
* **`Recalled`** — the lists are those of the maps at these ticks.
* **`comparison_is_set_equality`** — as long as the map has not been cleared since, the
  comparison says whether the two lists hold the same hashes; and the intersection lists,
  each once and in the order of registration, the hashes that were in both maps.
-/

namespace SetEquality

open Transition Trace JsValue OrderedMapLib MapHistory WatcherConfig DumpFile TimerQueue Watcher
open WatchMap LeakAgreement LeakLists
open LeakRound (Hash ObjMsg WatchMap AppState hashes survivors startDumptask hashEqual)

variable {Dir : Type} [DecidableEq Dir] (plat : Platform Dir)

-- ── The ticks of a run ────────────────────────────────────────────────────────────

/-- The map at a tick, and what had been done to it until then. -/
structure Moment where
  watchObjMap : WatchMap
  history : List (Op Hash ObjMsg)

/-- The watcher, with what was done to `watchObjMap` since the module was loaded, and the
    last ticks of its rounds. -/
structure Traced (Dir : Type) where
  world : World Dir
  history : List (Op Hash ObjMsg) := []
  /-- the last GC tick -/
  gcTick : Option Moment := none
  /-- the last dump tick that found `isGC` and a capture that was not recorded before -/
  dumpTick : Option Moment := none
  /-- the last GC tick before that dump tick -/
  comparedTick : Option Moment := none

/-- A step of the watcher, written down. -/
def next (s : Traced Dir) (a : Input Dir) : Option (Traced Dir × List Event) :=
  match step plat s.world a with
  | none => none
  | some (w', es) =>
      let moment : Moment := ⟨s.world.watchObjMap, s.history⟩
      some ({ world := w'
              history := s.history ++ mapOps plat s.world a
              gcTick := if gcTicks s.world a then some moment else s.gcTick
              dumpTick := if dumpTicks s.world a then some moment else s.dumpTick
              comparedTick := if dumpTicks s.world a then s.gcTick else s.comparedTick }, es)

/-- The watcher with its ticks recorded. -/
def traced (load : DumpState Dir) : Machine (Traced Dir) (Input Dir) Event :=
  ⟨{ world := { dump := load } }, next plat⟩

/-- Recording stops no step. -/
theorem next_of_step {s : Traced Dir} {a : Input Dir} {w' : World Dir} {es : List Event}
    (hs : step plat s.world a = some (w', es)) :
    ∃ s', next plat s a = some (s', es) ∧ s'.world = w' := by
  simp only [next, hs]
  exact ⟨_, rfl, rfl⟩

/-- **Writing down restricts nothing**: every run of the watcher is written down. -/
theorem traced_of_run {load : DumpState Dir} {w : World Dir} {tr : List Event}
    (hr : Run (watcher plat load) anyStep w tr) :
    ∃ s, Run (traced plat load) anyStep s tr ∧ s.world = w := by
  induction hr with
  | start => exact ⟨_, Run.start, rfl⟩
  | next _ _ hs ih =>
      obtain ⟨s, hrun, rfl⟩ := ih
      obtain ⟨s', hnext, hworld⟩ := next_of_step plat hs
      exact ⟨s', Run.next hrun trivial hnext, hworld⟩

variable {plat}

/-- What is written down is a step of the watcher. -/
theorem step_of_next {s s' : Traced Dir} {a : Input Dir} {es : List Event}
    (hs : next plat s a = some (s', es)) :
    ∃ w', step plat s.world a = some (w', es)
      ∧ s' = { world := w'
               history := s.history ++ mapOps plat s.world a
               gcTick := if gcTicks s.world a then some ⟨s.world.watchObjMap, s.history⟩
                 else s.gcTick
               dumpTick := if dumpTicks s.world a then some ⟨s.world.watchObjMap, s.history⟩
                 else s.dumpTick
               comparedTick := if dumpTicks s.world a then s.gcTick else s.comparedTick } := by
  cases hstep : step plat s.world a with
  | none =>
      simp only [next, hstep] at hs
      exact absurd hs.symm (Option.some_ne_none _)
  | some p =>
      simp only [next, hstep] at hs
      obtain ⟨rfl, rfl⟩ := Prod.mk.inj (Option.some.inj hs)
      exact ⟨p.1, rfl, rfl⟩

-- ── The lists are those of the ticks ──────────────────────────────────────────────

/-- The hashes in the map at a tick. -/
def hashesAt (tick : Option Moment) : List Hash :=
  match tick with
  | none => []
  | some moment => moment.watchObjMap.keys

/-- The hashes found at a tick are distinct. -/
theorem nodup_hashesAt (tick : Option Moment) : (hashesAt tick).Nodup := by
  cases tick with
  | none => exact List.nodup_nil
  | some m => exact m.watchObjMap.nodup

/-- A moment on the way to a history. -/
structure Moment.Before (h : List (Op Hash ObjMsg)) (m : Moment) : Prop where
  map : m.watchObjMap = replay m.history
  earlier : m.history <+: h

/-- What holds of every state: the map is the replay of its history, and the lists hold
    what the maps at the ticks held. -/
structure Recalled (s : Traced Dir) : Prop where
  map : s.world.watchObjMap = replay s.history
  keyed : Keyed s.world.watchObjMap
  current : hashes s.world.appState.currentLeakList = hashesAt s.gcTick
  intersection : hashes s.world.appState.intersection
    = (hashesAt s.dumpTick).filter (fun k => decide (k ∈ hashesAt s.comparedTick))
  duplicate : s.world.appState.duplicateLeakList = s.world.appState.intersection
  gcTick : ∀ m ∈ s.gcTick, m.Before s.history
  dumpTick : ∀ m ∈ s.dumpTick, m.Before s.history

omit [DecidableEq Dir] in
theorem recalled_start (load : DumpState Dir) :
    Recalled { world := { dump := load } : Traced Dir } where
  map := rfl
  keyed := keyedBy_empty ObjMsg.hash
  current := rfl
  intersection := rfl
  duplicate := rfl
  gcTick := fun m hm => absurd hm.symm (Option.some_ne_none m)
  dumpTick := fun m hm => absurd hm.symm (Option.some_ne_none m)

/-- A tick before stays before, and so does the present one. -/
theorem before_next {h ops : List (Op Hash ObjMsg)} {watchObjMap : WatchMap}
    {tick : Option Moment} (hmap : watchObjMap = replay h) (htick : ∀ m ∈ tick, m.Before h)
    (taken : Bool) :
    ∀ m ∈ (if taken then some ⟨watchObjMap, h⟩ else tick), m.Before (h ++ ops) := by
  intro m hm
  cases taken with
  | true =>
      obtain rfl := Option.some.inj hm
      exact ⟨hmap, List.prefix_append h ops⟩
  | false => exact ⟨(htick m hm).map, (htick m hm).earlier.trans (List.prefix_append h ops)⟩

/-- **The invariant step.** -/
theorem recalled_next {s s' : Traced Dir} {a : Input Dir} {es : List Event}
    (h : Recalled s) (hs : next plat s a = some (s', es)) : Recalled s' := by
  obtain ⟨w', hstep, rfl⟩ := step_of_next hs
  have hlists := step_lists plat hstep
  constructor
  · show w'.watchObjMap = replay (s.history ++ mapOps plat s.world a)
    rw [step_map plat hstep, h.map]
    exact List.foldl_append.symm
  · exact keyed_step h.keyed hstep
  · show hashes w'.appState.currentLeakList = hashesAt (if gcTicks s.world a then _ else _)
    rw [hlists.current]
    cases gcTicks s.world a with
    | true => exact h.keyed.map_values
    | false => exact h.current
  · show hashes w'.appState.intersection
      = (hashesAt (if dumpTicks s.world a then _ else _)).filter
          (fun k => decide (k ∈ hashesAt (if dumpTicks s.world a then _ else _)))
    rw [hlists.intersection]
    cases dumpTicks s.world a with
    | true =>
        show hashes (survivors s.world.watchObjMap s.world.appState)
          = s.world.watchObjMap.keys.filter (fun k => decide (k ∈ hashesAt s.gcTick))
        rw [LeakRound.hashes_survivors, h.current]
        exact congrArg (List.filter _) h.keyed.map_values
    | false => exact h.intersection
  · rw [hlists.duplicate, hlists.intersection, h.duplicate]
  · exact before_next h.map h.gcTick _
  · exact before_next h.map h.dumpTick _

/-- The record is true along every run. -/
theorem recalled_of_run {load : DumpState Dir} {s : Traced Dir} {tr : List Event}
    (hr : Run (traced plat load) anyStep s tr) : Recalled s := by
  refine Run.state_invariant (I := Recalled) (recalled_start load) ?_ hr
  intro s a s' es h _ hs
  exact recalled_next h hs

-- ── One order for both lists ──────────────────────────────────────────────────────

/-- Nothing was cleared since a tick. -/
def NotClearedSince (tick : Option Moment) (h : List (Op Hash ObjMsg)) : Prop :=
  ∀ m ∈ tick, ∀ op ∈ h.drop m.history.length, op.isClear = false

/-- What `util.getHash` promises, as it shows in a history: a hash is a number, and the
    hash of an object that died is never that of another one. -/
structure HashesPromised (h : List (Op Hash ObjMsg)) : Prop where
  number : ∀ objMsg, .put none objMsg ∉ h
  fresh : AtEach NoReturn h

omit [DecidableEq Dir] in
/-- The keys at a tick stand in the order of registration at that tick. -/
theorem hashesAt_order {h : List (Op Hash ObjMsg)} (hfresh : AtEach NoReturn h) {m : Moment}
    (hm : m.Before h) : m.watchObjMap.keys.Sublist (putOrder m.history) := by
  obtain ⟨rest, hrest⟩ := hm.earlier
  have hpre : AtEach NoReturn m.history := by
    intro pre op post heq
    exact hfresh pre op (post ++ rest) (by rw [← hrest, heq, List.append_assoc, List.cons_append])
  rw [hm.map, keys_replay hpre]
  exact liveKeys_sublist m.history

/-- As long as nothing is cleared, also in the order of registration later on. -/
theorem hashesAt_sublist {h : List (Op Hash ObjMsg)} (hfresh : AtEach NoReturn h)
    {tick : Option Moment} (htick : ∀ m ∈ tick, m.Before h) (hno : NotClearedSince tick h) :
    (hashesAt tick).Sublist (putOrder h) := by
  cases tick with
  | none => exact List.nil_sublist _
  | some m =>
      have hm := htick m rfl
      obtain ⟨rest, hrest⟩ := hm.earlier
      have hclear := hno m rfl
      rw [← hrest, List.drop_left] at hclear
      have hprefix : putOrder m.history <+: putOrder h := by
        rw [← hrest]
        exact putOrder_prefix m.history hclear
      exact (hashesAt_order hfresh hm).trans hprefix.sublist

/-- The hashes of the history are numbers, so those in the map are. -/
theorem none_not_mem_hashesAt {h : List (Op Hash ObjMsg)} (hpromised : HashesPromised h)
    {tick : Option Moment} (htick : ∀ m ∈ tick, m.Before h) : none ∉ hashesAt tick := by
  cases tick with
  | none => exact List.not_mem_nil
  | some m =>
      have hm := htick m rfl
      intro hmem
      obtain ⟨objMsg, hget⟩ := (OrderedMap.has_iff m.watchObjMap none).mp
        ((OrderedMap.mem_keys_iff m.watchObjMap none).mp hmem)
      rw [hm.map] at hget
      rcases get_foldl hget with hput | hempty
      · exact hpromised.number objMsg (hm.earlier.subset hput)
      · exact absurd hempty.symm (Option.some_ne_none objMsg)

-- ── The comparison ────────────────────────────────────────────────────────────────

/-- **The comparison is set equality.** In every state of every run, in which hashes are
    what `util.getHash` promises: as long as the map has not been cleared since the last GC
    tick and the last dump tick that found something new, comparing the two lists position
    by position says whether they hold the same hashes. And `intersection` lists, each once
    and in the order of registration, the hashes that were in the map both at that dump tick
    and at the last GC tick before it. -/
theorem comparison_is_set_equality {load : DumpState Dir} {s : Traced Dir} {tr : List Event}
    (hr : Run (traced plat load) anyStep s tr) (hpromised : HashesPromised s.history) :
    (NotClearedSince s.gcTick s.history → NotClearedSince s.dumpTick s.history →
      (hashEqual s.world.appState = true
        ↔ ∀ k, k ∈ hashes s.world.appState.currentLeakList
            ↔ k ∈ hashes s.world.appState.duplicateLeakList))
      ∧ (hashes s.world.appState.intersection).Nodup
      ∧ (∀ k, k ∈ hashes s.world.appState.intersection
          ↔ k ∈ hashesAt s.comparedTick ∧ k ∈ hashesAt s.dumpTick)
      ∧ ∀ m ∈ s.dumpTick,
          (hashes s.world.appState.intersection).Sublist (putOrder m.history) := by
  have h := recalled_of_run hr
  have hfilter : (hashes s.world.appState.intersection).Sublist (hashesAt s.dumpTick) := by
    rw [h.intersection]
    exact List.filter_sublist
  refine ⟨?_, ?_, ?_, ?_⟩
  · intro hgc hdump
    have hcurrent : (hashes s.world.appState.currentLeakList).Sublist (putOrder s.history) := by
      rw [h.current]
      exact hashesAt_sublist hpromised.fresh h.gcTick hgc
    have hduplicate : (hashes s.world.appState.duplicateLeakList).Sublist
        (putOrder s.history) := by
      rw [h.duplicate]
      exact hfilter.trans (hashesAt_sublist hpromised.fresh h.dumpTick hdump)
    have hnumber : none ∉ hashes s.world.appState.currentLeakList := by
      rw [h.current]
      exact none_not_mem_hashesAt hpromised h.gcTick
    rw [RepeatedDump.hashEqual_iff, and_iff_left hnumber]
    constructor
    · intro heq k
      rw [heq]
    · exact eq_of_same_members (nodup_putOrder s.history) hcurrent hduplicate
  · exact hfilter.nodup (nodup_hashesAt s.dumpTick)
  · intro k
    rw [h.intersection, List.mem_filter, decide_eq_true_iff]
    exact and_comm
  · intro m hm
    have hat : hashesAt s.dumpTick = m.watchObjMap.keys := by
      rw [Option.mem_def.mp hm]
      rfl
    rw [hat] at hfilter
    exact hfilter.trans (hashesAt_order hpromised.fresh (h.dumpTick m hm))

/-- Two rounds. The first finds two objects, one of them registered twice, and the other is
    finalized before the dump tick; the second has made its capture. -/
def twoRounds : List (Input String) :=
  [.enableLeakWatcher plainSurroundings (.bool true)
      (.object { monitorObjectTypes := some monitorAll } none []) (.obj 1),
    .watch (some (page 7)) (some "first"), .watch (some (page 8)) (some "second"),
    .watch (some (page 7)) (some "again"), .advance 90000, .deliver plainSurroundings 0,
    .settle 0 (.resolve (some [{ processName := "app", state := 2 }])), .finalize 1,
    .advance 5000, .deliver dumpsOff 1, .advance 85000, .deliver plainSurroundings 0]

/-- The object that is left was recorded and is captured again: nothing new. -/
theorem comparison_is_set_equality_twoRounds :
    ∃ (s : Traced String) (tr : List Event),
      Run (traced plainPlatform DumpIdentity.noFiles) anyStep s tr ∧ HashesPromised s.history
      ∧ NotClearedSince s.gcTick s.history ∧ NotClearedSince s.dumpTick s.history
      ∧ hashes s.world.appState.intersection = [some 7]
      ∧ hashEqual s.world.appState = true
      ∧ some 7 ∈ hashesAt s.comparedTick ∧ some 7 ∈ hashesAt s.dumpTick := by
  obtain ⟨p, hp⟩ : ∃ p, exec (traced plainPlatform DumpIdentity.noFiles) anyStep twoRounds
      = some p := ⟨_, rfl⟩
  have hhistory : p.1.history = [] ++ [Op.put (some 7) (objMsgOf (page 7) "first")]
      ++ [Op.put (some 8) (objMsgOf (page 8) "second")]
      ++ [Op.put (some 7) (objMsgOf (page 7) "again")] ++ [Op.drop (some 8)] := by
    obtain rfl := Option.some.inj hp
    rfl
  have hlists : hashes p.1.world.appState.intersection = [some 7]
      ∧ hashes p.1.world.appState.duplicateLeakList = [some 7]
      ∧ hashes p.1.world.appState.currentLeakList = [some 7] := by
    obtain rfl := Option.some.inj hp
    exact ⟨rfl, rfl, rfl⟩
  have hnumber : ∀ objMsg, .put none objMsg ∉ p.1.history := by
    intro objMsg hmem
    rw [hhistory] at hmem
    simp at hmem
  have hfresh : AtEach NoReturn p.1.history := by
    rw [hhistory]
    refine atEach_snoc.mpr ⟨?_, fun k hk => absurd hk.symm (Option.some_ne_none k)⟩
    refine atEach_snoc.mpr ⟨?_, fun _ _ => rfl⟩
    refine atEach_snoc.mpr ⟨?_, fun _ _ => rfl⟩
    exact atEach_snoc.mpr ⟨atEach_nil _, fun _ _ => rfl⟩
  have hno : ∀ tick, NotClearedSince tick p.1.history := by
    have hall : ∀ op ∈ p.1.history, op.isClear = false := by
      rw [hhistory]
      decide
    exact fun _ _ _ op hop => hall op (List.mem_of_mem_drop hop)
  have hr := run_of_exec hp
  have hpromised : HashesPromised p.1.history := ⟨hnumber, hfresh⟩
  obtain ⟨hequal, -, hmem, -⟩ := comparison_is_set_equality hr hpromised
  refine ⟨p.1, p.2, hr, hpromised, hno _, hno _, hlists.1, (hequal (hno _) (hno _)).mpr ?_,
    (hmem (some 7)).mp ?_⟩
  · intro k
    rw [hlists.2.1, hlists.2.2]
  · rw [hlists.1]
    exact List.mem_cons_self

end SetEquality
