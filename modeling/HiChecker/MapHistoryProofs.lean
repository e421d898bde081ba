import HiChecker.LastWriteProofs
import HiChecker.OrderedMapProofs
import HiChecker.TraceProofs
import Mathlib.Data.List.DropRight
import Mathlib.Data.List.Perm.Subperm

/-!
# An ordered map against its history

A map that is only ever put to, dropped from and cleared holds, after any history in
which no dropped key is put again, what a reader would expect of the history: the keys
put since the last clear, in the order in which each was first put, without the dropped
ones (`keys_replay`), each with the value it was last put with (`values_replay`). What can
be read was put (`get_foldl`); where each value is put under the key that a function reads
off it, `KeyedBy` says so of the map. Keys taken from the map at different times stand in one
order as long as nothing is cleared in between (`putOrder_prefix`), so that two lists of them
are equal when they have the same members (`eq_of_same_members`).
-/

namespace MapHistory

open OrderedMapLib Trace LastWrite

variable {κ ν : Type} [DecidableEq κ]

/-- What is done to a map. -/
inductive Op (κ ν : Type) where
  | put (k : κ) (v : ν)
  | drop (k : κ)
  | clear
deriving DecidableEq

namespace Op

/-- What an operation does to the map. -/
def run : Op κ ν → OrderedMap κ ν → OrderedMap κ ν
  | put k v, m => m.set k v
  | drop k, m => m.delete k
  | clear, _ => OrderedMap.empty

/-- It clears the map. -/
def isClear : Op κ ν → Bool
  | clear => true
  | _ => false

/-- The key that is put. -/
def putKey : Op κ ν → Option κ
  | put k _ => some k
  | _ => none

/-- The value that is put. -/
def putValue : Op κ ν → Option ν
  | put _ v => some v
  | _ => none

/-- It drops this key. -/
def drops (k : κ) : Op κ ν → Bool
  | drop j => j = k
  | _ => false

end Op

/-- The map after a history. -/
def replay (h : List (Op κ ν)) : OrderedMap κ ν := h.foldl (fun m op => op.run m) OrderedMap.empty

/-- The keys put since the last clear, in order, each as often as it was put. -/
def keysPut (h : List (Op κ ν)) : List κ :=
  (h.rtakeWhile (fun op => !op.isClear)).filterMap Op.putKey

/-- The key was dropped. -/
def dropped (k : κ) (h : List (Op κ ν)) : Bool := h.any (Op.drops k)

/-- The value that `k` was last put with. -/
def lastPut (k : κ) (h : List (Op κ ν)) : Option ν :=
  (lastOf (fun op => decide (op.putKey = some k)) h).bind Op.putValue

/-- The keys put since the last clear and never dropped, in the order in which each was
    first put since then. -/
def liveKeys (h : List (Op κ ν)) : List κ :=
  (keysPut h).eraseDups.filter (fun k => !dropped k h)

/-- The values these keys were last put with. -/
def liveValues (h : List (Op κ ν)) : List ν := (liveKeys h).filterMap (fun k => lastPut k h)

/-- No key is put again once it was dropped. -/
def NoReturn (pre : List (Op κ ν)) (op : Op κ ν) : Prop :=
  ∀ k, op.putKey = some k → dropped k pre = false

theorem replay_snoc (h : List (Op κ ν)) (op : Op κ ν) :
    replay (h ++ [op]) = op.run (replay h) := by
  show (h ++ [op]).foldl _ OrderedMap.empty = _
  rw [List.foldl_append]
  rfl

theorem dropped_snoc (k : κ) (h : List (Op κ ν)) (op : Op κ ν) :
    dropped k (h ++ [op]) = (dropped k h || op.drops k) := by
  show (h ++ [op]).any (Op.drops k) = _
  rw [List.any_append, List.any_cons, List.any_nil, Bool.or_false]
  rfl

-- What one more operation does to the keys put.

omit [DecidableEq κ] in
theorem keysPut_put (h : List (Op κ ν)) (k : κ) (v : ν) :
    keysPut (h ++ [.put k v]) = keysPut h ++ [k] := by
  show ((h ++ [Op.put k v]).rtakeWhile _).filterMap Op.putKey = _
  rw [List.rtakeWhile_concat_pos _ _ _ rfl, List.filterMap_append]
  rfl

omit [DecidableEq κ] in
theorem keysPut_drop (h : List (Op κ ν)) (k : κ) : keysPut (h ++ [.drop k]) = keysPut h := by
  show ((h ++ [Op.drop k]).rtakeWhile _).filterMap Op.putKey = _
  rw [List.rtakeWhile_concat_pos _ _ _ rfl, List.filterMap_append]
  exact List.append_nil _

omit [DecidableEq κ] in
theorem keysPut_clear (h : List (Op κ ν)) : keysPut (h ++ [.clear]) = [] := by
  show ((h ++ [Op.clear]).rtakeWhile _).filterMap Op.putKey = _
  rw [List.rtakeWhile_concat_neg _ _ _ Bool.false_ne_true]
  rfl

/-- A new key comes last, a known one stays where it is. -/
theorem eraseDups_snoc (l : List κ) (k : κ) :
    (l ++ [k]).eraseDups = if k ∈ l then l.eraseDups else l.eraseDups ++ [k] := by
  rw [List.eraseDups_append]
  by_cases hk : k ∈ l
  · have hnone : [k].removeAll l = [] := by
      refine List.filter_eq_nil_iff.mpr ?_
      intro j hj
      rw [List.mem_singleton.mp hj, List.elem_eq_mem, decide_eq_true hk]
      exact Bool.false_ne_true
    rw [if_pos hk, hnone, List.eraseDups_nil, List.append_nil]
  · have hall : [k].removeAll l = [k] := by
      refine List.filter_eq_self.mpr ?_
      intro j hj
      rw [List.mem_singleton.mp hj, List.elem_eq_mem, decide_eq_false hk]
      rfl
    rw [if_neg hk, hall]
    rfl

/-- The keys after a `delete`. -/
theorem keys_delete (m : OrderedMap κ ν) (k : κ) :
    (m.delete k).keys = m.keys.filter (fun j => j ≠ k) := by
  show (m.entries.filter (fun e => e.1 ≠ k)).map Prod.fst = _
  exact (List.filter_map.symm : _ = (m.entries.map Prod.fst).filter (fun j => j ≠ k))

/-- Deleting a key that is not there changes nothing. -/
theorem delete_of_not_has {m : OrderedMap κ ν} {k : κ} (h : m.has k = false) :
    m.delete k = m := by
  have hentries : m.entries.filter (fun e => e.1 ≠ k) = m.entries := by
    refine List.filter_eq_self.mpr ?_
    intro e he
    refine decide_eq_true ?_
    intro hek
    exact of_decide_eq_false h (hek ▸ List.mem_map_of_mem he)
  cases m with
  | mk entries nodup => exact OrderedMap.mk.injEq .. |>.mpr hentries

/-- A key is live when it was put and not dropped. -/
theorem mem_liveKeys (h : List (Op κ ν)) (k : κ) :
    k ∈ liveKeys h ↔ k ∈ keysPut h ∧ dropped k h = false := by
  show k ∈ (keysPut h).eraseDups.filter _ ↔ _
  rw [List.mem_filter, List.mem_eraseDups, Bool.not_eq_true']

/-- **The keys**: put since the last clear, in the order of the first put, and never
    dropped. -/
theorem keys_replay {h : List (Op κ ν)} (hno : AtEach NoReturn h) :
    (replay h).keys = liveKeys h := by
  show (replay h).keys = (keysPut h).eraseDups.filter (fun k => !dropped k h)
  induction h using List.reverseRecOn with
  | nil => rfl
  | append_singleton h op ih =>
      obtain ⟨hpre, hop⟩ := atEach_snoc.mp hno
      have hkeys : (replay h).keys = (keysPut h).eraseDups.filter (fun k => !dropped k h) :=
        ih hpre
      rw [replay_snoc]
      cases op with
      | put k v =>
          have hfresh : dropped k h = false := hop k rfl
          have hdropped : (fun j => !dropped j (h ++ [Op.put k v])) = fun j => !dropped j h := by
            funext j
            rw [dropped_snoc]
            exact congrArg (!·) (Bool.or_false _)
          have hmem : k ∈ (replay h).keys ↔ k ∈ keysPut h := by
            rw [hkeys]
            exact (mem_liveKeys h k).trans (and_iff_left hfresh)
          show ((replay h).set k v).keys = _
          refine (OrderedMap.map_fst_setEntries k v (replay h).entries).trans ?_
          show (if k ∈ (replay h).keys then (replay h).keys else (replay h).keys ++ [k]) = _
          rw [keysPut_put, eraseDups_snoc, hdropped]
          by_cases hk : k ∈ keysPut h
          · rw [if_pos hk, if_pos (hmem.mpr hk), hkeys]
          · rw [if_neg hk, if_neg (fun h' => hk (hmem.mp h')), List.filter_append, hkeys]
            have hlast : [k].filter (fun j => !dropped j h) = [k] := by
              refine List.filter_cons_of_pos ?_
              rw [hfresh]
              rfl
            rw [hlast]
      | drop k =>
          show ((replay h).delete k).keys = _
          rw [keys_delete, hkeys, keysPut_drop, List.filter_filter]
          refine congrArg (fun p => (keysPut h).eraseDups.filter p) ?_
          funext j
          have hne : decide (j ≠ k) = !decide (k = j) := by
            rw [← decide_not]
            exact decide_eq_decide.mpr ne_comm
          rw [dropped_snoc, Bool.not_or, Bool.and_comm, hne]
          rfl
      | clear =>
          rw [keysPut_clear]
          rfl

/-- What can be read after an operation was put by it or there before. -/
theorem get_run {m : OrderedMap κ ν} {op : Op κ ν} {k : κ} {v : ν}
    (hv : (op.run m).get k = some v) : op = .put k v ∨ m.get k = some v := by
  cases op with
  | put j u =>
      have hset : (if j = k then some u else m.get k) = some v :=
        (OrderedMap.get_set m j k u).symm.trans hv
      by_cases hjk : j = k
      · rw [if_pos hjk] at hset
        rw [hjk, Option.some.inj hset]
        exact Or.inl rfl
      · rw [if_neg hjk] at hset
        exact Or.inr hset
  | drop j =>
      have hdel : (if j = k then none else m.get k) = some v :=
        (OrderedMap.get_delete m j k).symm.trans hv
      by_cases hjk : j = k
      · rw [if_pos hjk] at hdel
        exact absurd hdel.symm (Option.some_ne_none v)
      · rw [if_neg hjk] at hdel
        exact Or.inr hdel
  | clear => exact absurd hv.symm (Option.some_ne_none v)

/-- So it is after any number of them. -/
theorem get_foldl {ops : List (Op κ ν)} {m : OrderedMap κ ν} {k : κ} {v : ν}
    (hv : (ops.foldl (fun m op => op.run m) m).get k = some v) :
    .put k v ∈ ops ∨ m.get k = some v := by
  induction ops generalizing m with
  | nil => exact Or.inr hv
  | cons op ops ih =>
      rcases ih hv with hput | hrun
      · exact Or.inl (List.mem_cons_of_mem op hput)
      · rcases get_run hrun with rfl | hbefore
        · exact Or.inl List.mem_cons_self
        · exact Or.inr hbefore

/-- A key stays under an operation that neither drops it nor clears the map. -/
theorem has_run {m : OrderedMap κ ν} {op : Op κ ν} {k : κ} (hclear : op.isClear = false)
    (hdrop : op.drops k = false) (hk : m.has k = true) : (op.run m).has k = true := by
  obtain ⟨v, hv⟩ := (OrderedMap.has_iff m k).mp hk
  rw [OrderedMap.has_iff]
  cases op with
  | put j u =>
      rw [Op.run, OrderedMap.get_set]
      by_cases hjk : j = k
      · rw [if_pos hjk]
        exact ⟨u, rfl⟩
      · rw [if_neg hjk]
        exact ⟨v, hv⟩
  | drop j =>
      rw [Op.run, OrderedMap.get_delete, if_neg (of_decide_eq_false hdrop)]
      exact ⟨v, hv⟩
  | clear => exact absurd hclear.symm Bool.false_ne_true

/-- So it does under any number of them. -/
theorem has_foldl {ops : List (Op κ ν)} {m : OrderedMap κ ν} {k : κ}
    (hops : ∀ op ∈ ops, op.isClear = false ∧ op.drops k = false) (hk : m.has k = true) :
    (ops.foldl (fun m op => op.run m) m).has k = true := by
  induction ops generalizing m with
  | nil => exact hk
  | cons op ops ih =>
      obtain ⟨hclear, hdrop⟩ := hops op List.mem_cons_self
      exact ih (fun op' hop' => hops op' (List.mem_cons_of_mem op hop'))
        (has_run hclear hdrop hk)

/-- **The values**: a key that is there has the value it was last put with. -/
theorem get_replay {h : List (Op κ ν)} {k : κ} {v : ν} (hv : (replay h).get k = some v) :
    lastPut k h = some v := by
  induction h using List.reverseRecOn with
  | nil => exact absurd hv.symm (Option.some_ne_none v)
  | append_singleton h op ih =>
      rw [replay_snoc] at hv
      show (lastOf _ (h ++ [op])).bind Op.putValue = _
      rw [lastOf_snoc]
      cases op with
      | put j u =>
          have hset : (if j = k then some u else (replay h).get k) = some v :=
            (OrderedMap.get_set (replay h) j k u).symm.trans hv
          by_cases hjk : j = k
          · rw [if_pos hjk] at hset
            refine (congrArg (Option.bind · Op.putValue) (if_pos ?_)).trans hset
            exact decide_eq_true (congrArg some hjk)
          · rw [if_neg hjk] at hset
            refine (congrArg (Option.bind · Op.putValue) (if_neg ?_)).trans (ih hset)
            exact fun h' => hjk (Option.some.inj (of_decide_eq_true h'))
      | drop j =>
          have hget : (if j = k then none else (replay h).get k) = some v :=
            (OrderedMap.get_delete (replay h) j k).symm.trans hv
          by_cases hjk : j = k
          · rw [if_pos hjk] at hget
            exact absurd hget.symm (Option.some_ne_none v)
          · rw [if_neg hjk] at hget
            exact ih hget
      | clear => exact absurd hv.symm (Option.some_ne_none v)

/-- The values of a map, key by key. -/
theorem values_eq (m : OrderedMap κ ν) : m.values = m.keys.filterMap m.get := by
  have hget : ∀ e ∈ m.entries, m.get e.1 = some e.2 := by
    intro e he
    cases hfind : m.entries.find? (fun x => x.1 = e.1) with
    | none => exact absurd (decide_eq_true rfl) (List.find?_eq_none.mp hfind e he)
    | some x =>
        have hkey := List.find?_some hfind
        have hxe : x = e := List.inj_on_of_nodup_map m.nodup
          (List.mem_of_find?_eq_some hfind) he (of_decide_eq_true hkey)
        show (m.entries.find? (fun x => x.1 = e.1)).map Prod.snd = _
        rw [hfind, hxe]
        rfl
  show m.entries.map Prod.snd = (m.entries.map Prod.fst).filterMap m.get
  rw [List.filterMap_map, ← List.filterMap_eq_map]
  refine List.filterMap_congr ?_
  intro e he
  exact (hget e he).symm

/-- Each value is under the key that `f` reads off it. -/
def KeyedBy (f : ν → κ) (m : OrderedMap κ ν) : Prop := ∀ k v, m.get k = some v → f v = k

/-- The empty map is keyed by anything. -/
theorem keyedBy_empty (f : ν → κ) : KeyedBy f (OrderedMap.empty : OrderedMap κ ν) :=
  fun _ v hget => absurd hget.symm (Option.some_ne_none v)

/-- Operations that put values under their keys keep that. -/
theorem KeyedBy.foldl {f : ν → κ} {m : OrderedMap κ ν} (hm : KeyedBy f m)
    {ops : List (Op κ ν)} (hops : ∀ op ∈ ops, ∀ k v, op = .put k v → f v = k) :
    KeyedBy f (ops.foldl (fun m op => op.run m) m) := by
  intro k v hget
  rcases get_foldl hget with hput | hbefore
  · exact hops (.put k v) hput k v rfl
  · exact hm k v hbefore

/-- The keys are read off the values. -/
theorem KeyedBy.map_values {f : ν → κ} {m : OrderedMap κ ν} (hm : KeyedBy f m) :
    m.values.map f = m.keys := by
  rw [values_eq, List.map_filterMap]
  have hsome : ∀ k ∈ m.keys, (m.get k).map f = some k := by
    intro k hk
    obtain ⟨v, hv⟩ := (OrderedMap.has_iff m k).mp (decide_eq_true hk)
    rw [hv, Option.map_some, hm k v hv]
  rw [List.filterMap_congr hsome]
  exact List.filterMap_some

theorem KeyedBy.mem_map_values {f : ν → κ} {m : OrderedMap κ ν} (hm : KeyedBy f m) (k : κ) :
    k ∈ m.values.map f ↔ m.has k = true := by
  rw [hm.map_values, OrderedMap.mem_keys_iff]

/-- **The values**, in the order of their keys. -/
theorem values_replay {h : List (Op κ ν)} (hno : AtEach NoReturn h) :
    (replay h).values = liveValues h := by
  rw [values_eq, keys_replay hno]
  refine List.filterMap_congr ?_
  intro k hk
  rw [← keys_replay hno] at hk
  obtain ⟨v, hv⟩ := (OrderedMap.has_iff (replay h) k).mp (decide_eq_true hk)
  rw [hv, get_replay hv]

/-- Which keys are there. -/
theorem has_replay {h : List (Op κ ν)} (hno : AtEach NoReturn h) (k : κ) :
    (replay h).has k = true ↔ k ∈ keysPut h ∧ dropped k h = false := by
  show decide (k ∈ (replay h).keys) = true ↔ _
  rw [decide_eq_true_iff, keys_replay hno, mem_liveKeys]

-- ── Keys taken at different times ─────────────────────────────────────────────────

/-- The keys put since the last clear, in the order of the first put, dropped or not. -/
def putOrder (h : List (Op κ ν)) : List κ := (keysPut h).eraseDups

/-- Each key stands once in the order of the puts. -/
theorem nodup_putOrder (h : List (Op κ ν)) : (putOrder h).Nodup := by
  rw [putOrder]
  induction keysPut h using List.reverseRecOn with
  | nil => exact List.nodup_nil
  | append_singleton l k ih =>
      rw [eraseDups_snoc]
      by_cases hk : k ∈ l
      · rw [if_pos hk]
        exact ih
      · rw [if_neg hk]
        refine List.nodup_append.mpr ⟨ih, List.nodup_singleton k, ?_⟩
        rintro j hj _ hmem rfl
        obtain rfl := List.mem_singleton.mp hmem
        exact hk (List.mem_eraseDups.mp hj)

/-- The live keys stand in the order of the puts. -/
theorem liveKeys_sublist (h : List (Op κ ν)) : (liveKeys h).Sublist (putOrder h) :=
  List.filter_sublist

/-- **The order only grows** as long as nothing is cleared. -/
theorem putOrder_prefix (h : List (Op κ ν)) {ops : List (Op κ ν)}
    (hno : ∀ op ∈ ops, op.isClear = false) : putOrder h <+: putOrder (h ++ ops) := by
  induction ops using List.reverseRecOn with
  | nil => exact ⟨[], by rw [List.append_nil, List.append_nil]⟩
  | append_singleton ops op ih =>
      have hpre := ih (fun op hop => hno op (List.mem_append_left _ hop))
      rw [← List.append_assoc]
      cases op with
      | put k v =>
          rw [putOrder, putOrder, keysPut_put, eraseDups_snoc]
          by_cases hk : k ∈ keysPut (h ++ ops)
          · rw [if_pos hk]
            exact hpre
          · rw [if_neg hk]
            exact hpre.trans (List.prefix_append _ _)
      | drop k =>
          rw [putOrder, putOrder, keysPut_drop]
          exact hpre
      | clear =>
          have hclear : (Op.clear : Op κ ν).isClear = false :=
            hno _ (List.mem_append_right _ List.mem_cons_self)
          exact absurd hclear.symm Bool.false_ne_true

omit [DecidableEq κ] in
/-- Lists taken in one order are equal when they have the same members. -/
theorem eq_of_same_members {l a b : List κ} (hl : l.Nodup) (ha : a.Sublist l)
    (hb : b.Sublist l) (hsame : ∀ k, k ∈ a ↔ k ∈ b) : a = b :=
  (hl.perm_iff_eq_of_sublist ha hb).mp
    ((List.perm_ext_iff_of_nodup (ha.nodup hl) (hb.nodup hl)).mpr hsame)

end MapHistory
