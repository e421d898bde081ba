import HiChecker.TimerQueueProofs

/-!
# What was sent to a queue, and what became of it

A ledger of a queue of delayed events: everything that was ever sent to it is either still in
it or was delivered, once, at a time that the delivery wrote down.

* **`Ledger`** — the books balance, deliveries came when they were due and in that order.
* **`Ledger.send`**, **`Ledger.deliver`**, **`Ledger.advance`** — what keeps them balanced.
* **`deliver_of_first`** — the event that is due first can be delivered.
-/

namespace TimerQueue

variable {ε : Type}

/-- An event taken out of the queue. -/
structure Delivery (ε : Type) where
  timer : Timer ε
  time : Nat
deriving DecidableEq

/-- What is delivered is due no later than what stays. -/
theorem deliver_first {now : Nat} {queue queue' : List (Timer ε)} {i : Nat} {t : Timer ε}
    (h : deliver now queue i = some (t, queue')) : ∀ u ∈ queue, t.due ≤ u.due := by
  simp only [deliver] at h
  split at h
  · exact absurd h.symm (Option.some_ne_none _)
  · rename_i u hu
    obtain ⟨⟨-, hfirst⟩, heq⟩ := Option.ite_none_right_eq_some.mp h
    obtain ⟨rfl, -⟩ := Prod.mk.inj (Option.some.inj heq)
    exact hfirst

/-- The event that is due first can be delivered once it is due. -/
theorem deliver_of_first {now : Nat} {queue : List (Timer ε)} {t : Timer ε} (ht : t ∈ queue)
    (hdue : t.due ≤ now) (hfirst : ∀ u ∈ queue, t.due ≤ u.due) :
    ∃ i queue', deliver now queue i = some (t, queue') := by
  obtain ⟨i, hi⟩ := List.mem_iff_getElem?.mp ht
  refine ⟨i, queue.eraseIdx i, ?_⟩
  simp only [deliver, hi]
  exact if_pos ⟨hdue, hfirst⟩

/-- A queue that is not empty has an event that is due first. -/
theorem exists_first {queue : List (Timer ε)} (h : queue ≠ []) :
    ∃ t ∈ queue, ∀ u ∈ queue, t.due ≤ u.due := by
  induction queue with
  | nil => exact absurd rfl h
  | cons t queue ih =>
      by_cases hnil : queue = []
      · refine ⟨t, List.mem_cons_self, fun u hu => ?_⟩
        rw [hnil] at hu
        obtain rfl := List.mem_singleton.mp hu
        exact Nat.le_refl _
      · obtain ⟨first, hmem, hfirst⟩ := ih hnil
        by_cases hle : t.due ≤ first.due
        · refine ⟨t, List.mem_cons_self, fun u hu => ?_⟩
          rcases List.mem_cons.mp hu with rfl | hu
          · exact Nat.le_refl _
          · exact Nat.le_trans hle (hfirst u hu)
        · refine ⟨first, List.mem_cons_of_mem t hmem, fun u hu => ?_⟩
          rcases List.mem_cons.mp hu with rfl | hu
          · exact Nat.le_of_not_le hle
          · exact hfirst u hu

-- ── The ledger ────────────────────────────────────────────────────────────────────

/-- The books of a queue: what was sent to it, and its past deliveries in their order. -/
structure Ledger (now : Nat) (queue sent : List (Timer ε)) (past : List (Delivery ε)) :
    Prop where
  balanced : List.Perm (queue ++ past.map Delivery.timer) sent
  due : ∀ d ∈ past, d.timer.due ≤ d.time
  in_order : (past.map (fun d => d.timer.due)).Pairwise (· ≤ ·)
  past_le : ∀ d ∈ past, d.time ≤ now
  past_first : ∀ d ∈ past, ∀ t ∈ queue, d.timer.due ≤ t.due

namespace Ledger

variable {now : Nat} {queue queue' sent : List (Timer ε)} {past : List (Delivery ε)}

theorem empty (now : Nat) : Ledger now ([] : List (Timer ε)) [] [] where
  balanced := List.Perm.refl _
  due := fun _ h => absurd h List.not_mem_nil
  in_order := List.Pairwise.nil
  past_le := fun _ h => absurd h List.not_mem_nil
  past_first := fun _ h => absurd h List.not_mem_nil

theorem advance (h : Ledger now queue sent past) {now' : Nat} (hle : now ≤ now') :
    Ledger now' queue sent past :=
  { h with past_le := fun d hd => Nat.le_trans (h.past_le d hd) hle }

/-- An event that is sent is not due before the clock, so no delivery should have waited
    for it. -/
theorem send (h : Ledger now queue sent past) (delay : Nat) (event : ε) :
    Ledger now (send now delay event queue) (TimerQueue.send now delay event sent) past where
  balanced := by
    show List.Perm (queue ++ [_] ++ _) (sent ++ [_])
    rw [List.append_assoc]
    refine (List.perm_append_comm.append_left queue).trans ?_
    rw [← List.append_assoc]
    exact h.balanced.append_right _
  due := h.due
  in_order := h.in_order
  past_le := h.past_le
  past_first := by
    intro d hd t ht
    rcases List.mem_append.mp ht with ht | ht
    · exact h.past_first d hd t ht
    · obtain rfl := List.mem_singleton.mp ht
      exact Nat.le_trans (h.due d hd) (Nat.le_trans (h.past_le d hd) (Nat.le_add_right now delay))

/-- **A delivery** moves one event from the queue to the past. -/
theorem deliver (h : Ledger now queue sent past) {i : Nat} {t : Timer ε}
    (hd : TimerQueue.deliver now queue i = some (t, queue')) :
    Ledger now queue' sent (past ++ [⟨t, now⟩]) := by
  obtain ⟨hperm, hdue⟩ := deliver_spec hd
  have hfirst := deliver_first hd
  have hmem : t ∈ queue := hperm.mem_iff.mp List.mem_cons_self
  have hstays : ∀ u ∈ queue', u ∈ queue :=
    fun u hu => hperm.mem_iff.mp (List.mem_cons_of_mem t hu)
  refine ⟨?_, ?_, ?_, ?_, ?_⟩
  · rw [List.map_append, ← List.append_assoc]
    refine List.perm_append_comm.trans ?_
    exact (hperm.append_right (past.map Delivery.timer)).trans h.balanced
  · intro d hmem
    rcases List.mem_append.mp hmem with hmem | hmem
    · exact h.due d hmem
    · rw [List.mem_singleton.mp hmem]
      exact hdue
  · rw [List.map_append]
    refine List.pairwise_append.mpr ⟨h.in_order, List.pairwise_singleton _ _, ?_⟩
    intro x hx y hy
    obtain ⟨d, hpast, rfl⟩ := List.mem_map.mp hx
    rw [List.mem_singleton.mp hy]
    exact h.past_first d hpast t hmem
  · intro d hmem
    rcases List.mem_append.mp hmem with hmem | hmem
    · exact h.past_le d hmem
    · obtain rfl := List.mem_singleton.mp hmem
      exact Nat.le_refl now
  · intro d hpast u hu
    rcases List.mem_append.mp hpast with hpast | hpast
    · exact h.past_first d hpast u (hstays u hu)
    · rw [List.mem_singleton.mp hpast]
      exact hfirst u (hstays u hu)

end Ledger

end TimerQueue
