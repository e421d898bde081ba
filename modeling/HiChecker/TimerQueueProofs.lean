import Mathlib.Data.List.Perm.Basic

/-!
# A queue of delayed events

Events are sent with a delay and delivered once, not before they are due, in the order
in which they are due. A timer that sends itself again when it is delivered is a chain,
and one delivery of a chain is a tick.

* **`Timer`** — an event in the queue, with the time it was sent and its delay.
* **`deliver`** — take an event out of the queue, if it may be delivered now.
* **`Spaced`** — past ticks lie a delay apart, and no event in the queue was sent before
  one of them.
* **`Spaced.send`**, **`Spaced.tick`** — a single chain keeps its ticks a delay apart. That
  it is single enters in `tick`: nothing else may be left in its queue.
-/

namespace TimerQueue

/-- An event in the queue. -/
structure Timer (ε : Type) where
  event : ε
  sent : Nat
  delay : Nat
deriving DecidableEq

variable {ε : Type}

/-- When the event is due. -/
def Timer.due (t : Timer ε) : Nat := t.sent + t.delay

/-- An event goes to the end of the queue. -/
def send (now delay : Nat) (event : ε) (queue : List (Timer ε)) : List (Timer ε) :=
  queue ++ [{ event := event, sent := now, delay := delay }]

/-- Take out the event at a position; refused before it is due, and while another one
    is due earlier. -/
def deliver (now : Nat) (queue : List (Timer ε)) (i : Nat) :
    Option (Timer ε × List (Timer ε)) :=
  match queue[i]? with
  | none => none
  | some t =>
      if t.due ≤ now ∧ ∀ u ∈ queue, t.due ≤ u.due then some (t, queue.eraseIdx i) else none

/-- The event is of this kind. -/
def Timer.ofKind (p : ε → Bool) (t : Timer ε) : Bool := p t.event

/-- The events in the queue that satisfy `p`. -/
def pending (p : ε → Bool) (queue : List (Timer ε)) : List (Timer ε) :=
  queue.filter (Timer.ofKind p)

/-- **A delivery** takes one event, and takes it no earlier than it is due. -/
theorem deliver_spec {now : Nat} {queue queue' : List (Timer ε)} {i : Nat} {t : Timer ε}
    (h : deliver now queue i = some (t, queue')) :
    List.Perm (t :: queue') queue ∧ t.due ≤ now := by
  cases hi : queue[i]? with
  | none =>
      have hnone : deliver now queue i = none := by
        show (match queue[i]? with
          | none => none
          | some t => _) = none
        rw [hi]
      exact nomatch hnone.symm.trans h
  | some u =>
      have hdeliver : deliver now queue i
          = if u.due ≤ now ∧ ∀ v ∈ queue, u.due ≤ v.due then some (u, queue.eraseIdx i)
            else none := by
        show (match queue[i]? with
          | none => none
          | some t => _) = _
        rw [hi]
      by_cases hdue : u.due ≤ now ∧ ∀ v ∈ queue, u.due ≤ v.due
      · rw [if_pos hdue] at hdeliver
        obtain ⟨rfl, rfl⟩ := Prod.mk.inj (Option.some.inj (hdeliver.symm.trans h))
        obtain ⟨hlt, hget⟩ := List.getElem?_eq_some_iff.mp hi
        refine ⟨?_, hdue.1⟩
        rw [← hget]
        exact List.getElem_cons_eraseIdx_perm hlt
      · rw [if_neg hdue] at hdeliver
        exact nomatch hdeliver.symm.trans h

/-- Sending an event of the kind adds it to the pending ones. -/
theorem pending_send_of_pos {p : ε → Bool} {event : ε} (hp : p event = true)
    (now delay : Nat) (queue : List (Timer ε)) :
    pending p (send now delay event queue) = send now delay event (pending p queue) := by
  show (queue ++ [_]).filter (Timer.ofKind p) = _
  rw [List.filter_append]
  exact congrArg (pending p queue ++ ·) (List.filter_cons_of_pos (p := Timer.ofKind p) hp)

/-- Sending an event of another kind does not. -/
theorem pending_send_of_neg {p : ε → Bool} {event : ε} (hp : ¬ p event = true)
    (now delay : Nat) (queue : List (Timer ε)) :
    pending p (send now delay event queue) = pending p queue := by
  show (queue ++ [_]).filter (Timer.ofKind p) = _
  rw [List.filter_append]
  have hnone : [({ event := event, sent := now, delay := delay } : Timer ε)].filter
      (Timer.ofKind p) = [] := List.filter_cons_of_neg (p := Timer.ofKind p) hp
  exact (congrArg (pending p queue ++ ·) hnone).trans (List.append_nil _)

/-- Delivering an event of the kind takes it out of the pending ones. -/
theorem pending_perm_of_pos {p : ε → Bool} {t : Timer ε} {queue queue' : List (Timer ε)}
    (h : List.Perm (t :: queue') queue) (ht : p t.event = true) :
    List.Perm (t :: pending p queue') (pending p queue) := by
  have hfilter := h.filter (Timer.ofKind p)
  rw [List.filter_cons_of_pos (p := Timer.ofKind p) ht] at hfilter
  exact hfilter

/-- Delivering an event of another kind leaves them as they were. -/
theorem pending_perm_of_neg {p : ε → Bool} {t : Timer ε} {queue queue' : List (Timer ε)}
    (h : List.Perm (t :: queue') queue) (ht : ¬ p t.event = true) :
    List.Perm (pending p queue') (pending p queue) := by
  have hfilter := h.filter (Timer.ofKind p)
  rw [List.filter_cons_of_neg (p := Timer.ofKind p) ht] at hfilter
  exact hfilter

-- ── Chains ────────────────────────────────────────────────────────────────────────

/-- A delivery of a chain: when it came, and the delay it was sent with. -/
structure Tick where
  time : Nat
  delay : Nat
deriving DecidableEq

/-- The tick of a timer delivered now. -/
def Timer.tick (t : Timer ε) (now : Nat) : Tick := { time := now, delay := t.delay }

/-- The later of the two ticks comes its own delay after the other, or more. -/
def Apart (a b : Tick) : Prop :=
  a.time + b.delay ≤ b.time ∨ b.time + a.delay ≤ a.time

theorem Apart.symm {a b : Tick} (h : Apart a b) : Apart b a := Or.symm h

/-- Past ticks lie apart, and each event in the queue was sent at or after all of them. -/
structure Spaced (now : Nat) (queue : List (Timer ε)) (past : List Tick) : Prop where
  apart : past.Pairwise Apart
  past_le : ∀ a ∈ past, a.time ≤ now
  sent_le : ∀ t ∈ queue, t.sent ≤ now
  past_le_sent : ∀ a ∈ past, ∀ t ∈ queue, a.time ≤ t.sent

namespace Spaced

variable {now : Nat} {queue queue' : List (Timer ε)} {past past' : List Tick}

theorem empty (now : Nat) : Spaced now ([] : List (Timer ε)) [] where
  apart := List.Pairwise.nil
  past_le := fun _ h => nomatch h
  sent_le := fun _ h => nomatch h
  past_le_sent := fun _ h => nomatch h

theorem advance (h : Spaced now queue past) {now' : Nat} (hle : now ≤ now') :
    Spaced now' queue past where
  apart := h.apart
  past_le := fun a ha => Nat.le_trans (h.past_le a ha) hle
  sent_le := fun t ht => Nat.le_trans (h.sent_le t ht) hle
  past_le_sent := h.past_le_sent

/-- Only which events and ticks there are matters, not their order. -/
theorem perm (h : Spaced now queue past) (hq : List.Perm queue' queue)
    (hp : List.Perm past' past) : Spaced now queue' past' where
  apart := (hp.pairwise_iff Apart.symm).mpr h.apart
  past_le := fun a ha => h.past_le a (hp.mem_iff.mp ha)
  sent_le := fun t ht => h.sent_le t (hq.mem_iff.mp ht)
  past_le_sent := fun a ha t ht =>
    h.past_le_sent a (hp.mem_iff.mp ha) t (hq.mem_iff.mp ht)

/-- Forgetting ticks. -/
theorem sublist (h : Spaced now queue past) (hp : past'.Sublist past) :
    Spaced now queue past' where
  apart := h.apart.sublist hp
  past_le := fun a ha => h.past_le a (hp.subset ha)
  sent_le := h.sent_le
  past_le_sent := fun a ha => h.past_le_sent a (hp.subset ha)

/-- Dropping an event. -/
theorem tail {t : Timer ε} (h : Spaced now (t :: queue) past) : Spaced now queue past where
  apart := h.apart
  past_le := h.past_le
  sent_le := fun u hu => h.sent_le u (List.mem_cons_of_mem t hu)
  past_le_sent := fun a ha u hu => h.past_le_sent a ha u (List.mem_cons_of_mem t hu)

/-- Sending an event. -/
theorem send (h : Spaced now queue past) (delay : Nat) (event : ε) :
    Spaced now (send now delay event queue) past where
  apart := h.apart
  past_le := h.past_le
  sent_le := by
    intro t ht
    rcases List.mem_append.mp ht with ht | ht
    · exact h.sent_le t ht
    · obtain rfl := List.mem_singleton.mp ht
      exact Nat.le_refl now
  past_le_sent := by
    intro a ha t ht
    rcases List.mem_append.mp ht with ht | ht
    · exact h.past_le_sent a ha t ht
    · obtain rfl := List.mem_singleton.mp ht
      exact h.past_le a ha

/-- **The tick of a single chain** lies apart from all the past ones. -/
theorem tick {t : Timer ε} (h : Spaced now [t] past) (hdue : t.due ≤ now) :
    Spaced now ([] : List (Timer ε)) (past ++ [t.tick now]) where
  apart := by
    refine List.pairwise_append.mpr ⟨h.apart, List.pairwise_singleton _ _, ?_⟩
    intro a ha b hb
    obtain rfl := List.mem_singleton.mp hb
    refine Or.inl ?_
    have hsent := h.past_le_sent a ha t List.mem_cons_self
    show a.time + t.delay ≤ now
    exact Nat.le_trans (Nat.add_le_add_right hsent t.delay) hdue
  past_le := by
    intro a ha
    rcases List.mem_append.mp ha with ha | ha
    · exact h.past_le a ha
    · obtain rfl := List.mem_singleton.mp ha
      exact Nat.le_refl now
  sent_le := fun _ h => nomatch h
  past_le_sent := fun _ _ _ h => nomatch h

end Spaced

end TimerQueue
