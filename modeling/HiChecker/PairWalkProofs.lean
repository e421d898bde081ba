import Mathlib.Data.List.Basic
import Mathlib.Data.List.Infix

/-!
# A walk that takes an element, or an element and its neighbour

A walk along a list takes elements from the front until it has taken enough. Each turn
takes one element, and the one after it as well when the two are **paired**. The last turn
may therefore take one element too many.

* **`walk`** — the elements taken.
* **`walk_eq_take`** — they are the first ones of the list.
* **`length_walk`** — how many there are: the excess is the parity of the unbroken run of
  paired neighbours that ends at the limit.
* **`walk_eq_self`** — a list that is not longer than the limit is taken as a whole.
-/

namespace PairWalk

variable {α : Type} (pairs : α → α → Bool)

/-- The elements a walk takes until it has `limit` of them. -/
def walk : Nat → List α → List α
  | 0, _ => []
  | _ + 1, [] => []
  | _ + 1, [x] => [x]
  | limit + 1, x :: y :: rest =>
      if pairs x y then x :: y :: walk (limit - 1) rest else x :: walk limit (y :: rest)

/-- Which elements are paired with their successor. -/
def flags : List α → List Bool
  | [] => []
  | [_] => []
  | x :: y :: rest => pairs x y :: flags (y :: rest)

/-- The length of the unbroken run of `true` at the end of a list. -/
def trailing (fs : List Bool) : Nat := (fs.reverse.takeWhile id).length

/-- A walk takes the elements in front. -/
theorem walk_isPrefix (limit : Nat) (xs : List α) : walk pairs limit xs <+: xs := by
  fun_induction walk pairs limit xs with
  | case1 xs => exact List.nil_prefix
  | case2 limit => exact List.nil_prefix
  | case3 limit x => exact List.prefix_refl _
  | case4 limit x y rest hpair ih =>
      exact (List.prefix_cons_inj x).mpr ((List.prefix_cons_inj y).mpr ih)
  | case5 limit x y rest hpair ih => exact (List.prefix_cons_inj x).mpr ih

theorem walk_eq_take (limit : Nat) (xs : List α) :
    walk pairs limit xs = xs.take (walk pairs limit xs).length :=
  List.prefix_iff_eq_take.mp (walk_isPrefix pairs limit xs)

/-- A walk that may take as many as there are takes all. -/
theorem walk_eq_self (limit : Nat) (xs : List α) (h : xs.length ≤ limit) :
    walk pairs limit xs = xs := by
  fun_induction walk pairs limit xs with
  | case1 xs => exact (List.length_eq_zero_iff.mp (Nat.le_zero.mp h)).symm
  | case2 limit => rfl
  | case3 limit x => rfl
  | case4 limit x y rest hpair ih =>
      rw [List.length_cons, List.length_cons] at h
      rw [ih (by omega)]
  | case5 limit x y rest hpair ih =>
      rw [List.length_cons] at h
      rw [ih (by omega)]

-- ── The run at the end ────────────────────────────────────────────────────────────

/-- An element in front counts only when everything behind it is in the run. -/
theorem trailing_cons (f : Bool) (fs : List Bool) :
    trailing (f :: fs)
      = if trailing fs = fs.length then fs.length + (if f then 1 else 0) else trailing fs := by
  have happend : (f :: fs).reverse.takeWhile id
      = if (fs.reverse.takeWhile id).length = fs.reverse.length then
          fs.reverse ++ [f].takeWhile id
        else fs.reverse.takeWhile id := by
    rw [List.reverse_cons, List.takeWhile_append]
  rw [trailing, happend, List.length_reverse]
  by_cases hall : (fs.reverse.takeWhile id).length = fs.length
  · rw [if_pos hall, if_pos (show trailing fs = fs.length from hall), List.length_append,
      List.length_reverse]
    cases f with
    | true => rfl
    | false => rfl
  · rw [if_neg hall, if_neg (show ¬ trailing fs = fs.length from hall)]
    rfl

/-- A break in front of a run does not lengthen it. -/
theorem trailing_cons_false (fs : List Bool) : trailing (false :: fs) = trailing fs := by
  rw [trailing_cons]
  by_cases hall : trailing fs = fs.length
  · rw [if_pos hall, if_neg Bool.false_ne_true, Nat.add_zero, hall]
  · rw [if_neg hall]

theorem trailing_le (fs : List Bool) : trailing fs ≤ fs.length := by
  have hle : (fs.reverse.takeWhile id).length ≤ fs.reverse.length :=
    (List.takeWhile_prefix id).length_le
  rw [List.length_reverse] at hle
  exact hle

/-- Two elements in front, the first one `true`, keep the parity of the run. -/
theorem trailing_cons_cons (f : Bool) (fs : List Bool) :
    trailing (true :: f :: fs) % 2 = trailing fs % 2 := by
  have hle := trailing_le fs
  cases f with
  | false =>
      -- the run reaches the end of `fs` at most
      rw [trailing_cons, trailing_cons_false, List.length_cons, if_neg (by omega)]
  | true =>
      rw [trailing_cons, trailing_cons, List.length_cons]
      by_cases hall : trailing fs = fs.length
      · rw [if_pos hall, if_pos rfl, if_pos rfl, hall]
        omega
      · rw [if_neg hall, if_neg (by omega)]

-- ── How many are taken ────────────────────────────────────────────────────────────

/-- **The number of elements taken** is the limit, and one more exactly when the run of
    paired elements right before the limit is odd. -/
theorem length_walk (limit : Nat) (xs : List α) (h : limit < xs.length) :
    (walk pairs limit xs).length = limit + trailing ((flags pairs xs).take limit) % 2 := by
  fun_induction walk pairs limit xs with
  | case1 xs => rfl
  | case2 limit => exact absurd h (Nat.not_lt_zero _)
  | case3 limit x =>
      rw [List.length_singleton] at h
      omega
  | case4 limit x y rest hpair ih =>
      rw [List.length_cons, List.length_cons] at h
      rw [List.length_cons, List.length_cons, flags, hpair]
      cases limit with
      | zero =>
          rw [Nat.zero_sub, walk]
          rfl
      | succ limit =>
          rw [ih (by omega)]
          -- the walk goes on behind `y`, whose flag is passed over
          have hflags : (true :: flags pairs (y :: rest)).take (limit + 2)
              = true :: ((flags pairs (y :: rest)).take (limit + 1)) := rfl
          cases rest with
          | nil =>
              rw [List.length_nil] at h
              omega
          | cons z rest =>
              rw [hflags, flags, List.take_succ_cons, trailing_cons_cons,
                Nat.add_sub_cancel]
              omega
  | case5 limit x y rest hpair ih =>
      rw [List.length_cons] at h
      rw [List.length_cons, ih (by omega), flags, Bool.not_eq_true _ |>.mp hpair,
        List.take_succ_cons, trailing_cons_false]
      omega

end PairWalk
