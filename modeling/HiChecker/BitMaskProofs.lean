import Mathlib.Data.Set.Basic
import Mathlib.Data.Set.Insert

/-!
# Machine words as sets of bit positions

A flag word is read, in everything below, as the set of positions of its one bits.
The bitwise operations are then the set operations, and the two idioms that flag
code lives on become inclusions:

* `m ||| r = m` says that `r` has no bit outside `m` (`or_eq_left_iff`);
* `r = r &&& w` says that `w` has every bit of `r` (`eq_and_iff`);
* `w ^^^ (w &&& r)` removes the bits of `r` from `w` (`bits_clear`).
-/

namespace BitMask

variable {n : Nat}

/-- The positions of the one bits of a word. -/
def bits (w : BitVec n) : Set Nat := {i | w.getLsbD i = true}

@[simp] theorem mem_bits (w : BitVec n) (i : Nat) :
    i ∈ bits w ↔ w.getLsbD i = true := Iff.rfl

instance (w : BitVec n) (i : Nat) : Decidable (i ∈ bits w) :=
  inferInstanceAs (Decidable (w.getLsbD i = true))

/-- A word is determined by its bits. -/
theorem bits_inj {v w : BitVec n} (h : bits v = bits w) : v = w := by
  apply BitVec.eq_of_getLsbD_eq
  intro i _
  have hi : i ∈ bits v ↔ i ∈ bits w := by rw [h]
  simp only [mem_bits] at hi
  exact Bool.eq_iff_iff.mpr hi

@[simp] theorem bits_zero : bits (0#n) = ∅ := by
  ext i
  simp

@[simp] theorem bits_or (v w : BitVec n) : bits (v ||| w) = bits v ∪ bits w := by
  ext i
  simp

@[simp] theorem bits_and (v w : BitVec n) : bits (v &&& w) = bits v ∩ bits w := by
  ext i
  simp

/-- Exclusive-or with the common bits takes them away. -/
@[simp] theorem bits_clear (w r : BitVec n) : bits (w ^^^ (w &&& r)) = bits w \ bits r := by
  ext i
  simp only [mem_bits, BitVec.getLsbD_xor, BitVec.getLsbD_and, Set.mem_sdiff]
  cases w.getLsbD i <;> cases r.getLsbD i <;> simp

/-- A shifted one is a singleton. -/
@[simp] theorem bits_one_shiftLeft {k : Nat} (hk : k < n) : bits (1#n <<< k) = {k} := by
  ext i
  rw [← BitVec.twoPow_eq]
  simp only [mem_bits, BitVec.getLsbD_twoPow, Set.mem_singleton_iff, Bool.and_eq_true,
    decide_eq_true_eq]
  constructor
  · rintro ⟨-, h⟩
    exact h.symm
  · intro h
    exact ⟨hk, h.symm⟩

/-- `r` adds nothing to `m` exactly when it has no bit outside `m`. -/
theorem or_eq_left_iff (m r : BitVec n) : m ||| r = m ↔ bits r ⊆ bits m := by
  constructor
  · intro h
    rw [← h, bits_or]
    exact Set.subset_union_right
  · intro h
    apply bits_inj
    rw [bits_or]
    exact Set.union_eq_self_of_subset_right h

/-- `r` survives masking by `w` exactly when `w` has every bit of `r`. -/
theorem eq_and_iff (r w : BitVec n) : r = r &&& w ↔ bits r ⊆ bits w := by
  constructor
  · intro h
    rw [h, bits_and]
    exact Set.inter_subset_right
  · intro h
    apply bits_inj
    rw [bits_and]
    exact (Set.inter_eq_self_of_subset_left h).symm

/-- A word is zero exactly when it has no bits. -/
theorem eq_zero_iff (w : BitVec n) : w = 0#n ↔ bits w = ∅ := by
  constructor
  · rintro rfl
    exact bits_zero
  · intro h
    exact bits_inj (h.trans bits_zero.symm)

/-- Testing a word against a one-bit mask reads that bit. -/
theorem and_ne_zero_iff_mem (w : BitVec n) {r : BitVec n} {k : Nat} (hr : bits r = {k}) :
    w &&& r ≠ 0#n ↔ k ∈ bits w := by
  rw [Ne, eq_zero_iff, bits_and, hr, ← Ne, ← Set.nonempty_iff_ne_empty]
  constructor
  · rintro ⟨i, hi, rfl⟩
    exact hi
  · intro h
    exact ⟨k, h, rfl⟩

end BitMask
