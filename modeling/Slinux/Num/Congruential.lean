import Mathlib.Algebra.Order.BigOperators.Group.Finset
import Mathlib.Algebra.Order.BigOperators.Ring.Finset
import Mathlib.Algebra.BigOperators.Fin
import Mathlib.Algebra.BigOperators.Ring.Finset
import Mathlib.Data.Int.ModEq

/-!
# Truncated linear congruential generators

A linear congruential generator iterates `x ↦ a·x + c` modulo `m`; a truncated
one shows only the leading part `x / b` of each state.  Two runs that show the
same differ by less than `b` in every state, and their differences are
multiplied by `a` from state to state.

An integer vector `r` with `∑ rᵢ·aⁱ ≡ 0` is a relation of the generator: it
annihilates the differences modulo `m`, and if its entries are small compared
with `m / b`, it annihilates them outright.  As many independent short
relations as there are states leave no room for a difference.

## Main results

* `relation_sum_eq_zero` — short relations annihilate small differences.
* `gap_modEq` — the differences of two runs.
* `eq_of_step_eq` — a step with an invertible multiplier loses nothing.
-/

namespace Slinux.Num.Congruential

/-- One step. -/
def step (a c m x : Nat) : Nat := (a * x + c) % m

/-- The state after `n` steps. -/
def state (a c m : Nat) (x : Nat) : Nat → Nat
  | 0 => x
  | n + 1 => step a c m (state a c m x n)

/-- The difference of two runs after `n` steps. -/
def gap (a c m x y n : Nat) : Int := (state a c m x n : Int) - state a c m y n

variable {a c m x y : Nat}

theorem step_lt (hm : 0 < m) (x : Nat) : step a c m x < m := Nat.mod_lt _ hm

/-- The first step may be taken in front. -/
theorem state_step (x n : Nat) : state a c m (step a c m x) n = state a c m x (n + 1) := by
  induction n with
  | zero => rfl
  | succ n ih =>
      show step a c m (state a c m (step a c m x) n) = step a c m (state a c m x (n + 1))
      rw [ih]

/-- A step multiplies a difference by `a`. -/
theorem gap_succ_modEq (n : Nat) : gap a c m x y (n + 1) ≡ a * gap a c m x y n [ZMOD m] := by
  have hstep : ∀ z : Nat, ((state a c m z (n + 1) : Nat) : Int)
      ≡ a * state a c m z n + c [ZMOD m] := by
    intro z
    show ((step a c m (state a c m z n) : Nat) : Int) ≡ _ [ZMOD m]
    unfold step
    push_cast
    exact Int.mod_modEq _ _
  have hsub := (hstep x).sub (hstep y)
  have hring : (a * state a c m x n + c : Int) - (a * state a c m y n + c)
      = a * gap a c m x y n := by
    unfold gap
    ring
  rw [hring] at hsub
  exact hsub

/-- **The differences of two runs** are the multiples of the first by the
powers of `a`. -/
theorem gap_modEq (n : Nat) : gap a c m x y n ≡ (a : Int) ^ n * gap a c m x y 0 [ZMOD m] := by
  induction n with
  | zero => rw [pow_zero, one_mul]
  | succ n ih =>
      have hmul := ih.mul_left (a : Int)
      rw [← mul_assoc, ← pow_succ'] at hmul
      exact (gap_succ_modEq n).trans hmul

/-- States that show the same leading part are close. -/
theorem abs_gap_lt {b n : Nat} (hb : 0 < b)
    (h : state a c m x n / b = state a c m y n / b) : |gap a c m x y n| ≤ b - 1 := by
  have hx := Nat.div_add_mod (state a c m x n) b
  have hy := Nat.div_add_mod (state a c m y n) b
  have hxlt := Nat.mod_lt (state a c m x n) hb
  have hylt := Nat.mod_lt (state a c m y n) hb
  rw [h] at hx
  unfold gap
  rw [abs_le]
  constructor
  · omega
  · omega

/-- **A short relation annihilates the differences** of two runs that show the
same. -/
theorem relation_sum_eq_zero {k b : Nat} (r : Fin k → Int)
    (hrel : (m : Int) ∣ ∑ i, r i * (a : Int) ^ (i : Nat))
    (hshort : (∑ i, |r i|) * (b - 1) < m) (hb : 0 < b)
    (hsame : ∀ i : Fin k, state a c m x i / b = state a c m y i / b) :
    ∑ i, r i * gap a c m x y i = 0 := by
  apply Int.eq_zero_of_abs_lt_dvd (m := (m : Int))
  · -- the sum is the relation times the first difference, up to multiples of `m`
    have hsplit : ∑ i, r i * gap a c m x y i
        = ∑ i, r i * (gap a c m x y i - (a : Int) ^ (i : Nat) * gap a c m x y 0)
          + (∑ i, r i * (a : Int) ^ (i : Nat)) * gap a c m x y 0 := by
      rw [Finset.sum_mul, ← Finset.sum_add_distrib]
      apply Finset.sum_congr rfl
      intro i _
      ring
    rw [hsplit]
    apply dvd_add
    · apply Finset.dvd_sum
      intro i _
      exact Dvd.dvd.mul_left (gap_modEq (i : Nat)).symm.dvd _
    · exact Dvd.dvd.mul_right hrel _
  · calc |∑ i, r i * gap a c m x y i|
        ≤ ∑ i, |r i * gap a c m x y i| := Finset.abs_sum_le_sum_abs _ _
      _ ≤ ∑ i, |r i| * (b - 1) := by
          apply Finset.sum_le_sum
          intro i _
          rw [abs_mul]
          exact mul_le_mul_of_nonneg_left (abs_gap_lt hb (hsame i)) (abs_nonneg _)
      _ = (∑ i, |r i|) * (b - 1) := (Finset.sum_mul ..).symm
      _ < m := hshort

/-- A step with a multiplier that is invertible modulo `m` keeps states
apart. -/
theorem eq_of_step_eq (ha : Nat.Coprime m a) (hx : x < m) (hy : y < m)
    (h : step a c m x = step a c m y) : x = y := by
  have hmul : a * x ≡ a * y [MOD m] := Nat.ModEq.add_right_cancel' c h
  have hmod : x ≡ y [MOD m] := Nat.ModEq.cancel_left_of_coprime ha hmul
  rw [Nat.ModEq, Nat.mod_eq_of_lt hx, Nat.mod_eq_of_lt hy] at hmod
  exact hmod

end Slinux.Num.Congruential
