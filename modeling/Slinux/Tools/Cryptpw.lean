import Mathlib.Data.Fin.VecNotation
import Mathlib.Tactic.LinearCombination
import Slinux.Num.Congruential
import Slinux.Shell.Text

/-!
# `cryptpw`: the salt

`tools/cryptpw.c` hashes a password with a salt of sixteen characters.  They
come from a linear congruential generator on 32-bit words, six bits a
character, and the generator is seeded with the time and, shifted by sixteen
bits, the process number.

Carries only move upwards, so the bits 16 to 21 that become characters depend
on the lowest 22 bits of the seed and on nothing else: of the process number,
that is its lowest six bits.  The sixteen characters do determine those 22
bits, the first five of them already.  The generator with the modulus `2²²`
has five independent relations that are short enough to annihilate the
difference of two seeds with the same characters.

## Main results

* `salt_eq_iff` — two seeds have the same salt iff their lowest 22 bits agree.
* `salts_differ_iff` — which pairs of different seeds have different salts.
-/

namespace Slinux.Tools.Cryptpw

open Slinux.Shell.Text
open Slinux.Num.Congruential

/-! ## The program -/

/-- The characters of a salt. -/
def cs : Str := "./0123456789ABCDEFGHIJKLMNOPQRSTUVWXYZabcdefghijklmnopqrstuvwxyz".toList

/-- `seed = seed * 1103515245u + 12345u`. -/
def nextSeed (seed : BitVec 32) : BitVec 32 := seed * 1103515245#32 + 12345#32

/-- `cs[(seed >> 16) & 63]`. -/
def saltChar (seed : BitVec 32) : Char := cs.getD ((seed >>> 16) &&& 63#32).toNat '.'

/-- The loop, with `n` characters to go. -/
def saltLoop : Nat → BitVec 32 → Str
  | 0, _ => []
  | n + 1, seed => saltChar (nextSeed seed) :: saltLoop n (nextSeed seed)

/-- The argument `salt` of `crypt`. -/
def salt (seed : BitVec 32) : Str := "$6$".toList ++ saltLoop 16 seed

/-- `(unsigned)time(NULL) ^ ((unsigned)getpid() << 16)`. -/
def seedOf (time : BitVec 64) (pid : BitVec 32) : BitVec 32 :=
  time.setWidth 32 ^^^ (pid <<< 16)

/-- The exit status and the lines printed. -/
def main (crypt : Str → Str → Str) (time : BitVec 64) (pid : BitVec 32) (args : List Str) :
    Nat × List Str :=
  match args with
  | [pw] => (0, [crypt pw (salt (seedOf time pid))])
  | _ => (2, [])

/-! ## The bits that count -/

/-- The modulus of the bits that reach a character. -/
def window : Nat := 2 ^ 22

/-- The lowest 22 bits of a seed. -/
def low (seed : BitVec 32) : Nat := seed.toNat % window

/-- The lowest 22 bits after `n` steps. -/
def lowState (x n : Nat) : Nat := state 1103515245 12345 window x n

theorem low_nextSeed (seed : BitVec 32) :
    low (nextSeed seed) = step 1103515245 12345 window (low seed) := by
  unfold low nextSeed step window
  rw [BitVec.toNat_add, BitVec.toNat_mul, BitVec.toNat_ofNat, BitVec.toNat_ofNat]
  omega

/-- A character shows the leading six of the 22 bits. -/
theorem saltChar_eq (seed : BitVec 32) : saltChar seed = cs.getD (low seed / 2 ^ 16) '.' := by
  have hindex : ((seed >>> 16) &&& 63#32).toNat = low seed / 2 ^ 16 := by
    rw [BitVec.toNat_and, BitVec.toNat_ushiftRight, BitVec.toNat_ofNat, Nat.shiftRight_eq_div_pow,
      show 63 % 2 ^ 32 = 2 ^ 6 - 1 from rfl, Nat.and_two_pow_sub_one_eq_mod]
    unfold low window
    omega
  rw [saltChar, hindex]

theorem low_lt (seed : BitVec 32) : low seed < window := Nat.mod_lt _ (by decide)

theorem lowState_lt (x n : Nat) : lowState x (n + 1) < window := step_lt (by decide) _

/-- The salt as a function of the lowest 22 bits. -/
theorem saltLoop_eq (n : Nat) : ∀ seed : BitVec 32,
    saltLoop n seed
      = (List.range n).map (fun i => cs.getD (lowState (low seed) (i + 1) / 2 ^ 16) '.') := by
  induction n with
  | zero => intro seed; rfl
  | succ n ih =>
      intro seed
      rw [saltLoop, ih, List.range_succ_eq_map, List.map_cons, List.map_map, saltChar_eq,
        low_nextSeed]
      have htail : (fun i => cs.getD (lowState (low seed) (i + 1) / 2 ^ 16) '.') ∘ Nat.succ
          = fun i => cs.getD
            (lowState (step 1103515245 12345 window (low seed)) (i + 1) / 2 ^ 16) '.' := by
        funext i
        show cs.getD (lowState (low seed) (i + 1 + 1) / 2 ^ 16) '.' = _
        rw [lowState, ← state_step]
        rfl
      rw [htail]
      rfl

/-- Different six-bit values give different characters. -/
theorem cs_inj {i j : Nat} (hi : i < 64) (hj : j < 64) (h : cs.getD i '.' = cs.getD j '.') :
    i = j := by
  have hlen : cs.length = 64 := by decide
  have hnodup : cs.Nodup := by decide
  rw [← hlen] at hi hj
  rw [List.getD_eq_getElem?_getD, List.getD_eq_getElem?_getD, List.getElem?_eq_getElem hi,
    List.getElem?_eq_getElem hj, Option.getD_some, Option.getD_some] at h
  exact (List.Nodup.getElem_inj_iff hnodup).mp h

/-! ## No two windows look alike -/

/-- Five relations of the generator modulo `2²²`. -/
def relations : Fin 5 → Fin 5 → Int :=
  ![![-12, 4, -3, -4, -9], ![-9, 6, 10, 11, -6], ![-2, -15, -10, 9, 2], ![-1, 17, -18, 7, 3],
    ![-15, -5, 9, -14, 21]]

theorem relations_hold (j : Fin 5) :
    (window : Int) ∣ ∑ i, relations j i * (1103515245 : Int) ^ (i : Nat) := by
  revert j
  decide +kernel

theorem relations_short (j : Fin 5) :
    (∑ i, |relations j i|) * (((2 ^ 16 : Nat) : Int) - 1) < window := by
  revert j
  decide +kernel

/-- The relations are independent. -/
theorem relations_independent {d : Fin 5 → Int} (h : ∀ j, ∑ i, relations j i * d i = 0) :
    d 0 = 0 := by
  have h0 := h 0
  have h1 := h 1
  have h2 := h 2
  have h3 := h 3
  have h4 := h 4
  simp only [Fin.sum_univ_five, relations, Matrix.cons_val] at h0 h1 h2 h3 h4
  -- a row of the adjugate; the determinant is the modulus
  have hdet : (window : Int) * d 0 = 0 := by
    rw [show (window : Int) = 4194304 from rfl]
    linear_combination -162031 * h0 - 89601 * h1 - 76449 * h2 - 22570 * h3 - 84537 * h4
  exact (Int.mul_eq_zero.mp hdet).resolve_left (by decide)

/-- **Five characters determine the state.** -/
theorem eq_of_five {x y : Nat}
    (h : ∀ i : Fin 5, lowState x i / 2 ^ 16 = lowState y i / 2 ^ 16) : x = y := by
  have hzero : ∀ j, ∑ i, relations j i * gap 1103515245 12345 window x y (i : Fin 5) = 0 :=
    fun j => relation_sum_eq_zero (relations j) (relations_hold j) (relations_short j)
      (by decide) h
  have hgap : (x : Int) - y = 0 := relations_independent hzero
  omega

/-- **The salt is a function of the lowest 22 bits of the seed, and an
injective one.** -/
theorem salt_eq_iff (s t : BitVec 32) : salt s = salt t ↔ low s = low t := by
  unfold salt
  rw [List.append_cancel_left_eq, saltLoop_eq, saltLoop_eq]
  constructor
  · intro h
    have hchars := List.map_inj_left.mp h
    have hsame : ∀ i : Fin 5, lowState (lowState (low s) 1) i / 2 ^ 16
        = lowState (lowState (low t) 1) i / 2 ^ 16 := by
      intro i
      have hi := hchars i (List.mem_range.mpr (by omega))
      have hindex : ∀ x : Nat, lowState x (i + 1) / 2 ^ 16 < 64 := by
        intro x
        have hlt := lowState_lt x i
        unfold window at hlt
        omega
      have hstep : ∀ x : Nat, lowState (lowState x 1) i = lowState x (i + 1) := fun x =>
        state_step x i
      rw [hstep, hstep]
      exact cs_inj (hindex _) (hindex _) hi
    have hone : lowState (low s) 1 = lowState (low t) 1 := eq_of_five hsame
    have hcoprime : Nat.Coprime window 1103515245 := by decide +kernel
    exact eq_of_step_eq hcoprime (low_lt s) (low_lt t) hone
  · intro h
    rw [h]

/-- **Different seeds and their salts.**  Two different seeds have different
salts exactly if they differ in their lowest 22 bits. -/
theorem salts_differ_iff (s t : BitVec 32) :
    (s ≠ t → salt s ≠ salt t) ↔ s = t ∨ s.toNat % 2 ^ 22 ≠ t.toNat % 2 ^ 22 := by
  have hsalt : salt s = salt t ↔ s.toNat % 2 ^ 22 = t.toNat % 2 ^ 22 := salt_eq_iff s t
  rw [Ne, Ne, Ne, hsalt, or_iff_not_imp_left]

/-- Two processes of one second whose numbers differ by 64. -/
theorem salts_not_differ :
    seedOf 1700000000 100 ≠ seedOf 1700000000 164 ∧
      salt (seedOf 1700000000 100) = salt (seedOf 1700000000 164) := by
  decide +kernel

end Slinux.Tools.Cryptpw
