import Slinux.Shell.Text

/-!
# Shell patterns and parameter expansion

The scripts validate and cut text with shell patterns, in `case` arms and in
the four `${x#…}`, `${x##…}`, `${x%…}`, `${x%%…}` expansions.  A pattern is a
list of elements; `globMatch` is the matching rule of the shell, where `*`
stands for any text.  That last point is what separates a pattern from the
regular expression it often resembles: in `[a-z_][a-z0-9_-]*` the star does
not repeat the bracket before it.

Both definitions recurse on the pattern alone, so they evaluate on concrete
input.

## Main results

* `globMatch_star_lits`, `globMatch_lits_star` — a star before or after a fixed
  word is "ends in" and "starts with".
* `dropLongestPrefix_star_lits` — `${x##*w}` is what follows the last `w`.
* `dropLongestSuffix_lit_star` — `${x%%c*}` is what precedes the first `c`.
* `dropShortestPrefix_lits` — `${x#w}` removes a literal prefix.
-/

namespace Slinux.Shell.Glob

open Slinux.Shell.Text

/-! ## Patterns -/

/-- One element of a shell pattern.  A bracket expression is the list of its
ranges, a single character `c` being the range from `c` to `c`. -/
inductive Elem where
  | lit (c : Char)
  | any
  | bracket (ranges : List (Char × Char))
  | star
  deriving Repr, DecidableEq

/-- A shell pattern. -/
abbrev Pat := List Elem

/-- Is `c` in one of the ranges? -/
def inRanges (ranges : List (Char × Char)) (c : Char) : Bool :=
  ranges.any (fun r => decide (r.1 ≤ c) && decide (c ≤ r.2))

/-- Does a text match the whole pattern? -/
def globMatch : Pat → Str → Bool
  | [], s => s.isEmpty
  | .star :: p, s => s.tails.any (globMatch p)
  | .lit c :: p, s => match s with
      | [] => false
      | d :: s => d == c && globMatch p s
  | .any :: p, s => match s with
      | [] => false
      | _ :: s => globMatch p s
  | .bracket rs :: p, s => match s with
      | [] => false
      | d :: s => inRanges rs d && globMatch p s

/-- The pattern that matches exactly `w`: quoted text, or text without
special characters. -/
def lits (w : Str) : Pat := w.map .lit

/-- One `case` arm with alternatives. -/
def caseArm (pats : List Pat) (s : Str) : Bool := pats.any (globMatch · s)

/-- A literal prefix of a pattern consumes itself. -/
theorem globMatch_lits_append (w : Str) (p : Pat) (s : Str) :
    globMatch (lits w ++ p) s = true ↔ ∃ t, s = w ++ t ∧ globMatch p t = true := by
  induction w generalizing s with
  | nil => simp [lits]
  | cons c w ih =>
      cases s with
      | nil => simp [lits, globMatch]
      | cons d s =>
          have hih := ih s
          simp only [lits] at hih
          simp only [lits, List.map_cons, List.cons_append, globMatch, Bool.and_eq_true,
            beq_iff_eq, hih, List.cons.injEq]
          constructor
          · rintro ⟨rfl, t, rfl, ht⟩
            exact ⟨t, ⟨rfl, rfl⟩, ht⟩
          · rintro ⟨t, ⟨rfl, rfl⟩, ht⟩
            exact ⟨rfl, t, rfl, ht⟩

/-- A leading star skips any text. -/
theorem globMatch_star_cons (p : Pat) (s : Str) :
    globMatch (.star :: p) s = true ↔ ∃ a t, s = a ++ t ∧ globMatch p t = true := by
  simp only [globMatch, List.any_eq_true, List.mem_tails]
  constructor
  · rintro ⟨t, ⟨a, rfl⟩, ht⟩
    exact ⟨a, t, rfl, ht⟩
  · rintro ⟨a, t, rfl, ht⟩
    exact ⟨t, ⟨a, rfl⟩, ht⟩

theorem globMatch_lits (w s : Str) : globMatch (lits w) s = true ↔ s = w := by
  have h := globMatch_lits_append w [] s
  simp only [List.append_nil, globMatch, List.isEmpty_iff] at h
  simp [h]

theorem globMatch_star (s : Str) : globMatch [.star] s = true := by
  rw [globMatch_star_cons]
  exact ⟨s, [], by simp, rfl⟩

/-- `w*` is "starts with `w`". -/
theorem globMatch_lits_star (w s : Str) :
    globMatch (lits w ++ [.star]) s = true ↔ w <+: s := by
  rw [globMatch_lits_append]
  constructor
  · rintro ⟨t, rfl, _⟩
    exact ⟨t, rfl⟩
  · rintro ⟨t, rfl⟩
    exact ⟨t, rfl, globMatch_star t⟩

/-- `*w` is "ends in `w`". -/
theorem globMatch_star_lits (w s : Str) :
    globMatch (.star :: lits w) s = true ↔ w <:+ s := by
  rw [globMatch_star_cons]
  constructor
  · rintro ⟨a, t, rfl, ht⟩
    exact ⟨a, by rw [(globMatch_lits w t).mp ht]⟩
  · rintro ⟨a, rfl⟩
    exact ⟨a, w, rfl, (globMatch_lits w w).mpr rfl⟩

/-! ## Parameter expansion

All four expansions look for a prefix or suffix length at which the pattern
matches; `#` and `%` take the smallest, `##` and `%%` the largest, and the
text is unchanged when there is none. -/

/-- The lengths tried by the longest-match forms, largest first. -/
def lengthsDown (n : Nat) : List Nat := (List.range (n + 1)).reverse

/-- `${s#p}`. -/
def dropShortestPrefix (p : Pat) (s : Str) : Str :=
  match (List.range (s.length + 1)).find? (fun k => globMatch p (s.take k)) with
  | some k => s.drop k
  | none => s

/-- `${s##p}`. -/
def dropLongestPrefix (p : Pat) (s : Str) : Str :=
  match (lengthsDown s.length).find? (fun k => globMatch p (s.take k)) with
  | some k => s.drop k
  | none => s

/-- `${s%%p}`: a suffix of length `k` is what `s.drop (s.length - k)` keeps. -/
def dropLongestSuffix (p : Pat) (s : Str) : Str :=
  match (lengthsDown s.length).find? (fun k => globMatch p (s.drop (s.length - k))) with
  | some k => s.take (s.length - k)
  | none => s

/-- The first hit of a downward scan is the largest. -/
theorem find?_lengthsDown {n k : Nat} {q : Nat → Bool} (hk : k ≤ n) (hq : q k = true)
    (hmax : ∀ j, k < j → j ≤ n → q j = false) :
    (lengthsDown n).find? q = some k := by
  induction n with
  | zero =>
      obtain rfl : k = 0 := by omega
      simp [lengthsDown, hq]
  | succ n ih =>
      have hdown : lengthsDown (n + 1) = (n + 1) :: lengthsDown n := by
        simp [lengthsDown, List.range_succ (n := n + 1)]
      rw [hdown, List.find?_cons]
      by_cases hkn : k = n + 1
      · subst hkn
        rw [hq]
      · rw [hmax (n + 1) (by omega) (Nat.le_refl _)]
        exact ih (by omega) (fun j hj hjn => hmax j hj (by omega))

theorem find?_lengthsDown_none {n : Nat} {q : Nat → Bool}
    (h : ∀ j, j ≤ n → q j = false) : (lengthsDown n).find? q = none := by
  rw [List.find?_eq_none]
  intro j hj
  have : j < n + 1 := by simpa [lengthsDown] using hj
  simp [h j (by omega)]

/-- `${x#w}` removes a literal prefix. -/
theorem dropShortestPrefix_lits (w t : Str) :
    dropShortestPrefix (lits w) (w ++ t) = t := by
  have hfind : (List.range ((w ++ t).length + 1)).find?
      (fun k => globMatch (lits w) ((w ++ t).take k)) = some w.length := by
    rw [List.find?_range_eq_some]
    have hlt : w.length < (w ++ t).length + 1 := by
      rw [List.length_append]
      omega
    refine ⟨by simp [globMatch_lits], List.mem_range.mpr hlt, ?_⟩
    intro j hj
    rw [Bool.not_eq_true', ← Bool.not_eq_true, globMatch_lits]
    intro h
    have := congrArg List.length h
    simp only [List.length_take, List.length_append] at this
    omega
  rw [dropShortestPrefix, hfind]
  exact List.drop_left

/-- `${x##*w}` is what follows the last `w`, and the whole text when there is
none. -/
theorem dropLongestPrefix_star_lits (w s : Str) :
    dropLongestPrefix (.star :: lits w) s = (afterLast? w s).getD s := by
  cases h : afterLast? w s with
  | none =>
      have hno := (afterLast?_eq_none_iff w s).mp h
      have hfind : (lengthsDown s.length).find?
          (fun k => globMatch (.star :: lits w) (s.take k)) = none := by
        refine find?_lengthsDown_none (fun j _ => ?_)
        rw [← Bool.not_eq_true, globMatch_star_lits]
        exact fun hs => hno (hs.isInfix.trans (List.take_prefix j s).isInfix)
      rw [dropLongestPrefix, hfind, Option.getD_none]
  | some b =>
      obtain ⟨a, rfl, hlast⟩ := afterLast?_spec h
      have hfind : (lengthsDown (a ++ w ++ b).length).find?
          (fun k => globMatch (.star :: lits w) ((a ++ w ++ b).take k))
            = some (a ++ w).length := by
        refine find?_lengthsDown (by simp) ?_ ?_
        · rw [globMatch_star_lits, List.take_left]
          exact List.suffix_append a w
        · intro j hj hjs
          rw [← Bool.not_eq_true, globMatch_star_lits]
          exact hlast j hj hjs
      rw [dropLongestPrefix, hfind, Option.getD_some]
      exact List.drop_left

/-- `${x%%c*}` is what precedes the first `c`. -/
theorem dropLongestSuffix_lit_star (c : Char) (s : Str) :
    dropLongestSuffix [.lit c, .star] s = s.takeWhile (fun d => d != c) := by
  have hpat : ∀ t : Str, globMatch [.lit c, .star] t = true ↔ [c] <+: t :=
    fun t => globMatch_lits_star [c] t
  by_cases hc : c ∈ s
  · obtain ⟨a, b, rfl, ha⟩ := List.eq_append_cons_of_mem hc
    -- `a` is kept: the suffix `c :: b` matches and no longer one does
    have hfind : (lengthsDown (a ++ c :: b).length).find?
        (fun k => globMatch [.lit c, .star] ((a ++ c :: b).drop ((a ++ c :: b).length - k)))
          = some (b.length + 1) := by
      refine find?_lengthsDown (by simp) ?_ ?_
      · rw [hpat, show (a ++ c :: b).length - (b.length + 1) = a.length by simp,
          List.drop_left]
        exact ⟨b, rfl⟩
      · intro j hj hjn
        rw [← Bool.not_eq_true, hpat]
        rintro ⟨t, ht⟩
        have hm : (a ++ c :: b).length - j < a.length := by
          simp only [List.length_append, List.length_cons] at hjn ⊢
          omega
        rw [List.drop_append_of_le_length (Nat.le_of_lt hm),
          List.drop_eq_getElem_cons hm] at ht
        refine ha ?_
        rw [(List.cons.inj ht).1]
        exact List.getElem_mem hm
    rw [dropLongestSuffix, hfind]
    have hall : ∀ d ∈ a, (d != c) = true := by
      intro d hd
      rw [bne_iff_ne]
      rintro rfl
      exact ha hd
    simp only [List.length_append, List.length_cons, Nat.add_sub_cancel]
    rw [List.take_left, List.takeWhile_append_of_pos hall, List.takeWhile_cons]
    simp
  · have hfind : (lengthsDown s.length).find?
        (fun k => globMatch [.lit c, .star] (s.drop (s.length - k))) = none := by
      refine find?_lengthsDown_none (fun j _ => ?_)
      rw [← Bool.not_eq_true, hpat]
      intro hp
      exact hc (List.mem_of_mem_drop (hp.subset (by simp)))
    have hall : ∀ d ∈ s, (d != c) = true := by
      intro d hd
      rw [bne_iff_ne]
      rintro rfl
      exact hc hd
    rw [dropLongestSuffix, hfind]
    simpa using (@List.takeWhile_append_of_pos _ (fun d => d != c) s [] hall).symm

end Slinux.Shell.Glob
