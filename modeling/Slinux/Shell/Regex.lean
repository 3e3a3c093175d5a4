import Slinux.Shell.Glob

/-!
# Basic regular expressions for `grep` and `sed`

The scripts use regular expressions without alternation or nested repetition:
a sequence of single-character atoms, each possibly starred.  For such a flat
expression POSIX matching can be stated by enumeration.  `splits` lists every
way the expression matches at the start of a text, as the pieces its items
take, with longer pieces first from left to right; among the matches at the
leftmost possible start the tool takes the longest, and among equally long
ones the first of that list.

## Main results

* `sedPrint_extract` — `s/.*w\([^c]*\).*/\1/p` prints what follows the last
  `w` up to the next `c`, and prints nothing without a `w`.
* `mem_grepStart`, `starts_append` — the lines `grep "^w"` keeps, where a dot of
  `w` stands for any character.
* `leftmost_inOrder_iff` — `grep "k.*w"` accepts the lines with a `k` and a
  `w` behind it.
-/

namespace Slinux.Shell.Regex

open Slinux.Shell.Text
open Slinux.Shell.Glob

/-! ## Matching -/

/-- A single-character expression. -/
inductive Atom where
  | lit (c : Char)
  | any
  | noneOf (cs : Str)
  deriving Repr, DecidableEq

def Atom.accepts : Atom → Char → Bool
  | .lit c, d => d == c
  | .any, _ => true
  | .noneOf cs, d => !cs.contains d

/-- One item of a flat expression: an atom, or an atom repeated. -/
inductive Item where
  | one (a : Atom)
  | many (a : Atom)
  deriving Repr, DecidableEq

/-- A flat basic regular expression. -/
abbrev Bre := List Item

/-- Every match at the start of a text, as the pieces taken by the items. -/
def splits : Bre → Str → List (List Str)
  | [], _ => [[]]
  | .one a :: p, s => match s with
      | [] => []
      | c :: s => if a.accepts c then (splits p s).map ([c] :: ·) else []
  | .many a :: p, s =>
      (lengthsDown (s.takeWhile a.accepts).length).flatMap
        (fun k => (splits p (s.drop k)).map (s.take k :: ·))

/-- The length of a match. -/
def total (pieces : List Str) : Nat := pieces.flatten.length

/-- The longest match, the first one among equals. -/
def longest : List (List Str) → Option (List Str)
  | [] => none
  | m :: ms => match longest ms with
      | none => some m
      | some b => if total m < total b then some b else some m

/-- The expression `before\(group\)behind` of a substitution. -/
structure Subst where
  before : Bre
  group : Bre
  behind : Bre
  deriving Repr, DecidableEq

def Subst.bre (p : Subst) : Bre := p.before ++ p.group ++ p.behind

/-- What the group took in a match. -/
def Subst.captured (p : Subst) (pieces : List Str) : Str :=
  ((pieces.drop p.before.length).take p.group.length).flatten

/-- The leftmost start at which the expression matches, with the match the
tool takes there. -/
def leftmost (p : Bre) : Str → Nat → Option (Nat × List Str)
  | [], i => (longest (splits p [])).map (fun m => (i, m))
  | c :: s, i => match longest (splits p (c :: s)) with
      | some m => some (i, m)
      | none => leftmost p s (i + 1)

/-- `sed -n 's/before\(group\)behind/\1/p'` on one line. -/
def sedPrint (p : Subst) (line : Str) : Option Str :=
  (leftmost p.bre line 0).map (fun r =>
    line.take r.1 ++ p.captured r.2 ++ line.drop (r.1 + total r.2))

/-! ## A text as an expression -/

/-- An unquoted character of an expression: a dot stands for any character. -/
def unquoted (c : Char) : Atom := if c == '.' then .any else .lit c

/-- `^w` matches the line, for a text `w` without special characters but
dots. -/
def starts (w line : Str) : Bool :=
  !(splits (w.map (fun c => Item.one (unquoted c))) line).isEmpty

/-- `grep "^w"`. -/
def grepStart (w : Str) (lines : List Str) : List Str :=
  lines.filter (starts w)

theorem mem_grepStart (w : Str) (lines : List Str) (l : Str) :
    l ∈ grepStart w lines ↔ l ∈ lines ∧ starts w l = true :=
  List.mem_filter

@[simp] theorem starts_nil (line : Str) : starts [] line = true := rfl

@[simp] theorem starts_cons_nil (c : Char) (w : Str) : starts (c :: w) [] = false := rfl

@[simp] theorem starts_cons_cons (c d : Char) (w line : Str) :
    starts (c :: w) (d :: line) = ((c == '.' || d == c) && starts w line) := by
  unfold starts unquoted
  rw [List.map_cons, splits]
  by_cases hc : c == '.'
  · simp [hc, Atom.accepts]
  · by_cases hd : d == c
    · simp [hc, hd, Atom.accepts]
    · simp [hc, hd, Atom.accepts]

/-- A text matches itself, so only what is behind it counts. -/
theorem starts_append (w u line : Str) : starts (w ++ u) (w ++ line) = starts u line := by
  induction w with
  | nil => rfl
  | cons c w ih => simp [ih]

/-- A text without dots matches nothing but itself. -/
theorem prefix_of_starts {w u line : Str} (hdot : '.' ∉ w) (h : starts (w ++ u) line = true) :
    w <+: line := by
  induction w generalizing line with
  | nil => exact List.nil_prefix
  | cons c w ih =>
      rw [List.mem_cons, not_or] at hdot
      cases line with
      | nil => cases h
      | cons d line =>
          rw [List.cons_append, starts_cons_cons, Bool.and_eq_true, Bool.or_eq_true, beq_iff_eq,
            beq_iff_eq] at h
          obtain ⟨hc, hrest⟩ := h
          rcases hc with hc | hc
          · exact absurd hc.symm hdot.1
          · rw [hc, List.cons_prefix_cons]
            exact ⟨rfl, ih hdot.2 hrest⟩

/-! ## Enumerations -/

theorem longest_cons_of_le {m : List Str} {ms : List (List Str)}
    (h : ∀ b ∈ ms, total b ≤ total m) : longest (m :: ms) = some m := by
  have hmem : ∀ (ms : List (List Str)) (b : List Str), longest ms = some b → b ∈ ms := by
    intro ms
    induction ms with
    | nil => intro b hb; simp [longest] at hb
    | cons x xs ih =>
        intro b hb
        simp only [longest] at hb
        split at hb
        · simp_all
        · rename_i b' hb'
          split at hb
          · exact List.mem_cons_of_mem _ (ih b (by simpa [hb'] using hb))
          · simp_all
  simp only [longest]
  split
  · rfl
  · rename_i b hb
    rw [if_neg (by have := h b (hmem ms b hb); omega)]

/-- No match is longer than the text. -/
theorem total_le_of_mem_splits (p : Bre) :
    ∀ (s : Str), ∀ m ∈ splits p s, total m ≤ s.length := by
  induction p with
  | nil => intro s m hm; simp [splits] at hm; simp [hm, total]
  | cons it p ih =>
      intro s m hm
      cases it with
      | one a =>
          cases s with
          | nil => simp [splits] at hm
          | cons c s =>
              simp only [splits] at hm
              split at hm
              · obtain ⟨m', hm', rfl⟩ := List.mem_map.mp hm
                have := ih s m' hm'
                simp only [total, List.flatten_cons, List.length_append, List.length_cons,
                  List.length_nil] at this ⊢
                omega
              · simp at hm
      | many a =>
          simp only [splits, List.mem_flatMap, List.mem_map] at hm
          obtain ⟨k, _, m', hm', rfl⟩ := hm
          have := ih (s.drop k) m' hm'
          simp only [total, List.flatten_cons, List.length_append, List.length_take,
            List.length_drop] at this ⊢
          omega

/-- The first match of a downward scan comes from the largest length that has
one. -/
theorem flatMap_lengthsDown {α : Type} {n k : Nat} {f : Nat → List α} {x : α} {xs : List α}
    (hk : k ≤ n) (hf : f k = x :: xs) (hmax : ∀ j, k < j → j ≤ n → f j = []) :
    ∃ ys, (lengthsDown n).flatMap f = x :: ys := by
  induction n with
  | zero =>
      obtain rfl : k = 0 := by omega
      exact ⟨xs, by simp [lengthsDown, hf]⟩
  | succ n ih =>
      have hdown : lengthsDown (n + 1) = (n + 1) :: lengthsDown n := by
        simp [lengthsDown, List.range_succ (n := n + 1)]
      rw [hdown, List.flatMap_cons]
      by_cases hkn : k = n + 1
      · subst hkn
        exact ⟨xs ++ (lengthsDown n).flatMap f, by rw [hf, List.cons_append]⟩
      · rw [hmax (n + 1) (by omega) (Nat.le_refl _), List.nil_append]
        exact ih (by omega) (fun j hj hjn => hmax j hj (by omega))

theorem leftmost_of_longest {p : Bre} {s : Str} {m : List Str}
    (h : longest (splits p s) = some m) (i : Nat) : leftmost p s i = some (i, m) := by
  cases s with
  | nil => simp [leftmost, h]
  | cons c s => simp [leftmost, h]

theorem leftmost_eq_none {p : Bre} {s : Str} (h : ∀ t, t <:+ s → splits p t = []) :
    ∀ i, leftmost p s i = none := by
  induction s with
  | nil => intro i; simp [leftmost, h [] (List.suffix_refl _), longest]
  | cons c s ih =>
      intro i
      simp only [leftmost, h (c :: s) (List.suffix_refl _), longest]
      exact ih (fun t ht => h t (ht.trans (List.suffix_cons c s))) (i + 1)

/-! ## The extraction idiom -/

/-- The items that match exactly `w`. -/
def litItems (w : Str) : Bre := w.map (fun x => .one (.lit x))

/-- `s/.*w\([^c]*\).*/\1/`. -/
def extract (w : Str) (c : Char) : Subst where
  before := .many .any :: litItems w
  group := [.many (.noneOf [c])]
  behind := [.many .any]

/-- The part of a text in front of the first `c`. -/
def upTo (c : Char) (t : Str) : Str := t.takeWhile (fun d => d != c)

private theorem takeWhile_any (t : Str) : t.takeWhile Atom.any.accepts = t := by
  induction t with
  | nil => rfl
  | cons c t ih =>
      rw [List.takeWhile_cons]
      simp only [Atom.accepts, if_true, List.cons.injEq, true_and]
      exact ih

private theorem takeWhile_noneOf (c : Char) (t : Str) :
    t.takeWhile (Atom.noneOf [c]).accepts = upTo c t := by
  have hfun : (Atom.noneOf [c]).accepts = fun d => d != c := by
    funext d
    by_cases h : d = c <;> simp [Atom.accepts, h]
  rw [hfun, upTo]

/-- A trailing `.*` takes everything. -/
private theorem splits_any (t : Str) : ∃ ys, splits [.many .any] t = [t] :: ys := by
  have hlast : (splits [] (t.drop t.length)).map (t.take t.length :: ·) = [[t]] := by
    simp [splits]
  rw [splits, takeWhile_any]
  exact flatMap_lengthsDown (Nat.le_refl _) hlast (fun j h h' => absurd h (by omega))

/-- `\([^c]*\).*` gives the group all it can take. -/
private theorem splits_group (c : Char) (t : Str) :
    ∃ ys, splits [.many (.noneOf [c]), .many .any] t
      = [upTo c t, t.drop (upTo c t).length] :: ys := by
  rw [splits, takeWhile_noneOf]
  obtain ⟨xs, hxs⟩ := splits_any (t.drop (upTo c t).length)
  have htake : t.take (upTo c t).length = upTo c t :=
    (List.prefix_iff_eq_take.mp (List.takeWhile_prefix _)).symm
  have hall : (splits [.many .any] (t.drop (upTo c t).length)).map
      (t.take (upTo c t).length :: ·)
        = [upTo c t, t.drop (upTo c t).length] :: xs.map (upTo c t :: ·) := by
    rw [hxs, List.map_cons, htake]
  exact flatMap_lengthsDown (Nat.le_refl _) hall (fun j h h' => absurd h (by omega))

/-- A literal in front matches at the start or not at all. -/
private theorem splits_lits (w : Str) (q : Bre) (t : Str) :
    splits (litItems w ++ q) t =
      if w <+: t then (splits q (t.drop w.length)).map (w.map (fun x => [x]) ++ ·) else [] := by
  induction w generalizing t with
  | nil => simp [litItems]
  | cons x w ih =>
      cases t with
      | nil => simp [litItems, splits]
      | cons d t =>
          have hih := ih t
          simp only [litItems] at hih
          simp only [litItems, List.map_cons, List.cons_append, splits, Atom.accepts,
            beq_iff_eq, hih, List.cons_prefix_cons, List.length_cons, List.drop_succ_cons]
          by_cases hd : d = x
          · subst hd
            by_cases hw : w <+: t
            · simp [hw, Function.comp_def]
            · simp [hw]
          · simp [hd, Ne.symm hd]

private theorem flatten_singletons (w : Str) : (w.map (fun x => [x])).flatten = w := by
  induction w with
  | nil => rfl
  | cons x w ih => rw [List.map_cons, List.flatten_cons, ih, List.singleton_append]

private theorem upTo_append_drop (c : Char) (b : Str) :
    upTo c b ++ b.drop (upTo c b).length = b := by
  have hpre : upTo c b = b.take (upTo c b).length :=
    List.prefix_iff_eq_take.mp (List.takeWhile_prefix _)
  nth_rewrite 1 [hpre]
  exact List.take_append_drop _ b

/-- The match `sed` takes when the word occurs. -/
private theorem longest_extract {w s b : Str} {c : Char} (h : afterLast? w s = some b) :
    ∃ a, s = a ++ w ++ b ∧ longest (splits (extract w c).bre s)
      = some (a :: (w.map (fun x => [x]) ++ [upTo c b, b.drop (upTo c b).length])) := by
  obtain ⟨a, rfl, hlast⟩ := afterLast?_spec h
  refine ⟨a, rfl, ?_⟩
  have hbre : (extract w c).bre
      = .many .any :: (litItems w ++ [.many (.noneOf [c]), .many .any]) := by
    simp [Subst.bre, extract]
  obtain ⟨xs, hxs⟩ := splits_group c b
  have hfirst : ∃ ys, splits (extract w c).bre (a ++ w ++ b)
      = (a :: (w.map (fun x => [x]) ++ [upTo c b, b.drop (upTo c b).length])) :: ys := by
    rw [hbre, splits, takeWhile_any]
    have hdrop : (a ++ w ++ b).drop a.length = w ++ b := by
      rw [List.append_assoc, List.drop_left]
    have htake : (a ++ w ++ b).take a.length = a := by
      rw [List.append_assoc, List.take_left]
    have hlastOcc : (splits (litItems w ++ [.many (.noneOf [c]), .many .any])
        ((a ++ w ++ b).drop a.length)).map ((a ++ w ++ b).take a.length :: ·)
          = (a :: (w.map (fun x => [x]) ++ [upTo c b, b.drop (upTo c b).length])) ::
            (xs.map (w.map (fun x => [x]) ++ ·)).map (a :: ·) := by
      rw [hdrop, splits_lits, if_pos ⟨b, rfl⟩, List.drop_left, hxs, htake]
      rfl
    refine flatMap_lengthsDown (by simp) hlastOcc ?_
    intro j hj hjn
    rw [splits_lits, if_neg, List.map_nil]
    rintro ⟨t, ht⟩
    -- an occurrence that starts later would also end later
    have hlen := congrArg List.length ht
    simp only [List.length_append, List.length_drop] at hlen hjn
    refine hlast (j + w.length) (by simp; omega) (by simp; omega) ?_
    rw [List.take_add, ← ht, List.take_left]
    exact List.suffix_append _ _
  obtain ⟨ys, hys⟩ := hfirst
  rw [hys]
  refine longest_cons_of_le (fun m hm => ?_)
  have hle := total_le_of_mem_splits (extract w c).bre (a ++ w ++ b) m
    (by rw [hys]; exact List.mem_cons_of_mem _ hm)
  have hall : ((a :: (w.map (fun x => [x]) ++ [upTo c b, b.drop (upTo c b).length])).flatten)
      = a ++ w ++ b := by
    simp only [List.flatten_cons, List.flatten_append, flatten_singletons, List.flatten_nil,
      List.append_nil, upTo_append_drop, List.append_assoc]
  rw [total.eq_1 (a :: _), hall]
  exact hle

/-- `sed -n 's/.*w\([^c]*\).*/\1/p'` prints what follows the last `w` up to
the next `c`; without a `w` it prints nothing. -/
theorem sedPrint_extract (w : Str) (c : Char) (line : Str) :
    sedPrint (extract w c) line = (afterLast? w line).map (upTo c) := by
  cases h : afterLast? w line with
  | none =>
      have hno := (afterLast?_eq_none_iff w line).mp h
      have hnone : leftmost (extract w c).bre line 0 = none := by
        refine leftmost_eq_none (fun t ht => ?_) 0
        have hbre : (extract w c).bre
            = .many .any :: (litItems w ++ [.many (.noneOf [c]), .many .any]) := by
          simp [Subst.bre, extract]
        rw [hbre, splits, List.flatMap_eq_nil_iff]
        intro k _
        rw [splits_lits, if_neg, List.map_nil]
        intro hw
        exact hno (hw.isInfix.trans ((List.drop_suffix k t).isInfix.trans ht.isInfix))
      rw [sedPrint, hnone]
      rfl
  | some b =>
      obtain ⟨a, rfl, hlong⟩ := longest_extract (c := c) h
      have htotal : total (a :: (w.map (fun x => [x]) ++ [upTo c b, b.drop (upTo c b).length]))
          = (a ++ w ++ b).length := by
        rw [total]
        simp only [List.flatten_cons, List.flatten_append, flatten_singletons, List.flatten_nil,
          List.append_nil, upTo_append_drop, List.append_assoc]
      have hcap : (extract w c).captured
          (a :: (w.map (fun x => [x]) ++ [upTo c b, b.drop (upTo c b).length])) = upTo c b := by
        have hdrop : (w.map (fun x => [x]) ++ [upTo c b, b.drop (upTo c b).length]).drop w.length
            = [upTo c b, b.drop (upTo c b).length] := by
          rw [List.drop_left' (by simp)]
        simp only [Subst.captured, extract, litItems, List.length_cons, List.length_map,
          List.drop_succ_cons, hdrop]
        simp
      rw [sedPrint, leftmost_of_longest hlong 0, Option.map_some, htotal, hcap, Nat.zero_add,
        List.take_zero, List.nil_append, List.drop_length, List.append_nil, Option.map_some]

/-! ## Two words in order -/

/-- `k.*w`. -/
def inOrder (k w : Str) : Bre := litItems k ++ .many .any :: litItems w

theorem longest_isSome_iff (ms : List (List Str)) : (longest ms).isSome = true ↔ ms ≠ [] := by
  cases ms with
  | nil => exact ⟨fun h => absurd h (by decide), fun h => absurd rfl h⟩
  | cons m ms =>
      refine ⟨fun _ => List.cons_ne_nil m ms, fun _ => ?_⟩
      unfold longest
      split
      · rfl
      · split <;> rfl

/-- A match anywhere is a match at the start of some suffix. -/
theorem leftmost_isSome_iff (p : Bre) (s : Str) :
    ∀ i, (leftmost p s i).isSome = true ↔ ∃ t, t <:+ s ∧ splits p t ≠ [] := by
  induction s with
  | nil =>
      intro i
      unfold leftmost
      rw [Option.isSome_map, longest_isSome_iff]
      constructor
      · intro h
        exact ⟨[], List.suffix_refl _, h⟩
      · intro h
        obtain ⟨t, ht, hne⟩ := h
        rw [List.suffix_nil.mp ht] at hne
        exact hne
  | cons c s ih =>
      intro i
      unfold leftmost
      cases hl : longest (splits p (c :: s)) with
      | some m =>
          have hne : splits p (c :: s) ≠ [] := (longest_isSome_iff _).mp (by rw [hl]; rfl)
          exact ⟨fun _ => ⟨c :: s, List.suffix_refl _, hne⟩, fun _ => rfl⟩
      | none =>
          have hnil : splits p (c :: s) = [] := by
            by_contra hne
            have hsome := (longest_isSome_iff _).mpr hne
            rw [hl] at hsome
            exact absurd hsome (by decide)
          show (leftmost p s (i + 1)).isSome = true ↔ _
          rw [ih (i + 1)]
          constructor
          · intro h
            obtain ⟨t, ht, hne⟩ := h
            exact ⟨t, ht.trans (List.suffix_cons c s), hne⟩
          · intro h
            obtain ⟨t, ht, hne⟩ := h
            rcases List.suffix_cons_iff.mp ht with rfl | ht
            · exact absurd hnil hne
            · exact ⟨t, ht, hne⟩

theorem splits_litItems (w t : Str) : splits (litItems w) t ≠ [] ↔ w <+: t := by
  have h := splits_lits w [] t
  rw [List.append_nil] at h
  rw [h]
  by_cases hw : w <+: t
  · rw [if_pos hw]
    exact ⟨fun _ => hw, fun _ => by simp [splits]⟩
  · rw [if_neg hw]
    exact ⟨fun hne => absurd rfl hne, fun hp => absurd hp hw⟩

/-- **`grep "k.*w"`** accepts the lines with a `k` and a `w` behind it. -/
theorem leftmost_inOrder_iff (k w s : Str) :
    (leftmost (inOrder k w) s 0).isSome = true ↔ ∃ t, k ++ t <:+ s ∧ w <:+: t := by
  have hgap : ∀ t, splits (.many .any :: litItems w) t ≠ [] ↔ w <:+: t := by
    intro t
    rw [splits, takeWhile_any, Ne, List.flatMap_eq_nil_iff]
    constructor
    · intro h
      by_contra hno
      apply h
      intro j _
      rw [List.map_eq_nil_iff]
      by_contra hne
      exact hno (((splits_litItems w _).mp hne).isInfix.trans (List.drop_suffix j t).isInfix)
    · intro h hall
      obtain ⟨a, b, rfl⟩ := h
      have hlen : a.length ∈ lengthsDown (a ++ w ++ b).length := by
        simp only [lengthsDown, List.mem_reverse, List.mem_range, List.length_append]
        omega
      have hzero := hall a.length hlen
      rw [List.map_eq_nil_iff, List.append_assoc, List.drop_left] at hzero
      exact (splits_litItems w _).mpr (List.prefix_append w b) hzero
  rw [leftmost_isSome_iff]
  unfold inOrder
  constructor
  · intro h
    obtain ⟨t, ht, hne⟩ := h
    rw [splits_lits] at hne
    by_cases hk : k <+: t
    · rw [if_pos hk, Ne, List.map_eq_nil_iff] at hne
      obtain ⟨r, rfl⟩ := hk
      rw [List.drop_left] at hne
      exact ⟨r, ht, (hgap r).mp hne⟩
    · rw [if_neg hk] at hne
      exact absurd rfl hne
  · intro h
    obtain ⟨t, ht, hw⟩ := h
    refine ⟨k ++ t, ht, ?_⟩
    rw [splits_lits, if_pos (List.prefix_append k t), List.drop_left, Ne, List.map_eq_nil_iff]
    exact (hgap t).mpr hw

end Slinux.Shell.Regex
