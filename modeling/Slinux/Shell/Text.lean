import Mathlib.Data.List.DropRight
import Mathlib.Data.List.Infix

/-!
# Text as the shell sees it

Every script of the distribution is string processing: device names, mount
points, password records and partition dumps are all flat text.  A text is a
list of characters, one character per byte of the C locale the system runs
in.

The module holds the three ways the scripts cut a text into pieces.  Records
of a colon- or newline-separated file are `List.splitOn` from core, which
keeps empty fields, as the consumers of `/etc/passwd` do.  What core lacks is
here: newline-terminated files (`unlines`, `fileLines`), word splitting with
the default `IFS` (`words`), and the last occurrence of a word in a text
(`afterLast?`), which is what a longest-prefix expansion computes.

## Main results

* `fileLines_unlines` — reading back a file of newline-terminated lines gives
  the lines.
* `words_append_blank` — word splitting distributes over a separating blank.
* `afterLast?_append` — the last occurrence is found in any text that ends in
  a part free of the word.
-/

namespace Slinux.Shell.Text

/-- A text: one character per byte. -/
abbrev Str := List Char

/-- Texts are compared character by character.  The instance has a name so that
membership is decided alike whatever a module imports. -/
instance : LawfulBEq Str := inferInstance

/-! ## Newline-terminated files -/

/-- The file whose lines are `ls`, each terminated by a newline. -/
def unlines : List Str → Str
  | [] => []
  | l :: ls => l ++ '\n' :: unlines ls

/-- The lines of a file as `while read -r line` visits them: an unterminated
last line is not visited, because `read` fails on it. -/
def fileLines (s : Str) : List Str :=
  (s.splitOn '\n').dropLast

@[simp] theorem unlines_nil : unlines [] = [] := rfl

@[simp] theorem unlines_cons (l : Str) (ls : List Str) :
    unlines (l :: ls) = l ++ '\n' :: unlines ls := rfl

theorem unlines_append (ls ms : List Str) :
    unlines (ls ++ ms) = unlines ls ++ unlines ms := by
  induction ls with
  | nil => rfl
  | cons l ls ih => simp [ih]

/-- Splitting a newline-terminated file leaves one empty piece at the end. -/
theorem splitOn_unlines (ls : List Str) (h : ∀ l ∈ ls, '\n' ∉ l) :
    (unlines ls).splitOn '\n' = ls ++ [[]] := by
  induction ls with
  | nil => rfl
  | cons l ls ih =>
      rw [unlines_cons, List.splitOn_append_cons_self_of_not_mem (h l (by simp)),
        ih (fun m hm => h m (by simp [hm])), List.cons_append]

/-- The first line of a file, and the rest. -/
theorem fileLines_cons {l : Str} (h : '\n' ∉ l) (s : Str) :
    fileLines (l ++ '\n' :: s) = l :: fileLines s := by
  rw [fileLines, List.splitOn_append_cons_self_of_not_mem h,
    List.dropLast_cons_of_ne_nil (List.splitOn_ne_nil _ _)]
  rfl

/-- A file of newline-terminated lines reads back as its lines. -/
theorem fileLines_unlines (ls : List Str) (h : ∀ l ∈ ls, '\n' ∉ l) :
    fileLines (unlines ls) = ls := by
  rw [fileLines, splitOn_unlines ls h, List.dropLast_concat]

/-! ## Word splitting -/

/-- The characters of the default `IFS`. -/
def isBlank (c : Char) : Bool := c == ' ' || c == '\t' || c == '\n'

/-- Field splitting of an unquoted expansion under the default `IFS`:
maximal runs of non-blank characters. -/
def words (s : Str) : List Str :=
  (s.splitOnP isBlank).filter (fun w => !w.isEmpty)

/-- A separating blank splits the words on its two sides. -/
theorem words_append_blank (a b : Str) {c : Char} (hc : isBlank c = true) :
    words (a ++ c :: b) = words a ++ words b := by
  simp only [words, List.splitOnP_append_cons a b hc, List.filter_append]

/-- A non-empty text without blanks is one word. -/
theorem words_eq_singleton {w : Str} (hne : w ≠ []) (h : ∀ c ∈ w, isBlank c = false) :
    words w = [w] := by
  rw [words, List.splitOnP_eq_singleton h]
  cases w with
  | nil => exact absurd rfl hne
  | cons c cs => rfl

/-- What `read -r x` assigns for a line under the default `IFS`. -/
def trim (s : Str) : Str := (s.dropWhile isBlank).rdropWhile isBlank

/-- A text without blanks is assigned as it is. -/
theorem trim_of_noBlank {s : Str} (h : ∀ c ∈ s, isBlank c = false) : trim s = s := by
  rw [trim, List.dropWhile_eq_self_iff.mpr, List.rdropWhile_eq_self_iff.mpr]
  · intro hne hlast
    exact absurd hlast (by rw [h _ (List.getLast_mem hne)]; decide)
  · intro hpos hhead
    exact absurd hhead (by rw [h _ (List.getElem_mem hpos)]; decide)

/-! ## Occurrences of a word -/

/-- A word without the character `c` does not extend past a `c`. -/
theorem prefix_of_prefix_append_cons {w a b : Str} {c : Char} (hc : c ∉ w)
    (h : w <+: a ++ c :: b) : w <+: a := by
  induction a generalizing w with
  | nil =>
      cases w with
      | nil => exact List.nil_prefix
      | cons x w =>
          obtain ⟨rfl, _⟩ := List.cons_prefix_cons.mp h
          exact absurd (List.mem_cons_self ..) hc
  | cons y a ih =>
      cases w with
      | nil => exact List.nil_prefix
      | cons x w =>
          obtain ⟨rfl, hw⟩ := List.cons_prefix_cons.mp h
          exact List.cons_prefix_cons.mpr ⟨rfl, ih (fun hm => hc (List.mem_cons_of_mem x hm)) hw⟩

/-- A word without the character `c` occurs on one side of a `c`. -/
theorem infix_append_cons {w a b : Str} {c : Char} (hc : c ∉ w)
    (h : w <:+: a ++ c :: b) : w <:+: a ∨ w <:+: b := by
  induction a with
  | nil =>
      rcases List.infix_cons_iff.mp h with hp | hi
      · exact Or.inl (prefix_of_prefix_append_cons (a := []) hc hp).isInfix
      · exact Or.inr hi
  | cons y a ih =>
      rcases List.infix_cons_iff.mp h with hp | hi
      · exact Or.inl (prefix_of_prefix_append_cons (a := y :: a) hc hp).isInfix
      · rcases ih hi with ha | hb
        · exact Or.inl (ha.trans (List.suffix_cons y a).isInfix)
        · exact Or.inr hb

/-- A word that ends in a character which a text lacks does not end inside
that text. -/
theorem infix_of_infix_append {w s t : Str} {e : Char} (he : e ∉ t)
    (h : w ++ [e] <:+: s ++ t) : w ++ [e] <:+: s := by
  obtain ⟨x, y, hxy⟩ := h
  rcases List.append_eq_append_iff.mp hxy with ⟨k, hs, _⟩ | ⟨k, hs, ht⟩
  · exact ⟨x, k, hs.symm⟩
  · rcases List.eq_nil_or_concat k with rfl | ⟨k', e', rfl⟩
    · exact ⟨x, [], by simpa using hs⟩
    · have hlast := congrArg List.getLast? hs
      simp only [List.concat_eq_append, ← List.append_assoc, List.getLast?_append,
        List.getLast?_singleton, Option.some_or, Option.some.injEq] at hlast
      subst hlast
      exact absurd (ht ▸ by simp) he

/-! ## The last occurrence of a word -/

/-- What follows the last occurrence of `w` in a text, if there is one. -/
def afterLast? (w : Str) : Str → Option Str
  | [] => if w = [] then some [] else none
  | c :: s =>
      match afterLast? w s with
      | some b => some b
      | none => if w <+: c :: s then some ((c :: s).drop w.length) else none

/-- There is a last occurrence exactly when there is an occurrence. -/
theorem afterLast?_eq_none_iff (w s : Str) :
    afterLast? w s = none ↔ ¬ w <:+: s := by
  induction s with
  | nil =>
      simp only [afterLast?, List.infix_nil]
      split <;> simp_all
  | cons c s ih =>
      simp only [afterLast?, List.infix_cons_iff, not_or]
      cases h : afterLast? w s with
      | some b =>
          have : w <:+: s := by
            by_contra hn
            simp [ih.mpr hn] at h
          simp [this]
      | none =>
          have hn := ih.mp h
          by_cases hp : w <+: c :: s <;> simp [hp, hn]

/-- A part in front of an occurrence does not change what is last. -/
theorem afterLast?_append_of_infix (w a s : Str) (h : w <:+: s) :
    afterLast? w (a ++ s) = afterLast? w s := by
  induction a with
  | nil => rfl
  | cons c a ih =>
      have hs : ∃ b, afterLast? w s = some b := by
        cases hb : afterLast? w s with
        | some b => exact ⟨b, rfl⟩
        | none => exact absurd h ((afterLast?_eq_none_iff w s).mp hb)
      obtain ⟨b, hb⟩ := hs
      simp only [List.cons_append, afterLast?, ih, hb]

/-- The occurrence in front of a part that neither holds the word nor lets it
straddle the border is the last one. -/
theorem afterLast?_append (w a b : Str) (hw : w ≠ []) (hb : ¬ w <:+: w.tail ++ b) :
    afterLast? w (a ++ w ++ b) = some b := by
  rw [List.append_assoc, afterLast?_append_of_infix w a (w ++ b) ⟨[], b, by simp⟩]
  obtain ⟨c, cs, rfl⟩ := List.exists_cons_of_ne_nil hw
  have hnone := (afterLast?_eq_none_iff (c :: cs) (cs ++ b)).mpr hb
  simp only [List.cons_append, afterLast?, hnone]
  rw [if_pos ⟨b, rfl⟩, ← List.cons_append, List.drop_left]

/-- A part behind a character that the word lacks does not change what is last
either, if the word does not occur in it. -/
theorem afterLast?_append_cons {w b : Str} {c : Char} (hc : c ∉ w) (hb : ¬ w <:+: b) :
    ∀ {a : Str}, w <:+: a →
      afterLast? w (a ++ c :: b) = (afterLast? w a).map (fun t => t ++ c :: b) := by
  intro a
  induction a with
  | nil =>
      intro h
      rw [List.infix_nil.mp h] at hb
      exact absurd (List.nil_infix) hb
  | cons d a ih =>
      intro h
      by_cases ha : w <:+: a
      · have hin : ∃ t, afterLast? w a = some t := by
          cases hl : afterLast? w a with
          | some t => exact ⟨t, rfl⟩
          | none => exact absurd ha ((afterLast?_eq_none_iff w a).mp hl)
        obtain ⟨t, ht⟩ := hin
        have hih := ih ha
        rw [ht] at hih
        simp only [List.cons_append, afterLast?, hih, ht, Option.map_some]
      · have hpre : w <+: d :: a := (List.infix_cons_iff.mp h).resolve_right ha
        have hnone : afterLast? w (a ++ c :: b) = none := by
          rw [afterLast?_eq_none_iff]
          intro hin
          rcases infix_append_cons hc hin with hin | hin
          · exact ha hin
          · exact hb hin
        have hnone' : afterLast? w a = none := (afterLast?_eq_none_iff w a).mpr ha
        have hlong : w <+: d :: (a ++ c :: b) := hpre.trans (List.prefix_append (d :: a) _)
        simp only [List.cons_append, afterLast?, hnone, hnone', if_pos hlong, if_pos hpre,
          Option.map_some, Option.some.injEq]
        rw [← List.cons_append, List.drop_append_of_le_length hpre.length_le]

/-- A word that ends a longer text ends it without the first character. -/
theorem suffix_of_suffix_cons {w s : Str} {c : Char} (h : w <:+ c :: s)
    (hlen : w.length ≤ s.length) : w <:+ s := by
  rcases List.suffix_cons_iff.mp h with rfl | h
  · exact absurd hlen (by simp)
  · exact h

/-- What `afterLast?` returns follows an occurrence, and no later position
ends another one. -/
theorem afterLast?_spec {w s b : Str} (h : afterLast? w s = some b) :
    ∃ a, s = a ++ w ++ b ∧
      ∀ j, (a ++ w).length < j → j ≤ s.length → ¬ w <:+ s.take j := by
  induction s generalizing b with
  | nil =>
      simp only [afterLast?] at h
      split at h
      · rename_i hw
        obtain rfl : b = [] := by simpa using h.symm
        exact ⟨[], by simp [hw], fun j hj hjs => absurd hj (by simp at hjs; omega)⟩
      · simp at h
  | cons c s ih =>
      simp only [afterLast?] at h
      cases hs : afterLast? w s with
      | some b' =>
          rw [hs] at h
          obtain rfl : b' = b := by simpa using h
          obtain ⟨a, hsplit, hlast⟩ := ih hs
          refine ⟨c :: a, by simp [hsplit], ?_⟩
          intro j hj hjs hsuf
          obtain ⟨i, rfl⟩ : ∃ i, j = i + 1 := ⟨j - 1, by simp at hj; omega⟩
          simp only [List.cons_append, List.length_cons, List.length_append] at hj hjs
          refine hlast i (by simp; omega) (by omega) (suffix_of_suffix_cons hsuf ?_)
          rw [List.length_take]
          omega
      | none =>
          simp only [hs, Option.ite_none_right_eq_some, Option.some.injEq] at h
          obtain ⟨⟨t, ht⟩, hdrop⟩ := h
          obtain rfl : t = b := by
            rw [← ht, List.drop_left] at hdrop
            exact hdrop
          refine ⟨[], by simpa using ht.symm, ?_⟩
          intro j hj hjs hsuf
          obtain ⟨i, rfl⟩ : ∃ i, j = i + 1 := ⟨j - 1, by simp at hj; omega⟩
          simp only [List.nil_append, List.length_cons] at hj hjs
          have hin : w <:+ s.take i :=
            suffix_of_suffix_cons hsuf (by rw [List.length_take]; omega)
          exact (afterLast?_eq_none_iff w s).mp hs
            (hin.isInfix.trans (List.take_prefix i s).isInfix)

end Slinux.Shell.Text
