import Slinux.Shell.Text

/-!
# `getpass`: one `read`, one line?

`tools/getpass.c` prompts on standard error, disables the terminal's echo if
standard input is a terminal, reads **once**, restores the terminal, strips
line ends from what it got and prints the rest with one newline.  Its header
promises to "read a line"; what the single `read` call returns is decided by
whoever is at the other end of standard input.

* A terminal delivers at most one line per call.
* A pipe or a file delivers any amount up to the size of the buffer, and a
  call does not stop at a newline.

The model keeps the choice: `readSize` clamps a requested delivery to what
the source can deliver, and a schedule `Nat → Nat` resolves the choice for a
sequence of runs sharing one input.

## Main results

* `main_of_line` — a run whose `read` returns exactly one line prints that
  line.
* `getpass_line_oriented_iff` — `k` runs hand out the first `k` lines one by
  one **iff** each `read` returns exactly one line with its newline.
-/

namespace Slinux.Tools.Getpass

open Slinux.Shell.Text

/-! ## The input side -/

/-- `sizeof(buf) - 1` with `static char buf[512]`. -/
def bufRoom : Nat := 512 - 1

/-- What standard input is connected to. -/
inductive Source where
  | terminal
  | stream
  deriving Repr, DecidableEq

/-- Length of the first line with its newline, or of all input if it is
unterminated. -/
def firstLineSize (input : Str) : Nat :=
  if '\n' ∈ input then (input.takeWhile (fun c => c != '\n')).length + 1 else input.length

/-- The most one `read` of `room` bytes can return. -/
def readLimit (src : Source) (room : Nat) (input : Str) : Nat :=
  match src with
  | .terminal => min room (firstLineSize input)
  | .stream => min room input.length

/-- The number of bytes `read(0, buf, room)` returns when the kernel is
willing to deliver `want`: at least one if there are any, at most the
limit. -/
def readSize (src : Source) (want room : Nat) (input : Str) : Nat :=
  min (max want 1) (readLimit src room input)

/-! ## The program -/

/-- The trailing loop of `main`: drop line ends from the end of the buffer. -/
def stripEol (buf : Str) : Str :=
  (buf.reverse.dropWhile (fun c => c == '\n' || c == '\r')).reverse

/-- What a run leaves behind: exit status, both outputs, the input it did not
read, and the terminal's echo flag. -/
structure Result where
  status : Nat
  stdout : Str
  stderr : Str
  rest : Str
  echo : Bool
  deriving Repr, DecidableEq

/-- The text printed for a successful read of `buf`. -/
def output (buf : Str) : Str := stripEol buf ++ ['\n']

/-- `main`.  `setattrOk` is the outcome of the first `tcsetattr`, which is
only called on a terminal; `echo` is the flag found there. -/
def main (argv : List Str) (src : Source) (setattrOk echo : Bool) (want : Nat)
    (input : Str) : Result :=
  match argv with
  | [_, prompt] =>
      let err := prompt ++ [' ']
      if src = .terminal ∧ setattrOk = false then ⟨1, [], err, input, echo⟩
      else
        let n := readSize src want bufRoom input
        let buf := input.take n
        -- the old attributes are restored before the result is looked at
        if n = 0 then ⟨1, [], err ++ ['\n'], input, echo⟩
        else ⟨0, output buf, err ++ ['\n'], input.drop n, echo⟩
  | _ => ⟨2, [], "usage: getpass prompt\n".toList, input, echo⟩

/-- `k` runs in sequence on one input; run `i` is offered `sched i` bytes. -/
def runs (prompt : Str) (src : Source) (echo : Bool) : (Nat → Nat) → Nat → Str → List Result
  | _, 0, _ => []
  | sched, k + 1, input =>
      let r := main ["getpass".toList, prompt] src true echo (sched 0) input
      r :: runs prompt src echo (fun i => sched (i + 1)) k r.rest

/-! ## One line, one run -/

/-- A line that can be typed: no newline inside, no carriage return, no
NUL. -/
def cleanLine (l : Str) : Prop := '\n' ∉ l ∧ '\r' ∉ l ∧ '\x00' ∉ l

instance (l : Str) : Decidable (cleanLine l) := by
  unfold cleanLine; infer_instance

/-- Only the newline at the end of a clean line is stripped. -/
theorem stripEol_line {l : Str} (h : cleanLine l) : stripEol (l ++ ['\n']) = l := by
  have hlast : ∀ c ∈ l, (c == '\n' || c == '\r') = false := by
    intro c hc
    have h1 : c ≠ '\n' := fun e => h.1 (e ▸ hc)
    have h2 : c ≠ '\r' := fun e => h.2.1 (e ▸ hc)
    simp [h1, h2]
  rw [stripEol, List.reverse_append, List.reverse_singleton, List.singleton_append,
    List.dropWhile_cons]
  simp only [beq_self_eq_true, Bool.true_or, if_true]
  cases hr : l.reverse with
  | nil => simp [List.reverse_eq_nil_iff.mp hr]
  | cons c cs =>
      have hc : c ∈ l := by rw [← List.mem_reverse, hr]; simp
      rw [List.dropWhile_cons]
      simp only [hlast c hc, Bool.false_eq_true, if_false]
      rw [← hr, List.reverse_reverse]

/-- A run whose `read` returns one line with its newline prints that line and
leaves the rest. -/
theorem main_of_line (prompt : Str) (src : Source) (echo : Bool) (want : Nat) (l rest : Str)
    (hl : cleanLine l) (hn : readSize src want bufRoom (l ++ '\n' :: rest) = l.length + 1) :
    main ["getpass".toList, prompt] src true echo want (l ++ '\n' :: rest)
      = ⟨0, l ++ ['\n'], prompt ++ [' '] ++ ['\n'], rest, echo⟩ := by
  have hsplit : l ++ '\n' :: rest = (l ++ ['\n']) ++ rest := by simp
  have hlen : (l ++ ['\n']).length = l.length + 1 := by simp
  simp only [main, hn]
  simp only [Nat.add_eq_zero_iff, Nat.one_ne_zero, and_false, if_false,
    Bool.true_eq_false]
  rw [hsplit, ← hlen, List.take_left, List.drop_left, output, stripEol_line hl]

/-- The first line of a terminal's input. -/
theorem firstLineSize_line {l : Str} (hl : cleanLine l) (rest : Str) :
    firstLineSize (l ++ '\n' :: rest) = l.length + 1 := by
  have hmem : '\n' ∈ l ++ '\n' :: rest := List.mem_append_right l List.mem_cons_self
  have hall : ∀ c ∈ l, (c != '\n') = true := by
    intro c hc
    rw [bne_iff_ne]
    rintro rfl
    exact hl.1 hc
  rw [firstLineSize, if_pos hmem, List.takeWhile_append_of_pos hall, List.takeWhile_cons]
  simp

/-- A terminal hands out a line that fits into the buffer as a whole. -/
theorem readSize_terminal {l : Str} (hl : cleanLine l) (hroom : l.length < bufRoom)
    (rest : Str) : readSize .terminal bufRoom bufRoom (l ++ '\n' :: rest) = l.length + 1 := by
  rw [readSize, readLimit, firstLineSize_line hl]
  omega

/-! ## Sequences of runs -/

/-- What "line-oriented" asks of the first `k` runs on a stream of lines: run
`i` succeeds, prints line `i` and a newline, and leaves exactly the lines
after it unread. -/
def LineOriented (prompt : Str) (src : Source) (echo : Bool) (sched : Nat → Nat)
    (lines : List Str) (k : Nat) : Prop :=
  ∀ i, i < k → ∃ l r, lines[i]? = some l ∧
    (runs prompt src echo sched k (unlines lines))[i]? = some r ∧
    r.status = 0 ∧ r.stdout = l ++ ['\n'] ∧ r.rest = unlines (lines.drop (i + 1))

/-- The `read` of run `i` returns line `i` with its newline and nothing
else. -/
def ReadsOneLine (src : Source) (sched : Nat → Nat) (lines : List Str) (k : Nat) : Prop :=
  ∀ i, i < k → ∃ l, lines[i]? = some l ∧
    readSize src (sched i) bufRoom (unlines (lines.drop i)) = l.length + 1

/-- The first run, and the later ones on what it left. -/
theorem lineOriented_succ (prompt : Str) (src : Source) (echo : Bool) (sched : Nat → Nat)
    (l : Str) (ls : List Str) (k : Nat) :
    LineOriented prompt src echo sched (l :: ls) (k + 1) ↔
      (let r := main ["getpass".toList, prompt] src true echo (sched 0) (unlines (l :: ls))
       r.status = 0 ∧ r.stdout = l ++ ['\n'] ∧ r.rest = unlines ls) ∧
      LineOriented prompt src echo (fun i => sched (i + 1)) ls k := by
  constructor
  · intro h
    obtain ⟨l', r, hl, hr, hst, hout, hrest⟩ := h 0 (Nat.succ_pos k)
    obtain rfl : l = l' := by simpa using hl
    obtain rfl := by simpa [runs] using hr
    refine ⟨⟨hst, hout, hrest⟩, ?_⟩
    intro i hi
    obtain ⟨l', r, hl', hr', hrun⟩ := h (i + 1) (Nat.succ_lt_succ hi)
    refine ⟨l', r, hl', ?_, hrun⟩
    have hrest' : _ = unlines ls := hrest
    rw [← hrest']
    exact hr'
  · rintro ⟨⟨hst, hout, hrest⟩, h⟩ i hi
    cases i with
    | zero => exact ⟨l, _, rfl, rfl, hst, hout, hrest⟩
    | succ i =>
        obtain ⟨l', r, hl', hr', hrun⟩ := h i (Nat.lt_of_succ_lt_succ hi)
        refine ⟨l', r, hl', ?_, hrun⟩
        rw [← hrest] at hr'
        exact hr'

theorem readsOneLine_succ (src : Source) (sched : Nat → Nat) (l : Str) (ls : List Str)
    (k : Nat) :
    ReadsOneLine src sched (l :: ls) (k + 1) ↔
      readSize src (sched 0) bufRoom (unlines (l :: ls)) = l.length + 1 ∧
      ReadsOneLine src (fun i => sched (i + 1)) ls k := by
  constructor
  · intro h
    refine ⟨?_, fun i hi => h (i + 1) (Nat.succ_lt_succ hi)⟩
    obtain ⟨l', hl, hn⟩ := h 0 (Nat.succ_pos k)
    obtain rfl : l = l' := by simpa using hl
    exact hn
  · rintro ⟨h0, h⟩ i hi
    cases i with
    | zero => exact ⟨l, rfl, h0⟩
    | succ i => exact h i (Nat.lt_of_succ_lt_succ hi)

theorem firstLineSize_le (input : Str) : firstLineSize input ≤ input.length := by
  unfold firstLineSize
  split
  · rename_i hmem
    obtain ⟨a, b, rfl, ha⟩ := List.eq_append_cons_of_mem hmem
    have hall : ∀ c ∈ a, (c != '\n') = true := by
      intro c hc
      rw [bne_iff_ne]
      rintro rfl
      exact ha hc
    rw [List.takeWhile_append_of_pos hall, List.takeWhile_cons]
    simp
  · exact Nat.le_refl _

/-- `read` returns no more than there is. -/
theorem readSize_le (src : Source) (want room : Nat) (input : Str) :
    readSize src want room input ≤ input.length := by
  have hlim : readLimit src room input ≤ input.length := by
    cases src with
    | stream => exact Nat.min_le_right _ _
    | terminal => exact Nat.le_trans (Nat.min_le_right _ _) (firstLineSize_le input)
  exact Nat.le_trans (Nat.min_le_right _ _) hlim

/-- A run that leaves exactly the later lines has read exactly one line. -/
theorem readSize_of_rest (prompt : Str) (src : Source) (echo : Bool) (want : Nat) (l rest : Str)
    (hs : (main ["getpass".toList, prompt] src true echo want (l ++ '\n' :: rest)).status = 0)
    (hr : (main ["getpass".toList, prompt] src true echo want (l ++ '\n' :: rest)).rest = rest) :
    readSize src want bufRoom (l ++ '\n' :: rest) = l.length + 1 := by
  have hle := readSize_le src want bufRoom (l ++ '\n' :: rest)
  simp only [main, Bool.true_eq_false, and_false, if_false] at hs hr
  split at hs
  · simp at hs
  · rename_i h0
    rw [if_neg h0] at hr
    have hlen := congrArg List.length hr
    simp only [List.length_drop, List.length_append, List.length_cons] at hlen hle
    omega

/-- **Line orientation.**  `k` runs hand out the first `k` lines one by one
exactly when every `read` returns one whole line. -/
theorem getpass_line_oriented_iff (prompt : Str) (src : Source) (echo : Bool)
    (sched : Nat → Nat) (lines : List Str) (k : Nat)
    (hclean : ∀ l ∈ lines, cleanLine l) (hk : k ≤ lines.length) :
    LineOriented prompt src echo sched lines k ↔ ReadsOneLine src sched lines k := by
  induction k generalizing sched lines with
  | zero => simp [LineOriented, ReadsOneLine]
  | succ k ih =>
      cases lines with
      | nil => simp at hk
      | cons l ls =>
          rw [lineOriented_succ, readsOneLine_succ,
            ih _ ls (fun m hm => hclean m (by simp [hm])) (by simpa using hk)]
          refine and_congr_left (fun _ => ?_)
          constructor
          · rintro ⟨hst, _, hrest⟩
            exact readSize_of_rest prompt src echo (sched 0) l (unlines ls) hst hrest
          · intro hn
            have hmain := main_of_line prompt src echo (sched 0) l (unlines ls)
              (hclean l (by simp)) hn
            simp only [unlines_cons, hmain, and_self]

/-- Two short lines on a terminal that delivers a line at a time. -/
theorem getpass_line_oriented_terminal :
    LineOriented "p".toList .terminal true (fun _ => 511) ["ab".toList, "".toList] 2 :=
  (getpass_line_oriented_iff "p".toList .terminal true (fun _ => 511)
    ["ab".toList, "".toList] 2 (by decide) (by decide)).mpr (by
      intro i hi
      match i, hi with
      | 0, _ => exact ⟨"ab".toList, rfl, by decide⟩
      | 1, _ => exact ⟨"".toList, rfl, by decide⟩)

/-- On a file that is read in one piece the first run swallows both lines. -/
theorem getpass_not_line_oriented_stream :
    ¬ LineOriented "p".toList .stream true (fun _ => 511) ["ab".toList, "cd".toList] 2 := by
  intro h
  obtain ⟨l, r, hl, hr, _, hout, _⟩ := h 0 (by decide)
  have hl' : l = "ab".toList := by simpa using hl.symm
  have hr' : r = main ["getpass".toList, "p".toList] .stream true true 511 "ab\ncd\n".toList := by
    have hrun : (runs "p".toList .stream true (fun _ => 511) 2
        (unlines ["ab".toList, "cd".toList]))[0]? =
        some (main ["getpass".toList, "p".toList] .stream true true 511 "ab\ncd\n".toList) := by
      decide
    rw [hrun] at hr
    exact (Option.some.inj hr).symm
  rw [hl', hr'] at hout
  revert hout
  decide

end Slinux.Tools.Getpass
