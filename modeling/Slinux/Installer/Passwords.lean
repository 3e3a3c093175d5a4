import Slinux.Installer.Smooth

/-!
# The password prompt

`readpass` asks until it has a line that is long enough, then asks once more
and compares.  The test of the length is a shell pattern on its decimal text,
`[89] | 1?`, which the prompt announces as "min 8 chars".

The dialogue is stated once, as a function of the test: the commands it runs
and how it ends.  The program follows the dialogue with the pattern as test;
the announcement describes the dialogue with "at least eight characters".

## Main results

* `longEnough_iff` — the lengths the pattern accepts.
* `readpass_run` — a run of `readpass` is the dialogue with the pattern.
* `readpass_prompts_iff` — when it is the announced dialogue.
-/

namespace Slinux.Installer.Passwords

open Slinux.Shell.Text
open Slinux.Shell.Glob
open Slinux.Shell.Script
open Slinux.Disk.Name
open Slinux.Installer.System
open Slinux.Installer.Script
open Slinux.Installer.Smooth

/-! ## The pattern -/

/-- The pattern has at most two characters, so a number it accepts is below
100. -/
theorem lt_of_longEnough {pw : Str} (h : longEnough pw = true) : pw.length < 100 := by
  have hlen : (decimal pw.length).length ≤ 2 := by
    unfold longEnough at h
    generalize decimal pw.length = s at h
    match s with
    | [] => exact Nat.zero_le 2
    | [_] => exact Nat.le_succ 1
    | [_, _] => exact Nat.le_refl 2
    | a :: b :: c :: t => simp [caseArm, globMatch] at h
  exact (Nat.length_toDigits_le_iff (by decide) (by decide)).mp hlen

/-- **The lengths the pattern accepts** are those from 8 to 19. -/
theorem longEnough_iff (pw : Str) : longEnough pw = true ↔ 8 ≤ pw.length ∧ pw.length ≤ 19 := by
  have hsmall : ∀ n < 100, caseArm [[.bracket [('8', '8'), ('9', '9')]], [.lit '1', .any]]
      (decimal n) = true ↔ 8 ≤ n ∧ n ≤ 19 := by decide +kernel
  constructor
  · intro h
    exact (hsmall pw.length (lt_of_longEnough h)).mp h
  · intro h
    exact (hsmall pw.length (by omega)).mpr h

/-! ## The dialogue -/

/-- What a dialogue does: its commands, and how it comes out. -/
abbrev Dialogue := List Act × Outcome (Str × List Str)

/-- The dialogue with further commands in front. -/
def Dialogue.after (d : Dialogue) (acts : List Act) : Dialogue := (acts ++ d.1, d.2)

/-- The first prompt. -/
def ask (who : Str) (line : Option Str) : Act :=
  .getpass (who ++ " password (min 8 chars):".toList) line

/-- The second prompt, for the accepted line `pw`. -/
def confirmation (pw : Str) (answers : List Str) : Dialogue :=
  let again : Act := .getpass "repeat password:".toList answers.head?
  match answers with
  | [] => ([again], .ended (.exited 1))
  | l :: rest =>
      if pw = l then ([again], .done (pw, rest))
      else ([again, .say "passwords differ".toList], .ended (.exited 1))

/-- The whole dialogue, where `long` accepts a line. -/
def dialogue (long : Str → Bool) (who : Str) : List Str → Dialogue
  | [] => ([ask who none], .ended (.exited 1))
  | l :: answers =>
      if long l then (confirmation l answers).after [ask who (some l)]
      else (dialogue long who answers).after
        [ask who (some l), .say "password too short".toList]

/-- The announced test. -/
def atLeastEight (pw : Str) : Bool := decide (8 ≤ pw.length)

/-- The commands of a run, and how it comes out. -/
def report (r : Run World Act Decision (Str × List Str)) : Dialogue :=
  (r.trace.map Event.act, r.outcome)

theorem report_cons (e : Event World Act Decision) (r : Run World Act Decision (Str × List Str)) :
    report (r.cons e) = (report r).after [e.act] := rfl

theorem after_inj {d e : Dialogue} {acts : List Act} (h : d.after acts = e.after acts) : d = e := by
  obtain ⟨hacts, houtcome⟩ := Prod.mk.inj h
  exact Prod.ext (List.append_cancel_left hacts) houtcome

/-! ## The program -/

section Run

variable {O : Nat → Act → Decision} (hO : Calm O)

include hO

/-- The second prompt. -/
theorem repeatPass_run (pw : Str) (answers : List Str) (n : Nat) (w : World) :
    report (go machine O (repeatPass pw answers) n w) = confirmation pw answers := by
  show report (go machine O (.step (.getpass "repeat password:".toList answers.head?) _) n w) = _
  cases answers with
  | nil =>
      rw [go_step_failed hO rfl rfl]
      rfl
  | cons l rest =>
      rw [List.head?_cons, go_step_perform hO rfl rfl, report_cons]
      show (report (go machine O (if pw = l then .ret (pw, rest) else
        .step (.say "passwords differ".toList) _) (n + 1) w)).after [_] = _
      unfold confirmation
      by_cases h : pw = l
      · rw [if_pos h]
        simp only [if_pos h]
        rfl
      · rw [if_neg h, go_step_perform hO rfl rfl]
        simp only [if_neg h]
        rfl

/-- **A run of `readpass` is the dialogue with the pattern as test.** -/
theorem readpass_run (who : Str) (answers : List Str) :
    ∀ (n : Nat) (w : World),
      report (go machine O (readpass who answers) n w) = dialogue longEnough who answers := by
  induction answers with
  | nil =>
      intro n w
      show report (go machine O (.step (ask who none) _) n w) = _
      rw [go_step_failed hO rfl rfl]
      rfl
  | cons l answers ih =>
      intro n w
      show report (go machine O (.step (ask who (some l)) _) n w) = _
      rw [go_step_perform hO rfl rfl, report_cons]
      show (report (go machine O (if longEnough l then repeatPass l answers else
        .step (.say "password too short".toList) _) (n + 1) w)).after [_] = _
      unfold dialogue
      by_cases h : longEnough l = true
      · rw [if_pos h, if_pos h, repeatPass_run hO]
        rfl
      · rw [if_neg h, if_neg h, go_step_perform hO rfl rfl, report_cons]
        show ((report (go machine O (readpass who answers) (n + 1 + 1) _)).after [_]).after [_] = _
        rw [ih]
        rfl

/-- **The password prompt.**  A run of `readpass` is the announced dialogue
exactly if the first line of at least eight characters has at most 19. -/
theorem readpass_prompts_iff (who : Str) (answers : List Str) (n : Nat) (w : World) :
    report (go machine O (readpass who answers) n w) = dialogue atLeastEight who answers ↔
      ∀ pw, answers.find? atLeastEight = some pw → pw.length ≤ 19 := by
  rw [readpass_run hO]
  induction answers with
  | nil => exact ⟨fun _ pw h => absurd h (by simp), fun _ => rfl⟩
  | cons l answers ih =>
      unfold dialogue
      by_cases h8 : 8 ≤ l.length
      · have hlong : atLeastEight l = true := decide_eq_true h8
        rw [List.find?_cons_of_pos hlong, if_pos hlong]
        by_cases h19 : l.length ≤ 19
        · rw [if_pos ((longEnough_iff l).mpr ⟨h8, h19⟩)]
          constructor
          · intro _ pw hpw
            rw [← Option.some.inj hpw]
            exact h19
          · intro _
            rfl
        · rw [if_neg (fun h => h19 ((longEnough_iff l).mp h).2)]
          constructor
          · intro h
            -- a complaint on one side, the second prompt on the other
            obtain ⟨hacts, _⟩ := Prod.mk.inj h
            have htail := (List.cons.inj hacts).2
            cases answers with
            | nil => exact absurd (List.cons.inj htail).1 (by simp)
            | cons m rest =>
                unfold confirmation at htail
                by_cases hm : l = m
                · simp only [if_pos hm] at htail
                  exact absurd (List.cons.inj htail).1 (by simp)
                · simp only [if_neg hm] at htail
                  exact absurd (List.cons.inj htail).1 (by simp)
          · intro h
            exact absurd (h l rfl) h19
      · have hshort : ¬ atLeastEight l = true := fun h => h8 (of_decide_eq_true h)
        rw [if_neg (fun h => h8 ((longEnough_iff l).mp h).1), if_neg hshort,
          List.find?_cons_of_neg hshort, ← ih]
        exact ⟨after_inj, fun h => by rw [h]⟩

end Run

/-- A line that is too short, and then a password of eight characters. -/
theorem readpass_prompts_eight :
    report (go machine (fun _ _ => succeeds)
        (readpass "root".toList ["short".toList, "rootpass".toList, "rootpass".toList]) 0
        (sampleWorld none))
      = dialogue atLeastEight "root".toList
        ["short".toList, "rootpass".toList, "rootpass".toList] :=
  (readpass_prompts_iff (fun _ _ => ⟨rfl, rfl⟩) _ _ _ _).mpr
    (fun _ h => Option.some.inj h ▸ by decide)

/-- A password of twenty characters is called too short, until the lines run
out. -/
theorem readpass_not_prompts_twenty :
    report (go machine (fun _ _ => succeeds)
        (readpass "root".toList ["correct-horse-staple".toList, "correct-horse-staple".toList]) 0
        (sampleWorld none))
      ≠ dialogue atLeastEight "root".toList
        ["correct-horse-staple".toList, "correct-horse-staple".toList] := by
  intro h
  exact absurd (congrArg Prod.snd h) (by decide +kernel)

end Slinux.Installer.Passwords
