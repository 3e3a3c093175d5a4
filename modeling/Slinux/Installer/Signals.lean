import Slinux.Installer.Mounts

/-!
# Interrupting the installer

The trap of `slinux-install` is `umount ...` without an `exit`.  After a
signal the shell runs it and, under `set -e`, goes on if it succeeded: the
more there was to clean up, the more of the installation runs on afterwards,
now with `/mnt/root` being a directory of the live system.

A signal is dealt with cleanly only at a `Harmless` moment.  With the first
trap that means that no medium is mounted (then the `umount` fails and ends
the script), with the second that not all three volumes are mounted or that
one of them is busy; besides, a command that the signal itself made fail ends
the script in any case.  Before the first trap and behind the last line the
shell dies where it stands, which is clean if nothing is mounted; and an
interrupt must not hit `getpass` in its `read`.

## Main results

* `signal_aborts_cleanly` — if the signals of a run all arrive at harmless
  moments, no command of the script follows the cleanup, nothing is written
  below an unmounted `/mnt/root`, and the mounts and the terminal end as they
  were.
* `signal_does_not_abort` — a termination signal during the system copy, after
  which the installation goes on, into the live system.
-/

namespace Slinux.Installer.Signals

open Slinux.Shell.Text
open Slinux.Shell.Script
open Slinux.Unix.Files
open Slinux.Disk.Name
open Slinux.Installer.System
open Slinux.Installer.Script
open Slinux.Installer.Mounts

/-! ## Deciding the condition -/

instance : DecidablePred Tested := fun a => by
  cases a
  case mount fs ro dev p =>
    cases ro
    · exact isFalse id
    · exact isTrue trivial
  all_goals first | exact isTrue trivial | exact isFalse id

instance : DecidablePred Honest := fun e => by
  unfold Honest
  split <;> infer_instance

instance : DecidablePred HitsRead := fun e => by
  unfold HitsRead
  split <;> infer_instance

/-- The condition in parts, one for each state of the trap. -/
theorem harmless_iff (e : Event World Act Decision) :
    Harmless e ↔ e.cause ≠ .script ∨ e.decision.signal = none ∨ (¬ HitsRead e ∧
      (e.after.trap ≠ none ∨ ∀ p ∈ ourPoints, p ∉ points e.after.mounts) ∧
      ∀ ops ∈ e.after.trap, (∀ p ∈ ourPoints, p ∉ points e.after.mounts ∨ p ∈ ops) ∧
        (umountOk e.after.held ops (points e.after.mounts) = false ∨
          (e.resp.status ≠ 0 ∧ ¬ Tested e.act))) := by
  have hpoints : ∀ ops : List Path, (∀ p ∈ ourPoints, p ∉ points e.after.mounts ∨ p ∈ ops) ↔
      ∀ p ∈ ourPoints, p ∈ points e.after.mounts → p ∈ ops :=
    fun ops => forall₂_congr (fun p _ => imp_iff_not_or.symm)
  simp only [hpoints]
  unfold Harmless
  rw [imp_iff_not_or, imp_iff_not_or, not_not]
  cases e.after.trap with
  | none => simp
  | some ops => simp

instance : DecidablePred Harmless := fun e => decidable_of_iff _ (harmless_iff e).symm

/-! ## Clean interruptions -/

/-- **A signal aborts the installer cleanly** if it arrives at a harmless
moment.  The first part is about every command of the run: none of the script
runs once the cleanup action has run, and none writes below `/mnt/root` while
nothing is mounted there. -/
theorem signal_aborts_cleanly (O : Nat → Act → Decision) (args : List Str)
    (sysdevs : List SysDev) (answers : List Str) (w : World) (hw : Start w)
    (hhonest : ∀ e ∈ (runScript machine O (slinuxInstall args sysdevs answers) w).trace, Honest e)
    (hsignals : ∀ e ∈ (runScript machine O (slinuxInstall args sysdevs answers) w).trace,
      Harmless e) :
    (∀ e ∈ (runScript machine O (slinuxInstall args sysdevs answers) w).trace,
      e.cause = .script → e.before.interrupted = false ∧
        (writesBelow mntRoot e.act = true → mntRoot ∈ points e.before.mounts)) ∧
    (∀ p ∈ ourPoints,
      p ∉ points (runScript machine O (slinuxInstall args sysdevs answers) w).final.mounts) ∧
    (runScript machine O (slinuxInstall args sysdevs answers) w).final.echo = w.echo := by
  obtain ⟨hproper, hmounts, hecho⟩ := runScript_orderly O args sysdevs answers hw
    (fun e he => ⟨hhonest e he, hsignals e he⟩)
  refine ⟨fun e he hc => ⟨(hproper e he).fresh hc, (hproper e he).inside hc⟩, ?_, hecho⟩
  rw [hmounts]
  exact hw.free

/-- An interrupt from the keyboard during the system copy, which also kills
`cp`. -/
def interruptCopy (_ : Nat) (a : Act) : Decision :=
  match a with
  | .cpA _ _ => { succeeds with fails := true, signal := some .int }
  | _ => succeeds

theorem signal_aborts_cleanly_copy :
    (∀ e ∈ (sampleRun interruptCopy (some sampleMedium) sampleAnswers).trace,
      e.cause = .script → e.before.interrupted = false ∧
        (writesBelow mntRoot e.act = true → mntRoot ∈ points e.before.mounts)) ∧
    (∀ p ∈ ourPoints,
      p ∉ points (sampleRun interruptCopy (some sampleMedium) sampleAnswers).final.mounts) ∧
    (sampleRun interruptCopy (some sampleMedium) sampleAnswers).final.echo = true :=
  signal_aborts_cleanly interruptCopy [devPath "sda".toList] sampleSysdevs sampleAnswers
    (sampleWorld (some sampleMedium)) (sampleWorld_start _) (by decide +kernel)
    (by decide +kernel)

/-- A termination signal to the shell during the system copy; `cp` itself
finishes. -/
def terminateCopy (_ : Nat) (a : Act) : Decision :=
  match a with
  | .cpA _ _ => { succeeds with signal := some .term }
  | _ => succeeds

/-- With all three volumes mounted the cleanup action succeeds, and the rest
of the system is copied into a directory of the live system. -/
theorem signal_does_not_abort :
    ∃ e ∈ (sampleRun terminateCopy (some sampleMedium) sampleAnswers).trace,
      e.cause = .script ∧ e.before.interrupted = true ∧ writesBelow mntRoot e.act = true ∧
        mntRoot ∉ points e.before.mounts := by
  decide +kernel

end Slinux.Installer.Signals
