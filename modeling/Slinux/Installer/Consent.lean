import Slinux.Installer.Effects
import Slinux.Installer.Script

/-!
# A run that is not confirmed

`slinux-install` asks before it touches anything.  Unless what `read` takes from
its input says yes, the run fails, and from its first command to its last the
machine stays as it was but for what is printed: no partition table, no file
system, no mount, not even the mount point of the search or a trap.  Whatever
goes wrong on the way, and whenever a signal arrives, is covered: the only
command whose answer matters is the one that reads it.

## Main results

* `refused_unchanged` — whole runs.
-/

namespace Slinux.Installer.Consent

open Slinux.Shell.Text
open Slinux.Shell.Script
open Slinux.Shell.Logic
open Slinux.Shell.Input
open Slinux.Disk.Name
open Slinux.Installer.Accounts
open Slinux.Installer.System
open Slinux.Installer.Effects
open Slinux.Installer.Script

/-- The machine is as it was, but for what has been printed. -/
def Same (w v : World) : Prop := ∃ out, v = { w with out := out }

theorem Same.refl (w : World) : Same w w := ⟨w.out, rfl⟩

theorem Same.trans {u v w : World} (h : Same u v) (h' : Same v w) : Same u w := by
  obtain ⟨out, rfl⟩ := h
  obtain ⟨out', rfl⟩ := h'
  exact ⟨out', rfl⟩

theorem Same.trap {w v : World} (h : Same w v) : v.trap = w.trap := by
  obtain ⟨out, rfl⟩ := h
  rfl

/-- The commands up to the answer. -/
def Inquires : Act → Prop
  | .say _ | .readLine _ | .isFile _ => True
  | _ => False

theorem exec_inquires {a : Act} (ha : Inquires a) (d : Decision) (w : World) :
    Same w (exec d a w).2 := by
  cases a with
  | say text =>
      cases hf : d.fails
      · exact ⟨text :: w.out, by simp [exec, hf, perform]⟩
      · exact ⟨w.out, by simp [exec, hf, Act.certain, residue]⟩
  | readLine line =>
      refine ⟨w.out, ?_⟩
      cases line <;> cases hf : d.fails <;> simp [exec, hf, perform, Act.certain, residue]
  | isFile p =>
      refine ⟨w.out, ?_⟩
      by_cases hp : w.isFile p = true <;> simp [exec, perform, Act.certain, hp]
  | _ => exact ha.elim

/-- No command may change more than the output. -/
abbrev Quietly {α : Type} (w : World) (p : Prog Act α) (Q : α → World → Prop) (v : World) : Prop :=
  wp machine (fun _ => True) (fun e => Same w e.after) p Q
    (fun x v => Same w v ∧ x ≠ .exited 0) v

section Runs

variable {w : World} (htrap : w.trap = none)

include htrap

/-- Without a trap a signal only kills the shell. -/
theorem quietly_step {a : Act} (ha : Inquires a) (d : Decision) {v : World} (hv : Same w v) :
    Same w (machine.event a d v).after ∧
      resume machine (fun _ => True) (fun e => Same w e.after)
        (fun x v => Same w v ∧ x ≠ .exited 0) d (Same w) (machine.exec d a v).2 := by
  have hafter : Same w (exec d a v).2 := hv.trans (exec_inquires ha d v)
  refine ⟨hafter, ?_⟩
  have hnone : machine.trap (machine.exec d a v).2 = none := by
    show ((exec d a v).2.trap.map Act.umount) = none
    rw [hafter.trap, htrap]
    rfl
  simp only [resume, hnone]
  split
  · exact hafter
  · exact ⟨hafter, fun hc => by cases hc⟩

theorem quietly_acts {α : Type} {T : Act → Prop} {p : Prog Act α} (hp : Acts T Inquires p)
    {v : World} (hv : Same w v) : Quietly w p (fun _ => Same w) v :=
  wp_invariant (fun _ d _ ha hv _ => quietly_step htrap ha d hv)
    (fun _ _ hs hv => ⟨hv, fun hc => hs (Ended.exited.inj hc)⟩) hp hv

theorem quietly_then {α β : Type} {T : Act → Prop} {p : Prog Act α} (hp : Acts T Inquires p)
    {k : α → Prog Act β} {Q : β → World → Prop} {v : World} (hv : Same w v)
    (hk : ∀ a v, Same w v → Quietly w (k a) Q v) : Quietly w (p >>= k) Q v :=
  wp_bind _ _ (wp_mono hk (fun _ _ h => h) (quietly_acts htrap hp hv))

/-- The answer decides: nothing comes after a confirmation that is refused. -/
theorem confirm_refused {answers : List Str}
    (hrefused : ∀ l, answers.head? = some l → saysYes (readText l) = false) (disk : Str)
    {v : World} (hv : Same w v) :
    Quietly w (confirm disk answers) (fun _ _ => False) v := by
  have hsay : ∀ text, Acts Tested Inquires (cmd (.say text)) := fun text => acts_cmd trivial
  refine quietly_then htrap (hsay _) hv (fun _ v hv => ?_)
  refine quietly_then htrap (hsay _) hv (fun _ v hv => ?_)
  have hread : Quietly w (capture (.readLine answers.head?))
      (fun ans u => answers.head? = some ans ∧ Same w u) v := by
    intro d _
    obtain ⟨hafter, hnext⟩ := quietly_step htrap (a := .readLine answers.head?) trivial d hv
    refine ⟨hafter, resume_mono (fun _ _ h => h) (fun u hu => ?_) hnext⟩
    beta_reduce
    by_cases h0 : (machine.exec d (.readLine answers.head?) v).1.status = 0
    · rw [if_pos h0]
      exact ⟨exec_prompt (Or.inl rfl) h0, hu⟩
    · rw [if_neg h0]
      exact ⟨hu, fun hc => h0 (Ended.exited.inj hc)⟩
  refine wp_bind _ _ (wp_mono (fun ans u hu => ?_) (fun _ _ h => h) hread)
  obtain ⟨hans, hu⟩ := hu
  rw [hrefused ans hans]
  refine quietly_then htrap (hsay _) hu (fun _ u hu => ?_)
  exact ⟨hu, fun hc => by cases hc⟩

end Runs

/-- **Without consent nothing happens.**  If what `read` takes from the lines of
the input is not a yes, or it comes to their end, the run fails, and at no point
of it is the machine changed. -/
theorem refused_unchanged (O : Nat → Act → Decision) (args : List Str) (sysdevs : List SysDev)
    {lines answers : List Str} {w : World} (htrap : w.trap = none) (hheld : w.held = [])
    (hread : answers.head? = (readLogical lines).map Prod.fst)
    (hrefused : ∀ l rest, readLogical lines = some (l, rest) → saysYes (readText l) = false) :
    (∀ e ∈ (runScript machine O (slinuxInstall args sysdevs answers) w).trace, Same w e.after) ∧
      Same w (runScript machine O (slinuxInstall args sysdevs answers) w).final ∧
      (runScript machine O (slinuxInstall args sysdevs answers) w).outcome.status ≠ 0 := by
  have hanswer : ∀ l, answers.head? = some l → saysYes (readText l) = false := by
    intro l hl
    obtain ⟨⟨k, rest⟩, hk, rfl⟩ := Option.map_eq_some_iff.mp (hread.symm.trans hl)
    exact hrefused k rest hk
  have hwp : Quietly w (slinuxInstall args sysdevs answers) (fun _ _ => False) w := by
    cases args with
    | nil =>
        have husage : Acts Tested Inquires
            (cmd (.say "usage: slinux-install <disk> [esp-size-mib]".toList)) := acts_cmd trivial
        refine quietly_then htrap husage (Same.refl w) (fun _ v hv => ?_)
        exact ⟨hv, fun hc => by cases hc⟩
    | cons disk rest =>
        have hrequire : ∀ p message, Acts Tested Inquires (require (.isFile p) message 1) :=
          fun p message => acts_bind (acts_tested trivial trivial) (fun _ =>
            acts_ite trivial (acts_bind (acts_cmd trivial) (fun _ => Nat.one_ne_zero)))
        refine quietly_then htrap (hrequire _ _) (Same.refl w) (fun _ v hv => ?_)
        refine quietly_then htrap (hrequire _ _) hv (fun _ v hv => ?_)
        refine wp_bind _ _ (wp_mono ?_ (fun _ _ h => h) (confirm_refused htrap hanswer disk hv))
        exact fun _ _ h => h.elim
  have hend := runScript_sound (M := machine) (A := fun _ => True) (S := fun e => Same w e.after)
    (F := fun o v => Same w v ∧ o.status ≠ 0) O (slinuxInstall args sysdevs answers)
    (wp_mono (fun _ _ h => h.elim) (fun x v hx => ?_) hwp) (fun _ _ => trivial)
  · exact hend
  · obtain ⟨hv, hx⟩ := hx
    cases x with
    | killed => exact ⟨hv, by decide⟩
    | exited s =>
        have hun : Same w (machine.unwind v) := by
          obtain ⟨out, rfl⟩ := hv
          refine ⟨out, ?_⟩
          show ({ w with held := [], out := out } : World) = { w with out := out }
          rw [hheld]
        have hnone : machine.trap (machine.unwind v) = none := by
          show ((machine.unwind v).trap.map Act.umount) = none
          rw [hun.trap, htrap]
          rfl
        simp only [leaving, hnone]
        exact ⟨hun, fun hc => hx (congrArg Ended.exited hc)⟩

/-- A `y` that goes on in the next line is no yes. -/
theorem refused_unchanged_continued :
    (∀ e ∈ (sampleRun (fun _ _ => succeeds) none ["y\\\no".toList]).trace,
      Same (sampleWorld none) e.after) ∧
      Same (sampleWorld none) (sampleRun (fun _ _ => succeeds) none ["y\\\no".toList]).final ∧
      (sampleRun (fun _ _ => succeeds) none ["y\\\no".toList]).outcome.status ≠ 0 :=
  refused_unchanged (fun _ _ => succeeds) [devPath "sda".toList] sampleSysdevs
    (w := sampleWorld none) rfl rfl
    (show _ = (readLogical ["y\\".toList, "o".toList]).map Prod.fst from rfl)
    (fun l rest h => by
      cases h
      decide)

end Slinux.Installer.Consent
