import Slinux.Installer.Effects
import Slinux.Installer.Script

/-!
# Mounts, traps and signals

The installer mounts three volumes: a boot medium on `/tmp/bm`, the new root
on `/mnt/root`, and the new ESP inside the new root.  Whatever ends the
script, the `umount` in the trap of the moment has to undo exactly the mounts
that are there.  The invariant of this module is therefore the pair of trap
and mount points, followed from command to command; the table in `Sound`
lists the pairs that occur.

The environment is `Orderly`: `umount` is not refused for reasons outside the
script, `echo` can write to its terminal, and if a signal arrives it arrives
at a `Harmless` moment.  Runs without signals are orderly in particular.

## Main results

* `install_spec` — in an orderly environment the script keeps the trap in step
  with the mounts, and once a signal has been handled runs nothing more.
* `mounts_balanced` — without signals, every run ends with the three mount
  points free, and nothing is mounted over a mount.
-/

namespace Slinux.Installer.Mounts

open Slinux.Shell.Text
open Slinux.Shell.Script
open Slinux.Shell.Logic
open Slinux.Unix.Files
open Slinux.Disk.Name
open Slinux.Installer.Accounts
open Slinux.Installer.Bootloader
open Slinux.Installer.System
open Slinux.Installer.Effects
open Slinux.Installer.Script

/-! ## The environment -/

/-- The mount points of the installer. -/
def ourPoints : List Path := [bm, mntRoot, esp]

/-- `umount` is refused only if its operand is busy or not mounted, and the
messages of `echo` can be written. -/
def Honest (e : Event World Act Decision) : Prop :=
  match e.act with
  | .umount _ | .say _ => e.decision.fails = false
  | _ => True

/-- An interrupt hits `getpass` in its `read`: it has turned the echo of the
terminal off, and is killed before it turns it on again. -/
def HitsRead (e : Event World Act Decision) : Prop :=
  match e.act with
  | .getpass _ _ => e.decision.fails = true ∧ e.decision.signal = some .int ∧
      e.decision.midRead = true ∧ e.before.tty = true ∧ e.before.echo = true
  | _ => False

/-- A signal that arrives with this command ends the script and leaves
nothing behind.  Without a trap nothing may be mounted, because the shell just
dies.  With a trap, its action has to cover what is mounted, and it has to
stop the script: by failing itself, or because the command it interrupted had
failed.  In no case may it hit `getpass` in its `read`. -/
def Harmless (e : Event World Act Decision) : Prop :=
  e.cause = .script → e.decision.signal ≠ none →
    ¬ HitsRead e ∧
    match e.after.trap with
    | none => ∀ p ∈ ourPoints, p ∉ points e.after.mounts
    | some ops => (∀ p ∈ ourPoints, p ∈ points e.after.mounts → p ∈ ops) ∧
        (umountOk e.after.held ops (points e.after.mounts) = false ∨
          (e.resp.status ≠ 0 ∧ ¬ Tested e.act))

/-- The environment of this module. -/
def Orderly (e : Event World Act Decision) : Prop := Honest e ∧ Harmless e

/-! ## What every command respects -/

/-- A path strictly below `m`. -/
def below (m p : Path) : Bool := m.isPrefixOf p && p != m

/-- The command writes below `m`. -/
def writesBelow (m : Path) : Act → Bool
  | .mkdirP routes => routes.any (fun r => r.inits.any (fun q => below m (normalize q)))
  | .cpA _ dst => m.isPrefixOf dst
  | .cp _ dst => below m dst
  | .chownR p => m.isPrefixOf p
  | .chown _ _ route => below m (normalize route)
  | .chmodSetuid p | .chmod _ p | .touch p | .write _ p _ | .openOut p => below m p
  | .mv src dst => below m src || below m dst
  | _ => false

/-- No command of the script runs after a signal has been handled, nothing is
written below `/mnt/root` unless the new root is mounted there, and nothing is
mounted on a mount point in use. -/
structure Proper (e : Event World Act Decision) : Prop where
  fresh : e.cause = .script → e.before.interrupted = false
  inside : e.cause = .script → writesBelow mntRoot e.act = true →
    mntRoot ∈ points e.before.mounts
  single : ∀ fs ro dev p, e.act = .mount fs ro dev p → p ∉ points e.before.mounts

/-! ## States of the discipline -/

section Discipline

variable (base : List Path) (echo : Bool)

/-- The shell's state: its trap, the mount points it has added to `base`, and
the files it holds open. -/
structure Shape (tr : Option (List Path)) (qs hd : List Path) (w : World) : Prop where
  trap : w.trap = tr
  mounted : points w.mounts = qs ++ base
  held : w.held = hd
  fresh : w.interrupted = false
  echo : w.echo = echo

/-- The script can be left: what the trap unmounts is what is mounted. -/
def Left : Ended → World → Prop
  | .killed, w => points w.mounts = base ∧ w.echo = echo
  | .exited _, w => w.echo = echo ∧
      match w.trap with
      | none => points w.mounts = base
      | some ops => umountPoints [] ops (points w.mounts) = base

/-- The trap copes with a signal in this state: after one run of its action, a
second one on leaving the script finds nothing left to do. -/
def Sound (tr : Option (List Path)) (qs hd : List Path) : Prop :=
  (∀ q ∈ qs, q ∈ ourPoints) ∧
    match tr with
    | none => True
    | some ops => (∀ p ∈ ops, p ∈ ourPoints) ∧
        ((∀ q ∈ qs, q ∈ ops) → umountPoints [] ops (umountPoints hd ops qs) = [])

instance (tr : Option (List Path)) (qs hd : List Path) : Decidable (Sound tr qs hd) := by
  unfold Sound
  cases tr <;> infer_instance

/-- The script may end in this state. -/
def Leavable (tr : Option (List Path)) (qs : List Path) : Prop :=
  match tr with
  | none => qs = []
  | some ops => umountPoints [] ops qs = []

instance (tr : Option (List Path)) (qs : List Path) : Decidable (Leavable tr qs) := by
  unfold Leavable
  cases tr <;> infer_instance

variable {base echo}
variable {tr : Option (List Path)} {qs hd : List Path} {w : World}

theorem points_umountAll_append (hbase : ∀ p ∈ ourPoints, p ∉ base) {ops : List Path}
    (hops : ∀ p ∈ ops, p ∈ ourPoints) (hpoints : points w.mounts = qs ++ base) :
    points (umountAll hd ops w.mounts) = umountPoints hd ops qs ++ base := by
  rw [umountAll_points, hpoints]
  exact umountPoints_append hd base ops qs (fun p hp => hbase p (hops p hp))

theorem Shape.left (hbase : ∀ p ∈ ourPoints, p ∉ base) (hsound : Sound tr qs hd)
    (hleave : Leavable tr qs) (h : Shape base echo tr qs hd w) (s : Nat) :
    Left base echo (.exited s) w := by
  refine ⟨h.echo, ?_⟩
  rw [h.trap]
  cases tr with
  | none =>
      show points w.mounts = base
      rw [h.mounted, show qs = [] from hleave, List.nil_append]
  | some ops =>
      show umountPoints [] ops (points w.mounts) = base
      rw [h.mounted, umountPoints_append [] base ops qs (fun p hp => hbase p (hsound.2.1 p hp)),
        show umountPoints [] ops qs = [] from hleave, List.nil_append]

/-- Traps are not commands of the script, and mount nothing. -/
theorem trap_proper {e : Event World Act Decision} {t : List Path} (hc : e.cause ≠ .script)
    (ha : e.act = .umount t) : Proper e := by
  constructor
  · intro h
    exact absurd h hc
  · intro h
    exact absurd h hc
  · intro _ _ _ _ h
    rw [ha] at h
    cases h

/-- Nothing else changes the echo. -/
theorem echo_of_not_hitsRead {a : Act} {d : Decision} (h : ¬ HitsRead (machine.event a d w)) :
    (exec d a w).2.echo = w.echo := by
  have hresidue : d.fails = true → (residue d a w).echo = w.echo := by
    intro hfails
    cases a
    case getpass prompt line =>
      simp only [residue]
      split
      · rename_i hit
        cases hecho : w.echo with
        | true => exact absurd ⟨hfails, hit.1, hit.2.1, hit.2.2, hecho⟩ h
        | false => rfl
      · rfl
    all_goals rfl
  unfold exec
  split
  · split <;> rfl
  · rfl
  · split
    · rename_i hfails
      rw [Bool.and_eq_true] at hfails
      exact hresidue hfails.1
    · split
      · rename_i hp
        exact (perform_frame hp).2
      · rfl

/-- A signal at a harmless moment ends the script. -/
theorem halts_of_harmless (hbase : ∀ p ∈ ourPoints, p ∉ base) {a : Act} {d : Decision}
    {untested : Prop} (hu : ¬ Tested a → untested) (hsound : Sound tr qs hd)
    (htrap : (exec d a w).2.trap = tr) (hpoints : points (exec d a w).2.mounts = qs ++ base)
    (hheld : (exec d a w).2.held = hd) (hecho : w.echo = echo)
    (hA : Orderly (machine.event a d w)) (hsig : d.signal ≠ none) :
    halts machine Orderly Proper (Left base echo) untested a d w := by
  obtain ⟨hread, hmoment⟩ := hA.2 rfl hsig
  have hecho'' : (exec d a w).2.echo = echo := (echo_of_not_hitsRead hread).trans hecho
  have hmoment : match (exec d a w).2.trap with
    | none => ∀ p ∈ ourPoints, p ∉ points (exec d a w).2.mounts
    | some ops => (∀ p ∈ ourPoints, p ∈ points (exec d a w).2.mounts → p ∈ ops) ∧
        (umountOk (exec d a w).2.held ops (points (exec d a w).2.mounts) = false ∨
          ((exec d a w).1.status ≠ 0 ∧ ¬ Tested a)) := hmoment
  have htrap' : machine.trap (exec d a w).2 = tr.map .umount := by
    show (exec d a w).2.trap.map Act.umount = _
    rw [htrap]
  unfold halts
  rw [show machine.exec = exec from rfl, htrap']
  rw [htrap, hpoints, hheld] at hmoment
  cases tr with
  | none =>
      refine ⟨?_, hecho''⟩
      have hqs : qs = [] := by
        rw [List.eq_nil_iff_forall_not_mem]
        intro q hq
        exact hmoment q (hsound.1 q hq) (List.mem_append_left _ hq)
      rw [hpoints, hqs, List.nil_append]
  | some ops =>
      intro d' hA'
      refine ⟨trap_proper (t := ops) (by simp [Machine.signalEvent]) rfl, ?_⟩
      have hd' : d'.fails = false := hA'.1
      have hsub : ∀ q ∈ qs, q ∈ ops := fun q hq =>
        hmoment.1 q (hsound.1 q hq) (List.mem_append_left _ hq)
      have hleft : ∀ s, Left base echo (.exited s)
          (machine.interrupt (exec d' (.umount ops) (exec d a w).2).2) := by
        intro s
        rw [exec_umount hd']
        refine ⟨hecho'', ?_⟩
        show match (exec d a w).2.trap with
          | none => points (umountAll (exec d a w).2.held ops (exec d a w).2.mounts) = base
          | some ops' => umountPoints [] ops'
              (points (umountAll (exec d a w).2.held ops (exec d a w).2.mounts)) = base
        rw [htrap, hheld, points_umountAll_append hbase hsound.2.1 hpoints]
        show umountPoints [] ops (umountPoints hd ops qs ++ base) = base
        rw [umountPoints_append [] base ops _ (fun p hp => hbase p (hsound.2.1 p hp)),
          hsound.2.2 hsub, List.nil_append]
      split
      · rename_i h0
        have hok : umountOk hd ops (qs ++ base) = true := by
          rw [exec_umount hd', hheld, hpoints] at h0
          by_contra hno
          simp [hno, failed] at h0
        rcases hmoment.2 with hno | ⟨hfail, hnt⟩
        · rw [hno] at hok
          exact absurd hok (by decide)
        · exact ⟨hu hnt, hfail, fun s _ => hleft s⟩
      · exact hleft _

/-! ## Steps and phases -/

/-- A command that changes neither trap nor mounts nor open files. -/
def Plain (a : Act) : Prop := a.remounts = false ∧ a.redirects = false ∧ a.traps = false

theorem Fills.plain {a : Act} (h : Fills a) : Plain a := by
  obtain ⟨hf, _⟩ := h
  cases a <;> first | exact ⟨rfl, rfl, rfl⟩ | cases hf

theorem Shape.exec_plain {a : Act} (ha : Plain a) {d : Decision} (hd' : d.signal = none)
    (h : Shape base echo tr qs hd w) : Shape base echo tr qs hd (exec d a w).2 := by
  have hf := exec_frame d a w
  constructor
  · exact (hf.trap ha.2.2).trans h.trap
  · rw [hf.mounts ha.1]
    exact h.mounted
  · exact (hf.held ha.2.1).trans h.held
  · exact hf.interrupted.trans h.fresh
  · exact (exec_echo hd' a w).trans h.echo

theorem Shape.proper {a : Act} {d : Decision} (h : Shape base echo tr qs hd w)
    (hin : writesBelow mntRoot a = true → mntRoot ∈ qs)
    (hmount : ∀ fs ro dev p, a = .mount fs ro dev p → p ∉ qs ++ base) :
    Proper (machine.event a d w) := by
  constructor
  · intro _
    exact h.fresh
  · intro _ hw
    show mntRoot ∈ points w.mounts
    rw [h.mounted]
    exact List.mem_append_left _ (hin hw)
  · intro fs ro dev p ha
    show p ∉ points w.mounts
    rw [h.mounted]
    exact hmount fs ro dev p ha

theorem Plain.not_mount {a : Act} (ha : Plain a) {qs : List Path} :
    ∀ fs ro dev p, a = .mount fs ro dev p → p ∉ qs := by
  intro fs ro dev p h
  rw [h] at ha
  exact absurd ha.1 (by simp [Act.remounts])

theorem Shape.mount (hw : Shape base echo tr qs hd w) (fs : Fs) (ro : Bool) (dev : Str)
    (p : Path) (d : Decision) :
    ((exec d (.mount fs ro dev p) w).1.status = 0 ∧
      Shape base echo tr (p :: qs) hd (exec d (.mount fs ro dev p) w).2) ∨
    ((exec d (.mount fs ro dev p) w).1.status ≠ 0 ∧
      Shape base echo tr qs hd (exec d (.mount fs ro dev p) w).2) := by
  rcases exec_mount d fs ro dev p w with ⟨_, _, he⟩ | he
  · left
    rw [he]
    refine ⟨rfl, hw.trap, ?_, hw.held, hw.fresh, hw.echo⟩
    show p :: points w.mounts = (p :: qs) ++ base
    rw [hw.mounted, List.cons_append]
  · right
    rw [he]
    exact ⟨Nat.one_ne_zero, hw⟩

/-- The commands of a phase with these mounts. -/
def Stays (qs : List Path) (a : Act) : Prop :=
  Plain a ∧ (writesBelow mntRoot a = true → mntRoot ∈ qs)

/-- The mount points the search leaves: a medium stays mounted if an initramfs
was found on it. -/
def medium (f : Found) : List Path := if f.initrd.isSome then [bm] else []

theorem medium_cases (f : Found) : medium f = [] ∨ medium f = [bm] := by
  unfold medium
  cases f.initrd with
  | none => exact Or.inl rfl
  | some p => exact Or.inr rfl

theorem Asks.stays {a : Act} (h : Asks a) (qs : List Path) : Stays qs a := by
  cases a <;> first | exact h.elim | exact ⟨⟨rfl, rfl, rfl⟩, fun hw => by cases hw⟩

theorem Prepares.stays {disk : Str} {a : Act} (h : Prepares disk a) (qs : List Path) :
    Stays qs a := by
  rcases h with h | ⟨s, rfl⟩ | rfl | rfl
  · exact Asks.stays h qs
  all_goals exact ⟨⟨rfl, rfl, rfl⟩, fun hw => by cases hw⟩

theorem Fills.stays {a : Act} (h : Fills a) {qs : List Path} (hq : mntRoot ∈ qs) : Stays qs a :=
  ⟨Fills.plain h, fun _ => hq⟩

theorem isFile_stays (p : Path) (qs : List Path) : Stays qs (.isFile p) :=
  ⟨⟨rfl, rfl, rfl⟩, fun h => by cases h⟩

variable (hbase : ∀ p ∈ ourPoints, p ∉ base)

include hbase

/-- A phase of plain commands. -/
theorem wp_phase {α : Type} {p : Prog Act α} (hp : Acts Tested (Stays qs) p)
    (hsound : Sound tr qs hd) (hleave : Leavable tr qs) (hw : Shape base echo tr qs hd w) :
    wp machine Orderly Proper p (fun _ => Shape base echo tr qs hd) (Left base echo) w := by
  refine wp_strict (T := Tested) (P := Stays qs) ?_ ?_ hp hw
  · intro a d v ha hv hA
    have hf := exec_frame d a v
    refine ⟨hv.proper ha.2 ha.1.not_mount, fun hq => hv.exec_plain ha.1 hq, fun hsig => ?_⟩
    refine halts_of_harmless hbase id hsound ?_ ?_ ?_ hv.echo hA hsig
    · exact (hf.trap ha.1.2.2).trans hv.trap
    · rw [hf.mounts ha.1.1]
      exact hv.mounted
    · exact (hf.held ha.1.2.1).trans hv.held
  · intro s v _ hv
    exact hv.left hbase hsound hleave s

/-- A phase of plain commands in front of the rest. -/
theorem wp_phase_then {α β : Type} {p : Prog Act β} {k : β → Prog Act α} {Q : α → World → Prop}
    (hp : Acts Tested (Stays qs) p) (hsound : Sound tr qs hd) (hleave : Leavable tr qs)
    (hw : Shape base echo tr qs hd w)
    (h : ∀ b v, Shape base echo tr qs hd v →
      wp machine Orderly Proper (k b) Q (Left base echo) v) :
    wp machine Orderly Proper (p >>= k) Q (Left base echo) w :=
  wp_bind p k (wp_mono (fun b v hv => h b v hv) (fun _ _ hx => hx)
    (wp_phase hbase hp hsound hleave hw))

/-- A command under `set -e` that leads from one shape to another when it
succeeds, and stays in the first when it fails. -/
theorem wp_change {α β : Type} {a : Act} {value : Resp → β} {f : β → Prog Act α}
    {Q : α → World → Prop} {tr' : Option (List Path)} {qs' hd' : List Path}
    (hsound : Sound tr qs hd) (hsound' : Sound tr' qs' hd') (hleave : Leavable tr qs)
    (hw : Shape base echo tr qs hd w) (hproper : ∀ d, Proper (machine.event a d w))
    (hcases : ∀ d, Orderly (machine.event a d w) →
      ((exec d a w).1.status = 0 ∧ Shape base echo tr' qs' hd' (exec d a w).2) ∨
        ((exec d a w).1.status ≠ 0 ∧ Shape base echo tr qs hd (exec d a w).2))
    (h : ∀ r v, Shape base echo tr' qs' hd' v →
      wp machine Orderly Proper (f (value r)) Q (Left base echo) v) :
    wp machine Orderly Proper
      ((.step a (fun r => if r.status = 0 then .ret (value r) else .exit r.status)) >>= f)
      Q (Left base echo) w := by
  apply wp_untested_strict (fun _ hr => hr)
  intro d hA
  refine ⟨hproper d, ?_⟩
  rw [show machine.exec = exec from rfl]
  rcases hcases d hA with ⟨h0, hv⟩ | ⟨h0, hv⟩
  · refine ⟨fun _ => ⟨fun _ => h _ _ hv, fun hfail => absurd h0 hfail⟩, fun hsig => ?_⟩
    exact halts_of_harmless hbase (fun _ => trivial) hsound' hv.trap hv.mounted hv.held hw.echo
      hA hsig
  · refine ⟨fun _ => ⟨fun hok => absurd hok h0, fun _ => hv.left hbase hsound hleave _⟩,
      fun hsig => ?_⟩
    exact halts_of_harmless hbase (fun _ => trivial) hsound hv.trap hv.mounted hv.held hw.echo
      hA hsig

/-- `trap '...' EXIT INT TERM`, which cannot fail. -/
theorem wp_setTrap {α : Type} {f : Unit → Prog Act α} {Q : α → World → Prop}
    {tr' : Option (List Path)} (hsound : Sound tr' qs hd) (hw : Shape base echo tr qs hd w)
    (h : ∀ v, Shape base echo tr' qs hd v →
      wp machine Orderly Proper (f ()) Q (Left base echo) v) :
    wp machine Orderly Proper (cmd (.setTrap tr') >>= f) Q (Left base echo) w := by
  apply wp_cmd_strict
  intro d hA
  have hv : Shape base echo tr' qs hd (exec d (.setTrap tr') w).2 := by
    rw [exec_setTrap]
    exact ⟨rfl, hw.mounted, hw.held, hw.fresh, hw.echo⟩
  refine ⟨hw.proper (fun h => by cases h) (fun _ _ _ _ h => by cases h), fun _ => ⟨fun _ => ?_,
    fun hfail => ?_⟩, fun hsig => ?_⟩
  · exact h _ hv
  · rw [show machine.exec = exec from rfl, exec_setTrap] at hfail
    exact absurd rfl hfail
  · exact halts_of_harmless hbase (fun _ => trivial) hsound hv.trap hv.mounted hv.held hw.echo
      hA hsig

theorem Shape.mount_proper {fs : Fs} {ro : Bool} {dev : Str} {p : Path}
    (hw : Shape base echo tr qs hd w) (hp : p ∈ ourPoints) (hfree : p ∉ qs) (d : Decision) :
    Proper (machine.event (.mount fs ro dev p) d w) := by
  refine hw.proper (fun h => by cases h) ?_
  intro _ _ _ q hq
  cases hq
  rw [List.mem_append, not_or]
  exact ⟨hfree, hbase p hp⟩

/-- `mount` under `set -e`. -/
theorem wp_mount {α : Type} {f : Unit → Prog Act α} {Q : α → World → Prop} {fs : Fs}
    {ro : Bool} {dev : Str} {p : Path} (hp : p ∈ ourPoints) (hfree : p ∉ qs)
    (hsound : Sound tr qs hd) (hsound' : Sound tr (p :: qs) hd) (hleave : Leavable tr qs)
    (hw : Shape base echo tr qs hd w)
    (h : ∀ v, Shape base echo tr (p :: qs) hd v →
      wp machine Orderly Proper (f ()) Q (Left base echo) v) :
    wp machine Orderly Proper (cmd (.mount fs ro dev p) >>= f) Q (Left base echo) w :=
  wp_change hbase hsound hsound' hleave hw (hw.mount_proper hbase hp hfree)
    (fun d _ => hw.mount _ _ _ _ d) (fun _ v hv => h v hv)

/-- `umount` of mounted points under `set -e`. -/
theorem Shape.umount {ops : List Path} (hops : ∀ p ∈ ops, p ∈ ourPoints)
    (hw : Shape base echo tr qs hd w) {d : Decision}
    (hA : Orderly (machine.event (.umount ops) d w)) :
    ((exec d (.umount ops) w).1.status = 0 ↔ umountOk hd ops qs = true) ∧
      Shape base echo tr (umountPoints hd ops qs) hd (exec d (.umount ops) w).2 := by
  have hd' : d.fails = false := hA.1
  have hok : umountOk hd ops (qs ++ base) = umountOk hd ops qs :=
    umountOk_append hd base ops qs (fun p hp => hbase p (hops p hp))
  rw [exec_umount hd', hw.held, hw.mounted, hok]
  constructor
  · cases umountOk hd ops qs <;> simp [failed]
  · refine ⟨hw.trap, ?_, rfl, hw.fresh, hw.echo⟩
    exact points_umountAll_append hbase hops hw.mounted

/-- `umount` of points that are mounted and not busy. -/
theorem wp_umount {α : Type} {f : Unit → Prog Act α} {Q : α → World → Prop} {ops : List Path}
    (hops : ∀ p ∈ ops, p ∈ ourPoints) (hok : umountOk hd ops qs = true)
    (hsound : Sound tr (umountPoints hd ops qs) hd) (hw : Shape base echo tr qs hd w)
    (h : ∀ v, Shape base echo tr (umountPoints hd ops qs) hd v →
      wp machine Orderly Proper (f ()) Q (Left base echo) v) :
    wp machine Orderly Proper (cmd (.umount ops) >>= f) Q (Left base echo) w := by
  apply wp_cmd_strict
  intro d hA
  obtain ⟨hstatus, hv⟩ := hw.umount hbase hops hA
  refine ⟨hw.proper (fun h => by cases h) (fun _ _ _ _ h => by cases h), fun _ => ⟨fun _ => ?_,
    fun hfail => ?_⟩, fun hsig => ?_⟩
  · exact h _ hv
  · exact absurd (hstatus.mpr hok) hfail
  · exact halts_of_harmless hbase (fun _ => trivial) hsound hv.trap hv.mounted hv.held hw.echo
      hA hsig

/-- A test. -/
theorem wp_test {α : Type} {a : Act} {f : Bool → Prog Act α} {Q : α → World → Prop}
    (ha : Stays qs a) (ht : Tested a) (hsound : Sound tr qs hd)
    (hw : Shape base echo tr qs hd w)
    (h : ∀ b v, Shape base echo tr qs hd v →
      wp machine Orderly Proper (f b) Q (Left base echo) v) :
    wp machine Orderly Proper (tested a >>= f) Q (Left base echo) w := by
  apply wp_tested_strict
  intro d hA
  have hf := exec_frame d a w
  refine ⟨hw.proper ha.2 ha.1.not_mount, fun hq => h _ _ (hw.exec_plain ha.1 hq), fun hsig => ?_⟩
  refine halts_of_harmless hbase (fun hn => hn ht) hsound ?_ ?_ ?_ hw.echo hA hsig
  · exact (hf.trap ha.1.2.2).trans hw.trap
  · rw [hf.mounts ha.1.1]
    exact hw.mounted
  · exact (hf.held ha.1.2.1).trans hw.held

/-- A message, which is always written. -/
theorem wp_say {α : Type} {text : Str} {f : Unit → Prog Act α} {Q : α → World → Prop}
    (hsound : Sound tr qs hd) (hw : Shape base echo tr qs hd w)
    (h : ∀ v, Shape base echo tr qs hd v →
      wp machine Orderly Proper (f ()) Q (Left base echo) v) :
    wp machine Orderly Proper (cmd (.say text) >>= f) Q (Left base echo) w := by
  apply wp_cmd_strict
  intro d hA
  have hd' : d.fails = false := hA.1
  have he : exec d (.say text) w = (⟨0, []⟩, { w with out := text :: w.out }) := by
    simp [exec, hd', perform]
  have hv : Shape base echo tr qs hd (exec d (.say text) w).2 := by
    rw [he]
    exact ⟨hw.trap, hw.mounted, hw.held, hw.fresh, hw.echo⟩
  refine ⟨hw.proper (fun h => by cases h) (fun _ _ _ _ h => by cases h), fun _ => ⟨fun _ => ?_,
    fun hfail => ?_⟩, fun hsig => ?_⟩
  · exact h _ hv
  · rw [show machine.exec = exec from rfl, he] at hfail
    exact absurd rfl hfail
  · exact halts_of_harmless hbase (fun _ => trivial) hsound hv.trap hv.mounted hv.held hw.echo
      hA hsig

/-! ## The search for a boot medium -/

/-- Looking at a mounted medium. -/
theorem lookInitrd_spec {α : Type} (dev : Str) (fs : Fs) {f : Found} (hf : f.initrd = none)
    {k : Found → Prog Act α} {Q : α → World → Prop} (hw : Shape base echo none [bm] [] w)
    (h : ∀ g v, Shape base echo none [bm] [] v →
      wp machine Orderly Proper (k g) Q (Left base echo) v) :
    wp machine Orderly Proper (lookInitrd dev fs f >>= k) Q (Left base echo) w := by
  unfold lookInitrd
  rw [hf]
  apply wp_bind
  apply wp_test hbase (isFile_stays _ _) trivial (by decide) hw
  intro b v hv
  cases b with
  | false => exact h _ v hv
  | true =>
      apply wp_say hbase (by decide) hv
      intro v' hv'
      exact h _ v' hv'

theorem lookKernel_spec {α : Type} (f : Found) {k : Found → Prog Act α} {Q : α → World → Prop}
    (hw : Shape base echo none [bm] [] w)
    (h : ∀ g v, g.initrd = f.initrd → Shape base echo none [bm] [] v →
      wp machine Orderly Proper (k g) Q (Left base echo) v) :
    wp machine Orderly Proper (lookKernel f >>= k) Q (Left base echo) w := by
  unfold lookKernel
  apply wp_bind
  apply wp_test hbase (isFile_stays _ _) trivial (by decide) hw
  intro b v hv
  cases b with
  | false => exact h _ v rfl hv
  | true => exact h _ v rfl hv

/-- The inner loop: either it stops on a medium, which stays mounted, or
everything is unmounted again. -/
theorem tryFs_spec (dev : Str) (fss : List Fs) :
    ∀ {f : Found} {w : World}, f.initrd = none → Shape base echo none [] [] w →
      wp machine Orderly Proper (tryFs dev fss f)
        (fun r v => (r.2 = true ↔ r.1.initrd ≠ none) ∧
          Shape base echo none (medium r.1) [] v) (Left base echo) w := by
  induction fss with
  | nil =>
      intro f w hf hw
      refine ⟨?_, ?_⟩
      · simp [hf]
      · rw [medium, hf]
        exact hw
  | cons fs fss ih =>
      intro f w hf hw
      apply wp_tested_strict
      intro d hA
      refine ⟨hw.mount_proper hbase (by decide) (by decide) d, ?_⟩
      rw [show machine.exec = exec from rfl]
      rcases hw.mount fs true dev bm d with ⟨h0, hv⟩ | ⟨h0, hv⟩
      · refine ⟨fun _ => ?_, fun hsig => halts_of_harmless hbase (fun hn => hn trivial)
          (by decide) hv.trap hv.mounted hv.held hw.echo hA hsig⟩
        rw [h0]
        apply lookInitrd_spec hbase dev fs hf hv
        intro g v hv
        apply lookKernel_spec hbase g hv
        intro g' v hg hv
        cases hi : g'.initrd with
        | some p =>
            show _ ∧ _
            refine ⟨by simp [hi], ?_⟩
            rw [medium, hi]
            exact hv
        | none =>
            show wp machine Orderly Proper (cmd (.umount [bm]) >>= fun _ => tryFs dev fss g') _ _ v
            apply wp_umount hbase (by decide) (by decide) (by decide) hv
            intro v' hv'
            exact ih hi hv'
      · refine ⟨fun _ => ?_, fun hsig => halts_of_harmless hbase (fun hn => hn trivial)
          (by decide) hv.trap hv.mounted hv.held hw.echo hA hsig⟩
        rw [show ((exec d (.mount fs true dev bm) w).1.status == 0) = false from by simpa using h0]
        exact ih hf hv

theorem searchMedia_spec (disk : Str) (sysdevs : List SysDev) :
    ∀ {f : Found} {w : World}, f.initrd = none → Shape base echo none [] [] w →
      wp machine Orderly Proper (searchMedia disk sysdevs f)
        (fun g v => Shape base echo none (medium g) [] v) (Left base echo) w := by
  induction sysdevs with
  | nil =>
      intro f w hf hw
      show Shape base echo none (medium f) [] w
      rw [medium, hf]
      exact hw
  | cons s rest ih =>
      intro f w hf hw
      unfold searchMedia
      split
      · apply wp_bind
        refine wp_mono ?_ (fun _ _ hx => hx) (tryFs_spec hbase (devOf s) _ hf hw)
        rintro ⟨g, stop⟩ v ⟨hstop, hv⟩
        cases stop with
        | true => exact hv
        | false =>
            have hg : g.initrd = none := by simpa using hstop
            rw [show medium (g, false).1 = [] from by simp [medium, hg]] at hv
            exact ih hg hv
      · exact ih hf hw

/-- Lines 14 to 65. -/
theorem untilTrap_spec (disk : Str) (sysdevs : List SysDev) (answers : List Str)
    (hw : Shape base echo none [] [] w) :
    wp machine Orderly Proper (untilTrap disk sysdevs answers)
      (fun r v => Shape base echo none (medium r.1) [] v) (Left base echo) w := by
  have hasks : ∀ {α : Type} {p : Prog Act α}, Acts Tested Asks p → Acts Tested (Stays []) p :=
    fun hp => hp.mono (fun _ h => Asks.stays h [])
  have hphase : ∀ {α β : Type} {p : Prog Act β} {k : β → Prog Act α} {Q : α → World → Prop}
      {v : World}, Acts Tested (Stays []) p → Shape base echo none [] [] v →
      (∀ b u, Shape base echo none [] [] u →
        wp machine Orderly Proper (k b) Q (Left base echo) u) →
      wp machine Orderly Proper (p >>= k) Q (Left base echo) v :=
    fun hp hv hk => wp_phase_then hbase hp (by decide) (by decide) hv hk
  apply hphase (hasks (require_asks (by trivial) (by trivial) _ Nat.one_ne_zero)) hw
  intro _ v hv
  apply hphase (hasks (require_asks (by trivial) (by trivial) _ Nat.one_ne_zero)) hv
  intro _ v hv
  apply hphase (hasks (confirm_asks disk answers)) hv
  intro answers v hv
  apply hphase (hasks (waitDisk_asks disk 30)) hv
  intro _ v hv
  have hmkdir : Stays [] (.mkdirP [bm]) := ⟨⟨rfl, rfl, rfl⟩, fun h => absurd h (by decide)⟩
  apply hphase (acts_cmd hmkdir) hv
  intro _ v hv
  apply wp_bind
  refine wp_mono ?_ (fun _ _ hx => hx) (searchMedia_spec hbase disk sysdevs rfl hv)
  intro f v hv
  apply wp_bind
  unfold noteMedium
  cases hi : f.initrd with
  | some p => exact hv
  | none =>
      have hm : medium f = [] := by simp [medium, hi]
      rw [hm] at hv
      refine wp_mono ?_ (fun _ _ hx => hx) (wp_phase hbase
        (acts_cmd (Asks.stays (a := .say _) trivial [])) (by decide) (by decide) hv)
      intro _ u hu
      show Shape base echo none (medium f) [] u
      rw [hm]
      exact hu

/-! ## The installation -/

/-- The operands of the second trap. -/
def allPoints : List Path := [esp, mntRoot, bm]

/-- The mounts while the target is being filled. -/
def filling (m : List Path) : List Path := esp :: mntRoot :: m

section Installing

variable {m : List Path} (hm : m = [] ∨ m = [bm])

include hm

omit hbase in
/-- The shapes of the installation are sound, and the script can be left in
each of them. -/
theorem filling_sound (hd : List Path)
    (hhd : hd ∈ [[], [limineConfPath], [etc "group".toList]]) :
    Sound (some allPoints) (filling m) hd ∧ Leavable (some allPoints) (filling m) := by
  revert hd
  rcases hm with rfl | rfl <;> decide

/-- A phase that fills the target. -/
theorem wp_fill_then {α β : Type} {p : Prog Act β} {k : β → Prog Act α}
    {Q : α → World → Prop} (hp : Acts Tested Fills p) {hd : List Path}
    (hhd : hd ∈ [[], [limineConfPath], [etc "group".toList]])
    (hw : Shape base echo (some allPoints) (filling m) hd w)
    (h : ∀ b v, Shape base echo (some allPoints) (filling m) hd v →
      wp machine Orderly Proper (k b) Q (Left base echo) v) :
    wp machine Orderly Proper (p >>= k) Q (Left base echo) w :=
  wp_phase_then hbase (hp.mono (fun _ h => Fills.stays h (by simp [filling])))
    (filling_sound hm hd hhd).1 (filling_sound hm hd hhd).2 hw h

/-- Lines 82 to 106. -/
theorem mountTarget_spec {α : Type} (disk espsz : Str) {k : Unit → Prog Act α}
    {Q : α → World → Prop} (hw : Shape base echo (some [bm]) m [] w)
    (h : ∀ v, Shape base echo (some allPoints) (filling m) [] v →
      wp machine Orderly Proper (k ()) Q (Left base echo) v) :
    wp machine Orderly Proper
      (makeFilesystems disk espsz >>= fun _ => mountTarget disk >>= k) Q (Left base echo) w := by
  have hsound : Sound (some [bm]) m [] ∧ Leavable (some [bm]) m ∧
      Sound (some [bm]) (mntRoot :: m) [] ∧ Sound (some allPoints) (mntRoot :: m) [] ∧
      Leavable (some allPoints) (mntRoot :: m) ∧ mntRoot ∉ m ∧ esp ∉ mntRoot :: m := by
    rcases hm with rfl | rfl <;> decide
  obtain ⟨hs, hl, hs1, hs2, hl2, hfree, hfree'⟩ := hsound
  apply wp_phase_then hbase
    ((makeFilesystems_prepares disk espsz).mono (fun _ h => Prepares.stays h m)) hs hl hw
  intro _ v hv
  have hmkdir : Stays m (.mkdirP [mntRoot]) := ⟨⟨rfl, rfl, rfl⟩, fun h => absurd h (by decide)⟩
  apply wp_bind
  apply wp_phase_then hbase (acts_cmd hmkdir) hs hl hv
  intro _ v hv
  apply wp_mount hbase (by decide) hfree hs hs1 hl hv
  intro v hv
  apply wp_setTrap hbase hs2 hv
  intro v hv
  apply wp_phase_then hbase (acts_cmd (Fills.stays ⟨rfl, rfl⟩ (List.mem_cons_self ..))) hs2 hl2 hv
  intro _ v hv
  rw [← bind_ret (cmd _)]
  apply wp_mount hbase (by decide) hfree' hs2 (filling_sound hm [] (by simp)).1 hl2 hv
  intro v hv
  exact h v hv

/-- The compound command that writes `limine.conf` holds it open. -/
theorem writeConf_spec {α : Type} (pu : Str) (initrd : Option Path) {k : Unit → Prog Act α}
    {Q : α → World → Prop} (hw : Shape base echo (some allPoints) (filling m) [] w)
    (h : ∀ v, Shape base echo (some allPoints) (filling m) [] v →
      wp machine Orderly Proper (k ()) Q (Left base echo) v) :
    wp machine Orderly Proper
      (writeNormal pu >>= fun _ => writeRescueIf initrd >>= fun _ => cmd .close >>= k)
      Q (Left base echo) w := by
  have hopen := filling_sound hm [limineConfPath] (by simp)
  have hnone := filling_sound hm [] (by simp)
  apply wp_bind
  refine wp_change hbase hnone.1 hopen.1 hnone.2 hw
    (fun d => hw.proper (fun _ => by simp [filling]) (fun _ _ _ _ h => by cases h)) ?_ ?_
  · intro d _
    rcases exec_openOut d limineConfPath w with ⟨_, he⟩ | he
    · left
      rw [he]
      exact ⟨rfl, hw.trap, hw.mounted, by rw [hw.held], hw.fresh, hw.echo⟩
    · right
      rw [he]
      exact ⟨Nat.one_ne_zero, hw⟩
  · intro _ v hv
    have hwrite : Acts Tested Fills (do
        cmd (.write true limineConfPath "timeout: 3\n\n".toList)
        cmd (.write true limineConfPath
          "/slinux\n    protocol: linux\n    path: boot():/vmlinuz\n".toList)
        cmd (.write true limineConfPath (cmdlineEntry pu))) :=
      acts_bind (fills_cmd rfl rfl) (fun _ => acts_bind (fills_cmd rfl rfl) (fun _ =>
        fills_cmd rfl rfl))
    rw [← bind_ret (cmd _ >>= _)]
    apply wp_fill_then hbase hm hwrite (by simp) hv
    intro _ v hv
    apply wp_fill_then hbase hm (writeRescueIf_fills initrd) (by simp) hv
    intro _ v hv
    refine wp_change hbase hopen.1 hnone.1 hopen.2 hv
      (fun d => hv.proper (fun h => by cases h) (fun _ _ _ _ h => by cases h)) ?_
      (fun _ v hv => h v hv)
    intro d _
    left
    rw [exec_close]
    exact ⟨rfl, hv.trap, hv.mounted, by rw [hv.held]; rfl, hv.fresh, hv.echo⟩

/-- The loop over `/etc/group` holds that file open. -/
theorem writeGroup_spec {α : Type} (user : Str) {k : Unit → Prog Act α}
    {Q : α → World → Prop} (hw : Shape base echo (some allPoints) (filling m) [] w)
    (h : ∀ v, Shape base echo (some allPoints) (filling m) [] v →
      wp machine Orderly Proper (k ()) Q (Left base echo) v) :
    wp machine Orderly Proper (writeGroup user >>= k) Q (Left base echo) w := by
  have hopen := filling_sound hm [etc "group".toList] (by simp)
  have hnone := filling_sound hm [] (by simp)
  apply wp_bind
  apply wp_fill_then hbase hm (fills_cmd rfl rfl) (by simp) hw
  intro _ v hv
  refine wp_change hbase hnone.1 hopen.1 hnone.2 hv
    (fun d => hv.proper (fun h => by cases h) (fun _ _ _ _ h => by cases h)) ?_ ?_
  · intro d _
    rcases exec_openIn d (etc "group".toList) v with ⟨_, he⟩ | he
    · left
      rw [he]
      exact ⟨rfl, hv.trap, hv.mounted, by rw [hv.held], hv.fresh, hv.echo⟩
    · right
      rw [he]
      exact ⟨Nat.one_ne_zero, hv⟩
  · intro r v hv
    apply wp_fill_then hbase hm (acts_forEach (fun _ _ => fills_cmd rfl rfl)) (by simp) hv
    intro _ v hv
    refine wp_change hbase hopen.1 hnone.1 hopen.2 hv
      (fun d => hv.proper (fun h => by cases h) (fun _ _ _ _ h => by cases h)) ?_ ?_
    · intro d _
      left
      rw [exec_close]
      exact ⟨rfl, hv.trap, hv.mounted, by rw [hv.held]; rfl, hv.fresh, hv.echo⟩
    · intro _ v hv
      rw [← bind_ret (cmd _)]
      apply wp_fill_then hbase hm (fills_cmd rfl rfl) (by simp) hv
      intro _ v hv
      exact h v hv

/-- Lines 195 to 202.  Without a medium the last `umount` fails, with nothing
left to clean up. -/
theorem finish_spec (disk pu user : Str)
    (hw : Shape base echo (some allPoints) (filling m) [] w) :
    wp machine Orderly Proper (finish disk pu user)
      (fun _ => Shape base echo none [] []) (Left base echo) w := by
  have hafter : umountOk [] [esp, mntRoot] (filling m) = true ∧
      umountPoints [] [esp, mntRoot] (filling m) = m ∧ Sound (some allPoints) m [] ∧
      Sound none m [] := by
    rcases hm with rfl | rfl <;> decide
  obtain ⟨hok, hpts, hs, hs'⟩ := hafter
  apply wp_fill_then hbase hm (fills_cmd rfl rfl) (by simp) hw
  intro _ v hv
  apply wp_fill_then hbase hm (fills_cmd rfl rfl) (by simp) hv
  intro _ v hv
  apply wp_fill_then hbase hm (fills_cmd rfl rfl) (by simp) hv
  intro _ v hv
  apply wp_umount hbase (by decide) hok (by rw [hpts]; exact hs) hv
  intro v hv
  rw [hpts] at hv
  apply wp_setTrap hbase hs' hv
  intro v hv
  rcases hm with rfl | rfl
  · -- nothing is mounted any more, so this `umount` fails
    refine wp_change hbase (by decide) (show Sound none [] [] by decide) (by decide) hv
      (fun d => hv.proper (fun h => by cases h) (fun _ _ _ _ h => by cases h)) ?_ ?_
    · intro d hA
      obtain ⟨hstatus, hv'⟩ := hv.umount hbase (by decide) hA
      right
      exact ⟨fun h0 => absurd (hstatus.mp h0) (by decide), hv'⟩
    · intro _ v hv
      exact wp_phase hbase (acts_cmd (Asks.stays (a := .say _) trivial [])) (by decide)
        (by decide) hv
  · apply wp_umount hbase (by decide) (by decide) (by decide) hv
    intro v hv
    exact wp_phase hbase (acts_cmd (Asks.stays (a := .say _) trivial [])) (by decide)
      (by decide) hv

/-- Lines 82 to 202. -/
theorem installOn_spec (disk espsz : Str) (f : Found) (answers : List Str)
    (hw : Shape base echo (some [bm]) m [] w) :
    wp machine Orderly Proper (installOn disk espsz f answers)
      (fun _ => Shape base echo none [] []) (Left base echo) w := by
  apply mountTarget_spec hbase hm disk espsz hw
  intro v hv
  apply wp_fill_then hbase hm copySystem_fills (by simp) hv
  intro _ v hv
  apply wp_fill_then hbase hm (copyBootFiles_fills disk f) (by simp) hv
  intro pu v hv
  apply writeConf_spec hbase hm pu f.initrd hv
  intro v hv
  apply wp_fill_then hbase hm ((askAccounts_asks answers).mono (fun _ => Asks.fills)) (by simp) hv
  intro a v hv
  apply wp_fill_then hbase hm (writePasswd_fills a.user) (by simp) hv
  intro _ v hv
  apply wp_fill_then hbase hm (fills_cmd rfl rfl) (by simp) hv
  intro _ v hv
  apply wp_fill_then hbase hm (writeUserShadow_fills a) (by simp) hv
  intro _ v hv
  apply writeGroup_spec hbase hm a.user hv
  intro v hv
  exact finish_spec hbase hm disk pu a.user hv

end Installing

/-- **The trap stays in step with the mounts.**  In an orderly environment,
from a state with nothing of the installer's mounted. -/
theorem install_spec (args : List Str) (sysdevs : List SysDev) (answers : List Str)
    (hw : Shape base echo none [] [] w) :
    wp machine Orderly Proper (slinuxInstall args sysdevs answers)
      (fun _ => Shape base echo none [] []) (Left base echo) w := by
  cases args with
  | nil =>
      have husage : Acts Tested Asks (slinuxInstall [] sysdevs answers) :=
        acts_bind (acts_cmd trivial) (fun _ => Nat.succ_ne_zero 1)
      exact wp_phase hbase (husage.mono (fun _ h => Asks.stays h [])) (by decide) (by decide) hw
  | cons disk rest =>
      show wp machine Orderly Proper (install disk _ sysdevs answers) _ _ w
      rw [install_eq]
      apply wp_bind
      refine wp_mono ?_ (fun _ _ hx => hx) (untilTrap_spec hbase disk sysdevs answers hw)
      rintro ⟨f, as⟩ v hv
      -- the first trap covers the medium the search has left
      have hsound : Sound (some [bm]) (medium f) [] := by
        rcases medium_cases f with h | h <;> rw [h] <;> decide
      apply wp_setTrap hbase hsound hv
      intro v hv
      exact installOn_spec hbase (medium_cases f) disk _ f as hv

end Discipline

/-! ## Whole runs -/

/-- The shell at the start of the script: no trap, no open files, no signal
yet, and nothing mounted on the installer's mount points. -/
structure Start (w : World) : Prop where
  trap : w.trap = none
  held : w.held = []
  fresh : w.interrupted = false
  free : ∀ p ∈ ourPoints, p ∉ points w.mounts

/-- What holds of every orderly run. -/
theorem runScript_orderly (O : Nat → Act → Decision) (args : List Str)
    (sysdevs : List SysDev) (answers : List Str) {w : World} (hw : Start w)
    (hA : ∀ e ∈ (runScript machine O (slinuxInstall args sysdevs answers) w).trace, Orderly e) :
    (∀ e ∈ (runScript machine O (slinuxInstall args sysdevs answers) w).trace, Proper e) ∧
      points (runScript machine O (slinuxInstall args sysdevs answers) w).final.mounts
        = points w.mounts ∧
      (runScript machine O (slinuxInstall args sysdevs answers) w).final.echo = w.echo := by
  have hshape : Shape (points w.mounts) w.echo none [] [] w :=
    ⟨hw.trap, rfl, hw.held, hw.fresh, rfl⟩
  refine runScript_sound (F := fun _ v => points v.mounts = points w.mounts ∧ v.echo = w.echo)
    O _ ?_ hA
  refine wp_mono ?_ ?_ (install_spec hw.free args sysdevs answers hshape)
  · intro _ v hv
    have htrap : machine.trap (machine.unwind v) = none := by
      show v.trap.map Act.umount = none
      rw [hv.trap]
      rfl
    simp only [leaving, htrap]
    exact ⟨hv.mounted, hv.echo⟩
  · intro x v hv
    cases x with
    | killed => exact hv
    | exited s =>
        obtain ⟨hecho, hmounts⟩ := hv
        have htrap : machine.trap (machine.unwind v) = v.trap.map Act.umount := rfl
        simp only [leaving, htrap]
        cases ht : v.trap with
        | none =>
            rw [ht] at hmounts
            exact ⟨hmounts, hecho⟩
        | some ops =>
            rw [ht] at hmounts
            intro d hA
            have hd : d.fails = false := hA.1
            refine ⟨trap_proper (t := ops) (by simp [Machine.exitEvent]) rfl, ?_⟩
            rw [show machine.exec = exec from rfl, exec_umount hd]
            refine ⟨?_, hecho⟩
            show points (umountAll [] ops v.mounts) = points w.mounts
            rw [umountAll_points]
            exact hmounts

/-- **Mount balance under any command failure.**  For every combination of
failing external commands, every answer and every list of candidate devices,
a run without signals ends with the three mount points free, and never mounts
over a mount. -/
theorem mounts_balanced (O : Nat → Act → Decision) (args : List Str) (sysdevs : List SysDev)
    (answers : List Str) (w : World) (hw : Start w)
    (hquiet : ∀ n a, (O n a).signal = none)
    (humount : ∀ n ps, (O n (.umount ps)).fails = false)
    (hecho : ∀ n text, (O n (.say text)).fails = false) :
    (∀ p ∈ ourPoints,
      p ∉ points (runScript machine O (slinuxInstall args sysdevs answers) w).final.mounts) ∧
    ∀ e ∈ (runScript machine O (slinuxInstall args sysdevs answers) w).trace,
      ∀ fs ro dev p, e.act = .mount fs ro dev p → p ∉ points e.before.mounts := by
  have hA : ∀ e ∈ (runScript machine O (slinuxInstall args sysdevs answers) w).trace,
      Orderly e := by
    intro e he
    obtain ⟨n, hn⟩ := runScript_trace_decision machine O _ w e he
    constructor
    · unfold Honest
      cases hact : e.act with
      | umount ps =>
          rw [hact] at hn
          rw [hn]
          exact humount n ps
      | say text =>
          rw [hact] at hn
          rw [hn]
          exact hecho n text
      | _ => trivial
    · intro _ hsig
      rw [hn] at hsig
      exact absurd (hquiet n e.act) hsig
  obtain ⟨hproper, hfinal, _⟩ := runScript_orderly O args sysdevs answers hw hA
  refine ⟨?_, fun e he => (hproper e he).single⟩
  rw [hfinal]
  exact hw.free

theorem sampleWorld_start (cdrom : Option Vol) : Start (sampleWorld cdrom) :=
  ⟨rfl, rfl, rfl, by simp [sampleWorld, points]⟩

/-- Copying a file fails, as on a full disk. -/
def cpFails (_ : Nat) (a : Act) : Decision :=
  match a with
  | .cp _ _ => { succeeds with fails := true }
  | _ => succeeds

/-- A run that ends in the middle of the boot loader installation, with all
three volumes mounted. -/
theorem mounts_balanced_cpFails :
    (∀ p ∈ ourPoints,
      p ∉ points (sampleRun cpFails (some sampleMedium) sampleAnswers).final.mounts) ∧
    ∀ e ∈ (sampleRun cpFails (some sampleMedium) sampleAnswers).trace,
      ∀ fs ro dev p, e.act = .mount fs ro dev p → p ∉ points e.before.mounts :=
  mounts_balanced cpFails [devPath "sda".toList] sampleSysdevs sampleAnswers
    (sampleWorld (some sampleMedium)) (sampleWorld_start _)
    (fun _ a => by cases a <;> rfl) (fun _ _ => rfl) (fun _ _ => rfl)

end Slinux.Installer.Mounts
