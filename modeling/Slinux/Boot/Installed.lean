import Slinux.Installer.NewSystem
import Slinux.Boot.Switch

/-!
# Booting what was installed

The two scripts meet at three places: the command line in `limine.conf`, the
partition table, and the marker on the new root.  Here a run of the installer
with status zero is followed by a boot of the machine it has left: the kernel
gets the configured command line, among other words, and the first execution
of `rc.init` runs from an initramfs without the marker.

The marker of the installer makes the unchecked `touch` of the boot script
harmless: unlike on a root that somebody else has made, nothing has to succeed
for the script to be stopped after one switch.

## Main results

* `rcInit_leads` — one execution from the initramfs, with a marked root.
* `boot_marked` — an execution on a marked root goes on there.
* `install_then_boot` — the installer's run and every boot behind it.
-/

namespace Slinux.Boot.Installed

open Slinux.Shell.Text
open Slinux.Shell.Glob
open Slinux.Shell.Script
open Slinux.Shell.Logic
open Slinux.Unix.Files
open Slinux.Disk.Name
open Slinux.Disk.Dump
open Slinux.Installer.Bootloader
open Slinux.Boot.Root
open Slinux.Boot.Switch

/-! ## The look-up -/

/-- A partition UUID that only one line of all dumps has, on a disk that is not
skipped, selects the partition of that line. -/
theorem selectRoot_partuuid {ds : List Listed} {u : Uuid} {d : Listed} {node : DevName}
    {f : GptFields} (hd : d ∈ ds) (hskip : skipped d.name.text = false)
    (hline : DumpLine.gpt node f ∈ d.lines) (hu : f.uuid = u)
    (hdistinct : ((ds.flatMap Listed.lines).filterMap DumpLine.uuid?).Nodup)
    {paths : Str → List Str} {fsuuid : Str → Str → Bool} {line : Str}
    (hroot : rootOf (fields paths line) = "PARTUUID=".toList ++ u.text) :
    selectRoot false paths fsuuid (ds.map Listed.disk) line = .use (devPath node.text) := by
  have hall : ∀ q ∈ (ds.map Listed.disk).flatMap (diskParts fsuuid .partuuid u.text),
      q = devPath node.text := by
    intro q hq
    obtain ⟨_, hmap, hq⟩ := List.mem_flatMap.mp hq
    obtain ⟨e, he, rfl⟩ := List.mem_map.mp hmap
    obtain ⟨_, node', g, hg, hgu, rfl⟩ := (mem_diskParts_iff fsuuid u e q).mp hq
    have hsame : DumpLine.gpt node' g = DumpLine.gpt node f :=
      eq_of_nodup_filterMap (u := u) hdistinct (List.mem_flatMap.mpr ⟨e, he, hg⟩)
        (List.mem_flatMap.mpr ⟨d, hd, hline⟩) (congrArg some hgu) (congrArg some hu)
    injection hsame with hnode
    rw [hnode]
  have hex : devPath node.text
      ∈ (ds.map Listed.disk).flatMap (diskParts fsuuid .partuuid u.text) :=
    List.mem_flatMap.mpr ⟨d.disk, List.mem_map_of_mem hd,
      (mem_diskParts_iff fsuuid u d _).mpr ⟨hskip, node, f, hline, hu, rfl⟩⟩
  have hkey : globMatch (lits "PARTUUID=".toList ++ [.star]) ("PARTUUID=".toList ++ u.text)
      = true := (globMatch_lits_star _ _).mpr (List.prefix_append _ _)
  simp only [selectRoot, hroot]
  rw [if_pos ⟨List.append_ne_nil_of_left_ne_nil (by decide) _, trivial⟩, if_pos hkey,
    dropShortestPrefix_lits, resolveRoot_of_all hall hex]
  rfl

/-! ## One execution -/

section Machine

variable {φ : Type} [DecidableEq φ] {onDev : Str → φ} {w : World φ} {f : φ}

/-- If we are `sure`, the two commands that lead to the new root succeed. -/
def Leading (sure : Prop) (root : Str) (e : Event (World φ) Act Bool) : Prop :=
  sure → e.act = .mount root ∨ e.act = .switchRoot → e.decision = true

/-- What an execution leaves that was to switch to `f`: it has switched, or it
is where it was. -/
structure Landed (sure : Prop) (f : φ) (w : World φ) (fate : Fate) (v : World φ) : Prop where
  switched : fate = .switched → v.root = f ∧ v.switches = w.switches + 1
  other : fate ≠ .switched → v.root = w.root ∧ v.switches ≤ w.switches + 1 ∧ ¬ sure
  marked : v.marked f = true

/-- Neutral commands without `exit` end where they began. -/
theorem wp_still {α : Type} {A : Event (World φ) Act Bool → Prop} {p : Prog Act α}
    (hp : Unbroken Neutral p) : wp (machine onDev) A (fun _ => True) p (fun _ v => v = w)
      (fun _ _ => False) w := by
  refine wp_unbroken (I := fun v => v = w) (fun _ => rfl) ?_ hp rfl
  rintro a d v ha rfl _
  exact ⟨trivial, exec_neutral onDev ha d v⟩

theorem still_run {a : Act} (h : Neutral a) : Unbroken Neutral (run a) :=
  unbroken_bind (unbroken_tested h) (fun _ => trivial)

theorem still_branch {a : Act} {p q : Prog Act Unit} (ha : Neutral a) (hp : Unbroken Neutral p)
    (hq : Unbroken Neutral q) :
    Unbroken Neutral (tested a >>= fun b => if b = true then p else q) :=
  unbroken_bind (unbroken_tested ha) (fun _ => unbroken_ite hp hq)

theorem startup_still : Unbroken Neutral startup := by
  have hmounts : Unbroken Neutral (forEach mountOnce [.proc, .sys, .dev]) :=
    unbroken_forEach (fun _ _ => still_branch trivial trivial (still_run trivial))
  have hhotplug : Unbroken Neutral hotplug := still_branch trivial (still_run trivial) trivial
  have hcoldplug : Unbroken Neutral coldplug :=
    still_branch trivial (unbroken_bind (still_run trivial) (fun _ => hhotplug)) trivial
  refine unbroken_bind (still_run (a := .cat) trivial) (fun _ => ?_)
  refine unbroken_bind (still_run (a := .say) trivial) (fun _ => ?_)
  refine unbroken_bind hmounts (fun _ => unbroken_bind hcoldplug (fun _ => ?_))
  refine unbroken_bind (still_run (a := .mkdirRun) trivial) (fun _ => ?_)
  exact unbroken_bind (still_run (a := .chmodTmp) trivial) (fun _ => still_run trivial)

theorem moves_still : Unbroken Neutral (forEach moveOrMount [.proc, .sys, .dev]) :=
  unbroken_forEach (fun _ _ => still_branch trivial trivial (still_run trivial))

theorem leads_run {α : Type} {A : Event (World φ) Act Bool → Prop} {a : Act} (ha : Neutral a)
    {p : Unit → Prog Act α} {Q : α → World φ → Prop}
    (h : wp (machine onDev) A (fun _ => True) (p ()) Q (fun _ _ => False) w) :
    wp (machine onDev) A (fun _ => True) (run a >>= p) Q (fun _ _ => False) w := by
  refine wp_bind _ _ (wp_mono ?_ (fun _ _ h => h) (wp_still (still_run ha)))
  rintro _ _ rfl
  exact h

/-- Lines 88 to 92, with the new root mounted. -/
theorem handOver_leads (sure : Prop) {root : Str} {v : World φ} (hnew : v.newroot = some f)
    (hmarked : v.marked f = true) (hroot : v.root = w.root) (hswitches : v.switches = w.switches) :
    wp (machine onDev) (Leading sure root) (fun _ => True) handOver (Landed sure f w)
      (fun _ _ => False) v := by
  refine wp_bind _ _ (wp_mono ?_ (fun _ _ h => h) (wp_still moves_still))
  intro _ u hu
  rw [hu]
  refine leads_run (by trivial) (wp_tested (fun _ _ => rfl) (fun d hA => ⟨trivial, ?_⟩))
  cases d with
  | true =>
      refine ⟨fun _ => ⟨?_, congrArg (· + 1) hswitches⟩, fun h => absurd rfl h, hmarked⟩
      show v.newroot.getD v.root = f
      rw [hnew]
      rfl
  | false =>
      refine ⟨fun h => absurd h (by decide), fun _ => ⟨hroot, ?_, fun hs => ?_⟩, hmarked⟩
      · show v.switches + 1 ≤ w.switches + 1
        rw [hswitches]
      · exact absurd (hA hs (Or.inr rfl)) Bool.false_ne_true

/-- Lines 81 to 92.  The `touch` may fail: the new root is marked already. -/
theorem switchTo_leads (sure : Prop) {root : Str} (hdev : onDev root = f)
    (hmarked : w.marked f = true) :
    wp (machine onDev) (Leading sure root) (fun _ => True) (switchTo root) (Landed sure f w)
      (fun _ _ => False) w := by
  refine leads_run (by trivial) (leads_run (by trivial) ?_)
  refine wp_tested (fun _ _ => rfl) (fun d hA => ⟨trivial, ?_⟩)
  cases d with
  | false =>
      refine leads_run (by trivial) ⟨fun h => absurd h (by decide), fun _ =>
        ⟨rfl, Nat.le_succ _, ?_⟩, hmarked⟩
      exact fun hs => absurd (hA hs (Or.inl rfl)) Bool.false_ne_true
  | true =>
      refine wp_bind _ _ (wp_run (fun d _ => ?_))
      cases d with
      | true =>
          refine handOver_leads sure (congrArg some hdev) ?_ rfl rfl
          show (if some (onDev root) = some f then true else w.marked f) = true
          rw [hdev, if_pos rfl]
      | false => exact handOver_leads sure (congrArg some hdev) hmarked rfl rfl

/-- **One execution from an unmarked root**, when the command line leads to a
marked one. -/
theorem rcInit_leads (sure : Prop) {env : Env} {root : Str}
    (hselect : selectRoot false env.paths env.fsuuid env.disks env.cmdline = .use root)
    (hdev : onDev root = f) (hmarked : w.marked f = true) (hroot : w.marked w.root = false) :
    wp (machine onDev) (Leading sure root) (fun _ => True) (rcInit env) (Landed sure f w)
      (fun _ _ => False) w := by
  refine wp_bind _ _ (wp_mono ?_ (fun _ _ h => h) (wp_still startup_still))
  intro _ u hu
  rw [hu]
  refine wp_tested (fun _ _ => rfl) (fun d _ => ⟨trivial, ?_⟩)
  have hstatus : ((machine onDev).exec d .marker w).1.status = 1 := by
    show (statusOf (w.marked w.root)).status = 1
    rw [hroot]
    rfl
  rw [hstatus, show ((1 : Nat) == 0) = false from rfl, hselect]
  exact switchTo_leads sure hdev hmarked

/-- An execution on a marked root goes on there, whatever it reads. -/
theorem rcInit_stays (onDev : Str → φ) (env : Env) (hmarked : w.marked w.root = true) :
    wp (machine onDev) (fun _ => True) (fun _ => True) (rcInit env)
      (fun fate v => fate = .up ∧ v = w) (fun _ _ => False) w := by
  refine wp_bind _ _ (wp_mono ?_ (fun _ _ h => h) (wp_still startup_still))
  intro _ u hu
  rw [hu]
  refine wp_tested (fun _ _ => rfl) (fun d _ => ⟨trivial, ?_⟩)
  have hstatus : ((machine onDev).exec d .marker w).1.status = 0 := by
    show (statusOf (w.marked w.root)).status = 0
    rw [hmarked]
    rfl
  rw [hstatus, show ((0 : Nat) == 0) = true from rfl, selectRoot_installed]
  exact ⟨rfl, rfl⟩

/-! ## A boot -/

/-- A chain of executions that begins on a marked root has one execution. -/
theorem boot_marked (onDev : Str → φ) (hmarked : w.marked w.root = true)
    (execs : List (Env × (Nat → Act → Bool))) :
    (boot onDev execs w).1 = w := by
  cases execs with
  | nil => rfl
  | cons x rest =>
      obtain ⟨env, O⟩ := x
      have hend := (go_sound O (rcInit env) 0 w (rcInit_stays onDev env hmarked)
        (fun _ _ => trivial)).2
      simp only [boot]
      cases hout : (go (machine onDev) O (rcInit env) 0 w).outcome with
      | ended x =>
          rw [hout] at hend
          exact hend.elim
      | done fate =>
          rw [hout] at hend
          obtain ⟨rfl, hfinal⟩ := hend
          exact hfinal

/-- **A boot from an unmarked root**, when the command line of its first
execution leads to a marked one. -/
theorem boot_leads {env : Env} {root : Str}
    (hselect : selectRoot false env.paths env.fsuuid env.disks env.cmdline = .use root)
    (hdev : onDev root = f) (hmarked : w.marked f = true) (hroot : w.marked w.root = false)
    (O : Nat → Act → Bool) (rest : List (Env × (Nat → Act → Bool))) :
    (boot onDev ((env, O) :: rest) w).1.switches ≤ w.switches + 1 ∧
      ((boot onDev ((env, O) :: rest) w).1.root = w.root ∨
        (boot onDev ((env, O) :: rest) w).1.root = f) ∧
      ((∀ e ∈ (boot onDev ((env, O) :: rest) w).2,
          e.act = .mount root ∨ e.act = .switchRoot → e.decision = true) →
        (boot onDev ((env, O) :: rest) w).1.root = f ∧
          (boot onDev ((env, O) :: rest) w).1.switches = w.switches + 1) := by
  have hmem : ∀ e ∈ (go (machine onDev) O (rcInit env) 0 w).trace,
      e ∈ (boot onDev ((env, O) :: rest) w).2 := by
    intro e he
    simp only [boot]
    split
    · exact List.mem_append_left _ he
    · exact he
  have hend := (go_sound O (rcInit env) 0 w (rcInit_leads (∀ e ∈
    (boot onDev ((env, O) :: rest) w).2,
      e.act = .mount root ∨ e.act = .switchRoot → e.decision = true) hselect hdev hmarked hroot)
    (fun e he hs => hs e (hmem e he))).2
  revert hend
  simp only [boot]
  cases (go (machine onDev) O (rcInit env) 0 w).outcome with
  | ended x => exact fun hend => hend.elim
  | done fate =>
      intro hend
      cases fate with
      | switched =>
          obtain ⟨hlanded, hswitches⟩ := hend.switched rfl
          have hstays := boot_marked onDev (hlanded ▸ hend.marked) rest
          simp only [hstays]
          exact ⟨Nat.le_of_eq hswitches, Or.inr hlanded, fun _ => ⟨hlanded, hswitches⟩⟩
      | up | shell | failed =>
          obtain ⟨hsame, hle, hno⟩ := hend.other (by simp)
          exact ⟨hle, Or.inl hsame, fun hs => absurd hs hno⟩

end Machine

/-! ## Installation and boot -/

/-- The machine in its initramfs, with the volumes of `u`: `none` is the
initramfs, which has no marker. -/
def started (u : Installer.System.World) : World (Option Installer.System.VolId) where
  root := none
  newroot := none
  marked := fun f =>
    (f.bind (fun i => (u.vols i).bind (fun x => x Installer.Image.markerFile))).isSome
  switches := 0

/-- `mount -t ext4` of a node. -/
def ext4On (node : Str) : Option Installer.System.VolId := some (.dev node .ext4)

/-- The first execution reads a command line that `conf` configures, among
other words, and the dumps of disks with different partition UUIDs, among them
the disk `name` with the table `t`. -/
structure Reads (name : DevName) (t : Layout) (conf : Str) (env : Env) : Prop where
  disks : ∃ ds : List Listed, env.disks = ds.map Listed.disk ∧
    (∃ d ∈ ds, d.name = name ∧ d.lines = t.lines name) ∧
    ((ds.flatMap Listed.lines).filterMap DumpLine.uuid?).Nodup
  cmdline : ∃ cl pre post, cmdlineKey ++ cl ∈ fileLines conf ∧
    words env.cmdline = pre ++ words cl ++ post ∧
    ∀ w ∈ pre ++ post, hasGlob w = false ∧ ¬ rootEq <+: w

/-- A written configuration has one command line. -/
theorem cmdline_of_conf {u : Uuid} {rescue : Bool} {cl : Str}
    (h : cmdlineKey ++ cl ∈ fileLines (limineConf u.text rescue)) : cl = cmdline u.text := by
  have hno : ∀ l ∈ headLines ++ rescueLines, ¬ cmdlineKey <+: l := by decide +kernel
  rw [fileLines_limineConf (u.not_mem (by decide)), confLines] at h
  simp only [List.mem_append, List.mem_singleton] at h
  have hother : cmdlineKey ++ cl ∉ headLines ++ rescueLines :=
    fun hin => hno _ hin (List.prefix_append _ _)
  rw [List.mem_append, not_or] at hother
  rcases h with (h | h) | h
  · exact absurd h hother.1
  · exact List.append_cancel_left h
  · split at h
    · exact absurd h hother.2
    · exact absurd h List.not_mem_nil

/-- What a boot of the installed disk comes to: one switch at most, to the new
root if at all, and certainly if it can be mounted and `switch_root` works. -/
structure Arrives (name : DevName) (b : World (Option Installer.System.VolId)
    × List (Event (World (Option Installer.System.VolId)) Act Bool)) : Prop where
  once : b.1.switches ≤ 1
  root : b.1.root = none ∨ b.1.root = some (Installer.Guard.rootVol name)
  there : (∀ e ∈ b.2, e.act = .mount (partNode name.text 2) ∨ e.act = .switchRoot →
    e.decision = true) → b.1.root = some (Installer.Guard.rootVol name) ∧ b.1.switches = 1

/-- **Installation and boot.**  After a run of the installer with status zero,
every boot of the machine with the configured command line ends in the
initramfs or on the new root, after one `switch_root` at most, whatever fails
and whatever later executions read.  It ends on the new root if the two
commands that lead there succeed. -/
theorem install_then_boot (O : Nat → Installer.System.Act → Installer.System.Decision)
    (args : List Str) (sysdevs : List Installer.Script.SysDev) (answers : List Str)
    (w : Installer.System.World) (hw : Installer.Mounts.Start w)
    (hunused : ∀ name ∈ w.disks, args.head? = some (devPath name.text) →
      Installer.Filling.Unused name w)
    (hslash : ∀ l ∈ answers, Installer.Accounts.acceptsUser l = true → '/' ∉ l)
    (h0 : (runScript Installer.System.machine O
      (Installer.Script.slinuxInstall args sysdevs answers) w).outcome.status = 0)
    (u : Installer.System.World) (hu : u = (runScript Installer.System.machine O
      (Installer.Script.slinuxInstall args sysdevs answers) w).final)
    (name : DevName) (hargs : args.head? = some (devPath name.text))
    (hskip : skipped name.text = false) (t : Layout) (ht : u.layout = some t) (conf : Str)
    (hconf : Installer.Files.look u (Installer.Guard.espVol name) Installer.Guard.confFile
      = some (.file conf))
    (env : Env) (hreads : Reads name t conf env) (O' : Nat → Act → Bool)
    (rest : List (Env × (Nat → Act → Bool))) :
    Arrives name (boot ext4On ((env, O') :: rest) (started u)) := by
  subst hu
  obtain ⟨name', _, hhead, _, f, as, v, _, _, a, t', tree, _, _, himage⟩ :=
    Installer.Image.image_of_status O args sysdevs answers w hw hunused hslash h0
  obtain rfl : name' = name := by
    have htext := List.append_cancel_left (Option.some.inj (hhead.symm.trans hargs))
    cases name'
    cases name
    simp only at htext
    subst htext
    rfl
  obtain rfl : t' = t := Option.some.inj (himage.layout.symm.trans ht)
  have hvolume := Installer.NewSystem.newEsp_volume (v.text f.kernel)
    (v.text Installer.Script.limineEfi) t'.root.uuid.text (f.initrd.map v.text)
  have hwritten : conf = limineConf t'.root.uuid.text (f.initrd.map v.text).isSome := by
    rw [Installer.Files.look, himage.disk.esp, Option.bind_some] at hconf
    have hkind := hconf.symm.trans (congrArg (Option.map Node.kind) hvolume.conf)
    exact Kind.file.inj (Option.some.inj hkind)
  obtain ⟨ds, hds, ⟨d, hd, rfl, hlines⟩, hdistinct⟩ := hreads.disks
  obtain ⟨cl, pre, post, hcl, hline, hother⟩ := hreads.cmdline
  rw [hwritten] at hcl
  rw [cmdline_of_conf hcl] at hline
  have hselect : selectRoot false env.paths env.fsuuid env.disks env.cmdline
      = .use (partNode d.name.text 2) := by
    have hgpt : DumpLine.gpt (d.name.part 2) t'.root ∈ d.lines := by
      rw [hlines]
      simp [Layout.lines]
    rw [hds]
    exact selectRoot_partuuid hd hskip hgpt rfl hdistinct
      (rootOf_cmdline env.paths t'.root.uuid hline hother)
  have hmarked : (started (runScript Installer.System.machine O
      (Installer.Script.slinuxInstall args sysdevs answers) w).final).marked
        (some (Installer.Guard.rootVol d.name)) = true := by
    have hmarker := (Installer.NewSystem.newRoot_system tree a).marker
    show (((runScript Installer.System.machine O (Installer.Script.slinuxInstall args sysdevs
      answers) w).final.vols (Installer.Guard.rootVol d.name)).bind _).isSome = true
    rw [himage.disk.root, Option.bind_some]
    exact Option.isSome_of_eq_some hmarker
  have hdev : ext4On (partNode d.name.text 2) = some (Installer.Guard.rootVol d.name) := rfl
  obtain ⟨honce, hroot, hthere⟩ := boot_leads hselect hdev hmarked rfl O' rest
  exact ⟨honce, hroot, hthere⟩

/-- The sample machine with a USB stick, started with the configured command
line. -/
def sampleBoot : Env :=
  ⟨"quiet root=PARTUUID=A-2 rw rootwait console=ttyS0 console=tty0".toList,
    [sampleStick, ⟨sampleName, sampleTable.lines sampleName⟩].map Listed.disk, fun _ => [],
    fun _ _ => false⟩

/-- The sample machine after its installation: no `touch` of the boot script
succeeds, and the boot still ends after one switch. -/
theorem install_then_boot_sda :
    Arrives sampleName (boot ext4On
      [(sampleBoot, fun _ a => a != .touchMarker), (sampleBoot, fun _ a => a != .touchMarker)]
      (started (Installer.Script.sampleRun (fun _ _ => Installer.Script.succeeds)
        (some Installer.Script.sampleMedium) Installer.Script.sampleAnswers).final)) :=
  install_then_boot (fun _ _ => Installer.Script.succeeds) [devPath "sda".toList]
    Installer.Script.sampleSysdevs Installer.Script.sampleAnswers
    (Installer.Script.sampleWorld (some Installer.Script.sampleMedium))
    (Installer.Mounts.sampleWorld_start _) (fun _ _ _ m hm => absurd hm List.not_mem_nil)
    (by decide +kernel) (by decide +kernel) _ rfl sampleName rfl (by decide) sampleTable rfl
    (limineConf "A-2".toList true) (by decide +kernel) sampleBoot
    ⟨⟨_, rfl, ⟨_, List.mem_cons_of_mem _ (List.mem_cons_self ..), rfl, rfl⟩, by decide⟩,
      cmdline "A-2".toList, ["quiet".toList], [], by decide +kernel, by decide +kernel,
      by decide +kernel⟩ _ _

end Slinux.Boot.Installed
