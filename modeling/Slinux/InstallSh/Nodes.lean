import Slinux.Shell.Answers
import Slinux.InstallSh.Effects

/-!
# The devices `install.sh` works on

For an image file the two partitions are those of a loop device, whose name is
what `losetup` printed, with a `p` behind it.  For a block device the script has
the same rule as `slinux-install` for whether there is a `p`.  The kernel's rule
is another one: there is a `p` behind a digit.  So with an image the script is
always right about its partitions, and with a block device exactly where the two
rules agree; where they do not, it works on nodes that are not the device's.

## Main results

* `nodes_written` — every command of every run.
-/

namespace Slinux.InstallSh.Nodes

open Slinux.Shell.Text
open Slinux.Shell.Glob
open Slinux.Shell.Script
open Slinux.Shell.Logic
open Slinux.Shell.Answers
open Slinux.Unix.Files
open Slinux.Disk.Name
open Slinux.Installer.System (partNodes)
open Slinux.InstallSh.System
open Slinux.InstallSh.Script
open Slinux.InstallSh.Effects

/-- The partitions a command makes a file system on, or mounts. -/
def nodesOf : Act → List Str
  | .mkfsVfat dev | .mkfsExt4 dev | .mount dev _ => [dev]
  | _ => []

/-- A value of `PARTS`, where `Says` relates commands and their answers. -/
def PartsOf (Says : Act → Resp → Prop) (target parts : Str) : Prop :=
  if isDevice target = true then parts = diskP target
  else ∃ r, Says (.losetup target) r ∧ r.status = 0 ∧ parts = r.out ++ ['p']

/-- A command that stays on the target and on `"$PARTS"1` and `"$PARTS"2`. -/
structure Placed (Says : Act → Resp → Prop) (target : Str) (a : Act) : Prop where
  disk : ∀ disk script, a = .sfdisk disk script → disk = target
  nodes : ∀ node ∈ nodesOf a, ∃ parts n, PartsOf Says target parts ∧ (n = 1 ∨ n = 2) ∧
    node = part parts n

/-! ## The script -/

section Script

variable {Says : Act → Resp → Prop} {target : Str} {α : Type}

/-- Commands that change no device by its name. -/
def elsewhere : Act → Bool
  | .sfdisk _ _ | .mkfsVfat _ | .mkfsExt4 _ | .mount _ _ => false
  | _ => true

theorem placed_elsewhere {a : Act} (ha : elsewhere a = true) : Placed Says target a := by
  refine ⟨fun disk script h => ?_, fun node hnode => ?_⟩
  · rw [h] at ha
    cases ha
  · cases a
    case mkfsVfat | mkfsExt4 | mount => cases ha
    all_goals exact absurd hnode List.not_mem_nil

/-- A command on one of the two partitions. -/
theorem placed_part {a : Act} {parts : Str} (hparts : PartsOf Says target parts) {n : Nat}
    (hn : n = 1 ∨ n = 2) (ha : nodesOf a = [part parts n]) : Placed Says target a := by
  refine ⟨fun disk script h => ?_, fun node hnode => ?_⟩
  · rw [h] at ha
    cases ha
  · rw [ha] at hnode
    exact ⟨parts, n, hparts, hn, List.mem_singleton.mp hnode⟩

/-- `p` stays on the target and its partitions, and its value satisfies `V`. -/
abbrev Stays (Says : Act → Resp → Prop) (target : Str) (V : α → Prop) (p : Prog Act α) : Prop :=
  Meets Says (Placed Says target) V p

theorem stays_elsewhere {a : Act} (ha : elsewhere a = true) :
    Stays Says target (fun _ => True) (cmd a) := meets_cmd (placed_elsewhere ha)

theorem stays_fills {p : Prog Act α} (hp : Acts Tested Fills p) :
    Stays Says target (fun _ => True) p := by
  refine meets_of_acts (hp.mono (fun a ha => placed_elsewhere ?_))
  obtain ⟨hfills, _⟩ := ha
  cases a <;> first | rfl | cases hfills

theorem require_stays {test : Act} (ht : elsewhere test = true) (message : Str) :
    Stays Says target (fun _ => True) (require test message) :=
  meets_then (meets_tested (placed_elsewhere ht)) (fun _ => meets_ite (fun _ => trivial)
    (fun _ => meets_then (stays_elsewhere rfl) (fun _ => trivial)))

/-- Lines 15 to 27. -/
theorem partition_stays (size : Str) :
    Stays Says target (fun _ => True) (partition target size) := by
  have hdisk : Placed Says target (.sfdisk target sfdiskScript) := by
    refine ⟨fun disk script h => ?_, fun node hnode => absurd hnode List.not_mem_nil⟩
    cases h
    rfl
  refine meets_then (meets_ite (fun _ => trivial) (fun _ => stays_elsewhere rfl)) (fun _ => ?_)
  exact meets_then (stays_elsewhere rfl) (fun _ => meets_cmd hdisk)

/-- Lines 40 to 46. -/
theorem findParts_stays : Stays Says target (PartsOf Says target) (findParts target) := by
  refine meets_ite (fun hdev => ?_) (fun hdev => ?_)
  · exact (if_pos hdev).mpr rfl
  · refine meets_bind (V := fun out => ∃ r, Says (.losetup target) r ∧ r.status = 0 ∧ out = r.out)
      (meets_capture (placed_elsewhere rfl) (fun r hr h0 => ⟨r, hr, h0, rfl⟩)) (fun out hout => ?_)
    obtain ⟨r, hr, h0, rfl⟩ := hout
    exact (if_neg hdev).mpr ⟨r, hr, h0, rfl⟩

/-- Lines 48 to 51. -/
theorem makeFilesystems_stays {parts : Str} (hparts : PartsOf Says target parts) :
    Stays Says target (fun _ => True) (makeFilesystems parts) := by
  refine meets_then (stays_elsewhere rfl) (fun _ => ?_)
  refine meets_then (meets_cmd (placed_part hparts (Or.inl rfl) rfl)) (fun _ => ?_)
  refine meets_then (meets_cmd (placed_part hparts (Or.inr rfl) rfl)) (fun _ => ?_)
  exact meets_capture (placed_elsewhere rfl) (fun _ _ _ => trivial)

/-- Lines 53 to 56. -/
theorem mountTarget_stays {parts : Str} (hparts : PartsOf Says target parts) :
    Stays Says target (fun _ => True) (mountTarget parts) := by
  refine meets_then (stays_elsewhere rfl) (fun _ => ?_)
  refine meets_then (stays_elsewhere rfl) (fun _ => ?_)
  refine meets_then (meets_cmd (placed_part hparts (Or.inr rfl) rfl)) (fun _ => ?_)
  exact meets_cmd (placed_part hparts (Or.inl rfl) rfl)

/-- Lines 58 to 69. -/
theorem copySystem_stays (root : Path) (setids : List Path) :
    Stays Says target (fun _ => True) (copySystem root setids) := by
  refine meets_then (stays_elsewhere rfl) (fun _ => ?_)
  refine meets_then (stays_elsewhere rfl) (fun _ => ?_)
  refine meets_then (stays_elsewhere rfl) (fun _ => ?_)
  exact meets_then (meets_forEach (fun _ _ => stays_elsewhere rfl))
    (fun _ => stays_elsewhere rfl)

/-- Lines 108 to 121. -/
theorem writeAccounts_stays (a : Accounts) :
    Stays Says target (fun _ => True) (writeAccounts a) := by
  refine meets_then (stays_elsewhere rfl) (fun _ => ?_)
  refine meets_then (stays_elsewhere rfl) (fun _ => ?_)
  refine meets_then (stays_elsewhere rfl) (fun _ => ?_)
  refine meets_then (stays_elsewhere rfl) (fun _ => ?_)
  refine meets_then (stays_elsewhere rfl) (fun _ => ?_)
  refine meets_then (stays_elsewhere rfl) (fun _ => ?_)
  refine meets_then (stays_elsewhere rfl) (fun _ => ?_)
  exact meets_then (stays_elsewhere rfl) (fun _ => stays_elsewhere rfl)

theorem installSh_stays {args : List Str} (hargs : args.head?.getD [] = target) (root : Path)
    (setids : List Path) (answers : List Str) :
    Stays Says target (fun _ => True) (installSh args root setids answers) := by
  subst hargs
  refine meets_ite (fun _ => meets_then (stays_elsewhere rfl) (fun _ => trivial)) (fun _ => ?_)
  refine meets_then (require_stays rfl _) (fun _ => ?_)
  refine meets_then (require_stays rfl _) (fun _ => ?_)
  refine meets_then (require_stays rfl _) (fun _ => ?_)
  refine meets_then (partition_stays _) (fun _ => ?_)
  refine meets_then (stays_elsewhere rfl) (fun _ => ?_)
  refine meets_bind findParts_stays (fun parts hparts => ?_)
  refine meets_then (makeFilesystems_stays hparts) (fun rootuuid => ?_)
  refine meets_then (mountTarget_stays hparts) (fun _ => ?_)
  refine meets_then (copySystem_stays root setids) (fun _ => ?_)
  refine meets_then (stays_fills (askAccounts_fills answers)) (fun a => ?_)
  refine meets_then (writeAccounts_stays a) (fun _ => ?_)
  refine meets_then (stays_fills (installLoader_fills root rootuuid)) (fun _ => ?_)
  exact meets_then (stays_elsewhere rfl) (fun _ => stays_elsewhere rfl)

end Script

/-! ## Names -/

theorem isDevice_devPath (name : Str) : isDevice (devPath name) = true := by
  have hmatch := (globMatch_lits_star devDir (devPath name)).mpr (List.prefix_append devDir name)
  unfold isDevice caseArm
  rw [List.any_cons, hmatch, Bool.true_or]

/-- The partitions of a block device are its own where the two rules agree. -/
theorem part_own_iff (name : DevName) {n : Nat} (hn : n = 1 ∨ n = 2) :
    part (diskP (devPath name.text)) n ∈ ownNodes name.text ↔ NamesAgree name.text := by
  constructor
  · intro hmem
    by_contra hno
    exact diskP_not_own hno hn hmem
  · intro hagree
    have hpart : part (diskP (devPath name.text)) n = partNode name.text n :=
      diskP_eq_partNode hagree n
    rw [hpart]
    rcases hn with rfl | rfl
    · exact List.mem_cons_of_mem _ List.mem_cons_self
    · exact List.mem_cons_of_mem _ (List.mem_cons_of_mem _ List.mem_cons_self)

/-- Those of a loop device always are. -/
theorem part_loop_own {name : DevName} (hdigit : endsInDigit name.text = true) {n : Nat}
    (hn : n = 1 ∨ n = 2) : part (devPath name.text ++ ['p']) n ∈ partNodes name := by
  have hpart : part (devPath name.text ++ ['p']) n = partNode name.text n := by
    unfold part partNode partName devPath
    rw [if_pos hdigit]
    simp only [List.append_assoc]
  rw [hpart]
  rcases hn with rfl | rfl
  · exact List.mem_cons_self
  · exact List.mem_cons_of_mem _ List.mem_cons_self

/-- What `losetup` prints. -/
theorem losetup_out {d : Decision} {target : Str} {w : Host}
    (h0 : (exec d (.losetup target) w).1.status = 0) :
    (exec d (.losetup target) w).1.out = devPath d.loop.text := by
  have hp := perform_of_status (fun h => by cases h) h0
  simp only [perform, Option.ite_none_right_eq_some, Option.some.injEq, Prod.mk.injEq] at hp
  exact hp.2.1.symm

/-! ## Runs -/

/-- `node` is one of the two partitions of the loop device that was attached to
`target` in the course of `trace`. -/
def OfLoop (trace : List (Event Host Act Decision)) (target node : Str) : Prop :=
  ∃ e ∈ trace, e.act = .losetup target ∧ e.resp.status = 0 ∧
    node ∈ partNodes e.decision.loop

/-- **The devices `install.sh` works on.**  Whatever fails and wherever signals
arrive, it partitions its argument, and makes and mounts file systems, for a
block device, on nodes that are the device's own exactly if the two rules for
names agree, and otherwise on partitions of the loop device it has attached,
whose name ends in a digit. -/
theorem nodes_written {O : Nat → Act → Decision}
    (hloop : ∀ n target, endsInDigit (O n (.losetup target)).loop.text = true) (args : List Str)
    (root : Path) (setids : List Path) (answers : List Str) (w : Host) :
    ∀ e ∈ (runScript machine O (installSh args root setids answers) w).trace,
      (∀ disk script, e.act = .sfdisk disk script → disk = args.head?.getD []) ∧
      ∀ node ∈ nodesOf e.act,
        (∀ name : DevName, args.head?.getD [] = devPath name.text →
          (node ∈ ownNodes name.text ↔ NamesAgree name.text)) ∧
        (isDevice (args.head?.getD []) = false →
          OfLoop (runScript machine O (installSh args root setids answers) w).trace
            (args.head?.getD []) node) := by
  have htrap : ∀ v t, machine.trap v = some t → Placed (fun a r => ∃ e ∈ (runScript machine O
      (installSh args root setids answers) w).trace, e.act = a ∧ e.resp = r)
      (args.head?.getD []) t := by
    intro v t ht
    rw [trap_cleanup ht]
    exact placed_elsewhere rfl
  intro e he
  -- the answers the script counts on are those of this very run
  obtain ⟨hdisk, hnodes⟩ := runScript_meets htrap (installSh_stays rfl root setids answers) w
    (fun e he => ⟨e, he, rfl, rfl⟩) e he
  refine ⟨hdisk, fun node hnode => ?_⟩
  obtain ⟨parts, n, hparts, hn, rfl⟩ := hnodes node hnode
  unfold PartsOf at hparts
  refine ⟨fun name hname => ?_, fun himage => ?_⟩
  · rw [hname, if_pos (isDevice_devPath name.text)] at hparts
    rw [hparts]
    exact part_own_iff name hn
  · rw [if_neg (by rw [himage]; exact Bool.false_ne_true)] at hparts
    obtain ⟨r, ⟨e', he', hact, rfl⟩, h0, rfl⟩ := hparts
    obtain ⟨m, hd⟩ := runScript_trace_decision machine O _ w e' he'
    have hresp := runScript_resp _ w e' he'
    rw [hact] at hd hresp
    refine ⟨e', he', hact, h0, ?_⟩
    rw [hresp] at h0 ⊢
    have hout : (machine.exec e'.decision (.losetup (args.head?.getD [])) e'.before).1.out
        = devPath e'.decision.loop.text := losetup_out h0
    rw [hout]
    exact part_loop_own (by rw [hd]; exact hloop m _) hn

/-- The sample host with a disk, `/dev/sda`. -/
def diskHost : Host :=
  { sampleHost with
    disks := [Disk.Dump.sampleName]
    nodes := [devPath "sda".toList] }

/-- A run that installs onto it. -/
def diskRun : Run Host Act Decision Unit :=
  runScript machine (fun _ => sampleDecide (fun _ => false))
    (installSh [devPath "sda".toList] ["src".toList] [["bin".toList, "doas".toList]] sampleAnswers)
    diskHost

/-- The sample runs, on an image and on a disk. -/
theorem nodes_written_samples :
    ((sampleRun (fun _ => false)).outcome.status = 0 ∧
      ∀ e ∈ (sampleRun (fun _ => false)).trace,
        (∀ disk script, e.act = .sfdisk disk script → disk = "slinux.img".toList) ∧
        ∀ node ∈ nodesOf e.act,
          (∀ name : DevName, "slinux.img".toList = devPath name.text →
            (node ∈ ownNodes name.text ↔ NamesAgree name.text)) ∧
          (isDevice "slinux.img".toList = false →
            OfLoop (sampleRun (fun _ => false)).trace "slinux.img".toList node)) ∧
    (diskRun.outcome.status = 0 ∧
      ∀ e ∈ diskRun.trace,
        (∀ disk script, e.act = .sfdisk disk script → disk = devPath "sda".toList) ∧
        ∀ node ∈ nodesOf e.act,
          (∀ name : DevName, devPath "sda".toList = devPath name.text →
            (node ∈ ownNodes name.text ↔ NamesAgree name.text)) ∧
          (isDevice (devPath "sda".toList) = false →
            OfLoop diskRun.trace (devPath "sda".toList) node)) :=
  ⟨⟨by decide +kernel, nodes_written (fun _ _ => rfl) _ _ _ sampleAnswers sampleHost⟩,
    ⟨by decide +kernel, nodes_written (fun _ _ => rfl) _ _ _ sampleAnswers diskHost⟩⟩

end Slinux.InstallSh.Nodes
