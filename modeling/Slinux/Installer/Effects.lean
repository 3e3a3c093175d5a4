import Slinux.Installer.System

/-!
# What the installer's commands change

Every invariant of the installer speaks about a small part of the state: the
mount table, the device nodes, the trap.  This module says once for each
command which parts it can touch, and what the few commands do that change
the mount table, the trap or the open files.  The proofs about the script use
these lemmas and never unfold `exec`.

## Main results

* `exec_frame`, `exec_echo` — what a command leaves alone.
* `exec_cases` — a command does what it is for, or fails.
* `exec_mount`, `exec_umount`, `exec_setTrap`, `exec_openOut`, `exec_openIn`,
  `exec_close` — the commands with effects outside the volumes.
* `exec_sfdisk`, `exec_mkfs` — the commands that make volumes.
-/

namespace Slinux.Installer.Effects

open Slinux.Shell.Text
open Slinux.Shell.Script
open Slinux.Unix.Files
open Slinux.Disk.Name
open Slinux.Installer.System

/-! ## Footprints -/

/-- What a command leaves alone. -/
structure Frame (a : Act) (w w' : World) : Prop where
  disks : w'.disks = w.disks
  tty : w'.tty = w.tty
  interrupted : w'.interrupted = w.interrupted
  nodes : a.partitions = false → w'.nodes = w.nodes
  layout : a.partitions = false → w'.layout = w.layout
  mounts : a.remounts = false → w'.mounts = w.mounts
  held : a.redirects = false → w'.held = w.held
  trap : a.traps = false → w'.trap = w.trap

theorem Frame.refl (a : Act) (w : World) : Frame a w w := by
  constructor <;> intros <;> rfl

/-- The two states differ in their volumes and the output at most. -/
structure SameShell (w w' : World) : Prop where
  disks : w'.disks = w.disks
  tty : w'.tty = w.tty
  echo : w'.echo = w.echo
  interrupted : w'.interrupted = w.interrupted
  nodes : w'.nodes = w.nodes
  layout : w'.layout = w.layout
  mounts : w'.mounts = w.mounts
  held : w'.held = w.held
  trap : w'.trap = w.trap

theorem SameShell.refl (w : World) : SameShell w w := by constructor <;> rfl

theorem SameShell.trans {w w' w'' : World} (h : SameShell w w') (h' : SameShell w' w'') :
    SameShell w w'' := by
  constructor
  · exact h'.disks.trans h.disks
  · exact h'.tty.trans h.tty
  · exact h'.echo.trans h.echo
  · exact h'.interrupted.trans h.interrupted
  · exact h'.nodes.trans h.nodes
  · exact h'.layout.trans h.layout
  · exact h'.mounts.trans h.mounts
  · exact h'.held.trans h.held
  · exact h'.trap.trans h.trap

theorem SameShell.frame {a : Act} {w w' : World} (h : SameShell w w') : Frame a w w' :=
  ⟨h.disks, h.tty, h.interrupted, fun _ => h.nodes, fun _ => h.layout, fun _ => h.mounts,
    fun _ => h.held, fun _ => h.trap⟩

theorem onVol_sameShell (w : World) (id : VolId) (f : Vol → Vol) : SameShell w (w.onVol id f) := by
  constructor <;> rfl

theorem mkdir_sameShell {w w' : World} {p : Path} (h : w.mkdir p = some w') : SameShell w w' := by
  unfold World.mkdir at h
  split at h
  · rw [← Option.some.inj h]
    exact SameShell.refl w
  · split at h
    · rw [← Option.some.inj h]
      exact onVol_sameShell w _ _
    · simp at h

/-- What a fallible step keeps, it keeps over a list. -/
theorem foldlM_keeps {β : Type} {f : World → β → Option World} {I : World → Prop}
    (hf : ∀ w b w', f w b = some w' → I w → I w') :
    ∀ (bs : List β) (w w' : World), bs.foldlM f w = some w' → I w → I w' := by
  intro bs
  induction bs with
  | nil =>
      intro w w' h hI
      rw [← Option.some.inj h]
      exact hI
  | cons b bs ih =>
      intro w w' h hI
      rw [List.foldlM_cons] at h
      obtain ⟨v, hv, hrest⟩ := Option.bind_eq_some_iff.mp h
      exact ih v w' hrest (hf w b v hv hI)

theorem foldlM_sameShell {β : Type} {f : World → β → Option World}
    (hf : ∀ w b w', f w b = some w' → SameShell w w') (bs : List β) (w w' : World)
    (h : bs.foldlM f w = some w') : SameShell w w' :=
  foldlM_keeps (fun v b v' hv hw => hw.trans (hf v b v' hv)) bs w w' h (SameShell.refl w)

theorem mkdirRoutes_sameShell {w w' : World} {routes : List (List Str)}
    (h : routes.foldlM World.mkdirRoute w = some w') : SameShell w w' :=
  foldlM_sameShell (fun v _ v' hv =>
    foldlM_sameShell (fun _ _ _ hu => mkdir_sameShell hu) _ v v' hv) routes w w' h

theorem perform_sameShell {d : Decision} {a : Act} {w w' : World} {out : Str}
    (ha : a.filesOnly = true) (h : perform d a w = some (out, w')) : SameShell w w' := by
  cases a
  case mount | umount | setTrap | sfdisk | openOut | openIn | close =>
    exact absurd ha (by simp [Act.filesOnly])
  case mkdirP routes =>
    simp only [perform, Option.map_eq_some_iff, Prod.mk.injEq] at h
    obtain ⟨v, hv, _, rfl⟩ := h
    exact mkdirRoutes_sameShell hv
  case say | sleep | readPU | cryptpw | sync =>
    simp only [perform, Option.some.injEq, Prod.mk.injEq] at h
    rw [← h.2]
    constructor <;> rfl
  case readLine | getpass | chown | chmodSetuid | chmod =>
    simp only [perform, Option.map_eq_some_iff, Prod.mk.injEq] at h
    obtain ⟨_, _, _, rfl⟩ := h
    constructor <;> rfl
  case mv =>
    simp only [perform, Option.ite_none_right_eq_some, Option.map_eq_some_iff,
      Prod.mk.injEq] at h
    obtain ⟨_, _, _, _, rfl⟩ := h
    constructor <;> rfl
  case touch =>
    simp only [perform] at h
    split at h
    · rw [← (Prod.mk.inj (Option.some.inj h)).2]
      exact SameShell.refl w
    · simp only [Option.ite_none_right_eq_some, Option.some.injEq, Prod.mk.injEq] at h
      rw [← h.2.2]
      constructor <;> rfl
  all_goals
    simp only [perform, Option.ite_none_right_eq_some, Option.some.injEq, Prod.mk.injEq] at h
    rw [← h.2.2]
    constructor <;> rfl

theorem perform_frame {d : Decision} {a : Act} {w w' : World} {out : Str}
    (h : perform d a w = some (out, w')) : Frame a w w' ∧ w'.echo = w.echo := by
  by_cases ha : a.filesOnly = true
  · have hs := perform_sameShell ha h
    exact ⟨hs.frame, hs.echo⟩
  · cases a
    case mount =>
      simp only [perform, Option.ite_none_right_eq_some, Option.some.injEq, Prod.mk.injEq] at h
      rw [← h.2.2]
      exact ⟨by constructor <;> intros <;> first | rfl | contradiction, rfl⟩
    case umount => simp [perform] at h
    case setTrap | close =>
      simp only [perform, Option.some.injEq, Prod.mk.injEq] at h
      rw [← h.2]
      exact ⟨by constructor <;> intros <;> first | rfl | contradiction, rfl⟩
    case sfdisk | openOut | openIn =>
      simp only [perform, Option.ite_none_right_eq_some, Option.some.injEq, Prod.mk.injEq] at h
      rw [← h.2.2]
      exact ⟨by constructor <;> intros <;> first | rfl | contradiction, rfl⟩
    all_goals exact absurd rfl ha

/-- **What a command leaves alone.** -/
theorem exec_frame (d : Decision) (a : Act) (w : World) : Frame a w (exec d a w).2 := by
  have hres : Frame a w (residue d a w) := by
    unfold residue
    split
    · split
      · constructor <;> intros <;> rfl
      · exact Frame.refl _ w
    · exact Frame.refl _ w
  unfold exec
  split
  · split
    · exact Frame.refl _ w
    · constructor <;> intros <;> first | rfl | contradiction
  · exact Frame.refl _ w
  · split
    · exact hres
    · split
      · rename_i hp
        exact (perform_frame hp).1
      · exact Frame.refl _ w

/-- Without an interrupt the terminal is as it was. -/
theorem exec_echo {d : Decision} (hd : d.signal = none) (a : Act) (w : World) :
    (exec d a w).2.echo = w.echo := by
  have hres : (residue d a w).echo = w.echo := by
    unfold residue
    split
    · rw [if_neg (by simp [hd])]
    · rfl
  unfold exec
  split
  · split <;> rfl
  · rfl
  · split
    · exact hres
    · split
      · rename_i hp
        exact (perform_frame hp).2
      · rfl

/-! ## Single commands -/

/-- An ordinary command does what `perform` says, or fails and leaves at most
its residue. -/
theorem exec_cases (d : Decision) {a : Act} (ha : a.ordinary = true) (w : World) :
    (∃ out w', perform d a w = some (out, w') ∧ exec d a w = (⟨0, out⟩, w')) ∨
      exec d a w = (failed, residue d a w) ∨ exec d a w = (failed, w) := by
  unfold exec
  split
  · simp [Act.ordinary] at ha
  · simp [Act.ordinary] at ha
  · split
    · exact Or.inr (Or.inl rfl)
    · cases hp : perform d a w with
      | none => exact Or.inr (Or.inr rfl)
      | some x => exact Or.inl ⟨x.1, x.2, rfl, rfl⟩

/-- A command that succeeded did what `perform` says. -/
theorem perform_of_status {d : Decision} {a : Act} (ha : a.ordinary = true) {w : World}
    (h : (exec d a w).1.status = 0) :
    perform d a w = some ((exec d a w).1.out, (exec d a w).2) := by
  rcases exec_cases d ha w with ⟨out, w', hp, he⟩ | he | he
  · rw [he]
    exact hp
  · rw [he] at h
    exact absurd h Nat.one_ne_zero
  · rw [he] at h
    exact absurd h Nat.one_ne_zero

/-- A `mount` either succeeds, on a volume that exists, or changes nothing. -/
theorem exec_mount (d : Decision) (fs : Fs) (ro : Bool) (dev : Str) (point : Path) (w : World) :
    ((w.vols (.dev dev fs)).isSome = true ∧ w.isDir point = true ∧
      exec d (.mount fs ro dev point) w
        = (⟨0, []⟩, { w with mounts := ⟨point, .dev dev fs⟩ :: w.mounts })) ∨
      exec d (.mount fs ro dev point) w = (failed, w) := by
  rcases exec_cases d (a := .mount fs ro dev point) rfl w with ⟨out, w', hp, he⟩ | he | he
  · left
    simp only [perform, Option.ite_none_right_eq_some, Bool.and_eq_true, Option.some.injEq,
      Prod.mk.injEq] at hp
    obtain ⟨⟨hvol, hdir⟩, rfl, rfl⟩ := hp
    exact ⟨hvol, hdir, he⟩
  · exact Or.inr he
  · exact Or.inr he

theorem exec_sfdisk (d : Decision) (disk script : Str) (w : World) :
    (disk ∈ w.nodes ∧
      exec d (.sfdisk disk script) w = (⟨0, []⟩, w.partition disk d.layout)) ∨
      exec d (.sfdisk disk script) w = (failed, w) := by
  rcases exec_cases d (a := .sfdisk disk script) rfl w with ⟨out, w', hp, he⟩ | he | he
  · left
    simp only [perform, Option.ite_none_right_eq_some, Option.some.injEq, Prod.mk.injEq] at hp
    obtain ⟨hin, rfl, rfl⟩ := hp
    exact ⟨hin, he⟩
  · exact Or.inr he
  · exact Or.inr he

/-- A volume in use survives a new table, unless it is on a new partition. -/
theorem partition_vols {w : World} {disk : Str} {i : VolId} (t : Disk.Dump.Layout)
    (huse : w.inUse i = true) (hi : ∀ node ∈ w.newNodes disk, ∀ fs, i ≠ .dev node fs) :
    (w.partition disk t).vols i = w.vols i := by
  refine if_neg (fun h => ?_)
  cases i with
  | live => cases h
  | dev node fs =>
      simp only [World.overwrites, huse, Bool.not_true, Bool.and_false, Bool.or_false,
        List.contains_iff_mem] at h
      exact hi node h fs rfl

/-- New partitions are partitions of the disk. -/
theorem isNodeOf_newNodes {w : World} {disk node : Str} (h : node ∈ w.newNodes disk) :
    isNodeOf disk node = true := by
  unfold World.newNodes at h
  split at h
  · rename_i name hname
    obtain rfl : devPath name.text = disk := by simpa using List.find?_some hname
    simp only [partNodes, List.mem_cons, List.not_mem_nil, or_false] at h
    rcases h with rfl | rfl
    · exact isNodeOf_partNode name 1
    · exact isNodeOf_partNode name 2
  · cases h

/-- Partitioning does not reach beyond the disk and its partitions. -/
theorem partition_beyond {w : World} {disk : Str} {i : VolId} (t : Disk.Dump.Layout)
    (hi : ∀ node fs, i = .dev node fs → isNodeOf disk node = false) :
    (w.partition disk t).vols i = w.vols i := by
  refine if_neg (fun h => ?_)
  cases i with
  | live => cases h
  | dev node fs =>
      have hout := hi node fs rfl
      simp only [World.overwrites, hout, Bool.false_and, Bool.or_false,
        List.contains_iff_mem] at h
      rw [isNodeOf_newNodes h] at hout
      cases hout

/-- There is no file system on a new partition. -/
theorem partition_new {w : World} {disk node : Str} (t : Disk.Dump.Layout) (fs : Fs)
    (h : node ∈ w.newNodes disk) : (w.partition disk t).vols (.dev node fs) = none := by
  refine if_pos ?_
  simp only [World.overwrites, List.contains_iff_mem.mpr h, Bool.true_or]

/-- A new file system leaves those on other nodes alone. -/
theorem format_vols (w : World) {node : Str} (fs : Fs) {i : VolId}
    (hi : ∀ fs, i ≠ .dev node fs) : (w.format node fs).vols i = w.vols i := by
  cases i with
  | live => rfl
  | dev n f => exact if_neg (fun hn => hi f (by rw [hn]))

/-- The two `mkfs` of the script. -/
theorem exec_mkfs (d : Decision) {a : Act} {dev : Str} {fs : Fs}
    (ha : (a = .mkfsFat dev ∧ fs = .vfat) ∨ (a = .mke2fs dev ∧ fs = .ext4)) (w : World) :
    (dev ∈ w.nodes ∧ exec d a w = (⟨0, []⟩, w.format dev fs)) ∨ exec d a w = (failed, w) := by
  rcases ha with ⟨rfl, rfl⟩ | ⟨rfl, rfl⟩
  · rcases exec_cases d (a := .mkfsFat dev) rfl w with ⟨out, w', hp, he⟩ | he | he
    · left
      simp only [perform, Option.ite_none_right_eq_some, Option.some.injEq, Prod.mk.injEq] at hp
      obtain ⟨hin, rfl, rfl⟩ := hp
      exact ⟨hin, he⟩
    · exact Or.inr he
    · exact Or.inr he
  · rcases exec_cases d (a := .mke2fs dev) rfl w with ⟨out, w', hp, he⟩ | he | he
    · left
      simp only [perform, Option.ite_none_right_eq_some, Option.some.injEq, Prod.mk.injEq] at hp
      obtain ⟨hin, rfl, rfl⟩ := hp
      exact ⟨hin, he⟩
    · exact Or.inr he
    · exact Or.inr he

theorem exec_setTrap (d : Decision) (ps : Option (List Path)) (w : World) :
    exec d (.setTrap ps) w = (⟨0, []⟩, { w with trap := ps }) := by
  simp [exec, Act.certain, perform]

theorem exec_close (d : Decision) (w : World) :
    exec d .close w = (⟨0, []⟩, { w with held := w.held.tail }) := by
  simp [exec, Act.certain, perform]

theorem exec_umount {d : Decision} (hd : d.fails = false) (ps : List Path) (w : World) :
    exec d (.umount ps) w = (if umountOk w.held ps (points w.mounts) then ⟨0, []⟩ else failed,
      { w with mounts := umountAll w.held ps w.mounts }) := by
  simp [exec, hd]

/-- The output redirection of a compound command either holds the file or
changes nothing. -/
theorem exec_openOut (d : Decision) (p : Path) (w : World) :
    (w.canWrite p = true ∧
      exec d (.openOut p) w = (⟨0, []⟩, { w.store p [] with held := p :: w.held })) ∨
      exec d (.openOut p) w = (failed, w) := by
  rcases exec_cases d (a := .openOut p) rfl w with ⟨out, w', hp, he⟩ | he | he
  · left
    simp only [perform, Option.ite_none_right_eq_some, Option.some.injEq, Prod.mk.injEq] at hp
    obtain ⟨hw, rfl, rfl⟩ := hp
    exact ⟨hw, he⟩
  · exact Or.inr he
  · exact Or.inr he

theorem exec_openIn (d : Decision) (p : Path) (w : World) :
    (w.isFile p = true ∧
      exec d (.openIn p) w = (⟨0, w.text p⟩, { w with held := p :: w.held })) ∨
      exec d (.openIn p) w = (failed, w) := by
  rcases exec_cases d (a := .openIn p) rfl w with ⟨out, w', hp, he⟩ | he | he
  · left
    simp only [perform, Option.ite_none_right_eq_some, Option.some.injEq, Prod.mk.injEq] at hp
    obtain ⟨hw, rfl, rfl⟩ := hp
    exact ⟨hw, he⟩
  · exact Or.inr he
  · exact Or.inr he

/-- A prompt that does not fail answers with the line it was given. -/
theorem exec_prompt {d : Decision} {a : Act} {line : Option Str} {w : World}
    (ha : a = .readLine line ∨ ∃ prompt, a = .getpass prompt line)
    (h0 : (exec d a w).1.status = 0) : line = some (exec d a w).1.out := by
  rcases ha with rfl | ⟨prompt, rfl⟩
  · cases line with
    | none => cases hf : d.fails <;> simp [exec, hf, perform, failed, Act.certain] at h0
    | some l =>
        cases hf : d.fails
        · simp [exec, hf, perform]
        · simp [exec, hf, failed, Act.certain] at h0
  · cases line with
    | none => cases hf : d.fails <;> simp [exec, hf, perform, failed, Act.certain] at h0
    | some l =>
        cases hf : d.fails
        · simp [exec, hf, perform]
        · simp [exec, hf, failed, Act.certain] at h0

end Slinux.Installer.Effects
