import Slinux.Installer.Files

/-!
# The mounted target

From line 106 to line 198 the new ESP is mounted on `/mnt/root/boot/efi` and
the new root on `/mnt/root`, on top of whatever was mounted before.  In this
state (`Full`) a path below `/mnt/root/boot/efi` leads to the ESP, any other
path below `/mnt/root` to the new root, and no other path leads to either of
them.  The trap's `umount` succeeds only by taking both away.

The module is about two arbitrary volumes `e` and `r` in these places, because
the script's idea of the partitions need not be the kernel's.

## Main results

* `Full.locate_esp`, `Full.locate_root`, `Full.esp_path`, `Full.root_path` —
  paths and volumes of the mounted target.
* `Full.umount` — a successful cleanup leaves neither volume mounted.
* `look_write`, `look_cp`, `look_mv` — files after a successful command.
-/

namespace Slinux.Installer.Target

open Slinux.Shell.Text
open Slinux.Shell.Script
open Slinux.Unix.Files
open Slinux.Disk.Name
open Slinux.Installer.System
open Slinux.Installer.Effects
open Slinux.Installer.Script
open Slinux.Installer.Files

/-! ## Places -/

/-- Neither volume is mounted. -/
def Apart (e r : VolId) (ms : List (Mount VolId)) : Prop := ∀ m ∈ ms, m.vol ≠ e ∧ m.vol ≠ r

/-- The target is mounted, over mounts that have nothing to do with it. -/
structure Full (e r : VolId) (rest : List (Mount VolId)) (w : World) : Prop where
  mounts : w.mounts = ⟨esp, e⟩ :: ⟨mntRoot, r⟩ :: rest
  apart : Apart e r rest

section Paths

variable {e r : VolId} {rest : List (Mount VolId)} {w : World}

theorem Full.locate_esp (h : Full e r rest w) (q : Path) : w.locate (esp ++ q) = (e, q) := by
  unfold World.locate resolve
  rw [h.mounts, List.find?_cons_of_pos (by simp)]
  simp

/-- A path that is too short or goes elsewhere is not below the ESP. -/
theorem Full.locate_root (h : Full e r rest w) {q : Path} (hq : ¬ esp <+: mntRoot ++ q) :
    w.locate (mntRoot ++ q) = (r, q) := by
  unfold World.locate resolve
  rw [h.mounts, List.find?_cons_of_neg (by simpa using hq), List.find?_cons_of_pos (by simp)]
  simp

/-- The top directory of the target. -/
theorem Full.locate_top (h : Full e r rest w) (file : Str) :
    w.locate (mntRoot ++ [file]) = (r, [file]) := by
  apply h.locate_root
  intro hpre
  have hlen := hpre.length_le
  simp [esp, mntRoot] at hlen

/-- The files of the target's `/etc`. -/
theorem Full.locate_etc (h : Full e r rest w) (file : Str) :
    w.locate (etc file) = (r, ["etc".toList, file]) := by
  apply h.locate_root
  intro hpre
  have hthird : ["boot".toList, "efi".toList] <+: ["etc".toList, file] :=
    (List.prefix_append_right_inj mntRoot).mp hpre
  exact absurd (List.cons_prefix_cons.mp hthird).1 (by decide)

theorem Full.locate_etcDir (h : Full e r rest w) (file : Str) :
    w.locate (etc file).dropLast = (r, ["etc".toList]) := by
  exact h.locate_top _

/-- Only paths below its mount point lead to the ESP. -/
theorem Full.esp_path (h : Full e r rest w) (her : e ≠ r) (he : e ≠ .live) {p q : Path}
    (hloc : w.locate p = (e, q)) : p = esp ++ q := by
  rcases locate_vol w p with hlive | ⟨m, hm, hvol, hp⟩
  · rw [hloc] at hlive
    exact absurd hlive he
  · rw [hloc] at hvol hp
    rw [h.mounts] at hm
    simp only [List.mem_cons] at hm
    rcases hm with rfl | rfl | hm
    · exact hp
    · exact absurd hvol.symm her
    · exact absurd hvol (h.apart m hm).1

theorem Full.root_path (h : Full e r rest w) (her : e ≠ r) (hr : r ≠ .live) {p q : Path}
    (hloc : w.locate p = (r, q)) : p = mntRoot ++ q := by
  rcases locate_vol w p with hlive | ⟨m, hm, hvol, hp⟩
  · rw [hloc] at hlive
    exact absurd hlive hr
  · rw [hloc] at hvol hp
    rw [h.mounts] at hm
    simp only [List.mem_cons] at hm
    rcases hm with rfl | rfl | hm
    · exact absurd hvol her
    · exact hp
    · exact absurd hvol (h.apart m hm).2

/-- The target stays mounted under commands that change no mounts. -/
theorem Full.of_mounts (h : Full e r rest w) {v : World} (hv : v.mounts = w.mounts) :
    Full e r rest v :=
  ⟨hv.trans h.mounts, h.apart⟩

/-! ## Cleaning up -/

theorem umountOne_sub (held : List Path) (p : Path) (ms : List (Mount VolId)) :
    ∀ m ∈ umountOne held p ms, m ∈ ms := by
  intro m hm
  unfold umountOne at hm
  split at hm
  · exact List.mem_of_mem_eraseP hm
  · exact hm

/-- The latest mount stays when another point is unmounted. -/
theorem umountOne_cons (held : List Path) {p : Path} {m : Mount VolId} (hp : p ≠ m.point)
    (ms : List (Mount VolId)) :
    ∃ ms', umountOne held p (m :: ms) = m :: ms' ∧ ∀ x ∈ ms', x ∈ ms := by
  unfold umountOne
  split
  · refine ⟨ms.eraseP (fun x => p == x.point), ?_, fun x hx => List.mem_of_mem_eraseP hx⟩
    exact List.eraseP_cons_of_neg (by simpa using hp)
  · exact ⟨ms, rfl, fun x hx => hx⟩

/-- `umount` only removes. -/
theorem umountAll_sub (held : List Path) (ps : List Path) :
    ∀ (ms : List (Mount VolId)), ∀ m ∈ umountAll held ps ms, m ∈ ms := by
  induction ps with
  | nil => intro ms m hm; exact hm
  | cons p ps ih =>
      intro ms m hm
      exact umountOne_sub held p ms m (ih _ m hm)

theorem Apart.umountAll {ms : List (Mount VolId)} (h : Apart e r ms) (held ps : List Path) :
    Apart e r (umountAll held ps ms) :=
  fun m hm => h m (umountAll_sub held ps ms m hm)

/-- The first two operands of a successful cleanup unmount the target. -/
theorem Full.umountAll_eq (h : Full e r rest w) {held ps : List Path}
    (hok : umountOk held (esp :: mntRoot :: ps) (points w.mounts) = true) :
    umountAll held (esp :: mntRoot :: ps) w.mounts = umountAll held ps rest := by
  have hpoints : points w.mounts = esp :: mntRoot :: points rest := by
    rw [h.mounts]
    rfl
  rw [hpoints, umountOk, umountOk, Bool.and_eq_true, Bool.and_eq_true, List.erase_cons_head] at hok
  have hesp : umountOne held esp w.mounts = ⟨mntRoot, r⟩ :: rest := by
    rw [umountOne, hpoints, if_pos hok.1, h.mounts, List.eraseP_cons_of_pos (by simp)]
  have hroot : umountOne held mntRoot (⟨mntRoot, r⟩ :: rest) = rest := by
    have hcan : canUmount held mntRoot (points (⟨mntRoot, r⟩ :: rest)) = true := hok.2.1
    rw [umountOne, if_pos hcan, List.eraseP_cons_of_pos (by simp)]
  rw [umountAll, hesp, umountAll, hroot]

/-- **A successful cleanup leaves neither volume mounted.** -/
theorem Full.umount (h : Full e r rest w) {held ps : List Path}
    (hok : umountOk held (esp :: mntRoot :: ps) (points w.mounts) = true) :
    Apart e r (Unix.Files.umountAll held (esp :: mntRoot :: ps) w.mounts) := by
  rw [h.umountAll_eq hok]
  exact h.apart.umountAll held ps

end Paths

/-! ## Files after a command -/

section Commands

variable {d : Decision} {w : World} {i : VolId} {q : Path}

/-- A directory is on a volume. -/
theorem isSome_of_isDir {p s : Path} (h : w.isDir p = true) (hdir : w.locate p = (i, s)) :
    (w.vols i).isSome = true := by
  have hsee := (isDir_iff w p).mp h
  unfold see at hsee
  rw [hdir] at hsee
  exact vols_isSome_of_look hsee

/-- A file can be written only where there is a volume. -/
theorem isSome_of_canWrite {p s : Path} (h : w.canWrite p = true)
    (hdir : w.locate p.dropLast = (i, s)) : (w.vols i).isSome = true := by
  unfold World.canWrite at h
  rw [Bool.and_eq_true] at h
  exact isSome_of_isDir h.1 hdir

theorem text_of_look {p : Path} (hloc : w.locate p = (i, q)) {t : Str}
    (h : look w i q = some (.file t)) : w.text p = t := by
  apply text_of_see
  unfold see
  rw [hloc]
  exact h

/-- The text of a regular file. -/
def kindText : Kind → Option Str
  | .dir => none
  | .file t => some t

/-- The text of a file is part of what is seen. -/
theorem text_congr {v : World} {p : Path} (hw : w.locate p = (i, q)) (hv : v.locate p = (i, q))
    (h : look v i q = look w i q) : v.text p = w.text p := by
  have hdata : ∀ u : World, u.locate p = (i, q) →
      (u.node p).bind Node.data? = (look u i q).bind kindText := by
    intro u hu
    rw [node_of_locate hu]
    unfold look nodeAt
    cases (u.vols i).bind (fun f => f q) with
    | none => rfl
    | some n => rfl
  unfold World.text
  rw [hdata v hv, hdata w hw, h]

theorem look_write {append : Bool} {p s : Path} {text : Str}
    (h0 : (exec d (.write append p text) w).1.status = 0) (hloc : w.locate p = (i, q))
    (hdir : w.locate p.dropLast = (i, s)) :
    look (exec d (.write append p text) w).2 i q
      = some (.file ((if append then w.text p else []) ++ text)) := by
  have hp := perform_of_status rfl h0
  simp only [perform, Option.ite_none_right_eq_some, Option.some.injEq, Prod.mk.injEq] at hp
  rw [← hp.2.2, look_store, if_pos ⟨hloc, isSome_of_canWrite hp.1 hdir⟩]

theorem look_openOut {p s : Path} (h0 : (exec d (.openOut p) w).1.status = 0)
    (hloc : w.locate p = (i, q)) (hdir : w.locate p.dropLast = (i, s)) :
    look (exec d (.openOut p) w).2 i q = some (.file []) := by
  have hp := perform_of_status rfl h0
  simp only [perform, Option.ite_none_right_eq_some, Option.some.injEq, Prod.mk.injEq] at hp
  rw [← hp.2.2]
  refine (look_store w p [] i q).trans ?_
  rw [if_pos ⟨hloc, isSome_of_canWrite hp.1 hdir⟩]

theorem look_cp {src p s : Path} (h0 : (exec d (.cp src p) w).1.status = 0)
    (hloc : w.locate p = (i, q)) (hdir : w.locate p.dropLast = (i, s)) :
    look (exec d (.cp src p) w).2 i q = some (.file (w.text src)) := by
  have hp := perform_of_status rfl h0
  simp only [perform, Option.ite_none_right_eq_some, Option.some.injEq, Prod.mk.injEq,
    Bool.and_eq_true] at hp
  rw [← hp.2.2, look_store, if_pos ⟨hloc, isSome_of_canWrite hp.1.2 hdir⟩]

/-- A moved file is found under its new name. -/
theorem look_mv {src dst q' : Path} (h0 : (exec d (.mv src dst) w).1.status = 0)
    (hsrc : w.locate src = (i, q')) (hdst : w.locate dst = (i, q)) (hne : q' ≠ q) :
    look (exec d (.mv src dst) w).2 i q = look w i q' := by
  have hp := perform_of_status rfl h0
  simp only [perform, Option.ite_none_right_eq_some, Option.map_eq_some_iff, Prod.mk.injEq] at hp
  obtain ⟨_, n, hn, _, hw⟩ := hp
  have hkind : look w i q' = some n.kind := by
    have hsee : look w i q' = (w.node src).map Node.kind := by
      unfold look World.node
      rw [hsrc]
    rw [hsee, hn]
    rfl
  have hout : (w.put dst n).locate src ≠ (i, q) := by
    show w.locate src ≠ (i, q)
    rw [hsrc]
    intro h
    exact hne (Prod.mk.inj h).2
  rw [← hw, look_remove, if_neg hout, look_put, if_pos ⟨hdst, vols_isSome_of_look hkind⟩, hkind]

end Commands

end Slinux.Installer.Target
