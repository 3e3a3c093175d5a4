import Slinux.Installer.Outside
import Slinux.InstallSh.Effects

/-!
# What `install.sh` gives back

On its way `install.sh` attaches a loop device, makes two directories, and
mounts two file systems on them.  `cleanup` is there to undo this however the
script ends.  It consists of four commands, each tied to a variable, and runs
under `set -e`: the first command that fails is the last one.

The variables do not say how far the script has come.  Once a directory has
been made, `cleanup` takes it for mounted, and `umount` fails where it is not.
So everything is given back, unless the second `mktemp` or one of the mounts
failed; then at least one directory stays behind, and whatever else was open
with it.

## Main definitions

* `Holding` — what the script has open at a point of its way.
* `Released` — nothing is open any more.
* `Stuck` — a state in which `cleanup` stops at once.

## Main results

* `cleanup_bare`, `cleanup_mounted` — what `cleanup` undoes.
* `released_iff` — whole runs.
-/

namespace Slinux.InstallSh.Release

open Slinux.Shell.Text
open Slinux.Shell.Script
open Slinux.Shell.Logic
open Slinux.Unix.Files
open Slinux.Disk.Name
open Slinux.Installer.Accounts
open Slinux.Installer.System (World VolId Fs failed partNodes)
open Slinux.Installer.Effects (SameShell foldlM_sameShell mkdir_sameShell partition_vols
  format_vols)
open Slinux.Installer.Script (mntRoot volOf)
open Slinux.Installer.Files (nodeAt node_of_locate nodeAt_put)
open Slinux.Installer.Home (PlainComp walk_plain)
open Slinux.InstallSh.System
open Slinux.InstallSh.Script
open Slinux.InstallSh.Effects

/-! ## What is open -/

/-- A shell that has just been started. -/
structure Started (w : Host) : Prop where
  loop : w.loop = []
  rootmnt : w.rootmnt = none
  espmnt : w.espmnt = none
  trapped : w.trapped = false
  held : w.held = []

/-- Everything that was opened since `w` is closed in `v`. -/
structure Released (w v : Host) : Prop where
  loops : v.loops = w.loops
  mounts : v.mounts = w.mounts
  dirs : ∀ m p, v.var m = some p → v.node p = none

/-- `cleanup` stops at its first `umount`, and a directory is there. -/
def Stuck (w : Host) : Prop :=
  w.trapped = true ∧ (∃ m p, w.var m = some p ∧ (w.node p).isSome = true) ∧
    ∃ m p, w.var m = some p ∧ p ∉ points w.mounts ∧ (m = .root → w.espmnt = none)

section Holding

variable {w₀ w v : Host} {i : VolId} {q : Path} {dirs : List Str} {ms : List (Mount VolId)}

/-- The loop device of this run, if there is one, comes before the others. -/
def Looped (w₀ w : Host) : Prop :=
  (w.loop = [] ∧ w.loops = w₀.loops) ∨ (w.loop ≠ [] ∧ w.loops = w.loop :: w₀.loops)

/-- The directories `dirs` have been made, empty, where the volume `i` holds
the directory of `mktemp` at `q`, and the mounts `ms` have been added. -/
structure Holding (w₀ : Host) (i : VolId) (q : Path) (dirs : List Str)
    (ms : List (Mount VolId)) (w : Host) : Prop where
  tmp : w.tmp = w₀.tmp
  held : w.held = []
  rootmnt : w.rootmnt = dirs[0]?.map (fun x => w₀.tmp ++ [x])
  espmnt : w.espmnt = dirs[1]?.map (fun x => w₀.tmp ++ [x])
  mounts : w.mounts = ms ++ w₀.mounts
  made : ∀ x ∈ dirs, ∃ n, nodeAt w.toWorld i (q ++ [x]) = some n ∧ n.kind = .dir
  empty : ∀ x ∈ dirs, ∀ c, nodeAt w.toWorld i (q ++ [x] ++ [c]) = none
  free : ∀ x ∈ dirs, ∀ r ∈ points w₀.mounts, ¬ w₀.tmp ++ [x] <+: r
  rooted : ∀ p c, nodeAt w.toWorld i p = none → nodeAt w.toWorld i (p ++ [c]) = none
  used : w₀.inUse i = true

/-- The volume of the directory of `mktemp` stays in use. -/
theorem Holding.inUse (h : Holding w₀ i q dirs ms w) : w.inUse i = true := by
  have hused := h.used
  unfold World.inUse at hused ⊢
  rw [h.mounts, List.any_append]
  rw [Bool.or_eq_true] at hused ⊢
  exact hused.imp_right (fun hm => by rw [hm, Bool.or_true])

/-- A directory nothing is mounted on or below. -/
theorem free_not_mem {x : Str} (h : ∀ r ∈ points w₀.mounts, ¬ w₀.tmp ++ [x] <+: r) :
    w₀.tmp ++ [x] ∉ points w₀.mounts ∧ ∀ c, w₀.tmp ++ [x] ++ [c] ∉ points w₀.mounts :=
  ⟨fun hm => h _ hm (List.prefix_rfl), fun c hm => h _ hm (List.prefix_append _ [c])⟩

section Located

variable (hq : w₀.locate w₀.tmp = (i, q))

include hq

theorem locate_temp {x : Str} (hmounts : w.mounts = w₀.mounts)
    (h : ∀ r ∈ points w₀.mounts, ¬ w₀.tmp ++ [x] <+: r) :
    w.locate (w₀.tmp ++ [x]) = (i, q ++ [x]) ∧
      ∀ c, w.locate (w₀.tmp ++ [x] ++ [c]) = (i, q ++ [x] ++ [c]) := by
  obtain ⟨hself, hbelow⟩ := free_not_mem h
  have hdir : w.locate (w₀.tmp ++ [x]) = (i, q ++ [x]) := by
    unfold World.locate at hq ⊢
    rw [hmounts, resolve_child _ hself, hq]
  refine ⟨hdir, fun c => ?_⟩
  have hchild : w.locate (w₀.tmp ++ [x] ++ [c])
      = ((w.locate (w₀.tmp ++ [x])).1, (w.locate (w₀.tmp ++ [x])).2 ++ [c]) := by
    unfold World.locate
    rw [hmounts]
    exact resolve_child _ (hbelow c)
  rw [hchild, hdir]

/-- The directories of `mktemp`, with nothing mounted on them. -/
theorem Holding.node_temp (h : Holding w₀ i q dirs [] w) {x : Str} (hx : x ∈ dirs) :
    w.node (w₀.tmp ++ [x]) = nodeAt w.toWorld i (q ++ [x]) ∧
      ∀ c, w.node (w₀.tmp ++ [x] ++ [c]) = none := by
  obtain ⟨hdir, hchild⟩ := locate_temp hq h.mounts (h.free x hx)
  refine ⟨node_of_locate hdir, fun c => ?_⟩
  rw [node_of_locate (hchild c)]
  exact h.empty x hx c

theorem Holding.isDir_temp (h : Holding w₀ i q dirs [] w) {x : Str} (hx : x ∈ dirs) :
    w.isDir (w₀.tmp ++ [x]) = true := by
  obtain ⟨n, hn, hk⟩ := h.made x hx
  unfold World.isDir
  rw [(h.node_temp hq hx).1, hn]
  simp [hk]

/-! ## The commands of `cleanup` -/

omit hq in
theorem rmdirOne_eq {p : Path} (hdir : w.isDir p = true) (hout : p ∉ points w.mounts)
    (hempty : ∀ c, w.node (p ++ [c]) = none) (entries : List Str) :
    rmdirOne entries p w = some (w.lift (fun v => v.remove p)) := by
  have hnot : mountedOn p (points w.mounts) = false := by
    rw [← Bool.not_eq_true, mountedOn, List.contains_iff_mem]
    exact hout
  have hall : entries.all (fun c => (w.node (p ++ [c])).isNone) = true := by
    rw [List.all_eq_true]
    intro c _
    rw [hempty c]
    rfl
  unfold rmdirOne
  rw [hdir, hnot, hall]
  rfl

omit hq in
theorem nodeAt_remove {p : Path} (hp : w.locate p = (i, q)) (r : Path) :
    nodeAt (w.toWorld.remove p) i r = if r = q then none else nodeAt w.toWorld i r := by
  unfold nodeAt World.remove World.onVol
  rw [hp]
  simp only [if_true]
  cases w.vols i with
  | none =>
      show none = _
      split <;> rfl
  | some x => rfl

omit hq in
theorem node_remove {p z r : Path} (hp : w.locate p = (i, q)) (hz : w.locate z = (i, r)) :
    (w.lift (fun v => v.remove p)).node z = if r = q then none else nodeAt w.toWorld i r := by
  show (w.toWorld.remove p).node z = _
  rw [node_of_locate (show (w.toWorld.remove p).locate z = (i, r) from hz)]
  exact nodeAt_remove hp r

end Located

/-- `umount` of what was mounted last. -/
theorem Holding.umountDir {m : Dir} {p : Path} {j : VolId}
    (h : Holding w₀ i q dirs (⟨p, j⟩ :: ms) w) (hvar : w.var m = some p) :
    ∃ u, umountDir false m w = some u ∧ Holding w₀ i q dirs ms u ∧ u.loop = w.loop ∧
      u.loops = w.loops ∧ u.rootmnt = w.rootmnt ∧ u.espmnt = w.espmnt := by
  have hpoints : points w.mounts = p :: points (ms ++ w₀.mounts) := by
    rw [h.mounts]
    rfl
  have hcan : canUmount w.held p (points w.mounts) = true := by
    rw [h.held, hpoints]
    simp [canUmount, mountedOn, busy]
  have hleft : umountOne w.held p w.mounts = ms ++ w₀.mounts := by
    unfold umountOne
    rw [if_pos hcan, h.mounts]
    simp
  refine ⟨w.lift (fun v => { v with mounts := umountOne v.held p v.mounts }), ?_, ?_, rfl, rfl, rfl,
    rfl⟩
  · unfold System.umountDir
    rw [hvar]
    simp only [hcan, Bool.not_false, Bool.and_self, if_true]
  · exact ⟨h.tmp, h.held, h.rootmnt, h.espmnt, hleft, h.made, h.empty, h.free, h.rooted,
      h.used⟩

/-- `losetup -d`. -/
theorem Looped.detach (hloop : Looped w₀ w) : ∃ u, detach false w = some u ∧ u.loops = w₀.loops ∧
    u.mounts = w.mounts ∧ u.vols = w.vols ∧ u.rootmnt = w.rootmnt ∧ u.espmnt = w.espmnt ∧
    u.tmp = w.tmp ∧ u.held = w.held := by
  unfold System.detach
  rcases hloop with ⟨hl, hls⟩ | ⟨hl, hls⟩
  · rw [if_pos hl]
    exact ⟨w, rfl, hls, rfl, rfl, rfl, rfl, rfl, rfl⟩
  · rw [if_neg hl, hls]
    simp only [List.contains_cons, beq_self_eq_true, Bool.true_or, Bool.not_false, Bool.and_self,
      if_true]
    refine ⟨_, rfl, ?_, rfl, rfl, rfl, rfl, rfl, rfl⟩
    rw [List.erase_cons_head]

theorem Holding.of_same (h : Holding w₀ i q dirs ms w) (hvols : v.vols i = w.vols i)
    (hmounts : v.mounts = w.mounts) (hroot : v.rootmnt = w.rootmnt) (hesp : v.espmnt = w.espmnt)
    (htmp : v.tmp = w.tmp) (hheld : v.held = w.held) : Holding w₀ i q dirs ms v := by
  have hnode : ∀ p, nodeAt v.toWorld i p = nodeAt w.toWorld i p := fun p => by
    unfold nodeAt
    rw [hvols]
  refine ⟨htmp.trans h.tmp, hheld.trans h.held, hroot.trans h.rootmnt, hesp.trans h.espmnt,
    hmounts.trans h.mounts, ?_, ?_, h.free, ?_, h.used⟩
  · intro x hx
    rw [hnode]
    exact h.made x hx
  · intro x hx c
    rw [hnode]
    exact h.empty x hx c
  · intro p c
    rw [hnode, hnode]
    exact h.rooted p c

/-! ## What `cleanup` undoes -/

/-- The last command of `cleanup`, if the others succeed. -/
theorem cleanup_eq {d : Decision} {u₁ u₂ u₃ : Host}
    (h₁ : umountDir (d.refuses 0) .esp w = some u₁)
    (h₂ : umountDir (d.refuses 1) .root u₁ = some u₂)
    (h₃ : detach (d.refuses 2) u₂ = some u₃) : cleanup d w = removeDirs d u₃ := by
  simp only [cleanup, h₁, h₂, h₃]

theorem umountDir_none {m : Dir} (h : w.var m = none) (refused : Bool) :
    umountDir refused m w = some w := by
  unfold umountDir
  rw [h]

/-- Nothing but perhaps the loop device is open. -/
theorem cleanup_bare (h : Holding w₀ i q [] [] w) (hloop : Looped w₀ w) {d : Decision}
    (hwill : ∀ n, d.refuses n = false) : Released w₀ (cleanup d w).2 := by
  obtain ⟨u, hu, hloops, hmounts, _, hroot, hesp, _, _⟩ := hloop.detach
  rw [← hwill 2] at hu
  have huesp : u.espmnt = none := hesp.trans h.espmnt
  have hrun : (cleanup d w).2 = u := by
    rw [cleanup_eq (umountDir_none (m := .esp) h.espmnt _)
      (umountDir_none (m := .root) h.rootmnt _) hu]
    unfold removeDirs
    rw [huesp]
  rw [hrun]
  refine ⟨hloops, hmounts.trans h.mounts, fun m p hp => ?_⟩
  cases m with
  | root =>
      have hnone : u.var .root = none := hroot.trans h.rootmnt
      rw [hnone] at hp
      cases hp
  | esp =>
      have hnone : u.var .esp = none := huesp
      rw [hnone] at hp
      cases hp

section Both

variable (hq : w₀.locate w₀.tmp = (i, q)) {x y : Str} (hxy : x ≠ y)

include hq hxy

/-- `rmdir` of both directories. -/
theorem removeDirs_released (h : Holding w₀ i q [x, y] [] w) (hloops : w.loops = w₀.loops)
    {d : Decision} (hwill : d.refuses 3 = false) : Released w₀ (removeDirs d w).2 := by
  have hx : x ∈ [x, y] := List.mem_cons_self
  have hy : y ∈ [x, y] := List.mem_cons_of_mem _ List.mem_cons_self
  have hlocy := (locate_temp hq h.mounts (h.free y hy)).1
  have hlocx := locate_temp hq h.mounts (h.free x hx)
  have hne : q ++ [x] ≠ q ++ [y] := fun hc => hxy (by simpa using hc)
  have hpoints : points w.mounts = points w₀.mounts := congrArg points h.mounts
  have hout : ∀ {z}, z ∈ [x, y] → w₀.tmp ++ [z] ∉ points w.mounts := fun {z} hz => by
    rw [hpoints]
    exact (free_not_mem (h.free z hz)).1
  -- the other directory is there, and empty, when the first one is gone
  obtain ⟨n, hn, hk⟩ := h.made x hx
  have hnx : (w.lift (fun v => v.remove (w₀.tmp ++ [y]))).node (w₀.tmp ++ [x]) = some n := by
    rw [node_remove hlocy hlocx.1, if_neg hne, hn]
  have hcx : ∀ c, (w.lift (fun v => v.remove (w₀.tmp ++ [y]))).node (w₀.tmp ++ [x] ++ [c])
      = none := fun c => by
    rw [node_remove hlocy (hlocx.2 c)]
    split
    · rfl
    · exact h.empty x hx c
  have hfirst := rmdirOne_eq (h.isDir_temp hq hy) (hout hy) (h.node_temp hq hy).2 d.entries
  have hsecond := rmdirOne_eq (w := w.lift (fun v => v.remove (w₀.tmp ++ [y])))
    (p := w₀.tmp ++ [x]) (by unfold World.isDir; rw [hnx]; simp [hk]) (hout hx) hcx d.entries
  have hesp : w.espmnt = some (w₀.tmp ++ [y]) := h.espmnt
  have hroot : w.rootmnt = some (w₀.tmp ++ [x]) := h.rootmnt
  have hrun : (removeDirs d w).2
      = (w.lift (fun v => v.remove (w₀.tmp ++ [y]))).lift (fun v => v.remove (w₀.tmp ++ [x])) := by
    unfold removeDirs
    rw [hesp, hroot]
    simp only [hwill, Bool.false_eq_true, if_false, hfirst, Option.getD_some, hsecond]
  rw [hrun]
  refine ⟨hloops, h.mounts, fun m p hp => ?_⟩
  cases m with
  | root =>
      obtain rfl := Option.some.inj (hroot.symm.trans hp)
      rw [node_remove (w := w.lift (fun v => v.remove (w₀.tmp ++ [y]))) hlocx.1 hlocx.1, if_pos rfl]
  | esp =>
      obtain rfl := Option.some.inj (hesp.symm.trans hp)
      rw [node_remove (w := w.lift (fun v => v.remove (w₀.tmp ++ [y]))) hlocx.1 hlocy,
        if_neg (Ne.symm hne)]
      exact (nodeAt_remove hlocy _).trans (if_pos rfl)

/-- Everything is open. -/
theorem cleanup_mounted {r e : VolId}
    (h : Holding w₀ i q [x, y] [⟨w₀.tmp ++ [y], e⟩, ⟨w₀.tmp ++ [x], r⟩] w) (hloop : Looped w₀ w)
    {d : Decision} (hwill : ∀ n, d.refuses n = false) : Released w₀ (cleanup d w).2 := by
  obtain ⟨u₁, h₁, hheld₁, hloop₁, hloops₁, hroot₁, _⟩ := h.umountDir (m := .esp) h.espmnt
  obtain ⟨u₂, h₂, hheld₂, hloop₂, hloops₂, _, _⟩ :=
    hheld₁.umountDir (m := .root) hheld₁.rootmnt
  have hlooped : Looped w₀ u₂ := by
    unfold Looped
    rw [hloop₂, hloops₂, hloop₁, hloops₁]
    exact hloop
  obtain ⟨u₃, h₃, hloops, hmounts, hvols, hroot, hesp, htmp, hheld⟩ := hlooped.detach
  rw [← hwill 0] at h₁
  rw [← hwill 1] at h₂
  rw [← hwill 2] at h₃
  rw [cleanup_eq h₁ h₂ h₃]
  exact removeDirs_released hq hxy
    (hheld₂.of_same (congrFun hvols i) hmounts hroot hesp htmp hheld) hloops
    (hwill 3)

end Both

/-! ## The way there -/

/-- The commands that `cleanup` relies on. -/
def opens : Act → Bool
  | .mktemp .esp | .mount _ _ => true
  | _ => false

/-- The nodes whose file systems a command does away with. -/
def wiped (d : Decision) (w : Host) : Act → List Str
  | .sfdisk target _ => w.newNodes target
  | .losetup _ => partNodes d.loop
  | .mkfsVfat dev | .mkfsExt4 dev => [dev]
  | _ => []

/-- No signal arrives, the commands of `cleanup` fail only for lack of an
operand, and the file system `i` is not done away with. -/
structure Orderly (i : VolId) (e : Event Host Act Decision) : Prop where
  quiet : e.decision.signal = none
  willing : ∀ n, e.decision.refuses n = false
  spares : ∀ node ∈ wiped e.decision e.before e.act, ∀ fs, i ≠ .dev node fs

/-- The states the script can be left in without loss. -/
def Closable (w₀ : Host) (i : VolId) (q : Path) (w : Host) : Prop :=
  Looped w₀ w ∧
    ((Holding w₀ i q [] [] w ∧ (w.trapped = false → w.loop = [])) ∨
      (w.trapped = true ∧ ∃ x y r e, x ≠ y ∧
        Holding w₀ i q [x, y] [⟨w₀.tmp ++ [y], e⟩, ⟨w₀.tmp ++ [x], r⟩] w))

/-- `p` is left in a closable state, unless a command of `opens` fails; if `ok`
is assumed, none fails. -/
abbrev Opening {α : Type} (ok : Prop) (w₀ : Host) (i : VolId) (q : Path) (p : Prog Act α)
    (Q : α → Host → Prop) (w : Host) : Prop :=
  wp machine (fun e => Orderly i e ∧ (ok → opens e.act = true → e.resp.status = 0))
    (fun e => opens e.act = true → e.resp.status ≠ 0 → Stuck e.after) p Q
    (fun x v => x ≠ .killed ∧ (Closable w₀ i q v ∨ (¬ ok ∧ Stuck v))) w

/-- The script has nothing open, and has or has not set its trap. -/
structure Bare (w₀ : Host) (i : VolId) (q : Path) (trapped : Bool) (w : Host) : Prop where
  holding : Holding w₀ i q [] [] w
  trapped : w.trapped = trapped
  loop : w.loop = []
  loops : w.loops = w₀.loops

/-- At most the loop device is open. -/
structure Attached (w₀ : Host) (i : VolId) (q : Path) (w : Host) : Prop where
  holding : Holding w₀ i q [] [] w
  trapped : w.trapped = true
  looped : Looped w₀ w

/-- Everything is open, and the two file systems are not the one that holds
their mount points. -/
structure Mounted (w₀ : Host) (i : VolId) (q : Path) (w : Host) : Prop where
  trapped : w.trapped = true
  looped : Looped w₀ w
  dirs : ∃ x y r e, x ≠ y ∧ r ≠ i ∧ e ≠ i ∧
    Holding w₀ i q [x, y] [⟨w₀.tmp ++ [y], e⟩, ⟨w₀.tmp ++ [x], r⟩] w

theorem Bare.closable {t : Bool} (h : Bare w₀ i q t w) : Closable w₀ i q w :=
  ⟨Or.inl ⟨h.loop, h.loops⟩, Or.inl ⟨h.holding, fun _ => h.loop⟩⟩

theorem Attached.closable (h : Attached w₀ i q w) : Closable w₀ i q w :=
  ⟨h.looped, Or.inl ⟨h.holding, fun hf => by rw [h.trapped] at hf; cases hf⟩⟩

theorem Mounted.closable (h : Mounted w₀ i q w) : Closable w₀ i q w := by
  obtain ⟨x, y, r, e, hxy, _, _, hheld⟩ := h.dirs
  exact ⟨h.looped, Or.inr ⟨h.trapped, x, y, r, e, hxy, hheld⟩⟩

/-- Commands before anything is open, `losetup` and the trap apart. -/
def prepares : Act → Bool
  | .say _ | .isDir _ | .isFile _ | .truncate _ _ | .sfdisk _ _ | .mkfsVfat _ | .mkfsExt4 _
  | .blkid _ => true
  | _ => false

/-- What a command does that only prepares. -/
theorem exec_prepares {d : Decision} {a : Act} (ha : prepares a = true) (w : Host)
    (hused : w.inUse i = true) (hspare : ∀ node ∈ wiped d w a, ∀ fs, i ≠ .dev node fs) :
    ∃ u image, (exec d a w).2 = { w with toWorld := u, image := image } ∧
      u.vols i = w.vols i ∧ u.mounts = w.mounts ∧ u.held = w.held := by
  have hne : a ≠ .cleanup := fun h => by rw [h] at ha; cases ha
  rcases exec_cases d hne w with ⟨out, v, hp, he⟩ | he
  · rw [he]
    cases a
    case say =>
      simp only [perform, Option.some.injEq, Prod.mk.injEq] at hp
      exact hp.2 ▸ ⟨_, w.image, rfl, rfl, rfl, rfl⟩
    case isDir | isFile | blkid =>
      simp only [perform, Option.ite_none_right_eq_some, Option.some.injEq, Prod.mk.injEq] at hp
      exact hp.2.2 ▸ ⟨w.toWorld, w.image, rfl, rfl, rfl, rfl⟩
    case truncate =>
      simp only [perform, Option.some.injEq, Prod.mk.injEq] at hp
      exact hp.2 ▸ ⟨w.toWorld, _, rfl, rfl, rfl, rfl⟩
    case sfdisk target script =>
      simp only [perform, Option.ite_none_right_eq_some, Option.some.injEq, Prod.mk.injEq] at hp
      exact hp.2.2 ▸ ⟨_, w.image, rfl, partition_vols _ hused hspare, rfl, rfl⟩
    case mkfsVfat dev =>
      simp only [perform, Option.ite_none_right_eq_some, Option.some.injEq, Prod.mk.injEq] at hp
      exact hp.2.2 ▸ ⟨_, w.image, rfl,
        format_vols _ _ (hspare dev (List.mem_singleton.mpr rfl)), rfl, rfl⟩
    case mkfsExt4 dev =>
      simp only [perform, Option.ite_none_right_eq_some, Option.some.injEq, Prod.mk.injEq] at hp
      exact hp.2.2 ▸ ⟨_, w.image, rfl,
        format_vols _ _ (hspare dev (List.mem_singleton.mpr rfl)), rfl, rfl⟩
    all_goals cases ha
  · rw [he]
    exact ⟨w.toWorld, w.image, rfl, rfl, rfl, rfl⟩

/-! ### Rules -/

section Rules

variable {α : Type} {ok : Prop} {Q : α → Host → Prop}

theorem exited_ne (s : Nat) : Ended.exited s ≠ .killed := fun h => by cases h

/-- A command other than the trap that fails changes nothing. -/
theorem exec_failed {d : Decision} {a : Act} (ha : a ≠ .cleanup) (h : (exec d a w).1.status ≠ 0) :
    (exec d a w).2 = w := by
  rcases exec_cases d ha w with ⟨out, v, _, he⟩ | he
  · rw [he] at h
    exact absurd rfl h
  · rw [he]

/-- The common form of the commands under `set -e`. -/
theorem opening_untested {a : Act} {β : Type} {value : Resp → β} {status : Resp → Nat}
    {f : β → Prog Act α} (ha : a ≠ .cleanup)
    (hfail : if opens a then Stuck w else Closable w₀ i q w)
    (h : ∀ d, Orderly i (machine.event a d w) → (exec d a w).1.status = 0 →
      Opening ok w₀ i q (f (value (exec d a w).1)) Q (exec d a w).2) :
    Opening ok w₀ i q ((Prog.step a (fun r =>
      if r.status = 0 then Prog.ret (value r) else .exit (status r))) >>= f) Q w := by
  refine wp_step (fun _ hA => hA.1.quiet) (fun d hA => ?_)
  show _ ∧ wp machine _ _ ((if (exec d a w).1.status = 0 then Prog.ret (value (exec d a w).1)
    else .exit (status (exec d a w).1)).bind f) Q _ (exec d a w).2
  by_cases h0 : (exec d a w).1.status = 0
  · rw [if_pos h0]
    exact ⟨fun _ hne => absurd h0 hne, h d hA.1 h0⟩
  · rw [if_neg h0]
    have hsame := exec_failed ha h0
    cases hopens : opens a with
    | true =>
        rw [if_pos hopens] at hfail
        have hstuck : Stuck (exec d a w).2 := hsame.symm ▸ hfail
        exact ⟨fun _ _ => hstuck, exited_ne _, Or.inr ⟨fun hok => h0 (hA.2 hok hopens), hstuck⟩⟩
    | false =>
        rw [if_neg (by rw [hopens]; exact Bool.false_ne_true)] at hfail
        exact ⟨fun hc => absurd (hopens.symm.trans hc) Bool.false_ne_true,
          exited_ne _, Or.inl (hsame.symm ▸ hfail)⟩

/-- A phase all of whose commands keep an invariant. -/
theorem opening_acts {T P : Act → Prop} {I : Host → Prop} (hI : ∀ v, I v → Closable w₀ i q v)
    (hP : ∀ a, P a → opens a = false)
    (hstep : ∀ a d v, P a → I v → Orderly i (machine.event a d v) → I (exec d a v).2)
    {p : Prog Act α} (hp : Acts T P p) (hw : I w) : Opening ok w₀ i q p (fun _ => I) w := by
  refine wp_invariant (fun a d v ha hv hA => ⟨fun hc => ?_, ?_⟩)
    (fun _ v _ hv => ⟨exited_ne _, Or.inl (hI v hv)⟩) hp hw
  · exact absurd ((hP a ha).symm.trans hc) Bool.false_ne_true
  · exact resume_quiet hA.1.quiet (hstep a d v ha hv hA.1)

theorem opening_exit (s : Nat) (h : Closable w₀ i q w) :
    Opening ok w₀ i q (Prog.exit s : Prog Act α) Q w :=
  ⟨exited_ne s, Or.inl h⟩

theorem opening_then {β : Type} {p : Prog Act α} {f : α → Prog Act β} {R : β → Host → Prop}
    (hp : Opening ok w₀ i q p Q w) (hf : ∀ a v, Q a v → Opening ok w₀ i q (f a) R v) :
    Opening ok w₀ i q (p >>= f) R w :=
  wp_bind _ _ (wp_mono hf (fun _ _ h => h) hp)

end Rules

/-! ### Phases -/

section Phases

variable {α : Type} {ok : Prop}

/-- What the preparing commands keep. -/
theorem Holding.prepares (h : Holding w₀ i q [] [] w) {d : Decision} {a : Act}
    (ha : prepares a = true) (hA : Orderly i (machine.event a d w)) :
    Holding w₀ i q [] [] (exec d a w).2 ∧ (exec d a w).2.loop = w.loop ∧
      (exec d a w).2.loops = w.loops ∧ (exec d a w).2.trapped = w.trapped := by
  obtain ⟨u, image, he, hvols, hmounts, hheld⟩ := exec_prepares (d := d) ha w h.inUse hA.spares
  rw [he]
  exact ⟨h.of_same hvols hmounts rfl rfl rfl hheld, rfl, rfl, rfl⟩

theorem opens_of_prepares {a : Act} (ha : prepares a = true) : opens a = false := by
  cases a <;> first | rfl | cases ha

theorem opening_bare {t : Bool} {T : Act → Prop} {p : Prog Act α}
    (hp : Acts T (fun a => prepares a = true) p) (hw : Bare w₀ i q t w) :
    Opening ok w₀ i q p (fun _ => Bare w₀ i q t) w := by
  refine opening_acts (fun _ h => h.closable) (fun _ => opens_of_prepares) ?_ hp hw
  intro a d v ha hv hA
  obtain ⟨hheld, hloop, hloops, htrapped⟩ := hv.holding.prepares ha hA
  exact ⟨hheld, htrapped.trans hv.trapped, hloop.trans hv.loop, hloops.trans hv.loops⟩

theorem Attached.prepares (h : Attached w₀ i q w) {d : Decision} {a : Act}
    (ha : prepares a = true) (hA : Orderly i (machine.event a d w)) :
    Attached w₀ i q (exec d a w).2 := by
  obtain ⟨hheld, hloop, hloops, htrapped⟩ := h.holding.prepares ha hA
  refine ⟨hheld, htrapped.trans h.trapped, ?_⟩
  unfold Looped
  rw [hloop, hloops]
  exact h.looped

/-- Lines 11 to 27. -/
theorem opening_partition (target size : Str) (hw : Bare w₀ i q false w) :
    Opening ok w₀ i q (partition target size) (fun _ => Bare w₀ i q false) w := by
  have hcmd : ∀ {a : Act}, prepares a = true →
      Acts Tested (fun a => prepares a = true) (cmd a) := fun h => acts_cmd h
  refine opening_bare (T := Tested) ?_ hw
  have hsize : Acts Tested (fun a => prepares a = true) (sizeImage target size) :=
    acts_ite trivial (hcmd rfl)
  refine acts_bind hsize (fun _ => ?_)
  refine acts_bind (hcmd rfl) (fun _ => ?_)
  exact hcmd rfl

/-- Lines 40 to 46. -/
theorem opening_findParts (target : Str) (hw : Bare w₀ i q true w) :
    Opening ok w₀ i q (findParts target) (fun _ => Attached w₀ i q) w := by
  have hbare : Attached w₀ i q w := ⟨hw.holding, hw.trapped, Or.inl ⟨hw.loop, hw.loops⟩⟩
  unfold findParts
  cases isDevice target with
  | true => exact hbare
  | false =>
      refine opening_untested (a := .losetup target) (fun h => by cases h) hw.closable ?_
      intro d hA h0
      have hp := perform_of_status (fun h => by cases h) h0
      simp only [perform, Option.ite_none_right_eq_some, Option.some.injEq, Prod.mk.injEq] at hp
      rw [← hp.2.2]
      refine ⟨hw.holding.of_same ?_ rfl rfl rfl rfl rfl, hw.trapped, Or.inr ⟨?_, ?_⟩⟩
      · cases i with
        | live => rfl
        | dev n f =>
            refine if_neg (fun hc => hA.spares n ?_ f rfl)
            split at hc
            · exact hc
            · exact absurd hc List.not_mem_nil
      · exact List.cons_ne_nil _ _
      · exact congrArg (devPath d.loop.text :: ·) hw.loops

/-- Lines 48 to 51, behind which neither partition holds the directory of
`mktemp`. -/
theorem opening_makeFilesystems (parts : Str) (hw : Attached w₀ i q w) :
    Opening ok w₀ i q (makeFilesystems parts) (fun _ v => Attached w₀ i q v ∧
      ∀ n, n = 1 ∨ n = 2 → ∀ fs, i ≠ .dev (part parts n) fs) w := by
  have hsay : Acts Tested (fun a => prepares a = true)
      (cmd (.say "creating filesystems".toList)) := acts_cmd rfl
  refine opening_then (opening_acts (fun _ h => h.closable) (fun _ => opens_of_prepares)
    (fun _ _ _ ha hv hA => hv.prepares ha hA) hsay hw) (fun _ v hv => ?_)
  refine opening_untested (fun h => by cases h) hv.closable (fun d hA _ => ?_)
  have hfat := hA.spares _ (List.mem_singleton.mpr rfl)
  have hv := hv.prepares rfl hA
  refine opening_untested (fun h => by cases h) hv.closable (fun d hA _ => ?_)
  have hext := hA.spares _ (List.mem_singleton.mpr rfl)
  have hv := hv.prepares rfl hA
  rw [← bind_ret (capture _)]
  refine opening_untested (fun h => by cases h) hv.closable (fun d hA _ => ?_)
  refine ⟨hv.prepares rfl hA, fun n hn => ?_⟩
  rcases hn with rfl | rfl
  · exact hfat
  · exact hext

/-! ### The mounts -/

section Mounting

variable (hq : w₀.locate w₀.tmp = (i, q))

include hq

omit hq in
@[simp] theorem setVar_toWorld (w : Host) (m : Dir) (p : Path) :
    (w.setVar m p).toWorld = w.toWorld := by cases m <;> rfl

omit hq in
@[simp] theorem setVar_tmp (w : Host) (m : Dir) (p : Path) : (w.setVar m p).tmp = w.tmp := by
  cases m <;> rfl

omit hq in
/-- A `mktemp -d` that succeeds makes a directory where nothing was. -/
theorem exec_mktemp {m : Dir} {d : Decision} (h0 : (exec d (.mktemp m) w).1.status = 0) :
    (w.node w.tmp).isSome = true ∧ w.node (w.tmp ++ [d.temp]) = none ∧
      (∀ r ∈ points w.mounts, ¬ w.tmp ++ [d.temp] <+: r) ∧
      (exec d (.mktemp m) w).2 = (w.lift (fun v => v.put (w.tmp ++ [d.temp])
        ⟨.dir, 0o700, w.owner.1, w.owner.2⟩)).setVar m (w.tmp ++ [d.temp]) := by
  have hp := perform_of_status (fun h => by cases h) h0
  simp only [perform, Option.ite_none_right_eq_some, Option.some.injEq, Prod.mk.injEq,
    Bool.and_eq_true, Option.isNone_iff_eq_none, Bool.not_eq_true', List.any_eq_false,
    List.isPrefixOf_iff_prefix] at hp
  obtain ⟨⟨⟨hdir, hnone⟩, hfree⟩, _, hv⟩ := hp
  refine ⟨?_, hnone, hfree, hv.symm⟩
  unfold World.isDir at hdir
  cases hn : w.node w.tmp with
  | none => rw [hn] at hdir; cases hdir
  | some n => rfl

omit hq in
/-- One more directory, where the volume `i` had nothing. -/
theorem Holding.add (h : Holding w₀ i q dirs [] w) {x : Str} {n : Node} (hk : n.kind = .dir)
    (hdir : (nodeAt w.toWorld i q).isSome = true)
    (hnone : nodeAt w.toWorld i (q ++ [x]) = none)
    (hfree : ∀ r ∈ points w₀.mounts, ¬ w₀.tmp ++ [x] <+: r)
    (hnode : ∀ r, nodeAt v.toWorld i r = if r = q ++ [x] then some n else nodeAt w.toWorld i r)
    (htmp : v.tmp = w.tmp) (hheld : v.held = w.held) (hmounts : v.mounts = w.mounts)
    (hroot : v.rootmnt = (dirs ++ [x])[0]?.map (fun x => w₀.tmp ++ [x]))
    (hesp : v.espmnt = (dirs ++ [x])[1]?.map (fun x => w₀.tmp ++ [x])) :
    Holding w₀ i q (dirs ++ [x]) [] v := by
  refine ⟨htmp.trans h.tmp, hheld.trans h.held, hroot, hesp, hmounts.trans h.mounts, ?_, ?_, ?_,
    ?_, h.used⟩
  · intro y hy
    rw [hnode]
    split
    · exact ⟨_, rfl, hk⟩
    · rename_i hne
      refine h.made y ((List.mem_append.mp hy).resolve_right (fun hc => hne ?_))
      rw [List.mem_singleton.mp hc]
  · intro y hy c
    rw [hnode, if_neg (fun hc => by simpa using congrArg List.length hc)]
    rcases List.mem_append.mp hy with hy | hy
    · exact h.empty y hy c
    · rw [List.mem_singleton.mp hy]
      exact h.rooted _ c hnone
  · intro y hy
    rcases List.mem_append.mp hy with hy | hy
    · exact h.free y hy
    · rw [List.mem_singleton.mp hy]
      exact hfree
  · intro p c hp
    rw [hnode] at hp ⊢
    split at hp
    · cases hp
    · rw [if_neg, h.rooted p c hp]
      intro hc
      obtain ⟨rfl, _⟩ := List.append_inj' hc rfl
      rw [hp] at hdir
      cases hdir

/-- `mktemp -d` adds a directory to those there are. -/
theorem Holding.mktemp (h : Holding w₀ i q dirs [] w) {m : Dir} {d : Decision}
    (h0 : (exec d (.mktemp m) w).1.status = 0)
    (hroot : (w.setVar m (w₀.tmp ++ [d.temp])).rootmnt
      = (dirs ++ [d.temp])[0]?.map (fun x => w₀.tmp ++ [x]))
    (hesp : (w.setVar m (w₀.tmp ++ [d.temp])).espmnt
      = (dirs ++ [d.temp])[1]?.map (fun x => w₀.tmp ++ [x])) :
    d.temp ∉ dirs ∧ Holding w₀ i q (dirs ++ [d.temp]) [] (exec d (.mktemp m) w).2 ∧
      (exec d (.mktemp m) w).2.trapped = w.trapped ∧
      (exec d (.mktemp m) w).2.loop = w.loop ∧ (exec d (.mktemp m) w).2.loops = w.loops := by
  obtain ⟨hdir, hnone, hfree, hv⟩ := exec_mktemp h0
  rw [h.tmp] at hdir hnone hfree hv
  rw [show points w.mounts = points w₀.mounts from congrArg points h.mounts] at hfree
  have hloc := (locate_temp hq h.mounts hfree).1
  have hloctmp : w.locate w₀.tmp = (i, q) := by
    unfold World.locate at hq ⊢
    rw [h.mounts]
    exact hq
  rw [node_of_locate hloctmp] at hdir
  rw [node_of_locate hloc] at hnone
  have hmem : d.temp ∉ dirs := by
    intro hc
    obtain ⟨n, hn, _⟩ := h.made _ hc
    rw [hnone] at hn
    cases hn
  have hvol : (w.vols i).isSome = true := by
    obtain ⟨n, hn⟩ := Option.isSome_iff_exists.mp hdir
    exact Installer.Files.vols_isSome_of_nodeAt hn
  have hnode : ∀ r, nodeAt (exec d (.mktemp m) w).2.toWorld i r
      = if r = q ++ [d.temp] then some ⟨.dir, 0o700, w.owner.1, w.owner.2⟩
        else nodeAt w.toWorld i r := by
    intro r
    have hput := nodeAt_put w.toWorld (w₀.tmp ++ [d.temp]) ⟨.dir, 0o700, w.owner.1, w.owner.2⟩ i r
    rw [hloc] at hput
    rw [hv, setVar_toWorld]
    exact hput.trans (by simp [hvol, eq_comm])
  refine ⟨hmem, h.add (n := ⟨.dir, 0o700, w.owner.1, w.owner.2⟩) rfl hdir hnone hfree hnode
    ?_ ?_ ?_ ?_ ?_, ?_, ?_, ?_⟩
  · rw [hv, setVar_tmp]; rfl
  · rw [hv, setVar_toWorld]; rfl
  · rw [hv, setVar_toWorld]; rfl
  · rw [hv, ← hroot]; cases m <;> rfl
  · rw [hv, ← hesp]; cases m <;> rfl
  · rw [hv]; cases m <;> rfl
  · rw [hv]; cases m <;> rfl
  · rw [hv]; cases m <;> rfl

theorem Holding.stuck_root {x : Str} (h : Holding w₀ i q [x] [] w) (ht : w.trapped = true) :
    Stuck w := by
  have hx : x ∈ [x] := List.mem_cons_self
  have hvar : w.var .root = some (w₀.tmp ++ [x]) := h.rootmnt
  obtain ⟨n, hn, _⟩ := h.made x hx
  refine ⟨ht, ⟨.root, _, hvar, ?_⟩, .root, _, hvar, ?_, fun _ => h.espmnt⟩
  · rw [(h.node_temp hq hx).1, hn]
    rfl
  · rw [h.mounts]
    exact (free_not_mem (h.free x hx)).1

/-- The second directory is not mounted, and the first one perhaps. -/
theorem Holding.stuck_esp {x y : Str} (hxy : x ≠ y) (h : Holding w₀ i q [x, y] ms w)
    (hms : ∀ m ∈ ms, m.point = w₀.tmp ++ [x]) (ht : w.trapped = true) : Stuck w := by
  have hy : y ∈ [x, y] := List.mem_cons_of_mem _ List.mem_cons_self
  have hvar : w.var .esp = some (w₀.tmp ++ [y]) := h.espmnt
  have hskip : ∀ m ∈ ms, ¬ m.point <+: w₀.tmp ++ [y] := by
    intro m hm hpre
    rw [hms m hm] at hpre
    have heq := hpre.eq_of_length (by simp)
    exact hxy (by simpa using heq)
  have hloc : w.locate (w₀.tmp ++ [y]) = (i, q ++ [y]) := by
    have hfind : ms.find? (fun m => m.point.isPrefixOf (w₀.tmp ++ [y])) = none := by
      rw [List.find?_eq_none]
      intro m hm hpre
      exact hskip m hm (List.isPrefixOf_iff_prefix.mp hpre)
    rw [← (locate_temp (w := w₀) hq rfl (h.free y hy)).1]
    unfold World.locate resolve
    rw [h.mounts, List.find?_append, hfind]
    rfl
  obtain ⟨n, hn, _⟩ := h.made y hy
  refine ⟨ht, ⟨.esp, _, hvar, ?_⟩, .esp, _, hvar, ?_, fun hc => by cases hc⟩
  · rw [node_of_locate hloc, hn]
    rfl
  · rw [h.mounts, points, List.map_append, List.mem_append]
    rintro (hm | hm)
    · obtain ⟨m, hm, heq⟩ := List.mem_map.mp hm
      exact hskip m hm (heq ▸ List.prefix_rfl)
    · exact (free_not_mem (h.free y hy)).1 hm

omit hq in
/-- A mount on one of the two directories. -/
theorem Holding.mount {m : Dir} {dev : Str} {d : Decision} {p : Path}
    (h : Holding w₀ i q dirs ms w) (h0 : (exec d (.mount dev m) w).1.status = 0)
    (hvar : w.var m = some p) :
    ∃ fs, Holding w₀ i q dirs (⟨p, .dev dev fs⟩ :: ms) (exec d (.mount dev m) w).2 ∧
      (exec d (.mount dev m) w).2.trapped = w.trapped ∧
      (exec d (.mount dev m) w).2.loop = w.loop ∧
      (exec d (.mount dev m) w).2.loops = w.loops := by
  have hp := perform_of_status (fun h => by cases h) h0
  simp only [perform, Option.ite_none_right_eq_some, Option.map_eq_some_iff, Prod.mk.injEq] at hp
  obtain ⟨_, fs, _, _, hv⟩ := hp
  have hpath : w.path m [] = p := by
    show (w.var m).getD [] = p
    rw [hvar]
    rfl
  rw [hpath] at hv
  rw [← hv]
  have hmounts : (⟨p, .dev dev fs⟩ :: w.mounts : List (Mount VolId))
      = ⟨p, .dev dev fs⟩ :: ms ++ w₀.mounts := by rw [h.mounts, List.cons_append]
  exact ⟨fs, ⟨h.tmp, h.held, h.rootmnt, h.espmnt, hmounts, h.made, h.empty, h.free, h.rooted,
    h.used⟩, rfl, rfl, rfl⟩

/-- Lines 53 to 56. -/
theorem opening_mountTarget {parts : Str} (hw : Attached w₀ i q w)
    (hparts : ∀ n, n = 1 ∨ n = 2 → ∀ fs, i ≠ .dev (part parts n) fs) :
    Opening ok w₀ i q (mountTarget parts) (fun _ => Mounted w₀ i q) w := by
  have hlooped : ∀ {u v : Host}, Looped w₀ u → v.loop = u.loop → v.loops = u.loops →
      Looped w₀ v := by
    intro u v hu hloop hloops
    unfold Looped
    rw [hloop, hloops]
    exact hu
  refine opening_untested (fun h => by cases h) hw.closable (fun d₁ _ h₁ => ?_)
  obtain ⟨-, hheld₁, ht₁, hl₁, hls₁⟩ := hw.holding.mktemp hq h₁ rfl hw.holding.espmnt
  have hloop₁ := hlooped hw.looped hl₁ hls₁
  rw [hw.trapped] at ht₁
  refine opening_untested (fun h => by cases h) (hheld₁.stuck_root hq ht₁) (fun d₂ _ h₂ => ?_)
  obtain ⟨hne, hheld₂, ht₂, hl₂, hls₂⟩ := hheld₁.mktemp hq h₂ hheld₁.rootmnt rfl
  have hloop₂ := hlooped hloop₁ hl₂ hls₂
  rw [ht₁] at ht₂
  have hxy : d₁.temp ≠ d₂.temp := fun hc => hne (hc ▸ List.mem_cons_self)
  refine opening_untested (fun h => by cases h)
    (hheld₂.stuck_esp hq hxy (fun m hm => absurd hm List.not_mem_nil) ht₂) (fun d₃ _ h₃ => ?_)
  obtain ⟨fs₂, hheld₃, ht₃, hl₃, hls₃⟩ := hheld₂.mount (m := .root) h₃ hheld₂.rootmnt
  have hloop₃ := hlooped hloop₂ hl₃ hls₃
  rw [ht₂] at ht₃
  rw [← bind_ret (cmd _)]
  refine opening_untested (fun h => by cases h)
    (hheld₃.stuck_esp hq hxy (fun m hm => by rw [List.mem_singleton.mp hm]) ht₃)
    (fun d₄ _ h₄ => ?_)
  obtain ⟨fs₁, hheld₄, ht₄, hl₄, hls₄⟩ := hheld₃.mount (m := .esp) h₄ hheld₃.espmnt
  exact ⟨ht₄.trans ht₃, hlooped hloop₃ hl₄ hls₄, d₁.temp, d₂.temp, _, _, hxy,
    (hparts 2 (Or.inr rfl) fs₂).symm, (hparts 1 (Or.inl rfl) fs₁).symm, hheld₄⟩

/-! ### With everything mounted -/

omit hq in
/-- Plain paths lead to the two new file systems. -/
theorem Holding.locate_ne {x y : Str} {r e : VolId} (hxy : x ≠ y) (hr : r ≠ i) (he : e ≠ i)
    (h : Holding w₀ i q [x, y] [⟨w₀.tmp ++ [y], e⟩, ⟨w₀.tmp ++ [x], r⟩] w) (m : Dir)
    {rel : List Str} (hrel : ∀ c ∈ rel, PlainComp c) : (w.locate (w.path m rel)).1 ≠ i := by
  cases m with
  | esp =>
      rw [path_plain (show w.var .esp = some (w₀.tmp ++ [y]) from h.espmnt) hrel]
      unfold World.locate resolve
      rw [h.mounts, List.cons_append, List.find?_cons_of_pos (by simp)]
      exact he
  | root =>
      rw [path_plain (show w.var .root = some (w₀.tmp ++ [x]) from h.rootmnt) hrel]
      have hesp : ¬ w₀.tmp ++ [y] <+: w₀.tmp ++ [x] ++ rel := by
        rw [List.append_assoc, List.prefix_append_right_inj, List.singleton_append,
          List.cons_prefix_cons]
        exact fun hpre => hxy hpre.1.symm
      unfold World.locate resolve
      rw [h.mounts, List.cons_append, List.find?_cons_of_neg (by simpa using hesp),
        List.cons_append, List.find?_cons_of_pos (by simp)]
      exact hr

omit hq in
/-- A command that fills keeps everything open. -/
theorem Mounted.fills (h : Mounted w₀ i q w) {a : Act} (ha : Fills a) (d : Decision) :
    Mounted w₀ i q (exec d a w).2 := by
  obtain ⟨x, y, r, e, hxy, hr, he, hheld⟩ := h.dirs
  obtain ⟨vols, out, echo, hv, hother⟩ := exec_fills d ha.1 w
  have hvol : vols i = w.vols i := by
    refine hother i (fun p hp => ?_)
    obtain ⟨m, rel, rfl, hrel⟩ := reaches_plain ha.2 hp
    exact hheld.locate_ne hxy hr he m hrel
  rw [hv]
  exact ⟨h.trapped, h.looped, x, y, r, e, hxy, hr, he,
    hheld.of_same hvol rfl rfl rfl rfl rfl⟩

omit hq in
theorem opening_fills {p : Prog Act α} (hp : Acts Tested Fills p) (hw : Mounted w₀ i q w) :
    Opening ok w₀ i q p (fun _ => Mounted w₀ i q) w := by
  refine opening_acts (fun _ h => h.closable) ?_ (fun _ d _ ha hv _ => hv.fills ha d) hp hw
  intro a ha
  cases a <;> first | rfl | cases ha.1

omit hq in
theorem opening_readUser (line : Option Str) (hw : Mounted w₀ i q w) :
    Opening ok w₀ i q (readUser line) (fun user v => line = some user ∧ Mounted w₀ i q v) w := by
  have hsay : Acts Tested Fills (cmd (.say "\n".toList)) := acts_cmd ⟨rfl, trivial⟩
  refine wp_step (fun _ hA => hA.1.quiet) (fun d hA => ?_)
  refine ⟨fun hc => absurd hc Bool.false_ne_true, ?_⟩
  have hv : Mounted w₀ i q (exec d (.readLine line) w).2 :=
    hw.fills (a := .readLine line) ⟨rfl, trivial⟩ d
  show wp machine _ _ (if (exec d (.readLine line) w).1.status = 0 then _ else _) _ _ _
  by_cases h0 : (exec d (.readLine line) w).1.status = 0
  · rw [if_pos h0]
    have hp := perform_of_status (fun h => by cases h) h0
    simp only [perform, Option.map_eq_some_iff, Prod.mk.injEq] at hp
    obtain ⟨l, hl, hout, _⟩ := hp
    exact ⟨hl.trans (congrArg some hout), hv⟩
  · rw [if_neg h0]
    exact opening_then (opening_fills hsay hv) (fun _ _ hu => opening_exit 1 hu.closable)

omit hq in
/-- The name that is accepted is one of the lines. -/
theorem opening_askUser (answers : List Str) (hw : Mounted w₀ i q w) :
    Opening ok w₀ i q (askUser answers) (fun r v => Mounted w₀ i q v ∧
      acceptsUser r.1 = true ∧ r.1 ∈ answers) w := by
  have hsay : ∀ text, Acts Tested Fills (cmd (.say text)) := fun _ => acts_cmd ⟨rfl, trivial⟩
  induction answers generalizing w with
  | nil =>
      refine opening_then (opening_fills (hsay _) hw) (fun _ v hv => ?_)
      exact opening_then (opening_readUser none hv) (fun _ _ hu => opening_exit 1 hu.2.closable)
  | cons l answers ih =>
      refine opening_then (opening_fills (hsay _) hw) (fun _ v hv => ?_)
      refine opening_then (opening_readUser (some l) hv) (fun user u hu => ?_)
      obtain ⟨hl, hu⟩ := hu
      obtain rfl := Option.some.inj hl
      by_cases haccept : acceptsUser l = true
      · rw [if_pos haccept]
        exact ⟨hu, haccept, List.mem_cons_self⟩
      · rw [if_neg haccept]
        refine opening_then (opening_fills (hsay _) hu) (fun _ z hz => ?_)
        exact wp_mono (fun r _ hr => ⟨hr.1, hr.2.1, List.mem_cons_of_mem l hr.2.2⟩)
          (fun _ _ h => h) (ih hz)

omit hq in
theorem opening_askAccounts (answers : List Str) (hw : Mounted w₀ i q w) :
    Opening ok w₀ i q (askAccounts answers) (fun a v => Mounted w₀ i q v ∧
      acceptsUser a.newuser = true ∧ a.newuser ∈ answers) w := by
  have hsay : Acts Tested Fills (cmd (.say "configuring users".toList)) := acts_cmd ⟨rfl, trivial⟩
  have hssl := require_fills (show fills .haveOpenssl = true from rfl) trivial trivial
    "error: openssl missing".toList
  have hhash : ∀ pw, Acts Tested Fills (capture (.openssl pw)) := fun _ =>
    acts_capture ⟨rfl, trivial⟩
  refine opening_then (opening_fills hsay hw) (fun _ v hv => ?_)
  refine opening_then (opening_fills hssl hv) (fun _ v hv => ?_)
  refine opening_then (opening_askUser answers hv) (fun r v hv => ?_)
  obtain ⟨hv, huser⟩ := hv
  refine opening_then (opening_fills (askpass_fills _ _) hv) (fun _ v hv => ?_)
  refine opening_then (opening_fills (hhash _) hv) (fun _ v hv => ?_)
  refine opening_then (opening_fills (askpass_fills _ _) hv) (fun _ v hv => ?_)
  exact opening_then (opening_fills (hhash _) hv) (fun _ _ hv => ⟨hv, huser⟩)

omit hq in
/-- An accepted name without a slash is a component of its own. -/
theorem writeAccounts_fills {a : Accounts} (haccept : acceptsUser a.newuser = true)
    (hslash : '/' ∉ a.newuser) : Acts Tested Fills (writeAccounts a) := by
  have hetc : ∀ file ∈ ["passwd".toList, "shadow".toList, "group".toList],
      ∀ c ∈ etc file, PlainComp c := by decide
  have hpasswd := hetc "passwd".toList (by decide)
  have hshadow := hetc "shadow".toList (by decide)
  have hgroup := hetc "group".toList (by decide)
  have hhome : ∀ c ∈ home a.newuser, PlainComp c := by
    intro c hc
    unfold home at hc
    rw [List.splitOn_eq_singleton hslash] at hc
    exact Installer.Home.plain_homeDir (Installer.Outside.plain_of_accepts haccept) c
      (List.mem_append_right mntRoot hc)
  refine acts_bind (fills_cmd rfl hpasswd) (fun _ => ?_)
  refine acts_bind (fills_cmd rfl hpasswd) (fun _ => ?_)
  refine acts_bind (fills_cmd rfl hshadow) (fun _ => ?_)
  refine acts_bind (fills_cmd rfl hshadow) (fun _ => ?_)
  refine acts_bind (fills_cmd rfl hgroup) (fun _ => acts_bind (fills_cmd rfl hgroup) (fun _ => ?_))
  refine acts_bind (fills_cmd rfl hhome) (fun _ => acts_bind (fills_cmd rfl hhome) (fun _ => ?_))
  exact fills_cmd rfl trivial

omit hq in
/-- Lines 58 to 146. -/
theorem opening_fill (root : Path) {setids : List Path} (target rootuuid : Str)
    {answers : List Str} (hplain : ∀ f ∈ setids, ∀ c ∈ f, PlainComp c)
    (hslash : ∀ l ∈ answers, acceptsUser l = true → '/' ∉ l) (hw : Mounted w₀ i q w) :
    Opening ok w₀ i q (fill root setids target rootuuid answers) (fun _ => Mounted w₀ i q) w := by
  have hend : Acts Tested Fills (do
      installLoader root rootuuid
      cmd .sync
      cmd (.say ("done: slinux installed on ".toList ++ target))) :=
    acts_bind (installLoader_fills root rootuuid) (fun _ =>
      acts_bind (fills_cmd rfl trivial) (fun _ => fills_cmd rfl trivial))
  refine opening_then (opening_fills (copySystem_fills root hplain) hw) (fun _ v hv => ?_)
  refine opening_then (opening_askAccounts answers hv) (fun a v hv => ?_)
  obtain ⟨hv, haccept, hmem⟩ := hv
  refine opening_then (opening_fills (writeAccounts_fills haccept (hslash _ hmem haccept)) hv)
    (fun _ v hv => ?_)
  exact opening_fills hend hv

/-- Lines 11 to 146. -/
theorem opening_install (root : Path) {setids : List Path} (target size : Str)
    {answers : List Str} (hplain : ∀ f ∈ setids, ∀ c ∈ f, PlainComp c)
    (hslash : ∀ l ∈ answers, acceptsUser l = true → '/' ∉ l) (hw : Bare w₀ i q false w) :
    Opening ok w₀ i q (install root setids target size answers) (fun _ => Mounted w₀ i q) w := by
  have hrequire : ∀ {test : Act}, prepares test = true → Tested test → ∀ message,
      Acts Tested (fun a => prepares a = true) (require test message) := fun h ht message =>
    acts_bind (acts_tested h ht) (fun _ =>
      acts_ite trivial (acts_bind (acts_cmd rfl) (fun _ => Nat.one_ne_zero)))
  have htest : ∀ p, Tested (.isDir p) ∧ Tested (.isFile p) := fun _ => ⟨trivial, trivial⟩
  refine opening_then (opening_bare (hrequire rfl (htest _).1 _) hw) (fun _ v hv => ?_)
  refine opening_then (opening_bare (hrequire rfl (htest _).2 _) hv) (fun _ v hv => ?_)
  refine opening_then (opening_bare (hrequire rfl (htest _).2 _) hv) (fun _ v hv => ?_)
  refine opening_then (opening_partition target size hv) (fun _ v hv => ?_)
  refine opening_untested (fun h => by cases h) hv.closable (fun d _ _ => ?_)
  have hset : Bare w₀ i q true (exec d .trapCleanup v).2 := by
    have he : (exec d .trapCleanup v).2 = { v with trapped := true } := by
      simp [exec, perform, Act.certain]
    rw [he]
    exact ⟨hv.holding.of_same rfl rfl rfl rfl rfl rfl, rfl, hv.loop, hv.loops⟩
  refine opening_then (opening_findParts target hset) (fun parts v hv => ?_)
  refine opening_then (opening_makeFilesystems parts hv) (fun rootuuid v hv => ?_)
  refine opening_then (opening_mountTarget hq hv.1 hv.2) (fun _ v hv => ?_)
  exact opening_fill root target rootuuid hplain hslash hv

theorem opening_installSh (args : List Str) (root : Path) {setids : List Path}
    {answers : List Str} (hplain : ∀ f ∈ setids, ∀ c ∈ f, PlainComp c)
    (hslash : ∀ l ∈ answers, acceptsUser l = true → '/' ∉ l) (hw : Bare w₀ i q false w) :
    Opening ok w₀ i q (installSh args root setids answers) (fun _ => Mounted w₀ i q) w := by
  have husage : Acts Tested (fun a => prepares a = true)
      (cmd (.say "usage: install.sh <image-file|block-device> [size-mib]".toList)) := acts_cmd rfl
  unfold installSh
  split
  · exact opening_then (opening_bare husage hw) (fun _ _ hv => opening_exit 2 hv.closable)
  · exact opening_install hq root _ _ hplain hslash hw

/-! ### Leaving -/

/-- A closable state is closed on leaving the script. -/
theorem Closable.leaving {A S : Event Host Act Decision → Prop} (hA : ∀ e, A e → Orderly i e)
    (hS : ∀ d v, S (machine.exitEvent .cleanup d v)) (h : Closable w₀ i q w) {o : Outcome α}
    (ho : o ≠ .ended .killed) : leaving machine A S (fun _ => Released w₀) o w := by
  obtain ⟨hlooped, hopen⟩ := h
  refine leaving_intro (fun hk => absurd hk ho) (fun ht => ?_) (fun t d ht hAe => ?_)
  · -- without the trap nothing has been opened yet
    have hfalse : w.trapped = false := by
      cases hw : w.trapped with
      | false => rfl
      | true =>
          have hsome : machine.trap w = some .cleanup := if_pos hw
          exact absurd (hsome.symm.trans ht) (Option.some_ne_none _)
    rcases hopen with ⟨hheld, hloop⟩ | ⟨htrue, _⟩
    · have hloops : w.loops = w₀.loops :=
        hlooped.elim (fun hl => hl.2) (fun hl => absurd (hloop hfalse) hl.1)
      refine ⟨hloops, hheld.mounts, fun m p hp => ?_⟩
      cases m with
      | root =>
          have hnone : w.var .root = none := hheld.rootmnt
          exact absurd (hnone.symm.trans hp).symm (Option.some_ne_none _)
      | esp =>
          have hnone : w.var .esp = none := hheld.espmnt
          exact absurd (hnone.symm.trans hp).symm (Option.some_ne_none _)
    · rw [hfalse] at htrue
      cases htrue
  · obtain rfl := trap_cleanup ht
    have hwill := (hA _ hAe).willing
    refine ⟨hS d _, ?_⟩
    rcases hopen with ⟨hheld, _⟩ | ⟨_, x, y, r, e, hxy, hheld⟩
    · exact cleanup_bare hheld hlooped hwill
    · exact cleanup_mounted hq hxy hheld hlooped hwill

end Mounting

end Phases

end Holding

/-! ## Whole runs -/

/-- The file system that `mktemp` works on. -/
abbrev tmpVol (w : Host) : VolId := (w.locate w.tmp).1

/-- No file is in a directory that does not exist. -/
def Rooted (w : Host) (i : VolId) : Prop :=
  ∀ p c, nodeAt w.toWorld i p = none → nodeAt w.toWorld i (p ++ [c]) = none

theorem Started.bare {w : Host} (h : Started w) (hrooted : Rooted w (tmpVol w)) :
    Bare w (tmpVol w) (w.locate w.tmp).2 false w where
  holding := ⟨rfl, h.held, h.rootmnt, h.espmnt, rfl, fun _ hx => absurd hx List.not_mem_nil,
    fun _ hx => absurd hx List.not_mem_nil, fun _ hx => absurd hx List.not_mem_nil, hrooted,
    Installer.Files.inUse_locate w.toWorld w.tmp⟩
  trapped := h.trapped
  loop := h.loop
  loops := rfl

/-- A stuck state is left as it is. -/
theorem Stuck.not_released {w v : Host} (h : Stuck v) (d : Decision) :
    (cleanup d v).2 = v ∧ ¬ Released w v := by
  obtain ⟨_, ⟨m, p, hvar, hnode⟩, m', p', hvar', hout, hroot⟩ := h
  have hcan : canUmount v.held p' (points v.mounts) = false := by
    rw [canUmount, mountedOn, Bool.and_eq_false_iff]
    left
    rw [← Bool.not_eq_true, List.contains_iff_mem]
    exact hout
  have hrefused : ∀ refused, umountDir refused m' v = none := by
    intro refused
    unfold umountDir
    rw [hvar']
    simp only [hcan, Bool.and_false, Bool.false_eq_true, if_false]
  refine ⟨?_, fun hr => ?_⟩
  · unfold cleanup
    cases m' with
    | esp => rw [hrefused]
    | root =>
        rw [umountDir_none (m := .esp) (hroot rfl)]
        simp only [hrefused]
  · rw [hr.dirs m p hvar] at hnode
    cases hnode

/-- The commands that are not tested end the script where they fail. -/
theorem installSh_acts (args : List Str) (root : Path) (setids : List Path)
    (answers : List Str) : Acts Tested (fun _ => True) (installSh args root setids answers) := by
  have hcmd : ∀ a, Acts Tested (fun _ => True) (cmd a) := fun _ => acts_cmd trivial
  have hfills : ∀ {α : Type} {p : Prog Act α}, Acts Tested Fills p →
      Acts Tested (fun _ => True) p := fun hp => hp.mono (fun _ _ => trivial)
  have hrequire : ∀ {test : Act}, Tested test → ∀ message,
      Acts Tested (fun _ => True) (require test message) := fun ht message =>
    acts_bind (acts_tested trivial ht) (fun _ =>
      acts_ite trivial (acts_bind (hcmd _) (fun _ => Nat.one_ne_zero)))
  have htest : ∀ p, Tested (.isDir p) ∧ Tested (.isFile p) := fun _ => ⟨trivial, trivial⟩
  have hsize : ∀ target size, Acts Tested (fun _ => True) (sizeImage target size) := fun _ _ =>
    acts_ite trivial (hcmd _)
  have hparts : ∀ target, Acts Tested (fun _ => True) (findParts target) := fun _ =>
    acts_ite trivial (acts_bind (acts_capture trivial) (fun _ => trivial))
  have hmkfs : ∀ parts, Acts Tested (fun _ => True) (makeFilesystems parts) := fun _ =>
    acts_bind (hcmd _) (fun _ => acts_bind (hcmd _) (fun _ => acts_bind (hcmd _) (fun _ =>
      acts_capture trivial)))
  have hmount : ∀ parts, Acts Tested (fun _ => True) (mountTarget parts) := fun _ =>
    acts_bind (hcmd _) (fun _ => acts_bind (hcmd _) (fun _ => acts_bind (hcmd _) (fun _ => hcmd _)))
  have hcopy : Acts Tested (fun _ => True) (copySystem root setids) :=
    acts_bind (hcmd _) (fun _ => acts_bind (hcmd _) (fun _ => acts_bind (hcmd _) (fun _ =>
      acts_bind (acts_forEach (fun _ _ => hcmd _)) (fun _ => hcmd _))))
  have haccounts : ∀ a, Acts Tested (fun _ => True) (writeAccounts a) := fun _ =>
    acts_bind (hcmd _) (fun _ => acts_bind (hcmd _) (fun _ => acts_bind (hcmd _) (fun _ =>
      acts_bind (hcmd _) (fun _ => acts_bind (hcmd _) (fun _ => acts_bind (hcmd _) (fun _ =>
        acts_bind (hcmd _) (fun _ => acts_bind (hcmd _) (fun _ => hcmd _))))))))
  unfold installSh
  split
  · exact acts_bind (hcmd _) (fun _ => Nat.succ_ne_zero 1)
  · refine acts_bind (hrequire (htest _).1 _) (fun _ => ?_)
    refine acts_bind (hrequire (htest _).2 _) (fun _ => ?_)
    refine acts_bind (hrequire (htest _).2 _) (fun _ => ?_)
    refine acts_bind (acts_bind (hsize _ _) (fun _ => acts_bind (hcmd _) (fun _ => hcmd _)))
      (fun _ => acts_bind (hcmd _) (fun _ => ?_))
    refine acts_bind (hparts _) (fun parts => acts_bind (hmkfs parts) (fun rootuuid => ?_))
    refine acts_bind (hmount parts) (fun _ => acts_bind hcopy (fun _ => ?_))
    refine acts_bind (hfills (askAccounts_fills _)) (fun a => acts_bind (haccounts a) (fun _ => ?_))
    exact acts_bind (hfills (installLoader_fills root rootuuid)) (fun _ =>
      acts_bind (hcmd _) (fun _ => hcmd _))

/-- **Everything is given back, unless the second `mktemp` or a mount fails.**
In a run without signals, whatever else fails, the loop device is detached, the
two file systems are unmounted and the two directories are removed exactly if
no command failed that `cleanup` takes to have succeeded. -/
theorem released_iff (O : Nat → Act → Decision) (args : List Str) (root : Path)
    {setids : List Path} {answers : List Str} {w : Host} (hstart : Started w)
    (hrooted : Rooted w (tmpVol w)) (hplain : ∀ f ∈ setids, ∀ c ∈ f, PlainComp c)
    (hslash : ∀ l ∈ answers, acceptsUser l = true → '/' ∉ l)
    (horderly : ∀ e ∈ (runScript machine O (installSh args root setids answers) w).trace,
      Orderly (tmpVol w) e) :
    Released w (runScript machine O (installSh args root setids answers) w).final ↔
      ∀ e ∈ (runScript machine O (installSh args root setids answers) w).trace,
        opens e.act = true → e.resp.status = 0 := by
  have hq : w.locate w.tmp = (tmpVol w, (w.locate w.tmp).2) := rfl
  have hopening : ∀ ok, Opening ok w (tmpVol w) (w.locate w.tmp).2
      (installSh args root setids answers) (fun _ => Mounted w (tmpVol w) (w.locate w.tmp).2) w :=
    fun ok => opening_installSh hq args root hplain hslash (hstart.bare hrooted)
  constructor
  · intro hreleased e he hopens
    by_contra hfail
    -- the command that failed was the last one, and `cleanup` stopped behind it
    have hpre : ∀ e ∈ (go machine O (installSh args root setids answers) 0 w).trace,
        Orderly (tmpVol w) e := fun e he => horderly e (mem_leave_trace he)
    have hstuck := (go_sound O _ 0 w (hopening False) (fun e he => ⟨hpre e he, False.elim⟩)).1
    have hgo : e ∈ (go machine O (installSh args root setids answers) 0 w).trace := by
      rcases mem_trace_of_leave he with hmem | ⟨t, htrap, hact⟩
      · exact hmem
      · rw [hact, trap_cleanup htrap] at hopens
        cases hopens
    have htest : ¬ Tested e.act := by
      intro ht
      cases ha : e.act <;> rw [ha] at ht hopens <;> first | exact ht.elim | cases hopens
    obtain ⟨s, hout, hfinal⟩ := go_failed_last (installSh_acts args root setids answers) 0
      (fun e he => (hpre e he).quiet) e hgo htest hfail
    have hs := hstuck e hgo hopens hfail
    rw [← hfinal] at hs
    obtain ⟨hsame, hnot⟩ := hs.not_released (w := w) (O (go machine O
      (installSh args root setids answers) 0 w).used .cleanup)
    have hkilled : (go machine O (installSh args root setids answers) 0 w).outcome
        ≠ .ended .killed := by
      rw [hout]
      exact fun hc => by cases hc
    have htrap : machine.trap (machine.unwind (go machine O
        (installSh args root setids answers) 0 w).final) = some .cleanup := if_pos hs.1
    have hleft : (runScript machine O (installSh args root setids answers) w).final
        = (go machine O (installSh args root setids answers) 0 w).final :=
      (congrArg Run.final (leave_trapped hkilled htrap)).trans hsame
    rw [hleft] at hreleased
    exact hnot hreleased
  · intro hok
    refine (runScript_sound (F := fun _ => Released w) O (installSh args root setids answers)
      (wp_mono ?_ ?_ (hopening True)) (fun e he => ⟨horderly e he, fun _ => hok e he⟩)).2
    · exact fun a v hv => hv.closable.leaving hq (fun e hA => hA.1) (fun d u hc => by cases hc)
        (fun hc => by cases hc)
    · rintro x v ⟨hx, hv | ⟨hno, _⟩⟩
      · exact hv.leaving hq (fun e hA => hA.1) (fun d u hc => by cases hc)
          (fun hc => hx (Outcome.ended.inj hc))
      · exact absurd trivial hno

theorem volOf_rooted {files : List (Path × Node)}
    (h : ∀ x ∈ files, x.1 = [] ∨ (volOf files x.1.dropLast).isSome = true) {p : Path} {c : Str}
    (hp : volOf files p = none) : volOf files (p ++ [c]) = none := by
  by_contra hne
  obtain ⟨n, hn⟩ := Option.ne_none_iff_exists'.1 hne
  obtain ⟨x, hx, _⟩ := Option.map_eq_some_iff.1 hn
  have hbeq := List.find?_some hx
  have heq : x.1 = p ++ [c] := beq_iff_eq.1 hbeq
  rcases h x (List.mem_of_find?_eq_some hx) with hnil | hsome
  · rw [hnil] at heq
    exact absurd heq.symm (List.concat_ne_nil c p)
  · rw [heq, List.dropLast_concat, hp] at hsome
    cases hsome

theorem sampleHost_rooted : Rooted sampleHost .live := fun _ _ => volOf_rooted (by decide)

theorem sampleRun_orderly (broken : Act → Bool) :
    ∀ e ∈ (sampleRun broken).trace, Orderly (tmpVol sampleHost) e := by
  intro e he
  obtain ⟨n, hd⟩ := runScript_trace_decision machine _ _ _ e he
  have hdecide : ∀ a, (sampleDecide broken a).signal = none ∧
      (sampleDecide broken a).refuses = fun _ => false := by
    intro a
    unfold sampleDecide
    split <;> exact ⟨rfl, rfl⟩
  refine ⟨?_, fun k => ?_, fun node _ fs h => by cases h⟩
  · rw [hd]
    exact (hdecide e.act).1
  · rw [hd]
    exact congrFun (hdecide e.act).2 k

/-- An image made without a failure, and one where the second `mktemp`
fails. -/
theorem released_iff_image :
    Released sampleHost (sampleRun (fun _ => false)).final ∧
      ¬ Released sampleHost (sampleRun opens).final := by
  have hplain : ∀ f ∈ [["bin".toList, "doas".toList]], ∀ c ∈ f, PlainComp c := by decide
  have hslash : ∀ l ∈ sampleAnswers, acceptsUser l = true → '/' ∉ l := by decide +kernel
  have hstart : Started sampleHost := ⟨rfl, rfl, rfl, rfl, rfl⟩
  refine ⟨(released_iff _ _ _ hstart sampleHost_rooted hplain hslash (sampleRun_orderly _)).2 ?_,
    fun h => ?_⟩
  · decide +kernel
  · have hall := (released_iff _ _ _ hstart sampleHost_rooted hplain hslash
      (sampleRun_orderly _)).1 h
    revert hall
    decide +kernel

end Slinux.InstallSh.Release
