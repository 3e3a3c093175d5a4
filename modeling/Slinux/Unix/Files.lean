import Mathlib.Data.List.Infix
import Slinux.Shell.Text

/-!
# Files, volumes and mounts

A volume is the content of one file system: what each of its paths holds.  A
mount table attaches volumes to paths; the latest mount comes first, so the
first entry that covers a path decides where the path leads.  Identities of
volumes are an arbitrary type, because nothing here depends on what carries
them.

A path holds a directory or a file of its own.  No link is followed here, and no
two paths share a file: a symbolic link that no command passes through is a file
like others.  `Slinux.Unix.Links` has names, links and inodes.

`umount` is modelled with the two reasons the kernel has for refusing it: a
file below the mount point is open, or another volume is mounted below it.
With several operands it tries each of them in order and fails if one of them
failed.

## Main results

* `umountAll_points` — what `umount` does to the mount points does not depend
  on the volumes mounted there.
* `Vol.put_self`, `Vol.put_ne` — reading back after a write.
-/

namespace Slinux.Unix.Files

open Slinux.Shell.Text

/-! ## Paths -/

/-- An absolute path, as its components. -/
abbrev Path := List Str

/-- Paths are compared component by component, in every module alike. -/
instance : LawfulBEq Path := inferInstance

/-- One component of a path text, applied to the path so far. -/
def walk (p : Path) (c : Str) : Path :=
  if c = [] ∨ c = ".".toList then p
  else if c = "..".toList then p.dropLast
  else p ++ [c]

/-- The path a sequence of components leads to, without symbolic links. -/
def normalize (cs : List Str) : Path := cs.foldl walk []

/-! ## Volumes -/

/-- What a path holds. -/
inductive Kind where
  | dir
  | file (data : Str)
  deriving Repr, DecidableEq

/-- A file or directory with its permission bits and owner. -/
structure Node where
  kind : Kind
  mode : BitVec 12
  uid : Nat
  gid : Nat
  deriving Repr, DecidableEq

/-- The content of a file system. -/
abbrev Vol := Path → Option Node

/-- A directory as `mkdir` creates it for root. -/
def newDir : Node := ⟨.dir, 0o755, 0, 0⟩

/-- A file as a redirection creates it for root. -/
def newFile (data : Str) : Node := ⟨.file data, 0o644, 0, 0⟩

/-- A file system with nothing in it. -/
def Vol.fresh : Vol := fun p => if p = [] then some newDir else none

/-- The volume with a node replaced. -/
def Vol.put (v : Vol) (p : Path) (n : Node) : Vol := fun q => if q = p then some n else v q

def lostFound : Path := ["lost+found".toList]

/-- The directory that `mke2fs` makes for `e2fsck`. -/
def lostDir : Node := ⟨.dir, 0o700, 0, 0⟩

/-- The volume without a node. -/
def Vol.remove (v : Vol) (p : Path) : Vol := fun q => if q = p then none else v q

/-- The text of a file. -/
def Node.data? (n : Node) : Option Str :=
  match n.kind with
  | .dir => none
  | .file data => some data

/-- The node with another text. -/
def Node.withData (n : Node) (data : Str) : Node := { n with kind := .file data }

/-- `chown` of a node: of a regular file it clears the setuid bit, and the
setgid bit where the group may execute. -/
def Node.chown (uid gid : Nat) (n : Node) : Node :=
  match n.kind with
  | .dir => { n with uid := uid, gid := gid }
  | .file _ =>
      { n with
        uid := uid, gid := gid,
        mode := n.mode &&& (if n.mode.getLsbD 3 then 0o1777 else 0o3777) }

/-- A change of mode. -/
def Node.chmod (f : BitVec 12 → BitVec 12) (n : Node) : Node := { n with mode := f n.mode }

@[simp] theorem Vol.put_self (v : Vol) (p : Path) (n : Node) : v.put p n p = some n := by
  simp [Vol.put]

theorem Vol.put_ne (v : Vol) {p q : Path} (n : Node) (h : q ≠ p) : v.put p n q = v q := by
  simp [Vol.put, h]

/-! ## Mounts -/

/-- A volume attached to a path. -/
structure Mount (ν : Type) where
  point : Path
  vol : ν
  deriving Repr, DecidableEq

section Mounts

variable {ν : Type}

/-- The volume a path is on, and its path there. -/
def resolve (base : ν) (ms : List (Mount ν)) (p : Path) : ν × Path :=
  match ms.find? (fun m => m.point.isPrefixOf p) with
  | some m => (m.vol, p.drop m.point.length)
  | none => (base, p)

/-- A volume is mounted on `p`. -/
def mountedOn (p : Path) (points : List Path) : Bool := points.contains p

/-- `umount` of `p` is refused with these files open and these mount points:
those in front of `p` in the table were mounted after it. -/
def busy (held : List Path) (p : Path) (points : List Path) : Bool :=
  held.any (fun f => p.isPrefixOf f)
    || (points.takeWhile (fun q => q != p)).any (fun q => p.isPrefixOf q)

/-- `umount p` succeeds. -/
def canUmount (held : List Path) (p : Path) (points : List Path) : Bool :=
  mountedOn p points && !busy held p points

/-- The points of a mount table, latest first. -/
def points (ms : List (Mount ν)) : List Path := ms.map Mount.point

/-- The table after one `umount`. -/
def umountOne (held : List Path) (p : Path) (ms : List (Mount ν)) : List (Mount ν) :=
  if canUmount held p (points ms) then ms.eraseP (fun m => p == m.point) else ms

/-- The table after `umount ps`. -/
def umountAll (held : List Path) : List Path → List (Mount ν) → List (Mount ν)
  | [], ms => ms
  | p :: ps, ms => umountAll held ps (umountOne held p ms)

/-- `umount ps` succeeds with these mount points: each operand is unmounted in
its turn. -/
def umountOk (held : List Path) : List Path → List Path → Bool
  | [], _ => true
  | p :: ps, qs => canUmount held p qs && umountOk held ps (qs.erase p)

/-- The mount points after `umount ps`, computed from the points alone. -/
def umountPoints (held : List Path) : List Path → List Path → List Path
  | [], qs => qs
  | p :: ps, qs =>
      umountPoints held ps (if canUmount held p qs then qs.erase p else qs)

theorem points_umountOne (held : List Path) (p : Path) (ms : List (Mount ν)) :
    points (umountOne held p ms)
      = if canUmount held p (points ms) then (points ms).erase p else points ms := by
  unfold umountOne
  split
  · rw [points, points, List.erase_eq_eraseP, List.eraseP_map]
    rfl
  · rfl

/-- Which points are left does not depend on the volumes. -/
theorem umountAll_points (held : List Path) (ps : List Path) :
    ∀ ms : List (Mount ν), points (umountAll held ps ms) = umountPoints held ps (points ms) := by
  induction ps with
  | nil => intro ms; rfl
  | cons p ps ih =>
      intro ms
      rw [umountAll, umountPoints, ih, points_umountOne]

/-- No mount point is added. -/
theorem umountPoints_sublist (held : List Path) (ps : List Path) :
    ∀ qs : List Path, (umountPoints held ps qs).Sublist qs := by
  induction ps with
  | nil => intro qs; exact List.Sublist.refl qs
  | cons p ps ih =>
      intro qs
      rw [umountPoints]
      refine (ih _).trans ?_
      split
      · exact List.erase_sublist
      · exact List.Sublist.refl qs

/-- A point that was mounted once, and is among those that have been
unmounted, is free. -/
theorem not_mem_umountPoints {held ps : List Path} {p : Path} (hp : p ∈ ps) :
    ∀ {qs : List Path}, qs.count p ≤ 1 → umountOk held ps qs = true →
      p ∉ umountPoints held ps qs := by
  induction ps with
  | nil => exact absurd hp List.not_mem_nil
  | cons q ps ih =>
      intro qs hcount hok
      rw [umountOk, Bool.and_eq_true] at hok
      rw [umountPoints, if_pos hok.1]
      by_cases hq : p = q
      · intro hmem
        have herase : p ∈ qs.erase q := (umountPoints_sublist held ps _).subset hmem
        have hpos : 0 < (qs.erase q).count p := List.count_pos_iff.mpr herase
        rw [← hq, List.count_erase_self] at hpos
        omega
      · have hps : p ∈ ps := (List.mem_cons.mp hp).resolve_left hq
        exact ih hps (Nat.le_trans (List.erase_sublist.count_le p) hcount) hok.2

/-! ### Older mounts

Mounts that were there before, on other points, do not matter to `umount`. -/

theorem canUmount_append (held : List Path) {p : Path} (qs base : List Path) (hp : p ∉ base) :
    canUmount held p (qs ++ base) = canUmount held p qs := by
  by_cases hq : p ∈ qs
  · have hstop : (qs ++ base).takeWhile (fun q => q != p) = qs.takeWhile (fun q => q != p) := by
      rw [List.takeWhile_append, if_neg]
      intro hlen
      have hall := List.takeWhile_eq_self_iff.mp
        ((List.takeWhile_prefix (fun q => q != p)).eq_of_length hlen)
      exact absurd (hall p hq) (by simp)
    simp [canUmount, mountedOn, busy, hstop, hq]
  · simp [canUmount, mountedOn, hq, hp]

theorem erase_append_of_not_mem {p : Path} (qs base : List Path) (hp : p ∉ base) :
    (qs ++ base).erase p = qs.erase p ++ base := by
  by_cases hq : p ∈ qs
  · exact List.erase_append_left base hq
  · rw [List.erase_append_right base hq, List.erase_of_not_mem hp, List.erase_of_not_mem hq]

theorem umountPoints_append (held : List Path) (base : List Path) :
    ∀ (ps qs : List Path), (∀ p ∈ ps, p ∉ base) →
      umountPoints held ps (qs ++ base) = umountPoints held ps qs ++ base := by
  intro ps
  induction ps with
  | nil => intro qs _; rfl
  | cons p ps ih =>
      intro qs h
      have hp := h p (by simp)
      rw [umountPoints, umountPoints, canUmount_append held qs base hp,
        erase_append_of_not_mem qs base hp, ← apply_ite (fun l => l ++ base)]
      exact ih _ (fun q hq => h q (by simp [hq]))

theorem umountOk_append (held : List Path) (base : List Path) :
    ∀ (ps qs : List Path), (∀ p ∈ ps, p ∉ base) →
      umountOk held ps (qs ++ base) = umountOk held ps qs := by
  intro ps
  induction ps with
  | nil => intro qs _; rfl
  | cons p ps ih =>
      intro qs h
      have hp := h p (by simp)
      rw [umountOk, umountOk, canUmount_append held qs base hp,
        erase_append_of_not_mem qs base hp, ih _ (fun q hq => h q (by simp [hq]))]

/-! ### Resolution -/

/-- An entry of a directory is where the directory is, unless something is
mounted on it. -/
theorem resolve_child (base : ν) {ms : List (Mount ν)} {p : Path} {c : Str}
    (h : p ++ [c] ∉ points ms) :
    resolve base ms (p ++ [c]) = ((resolve base ms p).1, (resolve base ms p).2 ++ [c]) := by
  have hsame : ∀ m ∈ ms, m.point.isPrefixOf (p ++ [c]) = m.point.isPrefixOf p := by
    intro m hm
    have hne : m.point ≠ p ++ [c] := fun heq => h (heq ▸ List.mem_map_of_mem hm)
    rw [Bool.eq_iff_iff, List.isPrefixOf_iff_prefix, List.isPrefixOf_iff_prefix,
      List.prefix_concat_iff]
    exact ⟨fun hp => hp.resolve_left hne, Or.inr⟩
  have hfind : ms.find? (fun m => m.point.isPrefixOf (p ++ [c]))
      = ms.find? (fun m => m.point.isPrefixOf p) := by
    rw [← List.head?_filter, ← List.head?_filter, List.filter_congr hsame]
  unfold resolve
  rw [hfind]
  cases hm : ms.find? (fun m => m.point.isPrefixOf p) with
  | none => rfl
  | some m =>
      have hpoint : m.point.isPrefixOf p = true :=
        List.find?_some (p := fun m : Mount ν => m.point.isPrefixOf p) hm
      have hpre : m.point <+: p := List.isPrefixOf_iff_prefix.mp hpoint
      show (m.vol, (p ++ [c]).drop m.point.length) = (m.vol, p.drop m.point.length ++ [c])
      rw [List.drop_append_of_le_length hpre.length_le]

end Mounts

end Slinux.Unix.Files
