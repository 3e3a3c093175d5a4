import Slinux.Installer.Effects
import Slinux.Installer.Script

/-!
# What the installer's commands do to files

An installed system starts from a few files: the loader and its configuration
on the ESP, the account files on the root volume.  What matters of them is
whether they are there and what they contain, so this module describes every
command by its effect on `look`, the map from volumes and paths to kinds; modes
and owners are below that level.

While the target is being filled, a path below `/mnt/root/boot/efi` leads to
the ESP and any other path below `/mnt/root` to the root volume
(`Target.locate_esp`, `Target.locate_root`).  A volume that is mounted nowhere
is not changed by any command that does not name its device
(`exec_vols_unmounted`).
-/

namespace Slinux.Installer.Files

open Slinux.Shell.Text
open Slinux.Shell.Script
open Slinux.Unix.Files
open Slinux.Disk.Name
open Slinux.Installer.System
open Slinux.Installer.Effects
open Slinux.Installer.Script

/-! ## Looking at files -/

/-- What a volume holds at a path. -/
def look (w : World) (id : VolId) (r : Path) : Option Kind :=
  ((w.vols id).bind (fun v => v r)).map Node.kind

/-- What is seen at a path. -/
def see (w : World) (p : Path) : Option Kind := look w (w.locate p).1 (w.locate p).2

theorem see_eq (w : World) (p : Path) : see w p = (w.node p).map Node.kind := rfl

theorem isDir_iff (w : World) (p : Path) : w.isDir p = true ↔ see w p = some .dir := by
  rw [see_eq, World.isDir]
  cases w.node p with
  | none => simp
  | some n => simp

theorem isFile_iff (w : World) (p : Path) :
    w.isFile p = true ↔ ∃ t, see w p = some (.file t) := by
  rw [see_eq, World.isFile]
  cases w.node p with
  | none => simp
  | some n =>
      obtain ⟨kind, mode, uid, gid⟩ := n
      cases kind <;> simp [Node.data?]

theorem text_of_see {w : World} {p : Path} {t : Str} (h : see w p = some (.file t)) :
    w.text p = t := by
  rw [see_eq] at h
  obtain ⟨n, hn, hk⟩ := Option.map_eq_some_iff.mp h
  simp [World.text, hn, Node.data?, hk]

theorem vols_isSome_of_look {w : World} {id : VolId} {r : Path} {k : Kind}
    (h : look w id r = some k) : (w.vols id).isSome = true := by
  unfold look at h
  cases hv : w.vols id with
  | none => simp [hv] at h
  | some v => rfl

/-- What a volume holds at a path, with mode and owner. -/
def nodeAt (w : World) (id : VolId) (r : Path) : Option Node := (w.vols id).bind (fun v => v r)

theorem node_eq (w : World) (p : Path) : w.node p = nodeAt w (w.locate p).1 (w.locate p).2 := rfl

theorem node_of_locate {w : World} {p : Path} {i : VolId} {q : Path} (h : w.locate p = (i, q)) :
    w.node p = nodeAt w i q := by
  rw [node_eq, h]

theorem vols_isSome_of_nodeAt {w : World} {id : VolId} {r : Path} {n : Node}
    (h : nodeAt w id r = some n) : (w.vols id).isSome = true :=
  vols_isSome_of_look (show look w id r = some n.kind from congrArg (Option.map Node.kind) h)

/-! ## Changes to one volume -/

theorem nodeAt_put (w : World) (p : Path) (n : Node) (i : VolId) (q : Path) :
    nodeAt (w.put p n) i q
      = if w.locate p = (i, q) ∧ (w.vols i).isSome = true then some n else nodeAt w i q := by
  unfold nodeAt World.put World.onVol
  cases hv : w.vols i with
  | none =>
      rw [if_neg (by simp)]
      by_cases hi : i = (w.locate p).1
      · simp [hi, hi ▸ hv]
      · simp [hi, hv]
  | some v =>
      by_cases hi : i = (w.locate p).1
      · by_cases hq : q = (w.locate p).2
        · rw [if_pos ⟨by rw [hi, hq], rfl⟩]
          simp [hi, hi ▸ hv, hq]
        · rw [if_neg (fun h => hq (by rw [h.1]))]
          simp [hi, hi ▸ hv, Vol.put_ne _ _ hq]
      · rw [if_neg (fun h => hi (by rw [h.1]))]
        simp [hi, hv]

/-- Writing a node changes the path it is written at, if there is a volume. -/
theorem look_put (w : World) (p : Path) (n : Node) (i : VolId) (q : Path) :
    look (w.put p n) i q
      = if w.locate p = (i, q) ∧ (w.vols i).isSome = true then some n.kind else look w i q := by
  show (nodeAt (w.put p n) i q).map Node.kind = _
  rw [nodeAt_put]
  split
  · rfl
  · rfl

theorem look_store (w : World) (p : Path) (t : Str) (i : VolId) (q : Path) :
    look (w.store p t) i q
      = if w.locate p = (i, q) ∧ (w.vols i).isSome = true then some (.file t)
        else look w i q :=
  look_put w p _ i q

theorem look_remove (w : World) (p : Path) (i : VolId) (q : Path) :
    look (w.remove p) i q = if w.locate p = (i, q) then none else look w i q := by
  unfold look World.remove World.onVol
  by_cases hi : i = (w.locate p).1
  · by_cases hq : q = (w.locate p).2
    · rw [if_pos (by rw [hi, hq])]
      cases hv : w.vols (w.locate p).1 <;> simp [hi, hq, hv, Vol.remove]
    · rw [if_neg (fun h => hq (by rw [h]))]
      cases hv : w.vols (w.locate p).1 <;> simp [hi, hq, hv, Vol.remove]
  · rw [if_neg (fun h => hi (by rw [h]))]
    simp [hi]

/-- Writing a node of the same kind. -/
theorem look_put_kind {w : World} {p : Path} {n m : Node} (hn : w.node p = some n)
    (hkind : m.kind = n.kind) (i : VolId) (q : Path) : look (w.put p m) i q = look w i q := by
  rw [look_put]
  split
  · rename_i h
    have hsee : look w i q = (w.node p).map Node.kind := by
      unfold look World.node
      rw [h.1]
    rw [hsee, hn, hkind]
    rfl
  · rfl

@[simp] theorem chown_kind (uid gid : Nat) (n : Node) : (n.chown uid gid).kind = n.kind := by
  unfold Node.chown
  split
  · rfl
  · rfl

@[simp] theorem chmod_kind (f : BitVec 12 → BitVec 12) (n : Node) : (n.chmod f).kind = n.kind := rfl

theorem nodeAt_chownTree (w : World) (p : Path) (i : VolId) (q : Path) :
    nodeAt (w.chownTree p) i q
      = if i = (w.locate p).1 ∧ (w.locate p).2 <+: q then (nodeAt w i q).map (Node.chown 0 0)
        else nodeAt w i q := by
  unfold nodeAt World.chownTree World.onVol
  by_cases hi : i = (w.locate p).1
  · subst hi
    cases hv : w.vols (w.locate p).1 with
    | none => simp [hv]
    | some v =>
        simp only [true_and, if_true, hv, Option.map_some, Option.bind_some,
          List.isPrefixOf_iff_prefix]
  · simp [hi]

theorem look_chownTree (w : World) (p : Path) (i : VolId) (q : Path) :
    look (w.chownTree p) i q = look w i q := by
  show (nodeAt (w.chownTree p) i q).map Node.kind = (nodeAt w i q).map Node.kind
  rw [nodeAt_chownTree]
  split
  · cases nodeAt w i q with
    | none => rfl
    | some n => simp
  · rfl

/-- A directory appears where nothing was, at one of the paths `ps`. -/
def Made (ps : List Path) (w w' : World) (i : VolId) (q : Path) : Prop :=
  (∃ p ∈ ps, w.locate p = (i, q)) ∧ look w i q = none ∧ look w' i q = some .dir

theorem look_mkdir {w w' : World} {p : Path} (h : w.mkdir p = some w') (i : VolId) (q : Path) :
    look w' i q = look w i q ∨ Made [p] w w' i q := by
  unfold World.mkdir at h
  split at h
  · rw [← Option.some.inj h]
    exact Or.inl rfl
  · rw [Option.ite_none_right_eq_some, Bool.and_eq_true] at h
    obtain ⟨⟨_, hnone⟩, h⟩ := h
    rw [← Option.some.inj h]
    by_cases hat : w.locate p = (i, q) ∧ (w.vols i).isSome = true
    · right
      refine ⟨⟨p, List.mem_singleton.mpr rfl, hat.1⟩, ?_, ?_⟩
      · have hsee : look w i q = (w.node p).map Node.kind := by
          unfold look World.node
          rw [hat.1]
        rw [hsee, Option.isNone_iff_eq_none.mp hnone]
        rfl
      · rw [look_put, if_pos hat]
        rfl
    · left
      rw [look_put, if_neg hat]

/-- A fallible step that only makes directories only makes directories over a
list. -/
theorem foldlM_look {β : Type} {f : World → β → Option World} (ps : β → List Path) {i : VolId}
    {q : Path} (hshell : ∀ w b w', f w b = some w' → SameShell w w')
    (hf : ∀ w b w', f w b = some w' → look w' i q = look w i q ∨ Made (ps b) w w' i q) :
    ∀ (bs : List β) (w w' : World), bs.foldlM f w = some w' →
      look w' i q = look w i q ∨ Made (bs.flatMap ps) w w' i q := by
  intro bs
  induction bs with
  | nil =>
      intro w w' h
      rw [← Option.some.inj h]
      exact Or.inl rfl
  | cons b bs ih =>
      intro w w' h
      rw [List.foldlM_cons] at h
      obtain ⟨v, hv, hrest⟩ := Option.bind_eq_some_iff.mp h
      have hfirst : ∀ p ∈ ps b, p ∈ (b :: bs).flatMap ps := by
        intro p hp
        exact List.mem_flatMap.mpr ⟨b, List.mem_cons_self .., hp⟩
      have hlater : ∀ p ∈ bs.flatMap ps, p ∈ (b :: bs).flatMap ps := by
        intro p hp
        rw [List.flatMap_cons]
        exact List.mem_append_right _ hp
      rcases hf w b v hv with hsame | ⟨hloc, hnone, hdir⟩
      · rcases ih v w' hrest with hsame' | ⟨⟨p, hp, hloc⟩, hnone, hdir⟩
        · exact Or.inl (hsame'.trans hsame)
        · have hloc' : w.locate p = (i, q) := by
            rw [← hloc, World.locate, World.locate, (hshell w b v hv).mounts]
          exact Or.inr ⟨⟨p, hlater p hp, hloc'⟩, hsame ▸ hnone, hdir⟩
      · right
        obtain ⟨p, hp, hloc⟩ := hloc
        rcases ih v w' hrest with hsame' | ⟨_, hnone', _⟩
        · exact ⟨⟨p, hfirst p hp, hloc⟩, hnone, hsame'.trans hdir⟩
        · exact absurd (hdir.symm.trans hnone') (by simp)

/-- The directories that `mkdir -p` makes sure of. -/
def wayPoints (routes : List (List Str)) : List Path :=
  routes.flatMap (fun r => r.inits.map normalize)

theorem look_mkdirRoutes {w w' : World} {routes : List (List Str)}
    (h : routes.foldlM World.mkdirRoute w = some w') (i : VolId) (q : Path) :
    look w' i q = look w i q ∨ Made (wayPoints routes) w w' i q := by
  apply foldlM_look (fun r => r.inits.map normalize) ?_ ?_ routes w w' h
  · intro v r v' hv
    exact foldlM_sameShell (fun _ _ _ hu => mkdir_sameShell hu) _ v v' hv
  · intro v r v' hv
    have hroute := foldlM_look (fun p => [p]) (i := i) (q := q)
      (fun _ _ _ hu => mkdir_sameShell hu) (fun _ _ _ hu => look_mkdir hu i q) _ v v' hv
    simpa using hroute

/-- What a recursive copy puts at a path below its target. -/
theorem nodeAt_copyTree {w : World} {src : Str} {dst : Path} {i : VolId} {s : Path}
    (hloc : w.locate (dst ++ [src]) = (i, s)) (hvol : (w.vols i).isSome = true) (q : Path) :
    nodeAt (w.copyTree src dst) i (s ++ q) = (w.node (src :: q)).or (nodeAt w i (s ++ q)) := by
  obtain ⟨v, hv⟩ := Option.isSome_iff_exists.mp hvol
  unfold nodeAt World.copyTree World.onVol
  simp [hloc, hv]

theorem nodeAt_copyTree_other (w : World) (src : Str) (dst : Path) {i : VolId} {q : Path}
    (h : ¬ (i = (w.locate (dst ++ [src])).1 ∧ (w.locate (dst ++ [src])).2 <+: q)) :
    nodeAt (w.copyTree src dst) i q = nodeAt w i q := by
  unfold nodeAt World.copyTree World.onVol
  by_cases hi : i = (w.locate (dst ++ [src])).1
  · subst hi
    have hq : ¬ (w.locate (dst ++ [src])).2 <+: q := fun hpre => h ⟨rfl, hpre⟩
    cases hv : w.vols (w.locate (dst ++ [src])).1 with
    | none => simp [hv]
    | some v => simp [hv, hq]
  · simp [hi]

theorem look_copyTree_other (w : World) (src : Str) (dst : Path) {i : VolId} {q : Path}
    (h : ¬ (i = (w.locate (dst ++ [src])).1 ∧ (w.locate (dst ++ [src])).2 <+: q)) :
    look (w.copyTree src dst) i q = look w i q :=
  congrArg (Option.map Node.kind) (nodeAt_copyTree_other w src dst h)

/-! ## What a command can change -/

/-- The command makes a file system or a partition table. -/
def formats : Act → Bool
  | .sfdisk _ _ | .mkfsFat _ | .mke2fs _ => true
  | _ => false

/-- The paths at which a command replaces what is there. -/
def replaces : Act → List Path
  | .cp _ dst => [dst]
  | .touch p | .write _ p _ | .openOut p => [p]
  | .mv src dst => [src, dst]
  | _ => []

/-- The paths whose node gets another mode or owner. -/
def marks : Act → List Path
  | .chmodSetuid p | .chmod _ p => [p]
  | .chown _ _ route => [normalize route]
  | _ => []

/-- **What a command does to the volumes**, unless it makes a file system or a
partition table.  Everything about such commands follows from these seven
cases. -/
inductive Effect (a : Act) (w w' : World) : Prop where
  | idle (h : w'.vols = w.vols)
  | made (routes : List (List Str)) (ha : a = .mkdirP routes)
      (h : routes.foldlM World.mkdirRoute w = some w')
  | copied (src : Str) (dst : Path) (ha : a = .cpA src dst) (h : w' = w.copyTree src dst)
  | given (p : Path) (ha : a = .chownR p) (h : w' = w.chownTree p)
  | marked (p : Path) (n m : Node) (hp : p ∈ marks a) (hn : w.node p = some n)
      (hkind : m.kind = n.kind) (h : w' = w.put p m)
  | stored (p : Path) (n : Node) (hp : p ∈ replaces a) (h : w'.vols = (w.put p n).vols)
  | moved (src dst : Path) (n : Node) (ha : a = .mv src dst) (h : w' = (w.put dst n).remove src)

theorem perform_effect {d : Decision} {a : Act} {w w' : World} {out : Str}
    (ha : formats a = false) (h : perform d a w = some (out, w')) : Effect a w w' := by
  cases a
  case sfdisk | mkfsFat | mke2fs => cases ha
  case umount => cases h
  case say | sleep | readPU | cryptpw | sync | setTrap | close =>
    simp only [perform, Option.some.injEq, Prod.mk.injEq] at h
    rw [← h.2]
    exact .idle rfl
  case readLine | getpass =>
    simp only [perform, Option.map_eq_some_iff, Prod.mk.injEq] at h
    obtain ⟨_, _, _, rfl⟩ := h
    exact .idle rfl
  case isFile | isDir | isBlock | mount | openIn =>
    simp only [perform, Option.ite_none_right_eq_some, Option.some.injEq, Prod.mk.injEq] at h
    rw [← h.2.2]
    exact .idle rfl
  case mkdirP routes =>
    simp only [perform, Option.map_eq_some_iff, Prod.mk.injEq] at h
    obtain ⟨v, hv, _, rfl⟩ := h
    exact .made routes rfl hv
  case cpA src dst =>
    simp only [perform, Option.ite_none_right_eq_some, Option.some.injEq, Prod.mk.injEq] at h
    exact .copied src dst rfl h.2.2.symm
  case chownR p =>
    simp only [perform, Option.ite_none_right_eq_some, Option.some.injEq, Prod.mk.injEq] at h
    exact .given p rfl h.2.2.symm
  case chown | chmodSetuid | chmod =>
    simp only [perform, Option.map_eq_some_iff, Prod.mk.injEq] at h
    obtain ⟨n, hn, _, rfl⟩ := h
    exact .marked _ n _ (List.mem_singleton.mpr rfl) hn (by simp) rfl
  case touch p =>
    simp only [perform] at h
    split at h
    · simp only [Option.some.injEq, Prod.mk.injEq] at h
      rw [← h.2]
      exact .idle rfl
    · simp only [Option.ite_none_right_eq_some, Option.some.injEq, Prod.mk.injEq] at h
      rw [← h.2.2]
      exact .stored p _ (List.mem_singleton.mpr rfl) rfl
  case cp | write | openOut =>
    simp only [perform, Option.ite_none_right_eq_some, Option.some.injEq, Prod.mk.injEq] at h
    rw [← h.2.2]
    exact .stored _ _ (List.mem_singleton.mpr rfl) rfl
  case mv src dst =>
    simp only [perform, Option.ite_none_right_eq_some, Option.map_eq_some_iff, Prod.mk.injEq] at h
    obtain ⟨_, n, _, _, rfl⟩ := h
    exact .moved src dst n rfl rfl

theorem exec_umount_vols (d : Decision) (ps : List Path) (w : World) :
    (exec d (.umount ps) w).2.vols = w.vols := by
  simp only [exec]
  split <;> rfl

theorem exec_effect (d : Decision) {a : Act} (ha : formats a = false) (w : World) :
    Effect a w (exec d a w).2 := by
  by_cases ho : a.ordinary = true
  · rcases exec_cases d ho w with ⟨out, w', hp, he⟩ | he | he
    · rw [he]
      exact perform_effect ha hp
    · rw [he]
      apply Effect.idle
      unfold residue
      split
      · split <;> rfl
      · rfl
    · rw [he]
      exact .idle rfl
  · cases a
    case umount ps => exact .idle (exec_umount_vols d ps w)
    case readPU => exact .idle rfl
    all_goals exact absurd rfl ho

/-- The ways in which a command can change what a volume holds at a path: by
replacing it, by making a directory, or by copying a tree over it. -/
inductive Change (a : Act) (w w' : World) (i : VolId) (q : Path) : Prop where
  | same (h : look w' i q = look w i q)
  | replaced (p : Path) (hp : p ∈ replaces a) (hloc : w.locate p = (i, q))
  | made (routes : List (List Str)) (ha : a = .mkdirP routes)
      (h : Made (wayPoints routes) w w' i q)
  | copied (src : Str) (dst : Path) (ha : a = .cpA src dst)
      (hvol : i = (w.locate (dst ++ [src])).1) (hpre : (w.locate (dst ++ [src])).2 <+: q)

theorem look_of_vols {w w' : World} (h : w'.vols = w.vols) (i : VolId) (q : Path) :
    look w' i q = look w i q := by
  unfold look
  rw [h]

/-- **What a command can change.** -/
theorem exec_look (d : Decision) {a : Act} (ha : formats a = false) (w : World) (i : VolId)
    (q : Path) : Change a w (exec d a w).2 i q := by
  cases exec_effect d ha w with
  | idle h => exact .same (look_of_vols h i q)
  | made routes ha h =>
      rcases look_mkdirRoutes h i q with hsame | hmade
      · exact .same hsame
      · exact .made routes ha hmade
  | copied src dst ha h =>
      rw [h]
      by_cases hat : i = (w.locate (dst ++ [src])).1 ∧ (w.locate (dst ++ [src])).2 <+: q
      · exact .copied src dst ha hat.1 hat.2
      · exact .same (look_copyTree_other w src dst hat)
  | given p _ h => exact .same (by rw [h, look_chownTree])
  | marked p n m _ hn hkind h => exact .same (by rw [h, look_put_kind hn hkind])
  | stored p n hp h =>
      by_cases hat : w.locate p = (i, q)
      · exact .replaced p hp hat
      · exact .same (by rw [look_of_vols h, look_put, if_neg (fun hx => hat hx.1)])
  | moved src dst n ha h =>
      subst ha
      by_cases hsrc : w.locate src = (i, q)
      · exact .replaced src (List.mem_cons_self ..) hsrc
      · by_cases hdst : w.locate dst = (i, q)
        · exact .replaced dst (List.mem_cons_of_mem _ (List.mem_singleton.mpr rfl)) hdst
        · apply Change.same
          rw [h, look_remove, if_neg (show (w.put dst n).locate src ≠ (i, q) from hsrc), look_put,
            if_neg (fun hx => hdst hx.1)]

/-! ## Volumes

No command but `mkfs` and `sfdisk` makes or removes a volume, and a volume
that is not mounted stays as it is. -/

theorem onVol_isSome (w : World) (id : VolId) (f : Vol → Vol) (i : VolId) :
    ((w.onVol id f).vols i).isSome = (w.vols i).isSome := by
  unfold World.onVol
  by_cases hi : i = id <;> simp [hi]

theorem mkdir_isSome {w w' : World} {p : Path} (h : w.mkdir p = some w') (i : VolId) :
    (w'.vols i).isSome = (w.vols i).isSome := by
  unfold World.mkdir at h
  split at h
  · rw [← Option.some.inj h]
  · rw [Option.ite_none_right_eq_some] at h
    rw [← Option.some.inj h.2]
    exact onVol_isSome _ _ _ i

theorem exec_isSome (d : Decision) {a : Act} (ha : formats a = false) (w : World) (i : VolId) :
    ((exec d a w).2.vols i).isSome = (w.vols i).isSome := by
  cases exec_effect d ha w with
  | idle h => rw [h]
  | made routes _ h =>
      have hstep : ∀ u p u', World.mkdir u p = some u' →
          (u.vols i).isSome = (w.vols i).isSome → (u'.vols i).isSome = (w.vols i).isSome :=
        fun _ _ _ hu hI => (mkdir_isSome hu i).trans hI
      exact foldlM_keeps (fun u r u' hu hI => foldlM_keeps hstep _ u u' hu hI) routes w _ h rfl
  | copied _ _ _ h => rw [h]; exact onVol_isSome _ _ _ i
  | given _ _ h => rw [h]; exact onVol_isSome _ _ _ i
  | marked _ _ _ _ _ _ h => rw [h]; exact onVol_isSome _ _ _ i
  | stored _ _ _ h => rw [h]; exact onVol_isSome _ _ _ i
  | moved _ _ _ _ h => rw [h]; exact (onVol_isSome _ _ _ i).trans (onVol_isSome _ _ _ i)

/-- A path leads to the running system or to a mounted volume. -/
theorem locate_vol (w : World) (p : Path) :
    (w.locate p).1 = .live ∨ ∃ m ∈ w.mounts, m.vol = (w.locate p).1 ∧
      p = m.point ++ (w.locate p).2 := by
  unfold World.locate resolve
  cases hf : w.mounts.find? (fun m => m.point.isPrefixOf p) with
  | none => exact Or.inl rfl
  | some m =>
      right
      refine ⟨m, List.mem_of_find?_eq_some hf, rfl, ?_⟩
      have hfound := List.find?_some hf
      have hpre : m.point <+: p := List.isPrefixOf_iff_prefix.mp hfound
      exact (List.prefix_iff_eq_append.mp hpre).symm

theorem inUse_mounted {w : World} {m : Mount VolId} (hm : m ∈ w.mounts) :
    w.inUse m.vol = true := by
  unfold World.inUse
  rw [Bool.or_eq_true, List.any_eq_true]
  exact Or.inr ⟨m, hm, beq_self_eq_true _⟩

/-- A path leads to a volume in use. -/
theorem inUse_locate (w : World) (p : Path) : w.inUse (w.locate p).1 = true := by
  rcases locate_vol w p with hlive | ⟨m, hm, hvol, _⟩
  · rw [hlive]
    rfl
  · exact hvol ▸ inUse_mounted hm

/-- **A volume that is not mounted stays as it is.** -/
theorem exec_look_unmounted (d : Decision) {a : Act} (ha : formats a = false) {w : World}
    {i : VolId} (hi : i ≠ .live) (hm : ∀ m ∈ w.mounts, m.vol ≠ i) (q : Path) :
    look (exec d a w).2 i q = look w i q := by
  have hno : ∀ p, (w.locate p).1 ≠ i := by
    intro p hp
    rcases locate_vol w p with hlive | ⟨m, hmem, hvol, _⟩
    · exact hi (hp.symm.trans hlive)
    · exact hm m hmem (hvol.trans hp)
  cases exec_look d ha w i q with
  | same h => exact h
  | replaced p _ hloc => exact absurd (by rw [hloc]) (hno p)
  | made routes _ h =>
      obtain ⟨⟨p, _, hloc⟩, _⟩ := h
      exact absurd (by rw [hloc]) (hno p)
  | copied src dst _ hvol _ => exact absurd hvol.symm (hno _)

end Slinux.Installer.Files
