import Slinux.Installer.Modes
import Slinux.Installer.NewSystem

/-!
# Copies without links

Lines 108 to 125 run on two machines: in `Modes` on names, links and inodes,
and with the rest of the script on paths that have a node each.  On a system
without links they agree.  A copied file of the new root that `System` describes
has the inode that `Modes` makes of it, so what is said there about modes and
owners holds of the installed system.

## Main results

* `regains_unlinked` — without links `/bin/doas` is the file whose bit is set
  again.
* `system_finished` — the copied files of the new root.
* `system_modes_iff` — when they have the modes of the running system.
-/

namespace Slinux.Installer.Unlinked

open Slinux.Shell.Text
open Slinux.Unix.Files
open Slinux.Unix.Links (Inode Body Names isEntry follow_unlinked follow_direct copiesShare)
open Slinux.Installer.Script (mntRoot sourceDirs)
open Slinux.Installer.Modes (FreshTarget Copied doasPath copyOf_below copyOf_other shown leads
  regains oneCopy finished finished_file setuid setgid groupExec kept_iff)
open Slinux.Installer.NewSystem (System accountFiles)

/-! ## Nodes and inodes -/

/-- The inode of a node. -/
def inodeOf (n : Node) : Inode where
  body := match n.kind with
    | .dir => .dir
    | .file data => .file data
  mode := n.mode
  uid := n.uid
  gid := n.gid

theorem inodeOf_chown (uid gid : Nat) (n : Node) :
    inodeOf (n.chown uid gid) = (inodeOf n).chown uid gid := by
  obtain ⟨kind, mode, u, g⟩ := n
  cases kind <;> rfl

theorem inodeOf_chmod (f : BitVec 12 → BitVec 12) (n : Node) :
    inodeOf (n.chmod f) = (inodeOf n).chmod f := rfl

theorem inodeOf_not_link (n : Node) (text : Str) : (inodeOf n).body ≠ .link text := by
  obtain ⟨kind, mode, u, g⟩ := n
  cases kind <;> simp [inodeOf]

theorem kind_of_inodeOf {n : Node} (h : (inodeOf n).body = .dir) : n.kind = .dir := by
  obtain ⟨kind, mode, u, g⟩ := n
  cases kind with
  | dir => rfl
  | file data => cases h

/-- The names are those of a tree with a node for each path: none of them is a
link, and no two are names of one inode. -/
structure NoLinks (tree : Path → Option Node) (t : Names mntRoot) : Prop where
  inode : ∀ p, t.inode p = (tree p).map inodeOf
  same : ∀ {p q}, t.same p q = true → p = q

section Agree

variable {tree : Path → Option Node} {t : Names mntRoot} {d : Str} {q : Path}

theorem NoLinks.body (h : NoLinks tree t) (p : Path) (text : Str) :
    (t.inode p).map Inode.body ≠ some (.link text) := by
  rw [h.inode]
  cases tree p with
  | none => simp
  | some n => simpa using inodeOf_not_link n text

theorem sourceDirs_entry (hd : d ∈ sourceDirs) : isEntry d = true := by
  have hall : ∀ d ∈ sourceDirs, isEntry d = true := by decide
  exact hall d hd

/-- `[ -d d ]` is answered alike. -/
theorem NoLinks.present (h : NoLinks tree t) (hd : d ∈ Modes.present t) :
    d ∈ Image.present tree ∧ ∃ n, tree [d] = some n ∧ n.kind = .dir := by
  obtain ⟨hmem, hdir⟩ := List.mem_filter.mp hd
  unfold Names.isDir at hdir
  cases hfind : t.find [d] with
  | none =>
      rw [hfind] at hdir
      cases hdir
  | some p =>
      have hp : p = [d] := by
        refine follow_unlinked (h.body) (fun c hc => ?_) hfind
        rw [List.mem_singleton.mp hc]
        exact sourceDirs_entry hmem
      rw [hfind, hp] at hdir
      have hlook : t.look [d] = some .dir := eq_of_beq hdir
      rw [Names.look, h.inode, Option.map_map, Option.map_eq_some_iff] at hlook
      obtain ⟨n, hn, hbody⟩ := hlook
      have hkind : n.kind = .dir := kind_of_inodeOf hbody
      refine ⟨List.mem_filter.mpr ⟨hmem, ?_⟩, n, hn, hkind⟩
      rw [hn, Option.any_some, hkind]
      rfl

/-- No copy is a link. -/
theorem NoLinks.shown_body (h : NoLinks tree t) (p : Path) (text : Str) :
    (shown t (Modes.present t) p).map Inode.body ≠ some (.link text) := h.body _ text

theorem doas_entries : ∀ c ∈ mntRoot ++ doasPath, isEntry c = true := by decide

/-- `/mnt/root/bin/doas` is found, if it is there. -/
theorem NoLinks.leads_doas (h : NoLinks tree t) (ht : FreshTarget t)
    (hbin : "bin".toList ∈ Modes.present t) {i : Inode} (hi : t.inode doasPath = some i) :
    leads t (mntRoot ++ doasPath) = some (mntRoot ++ doasPath) := by
  have hbelow : ∀ q, shown t (Modes.present t) (mntRoot ++ "bin".toList :: q)
      = t.inode ("bin".toList :: q) := by
    intro q
    rw [shown, copyOf_below, if_pos hbin]
    rfl
  refine follow_direct doas_entries (fun q hq hne => ?_) ⟨i.body, ?_, ?_⟩
  · rw [List.nil_append]
    -- the directories on the way: those of the mount point, and `/mnt/root/bin`
    have hlen : q.length ≤ 3 := by
      have hle := hq.length_le
      have hlt : q.length ≠ 4 := fun heq => hne (hq.eq_of_length heq)
      simp [mntRoot, doasPath] at hle
      omega
    have hq' : q <+: mntRoot ++ ["bin".toList] := by
      refine List.prefix_of_prefix_length_le hq (List.prefix_append _ ["doas".toList]) ?_
      simpa [mntRoot] using hlen
    rcases List.prefix_concat_iff.mp hq' with rfl | hpre
    · obtain ⟨_, n, hn, hkind⟩ := h.present hbin
      rw [hbelow [], h.inode, hn]
      obtain ⟨kind, mode, u, g⟩ := n
      obtain rfl : kind = .dir := hkind
      rfl
    · have hnone : Modes.copyOf (Modes.present t) q = none := by
        refine copyOf_other _ (fun d' r heq => ?_)
        have hle := hpre.length_le
        rw [heq, List.length_append, List.length_cons] at hle
        omega
      rw [shown, hnone]
      exact ht.dirs q hpre
  · rw [List.nil_append]
    exact (congrArg (Option.map Inode.body) (hbelow ["doas".toList])).trans
      (congrArg (Option.map Inode.body) hi)
  · intro text heq
    apply h.body doasPath text
    rw [hi, Option.map_some, heq]

/-- **Without links the setuid bit is set again on `/bin/doas`.** -/
theorem regains_unlinked (h : NoLinks tree t) (ht : FreshTarget t) (keep : Bool)
    (hd : d ∈ Modes.present t) {i : Inode} (hi : t.inode (d :: q) = some i) :
    regains keep t (d :: q) = (d :: q == doasPath) := by
  have hshare : ∀ p, p ≠ doasPath → oneCopy t keep doasPath p = false := by
    intro p hp
    refine Bool.and_eq_false_iff.mpr (Or.inr ?_)
    unfold copiesShare
    cases keep with
    | true => exact Bool.eq_false_iff.mpr (fun hs => hp (h.same hs).symm)
    | false => exact beq_eq_false_iff_ne.mpr hp.symm
  unfold regains
  by_cases hdoas : d :: q = doasPath
  · have hbin : "bin".toList ∈ Modes.present t := (List.cons.inj hdoas).1 ▸ hd
    rw [hdoas] at hi ⊢
    rw [h.leads_doas ht hbin hi]
    have hone : oneCopy t keep doasPath doasPath = true := by
      unfold oneCopy copiesShare
      rw [beq_self_eq_true, Bool.true_and]
      cases keep with
      | true => exact t.equiv.refl doasPath
      | false => exact beq_self_eq_true doasPath
    rw [beq_self_eq_true]
    exact hone
  · rw [beq_eq_false_iff_ne.mpr hdoas]
    cases hleads : leads t (mntRoot ++ doasPath) with
    | none => rfl
    | some x =>
        have hx : x = [] ++ (mntRoot ++ doasPath) :=
          follow_unlinked h.shown_body doas_entries hleads
        subst hx
        exact Bool.and_eq_false_iff.mpr (Or.inr (hshare _ hdoas))

/-- **The two machines agree.**  Where the running system has no links, every
copied file of the new root but the rewritten ones has the inode that `Modes`
makes of it. -/
theorem system_finished (h : NoLinks tree t) (ht : FreshTarget t) (keep : Bool) {user : Str}
    {x : Vol} (hx : System tree user x) {i : Inode} (hi : Copied t (d :: q) i)
    (haccount : d :: q ∉ accountFiles) :
    (x (d :: q)).map inodeOf = some (finished keep t (d :: q) i) := by
  have hd : d ∈ Modes.present t := by
    obtain ⟨d', hd', heq⟩ := hi.source
    rwa [Option.some.inj heq]
  obtain ⟨n, hn, rfl⟩ := Option.map_eq_some_iff.mp ((h.inode (d :: q)).symm.trans hi.inode)
  obtain ⟨hpresent, _⟩ := h.present hd
  rw [finished, regains_unlinked h ht keep hd hi.inode]
  by_cases hdoas : d :: q = doasPath
  · have hbin : "bin".toList ∈ Image.present tree := (List.cons.inj hdoas).1 ▸ hpresent
    have hnode := hx.doas
    rw [hdoas] at hn ⊢
    rw [if_pos hbin, show Image.doasFile = doasPath from rfl, hn] at hnode
    rw [beq_self_eq_true, if_pos rfl, ← inodeOf_chown, ← inodeOf_chmod, hnode]
    rfl
  · rw [beq_eq_false_iff_ne.mpr hdoas, if_neg Bool.false_ne_true,
      hx.copied d (NewSystem.present_sub hpresent) q haccount hdoas, if_pos hpresent, hn,
      ← inodeOf_chown]
    rfl

/-- **The modes of the new root.**  They are kept exactly if `/bin/doas` is the
only setuid file and no file is setgid and executable for its group. -/
theorem system_modes_iff (h : NoLinks tree t) (ht : FreshTarget t) {user : Str} {x : Vol}
    (hx : System tree user x) :
    (∀ d q i, Copied t (d :: q) i → d :: q ∉ accountFiles →
      (x (d :: q)).map Node.mode = some i.mode) ↔
      ∀ d q i, Copied t (d :: q) i → d :: q ∉ accountFiles →
        setuid i.mode = (d :: q == doasPath) ∧ (setgid i.mode && groupExec i.mode) = false := by
  refine forall₃_congr (fun d q i => forall₂_congr (fun hi haccount => ?_))
  have hd : d ∈ Modes.present t := by
    obtain ⟨d', hd', heq⟩ := hi.source
    rwa [Option.some.inj heq]
  have hmode : (x (d :: q)).map Node.mode = some (finished false t (d :: q) i).mode := by
    have hinode := system_finished h ht false hx hi haccount
    rw [← Option.map_some, ← hinode, Option.map_map]
    rfl
  rw [hmode, finished_file _ _ _ hi.regular, Option.some.injEq, kept_iff,
    regains_unlinked h ht false hd hi.inode]

end Agree

end Slinux.Installer.Unlinked
