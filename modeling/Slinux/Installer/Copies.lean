import Slinux.Installer.Files
import Slinux.Installer.Target

/-!
# The copies

Lines 110 to 117 list the directories that are there and copy each of them.
What that does is said here once, for the loop that looks for directories on
any machine, and for the loop that copies them on the installer's own.

## Main results

* `presentDirs_filter` — the directories that are there, in order.
* `forEach_cpA` — what the target has below each of them afterwards.
-/

namespace Slinux.Installer.Copies

open Slinux.Shell.Text
open Slinux.Shell.Script
open Slinux.Shell.Logic
open Slinux.Unix.Files
open Slinux.Disk.Name
open Slinux.Installer.System
open Slinux.Installer.Effects
open Slinux.Installer.Script
open Slinux.Installer.Files
open Slinux.Installer.Target

/-! ## The directories that are there -/

section Present

variable {σ : Type} {M : Machine σ Act Decision} {A : Event σ Act Decision → Prop}

/-- The loop collects the directories, on a machine whose test `[ -d d ]` is
`isDir`. -/
theorem wp_presentDirs (hquiet : ∀ x, A x → M.signal x.decision = none)
    (isDir : σ → Str → Bool)
    (htest : ∀ dec d w, M.exec dec (.isDir [d]) w = (if isDir w d then ⟨0, []⟩ else failed, w))
    (w : σ) (ds : List Str) :
    wp M A (fun _ => True) (presentDirs ds) (fun l v => l = ds.filter (isDir w) ∧ v = w)
      (fun _ _ => False) w := by
  induction ds with
  | nil => exact ⟨rfl, rfl⟩
  | cons d ds ih =>
      apply wp_tested hquiet
      intro dec _
      rw [htest]
      refine ⟨trivial, ?_⟩
      apply wp_bind
      refine wp_mono ?_ (fun _ _ hx => hx) ih
      rintro _ v ⟨rfl, hv⟩
      refine ⟨?_, hv⟩
      rw [List.filter_cons]
      cases isDir w d with
      | true => rfl
      | false => rfl

end Present

theorem exec_isDir (d : Decision) (p : Path) (w : World) :
    exec d (.isDir p) w = (if w.isDir p then ⟨0, []⟩ else failed, w) := by
  simp only [exec, Act.certain, Bool.not_true, Bool.and_false, perform]
  cases w.isDir p with
  | true => rfl
  | false => rfl

/-! ## The copies on the target -/

/-- A path of the running system below one of the copied directories leads
neither to the new root nor to the ESP. -/
theorem source_locate {e r : VolId} {rest : List (Mount VolId)} {w : World}
    (hw : Full e r rest w) (her : e ≠ r) (hr : r ≠ .live) {d : Str} (hd : d ∈ sourceDirs)
    (q : Path) : (w.locate (d :: q)).1 ≠ r := by
  intro h
  have hpath := hw.root_path her hr (show w.locate (d :: q) = (r, (w.locate (d :: q)).2) from
    Prod.ext h rfl)
  have hmnt : d = "mnt".toList := (List.cons.inj hpath).1
  rw [hmnt] at hd
  exact absurd hd (by decide)

section Copy

variable {A : Event World Act Decision → Prop} {e r : VolId} {rest : List (Mount VolId)}
variable (hquiet : ∀ x, A x → machine.signal x.decision = none)

include hquiet

theorem presentDirs_filter (w : World) (ds : List Str) :
    wp machine A (fun _ => True) (presentDirs ds)
      (fun l v => l = ds.filter (fun d => w.isDir [d]) ∧ v = w) (fun _ _ => False) w :=
  wp_presentDirs hquiet (fun v d => v.isDir [d]) (fun dec d v => exec_isDir dec [d] v) w ds

/-- The copies: the source stays, and the target has it once its directory has
had its turn. -/
theorem forEach_cpA (her : e ≠ r) (hr : r ≠ .live) {d : Str} (hd : d ∈ sourceDirs) (q : Path)
    (ds : List Str) :
    ∀ {w : World}, Full e r rest w →
      wp machine A (fun _ => True) (forEach (fun d' => cmd (.cpA d' mntRoot)) ds)
        (fun _ v => Full e r rest v ∧ nodeAt v r (d :: q)
          = if d ∈ ds then (w.node (d :: q)).or (nodeAt w r (d :: q)) else nodeAt w r (d :: q))
        (fun _ _ => True) w := by
  induction ds with
  | nil =>
      intro w hw
      exact ⟨hw, (if_neg List.not_mem_nil).symm⟩
  | cons d' ds ih =>
      intro w hw
      apply wp_cmd hquiet
      intro dec _
      refine ⟨trivial, fun h0 => ?_, fun _ => trivial⟩
      have hfull : Full e r rest (exec dec (.cpA d' mntRoot) w).2 :=
        hw.of_mounts ((exec_frame dec _ w).mounts rfl)
      have hp := perform_of_status rfl h0
      simp only [perform, Option.ite_none_right_eq_some, Bool.and_eq_true, Option.some.injEq,
        Prod.mk.injEq] at hp
      obtain ⟨⟨_, hroot⟩, _, hnext⟩ := hp
      have hloc : w.locate (mntRoot ++ [d']) = (r, [d']) := hw.locate_top d'
      -- the source is on another volume
      have hsrc : (exec dec (.cpA d' mntRoot) w).2.node (d :: q) = w.node (d :: q) := by
        have hother := source_locate hw her hr hd q
        have hview : (exec dec (.cpA d' mntRoot) w).2.locate (d :: q) = w.locate (d :: q) := by
          unfold World.locate
          rw [hfull.mounts, hw.mounts]
        rw [node_of_locate (show _ = ((w.locate (d :: q)).1, (w.locate (d :: q)).2) from hview),
          ← hnext, nodeAt_copyTree_other _ _ _ (fun h => hother (h.1.trans (by rw [hloc]))),
          ← node_eq]
      have hcopy : nodeAt (exec dec (.cpA d' mntRoot) w).2 r (d :: q)
          = if d = d' then (w.node (d :: q)).or (nodeAt w r (d :: q)) else nodeAt w r (d :: q) := by
        rw [← hnext]
        by_cases hdd : d = d'
        · subst hdd
          have hvol : (w.vols r).isSome = true :=
            isSome_of_isDir hroot (hw.locate_root (q := []) (by decide))
          rw [if_pos rfl, show d :: q = [d] ++ q from rfl, nodeAt_copyTree hloc hvol,
            List.singleton_append]
        · rw [if_neg hdd, nodeAt_copyTree_other]
          rw [hloc]
          intro h
          exact hdd (List.cons_prefix_cons.mp h.2).1.symm
      refine wp_mono ?_ (fun _ _ hx => hx) (ih hfull)
      rintro _ v ⟨hv, hnode⟩
      refine ⟨hv, ?_⟩
      rw [hnode, show machine.exec = exec from rfl, hsrc, hcopy]
      by_cases hdd : d = d'
      · rw [if_pos hdd, if_pos (List.mem_cons.mpr (Or.inl hdd))]
        split
        · cases w.node (d :: q) <;> rfl
        · rfl
      · rw [if_neg hdd]
        refine if_congr ?_ rfl rfl
        rw [List.mem_cons, or_iff_right hdd]

end Copy

end Slinux.Installer.Copies
