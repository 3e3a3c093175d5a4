import Slinux.Installer.Outside
import Slinux.Unix.Edit

/-!
# What the installer puts on the disk

An installation that reports success has built two file systems from nothing.
This module says what they hold, path by path: the new root is the copied part
of the running system, given to root, with the account files rewritten and a
few directories and the marker added, and nothing else; the new ESP holds the
loader, its configuration, the kernel and perhaps the rescue initramfs.

The result is two expressions (`newEsp`, `newRoot`): compositions of edits of
volumes that begin empty.  They mention neither mount tables nor devices nor what was
on the disk before.  Every command of lines 82 to 202 that touches the target is
shown to be one of these edits (`Holds.write`, `Holds.cp`, ...), wherever its
paths lead, and the parts of the script are the composed edits.

## Main results

* `installOn_image` — lines 82 to 202.
* `image_of_status` — whole runs.
-/

namespace Slinux.Installer.Image

open Slinux.Shell.Text
open Slinux.Shell.Script
open Slinux.Shell.Logic
open Slinux.Unix.Files
open Slinux.Disk.Name
open Slinux.Disk.Dump
open Slinux.Installer.Accounts
open Slinux.Installer.Bootloader
open Slinux.Installer.System
open Slinux.Installer.Effects
open Slinux.Installer.Script
open Slinux.Installer.Files
open Slinux.Installer.Target
open Slinux.Installer.Guard
open Slinux.Installer.Groups
open Slinux.Installer.Operands
open Slinux.Installer.Contents
open Slinux.Installer.Filling
open Slinux.Installer.Outside

/-! ## The new disk -/

/-- The two new file systems. -/
structure Disk where
  esp : Vol
  root : Vol

inductive Side where
  | esp
  | root

def Side.vol (name : DevName) : Side → VolId
  | .esp => espVol name
  | .root => rootVol name

def Disk.get (D : Disk) : Side → Vol
  | .esp => D.esp
  | .root => D.root

/-- An edit of one of the two. -/
def Disk.on (D : Disk) (s : Side) (f : Vol → Vol) : Disk :=
  match s with
  | .esp => { D with esp := f D.esp }
  | .root => { D with root := f D.root }

/-- The two volumes of the disk hold `D`. -/
structure Holds (name : DevName) (D : Disk) (w : World) : Prop where
  esp : w.vols (espVol name) = some D.esp
  root : w.vols (rootVol name) = some D.root

section Holds

variable {name : DevName} {D : Disk} {s : Side} {p q : Path} {w v : World}

theorem Holds.get (h : Holds name D w) (s : Side) : w.vols (s.vol name) = some (D.get s) := by
  cases s with
  | esp => exact h.esp
  | root => exact h.root

theorem Holds.of_vols (h : Holds name D w) (hv : v.vols = w.vols) : Holds name D v :=
  ⟨hv ▸ h.esp, hv ▸ h.root⟩

theorem Holds.onVol (h : Holds name D w) (s : Side) (f : Vol → Vol) :
    Holds name (D.on s f) (w.onVol (s.vol name) f) := by
  have hself : ∀ i, (w.onVol i f).vols i = (w.vols i).map f := fun i => if_pos rfl
  have hother : ∀ {i j}, j ≠ i → (w.onVol i f).vols j = w.vols j := fun hij => if_neg hij
  cases s with
  | esp =>
      constructor
      · rw [Side.vol, hself, h.esp]
        rfl
      · rw [Side.vol, hother espVol_ne_rootVol.symm]
        exact h.root
  | root =>
      constructor
      · rw [Side.vol, hother espVol_ne_rootVol]
        exact h.esp
      · rw [Side.vol, hself, h.root]
        rfl

theorem Holds.node (h : Holds name D w) (hloc : w.locate p = (s.vol name, q)) :
    w.node p = D.get s q := by
  rw [node_of_locate hloc, nodeAt, h.get s]
  rfl

theorem Holds.text (h : Holds name D w) (hloc : w.locate p = (s.vol name, q)) :
    w.text p = (D.get s).text q := by
  rw [World.text, h.node hloc]
  rfl

/-- Two edits that agree on the volume they are applied to. -/
theorem Disk.on_congr {f g : Vol → Vol} (h : f (D.get s) = g (D.get s)) : D.on s f = D.on s g := by
  cases s with
  | esp => exact congrArg (fun x => ({ D with esp := x } : Disk)) h
  | root => exact congrArg (fun x => ({ D with root := x } : Disk)) h

theorem Holds.put (h : Holds name D w) (hloc : w.locate p = (s.vol name, q)) (n : Node) :
    Holds name (D.on s (fun x => x.put q n)) (w.put p n) := by
  unfold World.put
  rw [hloc]
  exact h.onVol s _

theorem Holds.isDir (h : Holds name D w) (hloc : w.locate p = (s.vol name, q)) :
    (D.get s).isDir q = w.isDir p := by
  unfold World.isDir Vol.isDir
  rw [h.node hloc]
  cases D.get s q <;> rfl

theorem Holds.store (h : Holds name D w) (hloc : w.locate p = (s.vol name, q))
    (hcan : w.canWrite p = true) (t : Str) :
    Holds name (D.on s (fun x => x.store q t)) (w.store p t) := by
  have hput := h.put hloc (((D.get s q).getD (newFile [])).withData t)
  have hdir : (D.get s).isDir q = false := by
    rw [World.canWrite, Bool.and_eq_true, Bool.not_eq_true'] at hcan
    rw [h.isDir hloc, hcan.2]
  unfold World.store
  rw [h.node hloc]
  rwa [Disk.on_congr (g := fun x => x.store q t)
    (Vol.store_of_not_isDir (D.get s) t hdir).symm] at hput

/-! ### Commands as edits -/

theorem Holds.write (h : Holds name D w) {append : Bool} {t : Str}
    (hd : Did (.write append p t) w v) (hloc : w.locate p = (s.vol name, q)) :
    Holds name (D.on s (fun x => if append then x.append q t else x.store q t)) v := by
  obtain ⟨d, h0, rfl⟩ := hd.run
  have hp := perform_of_status rfl h0
  simp only [perform, Option.ite_none_right_eq_some, Option.some.injEq, Prod.mk.injEq] at hp
  rw [← hp.2.2]
  cases append with
  | false => exact h.store hloc hp.1 t
  | true =>
      have hstore := h.store hloc hp.1 (w.text p ++ t)
      rw [h.text hloc] at hstore ⊢
      rwa [Disk.on_congr (g := fun x => x.append q t) rfl] at hstore

theorem Holds.cp (h : Holds name D w) {src : Path} (hd : Did (.cp src p) w v)
    (hloc : w.locate p = (s.vol name, q)) :
    Holds name (D.on s (fun x => x.store q (w.text src))) v := by
  obtain ⟨d, h0, rfl⟩ := hd.run
  have hp := perform_of_status rfl h0
  simp only [perform, Option.ite_none_right_eq_some, Option.some.injEq, Prod.mk.injEq,
    Bool.and_eq_true] at hp
  rw [← hp.2.2]
  exact h.store hloc hp.1.2 _

theorem Holds.openOut (h : Holds name D w) (hd : Did (.openOut p) w v)
    (hloc : w.locate p = (s.vol name, q)) : Holds name (D.on s (fun x => x.store q [])) v := by
  obtain ⟨d, h0, rfl⟩ := hd.run
  have hp := perform_of_status rfl h0
  simp only [perform, Option.ite_none_right_eq_some, Option.some.injEq, Prod.mk.injEq] at hp
  rw [← hp.2.2]
  exact (h.store hloc hp.1 []).of_vols rfl

theorem Holds.mv (h : Holds name D w) {p' q' : Path} (hd : Did (.mv p p') w v)
    (hloc : w.locate p = (s.vol name, q)) (hloc' : w.locate p' = (s.vol name, q')) :
    Holds name (D.on s (fun x => x.rename q q')) v := by
  obtain ⟨d, h0, rfl⟩ := hd.run
  have hp := perform_of_status rfl h0
  simp only [perform, Option.ite_none_right_eq_some, Option.map_eq_some_iff, Prod.mk.injEq] at hp
  obtain ⟨_, n, hn, _, hv⟩ := hp
  rw [h.node hloc] at hn
  rw [← hv]
  have hremove := (h.put hloc' n).onVol s (fun x => x.remove q)
  have hfinal : Holds name (D.on s (fun x => (x.put q' n).remove q)) ((w.put p' n).remove p) := by
    unfold World.remove
    rw [show (w.put p' n).locate p = (s.vol name, q) from hloc]
    cases s with
    | esp => exact hremove
    | root => exact hremove
  refine (Disk.on_congr ?_ : _ = D.on s (fun x => x.rename q q')) ▸ hfinal
  unfold Vol.rename
  rw [hn]

theorem Holds.adjust (h : Holds name D w) (hloc : w.locate p = (s.vol name, q)) {n : Node}
    (hn : w.node p = some n) (f : Node → Node) :
    Holds name (D.on s (fun x => x.adjust q f)) (w.put p (f n)) := by
  rw [h.node hloc] at hn
  refine (Disk.on_congr ?_ : _ = D.on s (fun x => x.adjust q f)) ▸ h.put hloc (f n)
  funext r
  unfold Vol.put Vol.adjust
  split
  · rename_i hr
    rw [hr, hn]
    rfl
  · rfl

/-- A command that gives the node at a path another mode or owner. -/
theorem Holds.marked (h : Holds name D w) {a : Act} {f : Node → Node} (hd : Did a w v)
    (ho : a.ordinary = true)
    (ha : ∀ d, perform d a w = (w.node p).map (fun n => ([], w.put p (f n))))
    (hloc : w.locate p = (s.vol name, q)) : Holds name (D.on s (fun x => x.adjust q f)) v := by
  obtain ⟨d, h0, rfl⟩ := hd.run
  have hp := perform_of_status ho h0
  rw [ha] at hp
  simp only [Option.map_eq_some_iff, Prod.mk.injEq] at hp
  obtain ⟨n, hn, _, hv⟩ := hp
  rw [← hv]
  exact h.adjust hloc hn _

theorem Holds.chmod (h : Holds name D w) {mode : BitVec 12} (hd : Did (.chmod mode p) w v)
    (hloc : w.locate p = (s.vol name, q)) :
    Holds name (D.on s (fun x => x.adjust q (Node.chmod (fun _ => mode)))) v :=
  h.marked hd rfl (fun _ => rfl) hloc

theorem Holds.chmodSetuid (h : Holds name D w) (hd : Did (.chmodSetuid p) w v)
    (hloc : w.locate p = (s.vol name, q)) :
    Holds name (D.on s (fun x => x.adjust q (Node.chmod (fun m => m ||| 0o4000)))) v :=
  h.marked hd rfl (fun _ => rfl) hloc

theorem Holds.chown (h : Holds name D w) {uid gid : Nat} {route : List Str}
    (hd : Did (.chown uid gid route) w v) (hloc : w.locate (normalize route) = (s.vol name, q)) :
    Holds name (D.on s (fun x => x.adjust q (Node.chown uid gid))) v :=
  h.marked hd rfl (fun _ => rfl) hloc

theorem Holds.touch (h : Holds name D w) (hd : Did (.touch p) w v)
    (hloc : w.locate p = (s.vol name, q)) : Holds name (D.on s (fun x => x.touch q)) v := by
  obtain ⟨d, h0, rfl⟩ := hd.run
  have hp := perform_of_status rfl h0
  simp only [perform] at hp
  rw [h.node hloc] at hp
  split at hp
  · rename_i hsome
    rw [← (Prod.mk.inj (Option.some.inj hp)).2]
    refine (Disk.on_congr ?_ : D.on s id = D.on s (fun x => x.touch q)) ▸ ?_
    · unfold Vol.touch
      rw [if_pos hsome]
      rfl
    · cases s with
      | esp => exact h
      | root => exact h
  · rename_i hnone
    simp only [Option.ite_none_right_eq_some, Option.some.injEq, Prod.mk.injEq] at hp
    rw [← hp.2.2]
    refine (Disk.on_congr ?_ : _ = D.on s (fun x => x.touch q)) ▸ h.put hloc (newFile [])
    unfold Vol.touch
    rw [if_neg hnone]

theorem Holds.chownR (h : Holds name D w) (hd : Did (.chownR p) w v)
    (hloc : w.locate p = (s.vol name, [])) :
    Holds name (D.on s (fun x => x.mapAll (Node.chown 0 0))) v := by
  obtain ⟨d, h0, rfl⟩ := hd.run
  have hp := perform_of_status rfl h0
  simp only [perform, Option.ite_none_right_eq_some, Option.some.injEq, Prod.mk.injEq] at hp
  rw [← hp.2.2]
  unfold World.chownTree
  rw [hloc]
  exact h.onVol s _

/-- A copy of one top directory. -/
theorem Holds.cpA (h : Holds name D w) {src : Str} {dst : Path} (hd : Did (.cpA src dst) w v)
    (hloc : w.locate (dst ++ [src]) = (s.vol name, [src])) :
    Holds name (D.on s (fun x => x.overlay [src] w.node)) v := by
  obtain ⟨d, h0, rfl⟩ := hd.run
  have hp := perform_of_status rfl h0
  simp only [perform, Option.ite_none_right_eq_some, Option.some.injEq, Prod.mk.injEq] at hp
  rw [← hp.2.2]
  unfold World.copyTree
  rw [hloc]
  refine (Disk.on_congr ?_ : _ = D.on s (fun x => x.overlay [src] w.node)) ▸ h.onVol s _
  funext q
  cases q with
  | nil => rfl
  | cons e q =>
      by_cases he : e = src
      · subst he
        simp [Vol.overlay, List.isPrefixOf]
      · simp [Vol.overlay, List.isPrefixOf, he, Ne.symm he]

/-! ### Directories -/

/-- Where paths land on a volume, those that lead there. -/
def landings (w : World) (i : VolId) (ps : List Path) : List Path :=
  ps.filterMap (fun p => if (w.locate p).1 = i then some (w.locate p).2 else none)

theorem mkdir_vols {i : VolId} {x : Vol} (h : w.mkdir p = some v) (hx : w.vols i = some x) :
    v.vols i = some (x.mkdirs (landings w i [p])) := by
  by_cases hi : (w.locate p).1 = i
  · have hloc : w.locate p = (i, (w.locate p).2) := Prod.ext hi rfl
    have hland : landings w i [p] = [(w.locate p).2] := by simp [landings, hi]
    have hnode : w.node p = x (w.locate p).2 := by
      rw [node_of_locate hloc, nodeAt, hx]
      rfl
    rw [hland]
    unfold World.mkdir at h
    split at h
    · rename_i hdir
      rw [← Option.some.inj h, hx, Vol.mkdirs_of_some]
      intro q hq
      rw [List.mem_singleton.mp hq, ← hnode]
      unfold World.isDir at hdir
      cases hn : w.node p with
      | none => rw [hn] at hdir; cases hdir
      | some n => rfl
    · rw [Option.ite_none_right_eq_some, Bool.and_eq_true] at h
      obtain ⟨⟨_, hnone⟩, h⟩ := h
      rw [Option.isNone_iff_eq_none, hnode] at hnone
      rw [← Option.some.inj h]
      show (if i = (w.locate p).1 then (w.vols i).map _ else _) = _
      rw [if_pos hi.symm, hx]
      refine congrArg some (funext fun q => ?_)
      show x.put _ newDir q = _
      unfold Vol.put Vol.mkdirs
      simp only [List.mem_singleton]
      by_cases hq : q = (w.locate p).2
      · rw [if_pos hq, if_pos hq, hq, hnone]
        rfl
      · rw [if_neg hq, if_neg hq]
  · have hland : landings w i [p] = [] := by simp [landings, hi]
    rw [hland, Vol.mkdirs_of_some _ (by simp)]
    unfold World.mkdir at h
    split at h
    · rw [← Option.some.inj h, hx]
    · rw [Option.ite_none_right_eq_some] at h
      rw [← Option.some.inj h.2]
      exact (if_neg (fun hi' => hi hi'.symm)).trans hx

/-- A list of steps that make directories makes them all. -/
theorem foldlM_vols {β : Type} {f : World → β → Option World} (ps : β → List Path) {i : VolId}
    (hshell : ∀ w b w', f w b = some w' → SameShell w w')
    (hf : ∀ w b w' x, f w b = some w' → w.vols i = some x →
      w'.vols i = some (x.mkdirs (landings w i (ps b)))) (bs : List β) :
    ∀ {w v : World} {x : Vol}, bs.foldlM f w = some v → w.vols i = some x →
      v.vols i = some (x.mkdirs (landings w i (bs.flatMap ps))) := by
  induction bs with
  | nil =>
      intro w v x h hx
      rw [← Option.some.inj h, hx]
      exact congrArg some (Vol.mkdirs_of_some x (by simp [landings])).symm
  | cons b bs ih =>
      intro w v x h hx
      rw [List.foldlM_cons] at h
      obtain ⟨u, hu, hrest⟩ := Option.bind_eq_some_iff.mp h
      rw [ih hrest (hf w b u x hu hx), Vol.mkdirs_mkdirs]
      have hland : landings u i (bs.flatMap ps) = landings w i (bs.flatMap ps) := by
        unfold landings World.locate
        rw [(hshell w b u hu).mounts]
      rw [hland, List.flatMap_cons]
      unfold landings
      rw [List.filterMap_append]

theorem Did.mkdirP_vols {routes : List (List Str)} (hd : Did (.mkdirP routes) w v) {i : VolId}
    {x : Vol} (hx : w.vols i = some x) :
    v.vols i = some (x.mkdirs (landings w i (wayPoints routes))) := by
  obtain ⟨d, h0, rfl⟩ := hd.run
  have hp := perform_of_status rfl h0
  simp only [perform, Option.map_eq_some_iff, Prod.mk.injEq] at hp
  obtain ⟨u, hu, _, hv⟩ := hp
  rw [← hv]
  refine foldlM_vols (fun r => r.inits.map normalize) ?_ ?_ routes hu hx
  · intro u r u' h
    exact foldlM_sameShell (fun _ _ _ h' => mkdir_sameShell h') _ u u' h
  · intro u r u' x h hx
    have hroute := foldlM_vols (fun p => [p]) (fun _ _ _ h' => mkdir_sameShell h')
      (fun _ _ _ _ h' hx' => mkdir_vols h' hx') _ h hx
    rwa [List.flatMap_singleton'] at hroute

/-- `mkdir -p` with both file systems in reach. -/
theorem Holds.mkdirP (h : Holds name D w) {routes : List (List Str)}
    (hd : Did (.mkdirP routes) w v) :
    Holds name ⟨D.esp.mkdirs (landings w (espVol name) (wayPoints routes)),
      D.root.mkdirs (landings w (rootVol name) (wayPoints routes))⟩ v :=
  ⟨Did.mkdirP_vols hd h.esp, Did.mkdirP_vols hd h.root⟩

/-! ### Commands that change no volume -/

/-- The commands that change no volume. -/
def Inert : Act → Prop
  | .say _ | .readLine _ | .isFile _ | .isDir _ | .isBlock _ | .sleep | .mount _ _ _ _ | .umount _
  | .setTrap _ | .readPU _ | .getpass _ _ | .cryptpw _ | .openIn _ | .close | .sync => True
  | _ => False

theorem exec_inert (d : Decision) {a : Act} (ha : Inert a) (w : World) :
    (exec d a w).2.vols = w.vols := by
  have hformat : formats a = false := by cases a <;> first | exact ha.elim | rfl
  have hreplaces : replaces a = [] := by cases a <;> first | exact ha.elim | rfl
  have hmarks : marks a = [] := by cases a <;> first | exact ha.elim | rfl
  cases exec_effect d hformat w with
  | idle h => exact h
  | made _ heq | copied _ _ heq | given _ heq | moved _ _ _ heq =>
      rw [heq] at ha
      exact ha.elim
  | marked p _ _ hp => exact absurd (hmarks ▸ hp) List.not_mem_nil
  | stored p _ hp => exact absurd (hreplaces ▸ hp) List.not_mem_nil

theorem Asks.inert {a : Act} (h : Asks a) : Inert a := by
  cases a <;> first | exact h.elim | trivial

end Holds

/-! ## The mounted target -/

/-- The target is mounted and holds `D`; every other path leads to what it led
to in `w₀`, or to a directory that has been made since. -/
structure Filled (name : DevName) (rest : List (Mount VolId)) (w₀ : World) (D : Disk)
    (w : World) : Prop where
  mounted : Mounted name rest w
  holds : Holds name D w
  beside : ∀ p, ¬ mntRoot <+: p → Sprouts (w₀.node p) (w.node p)
  layout : w.layout = w₀.layout
  disks : w.disks = w₀.disks

section Filled

variable {name : DevName} {rest : List (Mount VolId)} {w₀ w v : World} {D D' : Disk} {α : Type}

/-- A path that does not lead to the target. -/
theorem locate_beside (h : Mounted name rest w) {p : Path} (hp : ¬ mntRoot <+: p) :
    (w.locate p).1 ≠ espVol name ∧ (w.locate p).1 ≠ rootVol name := by
  constructor
  · intro hloc
    have hpath := Full.esp_path h espVol_ne_rootVol espVol_ne_live
      (Prod.ext hloc rfl : w.locate p = (espVol name, (w.locate p).2))
    exact hp (hpath ▸ (List.prefix_append mntRoot ["boot".toList, "efi".toList]).trans
      (List.prefix_append _ _))
  · intro hloc
    have hpath := Full.root_path h espVol_ne_rootVol rootVol_ne_live
      (Prod.ext hloc rfl : w.locate p = (rootVol name, (w.locate p).2))
    exact hp (hpath ▸ List.prefix_append _ _)

/-- A path below `/mnt/root` leads to the target. -/
theorem locate_below (h : Mounted name rest w) {p : Path} (hp : mntRoot <+: p) :
    (w.locate p).1 = espVol name ∨ (w.locate p).1 = rootVol name := by
  by_cases hesp : esp <+: p
  · obtain ⟨q, rfl⟩ := hesp
    exact Or.inl (by rw [Full.locate_esp h])
  · obtain ⟨q, rfl⟩ := hp
    exact Or.inr (by rw [Full.locate_root h hesp])

theorem partitions_of_formats {a : Act} (h : formats a = false) : a.partitions = false := by
  cases a <;> first | rfl | cases h

/-- **A command that writes to the target** leaves everything else. -/
theorem Filled.exec (h : Filled name rest w₀ D w) (d : Decision) {a : Act}
    (ha : Confined True a) (hv : Holds name D' (exec d a w).2) :
    Filled name rest w₀ D' (exec d a w).2 := by
  refine ⟨Full.of_mounts h.mounted ((exec_frame d a w).mounts ha.mount), hv, fun p hp => ?_,
    ((exec_frame d a w).layout (partitions_of_formats ha.format)).trans h.layout,
    (exec_frame d a w).disks.trans h.disks⟩
  refine (h.beside p hp).trans ?_
  obtain ⟨hesp, hroot⟩ := locate_beside h.mounted hp
  have hother : ∀ q, mntRoot <+: q → (w.locate q).1 ≠ (w.locate p).1 := by
    intro q hq heq
    rcases locate_below h.mounted hq with hi | hi
    · exact hesp (heq.symm.trans hi)
    · exact hroot (heq.symm.trans hi)
  rw [node_eq, node_eq, locate_exec d ha.mount]
  cases exec_nodeAt d ha.format w (w.locate p).1 (w.locate p).2 with
  | same hs => exact Or.inl hs
  | made _ _ hs => exact hs
  | altered q hq hvol => exact absurd hvol (hother q (ha.paths q hq))
  | given uid gid route hact hloc _ =>
      exact absurd (congrArg Prod.fst hloc) (hother _ (ha.given uid gid route hact trivial))

theorem Filled.did (h : Filled name rest w₀ D w) {a : Act} (hd : Did a w v)
    (ha : Confined True a) (hv : Holds name D' v) : Filled name rest w₀ D' v := by
  obtain ⟨d, _, rfl⟩ := hd.run
  exact h.exec d ha hv

theorem Filled.inert (h : Filled name rest w₀ D w) {a : Act} (hd : Did a w v) (ha : Inert a)
    (hc : Confined True a) : Filled name rest w₀ D v := by
  obtain ⟨d, _, rfl⟩ := hd.run
  exact h.exec d hc (h.holds.of_vols (exec_inert d ha w))

/-- A part of the script that changes no volume. -/
theorem leads_inert {p : Prog Act α} (hp : Acts Tested (fun a => Inert a ∧ Confined True a) p)
    (hw : Filled name rest w₀ D w) : Leads False p (fun _ => Filled name rest w₀ D) w :=
  Course.leads_invariant
    (fun _ d v ha hv => hv.exec d ha.2 (hv.holds.of_vols (exec_inert d ha.1 v))) hp hw

/-! ### Where directories are made -/

/-- The part of a list of paths that lies on the new root. -/
def rootPart (ps : List Path) : List Path :=
  ps.filterMap (fun p =>
    if mntRoot.isPrefixOf p && !esp.isPrefixOf p then some (p.drop 2) else none)

/-- The part of a list of paths that lies on the ESP. -/
def espPart (ps : List Path) : List Path :=
  ps.filterMap (fun p => if esp.isPrefixOf p then some (p.drop 4) else none)

theorem landings_root (h : Mounted name rest w) (ps : List Path) :
    landings w (rootVol name) ps = rootPart ps := by
  refine List.filterMap_congr (fun p _ => ?_)
  by_cases hesp : esp <+: p
  · obtain ⟨q, rfl⟩ := hesp
    rw [Full.locate_esp h, if_neg espVol_ne_rootVol]
    simp
  · by_cases hroot : mntRoot <+: p
    · obtain ⟨q, rfl⟩ := hroot
      have hout : esp.isPrefixOf (mntRoot ++ q) = false := by
        rw [← Bool.not_eq_true, List.isPrefixOf_iff_prefix]
        exact hesp
      rw [Full.locate_root h hesp, if_pos rfl, hout, if_pos (by simp)]
      rfl
    · rw [if_neg (locate_beside h hroot).2]
      simp [hroot]

theorem landings_esp (h : Mounted name rest w) (ps : List Path) :
    landings w (espVol name) ps = espPart ps := by
  refine List.filterMap_congr (fun p _ => ?_)
  by_cases hesp : esp <+: p
  · obtain ⟨q, rfl⟩ := hesp
    rw [Full.locate_esp h, if_pos rfl]
    simp [esp]
  · have hne : (w.locate p).1 ≠ espVol name := by
      by_cases hroot : mntRoot <+: p
      · obtain ⟨q, rfl⟩ := hroot
        rw [Full.locate_root h hesp]
        exact espVol_ne_rootVol.symm
      · exact (locate_beside h hroot).1
    rw [if_neg hne]
    simp [hesp]

theorem Filled.mkdirP (h : Filled name rest w₀ D w) {routes : List (List Str)}
    (hd : Did (.mkdirP routes) w v) :
    Filled name rest w₀ ⟨D.esp.mkdirs (espPart (wayPoints routes)),
      D.root.mkdirs (rootPart (wayPoints routes))⟩ v := by
  have hholds := h.holds.mkdirP hd
  rw [landings_esp h.mounted, landings_root h.mounted] at hholds
  exact h.did hd ⟨rfl, rfl, by simp [alters], by simp⟩ hholds

/-! ## The image -/

/-- The new root with the ESP's mount point. -/
def skeleton : Vol := Fs.ext4.fresh.mkdirP ["boot".toList, "efi".toList]

/-- `/bin/doas`. -/
def doasFile : Path := ["bin".toList, "doas".toList]

/-- `/.slinux-installed`. -/
def markerFile : Path := [".slinux-installed".toList]

/-- The copied directories, owned by root. -/
def copied (dirs : List Str) (tree : Path → Option Node) (v : Vol) : Vol :=
  ((v.overlay dirs tree).mapAll (Node.chown 0 0)).adjust doasFile
    (Node.chmod (fun m => m ||| 0o4000))

/-- `SRCDIRS`. -/
def present (tree : Path → Option Node) : List Str :=
  sourceDirs.filter (fun d => (tree [d]).any (fun n => n.kind == .dir))

/-- Lines 108 to 125. -/
def populate (dirs : List Str) (tree : Path → Option Node) (v : Vol) : Vol :=
  let made := (["tmp".toList, "mnt".toList, "dev".toList, "proc".toList, "sys".toList]).foldl
    (fun v d => v.mkdirP [d]) (copied dirs tree v)
  (made.adjust ["tmp".toList] (Node.chmod (fun _ => 0o1777))).touch markerFile

/-- Lines 165 to 170. -/
def rewritePasswd (user : Str) (v : Vol) : Vol :=
  (v.store (etcFile "passwd.new".toList) (passwdFile user)).rename
    (etcFile "passwd.new".toList) (etcFile "passwd".toList)

/-- Lines 172 to 177. -/
def rewriteShadow (a : Accounts) (v : Vol) : Vol :=
  (v.store (etcFile "shadow".toList) (shadowFile a.user a.rhash a.uhash)).adjust
    (etcFile "shadow".toList) (Node.chmod (fun _ => 0o600))

/-- Lines 179 to 193. -/
def rewriteGroup (user : Str) (v : Vol) : Vol :=
  (v.store (etcFile "group.new".toList)
    (groupFile user (v.text (etcFile "group".toList)))).rename
    (etcFile "group.new".toList) (etcFile "group".toList)

/-- Lines 162 to 193. -/
def rewriteAccounts (a : Accounts) (v : Vol) : Vol :=
  rewriteGroup a.user (rewriteShadow a (rewritePasswd a.user v))

/-- Lines 195 and 196. -/
def makeHome (user : Str) (v : Vol) : Vol :=
  (v.mkdirP ["home".toList, user]).adjust ["home".toList, user] (Node.chown 1000 100)

/-- The new root. -/
def newRoot (tree : Path → Option Node) (a : Accounts) : Vol :=
  makeHome a.user (rewriteAccounts a (populate (present tree) tree skeleton))

/-- The new ESP with the files of lines 130 and 131. -/
def bootEsp (kernel loader : Str) : Vol :=
  ((Vol.fresh.mkdirP ["EFI".toList, "BOOT".toList]).store kernelFile kernel).store loaderFile loader

/-- The rescue initramfs and its entry. -/
def rescued (initrd : Option Str) (v : Vol) : Vol :=
  match initrd with
  | none => v
  | some text => (v.store initrdFile text).append confFile rescueEntry

/-- The new ESP. -/
def newEsp (kernel loader pu : Str) (initrd : Option Str) : Vol :=
  rescued initrd ((bootEsp kernel loader).store confFile (normalHead ++ cmdlineEntry pu))

/-! ## The script as edits -/

theorem locate_conf (h : Mounted name rest w) : w.locate limineConfPath = (espVol name, confFile) :=
  Full.locate_esp h confFile

theorem locate_etcFile (h : Mounted name rest w) (file : Str) :
    w.locate (etc file) = (Side.root.vol name, etcFile file) :=
  Full.locate_etc h file

/-- What is read beside the target is what was there at the beginning. -/
theorem Filled.source (h : Filled name rest w₀ D w) {p : Path} (hp : ¬ mntRoot <+: p)
    (hfile : w.isFile p = true) : w.text p = w₀.text p := by
  rcases h.beside p hp with hsame | ⟨_, hdir⟩
  · rw [World.text, World.text, hsame]
  · rw [World.isFile, hdir] at hfile
    cases hfile

theorem Did.cp_isFile {src dst : Path} (hd : Did (.cp src dst) w v) : w.isFile src = true := by
  obtain ⟨d, h0, rfl⟩ := hd.run
  have hp := perform_of_status rfl h0
  simp only [perform, Option.ite_none_right_eq_some, Bool.and_eq_true] at hp
  exact hp.1.1

/-- A file is copied from beside the target. -/
theorem Filled.cp (h : Filled name rest w₀ D w) {src p q : Path} {s : Side}
    (hd : Did (.cp src p) w v) (hsrc : ¬ mntRoot <+: src) (hp : mntRoot <+: p)
    (hloc : w.locate p = (s.vol name, q)) :
    Filled name rest w₀ (D.on s (fun x => x.store q (w₀.text src))) v := by
  have hholds := h.holds.cp hd hloc
  rw [h.source hsrc (Did.cp_isFile hd)] at hholds
  refine h.did hd ⟨rfl, rfl, ?_, by simp⟩ hholds
  intro r hr
  rw [List.mem_singleton.mp hr]
  exact hp

/-- A file of the target is written. -/
theorem Filled.write (h : Filled name rest w₀ D w) {append : Bool} {p q : Path} {s : Side}
    {t : Str} (hd : Did (.write append p t) w v) (hp : mntRoot <+: p)
    (hloc : w.locate p = (s.vol name, q)) :
    Filled name rest w₀ (D.on s (fun x => if append then x.append q t else x.store q t)) v := by
  refine h.did hd ⟨rfl, rfl, ?_, by simp⟩ (h.holds.write hd hloc)
  intro r hr
  rw [List.mem_singleton.mp hr]
  exact hp

/-! ### Mounting the target -/

/-- Making directories grows nodes only. -/
theorem Did.sprouts {routes : List (List Str)} (hd : Did (.mkdirP routes) w v) (i : VolId)
    (q : Path) : Sprouts (nodeAt w i q) (nodeAt v i q) := by
  obtain ⟨d, _, rfl⟩ := hd.run
  exact ((Intact.refl True i w).idle d rfl rfl (by simp)).nodes trivial q

theorem locate_mount (w : World) {point p : Path} (h : ¬ point <+: p) (i : VolId) :
    World.locate { w with mounts := ⟨point, i⟩ :: w.mounts } p = w.locate p := by
  unfold World.locate resolve
  rw [List.find?_cons_of_neg (by simpa using h)]

/-- On a target that is not mounted no directories are made. -/
theorem landings_unused (h : Unused name w) {i : VolId} (hi : OnDisk name i) (ps : List Path) :
    landings w i ps = [] := by
  refine List.filterMap_eq_nil_iff.mpr (fun p _ => if_neg ?_)
  rintro rfl
  exact h.locate p hi

/-- The new root alone is mounted. -/
theorem landings_first {ms : List (Mount VolId)} (hm : w.mounts = ⟨mntRoot, rootVol name⟩ :: ms)
    (hapart : Apart (espVol name) (rootVol name) ms) (ps : List Path) :
    landings w (espVol name) ps = [] ∧
      landings w (rootVol name) ps
        = ps.filterMap (fun p => if mntRoot.isPrefixOf p then some (p.drop 2) else none) := by
  have hbelow : ∀ q, w.locate (mntRoot ++ q) = (rootVol name, q) := by
    intro q
    unfold World.locate resolve
    rw [hm, List.find?_cons_of_pos (by simp)]
    simp
  have hother : ∀ p, ¬ mntRoot <+: p →
      (w.locate p).1 ≠ espVol name ∧ (w.locate p).1 ≠ rootVol name := by
    intro p hp
    rcases locate_vol w p with hlive | ⟨m, hmem, hvol, hpath⟩
    · rw [hlive]
      exact ⟨espVol_ne_live.symm, rootVol_ne_live.symm⟩
    · rw [hm] at hmem
      rcases List.mem_cons.mp hmem with rfl | hmem
      · exact absurd ⟨_, hpath.symm⟩ hp
      · rw [← hvol]
        exact hapart m hmem
  constructor
  · refine List.filterMap_eq_nil_iff.mpr (fun p _ => if_neg ?_)
    by_cases hp : mntRoot <+: p
    · obtain ⟨q, rfl⟩ := hp
      rw [hbelow]
      exact espVol_ne_rootVol.symm
    · exact (hother p hp).1
  · refine List.filterMap_congr (fun p _ => ?_)
    by_cases hp : mntRoot <+: p
    · obtain ⟨q, rfl⟩ := hp
      rw [hbelow, if_pos rfl, if_pos (by simp)]
      rfl
    · rw [if_neg (hother p hp).2]
      simp [hp]

/-- **Lines 101 to 106.** -/
theorem mountTarget_image (hnames : NamesAgree name.text)
    (hesp : w.vols (espVol name) = some Fs.vfat.fresh)
    (hroot : w.vols (rootVol name) = some Fs.ext4.fresh) (hunused : Unused name w) :
    Leads False (mountTarget (devPath name.text))
      (fun _ => Filled name w.mounts w ⟨Vol.fresh, skeleton⟩) w := by
  have hespVol := espVol_eq hnames
  have hrootVol := rootVol_eq hnames
  have hapart := hunused.apart
  refine leads_cmd (fun hs => hs.elim) (fun v₁ h₁ => ?_)
  have hm₁ : v₁.mounts = w.mounts := h₁.frame.mounts rfl
  have he₁ : v₁.vols (espVol name) = some Vol.fresh := by
    rw [Did.mkdirP_vols h₁ hesp, landings_unused hunused (onDisk_esp name),
      Vol.mkdirs_of_some _ (by simp [Fs.fresh])]
    rfl
  have hr₁ : v₁.vols (rootVol name) = some Fs.ext4.fresh := by
    rw [Did.mkdirP_vols h₁ hroot, landings_unused hunused (onDisk_root name),
      Vol.mkdirs_of_some _ (by simp [Fs.fresh])]
  refine leads_cmd (fun hs => hs.elim) (fun v₂ h₂ => ?_)
  obtain rfl := Did.mount h₂
  rw [hrootVol]
  refine leads_cmd (fun hs => hs.elim) (fun v₃ h₃ => ?_)
  obtain rfl : v₃ = { v₁ with
      mounts := ⟨mntRoot, rootVol name⟩ :: v₁.mounts, trap := some [esp, mntRoot, bm] } := by
    obtain ⟨d, _, rfl⟩ := h₃.run
    rw [exec_setTrap]
  refine leads_cmd (fun hs => hs.elim) (fun v₄ h₄ => ?_)
  have hm₄ : v₄.mounts = ⟨mntRoot, rootVol name⟩ :: w.mounts := by
    rw [h₄.frame.mounts rfl, ← hm₁]
  obtain ⟨hland, hland'⟩ := landings_first (w := { v₁ with
    mounts := ⟨mntRoot, rootVol name⟩ :: v₁.mounts, trap := some [esp, mntRoot, bm] }) rfl
    (hm₁ ▸ hapart) (wayPoints [esp])
  have hways : (wayPoints [esp]).filterMap
      (fun p => if mntRoot.isPrefixOf p then some (p.drop 2) else none)
        = List.inits ["boot".toList, "efi".toList] := by decide
  have he₄ : v₄.vols (espVol name) = some Vol.fresh := by
    rw [Did.mkdirP_vols h₄ he₁, hland, Vol.mkdirs_of_some _ (by simp)]
  have hr₄ : v₄.vols (rootVol name) = some skeleton := by
    rw [Did.mkdirP_vols h₄ hr₁, hland', hways]
    rfl
  refine leads_last (fun hs => hs.elim) (fun v₅ h₅ => ?_)
  obtain rfl := Did.mount h₅
  rw [hespVol]
  refine ⟨⟨by rw [hm₄], hapart⟩, ⟨he₄, hr₄⟩, fun p hp => ?_,
    (h₄.frame.layout rfl).trans (h₁.frame.layout rfl), h₄.frame.disks.trans h₁.frame.disks⟩
  have hp' : ¬ esp <+: p := fun h => hp ((List.prefix_append mntRoot
    ["boot".toList, "efi".toList]).trans h)
  have hloc₄ : v₄.locate p = w.locate p := by
    have hcons : v₄.mounts = (⟨mntRoot, rootVol name⟩ : Mount VolId) :: w.mounts := hm₄
    have hmount := locate_mount w hp (rootVol name)
    unfold World.locate at hmount ⊢
    rw [hcons]
    exact hmount
  have hlast : World.node { v₄ with mounts := ⟨esp, espVol name⟩ :: v₄.mounts } p
      = nodeAt v₄ (w.locate p).1 (w.locate p).2 := by
    rw [node_eq, locate_mount v₄ hp', hloc₄]
    rfl
  rw [hlast, node_eq]
  exact (Did.sprouts h₁ _ _).trans (Did.sprouts h₄ (w.locate p).1 (w.locate p).2)

/-! ### Filling the target -/

/-- The copies, one directory after the other. -/
theorem forEach_cpA_image (tree : Path → Option Node) (ds : List Str) :
    ∀ {D : Disk} {w : World}, Filled name rest w₀ D w → (∀ d ∈ ds, d ∈ sourceDirs) →
      (∀ d ∈ ds, ∀ q, w.node (d :: q) = tree (d :: q)) →
      Leads False (forEach (fun d => cmd (.cpA d mntRoot)) ds)
        (fun _ => Filled name rest w₀ { D with root := D.root.overlay ds tree }) w := by
  induction ds with
  | nil =>
      intro D w hw _ _
      show Filled name rest w₀ { D with root := D.root.overlay [] tree } w
      rw [Vol.overlay_nil]
      exact hw
  | cons d ds ih =>
      intro D w hw hds htree
      refine leads_cmd (fun hs => hs.elim) (fun v hd => ?_)
      have hloc : w.locate (mntRoot ++ [d]) = (Side.root.vol name, [d]) := by
        exact Full.locate_top hw.mounted d
      have hv := hw.did hd ⟨rfl, rfl, ?_, by simp⟩ (hw.holds.cpA hd hloc)
      · have hbelow : ∀ d' ∈ ds, ∀ q, v.node (d' :: q) = tree (d' :: q) := by
          intro d' hd' q
          rw [← htree d' (List.mem_cons_of_mem _ hd') q]
          have hbeside : ¬ mntRoot <+: d' :: q := by
            rintro ⟨r, hr⟩
            have hmnt : d' = "mnt".toList := (List.cons.inj hr).1.symm
            exact absurd (hds d' (List.mem_cons_of_mem _ hd')) (by rw [hmnt]; decide)
          have hcopy : v = w.copyTree d mntRoot := by
            obtain ⟨dec, h0, rfl⟩ := hd.run
            have hp := perform_of_status rfl h0
            simp only [perform, Option.ite_none_right_eq_some, Option.some.injEq,
              Prod.mk.injEq] at hp
            exact hp.2.2.symm
          rw [node_eq, node_eq, hcopy]
          show nodeAt (w.copyTree d mntRoot) (w.locate (d' :: q)).1 (w.locate (d' :: q)).2 = _
          apply nodeAt_copyTree_other
          rintro ⟨hvol, _⟩
          rw [hloc] at hvol
          exact (locate_beside hw.mounted hbeside).2 hvol
        have hfirst : D.root.overlay [d] w.node = D.root.overlay [d] tree := by
          funext r
          cases r with
          | nil => rfl
          | cons e r =>
              by_cases he : e ∈ [d]
              · rw [List.mem_singleton.mp he]
                simp only [Vol.overlay, htree d (List.mem_cons_self ..)]
              · simp only [Vol.overlay, if_neg he]
        have hnext := ih hv (fun d' hd' => hds d' (List.mem_cons_of_mem _ hd')) hbelow
        refine hnext.mono (fun _ u hu => ?_)
        rw [← Vol.overlay_cons, ← hfirst]
        exact hu
      · intro p hp
        rw [List.mem_singleton.mp hp]
        exact List.prefix_append _ _

/-- The directories of line 123, one `mkdir -p` at a time. -/
theorem mkdirs_topRoutes (v : Vol) :
    v.mkdirs (rootPart (wayPoints topRoutes))
      = ["tmp".toList, "mnt".toList, "dev".toList, "proc".toList, "sys".toList].foldl
          (fun v d => v.mkdirP [d]) v := by
  simp only [List.foldl_cons, List.foldl_nil, Vol.mkdirP, Vol.mkdirs_mkdirs]
  exact congrArg v.mkdirs (by decide)

/-- **Lines 108 to 125.** -/
theorem copySystem_image (hw : Filled name rest w₀ D w) :
    Leads False copySystem (fun _ => Filled name rest w₀
      { D with root := populate (present w.node) w.node D.root }) w := by
  refine leads_cmd (fun hs => hs.elim) (fun v₁ h₁ => ?_)
  have hw₁ := hw.inert h₁ trivial ⟨rfl, rfl, by simp [alters], by simp⟩
  obtain rfl := Did.say h₁
  apply leads_bind
  refine wp_mono ?_ (fun _ _ hx => hx.elim)
    (Copies.presentDirs_filter Cooperates.quiet _ sourceDirs)
  rintro _ _ ⟨rfl, rfl⟩
  have hdirs : sourceDirs.filter (fun d => World.isDir
      { w with out := "copying system".toList :: w.out } [d]) = present w.node := by
    refine List.filter_congr (fun d _ => ?_)
    show w.isDir [d] = _
    unfold World.isDir
    cases w.node [d] <;> rfl
  rw [hdirs]
  apply leads_bind
  refine (forEach_cpA_image w.node _ hw₁ (fun d hd => (List.mem_filter.mp hd).1)
    (fun _ _ _ => rfl)).mono ?_
  intro _ v₂ hw₂
  have htop : ∀ {u : World}, Mounted name rest u → ∀ d,
      u.locate (mntRoot ++ [d]) = (Side.root.vol name, [d]) :=
    fun hu d => Full.locate_top hu d
  refine leads_cmd (fun hs => hs.elim) (fun v₃ h₃ => ?_)
  have hroot : v₂.locate mntRoot = (Side.root.vol name, []) :=
    Full.locate_root hw₂.mounted (q := []) (by decide)
  have hw₃ := hw₂.did h₃ ⟨rfl, rfl, by decide, by simp⟩ (hw₂.holds.chownR h₃ hroot)
  refine leads_cmd (fun hs => hs.elim) (fun v₄ h₄ => ?_)
  have hdoas : v₃.locate (mntRoot ++ ["bin".toList, "doas".toList])
      = (Side.root.vol name, doasFile) :=
    Full.locate_root hw₃.mounted (q := doasFile) (by decide)
  have hw₄ := hw₃.did h₄ ⟨rfl, rfl, by decide, by simp⟩ (hw₃.holds.chmodSetuid h₄ hdoas)
  refine leads_cmd (fun hs => hs.elim) (fun v₅ h₅ => ?_)
  have hw₅ := hw₄.mkdirP h₅
  refine leads_cmd (fun hs => hs.elim) (fun v₆ h₆ => ?_)
  have hw₆ := hw₅.did h₆ ⟨rfl, rfl, by decide, by simp⟩
    (hw₅.holds.chmod h₆ (htop hw₅.mounted _))
  refine leads_last (fun hs => hs.elim) (fun v₇ h₇ => ?_)
  have hw₇ := hw₆.did h₇ ⟨rfl, rfl, by decide, by simp⟩
    (hw₆.holds.touch h₇ (htop hw₆.mounted _))
  have hesp : espPart (wayPoints topRoutes) = [] := by decide
  change Filled name rest w₀ ⟨D.esp.mkdirs (espPart (wayPoints topRoutes)),
    (((copied _ w.node D.root).mkdirs (rootPart (wayPoints topRoutes))).adjust ["tmp".toList]
      (Node.chmod (fun _ => 0o1777))).touch markerFile⟩ v₇ at hw₇
  rw [hesp, Vol.mkdirs_of_some D.esp (by simp), mkdirs_topRoutes] at hw₇
  exact hw₇

/-- Directories that are there when the boot files are copied. -/
theorem mkdirs_boot {v : Vol} (hroot : (v []).isSome = true)
    (hboot : (v ["boot".toList]).isSome = true) :
    v.mkdirs (rootPart (wayPoints [espBoot])) = v := by
  apply Vol.mkdirs_of_some
  have hparts : rootPart (wayPoints [espBoot]) = [[], ["boot".toList]] := by decide
  rw [hparts]
  intro q hq
  rcases List.mem_cons.mp hq with rfl | hq
  · exact hroot
  · rw [List.mem_singleton.mp hq]
    exact hboot

theorem esp_below (q : Path) : mntRoot <+: esp ++ q :=
  (List.prefix_append mntRoot ["boot".toList, "efi".toList]).trans (List.prefix_append _ _)

/-- **Lines 127 to 134.** -/
theorem copyBootFiles_image (hw : Filled name rest w₀ D w) (disk : Str) {f : Found}
    (hkernel : ¬ mntRoot <+: f.kernel) (hesp : D.esp = Vol.fresh)
    (hroot : (D.root []).isSome = true) (hboot : (D.root ["boot".toList]).isSome = true) :
    Leads False (copyBootFiles disk f) (fun _ => Filled name rest w₀
      { D with esp := bootEsp (w₀.text f.kernel) (w₀.text limineEfi) }) w := by
  refine leads_cmd (fun hs => hs.elim) (fun v₁ h₁ => ?_)
  have hw₁ := hw.inert h₁ trivial ⟨rfl, rfl, by simp [alters], by simp⟩
  refine leads_cmd (fun hs => hs.elim) (fun v₂ h₂ => ?_)
  have hw₂ := hw₁.mkdirP h₂
  have hparts : espPart (wayPoints [espBoot]) = List.inits ["EFI".toList, "BOOT".toList] := by
    decide
  rw [mkdirs_boot hroot hboot, hparts, hesp] at hw₂
  refine leads_cmd (fun hs => hs.elim) (fun v₃ h₃ => ?_)
  have hk₂ : v₂.locate (esp ++ kernelFile) = (Side.esp.vol name, kernelFile) :=
    Full.locate_esp hw₂.mounted kernelFile
  have hw₃ := hw₂.cp h₃ hkernel (esp_below kernelFile) hk₂
  refine leads_cmd (fun hs => hs.elim) (fun v₄ h₄ => ?_)
  have hl₃ : v₃.locate (esp ++ loaderFile) = (Side.esp.vol name, loaderFile) :=
    Full.locate_esp hw₃.mounted loaderFile
  have hw₄ := hw₃.cp h₄ (by decide) (esp_below loaderFile) hl₃
  have hinert : Acts Tested (fun a => Inert a ∧ Confined True a) (do
      let pu ← capture (.readPU disk)
      if pu = [] then do
        cmd (.say ("slinux-install: cannot read PARTUUID of ".toList ++ partP disk 2))
        .exit 1
      else pure pu) := by
    refine acts_bind (acts_capture ⟨trivial, rfl, rfl, by simp [alters], by simp⟩) (fun pu => ?_)
    by_cases hpu : pu = []
    · rw [if_pos hpu]
      exact acts_bind (acts_cmd ⟨trivial, rfl, rfl, by simp [alters], by simp⟩)
        (fun _ => Nat.one_ne_zero)
    · rw [if_neg hpu]
      trivial
  exact leads_inert hinert hw₄

theorem conf_below : mntRoot <+: limineConfPath := esp_below confFile

/-- **Lines 136 to 139.** -/
theorem writeNormal_image (hw : Filled name rest w₀ D w) (pu : Str) :
    Leads False (writeNormal pu) (fun _ => Filled name rest w₀
      { D with esp := D.esp.store confFile (normalHead ++ cmdlineEntry pu) }) w := by
  refine leads_cmd (fun hs => hs.elim) (fun v₁ h₁ => ?_)
  have hw₁ := hw.did h₁ ⟨rfl, rfl, by decide, by simp⟩
    (hw.holds.openOut (s := .esp) h₁ (locate_conf hw.mounted))
  refine leads_cmd (fun hs => hs.elim) (fun v₂ h₂ => ?_)
  have hw₂ := hw₁.write (s := .esp) h₂ conf_below (locate_conf hw₁.mounted)
  refine leads_cmd (fun hs => hs.elim) (fun v₃ h₃ => ?_)
  have hw₃ := hw₂.write (s := .esp) h₃ conf_below (locate_conf hw₂.mounted)
  refine leads_last (fun hs => hs.elim) (fun v₄ h₄ => ?_)
  have hw₄ := hw₃.write (s := .esp) h₄ conf_below (locate_conf hw₃.mounted)
  simp only [Disk.on, if_true, Vol.append_store, List.nil_append] at hw₄
  exact hw₄

/-- **Lines 140 to 145.** -/
theorem writeRescueIf_image (hw : Filled name rest w₀ D w) {initrd : Option Path}
    (hinitrd : ∀ p ∈ initrd, ¬ mntRoot <+: p) :
    Leads False (writeRescueIf initrd) (fun _ => Filled name rest w₀
      { D with esp := rescued (initrd.map w₀.text) D.esp }) w := by
  cases initrd with
  | none => exact hw
  | some p =>
      refine leads_cmd (fun hs => hs.elim) (fun v₁ h₁ => ?_)
      have hi : w.locate (esp ++ initrdFile) = (Side.esp.vol name, initrdFile) :=
        Full.locate_esp hw.mounted initrdFile
      have hw₁ := hw.cp h₁ (hinitrd p rfl) (esp_below initrdFile) hi
      refine leads_cmd (fun hs => hs.elim) (fun v₂ h₂ => ?_)
      have hw₂ := hw₁.write (s := .esp) h₂ conf_below (locate_conf hw₁.mounted)
      refine leads_cmd (fun hs => hs.elim) (fun v₃ h₃ => ?_)
      have hw₃ := hw₂.write (s := .esp) h₃ conf_below (locate_conf hw₂.mounted)
      refine leads_last (fun hs => hs.elim) (fun v₄ h₄ => ?_)
      have hw₄ := hw₃.write (s := .esp) h₄ conf_below (locate_conf hw₃.mounted)
      simp only [Disk.on, if_true, Vol.append_append] at hw₄
      exact hw₄

/-- **Lines 165 to 170.** -/
theorem writePasswd_image (hw : Filled name rest w₀ D w) (user : Str) :
    Leads False (writePasswd user) (fun _ => Filled name rest w₀
      { D with root := rewritePasswd user D.root }) w := by
  refine leads_cmd (fun hs => hs.elim) (fun v₁ h₁ => ?_)
  have hw₁ := hw.write h₁ (etc_below _) (locate_etcFile hw.mounted _)
  refine leads_cmd (fun hs => hs.elim) (fun v₂ h₂ => ?_)
  have hw₂ := hw₁.write h₂ (etc_below _) (locate_etcFile hw₁.mounted _)
  refine leads_cmd (fun hs => hs.elim) (fun v₃ h₃ => ?_)
  have hw₃ := hw₂.write h₃ (etc_below _) (locate_etcFile hw₂.mounted _)
  refine leads_last (fun hs => hs.elim) (fun v₄ h₄ => ?_)
  have hw₄ := hw₃.did h₄ ⟨rfl, rfl, by decide, by simp⟩ (hw₃.holds.mv h₄
    (locate_etcFile hw₃.mounted _) (locate_etcFile hw₃.mounted _))
  simp only [Disk.on, if_true, Bool.false_eq_true, if_false, Vol.append_store,
    List.nil_append] at hw₄
  exact hw₄

/-- **Lines 172 to 177.** -/
theorem writeShadow_image (hw : Filled name rest w₀ D w) (a : Accounts) :
    Leads False (writeShadow a) (fun _ => Filled name rest w₀
      { D with root := rewriteShadow a D.root }) w := by
  refine leads_cmd (fun hs => hs.elim) (fun v₁ h₁ => ?_)
  have hw₁ := hw.write h₁ (etc_below _) (locate_etcFile hw.mounted _)
  refine leads_cmd (fun hs => hs.elim) (fun v₂ h₂ => ?_)
  have hw₂ := hw₁.write h₂ (etc_below _) (locate_etcFile hw₁.mounted _)
  refine leads_last (fun hs => hs.elim) (fun v₃ h₃ => ?_)
  have hw₃ := hw₂.did h₃ ⟨rfl, rfl, by decide, by simp⟩
    (hw₂.holds.chmod h₃ (locate_etcFile hw₂.mounted _))
  simp only [Disk.on, if_true, Bool.false_eq_true, if_false, Vol.append_store] at hw₃
  exact hw₃

/-- The loop of lines 183 to 191. -/
theorem forEach_append_image (g : Str → Str) (ls : List Str) :
    ∀ {D : Disk} {w : World}, Filled name rest w₀ D w →
      Leads False (forEach (fun l => cmd (.write true (etc "group.new".toList) (g l))) ls)
        (fun _ => Filled name rest w₀ { D with
          root := ls.foldl (fun v l => v.append (etcFile "group.new".toList) (g l)) D.root })
      w := by
  induction ls with
  | nil => intro D w hw; exact hw
  | cons l ls ih =>
      intro D w hw
      refine leads_cmd (fun hs => hs.elim) (fun v hd => ?_)
      exact ih (hw.write hd (etc_below _) (locate_etcFile hw.mounted _))

/-- **Lines 179 to 193.** -/
theorem writeGroup_image (hw : Filled name rest w₀ D w) (user : Str) :
    Leads False (writeGroup user) (fun _ => Filled name rest w₀
      { D with root := rewriteGroup user D.root }) w := by
  refine leads_cmd (fun hs => hs.elim) (fun v₁ h₁ => ?_)
  have hw₁ := hw.write h₁ (etc_below _) (locate_etcFile hw.mounted _)
  simp only [Disk.on, Bool.false_eq_true, if_false] at hw₁
  refine leads_capture (fun hs => hs.elim) (fun d _ h0 => ?_)
  have h₂ : Did (.openIn (etc "group".toList)) v₁
      (exec d (.openIn (etc "group".toList)) v₁).2 := ⟨d, h0, rfl⟩
  have hw₂ := hw₁.inert h₂ trivial ⟨rfl, rfl, by simp [alters], by simp⟩
  have hout : (exec d (.openIn (etc "group".toList)) v₁).1.out
      = D.root.text (etcFile "group".toList) := by
    have hp := perform_of_status rfl h0
    simp only [perform, Option.ite_none_right_eq_some, Option.some.injEq, Prod.mk.injEq] at hp
    rw [← hp.2.1, hw₁.holds.text (locate_etcFile hw₁.mounted _)]
    have hne : etcFile "group".toList ≠ etcFile "group.new".toList := by decide
    exact congrArg (fun n : Option Node => (n.bind Node.data?).getD [])
      (Vol.store_ne D.root [] hne)
  rw [hout]
  apply leads_bind
  refine (forEach_append_image (groupLine user) _ hw₂).mono (fun _ v₃ hw₃ => ?_)
  refine leads_cmd (fun hs => hs.elim) (fun v₄ h₄ => ?_)
  have hw₄ := hw₃.inert h₄ trivial ⟨rfl, rfl, by simp [alters], by simp⟩
  refine leads_last (fun hs => hs.elim) (fun v₅ h₅ => ?_)
  have hw₅ := hw₄.did h₅ ⟨rfl, rfl, by decide, by simp⟩ (hw₄.holds.mv h₅
    (locate_etcFile hw₄.mounted _) (locate_etcFile hw₄.mounted _))
  simp only [Disk.on, Vol.foldl_append, List.nil_append] at hw₅
  exact hw₅

/-- The home directory's path, component by component. -/
theorem wayPoints_home {user : Str} (haccept : acceptsUser user = true) (hslash : '/' ∉ user) :
    wayPoints [homeRoute user] = (Home.homeDir user).inits := by
  rw [wayPoints, List.flatMap_cons, List.flatMap_nil, List.append_nil, homeRoute_eq hslash]
  exact Home.inits_normalize (Home.plain_homeDir (plain_of_accepts haccept))

/-- **Lines 195 to 202.** -/
theorem finish_image (hw : Filled name rest w₀ D w) (disk pu : Str) {user : Str}
    (haccept : acceptsUser user = true) (hslash : '/' ∉ user) :
    Leads False (finish disk pu user) (fun _ v =>
      Holds name { D with root := makeHome user D.root } v ∧ v.layout = w₀.layout) w := by
  refine leads_cmd (fun hs => hs.elim) (fun v₁ h₁ => ?_)
  have hw₁ := hw.mkdirP h₁
  have hinits : (Home.homeDir user).inits = [[], ["mnt".toList], mntRoot,
      mntRoot ++ ["home".toList], mntRoot ++ ["home".toList, user]] := rfl
  have hesp : espPart (wayPoints [homeRoute user]) = [] := by
    rw [wayPoints_home haccept hslash, hinits]
    rfl
  have hroot : rootPart (wayPoints [homeRoute user]) = List.inits ["home".toList, user] := by
    rw [wayPoints_home haccept hslash, hinits]
    rfl
  rw [hesp, hroot, Vol.mkdirs_of_some D.esp (by simp)] at hw₁
  have hnorm := normalize_homeRoute haccept hslash
  have hloc : v₁.locate (normalize (homeRoute user))
      = (Side.root.vol name, ["home".toList, user]) := by
    rw [hnorm]
    refine Full.locate_root hw₁.mounted (q := ["home".toList, user]) (fun hpre => ?_)
    exact absurd ((List.cons_prefix_cons.mp ((List.prefix_append_right_inj mntRoot).mp hpre)).1)
      (by decide)
  refine leads_cmd (fun hs => hs.elim) (fun v₂ h₂ => ?_)
  have hholds : Holds name { D with root := makeHome user D.root } v₂ := hw₁.holds.chown h₂ hloc
  have hlayout : v₂.layout = w₀.layout := (h₂.frame.layout rfl).trans hw₁.layout
  have hidle : ∀ {a : Act}, Inert a → a.partitions = false →
      Acts Tested (fun a => Inert a ∧ a.partitions = false) (cmd a) :=
    fun ha hp => acts_cmd ⟨ha, hp⟩
  have hrest : Acts Tested (fun a => Inert a ∧ a.partitions = false) (do
      cmd .sync
      cmd (.umount [esp, mntRoot])
      cmd (.setTrap none)
      cmd (.umount [bm])
      cmd (.say (doneLine disk pu))) := by
    refine acts_bind (hidle trivial rfl) (fun _ => acts_bind (hidle trivial rfl) (fun _ => ?_))
    refine acts_bind (hidle trivial rfl) (fun _ => acts_bind (hidle trivial rfl) (fun _ => ?_))
    exact hidle trivial rfl
  refine Course.leads_invariant (fun a d v ha hv => ⟨hv.1.of_vols (exec_inert d ha.1 v), ?_⟩) hrest
    ⟨hholds, hlayout⟩
  exact ((exec_frame d a v).layout ha.2).trans hv.2

/-! ## Whole installations -/

/-- The disk is what an installation makes of it in the state `w`, with the
accounts `a`, the partition table `t`, and a running system of which `tree` is
the part that is copied. -/
structure Imaged (name : DevName) (f : Found) (a : Accounts) (t : Layout)
    (tree : Path → Option Node) (w v : World) : Prop where
  source : ∀ p, ¬ mntRoot <+: p → Sprouts (w.node p) (tree p)
  layout : v.layout = some t
  disk : Holds name ⟨newEsp (w.text f.kernel) (w.text limineEfi) t.root.uuid.text
    (f.initrd.map w.text), newRoot tree a⟩ v

theorem node_formatted (h : Formatted name w v) (hunused : Unused name w) (p : Path) :
    v.node p = w.node p := by
  have hloc : v.locate p = w.locate p := by
    unfold World.locate
    rw [h.mounts]
  rw [node_eq, node_eq, hloc]
  exact nodeAt_of_vols (h.others _ (inUse_locate w p) (hunused.locate p)) _

theorem populate_isSome {dirs : List Str} {tree : Path → Option Node} {x : Vol} {q : Path}
    (h : (x q).isSome = true) : (populate dirs tree x q).isSome = true := by
  have hcopied : (copied dirs tree x q).isSome = true := by
    refine Vol.adjust_isSome _ _ ?_
    rw [Vol.mapAll, Option.isSome_map]
    exact Vol.overlay_isSome x dirs tree h
  refine Vol.touch_isSome _ (Vol.adjust_isSome _ _ ?_)
  simp only [List.foldl_cons, List.foldl_nil]
  repeat refine Vol.mkdirs_isSome _ ?_
  exact hcopied

/-- **Lines 82 to 202.** -/
theorem installOn_image (hnames : NamesAgree name.text) (hdisk : name ∈ w.disks)
    (hunused : Unused name w) (espsz : Str) {f : Found} (hkernel : ¬ mntRoot <+: f.kernel)
    (hinitrd : ∀ p ∈ f.initrd, ¬ mntRoot <+: p) {as : List Str}
    (hslash : ∀ l ∈ as, acceptsUser l = true → '/' ∉ l) :
    Leads False (installOn (devPath name.text) espsz f as)
      (fun _ v => ∃ a t tree, acceptsUser a.user = true ∧ a.user ∈ as ∧
        Imaged name f a t tree w v) w := by
  apply leads_bind
  refine (makeFilesystems_leads hnames hdisk (fun hs => hs.elim) espsz).mono ?_
  intro _ v₁ hmade
  obtain ⟨t, ht⟩ := hmade.layout
  have hunused₁ : Unused name v₁ := by
    unfold Unused
    rw [hmade.mounts]
    exact hunused
  have htext : ∀ p, v₁.text p = w.text p := by
    intro p
    unfold World.text
    rw [node_formatted hmade hunused]
  apply leads_bind
  refine (mountTarget_image hnames hmade.esp hmade.root hunused₁).mono ?_
  intro _ v₂ hw₂
  have hsource : ∀ p, ¬ mntRoot <+: p → Sprouts (w.node p) (v₂.node p) := by
    intro p hp
    rw [← node_formatted hmade hunused p]
    exact hw₂.beside p hp
  apply leads_bind
  refine (copySystem_image hw₂).mono ?_
  intro _ v₃ hw₃
  have hdisk₃ : name ∈ v₃.disks := by
    rw [hw₃.disks, hmade.disks]
    exact hdisk
  apply leads_bind
  refine ((copyBootFiles_image hw₃ (devPath name.text) hkernel rfl (populate_isSome rfl)
    (populate_isSome rfl)).and (wp_mono (fun _ _ h => h.1) (fun _ _ _ => trivial)
      (copyBootFiles_leads hnames hw₃.mounted hdisk₃ (hw₃.layout.trans ht) f
        (fun hs => hs.elim)))).mono ?_
  rintro _ v₄ ⟨hw₄, rfl⟩
  apply leads_bind
  refine (writeNormal_image hw₄ t.root.uuid.text).mono ?_
  intro _ v₅ hw₅
  apply leads_bind
  refine (writeRescueIf_image hw₅ hinitrd).mono ?_
  intro _ v₆ hw₆
  refine leads_cmd (fun hs => hs.elim) (fun v₇ h₇ => ?_)
  have hw₇ := hw₆.inert h₇ trivial ⟨rfl, rfl, by simp [alters], by simp⟩
  apply leads_bind
  have hquiet : Acts Tested (fun a => Inert a ∧ Confined True a) (askAccounts as) :=
    (askAccounts_asks as).mono (fun _ ha => ⟨Asks.inert ha, Asks.confined ha⟩)
  refine ((leads_inert hquiet hw₇).and (askAccounts_values as v₇)).mono ?_
  rintro a v₈ ⟨hw₈, haccept, hmem⟩
  apply leads_bind
  refine (writePasswd_image hw₈ a.user).mono ?_
  intro _ v₉ hw₉
  rw [Status.completeAccounts_eq]
  apply leads_bind
  refine (writeShadow_image hw₉ a).mono ?_
  intro _ v₁₀ hw₁₀
  apply leads_bind
  refine (writeGroup_image hw₁₀ a.user).mono ?_
  intro _ v₁₁ hw₁₁
  refine (finish_image hw₁₁ (devPath name.text) t.root.uuid.text haccept
    (hslash a.user hmem haccept)).mono ?_
  rintro _ v ⟨hholds, hlayout⟩
  refine ⟨a, t, v₂.node, haccept, hmem, hsource, hlayout.trans ht, ?_⟩
  have hinit : f.initrd.map v₁.text = f.initrd.map w.text := by rw [funext htext]
  rw [← hinit, ← htext, ← htext]
  exact hholds

end Filled

/-! ## Whole runs -/

section Runs

variable {O : Nat → Act → Decision} {disk : Str} {rest : List Str} {sysdevs : List SysDev}
variable {answers as : List Str} {f : Found} {w v : World}

theorem leave_layout {α : Type} (O : Nat → Act → Decision) (r : Run World Act Decision α) :
    (leave machine O r).final.layout = r.final.layout := by
  simp only [leave]
  split
  · rfl
  · split
    · rfl
    · rename_i t ht
      obtain ⟨ops, _, rfl⟩ := Option.map_eq_some_iff.mp ht
      show (exec _ (.umount ops) (machine.unwind r.final)).2.layout = r.final.layout
      exact (exec_frame _ (.umount ops) _).layout rfl

/-- Lines 66 to 202, in a run that comes to its end. -/
theorem image_of_done (hw : Mounts.Start w)
    (hunused : ∀ name ∈ w.disks, devPath name.text = disk → Unused name w)
    (hslash : ∀ l ∈ answers, acceptsUser l = true → '/' ∉ l)
    (hends : Status.SearchEnds O disk sysdevs answers w f as v)
    (hdone : (Status.restOfRun O disk rest sysdevs answers w f as v).outcome = .done ()) :
    f.initrd.isSome = true ∧ ∃ name ∈ w.disks, devPath name.text = disk ∧
      NamesAgree name.text ∧ ∃ a t tree, acceptsUser a.user = true ∧ a.user ∈ answers ∧
        Imaged name f a t tree v (Status.restOfRun O disk rest sysdevs answers w f as v).final := by
  obtain ⟨hsearch, has⟩ := Course.untilTrap_done hw hends.outcome
  rw [hends.final] at hsearch
  obtain ⟨hcoop, hmedium, name, hname, rfl, hnames⟩ :=
    Course.afterSearch_done hsearch (hw.free bm (by decide)) hdone
  refine ⟨hmedium, name, hname, rfl, hnames, ?_⟩
  have hsub : ∀ l ∈ as, l ∈ answers := by
    intro l hl
    rw [has] at hl
    exact List.mem_of_mem_tail hl
  obtain ⟨hkernel, hinitrd⟩ := Status.not_below_of_origin hsearch.origin
  have hleads : Leads False (afterSearch (devPath name.text) (Status.espSize rest) f as)
      (fun _ u => ∃ a t tree, acceptsUser a.user = true ∧ a.user ∈ as ∧
        Imaged name f a t tree v u) v := by
    refine leads_cmd (fun hs => hs.elim) (fun u hu => ?_)
    obtain rfl : u = { v with trap := some [bm] } := by
      obtain ⟨d, _, rfl⟩ := hu.run
      rw [exec_setTrap]
    have hdisk : name ∈ v.disks := by
      rw [hsearch.disks]
      exact hname
    have hfree : Unused name v := hsearch.unused name rfl hnames (hunused name hname rfl)
    refine (installOn_image hnames (show name ∈ ({ v with trap := some [bm] } : World).disks from
      hdisk) hfree (Status.espSize rest) hkernel hinitrd (fun l hl => hslash l (hsub l hl))).mono ?_
    rintro _ u ⟨a, t, tree, haccept, hmem, himage⟩
    exact ⟨a, t, tree, haccept, hmem, himage.source, himage.layout, himage.disk⟩
  have hend := (go_sound O _ _ v hleads hcoop).2
  rw [show (go machine O (afterSearch (devPath name.text) (Status.espSize rest) f as) _ v).outcome
    = .done () from hdone] at hend
  obtain ⟨a, t, tree, haccept, hmem, himage⟩ := hend
  exact ⟨a, t, tree, haccept, hsub _ hmem, himage⟩

end Runs

/-- **What a successful installation leaves on the disk.**  Whatever failed or
was interrupted on the way, whatever was on the disk and wherever the running
system is mounted from, a run that exits with status zero has left the two file
systems of `newEsp` and `newRoot`, node by node, and the partition table whose
second PARTUUID is in the boot configuration. -/
theorem image_of_status (O : Nat → Act → Decision) (args : List Str) (sysdevs : List SysDev)
    (answers : List Str) (w : World) (hw : Mounts.Start w)
    (hunused : ∀ name ∈ w.disks, args.head? = some (devPath name.text) → Unused name w)
    (hslash : ∀ l ∈ answers, acceptsUser l = true → '/' ∉ l)
    (h0 : (runScript machine O (slinuxInstall args sysdevs answers) w).outcome.status = 0) :
    ∃ name ∈ w.disks, args.head? = some (devPath name.text) ∧ NamesAgree name.text ∧
      ∃ f as v, Status.SearchEnds O (devPath name.text) sysdevs answers w f as v ∧
        f.initrd.isSome = true ∧ ∃ a t tree, acceptsUser a.user = true ∧ a.user ∈ answers ∧
          Imaged name f a t tree v
            (runScript machine O (slinuxInstall args sysdevs answers) w).final := by
  cases args with
  | nil => exact absurd h0 (Status.usage_status O sysdevs answers w)
  | cons disk rest =>
      obtain ⟨f, as, v, hends, hdone⟩ := Status.search_of_status h0
      have hfree : ∀ name ∈ w.disks, devPath name.text = disk → Unused name w :=
        fun name hname hdisk => hunused name hname (congrArg some hdisk.symm)
      obtain ⟨hmedium, name, hname, rfl, hnames, a, t, tree, haccept, hmem, himage⟩ :=
        image_of_done hw hfree hslash hends hdone
      refine ⟨name, hname, rfl, hnames, f, as, v, hends, hmedium, a, t, tree, haccept, hmem,
        himage.source, ?_, himage.disk.of_vols (hends.run rest).2.1⟩
      rw [runScript, leave_layout, hends.go_eq rest]
      exact himage.layout

end Slinux.Installer.Image
