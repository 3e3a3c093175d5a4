import Mathlib.Data.Set.Basic
import Slinux.Installer.Files
import Slinux.Installer.Smooth
import Slinux.Installer.Target

/-!
# The search for a boot medium

Lines 44 to 66 mount every block device in turn, read-only and on the same
directory, until one of them holds a rescue initramfs.  Two things can go
wrong with such a search: it can look at a device it should not touch, and
what it remembers of a medium can outlive the mount.

The devices come from two globs and are filtered by two `case`.  The second
one is meant to keep the search away from the disk that is about to be
overwritten, and lists the disk and its first four partitions.

## Main results

* `skipDev_disk`, `skipDev_part` — what the two `case` skip of the disk.
* `spares_disk_iff` — the search stays away from the disk **iff** none of its
  partitions beyond the fourth is listed, kinds of devices that are never
  searched apart.
-/

namespace Slinux.Installer.Medium

open Slinux.Shell.Text
open Slinux.Shell.Glob
open Slinux.Shell.Script
open Slinux.Shell.Logic
open Slinux.Unix.Files
open Slinux.Disk.Name
open Slinux.Installer.System
open Slinux.Installer.Effects
open Slinux.Installer.Script
open Slinux.Installer.Files
open Slinux.Installer.Smooth
open Slinux.Installer.Target

/-! ## Skipped devices -/

/-- The first `case`: devices that are no media. -/
def noMedium (dev : Str) : Bool :=
  caseArm [.star :: lits "/loop".toList ++ [.star], .star :: lits "/ram".toList ++ [.star],
    .star :: lits "/fd".toList ++ [.star], .star :: lits "/zram".toList ++ [.star]] dev

theorem decimal_injective : Function.Injective decimal := by
  intro m n h
  have hread := congrArg (fun s => Nat.ofDigitChars 10 s 0) h
  simpa only [decimal, Nat.ofDigitChars_ten_toDigits] using hread

theorem partP_inj {disk : Str} {m n : Nat} : partP disk m = partP disk n ↔ m = n := by
  unfold partP
  rw [List.append_cancel_left_eq]
  exact decimal_injective.eq_iff

/-- No partition has the name of the disk. -/
theorem partP_ne_disk (disk : Str) (n : Nat) : partP disk n ≠ disk := by
  intro h
  have hlen := congrArg List.length h
  have hpos : 0 < (decimal n).length := Nat.length_toDigits_pos
  unfold partP diskP at hlen
  split at hlen
  · rw [List.length_append, List.length_append] at hlen
    omega
  · rw [List.length_append] at hlen
    omega

/-- The name of a disk has no special characters. -/
theorem patOf_devPath (name : DevName) : patOf (devPath name.text) = lits (devPath name.text) := by
  unfold patOf lits
  apply List.map_congr_left
  intro c hc
  have hc' : c ≠ '*' ∧ c ≠ '?' := by
    rcases List.mem_append.mp hc with hdir | hname
    · have hall : devDir.all (fun c => c != '*' && c != '?') = true := by decide
      simpa using List.all_eq_true.mp hall c hdir
    · have hplain := name.plain c hname
      constructor
      · rintro rfl
        exact absurd hplain (by decide)
      · rintro rfl
        exact absurd hplain (by decide)
  rw [if_neg hc'.1, if_neg hc'.2]

/-- The disk itself is skipped. -/
theorem skipDev_disk (name : DevName) :
    skipDev (devPath name.text) (devPath name.text) = true := by
  unfold skipDev
  rw [Bool.or_eq_true]
  right
  unfold caseArm
  rw [List.any_cons, patOf_devPath, (globMatch_lits _ _).mpr rfl]
  rfl

/-- Of its partitions the first four are skipped. -/
theorem skipDev_part (name : DevName) (k : Nat) :
    skipDev (devPath name.text) (partP (devPath name.text) k) = true ↔
      noMedium (partP (devPath name.text) k) = true ∨ k ∈ [1, 2, 3, 4] := by
  show (noMedium _ || _) = true ↔ _
  rw [Bool.or_eq_true]
  refine or_congr_right ?_
  unfold caseArm
  rw [patOf_devPath]
  simp only [List.any_cons, List.any_nil, Bool.or_false, Bool.or_eq_true, globMatch_lits,
    partP_inj, List.mem_cons, List.not_mem_nil, or_false]
  exact or_iff_right (partP_ne_disk _ _)

/-! ## The disk is left alone -/

/-- The node of the disk, or of one of these partitions of it. -/
def OfDisk (name : Str) (parts : Set Nat) (dev : Str) : Prop :=
  dev = devPath name ∨ ∃ k ∈ parts, dev = partP (devPath name) k

/-- The disk and its partitions are not mounted. -/
def Clear (name : Str) (parts : Set Nat) (w : World) : Prop :=
  ∀ m ∈ w.mounts, ∀ dev fs, m.vol = .dev dev fs → ¬ OfDisk name parts dev

/-- A run that has nothing to do with the disk: it tries to mount nothing of
it, no path that is looked at leads to it, and nothing of it is left
mounted. -/
structure Spares {α : Type} (name : Str) (parts : Set Nat) (run : Run World Act Decision α) :
    Prop where
  attempts : ∀ e ∈ run.trace, ∀ fs ro dev p, e.act = .mount fs ro dev p → ¬ OfDisk name parts dev
  looks : ∀ e ∈ run.trace, ∀ p dev fs, (e.before.locate p).1 = .dev dev fs →
    ¬ OfDisk name parts dev
  clear : Clear name parts run.final

/-- The command mounts nothing of the disk. -/
def Avoids (name : Str) (parts : Set Nat) (a : Act) : Prop :=
  ∀ fs ro dev p, a = .mount fs ro dev p → ¬ OfDisk name parts dev

theorem avoids_of_remounts {name : Str} {parts : Set Nat} {a : Act} (h : a.remounts = false) :
    Avoids name parts a := by
  rintro fs ro dev p rfl
  cases h

theorem avoids_umount (name : Str) (parts : Set Nat) (ps : List Path) :
    Avoids name parts (.umount ps) := by
  intro fs ro dev p h
  cases h

section Clear

variable {name : Str} {parts : Set Nat} {w : World}

theorem Clear.locate (h : Clear name parts w) {p : Path} {dev : Str} {fs : Fs}
    (hloc : (w.locate p).1 = .dev dev fs) : ¬ OfDisk name parts dev := by
  rcases locate_vol w p with hlive | ⟨m, hm, hvol, _⟩
  · rw [hlive] at hloc
    cases hloc
  · exact h m hm dev fs (hvol.trans hloc)

/-- A mounted volume was mounted before, or by this command. -/
theorem exec_mounts (d : Decision) (a : Act) (w : World) {m : Mount VolId}
    (hm : m ∈ (exec d a w).2.mounts) :
    m ∈ w.mounts ∨ ∃ fs ro dev p, a = .mount fs ro dev p ∧ m = ⟨p, .dev dev fs⟩ := by
  cases ha : a.remounts with
  | false =>
      rw [(exec_frame d a w).mounts ha] at hm
      exact Or.inl hm
  | true =>
      cases a
      case mount fs ro dev p =>
        rcases exec_mount d fs ro dev p w with ⟨_, _, he⟩ | he
        · rw [he] at hm
          rcases List.mem_cons.mp hm with rfl | hm
          · exact Or.inr ⟨fs, ro, dev, p, rfl, rfl⟩
          · exact Or.inl hm
        · rw [he] at hm
          exact Or.inl hm
      case umount ps =>
        left
        simp only [exec] at hm
        split at hm
        · exact hm
        · exact umountAll_sub _ _ _ m hm
      all_goals cases ha

theorem Clear.exec (h : Clear name parts w) (d : Decision) {a : Act} (ha : Avoids name parts a) :
    Clear name parts (exec d a w).2 := by
  intro m hm dev fs hvol
  rcases exec_mounts d a w hm with hm | ⟨fs', ro, dev', p, hact, rfl⟩
  · exact h m hm dev fs hvol
  · cases hvol
    exact ha fs ro dev p hact

/-- What is asked of each event. -/
def SparesEvent (name : Str) (parts : Set Nat) (e : Event World Act Decision) : Prop :=
  Avoids name parts e.act ∧ Clear name parts e.before

/-- **A script whose commands avoid the disk spares it.** -/
theorem spares_of_acts {α : Type} {p : Prog Act α} (hp : Acts Tested (Avoids name parts) p)
    (hw : Clear name parts w) (O : Nat → Act → Decision) (n : Nat) :
    Spares name parts (go machine O p n w) := by
  have hstep : ∀ a d w, Avoids name parts a → Clear name parts w → True →
      SparesEvent name parts (machine.event a d w) ∧
        resume machine (fun _ => True) (SparesEvent name parts) (fun _ => Clear name parts) d
          (Clear name parts) (machine.exec d a w).2 := by
    intro a d w ha hw _
    have hnext : Clear name parts (System.exec d a w).2 := hw.exec d ha
    refine ⟨⟨ha, hw⟩, ?_⟩
    simp only [resume]
    split
    · exact hnext
    · split
      · exact hnext
      · rename_i t ht
        intro d' _
        -- the trap unmounts, and mounts nothing
        have htrap : Avoids name parts t := by
          obtain ⟨ps, _, rfl⟩ := Option.map_eq_some_iff.mp ht
          exact avoids_umount name parts ps
        have hafter : Clear name parts (System.exec d' t (System.exec d a w).2).2 :=
          hnext.exec d' htrap
        refine ⟨⟨htrap, hnext⟩, ?_⟩
        split
        · exact hafter
        · exact hafter
  have hwp := wp_invariant (M := machine) (A := fun _ => True) (E := fun _ => Clear name parts)
    hstep (fun _ _ _ h => h) hp hw
  obtain ⟨hevents, hend⟩ := go_sound O p n w hwp (fun _ _ => trivial)
  refine ⟨fun e he => (hevents e he).1, fun e he p dev fs hloc => (hevents e he).2.locate hloc, ?_⟩
  cases hout : (go machine O p n w).outcome with
  | done a =>
      rw [hout] at hend
      exact hend
  | ended x =>
      rw [hout] at hend
      exact hend

end Clear

/-! ## A listed partition is tried

In an environment in which no medium can be mounted, the search goes through
its whole list, so it comes to every listed device that is not skipped. -/

/-- Mounts fail, everything else succeeds. -/
def refuses (_ : Nat) (a : Act) : Decision :=
  match a with
  | .mount _ _ _ _ => { succeeds with fails := true }
  | _ => succeeds

/-- An event of a run in which mounts fail, other than a mount of `dev`. -/
def Refused (dev : Str) (e : Event World Act Decision) : Prop :=
  (∃ n, e.decision = refuses n e.act) ∧ ∀ fs ro p, e.act ≠ .mount fs ro dev p

section Refused

variable {dev : Str} {w : World}

theorem Refused.quiet : ∀ e, Refused dev e → machine.signal e.decision = none := by
  rintro e ⟨⟨n, hn⟩, _⟩
  rw [hn]
  unfold refuses
  split
  · rfl
  · rfl

/-- The inner loop tries its device, and changes nothing. -/
theorem tryFs_refused (dev' : Str) (fss : List Fs) (f : Found) :
    wp machine (Refused dev) (fun _ => True) (tryFs dev' fss f)
      (fun r v => r = (f, false) ∧ v = w ∧ (fss ≠ [] → dev' ≠ dev)) (fun _ _ => False) w := by
  induction fss with
  | nil => exact ⟨rfl, rfl, fun h => absurd rfl h⟩
  | cons fs fss ih =>
      apply wp_tested Refused.quiet
      intro d hd
      have hne : dev' ≠ dev := by
        rintro rfl
        exact hd.2 fs true bm rfl
      obtain ⟨n, hn⟩ := hd.1
      have hfails : d.fails = true := by
        rw [show d = _ from hn]
        rfl
      have hexec : exec d (.mount fs true dev' bm) w = (failed, w) := by
        simp [exec, hfails, Act.certain, residue]
      rw [show machine.exec = exec from rfl, hexec]
      refine ⟨trivial, ?_⟩
      exact wp_mono (fun r v hr => ⟨hr.1, hr.2.1, fun _ => hne⟩) (fun _ _ h => h) ih

/-- The outer loop tries every listed device that is not skipped. -/
theorem searchMedia_refused {disk : Str} {s : SysDev} (hdev : s.hasDev = true)
    (hskip : skipDev disk (devOf s) = false) (ss : List SysDev) (hs : s ∈ ss) (f : Found) :
    wp machine (Refused (devOf s)) (fun _ => True) (searchMedia disk ss f) (fun _ _ => False)
      (fun _ _ => False) w := by
  induction ss with
  | nil => exact absurd hs List.not_mem_nil
  | cons s' ss ih =>
      unfold searchMedia
      split
      · apply wp_bind
        refine wp_mono ?_ (fun _ _ h => h) (tryFs_refused (devOf s') _ f)
        rintro _ _ ⟨rfl, rfl, htried⟩
        have hs' : s ∈ ss := by
          rcases List.mem_cons.mp hs with rfl | hs'
          · exact absurd rfl (htried (by simp))
          · exact hs'
        exact ih hs'
      · rename_i hno
        have hs' : s ∈ ss := by
          rcases List.mem_cons.mp hs with rfl | hs'
          · exact absurd (by rw [hdev, hskip]; rfl) hno
          · exact hs'
        exact ih hs'

/-- The whole search, on a machine with a directory for the mounts. -/
theorem search_refused (hroom : (w.mkdirRoute bm).isSome = true) {disk : Str} {s : SysDev}
    (hdev : s.hasDev = true) (hskip : skipDev disk (devOf s) = false) {ss : List SysDev}
    (hs : s ∈ ss) :
    ∃ e ∈ (go machine refuses (searchBootMedium disk ss) 0 w).trace,
      ∃ fs ro p, e.act = .mount fs ro (devOf s) p := by
  by_contra hno
  have hA : ∀ e ∈ (go machine refuses (searchBootMedium disk ss) 0 w).trace,
      Refused (devOf s) e := by
    intro e he
    refine ⟨go_trace_decision machine refuses _ 0 w e he, fun fs ro p hact => ?_⟩
    exact hno ⟨e, he, fs, ro, p, hact⟩
  have hwp : wp machine (Refused (devOf s)) (fun _ => True) (searchBootMedium disk ss)
      (fun _ _ => False) (fun _ _ => False) w := by
    apply wp_cmd Refused.quiet
    intro d hd
    refine ⟨trivial, fun _ => wp_bind _ _ ?_, fun hfail => hfail ?_⟩
    · exact wp_mono (fun _ _ h => h.elim) (fun _ _ h => h)
        (searchMedia_refused hdev hskip ss hs _)
    · obtain ⟨n, hn⟩ := hd.1
      obtain ⟨v, hv⟩ := Option.isSome_iff_exists.mp hroom
      have hp : perform d (.mkdirP [bm]) w = some ([], v) := by
        simp only [perform, List.foldlM_cons, List.foldlM_nil, hv]
        rfl
      have hfails : d.fails = false := by
        rw [show d = _ from hn]
        rfl
      exact congrArg (fun x => x.1.status) (exec_of_perform hfails rfl hp)
  have hend := (go_sound refuses (searchBootMedium disk ss) 0 w hwp hA).2
  cases hout : (go machine refuses (searchBootMedium disk ss) 0 w).outcome with
  | done a =>
      rw [hout] at hend
      exact hend
  | ended x =>
      rw [hout] at hend
      exact hend

end Refused

/-- **The search and the target disk.**  Over every environment, the search
has nothing to do with the disk exactly if the partitions of it that are
listed are among the first four, or of a kind that is never searched. -/
theorem spares_disk_iff (name : DevName) (parts : Set Nat) (ss : List SysDev) :
    (∀ w, Clear name.text parts w → ∀ (O : Nat → Act → Decision) (n : Nat),
      Spares name.text parts (go machine O (searchBootMedium (devPath name.text) ss) n w)) ↔
      ∀ s ∈ ss, s.hasDev = true → ∀ k ∈ parts, devOf s = partP (devPath name.text) k →
        k ∈ [1, 2, 3, 4] ∨ noMedium (devOf s) = true := by
  constructor
  · intro h s hs hdev k hk hpart
    by_contra hno
    rw [not_or] at hno
    have hskip : skipDev (devPath name.text) (devOf s) = false := by
      rw [hpart, Bool.eq_false_iff, ne_eq, skipDev_part, not_or, ← hpart]
      exact ⟨hno.2, hno.1⟩
    have hroom : ((sampleWorld none).mkdirRoute bm).isSome = true := by decide +kernel
    have hclear : Clear name.text parts (sampleWorld none) :=
      fun m hm => absurd hm List.not_mem_nil
    obtain ⟨e, he, fs, ro, p, hact⟩ := search_refused hroom hdev hskip hs
    exact (h (sampleWorld none) hclear refuses 0).attempts e he fs ro _ p hact
      (Or.inr ⟨k, hk, hpart⟩)
  · intro h w hw O n
    refine spares_of_acts ?_ hw O n
    refine searchBootMedium_acts ?_ (avoids_umount _ _ _) ss ?_ (avoids_of_remounts rfl)
      (avoids_of_remounts rfl)
    · intro a ha
      apply avoids_of_remounts
      cases a <;> first | exact ha.elim | rfl
    · intro s hs hdev hskip fs fs' ro dev p hact hof
      cases hact
      rcases hof with hdisk | ⟨k, hk, hpart⟩
      · rw [hdisk, skipDev_disk] at hskip
        cases hskip
      · rw [hpart, Bool.eq_false_iff, ne_eq, skipDev_part, not_or] at hskip
        rcases h s hs hdev k hk hpart with hfour | hkind
        · exact hskip.2 hfour
        · exact hskip.1 (hpart ▸ hkind)

/-- A machine whose disk has a fifth partition with an older installation
medium on it. -/
def fivePartitions : World :=
  { sampleWorld none with
    vols := fun i =>
      if i = .live then some (volOf sampleFiles)
      else if i = .dev (devPath "sda5".toList) .ext4 then some sampleMedium
      else none }

def fifthListed : List SysDev := [⟨"/sys/block/sda/sda5".toList, true⟩]

/-- The fifth partition is taken for the boot medium, and stays mounted. -/
theorem not_spares_fifth :
    Clear "sda".toList {5} fivePartitions ∧
      ¬ Spares "sda".toList {5} (go machine (fun _ _ => succeeds)
        (searchBootMedium (devPath "sda".toList) fifthListed) 0 fivePartitions) := by
  refine ⟨fun m hm => absurd hm List.not_mem_nil, fun h => ?_⟩
  have hmounted : ⟨bm, .dev (devPath "sda5".toList) .ext4⟩ ∈ (go machine (fun _ _ => succeeds)
      (searchBootMedium (devPath "sda".toList) fifthListed) 0 fivePartitions).final.mounts := by
    decide +kernel
  exact h.clear _ hmounted _ _ rfl (Or.inr ⟨5, rfl, by decide⟩)

end Slinux.Installer.Medium
