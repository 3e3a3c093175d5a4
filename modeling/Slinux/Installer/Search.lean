import Slinux.Installer.Smooth

/-!
# What the search for a boot medium finds

The search of lines 48 to 64 mounts one medium after the other on `/tmp/bm`.
A kernel on a medium is noted in `KERNEL` at once; the medium itself is left
mounted only if it has a rescue initramfs, and then the search is over.  So
`KERNEL` can name a file of a medium that has been unmounted again.

The search is described by the list of its attempts.  Where no command is kept
from succeeding, an attempt succeeds if there is a file system of its type on
its device, and `found` says what the whole search comes to.

## Main results

* `searchMedia_smooth` — the two loops compute `found`.
* `found_initrd`, `found_kernel` — `INITRD` comes from the first medium with
  an initramfs, `KERNEL` from any medium up to that one.
* `usable_iff` — `KERNEL` and `INITRD` name existing files **iff** no medium
  that is left again has a kernel, or the medium that is kept has one too.
-/

namespace Slinux.Installer.Search

open Slinux.Shell.Text
open Slinux.Shell.Script
open Slinux.Shell.Logic
open Slinux.Unix.Files
open Slinux.Installer.System
open Slinux.Installer.Effects
open Slinux.Installer.Script
open Slinux.Installer.Smooth

/-! ## Media -/

/-- The mounts the search tries, in order. -/
def attempts (disk : Str) (ss : List SysDev) : List (Str × Fs) :=
  (ss.filter (fun s => s.hasDev && !skipDev disk (devOf s))).flatMap
    (fun s => [Fs.iso9660, .vfat, .ext4].map (fun fs => (devOf s, fs)))

/-- The file of this name is in the top directory of the volume. -/
def hasFile (file : Str) (v : Vol) : Bool :=
  match v [file] with
  | some n => n.data?.isSome
  | none => false

def hasInitrd : Vol → Bool := hasFile "initramfs.cpio.gz".toList

def hasKernel : Vol → Bool := hasFile "vmlinuz".toList

/-- What the attempts come to, for a `KERNEL` so far: `KERNEL` and `INITRD`,
and the medium that is left mounted. -/
def found (vols : VolId → Option Vol) : List (Str × Fs) → Path → Found × Option (Str × Fs)
  | [], k => (⟨k, none⟩, none)
  | (dev, fs) :: as, k =>
      match vols (.dev dev fs) with
      | none => found vols as k
      | some m =>
          let k' := if hasKernel m then bmKernel else k
          if hasInitrd m then (⟨k', some bmInitrd⟩, some (dev, fs)) else found vols as k'

/-- The media that the attempts reach. -/
def media (vols : VolId → Option Vol) (as : List (Str × Fs)) : List Vol :=
  as.filterMap (fun a => vols (.dev a.1 a.2))

/-- The media that are left again. -/
def passed (ms : List Vol) : List Vol := ms.takeWhile (fun m => !hasInitrd m)

/-- The medium that is kept. -/
def kept (ms : List Vol) : Option Vol := ms.find? hasInitrd

section Found

variable {vols : VolId → Option Vol} {dev : Str} {fs : Fs} {m : Vol}

/-! Three things can happen to an attempt. -/

theorem found_refused (h : vols (.dev dev fs) = none) (as : List (Str × Fs)) (k : Path) :
    found vols ((dev, fs) :: as) k = found vols as k := by
  simp only [found, h]

theorem found_passed (h : vols (.dev dev fs) = some m) (hi : hasInitrd m = false)
    (as : List (Str × Fs)) (k : Path) :
    found vols ((dev, fs) :: as) k = found vols as (if hasKernel m then bmKernel else k) := by
  simp [found, h, hi]

theorem found_kept (h : vols (.dev dev fs) = some m) (hi : hasInitrd m = true)
    (as : List (Str × Fs)) (k : Path) :
    found vols ((dev, fs) :: as) k
      = (⟨if hasKernel m then bmKernel else k, some bmInitrd⟩, some (dev, fs)) := by
  simp [found, h, hi]

theorem media_none (h : vols (.dev dev fs) = none) (as : List (Str × Fs)) :
    media vols ((dev, fs) :: as) = media vols as := by
  simp [media, h]

theorem media_some (h : vols (.dev dev fs) = some m) (as : List (Str × Fs)) :
    media vols ((dev, fs) :: as) = m :: media vols as := by
  simp [media, h]

theorem found_append (as bs : List (Str × Fs)) (k : Path) :
    found vols (as ++ bs) k
      = if (found vols as k).2.isSome then found vols as k
        else found vols bs (found vols as k).1.kernel := by
  induction as generalizing k with
  | nil => rfl
  | cons a as ih =>
      obtain ⟨dev, fs⟩ := a
      rw [List.cons_append]
      cases hv : vols (.dev dev fs) with
      | none => rw [found_refused hv, found_refused hv, ih]
      | some m =>
          cases hi : hasInitrd m with
          | false => rw [found_passed hv hi, found_passed hv hi, ih]
          | true =>
              rw [found_kept hv hi, found_kept hv hi]
              rfl

/-- `INITRD` names a file of the medium that is kept. -/
theorem found_initrd (vols : VolId → Option Vol) (as : List (Str × Fs)) (k : Path) :
    (found vols as k).1.initrd = (found vols as k).2.map (fun _ => bmInitrd) := by
  induction as generalizing k with
  | nil => rfl
  | cons a as ih =>
      obtain ⟨dev, fs⟩ := a
      cases hv : vols (.dev dev fs) with
      | none => rw [found_refused hv, ih]
      | some m =>
          cases hi : hasInitrd m with
          | false => rw [found_passed hv hi, ih]
          | true =>
              rw [found_kept hv hi]
              rfl

/-- The medium that is kept is the first with an initramfs. -/
theorem found_medium (vols : VolId → Option Vol) (as : List (Str × Fs)) (k : Path) :
    (found vols as k).2.map (fun a => vols (.dev a.1 a.2)) = (kept (media vols as)).map some := by
  induction as generalizing k with
  | nil => rfl
  | cons a as ih =>
      obtain ⟨dev, fs⟩ := a
      cases hv : vols (.dev dev fs) with
      | none =>
          rw [found_refused hv, ih, media_none hv]
      | some m =>
          rw [media_some hv, kept]
          cases hi : hasInitrd m with
          | false =>
              rw [found_passed hv hi, ih, List.find?_cons_of_neg (by simp [hi])]
              rfl
          | true =>
              rw [found_kept hv hi, List.find?_cons_of_pos hi]
              exact congrArg some hv

/-- **Where `KERNEL` comes from.** -/
theorem found_kernel (vols : VolId → Option Vol) (as : List (Str × Fs)) (k : Path) :
    (found vols as k).1.kernel
      = if (passed (media vols as)).any hasKernel || (kept (media vols as)).any hasKernel
        then bmKernel else k := by
  induction as generalizing k with
  | nil => rfl
  | cons a as ih =>
      obtain ⟨dev, fs⟩ := a
      cases hv : vols (.dev dev fs) with
      | none =>
          rw [found_refused hv, ih, media_none hv]
      | some m =>
          rw [media_some hv, passed, kept]
          cases hi : hasInitrd m with
          | false =>
              rw [found_passed hv hi, ih, List.find?_cons_of_neg (by simp [hi]),
                List.takeWhile_cons_of_pos (by simp [hi]), List.any_cons]
              cases hasKernel m with
              | false => rfl
              | true => exact ite_self _
          | true =>
              rw [found_kept hv hi, List.find?_cons_of_pos hi,
                List.takeWhile_cons_of_neg (by simp [hi])]
              rfl

end Found

/-! ## The loops -/

/-- The state the search starts in: there is a directory to mount on, and
nothing is mounted or open there. -/
structure Idle (w : World) : Prop where
  dir : w.isDir bm = true
  free : bm ∉ points w.mounts
  held : ∀ f ∈ w.held, ¬ bm <+: f

/-- The state `w` with further mounts in front. -/
structure With (ms : List (Mount VolId)) (w v : World) : Prop where
  vols : v.vols = w.vols
  mounts : v.mounts = ms ++ w.mounts
  held : v.held = w.held

theorem With.refl (w : World) : With [] w w := ⟨rfl, rfl, rfl⟩

/-- The mount of a medium. -/
def mountOf (a : Str × Fs) : Mount VolId := ⟨bm, .dev a.1 a.2⟩

section Loops

variable {w v : World} {dev : Str} {fs : Fs} {m : Vol}

theorem With.say {ms : List (Mount VolId)} (h : With ms w v) {u : World} (hs : SameShell v u)
    (hvols : u.vols = v.vols) : With ms w u :=
  ⟨hvols.trans h.vols, hs.mounts.trans h.mounts, hs.held.trans h.held⟩

/-- A file of the mounted medium. -/
theorem With.isFile_medium {a : Str × Fs} (h : With [mountOf a] w v)
    (hm : w.vols (.dev a.1 a.2) = some m) (file : Str) :
    v.isFile (bm ++ [file]) = hasFile file m := by
  have hloc : v.locate (bm ++ [file]) = (.dev a.1 a.2, [file]) := by
    unfold World.locate resolve
    rw [h.mounts, List.singleton_append, List.find?_cons_of_pos (by simp [mountOf])]
    simp [mountOf]
  unfold World.isFile World.node hasFile
  rw [hloc, h.vols, hm]
  rfl

/-- The medium can be unmounted again. -/
theorem With.umountOk {a : Str × Fs} (hw : Idle w) (h : With [mountOf a] w v) :
    umountOk v.held [bm] (points v.mounts) = true := by
  have hheld : w.held.any (fun f => bm.isPrefixOf f) = false := by
    rw [List.any_eq_false]
    intro f hf hpre
    exact hw.held f hf (List.isPrefixOf_iff_prefix.mp hpre)
  rw [h.held, h.mounts]
  simp [Unix.Files.umountOk, canUmount, mountedOn, busy, points, mountOf, hheld]

theorem With.umountAll {a : Str × Fs} (hw : Idle w) (h : With [mountOf a] w v) :
    umountAll v.held [bm] v.mounts = w.mounts := by
  have hok := h.umountOk hw
  simp only [Unix.Files.umountOk, Bool.and_eq_true] at hok
  rw [Unix.Files.umountAll, Unix.Files.umountAll, umountOne, if_pos hok.1, h.mounts,
    List.singleton_append, List.eraseP_cons_of_pos (by simp [mountOf])]

/-- Lines 56 to 59 on a mounted medium. -/
theorem lookInitrd_smooth {f : Found} (hf : f.initrd = none) (h : With [mountOf (dev, fs)] w v)
    (hm : w.vols (.dev dev fs) = some m) :
    wp machine Unhindered (fun _ => True) (lookInitrd dev fs f)
      (fun g u => g = { f with initrd := if hasInitrd m then some bmInitrd else none } ∧
        With [mountOf (dev, fs)] w u) (fun _ _ => False) v := by
  unfold lookInitrd
  rw [hf]
  apply wp_test_smooth (b := hasInitrd m) (fun _ he => he) rfl
  · intro d
    have hfile : v.isFile bmInitrd = hasInitrd m := h.isFile_medium hm _
    simp only [perform, hfile]
  cases hasInitrd m with
  | false =>
      refine ⟨?_, h⟩
      obtain ⟨k, i⟩ := f
      rw [show i = none from hf]
      rfl
  | true =>
      rw [if_pos rfl]
      apply wp_say_smooth (fun _ he => he)
      intro u hs hvols _
      exact ⟨rfl, h.say hs hvols⟩

/-- Line 60. -/
theorem lookKernel_smooth {f : Found} (h : With [mountOf (dev, fs)] w v)
    (hm : w.vols (.dev dev fs) = some m) :
    wp machine Unhindered (fun _ => True) (lookKernel f)
      (fun g u => g = { f with kernel := if hasKernel m then bmKernel else f.kernel } ∧
        With [mountOf (dev, fs)] w u) (fun _ _ => False) v := by
  unfold lookKernel
  apply wp_test_smooth (b := hasKernel m) (fun _ he => he) rfl
  · intro d
    have hfile : v.isFile bmKernel = hasKernel m := h.isFile_medium hm _
    simp only [perform, hfile]
  cases hasKernel m with
  | false => exact ⟨rfl, h⟩
  | true => exact ⟨rfl, h⟩

/-- **The inner loop.** -/
theorem tryFs_smooth (hw : Idle w) (fss : List Fs) :
    ∀ {k : Path} {v : World}, With [] w v →
      wp machine Unhindered (fun _ => True) (tryFs dev fss ⟨k, none⟩)
        (fun r u => r = ((found w.vols (fss.map (dev, ·)) k).1,
            (found w.vols (fss.map (dev, ·)) k).2.isSome) ∧
          With ((found w.vols (fss.map (dev, ·)) k).2.toList.map mountOf) w u)
        (fun _ _ => False) v := by
  induction fss with
  | nil => intro k v h; exact ⟨rfl, h⟩
  | cons fs fss ih =>
      intro k v h
      rw [List.map_cons]
      apply wp_tested_smooth (fun _ he => he) rfl
      · intro d out u _ hp
        simp only [perform, Option.ite_none_right_eq_some, Bool.and_eq_true, Option.some.injEq,
          Prod.mk.injEq] at hp
        obtain ⟨⟨hvol, _⟩, _, rfl⟩ := hp
        rw [h.vols] at hvol
        obtain ⟨m, hm⟩ := Option.isSome_iff_exists.mp hvol
        have hon : With [mountOf (dev, fs)] w { v with mounts := ⟨bm, .dev dev fs⟩ :: v.mounts } :=
          ⟨h.vols, by rw [h.mounts]; rfl, h.held⟩
        rw [if_pos rfl]
        apply wp_bind
        refine wp_mono ?_ (fun _ _ hx => hx) (lookInitrd_smooth rfl hon hm)
        rintro _ u₁ ⟨rfl, hu₁⟩
        apply wp_bind
        refine wp_mono ?_ (fun _ _ hx => hx) (lookKernel_smooth hu₁ hm)
        rintro _ u₂ ⟨rfl, hu₂⟩
        cases hi : hasInitrd m with
        | true =>
            rw [found_kept hm hi]
            exact ⟨rfl, hu₂⟩
        | false =>
            rw [found_passed hm hi]
            apply wp_cmd (fun _ he => he.2)
            intro d' hd'
            have hexec := exec_umount (show d'.fails = false from hd'.1) [bm] u₂
            rw [hu₂.umountOk hw, hu₂.umountAll hw, if_pos rfl] at hexec
            rw [show machine.exec = exec from rfl, hexec]
            refine ⟨trivial, fun _ => ?_, fun hne => absurd rfl hne⟩
            exact ih ⟨hu₂.vols, rfl, hu₂.held⟩
      · intro d _ hp
        have hdir : v.isDir bm = true := by
          rw [SameView.isDir ⟨h.vols, h.mounts⟩]
          exact hw.dir
        have hnone : w.vols (.dev dev fs) = none := by
          rw [← h.vols]
          cases hv : v.vols (.dev dev fs) with
          | none => rfl
          | some m => simp [perform, hv, hdir] at hp
        rw [found_refused hnone]
        exact ih h

theorem attempts_cons (disk : Str) (s : SysDev) (ss : List SysDev) :
    attempts disk (s :: ss)
      = if s.hasDev && !skipDev disk (devOf s) then
          [Fs.iso9660, .vfat, .ext4].map (devOf s, ·) ++ attempts disk ss
        else attempts disk ss := by
  unfold attempts
  rw [List.filter_cons]
  split
  · rw [List.flatMap_cons]
  · rfl

/-- **The search, where nothing is kept from succeeding.** -/
theorem searchMedia_smooth (hw : Idle w) (disk : Str) (ss : List SysDev) :
    ∀ {k : Path} {v : World}, With [] w v →
      wp machine Unhindered (fun _ => True) (searchMedia disk ss ⟨k, none⟩)
        (fun f u => f = (found w.vols (attempts disk ss) k).1 ∧
          With ((found w.vols (attempts disk ss) k).2.toList.map mountOf) w u)
        (fun _ _ => False) v := by
  induction ss with
  | nil => intro k v h; exact ⟨rfl, h⟩
  | cons s ss ih =>
      intro k v h
      unfold searchMedia
      rw [attempts_cons]
      split
      · apply wp_bind
        refine wp_mono ?_ (fun _ _ hx => hx) (tryFs_smooth hw _ h)
        rintro _ u ⟨rfl, hu⟩
        rw [found_append]
        have hinitrd := found_initrd w.vols
          ([Fs.iso9660, .vfat, .ext4].map (devOf s, ·)) k
        revert hu hinitrd
        generalize found w.vols ([Fs.iso9660, .vfat, .ext4].map (devOf s, ·)) k = r
        obtain ⟨f, stop⟩ := r
        intro hu hinitrd
        cases stop with
        | some a => exact ⟨rfl, hu⟩
        | none =>
            obtain ⟨k', i⟩ := f
            rw [show i = none from hinitrd]
            exact ih hu
      · exact ih h

end Loops

/-! ## Usable paths -/

/-- `KERNEL` and `INITRD` name files that are there: the kernel of the running
system or of the mounted medium, and the initramfs of the mounted medium.
Without an initramfs nothing is left mounted. -/
structure Usable (f : Found) (w : World) : Prop where
  kernel : f.kernel = bootKernel ∨ (f.kernel = bmKernel ∧ bm ∈ points w.mounts)
  kernelFile : w.isFile f.kernel = true
  initrd : (f.initrd = none ∧ bm ∉ points w.mounts) ∨
    (f.initrd = some bmInitrd ∧ bm ∈ points w.mounts ∧ w.isFile bmInitrd = true)

/-- No medium with a kernel is left again, or the one that is kept has a
kernel too. -/
def Consistent (ms : List Vol) : Prop :=
  (∀ m ∈ passed ms, hasKernel m = false) ∨ ∃ m, kept ms = some m ∧ hasKernel m = true

section Usable

variable {w v : World}

theorem bmKernel_ne : bmKernel ≠ bootKernel := by decide

/-- The running system's kernel is not hidden by a medium. -/
theorem With.isFile_bootKernel {as : List (Str × Fs)} (h : With (as.map mountOf) w v) :
    v.isFile bootKernel = w.isFile bootKernel := by
  have hloc : v.locate bootKernel = w.locate bootKernel := by
    unfold World.locate resolve
    rw [h.mounts, List.find?_append]
    have hnone : (as.map mountOf).find? (fun m => m.point.isPrefixOf bootKernel) = none := by
      rw [List.find?_eq_none]
      intro m hm
      obtain ⟨a, _, rfl⟩ := List.mem_map.mp hm
      show ¬ bm.isPrefixOf bootKernel = true
      decide
    rw [hnone, Option.none_or]
  unfold World.isFile World.node
  rw [hloc, h.vols]

theorem usable_found (hw : Idle w) (hkernel : w.isFile bootKernel = true)
    (as : List (Str × Fs)) (hv : With ((found w.vols as bootKernel).2.toList.map mountOf) w v) :
    Usable (found w.vols as bootKernel).1 v ↔ Consistent (media w.vols as) := by
  have hk := found_kernel w.vols as bootKernel
  have hi := found_initrd w.vols as bootKernel
  have hm := found_medium w.vols as bootKernel
  have hboot := hv.isFile_bootKernel
  rw [hkernel] at hboot
  revert hv hk hi hm
  generalize found w.vols as bootKernel = r
  obtain ⟨⟨kernel, initrd⟩, stop⟩ := r
  intro hv hk hi hm
  simp only at hv hk hi hm
  have hpassed : (∀ m ∈ passed (media w.vols as), hasKernel m = false) ↔
      (passed (media w.vols as)).any hasKernel = false := by
    rw [List.any_eq_false]
    simp
  unfold Consistent
  rw [hpassed]
  cases stop with
  | none =>
      have hkept : kept (media w.vols as) = none := Option.map_eq_none_iff.mp hm.symm
      have hfree : bm ∉ points v.mounts := by
        rw [hv.mounts]
        exact hw.free
      rw [hkept] at hk ⊢
      rw [Option.any_none, Bool.or_false] at hk
      subst hi hk
      cases (passed (media w.vols as)).any hasKernel with
      | false => exact ⟨fun _ => Or.inl rfl, fun _ => ⟨Or.inl rfl, hboot, Or.inl ⟨rfl, hfree⟩⟩⟩
      | true =>
          constructor
          · rintro ⟨hbad | ⟨_, hbad⟩, _, _⟩
            · exact absurd hbad bmKernel_ne
            · exact absurd hbad hfree
          · rintro (h | ⟨m, h, _⟩)
            · cases h
            · cases h
  | some a =>
      obtain ⟨m, hkept, hvol⟩ := Option.map_eq_some_iff.mp hm.symm
      have hon : bm ∈ points v.mounts := by
        rw [hv.mounts]
        exact List.mem_cons_self ..
      have hinitrd : v.isFile bmInitrd = true := by
        rw [show v.isFile bmInitrd = hasInitrd m from hv.isFile_medium hvol.symm _]
        exact List.find?_some hkept
      have hmedium : v.isFile bmKernel = hasKernel m := hv.isFile_medium hvol.symm _
      rw [hkept] at hk ⊢
      rw [Option.any_some] at hk
      subst hi hk
      cases hkm : hasKernel m with
      | true =>
          rw [hkm] at hmedium
          rw [Bool.or_true, if_pos rfl]
          exact ⟨fun _ => Or.inr ⟨m, rfl, hkm⟩, fun _ =>
            ⟨Or.inr ⟨rfl, hon⟩, hmedium, Or.inr ⟨rfl, hon, hinitrd⟩⟩⟩
      | false =>
          rw [hkm] at hmedium
          rw [Bool.or_false]
          cases (passed (media w.vols as)).any hasKernel with
          | false =>
              exact ⟨fun _ => Or.inl rfl, fun _ =>
                ⟨Or.inl rfl, hboot, Or.inr ⟨rfl, hon, hinitrd⟩⟩⟩
          | true =>
              constructor
              · rintro ⟨_, hfile, _⟩
                rw [if_pos rfl, hmedium] at hfile
                cases hfile
              · rintro (h | ⟨m', h, hkm'⟩)
                · cases h
                · cases h
                  rw [hkm] at hkm'
                  cases hkm'

/-- **Usable paths.**  When the search ends, `KERNEL` and `INITRD` name files
that are there exactly if no medium with a kernel was left again, or the one
that is still mounted has a kernel too. -/
theorem usable_iff {O : Nat → Act → Decision} (hO : Calm O) (hw : Idle w)
    (hkernel : w.isFile bootKernel = true) (disk : Str) (ss : List SysDev) (n : Nat) :
    (∃ f, (go machine O (searchMedia disk ss ⟨bootKernel, none⟩) n w).outcome = .done f ∧
      Usable f (go machine O (searchMedia disk ss ⟨bootKernel, none⟩) n w).final) ↔
      Consistent (media w.vols (attempts disk ss)) := by
  have hA : ∀ e ∈ (go machine O (searchMedia disk ss ⟨bootKernel, none⟩) n w).trace,
      Unhindered e := by
    intro e he
    obtain ⟨m, hm⟩ := go_trace_decision machine O _ n w e he
    unfold Unhindered
    rw [hm]
    exact hO m e.act
  have hend := (go_sound O _ n w (searchMedia_smooth hw disk ss (With.refl w)) hA).2
  cases hout : (go machine O (searchMedia disk ss ⟨bootKernel, none⟩) n w).outcome with
  | ended x =>
      rw [hout] at hend
      exact hend.elim
  | done f =>
      rw [hout] at hend
      obtain ⟨rfl, hv⟩ := hend
      rw [← usable_found hw hkernel _ hv]
      constructor
      · rintro ⟨f, hf, hu⟩
        cases hf
        exact hu
      · intro hu
        exact ⟨_, rfl, hu⟩

end Usable

/-- A USB stick, its partition, and a CD-ROM. -/
def sampleDrives : List SysDev :=
  [⟨"/sys/block/sdb/sdb1".toList, true⟩, ⟨"/sys/block/sdb".toList, true⟩,
    ⟨"/sys/block/sr0".toList, true⟩]

/-- The sample machine when the search starts, with an empty stick and a
CD-ROM. -/
def sampleStart (cdrom : Vol) : World :=
  { sampleWorld none with
    vols := fun i =>
      if i = .live then some (volOf ((bm, newDir) :: sampleFiles))
      else if i = .dev (Disk.Name.devPath "sdb1".toList) .vfat then some (volOf [([], newDir)])
      else if i = .dev (Disk.Name.devPath "sr0".toList) .iso9660 then some cdrom
      else none }

theorem sampleStart_idle (cdrom : Vol) : Idle (sampleStart cdrom) :=
  ⟨rfl, List.not_mem_nil, fun _ h => absurd h List.not_mem_nil⟩

/-- The search on that machine. -/
def sampleSearch (cdrom : Vol) : Run World Act Decision Found :=
  go machine (fun _ _ => succeeds)
    (searchMedia (Disk.Name.devPath "sda".toList) sampleDrives ⟨bootKernel, none⟩) 0
    (sampleStart cdrom)

theorem usable_sample :
    ∃ f, (sampleSearch sampleMedium).outcome = .done f ∧
      Usable f (sampleSearch sampleMedium).final :=
  (usable_iff (fun _ _ => ⟨rfl, rfl⟩) (sampleStart_idle sampleMedium) (by decide +kernel) _ _ 0).mpr
    (Or.inl (by decide +kernel))

/-- A CD-ROM with a kernel and no initramfs. -/
def kernelOnly : Vol := volOf [([], newDir), (["vmlinuz".toList], newFile [])]

/-- Such a CD-ROM is left again, and `KERNEL` goes on naming its kernel. -/
theorem not_usable_kernelOnly :
    (sampleSearch kernelOnly).outcome = .done ⟨bmKernel, none⟩ ∧
      ¬ Usable ⟨bmKernel, none⟩ (sampleSearch kernelOnly).final := by
  refine ⟨by decide +kernel, fun h => ?_⟩
  have hgone : (sampleSearch kernelOnly).final.isFile bmKernel = false := by decide +kernel
  exact absurd (h.kernelFile.symm.trans hgone) (by decide)

end Slinux.Installer.Search
