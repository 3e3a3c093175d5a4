import Slinux.Installer.Contents
import Slinux.Installer.Copies

/-!
# Making and filling the target

Lines 82 to 125: the partition table, the two file systems, their mounts, and
the copy of the running system.  What the later parts need of all this is
little: the directories they write to are there, the group file is the one of
the running system, and whatever could be seen outside the target before can
still be seen.

The target must not be in use: nothing of its two partitions is mounted when
the installation starts, and the disk's partitions have the names that the
script gives them.

## Main results

* `makeFilesystems_leads` — the two new file systems, and nothing else.
* `mountTarget_leads` — the mounted target.
* `copySystem_leads` — the filled target.
-/

namespace Slinux.Installer.Filling

open Slinux.Shell.Text
open Slinux.Shell.Script
open Slinux.Shell.Logic
open Slinux.Unix.Files
open Slinux.Disk.Name
open Slinux.Disk.Dump
open Slinux.Installer.System
open Slinux.Installer.Effects
open Slinux.Installer.Script
open Slinux.Installer.Files
open Slinux.Installer.Target
open Slinux.Installer.Guard
open Slinux.Installer.Smooth
open Slinux.Installer.Operands
open Slinux.Installer.Contents

/-! ## The file systems -/

/-- The volume is on one of the disk's first two partitions. -/
def OnDisk (name : DevName) (i : VolId) : Prop := ∃ node ∈ partNodes name, ∃ fs, i = .dev node fs

/-- Nothing of the two partitions is mounted. -/
def Unused (name : DevName) (w : World) : Prop := ∀ m ∈ w.mounts, ¬ OnDisk name m.vol

theorem onDisk_esp (name : DevName) : OnDisk name (espVol name) :=
  ⟨_, List.mem_cons_self .., .vfat, rfl⟩

theorem onDisk_root (name : DevName) : OnDisk name (rootVol name) :=
  ⟨_, List.mem_cons_of_mem _ (List.mem_singleton.mpr rfl), .ext4, rfl⟩

theorem Unused.apart {name : DevName} {w : World} (h : Unused name w) :
    Apart (espVol name) (rootVol name) w.mounts := fun m hm =>
  ⟨fun heq => h m hm (heq ▸ onDisk_esp name), fun heq => h m hm (heq ▸ onDisk_root name)⟩

theorem Unused.locate {name : DevName} {w : World} (h : Unused name w) (p : Path) :
    ¬ OnDisk name (w.locate p).1 := by
  rcases locate_vol w p with hlive | ⟨m, hm, hvol, _⟩
  · rw [hlive]
    rintro ⟨_, _, _, heq⟩
    cases heq
  · rw [← hvol]
    exact h m hm

/-- The state with new, empty file systems on the two partitions. -/
structure Formatted (name : DevName) (w v : World) : Prop where
  esp : v.vols (espVol name) = some Fs.vfat.fresh
  root : v.vols (rootVol name) = some Fs.ext4.fresh
  others : ∀ i, w.inUse i = true → ¬ OnDisk name i → v.vols i = w.vols i
  layout : ∃ t, v.layout = some t
  disks : v.disks = w.disks
  mounts : v.mounts = w.mounts
  held : v.held = w.held

section Filesystems

variable {sure : Prop} {name : DevName} {w : World}

/-- A test of a device node changes nothing. -/
theorem exec_isBlock (d : Decision) (node : Str) : (exec d (.isBlock node) w).2 = w := by
  rcases exec_cases d (a := .isBlock node) rfl w with ⟨out, w', hp, he⟩ | he | he
  · simp only [perform, Option.ite_none_right_eq_some, Option.some.injEq, Prod.mk.injEq] at hp
    rw [he, hp.2.2]
  · rw [he]
    rfl
  · rw [he]

theorem tested_isBlock_leads {node : Str} (hnode : sure → node ∈ w.nodes) :
    Leads sure (tested (.isBlock node)) (fun b v => v = w ∧ (sure → b = true)) w := by
  apply wp_step Cooperates.quiet
  intro d hA
  refine ⟨trivial, exec_isBlock d node, fun hs => ?_⟩
  have hstatus : (exec d (.isBlock node) w).1.status = 0 :=
    ((hA.2 hs).2 (List.contains_iff_mem.mpr (hnode hs))).2
  exact beq_iff_eq.mpr hstatus

theorem bothParts_leads {disk : Str}
    (hnodes : sure → partP disk 1 ∈ w.nodes ∧ partP disk 2 ∈ w.nodes) :
    Leads sure (waitParts.bothParts disk) (fun b v => v = w ∧ (sure → b = true)) w := by
  apply leads_bind
  refine (tested_isBlock_leads (fun hs => (hnodes hs).1)).mono ?_
  rintro b v ⟨rfl, hb⟩
  cases b with
  | true => exact tested_isBlock_leads (fun hs => (hnodes hs).2)
  | false => exact ⟨rfl, fun hs => absurd (hb hs) (by decide)⟩

/-- Lines 93 to 97: the loop changes nothing. -/
theorem waitParts_leads {disk : Str}
    (hnodes : sure → partP disk 1 ∈ w.nodes ∧ partP disk 2 ∈ w.nodes) (n : Nat) :
    Leads sure (waitParts disk n) (fun _ v => v = w) w := by
  induction n with
  | zero =>
      apply leads_bind
      refine (bothParts_leads hnodes).mono ?_
      rintro b v ⟨rfl, hb⟩
      cases b with
      | true => exact rfl
      | false =>
          have hno : ¬ sure := fun hs => absurd (hb hs) (by decide)
          exact leads_cmd (fun hs => absurd hs hno) (fun _ _ => hno)
  | succ n ih =>
      apply leads_bind
      refine (bothParts_leads hnodes).mono ?_
      rintro b v ⟨rfl, hb⟩
      cases b with
      | true => exact rfl
      | false =>
          apply leads_cmd (fun _ => rfl)
          intro u hu
          obtain ⟨d, h0, rfl⟩ := hu.run
          have hp := perform_of_status rfl h0
          simp only [perform, Option.some.injEq, Prod.mk.injEq] at hp
          rw [← hp.2]
          exact ih

theorem Did.say {text : Str} {v : World} (hd : Did (.say text) w v) :
    v = { w with out := text :: w.out } := by
  obtain ⟨d, h0, rfl⟩ := hd.run
  have hp := perform_of_status rfl h0
  simp only [perform, Option.some.injEq, Prod.mk.injEq] at hp
  exact hp.2.symm

theorem Did.mkfs {a : Act} {dev : Str} {fs : Fs} {v : World}
    (ha : (a = .mkfsFat dev ∧ fs = .vfat) ∨ (a = .mke2fs dev ∧ fs = .ext4)) (hd : Did a w v) :
    v = w.format dev fs := by
  obtain ⟨d, h0, rfl⟩ := hd.run
  rcases exec_mkfs d ha w with ⟨_, he⟩ | he
  · rw [he]
  · rw [he] at h0
    exact absurd h0 Nat.one_ne_zero

theorem Did.sfdisk {disk script : Str} {v : World} (hd : Did (.sfdisk disk script) w v) :
    ∃ t, v = w.partition disk t := by
  obtain ⟨d, h0, rfl⟩ := hd.run
  rcases exec_sfdisk d disk script w with ⟨_, he⟩ | he
  · exact ⟨d.layout, by rw [he]⟩
  · rw [he] at h0
    exact absurd h0 Nat.one_ne_zero

theorem format_self (w : World) (node : Str) (fs : Fs) :
    (w.format node fs).vols (.dev node fs) = some fs.fresh := by
  show (if node = node then (if fs = fs then some fs.fresh else none) else _) = _
  rw [if_pos rfl, if_pos rfl]

theorem format_ne (w : World) {node n : Str} (h : n ≠ node) (fs f : Fs) :
    (w.format node fs).vols (.dev n f) = w.vols (.dev n f) :=
  if_neg h

/-- Lines 82 to 99. -/
theorem makeFilesystems_leads (hnames : NamesAgree name.text) (hdisk : name ∈ w.disks)
    (hnode : sure → devPath name.text ∈ w.nodes) (espsz : Str) :
    Leads sure (makeFilesystems (devPath name.text) espsz) (fun _ v => Formatted name w v) w := by
  have hpart : ∀ n, partP (devPath name.text) n = partNode name.text n := diskP_eq_partNode hnames
  apply leads_cmd (fun _ => rfl)
  intro v₁ h₁
  obtain rfl := Did.say h₁
  have hnode₁ : sure → operands (.sfdisk (devPath name.text) (sfdiskScript espsz))
      { w with out := ("partitioning ".toList ++ devPath name.text
        ++ " (gpt: esp + root)".toList) :: w.out } = true :=
    fun hs => List.contains_iff_mem.mpr (hnode hs)
  apply leads_cmd hnode₁
  intro v₂ h₂
  obtain ⟨t, rfl⟩ := Did.sfdisk h₂
  apply leads_cmd (fun _ => rfl)
  intro v₃ h₃
  obtain rfl := Did.say h₃
  have hnodes : ∀ n, n = 1 ∨ n = 2 → partP (devPath name.text) n ∈
      w.nodes ++ w.newNodes (devPath name.text) := by
    intro n hn
    rw [hpart, newNodes_devPath hdisk]
    apply List.mem_append_right
    rcases hn with rfl | rfl
    · exact List.mem_cons_self ..
    · exact List.mem_cons_of_mem _ (List.mem_singleton.mpr rfl)
  apply leads_bind
  refine (waitParts_leads (fun _ => ⟨hnodes 1 (Or.inl rfl), hnodes 2 (Or.inr rfl)⟩) 15).mono ?_
  rintro _ _ rfl
  refine leads_cmd ?_ ?_
  · intro _
    exact List.contains_iff_mem.mpr (hnodes 1 (Or.inl rfl))
  intro v₄ h₄
  obtain rfl := Did.mkfs (Or.inl ⟨rfl, rfl⟩) h₄
  refine leads_last ?_ ?_
  · intro _
    exact List.contains_iff_mem.mpr (hnodes 2 (Or.inr rfl))
  intro v₅ h₅
  obtain rfl := Did.mkfs (Or.inr ⟨rfl, rfl⟩) h₅
  have hne : partNode name.text 1 ≠ partNode name.text 2 := by
    rw [← hpart, ← hpart]
    exact fun h => absurd (List.append_cancel_left h) (by decide)
  have hmem : ∀ n, n = 1 ∨ n = 2 → partP (devPath name.text) n ∈ partNodes name := by
    intro n hn
    rw [hpart]
    rcases hn with rfl | rfl
    · exact List.mem_cons_self ..
    · exact List.mem_cons_of_mem _ (List.mem_singleton.mpr rfl)
  constructor
  · rw [hpart, hpart]
    exact (format_ne _ hne _ _).trans (format_self _ _ _)
  · rw [hpart, hpart]
    exact format_self _ _ _
  · intro i huse hi
    have hspare : ∀ node ∈ partNodes name, ∀ fs, i ≠ .dev node fs := fun node hnode fs hfs =>
      hi ⟨node, hnode, fs, hfs⟩
    rw [format_vols _ _ (hspare _ (hmem 2 (Or.inr rfl))),
      format_vols _ _ (hspare _ (hmem 1 (Or.inl rfl)))]
    exact partition_vols (w := { w with out := _ }) t huse (newNodes_devPath hdisk ▸ hspare)
  · exact ⟨t, rfl⟩
  · rfl
  · rfl
  · rfl

end Filesystems

/-! ## The mounts -/

/-- The state with the two file systems mounted, the new root with nothing but
the ESP's mount point in it. -/
structure Built (name : DevName) (w v : World) : Prop where
  mounted : Mounted name w.mounts v
  outside : ∀ p, ¬ mntRoot <+: p → Grown (see w p) (see v p)
  esp : v.isDir esp = true
  root : v.isDir mntRoot = true
  empty : ∀ top q, top ≠ "boot".toList → top ≠ "lost+found".toList →
    look v (rootVol name) (top :: q) = none
  sane : Sane w → Sane v
  layout : v.layout = w.layout
  disks : v.disks = w.disks
  held : v.held = w.held

section Mounts

variable {sure : Prop} {name : DevName} {w v : World}

theorem Did.mount {fs : Fs} {ro : Bool} {dev : Str} {point : Path}
    (hd : Did (.mount fs ro dev point) w v) :
    v = { w with mounts := ⟨point, .dev dev fs⟩ :: w.mounts } := by
  obtain ⟨d, h0, rfl⟩ := hd.run
  rcases exec_mount d fs ro dev point w with ⟨_, _, he⟩ | he
  · rw [he]
  · rw [he] at h0
    exact absurd h0 Nat.one_ne_zero

/-- A mount does not change what is seen elsewhere. -/
theorem see_mount (w : World) {point p : Path} (h : ¬ point <+: p) (i : VolId) :
    see { w with mounts := ⟨point, i⟩ :: w.mounts } p = see w p := by
  have hloc : World.locate { w with mounts := ⟨point, i⟩ :: w.mounts } p = w.locate p := by
    unfold World.locate resolve
    rw [List.find?_cons_of_neg (by simpa using h)]
  unfold see
  rw [hloc]
  rfl

theorem Sane.mount (h : Sane w) (point : Path) {i : VolId} (hi : (w.vols i).isSome = true) :
    Sane { w with mounts := ⟨point, i⟩ :: w.mounts } := by
  refine ⟨h.live, ?_⟩
  intro m hm
  rcases List.mem_cons.mp hm with rfl | hm
  · exact hi
  · exact h.mounted m hm

theorem look_fresh {i : VolId} {fs : Fs} (h : w.vols i = some fs.fresh) (q : Path) :
    look w i q = (fs.fresh q).map Node.kind := by
  unfold look
  rw [h]
  rfl

/-- A new root is empty but for the directory of `e2fsck`. -/
theorem fresh_top {top : Str} (h : top ≠ "lost+found".toList) (q : Path) :
    Fs.ext4.fresh (top :: q) = none :=
  (Vol.put_ne _ _ (fun hq => h (List.cons.inj hq).1)).trans (if_neg (List.cons_ne_nil _ _))

/-- `mkdir -p` on volumes that are not mounted. -/
theorem Did.look_unmounted {a : Act} (hd : Did a w v) (ha : formats a = false) {i : VolId}
    (hi : i ≠ .live) (hm : ∀ m ∈ w.mounts, m.vol ≠ i) (q : Path) : look v i q = look w i q := by
  obtain ⟨d, _, rfl⟩ := hd.run
  exact exec_look_unmounted d ha hi hm q

/-- The ESP's mount point is the only thing that `mkdir -p` adds to the new
root. -/
theorem look_mkdirEsp (hd : Did (.mkdirP [esp]) w v) {ms : List (Mount VolId)}
    (hmounts : w.mounts = ⟨mntRoot, rootVol name⟩ :: ms)
    (hapart : Apart (espVol name) (rootVol name) ms) {top : Str} (htop : top ≠ "boot".toList)
    (q : Path) : look v (rootVol name) (top :: q) = look w (rootVol name) (top :: q) := by
  obtain ⟨d, _, rfl⟩ := hd.run
  cases exec_look d (a := .mkdirP [esp]) rfl w (rootVol name) (top :: q) with
  | same h => exact h
  | replaced p hp _ => cases hp
  | copied src dst h _ _ => cases h
  | made routes hroutes hmade =>
      cases hroutes
      obtain ⟨⟨p, hp, hloc⟩, _, _⟩ := hmade
      have hpath : p = mntRoot ++ top :: q := by
        rcases locate_vol w p with hlive | ⟨m, hm, hvol, hpath⟩
        · rw [hloc] at hlive
          exact absurd hlive rootVol_ne_live
        · rw [hloc] at hvol hpath
          rw [hmounts] at hm
          rcases List.mem_cons.mp hm with rfl | hm
          · exact hpath
          · exact absurd hvol (hapart m hm).2
      have hways : wayPoints [esp] = [[], ["mnt".toList], mntRoot, mntRoot ++ ["boot".toList],
          esp] := by decide
      rw [hways, hpath] at hp
      have hboot : top = "boot".toList := by
        simp only [mntRoot, esp, List.mem_cons, List.not_mem_nil, List.cons_append,
          List.nil_append, List.cons.injEq, reduceCtorEq, and_false, or_false, false_or,
          true_and] at hp
        rcases hp with h | h
        · exact h.1
        · exact h.1
      exact absurd hboot htop

/-- The state with the new root mounted, before the ESP's mount point is made. -/
structure Rooted (name : DevName) (w v : World) : Prop where
  mounts : v.mounts = ⟨mntRoot, rootVol name⟩ :: w.mounts
  apart : Apart (espVol name) (rootVol name) w.mounts
  esp : look v (espVol name) [] = some .dir
  root : look v (rootVol name) [] = some .dir
  empty : ∀ top q, top ≠ "lost+found".toList → look v (rootVol name) (top :: q) = none
  outside : ∀ p, ¬ mntRoot <+: p → Grown (see w p) (see v p)
  sane : Sane w → Sane v
  layout : v.layout = w.layout
  disks : v.disks = w.disks
  held : v.held = w.held

theorem calls_mkdirP (routes : List (List Str)) : Calls [] (.mkdirP routes) :=
  ⟨rfl, rfl, by simp, by simp [replaces]⟩

/-- Lines 101 to 103: a directory, the mount and the trap. -/
theorem rooted_of_mkdir {v : World} (h : Did (.mkdirP [mntRoot]) w v)
    (hesp : w.vols (espVol name) = some Fs.vfat.fresh)
    (hroot : w.vols (rootVol name) = some Fs.ext4.fresh) (hunused : Unused name w) :
    Rooted name w { v with
      mounts := ⟨mntRoot, rootVol name⟩ :: v.mounts, trap := some [esp, mntRoot, bm] } := by
  have hapart := hunused.apart
  have hk := h.keep_all (calls_mkdirP _)
  have hm : v.mounts = w.mounts := h.frame.mounts rfl
  have he := Did.look_unmounted h rfl espVol_ne_live (fun m hm => (hapart m hm).1)
  have hr := Did.look_unmounted h rfl rootVol_ne_live (fun m hm => (hapart m hm).2)
  have hrdir : look v (rootVol name) [] = some .dir := (hr []).trans (look_fresh hroot [])
  constructor
  · show ⟨mntRoot, rootVol name⟩ :: v.mounts = _
    rw [hm]
  · exact hapart
  · exact (he []).trans (look_fresh hesp [])
  · exact hrdir
  · intro top q htop
    refine (hr (top :: q)).trans ((look_fresh hroot _).trans ?_)
    rw [fresh_top htop]
    rfl
  · intro p hp
    show Grown (see w p) (see { v with mounts := ⟨mntRoot, rootVol name⟩ :: v.mounts } p)
    rw [see_mount _ hp]
    exact hk.grown p List.not_mem_nil
  · intro hs
    have hmount := Sane.mount (hk.sane hs) mntRoot (vols_isSome_of_look hrdir)
    exact ⟨hmount.live, hmount.mounted⟩
  · exact h.frame.layout rfl
  · exact h.frame.disks
  · exact h.frame.held rfl

/-- Lines 105 and 106. -/
theorem mountEsp_leads {v : World} (hnames : NamesAgree name.text) (hv : Rooted name w v)
    (hsane : sure → Sane w) :
    Leads sure
      (cmd (.mkdirP [esp]) >>= fun _ => cmd (.mount .vfat false (partP (devPath name.text) 1) esp))
      (fun _ u => Built name w u) v := by
  have hespVol := espVol_eq hnames
  apply leads_cmd (fun _ => rfl)
  intro v₁ h₁
  have hk₁ := h₁.keep_all (calls_mkdirP _)
  have hm₁ : v₁.mounts = ⟨mntRoot, rootVol name⟩ :: w.mounts :=
    (h₁.frame.mounts rfl).trans hv.mounts
  have he₁ : look v₁ (espVol name) [] = some .dir := by
    rw [Did.look_unmounted h₁ rfl espVol_ne_live]
    · exact hv.esp
    · intro m hm
      rcases List.mem_cons.mp (hv.mounts ▸ hm) with rfl | hm
      · exact espVol_ne_rootVol.symm
      · exact (hv.apart m hm).1
  have hesome₁ := vols_isSome_of_look he₁
  refine leads_last ?_ ?_
  · intro hs
    show ((v₁.vols _).isSome && v₁.isDir esp) = true
    rw [hespVol, hesome₁]
    exact h₁.made (hv.sane (hsane hs)) (List.mem_singleton.mpr rfl)
  intro v₂ h₂
  obtain rfl := Did.mount h₂
  rw [hespVol]
  have hfull : Mounted name w.mounts { v₁ with mounts := ⟨esp, espVol name⟩ :: v₁.mounts } :=
    ⟨by rw [hm₁], hv.apart⟩
  constructor
  · exact hfull
  · intro p hp
    have hp' : ¬ esp <+: p := fun h => hp ((List.prefix_append mntRoot
      ["boot".toList, "efi".toList]).trans h)
    rw [see_mount _ hp']
    exact (hv.outside p hp).trans (hk₁.grown p List.not_mem_nil)
  · have hloc := Full.locate_esp hfull []
    rw [List.append_nil] at hloc
    rw [isDir_iff, see, hloc]
    exact he₁
  · have hloc : World.locate { v₁ with mounts := ⟨esp, espVol name⟩ :: v₁.mounts } mntRoot
        = (rootVol name, []) := Full.locate_root hfull (q := []) (by decide)
    rw [isDir_iff, see, hloc]
    exact (h₁.look_all (calls_mkdirP _) _ _).stays hv.root
  · exact fun top q hboot hlost =>
      (look_mkdirEsp h₁ hv.mounts hv.apart hboot q).trans (hv.empty top q hlost)
  · exact fun hs => Sane.mount (hk₁.sane (hv.sane hs)) esp hesome₁
  · exact (h₁.frame.layout rfl).trans hv.layout
  · exact h₁.frame.disks.trans hv.disks
  · exact (h₁.frame.held rfl).trans hv.held

/-- Lines 101 to 106. -/
theorem mountTarget_leads (hnames : NamesAgree name.text)
    (hesp : w.vols (espVol name) = some Fs.vfat.fresh)
    (hroot : w.vols (rootVol name) = some Fs.ext4.fresh) (hunused : Unused name w)
    (hsane : sure → Sane w) :
    Leads sure (mountTarget (devPath name.text)) (fun _ v => Built name w v) w := by
  have hrootVol := rootVol_eq hnames
  apply leads_cmd (fun _ => rfl)
  intro v₁ h₁
  have hrooted := rooted_of_mkdir h₁ hesp hroot hunused
  refine leads_cmd ?_ ?_
  · intro hs
    have hsome : (v₁.vols (rootVol name)).isSome = true := vols_isSome_of_look hrooted.root
    show ((v₁.vols _).isSome && v₁.isDir mntRoot) = true
    rw [hrootVol, hsome]
    exact h₁.made (hsane hs) (List.mem_singleton.mpr rfl)
  intro v₂ h₂
  obtain rfl := Did.mount h₂
  rw [hrootVol]
  apply leads_cmd (fun _ => rfl)
  intro v₃ h₃
  obtain rfl : v₃ = { v₁ with
      mounts := ⟨mntRoot, rootVol name⟩ :: v₁.mounts, trap := some [esp, mntRoot, bm] } := by
    obtain ⟨d, _, rfl⟩ := h₃.run
    rw [exec_setTrap]
  exact mountEsp_leads hnames hrooted hsane

end Mounts

/-! ## The copy -/

/-- The path leads to the ESP, to the top of the new root, or elsewhere. -/
def Spared (p : Path) : Prop := esp <+: p ∨ ¬ mntRoot <+: p ∨ p = mntRoot

/-- The commands of lines 108 to 125: they write to the new root only, below
its top. -/
structure Populates (a : Act) : Prop where
  format : formats a = false
  mount : a.remounts = false
  redirect : a.redirects = false
  copy : ∀ src dst, a = .cpA src dst → dst = mntRoot
  paths : ∀ p ∈ replaces a, p = mntRoot ++ [".slinux-installed".toList]

theorem populates_of_asks {a : Act} (h : Asks a) : Populates a := by
  have hplain := Mounts.Fills.plain (Asks.fills h)
  refine ⟨(Fills.late (Asks.fills h)).1, hplain.1, hplain.2.1, ?_, ?_⟩
  · rintro src dst rfl
    exact h.elim
  · intro p hp
    cases a <;> first | exact h.elim | cases hp

theorem copySystem_populates : Acts Tested Populates copySystem := by
  have hplain : ∀ {a}, Fills a → (∀ src dst, a ≠ .cpA src dst) → replaces a = [] →
      Acts Tested Populates (cmd a) := fun hf hc hr =>
    acts_cmd ⟨(Fills.late hf).1, (Mounts.Fills.plain hf).1, (Mounts.Fills.plain hf).2.1,
      fun src dst h => absurd h (hc src dst), fun p hp => absurd (hr ▸ hp) List.not_mem_nil⟩
  refine acts_bind (hplain ⟨rfl, rfl⟩ (by simp) rfl) (fun _ => ?_)
  refine acts_bind ((presentDirs_asks _).mono (fun _ => populates_of_asks)) (fun _ => ?_)
  refine acts_bind (acts_forEach (fun d _ => acts_cmd ⟨rfl, rfl, rfl, ?_, by simp [replaces]⟩))
    (fun _ => ?_)
  · intro src dst h
    cases h
    rfl
  refine acts_bind (hplain ⟨rfl, rfl⟩ (by simp) rfl) (fun _ => ?_)
  refine acts_bind (hplain ⟨rfl, rfl⟩ (by simp) rfl) (fun _ => ?_)
  refine acts_bind (hplain ⟨rfl, rfl⟩ (by simp) rfl) (fun _ => ?_)
  refine acts_bind (hplain ⟨rfl, rfl⟩ (by simp) rfl) (fun _ => ?_)
  exact acts_cmd ⟨rfl, rfl, rfl, by simp, fun p hp => List.mem_singleton.mp hp⟩

section Copy

variable {sure : Prop} {name : DevName} {rest : List (Mount VolId)} {w : World}

/-- A spared path is not below the top of the new root. -/
theorem Spared.locate {p : Path} (h : Spared p) (hw : Mounted name rest w) :
    (w.locate p).1 ≠ rootVol name ∨ (w.locate p).2 = [] := by
  rcases h with ⟨q, rfl⟩ | hout | rfl
  · rw [Full.locate_esp hw]
    exact Or.inl espVol_ne_rootVol
  · left
    intro hvol
    apply hout
    rw [Full.root_path hw espVol_ne_rootVol rootVol_ne_live (Prod.ext hvol rfl : w.locate p
      = (rootVol name, (w.locate p).2))]
    exact List.prefix_append _ _
  · right
    rw [show w.locate mntRoot = (rootVol name, []) from Full.locate_root hw (q := []) (by decide)]

/-- What is seen at a spared path stays. -/
theorem Populates.keep {a : Act} (ha : Populates a) (hw : Mounted name rest w) (d : Decision)
    {p : Path} (hp : Spared p) {k : Kind} (hk : see w p = some k) :
    see (exec d a w).2 p = some k := by
  have hnot : ∀ top q, w.locate p ≠ (rootVol name, top :: q) := by
    intro top q hloc
    rcases hp.locate hw with h | h
    · exact h (by rw [hloc])
    · rw [hloc] at h
      cases h
  unfold see at hk ⊢
  rw [locate_exec d ha.mount]
  cases exec_look d ha.format w (w.locate p).1 (w.locate p).2 with
  | same hsame => exact hsame.trans hk
  | replaced p' hp' hloc =>
      rw [ha.paths p' hp', Full.locate_top hw] at hloc
      exact absurd hloc.symm (hnot _ _)
  | made routes _ hmade =>
      rw [hmade.2.1] at hk
      cases hk
  | copied src dst hcopy hvol hpre =>
      rw [ha.copy src dst hcopy, Full.locate_top hw] at hvol hpre
      obtain ⟨q, hq⟩ := hpre
      have hloc : w.locate p = (rootVol name, src :: q) := Prod.ext hvol hq.symm
      exact absurd hloc (hnot src q)

/-- The state after the copy, as far as nothing is copied. -/
structure Spares (name : DevName) (rest : List (Mount VolId)) (w v : World) : Prop where
  mounted : Mounted name rest v
  files : ∀ p, Spared p → ∀ k, see w p = some k → see v p = some k
  sane : Sane w → Sane v
  layout : v.layout = w.layout
  disks : v.disks = w.disks
  held : v.held = w.held

theorem Spares.refl (hw : Mounted name rest w) : Spares name rest w w :=
  ⟨hw, fun _ _ _ h => h, fun h => h, rfl, rfl, rfl⟩

theorem Spares.step {v : World} (h : Spares name rest w v) {a : Act} (ha : Populates a)
    (d : Decision) : Spares name rest w (exec d a v).2 := by
  have hf := exec_frame d a v
  constructor
  · exact Full.of_mounts h.mounted (hf.mounts ha.mount)
  · intro p hp k hk
    exact ha.keep h.mounted d hp (h.files p hp k hk)
  · exact fun hs => (h.sane hs).exec d ha.format ha.mount
  · rw [(Late.layout ⟨ha.format, ?_⟩ d), h.layout]
    rintro fs ro dev p rfl
    exact absurd ha.mount (by simp [Act.remounts])
  · rw [hf.disks, h.disks]
  · rw [hf.held ha.redirect, h.held]

theorem wp_populates {α : Type} {p : Prog Act α} (hp : Acts Tested Populates p)
    (hw : Mounted name rest w) :
    wp machine (Cooperates sure) (fun _ => True) p (fun _ v => Spares name rest w v)
      (fun _ _ => True) w :=
  wp_kept (I := Spares name rest w) Cooperates.quiet (fun _ d _ ha hv => hv.step ha d) hp
    (Spares.refl hw)

/-- A path of the new root below a copied directory. -/
theorem see_copied (hw : Mounted name rest w) {d : Str} (hd : d ∈ sourceDirs) (q : Path) :
    see w (mntRoot ++ d :: q) = look w (rootVol name) (d :: q) := by
  have hout : ¬ esp <+: mntRoot ++ d :: q := by
    intro hpre
    have hthird : ["boot".toList, "efi".toList] <+: d :: q :=
      (List.prefix_append_right_inj mntRoot).mp hpre
    rw [← (List.cons_prefix_cons.mp hthird).1] at hd
    exact absurd hd (by decide)
  unfold see
  rw [Full.locate_root hw hout]

/-- The commands behind the copies write nothing below a copied directory. -/
theorem look_behind {a : Act} (ha : Populates a) (hcopy : ∀ src dst, a ≠ .cpA src dst)
    (hroutes : ∀ routes, a = .mkdirP routes → ∀ p ∈ wayPoints routes, ∀ d ∈ sourceDirs, ∀ q,
      p ≠ mntRoot ++ d :: q)
    (hw : Mounted name rest w) (dec : Decision) {d : Str} (hd : d ∈ sourceDirs) (q : Path) :
    look (exec dec a w).2 (rootVol name) (d :: q) = look w (rootVol name) (d :: q) := by
  have hpath : ∀ p, w.locate p = (rootVol name, d :: q) → p = mntRoot ++ d :: q :=
    fun p hloc => Full.root_path hw espVol_ne_rootVol rootVol_ne_live hloc
  cases exec_look dec ha.format w (rootVol name) (d :: q) with
  | same h => exact h
  | replaced p hp hloc =>
      have hat := (ha.paths p hp).symm.trans (hpath p hloc)
      have htop := (List.cons.inj (List.append_cancel_left hat)).1
      rw [← htop] at hd
      exact absurd hd (by decide)
  | made routes hact hmade =>
      obtain ⟨⟨p, hp, hloc⟩, _⟩ := hmade
      exact absurd (hpath p hloc) (hroutes routes hact p hp d hd q)
  | copied src dst hact _ _ => exact absurd hact (hcopy src dst)

/-- The directories of line 122. -/
def topRoutes : List Path :=
  ["tmp".toList, "mnt".toList, "dev".toList, "proc".toList, "sys".toList].map
    (fun d => mntRoot ++ [d])

theorem wayPoints_topRoutes {p : Path} (hp : p ∈ wayPoints topRoutes) {d : Str}
    (hd : d ∈ sourceDirs) (q : Path) : p ≠ mntRoot ++ d :: q := by
  rintro rfl
  have hhead : ∀ p ∈ wayPoints topRoutes, (p.drop 2).head? ∉ sourceDirs.map some := by decide
  exact hhead _ hp (List.mem_map_of_mem hd)

/-- What the copy leaves below a directory of the list. -/
def copiedKind (w : World) (d : Str) (q : Path) : Option Kind :=
  if w.isDir [d] then see w (d :: q) else none

/-- Everything behind the copies. -/
theorem wp_behind {α : Type} {p : Prog Act α}
    (hp : Acts Tested (fun a => Populates a ∧ (∀ src dst, a ≠ .cpA src dst) ∧
      ∀ routes, a = .mkdirP routes → routes = topRoutes) p)
    (hw : Mounted name rest w) {d : Str} (hd : d ∈ sourceDirs) (q : Path) :
    wp machine (Cooperates sure) (fun _ => True) p
      (fun _ v => look v (rootVol name) (d :: q) = look w (rootVol name) (d :: q))
      (fun _ _ => True) w := by
  refine wp_mono (fun _ v h => h.2) (fun _ _ h => h) (wp_kept
    (I := fun v => Mounted name rest v ∧
      look v (rootVol name) (d :: q) = look w (rootVol name) (d :: q))
    Cooperates.quiet ?_ hp ⟨hw, rfl⟩)
  rintro a dec v ⟨ha, hcopy, hroutes⟩ ⟨hv, hlook⟩
  constructor
  · exact Full.of_mounts hv ((exec_frame dec a v).mounts ha.mount)
  · rw [← hlook]
    apply look_behind ha hcopy ?_ hv dec hd q
    rintro routes rfl p hp d' hd' q'
    rw [hroutes routes rfl] at hp
    exact wayPoints_topRoutes hp hd' q'

/-- Lines 118 to 125. -/
def behindCopies : Prog Act Unit := do
  cmd (.chownR mntRoot)
  cmd (.chmodSetuid (mntRoot ++ ["bin".toList, "doas".toList]))
  cmd (.mkdirP topRoutes)
  cmd (.chmod 0o1777 (mntRoot ++ ["tmp".toList]))
  cmd (.touch (mntRoot ++ [".slinux-installed".toList]))

theorem behindCopies_acts : Acts Tested (fun a => Populates a ∧ (∀ src dst, a ≠ .cpA src dst) ∧
    ∀ routes, a = .mkdirP routes → routes = topRoutes) behindCopies := by
  have hcmd : ∀ {a}, Fills a → (∀ src dst, a ≠ .cpA src dst) →
      (∀ p ∈ replaces a, p = mntRoot ++ [".slinux-installed".toList]) →
      (∀ routes, a = .mkdirP routes → routes = topRoutes) →
      Acts Tested (fun a => Populates a ∧ (∀ src dst, a ≠ .cpA src dst) ∧
        ∀ routes, a = .mkdirP routes → routes = topRoutes) (cmd a) := fun hf hc hr hm =>
    acts_cmd ⟨⟨(Fills.late hf).1, (Mounts.Fills.plain hf).1, (Mounts.Fills.plain hf).2.1,
      fun src dst h => absurd h (hc src dst), hr⟩, hc, hm⟩
  refine acts_bind (hcmd ⟨rfl, rfl⟩ (by simp) (by simp [replaces]) (by simp)) (fun _ => ?_)
  refine acts_bind (hcmd ⟨rfl, rfl⟩ (by simp) (by simp [replaces]) (by simp)) (fun _ => ?_)
  refine acts_bind (hcmd ⟨rfl, rfl⟩ (by simp) (by simp [replaces]) ?_) (fun _ => ?_)
  · intro routes h
    cases h
    rfl
  refine acts_bind (hcmd ⟨rfl, rfl⟩ (by simp) (by simp [replaces]) (by simp)) (fun _ => ?_)
  exact hcmd ⟨rfl, rfl⟩ (by simp) (by simp [replaces]) (by simp)

/-- **The copied system.** -/
theorem copySystem_look (hw : Mounted name rest w) {d : Str} (hd : d ∈ sourceDirs) (q : Path)
    (hempty : look w (rootVol name) (d :: q) = none) :
    wp machine (Cooperates sure) (fun _ => True) copySystem
      (fun _ v => look v (rootVol name) (d :: q) = copiedKind w d q) (fun _ _ => True) w := by
  apply wp_cmd Cooperates.quiet
  intro dec _
  refine ⟨trivial, fun h0 => ?_, fun _ => trivial⟩
  have hsay := Did.say (⟨dec, h0, rfl⟩ : Did _ w _)
  rw [show machine.exec = exec from rfl, hsay]
  have hw₁ : Mounted name rest { w with out := "copying system".toList :: w.out } :=
    Full.of_mounts hw rfl
  have hview : SameView w { w with out := "copying system".toList :: w.out } := ⟨rfl, rfl⟩
  have hnone : nodeAt { w with out := "copying system".toList :: w.out } (rootVol name) (d :: q)
      = none := Option.map_eq_none_iff.mp hempty
  apply wp_bind
  refine wp_mono ?_ (fun _ _ hx => hx.elim)
    (Copies.presentDirs_filter Cooperates.quiet _ sourceDirs)
  rintro _ _ ⟨rfl, rfl⟩
  apply wp_bind
  refine wp_mono ?_ (fun _ _ hx => hx) (Copies.forEach_cpA Cooperates.quiet espVol_ne_rootVol
    rootVol_ne_live hd q _ hw₁)
  rintro _ v ⟨hv, hcopied⟩
  rw [hnone, Option.or_none, hview.node] at hcopied
  have hlook : look v (rootVol name) (d :: q) = copiedKind w d q := by
    show (nodeAt v (rootVol name) (d :: q)).map Node.kind = _
    have hpresent : d ∈ sourceDirs.filter (fun x =>
        World.isDir { w with out := "copying system".toList :: w.out } [x]) ↔
        w.isDir [d] = true := by
      rw [List.mem_filter, and_iff_right hd]
      exact Iff.rfl
    unfold copiedKind
    rw [hcopied]
    by_cases hdir : w.isDir [d] = true
    · rw [if_pos (hpresent.mpr hdir), if_pos hdir, see_eq]
    · rw [if_neg (fun hmem => hdir (hpresent.mp hmem)), if_neg hdir]
      rfl
  refine wp_mono ?_ (fun _ _ hx => hx) (wp_behind (p := behindCopies) behindCopies_acts hv hd q)
  intro _ u hu
  exact hu.trans hlook

/-- What the copy needs besides the mounted target. -/
structure CopyReady (w : World) : Prop where
  sane : Sane w
  root : w.isDir mntRoot = true
  bin : w.isDir ["bin".toList] = true
  doas : (w.node ["bin".toList, "doas".toList]).isSome = true

/-- The top of the new root, and the directories to copy. -/
theorem spared_root : Spared mntRoot := Or.inr (Or.inr rfl)

theorem spared_dir (d : Str) : Spared [d] := by
  refine Or.inr (Or.inl (fun hpre => ?_))
  have hlen := hpre.length_le
  simp [mntRoot] at hlen

theorem Spares.isDir {v : World} (h : Spares name rest w v) {p : Path} (hp : Spared p)
    (hd : w.isDir p = true) : v.isDir p = true :=
  (isDir_iff v p).mpr (h.files p hp _ ((isDir_iff w p).mp hd))

theorem forEach_cpA_leads (ds : List Str) :
    ∀ {w : World}, Mounted name rest w → w.isDir mntRoot = true →
      (∀ d ∈ ds, w.isDir [d] = true) →
      Leads sure (forEach (fun d => cmd (.cpA d mntRoot)) ds) (fun _ _ => True) w := by
  induction ds with
  | nil => intro w _ _ _; trivial
  | cons d ds ih =>
      intro w hw hroot hdirs
      refine leads_cmd ?_ ?_
      · intro _
        rw [operands, hdirs d (List.mem_cons_self ..), hroot]
        rfl
      intro v hd
      obtain ⟨dec, _, rfl⟩ := hd.run
      have hcopy : Populates (.cpA d mntRoot) := by
        refine ⟨rfl, rfl, rfl, ?_, by simp [replaces]⟩
        intro src dst h
        cases h
        rfl
      have hspares := (Spares.refl hw).step hcopy dec
      exact ih hspares.mounted (hspares.isDir spared_root hroot) (fun d' hd' =>
        hspares.isDir (spared_dir d') (hdirs d' (List.mem_cons_of_mem _ hd')))

/-- The commands behind the copies have their operands. -/
theorem behindCopies_leads (hsane : Sane w)
    (hroot : w.isDir mntRoot = true) {k : Kind}
    (hdoas : see w (mntRoot ++ ["bin".toList, "doas".toList]) = some k) :
    Leads sure behindCopies (fun _ _ => True) w := by
  have hnode : ∀ {v : World} {p : Path} {k : Kind}, see v p = some k →
      (v.node p).isSome = true := by
    intro v p k h
    rw [see_eq] at h
    rw [← Option.isSome_map, h]
    rfl
  refine leads_cmd (fun _ => hroot) (fun v₁ h₁ => ?_)
  have hk₁ := h₁.keep_all ⟨rfl, rfl, by simp, by simp [replaces]⟩
  have hd₁ := hk₁.files _ List.not_mem_nil _ hdoas
  refine leads_cmd (fun _ => hnode hd₁) (fun v₂ h₂ => ?_)
  have hk₂ := hk₁.trans (h₂.keep_all ⟨rfl, rfl, by simp, by simp [replaces]⟩)
  apply leads_cmd (fun _ => rfl)
  intro v₃ h₃
  have hk₃ := hk₂.trans (h₃.keep_all ⟨rfl, rfl, by simp, by simp [replaces]⟩)
  have hroute : mntRoot ++ ["tmp".toList] ∈ topRoutes := List.mem_cons_self ..
  have htmp : v₃.isDir (mntRoot ++ ["tmp".toList]) = true := h₃.made (hk₂.sane hsane) hroute
  refine leads_cmd (fun _ => hnode ((isDir_iff _ _).mp htmp)) (fun v₄ h₄ => ?_)
  have hk₄ := hk₃.trans (h₄.keep_all ⟨rfl, rfl, by simp, by simp [replaces]⟩)
  exact leads_last (fun _ => hk₄.isDir (p := mntRoot) List.not_mem_nil hroot)
    (fun _ _ => trivial)

/-- Nothing is asked of an environment that we are not sure of. -/
theorem leads_of_not {α : Type} (hno : ¬ sure) (p : Prog Act α) :
    Leads sure p (fun _ _ => True) w :=
  wp_mono (fun _ _ h => h) (fun _ _ _ => hno) (wp_trivial p)

theorem copySystem_succeeds (hw : Mounted name rest w) (hready : sure → CopyReady w) :
    Leads sure copySystem (fun _ _ => True) w := by
  by_cases hs : sure
  · obtain ⟨hsane, hroot, hbin, hdoas⟩ := hready hs
    obtain ⟨n, hn⟩ := Option.isSome_iff_exists.mp hdoas
    refine leads_cmd (fun _ => rfl) (fun v₁ h₁ => ?_)
    obtain rfl := Did.say h₁
    have hw₁ : Mounted name rest { w with out := "copying system".toList :: w.out } :=
      Full.of_mounts hw rfl
    apply leads_bind
    refine wp_mono ?_ (fun _ _ hx => hx.elim)
      (Copies.presentDirs_filter Cooperates.quiet _ sourceDirs)
    rintro _ _ ⟨rfl, rfl⟩
    apply leads_bind
    have hcopies : Leads sure _ _ _ := forEach_cpA_leads (sourceDirs.filter (fun x =>
      World.isDir { w with out := "copying system".toList :: w.out } [x])) hw₁ hroot
      (fun d hd => (List.mem_filter.mp hd).2)
    have hacts : Acts Tested Populates (forEach (fun d => cmd (.cpA d mntRoot))
        (sourceDirs.filter (fun x =>
          World.isDir { w with out := "copying system".toList :: w.out } [x]))) := by
      refine acts_forEach (fun d _ => acts_cmd ⟨rfl, rfl, rfl, ?_, by simp [replaces]⟩)
      intro src dst h
      cases h
      rfl
    have hboth := (hcopies.and (wp_populates hacts hw₁)).and (Copies.forEach_cpA
      Cooperates.quiet espVol_ne_rootVol rootVol_ne_live (d := "bin".toList) (by decide)
      ["doas".toList] _ hw₁)
    refine hboth.mono ?_
    rintro _ v ⟨⟨_, hspares⟩, hfull, hcopied⟩
    have hpresent : "bin".toList ∈ sourceDirs.filter (fun x =>
        World.isDir { w with out := "copying system".toList :: w.out } [x]) :=
      List.mem_filter.mpr ⟨by decide, hbin⟩
    have hnode : World.node { w with out := "copying system".toList :: w.out }
        ["bin".toList, "doas".toList] = some n := hn
    rw [if_pos hpresent, hnode, Option.some_or] at hcopied
    refine behindCopies_leads (hspares.sane ⟨hsane.live, hsane.mounted⟩)
      (hspares.isDir spared_root hroot) (k := n.kind) ?_
    rw [show mntRoot ++ ["bin".toList, "doas".toList] = mntRoot ++ "bin".toList ::
      ["doas".toList] from rfl, see_copied hfull (by decide)]
    show (nodeAt v (rootVol name) _).map Node.kind = _
    rw [hcopied]
    rfl
  · exact leads_of_not hs copySystem

/-- **The filled target.**  What is seen elsewhere stays, and the new `/etc`
is the one of the running system. -/
theorem copySystem_leads (hw : Mounted name rest w)
    (hempty : ∀ top q, top ≠ "boot".toList → top ≠ "lost+found".toList →
      look w (rootVol name) (top :: q) = none)
    (hready : sure → CopyReady w) (file : Str) :
    Leads sure copySystem (fun _ v => Spares name rest w v ∧
      see v etcDir = copiedKind w "etc".toList [] ∧
      see v (etc file) = copiedKind w "etc".toList [file]) w := by
  have hbase := copySystem_succeeds hw hready
  have hetc : ∀ q, wp machine (Cooperates sure) (fun _ => True) copySystem
      (fun _ v => look v (rootVol name) ("etc".toList :: q) = copiedKind w "etc".toList q)
      (fun _ _ => True) w := fun q =>
    copySystem_look hw (by decide) q (hempty _ _ (by decide) (by decide))
  refine (((hbase.and (wp_populates copySystem_populates hw)).and (hetc [])).and
    (hetc [file])).mono ?_
  rintro _ v ⟨⟨⟨_, hspares⟩, hdir⟩, hfile⟩
  exact ⟨hspares, (see_copied hspares.mounted (by decide) []).trans hdir,
    (see_copied hspares.mounted (by decide) [file]).trans hfile⟩

end Copy

end Slinux.Installer.Filling
