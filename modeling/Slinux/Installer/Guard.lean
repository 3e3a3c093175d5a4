import Slinux.Installer.Devices
import Slinux.Installer.Mounts
import Slinux.Installer.Prompts
import Slinux.Installer.Target

/-!
# Bootable systems and root passwords

The installer makes the target bootable before it asks for passwords.  This
module says what it means for the disk to be bootable, for its root account to
have a password, and to be `Armed`: bootable, with no password.  An
environment is `Guarded` if nothing goes wrong while the disk is armed; in
such an environment every command that fails leaves a disk that is not.

Up to line 106 the new ESP has no `limine.conf`, whatever fails and whenever
signals arrive, so the disk cannot be armed there.

## Main results

* `Guarded.disarmed`, `resume_kept` — failures and signals in a guarded
  environment.
* `wp_unarmed` — a phase in which the target is never armed.
* `wp_early_phase` — the part of the script in front of the target's mounts.
* `mountTarget_spec` — the mounts: they succeed, or the target is lost.
* `wp_lost` — once the target is lost, the rest of the script does not matter.
* `wp_copies` — filling the target keeps the ESP without a configuration.
-/

namespace Slinux.Installer.Guard

open Slinux.Shell.Text
open Slinux.Shell.Glob
open Slinux.Shell.Script
open Slinux.Shell.Logic
open Slinux.Unix.Files
open Slinux.Disk.Name
open Slinux.Disk.Dump
open Slinux.Installer.Accounts
open Slinux.Installer.Bootloader
open Slinux.Installer.System
open Slinux.Installer.Effects
open Slinux.Installer.Script
open Slinux.Installer.Files
open Slinux.Installer.Target
open Slinux.Installer.Prompts
open Slinux.Installer.Devices
open Slinux.Installer.Mounts

/-! ## Bootable and protected systems -/

/-- The file system on the first partition of a disk. -/
def espVol (name : DevName) : VolId := .dev (partNode name.text 1) .vfat

/-- The file system on its second partition. -/
def rootVol (name : DevName) : VolId := .dev (partNode name.text 2) .ext4

/-- The volume behind `"$P"1`. -/
theorem espVol_eq {name : DevName} (hnames : NamesAgree name.text) :
    VolId.dev (partP (devPath name.text) 1) .vfat = espVol name := by
  rw [diskP_eq_partNode hnames]
  rfl

/-- The volume behind `"$P"2`. -/
theorem rootVol_eq {name : DevName} (hnames : NamesAgree name.text) :
    VolId.dev (partP (devPath name.text) 2) .ext4 = rootVol name := by
  rw [diskP_eq_partNode hnames]
  rfl

/-- `EFI/BOOT/BOOTX64.EFI`. -/
def loaderFile : Path := ["EFI".toList, "BOOT".toList, "BOOTX64.EFI".toList]

/-- `EFI/BOOT/limine.conf`. -/
def confFile : Path := ["EFI".toList, "BOOT".toList, "limine.conf".toList]

def kernelFile : Path := ["vmlinuz".toList]

/-- A file of `/etc`. -/
def etcFile (file : Str) : Path := ["etc".toList, file]

/-- The disk boots the system on its second partition. -/
structure Bootable (name : DevName) (w : World) : Prop where
  loader : ∃ t, look w (espVol name) loaderFile = some (.file t)
  kernel : ∃ t, look w (espVol name) kernelFile = some (.file t)
  conf : ∃ t c, w.layout = some t ∧ look w (espVol name) confFile = some (.file c) ∧
    NamesRoot t.root.uuid.text c
  bin : look w (rootVol name) ["bin".toList] = some .dir
  etc : look w (rootVol name) ["etc".toList] = some .dir

/-- The password field of root's record. -/
def rootField (file : Str) : Option Str :=
  ((records file).find? (named rootName)).map (field 1)

/-- Root has a non-empty password hash, in the password file or, where that
says `x`, in the shadow file. -/
def Protected (name : DevName) (w : World) : Prop :=
  ∃ p f, look w (rootVol name) (etcFile "passwd".toList) = some (.file p) ∧
    rootField p = some f ∧ f ≠ [] ∧
    (f = "x".toList → ∃ s h, look w (rootVol name) (etcFile "shadow".toList) = some (.file s) ∧
      rootField s = some h ∧ h ≠ [])

instance (o : Option Kind) : Decidable (∃ t, o = some (.file t)) :=
  match o with
  | some (.file t) => .isTrue ⟨t, rfl⟩
  | some .dir => .isFalse (by simp)
  | none => .isFalse (by simp)

/-- A property of the text of a file. -/
instance {P : Str → Prop} [DecidablePred P] (o : Option Kind) :
    Decidable (∃ t, o = some (.file t) ∧ P t) :=
  match o with
  | some (.file t) => decidable_of_iff (P t) (by simp)
  | some .dir => .isFalse (by simp)
  | none => .isFalse (by simp)

instance (name : DevName) (w : World) : Decidable (Bootable name w) :=
  decidable_of_iff ((∃ t, look w (espVol name) loaderFile = some (.file t)) ∧
    (∃ t, look w (espVol name) kernelFile = some (.file t)) ∧
    (∃ c, look w (espVol name) confFile = some (.file c) ∧
      ∃ t ∈ w.layout, NamesRoot t.root.uuid.text c) ∧
    look w (rootVol name) ["bin".toList] = some .dir ∧
    look w (rootVol name) ["etc".toList] = some .dir) (by
    constructor
    · rintro ⟨hl, hk, ⟨c, hc, t, ht, hn⟩, hb, he⟩
      exact ⟨hl, hk, ⟨t, c, ht, hc, hn⟩, hb, he⟩
    · rintro ⟨hl, hk, ⟨t, c, ht, hc, hn⟩, hb, he⟩
      exact ⟨hl, hk, ⟨c, hc, t, ht, hn⟩, hb, he⟩)

instance (name : DevName) (w : World) : Decidable (Protected name w) :=
  decidable_of_iff (∃ p, look w (rootVol name) (etcFile "passwd".toList) = some (.file p) ∧
    ∃ f ∈ rootField p, f ≠ [] ∧ (f = "x".toList →
      ∃ s, look w (rootVol name) (etcFile "shadow".toList) = some (.file s) ∧
        ∃ h ∈ rootField s, h ≠ [])) (by
    constructor
    · rintro ⟨p, hp, f, hf, hne, hx⟩
      refine ⟨p, f, hp, hf, hne, fun h => ?_⟩
      obtain ⟨s, hs, g, hg, hgne⟩ := hx h
      exact ⟨s, g, hs, hg, hgne⟩
    · rintro ⟨p, f, hp, hf, hne, hx⟩
      refine ⟨p, hp, f, hf, hne, fun h => ?_⟩
      obtain ⟨s, g, hs, hg, hgne⟩ := hx h
      exact ⟨s, hs, g, hg, hgne⟩)

/-- The disk boots a system whose root account has no password. -/
def Armed (name : DevName) (w : World) : Prop := Bootable name w ∧ ¬ Protected name w

instance (name : DevName) (w : World) : Decidable (Armed name w) :=
  inferInstanceAs (Decidable (_ ∧ _))

/-- While the disk is bootable without a password, commands succeed, no signal
arrives, and the answers are ones that the dialogue accepts. -/
def Guarded (name : DevName) (answers : List Str) (e : Event World Act Decision) : Prop :=
  Armed name e.before ∨ Armed name e.after →
    e.resp.status = 0 ∧ e.decision.signal = none ∧ Accepted answers

instance (name : DevName) (answers : List Str) (e : Event World Act Decision) :
    Decidable (Guarded name answers e) :=
  inferInstanceAs (Decidable (_ → _))

section Volumes

variable {name : DevName} {w v : World}

theorem espVol_ne_rootVol : espVol name ≠ rootVol name := by
  simp [espVol, rootVol]

theorem espVol_ne_live : espVol name ≠ .live := by
  intro h
  cases h

theorem rootVol_ne_live : rootVol name ≠ .live := by
  intro h
  cases h

/-- Whether a system is bootable without a password depends on the files of
the two partitions. -/
theorem Armed.congr (hesp : ∀ q, look v (espVol name) q = look w (espVol name) q)
    (hroot : ∀ q, look v (rootVol name) q = look w (rootVol name) q)
    (hlayout : v.layout = w.layout) (h : Armed name v) : Armed name w := by
  obtain ⟨⟨hl, hk, hc, hb, he⟩, hp⟩ := h
  simp only [hesp, hroot, hlayout] at hl hk hc hb he
  refine ⟨⟨hl, hk, hc, hb, he⟩, fun h => hp ?_⟩
  unfold Protected
  simp only [hroot]
  exact h

theorem Armed.of_vols (h : Armed name v) (hvols : v.vols = w.vols)
    (hlayout : v.layout = w.layout) : Armed name w :=
  h.congr (fun q => look_of_vols hvols _ q) (fun q => look_of_vols hvols _ q) hlayout

end Volumes

/-! ## Leaving the script

In every environment that is `Guarded`, a command that fails or is hit by a
signal leaves a target that is not bootable without a password. -/

section Exits

variable {name : DevName} {answers : List Str} {w : World}

/-- What the script may end with. -/
def Disarmed (name : DevName) (_ : Ended) (w : World) : Prop := ¬ Armed name w

theorem Guarded.disarmed {a : Act} {d : Decision} (h : Guarded name answers (machine.event a d w))
    (hbad : (exec d a w).1.status ≠ 0 ∨ d.signal ≠ none) : ¬ Armed name (exec d a w).2 := by
  intro harmed
  obtain ⟨h0, hsig, _⟩ := h (Or.inr harmed)
  rcases hbad with hbad | hbad
  · exact hbad h0
  · exact hbad hsig

theorem umount_armed (d : Decision) (ps : List Path)
    (h : Armed name (exec d (.umount ps) w).2) : Armed name w :=
  h.of_vols (exec_umount_vols d ps w) ((exec_frame d (.umount ps) w).layout rfl)

/-- A signal in a state that is not armed leads to whatever a successful trap
leads to. -/
theorem resume_disarmed {d : Decision} {L : World → Prop} (hw : ¬ Armed name w)
    (hsig : d.signal ≠ none)
    (hL : ∀ d' ops, w.trap = some ops → (exec d' (.umount ops) w).1.status = 0 →
      L { (exec d' (.umount ops) w).2 with interrupted := true }) :
    resume machine (Guarded name answers) (fun _ => True) (Disarmed name) d L w := by
  unfold resume
  cases hs : machine.signal d with
  | none => exact absurd hs hsig
  | some sg =>
      cases ht : w.trap with
      | none =>
          rw [show machine.trap w = none by simp [machine, ht]]
          exact hw
      | some ops =>
          rw [show machine.trap w = some (.umount ops) by simp [machine, ht]]
          intro d' _
          refine ⟨trivial, ?_⟩
          have hafter : ¬ Armed name { (exec d' (.umount ops) w).2 with interrupted := true } :=
            fun h => hw (umount_armed d' ops (h.of_vols rfl rfl))
          split
          · rename_i h0
            exact hL d' ops ht h0
          · exact hafter

/-- What such a state and a successful trap keep. -/
theorem resume_kept {d : Decision} {L : World → Prop} (hw : ¬ Armed name w) (hquiet : L w)
    (hL : ∀ d' ops, w.trap = some ops → (exec d' (.umount ops) w).1.status = 0 →
      L { (exec d' (.umount ops) w).2 with interrupted := true }) :
    resume machine (Guarded name answers) (fun _ => True) (Disarmed name) d L w := by
  by_cases hsig : d.signal = none
  · exact resume_quiet hsig hquiet
  · exact resume_disarmed hw hsig hL

/-- **A phase that never arms the target** keeps what its commands and the traps
keep, wherever signals arrive. -/
theorem wp_unarmed {α : Type} {P : Act → Prop} {I : World → Prop} {p : Prog Act α}
    (hI : ∀ v, I v → ¬ Armed name v) (hstep : ∀ a d v, P a → I v → I (exec d a v).2)
    (htrap : ∀ d ops v, I v → I { (exec d (.umount ops) v).2 with interrupted := true })
    (hp : Acts Tested P p) (hw : I w) :
    wp machine (Guarded name answers) (fun _ => True) p (fun _ => I) (Disarmed name) w := by
  refine wp_invariant ?_ (fun _ _ _ hv => hI _ hv) hp hw
  intro a d v ha hv _
  have hafter := hstep a d v ha hv
  exact ⟨trivial, resume_kept (hI _ hafter) hafter (fun d' ops _ _ => htrap d' ops _ hafter)⟩

/-- The trap on leaving the script does not change files. -/
theorem leaving_disarmed {α : Type} (o : Outcome α) (hw : ¬ Armed name w) :
    leaving machine (Guarded name answers) (fun _ => True) (fun _ v => ¬ Armed name v) o w := by
  have hunwind : ¬ Armed name (machine.unwind w) := fun h => hw (h.of_vols rfl rfl)
  simp only [leaving]
  split
  · exact hw
  · split
    · exact hunwind
    · rename_i t ht
      obtain ⟨ops, _, rfl⟩ := Option.map_eq_some_iff.mp ht
      intro d _
      exact ⟨trivial, fun h => hunwind (umount_armed d ops h)⟩

end Exits

/-! ## Up to the mounts -/

section Ahead

variable {name : DevName} {answers : List Str} {w : World}

/-- The new ESP, once there is one, has no configuration. -/
def NoConf (name : DevName) (w : World) : Prop :=
  w.layout ≠ none → ∀ c, look w (espVol name) confFile ≠ some (.file c)

theorem NoConf.disarmed (h : NoConf name w) : ¬ Armed name w := by
  intro harmed
  obtain ⟨t, c, hlayout, hconf, _⟩ := harmed.1.conf
  exact h (by rw [hlayout]; simp) c hconf

theorem NoConf.of_vols (h : NoConf name w) {v : World} (hvols : v.vols = w.vols)
    (hlayout : v.layout = w.layout) : NoConf name v := by
  intro hv c
  rw [look_of_vols hvols]
  exact h (hlayout ▸ hv) c

/-- The commands in front of the target's mounts. -/
def EarlyAct (name : DevName) (a : Act) : Prop :=
  Searches (devPath name.text) a ∨ Prepares (devPath name.text) a ∨ a = .mkdirP [mntRoot]

/-- The state in front of the target's mounts. -/
structure Ahead (name : DevName) (w : World) : Prop where
  disk : name ∈ w.disks
  apart : Apart (espVol name) (rootVol name) w.mounts
  free : esp ∉ points w.mounts ∧ mntRoot ∉ points w.mounts
  trap : ∀ ops, w.trap = some ops → ops = [bm]
  conf : NoConf name w

/-- A directory is not a configuration, so making directories and anything
that writes elsewhere keeps the ESP without one. -/
theorem NoConf.step (h : NoConf name w) (d : Decision) {a : Act} (ha : formats a = false)
    (hwrite : ∀ p ∈ replaces a, w.locate p ≠ (espVol name, confFile))
    (hcopy : ∀ src dst, a = .cpA src dst → (w.locate (dst ++ [src])).1 ≠ espVol name) :
    NoConf name (exec d a w).2 := by
  intro hlayout c
  have hbefore : w.layout ≠ none := by
    rw [(exec_frame d a w).layout (by cases a <;> first | rfl | cases ha)] at hlayout
    exact hlayout
  cases exec_look d ha w (espVol name) confFile with
  | same hsame =>
      rw [hsame]
      exact h hbefore c
  | replaced p hp hloc => exact absurd hloc (hwrite p hp)
  | made routes _ hmade =>
      rw [hmade.2.2]
      simp
  | copied src dst ha' hvol _ => exact absurd hvol.symm (hcopy src dst ha')

/-- A disk of the machine is behind its node. -/
theorem diskOf_devPath (hdisk : name ∈ w.disks) : w.diskOf (devPath name.text) = some name := by
  have hfound : (w.diskOf (devPath name.text)).isSome = true := by
    unfold World.diskOf
    rw [List.find?_isSome]
    exact ⟨name, hdisk, by simp⟩
  obtain ⟨found, hfind⟩ := Option.isSome_iff_exists.mp hfound
  have hpath : devPath found.text = devPath name.text := by
    unfold World.diskOf at hfind
    simpa using List.find?_some hfind
  have htext : found.text = name.text := List.append_cancel_left hpath
  rw [hfind]
  obtain ⟨text, _, _⟩ := found
  obtain ⟨text', _, _⟩ := name
  cases htext
  rfl

/-- The disk's own partitions are among the nodes `sfdisk` makes. -/
theorem newNodes_devPath (hdisk : name ∈ w.disks) :
    w.newNodes (devPath name.text) = partNodes name := by
  unfold World.newNodes
  rw [diskOf_devPath hdisk]

theorem partNode_mem_newNodes (hdisk : name ∈ w.disks) :
    partNode name.text 1 ∈ w.newNodes (devPath name.text) := by
  rw [newNodes_devPath hdisk]
  exact List.mem_cons_self ..

/-- `sfdisk` leaves no file system on the new partitions. -/
theorem NoConf.sfdisk (hdisk : name ∈ w.disks) (h : NoConf name w) (d : Decision) (s : Str) :
    NoConf name (exec d (.sfdisk (devPath name.text) s) w).2 := by
  rcases exec_sfdisk d (devPath name.text) s w with ⟨_, he⟩ | he
  · rw [he]
    intro _ c
    have hnone : (w.partition (devPath name.text) d.layout).vols (espVol name) = none :=
      partition_new d.layout .vfat (partNode_mem_newNodes hdisk)
    simp [look, hnone]
  · rw [he]
    exact h

theorem look_format (w : World) (node : Str) (fs : Fs) (n : Str) (f : Fs) (q : Path) :
    look (w.format node fs) (.dev n f) q
      = if n = node then (if f = fs then (fs.fresh q).map Node.kind else none)
        else look w (.dev n f) q := by
  unfold look World.format
  by_cases hn : n = node
  · by_cases hf : f = fs <;> simp [hn, hf]
  · simp [hn]

theorem NoConf.mkfs (h : NoConf name w) (d : Decision) {a : Act} {dev : Str} {fs : Fs}
    (ha : (a = .mkfsFat dev ∧ fs = .vfat) ∨ (a = .mke2fs dev ∧ fs = .ext4)) :
    NoConf name (exec d a w).2 := by
  rcases exec_mkfs d ha w with ⟨_, he⟩ | he
  · rw [he]
    intro hlayout c
    unfold espVol
    rw [look_format]
    split
    · have hnone : fs.fresh confFile = none := by cases fs <;> decide
      simp [hnone]
    · exact h hlayout c
  · rw [he]
    exact h

/-- A device that the search does not skip is not one of the target's. -/
theorem searched_apart (hnames : NamesAgree name.text) {dev : Str}
    (hdev : skipDev (devPath name.text) dev = false) (fs : Fs) :
    VolId.dev dev fs ≠ espVol name ∧ VolId.dev dev fs ≠ rootVol name := by
  have hne : ∀ n, n = 1 ∨ n = 2 → dev ≠ partNode name.text n := by
    intro n hn heq
    rw [← diskP_eq_partNode hnames] at heq
    have hskip : skipDev (devPath name.text) dev = true := by
      rw [heq]
      rcases hn with rfl | rfl <;> simp [skipDev, caseArm, globMatch_lits]
    rw [hskip] at hdev
    cases hdev
  constructor
  · intro h
    exact hne 1 (Or.inl rfl) (VolId.dev.inj h).1
  · intro h
    exact hne 2 (Or.inr rfl) (VolId.dev.inj h).1

theorem Ahead.umount (h : Ahead name w) (d : Decision) (ops : List Path) :
    Ahead name (exec d (.umount ops) w).2 := by
  have hf := exec_frame d (.umount ops) w
  have hsub : ∀ m ∈ (exec d (.umount ops) w).2.mounts, m ∈ w.mounts := by
    intro m hm
    simp only [exec] at hm
    split at hm
    · exact hm
    · exact umountAll_sub _ _ _ m hm
  have hpoint : ∀ p, p ∉ points w.mounts → p ∉ points (exec d (.umount ops) w).2.mounts := by
    intro p hp hin
    obtain ⟨m, hm, rfl⟩ := List.mem_map.mp hin
    exact hp (List.mem_map_of_mem (hsub m hm))
  constructor
  · rw [hf.disks]
    exact h.disk
  · exact fun m hm => h.apart m (hsub m hm)
  · exact ⟨hpoint _ h.free.1, hpoint _ h.free.2⟩
  · intro ops' hops
    rw [hf.trap rfl] at hops
    exact h.trap ops' hops
  · exact h.conf.of_vols (exec_umount_vols d ops w) (hf.layout rfl)

/-- A command that changes neither mounts nor the trap. -/
theorem Ahead.of_frame (h : Ahead name w) {d : Decision} {a : Act} (hm : a.remounts = false)
    (ht : a.traps = false) (hconf : NoConf name (exec d a w).2) :
    Ahead name (exec d a w).2 := by
  have hf := exec_frame d a w
  constructor
  · rw [hf.disks]
    exact h.disk
  · rw [hf.mounts hm]
    exact h.apart
  · rw [hf.mounts hm]
    exact h.free
  · rw [hf.trap ht]
    exact h.trap
  · exact hconf

/-- A command that makes directories at most. -/
theorem Ahead.fill (h : Ahead name w) (d : Decision) {a : Act} (ha : Fills a)
    (hwrite : replaces a = []) (hcopy : ∀ src dst, a ≠ .cpA src dst) :
    Ahead name (exec d a w).2 := by
  have hplain := Fills.plain ha
  have hformats : formats a = false := by
    obtain ⟨_, hdev⟩ := ha
    cases a <;> first | rfl | cases hdev
  apply h.of_frame hplain.1 hplain.2.2
  apply h.conf.step d hformats
  · intro p hp
    rw [hwrite] at hp
    cases hp
  · intro src dst ha'
    exact absurd ha' (hcopy src dst)

theorem Ahead.asks (h : Ahead name w) (d : Decision) {a : Act} (ha : Asks a) :
    Ahead name (exec d a w).2 := by
  apply h.fill d (Asks.fills ha)
  · cases a <;> first | rfl | exact ha.elim
  · rintro src dst rfl
    exact ha.elim

/-- One command in front of the target's mounts. -/
theorem Ahead.step (hnames : NamesAgree name.text) (h : Ahead name w) (d : Decision) {a : Act}
    (ha : EarlyAct name a) : Ahead name (exec d a w).2 := by
  have hmkdir : ∀ routes, Ahead name (exec d (.mkdirP routes) w).2 := fun routes =>
    h.fill d ⟨rfl, rfl⟩ rfl (by simp)
  rcases ha with (ha | rfl | ⟨fs, dev, hdev, rfl⟩ | rfl | rfl) | (ha | ⟨s, rfl⟩ | rfl | rfl) | rfl
  · exact h.asks d ha
  · exact hmkdir _
  · rcases exec_mount d fs true dev bm w with ⟨_, _, he⟩ | he
    · rw [he]
      refine ⟨h.disk, ?_, ?_, h.trap, h.conf.of_vols rfl rfl⟩
      · intro m hm
        rcases List.mem_cons.mp hm with rfl | hm
        · exact searched_apart hnames hdev fs
        · exact h.apart m hm
      · constructor
        · intro hin
          rcases List.mem_cons.mp hin with heq | hin
          · exact absurd (show esp = bm from heq) (by decide)
          · exact h.free.1 hin
        · intro hin
          rcases List.mem_cons.mp hin with heq | hin
          · exact absurd (show mntRoot = bm from heq) (by decide)
          · exact h.free.2 hin
    · rw [he]
      exact h
  · exact h.umount d [bm]
  · rw [exec_setTrap]
    exact ⟨h.disk, h.apart, h.free, fun ops hops => (Option.some.inj hops).symm,
      h.conf.of_vols rfl rfl⟩
  · exact h.asks d ha
  · exact h.of_frame rfl rfl (h.conf.sfdisk h.disk d s)
  · exact h.of_frame rfl rfl (h.conf.mkfs d (Or.inl ⟨rfl, rfl⟩))
  · exact h.of_frame rfl rfl (h.conf.mkfs d (Or.inr ⟨rfl, rfl⟩))
  · exact hmkdir _

/-- Signals do not matter in front of the target's mounts. -/
theorem wp_early_phase (hnames : NamesAgree name.text) {α : Type} {p : Prog Act α}
    (hp : Acts Tested (EarlyAct name) p) (hw : Ahead name w) :
    wp machine (Guarded name answers) (fun _ => True) p (fun _ => Ahead name) (Disarmed name)
      w := by
  refine wp_unarmed (fun _ hv => hv.conf.disarmed) (fun _ d _ ha hv => hv.step hnames d ha) ?_ hp hw
  intro d ops v hv
  have humount := hv.umount d ops
  exact ⟨humount.disk, humount.apart, humount.free, humount.trap, humount.conf.of_vols rfl rfl⟩

end Ahead

/-! ## The target is mounted -/

section Mounting

variable {name : DevName} {answers : List Str} {w : World}

/-- A command under `set -e`: where it fails, the script ends, and the target
is not armed because the environment is guarded. -/
theorem wp_cmd_guarded {a : Act} {next : World → Prop}
    (h : ∀ d, Guarded name answers (machine.event a d w) → (exec d a w).1.status = 0 →
      resume machine (Guarded name answers) (fun _ => True) (Disarmed name) d next
        (exec d a w).2) :
    wp machine (Guarded name answers) (fun _ => True) (cmd a) (fun _ => next) (Disarmed name)
      w := by
  intro d hA
  refine ⟨trivial, ?_⟩
  show resume machine _ _ _ d (wp machine _ _ (if (exec d a w).1.status = 0 then Prog.ret ()
    else .exit (exec d a w).1.status) _ _) (exec d a w).2
  by_cases h0 : (exec d a w).1.status = 0
  · rw [if_pos h0]
    exact h d hA h0
  · rw [if_neg h0]
    have hdisarmed := hA.disarmed (Or.inl h0)
    refine resume_kept hdisarmed hdisarmed ?_
    intro d' ops _ _ harmed
    exact hdisarmed (umount_armed d' ops (harmed.of_vols rfl rfl))

/-- The target is not mounted, and not armed. -/
def Lost (name : DevName) (w : World) : Prop :=
  Apart (espVol name) (rootVol name) w.mounts ∧ ¬ Armed name w

/-- The target is mounted, and the trap takes all of it away. -/
structure Inside (name : DevName) (w : World) : Prop where
  full : ∃ rest, Full (espVol name) (rootVol name) rest w
  trap : ∀ o, w.trap = some o → o = [esp, mntRoot, bm]

/-- Only the new root is mounted. -/
structure Half (name : DevName) (ops : List Path) (w : World) : Prop where
  mounts : ∃ rest, w.mounts = ⟨mntRoot, rootVol name⟩ :: rest ∧
    Apart (espVol name) (rootVol name) rest ∧ esp ∉ points rest
  trap : ∀ o, w.trap = some o → o = ops
  conf : NoConf name w

theorem status_umount {d : Decision} {ops : List Path}
    (h : (exec d (.umount ops) w).1.status = 0) :
    umountOk w.held ops (points w.mounts) = true ∧
      (exec d (.umount ops) w).2 = { w with mounts := umountAll w.held ops w.mounts } := by
  cases hd : d.fails with
  | true => simp [exec, hd, failed] at h
  | false =>
      rw [exec_umount hd] at h ⊢
      refine ⟨?_, rfl⟩
      by_contra hno
      simp [hno, failed] at h

/-- A trap that succeeds from inside takes the target away. -/
theorem resume_inside (h : Inside name w) (hw : ¬ Armed name w) {d : Decision}
    (hsig : d.signal ≠ none) :
    resume machine (Guarded name answers) (fun _ => True) (Disarmed name) d
      (Lost name) w := by
  apply resume_disarmed hw hsig
  intro d' ops hops h0
  obtain ⟨rest, hfull⟩ := h.full
  obtain rfl := h.trap ops hops
  obtain ⟨hok, heq⟩ := status_umount h0
  refine ⟨?_, fun harmed => hw (umount_armed d' _ (harmed.of_vols rfl rfl))⟩
  rw [heq]
  exact hfull.umount hok

theorem Half.of_mounts {ops : List Path} (h : Half name ops w) {v : World}
    (hm : v.mounts = w.mounts) (ht : v.trap = w.trap) (hconf : NoConf name v) :
    Half name ops v := by
  refine ⟨?_, ?_, hconf⟩
  · rw [hm]
    exact h.mounts
  · rw [ht]
    exact h.trap

/-- The search's trap does not touch the new root. -/
theorem Half.umount_bm (h : Half name [bm] w) (d : Decision) :
    Half name [bm] (exec d (.umount [bm]) w).2 := by
  obtain ⟨rest, hmounts, hapart, hfree⟩ := h.mounts
  have hf := exec_frame d (.umount [bm]) w
  refine ⟨?_, ?_, h.conf.of_vols (exec_umount_vols d _ w) (hf.layout rfl)⟩
  · cases hd : d.fails with
    | true =>
        refine ⟨rest, ?_, hapart, hfree⟩
        simpa [exec, hd] using hmounts
    | false =>
        have hne : bm ≠ mntRoot := by decide
        obtain ⟨rest', heq, hsub⟩ := umountOne_cons w.held (m := ⟨mntRoot, rootVol name⟩) hne rest
        refine ⟨rest', ?_, fun m hm => hapart m (hsub m hm), ?_⟩
        · rw [exec_umount hd]
          show umountAll w.held [bm] w.mounts = _
          rw [umountAll, umountAll, hmounts]
          exact heq
        · intro hin
          obtain ⟨m, hm, hp⟩ := List.mem_map.mp hin
          exact hfree (List.mem_map.mpr ⟨m, hsub m hm, hp⟩)
  · rw [hf.trap rfl]
    exact h.trap

/-- The target's trap cannot succeed while the ESP is not mounted. -/
theorem Half.not_umount (h : Half name [esp, mntRoot, bm] w) (d : Decision) :
    (exec d (.umount [esp, mntRoot, bm]) w).1.status ≠ 0 := by
  intro h0
  obtain ⟨rest, hmounts, _, hfree⟩ := h.mounts
  obtain ⟨hok, _⟩ := status_umount h0
  rw [umountOk, Bool.and_eq_true, canUmount, Bool.and_eq_true, mountedOn, hmounts] at hok
  have hin := List.contains_iff_mem.mp hok.1.1
  rcases List.mem_cons.mp hin with heq | hin
  · exact absurd (show esp = mntRoot from heq) (by decide)
  · exact hfree hin

theorem resume_half_bm (h : Half name [bm] w) (d : Decision) :
    resume machine (Guarded name answers) (fun _ => True) (Disarmed name) d
      (Half name [bm]) w := by
  refine resume_kept h.conf.disarmed h ?_
  intro d' ops hops _
  obtain rfl := h.trap ops hops
  have humount := h.umount_bm d'
  exact humount.of_mounts rfl rfl (humount.conf.of_vols rfl rfl)

theorem resume_half (h : Half name [esp, mntRoot, bm] w) (d : Decision) :
    resume machine (Guarded name answers) (fun _ => True) (Disarmed name) d
      (Half name [esp, mntRoot, bm]) w := by
  refine resume_kept h.conf.disarmed h ?_
  intro d' ops hops h0
  obtain rfl := h.trap ops hops
  exact absurd h0 (h.not_umount d')

/-- Lines 101 to 106. -/
theorem mountTarget_spec (hnames : NamesAgree name.text) (hw : Ahead name w) :
    wp machine (Guarded name answers) (fun _ => True) (mountTarget (devPath name.text))
      (fun _ v => (Inside name v ∧ NoConf name v) ∨ Lost name v) (Disarmed name) w := by
  have hesp := espVol_eq hnames
  have hroot := rootVol_eq hnames
  apply wp_bind
  refine wp_mono ?_ (fun _ _ hx => hx)
    (wp_early_phase hnames (acts_cmd (Or.inr (Or.inr rfl))) hw)
  intro _ v hv
  apply wp_bind
  refine wp_mono (Q := fun _ => Half name [bm]) ?_ (fun _ _ hx => hx) (wp_cmd_guarded ?_)
  · intro _ v hv
    apply wp_bind
    refine wp_mono (Q := fun _ => Half name [esp, mntRoot, bm]) ?_ (fun _ _ hx => hx)
      (wp_cmd_guarded ?_)
    · intro _ v hv
      apply wp_bind
      refine wp_mono (Q := fun _ => Half name [esp, mntRoot, bm]) ?_ (fun _ _ hx => hx)
        (wp_cmd_guarded ?_)
      · intro _ v hv
        apply wp_cmd_guarded
        intro d hA h0
        rcases exec_mount d .vfat false (partP (devPath name.text) 1) esp v with ⟨_, _, he⟩ | he
        · obtain ⟨rest, hmounts, hapart, _⟩ := hv.mounts
          have hinside : Inside name (exec d (.mount .vfat false (partP (devPath name.text) 1) esp)
              v).2 := by
            rw [he]
            refine ⟨⟨rest, ?_, hapart⟩, hv.trap⟩
            rw [hesp, hmounts]
          have hconf : NoConf name (exec d (.mount .vfat false (partP (devPath name.text) 1) esp)
              v).2 := by
            rw [he]
            exact hv.conf.of_vols rfl rfl
          by_cases hsig : d.signal = none
          · exact resume_quiet hsig (Or.inl ⟨hinside, hconf⟩)
          · exact resume_mono (fun _ _ hx => hx) (fun _ hx => Or.inr hx)
              (resume_inside hinside hconf.disarmed hsig)
        · rw [he] at h0
          exact absurd h0 Nat.one_ne_zero
      · intro d _ _
        have hf := exec_frame d (.mkdirP [esp]) v
        refine resume_half (hv.of_mounts (hf.mounts rfl) (hf.trap rfl) ?_) d
        exact hv.conf.step d rfl (fun p hp => by cases hp) (by simp)
    · intro d _ _
      have hhalf : Half name [esp, mntRoot, bm] { v with trap := some [esp, mntRoot, bm] } :=
        ⟨hv.mounts, fun o ho => (Option.some.inj ho).symm, hv.conf.of_vols rfl rfl⟩
      rw [exec_setTrap]
      exact resume_half hhalf d
  · intro d _ h0
    rcases exec_mount d .ext4 false (partP (devPath name.text) 2) mntRoot v with ⟨_, _, he⟩ | he
    · have hhalf : Half name [bm] { v with
          mounts := ⟨mntRoot, .dev (partP (devPath name.text) 2) .ext4⟩ :: v.mounts } :=
        ⟨⟨v.mounts, by rw [hroot], hv.apart, hv.free.1⟩, hv.trap, hv.conf.of_vols rfl rfl⟩
      rw [he]
      exact resume_half_bm hhalf d
    · rw [he] at h0
      exact absurd h0 Nat.one_ne_zero

end Mounting

/-! ## The target is filled -/

section Filling

variable {name : DevName} {answers : List Str} {w : World}

/-- The commands behind the target's mounts. -/
def Late (a : Act) : Prop := formats a = false ∧ ∀ fs ro dev p, a ≠ .mount fs ro dev p

theorem Fills.late {a : Act} (h : Fills a) : Late a := by
  obtain ⟨hfiles, hdev⟩ := h
  constructor
  · cases a <;> first | rfl | cases hdev
  · rintro fs ro dev p rfl
    cases hfiles

theorem Concludes.late {a : Act} (h : Concludes a) : Late a := by
  constructor
  · cases a <;> first | rfl | exact h.elim
  · rintro fs ro dev p rfl
    exact h.elim

theorem Late.layout {a : Act} (h : Late a) (d : Decision) : (exec d a w).2.layout = w.layout := by
  apply (exec_frame d a w).layout
  cases a <;> first | rfl | cases h.1

/-- Late commands only take mounts away. -/
theorem Late.mounts {a : Act} (h : Late a) (d : Decision) :
    ∀ m ∈ (exec d a w).2.mounts, m ∈ w.mounts := by
  intro m hm
  by_cases hr : a.remounts = false
  · rw [(exec_frame d a w).mounts hr] at hm
    exact hm
  · cases a
    case mount fs ro dev p => exact absurd rfl (h.2 fs ro dev p)
    case umount ops =>
      simp only [exec] at hm
      split at hm
      · exact hm
      · exact umountAll_sub _ _ _ m hm
    all_goals exact absurd rfl hr

/-- An unmounted target does not change any more. -/
theorem Lost.step (h : Lost name w) (d : Decision) {a : Act} (ha : Late a) :
    Lost name (exec d a w).2 := by
  refine ⟨fun m hm => h.1 m (ha.mounts d m hm), fun harmed => h.2 ?_⟩
  apply harmed.congr
  · intro q
    exact exec_look_unmounted d ha.1 espVol_ne_live (fun m hm => (h.1 m hm).1) q
  · intro q
    exact exec_look_unmounted d ha.1 rootVol_ne_live (fun m hm => (h.1 m hm).2) q
  · exact ha.layout d

theorem Lost.umount (h : Lost name w) (d : Decision) (ops : List Path) :
    Lost name { (exec d (.umount ops) w).2 with interrupted := true } := by
  have hstep := h.step d (a := .umount ops) ⟨rfl, by simp⟩
  exact ⟨hstep.1, fun harmed => hstep.2 (harmed.of_vols rfl rfl)⟩

/-- Once the target is lost, the rest of the script does not matter. -/
theorem wp_lost {α : Type} {p : Prog Act α} (hp : Acts Tested Late p) (hw : Lost name w) :
    wp machine (Guarded name answers) (fun _ => True) p (fun _ => Lost name) (Disarmed name) w :=
  wp_unarmed (fun _ hv => hv.2) (fun _ d _ ha hv => hv.step d ha)
    (fun d ops _ hv => hv.umount d ops) hp hw

/-- The target is mounted, or lost. -/
def InsideOr (name : DevName) (extra : World → Prop) (w : World) : Prop :=
  (Inside name w ∧ extra w) ∨ Lost name w

/-- A part of the script, continued from both states. -/
theorem wp_inside_then {α β : Type} {p : Prog Act α} {k : α → Prog Act β} {Q : β → World → Prop}
    (extra : α → World → Prop)
    (hp : wp machine (Guarded name answers) (fun _ => True) p
      (fun a => InsideOr name (extra a)) (Disarmed name) w)
    (hk : ∀ a v, Inside name v → extra a v →
      wp machine (Guarded name answers) (fun _ => True) (k a) Q (Disarmed name) v)
    (hacts : ∀ a, Acts Tested Late (k a)) (hQ : ∀ b v, Lost name v → Q b v) :
    wp machine (Guarded name answers) (fun _ => True) (p >>= k) Q (Disarmed name) w := by
  apply wp_bind
  refine wp_mono ?_ (fun _ _ hx => hx) hp
  intro a v hv
  rcases hv with ⟨hin, hextra⟩ | hlost
  · exact hk a v hin hextra
  · exact wp_mono (fun b u hu => hQ b u hu) (fun _ _ hx => hx) (wp_lost (hacts a) hlost)

theorem Inside.step (h : Inside name w) (d : Decision) {a : Act} (hm : a.remounts = false)
    (ht : a.traps = false) : Inside name (exec d a w).2 := by
  have hf := exec_frame d a w
  obtain ⟨rest, hfull⟩ := h.full
  refine ⟨⟨rest, hfull.of_mounts (hf.mounts hm)⟩, ?_⟩
  rw [hf.trap ht]
  exact h.trap

/-- After a command, the target is still mounted, unless a signal has taken it
away. -/
theorem resume_step (h : Inside name w) {d : Decision} {a : Act} (hm : a.remounts = false)
    (ht : a.traps = false) (hA : Guarded name answers (machine.event a d w))
    {extra : World → Prop} (hextra : d.signal = none → extra (exec d a w).2) :
    resume machine (Guarded name answers) (fun _ => True) (Disarmed name) d
      (InsideOr name extra) (exec d a w).2 := by
  have hafter := h.step d hm ht
  by_cases hsig : d.signal = none
  · exact resume_quiet hsig (Or.inl ⟨hafter, hextra hsig⟩)
  · exact resume_mono (fun _ _ hx => hx) (fun _ hx => Or.inr hx)
      (resume_inside hafter (hA.disarmed (Or.inr hsig)) hsig)

/-- The same for a target that may be lost already. -/
theorem resume_insideOr {extra : World → Prop} (h : InsideOr name extra w) {d : Decision} {a : Act}
    (ha : Late a) (hm : a.remounts = false) (ht : a.traps = false)
    (hA : Guarded name answers (machine.event a d w))
    (hextra : Inside name w → extra w → extra (exec d a w).2) :
    resume machine (Guarded name answers) (fun _ => True) (Disarmed name) d
      (InsideOr name extra) (exec d a w).2 := by
  rcases h with ⟨hin, hw⟩ | hlost
  · exact resume_step hin hm ht hA (fun _ => hextra hin hw)
  · have hafter := hlost.step d ha
    exact resume_kept hafter.2 (Or.inr hafter) (fun d' ops _ _ => Or.inr (hafter.umount d' ops))

/-- A command under `set -e` inside the target. -/
theorem wp_inside_cmd {a : Act} {extra : World → Prop} (h : Inside name w)
    (hm : a.remounts = false) (ht : a.traps = false)
    (hextra : ∀ d, (exec d a w).1.status = 0 → extra (exec d a w).2) :
    wp machine (Guarded name answers) (fun _ => True) (cmd a)
      (fun _ => InsideOr name extra) (Disarmed name) w := by
  apply wp_cmd_guarded
  intro d hA h0
  exact resume_step h hm ht hA (fun _ => hextra d h0)

/-- Copying keeps the ESP without a configuration. -/
theorem NoConf.copies (h : NoConf name w) (hin : Inside name w) (d : Decision) {a : Act}
    (ha : Copies a) : NoConf name (exec d a w).2 := by
  obtain ⟨rest, hfull⟩ := hin.full
  have hpath : ∀ p, p ≠ limineConfPath → w.locate p ≠ (espVol name, confFile) := by
    intro p hp hloc
    exact hp (hfull.esp_path espVol_ne_rootVol espVol_ne_live hloc)
  apply h.step d (Fills.late (Copies.fills ha)).1
  · intro p hp
    apply hpath
    cases a
    case cp => rw [List.mem_singleton.mp hp]; exact ha
    case touch => rw [List.mem_singleton.mp hp]; exact ha
    case mv | write | openOut => exact ha.elim
    all_goals cases hp
  · rintro src dst rfl
    obtain rfl : dst = mntRoot := ha
    have hnot : ¬ esp <+: mntRoot ++ [src] := by
      intro hpre
      have hlen := hpre.length_le
      simp [esp, mntRoot] at hlen
    rw [hfull.locate_root hnot]
    exact espVol_ne_rootVol.symm

/-- Lines 108 to 134. -/
theorem wp_copies {α : Type} {p : Prog Act α} (hp : Acts Tested Copies p) (hin : Inside name w)
    (hconf : NoConf name w) :
    wp machine (Guarded name answers) (fun _ => True) p (fun _ => InsideOr name (NoConf name))
      (Disarmed name) w := by
  refine wp_invariant (P := Copies) ?_ ?_ hp (Or.inl ⟨hin, hconf⟩)
  · intro a d v ha hv hA
    have hplain := Fills.plain (Copies.fills ha)
    exact ⟨trivial, resume_insideOr hv (Fills.late (Copies.fills ha)) hplain.1 hplain.2.2 hA
      (fun hin hconf => hconf.copies hin d ha)⟩
  · intro s v _ hv
    rcases hv with ⟨_, hconf⟩ | hlost
    · exact hconf.disarmed
    · exact hlost.2

end Filling

end Slinux.Installer.Guard
