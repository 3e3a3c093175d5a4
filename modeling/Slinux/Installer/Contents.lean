import Slinux.Installer.Groups
import Slinux.Installer.Operands

/-!
# What a finished installation contains

Lines 127 to 193 write the files that make the new system, one after the
other, each by a few commands, and none of them is touched again.  For each of
these parts this module says what it leaves if it comes to its end, and that
it comes to its end if its operands exist: the kernel, the boot loader and the
rescue initramfs to copy, the directories to write to, and the group file of
the copied system.

## Main results

* `stored_write`, `stored_cp`, `stored_mv` — what a command leaves at its
  target.
* `copyBootFiles_leads`, `writeNormal_leads`, `writeRescueIf_leads` — the
  files of the ESP.
* `writePasswd_leads`, `writeShadow_leads`, `writeGroup_leads` — the account
  files.
-/

namespace Slinux.Installer.Contents

open Slinux.Shell.Text
open Slinux.Shell.Script
open Slinux.Shell.Logic
open Slinux.Unix.Files
open Slinux.Disk.Name
open Slinux.Disk.Dump
open Slinux.Installer.Accounts
open Slinux.Installer.Bootloader
open Slinux.Installer.System
open Slinux.Installer.Effects
open Slinux.Installer.Script
open Slinux.Installer.Files
open Slinux.Installer.Target
open Slinux.Installer.Guard
open Slinux.Installer.Groups
open Slinux.Installer.Operands

/-! ## Commands that store -/

/-- A path below the top of one of the two volumes. -/
def Inner (p : Path) : Prop :=
  (∃ q, q ≠ [] ∧ p = esp ++ q) ∨ ∃ q, q ≠ [] ∧ p = mntRoot ++ q ∧ ¬ esp <+: p

theorem inner_esp {q : Path} (hq : q ≠ []) : Inner (esp ++ q) := Or.inl ⟨q, hq, rfl⟩

theorem inner_etc (file : Str) : Inner (etc file) := by
  refine Or.inr ⟨["etc".toList, file], by simp, rfl, ?_⟩
  intro hpre
  have hthird : ["boot".toList, "efi".toList] <+: ["etc".toList, file] :=
    (List.prefix_append_right_inj mntRoot).mp hpre
  exact absurd (List.cons_prefix_cons.mp hthird).1 (by decide)

section Store

variable {name : DevName} {rest : List (Mount VolId)} {w v : World} {p : Path}

/-- A file of the target is on the volume of its directory. -/
theorem locate_dropLast (h : Mounted name rest w) (hp : Inner p) :
    w.locate p.dropLast = ((w.locate p).1, (w.locate p.dropLast).2) := by
  rcases hp with ⟨q, hq, rfl⟩ | ⟨q, hq, rfl, hout⟩
  · rw [List.dropLast_append_of_ne_nil hq, Full.locate_esp h, Full.locate_esp h]
  · have hout' : ¬ esp <+: mntRoot ++ q.dropLast := fun hpre =>
      hout (hpre.trans ((List.prefix_append_right_inj mntRoot).mpr (List.dropLast_prefix q)))
    rw [List.dropLast_append_of_ne_nil hq, Full.locate_root h hout', Full.locate_root h hout]

theorem stored_write (hw : Mounted name rest w) (hp : Inner p) {append : Bool} {text : Str}
    (hd : Did (.write append p text) w v) :
    see v p = some (.file ((if append then w.text p else []) ++ text)) := by
  obtain ⟨d, h0, rfl⟩ := hd.run
  unfold see
  rw [locate_exec d rfl]
  exact look_write h0 rfl (locate_dropLast hw hp)

theorem stored_append (hw : Mounted name rest w) (hp : Inner p) {t text : Str}
    (ht : see w p = some (.file t)) (hd : Did (.write true p text) w v) :
    see v p = some (.file (t ++ text)) := by
  rw [stored_write hw hp hd, if_pos rfl, text_of_see ht]

theorem stored_openOut (hw : Mounted name rest w) (hp : Inner p) (hd : Did (.openOut p) w v) :
    see v p = some (.file []) := by
  obtain ⟨d, h0, rfl⟩ := hd.run
  unfold see
  rw [locate_exec d rfl]
  exact look_openOut h0 rfl (locate_dropLast hw hp)

theorem stored_cp (hw : Mounted name rest w) (hp : Inner p) {src : Path}
    (hd : Did (.cp src p) w v) : see v p = some (.file (w.text src)) := by
  obtain ⟨d, h0, rfl⟩ := hd.run
  unfold see
  rw [locate_exec d rfl]
  exact look_cp h0 rfl (locate_dropLast hw hp)

/-- A file that is moved inside `/etc`. -/
theorem stored_mv (hw : Mounted name rest w) {src dst : Str} (hne : src ≠ dst)
    (hd : Did (.mv (etc src) (etc dst)) w v) : see v (etc dst) = see w (etc src) := by
  obtain ⟨d, h0, rfl⟩ := hd.run
  unfold see
  rw [locate_exec d rfl, Full.locate_etc hw, Full.locate_etc hw]
  refine look_mv h0 (Full.locate_etc hw src) (Full.locate_etc hw dst) ?_
  intro h
  exact hne (List.cons.inj (List.cons.inj h).2).1

end Store

/-! ## The boot files -/

/-- What `PU` is, if it is not empty. -/
theorem dump_layout {name : DevName} {w : World} (hnames : NamesAgree name.text)
    (hdisk : name ∈ w.disks) {t : Layout} (hlayout : w.layout = some t) :
    extractPU (devPath name.text) (w.dump (devPath name.text)) = t.root.uuid.text := by
  unfold World.dump
  rw [diskOf_devPath hdisk, hlayout]
  exact extractPU_layout t name (diskP_eq_partNode hnames 2)

def initrdFile : Path := ["initramfs.cpio.gz".toList]

/-- The boot files of lines 130 and 131. -/
def bootFiles : List Path := [esp ++ kernelFile, esp ++ loaderFile]

section Boot

variable {sure : Prop} {name : DevName} {rest : List (Mount VolId)} {w : World}

/-- A command that replaces files of the list and opens nothing. -/
theorem calls_cmd {ps : List Path} {a : Act} (hf : Fills a) (hc : ∀ src dst, a ≠ .cpA src dst)
    (hp : ∀ p ∈ replaces a, p ∈ ps) :
    Acts Tested (fun a => Calls ps a ∧ a.redirects = false) (cmd a) := by
  have hplain := Mounts.Fills.plain hf
  exact acts_cmd ⟨⟨(Fills.late hf).1, hplain.1, hc, hp⟩, hplain.2.1⟩

theorem copyBootFiles_calls (disk : Str) (f : Found) :
    Acts Tested (fun a => Calls bootFiles a ∧ a.redirects = false) (copyBootFiles disk f) := by
  refine acts_bind (calls_cmd ⟨rfl, rfl⟩ (by simp) (by simp [replaces])) (fun _ => ?_)
  refine acts_bind (calls_cmd ⟨rfl, rfl⟩ (by simp) (by simp [replaces])) (fun _ => ?_)
  refine acts_bind (calls_cmd ⟨rfl, rfl⟩ (by simp) (by simp [replaces, bootFiles, kernelFile]))
    (fun _ => ?_)
  refine acts_bind (calls_cmd ⟨rfl, rfl⟩ (by simp) ?_) (fun _ => ?_)
  · intro p hp
    rw [List.mem_singleton.mp hp]
    exact List.mem_cons_of_mem _ (List.mem_singleton.mpr rfl)
  refine acts_bind (acts_capture ⟨⟨rfl, rfl, by simp, by simp [replaces]⟩, rfl⟩) (fun pu => ?_)
  by_cases h : pu = []
  · rw [if_pos h]
    exact acts_bind (calls_cmd ⟨rfl, rfl⟩ (by simp) (by simp [replaces]))
      (fun _ => Nat.one_ne_zero)
  · rw [if_neg h]
    trivial

/-- What lines 127 to 134 need. -/
structure BootReady (f : Found) (w : World) : Prop where
  sane : Sane w
  esp : w.isDir esp = true
  kernel : w.isFile f.kernel = true
  loader : w.isFile limineEfi = true

/-- Lines 127 to 134. -/
theorem copyBootFiles_leads (hnames : NamesAgree name.text) (hw : Mounted name rest w)
    (hdisk : name ∈ w.disks) {t : Layout} (hlayout : w.layout = some t) (f : Found)
    (hready : sure → BootReady f w) :
    Leads sure (copyBootFiles (devPath name.text) f)
      (fun pu v => pu = t.root.uuid.text ∧ v.isFile (esp ++ kernelFile) = true ∧
        v.isFile (esp ++ loaderFile) = true ∧ (sure → v.isDir espBoot = true)) w := by
  have hkernel : Inner (esp ++ kernelFile) := inner_esp (by decide)
  have hloader : Inner (esp ++ loaderFile) := inner_esp (by decide)
  apply leads_cmd (fun _ => rfl)
  intro v₁ h₁
  have hw₁ := hw.after h₁ rfl
  have hkeep₁ := h₁.keep_all ⟨rfl, rfl, by simp, by simp [replaces]⟩
  apply leads_cmd (fun _ => rfl)
  intro v₂ h₂
  have hw₂ := hw₁.after h₂ rfl
  have hkeep₂ := hkeep₁.trans (h₂.keep_all ⟨rfl, rfl, by simp, by simp [replaces]⟩)
  have hboot : sure → v₂.isDir espBoot = true := fun hs =>
    h₂.made (hkeep₁.sane (hready hs).sane) (List.mem_singleton.mpr rfl)
  have hfile : ∀ {p : Path}, w.isFile p = true → v₂.isFile p = true :=
    fun hp => hkeep₂.isFile List.not_mem_nil hp
  apply leads_cmd (a := .cp f.kernel (esp ++ kernelFile)) (fun hs => by
    have hesp := hkeep₂.isDir List.not_mem_nil (hready hs).esp
    rw [operands, hfile (hready hs).kernel]
    exact hesp)
  intro v₃ h₃
  have hw₃ := hw₂.after h₃ rfl
  have hk₃ := stored_cp hw₂ hkernel h₃
  have hkeep₃ : Keep [esp ++ kernelFile] v₂ v₃ :=
    h₃.keep ⟨rfl, rfl, by simp, by simp [replaces]⟩ (by decide) hw₂
  apply leads_cmd (a := .cp limineEfi (esp ++ loaderFile)) (fun hs => by
    rw [operands, hkeep₃.isFile (by decide) (hfile (hready hs).loader)]
    exact hkeep₃.isDir (p := espBoot) (by decide) (hboot hs))
  intro v₄ h₄
  have hw₄ := hw₃.after h₄ rfl
  have hl₄ := stored_cp hw₃ hloader h₄
  have hkeep₄ : Keep [esp ++ loaderFile] v₃ v₄ :=
    h₄.keep ⟨rfl, rfl, by simp, by simp [replaces]⟩ (by decide) hw₃
  have hdisk₄ : name ∈ v₄.disks := by
    rw [h₄.frame.disks, h₃.frame.disks, h₂.frame.disks, h₁.frame.disks]
    exact hdisk
  have hlayout₄ : v₄.layout = some t := by
    rw [h₄.frame.layout rfl, h₃.frame.layout rfl, h₂.frame.layout rfl, h₁.frame.layout rfl]
    exact hlayout
  apply leads_capture (fun _ => rfl)
  intro d hA _
  have hout : (exec d (.readPU (devPath name.text)) v₄).1.out
      = if d.fails = true then [] else t.root.uuid.text := by
    rw [← dump_layout hnames hdisk₄ hlayout₄]
    rfl
  rw [hout]
  show Leads sure _ _ v₄
  cases hfails : d.fails with
  | true =>
      rw [if_pos rfl, if_pos rfl]
      have hno : ¬ sure := fun hs => by
        have hgood : d.fails = false := ((hA.2 hs).2 rfl).1
        rw [hfails] at hgood
        cases hgood
      exact leads_cmd (fun hs => absurd hs hno) (fun _ _ => hno)
  | false =>
      have hpu : (if false = true then [] else t.root.uuid.text) = t.root.uuid.text := rfl
      rw [hpu, if_neg t.root.uuid.ne]
      exact ⟨rfl, (isFile_iff _ _).mpr ⟨_, hkeep₄.files _ (by decide) _ hk₃⟩,
        (isFile_iff _ _).mpr ⟨_, hl₄⟩,
        fun hs => hkeep₄.isDir (by decide) (hkeep₃.isDir (by decide) (hboot hs))⟩

/-- A redirection holds its file open. -/
theorem held_openOut {p : Path} {v : World} (hd : Did (.openOut p) w v) :
    v.held = p :: w.held := by
  obtain ⟨d, h0, rfl⟩ := hd.run
  rcases exec_openOut d p w with ⟨_, he⟩ | he
  · rw [he]
  · rw [he] at h0
    exact absurd h0 Nat.one_ne_zero

theorem writeNormal_calls (pu : Str) : Acts Tested (Calls [limineConfPath]) (writeNormal pu) := by
  have hwrite : ∀ text, Acts Tested (Calls [limineConfPath])
      (cmd (.write true limineConfPath text)) :=
    fun _ => acts_cmd ⟨rfl, rfl, by simp, by simp [replaces]⟩
  refine acts_bind (acts_cmd ⟨rfl, rfl, by simp, by simp [replaces]⟩) (fun _ => ?_)
  exact acts_bind (hwrite _) (fun _ => acts_bind (hwrite _) (fun _ => hwrite _))

/-- Lines 136 to 139. -/
theorem writeNormal_leads (hw : Mounted name rest w) (pu : Str)
    (hboot : sure → w.isDir espBoot = true) :
    Leads sure (writeNormal pu)
      (fun _ v => see v limineConfPath = some (.file (normalHead ++ cmdlineEntry pu)) ∧
        v.held = limineConfPath :: w.held) w := by
  have hconf : Inner limineConfPath := inner_esp (q := confFile) (by decide)
  have hcalls : ∀ {a}, Fills a → (∀ src dst, a ≠ .cpA src dst) → replaces a = [limineConfPath] →
      Calls [limineConfPath] a := fun hf hc hp =>
    ⟨(Fills.late hf).1, (Mounts.Fills.plain hf).1, hc, fun _ h => hp ▸ h⟩
  have hbelow : ∀ p ∈ [limineConfPath], mntRoot <+: p := by decide
  have hout : espBoot ∉ [limineConfPath] := by decide
  apply leads_cmd hboot
  intro v₁ h₁
  have hw₁ := hw.after h₁ rfl
  have hs₁ := stored_openOut hw hconf h₁
  have hk₁ : Keep [limineConfPath] w v₁ :=
    h₁.keep ⟨rfl, rfl, by simp, by simp [replaces]⟩ hbelow hw
  have hd₁ := fun hs : sure => hk₁.isDir hout (hboot hs)
  apply leads_cmd hd₁
  intro v₂ h₂
  have hw₂ := hw₁.after h₂ rfl
  have hs₂ := stored_append hw₁ hconf hs₁ h₂
  have hk₂ := hk₁.trans (h₂.keep (hcalls ⟨rfl, rfl⟩ (by simp) rfl) hbelow hw₁)
  have hd₂ := fun hs : sure => hk₂.isDir hout (hboot hs)
  apply leads_cmd hd₂
  intro v₃ h₃
  have hw₃ := hw₂.after h₃ rfl
  have hs₃ := stored_append hw₂ hconf hs₂ h₃
  have hk₃ := hk₂.trans (h₃.keep (hcalls ⟨rfl, rfl⟩ (by simp) rfl) hbelow hw₂)
  have hd₃ := fun hs : sure => hk₃.isDir hout (hboot hs)
  apply leads_last hd₃
  intro v₄ h₄
  refine ⟨stored_append hw₃ hconf hs₃ h₄, ?_⟩
  rw [h₄.frame.held rfl, h₃.frame.held rfl, h₂.frame.held rfl, held_openOut h₁]

/-- The files of the rescue entry. -/
def rescueFiles : List Path := [esp ++ initrdFile, limineConfPath]

theorem writeRescueIf_calls (initrd : Option Path) :
    Acts Tested (fun a => Calls rescueFiles a ∧ a.redirects = false) (writeRescueIf initrd) := by
  have hwrite : ∀ text, Acts Tested (fun a => Calls rescueFiles a ∧ a.redirects = false)
      (cmd (.write true limineConfPath text)) :=
    fun _ => calls_cmd ⟨rfl, rfl⟩ (by simp) (by simp [replaces, rescueFiles])
  cases initrd with
  | none => trivial
  | some p =>
      refine acts_bind (calls_cmd ⟨rfl, rfl⟩ (by simp) ?_) (fun _ => ?_)
      · intro q hq
        rw [List.mem_singleton.mp hq]
        exact List.mem_cons_self ..
      · exact acts_bind (hwrite _) (fun _ => acts_bind (hwrite _) (fun _ => hwrite _))

/-- What the rescue entry needs. -/
structure RescueReady (initrd : Option Path) (w : World) : Prop where
  esp : w.isDir esp = true
  boot : w.isDir espBoot = true
  initrd : ∀ p ∈ initrd, w.isFile p = true

/-- Lines 140 to 145. -/
theorem writeRescueIf_leads (hw : Mounted name rest w) {c : Str}
    (hc : see w limineConfPath = some (.file c)) (initrd : Option Path)
    (hready : sure → RescueReady initrd w) :
    Leads sure (writeRescueIf initrd)
      (fun _ v => see v limineConfPath
          = some (.file (c ++ if initrd.isSome then rescueEntry else [])) ∧
        (initrd.isSome = true → v.isFile (esp ++ initrdFile) = true)) w := by
  have hconf : Inner limineConfPath := inner_esp (q := confFile) (by decide)
  have hinitrd : Inner (esp ++ initrdFile) := inner_esp (by decide)
  have hbelow : ∀ p ∈ rescueFiles, mntRoot <+: p := by decide
  have hout : espBoot ∉ rescueFiles := by decide
  cases initrd with
  | none =>
      refine ⟨?_, fun h => by cases h⟩
      rw [if_neg (by decide), List.append_nil]
      exact hc
  | some p =>
      have hwrite : ∀ text, Calls rescueFiles (.write true limineConfPath text) :=
        fun _ => ⟨rfl, rfl, by simp, by simp [replaces, rescueFiles]⟩
      have hsingle : ∀ text, Calls [limineConfPath] (.write true limineConfPath text) :=
        fun _ => ⟨rfl, rfl, by simp, by simp [replaces]⟩
      apply leads_cmd (a := .cp p (esp ++ initrdFile)) (fun hs => by
        rw [operands, (hready hs).initrd p rfl]
        exact (hready hs).esp)
      intro v₁ h₁
      have hw₁ := hw.after h₁ rfl
      have hi₁ := stored_cp hw hinitrd h₁
      have hk₁ : Keep [esp ++ initrdFile] w v₁ :=
        h₁.keep ⟨rfl, rfl, by simp, by simp [replaces]⟩ (by decide) hw
      have hc₁ := hk₁.files limineConfPath (by decide) _ hc
      have hb₁ : sure → v₁.isDir espBoot = true := fun hs => hk₁.isDir (by decide) (hready hs).boot
      apply leads_cmd hb₁
      intro v₂ h₂
      have hw₂ := hw₁.after h₂ rfl
      have hc₂ := stored_append hw₁ hconf hc₁ h₂
      have hk₂ := h₂.keep (hsingle _) (by decide) hw₁
      have hd₂ := fun hs : sure => hk₂.isDir (by decide) (hb₁ hs)
      apply leads_cmd hd₂
      intro v₃ h₃
      have hw₃ := hw₂.after h₃ rfl
      have hc₃ := stored_append hw₂ hconf hc₂ h₃
      have hk₃ := hk₂.trans (h₃.keep (hsingle _) (by decide) hw₂)
      have hd₃ := fun hs : sure => hk₃.isDir (by decide) (hb₁ hs)
      apply leads_last hd₃
      intro v₄ h₄
      have hc₄ := stored_append hw₃ hconf hc₃ h₄
      have hk₄ := hk₃.trans (h₄.keep (hsingle _) (by decide) hw₃)
      refine ⟨?_, fun _ => (isFile_iff _ _).mpr ⟨_, hk₄.files _ (by decide) _ hi₁⟩⟩
      rw [List.append_assoc, List.append_assoc] at hc₄
      exact hc₄

end Boot

/-! ## The accounts -/

section Accounts

variable {sure : Prop} {name : DevName} {rest : List (Mount VolId)} {w : World}

/-- The target's `/etc`. -/
def etcDir : Path := mntRoot ++ ["etc".toList]

/-- Writing to a file of the target's `/etc`. -/
theorem calls_etc {ps : List Path} {append : Bool} {file text : Str} (h : etc file ∈ ps) :
    Calls ps (.write append (etc file) text) :=
  ⟨rfl, rfl, by simp, fun _ hp => List.mem_singleton.mp hp ▸ h⟩

def passwdFiles : List Path := [etc "passwd.new".toList, etc "passwd".toList]

theorem writePasswd_calls (user : Str) :
    Acts Tested (fun a => Calls passwdFiles a ∧ a.redirects = false) (writePasswd user) := by
  have hwrite : ∀ append text, Acts Tested (fun a => Calls passwdFiles a ∧ a.redirects = false)
      (cmd (.write append (etc "passwd.new".toList) text)) :=
    fun _ _ => acts_cmd ⟨calls_etc (List.mem_cons_self ..), rfl⟩
  refine acts_bind (hwrite _ _) (fun _ => acts_bind (hwrite _ _) (fun _ =>
    acts_bind (hwrite _ _) (fun _ => ?_)))
  exact calls_cmd ⟨rfl, rfl⟩ (by simp) (fun _ hp => hp)

/-- Lines 165 to 170. -/
theorem writePasswd_leads (hw : Mounted name rest w) (user : Str)
    (hdir : sure → w.isDir etcDir = true) :
    Leads sure (writePasswd user)
      (fun _ v => see v (etc "passwd".toList) = some (.file (passwdFile user))) w := by
  have hnew := inner_etc "passwd.new".toList
  have hcalls : ∀ append text, Calls [etc "passwd.new".toList]
      (.write append (etc "passwd.new".toList) text) :=
    fun _ _ => calls_etc (List.mem_cons_self ..)
  have hbelow : ∀ p ∈ [etc "passwd.new".toList], mntRoot <+: p := by decide
  have hout : etcDir ∉ [etc "passwd.new".toList] := by decide
  apply leads_cmd hdir
  intro v₁ h₁
  have hw₁ := hw.after h₁ rfl
  have hs₁ := stored_write hw hnew h₁
  have hk₁ := h₁.keep (hcalls _ _) hbelow hw
  have hd₁ := fun hs : sure => hk₁.isDir hout (hdir hs)
  apply leads_cmd hd₁
  intro v₂ h₂
  have hw₂ := hw₁.after h₂ rfl
  have hs₂ := stored_append hw₁ hnew hs₁ h₂
  have hk₂ := hk₁.trans (h₂.keep (hcalls _ _) hbelow hw₁)
  have hd₂ := fun hs : sure => hk₂.isDir hout (hdir hs)
  apply leads_cmd hd₂
  intro v₃ h₃
  have hw₃ := hw₂.after h₃ rfl
  have hs₃ := stored_append hw₂ hnew hs₂ h₃
  have hk₃ := hk₂.trans (h₃.keep (hcalls _ _) hbelow hw₂)
  apply leads_last (fun hs => by
    rw [operands, (isFile_iff _ _).mpr ⟨_, hs₃⟩]
    exact hk₃.isDir hout (hdir hs))
  intro v₄ h₄
  rw [stored_mv hw₃ (by decide) h₄]
  exact hs₃

def shadowFiles : List Path := [etc "shadow".toList]

/-- Lines 172 to 177. -/
def writeShadow (a : Accounts) : Prog Act Unit := do
  cmd (.write false (etc "shadow".toList) (shadowRecord rootName a.rhash))
  writeUserShadow a

theorem writeShadow_calls (a : Accounts) :
    Acts Tested (fun a => Calls shadowFiles a ∧ a.redirects = false) (writeShadow a) := by
  have hwrite : ∀ append text, Acts Tested (fun a => Calls shadowFiles a ∧ a.redirects = false)
      (cmd (.write append (etc "shadow".toList) text)) :=
    fun _ _ => acts_cmd ⟨calls_etc (List.mem_cons_self ..), rfl⟩
  refine acts_bind (hwrite _ _) (fun _ => acts_bind (hwrite _ _) (fun _ => ?_))
  exact calls_cmd ⟨rfl, rfl⟩ (by simp) (by simp [replaces])

theorem writeShadow_leads (hw : Mounted name rest w) (a : Accounts)
    (hdir : sure → w.isDir etcDir = true) :
    Leads sure (writeShadow a)
      (fun _ v => see v (etc "shadow".toList)
        = some (.file (shadowFile a.user a.rhash a.uhash))) w := by
  have hshadow := inner_etc "shadow".toList
  have hcalls : ∀ append text, Calls shadowFiles (.write append (etc "shadow".toList) text) :=
    fun _ _ => calls_etc (List.mem_cons_self ..)
  have hbelow : ∀ p ∈ shadowFiles, mntRoot <+: p := by decide
  apply leads_cmd hdir
  intro v₁ h₁
  have hw₁ := hw.after h₁ rfl
  have hs₁ := stored_write hw hshadow h₁
  have hk₁ := h₁.keep (hcalls _ _) hbelow hw
  have hd₁ := fun hs : sure => hk₁.isDir (by decide) (hdir hs)
  apply leads_cmd hd₁
  intro v₂ h₂
  have hw₂ := hw₁.after h₂ rfl
  have hs₂ := stored_append hw₁ hshadow hs₁ h₂
  have hnode : sure → (v₂.node (etc "shadow".toList)).isSome = true := by
    intro _
    have hkind := hs₂
    rw [see_eq] at hkind
    rw [← Option.isSome_map, hkind]
    rfl
  apply leads_last hnode
  intro v₃ h₃
  have hk₃ := h₃.keep_all ⟨rfl, rfl, by simp, by simp [replaces]⟩
  exact hk₃.files _ List.not_mem_nil _ hs₂

def groupFiles : List Path := [etc "group.new".toList, etc "group".toList]

theorem writeGroup_calls (user : Str) : Acts Tested (Calls groupFiles) (writeGroup user) := by
  have hwrite : ∀ append text, Acts Tested (Calls groupFiles)
      (cmd (.write append (etc "group.new".toList) text)) :=
    fun _ _ => acts_cmd (calls_etc (List.mem_cons_self ..))
  refine acts_bind (hwrite _ _) (fun _ => ?_)
  refine acts_bind (acts_capture ⟨rfl, rfl, by simp, by simp [replaces]⟩) (fun _ => ?_)
  refine acts_bind (acts_forEach (fun _ _ => hwrite _ _)) (fun _ => ?_)
  refine acts_bind (acts_cmd ⟨rfl, rfl, by simp, by simp [replaces]⟩) (fun _ => ?_)
  exact acts_cmd ⟨rfl, rfl, by simp, fun _ hp => hp⟩

/-- The new group file can be written. -/
structure GroupReady (w : World) : Prop where
  dir : w.isDir etcDir = true
  new : w.isFile (etc "group.new".toList) = true

/-- A record that is appended. -/
theorem GroupReady.write (hw : Mounted name rest w) {append : Bool} {text : Str} {v : World}
    (hd : Did (.write append (etc "group.new".toList) text) w v)
    (hdir : w.isDir etcDir = true) : GroupReady v := by
  have hkeep : Keep [etc "group.new".toList] w v :=
    hd.keep (calls_etc (List.mem_cons_self ..)) (by decide) hw
  exact ⟨hkeep.isDir (by decide) hdir,
    (isFile_iff _ _).mpr ⟨_, stored_write hw (inner_etc _) hd⟩⟩

theorem forEach_leads (g : Str → Str) (ls : List Str) :
    ∀ {w : World}, Mounted name rest w → (sure → GroupReady w) →
      Leads sure (forEach (fun l => cmd (.write true (etc "group.new".toList) (g l))) ls)
        (fun _ v => v.held = w.held ∧ (sure → GroupReady v)) w := by
  induction ls with
  | nil => intro w _ hready; exact ⟨rfl, hready⟩
  | cons l ls ih =>
      intro w hw hready
      have hdir : sure → w.isDir etcDir = true := fun hs => (hready hs).dir
      apply leads_cmd hdir
      intro v hd
      refine (ih (hw.after hd rfl) (fun hs => GroupReady.write hw hd (hdir hs))).mono ?_
      rintro _ u ⟨hheld, hu⟩
      exact ⟨hheld.trans (hd.frame.held rfl), hu⟩

/-- Lines 179 to 193. -/
theorem writeGroup_leads (hw : Mounted name rest w) (user : Str)
    (hdir : sure → w.isDir etcDir = true)
    (hgroup : sure → w.isFile (etc "group".toList) = true) :
    Leads sure (writeGroup user)
      (fun _ v => v.held = w.held ∧ ∃ old, see w (etc "group".toList) = some (.file old) ∧
        see v (etc "group".toList) = some (.file (groupFile user old))) w := by
  have hend : Leads sure (writeGroup user) (fun _ v => v.held = w.held ∧
      ∃ old, see w (etc "group".toList) = some (.file old)) w := by
    apply leads_cmd hdir
    intro v₁ h₁
    have hw₁ := hw.after h₁ rfl
    have hk₁ : Keep [etc "group.new".toList] w v₁ :=
      h₁.keep (calls_etc (List.mem_cons_self ..)) (by decide) hw
    have hg₁ : sure → v₁.isFile (etc "group".toList) = true :=
      fun hs => hk₁.isFile (by decide) (hgroup hs)
    apply leads_capture hg₁
    intro d _ h0
    have h₂ : Did (.openIn (etc "group".toList)) v₁
        (exec d (.openIn (etc "group".toList)) v₁).2 := ⟨d, h0, rfl⟩
    have hopen : v₁.isFile (etc "group".toList) = true ∧
        (exec d (.openIn (etc "group".toList)) v₁).2.held = etc "group".toList :: v₁.held := by
      rcases exec_openIn d (etc "group".toList) v₁ with ⟨hfile, he⟩ | he
      · rw [he]
        exact ⟨hfile, rfl⟩
      · rw [he] at h0
        exact absurd h0 Nat.one_ne_zero
    obtain ⟨old, hold⟩ := (isFile_iff _ _).mp hopen.1
    have hk₂ := h₂.keep_all ⟨rfl, rfl, by simp, by simp [replaces]⟩
    have hr₂ : sure → GroupReady (exec d (.openIn (etc "group".toList)) v₁).2 := fun hs =>
      have hr₁ := GroupReady.write hw h₁ (hdir hs)
      ⟨hk₂.isDir List.not_mem_nil hr₁.dir, hk₂.isFile List.not_mem_nil hr₁.new⟩
    have hw₂ := hw₁.after h₂ rfl
    apply leads_bind
    have hloop := forEach_leads (groupLine user)
      (fileLines (exec d (.openIn (etc "group".toList)) v₁).1.out) hw₂ hr₂
    refine hloop.mono ?_
    rintro _ v₃ ⟨hheld₃, hr₃⟩
    apply leads_cmd (fun _ => rfl)
    intro v₄ h₄
    have hview : Smooth.SameView v₃ v₄ ∧ v₄.held = v₃.held.tail := by
      obtain ⟨d', _, rfl⟩ := h₄.run
      rw [exec_close]
      exact ⟨⟨rfl, rfl⟩, rfl⟩
    have hmv : sure → operands (.mv (etc "group.new".toList) (etc "group".toList)) v₄ = true := by
      intro hs
      have hfile : v₄.isFile (etc "group.new".toList) = true := by
        unfold World.isFile
        rw [hview.1.node]
        exact (hr₃ hs).new
      rw [operands, hfile]
      exact (hview.1.isDir etcDir).trans (hr₃ hs).dir
    apply leads_last hmv
    intro v₅ h₅
    refine ⟨?_, old, (hk₁.grown _ (by decide)).was hold⟩
    rw [h₅.frame.held rfl, hview.2, hheld₃, hopen.2, h₁.frame.held rfl]
    rfl
  refine (hend.and (writeGroup_look Cooperates.quiet user hw)).mono ?_
  rintro _ v ⟨⟨hheld, old, hold⟩, hfull, hlook⟩
  refine ⟨hheld, old, hold, ?_⟩
  unfold see
  rw [hfull.locate_etc, ← text_of_see hold]
  exact hlook

/-! ### The dialogue -/

/-- In a sure environment prompts that have a line to read return it. -/
theorem obliging_sure (hs : sure) : Prompts.Obliging (Cooperates sure) (fun _ => True) := by
  intro a d w w' out ha _ hA hp
  have hcan : operands a w = true := by
    cases a
    case say | sleep | cryptpw => rfl
    case readLine | getpass =>
      simp only [perform, Option.map_eq_some_iff, Prod.mk.injEq] at hp
      obtain ⟨l, rfl, _⟩ := hp
      rfl
    case isFile | isDir =>
      simp only [perform, Option.ite_none_right_eq_some] at hp
      exact hp.1
    case isBlock =>
      simp only [perform, Option.ite_none_right_eq_some] at hp
      exact List.contains_iff_mem.mpr hp.1
    all_goals exact ha.elim
  have hord : a.ordinary = true := by cases a <;> first | exact ha.elim | rfl
  exact ⟨hA.1, Smooth.exec_of_perform ((hA.2 hs).2 hcan).1 hord hp, trivial⟩

/-- The name of the new user is one that the prompt accepts. -/
theorem askAccounts_returns (as : List Str) :
    Returns (fun a => acceptsUser a.user = true) (askAccounts as) := by
  have hname : ∀ as, Returns (fun r => acceptsUser r.1 = true) (askUser as) := by
    intro as
    induction as with
    | nil => exact returns_bind _ (fun _ => returns_bind _ (fun _ => trivial))
    | cons l as ih =>
        refine returns_bind _ (fun _ => returns_bind _ (fun user => ?_))
        by_cases h : acceptsUser user = true
        · rw [if_pos h]
          exact h
        · rw [if_neg h]
          exact returns_bind _ (fun _ => ih)
  refine returns_bind _ (fun _ => returns_bind _ (fun r => returns_bind _ (fun _ => ?_)))
  refine returns_then (hname r.2) (fun user huser => ?_)
  exact returns_bind _ (fun _ => returns_bind _ (fun _ => huser))

/-- Lines 148 to 160. -/
theorem askAccounts_leads (as : List Str)
    (haccept : sure → (Prompts.takeAccounts as).isSome = true) :
    Leads sure (askAccounts as) (fun a _ => acceptsUser a.user = true) w := by
  have hend : Leads sure (askAccounts as) (fun _ _ => True) w := by
    by_cases hs : sure
    · obtain ⟨user, huser⟩ := Option.isSome_iff_exists.mp (haccept hs)
      exact wp_mono (fun _ _ _ => trivial) (fun _ _ hx => hx)
        (Prompts.askAccounts_accepts (obliging_sure hs) huser trivial)
    · exact wp_mono (fun _ _ h => h) (fun _ _ _ => hs) (wp_trivial _)
  exact Leads.mono (wp_returns (askAccounts_returns as) hend) (fun _ _ h => h.1)

theorem askAccounts_calls (as : List Str) :
    Acts Tested (fun a => Calls [] a ∧ a.redirects = false) (askAccounts as) := by
  refine (askAccounts_asks as).mono (fun a ha => ?_)
  have hplain := Mounts.Fills.plain (Asks.fills ha)
  refine ⟨⟨(Fills.late (Asks.fills ha)).1, hplain.1, ?_, ?_⟩, hplain.2.1⟩
  · rintro src dst rfl
    exact ha.elim
  · intro p hp
    cases a <;> first | exact ha.elim | cases hp

end Accounts

end Slinux.Installer.Contents
