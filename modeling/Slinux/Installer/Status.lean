import Slinux.Installer.Course

/-!
# What the exit status says

Under `set -e` the status of every command that is not tested decides whether
`slinux-install` goes on, and the status of the whole script is zero only if it
comes to its last line.  This module follows the script from the search to
that line, in both directions at once: what a run that gets there has left
(`Installed`), and that a run gets there if every command succeeds whose
operands exist.

Each part of the walk is a `Leads` statement about one group of lines, with
the state it needs as a premise that matters only where we are sure of the
environment.  The last lines are the interesting ones.  `umount /tmp/bm` is
neither tested nor guarded, although the script offers to install without a
boot medium, so without one it ends with status one and without its last
message, with the installation complete.

## Main results

* `installOn_leads` — lines 82 to 202, in both directions.
* `exit_status_truthful` — the exit status is zero **iff** a boot medium was
  found, where nothing else is in the way; and if it is zero, the ESP and the
  new root have what they should have.
* `exit_status_without_medium` — the run that fails for nothing but the missing
  medium.
-/

namespace Slinux.Installer.Status

open Slinux.Shell.Text
open Slinux.Shell.Script
open Slinux.Shell.Logic
open Slinux.Unix.Files
open Slinux.Disk.Name
open Slinux.Disk.Dump
open Slinux.Installer.Accounts
open Slinux.Installer.Bootloader
open Slinux.Installer.System
open Slinux.Installer.Effects
open Slinux.Installer.Script
open Slinux.Installer.Files
open Slinux.Installer.Target
open Slinux.Installer.Guard
open Slinux.Installer.Groups
open Slinux.Installer.Operands
open Slinux.Installer.Contents
open Slinux.Installer.Filling
open Slinux.Installer.Course

/-! ## The last lines -/

section Finish

variable {sure : Prop} {name : DevName} {rest : List (Mount VolId)} {w v : World}

/-- No volume has lost anything. -/
def Stays (w v : World) : Prop := ∀ i q, Grown (look w i q) (look v i q)

theorem Stays.trans {u : World} (h : Stays u v) (h' : Stays v w) : Stays u w :=
  fun i q => (h i q).trans (h' i q)

theorem Did.stays {a : Act} (hd : Did a w v) (ha : Calls [] a) : Stays w v := hd.look_all ha

theorem stays_of_vols (h : v.vols = w.vols) : Stays w v := fun i q =>
  Or.inl (look_of_vols h i q)

theorem Did.umount {ps : List Path} (hd : Did (.umount ps) w v) :
    v = { w with mounts := umountAll w.held ps w.mounts } := by
  obtain ⟨d, h0, rfl⟩ := hd.run
  cases hfails : d.fails with
  | true =>
      simp only [exec, hfails, if_true] at h0
      exact absurd h0 Nat.one_ne_zero
  | false => rw [exec_umount hfails]

/-- The state behind the installation: the target is mounted over the medium,
and no file is held open. -/
structure FinishReady (rest : List (Mount VolId)) (w : World) : Prop where
  sane : Sane w
  held : w.held = []
  medium : (points rest).head? = some bm

theorem umountOk_target (h : Mounted name rest w) (hheld : w.held = []) :
    umountOk w.held [esp, mntRoot] (points w.mounts) = true := by
  have hpoints : points w.mounts = esp :: mntRoot :: points rest := by
    rw [h.mounts]
    rfl
  rw [hheld, hpoints]
  simp [umountOk, canUmount, mountedOn, busy]

theorem umountOk_medium (h : (points rest).head? = some bm) :
    umountOk [] [bm] (points rest) = true := by
  obtain ⟨ps, hps⟩ := List.head?_eq_some_iff.mp h
  rw [hps]
  simp [umountOk, canUmount, mountedOn, busy]

/-- Lines 195 to 202. -/
theorem finish_leads (hw : Mounted name rest w) (disk pu user : Str)
    (hready : sure → FinishReady rest w) :
    Leads sure (finish disk pu user)
      (fun _ v => Stays w v ∧ doneLine disk pu ∈ v.out) w := by
  refine leads_cmd (fun _ => rfl) (fun v₁ h₁ => ?_)
  have hc₁ : Calls [] (.mkdirP [homeRoute user]) := ⟨rfl, rfl, by simp, by simp [replaces]⟩
  have hk₁ := h₁.keep_all hc₁
  refine leads_cmd ?_ (fun v₂ h₂ => ?_)
  · intro hs
    have hdir := h₁.made (hready hs).sane (List.mem_singleton.mpr rfl)
    have hsee := (isDir_iff _ _).mp hdir
    rw [see_eq] at hsee
    rw [operands, ← Option.isSome_map, hsee]
    rfl
  have hc₂ : Calls [] (.chown 1000 100 (homeRoute user)) := ⟨rfl, rfl, by simp, by simp [replaces]⟩
  refine leads_cmd (fun _ => rfl) (fun v₃ h₃ => ?_)
  have hc₃ : Calls [] .sync := ⟨rfl, rfl, by simp, by simp [replaces]⟩
  have hw₃ : Mounted name rest v₃ := ((hw.after h₁ rfl).after h₂ rfl).after h₃ rfl
  have hheld₃ : sure → v₃.held = [] := fun hs => by
    rw [h₃.frame.held rfl, h₂.frame.held rfl, h₁.frame.held rfl, (hready hs).held]
  refine leads_cmd (fun hs => umountOk_target hw₃ (hheld₃ hs)) (fun v₄ h₄ => ?_)
  obtain rfl := Did.umount h₄
  refine leads_cmd (fun _ => rfl) (fun v₅ h₅ => ?_)
  obtain rfl : v₅ = { v₃ with
      mounts := umountAll v₃.held [esp, mntRoot] v₃.mounts, trap := none } := by
    obtain ⟨d, _, rfl⟩ := h₅.run
    rw [exec_setTrap]
  refine leads_cmd ?_ (fun v₆ h₆ => ?_)
  · intro hs
    have hok := umountOk_target hw₃ (hheld₃ hs)
    show umountOk v₃.held [bm] (points (umountAll v₃.held [esp, mntRoot] v₃.mounts)) = true
    rw [Full.umountAll_eq hw₃ hok, umountAll, hheld₃ hs]
    exact umountOk_medium (hready hs).medium
  obtain rfl := Did.umount h₆
  refine leads_last (fun _ => rfl) (fun v₇ h₇ => ?_)
  obtain rfl := Did.say h₇
  refine ⟨?_, List.mem_cons_self ..⟩
  have h₁₃ := ((Did.stays h₁ hc₁).trans (Did.stays h₂ hc₂)).trans (Did.stays h₃ hc₃)
  exact h₁₃.trans (stays_of_vols rfl)

end Finish

/-! ## The accounts -/

section Accounts

variable {sure : Prop} {name : DevName} {rest : List (Mount VolId)} {w v : World}

/-- What was seen outside these paths is still on its volume. -/
def Left (ps : List Path) (w v : World) : Prop :=
  ∀ p ∉ ps, ∀ k, see w p = some k → look v (w.locate p).1 (w.locate p).2 = some k

theorem Left.of_stays (ps : List Path) (h : Stays w v) : Left ps w v :=
  fun _ _ _ hk => (h _ _).stays hk

/-- Before that, something may have been written to these paths. -/
theorem Left.of_keep {ps : List Path} {u : World} (h : Left ps w v) (hk : Keep ps u w)
    (hm : w.mounts = u.mounts) : Left ps u v := by
  intro p hp k hsee
  have hloc : w.locate p = u.locate p := by
    unfold World.locate
    rw [hm]
  rw [← hloc]
  exact h p hp k (hk.files p hp k hsee)

theorem Left.etc {ps : List Path} (h : Left ps w v) (hw : Mounted name rest w) {file : Str}
    (hp : etc file ∉ ps) {k : Kind} (hk : see w (etc file) = some k) :
    look v (rootVol name) (etcFile file) = some k := by
  have hlook := h _ hp k hk
  rw [Full.locate_etc hw] at hlook
  exact hlook

theorem Left.esp {ps : List Path} (h : Left ps w v) (hw : Mounted name rest w) {q : Path}
    (hp : esp ++ q ∉ ps) {k : Kind} (hk : see w (esp ++ q) = some k) :
    look v (espVol name) q = some k := by
  have hlook := h _ hp k hk
  rw [Full.locate_esp hw] at hlook
  exact hlook

theorem Keep.mono {ps qs : List Path} (h : Keep ps w v) (hsub : ∀ p ∈ ps, p ∈ qs) : Keep qs w v :=
  ⟨fun p hp => h.grown p (fun hin => hp (hsub p hin)), h.sane⟩

theorem completeAccounts_eq (disk pu : Str) (a : Accounts) :
    completeAccounts disk pu a
      = writeShadow a >>= fun _ => writeGroup a.user >>= fun _ => finish disk pu a.user := by
  unfold writeShadow
  rw [bind_assoc]
  rfl

/-- What the accounts need. -/
structure AccountsReady (rest : List (Mount VolId)) (w : World) : Prop where
  finish : FinishReady rest w
  dir : w.isDir etcDir = true
  group : w.isFile (etc "group".toList) = true

theorem AccountsReady.keep {ps : List Path} (h : AccountsReady rest w) (hk : Keep ps w v)
    (hheld : v.held = w.held) (hetc : etcDir ∉ ps) (hgroup : etc "group".toList ∉ ps) :
    AccountsReady rest v :=
  ⟨⟨hk.sane h.finish.sane, hheld.trans h.finish.held, h.finish.medium⟩, hk.isDir hetc h.dir,
    hk.isFile hgroup h.group⟩

/-- The files that are written behind `/etc/passwd`. -/
def lastFiles : List Path := shadowFiles ++ groupFiles

/-- Lines 172 to 202. -/
theorem completeAccounts_leads (hw : Mounted name rest w) (disk pu : Str) (a : Accounts)
    (hready : sure → AccountsReady rest w) :
    Leads sure (completeAccounts disk pu a)
      (fun _ v => Left lastFiles w v ∧ doneLine disk pu ∈ v.out ∧
        look v (rootVol name) (etcFile "shadow".toList)
          = some (.file (shadowFile a.user a.rhash a.uhash)) ∧
        ∃ old, see w (etc "group".toList) = some (.file old) ∧
          look v (rootVol name) (etcFile "group".toList)
            = some (.file (groupFile a.user old))) w := by
  rw [completeAccounts_eq]
  apply leads_bind
  refine (leads_phase (writeShadow_calls a) (by decide) hw
    (writeShadow_leads hw a (fun hs => (hready hs).dir))).mono ?_
  rintro _ v₁ ⟨hshadow, hw₁, hk₁, hheld₁⟩
  have hready₁ : sure → AccountsReady rest v₁ := fun hs =>
    (hready hs).keep hk₁ hheld₁ (by decide) (by decide)
  apply leads_bind
  refine (leads_keep (writeGroup_calls a.user) (by decide) hw₁ (writeGroup_leads hw₁ a.user
    (fun hs => (hready₁ hs).dir) (fun hs => (hready₁ hs).group))).mono ?_
  rintro _ v₂ ⟨⟨hheld₂, old, hold, hgroup⟩, hw₂, hk₂⟩
  have hready₂ : sure → FinishReady rest v₂ := fun hs =>
    ⟨hk₂.sane (hready₁ hs).finish.sane, hheld₂.trans (hready₁ hs).finish.held,
      (hready₁ hs).finish.medium⟩
  refine (finish_leads hw₂ disk pu a.user hready₂).mono ?_
  rintro _ v ⟨hstays, hdone⟩
  have hleft₂ : ∀ ps, Left ps v₂ v := fun ps => Left.of_stays ps hstays
  have hm₂ : v₂.mounts = v₁.mounts := hw₂.mounts.trans hw₁.mounts.symm
  have hm₁ : v₁.mounts = w.mounts := hw₁.mounts.trans hw.mounts.symm
  have hleft₁ : Left groupFiles v₁ v := (hleft₂ _).of_keep hk₂ hm₂
  refine ⟨?_, hdone, hleft₁.etc hw₁ (by decide) hshadow, old, ?_, ?_⟩
  · have hkeep₁ : Keep lastFiles w v₁ := Keep.mono hk₁ (by decide)
    have hkeep₂ : Keep lastFiles v₁ v₂ := Keep.mono hk₂ (by decide)
    exact (hleft₂ lastFiles).of_keep (hkeep₁.trans hkeep₂) (hm₂.trans hm₁)
  · exact (hk₁.grown _ (by decide)).was hold
  · exact (hleft₂ []).etc hw₂ List.not_mem_nil hgroup

end Accounts

/-! ## The installation -/

/-- An installed system on these two volumes: the boot loader and its
configuration, which refers to files that are there and offers the rescue
entry as told, and the rewritten account files.  `group` is the group file
they were made from. -/
structure Installed (e r : VolId) (rescue : Bool) (group : Option Kind) (w : World) : Prop where
  loader : ∃ t, look w e loaderFile = some (.file t)
  conf : ∃ c, look w e confFile = some (.file c) ∧
    (∀ p ∈ bootPaths c, ∃ t, look w e (p.splitOn '/') = some (.file t)) ∧
    (HasRescue c ↔ rescue = true)
  accounts : ∃ user rhash uhash old, acceptsUser user = true ∧ group = some (.file old) ∧
    look w r (etcFile "passwd".toList) = some (.file (passwdFile user)) ∧
    look w r (etcFile "shadow".toList) = some (.file (shadowFile user rhash uhash)) ∧
    look w r (etcFile "group".toList) = some (.file (groupFile user old))

section Installation

variable {sure : Prop} {name : DevName} {rest : List (Mount VolId)} {w : World}

/-- What everything behind the normal entry needs. -/
structure CompleteReady (rest : List (Mount VolId)) (f : Found) (as : List Str) (w : World) :
    Prop where
  sane : Sane w
  held : w.held = [limineConfPath]
  medium : (points rest).head? = some bm
  rescue : RescueReady f.initrd w
  etc : w.isDir etcDir = true
  group : w.isFile (mntRoot ++ ["etc".toList, "group".toList]) = true
  answers : (Prompts.takeAccounts as).isSome = true

/-- The files that `limine.conf` refers to. -/
theorem bootPaths_installed {u : Uuid} {rescue : Bool} {v : World} {i : VolId} {k : Str}
    (hkernel : look v i kernelFile = some (.file k))
    (hinitrd : rescue = true → ∃ t, look v i initrdFile = some (.file t)) :
    ∀ p ∈ bootPaths (limineConf u.text rescue), ∃ t, look v i (p.splitOn '/') = some (.file t) := by
  have hline : '\n' ∉ u.text := u.not_mem (by decide)
  have hparen : '(' ∉ u.text := u.not_mem (by decide)
  rw [bootPaths_limineConf hline hparen]
  intro p hp
  rcases List.mem_cons.mp hp with rfl | hp
  · exact ⟨k, hkernel⟩
  · cases rescue with
    | false => cases hp
    | true =>
        rw [if_pos rfl] at hp
        rcases List.mem_cons.mp hp with rfl | hp
        · exact ⟨k, hkernel⟩
        · rw [List.mem_singleton.mp hp]
          exact hinitrd rfl

/-- Lines 140 to 202. -/
theorem completeInstall_leads (hw : Mounted name rest w) (disk : Str) (u : Uuid) (f : Found)
    (as : List Str)
    (hconf : see w limineConfPath = some (.file (normalHead ++ cmdlineEntry u.text)))
    (hkernel : w.isFile (esp ++ kernelFile) = true)
    (hloader : w.isFile (esp ++ loaderFile) = true)
    (hready : sure → CompleteReady rest f as w) :
    Leads sure (completeInstall disk u.text f as)
      (fun _ v => Installed (espVol name) (rootVol name) f.initrd.isSome
        (see w (etc "group".toList)) v ∧ doneLine disk u.text ∈ v.out) w := by
  obtain ⟨k, hk⟩ := (isFile_iff _ _).mp hkernel
  obtain ⟨l, hl⟩ := (isFile_iff _ _).mp hloader
  apply leads_bind
  refine (leads_phase (writeRescueIf_calls f.initrd) (by decide) hw
    (writeRescueIf_leads hw hconf f.initrd (fun hs => (hready hs).rescue))).mono ?_
  rintro _ v₁ ⟨⟨hconf₁, hinitrd₁⟩, hw₁, hk₁, hheld₁⟩
  refine leads_cmd (fun _ => rfl) (fun v₂ h₂ => ?_)
  have hw₂ := hw₁.after h₂ rfl
  have hk₂ := h₂.keep_all ⟨rfl, rfl, by simp, by simp [replaces]⟩
  have hheld₂ : v₂.held = v₁.held.tail := by
    obtain ⟨d, _, rfl⟩ := h₂.run
    rw [exec_close]
  have hready₂ : sure → AccountsReady rest v₂ := by
    intro hs
    obtain ⟨hsane, hheld, hmedium, _, hdir, hgroup, _⟩ := hready hs
    refine ⟨⟨hk₂.sane (hk₁.sane hsane), ?_, hmedium⟩, ?_, ?_⟩
    · rw [hheld₂, hheld₁, hheld]
      rfl
    · exact hk₂.isDir List.not_mem_nil (hk₁.isDir (by decide) hdir)
    · exact hk₂.isFile List.not_mem_nil (hk₁.isFile (by decide) hgroup)
  apply leads_bind
  refine (leads_phase (askAccounts_calls as) (by decide) hw₂
    (askAccounts_leads as (fun hs => (hready hs).answers))).mono ?_
  rintro a v₃ ⟨huser, hw₃, hk₃, hheld₃⟩
  have hready₃ : sure → AccountsReady rest v₃ := fun hs =>
    (hready₂ hs).keep hk₃ hheld₃ List.not_mem_nil List.not_mem_nil
  apply leads_bind
  refine (leads_phase (writePasswd_calls a.user) (by decide) hw₃
    (writePasswd_leads hw₃ a.user (fun hs => (hready₃ hs).dir))).mono ?_
  rintro _ v₄ ⟨hpasswd, hw₄, hk₄, hheld₄⟩
  have hready₄ : sure → AccountsReady rest v₄ := fun hs =>
    (hready₃ hs).keep hk₄ hheld₄ (by decide) (by decide)
  refine (completeAccounts_leads hw₄ disk u.text a hready₄).mono ?_
  rintro _ v ⟨hleft, hdone, hshadow, old, hold, hgroup⟩
  have hkeep : Keep passwdFiles v₁ v₄ :=
    ((Keep.mono hk₂ (by simp)).trans (Keep.mono hk₃ (by simp))).trans hk₄
  have hesp : ∀ {q : Path} {t : Str}, esp ++ q ∉ passwdFiles → esp ++ q ∉ lastFiles →
      see v₁ (esp ++ q) = some (.file t) → look v (espVol name) q = some (.file t) :=
    fun hp hp' ht => hleft.esp hw₄ hp' (hkeep.files _ hp _ ht)
  have hkernel' : look v (espVol name) kernelFile = some (.file k) :=
    hesp (by decide) (by decide) (hk₁.files _ (by decide) _ hk)
  have hinitrd' : f.initrd.isSome = true →
      ∃ t, look v (espVol name) initrdFile = some (.file t) := by
    intro hi
    obtain ⟨i, hinitrd⟩ := (isFile_iff _ _).mp (hinitrd₁ hi)
    exact ⟨i, hesp (q := initrdFile) (by decide) (by decide) hinitrd⟩
  refine ⟨⟨⟨l, ?_⟩, ⟨limineConf u.text f.initrd.isSome, ?_, bootPaths_installed hkernel' hinitrd',
    hasRescue_limineConf (u.not_mem (by decide)) _⟩, ?_⟩, hdone⟩
  · exact hesp (by decide) (by decide) (hk₁.files _ (by decide) _ hl)
  · exact hesp (by decide) (by decide) hconf₁
  · refine ⟨a.user, a.rhash, a.uhash, old, huser, ?_, ?_, hshadow, hgroup⟩
    · have hback₁ := (hkeep.grown _ (by decide)).was hold
      exact (hk₁.grown _ (by decide)).was hback₁
    · exact hleft.etc hw₄ (by decide) hpasswd

/-- The running system has what the installation copies and rewrites, the
volumes its paths lead to exist, and the medium can be unmounted. -/
structure Ready (name : DevName) (f : Found) (w : World) : Prop where
  sane : Sane w
  node : devPath name.text ∈ w.nodes
  held : w.held = []
  medium : (points w.mounts).head? = some bm
  bin : w.isDir ["bin".toList] = true
  doas : (w.node ["bin".toList, "doas".toList]).isSome = true
  etc : w.isDir ["etc".toList] = true
  group : w.isFile ["etc".toList, "group".toList] = true
  loader : w.isFile limineEfi = true
  kernel : w.isFile f.kernel = true ∧ ¬ mntRoot <+: f.kernel
  initrd : ∀ p ∈ f.initrd, w.isFile p = true ∧ ¬ mntRoot <+: p

theorem see_formatted {v : World} (h : Formatted name w v) (hunused : Unused name w) (p : Path) :
    see v p = see w p := by
  have hloc : v.locate p = w.locate p := by
    unfold World.locate
    rw [h.mounts]
  unfold see look
  rw [hloc, h.others _ (inUse_locate w p) (hunused.locate p)]

theorem sane_formatted {v : World} (h : Formatted name w v) (hunused : Unused name w)
    (hw : Sane w) : Sane v := by
  have hlive : ¬ OnDisk name .live := by
    rintro ⟨_, _, _, heq⟩
    cases heq
  constructor
  · rw [h.others _ rfl hlive]
    exact hw.live
  · rw [h.mounts]
    intro m hm
    rw [h.others _ (inUse_mounted hm) (hunused m hm)]
    exact hw.mounted m hm

/-- A file of the running system, seen from behind the mounts. -/
theorem isFile_grown {v : World} {p : Path} (h : Grown (see w p) (see v p))
    (hp : w.isFile p = true) : v.isFile p = true := by
  obtain ⟨t, ht⟩ := (isFile_iff _ _).mp hp
  exact (isFile_iff _ _).mpr ⟨t, h.stays ht⟩

theorem isDir_grown {v : World} {p : Path} (h : Grown (see w p) (see v p))
    (hp : w.isDir p = true) : v.isDir p = true :=
  (isDir_iff _ _).mpr (h.stays ((isDir_iff _ _).mp hp))

theorem written_below : ∀ p ∈ bootFiles ++ [limineConfPath], mntRoot <+: p := by decide

/-- Outside the target nothing is lost. -/
def Apart (w v : World) : Prop := ∀ p, ¬ mntRoot <+: p → Grown (see w p) (see v p)

/-- Making the file systems and mounting them loses nothing there. -/
theorem apart_built {v u : World} (hbuilt : Built name v u) (hmade : Formatted name w v)
    (hunused : Unused name w) : Apart w u := by
  intro p hp
  rw [← see_formatted hmade hunused p]
  exact hbuilt.outside p hp

/-- The copies leave the files of the running system where they were. -/
theorem isFile_apart {v u : World} (h : Spares name rest v u) (hout : Apart w v)
    {p : Path} (hp : ¬ mntRoot <+: p) (hfile : w.isFile p = true) : u.isFile p = true := by
  obtain ⟨t, ht⟩ := (isFile_iff _ _).mp (isFile_grown (hout p hp) hfile)
  exact (isFile_iff _ _).mpr ⟨t, h.files p (Or.inr (Or.inl hp)) _ ht⟩

/-- The running system has what lines 115 to 125 copy. -/
theorem Ready.copyReady {v : World} (h : Ready name f w) (hout : Apart w v) (hsane : Sane v)
    (hroot : v.isDir mntRoot = true) : CopyReady v := by
  obtain ⟨n, hn⟩ := Option.isSome_iff_exists.mp h.doas
  refine ⟨hsane, hroot, isDir_grown (hout _ (by decide)) h.bin, ?_⟩
  have hdoas : see v ["bin".toList, "doas".toList] = some n.kind :=
    (hout _ (by decide)).stays (by rw [see_eq, hn]; rfl)
  rw [see_eq] at hdoas
  rw [← Option.isSome_map, hdoas]
  rfl

/-- It has what lines 127 to 134 copy to the ESP. -/
theorem Ready.bootReady {v u : World} (h : Ready name f w) (hout : Apart w v) (hsane : Sane v)
    (hspares : Spares name rest v u) (hesp : u.isDir esp = true) : BootReady f u :=
  ⟨hspares.sane hsane, hesp, isFile_apart hspares hout h.kernel.2 h.kernel.1,
    isFile_apart hspares hout (by decide) h.loader⟩

/-- The new root has the files of `/etc` that the running system has. -/
theorem Ready.etc_copied {v u : World} (h : Ready name f w) (hout : Apart w v)
    (hetc : see u etcDir = copiedKind v "etc".toList [])
    (hgroup : see u (Script.etc "group".toList) = copiedKind v "etc".toList ["group".toList]) :
    see u etcDir = some .dir ∧ ∃ g, see u (Script.etc "group".toList) = some (.file g) := by
  have hdir : v.isDir ["etc".toList] = true := isDir_grown (hout _ (by decide)) h.etc
  obtain ⟨g, hg⟩ := (isFile_iff _ _).mp (isFile_grown (hout _ (by decide)) h.group)
  rw [copiedKind, if_pos hdir] at hetc hgroup
  exact ⟨hetc.trans ((isDir_iff _ _).mp hdir), g, hgroup.trans hg⟩

/-- Everything behind the normal entry has what it needs. -/
theorem Ready.completeReady {v u x : World} {as : List Str} (h : Ready name f w)
    (hout : Apart w v) (hsane : Sane v) (hspares : Spares name rest v u)
    (hetc : see u etcDir = copiedKind v "etc".toList [])
    (hgroup : see u (Script.etc "group".toList) = copiedKind v "etc".toList ["group".toList])
    (hkeep : Keep (bootFiles ++ [limineConfPath]) u x) (hheld : x.held = [limineConfPath])
    (hmedium : (points rest).head? = some bm) (hesp : u.isDir esp = true)
    (hboot : x.isDir espBoot = true) (hanswers : (Prompts.takeAccounts as).isSome = true) :
    CompleteReady rest f as x := by
  obtain ⟨hetc', g, hg⟩ := h.etc_copied hout hetc hgroup
  refine ⟨hkeep.sane (hspares.sane hsane), hheld, hmedium,
    ⟨hkeep.isDir (by decide) hesp, hboot, ?_⟩, ?_, ?_, hanswers⟩
  · intro p hp
    obtain ⟨hfile, hbelow⟩ := h.initrd p hp
    refine hkeep.isFile (fun hin => hbelow ?_) (isFile_apart hspares hout hbelow hfile)
    exact written_below p hin
  · exact (isDir_iff _ _).mpr (hkeep.files _ (by decide) _ hetc')
  · exact (isFile_iff _ _).mpr ⟨g, hkeep.files _ (by decide) _ hg⟩

/-- **Lines 82 to 202.**  An installation that comes to its end is complete,
and it comes to its end if the running system is. -/
theorem installOn_leads (hnames : NamesAgree name.text) (hdisk : name ∈ w.disks)
    (hunused : Unused name w) (espsz : Str) (f : Found) (as : List Str)
    (hready : sure → Ready name f w ∧ (Prompts.takeAccounts as).isSome = true) :
    Leads sure (installOn (devPath name.text) espsz f as)
      (fun _ v => Installed (espVol name) (rootVol name) f.initrd.isSome
          (see w ["etc".toList, "group".toList]) v ∧
        ∃ pu, doneLine (devPath name.text) pu ∈ v.out) w := by
  apply leads_bind
  refine (makeFilesystems_leads hnames hdisk (fun hs => (hready hs).1.node) espsz).mono ?_
  intro _ v₁ hmade
  have hunused₁ : Unused name v₁ := by
    unfold Unused
    rw [hmade.mounts]
    exact hunused
  apply leads_bind
  refine (mountTarget_leads hnames hmade.esp hmade.root hunused₁
    (fun hs => sane_formatted hmade hunused (hready hs).1.sane)).mono ?_
  intro _ v₂ hbuilt
  have hout : Apart w v₂ := apart_built hbuilt hmade hunused
  have hsane : sure → Sane v₂ := fun hs =>
    hbuilt.sane (sane_formatted hmade hunused (hready hs).1.sane)
  apply leads_bind
  refine (copySystem_leads hbuilt.mounted hbuilt.empty
    (fun hs => (hready hs).1.copyReady hout (hsane hs) hbuilt.root) "group".toList).mono ?_
  rintro _ v₃ ⟨hspares, hetc, hgroup⟩
  obtain ⟨t, ht⟩ := hmade.layout
  have hlayout₃ : v₃.layout = some t := by rw [hspares.layout, hbuilt.layout, ht]
  have hdisk₃ : name ∈ v₃.disks := by
    rw [hspares.disks, hbuilt.disks, hmade.disks]
    exact hdisk
  have hesp₃ : v₃.isDir esp = true :=
    hspares.isDir (Or.inl (List.prefix_refl _)) hbuilt.esp
  apply leads_bind
  refine (leads_phase (copyBootFiles_calls _ f) (by decide) hspares.mounted
    (copyBootFiles_leads hnames hspares.mounted hdisk₃ hlayout₃ f
      (fun hs => (hready hs).1.bootReady hout (hsane hs) hspares hesp₃))).mono ?_
  rintro _ v₄ ⟨⟨rfl, hkernel, hloader, hespBoot⟩, hw₄, hk₄, hheld₄⟩
  apply leads_bind
  refine (leads_keep (writeNormal_calls _) (by decide) hw₄
    (writeNormal_leads hw₄ t.root.uuid.text hespBoot)).mono ?_
  rintro _ v₅ ⟨⟨hconf, hheld₅⟩, hw₅, hk₅⟩
  have hkeep : Keep (bootFiles ++ [limineConfPath]) v₃ v₅ :=
    (Keep.mono hk₄ (fun _ hp => List.mem_append_left _ hp)).trans
      (Keep.mono hk₅ (fun _ hp => List.mem_append_right _ hp))
  have hcomplete : sure → CompleteReady v₁.mounts f as v₅ := by
    intro hs
    obtain ⟨hr, hanswers⟩ := hready hs
    refine hr.completeReady hout (hsane hs) hspares hetc hgroup hkeep ?_ ?_ hesp₃
      (hk₅.isDir (by decide) (hespBoot hs)) hanswers
    · rw [hheld₅, hheld₄, hspares.held, hbuilt.held, hmade.held, hr.held]
    · rw [hmade.mounts]
      exact hr.medium
  refine (completeInstall_leads hw₅ (devPath name.text) t.root.uuid f as hconf
    (hk₅.isFile (by decide) hkernel) (hk₅.isFile (by decide) hloader) hcomplete).mono ?_
  rintro _ v ⟨⟨hl, hc, user, rhash, uhash, old, huser, hold, hfiles⟩, hdone⟩
  refine ⟨⟨hl, hc, user, rhash, uhash, old, huser, ?_, hfiles⟩, _, hdone⟩
  -- the group file was copied from the running system, and not touched until now
  have hold₃ : see v₃ (etc "group".toList) = some (.file old) :=
    (hkeep.grown _ (by decide)).was hold
  rw [hgroup] at hold₃
  unfold copiedKind at hold₃
  rw [Option.ite_none_right_eq_some] at hold₃
  exact (hout _ (by decide)).was hold₃.2

/-! ## Whole runs -/

/-- The running system has everything that the installation copies or rewrites
besides `KERNEL` and `INITRD`, and every path leads to a volume that
exists. -/
structure Complete (w : World) : Prop where
  sane : Sane w
  bin : w.isDir ["bin".toList] = true
  doas : (w.node ["bin".toList, "doas".toList]).isSome = true
  etc : w.isDir ["etc".toList] = true
  group : w.isFile ["etc".toList, "group".toList] = true
  loader : w.isFile limineEfi = true

/-- `KERNEL` names an existing file, and `INITRD` is empty or does. -/
structure Usable (f : Found) (w : World) : Prop where
  kernel : w.isFile f.kernel = true
  initrd : ∀ p ∈ f.initrd, w.isFile p = true

/-- The search of the run with these decisions ends with `f`, these answers
left, in the state `v`. -/
structure SearchEnds (O : Nat → Act → Decision) (disk : Str) (sysdevs : List SysDev)
    (answers : List Str) (w : World) (f : Found) (as : List Str) (v : World) : Prop where
  outcome : (go machine O (untilTrap disk sysdevs answers) 0 w).outcome = .done (f, as)
  final : (go machine O (untilTrap disk sysdevs answers) 0 w).final = v

/-- The run exits with status zero and has printed the final line. -/
def Reports (disk : Str) (run : Run World Act Decision Unit) : Prop :=
  run.outcome.status = 0 ∧ ∃ pu, doneLine disk pu ∈ run.final.out

theorem not_below_of_origin {f : Found} (h : Origin f) :
    ¬ mntRoot <+: f.kernel ∧ ∀ p ∈ f.initrd, ¬ mntRoot <+: p := by
  refine ⟨?_, fun p hp => ?_⟩
  · rcases h.kernel with hk | hk <;> rw [hk] <;> decide
  · rw [h.initrd p hp]
    decide

/-- The state in which the installation starts, with the first trap set. -/
theorem Complete.ready {disk : Str} {f : Found} {v : World} (h : Complete v) (hf : Usable f v)
    (hsearch : Searched disk f w v) (hdisk : devPath name.text = disk)
    (hmedium : f.initrd.isSome = true) : Ready name f { v with trap := some [bm] } := by
  obtain ⟨hkernel, hinitrd⟩ := not_below_of_origin hsearch.origin
  refine ⟨⟨h.sane.live, h.sane.mounted⟩, ?_, hsearch.shape.held, ?_, h.bin, h.doas, h.etc, h.group,
    h.loader, ⟨hf.kernel, hkernel⟩, fun p hp => ⟨hf.initrd p hp, hinitrd p hp⟩⟩
  · rw [hdisk]
    exact hsearch.node
  · have hm : Mounts.medium f = [bm] := if_pos hmedium
    show (points v.mounts).head? = some bm
    rw [hsearch.shape.mounted, hm]
    rfl

/-- Lines 66 to 202, behind a search that has found a medium. -/
theorem afterSearch_leads {disk : Str} {f : Found} {v : World} (hsearch : Searched disk f w v)
    (hname : name ∈ w.disks) (hdisk : devPath name.text = disk) (hnames : NamesAgree name.text)
    (hunused : Unused name w) (espsz : Str) (as : List Str)
    (hready : sure → Complete v ∧ Usable f v ∧ f.initrd.isSome = true ∧
      (Prompts.takeAccounts as).isSome = true) :
    Leads sure (afterSearch disk espsz f as)
      (fun _ u => Installed (.dev (partP disk 1) .vfat) (.dev (partP disk 2) .ext4)
          f.initrd.isSome (see v ["etc".toList, "group".toList]) u ∧
        ∃ pu, doneLine disk pu ∈ u.out) v := by
  refine leads_cmd (fun _ => rfl) (fun u hu => ?_)
  obtain rfl : u = { v with trap := some [bm] } := by
    obtain ⟨d, _, rfl⟩ := hu.run
    rw [exec_setTrap]
  have hunused' : Unused name { v with trap := some [bm] } :=
    hsearch.unused name hdisk hnames hunused
  have hname' : name ∈ ({ v with trap := some [bm] } : World).disks := by
    show name ∈ v.disks
    rw [hsearch.disks]
    exact hname
  subst hdisk
  rw [diskP_eq_partNode hnames, diskP_eq_partNode hnames]
  refine installOn_leads hnames hname' hunused' espsz f as (fun hs => ?_)
  obtain ⟨hcomplete, husable, hmedium, hanswers⟩ := hready hs
  exact ⟨hcomplete.ready husable hsearch rfl hmedium, hanswers⟩

end Installation

section Runs

variable {O : Nat → Act → Decision} {disk : Str} {rest : List Str} {sysdevs : List SysDev}
variable {answers as : List Str} {f : Found} {w v : World}

/-- The second argument, or its default. -/
def espSize (rest : List Str) : Str :=
  if rest.head?.getD [] = [] then "256".toList else rest.head?.getD []

/-- Leaving the script changes no volume and prints nothing. -/
theorem leave_vols {α : Type} (O : Nat → Act → Decision) (r : Run World Act Decision α) :
    (leave machine O r).final.vols = r.final.vols ∧
      (leave machine O r).final.out = r.final.out := by
  simp only [leave]
  split
  · exact ⟨rfl, rfl⟩
  · split
    · exact ⟨rfl, rfl⟩
    · rename_i t ht
      obtain ⟨ops, _, rfl⟩ := Option.map_eq_some_iff.mp ht
      show (exec _ (.umount ops) (machine.unwind r.final)).2.vols = r.final.vols ∧
        (exec _ (.umount ops) (machine.unwind r.final)).2.out = r.final.out
      simp only [exec]
      split
      · exact ⟨rfl, rfl⟩
      · exact ⟨rfl, rfl⟩

theorem Installed.of_vols {e r : VolId} {rescue : Bool} {group : Option Kind} {u : World}
    (h : Installed e r rescue group v) (hvols : u.vols = v.vols) :
    Installed e r rescue group u := by
  obtain ⟨⟨t, ht⟩, ⟨c, hc, hpaths, hrescue⟩, user, rhash, uhash, old, huser, hold, h1, h2, h3⟩ := h
  have hlook : ∀ i q, look u i q = look v i q := look_of_vols hvols
  refine ⟨⟨t, (hlook _ _).trans ht⟩, ⟨c, (hlook _ _).trans hc, fun p hp => ?_, hrescue⟩,
    user, rhash, uhash, old, huser, hold, (hlook _ _).trans h1, (hlook _ _).trans h2,
    (hlook _ _).trans h3⟩
  obtain ⟨x, hx⟩ := hpaths p hp
  exact ⟨x, (hlook _ _).trans hx⟩

/-- A run in two parts. -/
theorem go_install (O : Nat → Act → Decision) (disk : Str) (rest : List Str)
    (sysdevs : List SysDev) (answers : List Str) (w : World) :
    go machine O (slinuxInstall (disk :: rest) sysdevs answers) 0 w
      = (go machine O (untilTrap disk sysdevs answers) 0 w).andThen
          (fun r => go machine O (afterSearch disk (espSize rest) r.1 r.2)) := by
  show go machine O (install disk (espSize rest) sysdevs answers) 0 w = _
  rw [install_eq, go_bind]

/-- The part of the run behind the search. -/
def restOfRun (O : Nat → Act → Decision) (disk : Str) (rest : List Str) (sysdevs : List SysDev)
    (answers : List Str) (w : World) (f : Found) (as : List Str) (v : World) :
    Run World Act Decision Unit :=
  go machine O (afterSearch disk (espSize rest) f as)
    (go machine O (untilTrap disk sysdevs answers) 0 w).used v

theorem SearchEnds.go_eq (h : SearchEnds O disk sysdevs answers w f as v) (rest : List Str) :
    go machine O (slinuxInstall (disk :: rest) sysdevs answers) 0 w
      = { restOfRun O disk rest sysdevs answers w f as v with
          trace := (go machine O (untilTrap disk sysdevs answers) 0 w).trace
            ++ (restOfRun O disk rest sysdevs answers w f as v).trace } := by
  rw [go_install, Run.andThen, h.outcome]
  unfold restOfRun
  rw [← h.final]

/-- What the end of the run says of the part behind the search. -/
theorem SearchEnds.run (h : SearchEnds O disk sysdevs answers w f as v) (rest : List Str) :
    (runScript machine O (slinuxInstall (disk :: rest) sysdevs answers) w).outcome
        = (restOfRun O disk rest sysdevs answers w f as v).outcome ∧
      (runScript machine O (slinuxInstall (disk :: rest) sysdevs answers) w).final.vols
        = (restOfRun O disk rest sysdevs answers w f as v).final.vols ∧
      (runScript machine O (slinuxInstall (disk :: rest) sysdevs answers) w).final.out
        = (restOfRun O disk rest sysdevs answers w f as v).final.out ∧
      ∀ e ∈ (restOfRun O disk rest sysdevs answers w f as v).trace,
        e ∈ (runScript machine O (slinuxInstall (disk :: rest) sysdevs answers) w).trace := by
  unfold runScript
  rw [h.go_eq rest, leave_outcome, (leave_vols O _).1, (leave_vols O _).2]
  refine ⟨rfl, rfl, rfl, fun e he => ?_⟩
  exact mem_leave_trace (List.mem_append_right _ he)

/-- Without arguments the script never succeeds. -/
theorem usage_status (O : Nat → Act → Decision) (sysdevs : List SysDev) (answers : List Str)
    (w : World) :
    (runScript machine O (slinuxInstall [] sysdevs answers) w).outcome.status ≠ 0 := by
  have husage : Acts Tested Asks (slinuxInstall [] sysdevs answers) :=
    acts_bind (acts_cmd trivial) (fun _ => Nat.succ_ne_zero 1)
  have hnever : wp machine (fun _ => True) (fun _ => True) (slinuxInstall [] sysdevs answers)
      (fun _ _ => False) (fun _ _ => True) w := by
    refine fun d _ => ⟨trivial, resume_all (fun v => ?_)⟩
    show wp machine _ _ ((if (exec d _ w).1.status = 0 then Prog.ret ()
      else .exit (exec d _ w).1.status).bind (fun _ => .exit 2)) _ _ v
    split
    · trivial
    · trivial
  intro h0
  rw [runScript, leave_outcome] at h0
  obtain ⟨x, hdone⟩ := go_done_of_status husage h0
  have hend := (go_sound O _ 0 w hnever (fun _ _ => trivial)).2
  rw [hdone] at hend
  exact hend

/-- A run with status zero has come past the search, and to its last line. -/
theorem search_of_status
    (h0 : (runScript machine O (slinuxInstall (disk :: rest) sysdevs answers) w).outcome.status
      = 0) :
    ∃ f as v, SearchEnds O disk sysdevs answers w f as v ∧
      (restOfRun O disk rest sysdevs answers w f as v).outcome = .done () := by
  rw [runScript, leave_outcome] at h0
  obtain ⟨_, hdone⟩ := go_done_of_status (Devices.install_writes disk rest sysdevs answers) h0
  cases hout : (go machine O (untilTrap disk sysdevs answers) 0 w).outcome with
  | ended x =>
      rw [go_install, Run.andThen, hout] at hdone
      cases hdone
  | done r =>
      obtain ⟨f, as⟩ := r
      have hends : SearchEnds O disk sysdevs answers w f as _ := ⟨hout, rfl⟩
      refine ⟨f, as, _, hends, ?_⟩
      rw [hends.go_eq rest] at hdone
      exact hdone

/-- What a run with status zero has left, the disk being out of use at its
start. -/
theorem installed_of_status (hw : Mounts.Start w)
    (hunused : ∀ name ∈ w.disks, devPath name.text = disk → Unused name w)
    (hends : SearchEnds O disk sysdevs answers w f as v)
    (hdone : (restOfRun O disk rest sysdevs answers w f as v).outcome = .done ()) :
    f.initrd.isSome = true ∧
      Installed (.dev (partP disk 1) .vfat) (.dev (partP disk 2) .ext4) f.initrd.isSome
        (see v ["etc".toList, "group".toList])
        (restOfRun O disk rest sysdevs answers w f as v).final := by
  obtain ⟨hsearch, _⟩ := untilTrap_done hw hends.outcome
  rw [hends.final] at hsearch
  obtain ⟨hcoop, hmedium, name, hname, hdisk, hnames⟩ :=
    afterSearch_done hsearch (hw.free bm (by decide)) hdone
  refine ⟨hmedium, ?_⟩
  have hleads : Leads False (afterSearch disk (espSize rest) f as) _ v :=
    afterSearch_leads hsearch hname hdisk hnames (hunused name hname hdisk) (espSize rest) as
      (fun hs => hs.elim)
  have hend := (go_sound O _ _ v hleads hcoop).2
  rw [show (go machine O (afterSearch disk (espSize rest) f as) _ v).outcome = .done () from hdone]
    at hend
  exact hend.1

end Runs

/-- **The exit status tells the truth** about an installation onto a disk that
is not in use.

If the search has ended with a usable `KERNEL` and `INITRD`, the answers are
acceptable, the script knows the names of the disk's partitions, the running
system is complete, and every command succeeds whose operands exist, then the
script exits with status zero and prints its last line **iff** a boot medium
was found.  Conversely, whatever fails and whatever signals arrive, a run that
exits with status zero has left a complete system. -/
theorem exit_status_truthful (O : Nat → Act → Decision) (args : List Str)
    (sysdevs : List SysDev) (answers : List Str) (w : World) (hw : Mounts.Start w)
    (hunused : ∀ name ∈ w.disks, args.head? = some (devPath name.text) → Unused name w) :
    (∀ disk rest f as v, args = disk :: rest → SearchEnds O disk sysdevs answers w f as v →
      Usable f v → (Prompts.takeAccounts as).isSome = true → Known disk w → Complete v →
      (∀ e ∈ (runScript machine O (slinuxInstall args sysdevs answers) w).trace, Willing e) →
      (Reports disk (runScript machine O (slinuxInstall args sysdevs answers) w) ↔
        f.initrd.isSome = true)) ∧
    ((runScript machine O (slinuxInstall args sysdevs answers) w).outcome.status = 0 →
      ∃ disk rest f as v, args = disk :: rest ∧ SearchEnds O disk sysdevs answers w f as v ∧
        Installed (.dev (partP disk 1) .vfat) (.dev (partP disk 2) .ext4) f.initrd.isSome
          (see v ["etc".toList, "group".toList])
          (runScript machine O (slinuxInstall args sysdevs answers) w).final) := by
  have hfree : ∀ {disk rest}, args = disk :: rest →
      ∀ name ∈ w.disks, devPath name.text = disk → Unused name w := by
    rintro disk rest rfl name hname hdisk
    exact hunused name hname (congrArg some hdisk.symm)
  refine ⟨?_, fun h0 => ?_⟩
  · rintro disk rest f as v rfl hends husable hanswers ⟨name, hname, hdisk, hnames⟩ hcomplete
      hwilling
    obtain ⟨houtcome, _, hout, htrace⟩ := hends.run rest
    constructor
    · rintro ⟨h0, _⟩
      obtain ⟨f', as', v', hends', hdone⟩ := search_of_status h0
      have hsame := hends'.outcome.symm.trans hends.outcome
      cases hsame
      exact (installed_of_status hw (hfree rfl) hends' hdone).1
    · intro hmedium
      obtain ⟨hsearch, _⟩ := untilTrap_done hw hends.outcome
      rw [hends.final] at hsearch
      have hleads : Leads True (afterSearch disk (espSize rest) f as) _ v :=
        afterSearch_leads hsearch hname hdisk hnames (hfree rfl name hname hdisk) (espSize rest) as
          (fun _ => ⟨hcomplete, husable, hmedium, hanswers⟩)
      have hend := (go_sound O _ (go machine O (untilTrap disk sysdevs answers) 0 w).used v hleads
        (fun e he => ⟨(hwilling e (htrace e he)).1, fun _ => hwilling e (htrace e he)⟩)).2
      unfold Reports
      rw [houtcome, hout]
      unfold restOfRun
      revert hend
      cases (go machine O (afterSearch disk (espSize rest) f as)
          (go machine O (untilTrap disk sysdevs answers) 0 w).used v).outcome with
      | done _ => exact fun hend => ⟨rfl, hend.2⟩
      | ended _ => exact fun hend => absurd trivial hend
  · cases args with
    | nil => exact absurd h0 (usage_status O sysdevs answers w)
    | cons disk rest =>
        obtain ⟨f, as, v, hends, hdone⟩ := search_of_status h0
        obtain ⟨_, hinstalled⟩ := installed_of_status hw (hfree rfl) hends hdone
        exact ⟨disk, rest, f, as, v, rfl, hends, hinstalled.of_vols (hends.run rest).2.1⟩

/-! ## With and without a medium -/

theorem willing_iff (e : Event World Act Decision) :
    Willing e ↔ e.decision.signal = none ∧
      (operands e.act e.before = false ∨ (e.decision.fails = false ∧ e.resp.status = 0)) := by
  unfold Willing
  rw [imp_iff_not_or, Bool.not_eq_true]

instance : DecidablePred Willing := fun e => decidable_of_iff _ (willing_iff e).symm

theorem sane_iff (w : World) :
    Sane w ↔ (w.vols .live).isSome = true ∧ ∀ m ∈ w.mounts, (w.vols m.vol).isSome = true :=
  ⟨fun h => ⟨h.live, h.mounted⟩, fun h => ⟨h.1, h.2⟩⟩

/-- The state behind the search, on the sample machine. -/
def sampleSearched (cdrom : Option Vol) : World :=
  (go machine (fun _ _ => succeeds) (untilTrap (devPath "sda".toList) sampleSysdevs sampleAnswers)
    0 (sampleWorld cdrom)).final

/-- With a rescue medium in the drive, the installer reports success. -/
theorem exit_status_sample :
    Reports (devPath "sda".toList)
      (sampleRun (fun _ _ => succeeds) (some sampleMedium) sampleAnswers) := by
  refine ((exit_status_truthful (fun _ _ => succeeds) [devPath "sda".toList] sampleSysdevs
    sampleAnswers (sampleWorld (some sampleMedium)) (Mounts.sampleWorld_start _)
    (fun _ _ _ m hm => absurd hm List.not_mem_nil)).1 (devPath "sda".toList) []
    ⟨bootKernel, some bmInitrd⟩ sampleAnswers.tail (sampleSearched (some sampleMedium)) rfl
    ⟨by decide +kernel, rfl⟩ ⟨by decide +kernel, by decide +kernel⟩ (by decide +kernel)
    ⟨sampleName, by decide, by decide, by decide⟩
    ⟨(sane_iff _).mpr (by decide +kernel), by decide +kernel, by decide +kernel,
      by decide +kernel, by decide +kernel, by decide +kernel⟩ (by decide +kernel)).mpr rfl

/-- Without one, nothing fails that has its operands, but the last `umount` has
none, and the installer exits with status one. -/
theorem exit_status_without_medium :
    SearchEnds (fun _ _ => succeeds) (devPath "sda".toList) sampleSysdevs sampleAnswers
        (sampleWorld none) ⟨bootKernel, none⟩ sampleAnswers.tail (sampleSearched none) ∧
      Usable ⟨bootKernel, none⟩ (sampleSearched none) ∧
      (Prompts.takeAccounts sampleAnswers.tail).isSome = true ∧
      (∀ e ∈ (sampleRun (fun _ _ => succeeds) none sampleAnswers).trace, Willing e) ∧
      (sampleRun (fun _ _ => succeeds) none sampleAnswers).outcome = .ended (.exited 1) := by
  refine ⟨⟨by decide +kernel, rfl⟩, ⟨by decide +kernel, by decide +kernel⟩, by decide +kernel,
    by decide +kernel, by decide +kernel⟩

end Slinux.Installer.Status
