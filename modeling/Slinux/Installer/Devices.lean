import Slinux.Installer.Smooth

/-!
# The devices the installer writes to

Everything destructive in `slinux-install` is aimed at `$DISK`, `"$P"1` and
`"$P"2`.  Where the script's rule for partition names agrees with the
kernel's, those are the disk and its first two partitions, whatever else the
run does.  Where the rules differ they are other nodes, and only the loop that
waits for them stands between the script and somebody else's partition: if
nodes with those names exist, the loop is satisfied at once.

## Main results

* `install_writes` — the commands of the script write to no other nodes than
  these three.
* `waitParts_never` — the loop does not end while one of the nodes is missing.
* `devices_own_iff` — every run stays on the chosen disk **iff** the names
  agree or one of the two nodes is missing.
-/

namespace Slinux.Installer.Devices

open Slinux.Shell.Text
open Slinux.Shell.Script
open Slinux.Shell.Logic
open Slinux.Unix.Files
open Slinux.Disk.Name
open Slinux.Installer.Accounts
open Slinux.Installer.System
open Slinux.Installer.Effects
open Slinux.Installer.Script
open Slinux.Installer.Smooth

/-! ## The three nodes -/

/-- The command writes to `$DISK`, `"$P"1` and `"$P"2` at most, and partitions
only the first. -/
structure Writes (disk : Str) (a : Act) : Prop where
  nodes : ∀ n ∈ a.devices, n = disk ∨ n = partP disk 1 ∨ n = partP disk 2
  table : ∀ n s, a = .sfdisk n s → n = disk

/-- The command writes to no device. -/
def Silent (a : Act) : Prop := a.devices = []

theorem Silent.writes {disk : Str} {a : Act} (h : Silent a) : Writes disk a := by
  constructor
  · intro n hn
    rw [show a.devices = [] from h] at hn
    cases hn
  · rintro n s rfl
    cases h

theorem Prepares.writes {disk : Str} {a : Act} (h : Prepares disk a) : Writes disk a := by
  rcases h with h | ⟨s, rfl⟩ | rfl | rfl
  · exact Silent.writes (Asks.fills h).2
  · exact ⟨fun n hn => Or.inl (List.mem_singleton.mp hn), fun n s h => by cases h; rfl⟩
  · exact ⟨fun n hn => Or.inr (Or.inl (List.mem_singleton.mp hn)), by simp⟩
  · exact ⟨fun n hn => Or.inr (Or.inr (List.mem_singleton.mp hn)), by simp⟩

theorem asks_silent {α : Type} {p : Prog Act α} (h : Acts Tested Asks p) : Acts Tested Silent p :=
  h.mono (fun _ ha => (Asks.fills ha).2)

theorem fills_silent {α : Type} {p : Prog Act α} (h : Acts Tested Fills p) :
    Acts Tested Silent p :=
  h.mono (fun _ ha => ha.2)

theorem silent_cmd {a : Act} (h : a.devices = []) : Acts Tested Silent (cmd a) := acts_cmd h

/-- The media are mounted read-only. -/
theorem Searches.silent {disk : Str} {a : Act} (h : Searches disk a) : Silent a := by
  rcases h with h | rfl | ⟨fs, dev, _, rfl⟩ | rfl | rfl
  · exact (Asks.fills h).2
  all_goals rfl

theorem searchBootMedium_silent (disk : Str) (sysdevs : List SysDev) :
    Acts Tested Silent (searchBootMedium disk sysdevs) :=
  (searchBootMedium_searches disk sysdevs).mono (fun _ h => Searches.silent h)

theorem Concludes.silent {a : Act} (h : Concludes a) : Silent a := by
  cases a <;> first | exact h.elim | rfl

theorem mountTarget_writes (disk : Str) : Acts Tested (Writes disk) (mountTarget disk) := by
  have hsilent : ∀ {a : Act}, Silent a → Acts Tested (Writes disk) (cmd a) :=
    fun h => acts_cmd h.writes
  have hroot : Writes disk (.mount .ext4 false (partP disk 2) mntRoot) :=
    ⟨fun n hn => Or.inr (Or.inr (List.mem_singleton.mp hn)), by simp⟩
  have hesp : Writes disk (.mount .vfat false (partP disk 1) esp) :=
    ⟨fun n hn => Or.inr (Or.inl (List.mem_singleton.mp hn)), by simp⟩
  exact acts_bind (hsilent rfl) (fun _ => acts_bind (acts_cmd hroot) (fun _ =>
    acts_bind (hsilent rfl) (fun _ => acts_bind (hsilent rfl) (fun _ => acts_cmd hesp))))

theorem writeNormal_silent (pu : Str) : Acts Tested Silent (writeNormal pu) :=
  acts_bind (silent_cmd rfl) (fun _ => acts_bind (silent_cmd rfl) (fun _ =>
    acts_bind (silent_cmd rfl) (fun _ => silent_cmd rfl)))

/-- Everything behind the command line of `limine.conf` changes files only. -/
theorem completeInstall_silent (disk pu : Str) (f : Found) (answers : List Str) :
    Acts Tested Silent (completeInstall disk pu f answers) := by
  refine acts_bind (fills_silent (writeRescueIf_fills _)) (fun _ => ?_)
  refine acts_bind (silent_cmd rfl) (fun _ => ?_)
  refine acts_bind (asks_silent (askAccounts_asks _)) (fun a => ?_)
  refine acts_bind (fills_silent (writePasswd_fills _)) (fun _ => ?_)
  exact acts_bind (silent_cmd rfl) (fun _ =>
    (afterShadow_concludes disk pu a).mono (fun _ h => Concludes.silent h))

/-- Lines 14 to 66: nothing is written to any device before `sfdisk`. -/
theorem beforeInstall_acts {α : Type} {P : Act → Prop} (hP : ∀ a, Silent a → P a) (disk : Str)
    (sysdevs : List SysDev) (answers : List Str) {k : Found → List Str → Prog Act α}
    (hk : ∀ f as, Acts Tested P (k f as)) :
    Acts Tested P (do
      require (.isFile limineEfi) "slinux-install: /lib/limine/BOOTX64.EFI missing".toList 1
      require (.isFile bootKernel) "slinux-install: no kernel found at /boot/vmlinuz".toList 1
      let answers ← confirm disk answers
      waitDisk disk 30
      let f ← searchBootMedium disk sysdevs
      k f answers) := by
  have hrequire : ∀ test message, Tested test → Asks test →
      Acts Tested P (require test message 1) := fun test message ht ha =>
    (asks_silent (require_asks ht ha message Nat.one_ne_zero)).mono hP
  refine acts_bind (hrequire _ _ trivial trivial) (fun _ => ?_)
  refine acts_bind (hrequire _ _ trivial trivial) (fun _ => ?_)
  refine acts_bind ((asks_silent (confirm_asks disk answers)).mono hP) (fun as => ?_)
  refine acts_bind ((asks_silent (waitDisk_asks disk 30)).mono hP) (fun _ => ?_)
  exact acts_bind ((searchBootMedium_silent disk sysdevs).mono hP) (fun f => hk f as)

/-- **The script writes to three nodes.** -/
theorem install_writes (disk : Str) (rest : List Str) (sysdevs : List SysDev)
    (answers : List Str) :
    Acts Tested (Writes disk) (slinuxInstall (disk :: rest) sysdevs answers) := by
  have hsilent : ∀ {α : Type} {p : Prog Act α}, Acts Tested Silent p →
      Acts Tested (Writes disk) p := fun h => h.mono (fun _ ha => ha.writes)
  refine beforeInstall_acts (fun _ h => h.writes) disk sysdevs answers (fun f as => ?_)
  refine acts_bind ((makeFilesystems_prepares disk _).mono (fun _ h => Prepares.writes h))
    (fun _ => acts_bind (mountTarget_writes disk) (fun _ => ?_))
  refine acts_bind (hsilent (fills_silent copySystem_fills)) (fun _ => ?_)
  refine acts_bind (hsilent (fills_silent (copyBootFiles_fills disk f))) (fun pu => ?_)
  exact acts_bind (hsilent (writeNormal_silent pu)) (fun _ =>
    hsilent (completeInstall_silent disk pu f as))

/-! ## The loop that waits for the partitions -/

section Missing

variable {name : DevName}

/-- One of the two nodes the loop waits for is not there. -/
def Missing (name : DevName) (w : World) : Prop :=
  partP (devPath name.text) 1 ∉ w.nodes ∨ partP (devPath name.text) 2 ∉ w.nodes

/-- What a command may do to devices before the loop has ended. -/
def Early (name : DevName) (a : Act) : Prop :=
  Silent a ∨ ∃ s, a = .sfdisk (devPath name.text) s

/-- The nodes of this disk's partitions are its own. -/
theorem newNodes_own (w : World) {n : Str} (h : n ∈ w.newNodes (devPath name.text)) :
    n ∈ ownNodes name.text := by
  unfold World.newNodes at h
  split at h
  · rename_i found hfound
    have hpath : devPath found.text = devPath name.text := by
      simpa using List.find?_some hfound
    have htext : found.text = name.text := List.append_cancel_left hpath
    rw [partNodes, htext] at h
    exact List.mem_cons_of_mem _ h
  · simp at h

/-- The partitions that appear are never the missing ones. -/
theorem Missing.exec (hnames : ¬ NamesAgree name.text) {a : Act} (ha : Early name a)
    {w : World} (hw : Missing name w) (d : Decision) : Missing name (exec d a w).2 := by
  have hsame : ∀ w' : World, w'.nodes = w.nodes → Missing name w' := by
    intro w' h
    unfold Missing
    rw [h]
    exact hw
  rcases ha with hsilent | ⟨s, rfl⟩
  · apply hsame
    apply (exec_frame d a w).nodes
    cases a <;> first | rfl | cases hsilent
  · rcases exec_cases d (a := .sfdisk (devPath name.text) s) rfl w with ⟨out, w', hp, he⟩ | he | he
    · simp only [perform, Option.ite_none_right_eq_some, Option.some.injEq, Prod.mk.injEq] at hp
      obtain ⟨_, _, rfl⟩ := hp
      rw [he]
      show _ ∉ w.nodes ++ _ ∨ _ ∉ w.nodes ++ _
      rcases hw with h1 | h2
      · left
        rw [List.mem_append, not_or]
        exact ⟨h1, fun h => diskP_not_own hnames (Or.inl rfl) (newNodes_own w h)⟩
      · right
        rw [List.mem_append, not_or]
        exact ⟨h2, fun h => diskP_not_own hnames (Or.inr rfl) (newNodes_own w h)⟩
    · rw [he]
      exact hsame _ rfl
    · rw [he]
      exact hw

/-- Every event of a run stays on the disk. -/
def OnDisk (name : DevName) (e : Event World Act Decision) : Prop :=
  ∀ n ∈ e.act.devices, n ∈ ownNodes name.text

theorem Silent.onDisk {e : Event World Act Decision} (h : Silent e.act) : OnDisk name e := by
  intro n hn
  rw [show e.act.devices = [] from h] at hn
  simp at hn

theorem Early.onDisk {a : Act} (ha : Early name a) {d : Decision} {w : World} :
    OnDisk name (machine.event a d w) := by
  rcases ha with hsilent | ⟨s, rfl⟩
  · exact Silent.onDisk hsilent
  · intro n hn
    rw [List.mem_singleton.mp hn]
    exact List.mem_cons_self ..

/-- The trap does not change the nodes. -/
theorem nodes_resume {ns : List Str} {d : Decision} {w : World} (hw : w.nodes = ns) :
    resume machine (fun _ => True) (OnDisk name) (fun _ _ => True) d (fun v => v.nodes = ns) w := by
  simp only [resume]
  split
  · exact hw
  · split
    · trivial
    · rename_i t ht
      obtain ⟨ops, _, rfl⟩ := Option.map_eq_some_iff.mp ht
      intro d' _
      refine ⟨Silent.onDisk rfl, ?_⟩
      split
      · exact ((exec_frame d' (.umount ops) w).nodes rfl).trans hw
      · trivial

/-- A phase in front of the end of the loop. -/
theorem wp_early (hnames : ¬ NamesAgree name.text) {α : Type} {p : Prog Act α}
    (hp : Acts Tested (Early name) p) {w : World} (hw : Missing name w) :
    wp machine (fun _ => True) (OnDisk name) p (fun _ => Missing name) (fun _ _ => True) w := by
  refine wp_invariant (P := Early name) ?_ (fun _ _ _ _ => trivial) hp hw
  intro a d v ha hv _
  refine ⟨ha.onDisk, resume_mono (fun _ _ hx => hx) ?_ (nodes_resume rfl)⟩
  intro v' hv'
  have hafter := hv.exec hnames ha d
  unfold Missing at hafter ⊢
  rw [hv']
  exact hafter

theorem wp_early_then (hnames : ¬ NamesAgree name.text) {α β : Type} {p : Prog Act α}
    {k : α → Prog Act β} {Q : β → World → Prop} {w : World} (hp : Acts Tested (Early name) p)
    (hw : Missing name w)
    (hk : ∀ a v, Missing name v →
      wp machine (fun _ => True) (OnDisk name) (k a) Q (fun _ _ => True) v) :
    wp machine (fun _ => True) (OnDisk name) (p >>= k) Q (fun _ _ => True) w :=
  wp_bind p k (wp_mono (fun a v hv => hk a v hv) (fun _ _ hx => hx) (wp_early hnames hp hw))

/-- A node test that succeeds finds the node. -/
theorem mem_nodes_of_isBlock {d : Decision} {node : Str} {w : World}
    (h : (exec d (.isBlock node) w).1.status = 0) : node ∈ w.nodes := by
  rcases exec_cases d (a := .isBlock node) rfl w with ⟨out, w', hp, he⟩ | he | he
  · simp only [perform, Option.ite_none_right_eq_some] at hp
    exact hp.1
  · rw [he] at h
    exact absurd h Nat.one_ne_zero
  · rw [he] at h
    exact absurd h Nat.one_ne_zero

theorem exec_isBlock_nodes (d : Decision) (node : Str) (w : World) :
    (exec d (.isBlock node) w).2.nodes = w.nodes :=
  (exec_frame d (.isBlock node) w).nodes rfl

/-- With a node missing, the condition of the loop is false. -/
theorem bothParts_missing {w : World} (hw : Missing name w) :
    wp machine (fun _ => True) (OnDisk name) (waitParts.bothParts (devPath name.text))
      (fun b v => b = false ∧ Missing name v) (fun _ _ => True) w := by
  intro d _
  refine ⟨Silent.onDisk rfl, resume_mono (fun _ _ hx => hx) ?_
    (nodes_resume (exec_isBlock_nodes d _ w))⟩
  intro v hv
  have hmissing : Missing name v := by
    unfold Missing
    rw [hv]
    exact hw
  show wp machine _ _ (if ((exec d (.isBlock (partP (devPath name.text) 1)) w).1.status == 0)
    = true then tested (.isBlock (partP (devPath name.text) 2)) else pure false) _ _ v
  cases h1 : ((exec d (.isBlock (partP (devPath name.text) 1)) w).1.status == 0) with
  | false => exact ⟨rfl, hmissing⟩
  | true =>
      have hin1 := mem_nodes_of_isBlock (beq_iff_eq.mp h1)
      have hout2 : partP (devPath name.text) 2 ∉ v.nodes := by
        rw [hv]
        rcases hw with hout1 | hout2
        · exact absurd hin1 hout1
        · exact hout2
      intro d' _
      refine ⟨Silent.onDisk rfl, resume_mono (fun _ _ hx => hx) ?_
        (nodes_resume (exec_isBlock_nodes d' _ v))⟩
      intro v' hv'
      refine ⟨?_, Or.inr (by rw [hv']; exact hout2)⟩
      show ((exec d' (.isBlock (partP (devPath name.text) 2)) v).1.status == 0) = false
      by_contra h2
      rw [Bool.not_eq_false, beq_iff_eq] at h2
      exact hout2 (mem_nodes_of_isBlock h2)

/-- **The loop does not end while one of the nodes is missing.** -/
theorem waitParts_never (hnames : ¬ NamesAgree name.text) (n : Nat) :
    ∀ {w : World}, Missing name w →
      wp machine (fun _ => True) (OnDisk name) (waitParts (devPath name.text) n)
        (fun _ _ => False) (fun _ _ => True) w := by
  induction n with
  | zero =>
      intro w hw
      apply wp_bind
      refine wp_mono ?_ (fun _ _ hx => hx) (bothParts_missing hw)
      rintro b v ⟨rfl, hv⟩
      exact wp_early_then hnames (acts_cmd (Or.inl rfl)) hv (fun _ _ _ => trivial)
  | succ n ih =>
      intro w hw
      apply wp_bind
      refine wp_mono ?_ (fun _ _ hx => hx) (bothParts_missing hw)
      rintro b v ⟨rfl, hv⟩
      exact wp_early_then hnames (acts_cmd (Or.inl rfl)) hv (fun _ _ hv' => ih hv')

theorem makeFilesystems_never (hnames : ¬ NamesAgree name.text) (espsz : Str) {w : World}
    (hw : Missing name w) :
    wp machine (fun _ => True) (OnDisk name) (makeFilesystems (devPath name.text) espsz)
      (fun _ _ => False) (fun _ _ => True) w := by
  refine wp_early_then hnames (acts_cmd (Or.inl rfl)) hw (fun _ v hv => ?_)
  refine wp_early_then hnames (acts_cmd (Or.inr ⟨_, rfl⟩)) hv (fun _ v hv => ?_)
  refine wp_early_then hnames (acts_cmd (Or.inl rfl)) hv (fun _ v hv => ?_)
  exact wp_bind _ _ (wp_mono (fun _ _ hx => hx.elim) (fun _ _ hx => hx)
    (waitParts_never hnames 15 hv))

/-- The part of the script up to the loop, and the loop. -/
theorem install_missing (hnames : ¬ NamesAgree name.text) (rest : List Str)
    (sysdevs : List SysDev) (answers : List Str) {w : World} (hw : Missing name w) :
    wp machine (fun _ => True) (OnDisk name)
      (slinuxInstall (devPath name.text :: rest) sysdevs answers) (fun _ _ => True)
      (fun _ _ => True) w := by
  have hasks : ∀ {α : Type} {p : Prog Act α}, Acts Tested Asks p → Acts Tested (Early name) p :=
    fun hp => (asks_silent hp).mono (fun _ h => Or.inl h)
  apply wp_early_then hnames (hasks (require_asks (by trivial) (by trivial) _ Nat.one_ne_zero)) hw
  intro _ v hv
  apply wp_early_then hnames (hasks (require_asks (by trivial) (by trivial) _ Nat.one_ne_zero)) hv
  intro _ v hv
  apply wp_early_then hnames (hasks (confirm_asks _ answers)) hv
  intro as v hv
  apply wp_early_then hnames (hasks (waitDisk_asks _ 30)) hv
  intro _ v hv
  apply wp_early_then hnames ((searchBootMedium_silent _ sysdevs).mono (fun _ h => Or.inl h)) hv
  intro f v hv
  exact wp_bind _ _ (wp_mono (fun _ _ hx => hx.elim) (fun _ _ hx => hx)
    (makeFilesystems_never hnames _ hv))

end Missing

/-- A run whose partitions carry the kernel's names, or never appear, stays on
the disk. -/
theorem onDisk_of_agree_or_missing {name : DevName} {w : World}
    (h : NamesAgree name.text ∨ Missing name w) (O : Nat → Act → Decision) (rest : List Str)
    (sysdevs : List SysDev) (answers : List Str) :
    ∀ e ∈ (runScript machine O
      (slinuxInstall (devPath name.text :: rest) sysdevs answers) w).trace, OnDisk name e := by
  have htrap : ∀ (v : World) t, machine.trap v = some t → Silent t := by
    intro v t ht
    obtain ⟨ops, _, rfl⟩ := Option.map_eq_some_iff.mp ht
    rfl
  by_cases hnames : NamesAgree name.text
  · intro e he n hn
    have hw := (runScript_acts (fun v t ht => (htrap v t ht).writes)
      (install_writes (devPath name.text) rest sysdevs answers) O w e he).nodes n hn
    rw [diskP_eq_partNode hnames, diskP_eq_partNode hnames] at hw
    simpa [ownNodes] using hw
  · have hmissing := h.resolve_left hnames
    have hleaving := leaving_of_traps (M := machine) (A := fun _ => True) (S := OnDisk name)
      (α := Unit) (fun v t _ ht => Silent.onDisk (htrap v t ht))
    exact (runScript_sound (F := fun _ _ => True) O _
      (wp_mono (fun a v _ => hleaving (.done a) v) (fun x v _ => hleaving (.ended x) v)
        (install_missing hnames rest sysdevs answers hmissing)) (fun _ _ => trivial)).1

/-! ## A run that leaves the disk -/

/-- The live system has what the script asks for before it partitions. -/
structure Ready (disk : Str) (w : World) : Prop where
  node : disk ∈ w.nodes
  loader : w.isFile limineEfi = true
  kernel : w.isFile bootKernel = true
  room : (w.mkdirRoute bm).isSome = true

/-- The answer that lets the installer go on. -/
def yes : List Str := ["y".toList]

/-- A smooth run that never formats `"$P"1`. -/
def Sparing (disk : Str) (e : Event World Act Decision) : Prop :=
  Unhindered e ∧ e.act ≠ .mkfsFat (partP disk 1)

theorem Sparing.unhindered {disk : Str} : ∀ e, Sparing disk e → Unhindered e :=
  fun _ h => h.1

section Format

variable {disk : Str} {w : World}

/-- With both nodes there, a smooth run comes to format the first. -/
theorem makeFilesystems_formats (espsz : Str) (hdisk : disk ∈ w.nodes)
    (h1 : partP disk 1 ∈ w.nodes) (h2 : partP disk 2 ∈ w.nodes) :
    wp machine (Sparing disk) (fun _ => True) (makeFilesystems disk espsz) (fun _ _ => False)
      (fun _ _ => False) w := by
  apply wp_say_smooth Sparing.unhindered
  intro v hv _ _
  have hdisk' : disk ∈ v.nodes := hv.nodes ▸ hdisk
  apply wp_cmd_smooth Sparing.unhindered rfl
  · intro d out v' _ hp
    simp only [perform, if_pos hdisk', Option.some.injEq, Prod.mk.injEq] at hp
    have hsub : ∀ n ∈ w.nodes, n ∈ v'.nodes := by
      intro n hn
      rw [← hp.2]
      exact List.mem_append_left _ (hv.nodes ▸ hn)
    apply wp_say_smooth Sparing.unhindered
    intro u hu _ _
    have hin : ∀ n ∈ w.nodes, n ∈ u.nodes := fun n hn => hu.nodes ▸ hsub n hn
    apply wp_bind
    -- the two tests of the loop succeed at once
    apply wp_bind
    apply wp_test_smooth (b := true) Sparing.unhindered rfl
    · intro d'
      exact if_pos (hin _ h1)
    rw [if_pos rfl, ← bind_ret (tested _)]
    apply wp_test_smooth (b := true) Sparing.unhindered rfl
    · intro d'
      exact if_pos (hin _ h2)
    rw [wp, if_pos rfl, pure_eq, wp]
    apply wp_cmd_smooth Sparing.unhindered rfl
    · intro d' _ _ hA _
      exact absurd rfl hA.2
    · intro d' hA _
      exact absurd rfl hA.2
  · intro d _ hp
    simp only [perform, if_pos hdisk'] at hp
    cases hp

/-- The part of a smooth run in front of `sfdisk`, without a boot medium. -/
theorem install_formats (hw : Ready disk w) (h1 : partP disk 1 ∈ w.nodes)
    (h2 : partP disk 2 ∈ w.nodes) :
    wp machine (Sparing disk) (fun _ => True) (slinuxInstall [disk] [] yes) (fun _ _ => False)
      (fun _ _ => False) w := by
  apply wp_bind
  apply wp_test_smooth (b := true) Sparing.unhindered rfl
  · intro d
    exact if_pos hw.loader
  apply wp_bind
  apply wp_test_smooth (b := true) Sparing.unhindered rfl
  · intro d
    exact if_pos hw.kernel
  apply wp_bind
  apply wp_say_smooth Sparing.unhindered
  intro v hv hvols _
  apply wp_say_smooth Sparing.unhindered
  intro v' hv' hvols' _
  have hsame : SameView w v' := ⟨hvols'.trans hvols, hv'.mounts.trans hv.mounts⟩
  have hnodes : v'.nodes = w.nodes := hv'.nodes.trans hv.nodes
  apply wp_capture_smooth Sparing.unhindered rfl
  · intro d out u _ hp
    simp only [perform, yes, List.head?_cons, Option.map_some, Option.some.injEq,
      Prod.mk.injEq] at hp
    rw [← hp.1, ← hp.2, if_pos (by decide)]
    apply wp_bind
    apply wp_test_smooth (b := true) Sparing.unhindered rfl
    · intro d'
      exact if_pos (hnodes ▸ hw.node)
    apply wp_bind
    apply wp_cmd_smooth Sparing.unhindered rfl
    · intro d' out' u' _ hp'
      obtain ⟨u'', hu'', heq⟩ := Option.map_eq_some_iff.mp hp'
      have hnodes' : u'.nodes = w.nodes := by
        rw [← (Prod.mk.inj heq).2]
        exact (mkdirRoutes_sameShell hu'').nodes.trans hnodes
      apply wp_say_smooth Sparing.unhindered
      intro x hx _ _
      apply wp_cmd_smooth Sparing.unhindered rfl
      · intro d'' out'' y _ hp''
        simp only [perform, Option.some.injEq, Prod.mk.injEq] at hp''
        have hy : y.nodes = w.nodes := by
          rw [← hp''.2]
          exact hx.nodes.trans hnodes'
        apply wp_bind
        exact wp_mono (fun _ _ hz => hz.elim) (fun _ _ hz => hz)
          (makeFilesystems_formats _ (hy ▸ hw.node) (hy ▸ h1) (hy ▸ h2))
      · intro _ _ hp''
        cases hp''
    · intro d' _ hp'
      have hresult := mkdirRoute_view hsame bm
      obtain ⟨x, hx⟩ := Option.isSome_iff_exists.mp hw.room
      simp only [perform, List.foldlM_cons, List.foldlM_nil, Option.map_eq_none_iff] at hp'
      cases hy : v'.mkdirRoute bm with
      | none => rw [hx, hy] at hresult; exact hresult
      | some y => rw [hy] at hp'; cases hp'
  · intro d _ hp
    cases hp

end Format

/-- A live system on these block devices. -/
def liveOn (disks : List DevName) (nodes : List Str) : World :=
  { sampleWorld none with disks := disks, nodes := nodes }

theorem liveOn_ready (disks : List DevName) {nodes : List Str} {disk : Str}
    (h : disk ∈ nodes) : Ready disk (liveOn disks nodes) := by
  have hview : SameView (sampleWorld none) (liveOn disks nodes) := ⟨rfl, rfl⟩
  have hfile : ∀ p, (liveOn disks nodes).isFile p = (sampleWorld none).isFile p := fun _ => rfl
  refine ⟨h, ?_, ?_, ?_⟩
  · rw [hfile]
    decide +kernel
  · rw [hfile]
    decide +kernel
  · have hresult := mkdirRoute_view hview bm
    have hroom : ((sampleWorld none).mkdirRoute bm).isSome = true := by decide +kernel
    obtain ⟨v, hv⟩ := Option.isSome_iff_exists.mp hroom
    cases hr : (liveOn disks nodes).mkdirRoute bm with
    | none => rw [hv, hr] at hresult; exact hresult.elim
    | some v' => rfl

/-- A smooth run formats `"$P"1`. -/
theorem run_formats {disk : Str} {w : World} (hw : Ready disk w) (h1 : partP disk 1 ∈ w.nodes)
    (h2 : partP disk 2 ∈ w.nodes) :
    ∃ e ∈ (runScript machine (fun _ _ => succeeds) (slinuxInstall [disk] [] yes) w).trace,
      e.act = .mkfsFat (partP disk 1) := by
  by_contra hno
  have hA : ∀ e ∈ (runScript machine (fun _ _ => succeeds) (slinuxInstall [disk] [] yes) w).trace,
      Sparing disk e := by
    intro e he
    obtain ⟨m, hm⟩ := runScript_trace_decision machine (fun _ _ => succeeds) _ w e he
    refine ⟨⟨by rw [hm]; rfl, by rw [hm]; rfl⟩, fun hact => hno ⟨e, he, hact⟩⟩
  exact (runScript_sound (F := fun _ _ => False) _ _
    (wp_mono (fun _ _ hx => hx.elim) (fun _ _ hx => hx.elim) (install_formats hw h1 h2)) hA).2

/-- **Destructive steps and the chosen disk.**  On a machine with these disks
and nodes, every run for the disk `name` stays on it exactly if the
installer's rule for partition names agrees with the kernel's, or one of the
nodes it takes for the partitions does not exist. -/
theorem devices_own_iff (disks : List DevName) (nodes : List Str) (name : DevName)
    (_hdisk : name ∈ disks) (hnode : devPath name.text ∈ nodes) :
    (∀ w : World, w.disks = disks → w.nodes = nodes →
      ∀ (O : Nat → Act → Decision) (rest : List Str) (sysdevs : List SysDev) (answers : List Str),
        ∀ e ∈ (runScript machine O
          (slinuxInstall (devPath name.text :: rest) sysdevs answers) w).trace, OnDisk name e) ↔
      NamesAgree name.text ∨
        ¬ (partP (devPath name.text) 1 ∈ nodes ∧ partP (devPath name.text) 2 ∈ nodes) := by
  constructor
  · intro h
    by_contra hno
    rw [not_or, not_not] at hno
    obtain ⟨e, he, hact⟩ := run_formats (liveOn_ready disks hnode) hno.2.1 hno.2.2
    have hon := h (liveOn disks nodes) rfl rfl _ _ _ _ e he (partP (devPath name.text) 1)
      (by rw [hact]; exact List.mem_singleton.mpr rfl)
    exact diskP_not_own hno.1 (Or.inl rfl) hon
  · intro h w _ hnodes
    apply onDisk_of_agree_or_missing
    rcases h with hagree | hmissing
    · exact Or.inl hagree
    · right
      unfold Missing
      rw [hnodes]
      exact not_and_or.mp hmissing

/-- A machine with a second disk `sdc`. -/
def twoDisks : World :=
  liveOn [Disk.Dump.sampleName, ⟨"sdc".toList, by decide, List.all_eq_true.mp (by decide)⟩]
    [devPath "sda".toList, devPath "sda1".toList, devPath "sda2".toList, devPath "sdc".toList]

theorem devices_own_sda :
    NamesAgree Disk.Dump.sampleName.text ∧
      ∀ e ∈ (runScript machine (fun _ _ => succeeds) (slinuxInstall [devPath "sda".toList] [] yes)
        twoDisks).trace, OnDisk Disk.Dump.sampleName e :=
  ⟨by decide, (devices_own_iff twoDisks.disks twoDisks.nodes Disk.Dump.sampleName (by decide)
    (by decide)).mpr (Or.inl (by decide)) twoDisks rfl rfl _ [] [] yes⟩

/-- A network block device: the kernel would call its partitions `nbd1p1` and
`nbd1p2`. -/
def nbd1 : DevName := ⟨"nbd1".toList, by decide, List.all_eq_true.mp (by decide)⟩

/-- A machine with three network block devices. -/
def nbdMachine : World :=
  liveOn [nbd1, ⟨"nbd11".toList, by decide, List.all_eq_true.mp (by decide)⟩,
      ⟨"nbd12".toList, by decide, List.all_eq_true.mp (by decide)⟩]
    [devPath "nbd1".toList, devPath "nbd11".toList, devPath "nbd12".toList]

/-- The installer takes the disk `/dev/nbd11` for the first partition of
`/dev/nbd1`, and formats it. -/
theorem devices_not_own_nbd :
    nbd1 ∈ nbdMachine.disks ∧
      ¬ ∀ e ∈ (runScript machine (fun _ _ => succeeds) (slinuxInstall [devPath nbd1.text] [] yes)
        nbdMachine).trace, OnDisk nbd1 e := by
  refine ⟨List.mem_cons_self .., fun h => ?_⟩
  have hready : Ready (devPath nbd1.text) nbdMachine := liveOn_ready _ (by decide)
  obtain ⟨e, he, hact⟩ := run_formats hready (by decide) (by decide)
  have hon := h e he (partP (devPath nbd1.text) 1)
    (by rw [hact]; exact List.mem_singleton.mpr rfl)
  exact absurd hon (by decide)

end Slinux.Installer.Devices
