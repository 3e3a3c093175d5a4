import Slinux.Installer.Filling
import Slinux.Installer.Medium

/-!
# Installations that come to their end

A run of `slinux-install` can be cut short in many ways, and only one of them
is a success.  This module collects what is known of a run that has come to
its last line, whatever the environment did to it.

* Before the first trap a signal kills the shell, so none has arrived there.
  The commands that are not tested have succeeded, so every medium but the one
  that is kept has been unmounted again.
* Behind the first trap every signal unmounts `/tmp/bm`, if the cleanup action
  succeeds, and otherwise ends the script.  The last `umount /tmp/bm` can then
  not succeed.  So no signal has arrived at all, and a medium was mounted when
  the search ended.
* A UUID has been read back from the new table, so the disk is one of the
  machine, and its partitions have the names the script gives them.

## Main results

* `untilTrap_done` — what the search leaves.
* `installOn_ends` — behind it, no signal has arrived and a medium was found.
* `installOn_known` — the disk is known, under the names the script uses.
-/

namespace Slinux.Installer.Course

open Slinux.Shell.Text
open Slinux.Shell.Script
open Slinux.Shell.Logic
open Slinux.Unix.Files
open Slinux.Disk.Name
open Slinux.Disk.Dump
open Slinux.Installer.Bootloader
open Slinux.Installer.System
open Slinux.Installer.Effects
open Slinux.Installer.Script
open Slinux.Installer.Mounts
open Slinux.Installer.Operands
open Slinux.Installer.Filling

/-! ## Before the first trap -/

section Search

variable {w : World} {α : Type}

/-- The shell before the first trap. -/
structure Trapless (w : World) : Prop where
  trap : w.trap = none
  fresh : w.interrupted = false

/-- Without a trap a signal kills the shell. -/
theorem resume_trapless {d : Decision} {next : World → Prop} (htrap : w.trap = none)
    (h : next w) :
    resume machine (fun _ => True) (fun _ => True) (fun _ _ => True) d next w := by
  have hnone : machine.trap w = none := by
    show w.trap.map Act.umount = none
    rw [htrap]
    rfl
  simp only [resume]
  split
  · exact h
  · rw [hnone]
    trivial

theorem wp_trapless {p : Prog Act α} (hp : Acts Tested (fun a => a.traps = false) p)
    (hw : Trapless w) :
    wp machine (fun _ => True) (fun _ => True) p (fun _ => Trapless) (fun _ _ => True) w := by
  refine wp_invariant ?_ (fun _ _ _ _ => trivial) hp hw
  intro a d v ha hv _
  have hf := exec_frame d a v
  have hnext : Trapless (exec d a v).2 :=
    ⟨(hf.trap ha).trans hv.trap, hf.interrupted.trans hv.fresh⟩
  exact ⟨trivial, resume_trapless hnext.trap hnext⟩

/-- A command under `set -e` that leaves no trap behind. -/
theorem wp_cmd_trapless {a : Act} {f : Unit → Prog Act α} {Q : α → World → Prop}
    (htrap : ∀ d, (exec d a w).2.trap = none)
    (h : ∀ d, (exec d a w).1.status = 0 →
      wp machine (fun _ => True) (fun _ => True) (f ()) Q (fun _ _ => True) (exec d a w).2) :
    wp machine (fun _ => True) (fun _ => True) (cmd a >>= f) Q (fun _ _ => True) w := by
  intro d _
  refine ⟨trivial, resume_trapless (htrap d) ?_⟩
  show wp machine _ _ ((if (exec d a w).1.status = 0 then Prog.ret ()
    else .exit (exec d a w).1.status).bind f) Q _ (exec d a w).2
  by_cases h0 : (exec d a w).1.status = 0
  · rw [if_pos h0]
    exact h d h0
  · rw [if_neg h0]
    trivial

/-- A run at whose end no signal has been handled has received none. -/
theorem quiet_of_fresh {O : Nat → Act → Decision} {p : Prog Act α} {n : Nat} {x : α}
    (hdone : (go machine O p n w).outcome = .done x)
    (hfresh : (go machine O p n w).final.interrupted = false) :
    ∀ e ∈ (go machine O p n w).trace, e.cause = .script ∧ e.decision.signal = none := by
  have hset : ∀ v : World, (machine.interrupt v).interrupted = true := fun _ => rfl
  have hkeep : ∀ (d : Decision) (a : Act) (v : World), v.interrupted = true →
      (machine.exec d a v).2.interrupted = true :=
    fun d a v hv => (exec_frame d a v).interrupted.trans hv
  refine (go_done_quiet hset hkeep p n hdone ?_).2
  rw [hfresh]
  exact Bool.false_ne_true

/-- In a run that comes to its end, `echo` and `umount` have not been kept from
succeeding. -/
theorem honest_of_done {P : Act → Prop} {O : Nat → Act → Decision} {p : Prog Act α}
    (hp : Acts Tested P p) {n : Nat} {x : α} (hdone : (go machine O p n w).outcome = .done x) :
    ∀ e ∈ (go machine O p n w).trace, e.cause = .script → Honest e := by
  intro e he hc
  have hstatus := go_done_status hp n hdone e he hc
  unfold Honest
  split
  · rename_i ps hact
    rw [hact] at hstatus
    have h0 := hstatus.resolve_left id
    by_contra hfails
    rw [Bool.not_eq_false] at hfails
    rw [show machine.exec = exec from rfl, exec, if_pos hfails] at h0
    exact absurd h0 Nat.one_ne_zero
  · rename_i text hact
    rw [hact] at hstatus
    have h0 := hstatus.resolve_left id
    by_contra hfails
    rw [Bool.not_eq_false] at hfails
    simp only [machine, exec, hfails, Act.certain] at h0
    exact absurd h0 Nat.one_ne_zero
  · trivial

/-! ### What the search leaves -/

/-- The files `KERNEL` and `INITRD` can name. -/
structure Origin (f : Found) : Prop where
  kernel : f.kernel = bootKernel ∨ f.kernel = bmKernel
  initrd : ∀ p ∈ f.initrd, p = bmInitrd

theorem lookInitrd_origin {f : Found} (hf : Origin f) (dev : Str) (fs : Fs) :
    Returns Origin (lookInitrd dev fs f) := by
  unfold lookInitrd
  cases f.initrd with
  | some p => exact hf
  | none =>
      intro r
      show Returns Origin ((if (r.status == 0) = true then _ else Prog.ret f : Prog Act Found))
      cases (r.status == 0) with
      | false => exact hf
      | true =>
          refine returns_bind (cmd _) (fun _ => ⟨hf.kernel, fun p hp => ?_⟩)
          exact (Option.some.inj hp).symm

theorem lookKernel_origin {f : Found} (hf : Origin f) : Returns Origin (lookKernel f) := by
  intro r
  show Returns Origin (if (r.status == 0) = true then Prog.ret { f with kernel := bmKernel }
    else Prog.ret f)
  cases (r.status == 0) with
  | false => exact hf
  | true => exact ⟨Or.inr rfl, hf.initrd⟩

theorem tryFs_origin (dev : Str) (fss : List Fs) :
    ∀ {f : Found}, Origin f → Returns (fun r => Origin r.1) (tryFs dev fss f) := by
  induction fss with
  | nil => intro f hf; exact hf
  | cons fs fss ih =>
      intro f hf
      refine returns_bind (tested _) (fun b => ?_)
      cases b with
      | false => exact ih hf
      | true =>
          refine returns_then (lookInitrd_origin hf dev fs) (fun g hg => ?_)
          refine returns_then (lookKernel_origin hg) (fun g' hg' => ?_)
          cases g'.initrd.isSome with
          | false => exact returns_bind (cmd _) (fun _ => ih hg')
          | true => exact hg'

theorem searchMedia_origin (disk : Str) (ss : List SysDev) :
    ∀ {f : Found}, Origin f → Returns Origin (searchMedia disk ss f) := by
  induction ss with
  | nil => intro f hf; exact hf
  | cons s ss ih =>
      intro f hf
      unfold searchMedia
      split
      · refine returns_then (tryFs_origin _ _ hf) (fun r hr => ?_)
        obtain ⟨g, stop⟩ := r
        cases stop with
        | false => exact ih hr
        | true => exact hr
      · exact ih hf

theorem untilTrap_returns (disk : Str) (sysdevs : List SysDev) (answers : List Str) :
    Returns (fun r => Origin r.1 ∧ r.2 = answers.tail) (untilTrap disk sysdevs answers) := by
  refine returns_bind _ (fun _ => returns_bind _ (fun _ => ?_))
  refine returns_then (confirm_returns disk answers) (fun as has => ?_)
  refine returns_bind _ (fun _ => returns_bind _ (fun _ => ?_))
  have hstart : Origin ⟨bootKernel, none⟩ := ⟨Or.inl rfl, fun p hp => by cases hp⟩
  refine returns_then (searchMedia_origin disk sysdevs hstart) (fun f hf => ?_)
  exact returns_bind _ (fun _ => ⟨hf, has⟩)

/-- The commands of lines 14 to 65 search, and set no trap. -/
def Seeks (disk : Str) (a : Act) : Prop := Searches disk a ∧ a.traps = false

theorem Asks.seeks {a : Act} (h : Asks a) (disk : Str) : Seeks disk a := by
  refine ⟨Or.inl h, ?_⟩
  cases a <;> first | exact h.elim | rfl

theorem searchMedia_seeks (disk : Str) (sysdevs : List SysDev) (f : Found) :
    Acts Tested (Seeks disk) (searchMedia disk sysdevs f) := by
  have humount : Seeks disk (.umount [bm]) := ⟨Or.inr (Or.inr (Or.inr (Or.inl rfl))), rfl⟩
  refine searchMedia_acts (fun _ h => Asks.seeks h disk) humount sysdevs ?_ f
  intro s _ _ hs fs
  exact ⟨Or.inr (Or.inr (Or.inl ⟨fs, devOf s, hs, rfl⟩)), rfl⟩

theorem noteMedium_seeks (disk : Str) (f : Found) : Acts Tested (Seeks disk) (noteMedium f) := by
  unfold noteMedium
  split
  · trivial
  · exact acts_cmd (Asks.seeks (a := .say _) trivial disk)

theorem mkdir_seeks (disk : Str) : Acts Tested (Seeks disk) (cmd (.mkdirP [bm])) :=
  acts_cmd ⟨Or.inr (Or.inl rfl), rfl⟩

theorem untilTrap_seeks (disk : Str) (sysdevs : List SysDev) (answers : List Str) :
    Acts Tested (Seeks disk) (untilTrap disk sysdevs answers) := by
  have hasks : ∀ {β : Type} {p : Prog Act β}, Acts Tested Asks p → Acts Tested (Seeks disk) p :=
    fun hp => hp.mono (fun _ h => Asks.seeks h disk)
  refine acts_bind (hasks (require_asks (by trivial) (by trivial) _ Nat.one_ne_zero)) (fun _ => ?_)
  refine acts_bind (hasks (require_asks (by trivial) (by trivial) _ Nat.one_ne_zero)) (fun _ => ?_)
  refine acts_bind (hasks (confirm_asks disk answers)) (fun _ => ?_)
  refine acts_bind (hasks (waitDisk_asks disk 30)) (fun _ => ?_)
  refine acts_bind (mkdir_seeks disk) (fun _ => ?_)
  refine acts_bind (searchMedia_seeks disk sysdevs _) (fun f => ?_)
  exact acts_bind (noteMedium_seeks disk f) (fun _ => trivial)

/-- The search mounts nothing of the disk's new partitions. -/
theorem Searches.unused {name : DevName} (hnames : NamesAgree name.text) {a : Act}
    (ha : Searches (devPath name.text) a) (hw : Unused name w) (d : Decision) :
    Unused name (exec d a w).2 := by
  intro m hm
  rcases Medium.exec_mounts d a w hm with hm | ⟨fs, ro, dev, p, rfl, rfl⟩
  · exact hw m hm
  · have hskip : skipDev (devPath name.text) dev = false := by
      rcases ha with h | h | ⟨_, _, hs, h⟩ | h | h
      · exact h.elim
      · cases h
      · cases h
        exact hs
      · cases h
      · cases h
    rintro ⟨node, hnode, fs', hvol⟩
    have hdev : dev = node := (VolId.dev.inj hvol).1
    have hpart : ∃ k ∈ [1, 2, 3, 4], dev = partP (devPath name.text) k := by
      rw [hdev]
      simp only [partNodes, List.mem_cons, List.not_mem_nil, or_false] at hnode
      rcases hnode with h | h
      · exact ⟨1, by decide, h.trans (diskP_eq_partNode hnames 1).symm⟩
      · exact ⟨2, by decide, h.trans (diskP_eq_partNode hnames 2).symm⟩
    obtain ⟨k, hk, hpart⟩ := hpart
    rw [hpart, (Medium.skipDev_part name k).mpr (Or.inr hk)] at hskip
    cases hskip

/-- A part of the script without signals, of which only what it keeps is
asked. -/
theorem leads_invariant {P : Act → Prop} {I : World → Prop} {p : Prog Act α}
    (hstep : ∀ a d v, P a → I v → I (exec d a v).2) (hp : Acts Tested P p) (hw : I w) :
    Leads False p (fun _ => I) w :=
  wp_mono (fun _ _ h => h) (fun _ _ _ => id) (wp_kept Cooperates.quiet hstep hp hw)

theorem tested_isBlock_node (node : Str) (w : World) :
    Leads False (tested (.isBlock node)) (fun b v => b = true → node ∈ v.nodes) w := by
  apply wp_step Cooperates.quiet
  intro d _
  refine ⟨trivial, fun hb => ?_⟩
  rw [show machine.exec = exec from rfl, exec_isBlock]
  exact Devices.mem_nodes_of_isBlock (beq_iff_eq.mp hb)

/-- Behind the loop of lines 35 to 42 the disk's node is there. -/
theorem waitDisk_node (disk : Str) (n : Nat) :
    ∀ w, Leads False (waitDisk disk n) (fun _ v => disk ∈ v.nodes) w := by
  induction n with
  | zero =>
      intro w
      apply leads_bind
      refine (tested_isBlock_node disk w).mono ?_
      intro b v hb
      cases b with
      | true => exact hb rfl
      | false => exact leads_cmd (fun hs => hs.elim) (fun _ _ => id)
  | succ n ih =>
      intro w
      apply leads_bind
      refine (tested_isBlock_node disk w).mono ?_
      intro b v hb
      cases b with
      | true => exact hb rfl
      | false => exact leads_cmd (fun hs => hs.elim) (fun u _ => ih u)

theorem untilTrap_node (disk : Str) (sysdevs : List SysDev) (answers : List Str) :
    Leads False (untilTrap disk sysdevs answers) (fun _ v => disk ∈ v.nodes) w := by
  have hany : ∀ {β : Type} (p : Prog Act β) (v : World), Leads False p (fun _ _ => True) v :=
    fun p v => wp_mono (fun _ _ h => h) (fun _ _ _ => id) (wp_trivial p)
  have hkeep : ∀ {β : Type} {p : Prog Act β} {v : World}, Acts Tested (Seeks disk) p →
      disk ∈ v.nodes → Leads False p (fun _ v => disk ∈ v.nodes) v := by
    intro β p v hp hv
    refine leads_invariant ?_ hp hv
    intro a d u ha hu
    have hpart : a.partitions = false := by
      rcases ha.1 with h | rfl | ⟨_, _, _, rfl⟩ | rfl | rfl
      · cases a <;> first | exact h.elim | rfl
      all_goals rfl
    rw [(exec_frame d a u).nodes hpart]
    exact hu
  apply leads_bind
  refine (hany _ _).mono (fun _ v _ => leads_bind ?_)
  refine (hany _ _).mono (fun _ v _ => leads_bind ?_)
  refine (hany _ _).mono (fun _ v _ => leads_bind ?_)
  refine (waitDisk_node disk 30 v).mono (fun _ v hv => leads_bind ?_)
  refine (hkeep (mkdir_seeks disk) hv).mono (fun _ v hv => leads_bind ?_)
  refine (hkeep (searchMedia_seeks disk sysdevs _) hv).mono (fun f v hv => leads_bind ?_)
  exact (hkeep (noteMedium_seeks disk f) hv).mono (fun _ _ hv => hv)

/-- The state behind the search. -/
structure Searched (disk : Str) (f : Found) (w v : World) : Prop where
  shape : Shape (points w.mounts) w.echo none (medium f) [] v
  disks : v.disks = w.disks
  node : disk ∈ v.nodes
  unused : ∀ name : DevName, devPath name.text = disk → NamesAgree name.text →
    Unused name w → Unused name v
  origin : Origin f

/-- **The search, in a run that has come past it.** -/
theorem untilTrap_done {O : Nat → Act → Decision} {disk : Str} {sysdevs : List SysDev}
    {answers : List Str} {f : Found} {as : List Str} (hw : Start w)
    (hdone : (go machine O (untilTrap disk sysdevs answers) 0 w).outcome = .done (f, as)) :
    Searched disk f w (go machine O (untilTrap disk sysdevs answers) 0 w).final ∧
      as = answers.tail := by
  have hseeks := untilTrap_seeks disk sysdevs answers
  have hsat : ∀ {A : Event World Act Decision → Prop} {Q : Found × List Str → World → Prop}
      {E : Ended → World → Prop} {S : Event World Act Decision → Prop},
      wp machine A S (untilTrap disk sysdevs answers) Q E w →
      (∀ e ∈ (go machine O (untilTrap disk sysdevs answers) 0 w).trace, A e) →
      Q (f, as) (go machine O (untilTrap disk sysdevs answers) 0 w).final := by
    intro A Q E S h hA
    have hend := (go_sound O _ 0 w h hA).2
    rw [hdone] at hend
    exact hend
  have htrapless : Trapless (go machine O (untilTrap disk sysdevs answers) 0 w).final :=
    hsat (wp_trapless (hseeks.mono (fun _ h => h.2)) ⟨hw.trap, hw.fresh⟩) (fun _ _ => trivial)
  have hquiet := quiet_of_fresh hdone htrapless.fresh
  have horderly : ∀ e ∈ (go machine O (untilTrap disk sysdevs answers) 0 w).trace, Orderly e := by
    intro e he
    refine ⟨honest_of_done hseeks hdone e he (hquiet e he).1, fun _ hsig => ?_⟩
    exact absurd (hquiet e he).2 hsig
  have hcoop : ∀ e ∈ (go machine O (untilTrap disk sysdevs answers) 0 w).trace,
      Cooperates False e := fun e he => ⟨(hquiet e he).2, fun h => h.elim⟩
  have hreturns := hsat (wp_returns (untilTrap_returns disk sysdevs answers) (wp_trivial _))
    (A := fun _ => True) (fun _ _ => trivial)
  refine ⟨⟨?_, ?_, ?_, ?_, hreturns.1.1⟩, hreturns.1.2⟩
  · exact hsat (untilTrap_spec hw.free disk sysdevs answers
      ⟨hw.trap, rfl, hw.held, hw.fresh, rfl⟩) horderly
  · exact hsat (leads_invariant (I := fun v => v.disks = w.disks)
      (fun a d v _ hv => (exec_frame d a v).disks.trans hv) hseeks rfl) hcoop
  · exact hsat (untilTrap_node disk sysdevs answers) hcoop
  · rintro name rfl hnames hunused
    exact hsat (leads_invariant (I := Unused name)
      (fun a d v ha hv => Searches.unused hnames ha.1 hv d) hseeks hunused) hcoop

end Search

/-! ## Behind the first trap -/

/-- The medium is mounted once at most, not at all if there was none (`had`)
or the cleanup action has run for a signal, and every trap covers it. -/
structure Tidy (had : Prop) (w : World) : Prop where
  once : (points w.mounts).count bm ≤ 1
  gone : (w.interrupted = true ∨ ¬ had) → bm ∉ points w.mounts
  covered : ∀ ops ∈ w.trap, bm ∈ ops

/-- A command that mounts no medium, and sets no trap that forgets it. -/
structure Minds (a : Act) : Prop where
  mount : ∀ fs ro dev p, a = .mount fs ro dev p → p ≠ bm
  trap : ∀ ops, a = .setTrap (some ops) → bm ∈ ops

section Rest

variable {had : Prop} {w : World} {α : Type}

theorem Minds.of_late {a : Act} (h : ∀ fs ro dev p, a ≠ .mount fs ro dev p)
    (ht : a.traps = false) : Minds a := by
  constructor
  · intro fs ro dev p ha
    exact absurd ha (h fs ro dev p)
  · rintro ops rfl
    cases ht

theorem Fills.minds {a : Act} (h : Fills a) : Minds a :=
  Minds.of_late (Guard.Fills.late h).2 (Mounts.Fills.plain h).2.2

theorem Prepares.minds {disk : Str} {a : Act} (h : Prepares disk a) : Minds a := by
  rcases h with h | ⟨s, rfl⟩ | rfl | rfl
  · exact Fills.minds (Asks.fills h)
  all_goals exact Minds.of_late (by simp) rfl

/-- A change of the mounts that mounts no medium. -/
theorem Tidy.of_points {v : World} (h : Tidy had w)
    (hcount : (points v.mounts).count bm ≤ (points w.mounts).count bm)
    (hint : v.interrupted = w.interrupted) (htrap : ∀ ops ∈ v.trap, bm ∈ ops) :
    Tidy had v := by
  refine ⟨hcount.trans h.once, fun hgone hmem => ?_, htrap⟩
  rw [hint] at hgone
  have hzero : (points w.mounts).count bm = 0 := List.count_eq_zero.mpr (h.gone hgone)
  have hpos : 0 < (points v.mounts).count bm := List.count_pos_iff.mpr hmem
  omega

/-- `umount` leaves no more mounts than there were. -/
theorem count_umount (d : Decision) (ps : List Path) (p : Path) (w : World) :
    (points (exec d (.umount ps) w).2.mounts).count p ≤ (points w.mounts).count p := by
  simp only [exec]
  split
  · exact Nat.le_refl _
  · rw [umountAll_points]
    exact (umountPoints_sublist w.held ps _).count_le p

theorem Tidy.exec (h : Tidy had w) (d : Decision) {a : Act} (ha : Minds a) :
    Tidy had (exec d a w).2 := by
  have hf := exec_frame d a w
  have htrap : ∀ ops ∈ (System.exec d a w).2.trap, bm ∈ ops := by
    intro ops hops
    cases ht : a.traps with
    | false =>
        rw [hf.trap ht] at hops
        exact h.covered ops hops
    | true =>
        cases a
        case setTrap tr =>
          rw [exec_setTrap] at hops
          exact ha.trap ops (congrArg Act.setTrap hops)
        all_goals cases ht
  refine h.of_points ?_ hf.interrupted htrap
  cases hm : a.remounts with
  | false =>
      rw [hf.mounts hm]
  | true =>
      cases a
      case mount fs ro dev p =>
        rcases exec_mount d fs ro dev p w with ⟨_, _, he⟩ | he
        · rw [he]
          have hne : p ≠ bm := ha.mount fs ro dev p rfl
          show (p :: points w.mounts).count bm ≤ _
          rw [List.count_cons_of_ne hne]
        · rw [he]
      case umount ps => exact count_umount d ps bm w
      all_goals cases hm

/-- After a signal the medium is unmounted, or the script ends. -/
theorem Tidy.resume (h : Tidy had w) (d : Decision) :
    resume machine (fun _ => True) (fun _ => True) (fun _ _ => True) d (Tidy had) w := by
  simp only [Shell.Logic.resume]
  split
  · exact h
  · split
    · trivial
    · rename_i t ht
      obtain ⟨ops, hops, rfl⟩ := Option.map_eq_some_iff.mp ht
      intro d' _
      refine ⟨trivial, ?_⟩
      split
      · rename_i h0
        have hfree : bm ∉ points (System.exec d' (.umount ops) w).2.mounts := by
          cases hfails : d'.fails with
          | true =>
              rw [show machine.exec = System.exec from rfl, System.exec, if_pos hfails] at h0
              exact absurd h0 Nat.one_ne_zero
          | false =>
              have hexec := exec_umount hfails ops w
              rw [show machine.exec = System.exec from rfl, hexec] at h0
              rw [hexec]
              show bm ∉ points (umountAll w.held ops w.mounts)
              rw [umountAll_points]
              refine not_mem_umountPoints (h.covered ops hops) h.once ?_
              by_contra hno
              rw [Bool.not_eq_true] at hno
              simp only [hno] at h0
              exact absurd h0 Nat.one_ne_zero
        refine ⟨(count_umount d' ops bm w).trans h.once, fun _ => hfree, ?_⟩
        show ∀ ops' ∈ (System.exec d' (.umount ops) w).2.trap, bm ∈ ops'
        rw [(exec_frame d' (.umount ops) w).trap rfl]
        exact h.covered
      · trivial

/-- A part of the script keeps the state tidy, whatever happens. -/
theorem wp_tidy {p : Prog Act α} (hp : Acts Tested Minds p) (hw : Tidy had w) :
    wp machine (fun _ => True) (fun _ => True) p (fun _ => Tidy had) (fun _ _ => True) w :=
  wp_invariant (fun _ d _ ha hv _ => ⟨trivial, (hv.exec d ha).resume d⟩)
    (fun _ _ _ _ => trivial) hp hw

theorem wp_tidy_then {β : Type} {p : Prog Act β} {k : β → Prog Act α} {Q : α → World → Prop}
    (hp : Acts Tested Minds p) (hw : Tidy had w)
    (h : ∀ b v, Tidy had v →
      wp machine (fun _ => True) (fun _ => True) (k b) Q (fun _ _ => True) v) :
    wp machine (fun _ => True) (fun _ => True) (p >>= k) Q (fun _ _ => True) w :=
  wp_bind p k (wp_mono (fun b v hv => h b v hv) (fun _ _ hx => hx) (wp_tidy hp hw))

theorem minds_cmd {a : Act} (h : ∀ fs ro dev p, a ≠ .mount fs ro dev p) (ht : a.traps = false) :
    Acts Tested Minds (cmd a) :=
  acts_cmd (Minds.of_late h ht)

/-- `umount` has succeeded, so its operand was mounted. -/
theorem mounted_of_umount {d : Decision} {p : Path}
    (h0 : (System.exec d (.umount [p]) w).1.status = 0) : p ∈ points w.mounts := by
  cases hfails : d.fails with
  | true =>
      rw [System.exec, if_pos hfails] at h0
      exact absurd h0 Nat.one_ne_zero
  | false =>
      rw [exec_umount hfails] at h0
      by_contra hno
      have hrefused : umountOk w.held [p] (points w.mounts) = false := by
        simp [umountOk, canUmount, mountedOn, hno]
      rw [hrefused] at h0
      exact absurd h0 Nat.one_ne_zero

/-- Lines 195 to 202: the last `umount` needs the medium. -/
theorem finish_ends (disk pu user : Str) (hw : Tidy had w) :
    wp machine (fun _ => True) (fun _ => True) (finish disk pu user)
      (fun _ v => v.interrupted = false ∧ had) (fun _ _ => True) w := by
  apply wp_tidy_then (minds_cmd (by simp) rfl) hw
  intro _ v hv
  apply wp_tidy_then (minds_cmd (by simp) rfl) hv
  intro _ v hv
  apply wp_tidy_then (minds_cmd (by simp) rfl) hv
  intro _ v hv
  apply wp_tidy_then (minds_cmd (by simp) rfl) hv
  intro _ v hv
  apply wp_cmd_trapless (fun d => by rw [exec_setTrap])
  intro d _
  have hu : Tidy had (System.exec d (.setTrap none) v).2 :=
    hv.exec d ⟨by simp, fun _ h => by cases h⟩
  have htrap : (System.exec d (.setTrap none) v).2.trap = none := by rw [exec_setTrap]
  generalize (System.exec d (.setTrap none) v).2 = u at hu htrap
  apply wp_cmd_trapless (fun d => ((exec_frame d (.umount [bm]) u).trap rfl).trans htrap)
  intro d h0
  have hmem := mounted_of_umount h0
  have hstill : u.interrupted = false ∧ had := by
    constructor
    · rw [← Bool.not_eq_true]
      exact fun hint => hu.gone (Or.inl hint) hmem
    · by_contra hno
      exact hu.gone (Or.inr hno) hmem
  have hf := exec_frame d (.umount [bm]) u
  have hlast : Trapless (System.exec d (.umount [bm]) u).2 :=
    ⟨(hf.trap rfl).trans htrap, hf.interrupted.trans hstill.1⟩
  refine wp_mono (fun _ _ hv => ⟨hv.fresh, hstill.2⟩) (fun _ _ hx => hx) (wp_trapless ?_ hlast)
  exact acts_cmd rfl

theorem mountTarget_minds (disk : Str) : Acts Tested Minds (mountTarget disk) := by
  have hmount : ∀ fs ro dev p, p ≠ bm → Acts Tested Minds (cmd (.mount fs ro dev p)) := by
    intro fs ro dev p hp
    refine acts_cmd ⟨?_, fun ops h => by cases h⟩
    intro fs' ro' dev' p' h
    cases h
    exact hp
  refine acts_bind (minds_cmd (by simp) rfl) (fun _ => ?_)
  refine acts_bind (hmount _ _ _ _ (by decide)) (fun _ => ?_)
  refine acts_bind (acts_cmd ⟨by simp, ?_⟩) (fun _ => ?_)
  · intro ops h
    cases h
    decide
  · exact acts_bind (minds_cmd (by simp) rfl) (fun _ => hmount _ _ _ _ (by decide))

theorem writeNormal_minds (pu : Str) : Acts Tested Minds (writeNormal pu) := by
  refine acts_bind (minds_cmd (by simp) rfl) (fun _ => ?_)
  refine acts_bind (minds_cmd (by simp) rfl) (fun _ => ?_)
  exact acts_bind (minds_cmd (by simp) rfl) (fun _ => minds_cmd (by simp) rfl)

theorem writeGroup_minds (user : Str) : Acts Tested Minds (writeGroup user) := by
  refine acts_bind (minds_cmd (by simp) rfl) (fun _ => ?_)
  refine acts_bind (acts_capture (Minds.of_late (by simp) rfl)) (fun _ => ?_)
  refine acts_bind (acts_forEach (fun _ _ => minds_cmd (by simp) rfl)) (fun _ => ?_)
  exact acts_bind (minds_cmd (by simp) rfl) (fun _ => minds_cmd (by simp) rfl)

/-- **Behind the search.**  An installation that comes to its end has received
no signal, and a medium was mounted. -/
theorem installOn_ends (disk espsz : Str) (f : Found) (as : List Str) (hw : Tidy had w) :
    wp machine (fun _ => True) (fun _ => True) (installOn disk espsz f as)
      (fun _ v => v.interrupted = false ∧ had) (fun _ _ => True) w := by
  have hfills : ∀ {β : Type} {p : Prog Act β}, Acts Tested Fills p → Acts Tested Minds p :=
    fun hp => hp.mono (fun _ h => Fills.minds h)
  apply wp_tidy_then ((makeFilesystems_prepares disk espsz).mono (fun _ h => Prepares.minds h)) hw
  intro _ v hv
  apply wp_tidy_then (mountTarget_minds disk) hv
  intro _ v hv
  apply wp_tidy_then (hfills copySystem_fills) hv
  intro _ v hv
  apply wp_tidy_then (hfills (copyBootFiles_fills disk f)) hv
  intro pu v hv
  apply wp_tidy_then (writeNormal_minds pu) hv
  intro _ v hv
  apply wp_tidy_then (hfills (writeRescueIf_fills f.initrd)) hv
  intro _ v hv
  apply wp_tidy_then (minds_cmd (by simp) rfl) hv
  intro _ v hv
  apply wp_tidy_then (hfills ((askAccounts_asks as).mono (fun _ => Asks.fills))) hv
  intro a v hv
  apply wp_tidy_then (hfills (writePasswd_fills a.user)) hv
  intro _ v hv
  apply wp_tidy_then (minds_cmd (by simp) rfl) hv
  intro _ v hv
  apply wp_tidy_then (hfills (writeUserShadow_fills a)) hv
  intro _ v hv
  apply wp_tidy_then (writeGroup_minds a.user) hv
  intro _ v hv
  exact finish_ends disk pu a.user hv

end Rest

/-! ## The disk -/

/-- A disk of the machine, whose partitions have the names the script gives
them. -/
def Known (disk : Str) (w : World) : Prop :=
  ∃ name ∈ w.disks, devPath name.text = disk ∧ NamesAgree name.text

section Known

variable {disk : Str} {w : World} {α : Type}

/-- Of another disk the script cannot read a UUID. -/
theorem extractPU_unknown (h : ¬ Known disk w) : extractPU disk (w.dump disk) = [] := by
  have hempty : extractPU disk [] = [] := rfl
  unfold World.dump
  cases hdisk : w.diskOf disk with
  | none => exact hempty
  | some name =>
      have hmem : name ∈ w.disks := List.mem_of_find?_eq_some hdisk
      have hpath : devPath name.text = disk := by
        unfold World.diskOf at hdisk
        simpa using List.find?_some hdisk
      have hnames : ¬ NamesAgree name.text := fun hn => h ⟨name, hmem, hpath, hn⟩
      cases w.layout with
      | none => exact hempty
      | some t =>
          rw [← hpath]
          exact extractPU_disagree t hnames

theorem leads_disks {P : Act → Prop} {p : Prog Act α} (hp : Acts Tested P p) :
    Leads False p (fun _ v => v.disks = w.disks) w :=
  leads_invariant (fun a d v _ hv => (exec_frame d a v).disks.trans hv) hp rfl

/-- Lines 127 to 134 end the script then. -/
theorem copyBootFiles_known (hunknown : ¬ Known disk w) (f : Found) :
    Leads False (copyBootFiles disk f) (fun _ _ => False) w := by
  refine leads_cmd (fun h => h.elim) (fun v₁ h₁ => ?_)
  refine leads_cmd (fun h => h.elim) (fun v₂ h₂ => ?_)
  refine leads_cmd (fun h => h.elim) (fun v₃ h₃ => ?_)
  refine leads_cmd (fun h => h.elim) (fun v₄ h₄ => ?_)
  have hdisks : v₄.disks = w.disks := by
    rw [h₄.frame.disks, h₃.frame.disks, h₂.frame.disks, h₁.frame.disks]
  have hunknown₄ : ¬ Known disk v₄ := by
    unfold Known
    rw [hdisks]
    exact hunknown
  refine leads_capture (fun h => h.elim) (fun d _ _ => ?_)
  have hout : (exec d (.readPU disk) v₄).1.out = [] := by
    show (if d.fails then [] else extractPU disk (v₄.dump disk)) = []
    rw [extractPU_unknown hunknown₄, ite_self]
  rw [hout, if_pos rfl]
  exact leads_cmd (fun h => h.elim) (fun _ _ => id)

/-- **An installation that comes to its end knows its disk.** -/
theorem installOn_known (hunknown : ¬ Known disk w) (espsz : Str) (f : Found) (as : List Str) :
    Leads False (installOn disk espsz f as) (fun _ _ => False) w := by
  apply leads_bind
  refine (leads_disks (makeFilesystems_prepares disk espsz)).mono (fun _ v₁ h₁ => leads_bind ?_)
  refine (leads_disks (Devices.mountTarget_writes disk)).mono (fun _ v₂ h₂ => leads_bind ?_)
  refine (leads_disks copySystem_fills).mono (fun _ v₃ h₃ => leads_bind ?_)
  have hunknown₃ : ¬ Known disk v₃ := by
    unfold Known
    rw [h₃, h₂, h₁]
    exact hunknown
  exact (copyBootFiles_known hunknown₃ f).mono (fun _ _ h => h.elim)

end Known

/-! ## The end -/

section End

variable {disk : Str} {f : Found} {w v : World}

theorem Searched.tidy (h : Searched disk f w v) (hfree : bm ∉ points w.mounts) :
    Tidy (f.initrd.isSome = true) v := by
  have hpoints : points v.mounts = medium f ++ points w.mounts := h.shape.mounted
  have hzero : (points w.mounts).count bm = 0 := List.count_eq_zero.mpr hfree
  refine ⟨?_, ?_, ?_⟩
  · rw [hpoints, List.count_append, hzero]
    rcases medium_cases f with hm | hm
    · rw [hm]
      exact Nat.zero_le 1
    · rw [hm]
      exact Nat.le_refl 1
  · rintro (hint | hnone)
    · rw [h.shape.fresh] at hint
      cases hint
    · have hm : medium f = [] := if_neg hnone
      rw [hpoints, hm]
      exact hfree
  · intro ops hops
    rw [h.shape.trap] at hops
    cases hops

/-- **What is known when the script has come to its last line.** -/
theorem afterSearch_done {O : Nat → Act → Decision} {n : Nat} {espsz : Str} {as : List Str}
    (h : Searched disk f w v) (hfree : bm ∉ points w.mounts)
    (hdone : (go machine O (afterSearch disk espsz f as) n v).outcome = .done ()) :
    (∀ e ∈ (go machine O (afterSearch disk espsz f as) n v).trace, Cooperates False e) ∧
      f.initrd.isSome = true ∧ Known disk w := by
  have hends : wp machine (fun _ => True) (fun _ => True) (afterSearch disk espsz f as)
      (fun _ u => u.interrupted = false ∧ f.initrd.isSome = true) (fun _ _ => True) v := by
    refine wp_tidy_then (acts_cmd ⟨by simp, ?_⟩) (h.tidy hfree)
      (fun _ u hu => installOn_ends disk espsz f as hu)
    intro ops hops
    cases hops
    exact List.mem_singleton.mpr rfl
  have hend := (go_sound O _ n v hends (fun _ _ => trivial)).2
  rw [hdone] at hend
  have hcoop : ∀ e ∈ (go machine O (afterSearch disk espsz f as) n v).trace,
      Cooperates False e :=
    fun e he => ⟨(quiet_of_fresh hdone hend.1 e he).2, fun hs => hs.elim⟩
  refine ⟨hcoop, hend.2, ?_⟩
  by_contra hunknown
  have hnever : Leads False (afterSearch disk espsz f as) (fun _ _ => False) v := by
    refine leads_cmd (fun hs => hs.elim) (fun u hu => installOn_known ?_ espsz f as)
    unfold Known
    rw [hu.frame.disks, h.disks]
    exact hunknown
  have hfalse := (go_sound O _ n v hnever hcoop).2
  rw [hdone] at hfalse
  exact hfalse

end End

end Slinux.Installer.Course
