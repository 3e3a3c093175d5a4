import Slinux.Installer.Guard
import Slinux.Installer.Home

/-!
# Commands that have their operands

Two questions are asked about the installation proper: what it leaves if it
comes to its end, and whether it comes to its end if every command succeeds
whose operands exist.  Both are answered along the same walk through the
script.  `Leads sure p Q w` says that `p`, started in `w`, ends in `Q` if it
ends normally, in any environment without signals; and that in an environment
that is `sure` to let a command with operands succeed, it ends normally.

The files that a part of the script does not write are the same after it.
This holds for everything that can be seen, on the target and elsewhere,
because only paths below `/mnt/root` lead to the target.

## Main results

* `leads_cmd`, `leads_capture`, `leads_bind` — the rules.
* `Calls.keep`, `leads_keep` — what a command, and a part of the script, does
  not write stays as it is.
* `Did.made` — `mkdir -p` makes its directories.
-/

namespace Slinux.Installer.Operands

open Slinux.Shell.Text
open Slinux.Shell.Script
open Slinux.Shell.Logic
open Slinux.Unix.Files
open Slinux.Disk.Name
open Slinux.Installer.System
open Slinux.Installer.Effects
open Slinux.Installer.Script
open Slinux.Installer.Files
open Slinux.Installer.Target
open Slinux.Installer.Guard

/-! ## Operands -/

/-- The operands of a command exist: the files it reads, the directories it
writes to, its devices, the volumes it unmounts.  A directory that `mkdir -p`
is asked for need not exist. -/
def operands (a : Act) (w : World) : Bool :=
  match a with
  | .readLine line | .getpass _ line => line.isSome
  | .isFile p | .openIn p => w.isFile p
  | .isDir p | .chownR p => w.isDir p
  | .isBlock node | .sfdisk node _ | .mkfsFat node | .mke2fs node => w.nodes.contains node
  | .mount fs _ dev point => (w.vols (.dev dev fs)).isSome && w.isDir point
  | .umount ps => umountOk w.held ps (points w.mounts)
  | .cpA src dst => w.isDir [src] && w.isDir dst
  | .cp src dst | .mv src dst => w.isFile src && w.isDir dst.dropLast
  | .chown _ _ route => (w.node (normalize route)).isSome
  | .chmodSetuid p | .chmod _ p => (w.node p).isSome
  | .touch p | .write _ p _ | .openOut p => w.isDir p.dropLast
  | .say _ | .sleep | .mkdirP _ | .setTrap _ | .readPU _ | .cryptpw _ | .close | .sync => true

/-- No signal arrives with the command, and it succeeds if its operands
exist. -/
def Willing (e : Event World Act Decision) : Prop :=
  e.decision.signal = none ∧
    (operands e.act e.before = true → e.decision.fails = false ∧ e.resp.status = 0)

/-- No signal arrives with the command and, where we are sure of the
environment, it succeeds if its operands exist. -/
def Cooperates (sure : Prop) (e : Event World Act Decision) : Prop :=
  e.decision.signal = none ∧ (sure → Willing e)

theorem Cooperates.quiet {sure : Prop} :
    ∀ e, Cooperates sure e → machine.signal e.decision = none :=
  fun _ h => h.1

/-! ## The walk -/

/-- From `w`, the script ends in `Q` if it ends normally, and it does where we
are sure of the environment. -/
def Leads {α : Type} (sure : Prop) (p : Prog Act α) (Q : α → World → Prop) (w : World) : Prop :=
  wp machine (Cooperates sure) (fun _ => True) p Q (fun _ _ => ¬ sure) w

/-- The command has succeeded, and led from `w` to `v`. -/
structure Did (a : Act) (w v : World) : Prop where
  run : ∃ d, (exec d a w).1.status = 0 ∧ v = (exec d a w).2

theorem Did.frame {a : Act} {w v : World} (h : Did a w v) : Frame a w v := by
  obtain ⟨d, _, rfl⟩ := h.run
  exact exec_frame d a w

section Walk

variable {α β : Type} {sure : Prop} {Q : α → World → Prop} {w : World} {a : Act}

theorem leads_bind {p : Prog Act β} {k : β → Prog Act α}
    (h : Leads sure p (fun b => Leads sure (k b) Q) w) : Leads sure (p >>= k) Q w :=
  wp_bind p k h

theorem Leads.mono {p : Prog Act α} {Q' : α → World → Prop} (h : Leads sure p Q w)
    (hQ : ∀ a v, Q a v → Q' a v) : Leads sure p Q' w :=
  wp_mono hQ (fun _ _ hx => hx) h

/-- What holds at a normal end can be shown apart. -/
theorem Leads.and {p : Prog Act α} {Q' : α → World → Prop} (h : Leads sure p Q w)
    (h' : wp machine (Cooperates sure) (fun _ => True) p Q' (fun _ _ => True) w) :
    Leads sure p (fun a v => Q a v ∧ Q' a v) w :=
  wp_mono (fun _ _ hx => hx) (fun _ _ hx => hx.1) (wp_and h h')

/-- The common form of the commands under `set -e`. -/
theorem leads_untested {value : Resp → β} {status : Resp → Nat} {f : β → Prog Act α}
    (hcan : sure → operands a w = true)
    (hk : ∀ d, Cooperates sure (machine.event a d w) → (exec d a w).1.status = 0 →
      Leads sure (f (value (exec d a w).1)) Q (exec d a w).2) :
    Leads sure
      ((.step a (fun r => if r.status = 0 then .ret (value r) else .exit (status r))) >>= f)
      Q w := by
  apply wp_step Cooperates.quiet
  intro d hd
  refine ⟨trivial, ?_⟩
  show wp machine (Cooperates sure) _ ((if (exec d a w).1.status = 0 then
    Prog.ret (value (exec d a w).1) else .exit (status (exec d a w).1)).bind f) Q _ (exec d a w).2
  by_cases h0 : (exec d a w).1.status = 0
  · rw [if_pos h0]
    exact hk d hd h0
  · rw [if_neg h0]
    exact fun hsure => h0 ((hd.2 hsure).2 (hcan hsure)).2

/-- A command under `set -e`. -/
theorem leads_cmd {f : Unit → Prog Act α} (hcan : sure → operands a w = true)
    (hk : ∀ v, Did a w v → Leads sure (f ()) Q v) : Leads sure (cmd a >>= f) Q w :=
  leads_untested hcan (fun d _ h0 => hk _ ⟨d, h0, rfl⟩)

/-- The last command of a part. -/
theorem leads_last {Q : Unit → World → Prop} (hcan : sure → operands a w = true)
    (hk : ∀ v, Did a w v → Q () v) : Leads sure (cmd a) Q w := by
  rw [← bind_ret (cmd a)]
  exact leads_cmd hcan hk

/-- An assignment from the output of a command. -/
theorem leads_capture {f : Str → Prog Act α} (hcan : sure → operands a w = true)
    (hk : ∀ d, Cooperates sure (machine.event a d w) → (exec d a w).1.status = 0 →
      Leads sure (f (exec d a w).1.out) Q (exec d a w).2) :
    Leads sure (capture a >>= f) Q w :=
  leads_untested hcan hk

end Walk

/-! ## What stays -/

/-- Every path leads to a volume that exists. -/
structure Sane (w : World) : Prop where
  live : (w.vols .live).isSome = true
  mounted : ∀ m ∈ w.mounts, (w.vols m.vol).isSome = true

theorem Sane.locate {w : World} (h : Sane w) (p : Path) :
    (w.vols (w.locate p).1).isSome = true := by
  rcases locate_vol w p with hlive | ⟨m, hm, hvol, _⟩
  · rw [hlive]
    exact h.live
  · rw [← hvol]
    exact h.mounted m hm

/-- What is at a path is the same afterwards, or a directory has been made
there. -/
def Grown (before after : Option Kind) : Prop :=
  after = before ∨ (before = none ∧ after = some .dir)

section Grown

variable {a b c : Option Kind}

theorem Grown.refl (a : Option Kind) : Grown a a := Or.inl rfl

theorem Grown.trans (h : Grown a b) (h' : Grown b c) : Grown a c := by
  rcases h with rfl | ⟨ha, hb⟩
  · exact h'
  · rcases h' with rfl | ⟨hb', _⟩
    · exact Or.inr ⟨ha, hb⟩
    · rw [hb] at hb'
      cases hb'

/-- What is there stays. -/
theorem Grown.stays {k : Kind} (h : Grown a b) (ha : a = some k) : b = some k := by
  rcases h with rfl | ⟨hnone, _⟩
  · exact ha
  · rw [ha] at hnone
    cases hnone

/-- A file was there before. -/
theorem Grown.was {t : Str} (h : Grown a b) (hb : b = some (.file t)) : a = some (.file t) := by
  rcases h with rfl | ⟨_, hdir⟩
  · exact hb
  · rw [hb] at hdir
    cases hdir

end Grown

/-- What is seen outside these paths is the same afterwards. -/
structure Keep (ps : List Path) (w v : World) : Prop where
  grown : ∀ p ∉ ps, Grown (see w p) (see v p)
  sane : Sane w → Sane v

section Keep

variable {ps qs : List Path} {u v w : World}

theorem Keep.refl (ps : List Path) (w : World) : Keep ps w w :=
  ⟨fun _ _ => Grown.refl _, fun h => h⟩

theorem Keep.trans (h : Keep ps u v) (h' : Keep ps v w) : Keep ps u w :=
  ⟨fun p hp => (h.grown p hp).trans (h'.grown p hp), fun hs => h'.sane (h.sane hs)⟩

theorem Keep.files (h : Keep ps w v) (p : Path) (hp : p ∉ ps) (k : Kind)
    (hk : see w p = some k) : see v p = some k :=
  (h.grown p hp).stays hk

theorem Keep.isDir (h : Keep ps w v) {p : Path} (hp : p ∉ ps) (hd : w.isDir p = true) :
    v.isDir p = true :=
  (isDir_iff v p).mpr (h.files p hp _ ((isDir_iff w p).mp hd))

theorem Keep.isFile (h : Keep ps w v) {p : Path} (hp : p ∉ ps) (hf : w.isFile p = true) :
    v.isFile p = true := by
  obtain ⟨t, ht⟩ := (isFile_iff w p).mp hf
  exact (isFile_iff v p).mpr ⟨t, h.files p hp _ ht⟩

end Keep

/-- The mounted target. -/
def Mounted (name : DevName) (rest : List (Mount VolId)) (w : World) : Prop :=
  Full (espVol name) (rootVol name) rest w

section Mounted

variable {name : DevName} {rest : List (Mount VolId)} {w : World}

/-- Only its own path leads to a file of the target. -/
theorem Mounted.locate_inj (h : Mounted name rest w) {p p' : Path} (hp' : mntRoot <+: p')
    (hloc : w.locate p = w.locate p') : p = p' := by
  by_cases hesp : esp <+: p'
  · obtain ⟨q, rfl⟩ := hesp
    rw [Full.locate_esp h q] at hloc
    exact Full.esp_path h espVol_ne_rootVol espVol_ne_live hloc
  · obtain ⟨q, rfl⟩ := hp'
    rw [Full.locate_root h hesp] at hloc
    exact Full.root_path h espVol_ne_rootVol rootVol_ne_live hloc

end Mounted

/-- The command replaces at most what is at these paths. -/
structure Calls (ps : List Path) (a : Act) : Prop where
  format : formats a = false
  mount : a.remounts = false
  copy : ∀ src dst, a ≠ .cpA src dst
  paths : ∀ p ∈ replaces a, p ∈ ps

section Calls

variable {name : DevName} {rest : List (Mount VolId)} {w : World} {ps : List Path} {a : Act}

theorem locate_exec (d : Decision) (ha : a.remounts = false) (p : Path) :
    (exec d a w).2.locate p = w.locate p := by
  unfold World.locate
  rw [(exec_frame d a w).mounts ha]

theorem Sane.exec (h : Sane w) (d : Decision) (hf : formats a = false)
    (hm : a.remounts = false) : Sane (exec d a w).2 := by
  constructor
  · rw [exec_isSome d hf]
    exact h.live
  · rw [(exec_frame d a w).mounts hm]
    intro m hmem
    rw [exec_isSome d hf]
    exact h.mounted m hmem

/-- A command that replaces nothing keeps what there is on every volume. -/
theorem Calls.look_all (ha : Calls [] a) (d : Decision) (i : VolId) (q : Path) :
    Grown (look w i q) (look (exec d a w).2 i q) := by
  cases exec_look d ha.format w i q with
  | same hsame => exact Or.inl hsame
  | replaced p hp _ => exact absurd (ha.paths p hp) List.not_mem_nil
  | made routes _ hmade => exact Or.inr hmade.2
  | copied src dst hcopy _ _ => exact absurd hcopy (ha.copy src dst)

theorem Calls.keep_all (ha : Calls [] a) (d : Decision) : Keep [] w (exec d a w).2 := by
  refine ⟨?_, fun hs => hs.exec d ha.format ha.mount⟩
  intro p _
  unfold see
  rw [locate_exec d ha.mount]
  exact ha.look_all d _ _

/-- **What a command does not write stays as it is.** -/
theorem Calls.keep (ha : Calls ps a) (hps : ∀ p ∈ ps, mntRoot <+: p) (hw : Mounted name rest w)
    (d : Decision) : Keep ps w (exec d a w).2 := by
  refine ⟨?_, fun hs => hs.exec d ha.format ha.mount⟩
  intro p hp
  unfold see
  rw [locate_exec d ha.mount]
  cases exec_look d ha.format w (w.locate p).1 (w.locate p).2 with
  | same hsame => exact Or.inl hsame
  | replaced p' hp' hloc =>
      have hin := ha.paths p' hp'
      exact absurd (hw.locate_inj (hps p' hin) hloc.symm ▸ hin) hp
  | made routes _ hmade => exact Or.inr hmade.2
  | copied src dst hcopy _ _ => exact absurd hcopy (ha.copy src dst)

/-- **What a part of the script does not write stays as it is.** -/
theorem leads_keep {α : Type} {sure : Prop} {p : Prog Act α} {Q : α → World → Prop}
    (hp : Acts Tested (Calls ps) p) (hps : ∀ q ∈ ps, mntRoot <+: q) (hw : Mounted name rest w)
    (h : Leads sure p Q w) :
    Leads sure p (fun b v => Q b v ∧ Mounted name rest v ∧ Keep ps w v) w := by
  refine h.and (wp_kept (I := fun v => Mounted name rest v ∧ Keep ps w v) Cooperates.quiet ?_ hp
    ⟨hw, Keep.refl ps w⟩)
  rintro a d v ha ⟨hv, hkeep⟩
  exact ⟨Full.of_mounts hv ((exec_frame d a v).mounts ha.mount),
    hkeep.trans (ha.keep hps hv d)⟩

/-- The state after a part of the script that writes at most these paths and
opens no file for longer than a command. -/
structure After (name : DevName) (rest : List (Mount VolId)) (ps : List Path) (w v : World) :
    Prop where
  mounted : Mounted name rest v
  keep : Keep ps w v
  held : v.held = w.held

theorem wp_held {α : Type} {sure : Prop} {p : Prog Act α}
    (hp : Acts Tested (fun a => a.redirects = false) p) :
    wp machine (Cooperates sure) (fun _ => True) p (fun _ v => v.held = w.held)
      (fun _ _ => True) w :=
  wp_kept (I := fun v : World => v.held = w.held) Cooperates.quiet
    (fun a d v ha hv => ((exec_frame d a v).held ha).trans hv) hp rfl

theorem leads_phase {α : Type} {sure : Prop} {p : Prog Act α} {Q : α → World → Prop}
    (hp : Acts Tested (fun a => Calls ps a ∧ a.redirects = false) p)
    (hps : ∀ q ∈ ps, mntRoot <+: q) (hw : Mounted name rest w) (h : Leads sure p Q w) :
    Leads sure p (fun b v => Q b v ∧ After name rest ps w v) w := by
  have hkeep := leads_keep (hp.mono (fun _ h => h.1)) hps hw h
  refine (hkeep.and (wp_held (hp.mono (fun _ h => h.2)))).mono ?_
  rintro b v ⟨⟨hQ, hmounted, hkept⟩, hheld⟩
  exact ⟨hQ, hmounted, hkept, hheld⟩

end Calls

/-! ## Single commands -/

section Single

variable {name : DevName} {rest : List (Mount VolId)} {w v : World} {a : Act}

theorem Mounted.after (h : Mounted name rest w) (hd : Did a w v) (ha : a.remounts = false) :
    Mounted name rest v :=
  Full.of_mounts h (hd.frame.mounts ha)

theorem Did.keep {ps : List Path} (hd : Did a w v) (ha : Calls ps a)
    (hps : ∀ p ∈ ps, mntRoot <+: p) (hw : Mounted name rest w) : Keep ps w v := by
  obtain ⟨d, _, rfl⟩ := hd.run
  exact ha.keep hps hw d

theorem Did.look_all (hd : Did a w v) (ha : Calls [] a) (i : VolId) (q : Path) :
    Grown (look w i q) (look v i q) := by
  obtain ⟨d, _, rfl⟩ := hd.run
  exact ha.look_all d i q

theorem Did.keep_all (hd : Did a w v) (ha : Calls [] a) : Keep [] w v := by
  obtain ⟨d, _, rfl⟩ := hd.run
  exact ha.keep_all d

/-- `mkdir` leaves a directory. -/
theorem mkdir_isDir {w v : World} {p : Path} (h : w.mkdir p = some v)
    (hvol : (w.vols (w.locate p).1).isSome = true) : v.isDir p = true := by
  unfold World.mkdir at h
  split at h
  · rename_i hdir
    rw [← Option.some.inj h]
    exact hdir
  · rw [Option.ite_none_right_eq_some] at h
    rw [isDir_iff, ← Option.some.inj h.2]
    show look _ (w.locate p).1 (w.locate p).2 = _
    rw [look_put, if_pos ⟨rfl, hvol⟩]
    rfl

theorem Sane.mkdir {w v : World} (h : Sane w) {p : Path} (hv : w.mkdir p = some v) : Sane v := by
  constructor
  · rw [mkdir_isSome hv]
    exact h.live
  · rw [(mkdir_sameShell hv).mounts]
    intro m hm
    rw [mkdir_isSome hv]
    exact h.mounted m hm

/-- A step that makes directories and removes none. -/
def Makes (ps : List Path) (w v : World) : Prop :=
  Sane v ∧ (∀ q, w.isDir q = true → v.isDir q = true) ∧ ∀ p ∈ ps, v.isDir p = true

/-- A step that makes directories makes them all over a list. -/
theorem foldlM_makes {β : Type} {f : World → β → Option World} (ps : β → List Path)
    (hf : ∀ w b v, Sane w → f w b = some v → Makes (ps b) w v) (bs : List β) :
    ∀ {w v : World}, Sane w → bs.foldlM f w = some v → Makes (bs.flatMap ps) w v := by
  induction bs with
  | nil =>
      intro w v hw h
      rw [← Option.some.inj h]
      exact ⟨hw, fun _ hq => hq, fun p hp => absurd hp List.not_mem_nil⟩
  | cons b bs ih =>
      intro w v hw h
      rw [List.foldlM_cons] at h
      obtain ⟨u, hu, hrest⟩ := Option.bind_eq_some_iff.mp h
      obtain ⟨hsane, hmono, hmade⟩ := hf w b u hw hu
      obtain ⟨hsane', hmono', hmade'⟩ := ih hsane hrest
      refine ⟨hsane', fun q hq => hmono' q (hmono q hq), fun p hp => ?_⟩
      rw [List.flatMap_cons] at hp
      rcases List.mem_append.mp hp with hp | hp
      · exact hmono' p (hmade p hp)
      · exact hmade' p hp

/-- **`mkdir -p` makes its directories.** -/
theorem Did.made {routes : List (List Str)} (hd : Did (.mkdirP routes) w v) (hw : Sane w)
    {route : List Str} (hr : route ∈ routes) : v.isDir (normalize route) = true := by
  obtain ⟨d, h0, rfl⟩ := hd.run
  have hp := perform_of_status rfl h0
  simp only [perform, Option.map_eq_some_iff, Prod.mk.injEq] at hp
  obtain ⟨v, hv, _, hout⟩ := hp
  have hstep : ∀ u p u', Sane u → World.mkdir u p = some u' → Makes [p] u u' := by
    intro u p u' hu h
    refine ⟨hu.mkdir h, fun q hq => Home.mkdir_isDir_mono h hq, fun p' hp' => ?_⟩
    rw [List.mem_singleton.mp hp']
    exact mkdir_isDir h (hu.locate p)
  have hmade := foldlM_makes (fun r => (r.inits.map normalize).flatMap (fun p => [p]))
    (fun u r u' hu h => foldlM_makes (fun p => [p]) hstep _ hu h) routes hw hv
  rw [← hout]
  apply hmade.2.2
  refine List.mem_flatMap.mpr ⟨route, hr, List.mem_flatMap.mpr ⟨normalize route, ?_, ?_⟩⟩
  · exact List.mem_map_of_mem (List.mem_inits _ _ |>.mpr (List.prefix_refl _))
  · exact List.mem_singleton.mpr rfl

end Single

end Slinux.Installer.Operands
