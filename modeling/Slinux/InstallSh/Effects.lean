import Slinux.Installer.Home
import Slinux.InstallSh.Script

/-!
# What the commands of `install.sh` change

Most of the script fills the two file systems it has mounted.  Such a command
changes files and the terminal only, and files only where its operands lead:
below the two temporary directories, as long as the operands have no `..` in
them.  Everything else about it is the same for all of them, and is stated here
once (`exec_fills`).

## Main results

* `exec_fills` — the footprint of a command that fills.
* `fill_acts` — lines 58 to 146 consist of such commands.
-/

namespace Slinux.InstallSh.Effects

open Slinux.Shell.Text
open Slinux.Shell.Script
open Slinux.Shell.Logic
open Slinux.Unix.Files
open Slinux.Installer.Accounts
open Slinux.Installer.System (World VolId failed)
open Slinux.Installer.Effects (SameShell foldlM_sameShell mkdir_sameShell)
open Slinux.Installer.Home (PlainComp foldl_walk_plain)
open Slinux.InstallSh.System
open Slinux.InstallSh.Script

/-! ## Footprints -/

/-- The state with other files, and another terminal. -/
def refill (w : Host) (vols : VolId → Option Vol) (out : List Str) (echo : Bool) : Host :=
  { w with toWorld := { w.toWorld with vols := vols, out := out, echo := echo } }

/-- The paths a command changes, there or below. -/
def reaches (w : Host) : Act → List Path
  | .cpA _ m | .chownR m => [w.path m []]
  | .chmodSetids m rel | .touch m rel | .sed _ m rel | .tee _ m rel _ | .chmod _ m rel
  | .chown _ _ m rel | .cp _ m rel => [w.path m rel]
  | .mkdirP m rel => rel.inits.map (w.path m)
  | _ => []

/-- Commands that change files and the terminal only. -/
def fills : Act → Bool
  | .truncate _ _ | .sfdisk _ _ | .trapCleanup | .losetup _ | .mkfsVfat _ | .mkfsExt4 _
  | .mktemp _ | .mount _ _ | .cleanup => false
  | _ => true

/-- Only the terminal and the volumes of these paths differ. -/
def Refilled (ps : List Path) (w v : Host) : Prop :=
  ∃ vols out echo, v = refill w vols out echo ∧
    ∀ j, (∀ p ∈ ps, (w.locate p).1 ≠ j) → vols j = w.vols j

theorem Refilled.refl (ps : List Path) (w : Host) : Refilled ps w w :=
  ⟨w.vols, w.out, w.echo, rfl, fun _ _ => rfl⟩

theorem onVol_ne (w : World) {i j : VolId} (f : Vol → Vol) (h : i ≠ j) :
    (w.onVol i f).vols j = w.vols j :=
  if_neg (Ne.symm h)

theorem onVol_refilled (w : Host) (p : Path) (f : Path → Vol → Vol) :
    Refilled [p] w (w.lift (fun v => v.onVol (v.locate p).1 (f (v.locate p).2))) := by
  refine ⟨_, w.out, w.echo, rfl, fun j hj => ?_⟩
  exact onVol_ne w.toWorld _ (hj p (List.mem_singleton.mpr rfl))

/-- A node is put where a path leads. -/
theorem put_refilled (w : Host) (p : Path) (n : Node) :
    Refilled [p] w (w.lift (fun v => v.put p n)) :=
  onVol_refilled w p (fun q v => v.put q n)

theorem store_refilled (w : Host) (p : Path) (text : Str) :
    Refilled [p] w (w.lift (fun v => v.store p text)) :=
  put_refilled w p _

theorem mkdirs_refilled (w : Host) (ps : List Path) {v : World}
    (h : ps.foldlM World.mkdir w.toWorld = some v) : Refilled ps w (w.lift (fun _ => v)) := by
  have hshell : SameShell w.toWorld v :=
    foldlM_sameShell (fun _ _ _ hu => mkdir_sameShell hu) ps _ _ h
  refine ⟨v.vols, v.out, v.echo, ?_, fun j hj => ?_⟩
  · obtain ⟨disks, tty, echo, interrupted, nodes, layout, mounts, held, trap⟩ := hshell
    cases v
    simp only at disks tty interrupted nodes layout mounts held trap
    simp only [refill, Host.lift, disks, tty, interrupted, nodes, layout, mounts, held, trap]
  · -- one directory after the other, each on the volume its path leads to
    have hstep : ∀ (ps : List Path) (u : World), (∀ p ∈ ps, (u.locate p).1 ≠ j) →
        ps.foldlM World.mkdir u = some v → v.vols j = u.vols j := by
      intro ps
      induction ps with
      | nil => intro u _ hu; rw [← Option.some.inj hu]
      | cons p ps ih =>
          intro u hj hu
          rw [List.foldlM_cons] at hu
          obtain ⟨u', hu', hrest⟩ := Option.bind_eq_some_iff.mp hu
          have hmounts : u'.mounts = u.mounts := (mkdir_sameShell hu').mounts
          have hloc : ∀ p, u'.locate p = u.locate p := fun p => by
            unfold World.locate
            rw [hmounts]
          rw [ih u' (fun q hq => hloc q ▸ hj q (List.mem_cons_of_mem p hq)) hrest]
          unfold World.mkdir at hu'
          split at hu'
          · rw [← Option.some.inj hu']
          · rw [Option.ite_none_right_eq_some] at hu'
            rw [← Option.some.inj hu'.2]
            exact onVol_ne u _ (hj p List.mem_cons_self)
    exact hstep ps w.toWorld hj h

theorem perform_fills {d : Decision} {a : Act} (ha : fills a = true) {w v : Host} {out : Str}
    (h : perform d a w = some (out, v)) : Refilled (reaches w a) w v := by
  cases a
  case truncate | sfdisk | trapCleanup | losetup | mkfsVfat | mkfsExt4 | mktemp | mount | cleanup =>
    cases ha
  case say =>
    simp only [perform, Option.some.injEq, Prod.mk.injEq] at h
    exact h.2 ▸ ⟨w.vols, _, w.echo, rfl, fun _ _ => rfl⟩
  case haveOpenssl | sync | openssl =>
    simp only [perform, Option.some.injEq, Prod.mk.injEq] at h
    exact h.2 ▸ Refilled.refl _ w
  case isDir | isFile | blkid =>
    simp only [perform, Option.ite_none_right_eq_some, Option.some.injEq, Prod.mk.injEq] at h
    exact h.2.2 ▸ Refilled.refl _ w
  case readLine =>
    simp only [perform, Option.map_eq_some_iff, Prod.mk.injEq] at h
    obtain ⟨_, _, _, rfl⟩ := h
    exact Refilled.refl _ w
  case stty =>
    simp only [perform, Option.ite_none_right_eq_some, Option.some.injEq, Prod.mk.injEq] at h
    exact h.2.2 ▸ ⟨w.vols, w.out, _, rfl, fun _ _ => rfl⟩
  case cpA src m =>
    simp only [perform, Option.ite_none_right_eq_some, Option.some.injEq, Prod.mk.injEq] at h
    exact h.2.2 ▸ onVol_refilled w (w.path m []) (fun at_ v q =>
      if at_.isPrefixOf q then (w.node (src ++ q.drop at_.length)).or (v q) else v q)
  case chownR m =>
    simp only [perform, Option.ite_none_right_eq_some, Option.some.injEq, Prod.mk.injEq] at h
    exact h.2.2 ▸ onVol_refilled w (w.path m []) (fun at_ v q =>
      if at_.isPrefixOf q then (v q).map (Node.chown 0 0) else v q)
  case chmodSetids | chmod | chown =>
    simp only [perform, Option.map_eq_some_iff, Prod.mk.injEq] at h
    obtain ⟨_, _, _, rfl⟩ := h
    exact put_refilled w _ _
  case touch =>
    simp only [perform] at h
    split at h
    · rw [← (Prod.mk.inj (Option.some.inj h)).2]
      exact Refilled.refl _ w
    · simp only [Option.ite_none_right_eq_some, Option.some.injEq, Prod.mk.injEq] at h
      exact h.2.2 ▸ put_refilled w _ _
  case sed | tee | cp =>
    simp only [perform, Option.ite_none_right_eq_some, Option.some.injEq, Prod.mk.injEq] at h
    exact h.2.2 ▸ store_refilled w _ _
  case mkdirP m rel =>
    simp only [perform, Option.map_eq_some_iff, Prod.mk.injEq] at h
    obtain ⟨v', hv, _, rfl⟩ := h
    exact mkdirs_refilled w _ hv

/-- What a command of this machine other than the trap can do. -/
theorem exec_cases (d : Decision) {a : Act} (ha : a ≠ .cleanup) (w : Host) :
    (∃ out v, perform d a w = some (out, v) ∧ exec d a w = (⟨0, out⟩, v)) ∨
      exec d a w = (failed, w) := by
  unfold exec
  split
  · exact absurd rfl ha
  · split
    · exact Or.inr rfl
    · cases hp : perform d a w with
      | none => exact Or.inr rfl
      | some r => exact Or.inl ⟨r.1, r.2, rfl, rfl⟩

/-- **The footprint of a command that fills.** -/
theorem exec_fills (d : Decision) {a : Act} (ha : fills a = true) (w : Host) :
    Refilled (reaches w a) w (exec d a w).2 := by
  have hne : a ≠ .cleanup := fun h => by rw [h] at ha; cases ha
  rcases exec_cases d hne w with ⟨out, v, hp, he⟩ | he
  · rw [he]
    exact perform_fills ha hp
  · rw [he]
    exact Refilled.refl _ w

/-- A command that succeeded. -/
theorem perform_of_status {d : Decision} {a : Act} (ha : a ≠ .cleanup) {w : Host}
    (h0 : (exec d a w).1.status = 0) :
    perform d a w = some ((exec d a w).1.out, (exec d a w).2) := by
  rcases exec_cases d ha w with ⟨out, v, hp, he⟩ | he
  · rw [he]
    exact hp
  · rw [he] at h0
    cases h0

theorem trap_cleanup {w : Host} {t : Act} (h : machine.trap w = some t) : t = .cleanup := by
  have htrap : (if w.trapped = true then some Act.cleanup else none) = some t := h
  split at htrap
  · exact (Option.some.inj htrap).symm
  · cases htrap

/-! ## Plain paths -/

/-- A plain path stays below its directory. -/
theorem path_plain {w : Host} {m : Dir} {p : Path} (hvar : w.var m = some p) {rel : List Str}
    (hrel : ∀ c ∈ rel, PlainComp c) : w.path m rel = p ++ rel := by
  unfold Host.path
  rw [hvar]
  exact foldl_walk_plain hrel p

/-! ## The commands of each part -/

/-- The commands whose status the script looks at itself. -/
def Tested : Act → Prop
  | .isDir _ | .isFile _ | .haveOpenssl | .say _ | .stty _ | .readLine _ => True
  | _ => False

instance (c : Str) : Decidable (PlainComp c) :=
  inferInstanceAs (Decidable (c ≠ [] ∧ c ≠ ".".toList ∧ c ≠ "..".toList))

/-- Operands without `.` and `..`. -/
def Plain : Act → Prop
  | .chmodSetids _ rel | .touch _ rel | .sed _ _ rel | .tee _ _ rel _ | .chmod _ _ rel
  | .mkdirP _ rel | .chown _ _ _ rel | .cp _ _ rel => ∀ c ∈ rel, PlainComp c
  | _ => True

/-- Commands that fill the target, by way of plain paths. -/
def Fills (a : Act) : Prop := fills a = true ∧ Plain a

/-- The paths such a command changes lie below the two directories. -/
theorem reaches_plain {a : Act} (hp : Plain a) {w : Host} {p : Path} (h : p ∈ reaches w a) :
    ∃ m rel, p = w.path m rel ∧ ∀ c ∈ rel, PlainComp c := by
  have hnil : ∀ c ∈ ([] : List Str), PlainComp c := fun c hc => absurd hc List.not_mem_nil
  cases a
  case cpA src m => exact ⟨m, [], List.mem_singleton.mp h, hnil⟩
  case chownR m => exact ⟨m, [], List.mem_singleton.mp h, hnil⟩
  case chmodSetids m rel => exact ⟨m, rel, List.mem_singleton.mp h, hp⟩
  case touch m rel => exact ⟨m, rel, List.mem_singleton.mp h, hp⟩
  case sed script m rel => exact ⟨m, rel, List.mem_singleton.mp h, hp⟩
  case tee append m rel text => exact ⟨m, rel, List.mem_singleton.mp h, hp⟩
  case chmod mode m rel => exact ⟨m, rel, List.mem_singleton.mp h, hp⟩
  case chown uid gid m rel => exact ⟨m, rel, List.mem_singleton.mp h, hp⟩
  case cp src m rel => exact ⟨m, rel, List.mem_singleton.mp h, hp⟩
  case mkdirP m rel =>
    obtain ⟨r, hr, rfl⟩ := List.mem_map.mp h
    exact ⟨m, r, rfl, fun c hc => hp c (((List.mem_inits _ _).mp hr).subset hc)⟩
  all_goals exact absurd h List.not_mem_nil

theorem fills_cmd {a : Act} (h : fills a = true) (hp : Plain a) : Acts Tested Fills (cmd a) :=
  acts_cmd ⟨h, hp⟩

theorem attempt_fills {a : Act} (h : fills a = true) (hp : Plain a) (ht : Tested a) :
    Acts Tested Fills (attempt a) :=
  ⟨⟨h, hp⟩, Or.inl ht, fun _ => trivial⟩

theorem require_fills {test : Act} (h : fills test = true) (hp : Plain test) (ht : Tested test)
    (message : Str) : Acts Tested Fills (require test message) :=
  acts_bind (acts_tested ⟨h, hp⟩ ht) (fun _ =>
    acts_ite trivial (acts_bind (fills_cmd rfl trivial) (fun _ => Nat.one_ne_zero)))

theorem promptHidden_fills (text : Str) (line : Option Str) :
    Acts Tested Fills (promptHidden text line) := by
  refine acts_bind (attempt_fills rfl trivial trivial) (fun _ => ?_)
  refine acts_bind (attempt_fills rfl trivial trivial) (fun _ => ?_)
  refine acts_bind (acts_captureOrExit Nat.one_ne_zero ⟨rfl, trivial⟩) (fun _ => ?_)
  refine acts_bind (attempt_fills rfl trivial trivial) (fun _ => ?_)
  exact acts_bind (attempt_fills rfl trivial trivial) (fun _ => trivial)

/-- The prompt loop: by induction on the pairs of lines. -/
theorem askpass_fills (who : Str) : ∀ answers : List Str, Acts Tested Fills (askpass who answers)
  | [] => acts_bind (promptHidden_fills _ _) (fun _ => Nat.one_ne_zero)
  | [_] => acts_bind (promptHidden_fills _ _) (fun _ =>
      acts_bind (promptHidden_fills _ _) (fun _ => Nat.one_ne_zero))
  | _ :: _ :: answers => acts_bind (promptHidden_fills _ _) (fun _ =>
      acts_bind (promptHidden_fills _ _) (fun _ => acts_ite trivial
        (acts_bind (attempt_fills rfl trivial trivial) (fun _ => askpass_fills who answers))))

theorem readUser_fills (line : Option Str) : Acts Tested Fills (readUser line) := by
  refine ⟨⟨rfl, trivial⟩, Or.inl trivial, fun r => ?_⟩
  show Acts Tested Fills (if r.status = 0 then .ret r.out else _)
  by_cases h0 : r.status = 0
  · rw [if_pos h0]
    trivial
  · rw [if_neg h0]
    exact acts_bind (fills_cmd rfl trivial) (fun _ => Nat.one_ne_zero)

theorem askUser_fills (answers : List Str) : Acts Tested Fills (askUser answers) := by
  induction answers with
  | nil =>
      exact acts_bind (fills_cmd rfl trivial) (fun _ =>
        acts_bind (readUser_fills _) (fun _ => Nat.one_ne_zero))
  | cons l answers ih =>
      exact acts_bind (fills_cmd rfl trivial) (fun _ => acts_bind (readUser_fills _) (fun _ =>
        acts_ite trivial (acts_bind (fills_cmd rfl trivial) (fun _ => ih))))

theorem askAccounts_fills (answers : List Str) : Acts Tested Fills (askAccounts answers) := by
  refine acts_bind (fills_cmd rfl trivial) (fun _ => ?_)
  refine acts_bind (require_fills (show fills .haveOpenssl = true from rfl) trivial trivial _)
    (fun _ => ?_)
  refine acts_bind (askUser_fills _) (fun _ => acts_bind (askpass_fills _ _) (fun _ => ?_))
  refine acts_bind (acts_capture ⟨rfl, trivial⟩) (fun _ => ?_)
  refine acts_bind (askpass_fills _ _) (fun _ => ?_)
  exact acts_bind (acts_capture ⟨rfl, trivial⟩) (fun _ => trivial)

theorem copySystem_fills (root : Path) {setids : List Path}
    (hplain : ∀ f ∈ setids, ∀ c ∈ f, PlainComp c) :
    Acts Tested Fills (copySystem root setids) := by
  have hmarker : ∀ c ∈ [".slinux-installed".toList], PlainComp c := by decide
  refine acts_bind (fills_cmd rfl trivial) (fun _ => ?_)
  refine acts_bind (fills_cmd rfl trivial) (fun _ => ?_)
  refine acts_bind (fills_cmd rfl trivial) (fun _ => ?_)
  refine acts_bind (acts_forEach (fun f hf => fills_cmd rfl (hplain f hf))) (fun _ => ?_)
  exact fills_cmd rfl hmarker

theorem installLoader_fills (root : Path) (rootuuid : Str) :
    Acts Tested Fills (installLoader root rootuuid) := by
  have hboot : ∀ c ∈ espBoot, PlainComp c := by decide
  have hloader : ∀ c ∈ espBoot ++ ["BOOTX64.EFI".toList], PlainComp c := by decide
  have hkernel : ∀ c ∈ ["vmlinuz".toList], PlainComp c := by decide
  have hinitramfs : ∀ c ∈ ["initramfs.cpio.gz".toList], PlainComp c := by decide
  have hconf : ∀ c ∈ espBoot ++ ["limine.conf".toList], PlainComp c := by decide
  refine acts_bind (fills_cmd rfl trivial) (fun _ => acts_bind (fills_cmd rfl hboot) (fun _ => ?_))
  refine acts_bind (fills_cmd rfl hloader) (fun _ => ?_)
  refine acts_bind (fills_cmd rfl hkernel) (fun _ => ?_)
  exact acts_bind (fills_cmd rfl hinitramfs) (fun _ => fills_cmd rfl hconf)

end Slinux.InstallSh.Effects
