import Slinux.Installer.Effects
import Slinux.Installer.Script

/-!
# Smooth runs

In a smooth run no command is kept from succeeding and no signal arrives, so
a command fails only for lack of an operand.  The rules of this module reduce
a command to the two outcomes of `perform`: the script goes on in the state
that `perform` gives, or ends with the status of the failure.  What is left to
prove about a smooth run is which operands exist.

## Main results

* `wp_cmd_smooth`, `wp_capture_smooth`, `wp_tested_smooth` — the rules for a
  command, an assignment from its output, and a test.
* `mkdirRoute_view` — `mkdir -p` looks at files and mounts only.
-/

namespace Slinux.Installer.Smooth

open Slinux.Shell.Text
open Slinux.Shell.Script
open Slinux.Shell.Logic
open Slinux.Unix.Files
open Slinux.Disk.Name
open Slinux.Installer.System
open Slinux.Installer.Effects
open Slinux.Installer.Script

/-- The command is not kept from succeeding, and no signal arrives. -/
def Unhindered (e : Event World Act Decision) : Prop :=
  e.decision.fails = false ∧ e.decision.signal = none

/-- A command that is not kept from succeeding does what `perform` says. -/
theorem exec_of_perform {d : Decision} (hd : d.fails = false) {a : Act} (ha : a.ordinary = true)
    {w w' : World} {out : Str} (h : perform d a w = some (out, w')) :
    exec d a w = (⟨0, out⟩, w') := by
  unfold exec
  split
  · cases ha
  · cases ha
  · simp [hd, h]

/-- Without its operands a command fails. -/
theorem exec_of_perform_none {d : Decision} (hd : d.fails = false) {a : Act}
    (ha : a.ordinary = true) {w : World} (h : perform d a w = none) :
    exec d a w = (failed, w) := by
  unfold exec
  split
  · cases ha
  · cases ha
  · simp [hd, h]

/-! ## Rules -/

section Rules

variable {α : Type} {A : Event World Act Decision → Prop} {Q : α → World → Prop}
variable {E : Ended → World → Prop} {w : World} {a : Act}
variable (hA : ∀ e, A e → Unhindered e)

include hA

/-- One command of a smooth run, with what follows its response. -/
theorem wp_step_smooth (ha : a.ordinary = true) {k : Resp → Prog Act α}
    (hok : ∀ d out w', A (machine.event a d w) → perform d a w = some (out, w') →
      wp machine A (fun _ => True) (k ⟨0, out⟩) Q E w')
    (hfail : ∀ d, A (machine.event a d w) → perform d a w = none →
      wp machine A (fun _ => True) (k failed) Q E w) :
    wp machine A (fun _ => True) (.step a k) Q E w := by
  apply wp_step (fun e he => (hA e he).2)
  intro d hd
  refine ⟨trivial, ?_⟩
  have hfails : d.fails = false := (hA _ hd).1
  show wp machine A _ (k (exec d a w).1) Q E (exec d a w).2
  cases hp : perform d a w with
  | none =>
      rw [exec_of_perform_none hfails ha hp]
      exact hfail d hd hp
  | some x =>
      rw [exec_of_perform hfails ha hp]
      exact hok d x.1 x.2 hd hp

/-- A command under `set -e`. -/
theorem wp_cmd_smooth (ha : a.ordinary = true) {f : Unit → Prog Act α}
    (hok : ∀ d out w', A (machine.event a d w) → perform d a w = some (out, w') →
      wp machine A (fun _ => True) (f ()) Q E w')
    (hfail : ∀ d, A (machine.event a d w) → perform d a w = none → E (.exited 1) w) :
    wp machine A (fun _ => True) (cmd a >>= f) Q E w :=
  wp_step_smooth hA ha hok hfail

/-- An assignment from the output of a command. -/
theorem wp_capture_smooth (ha : a.ordinary = true) {f : Str → Prog Act α}
    (hok : ∀ d out w', A (machine.event a d w) → perform d a w = some (out, w') →
      wp machine A (fun _ => True) (f out) Q E w')
    (hfail : ∀ d, A (machine.event a d w) → perform d a w = none → E (.exited 1) w) :
    wp machine A (fun _ => True) (capture a >>= f) Q E w :=
  wp_step_smooth hA ha hok hfail

/-- A command in a condition. -/
theorem wp_tested_smooth (ha : a.ordinary = true) {f : Bool → Prog Act α}
    (hok : ∀ d out w', A (machine.event a d w) → perform d a w = some (out, w') →
      wp machine A (fun _ => True) (f true) Q E w')
    (hfail : ∀ d, A (machine.event a d w) → perform d a w = none →
      wp machine A (fun _ => True) (f false) Q E w) :
    wp machine A (fun _ => True) (tested a >>= f) Q E w :=
  wp_step_smooth hA ha hok hfail

/-- A message. -/
theorem wp_say_smooth {text : Str} {f : Unit → Prog Act α}
    (h : ∀ v, SameShell w v → v.vols = w.vols → v.out = text :: w.out →
      wp machine A (fun _ => True) (f ()) Q E v) :
    wp machine A (fun _ => True) (cmd (.say text) >>= f) Q E w := by
  apply wp_cmd_smooth hA rfl
  · intro d out w' _ hp
    simp only [perform, Option.some.injEq, Prod.mk.injEq] at hp
    rw [← hp.2]
    exact h _ (by constructor <;> rfl) rfl rfl
  · intro d _ hp
    cases hp

/-- A test of the state. -/
theorem wp_test_smooth {b : Bool} (ha : a.ordinary = true)
    (hb : ∀ d, perform d a w = if b then some ([], w) else none) {f : Bool → Prog Act α}
    (h : wp machine A (fun _ => True) (f b) Q E w) :
    wp machine A (fun _ => True) (tested a >>= f) Q E w := by
  apply wp_tested_smooth hA ha
  · intro d out w' _ hp
    rw [hb d] at hp
    cases b with
    | false => cases hp
    | true =>
        cases hp
        exact h
  · intro d _ hp
    rw [hb d] at hp
    cases b with
    | false => exact h
    | true => cases hp

end Rules

/-! ## Calm environments -/

/-- The environment keeps no command from succeeding and sends no signal. -/
def Calm (O : Nat → Act → Decision) : Prop :=
  ∀ n a, (O n a).fails = false ∧ (O n a).signal = none

/-- A step in a calm environment. -/
theorem go_step_calm {α : Type} {O : Nat → Act → Decision} (hO : Calm O) (a : Act)
    (k : Resp → Prog Act α) (n : Nat) (w : World) :
    go machine O (.step a k) n w
      = (go machine O (k (exec (O n a) a w).1) (n + 1) (exec (O n a) a w).2).cons
        (machine.event a (O n a) w) := by
  have hsignal : machine.signal (O n a) = none := (hO n a).2
  rw [go]
  simp only [Machine.event, hsignal]
  rfl

/-- A step whose command has its operands. -/
theorem go_step_perform {α : Type} {O : Nat → Act → Decision} (hO : Calm O) {a : Act}
    (ha : a.ordinary = true) {n : Nat} {w w' : World} {out : Str}
    (h : perform (O n a) a w = some (out, w')) (k : Resp → Prog Act α) :
    go machine O (.step a k) n w
      = (go machine O (k ⟨0, out⟩) (n + 1) w').cons (machine.event a (O n a) w) := by
  rw [go_step_calm hO, exec_of_perform (hO n a).1 ha h]

/-- A step whose command lacks an operand. -/
theorem go_step_failed {α : Type} {O : Nat → Act → Decision} (hO : Calm O) {a : Act}
    (ha : a.ordinary = true) {n : Nat} {w : World} (h : perform (O n a) a w = none)
    (k : Resp → Prog Act α) :
    go machine O (.step a k) n w
      = (go machine O (k failed) (n + 1) w).cons (machine.event a (O n a) w) := by
  rw [go_step_calm hO, exec_of_perform_none (hO n a).1 ha h]

/-! ## `mkdir -p` -/

/-- The files of two states are the same. -/
def SameView (w v : World) : Prop := v.vols = w.vols ∧ v.mounts = w.mounts

theorem SameView.node {w v : World} (h : SameView w v) (p : Path) : v.node p = w.node p := by
  unfold World.node World.locate
  rw [h.1, h.2]

theorem SameView.isDir {w v : World} (h : SameView w v) (p : Path) : v.isDir p = w.isDir p := by
  unfold World.isDir
  rw [h.node p]

theorem SameView.put {w v : World} (h : SameView w v) (p : Path) (n : Node) :
    SameView (w.put p n) (v.put p n) := by
  unfold World.put World.onVol World.locate
  constructor
  · simp only [h.1, h.2]
  · exact h.2

/-- The same outcome, in states with the same files. -/
def SameResult : Option World → Option World → Prop
  | some w, some v => SameView w v
  | none, none => True
  | _, _ => False

theorem mkdir_view {w v : World} (h : SameView w v) (p : Path) :
    SameResult (w.mkdir p) (v.mkdir p) := by
  unfold World.mkdir World.canWrite
  rw [h.isDir, h.isDir, h.node]
  split
  · exact h
  · split
    · exact h.put p newDir
    · trivial

theorem foldlM_view {β : Type} {f : World → β → Option World}
    (hf : ∀ w v b, SameView w v → SameResult (f w b) (f v b)) :
    ∀ (bs : List β) (w v : World), SameView w v → SameResult (bs.foldlM f w) (bs.foldlM f v) := by
  intro bs
  induction bs with
  | nil => intro w v h; exact h
  | cons b bs ih =>
      intro w v h
      have hb := hf w v b h
      rw [List.foldlM_cons, List.foldlM_cons]
      cases hw : f w b with
      | none =>
          cases hv : f v b with
          | none => trivial
          | some v' => rw [hw, hv] at hb; exact hb.elim
      | some w' =>
          cases hv : f v b with
          | none => rw [hw, hv] at hb; exact hb.elim
          | some v' => rw [hw, hv] at hb; exact ih w' v' hb

/-- **`mkdir -p` looks at files and mounts only.** -/
theorem mkdirRoute_view {w v : World} (h : SameView w v) (route : List Str) :
    SameResult (w.mkdirRoute route) (v.mkdirRoute route) :=
  foldlM_view (fun _ _ p h' => mkdir_view h' p) _ w v h

end Slinux.Installer.Smooth
