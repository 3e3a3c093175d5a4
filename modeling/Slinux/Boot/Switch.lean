import Slinux.Boot.Root
import Slinux.Shell.Logic

/-!
# Switching to the installed root

One boot is a chain of executions of `rc.init`: the first runs from the
initramfs, and each `exec switch_root` starts the same script again from the
new root.  The script tells the two situations apart by the marker
`/.slinux-installed`, which it creates on the new root with an unchecked
`touch` just before it hands over.

Every command of the script may succeed or fail at every execution.  What the
kernel command line, the disks and their dumps look like is also free at each
execution, because `/proc` and `/sys` are themselves mounted by commands that
may fail.

## Main results

* `rcInit_spec` — one execution keeps the marker invariant, provided its
  `touch` leaves the marker on the new root.
* `switchRoot_at_most_once` — under that condition at every execution, a boot
  executes `switch_root` at most once, however long the chain is.
* `switchRoot_twice` — with a failing `touch` it is executed again.
-/

namespace Slinux.Boot.Switch

open Slinux.Shell.Text
open Slinux.Shell.Script
open Slinux.Shell.Logic
open Slinux.Boot.Root

/-! ## The script -/

/-- The kernel's own file systems. -/
inductive Pseudo where
  | proc
  | sys
  | dev
  deriving Repr, DecidableEq

/-- The commands of lines 15 to 92. -/
inductive Act where
  | say
  | cat
  | mountpoint (p : Pseudo)
  | mountPseudo (p : Pseudo)
  | hasSmdev
  | hasNldev
  | smdev
  | nldev
  | mkdirRun
  | chmodTmp
  | marker
  | fsck (root : Str)
  | mkdirNewroot
  | mount (root : Str)
  | touchMarker
  | move (p : Pseudo)
  | mountInto (p : Pseudo)
  | switchRoot
  deriving Repr, DecidableEq

/-- How an execution of the script ends, as far as the root file system is
concerned. -/
inductive Fate where
  /-- The script goes on to start the system on the present root. -/
  | up
  /-- `exec /bin/sh`. -/
  | shell
  /-- The init of the new root runs. -/
  | switched
  /-- `exec switch_root` came back. -/
  | failed
  deriving Repr, DecidableEq

/-- What one execution reads from the kernel. -/
structure Env where
  cmdline : Str
  disks : List Disk
  paths : Str → List Str
  fsuuid : Str → Str → Bool

/-- A command whose status nobody looks at. -/
def run (a : Act) : Prog Act Unit := do
  let _ ← tested a

/-- `mountpoint -q /p || mount -t p p /p`. -/
def mountOnce (p : Pseudo) : Prog Act Unit := do
  if ← tested (.mountpoint p) then pure () else run (.mountPseudo p)

/-- `mount --move /p /newroot/p || mount -t p p /newroot/p`. -/
def moveOrMount (p : Pseudo) : Prog Act Unit := do
  if ← tested (.move p) then pure () else run (.mountInto p)

/-- `[ -x /bin/nldev ] && nldev -r /bin/smdev -b`. -/
def hotplug : Prog Act Unit := do
  if ← tested .hasNldev then run .nldev else pure ()

/-- Lines 27 to 30. -/
def coldplug : Prog Act Unit := do
  if ← tested .hasSmdev then
    run .smdev
    hotplug
  else pure ()

/-- Lines 15 to 33, and the reading of the command line in line 40. -/
def startup : Prog Act Unit := do
  run .cat
  run .say
  forEach mountOnce [.proc, .sys, .dev]
  coldplug
  run .mkdirRun
  run .chmodTmp
  run .cat

/-- Lines 88 to 92. -/
def handOver : Prog Act Fate := do
  forEach moveOrMount [.proc, .sys, .dev]
  run .say
  if ← tested .switchRoot then pure .switched else pure .failed

/-- Lines 81 to 92. -/
def switchTo (root : Str) : Prog Act Fate := do
  run (.fsck root)
  run .mkdirNewroot
  if ← tested (.mount root) then
    run .touchMarker
    handOver
  else
    run .say
    pure .shell

/-- Lines 15 to 93 of `rc.init`. -/
def rcInit (env : Env) : Prog Act Fate := do
  startup
  let installed ← tested .marker
  match selectRoot installed env.paths env.fsuuid env.disks env.cmdline with
  | .stay => pure .up
  | .shell =>
      run .say
      pure .shell
  | .use root => switchTo root

/-! ## Its effect -/

section Machine

variable {φ : Type} [DecidableEq φ]

/-- The root file system, the one on `/newroot`, which file systems carry the
marker, and how often `switch_root` has been executed since the machine was
started. -/
structure World (φ : Type) where
  root : φ
  newroot : Option φ
  marked : φ → Bool
  switches : Nat

/-- The status of a command that succeeds or fails as decided. -/
def statusOf (ok : Bool) : Resp := ⟨if ok then 0 else 1, []⟩

/-- The marker appears on the file system mounted on `/newroot`. -/
def World.mark (w : World φ) : World φ :=
  { w with marked := fun f => if w.newroot = some f then true else w.marked f }

/-- The new root takes over, if there is one. -/
def World.switch (w : World φ) : World φ :=
  { w with root := w.newroot.getD w.root, newroot := none }

/-- `exec switch_root`, counted whether or not it comes back. -/
def World.execSwitch (ok : Bool) (w : World φ) : World φ :=
  { (if ok then w.switch else w) with switches := w.switches + 1 }

/-- The effect of a command; `onDev` gives the file system on a device. -/
def exec (onDev : Str → φ) (ok : Bool) (a : Act) (w : World φ) : Resp × World φ :=
  match a with
  | .marker => (statusOf (w.marked w.root), w)
  | .mount root => (statusOf ok, if ok then { w with newroot := some (onDev root) } else w)
  | .touchMarker => (statusOf ok, if ok then w.mark else w)
  | .switchRoot => (statusOf ok, w.execSwitch ok)
  | _ => (statusOf ok, w)

/-- The boot script sets no traps. -/
def machine (onDev : Str → φ) : Machine (World φ) Act Bool where
  exec := exec onDev
  signal := fun _ => none
  trap := fun _ => none
  interrupt := id
  unwind := id

/-- A chain of executions, each with what it reads and how its commands turn
out: the state at the end and everything that was executed. -/
def boot (onDev : Str → φ) :
    List (Env × (Nat → Act → Bool)) → World φ → World φ × List (Event (World φ) Act Bool)
  | [], w => (w, [])
  | (env, O) :: rest, w =>
      let r := go (machine onDev) O (rcInit env) 0 w
      match r.outcome with
      | .done .switched => ((boot onDev rest r.final).1, r.trace ++ (boot onDev rest r.final).2)
      | _ => (r.final, r.trace)

/-- The `touch` of this event, if it is one, leaves the marker on the new
root: it succeeds, or the marker is there already. -/
def TouchLeavesMarker (e : Event (World φ) Act Bool) : Prop :=
  e.act = .touchMarker → e.resp.status = 0 ∨ ∃ f, e.before.newroot = some f ∧
    e.before.marked f = true

/-! ## One execution -/

/-- No switch yet, or one switch to a marked root. -/
def Guarded (w : World φ) : Prop :=
  w.switches = 0 ∨ (w.switches = 1 ∧ w.marked w.root = true)

/-- What holds after an execution: if the chain goes on it is still guarded. -/
def Handed : Fate → World φ → Prop
  | .switched, w => Guarded w
  | _, w => w.switches ≤ 1

/-- What holds if an execution is cut short. -/
def Stopped (_ : Ended) (w : World φ) : Prop := w.switches ≤ 1

omit [DecidableEq φ] in
theorem Guarded.le {w : World φ} (h : Guarded w) : w.switches ≤ 1 := by
  rcases h with h | h <;> omega

/-- The commands that only matter for what they do outside the model. -/
def Neutral : Act → Prop
  | .marker | .mount _ | .touchMarker | .switchRoot => False
  | _ => True

/-- The script looks at no status but those it tests, so no command ends
it. -/
def Tested (_ : Act) : Prop := True

theorem exec_neutral (onDev : Str → φ) {a : Act} (h : Neutral a) (ok : Bool) (w : World φ) :
    (exec onDev ok a w).2 = w := by
  cases a <;> first | rfl | exact h.elim

variable {onDev : Str → φ} {A S : Event (World φ) Act Bool → Prop}
variable {Q : Fate → World φ → Prop} {E : Ended → World φ → Prop}

private theorem quiet (e : Event (World φ) Act Bool) :
    (machine onDev).signal e.decision = none := rfl

theorem wp_run {a : Act} {Q : Unit → World φ → Prop} {w : World φ}
    (h : ∀ d, A ((machine onDev).event a d w) → Q () (exec onDev d a w).2) :
    wp (machine onDev) A (fun _ => True) (run a) Q E w :=
  wp_step (fun e _ => quiet e) (fun d hA => ⟨trivial, h d hA⟩)

/-- A phase of neutral commands ends in the state it began in. -/
theorem wp_neutral {α : Type} {p : Prog Act α} (hp : Acts Tested Neutral p) {w : World φ}
    (hE : ∀ s, E (.exited s) w) :
    wp (machine onDev) A (fun _ => True) p (fun _ w' => w' = w) E w := by
  refine wp_invariant (P := Neutral) ?_ ?_ hp rfl
  · intro a d w' ha hw' _
    refine ⟨trivial, resume_quiet rfl ?_⟩
    show (exec onDev d a w').2 = w
    rw [exec_neutral onDev ha, hw']
  · intro s w' _ hw'
    rw [hw']
    exact hE s

theorem acts_run {a : Act} (h : Neutral a) : Acts Tested Neutral (run a) :=
  acts_bind (acts_tested h trivial) (fun _ => trivial)

/-- A test with two neutral branches is neutral. -/
theorem acts_branch {a : Act} {p q : Prog Act Unit} (ha : Neutral a)
    (hp : Acts Tested Neutral p) (hq : Acts Tested Neutral q) :
    Acts Tested Neutral (tested a >>= fun b => if b = true then p else q) :=
  acts_bind (acts_tested ha trivial) (fun _ => acts_ite hp hq)

theorem startup_neutral : Acts Tested Neutral startup := by
  have hmount : ∀ p, Acts Tested Neutral (mountOnce p) :=
    fun p => acts_branch trivial trivial (acts_run trivial)
  have hhotplug : Acts Tested Neutral hotplug := acts_branch trivial (acts_run trivial) trivial
  have hcoldplug : Acts Tested Neutral coldplug :=
    acts_branch trivial (acts_bind (acts_run trivial) (fun _ => hhotplug)) trivial
  refine acts_bind (acts_run (by trivial)) (fun _ => ?_)
  refine acts_bind (acts_run (by trivial)) (fun _ => ?_)
  apply acts_bind (acts_forEach (fun p _ => hmount p))
  intro _
  apply acts_bind hcoldplug
  intro _
  refine acts_bind (acts_run (by trivial)) (fun _ => ?_)
  refine acts_bind (acts_run (by trivial)) (fun _ => ?_)
  exact acts_run trivial

theorem moves_neutral : Acts Tested Neutral (forEach moveOrMount [.proc, .sys, .dev]) :=
  acts_forEach (fun _ _ => acts_branch trivial trivial (acts_run trivial))

/-- Handing over to a marked root is guarded. -/
theorem handOver_spec {w : World φ} {f : φ} (hnew : w.newroot = some f)
    (hmarked : w.marked f = true) (hnone : w.switches = 0) :
    wp (machine onDev) A (fun _ => True) handOver Handed Stopped w := by
  apply wp_bind
  apply wp_mono _ (fun _ _ h => h) (wp_neutral moves_neutral (fun _ => by
    show w.switches ≤ 1
    omega))
  intro _ w' hw'
  subst hw'
  apply wp_bind
  apply wp_run
  intro d _
  show wp _ _ _ _ _ _ w'
  apply wp_tested (fun e _ => quiet e)
  intro d _
  refine ⟨trivial, ?_⟩
  cases d with
  | false =>
      show w'.switches + 1 ≤ 1
      omega
  | true =>
      right
      show w'.switches + 1 = 1 ∧ w'.marked (w'.newroot.getD w'.root) = true
      rw [hnone, hnew]
      exact ⟨rfl, hmarked⟩

/-- Line 87, for a new root on which the marker is or gets created. -/
theorem touch_marks {w : World φ} {f : φ} (hnew : w.newroot = some f) {d : Bool}
    (h : TouchLeavesMarker ((machine onDev).event .touchMarker d w)) :
    (exec onDev d .touchMarker w).2.newroot = some f ∧
      (exec onDev d .touchMarker w).2.marked f = true ∧
      (exec onDev d .touchMarker w).2.switches = w.switches := by
  cases d with
  | true =>
      refine ⟨hnew, ?_, rfl⟩
      show (if w.newroot = some f then true else w.marked f) = true
      rw [if_pos hnew]
  | false =>
      refine ⟨hnew, ?_, rfl⟩
      rcases h rfl with hok | ⟨g, hg, hmarked⟩
      · exact absurd hok Nat.one_ne_zero
      · have hgf : g = f := Option.some.inj (hg.symm.trans hnew)
        show w.marked f = true
        rw [← hgf]
        exact hmarked

theorem switchTo_spec (root : Str) {w : World φ} (hnone : w.switches = 0) :
    wp (machine onDev) TouchLeavesMarker (fun _ => True) (switchTo root) Handed
      Stopped w := by
  apply wp_bind
  apply wp_run
  intro _ _
  apply wp_bind
  apply wp_run
  intro _ _
  show wp _ _ _ _ _ _ w
  apply wp_tested (fun e _ => quiet e)
  intro d _
  refine ⟨trivial, ?_⟩
  cases d with
  | false =>
      apply wp_bind
      apply wp_run
      intro _ _
      show w.switches ≤ 1
      omega
  | true =>
      apply wp_bind
      apply wp_run
      intro d hA
      obtain ⟨hnew, hmarked, hsw⟩ := touch_marks (f := onDev root) rfl hA
      exact handOver_spec hnew hmarked (hsw.trans hnone)

/-- A script that finds the marker stays on its root. -/
theorem selectRoot_installed (paths : Str → List Str) (fsuuid : Str → Str → Bool)
    (disks : List Disk) (line : Str) : selectRoot true paths fsuuid disks line = .stay := by
  simp [selectRoot]

/-- **One execution.** -/
theorem rcInit_spec (env : Env) {w : World φ} (hw : Guarded w) :
    wp (machine onDev) TouchLeavesMarker (fun _ => True) (rcInit env) Handed
      Stopped w := by
  apply wp_bind
  apply wp_mono _ (fun _ _ h => h) (wp_neutral startup_neutral (fun _ => hw.le))
  intro _ w' hw'
  subst hw'
  apply wp_tested (fun e _ => quiet e)
  intro d _
  refine ⟨trivial, ?_⟩
  show wp _ _ _ (match selectRoot ((statusOf (w'.marked w'.root)).status == 0) env.paths
    env.fsuuid env.disks env.cmdline with
    | .stay => pure .up
    | .shell => run .say >>= fun _ => pure .shell
    | .use root => switchTo root) _ _ w'
  cases hmarked : w'.marked w'.root with
  | true =>
      have hstay : selectRoot ((statusOf true).status == 0) env.paths env.fsuuid env.disks
          env.cmdline = .stay := selectRoot_installed _ _ _ _
      rw [hstay]
      exact hw.le
  | false =>
      have hnone : w'.switches = 0 := by
        rcases hw with hw | hw
        · exact hw
        · rw [hmarked] at hw
          exact absurd hw.2 (by decide)
      split
      · exact hw.le
      · apply wp_bind
        apply wp_run
        intro _ _
        exact hw.le
      · exact switchTo_spec _ hnone

/-! ## Whole boots -/

/-- The outcome of a chain that begins guarded. -/
theorem boot_switches_le (execs : List (Env × (Nat → Act → Bool))) :
    ∀ (w : World φ), Guarded w → (∀ e ∈ (boot onDev execs w).2, TouchLeavesMarker e) →
      (boot onDev execs w).1.switches ≤ 1 := by
  induction execs with
  | nil => intro w hw _; exact hw.le
  | cons x rest ih =>
      intro w hw hA
      obtain ⟨env, O⟩ := x
      have hpre : ∀ e ∈ (go (machine onDev) O (rcInit env) 0 w).trace, TouchLeavesMarker e := by
        intro e he
        apply hA e
        simp only [boot]
        split
        · exact List.mem_append_left _ he
        · exact he
      have hsat := (go_sound O (rcInit env) 0 w (rcInit_spec env hw) hpre).2
      simp only [boot] at hA ⊢
      split
      · rename_i hout
        rw [hout] at hsat hA
        exact ih _ hsat (fun e he => hA e (List.mem_append_right _ he))
      · rename_i hout
        -- the chain ends here, with the postcondition of its last execution
        revert hsat
        cases hr : (go (machine onDev) O (rcInit env) 0 w).outcome with
        | ended x => exact id
        | done fate =>
            cases fate with
            | switched => exact absurd hr hout
            | _ => exact id

/-- **At most one `switch_root` per boot.**  For every chain of executions,
whatever each of them reads and whichever of its commands fail, as long as
each `touch` leaves the marker on the new root. -/
theorem switchRoot_at_most_once (execs : List (Env × (Nat → Act → Bool))) (w : World φ)
    (hstart : w.switches = 0)
    (htouch : ∀ e ∈ (boot onDev execs w).2, TouchLeavesMarker e) :
    (boot onDev execs w).1.switches ≤ 1 :=
  boot_switches_le execs w (Or.inl hstart) htouch

end Machine

/-! ## Two boots -/

/-- An execution that reads `root=/dev/a`. -/
def sampleEnv : Env := ⟨"root=/dev/a".toList, [], fun _ => [], fun _ _ => false⟩

/-- A machine started from its initramfs, `false`, with one disk, `true`. -/
def sampleStart : World Bool := ⟨false, none, fun _ => false, 0⟩

/-- Two executions in which every command succeeds. -/
def healthy : List (Env × (Nat → Act → Bool)) :=
  [(sampleEnv, fun _ _ => true), (sampleEnv, fun _ _ => true)]

theorem switchRoot_at_most_once_healthy :
    (boot (fun _ => true) healthy sampleStart).1.switches ≤ 1 := by
  have htouch : ∀ e ∈ (boot (fun _ => true) healthy sampleStart).2,
      e.act = .touchMarker → e.resp.status = 0 := by decide +kernel
  exact switchRoot_at_most_once healthy sampleStart rfl (fun e he ha => Or.inl (htouch e he ha))

/-- On a root that cannot be written (a file system mounted read-only after
errors, or full) the `touch` fails, and the second execution switches again. -/
theorem switchRoot_twice :
    (boot (fun _ => true) [(sampleEnv, fun _ a => a != .touchMarker),
      (sampleEnv, fun _ a => a != .touchMarker)] sampleStart).1.switches = 2 := by
  decide +kernel

end Slinux.Boot.Switch
