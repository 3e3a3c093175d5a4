import Slinux.Shell.Text

/-!
# Shell scripts as command trees

A script is modelled by what it does to the rest of the system: the commands
it runs, in order, and how each later command depends on the statuses and the
captured output of the earlier ones.  Control flow (`if`, `case`, loops over
known lists, functions) is ordinary Lean, so a script reads line by line like
its source; a `Prog` is the resulting tree.

The interpreter `go` supplies everything the tree leaves open.

* The commands themselves belong to a `Machine`, whose `exec` is told by a
  *decision* how this particular execution turns out.  An oracle gives the
  decision for each step, so a statement about all oracles is a statement
  about every combination of successes and failures.
* A decision may also deliver a signal while the command runs.  Without a
  trap the shell dies.  With one, the action runs after the command has
  ended, under `set -e`: the script goes on exactly when the action succeeds.
* Leaving the script, by `exit` or at its end, runs the action once more.

Every executed command is recorded as an `Event` with the states before and
after it, so a property that has to hold "at every point of the run" is a
property of every event of the trace.

## Main definitions

* `Prog`, `Prog.bind` — command trees and sequencing.
* `cmd`, `capture`, `tested` — a command under `set -e`, an assignment from a
  command substitution, and a command whose status is tested.
* `Machine`, `go`, `runScript` — the interpreter.
-/

namespace Slinux.Shell.Script

open Slinux.Shell.Text

/-! ## Command trees -/

/-- What a command leaves to the shell: its exit status and, where its output
is captured, that text without trailing newlines. -/
structure Resp where
  status : Nat
  out : Str
  deriving Repr, DecidableEq

/-- A script with actions in `Act` that computes a value of type `α`. -/
inductive Prog (Act : Type) (α : Type) where
  | ret (a : α)
  | exit (status : Nat)
  | step (act : Act) (k : Resp → Prog Act α)

variable {Act α β : Type}

/-- Sequencing. -/
def Prog.bind : Prog Act α → (α → Prog Act β) → Prog Act β
  | .ret a, f => f a
  | .exit s, _ => .exit s
  | .step a k, f => .step a (fun r => (k r).bind f)

instance : Monad (Prog Act) where
  pure := .ret
  bind := Prog.bind

@[simp] theorem pure_eq (a : α) : (pure a : Prog Act α) = .ret a := rfl

@[simp] theorem ret_bind (a : α) (f : α → Prog Act β) : (Prog.ret a >>= f) = f a := rfl

@[simp] theorem exit_bind (s : Nat) (f : α → Prog Act β) :
    ((Prog.exit s : Prog Act α) >>= f) = .exit s := rfl

@[simp] theorem step_bind (a : Act) (k : Resp → Prog Act α) (f : α → Prog Act β) :
    (Prog.step a k >>= f) = .step a (fun r => k r >>= f) := rfl

theorem bind_ret (p : Prog Act α) : (p >>= fun a => Prog.ret a) = p := by
  induction p with
  | ret a => rfl
  | exit s => rfl
  | step a k ih =>
      show Prog.step a (fun r => k r >>= fun a => Prog.ret a) = .step a k
      simp only [ih]

theorem bind_assoc {γ : Type} (p : Prog Act α) (f : α → Prog Act β) (g : β → Prog Act γ) :
    (p >>= f >>= g) = p >>= fun a => f a >>= g := by
  induction p with
  | ret a => rfl
  | exit s => rfl
  | step a k ih =>
      show Prog.step a (fun r => k r >>= f >>= g) = .step a (fun r => k r >>= fun a => f a >>= g)
      simp only [ih]

/-- A simple command under `set -e`: a failure ends the script with the
command's status. -/
def cmd (a : Act) : Prog Act Unit :=
  .step a (fun r => if r.status = 0 then .ret () else .exit r.status)

/-- `x=$(a)` under `set -e`. -/
def capture (a : Act) : Prog Act Str :=
  .step a (fun r => if r.status = 0 then .ret r.out else .exit r.status)

/-- A command in a condition, or before `||` or `&&`: `set -e` does not apply
and its status is available. -/
def tested (a : Act) : Prog Act Bool :=
  .step a (fun r => .ret (r.status == 0))

/-- `x=$(a) || exit s`. -/
def captureOrExit (s : Nat) (a : Act) : Prog Act Str :=
  .step a (fun r => if r.status = 0 then .ret r.out else .exit s)

/-- A `for` loop over a list that is known when the loop starts. -/
def forEach {ι : Type} (body : ι → Prog Act Unit) : List ι → Prog Act Unit
  | [] => .ret ()
  | x :: xs => do
      body x
      forEach body xs

/-! ## Machines -/

/-- The two signals the scripts catch. -/
inductive Signal where
  | int
  | term
  deriving Repr, DecidableEq

/-- What the commands of a script do to the system state.  `trap` is the
action currently set for `EXIT`, `INT` and `TERM`; `interrupt` notes in the
state that the action has run for a signal; `unwind` undoes the redirections
that are in effect when the shell leaves the script. -/
structure Machine (σ Act D : Type) where
  exec : D → Act → σ → Resp × σ
  signal : D → Option Signal
  trap : σ → Option Act
  interrupt : σ → σ
  unwind : σ → σ

/-- Why a command was run: by the script itself, by a trap after a signal, or
by the trap on leaving the script. -/
inductive Cause where
  | script
  | onSignal
  | onExit
  deriving Repr, DecidableEq

/-- One executed command. -/
structure Event (σ Act D : Type) where
  cause : Cause
  act : Act
  decision : D
  before : σ
  resp : Resp
  after : σ

/-- The ways a script ends before its last line. -/
inductive Ended where
  | exited (status : Nat)
  | killed
  deriving Repr, DecidableEq

/-- How a script, or a part of one, came out. -/
inductive Outcome (α : Type) where
  | done (a : α)
  | ended (x : Ended)
  deriving Repr, DecidableEq

/-- The result of interpreting a script: how it ended, in which state, how
many decisions were used, and what was executed. -/
structure Run (σ Act D α : Type) where
  outcome : Outcome α
  final : σ
  used : Nat
  trace : List (Event σ Act D)

variable {σ D : Type}

/-- The run with one more event in front. -/
def Run.cons (e : Event σ Act D) (r : Run σ Act D α) : Run σ Act D α :=
  { r with trace := e :: r.trace }

/-- The event of running `a` for the script. -/
def Machine.event (M : Machine σ Act D) (a : Act) (d : D) (w : σ) : Event σ Act D :=
  ⟨.script, a, d, w, (M.exec d a w).1, (M.exec d a w).2⟩

/-- The event of running the trap action `t` after a signal. -/
def Machine.signalEvent (M : Machine σ Act D) (t : Act) (d : D) (w : σ) :
    Event σ Act D :=
  ⟨.onSignal, t, d, w, (M.exec d t w).1, M.interrupt (M.exec d t w).2⟩

/-- The event of running the trap action `t` on leaving the script. -/
def Machine.exitEvent (M : Machine σ Act D) (t : Act) (d : D) (w : σ) :
    Event σ Act D :=
  ⟨.onExit, t, d, w, (M.exec d t w).1, (M.exec d t w).2⟩

/-- Interpret a script from a state, taking decision `O n a` for the `n`-th
command `a`. -/
def go (M : Machine σ Act D) (O : Nat → Act → D) :
    Prog Act α → Nat → σ → Run σ Act D α
  | .ret a, n, w => ⟨.done a, w, n, []⟩
  | .exit s, n, w => ⟨.ended (.exited s), w, n, []⟩
  | .step a k, n, w =>
      let e := M.event a (O n a) w
      match M.signal e.decision with
      | none => (go M O (k e.resp) (n + 1) e.after).cons e
      | some _ =>
          match M.trap e.after with
          -- the default action of the signal: the shell dies
          | none => ⟨.ended .killed, e.after, n + 1, [e]⟩
          | some t =>
              let e' := M.signalEvent t (O (n + 1) t) e.after
              if e'.resp.status = 0 then
                ((go M O (k e.resp) (n + 2) e'.after).cons e').cons e
              else ⟨.ended (.exited e'.resp.status), e'.after, n + 2, [e, e']⟩

/-- Leave the script: undo redirections, then run the trap on `EXIT`.  A shell
killed by a signal does neither. -/
def leave (M : Machine σ Act D) (O : Nat → Act → D) (r : Run σ Act D α) :
    Run σ Act D α :=
  match r.outcome with
  | .ended .killed => r
  | _ =>
      let w := M.unwind r.final
      match M.trap w with
      | none => { r with final := w }
      | some t =>
          let e := M.exitEvent t (O r.used t) w
          { r with final := e.after, used := r.used + 1, trace := r.trace ++ [e] }

theorem leave_outcome (M : Machine σ Act D) (O : Nat → Act → D) (r : Run σ Act D α) :
    (leave M O r).outcome = r.outcome := by
  simp only [leave]
  split
  · rfl
  · split
    · rfl
    · rfl

theorem mem_leave_trace {M : Machine σ Act D} {O : Nat → Act → D} {r : Run σ Act D α}
    {e : Event σ Act D} (he : e ∈ r.trace) : e ∈ (leave M O r).trace := by
  simp only [leave]
  split
  · exact he
  · split
    · exact he
    · exact List.mem_append_left _ he

/-- The last event of a run may be the trap's. -/
theorem mem_trace_of_leave {M : Machine σ Act D} {O : Nat → Act → D} {r : Run σ Act D α}
    {e : Event σ Act D} (he : e ∈ (leave M O r).trace) :
    e ∈ r.trace ∨ ∃ t, M.trap (M.unwind r.final) = some t ∧ e.act = t := by
  simp only [leave] at he
  split at he
  · exact Or.inl he
  · split at he
    · exact Or.inl he
    · rename_i t htrap
      rcases List.mem_append.1 he with hmem | hlast
      · exact Or.inl hmem
      · exact Or.inr ⟨t, htrap, congrArg Event.act (List.mem_singleton.1 hlast)⟩

/-- A whole run of a script. -/
def runScript (M : Machine σ Act D) (O : Nat → Act → D) (p : Prog Act α) (w : σ) :
    Run σ Act D α :=
  leave M O (go M O p 0 w)

/-- The run that goes on with `k` where `r` has come to its end. -/
def Run.andThen (r : Run σ Act D α) (k : α → Nat → σ → Run σ Act D β) : Run σ Act D β :=
  match r.outcome with
  | .done a =>
      { k a r.used r.final with trace := r.trace ++ (k a r.used r.final).trace }
  | .ended x => ⟨.ended x, r.final, r.used, r.trace⟩

theorem Run.cons_andThen (e : Event σ Act D) (r : Run σ Act D α)
    (k : α → Nat → σ → Run σ Act D β) : (r.cons e).andThen k = (r.andThen k).cons e := by
  obtain ⟨outcome, final, used, trace⟩ := r
  cases outcome with
  | done a => rfl
  | ended x => rfl

/-- **Sequencing and running.** -/
theorem go_bind (M : Machine σ Act D) (O : Nat → Act → D) (p : Prog Act α)
    (f : α → Prog Act β) :
    ∀ (n : Nat) (w : σ), go M O (p >>= f) n w = (go M O p n w).andThen (fun a => go M O (f a)) := by
  induction p with
  | ret a => intro n w; rfl
  | exit s => intro n w; rfl
  | step a k ih =>
      intro n w
      have hnext : ∀ r n w, go M O ((k r).bind f) n w
          = (go M O (k r) n w).andThen (fun a => go M O (f a)) := ih
      show go M O (.step a (fun r => (k r).bind f)) n w = _
      simp only [go, hnext]
      split
      · rw [Run.cons_andThen]
      · split
        · rfl
        · split
          · rw [Run.cons_andThen, Run.cons_andThen]
          · rfl

/-! ## Runs that come to their end -/

/-- What the first command of such a run can have led to: no signal came with
it, or one came and the trap action succeeded. -/
theorem go_step_done {M : Machine σ Act D} {O : Nat → Act → D} {a : Act}
    {k : Resp → Prog Act α} {n : Nat} {w : σ} {x : α}
    (h : (go M O (.step a k) n w).outcome = .done x) :
    (M.signal (O n a) = none ∧
      go M O (.step a k) n w
        = (go M O (k (M.exec (O n a) a w).1) (n + 1) (M.exec (O n a) a w).2).cons
            (M.event a (O n a) w)) ∨
    (M.signal (O n a) ≠ none ∧ ∃ t, M.trap (M.exec (O n a) a w).2 = some t ∧
      go M O (.step a k) n w
        = ((go M O (k (M.exec (O n a) a w).1) (n + 2)
              (M.interrupt (M.exec (O (n + 1) t) t (M.exec (O n a) a w).2).2)).cons
            (M.signalEvent t (O (n + 1) t) (M.exec (O n a) a w).2)).cons
            (M.event a (O n a) w)) := by
  simp only [go] at h ⊢
  split at h
  · rename_i hsig
    left
    simp only [Machine.event] at hsig
    exact ⟨hsig, by simp only [Machine.event]⟩
  · rename_i sg hsig
    right
    simp only [Machine.event] at hsig
    refine ⟨by rw [hsig]; exact Option.some_ne_none _, ?_⟩
    split at h
    · cases h
    · rename_i t htrap
      simp only [Machine.event] at htrap
      split at h
      · rename_i h0
        simp only [Machine.event, Machine.signalEvent] at h0
        refine ⟨t, htrap, ?_⟩
        simp only [Machine.event, Machine.signalEvent, h0, if_true]
      · cases h

section Flag

variable {M : Machine σ Act D} {O : Nat → Act → D} {flag : σ → Prop}
variable (hset : ∀ w, flag (M.interrupt w)) (hkeep : ∀ d a w, flag w → flag (M.exec d a w).2)

include hset hkeep

/-- **A run that comes to its end without the mark of a signal has received
none.** -/
theorem go_done_quiet (p : Prog Act α) : ∀ (n : Nat) {w : σ} {x : α},
    (go M O p n w).outcome = .done x → ¬ flag (go M O p n w).final →
      ¬ flag w ∧ ∀ e ∈ (go M O p n w).trace, e.cause = .script ∧ M.signal e.decision = none := by
  induction p with
  | ret a => intro n w x _ hfinal; exact ⟨hfinal, fun e he => absurd he List.not_mem_nil⟩
  | exit s => intro n w x h; cases h
  | step a k ih =>
      intro n w x h hfinal
      rcases go_step_done h with ⟨hsig, hgo⟩ | ⟨_, t, _, hgo⟩
      · rw [hgo] at h hfinal ⊢
        obtain ⟨hnext, hrest⟩ := ih _ _ h hfinal
        refine ⟨fun hw => hnext (hkeep _ _ _ hw), fun e he => ?_⟩
        rcases List.mem_cons.mp he with rfl | he
        · exact ⟨rfl, hsig⟩
        · exact hrest e he
      · rw [hgo] at h hfinal
        exact absurd (hset _) (ih _ _ h hfinal).1

end Flag

/-- The exit status of the shell. -/
def Outcome.status : Outcome α → Nat
  | .done _ => 0
  | .ended (.exited s) => s
  | .ended .killed => 128

/-- Every decision of a run comes from the oracle. -/
theorem go_trace_decision (M : Machine σ Act D) (O : Nat → Act → D) (p : Prog Act α) :
    ∀ (n : Nat) (w : σ), ∀ e ∈ (go M O p n w).trace, ∃ m, e.decision = O m e.act := by
  induction p with
  | ret a => intro n w e he; simp [go] at he
  | exit s => intro n w e he; simp [go] at he
  | step a k ih =>
      intro n w e he
      simp only [go] at he
      split at he
      · rcases List.mem_cons.mp he with rfl | he
        · exact ⟨n, rfl⟩
        · exact ih _ _ _ e he
      · split at he
        · obtain rfl := List.mem_singleton.mp he
          exact ⟨n, rfl⟩
        · split at he
          · rcases List.mem_cons.mp he with rfl | he
            · exact ⟨n, rfl⟩
            · rcases List.mem_cons.mp he with rfl | he
              · exact ⟨n + 1, rfl⟩
              · exact ih _ _ _ e he
          · rcases List.mem_cons.mp he with rfl | he
            · exact ⟨n, rfl⟩
            · obtain rfl := List.mem_singleton.mp he
              exact ⟨n + 1, rfl⟩

theorem leave_trace_decision (M : Machine σ Act D) (O : Nat → Act → D)
    (r : Run σ Act D α) (h : ∀ e ∈ r.trace, ∃ m, e.decision = O m e.act) :
    ∀ e ∈ (leave M O r).trace, ∃ m, e.decision = O m e.act := by
  intro e he
  simp only [leave] at he
  split at he
  · exact h e he
  · split at he
    · exact h e he
    · rcases List.mem_append.mp he with he | he
      · exact h e he
      · obtain rfl := List.mem_singleton.mp he
        exact ⟨r.used, rfl⟩

theorem runScript_trace_decision (M : Machine σ Act D) (O : Nat → Act → D)
    (p : Prog Act α) (w : σ) :
    ∀ e ∈ (runScript M O p w).trace, ∃ m, e.decision = O m e.act :=
  leave_trace_decision M O _ (go_trace_decision M O p 0 w)

end Slinux.Shell.Script
