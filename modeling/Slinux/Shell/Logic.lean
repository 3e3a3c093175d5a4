import Slinux.Shell.Script

/-!
# Pre- and postconditions for scripts

`wp M A S p Q E w` says that `p`, run from `w`, keeps every promise we ask of
it as long as its environment keeps the assumptions: for each executed
command, if the event satisfies `A` it satisfies `S`; a normal end satisfies
`Q` and any other end satisfies `E`.  The assumptions are about events rather
than about the oracle, so that "the signals of this run all arrive at a
harmless moment" is as easy to assume as "no command fails".

The module is about arbitrary machines.  Long scripts are handled in phases.
`wp_bind` cuts a script into them; a phase that never touches what an
invariant is about is covered by asking only which commands occur in it
(`Acts`), not what they compute.

A signal can arrive with any command.  What it leads to is stated once for
each phase: the invariant survives the trap (`wp_invariant`), possibly by
giving up on a part of it, or the trap ends the script (`wp_strict`).

## Main results

* `go_sound`, `runScript_sound` — a proved `wp` holds of every run.
* `wp_bind`, `wp_mono`, `wp_and` — the structural rules.
* `wp_invariant`, `wp_kept`, `wp_strict`, `wp_straight`, `wp_unbroken` — the
  rules for phases.
* `runScript_acts` — a run executes only commands of the script and traps.
-/

namespace Slinux.Shell.Logic

open Slinux.Shell.Script

variable {σ Act D α β : Type}

/-! ## The predicate transformer -/

/-- What has to hold after a command for the script to go on: `next` directly,
or, when a signal arrived with it, whatever the signal leads to. -/
def resume (M : Machine σ Act D) (A S : Event σ Act D → Prop) (E : Ended → σ → Prop)
    (d : D) (next : σ → Prop) (w : σ) : Prop :=
  match M.signal d with
  | none => next w
  | some _ =>
      match M.trap w with
      | none => E .killed w
      | some t => ∀ d', A (M.signalEvent t d' w) → S (M.signalEvent t d' w) ∧
          if (M.exec d' t w).1.status = 0 then next (M.interrupt (M.exec d' t w).2)
          else E (.exited (M.exec d' t w).1.status) (M.interrupt (M.exec d' t w).2)

/-- The weakest condition on the state under which the script keeps `S`, `Q`
and `E` in every environment that keeps `A`. -/
def wp (M : Machine σ Act D) (A S : Event σ Act D → Prop) :
    Prog Act α → (α → σ → Prop) → (Ended → σ → Prop) → σ → Prop
  | .ret a, Q, _, w => Q a w
  | .exit s, _, E, w => E (.exited s) w
  | .step a k, Q, E, w => ∀ d, A (M.event a d w) → S (M.event a d w) ∧
      resume M A S E d (wp M A S (k (M.exec d a w).1) Q E) (M.exec d a w).2

/-- The postcondition an outcome has to meet. -/
def Outcome.sat (Q : α → σ → Prop) (E : Ended → σ → Prop) : Outcome α → σ → Prop
  | .done a, w => Q a w
  | .ended x, w => E x w

section Rules

variable {M : Machine σ Act D} {A S : Event σ Act D → Prop}
variable {Q Q' : α → σ → Prop} {E E' : Ended → σ → Prop} {w : σ}

theorem resume_mono {d : D} {next next' : σ → Prop} (hE : ∀ x w, E x w → E' x w)
    (hnext : ∀ w, next w → next' w) (h : resume M A S E d next w) :
    resume M A S E' d next' w := by
  simp only [resume] at h ⊢
  split
  · rename_i hsig
    simp only [hsig] at h
    exact hnext w h
  · rename_i hsig
    simp only [hsig] at h
    split
    · rename_i htrap
      simp only [htrap] at h
      exact hE _ _ h
    · rename_i t htrap
      simp only [htrap] at h
      intro d' hA
      obtain ⟨hS, h⟩ := h d' hA
      refine ⟨hS, ?_⟩
      split
      · rename_i h0
        rw [if_pos h0] at h
        exact hnext _ h
      · rename_i h0
        rw [if_neg h0] at h
        exact hE _ _ h

theorem wp_mono {p : Prog Act α} (hQ : ∀ a w, Q a w → Q' a w)
    (hE : ∀ x w, E x w → E' x w) (h : wp M A S p Q E w) : wp M A S p Q' E' w := by
  induction p generalizing w with
  | ret a => exact hQ a w h
  | exit s => exact hE _ w h
  | step a k ih =>
      intro d hA
      obtain ⟨hS, h⟩ := h d hA
      exact ⟨hS, resume_mono hE (fun w' hw' => ih _ hw') h⟩

/-- A script in two parts meets its postcondition when the first part
establishes what the second needs. -/
theorem wp_bind (p : Prog Act α) (f : α → Prog Act β) {Q : β → σ → Prop} :
    wp M A S p (fun a => wp M A S (f a) Q E) E w → wp M A S (p >>= f) Q E w := by
  intro h
  induction p generalizing w with
  | ret a => exact h
  | exit s => exact h
  | step a k ih =>
      intro d hA
      obtain ⟨hS, h⟩ := h d hA
      exact ⟨hS, resume_mono (fun _ _ hx => hx) (fun w' hw' => ih _ hw') h⟩

theorem resume_and {d : D} {next next' : σ → Prop} (h : resume M A S E d next w)
    (h' : resume M A S E' d next' w) :
    resume M A S (fun x v => E x v ∧ E' x v) d (fun v => next v ∧ next' v) w := by
  simp only [resume] at h h' ⊢
  split
  · rename_i hsig
    simp only [hsig] at h h'
    exact ⟨h, h'⟩
  · rename_i hsig
    simp only [hsig] at h h'
    split
    · rename_i htrap
      simp only [htrap] at h h'
      exact ⟨h, h'⟩
    · rename_i t htrap
      simp only [htrap] at h h'
      intro d' hA
      obtain ⟨hS, h⟩ := h d' hA
      obtain ⟨_, h'⟩ := h' d' hA
      refine ⟨hS, ?_⟩
      split
      · rename_i h0
        rw [if_pos h0] at h h'
        exact ⟨h, h'⟩
      · rename_i h0
        rw [if_neg h0] at h h'
        exact ⟨h, h'⟩

/-- Two postconditions can be proved apart. -/
theorem wp_and {p : Prog Act α} (h : wp M A S p Q E w) (h' : wp M A S p Q' E' w) :
    wp M A S p (fun a v => Q a v ∧ Q' a v) (fun x v => E x v ∧ E' x v) w := by
  induction p generalizing w with
  | ret a => exact ⟨h, h'⟩
  | exit s => exact ⟨h, h'⟩
  | step a k ih =>
      intro d hA
      obtain ⟨hS, h⟩ := h d hA
      obtain ⟨_, h'⟩ := h' d hA
      exact ⟨hS, resume_mono (fun _ _ hx => hx) (fun v hv => ih _ hv.1 hv.2) (resume_and h h')⟩

/-- Where nothing is asked of events and of the script's end, a signal does not
matter to what holds in every state. -/
theorem resume_all {d : D} {next : σ → Prop} (h : ∀ v, next v) :
    resume M A (fun _ => True) (fun _ _ => True) d next w := by
  simp only [resume]
  split
  · exact h w
  · split
    · trivial
    · intro d' _
      refine ⟨trivial, ?_⟩
      split
      · exact h _
      · trivial

theorem wp_trivial (p : Prog Act α) :
    wp M A (fun _ => True) p (fun _ _ => True) (fun _ _ => True) w := by
  induction p generalizing w with
  | ret a => trivial
  | exit s => trivial
  | step a k ih =>
      intro d _
      exact ⟨trivial, resume_all (fun v => ih _)⟩

/-! ## Single commands

Signals are dealt with once, here: where the environment delivers none, a
command simply continues in the state it leaves. -/

theorem resume_quiet {d : D} {next : σ → Prop} (hsig : M.signal d = none) (h : next w) :
    resume M A S E d next w := by
  simp only [resume, hsig]
  exact h

/-- One command in an environment without signals. -/
theorem wp_step {a : Act} {k : Resp → Prog Act α}
    (hquiet : ∀ e, A e → M.signal e.decision = none)
    (h : ∀ d, A (M.event a d w) → S (M.event a d w) ∧
      wp M A S (k (M.exec d a w).1) Q E (M.exec d a w).2) :
    wp M A S (.step a k) Q E w := by
  intro d hA
  exact ⟨(h d hA).1, resume_quiet (hquiet _ hA) (h d hA).2⟩

/-- A tested command followed by what depends on the test. -/
theorem wp_tested {a : Act} {f : Bool → Prog Act α}
    (hquiet : ∀ e, A e → M.signal e.decision = none)
    (h : ∀ d, A (M.event a d w) → S (M.event a d w) ∧
      wp M A S (f ((M.exec d a w).1.status == 0)) Q E (M.exec d a w).2) :
    wp M A S (tested a >>= f) Q E w :=
  wp_step hquiet h

/-- A command under `set -e` followed by the rest of the script. -/
theorem wp_cmd {a : Act} {f : Unit → Prog Act α}
    (hquiet : ∀ e, A e → M.signal e.decision = none)
    (h : ∀ d, A (M.event a d w) → S (M.event a d w) ∧
      ((M.exec d a w).1.status = 0 → wp M A S (f ()) Q E (M.exec d a w).2) ∧
      ((M.exec d a w).1.status ≠ 0 → E (.exited (M.exec d a w).1.status) (M.exec d a w).2)) :
    wp M A S (cmd a >>= f) Q E w := by
  apply wp_step hquiet
  intro d hA
  obtain ⟨hS, hok, hfail⟩ := h d hA
  refine ⟨hS, ?_⟩
  show wp M A S ((if (M.exec d a w).1.status = 0 then Prog.ret ()
    else .exit (M.exec d a w).1.status).bind f) Q E _
  by_cases h0 : (M.exec d a w).1.status = 0
  · rw [if_pos h0]
    exact hok h0
  · rw [if_neg h0]
    exact hfail h0

/-! ## Phases -/

/-- The script calls only commands in `P`; those outside `T` are not tested,
so that the script ends when one of them fails; and it never reports success
by `exit`. -/
def Acts (T P : Act → Prop) : Prog Act α → Prop
  | .ret _ => True
  | .exit s => s ≠ 0
  | .step a k => P a ∧ (T a ∨ ∀ r, r.status ≠ 0 → ∃ s, s ≠ 0 ∧ k r = .exit s) ∧
      ∀ r, Acts T P (k r)

/-- A phase all of whose commands keep `I`, traps included, keeps `I`. -/
theorem wp_invariant {T P : Act → Prop} {I : σ → Prop}
    (hstep : ∀ a d w, P a → I w → A (M.event a d w) → S (M.event a d w) ∧
      resume M A S E d I (M.exec d a w).2)
    (hexit : ∀ s w, s ≠ 0 → I w → E (.exited s) w) :
    ∀ {p : Prog Act α}, Acts T P p → ∀ {w : σ}, I w → wp M A S p (fun _ => I) E w := by
  intro p
  induction p with
  | ret a => intro _ w hI; exact hI
  | exit s => intro hs w hI; exact hexit s w hs hI
  | step a k ih =>
      intro hacts w hI d hA
      obtain ⟨hS, hnext⟩ := hstep a d w hacts.1 hI hA
      exact ⟨hS, resume_mono (fun _ _ hx => hx) (fun w' hw' => ih _ (hacts.2.2 _) hw') hnext⟩

/-- Without signals, what every command keeps the phase keeps. -/
theorem wp_kept {T P : Act → Prop} {I : σ → Prop}
    (hquiet : ∀ e, A e → M.signal e.decision = none)
    (hstep : ∀ a d w, P a → I w → I (M.exec d a w).2) {p : Prog Act α} (hp : Acts T P p) {w : σ}
    (hw : I w) : wp M A (fun _ => True) p (fun _ => I) (fun _ _ => True) w := by
  refine wp_invariant ?_ (fun _ _ _ _ => trivial) hp hw
  intro a d v ha hv hA
  exact ⟨trivial, resume_quiet (hquiet _ hA) (hstep a d v ha hv)⟩

/-- What a signal that arrives with `a` leads to when it has to end the
script: the shell dies, or the trap action fails, or the action succeeds but
the command had failed and was not tested. -/
def halts (M : Machine σ Act D) (A S : Event σ Act D → Prop) (E : Ended → σ → Prop)
    (untested : Prop) (a : Act) (d : D) (w : σ) : Prop :=
  match M.trap (M.exec d a w).2 with
  | none => E .killed (M.exec d a w).2
  | some t => ∀ d', A (M.signalEvent t d' (M.exec d a w).2) →
      S (M.signalEvent t d' (M.exec d a w).2) ∧
      if (M.exec d' t (M.exec d a w).2).1.status = 0 then
        untested ∧ (M.exec d a w).1.status ≠ 0 ∧
          ∀ s, s ≠ 0 → E (.exited s) (M.interrupt (M.exec d' t (M.exec d a w).2).2)
      else E (.exited (M.exec d' t (M.exec d a w).2).1.status)
        (M.interrupt (M.exec d' t (M.exec d a w).2).2)

theorem resume_halts {untested : Prop} {a : Act} {d : D} {next : σ → Prop}
    (hquiet : M.signal d = none → next (M.exec d a w).2)
    (hsignal : M.signal d ≠ none → halts M A S E untested a d w)
    (hstop : untested → (M.exec d a w).1.status ≠ 0 →
      ∀ w', (∀ s, s ≠ 0 → E (.exited s) w') → next w') :
    resume M A S E d next (M.exec d a w).2 := by
  cases hsig : M.signal d with
  | none => exact resume_quiet hsig (hquiet hsig)
  | some sg =>
      have hhalts := hsignal (by rw [hsig]; simp)
      simp only [resume, hsig]
      simp only [halts] at hhalts
      cases htrap : M.trap (M.exec d a w).2 with
      | none =>
          simp only [htrap] at hhalts
          exact hhalts
      | some t =>
          simp only [htrap] at hhalts
          intro d' hA
          obtain ⟨hS, hrest⟩ := hhalts d' hA
          refine ⟨hS, ?_⟩
          by_cases h0 : (M.exec d' t (M.exec d a w).2).1.status = 0
          · rw [if_pos h0] at hrest ⊢
            exact hstop hrest.1 hrest.2.1 _ hrest.2.2
          · rw [if_neg h0] at hrest ⊢
            exact hrest

/-- A phase that keeps `I` as long as no signal arrives, and ends when one
does. -/
theorem wp_strict {T P : Act → Prop} {I : σ → Prop}
    (hstep : ∀ a d w, P a → I w → A (M.event a d w) → S (M.event a d w) ∧
      (M.signal d = none → I (M.exec d a w).2) ∧
      (M.signal d ≠ none → halts M A S E (¬ T a) a d w))
    (hexit : ∀ s w, s ≠ 0 → I w → E (.exited s) w) :
    ∀ {p : Prog Act α}, Acts T P p → ∀ {w : σ}, I w → wp M A S p (fun _ => I) E w := by
  intro p
  induction p with
  | ret a => intro _ w hI; exact hI
  | exit s => intro hs w hI; exact hexit s w hs hI
  | step a k ih =>
      intro hacts w hI d hA
      obtain ⟨hS, hquiet, hsignal⟩ := hstep a d w hacts.1 hI hA
      refine ⟨hS, resume_halts (fun hq => ih _ (hacts.2.2 _) (hquiet hq)) hsignal ?_⟩
      intro huntested hfail w' hE
      rcases hacts.2.1 with htest | hstrict
      · exact absurd htest huntested
      · obtain ⟨s, hs, hk⟩ := hstrict _ hfail
        rw [hk]
        exact hE s hs

/-- One command under `set -e` that changes the phase, with a signal ending
the script. -/
theorem wp_untested_strict {a : Act} {value : Resp → β} {status : Resp → Nat}
    {f : β → Prog Act α} (hs : ∀ r, r.status ≠ 0 → status r ≠ 0)
    (h : ∀ d, A (M.event a d w) → S (M.event a d w) ∧
      (M.signal d = none →
        ((M.exec d a w).1.status = 0 →
          wp M A S (f (value (M.exec d a w).1)) Q E (M.exec d a w).2) ∧
        ((M.exec d a w).1.status ≠ 0 →
          E (.exited (status (M.exec d a w).1)) (M.exec d a w).2)) ∧
      (M.signal d ≠ none → halts M A S E True a d w)) :
    wp M A S ((.step a (fun r => if r.status = 0 then .ret (value r) else .exit (status r))) >>= f)
      Q E w := by
  intro d hA
  obtain ⟨hS, hquiet, hsignal⟩ := h d hA
  refine ⟨hS, resume_halts (fun hq => ?_) hsignal ?_⟩
  · show wp M A S ((if (M.exec d a w).1.status = 0 then Prog.ret (value (M.exec d a w).1)
      else .exit (status (M.exec d a w).1)).bind f) Q E _
    by_cases h0 : (M.exec d a w).1.status = 0
    · rw [if_pos h0]
      exact (hquiet hq).1 h0
    · rw [if_neg h0]
      exact (hquiet hq).2 h0
  · intro _ hfail w' hE
    show wp M A S ((if (M.exec d a w).1.status = 0 then Prog.ret (value (M.exec d a w).1)
      else .exit (status (M.exec d a w).1)).bind f) Q E w'
    rw [if_neg hfail]
    exact hE _ (hs _ hfail)

theorem wp_cmd_strict {a : Act} {f : Unit → Prog Act α}
    (h : ∀ d, A (M.event a d w) → S (M.event a d w) ∧
      (M.signal d = none →
        ((M.exec d a w).1.status = 0 → wp M A S (f ()) Q E (M.exec d a w).2) ∧
        ((M.exec d a w).1.status ≠ 0 → E (.exited (M.exec d a w).1.status) (M.exec d a w).2)) ∧
      (M.signal d ≠ none → halts M A S E True a d w)) :
    wp M A S (cmd a >>= f) Q E w :=
  wp_untested_strict (fun _ hr => hr) h

/-- A tested command that changes the phase, with a signal ending the
script. -/
theorem wp_tested_strict {a : Act} {f : Bool → Prog Act α}
    (h : ∀ d, A (M.event a d w) → S (M.event a d w) ∧
      (M.signal d = none →
        wp M A S (f ((M.exec d a w).1.status == 0)) Q E (M.exec d a w).2) ∧
      (M.signal d ≠ none → halts M A S E False a d w)) :
    wp M A S (tested a >>= f) Q E w := by
  intro d hA
  obtain ⟨hS, hquiet, hsignal⟩ := h d hA
  exact ⟨hS, resume_halts hquiet hsignal (fun hf => hf.elim)⟩

/-- A script of commands under `set -e`, and nothing else: it ends early only
right after a command that failed. -/
def Straight (P : Act → Prop) : Prog Act α → Prop
  | .ret _ => True
  | .exit _ => False
  | .step a k => P a ∧ ∀ r, (r.status = 0 → Straight P (k r)) ∧
      (r.status ≠ 0 → ∃ s, s ≠ 0 ∧ k r = .exit s)

/-- In a straight script it is enough that commands that succeed keep `I`, and
commands that fail leave a state to end in. -/
theorem wp_straight {P : Act → Prop} {I : σ → Prop}
    (hok : ∀ a d w, P a → I w → A (M.event a d w) → (M.exec d a w).1.status = 0 →
      S (M.event a d w) ∧ resume M A S E d I (M.exec d a w).2)
    (hfail : ∀ a d w, P a → I w → A (M.event a d w) → (M.exec d a w).1.status ≠ 0 →
      S (M.event a d w) ∧
        resume M A S E d (fun v => ∀ s, s ≠ 0 → E (.exited s) v) (M.exec d a w).2) :
    ∀ {p : Prog Act α}, Straight P p → ∀ {w : σ}, I w → wp M A S p (fun _ => I) E w := by
  intro p
  induction p with
  | ret a => intro _ w hI; exact hI
  | exit s => intro hs; exact hs.elim
  | step a k ih =>
      intro hp w hI d hA
      by_cases h0 : (M.exec d a w).1.status = 0
      · obtain ⟨hS, hnext⟩ := hok a d w hp.1 hI hA h0
        exact ⟨hS, resume_mono (fun _ _ hx => hx)
          (fun v hv => ih _ ((hp.2 _).1 h0) hv) hnext⟩
      · obtain ⟨hS, hnext⟩ := hfail a d w hp.1 hI hA h0
        refine ⟨hS, resume_mono (fun _ _ hx => hx) (fun v hv => ?_) hnext⟩
        obtain ⟨s, hs, hk⟩ := (hp.2 _).2 h0
        rw [hk]
        exact hv s hs

/-- A script that never calls `exit` and does not use `set -e`. -/
def Unbroken (P : Act → Prop) : Prog Act α → Prop
  | .ret _ => True
  | .exit _ => False
  | .step a k => P a ∧ ∀ r, Unbroken P (k r)

/-- Without signals, an unbroken script comes to its last line, and keeps what
its commands keep. -/
theorem wp_unbroken {P : Act → Prop} {I : σ → Prop} (hquiet : ∀ d, M.signal d = none)
    (hstep : ∀ a d w, P a → I w → A (M.event a d w) → S (M.event a d w) ∧ I (M.exec d a w).2) :
    ∀ {p : Prog Act α}, Unbroken P p → ∀ {w : σ}, I w → wp M A S p (fun _ => I) E w := by
  intro p
  induction p with
  | ret a => intro _ w hI; exact hI
  | exit s => intro hs; exact hs.elim
  | step a k ih =>
      intro hp w hI d hA
      obtain ⟨hS, hnext⟩ := hstep a d w hp.1 hI hA
      exact ⟨hS, resume_quiet (hquiet d) (ih _ (hp.2 _) hnext)⟩

/-- Soundness for a part of a script, from any point of the oracle on. -/
theorem go_sound (O : Nat → Act → D) (p : Prog Act α) :
    ∀ (n : Nat) (w : σ), wp M A S p Q E w → (∀ e ∈ (go M O p n w).trace, A e) →
      (∀ e ∈ (go M O p n w).trace, S e) ∧
        Outcome.sat Q E (go M O p n w).outcome (go M O p n w).final := by
  induction p with
  | ret a => intro n w h _; exact ⟨by simp [go], h⟩
  | exit s => intro n w h _; exact ⟨by simp [go], h⟩
  | step a k ih =>
      intro n w h hA
      simp only [go] at hA ⊢
      cases hsig : M.signal (O n a) with
      | none =>
          simp only [Machine.event, hsig, Run.cons, List.mem_cons, forall_eq_or_imp] at hA ⊢
          obtain ⟨hS, hnext⟩ := h (O n a) hA.1
          simp only [resume, hsig] at hnext
          obtain ⟨hrest, hout⟩ := ih _ (n + 1) _ hnext hA.2
          exact ⟨⟨hS, hrest⟩, hout⟩
      | some sg =>
          cases htrap : M.trap (M.exec (O n a) a w).2 with
          | none =>
              simp only [Machine.event, hsig, htrap, List.mem_singleton, forall_eq] at hA ⊢
              obtain ⟨hS, hnext⟩ := h (O n a) hA
              simp only [resume, hsig, htrap] at hnext
              exact ⟨hS, hnext⟩
          | some t =>
              by_cases h0 : (M.exec (O (n + 1) t) t (M.exec (O n a) a w).2).1.status = 0
              · simp only [Machine.event, Machine.signalEvent, hsig, htrap, h0, if_true, Run.cons,
                  List.mem_cons, forall_eq_or_imp] at hA ⊢
                obtain ⟨hS, hnext⟩ := h (O n a) hA.1
                simp only [resume, hsig, htrap] at hnext
                obtain ⟨hS', hnext⟩ := hnext (O (n + 1) t) hA.2.1
                rw [if_pos h0] at hnext
                obtain ⟨hrest, hout⟩ := ih _ (n + 2) _ hnext hA.2.2
                exact ⟨⟨hS, hS', hrest⟩, hout⟩
              · simp only [Machine.event, Machine.signalEvent, hsig, htrap, h0, if_false,
                  List.mem_cons, List.not_mem_nil, or_false, forall_eq_or_imp,
                  forall_eq] at hA ⊢
                obtain ⟨hS, hnext⟩ := h (O n a) hA.1
                simp only [resume, hsig, htrap] at hnext
                obtain ⟨hS', hnext⟩ := hnext (O (n + 1) t) hA.2
                rw [if_neg h0] at hnext
                exact ⟨⟨hS, hS'⟩, hnext⟩

theorem leave_killed {M : Machine σ Act D} {O : Nat → Act → D} {r : Run σ Act D α}
    (h : r.outcome = .ended .killed) : leave M O r = r := by
  obtain ⟨outcome, final, used, trace⟩ := r
  obtain rfl : outcome = .ended .killed := h
  rfl

theorem leave_untrapped {M : Machine σ Act D} {O : Nat → Act → D} {r : Run σ Act D α}
    (h : r.outcome ≠ .ended .killed) (htrap : M.trap (M.unwind r.final) = none) :
    leave M O r = { r with final := M.unwind r.final } := by
  obtain ⟨outcome, final, used, trace⟩ := r
  cases outcome with
  | done a => simp only [leave, htrap]
  | ended x =>
      cases x with
      | exited s => simp only [leave, htrap]
      | killed => exact absurd rfl h

theorem leave_trapped {M : Machine σ Act D} {O : Nat → Act → D} {r : Run σ Act D α} {t : Act}
    (h : r.outcome ≠ .ended .killed) (htrap : M.trap (M.unwind r.final) = some t) :
    leave M O r = ⟨r.outcome, (M.exitEvent t (O r.used t) (M.unwind r.final)).after, r.used + 1,
      r.trace ++ [M.exitEvent t (O r.used t) (M.unwind r.final)]⟩ := by
  obtain ⟨outcome, final, used, trace⟩ := r
  cases outcome with
  | done a => simp only [leave, htrap]
  | ended x =>
      cases x with
      | exited s => simp only [leave, htrap]
      | killed => exact absurd rfl h

/-- What has to hold when a script is left for the run to end in `F`. -/
def leaving (M : Machine σ Act D) (A S : Event σ Act D → Prop)
    (F : Outcome α → σ → Prop) (o : Outcome α) (w : σ) : Prop :=
  match o with
  | .ended .killed => F o w
  | _ =>
      match M.trap (M.unwind w) with
      | none => F o (M.unwind w)
      | some t => ∀ d, A (M.exitEvent t d (M.unwind w)) →
          S (M.exitEvent t d (M.unwind w)) ∧ F o (M.exec d t (M.unwind w)).2

/-- The three ways a script is left. -/
theorem leaving_intro {F : Outcome α → σ → Prop} {o : Outcome α} {w : σ}
    (hkilled : o = .ended .killed → F o w)
    (hnone : M.trap (M.unwind w) = none → F o (M.unwind w))
    (hsome : ∀ t d, M.trap (M.unwind w) = some t → A (M.exitEvent t d (M.unwind w)) →
      S (M.exitEvent t d (M.unwind w)) ∧ F o (M.exec d t (M.unwind w)).2) :
    leaving M A S F o w := by
  simp only [leaving]
  split
  · exact hkilled rfl
  · split
    · exact hnone ‹_›
    · exact fun d => hsome _ d ‹_›

/-- Leaving the script is no obstacle if only the trap's event matters. -/
theorem leaving_of_traps (htrap : ∀ w t d, M.trap w = some t → S (M.exitEvent t d w))
    (o : Outcome α) (w : σ) : leaving M A S (fun _ _ => True) o w := by
  simp only [leaving]
  split
  · trivial
  · split
    · trivial
    · rename_i t ht
      intro d _
      exact ⟨htrap _ t d ht, trivial⟩

/-- Soundness for whole runs. -/
theorem runScript_sound {F : Outcome α → σ → Prop} (O : Nat → Act → D) (p : Prog Act α)
    (h : wp M A S p (fun a => leaving M A S F (.done a))
      (fun x => leaving M A S F (.ended x)) w)
    (hA : ∀ e ∈ (runScript M O p w).trace, A e) :
    (∀ e ∈ (runScript M O p w).trace, S e) ∧
      F (runScript M O p w).outcome (runScript M O p w).final := by
  have hpre : ∀ e ∈ (go M O p 0 w).trace, A e := fun e he => hA e (mem_leave_trace he)
  obtain ⟨hS, hout⟩ := go_sound O p 0 w h hpre
  have hleave : leaving M A S F (go M O p 0 w).outcome (go M O p 0 w).final := by
    revert hout
    cases (go M O p 0 w).outcome <;> exact id
  simp only [runScript, leave] at hA ⊢
  simp only [leaving] at hleave
  split
  · rename_i hk
    simp only [hk] at hleave
    exact ⟨hS, by simpa only [hk] using hleave⟩
  · rename_i hk
    split at hleave
    · rename_i hk'
      exact absurd hk' hk
    · split
      · rename_i ht
        simp only [ht] at hleave
        exact ⟨hS, hleave⟩
      · rename_i t ht
        simp only [ht] at hleave hA
        obtain ⟨hlast, hF⟩ := hleave _ (hA _ (List.mem_append_right _ (List.mem_singleton.mpr rfl)))
        refine ⟨?_, hF⟩
        intro e he
        rcases List.mem_append.mp he with he | he
        · exact hS e he
        · obtain rfl := List.mem_singleton.mp he
          exact hlast

end Rules

/-! ## The commands of a script -/

section Acts

variable {T P P' : Act → Prop}

theorem Acts.mono (h : ∀ a, P a → P' a) : ∀ {p : Prog Act α}, Acts T P p → Acts T P' p := by
  intro p
  induction p with
  | ret a => intro _; trivial
  | exit s => intro hs; exact hs
  | step a k ih => intro hp; exact ⟨h a hp.1, hp.2.1, fun r => ih r (hp.2.2 r)⟩

theorem acts_bind {p : Prog Act α} {f : α → Prog Act β} (hp : Acts T P p)
    (hf : ∀ a, Acts T P (f a)) : Acts T P (p >>= f) := by
  induction p with
  | ret a => exact hf a
  | exit s => exact hp
  | step a k ih =>
      refine ⟨hp.1, ?_, fun r => ih r (hp.2.2 r)⟩
      rcases hp.2.1 with htest | hstrict
      · exact Or.inl htest
      · right
        intro r hr
        obtain ⟨s, hs, hk⟩ := hstrict r hr
        refine ⟨s, hs, ?_⟩
        show (k r).bind f = .exit s
        rw [hk]
        rfl

/-- The common form of the commands under `set -e`. -/
theorem acts_untested {a : Act} {value : Resp → α} {status : Resp → Nat}
    (hs : ∀ r, r.status ≠ 0 → status r ≠ 0) (h : P a) :
    Acts T P (.step a (fun r => if r.status = 0 then .ret (value r) else .exit (status r))) := by
  refine ⟨h, Or.inr (fun r hr => ⟨status r, hs r hr, if_neg hr⟩), fun r => ?_⟩
  show Acts T P (if r.status = 0 then .ret (value r) else .exit (status r))
  by_cases h0 : r.status = 0
  · rw [if_pos h0]
    trivial
  · rw [if_neg h0]
    exact hs r h0

theorem acts_cmd {a : Act} (h : P a) : Acts T P (cmd a) := acts_untested (fun _ hr => hr) h

theorem acts_capture {a : Act} (h : P a) : Acts T P (capture a) :=
  acts_untested (fun _ hr => hr) h

theorem acts_captureOrExit {s : Nat} (hs : s ≠ 0) {a : Act} (h : P a) :
    Acts T P (captureOrExit s a) :=
  acts_untested (fun _ _ => hs) h

theorem acts_tested {a : Act} (h : P a) (ht : T a) : Acts T P (tested a) :=
  ⟨h, Or.inl ht, fun _ => trivial⟩

/-- What follows a command of a script is a script of the same kind. -/
theorem acts_rest {a : Act} {f : Unit → Prog Act α} (h : Acts T P (cmd a >>= f)) :
    P a ∧ Acts T P (f ()) :=
  ⟨h.1, h.2.2 ⟨0, []⟩⟩

theorem straight_cmd {a : Act} (h : P a) : Straight P (cmd a) := by
  refine ⟨h, fun r => ⟨fun h0 => ?_, fun h0 => ⟨r.status, h0, if_neg h0⟩⟩⟩
  show Straight P (if r.status = 0 then Prog.ret () else .exit r.status)
  rw [if_pos h0]
  trivial

theorem straight_bind {p : Prog Act α} {f : α → Prog Act β} (hp : Straight P p)
    (hf : ∀ a, Straight P (f a)) : Straight P (p >>= f) := by
  induction p with
  | ret a => exact hf a
  | exit s => exact hp.elim
  | step a k ih =>
      refine ⟨hp.1, fun r => ⟨fun h0 => ih r ((hp.2 r).1 h0), fun h0 => ?_⟩⟩
      obtain ⟨s, hs, hk⟩ := (hp.2 r).2 h0
      refine ⟨s, hs, ?_⟩
      show (k r).bind f = .exit s
      rw [hk]
      rfl

theorem unbroken_tested {a : Act} (h : P a) : Unbroken P (tested a) := ⟨h, fun _ => trivial⟩

theorem unbroken_bind {p : Prog Act α} {f : α → Prog Act β} (hp : Unbroken P p)
    (hf : ∀ a, Unbroken P (f a)) : Unbroken P (p >>= f) := by
  induction p with
  | ret a => exact hf a
  | exit s => exact hp.elim
  | step a k ih => exact ⟨hp.1, fun r => ih r (hp.2 r)⟩

theorem unbroken_ite {b : Bool} {p q : Prog Act α} (hp : Unbroken P p) (hq : Unbroken P q) :
    Unbroken P (if b = true then p else q) := by
  cases b with
  | false => exact hq
  | true => exact hp

theorem unbroken_forEach {ι : Type} {body : ι → Prog Act Unit} {xs : List ι}
    (h : ∀ x ∈ xs, Unbroken P (body x)) : Unbroken P (forEach body xs) := by
  induction xs with
  | nil => trivial
  | cons x xs ih =>
      exact unbroken_bind (h x (by simp)) (fun _ => ih (fun y hy => h y (by simp [hy])))

theorem acts_ite {b : Bool} {p q : Prog Act α} (hp : Acts T P p) (hq : Acts T P q) :
    Acts T P (if b = true then p else q) := by
  cases b with
  | false => exact hq
  | true => exact hp

theorem acts_forEach {ι : Type} {body : ι → Prog Act Unit} {xs : List ι}
    (h : ∀ x ∈ xs, Acts T P (body x)) : Acts T P (forEach body xs) := by
  induction xs with
  | nil => trivial
  | cons x xs ih =>
      exact acts_bind (h x (by simp)) (fun _ => ih (fun y hy => h y (by simp [hy])))

/-- In a run that comes to its end, the commands that are not tested have
succeeded. -/
theorem go_done_status {M : Machine σ Act D} {O : Nat → Act → D} :
    ∀ {p : Prog Act α}, Acts T P p → ∀ (n : Nat) {w : σ} {x : α},
      (go M O p n w).outcome = .done x →
        ∀ e ∈ (go M O p n w).trace, e.cause = .script →
          T e.act ∨ (M.exec e.decision e.act e.before).1.status = 0 := by
  intro p
  induction p with
  | ret a => intro _ n w x _ e he; exact absurd he List.not_mem_nil
  | exit s => intro _ n w x h; cases h
  | step a k ih =>
      intro hp n w x h e he hc
      -- where a command that is not tested fails, the script ends
      have hfirst : ∀ {m : Nat} {v : σ},
          (go M O (k (M.exec (O n a) a w).1) m v).outcome = .done x →
            T a ∨ (M.exec (O n a) a w).1.status = 0 := by
        intro m v hrest
        rcases hp.2.1 with htest | hstrict
        · exact Or.inl htest
        · right
          by_contra hfail
          obtain ⟨s, _, hk⟩ := hstrict _ hfail
          rw [hk] at hrest
          cases hrest
      rcases go_step_done h with ⟨_, hgo⟩ | ⟨_, t, _, hgo⟩
      · rw [hgo] at h he
        rcases List.mem_cons.mp he with rfl | he
        · exact hfirst h
        · exact ih _ (hp.2.2 _) _ h e he hc
      · rw [hgo] at h he
        rcases List.mem_cons.mp he with rfl | he
        · exact hfirst h
        rcases List.mem_cons.mp he with rfl | he
        · cases hc
        · exact ih _ (hp.2.2 _) _ h e he hc

/-- Without signals, a command that is not tested and fails is the last one. -/
theorem go_failed_last {M : Machine σ Act D} {O : Nat → Act → D} :
    ∀ {p : Prog Act α}, Acts T P p → ∀ (n : Nat) {w : σ},
      (∀ e ∈ (go M O p n w).trace, M.signal e.decision = none) →
        ∀ e ∈ (go M O p n w).trace, ¬ T e.act → e.resp.status ≠ 0 →
          ∃ s, (go M O p n w).outcome = .ended (.exited s) ∧
            (go M O p n w).final = e.after := by
  intro p
  induction p with
  | ret a => intro _ n w _ e he; exact absurd he List.not_mem_nil
  | exit s => intro _ n w _ e he; exact absurd he List.not_mem_nil
  | step a k ih =>
      intro hp n w hquiet e he htest hfail
      have hsig : M.signal (O n a) = none := by
        refine hquiet (M.event a (O n a) w) ?_
        simp only [go]
        split
        · exact List.mem_cons_self
        · split
          · exact List.mem_cons_self
          · split <;> exact List.mem_cons_self
      have hgo : go M O (.step a k) n w
          = (go M O (k (M.exec (O n a) a w).1) (n + 1) (M.exec (O n a) a w).2).cons
              (M.event a (O n a) w) := by
        simp only [go, Machine.event, hsig]
      rw [hgo] at hquiet he ⊢
      rcases List.mem_cons.mp he with rfl | he
      · obtain ⟨s, _, hk⟩ := (hp.2.1.resolve_left htest) _ hfail
        refine ⟨s, ?_, ?_⟩
        · show (go M O (k (M.exec (O n a) a w).1) (n + 1) _).outcome = _
          rw [show k (M.exec (O n a) a w).1 = .exit s from hk]
          rfl
        · show (go M O (k (M.exec (O n a) a w).1) (n + 1) _).final = _
          rw [show k (M.exec (O n a) a w).1 = .exit s from hk]
          rfl
      · exact ih _ (hp.2.2 _) _ (fun e' he' => hquiet e' (List.mem_cons_of_mem _ he')) e he
          htest hfail

/-- A script with exit status zero has come to its end. -/
theorem go_done_of_status {M : Machine σ Act D} {O : Nat → Act → D} {p : Prog Act α}
    (hp : Acts T P p) {n : Nat} {w : σ} (h0 : (go M O p n w).outcome.status = 0) :
    ∃ x, (go M O p n w).outcome = .done x := by
  have hwp : wp M (fun _ => True) (fun _ => True) p (fun _ _ => True)
      (fun x _ => (Outcome.ended x : Outcome α).status ≠ 0) w := by
    refine wp_invariant (I := fun _ => True) ?_ (fun s _ hs _ => hs) hp trivial
    intro a d v _ _ _
    refine ⟨trivial, ?_⟩
    simp only [resume]
    split
    · trivial
    · split
      · exact Nat.succ_ne_zero 127
      · intro d' _
        refine ⟨trivial, ?_⟩
        split
        · trivial
        · rename_i hfail
          exact hfail
  have hend := (go_sound O p n w hwp (fun _ _ => trivial)).2
  cases hout : (go M O p n w).outcome with
  | done x => exact ⟨x, rfl⟩
  | ended x =>
      rw [hout] at hend h0
      exact absurd h0 hend

/-- Every value the script can compute satisfies `V`. -/
def Returns (V : α → Prop) : Prog Act α → Prop
  | .ret a => V a
  | .exit _ => True
  | .step _ k => ∀ r, Returns V (k r)

theorem returns_bind {V : β → Prop} (p : Prog Act α) {f : α → Prog Act β}
    (hf : ∀ a, Returns V (f a)) : Returns V (p >>= f) := by
  induction p with
  | ret a => exact hf a
  | exit s => trivial
  | step a k ih => exact fun r => ih r

/-- The values of the first part limit those of the second. -/
theorem returns_then {U : α → Prop} {V : β → Prop} {p : Prog Act α} {f : α → Prog Act β}
    (hp : Returns U p) (hf : ∀ a, U a → Returns V (f a)) : Returns V (p >>= f) := by
  induction p with
  | ret a => exact hf a hp
  | exit s => trivial
  | step a k ih => exact fun r => ih r (hp r)

theorem wp_returns {M : Machine σ Act D} {A S : Event σ Act D → Prop} {V : α → Prop}
    {Q : α → σ → Prop} {E : Ended → σ → Prop} {p : Prog Act α} (hp : Returns V p) {w : σ}
    (h : wp M A S p Q E w) : wp M A S p (fun a v => V a ∧ Q a v) E w := by
  induction p generalizing w with
  | ret a => exact ⟨hp, h⟩
  | exit s => exact h
  | step a k ih =>
      intro d hA
      obtain ⟨hS, h⟩ := h d hA
      exact ⟨hS, resume_mono (fun _ _ hx => hx) (fun v hv => ih _ (hp _) hv) h⟩

/-- **A run executes only commands of the script and traps.** -/
theorem runScript_acts {M : Machine σ Act D} (htrap : ∀ w t, M.trap w = some t → P t)
    {p : Prog Act α} (hp : Acts T P p) (O : Nat → Act → D) (w : σ) :
    ∀ e ∈ (runScript M O p w).trace, P e.act := by
  have hresume : ∀ d w, resume M (fun _ => True) (fun e => P e.act) (fun _ _ => True) d
      (fun _ => True) w := by
    intro d w
    simp only [resume]
    split
    · trivial
    · split
      · trivial
      · rename_i t ht
        intro d' _
        refine ⟨htrap w t ht, ?_⟩
        split <;> trivial
  have hleaving := leaving_of_traps (M := M) (A := fun _ => True) (S := fun e => P e.act) (α := α)
    (fun w t _ ht => htrap w t ht)
  have hwp : wp M (fun _ => True) (fun e => P e.act) p (fun _ _ => True) (fun _ _ => True) w :=
    wp_invariant (fun a d w ha _ _ => ⟨ha, hresume d _⟩) (fun _ _ _ _ => trivial) hp trivial
  exact (runScript_sound (F := fun _ _ => True) O p
    (wp_mono (fun a v _ => hleaving (.done a) v) (fun x v _ => hleaving (.ended x) v) hwp)
    (fun _ _ => trivial)).1

end Acts

end Slinux.Shell.Logic
