import Slinux.Shell.Logic

/-!
# Two runs side by side

A script reads data it should not pass on.  That it does not is a statement
about two runs: replace the data, and everything else stays as it was.  Here
the replacement is a `Disguise`, which says for each command what is run in
its place and how the answer differs.  A script `q` *mirrors* `p` if it runs
the disguised commands of `p` in the same order, whatever is answered; on two
machines that differ by the disguise alone, the run of `q` is then the run of
`p` in disguise: the same states, the same end, the same number of commands.

`Mirrors` is closed under sequencing, and a script whose commands the disguise
does not touch mirrors itself, so only the parts that handle the data need an
argument.

## Main definitions

* `Disguise`, `Run.disguise` — commands and answers, and a run, in disguise.
* `Mirrors` — the relation between two scripts.
* `Reflects` — the relation between two machines.

## Main results

* `go_mirrors`, `runScript_mirrors` — mirroring scripts have mirroring runs.
* `mirrors_bind`, `mirrors_refl` — how to show that scripts mirror each other.
-/

namespace Slinux.Shell.Mirror

open Slinux.Shell.Text
open Slinux.Shell.Script
open Slinux.Shell.Logic

variable {σ Act Act' D α α' β β' : Type}

/-- What is run in place of a command, and what is answered in place of its
answer. -/
structure Disguise (Act Act' : Type) where
  act : Act → Act'
  resp : Act → Resp → Resp
  status : ∀ a r, (resp a r).status = r.status

/-- `q` runs the disguised commands of `p`, as long as a command `a` is
answered as `Says a` allows, and computes a value that `V` relates. -/
def Mirrors (f : Disguise Act Act') (Says : Act → Resp → Prop) (V : α → α' → Prop) :
    Prog Act α → Prog Act' α' → Prop
  | .ret a, .ret b => V a b
  | .exit s, .exit t => s = t
  | .step a k, .step b l =>
      b = f.act a ∧ ∀ r, Says a r → Mirrors f Says V (k r) (l (f.resp a r))
  | _, _ => False

variable {f : Disguise Act Act'} {Says : Act → Resp → Prop} {V : α → α' → Prop}

/-! ## Scripts -/

theorem mirrors_bind {W : β → β' → Prop} {p : Prog Act α} {q : Prog Act' α'}
    {k : α → Prog Act β} {l : α' → Prog Act' β'} (hp : Mirrors f Says V p q)
    (hk : ∀ a b, V a b → Mirrors f Says W (k a) (l b)) :
    Mirrors f Says W (p >>= k) (q >>= l) := by
  induction p generalizing q with
  | ret a =>
      cases q with
      | ret b => exact hk a b hp
      | exit t => exact hp.elim
      | step b l' => exact hp.elim
  | exit s =>
      cases q with
      | ret b => exact hp.elim
      | exit t => exact hp
      | step b l' => exact hp.elim
  | step a k' ih =>
      cases q with
      | ret b => exact hp.elim
      | exit t => exact hp.elim
      | step b l' => exact ⟨hp.1, fun r hr => ih r (hp.2 r hr)⟩

/-- The common form of the commands under `set -e`. -/
theorem mirrors_untested {a : Act} {value : Resp → α} {value' : Resp → α'}
    {status : Resp → Nat} (hs : ∀ r, status (f.resp a r) = status r)
    (hV : ∀ r, Says a r → r.status = 0 → V (value r) (value' (f.resp a r))) :
    Mirrors f Says V
      (.step a (fun r => if r.status = 0 then .ret (value r) else .exit (status r)))
      (.step (f.act a)
        (fun r => if r.status = 0 then .ret (value' r) else .exit (status r))) := by
  refine ⟨rfl, fun r hr => ?_⟩
  by_cases h0 : r.status = 0
  · have h0' : (f.resp a r).status = 0 := by rw [f.status, h0]
    simp only [h0, h0', if_true]
    exact hV r hr h0
  · have h0' : (f.resp a r).status ≠ 0 := by rw [f.status]; exact h0
    simp only [h0, h0', if_false]
    exact (hs r).symm

theorem mirrors_cmd (a : Act) :
    Mirrors f Says (fun _ _ => True) (cmd a) (cmd (f.act a)) :=
  mirrors_untested (fun r => f.status a r) (fun _ _ _ => trivial)

theorem mirrors_captureOrExit {V : Str → Str → Prop} (s : Nat) {a : Act}
    (h : ∀ r, Says a r → r.status = 0 → V r.out (f.resp a r).out) :
    Mirrors f Says V (captureOrExit s a) (captureOrExit s (f.act a)) :=
  mirrors_untested (fun _ => rfl) h

theorem mirrors_capture {V : Str → Str → Prop} {a : Act}
    (h : ∀ r, Says a r → r.status = 0 → V r.out (f.resp a r).out) :
    Mirrors f Says V (capture a) (capture (f.act a)) :=
  mirrors_untested (fun r => f.status a r) h

theorem mirrors_ite {b : Bool} {p q : Prog Act α} {p' q' : Prog Act' α'}
    (h : Mirrors f Says V p p') (h' : Mirrors f Says V q q') :
    Mirrors f Says V (if b = true then p else q) (if b = true then p' else q') := by
  cases b with
  | false => exact h'
  | true => exact h

/-- **A script that the disguise does not concern mirrors itself.** -/
theorem mirrors_refl {f : Disguise Act Act} {T P : Act → Prop}
    (hP : ∀ a, P a → f.act a = a ∧ ∀ r, f.resp a r = r) {p : Prog Act α} (hp : Acts T P p) :
    Mirrors f Says Eq p p := by
  induction p with
  | ret a => rfl
  | exit s => rfl
  | step a k ih =>
      obtain ⟨hact, hresp⟩ := hP a hp.1
      refine ⟨hact.symm, fun r _ => ?_⟩
      rw [hresp r]
      exact ih r (hp.2.2 r)

/-! ## Machines -/

/-- `M'` does with the disguised commands what `M` does with the commands. -/
structure Reflects (f : Disguise Act Act') (Says : Act → Resp → Prop)
    (M : Machine σ Act D) (M' : Machine σ Act' D) : Prop where
  exec : ∀ d a w, M'.exec d (f.act a) w = (f.resp a (M.exec d a w).1, (M.exec d a w).2)
  answers : ∀ d a w, Says a (M.exec d a w).1
  signal : ∀ d, M'.signal d = M.signal d
  trap : ∀ w, M'.trap w = (M.trap w).map f.act
  interrupt : ∀ w, M'.interrupt w = M.interrupt w
  unwind : ∀ w, M'.unwind w = M.unwind w

/-- An executed command in disguise. -/
def eventDisguise (f : Disguise Act Act') (e : Event σ Act D) : Event σ Act' D :=
  ⟨e.cause, f.act e.act, e.decision, e.before, f.resp e.act e.resp, e.after⟩

/-- A run in disguise: only its commands and their answers differ. -/
def runDisguise (f : Disguise Act Act') (r : Run σ Act D α) : Run σ Act' D α :=
  ⟨r.outcome, r.final, r.used, r.trace.map (eventDisguise f)⟩

section Runs

variable {M : Machine σ Act D} {M' : Machine σ Act' D}
variable {O : Nat → Act → D} {O' : Nat → Act' → D}

theorem Reflects.event (hM : Reflects f Says M M') (a : Act) (d : D) (w : σ) :
    M'.event (f.act a) d w = eventDisguise f (M.event a d w) := by
  simp only [Machine.event, eventDisguise, hM.exec]

theorem Reflects.signalEvent (hM : Reflects f Says M M') (t : Act) (d : D) (w : σ) :
    M'.signalEvent (f.act t) d w = eventDisguise f (M.signalEvent t d w) := by
  simp only [Machine.signalEvent, eventDisguise, hM.exec, hM.interrupt]

theorem Reflects.exitEvent (hM : Reflects f Says M M') (t : Act) (d : D) (w : σ) :
    M'.exitEvent (f.act t) d w = eventDisguise f (M.exitEvent t d w) := by
  simp only [Machine.exitEvent, eventDisguise, hM.exec]

variable (hM : Reflects f Says M M') (hO : ∀ n a, O' n (f.act a) = O n a)

include hM hO

/-- **Mirroring scripts have mirroring runs.** -/
theorem go_mirrors : ∀ {p : Prog Act α} {q : Prog Act' α}, Mirrors f Says Eq p q →
    ∀ (n : Nat) (w : σ), go M' O' q n w = runDisguise f (go M O p n w) := by
  intro p
  induction p with
  | ret a =>
      intro q h n w
      cases q with
      | ret b =>
          obtain rfl : a = b := h
          rfl
      | exit t => exact h.elim
      | step b l => exact h.elim
  | exit s =>
      intro q h n w
      cases q with
      | ret b => exact h.elim
      | exit t =>
          obtain rfl : s = t := h
          rfl
      | step b l => exact h.elim
  | step a k ih =>
      intro q h n w
      cases q with
      | ret b => exact h.elim
      | exit t => exact h.elim
      | step b l =>
          obtain ⟨rfl, hnext⟩ := h
          have hrest := ih (M.exec (O n a) a w).1 (hnext _ (hM.answers _ _ _))
          have hstep : M'.event (f.act a) (O' n (f.act a)) w
              = eventDisguise f (M.event a (O n a) w) := by rw [hO, hM.event]
          simp only [go, hstep]
          show _ = runDisguise f _
          simp only [eventDisguise, Machine.event, hM.signal, hM.trap] at hrest ⊢
          cases M.signal (O n a) with
          | none =>
              simp only [hrest]
              rfl
          | some s =>
              cases htrap : M.trap (M.exec (O n a) a w).2 with
              | none => rfl
              | some t =>
                  have ht := hM.signalEvent t (O (n + 1) t) (M.exec (O n a) a w).2
                  simp only [Option.map_some, hO, ht, eventDisguise, f.status, hrest]
                  by_cases h0 :
                      (M.signalEvent t (O (n + 1) t) (M.exec (O n a) a w).2).resp.status = 0
                  · simp only [h0, if_true]
                    rfl
                  · simp only [h0, if_false]
                    rfl

theorem leave_disguise (r : Run σ Act D α) :
    leave M' O' (runDisguise f r) = runDisguise f (leave M O r) := by
  by_cases hkilled : r.outcome = .ended .killed
  · have hleft : (runDisguise f r).outcome = .ended .killed := hkilled
    rw [leave_killed hkilled, leave_killed hleft]
  · have hw : M'.unwind (runDisguise f r).final = M.unwind r.final := hM.unwind r.final
    cases htrap : M.trap (M.unwind r.final) with
    | none =>
        have htrap' : M'.trap (M'.unwind (runDisguise f r).final) = none := by
          rw [hw, hM.trap, htrap]
          rfl
        have hleft := leave_untrapped (O := O') hkilled htrap'
        rw [hleft, leave_untrapped hkilled htrap, hw]
        rfl
    | some t =>
        have htrap' : M'.trap (M'.unwind (runDisguise f r).final) = some (f.act t) := by
          rw [hw, hM.trap, htrap]
          rfl
        have hleft := leave_trapped (O := O') hkilled htrap'
        rw [hleft, leave_trapped hkilled htrap, hw, hO, hM.exitEvent]
        simp only [runDisguise, List.map_append, List.map_cons, List.map_nil]
        rfl

theorem runScript_mirrors {p : Prog Act α} {q : Prog Act' α} (h : Mirrors f Says Eq p q)
    (w : σ) : runScript M' O' q w = runDisguise f (runScript M O p w) := by
  show leave M' O' (go M' O' q 0 w) = runDisguise f (leave M O (go M O p 0 w))
  rw [go_mirrors hM hO h, leave_disguise hM hO]

end Runs

end Slinux.Shell.Mirror
