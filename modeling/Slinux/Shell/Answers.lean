import Slinux.Shell.Logic

/-!
# Scripts and their answers

A script is a tree that branches over every answer a command could be given.
What it does is often as intended only for the answers a machine really gives:
`read` answers with the line that was typed, and not with another one.  `Meets`
limits the commands and the value of a script under such a relation between
commands and answers; states do not come into it.

## Main results

* `meets_bind`, `meets_untested` — the rules.
* `runScript_meets` — what a script meets, every run of it does, signals
  included.
* `runScript_resp` — where the answers of a run come from.
-/

namespace Slinux.Shell.Answers

open Slinux.Shell.Text
open Slinux.Shell.Script
open Slinux.Shell.Logic

variable {σ Act D α β : Type}

/-- As long as a command `a` is answered as `Says a` allows, every command
satisfies `P`, and the value `V`. -/
def Meets (Says : Act → Resp → Prop) (P : Act → Prop) (V : α → Prop) : Prog Act α → Prop
  | .ret a => V a
  | .exit _ => True
  | .step a k => P a ∧ ∀ r, Says a r → Meets Says P V (k r)

variable {Says : Act → Resp → Prop} {P : Act → Prop} {V : α → Prop} {W : β → Prop}

/-! ## Rules -/

theorem meets_bind {p : Prog Act α} {f : α → Prog Act β} (hp : Meets Says P V p)
    (hf : ∀ a, V a → Meets Says P W (f a)) : Meets Says P W (p >>= f) := by
  induction p with
  | ret a => exact hf a hp
  | exit s => trivial
  | step a k ih => exact ⟨hp.1, fun r hr => ih r (hp.2 r hr)⟩

/-- A part whose value does not matter. -/
theorem meets_then {p : Prog Act α} {f : α → Prog Act β}
    (hp : Meets Says P (fun _ => True) p) (hf : ∀ a, Meets Says P W (f a)) :
    Meets Says P W (p >>= f) :=
  meets_bind hp (fun a _ => hf a)

theorem meets_ite {c : Prop} [Decidable c] {p q : Prog Act α} (hp : c → Meets Says P V p)
    (hq : ¬ c → Meets Says P V q) : Meets Says P V (if c then p else q) := by
  by_cases hc : c
  · rw [if_pos hc]
    exact hp hc
  · rw [if_neg hc]
    exact hq hc

/-- The common form of the commands under `set -e`. -/
theorem meets_untested {a : Act} {value : Resp → α} {status : Resp → Nat} (ha : P a)
    (h : ∀ r, Says a r → r.status = 0 → V (value r)) :
    Meets Says P V
      (.step a (fun r => if r.status = 0 then .ret (value r) else .exit (status r))) := by
  refine ⟨ha, fun r hr => meets_ite (fun h0 => ?_) (fun _ => trivial)⟩
  exact h r hr h0

theorem meets_cmd {a : Act} (ha : P a) : Meets Says P (fun _ => True) (cmd a) :=
  meets_untested ha (fun _ _ _ => trivial)

theorem meets_capture {a : Act} {V : Str → Prop} (ha : P a)
    (h : ∀ r, Says a r → r.status = 0 → V r.out) : Meets Says P V (capture a) :=
  meets_untested ha h

theorem meets_captureOrExit {a : Act} {V : Str → Prop} (s : Nat) (ha : P a)
    (h : ∀ r, Says a r → r.status = 0 → V r.out) : Meets Says P V (captureOrExit s a) :=
  meets_untested ha h

theorem meets_tested {a : Act} (ha : P a) : Meets Says P (fun _ => True) (tested a) :=
  ⟨ha, fun _ _ => trivial⟩

theorem meets_forEach {ι : Type} {body : ι → Prog Act Unit} {xs : List ι}
    (h : ∀ x ∈ xs, Meets Says P (fun _ => True) (body x)) :
    Meets Says P (fun _ => True) (forEach body xs) := by
  induction xs with
  | nil => trivial
  | cons x xs ih =>
      refine meets_then (h x List.mem_cons_self) (fun _ => ?_)
      exact ih (fun y hy => h y (List.mem_cons_of_mem x hy))

/-- A script whose commands are of two kinds at once, whatever they are
answered. -/
theorem meets_both {T T' K K' : Act → Prop} {p : Prog Act α} (hp : Acts T K p)
    (hp' : Acts T' K' p) (h : ∀ a, K a → K' a → P a) : Meets Says P (fun _ => True) p := by
  induction p with
  | ret a => trivial
  | exit s => trivial
  | step a k ih =>
      exact ⟨h a hp.1 hp'.1, fun r _ => ih r (hp.2.2 r) (hp'.2.2 r)⟩

/-- A script whose commands are all of one kind. -/
theorem meets_of_acts {T : Act → Prop} {p : Prog Act α} (hp : Acts T P p) :
    Meets Says P (fun _ => True) p :=
  meets_both hp hp (fun _ h _ => h)

/-! ## Runs -/

section Runs

variable {M : Machine σ Act D} {O : Nat → Act → D}

/-- A signal does not matter to what holds in every state. -/
theorem resume_of_traps {A S : Event σ Act D → Prop}
    (htrap : ∀ w t d, M.trap w = some t → S (M.signalEvent t d w)) {d : D} {next : σ → Prop}
    (h : ∀ v, next v) (w : σ) : resume M A S (fun _ _ => True) d next w := by
  simp only [resume]
  split
  · exact h w
  · split
    · trivial
    · rename_i t ht
      intro d' _
      refine ⟨htrap w t d' ht, ?_⟩
      split
      · exact h _
      · trivial

theorem meets_wp (htrap : ∀ w t, M.trap w = some t → P t) {p : Prog Act α}
    (hp : Meets Says P V p) (w : σ) :
    wp M (fun e => Says e.act e.resp) (fun e => P e.act) p (fun a _ => V a)
      (fun _ _ => True) w := by
  induction p generalizing w with
  | ret a => exact hp
  | exit s => trivial
  | step a k ih =>
      intro d hA
      exact ⟨hp.1, resume_of_traps (fun w t _ ht => htrap w t ht) (fun v => ih _ (hp.2 _ hA) v) _⟩

/-- **What a script meets, its runs do**, as far as their commands are answered
as they should be. -/
theorem runScript_meets (htrap : ∀ w t, M.trap w = some t → P t) {p : Prog Act α}
    (hp : Meets Says P V p) (w : σ)
    (hanswers : ∀ e ∈ (runScript M O p w).trace, Says e.act e.resp) :
    ∀ e ∈ (runScript M O p w).trace, P e.act := by
  have hleaving := leaving_of_traps (M := M) (A := fun e => Says e.act e.resp)
    (S := fun e => P e.act) (α := α) (fun w t _ ht => htrap w t ht)
  exact (runScript_sound (F := fun _ _ => True) O p
    (wp_mono (fun a v _ => hleaving (.done a) v) (fun x v _ => hleaving (.ended x) v)
      (meets_wp htrap hp w)) hanswers).1

/-- The answers of a run are those of the machine. -/
theorem runScript_resp (p : Prog Act α) (w : σ) :
    ∀ e ∈ (runScript M O p w).trace, e.resp = (M.exec e.decision e.act e.before).1 := by
  have hwp : ∀ w, wp M (fun _ => True) (fun e => e.resp = (M.exec e.decision e.act e.before).1) p
      (fun _ _ => True) (fun _ _ => True) w := by
    induction p with
    | ret a => exact fun _ => trivial
    | exit s => exact fun _ => trivial
    | step a k ih => exact fun w d _ => ⟨rfl, resume_of_traps (fun _ _ _ _ => rfl) (ih _) _⟩
  have hleaving := leaving_of_traps (M := M) (A := fun _ => True) (α := α)
    (S := fun e => e.resp = (M.exec e.decision e.act e.before).1) (fun _ _ _ _ => rfl)
  exact (runScript_sound (F := fun _ _ => True) O p
    (wp_mono (fun a v _ => hleaving (.done a) v) (fun x v _ => hleaving (.ended x) v) (hwp w))
    (fun _ _ => trivial)).1

end Runs

end Slinux.Shell.Answers
