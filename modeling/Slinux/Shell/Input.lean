import Slinux.Shell.Logic

/-!
# Standard input

`read` without `-r` takes more than one line if a line ends in a backslash, and
it removes backslashes and blanks from what it took.  Both are functions of the
lines here: `readLogical` says what it takes, and `readText` what it assigns.

Behind every command that reads, the next one finds what is left.  `Feeds`
follows a script along its input without looking at states: `Gets s a s'` says
that a command `a` takes from the input `s` what it is told to, and leaves `s'`.

## Main results

* `readLogical_unlines` — `read` takes bytes off the front of its input.
* `runScript_fed` — what a script is fed, every run of it is, signals included.
-/

namespace Slinux.Shell.Input

open Slinux.Shell.Text
open Slinux.Shell.Script
open Slinux.Shell.Logic

/-! ## `read` without `-r` -/

/-- `read` skips NUL. -/
def seen (l : Str) : Str := l.filter (· != '\x00')

/-- The characters that are left by the backslashes, each with whether one
protects it.  A backslash takes the newline behind it along. -/
def marked : Str → List (Char × Bool)
  | [] => []
  | '\\' :: '\n' :: s => marked s
  | '\\' :: c :: s => (c, true) :: marked s
  | c :: s => (c, false) :: marked s

/-- A blank that field splitting removes at either end. -/
def splits (x : Char × Bool) : Bool := isBlank x.1 && !x.2

/-- The value of `ans` behind `read ans`. -/
def readText (l : Str) : Str :=
  (((marked (seen l)).dropWhile splits).rdropWhile splits).map Prod.fst

/-- The line ends in a backslash that no other one protects. -/
def continues : Str → Bool
  | [] => false
  | ['\\'] => true
  | '\\' :: _ :: s => continues s
  | _ :: s => continues s

/-- What `read` takes from these lines, without the newline that ends it, and
the lines that are left.  At the end of its input `read` fails. -/
def readLogical : List Str → Option (Str × List Str)
  | [] => none
  | l :: ls =>
      if continues (seen l) then (readLogical ls).map (fun x => (l ++ '\n' :: x.1, x.2))
      else some (l, ls)

example : readLogical ["y\\".toList, "es".toList, "n".toList]
    = some ("y\\\nes".toList, ["n".toList]) := by decide

example : readText " y\\\nes ".toList = "yes".toList ∧ readText "y\\ ".toList = "y ".toList := by
  decide

theorem readLogical_unlines {ls : List Str} {l : Str} {rest : List Str}
    (h : readLogical ls = some (l, rest)) : unlines ls = l ++ '\n' :: unlines rest := by
  induction ls generalizing l with
  | nil => cases h
  | cons k ls ih =>
      unfold readLogical at h
      split at h
      · obtain ⟨x, hx, heq⟩ := Option.map_eq_some_iff.mp h
        obtain ⟨rfl, rfl⟩ := Prod.mk.inj heq
        show k ++ '\n' :: unlines ls = _
        rw [ih hx, List.append_assoc, List.cons_append]
      · cases h
        rfl

/-- The lines that are left are among the lines that were there. -/
theorem readLogical_suffix {ls : List Str} {l : Str} {rest : List Str}
    (h : readLogical ls = some (l, rest)) : rest <:+ ls := by
  induction ls generalizing l with
  | nil => cases h
  | cons k ls ih =>
      unfold readLogical at h
      split at h
      · obtain ⟨x, hx, heq⟩ := Option.map_eq_some_iff.mp h
        obtain ⟨-, rfl⟩ := Prod.mk.inj heq
        exact (ih hx).trans (List.suffix_cons k ls)
      · cases h
        exact List.suffix_cons _ _

/-! ## Scripts and their input -/

variable {σ Act D S α β : Type}

/-- As long as the commands are answered as `Says` allows, each finds on the
input what it takes, and at the end `V` holds of the value and the input that is
left. -/
def Feeds (Says : Act → Resp → Prop) (Gets : S → Act → S → Prop) (V : α → S → Prop) :
    Prog Act α → S → Prop
  | .ret a, s => V a s
  | .exit _, _ => True
  | .step a k, s => ∃ s', Gets s a s' ∧ ∀ r, Says a r → Feeds Says Gets V (k r) s'

/-- The same of commands that have been executed. -/
def Fed (Gets : S → Act → S → Prop) : S → List Act → Prop
  | _, [] => True
  | s, a :: as => ∃ s', Gets s a s' ∧ Fed Gets s' as

variable {Says : Act → Resp → Prop} {Gets : S → Act → S → Prop}
variable {V : α → S → Prop} {W : β → S → Prop} {s : S}

theorem feeds_bind {p : Prog Act α} {f : α → Prog Act β} (hp : Feeds Says Gets V p s)
    (hf : ∀ a s, V a s → Feeds Says Gets W (f a) s) : Feeds Says Gets W (p >>= f) s := by
  induction p generalizing s with
  | ret a => exact hf a s hp
  | exit n => trivial
  | step a k ih =>
      obtain ⟨s', hgets, hk⟩ := hp
      exact ⟨s', hgets, fun r hr => ih r (hk r hr)⟩

theorem feeds_ite {c : Prop} [Decidable c] {p q : Prog Act α} (hp : c → Feeds Says Gets V p s)
    (hq : ¬ c → Feeds Says Gets V q s) : Feeds Says Gets V (if c then p else q) s := by
  by_cases hc : c
  · rw [if_pos hc]
    exact hp hc
  · rw [if_neg hc]
    exact hq hc

/-- The common form of the commands under `set -e`. -/
theorem feeds_untested {a : Act} {value : Resp → α} {status : Resp → Nat} (s' : S)
    (ha : Gets s a s') (h : ∀ r, Says a r → r.status = 0 → V (value r) s') :
    Feeds Says Gets V
      (.step a (fun r => if r.status = 0 then .ret (value r) else .exit (status r))) s :=
  ⟨s', ha, fun r hr => feeds_ite (h r hr) (fun _ => trivial)⟩

theorem feeds_capture {a : Act} {V : Str → S → Prop} (s' : S) (ha : Gets s a s')
    (h : ∀ r, Says a r → r.status = 0 → V r.out s') : Feeds Says Gets V (capture a) s :=
  feeds_untested s' ha h

theorem feeds_captureOrExit {a : Act} {V : Str → S → Prop} (s' : S) (n : Nat)
    (ha : Gets s a s') (h : ∀ r, Says a r → r.status = 0 → V r.out s') :
    Feeds Says Gets V (captureOrExit n a) s :=
  feeds_untested s' ha h

/-- Commands that take nothing. -/
theorem feeds_of_acts {T K : Act → Prop} {p : Prog Act α} (hp : Acts T K p)
    (hK : ∀ a, K a → Gets s a s) : Feeds Says Gets (fun _ v => v = s) p s := by
  induction p with
  | ret a => rfl
  | exit n => trivial
  | step a k ih => exact ⟨s, hK a hp.1, fun r _ => ih r (hp.2.2 r)⟩

/-- A part that takes nothing, and what comes behind it. -/
theorem feeds_then {T K : Act → Prop} {p : Prog Act α} {f : α → Prog Act β} (hp : Acts T K p)
    (hK : ∀ a, K a → Gets s a s) (hf : ∀ a, Feeds Says Gets W (f a) s) :
    Feeds Says Gets W (p >>= f) s := by
  refine feeds_bind (feeds_of_acts hp hK) (fun a v hv => ?_)
  subst hv
  exact hf a

/-! ## Runs -/

section Runs

variable {M : Machine σ Act D} {O : Nat → Act → D}

/-- A last command that takes nothing. -/
theorem fed_append {as : List Act} {t : Act} (ht : ∀ s, Gets s t s) (h : Fed Gets s as) :
    Fed Gets s (as ++ [t]) := by
  induction as generalizing s with
  | nil => exact ⟨s, ht s, trivial⟩
  | cons a as ih =>
      obtain ⟨s', hgets, hrest⟩ := h
      exact ⟨s', hgets, ih hrest⟩

theorem go_fed (htrap : ∀ w t, M.trap w = some t → ∀ s, Gets s t s) {p : Prog Act α}
    (hp : Feeds Says Gets V p s) (htold : ∀ d a w, Says a (M.exec d a w).1) (n : Nat) (w : σ) :
    Fed Gets s ((go M O p n w).trace.map Event.act) := by
  induction p generalizing s n w with
  | ret a => trivial
  | exit m => trivial
  | step a k ih =>
      obtain ⟨s', hgets, hk⟩ := hp
      have hnext := ih (M.exec (O n a) a w).1 (hk _ (htold _ _ _))
      simp only [go]
      split
      · exact ⟨s', hgets, hnext _ _⟩
      · split
        · exact ⟨s', hgets, trivial⟩
        · rename_i t ht
          have hsignal : Gets s' t s' := htrap _ t ht s'
          split
          · exact ⟨s', hgets, s', hsignal, hnext _ _⟩
          · exact ⟨s', hgets, s', hsignal, trivial⟩

/-- **What a script is fed, its runs are.**  The trap takes nothing. -/
theorem runScript_fed (htrap : ∀ w t, M.trap w = some t → ∀ s, Gets s t s) {p : Prog Act α}
    (hp : Feeds Says Gets V p s) (htold : ∀ d a w, Says a (M.exec d a w).1) (w : σ) :
    Fed Gets s ((runScript M O p w).trace.map Event.act) := by
  have hgo := go_fed (O := O) htrap hp htold 0 w
  simp only [runScript, leave]
  split
  · exact hgo
  · split
    · exact hgo
    · rename_i t ht
      rw [List.map_append]
      exact fed_append (htrap _ t ht) hgo

end Runs

end Slinux.Shell.Input
