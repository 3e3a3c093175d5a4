import Slinux.Installer.Effects
import Slinux.Installer.Script

/-!
# What the prompts accept

The password and user name loops of `slinux-install` consume lines until they
have one they like; a repeated password that differs ends the script.  As a
function of the lines typed, that is `takePass` and `takeUser`, and
`takeAccounts` for the whole dialogue.

The dialogue follows these functions in every environment in which a prompt
that has a line to read returns it (`Obliging`).  What the environment has to
promise for that depends on the state, so the promise is stated for the states
of an invariant.

## Main results

* `askAccounts_accepts` — accepted answers lead through the dialogue.
* `askAccounts_hash` — whatever the environment does, the hashes the dialogue
  hands on are outputs of `cryptpw`.
-/

namespace Slinux.Installer.Prompts

open Slinux.Shell.Text
open Slinux.Shell.Script
open Slinux.Shell.Logic
open Slinux.Unix.Files
open Slinux.Installer.Accounts
open Slinux.Installer.System
open Slinux.Installer.Effects
open Slinux.Installer.Script

/-! ## Answers -/

/-- The password that `readpass` accepts, and the lines that are left. -/
def takePass : List Str → Option (Str × List Str)
  | [] => none
  | l :: answers =>
      if longEnough l then
        if answers.head? = some l then some (l, answers.tail) else none
      else takePass answers

/-- The name that the user name loop accepts. -/
def takeUser : List Str → Option (Str × List Str)
  | [] => none
  | l :: answers => if acceptsUser l then some (l, answers) else takeUser answers

/-- The user name of a dialogue that is accepted as a whole. -/
def takeAccounts (answers : List Str) : Option Str := do
  let (_, answers) ← takePass answers
  let (user, answers) ← takeUser answers
  let (_, _) ← takePass answers
  pure user

/-- The answers of a whole run: a line for the confirmation, and the
dialogue. -/
def Accepted (answers : List Str) : Prop := (takeAccounts answers.tail).isSome = true

instance (answers : List Str) : Decidable (Accepted answers) :=
  inferInstanceAs (Decidable (_ = _))

/-! ## The dialogue -/

section Dialogue

variable {A : Event World Act Decision → Prop} {I : World → Prop} {E : Ended → World → Prop}

/-- In the states of `I`, a prompt or message that can succeed does, without a
signal, and keeps `I`. -/
def Obliging (A : Event World Act Decision → Prop) (I : World → Prop) : Prop :=
  ∀ (a : Act) (d : Decision) (w w' : World) (out : Str), Asks a → I w → A (machine.event a d w) →
    perform d a w = some (out, w') →
    d.signal = none ∧ exec d a w = (⟨0, out⟩, w') ∧ I w'

variable {α : Type} {Q : α → World → Prop} {w : World}

/-- A prompt that can succeed. -/
theorem wp_obliging (h : Obliging A I) {a : Act} (ha : Asks a) (hI : I w)
    (hp : ∀ d, (perform d a w).isSome = true) {k : Resp → Prog Act α}
    (hk : ∀ d out w', perform d a w = some (out, w') → I w' →
      wp machine A (fun _ => True) (k ⟨0, out⟩) Q E w') :
    wp machine A (fun _ => True) (.step a k) Q E w := by
  intro d hA
  obtain ⟨x, hx⟩ := Option.isSome_iff_exists.mp (hp d)
  obtain ⟨hsig, hexec, hI'⟩ := h a d w x.2 x.1 ha hI hA hx
  refine ⟨trivial, ?_⟩
  apply resume_quiet (show machine.signal d = none from hsig)
  show wp machine A _ (k (exec d a w).1) Q E (exec d a w).2
  rw [hexec]
  exact hk d x.1 x.2 hx hI'

theorem wp_obliging_say (h : Obliging A I) {text : Str} (hI : I w) {f : Unit → Prog Act α}
    (hk : ∀ v, I v → wp machine A (fun _ => True) (f ()) Q E v) :
    wp machine A (fun _ => True) (cmd (.say text) >>= f) Q E w :=
  wp_obliging h (a := .say text) trivial hI (fun _ => rfl) (fun _ _ v _ hv => hk v hv)

/-- A line is read as it is. -/
theorem wp_obliging_getpass (h : Obliging A I) {prompt l : Str} (hI : I w)
    {f : Str → Prog Act α} (hk : ∀ v, I v → wp machine A (fun _ => True) (f l) Q E v) :
    wp machine A (fun _ => True) (captureOrExit 1 (.getpass prompt (some l)) >>= f) Q E w := by
  apply wp_obliging h (a := .getpass prompt (some l)) trivial hI (fun _ => rfl)
  intro d out v hp hv
  cases hp
  exact hk _ hv

theorem wp_obliging_readLine (h : Obliging A I) {l : Str} (hI : I w) {f : Str → Prog Act α}
    (hk : ∀ v, I v → wp machine A (fun _ => True) (f l) Q E v) :
    wp machine A (fun _ => True) (captureOrExit 1 (.readLine (some l)) >>= f) Q E w := by
  apply wp_obliging h (a := .readLine (some l)) trivial hI (fun _ => rfl)
  intro d out v hp hv
  cases hp
  exact hk _ hv

/-- A hash is what `cryptpw` prints. -/
theorem wp_obliging_cryptpw (h : Obliging A I) {pw : Str} (hI : I w) {f : Str → Prog Act α}
    (hk : ∀ (hash : Hash) v, I v → wp machine A (fun _ => True) (f hash.text) Q E v) :
    wp machine A (fun _ => True) (capture (.cryptpw pw) >>= f) Q E w := by
  apply wp_obliging h (a := .cryptpw pw) trivial hI (fun _ => rfl)
  intro d out v hp hv
  cases hp
  exact hk d.hash _ hv

theorem readpass_accepts (h : Obliging A I) (who : Str) {answers : List Str} :
    ∀ {pw : Str} {rest : List Str}, takePass answers = some (pw, rest) → ∀ {w : World}, I w →
      wp machine A (fun _ => True) (readpass who answers) (fun r v => r = (pw, rest) ∧ I v) E
        w := by
  induction answers with
  | nil => intro pw rest ht; cases ht
  | cons l answers ih =>
      intro pw rest ht w hI
      apply wp_obliging_getpass h hI
      intro v hv
      unfold takePass at ht
      by_cases hlong : longEnough l = true
      · rw [if_pos hlong] at ht ⊢
        rw [Option.ite_none_right_eq_some] at ht
        obtain ⟨hrepeat, ht⟩ := ht
        cases ht
        unfold repeatPass
        rw [hrepeat]
        apply wp_obliging_getpass h hv
        intro v' hv'
        rw [if_pos rfl]
        exact ⟨rfl, hv'⟩
      · rw [if_neg hlong] at ht ⊢
        apply wp_obliging_say h hv
        intro v' hv'
        exact ih ht hv'

theorem askUser_accepts (h : Obliging A I) {answers : List Str} :
    ∀ {user : Str} {rest : List Str}, takeUser answers = some (user, rest) → ∀ {w : World}, I w →
      wp machine A (fun _ => True) (askUser answers) (fun r v => r = (user, rest) ∧ I v) E w := by
  induction answers with
  | nil => intro user rest ht; cases ht
  | cons l answers ih =>
      intro user rest ht w hI
      apply wp_obliging_say h hI
      intro v hv
      apply wp_obliging_readLine h hv
      intro v' hv'
      unfold takeUser at ht
      by_cases haccept : acceptsUser l = true
      · rw [if_pos haccept] at ht ⊢
        cases ht
        exact ⟨rfl, hv'⟩
      · rw [if_neg haccept] at ht ⊢
        apply wp_obliging_say h hv'
        intro v'' hv''
        exact ih ht hv''

/-- **Accepted answers lead through the dialogue.** -/
theorem askAccounts_accepts (h : Obliging A I) {answers : List Str} {user : Str}
    (ht : takeAccounts answers = some user) (hI : I w) :
    wp machine A (fun _ => True) (askAccounts answers)
      (fun a v => a.user = user ∧ (∃ hash : Hash, a.rhash = hash.text) ∧
        (∃ hash : Hash, a.uhash = hash.text) ∧ I v) E w := by
  unfold takeAccounts at ht
  obtain ⟨⟨pw, answers₁⟩, hpw, ht⟩ := Option.bind_eq_some_iff.mp ht
  obtain ⟨⟨user, answers₂⟩, hname, ht⟩ := Option.bind_eq_some_iff.mp ht
  obtain ⟨⟨pw', answers₃⟩, hpw', ht⟩ := Option.bind_eq_some_iff.mp ht
  cases ht
  apply wp_obliging_say h hI
  intro v hv
  apply wp_bind
  refine wp_mono ?_ (fun _ _ hx => hx) (readpass_accepts h rootName hpw hv)
  rintro r v ⟨rfl, hv⟩
  apply wp_obliging_cryptpw h hv
  intro rhash v hv
  apply wp_bind
  refine wp_mono ?_ (fun _ _ hx => hx) (askUser_accepts h hname hv)
  rintro r v ⟨rfl, hv⟩
  apply wp_bind
  refine wp_mono ?_ (fun _ _ hx => hx) (readpass_accepts h user hpw' hv)
  rintro r v ⟨rfl, hv⟩
  apply wp_obliging_cryptpw h hv
  intro uhash v hv
  exact ⟨rfl, ⟨rhash, rfl⟩, ⟨uhash, rfl⟩, hv⟩

/-- **The hashes of the dialogue are outputs of `cryptpw`.** -/
theorem askAccounts_hash (answers : List Str) :
    wp machine A (fun _ => True) (askAccounts answers)
      (fun a _ => ∃ hash : Hash, a.rhash = hash.text) (fun _ _ => True) w := by
  have hskip : ∀ {β : Type} {p : Prog Act β} {f : β → Prog Act Accounts} {v : World},
      (∀ b u, wp machine A (fun _ => True) (f b) (fun a _ => ∃ hash : Hash, a.rhash = hash.text)
        (fun _ _ => True) u) →
      wp machine A (fun _ => True) (p >>= f) (fun a _ => ∃ hash : Hash, a.rhash = hash.text)
        (fun _ _ => True) v := fun hf =>
    wp_bind _ _ (wp_mono (fun b u _ => hf b u) (fun _ _ hx => hx) (wp_trivial _))
  apply hskip
  intro _ v
  apply hskip
  intro pw v d _
  refine ⟨trivial, resume_all (fun v' => ?_)⟩
  show wp machine A _ ((if (exec d (.cryptpw pw.1) v).1.status = 0 then
    Prog.ret (exec d (.cryptpw pw.1) v).1.out
    else .exit (exec d (.cryptpw pw.1) v).1.status).bind _) _ _ v'
  by_cases h0 : (exec d (.cryptpw pw.1) v).1.status = 0
  · rw [if_pos h0]
    have hout := perform_of_status rfl h0
    simp only [perform, Option.some.injEq, Prod.mk.injEq] at hout
    rw [← hout.1, Prog.bind]
    apply hskip
    intro user u
    apply hskip
    intro pw' u'
    apply hskip
    intro uhash u''
    exact ⟨d.hash, rfl⟩
  · rw [if_neg h0]
    trivial

end Dialogue

end Slinux.Installer.Prompts
