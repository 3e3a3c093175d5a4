import Slinux.Installer.Typed
import Slinux.InstallSh.Effects

/-!
# The accounts that were typed

`install.sh` asks for a user name until it is given one, and for each of two
passwords until it is given one twice.  Every line is read by the `read` of the
shell itself, the passwords among them into a global; a prompt that fails, or a
signal that `cleanup` survives, comes back into the same loops.  Whatever happens
on the way, the script deals in nothing but what was typed: it has no password
hashed but an accepted one, and it edits no account file before both hashes are
there.

## Main definitions

* `firstPair` — what the lines typed in amount to, behind the user name.
* `AsTyped` — a command that deals with accounts as they were typed.

## Main results

* `accounts_as_typed` — every command of every run.
-/

namespace Slinux.InstallSh.Typed

open Slinux.Shell.Text
open Slinux.Shell.Script
open Slinux.Shell.Answers
open Slinux.Unix.Files
open Slinux.Installer.System (Hash)
open Slinux.Installer.Accounts
open Slinux.Installer.Typed (firstName)
open Slinux.InstallSh.System
open Slinux.InstallSh.Script
open Slinux.InstallSh.Effects

/-! ## What was typed -/

/-- Of the lines taken in pairs, the first pair of equal lines that are not
empty, and the lines behind it. -/
def firstPair : List Str → Option (Str × List Str)
  | l₁ :: l₂ :: answers => if samePass l₁ l₂ then some (l₁, answers) else firstPair answers
  | _ => none

/-- The user name. -/
def UserTyped (answers : List Str) (user : Str) : Prop :=
  ∃ rest, firstName answers = some (user, rest)

/-- The password of root. -/
def RootPassTyped (answers : List Str) (pw : Str) : Prop :=
  ∃ name rest, firstName answers = some name ∧ firstPair name.2 = some (pw, rest)

/-- The password of the user, behind that of root. -/
def UserPassTyped (answers : List Str) (pw : Str) : Prop :=
  ∃ name root rest, firstName answers = some name ∧ firstPair name.2 = some root ∧
    firstPair root.2 = some (pw, rest)

/-- The accounts that were typed, where `Hashes` relates passwords and their
hashes. -/
structure AccountsTyped (Hashes : Str → Hash → Prop) (answers : List Str) (a : Accounts) :
    Prop where
  newuser : UserTyped answers a.newuser
  roothash : ∃ pw h, RootPassTyped answers pw ∧ Hashes pw h ∧ a.roothash = h.text
  userhash : ∃ pw h, UserPassTyped answers pw ∧ Hashes pw h ∧ a.userhash = h.text

/-- A command that deals with accounts deals with those that were typed. -/
def AsTyped (Hashes : Str → Hash → Prop) (answers : List Str) : Act → Prop
  | .openssl pw => RootPassTyped answers pw ∨ UserPassTyped answers pw
  | .sed (.join _ _ user) _ _ => ∃ a, AccountsTyped Hashes answers a ∧ user = a.newuser
  | .tee true _ _ text => ∃ a, AccountsTyped Hashes answers a ∧ text = userPasswd a.newuser
  | .tee false .root _ text => ∃ a, AccountsTyped Hashes answers a ∧ text = shadowFile a
  | .mkdirP .root rel => ∃ a, AccountsTyped Hashes answers a ∧ rel = home a.newuser
  | .chown _ _ _ rel => ∃ a, AccountsTyped Hashes answers a ∧ rel = home a.newuser
  | _ => True

/-! ## Answers -/

/-- `read` answers with its line, and `openssl` with a hash. -/
def Answer (Hashes : Str → Hash → Prop) : Act → Resp → Prop
  | .readLine line, r => r.status = 0 → line = some r.out
  | .openssl pw, r => r.status = 0 → ∃ h, Hashes pw h ∧ r.out = h.text
  | _, _ => True

theorem exec_answer {Hashes : Str → Hash → Prop} {d : Decision} {a : Act}
    (hd : ∀ pw, a = .openssl pw → Hashes pw d.hash) (w : Host) :
    Answer Hashes a (exec d a w).1 := by
  cases a
  case readLine line =>
    intro h0
    have hp := perform_of_status (fun h => by cases h) h0
    simp only [perform, Option.map_eq_some_iff, Prod.mk.injEq] at hp
    obtain ⟨l, hl, hout, _⟩ := hp
    exact hl.trans (congrArg some hout)
  case openssl pw =>
    intro h0
    have hp := perform_of_status (fun h => by cases h) h0
    simp only [perform, Option.some.injEq, Prod.mk.injEq] at hp
    exact ⟨d.hash, hd pw rfl, hp.1.symm⟩
  all_goals trivial

/-! ## The script -/

section Script

variable {Hashes : Str → Hash → Prop} {answers : List Str} {α : Type}

/-- `p` deals with the accounts of `answers` only, and its value satisfies `V`. -/
abbrev Deals (Hashes : Str → Hash → Prop) (answers : List Str) (V : α → Prop)
    (p : Prog Act α) : Prop :=
  Meets (Answer Hashes) (AsTyped Hashes answers) V p

theorem attempt_deals {a : Act} (ha : AsTyped Hashes answers a) :
    Deals Hashes answers (fun _ => True) (attempt a) := ⟨ha, fun _ _ => trivial⟩

theorem require_deals (test : Act) (ht : AsTyped Hashes answers test) (message : Str) :
    Deals Hashes answers (fun _ => True) (require test message) :=
  meets_then (meets_tested ht) (fun _ => meets_ite (fun _ => trivial) (fun _ =>
    meets_then (meets_cmd trivial) (fun _ => trivial)))

/-- A prompt comes back with its line. -/
theorem promptHidden_deals (text : Str) (line : Option Str) :
    Deals Hashes answers (fun p => line = some p) (promptHidden text line) := by
  refine meets_then (attempt_deals trivial) (fun _ => ?_)
  refine meets_then (attempt_deals trivial) (fun _ => ?_)
  refine meets_bind (meets_captureOrExit (V := fun p => line = some p) 1 trivial
    (fun _ hr h0 => hr h0)) (fun p hp => ?_)
  refine meets_then (attempt_deals trivial) (fun _ => ?_)
  exact meets_then (attempt_deals trivial) (fun _ => hp)

/-- `askpass` comes back with the first pair. -/
theorem askpass_deals (who : Str) : ∀ lines : List Str,
    Deals Hashes answers (fun r => firstPair lines = some r) (askpass who lines)
  | [] => meets_bind (promptHidden_deals _ none) (fun _ _ => trivial)
  | [l] => meets_bind (promptHidden_deals _ (some l)) (fun _ _ =>
      meets_bind (promptHidden_deals _ none) (fun _ _ => trivial))
  | l₁ :: l₂ :: lines => by
      refine meets_bind (promptHidden_deals _ (some l₁)) (fun p₁ h₁ => ?_)
      refine meets_bind (promptHidden_deals _ (some l₂)) (fun p₂ h₂ => ?_)
      obtain rfl := Option.some.inj h₁
      obtain rfl := Option.some.inj h₂
      refine meets_ite (fun hsame => ?_) (fun hdiff => ?_)
      · exact if_pos hsame
      · have hnext : firstPair (l₁ :: l₂ :: lines) = firstPair lines := if_neg hdiff
        simp only [hnext]
        exact meets_then (attempt_deals trivial) (fun _ => askpass_deals who lines)

theorem readUser_deals (line : Option Str) :
    Deals Hashes answers (fun user => line = some user) (readUser line) :=
  ⟨trivial, fun _ hr => meets_ite (fun h0 => hr h0) (fun _ =>
    meets_then (meets_cmd trivial) (fun _ => trivial))⟩

/-- The loop of lines 95 to 103 comes back with the first name. -/
theorem askUser_deals (lines : List Str) :
    Deals Hashes answers (fun r => firstName lines = some r) (askUser lines) := by
  induction lines with
  | nil =>
      refine meets_then (meets_cmd trivial) (fun _ => ?_)
      exact meets_bind (readUser_deals none) (fun _ _ => trivial)
  | cons l lines ih =>
      refine meets_then (meets_cmd trivial) (fun _ => ?_)
      refine meets_bind (readUser_deals (some l)) (fun user huser => ?_)
      obtain rfl := Option.some.inj huser
      refine meets_ite (fun haccept => ?_) (fun hreject => ?_)
      · exact if_pos haccept
      · have hnext : firstName (l :: lines) = firstName lines := if_neg hreject
        simp only [hnext]
        exact meets_then (meets_cmd trivial) (fun _ => ih)

/-- `openssl` is given a password that was typed. -/
theorem openssl_deals {pw : Str} (hpw : RootPassTyped answers pw ∨ UserPassTyped answers pw) :
    Deals Hashes answers (fun out => ∃ h, Hashes pw h ∧ out = h.text)
      (capture (.openssl pw)) :=
  meets_capture hpw (fun _ hr h0 => hr h0)

/-- Lines 71 to 106. -/
theorem askAccounts_deals (answers : List Str) :
    Deals Hashes answers (AccountsTyped Hashes answers) (askAccounts answers) := by
  refine meets_then (meets_cmd trivial) (fun _ => ?_)
  refine meets_then (require_deals .haveOpenssl trivial _) (fun _ => ?_)
  refine meets_bind (askUser_deals answers) (fun name hname => ?_)
  refine meets_bind (askpass_deals rootName name.2) (fun root hroot => ?_)
  have hrootpw : RootPassTyped answers root.1 := ⟨name, root.2, hname, hroot⟩
  refine meets_bind (openssl_deals (Or.inl hrootpw)) (fun roothash hroothash => ?_)
  refine meets_bind (askpass_deals name.1 root.2) (fun user huser => ?_)
  have huserpw : UserPassTyped answers user.1 := ⟨name, root, user.2, hname, hroot, huser⟩
  refine meets_bind (openssl_deals (Or.inr huserpw)) (fun userhash huserhash => ?_)
  obtain ⟨h, hh, htext⟩ := hroothash
  obtain ⟨h', hh', htext'⟩ := huserhash
  exact ⟨⟨name.2, hname⟩, ⟨root.1, h, hrootpw, hh, htext⟩, ⟨user.1, h', huserpw, hh', htext'⟩⟩

/-- Lines 108 to 121. -/
theorem writeAccounts_deals {a : Accounts} (ha : AccountsTyped Hashes answers a) :
    Deals Hashes answers (fun _ => True) (writeAccounts a) := by
  refine meets_then (meets_cmd trivial) (fun _ => ?_)
  refine meets_then (meets_cmd ⟨a, ha, rfl⟩) (fun _ => ?_)
  refine meets_then (meets_cmd ⟨a, ha, rfl⟩) (fun _ => ?_)
  refine meets_then (meets_cmd trivial) (fun _ => ?_)
  refine meets_then (meets_cmd ⟨a, ha, rfl⟩) (fun _ => ?_)
  refine meets_then (meets_cmd ⟨a, ha, rfl⟩) (fun _ => ?_)
  refine meets_then (meets_cmd ⟨a, ha, rfl⟩) (fun _ => ?_)
  refine meets_then (meets_cmd ⟨a, ha, rfl⟩) (fun _ => ?_)
  exact meets_cmd trivial

/-- Lines 15 to 56, which know of no accounts. -/
theorem partition_deals (target size : Str) :
    Deals Hashes answers (fun _ => True) (partition target size) := by
  refine meets_then (meets_ite (fun _ => trivial) (fun _ => meets_cmd trivial)) (fun _ => ?_)
  exact meets_then (meets_cmd trivial) (fun _ => meets_cmd trivial)

theorem findParts_deals (target : Str) :
    Deals Hashes answers (fun _ => True) (findParts target) :=
  meets_ite (fun _ => trivial) (fun _ =>
    meets_then (meets_capture trivial (fun _ _ _ => trivial)) (fun _ => trivial))

theorem makeFilesystems_deals (parts : Str) :
    Deals Hashes answers (fun _ => True) (makeFilesystems parts) := by
  refine meets_then (meets_cmd trivial) (fun _ => ?_)
  refine meets_then (meets_cmd trivial) (fun _ => ?_)
  refine meets_then (meets_cmd trivial) (fun _ => ?_)
  exact meets_capture trivial (fun _ _ _ => trivial)

theorem mountTarget_deals (parts : Str) :
    Deals Hashes answers (fun _ => True) (mountTarget parts) := by
  refine meets_then (meets_cmd trivial) (fun _ => ?_)
  refine meets_then (meets_cmd trivial) (fun _ => ?_)
  exact meets_then (meets_cmd trivial) (fun _ => meets_cmd trivial)

/-- Lines 58 to 69. -/
theorem copySystem_deals (root : Path) (setids : List Path) :
    Deals Hashes answers (fun _ => True) (copySystem root setids) := by
  refine meets_then (meets_cmd trivial) (fun _ => ?_)
  refine meets_then (meets_cmd trivial) (fun _ => ?_)
  refine meets_then (meets_cmd trivial) (fun _ => ?_)
  refine meets_then (meets_forEach (fun _ _ => meets_cmd trivial)) (fun _ => ?_)
  exact meets_cmd trivial

/-- Lines 123 to 143. -/
theorem installLoader_deals (root : Path) (rootuuid : Str) :
    Deals Hashes answers (fun _ => True) (installLoader root rootuuid) := by
  refine meets_then (meets_cmd trivial) (fun _ => ?_)
  refine meets_then (meets_cmd trivial) (fun _ => ?_)
  refine meets_then (meets_cmd trivial) (fun _ => ?_)
  refine meets_then (meets_cmd trivial) (fun _ => ?_)
  exact meets_then (meets_cmd trivial) (fun _ => meets_cmd trivial)

theorem installSh_deals (args : List Str) (root : Path) (setids : List Path)
    (answers : List Str) :
    Deals Hashes answers (fun _ => True) (installSh args root setids answers) := by
  refine meets_ite (fun _ => meets_then (meets_cmd trivial) (fun _ => trivial)) (fun _ => ?_)
  refine meets_then (require_deals (.isDir _) trivial _) (fun _ => ?_)
  refine meets_then (require_deals (.isFile _) trivial _) (fun _ => ?_)
  refine meets_then (require_deals (.isFile _) trivial _) (fun _ => ?_)
  refine meets_then (partition_deals _ _) (fun _ => ?_)
  refine meets_then (meets_cmd trivial) (fun _ => ?_)
  refine meets_then (findParts_deals _) (fun parts => ?_)
  refine meets_then (makeFilesystems_deals parts) (fun rootuuid => ?_)
  refine meets_then (mountTarget_deals parts) (fun _ => ?_)
  refine meets_then (copySystem_deals root setids) (fun _ => ?_)
  refine meets_bind (askAccounts_deals answers) (fun a ha => ?_)
  refine meets_then (writeAccounts_deals ha) (fun _ => ?_)
  refine meets_then (installLoader_deals root rootuuid) (fun _ => ?_)
  exact meets_then (meets_cmd trivial) (fun _ => meets_cmd trivial)

end Script

/-- **The accounts are the ones that were typed.**  Whatever fails and wherever
signals arrive: a password that is hashed is the first pair of equal lines, not
empty, behind the first line that passes for a user name, or the first such pair
behind that; and what is written to an account file, or made for a home
directory, has that name and the hashes of both passwords. -/
theorem accounts_as_typed {Hashes : Str → Hash → Prop} {O : Nat → Act → Decision}
    (hO : ∀ n pw, Hashes pw (O n (.openssl pw)).hash) (args : List Str) (root : Path)
    (setids : List Path) (answers : List Str) (w : Host) :
    ∀ e ∈ (runScript machine O (installSh args root setids answers) w).trace,
      AsTyped Hashes answers e.act := by
  have hanswer : ∀ e ∈ (runScript machine O (installSh args root setids answers) w).trace,
      Answer Hashes e.act e.resp := by
    intro e he
    obtain ⟨n, hd⟩ := runScript_trace_decision machine O _ w e he
    rw [runScript_resp _ w e he]
    refine exec_answer (fun pw ha => ?_) e.before
    rw [hd, ha]
    exact hO n pw
  have htrap : ∀ v t, machine.trap v = some t → AsTyped Hashes answers t := by
    intro v t ht
    rw [trap_cleanup ht]
    trivial
  exact runScript_meets htrap (installSh_deals args root setids answers) w hanswer

/-- The accounts of the sample run, which comes to its end. -/
theorem accounts_as_typed_image :
    (sampleRun (fun _ => false)).outcome.status = 0 ∧
      ∀ e ∈ (sampleRun (fun _ => false)).trace,
        AsTyped (fun _ h => h = Installer.Script.sampleHash) sampleAnswers e.act :=
  ⟨by decide +kernel, accounts_as_typed (fun _ _ => rfl) _ _ _ sampleAnswers sampleHost⟩

end Slinux.InstallSh.Typed
