import Slinux.Shell.Answers
import Slinux.Installer.Keyboard

/-!
# The accounts that were typed

`slinux-install` reads its confirmation, a password for root, a user name, and a
password for the user.  Each prompt has its own way of going on: a
short password is asked for again, a repetition that differs ends the script,
and a name is asked for until it is accepted.  In between, commands fail, and a
signal that the trap survives comes back into the script.  Whatever happens, the
script hashes no password but an accepted one, and the records it writes are
those of the name that was typed, with the hashes of both passwords.

## Main definitions

* `firstName`, `passTyped` — what the lines typed in amount to.
* `AsTyped` — a command that deals with accounts as they were typed.

## Main results

* `accounts_from_prompts` — every command of every run.
-/

namespace Slinux.Installer.Typed

open Slinux.Shell.Text
open Slinux.Shell.Script
open Slinux.Shell.Logic
open Slinux.Shell.Answers
open Slinux.Shell.Input
open Slinux.Disk.Name
open Slinux.Unix.Files
open Slinux.Installer.Accounts
open Slinux.Installer.System
open Slinux.Installer.Effects
open Slinux.Installer.Script
open Slinux.Installer.Secrets
open Slinux.Installer.Keyboard

/-! ## What was typed -/

/-- The first line that passes for a user name, and the lines behind it. -/
def firstName : List Str → Option (Str × List Str)
  | [] => none
  | l :: answers => if acceptsUser l then some (l, answers) else firstName answers

/-- The first line of an accepted length, and the lines behind it. -/
def firstLong : List Str → Option (Str × List Str)
  | [] => none
  | l :: answers => if longEnough l then some (l, answers) else firstLong answers

/-- The first line of an accepted length, if the next line repeats it, and the
lines behind both. -/
def passTyped (answers : List Str) : Option (Str × List Str) :=
  (firstLong answers).bind (fun x => if x.2.head? = some x.1 then some (x.1, x.2.tail) else none)

/-- The password of root, behind the confirmation. -/
def RootPassTyped (answers : List Str) (pw : Str) : Prop :=
  ∃ rest, passTyped answers.tail = some (pw, rest)

/-- The user name, behind the password of root. -/
def UserTyped (answers : List Str) (user : Str) : Prop :=
  ∃ root rest, passTyped answers.tail = some root ∧ firstName root.2 = some (user, rest)

/-- The password of the user, behind the name. -/
def UserPassTyped (answers : List Str) (pw : Str) : Prop :=
  ∃ root name rest, passTyped answers.tail = some root ∧ firstName root.2 = some name ∧
    passTyped name.2 = some (pw, rest)

/-- The accounts that were typed, where `Hashes` relates passwords and their
hashes. -/
structure AccountsTyped (Hashes : Str → Hash → Prop) (answers : List Str) (a : Accounts) :
    Prop where
  rhash : ∃ pw h, RootPassTyped answers pw ∧ Hashes pw h ∧ a.rhash = h.text
  user : UserTyped answers a.user
  uhash : ∃ pw h, UserPassTyped answers pw ∧ Hashes pw h ∧ a.uhash = h.text

/-- The text written to an account file is that of the accounts `a`. -/
structure Written (a : Accounts) (p : Path) (text : Str) : Prop where
  passwd : p = etc "passwd.new".toList →
    text = [] ∨ text = rootPasswd ∨ text = userPasswd a.user
  shadow : p = etc "shadow".toList →
    text = shadowRecord rootName a.rhash ∨ text = shadowRecord a.user a.uhash
  group : p = etc "group.new".toList → text = [] ∨ ∃ line, text = groupLine a.user line

/-- The files that the account files are written as. -/
def accountFiles : List Path :=
  [etc "passwd.new".toList, etc "shadow".toList, etc "group.new".toList]

/-- A command that deals with accounts deals with those that were typed. -/
def AsTyped (Hashes : Str → Hash → Prop) (answers : List Str) : Act → Prop
  | .cryptpw pw => RootPassTyped answers pw ∨ UserPassTyped answers pw
  | .write _ p text =>
      p ∈ accountFiles → ∃ a, AccountsTyped Hashes answers a ∧ Written a p text
  | .chown _ _ route => ∃ a, AccountsTyped Hashes answers a ∧ route = homeRoute a.user
  | _ => True

/-! ## Answers -/

/-- A prompt answers with its line, and `cryptpw` with a hash. -/
def Answer (Hashes : Str → Hash → Prop) : Act → Resp → Prop
  | .getpass _ line, r | .readLine line, r => r.status = 0 → line = some r.out
  | .cryptpw pw, r => r.status = 0 → ∃ h, Hashes pw h ∧ r.out = h.text
  | _, _ => True

theorem exec_answer {Hashes : Str → Hash → Prop} {d : Decision} {a : Act}
    (hd : ∀ pw, a = .cryptpw pw → Hashes pw d.hash) (w : World) :
    Answer Hashes a (exec d a w).1 := by
  cases a
  case getpass prompt line => exact fun h0 => exec_prompt (Or.inr ⟨prompt, rfl⟩) h0
  case readLine line => exact fun h0 => exec_prompt (Or.inl rfl) h0
  case cryptpw pw =>
    intro h0
    have hp := perform_of_status (show (Act.cryptpw pw).ordinary = true from rfl) h0
    simp only [perform, Option.some.injEq, Prod.mk.injEq] at hp
    exact ⟨d.hash, hd pw rfl, hp.1.symm⟩
  all_goals trivial

/-! ## The script -/

section Script

variable {Hashes : Str → Hash → Prop} {answers : List Str} {α : Type}

/-- `p` deals with the accounts of `answers` only, and its value satisfies `V`. -/
abbrev Deals (Hashes : Str → Hash → Prop) (answers : List Str) (V : α → Prop)
    (p : Prog Act α) : Prop :=
  Meets (Answer Hashes) (AsTyped Hashes answers) V p

/-- A prompt comes back with its line. -/
theorem getpass_deals (prompt : Str) (line : Option Str) :
    Deals Hashes answers (fun p => line = some p) (captureOrExit 1 (.getpass prompt line)) :=
  meets_captureOrExit 1 trivial (fun _ hr h0 => hr h0)

theorem readLine_deals (line : Option Str) :
    Deals Hashes answers (fun p => line = some p) (captureOrExit 1 (.readLine line)) :=
  meets_captureOrExit 1 trivial (fun _ hr h0 => hr h0)

/-- Lines 78 and 79. -/
theorem repeatPass_deals (pw : Str) (lines : List Str) :
    Deals Hashes answers (fun r => lines.head? = some pw ∧ r = (pw, lines.tail))
      (repeatPass pw lines) := by
  refine meets_bind (getpass_deals _ lines.head?) (fun pw2 h2 => ?_)
  refine meets_ite (fun hsame => ?_) (fun _ => meets_then (meets_cmd trivial) (fun _ => trivial))
  subst hsame
  exact ⟨h2, rfl⟩

/-- `readpass` comes back with the first line of an accepted length, repeated. -/
theorem readpass_deals (who : Str) (lines : List Str) :
    Deals Hashes answers (fun r => passTyped lines = some r) (readpass who lines) := by
  induction lines with
  | nil => exact meets_bind (getpass_deals _ none) (fun _ _ => trivial)
  | cons l lines ih =>
      refine meets_bind (getpass_deals _ (some l)) (fun pw hpw => ?_)
      obtain rfl := Option.some.inj hpw
      refine meets_ite (fun hlong => ?_) (fun hshort => ?_)
      · have hfirst : firstLong (l :: lines) = some (l, lines) := if_pos hlong
        rw [← bind_ret (repeatPass l lines)]
        refine meets_bind (repeatPass_deals l lines) (fun r hr => ?_)
        obtain ⟨hhead, rfl⟩ := hr
        show (firstLong (l :: lines)).bind _ = some (l, lines.tail)
        rw [hfirst, Option.bind_some, if_pos hhead]
      · have hnext : passTyped (l :: lines) = passTyped lines :=
          congrArg (fun o => Option.bind o _) (if_neg hshort)
        simp only [hnext]
        exact meets_then (meets_cmd trivial) (fun _ => ih)

/-- The loop of lines 151 to 158 comes back with the first name. -/
theorem askUser_deals (lines : List Str) :
    Deals Hashes answers (fun r => firstName lines = some r) (askUser lines) := by
  induction lines with
  | nil =>
      refine meets_then (meets_cmd trivial) (fun _ => ?_)
      exact meets_bind (readLine_deals none) (fun _ _ => trivial)
  | cons l lines ih =>
      refine meets_then (meets_cmd trivial) (fun _ => ?_)
      refine meets_bind (readLine_deals (some l)) (fun user huser => ?_)
      obtain rfl := Option.some.inj huser
      refine meets_ite (fun haccept => ?_) (fun hreject => ?_)
      · exact if_pos haccept
      · have hnext : firstName (l :: lines) = firstName lines := if_neg hreject
        simp only [hnext]
        exact meets_then (meets_cmd trivial) (fun _ => ih)

/-- `cryptpw` is given a password that was typed. -/
theorem cryptpw_deals {pw : Str} (hpw : RootPassTyped answers pw ∨ UserPassTyped answers pw) :
    Deals Hashes answers (fun out => ∃ h, Hashes pw h ∧ out = h.text)
      (capture (.cryptpw pw)) :=
  meets_capture hpw (fun _ hr h0 => hr h0)

/-- Lines 148 to 160. -/
theorem askAccounts_deals (answers : List Str) :
    Deals Hashes answers (AccountsTyped Hashes answers) (askAccounts answers.tail) := by
  refine meets_then (meets_cmd trivial) (fun _ => ?_)
  refine meets_bind (readpass_deals rootName answers.tail) (fun root hroot => ?_)
  have hrootpw : RootPassTyped answers root.1 := ⟨root.2, hroot⟩
  refine meets_bind (cryptpw_deals (Or.inl hrootpw)) (fun rhash hrhash => ?_)
  refine meets_bind (askUser_deals root.2) (fun name hname => ?_)
  refine meets_bind (readpass_deals name.1 name.2) (fun user huser => ?_)
  have huserpw : UserPassTyped answers user.1 := ⟨root, name, user.2, hroot, hname, huser⟩
  refine meets_bind (cryptpw_deals (Or.inr huserpw)) (fun uhash huhash => ?_)
  obtain ⟨h, hh, htext⟩ := hrhash
  obtain ⟨h', hh', htext'⟩ := huhash
  exact ⟨⟨root.1, h, hrootpw, hh, htext⟩, ⟨root, name.2, hroot, hname⟩,
    ⟨user.1, h', huserpw, hh', htext'⟩⟩

/-! ### The account files -/

theorem etc_inj {s t : Str} (h : etc s = etc t) : s = t := by
  have htail := List.append_cancel_left h
  exact (List.cons.inj (List.cons.inj htail).2).1

/-- A record for the file it belongs to. -/
theorem write_deals {a : Accounts} (ha : AccountsTyped Hashes answers a) {append : Bool}
    {p : Path} {text : Str} (h : Written a p text) :
    Deals Hashes answers (fun _ => True) (cmd (.write append p text)) :=
  meets_cmd (fun _ => ⟨a, ha, h⟩)

theorem written_passwd {a : Accounts} {text : Str}
    (h : text = [] ∨ text = rootPasswd ∨ text = userPasswd a.user) :
    Written a (etc "passwd.new".toList) text :=
  ⟨fun _ => h, fun hp => absurd (etc_inj hp) (by decide),
    fun hp => absurd (etc_inj hp) (by decide)⟩

theorem written_shadow {a : Accounts} {text : Str}
    (h : text = shadowRecord rootName a.rhash ∨ text = shadowRecord a.user a.uhash) :
    Written a (etc "shadow".toList) text :=
  ⟨fun hp => absurd (etc_inj hp) (by decide), fun _ => h,
    fun hp => absurd (etc_inj hp) (by decide)⟩

theorem written_group {a : Accounts} {text : Str}
    (h : text = [] ∨ ∃ line, text = groupLine a.user line) :
    Written a (etc "group.new".toList) text :=
  ⟨fun hp => absurd (etc_inj hp) (by decide), fun hp => absurd (etc_inj hp) (by decide),
    fun _ => h⟩

/-- Lines 165 to 170. -/
theorem writePasswd_deals {a : Accounts} (ha : AccountsTyped Hashes answers a) :
    Deals Hashes answers (fun _ => True) (writePasswd a.user) := by
  refine meets_then (write_deals ha (written_passwd (Or.inl rfl))) (fun _ => ?_)
  refine meets_then (write_deals ha (written_passwd (Or.inr (Or.inl rfl)))) (fun _ => ?_)
  refine meets_then (write_deals ha (written_passwd (Or.inr (Or.inr rfl)))) (fun _ => ?_)
  exact meets_cmd trivial

/-- Lines 179 to 193. -/
theorem writeGroup_deals {a : Accounts} (ha : AccountsTyped Hashes answers a) :
    Deals Hashes answers (fun _ => True) (writeGroup a.user) := by
  refine meets_then (write_deals ha (written_group (Or.inl rfl))) (fun _ => ?_)
  refine meets_then (meets_capture trivial (fun _ _ _ => trivial)) (fun group => ?_)
  refine meets_then (meets_forEach (fun line _ => write_deals ha
    (written_group (Or.inr ⟨line, rfl⟩)))) (fun _ => ?_)
  exact meets_then (meets_cmd trivial) (fun _ => meets_cmd trivial)

/-- Lines 195 to 202. -/
theorem finish_deals {a : Accounts} (ha : AccountsTyped Hashes answers a) (disk pu : Str) :
    Deals Hashes answers (fun _ => True) (finish disk pu a.user) := by
  refine meets_then (meets_cmd trivial) (fun _ => ?_)
  refine meets_then (meets_cmd ⟨a, ha, rfl⟩) (fun _ => ?_)
  refine meets_then (meets_cmd trivial) (fun _ => ?_)
  refine meets_then (meets_cmd trivial) (fun _ => ?_)
  refine meets_then (meets_cmd trivial) (fun _ => ?_)
  exact meets_then (meets_cmd trivial) (fun _ => meets_cmd trivial)

theorem completeAccounts_deals {a : Accounts} (ha : AccountsTyped Hashes answers a)
    (disk pu : Str) : Deals Hashes answers (fun _ => True) (completeAccounts disk pu a) := by
  have huser : Deals Hashes answers (fun _ => True) (writeUserShadow a) :=
    meets_then (write_deals ha (written_shadow (Or.inr rfl))) (fun _ => meets_cmd trivial)
  refine meets_then (write_deals ha (written_shadow (Or.inl rfl))) (fun _ => ?_)
  refine meets_then huser (fun _ => ?_)
  exact meets_then (writeGroup_deals ha) (fun _ => finish_deals ha disk pu)

/-! ### The parts that know of no accounts -/

/-- Commands that deal with no accounts. -/
def Idle : Act → Prop
  | .cryptpw _ | .write _ _ _ | .chown _ _ _ => False
  | _ => True

theorem Idle.asTyped {a : Act} (h : Idle a) : AsTyped Hashes answers a := by
  cases a <;> first | exact h.elim | trivial

/-- Commands that do not write by themselves are idle without `cryptpw`. -/
theorem idle_copies {a : Act} (hc : Copies a) (hp : Public a) : Idle a := by
  cases a <;> first | exact hc.elim | exact hp.elim | trivial

theorem idle_prepares {disk : Str} {a : Act} (hc : Prepares disk a) (hp : Public a) : Idle a := by
  rcases hc with ha | ⟨s, rfl⟩ | rfl | rfl
  · exact idle_copies ha.copies hp
  all_goals trivial

theorem idle_searches {disk : Str} {a : Act} (hc : Searches disk a) (hp : Public a) : Idle a := by
  rcases hc with ha | rfl | ⟨fs, dev, _, rfl⟩ | rfl | rfl
  · exact idle_copies ha.copies hp
  all_goals trivial

/-- A part of a kind of commands, without a password in them. -/
theorem open_deals {K : Act → Prop} {p : Prog Act α} (hkind : Acts Tested K p) (hopen : Open p)
    (hidle : ∀ {a : Act}, K a → Public a → Idle a) :
    Deals Hashes answers (fun _ => True) p :=
  meets_both hkind hopen (fun _ hk hp => (hidle hk hp).asTyped)

theorem require_deals (p : Path) (message : Str) :
    Deals Hashes answers (fun _ => True) (require (.isFile p) message 1) := by
  refine meets_then (meets_tested trivial) (fun _ => ?_)
  exact meets_ite (fun _ => trivial) (fun _ => meets_then (meets_cmd trivial) (fun _ => trivial))

/-- The confirmation takes one answer. -/
theorem confirm_deals (disk : Str) (lines : List Str) :
    Deals Hashes answers (fun as => as = lines.tail) (confirm disk lines) := by
  refine meets_then (meets_cmd trivial) (fun _ => ?_)
  refine meets_then (meets_cmd trivial) (fun _ => ?_)
  refine meets_then (meets_capture trivial (fun _ _ _ => trivial)) (fun ans => ?_)
  exact meets_ite (fun _ => rfl) (fun _ => meets_then (meets_cmd trivial) (fun _ => trivial))

/-- Lines 101 to 106. -/
theorem mountTarget_deals (disk : Str) :
    Deals Hashes answers (fun _ => True) (mountTarget disk) := by
  refine meets_then (meets_cmd trivial) (fun _ => meets_then (meets_cmd trivial) (fun _ => ?_))
  refine meets_then (meets_cmd trivial) (fun _ => meets_then (meets_cmd trivial) (fun _ => ?_))
  exact meets_cmd trivial

/-- `limine.conf` is no account file. -/
theorem conf_deals (append : Bool) (text : Str) :
    Deals Hashes answers (fun _ => True) (cmd (.write append limineConfPath text)) := by
  have hconf : limineConfPath ∉ accountFiles := by decide
  exact meets_cmd (fun h => absurd h hconf)

theorem writeNormal_deals (pu : Str) :
    Deals Hashes answers (fun _ => True) (writeNormal pu) := by
  refine meets_then (meets_cmd trivial) (fun _ => ?_)
  exact meets_then (conf_deals _ _) (fun _ => meets_then (conf_deals _ _) (fun _ =>
    conf_deals _ _))

theorem writeRescueIf_deals (initrd : Option Path) :
    Deals Hashes answers (fun _ => True) (writeRescueIf initrd) := by
  cases initrd with
  | none => trivial
  | some p =>
      refine meets_then (meets_cmd trivial) (fun _ => ?_)
      exact meets_then (conf_deals _ _) (fun _ => meets_then (conf_deals _ _) (fun _ =>
        conf_deals _ _))

/-- Lines 82 to 202. -/
theorem installOn_deals (disk espsz : Str) (f : Found) :
    Deals Hashes answers (fun _ => True) (installOn disk espsz f answers.tail) := by
  refine meets_then (open_deals (makeFilesystems_prepares disk espsz)
    (makeFilesystems_open disk espsz) idle_prepares) (fun _ => ?_)
  refine meets_then (mountTarget_deals disk) (fun _ => ?_)
  refine meets_then (open_deals copySystem_copies copySystem_open idle_copies) (fun _ => ?_)
  refine meets_then (open_deals (copyBootFiles_copies disk f) (copyBootFiles_open disk f)
    idle_copies) (fun pu => ?_)
  refine meets_then (writeNormal_deals pu) (fun _ => ?_)
  refine meets_then (writeRescueIf_deals f.initrd) (fun _ => ?_)
  refine meets_then (meets_cmd trivial) (fun _ => ?_)
  refine meets_bind (askAccounts_deals answers) (fun a ha => ?_)
  exact meets_then (writePasswd_deals ha) (fun _ => completeAccounts_deals ha disk pu)

theorem slinuxInstall_deals (args : List Str) (sysdevs : List SysDev) (answers : List Str) :
    Deals Hashes answers (fun _ => True) (slinuxInstall args sysdevs answers) := by
  cases args with
  | nil => exact meets_then (meets_cmd trivial) (fun _ => trivial)
  | cons disk rest =>
      refine meets_then (require_deals _ _) (fun _ => ?_)
      refine meets_then (require_deals _ _) (fun _ => ?_)
      refine meets_bind (confirm_deals disk answers) (fun as has => ?_)
      subst has
      refine meets_then (open_deals (waitDisk_asks disk 30) (waitDisk_open disk 30)
        (fun h => idle_copies h.copies)) (fun _ => ?_)
      refine meets_then (open_deals (searchBootMedium_searches disk sysdevs)
        (searchBootMedium_open disk sysdevs) idle_searches) (fun f => ?_)
      exact installOn_deals disk _ f

end Script

/-- The same of every run: whatever the prompts read. -/
theorem slinuxInstall_asTyped {Hashes : Str → Hash → Prop} {O : Nat → Act → Decision}
    (hO : ∀ n pw, Hashes pw (O n (.cryptpw pw)).hash) (args : List Str)
    (sysdevs : List SysDev) (answers : List Str) (w : World) :
    ∀ e ∈ (runScript machine O (slinuxInstall args sysdevs answers) w).trace,
      AsTyped Hashes answers e.act := by
  have hanswer : ∀ e ∈ (runScript machine O (slinuxInstall args sysdevs answers) w).trace,
      Answer Hashes e.act e.resp := by
    intro e he
    obtain ⟨n, hd⟩ := runScript_trace_decision machine O _ w e he
    rw [runScript_resp _ w e he]
    refine exec_answer (fun pw ha => ?_) e.before
    rw [hd, ha]
    exact hO n pw
  have htrap : ∀ v t, machine.trap v = some t → AsTyped Hashes answers t := by
    intro v t ht
    obtain ⟨ps, _, rfl⟩ := Option.map_eq_some_iff.mp ht
    trivial
  exact runScript_meets htrap (slinuxInstall_deals args sysdevs answers) w hanswer

/-- **The accounts are the ones that were typed.**  Where the lines typed at a
terminal fit into the buffer of `getpass`, every prompt reads what comes next of
them, whatever fails and wherever signals arrive.  A password that is hashed was
typed twice, as the first line of an accepted length, behind the confirmation or
behind the name; and what is written to an account file has the name that was
typed, and the hashes of the password of root in the record of root, and of the
user's in that of the user. -/
theorem accounts_from_prompts {Hashes : Str → Hash → Prop} {O : Nat → Act → Decision}
    (hO : ∀ n pw, Hashes pw (O n (.cryptpw pw)).hash) (args : List Str)
    (sysdevs : List SysDev) {lines : List Str} (hfits : ∀ l ∈ lines, Fits l) (w : World) :
    Fed Takes ⟨false, lines⟩
        ((runScript machine O (slinuxInstall args sysdevs (prompted lines)) w).trace.map
          Event.act) ∧
      ∀ e ∈ (runScript machine O (slinuxInstall args sysdevs (prompted lines)) w).trace,
        AsTyped Hashes (prompted lines) e.act :=
  ⟨slinuxInstall_fed O args sysdevs hfits w, slinuxInstall_asTyped hO args sysdevs _ w⟩

/-- The sample run, with a confirmation that goes over two lines. -/
theorem accounts_from_prompts_sda :
    (sampleRun (fun _ _ => succeeds) (some sampleMedium)
        (prompted ("y\\".toList :: [] :: sampleAnswers.tail))).outcome.status = 0 ∧
      Fed Takes ⟨false, "y\\".toList :: [] :: sampleAnswers.tail⟩
        ((sampleRun (fun _ _ => succeeds) (some sampleMedium)
          (prompted ("y\\".toList :: [] :: sampleAnswers.tail))).trace.map Event.act) ∧
      ∀ e ∈ (sampleRun (fun _ _ => succeeds) (some sampleMedium)
          (prompted ("y\\".toList :: [] :: sampleAnswers.tail))).trace,
        AsTyped (fun _ h => h = sampleHash)
          (prompted ("y\\".toList :: [] :: sampleAnswers.tail)) e.act :=
  ⟨by decide +kernel, accounts_from_prompts (fun _ _ => rfl) _ _ (by decide) (sampleWorld _)⟩

end Slinux.Installer.Typed
