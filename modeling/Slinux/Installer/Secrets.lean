import Slinux.Installer.Effects
import Slinux.Installer.Script
import Slinux.Shell.Mirror

/-!
# What becomes of the passwords

`slinux-install` hands a password to two programs: `getpass`, which reads it,
and `cryptpw`, whose output is all that is stored.  The script itself tests the
length of a password and compares it with its repetition.  So if every password
line is replaced by another one of the same kind, equal lines by equal lines
and different ones by different ones, then with the same hashes the run is the
same: the same commands, the same states, the same text on the terminal.

## Main definitions

* `disguise` — the replacement in the commands and their answers.
* `hideAnswers` — the replacement in the lines typed in, which has to find out
  the password lines among them the way the prompts do.

## Main results

* `passwords_private` — the run on the replaced lines is the run in disguise.
-/

namespace Slinux.Installer.Secrets

open Slinux.Shell.Text
open Slinux.Shell.Script
open Slinux.Shell.Logic
open Slinux.Shell.Mirror
open Slinux.Disk.Name
open Slinux.Unix.Files
open Slinux.Installer.Accounts
open Slinux.Installer.System
open Slinux.Installer.Effects
open Slinux.Installer.Script

/-! ## Replacing the passwords -/

/-- A command with the passwords in it replaced. -/
def hideAct (π : Str → Str) : Act → Act
  | .getpass prompt line => .getpass prompt (line.map π)
  | .cryptpw pw => .cryptpw (π pw)
  | a => a

/-- An answer with the passwords in it replaced: only `getpass` answers with
one, if it does not fail. -/
def hideResp (π : Str → Str) : Act → Resp → Resp
  | .getpass _ _, r => if r.status = 0 then ⟨r.status, π r.out⟩ else r
  | _, r => r

theorem hideResp_status (π : Str → Str) (a : Act) (r : Resp) :
    (hideResp π a r).status = r.status := by
  cases a with
  | getpass prompt line =>
      show (if r.status = 0 then (⟨r.status, π r.out⟩ : Resp) else r).status = r.status
      split <;> rfl
  | _ => rfl

def disguise (π : Str → Str) : Disguise Act Act := ⟨hideAct π, hideResp π, hideResp_status π⟩

/-- The second line of a password prompt, and what `k` makes of the rest. -/
def hideRepeat (π : Str → Str) (k : List Str → List Str) : List Str → List Str
  | [] => []
  | l :: answers => π l :: k answers

/-- The lines that `readpass` reads. -/
def hidePass (π : Str → Str) (k : List Str → List Str) : List Str → List Str
  | [] => []
  | l :: answers =>
      if longEnough l then π l :: hideRepeat π k answers else π l :: hidePass π k answers

/-- The user name loop reads no password. -/
def skipUser (k : List Str → List Str) : List Str → List Str
  | [] => []
  | l :: answers => if acceptsUser l then l :: k answers else l :: skipUser k answers

/-- The lines behind the confirmation. -/
def hideAccounts (π : Str → Str) : List Str → List Str :=
  hidePass π (skipUser (hidePass π id))

/-- The lines typed in, with the password lines replaced. -/
def hideAnswers (π : Str → Str) : List Str → List Str
  | [] => []
  | ans :: answers => ans :: hideAccounts π answers

/-- What prompts answer with: the line they were given. -/
def Echoes : Act → Resp → Prop
  | .getpass _ line, r => r.status = 0 → line = some r.out
  | .readLine line, r => r.status = 0 → line = some r.out
  | _, _ => True

/-! ## The machine -/

theorem exec_echoes (d : Decision) (a : Act) (w : World) : Echoes a (exec d a w).1 := by
  cases a with
  | getpass prompt line => exact fun h0 => exec_prompt (Or.inr ⟨prompt, rfl⟩) h0
  | readLine line => exact fun h0 => exec_prompt (Or.inl rfl) h0
  | _ => trivial

theorem exec_hidden (π : Str → Str) (d : Decision) (a : Act) (w : World) :
    exec d (hideAct π a) w = (hideResp π a (exec d a w).1, (exec d a w).2) := by
  cases a with
  | getpass prompt line =>
      cases hf : d.fails with
      | true => simp [hideAct, hideResp, exec, hf, residue, failed, Act.certain]
      | false =>
          cases line with
          | none => simp [hideAct, hideResp, exec, hf, perform, failed]
          | some l => simp [hideAct, hideResp, exec, hf, perform]
  | cryptpw pw =>
      cases hf : d.fails <;> simp [hideAct, hideResp, exec, hf, perform, residue, Act.certain]
  | _ => rfl

theorem machine_reflects (π : Str → Str) :
    Reflects (disguise π) Echoes machine machine where
  exec := exec_hidden π
  answers := exec_echoes
  signal := fun _ => rfl
  trap := fun w => by
    show w.trap.map .umount = (w.trap.map .umount).map (hideAct π)
    cases w.trap <;> rfl
  interrupt := fun _ => rfl
  unwind := fun _ => rfl

/-! ## The parts that handle no password -/

/-- Commands that read nothing, and have no password in them. -/
def Public : Act → Prop
  | .getpass _ _ | .readLine _ | .cryptpw _ => False
  | _ => True

theorem Public.hidden {a : Act} (π : Str → Str) (h : Public a) :
    (disguise π).act a = a ∧ ∀ r, (disguise π).resp a r = r := by
  cases a with
  | getpass | readLine | cryptpw => exact h.elim
  | _ => exact ⟨rfl, fun _ => rfl⟩

/-- Every command of the script is public; nothing is said of which are
tested. -/
abbrev Open {α : Type} (p : Prog Act α) : Prop := Acts (fun _ => True) Public p

theorem open_of_acts {α : Type} {T : Act → Prop} {p : Prog Act α} (h : Acts T Public p) :
    Open p := by
  induction p with
  | ret a => trivial
  | exit s => exact h
  | step a k ih => exact ⟨h.1, Or.inl trivial, fun r => ih r (h.2.2 r)⟩

theorem Open.mirrors {α : Type} {π : Str → Str} {p : Prog Act α} (h : Open p) :
    Mirrors (disguise π) Echoes Eq p p :=
  mirrors_refl (fun _ ha => ha.hidden π) h

theorem require_open {test : Act} (ht : Public test) (message : Str) {s : Nat} (hs : s ≠ 0) :
    Open (require test message s) :=
  acts_bind (acts_tested ht trivial) (fun _ =>
    acts_ite trivial (acts_bind (acts_cmd trivial) (fun _ => hs)))

theorem waitDisk_open (disk : Str) (n : Nat) : Open (waitDisk disk n) := by
  induction n with
  | zero =>
      exact acts_bind (acts_tested trivial trivial) (fun _ =>
        acts_ite trivial (acts_bind (acts_cmd trivial) (fun _ => Nat.one_ne_zero)))
  | succ n ih =>
      exact acts_bind (acts_tested trivial trivial) (fun _ =>
        acts_ite trivial (acts_bind (acts_cmd trivial) (fun _ => ih)))

theorem lookInitrd_open (dev : Str) (fs : Fs) (f : Found) : Open (lookInitrd dev fs f) := by
  unfold lookInitrd
  split
  · trivial
  · exact acts_bind (acts_tested trivial trivial) (fun _ =>
      acts_ite (acts_bind (acts_cmd trivial) (fun _ => trivial)) trivial)

theorem lookKernel_open (f : Found) : Open (lookKernel f) :=
  acts_bind (acts_tested trivial trivial) (fun _ => acts_ite trivial trivial)

theorem tryFs_open (dev : Str) (fss : List Fs) : ∀ f, Open (tryFs dev fss f) := by
  induction fss with
  | nil => intro f; trivial
  | cons fs fss ih =>
      intro f
      refine acts_bind (acts_tested trivial trivial) (fun _ => acts_ite ?_ (ih f))
      refine acts_bind (lookInitrd_open dev fs f) (fun g => ?_)
      refine acts_bind (lookKernel_open g) (fun g' => ?_)
      exact acts_ite trivial (acts_bind (acts_cmd trivial) (fun _ => ih g'))

theorem searchMedia_open (disk : Str) (ss : List SysDev) : ∀ f, Open (searchMedia disk ss f) := by
  induction ss with
  | nil => intro f; trivial
  | cons s ss ih =>
      intro f
      unfold searchMedia
      exact acts_ite (acts_bind (tryFs_open _ _ f) (fun r => acts_ite trivial (ih r.1))) (ih f)

theorem searchBootMedium_open (disk : Str) (ss : List SysDev) :
    Open (searchBootMedium disk ss) := by
  refine acts_bind (acts_cmd trivial) (fun _ => ?_)
  refine acts_bind (searchMedia_open disk ss _) (fun f => ?_)
  refine acts_bind ?_ (fun _ => acts_bind (acts_cmd trivial) (fun _ => trivial))
  unfold noteMedium
  split
  · trivial
  · exact acts_cmd trivial

theorem waitParts_open (disk : Str) (n : Nat) : Open (waitParts disk n) := by
  have hboth : Open (waitParts.bothParts disk) :=
    acts_bind (acts_tested trivial trivial) (fun _ =>
      acts_ite (acts_tested trivial trivial) trivial)
  induction n with
  | zero =>
      exact acts_bind hboth (fun _ =>
        acts_ite trivial (acts_bind (acts_cmd trivial) (fun _ => Nat.one_ne_zero)))
  | succ n ih =>
      exact acts_bind hboth (fun _ =>
        acts_ite trivial (acts_bind (acts_cmd trivial) (fun _ => ih)))

theorem makeFilesystems_open (disk espsz : Str) : Open (makeFilesystems disk espsz) := by
  refine acts_bind (acts_cmd trivial) (fun _ => acts_bind (acts_cmd trivial) (fun _ => ?_))
  refine acts_bind (acts_cmd trivial) (fun _ => acts_bind (waitParts_open disk 15) (fun _ => ?_))
  exact acts_bind (acts_cmd trivial) (fun _ => acts_cmd trivial)

theorem mountTarget_open (disk : Str) : Open (mountTarget disk) := by
  refine acts_bind (acts_cmd trivial) (fun _ => acts_bind (acts_cmd trivial) (fun _ => ?_))
  refine acts_bind (acts_cmd trivial) (fun _ => acts_bind (acts_cmd trivial) (fun _ => ?_))
  exact acts_cmd trivial

theorem presentDirs_open (ds : List Str) : Open (presentDirs ds) := by
  induction ds with
  | nil => trivial
  | cons d ds ih =>
      exact acts_bind (acts_tested trivial trivial) (fun _ => acts_bind ih (fun _ => trivial))

theorem copySystem_open : Open copySystem := by
  refine acts_bind (acts_cmd trivial) (fun _ => acts_bind (presentDirs_open _) (fun dirs => ?_))
  refine acts_bind (acts_forEach (fun _ _ => acts_cmd trivial)) (fun _ => ?_)
  refine acts_bind (acts_cmd trivial) (fun _ => acts_bind (acts_cmd trivial) (fun _ => ?_))
  refine acts_bind (acts_cmd trivial) (fun _ => acts_bind (acts_cmd trivial) (fun _ => ?_))
  exact acts_cmd trivial

theorem copyBootFiles_open (disk : Str) (f : Found) : Open (copyBootFiles disk f) := by
  refine acts_bind (acts_cmd trivial) (fun _ => acts_bind (acts_cmd trivial) (fun _ => ?_))
  refine acts_bind (acts_cmd trivial) (fun _ => acts_bind (acts_cmd trivial) (fun _ => ?_))
  refine acts_bind (acts_capture trivial) (fun pu => ?_)
  by_cases h : pu = []
  · rw [if_pos h]
    exact acts_bind (acts_cmd trivial) (fun _ => Nat.one_ne_zero)
  · rw [if_neg h]
    trivial

theorem writeNormal_open (pu : Str) : Open (writeNormal pu) := by
  refine acts_bind (acts_cmd trivial) (fun _ => acts_bind (acts_cmd trivial) (fun _ => ?_))
  exact acts_bind (acts_cmd trivial) (fun _ => acts_cmd trivial)

theorem writeRescueIf_open (initrd : Option Path) : Open (writeRescueIf initrd) := by
  cases initrd with
  | none => trivial
  | some p =>
      refine acts_bind (acts_cmd trivial) (fun _ => acts_bind (acts_cmd trivial) (fun _ => ?_))
      exact acts_bind (acts_cmd trivial) (fun _ => acts_cmd trivial)

theorem writePasswd_open (user : Str) : Open (writePasswd user) := by
  refine acts_bind (acts_cmd trivial) (fun _ => acts_bind (acts_cmd trivial) (fun _ => ?_))
  exact acts_bind (acts_cmd trivial) (fun _ => acts_cmd trivial)

theorem Concludes.public {a : Act} (h : Concludes a) : Public a := by
  cases a <;> first | exact h.elim | trivial

theorem completeAccounts_open (disk pu : Str) (a : Accounts) :
    Open (completeAccounts disk pu a) := by
  have hrest := (afterShadow_concludes disk pu a).mono (fun _ => Concludes.public)
  exact acts_bind (acts_cmd trivial) (fun _ => open_of_acts hrest)

/-! ## The prompts -/

section Prompts

variable {π : Str → Str} (hπ : Function.Injective π)
variable (hlong : ∀ s, longEnough (π s) = longEnough s)

/-- What one run computes at a password prompt, and what the other. -/
def SamePass (π : Str → Str) (k : List Str → List Str) (x y : Str × List Str) : Prop :=
  y.1 = π x.1 ∧ y.2 = k x.2

/-- A `getpass` that does not fail prints the line it was given. -/
theorem getpass_mirrors (prompt : Str) (line : Option Str) :
    Mirrors (disguise π) Echoes (fun x y => y = π x ∧ line = some x)
      (captureOrExit 1 (.getpass prompt line))
      (captureOrExit 1 (.getpass prompt (line.map π))) :=
  mirrors_captureOrExit (a := Act.getpass prompt line) 1 (fun r hr h0 =>
    ⟨by show (hideResp π (Act.getpass prompt line) r).out = π r.out
        simp only [hideResp, h0, if_true], hr h0⟩)

include hπ in
theorem repeatPass_mirrors (pw : Str) (k : List Str → List Str) (hk : k [] = [])
    (answers : List Str) :
    Mirrors (disguise π) Echoes (SamePass π k) (repeatPass pw answers)
      (repeatPass (π pw) (hideRepeat π k answers)) := by
  have hhead : (hideRepeat π k answers).head? = answers.head?.map π := by cases answers <;> rfl
  have htail : (hideRepeat π k answers).tail = k answers.tail := by
    cases answers with
    | nil => exact hk.symm
    | cons l ls => rfl
  unfold repeatPass
  rw [hhead, htail]
  refine mirrors_bind (getpass_mirrors _ _) (fun pw2 pw2' h2 => ?_)
  obtain ⟨rfl, _⟩ := h2
  by_cases h : pw = pw2
  · subst h
    rw [if_pos rfl, if_pos rfl]
    exact ⟨rfl, rfl⟩
  · have hne : π pw ≠ π pw2 := fun hc => h (hπ hc)
    rw [if_neg h, if_neg hne]
    exact mirrors_bind (mirrors_cmd _) (fun _ _ _ => rfl)

include hπ hlong

/-- The prompt loop: by induction on the lines, which both runs go through
together. -/
theorem readpass_mirrors (who : Str) (k : List Str → List Str) (hk : k [] = [])
    (answers : List Str) :
    Mirrors (disguise π) Echoes (SamePass π k) (readpass who answers)
      (readpass who (hidePass π k answers)) := by
  induction answers with
  | nil => exact mirrors_bind (getpass_mirrors _ none) (fun _ _ _ => rfl)
  | cons l answers ih =>
      by_cases hl : longEnough l = true
      · rw [show hidePass π k (l :: answers) = π l :: hideRepeat π k answers from if_pos hl]
        refine mirrors_bind (getpass_mirrors _ (some l)) (fun pw pw' h => ?_)
        obtain ⟨rfl, hpw⟩ := h
        obtain rfl := Option.some.inj hpw
        rw [if_pos hl, if_pos ((hlong l).trans hl)]
        exact repeatPass_mirrors hπ l k hk answers
      · rw [show hidePass π k (l :: answers) = π l :: hidePass π k answers from if_neg hl]
        refine mirrors_bind (getpass_mirrors _ (some l)) (fun pw pw' h => ?_)
        obtain ⟨rfl, hpw⟩ := h
        obtain rfl := Option.some.inj hpw
        rw [if_neg hl, if_neg (by rw [hlong]; exact hl)]
        exact mirrors_bind (mirrors_cmd _) (fun _ _ _ => ih)

omit hπ hlong in
theorem askUser_mirrors (k : List Str → List Str) (answers : List Str) :
    Mirrors (disguise π) Echoes (fun x y => y.1 = x.1 ∧ y.2 = k x.2) (askUser answers)
      (askUser (skipUser k answers)) := by
  have hread : ∀ line, Mirrors (disguise π) Echoes (fun x y => y = x ∧ line = some x)
      (captureOrExit 1 (.readLine line)) (captureOrExit 1 (.readLine line)) := fun line =>
    mirrors_captureOrExit (a := Act.readLine line) 1 (fun r hr h0 => ⟨rfl, hr h0⟩)
  induction answers with
  | nil => exact mirrors_bind (mirrors_cmd _) (fun _ _ _ =>
      mirrors_bind (hread none) (fun _ _ _ => rfl))
  | cons l answers ih =>
      by_cases hl : acceptsUser l = true
      · rw [show skipUser k (l :: answers) = l :: k answers from if_pos hl]
        refine mirrors_bind (mirrors_cmd _) (fun _ _ _ => ?_)
        refine mirrors_bind (hread (some l)) (fun user user' h => ?_)
        obtain ⟨rfl, huser⟩ := h
        obtain rfl := Option.some.inj huser
        rw [if_pos hl, if_pos hl]
        exact ⟨rfl, rfl⟩
      · rw [show skipUser k (l :: answers) = l :: skipUser k answers from if_neg hl]
        refine mirrors_bind (mirrors_cmd _) (fun _ _ _ => ?_)
        refine mirrors_bind (hread (some l)) (fun user user' h => ?_)
        obtain ⟨rfl, huser⟩ := h
        obtain rfl := Option.some.inj huser
        rw [if_neg hl, if_neg hl]
        exact mirrors_bind (mirrors_cmd _) (fun _ _ _ => ih)

/-- The hashes and the user name are the same. -/
theorem askAccounts_mirrors (answers : List Str) :
    Mirrors (disguise π) Echoes Eq (askAccounts answers)
      (askAccounts (hideAccounts π answers)) := by
  have hhash : ∀ pw, Mirrors (disguise π) Echoes Eq (capture (.cryptpw pw))
      (capture (.cryptpw (π pw))) := fun pw =>
    mirrors_capture (a := Act.cryptpw pw) (fun _ _ _ => rfl)
  refine mirrors_bind (mirrors_cmd _) (fun _ _ _ => ?_)
  refine mirrors_bind (readpass_mirrors hπ hlong rootName (skipUser (hidePass π id)) rfl answers)
    (fun root root' hroot => ?_)
  obtain ⟨rpw, rest⟩ := root
  obtain ⟨rpw', rest'⟩ := root'
  obtain ⟨hpw, hrest⟩ := hroot
  obtain rfl : rpw' = π rpw := hpw
  obtain rfl : rest' = skipUser (hidePass π id) rest := hrest
  refine mirrors_bind (hhash rpw) (fun rhash rhash' hrhash => ?_)
  subst hrhash
  refine mirrors_bind (askUser_mirrors (hidePass π id) rest) (fun u u' hu => ?_)
  obtain ⟨user, rest₂⟩ := u
  obtain ⟨user', rest₂'⟩ := u'
  obtain ⟨huser, hrest⟩ := hu
  obtain rfl : user' = user := huser
  obtain rfl : rest₂' = hidePass π id rest₂ := hrest
  refine mirrors_bind (readpass_mirrors hπ hlong _ id rfl rest₂) (fun p p' hp => ?_)
  obtain ⟨upw, rest₃⟩ := p
  obtain ⟨upw', rest₃'⟩ := p'
  obtain rfl : upw' = π upw := hp.1
  refine mirrors_bind (hhash upw) (fun uhash uhash' huhash => ?_)
  subst huhash
  exact rfl

/-! ## The script -/

theorem installOn_mirrors (disk espsz : Str) (f : Found) (answers : List Str) :
    Mirrors (disguise π) Echoes Eq (installOn disk espsz f answers)
      (installOn disk espsz f (hideAccounts π answers)) := by
  refine mirrors_bind (makeFilesystems_open disk espsz).mirrors (fun _ _ _ => ?_)
  refine mirrors_bind (mountTarget_open disk).mirrors (fun _ _ _ => ?_)
  refine mirrors_bind copySystem_open.mirrors (fun _ _ _ => ?_)
  refine mirrors_bind (copyBootFiles_open disk f).mirrors (fun pu pu' hpu => ?_)
  subst hpu
  refine mirrors_bind (writeNormal_open pu).mirrors (fun _ _ _ => ?_)
  refine mirrors_bind (writeRescueIf_open f.initrd).mirrors (fun _ _ _ => ?_)
  refine mirrors_bind (mirrors_cmd _) (fun _ _ _ => ?_)
  refine mirrors_bind (askAccounts_mirrors hπ hlong answers) (fun a a' ha => ?_)
  subst ha
  refine mirrors_bind (writePasswd_open a.user).mirrors (fun _ _ _ => ?_)
  exact (completeAccounts_open disk pu a).mirrors

omit hπ hlong in
theorem confirm_mirrors (disk : Str) (answers : List Str) :
    Mirrors (disguise π) Echoes (fun x y => y = hideAccounts π x) (confirm disk answers)
      (confirm disk (hideAnswers π answers)) := by
  have hhead : (hideAnswers π answers).head? = answers.head? := by cases answers <;> rfl
  have htail : (hideAnswers π answers).tail = hideAccounts π answers.tail := by
    cases answers <;> rfl
  unfold confirm
  rw [hhead, htail]
  refine mirrors_bind (mirrors_cmd _) (fun _ _ _ => mirrors_bind (mirrors_cmd _) (fun _ _ _ => ?_))
  refine mirrors_bind (mirrors_capture (V := Eq) (a := Act.readLine answers.head?)
    (fun _ _ _ => rfl)) (fun ans ans' hans => ?_)
  subst hans
  exact mirrors_ite rfl (mirrors_bind (mirrors_cmd _) (fun _ _ _ => rfl))

theorem slinuxInstall_mirrors (args : List Str) (sysdevs : List SysDev) (answers : List Str) :
    Mirrors (disguise π) Echoes Eq (slinuxInstall args sysdevs answers)
      (slinuxInstall args sysdevs (hideAnswers π answers)) := by
  cases args with
  | nil => exact mirrors_bind (mirrors_cmd _) (fun _ _ _ => rfl)
  | cons disk rest =>
      have hrequire : ∀ p message, Open (require (.isFile p) message 1) := fun p message =>
        require_open (show Public (.isFile p) from trivial) message Nat.one_ne_zero
      refine mirrors_bind (hrequire _ _).mirrors (fun _ _ _ => ?_)
      refine mirrors_bind (hrequire _ _).mirrors (fun _ _ _ => ?_)
      refine mirrors_bind (confirm_mirrors disk answers) (fun as as' has => ?_)
      subst has
      refine mirrors_bind (waitDisk_open disk 30).mirrors (fun _ _ _ => ?_)
      refine mirrors_bind (searchBootMedium_open disk sysdevs).mirrors (fun f f' hf => ?_)
      subst hf
      exact installOn_mirrors hπ hlong disk _ f as

end Prompts

/-- **The passwords reach nothing but `getpass` and `cryptpw`.**  Replace the
password lines by any others that are acceptable where these are, equal ones by
equal ones and different ones by different ones.  In an environment that deals
with the commands alike, so that in particular `cryptpw` prints the same
hashes, the run differs in what `getpass` reads and `cryptpw` is given, and in
nothing else: not in what is stored anywhere at any time, nor in what is
printed or run, nor in how it ends. -/
theorem passwords_private {π : Str → Str} (hπ : Function.Injective π)
    (hlong : ∀ s, longEnough (π s) = longEnough s) {O O' : Nat → Act → Decision}
    (hO : ∀ n a, O' n (hideAct π a) = O n a) (args : List Str) (sysdevs : List SysDev)
    (answers : List Str) (w : World) :
    runScript machine O' (slinuxInstall args sysdevs (hideAnswers π answers)) w
      = runDisguise (disguise π) (runScript machine O (slinuxInstall args sysdevs answers) w) :=
  runScript_mirrors (machine_reflects π) hO (slinuxInstall_mirrors hπ hlong args sysdevs answers) w

/-- Reversing lines is such a replacement. -/
theorem passwords_private_reversed :
    runScript machine (fun _ _ => succeeds) (slinuxInstall [devPath "sda".toList] sampleSysdevs
        ["y".toList, "ssaptoor".toList, "ssaptoor".toList, "ada".toList, "ssapsada".toList,
          "ssapsada".toList]) (sampleWorld none)
      = runDisguise (disguise List.reverse)
          (sampleRun (fun _ _ => succeeds) none sampleAnswers) :=
  passwords_private (π := List.reverse) List.reverse_injective
    (fun s => by simp only [longEnough, List.length_reverse]) (fun _ _ => rfl)
    [devPath "sda".toList] sampleSysdevs sampleAnswers (sampleWorld none)

end Slinux.Installer.Secrets
