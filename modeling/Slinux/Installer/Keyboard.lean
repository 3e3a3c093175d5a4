import Slinux.Shell.Input
import Slinux.Tools.Getpass
import Slinux.Installer.Secrets

/-!
# The installer at a terminal

The script is given what its prompts read.  Somebody at a terminal types lines,
and three kinds of prompts take them: the confirmation is a `read` that joins
lines, the passwords are read by `tools/getpass.c`, and the user name by a
`read -r`.  For lines that fit into the buffer of `getpass`, `prompted` says what
all of them read.  That is no assumption: along every run each prompt finds at
the terminal what it is given, where a `getpass` is a run of its `main`.

## Main results

* `slinuxInstall_fed` — whole runs, whatever fails and wherever signals arrive.
-/

namespace Slinux.Installer.Keyboard

open Slinux.Shell.Text
open Slinux.Shell.Script
open Slinux.Shell.Logic
open Slinux.Shell.Input
open Slinux.Tools.Getpass
open Slinux.Unix.Files
open Slinux.Installer.Accounts
open Slinux.Installer.System
open Slinux.Installer.Script
open Slinux.Installer.Secrets

/-- A line of which one `getpass` reads all. -/
def Fits (l : Str) : Prop := cleanLine l ∧ l.length < bufRoom

instance (l : Str) : Decidable (Fits l) := inferInstanceAs (Decidable (_ ∧ _))

/-- The lines that no prompt has read yet, and whether the confirmation is
behind. -/
structure Terminal where
  confirmed : Bool
  lines : List Str

/-- What a `read` of the script takes.  Only the confirmation minds backslashes. -/
def Terminal.read : Terminal → Option (Str × Terminal)
  | ⟨false, ls⟩ => (readLogical ls).map (fun x => (x.1, ⟨true, x.2⟩))
  | ⟨true, []⟩ => none
  | ⟨true, l :: ls⟩ => some (l, ⟨true, ls⟩)

/-- `getpass "$prompt"` at this terminal. -/
def Terminal.getpass (prompt : Str) (k : Terminal) : Result :=
  main ["getpass".toList, prompt] .terminal true true bufRoom (unlines k.lines)

/-- The command finds at the terminal what it is given, takes it off the front of
the input, and leaves `k'`. -/
def Takes (k : Terminal) (a : Act) (k' : Terminal) : Prop :=
  match a with
  | .readLine (some l) =>
      k.read = some (l, k') ∧ unlines k.lines = l ++ '\n' :: unlines k'.lines
  | .readLine none => k.read = none ∧ k' = k
  | .getpass prompt (some l) =>
      (k.getpass prompt).status = 0 ∧ (k.getpass prompt).stdout = l ++ ['\n'] ∧
        (k.getpass prompt).rest = unlines k'.lines ∧ k'.confirmed = k.confirmed
  | .getpass prompt none => (k.getpass prompt).status ≠ 0 ∧ k' = k
  | _ => k' = k

/-- What the prompts read where these lines are typed. -/
def prompted (lines : List Str) : List Str :=
  ((readLogical lines).map (fun x => x.1 :: x.2)).getD []

theorem prompted_fits {lines : List Str} (h : ∀ l ∈ lines, Fits l) :
    ∀ l ∈ (prompted lines).tail, Fits l := by
  unfold prompted
  cases hread : readLogical lines with
  | none => exact fun l hl => by cases hl
  | some x =>
      have hsuffix : x.2 <:+ lines := readLogical_suffix hread
      exact fun l hl => h l (hsuffix.subset hl)

/-! ## One prompt -/

theorem getpass_nil (prompt : Str) (b : Bool) :
    (Terminal.getpass prompt ⟨b, []⟩).status ≠ 0 := by
  simp [Terminal.getpass, main, readSize, readLimit, firstLineSize, unlines]

/-- A line that fits is printed, and the later ones are left. -/
theorem getpass_cons (prompt : Str) (b : Bool) {l : Str} (hl : Fits l) (ls : List Str) :
    Terminal.getpass prompt ⟨b, l :: ls⟩
      = ⟨0, l ++ ['\n'], prompt ++ [' '] ++ ['\n'], unlines ls, true⟩ :=
  main_of_line prompt .terminal true bufRoom l (unlines ls) hl.1
    (readSize_terminal hl.1 hl.2 _)

/-- Commands that are no prompts leave the terminal alone. -/
theorem takes_public {a : Act} (h : Public a) (k : Terminal) : Takes k a k := by
  cases a <;> first | exact h.elim | rfl

/-! ## The script -/

section Script

variable {α : Type} {ls : List Str}

/-- The script finds at the terminal what it is given. -/
abbrev Finds (V : α → Terminal → Prop) (p : Prog Act α) (k : Terminal) : Prop :=
  Feeds Echoes Takes V p k

/-- The answers that are left are the lines that are left. -/
def Remains (r : α × List Str) (k : Terminal) : Prop :=
  k = ⟨true, r.2⟩ ∧ ∀ l ∈ r.2, Fits l

theorem fits_tail (h : ∀ l ∈ ls, Fits l) : ∀ l ∈ ls.tail, Fits l :=
  fun l hl => h l (List.mem_of_mem_tail hl)

theorem getpass_finds (ls : List Str) (prompt : Str) (h : ∀ l ∈ ls, Fits l) :
    Finds (fun _ k => k = ⟨true, ls.tail⟩) (captureOrExit 1 (.getpass prompt ls.head?))
      ⟨true, ls⟩ := by
  refine feeds_captureOrExit ⟨true, ls.tail⟩ 1 ?_ (fun _ _ _ => rfl)
  cases ls with
  | nil => exact ⟨getpass_nil prompt true, rfl⟩
  | cons l ls =>
      have hrun := getpass_cons prompt true (h l List.mem_cons_self) ls
      simp only [List.head?_cons, List.tail_cons, Takes, hrun, and_self]

theorem readLine_finds (ls : List Str) : Finds (fun _ k => k = ⟨true, ls.tail⟩)
    (captureOrExit 1 (.readLine ls.head?)) ⟨true, ls⟩ := by
  refine feeds_captureOrExit ⟨true, ls.tail⟩ 1 ?_ (fun _ _ _ => rfl)
  cases ls with
  | nil => exact ⟨rfl, rfl⟩
  | cons l ls => exact ⟨rfl, rfl⟩

theorem open_then {β : Type} {W : β → Terminal → Prop} {p : Prog Act α} {f : α → Prog Act β}
    {k : Terminal} (hp : Open p) (hf : ∀ a, Finds W (f a) k) : Finds W (p >>= f) k :=
  feeds_then hp (fun _ ha => takes_public ha k) hf

/-- A command that reads nothing. -/
theorem cmd_then {β : Type} {W : β → Terminal → Prop} {a : Act} {f : Unit → Prog Act β}
    {k : Terminal} (ha : Takes k a k) (hf : Finds W (f ()) k) :
    Finds W (cmd a >>= f) k := by
  refine feeds_bind (feeds_untested (V := fun _ v => v = k) k ha (fun _ _ _ => rfl)) ?_
  rintro - v rfl
  exact hf

theorem repeatPass_finds (pw : Str) (h : ∀ l ∈ ls, Fits l) :
    Finds Remains (repeatPass pw ls) ⟨true, ls⟩ := by
  refine feeds_bind (getpass_finds ls _ h) ?_
  rintro pw2 k rfl
  refine feeds_ite (fun _ => ⟨rfl, fits_tail h⟩) (fun _ => ?_)
  exact cmd_then rfl trivial

theorem readpass_finds (who : Str) (h : ∀ l ∈ ls, Fits l) :
    Finds Remains (readpass who ls) ⟨true, ls⟩ := by
  induction ls with
  | nil =>
      refine feeds_bind (getpass_finds [] _ h) ?_
      exact fun _ _ _ => trivial
  | cons l ls ih =>
      have hls : ∀ m ∈ ls, Fits m := fits_tail h
      refine feeds_bind (getpass_finds (l :: ls) _ h) ?_
      rintro pw k rfl
      refine feeds_ite (fun _ => repeatPass_finds pw hls) (fun _ => ?_)
      exact cmd_then rfl (ih hls)

theorem askUser_finds (h : ∀ l ∈ ls, Fits l) : Finds Remains (askUser ls) ⟨true, ls⟩ := by
  induction ls with
  | nil =>
      refine cmd_then rfl (feeds_bind (readLine_finds []) ?_)
      exact fun _ _ _ => trivial
  | cons l ls ih =>
      have hls : ∀ m ∈ ls, Fits m := fits_tail h
      refine cmd_then rfl (feeds_bind (readLine_finds (l :: ls)) ?_)
      rintro user k rfl
      refine feeds_ite (fun _ => ⟨rfl, hls⟩) (fun _ => ?_)
      exact cmd_then rfl (ih hls)

theorem cryptpw_finds (pw : Str) (k : Terminal) :
    Finds (fun _ v => v = k) (capture (.cryptpw pw)) k :=
  feeds_capture k rfl (fun _ _ _ => rfl)

/-- Lines 148 to 160. -/
theorem askAccounts_finds (h : ∀ l ∈ ls, Fits l) :
    Finds (fun _ _ => True) (askAccounts ls) ⟨true, ls⟩ := by
  refine cmd_then rfl (feeds_bind (readpass_finds _ h) ?_)
  rintro root k ⟨rfl, hroot⟩
  refine feeds_bind (cryptpw_finds _ _) ?_
  rintro rhash k rfl
  refine feeds_bind (askUser_finds hroot) ?_
  rintro name k ⟨rfl, hname⟩
  refine feeds_bind (readpass_finds _ hname) ?_
  rintro user k ⟨rfl, -⟩
  refine feeds_bind (cryptpw_finds _ _) ?_
  exact fun _ _ _ => trivial

/-- The confirmation leaves the lines behind those that its `read` joined. -/
theorem confirm_finds (disk : Str) (lines : List Str) :
    Finds (fun as k => as = (prompted lines).tail ∧ k = ⟨true, (prompted lines).tail⟩)
      (confirm disk (prompted lines)) ⟨false, lines⟩ := by
  have hread : Finds (fun _ k => k = ⟨true, (prompted lines).tail⟩)
      (capture (.readLine (prompted lines).head?)) ⟨false, lines⟩ := by
    unfold prompted
    cases htaken : readLogical lines with
    | none =>
        have hnone : Terminal.read ⟨false, lines⟩ = none := congrArg (Option.map _) htaken
        exact feeds_capture ⟨false, lines⟩ ⟨hnone, rfl⟩ (fun r hr h0 => nomatch hr h0)
    | some x =>
        have hsome : Terminal.read ⟨false, lines⟩ = some (x.1, ⟨true, x.2⟩) :=
          congrArg (Option.map _) htaken
        exact feeds_capture ⟨true, x.2⟩ ⟨hsome, readLogical_unlines htaken⟩ (fun _ _ _ => rfl)
  refine cmd_then rfl (cmd_then rfl (feeds_bind hread ?_))
  rintro ans k rfl
  refine feeds_ite (fun _ => ⟨rfl, rfl⟩) (fun _ => ?_)
  exact cmd_then rfl trivial

/-- Lines 82 to 202. -/
theorem installOn_finds (disk espsz : Str) (f : Found) (h : ∀ l ∈ ls, Fits l) :
    Finds (fun _ _ => True) (installOn disk espsz f ls) ⟨true, ls⟩ := by
  refine open_then (makeFilesystems_open disk espsz) (fun _ => ?_)
  refine open_then (mountTarget_open disk) (fun _ => ?_)
  refine open_then copySystem_open (fun _ => ?_)
  refine open_then (copyBootFiles_open disk f) (fun pu => ?_)
  refine open_then (writeNormal_open pu) (fun _ => ?_)
  refine open_then (writeRescueIf_open f.initrd) (fun _ => ?_)
  refine cmd_then rfl (feeds_bind (askAccounts_finds h) (fun a k _ => ?_))
  refine open_then (writePasswd_open a.user) (fun _ => ?_)
  rw [← bind_ret (completeAccounts disk pu a)]
  exact open_then (completeAccounts_open disk pu a) (fun _ => trivial)

theorem slinuxInstall_finds (args : List Str) (sysdevs : List SysDev) {lines : List Str}
    (h : ∀ l ∈ lines, Fits l) :
    Finds (fun _ _ => True) (slinuxInstall args sysdevs (prompted lines)) ⟨false, lines⟩ := by
  cases args with
  | nil => exact cmd_then rfl trivial
  | cons disk rest =>
      have hrequire : ∀ p message, Open (require (.isFile p) message 1) := fun p message =>
        require_open (show Public (.isFile p) from trivial) message Nat.one_ne_zero
      refine open_then (hrequire _ _) (fun _ => open_then (hrequire _ _) (fun _ => ?_))
      refine feeds_bind (confirm_finds disk lines) ?_
      rintro answers k ⟨rfl, rfl⟩
      refine open_then (waitDisk_open disk 30) (fun _ => ?_)
      refine open_then (searchBootMedium_open disk sysdevs) (fun f => ?_)
      exact installOn_finds disk _ f (prompted_fits h)

end Script

/-- **The answers are those of the terminal.**  Where the lines that are typed fit
into the buffer of `getpass`, the prompts of every run find there what they are
given, one after the other. -/
theorem slinuxInstall_fed (O : Nat → Act → Decision) (args : List Str) (sysdevs : List SysDev)
    {lines : List Str} (h : ∀ l ∈ lines, Fits l) (w : World) :
    Fed Takes ⟨false, lines⟩
      ((runScript machine O (slinuxInstall args sysdevs (prompted lines)) w).trace.map
        Event.act) := by
  refine runScript_fed (fun v t ht k => ?_) (slinuxInstall_finds args sysdevs h) exec_echoes w
  obtain ⟨ps, _, rfl⟩ := Option.map_eq_some_iff.mp ht
  exact takes_public (a := .umount ps) trivial k

end Slinux.Installer.Keyboard
