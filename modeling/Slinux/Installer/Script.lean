import Slinux.Installer.Accounts
import Slinux.Installer.System
import Slinux.Shell.Input

/-!
# `slinux-install`

The installer, line by line, as a command tree.  Functions and loops of the
source are definitions of the same name here; the numbers in the comments are
line numbers of `bin/slinux-install`.

Three things are parameters of the script because they come from outside: the
arguments, the entries of `/sys/block/*/* /sys/block/*` that the search loop
visits, and the answers: what each prompt reads, in their order.  What `read`
takes for the confirmation may be several lines, and what one `getpass` reads is
up to `tools/getpass.c` and to what standard input is; where they come from a
terminal, `Slinux.Installer.Keyboard` says what they are.  The prompt loops
recurse on the answers: a prompt that finds none fails, and the script ends.
-/

namespace Slinux.Installer.Script

open Slinux.Shell.Text
open Slinux.Shell.Glob
open Slinux.Shell.Script
open Slinux.Shell.Input
open Slinux.Unix.Files
open Slinux.Disk.Name
open Slinux.Installer.Accounts
open Slinux.Installer.Bootloader
open Slinux.Installer.System

/-! ## Paths -/

/-- `/tmp/bm`. -/
def bm : Path := ["tmp".toList, "bm".toList]

/-- `/mnt/root`. -/
def mntRoot : Path := ["mnt".toList, "root".toList]

/-- `$ESP`. -/
def esp : Path := ["mnt".toList, "root".toList, "boot".toList, "efi".toList]

/-- `$ESP/EFI/BOOT`. -/
def espBoot : Path := esp ++ ["EFI".toList, "BOOT".toList]

def limineConfPath : Path := espBoot ++ ["limine.conf".toList]

/-- A file of the target's `/etc`. -/
def etc (file : Str) : Path := mntRoot ++ ["etc".toList, file]

def bootKernel : Path := ["boot".toList, "vmlinuz".toList]

def bmKernel : Path := bm ++ ["vmlinuz".toList]

def bmInitrd : Path := bm ++ ["initramfs.cpio.gz".toList]

def limineEfi : Path := ["lib".toList, "limine".toList, "BOOTX64.EFI".toList]

/-! ## Confirmation (lines 13 to 42) -/

/-- `case $ans in y | Y | yes | YES)`. -/
def saysYes (ans : Str) : Bool :=
  caseArm [lits "y".toList, lits "Y".toList, lits "yes".toList, lits "YES".toList] ans

/-- `[ test ] || { echo message >&2; exit s; }`. -/
def require (test : Act) (message : Str) (s : Nat) : Prog Act Unit := do
  if ← tested test then pure ()
  else do
    cmd (.say message)
    .exit s

/-- Lines 22 to 28; the answers that are left. -/
def confirm (disk : Str) (answers : List Str) : Prog Act (List Str) := do
  cmd (.say ("WARNING: all data on ".toList ++ disk ++ " will be destroyed.".toList))
  cmd (.say "Continue? [y/N] ".toList)
  let ans ← capture (.readLine answers.head?)
  if saysYes (readText ans) then pure answers.tail
  else do
    cmd (.say "aborted".toList)
    .exit 1

/-- `until [ -b "$DISK" ]`, with `n` attempts left after a failure. -/
def waitDisk (disk : Str) : Nat → Prog Act Unit
  | 0 => do
      if ← tested (.isBlock disk) then pure ()
      else do
        cmd (.say ("slinux-install: device node ".toList ++ disk ++ " never appeared".toList))
        .exit 1
  | n + 1 => do
      if ← tested (.isBlock disk) then pure ()
      else do
        cmd .sleep
        waitDisk disk n

/-! ## The boot medium (lines 44 to 66) -/

/-- An entry of the search loop's list, and whether it has a file `dev`. -/
structure SysDev where
  path : Str
  hasDev : Bool
  deriving Repr, DecidableEq

/-- `KERNEL` and `INITRD`; an empty `INITRD` is `none`. -/
structure Found where
  kernel : Path
  initrd : Option Path
  deriving Repr, DecidableEq

/-- `dev=/dev/${sysdev##*/}`. -/
def devOf (s : SysDev) : Str := devDir ++ dropLongestPrefix [.star, .lit '/'] s.path

/-- An unquoted expansion in a `case` pattern: `*` and `?` keep their
meaning. -/
def patOf (s : Str) : Pat :=
  s.map (fun c => if c = '*' then .star else if c = '?' then .any else .lit c)

/-- The two `case` of lines 52 and 53. -/
def skipDev (disk dev : Str) : Bool :=
  caseArm [.star :: lits "/loop".toList ++ [.star], .star :: lits "/ram".toList ++ [.star],
    .star :: lits "/fd".toList ++ [.star], .star :: lits "/zram".toList ++ [.star]] dev
  || caseArm [patOf disk, lits (partP disk 1), lits (partP disk 2), lits (partP disk 3),
    lits (partP disk 4)] dev

def fsName : Fs → Str
  | .iso9660 => "iso9660".toList
  | .vfat => "vfat".toList
  | .ext4 => "ext4".toList

/-- Lines 56 to 59. -/
def lookInitrd (dev : Str) (fs : Fs) (f : Found) : Prog Act Found :=
  match f.initrd with
  | some _ => pure f
  | none => do
      if ← tested (.isFile bmInitrd) then do
        cmd (.say ("boot medium: ".toList ++ dev ++ " (".toList ++ fsName fs ++ ")".toList))
        pure { f with initrd := some bmInitrd }
      else pure f

/-- Line 60. -/
def lookKernel (f : Found) : Prog Act Found := do
  if ← tested (.isFile bmKernel) then pure { f with kernel := bmKernel } else pure f

/-- The inner loop; `true` stands for `break 2`. -/
def tryFs (dev : Str) : List Fs → Found → Prog Act (Found × Bool)
  | [], f => pure (f, false)
  | fs :: rest, f => do
      if ← tested (.mount fs true dev bm) then do
        let f ← lookInitrd dev fs f
        let f ← lookKernel f
        if f.initrd.isSome then pure (f, true)
        else do
          cmd (.umount [bm])
          tryFs dev rest f
      else tryFs dev rest f

/-- The outer loop. -/
def searchMedia (disk : Str) : List SysDev → Found → Prog Act Found
  | [], f => pure f
  | s :: rest, f =>
      if s.hasDev && !skipDev disk (devOf s) then do
        let (f, stop) ← tryFs (devOf s) [.iso9660, .vfat, .ext4] f
        if stop then pure f else searchMedia disk rest f
      else searchMedia disk rest f

/-- Line 65. -/
def noteMedium (f : Found) : Prog Act Unit :=
  match f.initrd with
  | some _ => pure ()
  | none => cmd (.say "note: boot medium not found, installing without rescue entry".toList)

/-- Lines 46 to 66. -/
def searchBootMedium (disk : Str) (sysdevs : List SysDev) : Prog Act Found := do
  cmd (.mkdirP [bm])
  let f ← searchMedia disk sysdevs ⟨bootKernel, none⟩
  noteMedium f
  cmd (.setTrap (some [bm]))
  pure f

/-! ## Passwords (lines 68 to 80) -/

/-- `case ${#PW} in [89] | 1?)`. -/
def longEnough (pw : Str) : Bool :=
  caseArm [[.bracket [('8', '8'), ('9', '9')]], [.lit '1', .any]] (decimal pw.length)

/-- Lines 78 and 79. -/
def repeatPass (pw : Str) (answers : List Str) : Prog Act (Str × List Str) := do
  let pw2 ← captureOrExit 1 (.getpass "repeat password:".toList answers.head?)
  if pw = pw2 then pure (pw, answers.tail)
  else do
    cmd (.say "passwords differ".toList)
    .exit 1

/-- `readpass`: the password, and the answers that are left. -/
def readpass (who : Str) : List Str → Prog Act (Str × List Str)
  | [] => do
      let _ ← captureOrExit 1 (.getpass (who ++ " password (min 8 chars):".toList) none)
      .exit 1
  | l :: answers => do
      let pw ← captureOrExit 1 (.getpass (who ++ " password (min 8 chars):".toList) (some l))
      if longEnough pw then repeatPass pw answers
      else do
        cmd (.say "password too short".toList)
        readpass who answers

/-! ## Disk and file systems (lines 82 to 106) -/

/-- The here-document of line 83. -/
def sfdiskScript (espsz : Str) : Str :=
  "label: gpt\nname=\"esp\", size=".toList ++ espsz
    ++ "MiB, type=uefi\nname=\"root\", type=linux\n".toList

/-- `until [ -b "$P"1 ] && [ -b "$P"2 ]`, with `n` attempts left. -/
def waitParts (disk : Str) : Nat → Prog Act Unit
  | 0 => do
      if ← bothParts disk then pure ()
      else do
        cmd (.say "slinux-install: partitions never appeared".toList)
        .exit 1
  | n + 1 => do
      if ← bothParts disk then pure ()
      else do
        cmd .sleep
        waitParts disk n
where
  bothParts (disk : Str) : Prog Act Bool := do
    if ← tested (.isBlock (partP disk 1)) then tested (.isBlock (partP disk 2))
    else pure false

/-- Lines 82 to 99. -/
def makeFilesystems (disk espsz : Str) : Prog Act Unit := do
  cmd (.say ("partitioning ".toList ++ disk ++ " (gpt: esp + root)".toList))
  cmd (.sfdisk disk (sfdiskScript espsz))
  cmd (.say "creating filesystems".toList)
  waitParts disk 15
  cmd (.mkfsFat (partP disk 1))
  cmd (.mke2fs (partP disk 2))

/-- Lines 101 to 106. -/
def mountTarget (disk : Str) : Prog Act Unit := do
  cmd (.mkdirP [mntRoot])
  cmd (.mount .ext4 false (partP disk 2) mntRoot)
  cmd (.setTrap (some [esp, mntRoot, bm]))
  cmd (.mkdirP [esp])
  cmd (.mount .vfat false (partP disk 1) esp)

/-! ## The system (lines 108 to 125) -/

/-- The directories of line 111. -/
def sourceDirs : List Str :=
  ["bin".toList, "etc".toList, "lib".toList, "sbin".toList, "usr".toList, "var".toList,
    "share".toList, "root".toList]

/-- `for d in ...; do [ -d "$d" ] && SRCDIRS="$SRCDIRS $d"; done`. -/
def presentDirs : List Str → Prog Act (List Str)
  | [] => pure []
  | d :: ds => do
      let present ← tested (.isDir [d])
      let rest ← presentDirs ds
      pure (if present then d :: rest else rest)

/-- Lines 108 to 125. -/
def copySystem : Prog Act Unit := do
  cmd (.say "copying system".toList)
  let srcdirs ← presentDirs sourceDirs
  forEach (fun d => cmd (.cpA d mntRoot)) srcdirs
  cmd (.chownR mntRoot)
  cmd (.chmodSetuid (mntRoot ++ ["bin".toList, "doas".toList]))
  cmd (.mkdirP (["tmp".toList, "mnt".toList, "dev".toList, "proc".toList, "sys".toList].map
    (fun d => mntRoot ++ [d])))
  cmd (.chmod 0o1777 (mntRoot ++ ["tmp".toList]))
  cmd (.touch (mntRoot ++ [".slinux-installed".toList]))

/-! ## The boot loader (lines 127 to 146) -/

/-- Lines 141 to 144. -/
def writeRescue (initrd : Path) : Prog Act Unit := do
  cmd (.cp initrd (esp ++ ["initramfs.cpio.gz".toList]))
  cmd (.write true limineConfPath "\n/slinux rescue (live ram)\n    protocol: linux\n".toList)
  cmd (.write true limineConfPath "    path: boot():/vmlinuz\n".toList)
  cmd (.write true limineConfPath "    module_path: boot():/initramfs.cpio.gz\n".toList)

/-- Lines 140 to 145. -/
def writeRescueIf (initrd : Option Path) : Prog Act Unit :=
  match initrd with
  | some p => writeRescue p
  | none => pure ()

/-- Lines 136 to 139, up to the command line of the normal entry. -/
def writeNormal (pu : Str) : Prog Act Unit := do
  cmd (.openOut limineConfPath)
  cmd (.write true limineConfPath "timeout: 3\n\n".toList)
  cmd (.write true limineConfPath
    "/slinux\n    protocol: linux\n    path: boot():/vmlinuz\n".toList)
  cmd (.write true limineConfPath (cmdlineEntry pu))

/-- Lines 127 to 134: the files of the ESP, and `PU`. -/
def copyBootFiles (disk : Str) (f : Found) : Prog Act Str := do
  cmd (.say "installing bootloader".toList)
  cmd (.mkdirP [espBoot])
  cmd (.cp f.kernel (esp ++ ["vmlinuz".toList]))
  cmd (.cp limineEfi (espBoot ++ ["BOOTX64.EFI".toList]))
  let pu ← capture (.readPU disk)
  if pu = [] then do
    cmd (.say ("slinux-install: cannot read PARTUUID of ".toList ++ partP disk 2))
    .exit 1
  else pure pu

/-! ## Accounts (lines 148 to 177) -/

/-- The user name loop. -/
def askUser : List Str → Prog Act (Str × List Str)
  | [] => do
      cmd (.say "new username: ".toList)
      let _ ← captureOrExit 1 (.readLine none)
      .exit 1
  | l :: answers => do
      cmd (.say "new username: ".toList)
      let user ← captureOrExit 1 (.readLine (some l))
      if acceptsUser user then pure (user, answers)
      else do
        cmd (.say "invalid username".toList)
        askUser answers

/-- What lines 149 to 160 ask for: `RHASH`, `USER`, `UHASH`. -/
structure Accounts where
  rhash : Str
  user : Str
  uhash : Str

/-- Lines 148 to 160. -/
def askAccounts (answers : List Str) : Prog Act Accounts := do
  cmd (.say "creating users".toList)
  let (pw, answers) ← readpass rootName answers
  let rhash ← capture (.cryptpw pw)
  let (user, answers) ← askUser answers
  let (pw, _) ← readpass user answers
  let uhash ← capture (.cryptpw pw)
  pure ⟨rhash, user, uhash⟩

/-- Lines 165 to 170. -/
def writePasswd (user : Str) : Prog Act Unit := do
  cmd (.write false (etc "passwd.new".toList) [])
  cmd (.write true (etc "passwd.new".toList) rootPasswd)
  cmd (.write true (etc "passwd.new".toList) (userPasswd user))
  cmd (.mv (etc "passwd.new".toList) (etc "passwd".toList))

/-- Lines 175 to 177, behind root's record. -/
def writeUserShadow (a : Accounts) : Prog Act Unit := do
  cmd (.write true (etc "shadow".toList) (shadowRecord a.user a.uhash))
  cmd (.chmod 0o600 (etc "shadow".toList))

/-! ## Groups (lines 179 to 193) -/

/-- `IFS=: read -r NAME PASS GID REST`: the fourth variable takes what is
left of the line, without a colon that only ends its last field. -/
def readGroup (line : Str) : Str × Str × Str × Str :=
  match line.splitOn ':' with
  | [] => ([], [], [], [])
  | [n] => (n, [], [], [])
  | [n, p] => (n, p, [], [])
  | [n, p, g] => (n, p, g, [])
  | [n, p, g, r, []] => (n, p, g, r)
  | n :: p :: g :: rest => (n, p, g, [':'].intercalate rest)

/-- `case $GID in 10 | 100)`. -/
def joins (gid : Str) : Bool := caseArm [lits "10".toList, lits "100".toList] gid

/-- The line printed for a line of `/etc/group`. -/
def groupLine (user line : Str) : Str :=
  let (name, pass, gid, rest) := readGroup line
  let mem := if joins gid then user else []
  let rest := if rest = [] then rest else ':' :: rest
  name ++ ":".toList ++ pass ++ ":".toList ++ gid ++ ":".toList ++ mem ++ rest ++ "\n".toList

/-- Lines 179 to 193. -/
def writeGroup (user : Str) : Prog Act Unit := do
  cmd (.write false (etc "group.new".toList) [])
  let group ← capture (.openIn (etc "group".toList))
  forEach (fun l => cmd (.write true (etc "group.new".toList) (groupLine user l)))
    (fileLines group)
  cmd .close
  cmd (.mv (etc "group.new".toList) (etc "group".toList))

/-! ## The end (lines 195 to 202) -/

/-- The components of `$ROOTMNT/home/$USER`. -/
def homeRoute (user : Str) : List Str := mntRoot ++ "home".toList :: user.splitOn '/'

def doneLine (disk pu : Str) : Str :=
  "done: slinux installed on ".toList ++ disk ++ " (root=PARTUUID=".toList ++ pu ++ ")".toList

/-- Lines 195 to 202. -/
def finish (disk pu user : Str) : Prog Act Unit := do
  cmd (.mkdirP [homeRoute user])
  cmd (.chown 1000 100 (homeRoute user))
  cmd .sync
  cmd (.umount [esp, mntRoot])
  cmd (.setTrap none)
  cmd (.umount [bm])
  cmd (.say (doneLine disk pu))

/-! ## The whole script -/

/-- Root's record of the shadow file, and everything behind it. -/
def completeAccounts (disk pu : Str) (a : Accounts) : Prog Act Unit := do
  cmd (.write false (etc "shadow".toList) (shadowRecord rootName a.rhash))
  writeUserShadow a
  writeGroup a.user
  finish disk pu a.user

/-- Everything behind the command line of `limine.conf`. -/
def completeInstall (disk pu : Str) (f : Found) (answers : List Str) : Prog Act Unit := do
  writeRescueIf f.initrd
  cmd .close
  let a ← askAccounts answers
  writePasswd a.user
  completeAccounts disk pu a

/-- Lines 82 to 202. -/
def installOn (disk espsz : Str) (f : Found) (answers : List Str) : Prog Act Unit := do
  makeFilesystems disk espsz
  mountTarget disk
  copySystem
  let pu ← copyBootFiles disk f
  writeNormal pu
  completeInstall disk pu f answers

/-- Lines 14 to 202. -/
def install (disk espsz : Str) (sysdevs : List SysDev) (answers : List Str) :
    Prog Act Unit := do
  require (.isFile limineEfi) "slinux-install: /lib/limine/BOOTX64.EFI missing".toList 1
  require (.isFile bootKernel) "slinux-install: no kernel found at /boot/vmlinuz".toList 1
  let answers ← confirm disk answers
  waitDisk disk 30
  let f ← searchBootMedium disk sysdevs
  installOn disk espsz f answers

/-- Lines 14 to 65: `KERNEL`, `INITRD` and the answers that are left. -/
def untilTrap (disk : Str) (sysdevs : List SysDev) (answers : List Str) :
    Prog Act (Found × List Str) := do
  require (.isFile limineEfi) "slinux-install: /lib/limine/BOOTX64.EFI missing".toList 1
  require (.isFile bootKernel) "slinux-install: no kernel found at /boot/vmlinuz".toList 1
  let answers ← confirm disk answers
  waitDisk disk 30
  cmd (.mkdirP [bm])
  let f ← searchMedia disk sysdevs ⟨bootKernel, none⟩
  noteMedium f
  pure (f, answers)

/-- Lines 66 to 202. -/
def afterSearch (disk espsz : Str) (f : Found) (answers : List Str) : Prog Act Unit := do
  cmd (.setTrap (some [bm]))
  installOn disk espsz f answers

/-- The script in two parts, with the first trap at the head of the second. -/
theorem install_eq (disk espsz : Str) (sysdevs : List SysDev) (answers : List Str) :
    install disk espsz sysdevs answers = untilTrap disk sysdevs answers >>= fun r =>
      afterSearch disk espsz r.1 r.2 := by
  unfold install untilTrap searchBootMedium afterSearch
  simp only [bind_assoc]
  rfl

/-- `slinux-install <disk> [esp-size-mib]`. -/
def slinuxInstall (args : List Str) (sysdevs : List SysDev) (answers : List Str) :
    Prog Act Unit :=
  match args with
  | [] => do
      cmd (.say "usage: slinux-install <disk> [esp-size-mib]".toList)
      .exit 2
  -- `${2:-256}` takes the default for an empty argument too
  | disk :: rest =>
      install disk (if rest.head?.getD [] = [] then "256".toList else rest.head?.getD [])
        sysdevs answers

/-! ## The commands of each part

What a part of the script can do, as far as the shell's own state and the
devices are concerned, is visible from the commands that occur in it. -/

/-- The commands whose status the script looks at. -/
def Tested : Act → Prop
  | .isFile _ | .isDir _ | .isBlock _ | .mount _ true _ _ => True
  | _ => False

/-- Commands that only ask, tell or wait. -/
def Asks : Act → Prop
  | .say _ | .readLine _ | .isFile _ | .isDir _ | .isBlock _ | .sleep | .getpass _ _
  | .cryptpw _ => True
  | _ => False

/-- Commands that change files, and neither devices nor the shell's state. -/
def Fills (a : Act) : Prop := a.filesOnly = true ∧ a.devices = []

/-- The commands between the search and the mounts. -/
def Prepares (disk : Str) (a : Act) : Prop :=
  Asks a ∨ (∃ s, a = .sfdisk disk s) ∨ a = .mkfsFat (partP disk 1) ∨ a = .mke2fs (partP disk 2)

/-- The commands of the search for a boot medium. -/
def Searches (disk : Str) (a : Act) : Prop :=
  Asks a ∨ a = .mkdirP [bm] ∨
    (∃ fs dev, skipDev disk dev = false ∧ a = .mount fs true dev bm) ∨
    a = .umount [bm] ∨ a = .setTrap (some [bm])

/-- The commands that fill the target before `limine.conf` is written. -/
def Copies : Act → Prop
  | .cpA _ dst => dst = mntRoot
  | .cp _ p | .touch p => p ≠ limineConfPath
  | .chownR _ | .chmodSetuid _ | .chmod _ _ | .mkdirP _ | .readPU _ => True
  | a => Asks a

/-- The commands behind root's record of the shadow file. -/
def Concludes : Act → Prop
  | .write append p _ => (append = true ∧ p = etc "shadow".toList) ∨ p = etc "group.new".toList
  | .mv src dst => src = etc "group.new".toList ∧ dst = etc "group".toList
  | .say _ | .chmod _ _ | .openIn _ | .close | .mkdirP _ | .chown _ _ _ | .sync | .umount _
  | .setTrap none => True
  | _ => False

theorem Asks.fills {a : Act} (h : Asks a) : Fills a := by
  cases a <;> first | exact h.elim | exact ⟨rfl, rfl⟩

theorem Asks.copies {a : Act} (h : Asks a) : Copies a := by
  cases a <;> first | exact h.elim | exact h

theorem Copies.fills {a : Act} (h : Copies a) : Fills a := by
  cases a <;> first | exact h.elim | exact ⟨rfl, rfl⟩

open Slinux.Shell.Logic

theorem require_asks {test : Act} (ht : Tested test) (ha : Asks test) (message : Str) {s : Nat}
    (hs : s ≠ 0) : Acts Tested Asks (require test message s) :=
  acts_bind (acts_tested ha ht) (fun _ =>
    acts_ite trivial (acts_bind (acts_cmd trivial) (fun _ => hs)))

theorem confirm_asks (disk : Str) (answers : List Str) :
    Acts Tested Asks (confirm disk answers) :=
  acts_bind (acts_cmd trivial) (fun _ => acts_bind (acts_cmd trivial) (fun _ =>
    acts_bind (acts_capture trivial) (fun _ =>
      acts_ite trivial (acts_bind (acts_cmd trivial) (fun _ => Nat.one_ne_zero)))))

/-- The lines that are left behind the confirmation. -/
theorem confirm_returns (disk : Str) (as : List Str) :
    Returns (fun r => r = as.tail) (confirm disk as) := by
  apply returns_bind
  intro _
  apply returns_bind
  intro _
  apply returns_bind
  intro ans
  cases saysYes (readText ans) with
  | true => rfl
  | false => exact returns_bind _ (fun _ => trivial)

theorem waitDisk_asks (disk : Str) (n : Nat) : Acts Tested Asks (waitDisk disk n) := by
  induction n with
  | zero =>
      exact acts_bind (acts_tested trivial trivial) (fun _ =>
        acts_ite trivial (acts_bind (acts_cmd trivial) (fun _ => Nat.one_ne_zero)))
  | succ n ih =>
      exact acts_bind (acts_tested trivial trivial) (fun _ =>
        acts_ite trivial (acts_bind (acts_cmd trivial) (fun _ => ih)))

theorem waitParts_asks (disk : Str) (n : Nat) : Acts Tested Asks (waitParts disk n) := by
  have hboth : Acts Tested Asks (waitParts.bothParts disk) :=
    acts_bind (acts_tested trivial trivial) (fun _ =>
      acts_ite (acts_tested trivial trivial) trivial)
  induction n with
  | zero =>
      exact acts_bind hboth (fun _ =>
        acts_ite trivial (acts_bind (acts_cmd trivial) (fun _ => Nat.one_ne_zero)))
  | succ n ih =>
      exact acts_bind hboth (fun _ =>
        acts_ite trivial (acts_bind (acts_cmd trivial) (fun _ => ih)))

theorem makeFilesystems_prepares (disk espsz : Str) :
    Acts Tested (Prepares disk) (makeFilesystems disk espsz) := by
  refine acts_bind (acts_cmd (Or.inl trivial)) (fun _ => ?_)
  refine acts_bind (acts_cmd (Or.inr (Or.inl ⟨_, rfl⟩))) (fun _ => ?_)
  refine acts_bind (acts_cmd (Or.inl trivial)) (fun _ => ?_)
  refine acts_bind ((waitParts_asks disk 15).mono (fun _ h => Or.inl h)) (fun _ => ?_)
  refine acts_bind (acts_cmd (Or.inr (Or.inr (Or.inl rfl)))) (fun _ => ?_)
  exact acts_cmd (Or.inr (Or.inr (Or.inr rfl)))

section Search

variable {P : Act → Prop} (hask : ∀ a, Asks a → P a) (humount : P (.umount [bm]))

include hask humount

/-- The inner loop of the search. -/
theorem tryFs_acts {dev : Str} (hmount : ∀ fs, P (.mount fs true dev bm)) (fss : List Fs) :
    ∀ f, Acts Tested P (tryFs dev fss f) := by
  have hinitrd : ∀ fs f, Acts Tested P (lookInitrd dev fs f) := by
    intro fs f
    unfold lookInitrd
    split
    · trivial
    · exact acts_bind (acts_tested (hask _ trivial) trivial) (fun _ =>
        acts_ite (acts_bind (acts_cmd (hask _ trivial)) (fun _ => trivial)) trivial)
  have hkernel : ∀ f, Acts Tested P (lookKernel f) := fun f =>
    acts_bind (acts_tested (hask _ trivial) trivial) (fun _ => acts_ite trivial trivial)
  induction fss with
  | nil => intro f; trivial
  | cons fs fss ih =>
      intro f
      refine acts_bind (acts_tested (hmount fs) trivial) (fun _ => acts_ite ?_ (ih f))
      exact acts_bind (hinitrd fs f) (fun g => acts_bind (hkernel g) (fun g' =>
        acts_ite trivial (acts_bind (acts_cmd humount) (fun _ => ih g'))))

/-- The search mounts listed devices that are not skipped. -/
theorem searchMedia_acts {disk : Str} (ss : List SysDev)
    (hmount : ∀ s ∈ ss, s.hasDev = true → skipDev disk (devOf s) = false →
      ∀ fs, P (.mount fs true (devOf s) bm)) :
    ∀ f, Acts Tested P (searchMedia disk ss f) := by
  induction ss with
  | nil => intro f; trivial
  | cons s ss ih =>
      intro f
      have hrest := ih (fun s' hs' => hmount s' (List.mem_cons_of_mem _ hs'))
      unfold searchMedia
      split
      · rename_i hs
        rw [Bool.and_eq_true, Bool.not_eq_true'] at hs
        refine acts_bind (tryFs_acts hask humount (hmount s List.mem_cons_self hs.1 hs.2) _ f)
          (fun r => ?_)
        exact acts_ite trivial (hrest r.1)
      · exact hrest f

theorem searchBootMedium_acts {disk : Str} (ss : List SysDev)
    (hmount : ∀ s ∈ ss, s.hasDev = true → skipDev disk (devOf s) = false →
      ∀ fs, P (.mount fs true (devOf s) bm))
    (hmkdir : P (.mkdirP [bm])) (htrap : P (.setTrap (some [bm]))) :
    Acts Tested P (searchBootMedium disk ss) := by
  have hnote : ∀ f, Acts Tested P (noteMedium f) := by
    intro f
    unfold noteMedium
    split
    · trivial
    · exact acts_cmd (hask _ trivial)
  refine acts_bind (acts_cmd hmkdir) (fun _ => ?_)
  refine acts_bind (searchMedia_acts hask humount ss hmount _) (fun f => ?_)
  exact acts_bind (hnote f) (fun _ => acts_bind (acts_cmd htrap) (fun _ => trivial))

end Search

theorem searchBootMedium_searches (disk : Str) (sysdevs : List SysDev) :
    Acts Tested (Searches disk) (searchBootMedium disk sysdevs) :=
  searchBootMedium_acts (P := Searches disk) (fun _ h => Or.inl h)
    (Or.inr (Or.inr (Or.inr (Or.inl rfl)))) sysdevs
    (fun s _ _ hs fs => Or.inr (Or.inr (Or.inl ⟨fs, devOf s, hs, rfl⟩))) (Or.inr (Or.inl rfl))
    (Or.inr (Or.inr (Or.inr (Or.inr rfl))))

theorem repeatPass_asks (pw : Str) (answers : List Str) :
    Acts Tested Asks (repeatPass pw answers) := by
  refine acts_bind (acts_captureOrExit Nat.one_ne_zero trivial) (fun pw2 => ?_)
  by_cases h : pw = pw2
  · rw [if_pos h]
    trivial
  · rw [if_neg h]
    exact acts_bind (acts_cmd trivial) (fun _ => Nat.one_ne_zero)

theorem readpass_asks (who : Str) (answers : List Str) :
    Acts Tested Asks (readpass who answers) := by
  induction answers with
  | nil =>
      exact acts_bind (acts_captureOrExit Nat.one_ne_zero trivial) (fun _ => Nat.one_ne_zero)
  | cons l answers ih =>
      exact acts_bind (acts_captureOrExit Nat.one_ne_zero trivial) (fun pw =>
        acts_ite (repeatPass_asks pw answers) (acts_bind (acts_cmd trivial) (fun _ => ih)))

theorem askUser_asks (answers : List Str) : Acts Tested Asks (askUser answers) := by
  induction answers with
  | nil =>
      exact acts_bind (acts_cmd trivial) (fun _ =>
        acts_bind (acts_captureOrExit Nat.one_ne_zero trivial) (fun _ => Nat.one_ne_zero))
  | cons l answers ih =>
      exact acts_bind (acts_cmd trivial) (fun _ =>
        acts_bind (acts_captureOrExit Nat.one_ne_zero trivial) (fun _ =>
          acts_ite trivial (acts_bind (acts_cmd trivial) (fun _ => ih))))

theorem askAccounts_asks (answers : List Str) : Acts Tested Asks (askAccounts answers) :=
  acts_bind (acts_cmd trivial) (fun _ => acts_bind (readpass_asks _ _) (fun _ =>
    acts_bind (acts_capture trivial) (fun _ => acts_bind (askUser_asks _) (fun _ =>
      acts_bind (readpass_asks _ _) (fun _ => acts_bind (acts_capture trivial) (fun _ =>
        trivial))))))

theorem presentDirs_asks (ds : List Str) : Acts Tested Asks (presentDirs ds) := by
  induction ds with
  | nil => trivial
  | cons d ds ih =>
      exact acts_bind (acts_tested trivial trivial) (fun _ => acts_bind ih (fun _ => trivial))

/-- A command that changes files only. -/
theorem fills_cmd {a : Act} (hf : a.filesOnly = true) (hd : a.devices = []) :
    Acts Tested Fills (cmd a) :=
  acts_cmd ⟨hf, hd⟩

theorem copySystem_copies : Acts Tested Copies copySystem := by
  have hcmd : ∀ {a : Act}, Copies a → Acts Tested Copies (cmd a) := fun h => acts_cmd h
  refine acts_bind (hcmd trivial) (fun _ => ?_)
  refine acts_bind ((presentDirs_asks _).mono (fun _ => Asks.copies)) (fun srcdirs => ?_)
  refine acts_bind (acts_forEach (fun _ _ => hcmd rfl)) (fun _ => ?_)
  refine acts_bind (hcmd trivial) (fun _ => acts_bind (hcmd trivial) (fun _ => ?_))
  refine acts_bind (hcmd trivial) (fun _ => acts_bind (hcmd trivial) (fun _ => ?_))
  apply hcmd
  show mntRoot ++ [".slinux-installed".toList] ≠ limineConfPath
  decide

theorem copyBootFiles_copies (disk : Str) (f : Found) :
    Acts Tested Copies (copyBootFiles disk f) := by
  have hcmd : ∀ {a : Act}, Copies a → Acts Tested Copies (cmd a) := fun h => acts_cmd h
  refine acts_bind (hcmd trivial) (fun _ => acts_bind (hcmd trivial) (fun _ => ?_))
  have hkernel : esp ++ ["vmlinuz".toList] ≠ limineConfPath := by decide
  have hloader : espBoot ++ ["BOOTX64.EFI".toList] ≠ limineConfPath := by decide
  refine acts_bind (hcmd hkernel) (fun _ => acts_bind (hcmd hloader) (fun _ => ?_))
  refine acts_bind (acts_capture trivial) (fun pu => ?_)
  by_cases h : pu = []
  · rw [if_pos h]
    exact acts_bind (hcmd trivial) (fun _ => Nat.one_ne_zero)
  · rw [if_neg h]
    trivial

theorem copySystem_fills : Acts Tested Fills copySystem :=
  copySystem_copies.mono (fun _ => Copies.fills)

theorem copyBootFiles_fills (disk : Str) (f : Found) :
    Acts Tested Fills (copyBootFiles disk f) :=
  (copyBootFiles_copies disk f).mono (fun _ => Copies.fills)

theorem writeRescueIf_fills (initrd : Option Path) :
    Acts Tested Fills (writeRescueIf initrd) := by
  cases initrd with
  | none => trivial
  | some p =>
      exact acts_bind (fills_cmd rfl rfl) (fun _ => acts_bind (fills_cmd rfl rfl) (fun _ =>
        acts_bind (fills_cmd rfl rfl) (fun _ => fills_cmd rfl rfl)))

theorem writePasswd_fills (user : Str) : Acts Tested Fills (writePasswd user) :=
  acts_bind (fills_cmd rfl rfl) (fun _ => acts_bind (fills_cmd rfl rfl) (fun _ =>
    acts_bind (fills_cmd rfl rfl) (fun _ => fills_cmd rfl rfl)))

theorem writeUserShadow_fills (a : Accounts) : Acts Tested Fills (writeUserShadow a) :=
  acts_bind (fills_cmd rfl rfl) (fun _ => fills_cmd rfl rfl)

theorem writeGroup_concludes (user : Str) : Acts Tested Concludes (writeGroup user) := by
  refine acts_bind (acts_cmd (Or.inr rfl)) (fun _ => ?_)
  refine acts_bind (acts_capture trivial) (fun _ => ?_)
  refine acts_bind (acts_forEach (fun _ _ => acts_cmd (Or.inr rfl))) (fun _ => ?_)
  exact acts_bind (acts_cmd trivial) (fun _ => acts_cmd ⟨rfl, rfl⟩)

theorem finish_concludes (disk pu user : Str) : Acts Tested Concludes (finish disk pu user) := by
  have hcmd : ∀ {a : Act}, Concludes a → Acts Tested Concludes (cmd a) := fun h => acts_cmd h
  refine acts_bind (hcmd trivial) (fun _ => acts_bind (hcmd trivial) (fun _ => ?_))
  refine acts_bind (hcmd trivial) (fun _ => acts_bind (hcmd trivial) (fun _ => ?_))
  refine acts_bind (hcmd trivial) (fun _ => acts_bind (hcmd trivial) (fun _ => ?_))
  exact hcmd trivial

/-- Everything behind root's record of the shadow file. -/
theorem afterShadow_concludes (disk pu : Str) (a : Accounts) :
    Acts Tested Concludes (do
      writeUserShadow a
      writeGroup a.user
      finish disk pu a.user) := by
  refine acts_bind ?_ (fun _ => acts_bind (writeGroup_concludes a.user) (fun _ =>
    finish_concludes disk pu a.user))
  exact acts_bind (acts_cmd (Or.inl ⟨rfl, rfl⟩)) (fun _ => acts_cmd trivial)

/-! ## A machine to install on

One disk, `/dev/sda`, a live system with the files the installer needs, and a
CD-ROM that may hold a rescue initramfs. -/

def sampleHash : Hash := ⟨"$6$h".toList, by decide, by decide, by decide⟩

/-- A command that succeeds, with no signal. -/
def succeeds : Decision := ⟨false, none, false, sampleHash, Disk.Dump.sampleTable⟩

def sampleFiles : List (Path × Node) :=
  [([], newDir), (["tmp".toList], newDir), (["mnt".toList], newDir), (["bin".toList], newDir),
    (["bin".toList, "doas".toList], newFile []), (["etc".toList], newDir),
    (["etc".toList, "passwd".toList], newFile "root::0:0:root:/root:/bin/sh\n".toList),
    (["etc".toList, "shadow".toList], newFile "root::0:0:99999:7:::\n".toList),
    (["etc".toList, "group".toList], newFile "root:x:0:\nwheel:x:10:\n".toList),
    (["lib".toList], newDir), (["lib".toList, "limine".toList], newDir), (limineEfi, newFile []),
    (["boot".toList], newDir), (bootKernel, newFile [])]

/-- The volume with these files. -/
def volOf (files : List (Path × Node)) : Vol :=
  fun p => (files.find? (fun x => x.1 == p)).map Prod.snd

/-- The rescue medium. -/
def sampleMedium : Vol := volOf [([], newDir), (["initramfs.cpio.gz".toList], newFile [])]

/-- The machine before the installer is started. -/
def sampleWorld (cdrom : Option Vol) : World where
  disks := [Disk.Dump.sampleName]
  nodes := [devPath "sda".toList, devPath "sr0".toList]
  vols := fun i =>
    if i = .live then some (volOf sampleFiles)
    else if i = .dev (devPath "sr0".toList) .iso9660 then cdrom
    else none
  mounts := []
  held := []
  trap := none
  layout := none
  tty := true
  echo := true
  interrupted := false
  out := []

def sampleSysdevs : List SysDev := [⟨"/sys/block/sr0".toList, true⟩]

def sampleAnswers : List Str :=
  ["y".toList, "rootpass".toList, "rootpass".toList, "ada".toList, "adaspass".toList,
    "adaspass".toList]

/-- A run on the sample machine. -/
def sampleRun (O : Nat → Act → Decision) (cdrom : Option Vol) (answers : List Str) :
    Run World Act Decision Unit :=
  runScript machine O (slinuxInstall [devPath "sda".toList] sampleSysdevs answers)
    (sampleWorld cdrom)

end Slinux.Installer.Script
