import Slinux.Installer.Script
import Slinux.InstallSh.System

/-!
# `install.sh`

The script, line by line, as a command tree; the numbers in the comments are
line numbers of `install.sh`.

Parameters of the script are its arguments, the directory it lies in, the files
that `find` lists as set-user or set-group (paths below `rootfs`, as long as the
shell's word splitting leaves them in one piece), and the lines typed in.

`askpass` is called in front of `&&`, which switches `set -e` off inside it: of
its commands only the two `read` can end the script.
-/

namespace Slinux.InstallSh.Script

open Slinux.Shell.Text
open Slinux.Shell.Glob
open Slinux.Shell.Script
open Slinux.Unix.Files
open Slinux.Disk.Name
open Slinux.Installer.Accounts
open Slinux.Installer.Bootloader
open Slinux.Installer.Script (volOf sampleHash)
open Slinux.InstallSh.System

/-! ## Paths -/

/-- A path of the source tree. -/
def rootfs (root : Path) (rel : List Str) : Path := root ++ "rootfs".toList :: rel

def bzImage (root : Path) : Path :=
  root ++ ["kernel".toList, "linux".toList, "arch".toList, "x86".toList, "boot".toList,
    "bzImage".toList]

def limineEfi (root : Path) : Path :=
  rootfs root ["lib".toList, "limine".toList, "BOOTX64.EFI".toList]

def initramfs (root : Path) : Path := root ++ ["slinux.cpio.gz".toList]

/-- A file of the target's `/etc`. -/
def etc (file : Str) : List Str := ["etc".toList, file]

def espBoot : List Str := ["EFI".toList, "BOOT".toList]

/-! ## Preparations (lines 11 to 56) -/

/-- `[ test ] || { echo message; exit 1; }`. -/
def require (test : Act) (message : Str) : Prog Act Unit := do
  if ← tested test then pure ()
  else do
    cmd (.say message)
    .exit 1

/-- `case "$TARGET" in /dev/*)`. -/
def isDevice (target : Str) : Bool := caseArm [lits devDir ++ [.star]] target

/-- The here-document of line 23. -/
def sfdiskScript : Str :=
  "label: gpt\nname=\"esp\", size=64MiB, type=uefi\nname=\"root\", type=linux\n".toList

/-- Lines 40 to 46: `PARTS`. -/
def findParts (target : Str) : Prog Act Str := do
  if isDevice target then pure (diskP target)
  else do
    let loop ← capture (.losetup target)
    pure (loop ++ ['p'])

/-- `"$PARTS"n`. -/
def part (parts : Str) (n : Nat) : Str := parts ++ decimal n

/-- Lines 15 to 18. -/
def sizeImage (target size : Str) : Prog Act Unit :=
  if isDevice target then pure () else cmd (.truncate size target)

/-- Lines 15 to 27. -/
def partition (target size : Str) : Prog Act Unit := do
  sizeImage target size
  cmd (.say ("partitioning ".toList ++ target ++ " (gpt: esp + root)".toList))
  cmd (.sfdisk target sfdiskScript)

/-- Lines 48 to 51: `ROOTUUID`. -/
def makeFilesystems (parts : Str) : Prog Act Str := do
  cmd (.say "creating filesystems".toList)
  cmd (.mkfsVfat (part parts 1))
  cmd (.mkfsExt4 (part parts 2))
  capture (.blkid (part parts 2))

/-- Lines 53 to 56. -/
def mountTarget (parts : Str) : Prog Act Unit := do
  cmd (.mktemp .root)
  cmd (.mktemp .esp)
  cmd (.mount (part parts 2) .root)
  cmd (.mount (part parts 1) .esp)

/-! ## The system (lines 58 to 69) -/

/-- Lines 65 to 69. -/
def restoreSetids (setids : List Path) : Prog Act Unit :=
  forEach (fun f => cmd (.chmodSetids .root f)) setids

/-- Lines 58 to 69. -/
def copySystem (root : Path) (setids : List Path) : Prog Act Unit := do
  cmd (.say "copying rootfs".toList)
  cmd (.cpA (rootfs root []) .root)
  cmd (.chownR .root)
  restoreSetids setids
  cmd (.touch .root [".slinux-installed".toList])

/-! ## Accounts (lines 71 to 106) -/

/-- A command whose status nobody looks at. -/
def attempt (a : Act) : Prog Act Unit := .step a (fun _ => .ret ())

/-- A prompt of `askpass`, with its line. -/
def promptHidden (text : Str) (line : Option Str) : Prog Act Str := do
  attempt (.say text)
  attempt (.stty false)
  let p ← captureOrExit 1 (.readLine line)
  attempt (.stty true)
  attempt (.say "\n".toList)
  pure p

/-- `[ -n "${_p1:-}" ] && [ "${_p1}" = "${_p2}" ]`. -/
def samePass (p₁ p₂ : Str) : Bool := p₁ != [] && p₁ == p₂

/-- `askpass`: `ASKPASS_RESULT`, and the lines that are left. -/
def askpass (who : Str) : List Str → Prog Act (Str × List Str)
  | [] => do
      let _ ← promptHidden (who ++ " password: ".toList) none
      .exit 1
  | [l] => do
      let _ ← promptHidden (who ++ " password: ".toList) (some l)
      let _ ← promptHidden "repeat: ".toList none
      .exit 1
  | l₁ :: l₂ :: answers => do
      let p₁ ← promptHidden (who ++ " password: ".toList) (some l₁)
      let p₂ ← promptHidden "repeat: ".toList (some l₂)
      if samePass p₁ p₂ then pure (p₁, answers)
      else do
        attempt (.say "password empty or mismatched, try again".toList)
        askpass who answers

/-- `IFS= read -r NEWUSER || { echo; exit 1; }`. -/
def readUser (line : Option Str) : Prog Act Str :=
  .step (.readLine line) (fun r =>
    if r.status = 0 then .ret r.out
    else do
      cmd (.say "\n".toList)
      .exit 1)

/-- Lines 95 to 103: `NEWUSER`, and the lines that are left. -/
def askUser : List Str → Prog Act (Str × List Str)
  | [] => do
      cmd (.say "username: ".toList)
      let _ ← readUser none
      .exit 1
  | l :: answers => do
      cmd (.say "username: ".toList)
      let user ← readUser (some l)
      if acceptsUser user then pure (user, answers)
      else do
        cmd (.say "invalid username (lowercase letters, digits, _, -)".toList)
        askUser answers

/-- `NEWUSER`, `ROOTHASH` and `USERHASH`. -/
structure Accounts where
  newuser : Str
  roothash : Str
  userhash : Str

/-- Lines 71 to 106. -/
def askAccounts (answers : List Str) : Prog Act Accounts := do
  cmd (.say "configuring users".toList)
  require .haveOpenssl "error: openssl missing".toList
  let (user, answers) ← askUser answers
  let (pw, answers) ← askpass rootName answers
  let roothash ← capture (.openssl pw)
  let (pw, _) ← askpass user answers
  let userhash ← capture (.openssl pw)
  pure ⟨user, roothash, userhash⟩

/-! ## Account files (lines 108 to 121) -/

/-- `printf '%s:%s:0:0:99999:7:::\n'`. -/
def shadowRecord (name hash : Str) : Str :=
  name ++ ":".toList ++ hash ++ ":0:0:99999:7:::\n".toList

/-- What line 113 prints. -/
def shadowFile (a : Accounts) : Str :=
  shadowRecord rootName a.roothash ++ shadowRecord a.newuser a.userhash

/-- The components of `home/$NEWUSER`. -/
def home (user : Str) : List Str := "home".toList :: user.splitOn '/'

/-- Lines 108 to 121. -/
def writeAccounts (a : Accounts) : Prog Act Unit := do
  cmd (.sed .rootX .root (etc "passwd".toList))
  cmd (.tee true .root (etc "passwd".toList) (userPasswd a.newuser))
  cmd (.tee false .root (etc "shadow".toList) (shadowFile a))
  cmd (.chmod 0o600 .root (etc "shadow".toList))
  cmd (.sed (.join "wheel".toList "10".toList a.newuser) .root (etc "group".toList))
  cmd (.sed (.join "users".toList "100".toList a.newuser) .root (etc "group".toList))
  cmd (.mkdirP .root (home a.newuser))
  cmd (.chown 1000 100 .root (home a.newuser))
  cmd (.say ("user ".toList ++ a.newuser ++ " created (member of wheel)".toList))

/-! ## The boot loader (lines 123 to 146) -/

/-- The entry without a real root, which this script always writes. -/
def rescueEntry : Str :=
  ("\n/slinux rescue\n    protocol: linux\n    path: boot():/vmlinuz\n" ++
    "    cmdline: console=ttyS0\n    module_path: boot():/initramfs.cpio.gz\n").toList

/-- The here-document of line 130. -/
def limineConf (rootuuid : Str) : Str := normalHead ++ cmdlineEntry rootuuid ++ rescueEntry

/-- Lines 123 to 143. -/
def installLoader (root : Path) (rootuuid : Str) : Prog Act Unit := do
  cmd (.say "installing limine and kernel".toList)
  cmd (.mkdirP .esp espBoot)
  cmd (.cp (limineEfi root) .esp (espBoot ++ ["BOOTX64.EFI".toList]))
  cmd (.cp (bzImage root) .esp ["vmlinuz".toList])
  cmd (.cp (initramfs root) .esp ["initramfs.cpio.gz".toList])
  cmd (.tee false .esp (espBoot ++ ["limine.conf".toList]) (limineConf rootuuid))

/-! ## The whole script -/

/-- Lines 58 to 146, with everything mounted. -/
def fill (root : Path) (setids : List Path) (target rootuuid : Str) (answers : List Str) :
    Prog Act Unit := do
  copySystem root setids
  let a ← askAccounts answers
  writeAccounts a
  installLoader root rootuuid
  cmd .sync
  cmd (.say ("done: slinux installed on ".toList ++ target))

/-- Lines 40 to 146, under the trap. -/
def build (root : Path) (setids : List Path) (target : Str) (answers : List Str) :
    Prog Act Unit := do
  let parts ← findParts target
  let rootuuid ← makeFilesystems parts
  mountTarget parts
  fill root setids target rootuuid answers

/-- Lines 11 to 146. -/
def install (root : Path) (setids : List Path) (target size : Str) (answers : List Str) :
    Prog Act Unit := do
  require (.isDir (rootfs root ["bin".toList])) "error: run make rootfs first".toList
  require (.isFile (bzImage root)) "error: build the kernel first".toList
  require (.isFile (limineEfi root)) "error: limine uefi missing, rebuild rootfs".toList
  partition target size
  cmd .trapCleanup
  build root setids target answers

/-- `install.sh <image-file|block-device> [size-mib]`.  `${1:?}` and `${2:-256}`
treat an empty argument like a missing one. -/
def installSh (args : List Str) (root : Path) (setids : List Path) (answers : List Str) :
    Prog Act Unit :=
  if args.head?.getD [] = [] then do
    cmd (.say "usage: install.sh <image-file|block-device> [size-mib]".toList)
    .exit 2
  else
    install root setids (args.head?.getD [])
      (if args.tail.head?.getD [] = [] then "256".toList else args.tail.head?.getD []) answers

/-! ## A tree to install from

A source tree at `/src`, and an image file to make. -/

def sampleTree : List (Path × Node) :=
  [[], ["src"], ["src", "rootfs"], ["src", "rootfs", "bin"], ["src", "rootfs", "etc"],
    ["src", "rootfs", "lib"], ["src", "rootfs", "lib", "limine"], ["src", "kernel"],
    ["src", "kernel", "linux"], ["src", "kernel", "linux", "arch"],
    ["src", "kernel", "linux", "arch", "x86"],
    ["src", "kernel", "linux", "arch", "x86", "boot"], ["tmp"]].map
      (fun p => (p.map String.toList, newDir)) ++
  [(rootfs ["src".toList] (etc "passwd".toList), newFile "root::0:0:root:/root:/bin/sh\n".toList),
    (rootfs ["src".toList] (etc "group".toList), newFile "wheel::10:\nusers::100:\n".toList),
    (rootfs ["src".toList] ["bin".toList, "doas".toList], ⟨.file [], 0o4755, 1000, 1000⟩),
    (limineEfi ["src".toList], newFile "limine".toList),
    (bzImage ["src".toList], newFile "kernel".toList),
    (initramfs ["src".toList], newFile "initramfs".toList)]

def sampleHost : Host where
  disks := []
  nodes := []
  vols := fun i => if i = .live then some (volOf sampleTree) else none
  mounts := []
  held := []
  trap := none
  layout := none
  tty := true
  echo := true
  interrupted := false
  out := []
  loops := []
  image := none
  tmp := ["tmp".toList]
  owner := (1000, 1000)
  loop := []
  rootmnt := none
  espmnt := none
  trapped := false

/-- A command that succeeds, with no signal. -/
def succeeds (temp : Str) : Decision where
  fails := false
  signal := none
  layout := Disk.Dump.sampleTable
  loop := ⟨"loop0".toList, by decide, List.all_eq_true.mp (by decide)⟩
  temp := temp
  partuuid := "f00d-02".toList
  hash := sampleHash
  edited := []
  refuses := fun _ => false
  entries := []

/-- Commands that succeed, but for those that `broken` names. -/
def sampleDecide (broken : Act → Bool) (a : Act) : Decision :=
  match a with
  | .mktemp .root => { succeeds "a".toList with fails := broken a }
  | a => { succeeds "b".toList with fails := broken a }

def sampleAnswers : List Str :=
  ["ada".toList, "rootpass".toList, "rootpass".toList, "adaspass".toList, "adaspass".toList]

/-- A run that makes an image. -/
def sampleRun (broken : Act → Bool) : Run Host Act Decision Unit :=
  runScript machine (fun _ => sampleDecide broken)
    (installSh ["slinux.img".toList] ["src".toList] [["bin".toList, "doas".toList]] sampleAnswers)
    sampleHost

end Slinux.InstallSh.Script
