import Slinux.Installer.System

/-!
# What `install.sh` acts on

`install.sh` builds a disk image, or fills a block device, from the tree that
`make` has left on the build host.  Its commands are those of a full system
rather than those of the live image: `losetup`, `mktemp`, `blkid`, `sed -i`,
`tee`, `openssl`, most of them run through `doas`.

The state is that of the running system, as for the other installer, with what
this script has beside it: the loop devices, the shell variables that its
`cleanup` looks at, and whether `cleanup` is set as trap.  The two temporary
directories are addressed through these variables, as in the source; where one
is mounted, a path below it leads to the new file system, and where it is not,
to the host's own.

## Main definitions

* `Host`, `Act`, `Decision` — states, commands, and how a command turns out.
* `cleanup` — the trap, which stops at the first of its commands that fails.
* `machine` — the machine of `install.sh`.
-/

namespace Slinux.InstallSh.System

open Slinux.Shell.Text
open Slinux.Shell.Regex
open Slinux.Shell.Script
open Slinux.Unix.Files
open Slinux.Disk.Name
open Slinux.Disk.Dump
open Slinux.Installer.System

/-! ## Editing lines -/

/-- `s/^P/R/` on one line, where `R` is plain text. -/
def sedStart (p : Bre) (r line : Str) : Str :=
  match longest (splits p line) with
  | some m => r ++ line.drop (total m)
  | none => line

/-- `sed` on a whole text: newlines stay where they are, and a text that ends
in one has no further line. -/
def sedText (f : Str → Str) (text : Str) : Str := ['\n'].intercalate ((text.splitOn '\n').map f)

/-- The two scripts given to `sed -i`. -/
inductive SedScript where
  /-- `s/^root:[^:]*:/root:x:/`. -/
  | rootX
  /-- `s/^group::gid:/group::gid:user/`. -/
  | join (group gid user : Str)
  deriving Repr, DecidableEq

/-- `root:[^:]*:`. -/
def rootField : Bre := litItems "root:".toList ++ [.many (.noneOf [':']), .one (.lit ':')]

/-- What both sides of the second script begin with. -/
def groupKey (group gid : Str) : Str := group ++ "::".toList ++ gid ++ ":".toList

/-- Characters with a meaning in the replacement of an `s` command. -/
def plainReplacement (s : Str) : Bool := s.all (fun c => c != '/' && c != '&' && c != '\\')

/-! ## States -/

/-- The variables `ROOTMNT` and `ESPMNT`. -/
inductive Dir where
  | root
  | esp
  deriving Repr, DecidableEq

structure Host extends World where
  /-- The loop devices in use. -/
  loops : List Str
  /-- The image file, once `truncate` has made it. -/
  image : Option Str
  /-- The directory `mktemp` works in. -/
  tmp : Path
  /-- Who runs the script. -/
  owner : Nat × Nat
  /-- `LOOP`, empty until a device is attached. -/
  loop : Str
  rootmnt : Option Path
  espmnt : Option Path
  /-- `cleanup` is set for `EXIT`, `INT` and `TERM`. -/
  trapped : Bool

/-- How one command turns out. -/
structure Decision where
  fails : Bool
  /-- A signal that arrives while the command runs. -/
  signal : Option Signal
  /-- The table `sfdisk` writes. -/
  layout : Layout
  /-- The device `losetup -f` finds. -/
  loop : DevName
  /-- The name `mktemp` makes up. -/
  temp : Str
  /-- What `blkid` prints. -/
  partuuid : Str
  /-- What `openssl passwd` prints. -/
  hash : Hash
  /-- What `sed` makes of a file where the user name is not plain text to it. -/
  edited : Str
  /-- The commands of `cleanup` that fail for a reason of their own. -/
  refuses : Nat → Bool
  /-- The entries `rmdir` finds in a directory. -/
  entries : List Str

/-- The commands of `install.sh`.  A path below one of the two temporary
directories is given by the variable and the components behind it. -/
inductive Act where
  | say (text : Str)
  | isDir (p : Path)
  | isFile (p : Path)
  | haveOpenssl
  | truncate (size target : Str)
  | sfdisk (target script : Str)
  | trapCleanup
  | losetup (target : Str)
  | mkfsVfat (dev : Str)
  | mkfsExt4 (dev : Str)
  | blkid (dev : Str)
  | mktemp (m : Dir)
  | mount (dev : Str) (m : Dir)
  | cpA (src : Path) (m : Dir)
  | chownR (m : Dir)
  | chmodSetids (m : Dir) (rel : List Str)
  | touch (m : Dir) (rel : List Str)
  | stty (echo : Bool)
  | readLine (line : Option Str)
  | openssl (pw : Str)
  | sed (script : SedScript) (m : Dir) (rel : List Str)
  | tee (append : Bool) (m : Dir) (rel : List Str) (text : Str)
  | chmod (mode : BitVec 12) (m : Dir) (rel : List Str)
  | mkdirP (m : Dir) (rel : List Str)
  | chown (uid gid : Nat) (m : Dir) (rel : List Str)
  | cp (src : Path) (m : Dir) (rel : List Str)
  | sync
  | cleanup

/-- The value of one of the two variables. -/
def Host.var (w : Host) : Dir → Option Path
  | .root => w.rootmnt
  | .esp => w.espmnt

def Host.setVar (w : Host) (m : Dir) (p : Path) : Host :=
  match m with
  | .root => { w with rootmnt := some p }
  | .esp => { w with espmnt := some p }

/-- `"$M"/rel`. -/
def Host.path (w : Host) (m : Dir) (rel : List Str) : Path := rel.foldl walk ((w.var m).getD [])

/-- A change of the running system. -/
def Host.lift (w : Host) (f : World → World) : Host := { w with toWorld := f w.toWorld }

/-! ## Commands -/

/-- The type of the file system on a device. -/
def fsOn (w : World) (dev : Str) : Option Fs :=
  [Fs.ext4, .vfat, .iso9660].find? (fun fs => (w.vols (.dev dev fs)).isSome)

/-- `cp -a src/. dst/`: the tree at `src` over the one at `dst`. -/
def copyInto (w : World) (src dst : Path) : World :=
  let at_ := (w.locate dst).2
  w.onVol (w.locate dst).1 (fun v q =>
    if at_.isPrefixOf q then (w.node (src ++ q.drop at_.length)).or (v q) else v q)

/-- What `sed` makes of a text. -/
def SedScript.edit (d : Decision) : SedScript → Str → Str
  | .rootX, text => sedText (sedStart rootField "root:x:".toList) text
  | .join group gid user, text =>
      if plainReplacement user then
        sedText (sedStart (litItems (groupKey group gid)) (groupKey group gid ++ user)) text
      else d.edited

/-- A loop device for the image, with the partitions of its table. -/
def Host.attach (w : Host) (name : DevName) : Host :=
  let parts := if w.layout.isSome then partNodes name else []
  { w with
    loop := devPath name.text
    loops := devPath name.text :: w.loops
    toWorld :=
      { w.toWorld with
        disks := name :: w.disks
        nodes := w.nodes ++ devPath name.text :: parts
        vols := fun i =>
          match i with
          | .live => w.vols .live
          | .dev node fs => if node ∈ parts then none else w.vols (.dev node fs) } }

/-- Builtins that cannot be kept from succeeding. -/
def Act.certain : Act → Bool
  | .isDir _ | .isFile _ | .trapCleanup => true
  | _ => false

/-- The output and the new state of a command that is not kept from
succeeding; `none` if it fails for lack of an operand. -/
def perform (d : Decision) (a : Act) (w : Host) : Option (Str × Host) :=
  match a with
  | .say text => some ([], w.lift (fun v => { v with out := text :: v.out }))
  | .isDir p => if w.isDir p then some ([], w) else none
  | .isFile p => if w.isFile p then some ([], w) else none
  | .haveOpenssl | .sync => some ([], w)
  | .truncate _ target => some ([], { w with image := some target })
  | .sfdisk target _ =>
      if target ∈ w.nodes ∨ w.image = some target then
        some ([], w.lift (fun v => v.partition target d.layout))
      else none
  | .trapCleanup => some ([], { w with trapped := true })
  | .losetup target =>
      if w.image = some target ∧ devPath d.loop.text ∉ w.loops then
        some (devPath d.loop.text, w.attach d.loop)
      else none
  | .mkfsVfat dev => if dev ∈ w.nodes then some ([], w.lift (fun v => v.format dev .vfat)) else none
  | .mkfsExt4 dev => if dev ∈ w.nodes then some ([], w.lift (fun v => v.format dev .ext4)) else none
  | .blkid dev => if dev ∈ w.nodes then some (d.partuuid, w) else none
  | .mktemp m =>
      let p := w.tmp ++ [d.temp]
      if w.isDir w.tmp && (w.node p).isNone && !(points w.mounts).any p.isPrefixOf then
        some ([], (w.lift (fun v => v.put p ⟨.dir, 0o700, w.owner.1, w.owner.2⟩)).setVar m p)
      else none
  | .mount dev m =>
      if w.isDir (w.path m []) then
        (fsOn w.toWorld dev).map (fun fs =>
          ([], w.lift (fun v => { v with mounts := ⟨w.path m [], .dev dev fs⟩ :: v.mounts })))
      else none
  | .cpA src m =>
      if w.isDir src && w.isDir (w.path m []) then
        some ([], w.lift (fun v => copyInto v src (w.path m [])))
      else none
  | .chownR m =>
      if w.isDir (w.path m []) then some ([], w.lift (fun v => v.chownTree (w.path m []))) else none
  | .chmodSetids m rel =>
      (w.node (w.path m rel)).map (fun n =>
        ([], w.lift (fun v => v.put (w.path m rel) (n.chmod (fun b => b ||| 0o6000)))))
  | .touch m rel =>
      if (w.node (w.path m rel)).isSome then some ([], w)
      else if w.canWrite (w.path m rel) then
        some ([], w.lift (fun v => v.put (w.path m rel) (newFile [])))
      else none
  | .stty echo => if w.tty then some ([], w.lift (fun v => { v with echo := echo })) else none
  | .readLine line => line.map (fun l => (l, w))
  | .openssl _ => some (d.hash.text, w)
  | .sed script m rel =>
      if w.isFile (w.path m rel) && w.canWrite (w.path m rel) then
        some ([], w.lift (fun v => v.store (w.path m rel)
          (script.edit d (w.text (w.path m rel)))))
      else none
  | .tee append m rel text =>
      if w.canWrite (w.path m rel) then
        some ([], w.lift (fun v => v.store (w.path m rel)
          ((if append then w.text (w.path m rel) else []) ++ text)))
      else none
  | .chmod mode m rel =>
      (w.node (w.path m rel)).map (fun n =>
        ([], w.lift (fun v => v.put (w.path m rel) (n.chmod (fun _ => mode)))))
  | .mkdirP m rel =>
      ((rel.inits.map (w.path m)).foldlM World.mkdir w.toWorld).map
        (fun v => ([], w.lift (fun _ => v)))
  | .chown uid gid m rel =>
      (w.node (w.path m rel)).map (fun n =>
        ([], w.lift (fun v => v.put (w.path m rel) (n.chown uid gid))))
  | .cp src m rel =>
      if w.isFile src && w.canWrite (w.path m rel) then
        some ([], w.lift (fun v => v.store (w.path m rel) (w.text src)))
      else none
  | .cleanup => none

/-! ## The trap -/

/-- `[ -n "$M" ] && doas umount "$M"`; `none` where `set -e` ends it. -/
def umountDir (refused : Bool) (m : Dir) (w : Host) : Option Host :=
  match w.var m with
  | none => some w
  | some p =>
      if !refused && canUmount w.held p (points w.mounts) then
        some (w.lift (fun v => { v with mounts := umountOne v.held p v.mounts }))
      else none

/-- `[ -n "$LOOP" ] && doas losetup -d "$LOOP"`. -/
def detach (refused : Bool) (w : Host) : Option Host :=
  if w.loop = [] then some w
  else if !refused && w.loops.contains w.loop then
    some { w with
      loops := w.loops.erase w.loop
      toWorld :=
        { w.toWorld with
          nodes := w.nodes.filter (fun n => n != w.loop && !(w.newNodes w.loop).contains n) } }
  else none

/-- `rmdir` of one directory. -/
def rmdirOne (entries : List Str) (p : Path) (w : Host) : Option Host :=
  if w.isDir p && !mountedOn p (points w.mounts)
      && entries.all (fun c => (w.node (p ++ [c])).isNone) then
    some (w.lift (fun v => v.remove p))
  else none

/-- `[ -n "$ESPMNT" ] && rmdir "$ESPMNT" "$ROOTMNT"`, whose status is that of
`cleanup`. -/
def removeDirs (d : Decision) (w : Host) : Resp × Host :=
  match w.espmnt with
  | none => (failed, w)
  | some p =>
      if d.refuses 3 then (failed, w)
      else
        let first := rmdirOne d.entries p w
        let second := rmdirOne d.entries (w.rootmnt.getD []) (first.getD w)
        (if first.isSome && second.isSome then ⟨0, []⟩ else failed, second.getD (first.getD w))

/-- `cleanup`. -/
def cleanup (d : Decision) (w : Host) : Resp × Host :=
  match umountDir (d.refuses 0) .esp w with
  | none => (failed, w)
  | some w₁ =>
      match umountDir (d.refuses 1) .root w₁ with
      | none => (failed, w₁)
      | some w₂ =>
          match detach (d.refuses 2) w₂ with
          | none => (failed, w₂)
          | some w₃ => removeDirs d w₃

/-! ## The machine -/

/-- The effect of a command. -/
def exec (d : Decision) (a : Act) (w : Host) : Resp × Host :=
  match a with
  | .cleanup => cleanup d w
  | a =>
      if d.fails && !a.certain then (failed, w)
      else
        match perform d a w with
        | some (out, w') => (⟨0, out⟩, w')
        | none => (failed, w)

/-- The machine of `install.sh`. -/
def machine : Machine Host Act Decision where
  exec := exec
  signal := Decision.signal
  trap := fun w => if w.trapped then some .cleanup else none
  interrupt := fun w => w.lift (fun v => { v with interrupted := true })
  unwind := id

end Slinux.InstallSh.System
