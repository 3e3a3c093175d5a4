import Slinux.Disk.Dump
import Slinux.Installer.Bootloader
import Slinux.Shell.Script
import Slinux.Unix.Files

/-!
# What the installer acts on

The state `slinux-install` runs in, and the effect of every command it calls.
The state holds what the script can tell apart: device nodes, volumes and
where they are mounted, the partition table it has written, the trap in force,
the files its compound commands hold open, the terminal, and what has been
printed.

A command succeeds only if its operands exist, and even then only if the
environment lets it: the `Decision` of the step may make it fail.  A command
that fails changes nothing, with two exceptions that the script depends on.
`umount` with several operands keeps what it has unmounted before the operand
that failed, and a `getpass` killed by an interrupt does not restore the
terminal's echo.  Tests (`[ -f ]`, `[ -d ]`) and `trap` do what they say.

## Main definitions

* `World`, `Act`, `Decision` — states, commands, and how a command turns out.
* `exec` — the effect of a command.
* `machine` — the installer's machine: its traps are lists of `umount`
  operands.
-/

namespace Slinux.Installer.System

open Slinux.Shell.Text
open Slinux.Shell.Script
open Slinux.Unix.Files
open Slinux.Disk.Name
open Slinux.Disk.Dump
open Slinux.Installer.Bootloader

/-! ## States -/

/-- The file system types the installer mounts. -/
inductive Fs where
  | iso9660
  | vfat
  | ext4
  deriving Repr, DecidableEq

/-- The running system's own file system, or the one of a type on a device. -/
inductive VolId where
  | live
  | dev (node : Str) (fs : Fs)
  deriving Repr, DecidableEq

structure World where
  /-- The whole disks of the machine. -/
  disks : List DevName
  /-- The block device nodes under `/dev`. -/
  nodes : List Str
  vols : VolId → Option Vol
  /-- The mount table, latest first. -/
  mounts : List (Mount VolId)
  /-- The files held open by compound commands. -/
  held : List Path
  /-- The operands of the `umount` that is set as trap. -/
  trap : Option (List Path)
  /-- The partition table written by this run. -/
  layout : Option Layout
  /-- Standard input is a terminal. -/
  tty : Bool
  echo : Bool
  /-- The cleanup action has been run for a signal. -/
  interrupted : Bool
  /-- What has been printed, latest first. -/
  out : List Str

/-- The output of `cryptpw`. -/
structure Hash where
  text : Str
  ne : text ≠ []
  noColon : ':' ∉ text
  oneLine : '\n' ∉ text

/-- How one command turns out. -/
structure Decision where
  fails : Bool
  /-- A signal that arrives while the command runs. -/
  signal : Option Signal
  /-- An interrupt reaches `getpass` while echo is off. -/
  midRead : Bool
  /-- What `cryptpw` prints. -/
  hash : Hash
  /-- The table `sfdisk` writes. -/
  layout : Layout

/-- The commands of `slinux-install`.  A prompt carries the line it is
answered with, `none` at the end of the input. -/
inductive Act where
  | say (text : Str)
  | readLine (line : Option Str)
  | isFile (p : Path)
  | isDir (p : Path)
  | isBlock (node : Str)
  | sleep
  | mkdirP (routes : List (List Str))
  | mount (fs : Fs) (ro : Bool) (dev : Str) (point : Path)
  | umount (ps : List Path)
  | setTrap (ps : Option (List Path))
  | sfdisk (disk : Str) (script : Str)
  | readPU (disk : Str)
  | mkfsFat (dev : Str)
  | mke2fs (dev : Str)
  | cpA (src : Str) (dst : Path)
  | cp (src dst : Path)
  | chownR (p : Path)
  | chown (uid gid : Nat) (route : List Str)
  | chmodSetuid (p : Path)
  | chmod (mode : BitVec 12) (p : Path)
  | touch (p : Path)
  | getpass (prompt : Str) (line : Option Str)
  | cryptpw (pw : Str)
  | write (append : Bool) (p : Path) (text : Str)
  | openOut (p : Path)
  | openIn (p : Path)
  | close
  | mv (src dst : Path)
  | sync

/-! ## Files -/

def World.locate (w : World) (p : Path) : VolId × Path := resolve .live w.mounts p

def World.node (w : World) (p : Path) : Option Node :=
  (w.vols (w.locate p).1).bind (fun v => v (w.locate p).2)

/-- `[ -d p ]`. -/
def World.isDir (w : World) (p : Path) : Bool :=
  match w.node p with
  | some n => n.kind == .dir
  | none => false

/-- `[ -f p ]`. -/
def World.isFile (w : World) (p : Path) : Bool :=
  match w.node p with
  | some n => n.data?.isSome
  | none => false

/-- A file can be written at `p`: its directory is there and it is not a
directory itself. -/
def World.canWrite (w : World) (p : Path) : Bool := w.isDir p.dropLast && !w.isDir p

/-- A change to one volume. -/
def World.onVol (w : World) (id : VolId) (f : Vol → Vol) : World :=
  { w with vols := fun i => if i = id then (w.vols i).map f else w.vols i }

def World.put (w : World) (p : Path) (n : Node) : World :=
  w.onVol (w.locate p).1 (fun v => v.put (w.locate p).2 n)

def World.remove (w : World) (p : Path) : World :=
  w.onVol (w.locate p).1 (fun v => v.remove (w.locate p).2)

/-- The text of the file at `p`, empty if there is none. -/
def World.text (w : World) (p : Path) : Str := ((w.node p).bind Node.data?).getD []

/-- Write a text to the file at `p`, which keeps its mode and owner if it is
there already. -/
def World.store (w : World) (p : Path) (text : Str) : World :=
  w.put p (((w.node p).getD (newFile [])).withData text)

/-- `mkdir` without complaint about an existing directory. -/
def World.mkdir (w : World) (p : Path) : Option World :=
  if w.isDir p then some w
  else if w.canWrite p && (w.node p).isNone then some (w.put p newDir)
  else none

/-- `mkdir -p` of one path: every directory on the way, outermost first. -/
def World.mkdirRoute (w : World) (route : List Str) : Option World :=
  (route.inits.map normalize).foldlM World.mkdir w

/-- A recursive copy of the tree at `src` into the directory `dst`, under its
own name. -/
def World.copyTree (w : World) (src : Str) (dst : Path) : World :=
  let at_ := (w.locate (dst ++ [src])).2
  w.onVol (w.locate (dst ++ [src])).1 (fun v q =>
    if at_.isPrefixOf q then (w.node (src :: q.drop at_.length)).or (v q) else v q)

/-- `chown -R 0:0 p`. -/
def World.chownTree (w : World) (p : Path) : World :=
  let at_ := (w.locate p).2
  w.onVol (w.locate p).1 (fun v q =>
    if at_.isPrefixOf q then (v q).map (Node.chown 0 0) else v q)

/-! ## Disks -/

/-- The disk behind a node. -/
def World.diskOf (w : World) (disk : Str) : Option DevName :=
  w.disks.find? (fun n => devPath n.text == disk)

/-- The nodes of the two partitions of a disk. -/
def partNodes (name : DevName) : List Str := [partNode name.text 1, partNode name.text 2]

/-- The nodes that appear when `disk` is partitioned. -/
def World.newNodes (w : World) (disk : Str) : List Str :=
  match w.diskOf disk with
  | some name => partNodes name
  | none => []

/-- The volume is the running system's own, or mounted. -/
def World.inUse (w : World) (i : VolId) : Bool :=
  i == .live || w.mounts.any (fun m => m.vol == i)

/-- A new table does away with the volume: it is on a new partition, or it was
on the disk or one of its old partitions and is not in use. -/
def World.overwrites (w : World) (disk : Str) : VolId → Bool
  | .live => false
  | .dev node fs =>
      (w.newNodes disk).contains node || (isNodeOf disk node && !w.inUse (.dev node fs))

/-- The effect of `sfdisk`: a new table, new nodes, and no file systems but
those that the new table spares. -/
def World.partition (w : World) (disk : Str) (t : Layout) : World :=
  { w with
    layout := some t
    nodes := w.nodes ++ w.newNodes disk
    vols := fun i => if w.overwrites disk i then none else w.vols i }

/-- What `mkfs` makes. -/
def Fs.fresh : Fs → Vol
  | .ext4 => Vol.fresh.put lostFound lostDir
  | _ => Vol.fresh

/-- The effect of `mkfs`: a new file system of this type, and none of another
type. -/
def World.format (w : World) (node : Str) (fs : Fs) : World :=
  { w with vols := fun i =>
      match i with
      | .live => w.vols .live
      | .dev n f =>
          if n = node then (if f = fs then some fs.fresh else none) else w.vols (.dev n f) }

/-- What `sfdisk -d` prints. -/
def World.dump (w : World) (disk : Str) : Str :=
  match w.diskOf disk, w.layout with
  | some name, some t => dumpText (t.lines name)
  | _, _ => []

/-! ## Commands -/

/-- Builtins that cannot be kept from succeeding: tests only report the state,
`trap` and the end of a redirection only change the shell itself. -/
def Act.certain : Act → Bool
  | .isFile _ | .isDir _ | .setTrap _ | .close => true
  | _ => false

/-- The output and the new state of a command that is not kept from
succeeding; `none` if it fails for lack of an operand. -/
def perform (d : Decision) (a : Act) (w : World) : Option (Str × World) :=
  match a with
  | .say text => some ([], { w with out := text :: w.out })
  | .readLine line => line.map (fun l => (l, w))
  | .isFile p => if w.isFile p then some ([], w) else none
  | .isDir p => if w.isDir p then some ([], w) else none
  | .isBlock node => if node ∈ w.nodes then some ([], w) else none
  | .sleep => some ([], w)
  | .mkdirP routes => (routes.foldlM World.mkdirRoute w).map (fun w' => ([], w'))
  | .mount fs _ dev point =>
      if (w.vols (.dev dev fs)).isSome && w.isDir point then
        some ([], { w with mounts := ⟨point, .dev dev fs⟩ :: w.mounts })
      else none
  | .umount _ => none
  | .setTrap ps => some ([], { w with trap := ps })
  | .sfdisk disk _ => if disk ∈ w.nodes then some ([], w.partition disk d.layout) else none
  | .readPU disk => some (extractPU disk (w.dump disk), w)
  | .mkfsFat dev => if dev ∈ w.nodes then some ([], w.format dev .vfat) else none
  | .mke2fs dev => if dev ∈ w.nodes then some ([], w.format dev .ext4) else none
  | .cpA src dst =>
      if w.isDir [src] && w.isDir dst then some ([], w.copyTree src dst) else none
  | .cp src dst =>
      if w.isFile src && w.canWrite dst then some ([], w.store dst (w.text src)) else none
  | .chownR p => if w.isDir p then some ([], w.chownTree p) else none
  | .chown uid gid route =>
      (w.node (normalize route)).map (fun n => ([], w.put (normalize route) (n.chown uid gid)))
  | .chmodSetuid p =>
      (w.node p).map (fun n => ([], w.put p (n.chmod (fun m => m ||| 0o4000))))
  | .chmod mode p => (w.node p).map (fun n => ([], w.put p (n.chmod (fun _ => mode))))
  | .touch p =>
      if (w.node p).isSome then some ([], w)
      else if w.canWrite p then some ([], w.put p (newFile [])) else none
  | .getpass _ line => line.map (fun l => (l, w))
  | .cryptpw _ => some (d.hash.text, w)
  | .write append p text =>
      if w.canWrite p then
        some ([], w.store p ((if append then w.text p else []) ++ text))
      else none
  | .openOut p =>
      if w.canWrite p then some ([], { w.store p [] with held := p :: w.held }) else none
  | .openIn p =>
      if w.isFile p then some (w.text p, { w with held := p :: w.held }) else none
  | .close => some ([], { w with held := w.held.tail })
  | .mv src dst =>
      if w.isFile src && w.canWrite dst then
        (w.node src).map (fun n => ([], (w.put dst n).remove src))
      else none
  | .sync => some ([], w)

/-- The response of a command that failed. -/
def failed : Resp := ⟨1, []⟩

/-- What a command leaves behind when it fails by decision: a `getpass` that
an interrupt kills between its two `tcsetattr` leaves the echo off. -/
def residue (d : Decision) (a : Act) (w : World) : World :=
  match a with
  | .getpass _ _ =>
      if d.signal = some .int ∧ d.midRead = true ∧ w.tty = true then { w with echo := false }
      else w
  | _ => w

/-- The effect of a command. -/
def exec (d : Decision) (a : Act) (w : World) : Resp × World :=
  match a with
  | .umount ps =>
      if d.fails then (failed, w)
      else (if umountOk w.held ps (points w.mounts) then ⟨0, []⟩ else failed,
        { w with mounts := umountAll w.held ps w.mounts })
  -- the status of the pipeline is that of `sed`, whose input is then empty
  | .readPU disk => (⟨0, if d.fails then [] else extractPU disk (w.dump disk)⟩, w)
  | a =>
      if d.fails && !a.certain then (failed, residue d a w)
      else
        match perform d a w with
        | some (out, w') => (⟨0, out⟩, w')
        | none => (failed, w)

/-! ## Kinds of commands -/

/-- The command writes a partition table. -/
def Act.partitions : Act → Bool
  | .sfdisk _ _ => true
  | _ => false

/-- The devices a command writes to: by partitioning, formatting, or mounting
them read-write. -/
def Act.devices : Act → List Str
  | .sfdisk disk _ => [disk]
  | .mkfsFat dev => [dev]
  | .mke2fs dev => [dev]
  | .mount _ false dev _ => [dev]
  | _ => []

/-- The command changes the mount table. -/
def Act.remounts : Act → Bool
  | .mount _ _ _ _ | .umount _ => true
  | _ => false

/-- The command opens or closes a file of a compound command. -/
def Act.redirects : Act → Bool
  | .openOut _ | .openIn _ | .close => true
  | _ => false

def Act.traps : Act → Bool
  | .setTrap _ => true
  | _ => false

/-- The commands that change volumes and output only. -/
def Act.filesOnly : Act → Bool
  | .mount _ _ _ _ | .umount _ | .setTrap _ | .sfdisk _ _ | .openOut _ | .openIn _ | .close =>
      false
  | _ => true

/-- The commands with the common rule for success and failure. -/
def Act.ordinary : Act → Bool
  | .umount _ | .readPU _ => false
  | _ => true

/-! ## The machine -/

/-- The installer's machine. -/
def machine : Machine World Act Decision where
  exec := exec
  signal := Decision.signal
  trap := fun w => w.trap.map .umount
  interrupt := fun w => { w with interrupted := true }
  unwind := fun w => { w with held := [] }

end Slinux.Installer.System
