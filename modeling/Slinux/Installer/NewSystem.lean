import Slinux.Installer.Image

/-!
# The new system, path by path

`Image` gives the new disk as two compositions of edits.  Here they are read
back: what each path holds (`System`, `BootVolume`), and who may do what with it
(`Safe`).

The copied directories are those of the running system, given to root; set-user
and set-group bits do not survive that, except for the one that `doas` gets
back.  Of the account files the temporary ones are gone.  Nothing is there that
is not listed.

## Main results

* `disk_of_status` — every path of the two new file systems, after a run with
  status zero.
* `privileges_of_status` — owners, set-user bits, the home directory and the
  shadow file, after a run with status zero.
-/

namespace Slinux.Installer.NewSystem

open Slinux.Shell.Text
open Slinux.Shell.Script
open Slinux.Shell.Logic
open Slinux.Unix.Files
open Slinux.Disk.Name
open Slinux.Installer.Accounts
open Slinux.Installer.Bootloader
open Slinux.Installer.System
open Slinux.Installer.Script
open Slinux.Installer.Files
open Slinux.Installer.Guard
open Slinux.Installer.Groups
open Slinux.Installer.Contents
open Slinux.Installer.Filling
open Slinux.Installer.Outside
open Slinux.Installer.Image

/-! ## Every path -/

/-- `/home/$USER`. -/
def homeFile (user : Str) : Path := ["home".toList, user]

/-- The account files that are written. -/
def accountFiles : List Path :=
  ["passwd.new".toList, "passwd".toList, "shadow".toList, "group.new".toList,
    "group".toList].map etcFile

/-- The directories of line 123. -/
def topDirs : List Str :=
  ["tmp".toList, "mnt".toList, "dev".toList, "proc".toList, "sys".toList]

/-- The directories that are made, except the home directory and `/tmp`. -/
def madeDirs : List Path :=
  [["boot".toList], ["boot".toList, "efi".toList], ["mnt".toList], ["dev".toList],
    ["proc".toList], ["sys".toList], ["home".toList]]

/-- What is there beside the copied directories. -/
def added (user : Str) : List Path :=
  ["tmp".toList] :: markerFile :: homeFile user :: lostFound :: madeDirs

/-- The new root holds the directories of `tree`, what the installer adds, and the
`lost+found` of a new file system, and nothing else. -/
structure System (tree : Path → Option Node) (user : Str) (x : Vol) : Prop where
  top : x [] = some newDir
  copied : ∀ d ∈ sourceDirs, ∀ q, d :: q ∉ accountFiles → d :: q ≠ doasFile →
    x (d :: q) = if d ∈ present tree then (tree (d :: q)).map (Node.chown 0 0) else none
  doas : x doasFile = if "bin".toList ∈ present tree then
    (tree doasFile).map (fun n => (n.chown 0 0).chmod (fun m => m ||| 0o4000)) else none
  temporary : ∀ p ∈ [etcFile "passwd.new".toList, etcFile "group.new".toList], x p = none
  made : ∀ p ∈ madeDirs, x p = some newDir
  tmp : x ["tmp".toList] = some (newDir.chmod (fun _ => 0o1777))
  marker : x markerFile = some (newFile [])
  home : x (homeFile user) = some ⟨.dir, 0o755, 1000, 100⟩
  lost : x lostFound = some lostDir
  nothing : ∀ d q, d ∉ sourceDirs → d :: q ∉ added user → x (d :: q) = none

section Paths

variable {tree : Path → Option Node} {a : Accounts} {v : Vol} {p : Path} {d : Str} {q : Path}

theorem present_sub (hd : d ∈ present tree) : d ∈ sourceDirs := (List.mem_filter.mp hd).1

theorem rewriteAccounts_ne (h : p ∉ accountFiles) : rewriteAccounts a v p = v p := by
  simp only [accountFiles, List.map_cons, List.map_nil, List.mem_cons, List.not_mem_nil, or_false,
    not_or] at h
  obtain ⟨hnew, hpasswd, hshadow, hgnew, hgroup⟩ := h
  rw [rewriteAccounts, rewriteGroup, Vol.rename_ne _ hgnew hgroup, Vol.store_ne _ _ hgnew,
    rewriteShadow, Vol.adjust_ne _ _ hshadow, Vol.store_ne _ _ hshadow, rewritePasswd,
    Vol.rename_ne _ hnew hpasswd, Vol.store_ne _ _ hnew]

theorem makeHome_ne {user : Str} (h : p ∉ [[], ["home".toList], homeFile user]) :
    makeHome user v p = v p := by
  have hne : p ≠ homeFile user := fun hp => h (by simp [hp])
  exact (Vol.adjust_ne _ _ hne).trans (Vol.mkdirs_not_mem v h)

/-- Behind the copies, a path is looked up among the few that are added. -/
theorem populate_ne {dirs : List Str} (hp : p ∉ [] :: markerFile :: topDirs.map (fun d => [d])) :
    populate dirs tree v p = copied dirs tree v p := by
  simp only [List.mem_cons, List.mem_map, not_or, not_exists, not_and] at hp
  obtain ⟨hnil, hmarker, htops⟩ := hp
  have htmp : p ≠ ["tmp".toList] := fun h => htops "tmp".toList (by simp [topDirs]) h.symm
  simp only [populate]
  rw [Vol.touch_ne _ hmarker, Vol.adjust_ne _ _ htmp, Vol.foldl_mkdirP]
  apply Vol.mkdirs_not_mem
  intro hmem
  obtain ⟨d, hd, hin⟩ := List.mem_flatMap.mp hmem
  simp only [List.mem_cons, List.not_mem_nil, or_false] at hin
  rcases hin with h | h
  · exact hnil h
  · exact htops d hd h.symm

/-- A path of the new root that no later step touches. -/
theorem newRoot_ne (haccount : p ∉ accountFiles)
    (hadded : p ∉ [] :: markerFile :: topDirs.map (fun d => [d]))
    (hhome : p ∉ [[], ["home".toList], homeFile a.user]) :
    newRoot tree a p = copied (present tree) tree skeleton p := by
  rw [newRoot, makeHome_ne hhome, rewriteAccounts_ne haccount, populate_ne hadded]

/-- The new root before anything is copied. -/
theorem skeleton_eq : skeleton p
    = if p ∈ [[], ["boot".toList], ["boot".toList, "efi".toList]] then some newDir
      else if p = lostFound then some lostDir else none :=
  Vol.fresh_put_mkdirP (by decide) (by decide) p

theorem skeleton_none (h : p ∉ [[], ["boot".toList], ["boot".toList, "efi".toList], lostFound]) :
    skeleton p = none := by
  simp only [List.mem_cons, List.not_mem_nil, or_false, not_or] at h
  obtain ⟨hnil, hboot, hefi, hlost⟩ := h
  rw [skeleton_eq, if_neg, if_neg hlost]
  simp only [List.mem_cons, List.not_mem_nil, or_false, not_or]
  exact ⟨hnil, hboot, hefi⟩

theorem copied_ne (hp : p ≠ doasFile) :
    copied (present tree) tree skeleton p
      = (skeleton.overlay (present tree) tree p).map (Node.chown 0 0) :=
  Vol.adjust_ne _ _ hp

/-- Source directories are none of those that are added. -/
theorem source_apart (hd : d ∈ sourceDirs) (q : Path) (user : Str) :
    d :: q ∉ [] :: markerFile :: topDirs.map (fun d => [d]) ∧
      d :: q ∉ [[], ["home".toList], homeFile user] ∧ skeleton (d :: q) = none := by
  have hall : ∀ e ∈ ".slinux-installed".toList :: "home".toList :: "boot".toList ::
      "lost+found".toList :: topDirs, e ∉ sourceDirs := by decide
  have hne : ∀ e ∈ ".slinux-installed".toList :: "home".toList :: "boot".toList ::
      "lost+found".toList :: topDirs, ∀ r, d :: q ≠ e :: r := fun e he r h =>
    hall e he ((List.cons.inj h).1 ▸ hd)
  refine ⟨?_, ?_, ?_⟩
  · simp only [List.mem_cons, List.mem_map, not_or, not_exists, not_and]
    exact ⟨by simp, hne _ (by simp) _, fun e he h => hne e (by simp [he]) [] h.symm⟩
  · simp only [List.mem_cons, List.not_mem_nil, or_false, not_or]
    exact ⟨by simp, hne _ (by simp) _, hne _ (by simp) _⟩
  · refine skeleton_none ?_
    simp only [List.mem_cons, List.not_mem_nil, or_false, not_or]
    exact ⟨by simp, hne _ (by simp) _, hne _ (by simp) _, hne _ (by simp) _⟩

theorem overlay_source (hd : d ∈ sourceDirs) (q : Path) :
    skeleton.overlay (present tree) tree (d :: q)
      = if d ∈ present tree then tree (d :: q) else none := by
  rw [Vol.overlay, (source_apart hd q []).2.2, Option.or_none]

/-- A copied path. -/
theorem newRoot_copied (hd : d ∈ sourceDirs) (haccount : d :: q ∉ accountFiles)
    (hdoas : d :: q ≠ doasFile) : newRoot tree a (d :: q)
      = if d ∈ present tree then (tree (d :: q)).map (Node.chown 0 0) else none := by
  obtain ⟨hadded, hhome, _⟩ := source_apart hd q a.user
  rw [newRoot_ne haccount hadded hhome, copied_ne hdoas, overlay_source hd]
  split <;> rfl

theorem newRoot_doas : newRoot tree a doasFile = if "bin".toList ∈ present tree then
    (tree doasFile).map (fun n => (n.chown 0 0).chmod (fun m => m ||| 0o4000)) else none := by
  have hbin : "bin".toList ∈ sourceDirs := by decide
  obtain ⟨hadded, hhome, _⟩ := source_apart hbin ["doas".toList] a.user
  rw [newRoot_ne (show doasFile ∉ accountFiles by decide) hadded hhome, copied, Vol.adjust_self,
    Vol.mapAll, show doasFile = "bin".toList :: ["doas".toList] from rfl, overlay_source hbin]
  split
  · rw [Option.map_map]
    rfl
  · rfl

/-- Nothing is copied to a path without a copied directory at its head. -/
theorem copied_other (hd : d ∉ sourceDirs) :
    copied (present tree) tree skeleton (d :: q) = (skeleton (d :: q)).map (Node.chown 0 0) := by
  have hdoas : d :: q ≠ doasFile := by
    intro h
    rw [(List.cons.inj h).1] at hd
    exact absurd hd (by decide)
  rw [copied_ne hdoas, Vol.overlay, if_neg (fun h => hd (present_sub h))]

/-- An account file is below `/etc`. -/
theorem accountFiles_head (hd : d ≠ "etc".toList) : d :: q ∉ accountFiles := by
  intro h
  have hall : ∀ p ∈ accountFiles, p.head? = some "etc".toList := by decide
  exact hd (Option.some.inj (hall _ h))

/-- The directories of line 123, where nothing was. -/
theorem populate_topDirs (hd : d ∈ topDirs) (htmp : d ≠ "tmp".toList)
    (hv : copied (present tree) tree v [d] = none) :
    populate (present tree) tree v [d] = some newDir := by
  have hmarker : [d] ≠ markerFile := by
    intro h
    rw [(List.cons.inj h).1] at hd
    exact absurd hd (by decide)
  simp only [populate]
  rw [Vol.touch_ne _ hmarker, Vol.adjust_ne _ _ (fun h => htmp (List.cons.inj h).1),
    Vol.foldl_mkdirP]
  exact Vol.mkdirs_of_none _ (List.mem_flatMap.mpr ⟨d, hd, by simp⟩) hv

theorem homeFiles_ne {user : Str} (hd : d ≠ "home".toList) :
    d :: q ∉ [[], ["home".toList], homeFile user] := by
  simp only [List.mem_cons, List.not_mem_nil, or_false, not_or]
  exact ⟨by simp, fun h => hd (List.cons.inj h).1, fun h => hd (List.cons.inj h).1⟩

theorem makeHome_kept {user : Str} {n : Node} (hp : p ≠ homeFile user) (hv : v p = some n) :
    makeHome user v p = some n :=
  (Vol.adjust_ne _ _ hp).trans (Vol.mkdirs_kept v hv)

theorem makeHome_parent {user : Str} (hv : v ["home".toList] = none) :
    makeHome user v ["home".toList] = some newDir := by
  have hne : ["home".toList] ≠ homeFile user := by simp [homeFile]
  exact (Vol.adjust_ne _ _ hne).trans (Vol.mkdirs_of_none v (by simp) hv)

theorem makeHome_self {user : Str} (hv : v (homeFile user) = none) :
    makeHome user v (homeFile user) = some ⟨.dir, 0o755, 1000, 100⟩ := by
  have hmade : v.mkdirP (homeFile user) (homeFile user) = some newDir :=
    Vol.mkdirs_of_none v (by simp [homeFile]) hv
  exact (Vol.adjust_self _ _).trans (congrArg (Option.map (Node.chown 1000 100)) hmade)

/-- What is not listed is not there before the home directory is made. -/
theorem before_home (hd : d ∉ sourceDirs)
    (hp : d :: q ∉ [] :: markerFile :: topDirs.map (fun d => [d]))
    (hskeleton : skeleton (d :: q) = none) :
    rewriteAccounts a (populate (present tree) tree skeleton) (d :: q) = none := by
  have hetc : d ≠ "etc".toList := fun h => hd (h ▸ by decide)
  rw [rewriteAccounts_ne (accountFiles_head hetc), populate_ne hp, copied_other hd, hskeleton]
  rfl

/-! ### One by one -/

theorem skeleton_other (hboot : d ≠ "boot".toList) (hlost : d ≠ "lost+found".toList) :
    skeleton (d :: q) = none := by
  refine skeleton_none ?_
  simp only [List.mem_cons, List.not_mem_nil, or_false, not_or]
  exact ⟨by simp, fun h => hboot (List.cons.inj h).1, fun h => hboot (List.cons.inj h).1,
    fun h => hlost (List.cons.inj h).1⟩

theorem before_home_parent
    (hq : "home".toList :: q ∉ [] :: markerFile :: topDirs.map (fun d => [d])) :
    rewriteAccounts a (populate (present tree) tree skeleton) ("home".toList :: q) = none :=
  before_home (by decide) hq (skeleton_other (by decide) (by decide))

theorem newRoot_top : newRoot tree a [] = some newDir := by
  have hcopied : copied (present tree) tree skeleton [] = some newDir := by
    rw [copied_ne (by decide), Vol.overlay, skeleton_eq, if_pos (by decide)]
    rfl
  have hpopulate : populate (present tree) tree skeleton [] = some newDir := by
    simp only [populate]
    rw [Vol.touch_ne _ (by decide), Vol.adjust_ne _ _ (by decide), Vol.foldl_mkdirP]
    exact Vol.mkdirs_kept _ hcopied
  exact makeHome_kept (by simp [homeFile]) ((rewriteAccounts_ne (by decide)).trans hpopulate)

/-- The temporary account files have been renamed. -/
theorem newRoot_temporary (hp : p ∈ [etcFile "passwd.new".toList, etcFile "group.new".toList]) :
    newRoot tree a p = none := by
  simp only [List.mem_cons, List.not_mem_nil, or_false] at hp
  rcases hp with rfl | rfl
  · rw [newRoot, etcFile, makeHome_ne (homeFiles_ne (by decide)), rewriteAccounts, rewriteGroup,
      Vol.rename_ne _ (by decide) (by decide), Vol.store_ne _ _ (by decide), rewriteShadow,
      Vol.adjust_ne _ _ (by decide), Vol.store_ne _ _ (by decide), rewritePasswd]
    exact Vol.rename_src _
  · rw [newRoot, etcFile, makeHome_ne (homeFiles_ne (by decide)), rewriteAccounts, rewriteGroup]
    exact Vol.rename_src _

/-- What is on the disk before the copies stays, given to root. -/
theorem newRoot_skeleton {n : Node} (hd : d ∉ sourceDirs) (hn : skeleton (d :: q) = some n)
    (hadded : d :: q ∉ [] :: markerFile :: topDirs.map (fun d => [d]))
    (hhome : d ≠ "home".toList) : newRoot tree a (d :: q) = some (n.chown 0 0) := by
  have hetc : d ≠ "etc".toList := fun h => hd (h ▸ by decide)
  rw [newRoot_ne (accountFiles_head hetc) hadded (homeFiles_ne hhome), copied_other hd, hn]
  rfl

/-- A directory of line 123. -/
theorem newRoot_topDir (hd : d ∈ topDirs) (htmp : d ≠ "tmp".toList) :
    newRoot tree a [d] = some newDir := by
  have hne : ∀ e ∈ topDirs, e ≠ "home".toList ∧ e ≠ "etc".toList ∧ e ≠ "boot".toList ∧
      e ≠ "lost+found".toList ∧ e ∉ sourceDirs := by decide
  obtain ⟨hh, he, hb, hl, hs⟩ := hne d hd
  rw [newRoot, makeHome_ne (homeFiles_ne hh), rewriteAccounts_ne (accountFiles_head he)]
  refine populate_topDirs hd htmp ?_
  rw [copied_other hs, skeleton_other hb hl]
  rfl

theorem newRoot_made (hp : p ∈ madeDirs) : newRoot tree a p = some newDir := by
  have hboot : ∀ q, skeleton ("boot".toList :: q) = some newDir →
      "boot".toList :: q ∉ [] :: markerFile :: topDirs.map (fun d => [d]) →
      newRoot tree a ("boot".toList :: q) = some newDir := fun q hq hadded =>
    newRoot_skeleton (by decide) hq hadded (by decide)
  simp only [madeDirs, List.mem_cons, List.not_mem_nil, or_false] at hp
  rcases hp with rfl | rfl | rfl | rfl | rfl | rfl | rfl
  · exact hboot [] (by rw [skeleton_eq, if_pos (by decide)]) (by decide)
  · exact hboot ["efi".toList] (by rw [skeleton_eq, if_pos (by decide)]) (by decide)
  · exact newRoot_topDir (by decide) (by decide)
  · exact newRoot_topDir (by decide) (by decide)
  · exact newRoot_topDir (by decide) (by decide)
  · exact newRoot_topDir (by decide) (by decide)
  · exact makeHome_parent (before_home_parent (by decide))

theorem newRoot_tmp : newRoot tree a ["tmp".toList] = some (newDir.chmod (fun _ => 0o1777)) := by
  have hnone : copied (present tree) tree skeleton ["tmp".toList] = none := by
    rw [copied_other (by decide), skeleton_other (by decide) (by decide)]
    rfl
  rw [newRoot, makeHome_ne (homeFiles_ne (by decide)), rewriteAccounts_ne (by decide)]
  simp only [populate]
  rw [Vol.touch_ne _ (by decide), Vol.adjust_self, Vol.foldl_mkdirP,
    Vol.mkdirs_of_none _ (by decide) hnone]
  rfl

theorem newRoot_marker : newRoot tree a markerFile = some (newFile []) := by
  rw [newRoot, markerFile, makeHome_ne (homeFiles_ne (by decide)), rewriteAccounts_ne (by decide)]
  simp only [populate]
  refine Vol.touch_of_none _ ?_
  rw [Vol.adjust_ne _ _ (by decide), Vol.foldl_mkdirP, Vol.mkdirs_not_mem _ (by decide),
    markerFile, copied_other (by decide), skeleton_other (by decide) (by decide)]
  rfl

theorem newRoot_lost : newRoot tree a lostFound = some lostDir := by
  have hlost : skeleton lostFound = some lostDir := by
    rw [skeleton_eq, if_neg (by decide), if_pos rfl]
  exact newRoot_skeleton (d := "lost+found".toList) (q := []) (by decide) hlost (by decide)
    (by decide)

theorem newRoot_nothing (hd : d ∉ sourceDirs) (hadded : d :: q ∉ added a.user) :
    newRoot tree a (d :: q) = none := by
  simp only [added, madeDirs, List.mem_cons, List.not_mem_nil, or_false, not_or] at hadded
  obtain ⟨htmp, hmarker, huser, hlost, hboot, hefi, hmnt, hdev, hproc, hsys, hparent⟩ := hadded
  have hetc : d ≠ "etc".toList := fun h => hd (h ▸ by decide)
  have hno : skeleton (d :: q) = none := by
    refine skeleton_none ?_
    simp only [List.mem_cons, List.not_mem_nil, or_false, not_or]
    exact ⟨by simp, hboot, hefi, hlost⟩
  rw [newRoot_ne (accountFiles_head hetc) ?_ ?_, copied_other hd, hno]
  · rfl
  · simp only [topDirs, List.map_cons, List.map_nil, List.mem_cons, List.not_mem_nil, or_false,
      not_or]
    exact ⟨by simp, hmarker, htmp, hmnt, hdev, hproc, hsys⟩
  · simp only [List.mem_cons, List.not_mem_nil, or_false, not_or]
    exact ⟨by simp, hparent, huser⟩

end Paths

/-- **Every path of the new root.** -/
theorem newRoot_system (tree : Path → Option Node) (a : Accounts) :
    System tree a.user (newRoot tree a) where
  top := newRoot_top
  copied := fun _ hd _ haccount hdoas => newRoot_copied hd haccount hdoas
  doas := newRoot_doas
  temporary := fun _ hp => newRoot_temporary hp
  made := fun _ hp => newRoot_made hp
  tmp := newRoot_tmp
  marker := newRoot_marker
  home := makeHome_self (before_home_parent (by simp [markerFile, topDirs]))
  lost := newRoot_lost
  nothing := fun _ _ hd hadded => newRoot_nothing hd hadded

/-! ## The ESP -/

/-- The directories of the ESP. -/
def espDirs : List Path := [[], ["EFI".toList], ["EFI".toList, "BOOT".toList]]

/-- The new ESP holds these files and nothing else. -/
structure BootVolume (kernel loader conf : Str) (initrd : Option Str) (x : Vol) : Prop where
  dirs : ∀ p ∈ espDirs, x p = some newDir
  kernel : x kernelFile = some (newFile kernel)
  loader : x loaderFile = some (newFile loader)
  conf : x confFile = some (newFile conf)
  initrd : x initrdFile = initrd.map newFile
  nothing : ∀ p, p ∉ kernelFile :: loaderFile :: confFile :: initrdFile :: espDirs → x p = none

/-- The paths of the ESP are all different. -/
theorem espDirs_apart {p : Path} (hp : p ∈ espDirs) :
    p ≠ kernelFile ∧ p ≠ loaderFile ∧ p ≠ confFile ∧ p ≠ initrdFile := by
  have hall : ∀ p ∈ espDirs,
      p ≠ kernelFile ∧ p ≠ loaderFile ∧ p ≠ confFile ∧ p ≠ initrdFile := by decide
  exact hall p hp

/-- The files that are always there. -/
theorem plain_volume (kernel loader conf : Str) :
    BootVolume kernel loader conf none ((bootEsp kernel loader).store confFile conf) := by
  have hfresh : ∀ p, Vol.fresh.mkdirP ["EFI".toList, "BOOT".toList] p
      = if p ∈ espDirs then some newDir else none := fun p => Vol.fresh_mkdirP _ p
  have hputs : (bootEsp kernel loader).store confFile conf
      = (((Vol.fresh.mkdirP ["EFI".toList, "BOOT".toList]).put kernelFile (newFile kernel)).put
          loaderFile (newFile loader)).put confFile (newFile conf) := by
    rw [bootEsp, Vol.store_of_none _ kernel ((hfresh _).trans (if_neg (by decide))),
      Vol.store_of_none _ loader, Vol.store_of_none]
    · rw [Vol.put_ne _ _ (by decide), Vol.put_ne _ _ (by decide), hfresh, if_neg (by decide)]
    · rw [Vol.put_ne _ _ (by decide), hfresh, if_neg (by decide)]
  rw [hputs]
  constructor
  case dirs =>
    intro p hp
    obtain ⟨hk, hl, hc, _⟩ := espDirs_apart hp
    rw [Vol.put_ne _ _ hc, Vol.put_ne _ _ hl, Vol.put_ne _ _ hk, hfresh, if_pos hp]
  case kernel => rw [Vol.put_ne _ _ (by decide), Vol.put_ne _ _ (by decide), Vol.put_self]
  case loader => rw [Vol.put_ne _ _ (by decide), Vol.put_self]
  case conf => rw [Vol.put_self]
  case initrd =>
    rw [Vol.put_ne _ _ (by decide), Vol.put_ne _ _ (by decide), Vol.put_ne _ _ (by decide), hfresh,
      if_neg (by decide)]
    rfl
  case nothing =>
    intro p hp
    have hk : p ≠ kernelFile := fun h => hp (by simp [h])
    have hl : p ≠ loaderFile := fun h => hp (by simp [h])
    have hc : p ≠ confFile := fun h => hp (by simp [h])
    have hdirs : p ∉ espDirs := fun h => hp (by simp [h])
    rw [Vol.put_ne _ _ hc, Vol.put_ne _ _ hl, Vol.put_ne _ _ hk, hfresh, if_neg hdirs]

/-- The rescue initramfs and its entry are added. -/
theorem BootVolume.rescued {kernel loader conf : Str} {x : Vol}
    (h : BootVolume kernel loader conf none x) (text : Str) :
    BootVolume kernel loader (conf ++ rescueEntry) (some text) (rescued (some text) x) := by
  have hputs : Image.rescued (some text) x
      = (x.put initrdFile (newFile text)).put confFile (newFile (conf ++ rescueEntry)) := by
    rw [Image.rescued, Vol.store_of_none x text h.initrd, Vol.append_of_file]
    rw [Vol.put_ne _ _ (by decide), h.conf]
  rw [hputs]
  constructor
  case dirs =>
    intro p hp
    obtain ⟨_, _, hc, hi⟩ := espDirs_apart hp
    rw [Vol.put_ne _ _ hc, Vol.put_ne _ _ hi, h.dirs p hp]
  case kernel => rw [Vol.put_ne _ _ (by decide), Vol.put_ne _ _ (by decide), h.kernel]
  case loader => rw [Vol.put_ne _ _ (by decide), Vol.put_ne _ _ (by decide), h.loader]
  case conf => rw [Vol.put_self]
  case initrd =>
    rw [Vol.put_ne _ _ (by decide), Vol.put_self]
    rfl
  case nothing =>
    intro p hp
    have hc : p ≠ confFile := fun h => hp (by simp [h])
    have hi : p ≠ initrdFile := fun h => hp (by simp [h])
    rw [Vol.put_ne _ _ hc, Vol.put_ne _ _ hi, h.nothing p hp]

/-- **Every path of the new ESP.** -/
theorem newEsp_volume (kernel loader pu : Str) (initrd : Option Str) :
    BootVolume kernel loader (limineConf pu initrd.isSome) initrd
      (newEsp kernel loader pu initrd) := by
  have hplain := plain_volume kernel loader (normalHead ++ cmdlineEntry pu)
  cases initrd with
  | none =>
      have hconf : limineConf pu false = normalHead ++ cmdlineEntry pu := List.append_nil _
      rw [Option.isSome_none, hconf]
      exact hplain
  | some text => exact hplain.rescued text

/-! ## Privileges -/

/-- Everything but the home directory is root's, and no file but `doas` runs as
its owner or group. -/
structure Safe (user : Str) (p : Path) (n : Node) : Prop where
  owner : p ≠ homeFile user → n.uid = 0 ∧ n.gid = 0
  setuid : n.kind ≠ .dir → n.mode.getLsbD 11 = true → p = doasFile
  setgid : n.kind ≠ .dir → n.mode.getLsbD 3 = true → n.mode.getLsbD 10 = false

section Privileges

variable {user : Str} {p : Path} {n : Node} {v : Vol}

/-- `chown` takes the set-user bit away, and the set-group bit where it has a
meaning. -/
theorem chown_bits (uid gid : Nat) (hn : n.kind ≠ .dir) :
    (n.chown uid gid).mode.getLsbD 11 = false ∧
      ((n.chown uid gid).mode.getLsbD 3 = true → (n.chown uid gid).mode.getLsbD 10 = false) := by
  obtain ⟨kind, mode, u, g⟩ := n
  cases kind with
  | dir => exact absurd rfl hn
  | file data =>
      simp only [Node.chown, BitVec.getLsbD_and]
      cases hx : mode.getLsbD 3 with
      | true => simp
      | false => simp

theorem chown_owner (uid gid : Nat) (n : Node) :
    (n.chown uid gid).uid = uid ∧ (n.chown uid gid).gid = gid := by
  obtain ⟨kind, mode, u, g⟩ := n
  cases kind <;> exact ⟨rfl, rfl⟩

theorem safe_newDir : Safe user p newDir :=
  ⟨fun _ => ⟨rfl, rfl⟩, fun h => absurd rfl h, fun h => absurd rfl h⟩

theorem safe_newFile (text : Str) : Safe user p (newFile text) := by
  have h11 : (0o644 : BitVec 12).getLsbD 11 = false := by decide
  have h10 : (0o644 : BitVec 12).getLsbD 10 = false := by decide
  exact ⟨fun _ => ⟨rfl, rfl⟩, fun _ h => absurd (h11.symm.trans h) (by decide), fun _ _ => h10⟩

theorem safe_chown (n : Node) : Safe user p (n.chown 0 0) := by
  refine ⟨fun _ => chown_owner 0 0 n, fun hk h => ?_, fun hk => ?_⟩
  · rw [chown_kind] at hk
    rw [(chown_bits 0 0 hk).1] at h
    cases h
  · rw [chown_kind] at hk
    exact (chown_bits 0 0 hk).2

/-- A mode without those bits. -/
theorem Safe.chmod (h : Safe user p n) {mode : BitVec 12} (h11 : mode.getLsbD 11 = false)
    (h10 : mode.getLsbD 10 = false) : Safe user p (n.chmod (fun _ => mode)) :=
  ⟨h.owner, fun _ hs => absurd (h11.symm.trans hs) (by decide), fun _ _ => h10⟩

theorem Safe.withData (h : Safe user p n) (hn : n.kind ≠ .dir) (text : Str) :
    Safe user p (n.withData text) :=
  ⟨h.owner, fun _ => h.setuid hn, fun _ => h.setgid hn⟩

/-- A node is moved to a path where the same is demanded. -/
theorem Safe.moved {q : Path} (h : Safe user p n) (hp : p ≠ homeFile user) (hdoas : p ≠ doasFile) :
    Safe user q n :=
  ⟨fun _ => h.owner hp, fun hk hs => absurd (h.setuid hk hs) hdoas, h.setgid⟩

theorem etcFile_ne_home (file : Str) : etcFile file ≠ homeFile user := by
  intro h
  exact absurd (List.cons.inj h).1 (by decide)

theorem etcFile_ne_doas (file : Str) : etcFile file ≠ doasFile := by
  intro h
  exact absurd (List.cons.inj h).1 (by decide)

theorem populate_safe (user : Str) (dirs : List Str) (tree : Path → Option Node) (v : Vol) :
    (populate dirs tree v).All (Safe user) := by
  have hall : ((v.overlay dirs tree).mapAll (Node.chown 0 0)).All (Safe user) :=
    Vol.All.mapAll _ (fun q n => safe_chown n)
  have hcopied : (copied dirs tree v).All (Safe user) := by
    refine hall.adjust (fun n hn => ⟨hn.owner, fun _ _ => rfl, fun hk h3 => ?_⟩)
      (fun _ _ _ h => h)
    have h3' : n.mode.getLsbD 3 = true := by simpa [Node.chmod] using h3
    simpa [Node.chmod] using hn.setgid hk h3'
  have hmade : (topDirs.foldl (fun v d => v.mkdirP [d]) (copied dirs tree v)).All (Safe user) := by
    rw [Vol.foldl_mkdirP]
    exact hcopied.mkdirs (fun _ _ => safe_newDir)
  exact (hmade.adjust (fun n hn => hn.chmod rfl rfl) (fun _ _ _ h => h)).touch (safe_newFile [])

theorem stored_safe (h : v.All (Safe user)) (text : Str) :
    (v.store p text).All (Safe user) :=
  h.store (safe_newFile text) (fun _ hn hs => hs.withData hn text)

theorem renamed_safe (h : v.All (Safe user)) (src dst : Str) :
    (v.rename (etcFile src) (etcFile dst)).All (Safe user) :=
  h.rename (fun _ hn => hn.moved (etcFile_ne_home src) (etcFile_ne_doas src))

theorem rewriteAccounts_safe (h : v.All (Safe user)) (a : Accounts) :
    (rewriteAccounts a v).All (Safe user) := by
  have hpasswd : (rewritePasswd a.user v).All (Safe user) := renamed_safe (stored_safe h _) _ _
  have hshadow : (rewriteShadow a (rewritePasswd a.user v)).All (Safe user) :=
    (stored_safe hpasswd _).adjust (fun n hn => hn.chmod rfl rfl) (fun _ _ _ h => h)
  exact renamed_safe (stored_safe hshadow _) _ _

/-- **Nobody gains a privilege on the new system.** -/
theorem newRoot_safe (tree : Path → Option Node) (a : Accounts) :
    (newRoot tree a).All (Safe a.user) := by
  have haccounts := rewriteAccounts_safe (populate_safe a.user (present tree) tree skeleton) a
  have hmade : (Vol.mkdirP _ (homeFile a.user)).All (Safe a.user) :=
    haccounts.mkdirs (fun _ _ => safe_newDir)
  refine hmade.adjust (fun n _ => ?_) (fun _ _ _ h => h)
  refine ⟨fun h => absurd rfl h, fun hk hs => ?_, fun hk => ?_⟩
  · rw [chown_kind] at hk
    rw [(chown_bits 1000 100 hk).1] at hs
    cases hs
  · rw [chown_kind] at hk
    exact (chown_bits 1000 100 hk).2

/-- The shadow file, unless there is a directory in its place. -/
theorem newRoot_shadow (tree : Path → Option Node) (a : Accounts) :
    ∃ n, newRoot tree a (etcFile "shadow".toList) = some n ∧ n.mode = 0o600 ∧
      (n.kind = .dir ∨ n.kind = .file (shadowFile a.user a.rhash a.uhash)) := by
  have hread : newRoot tree a (etcFile "shadow".toList)
      = ((rewritePasswd a.user (populate (present tree) tree skeleton)).store
          (etcFile "shadow".toList) (shadowFile a.user a.rhash a.uhash)
          (etcFile "shadow".toList)).map (Node.chmod (fun _ => 0o600)) := by
    rw [newRoot, etcFile, makeHome_ne (homeFiles_ne (by decide)), rewriteAccounts, rewriteGroup,
      Vol.rename_ne _ (by decide) (by decide), Vol.store_ne _ _ (by decide)]
    exact Vol.adjust_self _ _
  rw [hread]
  generalize rewritePasswd a.user (populate (present tree) tree skeleton) = x
  cases hdir : x.isDir (etcFile "shadow".toList) with
  | true =>
      rw [Vol.store_of_isDir _ _ hdir]
      unfold Vol.isDir at hdir
      obtain ⟨n, hn, hk⟩ := (Option.any_eq_true _ _).mp hdir
      rw [hn]
      exact ⟨_, rfl, rfl, Or.inl (beq_iff_eq.mp hk)⟩
  | false =>
      rw [Vol.store_of_not_isDir _ _ hdir, Vol.put_self]
      exact ⟨_, rfl, rfl, Or.inr rfl⟩

end Privileges

/-! ## Whole runs -/

/-- In the state `u`, no file of the new root but `doas` runs as another user
or group, all nodes are root's but the home directory of an accepted user name,
and the shadow file is for root alone. -/
def Private (name : DevName) (answers : List Str) (u : World) : Prop :=
  ∃ user x, acceptsUser user = true ∧ user ∈ answers ∧ u.vols (rootVol name) = some x ∧
    x.All (Safe user) ∧ x (homeFile user) = some ⟨.dir, 0o755, 1000, 100⟩ ∧
    ∃ rhash uhash, x (etcFile "shadow".toList)
      = some ⟨.file (shadowFile user rhash uhash), 0o600, 0, 0⟩

/-- **Privileges after a run with status zero**, whatever owners and modes the
running system has. -/
theorem privileges_of_status (O : Nat → Act → Decision) (args : List Str)
    (sysdevs : List SysDev) (answers : List Str) (w : World) (hw : Mounts.Start w)
    (hunused : ∀ name ∈ w.disks, args.head? = some (devPath name.text) → Unused name w)
    (hslash : ∀ l ∈ answers, acceptsUser l = true → '/' ∉ l)
    (h0 : (runScript machine O (slinuxInstall args sysdevs answers) w).outcome.status = 0) :
    ∃ name ∈ w.disks, args.head? = some (devPath name.text) ∧
      Private name answers (runScript machine O (slinuxInstall args sysdevs answers) w).final := by
  cases args with
  | nil => exact absurd h0 (Status.usage_status O sysdevs answers w)
  | cons disk rest =>
      obtain ⟨f, as, v, hends, hdone⟩ := Status.search_of_status h0
      have hfree : ∀ name ∈ w.disks, devPath name.text = disk → Unused name w :=
        fun name hname hdisk => hunused name hname (congrArg some hdisk.symm)
      obtain ⟨_, name, hname, rfl, hnames, a, t, tree, haccept, hmem, himage⟩ :=
        image_of_done hw hfree hslash hends hdone
      have hroot := congrFun (hends.run rest).2.1 (rootVol name)
      refine ⟨name, hname, rfl, a.user, newRoot tree a, haccept, hmem,
        hroot.trans himage.disk.root, newRoot_safe tree a, (newRoot_system tree a).home,
        a.rhash, a.uhash, ?_⟩
      -- there is no directory in the place of the shadow file: it has been written
      obtain ⟨_, hinstalled⟩ := Status.installed_of_status hw hfree hends hdone
      obtain ⟨user, rhash, uhash, _, _, _, _, hlook, _⟩ := hinstalled.accounts
      obtain ⟨n, hn, hmode, hkind⟩ := newRoot_shadow tree a
      have hfile : some n.kind = some (.file (shadowFile user rhash uhash)) := by
        rw [diskP_eq_partNode hnames] at hlook
        rw [← hlook, look, show VolId.dev (partNode name.text 2) .ext4 = rootVol name from rfl,
          himage.disk.root, Option.bind_some]
        exact (congrArg (Option.map Node.kind) hn).symm
      have howner := (newRoot_safe tree a _ n hn).owner (etcFile_ne_home _)
      obtain ⟨kind, mode, uid, gid⟩ := n
      obtain rfl : mode = 0o600 := hmode
      obtain ⟨rfl, rfl⟩ : uid = 0 ∧ gid = 0 := howner
      rcases hkind with rfl | rfl
      · cases hfile
      · exact hn

/-- Privileges on the sample machine. -/
theorem privileges_of_status_sda :
    ∃ name ∈ (sampleWorld (some sampleMedium)).disks,
      [devPath "sda".toList].head? = some (devPath name.text) ∧
      Private name sampleAnswers
        (sampleRun (fun _ _ => succeeds) (some sampleMedium) sampleAnswers).final :=
  privileges_of_status (fun _ _ => succeeds) [devPath "sda".toList] sampleSysdevs sampleAnswers
    (sampleWorld (some sampleMedium)) (Mounts.sampleWorld_start _)
    (fun _ _ _ m hm => absurd hm List.not_mem_nil) (by decide +kernel) (by decide +kernel)

end Slinux.Installer.NewSystem
