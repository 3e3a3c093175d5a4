import Slinux.Installer.Copies
import Slinux.Unix.Links

/-!
# Permission bits of the installed system

Lines 108 to 125 copy the directories of the running system with `cp -a`,
which keeps modes, and then give everything to root with `chown -R`.  `chown`
takes the setuid bit from every regular file, and the setgid bit from those
their group may execute.  The script puts back one of these bits, the setuid
bit of `/bin/doas`.

`chmod` follows links, and changes an inode and not a name.  So these lines run
here on names with links and inodes.  If `/bin/doas` is a symbolic link, the bit
goes to what the copied link leads to, which is on the running system where
the link is absolute.  If it is a hard link, the bit goes to all the names that
share the copy's inode.  Whether `cp -a` keeps hard links is left open.
`Unlinked` has the connection with the rest of the script.

## Main results

* `kept_iff` — which modes come out of the three steps unchanged.
* `copySystem_inode` — the inode of a copied file on the installed system.
* `modes_kept_iff` — all modes survive **iff** the setuid files of the source
  are those whose copy `/bin/doas` leads to, and no file is setgid and
  executable for its group.
-/

namespace Slinux.Installer.Modes

open Slinux.Shell.Text
open Slinux.Shell.Script
open Slinux.Shell.Logic
open Slinux.Unix.Files (Path)
open Slinux.Unix.Links
open Slinux.Installer.System (Act Decision failed)
open Slinux.Installer.Script (mntRoot sourceDirs presentDirs copySystem succeeds)
open Slinux.Installer.Copies

/-! ## Bits -/

/-- The setuid bit. -/
def setuid (m : BitVec 12) : Bool := m.getLsbD 11

/-- The setgid bit. -/
def setgid (m : BitVec 12) : Bool := m.getLsbD 10

/-- The group may execute. -/
def groupExec (m : BitVec 12) : Bool := m.getLsbD 3

/-- Bits are cleared by a mask and then set by another. -/
theorem masked_iff (m k s : BitVec 12) :
    (m &&& k) ||| s = m ↔ ∀ i < 12, (s.getLsbD i = true → m.getLsbD i = true) ∧
      (¬ s.getLsbD i = true → k.getLsbD i = false → m.getLsbD i = false) := by
  rw [BitVec.eq_of_getLsbD_eq_iff]
  refine forall₂_congr (fun i _ => ?_)
  rw [BitVec.getLsbD_or, BitVec.getLsbD_and]
  cases m.getLsbD i <;> cases k.getLsbD i <;> cases s.getLsbD i <;> simp

/-- The two bits that `chown` clears. -/
theorem chownMask_bit (m : BitVec 12) {i : Nat} (hi : i < 12) :
    (chownMask m).getLsbD i = false ↔ i = 11 ∨ (i = 10 ∧ groupExec m = true) := by
  have hexec : ∀ i < 12, ((0o1777 : BitVec 12).getLsbD i = false ↔ i = 11 ∨ i = 10) := by decide
  have hplain : ∀ i < 12, ((0o3777 : BitVec 12).getLsbD i = false ↔ i = 11) := by decide
  unfold chownMask groupExec
  cases m.getLsbD 3 with
  | true => simpa using hexec i hi
  | false => simpa using hplain i hi

/-- **Which modes survive**, with `s` set again afterwards: `0o4000` or
nothing. -/
theorem kept_iff (m : BitVec 12) (doas : Bool) :
    (m &&& chownMask m) ||| (if doas then 0o4000 else 0) = m ↔
      setuid m = doas ∧ (setgid m && groupExec m) = false := by
  have hset : ∀ i < 12, ((0o4000 : BitVec 12).getLsbD i = true ↔ i = 11) := by decide
  have hbit : ∀ i < 12, ((if doas then (0o4000 : BitVec 12) else 0).getLsbD i = true ↔
      i = 11 ∧ doas = true) := by
    intro i hi
    cases doas with
    | true => simpa using hset i hi
    | false => simp
  rw [masked_iff]
  constructor
  · intro h
    obtain ⟨hset11, hclear11⟩ := h 11 (by decide)
    obtain ⟨_, hclear10⟩ := h 10 (by decide)
    rw [hbit _ (by decide)] at hset11 hclear11 hclear10
    rw [chownMask_bit m (by decide)] at hclear11 hclear10
    constructor
    · cases doas with
      | true => exact hset11 ⟨rfl, rfl⟩
      | false => exact hclear11 (fun h => absurd h.2 (by decide)) (Or.inl rfl)
    · cases hexec : groupExec m with
      | true =>
          rw [Bool.and_true]
          exact hclear10 (fun h => absurd h.1 (by decide)) (Or.inr ⟨rfl, hexec⟩)
      | false => exact Bool.and_false _
  · intro h i hi
    rw [chownMask_bit m hi, hbit i hi]
    unfold setuid setgid at h
    constructor
    · rintro ⟨rfl, hd⟩
      rw [h.1, hd]
    · rintro hno (rfl | ⟨rfl, hexec⟩)
      · rw [h.1]
        cases doas with
        | true => exact absurd ⟨rfl, rfl⟩ hno
        | false => rfl
      · rw [hexec, Bool.and_true] at h
        exact h.2

/-! ## Commands on names -/

/-- The new state of a command of lines 108 to 125 that is not kept from
succeeding; `none` if it fails for lack of an operand, and for all other
commands.  `cp -a` finds the name of its copy free: the target is new. -/
def perform (keep : Bool) (a : Act) (t : Names mntRoot) : Option (Names mntRoot) :=
  match a with
  | .say _ => some t
  | .isDir p => if t.isDir p then some t else none
  | .cpA src dst =>
      if h : t.isDir dst = true ∧ mntRoot <+: dst ++ [src] then
        if (t.look [src]).isSome && (t.look (dst ++ [src])).isNone then
          some (t.copy keep src h.2)
        else none
      else none
  | .chownR p => if p = mntRoot then some (t.chownAll 0 0) else none
  | .chmodSetuid p =>
      (t.find p).map (fun q => t.changeFile q (Inode.chmod (fun m => m ||| 0o4000)))
  | .mkdirP routes => t.mkdirP routes
  | .chmod mode p => (t.find p).map (fun q => t.changeFile q (Inode.chmod (fun _ => mode)))
  | .touch p => t.touch p
  | _ => none

/-- The effect of a command. -/
def exec (keep : Bool) (d : Decision) (a : Act) (t : Names mntRoot) : Resp × Names mntRoot :=
  if d.fails && !a.certain then (failed, t)
  else
    match perform keep a t with
    | some t' => (⟨0, []⟩, t')
    | none => (failed, t)

/-- The machine of lines 108 to 125.  What its trap unmounts does not matter to
a run without signals. -/
def namesMachine (keep : Bool) : Machine (Names mntRoot) Act Decision where
  exec := exec keep
  signal := Decision.signal
  trap := fun _ => none
  interrupt := id
  unwind := id

theorem perform_of_status {keep : Bool} {d : Decision} {a : Act} {t : Names mntRoot}
    (h : (exec keep d a t).1.status = 0) : perform keep a t = some (exec keep d a t).2 := by
  unfold exec at h ⊢
  split
  · rename_i hfail
    rw [if_pos hfail] at h
    exact absurd h Nat.one_ne_zero
  · rename_i hfail
    rw [if_neg hfail] at h
    cases hp : perform keep a t with
    | none =>
        rw [hp] at h
        exact absurd h Nat.one_ne_zero
    | some t' => rfl

theorem exec_isDir (keep : Bool) (d : Decision) (p : Path) (t : Names mntRoot) :
    exec keep d (.isDir p) t = (if t.isDir p then ⟨0, []⟩ else failed, t) := by
  simp only [exec, Act.certain, Bool.not_true, Bool.and_false, perform]
  cases t.isDir p with
  | true => rfl
  | false => rfl

/-! ## What the copies are -/

/-- The name that a name of the target is a copy of, where `ds` are copied. -/
def copyOf (ds : List Str) (p : Path) : Option Path :=
  match p.drop mntRoot.length with
  | d :: q => if mntRoot <+: p ∧ d ∈ ds then some (d :: q) else none
  | [] => none

theorem copyOf_below (ds : List Str) (d : Str) (q : Path) :
    copyOf ds (mntRoot ++ d :: q) = if d ∈ ds then some (d :: q) else none := by
  unfold copyOf
  rw [List.drop_left]
  simp only [List.prefix_append, true_and]

theorem copyOf_other (ds : List Str) {p : Path} (hp : ∀ d q, p ≠ mntRoot ++ d :: q) :
    copyOf ds p = none := by
  unfold copyOf
  split
  · rename_i d q hdrop
    rw [if_neg]
    rintro ⟨hpre, _⟩
    obtain ⟨r, rfl⟩ := hpre
    rw [List.drop_left] at hdrop
    exact hp d q (by rw [hdrop])
  · rfl

/-- The inode that a name shows once `ds` are copied. -/
def shown (t : Names mntRoot) (ds : List Str) (p : Path) : Option Inode :=
  t.inode ((copyOf ds p).getD p)

/-- The copies of two names of the source share an inode.  Each directory is
copied by a `cp` of its own. -/
def oneCopy (t : Names mntRoot) (keep : Bool) (p q : Path) : Bool :=
  p.head? == q.head? && copiesShare t keep p q

/-- The target, mounted, as lines 92 to 106 leave it: `/mnt/root` is no link,
and the new file system has nothing but `mke2fs`'s own directory and the mount
point of the ESP. -/
structure FreshTarget (t : Names mntRoot) : Prop where
  dirs : ∀ p, p <+: mntRoot → t.look p = some .dir
  empty : ∀ d q, (t.inode (mntRoot ++ d :: q)).isSome = true →
    d = "boot".toList ∨ d = "lost+found".toList

/-- The names once `ds` are copied. -/
structure Laid (keep : Bool) (t : Names mntRoot) (ds : List Str) (v : Names mntRoot) : Prop where
  inode : ∀ p, v.inode p = shown t ds p
  same : ∀ d ∈ ds, ∀ q p, v.same p (mntRoot ++ d :: q)
    = (decide (mntRoot <+: p) && oneCopy t keep (p.drop mntRoot.length) (d :: q))
  source : ∀ p q, ¬ mntRoot <+: p → ¬ mntRoot <+: q → v.same p q = t.same p q

/-- The copied directories are not where the target is mounted. -/
theorem source_apart {d : Str} (hd : d ∈ sourceDirs) (q : Path) : ¬ mntRoot <+: d :: q := by
  intro h
  have hmnt : "mnt".toList = d := (List.cons_prefix_cons.mp h).1
  rw [← hmnt] at hd
  exact absurd hd (by decide)

section Laying

variable {keep : Bool} {t v : Names mntRoot} {ds : List Str}

theorem Laid.start (keep : Bool) (t : Names mntRoot) : Laid keep t [] t := by
  refine ⟨fun p => ?_, fun d hd => absurd hd List.not_mem_nil, fun _ _ _ _ => rfl⟩
  unfold shown copyOf
  split
  · rw [if_neg (fun h => List.not_mem_nil h.2)]
    rfl
  · rfl

theorem Laid.inode_source (h : Laid keep t ds v) {d : Str} (hd : d ∈ sourceDirs) (q : Path) :
    v.inode (d :: q) = t.inode (d :: q) := by
  have hnone : copyOf ds (d :: q) = none := by
    refine copyOf_other ds (fun d' q' heq => source_apart hd q ?_)
    rw [heq]
    exact List.prefix_append mntRoot (d' :: q')
  rw [h.inode, shown, hnone]
  rfl

theorem Laid.share_source (h : Laid keep t ds v) {d : Str} (hd : d ∈ sourceDirs) (p q : Path) :
    copiesShare v keep (d :: p) (d :: q) = copiesShare t keep (d :: p) (d :: q) := by
  unfold copiesShare
  rw [h.source _ _ (source_apart hd p) (source_apart hd q)]

/-- The copies of different directories are apart. -/
theorem copy_apart {d d' : Str} (hdd : d' ≠ d) (q : Path) :
    ¬ mntRoot ++ [d] <+: mntRoot ++ d' :: q := by
  rw [List.prefix_append_right_inj, List.cons_prefix_cons]
  exact fun h => hdd h.1.symm

theorem Laid.copy_inode (h : Laid keep t ds v) {d : Str} (hd : d ∈ sourceDirs)
    (hdir : mntRoot <+: mntRoot ++ [d]) (p : Path) :
    (v.copy keep d hdir).inode p = shown t (ds ++ [d]) p := by
  by_cases hbelow : ∃ d' q, p = mntRoot ++ d' :: q
  · obtain ⟨d', q, rfl⟩ := hbelow
    rw [shown, copyOf_below]
    by_cases hdd : d' = d
    · subst hdd
      rw [if_pos (List.mem_append_right ds (List.mem_singleton_self d')), Names.copy_inode]
      exact h.inode_source hd q
    · have hmem : d' ∈ ds ++ [d] ↔ d' ∈ ds := by
        rw [List.mem_append, List.mem_singleton, or_iff_left hdd]
      rw [Names.copy_inode_other _ _ _ (copy_apart hdd q), h.inode, shown, copyOf_below,
        if_congr hmem rfl rfl]
  · have hnone : ∀ d' q, p ≠ mntRoot ++ d' :: q := fun d' q heq => hbelow ⟨d', q, heq⟩
    have hother : ¬ mntRoot ++ [d] <+: p := by
      rw [below_iff]
      rintro ⟨q, heq⟩
      exact hnone d q heq
    rw [Names.copy_inode_other _ _ _ hother, h.inode, shown, shown, copyOf_other ds hnone,
      copyOf_other _ hnone]

theorem Laid.copy_same (h : Laid keep t ds v) {d : Str} (hd : d ∈ sourceDirs)
    (hdir : mntRoot <+: mntRoot ++ [d]) {d' : Str} (hd' : d' ∈ ds ++ [d]) (q p : Path) :
    (v.copy keep d hdir).same p (mntRoot ++ d' :: q)
      = (decide (mntRoot <+: p) && oneCopy t keep (p.drop mntRoot.length) (d' :: q)) := by
  by_cases hp : mntRoot ++ [d] <+: p
  · obtain ⟨r, rfl⟩ := below_iff.mp hp
    rw [decide_eq_true (List.prefix_append mntRoot _), Bool.true_and, List.drop_left, oneCopy,
      List.head?_cons, List.head?_cons]
    by_cases hdd : d' = d
    · subst hdd
      rw [Names.copy_same, h.share_source hd, beq_self_eq_true, Bool.true_and]
    · -- two different directories, so two different `cp`
      rw [Bool.eq_false_iff.mpr (fun hs => absurd ((v.copy keep d hdir).equiv.symm hs)
        (Bool.eq_false_iff.mp (Names.copy_same_across v keep hdir (copy_apart hdd q) r)))]
      rw [beq_eq_false_iff_ne.mpr (fun heq => hdd (Option.some.inj heq).symm), Bool.false_and]
  · by_cases hdd : d' = d
    · subst hdd
      rw [Names.copy_same_across v keep hdir hp]
      by_cases hbelow : mntRoot <+: p
      · obtain ⟨r, rfl⟩ := hbelow
        rw [decide_eq_true (List.prefix_append mntRoot r), Bool.true_and, List.drop_left, oneCopy]
        refine (Bool.and_eq_false_iff.mpr (Or.inl (beq_eq_false_iff_ne.mpr ?_))).symm
        intro hhead
        obtain ⟨r', rfl⟩ := List.head?_eq_some_iff.mp hhead
        exact hp (prefix_below mntRoot d' r')
      · rw [decide_eq_false hbelow, Bool.false_and]
    · rw [Names.copy_same_other v keep hdir hp, decide_eq_false (copy_apart hdd q), Bool.not_false,
        Bool.true_and]
      refine h.same d' ?_ q p
      rwa [List.mem_append, List.mem_singleton, or_iff_left hdd] at hd'

/-- One more directory is copied. -/
theorem Laid.copy (h : Laid keep t ds v) {d : Str} (hd : d ∈ sourceDirs)
    (hdir : mntRoot <+: mntRoot ++ [d]) : Laid keep t (ds ++ [d]) (v.copy keep d hdir) := by
  refine ⟨h.copy_inode hd hdir, fun d' hd' q p => h.copy_same hd hdir hd' q p, ?_⟩
  intro p q hp hq
  have happart : ∀ {p}, ¬ mntRoot <+: p → ¬ mntRoot ++ [d] <+: p :=
    fun hp hpre => hp (hdir.trans hpre)
  rw [Names.copy_same_other v keep hdir (happart hp), decide_eq_false (happart hq)]
  exact h.source p q hp hq

end Laying

/-! ## What the three steps make of a file -/

/-- The program whose setuid bit is set again. -/
def doasPath : Path := ["bin".toList, "doas".toList]

/-- The directories that are copied. -/
def present (t : Names mntRoot) : List Str := sourceDirs.filter (fun d => t.isDir [d])

/-- What a path of the running system leads to once the copies are made. -/
def leads (t : Names mntRoot) (p : Path) : Option Path :=
  follow (fun q => (shown t (present t) q).map Inode.body) maxLinks [] p

/-- The copy of the file `p` is the one that `/mnt/root/bin/doas` leads to. -/
def regains (keep : Bool) (t : Names mntRoot) (p : Path) : Bool :=
  match leads t (mntRoot ++ doasPath) with
  | some x => decide (mntRoot <+: x) && oneCopy t keep (x.drop mntRoot.length) p
  | none => false

/-- What the three steps make of an inode. -/
def finished (keep : Bool) (t : Names mntRoot) (p : Path) (i : Inode) : Inode :=
  if regains keep t p then (i.chown 0 0).chmod (fun m => m ||| 0o4000) else i.chown 0 0

/-- The copy of `p` is there with this inode, a file; and the way to `/tmp` of
the target is as `mkdir` needs it. -/
structure Stands (p : Path) (i : Inode) (v : Names mntRoot) : Prop where
  inode : v.inode (mntRoot ++ p) = some i
  file : i.isFile = true
  dirs : ∀ q, q <+: mntRoot → v.look q = some .dir
  tmp : Plain (v.look (mntRoot ++ ["tmp".toList]))

section Steps

variable {keep : Bool} {t v v' : Names mntRoot}

theorem finished_body (keep : Bool) (t : Names mntRoot) (p : Path) (i : Inode) :
    (finished keep t p i).body = i.body := by
  unfold finished
  split
  · rw [Inode.chmod_body, Inode.chown_body]
  · rw [Inode.chown_body]

theorem Laid.look (h : Laid keep t (present t) v) :
    v.look = fun q => (shown t (present t) q).map Inode.body := by
  funext q
  rw [Names.look, h.inode]

/-- `chown`, and `chmod` through the links of `/bin/doas`. -/
theorem Laid.finish (h : Laid keep t (present t) v) {d : Str} (hd : d ∈ present t) {q : Path}
    {i : Inode} (hi : t.inode (d :: q) = some i) {x : Path}
    (hx : (v.chownAll 0 0).find (mntRoot ++ doasPath) = some x) :
    ((v.chownAll 0 0).changeFile x (Inode.chmod (fun m => m ||| 0o4000))).inode
      (mntRoot ++ d :: q) = some (finished keep t (d :: q) i) := by
  have hleads : leads t (mntRoot ++ doasPath) = some x := by
    rw [Names.find, Names.chownAll_look, h.look] at hx
    exact hx
  have hsame : (v.chownAll 0 0).same x (mntRoot ++ d :: q) = regains keep t (d :: q) := by
    rw [Names.chownAll_same, h.same d hd, regains, hleads]
  have howned : (v.chownAll 0 0).inode (mntRoot ++ d :: q) = some (i.chown 0 0) := by
    rw [Names.chownAll_inode, if_pos (List.prefix_append _ _), h.inode, shown, copyOf_below,
      if_pos hd, Option.getD_some, hi, Option.map_some]
  rw [Names.changeFile_inode, hsame, howned, finished]
  split <;> rfl

/-- Names outside the copies are as they were. -/
theorem Laid.look_other (h : Laid keep t (present t) v) {q : Path}
    (hq : copyOf (present t) q = none) : v.look q = t.look q := by
  rw [Names.look, h.inode, shown, hq]
  rfl

theorem Laid.stands (h : Laid keep t (present t) v) (ht : FreshTarget t) {d : Str}
    (hd : d ∈ present t) {q : Path} {i : Inode} (hi : t.inode (d :: q) = some i)
    (hfile : i.isFile = true) {x : Path}
    (hx : (v.chownAll 0 0).find (mntRoot ++ doasPath) = some x) :
    Stands (d :: q) (finished keep t (d :: q) i)
      ((v.chownAll 0 0).changeFile x (Inode.chmod (fun m => m ||| 0o4000))) := by
  have hlook : ((v.chownAll 0 0).changeFile x (Inode.chmod (fun m => m ||| 0o4000))).look
      = v.look := by
    rw [Names.chmod_look, Names.chownAll_look]
  refine ⟨h.finish hd hi hx, ?_, fun p hp => ?_, ?_⟩
  · rw [Inode.isFile, finished_body]
    exact hfile
  · rw [hlook, h.look_other, ht.dirs p hp]
    refine copyOf_other _ (fun d' r heq => ?_)
    have hlen := hp.length_le
    rw [heq, List.length_append, List.length_cons] at hlen
    omega
  · rw [hlook, h.look_other]
    · left
      rw [Names.look, Option.map_eq_none_iff, ← Option.not_isSome_iff_eq_none]
      intro hsome
      exact absurd (ht.empty _ [] hsome) (by decide)
    · rw [copyOf_below, if_neg]
      exact fun hmem => absurd (List.mem_filter.mp hmem).1 (by decide)

theorem Stands.mkdirP {p : Path} {i : Inode} {routes : List Path} (h : Stands p i v)
    (hmade : v.mkdirP routes = some v') : Stands p i v' := by
  have hgrown := Names.mkdirP_grown hmade
  refine ⟨hgrown.keeps _ i h.inode, h.file, fun q hq => ?_, hgrown.plain h.tmp⟩
  obtain ⟨j, hj, hbody⟩ := Option.map_eq_some_iff.mp (h.dirs q hq)
  rw [Names.look, hgrown.keeps q j hj, Option.map_some, hbody]

/-- `/tmp` of the target is a directory and no name of a copied file. -/
theorem Stands.chmodTmp {p : Path} {i : Inode} (h : Stands p i v) {x : Path}
    (hx : v.find (mntRoot ++ ["tmp".toList]) = some x) (f : BitVec 12 → BitVec 12) :
    (v.changeFile x (Inode.chmod f)).inode (mntRoot ++ p) = some i := by
  have hdir : v.look x = some .dir := by
    refine follow_plain (by decide) (h.dirs [] List.nil_prefix) (fun q hq => ?_) hx
    rw [List.nil_append]
    rcases List.prefix_concat_iff.mp hq with rfl | hpre
    · exact h.tmp
    · exact Or.inr (h.dirs q hpre)
  rw [Names.changeFile_inode, if_neg, h.inode]
  intro hsame
  obtain ⟨data, hdata⟩ := Inode.isFile_iff.mp h.file
  have hfile : v.look (mntRoot ++ p) = some (.file data) := by
    rw [Names.look, h.inode, Option.map_some, hdata]
  rw [v.look_same hsame, hfile] at hdir
  cases hdir

end Steps

/-! ## The run -/

section Run

variable {keep : Bool} {A : Event (Names mntRoot) Act Decision → Prop} {t : Names mntRoot}
variable (hquiet : ∀ x, A x → (namesMachine keep).signal x.decision = none)

include hquiet

/-- A command that succeeds, and the rest. -/
theorem wp_run {α : Type} {a : Act} {f : Unit → Prog Act α} {Q : α → Names mntRoot → Prop}
    {v : Names mntRoot}
    (hnext : ∀ v', perform keep a v = some v' →
      wp (namesMachine keep) A (fun _ => True) (f ()) Q (fun _ _ => True) v') :
    wp (namesMachine keep) A (fun _ => True) (cmd a >>= f) Q (fun _ _ => True) v := by
  apply wp_cmd hquiet
  intro dec _
  exact ⟨trivial, fun h0 => hnext _ (perform_of_status h0), fun _ => trivial⟩

theorem forEach_copies (ds : List Str) (hds : ∀ d ∈ ds, d ∈ sourceDirs) :
    ∀ {done : List Str} {v : Names mntRoot}, Laid keep t done v →
      wp (namesMachine keep) A (fun _ => True) (forEach (fun d => cmd (.cpA d mntRoot)) ds)
        (fun _ v' => Laid keep t (done ++ ds) v') (fun _ _ => True) v := by
  induction ds with
  | nil =>
      intro done v h
      rw [List.append_nil]
      exact h
  | cons d ds ih =>
      intro done v h
      apply wp_run hquiet
      intro v' hv'
      simp only [perform] at hv'
      split at hv'
      · rename_i hop
        simp only [Option.ite_none_right_eq_some, Option.some.injEq] at hv'
        rw [← hv'.2, ← List.singleton_append, ← List.append_assoc]
        exact ih (fun d' hd' => hds d' (List.mem_cons_of_mem d hd'))
          (h.copy (hds d List.mem_cons_self) hop.2)
      · cases hv'

/-- **What lines 108 to 125 leave of a copied file.** -/
theorem copySystem_inode (ht : FreshTarget t) {d : Str} (hd : d ∈ present t) {q : Path} {i : Inode}
    (hi : t.inode (d :: q) = some i) (hfile : i.isFile = true) :
    wp (namesMachine keep) A (fun _ => True) copySystem
      (fun _ v => v.inode (mntRoot ++ d :: q) = some (finished keep t (d :: q) i))
      (fun _ _ => True) t := by
  apply wp_run hquiet
  intro v hv
  obtain rfl := Option.some.inj hv
  apply wp_bind
  refine wp_mono ?_ (fun _ _ hx => hx.elim) (wp_presentDirs hquiet
    (fun v d => v.isDir [d]) (fun dec d v => exec_isDir keep dec [d] v) _ sourceDirs)
  rintro _ _ ⟨rfl, rfl⟩
  apply wp_bind
  refine wp_mono ?_ (fun _ _ hx => hx) (forEach_copies hquiet _
    (fun d hd => (List.mem_filter.mp hd).1) (Laid.start keep _))
  intro _ v₁ hlaid
  apply wp_run hquiet
  intro v₂ hv₂
  obtain rfl := Option.some.inj hv₂
  apply wp_run hquiet
  intro v₃ hv₃
  obtain ⟨x, hx, rfl⟩ := Option.map_eq_some_iff.mp hv₃
  have hstands := Laid.stands hlaid ht hd hi hfile hx
  apply wp_run hquiet
  intro v₄ hv₄
  apply wp_run hquiet
  intro v₅ hv₅
  obtain ⟨y, hy, rfl⟩ := Option.map_eq_some_iff.mp hv₅
  rw [← bind_ret (cmd (Act.touch _))]
  apply wp_run hquiet
  intro v₆ hv₆
  exact (Names.touch_grown hv₆).keeps _ _ ((hstands.mkdirP hv₄).chmodTmp hy _)

end Run

/-! ## Modes -/

/-- A regular file of the running system that is copied. -/
structure Copied (t : Names mntRoot) (p : Path) (i : Inode) : Prop where
  source : ∃ d ∈ present t, p.head? = some d
  inode : t.inode p = some i
  regular : i.isFile = true

/-- The file `i` of the source is on the target as it should be: root's, and
with the same mode. -/
def Preserved (v : Names mntRoot) (p : Path) (i : Inode) : Prop :=
  ∃ i', v.inode (mntRoot ++ p) = some i' ∧ i'.uid = 0 ∧ i'.gid = 0 ∧ i'.mode = i.mode

theorem finished_file (keep : Bool) (t : Names mntRoot) (p : Path) {i : Inode}
    (h : i.isFile = true) :
    finished keep t p i
      = { i with
          uid := 0, gid := 0,
          mode := (i.mode &&& chownMask i.mode) ||| (if regains keep t p then 0o4000 else 0) } := by
  obtain ⟨data, hdata⟩ := Inode.isFile_iff.mp h
  have hchown : i.chown 0 0
      = { i with uid := 0, gid := 0, mode := i.mode &&& chownMask i.mode } := by
    unfold Inode.chown
    rw [hdata]
  unfold finished
  rw [hchown]
  split
  · rfl
  · simp

/-- **The modes of the installed system.**  A completed copy keeps the mode of
every regular file exactly if the setuid files are those whose copy `/bin/doas`
leads to, and no file is setgid and executable for its group. -/
theorem modes_kept_iff {keep : Bool} {O : Nat → Act → Decision} (hO : ∀ n a, (O n a).signal = none)
    {t : Names mntRoot} (ht : FreshTarget t) (k : Nat)
    (hdone : (go (namesMachine keep) O copySystem k t).outcome = .done ()) :
    (∀ p i, Copied t p i → Preserved (go (namesMachine keep) O copySystem k t).final p i) ↔
      ∀ p i, Copied t p i → setuid i.mode = regains keep t p ∧
        (setgid i.mode && groupExec i.mode) = false := by
  have hquiet : ∀ x ∈ (go (namesMachine keep) O copySystem k t).trace,
      (namesMachine keep).signal x.decision = none := by
    intro x hx
    obtain ⟨m, hm⟩ := go_trace_decision (namesMachine keep) O _ k t x hx
    rw [hm]
    exact hO m x.act
  refine forall₂_congr (fun p i => imp_congr_right (fun hcopied => ?_))
  obtain ⟨d, hd, hhead⟩ := hcopied.source
  obtain ⟨q, rfl⟩ : ∃ q, p = d :: q := List.head?_eq_some_iff.mp hhead
  have hend := (go_sound O copySystem k t
    (copySystem_inode (fun _ h => h) ht hd hcopied.inode hcopied.regular) hquiet).2
  rw [hdone] at hend
  have hinode : (go (namesMachine keep) O copySystem k t).final.inode (mntRoot ++ d :: q)
      = some (finished keep t (d :: q) i) := hend
  rw [finished_file _ _ _ hcopied.regular] at hinode
  rw [← kept_iff i.mode (regains keep t (d :: q))]
  constructor
  · rintro ⟨i', hi', _, _, hm⟩
    rw [hinode] at hi'
    exact (congrArg Inode.mode (Option.some.inj hi')).trans hm
  · intro hm
    exact ⟨_, hinode, rfl, rfl, hm⟩

/-- A running system and a fresh target, with these files in `/bin`. -/
def sampleTable (programs : List (Str × Inode)) : List (Path × Inode) :=
  [([], newDir), (["mnt".toList], newDir), (mntRoot, newDir),
      (mntRoot ++ ["boot".toList], newDir), (["bin".toList], newDir),
      (["bin".toList, "sh".toList], ⟨.link "dash".toList, 0o777, 0, 0⟩),
      (["bin".toList, "dash".toList], ⟨.file [], 0o755, 0, 0⟩)]
    ++ programs.map (fun x => (["bin".toList, x.1], x.2))

def sampleNames (programs : List (Str × Inode)) : Names mntRoot :=
  Names.ofTable mntRoot (sampleTable programs)

theorem sampleNames_fresh (programs : List (Str × Inode)) : FreshTarget (sampleNames programs) := by
  constructor
  · intro p hp
    have hmem : p ∈ mntRoot.inits := (List.mem_inits _ _).mpr hp
    rw [show mntRoot.inits = [[], ["mnt".toList], mntRoot] from by decide] at hmem
    simp only [List.mem_cons, List.not_mem_nil, or_false] at hmem
    rcases hmem with rfl | rfl | rfl <;> rfl
  · intro d q hsome
    obtain ⟨i, hi⟩ := Option.isSome_iff_exists.mp hsome
    have hmem := Names.mem_of_ofTable hi
    rcases List.mem_append.mp hmem with hbase | hprog
    · simp only [List.mem_cons, Prod.mk.injEq, List.not_mem_nil, or_false] at hbase
      have hboot : (d = "boot".toList ∧ q = []) ∧ i = newDir := by simpa [mntRoot] using hbase
      exact Or.inl hboot.1.1
    · obtain ⟨x, _, heq⟩ := List.mem_map.mp hprog
      exact absurd (Prod.mk.inj heq).1 (by simp [mntRoot])

/-- The copy on this system. -/
def sampleCopy (programs : List (Str × Inode)) : Run (Names mntRoot) Act Decision Unit :=
  go (namesMachine false) (fun _ _ => succeeds) copySystem 0 (sampleNames programs)

/-- `/bin/doas` is a link to a setuid program. -/
def linkedDoas : List (Str × Inode) :=
  [("doas".toList, ⟨.link "opendoas".toList, 0o777, 0, 0⟩),
    ("opendoas".toList, ⟨.file [], 0o4755, 0, 0⟩)]

/-- `/bin/doas` as the build makes it. -/
def builtDoas : List (Str × Inode) := [("doas".toList, ⟨.file [], 0o6755, 0, 0⟩)]

theorem modes_kept_linked :
    (sampleCopy linkedDoas).outcome = .done () ∧ ∀ p i, Copied (sampleNames linkedDoas) p i →
      Preserved (sampleCopy linkedDoas).final p i := by
  have hdone : (sampleCopy linkedDoas).outcome = .done () := by decide +kernel
  refine ⟨hdone, (modes_kept_iff (fun _ _ => rfl) (sampleNames_fresh _) 0 hdone).mpr ?_⟩
  have hall : ∀ x ∈ sampleTable linkedDoas, (∃ d ∈ present (sampleNames linkedDoas),
      x.1.head? = some d) → x.2.isFile = true →
      setuid x.2.mode = regains false (sampleNames linkedDoas) x.1 ∧
        (setgid x.2.mode && groupExec x.2.mode) = false := by decide +kernel
  intro p i h
  exact hall (p, i) (Names.mem_of_ofTable h.inode) h.source h.regular

/-- `/bin/doas` as the build makes it, setuid and setgid: the installed one is
setuid only. -/
theorem modes_not_kept_setgid :
    (sampleCopy builtDoas).outcome = .done () ∧ ¬ ∀ p i, Copied (sampleNames builtDoas) p i →
      Preserved (sampleCopy builtDoas).final p i := by
  refine ⟨by decide +kernel, fun h => ?_⟩
  have hcopied : Copied (sampleNames builtDoas) doasPath ⟨.file [], 0o6755, 0, 0⟩ :=
    ⟨⟨"bin".toList, by decide +kernel, rfl⟩, by decide +kernel, rfl⟩
  obtain ⟨i', hi', _, _, hmode⟩ := h doasPath _ hcopied
  have hinstalled : (sampleCopy builtDoas).final.inode (mntRoot ++ doasPath)
      = some ⟨.file [], 0o4755, 0, 0⟩ := by decide +kernel
  rw [hinstalled] at hi'
  rw [← Option.some.inj hi'] at hmode
  exact absurd hmode (by decide)

end Slinux.Installer.Modes
