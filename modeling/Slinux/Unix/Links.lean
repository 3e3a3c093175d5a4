import Slinux.Unix.Files

/-!
# Names, links and inodes

`Unix.Files` gives every path a node of its own.  Here several names may share
one inode, and a name may be a symbolic link.  A system is the table of its
names: the inode behind each, and which of them are names of one inode.  The
table covers the whole tree of mounted file systems.  One of them is mounted on
`mnt` and shares no inode with the rest, because hard links stay inside a file
system; the structure carries this along, with the facts that being one inode
is an equivalence and that names of one inode agree about it.

A path is looked up component by component.  A link on the way is replaced by
its text, which starts again at the root if it is absolute, and otherwise goes
on in the directory that holds the link.  The kernel follows `maxLinks` links
at most.

Two operations are enough for the commands that work on such a table: a change
of inodes, which all their names see, and a replacement of the names of some
region, from which copies, new files and new directories are made.

## Main results

* `Names.change`, `Names.replace` — the operations, with their invariants.
* `follow_plain` — a path through directories and free names leads to a
  directory.
* `follow_unlinked`, `follow_direct` — without links a path leads to itself.
* `Names.mkdirP_grown` — `mkdir -p` adds directories and nothing else.
-/

namespace Slinux.Unix.Links

open Slinux.Shell.Text
open Slinux.Unix.Files

/-! ## Inodes -/

/-- What an inode holds; `special` is a device, a pipe or a socket. -/
inductive Body where
  | dir
  | file (data : Str)
  | link (text : Str)
  | special
  deriving Repr, DecidableEq

structure Inode where
  body : Body
  mode : BitVec 12
  uid : Nat
  gid : Nat
  deriving Repr, DecidableEq

/-- The inode of a regular file. -/
def Inode.isFile (i : Inode) : Bool :=
  match i.body with
  | .file _ => true
  | _ => false

theorem Inode.isFile_iff {i : Inode} : i.isFile = true ↔ ∃ data, i.body = .file data := by
  unfold Inode.isFile
  cases i.body <;> simp

/-- The mode that `chown` leaves: all but a directory loses the setuid bit, and
the setgid bit where the group may execute. -/
def chownMask (m : BitVec 12) : BitVec 12 := if m.getLsbD 3 then 0o1777 else 0o3777

def Inode.chown (uid gid : Nat) (i : Inode) : Inode :=
  match i.body with
  | .dir => { i with uid := uid, gid := gid }
  | _ => { i with uid := uid, gid := gid, mode := i.mode &&& chownMask i.mode }

def Inode.chmod (f : BitVec 12 → BitVec 12) (i : Inode) : Inode := { i with mode := f i.mode }

/-- A directory as `mkdir` creates it for root. -/
def newDir : Inode := ⟨.dir, 0o755, 0, 0⟩

/-- An empty file as `touch` creates it for root. -/
def newFile : Inode := ⟨.file [], 0o644, 0, 0⟩

@[simp] theorem Inode.chown_body (uid gid : Nat) (i : Inode) : (i.chown uid gid).body = i.body := by
  unfold Inode.chown
  split <;> rfl

@[simp] theorem Inode.chmod_body (f : BitVec 12 → BitVec 12) (i : Inode) :
    (i.chmod f).body = i.body := rfl

/-! ## Looking up a path -/

/-- How far the components of a path lead without following a link. -/
inductive Stop where
  | found (p : Path)
  | link (dir : Path) (text : Str) (rest : List Str)
  | missing
  deriving Repr, DecidableEq

/-- Components that a directory does not hold as entries. -/
def isEntry (c : Str) : Bool := c != [] && c != ".".toList && c != "..".toList

section Lookup

variable (look : Path → Option Body)

/-- The components `cs` from the directory `p`, up to the first link. -/
def stretch (p : Path) : List Str → Stop
  | [] => .found p
  | c :: cs =>
      if look p ≠ some .dir then .missing
      else if isEntry c then
        match look (p ++ [c]) with
        | none => .missing
        | some (.link text) => .link p text cs
        | some _ => stretch (p ++ [c]) cs
      else stretch (if c = "..".toList then p.dropLast else p) cs

/-- Where a link with this text starts in the directory `dir`. -/
def linkStart (dir : Path) (text : Str) : Path := if text.head? = some '/' then [] else dir

/-- The name that the components `cs` lead to from the directory `p`, over at
most `n` links. -/
def follow : Nat → Path → List Str → Option Path
  | n, p, cs =>
      match stretch look p cs with
      | .found q => some q
      | .missing => none
      | .link dir text rest =>
          match n with
          | 0 => none
          | n + 1 => follow n (linkStart dir text) (text.splitOn '/' ++ rest)

/-- `MAXSYMLINKS`. -/
def maxLinks : Nat := 40

variable {look}

/-- Nothing or a directory. -/
def Plain (b : Option Body) : Prop := b = none ∨ b = some .dir

/-- One entry of a directory further. -/
theorem stretch_entry {p : Path} {c : Str} (hc : isEntry c = true) (hp : look p = some .dir)
    (cs : List Str) :
    stretch look p (c :: cs) = match look (p ++ [c]) with
      | none => .missing
      | some (.link text) => .link p text cs
      | some _ => stretch look (p ++ [c]) cs := by
  rw [stretch, if_neg (not_not_intro hp), if_pos hc]

/-- Through directories and free names alone, a path leads to a directory. -/
theorem stretch_plain {p : Path} {cs : List Str} (hcs : ∀ c ∈ cs, isEntry c = true)
    (hp : look p = some .dir) (hplain : ∀ q, q <+: cs → Plain (look (p ++ q))) :
    stretch look p cs = .missing ∨ ∃ q, stretch look p cs = .found q ∧ look q = some .dir := by
  induction cs generalizing p with
  | nil => exact Or.inr ⟨p, rfl, hp⟩
  | cons c cs ih =>
      rw [stretch_entry (hcs c List.mem_cons_self) hp]
      rcases hplain [c] (List.prefix_append [c] cs) with hnone | hdir
      · rw [hnone]
        exact Or.inl rfl
      · rw [hdir]
        refine ih (fun c' hc' => hcs c' (List.mem_cons_of_mem c hc')) hdir (fun q hq => ?_)
        rw [List.append_assoc]
        exact hplain _ (List.cons_prefix_cons.mpr ⟨rfl, hq⟩)

/-- Where nothing is a link, a path leads to itself or nowhere. -/
theorem stretch_unlinked (hlink : ∀ q text, look q ≠ some (.link text)) {p : Path}
    {cs : List Str} (hcs : ∀ c ∈ cs, isEntry c = true) :
    stretch look p cs = .missing ∨ stretch look p cs = .found (p ++ cs) := by
  induction cs generalizing p with
  | nil => exact Or.inr (by rw [List.append_nil]; rfl)
  | cons c cs ih =>
      by_cases hp : look p = some .dir
      · rw [stretch_entry (hcs c List.mem_cons_self) hp]
        have hnext := ih (p := p ++ [c]) (fun c' hc' => hcs c' (List.mem_cons_of_mem c hc'))
        rw [List.append_assoc, List.singleton_append] at hnext
        cases hl : look (p ++ [c]) with
        | none => exact Or.inl rfl
        | some b =>
            cases b with
            | link text => exact absurd hl (hlink _ text)
            | _ => exact hnext
      · rw [stretch, if_pos hp]
        exact Or.inl rfl

theorem follow_unlinked (hlink : ∀ q text, look q ≠ some (.link text)) {n : Nat} {p q : Path}
    {cs : List Str} (hcs : ∀ c ∈ cs, isEntry c = true) (h : follow look n p cs = some q) :
    q = p ++ cs := by
  rw [follow] at h
  rcases stretch_unlinked hlink hcs (p := p) with hmiss | hfound
  · rw [hmiss] at h
    cases h
  · rw [hfound] at h
    exact (Option.some.inj h).symm

/-- Through directories alone, a path leads to what it names. -/
theorem stretch_direct {p : Path} {cs : List Str} (hcs : ∀ c ∈ cs, isEntry c = true)
    (hdirs : ∀ q, q <+: cs → q ≠ cs → look (p ++ q) = some .dir)
    (hend : ∃ b, look (p ++ cs) = some b ∧ ∀ text, b ≠ .link text) :
    stretch look p cs = .found (p ++ cs) := by
  induction cs generalizing p with
  | nil => rw [List.append_nil]; rfl
  | cons c cs ih =>
      have hp : look p = some .dir := by
        have hnil := hdirs [] List.nil_prefix (List.cons_ne_nil c cs).symm
        rwa [List.append_nil] at hnil
      rw [stretch_entry (hcs c List.mem_cons_self) hp]
      have hdirs' : ∀ q, q <+: cs → q ≠ cs → look ((p ++ [c]) ++ q) = some .dir := by
        intro q hq hne
        rw [List.append_assoc]
        exact hdirs (c :: q) (List.cons_prefix_cons.mpr ⟨rfl, hq⟩)
          (fun heq => hne (List.cons.inj heq).2)
      have hend' : ∃ b, look ((p ++ [c]) ++ cs) = some b ∧ ∀ text, b ≠ .link text := by
        rw [List.append_assoc]
        exact hend
      have hnext := ih (fun c' hc' => hcs c' (List.mem_cons_of_mem c hc')) hdirs' hend'
      rw [List.append_assoc, List.singleton_append] at hnext
      -- the entry is a directory, or what the path names
      cases cs with
      | nil =>
          obtain ⟨b, hb, hlink⟩ := hend
          rw [hb]
          cases b with
          | link text => exact absurd rfl (hlink text)
          | _ => exact hnext
      | cons c' cs =>
          rw [hdirs [c] (List.prefix_append [c] _) (by simp)]
          exact hnext

theorem follow_direct {n : Nat} {p : Path} {cs : List Str} (hcs : ∀ c ∈ cs, isEntry c = true)
    (hdirs : ∀ q, q <+: cs → q ≠ cs → look (p ++ q) = some .dir)
    (hend : ∃ b, look (p ++ cs) = some b ∧ ∀ text, b ≠ .link text) :
    follow look n p cs = some (p ++ cs) := by
  rw [follow, stretch_direct hcs hdirs hend]

theorem follow_plain {n : Nat} {p q : Path} {cs : List Str} (hcs : ∀ c ∈ cs, isEntry c = true)
    (hp : look p = some .dir) (hplain : ∀ q, q <+: cs → Plain (look (p ++ q)))
    (h : follow look n p cs = some q) : look q = some .dir := by
  rcases stretch_plain hcs hp hplain with hmiss | ⟨r, hfound, hr⟩
  · rw [follow, hmiss] at h
    cases h
  · rw [follow, hfound] at h
    rw [← Option.some.inj h]
    exact hr

end Lookup

/-! ## Systems -/

/-- The names of a system with a file system of its own on `mnt`. -/
structure Names (mnt : Path) where
  inode : Path → Option Inode
  /-- Two names of one inode. -/
  same : Path → Path → Bool
  equiv : Equivalence (fun p q => same p q = true)
  agree : ∀ {p q}, same p q = true → inode p = inode q
  apart : ∀ {p q}, same p q = true → (mnt <+: p ↔ mnt <+: q)

variable {mnt : Path}

/-- What the inode behind a name holds. -/
def Names.look (t : Names mnt) (p : Path) : Option Body := (t.inode p).map Inode.body

/-- The name that an absolute path leads to. -/
def Names.find (t : Names mnt) (p : Path) : Option Path := follow t.look maxLinks [] p

/-- `[ -d p ]`. -/
def Names.isDir (t : Names mnt) (p : Path) : Bool :=
  match t.find p with
  | some q => t.look q == some .dir
  | none => false

/-- A name of one inode tells what every other name of it holds. -/
theorem Names.look_same (t : Names mnt) {p q : Path} (h : t.same p q = true) :
    t.look p = t.look q := by
  unfold Names.look
  rw [t.agree h]

/-! ### Changes of inodes -/

/-- The inodes with a name in `S` are changed. -/
def Names.change (t : Names mnt) (S : Path → Bool) (f : Inode → Inode)
    (hS : ∀ p q, t.same p q = true → S p = S q) : Names mnt where
  inode p := if S p then (t.inode p).map f else t.inode p
  same := t.same
  equiv := t.equiv
  agree := by
    intro p q h
    rw [hS p q h, t.agree h]
  apart := t.apart

/-- A change of the one inode that `p` names. -/
def Names.changeFile (t : Names mnt) (p : Path) (f : Inode → Inode) : Names mnt :=
  t.change (t.same p) f (by
    intro a b h
    rw [Bool.eq_iff_iff]
    exact ⟨fun ha => t.equiv.trans ha h, fun hb => t.equiv.trans hb (t.equiv.symm h)⟩)

/-- `chown -R` of the file system on `mnt`: links are changed themselves. -/
def Names.chownAll (t : Names mnt) (uid gid : Nat) : Names mnt :=
  t.change (fun p => decide (mnt <+: p)) (Inode.chown uid gid)
    (fun _ _ h => decide_eq_decide.mpr (t.apart h))

section Change

variable (t : Names mnt)

theorem Names.changeFile_inode (p q : Path) (f : Inode → Inode) :
    (t.changeFile p f).inode q = if t.same p q then (t.inode q).map f else t.inode q := rfl

theorem Names.chownAll_inode (uid gid : Nat) (q : Path) :
    (t.chownAll uid gid).inode q
      = if mnt <+: q then (t.inode q).map (Inode.chown uid gid) else t.inode q := by
  show (if decide (mnt <+: q) = true then _ else _) = _
  simp only [decide_eq_true_eq]

theorem Names.chownAll_same (uid gid : Nat) : (t.chownAll uid gid).same = t.same := rfl

/-- Owners and modes are not seen when a path is looked up. -/
theorem Names.change_look {S : Path → Bool} {f : Inode → Inode}
    {hS : ∀ p q, t.same p q = true → S p = S q} (hf : ∀ i, (f i).body = i.body) :
    (t.change S f hS).look = t.look := by
  funext p
  show (if S p then (t.inode p).map f else t.inode p).map Inode.body = (t.inode p).map Inode.body
  split
  · rw [Option.map_map]
    exact congrArg (fun g => (t.inode p).map g) (funext hf)
  · rfl

theorem Names.chownAll_look (uid gid : Nat) : (t.chownAll uid gid).look = t.look :=
  t.change_look (Inode.chown_body uid gid)

theorem Names.chmod_look (p : Path) (f : BitVec 12 → BitVec 12) :
    (t.changeFile p (Inode.chmod f)).look = t.look :=
  t.change_look (Inode.chmod_body f)

end Change

/-! ### New names -/

/-- The names in `R` are replaced.  They share inodes with each other as `σ`
says, and with no other name. -/
def Names.replace (t : Names mnt) (R : Path → Bool) (new : Path → Option Inode)
    (σ : Path → Path → Bool) (hσ : Equivalence (fun p q => σ p q = true))
    (hnew : ∀ p q, σ p q = true → new p = new q)
    (hR : ∀ p q, R p = true → R q = true → σ p q = true → (mnt <+: p ↔ mnt <+: q)) :
    Names mnt where
  inode p := if R p then new p else t.inode p
  same p q := if R p then R q && σ p q else !R q && t.same p q
  equiv := by
    refine ⟨fun p => ?_, fun {p q} h => ?_, fun {p q r} h h' => ?_⟩
    · cases R p <;> simp [hσ.refl p, t.equiv.refl p]
    · cases hp : R p <;> cases hq : R q <;> simp only [hp, hq] at h ⊢
      · simpa using t.equiv.symm (by simpa using h)
      · simp at h
      · simp at h
      · simpa using hσ.symm (by simpa using h)
    · cases hp : R p <;> cases hq : R q <;> cases hr : R r <;> simp [hp, hq, hr] at h h' ⊢
      · exact t.equiv.trans h h'
      · exact hσ.trans h h'
  agree := by
    intro p q h
    cases hp : R p <;> cases hq : R q <;> simp [hp, hq] at h ⊢
    · exact t.agree h
    · exact hnew p q h
  apart := by
    intro p q h
    cases hp : R p <;> cases hq : R q <;> simp [hp, hq] at h
    · exact t.apart h
    · exact hR p q hp hq h

/-- Equality shares nothing. -/
theorem equivalence_beq : Equivalence (fun p q : Path => (p == q) = true) :=
  ⟨fun p => beq_self_eq_true p, fun h => by rw [eq_of_beq h]; exact beq_self_eq_true _,
    fun h h' => by rw [eq_of_beq h]; exact h'⟩

/-- The system with the names of a table and no hard links. -/
def Names.ofTable (mnt : Path) (table : List (Path × Inode)) : Names mnt where
  inode p := (table.find? (fun x => x.1 == p)).map Prod.snd
  same p q := p == q
  equiv := equivalence_beq
  agree h := by rw [eq_of_beq h]
  apart h := by rw [eq_of_beq h]

theorem Names.mem_of_ofTable {table : List (Path × Inode)} {p : Path} {i : Inode}
    (h : (Names.ofTable mnt table).inode p = some i) : (p, i) ∈ table := by
  obtain ⟨x, hx, rfl⟩ := Option.map_eq_some_iff.mp h
  have hp : x.1 = p := by simpa using List.find?_some hx
  rw [← hp]
  exact List.mem_of_find?_eq_some hx

/-- A new inode under the name `p`. -/
def Names.add (t : Names mnt) (p : Path) (i : Inode) : Names mnt :=
  t.replace (fun q => q == p) (fun _ => some i) (fun q r => q == r) equivalence_beq
    (fun _ _ _ => rfl) (fun _ _ _ _ h => by rw [eq_of_beq h])

/-- Which copies share an inode: those of one inode, where `cp` keeps links. -/
def copiesShare (t : Names mnt) (keep : Bool) (p q : Path) : Bool :=
  if keep then t.same p q else p == q

theorem copiesShare_equiv (t : Names mnt) (keep : Bool) :
    Equivalence (fun p q => copiesShare t keep p q = true) := by
  cases keep with
  | true => exact t.equiv
  | false => exact equivalence_beq

theorem copiesShare_agree (t : Names mnt) (keep : Bool) {p q : Path}
    (h : copiesShare t keep p q = true) : t.inode p = t.inode q := by
  cases keep with
  | true => exact t.agree h
  | false => rw [eq_of_beq h]

/-- `cp -a` of the tree under the top name `src` into the directory `dir` on
`mnt`: every name below, with the owner and the mode it has there, and links as
links.  `keep` tells whether `cp` keeps hard links. -/
def Names.copy (t : Names mnt) (keep : Bool) (src : Str) {dir : Path}
    (hdir : mnt <+: dir ++ [src]) : Names mnt :=
  t.replace (fun p => decide (dir ++ [src] <+: p)) (fun p => t.inode (p.drop dir.length))
    (fun p q => copiesShare t keep (p.drop dir.length) (q.drop dir.length))
    ⟨fun _ => (copiesShare_equiv t keep).refl _, fun h => (copiesShare_equiv t keep).symm h,
      fun h h' => (copiesShare_equiv t keep).trans h h'⟩
    (fun _ _ h => copiesShare_agree t keep h)
    (fun _ _ hp hq _ => iff_of_true (hdir.trans (of_decide_eq_true hp))
      (hdir.trans (of_decide_eq_true hq)))

section New

variable (t : Names mnt)

theorem Names.add_inode (p q : Path) (i : Inode) :
    (t.add p i).inode q = if q = p then some i else t.inode q := by
  show (if (q == p) = true then _ else _) = _
  simp only [beq_iff_eq]

theorem prefix_below (dir : Path) (c : Str) (q : Path) : dir ++ [c] <+: dir ++ c :: q :=
  ⟨q, List.append_assoc _ _ _⟩

theorem below_iff {dir p : Path} {c : Str} : dir ++ [c] <+: p ↔ ∃ q, p = dir ++ c :: q := by
  constructor
  · rintro ⟨q, rfl⟩
    exact ⟨q, List.append_assoc _ _ _⟩
  · rintro ⟨q, rfl⟩
    exact prefix_below dir c q

section Copies

variable (keep : Bool) {src : Str} {dir : Path} (hdir : mnt <+: dir ++ [src])

/-- A copy is what the name it is copied from is. -/
theorem Names.copy_inode (q : Path) :
    (t.copy keep src hdir).inode (dir ++ src :: q) = t.inode (src :: q) := by
  show (if decide (dir ++ [src] <+: dir ++ src :: q) = true then
    t.inode ((dir ++ src :: q).drop dir.length) else _) = _
  rw [if_pos (decide_eq_true (prefix_below dir src q)), List.drop_left]

theorem Names.copy_inode_other {p : Path} (hp : ¬ dir ++ [src] <+: p) :
    (t.copy keep src hdir).inode p = t.inode p := by
  show (if decide (dir ++ [src] <+: p) = true then _ else _) = _
  rw [if_neg (by rwa [decide_eq_true_eq])]

theorem Names.copy_same (p q : Path) :
    (t.copy keep src hdir).same (dir ++ src :: p) (dir ++ src :: q)
      = copiesShare t keep (src :: p) (src :: q) := by
  have hbelow : ∀ r, decide (dir ++ [src] <+: dir ++ src :: r) = true :=
    fun r => decide_eq_true (prefix_below dir src r)
  show (if decide (dir ++ [src] <+: dir ++ src :: p) = true then
    decide (dir ++ [src] <+: dir ++ src :: q) && copiesShare t keep
      ((dir ++ src :: p).drop dir.length) ((dir ++ src :: q).drop dir.length) else _) = _
  rw [if_pos (hbelow p), hbelow q, Bool.true_and, List.drop_left, List.drop_left]

theorem Names.copy_same_other {p : Path} (hp : ¬ dir ++ [src] <+: p) (q : Path) :
    (t.copy keep src hdir).same p q = (!decide (dir ++ [src] <+: q) && t.same p q) := by
  show (if decide (dir ++ [src] <+: p) = true then _ else _) = _
  rw [if_neg (by rwa [decide_eq_true_eq])]

/-- Copies share no inode with names elsewhere. -/
theorem Names.copy_same_across {p : Path} (hp : ¬ dir ++ [src] <+: p) (q : Path) :
    (t.copy keep src hdir).same p (dir ++ src :: q) = false := by
  rw [t.copy_same_other keep hdir hp, decide_eq_true (prefix_below dir src q)]
  rfl

end Copies

end New

/-! ### `mkdir` and `touch` -/

/-- A new inode at a path that leads nowhere, in the directory its parent leads
to. -/
def Names.create (t : Names mnt) (p : Path) (i : Inode) : Option (Names mnt) :=
  match t.find p.dropLast, p.getLast? with
  | some dir, some c =>
      if t.look dir = some .dir ∧ (t.look (dir ++ [c])).isNone then some (t.add (dir ++ [c]) i)
      else none
  | _, _ => none

/-- `mkdir` without complaint about an existing directory. -/
def Names.mkdir (t : Names mnt) (p : Path) : Option (Names mnt) :=
  if t.isDir p then some t else t.create p newDir

/-- `mkdir -p` of several paths: every directory on the way, outermost first. -/
def Names.mkdirP (t : Names mnt) (routes : List Path) : Option (Names mnt) :=
  (routes.flatMap List.inits).foldlM Names.mkdir t

/-- `touch`. -/
def Names.touch (t : Names mnt) (p : Path) : Option (Names mnt) :=
  if (t.find p).isSome then some t else t.create p newFile

/-- Nothing is lost, and what is new is a directory or, from `touch`, an empty
file. -/
structure Grown (i : Inode) (t t' : Names mnt) : Prop where
  keeps : ∀ p j, t.inode p = some j → t'.inode p = some j
  new : ∀ p, t.inode p = none → t'.inode p = none ∨ t'.inode p = some i

theorem Grown.refl (i : Inode) (t : Names mnt) : Grown i t t :=
  ⟨fun _ _ h => h, fun _ h => Or.inl h⟩

theorem Grown.trans {i : Inode} {t t' t'' : Names mnt} (h : Grown i t t') (h' : Grown i t' t'') :
    Grown i t t'' := by
  refine ⟨fun p j hj => h'.keeps p j (h.keeps p j hj), fun p hp => ?_⟩
  rcases h.new p hp with hnone | hsome
  · exact h'.new p hnone
  · exact Or.inr (h'.keeps p i hsome)

theorem Names.create_grown {t t' : Names mnt} {p : Path} {i : Inode}
    (h : t.create p i = some t') : Grown i t t' := by
  unfold Names.create at h
  split at h
  · rename_i dir c _ _
    simp only [Option.ite_none_right_eq_some, Option.some.injEq] at h
    obtain ⟨⟨_, hfree⟩, rfl⟩ := h
    have hnone : t.inode (dir ++ [c]) = none :=
      Option.map_eq_none_iff.mp (Option.isNone_iff_eq_none.mp hfree)
    refine ⟨fun q j hj => ?_, fun q hq => ?_⟩
    · rw [t.add_inode, if_neg (by rintro rfl; rw [hnone] at hj; cases hj), hj]
    · rw [t.add_inode]
      split
      · exact Or.inr rfl
      · exact Or.inl hq
  · cases h

theorem Names.mkdir_grown {t t' : Names mnt} {p : Path} (h : t.mkdir p = some t') :
    Grown newDir t t' := by
  unfold Names.mkdir at h
  split at h
  · rw [← Option.some.inj h]
    exact Grown.refl newDir t
  · exact create_grown h

theorem Names.touch_grown {t t' : Names mnt} {p : Path} (h : t.touch p = some t') :
    Grown newFile t t' := by
  unfold Names.touch at h
  split at h
  · rw [← Option.some.inj h]
    exact Grown.refl newFile t
  · exact create_grown h

theorem mkdirs_grown (ps : List Path) :
    ∀ {t t' : Names mnt}, ps.foldlM Names.mkdir t = some t' → Grown newDir t t' := by
  induction ps with
  | nil =>
      intro t t' h
      rw [← Option.some.inj h]
      exact Grown.refl newDir t
  | cons p ps ih =>
      intro t t' h
      rw [List.foldlM_cons] at h
      obtain ⟨v, hv, hrest⟩ := Option.bind_eq_some_iff.mp h
      exact (Names.mkdir_grown hv).trans (ih hrest)

/-- **`mkdir -p` adds directories and nothing else.** -/
theorem Names.mkdirP_grown {t t' : Names mnt} {routes : List Path}
    (h : t.mkdirP routes = some t') : Grown newDir t t' :=
  mkdirs_grown _ h

/-- A name that is free or a directory stays so. -/
theorem Grown.plain {t t' : Names mnt} (h : Grown newDir t t') {p : Path}
    (hp : Plain (t.look p)) : Plain (t'.look p) := by
  unfold Names.look at hp ⊢
  cases hj : t.inode p with
  | none =>
      rcases h.new p hj with hnone | hsome
      · rw [hnone]
        exact Or.inl rfl
      · rw [hsome]
        exact Or.inr rfl
  | some j =>
      rw [hj] at hp
      rw [h.keeps p j hj]
      exact hp

end Slinux.Unix.Links
