import Mathlib.Data.List.Sort
import Mathlib.Data.Char
import Mathlib.Order.Lex
import Mathlib.Data.List.Lex
import Slinux.Shell.Text

/-!
# The two initramfs recipes

The image the boot medium carries is packed by two independent recipes: the
`initramfs` target of the Makefile and the `initramfs` custom target of
`meson.build`.  Both pipe a sorted list of names into `cpio` and `gzip`, but
only the first normalises what `cpio` then reads: it sets every modification
time to `SOURCE_DATE_EPOCH` and every owner to `0:0`.

A `Tree` is a root file system as the tools see it: the names in whatever
order `find` happens to produce them, the on-disk inode behind each name, and
the attributes of each inode.  Two trees are `Similar` when a reproducible
build must not tell them apart.

## Main results

* `sortNames_eq_of_perm` — the bytewise sort cancels the enumeration order.
* `number_congr` — renumbered inodes depend only on the hard-link structure.
* `reproducible_iff` — on similar trees a recipe gives one archive with owner
  `0:0` throughout **iff** it is the Makefile's or the trees agree in their
  modification times and are owned by `0:0` already.
-/

namespace Slinux.Build.Initramfs

open Slinux.Shell.Text

/-! ## Trees -/

/-- The file types an archive distinguishes. -/
inductive FileType where
  | regular
  | directory
  | symlink
  | device
  deriving Repr, DecidableEq

/-- What an inode records. -/
@[ext] structure Attr where
  ftype : FileType
  mode : Nat
  uid : Nat
  gid : Nat
  mtime : Nat
  data : Str
  deriving Repr, DecidableEq

/-- A root file system: the names in `find`'s order, the inode of each name,
and the attributes of each inode. -/
structure Tree where
  names : List Str
  ino : Str → Nat
  attr : Nat → Attr

/-- The attributes behind a name. -/
def Tree.look (t : Tree) (p : Str) : Attr := t.attr (t.ino p)

/-- Change the attributes of the inode behind `p`. -/
def Tree.modify (t : Tree) (f : Attr → Attr) (p : Str) : Tree :=
  { t with attr := fun i => if i = t.ino p then f (t.attr i) else t.attr i }

/-- Change the inode behind every name in a list, one after the other. -/
def Tree.modifyAll (f : Attr → Attr) : Tree → List Str → Tree
  | t, [] => t
  | t, p :: ps => (t.modify f p).modifyAll f ps

/-- `find … -print0 | xargs -0 touch -h -d @epoch`. -/
def Tree.touchAll (epoch : Nat) (t : Tree) : Tree :=
  t.modifyAll (fun a => { a with mtime := epoch }) t.names

/-- `chown -R 0:0` under fakeroot: the recorded owner of everything. -/
def Tree.chownAll (t : Tree) : Tree :=
  t.modifyAll (fun a => { a with uid := 0, gid := 0 }) t.names

/-! ## The archive -/

/-- One member of a `newc` archive. -/
structure Entry where
  name : Str
  ino : Nat
  attr : Attr
  deriving Repr, DecidableEq

/-- `--reproducible` numbers the inodes in order of first appearance. -/
def number (seen : List Nat) : List Nat → List Nat
  | [] => []
  | i :: is =>
      if i ∈ seen then seen.idxOf i :: number seen is
      else seen.length :: number (seen ++ [i]) is

/-- `LC_ALL=C sort -z`. -/
def sortNames (names : List Str) : List Str := names.insertionSort (· ≤ ·)

/-- `cpio --null -o -H newc --reproducible` on a list of names. -/
def cpio (t : Tree) (names : List Str) : List Entry :=
  List.zipWith (fun p i => ⟨p, i, t.look p⟩) names (number [] (names.map t.ino))

/-- A gzip file: the two fields of its header that come from the environment,
and what it decompresses to. -/
structure Gzip where
  name : Str
  mtime : Nat
  payload : List Entry
  deriving Repr, DecidableEq

/-- `gzip -9n`: neither name nor time is stored. -/
def gzip9n (payload : List Entry) : Gzip := ⟨[], 0, payload⟩

/-- The two build paths. -/
inductive Recipe where
  | makefile
  | meson
  deriving Repr, DecidableEq

/-- The tree a recipe archives: the Makefile normalises it first. -/
def Recipe.prepare (epoch : Nat) : Recipe → Tree → Tree
  | .makefile, t => (t.touchAll epoch).chownAll
  | .meson, t => t

/-- The members of a recipe's archive. -/
def Recipe.entries (r : Recipe) (epoch : Nat) (t : Tree) : List Entry :=
  cpio (r.prepare epoch t) (sortNames (r.prepare epoch t).names)

/-- The file a recipe emits. -/
def Recipe.emit (r : Recipe) (epoch : Nat) (t : Tree) : Gzip := gzip9n (r.entries epoch t)

/-! ## What a recipe keeps of a tree -/

@[simp] theorem Tree.modify_ino (t : Tree) (f : Attr → Attr) (p : Str) :
    (t.modify f p).ino = t.ino := rfl

theorem Tree.modifyAll_names (f : Attr → Attr) :
    ∀ (ps : List Str) (t : Tree), (t.modifyAll f ps).names = t.names := by
  intro ps
  induction ps with
  | nil => intro t; rfl
  | cons p ps ih => intro t; exact ih (t.modify f p)

theorem Tree.modifyAll_ino (f : Attr → Attr) :
    ∀ (ps : List Str) (t : Tree), (t.modifyAll f ps).ino = t.ino := by
  intro ps
  induction ps with
  | nil => intro t; rfl
  | cons p ps ih => intro t; exact ih (t.modify f p)

/-- Changing every listed inode by an idempotent change changes each of them
once, however many names share it. -/
theorem Tree.modifyAll_attr (f : Attr → Attr) (hf : ∀ a, f (f a) = f a) :
    ∀ (ps : List Str) (t : Tree) (i : Nat),
      (t.modifyAll f ps).attr i = if i ∈ ps.map t.ino then f (t.attr i) else t.attr i := by
  intro ps
  induction ps with
  | nil => intro t i; simp [Tree.modifyAll]
  | cons q ps ih =>
      intro t i
      rw [Tree.modifyAll, ih (t.modify f q) i, Tree.modify_ino]
      by_cases hq : i = t.ino q
      · subst hq
        simp [Tree.modify, hf]
      · simp [Tree.modify, hq]

theorem Tree.modifyAll_look (f : Attr → Attr) (hf : ∀ a, f (f a) = f a) (t : Tree)
    {ps : List Str} {p : Str} (hp : p ∈ ps) :
    (t.modifyAll f ps).look p = f (t.look p) := by
  rw [Tree.look, Tree.modifyAll_ino, Tree.modifyAll_attr f hf,
    if_pos (List.mem_map_of_mem hp)]
  rfl

theorem Recipe.prepare_names (r : Recipe) (epoch : Nat) (t : Tree) :
    (r.prepare epoch t).names = t.names := by
  cases r with
  | makefile => simp only [prepare, Tree.chownAll, Tree.touchAll, Tree.modifyAll_names]
  | meson => rfl

theorem Recipe.prepare_ino (r : Recipe) (epoch : Nat) (t : Tree) :
    (r.prepare epoch t).ino = t.ino := by
  cases r with
  | makefile => simp only [prepare, Tree.chownAll, Tree.touchAll, Tree.modifyAll_ino]
  | meson => rfl

/-- After the Makefile's two passes only type, mode and contents are left of
the tree. -/
theorem makefile_look (epoch : Nat) (t : Tree) {p : Str} (hp : p ∈ t.names) :
    (Recipe.makefile.prepare epoch t).look p
      = { t.look p with mtime := epoch, uid := 0, gid := 0 } := by
  have hp' : p ∈ (t.touchAll epoch).names := by
    rw [Tree.touchAll, Tree.modifyAll_names]
    exact hp
  have htouch : (t.touchAll epoch).look p = { t.look p with mtime := epoch } :=
    Tree.modifyAll_look (fun a => { a with mtime := epoch }) (fun _ => rfl) t hp
  have hchown : (t.touchAll epoch).chownAll.look p
      = { (t.touchAll epoch).look p with uid := 0, gid := 0 } :=
    Tree.modifyAll_look (fun a => { a with uid := 0, gid := 0 }) (fun _ => rfl) _ hp'
  rw [Recipe.prepare, hchown, htouch]

/-! ## Order and numbering -/

/-- The bytewise sort cancels the order in which `find` lists the names. -/
theorem sortNames_eq_of_perm {l₁ l₂ : List Str} (h : l₁.Perm l₂) :
    sortNames l₁ = sortNames l₂ := by
  refine List.Perm.eq_of_sortedLE List.sortedLE_insertionSort List.sortedLE_insertionSort ?_
  exact (List.perm_insertionSort _ l₁).trans (h.trans (List.perm_insertionSort _ l₂).symm)

theorem mem_sortNames {l : List Str} {p : Str} : p ∈ sortNames l ↔ p ∈ l :=
  (List.perm_insertionSort _ l).mem_iff

theorem length_number (seen is : List Nat) : (number seen is).length = is.length := by
  induction is generalizing seen with
  | nil => rfl
  | cons i is ih =>
      simp only [number]
      split <;> simp [ih]

/-- First positions agree when the two sides identify the same elements. -/
theorem idxOf_map_congr {ι₁ ι₂ : Str → Nat} (p : Str) (ps : List Str)
    (h : ∀ q ∈ ps, ι₁ q = ι₁ p ↔ ι₂ q = ι₂ p) :
    (ps.map ι₁).idxOf (ι₁ p) = (ps.map ι₂).idxOf (ι₂ p) := by
  induction ps with
  | nil => rfl
  | cons q ps ih =>
      have hq := h q (by simp)
      have hps := ih (fun q' hq' => h q' (by simp [hq']))
      simp only [List.map_cons, List.idxOf_cons, beq_iff_eq, cond_eq_ite]
      by_cases he : ι₁ q = ι₁ p
      · simp [he, hq.mp he]
      · have he' : ¬ ι₂ q = ι₂ p := fun e => he (hq.mpr e)
        simp [he, he', hps]

/-- Renumbered inodes are a function of the hard-link structure. -/
theorem number_congr {ι₁ ι₂ : Str → Nat} (names : List Str) :
    ∀ seen : List Str,
      (∀ p ∈ seen ++ names, ∀ q ∈ seen ++ names, ι₁ p = ι₁ q ↔ ι₂ p = ι₂ q) →
      number (seen.map ι₁) (names.map ι₁) = number (seen.map ι₂) (names.map ι₂) := by
  induction names with
  | nil => intro seen _; rfl
  | cons p names ih =>
      intro seen h
      have hp : p ∈ seen ++ p :: names := by simp
      have hseen : ∀ q ∈ seen, ι₁ q = ι₁ p ↔ ι₂ q = ι₂ p :=
        fun q hq => h q (List.mem_append_left _ hq) p hp
      have hmem : ι₁ p ∈ seen.map ι₁ ↔ ι₂ p ∈ seen.map ι₂ := by
        simp only [List.mem_map]
        exact ⟨fun ⟨q, hq, e⟩ => ⟨q, hq, (hseen q hq).mp e⟩,
          fun ⟨q, hq, e⟩ => ⟨q, hq, (hseen q hq).mpr e⟩⟩
      simp only [List.map_cons, number, List.length_map]
      by_cases hin : ι₁ p ∈ seen.map ι₁
      · rw [if_pos hin, if_pos (hmem.mp hin), idxOf_map_congr p seen hseen]
        have hsub : ∀ q ∈ seen ++ names, q ∈ seen ++ p :: names := by
          intro q hq
          rcases List.mem_append.mp hq with hq | hq
          · exact List.mem_append_left _ hq
          · exact List.mem_append_right _ (List.mem_cons_of_mem p hq)
        rw [ih seen (fun q hq q' hq' => h q (hsub q hq) q' (hsub q' hq'))]
      · rw [if_neg hin, if_neg (fun e => hin (hmem.mpr e))]
        have hnext := ih (seen ++ [p]) (by simpa using h)
        simp only [List.map_append, List.map_cons, List.map_nil] at hnext
        rw [hnext]

/-- The names and attributes of an archive, without the inode numbers. -/
theorem cpio_map (t : Tree) (names : List Str) :
    (cpio t names).map (fun e => (e.name, e.attr)) = names.map (fun p => (p, t.look p)) := by
  have hlen : (number [] (names.map t.ino)).length = names.length := by
    rw [length_number, List.length_map]
  rw [cpio, List.map_zipWith]
  refine List.ext_getElem (by simp [hlen]) ?_
  intro n h₁ h₂
  simp

theorem mem_cpio {t : Tree} {names : List Str} {p : Str} {a : Attr} :
    (∃ e ∈ cpio t names, e.name = p ∧ e.attr = a) ↔ p ∈ names ∧ t.look p = a := by
  have h : (p, a) ∈ (cpio t names).map (fun e => (e.name, e.attr)) ↔
      (p, a) ∈ names.map (fun p => (p, t.look p)) := by rw [cpio_map]
  simpa [and_assoc, and_left_comm] using h

/-- The archive is a function of the sorted names, the attributes behind them
and the hard-link structure. -/
theorem cpio_congr {t₁ t₂ : Tree} {names : List Str}
    (hlook : ∀ p ∈ names, t₁.look p = t₂.look p)
    (hlinks : ∀ p ∈ names, ∀ q ∈ names, t₁.ino p = t₁.ino q ↔ t₂.ino p = t₂.ino q) :
    cpio t₁ names = cpio t₂ names := by
  have hnum : number [] (names.map t₁.ino) = number [] (names.map t₂.ino) :=
    number_congr names [] (by simpa using hlinks)
  rw [cpio, cpio, hnum]
  refine List.ext_getElem (by simp) ?_
  intro n h₁ h₂
  have hn : n < names.length := by
    rw [List.length_zipWith] at h₁
    omega
  simp [hlook _ (List.getElem_mem hn)]

/-! ## Reproducibility -/

/-- Two trees a reproducible build must not tell apart: same names up to
order, same types, modes and contents, same hard links. -/
structure Similar (t₁ t₂ : Tree) : Prop where
  names : t₁.names.Perm t₂.names
  ftype : ∀ p ∈ t₁.names, (t₁.look p).ftype = (t₂.look p).ftype
  mode : ∀ p ∈ t₁.names, (t₁.look p).mode = (t₂.look p).mode
  data : ∀ p ∈ t₁.names, (t₁.look p).data = (t₂.look p).data
  links : ∀ p ∈ t₁.names, ∀ q ∈ t₁.names, t₁.ino p = t₁.ino q ↔ t₂.ino p = t₂.ino q

/-- The entry is owned by `0:0`. -/
def Entry.ownedByRoot (e : Entry) : Prop := e.attr.uid = 0 ∧ e.attr.gid = 0

instance (e : Entry) : Decidable e.ownedByRoot :=
  inferInstanceAs (Decidable (e.attr.uid = 0 ∧ e.attr.gid = 0))

/-- One archive for both trees, owned by `0:0` throughout. -/
def Reproducible (r : Recipe) (epoch : Nat) (t₁ t₂ : Tree) : Prop :=
  r.emit epoch t₁ = r.emit epoch t₂ ∧
    ∀ t, t = t₁ ∨ t = t₂ → ∀ e ∈ r.entries epoch t, e.ownedByRoot

/-- The trees need no normalisation: equal modification times, and owner
`0:0` on both sides. -/
def Normalised (t₁ t₂ : Tree) : Prop :=
  ∀ p ∈ t₁.names, (t₁.look p).mtime = (t₂.look p).mtime ∧
    ((t₁.look p).uid = 0 ∧ (t₁.look p).gid = 0) ∧
    ((t₂.look p).uid = 0 ∧ (t₂.look p).gid = 0)

theorem emit_eq_iff (r : Recipe) (epoch : Nat) (t₁ t₂ : Tree) :
    r.emit epoch t₁ = r.emit epoch t₂ ↔ r.entries epoch t₁ = r.entries epoch t₂ := by
  simp [Recipe.emit, gzip9n]

theorem entries_eq (r : Recipe) (epoch : Nat) (t : Tree) :
    r.entries epoch t = cpio (r.prepare epoch t) (sortNames t.names) := by
  rw [Recipe.entries, Recipe.prepare_names]

/-- Two recipes' archives of similar trees are equal when the prepared trees
look alike. -/
theorem entries_congr {r : Recipe} {epoch : Nat} {t₁ t₂ : Tree} (h : Similar t₁ t₂)
    (hlook : ∀ p ∈ t₁.names, (r.prepare epoch t₁).look p = (r.prepare epoch t₂).look p) :
    r.entries epoch t₁ = r.entries epoch t₂ := by
  rw [entries_eq, entries_eq, ← sortNames_eq_of_perm h.names]
  refine cpio_congr (fun p hp => hlook p (mem_sortNames.mp hp)) ?_
  intro p hp q hq
  rw [Recipe.prepare_ino, Recipe.prepare_ino]
  exact h.links p (mem_sortNames.mp hp) q (mem_sortNames.mp hq)

/-- Every entry is owned by `0:0` when every prepared inode is. -/
theorem entries_ownedByRoot {r : Recipe} {epoch : Nat} {t : Tree}
    (h : ∀ p ∈ t.names, ((r.prepare epoch t).look p).uid = 0 ∧
      ((r.prepare epoch t).look p).gid = 0) :
    ∀ e ∈ r.entries epoch t, e.ownedByRoot := by
  intro e he
  rw [entries_eq] at he
  have hmem := mem_cpio.mp ⟨e, he, rfl, rfl⟩
  have hown := h e.name (mem_sortNames.mp hmem.1)
  rw [hmem.2] at hown
  exact hown

theorem makefile_reproducible (epoch : Nat) {t₁ t₂ : Tree} (h : Similar t₁ t₂) :
    Reproducible .makefile epoch t₁ t₂ := by
  refine ⟨(emit_eq_iff _ _ _ _).mpr (entries_congr h ?_), ?_⟩
  · intro p hp
    rw [makefile_look epoch t₁ hp, makefile_look epoch t₂ (h.names.mem_iff.mp hp)]
    exact Attr.ext (h.ftype p hp) (h.mode p hp) rfl rfl rfl (h.data p hp)
  · rintro t (rfl | rfl)
    all_goals
      refine entries_ownedByRoot (fun p hp => ?_)
      rw [makefile_look epoch _ hp]
      exact ⟨rfl, rfl⟩

/-- The other recipe archives the tree as it is. -/
theorem meson_reproducible_iff (epoch : Nat) {t₁ t₂ : Tree} (h : Similar t₁ t₂) :
    Reproducible .meson epoch t₁ t₂ ↔ Normalised t₁ t₂ := by
  constructor
  · rintro ⟨hemit, hown⟩ p hp
    have hentries := (emit_eq_iff _ _ _ _).mp hemit
    obtain ⟨e₁, he₁, hn₁, ha₁⟩ :=
      (mem_cpio (t := t₁) (a := t₁.look p)).mpr ⟨mem_sortNames.mpr hp, rfl⟩
    have hmem₁ : e₁ ∈ Recipe.meson.entries epoch t₁ := by rw [entries_eq]; exact he₁
    have hmem₂ : e₁ ∈ Recipe.meson.entries epoch t₂ := hentries ▸ hmem₁
    have ha₂ : t₂.look p = e₁.attr := by
      rw [entries_eq] at hmem₂
      exact (mem_cpio.mp ⟨e₁, hmem₂, hn₁, rfl⟩).2
    have hroot := hown t₁ (Or.inl rfl) e₁ hmem₁
    rw [Entry.ownedByRoot] at hroot
    rw [ha₂, ← ha₁]
    exact ⟨rfl, hroot, hroot⟩
  · intro hnorm
    refine ⟨(emit_eq_iff _ _ _ _).mpr (entries_congr h ?_), ?_⟩
    · intro p hp
      obtain ⟨hm, ⟨hu₁, hg₁⟩, hu₂, hg₂⟩ := hnorm p hp
      exact Attr.ext (h.ftype p hp) (h.mode p hp) (hu₁.trans hu₂.symm) (hg₁.trans hg₂.symm)
        hm (h.data p hp)
    · rintro t (rfl | rfl)
      · exact entries_ownedByRoot (fun p hp => (hnorm p hp).2.1)
      · exact entries_ownedByRoot
          (fun p hp => (hnorm p (h.names.mem_iff.mpr hp)).2.2)

/-- **Reproducibility.**  On similar trees a recipe is reproducible exactly if
it is the Makefile's or there was nothing to normalise. -/
theorem reproducible_iff (r : Recipe) (epoch : Nat) (t₁ t₂ : Tree) (h : Similar t₁ t₂) :
    Reproducible r epoch t₁ t₂ ↔ r = .makefile ∨ Normalised t₁ t₂ := by
  cases r with
  | makefile => exact ⟨fun _ => Or.inl rfl, fun _ => makefile_reproducible epoch h⟩
  | meson =>
      rw [meson_reproducible_iff epoch h]
      constructor
      · exact Or.inr
      · rintro (hr | hn)
        · cases hr
        · exact hn

/-- A tree with one file, built at a given time by a given user. -/
def oneFile (owner time : Nat) : Tree where
  names := [".".toList, "./init".toList]
  ino := fun p => if p = ".".toList then 7 else 9
  attr := fun i =>
    if i = 7 then ⟨.directory, 0o755, owner, owner, time, []⟩
    else ⟨.regular, 0o755, owner, owner, time, "elf".toList⟩

private theorem oneFile_similar (o₁ m₁ o₂ m₂ : Nat) : Similar (oneFile o₁ m₁) (oneFile o₂ m₂) where
  names := List.Perm.refl _
  ftype := by intro p hp; simp only [Tree.look, oneFile]; split <;> split <;> simp_all
  mode := by intro p hp; simp only [Tree.look, oneFile]; split <;> split <;> simp_all
  data := by intro p hp; simp only [Tree.look, oneFile]; split <;> split <;> simp_all
  links := by intro p _ q _; exact Iff.rfl

/-- Built an hour apart by two users, the Makefile's image is the same. -/
theorem reproducible_oneFile :
    Reproducible .makefile 1704067200 (oneFile 1000 5) (oneFile 1001 3605) :=
  (reproducible_iff .makefile 1704067200 (oneFile 1000 5) (oneFile 1001 3605)
    (oneFile_similar 1000 5 1001 3605)).mpr (Or.inl rfl)

/-- The same two trees through `meson.build`: the images differ, and neither
is owned by root. -/
theorem meson_not_reproducible :
    Similar (oneFile 1000 5) (oneFile 1001 3605) ∧
      Recipe.meson.emit 1704067200 (oneFile 1000 5)
        ≠ Recipe.meson.emit 1704067200 (oneFile 1001 3605) ∧
      ¬ ∀ e ∈ Recipe.meson.entries 1704067200 (oneFile 1000 5), e.ownedByRoot := by
  refine ⟨oneFile_similar 1000 5 1001 3605, ?_, ?_⟩
  · decide
  · decide

end Slinux.Build.Initramfs
