import Slinux.Shell.Glob

/-!
# Disk and partition names

The kernel names the partitions of a disk after the disk: partition `n` of
`/dev/NAME` is `/dev/NAMEn`, or `/dev/NAMEpn` when `NAME` ends in a digit.
`slinux-install` re-derives the prefix with a `case` on the disk's path that
knows two driver names.  The two rules agree on most machines and differ on
the rest; everything the installer does to a partition goes through the
second one.

## Main results

* `diskP_eq_partNode` — where the rules agree, `"$P"n` is partition `n`.
* `diskP_not_own` — where they differ, `"$P"1` and `"$P"2` are neither the
  disk nor one of its first two partitions.
-/

namespace Slinux.Disk.Name

open Slinux.Shell.Text
open Slinux.Shell.Glob

/-! ## Names -/

/-- A character without meaning to the shell or in a path.  The kernel names
disks with dots too, which `grep` takes for any character. -/
def plainChar (c : Char) : Bool :=
  !isBlank c && !("/*?[]\\^$,=\"'".toList.contains c)

/-- The kernel's name of a block device. -/
structure DevName where
  text : Str
  ne : text ≠ []
  plain : ∀ c ∈ text, plainChar c = true

instance : DecidableEq DevName := fun a b =>
  decidable_of_iff (a.text = b.text) (by cases a; cases b; simp)

/-- The text of a number, as the shell and the kernel print it. -/
def decimal (n : Nat) : Str := Nat.toDigits 10 n

/-- `/dev/`. -/
def devDir : Str := "/dev/".toList

/-- The node of a device. -/
def devPath (name : Str) : Str := devDir ++ name

def endsInDigit (s : Str) : Bool :=
  match s.getLast? with
  | some c => c.isDigit
  | none => false

/-- The kernel's name of partition `n` of the disk `name`. -/
def partName (name : Str) (n : Nat) : Str :=
  name ++ (if endsInDigit name then ['p'] else []) ++ decimal n

/-- The node of partition `n`. -/
def partNode (name : Str) (n : Nat) : Str := devPath (partName name n)

/-- What the nodes of a disk's partitions have in front of their number. -/
def partStem (disk : Str) : Str := disk ++ (if endsInDigit disk then ['p'] else [])

/-- `node` is the disk with the node `disk`, or by its name one of the disk's
partitions. -/
def isNodeOf (disk node : Str) : Bool :=
  node == disk || ((partStem disk).isPrefixOf node && node.length != (partStem disk).length &&
    (node.drop (partStem disk).length).all Char.isDigit)

/-! ## The installer's rule -/

/-- `case $DISK in *nvme* | *mmcblk*)`. -/
def takesP (disk : Str) : Bool :=
  caseArm [.star :: (lits "nvme".toList ++ [.star]),
    .star :: (lits "mmcblk".toList ++ [.star])] disk

/-- `P=$DISK`, or `P=$DISK'p'` in the `case` above. -/
def diskP (disk : Str) : Str := if takesP disk then disk ++ ['p'] else disk

/-- `"$P"n`. -/
def partP (disk : Str) (n : Nat) : Str := diskP disk ++ decimal n

/-- The nodes the installer is entitled to write: the disk and its first two
partitions. -/
def ownNodes (name : Str) : List Str := [devPath name, partNode name 1, partNode name 2]

/-- The installer's rule agrees with the kernel's on this disk. -/
def NamesAgree (name : Str) : Prop := takesP (devPath name) = endsInDigit name

instance (name : Str) : Decidable (NamesAgree name) :=
  inferInstanceAs (Decidable (_ = _))

theorem diskP_eq_partNode {name : Str} (h : NamesAgree name) (n : Nat) :
    partP (devPath name) n = partNode name n := by
  unfold NamesAgree at h
  rw [partP, diskP, h, partNode, partName]
  cases endsInDigit name <;> simp [devPath]

/-- Two rules that differ by one `p` never meet on the first two
partitions. -/
theorem diskP_not_own {name : Str} (h : ¬ NamesAgree name) {n : Nat} (hn : n = 1 ∨ n = 2) :
    partP (devPath name) n ∉ ownNodes name := by
  have h1 : (decimal 1).length = 1 := rfl
  have h2 : (decimal 2).length = 1 := rfl
  have hlen : (decimal n).length = 1 := by
    rcases hn with rfl | rfl <;> rfl
  intro hmem
  simp only [ownNodes, List.mem_cons, List.not_mem_nil, or_false] at hmem
  unfold NamesAgree at h
  have hcases : (takesP (devPath name) = true ∧ endsInDigit name = false) ∨
      (takesP (devPath name) = false ∧ endsInDigit name = true) := by
    revert h
    cases takesP (devPath name) <;> cases endsInDigit name <;> simp
  rcases hcases with ⟨ht, hd⟩ | ⟨ht, hd⟩
  all_goals
    rcases hmem with hm | hm | hm
    all_goals
      have hl := congrArg List.length hm
      simp only [partP, diskP, ht, hd, partNode, partName, if_true, if_false,
        Bool.false_eq_true] at hl
      simp [devPath, h1, h2, hlen] at hl

/-! ## Partition names are names -/

theorem plainChar_of_isDigit {c : Char} (h : c.isDigit = true) : plainChar c = true := by
  have hspecial : ∀ d ∈ " \t\n/*?[]\\^$,=\"'".toList, d.isDigit = false := by simp
  by_contra hp
  have hmem : c ∈ " \t\n/*?[]\\^$,=\"'".toList := by
    simp [plainChar, isBlank] at hp ⊢
    grind
  rw [hspecial c hmem] at h
  exact absurd h (by decide)

theorem partNode_eq (name : DevName) (n : Nat) :
    partNode name.text n = partStem (devPath name.text) ++ decimal n := by
  have hends : endsInDigit (devPath name.text) = endsInDigit name.text := by
    unfold endsInDigit devPath
    rw [List.getLast?_append_of_ne_nil _ name.ne]
  rw [partStem, hends]
  simp only [partNode, partName, devPath, List.append_assoc]

/-- Partition `n` is named as one. -/
theorem isNodeOf_partNode (name : DevName) (n : Nat) :
    isNodeOf (devPath name.text) (partNode name.text n) = true := by
  have hdigits : (decimal n).all Char.isDigit = true := List.all_eq_true.mpr (fun c hc =>
    Nat.isDigit_of_mem_toDigits (by decide) (by decide) hc)
  have hne : decimal n ≠ [] := List.ne_nil_of_length_pos Nat.length_toDigits_pos
  have hprefix : (partStem (devPath name.text)).isPrefixOf
      (partStem (devPath name.text) ++ decimal n) = true :=
    List.isPrefixOf_iff_prefix.mpr (List.prefix_append _ _)
  rw [partNode_eq, isNodeOf, List.drop_left, hdigits, hprefix]
  simp [hne]

/-- Partition `n` of a disk, as a device of its own. -/
def DevName.part (name : DevName) (n : Nat) : DevName where
  text := partName name.text n
  ne := by simp [partName, name.ne]
  plain := by
    intro c hc
    simp only [partName, List.mem_append] at hc
    rcases hc with (hc | hc) | hc
    · exact name.plain c hc
    · split at hc
      · obtain rfl := List.mem_singleton.mp hc
        decide
      · simp at hc
    · exact plainChar_of_isDigit (Nat.isDigit_of_mem_toDigits (by decide) (by decide) hc)

end Slinux.Disk.Name
