import Slinux.Disk.Name
import Slinux.Shell.Regex

/-!
# `sfdisk -d` dumps

Installer and boot script never ask the kernel for a partition UUID; both
parse the text `sfdisk -d` prints.  This module fixes that text: header
lines, and one line per partition that starts with the partition's node.  On
a GPT disk the line carries a field `uuid=`, optionally followed by the
partition's name; on other disks it does not.

The well-formedness of a line is part of its type.  A partition name may hold
any text except `uuid=` and newlines, which is the one assumption about names
the two parsers need.

## Main results

* `afterLast?_gpt` — in a GPT line the last `uuid=` is the field.
* `afterLast?_other` — other partition lines have no `uuid=` at all.
-/

namespace Slinux.Disk.Dump

open Slinux.Shell.Text
open Slinux.Shell.Regex
open Slinux.Disk.Name

/-! ## Lines -/

/-- The key both parsers look for. -/
def uuidKey : Str := "uuid=".toList

/-- Characters of a UUID. -/
def isHexDash (c : Char) : Bool :=
  c.isDigit || decide ('a' ≤ c ∧ c ≤ 'f') || decide ('A' ≤ c ∧ c ≤ 'F') || c == '-'

/-- A partition UUID. -/
structure Uuid where
  text : Str
  ne : text ≠ []
  hex : ∀ c ∈ text, isHexDash c = true

instance : DecidableEq Uuid := fun a b =>
  decidable_of_iff (a.text = b.text) (by cases a; cases b; simp)

/-- The fields of a GPT partition line around its `uuid=`: everything from the
space behind the node up to the key, the value, and what follows it. -/
structure GptFields where
  before : Str
  uuid : Uuid
  behind : Str
  space : before.head? = some ' '
  oneLine : '\n' ∉ before ∧ '\n' ∉ behind
  comma : behind = [] ∨ behind.head? = some ','
  clean : ¬ uuidKey <:+: behind

/-- What follows the node in a partition line without a UUID. -/
structure OtherFields where
  text : Str
  space : text.head? = some ' '
  oneLine : '\n' ∉ text
  clean : ¬ uuidKey <:+: text

/-- A line that is not about a partition. -/
structure HeaderLine where
  text : Str
  oneLine : '\n' ∉ text
  noNode : ¬ devDir <+: text

/-- One line of a dump. -/
inductive DumpLine where
  | header (l : HeaderLine)
  | gpt (node : DevName) (f : GptFields)
  | other (node : DevName) (f : OtherFields)

/-- The text behind the node of a GPT line. -/
def GptFields.text (f : GptFields) : Str :=
  f.before ++ uuidKey ++ f.uuid.text ++ f.behind

/-- The line as printed. -/
def DumpLine.text : DumpLine → Str
  | .header l => l.text
  | .gpt node f => devPath node.text ++ f.text
  | .other node f => devPath node.text ++ f.text

/-- The dump as printed. -/
def dumpText (lines : List DumpLine) : Str := unlines (lines.map DumpLine.text)

/-- The UUID of a line, if it has one. -/
def DumpLine.uuid? : DumpLine → Option Uuid
  | .gpt _ f => some f.uuid
  | _ => none

/-- The table the installer's `sfdisk` call writes: some header lines, and the
fields of the two partitions. -/
structure Layout where
  header : List HeaderLine
  esp : GptFields
  root : GptFields

/-- The dump of the disk `name` with this table. -/
def Layout.lines (t : Layout) (name : DevName) : List DumpLine :=
  t.header.map .header ++ [.gpt (name.part 1) t.esp, .gpt (name.part 2) t.root]

/-! ## Nodes and keys -/

theorem DevName.not_mem {name : DevName} {c : Char} (h : plainChar c = false) :
    c ∉ name.text := by
  intro hc
  rw [name.plain c hc] at h
  exact absurd h (by decide)

theorem devPath_not_mem {name : DevName} {c : Char} (h : plainChar c = false)
    (hd : c ∉ devDir) : c ∉ devPath name.text := by
  rw [devPath, List.mem_append, not_or]
  exact ⟨hd, DevName.not_mem h⟩

/-- A character that is neither a hex digit nor a dash is not in a UUID. -/
theorem Uuid.not_mem (u : Uuid) {c : Char} (h : isHexDash c = false) : c ∉ u.text := by
  intro hc
  rw [u.hex c hc] at h
  exact absurd h (by decide)

theorem Uuid.noBlank (u : Uuid) : ∀ c ∈ u.text, isBlank c = false := by
  intro c hc
  cases hb : isBlank c with
  | false => rfl
  | true =>
      have hhex : isHexDash c = false := by
        simp only [isBlank, Bool.or_eq_true, beq_iff_eq] at hb
        rcases hb with (rfl | rfl) | rfl <;> decide
      exact absurd hc (u.not_mem hhex)

theorem devPath_noBlank (name : DevName) : ∀ c ∈ devPath name.text, isBlank c = false := by
  have hdir : ∀ c ∈ devDir, isBlank c = false := by
    have hall : devDir.all (fun c => !isBlank c) = true := by decide
    simpa only [List.all_eq_true, Bool.not_eq_true'] using hall
  intro c hc
  cases hb : isBlank c with
  | false => rfl
  | true =>
      have hplain : plainChar c = false := by simp [plainChar, hb]
      have hnd : c ∉ devDir := by
        intro hd
        rw [hdir c hd] at hb
        exact absurd hb (by decide)
      exact absurd hc (devPath_not_mem hplain hnd)

/-- The key contains `=`, so text without `=` does not contain the key. -/
theorem not_uuidKey_infix {s : Str} (h : '=' ∉ s) : ¬ uuidKey <:+: s :=
  fun hk => h (hk.subset (by decide))

/-- Behind the key of a GPT line there is no further key. -/
theorem GptFields.noKey (f : GptFields) :
    ¬ uuidKey <:+: uuidKey.tail ++ (f.uuid.text ++ f.behind) := by
  have hvalue : ¬ uuidKey <:+: uuidKey.tail ++ f.uuid.text := by
    intro h
    have hin := infix_of_infix_append (w := "uuid".toList) (e := '=')
      (f.uuid.not_mem (by decide)) h
    exact absurd hin (by decide)
  rw [← List.append_assoc]
  intro h
  rcases f.comma with hnil | hcomma
  · rw [hnil, List.append_nil] at h
    exact hvalue h
  · obtain ⟨t, ht⟩ : ∃ t, f.behind = ',' :: t := by
      cases hb : f.behind with
      | nil => simp [hb] at hcomma
      | cons c t => exact ⟨t, by simpa [hb] using hcomma⟩
    rw [ht] at h
    rcases infix_append_cons (by decide) h with h | h
    · exact hvalue h
    · exact f.clean (ht ▸ h.trans (List.suffix_cons ',' t).isInfix)

/-- In a GPT line the last key is the field. -/
theorem afterLast?_gpt (node : DevName) (f : GptFields) :
    afterLast? uuidKey (DumpLine.gpt node f).text = some (f.uuid.text ++ f.behind) := by
  have htext : (DumpLine.gpt node f).text
      = (devPath node.text ++ f.before) ++ uuidKey ++ (f.uuid.text ++ f.behind) := by
    simp [DumpLine.text, GptFields.text]
  rw [htext]
  exact afterLast?_append uuidKey _ _ (by decide) f.noKey

/-- Other partition lines have no key. -/
theorem afterLast?_other (node : DevName) (f : OtherFields) :
    afterLast? uuidKey (DumpLine.other node f).text = none := by
  rw [afterLast?_eq_none_iff]
  intro h
  obtain ⟨t, ht⟩ : ∃ t, f.text = ' ' :: t := by
    have hs := f.space
    cases hb : f.text with
    | nil => simp [hb] at hs
    | cons c t => exact ⟨t, by simpa [hb] using hs⟩
  simp only [DumpLine.text, ht] at h
  rcases infix_append_cons (by decide) h with h | h
  · exact not_uuidKey_infix (devPath_not_mem (by decide) (by decide)) h
  · exact f.clean (ht ▸ h.trans (List.suffix_cons ' ' t).isInfix)

/-- Cut at the next comma, the text behind the key is the UUID. -/
theorem upTo_uuid (f : GptFields) : upTo ',' (f.uuid.text ++ f.behind) = f.uuid.text := by
  have hall : ∀ d ∈ f.uuid.text, (d != ',') = true := by
    intro d hd
    rw [bne_iff_ne]
    rintro rfl
    exact f.uuid.not_mem (by decide) hd
  rw [upTo, List.takeWhile_append_of_pos hall]
  rcases f.comma with hnil | hcomma
  · rw [hnil, List.takeWhile_nil, List.append_nil]
  · cases hb : f.behind with
    | nil => rw [List.takeWhile_nil, List.append_nil]
    | cons c t =>
        rw [hb, List.head?_cons, Option.some.injEq] at hcomma
        subst hcomma
        rw [List.takeWhile_cons_of_neg (by decide), List.append_nil]

/-- The node of the second partition matches its own line and not that of the
first one. -/
theorem starts_partNode_two (name : DevName) (f : GptFields) :
    starts (partNode name.text 2) (DumpLine.gpt (name.part 1) f).text = false ∧
      starts (partNode name.text 2) (DumpLine.gpt (name.part 2) f).text = true := by
  have htwo : decimal 2 = ['2'] := rfl
  have hone : decimal 1 = ['1'] := rfl
  simp only [DumpLine.text, DevName.part]
  rw [← partNode, ← partNode, partNode_eq, partNode_eq, htwo, hone, List.append_assoc,
    List.append_assoc, starts_append, starts_append]
  constructor <;> simp

/-! ## Lines as the shell reads them -/

theorem DumpLine.text_oneLine (l : DumpLine) : '\n' ∉ l.text := by
  have hnode : ∀ node : DevName, '\n' ∉ devPath node.text :=
    fun node => devPath_not_mem (by decide) (by decide)
  cases l with
  | header l => exact l.oneLine
  | gpt node f =>
      have huuid : '\n' ∉ f.uuid.text := f.uuid.not_mem (by decide)
      have hkey : '\n' ∉ uuidKey := by decide
      simp only [DumpLine.text, GptFields.text, List.mem_append, not_or]
      exact ⟨hnode node, ⟨⟨f.oneLine.1, hkey⟩, huuid⟩, f.oneLine.2⟩
  | other node f =>
      simp only [DumpLine.text, List.mem_append, not_or]
      exact ⟨hnode node, f.oneLine⟩

/-- Reading a dump line by line gives its lines. -/
theorem fileLines_dumpText (lines : List DumpLine) :
    fileLines (dumpText lines) = lines.map DumpLine.text := by
  refine fileLines_unlines _ ?_
  intro l hl
  obtain ⟨d, _, rfl⟩ := List.mem_map.mp hl
  exact d.text_oneLine

/-- The space behind the node of a GPT line. -/
theorem GptFields.text_head (f : GptFields) : f.text.head? = some ' ' := by
  have hne : f.before ≠ [] := by
    intro h
    have hs := f.space
    rw [h] at hs
    exact absurd hs (by decide)
  rw [GptFields.text, List.append_assoc, List.append_assoc,
    List.head?_append_of_ne_nil _ hne]
  exact f.space

/-- A node followed by a space and anything ends at the space. -/
theorem takeWhile_node (node : DevName) {t : Str} (h : t.head? = some ' ') :
    (devPath node.text ++ t).takeWhile (fun d => d != ' ') = devPath node.text := by
  obtain ⟨u, rfl⟩ : ∃ u, t = ' ' :: u := by
    cases t with
    | nil => simp at h
    | cons c u => exact ⟨u, by simpa using h⟩
  have hall : ∀ d ∈ devPath node.text, (d != ' ') = true := by
    intro d hd
    rw [bne_iff_ne]
    rintro rfl
    exact devPath_not_mem (by decide) (by decide) hd
  rw [List.takeWhile_append_of_pos hall, List.takeWhile_cons]
  simp

/-! ## A small disk -/

/-- A table as `sfdisk` writes it for the installer, in short. -/
def sampleTable : Layout where
  header := [⟨"label: gpt".toList, by decide, by decide⟩]
  esp := ⟨" : type=u, ".toList, ⟨"A-1".toList, by decide, List.all_eq_true.mp (by decide)⟩,
    ", name=\"esp\"".toList, by decide, by decide, by decide, by decide⟩
  root := ⟨" : type=l, ".toList, ⟨"A-2".toList, by decide, List.all_eq_true.mp (by decide)⟩,
    ", name=\"root\"".toList, by decide, by decide, by decide, by decide⟩

/-- An ordinary disk. -/
def sampleName : DevName := ⟨"sda".toList, by decide, List.all_eq_true.mp (by decide)⟩

end Slinux.Disk.Dump
