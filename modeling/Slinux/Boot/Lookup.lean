import Mathlib.Data.List.Nodup
import Slinux.Boot.Root

/-!
# What `root=PARTUUID=` and `root=UUID=` select

`resolve_root` walks over the lines of all dumps and keeps those whose last
`uuid=` is followed by the text it wants.  That is the partition's UUID as
long as nothing behind the field contains the key again, and the name of a
partition is free text that stands behind it.  For `root=UUID=` the kept lines
are filtered by what `tune2fs -l` says about the partition, so the partition
has to carry the wanted text twice: as partition UUID and as file system UUID.

The line type of this module leaves the name free.  A look-up is stated as the
first line of the scan with a property, and the theorems compare the property
the script tests with the one the command line means.

## Main results

* `resolveRoot_eq_findSome?` — a look-up returns the first line that matches.
* `extractors_agree` — the installer's `sed` and the two parameter expansions
  of the boot script read the same value from every line.
* `partuuid_selects_iff` — when a look-up by partition UUID finds the first
  partition with that UUID.
* `uuid_selects_iff` — when a look-up by file system UUID finds a partition
  with that file system UUID.
-/

namespace Slinux.Boot.Lookup

open Slinux.Shell.Text
open Slinux.Shell.Glob
open Slinux.Shell.Regex
open Slinux.Disk.Name
open Slinux.Disk.Dump
open Slinux.Boot.Root

/-! ## The two extractors -/

/-- `sed -n 's/.*uuid=\([^,]*\).*/\1/p'`. -/
def sedUuid (input : Str) : Str :=
  unlines ((fileLines input).filterMap (sedPrint (extract uuidKey ',')))

/-- The value read by `sed` from a line with the key is the one read by the
parameter expansions. -/
theorem sedPrint_eq_lineUuid {line : Str} (h : uuidKey <:+: line) :
    sedPrint (extract uuidKey ',') line = some (lineUuid line) := by
  rw [sedPrint_extract, lineUuid_eq]
  cases hlast : afterLast? uuidKey line with
  | none => exact absurd h ((afterLast?_eq_none_iff _ _).mp hlast)
  | some b => rfl

theorem lineUuid_oneLine {line : Str} (h : '\n' ∉ line) : '\n' ∉ lineUuid line := by
  rw [lineUuid_eq]
  intro hn
  have hmem := (List.takeWhile_prefix _).subset hn
  cases hlast : afterLast? uuidKey line with
  | none =>
      rw [hlast] at hmem
      exact h hmem
  | some b =>
      rw [hlast] at hmem
      obtain ⟨a, hline, _⟩ := afterLast?_spec hlast
      exact h (by rw [hline]; exact List.mem_append_right _ hmem)

/-- **The two extractors agree** on every line. -/
theorem extractors_agree (line : Str) (hline : '\n' ∉ line) :
    (uuidKey <:+: line → fileLines (sedUuid (line ++ ['\n'])) = [lineUuid line]) ∧
      (¬ uuidKey <:+: line → sedUuid (line ++ ['\n']) = []) := by
  have hread : fileLines (line ++ ['\n']) = [line] := fileLines_cons hline []
  unfold sedUuid
  rw [hread]
  constructor
  · intro h
    rw [List.filterMap_cons, sedPrint_eq_lineUuid h]
    exact fileLines_unlines [lineUuid line]
      (fun l hl => (List.mem_singleton.mp hl) ▸ lineUuid_oneLine hline)
  · intro h
    have hnone : sedPrint (extract uuidKey ',') line = none := by
      rw [sedPrint_extract, (afterLast?_eq_none_iff _ _).mpr h]
      rfl
    rw [List.filterMap_cons, hnone]
    rfl

/-- Two keys, the second behind a comma and overlapping another `u`. -/
theorem extractors_agree_twice :
    fileLines (sedUuid "a, uuid=1,uuuid=2-3,x\n".toList) = ["2-3".toList] :=
  (extractors_agree "a, uuid=1,uuuid=2-3,x".toList (by decide)).1 (by decide)

/-! ## A look-up as a search -/

section Scan

variable {τ : Type} (text : τ → Str)

/-- A disk with the lines of its dump. -/
structure Dumped (τ : Type) where
  name : DevName
  lines : List τ

/-- What the boot script sees of it. -/
def Dumped.disk (d : Dumped τ) : Disk := ⟨d.name, unlines (d.lines.map text)⟩

/-- The lines `resolve_root` visits, in order. -/
def scan (ds : List (Dumped τ)) : List τ :=
  ds.flatMap (fun d => if skipped d.name.text then [] else d.lines)

variable {text}

theorem flatMap_diskParts (htext : ∀ l, '\n' ∉ text l) (fsuuid : Str → Str → Bool) (kind : Kind)
    (want : Str) (ds : List (Dumped τ)) :
    (ds.map (Dumped.disk text)).flatMap (diskParts fsuuid kind want)
      = (scan ds).filterMap (fun l => matchLine fsuuid kind want (text l)) := by
  have hread : ∀ d : Dumped τ, fileLines (d.disk text).dump = d.lines.map text := by
    intro d
    apply fileLines_unlines
    intro l hl
    obtain ⟨m, _, rfl⟩ := List.mem_map.mp hl
    exact htext m
  have hdisk : ∀ d : Dumped τ, diskParts fsuuid kind want (d.disk text)
      = (if skipped d.name.text then [] else d.lines).filterMap
        (fun l => matchLine fsuuid kind want (text l)) := by
    intro d
    show (if skipped d.name.text then []
      else (fileLines (d.disk text).dump).filterMap (matchLine fsuuid kind want)) = _
    by_cases hs : skipped d.name.text = true
    · rw [if_pos hs, if_pos hs, List.filterMap_nil]
    · rw [if_neg hs, if_neg hs, hread, List.filterMap_map]
      rfl
  unfold scan
  rw [List.flatMap_map, List.filterMap_flatMap]
  exact List.flatMap_congr (fun d _ => hdisk d)

/-- **A look-up returns the first line that matches.** -/
theorem resolveRoot_eq_findSome? (htext : ∀ l, '\n' ∉ text l) (fsuuid : Str → Str → Bool)
    (kind : Kind) (want : Str) (ds : List (Dumped τ))
    (hnode : ∀ l p, matchLine fsuuid kind want (text l) = some p →
      ∃ node : DevName, p = devPath node.text) :
    resolveRoot fsuuid kind want (ds.map (Dumped.disk text))
      = (scan ds).findSome? (fun l => matchLine fsuuid kind want (text l)) := by
  have hparts := flatMap_diskParts htext fsuuid kind want ds
  rw [resolveRoot_eq_head?, hparts, List.head?_filterMap]
  intro q hq
  rw [hparts] at hq
  obtain ⟨l, _, hl⟩ := List.mem_filterMap.mp hq
  exact hnode l q hl

end Scan

/-- The first element that one of two tests accepts, of a list with one more in
front. -/
theorem agree_cons_iff {α : Type} {p q : α → Bool} {x : α} {xs : List α} :
    (∀ pre a post, x :: xs = pre ++ a :: post → (∀ b ∈ pre, p b = false ∧ q b = false) →
        p a = q a) ↔
      p x = q x ∧ (p x = false → ∀ pre a post, xs = pre ++ a :: post →
        (∀ b ∈ pre, p b = false ∧ q b = false) → p a = q a) := by
  constructor
  · intro h
    have hx : p x = q x := h [] x xs rfl (fun b hb => absurd hb List.not_mem_nil)
    refine ⟨hx, fun hp pre a post hxs hpre => ?_⟩
    apply h (x :: pre) a post (by rw [hxs, List.cons_append])
    intro b hb
    rcases List.mem_cons.mp hb with rfl | hb
    · exact ⟨hp, hx.symm.trans hp⟩
    · exact hpre b hb
  · rintro ⟨hx, hrest⟩ pre a post h hpre
    cases pre with
    | nil =>
        obtain ⟨rfl, -⟩ := List.cons.inj h
        exact hx
    | cons b pre =>
        obtain ⟨rfl, hxs⟩ := List.cons.inj h
        have hp : p x = false := (hpre x List.mem_cons_self).1
        exact hrest hp pre a post hxs (fun c hc => hpre c (List.mem_cons_of_mem x hc))

/-- Two searches in a list of elements with distinct labels find the same
label exactly if they agree up to the first element that one of them
accepts. -/
theorem find?_map_eq_iff {α β : Type} {g : α → β} {p q : α → Bool} {xs : List α}
    (hnd : (xs.map g).Nodup) :
    (xs.find? p).map g = (xs.find? q).map g ↔
      ∀ pre a post, xs = pre ++ a :: post → (∀ b ∈ pre, p b = false ∧ q b = false) →
        p a = q a := by
  induction xs with
  | nil =>
      refine ⟨fun _ pre a post h => ?_, fun _ => rfl⟩
      exact absurd h (by simp)
  | cons x xs ih =>
      rw [List.map_cons, List.nodup_cons] at hnd
      -- a label found behind `x` is not the label of `x`
      have hlater : ∀ r : α → Bool, (xs.find? r).map g ≠ some (g x) := by
        intro r h
        obtain ⟨y, hy, hgy⟩ := Option.map_eq_some_iff.mp h
        exact hnd.1 (hgy ▸ List.mem_map_of_mem (List.mem_of_find?_eq_some hy))
      rw [agree_cons_iff, ← ih hnd.2]
      cases hp : p x with
      | true =>
          cases hq : q x with
          | true => simp [hp, hq]
          | false => simpa [hp, hq] using (hlater q).symm
      | false =>
          cases hq : q x with
          | true => simpa [hp, hq] using hlater p
          | false => simp [hp, hq]

/-! ## Lines with free names -/

/-- A partition line: the fields from the space behind the node to the key,
the UUID, the name, and the fields behind it.  Only the name is free text. -/
structure PartLine where
  node : DevName
  before : Str
  uuid : Option Uuid
  name : Option Str
  behind : Str
  space : before.head? = some ' '
  oneLine : '\n' ∉ before ∧ '\n' ∉ behind
  clean : ¬ uuidKey <:+: before ∧ ¬ uuidKey <:+: behind
  comma : behind = [] ∨ behind.head? = some ','
  nameLine : ∀ n ∈ name, '\n' ∉ n

/-- The field `uuid=`. -/
def uuidText : Option Uuid → Str
  | some u => uuidKey ++ u.text
  | none => []

/-- The key of the name, with the comma in front of it. -/
def nameEq : Str := ", name=".toList

/-- The field `name=`. -/
def nameText : Option Str → Str
  | some n => nameEq ++ '"' :: (n ++ ['"'])
  | none => []

/-- What follows the UUID. -/
def PartLine.rest (l : PartLine) : Str := nameText l.name ++ l.behind

def PartLine.text (l : PartLine) : Str :=
  devPath l.node.text ++ (l.before ++ (uuidText l.uuid ++ l.rest))

/-- The line has the `uuid` field `u`. -/
def PartLine.hasUuid (u : Str) (l : PartLine) : Bool := l.uuid.map Uuid.text == some u

/-- What follows the last `uuid=` of the name. -/
def PartLine.nameKey (l : PartLine) : Option Str := l.name.bind (afterLast? uuidKey)

/-- The loop reads `u` from the line: from the last `uuid=` of the name if it
has one, where only a comma ends a value of hex digits, else from the field. -/
def PartLine.readAs (u : Str) (l : PartLine) : Bool :=
  match l.nameKey with
  | some b => (u ++ [',']).isPrefixOf b
  | none => l.hasUuid u

theorem PartLine.rest_head (l : PartLine) : l.rest = [] ∨ l.rest.head? = some ',' := by
  unfold PartLine.rest
  cases l.name with
  | none => exact l.comma
  | some n => exact Or.inr rfl

theorem PartLine.rest_oneLine (l : PartLine) : '\n' ∉ l.rest := by
  unfold PartLine.rest
  rw [List.mem_append, not_or]
  refine ⟨?_, l.oneLine.2⟩
  cases hn : l.name with
  | none => exact List.not_mem_nil
  | some n =>
      have hline := l.nameLine n (by rw [hn]; rfl)
      have hkey : '\n' ∉ nameEq := by decide
      simp [nameText, hline, hkey]

theorem devPath_inj {d e : DevName} (h : devPath d.text = devPath e.text) : d = e := by
  have htext : d.text = e.text := List.append_cancel_left h
  cases d
  cases e
  cases htext
  rfl

theorem cons_of_head? {s : Str} {c : Char} (h : s.head? = some c) : ∃ t, s = c :: t := by
  cases s with
  | nil => exact absurd h (by simp)
  | cons d t =>
      rw [List.head?_cons, Option.some.injEq] at h
      exact ⟨t, by rw [h]⟩

/-- Without a key in the name there is none behind the UUID. -/
theorem PartLine.rest_noKey {l : PartLine} (h : l.nameKey = none) : ¬ uuidKey <:+: l.rest := by
  unfold PartLine.rest
  cases hn : l.name with
  | none => exact l.clean.2
  | some n =>
      unfold PartLine.nameKey at h
      rw [hn, Option.bind_some, afterLast?_eq_none_iff] at h
      have hassoc : nameText (some n) ++ l.behind
          = nameEq ++ '"' :: (n ++ '"' :: l.behind) := by
        simp [nameText]
      rw [hassoc]
      intro hkey
      rcases infix_append_cons (by decide) hkey with hkey | hkey
      · exact absurd hkey (by decide)
      · rcases infix_append_cons (by decide) hkey with hkey | hkey
        · exact h hkey
        · exact l.clean.2 hkey

/-- A line without a key in its name, as a line whose last key is its
field. -/
theorem PartLine.lineUuid_of_plain {l : PartLine} (h : l.nameKey = none) {u : Str}
    (hu : ∀ c ∈ u, isHexDash c = true) : lineUuid l.text = u ↔ l.hasUuid u = true := by
  have hrest := PartLine.rest_noKey h
  unfold PartLine.hasUuid
  rw [beq_iff_eq]
  cases huuid : l.uuid with
  | some v =>
      have htext : l.text = (DumpLine.gpt l.node ⟨l.before, v, l.rest, l.space,
          ⟨l.oneLine.1, l.rest_oneLine⟩, l.rest_head, hrest⟩).text := by
        simp [PartLine.text, uuidText, huuid, DumpLine.text, GptFields.text]
      rw [htext, lineUuid_gpt, Option.map_some, Option.some.injEq]
  | none =>
      rw [Option.map_none]
      refine ⟨fun hread => ?_, fun hno => absurd hno (by simp)⟩
      have hclean : ¬ uuidKey <:+: l.before ++ l.rest := by
        intro hkey
        rcases l.rest_head with hnil | hcomma
        · rw [hnil, List.append_nil] at hkey
          exact l.clean.1 hkey
        · obtain ⟨t, ht⟩ := cons_of_head? hcomma
          rw [ht] at hkey
          rcases infix_append_cons (by decide) hkey with hkey | hkey
          · exact l.clean.1 hkey
          · exact hrest (ht ▸ hkey.trans (List.suffix_cons ',' t).isInfix)
      have hspace : (l.before ++ l.rest).head? = some ' ' := by
        obtain ⟨t, ht⟩ := cons_of_head? l.space
        rw [ht]
        rfl
      have hline : '\n' ∉ l.before ++ l.rest := by
        rw [List.mem_append, not_or]
        exact ⟨l.oneLine.1, l.rest_oneLine⟩
      have htext : l.text = (DumpLine.other l.node ⟨_, hspace, hline, hclean⟩).text := by
        simp [PartLine.text, uuidText, huuid, DumpLine.text]
      have hslash := lineUuid_other_slash l.node ⟨_, hspace, hline, hclean⟩
      rw [← htext, hread] at hslash
      exact absurd (hu _ hslash) (by decide)

/-- With a key in the name, the value is read from the name. -/
theorem PartLine.lineUuid_of_named {l : PartLine} {b : Str} (h : l.nameKey = some b) {u : Str}
    (hu : ∀ c ∈ u, isHexDash c = true) : lineUuid l.text = u ↔ u ++ [','] <+: b := by
  obtain ⟨n, hn, hb⟩ := Option.bind_eq_some_iff.mp h
  have hin : uuidKey <:+: n := by
    by_contra hno
    rw [(afterLast?_eq_none_iff _ _).mpr hno] at hb
    exact absurd hb (by simp)
  have htext : l.text = (devPath l.node.text ++ l.before ++ uuidText l.uuid ++ nameEq ++ ['"'])
      ++ (n ++ '"' :: l.behind) := by
    simp [PartLine.text, PartLine.rest, nameText, hn]
  have hlast : afterLast? uuidKey l.text = some (b ++ '"' :: l.behind) := by
    rw [htext, afterLast?_append_of_infix _ _ _ (hin.trans (List.prefix_append _ _).isInfix),
      afterLast?_append_cons (by decide) l.clean.2 hin, hb, Option.map_some]
  rw [lineUuid_eq, hlast, Option.getD_some]
  constructor
  · intro hread
    -- the closing quote is no hex digit, so a comma stands in front of it
    have hcomma : ',' ∈ b := by
      by_contra hno
      have hall : ∀ d ∈ b, (d != ',') = true := fun d hd =>
        bne_iff_ne.mpr (fun heq => hno (heq ▸ hd))
      rw [upTo, List.takeWhile_append_of_pos hall, List.takeWhile_cons_of_pos (by decide)] at hread
      have hquote : '"' ∈ u := by
        rw [← hread]
        exact List.mem_append_right _ (List.mem_cons_self ..)
      exact absurd (hu _ hquote) (by decide)
    obtain ⟨a, t, rfl, ha⟩ := List.eq_append_cons_of_mem hcomma
    have hall : ∀ d ∈ a, (d != ',') = true := fun d hd =>
      bne_iff_ne.mpr (fun heq => ha (heq ▸ hd))
    rw [upTo, List.append_assoc, List.takeWhile_append_of_pos hall, List.cons_append,
      List.takeWhile_cons_of_neg (by decide), List.append_nil] at hread
    rw [hread]
    exact ⟨t, by rw [List.append_assoc, List.singleton_append]⟩
  · intro hpre
    obtain ⟨t, rfl⟩ := hpre
    have hall : ∀ d ∈ u, (d != ',') = true := by
      intro d hd
      rw [bne_iff_ne]
      rintro rfl
      exact absurd (hu _ hd) (by decide)
    rw [upTo, List.append_assoc, List.append_assoc, List.takeWhile_append_of_pos hall,
      List.singleton_append, List.takeWhile_cons_of_neg (by decide), List.append_nil]

/-- **What the loop reads from a line.** -/
theorem PartLine.lineUuid_eq_iff (l : PartLine) {u : Str} (hu : ∀ c ∈ u, isHexDash c = true) :
    lineUuid l.text = u ↔ l.readAs u = true := by
  unfold PartLine.readAs
  cases h : l.nameKey with
  | none => exact l.lineUuid_of_plain h hu
  | some b =>
      rw [l.lineUuid_of_named h hu]
      exact List.isPrefixOf_iff_prefix.symm

/-! ## Look-up by partition UUID -/

/-- A line of a dump with free names. -/
inductive FreeLine where
  | header (l : HeaderLine)
  | part (l : PartLine)

def FreeLine.text : FreeLine → Str
  | .header l => l.text
  | .part l => l.text

def FreeLine.part? : FreeLine → Option PartLine
  | .header _ => none
  | .part l => some l

/-- The partition lines of the scanned disks, in scan order. -/
def partLines (ds : List (Dumped FreeLine)) : List PartLine := (scan ds).filterMap FreeLine.part?

/-- The disks of a machine with their dumps.  Every partition has a node of its
own. -/
structure Listing where
  disks : List (Dumped FreeLine)
  distinct : ((partLines disks).map PartLine.node).Nodup

def Listing.parts (L : Listing) : List PartLine := partLines L.disks

/-- The first partition line with the `uuid` field `u`. -/
def Listing.firstWith (L : Listing) (u : Str) : Option PartLine := L.parts.find? (·.hasUuid u)

theorem PartLine.text_oneLine (l : PartLine) : '\n' ∉ l.text := by
  have hnode : '\n' ∉ devPath l.node.text := devPath_not_mem (by decide) (by decide)
  have huuid : '\n' ∉ uuidText l.uuid := by
    cases l.uuid with
    | none => exact List.not_mem_nil
    | some u =>
        show '\n' ∉ uuidKey ++ u.text
        rw [List.mem_append, not_or]
        exact ⟨by decide, u.not_mem (by decide)⟩
  unfold PartLine.text
  simp only [List.mem_append, not_or]
  exact ⟨hnode, l.oneLine.1, huuid, l.rest_oneLine⟩

theorem FreeLine.text_oneLine (l : FreeLine) : '\n' ∉ l.text := by
  cases l with
  | header l => exact l.oneLine
  | part l => exact l.text_oneLine

/-- A partition line is selected if the wanted text is read from it and the
pipeline of the look-up succeeds. -/
theorem matchLine_part (fsuuid : Str → Str → Bool) (kind : Kind) (want : Str) (l : PartLine) :
    matchLine fsuuid kind want l.text
      = if lineUuid l.text = want ∧ (kind = .partuuid ∨ fsuuid (devPath l.node.text) want = true)
        then some (devPath l.node.text) else none := by
  have hnode : globMatch (lits devDir ++ [.star]) l.text = true := node_globMatch l.node _
  have hhead : (l.before ++ (uuidText l.uuid ++ l.rest)).head? = some ' ' := by
    obtain ⟨t, ht⟩ := cons_of_head? l.space
    rw [ht]
    rfl
  have hpart : linePart l.text = devPath l.node.text := linePart_node l.node hhead
  unfold matchLine
  rw [if_pos hnode, hpart, ite_and]

theorem matchLine_header (fsuuid : Str → Str → Bool) (kind : Kind) (u : Str) (l : HeaderLine) :
    matchLine fsuuid kind u l.text = none := by
  unfold matchLine
  rw [if_neg]
  rw [globMatch_lits_star]
  exact l.noNode

theorem matchLine_node (fsuuid : Str → Str → Bool) (kind : Kind) (want : Str) (l : FreeLine)
    (p : Str) (h : matchLine fsuuid kind want l.text = some p) :
    ∃ node : DevName, p = devPath node.text := by
  cases l with
  | header l => exact absurd ((matchLine_header fsuuid kind want l).symm.trans h) (by simp)
  | part l =>
      rw [FreeLine.text, matchLine_part, Option.ite_none_right_eq_some] at h
      exact ⟨l.node, (Option.some.inj h.2).symm⟩

/-- The search among all lines is a search among the partition lines. -/
theorem resolveRoot_eq_find? (fsuuid : Str → Str → Bool) (kind : Kind) (want : Str)
    (ds : List (Dumped FreeLine)) {p : PartLine → Bool}
    (hp : ∀ l : PartLine, p l = true ↔ lineUuid l.text = want ∧
      (kind = .partuuid ∨ fsuuid (devPath l.node.text) want = true)) :
    resolveRoot fsuuid kind want (ds.map (Dumped.disk FreeLine.text))
      = ((partLines ds).find? p).map (fun l => devPath l.node.text) := by
  rw [resolveRoot_eq_findSome? FreeLine.text_oneLine fsuuid kind want ds
    (matchLine_node fsuuid kind want)]
  unfold partLines
  generalize scan ds = ls
  induction ls with
  | nil => rfl
  | cons l ls ih =>
      rw [List.findSome?_cons]
      cases l with
      | header l =>
          rw [FreeLine.text, matchLine_header, List.filterMap_cons_none rfl]
          exact ih
      | part l =>
          rw [FreeLine.text, matchLine_part,
            show (FreeLine.part l :: ls).filterMap FreeLine.part?
              = l :: ls.filterMap FreeLine.part? from rfl]
          by_cases h : p l = true
          · rw [if_pos ((hp l).mp h), List.find?_cons_of_pos h, Option.map_some]
          · rw [if_neg (fun hl => h ((hp l).mpr hl)), List.find?_cons_of_neg h]
            exact ih

/-- **Look-up by partition UUID.**  The first partition with the `uuid` field
`u` is found exactly if no name misleads the loop up to the first line that
has the field or is read as `u`. -/
theorem partuuid_selects_iff (L : Listing) (fsuuid : Str → Str → Bool) (u : Str)
    (hu : ∀ c ∈ u, isHexDash c = true) :
    resolveRoot fsuuid .partuuid u (L.disks.map (Dumped.disk FreeLine.text))
        = (L.firstWith u).map (fun l => devPath l.node.text) ↔
      ∀ pre l post, L.parts = pre ++ l :: post →
        (∀ m ∈ pre, m.hasUuid u = false ∧ m.readAs u = false) → l.hasUuid u = l.readAs u := by
  have hread : ∀ l : PartLine, l.readAs u = true ↔ lineUuid l.text = u ∧
      (Kind.partuuid = .partuuid ∨ fsuuid (devPath l.node.text) u = true) := by
    intro l
    rw [← l.lineUuid_eq_iff hu]
    exact ⟨fun h => ⟨h, Or.inl rfl⟩, fun h => h.1⟩
  have hdistinct : (L.parts.map (fun l => devPath l.node.text)).Nodup := by
    have hmap : L.parts.map (fun l => devPath l.node.text)
        = (L.parts.map PartLine.node).map (fun d => devPath d.text) := by
      rw [List.map_map]
      rfl
    rw [hmap]
    exact List.Nodup.map (fun _ _ h => devPath_inj h) L.distinct
  rw [resolveRoot_eq_find? fsuuid .partuuid u L.disks hread, eq_comm]
  exact find?_map_eq_iff hdistinct

/-- What stands in front of the UUID. -/
def sampleBefore : Str := " : type=l, ".toList

theorem sampleName_nameLine {name : Str} (hname : '\n' ∉ name) : ∀ n ∈ some name, '\n' ∉ n := by
  intro n hn
  rw [← Option.some.inj hn]
  exact hname

/-- The first partition of `sda`, with this UUID and this name. -/
def sampleLine (uuid name : Str) (hne : uuid ≠ []) (hhex : ∀ c ∈ uuid, isHexDash c = true)
    (hname : '\n' ∉ name) : PartLine where
  node := sampleName.part 1
  before := sampleBefore
  uuid := some ⟨uuid, hne, hhex⟩
  name := some name
  behind := []
  space := rfl
  oneLine := by decide
  clean := by decide
  comma := Or.inl rfl
  nameLine := sampleName_nameLine hname

theorem sampleUuid_ne : "A-1".toList ≠ [] := by decide

theorem sampleUuid_hex : ∀ c ∈ "A-1".toList, isHexDash c = true :=
  List.all_eq_true.mp (by decide)

theorem rescue_oneLine : '\n' ∉ "rescue, root".toList := by decide

theorem spare_oneLine : '\n' ∉ "old uuid=B-2, spare".toList := by decide

/-- One disk with one partition, which is called `rescue, root`. -/
def plainListing : Listing where
  disks := [⟨sampleName, [.part (sampleLine "A-1".toList "rescue, root".toList sampleUuid_ne
    sampleUuid_hex rescue_oneLine)]⟩]
  distinct := List.nodup_singleton _

/-- The same partition, called `old uuid=B-2, spare`. -/
def misleadingListing : Listing where
  disks := [⟨sampleName, [.part (sampleLine "A-1".toList "old uuid=B-2, spare".toList
    sampleUuid_ne sampleUuid_hex spare_oneLine)]⟩]
  distinct := List.nodup_singleton _

theorem partuuid_selects_plain :
    resolveRoot (fun _ _ => false) .partuuid "A-1".toList
        (plainListing.disks.map (Dumped.disk FreeLine.text))
      = (plainListing.firstWith "A-1".toList).map (fun l => devPath l.node.text) := by
  apply (partuuid_selects_iff plainListing _ _ (List.all_eq_true.mp (by decide))).mpr
  intro pre l post h _
  have hmem : l ∈ plainListing.parts := by
    rw [h]
    exact List.mem_append_right _ (List.mem_cons_self ..)
  rw [show plainListing.parts = [_] from rfl, List.mem_singleton] at hmem
  rw [hmem]
  decide

/-- The partition is not found under its UUID, and is found under the one in
its name. -/
theorem partuuid_not_selects_named :
    resolveRoot (fun _ _ => false) .partuuid "A-1".toList
        (misleadingListing.disks.map (Dumped.disk FreeLine.text))
      ≠ (misleadingListing.firstWith "A-1".toList).map (fun l => devPath l.node.text) ∧
    resolveRoot (fun _ _ => false) .partuuid "B-2".toList
        (misleadingListing.disks.map (Dumped.disk FreeLine.text))
      ≠ (misleadingListing.firstWith "B-2".toList).map (fun l => devPath l.node.text) := by
  decide +kernel

/-! ## Look-up by file system UUID -/

def lower (s : Str) : Str := s.map Char.toLower

/-- The beginning of the pattern `filesystem uuid.*$want`. -/
def fsKey : Str := "filesystem uuid".toList

/-- The title of the line with the UUID. -/
def fsTitle : Str := "Filesystem UUID".toList

/-- What stands between the title and the UUID. -/
def fsGap : Str := ":          ".toList

/-- What `tune2fs -l` prints: the line with the file system's UUID, if there is
a file system, among other lines. -/
structure Report where
  before : List Str
  uuid : Option Uuid
  behind : List Str
  other : ∀ l ∈ before ++ behind, ¬ fsKey <:+: lower l

def fsUuidLine (u : Uuid) : Str := fsTitle ++ fsGap ++ u.text

def Report.lines (r : Report) : List Str :=
  r.before ++ (r.uuid.map fsUuidLine).toList ++ r.behind

/-- `grep -qi "filesystem uuid.*$want"`, for a `want` without special
characters in front of a match. -/
def grepFsUuid (lines : List Str) (want : Str) : Bool :=
  lines.any (fun l => (leftmost (inOrder fsKey (lower want)) (lower l) 0).isSome)

theorem lower_append (s t : Str) : lower (s ++ t) = lower s ++ lower t := List.map_append

theorem lower_fsUuidLine (u : Uuid) : lower (fsUuidLine u) = fsKey ++ (fsGap ++ lower u.text) := by
  have htitle : lower fsTitle = fsKey := by decide +kernel
  have hgap : lower fsGap = fsGap := by decide +kernel
  rw [fsUuidLine, lower_append, lower_append, htitle, hgap, List.append_assoc]

/-- The pattern is found in the line with the UUID, or not at all. -/
theorem grepFsUuid_iff (r : Report) (want : Str) :
    grepFsUuid r.lines want = true ↔
      ∃ f, r.uuid = some f ∧ lower want <:+: fsGap ++ lower f.text := by
  unfold grepFsUuid
  rw [List.any_eq_true]
  constructor
  · intro h
    obtain ⟨l, hl, hmatch⟩ := h
    rw [leftmost_inOrder_iff] at hmatch
    obtain ⟨t, ht, hw⟩ := hmatch
    unfold Report.lines at hl
    rw [List.mem_append, List.mem_append] at hl
    have hkey : fsKey <:+: lower l := (List.prefix_append fsKey t).isInfix.trans ht.isInfix
    rcases hl with (hl | hl) | hl
    · exact absurd hkey (r.other l (List.mem_append_left _ hl))
    · rw [Option.mem_toList] at hl
      obtain ⟨f, hf, rfl⟩ := Option.map_eq_some_iff.mp hl
      refine ⟨f, hf, ?_⟩
      rw [lower_fsUuidLine] at ht
      have hlen := ht.length_le
      rw [List.length_append, List.length_append] at hlen
      have hsuffix : t <:+ fsGap ++ lower f.text :=
        List.suffix_of_suffix_length_le ((List.suffix_append fsKey t).trans ht)
          (List.suffix_append fsKey _) (by omega)
      exact hw.trans hsuffix.isInfix
    · exact absurd hkey (r.other l (List.mem_append_right _ hl))
  · intro h
    obtain ⟨f, hf, hw⟩ := h
    refine ⟨fsUuidLine f, ?_, ?_⟩
    · unfold Report.lines
      rw [hf, Option.map_some, List.mem_append, List.mem_append]
      exact Or.inl (Or.inr (List.mem_singleton.mpr rfl))
    · rw [leftmost_inOrder_iff, lower_fsUuidLine]
      exact ⟨_, List.suffix_refl _, hw⟩

/-- In lower case, a hex digit or dash stays apart from what is neither one nor
a letter. -/
theorem toLower_ne {c d : Char} (hc : isHexDash c = true) (hhex : isHexDash d = false)
    (hlower : d.isLower = false) : c.toLower ≠ d := by
  intro h
  unfold Char.toLower at h
  split at h
  · rename_i hup
    have hval : c.val + ('a'.val - 'A'.val) = d.val := congrArg Char.val h
    have hnat : c.val.toNat + 32 = d.val.toNat := by
      have hle : c.val.toNat ≤ 90 := UInt32.le_iff_toNat_le.mp hup.2
      rw [← hval, UInt32.toNat_add]
      show c.val.toNat + 32 = (c.val.toNat + 32) % 4294967296
      omega
    have hge : 65 ≤ c.val.toNat := UInt32.le_iff_toNat_le.mp hup.1
    have hle : c.val.toNat ≤ 90 := UInt32.le_iff_toNat_le.mp hup.2
    have hislower : d.isLower = true := by
      show (decide ('a'.val ≤ d.val) && decide (d.val ≤ 'z'.val)) = true
      rw [Bool.and_eq_true, decide_eq_true_eq, decide_eq_true_eq, UInt32.le_iff_toNat_le,
        UInt32.le_iff_toNat_le]
      show 97 ≤ d.val.toNat ∧ d.val.toNat ≤ 122
      omega
    rw [hislower] at hlower
    exact absurd hlower (by decide)
  · rw [h, hhex] at hc
    exact absurd hc (by decide)

theorem not_mem_lower (u : Uuid) {d : Char} (hhex : isHexDash d = false)
    (hlower : d.isLower = false) : d ∉ lower u.text := by
  intro hd
  obtain ⟨c, hc, hcd⟩ := List.mem_map.mp hd
  exact toLower_ne (u.hex c hc) hhex hlower hcd

/-- A wanted UUID is found if it occurs in the file system's UUID, up to
case. -/
theorem grepFsUuid_uuid (r : Report) (u : Uuid) :
    grepFsUuid r.lines u.text = true ↔
      ∃ f, r.uuid = some f ∧ lower u.text <:+: lower f.text := by
  rw [grepFsUuid_iff]
  have hblank : ' ' ∉ lower u.text := not_mem_lower u (by decide) (by decide)
  have hgap : ∀ t, lower u.text <:+: fsGap ++ t ↔ lower u.text <:+: t := by
    intro t
    have hsplit : fsGap ++ t = ":         ".toList ++ ' ' :: t := rfl
    rw [hsplit]
    constructor
    · intro h
      rcases infix_append_cons hblank h with h | h
      · -- the first character would be the colon or a blank
        obtain ⟨c, cs, hcs⟩ := List.exists_cons_of_ne_nil u.ne
        have hmem : c.toLower ∈ ":         ".toList := by
          apply h.subset
          rw [hcs]
          exact List.mem_cons_self ..
        have hc : isHexDash c = true := u.hex c (by rw [hcs]; exact List.mem_cons_self ..)
        have hor : c.toLower = ':' ∨ c.toLower = ' ' := by
          have hall : ∀ d ∈ ":         ".toList, d = ':' ∨ d = ' ' := by simp
          exact hall _ hmem
        rcases hor with hd | hd
        · exact absurd hd (toLower_ne hc (by decide) (by decide))
        · exact absurd hd (toLower_ne hc (by decide) (by decide))
      · exact h
    · intro h
      exact h.trans ⟨":          ".toList, [], by simp⟩
  constructor
  · intro h
    obtain ⟨f, hf, hw⟩ := h
    exact ⟨f, hf, (hgap _).mp hw⟩
  · intro h
    obtain ⟨f, hf, hw⟩ := h
    exact ⟨f, hf, (hgap _).mpr hw⟩

section FileSystem

variable (report : Str → Report) (odd : Str → Str → Bool)

/-- The file system UUID of a partition. -/
def fsOf (node : DevName) : Option Str := (report (devPath node.text)).uuid.map Uuid.text

/-- The status of `tune2fs -l "$part" | grep -qi "filesystem uuid.*$want"`.  A
`want` with other characters than those of a UUID may be any regular
expression; `odd` is what `grep` makes of it. -/
def fsStatus (part want : Str) : Bool :=
  if want.all isHexDash then grepFsUuid (report part).lines want else odd part want

/-- `resolve_root uuid u`. -/
def resolveFs (u : Str) (ds : List (Dumped FreeLine)) : Option Str :=
  resolveRoot (fsStatus report odd) .uuid u (ds.map (Dumped.disk FreeLine.text))

/-- The answer is right: there is one exactly if some partition has the file
system UUID `u`, and it is such a partition. -/
def Selects (u : Str) (ds : List (Dumped FreeLine)) (answer : Option Str) : Prop :=
  (answer.isSome = true ↔ ∃ l ∈ partLines ds, fsOf report l.node = some u) ∧
    ∀ root, answer = some root →
      ∃ l ∈ partLines ds, root = devPath l.node.text ∧ fsOf report l.node = some u

/-- The line is read as `u`, and `u` is found in what `tune2fs` says about the
partition. -/
def Doubled (u : Str) (l : PartLine) : Prop :=
  lineUuid l.text = u ∧ fsStatus report odd (devPath l.node.text) u = true

variable {report odd}

/-- A file system UUID is found in the report of its partition. -/
theorem fsStatus_of_fsOf {node : DevName} {u : Str} (h : fsOf report node = some u) :
    fsStatus report odd (devPath node.text) u = true := by
  obtain ⟨f, hf, rfl⟩ := Option.map_eq_some_iff.mp h
  unfold fsStatus
  rw [if_pos (List.all_eq_true.mpr f.hex), grepFsUuid_uuid]
  exact ⟨f, hf, List.infix_refl _⟩

/-- **Look-up by file system UUID.**  The answer is right exactly if some
partition with the file system UUID `u` is also read as `u` from the dump, and
no earlier one is read so and has a longer or differently written file system
UUID; or there is no partition of either kind. -/
theorem uuid_selects_iff (report : Str → Report) (odd : Str → Str → Bool)
    (ds : List (Dumped FreeLine)) (u : Str) :
    Selects report u ds (resolveFs report odd u ds) ↔
      (∃ pre l post, partLines ds = pre ++ l :: post ∧ lineUuid l.text = u ∧
        fsOf report l.node = some u ∧ ∀ m ∈ pre, ¬ Doubled report odd u m) ∨
      ∀ l ∈ partLines ds, fsOf report l.node ≠ some u ∧ ¬ Doubled report odd u l := by
  classical
  have hp : ∀ l : PartLine, decide (Doubled report odd u l) = true ↔ lineUuid l.text = u ∧
      (Kind.uuid = .partuuid ∨ fsStatus report odd (devPath l.node.text) u = true) := by
    intro l
    rw [decide_eq_true_iff]
    exact ⟨fun h => ⟨h.1, Or.inr h.2⟩, fun h => ⟨h.1, h.2.resolve_left (by decide)⟩⟩
  unfold resolveFs
  rw [resolveRoot_eq_find? (fsStatus report odd) .uuid u ds hp]
  constructor
  · intro h
    obtain ⟨hiff, hroot⟩ := h
    cases hfind : (partLines ds).find? (fun l => decide (Doubled report odd u l)) with
    | some l =>
        left
        obtain ⟨hl, pre, post, hsplit, hpre⟩ := List.find?_eq_some_iff_append.mp hfind
        obtain ⟨m, _, hpath, hfs⟩ := hroot _ (by rw [hfind, Option.map_some])
        rw [← devPath_inj hpath] at hfs
        refine ⟨pre, l, post, hsplit, (of_decide_eq_true hl).1, hfs, fun m hm => ?_⟩
        have hno := hpre m hm
        rw [Bool.not_eq_true', decide_eq_false_iff_not] at hno
        exact hno
    | none =>
        right
        intro l hl
        constructor
        · intro hfs
          have hsome := hiff.mpr ⟨l, hl, hfs⟩
          rw [hfind] at hsome
          exact absurd hsome (by decide)
        · intro hd
          exact List.find?_eq_none.mp hfind l hl (decide_eq_true hd)
  · intro h
    rcases h with ⟨pre, l, post, hsplit, hread, hfs, hpre⟩ | hnone
    · have hmem : l ∈ partLines ds := by
        rw [hsplit]
        exact List.mem_append_right _ (List.mem_cons_self ..)
      have hfind : (partLines ds).find? (fun l => decide (Doubled report odd u l)) = some l := by
        rw [List.find?_eq_some_iff_append]
        refine ⟨decide_eq_true ⟨hread, fsStatus_of_fsOf hfs⟩, pre, post, hsplit, fun m hm => ?_⟩
        rw [Bool.not_eq_true', decide_eq_false_iff_not]
        exact hpre m hm
      rw [hfind, Option.map_some]
      refine ⟨⟨fun _ => ⟨l, hmem, hfs⟩, fun _ => rfl⟩, ?_⟩
      intro root hr
      exact ⟨l, hmem, (Option.some.inj hr).symm, hfs⟩
    · have hfind : (partLines ds).find? (fun l => decide (Doubled report odd u l)) = none := by
        rw [List.find?_eq_none]
        intro l hl hd
        exact (hnone l hl).2 (of_decide_eq_true hd)
      rw [hfind, Option.map_none]
      refine ⟨⟨fun hs => absurd hs (by decide), fun hex => ?_⟩, fun root hr => absurd hr (by simp)⟩
      obtain ⟨l, hl, hfs⟩ := hex
      exact absurd hfs (hnone l hl).1

/-- What `tune2fs -l` prints for the partition of `plainListing`, in short. -/
def sampleReport (part : Str) : Report where
  before := ["Filesystem volume name:   slinux".toList]
  uuid := if part = devPath (sampleName.part 1).text then
      some ⟨"c-3".toList, by decide, List.all_eq_true.mp (by decide)⟩
    else none
  behind := []
  other := by decide +kernel

/-- The partition has a file system with the UUID `c-3`, and is not found
under it. -/
theorem uuid_not_selects_sample :
    ¬ Selects sampleReport "c-3".toList plainListing.disks
      (resolveFs sampleReport (fun _ _ => false) "c-3".toList plainListing.disks) := by
  intro h
  have hnone : resolveFs sampleReport (fun _ _ => false) "c-3".toList plainListing.disks
      = none := by decide +kernel
  rw [hnone] at h
  have hsome := h.1.mpr ⟨_, List.mem_singleton.mpr rfl, by decide +kernel⟩
  exact absurd hsome (by decide)

end FileSystem

end Slinux.Boot.Lookup
