import Slinux.Disk.Dump

/-!
# The boot loader configuration the installer writes

Lines 133 to 146 of `slinux-install` read the UUID of the new root partition
back from `sfdisk -d` and print `limine.conf` around it.  The pipeline that
reads the UUID is `grep | sed` inside a command substitution, so its value is
the printed lines without the final newlines.

A configuration refers to files of the ESP as `boot():/name` and names the
root file system in its `cmdline`; `bootPaths` and `NamesRoot` say so for an
arbitrary configuration text, so that they can be asked of whatever the ESP
holds at the end of a run.

## Main results

* `extractPU_layout` — on the table the installer has just written, the
  pipeline yields exactly the UUID of the second partition.
* `extractPU_disagree` — on a disk whose partitions have other names than the
  installer gives them, it yields nothing.
* `bootPaths_limineConf` — the files a written configuration refers to.
-/

namespace Slinux.Installer.Bootloader

open Slinux.Shell.Text
open Slinux.Shell.Regex
open Slinux.Disk.Name
open Slinux.Disk.Dump

/-! ## The UUID of the root partition -/

/-- The value of `$(...)`: the output without its trailing newlines. -/
def substitute (out : Str) : Str := out.rdropWhile (fun c => c == '\n')

/-- `$(sfdisk -d "$DISK" | grep "^$P"2 | sed -n 's/.*uuid=\([^,]*\).*/\1/p')`
for the output `dump` of `sfdisk`. -/
def extractPU (disk dump : Str) : Str :=
  substitute (unlines ((grepStart (partP disk 2) (fileLines dump)).filterMap
    (sedPrint (extract uuidKey ','))))

/-- A value without newlines is not shortened. -/
theorem substitute_line {s : Str} (h : '\n' ∉ s) : substitute (s ++ ['\n']) = s := by
  rw [substitute, List.rdropWhile_concat_pos _ _ _ (by decide)]
  rcases List.eq_nil_or_concat s with rfl | ⟨t, c, rfl⟩
  · rfl
  · rw [List.concat_eq_append] at h ⊢
    apply List.rdropWhile_concat_neg
    intro hc
    apply h
    rw [beq_iff_eq.mp hc]
    simp

/-- The value of a GPT line is its UUID. -/
theorem sedPrint_gpt (node : DevName) (f : GptFields) :
    sedPrint (extract uuidKey ',') (DumpLine.gpt node f).text = some f.uuid.text := by
  rw [sedPrint_extract, afterLast?_gpt, Option.map_some, upTo_uuid]

/-- A header line does not start with a node. -/
theorem not_starts_header (h : HeaderLine) (name : Str) (n : Nat) :
    starts (partP (devPath name) n) (DumpLine.header h).text = false := by
  have hdir : ∃ u, partP (devPath name) n = devDir ++ u := by
    unfold partP diskP devPath
    split
    · exact ⟨name ++ ['p'] ++ decimal n, by simp only [List.append_assoc]⟩
    · exact ⟨name ++ decimal n, List.append_assoc _ _ _⟩
  obtain ⟨u, hu⟩ := hdir
  rw [hu, ← Bool.not_eq_true]
  intro hstarts
  exact h.noNode (prefix_of_starts (by decide) hstarts)

/-- `grep` keeps the second partition's line of a new table and nothing
else. -/
theorem grepStart_layout (t : Layout) (name : DevName)
    (hP : partP (devPath name.text) 2 = partNode name.text 2) :
    grepStart (partP (devPath name.text) 2) ((t.lines name).map DumpLine.text)
      = [(DumpLine.gpt (name.part 2) t.root).text] := by
  have hheader : List.filter (starts (partP (devPath name.text) 2))
      (t.header.map (DumpLine.text ∘ DumpLine.header)) = [] := by
    rw [List.filter_eq_nil_iff]
    intro l hl
    obtain ⟨h, _, rfl⟩ := List.mem_map.mp hl
    rw [Function.comp_apply, not_starts_header]
    exact Bool.false_ne_true
  have hesp := (starts_partNode_two name t.esp).1
  have hroot := (starts_partNode_two name t.root).2
  rw [← hP] at hesp hroot
  rw [Layout.lines, List.map_append, List.map_map, grepStart, List.filter_append, hheader]
  simp only [List.map_cons, List.map_nil, List.nil_append]
  rw [List.filter_cons_of_neg (Bool.not_eq_true _ ▸ hesp), List.filter_cons_of_pos hroot,
    List.filter_nil]

/-- **The installer reads back the UUID it has just created.** -/
theorem extractPU_layout (t : Layout) (name : DevName)
    (hP : partP (devPath name.text) 2 = partNode name.text 2) :
    extractPU (devPath name.text) (dumpText (t.lines name)) = t.root.uuid.text := by
  rw [extractPU, fileLines_dumpText, grepStart_layout t name hP]
  simp only [List.filterMap_cons, sedPrint_gpt, List.filterMap_nil, unlines_cons, unlines_nil]
  exact substitute_line (t.root.uuid.not_mem (by decide))

/-- Where the two rules differ, no line of a new table starts with the node the
installer looks for: behind the disk's name there is a `p` in one of them and
a digit in the other. -/
theorem not_starts_gpt {name : DevName} (h : ¬ NamesAgree name.text) {n : Nat}
    (hn : n = 1 ∨ n = 2) (f : GptFields) :
    starts (partP (devPath name.text) 2) (DumpLine.gpt (name.part n) f).text = false := by
  have htwo : decimal 2 = ['2'] := rfl
  have hdigit : ∃ c, decimal n = [c] ∧ c ≠ 'p' := by
    rcases hn with rfl | rfl
    · exact ⟨'1', rfl, by decide⟩
    · exact ⟨'2', rfl, by decide⟩
  obtain ⟨c, hc, hne⟩ := hdigit
  unfold NamesAgree at h
  simp only [partP, diskP, DumpLine.text, DevName.part, partName, hc, htwo]
  cases ht : takesP (devPath name.text) with
  | true =>
      have hd : endsInDigit name.text = false := by
        rw [ht] at h
        simpa using h
      rw [hd, if_pos rfl, if_neg Bool.false_ne_true]
      simp only [devPath, List.append_assoc, starts_append]
      simp [hne]
  | false =>
      have hd : endsInDigit name.text = true := by
        rw [ht] at h
        simpa using h
      rw [hd, if_pos rfl, if_neg Bool.false_ne_true]
      simp only [devPath, List.append_assoc, starts_append]
      simp

/-- Then the pipeline prints nothing. -/
theorem extractPU_disagree (t : Layout) {name : DevName} (h : ¬ NamesAgree name.text) :
    extractPU (devPath name.text) (dumpText (t.lines name)) = [] := by
  have hnone : grepStart (partP (devPath name.text) 2) ((t.lines name).map DumpLine.text) = [] := by
    rw [List.eq_nil_iff_forall_not_mem]
    intro l hl
    rw [mem_grepStart] at hl
    obtain ⟨hmem, hstarts⟩ := hl
    obtain ⟨line, hline, rfl⟩ := List.mem_map.mp hmem
    rcases List.mem_append.mp hline with hheader | hpart
    · obtain ⟨header, _, rfl⟩ := List.mem_map.mp hheader
      rw [not_starts_header] at hstarts
      exact Bool.false_ne_true hstarts
    · simp only [List.mem_cons, List.not_mem_nil, or_false] at hpart
      rcases hpart with rfl | rfl
      · rw [not_starts_gpt h (Or.inl rfl)] at hstarts
        exact Bool.false_ne_true hstarts
      · rw [not_starts_gpt h (Or.inr rfl)] at hstarts
        exact Bool.false_ne_true hstarts
  rw [extractPU, fileLines_dumpText, hnone]
  rfl

/-! ## The configuration -/

/-- The word that names the root partition. -/
def rootKey : Str := "root=PARTUUID=".toList

/-- The options behind it. -/
def options : Str := "rw rootwait console=ttyS0 console=tty0".toList

/-- The kernel command line of the normal entry. -/
def cmdline (pu : Str) : Str := rootKey ++ pu ++ ' ' :: options

/-- The command line the installer writes for the dump `sfdisk -d` gives it,
unless it ends with "cannot read PARTUUID". -/
def writtenCmdline (disk dump : Str) : Option Str :=
  if extractPU disk dump = [] then none else some (cmdline (extractPU disk dump))

/-- How a configuration introduces a command line. -/
def cmdlineKey : Str := "    cmdline: ".toList

/-- The first two `printf` of the normal entry. -/
def normalHead : Str :=
  "timeout: 3\n\n".toList
    ++ "/slinux\n    protocol: linux\n    path: boot():/vmlinuz\n".toList

/-- `printf '    cmdline: root=PARTUUID=%s rw rootwait console=ttyS0 console=tty0\n' "$PU"`. -/
def cmdlineEntry (pu : Str) : Str := cmdlineKey ++ cmdline pu ++ ['\n']

/-- The three `printf` of the rescue entry. -/
def rescueEntry : Str :=
  "\n/slinux rescue (live ram)\n    protocol: linux\n".toList
    ++ "    path: boot():/vmlinuz\n".toList
    ++ "    module_path: boot():/initramfs.cpio.gz\n".toList

/-- `limine.conf` with or without the rescue entry. -/
def limineConf (pu : Str) (rescue : Bool) : Str :=
  normalHead ++ cmdlineEntry pu ++ if rescue then rescueEntry else []

/-! ## What a configuration refers to -/

/-- How a configuration writes the root directory of its own volume. -/
def bootKey : Str := "boot():/".toList

/-- The files of the ESP a configuration refers to, line by line. -/
def bootPaths (conf : Str) : List Str := (fileLines conf).filterMap (afterLast? bootKey)

/-- The title line of the rescue entry. -/
def rescueTitle : Str := "/slinux rescue (live ram)".toList

/-- A configuration offers the rescue entry. -/
def HasRescue (conf : Str) : Prop := rescueTitle ∈ fileLines conf

/-- A configuration boots the file system on the partition with UUID `pu`. -/
def NamesRoot (pu conf : Str) : Prop :=
  ∃ cl, cmdlineKey ++ cl ∈ fileLines conf ∧ rootKey ++ pu ∈ words cl

theorem namesRoot_iff (pu conf : Str) : NamesRoot pu conf ↔
    ∃ l ∈ fileLines conf, cmdlineKey <+: l ∧ rootKey ++ pu ∈ words (l.drop cmdlineKey.length) := by
  constructor
  · rintro ⟨cl, hl, hw⟩
    exact ⟨cmdlineKey ++ cl, hl, List.prefix_append _ _, by rw [List.drop_left]; exact hw⟩
  · rintro ⟨l, hl, ⟨cl, rfl⟩, hw⟩
    rw [List.drop_left] at hw
    exact ⟨cl, hl, hw⟩

instance (pu conf : Str) : Decidable (NamesRoot pu conf) :=
  decidable_of_iff _ (namesRoot_iff pu conf).symm

/-- The lines in front of the command line. -/
def headLines : List Str :=
  ["timeout: 3".toList, [], "/slinux".toList, "    protocol: linux".toList,
    "    path: boot():/vmlinuz".toList]

/-- The lines of the rescue entry. -/
def rescueLines : List Str :=
  [[], rescueTitle, "    protocol: linux".toList, "    path: boot():/vmlinuz".toList,
    "    module_path: boot():/initramfs.cpio.gz".toList]

/-- The lines of a written configuration. -/
def confLines (pu : Str) (rescue : Bool) : List Str :=
  headLines ++ [cmdlineKey ++ cmdline pu] ++ if rescue then rescueLines else []

private theorem normalHead_eq : normalHead = unlines headLines := by decide +kernel

private theorem rescueEntry_eq : rescueEntry = unlines rescueLines := by decide +kernel

theorem limineConf_eq (pu : Str) (rescue : Bool) :
    limineConf pu rescue = unlines (confLines pu rescue) := by
  have hentry : cmdlineEntry pu = unlines [cmdlineKey ++ cmdline pu] := rfl
  rw [limineConf, normalHead_eq, hentry, confLines, unlines_append, unlines_append]
  cases rescue with
  | false => rfl
  | true => rw [if_pos rfl, if_pos rfl, rescueEntry_eq]

/-- A character of the command line is one of the fixed text or of the
UUID. -/
private theorem not_mem_cmdline {pu : Str} {c : Char}
    (hfix : c ∉ cmdlineKey ++ rootKey ++ ' ' :: options) (h : c ∉ pu) :
    c ∉ cmdlineKey ++ cmdline pu := by
  simp only [cmdline, List.mem_append, not_or] at hfix ⊢
  exact ⟨hfix.1.1, ⟨hfix.1.2, h⟩, hfix.2⟩

/-- A configuration is read back line by line. -/
theorem fileLines_limineConf {pu : Str} (h : '\n' ∉ pu) (rescue : Bool) :
    fileLines (limineConf pu rescue) = confLines pu rescue := by
  rw [limineConf_eq]
  apply fileLines_unlines
  intro l hl
  have hhead : ∀ l ∈ headLines, '\n' ∉ l := by decide +kernel
  have hrescue : ∀ l ∈ rescueLines, '\n' ∉ l := by decide +kernel
  simp only [confLines, List.mem_append, List.mem_singleton] at hl
  rcases hl with (hl | rfl) | hl
  · exact hhead l hl
  · exact not_mem_cmdline (by decide +kernel) h
  · cases rescue with
    | false => simp at hl
    | true => exact hrescue l hl

/-- The command line refers to no file. -/
private theorem afterLast?_cmdline {pu : Str} (h : '(' ∉ pu) :
    afterLast? bootKey (cmdlineKey ++ cmdline pu) = none := by
  rw [afterLast?_eq_none_iff]
  intro hin
  have hmem : '(' ∈ cmdlineKey ++ cmdline pu := hin.subset (by decide)
  exact not_mem_cmdline (by decide +kernel) h hmem

/-- **The files a written configuration refers to.** -/
theorem bootPaths_limineConf {pu : Str} (hline : '\n' ∉ pu) (h : '(' ∉ pu) (rescue : Bool) :
    bootPaths (limineConf pu rescue) =
      "vmlinuz".toList ::
        if rescue then ["vmlinuz".toList, "initramfs.cpio.gz".toList] else [] := by
  have hhead : headLines.filterMap (afterLast? bootKey) = ["vmlinuz".toList] := by decide +kernel
  have hrescue : rescueLines.filterMap (afterLast? bootKey)
      = ["vmlinuz".toList, "initramfs.cpio.gz".toList] := by decide +kernel
  rw [bootPaths, fileLines_limineConf hline, confLines, List.filterMap_append,
    List.filterMap_append, hhead, List.filterMap_cons, afterLast?_cmdline h]
  cases rescue with
  | false => rfl
  | true => rw [if_pos rfl, if_pos rfl, hrescue]; rfl

/-- The rescue entry is there exactly when it was asked for. -/
theorem hasRescue_limineConf {pu : Str} (hline : '\n' ∉ pu) (rescue : Bool) :
    HasRescue (limineConf pu rescue) ↔ rescue = true := by
  have hhead : rescueTitle ∉ headLines := by decide +kernel
  have hrescue : rescueTitle ∈ rescueLines := by simp [rescueLines]
  have hcmd : rescueTitle ≠ cmdlineKey ++ cmdline pu := by
    intro h
    have hhd : rescueTitle.head? = cmdlineKey.head? := by
      rw [h, List.head?_append_of_ne_nil _ (by decide)]
    exact absurd hhd (by decide)
  rw [HasRescue, fileLines_limineConf hline, confLines]
  cases rescue with
  | false => simp [hhead, hcmd]
  | true => simp [hrescue]

/-- The words of the command line. -/
theorem words_cmdline {pu : Str} (h : ∀ c ∈ pu, isBlank c = false) :
    words (cmdline pu) = (rootKey ++ pu) :: words options := by
  have hkey : ∀ c ∈ rootKey, isBlank c = false := by
    have hall : rootKey.all (fun c => !isBlank c) = true := by decide
    simpa only [List.all_eq_true, Bool.not_eq_true'] using hall
  have hone : words (rootKey ++ pu) = [rootKey ++ pu] := by
    apply words_eq_singleton
    · exact List.append_ne_nil_of_left_ne_nil (by decide) pu
    · intro c hc
      rcases List.mem_append.mp hc with hc | hc
      · exact hkey c hc
      · exact h c hc
  rw [cmdline, words_append_blank _ _ (by decide), hone, List.singleton_append]

end Slinux.Installer.Bootloader
