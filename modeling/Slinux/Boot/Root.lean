import Slinux.Installer.Bootloader

/-!
# Finding the root file system at boot

Lines 35 to 80 of `rc.init`: the last `root=` word of the kernel command line
is taken, and a value of the form `PARTUUID=` or `UUID=` is looked up in the
dumps of all disks.  Matching partitions are appended to `/tmp/.rootdev`, and
the first line of that file is the answer.

The counterpart is the command line `slinux-install` puts into
`limine.conf`.  The two scripts share no code: the installer cuts the UUID out
of the dump with `grep` and `sed`, the boot script with parameter expansions,
on a line that reached it through the boot loader, word splitting and pathname
expansion.

## Main results

* `matchLine_eq_some_iff` — which lines of a dump a look-up by partition UUID
  selects.
* `installed_root_resolves` — a system booted with the installer's command
  line finds the partition the installer wrote to, whatever other disks,
  partitions and command line words there are.
-/

namespace Slinux.Boot.Root

open Slinux.Shell.Text
open Slinux.Shell.Glob
open Slinux.Shell.Regex
open Slinux.Disk.Name
open Slinux.Disk.Dump
open Slinux.Installer.Bootloader

/-! ## The command line -/

/-- A word that is subject to pathname expansion. -/
def hasGlob (w : Str) : Bool := w.any (fun c => c == '*' || c == '?' || c == '[')

/-- The fields of an unquoted `$(...)`.  `paths w` are the existing paths that
match the pattern `w`; a pattern without a match stays as it is. -/
def fields (paths : Str → List Str) (s : Str) : List Str :=
  (words s).flatMap (fun w => if hasGlob w && !(paths w).isEmpty then paths w else [w])

/-- `root=`. -/
def rootEq : Str := "root=".toList

/-- `case $p in root=*) ROOT=${p#root=} ;; esac`. -/
def rootStep (root p : Str) : Str :=
  if globMatch (lits rootEq ++ [.star]) p then dropShortestPrefix (lits rootEq) p else root

/-- The value of `ROOT` after the loop over the command line. -/
def rootOf (ps : List Str) : Str := ps.foldl rootStep []

/-! ## `resolve_root` -/

/-- An entry of `/sys/block` with what `sfdisk -d` prints for it (nothing when
it fails). -/
structure Disk where
  name : DevName
  dump : Str

/-- The first argument of `resolve_root`. -/
inductive Kind where
  | partuuid
  | uuid
  deriving Repr, DecidableEq

/-- `case $dev in loop* | ram* | sr* | fd* | dm-* | zram*) continue`. -/
def skipped (dev : Str) : Bool :=
  caseArm [lits "loop".toList ++ [.star], lits "ram".toList ++ [.star],
    lits "sr".toList ++ [.star], lits "fd".toList ++ [.star], lits "dm-".toList ++ [.star],
    lits "zram".toList ++ [.star]] dev

/-- `part=${line%% *}`. -/
def linePart (line : Str) : Str := dropLongestSuffix [.lit ' ', .star] line

/-- `uuid=${line##*uuid=}` followed by `uuid=${uuid%%,*}`. -/
def lineUuid (line : Str) : Str :=
  dropLongestSuffix [.lit ',', .star] (dropLongestPrefix (.star :: lits uuidKey) line)

/-- The body of the inner loop: the partition appended for this line, if any.
`fsuuid part want` is the status of
`tune2fs -l "$part" | grep -qi "filesystem uuid.*$want"`. -/
def matchLine (fsuuid : Str → Str → Bool) (kind : Kind) (want line : Str) : Option Str :=
  if globMatch (lits devDir ++ [.star]) line then
    if lineUuid line = want then
      if kind = .partuuid ∨ fsuuid (linePart line) want then some (linePart line) else none
    else none
  else none

/-- The partitions one disk contributes. -/
def diskParts (fsuuid : Str → Str → Bool) (kind : Kind) (want : Str) (d : Disk) : List Str :=
  if skipped d.name.text then []
  else (fileLines d.dump).filterMap (matchLine fsuuid kind want)

/-- `/tmp/.rootdev` after the loops. -/
def rootdev (fsuuid : Str → Str → Bool) (kind : Kind) (want : Str) (disks : List Disk) : Str :=
  unlines (disks.flatMap (diskParts fsuuid kind want))

/-- `resolve_root kind want`: the new value of `ROOT`, or a failure. -/
def resolveRoot (fsuuid : Str → Str → Bool) (kind : Kind) (want : Str) (disks : List Disk) :
    Option Str :=
  if rootdev fsuuid kind want disks = [] then none
  else some (trim ((rootdev fsuuid kind want disks).takeWhile (fun c => c != '\n')))

/-! ## The dispatch -/

/-- What the boot script decides about the root file system: go on with the
present one, give up with a shell, or mount `root`. -/
inductive Selection where
  | stay
  | shell
  | use (root : Str)
  deriving Repr, DecidableEq

/-- The outcome of a look-up. -/
def Selection.ofResolved : Option Str → Selection
  | some root => .use root
  | none => .shell

/-- Lines 39 to 80.  `installed` is `[ -e /.slinux-installed ]`. -/
def selectRoot (installed : Bool) (paths : Str → List Str) (fsuuid : Str → Str → Bool)
    (disks : List Disk) (line : Str) : Selection :=
  let root := rootOf (fields paths line)
  if root ≠ [] ∧ installed = false then
    if globMatch (lits "PARTUUID=".toList ++ [.star]) root then
      .ofResolved (resolveRoot fsuuid .partuuid
        (dropShortestPrefix (lits "PARTUUID=".toList) root) disks)
    else if globMatch (lits "UUID=".toList ++ [.star]) root then
      .ofResolved (resolveRoot fsuuid .uuid
        (dropShortestPrefix (lits "UUID=".toList) root) disks)
    else .use root
  else .stay

/-! ## The last `root=` wins -/

theorem rootStep_of_not_prefix {root p : Str} (h : ¬ rootEq <+: p) : rootStep root p = root := by
  unfold rootStep
  rw [if_neg]
  rw [globMatch_lits_star]
  exact h

theorem rootStep_root (root v : Str) : rootStep root (rootEq ++ v) = v := by
  unfold rootStep
  rw [if_pos ((globMatch_lits_star _ _).mpr (List.prefix_append _ _)), dropShortestPrefix_lits]

/-- Words that do not begin with `root=` leave the value alone. -/
theorem foldl_rootStep (ps : List Str) (h : ∀ p ∈ ps, ¬ rootEq <+: p) :
    ∀ root, ps.foldl rootStep root = root := by
  induction ps with
  | nil => intro root; rfl
  | cons p ps ih =>
      intro root
      rw [List.foldl_cons, rootStep_of_not_prefix (h p (by simp))]
      exact ih (fun q hq => h q (by simp [hq])) root

theorem rootOf_surrounded (pre post : List Str) (v : Str)
    (hpost : ∀ p ∈ post, ¬ rootEq <+: p) :
    rootOf (pre ++ (rootEq ++ v) :: post) = v := by
  rw [rootOf, List.foldl_append, List.foldl_cons, rootStep_root]
  exact foldl_rootStep post hpost v

/-- Words without glob characters are not expanded. -/
theorem fields_of_plain (paths : Str → List Str) {s : Str}
    (h : ∀ w ∈ words s, hasGlob w = false) : fields paths s = words s := by
  rw [fields]
  generalize words s = ws at h
  induction ws with
  | nil => rfl
  | cons w ws ih =>
      rw [List.flatMap_cons, h w (by simp), ih (fun v hv => h v (by simp [hv]))]
      rfl

/-! ## Which lines match -/

theorem linePart_node (node : DevName) {t : Str} (h : t.head? = some ' ') :
    linePart (devPath node.text ++ t) = devPath node.text := by
  rw [linePart, dropLongestSuffix_lit_star, takeWhile_node node h]

theorem lineUuid_eq (line : Str) :
    lineUuid line = upTo ',' ((afterLast? uuidKey line).getD line) := by
  rw [lineUuid, dropLongestPrefix_star_lits, dropLongestSuffix_lit_star, upTo]

theorem lineUuid_gpt (node : DevName) (f : GptFields) :
    lineUuid (DumpLine.gpt node f).text = f.uuid.text := by
  rw [lineUuid_eq, afterLast?_gpt, Option.getD_some, upTo_uuid]

/-- Without the key, the comparison is with the beginning of the line, which is
a path. -/
theorem lineUuid_other_slash (node : DevName) (f : OtherFields) :
    '/' ∈ lineUuid (DumpLine.other node f).text := by
  have hcons : (DumpLine.other node f).text
      = '/' :: ("dev/".toList ++ node.text ++ f.text) := rfl
  rw [lineUuid_eq, afterLast?_other, Option.getD_none, hcons, upTo,
    List.takeWhile_cons_of_pos (by decide)]
  exact List.mem_cons_self ..

theorem lineUuid_other_ne (node : DevName) (f : OtherFields) (u : Uuid) :
    lineUuid (DumpLine.other node f).text ≠ u.text := by
  intro h
  exact u.not_mem (by decide) (h ▸ lineUuid_other_slash node f)

theorem node_globMatch (node : DevName) (t : Str) :
    globMatch (lits devDir ++ [.star]) (devPath node.text ++ t) = true := by
  rw [globMatch_lits_star, devPath, List.append_assoc]
  exact List.prefix_append _ _

/-- A look-up by partition UUID selects exactly the GPT lines with that
UUID. -/
theorem matchLine_eq_some_iff (fsuuid : Str → Str → Bool) (u : Uuid) (l : DumpLine) (p : Str) :
    matchLine fsuuid .partuuid u.text l.text = some p ↔
      ∃ node f, l = .gpt node f ∧ f.uuid = u ∧ p = devPath node.text := by
  have huuid : ∀ v : Uuid, v.text = u.text → v = u := by
    intro v hv
    cases v
    cases u
    simp only at hv
    subst hv
    rfl
  cases l with
  | header l =>
      have hno : ¬ globMatch (lits devDir ++ [.star]) (DumpLine.header l).text = true := by
        rw [globMatch_lits_star]
        exact l.noNode
      simp [matchLine, hno]
  | gpt node f =>
      have hnode : globMatch (lits devDir ++ [.star]) (DumpLine.gpt node f).text = true :=
        node_globMatch node f.text
      have hpart : linePart (DumpLine.gpt node f).text = devPath node.text :=
        linePart_node node f.text_head
      simp only [matchLine, if_pos hnode, lineUuid_gpt, hpart, true_or, if_true,
        Option.ite_none_right_eq_some, Option.some.injEq]
      constructor
      · intro h
        exact ⟨node, f, rfl, huuid _ h.1, h.2.symm⟩
      · intro h
        obtain ⟨_, _, hl, hu, hp⟩ := h
        injection hl with hn hf
        subst hn hf
        exact ⟨congrArg Uuid.text hu, hp.symm⟩
  | other node f =>
      have hne := lineUuid_other_ne node f u
      simp [matchLine, hne]

/-! ## Look-up over all disks -/

/-- A disk together with the lines of its dump. -/
structure Listed where
  name : DevName
  lines : List DumpLine

/-- What the boot script sees of it. -/
def Listed.disk (d : Listed) : Disk := ⟨d.name, dumpText d.lines⟩

theorem mem_diskParts_iff (fsuuid : Str → Str → Bool) (u : Uuid) (d : Listed) (p : Str) :
    p ∈ diskParts fsuuid .partuuid u.text d.disk ↔
      skipped d.name.text = false ∧
        ∃ node f, DumpLine.gpt node f ∈ d.lines ∧ f.uuid = u ∧ p = devPath node.text := by
  unfold diskParts Listed.disk
  cases hs : skipped d.name.text with
  | true => simp
  | false =>
      simp only [Bool.false_eq_true, if_false, fileLines_dumpText, List.mem_filterMap,
        List.mem_map, true_and]
      constructor
      · intro h
        obtain ⟨_, ⟨l, hl, rfl⟩, hp⟩ := h
        obtain ⟨node, f, rfl, hu, hp⟩ := (matchLine_eq_some_iff fsuuid u l p).mp hp
        exact ⟨node, f, hl, hu, hp⟩
      · intro h
        obtain ⟨node, f, hl, hu, hp⟩ := h
        exact ⟨_, ⟨_, hl, rfl⟩, (matchLine_eq_some_iff fsuuid u _ p).mpr ⟨node, f, rfl, hu, hp⟩⟩

/-- Distinct values identify the elements they come from. -/
theorem eq_of_nodup_filterMap {α β : Type} {g : α → Option β} :
    ∀ {xs : List α}, (xs.filterMap g).Nodup → ∀ {a b : α} {u : β}, a ∈ xs → b ∈ xs →
      g a = some u → g b = some u → a = b := by
  intro xs
  induction xs with
  | nil => intro _ a b u ha; simp at ha
  | cons x xs ih =>
      intro hnd a b u ha hb hga hgb
      have htail : (xs.filterMap g).Nodup := by
        rw [List.filterMap_cons] at hnd
        split at hnd
        · exact hnd
        · exact (List.nodup_cons.mp hnd).2
      have hfresh : ∀ c ∈ xs, g x = some u → g c = some u → False := by
        intro c hc hx hgc
        rw [List.filterMap_cons, hx] at hnd
        exact (List.nodup_cons.mp hnd).1 (List.mem_filterMap.mpr ⟨c, hc, hgc⟩)
      rcases List.mem_cons.mp ha with rfl | ha'
      · rcases List.mem_cons.mp hb with rfl | hb'
        · rfl
        · exact (hfresh b hb' hga hgb).elim
      · rcases List.mem_cons.mp hb with rfl | hb'
        · exact (hfresh a ha' hgb hga).elim
        · exact ih htail ha' hb' hga hgb

/-- The answer is the first selected partition: neither the line it is written
to nor `read` changes the name of a node. -/
theorem resolveRoot_eq_head? {fsuuid : Str → Str → Bool} {kind : Kind} {want : Str}
    {disks : List Disk}
    (hnode : ∀ q ∈ disks.flatMap (diskParts fsuuid kind want),
      ∃ node : DevName, q = devPath node.text) :
    resolveRoot fsuuid kind want disks
      = (disks.flatMap (diskParts fsuuid kind want)).head? := by
  unfold resolveRoot rootdev
  cases hl : disks.flatMap (diskParts fsuuid kind want) with
  | nil => rw [unlines_nil, if_pos rfl, List.head?_nil]
  | cons q ps =>
      obtain ⟨node, hq⟩ := hnode q (by rw [hl]; exact List.mem_cons_self ..)
      have hblank : ∀ c ∈ q, isBlank c = false := hq ▸ devPath_noBlank node
      have hne : ∀ c ∈ q, (c != '\n') = true := by
        intro c hc
        rw [bne_iff_ne]
        rintro rfl
        exact absurd (hblank _ hc) (by decide)
      rw [unlines_cons, if_neg (by simp), List.takeWhile_append_of_pos hne,
        List.takeWhile_cons_of_neg (by decide), List.append_nil, trim_of_noBlank hblank,
        List.head?_cons]

/-- If all selected partitions are `p`, and there is one, the answer is
`p`. -/
theorem resolveRoot_of_all {fsuuid : Str → Str → Bool} {kind : Kind} {want : Str}
    {disks : List Disk} {node : DevName}
    (hall : ∀ q ∈ disks.flatMap (diskParts fsuuid kind want), q = devPath node.text)
    (hex : devPath node.text ∈ disks.flatMap (diskParts fsuuid kind want)) :
    resolveRoot fsuuid kind want disks = some (devPath node.text) := by
  rw [resolveRoot_eq_head? (fun q hq => ⟨node, hall q hq⟩)]
  cases hl : disks.flatMap (diskParts fsuuid kind want) with
  | nil =>
      rw [hl] at hex
      exact absurd hex (List.not_mem_nil)
  | cons q ps =>
      have hq : q = devPath node.text := hall q (by rw [hl]; exact List.mem_cons_self ..)
      rw [hq, List.head?_cons]

/-! ## From the installer to the boot script -/

/-- The words of the installer's command line are not patterns. -/
theorem cmdline_noGlob (u : Uuid) : ∀ w ∈ words (cmdline u.text), hasGlob w = false := by
  have hoptions : ∀ w ∈ words options, hasGlob w = false := by decide +kernel
  intro w hw
  rw [words_cmdline u.noBlank] at hw
  rcases List.mem_cons.mp hw with rfl | hw
  · rw [hasGlob, List.any_append, Bool.or_eq_false_iff]
    refine ⟨by decide, ?_⟩
    rw [List.any_eq_false]
    intro c hc hglob
    have hhex : isHexDash c = false := by
      simp only [Bool.or_eq_true, beq_iff_eq] at hglob
      rcases hglob with (rfl | rfl) | rfl <;> decide
    exact u.not_mem hhex hc
  · exact hoptions w hw

/-- The value of `ROOT` on the installer's command line, among other words. -/
theorem rootOf_cmdline (paths : Str → List Str) (u : Uuid) {line : Str} {pre post : List Str}
    (hline : words line = pre ++ words (cmdline u.text) ++ post)
    (hother : ∀ w ∈ pre ++ post, hasGlob w = false ∧ ¬ rootEq <+: w) :
    rootOf (fields paths line) = "PARTUUID=".toList ++ u.text := by
  have hplain : ∀ w ∈ words line, hasGlob w = false := by
    intro w hw
    simp only [hline, List.mem_append] at hw
    rcases hw with (hw | hw) | hw
    · exact (hother w (by simp [hw])).1
    · exact cmdline_noGlob u w hw
    · exact (hother w (by simp [hw])).1
  have hoptions : ∀ w ∈ words options, ¬ rootEq <+: w := by decide +kernel
  have hkey : rootKey ++ u.text = rootEq ++ ("PARTUUID=".toList ++ u.text) := by
    have : rootKey = rootEq ++ "PARTUUID=".toList := by decide
    rw [this, List.append_assoc]
  rw [fields_of_plain paths hplain, hline, words_cmdline u.noBlank, hkey, List.append_assoc,
    List.cons_append]
  apply rootOf_surrounded
  intro w hw
  rcases List.mem_append.mp hw with hw | hw
  · exact hoptions w hw
  · exact (hother w (by simp [hw])).2

/-- **The boot script finds the partition the installer wrote.**  The
installer read `t` back from the disk it had partitioned; at boot the disk is
one of `ds`, in any order, and still has its second partition.  The kernel
command line is the installer's among other words. -/
theorem installed_root_resolves (t : Layout) (name : DevName) (ds : List Listed)
    (paths : Str → List Str) (fsuuid : Str → Str → Bool) (cmd line : Str)
    (pre post : List Str)
    (hskip : skipped name.text = false)
    (hP : partP (devPath name.text) 2 = partNode name.text 2)
    (hwritten : writtenCmdline (devPath name.text) (dumpText (t.lines name)) = some cmd)
    (hdisk : ∃ d ∈ ds, d.name = name ∧
      ∃ f, DumpLine.gpt (name.part 2) f ∈ d.lines ∧ f.uuid = t.root.uuid)
    (hdistinct : ((ds.flatMap Listed.lines).filterMap DumpLine.uuid?).Nodup)
    (hline : words line = pre ++ words cmd ++ post)
    (hother : ∀ w ∈ pre ++ post, hasGlob w = false ∧ ¬ rootEq <+: w) :
    selectRoot false paths fsuuid (ds.map Listed.disk) line
      = .use (partP (devPath name.text) 2) := by
  have hcmd : cmd = cmdline t.root.uuid.text := by
    rw [writtenCmdline, extractPU_layout t name hP, if_neg t.root.uuid.ne] at hwritten
    exact (Option.some.inj hwritten).symm
  rw [hcmd] at hline
  have hroot := rootOf_cmdline paths t.root.uuid hline hother
  obtain ⟨d, hd, rfl, f, hf, hfu⟩ := hdisk
  -- every selected line carries the UUID of the installed partition, so it is that line
  have hall : ∀ q ∈ (ds.map Listed.disk).flatMap (diskParts fsuuid .partuuid t.root.uuid.text),
      q = devPath (d.name.part 2).text := by
    intro q hq
    simp only [List.mem_flatMap, List.mem_map, exists_exists_and_eq_and] at hq
    obtain ⟨e, he, hq⟩ := hq
    obtain ⟨_, node, g, hg, hgu, rfl⟩ := (mem_diskParts_iff fsuuid _ e q).mp hq
    have hsame : DumpLine.gpt node g = DumpLine.gpt (d.name.part 2) f :=
      eq_of_nodup_filterMap (u := t.root.uuid) hdistinct
        (List.mem_flatMap.mpr ⟨e, he, hg⟩) (List.mem_flatMap.mpr ⟨d, hd, hf⟩)
        (congrArg some hgu) (congrArg some hfu)
    injection hsame with hnode
    rw [hnode]
  have hex : devPath (d.name.part 2).text
      ∈ (ds.map Listed.disk).flatMap (diskParts fsuuid .partuuid t.root.uuid.text) := by
    rw [List.mem_flatMap]
    refine ⟨d.disk, List.mem_map_of_mem hd, ?_⟩
    exact (mem_diskParts_iff fsuuid _ d _).mpr ⟨hskip, _, f, hf, hfu, rfl⟩
  have hne : "PARTUUID=".toList ++ t.root.uuid.text ≠ [] :=
    List.append_ne_nil_of_left_ne_nil (by decide) _
  have hpre : globMatch (lits "PARTUUID=".toList ++ [.star])
      ("PARTUUID=".toList ++ t.root.uuid.text) = true :=
    (globMatch_lits_star _ _).mpr (List.prefix_append _ _)
  simp only [selectRoot, hroot]
  rw [if_pos ⟨hne, trivial⟩, if_pos hpre, dropShortestPrefix_lits, resolveRoot_of_all hall hex, hP]
  rfl

/-- A disk without a GPT. -/
def sampleStick : Listed where
  name := ⟨"sdb".toList, by decide, List.all_eq_true.mp (by decide)⟩
  lines := [.other ⟨"sdb1".toList, by decide, List.all_eq_true.mp (by decide)⟩
    ⟨" : type=c".toList, by decide, by decide, by decide⟩]

/-- Two disks, a further word in front of the installer's command line and one
behind it. -/
theorem installed_root_resolves_two_disks :
    selectRoot false (fun _ => []) (fun _ _ => false)
      ([sampleStick, ⟨sampleName, sampleTable.lines sampleName⟩].map Listed.disk)
      "quiet root=PARTUUID=A-2 rw rootwait console=ttyS0 console=tty0 single".toList
      = .use (partP (devPath sampleName.text) 2) :=
  installed_root_resolves sampleTable sampleName _ _ _ (cmdline "A-2".toList) _
    ["quiet".toList] ["single".toList] (by decide) (by decide) (by decide +kernel)
    ⟨_, List.mem_cons_of_mem _ (List.mem_cons_self ..), rfl, sampleTable.root,
      by simp [Layout.lines], rfl⟩
    (by decide) (by decide +kernel) (by decide +kernel)

end Slinux.Boot.Root
