import Mathlib.Data.List.Forall2
import Slinux.Installer.Home
import Slinux.Installer.Target

/-!
# Adding the user to groups

Lines 179 to 193 read `/etc/group` of the target record by record, with `:` as
the only separator, and print each record again.  The member list is the
fourth variable of `read`; the printed record has the new user (or nothing)
in its place and, if the old list was not empty, the old list behind a further
colon.  A record with members therefore comes out with five fields.

## Main results

* `writeGroup_look` — what the loop leaves in `/etc/group`.
* `kept_groupLine_iff` — which records come out as they should.
* `group_rewrite_iff` — the rewriting only adds memberships **iff** no group
  has members.
-/

namespace Slinux.Installer.Groups

open Slinux.Shell.Text
open Slinux.Shell.Glob
open Slinux.Shell.Script
open Slinux.Shell.Logic
open Slinux.Unix.Files
open Slinux.Disk.Name
open Slinux.Installer.System
open Slinux.Installer.Effects
open Slinux.Installer.Script
open Slinux.Installer.Files
open Slinux.Installer.Target
open Slinux.Installer.Home

/-! ## Records -/

/-- A record of `/etc/group`. -/
structure GroupRecord where
  name : Str
  pass : Str
  gid : Str
  members : Str
  plain : ∀ f ∈ [name, pass, gid, members], ':' ∉ f ∧ '\n' ∉ f

def GroupRecord.fields (g : GroupRecord) : List Str := [g.name, g.pass, g.gid, g.members]

/-- The record as a line. -/
def GroupRecord.text (g : GroupRecord) : Str := [':'].intercalate g.fields

/-- The file with these records. -/
def groupText (gs : List GroupRecord) : Str := unlines (gs.map GroupRecord.text)

/-- The members named by a member list. -/
def memberList (s : Str) : List Str := if s = [] then [] else s.splitOn ','

/-- The record `g` is kept in the line `l`: four fields, of which the first
three are unchanged, and the old members, with the user added for the groups 10
and 100. -/
def Kept (user : Str) (g : GroupRecord) (l : Str) : Prop :=
  ∃ m, l.splitOn ':' = [g.name, g.pass, g.gid, m] ∧
    if g.gid = "10".toList ∨ g.gid = "100".toList then
      (memberList m).Perm (memberList g.members ++ [user])
    else memberList m = memberList g.members

theorem splitOn_text (g : GroupRecord) : g.text.splitOn ':' = g.fields :=
  List.splitOn_intercalate ':' (fun f hf => (g.plain f hf).1) (by simp [GroupRecord.fields])

theorem readGroup_text (g : GroupRecord) :
    readGroup g.text = (g.name, g.pass, g.gid, g.members) := by
  unfold readGroup
  rw [splitOn_text]
  show (g.name, g.pass, g.gid, [':'].intercalate [g.members]) = _
  rw [List.intercalate_singleton]

theorem joins_iff (gid : Str) : joins gid = true ↔ gid = "10".toList ∨ gid = "100".toList := by
  unfold joins caseArm
  rw [List.any_cons, List.any_cons, List.any_nil, Bool.or_false, Bool.or_eq_true, globMatch_lits,
    globMatch_lits]

/-- What is printed for the member list. -/
def newMember (user : Str) (g : GroupRecord) : Str := if joins g.gid then user else []

/-- The fields of the printed record. -/
def newFields (user : Str) (g : GroupRecord) : List Str :=
  [g.name, g.pass, g.gid, newMember user g] ++ if g.members = [] then [] else [g.members]

theorem groupLine_text (user : Str) (g : GroupRecord) :
    groupLine user g.text = [':'].intercalate (newFields user g) ++ ['\n'] := by
  unfold groupLine
  rw [readGroup_text]
  unfold newFields newMember
  by_cases h : g.members = []
  · simp [h, List.intercalate, List.intersperse]
  · simp [h, List.intercalate, List.intersperse]

/-- A name the account can have. -/
def UserName (user : Str) : Prop := user ≠ [] ∧ ∀ c ∈ user, nextChar c = true

theorem UserName.not_mem {user : Str} (h : UserName user) {c : Char} (hc : nextChar c = false) :
    c ∉ user := by
  intro hmem
  rw [h.2 c hmem] at hc
  exact absurd hc (by decide)

theorem memberList_user {user : Str} (h : UserName user) : memberList user = [user] := by
  unfold memberList
  rw [if_neg h.1, List.splitOn_eq_singleton (h.not_mem (by decide))]

theorem newFields_plain {user : Str} (h : UserName user) (g : GroupRecord) :
    ∀ f ∈ newFields user g, ':' ∉ f ∧ '\n' ∉ f := by
  intro f hf
  unfold newFields at hf
  rcases List.mem_append.mp hf with hf | hf
  · simp only [List.mem_cons, List.not_mem_nil, or_false] at hf
    rcases hf with rfl | rfl | rfl | rfl
    · exact g.plain _ (by simp)
    · exact g.plain _ (by simp)
    · exact g.plain _ (by simp)
    · unfold newMember
      split
      · exact ⟨h.not_mem (by decide), h.not_mem (by decide)⟩
      · exact ⟨List.not_mem_nil, List.not_mem_nil⟩
  · split at hf
    · exact absurd hf List.not_mem_nil
    · rw [List.mem_singleton.mp hf]
      exact g.plain _ (by simp)

/-- The printed record, without its newline. -/
def newText (user : Str) (g : GroupRecord) : Str := [':'].intercalate (newFields user g)

theorem splitOn_newText {user : Str} (h : UserName user) (g : GroupRecord) :
    (newText user g).splitOn ':' = newFields user g :=
  List.splitOn_intercalate ':' (fun f hf => (newFields_plain h g f hf).1) (by simp [newFields])

/-- **A record is kept exactly if it has no members.** -/
theorem kept_groupLine_iff {user : Str} (h : UserName user) (g : GroupRecord) :
    Kept user g (newText user g) ↔ g.members = [] := by
  unfold Kept
  rw [splitOn_newText h]
  unfold newFields
  by_cases hm : g.members = []
  · rw [if_pos hm, List.append_nil]
    refine ⟨fun _ => hm, fun _ => ⟨newMember user g, rfl, ?_⟩⟩
    unfold newMember
    by_cases hj : g.gid = "10".toList ∨ g.gid = "100".toList
    · rw [if_pos hj, if_pos ((joins_iff _).mpr hj), memberList_user h, hm]
      exact List.Perm.refl _
    · rw [if_neg hj, if_neg (fun hjoin => hj ((joins_iff _).mp hjoin)), hm]
  · rw [if_neg hm]
    constructor
    · intro hkept
      obtain ⟨m, hfields, _⟩ := hkept
      exact absurd (congrArg List.length hfields) (by simp)
    · intro hnil
      exact absurd hnil hm

/-! ## The file -/

/-- What the loop writes for a file. -/
def groupFile (user file : Str) : Str := ((fileLines file).map (groupLine user)).flatten

theorem text_oneLine {fs : List Str} (h : ∀ f ∈ fs, ':' ∉ f ∧ '\n' ∉ f) :
    '\n' ∉ [':'].intercalate fs := by
  induction fs with
  | nil => exact List.not_mem_nil
  | cons f fs ih =>
      have hf := (h f (List.mem_cons_self ..)).2
      have hfs := ih (fun x hx => h x (List.mem_cons_of_mem f hx))
      cases fs with
      | nil =>
          rw [List.intercalate_singleton]
          exact hf
      | cons x xs =>
          rw [List.intercalate_cons_cons, List.mem_append, List.mem_append, not_or, not_or]
          exact ⟨⟨hf, by decide⟩, hfs⟩

theorem groupFile_text {user : Str} (gs : List GroupRecord) :
    groupFile user (groupText gs) = unlines (gs.map (newText user)) := by
  unfold groupFile groupText
  rw [fileLines_unlines]
  · induction gs with
    | nil => rfl
    | cons g gs ih =>
        rw [List.map_cons, List.map_cons, List.flatten_cons, ih, groupLine_text, List.map_cons,
          unlines_cons, List.append_assoc, List.singleton_append]
        rfl
  · intro l hl
    obtain ⟨g, _, rfl⟩ := List.mem_map.mp hl
    exact text_oneLine g.plain

/-- The lines of the new file belong to the records of the old one. -/
theorem fileLines_groupFile {user : Str} (h : UserName user) (gs : List GroupRecord) :
    fileLines (groupFile user (groupText gs)) = gs.map (newText user) := by
  rw [groupFile_text]
  apply fileLines_unlines
  intro l hl
  obtain ⟨g, _, rfl⟩ := List.mem_map.mp hl
  exact text_oneLine (newFields_plain h g)

/-! ## The program -/

section Program

variable {A : Event World Act Decision → Prop} {e r : VolId} {rest : List (Mount VolId)}
variable (hquiet : ∀ x, A x → machine.signal x.decision = none)

include hquiet

/-- The loop appends the printed records to `group.new`. -/
theorem forEach_group (user : Str) (ls : List Str) :
    ∀ {w : World} {t : Str}, Full e r rest w →
      look w r ["etc".toList, "group.new".toList] = some (.file t) →
      wp machine A (fun _ => True)
        (forEach (fun l => cmd (.write true (etc "group.new".toList) (groupLine user l))) ls)
        (fun _ v => Full e r rest v ∧ look v r ["etc".toList, "group.new".toList]
          = some (.file (t ++ (ls.map (groupLine user)).flatten))) (fun _ _ => True) w := by
  induction ls with
  | nil =>
      intro w t hw ht
      refine ⟨hw, ?_⟩
      rw [ht, List.map_nil, List.flatten_nil, List.append_nil]
  | cons l ls ih =>
      intro w t hw ht
      apply wp_cmd hquiet
      intro d _
      refine ⟨trivial, fun h0 => ?_, fun _ => trivial⟩
      have hfull : Full e r rest (exec d (.write true (etc "group.new".toList)
          (groupLine user l)) w).2 :=
        hw.of_mounts ((exec_frame d _ w).mounts rfl)
      have htext := look_write h0 (hw.locate_etc _) (hw.locate_etcDir _)
      rw [text_of_look (hw.locate_etc _) ht] at htext
      have hrest := ih hfull htext
      rw [if_pos rfl, List.append_assoc, ← List.flatten_cons, ← List.map_cons] at hrest
      exact hrest

/-- **What lines 179 to 193 leave in `/etc/group`.** -/
theorem writeGroup_look (user : Str) {w : World} (hw : Full e r rest w) :
    wp machine A (fun _ => True) (writeGroup user)
      (fun _ v => Full e r rest v ∧ look v r ["etc".toList, "group".toList]
        = some (.file (groupFile user (w.text (etc "group".toList)))))
      (fun _ _ => True) w := by
  apply wp_cmd hquiet
  intro d _
  refine ⟨trivial, fun h0 => ?_, fun _ => trivial⟩
  have hw1 : Full e r rest (exec d (.write false (etc "group.new".toList) []) w).2 :=
    hw.of_mounts ((exec_frame d _ w).mounts rfl)
  have hnew : look (exec d (.write false (etc "group.new".toList) []) w).2 r
      ["etc".toList, "group.new".toList] = some (.file []) :=
    look_write h0 (hw.locate_etc _) (hw.locate_etcDir _)
  have hold : (exec d (.write false (etc "group.new".toList) []) w).2.text (etc "group".toList)
      = w.text (etc "group".toList) := by
    apply text_congr (hw.locate_etc _) (hw1.locate_etc _)
    have hp := perform_of_status rfl h0
    simp only [perform, Option.ite_none_right_eq_some, Option.some.injEq, Prod.mk.injEq] at hp
    rw [← hp.2.2, look_store, if_neg]
    rw [hw.locate_etc]
    intro h
    exact absurd (Prod.mk.inj h.1).2 (by decide)
  show wp machine A _ (capture (.openIn (etc "group".toList)) >>= _) _ _
    (exec d (.write false (etc "group.new".toList) []) w).2
  generalize (exec d (.write false (etc "group.new".toList) []) w).2 = v at hw1 hnew hold
  rw [← hold]
  apply wp_step hquiet
  intro d' _
  refine ⟨trivial, ?_⟩
  show wp machine A _ (Prog.bind (if (exec d' (.openIn (etc "group".toList)) v).1.status = 0 then
    Prog.ret (exec d' (.openIn (etc "group".toList)) v).1.out
    else .exit (exec d' (.openIn (etc "group".toList)) v).1.status) _) _ _
    (exec d' (.openIn (etc "group".toList)) v).2
  rcases exec_openIn d' (etc "group".toList) v with ⟨_, he⟩ | he
  · rw [he, if_pos rfl]
    show wp machine A _ (forEach _ (fileLines (v.text (etc "group".toList))) >>= fun _ => _) _ _
      { v with held := etc "group".toList :: v.held }
    apply wp_bind
    have hloop := forEach_group hquiet user (fileLines (v.text (etc "group".toList)))
      (show Full e r rest { v with held := etc "group".toList :: v.held } from
        ⟨hw1.mounts, hw1.apart⟩) hnew
    refine wp_mono ?_ (fun _ _ hx => hx) hloop
    intro _ u hu
    obtain ⟨hu, hlook⟩ := hu
    apply wp_cmd hquiet
    intro d₁ _
    refine ⟨trivial, fun _ => ?_, fun _ => trivial⟩
    rw [show machine.exec = exec from rfl, exec_close]
    have hu' : Full e r rest { u with held := u.held.tail } := ⟨hu.mounts, hu.apart⟩
    rw [← bind_ret (cmd (Act.mv (etc "group.new".toList) (etc "group".toList)))]
    apply wp_cmd hquiet
    intro d₂ _
    refine ⟨trivial, fun hmv => ?_, fun _ => trivial⟩
    have hgroup := look_mv hmv (hu'.locate_etc "group.new".toList) (hu'.locate_etc "group".toList)
      (by decide)
    have hmoved : Full e r rest (exec d₂ (.mv (etc "group.new".toList) (etc "group".toList))
        { u with held := u.held.tail }).2 :=
      hu'.of_mounts ((exec_frame d₂ _ _).mounts rfl)
    exact ⟨hmoved, hgroup.trans hlook⟩
  · rw [he]
    trivial

end Program

/-- **Group rewriting.**  A completed run of lines 179 to 193 only adds
memberships exactly if no group has members. -/
theorem group_rewrite_iff {O : Nat → Act → Decision} (hO : ∀ n a, (O n a).signal = none)
    {e r : VolId} {rest : List (Mount VolId)} {w : World} (hw : Full e r rest w) {user : Str}
    (huser : UserName user) (gs : List GroupRecord)
    (hgroup : w.text (etc "group".toList) = groupText gs) (n : Nat)
    (hdone : (go machine O (writeGroup user) n w).outcome = .done ()) :
    List.Forall₂ (Kept user) gs
        (fileLines ((go machine O (writeGroup user) n w).final.text (etc "group".toList))) ↔
      ∀ g ∈ gs, g.members = [] := by
  have hcalm : ∀ x ∈ (go machine O (writeGroup user) n w).trace,
      machine.signal x.decision = none := by
    intro x hx
    obtain ⟨m, hm⟩ := go_trace_decision machine O _ n w x hx
    rw [hm]
    exact hO m x.act
  have hsound := (go_sound O (writeGroup user) n w (writeGroup_look (fun _ h => h) user hw)
    hcalm).2
  rw [hdone] at hsound
  have htext : (go machine O (writeGroup user) n w).final.text (etc "group".toList)
      = groupFile user (groupText gs) := by
    rw [← hgroup]
    exact text_of_look (hsound.1.locate_etc _) hsound.2
  rw [htext, fileLines_groupFile huser, List.forall₂_map_right_iff, List.forall₂_same]
  exact forall₂_congr (fun g _ => kept_groupLine_iff huser g)

/-- The target with this text in `/etc/group`. -/
def sampleTarget (group : Str) : World :=
  { sampleWorld none with
    vols := fun _ => some (volOf [([], newDir), (["etc".toList], newDir),
      (["etc".toList, "group".toList], newFile group)])
    mounts := [⟨esp, .dev (partNode "sda".toList 1) .vfat⟩,
      ⟨mntRoot, .dev (partNode "sda".toList 2) .ext4⟩] }

theorem sampleTarget_full (group : Str) :
    Full (.dev (partNode "sda".toList 1) .vfat) (.dev (partNode "sda".toList 2) .ext4) []
      (sampleTarget group) :=
  ⟨rfl, fun _ h => absurd h List.not_mem_nil⟩

/-- The group of the administrators, with these members. -/
def sampleWheel (members : Str) (h : members ∈ [[], "bob".toList]) : GroupRecord :=
  ⟨"wheel".toList, "x".toList, "10".toList, members, by
    simp only [List.mem_cons, List.not_mem_nil, or_false] at h
    rcases h with rfl | rfl
    · decide
    · decide⟩

/-- A group without members that is none of the two. -/
def sampleDaemon : GroupRecord := ⟨"daemon".toList, "x".toList, "2".toList, [], by decide⟩

/-- The group of the users. -/
def sampleUsers : GroupRecord := ⟨"users".toList, "x".toList, "100".toList, [], by decide⟩

/-- `writeGroup` for `ada` on a target with these groups. -/
def sampleRewrite (gs : List GroupRecord) : Run World Act Decision Unit :=
  go machine (fun _ _ => succeeds) (writeGroup "ada".toList) 0 (sampleTarget (groupText gs))

theorem group_rewrite_empty :
    List.Forall₂ (Kept "ada".toList) [sampleDaemon, sampleWheel [] (by decide), sampleUsers]
      (fileLines ((sampleRewrite [sampleDaemon, sampleWheel [] (by decide),
        sampleUsers]).final.text (etc "group".toList))) :=
  (group_rewrite_iff (fun _ _ => rfl) (sampleTarget_full _)
    ⟨by decide, List.all_eq_true.mp (by decide)⟩ _ (by decide +kernel) 0
    (by decide +kernel)).mpr (by simp [sampleDaemon, sampleWheel, sampleUsers])

/-- `wheel:x:10:bob` becomes `wheel:x:10:ada:bob`. -/
theorem group_rewrite_not_kept :
    (sampleRewrite [sampleWheel "bob".toList (by decide)]).outcome = .done () ∧
    ¬ List.Forall₂ (Kept "ada".toList) [sampleWheel "bob".toList (by decide)]
      (fileLines ((sampleRewrite [sampleWheel "bob".toList (by decide)]).final.text
        (etc "group".toList))) := by
  have hlines : fileLines ((sampleRewrite [sampleWheel "bob".toList (by decide)]).final.text
      (etc "group".toList)) = ["wheel:x:10:ada:bob".toList] := by decide +kernel
  refine ⟨by decide +kernel, fun h => ?_⟩
  rw [hlines, List.forall₂_cons] at h
  obtain ⟨m, hm, _⟩ := h.1
  have hfive : ("wheel:x:10:ada:bob".toList.splitOn ':').length = 5 := by decide
  rw [hm] at hfive
  exact absurd hfive (show 4 ≠ 5 by decide)

end Slinux.Installer.Groups
