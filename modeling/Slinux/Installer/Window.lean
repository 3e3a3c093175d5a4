import Slinux.Installer.Guard

/-!
# The window without a root password

Between the `printf` of the kernel command line and the one of root's shadow
record the target boots a copy of the live system, whose root account has no
password.  Whatever ends the script in between leaves it so.

Outside of that window nothing can go wrong.  Before it, the ESP has no
configuration.  Behind it, root has a hash, and no later command takes it
away.  Inside, the state to follow is the mounted target; a signal either ends
the script or takes the target away, and a target that is not mounted does not
change any more.

## Main results

* `window_spec` — through the window, if nothing fails there.
* `bootable_has_password` — a run that is not disturbed while the target is
  bootable without a password does not end so.
-/

namespace Slinux.Installer.Window

open Slinux.Shell.Text
open Slinux.Shell.Glob
open Slinux.Shell.Script
open Slinux.Shell.Logic
open Slinux.Unix.Files
open Slinux.Disk.Name
open Slinux.Disk.Dump
open Slinux.Installer.Accounts
open Slinux.Installer.Bootloader
open Slinux.Installer.System
open Slinux.Installer.Effects
open Slinux.Installer.Script
open Slinux.Installer.Files
open Slinux.Installer.Target
open Slinux.Installer.Prompts
open Slinux.Installer.Devices
open Slinux.Installer.Mounts
open Slinux.Installer.Guard

/-! ## The window -/

section Window

variable {name : DevName} {answers : List Str} {w : World}

/-- Commands of the window whose effect does not matter. -/
def Neutral (a : Act) : Prop := Late a ∧ a.remounts = false ∧ a.traps = false

theorem wp_neutral {α : Type} {p : Prog Act α} (hp : Straight Neutral p) (hw : Inside name w) :
    wp machine (Guarded name answers) (fun _ => True) p
      (fun _ => InsideOr name (fun _ => True)) (Disarmed name) w := by
  refine wp_straight (P := Neutral) ?_ ?_ hp (Or.inl ⟨hw, trivial⟩)
  · intro a d v ha hv hA _
    exact ⟨trivial, resume_insideOr hv ha.1 ha.2.1 ha.2.2 hA (fun _ _ => trivial)⟩
  · intro a d v _ _ hA h0
    have hdisarmed := hA.disarmed (Or.inl h0)
    refine ⟨trivial, resume_kept hdisarmed (fun _ _ => hdisarmed) ?_⟩
    intro d' ops _ _ _ _ harmed
    exact hdisarmed (umount_armed d' ops (harmed.of_vols rfl rfl))

theorem neutral_cmd {a : Act} (hf : formats a = false) (hm : a.remounts = false)
    (ht : a.traps = false) : Straight Neutral (cmd a) := by
  refine straight_cmd ⟨⟨hf, ?_⟩, hm, ht⟩
  rintro fs ro dev p rfl
  cases hm

theorem writeNormal_neutral (pu : Str) : Straight Neutral (writeNormal pu) :=
  straight_bind (neutral_cmd rfl rfl rfl) (fun _ => straight_bind (neutral_cmd rfl rfl rfl)
    (fun _ => straight_bind (neutral_cmd rfl rfl rfl) (fun _ => neutral_cmd rfl rfl rfl)))

theorem writeRescueIf_neutral (initrd : Option Path) :
    Straight Neutral (writeRescueIf initrd) := by
  cases initrd with
  | none => trivial
  | some p =>
      exact straight_bind (neutral_cmd rfl rfl rfl) (fun _ =>
        straight_bind (neutral_cmd rfl rfl rfl) (fun _ =>
          straight_bind (neutral_cmd rfl rfl rfl) (fun _ => neutral_cmd rfl rfl rfl)))

/-- A prompt does not change files. -/
theorem Asks.look {a : Act} (ha : Asks a) (d : Decision) (i : VolId) (q : Path) :
    look (exec d a w).2 i q = look w i q := by
  cases exec_look d (Fills.late (Asks.fills ha)).1 w i q with
  | same h => exact h
  | replaced p hp _ => cases a <;> first | exact ha.elim | cases hp
  | made routes ha' _ => rw [ha'] at ha; exact ha.elim
  | copied src dst ha' _ _ => rw [ha'] at ha; exact ha.elim

theorem Asks.armed {a : Act} (ha : Asks a) (d : Decision) :
    Armed name (exec d a w).2 ↔ Armed name w := by
  have hlayout := (Fills.late (Asks.fills ha)).layout (w := w) d
  constructor
  · intro h
    exact h.congr (fun q => Asks.look ha d _ q) (fun q => Asks.look ha d _ q) hlayout
  · intro h
    exact h.congr (fun q => (Asks.look ha d _ q).symm) (fun q => (Asks.look ha d _ q).symm)
      hlayout.symm

/-- While the target is armed, the prompts are obliging. -/
theorem obliging_armed :
    Obliging (Guarded name answers) (fun v => Inside name v ∧ Armed name v) := by
  intro a d v v' out ha hv hA hp
  obtain ⟨h0, hsig, _⟩ := hA (Or.inl hv.2)
  have hplain := Fills.plain (Asks.fills ha)
  have hord : a.ordinary = true := by
    cases a <;> first | rfl | exact ha.elim
  have hp' := perform_of_status hord h0
  rw [hp, Option.some.injEq, Prod.mk.injEq] at hp'
  have hafter : Inside name (exec d a v).2 ∧ Armed name (exec d a v).2 :=
    ⟨hv.1.step d hplain.1 hplain.2.2, (Asks.armed ha d).mpr hv.2⟩
  refine ⟨hsig, ?_, ?_⟩
  · apply Prod.ext
    · show (exec d a v).1 = ⟨0, out⟩
      rw [hp'.1, ← h0]
      rfl
    · exact hp'.2.symm
  · rw [hp'.2]
    exact hafter

/-- Lines 148 to 160. -/
theorem askAccounts_spec (hw : Inside name w) :
    wp machine (Guarded name answers) (fun _ => True) (askAccounts answers.tail)
      (fun a => InsideOr name (fun _ => ∃ hash : Hash, a.rhash = hash.text)) (Disarmed name) w := by
  have hstate : wp machine (Guarded name answers) (fun _ => True) (askAccounts answers.tail)
      (fun _ => InsideOr name (fun _ => True)) (Disarmed name) w := by
    by_cases harmed : Armed name w
    · by_cases haccepted : Accepted answers
      · obtain ⟨user, huser⟩ := Option.isSome_iff_exists.mp haccepted
        refine wp_mono ?_ (fun _ _ hx => hx)
          (askAccounts_accepts obliging_armed huser ⟨hw, harmed⟩)
        rintro a v ⟨_, _, _, hv, _⟩
        exact Or.inl ⟨hv, trivial⟩
      · -- the first message is already an event of the window
        intro d hA
        exact absurd (hA (Or.inl harmed)).2.2 haccepted
    · refine wp_mono (Q := fun _ => InsideOr name (fun v => ¬ Armed name v)) ?_
        (fun _ _ hx => hx) (wp_invariant (P := Asks) ?_ ?_ (askAccounts_asks _)
          (Or.inl ⟨hw, harmed⟩))
      · rintro a v (⟨hv, _⟩ | hlost)
        · exact Or.inl ⟨hv, trivial⟩
        · exact Or.inr hlost
      · intro a d v ha hv hA
        have hplain := Fills.plain (Asks.fills ha)
        exact ⟨trivial, resume_insideOr hv (Fills.late (Asks.fills ha)) hplain.1 hplain.2.2 hA
          (fun _ hdisarmed h => hdisarmed ((Asks.armed ha d).mp h))⟩
      · rintro s v _ (⟨_, hdisarmed⟩ | hlost)
        · exact hdisarmed
        · exact hlost.2
  refine wp_mono ?_ (fun _ _ hx => hx.1) (wp_and hstate (askAccounts_hash answers.tail))
  rintro a v ⟨hv, hhash⟩
  rcases hv with ⟨hin, _⟩ | hlost
  · exact Or.inl ⟨hin, hhash⟩
  · exact Or.inr hlost

theorem inside_locate_etc (h : Inside name w) (file : Str) :
    w.locate (etc file) = (rootVol name, etcFile file) := by
  obtain ⟨rest, hfull⟩ := h.full
  exact hfull.locate_etc file

theorem inside_locate_etcDir (h : Inside name w) (file : Str) :
    w.locate (etc file).dropLast = (rootVol name, ["etc".toList]) := by
  obtain ⟨rest, hfull⟩ := h.full
  exact hfull.locate_etcDir file

/-- Lines 165 to 170. -/
theorem writePasswd_spec (hw : Inside name w) (user : Str) :
    wp machine (Guarded name answers) (fun _ => True) (writePasswd user)
      (fun _ => InsideOr name (fun v =>
        look v (rootVol name) (etcFile "passwd".toList) = some (.file (passwdFile user))))
      (Disarmed name) w := by
  have hacts : Acts Tested Late (writePasswd user) :=
    (writePasswd_fills user).mono (fun _ => Fills.late)
  have hlost : ∀ {extra : World → Prop} (b : Unit) v, Lost name v → InsideOr name extra v :=
    fun _ _ h => Or.inr h
  apply wp_inside_then (fun _ v => look v (rootVol name)
    (etcFile "passwd.new".toList) = some (.file []))
  · apply wp_inside_cmd hw rfl rfl
    intro d h0
    exact look_write h0 (inside_locate_etc hw _) (inside_locate_etcDir hw _)
  · intro _ v hv hnew
    apply wp_inside_then (fun _ v => look v (rootVol name)
      (etcFile "passwd.new".toList) = some (.file rootPasswd))
    · apply wp_inside_cmd hv rfl rfl
      intro d h0
      rw [look_write h0 (inside_locate_etc hv _) (inside_locate_etcDir hv _),
        text_of_look (inside_locate_etc hv _) hnew]
      rfl
    · intro _ v hv hnew
      apply wp_inside_then (fun _ v => look v (rootVol name)
        (etcFile "passwd.new".toList) = some (.file (passwdFile user)))
      · apply wp_inside_cmd hv rfl rfl
        intro d h0
        rw [look_write h0 (inside_locate_etc hv _) (inside_locate_etcDir hv _),
          text_of_look (inside_locate_etc hv _) hnew]
        rfl
      · intro _ v hv hnew
        apply wp_inside_cmd hv rfl rfl
        intro d h0
        rw [look_mv h0 (inside_locate_etc hv _) (inside_locate_etc hv _) (by decide)]
        exact hnew
      · intro _
        exact (acts_rest (acts_rest (acts_rest hacts).2).2).2
      · exact hlost
    · intro _
      exact (acts_rest (acts_rest hacts).2).2
    · exact hlost
  · intro _
    exact (acts_rest hacts).2
  · exact hlost

end Window

/-! ## Behind the window -/

section Behind

variable {name : DevName} {answers : List Str} {w : World}

/-- The account files are written, and the new root is mounted where the
script thinks it is, if at all. -/
structure Prot (name : DevName) (w : World) : Prop where
  only : ∀ m ∈ w.mounts, m.vol = rootVol name → m.point = mntRoot
  passwd : ∃ p, look w (rootVol name) (etcFile "passwd".toList) = some (.file (rootPasswd ++ p))
  shadow : ∃ (hash : Hash) (s : Str), look w (rootVol name) (etcFile "shadow".toList)
    = some (.file (shadowRecord rootName hash.text ++ s))

theorem rootField_passwd (p : Str) : rootField (rootPasswd ++ p) = some "x".toList := by
  have hsplit : rootPasswd ++ p = "root:x:0:0:root:/root:/bin/sh".toList ++ '\n' :: p := by
    rw [show rootPasswd = "root:x:0:0:root:/root:/bin/sh".toList ++ ['\n'] by decide]
    simp
  rw [rootField, records, hsplit, fileLines_cons (by decide), List.map_cons,
    List.find?_cons_of_pos (by decide)]
  rfl

theorem rootField_shadow (hash : Hash) (s : Str) :
    rootField (shadowRecord rootName hash.text ++ s) = some hash.text := by
  have hroot : '\n' ∉ rootName ∧ ':' ∉ rootName := by decide
  have hsplit : shadowRecord rootName hash.text ++ s
      = [':'].intercalate (shadowFields rootName hash.text) ++ '\n' :: s := by
    simp [shadowRecord, shadowFields, List.intercalate, List.intersperse]
  have hline : '\n' ∉ [':'].intercalate (shadowFields rootName hash.text) := by
    simp [shadowFields, List.intercalate, List.intersperse, hroot.1, hash.oneLine]
  have hnamed : named rootName (shadowFields rootName hash.text) = true := by
    simp [named, field, shadowFields]
  rw [rootField, records, hsplit, fileLines_cons hline, List.map_cons,
    List.splitOn_intercalate ':' (by simp [shadowFields, hroot.2, hash.noColon])
      (by simp [shadowFields]), List.find?_cons_of_pos hnamed]
  rfl

theorem Prot.disarmed (h : Prot name w) : ¬ Armed name w := by
  rintro ⟨_, hnot⟩
  obtain ⟨p, hp⟩ := h.passwd
  obtain ⟨hash, s, hs⟩ := h.shadow
  refine hnot ⟨_, _, hp, rootField_passwd p, by decide, fun _ => ?_⟩
  exact ⟨_, _, hs, rootField_shadow hash s, hash.ne⟩

/-- Only its path below `/mnt/root` leads to a file of the new root. -/
theorem Prot.path (h : Prot name w) {p q : Path} (hloc : w.locate p = (rootVol name, q)) :
    p = mntRoot ++ q := by
  rcases locate_vol w p with hlive | ⟨m, hm, hvol, hp⟩
  · rw [hloc] at hlive
    exact absurd hlive rootVol_ne_live
  · rw [hloc] at hvol hp
    rw [h.only m hm hvol] at hp
    exact hp

/-- The files that are replaced behind root's record. -/
theorem Concludes.replaces {a : Act} (ha : Concludes a) {p : Path} (hp : p ∈ replaces a) :
    (∃ text, a = .write true (etc "shadow".toList) text ∧ p = etc "shadow".toList) ∨
      p = etc "group.new".toList ∨ p = etc "group".toList := by
  cases a
  case write append path text =>
    obtain rfl := List.mem_singleton.mp hp
    rcases ha with ⟨rfl, rfl⟩ | rfl
    · exact Or.inl ⟨text, rfl, rfl⟩
    · exact Or.inr (Or.inl rfl)
  case mv src dst =>
    obtain ⟨rfl, rfl⟩ := ha
    rcases List.mem_cons.mp hp with rfl | hp
    · exact Or.inr (Or.inl rfl)
    · exact Or.inr (Or.inr (List.mem_singleton.mp hp))
  case cp | touch | openOut => exact ha.elim
  all_goals cases hp

/-- A file is appended to, or left as it is. -/
theorem look_append (d : Decision) {p q : Path} {i : VolId} {t : Str}
    (hloc : w.locate p = (i, q)) (ht : look w i q = some (.file t)) (text : Str) :
    look (exec d (.write true p text) w).2 i q = some (.file (t ++ text)) ∨
      look (exec d (.write true p text) w).2 i q = some (.file t) := by
  rcases exec_cases d (a := .write true p text) rfl w with ⟨out, w', hp, he⟩ | he | he
  · left
    simp only [perform, Option.ite_none_right_eq_some, Option.some.injEq, Prod.mk.injEq] at hp
    rw [he, ← hp.2.2, look_store, if_pos ⟨hloc, vols_isSome_of_look ht⟩, if_pos trivial,
      text_of_look hloc ht]
  · right
    rw [he]
    exact ht
  · right
    rw [he]
    exact ht

/-- What comes behind root's record only appends to the shadow file. -/
theorem Prot.step (h : Prot name w) (d : Decision) {a : Act} (ha : Concludes a) :
    Prot name (exec d a w).2 := by
  have hlate := Concludes.late ha
  refine ⟨fun m hm => h.only m (hlate.mounts d m hm), ?_, ?_⟩
  · obtain ⟨p, hp⟩ := h.passwd
    refine ⟨p, ?_⟩
    cases exec_look d hlate.1 w (rootVol name) (etcFile "passwd".toList) with
    | same hsame => rw [hsame]; exact hp
    | replaced p' hp' hloc =>
        have hpath : p' = etc "passwd".toList := h.path hloc
        rcases Concludes.replaces ha hp' with ⟨_, _, hother⟩ | hother | hother
        all_goals exact absurd (hpath.symm.trans hother) (by decide)
    | made routes _ hmade => rw [hmade.2.1] at hp; cases hp
    | copied src dst ha' _ _ => rw [ha'] at ha; exact ha.elim
  · obtain ⟨hash, s, hs⟩ := h.shadow
    cases exec_look d hlate.1 w (rootVol name) (etcFile "shadow".toList) with
    | same hsame => exact ⟨hash, s, hsame.trans hs⟩
    | replaced p' hp' hloc =>
        have hpath : p' = etc "shadow".toList := h.path hloc
        rcases Concludes.replaces ha hp' with ⟨text, rfl, _⟩ | hother | hother
        · rw [hpath] at hloc
          rcases look_append d hloc hs text with happ | hkept
          · exact ⟨hash, s ++ text, by rw [happ, List.append_assoc]⟩
          · exact ⟨hash, s, hkept⟩
        · exact absurd (hpath.symm.trans hother) (by decide)
        · exact absurd (hpath.symm.trans hother) (by decide)
    | made routes _ hmade => rw [hmade.2.1] at hs; cases hs
    | copied src dst ha' _ _ => rw [ha'] at ha; exact ha.elim

theorem wp_prot {α : Type} {p : Prog Act α} (hp : Acts Tested Concludes p) (hw : Prot name w) :
    wp machine (Guarded name answers) (fun _ => True) p (fun _ => Prot name) (Disarmed name) w := by
  refine wp_unarmed (fun _ hv => hv.disarmed) (fun _ d _ ha hv => hv.step d ha) ?_ hp hw
  intro d ops v hv
  have humount := hv.step d (a := .umount ops) trivial
  exact ⟨humount.only, humount.passwd, humount.shadow⟩

/-- Root's record of the shadow file, and everything behind it. -/
theorem completeAccounts_spec (hw : Inside name w) {a : Accounts} (hash : Hash)
    (hhash : a.rhash = hash.text) {user : Str}
    (hpasswd : look w (rootVol name) (etcFile "passwd".toList) = some (.file (passwdFile user)))
    (disk pu : Str) :
    wp machine (Guarded name answers) (fun _ => True) (completeAccounts disk pu a)
      (fun _ v => ¬ Armed name v) (Disarmed name) w := by
  have hrest := afterShadow_concludes disk pu a
  apply wp_inside_then (fun _ => Prot name)
  · apply wp_inside_cmd hw rfl rfl
    intro d h0
    obtain ⟨rest, hfull⟩ := hw.full
    refine ⟨?_, ?_, hash, [], ?_⟩
    · intro m hm hvol
      rw [(exec_frame d (.write false _ _) w).mounts rfl, hfull.mounts] at hm
      simp only [List.mem_cons] at hm
      rcases hm with rfl | rfl | hm
      · exact absurd hvol espVol_ne_rootVol
      · rfl
      · exact absurd hvol (hfull.apart m hm).2
    · refine ⟨userPasswd user, ?_⟩
      cases exec_look d rfl w (a := .write false (etc "shadow".toList)
        (shadowRecord rootName a.rhash)) (rootVol name) (etcFile "passwd".toList) with
      | same hsame => exact hsame.trans hpasswd
      | replaced p hp hloc =>
          rw [List.mem_singleton.mp hp, inside_locate_etc hw] at hloc
          exact absurd (Prod.mk.inj hloc).2 (by decide)
      | made routes ha' _ => cases ha'
      | copied src dst ha' _ _ => cases ha'
    · rw [look_write h0 (inside_locate_etc hw _) (inside_locate_etcDir hw _), hhash]
      simp
  · intro _ v _ hprot
    exact wp_mono (fun _ _ hx => hx.disarmed) (fun _ _ hx => hx) (wp_prot hrest hprot)
  · intro _
    exact hrest.mono (fun _ => Concludes.late)
  · intro _ v hlost
    exact hlost.2

end Behind

/-! ## The whole script -/

section Script

variable {name : DevName} {answers : List Str} {w : World}

theorem completeAccounts_late (disk pu : Str) (a : Accounts) :
    Acts Tested Late (completeAccounts disk pu a) :=
  acts_bind (acts_cmd (Fills.late ⟨rfl, rfl⟩)) (fun _ =>
    (afterShadow_concludes disk pu a).mono (fun _ => Concludes.late))

theorem afterAccounts_late (disk pu : Str) (a : Accounts) :
    Acts Tested Late (do
      writePasswd a.user
      completeAccounts disk pu a) :=
  acts_bind ((writePasswd_fills a.user).mono (fun _ => Fills.late))
    (fun _ => completeAccounts_late disk pu a)

theorem close_late : Late .close := ⟨rfl, by simp⟩

theorem afterRescue_late (disk pu : Str) (as : List Str) :
    Acts Tested Late (do
      cmd .close
      let a ← askAccounts as
      writePasswd a.user
      completeAccounts disk pu a) :=
  acts_bind (acts_cmd close_late) (fun _ =>
    acts_bind ((askAccounts_asks as).mono (fun _ h => Fills.late (Asks.fills h)))
      (fun a => afterAccounts_late disk pu a))

theorem completeInstall_late (disk pu : Str) (f : Found) (as : List Str) :
    Acts Tested Late (completeInstall disk pu f as) :=
  acts_bind ((writeRescueIf_fills f.initrd).mono (fun _ => Fills.late))
    (fun _ => afterRescue_late disk pu as)

theorem openOut_late (p : Path) : Late (.openOut p) := ⟨rfl, by simp⟩

theorem writeNormal_late (pu : Str) : Acts Tested Late (writeNormal pu) := by
  have hwrite : ∀ p text, Late (.write true p text) := fun p text => Fills.late ⟨rfl, rfl⟩
  exact acts_bind (acts_cmd (openOut_late _)) (fun _ => acts_bind (acts_cmd (hwrite _ _))
    (fun _ => acts_bind (acts_cmd (hwrite _ _)) (fun _ => acts_cmd (hwrite _ _))))

/-- **Through the window**: behind the files of the ESP, if nothing fails while
the target is armed. -/
theorem window_spec (hw : Inside name w) (disk pu : Str) (f : Found) :
    wp machine (Guarded name answers) (fun _ => True)
      (do
        writeNormal pu
        completeInstall disk pu f answers.tail)
      (fun _ v => ¬ Armed name v) (Disarmed name) w := by
  have hlost : ∀ (b : Unit) v, Lost name v → ¬ Armed name v := fun _ _ h => h.2
  apply wp_inside_then (fun _ _ => True) (wp_neutral (writeNormal_neutral pu) hw) _
    (fun _ => completeInstall_late disk pu f _) hlost
  intro _ v hv _
  apply wp_inside_then (fun _ _ => True) (wp_neutral (writeRescueIf_neutral _) hv) _
    (fun _ => afterRescue_late disk pu _) hlost
  intro _ v hv _
  apply wp_inside_then (fun _ _ => True)
    (wp_neutral (neutral_cmd rfl rfl rfl) hv) _ (fun _ => (acts_rest
      (afterRescue_late disk pu answers.tail)).2) hlost
  intro _ v hv _
  apply wp_inside_then _ (askAccounts_spec hv) _ (fun a => afterAccounts_late disk pu a) hlost
  intro a v hv hhash
  obtain ⟨hash, hhash⟩ := hhash
  apply wp_inside_then _ (writePasswd_spec hv a.user) _ (fun _ => completeAccounts_late disk pu a)
    hlost
  intro _ v hv hpasswd
  exact completeAccounts_spec hv hash hhash hpasswd disk pu

theorem installOn_spec (hnames : NamesAgree name.text) (hw : Ahead name w) (espsz : Str)
    (f : Found) :
    wp machine (Guarded name answers) (fun _ => True)
      (installOn (devPath name.text) espsz f answers.tail) (fun _ v => ¬ Armed name v)
      (Disarmed name) w := by
  have hlost : ∀ (b : Unit) v, Lost name v → ¬ Armed name v := fun _ _ h => h.2
  have hwindow : ∀ pu, Acts Tested Late (do
      writeNormal pu
      completeInstall (devPath name.text) pu f answers.tail) := fun pu =>
    acts_bind (writeNormal_late pu) (fun _ => completeInstall_late _ pu f _)
  have hboot := (copyBootFiles_copies (devPath name.text) f).mono
    (fun _ h => Fills.late (Copies.fills h))
  apply wp_bind
  refine wp_mono ?_ (fun _ _ hx => hx) (wp_early_phase hnames
    ((makeFilesystems_prepares _ espsz).mono (fun _ h => Or.inr (Or.inl h))) hw)
  intro _ v hv
  apply wp_inside_then (fun _ => NoConf name) (mountTarget_spec hnames hv) _
    (fun _ => acts_bind (copySystem_copies.mono (fun _ h => Fills.late (Copies.fills h)))
      (fun _ => acts_bind hboot (fun pu => hwindow pu))) hlost
  intro _ v hv hconf
  apply wp_inside_then (fun _ => NoConf name) (wp_copies copySystem_copies hv hconf) _
    (fun _ => acts_bind hboot (fun pu => hwindow pu)) hlost
  intro _ v hv hconf
  apply wp_inside_then (fun _ => NoConf name)
    (wp_copies (copyBootFiles_copies _ f) hv hconf) _ hwindow hlost
  intro pu v hv _
  exact window_spec hv _ pu f

/-- The script on a disk whose partitions have the names it expects. -/
theorem install_spec_agree (hnames : NamesAgree name.text) (hw : Ahead name w) (rest : List Str)
    (sysdevs : List SysDev) :
    wp machine (Guarded name answers) (fun _ => True)
      (slinuxInstall (devPath name.text :: rest) sysdevs answers) (fun _ v => ¬ Armed name v)
      (Disarmed name) w := by
  have hasks : ∀ {α : Type} {p : Prog Act α}, Acts Tested Asks p →
      Acts Tested (EarlyAct name) p := fun hp => hp.mono (fun _ h => Or.inl (Or.inl h))
  have hearly : ∀ {α β : Type} {p : Prog Act α} {k : α → Prog Act β} {Q : β → World → Prop}
      {v : World}, Acts Tested (EarlyAct name) p → Ahead name v →
      (∀ a u, Ahead name u →
        wp machine (Guarded name answers) (fun _ => True) (k a) Q (Disarmed name) u) →
      wp machine (Guarded name answers) (fun _ => True) (p >>= k) Q (Disarmed name) v :=
    fun hp hv hk => wp_bind _ _ (wp_mono (fun a u hu => hk a u hu) (fun _ _ hx => hx)
      (wp_early_phase hnames hp hv))
  apply hearly (hasks (require_asks (by trivial) (by trivial) _ Nat.one_ne_zero)) hw
  intro _ v hv
  apply hearly (hasks (require_asks (by trivial) (by trivial) _ Nat.one_ne_zero)) hv
  intro _ v hv
  apply wp_bind
  refine wp_mono ?_ (fun _ _ hx => hx) (wp_returns (confirm_returns _ answers)
    (wp_early_phase hnames (hasks (confirm_asks _ answers)) hv))
  rintro as v ⟨rfl, hv⟩
  apply hearly (hasks (waitDisk_asks _ 30)) hv
  intro _ v hv
  apply hearly ((searchBootMedium_searches _ sysdevs).mono (fun _ h => Or.inl h)) hv
  intro f v hv
  exact installOn_spec hnames hv _ f

/-- Where the script expects other names, it never makes a file system on the
disk's own first partition. -/
def NoEsp (name : DevName) (w : World) : Prop :=
  name ∈ w.disks ∧ (w.layout = none ∨ w.vols (espVol name) = none)

theorem NoEsp.disarmed (h : NoEsp name w) : ¬ Armed name w := by
  intro harmed
  obtain ⟨t, c, hlayout, hconf, _⟩ := harmed.1.conf
  rcases h.2 with hnone | hnone
  · rw [hnone] at hlayout
    cases hlayout
  · simp [look, hnone] at hconf

theorem NoEsp.step (hnames : ¬ NamesAgree name.text) (h : NoEsp name w) (d : Decision) {a : Act}
    (ha : Writes (devPath name.text) a) : NoEsp name (exec d a w).2 := by
  have hf := exec_frame d a w
  refine ⟨by rw [hf.disks]; exact h.1, ?_⟩
  have hmkfs : ∀ {dev : Str} {fs : Fs}, dev ∈ a.devices →
      ((a = .mkfsFat dev ∧ fs = .vfat) ∨ (a = .mke2fs dev ∧ fs = .ext4)) →
      (exec d a w).2.layout = none ∨ (exec d a w).2.vols (espVol name) = none := by
    intro dev fs hdev hmkfs
    have hother : partNode name.text 1 ≠ dev := by
      intro heq
      have hone : partNode name.text 1 ∈ ownNodes name.text :=
        List.mem_cons_of_mem _ (List.mem_cons_self ..)
      rcases ha.nodes dev hdev with hd | hd | hd
      · have hlen := congrArg List.length (heq.trans hd)
        simp [partNode, devPath, partName, decimal] at hlen
      · exact diskP_not_own hnames (Or.inl rfl) (hd ▸ heq ▸ hone)
      · exact diskP_not_own hnames (Or.inr rfl) (hd ▸ heq ▸ hone)
    rcases exec_mkfs d hmkfs w with ⟨_, he⟩ | he
    · rw [he]
      rcases h.2 with hnone | hnone
      · exact Or.inl hnone
      · right
        show (if _ = dev then _ else w.vols (espVol name)) = none
        rw [if_neg hother]
        exact hnone
    · rw [he]
      exact h.2
  cases hfmt : formats a with
  | false =>
      rcases h.2 with hnone | hnone
      · left
        rw [hf.layout (by cases a <;> first | rfl | cases hfmt)]
        exact hnone
      · right
        have hsome := exec_isSome d hfmt w (espVol name)
        rw [hnone] at hsome
        simpa using hsome
  | true =>
      cases a
      case sfdisk disk s =>
        obtain rfl := ha.table disk s rfl
        rcases exec_sfdisk d (devPath name.text) s w with ⟨_, he⟩ | he
        · right
          rw [he]
          exact partition_new d.layout .vfat (partNode_mem_newNodes h.1)
        · rw [he]
          exact h.2
      case mkfsFat dev => exact hmkfs (List.mem_singleton.mpr rfl) (Or.inl ⟨rfl, rfl⟩)
      case mke2fs dev => exact hmkfs (List.mem_singleton.mpr rfl) (Or.inr ⟨rfl, rfl⟩)
      all_goals cases hfmt

/-- The script on a disk whose partitions have other names. -/
theorem install_spec_disagree (hnames : ¬ NamesAgree name.text) (hw : NoEsp name w)
    (rest : List Str) (sysdevs : List SysDev) :
    wp machine (Guarded name answers) (fun _ => True)
      (slinuxInstall (devPath name.text :: rest) sysdevs answers) (fun _ v => ¬ Armed name v)
      (Disarmed name) w := by
  refine wp_mono (fun _ _ hv => hv.disarmed) (fun _ _ hx => hx) (wp_unarmed (I := NoEsp name)
    (fun _ hv => hv.disarmed) (fun _ d _ ha hv => hv.step hnames d ha) ?_
    (install_writes _ rest sysdevs answers) hw)
  intro d ops v hv
  exact hv.step hnames d (a := .umount ops) (Silent.writes rfl)

end Script

/-- **No bootable system without a password.**  A run on a disk that is not
mounted at the start, in which nothing fails, no signal arrives and no answer
is refused while the disk is bootable without a root password, does not leave
it so. -/
theorem bootable_has_password (name : DevName) (w : World) (hdisk : name ∈ w.disks)
    (hstart : Start w) (hlayout : w.layout = none)
    (hmounts : ∀ m ∈ w.mounts, m.vol ≠ espVol name ∧ m.vol ≠ rootVol name)
    (O : Nat → Act → Decision) (rest : List Str) (sysdevs : List SysDev) (answers : List Str)
    (hguard : ∀ e ∈ (runScript machine O
      (slinuxInstall (devPath name.text :: rest) sysdevs answers) w).trace,
      Guarded name answers e) :
    Bootable name (runScript machine O
      (slinuxInstall (devPath name.text :: rest) sysdevs answers) w).final →
    Protected name (runScript machine O
      (slinuxInstall (devPath name.text :: rest) sysdevs answers) w).final := by
  have hspec : wp machine (Guarded name answers) (fun _ => True)
      (slinuxInstall (devPath name.text :: rest) sysdevs answers) (fun _ v => ¬ Armed name v)
      (Disarmed name) w := by
    by_cases hnames : NamesAgree name.text
    · apply install_spec_agree hnames
      refine ⟨hdisk, hmounts, ⟨?_, ?_⟩, ?_, ?_⟩
      · exact hstart.free esp (by decide)
      · exact hstart.free mntRoot (by decide)
      · intro ops hops
        rw [hstart.trap] at hops
        cases hops
      · intro h
        exact absurd hlayout h
    · exact install_spec_disagree hnames ⟨hdisk, Or.inl hlayout⟩ rest sysdevs
  have hrun := (runScript_sound (F := fun _ v => ¬ Armed name v) O _
    (wp_mono (fun a v hv => leaving_disarmed (.done a) hv)
      (fun x v hv => leaving_disarmed (.ended x) hv) hspec) hguard).2
  intro hboot
  by_contra hnot
  exact hrun ⟨hboot, hnot⟩

/-- An installation that nothing disturbs. -/
theorem bootable_has_password_sample :
    Bootable sampleName (sampleRun (fun _ _ => succeeds) (some sampleMedium)
      sampleAnswers).final ∧
    Protected sampleName (sampleRun (fun _ _ => succeeds) (some sampleMedium)
      sampleAnswers).final := by
  have hboot : Bootable sampleName (sampleRun (fun _ _ => succeeds) (some sampleMedium)
      sampleAnswers).final := by decide +kernel
  exact ⟨hboot, bootable_has_password sampleName (sampleWorld (some sampleMedium)) (by decide)
    (sampleWorld_start _) rfl (fun m hm => by cases hm) (fun _ _ => succeeds) [] sampleSysdevs
    sampleAnswers (by decide +kernel) hboot⟩

/-- The same installation, with a mistyped repetition of the root password:
the disk boots, and root has no password. -/
theorem bootable_without_password :
    Bootable sampleName (sampleRun (fun _ _ => succeeds) (some sampleMedium)
      ["y".toList, "rootpass".toList, "rootpasx".toList]).final ∧
    ¬ Protected sampleName (sampleRun (fun _ _ => succeeds) (some sampleMedium)
      ["y".toList, "rootpass".toList, "rootpasx".toList]).final := by
  decide +kernel

end Slinux.Installer.Window
