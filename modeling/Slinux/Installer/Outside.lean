import Slinux.Installer.Status

/-!
# What the installer leaves alone

`slinux-install` runs as root on the live system and writes to absolute paths
below `/mnt/root`.  Whether such a path leads to the new partitions or to the
running system depends on the mount table at that moment.  This module shows
for whole runs that it always leads to the new partitions: whatever fails, and
whatever the machine has mounted, no volume beyond the disk and its partitions
changes, except that directories may be made on the way to the mount points.

Two things can break this.  A signal whose cleanup succeeds unmounts the target
and lets the script go on.  And the user name is part of the path given to
`chown`, so a name with a slash can lead it anywhere: then contents stay as
they are, but a directory elsewhere can change hands.

## Main results

* `exec_nodeAt` — what a command can change, with modes and owners.
* `installOn_intact` — lines 82 to 202.
* `outside_intact` — whole runs.
-/

namespace Slinux.Installer.Outside

open Slinux.Shell.Text
open Slinux.Shell.Script
open Slinux.Shell.Logic
open Slinux.Unix.Files
open Slinux.Disk.Name
open Slinux.Installer.Bootloader
open Slinux.Installer.Accounts
open Slinux.Installer.System
open Slinux.Installer.Effects
open Slinux.Installer.Script
open Slinux.Installer.Files
open Slinux.Installer.Operands

/-! ## What a command can change -/

/-- The paths a command acts on, whose volumes it can change there or below.
Directories it makes and a path it gives away are not among them. -/
def alters : Act → List Path
  | .cpA src dst => [dst ++ [src]]
  | .cp _ p | .chownR p | .chmodSetuid p | .chmod _ p | .touch p | .write _ p _ | .openOut p => [p]
  | .mv src dst => [src, dst]
  | _ => []

/-- A node is the same afterwards, or a new directory. -/
def Sprouts (before after : Option Node) : Prop :=
  after = before ∨ (before = none ∧ after = some newDir)

theorem Sprouts.refl (a : Option Node) : Sprouts a a := Or.inl rfl

theorem Sprouts.trans {a b c : Option Node} (h : Sprouts a b) (h' : Sprouts b c) :
    Sprouts a c := by
  rcases h with rfl | ⟨ha, hb⟩
  · exact h'
  · rcases h' with rfl | ⟨hb', _⟩
    · exact Or.inr ⟨ha, hb⟩
    · rw [hb] at hb'
      cases hb'

theorem Sprouts.grown {a b : Option Node} (h : Sprouts a b) :
    Grown (a.map Node.kind) (b.map Node.kind) := by
  rcases h with rfl | ⟨rfl, rfl⟩
  · exact Grown.refl _
  · exact Or.inr ⟨rfl, rfl⟩

/-- The ways in which a command can change what a volume holds at a path. -/
inductive Alter (a : Act) (w v : World) (i : VolId) (q : Path) : Prop where
  | same (h : nodeAt v i q = nodeAt w i q)
  | made (routes : List (List Str)) (ha : a = .mkdirP routes)
      (h : Sprouts (nodeAt w i q) (nodeAt v i q))
  | altered (p : Path) (hp : p ∈ alters a) (hvol : (w.locate p).1 = i)
  | given (uid gid : Nat) (route : List Str) (ha : a = .chown uid gid route)
      (hloc : w.locate (normalize route) = (i, q))
      (hkind : look v i q = look w i q)

theorem nodeAt_of_vols {w v : World} {i : VolId} (h : v.vols i = w.vols i) (q : Path) :
    nodeAt v i q = nodeAt w i q := by
  unfold nodeAt
  rw [h]

theorem nodeAt_mkdirRoutes {w v : World} {routes : List (List Str)}
    (h : routes.foldlM World.mkdirRoute w = some v) (i : VolId) (q : Path) :
    Sprouts (nodeAt w i q) (nodeAt v i q) := by
  have hstep : ∀ u p u', World.mkdir u p = some u' →
      Sprouts (nodeAt w i q) (nodeAt u i q) → Sprouts (nodeAt w i q) (nodeAt u' i q) := by
    intro u p u' hu hI
    refine hI.trans ?_
    rcases Home.mkdir_nodeAt hu i q with hsame | ⟨_, _, hnone, hdir⟩
    · exact Or.inl hsame
    · exact Or.inr ⟨hnone, hdir⟩
  exact foldlM_keeps (fun u r u' hu hI => foldlM_keeps hstep _ u u' hu hI) routes w v h
    (Sprouts.refl _)

theorem nodeAt_onVol_ne (w : World) {id i : VolId} (h : id ≠ i) (f : Vol → Vol) (q : Path) :
    nodeAt (w.onVol id f) i q = nodeAt w i q :=
  nodeAt_of_vols (if_neg (fun hi => h hi.symm)) q

/-- A change of one volume, which a path of the command leads to. -/
theorem Alter.onVol {a : Act} {w u : World} {p : Path} {i : VolId} {q : Path} (hp : p ∈ alters a)
    (hloc : (u.locate p).1 = (w.locate p).1) (hu : nodeAt u i q = nodeAt w i q) (f : Vol → Vol) :
    Alter a w (u.onVol (u.locate p).1 f) i q := by
  by_cases hi : (w.locate p).1 = i
  · exact .altered p hp hi
  · exact .same ((nodeAt_onVol_ne u (by rw [hloc]; exact hi) f q).trans hu)

theorem alters_of_replaces {a : Act} {p : Path} (hp : p ∈ replaces a) : p ∈ alters a := by
  cases a <;> first | exact hp | exact absurd hp List.not_mem_nil

/-- **What a command can change**, with modes and owners. -/
theorem exec_nodeAt (d : Decision) {a : Act} (ha : formats a = false) (w : World) (i : VolId)
    (q : Path) : Alter a w (exec d a w).2 i q := by
  cases exec_effect d ha w with
  | idle h => exact .same (nodeAt_of_vols (congrFun h i) q)
  | made routes ha h => exact .made routes ha (nodeAt_mkdirRoutes h i q)
  | copied src dst ha h =>
      subst ha
      rw [h]
      exact Alter.onVol (p := dst ++ [src]) (List.mem_singleton.mpr rfl) rfl rfl _
  | given p ha h =>
      subst ha
      rw [h]
      exact Alter.onVol (p := p) (List.mem_singleton.mpr rfl) rfl rfl _
  | marked p n m hp hn hkind h =>
      rw [h]
      cases a
      case chown uid gid route =>
        rw [List.mem_singleton.mp hp] at hn ⊢
        by_cases hat : w.locate (normalize route) = (i, q)
        · exact .given uid gid route rfl hat (look_put_kind hn hkind i q)
        · exact .same (by rw [nodeAt_put, if_neg (fun hx => hat hx.1)])
      case chmodSetuid | chmod => exact Alter.onVol hp rfl rfl _
      all_goals exact absurd hp List.not_mem_nil
  | stored p n hp h =>
      by_cases hi : (w.locate p).1 = i
      · exact .altered p (alters_of_replaces hp) hi
      · exact .same ((nodeAt_of_vols (congrFun h i) q).trans (nodeAt_onVol_ne w hi _ q))
  | moved src dst n ha h =>
      subst ha
      rw [h]
      by_cases hdst : (w.locate dst).1 = i
      · exact .altered dst (List.mem_cons_of_mem _ (List.mem_singleton.mpr rfl)) hdst
      · have hput : nodeAt (w.put dst n) i q = nodeAt w i q := nodeAt_onVol_ne w hdst _ q
        have hsrc : ((w.put dst n).locate src).1 = (w.locate src).1 := rfl
        exact Alter.onVol (a := .mv src dst) (List.mem_cons_self ..) hsrc hput _

/-! ## A volume outside the target -/

/-- A volume has kept its contents and, where the script is `careful` with
paths, modes and owners too.  At most directories have been made. -/
structure Intact (careful : Prop) (i : VolId) (w v : World) : Prop where
  contents : ∀ q, Grown (look w i q) (look v i q)
  nodes : careful → ∀ q, Sprouts (nodeAt w i q) (nodeAt v i q)

/-- The disk, its partitions by their names, and the nodes the script formats. -/
def targets (disk node : Str) : Bool :=
  isNodeOf disk node || node == partP disk 1 || node == partP disk 2

/-- The volume is on none of these nodes. -/
def Beyond (disk : Str) (i : VolId) : Prop :=
  ∀ node fs, i = .dev node fs → targets disk node = false

/-- If the command is the cleanup after a signal, it fails. -/
def Refused (e : Event World Act Decision) : Prop := e.cause = .onSignal → e.resp.status ≠ 0

section Intact

variable {careful : Prop} {disk : Str} {i : VolId} {u v w : World}

theorem Intact.refl (careful : Prop) (i : VolId) (w : World) : Intact careful i w w :=
  ⟨fun _ => Grown.refl _, fun _ _ => Sprouts.refl _⟩

theorem Intact.trans (h : Intact careful i u v) (h' : Intact careful i v w) :
    Intact careful i u w :=
  ⟨fun q => (h.contents q).trans (h'.contents q),
    fun hc q => (h.nodes hc q).trans (h'.nodes hc q)⟩

theorem Intact.of_sprouts (h : ∀ q, Sprouts (nodeAt w i q) (nodeAt v i q)) :
    Intact careful i w v :=
  ⟨fun q => (h q).grown, fun _ => h⟩

theorem Intact.of_vols (h : v.vols i = w.vols i) : Intact careful i w v :=
  Intact.of_sprouts (fun q => Or.inl (nodeAt_of_vols h q))

/-- The state while the new root is mounted: no path below `/mnt/root` leads to
the volume. -/
structure Inner (careful : Prop) (i : VolId) (w v : World) : Prop where
  intact : Intact careful i w v
  apart : ∀ p, mntRoot <+: p → (v.locate p).1 ≠ i

/-- The commands that are harmless with any mounts. -/
inductive Outward (disk : Str) (a : Act) : Prop where
  | idle (hf : formats a = false) (ha : alters a = [])
      (hc : ∀ uid gid route, a ≠ .chown uid gid route)
  | sfdisk (script : Str) (ha : a = .sfdisk disk script)
  | mkfsFat (ha : a = .mkfsFat (partP disk 1))
  | mke2fs (ha : a = .mke2fs (partP disk 2))

/-- The commands that write to the mounted target. -/
structure Confined (careful : Prop) (a : Act) : Prop where
  format : formats a = false
  mount : a.remounts = false
  paths : ∀ p ∈ alters a, mntRoot <+: p
  given : ∀ uid gid route, a = .chown uid gid route → careful → mntRoot <+: normalize route

theorem Beyond.ne (hi : Beyond disk i) {dev : Str} (hdev : dev = partP disk 1 ∨ dev = partP disk 2)
    (fs : Fs) : i ≠ .dev dev fs := by
  rintro rfl
  have hout := hi dev fs rfl
  rcases hdev with rfl | rfl <;> simp [targets] at hout

theorem Beyond.foreign (hi : Beyond disk i) (node : Str) (fs : Fs) (hnode : i = .dev node fs) :
    isNodeOf disk node = false := by
  have hout := hi node fs hnode
  simp only [targets, Bool.or_eq_false_iff] at hout
  exact hout.1.1

/-- A command that alters no path and gives none away. -/
theorem Intact.idle (h : Intact careful i w v) (d : Decision) {a : Act} (hf : formats a = false)
    (ha : alters a = []) (hc : ∀ uid gid route, a ≠ .chown uid gid route) :
    Intact careful i w (exec d a v).2 := by
  refine h.trans (Intact.of_sprouts (fun q => ?_))
  cases exec_nodeAt d hf v i q with
  | same hs => exact Or.inl hs
  | made _ _ hs => exact hs
  | altered p hp _ => exact absurd (ha ▸ hp) List.not_mem_nil
  | given uid gid route hact _ _ => exact absurd hact (hc uid gid route)

theorem Intact.step (hi : Beyond disk i) (h : Intact careful i w v) (d : Decision) {a : Act}
    (ha : Outward disk a) : Intact careful i w (exec d a v).2 := by
  have hmkfs : ∀ {dev : Str} {fs : Fs}, dev = partP disk 1 ∨ dev = partP disk 2 →
      (a = .mkfsFat dev ∧ fs = .vfat) ∨ (a = .mke2fs dev ∧ fs = .ext4) →
        Intact careful i w (exec d a v).2 := by
    intro dev fs hdev hact
    rcases exec_mkfs d hact v with ⟨_, he⟩ | he
    · rw [he]
      exact h.trans (Intact.of_vols (format_vols v fs (hi.ne hdev)))
    · rw [he]
      exact h
  cases ha with
  | idle hf halters hc => exact h.idle d hf halters hc
  | sfdisk script hact =>
      subst hact
      rcases exec_sfdisk d disk script v with ⟨_, he⟩ | he
      · rw [he]
        exact h.trans (Intact.of_vols (partition_beyond _ hi.foreign))
      · rw [he]
        exact h
  | mkfsFat hact => exact hmkfs (Or.inl rfl) (Or.inl ⟨hact, rfl⟩)
  | mke2fs hact => exact hmkfs (Or.inr rfl) (Or.inr ⟨hact, rfl⟩)

theorem Inner.step (h : Inner careful i w v) (d : Decision) {a : Act} (ha : Confined careful a) :
    Inner careful i w (exec d a v).2 := by
  refine ⟨h.intact.trans ⟨fun q => ?_, fun hcareful q => ?_⟩, fun p hp => ?_⟩
  · cases exec_nodeAt d ha.format v i q with
    | same hs => exact Sprouts.grown (Or.inl hs)
    | made _ _ hs => exact hs.grown
    | altered p hp hvol => exact absurd hvol (h.apart p (ha.paths p hp))
    | given _ _ _ _ _ hkind => exact Or.inl hkind
  · cases exec_nodeAt d ha.format v i q with
    | same hs => exact Or.inl hs
    | made _ _ hs => exact hs
    | altered p hp hvol => exact absurd hvol (h.apart p (ha.paths p hp))
    | given uid gid route hact hloc _ =>
        exact absurd (congrArg Prod.fst hloc) (h.apart _ (ha.given uid gid route hact hcareful))
  · rw [locate_exec d ha.mount]
    exact h.apart p hp

/-- A new mount at or below `/mnt/root` leads nowhere else than to its own
volume. -/
theorem apart_mount {point : Path} {j : VolId} (hj : j ≠ i)
    (h : ∀ p, mntRoot <+: p → ¬ point <+: p → (v.locate p).1 ≠ i) :
    ∀ p, mntRoot <+: p →
      (({ v with mounts := ⟨point, j⟩ :: v.mounts } : World).locate p).1 ≠ i := by
  intro p hp
  unfold World.locate resolve
  by_cases hpoint : point <+: p
  · rw [List.find?_cons_of_pos (by simpa using hpoint)]
    exact hj
  · rw [List.find?_cons_of_neg (by simpa using hpoint)]
    exact h p hp hpoint

end Intact

/-! ## The user name -/

section Values

variable {α β : Type} {w : World}

/-- Where only the value of a part is asked for, it is asked for in any
state. -/
theorem wp_value {A : Event World Act Decision → Prop} {Q : α → World → Prop} {a : Act}
    {value : Resp → β} {status : Resp → Nat} {f : β → Prog Act α}
    (h : ∀ d, (exec d a w).1.status = 0 → ∀ v,
      wp machine A (fun _ => True) (f (value (exec d a w).1)) Q (fun _ _ => True) v) :
    wp machine A (fun _ => True)
      ((.step a (fun r => if r.status = 0 then .ret (value r) else .exit (status r))) >>= f)
      Q (fun _ _ => True) w := by
  refine fun d _ => ⟨trivial, resume_all (fun v => ?_)⟩
  show wp machine A _ ((if (exec d a w).1.status = 0 then Prog.ret (value (exec d a w).1)
    else .exit (status (exec d a w).1)).bind f) Q _ v
  by_cases h0 : (exec d a w).1.status = 0
  · rw [if_pos h0]
    exact h d h0 v
  · rw [if_neg h0]
    trivial

/-- The prompt returns one of the lines it has read. -/
theorem askUser_values {A : Event World Act Decision → Prop} (as : List Str) :
    ∀ w, wp machine A (fun _ => True) (askUser as)
      (fun r _ => acceptsUser r.1 = true ∧ r.1 ∈ as) (fun _ _ => True) w := by
  induction as with
  | nil => exact fun w => wp_value (fun _ _ v => wp_value (fun _ _ _ => trivial))
  | cons l as ih =>
      intro w
      refine wp_value (fun _ _ v => wp_value (fun d h0 v' => ?_))
      have hout : (exec d (.readLine (some l)) v).1.out = l := by
        have hp := perform_of_status rfl h0
        simp only [perform, Option.map_some, Option.some.injEq, Prod.mk.injEq] at hp
        exact hp.1.symm
      rw [hout]
      by_cases haccept : acceptsUser l = true
      · rw [if_pos haccept]
        exact ⟨haccept, List.mem_cons_self ..⟩
      · rw [if_neg haccept]
        refine wp_value (fun _ _ u => ?_)
        exact wp_mono (fun _ _ h => ⟨h.1, List.mem_cons_of_mem l h.2⟩) (fun _ _ h => h) (ih u)

theorem repeatPass_rest (pw : Str) (as : List Str) :
    Returns (fun r => r.2 <:+ as) (repeatPass pw as) := by
  refine returns_bind _ (fun pw2 => ?_)
  show Returns _ (if pw = pw2 then Prog.ret (pw, as.tail) else _)
  split
  · exact List.tail_suffix as
  · exact returns_bind _ (fun _ => trivial)

theorem readpass_rest (who : Str) (as : List Str) :
    Returns (fun r => r.2 <:+ as) (readpass who as) := by
  induction as with
  | nil => exact returns_bind _ (fun _ => trivial)
  | cons l as ih =>
      refine returns_bind _ (fun pw => ?_)
      show Returns _ (if longEnough pw = true then repeatPass pw as else _)
      have hstep : ∀ {p : Prog Act (Str × List Str)}, Returns (fun r => r.2 <:+ as) p →
          Returns (fun r => r.2 <:+ l :: as) p := by
        intro p hp
        rw [← bind_ret p]
        exact returns_then hp (fun _ hr => hr.trans (List.suffix_cons l as))
      split
      · exact hstep (repeatPass_rest pw as)
      · exact returns_bind _ (fun _ => hstep ih)

/-- The user is one of the accepted lines. -/
theorem askAccounts_values {A : Event World Act Decision → Prop} (as : List Str) (w : World) :
    wp machine A (fun _ => True) (askAccounts as)
      (fun a _ => acceptsUser a.user = true ∧ a.user ∈ as) (fun _ _ => True) w := by
  refine wp_value (fun _ _ v => wp_bind _ _ ?_)
  refine wp_mono ?_ (fun _ _ h => h) (wp_returns (readpass_rest rootName as) (wp_trivial _))
  rintro r u ⟨hrest, _⟩
  refine wp_value (fun _ _ v => wp_bind _ _ ?_)
  refine wp_mono ?_ (fun _ _ h => h) (askUser_values r.2 v)
  rintro x u ⟨haccept, hmem⟩
  refine wp_bind _ _ (wp_mono (fun _ _ _ => ?_) (fun _ _ h => h) (wp_trivial _))
  exact wp_value (fun _ _ _ => ⟨haccept, hrest.subset hmem⟩)

end Values

/-- A name without a slash is one component of its path. -/
theorem homeRoute_eq {user : Str} (hslash : '/' ∉ user) : homeRoute user = Home.homeDir user := by
  unfold homeRoute Home.homeDir Home.homeRoot
  rw [List.splitOn_eq_singleton hslash, List.append_assoc, List.singleton_append]

/-- An accepted name is not a dot or two. -/
theorem plain_of_accepts {user : Str} (haccept : acceptsUser user = true) :
    Home.PlainComp user := by
  obtain ⟨a, b, t, rfl, ha, _⟩ := (Home.acceptsUser_iff user).mp haccept
  have hdot : a ≠ '.' := by
    rintro rfl
    exact absurd ha (by decide)
  exact ⟨List.cons_ne_nil _ _, fun h => hdot (List.cons.inj h).1, fun h => hdot (List.cons.inj h).1⟩

/-- The home directory of an accepted name without a slash. -/
theorem normalize_homeRoute {user : Str} (haccept : acceptsUser user = true)
    (hslash : '/' ∉ user) : normalize (homeRoute user) = Home.homeDir user := by
  rw [homeRoute_eq hslash]
  exact Home.normalize_plain (Home.plain_homeDir (plain_of_accepts haccept))

/-! ## The phases -/

section Phases

variable {careful : Prop} {disk : Str} {i : VolId} {v w : World} {α β : Type}

/-- A signal ends the script, if its cleanup fails. -/
theorem resume_refused {d : Decision} {next : World → Prop} (hv : Intact careful i w v)
    (hnext : next v) :
    resume machine Refused (fun _ => True) (fun _ u => Intact careful i w u) d next v := by
  simp only [resume]
  split
  · exact hnext
  · split
    · exact hv
    · rename_i t ht
      obtain ⟨ops, _, rfl⟩ := Option.map_eq_some_iff.mp ht
      intro d' hrefused
      refine ⟨trivial, ?_⟩
      have hfail : (machine.exec d' (.umount ops) v).1.status ≠ 0 := hrefused rfl
      rw [if_neg hfail]
      exact hv.trans (Intact.of_vols (congrFun (exec_umount_vols d' ops v) i))

/-- What holds of a part of the script that keeps `I`. -/
def Keeping (careful : Prop) (i : VolId) (w : World) (I : World → Prop) (p : Prog Act α)
    (v : World) : Prop :=
  wp machine Refused (fun _ => True) p (fun _ => I) (fun _ u => Intact careful i w u) v

theorem keeping_of_steps {P : Act → Prop} {I : World → Prop} {p : Prog Act α}
    (hstep : ∀ a d u, P a → I u → I (exec d a u).2) (hI : ∀ u, I u → Intact careful i w u)
    (hp : Acts Tested P p) (hv : I v) : Keeping careful i w I p v := by
  refine wp_invariant ?_ (fun _ u _ hu => hI u hu) hp hv
  intro a d u ha hu _
  have hnext := hstep a d u ha hu
  exact ⟨trivial, resume_refused (hI _ hnext) hnext⟩

theorem keeping_outward (hi : Beyond disk i) {p : Prog Act α}
    (hp : Acts Tested (Outward disk) p) (hv : Intact careful i w v) :
    Keeping careful i w (Intact careful i w) p v :=
  keeping_of_steps (fun _ d _ ha hu => hu.step hi d ha) (fun _ hu => hu) hp hv

theorem keeping_confined {p : Prog Act α} (hp : Acts Tested (Confined careful) p)
    (hv : Inner careful i w v) : Keeping careful i w (Inner careful i w) p v :=
  keeping_of_steps (fun _ d _ ha hu => hu.step d ha) (fun _ hu => hu.intact) hp hv

theorem keeping_then {I J : World → Prop} {p : Prog Act β} {k : β → Prog Act α}
    (h : Keeping careful i w I p v) (hk : ∀ b u, I u → Keeping careful i w J (k b) u) :
    Keeping careful i w J (p >>= k) v :=
  wp_bind p k (wp_mono (fun b u hu => hk b u hu) (fun _ _ hx => hx) h)

/-- A command under `set -e` that changes the phase. -/
theorem keeping_cmd {I : World → Prop} {a : Act}
    (hI : ∀ d, Intact careful i w (exec d a v).2)
    (h : ∀ d, (exec d a v).1.status = 0 → I (exec d a v).2) :
    Keeping careful i w I (cmd a) v := by
  refine fun d _ => ⟨trivial, resume_refused (hI d) ?_⟩
  show wp machine Refused _ (if (exec d a v).1.status = 0 then Prog.ret ()
    else .exit (exec d a v).1.status) _ _ _
  by_cases h0 : (exec d a v).1.status = 0
  · rw [if_pos h0]
    exact h d h0
  · rw [if_neg h0]
    exact hI d

theorem outward_asks {a : Act} (h : Asks a) : Outward disk a := by
  refine .idle (Guard.Fills.late (Asks.fills h)).1 ?_ ?_
  · cases a <;> first | exact h.elim | rfl
  · rintro uid gid route rfl
    exact h.elim

theorem untilTrap_outward (disk : Str) (sysdevs : List SysDev) (answers : List Str) :
    Acts Tested (Outward disk) (untilTrap disk sysdevs answers) := by
  refine (Course.untilTrap_seeks disk sysdevs answers).mono (fun a ha => ?_)
  rcases ha.1 with h | rfl | ⟨fs, dev, _, rfl⟩ | rfl | rfl
  · exact outward_asks h
  all_goals exact .idle rfl rfl (by simp)

theorem makeFilesystems_outward (disk espsz : Str) :
    Acts Tested (Outward disk) (makeFilesystems disk espsz) := by
  refine (makeFilesystems_prepares disk espsz).mono (fun a ha => ?_)
  rcases ha with h | ⟨s, h⟩ | h | h
  · exact outward_asks h
  · exact .sfdisk s h
  · exact .mkfsFat h
  · exact .mke2fs h

/-- Mounting a volume of the target. -/
theorem Inner.of_mount (h : Intact careful i w v) (d : Decision) {fs : Fs} {dev : Str}
    {point : Path} (hi : .dev dev fs ≠ i)
    (hstatus : (exec d (.mount fs false dev point) v).1.status = 0)
    (hp : ∀ p, mntRoot <+: p → ¬ point <+: p → (v.locate p).1 ≠ i) :
    Inner careful i w (exec d (.mount fs false dev point) v).2 := by
  rcases exec_mount d fs false dev point v with ⟨_, _, he⟩ | he
  · rw [he]
    exact ⟨h.trans (Intact.of_vols rfl), apart_mount hi hp⟩
  · rw [he] at hstatus
    exact absurd hstatus Nat.one_ne_zero

theorem mount_vols (d : Decision) (fs : Fs) (ro : Bool) (dev : Str) (point : Path) (v : World) :
    (exec d (.mount fs ro dev point) v).2.vols = v.vols := by
  rcases exec_mount d fs ro dev point v with ⟨_, _, he⟩ | he
  · rw [he]
  · rw [he]

theorem mountTarget_keeping (hi : Beyond disk i) (hv : Intact careful i w v) :
    Keeping careful i w (Inner careful i w) (mountTarget disk) v := by
  have hroot := (hi.ne (Or.inr rfl) .ext4).symm
  have hesp := (hi.ne (Or.inl rfl) .vfat).symm
  refine keeping_then (keeping_outward hi (acts_cmd (.idle rfl rfl (by simp))) hv) ?_
  intro _ v hv
  refine keeping_then (I := Inner careful i w) (keeping_cmd ?_ ?_) ?_
  · exact fun d => hv.trans (Intact.of_vols (congrFun (mount_vols ..) i))
  · exact fun d h0 => Inner.of_mount hv d hroot h0 (fun p hp hno => absurd hp hno)
  intro _ v hv
  refine keeping_then (keeping_confined (acts_cmd ⟨rfl, rfl, by simp [alters], by simp⟩) hv) ?_
  intro _ v hv
  refine keeping_then (keeping_confined (acts_cmd ⟨rfl, rfl, by simp [alters], by simp⟩) hv) ?_
  intro _ v hv
  refine keeping_cmd (fun d => ?_) (fun d h0 => ?_)
  · exact hv.intact.trans (Intact.of_vols (congrFun (mount_vols ..) i))
  · exact Inner.of_mount hv.intact d hesp h0 (fun p hp _ => hv.apart p hp)

/-! ## Filling the target -/

theorem confined_cmd {a : Act} (hf : formats a = false) (hm : a.remounts = false)
    (hp : ∀ p ∈ alters a, mntRoot <+: p) (hc : ∀ uid gid route, a ≠ .chown uid gid route) :
    Acts Tested (Confined careful) (cmd a) :=
  acts_cmd ⟨hf, hm, hp, fun uid gid route ha => absurd ha (hc uid gid route)⟩

theorem Asks.confined {a : Act} (ha : Asks a) : Confined careful a := by
  have hplain := Mounts.Fills.plain (Asks.fills ha)
  refine ⟨(Guard.Fills.late (Asks.fills ha)).1, hplain.1, ?_, ?_⟩
  · intro p hp
    cases a <;> first | exact ha.elim | cases hp
  · rintro uid gid route rfl
    exact ha.elim

theorem confined_asks {p : Prog Act α} (hp : Acts Tested Asks p) :
    Acts Tested (Confined careful) p := hp.mono (fun _ ha => Asks.confined ha)

theorem copySystem_confined : Acts Tested (Confined careful) copySystem := by
  refine acts_bind (confined_cmd rfl rfl (by simp [alters]) (by simp)) (fun _ => ?_)
  refine acts_bind (confined_asks (presentDirs_asks _)) (fun _ => ?_)
  refine acts_bind (acts_forEach (fun d _ => confined_cmd rfl rfl ?_ (by simp))) (fun _ => ?_)
  · intro p hp
    rw [List.mem_singleton.mp hp]
    exact List.prefix_append _ _
  refine acts_bind (confined_cmd rfl rfl (by decide) (by simp)) (fun _ => ?_)
  refine acts_bind (confined_cmd rfl rfl (by decide) (by simp)) (fun _ => ?_)
  refine acts_bind (confined_cmd rfl rfl (by simp [alters]) (by simp)) (fun _ => ?_)
  refine acts_bind (confined_cmd rfl rfl (by decide) (by simp)) (fun _ => ?_)
  exact confined_cmd rfl rfl (by decide) (by simp)

theorem copyBootFiles_confined (disk : Str) (f : Found) :
    Acts Tested (Confined careful) (copyBootFiles disk f) := by
  refine acts_bind (confined_cmd rfl rfl (by simp [alters]) (by simp)) (fun _ => ?_)
  refine acts_bind (confined_cmd rfl rfl (by simp [alters]) (by simp)) (fun _ => ?_)
  refine acts_bind (confined_cmd rfl rfl ?_ (by simp)) (fun _ => ?_)
  · intro p hp
    rw [List.mem_singleton.mp hp]
    exact ⟨["boot".toList, "efi".toList, "vmlinuz".toList], rfl⟩
  refine acts_bind (confined_cmd rfl rfl (by decide) (by simp)) (fun _ => ?_)
  refine acts_bind (acts_capture ⟨rfl, rfl, by simp [alters], by simp⟩) (fun pu => ?_)
  split
  · exact acts_bind (confined_cmd rfl rfl (by simp [alters]) (by simp)) (fun _ => Nat.one_ne_zero)
  · trivial

theorem writeNormal_confined (pu : Str) : Acts Tested (Confined careful) (writeNormal pu) := by
  have hconf : mntRoot <+: limineConfPath := by decide
  have hwrite : ∀ text, Acts Tested (Confined careful) (cmd (.write true limineConfPath text)) :=
    fun text => confined_cmd rfl rfl (fun p hp => List.mem_singleton.mp hp ▸ hconf) (by simp)
  refine acts_bind (confined_cmd rfl rfl (by decide) (by simp)) (fun _ => ?_)
  exact acts_bind (hwrite _) (fun _ => acts_bind (hwrite _) (fun _ => hwrite _))

theorem writeRescueIf_confined (initrd : Option Path) :
    Acts Tested (Confined careful) (writeRescueIf initrd) := by
  have hconf : mntRoot <+: limineConfPath := by decide
  have hwrite : ∀ text, Acts Tested (Confined careful) (cmd (.write true limineConfPath text)) :=
    fun text => confined_cmd rfl rfl (fun p hp => List.mem_singleton.mp hp ▸ hconf) (by simp)
  cases initrd with
  | none => trivial
  | some p =>
      refine acts_bind (confined_cmd rfl rfl ?_ (by simp)) (fun _ => ?_)
      · intro q hq
        rw [List.mem_singleton.mp hq]
        exact ⟨["boot".toList, "efi".toList, "initramfs.cpio.gz".toList], rfl⟩
      · exact acts_bind (hwrite _) (fun _ => acts_bind (hwrite _) (fun _ => hwrite _))

theorem etc_below (file : Str) : mntRoot <+: etc file := List.prefix_append _ _

/-- Writing to a file of the target's `/etc`. -/
theorem confined_write (append : Bool) (file text : Str) :
    Acts Tested (Confined careful) (cmd (.write append (etc file) text)) :=
  confined_cmd rfl rfl (fun _ hp => List.mem_singleton.mp hp ▸ etc_below file) (by simp)

theorem confined_mv (src dst : Str) :
    Acts Tested (Confined careful) (cmd (.mv (etc src) (etc dst))) := by
  refine confined_cmd rfl rfl (fun p hp => ?_) (by simp)
  rcases List.mem_cons.mp hp with rfl | hp
  · exact etc_below src
  · rw [List.mem_singleton.mp hp]
    exact etc_below dst

theorem writePasswd_confined (user : Str) : Acts Tested (Confined careful) (writePasswd user) :=
  acts_bind (confined_write _ _ _) (fun _ => acts_bind (confined_write _ _ _) (fun _ =>
    acts_bind (confined_write _ _ _) (fun _ => confined_mv _ _)))

theorem writeUserShadow_confined (a : Accounts) :
    Acts Tested (Confined careful) (writeUserShadow a) :=
  acts_bind (confined_write _ _ _) (fun _ =>
    confined_cmd rfl rfl (fun _ hp => List.mem_singleton.mp hp ▸ etc_below _) (by simp))

theorem writeGroup_confined (user : Str) : Acts Tested (Confined careful) (writeGroup user) := by
  refine acts_bind (confined_write _ _ _) (fun _ => ?_)
  refine acts_bind (acts_capture ⟨rfl, rfl, by simp [alters], by simp⟩) (fun _ => ?_)
  refine acts_bind (acts_forEach (fun _ _ => confined_write _ _ _)) (fun _ => ?_)
  exact acts_bind (confined_cmd rfl rfl (by simp [alters]) (by simp)) (fun _ => confined_mv _ _)

/-- Lines 195 to 202. -/
theorem finish_keeping (hi : Beyond disk i) {user : Str}
    (huser : careful → normalize (homeRoute user) = Home.homeDir user) (pu : Str)
    (hv : Inner careful i w v) :
    Keeping careful i w (Intact careful i w) (finish disk pu user) v := by
  refine keeping_then (keeping_confined (confined_cmd rfl rfl (by simp [alters]) (by simp)) hv) ?_
  intro _ v hv
  have hgiven : ∀ uid gid route, Act.chown 1000 100 (homeRoute user) = .chown uid gid route →
      careful → mntRoot <+: normalize route := by
    intro uid gid route ha hcareful
    cases ha
    rw [huser hcareful]
    exact ⟨["home".toList, user], rfl⟩
  refine keeping_then (keeping_confined (acts_cmd ⟨rfl, rfl, by simp [alters], hgiven⟩) hv) ?_
  intro _ v hv
  refine keeping_outward hi ?_ hv.intact
  have hidle : ∀ {a : Act}, formats a = false → alters a = [] →
      (∀ uid gid route, a ≠ .chown uid gid route) → Acts Tested (Outward disk) (cmd a) :=
    fun hf ha hc => acts_cmd (.idle hf ha hc)
  refine acts_bind (hidle rfl rfl (by simp)) (fun _ => ?_)
  refine acts_bind (hidle rfl rfl (by simp)) (fun _ => ?_)
  refine acts_bind (hidle rfl rfl (by simp)) (fun _ => ?_)
  exact acts_bind (hidle rfl rfl (by simp)) (fun _ => hidle rfl rfl (by simp))

/-- **Lines 82 to 202.** -/
theorem installOn_intact (hi : Beyond disk i) (espsz : Str) (f : Found)
    {as : List Str} (hcareful : careful → ∀ l ∈ as, acceptsUser l = true → '/' ∉ l)
    (hv : Intact careful i w v) :
    Keeping careful i w (Intact careful i w) (installOn disk espsz f as) v := by
  refine keeping_then (keeping_outward hi (makeFilesystems_outward disk espsz) hv) ?_
  intro _ v hv
  refine keeping_then (mountTarget_keeping hi hv) ?_
  intro _ v hv
  refine keeping_then (keeping_confined copySystem_confined hv) ?_
  intro _ v hv
  refine keeping_then (keeping_confined (copyBootFiles_confined disk f) hv) ?_
  intro pu v hv
  refine keeping_then (keeping_confined (writeNormal_confined pu) hv) ?_
  intro _ v hv
  refine keeping_then (keeping_confined (writeRescueIf_confined f.initrd) hv) ?_
  intro _ v hv
  refine keeping_then (keeping_confined
    (confined_cmd rfl rfl (by simp [alters]) (by simp)) hv) ?_
  intro _ v hv
  have hvalues := askAccounts_values (A := Refused) as v
  refine wp_bind _ _ (wp_mono ?_ (fun _ _ h => h.1)
    (wp_and (keeping_confined (confined_asks (askAccounts_asks as)) hv) hvalues))
  rintro a v ⟨hv, haccept, hmem⟩
  refine keeping_then (keeping_confined (writePasswd_confined a.user) hv) ?_
  intro _ v hv
  refine keeping_then (keeping_confined (confined_write _ _ _) hv) ?_
  intro _ v hv
  refine keeping_then (keeping_confined (writeUserShadow_confined a) hv) ?_
  intro _ v hv
  refine keeping_then (keeping_confined (writeGroup_confined a.user) hv) ?_
  intro _ v hv
  exact finish_keeping hi
    (fun hc => normalize_homeRoute haccept (hcareful hc a.user hmem haccept)) pu hv

end Phases

/-! ## Whole runs -/

theorem install_keeping {careful : Prop} {disk : Str} {i : VolId} {w : World}
    (hi : Beyond disk i) (espsz : Str) (sysdevs : List SysDev)
    {answers : List Str} (hcareful : careful → ∀ l ∈ answers, acceptsUser l = true → '/' ∉ l) :
    Keeping careful i w (Intact careful i w) (install disk espsz sysdevs answers) w := by
  rw [install_eq]
  have hseek : Keeping careful i w (Intact careful i w) (untilTrap disk sysdevs answers) w :=
    keeping_outward hi (untilTrap_outward disk sysdevs answers) (Intact.refl _ i w)
  refine wp_bind _ _ (wp_mono ?_ (fun _ _ h => h)
    (wp_returns (Course.untilTrap_returns disk sysdevs answers) hseek))
  rintro ⟨f, as⟩ v ⟨⟨_, has⟩, hv⟩
  refine keeping_then (keeping_outward hi (acts_cmd (.idle rfl rfl (by simp))) hv)
    (fun _ v hv => installOn_intact hi espsz f (fun hc l hl => hcareful hc l ?_) hv)
  rw [show as = answers.tail from has] at hl
  exact List.mem_of_mem_tail hl

/-- **The installer leaves everything else alone.**  As long as no cleanup after
a signal succeeds, whatever fails and whatever is mounted, every volume that is
neither on the disk nor on one of its partitions nor on a node the script formats
keeps its contents, and modes and owners too if no accepted user name has a
slash in it.  Directories may have been made on it. -/
theorem outside_intact (O : Nat → Act → Decision) (args : List Str) (sysdevs : List SysDev)
    (answers : List Str) (w : World) (i : VolId)
    (hrefused : ∀ e ∈ (runScript machine O (slinuxInstall args sysdevs answers) w).trace,
      Refused e)
    (hi : ∀ disk ∈ args.head?, Beyond disk i) :
    Intact (∀ l ∈ answers, acceptsUser l = true → '/' ∉ l) i w
      (runScript machine O (slinuxInstall args sysdevs answers) w).final := by
  have hwp : wp machine Refused (fun _ => True) (slinuxInstall args sysdevs answers)
      (fun _ v => Intact (∀ l ∈ answers, acceptsUser l = true → '/' ∉ l) i w v)
      (fun _ v => Intact (∀ l ∈ answers, acceptsUser l = true → '/' ∉ l) i w v) w := by
    cases args with
    | nil =>
        have husage : Acts Tested Asks (slinuxInstall [] sysdevs answers) :=
          acts_bind (acts_cmd trivial) (fun _ => Nat.succ_ne_zero 1)
        refine keeping_of_steps (fun a d v ha hv => hv.idle d ?_ ?_ ?_) (fun _ h => h) husage
          (Intact.refl _ i w)
        · exact (Guard.Fills.late (Asks.fills ha)).1
        · cases a <;> first | exact ha.elim | rfl
        · rintro uid gid route rfl
          exact ha.elim
    | cons disk rest =>
        exact install_keeping (hi disk rfl) (Status.espSize rest) sysdevs (fun hc => hc)
  have hend := (go_sound O _ 0 w hwp (fun e he => hrefused e (mem_leave_trace he))).2
  have hgo : Intact (∀ l ∈ answers, acceptsUser l = true → '/' ∉ l) i w
      (go machine O (slinuxInstall args sysdevs answers) 0 w).final := by
    revert hend
    cases (go machine O (slinuxInstall args sysdevs answers) 0 w).outcome with
    | done _ => exact id
    | ended _ => exact id
  exact hgo.trans (Intact.of_vols (congrFun (Status.leave_vols O _).1 i))

/-- A whole run on the sample machine, from the live system's point of view. -/
theorem outside_intact_live :
    Intact (∀ l ∈ sampleAnswers, acceptsUser l = true → '/' ∉ l) .live
      (sampleWorld (some sampleMedium))
      (sampleRun (fun _ _ => succeeds) (some sampleMedium) sampleAnswers).final := by
  refine outside_intact (fun _ _ => succeeds) [devPath "sda".toList] sampleSysdevs sampleAnswers
    (sampleWorld (some sampleMedium)) .live ?_ ?_
  · have hcause : ∀ e ∈ (sampleRun (fun _ _ => succeeds) (some sampleMedium) sampleAnswers).trace,
        e.cause ≠ .onSignal := by decide +kernel
    exact fun e he hc => absurd hc (hcause e he)
  · intro disk _ node fs hlive
    cases hlive

end Slinux.Installer.Outside
