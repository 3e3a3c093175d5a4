import Slinux.Installer.Files

/-!
# The user name and the home directory

The name accepted at the prompt becomes the last part of a path: lines 195 and
196 run `mkdir -p "$ROOTMNT/home/$USER"` and give the directory to the user.
A name over `[a-z0-9_-]` is one component of that path, and nothing outside
`/mnt/root/home` is touched.  The prompt's pattern reads like the regular
expression for such names, but a shell pattern ends in "anything": it asks for
two characters and lets every other text follow, slashes included.

Files are compared here with their modes and owners, volume by volume, so that
a change is seen under whatever path the volume may be mounted.

## Main results

* `acceptsUser_iff` — which lines the prompt accepts.
* `mkdirRoute_frame` — `mkdir -p` changes only the directories on its way that
  were missing.
* `contained_of_grammar` — the home directory of a name over `[a-z0-9_-]`.
* `username_sound_iff` — for which lines the prompt decides as the regular
  expression does and the home directory stays below `/mnt/root/home`.
-/

namespace Slinux.Installer.Home

open Slinux.Shell.Text
open Slinux.Shell.Glob
open Slinux.Unix.Files
open Slinux.Installer.Accounts
open Slinux.Installer.System
open Slinux.Installer.Effects
open Slinux.Installer.Script
open Slinux.Installer.Files

/-! ## The grammar -/

/-- `[a-z_]`. -/
def firstChar (c : Char) : Bool := inRanges [('a', 'z'), ('_', '_')] c

/-- `[a-z0-9_-]`. -/
def nextChar (c : Char) : Bool := inRanges [('a', 'z'), ('0', '9'), ('_', '_'), ('-', '-')] c

/-- The whole line matches the regular expression `[a-z_][a-z0-9_-]*`. -/
def grammar : Str → Bool
  | [] => false
  | c :: cs => firstChar c && cs.all nextChar

/-- **The lines the prompt accepts**: only the first two characters matter. -/
theorem acceptsUser_iff (user : Str) :
    acceptsUser user = true ↔
      ∃ a b t, user = a :: b :: t ∧ firstChar a = true ∧ nextChar b = true := by
  unfold acceptsUser caseArm
  rw [List.any_cons, List.any_nil, Bool.or_false]
  match user with
  | [] => simp [globMatch]
  | [c] => simp [globMatch]
  | a :: b :: t =>
      simp only [globMatch, Bool.and_eq_true, List.any_eq_true, List.mem_tails,
        List.isEmpty_iff]
      constructor
      · intro h
        exact ⟨a, b, t, rfl, h.1, h.2.1⟩
      · intro h
        obtain ⟨a', b', t', heq, ha, hb⟩ := h
        rw [List.cons.injEq, List.cons.injEq] at heq
        rw [← heq.1] at ha
        rw [← heq.2.1] at hb
        exact ⟨ha, hb, [], List.nil_suffix, rfl⟩

/-! ## Paths -/

/-- A component that is a name of its own. -/
def PlainComp (c : Str) : Prop := c ≠ [] ∧ c ≠ ".".toList ∧ c ≠ "..".toList

theorem walk_plain {c : Str} (h : PlainComp c) (p : Path) : walk p c = p ++ [c] := by
  unfold walk
  rw [if_neg (fun hc => hc.elim h.1 h.2.1), if_neg h.2.2]

/-- Such components lead straight down. -/
theorem foldl_walk_plain {cs : List Str} (h : ∀ c ∈ cs, PlainComp c) :
    ∀ p : Path, cs.foldl walk p = p ++ cs := by
  induction cs with
  | nil => intro p; exact (List.append_nil p).symm
  | cons c cs ih =>
      intro p
      rw [List.foldl_cons, walk_plain (h c List.mem_cons_self),
        ih (fun d hd => h d (List.mem_cons_of_mem c hd)), List.append_assoc, List.singleton_append]

theorem normalize_plain {cs : List Str} (h : ∀ c ∈ cs, PlainComp c) : normalize cs = cs :=
  foldl_walk_plain h []

/-- Nothing is left to resolve in the prefixes of such a path. -/
theorem inits_normalize {cs : List Str} (h : ∀ c ∈ cs, PlainComp c) :
    cs.inits.map normalize = cs.inits := by
  have hid : cs.inits.map normalize = cs.inits.map id := by
    apply List.map_congr_left
    intro p hp
    rw [List.mem_inits] at hp
    exact normalize_plain (fun c hc => h c (hp.subset hc))
  rw [hid, List.map_id]

/-- `/mnt/root/home`. -/
def homeRoot : Path := mntRoot ++ ["home".toList]

/-- `/mnt/root/home/USER`. -/
def homeDir (user : Str) : Path := homeRoot ++ [user]

theorem nextChar_of_firstChar {c : Char} (h : firstChar c = true) : nextChar c = true := by
  unfold firstChar inRanges at h
  unfold nextChar inRanges
  simp only [List.any_cons, List.any_nil, Bool.or_false, Bool.or_eq_true] at h ⊢
  rcases h with h | h
  · exact Or.inl h
  · exact Or.inr (Or.inr (Or.inl h))

theorem nextChar_of_grammar {user : Str} (h : grammar user = true) :
    ∀ c ∈ user, nextChar c = true := by
  cases user with
  | nil => exact absurd h (by decide)
  | cons a t =>
      rw [grammar, Bool.and_eq_true, List.all_eq_true] at h
      intro c hc
      rcases List.mem_cons.mp hc with rfl | hc
      · exact nextChar_of_firstChar h.1
      · exact h.2 c hc

theorem plain_of_grammar {user : Str} (h : grammar user = true) : PlainComp user := by
  have hnext := nextChar_of_grammar h
  have hdot : '.' ∉ user := fun hc => absurd (hnext _ hc) (by decide)
  refine ⟨?_, ?_, ?_⟩
  · intro hnil
    rw [hnil] at h
    exact absurd h (by decide)
  · intro heq
    exact hdot (by rw [heq]; decide)
  · intro heq
    exact hdot (by rw [heq]; decide)

/-- The name is one component of the path. -/
theorem homeRoute_of_grammar {user : Str} (h : grammar user = true) :
    homeRoute user = homeDir user := by
  have hslash : '/' ∉ user := fun hc => absurd (nextChar_of_grammar h _ hc) (by decide)
  unfold homeRoute homeDir homeRoot
  rw [List.splitOn_eq_singleton hslash, List.append_assoc, List.singleton_append]

/-! ## `mkdir -p` and `chown` -/

theorem locate_mkdir {w v : World} {p : Path} (h : w.mkdir p = some v) (q : Path) :
    v.locate q = w.locate q := by
  unfold World.locate
  rw [(mkdir_sameShell h).mounts]

/-- `mkdir` changes the path it is about, and only if there is no directory. -/
theorem mkdir_nodeAt {w v : World} {p : Path} (h : w.mkdir p = some v) (i : VolId) (q : Path) :
    nodeAt v i q = nodeAt w i q ∨
      (w.isDir p = false ∧ w.locate p = (i, q) ∧ nodeAt w i q = none ∧
        nodeAt v i q = some newDir) := by
  unfold World.mkdir at h
  split at h
  · rw [← Option.some.inj h]
    exact Or.inl rfl
  · rename_i hdir
    rw [Option.ite_none_right_eq_some, Bool.and_eq_true] at h
    obtain ⟨⟨_, hnone⟩, h⟩ := h
    rw [← Option.some.inj h, nodeAt_put]
    by_cases hat : w.locate p = (i, q) ∧ (w.vols i).isSome = true
    · rw [if_pos hat]
      right
      refine ⟨Bool.not_eq_true _ ▸ hdir, hat.1, ?_, rfl⟩
      rw [← node_of_locate hat.1]
      exact Option.isNone_iff_eq_none.mp hnone
    · rw [if_neg hat]
      exact Or.inl rfl

/-- A directory stays one. -/
theorem mkdir_isDir_mono {w v : World} {p : Path} (h : w.mkdir p = some v) {q : Path}
    (hq : w.isDir q = true) : v.isDir q = true := by
  have hnode : v.node q = w.node q := by
    rw [node_eq, node_eq, locate_mkdir h]
    rcases mkdir_nodeAt h (w.locate q).1 (w.locate q).2 with hsame | ⟨_, _, hnone, _⟩
    · exact hsame
    · unfold World.isDir at hq
      rw [node_eq, hnone] at hq
      exact absurd hq (by decide)
  unfold World.isDir
  rw [hnode]
  exact hq

/-- **`mkdir -p` changes only the directories on its way that were missing.** -/
theorem mkdirs_frame (ps : List Path) :
    ∀ {w w' : World}, ps.foldlM World.mkdir w = some w' → ∀ (i : VolId) (q : Path),
      nodeAt w' i q = nodeAt w i q ∨ ∃ p ∈ ps, w.isDir p = false ∧ w.locate p = (i, q) := by
  induction ps with
  | nil =>
      intro w w' h i q
      rw [← Option.some.inj h]
      exact Or.inl rfl
  | cons p ps ih =>
      intro w w' h i q
      rw [List.foldlM_cons] at h
      obtain ⟨v, hv, hrest⟩ := Option.bind_eq_some_iff.mp h
      rcases ih hrest i q with hlater | ⟨p', hp', hdir, hloc⟩
      · rcases mkdir_nodeAt hv i q with hfirst | ⟨hdir, hloc, _, _⟩
        · exact Or.inl (hlater.trans hfirst)
        · exact Or.inr ⟨p, List.mem_cons_self .., hdir, hloc⟩
      · right
        refine ⟨p', List.mem_cons_of_mem p hp', ?_, by rw [← locate_mkdir hv, hloc]⟩
        by_contra hw
        rw [Bool.not_eq_false] at hw
        rw [mkdir_isDir_mono hv hw] at hdir
        exact absurd hdir (by decide)

/-- Nothing, or a directory. -/
def Clear (w : World) (p : Path) : Prop := w.node p = none ∨ w.isDir p = true

theorem mkdir_clear {w v : World} {p : Path} (h : w.mkdir p = some v) {q : Path}
    (hq : Clear w q) : Clear v q := by
  have hloc := locate_mkdir h q
  rcases mkdir_nodeAt h (w.locate q).1 (w.locate q).2 with hsame | ⟨_, _, _, hdir⟩
  · have hnode : v.node q = w.node q := by rw [node_eq, node_eq, hloc, hsame]
    unfold Clear World.isDir
    rw [hnode]
    exact hq
  · right
    unfold World.isDir
    rw [node_eq, hloc, hdir]
    decide

theorem mkdir_clear_self {w v : World} {p : Path} (h : w.mkdir p = some v) : Clear v p := by
  apply mkdir_clear h
  unfold World.mkdir at h
  split at h
  · rename_i hdir
    exact Or.inr hdir
  · rw [Option.ite_none_right_eq_some, Bool.and_eq_true] at h
    exact Or.inl (Option.isNone_iff_eq_none.mp h.1.2)

/-- What `mkdir -p` leaves at a path on its way is a directory, if anything. -/
theorem mkdirs_clear (ps : List Path) :
    ∀ {w w' : World}, ps.foldlM World.mkdir w = some w' →
      (∀ q, Clear w q → Clear w' q) ∧ ∀ p ∈ ps, Clear w' p := by
  induction ps with
  | nil =>
      intro w w' h
      rw [← Option.some.inj h]
      exact ⟨fun _ hq => hq, fun _ hp => absurd hp List.not_mem_nil⟩
  | cons p ps ih =>
      intro w w' h
      rw [List.foldlM_cons] at h
      obtain ⟨v, hv, hrest⟩ := Option.bind_eq_some_iff.mp h
      obtain ⟨hkeep, hall⟩ := ih hrest
      refine ⟨fun q hq => hkeep q (mkdir_clear hv hq), fun q hq => ?_⟩
      rcases List.mem_cons.mp hq with rfl | hq
      · exact hkeep q (mkdir_clear_self hv)
      · exact hall q hq

/-! ## The home directory -/

/-- Lines 195 and 196 make the home directory of `user` and give it away: it is
a direct child of `/mnt/root/home` with this name, and nothing outside
`/mnt/root/home` changes.  The target is mounted, so the directories up to
`/mnt/root` are there. -/
structure Contained (user : Str) : Prop where
  path : normalize (homeRoute user) = homeDir user
  effect : ∀ (d d' : Decision) (w w₁ w₂ : World) (out out' : Str),
    (∀ p, p <+: mntRoot → w.isDir p = true) →
    perform d (.mkdirP [homeRoute user]) w = some (out, w₁) →
    perform d' (.chown 1000 100 (homeRoute user)) w₁ = some (out', w₂) →
    (∃ n, w₂.node (homeDir user) = some n ∧ n.kind = .dir ∧ n.uid = 1000 ∧ n.gid = 100) ∧
      ∀ (i : VolId) (q : Path), nodeAt w₂ i q ≠ nodeAt w i q →
        ∃ p, homeRoot <+: p ∧ w.locate p = (i, q)

/-- A name that is a component of its own has a home directory on a path of such
components. -/
theorem plain_homeDir {user : Str} (h : PlainComp user) : ∀ c ∈ homeDir user, PlainComp c := by
  intro c hc
  rcases List.mem_append.mp hc with hc | hc
  · have hall : ∀ d ∈ homeRoot, d ≠ [] ∧ d ≠ ".".toList ∧ d ≠ "..".toList := by decide
    exact hall c hc
  · rw [List.mem_singleton.mp hc]
    exact h

/-- On such a path `mkdir -p` makes the prefixes as they stand there. -/
theorem mkdirP_plain {cs : List Str} (hcs : ∀ c ∈ cs, PlainComp c) {d : Decision}
    {w v : World} {out : Str} (h : perform d (.mkdirP [cs]) w = some (out, v)) :
    cs.inits.foldlM World.mkdir w = some v := by
  obtain ⟨u, hu, heq⟩ := Option.map_eq_some_iff.mp h
  rw [List.foldlM_cons] at hu
  obtain ⟨u', hu', hu⟩ := Option.bind_eq_some_iff.mp hu
  rw [World.mkdirRoute, inits_normalize hcs] at hu'
  rw [hu', Option.some.inj hu]
  exact congrArg some (Prod.mk.inj heq).2

/-- A directory that is there is given away. -/
theorem chown_home {p : Path} {n : Node} {w : World} (hn : w.node p = some n)
    (hclear : Clear w p) :
    ∃ m, (w.put p (n.chown 1000 100)).node p = some m ∧ m.kind = .dir ∧ m.uid = 1000 ∧
      m.gid = 100 := by
  have hdir : n.kind = .dir := by
    rcases hclear with hnone | hdir
    · rw [hnone] at hn
      exact absurd hn (by simp)
    · unfold World.isDir at hdir
      rw [hn] at hdir
      exact eq_of_beq hdir
  have hvol : (w.vols (w.locate p).1).isSome = true := by
    rw [node_eq] at hn
    exact vols_isSome_of_nodeAt hn
  refine ⟨n.chown 1000 100, ?_, ?_, ?_⟩
  · exact (nodeAt_put w p _ _ _).trans (if_pos ⟨rfl, hvol⟩)
  · rw [chown_kind]
    exact hdir
  · unfold Node.chown
    rw [hdir]
    exact ⟨rfl, rfl⟩

/-- The directories that `mkdir -p` has made for a home directory, where those up
to `/mnt/root` were there. -/
theorem home_made {user : Str} {w v : World} (hdirs : ∀ p, p <+: mntRoot → w.isDir p = true)
    (hfold : (homeDir user).inits.foldlM World.mkdir w = some v) {i : VolId} {q : Path}
    (hchange : nodeAt v i q ≠ nodeAt w i q) : ∃ p, homeRoot <+: p ∧ w.locate p = (i, q) := by
  rcases mkdirs_frame _ hfold i q with hsame | ⟨p, hp, hmissing, hp'⟩
  · exact absurd hsame hchange
  · refine ⟨p, ?_, hp'⟩
    rw [List.mem_inits] at hp
    rcases List.prefix_concat_iff.mp hp with hp | hp
    · rw [hp]
      exact List.prefix_append _ _
    · rcases List.prefix_concat_iff.mp hp with hp | hp
      · rw [hp]
        exact List.prefix_refl _
      · rw [hdirs p hp] at hmissing
        exact absurd hmissing (by decide)

/-- **The home directory of a name that matches the grammar.** -/
theorem contained_of_grammar {user : Str} (h : grammar user = true) : Contained user := by
  have hroute := homeRoute_of_grammar h
  have hplain := plain_homeDir (plain_of_grammar h)
  have hpath : normalize (homeRoute user) = homeDir user := by
    rw [hroute]
    exact normalize_plain hplain
  refine ⟨hpath, ?_⟩
  intro d d' w w₁ w₂ out out' hdirs hmkdir hchown
  have hfold : (homeDir user).inits.foldlM World.mkdir w = some w₁ := by
    rw [hroute] at hmkdir
    exact mkdirP_plain hplain hmkdir
  obtain ⟨n, hn, rfl⟩ : ∃ n, w₁.node (homeDir user) = some n ∧
      w₁.put (homeDir user) (n.chown 1000 100) = w₂ := by
    obtain ⟨n, hn, heq⟩ := Option.map_eq_some_iff.mp hchown
    rw [hpath] at hn heq
    exact ⟨n, hn, (Prod.mk.inj heq).2⟩
  have hclear : Clear w₁ (homeDir user) :=
    (mkdirs_clear _ hfold).2 _ ((List.mem_inits _ _).mpr (List.prefix_refl _))
  refine ⟨chown_home hn hclear, ?_⟩
  intro i q hchange
  by_cases hat : w₁.locate (homeDir user) = (i, q)
  · have hloc : w₁.locate (homeDir user) = w.locate (homeDir user) := by
      unfold World.locate
      rw [(foldlM_sameShell (fun _ _ _ hu => mkdir_sameShell hu) _ w w₁ hfold).mounts]
    exact ⟨homeDir user, List.prefix_append _ _, by rw [← hloc, hat]⟩
  · -- the owner is changed elsewhere, so the directory was made
    rw [nodeAt_put, if_neg (fun hand => hat hand.1)] at hchange
    exact home_made hdirs hfold hchange

/-! ## The prompt -/

/-- The prompt decides about the line as the regular expression does, and if it
accepts the line, the home directory is where it belongs. -/
def NameSound (line : Str) : Prop :=
  (acceptsUser line = true ↔ grammar line = true) ∧ (acceptsUser line = true → Contained line)

/-- **User names and home directories.**  The lines on which the prompt fails
are the names of one character, and those that begin with two acceptable
characters and contain another one behind them. -/
theorem username_sound_iff (line : Str) :
    NameSound line ↔
      (∀ c, line = [c] → firstChar c = false) ∧
        ∀ a b t, line = a :: b :: t → firstChar a = true → nextChar b = true →
          ∀ c ∈ t, nextChar c = true := by
  constructor
  · intro h
    constructor
    · intro c hc
      by_contra hfirst
      rw [Bool.not_eq_false] at hfirst
      have hgrammar : grammar line = true := by
        rw [hc, grammar, hfirst]
        rfl
      obtain ⟨a, b, t, heq, _⟩ := (acceptsUser_iff line).mp (h.1.mpr hgrammar)
      rw [hc] at heq
      exact absurd (congrArg List.length heq) (by simp)
    · intro a b t heq ha hb c hc
      have hgrammar := h.1.mp ((acceptsUser_iff line).mpr ⟨a, b, t, heq, ha, hb⟩)
      apply nextChar_of_grammar hgrammar c
      rw [heq]
      exact List.mem_cons_of_mem a (List.mem_cons_of_mem b hc)
  · intro h
    obtain ⟨hone, hrest⟩ := h
    have hgrammar : acceptsUser line = true → grammar line = true := by
      intro haccept
      obtain ⟨a, b, t, heq, ha, hb⟩ := (acceptsUser_iff line).mp haccept
      rw [heq, grammar, ha, Bool.true_and, List.all_eq_true]
      intro c hc
      rcases List.mem_cons.mp hc with rfl | hc
      · exact hb
      · exact hrest a b t heq ha hb c hc
    refine ⟨⟨hgrammar, ?_⟩, fun haccept => contained_of_grammar (hgrammar haccept)⟩
    intro hg
    rw [acceptsUser_iff]
    match line with
    | [] => exact absurd hg (by decide)
    | [c] =>
        rw [grammar, hone c rfl] at hg
        exact absurd hg (by decide)
    | a :: b :: t =>
        rw [grammar, Bool.and_eq_true, List.all_eq_true] at hg
        exact ⟨a, b, t, rfl, hg.1, hg.2 b (List.mem_cons_self ..)⟩

/-- The line `ab/../../etc` is accepted, and the directory given to the user is
`/mnt/root/etc`; the name `a` is refused. -/
theorem username_not_sound :
    (acceptsUser "ab/../../etc".toList = true ∧ grammar "ab/../../etc".toList = false ∧
      normalize (homeRoute "ab/../../etc".toList) = mntRoot ++ ["etc".toList]) ∧
    (acceptsUser "a".toList = false ∧ grammar "a".toList = true) ∧
    ¬ NameSound "ab/../../etc".toList ∧ ¬ NameSound "a".toList := by
  refine ⟨by decide +kernel, by decide +kernel, fun h => ?_, fun h => ?_⟩
  · exact absurd (h.1.mp (by decide +kernel)) (by decide +kernel)
  · exact absurd (h.1.mpr (by decide +kernel)) (by decide +kernel)

end Slinux.Installer.Home
