import Slinux.Unix.Files

/-!
# Editing a volume

What the usual commands do to the content of one file system, once they have
found their way to it and nothing is in their way.  Each edit is a total
function on volumes, so a sequence of commands becomes a composition of
functions, and the content of a whole file system can be written down as one
expression.

## Main definitions

* `Vol.store`, `Vol.rename`, `Vol.touch`, `Vol.adjust` — single files.
* `Vol.mkdirP`, `Vol.overlay`, `Vol.mapAll` — directories and trees.
* `Vol.All` — a property of every node, kept or established by each edit.
-/

namespace Slinux.Unix.Files

open Slinux.Shell.Text

/-! ## Single files -/

/-- The text of the file at `p`, empty if there is none. -/
def Vol.text (v : Vol) (p : Path) : Str := ((v p).bind Node.data?).getD []

def Vol.isDir (v : Vol) (p : Path) : Bool := (v p).any (fun n => n.kind == .dir)

/-- A file is written, if there is no directory in its place.  It keeps its
mode and owner if it is there already. -/
def Vol.store (v : Vol) (p : Path) (text : Str) : Vol :=
  if v.isDir p then v else v.put p (((v p).getD (newFile [])).withData text)

/-- A text is added at the end of a file. -/
def Vol.append (v : Vol) (p : Path) (text : Str) : Vol := v.store p (v.text p ++ text)

/-- A file gets another name. -/
def Vol.rename (v : Vol) (src dst : Path) : Vol :=
  match v src with
  | some n => (v.put dst n).remove src
  | none => v

/-- `touch`, as far as files are concerned. -/
def Vol.touch (v : Vol) (p : Path) : Vol := if (v p).isSome then v else v.put p (newFile [])

/-- The mode or owner of a node is changed. -/
def Vol.adjust (v : Vol) (p : Path) (f : Node → Node) : Vol :=
  fun q => if q = p then (v q).map f else v q

/-! ## Directories and trees -/

/-- Directories are made where there are none. -/
def Vol.mkdirs (v : Vol) (ps : List Path) : Vol :=
  fun q => if q ∈ ps then (v q).or (some newDir) else v q

/-- `mkdir -p`. -/
def Vol.mkdirP (v : Vol) (p : Path) : Vol := v.mkdirs p.inits

/-- The top directories `ds` are copied from a tree. -/
def Vol.overlay (v : Vol) (ds : List Str) (tree : Path → Option Node) : Vol
  | [] => v []
  | d :: q => if d ∈ ds then (tree (d :: q)).or (v (d :: q)) else v (d :: q)

/-- Every node is changed. -/
def Vol.mapAll (v : Vol) (f : Node → Node) : Vol := fun q => (v q).map f

section Reading

variable (v : Vol) {p q : Path}

theorem Vol.store_of_isDir (text : Str) (h : v.isDir p = true) : v.store p text = v := if_pos h

theorem Vol.store_of_not_isDir (text : Str) (h : v.isDir p = false) :
    v.store p text = v.put p (((v p).getD (newFile [])).withData text) :=
  if_neg (by rw [h]; exact Bool.false_ne_true)

theorem Vol.store_ne (text : Str) (h : q ≠ p) : v.store p text q = v q := by
  unfold Vol.store
  split
  · rfl
  · exact Vol.put_ne v _ h

theorem Vol.isDir_put_file (n : Node) (text : Str) :
    (v.put p (n.withData text)).isDir p = false := by
  rw [Vol.isDir, Vol.put_self]
  rfl

theorem Vol.text_store (text : Str) (h : v.isDir p = false) : (v.store p text).text p = text := by
  rw [Vol.store_of_not_isDir v text h]
  simp [Vol.text, Node.withData, Node.data?]

/-- The last text written counts. -/
@[simp] theorem Vol.store_store (s t : Str) : (v.store p s).store p t = v.store p t := by
  cases h : v.isDir p with
  | true => rw [Vol.store_of_isDir v s h]
  | false =>
      rw [Vol.store_of_not_isDir v s h, Vol.store_of_not_isDir _ t (Vol.isDir_put_file v _ s),
        Vol.store_of_not_isDir v t h, Vol.put_self]
      funext q
      by_cases hq : q = p
      · subst hq
        rw [Vol.put_self, Vol.put_self]
        rfl
      · rw [Vol.put_ne _ _ hq, Vol.put_ne _ _ hq, Vol.put_ne _ _ hq]

/-- Adding to a file that has just been written. -/
@[simp] theorem Vol.append_store (s t : Str) : (v.store p s).append p t = v.store p (s ++ t) := by
  cases h : v.isDir p with
  | true =>
      rw [Vol.store_of_isDir v s h, Vol.store_of_isDir v (s ++ t) h]
      exact Vol.store_of_isDir v _ h
  | false => rw [Vol.append, Vol.text_store v s h, Vol.store_store]

@[simp] theorem Vol.append_append (s t : Str) :
    (v.append p s).append p t = v.append p (s ++ t) := by
  show (v.store p (v.text p ++ s)).append p t = v.store p (v.text p ++ (s ++ t))
  rw [Vol.append_store, List.append_assoc]

/-- A file that is written line by line. -/
theorem Vol.foldl_append {α : Type} (g : α → Str) (ls : List α) (t : Str) :
    ls.foldl (fun v l => v.append p (g l)) (v.store p t) = v.store p (t ++ (ls.map g).flatten) := by
  induction ls generalizing t with
  | nil => rw [List.foldl_nil, List.map_nil, List.flatten_nil, List.append_nil]
  | cons l ls ih =>
      rw [List.foldl_cons, Vol.append_store, ih, List.map_cons, List.flatten_cons,
        List.append_assoc]

/-- Directories that are there already are not made. -/
theorem Vol.mkdirs_of_some {ps : List Path} (h : ∀ p ∈ ps, (v p).isSome = true) :
    v.mkdirs ps = v := by
  funext q
  unfold Vol.mkdirs
  split
  · rename_i hq
    obtain ⟨n, hn⟩ := Option.isSome_iff_exists.mp (h q hq)
    rw [hn]
    rfl
  · rfl

theorem Vol.mkdirs_mkdirs (ps qs : List Path) : (v.mkdirs ps).mkdirs qs = v.mkdirs (ps ++ qs) := by
  funext q
  unfold Vol.mkdirs
  by_cases hp : q ∈ ps
  · rw [if_pos hp, if_pos (List.mem_append_left qs hp)]
    split
    · cases v q <;> rfl
    · rfl
  · rw [if_neg hp]
    by_cases hq : q ∈ qs
    · rw [if_pos hq, if_pos (List.mem_append_right ps hq)]
    · rw [if_neg hq, if_neg (by simp [hp, hq])]

/-! ### Reading behind an edit -/

theorem Vol.rename_ne {src : Path} (hsrc : q ≠ src) (hq : q ≠ p) : v.rename src p q = v q := by
  unfold Vol.rename
  cases v src with
  | none => rfl
  | some n => exact (if_neg hsrc).trans (Vol.put_ne v n hq)

theorem Vol.rename_src {src : Path} : v.rename src p src = none := by
  unfold Vol.rename
  cases hv : v src with
  | none => exact hv
  | some n => exact if_pos rfl

theorem Vol.adjust_ne (f : Node → Node) (h : q ≠ p) : v.adjust p f q = v q := if_neg h

theorem Vol.adjust_self (f : Node → Node) : v.adjust p f p = (v p).map f := if_pos rfl

theorem Vol.touch_ne (h : q ≠ p) : v.touch p q = v q := by
  unfold Vol.touch
  split
  · rfl
  · exact Vol.put_ne v _ h

theorem Vol.touch_of_none (h : v p = none) : v.touch p p = some (newFile []) := by
  rw [Vol.touch, h]
  exact Vol.put_self v p _

theorem Vol.mkdirs_not_mem {ps : List Path} (h : q ∉ ps) : v.mkdirs ps q = v q := if_neg h

theorem Vol.mkdirs_of_none {ps : List Path} (h : q ∈ ps) (hv : v q = none) :
    v.mkdirs ps q = some newDir := by
  rw [Vol.mkdirs, if_pos h, hv]
  rfl

theorem Vol.mkdirs_kept {ps : List Path} {n : Node} (hv : v q = some n) :
    v.mkdirs ps q = some n := by
  unfold Vol.mkdirs
  rw [hv]
  split <;> rfl

/-- The directories of a new file system. -/
theorem Vol.fresh_mkdirP (p q : Path) :
    Vol.fresh.mkdirP p q = if q ∈ p.inits then some newDir else none := by
  by_cases hq : q = []
  · subst hq
    rw [if_pos ((List.mem_inits _ _).mpr (List.nil_prefix)), Vol.mkdirP]
    exact Vol.mkdirs_kept _ rfl
  · have hfresh : Vol.fresh q = none := if_neg hq
    split
    · exact Vol.mkdirs_of_none _ ‹_› hfresh
    · exact (Vol.mkdirs_not_mem _ ‹_›).trans hfresh

/-- The directories of a new file system that had one in it. -/
theorem Vol.fresh_put_mkdirP {r : Path} {n : Node} (hr : r ≠ []) (hp : ¬ r <+: p) (q : Path) :
    (Vol.fresh.put r n).mkdirP p q
      = if q ∈ p.inits then some newDir else if q = r then some n else none := by
  by_cases hq : q = r
  · subst hq
    have hout : q ∉ p.inits := fun h => hp ((List.mem_inits _ _).mp h)
    rw [if_neg hout, if_pos rfl, Vol.mkdirP, Vol.mkdirs_not_mem _ hout, Vol.put_self]
  · have hsame : (Vol.fresh.put r n).mkdirP p q = Vol.fresh.mkdirP p q := by
      simp only [Vol.mkdirP, Vol.mkdirs, Vol.put_ne _ _ hq]
    rw [hsame, Vol.fresh_mkdirP, if_neg hq]

/-- A file is made. -/
theorem Vol.store_of_none (text : Str) (h : v p = none) :
    v.store p text = v.put p (newFile text) := by
  rw [Vol.store_of_not_isDir v text (by rw [Vol.isDir, h]; rfl), h]
  rfl

/-- Text is added to a file. -/
theorem Vol.append_of_file {s : Str} (t : Str) (h : v p = some (newFile s)) :
    v.append p t = v.put p (newFile (s ++ t)) := by
  have htext : v.text p = s := by
    rw [Vol.text, h]
    rfl
  rw [Vol.append, htext, Vol.store_of_not_isDir v _ (by rw [Vol.isDir, h]; rfl), h]
  rfl

/-- Several directories with the same parent. -/
theorem Vol.foldl_mkdirP (ds : List Str) :
    ds.foldl (fun v d => v.mkdirP [d]) v = v.mkdirs (ds.flatMap (fun d => [[], [d]])) := by
  induction ds generalizing v with
  | nil => exact (Vol.mkdirs_of_some v (by simp)).symm
  | cons d ds ih =>
      rw [List.foldl_cons, ih, Vol.mkdirP, Vol.mkdirs_mkdirs, List.flatMap_cons]
      rfl

/-! Nothing disappears, except by `rename`. -/

theorem Vol.mkdirs_isSome {ps : List Path} (h : (v q).isSome = true) :
    (v.mkdirs ps q).isSome = true := by
  unfold Vol.mkdirs
  split
  · rw [Option.isSome_or, h, Bool.true_or]
  · exact h

theorem Vol.adjust_isSome (f : Node → Node) (h : (v q).isSome = true) :
    (v.adjust p f q).isSome = true := by
  unfold Vol.adjust
  split
  · rwa [Option.isSome_map]
  · exact h

theorem Vol.touch_isSome (h : (v q).isSome = true) : (v.touch p q).isSome = true := by
  unfold Vol.touch
  split
  · exact h
  · unfold Vol.put
    split
    · rfl
    · exact h

theorem Vol.overlay_isSome (ds : List Str) (tree : Path → Option Node)
    (h : (v q).isSome = true) : (v.overlay ds tree q).isSome = true := by
  cases q with
  | nil => exact h
  | cons d q =>
      simp only [Vol.overlay]
      split
      · rw [Option.isSome_or, h, Bool.or_true]
      · exact h

/-- Copying one more directory. -/
theorem Vol.overlay_cons (d : Str) (ds : List Str) (tree : Path → Option Node) :
    (v.overlay [d] tree).overlay ds tree = v.overlay (d :: ds) tree := by
  funext q
  cases q with
  | nil => rfl
  | cons e q =>
      simp only [Vol.overlay, List.mem_cons, List.not_mem_nil, or_false]
      by_cases hin : e ∈ ds
      · rw [if_pos hin, if_pos (Or.inr hin)]
        by_cases he : e = d
        · rw [if_pos he]
          cases tree (e :: q) <;> rfl
        · rw [if_neg he]
      · rw [if_neg hin]
        by_cases he : e = d
        · rw [if_pos he, if_pos (Or.inl he)]
        · rw [if_neg he, if_neg (by simp [he, hin])]

theorem Vol.overlay_nil (tree : Path → Option Node) : v.overlay [] tree = v := by
  funext q
  cases q with
  | nil => rfl
  | cons e q => simp only [Vol.overlay, List.not_mem_nil, if_false]

end Reading

/-! ## Properties of every node -/

/-- Every node of the volume has the property, at its path. -/
def Vol.All (P : Path → Node → Prop) (v : Vol) : Prop := ∀ p n, v p = some n → P p n

section All

variable {P : Path → Node → Prop} {v : Vol} {p : Path}

theorem Vol.All.put (h : v.All P) {n : Node} (hn : P p n) : (v.put p n).All P := by
  intro q m hm
  by_cases hq : q = p
  · subst hq
    rw [Vol.put_self] at hm
    exact Option.some.inj hm ▸ hn
  · rw [Vol.put_ne v n hq] at hm
    exact h q m hm

theorem Vol.All.remove (h : v.All P) : (v.remove p).All P := by
  intro q m hm
  unfold Vol.remove at hm
  split at hm
  · cases hm
  · exact h q m hm

/-- Writing keeps mode and owner of a file that is there. -/
theorem Vol.All.store (h : v.All P) {text : Str} (hnew : P p (newFile text))
    (hold : ∀ n, n.kind ≠ .dir → P p n → P p (n.withData text)) : (v.store p text).All P := by
  cases hdir : v.isDir p with
  | true =>
      rw [Vol.store_of_isDir v text hdir]
      exact h
  | false =>
      rw [Vol.store_of_not_isDir v text hdir]
      refine h.put ?_
      cases hv : v p with
      | none => exact hnew
      | some n =>
          refine hold n (fun hk => ?_) (h p n hv)
          simp [Vol.isDir, hv, hk] at hdir

theorem Vol.All.rename (h : v.All P) {src : Path} (hmove : ∀ n, P src n → P p n) :
    (v.rename src p).All P := by
  unfold Vol.rename
  cases hv : v src with
  | none => exact h
  | some n => exact (h.put (hmove n (h src n hv))).remove

theorem Vol.All.touch (h : v.All P) (hnew : P p (newFile [])) : (v.touch p).All P := by
  unfold Vol.touch
  split
  · exact h
  · exact h.put hnew

/-- A change of one node, possibly from another property. -/
theorem Vol.All.adjust {P' : Path → Node → Prop} {f : Node → Node} (h : v.All P')
    (hat : ∀ n, P' p n → P p (f n)) (hother : ∀ q n, q ≠ p → P' q n → P q n) :
    (v.adjust p f).All P := by
  intro q m hm
  unfold Vol.adjust at hm
  by_cases hq : q = p
  · rw [if_pos hq] at hm
    obtain ⟨n, hn, rfl⟩ := Option.map_eq_some_iff.mp hm
    subst hq
    exact hat n (h q n hn)
  · rw [if_neg hq] at hm
    exact hother q m hq (h q m hm)

theorem Vol.All.mkdirs (h : v.All P) {ps : List Path} (hnew : ∀ q ∈ ps, P q newDir) :
    (v.mkdirs ps).All P := by
  intro q m hm
  unfold Vol.mkdirs at hm
  split at hm
  · rename_i hq
    cases hv : v q with
    | none =>
        rw [hv] at hm
        exact Option.some.inj hm ▸ hnew q hq
    | some n =>
        rw [hv] at hm
        exact Option.some.inj hm ▸ h q n hv
  · exact h q m hm

/-- A change of every node establishes a property. -/
theorem Vol.All.mapAll (v : Vol) {f : Node → Node} (hf : ∀ q n, P q (f n)) :
    (v.mapAll f).All P := by
  intro q m hm
  obtain ⟨n, _, rfl⟩ := Option.map_eq_some_iff.mp hm
  exact hf q n

end All

end Slinux.Unix.Files
