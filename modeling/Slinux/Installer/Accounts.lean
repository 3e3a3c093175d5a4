import Slinux.Shell.Glob

/-!
# The account files the installer writes

`slinux-install` asks for a user name, accepts it with a `case` pattern, and
prints `/etc/passwd` and `/etc/shadow` of the target with `printf`.  Whatever
reads those files later splits them on newlines and colons, so the three
pieces have to agree: a name is safe exactly if it cannot act as a separator
and does not collide with the other account.

The pattern is `[a-z_][a-z0-9_-]*`.  As a regular expression it would be the
usual user name grammar; as a shell pattern it constrains two characters and
then accepts anything.

## Main results

* `records_passwdFile`, `records_shadowFile` — the written files read back as
  the intended records when the name is free of separators.
* `accounts_integrity_iff` — for every accepted name the two files form an
  intact account database **iff** the name has no colon and is not `root`.
-/

namespace Slinux.Installer.Accounts

open Slinux.Shell.Text
open Slinux.Shell.Glob

/-! ## The prompt and the printers -/

/-- The arm `[a-z_][a-z0-9_-]*` of the user name loop. -/
def acceptsUser (user : Str) : Bool :=
  caseArm [[.bracket [('a', 'z'), ('_', '_')],
    .bracket [('a', 'z'), ('0', '9'), ('_', '_'), ('-', '-')], .star]] user

/-- The name of the first account. -/
def rootName : Str := "root".toList

/-- `printf 'root:x:0:0:root:/root:/bin/sh\n'`. -/
def rootPasswd : Str := "root:x:0:0:root:/root:/bin/sh\n".toList

/-- `printf '%s:x:1000:100::/home/%s:/bin/sh\n' "$USER" "$USER"`. -/
def userPasswd (user : Str) : Str :=
  user ++ ":x:1000:100::/home/".toList ++ user ++ ":/bin/sh\n".toList

/-- `/etc/passwd` of the target after the move of `passwd.new`. -/
def passwdFile (user : Str) : Str := rootPasswd ++ userPasswd user

/-- `printf '%s:%s:%d:0:99999:7:::\n'` with `LASTCHANGE=20688`. -/
def shadowRecord (name hash : Str) : Str :=
  name ++ ":".toList ++ hash ++ ":20688:0:99999:7:::\n".toList

/-- `/etc/shadow` of the target. -/
def shadowFile (user rhash uhash : Str) : Str :=
  shadowRecord rootName rhash ++ shadowRecord user uhash

/-! ## Reading the files back -/

/-- The records of an account file: lines, then colon-separated fields. -/
def records (file : Str) : List (List Str) :=
  (fileLines file).map (fun l => l.splitOn ':')

/-- Field `i` of a record, empty if it is missing. -/
def field (i : Nat) (r : List Str) : Str := r.getD i []

/-- The record's account is `name`. -/
def named (name : Str) (r : List Str) : Bool := field 0 r == name

/-- An intact account database with the two accounts `root` and `user`. -/
structure Integrity (user rhash uhash passwd shadow : Str) : Prop where
  passwd_fields : (records passwd).map List.length = [7, 7]
  shadow_fields : (records shadow).map List.length = [9, 9]
  names : (records passwd).map (field 0) = [rootName, user]
  distinct : user ≠ rootName
  /-- No account but root has uid 0. -/
  uid_zero : ((records passwd).filter (fun r => field 2 r == "0".toList)).map (field 0)
    = [rootName]
  user_ids : ∀ r ∈ records passwd, named user r = true →
    field 2 r = "1000".toList ∧ field 3 r = "100".toList
  root_shadow : ((records shadow).filter (named rootName)).map (field 1) = [rhash]
  user_shadow : ((records shadow).filter (named user)).map (field 1) = [uhash]

/-- Splitting on a separator gives one field more than there are
separators. -/
theorem length_splitOn (c : Char) (s : Str) : (s.splitOn c).length = s.count c + 1 := by
  induction s with
  | nil => rfl
  | cons d s ih =>
      rw [List.splitOn_cons_eq_if_modifyHead, List.count_cons]
      split
      · simp [ih]
      · simp [ih]

/-- A user's line of `/etc/passwd`, as fields. -/
def userPasswdFields (user : Str) : List Str :=
  [user, "x".toList, "1000".toList, "100".toList, [], "/home/".toList ++ user,
    "/bin/sh".toList]

/-- A line of `/etc/shadow`, as fields. -/
def shadowFields (name hash : Str) : List Str :=
  [name, hash, "20688".toList, "0".toList, "99999".toList, "7".toList, [], [], []]

private theorem userPasswd_eq (user : Str) :
    userPasswd user = [':'].intercalate (userPasswdFields user) ++ ['\n'] := by
  simp [userPasswd, userPasswdFields, List.intercalate, List.intersperse]

private theorem shadowRecord_eq (name hash : Str) :
    shadowRecord name hash = [':'].intercalate (shadowFields name hash) ++ ['\n'] := by
  simp [shadowRecord, shadowFields, List.intercalate, List.intersperse]

/-- Two newline-free lines read back as two lines. -/
private theorem fileLines_two {a b : Str} (ha : '\n' ∉ a) (hb : '\n' ∉ b) :
    fileLines (a ++ ['\n'] ++ (b ++ ['\n'])) = [a, b] := by
  have h := fileLines_unlines [a, b] (by simp [ha, hb])
  simpa using h

private theorem userPasswd_newline {user : Str} (h : '\n' ∉ user) :
    '\n' ∉ [':'].intercalate (userPasswdFields user) := by
  simp [userPasswdFields, List.intercalate, List.intersperse, h]

private theorem shadow_newline {name hash : Str} (hn : '\n' ∉ name) (hh : '\n' ∉ hash) :
    '\n' ∉ [':'].intercalate (shadowFields name hash) := by
  simp [shadowFields, List.intercalate, List.intersperse, hn, hh]

/-- Root's line of `/etc/passwd`, as fields. -/
def rootPasswdFields : List Str :=
  [rootName, "x".toList, "0".toList, "0".toList, rootName, "/root".toList, "/bin/sh".toList]

/-- The password file consists of root's record and the user's line, split on
colons. -/
theorem records_passwdFile_split {user : Str} (h : '\n' ∉ user) :
    records (passwdFile user) =
      [rootPasswdFields, ([':'].intercalate (userPasswdFields user)).splitOn ':'] := by
  have hroot : rootPasswd = "root:x:0:0:root:/root:/bin/sh".toList ++ ['\n'] := by decide
  rw [records, passwdFile, userPasswd_eq, hroot,
    fileLines_two (by decide) (userPasswd_newline h)]
  rfl

/-- Without a colon in the name, the user's line has the intended fields. -/
theorem records_passwdFile {user : Str} (h : '\n' ∉ user) (hc : ':' ∉ user) :
    records (passwdFile user) = [rootPasswdFields, userPasswdFields user] := by
  rw [records_passwdFile_split h, List.splitOn_intercalate ':' (by simp [userPasswdFields, hc])
    (by simp [userPasswdFields])]

/-- The shadow file has the two intended records. -/
theorem records_shadowFile {user rhash uhash : Str} (hu : '\n' ∉ user) (hc : ':' ∉ user)
    (hr : '\n' ∉ rhash ∧ ':' ∉ rhash) (hh : '\n' ∉ uhash ∧ ':' ∉ uhash) :
    records (shadowFile user rhash uhash) =
      [shadowFields rootName rhash, shadowFields user uhash] := by
  rw [records, shadowFile, shadowRecord_eq, shadowRecord_eq,
    fileLines_two (shadow_newline (by decide) hr.1) (shadow_newline hu hh.1)]
  have hroot : ':' ∉ rootName := by decide
  simp only [List.map_cons, List.map_nil]
  rw [List.splitOn_intercalate ':' (by simp [shadowFields, hroot, hr.2]) (by simp [shadowFields]),
    List.splitOn_intercalate ':' (by simp [shadowFields, hc, hh.2]) (by simp [shadowFields])]

/-- Every colon of the name costs the user's record two fields. -/
theorem userPasswd_field_count (user : Str) :
    (([':'].intercalate (userPasswdFields user)).splitOn ':').length
      = 7 + 2 * user.count ':' := by
  rw [length_splitOn]
  have htext : [':'].intercalate (userPasswdFields user)
      = user ++ ":x:1000:100::/home/".toList ++ user ++ ":/bin/sh".toList := by
    simp [userPasswdFields, List.intercalate, List.intersperse]
  rw [htext, List.count_append, List.count_append, List.count_append]
  have h1 : List.count ':' ":x:1000:100::/home/".toList = 5 := by decide
  have h2 : List.count ':' ":/bin/sh".toList = 1 := by decide
  omega

/-- **Account database integrity.**  Among the lines the prompt accepts,
exactly those without a colon and different from `root` give an intact
database. -/
theorem accounts_integrity_iff (user rhash uhash : Str)
    (_hacc : acceptsUser user = true) (hline : '\n' ∉ user)
    (hr : '\n' ∉ rhash ∧ ':' ∉ rhash) (hu : '\n' ∉ uhash ∧ ':' ∉ uhash) :
    Integrity user rhash uhash (passwdFile user) (shadowFile user rhash uhash) ↔
      ':' ∉ user ∧ user ≠ rootName := by
  constructor
  · intro h
    refine ⟨?_, h.distinct⟩
    have hlen := h.passwd_fields
    rw [records_passwdFile_split hline] at hlen
    simp only [List.map_cons, List.map_nil, List.cons.injEq, and_true] at hlen
    rw [userPasswd_field_count] at hlen
    rw [← List.count_eq_zero]
    omega
  · rintro ⟨hc, hne⟩
    have hp := records_passwdFile hline hc
    have hs := records_shadowFile hline hc hr hu
    constructor
    · rw [hp]; rfl
    · rw [hs]; rfl
    · rw [hp]; rfl
    · exact hne
    · rw [hp]; rfl
    · intro r hmem hname
      rw [hp] at hmem
      simp only [List.mem_cons, List.not_mem_nil, or_false] at hmem
      rcases hmem with rfl | rfl
      · exact absurd (beq_iff_eq.mp hname).symm hne
      · exact ⟨rfl, rfl⟩
    · rw [hs]
      simp [named, field, shadowFields, hne]
    · rw [hs]
      simp [named, field, shadowFields, hne.symm]

/-- An ordinary name. -/
theorem accounts_integrity_ada :
    Integrity "ada".toList "r".toList "u".toList (passwdFile "ada".toList)
      (shadowFile "ada".toList "r".toList "u".toList) :=
  (accounts_integrity_iff "ada".toList "r".toList "u".toList (by decide) (by decide)
    (by decide) (by decide)).mpr (by decide)

/-- The prompt accepts a name with a separator in it, whose record then has
two fields too many. -/
theorem accounts_integrity_colon :
    acceptsUser "ab:c".toList = true ∧
      ¬ Integrity "ab:c".toList "r".toList "u".toList (passwdFile "ab:c".toList)
        (shadowFile "ab:c".toList "r".toList "u".toList) := by
  refine ⟨by decide, fun h => ?_⟩
  have hlen := h.passwd_fields
  revert hlen
  decide

end Slinux.Installer.Accounts
