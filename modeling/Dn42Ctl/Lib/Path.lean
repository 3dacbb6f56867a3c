import Dn42Ctl.Lib.Text

/-!
# Path

`pathlib.PurePosixPath`: a root and the parts between the slashes.  Empty
parts and `.` are dropped when a text becomes a path, `..` is kept: paths are
compared by their spelling, not by the file they lead to.
-/

open Text

/-- A POSIX path. -/
structure PosixPath where
  /-- How many slashes the root has: none for a relative path. -/
  root : Nat
  parts : List Str
deriving DecidableEq, Repr

namespace PosixPath

/-- The parts of a text. -/
def partsOf (s : Str) : List Str := (s.splitOn 47).filter fun x => !x.isEmpty && x != [46]

/-- The root of a text: exactly two slashes at its start are a root of their
own, any other number is one slash. -/
def rootOf : Str → Nat
  | 47 :: 47 :: 47 :: _ => 1
  | 47 :: 47 :: _ => 2
  | 47 :: _ => 1
  | _ => 0

/-- `PosixPath(s)`. -/
def ofStr (s : Str) : PosixPath := ⟨rootOf s, partsOf s⟩

/-- `p / s`: an absolute text replaces the path. -/
def join (p : PosixPath) (s : Str) : PosixPath :=
  if rootOf s = 0 then ⟨p.root, p.parts ++ partsOf s⟩ else ofStr s

/-- `p.parent`. -/
def parent (p : PosixPath) : PosixPath := ⟨p.root, p.parts.dropLast⟩

/-- `p.name`. -/
def name (p : PosixPath) : Str := p.parts.getLast?.getD []

def isAbsolute (p : PosixPath) : Bool := p.root != 0

/-- `str(p)`. -/
def toStr (p : PosixPath) : Str :=
  if p.root = 0 ∧ p.parts = [] then [46]
  else List.replicate p.root 47 ++ [47].intercalate p.parts

/-- What paths are ordered by: the root, then the parts. -/
def sortKey (p : PosixPath) : List Str :=
  (if p.root = 0 then [] else [List.replicate p.root 47]) ++ p.parts

/-- No system call takes a path with a null character in it. -/
def hasNul (p : PosixPath) : Bool := p.parts.any fun s => s.contains 0

/-! ## file names -/

/-- A text that is one part: the name of a file. -/
def IsName (s : Str) : Prop := 47 ∉ s ∧ s ≠ [] ∧ s ≠ [46]

instance (s : Str) : Decidable (IsName s) := inferInstanceAs (Decidable (_ ∧ _ ∧ _))

theorem partsOf_name {s : Str} (h : IsName s) : partsOf s = [s] := by
  obtain ⟨hslash, hne, hdot⟩ := h
  rw [partsOf, List.splitOn_eq_singleton hslash]
  simp [hne, hdot]

theorem rootOf_name {s : Str} (h : IsName s) : rootOf s = 0 := by
  cases s with
  | nil => rfl
  | cons c cs =>
      have hc : c ≠ 47 := fun hc => h.1 (hc ▸ List.mem_cons_self)
      unfold rootOf
      split <;> simp_all

/-- A file in a directory. -/
theorem join_name {p : PosixPath} {s : Str} (h : IsName s) :
    p.join s = ⟨p.root, p.parts ++ [s]⟩ := by
  rw [join, if_pos (rootOf_name h), partsOf_name h]

@[simp] theorem parent_join {p : PosixPath} {s : Str} (h : IsName s) : (p.join s).parent = p := by
  rw [join_name h]
  simp [parent]

@[simp] theorem name_join {p : PosixPath} {s : Str} (h : IsName s) : (p.join s).name = s := by
  rw [join_name h]
  simp [name]

/-- Files of one directory are told apart by their names. -/
theorem join_inj {p : PosixPath} {s t : Str} (hs : IsName s) (ht : IsName t) :
    p.join s = p.join t ↔ s = t := by
  rw [join_name hs, join_name ht]
  simp

/-- The last part of a text keeps its ending. -/
theorem splitOn_append {suffix : Str} (hslash : 47 ∉ suffix) (s : Str) :
    ∃ front last, (s ++ suffix).splitOn 47 = front ++ [last ++ suffix] := by
  induction s with
  | nil => exact ⟨[], [], by rw [List.nil_append, List.splitOn_eq_singleton hslash]; rfl⟩
  | cons c s ih =>
      obtain ⟨front, last, heq⟩ := ih
      rw [List.cons_append, List.splitOn_cons_eq_if_modifyHead, heq]
      split
      · exact ⟨[] :: front, last, rfl⟩
      · cases front with
        | nil => exact ⟨[], c :: last, rfl⟩
        | cons part front => exact ⟨(c :: part) :: front, last, rfl⟩

/-- The name of a file keeps the ending of the text it was made from. -/
theorem endsWith_name_join {suffix : Str} (hslash : 47 ∉ suffix) (hlength : 1 < suffix.length)
    (p : PosixPath) (s : Str) : endsWith (p.join (s ++ suffix)).name suffix = true := by
  obtain ⟨front, last, hsplit⟩ := splitOn_append hslash s
  have hkept : (!(last ++ suffix).isEmpty && last ++ suffix != [46]) = true := by
    rw [Bool.and_eq_true, Bool.not_eq_true', List.isEmpty_eq_false_iff, bne_iff_ne]
    constructor
    · intro h
      rw [(List.append_eq_nil_iff.mp h).2] at hlength
      simp at hlength
    · intro h
      have hsum := congrArg List.length h
      simp only [List.length_append, List.length_singleton] at hsum
      omega
  have hparts : ∃ front', partsOf (s ++ suffix) = front' ++ [last ++ suffix] := by
    refine ⟨front.filter fun x => !x.isEmpty && x != [46], ?_⟩
    rw [partsOf, hsplit, List.filter_append, List.filter_cons, if_pos hkept, List.filter_nil]
  obtain ⟨front', hparts⟩ := hparts
  have hname : (p.join (s ++ suffix)).name = last ++ suffix := by
    rw [join]
    split
    · rw [name, hparts, ← List.append_assoc]
      simp
    · rw [name, ofStr, hparts]
      simp
  rw [hname, endsWith, List.isSuffixOf_iff_suffix]
  exact List.suffix_append last suffix

/-! ## paths read from texts -/

/-- The paths that texts are read as: a root that a text can have, and proper
parts. -/
structure Canonical (p : PosixPath) : Prop where
  root_le : p.root ≤ 2
  parts : ∀ part ∈ p.parts, IsName part

theorem rootOf_le (s : Str) : rootOf s ≤ 2 := by
  unfold rootOf
  split <;> omega

theorem canonical_ofStr (s : Str) : (ofStr s).Canonical where
  root_le := rootOf_le s
  parts := by
    intro part hpart
    obtain ⟨hmem, hkept⟩ := List.mem_filter.mp hpart
    rw [Bool.and_eq_true, Bool.not_eq_true', List.isEmpty_eq_false_iff, bne_iff_ne] at hkept
    refine ⟨?_, hkept.1, hkept.2⟩
    intro hslash
    have hno := (forall_mem_splitOnP hmem 47 hslash).1
    simp at hno

theorem partsOf_slash (s : Str) : partsOf (47 :: s) = partsOf s := by
  rw [partsOf, partsOf, List.splitOn_cons_eq_if_modifyHead]
  simp

theorem partsOf_slashes (n : Nat) (s : Str) : partsOf (List.replicate n 47 ++ s) = partsOf s := by
  induction n with
  | zero => rfl
  | succ n ih => rw [List.replicate_succ, List.cons_append, partsOf_slash, ih]

/-- Proper parts, put together and taken apart. -/
theorem partsOf_intercalate {parts : List Str} (h : ∀ part ∈ parts, IsName part) :
    partsOf ([47].intercalate parts) = parts := by
  cases parts with
  | nil => rfl
  | cons part rest =>
      rw [partsOf, List.splitOn_intercalate 47 (fun l hl => (h l hl).1) (by simp),
        List.filter_eq_self]
      intro l hl
      obtain ⟨-, hne, hdot⟩ := h l hl
      simp [hne, hdot]

/-- A text that does not start with a slash, behind the slashes of a root. -/
theorem rootOf_slashes {n : Nat} {s : Str} (hn : n ≤ 2) (h : s.head? ≠ some 47) :
    rootOf (List.replicate n 47 ++ s) = n := by
  have hcases : n = 0 ∨ n = 1 ∨ n = 2 := by omega
  cases s with
  | nil => obtain rfl | rfl | rfl := hcases <;> rfl
  | cons c cs =>
      have hc : c ≠ 47 := by simpa using h
      obtain rfl | rfl | rfl := hcases <;> simp [rootOf, hc]

theorem head?_intercalate {parts : List Str} (h : ∀ part ∈ parts, IsName part) :
    ([47].intercalate parts).head? ≠ some 47 := by
  cases parts with
  | nil => simp [List.intercalate]
  | cons part rest =>
      obtain ⟨hslash, hne, -⟩ := h part List.mem_cons_self
      cases part with
      | nil => exact absurd rfl hne
      | cons c cs =>
          have hc : c ≠ 47 := fun hc => hslash (hc ▸ List.mem_cons_self)
          cases rest with
          | nil => simpa [List.intercalate] using hc
          | cons part' rest => simpa [List.intercalate_cons_cons] using hc

/-- A path is read back from its text. -/
theorem ofStr_toStr {p : PosixPath} (h : p.Canonical) : ofStr p.toStr = p := by
  obtain ⟨root, parts⟩ := p
  by_cases hdot : root = 0 ∧ parts = []
  · rw [toStr, if_pos hdot, hdot.1, hdot.2]
    rfl
  · rw [toStr, if_neg hdot, ofStr, partsOf_slashes, partsOf_intercalate h.parts,
      rootOf_slashes h.root_le (head?_intercalate h.parts)]

end PosixPath
