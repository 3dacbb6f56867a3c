import Dn42Ctl.Lib.Path
import Mathlib.Data.List.Infix

/-!
# Links

`os.path.realpath` and `Path.resolve` on a file system with symbolic links: the
parts of a path are walked from the root or the working directory, and where a
part is a link its target is walked instead.

A link that leads back to itself ends the walk; `realpath` keeps what is left of
the path as it is written.  `resolve` then asks for the status of the result, and
raises when the answer is a loop (since Python 3.13 it does not ask).

* `realpath_parent` — unless a file is a link itself, it is really in the
  directory it is named in;
* `resolve_straight` — a path without links leads to itself.
-/

open Text

/-- The part `..`. -/
def dotDot : Str := [46, 46]

/-- The symbolic links of a file system, each at its real place: the parts of
the directory it is in and its name. -/
structure Layout where
  /-- The working directory, free of links as the kernel reports it. -/
  cwd : List Str
  links : List (List Str × PosixPath)
  /-- `stat` of the result of a walk that met a loop says that there is one: the
  loop may be gone from it, or what leads to it may not exist.  It says so of
  nothing where it is not asked. -/
  eloop : List Str → Bool
  cwd_real : dotDot ∉ cwd

namespace Layout

variable (fs : Layout)

/-- `os.readlink`, where there is a link. -/
def link (place : List Str) : Option PosixPath :=
  (fs.links.find? fun l => l.1 == place).map Prod.snd

/-! ## walking a path -/

/-- Where a path is walked from. -/
def start (cur : List Str) (p : PosixPath) : List Str := if p.isAbsolute then [] else cur

/-- The loop of `_joinrealpath`; `follow` walks the target of a link.  The flag
says that no link led back to itself. -/
def walkWith (follow : List Str → List Str → PosixPath → List Str × Bool) :
    List Str → List Str → List Str × Bool
  | cur, [] => (cur, true)
  | cur, name :: rest =>
      if name = dotDot then walkWith follow cur.dropLast rest
      else
        match fs.link (cur ++ [name]) with
        | none => walkWith follow (cur ++ [name]) rest
        | some target =>
            let r := follow cur (cur ++ [name]) target
            if r.2 then walkWith follow r.1 rest else (r.1 ++ rest, false)

/-- `_joinrealpath`: `entered` are the links being walked, and `depth` bounds how
many there can be. -/
def joinRealpath : Nat → List (List Str) → List Str → List Str → List Str × Bool
  | 0, _, cur, rest => (cur ++ rest, false)
  | depth + 1, entered, cur, rest =>
      fs.walkWith (fun cur place target =>
        if place ∈ entered then (place, false)
        else joinRealpath depth (place :: entered) (start cur target) target.parts) cur rest

/-- `os.path.normpath` of the parts of an absolute path. -/
def normParts (parts : List Str) : List Str :=
  parts.foldl (fun acc s => if s = dotDot then acc.dropLast else acc ++ [s]) []

/-- The walk of a whole path. -/
def walk (p : PosixPath) : List Str × Bool :=
  fs.joinRealpath (fs.links.length + 1) [] (start fs.cwd p) p.parts

/-- `os.path.realpath`. -/
def realpath (p : PosixPath) : PosixPath := ⟨1, normParts (fs.walk p).1⟩

/-- What `Path.resolve` raises. -/
inductive ResolveError where
  /-- A null character: `ValueError`. -/
  | nul
  /-- A link that leads back to itself: `RuntimeError`. -/
  | loop
deriving DecidableEq, Repr

/-- `p.resolve()`. -/
def resolve (p : PosixPath) : Except ResolveError PosixPath :=
  if p.hasNul then .error .nul
  else if (fs.walk p).2 = false ∧ fs.eloop (fs.realpath p).parts = true then .error .loop
  else .ok (fs.realpath p)

/-- The file that a path names is a link itself. -/
def isLink (p : PosixPath) : Bool := (fs.link ((fs.realpath p.parent).parts ++ [p.name])).isSome

/-- The path is walked from the root past no link and never back. -/
def Straight (p : PosixPath) : Prop :=
  p.root = 1 ∧ dotDot ∉ p.parts ∧ ∀ place ∈ p.parts.inits, place ≠ [] → fs.link place = none

instance (p : PosixPath) : Decidable (fs.Straight p) := inferInstanceAs (Decidable (_ ∧ _ ∧ _))

/-! ## lemmas -/

variable {fs} {follow : List Str → List Str → PosixPath → List Str × Bool}

/-- A path is walked one half after the other. -/
theorem walkWith_append (xs ys : List Str) : ∀ cur,
    fs.walkWith follow cur (xs ++ ys) =
      if (fs.walkWith follow cur xs).2 then fs.walkWith follow (fs.walkWith follow cur xs).1 ys
      else ((fs.walkWith follow cur xs).1 ++ ys, false) := by
  induction xs with
  | nil =>
      intro cur
      simp [walkWith]
  | cons name rest ih =>
      intro cur
      rw [List.cons_append, walkWith, walkWith]
      by_cases hdots : name = dotDot
      · simp only [if_pos hdots]
        exact ih _
      · simp only [if_neg hdots]
        cases fs.link (cur ++ [name]) with
        | none => exact ih _
        | some target =>
            simp only
            by_cases hok : (follow cur (cur ++ [name]) target).2 = true
            · simp only [if_pos hok]
              exact ih _
            · simp only [if_neg hok, Bool.false_eq_true, if_false, List.append_assoc]

/-- A walk that ends has no `..` left. -/
theorem dotDot_notMem_walkWith
    (hfollow : ∀ cur place target, dotDot ∉ cur → (follow cur place target).2 = true →
      dotDot ∉ (follow cur place target).1) (xs : List Str) :
    ∀ cur, dotDot ∉ cur → (fs.walkWith follow cur xs).2 = true →
      dotDot ∉ (fs.walkWith follow cur xs).1 := by
  induction xs with
  | nil => exact fun cur hcur _ => hcur
  | cons name rest ih =>
      intro cur hcur
      rw [walkWith]
      by_cases hdots : name = dotDot
      · rw [if_pos hdots]
        exact ih _ fun hmem => hcur (List.dropLast_subset _ hmem)
      · rw [if_neg hdots]
        cases fs.link (cur ++ [name]) with
        | none =>
            refine ih _ fun hmem => ?_
            obtain h | h := List.mem_append.mp hmem
            · exact hcur h
            · exact hdots (List.mem_singleton.mp h).symm
        | some target =>
            simp only
            by_cases hok : (follow cur (cur ++ [name]) target).2 = true
            · rw [if_pos hok]
              exact ih _ (hfollow _ _ _ hcur hok)
            · rw [if_neg hok]
              intro h
              cases h

theorem dotDot_notMem_start {cur : List Str} {p : PosixPath} (h : dotDot ∉ cur) :
    dotDot ∉ start cur p := by
  unfold start
  split
  · exact List.not_mem_nil
  · exact h

theorem dotDot_notMem_joinRealpath (depth : Nat) : ∀ entered cur xs, dotDot ∉ cur →
    (fs.joinRealpath depth entered cur xs).2 = true →
      dotDot ∉ (fs.joinRealpath depth entered cur xs).1 := by
  induction depth with
  | zero =>
      intro entered cur xs _ h
      cases h
  | succ depth ih =>
      intro entered cur xs hcur
      unfold joinRealpath
      apply dotDot_notMem_walkWith _ xs cur hcur
      intro cur place target hcur
      by_cases hmem : place ∈ entered
      · rw [if_pos hmem]
        intro h
        cases h
      · rw [if_neg hmem]
        exact ih _ _ _ (dotDot_notMem_start hcur)

theorem normParts_concat {parts : List Str} {name : Str} (h : name ≠ dotDot) :
    normParts (parts ++ [name]) = normParts parts ++ [name] := by
  unfold normParts
  rw [List.foldl_append, List.foldl_cons, List.foldl_nil, if_neg h]

theorem normParts_of_notMem {parts : List Str} (h : dotDot ∉ parts) : normParts parts = parts := by
  have hfold : ∀ acc : List Str, parts.foldl
      (fun acc s => if s = dotDot then acc.dropLast else acc ++ [s]) acc = acc ++ parts := by
    induction parts with
    | nil => simp
    | cons x xs ih =>
        intro acc
        have hx : x ≠ dotDot := fun hx => h (hx ▸ List.mem_cons_self)
        rw [List.foldl_cons, if_neg hx, ih fun hmem => h (List.mem_cons_of_mem _ hmem),
          List.append_assoc, List.singleton_append]
  exact hfold []

/-- A path is its parent and its name. -/
theorem parts_eq_concat {p : PosixPath} (h : p.parts ≠ []) :
    p.parts = p.parent.parts ++ [p.name] := by
  simp only [PosixPath.parent, PosixPath.name, List.getLast?_eq_some_getLast h, Option.getD_some]
  exact (List.dropLast_append_getLast h).symm

/-- The walk of a file is the walk of its directory, and its name. -/
theorem walk_eq {p : PosixPath} (hparts : p.parts ≠ []) (hname : p.name ≠ dotDot)
    (hlink : fs.isLink p = false) :
    ∃ ok, fs.walk p = ((fs.walk p.parent).1 ++ [p.name], ok) := by
  have hstart : start fs.cwd p = start fs.cwd p.parent := rfl
  unfold walk
  rw [parts_eq_concat hparts, hstart]
  unfold joinRealpath
  rw [walkWith_append]
  split
  · next hok =>
      -- The directory is real, so the link would be found in it.
      have hreal : normParts (fs.walk p.parent).1 = (fs.walk p.parent).1 :=
        normParts_of_notMem (dotDot_notMem_joinRealpath _ _ _ _
          (dotDot_notMem_start fs.cwd_real) hok)
      rw [isLink, Option.isSome_eq_false_iff, Option.isNone_iff_eq_none, realpath, hreal] at hlink
      unfold walk joinRealpath at hlink
      rw [walkWith, if_neg hname, hlink]
      exact ⟨true, rfl⟩
  · exact ⟨false, rfl⟩

/-- Unless a file is a link, it is really in the directory it is named in. -/
theorem realpath_parent {p : PosixPath} (hparts : p.parts ≠ []) (hname : p.name ≠ dotDot)
    (hlink : fs.isLink p = false) : (fs.realpath p).parent = fs.realpath p.parent := by
  obtain ⟨ok, hwalk⟩ := walk_eq hparts hname hlink
  rw [realpath, hwalk, normParts_concat hname, realpath]
  simp [PosixPath.parent]

/-- What is resolved leads where `realpath` says. -/
theorem resolve_eq_ok {p q : PosixPath} (h : fs.resolve p = .ok q) : q = fs.realpath p := by
  unfold resolve at h
  split at h
  · cases h
  · split at h
    · cases h
    · exact (Except.ok.inj h).symm

/-- Parts that pass no link are walked one by one. -/
theorem walkWith_straight (xs : List Str) : ∀ cur, dotDot ∉ xs →
    (∀ pre, pre <+: xs → pre ≠ [] → fs.link (cur ++ pre) = none) →
      fs.walkWith follow cur xs = (cur ++ xs, true) := by
  induction xs with
  | nil =>
      intro cur _ _
      rw [walkWith, List.append_nil]
  | cons name rest ih =>
      intro cur hdots hlinks
      have hname : name ≠ dotDot := fun h => hdots (h ▸ List.mem_cons_self)
      have hhere : fs.link (cur ++ [name]) = none :=
        hlinks [name] (List.prefix_append [name] rest) (List.cons_ne_nil _ _)
      rw [walkWith, if_neg hname, hhere]
      simp only
      rw [ih (cur ++ [name]) fun h => hdots (List.mem_cons_of_mem name h), List.append_assoc,
        List.singleton_append]
      intro pre hpre _
      rw [List.append_assoc, List.singleton_append]
      exact hlinks (name :: pre) ((List.prefix_cons_inj name).mpr hpre) (List.cons_ne_nil _ _)

/-- **A straight path** leads to itself. -/
theorem resolve_straight {p q : PosixPath} (hp : fs.Straight p) (h : fs.resolve p = .ok q) :
    q = p := by
  obtain ⟨hroot, hdots, hlinks⟩ := hp
  have habs : p.isAbsolute = true := by simp [PosixPath.isAbsolute, hroot]
  have hwalk : fs.walk p = (p.parts, true) := by
    rw [walk, start, if_pos habs, joinRealpath, walkWith_straight p.parts [] hdots]
    · rfl
    · exact fun pre hpre hne => hlinks pre ((List.mem_inits _ _).mpr hpre) hne
  rw [resolve_eq_ok h, realpath, hwalk, normParts_of_notMem hdots]
  obtain ⟨root, parts⟩ := p
  rw [show root = 1 from hroot]

end Layout
