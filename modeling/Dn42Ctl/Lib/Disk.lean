import Mathlib.Data.List.Dedup
import Dn42Ctl.Lib.Path

/-!
# Disk

The regular files of a machine.  A file holds text or bytes that are not
UTF-8; reading text translates line ends as `read_text` does.
-/

open Text

/-- What a regular file holds. -/
inductive Content where
  | text (s : Str)
  | bytes (b : List Nat)
deriving DecidableEq, Repr

/-- The translation of line ends on reading: `\r\n` and `\r` become `\n`. -/
def universalNewlines : Str → Str
  | [] => []
  | 13 :: 10 :: cs => 10 :: universalNewlines cs
  | 13 :: cs => 10 :: universalNewlines cs
  | c :: cs => c :: universalNewlines cs

/-- `path.read_text(encoding="utf-8")` of a file; `none` when it does not
decode. -/
def Content.readText : Content → Option Str
  | .text s => some (universalNewlines s)
  | .bytes _ => none

/-- No carriage return is left. -/
theorem universalNewlines_cr (s : Str) : 13 ∉ universalNewlines s := by
  induction s using universalNewlines.induct with
  | case1 => simp [universalNewlines]
  | case2 cs ih => simp [universalNewlines, ih]
  | case3 cs hcs ih =>
      rw [universalNewlines]
      · simp [ih]
      · exact hcs
  | case4 c cs h1 h2 ih =>
      rw [universalNewlines]
      · simp only [List.mem_cons, not_or]
        exact ⟨fun hc => h2 hc.symm, ih⟩
      · exact h1
      · exact h2

/-- A text without carriage returns is read back as it was written. -/
theorem universalNewlines_eq_self {s : Str} : universalNewlines s = s ↔ 13 ∉ s := by
  constructor
  · intro h
    rw [← h]
    exact universalNewlines_cr s
  · intro h
    induction s with
    | nil => rfl
    | cons c cs ih =>
        have hc : c ≠ 13 := fun hc => h (hc ▸ List.mem_cons_self)
        have hcs := ih fun hmem => h (List.mem_cons_of_mem c hmem)
        unfold universalNewlines
        split <;> simp_all

/-- The regular files. -/
abbrev Disk := List (PosixPath × Content)

namespace Disk

variable {d : Disk} {p q : PosixPath} {c : Content}

/-- The content of a file, if there is one. -/
def read (p : PosixPath) (d : Disk) : Option Content := (d.find? fun e => e.1 == p).map Prod.snd

def unlink (p : PosixPath) (d : Disk) : Disk := d.filter fun e => e.1 != p

/-- Replace a file, or create it. -/
def write (p : PosixPath) (c : Content) (d : Disk) : Disk := (p, c) :: d.unlink p

/-- `directory.iterdir()`, the regular files. -/
def iterdir (dir : PosixPath) (d : Disk) : List PosixPath :=
  (d.map Prod.fst).dedup.filter fun p => p.parent == dir && p != dir

/-- A path with a content is one that is listed. -/
theorem read_isSome_iff : (d.read p).isSome ↔ p ∈ d.map Prod.fst := by
  simp [read, List.find?_isSome, List.mem_map]

/-- The entries of a directory. -/
theorem mem_iterdir {dir : PosixPath} :
    p ∈ d.iterdir dir ↔ (d.read p).isSome ∧ p.parent = dir ∧ p ≠ dir := by
  rw [read_isSome_iff, iterdir, List.mem_filter, List.mem_dedup]
  simp

@[simp] theorem read_unlink_self : (d.unlink p).read p = none := by
  simp [read, unlink, List.find?_eq_none]

/-- The other files stay. -/
theorem read_unlink_of_ne (h : q ≠ p) : (d.unlink p).read q = d.read q := by
  unfold read unlink
  congr 1
  induction d with
  | nil => rfl
  | cons e es ih =>
      by_cases hp : e.1 = p
      · rw [List.filter_cons_of_neg (by simp [hp]), ih, List.find?_cons_of_neg]
        simp only [beq_iff_eq]
        exact fun hq => h (hq ▸ hp)
      · rw [List.filter_cons_of_pos (by simp [hp])]
        by_cases hq : e.1 = q
        · rw [List.find?_cons_of_pos (by simp [hq]), List.find?_cons_of_pos (by simp [hq])]
        · rw [List.find?_cons_of_neg (by simp [hq]), List.find?_cons_of_neg (by simp [hq]), ih]

/-- A removed file is gone. -/
theorem read_unlink (p q : PosixPath) (d : Disk) :
    (d.unlink p).read q = if q = p then none else d.read q := by
  split
  · next h => rw [h, read_unlink_self]
  · next h => exact read_unlink_of_ne h

/-- A written file is read back. -/
theorem read_write (p q : PosixPath) (c : Content) (d : Disk) :
    (d.write p c).read q = if q = p then some c else d.read q := by
  split
  · next h => rw [h]; simp [read, write]
  · next h =>
      have hhead : (p == q) = false := by simpa using fun hp : p = q => h hp.symm
      calc (d.write p c).read q = (d.unlink p).read q := by
            rw [read, write, List.find?_cons, read]
            simp [hhead]
        _ = d.read q := read_unlink_of_ne h

@[simp] theorem read_write_self : (d.write p c).read p = some c := by
  rw [read_write, if_pos rfl]

theorem read_write_of_ne (h : q ≠ p) : (d.write p c).read q = d.read q := by
  rw [read_write, if_neg h]

/-! ## batches -/

/-- Write texts one after the other. -/
def writeAll (d : Disk) : List (PosixPath × Str) → Disk
  | [] => d
  | (p, s) :: rest => writeAll (d.write p (.text s)) rest

/-- Remove files one after the other. -/
def unlinkAll (d : Disk) : List PosixPath → Disk
  | [] => d
  | p :: rest => unlinkAll (d.unlink p) rest

theorem writeAll_append (d : Disk) (ws vs : List (PosixPath × Str)) :
    d.writeAll (ws ++ vs) = (d.writeAll ws).writeAll vs := by
  induction ws generalizing d with
  | nil => rfl
  | cons w ws ih => exact ih _

/-- A file that no write names keeps its content. -/
theorem read_writeAll_of_notMem {ws : List (PosixPath × Str)} :
    p ∉ ws.map Prod.fst → (d.writeAll ws).read p = d.read p := by
  induction ws generalizing d with
  | nil => intro _; rfl
  | cons w ws ih =>
      obtain ⟨q, s⟩ := w
      intro h
      simp only [List.map_cons, List.mem_cons, not_or] at h
      rw [writeAll, ih h.2, read_write_of_ne h.1]

/-- Writes to distinct files all land. -/
theorem read_writeAll_of_mem {ws : List (PosixPath × Str)} (hnodup : (ws.map Prod.fst).Nodup)
    {s : Str} : (p, s) ∈ ws → (d.writeAll ws).read p = some (.text s) := by
  induction ws generalizing d with
  | nil => simp
  | cons w ws ih =>
      obtain ⟨q, t⟩ := w
      rw [List.map_cons, List.nodup_cons] at hnodup
      intro h
      rcases List.mem_cons.mp h with heq | hmem
      · cases heq
        rw [writeAll, read_writeAll_of_notMem hnodup.1, read_write_self]
      · rw [writeAll]
        exact ih hnodup.2 hmem

/-- Every written file holds one of the texts written to it. -/
theorem read_writeAll_isSome {ws : List (PosixPath × Str)} (h : p ∈ ws.map Prod.fst) :
    ∃ s, (p, s) ∈ ws ∧ (d.writeAll ws).read p = some (.text s) := by
  induction ws generalizing d with
  | nil => simp at h
  | cons w ws ih =>
      obtain ⟨q, t⟩ := w
      by_cases hmem : p ∈ ws.map Prod.fst
      · obtain ⟨s, hs, hread⟩ := @ih (d.write q (.text t)) hmem
        exact ⟨s, List.mem_cons_of_mem _ hs, hread⟩
      · have hq : p = q := by
          rw [List.map_cons, List.mem_cons] at h
          exact h.resolve_right hmem
        rw [hq] at hmem ⊢
        have hread : (d.writeAll ((q, t) :: ws)).read q = some (.text t) := by
          rw [writeAll, read_writeAll_of_notMem hmem, read_write_self]
        exact ⟨t, List.mem_cons_self, hread⟩

/-- Many files are removed. -/
theorem read_unlinkAll (ps : List PosixPath) :
    (d.unlinkAll ps).read p = if p ∈ ps then none else d.read p := by
  induction ps generalizing d with
  | nil => rfl
  | cons q qs ih =>
      rw [unlinkAll, ih, read_unlink]
      by_cases hq : p = q
      · simp [hq]
      · simp [hq]

end Disk
