import Mathlib.Data.List.Lex
import Mathlib.Data.List.TakeWhile

/-!
# Text

Python `str` values as lists of code points.  A `str` is not a sequence of
Unicode scalar values: `json.loads` accepts `"\\ud800"` and yields a lone
surrogate, so `Char` would be too small a type.

The character classes are Python's own (`str.isspace`, the category `Nd`
behind `\\d` and `int()`), for the Unicode version of Python 3.11.
-/

namespace Text

/-- A Python `str`: its code points. -/
abbrev Str := List Nat

/-- The `str` of a literal. -/
def lit (s : String) : Str := s.toList.map Char.toNat

/-! ## character classes -/

/-- The code points for which `str.isspace` holds. -/
def whitespace : List Nat :=
  [9, 10, 11, 12, 13, 28, 29, 30, 31, 32, 133, 160, 5760, 8192, 8193, 8194, 8195, 8196, 8197, 8198,
    8199, 8200, 8201, 8202, 8232, 8233, 8239, 8287, 12288]

def isSpace (c : Nat) : Bool := whitespace.contains c

/-- The zeros of the category `Nd`; each is followed by the digits 1 to 9. -/
def decimalZeros : List Nat :=
  [48, 1632, 1776, 1984, 2406, 2534, 2662, 2790, 2918, 3046, 3174, 3302, 3430, 3558, 3664, 3792,
    3872, 4160, 4240, 6112, 6160, 6470, 6608, 6784, 6800, 6992, 7088, 7232, 7248, 42528, 43216,
    43264, 43472, 43504, 43600, 44016, 65296, 66720, 68912, 69734, 69872, 69942, 70096, 70384,
    70736, 70864, 71248, 71360, 71472, 71904, 72016, 72784, 73040, 73120, 92768, 92864, 93008,
    120782, 120792, 120802, 120812, 120822, 123200, 123632, 125264, 130032]

/-- The value of a decimal digit in any script. -/
def digitValue (c : Nat) : Option Nat :=
  (decimalZeros.find? fun z => z ≤ c && c < z + 10).map fun z => c - z

def isDigit (c : Nat) : Bool := (digitValue c).isSome

/-- Lone surrogates are the code points that have no UTF-8 encoding. -/
def isSurrogate (c : Nat) : Bool := 0xD800 ≤ c && c ≤ 0xDFFF

/-- `s.encode("utf-8")` does not raise. -/
def encodable (s : Str) : Bool := s.all fun c => !isSurrogate c

theorem encodable_append {s t : Str} :
    encodable (s ++ t) = true ↔ encodable s = true ∧ encodable t = true := by
  rw [encodable, List.all_append, Bool.and_eq_true]
  rfl

/-- A text below the surrogates has an encoding. -/
theorem encodable_of_small {s : Str} (h : ∀ c ∈ s, c < 0xD800) : encodable s = true := by
  rw [encodable, List.all_eq_true]
  intro c hc
  have hsmall := h c hc
  rw [isSurrogate, Bool.not_eq_true', Bool.and_eq_false_iff, decide_eq_false_iff_not]
  left
  omega

/-- `o or d`: the empty string is falsy. -/
def orDefault (o : Option Str) (d : Str) : Str :=
  match o with
  | some s => if s.isEmpty then d else s
  | none => d

theorem orDefault_self (v : Str) : orDefault (some v) [] = v := by
  cases v with
  | nil => rfl
  | cons c cs => rfl

/-! ## methods of `str` -/

/-- `s.strip()`. -/
def strip (s : Str) : Str := ((s.dropWhile isSpace).reverse.dropWhile isSpace).reverse

/-- `s.lower()`, as far as an ASCII result is concerned: besides the ASCII
capitals only the Kelvin sign has an ASCII lower case.  Other code points
never become ASCII, so a comparison with an ASCII word is not affected by
keeping them. -/
def lower (s : Str) : Str :=
  s.map fun c => if 65 ≤ c ∧ c ≤ 90 then c + 32 else if c = 0x212A then 107 else c

/-- `str(n)` of an integer. -/
def ofInt : Int → Str
  | .ofNat n => (Nat.toDigits 10 n).map Char.toNat
  | .negSucc n => 45 :: (Nat.toDigits 10 (n + 1)).map Char.toNat

/-- `prefix` is a prefix of `s`. -/
def startsWith (s pre : Str) : Bool := pre.isPrefixOf s

def endsWith (s suf : Str) : Bool := suf.isSuffixOf s

/-- `s.partition(sep)` for a one-character separator: what stands before the
first occurrence, and what stands after it if there is one. -/
def partition (sep : Nat) (s : Str) : Str × Option Str :=
  (s.takeWhile (· != sep), match s.dropWhile (· != sep) with
    | [] => none
    | _ :: rest => some rest)

/-- `s.rpartition(sep)`: before and after the last occurrence. -/
def rpartition (sep : Nat) (s : Str) : Option (Str × Str) :=
  match partition sep s.reverse with
  | (_, none) => none
  | (tail, some head) => some (head.reverse, tail.reverse)

/-- `s.strip(c)` for one character. -/
def stripOf (c : Nat) (s : Str) : Str :=
  ((s.dropWhile (· == c)).reverse.dropWhile (· == c)).reverse

/-- `re.sub("[…]+", rep, s)`: every longest run of characters with `p` becomes
one `rep`; `inRun` says whether the character before belonged to a run. -/
def subRuns (p : Nat → Bool) (rep : Nat) (inRun : Bool) : Str → Str
  | [] => []
  | c :: cs =>
      if p c then
        if inRun then subRuns p rep true cs else rep :: subRuns p rep true cs
      else c :: subRuns p rep false cs

/-- `s.replace(sub, "")`, for a text that is not empty; `skip` characters of a
match are still to be dropped. -/
def removeAll (sub : Str) (skip : Nat) : Str → Str
  | [] => []
  | c :: cs =>
      match skip with
      | k + 1 => removeAll sub k cs
      | 0 => if sub.isPrefixOf (c :: cs) then removeAll sub (sub.length - 1) cs
             else c :: removeAll sub 0 cs

/-- The value of a string of decimal digits in any script, `none` when one of
its characters is not a digit. -/
def decimalValue (s : Str) : Option Nat :=
  s.foldl (fun acc c => acc.bind fun n => (digitValue c).map fun d => 10 * n + d) (some 0)

/-! ## lemmas -/

theorem mem_of_mem_strip {s : Str} {c : Nat} (h : c ∈ strip s) : c ∈ s := by
  simp only [strip, List.mem_reverse] at h
  have h1 := (List.dropWhile_suffix _).subset h
  rw [List.mem_reverse] at h1
  exact (List.dropWhile_suffix _).subset h1

/-- Splitting at the first separator, when what stands before it has none. -/
theorem partition_append {sep : Nat} {a b : Str} (ha : sep ∉ a) :
    partition sep (a ++ sep :: b) = (a, some b) := by
  have hne : ∀ c ∈ a, (c != sep) = true := by
    intro c hc
    rw [bne_iff_ne]
    rintro rfl
    exact ha hc
  rw [partition, List.takeWhile_append_of_pos hne, List.dropWhile_append_of_pos hne]
  simp

theorem partition_of_notMem {sep : Nat} {s : Str} (h : sep ∉ s) : partition sep s = (s, none) := by
  have hne : ∀ c ∈ s, (c != sep) = true := by
    intro c hc
    rw [bne_iff_ne]
    rintro rfl
    exact h hc
  rw [partition, List.takeWhile_eq_self_iff.mpr hne, List.dropWhile_eq_nil_iff.mpr hne]

/-- Splitting at the last separator, when what follows it has none. -/
theorem rpartition_append {sep : Nat} {a b : Str} (hb : sep ∉ b) :
    rpartition sep (a ++ sep :: b) = some (a, b) := by
  have hrev : (a ++ sep :: b).reverse = b.reverse ++ sep :: a.reverse := by simp
  have hne : ∀ c ∈ b.reverse, (c != sep) = true := by
    intro c hc
    rw [List.mem_reverse] at hc
    simp only [bne_iff_ne]
    exact fun h => hb (h ▸ hc)
  simp only [rpartition, partition, hrev]
  rw [List.takeWhile_append_of_pos hne, List.dropWhile_append_of_pos hne]
  simp

/-- What the split at the last separator gives. -/
theorem rpartition_eq_some {sep : Nat} {s a b : Str} (h : rpartition sep s = some (a, b)) :
    s = a ++ sep :: b ∧ sep ∉ b := by
  rw [rpartition, partition] at h
  cases hdrop : s.reverse.dropWhile (· != sep) with
  | nil => simp [hdrop] at h
  | cons c rest =>
      simp only [hdrop, Option.some.injEq, Prod.mk.injEq] at h
      obtain ⟨rfl, rfl⟩ := h
      have hc : c = sep := by
        have hnot := List.head?_dropWhile_not (· != sep) s.reverse
        rw [hdrop] at hnot
        simpa using hnot
      subst hc
      have hrev : s.reverse = s.reverse.takeWhile (· != c) ++ c :: rest := by
        rw [← hdrop, List.takeWhile_append_dropWhile]
      constructor
      · have hback := congrArg List.reverse hrev
        rw [List.reverse_reverse] at hback
        simpa using hback
      · intro hmem
        have hall := List.all_takeWhile (p := (· != c)) (l := s.reverse)
        have hpass := List.all_eq_true.mp hall c (List.mem_reverse.mp hmem)
        simp at hpass

/-- A character that is no separator is in one of the parts. -/
theorem mem_splitOn {sep c : Nat} {s : Str} (hc : c ∈ s) (hne : c ≠ sep) :
    ∃ part ∈ s.splitOn sep, c ∈ part := by
  induction s with
  | nil => cases hc
  | cons d ds ih =>
      rw [List.splitOn, List.splitOnP_cons_eq_if_modifyHead]
      cases hsplit : ds.splitOnP (· == sep) with
      | nil => exact absurd hsplit (List.splitOnP_ne_nil _ ds)
      | cons first others =>
          have hrest : c ∈ ds → ∃ part ∈ first :: others, c ∈ part := by
            intro hmem
            rw [← hsplit]
            exact ih hmem
          by_cases hd : (d == sep) = true
          · rw [if_pos hd]
            rcases List.mem_cons.mp hc with rfl | hmem
            · exact absurd (beq_iff_eq.mp hd) hne
            · obtain ⟨part, hpart, hin⟩ := hrest hmem
              exact ⟨part, List.mem_cons_of_mem _ hpart, hin⟩
          · rw [if_neg hd, List.modifyHead_cons]
            rcases List.mem_cons.mp hc with rfl | hmem
            · exact ⟨_, List.mem_cons_self .., List.mem_cons_self ..⟩
            · obtain ⟨part, hpart, hin⟩ := hrest hmem
              rcases List.mem_cons.mp hpart with rfl | hpart
              · exact ⟨_, List.mem_cons_self .., List.mem_cons_of_mem _ hin⟩
              · exact ⟨part, List.mem_cons_of_mem _ hpart, hin⟩

/-- The parts have no separator in them, and only characters of the text. -/
theorem forall_mem_splitOnP {p : Nat → Bool} {s item : Str} (h : item ∈ s.splitOnP p) :
    ∀ c ∈ item, p c = false ∧ c ∈ s := by
  induction s generalizing item with
  | nil =>
      rw [List.splitOnP_nil, List.mem_singleton] at h
      subst h
      exact fun c hc => absurd hc List.not_mem_nil
  | cons d ds ih =>
      have hrest : ∀ {x : Str}, x ∈ ds.splitOnP p → ∀ c ∈ x, p c = false ∧ c ∈ d :: ds :=
        fun hx c hc => ⟨(ih hx c hc).1, List.mem_cons_of_mem _ (ih hx c hc).2⟩
      rw [List.splitOnP_cons_eq_if_modifyHead] at h
      split at h
      · rcases List.mem_cons.mp h with rfl | h
        · exact fun c hc => absurd hc List.not_mem_nil
        · exact hrest h
      · rename_i hd
        cases hsplit : ds.splitOnP p with
        | nil => exact absurd hsplit (List.splitOnP_ne_nil p ds)
        | cons first others =>
            rw [hsplit, List.modifyHead_cons] at h
            rw [hsplit] at hrest
            rcases List.mem_cons.mp h with rfl | h
            · intro c hc
              rcases List.mem_cons.mp hc with rfl | hc
              · exact ⟨Bool.eq_false_iff.mpr hd, List.mem_cons_self ..⟩
              · exact hrest (List.mem_cons_self ..) c hc
            · exact hrest (List.mem_cons_of_mem _ h)

/-- Without a separator there is one part. -/
theorem splitOn_of_notMem {sep : Nat} {s : Str} (h : sep ∉ s) : s.splitOn sep = [s] := by
  apply List.splitOnP_eq_singleton
  intro c hc
  rw [beq_eq_false_iff_ne]
  rintro rfl
  exact h hc

end Text
