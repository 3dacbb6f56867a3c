import Dn42Ctl.Lib.Text
import Mathlib.Data.List.DropRight
import Mathlib.Data.List.Induction

/-!
# Digits

Numbers written out in a text: `str` of an integer is a text of ASCII digits
that reads back as the integer, and white space around a text that ends in
digits is white space before it.
-/

namespace Text

/-- A text of ASCII digits. -/
def AsciiDigits (s : Str) : Prop := ∀ c ∈ s, 48 ≤ c ∧ c ≤ 57

theorem digitValue_ascii {c : Nat} (h : 48 ≤ c ∧ c ≤ 57) : digitValue c = some (c - 48) := by
  have hfind : decimalZeros.find? (fun z => z ≤ c && c < z + 10) = some 48 := by
    rw [decimalZeros, List.find?_cons_of_pos]
    simp only [Bool.and_eq_true, decide_eq_true_eq]
    omega
  rw [digitValue, hfind]
  rfl

theorem isSpace_ascii {c : Nat} (h : 48 ≤ c ∧ c ≤ 57) : isSpace c = false := by
  obtain ⟨h1, h2⟩ := h
  simp only [isSpace, whitespace, List.contains_eq_mem, List.mem_cons, List.not_mem_nil, or_false,
    decide_eq_false_iff_not, not_or]
  omega

/-! ## reading a number -/

theorem decimalValue_append (s : Str) (c : Nat) :
    decimalValue (s ++ [c]) =
      (decimalValue s).bind fun n => (digitValue c).map fun d => 10 * n + d := by
  rw [decimalValue, List.foldl_append]
  rfl

/-- Decimal digits of any script have a value. -/
theorem decimalValue_isSome {s : Str} (h : s.all isDigit = true) : (decimalValue s).isSome := by
  induction s using List.reverseRecOn with
  | nil => rfl
  | append_singleton s c ih =>
      rw [List.all_append, Bool.and_eq_true] at h
      obtain ⟨n, hn⟩ := Option.isSome_iff_exists.mp (ih h.1)
      have hc : (digitValue c).isSome := by simpa [isDigit] using h.2
      obtain ⟨d, hd⟩ := Option.isSome_iff_exists.mp hc
      rw [decimalValue_append, hn, hd]
      rfl

/-- ASCII digits read as `Nat` reads them. -/
theorem decimalValue_chars {cs : List Char} (h : ∀ c ∈ cs, c.isDigit = true) :
    decimalValue (cs.map Char.toNat) = some (Nat.ofDigitChars 10 cs 0) := by
  induction cs using List.reverseRecOn with
  | nil => rfl
  | append_singleton cs c ih =>
      have hc : 48 ≤ c.toNat ∧ c.toNat ≤ 57 := by
        have := h c (by simp)
        rw [Char.isDigit, Bool.and_eq_true, decide_eq_true_eq, decide_eq_true_eq] at this
        exact this
      have hcs : decimalValue (cs.map Char.toNat) = some (Nat.ofDigitChars 10 cs 0) :=
        ih fun x hx => h x (by simp [hx])
      rw [List.map_append, List.map_singleton, decimalValue_append, hcs, digitValue_ascii hc,
        Nat.ofDigitChars_append, Nat.ofDigitChars_cons, Nat.ofDigitChars_nil]
      rfl

theorem isDigit_toDigits {n : Nat} : ∀ c ∈ Nat.toDigits 10 n, c.isDigit = true := fun _ hc =>
  Nat.isDigit_of_mem_toDigits (by decide) (by decide) hc

/-- `int(str(n))`. -/
theorem decimalValue_ofInt (n : Nat) : decimalValue (ofInt n) = some n := by
  show decimalValue ((Nat.toDigits 10 n).map Char.toNat) = some n
  rw [decimalValue_chars isDigit_toDigits, Nat.ofDigitChars_ten_toDigits]

theorem asciiDigits_ofInt (n : Nat) : AsciiDigits (ofInt n) := by
  intro c hc
  obtain ⟨x, hx, rfl⟩ := List.mem_map.mp (show c ∈ (Nat.toDigits 10 n).map Char.toNat from hc)
  have := isDigit_toDigits x hx
  rw [Char.isDigit, Bool.and_eq_true, decide_eq_true_eq, decide_eq_true_eq] at this
  exact this

theorem isDigit_ofInt (n : Nat) : ∀ c ∈ ofInt (n : Int), isDigit c = true := by
  intro c hc
  rw [isDigit, digitValue_ascii (asciiDigits_ofInt n c hc)]
  rfl

/-- No digit is white space. -/
theorem space_not_digit {c : Nat} (h : isSpace c = true) : isDigit c = false := by
  have hall : ∀ c ∈ whitespace, isDigit c = false := by decide
  exact hall c (List.contains_iff_mem.mp h)

theorem digit_not_space {c : Nat} (h : isDigit c = true) : isSpace c = false := by
  cases hspace : isSpace c with
  | false => rfl
  | true =>
      rw [space_not_digit hspace] at h
      cases h

theorem ofInt_ne_nil (n : Nat) : ofInt n ≠ [] := by
  show (Nat.toDigits 10 n).map Char.toNat ≠ []
  rw [ne_eq, List.map_eq_nil_iff]
  exact Nat.toDigits_ne_nil

/-! ## stripping -/

/-- Stripping a text whose last character is not white space. -/
theorem strip_of_getLast {s : Str} {c : Nat} (h : s.getLast? = some c) (hc : isSpace c = false) :
    strip s = s.dropWhile isSpace := by
  have hlast : (s.dropWhile isSpace).reverse.dropWhile isSpace = (s.dropWhile isSpace).reverse := by
    obtain ⟨init, rfl⟩ := List.getLast?_eq_some_iff.mp h
    have hdrop : ∃ init', (init ++ [c]).dropWhile isSpace = init' ++ [c] := by
      rw [List.dropWhile_append]
      split
      · exact ⟨[], by simp [hc]⟩
      · exact ⟨_, rfl⟩
    obtain ⟨init', hinit⟩ := hdrop
    rw [hinit, List.reverse_append, List.reverse_singleton, List.singleton_append,
      List.dropWhile_cons_of_neg (by simp [hc])]
  rw [strip, hlast, List.reverse_reverse]

/-- White space before a separator and digits is white space before the text. -/
theorem strip_append_digits {a d : Str} {sep : Nat} (hsep : isSpace sep = false)
    (hd : AsciiDigits d) (hne : d ≠ []) :
    strip (a ++ sep :: d) = a.dropWhile isSpace ++ sep :: d := by
  have hlast : (a ++ sep :: d).getLast? = some (d.getLast hne) := by
    rw [List.getLast?_append, List.getLast?_cons, List.getLast?_eq_some_getLast hne]
    rfl
  rw [strip_of_getLast hlast (isSpace_ascii (hd _ (List.getLast_mem hne))), List.dropWhile_append]
  split
  · rename_i hempty
    rw [List.isEmpty_iff.mp hempty, List.dropWhile_cons_of_neg (by simp [hsep]), List.nil_append]
  · rfl

/-- A text that starts with something else than white space keeps its start. -/
theorem dropWhile_of_head {s : Str} (h : ∀ c, s.head? = some c → isSpace c = false) :
    s.dropWhile isSpace = s := by
  cases s with
  | nil => rfl
  | cons c cs => exact List.dropWhile_cons_of_neg (by simp [h c rfl])

/-- White space behind a text that has none. -/
theorem strip_append_space {s : Str} {c : Nat} (hs : ∀ d ∈ s, isSpace d = false)
    (hc : isSpace c = true) : strip (s ++ [c]) = s := by
  have hback : s.reverse.dropWhile isSpace = s.reverse := by
    apply dropWhile_of_head
    intro d hd
    exact hs d (List.mem_reverse.mp (List.mem_of_head? hd))
  cases s with
  | nil => simp [strip, hc]
  | cons d ds =>
      have hfront : ((d :: ds) ++ [c]).dropWhile isSpace = (d :: ds) ++ [c] :=
        List.dropWhile_cons_of_neg (by simp [hs d List.mem_cons_self])
      rw [strip, hfront, List.reverse_append, List.reverse_singleton, List.singleton_append,
        List.dropWhile_cons_of_pos hc, hback, List.reverse_reverse]

/-- A stripped text does not start with white space. -/
theorem head?_strip {s : Str} {c : Nat} (h : (strip s).head? = some c) : isSpace c = false := by
  have hpre : strip s <+: s.dropWhile isSpace :=
    List.rdropWhile_prefix isSpace _
  obtain ⟨rest, hrest⟩ := hpre
  have hhead : (s.dropWhile isSpace).head? = some c := by
    rw [← hrest, List.head?_append, h]
    rfl
  have hnot := List.head?_dropWhile_not isSpace s
  rw [hhead] at hnot
  simpa using hnot

theorem strip_strip (s : Str) : strip (strip s) = strip s := by
  have hdrop : (strip s).dropWhile isSpace = strip s := dropWhile_of_head fun _ hc => head?_strip hc
  have hright : (strip s).rdropWhile isSpace = strip s := List.rdropWhile_idempotent isSpace _
  show ((strip s).dropWhile isSpace).rdropWhile isSpace = strip s
  rw [hdrop, hright]

end Text
