import Dn42Ctl.Lib.Trim

/-!
# Lines

`str.splitlines`.  A line ends at any of ten characters, all of them white
space, and `\r\n` is one end; what stands after the last end is a line only if
there is something.
-/

namespace Text

/-- The characters that end a line. -/
def lineBreaks : List Nat := [10, 11, 12, 13, 28, 29, 30, 133, 8232, 8233]

def isLineBreak (c : Nat) : Bool := lineBreaks.contains c

/-- `splitlines` after the characters of `line`, in reverse. -/
def splitlinesFrom (line : Str) : Str → List Str
  | [] => if line.isEmpty then [] else [line.reverse]
  | 13 :: 10 :: cs => line.reverse :: splitlinesFrom [] cs
  | c :: cs =>
      if isLineBreak c then line.reverse :: splitlinesFrom [] cs
      else splitlinesFrom (c :: line) cs

/-- `s.splitlines()`. -/
def splitlines (s : Str) : List Str := splitlinesFrom [] s

/-- A text of one line. -/
def OneLine (s : Str) : Prop := ∀ c ∈ s, isLineBreak c = false

instance (s : Str) : Decidable (OneLine s) := inferInstanceAs (Decidable (∀ c ∈ s, _))

theorem isSpace_of_lineBreak {c : Nat} (h : isLineBreak c = true) : isSpace c = true := by
  have hall : ∀ d ∈ lineBreaks, isSpace d = true := by decide
  exact hall c (List.contains_iff_mem.mp h)

/-- A text without white space is one line. -/
theorem oneLine_of_noSpace {s : Str} (h : ∀ c ∈ s, isSpace c = false) : OneLine s := by
  intro c hc
  cases hb : isLineBreak c with
  | false => rfl
  | true =>
      have hspace := isSpace_of_lineBreak hb
      rw [h c hc] at hspace
      cases hspace

theorem oneLine_append {a b : Str} : OneLine (a ++ b) ↔ OneLine a ∧ OneLine b := by
  simp only [OneLine, List.mem_append, or_imp, forall_and]

/-- The check runs on the characters of the literal. -/
theorem oneLine_lit (cs : List Char) (h : (cs.all fun c => !isLineBreak c.toNat) = true) :
    OneLine (lit (String.ofList cs)) := by
  intro c hc
  rw [lit, String.toList_ofList, List.mem_map] at hc
  obtain ⟨d, hd, rfl⟩ := hc
  have hall := List.all_eq_true.mp h d hd
  simpa using hall

theorem oneLine_nil : OneLine [] := fun _ hc => absurd hc List.not_mem_nil

/-- A value after the text of the template. -/
theorem oneLine_label {start v : Str} (h : OneLine start) : OneLine (start ++ v) ↔ OneLine v := by
  rw [oneLine_append]
  exact and_iff_right h

/-- A value before the text of the template. -/
theorem oneLine_tail {v rest : Str} (h : OneLine rest) : OneLine (v ++ rest) ↔ OneLine v := by
  rw [oneLine_append]
  exact and_iff_left h

theorem splitlinesFrom_break {line cs : Str} {c : Nat} (h : isLineBreak c = true)
    (hcr : c = 13 → cs.head? ≠ some 10) :
    splitlinesFrom line (c :: cs) = line.reverse :: splitlinesFrom [] cs := by
  rw [splitlinesFrom, if_pos h]
  rintro rest rfl hcs
  subst hcs
  exact hcr rfl rfl

theorem splitlinesFrom_char {line cs : Str} {c : Nat} (h : isLineBreak c = false) :
    splitlinesFrom line (c :: cs) = splitlinesFrom (c :: line) cs := by
  rw [splitlinesFrom, if_neg (by rw [h]; exact Bool.false_ne_true)]
  rintro rest rfl -
  cases h

/-- A break that the two-character end does not claim. -/
theorem head_of_not {c : Nat} {cs : Str} (h : ∀ rest, c = 13 → cs = 10 :: rest → False) :
    c = 13 → cs.head? ≠ some 10 := by
  intro hc hcs
  cases cs with
  | nil => cases hcs
  | cons d ds => exact h ds hc (by rw [Option.some.inj hcs])

theorem splitlinesFrom_newline (line cs : Str) :
    splitlinesFrom line (10 :: cs) = line.reverse :: splitlinesFrom [] cs :=
  splitlinesFrom_break rfl fun h => absurd h (by decide)

/-- The characters of a line are collected. -/
theorem splitlinesFrom_append {a : Str} (ha : OneLine a) (line rest : Str) :
    splitlinesFrom line (a ++ rest) = splitlinesFrom (a.reverse ++ line) rest := by
  induction a generalizing line with
  | nil => rfl
  | cons c cs ih =>
      rw [List.cons_append, splitlinesFrom_char (ha c (List.mem_cons_self ..)),
        ih fun d hd => ha d (List.mem_cons_of_mem _ hd), List.reverse_cons, List.append_assoc,
        List.singleton_append]

/-- A line feed always ends a line: the text before it and the text after it are
split apart. -/
theorem splitlinesFrom_lf (line a rest : Str) :
    splitlinesFrom line (a ++ 10 :: rest) =
      splitlinesFrom line (a ++ [10]) ++ splitlines rest := by
  induction line, a using splitlinesFrom.induct with
  | case1 line hempty =>
      rw [List.nil_append, List.nil_append, splitlinesFrom_newline, splitlinesFrom_newline]
      rfl
  | case2 line hempty =>
      rw [List.nil_append, List.nil_append, splitlinesFrom_newline, splitlinesFrom_newline]
      rfl
  | case3 line cs ih =>
      simp only [List.cons_append, splitlinesFrom, ih]
  | case4 line c cs hnot hbreak ih =>
      by_cases hcr : c = 13 ∧ cs = []
      · -- the carriage return and the line feed are one end
        obtain ⟨rfl, rfl⟩ := hcr
        simp [splitlinesFrom, splitlines]
      · have hhead : ∀ t, c = 13 → (cs ++ 10 :: t).head? ≠ some 10 := by
          rintro t rfl
          cases cs with
          | nil => exact absurd ⟨rfl, rfl⟩ hcr
          | cons d ds =>
              intro hd
              rw [List.cons_append, List.head?_cons, Option.some.injEq] at hd
              exact hnot ds rfl (by rw [hd])
        rw [List.cons_append, List.cons_append, splitlinesFrom_break hbreak (hhead rest),
          splitlinesFrom_break hbreak (hhead []), ih]
        rfl
  | case5 line c cs hnot hbreak ih =>
      have hc : isLineBreak c = false := Bool.eq_false_iff.mpr hbreak
      rw [List.cons_append, List.cons_append, splitlinesFrom_char hc, splitlinesFrom_char hc, ih]

theorem splitlines_lf (a rest : Str) :
    splitlines (a ++ 10 :: rest) = splitlines (a ++ [10]) ++ splitlines rest :=
  splitlinesFrom_lf [] a rest

/-- A line with its end. -/
theorem splitlines_line {a : Str} (ha : OneLine a) : splitlines (a ++ [10]) = [a] := by
  rw [splitlines, splitlinesFrom_append ha, splitlinesFrom_newline, List.append_nil,
    List.reverse_reverse]
  rfl

/-- The lines of a text hold no end of a line. -/
theorem oneLine_of_mem_splitlinesFrom {line s l : Str} (hline : OneLine line)
    (h : l ∈ splitlinesFrom line s) : OneLine l := by
  have hrev : ∀ {x : Str}, OneLine x → OneLine x.reverse :=
    fun hx c hc => hx c (List.mem_reverse.mp hc)
  induction line, s using splitlinesFrom.induct with
  | case1 line hempty =>
      rw [splitlinesFrom, if_pos hempty] at h
      cases h
  | case2 line hempty =>
      rw [splitlinesFrom, if_neg hempty] at h
      rw [List.mem_singleton.mp h]
      exact hrev hline
  | case3 line cs ih =>
      rw [splitlinesFrom] at h
      rcases List.mem_cons.mp h with rfl | h
      · exact hrev hline
      · exact ih (fun c hc => absurd hc List.not_mem_nil) h
  | case4 line c cs hnot hbreak ih =>
      rw [splitlinesFrom_break hbreak (head_of_not hnot)] at h
      rcases List.mem_cons.mp h with rfl | h
      · exact hrev hline
      · exact ih (fun c hc => absurd hc List.not_mem_nil) h
  | case5 line c cs hnot hbreak ih =>
      have hc : isLineBreak c = false := Bool.eq_false_iff.mpr hbreak
      rw [splitlinesFrom_char hc] at h
      refine ih (fun d hd => ?_) h
      rcases List.mem_cons.mp hd with rfl | hd
      · exact hc
      · exact hline d hd

theorem oneLine_of_mem_splitlines {s l : Str} (h : l ∈ splitlines s) : OneLine l :=
  oneLine_of_mem_splitlinesFrom (fun _ hc => absurd hc List.not_mem_nil) h

end Text
