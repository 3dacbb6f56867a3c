import Dn42Ctl.Lib.Text
import Mathlib.Data.List.Chain
import Mathlib.Data.List.DropRight

/-!
# Trim

`str.strip` with and without an argument, and `re.sub` of runs: which texts they
leave as they are.  Both methods drop characters of a class from the two ends of
a text, so the facts are stated once for any class.
-/

namespace Text

variable {p : Nat → Bool} {s : Str}

/-- The text without the characters of a class at its ends. -/
def trim (p : Nat → Bool) (s : Str) : Str := (s.dropWhile p).rdropWhile p

/-- `str.strip()` trims white space. -/
theorem strip_eq_trim (s : Str) : strip s = trim isSpace s := rfl

/-- Neither end of the text is in the class. -/
structure Trimmed (p : Nat → Bool) (s : Str) : Prop where
  head : ∀ c, s.head? = some c → p c = false
  last : ∀ c, s.getLast? = some c → p c = false

/-- What is trimmed is part of the text. -/
theorem trim_part (p : Nat → Bool) (s : Str) : trim p s <:+: s := by
  have hleft : s.dropWhile p <:+ s := List.dropWhile_suffix p
  have hright := List.rdropWhile_prefix p (s.dropWhile p)
  exact hright.isInfix.trans hleft.isInfix

theorem mem_of_mem_trim {c : Nat} (h : c ∈ trim p s) : c ∈ s := (trim_part p s).subset h

/-- A trimmed text is trimmed. -/
theorem trimmed_trim (p : Nat → Bool) (s : Str) : Trimmed p (trim p s) where
  head := by
    intro c hc
    obtain ⟨rest, hrest⟩ := List.rdropWhile_prefix p (s.dropWhile p)
    have hhead : (s.dropWhile p).head? = some c := by
      rw [← hrest, List.head?_append]
      rw [trim] at hc
      rw [hc]
      rfl
    have hnot := List.head?_dropWhile_not p s
    rw [hhead] at hnot
    simpa using hnot
  last := by
    intro c hc
    have hne : trim p s ≠ [] := by
      intro hnil
      rw [hnil] at hc
      cases hc
    have hnot := List.rdropWhile_last_not p (s.dropWhile p) hne
    rw [List.getLast?_eq_some_getLast hne, Option.some.injEq] at hc
    subst hc
    exact Bool.eq_false_iff.mpr hnot

/-- Trimming again changes nothing. -/
theorem trim_of_trimmed (h : Trimmed p s) : trim p s = s := by
  have hdrop : s.dropWhile p = s := by
    cases s with
    | nil => rfl
    | cons c cs => exact List.dropWhile_cons_of_neg (by simp [h.head c rfl])
  rw [trim, hdrop, List.rdropWhile_eq_self_iff]
  intro hne
  simp [h.last _ (List.getLast?_eq_some_getLast hne)]

/-- The end of a text is the end of what is appended to it, as long as the text
does not end in the class itself. -/
theorem rdropWhile_append_of_last {t : Str}
    (hlast : ∀ c, s.getLast? = some c → p c = false) :
    (s ++ t).rdropWhile p = s ++ t.rdropWhile p := by
  have hself : s.rdropWhile p = s := by
    rw [List.rdropWhile_eq_self_iff]
    intro hs
    rw [hlast _ (List.getLast?_eq_some_getLast hs)]
    exact Bool.false_ne_true
  rw [List.rdropWhile] at hself
  rw [List.rdropWhile, List.rdropWhile, List.reverse_append, List.dropWhile_append]
  split
  · rename_i hempty
    rw [List.isEmpty_iff.mp hempty, hself, List.reverse_nil, List.append_nil]
  · rw [List.reverse_append, List.reverse_reverse]

/-- A text without a character of the class. -/
theorem trimmed_of_all (h : ∀ c ∈ s, p c = false) : Trimmed p s where
  head := fun c hc => h c (List.mem_of_head? hc)
  last := fun c hc => h c (List.mem_of_getLast? hc)

/-- The ends of a text whose characters are replaced one by one. -/
theorem Trimmed.map {f : Nat → Nat} (hf : ∀ c ∈ s, p c = false → p (f c) = false)
    (h : Trimmed p s) : Trimmed p (s.map f) where
  head := by
    intro c hc
    rw [List.head?_map, Option.map_eq_some_iff] at hc
    obtain ⟨a, ha, rfl⟩ := hc
    exact hf a (List.mem_of_head? ha) (h.head a ha)
  last := by
    intro c hc
    rw [List.getLast?_map, Option.map_eq_some_iff] at hc
    obtain ⟨a, ha, rfl⟩ := hc
    exact hf a (List.mem_of_getLast? ha) (h.last a ha)

/-! ## runs -/

/-- No two neighbours are both the character. -/
def Squeezed (c : Nat) (s : Str) : Prop := s.IsChain fun a b => ¬ (a = c ∧ b = c)

/-- A character is kept, or stands for a run. -/
theorem mem_subRuns {rep c : Nat} {inRun : Bool} (h : c ∈ subRuns p rep inRun s) :
    c = rep ∨ (c ∈ s ∧ p c = false) := by
  induction s generalizing inRun with
  | nil => cases h
  | cons x xs ih =>
      have hrest {b : Bool} (hc : c ∈ subRuns p rep b xs) :
          c = rep ∨ (c ∈ x :: xs ∧ p c = false) :=
        (ih hc).imp_right fun ⟨hmem, hp⟩ => ⟨List.mem_cons_of_mem _ hmem, hp⟩
      rw [subRuns] at h
      split at h
      · split at h
        · exact hrest h
        · rcases List.mem_cons.mp h with rfl | h
          · exact .inl rfl
          · exact hrest h
      · rename_i hx
        rcases List.mem_cons.mp h with rfl | h
        · exact .inr ⟨List.mem_cons_self .., Bool.eq_false_iff.mpr hx⟩
        · exact hrest h

/-- Without runs nothing changes. -/
theorem subRuns_of_none {rep : Nat} {inRun : Bool} (h : ∀ c ∈ s, p c = false) :
    subRuns p rep inRun s = s := by
  induction s generalizing inRun with
  | nil => rfl
  | cons x xs ih =>
      rw [subRuns, h x (List.mem_cons_self ..), if_neg Bool.false_ne_true,
        ih fun c hc => h c (List.mem_cons_of_mem _ hc)]

/-- After a run the text goes on with another character. -/
theorem head?_subRuns_true {c : Nat} :
    (subRuns (· == c) c true s).head? ≠ some c := by
  induction s with
  | nil => exact fun h => by cases h
  | cons x xs ih =>
      rw [subRuns]
      split
      · exact ih
      · rename_i hx
        simpa using hx

/-- No run is left. -/
theorem squeezed_subRuns {c : Nat} {inRun : Bool} : Squeezed c (subRuns (· == c) c inRun s) := by
  induction s generalizing inRun with
  | nil => exact List.IsChain.nil
  | cons x xs ih =>
      rw [subRuns]
      split
      · split
        · exact ih
        · refine List.isChain_cons.mpr ⟨fun y hy hboth => ?_, ih⟩
          rw [hboth.2] at hy
          exact head?_subRuns_true hy
      · rename_i hx
        refine List.isChain_cons.mpr ⟨fun y _ hboth => hx ?_, ih⟩
        simpa using hboth.1

/-- Squeezing again changes nothing. -/
theorem subRuns_of_squeezed {c : Nat} (h : Squeezed c s) : subRuns (· == c) c false s = s := by
  induction s with
  | nil => rfl
  | cons x xs ih =>
      obtain ⟨hnext, hxs⟩ := List.isChain_cons.mp h
      rw [subRuns]
      by_cases hx : x = c
      · -- the next character starts no run of its own
        subst hx
        rw [if_pos (beq_self_eq_true x), if_neg Bool.false_ne_true]
        congr 1
        cases xs with
        | nil => rfl
        | cons y ys =>
            have hy : (y == x) = false := by
              have := hnext y rfl
              simpa using this
            rw [subRuns, hy, if_neg Bool.false_ne_true]
            have hih := ih hxs
            rw [subRuns, hy, if_neg Bool.false_ne_true] at hih
            exact hih
      · rw [if_neg (by simpa using hx), ih hxs]

/-- A map that makes no new separators. -/
theorem Squeezed.map {c : Nat} {f : Nat → Nat} (hf : ∀ a ∈ s, f a = c → a = c)
    (h : Squeezed c s) : Squeezed c (s.map f) := by
  rw [Squeezed, List.isChain_map]
  refine List.IsChain.imp_of_mem_imp (fun a b ha hb hab hboth => ?_) h
  exact hab ⟨hf a ha hboth.1, hf b hb hboth.2⟩

/-! ## what is not in the class stays -/

theorem mem_trim_of_not {c : Nat} (h : c ∈ s) (hc : p c = false) : c ∈ trim p s := by
  have hleft : ∀ {t : Str}, c ∈ t → c ∈ t.dropWhile p := by
    intro t ht
    induction t with
    | nil => cases ht
    | cons x xs ih =>
        rw [List.dropWhile_cons]
        split
        · next hx =>
            obtain rfl | hmem := List.mem_cons.mp ht
            · rw [hc] at hx
              cases hx
            · exact ih hmem
        · exact ht
  exact List.mem_reverse.mpr (hleft (List.mem_reverse.mpr (hleft h)))

theorem mem_subRuns_of_not {rep c : Nat} {inRun : Bool} (h : c ∈ s) (hc : p c = false) :
    c ∈ subRuns p rep inRun s := by
  induction s generalizing inRun with
  | nil => cases h
  | cons x xs ih =>
      rw [subRuns]
      split
      · next hx =>
          obtain rfl | hmem := List.mem_cons.mp h
          · rw [hc] at hx
            cases hx
          · split
            · exact ih hmem
            · exact List.mem_cons_of_mem _ (ih hmem)
      · obtain rfl | hmem := List.mem_cons.mp h
        · exact List.mem_cons_self
        · exact List.mem_cons_of_mem _ (ih hmem)

/-! ## words with a separator between them -/

/-- `w(cw)*`: words that are not empty, joined by single separators. -/
def JoinedWords (c : Nat) (p : Nat → Bool) (s : Str) : Prop :=
  ∃ (word : Str) (words : List Str), s = word ++ words.flatMap (c :: ·) ∧
    ∀ w ∈ word :: words, w ≠ [] ∧ ∀ a ∈ w, p a = true

/-- A text without neighbouring separators is a word and words after
separators; the first word is empty where the text starts with a separator. -/
theorem words_of_squeezed {c : Nat} (hs : Squeezed c s)
    (hlast : ∀ a, s.getLast? = some a → a ≠ c) (hchars : ∀ a ∈ s, a ≠ c → p a = true) :
    ∃ (word : Str) (words : List Str), s = word ++ words.flatMap (c :: ·) ∧
      (∀ a ∈ word, p a = true) ∧ (∀ w ∈ words, w ≠ [] ∧ ∀ a ∈ w, p a = true) ∧
      (s.head? ≠ some c → s ≠ [] → word ≠ []) := by
  induction s with
  | nil => exact ⟨[], [], rfl, by simp, by simp, fun _ h => absurd rfl h⟩
  | cons x xs ih =>
      obtain ⟨hnext, hxs⟩ := List.isChain_cons.mp hs
      have hlast' : ∀ a, xs.getLast? = some a → a ≠ c := by
        intro a ha
        refine hlast a ?_
        rw [List.getLast?_cons, ha]
        rfl
      obtain ⟨word, words, hsplit, hword, hwords, hne⟩ :=
        ih hxs hlast' fun a ha => hchars a (List.mem_cons_of_mem _ ha)
      by_cases hx : x = c
      · -- the separator is followed by a word
        have hxs_ne : xs ≠ [] := by
          intro hnil
          rw [hnil] at hlast
          exact hlast x rfl hx
        have hhead : xs.head? ≠ some c := fun h => hnext c h ⟨hx, rfl⟩
        refine ⟨[], word :: words, ?_, by simp, ?_, fun h => absurd (by rw [hx]; rfl) h⟩
        · rw [List.nil_append, List.flatMap_cons, ← hx, List.cons_append, hx, ← hsplit]
        · intro w hw
          obtain rfl | hw := List.mem_cons.mp hw
          · exact ⟨hne hhead hxs_ne, hword⟩
          · exact hwords w hw
      · refine ⟨x :: word, words, by rw [hsplit]; rfl, ?_, hwords, fun _ _ => List.cons_ne_nil _ _⟩
        intro a ha
        obtain rfl | ha := List.mem_cons.mp ha
        · exact hchars a List.mem_cons_self hx
        · exact hword a ha

/-- A squeezed and trimmed text is words joined by the separator. -/
theorem joinedWords_of_trimmed {c : Nat} (hne : s ≠ []) (hs : Squeezed c s)
    (ht : Trimmed (· == c) s) (hchars : ∀ a ∈ s, a ≠ c → p a = true) : JoinedWords c p s := by
  have hlast : ∀ a, s.getLast? = some a → a ≠ c := fun a ha => by simpa using ht.last a ha
  obtain ⟨word, words, hsplit, hword, hwords, hfirst⟩ := words_of_squeezed hs hlast hchars
  have hhead : s.head? ≠ some c := fun h => by simpa using ht.head c h
  refine ⟨word, words, hsplit, fun w hw => ?_⟩
  obtain rfl | hw := List.mem_cons.mp hw
  · exact ⟨hfirst hhead hne, hword⟩
  · exact hwords w hw

end Text
