import Dn42Ctl.Lib.Text

/-!
# Base64

`base64.b64decode(s, validate=True)`: the strict mode of `binascii.a2b_base64`,
character by character.  Padding after a complete group of four is skipped, and
the unused low bits of the last character are not looked at.  `b64encode`
leaves those bits clear, so it inverts the decoder from the right only
(`b64decode_b64encode`), and from the left up to those bits
(`b64encode_of_decodeFrom`).
-/

namespace Base64

open Text

/-- The value of a character of the standard alphabet. -/
def charValue (c : Nat) : Option Nat :=
  if 65 ≤ c ∧ c ≤ 90 then some (c - 65)
  else if 97 ≤ c ∧ c ≤ 122 then some (c - 97 + 26)
  else if 48 ≤ c ∧ c ≤ 57 then some (c - 48 + 52)
  else if c = 43 then some 62
  else if c = 47 then some 63
  else none

/-- The character with a value. -/
def alphabetChar (v : Nat) : Nat :=
  if v < 26 then v + 65
  else if v < 52 then v - 26 + 97
  else if v < 62 then v - 52 + 48
  else if v = 62 then 43
  else 47

/-- Where the decoder stands: the position in the group of four, the bits left
over from the last character, and the padding seen in this group. -/
structure State where
  quadPos : Nat := 0
  leftChar : Nat := 0
  pads : Nat := 0
  paddingStarted : Bool := false
deriving DecidableEq, Repr

/-- One data character: the byte it completes, if any. -/
def State.push (st : State) (v : Nat) : List Nat × State :=
  match st.quadPos with
  | 0 => ([], { st with quadPos := 1, leftChar := v, pads := 0 })
  | 1 => ([st.leftChar * 4 + v / 16], { st with quadPos := 2, leftChar := v % 16, pads := 0 })
  | 2 => ([st.leftChar * 16 + v / 4], { st with quadPos := 3, leftChar := v % 4, pads := 0 })
  | _ => ([st.leftChar * 64 + v], { st with quadPos := 0, leftChar := 0, pads := 0 })

/-- The decoding loop. -/
def decodeFrom : State → Str → Option (List Nat)
  | st, [] => if st.quadPos = 0 then some [] else none
  | st, c :: cs =>
      if c = 61 then
        if 2 ≤ st.quadPos ∧ 4 ≤ st.quadPos + (st.pads + 1) then
          if cs.isEmpty then some [] else none
        else
          decodeFrom { st with
            paddingStarted := true,
            pads := if 2 ≤ st.quadPos then st.pads + 1 else st.pads } cs
      else
        match charValue c with
        | none => none
        | some v =>
            if st.paddingStarted then none
            else (decodeFrom (st.push v).2 cs).map fun out => (st.push v).1 ++ out

/-- `b64decode(s, validate=True)`; `none` when it raises. -/
def b64decode (s : Str) : Option (List Nat) :=
  if s.any fun c => decide (128 ≤ c) then none
  else if s.head? = some 61 then none
  else decodeFrom {} s

/-- `b64encode(raw)`. -/
def b64encode : List Nat → Str
  | a :: b :: c :: rest =>
      alphabetChar (a / 4) :: alphabetChar (a % 4 * 16 + b / 16) ::
        alphabetChar (b % 16 * 4 + c / 64) :: alphabetChar (c % 64) :: b64encode rest
  | [a, b] =>
      [alphabetChar (a / 4), alphabetChar (a % 4 * 16 + b / 16), alphabetChar (b % 16 * 4), 61]
  | [a] => [alphabetChar (a / 4), alphabetChar (a % 4 * 16), 61, 61]
  | [] => []

/-! ## the alphabet -/

/-- A character of the alphabet has a value of six bits. -/
theorem charValue_lt {c v : Nat} (h : charValue c = some v) : v < 64 := by
  unfold charValue at h
  split_ifs at h <;> simp only [Option.some.injEq] at h <;> omega

/-- It is not the padding. -/
theorem charValue_ne_pad {c v : Nat} (h : charValue c = some v) : c ≠ 61 := by
  rintro rfl
  simp [charValue] at h

/-- It is ASCII. -/
theorem charValue_ascii {c v : Nat} (h : charValue c = some v) : c < 128 := by
  unfold charValue at h
  split_ifs at h <;> omega

/-- Reading a written character gives its value. -/
theorem charValue_alphabetChar : ∀ {v : Nat}, v < 64 → charValue (alphabetChar v) = some v := by
  decide

/-- Writing a read character gives it back. -/
theorem alphabetChar_charValue {c v : Nat} (h : charValue c = some v) : alphabetChar v = c := by
  unfold charValue at h
  unfold alphabetChar
  split_ifs at h <;> simp only [Option.some.injEq] at h <;> split_ifs <;> omega

/-! ## decoding in groups of four -/

/-- What decodes is made of alphabet characters and padding. -/
theorem alphabet_of_decodeFrom {st : State} {s : Str} {out : List Nat}
    (h : decodeFrom st s = some out) : ∀ c ∈ s, c = 61 ∨ (charValue c).isSome := by
  induction s generalizing st out with
  | nil => simp
  | cons c cs ih =>
      rw [decodeFrom] at h
      intro x hx
      by_cases hc : c = 61
      · rw [if_pos hc] at h
        rcases List.mem_cons.mp hx with rfl | hx
        · exact .inl hc
        · split at h
          · split at h
            · rename_i hemp
              rw [List.isEmpty_iff] at hemp
              simp [hemp] at hx
            · simp at h
          · exact ih h x hx
      · rw [if_neg hc] at h
        cases hv : charValue c with
        | none => simp [hv] at h
        | some v =>
            simp only [hv] at h
            split at h
            · simp at h
            · obtain ⟨out', hout, -⟩ := Option.map_eq_some_iff.mp h
              rcases List.mem_cons.mp hx with rfl | hx
              · exact .inr (by rw [hv]; rfl)
              · exact ih hout x hx

/-- A data character is pushed. -/
theorem decodeFrom_data {st : State} {c v : Nat} (h : charValue c = some v)
    (hpad : st.paddingStarted = false) (cs : Str) :
    decodeFrom st (c :: cs) =
      (decodeFrom (st.push v).2 cs).map fun out => (st.push v).1 ++ out := by
  rw [decodeFrom, if_neg (charValue_ne_pad h), h]
  simp [hpad]

/-- Four characters give three bytes, and the decoder stands where it began. -/
theorem decodeFrom_group {w x y z a b c d : Nat} (hw : charValue w = some a)
    (hx : charValue x = some b) (hy : charValue y = some c) (hz : charValue z = some d)
    (rest : Str) :
    decodeFrom {} (w :: x :: y :: z :: rest) =
      (decodeFrom {} rest).map fun out =>
        (a * 4 + b / 16) :: (b % 16 * 16 + c / 4) :: (c % 4 * 64 + d) :: out := by
  rw [decodeFrom_data hw rfl, decodeFrom_data hx rfl, decodeFrom_data hy rfl,
    decodeFrom_data hz rfl]
  simp only [State.push, Option.map_map]
  rfl

/-- The last group of a text of three characters and one pad. -/
theorem decodeFrom_tail {w x y a b c : Nat} (hw : charValue w = some a)
    (hx : charValue x = some b) (hy : charValue y = some c) :
    decodeFrom {} [w, x, y, 61] = some [a * 4 + b / 16, b % 16 * 16 + c / 4] := by
  rw [decodeFrom_data hw rfl, decodeFrom_data hx rfl, decodeFrom_data hy rfl]
  simp [State.push, decodeFrom]

/-- Once padding has started outside the second half of a group, nothing is
decoded any more. -/
theorem decodeFrom_padding {st : State} {s : Str} {out : List Nat}
    (hpad : st.paddingStarted = true) (hpos : st.quadPos < 2)
    (h : decodeFrom st s = some out) : st.quadPos = 0 ∧ out = [] := by
  induction s generalizing st with
  | nil =>
      rw [decodeFrom] at h
      split at h
      · rename_i hzero
        exact ⟨hzero, (Option.some.inj h).symm⟩
      · cases h
  | cons c cs ih =>
      rw [decodeFrom] at h
      by_cases hc : c = 61
      · rw [if_pos hc, if_neg (by omega)] at h
        apply ih _ _ h
        · rfl
        · exact hpos
      · rw [if_neg hc] at h
        cases hv : charValue c with
        | none => simp [hv] at h
        | some v => simp [hv, hpad] at h

/-! ## encoding and back -/

/-- What is encoded decodes. -/
theorem decodeFrom_b64encode {raw : List Nat} (h : ∀ b ∈ raw, b < 256) :
    decodeFrom {} (b64encode raw) = some raw := by
  induction raw using b64encode.induct with
  | case1 a b c rest ih =>
      have ha : a < 256 := h a (by simp)
      have hb : b < 256 := h b (by simp)
      have hc : c < 256 := h c (by simp)
      rw [b64encode, decodeFrom_group (charValue_alphabetChar (by omega))
        (charValue_alphabetChar (by omega)) (charValue_alphabetChar (by omega))
        (charValue_alphabetChar (by omega)), ih fun x hx => h x (by simp [hx])]
      simp only [Option.map_some, Option.some.injEq, List.cons.injEq, and_true]
      omega
  | case2 a b =>
      have ha : a < 256 := h a (by simp)
      have hb : b < 256 := h b (by simp)
      rw [b64encode, decodeFrom_tail (charValue_alphabetChar (by omega))
        (charValue_alphabetChar (by omega)) (charValue_alphabetChar (by omega))]
      simp only [Option.some.injEq, List.cons.injEq, and_true]
      omega
  | case3 a =>
      have ha : a < 256 := h a (by simp)
      rw [b64encode, decodeFrom_data (charValue_alphabetChar (by omega)) rfl,
        decodeFrom_data (charValue_alphabetChar (by omega)) rfl]
      simp [State.push, decodeFrom]
      omega
  | case4 => rfl

/-- An encoding is ASCII. -/
theorem b64encode_ascii {raw : List Nat} (h : ∀ b ∈ raw, b < 256) :
    ∀ c ∈ b64encode raw, c < 128 := by
  intro c hc
  rcases alphabet_of_decodeFrom (decodeFrom_b64encode h) c hc with rfl | hsome
  · decide
  · obtain ⟨v, hv⟩ := Option.isSome_iff_exists.mp hsome
    exact charValue_ascii hv

/-- It does not begin with padding. -/
theorem b64encode_head {raw : List Nat} (h : ∀ b ∈ raw, b < 256) :
    (b64encode raw).head? ≠ some 61 := by
  have hne : ∀ a ∈ raw, alphabetChar (a / 4) ≠ 61 := by
    intro a ha
    have hlt : a / 4 < 64 := by
      have := h a ha
      omega
    exact charValue_ne_pad (charValue_alphabetChar hlt)
  cases raw using b64encode.fun_cases with
  | case1 a b c rest => simpa [b64encode] using hne a (by simp)
  | case2 a b => simpa [b64encode] using hne a (by simp)
  | case3 a => simpa [b64encode] using hne a (by simp)
  | case4 => simp [b64encode]

/-- On such texts `b64decode` is the plain scan. -/
theorem b64decode_eq_decodeFrom {s : Str} (hascii : ∀ c ∈ s, c < 128)
    (hhead : s.head? ≠ some 61) : b64decode s = decodeFrom {} s := by
  have hany : s.any (fun c => decide (128 ≤ c)) = false := by
    rw [List.any_eq_false]
    intro c hc
    have hlt := hascii c hc
    simp only [decide_eq_true_eq]
    omega
  rw [b64decode, hany, if_neg (by simp), if_neg hhead]

/-- What `b64decode` accepts, the scan accepts. -/
theorem decodeFrom_of_b64decode {s : Str} {out : List Nat} (h : b64decode s = some out) :
    decodeFrom {} s = some out := by
  rw [b64decode] at h
  split at h
  · cases h
  · split at h
    · cases h
    · exact h

/-- Decoding inverts encoding. -/
theorem b64decode_b64encode {raw : List Nat} (h : ∀ b ∈ raw, b < 256) :
    b64decode (b64encode raw) = some raw := by
  rw [b64decode_eq_decodeFrom (b64encode_ascii h) (b64encode_head h), decodeFrom_b64encode h]

/-! ## texts with one pad -/

/-- A text whose last group is three characters and a pad; `tail` is the value
of the last character, whose two low bits no byte takes. -/
inductive OnePad : Nat → Str → Prop where
  | last {w x y a b c : Nat} (hw : charValue w = some a) (hx : charValue x = some b)
      (hy : charValue y = some c) : OnePad c [w, x, y, 61]
  | group {tail w x y z a b c d : Nat} {rest : Str} (hw : charValue w = some a)
      (hx : charValue x = some b) (hy : charValue y = some c) (hz : charValue z = some d)
      (hrest : OnePad tail rest) : OnePad tail (w :: x :: y :: z :: rest)

namespace OnePad

variable {tail : Nat} {s : Str} {out : List Nat}

/-- Such a text decodes: three bytes for each group, two for the last. -/
theorem decodes (h : OnePad tail s) :
    ∃ out, decodeFrom {} s = some out ∧ (∀ b ∈ out, b < 256) ∧
      4 * (out.length + 1) = 3 * s.length := by
  induction h with
  | last hw hx hy =>
      have ha := charValue_lt hw
      have hb := charValue_lt hx
      have hc := charValue_lt hy
      refine ⟨_, decodeFrom_tail hw hx hy, ?_, rfl⟩
      intro v hv
      simp only [List.mem_cons, List.not_mem_nil, or_false] at hv
      omega
  | group hw hx hy hz hrest ih =>
      have ha := charValue_lt hw
      have hb := charValue_lt hx
      have hc := charValue_lt hy
      have hd := charValue_lt hz
      obtain ⟨out, hout, hbytes, hlen⟩ := ih
      refine ⟨_, by rw [decodeFrom_group hw hx hy hz, hout]; rfl, ?_, ?_⟩
      · intro v hv
        simp only [List.mem_cons] at hv
        rcases hv with rfl | rfl | rfl | hv
        · omega
        · omega
        · omega
        · exact hbytes v hv
      · simp only [List.length_cons] at hlen ⊢
        omega

/-- Encoding what was decoded gives the text back when the bits that were
dropped are clear, and only then. -/
theorem encodes_iff (h : OnePad tail s) (hdec : decodeFrom {} s = some out) :
    b64encode out = s ↔ tail % 4 = 0 := by
  induction h generalizing out with
  | @last w x y a b c hw hx hy =>
      have ha := charValue_lt hw
      have hb := charValue_lt hx
      have hc := charValue_lt hy
      have hfirst : (a * 4 + b / 16) / 4 = a := by omega
      have hsecond : (a * 4 + b / 16) % 4 * 16 + (b % 16 * 16 + c / 4) / 16 = b := by omega
      have hthird : (b % 16 * 16 + c / 4) % 16 * 4 = c / 4 * 4 := by omega
      rw [decodeFrom_tail hw hx hy] at hdec
      cases hdec
      rw [b64encode, hfirst, hsecond, hthird, alphabetChar_charValue hw, alphabetChar_charValue hx]
      simp only [List.cons.injEq, true_and, and_true]
      constructor
      · intro heq
        have hval := charValue_alphabetChar (v := c / 4 * 4) (by omega)
        rw [heq, hy, Option.some.injEq] at hval
        omega
      · intro hclear
        have hsame : c / 4 * 4 = c := by omega
        rw [hsame, alphabetChar_charValue hy]
  | @group tail w x y z a b c d rest hw hx hy hz hrest ih =>
      have ha := charValue_lt hw
      have hb := charValue_lt hx
      have hc := charValue_lt hy
      have hd := charValue_lt hz
      have hfirst : (a * 4 + b / 16) / 4 = a := by omega
      have hsecond : (a * 4 + b / 16) % 4 * 16 + (b % 16 * 16 + c / 4) / 16 = b := by omega
      have hthird : (b % 16 * 16 + c / 4) % 16 * 4 + (c % 4 * 64 + d) / 64 = c := by omega
      have hfourth : (c % 4 * 64 + d) % 64 = d := by omega
      rw [decodeFrom_group hw hx hy hz] at hdec
      obtain ⟨inner, hinner, rfl⟩ := Option.map_eq_some_iff.mp hdec
      rw [b64encode, hfirst, hsecond, hthird, hfourth, alphabetChar_charValue hw,
        alphabetChar_charValue hx, alphabetChar_charValue hy, alphabetChar_charValue hz]
      simp only [List.cons.injEq, true_and]
      exact ih hinner

theorem b64decode_eq (h : OnePad tail s) : b64decode s = decodeFrom {} s := by
  apply b64decode_eq_decodeFrom
  · obtain ⟨out, hout, -⟩ := h.decodes
    intro c hc
    rcases alphabet_of_decodeFrom hout c hc with rfl | hsome
    · decide
    · obtain ⟨v, hv⟩ := Option.isSome_iff_exists.mp hsome
      exact charValue_ascii hv
  · cases h with
    | last hw => simpa using charValue_ne_pad hw
    | group hw => simpa using charValue_ne_pad hw

end OnePad

/-- The characters of a group before its padding are data, unless nothing more
is decoded. -/
theorem data_of_decodeFrom {c : Nat} {cs : Str} {out : List Nat} {st : State}
    (hpad : st.paddingStarted = false) (h : decodeFrom st (c :: cs) = some out) :
    c = 61 ∨ ∃ v out', charValue c = some v ∧ decodeFrom (st.push v).2 cs = some out' ∧
      out = (st.push v).1 ++ out' := by
  by_cases hc : c = 61
  · exact .inl hc
  · cases hv : charValue c with
    | none =>
        rw [decodeFrom, if_neg hc, hv] at h
        cases h
    | some v =>
        rw [decodeFrom_data hv hpad] at h
        obtain ⟨out', hout', rfl⟩ := Option.map_eq_some_iff.mp h
        exact .inr ⟨v, out', rfl, hout', rfl⟩

/-- A text accepted from padding in the first half of a quad on yields nothing more. -/
theorem pad_early {st : State} {cs : Str} {out : List Nat} (hpos : st.quadPos < 2)
    (h : decodeFrom st (61 :: cs) = some out) : out = [] := by
  rw [decodeFrom, if_pos rfl, if_neg (by omega)] at h
  exact (decodeFrom_padding (by rfl) (by exact hpos) h).2

/-- Nor does one accepted from padding after two characters on. -/
theorem pad_at_two {l : Nat} {cs : Str} {out : List Nat}
    (h : decodeFrom ⟨2, l, 0, false⟩ (61 :: cs) = some out) : out = [] := by
  rw [decodeFrom, if_pos rfl, if_neg (by simp)] at h
  cases cs with
  | nil => simp [decodeFrom] at h
  | cons c cs =>
      rw [decodeFrom] at h
      split at h
      · rw [if_pos (by simp)] at h
        split at h
        · exact (Option.some.inj h).symm
        · cases h
      · cases hv : charValue c with
        | none => simp [hv] at h
        | some v => simp [hv] at h

/-- Padding after three characters ends the text. -/
theorem pad_at_three {l : Nat} {cs : Str} {out : List Nat}
    (h : decodeFrom ⟨3, l, 0, false⟩ (61 :: cs) = some out) : cs = [] ∧ out = [] := by
  rw [decodeFrom, if_pos rfl, if_pos (by simp)] at h
  split at h
  · rename_i hnil
    exact ⟨List.isEmpty_iff.mp hnil, (Option.some.inj h).symm⟩
  · cases h

/-- A text that decodes to two bytes beyond whole groups ends in one pad. -/
theorem onePad_of_decodeFrom {s : Str} {out : List Nat} (h : decodeFrom {} s = some out)
    (hlen : out.length % 3 = 2) : ∃ tail, OnePad tail s := by
  -- by the length of the text, a group of four at a time
  induction hn : s.length using Nat.strong_induction_on generalizing s out with
  | _ n ih =>
      match s with
      | [] =>
          cases h
          simp at hlen
      | [w] =>
          rcases data_of_decodeFrom rfl h with rfl | ⟨a, out1, hw, h1, rfl⟩
          · rw [pad_early (by decide) h] at hlen
            simp at hlen
          · simp [State.push, decodeFrom] at h1
      | [w, x] =>
          rcases data_of_decodeFrom rfl h with rfl | ⟨a, out1, hw, h1, rfl⟩
          · rw [pad_early (by decide) h] at hlen
            simp at hlen
          · rcases data_of_decodeFrom rfl h1 with rfl | ⟨b, out2, hx, h2, rfl⟩
            · simp [State.push, decodeFrom] at h1
            · simp [State.push, decodeFrom] at h2
      | w :: x :: y :: cs =>
          rcases data_of_decodeFrom rfl h with rfl | ⟨a, out1, hw, h1, rfl⟩
          · rw [pad_early (by decide) h] at hlen
            simp at hlen
          · rcases data_of_decodeFrom rfl h1 with rfl | ⟨b, out2, hx, h2, rfl⟩
            · rw [pad_early (by simp [State.push]) h1] at hlen
              simp at hlen
            · rcases data_of_decodeFrom rfl h2 with rfl | ⟨c, out3, hy, h3, rfl⟩
              · rw [pad_at_two h2] at hlen
                simp [State.push] at hlen
              · cases cs with
                | nil => simp [State.push, decodeFrom] at h3
                | cons z cs =>
                    rcases data_of_decodeFrom rfl h3 with rfl | ⟨d, out4, hz, h4, rfl⟩
                    · obtain ⟨rfl, -⟩ := pad_at_three h3
                      exact ⟨c, .last hw hx hy⟩
                    · have hrest : out4.length % 3 = 2 := by
                        simp only [State.push, List.singleton_append, List.length_cons] at hlen
                        omega
                      have hlt : cs.length < n := by
                        simp only [List.length_cons] at hn
                        omega
                      obtain ⟨tail, htail⟩ := ih cs.length hlt h4 hrest rfl
                      exact ⟨tail, .group hw hx hy hz htail⟩

end Base64
