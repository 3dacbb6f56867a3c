import Dn42Ctl.Lib.Text

/-!
# IpAddress

Which strings Python's `ipaddress` classes accept.  Only acceptance is
modelled: the callers keep the text and drop the parsed object.

The scope id of an IPv6 address (`fe80::1%eth0`) is any non-empty text without
`%`: the library puts no other condition on its characters.
-/

namespace IpAddress

open Text

/-! ## digits -/

def isHexDigit (c : Nat) : Bool :=
  (48 ≤ c && c ≤ 57) || (65 ≤ c && c ≤ 70) || (97 ≤ c && c ≤ 102)

/-- `s.isascii() and s.isdigit()`. -/
def isAsciiDigits (s : Str) : Bool := !s.isEmpty && s.all fun c => 48 ≤ c && c ≤ 57

/-- `int()` refuses a text of more digits than this. -/
def maxStrDigits : Nat := 4300

/-! ## IPv4 -/

/-- `_parse_octet` returns. -/
def isOctet (s : Str) : Bool :=
  isAsciiDigits s && decide (s.length ≤ 3) && (s == lit "0" || s.head? != some 48) &&
    (decimalValue s).any fun n => decide (n ≤ 255)

/-- `IPv4Address(s)` returns. -/
def isIPv4 (s : Str) : Bool :=
  !s.contains 47 && decide ((s.splitOn 46).length = 4) && (s.splitOn 46).all isOctet

/-! ## IPv6 -/

/-- `_parse_hextet` returns. -/
def isHextet (s : Str) : Bool := !s.isEmpty && s.all isHexDigit && decide (s.length ≤ 4)

/-- Replace an IPv4 suffix by the two hextets it stands for; `none` when the
suffix is not an IPv4 address. -/
def expandV4Suffix (parts : List Str) : Option (List Str) :=
  match parts.getLast? with
  | some last =>
      if last.contains 46 then
        if isIPv4 last then some (parts.dropLast ++ [lit "0", lit "0"]) else none
      else some parts
  | none => some parts

/-- `_ip_int_from_string` returns on these colon-separated parts. -/
def partsOk (parts : List Str) : Bool :=
  let interior := parts.tail.dropLast
  if 9 < parts.length then false
  else if 1 < interior.countP List.isEmpty then false
  else if interior.any List.isEmpty then
    -- one `::`: the parts before it and after it are hextets
    let skip := 1 + interior.findIdx List.isEmpty
    let hi := if (parts.headD []).isEmpty then skip - 1 else skip
    let lo :=
      if (parts.getLastD []).isEmpty then parts.length - skip - 2 else parts.length - skip - 1
    !((parts.headD []).isEmpty && decide (hi ≠ 0)) &&
      !((parts.getLastD []).isEmpty && decide (lo ≠ 0)) &&
      decide (hi + lo < 8) && (parts.take hi).all isHextet &&
      (parts.drop (parts.length - lo)).all isHextet
  else decide (parts.length = 8) && parts.all isHextet

/-- The address without its scope id. -/
def isIPv6Body (s : Str) : Bool :=
  decide (3 ≤ (s.splitOn 58).length) &&
    match expandV4Suffix (s.splitOn 58) with
    | none => false
    | some parts => partsOk parts

/-- `IPv6Address(s)` returns. -/
def isIPv6 (s : Str) : Bool :=
  !s.contains 47 &&
    match partition 37 s with
    | (addr, none) => isIPv6Body addr
    | (addr, some scope) => !scope.isEmpty && !scope.contains 37 && isIPv6Body addr

/-- `_prefix_from_prefix_string` returns. -/
def isPrefixLen (s : Str) : Bool :=
  isAsciiDigits s && decide (s.length ≤ maxStrDigits) &&
    (decimalValue s).any fun n => decide (n ≤ 128)

/-- `IPv6Interface(s)` returns; `IPv6Network(s, strict=False)` accepts the same
texts. -/
def isIPv6Interface (s : Str) : Bool :=
  match partition 47 s with
  | (addr, none) => isIPv6 addr
  | (addr, some mask) => isIPv6 addr && isPrefixLen mask

/-! ## characters -/

/-- An IPv4 address is made of ASCII digits and dots. -/
theorem isIPv4_chars {s : Str} (h : isIPv4 s = true) : ∀ c ∈ s, c = 46 ∨ 48 ≤ c ∧ c ≤ 57 := by
  simp only [isIPv4, Bool.and_eq_true] at h
  intro c hc
  by_cases hdot : c = 46
  · exact .inl hdot
  · obtain ⟨part, hpart, hmem⟩ := mem_splitOn hc hdot
    have hoctet := List.all_eq_true.mp h.2 part hpart
    simp only [isOctet, isAsciiDigits, Bool.and_eq_true, List.all_eq_true, decide_eq_true_eq]
      at hoctet
    exact .inr (hoctet.1.1.1.2 c hmem)

theorem isIPv6Body_colon {s : Str} (h : isIPv6Body s = true) : 58 ∈ s := by
  by_contra hnone
  rw [isIPv6Body, splitOn_of_notMem hnone] at h
  simp at h

/-- An IPv6 address has a colon. -/
theorem isIPv6_colon {s : Str} (h : isIPv6 s = true) : 58 ∈ s := by
  have hfront : isIPv6Body (partition 37 s).1 = true := by
    cases hparts : partition 37 s with
    | mk addr scope =>
        simp only [isIPv6, hparts, Bool.and_eq_true] at h
        cases scope with
        | none => exact h.2
        | some scope =>
            simp only [Bool.and_eq_true] at h
            exact h.2.2
  have hmem := isIPv6Body_colon hfront
  exact (List.takeWhile_prefix _).subset hmem

/-- The parts are hextets or empty. -/
theorem partsOk_chars {parts : List Str} (h : partsOk parts = true) :
    ∀ part ∈ parts, ∀ c ∈ part, isHexDigit c = true := by
  have hextet : ∀ {ps : List Str} {p : Str}, ps.all isHextet = true → p ∈ ps →
      ∀ c ∈ p, isHexDigit c = true := by
    intro ps p hps hp c hc
    have hp := List.all_eq_true.mp hps p hp
    simp only [isHextet, Bool.and_eq_true, List.all_eq_true] at hp
    exact hp.1.2 c hc
  intro part hpart
  obtain ⟨j, hj, rfl⟩ := List.mem_iff_getElem.mp hpart
  rw [partsOk] at h
  dsimp only at h
  split at h
  · cases h
  · split at h
    · cases h
    · split at h
      · rename_i hcount hsome
        simp only [Bool.and_eq_true, Bool.not_eq_true', Bool.and_eq_false_iff,
          decide_eq_false_iff_not, not_not] at h
        obtain ⟨⟨⟨⟨hhead, hlast⟩, -⟩, hfront⟩, hback⟩ := h
        have hskip := List.findIdx_lt_length_of_exists (List.any_eq_true.mp hsome)
        have hempty := List.findIdx_getElem (w := hskip)
        generalize hi : parts.tail.dropLast.findIdx List.isEmpty = i at *
        rw [List.length_dropLast, List.length_tail] at hskip
        have hgap : parts[i + 1].isEmpty = true := by
          rw [List.getElem_dropLast, List.getElem_tail] at hempty
          exact hempty
        have hvacuous : parts[j].isEmpty = true → ∀ c ∈ parts[j], isHexDigit c = true := by
          intro hnil c hc
          rw [List.isEmpty_iff.mp hnil] at hc
          cases hc
        have hfirst : parts.headD [] = parts[0] := by
          rw [List.headD_eq_head?_getD, List.head?_eq_getElem?, List.getElem?_eq_getElem (by omega)]
          rfl
        have hfinal : parts.getLastD [] = parts[parts.length - 1] := by
          rw [List.getLastD_eq_getLast?, List.getLast?_eq_getElem?,
            List.getElem?_eq_getElem (by omega)]
          rfl
        obtain hbefore | rfl | hafter := Nat.lt_trichotomy j (i + 1)
        · cases hhd : (parts.headD []).isEmpty with
          | true =>
              -- an empty first part means that the gap begins the address
              rw [hhd, if_pos rfl] at hhead
              have hskipped := hhead.resolve_left (by decide)
              have hzero : j = 0 := by omega
              subst hzero
              rw [hfirst] at hhd
              exact hvacuous hhd
          | false =>
              rw [hhd, if_neg Bool.false_ne_true] at hfront
              refine hextet hfront (List.mem_iff_getElem.mpr ⟨j, ?_, ?_⟩)
              · rw [List.length_take]
                omega
              · rw [List.getElem_take]
        · exact hvacuous hgap
        · cases hlst : (parts.getLastD []).isEmpty with
          | true =>
              rw [hlst, if_pos rfl] at hlast
              have hskipped := hlast.resolve_left (by decide)
              have hend : j = parts.length - 1 := by omega
              subst hend
              rw [hfinal] at hlst
              exact hvacuous hlst
          | false =>
              rw [hlst, if_neg Bool.false_ne_true] at hback
              refine hextet hback (List.mem_iff_getElem.mpr ⟨j - (i + 2), ?_, ?_⟩)
              · rw [List.length_drop]
                omega
              · rw [List.getElem_drop]
                congr 1
                omega
      · rw [Bool.and_eq_true] at h
        exact hextet h.2 (List.getElem_mem hj)

/-- An address without a scope id is made of hexadecimal digits, colons and
dots. -/
theorem isIPv6Body_chars {s : Str} (h : isIPv6Body s = true) :
    ∀ c ∈ s, isHexDigit c = true ∨ c = 58 ∨ c = 46 := by
  rw [isIPv6Body, Bool.and_eq_true] at h
  obtain ⟨-, h⟩ := h
  have hparts : ∀ part ∈ s.splitOn 58, ∀ c ∈ part, isHexDigit c = true ∨ c = 46 := by
    intro part hpart c hc
    cases hlast : (s.splitOn 58).getLast? with
    | none =>
        rw [List.getLast?_eq_none_iff] at hlast
        rw [hlast] at hpart
        cases hpart
    | some last =>
        rw [expandV4Suffix, hlast] at h
        dsimp only at h
        cases hdot : last.contains 46 with
        | false =>
            rw [hdot, if_neg Bool.false_ne_true] at h
            exact .inl (partsOk_chars h part hpart c hc)
        | true =>
            rw [hdot, if_pos rfl] at h
            cases hv4 : isIPv4 last with
            | false =>
                rw [hv4, if_neg Bool.false_ne_true] at h
                cases h
            | true =>
                rw [hv4, if_pos rfl] at h
                rw [← List.dropLast_append_getLast? last hlast, List.mem_append,
                  List.mem_singleton] at hpart
                obtain hpart | rfl := hpart
                · exact .inl (partsOk_chars h part (List.mem_append_left _ hpart) c hc)
                · obtain hc | hc := isIPv4_chars hv4 c hc
                  · exact .inr hc
                  · refine .inl ?_
                    simp [isHexDigit, hc]
  intro c hc
  by_cases hcolon : c = 58
  · exact .inr (.inl hcolon)
  · obtain ⟨part, hpart, hmem⟩ := mem_splitOn hc hcolon
    obtain hc | hc := hparts part hpart c hmem
    · exact .inl hc
    · exact .inr (.inr hc)

/-- The same of an interface whose address has no scope id, which may have a slash. -/
theorem isIPv6Interface_chars {s : Str} (h : isIPv6Interface s = true) (hscope : 37 ∉ s) :
    ∀ c ∈ s, isHexDigit c = true ∨ c = 58 ∨ c = 46 ∨ c = 47 := by
  have haddr : ∀ {a : Str}, isIPv6 a = true → 37 ∉ a → ∀ c ∈ a,
      isHexDigit c = true ∨ c = 58 ∨ c = 46 := by
    intro a ha hnone
    rw [isIPv6, partition_of_notMem hnone, Bool.and_eq_true] at ha
    exact isIPv6Body_chars ha.2
  by_cases hslash : 47 ∈ s
  · obtain ⟨a, mask, rfl, ha⟩ := List.eq_append_cons_of_mem hslash
    rw [isIPv6Interface, partition_append ha, Bool.and_eq_true] at h
    simp only [isPrefixLen, isAsciiDigits, Bool.and_eq_true, List.all_eq_true,
      decide_eq_true_eq] at h
    intro c hc
    simp only [List.mem_append, List.mem_cons] at hc hscope
    obtain hc | rfl | hc := hc
    · obtain hc | hc | hc := haddr h.1 (fun hmem => hscope (.inl hmem)) c hc
      · exact .inl hc
      · exact .inr (.inl hc)
      · exact .inr (.inr (.inl hc))
    · exact .inr (.inr (.inr rfl))
    · refine .inl ?_
      simp [isHexDigit, h.2.1.1.2 c hc]
  · rw [isIPv6Interface, partition_of_notMem hslash] at h
    intro c hc
    obtain hc | hc | hc := haddr h hscope c hc
    · exact .inl hc
    · exact .inr (.inl hc)
    · exact .inr (.inr (.inl hc))

end IpAddress
