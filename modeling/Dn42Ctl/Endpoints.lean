import Dn42Ctl.Validators
import Dn42Ctl.Lib.Digits
import Dn42Ctl.Lib.Trim

/-!
# Endpoints

Endpoint texts and the pairs of host and port they stand for.
`format_endpoint` puts brackets around what the address parser takes for an
IPv6 literal; `split_endpoint` drops whatever brackets it finds, and the regular
expression lets more than a literal stand between them.

* `splitEndpoint_ok_iff`, `formatEndpoint_cases` — what the two functions do;
* `split_format_iff` — for which hosts the pair comes back;
* `endpoints_agree_iff` — so for which valid hosts, and for which endpoints.
-/

namespace Dn42Ctl

open Text IpAddress

/-! ## the host of an endpoint -/

/-- The text stands between brackets. -/
def Bracketed (host : Str) : Prop := host.head? = some 91 ∧ host.getLast? = some 93

theorem bracketed_iff (host : Str) : Bracketed host ↔ ∃ inner, host = 91 :: inner ++ [93] := by
  constructor
  · rintro ⟨hhead, hlast⟩
    obtain ⟨rest, rfl⟩ := List.head?_eq_some_iff.mp hhead
    obtain ⟨front, hfront⟩ := List.getLast?_eq_some_iff.mp hlast
    cases front with
    | nil => simp at hfront
    | cons c inner =>
        simp only [List.cons_append, List.cons.injEq] at hfront
        obtain ⟨rfl, rfl⟩ := hfront
        exact ⟨inner, rfl⟩
  · rintro ⟨inner, rfl⟩
    exact ⟨rfl, List.getLast?_concat⟩

theorem unbracket_brackets (inner : Str) : unbracket (91 :: inner ++ [93]) = inner := by
  have hdrop : unbracket (91 :: inner ++ [93]) = (91 :: inner ++ [93]).tail.dropLast :=
    if_pos ((bracketed_iff _).mpr ⟨inner, rfl⟩)
  rw [hdrop]
  simp

theorem unbracket_bare {host : Str} (h : ¬ Bracketed host) : unbracket host = host :=
  if_neg h

theorem length_unbracket (host : Str) :
    (unbracket host).length ≤ host.length ∧
      ((unbracket host).length = host.length → ¬ Bracketed host) := by
  by_cases h : Bracketed host
  · obtain ⟨inner, rfl⟩ := (bracketed_iff host).mp h
    rw [unbracket_brackets]
    simp only [List.length_cons, List.length_append, List.length_nil]
    omega
  · rw [unbracket_bare h]
    exact ⟨Nat.le_refl _, fun _ => h⟩

theorem length_strip (s : Str) :
    (strip s).length ≤ s.length ∧ ((strip s).length = s.length → strip s = s) :=
  ⟨(trim_part isSpace s).length_le, (trim_part isSpace s).eq_of_length⟩

/-- The two alternatives of `_ENDPOINT_RE`. -/
theorem isEndpointHost_iff (host : Str) :
    isEndpointHost host = true ↔
      (∃ inner, host = 91 :: inner ++ [93] ∧ inner ≠ [] ∧ 10 ∉ inner) ∨
        (host ≠ [] ∧ 58 ∉ host) := by
  have hbare : (!host.isEmpty && !host.contains 58) = true ↔ host ≠ [] ∧ 58 ∉ host := by
    simp
  have hbracket : (decide (3 ≤ host.length) && host.head? == some 91 && host.getLast? == some 93 &&
        !(host.tail.dropLast).contains 10) = true ↔
      ∃ inner, host = 91 :: inner ++ [93] ∧ inner ≠ [] ∧ 10 ∉ inner := by
    simp only [Bool.and_eq_true, decide_eq_true_eq, beq_iff_eq, Bool.not_eq_true',
      List.contains_eq_mem, decide_eq_false_iff_not]
    constructor
    · rintro ⟨⟨⟨hlen, hhead⟩, hlast⟩, hline⟩
      obtain ⟨inner, rfl⟩ := (bracketed_iff host).mp ⟨hhead, hlast⟩
      refine ⟨inner, rfl, ?_, by simpa using hline⟩
      rintro rfl
      simp at hlen
    · rintro ⟨inner, rfl, hne, hline⟩
      have hlen : 0 < inner.length := List.length_pos_iff.mpr hne
      refine ⟨⟨⟨?_, rfl⟩, List.getLast?_concat⟩, by simpa using hline⟩
      simp only [List.length_cons, List.length_append, List.length_nil]
      omega
  rw [isEndpointHost, Bool.or_eq_true, hbare, hbracket]

/-! ## taking an endpoint apart -/

/-- The parts of an endpoint text: host and digits. -/
structure EndpointParts (value host digits : Str) : Prop where
  text : value = host ++ 58 :: digits
  digits_ne : digits ≠ []
  digits_all : digits.all isDigit = true
  host_ok : isEndpointHost host = true

theorem colon_notMem_digits {digits : Str} (h : digits.all isDigit = true) : 58 ∉ digits := by
  intro hmem
  have hcolon := List.all_eq_true.mp h 58 hmem
  exact absurd hcolon (by decide)

theorem matchEndpoint_eq_some {value host digits : Str} :
    matchEndpoint value = some (host, digits) ↔ EndpointParts value host digits := by
  rw [matchEndpoint]
  constructor
  · intro h
    cases hparts : rpartition 58 value with
    | none => simp [hparts] at h
    | some parts =>
        simp only [hparts] at h
        split at h
        · rename_i hcond
          cases h
          simp only [Bool.and_eq_true, Bool.not_eq_true', List.isEmpty_eq_false_iff] at hcond
          exact ⟨(rpartition_eq_some hparts).1, hcond.1.1, hcond.1.2, hcond.2⟩
        · cases h
  · rintro ⟨rfl, hne, hall, hhost⟩
    rw [rpartition_append (colon_notMem_digits hall)]
    simp [hne, hall, hhost]

theorem EndpointParts.unique {value host host' digits digits' : Str}
    (h : EndpointParts value host digits) (h' : EndpointParts value host' digits') :
    host' = host ∧ digits' = digits := by
  rw [← matchEndpoint_eq_some] at h h'
  rw [h, Option.some.injEq, Prod.mk.injEq] at h'
  exact ⟨h'.1.symm, h'.2.symm⟩

/-- The port of the digits is in range; six digits are refused unread. -/
def PortDigits (digits : Str) (port : Nat) : Prop :=
  digits.length ≤ 5 ∧ decimalValue digits = some port ∧ 1 ≤ port ∧ port ≤ 65535

theorem validateEndpoint_ok_iff (e v : Str) :
    validateEndpoint e = .ok v ↔
      v = strip e ∧ ∃ host digits port, EndpointParts v host digits ∧ PortDigits digits port := by
  constructor
  · intro h
    simp only [validateEndpoint] at h
    split at h
    · cases h
    · cases hmatch : matchEndpoint (strip e) with
      | none =>
          rw [hmatch] at h
          cases h
      | some parts =>
          obtain ⟨host, digits⟩ := parts
          have hparts := matchEndpoint_eq_some.mp hmatch
          obtain ⟨port, hport⟩ := Option.isSome_iff_exists.mp (decimalValue_isSome hparts.digits_all)
          simp only [hmatch, hport, Option.getD_some] at h
          split at h
          · cases h
          · rename_i hshort
            split at h
            · rename_i hrange
              cases h
              exact ⟨rfl, host, digits, port, hparts, by omega, hport, hrange.1, hrange.2⟩
            · cases h
  · rintro ⟨rfl, host, digits, port, hparts, hshort, hport, hlo, hhi⟩
    have hne : (strip e).isEmpty = false := by
      rw [List.isEmpty_eq_false_iff, hparts.text]
      simp
    have hmatch := matchEndpoint_eq_some.mpr hparts
    simp only [validateEndpoint, hne, hmatch, hport, Option.getD_some]
    rw [if_neg (by simp), if_neg (by omega), if_pos ⟨hlo, hhi⟩]
    rfl

theorem splitEndpoint_ok_iff (e host : Str) (port : Nat) :
    splitEndpoint e = .ok (host, port) ↔
      ∃ text digits, EndpointParts (strip e) text digits ∧ PortDigits digits port ∧
        host = unbracket text := by
  constructor
  · intro h
    obtain ⟨value, hvalid, h⟩ := Prog.bind_eq_ok.mp h
    obtain ⟨rfl, text, digits, port', hparts, hport⟩ := (validateEndpoint_ok_iff e value).mp hvalid
    rw [matchEndpoint_eq_some.mpr hparts] at h
    simp only [hport.2.1, Option.getD_some] at h
    cases h
    exact ⟨text, digits, hparts, hport, rfl⟩
  · rintro ⟨text, digits, hparts, hport, rfl⟩
    have hvalid := (validateEndpoint_ok_iff e _).mpr ⟨rfl, text, digits, port, hparts, hport⟩
    rw [splitEndpoint]
    apply Prog.bind_eq_ok.mpr
    refine ⟨_, hvalid, ?_⟩
    rw [matchEndpoint_eq_some.mpr hparts]
    simp only [hport.2.1, Option.getD_some]
    rfl

/-! ## putting an endpoint together -/

/-- `format_endpoint` takes the text for an IPv6 literal. -/
def NeedsBrackets (host : Str) : Prop := isIPv4 host = false ∧ isIPv6 host = true

/-- What `format_endpoint` returns. -/
theorem formatEndpoint_cases (host : Str) (port : Nat) :
    (NeedsBrackets (unbracket (strip host)) ∧
        formatEndpoint host port = (91 :: unbracket (strip host) ++ [93]) ++ 58 :: ofInt port) ∨
      (¬ NeedsBrackets (unbracket (strip host)) ∧
        formatEndpoint host port = unbracket (strip host) ++ 58 :: ofInt port) := by
  simp only [formatEndpoint]
  split
  · rename_i h
    simp only [Bool.and_eq_true, Bool.not_eq_true'] at h
    exact .inl ⟨h, by simp⟩
  · rename_i h
    simp only [Bool.and_eq_true, Bool.not_eq_true'] at h
    exact .inr ⟨h, rfl⟩

theorem portDigits_ofInt {port : Nat} (hlo : 1 ≤ port) (hhi : port ≤ 65535) :
    PortDigits (ofInt port) port := by
  refine ⟨?_, decimalValue_ofInt port, hlo, hhi⟩
  show ((Nat.toDigits 10 port).map Char.toNat).length ≤ 5
  rw [List.length_map, Nat.length_toDigits_le_iff (by decide) (by decide)]
  omega

/-- A host that comes back from an endpoint: not empty, no white space around
it, no brackets, and an IPv6 literal when there is a colon in it. -/
structure PlainHost (host : Str) : Prop where
  ne_nil : host ≠ []
  stripped : strip host = host
  bare : ¬ Bracketed host
  literal : 58 ∈ host → isIPv6 host = true

/-- A text before the port, after stripping: the front loses white space. -/
theorem split_formatted_iff {front host : Str} {port : Nat} (hlo : 1 ≤ port)
    (hhi : port ≤ 65535) :
    splitEndpoint (front ++ 58 :: ofInt port) = .ok (host, port) ↔
      isEndpointHost (front.dropWhile isSpace) = true ∧
        host = unbracket (front.dropWhile isSpace) := by
  have hdigits := asciiDigits_ofInt port
  have hstrip : strip (front ++ 58 :: ofInt port) = front.dropWhile isSpace ++ 58 :: ofInt port :=
    strip_append_digits (by decide) hdigits (ofInt_ne_nil port)
  have hall : (ofInt (port : Int)).all isDigit = true := by
    rw [List.all_eq_true]
    intro c hc
    rw [isDigit, digitValue_ascii (hdigits c hc)]
    rfl
  rw [splitEndpoint_ok_iff, hstrip]
  constructor
  · rintro ⟨text, digits, hparts, -, rfl⟩
    have hthese : EndpointParts (front.dropWhile isSpace ++ 58 :: ofInt port) text digits := hparts
    have htext : text = front.dropWhile isSpace := by
      have hlast := rpartition_append (a := front.dropWhile isSpace) (colon_notMem_digits hall)
      have hlast' := rpartition_append (a := text) (colon_notMem_digits hparts.digits_all)
      rw [← hparts.text, hlast, Option.some.injEq, Prod.mk.injEq] at hlast'
      exact hlast'.1.symm
    subst htext
    exact ⟨hparts.host_ok, rfl⟩
  · rintro ⟨hok, rfl⟩
    exact ⟨_, _, ⟨rfl, ofInt_ne_nil port, hall, hok⟩, portDigits_ofInt hlo hhi, rfl⟩

/-- Stripping and dropping brackets leaves a host alone when there is nothing
to strip or drop. -/
theorem unbracket_strip_eq_iff (host : Str) :
    unbracket (strip host) = host ↔ strip host = host ∧ ¬ Bracketed host := by
  obtain ⟨hle, hsame⟩ := length_strip host
  obtain ⟨hle', hsame'⟩ := length_unbracket (strip host)
  constructor
  · intro h
    rw [h] at hle' hsame'
    have hstrip := hsame (Nat.le_antisymm hle hle')
    rw [hstrip] at hsame'
    exact ⟨hstrip, hsame' rfl⟩
  · rintro ⟨hstrip, hbare⟩
    rw [hstrip, unbracket_bare hbare]

/-- **The pair comes back** for a plain host whose scope id, if it has one, is on
one line. -/
theorem split_format_iff (host : Str) {port : Nat} (hlo : 1 ≤ port) (hhi : port ≤ 65535) :
    splitEndpoint (formatEndpoint host port) = .ok (host, port) ↔
      PlainHost host ∧ (58 ∈ host → 10 ∉ host) := by
  obtain ⟨hneeds, hformat⟩ | ⟨hneeds, hformat⟩ := formatEndpoint_cases host port
  · -- between brackets
    have hcolon := isIPv6_colon hneeds.2
    have hfront : (91 :: unbracket (strip host) ++ [93]).dropWhile isSpace =
        91 :: unbracket (strip host) ++ [93] := by
      apply dropWhile_of_head
      intro c hc
      cases hc
      decide
    rw [hformat, split_formatted_iff hlo hhi, hfront, isEndpointHost_iff, unbracket_brackets]
    constructor
    · rintro ⟨hok, hhost⟩
      obtain ⟨hstrip, hbare⟩ := (unbracket_strip_eq_iff host).mp hhost.symm
      rw [← hhost] at hneeds hcolon hok
      obtain ⟨inner, hinner, hne, hline⟩ | ⟨-, hnone⟩ := hok
      · simp only [List.cons_append, List.cons.injEq, true_and, List.append_cancel_right_eq]
          at hinner
        rw [← hinner] at hne hline
        exact ⟨⟨hne, hstrip, hbare, fun _ => hneeds.2⟩, fun _ => hline⟩
      · exact absurd (by simp [hcolon]) hnone
    · rintro ⟨hplain, hline⟩
      have hhost := (unbracket_strip_eq_iff host).mpr ⟨hplain.stripped, hplain.bare⟩
      rw [hhost] at hcolon ⊢
      exact ⟨.inl ⟨host, rfl, hplain.ne_nil, hline hcolon⟩, rfl⟩
  · -- as it is
    rw [hformat, split_formatted_iff hlo hhi, isEndpointHost_iff]
    constructor
    · rintro ⟨hok, hhost⟩
      have hdrop : (unbracket (strip host)).dropWhile isSpace <:+ unbracket (strip host) :=
        List.dropWhile_suffix _
      obtain ⟨hle, -⟩ := length_strip host
      obtain ⟨hle', -⟩ := length_unbracket (strip host)
      obtain ⟨hle'', hsame⟩ := length_unbracket ((unbracket (strip host)).dropWhile isSpace)
      rw [← hhost] at hle'' hsame
      have hshort := hdrop.length_le
      have hfront := hdrop.eq_of_length (by omega)
      rw [hfront] at hok hhost hsame
      have hbare' := hsame (by omega)
      rw [unbracket_bare hbare'] at hhost
      obtain ⟨hstrip, hbare⟩ := (unbracket_strip_eq_iff host).mp hhost.symm
      rw [← hhost] at hok
      obtain ⟨inner, hinner, -, -⟩ | ⟨hne, hnone⟩ := hok
      · exact absurd ((bracketed_iff host).mpr ⟨inner, hinner⟩) hbare
      · exact ⟨⟨hne, hstrip, hbare, fun hcolon => absurd hcolon hnone⟩,
          fun hcolon => absurd hcolon hnone⟩
    · rintro ⟨hplain, -⟩
      have hhost := (unbracket_strip_eq_iff host).mpr ⟨hplain.stripped, hplain.bare⟩
      rw [hhost] at hneeds ⊢
      have hnone : 58 ∉ host := by
        intro hcolon
        apply hneeds
        refine ⟨?_, hplain.literal hcolon⟩
        rw [Bool.eq_false_iff]
        intro hv4
        have hchar := isIPv4_chars hv4 58 hcolon
        omega
      have hfront : host.dropWhile isSpace = host := by
        apply dropWhile_of_head
        intro c hc
        apply head?_strip (s := host)
        rw [hplain.stripped]
        exact hc
      rw [hfront, unbracket_bare hplain.bare]
      exact ⟨.inr ⟨hplain.ne_nil, hnone⟩, rfl⟩

/-! ## valid hosts -/

/-- A host that `validate_endpoint_host` has returned. -/
def ValidHost (host : Str) : Prop := ∃ given, validateEndpointHost given = .ok host

theorem isHostLabel_chars {s : Str} (h : isHostLabel s = true) :
    ∀ c ∈ s, isAlnum c = true ∨ c = 45 := by
  simp only [isHostLabel, Bool.and_eq_true, List.all_eq_true, Bool.or_eq_true, beq_iff_eq] at h
  exact h.1.1.2

theorem isHostname_chars {s : Str} (h : isHostname s = true) :
    ∀ c ∈ s, c = 46 ∨ isAlnum c = true ∨ c = 45 := by
  simp only [isHostname, Bool.and_eq_true] at h
  intro c hc
  by_cases hdot : c = 46
  · exact .inl hdot
  · have hbody : c ∈ if s.getLast? = some 46 then s.dropLast else s := by
      split
      · rename_i hlast
        obtain ⟨front, rfl⟩ := List.getLast?_eq_some_iff.mp hlast
        rw [List.dropLast_concat]
        rcases List.mem_append.mp hc with hmem | hmem
        · exact hmem
        · exact absurd (List.mem_singleton.mp hmem) hdot
      · exact hc
    obtain ⟨label, hlabel, hmem⟩ := mem_splitOn hbody hdot
    exact .inr (isHostLabel_chars (List.all_eq_true.mp h.2 label hlabel) c hmem)

/-- What `validate_endpoint_host` accepts. -/
theorem validateEndpointHost_ok {given host : Str} (h : validateEndpointHost given = .ok host) :
    host = strip given ∧ host ≠ [] ∧ host.head? ≠ some 91 ∧
      (isIPv6 host = true ∨ isIPv4 host = true ∨ isHostname host = true ∧ 58 ∉ host) := by
  simp only [validateEndpointHost] at h
  split at h
  · cases h
  · rename_i hne
    rw [List.isEmpty_iff] at hne
    split at h
    · cases h
    · rename_i hhead
      split at h
      · rename_i hliteral
        cases h
        rw [Bool.or_eq_true] at hliteral
        exact ⟨rfl, hne, hhead, hliteral.symm.imp_right .inl⟩
      · split at h
        · cases h
        · rename_i hcolon
          split at h
          · cases h
          · rename_i hname
            cases h
            simp only [Bool.not_eq_true', Bool.not_eq_false] at hname
            exact ⟨rfl, hne, hhead, .inr (.inr ⟨hname, by simpa using hcolon⟩)⟩

/-- Such a host is stripped, not empty and without brackets. -/
theorem ValidHost.bare {host : Str} (h : ValidHost host) :
    strip host = host ∧ host ≠ [] ∧ host.head? ≠ some 91 := by
  obtain ⟨given, hgiven⟩ := h
  obtain ⟨rfl, hne, hhead, -⟩ := validateEndpointHost_ok hgiven
  exact ⟨strip_strip given, hne, hhead⟩

/-- It is plain, and only a scope id can have a line feed in it. -/
theorem ValidHost.plain {host : Str} (h : ValidHost host) :
    PlainHost host ∧ (58 ∉ host → 10 ∉ host) := by
  obtain ⟨hstrip, hne, hhead⟩ := h.bare
  obtain ⟨given, hgiven⟩ := h
  obtain ⟨-, -, -, hkind⟩ := validateEndpointHost_ok hgiven
  have hbare : ¬ Bracketed host := fun hb => hhead hb.1
  obtain hv6 | hv4 | ⟨hname, hcolon⟩ := hkind
  · exact ⟨⟨hne, hstrip, hbare, fun _ => hv6⟩, fun hnone => absurd (isIPv6_colon hv6) hnone⟩
  · have hcolon : 58 ∉ host := by
      intro hc
      have hchar := isIPv4_chars hv4 58 hc
      omega
    refine ⟨⟨hne, hstrip, hbare, fun hc => absurd hc hcolon⟩, fun _ hline => ?_⟩
    have hchar := isIPv4_chars hv4 10 hline
    omega
  · refine ⟨⟨hne, hstrip, hbare, fun hc => absurd hc hcolon⟩, fun _ hline => ?_⟩
    have hchar := isHostname_chars hname 10 hline
    exact absurd hchar (by decide)

/-- An endpoint with a valid host has no white space around it. -/
theorem strip_formatEndpoint {host : Str} (h : ValidHost host) (port : Nat) :
    strip (formatEndpoint host port) = formatEndpoint host port := by
  obtain ⟨hstrip, hne, hbracket⟩ := h.bare
  have hbare : unbracket (strip host) = host := by
    rw [hstrip, unbracket_bare fun hb => hbracket hb.1]
  have hdigits : ∀ front : Str, (∀ c, front.head? = some c → isSpace c = false) →
      strip (front ++ 58 :: ofInt port) = front ++ 58 :: ofInt port := fun front hfront => by
    rw [strip_append_digits (by decide) (asciiDigits_ofInt port) (ofInt_ne_nil port),
      dropWhile_of_head hfront]
  obtain ⟨-, hformat⟩ | ⟨-, hformat⟩ := formatEndpoint_cases host port
  · rw [hformat]
    apply hdigits
    intro c hc
    cases hc
    decide
  · rw [hformat, hbare]
    apply hdigits
    intro c hc
    apply head?_strip (s := host)
    rw [hstrip]
    exact hc

/-! ## agreement -/

/-- The pair of an endpoint, put together again, is accepted and is the pair. -/
def EndpointStable (e : Str) : Prop :=
  ∀ host port, splitEndpoint e = .ok (host, port) →
    (∃ v, validateEndpoint (formatEndpoint host port) = .ok v) ∧
      splitEndpoint (formatEndpoint host port) = .ok (host, port)

/-- A plain host before the port, with or without brackets around it. -/
def PlainEndpoint (text : Str) : Prop :=
  ∃ host digits, PlainHost host ∧ 58 ∉ digits ∧
    (text = host ++ 58 :: digits ∨ text = (91 :: host ++ [93]) ++ 58 :: digits)

/-- The host that is split out of an accepted endpoint is plain when the
endpoint is. -/
theorem plainEndpoint_iff {text host digits : Str} (h : EndpointParts text host digits) :
    PlainEndpoint text ↔ PlainHost (unbracket host) := by
  have hdigits := colon_notMem_digits h.digits_all
  constructor
  · rintro ⟨host', digits', hplain, hnone, htext⟩
    have hsame : ∀ front, text = front ++ 58 :: digits' → front = host := by
      intro front hfront
      have hlast := rpartition_append (a := host) hdigits
      rw [← h.text, hfront, rpartition_append hnone, Option.some.injEq, Prod.mk.injEq] at hlast
      exact hlast.1
    obtain htext | htext := htext
    · rw [← hsame _ htext, unbracket_bare hplain.bare]
      exact hplain
    · rw [← hsame _ htext, unbracket_brackets]
      exact hplain
  · intro hplain
    by_cases hb : Bracketed host
    · obtain ⟨inner, rfl⟩ := (bracketed_iff host).mp hb
      rw [unbracket_brackets] at hplain
      exact ⟨inner, digits, hplain, hdigits, .inr h.text⟩
    · rw [unbracket_bare hb] at hplain
      exact ⟨host, digits, hplain, hdigits, .inl h.text⟩

/-- The host of an accepted endpoint has no line feed when it has a colon. -/
theorem oneLine_of_colon {host : Str} (h : isEndpointHost host = true)
    (hcolon : 58 ∈ unbracket host) : 10 ∉ unbracket host := by
  obtain ⟨inner, rfl, -, hline⟩ | ⟨-, hnone⟩ := (isEndpointHost_iff host).mp h
  · rw [unbracket_brackets]
    exact hline
  · exfalso
    apply hnone
    by_cases hb : Bracketed host
    · obtain ⟨inner, rfl⟩ := (bracketed_iff host).mp hb
      rw [unbracket_brackets] at hcolon
      simp [hcolon]
    · rwa [unbracket_bare hb] at hcolon

/-- **Endpoint texts and pairs agree**: from a valid host and a port and back,
unless the host has a line feed in its scope id; and from an accepted endpoint
and back, when the host in it is plain. -/
theorem endpoints_agree_iff (given host e v : Str) (port : Nat) :
    (validateEndpointHost given = .ok host → 1 ≤ port → port ≤ 65535 →
      (splitEndpoint (formatEndpoint given port) = .ok (host, port) ↔ 10 ∉ strip given)) ∧
    (validateEndpoint e = .ok v → (EndpointStable e ↔ PlainEndpoint (strip e))) := by
  constructor
  · intro hgiven hlo hhi
    obtain ⟨hplain, hline⟩ := ValidHost.plain ⟨given, hgiven⟩
    obtain ⟨rfl, -⟩ := validateEndpointHost_ok hgiven
    have hformat : formatEndpoint given port = formatEndpoint (strip given) port := by
      rw [formatEndpoint, formatEndpoint, strip_strip]
    rw [hformat, split_format_iff _ hlo hhi]
    constructor
    · rintro ⟨-, hscope⟩
      by_cases hcolon : 58 ∈ strip given
      · exact hscope hcolon
      · exact hline hcolon
    · intro hnone
      exact ⟨hplain, fun _ => hnone⟩
  · intro hvalid
    obtain ⟨rfl, host, digits, port, hparts, hport⟩ := (validateEndpoint_ok_iff e v).mp hvalid
    have hsplit : splitEndpoint e = .ok (unbracket host, port) :=
      (splitEndpoint_ok_iff e _ _).mpr ⟨host, digits, hparts, hport, rfl⟩
    have hback := split_format_iff (unbracket host) hport.2.2.1 hport.2.2.2
    rw [plainEndpoint_iff hparts]
    constructor
    · intro hstable
      exact (hback.mp (hstable _ _ hsplit).2).1
    · intro hplain host' port' hsplit'
      rw [hsplit] at hsplit'
      cases hsplit'
      have hagain := hback.mpr ⟨hplain, oneLine_of_colon hparts.host_ok⟩
      obtain ⟨text, digits', hparts', hport', -⟩ := (splitEndpoint_ok_iff _ _ _).mp hagain
      exact ⟨⟨_, (validateEndpoint_ok_iff _ _).mpr ⟨rfl, text, digits', _, hparts', hport'⟩⟩, hagain⟩

/-- A link-local address whose scope id has a line feed; a colon between
brackets that is no address; white space before the port; nothing between the
brackets. -/
theorem endpoints_disagree :
    validateEndpointHost (lit "fe80::1%a\nb") = .ok (lit "fe80::1%a\nb") ∧
      splitEndpoint (formatEndpoint (lit "fe80::1%a\nb") 80) ≠ .ok (lit "fe80::1%a\nb", 80) ∧
      validateEndpoint (lit "[a:b]:80") = .ok (lit "[a:b]:80") ∧
      ¬ EndpointStable (lit "[a:b]:80") ∧
      validateEndpoint (lit "a :80") = .ok (lit "a :80") ∧ ¬ EndpointStable (lit "a :80") ∧
      validateEndpoint (lit "[]:80") = .ok (lit "[]:80") ∧ ¬ EndpointStable (lit "[]:80") := by
  have hnone : ∀ e host, splitEndpoint e = .ok (host, 80) →
      splitEndpoint (formatEndpoint host 80) ≠ .ok (host, 80) → ¬ EndpointStable e :=
    fun e host hsplit hne hstable => hne (hstable host 80 hsplit).2
  refine ⟨by rfl, (by intro h; cases h), by rfl, hnone _ (lit "a:b") (by rfl) ?_, by rfl,
    hnone _ (lit "a ") (by rfl) ?_, by rfl, hnone _ [] (by rfl) ?_⟩
  · intro h
    cases h
  · intro h
    cases h
  · intro h
    cases h

end Dn42Ctl
