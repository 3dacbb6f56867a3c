import Dn42Ctl.Scan
import Dn42Ctl.UnitFiles

/-!
# BirdFiles

The BIRD files of `Render`, read back by the patterns of `Scan`.  In each file the
pattern can match at one place only: around its one `%`, before its first `;`, or
at the blocks of `babel.conf`.

* `parse_bgpPeerLines`, `parse_ibgpPeerLines` — the two peer files;
* `parse_renderBabelConf` — every interface of `babel.conf`, in order.
-/

namespace Dn42Ctl

open Text Builtins Pattern

/-! ## texts without structure -/

/-- A text without white space and without the characters `"`, `#`, `%` and `;`,
which mean something in a configuration file. -/
def Bare (v : Str) : Prop := ∀ c ∈ v, isSpace c = false ∧ c ≠ 34 ∧ c ≠ 35 ∧ c ≠ 37 ∧ c ≠ 59

instance (v : Str) : Decidable (Bare v) := inferInstanceAs (Decidable (∀ c ∈ v, _))

structure PlainText (v : Str) : Prop where
  nonempty : v ≠ []
  chars : Bare v

theorem blank_isSpace : ∀ c ∈ lit " ", isSpace c = true := by decide

/-- A run of white space that is one blank. -/
theorem blank_inj {x a b : Str} (hx : ∀ c ∈ x, isSpace c = true) (ha : Stops isSpace a)
    (hb : Stops isSpace b) (h : lit " " ++ a = x ++ b) : x = lit " " ∧ a = b := by
  obtain ⟨hxy, hab⟩ := run_inj (p := isSpace) (by decide) hx ha hb h
  exact ⟨hxy.symm, hab⟩

/-- The end of a statement. -/
theorem matchAt_semicolon (rest : Str) :
    matchAt [optionalSpaces, .text [59]] ([] ++ ([59] ++ rest)) = some ([], rest) := by
  have hsemicolon : matchAt [.text [59]] ([59] ++ rest) = some ([], rest) := matchAt_text _ _ _
  exact matchAt_run false (fun c hc => absurd hc List.not_mem_nil) (le_refl 0)
    (stops_cons (by decide)) hsemicolon

/-! ## peers -/

section Peers

variable {ifname name lla ip : Str} {asn : Int}

/-- The file of a BGP peer up to the address. -/
def bgpHead (ifname : Str) : Str :=
  unlines [lit "protocol bgp " ++ ifname ++ lit " from dnpeers \x7b",
    lit "    bfd graceful;",
    lit "    bfd \x7b",
    lit "        interval 10s;",
    lit "    \x7d;"] ++ lit "    "

theorem unlines_bgpPeerLines (ifname lla : Str) (asn : Int) :
    unlines (bgpPeerLines ifname lla asn) =
      bgpHead ifname ++ lit "neighbor" ++ lit " " ++ lla ++ 37 ::
        (ifname ++ (lit " " ++ (lit "as" ++ (lit " " ++ (ofInt asn ++ lit ";\n\x7d\n"))))) := by
  rw [bgpPeerLines, bgpHead, unlines, unlines]
  simp only [List.flatMap_cons, List.flatMap_nil, List.append_assoc, List.append_nil]
  rfl

theorem percent_bgpHead (h : 37 ∉ ifname) : 37 ∉ bgpHead ifname := by
  rw [bgpHead, unlines]
  simp only [List.flatMap_cons, List.flatMap_nil, List.mem_append, not_or]
  exact ⟨⟨⟨⟨⟨by decide, h⟩, by decide⟩, by decide⟩, by decide⟩, by decide⟩

theorem address_class (h : PlainText lla) : ∀ c ∈ lla, (c != 37 && !isSpace c) = true := by
  intro c hc
  obtain ⟨hspace, -, -, hpercent, -⟩ := h.chars c hc
  simp [hspace, hpercent]

/-- The pattern of a BGP peer matches at the neighbour. -/
theorem matchAt_bgpPeer (hlla : PlainText lla) (ifname : Str) (n : Nat) (rest : Str) :
    matchAt (boundNeighbor ifname ++ [.run 1 isDigit true, optionalSpaces, .text [59]])
      (lit "neighbor" ++ (lit " " ++ (lla ++ (([37] ++ ifname) ++
        (lit " " ++ (lit "as" ++ (lit " " ++ (ofInt n ++ ([] ++ ([59] ++ rest)))))))))) =
      some ([lla, ofInt n], rest) := by
  have hafter : Stops isSpace (lla ++ (([37] ++ ifname) ++
      (lit " " ++ (lit "as" ++ (lit " " ++ (ofInt n ++ ([] ++ ([59] ++ rest)))))))) :=
    stops_of_mem hlla.nonempty fun c hc => (hlla.chars c hc).1
  have hnumber : Stops isSpace (ofInt (n : Int) ++ ([] ++ ([59] ++ rest))) :=
    stops_of_mem (ofInt_ne_nil n) fun c hc => isSpace_ascii (asciiDigits_ofInt n c hc)
  have hone : 1 ≤ (ofInt (n : Int)).length := List.length_pos_iff.mpr (ofInt_ne_nil n)
  have haddress : 1 ≤ lla.length := List.length_pos_iff.mpr hlla.nonempty
  have hdigits := matchAt_run true (isDigit_ofInt n) hone (stops_cons (by decide))
    (matchAt_semicolon rest)
  have hlast := matchAt_run false blank_isSpace (le_refl 1) hnumber hdigits
  have has := (matchAt_text (lit "as") _ _).trans hlast
  have hbefore := matchAt_run false blank_isSpace (le_refl 1) (stops_cons (by decide)) has
  have hname := (matchAt_text ([37] ++ ifname) _ _).trans hbefore
  have hgroup := matchAt_run true (address_class hlla) haddress (stops_cons (by decide)) hname
  have hfirst := matchAt_run false blank_isSpace (le_refl 1) hafter hgroup
  exact (matchAt_text (lit "neighbor") _ _).trans hfirst

theorem space_class {c : Nat} (h : isSpace c = true) : (c != 37 && !isSpace c) = false := by
  rw [h, Bool.not_true, Bool.and_false]

/-- A match in the file of a BGP peer: the groups are the address and the
number, whatever stands around them. -/
theorem eq_of_bgpPeer {groups : List Str} {t rest : Str} {n : Nat} (hlla : PlainText lla)
    (hif : 37 ∉ ifname) (ht : t <:+ unlines (bgpPeerLines ifname lla n))
    (h : Consists (boundNeighbor ifname ++ [.run 1 isDigit true, optionalSpaces, .text [59]])
      t groups rest) : groups = [lla, ofInt n] := by
  obtain ⟨u, hu⟩ := ht
  simp only [boundNeighbor, spaces, optionalSpaces, List.cons_append, List.nil_append, Consists,
    Bool.false_eq_true, if_false, if_true] at h
  obtain ⟨t1, rfl, sp1, t2, _, hone1, hsp1, rfl, rfl, lla', t3, _, -, hlla', rfl, rfl, t4, rfl, sp2,
    t5, _, hone2, hsp2, rfl, rfl, t6, rfl, sp3, t7, _, hone3, hsp3, rfl, rfl, digits, t8, _, hone4,
    hdigits, rfl, rfl, sp4, t9, _, -, hsp4, rfl, rfl, t10, rfl, rfl, rfl⟩ := h
  have hhead : 37 ∉ bgpHead ifname ++ lit "neighbor" ++ lit " " ++ lla := by
    have hfixed : ∀ c ∈ ifname, c ≠ 37 := fun c hc heq => hif (heq ▸ hc)
    simp only [List.mem_append, not_or]
    exact ⟨⟨⟨percent_bgpHead hif, by decide⟩, by decide⟩,
      fun hmem => (hlla.chars 37 hmem).2.2.2.1 rfl⟩
  have htail : 37 ∉ ifname ++ (lit " " ++ (lit "as" ++ (lit " " ++
      (ofInt n ++ lit ";\n\x7d\n")))) := by
    simp only [List.mem_append, not_or]
    refine ⟨hif, by decide, by decide, by decide, fun hmem => ?_, by decide⟩
    have hascii := asciiDigits_ofInt n 37 hmem
    omega
  have hparts : bgpHead ifname ++ lit "neighbor" ++ lit " " ++ lla ++ 37 ::
      (ifname ++ (lit " " ++ (lit "as" ++ (lit " " ++ (ofInt n ++ lit ";\n\x7d\n"))))) =
      (u ++ lit "neighbor" ++ sp1 ++ lla') ++ 37 ::
        (ifname ++ (sp2 ++ (lit "as" ++ (sp3 ++ (digits ++ (sp4 ++ ([59] ++ t10))))))) := by
    rw [← unlines_bgpPeerLines, ← hu]
    simp only [List.append_assoc, List.cons_append, List.nil_append]
  rw [List.append_cons_inj_of_notMem hhead htail] at hparts
  obtain ⟨hfront, -, hback⟩ := hparts
  -- before the `%`: the address is the last run of its class
  have haddress := (run_inj_last (address_class hlla) hlla'
    (stops_before (le_refl 1) fun c hc => space_class (blank_isSpace c hc))
    (stops_before hone1 fun c hc => space_class (hsp1 c hc)) hfront).2
  -- after the name: two blanks, and the digits up to the semicolon
  have has : ∀ s, Stops isSpace (lit "as" ++ s) := fun s => stops_cons (by decide)
  have hafter := List.append_cancel_left hback
  obtain ⟨-, hafter⟩ := blank_inj hsp2 (has _) (has _) hafter
  have hnumber := List.append_cancel_left hafter
  obtain ⟨-, hnumber⟩ := blank_inj hsp3
    (stops_of_mem (ofInt_ne_nil n) fun c hc => isSpace_ascii (asciiDigits_ofInt n c hc))
    (stops_of_mem (List.length_pos_iff.mp hone4) fun c hc => digit_not_space (hdigits c hc)) hnumber
  obtain ⟨hnumber, -⟩ := run_inj (isDigit_ofInt n) hdigits (stops_cons (by decide))
    (stops_append (fun c hc => space_not_digit (hsp4 c hc)) (stops_cons (by decide))) hnumber
  rw [haddress, hnumber]

/-- The file of a BGP peer, read back. -/
theorem parse_bgpPeerLines {n : Nat} (hlla : PlainText lla) (hif : 37 ∉ ifname) (hn : n < 2 ^ 63) :
    parseBirdBgpPeerConf (unlines (bgpPeerLines ifname lla n)) ifname =
      (some (n : Int), some lla) := by
  have hsuffix : lit "neighbor" ++ (lit " " ++ (lla ++ (([37] ++ ifname) ++ (lit " " ++ (lit "as" ++
      (lit " " ++ (ofInt n ++ ([] ++ ([59] ++ lit "\n\x7d\n"))))))))) <:+
      unlines (bgpPeerLines ifname lla n) := by
    rw [unlines_bgpPeerLines]
    refine ⟨bgpHead ifname, ?_⟩
    simp only [List.append_assoc, List.cons_append, List.nil_append]
    rfl
  obtain ⟨rest, hsearch⟩ := search_groups hsuffix (matchAt_bgpPeer hlla ifname n _)
    fun t groups rest ht h => eq_of_bgpPeer hlla hif ht h
  rw [parseBirdBgpPeerConf, hsearch]
  dsimp only
  rw [intOfStr_ofInt hn]

/-- The second pattern of `_parse_bird_ibgp_peer_conf`. -/
def plainNeighbor : List Item :=
  [.text (lit "neighbor"), spaces, .run 1 (fun c => !isSpace c) true, spaces, .text (lit "as"),
    spaces, .text (lit "OWNAS"), optionalSpaces, .text [59]]

/-- The file of an iBGP peer up to the address. -/
def ibgpHead (name : Str) : Str :=
  lit "protocol bgp ibgp_" ++ name ++ lit " from ibgp_template \x7b\n    "

theorem unlines_ibgpPeerLines (name ip : Str) :
    unlines (ibgpPeerLines name ip) =
      ibgpHead name ++ lit "neighbor" ++ lit " " ++ ip ++ lit " " ++ lit "as" ++ lit " " ++
        lit "OWNAS" ++ 59 :: lit "\n\x7d;\n" := by
  rw [ibgpPeerLines, ibgpHead, unlines]
  simp only [List.flatMap_cons, List.flatMap_nil, List.append_assoc, List.append_nil]
  rfl

theorem matchAt_ibgpPeer (hip : PlainText ip) (rest : Str) :
    matchAt plainNeighbor (lit "neighbor" ++ (lit " " ++ (ip ++ (lit " " ++ (lit "as" ++
      (lit " " ++ (lit "OWNAS" ++ ([] ++ ([59] ++ rest))))))))) = some ([ip], rest) := by
  have hclass : ∀ c ∈ ip, (!isSpace c) = true := fun c hc => by
    rw [(hip.chars c hc).1]
    rfl
  have hone : 1 ≤ ip.length := List.length_pos_iff.mpr hip.nonempty
  have hafter : Stops isSpace (ip ++ (lit " " ++ (lit "as" ++ (lit " " ++
      (lit "OWNAS" ++ ([] ++ ([59] ++ rest))))))) :=
    stops_of_mem hip.nonempty fun c hc => (hip.chars c hc).1
  have hown := (matchAt_text (lit "OWNAS") _ _).trans (matchAt_semicolon rest)
  have hlast := matchAt_run false blank_isSpace (le_refl 1) (stops_cons (by decide)) hown
  have has := (matchAt_text (lit "as") _ _).trans hlast
  have hbefore := matchAt_run false blank_isSpace (le_refl 1) (stops_cons (by decide)) has
  have hgroup := matchAt_run true hclass hone (stops_cons (by decide)) hbefore
  have hfirst := matchAt_run false blank_isSpace (le_refl 1) hafter hgroup
  exact (matchAt_text (lit "neighbor") _ _).trans hfirst

/-- The semicolon after the number is the first of the file. -/
theorem front_of_semicolon {a x rest : Str} (ha : 59 ∉ a) (hx : x.getLast? ≠ some 125)
    (h : a ++ 59 :: lit "\n\x7d;\n" = x ++ 59 :: rest) : a = x := by
  obtain ⟨b, rfl, hb⟩ | ⟨b, rfl, hb⟩ := List.append_eq_append_iff.mp h
  · cases b with
    | nil => rw [List.append_nil]
    | cons c cs =>
        -- the other semicolon stands behind a brace
        rw [List.cons_append, List.cons.injEq] at hb
        have hlast : lit "\n\x7d" ++ 59 :: lit "\n" = cs ++ 59 :: rest := hb.2
        rw [List.append_cons_inj_of_notMem (by decide) (by decide)] at hlast
        rw [← hlast.1, List.getLast?_append] at hx
        exact absurd rfl hx
  · cases b with
    | nil => rw [List.append_nil]
    | cons c cs =>
        rw [List.cons_append, List.cons.injEq] at hb
        exact absurd (by rw [hb.1]; simp) ha

theorem eq_of_ibgpPeer {groups : List Str} {t rest : Str} (hip : PlainText ip) (hname : 59 ∉ name)
    (ht : t <:+ unlines (ibgpPeerLines name ip)) (h : Consists plainNeighbor t groups rest) :
    groups = [ip] := by
  obtain ⟨u, hu⟩ := ht
  simp only [plainNeighbor, spaces, optionalSpaces, Consists, Bool.false_eq_true, if_false,
    if_true] at h
  obtain ⟨t1, rfl, sp1, t2, _, hone1, hsp1, rfl, rfl, ip', t3, _, hone, hip', rfl, rfl, sp2, t4, _,
    hone2, hsp2, rfl, rfl, t5, rfl, sp3, t6, _, hone3, hsp3, rfl, rfl, t7, rfl, sp4, t8, _, -, hsp4,
    rfl, rfl, t9, rfl, rfl, rfl⟩ := h
  have hspace : ∀ {c}, isSpace c = true → (!isSpace c) = false := fun hc => by rw [hc]; rfl
  have hnot : ∀ {c}, (!isSpace c) = true → isSpace c = false := fun hc => by simpa using hc
  have hclass : ∀ c ∈ ip, isSpace c = false := fun c hc => (hip.chars c hc).1
  have hhead : 59 ∉ ibgpHead name ++ lit "neighbor" ++ lit " " ++ ip ++ lit " " ++ lit "as" ++
      lit " " ++ lit "OWNAS" := by
    simp only [ibgpHead, List.mem_append, not_or]
    exact ⟨⟨⟨⟨⟨⟨⟨⟨⟨by decide, hname⟩, by decide⟩, by decide⟩, by decide⟩,
      fun hmem => (hip.chars 59 hmem).2.2.2.2 rfl⟩, by decide⟩, by decide⟩, by decide⟩, by decide⟩
  have hbrace : (u ++ lit "neighbor" ++ sp1 ++ ip' ++ sp2 ++ lit "as" ++ sp3 ++ lit "OWNAS" ++
      sp4).getLast? ≠ some 125 := by
    rw [List.getLast?_append, List.getLast?_append]
    cases hlast : sp4.getLast? with
    | none => exact fun heq => absurd (Option.some.inj heq) (by decide)
    | some c =>
        intro heq
        have hc := hsp4 c (List.mem_of_getLast? hlast)
        rw [Option.some_or, Option.some.injEq] at heq
        rw [heq] at hc
        exact absurd hc (by decide)
  have hparts : ibgpHead name ++ lit "neighbor" ++ lit " " ++ ip ++ lit " " ++ lit "as" ++
      lit " " ++ lit "OWNAS" ++ 59 :: lit "\n\x7d;\n" =
      u ++ lit "neighbor" ++ sp1 ++ ip' ++ sp2 ++ lit "as" ++ sp3 ++ lit "OWNAS" ++ sp4 ++
        59 :: t9 := by
    rw [← unlines_ibgpPeerLines, ← hu]
    simp only [List.append_assoc, List.cons_append, List.nil_append]
  -- from the semicolon back to the address
  have hfront := front_of_semicolon hhead hbrace hparts
  rw [← List.append_nil (_ ++ lit "OWNAS")] at hfront
  obtain ⟨hfront, -⟩ := run_inj_last (fun c hc => absurd hc List.not_mem_nil) hsp4
    (stops_before (by decide) (by decide)) (stops_before (by decide) (by decide)) hfront
  obtain ⟨hfront, -⟩ := run_inj_last blank_isSpace hsp3 (stops_before (by decide) (by decide))
    (stops_before (by decide) (by decide)) (List.append_cancel_right hfront)
  obtain ⟨hfront, -⟩ := run_inj_last blank_isSpace hsp2
    (stops_before (List.length_pos_iff.mpr hip.nonempty) hclass)
    (stops_before hone fun c hc => hnot (hip' c hc)) (List.append_cancel_right hfront)
  obtain ⟨-, haddress⟩ := run_inj_last (fun c hc => by rw [hclass c hc]; rfl) hip'
    (stops_before (le_refl 1) fun c hc => hspace (blank_isSpace c hc))
    (stops_before hone1 fun c hc => hspace (hsp1 c hc)) hfront
  rw [haddress]

/-- The file of an iBGP peer, read back: without a `%` it is not of the older
form. -/
theorem parse_ibgpPeerLines (hip : PlainText ip) (hname : 59 ∉ name) (hpercent : 37 ∉ name)
    (ifname : Str) : parseBirdIbgpPeerConf (unlines (ibgpPeerLines name ip)) ifname =
      (some ip, none) := by
  have hplain : 37 ∉ unlines (ibgpPeerLines name ip) := by
    rw [unlines_ibgpPeerLines]
    simp only [ibgpHead, List.mem_append, List.mem_cons, not_or]
    exact ⟨⟨⟨⟨⟨⟨⟨⟨⟨⟨by decide, hpercent⟩, by decide⟩, by decide⟩, by decide⟩,
      fun hmem => (hip.chars 37 hmem).2.2.2.1 rfl⟩, by decide⟩, by decide⟩, by decide⟩, by decide⟩,
      by decide, by decide⟩
  have hsuffix : lit "neighbor" ++ (lit " " ++ (ip ++ (lit " " ++ (lit "as" ++ (lit " " ++
      (lit "OWNAS" ++ ([] ++ ([59] ++ lit "\n\x7d;\n")))))))) <:+
      unlines (ibgpPeerLines name ip) := by
    rw [unlines_ibgpPeerLines]
    refine ⟨ibgpHead name, ?_⟩
    simp only [List.append_assoc, List.cons_append, List.nil_append]
  obtain ⟨rest, hsearch⟩ := search_groups hsuffix (matchAt_ibgpPeer hip _)
    fun t groups rest ht h => eq_of_ibgpPeer hip hname ht h
  have hnone : search (boundNeighbor ifname ++ [.text (lit "OWNAS"), optionalSpaces, .text [59]])
      (unlines (ibgpPeerLines name ip)) = none := by
    cases hfound : search (boundNeighbor ifname ++
        [.text (lit "OWNAS"), optionalSpaces, .text [59]]) (unlines (ibgpPeerLines name ip)) with
    | none => rfl
    | some m =>
        have htexts := (searchFrom_groups hfound).2.2 ([37] ++ ifname) (by simp [boundNeighbor])
        exact absurd (htexts.subset (List.mem_cons_self ..)) hplain
  rw [plainNeighbor] at hsearch
  rw [parseBirdIbgpPeerConf, hnone]
  dsimp only
  rw [hsearch]

end Peers

/-! ## `babel.conf` -/

section Babel

variable {isWord : Nat → Bool} {ifname babelType : Str} {rxcost : Nat}

/-- The settings of an interface behind its cost. -/
def rttSettings : Str :=
  lit "\n        rtt cost 192;\n" ++ (lit "        rtt max 394ms; # 4*96+10ms\n" ++
    lit "        rtt decay 64;\n    ")

/-- What stands between the braces of an interface. -/
def interfaceBody (babelType : Str) (rxcost : Int) : Str :=
  lit "\n        " ++ (lit "type" ++ (lit " " ++ (babelType ++ ([] ++ ([59] ++
    (lit "\n        " ++ (lit "rxcost" ++ (lit " " ++ (ofInt rxcost ++ ([] ++ ([59] ++
      rttSettings)))))))))))

theorem atBoundary_blank (hword : isWord 32 = false) : atBoundary isWord (some 32) = true := by
  rw [atBoundary, Option.any_some, hword]
  rfl

/-- The cost is found behind the type, which does not contain its word. -/
theorem rxcost_interfaceBody (hword : isWord 32 = false)
    (htype : babelType ∈ [lit "wired", lit "wireless", lit "tunnel"]) (hcost : rxcost < 2 ^ 63) :
    (parseInterfaceBody isWord (interfaceBody babelType rxcost)).rxcost = some (rxcost : Int) := by
  have hnumber : Stops isSpace (ofInt (rxcost : Int) ++ ([] ++ ([59] ++ rttSettings))) :=
    stops_of_mem (ofInt_ne_nil rxcost) fun c hc => isSpace_ascii (asciiDigits_ofInt rxcost c hc)
  have hrun := matchAt_run true (isDigit_ofInt rxcost)
    (List.length_pos_iff.mpr (ofInt_ne_nil rxcost)) (stops_cons (by decide))
    (matchAt_semicolon rttSettings)
  have hfirst := matchAt_run false blank_isSpace (le_refl 1) hnumber hrun
  have hmatch : matchAt [.text (lit "rxcost"), spaces, .run 1 isDigit true, optionalSpaces,
      .text [59]] (lit "rxcost" ++ (lit " " ++ (ofInt (rxcost : Int) ++ ([] ++ ([59] ++
        rttSettings))))) = some ([ofInt (rxcost : Int)], rttSettings) :=
    (matchAt_text (lit "rxcost") _ _).trans hfirst
  have hskip : skips (lit "rxcost") (lit "\n        " ++ (lit "type" ++ (lit " " ++ (babelType ++
      ([] ++ ([59] ++ lit "\n        ")))))) = true := by
    simp only [List.mem_cons, List.not_mem_nil, or_false] at htype
    obtain rfl | rfl | rfl := htype <;> decide
  have hbody : interfaceBody babelType rxcost = (lit "\n        " ++ (lit "type" ++ (lit " " ++
      (babelType ++ ([] ++ ([59] ++ lit "\n        ")))))) ++ (lit "rxcost" ++ (lit " " ++
      (ofInt (rxcost : Int) ++ ([] ++ ([59] ++ rttSettings))))) := by
    rw [interfaceBody]
    simp only [List.append_assoc]
  have hlast : (lit "\n        " ++ (lit "type" ++ (lit " " ++ (babelType ++
      ([] ++ ([59] ++ lit "\n        ")))))).getLast?.or none = some 32 := by
    simp only [List.getLast?_append]
    rfl
  rw [parseInterfaceBody]
  dsimp only
  rw [hbody, searchFrom_skip hskip, hlast, searchFrom_here (atBoundary_blank hword) hmatch]
  dsimp only
  exact intOfStr_ofInt hcost

theorem babelType_interfaceBody (hword : isWord 32 = false)
    (htype : babelType ∈ [lit "wired", lit "wireless", lit "tunnel"]) :
    (parseInterfaceBody isWord (interfaceBody babelType rxcost)).babelType = some babelType := by
  have hstart : Stops isSpace (babelType ++ ([] ++ ([59] ++ (lit "\n        " ++ (lit "rxcost" ++
      (lit " " ++ (ofInt rxcost ++ ([] ++ ([59] ++ rttSettings))))))))) := by
    simp only [List.mem_cons, List.not_mem_nil, or_false] at htype
    obtain rfl | rfl | rfl := htype <;> exact stops_cons (by decide)
  -- no two of the words start alike up to the end of one
  have honly : ∀ s, ∀ u ∈ [lit "wired", lit "wireless", lit "tunnel"],
      u.isPrefixOf (babelType ++ s) = true → u = babelType := by
    intro s u hu
    simp only [List.mem_cons, List.not_mem_nil, or_false] at htype hu
    obtain rfl | rfl | rfl := htype <;> obtain rfl | rfl | rfl := hu <;> intro h <;>
      first | rfl | cases h
  have hchosen := matchAt_oneOf htype (honly _) (matchAt_semicolon (lit "\n        " ++
    (lit "rxcost" ++ (lit " " ++ (ofInt rxcost ++ ([] ++ ([59] ++ rttSettings)))))))
  have hfirst := matchAt_run false blank_isSpace (le_refl 1) hstart hchosen
  have hmatch : matchAt [.text (lit "type"), spaces, .oneOf [lit "wired", lit "wireless",
      lit "tunnel"], optionalSpaces, .text [59]] (lit "type" ++ (lit " " ++ (babelType ++ ([] ++
        ([59] ++ (lit "\n        " ++ (lit "rxcost" ++ (lit " " ++ (ofInt rxcost ++ ([] ++ ([59] ++
          rttSettings))))))))))) = some ([babelType], _) :=
    (matchAt_text (lit "type") _ _).trans hfirst
  have hskip : skips (lit "type") (lit "\n        ") = true := by decide
  have hlast : (lit "\n        ").getLast?.or none = some 32 := rfl
  rw [parseInterfaceBody]
  dsimp only
  rw [interfaceBody, searchFrom_skip hskip, hlast,
    searchFrom_here (atBoundary_blank hword) hmatch]

theorem brace_interfaceBody (htype : babelType ∈ [lit "wired", lit "wireless", lit "tunnel"]) :
    ∀ c ∈ interfaceBody babelType rxcost, (c != 125) = true := by
  have hbrace : 125 ∉ interfaceBody babelType rxcost := by
    rw [interfaceBody]
    simp only [List.mem_append, not_or]
    refine ⟨by decide, by decide, by decide, ?_, by decide, by decide, by decide, by decide,
      by decide, fun hmem => ?_, by decide, by decide, by decide⟩
    · simp only [List.mem_cons, List.not_mem_nil, or_false] at htype
      obtain rfl | rfl | rfl := htype <;> decide
    · have hascii := asciiDigits_ofInt rxcost 125 hmem
      omega
  intro c hc
  rw [bne_iff_ne]
  rintro rfl
  exact hbrace hc

/-- The block of an interface. -/
theorem matchAt_interfaceBlock (hif : PlainText ifname)
    (htype : babelType ∈ [lit "wired", lit "wireless", lit "tunnel"]) (rest : Str) :
    matchAt interfaceBlock (lit "interface" ++ (lit " " ++ ([34] ++ (ifname ++ ([34] ++ (lit " " ++
      ([123] ++ (interfaceBody babelType rxcost ++ ([125] ++ ([] ++ ([59] ++ rest))))))))))) =
      some ([ifname, interfaceBody babelType rxcost], rest) := by
  have hname : ∀ c ∈ ifname, (c != 34) = true := fun c hc =>
    bne_iff_ne.mpr (hif.chars c hc).2.1
  have hend := (matchAt_text [125] _ _).trans (matchAt_semicolon rest)
  have hbrace : ∀ c ∈ interfaceBody babelType rxcost, (c != 125) = true := brace_interfaceBody htype
  have hbody := matchAt_run true hbrace (Nat.zero_le _) (stops_cons (by decide)) hend
  have hopen := (matchAt_text [123] _ _).trans hbody
  have hblank := matchAt_run false blank_isSpace (Nat.zero_le _) (stops_cons (by decide)) hopen
  have hquote := (matchAt_text [34] _ _).trans hblank
  have hgroup := matchAt_run true hname (List.length_pos_iff.mpr hif.nonempty)
    (stops_cons (by decide)) hquote
  have hfirst := matchAt_run false blank_isSpace (le_refl 1) (stops_cons (by decide))
    ((matchAt_text [34] _ _).trans hgroup)
  exact (matchAt_text (lit "interface") _ _).trans hfirst

/-- The interface of `protocol direct` has no block. -/
theorem matchAt_dummy (s : Str) :
    matchAt interfaceBlock (lit "interface" ++ (lit " " ++ ([34] ++ (lit "dn42-dummy" ++ ([34] ++
      (59 :: s)))))) = none := by
  cases h : matchAt interfaceBlock (lit "interface" ++ (lit " " ++ ([34] ++ (lit "dn42-dummy" ++
      ([34] ++ (59 :: s)))))) with
  | none => rfl
  | some m =>
      have hparts := consists_of_matchAt h
      simp only [interfaceBlock, spaces, optionalSpaces, Consists, Bool.false_eq_true, if_false,
        if_true] at hparts
      obtain ⟨t1, h1, sp, t2, _, hone, hsp, rfl, rfl, t3, rfl, name, t4, _, -, hname, rfl, -, t5,
        rfl, sp2, t6, _, -, hsp2, rfl, rfl, t7, rfl, -⟩ := hparts
      have hquote : ∀ s, Stops isSpace ([34] ++ s) := fun s => stops_cons (by decide)
      have hend : ∀ s, Stops (· != 34) ([34] ++ s) := fun s => stops_cons (by decide)
      have hnil : ∀ c ∈ ([] : Str), isSpace c = true := fun c hc => absurd hc List.not_mem_nil
      obtain ⟨-, hafter⟩ := blank_inj hsp (hquote _) (hquote _) (List.append_cancel_left h1)
      obtain ⟨-, hafter⟩ := run_inj (by decide) hname (hend _) (hend _)
        (List.append_cancel_left hafter)
      have hopen : [] ++ 59 :: s = sp2 ++ 123 :: t7 := List.append_cancel_left hafter
      obtain ⟨-, hopen⟩ := run_inj hnil hsp2 (stops_cons (by decide)) (stops_cons (by decide)) hopen
      cases hopen

/-- The head of the file behind the first letter of `interface`. -/
def dummyRest : Str :=
  lit "nterface \"dn42-dummy\";\n\x7d;\n\n" ++ unlines (babelHeaderLines.drop 6)

/-- Nothing in the head of the file is a block. -/
theorem search_babelHeader (s : Str) :
    search interfaceBlock (unlines babelHeaderLines ++ s) = search interfaceBlock s := by
  have hhead : unlines babelHeaderLines =
      lit "protocol direct \x7b\n    ipv4;\n    ipv6;\n    " ++ 105 :: dummyRest := by
    decide +kernel
  have hfirst : skips (lit "interface") (lit "protocol direct \x7b\n    ipv4;\n    ipv6;\n    ") =
      true := by decide +kernel
  have hrest : skips (lit "interface") dummyRest = true := by decide +kernel
  have hdummy : matchAt interfaceBlock (105 :: (dummyRest ++ s)) = none := by
    rw [dummyRest, List.append_assoc]
    exact matchAt_dummy (lit "\n\x7d;\n\n" ++ (unlines (babelHeaderLines.drop 6) ++ s))
  calc search interfaceBlock (unlines babelHeaderLines ++ s)
      = search interfaceBlock (lit "protocol direct \x7b\n    ipv4;\n    ipv6;\n    " ++
          (105 :: (dummyRest ++ s))) := by rw [hhead, List.append_assoc]; rfl
    _ = search interfaceBlock (105 :: (dummyRest ++ s)) := search_skip hfirst _
    _ = search interfaceBlock (dummyRest ++ s) := search_step hdummy
    _ = search interfaceBlock s := search_skip hrest s

/-- An interface that can be read back. -/
structure BabelInterface.Readable (i : BabelInterface) : Prop where
  ifname : PlainText i.ifname
  babelType : i.babelType ∈ [lit "wired", lit "wireless", lit "tunnel"]
  nonneg : 0 ≤ i.rxcost
  fits : i.rxcost < 2 ^ 63

theorem unlines_append (as bs : List Str) : unlines (as ++ bs) = unlines as ++ unlines bs :=
  List.flatMap_append ..

theorem unlines_interface (i : BabelInterface) (rest : Str) :
    unlines i.lines ++ rest = lit "\n    " ++ (lit "interface" ++ (lit " " ++ ([34] ++ (i.ifname ++
      ([34] ++ (lit " " ++ ([123] ++ (interfaceBody i.babelType i.rxcost ++ ([125] ++ ([] ++
        ([59] ++ (lit "\n" ++ rest)))))))))))) := by
  -- the fixed texts between the three values
  have hopen : [10] ++ lit "    interface \"" =
      lit "\n    " ++ (lit "interface" ++ (lit " " ++ [34])) := by decide +kernel
  have htype : lit "\" \x7b" ++ ([10] ++ lit "        type ") =
      [34] ++ (lit " " ++ ([123] ++ (lit "\n        " ++ (lit "type" ++ lit " ")))) := by
    decide +kernel
  have hcost : lit ";" ++ ([10] ++ lit "        rxcost ") =
      [59] ++ (lit "\n        " ++ (lit "rxcost" ++ lit " ")) := by decide +kernel
  have hclose : lit ";" ++ unlines [[], lit "        rtt cost 192;",
      lit "        rtt max 394ms; # 4*96+10ms", lit "        rtt decay 64;", lit "    \x7d;"] =
      [59] ++ (rttSettings ++ ([125] ++ ([59] ++ lit "\n"))) := by decide +kernel
  have hlines : unlines i.lines ++ rest = ([10] ++ lit "    interface \"") ++ (i.ifname ++
      ((lit "\" \x7b" ++ ([10] ++ lit "        type ")) ++ (i.babelType ++
        ((lit ";" ++ ([10] ++ lit "        rxcost ")) ++ (ofInt i.rxcost ++
          ((lit ";" ++ unlines [[], lit "        rtt cost 192;",
            lit "        rtt max 394ms; # 4*96+10ms", lit "        rtt decay 64;",
            lit "    \x7d;"]) ++ rest)))))) := by
    rw [BabelInterface.lines, unlines, unlines]
    simp only [List.flatMap_cons, List.flatMap_nil, List.append_assoc, List.append_nil,
      List.nil_append]
  rw [hlines, hopen, htype, hcost, hclose, interfaceBody]
  simp only [List.append_assoc, List.nil_append]

/-- The blocks of the interfaces, in order; what stands before them has none. -/
theorem findAll_interfaces {pre : Str} {interfaces : List BabelInterface} {fuel : Nat}
    (hpre : ∀ s, search interfaceBlock (pre ++ s) = search interfaceBlock s)
    (h : ∀ i ∈ interfaces, i.Readable) (hfuel : interfaces.length < fuel) :
    findAllFrom interfaceBlock fuel
        (pre ++ (unlines (interfaces.flatMap BabelInterface.lines) ++ lit "\n\x7d;\n")) =
      interfaces.map fun i => [i.ifname, interfaceBody i.babelType i.rxcost] := by
  induction interfaces generalizing pre fuel with
  | nil =>
      obtain ⟨fuel, rfl⟩ : ∃ n, fuel = n + 1 := ⟨fuel - 1, by simp at hfuel; omega⟩
      have hnone : search interfaceBlock (lit "\n\x7d;\n") = none := by decide +kernel
      have hend : search interfaceBlock (pre ++ (unlines [] ++ lit "\n\x7d;\n")) = none :=
        (hpre _).trans hnone
      rw [List.flatMap_nil, findAllFrom, hend]
      rfl
  | cons i interfaces ih =>
      obtain ⟨fuel, rfl⟩ : ∃ n, fuel = n + 1 := ⟨fuel - 1, by simp at hfuel; omega⟩
      have hi := h i (List.mem_cons_self ..)
      obtain ⟨n, hn⟩ := Int.eq_ofNat_of_zero_le hi.nonneg
      have hskip : skips (lit "interface") (lit "\n    ") = true := by decide
      have hline : skips (lit "interface") (lit "\n") = true := by decide
      have hfound : search interfaceBlock (pre ++
          (unlines ((i :: interfaces).flatMap BabelInterface.lines) ++ lit "\n\x7d;\n")) =
          some ([i.ifname, interfaceBody i.babelType i.rxcost], lit "\n" ++
            (unlines (interfaces.flatMap BabelInterface.lines) ++ lit "\n\x7d;\n")) := by
        rw [hpre, List.flatMap_cons, unlines_append, List.append_assoc, unlines_interface, hn]
        exact (search_skip hskip _).trans
          (search_here (matchAt_interfaceBlock hi.ifname hi.babelType _))
      rw [findAllFrom, hfound]
      dsimp only
      rw [ih (fun s => search_skip hline s) (fun j hj => h j (List.mem_cons_of_mem _ hj))
        (by simp at hfuel; omega), List.map_cons]

theorem length_unlines_interfaces (interfaces : List BabelInterface) :
    interfaces.length ≤ (unlines (interfaces.flatMap BabelInterface.lines)).length := by
  induction interfaces with
  | nil => exact le_refl 0
  | cons i interfaces ih =>
      have hline : 1 ≤ (unlines i.lines).length := by
        rw [BabelInterface.lines, unlines, List.flatMap_cons, List.length_append]
        simp
      rw [List.flatMap_cons, unlines_append, List.length_append, List.length_cons]
      omega

/-- `babel.conf`, read back: every interface with its cost and its type. -/
theorem parse_renderBabelConf {interfaces : List BabelInterface} (hword : isWord 32 = false)
    (h : ∀ i ∈ interfaces, i.Readable) :
    parseBabelConfInterfaceParams isWord (renderBabelConf interfaces) =
      interfaces.map fun i => (i.ifname, ⟨some i.rxcost, some i.babelType⟩) := by
  have htext : renderBabelConf interfaces = unlines babelHeaderLines ++
      (unlines (interfaces.flatMap BabelInterface.lines) ++ lit "\n\x7d;\n") := by
    rw [renderBabelConf, babelLines, unlines_append, unlines_append, List.append_assoc]
    rfl
  have hlength : interfaces.length < (renderBabelConf interfaces).length + 1 := by
    rw [htext, List.length_append, List.length_append]
    have hlines := length_unlines_interfaces interfaces
    omega
  rw [parseBabelConfInterfaceParams, findAll]
  generalize (renderBabelConf interfaces).length + 1 = fuel at hlength ⊢
  rw [htext, findAll_interfaces search_babelHeader h hlength, List.filterMap_map]
  rw [← List.filterMap_eq_map]
  refine List.filterMap_congr fun i hi => ?_
  obtain ⟨hif, htype, hnonneg, hfits⟩ := h i hi
  obtain ⟨n, hn⟩ := Int.eq_ofNat_of_zero_le hnonneg
  have hstrip : strip i.ifname = i.ifname :=
    trim_of_trimmed (trimmed_of_all fun c hc => (hif.chars c hc).1)
  have hcost : (parseInterfaceBody isWord (interfaceBody i.babelType i.rxcost)).rxcost =
      some i.rxcost := by
    rw [hn]
    exact rxcost_interfaceBody hword htype (by omega)
  have hkind : (parseInterfaceBody isWord (interfaceBody i.babelType i.rxcost)).babelType =
      some i.babelType := by
    rw [hn]
    exact babelType_interfaceBody hword htype
  simp only [Function.comp_apply]
  rw [hstrip, if_neg (by simpa using hif.nonempty), ← hcost, ← hkind]

end Babel

end Dn42Ctl
