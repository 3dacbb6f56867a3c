import Dn42Ctl.Lib.Digits
import Dn42Ctl.Render
import Dn42Ctl.ScanParse

/-!
# UnitFiles

The unit files of `Render`, read back by the parsers of `Scan`.  A line
`Key=value` is read as it was written, unless the value has a `#` or a `;`; the
lines a file name with line breaks smuggles in are read too.

* `readUnitLine_assigns` — one line of a template;
* `parse_renderNetworkdNetdev`, `parse_renderNetworkdNetwork` — a whole file.
-/

namespace Dn42Ctl

open Text Builtins

/-! ## one line -/

/-- The start `Key=` of a line. -/
structure Assigns (start key : Str) : Prop where
  eq : start = key ++ [61]
  nonempty : key ≠ []
  chars : ∀ c ∈ key, isAlnum c = true

/-- A value that fits on a line. -/
structure LineText (v : Str) : Prop where
  oneLine : OneLine v
  trimmed : Trimmed isSpace v

/-- What the parsers make of a value. -/
def lineValue (v : Str) : Str := strip (stripInlineComment v)

/-- A value with neither comment character. -/
def Uncommented (v : Str) : Prop := 35 ∉ v ∧ 59 ∉ v

instance (v : Str) : Decidable (Uncommented v) := inferInstanceAs (Decidable (_ ∧ _))

/-- A letter or a digit means nothing in a unit file. -/
theorem alnum_cases {c : Nat} (h : isAlnum c = true) :
    isSpace c = false ∧ c ≠ 35 ∧ c ≠ 59 ∧ c ≠ 61 ∧ c ≠ 91 := by
  simp only [isAlnum, Bool.or_eq_true, Bool.and_eq_true, decide_eq_true_eq] at h
  refine ⟨?_, ?_, ?_, ?_, ?_⟩
  · simp only [isSpace, whitespace, List.contains_eq_mem, List.mem_cons, List.not_mem_nil, or_false,
      decide_eq_false_iff_not, not_or]
    omega
  · omega
  · omega
  · omega
  · omega

/-- Without a comment nothing is stripped. -/
theorem stripInlineComment_of_none {v : Str} (h : Uncommented v) : stripInlineComment v = v := by
  rw [stripInlineComment, if_neg, if_neg]
  · rw [List.contains_iff_mem]
    exact h.2
  · rw [List.contains_iff_mem]
    exact h.1

/-- A comment after the start of a line. -/
theorem stripInlineComment_append {pre v : Str} (hpre : Uncommented pre)
    (hlast : ∀ c, pre.getLast? = some c → isSpace c = false) :
    stripInlineComment (pre ++ v) = pre ++ stripInlineComment v := by
  have hcut : ∀ d, d ∉ pre →
      rstrip ((pre ++ v).takeWhile (· != d)) = pre ++ rstrip (v.takeWhile (· != d)) := by
    intro d hd
    have hall : ∀ c ∈ pre, (c != d) = true := by
      intro c hc
      rw [bne_iff_ne]
      rintro rfl
      exact hd hc
    rw [List.takeWhile_append_of_pos hall, rstrip, rdropWhile_append_of_last hlast]
    rfl
  have hhash : (pre ++ v).contains 35 = v.contains 35 := by
    rw [Bool.eq_iff_iff, List.contains_iff_mem, List.contains_iff_mem, List.mem_append]
    exact or_iff_right hpre.1
  have hsemi : (pre ++ v).contains 59 = v.contains 59 := by
    rw [Bool.eq_iff_iff, List.contains_iff_mem, List.contains_iff_mem, List.mem_append]
    exact or_iff_right hpre.2
  rw [stripInlineComment, stripInlineComment, hhash, hsemi]
  split
  · exact hcut 35 hpre.1
  · split
    · exact hcut 59 hpre.2
    · rfl

theorem noSemicolon_stripInlineComment {v : Str} (h : 35 ∉ v) : 59 ∉ stripInlineComment v := by
  rw [stripInlineComment, if_neg (by rw [List.contains_iff_mem]; exact h)]
  split
  · intro hmem
    have hne := List.mem_takeWhile_imp (mem_of_mem_rstrip hmem)
    simp at hne
  · rename_i hcontains
    rw [List.contains_iff_mem] at hcontains
    exact hcontains

/-- A value is read back exactly when it has no comment character. -/
theorem lineValue_eq_self_iff {v : Str} (hv : Trimmed isSpace v) :
    lineValue v = v ↔ Uncommented v := by
  constructor
  · intro h
    have hhash : 35 ∉ v := by
      rw [← h]
      exact fun hmem => noHash_stripInlineComment v (mem_of_mem_strip hmem)
    refine ⟨hhash, ?_⟩
    rw [← h]
    exact fun hmem => noSemicolon_stripInlineComment hhash (mem_of_mem_strip hmem)
  · intro h
    rw [lineValue, stripInlineComment_of_none h, strip_eq_trim, trim_of_trimmed hv]

/-- A line of a template. -/
theorem readUnitLine_assigns {start key v : Str} (h : Assigns start key) (hv : Trimmed isSpace v) :
    readUnitLine (start ++ v) = .assignment key (lineValue v) := by
  obtain ⟨rfl, hne, hchars⟩ := h
  obtain ⟨k, ks, rfl⟩ := List.exists_cons_of_ne_nil hne
  have hk := alnum_cases (hchars k (List.mem_cons_self ..))
  have hlast : ∀ c, (k :: ks ++ [61]).getLast? = some c → isSpace c = false := by
    intro c hc
    rw [List.getLast?_concat, Option.some.injEq] at hc
    rw [← hc]
    rfl
  have hnone : Uncommented (k :: ks ++ [61]) := by
    have hnot : ∀ c ∈ k :: ks ++ [61], c ≠ 35 ∧ c ≠ 59 := by
      intro c hc
      rcases List.mem_append.mp hc with hc | hc
      · exact ⟨(alnum_cases (hchars c hc)).2.1, (alnum_cases (hchars c hc)).2.2.1⟩
      · rw [List.mem_singleton.mp hc]
        decide
    exact ⟨fun hmem => (hnot 35 hmem).1 rfl, fun hmem => (hnot 59 hmem).2 rfl⟩
  have hline : strip (k :: ks ++ [61] ++ v) = k :: ks ++ [61] ++ v := by
    rw [strip_eq_trim]
    refine trim_of_trimmed ⟨fun c hc => ?_, fun c hc => ?_⟩
    · cases hc
      exact hk.1
    · rw [List.getLast?_append] at hc
      cases hlast' : v.getLast? with
      | none =>
          rw [hlast', Option.none_or] at hc
          exact hlast c hc
      | some d =>
          rw [hlast', Option.some_or, Option.some.injEq] at hc
          rw [← hc]
          exact hv.last d hlast'
  have hkey : strip (k :: ks) = k :: ks := by
    rw [strip_eq_trim]
    exact trim_of_trimmed (trimmed_of_all fun c hc => (alnum_cases (hchars c hc)).1)
  have heq : 61 ∉ k :: ks := fun hmem => (alnum_cases (hchars 61 hmem)).2.2.2.1 rfl
  have hcomment : (startsWith (k :: ks ++ [61] ++ v) [35] ||
      startsWith (k :: ks ++ [61] ++ v) [59]) = false := by
    simp [startsWith, List.isPrefixOf, hk.2.1.symm, hk.2.2.1.symm]
  have hheading : startsWith (k :: ks ++ [61] ++ stripInlineComment v) [91] = false := by
    simp [startsWith, List.isPrefixOf, hk.2.2.2.2.symm]
  rw [readUnitLine, hline]
  dsimp only
  rw [Bool.or_assoc, hcomment, if_neg (by simp), stripInlineComment_append hnone hlast,
    if_neg (by simp), hheading, Bool.false_and, if_neg Bool.false_ne_true, List.append_assoc,
    List.singleton_append, partition_append heq]
  dsimp only
  rw [hkey, lineValue]

/-! ## numbers -/

/-- A number that was printed is read back. -/
theorem literalDigits_ascii {s : Str} (h : AsciiDigits s) (after : Bool)
    (hne : after = true ∨ s ≠ []) : literalDigits after s = some s := by
  induction s generalizing after with
  | nil =>
      rw [literalDigits, if_pos (hne.resolve_right fun h => h rfl)]
  | cons c cs ih =>
      have hc := h c (List.mem_cons_self ..)
      have hdigit : isDigit c = true := by
        rw [isDigit, digitValue_ascii hc]
        rfl
      rw [literalDigits, if_neg (by omega), if_pos hdigit,
        ih (fun d hd => h d (List.mem_cons_of_mem _ hd)) true (.inl rfl)]
      rfl

/-- `int(str(n))`, within the limit on digits. -/
theorem intOfStr_ofInt {n : Nat} (hn : n < 2 ^ 63) : intOfStr (ofInt n) = some (n : Int) := by
  have hdigits := asciiDigits_ofInt n
  have hne := ofInt_ne_nil n
  have hspace : ∀ c ∈ ofInt n, isIntSpace c = false := by
    intro c hc
    rw [isIntSpace, isSpace_ascii (hdigits c hc), Bool.false_and]
  have htrim : (((ofInt (n : Int)).dropWhile isIntSpace).reverse.dropWhile isIntSpace).reverse =
      ofInt (n : Int) := trim_of_trimmed (trimmed_of_all hspace)
  have hlength : (ofInt (n : Int)).length ≤ maxStrDigits := by
    show ((Nat.toDigits 10 n).map Char.toNat).length ≤ 4300
    rw [List.length_map]
    have hshort : (Nat.toDigits 10 n).length ≤ 19 :=
      (Nat.length_toDigits_le_iff (by decide) (by decide)).mpr (hn.trans (by decide))
    exact hshort.trans (by decide)
  have hliteral : natLiteral (ofInt n) = some n := by
    rw [natLiteral, literalDigits_ascii hdigits false (.inr hne)]
    dsimp only
    rw [if_neg (Nat.not_lt.mpr hlength), decimalValue_ofInt]
  rw [intOfStr, htrim]
  split
  · rename_i body hbody
    exact absurd (hdigits 45 (by rw [hbody]; exact List.mem_cons_self ..)) (by decide)
  · rename_i body hbody
    exact absurd (hdigits 43 (by rw [hbody]; exact List.mem_cons_self ..)) (by decide)
  · rw [hliteral]
    rfl

/-- A number is a plain value. -/
theorem lineText_ofInt (n : Nat) : LineText (ofInt n) ∧ Uncommented (ofInt n) := by
  have hdigits := asciiDigits_ofInt n
  have hspace : ∀ c ∈ ofInt (n : Int), isSpace c = false := fun c hc => isSpace_ascii (hdigits c hc)
  refine ⟨⟨oneLine_of_noSpace hspace, trimmed_of_all hspace⟩, fun hc => ?_, fun hc => ?_⟩
  · exact absurd (hdigits 35 hc) (by decide)
  · exact absurd (hdigits 59 hc) (by decide)

/-! ## a whole file -/

/-- The lines of a file, each of which may be several. -/
theorem splitlines_unlines (lines : List Str) :
    splitlines (unlines lines) = lines.flatMap fun l => splitlines (l ++ [10]) := by
  induction lines with
  | nil => rfl
  | cons l lines ih =>
      have happend : unlines (l :: lines) = l ++ 10 :: unlines lines := by
        rw [unlines, List.flatMap_cons, List.append_assoc]
        rfl
      rw [happend, splitlines_lf, ih, List.flatMap_cons]

/-- Lines that were written are read back one by one. -/
theorem flatMap_splitlines {lines : List Str} (h : ∀ l ∈ lines, OneLine l) :
    (lines.flatMap fun l => splitlines (l ++ [10])) = lines := by
  induction lines with
  | nil => rfl
  | cons l lines ih =>
      rw [List.flatMap_cons, splitlines_line (h l (List.mem_cons_self ..)),
        ih fun x hx => h x (List.mem_cons_of_mem _ hx), List.singleton_append]

/-- An assignment. -/
theorem unitStep_assigns {δ : Type} {assign : Str → Str → Str → δ → δ} {start key v heading : Str}
    {d : δ} (h : Assigns start key) (hv : Trimmed isSpace v) :
    unitStep assign (heading, d) (start ++ v) = (heading, assign heading key (lineValue v) d) := by
  rw [unitStep, readUnitLine_assigns h hv]

/-- A section's heading. -/
theorem unitStep_heading {δ : Type} {assign : Str → Str → Str → δ → δ} {raw name : Str}
    {state : Str × δ} (h : readUnitLine raw = .heading name) :
    unitStep assign state raw = (name, state.2) := by
  rw [unitStep, h]

/-- A line that is skipped. -/
theorem unitStep_nothing {δ : Type} {assign : Str → Str → Str → δ → δ} {raw : Str}
    {state : Str × δ} (h : readUnitLine raw = .nothing) : unitStep assign state raw = state := by
  rw [unitStep, h]

section Netdev

/-- What the parser has found after the `Name=` line: the lines of a file name are
lines of the file. -/
def smuggled (ifname : Str) : Str × ParsedNetdev :=
  (splitlines (lit "Name=" ++ ifname ++ [10])).foldl (unitStep netdevAssign) (lit "NetDev", {})

variable {heading key val : Str} {d : ParsedNetdev}

/-- A key that is not known is skipped. -/
theorem netdevAssign_unknown
    (h : key ∉ [lit "PrivateKey", lit "ListenPort", lit "PublicKey", lit "Endpoint",
      lit "AllowedIPs"]) : netdevAssign heading key val d = d := by
  simp only [List.mem_cons, List.not_mem_nil, or_false, not_or] at h
  obtain ⟨h1, h2, h3, h4, h5⟩ := h
  rw [netdevAssign, if_neg h1, if_neg h2, if_neg h3, if_neg h4, if_neg h5, ite_self, ite_self]

theorem netdevAssign_privateKey :
    netdevAssign (lit "WireGuard") (lit "PrivateKey") val d =
      { d with privateKey := some val } := by
  rw [netdevAssign, if_pos rfl, if_pos rfl]

theorem netdevAssign_listenPort {port : Int} (h : intOfStr val = some port) :
    netdevAssign (lit "WireGuard") (lit "ListenPort") val d =
      { d with listenPort := some port } := by
  rw [netdevAssign, if_pos rfl, if_neg (by decide), if_pos rfl, h]

theorem netdevAssign_publicKey :
    netdevAssign (lit "WireGuardPeer") (lit "PublicKey") val d =
      { d with peerPublicKey := some val } := by
  rw [netdevAssign, if_neg (by decide), if_pos rfl, if_pos rfl]

theorem netdevAssign_endpoint :
    netdevAssign (lit "WireGuardPeer") (lit "Endpoint") val d =
      { d with endpoint := some val } := by
  rw [netdevAssign, if_neg (by decide), if_pos rfl, if_neg (by decide), if_pos rfl]

theorem netdevAssign_allowedIps :
    netdevAssign (lit "WireGuardPeer") (lit "AllowedIPs") val d =
      { d with allowedIps := d.allowedIps ++ allowedItems val } := by
  rw [netdevAssign, if_neg (by decide), if_pos rfl, if_neg (by decide), if_neg (by decide),
    if_pos rfl]

/-- The allowed prefixes. -/
theorem foldl_allowedIps {allowed : List Str} (h : ∀ a ∈ allowed, Trimmed isSpace a) :
    (allowed.map fun cidr => lit "AllowedIPs=" ++ cidr).foldl (unitStep netdevAssign)
        (lit "WireGuardPeer", d) =
      (lit "WireGuardPeer", { d with
        allowedIps := d.allowedIps ++ allowed.flatMap fun a => allowedItems (lineValue a) }) := by
  induction allowed generalizing d with
  | nil => simp
  | cons a allowed ih =>
      have hassigns : Assigns (lit "AllowedIPs=") (lit "AllowedIPs") :=
        ⟨rfl, by decide, by decide⟩
      rw [List.map_cons, List.foldl_cons, unitStep_assigns hassigns (h a (List.mem_cons_self ..)),
        ih fun b hb => h b (List.mem_cons_of_mem _ hb), netdevAssign_allowedIps, List.flatMap_cons,
        List.append_assoc]

variable {ifname priv pub ep : Str} {port : Int} {allowed : List Str}

/-- The lines up to the key of the tunnel. -/
theorem foldl_netdevHead (hpriv : LineText priv) :
    ([lit "[NetDev]", lit "Name=" ++ ifname, lit "Kind=wireguard", [], lit "[WireGuard]",
        lit "PrivateKey=" ++ priv].flatMap fun l => splitlines (l ++ [10])).foldl
        (unitStep netdevAssign) ([], {}) =
      (lit "WireGuard", { (smuggled ifname).2 with privateKey := some (lineValue priv) }) := by
  have hkind : Assigns (lit "Kind=") (lit "Kind") := ⟨rfl, by decide, by decide⟩
  have hkey : Assigns (lit "PrivateKey=") (lit "PrivateKey") := ⟨rfl, by decide, by decide⟩
  have hline : OneLine (lit "PrivateKey=" ++ priv) :=
    oneLine_append.mpr ⟨by decide, hpriv.oneLine⟩
  have hwireguard : Trimmed isSpace (lit "wireguard") := trimmed_of_all (by decide)
  have hsmuggled : (splitlines (lit "Name=" ++ ifname ++ [10])).foldl (unitStep netdevAssign)
      (lit "NetDev", {}) = ((smuggled ifname).1, (smuggled ifname).2) := rfl
  simp only [List.flatMap_cons, List.flatMap_nil, List.append_nil, List.foldl_append]
  rw [splitlines_line (by decide : OneLine (lit "[NetDev]")), List.foldl_cons, List.foldl_nil,
    unitStep_heading (by decide : readUnitLine (lit "[NetDev]") = .heading (lit "NetDev")),
    hsmuggled, splitlines_line (by decide : OneLine (lit "Kind=wireguard")), List.foldl_cons,
    List.foldl_nil, show lit "Kind=wireguard" = lit "Kind=" ++ lit "wireguard" from rfl,
    unitStep_assigns hkind hwireguard, netdevAssign_unknown (by decide)]
  rw [splitlines_line (by decide : OneLine []), List.foldl_cons, List.foldl_nil,
    unitStep_nothing (by decide : readUnitLine [] = .nothing),
    splitlines_line (by decide : OneLine (lit "[WireGuard]")), List.foldl_cons, List.foldl_nil,
    unitStep_heading (by decide : readUnitLine (lit "[WireGuard]") = .heading (lit "WireGuard")),
    splitlines_line hline, List.foldl_cons, List.foldl_nil,
    unitStep_assigns hkey hpriv.trimmed, netdevAssign_privateKey]

/-- The port, where there is one. -/
theorem foldl_listenPort (hport : port < 2 ^ 63) :
    ((if port > 0 then [lit "ListenPort=" ++ ofInt port] else []).flatMap
        fun l => splitlines (l ++ [10])).foldl (unitStep netdevAssign) (lit "WireGuard", d) =
      (lit "WireGuard", { d with listenPort := if port > 0 then some port else d.listenPort }) := by
  by_cases hpos : port > 0
  · obtain ⟨n, rfl⟩ := Int.eq_ofNat_of_zero_le hpos.le
    obtain ⟨hline, hplain⟩ := lineText_ofInt n
    have hassigns : Assigns (lit "ListenPort=") (lit "ListenPort") := ⟨rfl, by decide, by decide⟩
    have hone : OneLine (lit "ListenPort=" ++ ofInt n) :=
      oneLine_append.mpr ⟨by decide, hline.oneLine⟩
    have hval : intOfStr (lineValue (ofInt n)) = some (n : Int) := by
      rw [(lineValue_eq_self_iff hline.trimmed).mpr hplain]
      exact intOfStr_ofInt (by omega)
    rw [if_pos hpos, if_pos hpos, List.flatMap_singleton, splitlines_line hone, List.foldl_cons,
      List.foldl_nil, unitStep_assigns hassigns hline.trimmed, netdevAssign_listenPort hval]
  · rw [if_neg hpos, if_neg hpos]
    rfl

/-- The public key of the peer. -/
theorem foldl_peerHead (hpub : LineText pub) :
    ([lit "RouteTable=off", [], lit "[WireGuardPeer]", lit "PublicKey=" ++ pub].flatMap
        fun l => splitlines (l ++ [10])).foldl (unitStep netdevAssign) (lit "WireGuard", d) =
      (lit "WireGuardPeer", { d with peerPublicKey := some (lineValue pub) }) := by
  have htable : Assigns (lit "RouteTable=") (lit "RouteTable") := ⟨rfl, by decide, by decide⟩
  have hkey : Assigns (lit "PublicKey=") (lit "PublicKey") := ⟨rfl, by decide, by decide⟩
  have hoff : Trimmed isSpace (lit "off") := trimmed_of_all (by decide)
  have hlines : ∀ l ∈ [lit "RouteTable=off", [], lit "[WireGuardPeer]", lit "PublicKey=" ++ pub],
      OneLine l := by
    simp only [List.forall_mem_cons, List.not_mem_nil, false_imp_iff, implies_true, and_true]
    exact ⟨by decide, by decide, by decide, oneLine_append.mpr ⟨by decide, hpub.oneLine⟩⟩
  rw [flatMap_splitlines hlines, List.foldl_cons,
    show lit "RouteTable=off" = lit "RouteTable=" ++ lit "off" from rfl,
    unitStep_assigns htable hoff, netdevAssign_unknown (by decide), List.foldl_cons,
    unitStep_nothing (by decide : readUnitLine [] = .nothing), List.foldl_cons,
    unitStep_heading (by decide :
      readUnitLine (lit "[WireGuardPeer]") = .heading (lit "WireGuardPeer")),
    List.foldl_cons, List.foldl_nil, unitStep_assigns hkey hpub.trimmed, netdevAssign_publicKey]

/-- The endpoint, where there is one. -/
theorem foldl_endpoint (hep : LineText ep) :
    ((if ep.isEmpty then [] else [lit "Endpoint=" ++ ep]).flatMap
        fun l => splitlines (l ++ [10])).foldl (unitStep netdevAssign) (lit "WireGuardPeer", d) =
      (lit "WireGuardPeer",
        { d with endpoint := if ep.isEmpty then d.endpoint else some (lineValue ep) }) := by
  have hassigns : Assigns (lit "Endpoint=") (lit "Endpoint") := ⟨rfl, by decide, by decide⟩
  have hone : OneLine (lit "Endpoint=" ++ ep) := oneLine_append.mpr ⟨by decide, hep.oneLine⟩
  cases hempty : ep.isEmpty with
  | true => rfl
  | false =>
      rw [if_neg Bool.false_ne_true, if_neg Bool.false_ne_true, List.flatMap_singleton,
        splitlines_line hone, List.foldl_cons, List.foldl_nil,
        unitStep_assigns hassigns hep.trimmed, netdevAssign_endpoint]

/-- A rendered `.netdev` file, read back. -/
theorem parse_renderNetworkdNetdev (hpriv : LineText priv) (hport : port < 2 ^ 63)
    (hpub : LineText pub) (hep : LineText ep) (hallowed : ∀ a ∈ allowed, LineText a) :
    parseNetworkdNetdev (renderNetworkdNetdev ifname priv port pub ep allowed) =
      { privateKey := some (lineValue priv)
        listenPort := if port > 0 then some port else (smuggled ifname).2.listenPort
        peerPublicKey := some (lineValue pub)
        endpoint := if ep.isEmpty then (smuggled ifname).2.endpoint else some (lineValue ep)
        allowedIps := (smuggled ifname).2.allowedIps ++
          allowed.flatMap fun a => allowedItems (lineValue a) } := by
  have hitems : ∀ l ∈ allowed.map fun cidr => lit "AllowedIPs=" ++ cidr, OneLine l := by
    intro l hl
    obtain ⟨a, ha, rfl⟩ := List.mem_map.mp hl
    exact oneLine_append.mpr ⟨by decide, (hallowed a ha).oneLine⟩
  rw [parseNetworkdNetdev, renderNetworkdNetdev, splitlines_unlines, netdevLines]
  simp only [List.flatMap_append, List.foldl_append]
  rw [foldl_netdevHead hpriv, foldl_listenPort hport, foldl_peerHead hpub, foldl_endpoint hep,
    flatMap_splitlines hitems, foldl_allowedIps fun a ha => (hallowed a ha).trimmed]

end Netdev

section Network

variable {heading key val : Str} {d : ParsedNetwork}

theorem networkAssign_address :
    networkAssign (lit "Address") (lit "Address") val d =
      { d with localLla := some (partition 47 val).1 } := by
  rw [networkAssign, if_pos rfl, if_pos rfl]

theorem networkAssign_peer :
    networkAssign (lit "Address") (lit "Peer") val d = { d with peerLla := some val } := by
  rw [networkAssign, if_pos rfl, if_neg (by decide), if_pos rfl]

/-- Lines without a heading change nothing outside the section of the addresses. -/
theorem foldl_networkAssign {lines : List Str} (hheading : heading ≠ lit "Address")
    (hlines : ∀ l ∈ lines, ∀ name, readUnitLine l ≠ .heading name) :
    lines.foldl (unitStep networkAssign) (heading, d) = (heading, d) := by
  induction lines with
  | nil => rfl
  | cons l lines ih =>
      have hstep : unitStep networkAssign (heading, d) l = (heading, d) := by
        rw [unitStep]
        cases hread : readUnitLine l with
        | nothing => rfl
        | heading name => exact absurd hread (hlines l (List.mem_cons_self ..) name)
        | assignment key val =>
            dsimp only
            rw [networkAssign, if_neg hheading]
      rw [List.foldl_cons, hstep, ih fun x hx => hlines x (List.mem_cons_of_mem _ hx)]

/-- A rendered `.network` file, read back: nothing a file name smuggles in
survives. -/
theorem parse_renderNetworkdNetwork {ifname localLla peerLla : Str}
    (hlocal : LineText (localLla ++ lit "/128")) (hpeer : LineText peerLla) :
    parseNetworkdNetwork (renderNetworkdNetwork ifname localLla peerLla) =
      { localLla := some (partition 47 (lineValue (localLla ++ lit "/128"))).1
        peerLla := some (lineValue peerLla) } := by
  have haddress : Assigns (lit "Address=") (lit "Address") := ⟨rfl, by decide, by decide⟩
  have hassigns : Assigns (lit "Peer=") (lit "Peer") := ⟨rfl, by decide, by decide⟩
  have hsplit : networkLines ifname localLla peerLla =
      [lit "[Match]", lit "Name=" ++ ifname] ++
        ([] :: lit "[Network]" :: ([lit "DHCP=no", lit "IPv6AcceptRA=false", lit "IPForward=yes",
          lit "IPv4ReversePathFilter=no", [], lit "KeepConfiguration=yes", []] ++
          [lit "[Address]", lit "Address=" ++ (localLla ++ lit "/128"),
            lit "Peer=" ++ peerLla])) := by
    rw [networkLines, List.append_assoc]
    rfl
  have hlines : ∀ l ∈ ([] :: lit "[Network]" :: ([lit "DHCP=no", lit "IPv6AcceptRA=false",
      lit "IPForward=yes", lit "IPv4ReversePathFilter=no", [], lit "KeepConfiguration=yes", []] ++
      [lit "[Address]", lit "Address=" ++ (localLla ++ lit "/128"), lit "Peer=" ++ peerLla])),
      OneLine l := by
    simp only [List.cons_append, List.nil_append, List.forall_mem_cons, List.not_mem_nil,
      false_imp_iff, implies_true, and_true]
    exact ⟨by decide, by decide, by decide, by decide, by decide, by decide, by decide, by decide,
      by decide, by decide, oneLine_append.mpr ⟨by decide, hlocal.oneLine⟩,
      oneLine_append.mpr ⟨by decide, hpeer.oneLine⟩⟩
  have hplain : ∀ l ∈ [lit "DHCP=no", lit "IPv6AcceptRA=false", lit "IPForward=yes",
      lit "IPv4ReversePathFilter=no", [], lit "KeepConfiguration=yes", []],
      ∀ name, readUnitLine l ≠ .heading name := by
    have hkind : ∀ l ∈ [lit "DHCP=no", lit "IPv6AcceptRA=false", lit "IPForward=yes",
        lit "IPv4ReversePathFilter=no", [], lit "KeepConfiguration=yes", []],
        (match readUnitLine l with | .heading _ => false | _ => true) = true := by decide
    intro l hl name hread
    have hl := hkind l hl
    rw [hread] at hl
    cases hl
  rw [parseNetworkdNetwork, renderNetworkdNetwork, splitlines_unlines, hsplit, List.flatMap_append,
    List.foldl_append, flatMap_splitlines hlines]
  -- whatever the first two lines leave behind is overwritten
  generalize ([lit "[Match]", lit "Name=" ++ ifname].flatMap fun l => splitlines (l ++ [10])).foldl
    (unitStep networkAssign) ([], {}) = state
  rw [List.foldl_cons, unitStep_nothing (by decide : readUnitLine [] = .nothing), List.foldl_cons,
    unitStep_heading (by decide : readUnitLine (lit "[Network]") = .heading (lit "Network")),
    List.foldl_append, foldl_networkAssign (by decide) hplain, List.foldl_cons,
    unitStep_heading (by decide : readUnitLine (lit "[Address]") = .heading (lit "Address")),
    List.foldl_cons, unitStep_assigns haddress hlocal.trimmed, networkAssign_address,
    List.foldl_cons, unitStep_assigns hassigns hpeer.trimmed, networkAssign_peer, List.foldl_nil]

end Network

end Dn42Ctl
