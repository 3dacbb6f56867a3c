import Dn42Ctl.Reimport
import Dn42Ctl.Scan

/-!
# ScanParse

What can come out of the parsers of a scan.  A value of a unit file is a stripped
part of one line without a `#`; an address or a number of a BIRD file is a part of
its text without white space.

* `ParsedNetdev.All`, `ParsedNetwork.All` — a property of every value;
* `parseNetworkdNetdev_values`, `parseNetworkdNetwork_values`;
* `Source`, `readCandidate_ok` — where the columns of a candidate come from.
-/

namespace Dn42Ctl

open Text Builtins Pattern

/-! ## values of unit files -/

/-- A value as it stands in a text: stripped, on one line, and not commented out. -/
structure UnitValue (text v : Str) : Prop where
  chars : ∀ c ∈ v, c ∈ text
  trimmed : Trimmed isSpace v
  oneLine : OneLine v
  noHash : 35 ∉ v

/-- Stripping adds nothing. -/
theorem mem_of_mem_rstrip {s : Str} {c : Nat} (h : c ∈ rstrip s) : c ∈ s := by
  have hpre := List.rdropWhile_prefix isSpace s
  exact hpre.subset h

/-- Nor does taking a comment away. -/
theorem mem_of_mem_stripInlineComment {s : Str} {c : Nat} (h : c ∈ stripInlineComment s) :
    c ∈ s := by
  rw [stripInlineComment] at h
  split at h
  · exact (List.takeWhile_sublist _).subset (mem_of_mem_rstrip h)
  · split at h
    · exact (List.takeWhile_sublist _).subset (mem_of_mem_rstrip h)
    · exact h

/-- No comment is left. -/
theorem noHash_stripInlineComment (s : Str) : 35 ∉ stripInlineComment s := by
  rw [stripInlineComment]
  split
  · intro hmem
    have hne := List.mem_takeWhile_imp (mem_of_mem_rstrip hmem)
    simp at hne
  · rename_i hcontains
    have hnot : 35 ∉ s := fun hmem => hcontains (List.contains_iff_mem.mpr hmem)
    split
    · exact fun hmem => hnot ((List.takeWhile_sublist _).subset (mem_of_mem_rstrip hmem))
    · exact hnot

/-- Nor does splitting at a separator. -/
theorem mem_of_partition {sep : Nat} {s a b : Str} {c : Nat}
    (h : partition sep s = (a, some b)) (hc : c ∈ b) : c ∈ s := by
  rw [partition, Prod.mk.injEq] at h
  obtain ⟨-, hrest⟩ := h
  split at hrest
  · cases hrest
  · rename_i d rest hdrop
    cases hrest
    refine (List.dropWhile_suffix (· != sep)).subset ?_
    rw [hdrop]
    exact List.mem_cons_of_mem _ hc

/-- The value of an assignment. -/
theorem readUnitLine_value {raw key v : Str} (h : readUnitLine raw = .assignment key v) :
    (∀ c ∈ v, c ∈ raw) ∧ Trimmed isSpace v ∧ 35 ∉ v := by
  rw [readUnitLine] at h
  split at h
  · cases h
  · dsimp only at h
    split at h
    · cases h
    · split at h
      · cases h
      · split at h
        · cases h
        · rename_i k rest hpart
          cases h
          refine ⟨fun c hc => ?_, trimmed_trim _ _, fun hmem => ?_⟩
          · have hline := mem_of_partition hpart (mem_of_mem_strip hc)
            exact mem_of_mem_strip (mem_of_mem_stripInlineComment hline)
          · exact noHash_stripInlineComment _ (mem_of_partition hpart (mem_of_mem_strip hmem))

/-- The lines of a text are parts of it. -/
theorem mem_of_mem_splitlinesFrom {line s l : Str} {c : Nat} (h : l ∈ splitlinesFrom line s)
    (hc : c ∈ l) : c ∈ line ∨ c ∈ s := by
  induction line, s using splitlinesFrom.induct with
  | case1 line hempty =>
      rw [splitlinesFrom, if_pos hempty] at h
      cases h
  | case2 line hempty =>
      rw [splitlinesFrom, if_neg hempty] at h
      rw [List.mem_singleton.mp h] at hc
      exact .inl (List.mem_reverse.mp hc)
  | case3 line cs ih =>
      rw [splitlinesFrom] at h
      rcases List.mem_cons.mp h with rfl | h
      · exact .inl (List.mem_reverse.mp hc)
      · rcases ih h with hnil | hcs
        · cases hnil
        · exact .inr (List.mem_cons_of_mem _ (List.mem_cons_of_mem _ hcs))
  | case4 line d cs hnot hbreak ih =>
      rw [splitlinesFrom_break hbreak (head_of_not hnot)] at h
      rcases List.mem_cons.mp h with rfl | h
      · exact .inl (List.mem_reverse.mp hc)
      · rcases ih h with hnil | hcs
        · cases hnil
        · exact .inr (List.mem_cons_of_mem _ hcs)
  | case5 line d cs hnot hbreak ih =>
      rw [splitlinesFrom_char (Bool.eq_false_iff.mpr hbreak)] at h
      rcases ih h with hline | hcs
      · rcases List.mem_cons.mp hline with rfl | hline
        · exact .inr (List.mem_cons_self ..)
        · exact .inl hline
      · exact .inr (List.mem_cons_of_mem _ hcs)

/-- The value of an assignment comes from the text of the unit. -/
theorem unitValue_of_line {text raw key v : Str} (hraw : raw ∈ splitlines text)
    (h : readUnitLine raw = .assignment key v) : UnitValue text v := by
  obtain ⟨hchars, htrimmed, hhash⟩ := readUnitLine_value h
  refine ⟨fun c hc => ?_, htrimmed, fun c hc => ?_, hhash⟩
  · exact (mem_of_mem_splitlinesFrom hraw (hchars c hc)).resolve_left List.not_mem_nil
  · exact oneLine_of_mem_splitlines hraw c (hchars c hc)

/-- What every assignment keeps, the loop keeps. -/
theorem foldl_unitStep {δ : Type} {assign : Str → Str → Str → δ → δ} {I : δ → Prop}
    {lines : List Str}
    (hassign : ∀ raw ∈ lines, ∀ heading key val d, readUnitLine raw = .assignment key val → I d →
      I (assign heading key val d))
    {heading : Str} {d : δ} (hd : I d) : I (lines.foldl (unitStep assign) (heading, d)).2 := by
  induction lines generalizing heading d with
  | nil => exact hd
  | cons raw lines ih =>
      have hrest := fun x hx => hassign x (List.mem_cons_of_mem _ hx)
      rw [List.foldl_cons, unitStep]
      cases hline : readUnitLine raw with
      | nothing => exact ih hrest hd
      | heading name => exact ih hrest hd
      | assignment key val =>
          exact ih hrest (hassign raw (List.mem_cons_self ..) _ _ _ _ hline hd)

/-! ## the dictionaries -/

/-- An item of `AllowedIPs` that is kept. -/
structure AllowedItem (v : Str) : Prop where
  nonempty : v ≠ []
  chars : ∀ c ∈ v, isSpace c = false ∧ c ≠ 44
  network : IpAddress.isIPv6Interface v = true

/-- The items of a list come from its text. -/
theorem allowedItems_item {val item : Str} (h : item ∈ allowedItems val) :
    AllowedItem item ∧ ∀ c ∈ item, c ∈ val := by
  rw [allowedItems, List.mem_filter, List.mem_map, Bool.and_eq_true, Bool.not_eq_true',
    List.isEmpty_eq_false_iff] at h
  obtain ⟨⟨raw, hraw, rfl⟩, hne, hnet⟩ := h
  have hchars := forall_mem_splitOnP hraw
  refine ⟨⟨hne, fun c hc => ?_, hnet⟩, fun c hc => (hchars c (mem_of_mem_strip hc)).2⟩
  have hsep := (hchars c (mem_of_mem_strip hc)).1
  simpa using hsep

/-- Every value has the property, and every allowed address is an item too. -/
structure ParsedNetdev.All (P : Str → Prop) (d : ParsedNetdev) : Prop where
  privateKey : ∀ v, d.privateKey = some v → P v
  peerPublicKey : ∀ v, d.peerPublicKey = some v → P v
  endpoint : ∀ v, d.endpoint = some v → P v
  allowedIps : ∀ v ∈ d.allowedIps, P v ∧ AllowedItem v

theorem UnitValue.item {text val item : Str} (h : UnitValue text val)
    (hitem : item ∈ allowedItems val) : UnitValue text item := by
  obtain ⟨hkept, hchars⟩ := allowedItems_item hitem
  refine ⟨fun c hc => h.chars c (hchars c hc), trimmed_of_all fun c hc => (hkept.chars c hc).1,
    fun c hc => h.oneLine c (hchars c hc), fun hc => h.noHash (hchars 35 hc)⟩

/-- An assignment of a `.netdev` unit stores a value of its text. -/
theorem netdevAssign_all {text heading key val : Str} {d : ParsedNetdev}
    (hval : UnitValue text val) (hd : d.All (UnitValue text)) :
    (netdevAssign heading key val d).All (UnitValue text) := by
  have hsome : ∀ v, some val = some v → UnitValue text v := by
    rintro v hv
    cases hv
    exact hval
  rw [netdevAssign]
  split
  · split
    · exact ⟨hsome, hd.peerPublicKey, hd.endpoint, hd.allowedIps⟩
    · split
      · split
        · exact ⟨hd.privateKey, hd.peerPublicKey, hd.endpoint, hd.allowedIps⟩
        · exact hd
      · exact hd
  · split
    · split
      · exact ⟨hd.privateKey, hsome, hd.endpoint, hd.allowedIps⟩
      · split
        · exact ⟨hd.privateKey, hd.peerPublicKey, hsome, hd.allowedIps⟩
        · split
          · refine ⟨hd.privateKey, hd.peerPublicKey, hd.endpoint, fun v hv => ?_⟩
            rcases List.mem_append.mp hv with hv | hv
            · exact hd.allowedIps v hv
            · exact ⟨hval.item hv, (allowedItems_item hv).1⟩
          · exact hd
    · exact hd

/-- Every value of a parsed `.netdev` comes from its text. -/
theorem parseNetworkdNetdev_values (text : Str) :
    (parseNetworkdNetdev text).All (UnitValue text) := by
  refine foldl_unitStep (fun raw hraw heading key val d hline hd =>
    netdevAssign_all (unitValue_of_line hraw hline) hd) ⟨?_, ?_, ?_, ?_⟩
  · exact fun v hv => by cases hv
  · exact fun v hv => by cases hv
  · exact fun v hv => by cases hv
  · exact fun v hv => absurd hv List.not_mem_nil

/-- An address is what stands before the slash of a value. -/
structure ParsedNetwork.All (P : Str → Prop) (d : ParsedNetwork) : Prop where
  localLla : ∀ v, d.localLla = some v → ∃ val, P val ∧ v = (partition 47 val).1
  peerLla : ∀ v, d.peerLla = some v → P v

/-- Every value of a parsed `.network` comes from its text. -/
theorem parseNetworkdNetwork_values (text : Str) :
    (parseNetworkdNetwork text).All (UnitValue text) := by
  refine foldl_unitStep (fun raw hraw heading key val d hline hd => ?_) ⟨?_, ?_⟩
  · have hval := unitValue_of_line hraw hline
    rw [networkAssign]
    split
    · split
      · refine ⟨fun v hv => ?_, hd.peerLla⟩
        cases hv
        exact ⟨val, hval, rfl⟩
      · split
        · refine ⟨hd.localLla, fun v hv => ?_⟩
          cases hv
          exact hval
        · exact hd
    · exact hd
  · exact fun v hv => by cases hv
  · exact fun v hv => by cases hv

/-! ## the columns of a candidate -/

/-- The columns that two dictionaries give. -/
def tunnelOf (netdev : ParsedNetdev) (network : ParsedNetwork) : ScannedTunnel where
  privateKey := textOf netdev.privateKey
  listenPort := if netdev.listenPort.getD 0 ≤ 0 then 0 else netdev.listenPort.getD 0
  localLla := textOf network.localLla
  peerPublicKey := orNone (textOf netdev.peerPublicKey)
  endpoint := orNone (textOf netdev.endpoint)
  allowedIps := if netdev.allowedIps.isEmpty then defaultAllowedIps else netdev.allowedIps
  peerLla := orNone (textOf network.peerLla)

/-- A tunnel is read when it has a private key and a local address. -/
theorem readTunnel_eq_ok {ifname : Str} {netdev : ParsedNetdev} {network : ParsedNetwork}
    {t : ScannedTunnel} :
    (readTunnel ifname netdev network).2 = .ok t ↔
      textOf netdev.privateKey ≠ [] ∧ textOf network.localLla ≠ [] ∧
        t = tunnelOf netdev network := by
  rw [readTunnel]
  dsimp only
  by_cases hkey : textOf netdev.privateKey = []
  · simp [hkey, skipped]
  · rw [if_neg (by simpa using hkey)]
    by_cases haddr : textOf network.localLla = []
    · simp [haddr, skipped]
    · rw [if_neg (by simpa using haddr)]
      constructor
      · intro h
        cases h
        exact ⟨hkey, haddr, rfl⟩
      · rintro ⟨-, -, rfl⟩
        rfl

/-- A file that is read has no surrogates. -/
theorem readText_plain {p : PosixPath} {state : FileState} {s : Str} (h : readText p state = .ok s) :
    encodable s = true := by
  cases state with
  | text u =>
      cases h
      exact u.2
  | _ => cases h

/-- The two texts an interface was read from. -/
theorem readNetworkd_ok {files : ScanFiles} {config : AppConfig} {ifname : Str} {t : ScannedTunnel}
    (h : (readNetworkd files config ifname).2 = .ok t) :
    ∃ netdevText networkText, encodable netdevText = true ∧ encodable networkText = true ∧
      (readTunnel ifname (parseNetworkdNetdev netdevText)
        (parseNetworkdNetwork networkText)).2 = .ok t := by
  rw [readNetworkd] at h
  dsimp only at h
  split at h
  · split at h
    · rename_i netdevText networkText hnetdev hnetwork
      exact ⟨netdevText, networkText, readText_plain hnetdev, readText_plain hnetwork, h⟩
    · cases h
    · cases h
  · cases h

/-! ## values that can be bound -/

/-- Neither has a text of its characters. -/
theorem encodable_of_chars {s t : Str} (h : ∀ c ∈ s, c ∈ t) (ht : encodable t = true) :
    encodable s = true := by
  rw [encodable, List.all_eq_true] at ht ⊢
  exact fun c hc => ht c (h c hc)

theorem encodable_of_part {s t : Str} (h : s <:+: t) (ht : encodable t = true) :
    encodable s = true :=
  encodable_of_chars (fun _ hc => h.subset hc) ht

/-- A clean name is ASCII. -/
theorem encodable_clean {s : Str} (h : CleanName s) : encodable s = true := by
  rw [encodable, List.all_eq_true]
  intro c hc
  have hname := (h.chars c hc).1
  simp only [isNameChar, isAlnum, Bool.or_eq_true, Bool.and_eq_true, decide_eq_true_eq,
    beq_iff_eq] at hname
  simp only [isSurrogate, Bool.not_eq_true', Bool.and_eq_false_iff, decide_eq_false_iff_not]
  omega

/-- The port is not negative and no text has a surrogate. -/
structure ScannedTunnel.Plain (t : ScannedTunnel) : Prop where
  port : 0 ≤ t.listenPort
  privateKey : encodable t.privateKey = true
  localLla : encodable t.localLla = true
  peerPublicKey : ∀ v, t.peerPublicKey = some v → encodable v = true
  endpoint : ∀ v, t.endpoint = some v → encodable v = true
  allowedIps : ∀ v ∈ t.allowedIps, encodable v = true
  peerLla : ∀ v, t.peerLla = some v → encodable v = true

theorem encodable_textOf {o : Option Str} {text : Str} (ht : encodable text = true)
    (h : ∀ v, o = some v → ∀ c ∈ v, c ∈ text) : encodable (textOf o) = true := by
  cases o with
  | none => rfl
  | some v => exact encodable_of_chars (fun c hc => h v rfl c (mem_of_mem_strip hc)) ht

theorem orNone_eq_some {s v : Str} : orNone s = some v ↔ s ≠ [] ∧ s = v := by
  rw [orNone]
  by_cases hs : s = []
  · simp [hs]
  · rw [if_neg (by simpa using hs)]
    simp [hs]

/-- A tunnel read from such files can be stored. -/
theorem tunnelOf_plain {netdevText networkText : Str} (hnetdev : encodable netdevText = true)
    (hnetwork : encodable networkText = true) :
    (tunnelOf (parseNetworkdNetdev netdevText) (parseNetworkdNetwork networkText)).Plain := by
  have hd := parseNetworkdNetdev_values netdevText
  have hw := parseNetworkdNetwork_values networkText
  have htext : ∀ {o : Option Str} {v : Str}, encodable (textOf o) = true →
      orNone (textOf o) = some v → encodable v = true := by
    intro o v ho hv
    rw [← (orNone_eq_some.mp hv).2]
    exact ho
  refine ⟨?_, ?_, ?_, fun v hv => ?_, fun v hv => ?_, fun v hv => ?_, fun v hv => ?_⟩
  · show 0 ≤ if _ ≤ _ then _ else _
    split <;> omega
  · exact encodable_textOf hnetdev fun v hv => (hd.privateKey v hv).chars
  · refine encodable_textOf hnetwork fun v hv c hc => ?_
    obtain ⟨val, hval, rfl⟩ := hw.localLla v hv
    exact hval.chars c ((List.takeWhile_sublist _).subset hc)
  · exact htext (encodable_textOf hnetdev fun v hv => (hd.peerPublicKey v hv).chars) hv
  · exact htext (encodable_textOf hnetdev fun v hv => (hd.endpoint v hv).chars) hv
  · simp only [tunnelOf] at hv
    split at hv
    · have hall : ∀ u ∈ defaultAllowedIps, encodable u = true := by decide
      exact hall v hv
    · exact encodable_of_chars (hd.allowedIps v hv).1.chars hnetdev
  · exact htext (encodable_textOf hnetwork fun v hv => (hw.peerLla v hv).chars) hv

/-- `int()` of digits is not negative. -/
theorem intOfStr_digits {s : Str} {k : Int} (hs : ∀ c ∈ s, isDigit c = true)
    (h : intOfStr s = some k) : 0 ≤ k := by
  have hsub : ∀ c ∈ ((s.dropWhile isIntSpace).reverse.dropWhile isIntSpace).reverse,
      isDigit c = true := by
    intro c hc
    have hc := (List.dropWhile_suffix _).subset (List.mem_reverse.mp hc)
    exact hs c ((List.dropWhile_suffix _).subset (List.mem_reverse.mp hc))
  rw [intOfStr] at h
  split at h
  · rename_i body hbody
    have hdigit := hsub 45 (by rw [hbody]; exact List.mem_cons_self ..)
    exact absurd hdigit (by decide)
  · obtain ⟨m, -, rfl⟩ := Option.map_eq_some_iff.mp h
    exact Int.natCast_nonneg m
  · obtain ⟨m, -, rfl⟩ := Option.map_eq_some_iff.mp h
    exact Int.natCast_nonneg m

/-- An address that a BIRD file gives. -/
structure FromBird (text v : Str) : Prop where
  nonempty : v ≠ []
  noSpace : ∀ c ∈ v, isSpace c = false
  part : v <:+: text

/-- What is read of a BGP peer's BIRD file comes from its text. -/
theorem parseBirdBgpPeerConf_ok {text ifname : Str} {asn : Int} {lla : Option Str}
    (h : parseBirdBgpPeerConf text ifname = (some asn, lla)) :
    0 ≤ asn ∧ ifname <:+: text ∧ ∃ v, lla = some v ∧ FromBird text v := by
  rw [parseBirdBgpPeerConf] at h
  split at h
  · rename_i peerLla digits rest hsearch
    obtain ⟨hgroups, hparts, htexts⟩ := searchFrom_groups hsearch
    rw [Prod.mk.injEq] at h
    obtain ⟨hasn, rfl⟩ := h
    cases hgroups with
    | cons hlla hgroups =>
        cases hgroups with
        | cons hdigits hnil =>
            refine ⟨intOfStr_digits hdigits.2 hasn, ?_, peerLla, rfl, ?_, ?_, ?_⟩
            · have hname := htexts ([37] ++ ifname) (by simp [boundNeighbor])
              exact (List.suffix_append [37] ifname).isInfix.trans hname
            · exact List.ne_nil_of_length_pos hlla.1
            · intro c hc
              have hclass := hlla.2 c hc
              simp only [Bool.and_eq_true, Bool.not_eq_true'] at hclass
              exact hclass.2
            · exact hparts peerLla (by simp)
  · cases h

/-- What is read of an iBGP peer's BIRD file comes from its text. -/
theorem parseBirdIbgpPeerConf_ok (text ifname : Str) :
    (∀ v, (parseBirdIbgpPeerConf text ifname).1 = some v → FromBird text v) ∧
      ∀ v, (parseBirdIbgpPeerConf text ifname).2 = some v → FromBird text v := by
  rw [parseBirdIbgpPeerConf]
  split
  · rename_i peerLla rest hsearch
    obtain ⟨hgroups, hparts, -⟩ := searchFrom_groups hsearch
    refine ⟨(fun v hv => by cases hv), fun v hv => ?_⟩
    cases hv
    cases hgroups with
    | cons hlla hnil =>
        refine ⟨List.ne_nil_of_length_pos hlla.1, fun c hc => ?_, hparts _ (by simp)⟩
        have hclass := hlla.2 c hc
        simp only [Bool.and_eq_true, Bool.not_eq_true'] at hclass
        exact hclass.2
  · split
    · rename_i peerIp rest hsearch
      obtain ⟨hgroups, hparts, -⟩ := searchFrom_groups hsearch
      refine ⟨fun v hv => ?_, fun v hv => by cases hv⟩
      cases hv
      cases hgroups with
      | cons hip hnil =>
          refine ⟨List.ne_nil_of_length_pos hip.1, fun c hc => ?_, hparts _ (by simp)⟩
          simpa using hip.2 c hc
    · exact ⟨(fun v hv => by cases hv), fun v hv => by cases hv⟩

/-- Where a candidate comes from: the texts of the two networkd files and, for its
peer's address, a BIRD file. -/
structure Source (netdev network : Str) (birdLla : Option Str) (c : Candidate) : Prop where
  netdevPlain : encodable netdev = true
  networkPlain : encodable network = true
  hasKey : textOf (parseNetworkdNetdev netdev).privateKey ≠ []
  hasAddress : textOf (parseNetworkdNetwork network).localLla ≠ []
  bird : ∀ v, birdLla = some v → v ≠ [] ∧ (∀ d ∈ v, isSpace d = false) ∧ encodable v = true
  tunnel : c.tunnel =
    { tunnelOf (parseNetworkdNetdev netdev) (parseNetworkdNetwork network) with
      peerLla := (orNone (textOf (parseNetworkdNetwork network).peerLla)).or birdLla }

/-- What is known about a candidate besides its source. -/
def Candidate.Sound (ifname : Str) : Candidate → Prop
  | .bgp asn t => 0 ≤ asn ∧ encodable ifname = true ∧ t.peerLla.isSome
  | .ibgp name peerIp _ => CleanName name ∧ ∀ v, peerIp = some v → encodable v = true

/-- A value of a BIRD file is a word that can be encoded. -/
theorem FromBird.plain {text v : Str} (h : FromBird text v) (ht : encodable text = true) :
    v ≠ [] ∧ (∀ d ∈ v, isSpace d = false) ∧ encodable v = true :=
  ⟨h.nonempty, h.noSpace, encodable_of_part h.part ht⟩

/-- A BGP candidate has the ASN of its BIRD file. -/
theorem readBgp_ok {files : ScanFiles} {config : AppConfig} {ifname : Str} {t : ScannedTunnel}
    {c : Candidate} (h : readBgp files config ifname t = .ok c) :
    ∃ asn v, c = .bgp asn { t with peerLla := t.peerLla.or (some v) } ∧ 0 ≤ asn ∧
      encodable ifname = true ∧ v ≠ [] ∧ (∀ d ∈ v, isSpace d = false) ∧ encodable v = true := by
  rw [readBgp] at h
  split at h
  · cases h
  · split at h
    · cases h
    · rename_i birdText htext
      split at h
      · cases h
      · rename_i asn birdLla hparse
        obtain ⟨hasn, hname, v, rfl, hv⟩ := parseBirdBgpPeerConf_ok hparse
        cases h
        have hplain := readText_plain htext
        exact ⟨asn, v, rfl, hasn, encodable_of_part hname hplain, hv.plain hplain⟩

/-- An iBGP candidate has the name of its interface. -/
theorem readIbgp_ok {files : ScanFiles} {config : AppConfig} {ifname : Str} {t : ScannedTunnel}
    {c : Candidate} (h : (readIbgp files config ifname t).2 = .ok c) :
    ∃ name peerIp lla, c = .ibgp name peerIp { t with peerLla := t.peerLla.or lla } ∧
      CleanName name ∧ (∀ v, peerIp = some v → encodable v = true) ∧
      ∀ v, lla = some v → v ≠ [] ∧ (∀ d ∈ v, isSpace d = false) ∧ encodable v = true := by
  have hnone : { t with peerLla := t.peerLla.or none } = t := by
    rw [Option.or_none]
  rw [readIbgp] at h
  split at h
  · cases h
  · rename_i name hname
    have hclean := cleanName_of_sanitizeName hname
    split at h
    · cases h
      exact ⟨name, none, none, by rw [hnone], hclean, (fun v hv => by cases hv),
        fun v hv => by cases hv⟩
    · split at h
      · cases h
        exact ⟨name, none, none, by rw [hnone], hclean, (fun v hv => by cases hv),
          fun v hv => by cases hv⟩
      · rename_i birdText htext
        cases h
        have hplain := readText_plain htext
        obtain ⟨hip, hlla⟩ := parseBirdIbgpPeerConf_ok birdText ifname
        exact ⟨name, _, _, rfl, hclean, fun v hv => ((hip v hv).plain hplain).2.2,
          fun v hv => (hlla v hv).plain hplain⟩

/-- **A candidate** comes from the files of its interface. -/
theorem readCandidate_ok {files : ScanFiles} {config : AppConfig} {ifname : Str} {c : Candidate}
    (h : (readCandidate files config ifname).2 = .ok c) :
    c.Sound ifname ∧ ∃ netdev network birdLla, Source netdev network birdLla c := by
  rw [readCandidate] at h
  cases hnetworkd : readNetworkd files config ifname with
  | mk warnings reading =>
      rw [hnetworkd] at h
      cases reading with
      | error reason => cases h
      | ok t =>
          obtain ⟨netdev, network, hnetdev, hnetwork, htunnel⟩ :=
            @readNetworkd_ok files config ifname t (by rw [hnetworkd])
          obtain ⟨hkey, haddress, rfl⟩ := readTunnel_eq_ok.mp htunnel
          dsimp only at h
          split at h
          · obtain ⟨asn, v, rfl, hasn, hname, hv⟩ := readBgp_ok h
            refine ⟨⟨hasn, hname, ?_⟩, netdev, network, some v, hnetdev, hnetwork, hkey, haddress,
              fun u hu => ?_, rfl⟩
            · rw [Option.isSome_or, Option.isSome_some, Bool.or_true]
            · cases hu
              exact hv
          · obtain ⟨name, peerIp, lla, rfl, hclean, hip, hlla⟩ := readIbgp_ok h
            exact ⟨⟨hclean, hip⟩, netdev, network, lla, hnetdev, hnetwork, hkey, haddress, hlla,
              rfl⟩

/-- No text of a candidate has a surrogate. -/
theorem Source.plain {netdev network : Str} {birdLla : Option Str} {c : Candidate}
    (h : Source netdev network birdLla c) : c.tunnel.Plain := by
  have ht := tunnelOf_plain h.netdevPlain h.networkPlain
  rw [h.tunnel]
  refine ⟨ht.port, ht.privateKey, ht.localLla, ht.peerPublicKey, ht.endpoint, ht.allowedIps,
    fun v hv => ?_⟩
  cases hown : orNone (textOf (parseNetworkdNetwork network).peerLla) with
  | some u =>
      rw [hown] at hv
      exact ht.peerLla v (hown.trans hv)
  | none =>
      rw [hown, Option.none_or] at hv
      exact (h.bird v hv).2.2

end Dn42Ctl
