import Dn42Ctl.Endpoints
import Dn42Ctl.Proposals
import Dn42Ctl.PublicKeys
import Dn42Ctl.RenderAgreement
import Dn42Ctl.TemplateLines

/-!
# PayloadLines

What a peer payload that the checks accept can do to the lines of the files
rendered from it.  The keys, the names, the ports and the link-local addresses
the hub makes are one line each.  Two checks let more through: the host of an
endpoint is any text without a colon, or without a line feed between brackets,
and the scope id of an IPv6 address is any text without a percent sign.

* `validatePubkey_oneLine`, `oneLine_endpoint_iff`, `oneLine_address_iff` — the
  three validators;
* `bgp_payload_lines_iff`, `ibgp_payload_lines_iff` — the files of the row an
  accepted payload is stored as have the lines of the templates exactly when
  host and scope ids are one line.
-/

namespace Dn42Ctl

open Text Txn IpAddress

/-! ## the validators -/

/-- A text of characters that break no line is one line. -/
theorem oneLine_of_none {p : Nat → Bool} (hp : ∀ c ∈ lineBreaks, p c = false) {s : Str}
    (h : ∀ c ∈ s, p c = true) : OneLine s := by
  intro c hc
  cases hb : isLineBreak c with
  | false => rfl
  | true =>
      have hnone := hp c (List.contains_iff_mem.mp hb)
      rw [h c hc] at hnone
      cases hnone

/-- An accepted key is one line. -/
theorem validatePubkey_oneLine {s v : Str} (h : validatePubkey s = .ok v) : OneLine v := by
  obtain ⟨-, tail, htail, -⟩ := (validatePubkey_ok_iff s v).mp h
  obtain ⟨out, hout, -⟩ := htail.decodes
  have hchars := Base64.alphabet_of_decodeFrom hout
  apply oneLine_of_none (p := fun c => c == 61 || (Base64.charValue c).isSome) (by decide)
  intro c hc
  obtain rfl | hsome := hchars c hc
  · rfl
  · rw [hsome, Bool.or_true]

theorem oneLine_digits {s : Str} (h : s.all isDigit = true) : OneLine s :=
  oneLine_of_noSpace fun c hc => digit_not_space (List.all_eq_true.mp h c hc)

/-- An accepted endpoint is one line when its host is. -/
theorem oneLine_endpoint_iff {s v : Str} (h : validateEndpoint s true = .ok v) :
    OneLine v ↔ ∀ host digits, matchEndpoint v = some (host, digits) → OneLine host := by
  have hcolon : isLineBreak 58 = false := by decide
  by_cases hempty : v = []
  · subst hempty
    have hnone : matchEndpoint [] = none := rfl
    rw [hnone]
    exact ⟨fun _ host digits hmatch => (by cases hmatch), fun _ => oneLine_nil⟩
  · have hparts : ∃ host digits, EndpointParts v host digits := by
      unfold validateEndpoint at h
      simp only at h
      split at h
      · next hnil =>
          simp only [if_true] at h
          cases h
          exact absurd (List.isEmpty_iff.mp hnil) hempty
      · split at h
        · cases h
        · next host digits hmatch =>
            split at h
            · cases h
            · split at h
              · cases h
                exact ⟨_, _, matchEndpoint_eq_some.mp hmatch⟩
              · cases h
    obtain ⟨host, digits, hp⟩ := hparts
    rw [matchEndpoint_eq_some.mpr hp]
    have htext : OneLine v ↔ OneLine host := by
      rw [hp.text]
      apply oneLine_tail
      intro c hc
      rcases List.mem_cons.mp hc with rfl | hc
      · exact hcolon
      · exact oneLine_digits hp.digits_all c hc
    rw [htext]
    constructor
    · rintro hone host' digits' hsame
      cases hsame
      exact hone
    · intro hall
      exact hall host digits rfl

/-- The characters of an address that are not in its scope id. -/
def isAddressChar (c : Nat) : Bool := isHexDigit c || c == 58 || c == 46 || c == 47

/-- What stands before the scope of an IPv6 address is made of address characters. -/
theorem isIPv6_front {a : Str} (h : isIPv6 a = true) :
    ∀ c ∈ (partition 37 a).1, isAddressChar c = true := by
  have hbody : isIPv6Body (partition 37 a).1 = true := by
    cases hparts : partition 37 a with
    | mk addr scope =>
        simp only [isIPv6, hparts, Bool.and_eq_true] at h
        cases scope with
        | none => exact h.2
        | some scope =>
            simp only [Bool.and_eq_true] at h
            exact h.2.2
  intro c hc
  obtain hc | rfl | rfl := isIPv6Body_chars hbody c hc
  · simp [isAddressChar, hc]
  · rfl
  · rfl

/-- Before the scope id there is an address, after which a mask may stand. -/
theorem isIPv6Text_front {v : Str} (h : isIPv6Text v = true) :
    ∀ c ∈ (partition 37 v).1, isAddressChar c = true := by
  unfold isIPv6Text at h
  split at h
  · next hslash =>
      obtain ⟨a, mask, rfl, ha⟩ := List.eq_append_cons_of_mem (List.contains_iff_mem.mp hslash)
      rw [isIPv6Interface, partition_append ha, Bool.and_eq_true] at h
      have hfront := isIPv6_front h.1
      have hmask : ∀ c ∈ mask, isAddressChar c = true := by
        have hlen := h.2
        simp only [isPrefixLen, isAsciiDigits, Bool.and_eq_true, List.all_eq_true,
          decide_eq_true_eq] at hlen
        intro c hc
        simp [isAddressChar, isHexDigit, hlen.1.1.2 c hc]
      by_cases hscope : 37 ∈ a
      · -- the scope id begins before the mask
        obtain ⟨b, zone, rfl, hb⟩ := List.eq_append_cons_of_mem hscope
        rw [partition_append hb] at hfront
        rw [List.append_assoc, List.cons_append, partition_append hb]
        exact hfront
      · rw [partition_of_notMem hscope] at hfront
        have hnone : 37 ∉ a ++ 47 :: mask := by
          simp only [List.mem_append, List.mem_cons, not_or]
          refine ⟨hscope, by decide, fun hmem => ?_⟩
          exact absurd (hmask 37 hmem) (by decide)
        rw [partition_of_notMem hnone]
        intro c hc
        simp only [List.mem_append, List.mem_cons] at hc
        obtain hc | rfl | hc := hc
        · exact hfront c hc
        · rfl
        · exact hmask c hc
  · exact isIPv6_front h

/-- What the address check lets through. -/
theorem validateIpv6Address_ok {s name v : Str} (h : validateIpv6Address s name = .ok v) :
    v ≠ [] ∧ isIPv6Text v = true := by
  unfold validateIpv6Address validateWith at h
  simp only at h
  split at h
  · cases h
  · next hne =>
      split at h
      · next hgrammar =>
          cases h
          exact ⟨by simpa using hne, hgrammar⟩
      · cases h

/-- An accepted address is one line when its scope id is. -/
theorem oneLine_address_iff {v : Str} (h : isIPv6Text v = true) :
    OneLine v ↔ ∀ zone, (partition 37 v).2 = some zone → OneLine zone := by
  have hfront : OneLine (partition 37 v).1 :=
    oneLine_of_none (by decide) (isIPv6Text_front h)
  by_cases hscope : 37 ∈ v
  · obtain ⟨a, zone, rfl, ha⟩ := List.eq_append_cons_of_mem hscope
    rw [partition_append ha] at hfront ⊢
    have hpercent : OneLine [37] := by decide
    rw [oneLine_label hfront, ← List.singleton_append, oneLine_label hpercent]
    constructor
    · rintro hone zone' hsame
      cases hsame
      exact hone
    · intro hall
      exact hall zone rfl
  · rw [partition_of_notMem hscope] at hfront ⊢
    exact ⟨fun _ zone hsame => (by cases hsame), fun _ => hfront⟩

/-! ## accepted payloads -/

/-- A check that passes leaves the value as it is. -/
theorem checked_ok {α : Type} {field : String} {r : Except PyError α} {a : α}
    (h : checked field r = .ok a) : r = .ok a := by
  cases r with
  | error e => cases h
  | ok b =>
      cases h
      rfl

/-- A required text has passed its validator. -/
theorem requireText_ok {peer : JsonObject} {field : String} {validator : Str → Except PyError Str}
    {v : Str} (h : requireText peer field validator = .ok v) : ∃ s, validator s = .ok v := by
  unfold requireText at h
  simp only [Prog.bind_eq_ok] at h
  obtain ⟨_, -, s, -, h⟩ := h
  exact ⟨s, checked_ok h⟩

/-- A required address is a checked one. -/
theorem requireIpv6_ok {peer : JsonObject} {field : String} {v : Str}
    (h : requireIpv6 peer field = .ok v) : v ≠ [] ∧ isIPv6Text v = true := by
  obtain ⟨s, hs⟩ := requireText_ok h
  exact validateIpv6Address_ok hs

/-- An endpoint of a payload has passed the endpoint check. -/
theorem payloadEndpoint_ok {peer : JsonObject} {v : Str} (h : payloadEndpoint peer = .ok v) :
    ∃ s, validateEndpoint s true = .ok v := by
  unfold payloadEndpoint at h
  simp only [Prog.bind_eq_ok] at h
  obtain ⟨s, -, h⟩ := h
  exact ⟨s, checked_ok h⟩

/-- The texts of an accepted BGP payload. -/
structure BgpPeerPayload.Accepted (p : BgpPeerPayload) : Prop where
  key : OneLine p.peerPublicKey
  endpoint : ∃ s, validateEndpoint s true = .ok p.endpoint
  llaNonempty : p.peerLla ≠ []
  lla : isIPv6Text p.peerLla = true

/-- What `_parse_bgp_peer` lets through. -/
theorem parseBgpPeer_ok {peer : JsonObject} {p : BgpPeerPayload} (h : parseBgpPeer peer = .ok p) :
    p.Accepted := by
  unfold parseBgpPeer at h
  simp only [Prog.bind_eq_ok] at h
  obtain ⟨asn, -, key, hkey, endpoint, hend, lla, hlla, backend, -, port, -, h⟩ := h
  cases h
  obtain ⟨s, hs⟩ := requireText_ok hkey
  obtain ⟨hne, hlla⟩ := requireIpv6_ok hlla
  exact ⟨validatePubkey_oneLine hs, payloadEndpoint_ok hend, hne, hlla⟩

/-- The texts of an accepted iBGP payload for a new peer. -/
structure IbgpPeerPayload.Accepted (p : IbgpPeerPayload) : Prop where
  tunnel : p.hasWg = true → ∃ key lla, p.peerPublicKey = some key ∧ OneLine key ∧
    p.peerLla = some lla ∧ isIPv6Text lla = true
  endpoint : ∃ s, validateEndpoint s true = .ok p.endpoint
  ipNonempty : p.peerIp ≠ []
  ip : isIPv6Text p.peerIp = true

/-- A tunnel that parses has a one-line key and a checked address. -/
theorem parseTunnel_ok {peer : JsonObject} {t : Option Str × Option Str}
    (h : parseTunnel peer = .ok t) :
    ∃ key lla, t = (some key, some lla) ∧ OneLine key ∧ isIPv6Text lla = true := by
  unfold parseTunnel at h
  simp only [Prog.bind_eq_ok] at h
  obtain ⟨key, hkey, lla, hlla, h⟩ := h
  cases h
  obtain ⟨s, hs⟩ := requireText_ok hkey
  exact ⟨key, lla, rfl, validatePubkey_oneLine hs, (requireIpv6_ok hlla).2⟩

/-- What `_parse_ibgp_peer` lets through. -/
theorem parseIbgpPeer_ok {peer : JsonObject} {p : IbgpPeerPayload}
    (h : parseIbgpPeer peer = .ok p) : p.Accepted := by
  unfold parseIbgpPeer at h
  simp only [Prog.bind_eq_ok] at h
  obtain ⟨name, -, _, -, hasWg, -, h⟩ := h
  cases hasWg with
  | true =>
      simp only [if_true, Prog.bind_eq_ok] at h
      obtain ⟨tunnel, htunnel, ip, hip, endpoint, hend, _, -, _, -, _, -, _, -, h⟩ := h
      cases h
      obtain ⟨hne, hip⟩ := requireIpv6_ok hip
      obtain ⟨key, lla, rfl, hkey, hlla⟩ := parseTunnel_ok htunnel
      exact ⟨fun _ => ⟨key, lla, rfl, hkey, rfl, hlla⟩, payloadEndpoint_ok hend, hne, hip⟩
  | false =>
      simp only [Bool.false_eq_true, if_false, Prog.bind_eq_ok] at h
      obtain ⟨tunnel, -, ip, hip, endpoint, hend, _, -, _, -, _, -, _, -, h⟩ := h
      cases h
      obtain ⟨hne, hip⟩ := requireIpv6_ok hip
      exact ⟨fun hwg => (by cases hwg), payloadEndpoint_ok hend, hne, hip⟩

/-! ## the stored row -/

section Stored

variable {env : PeerEnv} {cfg : Str} {db db' : Db}

/-- Without keys of its own a peer gets those that `wg` made. -/
theorem eval_resolveWgKeypair {keys : Str × Str}
    (h : eval (resolveWgKeypair env none none) db = (.ok keys, db')) :
    env.wgKeypair = .ok keys := by
  unfold resolveWgKeypair at h
  simp only at h
  split at h
  · next pair hpair =>
      rw [hpair, (eval_pure.mp h).1]
  · cases h

/-- The private key of a new BGP peer. -/
theorem key_of_createBgpPeer {a : BgpPeerArgs} {res : PeerResult} (hpriv : a.wgPrivateKey = none)
    (hpub : a.wgPublicKey = none) (h : eval (createBgpPeer env cfg a) db = (.ok res, db')) :
    ∃ (backend : Str) (port : Int) (keys : Str × Str),
      db'.bgpPeers = db.bgpPeers ++ [newBgpRow env cfg a backend port keys] ∧
        env.wgKeypair = .ok keys := by
  obtain ⟨backend, hbackend, h⟩ := Atomic.eval_bind_read (readOnly_checkValid _) h
  obtain ⟨u, mid, h1, h⟩ := (atomic_ensureNode _).eval_bind h
  obtain ⟨existing, h2, h⟩ := Atomic.eval_bind_read (readOnly_wrapDatabaseError (.queryOr ..)) h
  split at h
  · cases h
  · obtain ⟨port, h3, h⟩ := Atomic.eval_bind_read (readOnly_bgpListenPort ..) h
    obtain ⟨keys, hkeys, h⟩ := Atomic.eval_bind_read (readOnly_resolveWgKeypair ..) h
    obtain ⟨u, h4, h⟩ := Atomic.eval_bind_read (readOnly_checkValid _) h
    obtain ⟨u, mid', h5, h⟩ := (atomic_insertBgpPeer ..).eval_bind h
    obtain ⟨-, rfl⟩ := eval_pure.mp h
    rw [hpriv, hpub] at hkeys
    refine ⟨backend, port, keys, ?_, eval_resolveWgKeypair hkeys⟩
    rw [(rows_of_insertBgpPeer h5).1, (eval_ensureNode_peers h1).1]
    rfl

/-- The private key of a tunnel. -/
theorem key_of_tunnelFor {n : Str} {a : IbgpPeerArgs} {t : Tunnel} (hwg : a.hasWg = true)
    (hpriv : a.wgPrivateKey = none) (hpub : a.wgPublicKey = none)
    (h : eval (tunnelFor env n a) db = (.ok t, db')) :
    env.wgKeypair = .ok (t.privateKey, t.publicKey) ∧
      t.localLla = orDefault a.localLla (generateRandomLla (env.draw 0) (env.draw 1)) := by
  rw [tunnelFor, if_pos hwg] at h
  obtain ⟨backend, -, h⟩ := Atomic.eval_bind_read (readOnly_checkValid _) h
  obtain ⟨port, -, h⟩ := Atomic.eval_bind_read (readOnly_ibgpListenPort ..) h
  obtain ⟨cost, -, h⟩ := Atomic.eval_bind_read (readOnly_checkValid _) h
  obtain ⟨type, -, h⟩ := Atomic.eval_bind_read (readOnly_checkValid _) h
  obtain ⟨keys, hkeys, h⟩ := Atomic.eval_bind_read (readOnly_resolveWgKeypair ..) h
  obtain ⟨u, -, h⟩ := Atomic.eval_bind_read (readOnly_checkValid _) h
  obtain ⟨rfl, -⟩ := eval_pure.mp h
  rw [hpriv, hpub] at hkeys
  exact ⟨eval_resolveWgKeypair hkeys, rfl⟩

end Stored

/-- A hex digit is a figure or a letter from a to f. -/
theorem hexDigit_cases {n : Nat} (h : n < 16) :
    48 ≤ hexDigit n ∧ hexDigit n ≤ 57 ∨ 97 ≤ hexDigit n ∧ hexDigit n ≤ 102 := by
  unfold hexDigit
  split
  · omega
  · omega

theorem oneLine_hex4 (n : Nat) : OneLine (hex4 n) := by
  have hdigit : ∀ m, m < 16 → isLineBreak (hexDigit m) = false := by
    intro m hm
    have hrange := hexDigit_cases hm
    simp only [isLineBreak, lineBreaks, List.contains_eq_mem, List.mem_cons, List.not_mem_nil,
      or_false, decide_eq_false_iff_not, not_or]
    omega
  intro c hc
  simp only [hex4, List.mem_cons, List.not_mem_nil, or_false] at hc
  obtain rfl | rfl | rfl | rfl := hc
  · exact hdigit _ (Nat.mod_lt _ (by decide))
  · exact hdigit _ (Nat.mod_lt _ (by decide))
  · exact hdigit _ (Nat.mod_lt _ (by decide))
  · exact hdigit _ (Nat.mod_lt _ (by decide))

/-- A link-local address the hub makes up is one line. -/
theorem oneLine_generateRandomLla (a b : Nat) : OneLine (generateRandomLla a b) := by
  have hcolon : OneLine [58] := by decide
  have hstart : OneLine (lit "fe80::") := oneLine_lit _ rfl
  rw [generateRandomLla, ← List.singleton_append]
  exact oneLine_append.mpr ⟨oneLine_append.mpr ⟨hstart, oneLine_hex4 _⟩,
    oneLine_append.mpr ⟨hcolon, oneLine_hex4 _⟩⟩

/-- The interface name of a BGP peer is one line whatever the ASN. -/
theorem oneLine_bgpIfname (asn : Int) : OneLine (lit "dn42_" ++ lastChars 4 (ofInt asn)) := by
  rw [oneLine_label (oneLine_lit _ rfl)]
  exact fun c hc => oneLine_ofInt asn c (List.mem_of_mem_drop hc)

theorem oneLine_cleanName {name : Str} (h : CleanName name) : OneLine name :=
  oneLine_of_noSpace fun c hc => isSpace_of_nameChar (h.chars c hc).1

/-! ## the files -/

/-- The lines a file is read as. -/
def readLines (files : List FileSpec) : List (List Str) := files.map fun f => splitlines f.content

/-- The host of an endpoint is one line. -/
def HostOneLine (endpoint : Str) : Prop :=
  ∀ host digits, matchEndpoint endpoint = some (host, digits) → OneLine host

/-- The scope id of an address, if it has one, is one line. -/
def ScopeOneLine (address : Str) : Prop :=
  ∀ zone, (partition 37 address).2 = some zone → OneLine zone

/-- The templates of a BGP peer with the values of an accepted payload and those the
hub adds. -/
def bgpTemplates (p : BgpPeerPayload) (ifname privateKey localLla : Str) (port : Int) :
    List (List Str) :=
  [bgpPeerLines ifname p.peerLla p.peerAsn,
   netdevLines ifname privateKey port p.peerPublicKey p.endpoint defaultAllowedIps,
   networkLines ifname localLla p.peerLla]

theorem oneLine_defaultAllowedIps : ∀ cidr ∈ defaultAllowedIps, OneLine cidr := by decide

theorem oneLine_ibgpAllowedIps : ∀ cidr ∈ ibgpAllowedIps, OneLine cidr := by decide

/-- Files written from templates are read as the templates when every line is one. -/
theorem readLines_eq_iff {files : List FileSpec} {templates : List (List Str)}
    (h : files.map FileSpec.content = templates.map unlines) :
    readLines files = templates ↔ ∀ lines ∈ templates, ∀ l ∈ lines, OneLine l := by
  have hread : readLines files = templates.map fun lines => splitlines (unlines lines) := by
    have hmap := congrArg (List.map splitlines) h
    rw [List.map_map, List.map_map] at hmap
    exact hmap
  calc readLines files = templates
      ↔ (templates.map fun lines => splitlines (unlines lines)) = templates.map id := by
        rw [hread, List.map_id]
    _ ↔ ∀ lines ∈ templates, splitlines (unlines lines) = lines := List.map_inj_left
    _ ↔ ∀ lines ∈ templates, ∀ l ∈ lines, OneLine l :=
        forall₂_congr fun lines _ => splitlines_unlines_iff lines

/-- **No payload adds lines to the files of a BGP peer**, but through the host of its
endpoint and the scope id of its address: the row an accepted payload is stored
as renders to files that read as the three templates exactly when these are one
line. -/
theorem bgp_payload_lines_iff {env : PeerEnv} {cfg target : Str} {peer : JsonObject}
    {p : BgpPeerPayload} {res : PeerResult} {db db' : Db}
    (hkeys : ∀ keys, env.wgKeypair = .ok keys → OneLine keys.1)
    (hparse : parseBgpPeer peer = .ok p)
    (hcreate : (onConnection (createBgpPeer env cfg (p.toArgs target))).run db =
      (.ok res, db')) (display : Json → Str) (paths : ResolvedPaths) :
    ∃ r files, db'.bgpPeers = db.bgpPeers ++ [r] ∧
      renderBgpPeerFiles display (bgpRowToDict r).json paths = .ok files ∧
      (readLines files = bgpTemplates p r.ifname r.wgPrivateKey r.localLla r.listenPort ↔
        HostOneLine p.endpoint ∧ ScopeOneLine p.peerLla) := by
  obtain ⟨hpub, ⟨given, hend⟩, hne, hlla⟩ := parseBgpPeer_ok hparse
  obtain ⟨backend, port, keys, hrows, hkey⟩ := key_of_createBgpPeer rfl rfl hcreate
  let r := newBgpRow env cfg (p.toArgs target) backend port keys
  have hllaRow : orDefault (bgpRowToDict r).peerLla [] = p.peerLla := orDefault_some hne
  have hendRow : orDefault (bgpRowToDict r).endpoint [] = p.endpoint := orDefault_self _
  refine ⟨r, desiredBgpFiles paths (bgpRowToDict r), hrows,
    renderBgpPeerFiles_json display paths (by rw [hllaRow]; exact hne), ?_⟩
  have hcontent : (desiredBgpFiles paths (bgpRowToDict r)).map FileSpec.content =
      (bgpTemplates p r.ifname r.wgPrivateKey r.localLla r.listenPort).map unlines := by
    simp only [desiredBgpFiles, BgpPeerDesired.netBackendArgs, hllaRow, hendRow]
    rfl
  have hif : OneLine r.ifname := oneLine_bgpIfname p.peerAsn
  have hpriv : OneLine r.wgPrivateKey := hkeys keys hkey
  have hlocal : OneLine r.localLla := oneLine_generateRandomLla _ _
  rw [readLines_eq_iff hcontent, HostOneLine, ← oneLine_endpoint_iff hend, ScopeOneLine,
    ← oneLine_address_iff hlla]
  simp only [bgpTemplates, List.forall_mem_cons, oneLine_bgpPeerLines, oneLine_netdevLines,
    oneLine_networkLines, hif, hpriv, hpub, hlocal, List.not_mem_nil, false_imp_iff, implies_true,
    true_and, and_true]
  constructor
  · rintro ⟨hlla, ⟨hendpoint, -⟩, -⟩
    exact ⟨hendpoint, hlla⟩
  · rintro ⟨hendpoint, hlla⟩
    exact ⟨hlla, ⟨hendpoint, oneLine_defaultAllowedIps⟩, hlla⟩

/-- The templates of an iBGP peer: those of the tunnel only if it has one. -/
def ibgpTemplates (p : IbgpPeerPayload) (name ifname privateKey localLla : Str) (port : Int) :
    List (List Str) :=
  ibgpPeerLines name p.peerIp ::
    if p.hasWg then
      [netdevLines ifname privateKey port (orDefault p.peerPublicKey []) p.endpoint ibgpAllowedIps,
       networkLines ifname localLla (orDefault p.peerLla [])]
    else []

/-- The same of an iBGP peer, whose address inside the network is one more text with a
scope id. -/
theorem ibgp_payload_lines_iff {env : PeerEnv} {cfg target : Str} {peer : JsonObject}
    {p : IbgpPeerPayload} {res : PeerResult} {db db' : Db}
    (hkeys : ∀ keys, env.wgKeypair = .ok keys → OneLine keys.1)
    (hparse : parseIbgpPeer peer = .ok p)
    (hcreate : (onConnection (createIbgpPeer env cfg (p.toArgs target))).run db =
      (.ok res, db')) (display : Json → Str) (paths : ResolvedPaths) :
    ∃ r files, db'.ibgpPeers = db.ibgpPeers ++ [r] ∧
      renderIbgpPeerFiles display (ibgpRowToDict r).json paths = .ok files ∧
      (readLines files = ibgpTemplates p r.name r.ifname r.wgPrivateKey r.localLla r.listenPort ↔
        ScopeOneLine p.peerIp ∧ (p.hasWg = true →
          HostOneLine p.endpoint ∧ ScopeOneLine (orDefault p.peerLla []))) := by
  obtain ⟨htunnelFields, ⟨given, hend⟩, hne, hip⟩ := parseIbgpPeer_ok hparse
  obtain ⟨name, t, mid, hname, -, htunnel, hrows, -⟩ := eval_createIbgpPeer hcreate
  have hclean := oneLine_cleanName (cleanName_of_sanitizeName hname)
  let r := newIbgpRow env cfg (p.toArgs target) name t
  have hipRow : orDefault (ibgpRowToDict r).peerIp [] = p.peerIp := orDefault_self _
  have hbird : (ibgpBirdFiles paths.birdPeersDir r.name p.peerIp).map FileSpec.content =
      [unlines (ibgpPeerLines name p.peerIp)] := by
    rw [ibgpBirdFiles, if_neg (by simpa using hne)]
    rfl
  refine ⟨r, desiredIbgpFiles paths (ibgpRowToDict r), hrows,
    renderIbgpPeerFiles_json display paths _, ?_⟩
  rw [ScopeOneLine, ← oneLine_address_iff hip]
  cases hwg : p.hasWg with
  | false =>
      have hcontent : (desiredIbgpFiles paths (ibgpRowToDict r)).map FileSpec.content =
          (ibgpTemplates p r.name r.ifname r.wgPrivateKey r.localLla r.listenPort).map unlines := by
        have hrow : (ibgpRowToDict r).hasWg = false := hwg
        rw [desiredIbgpFiles, hipRow, hrow, List.map_append]
        simp only [ibgpTemplates, hwg, Bool.false_eq_true, if_false, List.map_nil, List.append_nil,
          List.map_cons]
        exact hbird
      rw [readLines_eq_iff hcontent, ibgpTemplates, hwg]
      simp only [Bool.false_eq_true, if_false, List.forall_mem_cons, oneLine_ibgpPeerLines,
        List.not_mem_nil, false_imp_iff, implies_true, and_true]
      exact and_iff_right hclean
  | true =>
      obtain ⟨key, lla, hkey, hkeyLine, hlla, hllaText⟩ := htunnelFields hwg
      obtain ⟨hpair, hlocalRow⟩ := key_of_tunnelFor hwg rfl rfl htunnel
      have hcontent : (desiredIbgpFiles paths (ibgpRowToDict r)).map FileSpec.content =
          (ibgpTemplates p r.name r.ifname r.wgPrivateKey r.localLla r.listenPort).map unlines := by
        have hrow : (ibgpRowToDict r).hasWg = true := hwg
        have hips : t.allowedIps = ibgpAllowedIps := by
          obtain ⟨-, -, -, -, -, hips, -⟩ | ⟨hnone, -⟩ := eval_tunnelFor htunnel
          · exact hips
          · rw [show p.hasWg = false from hnone] at hwg
            cases hwg
        have hendRow : orDefault (ibgpRowToDict r).endpoint [] = p.endpoint := by
          show orDefault (some (orDefault (some p.endpoint) [])) [] = p.endpoint
          rw [orDefault_self, orDefault_self]
        have hllaRow : orDefault (ibgpRowToDict r).peerLla [] = orDefault p.peerLla [] :=
          orDefault_self _
        have hipsRow : (ibgpRowToDict r).allowedIps = ibgpAllowedIps := hips
        rw [desiredIbgpFiles, hipRow, hrow, List.map_append, if_pos rfl]
        simp only [ibgpTemplates, hwg, if_true, List.map_cons, List.map_nil,
          IbgpPeerDesired.netBackendArgs, NetBackendArgs.files, hendRow, hllaRow, hipsRow]
        exact congrArg (· ++ _) hbird
      have hif : OneLine r.ifname := (oneLine_label (oneLine_lit _ rfl)).mpr hclean
      have hpriv : OneLine r.wgPrivateKey := hkeys _ hpair
      have hlocal : OneLine r.localLla := by
        rw [show r.localLla = _ from hlocalRow]
        exact oneLine_generateRandomLla _ _
      have hname : OneLine r.name := hclean
      have hllaOne : OneLine lla ↔ ScopeOneLine lla := oneLine_address_iff hllaText
      have hendOne : OneLine p.endpoint ↔ HostOneLine p.endpoint := oneLine_endpoint_iff hend
      have hpub : OneLine (orDefault p.peerPublicKey []) := by
        rw [hkey, orDefault_self]
        exact hkeyLine
      rw [readLines_eq_iff hcontent, ibgpTemplates, hwg, if_pos rfl, hlla, orDefault_self]
      simp only [List.forall_mem_cons, oneLine_ibgpPeerLines, oneLine_netdevLines,
        oneLine_networkLines, hif, hpriv, hpub, hlocal, hname, hllaOne, hendOne, List.not_mem_nil,
        false_imp_iff, implies_true, true_and, and_true, forall_const]
      constructor
      · rintro ⟨hip, ⟨hendpoint, -⟩, hlla⟩
        exact ⟨hip, hendpoint, hlla⟩
      · rintro ⟨hip, hendpoint, hlla⟩
        exact ⟨hip, ⟨hendpoint, oneLine_ibgpAllowedIps⟩, hlla⟩

/-! ### a scope id and a host with line feeds -/

theorem eq_ok_of_toOption {α : Type} {r : Except PyError α} {a : α} (h : r.toOption = some a) :
    r = .ok a := by
  cases r with
  | error e => cases h
  | ok b => rw [Option.some.inj h]

/-- A run that ends well has a value and a state. -/
theorem run_of_isOk {α σ ε : Type} {m : Prog σ ε α} {s : σ} (h : (m.run s).1.isOk = true) :
    ∃ a s', m.run s = (.ok a, s') := by
  cases hrun : m.run s with
  | mk res s' =>
      rw [hrun] at h
      cases res with
      | error e => cases h
      | ok a => exact ⟨a, s', rfl⟩

theorem oneLine_sampleEnv (now : Str) :
    ∀ keys, (sampleEnv now).wgKeypair = .ok keys → OneLine keys.1 := by
  rintro keys hkeys
  cases hkeys
  decide

/-- An address whose scope id goes on with a line of its own. -/
def injectingBgpPeer : JsonObject :=
  [(lit "peer_asn", .int 4242420002), (lit "peer_public_key", .str (sampleKey 65)),
   (lit "peer_lla", .str (lit "fe80::2%a\nPeer=fe80::3"))]

def injectingBgpPayload : BgpPeerPayload :=
  ⟨4242420002, sampleKey 65, [], lit "fe80::2%a\nPeer=fe80::3", lit "networkd", none⟩

theorem bgp_payload_lines_injected :
    ∃ r files, renderBgpPeerFiles (fun _ => []) (bgpRowToDict r).json
        (resolvePaths none configToml) = .ok files ∧
      readLines files ≠
        bgpTemplates injectingBgpPayload r.ifname r.wgPrivateKey r.localLla r.listenPort := by
  have hparse : parseBgpPeer injectingBgpPeer = .ok injectingBgpPayload :=
    eq_ok_of_toOption (by decide +kernel)
  obtain ⟨res, db', hcreate⟩ : ∃ res db', (onConnection (createBgpPeer (sampleEnv (lit "t0"))
      (lit "a") (injectingBgpPayload.toArgs (lit "a")))).run Db.empty = (.ok res, db') :=
    run_of_isOk (by decide +kernel)
  obtain ⟨r, files, -, hfiles, hiff⟩ := bgp_payload_lines_iff (oneLine_sampleEnv _) hparse
    hcreate (fun _ => []) (resolvePaths none configToml)
  refine ⟨r, files, hfiles, fun hread => ?_⟩
  have hscope := (hiff.mp hread).2 (lit "a\nPeer=fe80::3") (by decide +kernel)
  exact absurd hscope (by decide +kernel)

/-- An endpoint whose host goes on with a peer of its own. -/
def injectingIbgpPeer : JsonObject :=
  [(lit "name", .str (lit "b")), (lit "has_wg", .bool true),
   (lit "peer_public_key", .str (sampleKey 65)), (lit "peer_lla", .str (lit "fe80::2")),
   (lit "peer_ip", .str (lit "fd00::b")),
   (lit "endpoint", .str (lit "h\n[WireGuardPeer]\nPublicKey=k:51820")),
   (lit "babel_rxcost", .int 96), (lit "babel_type", .str (lit "tunnel"))]

def injectingIbgpPayload : IbgpPeerPayload where
  name := lit "b"
  peerIp := lit "fd00::b"
  hasWg := true
  peerPublicKey := some (sampleKey 65)
  endpoint := lit "h\n[WireGuardPeer]\nPublicKey=k:51820"
  peerLla := some (lit "fe80::2")
  netBackend := lit "networkd"
  babelRxcost := 96
  babelType := lit "tunnel"
  listenPort := none

theorem ibgp_payload_lines_injected :
    ∃ r files, renderIbgpPeerFiles (fun _ => []) (ibgpRowToDict r).json
        (resolvePaths none configToml) = .ok files ∧
      readLines files ≠ ibgpTemplates injectingIbgpPayload r.name r.ifname r.wgPrivateKey
        r.localLla r.listenPort := by
  have hparse : parseIbgpPeer injectingIbgpPeer = .ok injectingIbgpPayload :=
    eq_ok_of_toOption (by decide +kernel)
  obtain ⟨res, db', hcreate⟩ : ∃ res db', (onConnection (createIbgpPeer (sampleEnv (lit "t0"))
      (lit "a") (injectingIbgpPayload.toArgs (lit "a")))).run Db.empty = (.ok res, db') :=
    run_of_isOk (by decide +kernel)
  obtain ⟨r, files, -, hfiles, hiff⟩ := ibgp_payload_lines_iff (oneLine_sampleEnv _) hparse
    hcreate (fun _ => []) (resolvePaths none configToml)
  refine ⟨r, files, hfiles, fun hread => ?_⟩
  have hhost := ((hiff.mp hread).2 rfl).1 (lit "h\n[WireGuardPeer]\nPublicKey=k") (lit "51820")
    (by decide +kernel)
  exact absurd hhost (by decide +kernel)

end Dn42Ctl
