import Dn42Ctl.Adopt
import Dn42Ctl.BirdFiles
import Dn42Ctl.GenConfSpecs
import Mathlib.Data.List.Perm.Basic

/-!
# ScanRendered

A scan of the files that `genconf` renders.  It brings the rows back: every column
that a file shows comes out as it went in, but that an empty text is stored as
NULL.  What no file shows is lost: the node an iBGP row is linked to.

* `PeerRecordBase.Showable` — the columns of a tunnel whose files can be read back;
* `reparsed_showable` — the unit files;
* `reads_bgp`, `reads_ibgp` — all files of one row;
* `scanLoop_imports` — one row after the other;
* `scan_undoes_render` — the whole scan.
-/

namespace Dn42Ctl

open Text Txn Prog Builtins Pattern

/-! ## the columns -/

/-- An empty text is stored as NULL. -/
def emptyAsNull (o : Option Str) : Option Str := orNone (orDefault o [])

/-- What a scan finds in the files of a tunnel. -/
def PeerRecordBase.shown (r : PeerRecordBase) : ScannedTunnel where
  privateKey := r.wgPrivateKey
  listenPort := r.listenPort
  localLla := r.localLla
  peerPublicKey := emptyAsNull r.peerPublicKey
  endpoint := emptyAsNull r.endpoint
  allowedIps := r.allowedIps
  peerLla := emptyAsNull r.peerLla

/-- The columns of a tunnel whose files can be read back.  The key of the peer is
there, if perhaps empty: NULL is rendered as the word `None`. -/
structure PeerRecordBase.Showable (r : PeerRecordBase) : Prop where
  backend : backendOf r.netBackend = lit "networkd"
  ifname : PlainText r.ifname
  privateKey : PlainText r.wgPrivateKey
  peerPublicKey : ∃ v, r.peerPublicKey = some v ∧ Bare v
  endpoint : ∀ v, r.endpoint = some v → Bare v
  localLla : PlainText r.localLla
  noSlash : 47 ∉ r.localLla
  peerLla : ∀ v, r.peerLla = some v → Bare v
  port : 0 ≤ r.listenPort ∧ r.listenPort ≤ 65535
  someAllowed : r.allowedIps ≠ []
  allowedIps : ∀ a ∈ r.allowedIps, IpAddress.isIPv6Interface a = true ∧ PlainText a

section Columns

variable {v : Str} {o : Option Str}

theorem Bare.lineText (h : Bare v) : LineText v := lineText_of_noSpace fun c hc => (h c hc).1

theorem Bare.uncommented (h : Bare v) : Uncommented v :=
  ⟨fun hmem => (h 35 hmem).2.2.1 rfl, fun hmem => (h 59 hmem).2.2.2.2 rfl⟩

theorem Bare.lineValue (h : Bare v) : lineValue v = v :=
  (lineValue_eq_self_iff h.lineText.trimmed).mpr h.uncommented

theorem Bare.strip (h : Bare v) : strip v = v := strip_of_trimmed h.lineText.trimmed

theorem bare_orDefault (h : ∀ v, o = some v → Bare v) : Bare (orDefault o []) := by
  cases o with
  | none => exact fun c hc => absurd hc List.not_mem_nil
  | some v =>
      rw [orDefault]
      split
      · exact fun c hc => absurd hc List.not_mem_nil
      · exact h v rfl

/-- An IPv6 network without a scope id is an item of its own. -/
theorem allowedItem_of_plain (hnet : IpAddress.isIPv6Interface v = true) (h : PlainText v) :
    AllowedItem v := by
  have hscope : 37 ∉ v := fun hmem => (h.chars 37 hmem).2.2.2.1 rfl
  refine ⟨h.nonempty, fun c hc => ⟨(h.chars c hc).1, ?_⟩, hnet⟩
  rintro rfl
  exact absurd (IpAddress.isIPv6Interface_chars hnet hscope 44 hc) (by decide)

/-- The name of a file that fits on a line puts nothing into the file. -/
theorem smuggled_bare (h : Bare v) : smuggled v = (lit "NetDev", {}) := by
  have hassigns : Assigns (lit "Name=") (lit "Name") := ⟨rfl, by decide, by decide⟩
  have hone : OneLine (lit "Name=" ++ v) := oneLine_append.mpr ⟨by decide, h.lineText.oneLine⟩
  rw [smuggled, splitlines_line hone, List.foldl_cons, List.foldl_nil,
    unitStep_assigns hassigns h.lineText.trimmed, netdevAssign_unknown (by decide)]

end Columns

/-- The unit files of a tunnel, read back. -/
theorem reparsed_showable {r : PeerRecordBase} (h : r.Showable) :
    (rowBackendArgs r (orDefault r.peerLla [])).reparsed = r.shown := by
  obtain ⟨key, hkey, hbare⟩ := h.peerPublicKey
  have hendpoint := bare_orDefault h.endpoint
  have hpeer := bare_orDefault h.peerLla
  have hfilled : Filled r.localLla := ⟨h.localLla.chars.lineText, h.localLla.nonempty⟩
  obtain ⟨hlocal, hlocalBack⟩ := localLla_back hfilled h.noSlash
  have hallowed : ∀ a ∈ r.allowedIps, LineText a := fun a ha => (h.allowedIps a ha).2.chars.lineText
  have hitems : (r.allowedIps.flatMap fun a => allowedItems (lineValue a)) = r.allowedIps := by
    have hself : ∀ a ∈ r.allowedIps, allowedItems (lineValue a) = [a] := by
      intro a ha
      obtain ⟨hnet, hplain⟩ := h.allowedIps a ha
      rw [hplain.chars.lineValue, allowedItems_self (allowedItem_of_plain hnet hplain)]
    rw [List.flatMap_congr hself, List.flatMap_singleton']
  have hport : r.listenPort < 2 ^ 63 := lt_of_le_of_lt h.port.2 (by decide)
  rw [NetBackendArgs.reparsed]
  dsimp only [rowBackendArgs]
  rw [hkey, printed, parse_renderNetworkdNetdev h.privateKey.chars.lineText hport hbare.lineText
    hendpoint.lineText hallowed, parse_renderNetworkdNetwork hlocal hpeer.lineText, hitems,
    smuggled_bare h.ifname.chars, h.privateKey.chars.lineValue, hbare.lineValue,
    hendpoint.lineValue, hpeer.lineValue]
  dsimp only [tunnelOf, PeerRecordBase.shown]
  rw [ScannedTunnel.mk.injEq]
  refine ⟨h.privateKey.chars.strip, (listenPort_back h.port.1).mpr fun _ => ?_,
    hlocalBack.mpr h.localLla.chars.uncommented, ?_, ?_, ?_, ?_⟩
  · decide
  · rw [emptyAsNull, hkey, orDefault_self]
    exact congrArg orNone hbare.strip
  · rw [emptyAsNull]
    cases hempty : (orDefault r.endpoint []).isEmpty with
    | true => rw [if_pos rfl, List.isEmpty_iff.mp hempty]; rfl
    | false =>
        rw [if_neg Bool.false_ne_true]
        exact congrArg orNone hendpoint.strip
  · rw [List.nil_append, if_neg (by simpa using h.someAllowed)]
  · exact congrArg orNone hpeer.strip

/-! ## the files of one row -/

/-- A BGP row whose files can be read back. -/
structure BgpRow.Showable (r : BgpRow) : Prop extends r.toPeerRecordBase.Showable where
  managed : startsWith r.ifname ifnamePrefixBgp = true
  hasPeerLla : orDefault r.peerLla [] ≠ []
  asn : 0 ≤ r.peerAsn ∧ r.peerAsn < 2 ^ 63

/-- An iBGP row with a tunnel whose files can be read back. -/
structure IbgpRow.Showable (r : IbgpRow) : Prop extends r.toPeerRecordBase.Showable where
  hasTunnel : r.hasWg = true
  named : r.ifname = ifnamePrefixIbgp ++ r.name
  clean : sanitizeName r.name = .ok r.name
  peerIp : ∀ v, r.peerIp = some v → Bare v
  rxcost : 0 ≤ r.babelRxcost ∧ r.babelRxcost < 2 ^ 63
  babelType : r.babelType ∈ [lit "wired", lit "wireless", lit "tunnel"]

def BgpRow.candidate (r : BgpRow) : Candidate := .bgp r.peerAsn r.shown

def IbgpRow.candidate (r : IbgpRow) : Candidate := .ibgp r.name (emptyAsNull r.peerIp) r.shown

/-- The file has the text. -/
def ScanFiles.Holds (files : ScanFiles) (path : PosixPath) (text : Str) : Prop :=
  ∃ h, files.file path = .text ⟨text, h⟩

/-- The files are those `genconf` renders for the rows, and no other interface is
managed. -/
structure ScanFiles.Rendered (files : ScanFiles) (config : AppConfig) (bgpRows : List BgpRow)
    (ibgpRows : List IbgpRow) : Prop where
  holds : ∀ f ∈ babelFile config ibgpRows :: rowFiles config bgpRows ibgpRows,
    files.Holds f.path f.content
  managed : ∀ x, IsCandidate files config x ↔
    x ∈ bgpRows.map (·.ifname) ++ ibgpRows.map (·.ifname)
  noBird : ∀ r ∈ ibgpRows, orDefault r.peerIp [] = [] → ∀ d ∈ birdPeersDirs config,
    files.file (d.join (lit "ibgp_" ++ r.name ++ lit ".conf")) = .missing

section Reading

variable {files : ScanFiles} {config : AppConfig}

theorem findFirst_holds {p : PosixPath} {text : Str} (h : files.Holds p text) :
    ∃ state, (∀ ps, findFirst files (p :: ps) = some (p, state)) ∧
      readText p state = .ok text := by
  obtain ⟨hplain, hfile⟩ := h
  refine ⟨.text ⟨text, hplain⟩, fun ps => ?_, rfl⟩
  rw [findFirst, hfile]

theorem findFirst_missing {ps : List PosixPath} (h : ∀ p ∈ ps, files.file p = .missing) :
    findFirst files ps = none := by
  induction ps with
  | nil => rfl
  | cons p ps ih =>
      rw [findFirst, h p (List.mem_cons_self ..)]
      exact ih fun q hq => h q (List.mem_cons_of_mem _ hq)

/-- The configured directory is the first that is searched. -/
theorem networkdDirs_cons (config : AppConfig) :
    ∃ ds, networkdDirs config = .ofStr config.networkdDir :: ds := ⟨_, rfl⟩

theorem birdPeersDirs_cons (config : AppConfig) :
    ∃ ds, birdPeersDirs config = .ofStr config.birdPeersDir :: ds := ⟨_, rfl⟩

/-- The two unit files of a row. -/
theorem readNetworkd_holds {r : PeerRecordBase} (h : r.Showable)
    (hfiles : ∀ f ∈ (rowBackendArgs r (orDefault r.peerLla [])).files (.ofStr config.networkdDir),
      files.Holds f.path f.content) :
    (readNetworkd files config r.ifname).2 = .ok r.shown := by
  obtain ⟨ds, hds⟩ := networkdDirs_cons config
  obtain ⟨netdev, hnetdev, hnetdevText⟩ := findFirst_holds (hfiles _ (List.mem_cons_self ..))
  obtain ⟨network, hnetwork, hnetworkText⟩ :=
    findFirst_holds (hfiles _ (List.mem_cons_of_mem _ (List.mem_cons_self ..)))
  dsimp only [rowBackendArgs] at hnetdev hnetdevText hnetwork hnetworkText
  have hback := reparsed_showable h
  rw [NetBackendArgs.reparsed] at hback
  dsimp only [rowBackendArgs] at hback
  rw [readNetworkd, hds]
  dsimp only
  rw [List.map_cons, List.map_cons, hnetdev, hnetwork]
  dsimp only
  rw [hnetdevText, hnetworkText]
  dsimp only
  refine readTunnel_eq_ok.mpr ⟨?_, ?_, hback.symm⟩
  · rw [show textOf _ = r.wgPrivateKey from congrArg ScannedTunnel.privateKey hback]
    exact h.privateKey.nonempty
  · rw [show textOf _ = r.localLla from congrArg ScannedTunnel.localLla hback]
    exact h.localLla.nonempty

/-- All files of a BGP row. -/
theorem reads_bgp {r : BgpRow} (h : r.Showable)
    (hfiles : ∀ f ∈ rowBgpFiles config r, files.Holds f.path f.content) :
    Reads files config r.ifname r.candidate := by
  have htunnel := readNetworkd_holds h.toShowable fun f hf => hfiles f (List.mem_cons_of_mem _ hf)
  obtain ⟨ds, hds⟩ := birdPeersDirs_cons config
  obtain ⟨bird, hbird, hbirdText⟩ := findFirst_holds (hfiles _ (List.mem_cons_self ..))
  dsimp only [bgpBirdFile] at hbird hbirdText
  obtain ⟨n, hn⟩ := Int.eq_ofNat_of_zero_le h.asn.1
  have hpercent : 37 ∉ r.ifname := fun hmem => (h.ifname.chars 37 hmem).2.2.2.1 rfl
  have hlla : PlainText (orDefault r.peerLla []) := ⟨h.hasPeerLla, bare_orDefault h.peerLla⟩
  have hfits := h.asn.2
  rw [hn] at hbirdText hfits
  have hparse := parse_bgpPeerLines (n := n) hlla hpercent (by omega)
  have hpeerLla : r.shown.peerLla = some (orDefault r.peerLla []) :=
    orNone_eq_some.mpr ⟨h.hasPeerLla, rfl⟩
  rw [Reads, readCandidate]
  cases hread : readNetworkd files config r.ifname with
  | mk warnings reading =>
      rw [hread] at htunnel
      dsimp only at htunnel
      subst htunnel
      dsimp only
      rw [if_pos h.managed]
      dsimp only
      rw [readBgp, hds, List.map_cons, hbird]
      dsimp only
      rw [hbirdText]
      dsimp only
      rw [hparse]
      dsimp only
      rw [hpeerLla, Option.some_or, ← hpeerLla, BgpRow.candidate, hn]

/-- All files of an iBGP row. -/
theorem reads_ibgp {r : IbgpRow} (h : r.Showable)
    (hfiles : ∀ f ∈ rowIbgpFiles config r, files.Holds f.path f.content)
    (hmissing : orDefault r.peerIp [] = [] → ∀ d ∈ birdPeersDirs config,
      files.file (d.join (lit "ibgp_" ++ r.name ++ lit ".conf")) = .missing) :
    Reads files config r.ifname r.candidate := by
  have htunnel := readNetworkd_holds h.toShowable fun f hf =>
    hfiles f (List.mem_append_right _ (by rw [if_pos h.hasTunnel]; exact hf))
  have hother : ¬ startsWith r.ifname ifnamePrefixBgp = true := by
    rw [h.named]
    exact Bool.false_ne_true
  have hname : sanitizeName (r.ifname.drop ifnamePrefixIbgp.length) = .ok r.name := by
    rw [h.named, List.drop_left, h.clean]
  have hbird : (readIbgp files config r.ifname r.shown).2 = .ok r.candidate := by
    rw [readIbgp, hname]
    dsimp only
    cases hempty : (orDefault r.peerIp []).isEmpty with
    | true =>
        have hnil := List.isEmpty_iff.mp hempty
        rw [findFirst_missing fun p hp => ?_]
        · rw [IbgpRow.candidate, emptyAsNull, hnil]
          rfl
        · obtain ⟨d, hd, rfl⟩ := List.mem_map.mp hp
          exact hmissing hnil d hd
    | false =>
        obtain ⟨ds, hds⟩ := birdPeersDirs_cons config
        have hfile : files.Holds _ _ := hfiles
          ⟨_, unlines (ibgpPeerLines r.name (orDefault r.peerIp [])), .bird⟩
          (List.mem_append_left _ (by
            rw [ibgpBirdFiles, hempty, if_neg Bool.false_ne_true]
            exact List.mem_singleton_self _))
        obtain ⟨bird, hbird, hbirdText⟩ := findFirst_holds hfile
        have hbare : Bare r.name := fun c hc =>
          h.ifname.chars c (by rw [h.named]; exact List.mem_append_right _ hc)
        have hip : PlainText (orDefault r.peerIp []) :=
          ⟨List.isEmpty_eq_false_iff.mp hempty, bare_orDefault h.peerIp⟩
        have hparse := parse_ibgpPeerLines hip (fun hmem => (hbare 59 hmem).2.2.2.2 rfl)
          (fun hmem => (hbare 37 hmem).2.2.2.1 rfl) r.ifname
        rw [hds, List.map_cons, hbird]
        dsimp only
        rw [hbirdText]
        dsimp only
        rw [hparse]
        dsimp only
        rw [Option.or_none, IbgpRow.candidate, emptyAsNull,
          orNone_eq_some.mpr ⟨hip.nonempty, rfl⟩]
  rw [Reads, readCandidate]
  cases hread : readNetworkd files config r.ifname with
  | mk warnings reading =>
      rw [hread] at htunnel
      dsimp only at htunnel
      subst htunnel
      dsimp only
      rw [if_neg hother]
      exact hbird

end Reading

/-! ## `babel.conf` -/

theorem lookupBabel_eq {x : Str} {p : BabelParams} {entries : List (Str × BabelParams)}
    (h : (x, p) ∈ entries) (honly : ∀ q, (x, q) ∈ entries → q = p) :
    lookupBabel x entries = some p := by
  rw [lookupBabel]
  cases hfound : entries.reverse.find? fun e => e.1 == x with
  | none =>
      have hnone := List.find?_eq_none.mp hfound (x, p) (List.mem_reverse.mpr h)
      exact absurd (beq_self_eq_true x) hnone
  | some e =>
      obtain ⟨y, q⟩ := e
      have hmem := List.mem_reverse.mp (List.mem_of_find?_eq_some hfound)
      have hy : y = x := by simpa using List.find?_some hfound
      subst hy
      rw [Option.map_some, honly q hmem]

theorem readBabel_holds {isWord : Nat → Bool} {files : ScanFiles} {config : AppConfig} {text : Str}
    (h : files.Holds (.ofStr config.birdBabelConfPath) text) :
    readBabel isWord files config = (parseBabelConfInterfaceParams isWord text, []) := by
  obtain ⟨hplain, hfile⟩ := h
  rw [readBabel]
  rw [hfile]
  rfl

/-- The parameters of the rows, as they are found in `babel.conf`. -/
theorem readBabel_rendered {isWord : Nat → Bool} {files : ScanFiles} {config : AppConfig}
    {rows : List IbgpRow} (hword : isWord 32 = false) (hrows : ∀ r ∈ rows, r.Showable)
    (hdistinct : (rows.map (·.ifname)).Nodup)
    (hfile : files.Holds (babelFile config rows).path (babelFile config rows).content) {r : IbgpRow}
    (hr : r ∈ rows) : lookupBabel r.ifname (readBabel isWord files config).1 =
      some ⟨some r.babelRxcost, some r.babelType⟩ := by
  have hinterfaces : babelInterfaces rows =
      rows.map fun r => ⟨r.ifname, r.babelRxcost, r.babelType⟩ := by
    have htunnel : rows.filter (fun r => r.hasWg) = rows :=
      List.filter_eq_self.mpr fun r hr => (hrows r hr).hasTunnel
    rw [babelInterfaces, htunnel]
    refine List.map_congr_left fun r hr => ?_
    have hne : r.babelType ≠ [] := by
      intro hnil
      have htype := (hrows r hr).babelType
      rw [hnil] at htype
      exact absurd htype (by decide)
    rw [if_neg (by simpa using hne)]
  have hreadable : ∀ i ∈ babelInterfaces rows, i.Readable := by
    intro i hi
    rw [hinterfaces] at hi
    obtain ⟨r, hr, rfl⟩ := List.mem_map.mp hi
    have h := hrows r hr
    exact ⟨h.ifname, h.babelType, h.rxcost.1, h.rxcost.2⟩
  have hread : (readBabel isWord files config).1 =
      rows.map fun r => (r.ifname, ⟨some r.babelRxcost, some r.babelType⟩) := by
    rw [readBabel_holds hfile, babelFile]
    dsimp only
    rw [parse_renderBabelConf hword hreadable, hinterfaces, List.map_map]
    rfl
  rw [hread]
  refine lookupBabel_eq (List.mem_map.mpr ⟨r, hr, rfl⟩) fun q hq => ?_
  obtain ⟨r', hr', heq⟩ := List.mem_map.mp hq
  rw [Prod.mk.injEq] at heq
  rw [← heq.2, List.inj_on_of_nodup_map hdistinct hr' hr heq.1]

/-! ## one row after the other -/

section Loop

variable {files : ScanFiles} {config : AppConfig} {wg : WgCommand}
  {babel : List (Str × BabelParams)} {db db' : Db} {r : ScanResult}

/-- The key a scan derives. -/
def WgCommand.derived (wg : WgCommand) (privateKey : Str) : Str :=
  match wg.pubkeyFromPrivate privateKey with
  | .ok pub => pub
  | .error _ => []

/-- The rows that the candidates become. -/
def bgpRecords (config : AppConfig) (wg : WgCommand) (entries : List (Str × Candidate)) :
    List BgpPeerRecord :=
  entries.filterMap fun e =>
    match e.2 with
    | .bgp asn t => some (bgpRecord config.nodeId e.1 asn t (wg.derived t.privateKey))
    | .ibgp .. => none

def ibgpRecords (config : AppConfig) (wg : WgCommand) (babel : List (Str × BabelParams))
    (entries : List (Str × Candidate)) : List IbgpPeerRecord :=
  entries.filterMap fun e =>
    match e.2 with
    | .ibgp name peerIp t =>
        some (ibgpRecord config.nodeId babel e.1 name peerIp t (wg.derived t.privateKey))
    | .bgp .. => none

/-- A candidate that a scan can import. -/
structure Importable (files : ScanFiles) (config : AppConfig) (wg : WgCommand)
    (babel : List (Str × BabelParams)) (e : Str × Candidate) : Prop where
  reads : Reads files config e.1 e.2
  derives : ∃ pub, wg.pubkeyFromPrivate e.2.privateKey = .ok pub
  keyFits : e.2.KeyFits
  rowFits : e.2.RowFits babel e.1

/-- Two interfaces that do not get in each other's way. -/
def Apart (a b : Str × Candidate) : Prop := a.1 ≠ b.1 ∧ ¬ a.2.SameKey b.2

theorem Apart.symm {a b : Str × Candidate} (h : Apart a b) : Apart b a := by
  obtain ⟨x, c⟩ := a
  obtain ⟨y, d⟩ := b
  refine ⟨h.1.symm, fun hsame => h.2 ?_⟩
  cases c with
  | bgp asn t =>
      cases d with
      | bgp asn' t' => exact hsame.symm
      | ibgp name peerIp t' => exact hsame
  | ibgp name peerIp t =>
      cases d with
      | bgp asn' t' => exact hsame
      | ibgp name' peerIp' t' => exact hsame.symm

/-- The row of one candidate is inserted. -/
theorem scanOne_imports (hn : encodable config.nodeId = true) (hbabel : ∀ e ∈ babel, e.2.Plain)
    (hnode : db.nodes.contains config.nodeId = true) {e : Str × Candidate}
    (he : Importable files config wg babel e) (hknown : ¬ e.2.Known config.nodeId db)
    (hblocked : ¬ e.2.Blocked config.nodeId e.1 db) (now : Str) (r : ScanResult)
    (missing : List Str) :
    ∃ warnings missing' db', (scanOne now config.nodeId wg babel files config (r, missing) e.1).run
        (Conn.fresh db none false) =
        (.ok ({ r with inserted := r.inserted ++ [e.2.imported e.1], warnings := warnings },
          missing'), Conn.fresh db' none false) ∧
      e.2.Added config.nodeId babel e.1 (wg.derived e.2.privateKey) db db' := by
  obtain ⟨pub, hpub⟩ := he.derives
  obtain ⟨hsound, netdev, network, birdLla, hsource⟩ := readCandidate_ok he.reads
  have hkey := (keyParams_iff hn hsound).mpr he.keyFits
  have hrow := (rowParams_iff hn hsound hsource.plain hbabel (wg.decoded hpub) he.keyFits).mpr
    he.rowFits
  have hn' : params [.text config.nodeId] = none := params_cons.mpr ⟨convert_text.mpr hn, rfl⟩
  have hend := @importCandidate_ending now config.nodeId e.1 db wg babel e.2 hn' hnode
  cases hread : readCandidate files config e.1 with
  | mk warnings reading =>
      have hreading : reading = .ok e.2 := by
        have hreads := he.reads
        rw [Reads, hread] at hreads
        exact hreads
      subst hreading
      unfold scanOne
      rw [hread]
      dsimp only
      cases hrun : (importCandidate now config.nodeId wg babel e.1 e.2).run
          (Conn.fresh db none false) with
      | mk result conn =>
          rw [hrun] at hend
          dsimp only at hend
          cases hend with
          | badKey key =>
              rw [hkey] at key
              cases key
          | taken key known => exact absurd known hknown
          | noKey key known pubkey =>
              rw [hpub] at pubkey
              cases pubkey
          | badRow key known pubkey row =>
              rw [hpub] at pubkey
              cases pubkey
              rw [hrow] at row
              cases row
          | refused key known pubkey row blocked => exact absurd blocked hblocked
          | inserted key known pubkey row blocked added =>
              rw [hpub] at pubkey
              cases pubkey
              refine ⟨_, _, _, run_bind_ok hrun, ?_⟩
              rw [WgCommand.derived, hpub]
              exact added

theorem Candidate.Added.records {x : Str} {c : Candidate}
    (h : c.Added config.nodeId babel x (wg.derived c.privateKey) db db') :
    db'.bgpPeers.map (·.toBgpPeerRecord) =
        db.bgpPeers.map (·.toBgpPeerRecord) ++ bgpRecords config wg [(x, c)] ∧
      db'.ibgpPeers.map (·.toIbgpPeerRecord) =
        db.ibgpPeers.map (·.toIbgpPeerRecord) ++ ibgpRecords config wg babel [(x, c)] := by
  cases c with
  | bgp asn t =>
      obtain ⟨row, hrow, hbgp, hibgp, -⟩ := h
      rw [hbgp, hibgp, List.map_append, List.map_singleton, hrow]
      exact ⟨rfl, (List.append_nil _).symm⟩
  | ibgp name peerIp t =>
      obtain ⟨row, hrow, hibgp, hbgp, -⟩ := h
      rw [hbgp, hibgp, List.map_append, List.map_singleton, hrow]
      exact ⟨(List.append_nil _).symm, rfl⟩

/-- All candidates are inserted, and each becomes its row. -/
theorem scanLoop_imports (hn : encodable config.nodeId = true) (hbabel : ∀ e ∈ babel, e.2.Plain)
    (hnode : db.nodes.contains config.nodeId = true) {entries : List (Str × Candidate)}
    (himportable : ∀ e ∈ entries, Importable files config wg babel e)
    (hapart : entries.Pairwise Apart) (hknown : ∀ e ∈ entries, ¬ e.2.Known config.nodeId db)
    (hblocked : ∀ e ∈ entries, ¬ e.2.Blocked config.nodeId e.1 db) (now : Str) (r : ScanResult)
    (missing : List Str) :
    ∃ warnings missing' db', (scanLoop (scanOne now config.nodeId wg babel files config) (r, missing)
        (entries.map Prod.fst)).run (Conn.fresh db none false) =
        (.ok ({ r with inserted := r.inserted ++ entries.map fun e => e.2.imported e.1
                       warnings := warnings }, missing'), Conn.fresh db' none false) ∧
      db'.bgpPeers.map (·.toBgpPeerRecord) =
        db.bgpPeers.map (·.toBgpPeerRecord) ++ bgpRecords config wg entries ∧
      db'.ibgpPeers.map (·.toIbgpPeerRecord) =
        db.ibgpPeers.map (·.toIbgpPeerRecord) ++ ibgpRecords config wg babel entries := by
  induction entries generalizing db r missing with
  | nil =>
      refine ⟨r.warnings, missing, db, ?_, (List.append_nil _).symm, (List.append_nil _).symm⟩
      rw [List.map_nil, List.map_nil, List.append_nil]
      rfl
  | cons e entries ih =>
      have hhead := List.mem_cons_self (a := e) (l := entries)
      obtain ⟨hfirst, hrest⟩ := List.pairwise_cons.mp hapart
      obtain ⟨warnings, missing1, db1, hrun, hadded⟩ := scanOne_imports hn hbabel hnode
        (himportable e hhead) (hknown e hhead) (hblocked e hhead) now r missing
      obtain ⟨hbgp, hibgp⟩ := hadded.records
      have hknown1 : ∀ d ∈ entries, ¬ d.2.Known config.nodeId db1 := by
        intro d hd
        rw [hadded.known, not_or]
        exact ⟨hknown d (List.mem_cons_of_mem _ hd), (hfirst d hd).2⟩
      have hblocked1 : ∀ d ∈ entries, ¬ d.2.Blocked config.nodeId d.1 db1 := by
        intro d hd
        rw [hadded.blocked (hfirst d hd).1.symm]
        exact hblocked d (List.mem_cons_of_mem _ hd)
      obtain ⟨warnings', missing', db', hloop, hbgp', hibgp'⟩ := ih
        (by rw [hadded.nodes]; exact hnode)
        (fun d hd => himportable d (List.mem_cons_of_mem _ hd)) hrest hknown1 hblocked1
        { r with inserted := r.inserted ++ [e.2.imported e.1], warnings := warnings } missing1
      refine ⟨warnings', missing', db', ?_, ?_, ?_⟩
      · rw [List.map_cons, scanLoop, run_bind_ok hrun, hloop, List.append_assoc]
        rfl
      · rw [hbgp', hbgp, List.append_assoc, bgpRecords, bgpRecords, ← List.filterMap_append]
        rfl
      · rw [hibgp', hibgp, List.append_assoc, ibgpRecords, ibgpRecords, ← List.filterMap_append]
        rfl

end Loop

/-! ## the rows of a node -/

/-- The row as a scan stores it. -/
def BgpRow.scanned (wg : WgCommand) (r : BgpRow) : BgpPeerRecord :=
  { r.toBgpPeerRecord with
    wgPublicKey := wg.derived r.wgPrivateKey
    peerPublicKey := emptyAsNull r.peerPublicKey
    endpoint := emptyAsNull r.endpoint
    peerLla := emptyAsNull r.peerLla
    netBackend := lit "networkd" }

def IbgpRow.scanned (wg : WgCommand) (r : IbgpRow) : IbgpPeerRecord :=
  { r.toIbgpPeerRecord with
    wgPublicKey := wg.derived r.wgPrivateKey
    peerPublicKey := emptyAsNull r.peerPublicKey
    endpoint := emptyAsNull r.endpoint
    peerLla := emptyAsNull r.peerLla
    netBackend := lit "networkd"
    peerIp := emptyAsNull r.peerIp
    remoteNodeId := none }

/-- Rows of one node whose files can be read back. -/
structure ShowableRows (config : AppConfig) (wg : WgCommand) (bgpRows : List BgpRow)
    (ibgpRows : List IbgpRow) : Prop where
  node : encodable config.nodeId = true
  bgp : ∀ r ∈ bgpRows, r.nodeId = config.nodeId ∧ r.Showable
  ibgp : ∀ r ∈ ibgpRows, r.nodeId = config.nodeId ∧ r.Showable
  asns : (bgpRows.map (·.peerAsn)).Nodup
  names : (ibgpRows.map (·.name)).Nodup
  ifnames : (bgpRows.map (·.ifname) ++ ibgpRows.map (·.ifname)).Nodup
  bgpKeys : ∀ r ∈ bgpRows, ∃ pub, wg.pubkeyFromPrivate r.wgPrivateKey = .ok pub
  ibgpKeys : ∀ r ∈ ibgpRows, ∃ pub, wg.pubkeyFromPrivate r.wgPrivateKey = .ok pub

/-- What the files say about every interface. -/
def entriesOf (bgpRows : List BgpRow) (ibgpRows : List IbgpRow) : List (Str × Candidate) :=
  bgpRows.map (fun r => (r.ifname, r.candidate)) ++ ibgpRows.map fun r => (r.ifname, r.candidate)

section Rows

variable {isWord : Nat → Bool} {files : ScanFiles} {config : AppConfig} {wg : WgCommand}
  {bgpRows : List BgpRow} {ibgpRows : List IbgpRow}

theorem map_fst_entriesOf : (entriesOf bgpRows ibgpRows).map Prod.fst =
    bgpRows.map (·.ifname) ++ ibgpRows.map (·.ifname) := by
  rw [entriesOf, List.map_append, List.map_map, List.map_map]
  rfl

/-- Every interface, in the order of the scan. -/
theorem exists_entries (h : ShowableRows config wg bgpRows ibgpRows)
    (hfiles : files.Rendered config bgpRows ibgpRows) :
    ∃ entries : List (Str × Candidate), candidates files config = entries.map Prod.fst ∧
      entries.Perm (entriesOf bgpRows ibgpRows) := by
  have hperm : (candidates files config).Perm ((entriesOf bgpRows ibgpRows).map Prod.fst) := by
    rw [map_fst_entriesOf]
    refine (List.perm_ext_iff_of_nodup (nodup_candidates files config) h.ifnames).mpr fun x => ?_
    rw [mem_candidates, hfiles.managed]
  have hcomp : Relation.Comp (· = List.map Prod.fst ·) List.Perm (candidates files config)
      (entriesOf bgpRows ibgpRows) := by
    rw [List.eq_map_comp_perm]
    exact hperm
  exact hcomp

theorem apart_entriesOf (h : ShowableRows config wg bgpRows ibgpRows) :
    (entriesOf bgpRows ibgpRows).Pairwise Apart := by
  refine List.pairwise_and_iff.mpr ⟨?_, ?_⟩
  · have hnodup := h.ifnames
    rw [← map_fst_entriesOf, List.Nodup, List.pairwise_map] at hnodup
    exact hnodup
  · rw [entriesOf, List.pairwise_append, List.pairwise_map, List.pairwise_map]
    refine ⟨List.pairwise_map.mp h.asns, List.pairwise_map.mp h.names, fun a ha b hb hsame => ?_⟩
    obtain ⟨r, -, rfl⟩ := List.mem_map.mp ha
    obtain ⟨r', -, rfl⟩ := List.mem_map.mp hb
    exact hsame

theorem lookup_rendered (hword : isWord 32 = false) (h : ShowableRows config wg bgpRows ibgpRows)
    (hfiles : files.Rendered config bgpRows ibgpRows) {r : IbgpRow} (hr : r ∈ ibgpRows) :
    lookupBabel r.ifname (readBabel isWord files config).1 =
      some ⟨some r.babelRxcost, some r.babelType⟩ :=
  readBabel_rendered hword (fun r hr => (h.ibgp r hr).2) (List.nodup_append.mp h.ifnames).2.1
    (hfiles.holds _ (List.mem_cons_self ..)) hr

theorem importable_entriesOf (hword : isWord 32 = false)
    (h : ShowableRows config wg bgpRows ibgpRows) (hfiles : files.Rendered config bgpRows ibgpRows) :
    ∀ e ∈ entriesOf bgpRows ibgpRows,
      Importable files config wg (readBabel isWord files config).1 e := by
  intro e he
  obtain he | he := List.mem_append.mp he
  · obtain ⟨r, hr, rfl⟩ := List.mem_map.mp he
    have hshow := (h.bgp r hr).2
    refine ⟨reads_bgp hshow fun f hf => hfiles.holds f ?_, h.bgpKeys r hr, hshow.asn.2, ?_⟩
    · exact List.mem_cons_of_mem _
        (List.mem_append_left _ (List.mem_flatMap.mpr ⟨r, hr, hf⟩))
    · exact lt_of_le_of_lt hshow.port.2 (by decide)
  · obtain ⟨r, hr, rfl⟩ := List.mem_map.mp he
    have hshow := (h.ibgp r hr).2
    refine ⟨reads_ibgp hshow (fun f hf => hfiles.holds f ?_) (hfiles.noBird r hr), h.ibgpKeys r hr,
      trivial, lt_of_le_of_lt hshow.port.2 (by decide), ?_, ?_⟩
    · exact List.mem_cons_of_mem _
        (List.mem_append_right _ (List.mem_flatMap.mpr ⟨r, hr, hf⟩))
    · rw [scanRxcost, lookup_rendered hword h hfiles hr]
      exact hshow.rxcost.2
    · show encodable r.ifname = true
      rw [hshow.named, encodable_append]
      exact ⟨by decide, encodable_clean (cleanName_of_sanitizeName hshow.clean)⟩

/-- The rows that the interfaces become. -/
theorem bgpRecords_entriesOf (h : ShowableRows config wg bgpRows ibgpRows) :
    bgpRecords config wg (entriesOf bgpRows ibgpRows) = bgpRows.map (·.scanned wg) := by
  have hnone : bgpRecords config wg (ibgpRows.map fun r => (r.ifname, r.candidate)) = [] := by
    rw [bgpRecords, List.filterMap_map]
    exact List.filterMap_eq_nil_iff.mpr fun r _ => rfl
  have hsome : bgpRecords config wg (bgpRows.map fun r => (r.ifname, r.candidate)) =
      bgpRows.map (·.scanned wg) := by
    rw [bgpRecords, List.filterMap_map, ← List.filterMap_eq_map]
    refine List.filterMap_congr fun r hr => ?_
    simp only [Function.comp_apply, BgpRow.candidate, bgpRecord, ScannedTunnel.record,
      PeerRecordBase.shown, BgpRow.scanned, (h.bgp r hr).1]
  rw [entriesOf, bgpRecords, List.filterMap_append]
  exact (congrArg₂ (· ++ ·) hsome hnone).trans (List.append_nil _)

theorem ibgpRecords_entriesOf (hword : isWord 32 = false)
    (h : ShowableRows config wg bgpRows ibgpRows) (hfiles : files.Rendered config bgpRows ibgpRows) :
    ibgpRecords config wg (readBabel isWord files config).1 (entriesOf bgpRows ibgpRows) =
      ibgpRows.map (·.scanned wg) := by
  have hnone : ibgpRecords config wg (readBabel isWord files config).1
      (bgpRows.map fun r => (r.ifname, r.candidate)) = [] := by
    rw [ibgpRecords, List.filterMap_map]
    exact List.filterMap_eq_nil_iff.mpr fun r _ => rfl
  have hsome : ibgpRecords config wg (readBabel isWord files config).1
      (ibgpRows.map fun r => (r.ifname, r.candidate)) = ibgpRows.map (·.scanned wg) := by
    rw [ibgpRecords, List.filterMap_map, ← List.filterMap_eq_map]
    refine List.filterMap_congr fun r hr => ?_
    have hlookup := lookup_rendered hword h hfiles hr
    obtain ⟨hnode, hshow⟩ := h.ibgp r hr
    simp only [Function.comp_apply, IbgpRow.candidate, ibgpRecord, ScannedTunnel.record,
      PeerRecordBase.shown, IbgpRow.scanned, hlookup, hnode, hshow.hasTunnel]
    rfl
  rw [entriesOf, ibgpRecords, List.filterMap_append]
  exact congrArg₂ (· ++ ·) hnone hsome

/-- Nothing is in the way in an empty database. -/
theorem free_empty (e : Str × Candidate) :
    ¬ e.2.Known config.nodeId (Db.empty.upsertNode config.nodeId) ∧
      ¬ e.2.Blocked config.nodeId e.1 (Db.empty.upsertNode config.nodeId) := by
  rw [upsertNode_eq]
  obtain ⟨x, c⟩ := e
  cases c with
  | bgp asn t => simp [Candidate.Known, Candidate.Blocked, Db.getBgpPeer, Db.empty]
  | ibgp name peerIp t => simp [Candidate.Known, Candidate.Blocked, Db.getIbgpPeer, Db.empty]

end Rows

/-! ## a machine with two tunnels -/

/-- A machine with these files and the unit files of these interfaces. -/
def shownFiles (networkdDir : PosixPath) (specs : List FileSpec) (ifnames : List Str) :
    ScanFiles where
  file p :=
    match specs.find? fun f => f.path == p with
    | none => .missing
    | some f => if h : encodable f.content = true then .text ⟨f.content, h⟩ else .failed []
  dir d :=
    if d = networkdDir then
      .listed (ifnames.flatMap fun x => [x ++ lit ".netdev", x ++ lit ".network"])
    else .missing

section Shown

variable {networkdDir : PosixPath} {specs : List FileSpec} {ifnames : List Str}

theorem holds_shownFiles (hnodup : (specs.map (·.path)).Nodup)
    (hplain : ∀ f ∈ specs, encodable f.content = true) :
    ∀ f ∈ specs, (shownFiles networkdDir specs ifnames).Holds f.path f.content := by
  intro f hf
  refine ⟨hplain f hf, ?_⟩
  rw [shownFiles]
  dsimp only
  cases hfound : specs.find? fun g => g.path == f.path with
  | none => exact absurd (beq_self_eq_true _) (List.find?_eq_none.mp hfound f hf)
  | some g =>
      have hpath : g.path = f.path := by simpa using List.find?_some hfound
      have hsame := List.inj_on_of_nodup_map hnodup (List.mem_of_find?_eq_some hfound) hf hpath
      subst hsame
      dsimp only
      rw [dif_pos (hplain g hf)]

theorem isCandidate_shownFiles {config : AppConfig} {x : Str}
    (hdir : networkdDir = .ofStr config.networkdDir)
    (hmanaged : ∀ x ∈ ifnames, isManagedIfname x = true) :
    IsCandidate (shownFiles networkdDir specs ifnames) config x ↔ x ∈ ifnames := by
  constructor
  · rintro ⟨-, suffix, hsuffix, d, -, hmem⟩
    rw [shownFiles] at hmem
    dsimp only at hmem
    split at hmem
    · obtain ⟨y, hy, hname⟩ := List.mem_flatMap.mp hmem
      -- the two suffixes end differently
      have hother : ∀ {a b : Str}, a ++ lit ".netdev" ≠ b ++ lit ".network" := by
        intro a b hab
        have hlast := congrArg List.getLast? hab
        rw [List.getLast?_append, List.getLast?_append] at hlast
        have hv : (lit ".netdev").getLast? = some 118 := by decide
        have hk : (lit ".network").getLast? = some 107 := by decide
        rw [hv, hk, Option.some_or, Option.some_or] at hlast
        exact absurd (Option.some.inj hlast) (by decide)
      simp only [List.mem_cons, List.not_mem_nil, or_false] at hsuffix hname
      obtain rfl | rfl := hsuffix <;> obtain hname | hname := hname
      · rw [List.append_cancel_right hname]
        exact hy
      · exact absurd hname hother
      · exact absurd hname.symm hother
      · rw [List.append_cancel_right hname]
        exact hy
    · cases hmem
  · intro hx
    obtain ⟨ds, hds⟩ := networkdDirs_cons config
    refine ⟨hmanaged x hx, lit ".netdev", List.mem_cons_self .., networkdDir, ?_, ?_⟩
    · rw [hds, hdir]
      exact List.mem_cons_self ..
    · rw [shownFiles]
      dsimp only
      rw [if_pos rfl]
      exact List.mem_flatMap.mpr ⟨x, hx, List.mem_cons_self ..⟩

end Shown

/-- The tunnels of the two rows. -/
def shownTunnel (ifname : Str) : PeerRecordBase where
  nodeId := lit "a"
  ifname := ifname
  wgPrivateKey := lit "k"
  wgPublicKey := lit "p"
  peerPublicKey := some (lit "q")
  endpoint := some []
  localLla := lit "fe80::1"
  peerLla := some (lit "fe80::2")
  listenPort := 0
  allowedIps := [lit "fe80::/64"]
  netBackend := lit "networkd"

def shownBgpRow : BgpRow :=
  { shownTunnel (lit "dn42_1") with
    peerAsn := 64512, createdAt := lit "t0", updatedAt := lit "t0" }

/-- Its `peer_lla` is empty, as it is when a peer is created without one. -/
def shownIbgpRow : IbgpRow :=
  { shownTunnel (lit "wg_b") with
    peerLla := some [], name := lit "b", babelRxcost := 96, peerIp := some (lit "fd00::b"),
    createdAt := lit "t0", updatedAt := lit "t0" }

def shownMachine : ScanFiles :=
  shownFiles (.ofStr sampleConfig.networkdDir)
    (babelFile sampleConfig [shownIbgpRow] :: rowFiles sampleConfig [shownBgpRow] [shownIbgpRow])
    [lit "dn42_1", lit "wg_b"]

theorem rendered_shownMachine : shownMachine.Rendered sampleConfig [shownBgpRow] [shownIbgpRow] where
  holds := holds_shownFiles (by decide +kernel) (by decide +kernel)
  managed _ := isCandidate_shownFiles rfl (by decide)
  noBird r hr hnone := by
    rw [List.mem_singleton.mp hr] at hnone
    exact absurd hnone (by decide)

theorem showable_shownTunnel {ifname : Str} (h : PlainText ifname) :
    (shownTunnel ifname).Showable where
  backend := rfl
  ifname := h
  privateKey := show PlainText (lit "k") from ⟨by decide, by decide⟩
  peerPublicKey := ⟨_, rfl, by decide⟩
  endpoint v hv := by
    cases hv
    decide
  localLla := show PlainText (lit "fe80::1") from ⟨by decide, by decide⟩
  noSlash := show 47 ∉ lit "fe80::1" by decide
  peerLla v hv := by
    cases hv
    decide
  port := show (0 : Int) ≤ 0 ∧ (0 : Int) ≤ 65535 by decide
  someAllowed := List.cons_ne_nil _ _
  allowedIps a ha := by
    rw [List.mem_singleton.mp ha]
    exact ⟨by decide +kernel, by decide, by decide⟩

theorem showableRows_shown :
    ShowableRows sampleConfig sampleWg [shownBgpRow] [shownIbgpRow] where
  node := by decide
  bgp r hr := by
    rw [List.mem_singleton.mp hr]
    exact ⟨rfl, showable_shownTunnel ⟨by decide, by decide⟩, by decide, by decide, by decide,
      by decide⟩
  ibgp r hr := by
    have htunnel := showable_shownTunnel (show PlainText (lit "wg_b") from ⟨by decide, by decide⟩)
    rw [List.mem_singleton.mp hr]
    refine ⟨rfl, { htunnel with peerLla := fun v hv => ?_ }, rfl, rfl, by rfl, fun v hv => ?_,
      ⟨by decide, by decide⟩, by decide⟩
    · cases hv
      decide
    · cases hv
      decide
  asns := by decide
  names := by decide
  ifnames := by decide
  bgpKeys r hr := ⟨lit "p", rfl⟩
  ibgpKeys r hr := ⟨lit "p", rfl⟩

/-! ## the whole scan -/

section Scan

variable {isWord : Nat → Bool} {files : ScanFiles} {config : AppConfig} {wg : WgCommand}
  {bgpRows : List BgpRow} {ibgpRows : List IbgpRow}

/-- **A scan undoes `genconf`**: from the files rendered for the rows of a node it
inserts exactly these rows, and every column that a file shows comes back as it
was, but for an empty text. -/
theorem scan_undoes_render (hword : isWord 32 = false) (now : Str)
    (h : ShowableRows config wg bgpRows ibgpRows) (hfiles : files.Rendered config bgpRows ibgpRows) :
    ∃ r db', eval (scanLocalConfigs isWord now (some wg) files config) Db.empty = (.ok r, db') ∧
      (db'.bgpPeers.map (·.toBgpPeerRecord)).Perm (bgpRows.map (·.scanned wg)) ∧
      (db'.ibgpPeers.map (·.toIbgpPeerRecord)).Perm (ibgpRows.map (·.scanned wg)) ∧
      r.conflicts = [] ∧ r.skipped = [] := by
  obtain ⟨entries, hcandidates, hperm⟩ := exists_entries h hfiles
  have hbabel : ∀ e ∈ (readBabel isWord files config).1, e.2.Plain := fun e he => readBabel_plain he
  have hapart : entries.Pairwise Apart := (hperm.pairwise_iff Apart.symm).mpr (apart_entriesOf h)
  have himportable := importable_entriesOf hword h hfiles
  obtain ⟨warnings, missing, db', hloop, hbgp, hibgp⟩ := scanLoop_imports h.node hbabel
    contains_upsertNode (fun e he => himportable e (hperm.mem_iff.mp he)) hapart
    (fun e _ => (free_empty e).1) (fun e _ => (free_empty e).2) now
    { warnings := (readBabel isWord files config).2 ++
        [lit ".netdev", lit ".network"].flatMap fun _ =>
          (networkdDirs config).flatMap fun d => dirWarning d (files.dir d) } []
  rw [← hcandidates] at hloop
  have hbgpRows : db'.bgpPeers.map (·.toBgpPeerRecord) = bgpRecords config wg entries := by
    rw [hbgp, upsertNode_eq]
    rfl
  have hibgpRows : db'.ibgpPeers.map (·.toIbgpPeerRecord) =
      ibgpRecords config wg (readBabel isWord files config).1 entries := by
    rw [hibgp, upsertNode_eq]
    rfl
  have hscan : ∃ said, eval (scanLocalConfigs isWord now (some wg) files config) Db.empty =
      (.ok { inserted := entries.map fun e => e.2.imported e.1, warnings := said }, db') := by
    rw [eval, scanLocalConfigs, run_bind_ok (run_ensureNode h.node), run_bind_ok hloop]
    exact ⟨_, rfl⟩
  obtain ⟨said, hscan⟩ := hscan
  refine ⟨_, db', hscan, ?_, ?_, rfl, rfl⟩
  · rw [hbgpRows, ← bgpRecords_entriesOf h]
    exact hperm.filterMap _
  · rw [hibgpRows, ← ibgpRecords_entriesOf hword h hfiles]
    exact hperm.filterMap _

end Scan

/-- The two rows come back, the iBGP row with NULL for its empty address. -/
theorem scan_undoes_render_shown : ∃ r db',
    eval (scanLocalConfigs (fun _ => false) (lit "t") (some sampleWg) shownMachine sampleConfig)
        Db.empty = (.ok r, db') ∧
      (db'.bgpPeers.map (·.toBgpPeerRecord)).Perm [shownBgpRow.scanned sampleWg] ∧
      (db'.ibgpPeers.map (·.toIbgpPeerRecord)).Perm [shownIbgpRow.scanned sampleWg] ∧
      r.conflicts = [] ∧ r.skipped = [] :=
  scan_undoes_render rfl (lit "t") showableRows_shown rendered_shownMachine

end Dn42Ctl
