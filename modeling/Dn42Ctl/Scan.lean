import Dn42Ctl.Config
import Dn42Ctl.Peers
import Dn42Ctl.Lib.Builtins
import Dn42Ctl.Lib.Lines
import Dn42Ctl.Lib.Pattern

/-!
# Scan

`services/scan.py`: the configuration files of a machine are read and turned into
rows of its partition.  Reading is pure: what stands in the files decides whether
an interface is skipped, and with which columns it would be stored.  Writing
happens on one connection, one interface after the other.

* `parseNetworkdNetdev`, `parseNetworkdNetwork`, `parseBirdBgpPeerConf`,
  `parseBirdIbgpPeerConf`, `parseBabelConfInterfaceParams` — the five parsers;
* `readCandidate` — what the files say about one interface;
* `scanLocalConfigs` — the whole scan.
-/

namespace Dn42Ctl

open Text Txn Builtins Pattern

/-! ## networkd files -/

def rstrip (s : Str) : Str := s.rdropWhile isSpace

/-- `_strip_inline_comment`: a `;` counts only on a line without a `#`. -/
def stripInlineComment (line : Str) : Str :=
  if line.contains 35 then rstrip (line.takeWhile (· != 35))
  else if line.contains 59 then rstrip (line.takeWhile (· != 59))
  else line

/-- What a line of a unit file says. -/
inductive UnitLine where
  | nothing
  | heading (name : Str)
  | assignment (key val : Str)
deriving DecidableEq, Repr

/-- The part of the loops that `_parse_networkd_netdev` and
`_parse_networkd_network` share. -/
def readUnitLine (raw : Str) : UnitLine :=
  let line := strip raw
  if line.isEmpty || startsWith line [35] || startsWith line [59] then .nothing
  else
    let line := stripInlineComment line
    if line.isEmpty then .nothing
    else if startsWith line [91] && endsWith line [93] then
      .heading (strip ((line.drop 1).dropLast))
    else
      match partition 61 line with
      | (_, none) => .nothing
      | (key, some val) => .assignment (strip key) (strip val)

/-- The keys of the dictionary `_parse_networkd_netdev` returns; no allowed
address is the same as no key. -/
structure ParsedNetdev where
  privateKey : Option Str := none
  listenPort : Option Int := none
  peerPublicKey : Option Str := none
  endpoint : Option Str := none
  allowedIps : List Str := []
deriving DecidableEq, Repr

/-- The items of an `AllowedIPs` value that are IPv6 networks. -/
def allowedItems (val : Str) : List Str :=
  ((val.splitOnP fun c => isSpace c || c == 44).map strip).filter fun item =>
    !item.isEmpty && IpAddress.isIPv6Interface item

def netdevAssign (heading key val : Str) (d : ParsedNetdev) : ParsedNetdev :=
  if heading = lit "WireGuard" then
    if key = lit "PrivateKey" then { d with privateKey := some val }
    else if key = lit "ListenPort" then
      match intOfStr val with
      | some port => { d with listenPort := some port }
      | none => d
    else d
  else if heading = lit "WireGuardPeer" then
    if key = lit "PublicKey" then { d with peerPublicKey := some val }
    else if key = lit "Endpoint" then { d with endpoint := some val }
    else if key = lit "AllowedIPs" then { d with allowedIps := d.allowedIps ++ allowedItems val }
    else d
  else d

/-- The keys of the dictionary `_parse_networkd_network` returns. -/
structure ParsedNetwork where
  localLla : Option Str := none
  peerLla : Option Str := none
deriving DecidableEq, Repr

def networkAssign (heading key val : Str) (d : ParsedNetwork) : ParsedNetwork :=
  if heading = lit "Address" then
    if key = lit "Address" then { d with localLla := some (partition 47 val).1 }
    else if key = lit "Peer" then { d with peerLla := some val }
    else d
  else d

/-- One round of either loop: the heading in force and what was collected. -/
def unitStep {δ : Type} (assign : Str → Str → Str → δ → δ) (state : Str × δ) (raw : Str) :
    Str × δ :=
  match readUnitLine raw with
  | .nothing => state
  | .heading name => (name, state.2)
  | .assignment key val => (state.1, assign state.1 key val state.2)

def parseNetworkdNetdev (text : Str) : ParsedNetdev :=
  ((splitlines text).foldl (unitStep netdevAssign) ([], {})).2

def parseNetworkdNetwork (text : Str) : ParsedNetwork :=
  ((splitlines text).foldl (unitStep networkAssign) ([], {})).2

/-! ## BIRD files -/

def spaces : Item := .run 1 isSpace false

def optionalSpaces : Item := .run 0 isSpace false

/-- `neighbor\s+([^%\s]+)%<ifname>\s+as\s+`. -/
def boundNeighbor (ifname : Str) : List Item :=
  [.text (lit "neighbor"), spaces, .run 1 (fun c => c != 37 && !isSpace c) true,
    .text ([37] ++ ifname), spaces, .text (lit "as"), spaces]

/-- `_parse_bird_bgp_peer_conf`: the number and the address of the neighbour. -/
def parseBirdBgpPeerConf (text ifname : Str) : Option Int × Option Str :=
  match search (boundNeighbor ifname ++ [.run 1 isDigit true, optionalSpaces, .text [59]]) text with
  | some ([peerLla, digits], _) => (intOfStr digits, some peerLla)
  | _ => (none, none)

/-- `_parse_bird_ibgp_peer_conf`: the address of the peer, or its link-local
address in a file of the older form. -/
def parseBirdIbgpPeerConf (text ifname : Str) : Option Str × Option Str :=
  match search (boundNeighbor ifname ++ [.text (lit "OWNAS"), optionalSpaces, .text [59]]) text with
  | some ([peerLla], _) => (none, some peerLla)
  | _ =>
      match search [.text (lit "neighbor"), spaces, .run 1 (fun c => !isSpace c) true, spaces,
          .text (lit "as"), spaces, .text (lit "OWNAS"), optionalSpaces, .text [59]] text with
      | some ([peerIp], _) => (some peerIp, none)
      | _ => (none, none)

/-- `_BabelInterfaceParams`. -/
structure BabelParams where
  rxcost : Option Int
  babelType : Option Str
deriving DecidableEq, Repr

section Babel

variable (isWord : Nat → Bool)

/-- `\b` before a letter, where `isWord` is `\w`. -/
def atBoundary (before : Option Nat) : Bool := !before.any isWord

def parseInterfaceBody (body : Str) : BabelParams where
  rxcost :=
    match searchFrom (atBoundary isWord) [.text (lit "rxcost"), spaces, .run 1 isDigit true,
        optionalSpaces, .text [59]] none body with
    | some ([digits], _) => intOfStr digits
    | _ => none
  babelType :=
    match searchFrom (atBoundary isWord) [.text (lit "type"), spaces,
        .oneOf [lit "wired", lit "wireless", lit "tunnel"], optionalSpaces, .text [59]]
        none body with
    | some ([babelType], _) => some babelType
    | _ => none

/-- `_BABEL_INTERFACE_BLOCK_RE`. -/
def interfaceBlock : List Item :=
  [.text (lit "interface"), spaces, .text [34], .run 1 (· != 34) true, .text [34], optionalSpaces,
    .text [123], .run 0 (· != 125) true, .text [125], optionalSpaces, .text [59]]

/-- `_parse_babel_conf_interface_params`: the blocks in order, of which a later
one replaces an earlier one of its interface. -/
def parseBabelConfInterfaceParams (text : Str) : List (Str × BabelParams) :=
  (findAll interfaceBlock text).filterMap fun groups =>
    match groups with
    | [name, body] =>
        if (strip name).isEmpty then none else some (strip name, parseInterfaceBody isWord body)
    | _ => none

end Babel

/-- `babel_params_by_ifname.get(ifname)`. -/
def lookupBabel (ifname : Str) (entries : List (Str × BabelParams)) : Option BabelParams :=
  (entries.reverse.find? fun e => e.1 == ifname).map Prod.snd

/-! ## what the files say about an interface -/

/-- What `exists()` and `read_text(errors="replace")` of a path do.  A decoded
text has no surrogates. -/
inductive FileState where
  | missing
  | inaccessible (detail : Str)
  | denied
  | failed (detail : Str)
  | text (s : { s : Str // encodable s = true })

/-- What a directory lists, and what stops the listing. -/
inductive DirState where
  | missing
  | listed (names : List Str)
  | denied (names : List Str)
  | failed (names : List Str) (detail : Str)

/-- The files a scan can see. -/
structure ScanFiles where
  file : PosixPath → FileState
  dir : PosixPath → DirState

/-- `_read_text`, of a file that exists. -/
def readText (path : PosixPath) : FileState → Except PyError Str
  | .text s => pure s.1
  | .failed detail => throw (dn42CtlError [.text (lit "读取失败: "), .text path.toStr,
      .text (lit " ("), .text detail, .text (lit ")")])
  | _ => throw (dn42CtlError [.text (lit "权限不足: 无法读取 "), .text path.toStr])

/-- `_find_first`: the first path that exists, with its file. -/
def findFirst (files : ScanFiles) : List PosixPath → Option (PosixPath × FileState)
  | [] => none
  | p :: ps =>
      match files.file p with
      | .missing | .inaccessible _ => findFirst files ps
      | state => some (p, state)

def ifnamePrefixBgp : Str := lit "dn42_"

def ifnamePrefixIbgp : Str := lit "wg_"

/-- `_is_managed_ifname`. -/
def isManagedIfname (ifname : Str) : Bool :=
  startsWith ifname ifnamePrefixBgp || startsWith ifname ifnamePrefixIbgp

/-- `_dedup`: the first of the paths with one spelling. -/
def dedupPaths : List PosixPath → List PosixPath
  | [] => []
  | p :: ps => p :: (dedupPaths ps).filter fun q => q.toStr != p.toStr

def birdPeersDirs (config : AppConfig) : List PosixPath :=
  dedupPaths [.ofStr config.birdPeersDir, .ofStr (lit "/etc/bird/peers"),
    .ofStr (lit "/etc/bird6/peers")]

def networkdDirs (config : AppConfig) : List PosixPath :=
  dedupPaths [.ofStr config.networkdDir, .ofStr (lit "/etc/systemd/network")]

/-- The columns of a tunnel, as a scan finds them. -/
structure ScannedTunnel where
  privateKey : Str
  listenPort : Int
  localLla : Str
  peerPublicKey : Option Str
  endpoint : Option Str
  allowedIps : List Str
  peerLla : Option Str
deriving DecidableEq, Repr

/-- `str(data.get(key) or "").strip()`. -/
def textOf (value : Option Str) : Str := strip (value.getD [])

/-- `… or None`. -/
def orNone (s : Str) : Option Str := if s.isEmpty then none else some s

/-- Reading an interface: the warnings, and why it is skipped or what was found. -/
abbrev Reading (α : Type) := List Msg × Except Msg α

def skipped {α : Type} (warnings : List Msg) (reason : Msg) : Reading α := (warnings, .error reason)

/-- The fields of the two parsed files. -/
def readTunnel (ifname : Str) (netdev : ParsedNetdev) (network : ParsedNetwork) :
    Reading ScannedTunnel :=
  let privateKey := textOf netdev.privateKey
  if privateKey.isEmpty then skipped [] [.text (lit "缺少 PrivateKey")]
  else
    let listenPort := netdev.listenPort.getD 0
    let warnings : List Msg := if listenPort ≤ 0 then
      [[.text ifname, .text (lit ": 未找到 ListenPort，将以 0(未设置) 导入")]] else []
    let localLla := textOf network.localLla
    if localLla.isEmpty then skipped warnings [.text (lit "缺少本端 LLA/Address")]
    else
      (warnings, .ok
        { privateKey, listenPort := if listenPort ≤ 0 then 0 else listenPort, localLla
          peerPublicKey := orNone (textOf netdev.peerPublicKey)
          endpoint := orNone (textOf netdev.endpoint)
          allowedIps := if netdev.allowedIps.isEmpty then defaultAllowedIps else netdev.allowedIps
          peerLla := orNone (textOf network.peerLla) })

/-- Both networkd files of an interface. -/
def readNetworkd (files : ScanFiles) (config : AppConfig) (ifname : Str) : Reading ScannedTunnel :=
  let path := fun suffix => (networkdDirs config).map fun d => d.join (ifname ++ lit suffix)
  match findFirst files (path ".netdev"), findFirst files (path ".network") with
  | some netdev, some network =>
      match readText netdev.1 netdev.2, readText network.1 network.2 with
      | .ok netdevText, .ok networkText =>
          readTunnel ifname (parseNetworkdNetdev netdevText) (parseNetworkdNetwork networkText)
      | .error e, _ | .ok _, .error e => skipped [] (.text (lit "读取配置失败: ") :: e.text)
  | _, _ => skipped [] [.text (lit "未找到 networkd 配置")]

/-- An interface with everything its row needs but the public key. -/
inductive Candidate where
  | bgp (peerAsn : Int) (tunnel : ScannedTunnel)
  | ibgp (name : Str) (peerIp : Option Str) (tunnel : ScannedTunnel)
deriving DecidableEq, Repr

def Candidate.tunnel : Candidate → ScannedTunnel
  | .bgp _ t | .ibgp _ _ t => t

/-- The BIRD file of a BGP peer, which has to be there. -/
def readBgp (files : ScanFiles) (config : AppConfig) (ifname : Str) (tunnel : ScannedTunnel) :
    Except Msg Candidate :=
  match findFirst files ((birdPeersDirs config).map fun d => d.join (ifname ++ lit ".conf")) with
  | none => .error [.text (lit "缺少 Bird peer conf，无法解析 ASN")]
  | some found =>
      match readText found.1 found.2 with
      | .error e => .error (.text (lit "读取 Bird peer conf 失败: ") :: e.text)
      | .ok birdText =>
          match parseBirdBgpPeerConf birdText ifname with
          | (none, _) => .error [.text (lit "Bird peer conf 解析 ASN 失败")]
          | (some asn, birdLla) =>
              .ok (.bgp asn { tunnel with peerLla := tunnel.peerLla.or birdLla })

/-- The BIRD file of an iBGP peer, if it can be read. -/
def readIbgp (files : ScanFiles) (config : AppConfig) (ifname : Str) (tunnel : ScannedTunnel) :
    Reading Candidate :=
  match sanitizeName (ifname.drop ifnamePrefixIbgp.length) with
  | .error e => skipped [] (.text (lit "接口名无效: ") :: e.text)
  | .ok name =>
      match findFirst files ((birdPeersDirs config).map fun d =>
          d.join (lit "ibgp_" ++ name ++ lit ".conf")) with
      | none => ([], .ok (.ibgp name none tunnel))
      | some found =>
          match readText found.1 found.2 with
          | .error e =>
              ([.text ifname :: .text (lit ": 读取 Bird iBGP peer conf 失败: ") :: e.text],
                .ok (.ibgp name none tunnel))
          | .ok birdText =>
              let parsed := parseBirdIbgpPeerConf birdText ifname
              ([], .ok (.ibgp name parsed.1 { tunnel with peerLla := tunnel.peerLla.or parsed.2 }))

/-- Everything that happens to an interface before the database is asked. -/
def readCandidate (files : ScanFiles) (config : AppConfig) (ifname : Str) : Reading Candidate :=
  match readNetworkd files config ifname with
  | (warnings, .error reason) => (warnings, .error reason)
  | (warnings, .ok tunnel) =>
      if startsWith ifname ifnamePrefixBgp then (warnings, readBgp files config ifname tunnel)
      else
        let (more, result) := readIbgp files config ifname tunnel
        (warnings ++ more, result)

/-- `_collect_stems`: the managed interfaces with a file of one suffix in one
directory. -/
def stemsIn (suffix : Str) : DirState → List Str
  | .missing => []
  | .listed names | .denied names | .failed names _ =>
      (names.filter fun name => endsWith name suffix).filterMap fun name =>
        let stem := name.take (name.length - suffix.length)
        if isManagedIfname stem then some stem else none

/-- The candidates, sorted. -/
def candidates (files : ScanFiles) (config : AppConfig) : List Str :=
  ([lit ".netdev", lit ".network"].flatMap fun suffix =>
    (networkdDirs config).flatMap fun d => stemsIn suffix (files.dir d)).dedup.insertionSort (· ≤ ·)

def dirWarning (d : PosixPath) : DirState → List Msg
  | .denied _ => [[.text (lit "权限不足: 无法扫描目录 "), .text d.toStr, .text (lit "，已跳过")]]
  | .failed _ detail => [[.text (lit "扫描目录失败: "), .text d.toStr, .text (lit " ("),
      .text detail, .text (lit ")")]]
  | _ => []

/-- The parameters in `babel.conf`, and what is wrong with the file. -/
def readBabel (isWord : Nat → Bool) (files : ScanFiles) (config : AppConfig) :
    List (Str × BabelParams) × List Msg :=
  let path := PosixPath.ofStr config.birdBabelConfPath
  match files.file path with
  | .missing => ([], [[.text (lit "未找到 babel.conf: "), .text path.toStr,
      .text (lit "（无法探测 rxcost/type，将使用默认值）")]])
  | .inaccessible detail => ([], [[.text (lit "无法访问 babel.conf: "), .text path.toStr,
      .text (lit " ("), .text detail, .text (lit ")")]])
  | state =>
      match readText path state with
      | .ok text => (parseBabelConfInterfaceParams isWord text, [])
      | .error e => ([], [.text (lit "读取 babel.conf 失败: ") :: e.text])

/-! ## writing -/

/-- The kind of a peer. -/
inductive ScanKind where
  | bgp
  | ibgp
deriving DecidableEq, Repr

/-- `ScanImported`. -/
structure ScanImported where
  kind : ScanKind
  key : Str
  ifname : Str
  netBackend : Str
deriving DecidableEq, Repr

/-- `ScanResult`; an entry of `skipped` is the interface and the reason that
follows its name. -/
structure ScanResult where
  inserted : List ScanImported := []
  conflicts : List ScanImported := []
  skipped : List (Str × Msg) := []
  warnings : List Msg := []
deriving Repr

/-- The command `wg pubkey`: the public key, or the text of its `WireGuardError`. -/
structure WgCommand where
  pubkeyFromPrivate : Str → Except Msg Str
  decoded : ∀ {priv pub}, pubkeyFromPrivate priv = .ok pub → encodable pub = true

/-- What becomes of a candidate. -/
inductive Outcome where
  | inserted
  /-- A row has its key already. -/
  | taken
  /-- The row could not be written. -/
  | refused (error : PyError)
  | skipped (reason : Msg)
deriving Repr

/-- `try: m  except DatabaseError as exc: …`: the error, if there was one. -/
def catchDatabaseError (m : DbTx Unit) : DbTx (Option PyError) :=
  Prog.catching (do m; pure none) fun
    | .raised ⟨.databaseError, text⟩ => pure (some ⟨.databaseError, text⟩)
    | e => Prog.raise e

/-- Look a row up, derive its public key and insert it. -/
def importRow {ρ : Type} (lookup : DbTx (Option ρ)) (pubkey : Except Msg Str)
    (insert : Str → DbTx Unit) : DbTx Outcome := do
  let existing ← wrapDatabaseError lookup
  if existing.isSome then pure .taken
  else
    match pubkey with
    | .error text => pure (.skipped (.text (lit "wg pubkey 失败: ") :: text))
    | .ok wgPublicKey => do
        match ← catchDatabaseError (insert wgPublicKey) with
        | none => pure .inserted
        | some e => pure (.refused e)

/-- The columns a scan writes. -/
def ScannedTunnel.record (t : ScannedTunnel) (nodeId ifname wgPublicKey : Str) :
    PeerRecordBase where
  nodeId := nodeId
  ifname := ifname
  wgPrivateKey := t.privateKey
  wgPublicKey := wgPublicKey
  peerPublicKey := t.peerPublicKey
  endpoint := t.endpoint
  localLla := t.localLla
  peerLla := t.peerLla
  listenPort := t.listenPort
  allowedIps := t.allowedIps
  netBackend := lit "networkd"

def babelDefaultRxcost : Int := 20

def babelDefaultType : Str := lit "tunnel"

section Import

variable (now nodeId : Str) (wg : WgCommand) (babel : List (Str × BabelParams))

def bgpRecord (ifname : Str) (asn : Int) (t : ScannedTunnel) (pub : Str) : BgpPeerRecord :=
  { t.record nodeId ifname pub with peerAsn := asn }

def ibgpRecord (ifname name : Str) (peerIp : Option Str) (t : ScannedTunnel) (pub : Str) :
    IbgpPeerRecord :=
  let params := lookupBabel ifname babel
  { t.record nodeId ifname pub with
    name
    babelRxcost := (params.bind BabelParams.rxcost).getD babelDefaultRxcost
    babelType := (params.bind BabelParams.babelType).getD babelDefaultType
    peerIp }

def importCandidate (ifname : Str) : Candidate → DbTx Outcome
  | .bgp asn t =>
      importRow (Database.getBgpPeer nodeId asn) (wg.pubkeyFromPrivate t.privateKey) fun pub =>
        Database.insertBgpPeer now (bgpRecord nodeId ifname asn t pub)
  | .ibgp name peerIp t =>
      importRow (Database.getIbgpPeer nodeId name) (wg.pubkeyFromPrivate t.privateKey) fun pub =>
        Database.insertIbgpPeer now (ibgpRecord nodeId babel ifname name peerIp t pub)

def Candidate.imported (ifname : Str) : Candidate → ScanImported
  | .bgp asn _ => ⟨.bgp, lit "AS" ++ ofInt asn, ifname, lit "networkd"⟩
  | .ibgp name _ _ => ⟨.ibgp, name, ifname, lit "networkd"⟩

/-- Whether the row was about to be written, which is when a missing entry in
`babel.conf` is noted. -/
def Outcome.written : Outcome → Bool
  | .inserted | .refused _ => true
  | _ => false

/-- The result and the interfaces without parameters. -/
abbrev ScanState := ScanResult × List Str

/-- The bookkeeping of one candidate. -/
def noteOutcome (ifname : Str) (candidate : Candidate) (outcome : Outcome) (state : ScanState) :
    ScanState :=
  let entry := candidate.imported ifname
  let result := match outcome with
    | .inserted => { state.1 with inserted := state.1.inserted ++ [entry] }
    | .taken => { state.1 with conflicts := state.1.conflicts ++ [entry] }
    | .refused e => { state.1 with
        conflicts := state.1.conflicts ++ [entry]
        warnings := state.1.warnings ++ [.text ifname :: .text (lit ": 写入 DB 失败: ") :: e.text] }
    | .skipped reason => { state.1 with skipped := state.1.skipped ++ [(ifname, reason)] }
  let missing := match candidate with
    | .ibgp .. => outcome.written && (lookupBabel ifname babel).isNone
    | .bgp .. => false
  (result, if missing then state.2 ++ [ifname] else state.2)

/-- One round of the loop. -/
def scanOne (files : ScanFiles) (config : AppConfig) (state : ScanState) (ifname : Str) :
    DbTx ScanState :=
  let (warnings, reading) := readCandidate files config ifname
  let state : ScanState := ({ state.1 with warnings := state.1.warnings ++ warnings }, state.2)
  match reading with
  | .error reason =>
      pure ({ state.1 with skipped := state.1.skipped ++ [(ifname, reason)] }, state.2)
  | .ok candidate => do
      let outcome ← importCandidate now nodeId wg babel ifname candidate
      pure (noteOutcome babel ifname candidate outcome state)

end Import

/-- The two warnings at the end. -/
def finalWarnings (state : ScanState) : List Msg :=
  (if state.1.conflicts.isEmpty then [] else
    [[.text (lit "存在冲突（DB 已有记录）：默认已跳过。可先使用 'dn42ctl del peer ...' 删除后再 scan。")]]) ++
  if state.2.isEmpty then [] else
    [[.text (lit "babel.conf 未提供部分接口的 rxcost："),
      .text ((lit ", ").intercalate (state.2.take 8)),
      .text (if state.2.length ≤ 8 then []
        else lit " ... (+" ++ ofInt ((state.2.length - 8 : Nat) : Int) ++ lit ")"),
      .text (lit "；已使用默认值 "), .text (ofInt babelDefaultRxcost)]]

def scanLoop (step : ScanState → Str → DbTx ScanState) : ScanState → List Str → DbTx ScanState
  | state, [] => pure state
  | state, ifname :: ifnames => do
      let state ← step state ifname
      scanLoop step state ifnames

/-- `scan_local_configs`; `wg` is `none` when the command is not installed. -/
def scanLocalConfigs (isWord : Nat → Bool) (now : Str) (wg : Option WgCommand) (files : ScanFiles)
    (config : AppConfig) : DbTx ScanResult :=
  match wg with
  | none => failWith "scan 需要 'wg' 命令以从私钥推导公钥，请先安装 wireguard-tools"
  | some wg => do
      let (babel, babelWarnings) := readBabel isWord files config
      let dirWarnings := [lit ".netdev", lit ".network"].flatMap fun _ =>
        (networkdDirs config).flatMap fun d => dirWarning d (files.dir d)
      ensureNode config.nodeId
      let state ← scanLoop (scanOne now config.nodeId wg babel files config)
        ({ warnings := babelWarnings ++ dirWarnings }, []) (candidates files config)
      pure { state.1 with warnings := state.1.warnings ++ finalWarnings state }

end Dn42Ctl
