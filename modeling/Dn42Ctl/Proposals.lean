import Dn42Ctl.DesiredState
import Dn42Ctl.Peers

/-!
# Proposals

`services/proposals.py`, `services/proposal_decisions.py`,
`services/reports.py` and `services/report_import.py`: what a node submits, and
what becomes of it.  A program here opens a connection for each of its reads and
writes, so the database may change between any two of them.
-/

namespace Dn42Ctl

open Text Txn

/-- A program of the service layer. -/
abbrev Service (α : Type) := Prog Db (Exc PyError) α

def raiseError {α : Type} (e : PyError) : Service α := Prog.raise (.raised e)

def liftCheck {α : Type} (r : Except PyError α) : Service α := Prog.lift (r.mapError Exc.raised)

/-! ## applying a proposal -/

/-- `_require_peer_kind`: `true` for `ibgp`.  The membership test hashes the
value, which a list or an object cannot be. -/
def requirePeerKind (payload : JsonObject) : Except PyError Bool :=
  match (Json.lookup (lit "peer_kind") payload).getD .null with
  | .list _ => throw ⟨.typeError, [.text (lit "unhashable type: 'list'")]⟩
  | .dict _ => throw ⟨.typeError, [.text (lit "unhashable type: 'dict'")]⟩
  | .str s =>
      if s = lit "bgp" then pure false
      else if s = lit "ibgp" then pure true
      else throw (dn42CtlError [.text (lit "payload.peer_kind 必须是 'bgp' 或 'ibgp', 收到 "),
        .repr (.str s)])
  | v => throw (dn42CtlError [.text (lit "payload.peer_kind 必须是 'bgp' 或 'ibgp', 收到 "), .repr v])

/-- `_require_peer`. -/
def requirePeer (payload : JsonObject) (field : String) : Except PyError JsonObject :=
  match Json.lookup (lit field) payload with
  | some (.dict peer) => pure peer
  | _ => throw (dn42CtlError [.text (lit "payload."), .text (lit field),
      .text (lit " 缺失或不是对象")])

/-- The arguments of `create_bgp_peer` and `modify_bgp_peer` for a payload. -/
def BgpPeerPayload.toArgs (p : BgpPeerPayload) (target : Str) : BgpPeerArgs :=
  { peerAsn := p.peerAsn, peerPublicKey := p.peerPublicKey, endpoint := p.endpoint,
    peerLla := p.peerLla, netBackend := p.netBackend, listenPort := p.listenPort,
    nodeId := some target }

def IbgpPeerPayload.toArgs (p : IbgpPeerPayload) (target : Str) : IbgpPeerArgs :=
  { name := p.name, peerIp := p.peerIp, hasWg := p.hasWg, peerPublicKey := p.peerPublicKey,
    endpoint := some p.endpoint, peerLla := p.peerLla, netBackend := some p.netBackend,
    babelRxcost := p.babelRxcost, babelType := p.babelType, listenPort := p.listenPort,
    nodeId := some target }

def IbgpPeerPayload.toModifyArgs (p : IbgpPeerPayload) (target : Str) : IbgpModifyArgs :=
  { name := p.name, peerPublicKey := orDefault p.peerPublicKey [], endpoint := p.endpoint,
    peerLla := orDefault p.peerLla [], netBackend := p.netBackend, babelRxcost := p.babelRxcost,
    babelType := p.babelType, peerIp := p.peerIp, listenPort := p.listenPort,
    nodeId := some target }

section Apply

variable (env : PeerEnv) (configNodeId : Str)

def applyPeerAdd (target : Str) (payload : JsonObject) : Service Unit := do
  let ibgp ← liftCheck (requirePeerKind payload)
  let peer ← liftCheck (requirePeer payload "peer")
  if ibgp then do
    let parsed ← liftCheck (parseIbgpPeer peer)
    let _ ← onConnection (createIbgpPeer env configNodeId (parsed.toArgs target))
  else do
    let parsed ← liftCheck (parseBgpPeer peer)
    let _ ← onConnection (createBgpPeer env configNodeId (parsed.toArgs target))

/-- A modification is always checked as one of a tunnel. -/
def applyPeerModify (target : Str) (payload : JsonObject) : Service Unit := do
  let ibgp ← liftCheck (requirePeerKind payload)
  let peer ← liftCheck (requirePeer payload "peer")
  if ibgp then do
    let parsed ← liftCheck (parseIbgpPeer peer (some true))
    let _ ← onConnection (modifyIbgpPeer env configNodeId (parsed.toModifyArgs target))
  else do
    let parsed ← liftCheck (parseBgpPeer peer)
    let _ ← onConnection (modifyBgpPeer env configNodeId (parsed.toArgs target))

def applyPeerDelete (target : Str) (payload : JsonObject) : Service Unit := do
  let ibgp ← liftCheck (requirePeerKind payload)
  let key ← liftCheck (requirePeer payload "key")
  if ibgp then do
    let name ← liftCheck (parseIbgpKey key)
    onConnection (deleteIbgpPeer env configNodeId name (some target))
  else do
    let peerAsn ← liftCheck (parseBgpKey key)
    onConnection (deleteBgpPeer env configNodeId peerAsn (some target))

/-- Writes target the proposal's own node. -/
def applyProposal (p : ConfigProposal) : Service Unit :=
  match p.kind with
  | .peerAdd => applyPeerAdd env configNodeId p.nodeId p.payload
  | .peerModify => applyPeerModify env configNodeId p.nodeId p.payload
  | .peerDelete => applyPeerDelete env configNodeId p.nodeId p.payload

/-! ## decisions -/

/-- Read a proposal and require that it is pending. -/
def requirePending (id : Nat) (verb : String) : DbTx ConfigProposal := do
  match ← ProposalStore.get id with
  | none => fail (dn42CtlError [.text (lit "proposal 不存在: "), .text (ofInt id)])
  | some p =>
      if p.status = .pending then pure p
      else fail (dn42CtlError [.text (lit "proposal #"), .text (ofInt id),
        .text (lit " 当前状态为 "), .text p.status.text, .text (lit ", 无法"), .text (lit verb)])

def acceptProposal (id : Nat) : Service ConfigProposal := do
  let p ← onConnection (requirePending id "接受")
  applyProposal env configNodeId p
  onConnection (ProposalStore.setStatus env.now id .accepted)

def rejectProposal (now : Str) (id : Nat) (reason : Str) : Service ConfigProposal :=
  if (strip reason).isEmpty then
    raiseError (dn42CtlError [.text (lit "reject 必须提供 reason")])
  else
    onConnection do
      let _ ← requirePending id "拒绝"
      ProposalStore.setStatus now id .rejected (some [.text reason])

/-- The message of a proposal that could not be applied. -/
def autoRejectMessage (e : PyError) : Msg := .text (lit "auto_accept 校验失败: ") :: e.text

/-- Only `peer_add` honours the policy. -/
def autoAccepts (p : ConfigProposal) (policy : WritePolicy) : Bool :=
  p.status = .pending && p.kind = .peerAdd && policy.peerAdd = .autoAccept

/-- Whether an exception is a `Dn42CtlError`. -/
def serviceError? : Exc PyError → Option PyError
  | .raised e => if e.cls = .dn42CtlError then some e else none
  | _ => none

def tryAutoAccept (p : ConfigProposal) (policy : WritePolicy) : Service ConfigProposal :=
  if autoAccepts p policy then do
    let failed ← Prog.catching (applyProposal env configNodeId p >>= fun _ => pure none) fun e =>
      match serviceError? e with
      | some err => pure (some err)
      | none => Prog.raise e
    match failed with
    | some err =>
        onConnection (ProposalStore.setStatus env.now p.id .rejected (some (autoRejectMessage err)))
    | none => onConnection (ProposalStore.setStatus env.now p.id .accepted)
  else pure p

end Apply

/-! ## submissions -/

/-- The first connection of `submit_proposal`: the new proposal and the policy of
the node it is for. -/
def storeProposal (now nodeId source kind : Str) (payload : JsonObject) :
    DbTx (ConfigProposal × WritePolicy) := do
  match ← ManagedNodeStore.get nodeId with
  | none => fail (dn42CtlError [.text (lit "managed node 不存在: "), .text nodeId])
  | some node => do
      let p ← ProposalStore.add now nodeId source kind payload
      pure (p, node.writePolicy)

def submitProposal (env : PeerEnv) (nodeId source kind : Str) (payload : Json)
    (config : Option Str) : Service ConfigProposal := do
  match ProposalKind.ofText kind, ProposalSource.ofText source, payload with
  | none, _, _ =>
      raiseError (dn42CtlError [.text (lit "非法 kind: "), .text kind,
        .text (lit " (允许: ['peer_add', 'peer_delete', 'peer_modify'])")])
  | some _, none, _ => raiseError (dn42CtlError [.text (lit "非法 source: "), .text source])
  | some _, some _, .dict payload => do
      let submitted ← onConnection (storeProposal env.now nodeId source kind payload)
      match config with
      | none => pure submitted.1
      | some configNodeId => tryAutoAccept env configNodeId submitted.1 submitted.2
  | some _, some _, _ => raiseError (dn42CtlError [.text (lit "payload 必须是对象")])

def submitReport (now nodeId kind : Str) (payload : Json) : Service NodeReport := do
  match ReportKind.ofText kind, payload with
  | none, _ =>
      raiseError (dn42CtlError [.text (lit "非法 report kind: "), .text kind,
        .text (lit " (允许: ['apply_result', 'error', 'live_status', 'scan_result'])")])
  | some _, .dict payload =>
      onConnection do
        match ← ManagedNodeStore.get nodeId with
        | none => fail (dn42CtlError [.text (lit "managed node 不存在: "), .text nodeId])
        | some _ => ReportStore.add now nodeId kind payload
  | some _, _ => raiseError (dn42CtlError [.text (lit "payload 必须是对象")])

/-! ## importing a report -/

structure ImportCounts where
  bgpCreated : Nat := 0
  bgpSkipped : Nat := 0
  ibgpCreated : Nat := 0
  ibgpSkipped : Nat := 0
  malformed : Nat := 0
deriving DecidableEq, Repr

/-- What fails on the two connections of an entry. -/
structure EntryFaults where
  lookup : ConnFault
  create : ConnFault

def EntryFaults.none : EntryFaults := ⟨.none, .none⟩

section Import

variable (env : PeerEnv) (configNodeId target : Str)

/-- `_import_bgp`: whether the peer was created. -/
def importBgpWith (faults : EntryFaults) (peer : JsonObject) : Service Bool := do
  let parsed ← liftCheck (parseBgpPeer peer)
  let existing ← onConnectionWith faults.lookup (Database.getBgpPeer target parsed.peerAsn)
  if existing.isSome then pure false
  else do
    let _ ← onConnectionWith faults.create (createBgpPeer env configNodeId (parsed.toArgs target))
    pure true

/-- `_import_ibgp`: the name is looked up as it was sent. -/
def importIbgpWith (faults : EntryFaults) (peer : JsonObject) : Service Bool := do
  let parsed ← liftCheck (parseIbgpPeer peer)
  let existing ← onConnectionWith faults.lookup (Database.getIbgpPeer target parsed.name)
  if existing.isSome then pure false
  else do
    let _ ← onConnectionWith faults.create (createIbgpPeer env configNodeId (parsed.toArgs target))
    pure true

def importBgp (peer : JsonObject) : Service Bool :=
  importBgpWith env configNodeId target .none peer

def importIbgp (peer : JsonObject) : Service Bool :=
  importIbgpWith env configNodeId target .none peer

/-- `f"{peer.get(key)}"`. -/
def formatField (peer : JsonObject) (key : String) : Fragment :=
  match Json.lookup (lit key) peer with
  | some (.str s) => .text s
  | v => .repr (v.getD .null)

/-- `except Dn42CtlError as exc: raise Dn42CtlError(f"{what} ({…}): {exc}")`. -/
def withContext (what key : String) (peer : JsonObject) (m : Service Bool) : Service Bool :=
  Prog.catching m fun e =>
    match serviceError? e with
    | some err => raiseError (dn42CtlError
        ([.text (lit what), .text (lit " ("), formatField peer key, .text (lit "): ")] ++ err.text))
    | none => Prog.raise e

/-- The loop over one list of peers; `i` numbers the entries, each of which is
created in an environment of its own. -/
def importPeers (one : Nat → JsonObject → Service Bool)
    (count : Option Bool → ImportCounts → ImportCounts) :
    Nat → List Json → ImportCounts → Service ImportCounts
  | _, [], counts => pure counts
  | i, .dict peer :: peers, counts => do
      let created ← one i peer
      importPeers one count (i + 1) peers (count (some created) counts)
  | i, _ :: peers, counts => importPeers one count (i + 1) peers (count none counts)

def countBgp : Option Bool → ImportCounts → ImportCounts
  | none, c => { c with malformed := c.malformed + 1 }
  | some true, c => { c with bgpCreated := c.bgpCreated + 1 }
  | some false, c => { c with bgpSkipped := c.bgpSkipped + 1 }

def countIbgp : Option Bool → ImportCounts → ImportCounts
  | none, c => { c with malformed := c.malformed + 1 }
  | some true, c => { c with ibgpCreated := c.ibgpCreated + 1 }
  | some false, c => { c with ibgpSkipped := c.ibgpSkipped + 1 }

end Import

/-- The two lists of a `scan_result`. -/
def reportPeers (payload : JsonObject) : Except PyError (List Json × List Json) :=
  match Json.getD (lit "bgp_peers") payload (.list []),
    Json.getD (lit "ibgp_peers") payload (.list []) with
  | .list bgp, .list ibgp => pure (bgp, ibgp)
  | _, _ => throw (dn42CtlError
      [.text (lit "scan_result payload 必须含 bgp_peers / ibgp_peers 数组")])

/-- Read a report and require that it can be imported. -/
def requireImportable (id : Nat) : DbTx NodeReport := do
  match ← ReportStore.get id with
  | none => fail (dn42CtlError [.text (lit "report 不存在: "), .text (ofInt id)])
  | some r =>
      if r.kind ≠ .scanResult then
        fail (dn42CtlError [.text (lit "只能导入 kind=scan_result 的 report (当前 #"),
          .text (ofInt id), .text (lit " kind="), .text r.kind.text, .text (lit ")")])
      else
        match r.importedAt with
        | some at_ =>
            fail (dn42CtlError [.text (lit "report #"), .text (ofInt id),
              .text (lit " 已被导入过 (imported_at="), .text at_, .text (lit ")")])
        | none => pure r

/-- What fails during an import. -/
structure ImportFaults where
  read : ConnFault
  entry : Nat → EntryFaults
  mark : ConnFault

def ImportFaults.none : ImportFaults := ⟨.none, fun _ => .none, .none⟩

/-- `import_report`. -/
def importReportWith (faults : ImportFaults) (env : Nat → PeerEnv) (now configNodeId : Str)
    (id : Nat) : Service ImportCounts := do
  let report ← onConnectionWith faults.read (requireImportable id)
  let peers ← liftCheck (reportPeers report.payload)
  let counts ← importPeers (fun i peer => withContext "导入 BGP peer 失败" "peer_asn" peer
    (importBgpWith (env i) configNodeId report.nodeId (faults.entry i) peer)) countBgp 0 peers.1 {}
  let counts ← importPeers (fun i peer => withContext "导入 iBGP peer 失败" "name" peer
    (importIbgpWith (env i) configNodeId report.nodeId (faults.entry i) peer)) countIbgp
      peers.1.length peers.2 counts
  let _ ← onConnectionWith faults.mark (ReportStore.markImported now id)
  pure counts

def importReport (env : Nat → PeerEnv) (now configNodeId : Str) (id : Nat) :
    Service ImportCounts :=
  importReportWith .none env now configNodeId id

/-! ## a payload -/

/-- A new BGP peer, as a node sends it. -/
def sampleBgpPeer : JsonObject :=
  [(lit "peer_asn", .int 4242420001),
    (lit "peer_public_key", .str (lit "AAAAAAAAAAAAAAAAAAAAAAAAAAAAAAAAAAAAAAAAAAA=")),
    (lit "endpoint", .str (lit "peer.example.net:20001")), (lit "peer_lla", .str (lit "fe80::1"))]

def samplePayload : JsonObject :=
  [(lit "peer_kind", .str (lit "bgp")), (lit "peer", .dict sampleBgpPeer)]

def sampleEnv (now : Str) : PeerEnv :=
  { now, wgKeypair := .ok (lit "private", lit "public"), draw := fun i => i }

end Dn42Ctl
