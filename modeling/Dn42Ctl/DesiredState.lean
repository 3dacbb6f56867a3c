import Dn42Ctl.DbManaged

/-!
# DesiredState

`services/desired_state.py`: what a node is told to run, its content digest,
the read-only fingerprint and the build that records revisions.

`digest` stands for the first eight hex digits of SHA-256 over the canonical
JSON of a content.  `compute_content_digest` and `_compute_revision` hash the
same canonical object, so both are this one function.
-/

namespace Dn42Ctl

open Text Txn

/-! ## content -/

/-- `_node_block`: the non-empty address columns. -/
def nodeBlock (row : Option ManagedNode) : NodeBlock :=
  match row with
  | none => {}
  | some n =>
      { ownIpv6 := n.ownIpv6.filter fun s => !s.isEmpty
        routerId := n.routerId.filter fun s => !s.isEmpty }

def bgpRowToDict (r : BgpRow) : BgpPeerDesired :=
  { peerAsn := r.peerAsn, ifname := r.ifname, wgPrivateKey := r.wgPrivateKey,
    wgPublicKey := r.wgPublicKey, peerPublicKey := r.peerPublicKey, endpoint := r.endpoint,
    localLla := r.localLla, peerLla := r.peerLla, listenPort := r.listenPort,
    allowedIps := r.allowedIps, netBackend := r.netBackend }

def ibgpRowToDict (r : IbgpRow) : IbgpPeerDesired :=
  { name := r.name, ifname := r.ifname, wgPrivateKey := r.wgPrivateKey,
    wgPublicKey := r.wgPublicKey, peerPublicKey := r.peerPublicKey, endpoint := r.endpoint,
    localLla := r.localLla, peerLla := r.peerLla, peerIp := r.peerIp, hasWg := r.hasWg,
    listenPort := r.listenPort, allowedIps := r.allowedIps, netBackend := r.netBackend,
    babelRxcost := r.babelRxcost, babelType := r.babelType }

/-- The content of the live tables, pins aside. -/
def Db.liveContent (nodeId : Str) (db : Db) : DesiredContent :=
  { nodeId
    bgpPeers := (db.listBgpPeers nodeId).map bgpRowToDict
    ibgpPeers := (db.listIbgpPeers nodeId).map ibgpRowToDict
    node := nodeBlock (db.getNode nodeId) }

/-- The content a node receives: the pinned payload, or the live tables. -/
def Db.desiredContent (nodeId : Str) (db : Db) : DesiredContent :=
  match db.getPin nodeId with
  | some pin => pin.payload.toDesiredContent
  | none => db.liveContent nodeId

/-- Read the live tables, as `build_desired_state` and the fingerprint do. -/
def readLive (nodeId : Str) : DbTx DesiredContent := do
  let bgpRows ← Database.listBgpPeers nodeId
  let ibgpRows ← Database.listIbgpPeers nodeId
  let row ← ManagedNodeStore.get nodeId
  pure
    { nodeId, bgpPeers := bgpRows.map bgpRowToDict, ibgpPeers := ibgpRows.map ibgpRowToDict,
      node := nodeBlock row }

/-! ## revisions -/

/-- Pull the content digest back out of a revision string. -/
def digestOfRevision (revision : Str) : Option Str :=
  match rpartition 45 revision with
  | none => none
  | some (_, digest) => if digest.isEmpty then none else some digest

section Digest

variable (digest : DesiredContent → Str)

/-- `_compute_revision`: `<iso-utc>-<digest>`. -/
def computeRevision (content : DesiredContent) (generatedAt : Str) : Str :=
  generatedAt ++ 45 :: digest content

structure DesiredFingerprint where
  nodeId : Str
  contentHash : Str
  pinnedRevision : Option Str
deriving DecidableEq, Repr

/-- Fingerprint the payload the node would receive, without writing a row. -/
def computeDesiredFingerprint (nodeId : Str) : DbTx DesiredFingerprint := do
  let live ← readLive nodeId
  let pin ← RevisionStore.getPin nodeId
  pure <| match pin with
  | some p => ⟨nodeId, digest p.payload.toDesiredContent, some p.revision⟩
  | none => ⟨nodeId, digest live, none⟩

/-- The newest snapshot, when it has the content being built: its revision and
timestamp are reused, so that the identifier is stable across rebuilds. -/
def reusableSnapshot (nodeId revision generatedAt : Str) : DbTx (Option (Str × Str)) := do
  match ← RevisionStore.latestRevision nodeId with
  | none => pure none
  | some previous =>
      if digestOfRevision previous = digestOfRevision revision then do
        match ← RevisionStore.getStored nodeId previous with
        | some existing => pure (some (existing.revision, existing.generatedAt))
        | none => pure (some (revision, generatedAt))
      else pure none

/-- Record a snapshot and drop the oldest ones. -/
def recordSnapshot (nodeId revision generatedAt : Str) (content : DesiredContent)
    (keepLatest : Int) : DbTx (Str × Str) := do
  let payload : DesiredState := { content with revision, generatedAt }
  let _ ← RevisionStore.record nodeId revision generatedAt payload
  let _ ← RevisionStore.trim nodeId keepLatest
  pure (revision, generatedAt)

/-- The second half of `build_desired_state`, on a connection of its own:
record the snapshot unless the newest one has the same content, and look the
pin up. -/
def recordBuild (nodeId revision generatedAt : Str) (content : DesiredContent) (keepLatest : Int) :
    DbTx ((Str × Str) × Option ConfigRevision) := do
  let reused ← reusableSnapshot nodeId revision generatedAt
  let built ← match reused with
    | some snapshot => pure snapshot
    | none => recordSnapshot nodeId revision generatedAt content keepLatest
  let pin ← RevisionStore.getPin nodeId
  pure (built, pin)

/-- A program on a connection of its own: opened on the database as it is,
closed when the program ends. -/
def onConnection {α : Type} (m : DbTx α) : Prog Db (Exc PyError) α := fun db => eval m db

/-- Which statement of a connection fails, if one does, and whether one fails after
the commit (`Conn.fresh`). -/
structure ConnFault where
  fault : Option Nat
  late : Bool

/-- No statement fails. -/
def ConnFault.none : ConnFault := ⟨Option.none, false⟩

/-- The same program where a statement may fail. -/
def onConnectionWith {α : Type} (f : ConnFault) (m : DbTx α) : Prog Db (Exc PyError) α := fun db =>
  let r := m.run (Conn.fresh db f.fault f.late)
  (r.1, r.2.committed)

theorem onConnectionWith_none {α : Type} (m : DbTx α) :
    onConnectionWith .none m = onConnection m := rfl

/-- `build_desired_state`.  The two halves run on two connections. -/
def buildDesiredState (now nodeId : Str) (recordRevision : Bool := true) (keepLatest : Int := 50) :
    Prog Db (Exc PyError) DesiredState := do
  let content ← onConnection (readLive nodeId)
  let revision := computeRevision digest content now
  if recordRevision then
    let built ← onConnection (recordBuild nodeId revision now content keepLatest)
    match built.2 with
    | some pin => pure pin.payload
    | none => pure { content with revision := built.1.1, generatedAt := built.1.2 }
  else
    pure { content with revision, generatedAt := now }

end Digest

end Dn42Ctl
