import Dn42Ctl.Schema

/-!
# Database

`dn42ctl/db.py`: the change-notification queue's write side and the CRUD of
`Database`.  Every mutator is a program over one connection, statement by
statement as the source runs it: `Txn.guarded` is the source's
`try … except sqlite3.Error: rollback; raise DatabaseError`, and `Txn.abort`
its explicit `rollback` before a `raise` of its own.

The clock is an argument: a call reads it once.  Timestamps and ids that come
from the database always fit a statement and are left out of its `params`.
-/

namespace Dn42Ctl

open Text Txn

/-! ## constants -/

def syncEventsKeep : Nat := 1000

def syncEventsTrimEvery : Nat := 256

/-- A keyword argument that may be left out: `UNSET` or a value. -/
inductive Patch (α : Type) where
  | unset
  | set (v : α)
deriving DecidableEq, Repr

/-- The value to store: the argument if it was given. -/
def Patch.getD {α : Type} (p : Patch α) (old : α) : α :=
  match p with
  | .unset => old
  | .set v => v

def Patch.isSet {α : Type} : Patch α → Bool
  | .unset => false
  | .set _ => true

/-! ## statements -/

/-- `INSERT INTO sync_events`; the new row's id. -/
def Db.insertSyncEvent (nodeId : Str) (kind : SyncKind) (now : Str) (db : Db) : Nat × Db :=
  let event : SyncEvent := ⟨db.syncSeq + 1, nodeId, kind, now⟩
  (db.syncSeq + 1, { db with
    syncEvents := db.syncEvents ++ [event], syncSeq := db.syncSeq + 1,
    syncLog := db.syncLog ++ [event] })

/-- `DELETE FROM sync_events WHERE id <= bound`. -/
def Db.trimSyncEvents (bound : Int) (db : Db) : Db :=
  { db with
    syncEvents := Rows.deleteWhere (fun e => decide ((e.id : Int) ≤ bound)) db.syncEvents }

/-- `INSERT INTO nodes … ON CONFLICT(node_id) DO UPDATE SET updated_at`. -/
def Db.upsertNode (nodeId : Str) (db : Db) : Db :=
  if db.nodes.contains nodeId then db else { db with nodes := db.nodes ++ [nodeId] }

theorem contains_upsertNode {n : Str} {db : Db} : (db.upsertNode n).nodes.contains n = true := by
  rw [Db.upsertNode]
  split
  · assumption
  · simp

/-- `INSERT INTO bgp_peers`, with its constraints: `UNIQUE(node_id, peer_asn)`,
`UNIQUE(node_id, ifname)` and the foreign key to `nodes`. -/
def Db.insertBgpRow (row : BgpRow) (db : Db) : Except SqlError (Unit × Db) :=
  if db.bgpPeers.any fun r =>
      r.nodeId == row.nodeId && (r.peerAsn == row.peerAsn || r.ifname == row.ifname) then
    .error .integrity
  else if !db.nodes.contains row.nodeId then .error .integrity
  else .ok ((), { db with bgpPeers := db.bgpPeers ++ [row] })

/-- `INSERT INTO ibgp_peers`, with `UNIQUE(node_id, name)`,
`UNIQUE(node_id, ifname)` and the foreign key to `nodes`. -/
def Db.insertIbgpRow (row : IbgpRow) (db : Db) : Except SqlError (Unit × Db) :=
  if db.ibgpPeers.any fun r =>
      r.nodeId == row.nodeId && (r.name == row.name || r.ifname == row.ifname) then
    .error .integrity
  else if !db.nodes.contains row.nodeId then .error .integrity
  else .ok ((), { db with ibgpPeers := db.ibgpPeers ++ [row] })

/-- `WHERE node_id=? AND peer_asn=?`. -/
def BgpRow.is (nodeId : Str) (peerAsn : Int) (r : BgpRow) : Bool :=
  r.nodeId == nodeId && r.peerAsn == peerAsn

/-- `WHERE node_id=? AND name=?`. -/
def IbgpRow.is (nodeId name : Str) (r : IbgpRow) : Bool :=
  r.nodeId == nodeId && r.name == name

/-- `UPDATE bgp_peers SET … WHERE node_id=? AND peer_asn=?`; the row count. -/
def Db.updateBgpRows (nodeId : Str) (peerAsn : Int) (f : BgpRow → BgpRow) (db : Db) : Nat × Db :=
  (db.bgpPeers.countP (BgpRow.is nodeId peerAsn),
    { db with bgpPeers := Rows.updateWhere (BgpRow.is nodeId peerAsn) f db.bgpPeers })

/-- `UPDATE ibgp_peers SET … WHERE node_id=? AND name=?`; the row count. -/
def Db.updateIbgpRows (nodeId name : Str) (f : IbgpRow → IbgpRow) (db : Db) : Nat × Db :=
  (db.ibgpPeers.countP (IbgpRow.is nodeId name),
    { db with ibgpPeers := Rows.updateWhere (IbgpRow.is nodeId name) f db.ibgpPeers })

/-! ## selections -/

def Db.getBgpPeer (nodeId : Str) (peerAsn : Int) (db : Db) : Option BgpRow :=
  db.bgpPeers.find? (BgpRow.is nodeId peerAsn)

def Db.getIbgpPeer (nodeId name : Str) (db : Db) : Option IbgpRow :=
  db.ibgpPeers.find? (IbgpRow.is nodeId name)

/-- The rows of a node's partition. -/
def Db.bgpRowsOf (nodeId : Str) (db : Db) : List BgpRow :=
  db.bgpPeers.filter fun r => r.nodeId == nodeId

def Db.ibgpRowsOf (nodeId : Str) (db : Db) : List IbgpRow :=
  db.ibgpPeers.filter fun r => r.nodeId == nodeId

/-- `… WHERE node_id=? ORDER BY peer_asn`. -/
def Db.listBgpPeers (nodeId : Str) (db : Db) : List BgpRow :=
  (db.bgpRowsOf nodeId).insertionSort fun a b => a.peerAsn ≤ b.peerAsn

/-- `… WHERE node_id=? ORDER BY name`. -/
def Db.listIbgpPeers (nodeId : Str) (db : Db) : List IbgpRow :=
  (db.ibgpRowsOf nodeId).insertionSort fun a b => a.name ≤ b.name

/-- `… WHERE remote_node_id=? ORDER BY node_id, name`. -/
def Db.listIbgpPeersByRemote (remoteNodeId : Str) (db : Db) : List IbgpRow :=
  (db.ibgpPeers.filter fun r => r.remoteNodeId == some remoteNodeId).insertionSort fun a b =>
    a.nodeId < b.nodeId ∨ a.nodeId = b.nodeId ∧ a.name ≤ b.name

/-! ## `emit_sync_event` -/

/-- Append a change notification inside the caller's transaction.  Every
`syncEventsTrimEvery` rows everything older than the newest `syncEventsKeep`
is dropped. -/
def emitSyncEvent (now : Str) (nodeId : Str) (kind : SyncKind := .desired) : DbTx Unit := do
  let newId ← execute (params [.text nodeId]) fun db =>
    .ok (db.insertSyncEvent nodeId kind now)
  if newId % syncEventsTrimEvery = 0 then
    modify none (Db.trimSyncEvents ((newId : Int) - (syncEventsKeep : Int)))

/-! ## `class Database` -/

namespace Database

def ensureNode (nodeId : Str) : DbTx Unit :=
  guarded (fun _ => databaseError "Failed to upsert node") do
    modify (params [.text nodeId]) (Db.upsertNode nodeId)
    commit

def getBgpPeer (nodeId : Str) (peerAsn : Int) : DbTx (Option BgpRow) :=
  queryOr (databaseError "Failed to query BGP peer") (params [.text nodeId, .int peerAsn])
    (Db.getBgpPeer nodeId peerAsn)

def getIbgpPeer (nodeId name : Str) : DbTx (Option IbgpRow) :=
  queryOr (databaseError "Failed to query iBGP peer") (params [.text nodeId, .text name])
    (Db.getIbgpPeer nodeId name)

def listBgpPeers (nodeId : Str) : DbTx (List BgpRow) :=
  queryOr (databaseError "Failed to list BGP peers") (params [.text nodeId])
    (Db.listBgpPeers nodeId)

def listIbgpPeers (nodeId : Str) : DbTx (List IbgpRow) :=
  queryOr (databaseError "Failed to list iBGP peers") (params [.text nodeId])
    (Db.listIbgpPeers nodeId)

def listIbgpPeersByRemote (remoteNodeId : Str) : DbTx (List IbgpRow) :=
  queryOr (databaseError "Failed to list iBGP peers by remote node") (params [.text remoteNodeId])
    (Db.listIbgpPeersByRemote remoteNodeId)

/-- The parameters of the columns both kinds of peer have, in the order of the
`INSERT`s. -/
def baseParams (r : PeerRecordBase) : List Param :=
  [.text r.ifname, .text r.wgPrivateKey, .text r.wgPublicKey, .ofOption r.peerPublicKey,
    .ofOption r.endpoint, .text r.localLla, .ofOption r.peerLla, .int r.listenPort,
    .json (.list (r.allowedIps.map .str)), .text r.netBackend]

/-- An `INSERT` tells a constraint violation from the driver's other errors. -/
def insertError (duplicate failed : PyError) : SqlError → PyError
  | .integrity => duplicate
  | .operational => failed

def insertBgpPeer (now : Str) (record : BgpPeerRecord) : DbTx Unit :=
  guarded (insertError (databaseError "BGP peer already exists")
      (databaseError "Failed to insert BGP peer")) do
    execute (params ([.text record.nodeId, .int record.peerAsn] ++
        baseParams record.toPeerRecordBase))
      (Db.insertBgpRow { record with createdAt := now, updatedAt := now })
    emitSyncEvent now record.nodeId
    commit

/-- After an `UPDATE`: a row count of zero is told from a missing row by looking
the row up. -/
def requireMatched {ρ : Type} (rowcount : Nat) (lookup : DbTx (Option ρ)) (missing : PyError) :
    DbTx Unit :=
  if rowcount = 0 then do
    let found ← lookup
    abortIf found.isNone missing
  else pure ()

/-- The columns `update_bgp_peer` writes. -/
structure BgpUpdate where
  peerPublicKey : Option Str
  endpoint : Option Str
  peerLla : Option Str
  listenPort : Int
  allowedIps : List Str
  netBackend : Str
deriving DecidableEq, Repr

def BgpUpdate.apply (u : BgpUpdate) (now : Str) (r : BgpRow) : BgpRow :=
  { r with
    peerPublicKey := u.peerPublicKey, endpoint := u.endpoint, peerLla := u.peerLla,
    listenPort := u.listenPort, allowedIps := u.allowedIps, netBackend := u.netBackend,
    updatedAt := now }

def BgpUpdate.params (u : BgpUpdate) : List Param :=
  [.ofOption u.peerPublicKey, .ofOption u.endpoint, .ofOption u.peerLla, .int u.listenPort,
    .json (.list (u.allowedIps.map .str)), .text u.netBackend]

def updateBgpPeer (now nodeId : Str) (peerAsn : Int) (u : BgpUpdate) : DbTx Unit :=
  guarded (fun _ => databaseError "Failed to update BGP peer") do
    let rowcount ← execute
      (Dn42Ctl.params (u.params ++ [.text nodeId, .int peerAsn]))
      fun db => .ok (db.updateBgpRows nodeId peerAsn (u.apply now))
    requireMatched rowcount
      (query (Dn42Ctl.params [.text nodeId, .int peerAsn]) (Db.getBgpPeer nodeId peerAsn))
      (databaseError "BGP peer not found")
    emitSyncEvent now nodeId
    commit

def insertIbgpPeer (now : Str) (record : IbgpPeerRecord) : DbTx Unit :=
  guarded (insertError (databaseError "iBGP peer already exists")
      (databaseError "Failed to insert iBGP peer")) do
    execute (params ([.text record.nodeId, .text record.name] ++
        baseParams record.toPeerRecordBase ++
        [.int record.babelRxcost, .ofOption record.peerIp, .text record.babelType,
          .ofOption record.remoteNodeId]))
      (Db.insertIbgpRow { record with createdAt := now, updatedAt := now })
    emitSyncEvent now record.nodeId
    commit

/-- The columns `update_ibgp_peer` writes; `remote_node_id` only when given. -/
structure IbgpUpdate where
  peerPublicKey : Option Str
  endpoint : Option Str
  peerLla : Option Str
  listenPort : Int
  allowedIps : List Str
  netBackend : Str
  babelRxcost : Int
  peerIp : Option Str
  babelType : Str
  remoteNodeId : Patch (Option Str) := .unset
deriving DecidableEq, Repr

def IbgpUpdate.apply (u : IbgpUpdate) (now : Str) (r : IbgpRow) : IbgpRow :=
  { r with
    peerPublicKey := u.peerPublicKey, endpoint := u.endpoint, peerLla := u.peerLla,
    listenPort := u.listenPort, allowedIps := u.allowedIps, netBackend := u.netBackend,
    babelRxcost := u.babelRxcost, peerIp := u.peerIp, babelType := u.babelType,
    remoteNodeId := u.remoteNodeId.getD r.remoteNodeId, updatedAt := now }

def IbgpUpdate.params (u : IbgpUpdate) : List Param :=
  [.ofOption u.peerPublicKey, .ofOption u.endpoint, .ofOption u.peerLla, .int u.listenPort,
    .json (.list (u.allowedIps.map .str)), .text u.netBackend, .int u.babelRxcost,
    .ofOption u.peerIp, .text u.babelType] ++
  match u.remoteNodeId with
  | .unset => []
  | .set v => [.ofOption v]

def updateIbgpPeer (now nodeId name : Str) (u : IbgpUpdate) : DbTx Unit :=
  guarded (fun _ => databaseError "Failed to update iBGP peer") do
    let rowcount ← execute
      (Dn42Ctl.params (u.params ++ [.text nodeId, .text name]))
      fun db => .ok (db.updateIbgpRows nodeId name (u.apply now))
    requireMatched rowcount
      (query (Dn42Ctl.params [.text nodeId, .text name]) (Db.getIbgpPeer nodeId name))
      (databaseError "iBGP peer not found")
    emitSyncEvent now nodeId
    commit

/-- `_delete_peer`: look the row up, delete it and announce the change.  The
lookup raises a `DatabaseError` of its own, which the handler lets pass. -/
def deletePeer {ρ : Type} (get : DbTx (Option ρ)) (bind : Option BindError) (delete : Db → Db)
    (failed : PyError) (now nodeId : Str) : DbTx (Option ρ) := do
  match ← get with
  | none => pure none
  | some row =>
      guarded (fun _ => failed) do
        modify bind delete
        emitSyncEvent now nodeId
        commit
        pure (some row)

def deleteBgpPeer (now nodeId : Str) (peerAsn : Int) : DbTx (Option BgpRow) :=
  deletePeer (getBgpPeer nodeId peerAsn) (params [.text nodeId, .int peerAsn])
    (fun db => { db with bgpPeers := Rows.deleteWhere (BgpRow.is nodeId peerAsn) db.bgpPeers })
    (databaseError "Failed to delete BGP peer") now nodeId

def deleteIbgpPeer (now nodeId name : Str) : DbTx (Option IbgpRow) :=
  deletePeer (getIbgpPeer nodeId name) (params [.text nodeId, .text name])
    (fun db => { db with ibgpPeers := Rows.deleteWhere (IbgpRow.is nodeId name) db.ibgpPeers })
    (databaseError "Failed to delete iBGP peer") now nodeId

/-- The ports of both tables. -/
def getUsedListenPorts (nodeId : Str) : DbTx (List Int) := do
  let failed := databaseError "Failed to query listen ports"
  let bgp ← queryOr failed (params [.text nodeId]) fun db =>
    (db.bgpRowsOf nodeId).map fun r => r.listenPort
  let ibgp ← queryOr failed (params [.text nodeId]) fun db =>
    (db.ibgpRowsOf nodeId).map fun r => r.listenPort
  pure (bgp ++ ibgp)

end Database

end Dn42Ctl
