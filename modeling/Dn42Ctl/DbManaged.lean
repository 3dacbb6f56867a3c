import Dn42Ctl.Database

/-!
# DbManaged

`dn42ctl/db_managed.py`: the stores of managed nodes, proposals, reports,
revisions and pins, and the read side of `sync_events`.

The source's checks that a column name is one of a fixed set are what the
field types say here, so their error paths do not exist.
-/

namespace Dn42Ctl

open Text Txn

/-! ## write policies -/

/-- The four texts a policy dict holds while it is being merged. -/
structure PolicyTexts where
  peerAdd : Str := lit "review"
  peerModify : Str := lit "review"
  peerDelete : Str := lit "review"
  report : Str := lit "auto"
deriving DecidableEq, Repr

def policyError (s : String) : PyError := ⟨.valueError, [.text (lit s)]⟩

/-- Overwrite one default. -/
def PolicyTexts.merge (m : PolicyTexts) (entry : Str × Str) : Except PyError PolicyTexts :=
  if entry.1 = lit "peer_add" then .ok { m with peerAdd := entry.2 }
  else if entry.1 = lit "peer_modify" then .ok { m with peerModify := entry.2 }
  else if entry.1 = lit "peer_delete" then .ok { m with peerDelete := entry.2 }
  else if entry.1 = lit "report" then .ok { m with report := entry.2 }
  else .error ⟨.valueError, [.text (lit "未知 write_policy 字段: "), .text entry.1]⟩

/-- Check the merged texts, in the source's order. -/
def PolicyTexts.validate (m : PolicyTexts) : Except PyError WritePolicy := do
  let peerAdd ←
    if m.peerAdd = lit "review" then pure PeerAddPolicy.review
    else if m.peerAdd = lit "auto_accept" then pure PeerAddPolicy.autoAccept
    else throw (policyError "peer_add 仅允许 ['auto_accept', 'review']")
  let peerModify ←
    if m.peerModify = lit "review" then pure ReviewPolicy.review
    else throw (policyError "peer_modify 仅允许 'review'(防止节点被入侵后篡改权威记录)")
  let peerDelete ←
    if m.peerDelete = lit "review" then pure ReviewPolicy.review
    else throw (policyError "peer_delete 仅允许 'review'(防止节点被入侵后抹除权威记录)")
  let report ←
    if m.report = lit "review" then pure ReportPolicy.review
    else if m.report = lit "auto" then pure ReportPolicy.auto
    else throw (policyError "report 仅允许 ['auto', 'review']")
  pure ⟨peerAdd, peerModify, peerDelete, report⟩

def validateWritePolicy (policy : List (Str × Str)) : Except PyError WritePolicy := do
  let merged ← policy.foldlM PolicyTexts.merge ({} : PolicyTexts)
  merged.validate

/-! ## tokens -/

section Tokens

-- `sha256` stands for `hashlib.sha256(token.encode("utf-8")).hexdigest()`.
variable (sha256 : Str → Str)

def hashToken (token : Str) : Str := lit "sha256$" ++ sha256 token

def verifyToken (storedHash token : Str) : Bool := storedHash == hashToken sha256 token

end Tokens

/-! ## `class ManagedNodeStore` -/

def Db.getNode (nodeId : Str) (db : Db) : Option ManagedNode :=
  db.managedNodes.find? fun n => n.nodeId == nodeId

/-- `UPDATE managed_nodes SET … WHERE node_id=?`; the row count. -/
def Db.updateNodes (nodeId : Str) (f : ManagedNode → ManagedNode) (db : Db) : Nat × Db :=
  (db.managedNodes.countP fun n => n.nodeId == nodeId,
    { db with managedNodes := Rows.updateWhere (fun n => n.nodeId == nodeId) f db.managedNodes })

/-- `INSERT INTO managed_nodes`, with its primary key, the foreign key to
`nodes` and the partial unique index on `is_self`. -/
def Db.insertNode (node : ManagedNode) (db : Db) : Except SqlError (Unit × Db) :=
  if db.managedNodes.any fun n => n.nodeId == node.nodeId || (n.isSelf && node.isSelf) then
    .error .integrity
  else if !db.nodes.contains node.nodeId then .error .integrity
  else .ok ((), { db with managedNodes := db.managedNodes ++ [node] })

/-- `UPDATE managed_nodes SET is_self=0 … WHERE is_self=1 AND node_id<>?`. -/
def Db.demoteSelf (now nodeId : Str) (db : Db) : Db :=
  { db with
    managedNodes := Rows.updateWhere (fun n => n.isSelf && n.nodeId != nodeId)
      (fun n => { n with isSelf := false, updatedAt := now }) db.managedNodes }

/-- `INSERT INTO managed_nodes … ON CONFLICT(node_id) DO UPDATE SET is_self=1,
enabled=1, updated_at`. -/
def Db.upsertSelfRow (node : ManagedNode) (db : Db) : Except SqlError (Unit × Db) :=
  if db.managedNodes.any fun n => n.nodeId == node.nodeId then
    if db.managedNodes.any fun n => n.isSelf && n.nodeId != node.nodeId then .error .integrity
    else .ok ((), (db.updateNodes node.nodeId fun n =>
      { n with isSelf := true, enabled := true, updatedAt := node.updatedAt }).2)
  else db.insertNode node

/-- A `PropagatedChange`: a cell of an `ibgp_peers` row to rewrite because the
node it points at changed its address. -/
inductive PropagatedField where
  | peerIp
  | endpoint
deriving DecidableEq, Repr

structure PropagatedChange where
  nodeId : Str
  name : Str
  field : PropagatedField
  old : Option Str
  new : Str
deriving DecidableEq, Repr

def PropagatedChange.apply (c : PropagatedChange) (now : Str) (r : IbgpRow) : IbgpRow :=
  match c.field with
  | .peerIp => { r with peerIp := some c.new, updatedAt := now }
  | .endpoint => { r with endpoint := some c.new, updatedAt := now }

/-- The columns `_update_fields` may write. -/
structure NodeFields where
  name : Patch Str := .unset
  enabled : Patch Bool := .unset
  autoPeer : Patch Bool := .unset
  endpointHost : Patch (Option Str) := .unset
  ownIpv6 : Patch (Option Str) := .unset
  routerId : Patch (Option Str) := .unset
deriving DecidableEq, Repr

def NodeFields.apply (f : NodeFields) (now : Str) (n : ManagedNode) : ManagedNode :=
  { n with
    name := f.name.getD n.name, enabled := f.enabled.getD n.enabled,
    autoPeer := f.autoPeer.getD n.autoPeer, endpointHost := f.endpointHost.getD n.endpointHost,
    ownIpv6 := f.ownIpv6.getD n.ownIpv6, routerId := f.routerId.getD n.routerId,
    updatedAt := now }

def Patch.optionParam : Patch (Option Str) → List Param
  | .unset => []
  | .set v => [.ofOption v]

/-- The parameters of the assignments: `_address_fields` first, then the name;
the flags are small integers and always fit. -/
def NodeFields.params (f : NodeFields) : List Param :=
  f.endpointHost.optionParam ++ f.ownIpv6.optionParam ++ f.routerId.optionParam ++
  match f.name with
  | .unset => []
  | .set v => [.text v]

/-- `own_ipv6` or `router_id` is written, so the node's own block may change. -/
def NodeFields.touchesBlock (f : NodeFields) : Bool := f.ownIpv6.isSet || f.routerId.isSet

namespace ManagedNodeStore

def get (nodeId : Str) : DbTx (Option ManagedNode) :=
  queryOr (databaseError "查询 managed_node 失败") (params [.text nodeId]) (Db.getNode nodeId)

/-- A new row as `add` and `upsert_self` insert it. -/
def newNode (now nodeId name : Str) (isSelf : Bool) : ManagedNode :=
  { nodeId, name, apiTokenHash := none, writePolicy := defaultWritePolicy, enabled := true, isSelf,
    lastSeenAt := none, createdAt := now, updatedAt := now }

def add (now nodeId name : Str) : DbTx ManagedNode := do
  guarded (Database.insertError (databaseErrorOf "节点已存在: " nodeId)
      (databaseError "插入 managed_node 失败")) do
    modify (params [.text nodeId]) (Db.upsertNode nodeId)
    execute (params [.text nodeId, .text name]) (Db.insertNode (newNode now nodeId name false))
    commit
  readBack (databaseError "查询 managed_node 失败") (databaseError "插入后无法读取 managed_node")
    (params [.text nodeId]) (Db.getNode nodeId)

/-- `ORDER BY is_self DESC, name`. -/
def orderNodes (nodes : List ManagedNode) : List ManagedNode :=
  nodes.insertionSort fun a b => (a.isSelf ∧ !b.isSelf) ∨ (a.isSelf = b.isSelf ∧ a.name ≤ b.name)

def listAll : DbTx (List ManagedNode) :=
  queryOr (databaseError "列出 managed_nodes 失败") none fun db => orderNodes db.managedNodes

def listAutoPeer : DbTx (List ManagedNode) :=
  queryOr (databaseError "列出 auto-peer 节点失败") none fun db =>
    orderNodes (db.managedNodes.filter fun n => n.autoPeer && n.enabled)

/-- `WHERE is_self=1 ORDER BY updated_at DESC, node_id DESC LIMIT 1`. -/
def getSelf : DbTx (Option ManagedNode) :=
  queryOr (databaseError "查询 self 节点失败") none fun db =>
    ((db.managedNodes.filter fun n => n.isSelf).insertionSort fun a b =>
      b.updatedAt < a.updatedAt ∨ b.updatedAt = a.updatedAt ∧ b.nodeId ≤ a.nodeId).head?

/-- Mark `nodeId` as the hub's own node: demote any other self row, then
insert or update. -/
def upsertSelf (now nodeId : Str) (name : Str := lit "self") : DbTx ManagedNode := do
  guarded (fun _ => databaseError "upsert self 节点失败") do
    modify (params [.text nodeId]) (Db.demoteSelf now nodeId)
    modify (params [.text nodeId]) (Db.upsertNode nodeId)
    execute (params [.text nodeId, .text name])
      (Db.upsertSelfRow (newNode now nodeId name true))
    commit
  readBack (databaseError "查询 managed_node 失败") (databaseError "upsert 后无法读取 self 节点")
    (params [.text nodeId]) (Db.getNode nodeId)

def delete (now nodeId : Str) (force : Bool := false) : DbTx (Option ManagedNode) := do
  match ← get nodeId with
  | none => pure none
  | some existing =>
      if existing.isSelf && !force then
        fail (databaseError "拒绝删除 self 节点 (传入 force=True 强制删除)")
      else
        guarded (fun _ => databaseError "删除 managed_node 失败") do
          modify (params [.text nodeId]) fun db =>
            { db with
              managedNodes := Rows.deleteWhere (fun n => n.nodeId == nodeId) db.managedNodes }
          emitSyncEvent now nodeId .accessRevoked
          commit
        pure (some existing)

def setTokenHash (now nodeId tokenHash : Str) : DbTx Unit :=
  guarded (fun _ => databaseError "更新 token hash 失败") do
    let rowcount ← execute (params [.text tokenHash, .text nodeId]) fun db =>
      .ok (db.updateNodes nodeId fun n =>
        { n with apiTokenHash := some tokenHash, updatedAt := now })
    abortIf (rowcount == 0) (databaseErrorOf "节点不存在: " nodeId)
    emitSyncEvent now nodeId .accessRevoked
    commit

def rotateToken (sha256 : Str → Str) (now nodeId newPlaintext : Str) : DbTx Unit :=
  setTokenHash now nodeId (hashToken sha256 newPlaintext)

def setWritePolicy (now nodeId : Str) (policy : List (Str × Str)) : DbTx ManagedNode := do
  let normalized ← Prog.lift ((validateWritePolicy policy).mapError Exc.raised)
  guarded (fun _ => databaseError "更新 write_policy 失败") do
    let rowcount ← execute (params [.text nodeId]) fun db =>
      .ok (db.updateNodes nodeId fun n => { n with writePolicy := normalized, updatedAt := now })
    abortIf (rowcount == 0) (databaseErrorOf "节点不存在: " nodeId)
    commit
  readBack (databaseError "查询 managed_node 失败") (databaseError "更新后无法读取 managed_node")
    (params [.text nodeId]) (Db.getNode nodeId)

def touchLastSeen (now nodeId : Str) : DbTx Unit :=
  guarded (fun _ => databaseError "更新 last_seen_at 失败") do
    modify (params [.text nodeId]) fun db =>
      (db.updateNodes nodeId fun n => { n with lastSeenAt := some now }).2
    commit

/-- `_update_fields`: write the node's columns, the propagated cells of other
nodes' rows and the events in one transaction. -/
def updateFields (now nodeId : Str) (fields : NodeFields) (events : List (Str × SyncKind))
    (changes : List PropagatedChange := []) : DbTx ManagedNode := do
  guarded (fun _ => databaseError "更新 managed_node 失败") do
    let rowcount ← execute (params (fields.params ++ [.text nodeId])) fun db =>
      .ok (db.updateNodes nodeId (fields.apply now))
    abortIf (rowcount == 0) (databaseErrorOf "节点不存在: " nodeId)
    changes.forM fun change =>
      modify (params [.text change.new, .text change.nodeId, .text change.name])
        fun db => (db.updateIbgpRows change.nodeId change.name (change.apply now)).2
    events.forM fun event => emitSyncEvent now event.1 event.2
    commit
  readBack (databaseError "查询 managed_node 失败") (databaseError "更新后无法读取 managed_node")
    (params [.text nodeId]) (Db.getNode nodeId)

def setName (now nodeId name : Str) : DbTx ManagedNode :=
  updateFields now nodeId { name := .set name } []

/-- Disabling a node must announce it: its live connections were authenticated
once and are not checked again. -/
def setEnabled (now nodeId : Str) (enabled : Bool) : DbTx ManagedNode :=
  updateFields now nodeId { enabled := .set enabled }
    (if enabled then [] else [(nodeId, .accessRevoked)])

def setAddresses (now nodeId : Str) (endpointHost ownIpv6 routerId : Patch (Option Str)) :
    DbTx ManagedNode :=
  let fields : NodeFields := { endpointHost, ownIpv6, routerId }
  if fields = {} then
    readBack (databaseError "查询 managed_node 失败") (databaseErrorOf "节点不存在: " nodeId)
      (params [.text nodeId]) (Db.getNode nodeId)
  else
    updateFields now nodeId fields (if fields.touchesBlock then [(nodeId, .desired)] else [])

/-- The events of `apply_address_update`: the node itself when its own block
is written, each node a change was propagated to once, and a revocation when
the node is being disabled.  `seen` starts with the node itself. -/
def addressEvents (nodeId : Str) (fields : NodeFields) (changes : List PropagatedChange) :
    List (Str × SyncKind) :=
  let own := if fields.touchesBlock then [(nodeId, SyncKind.desired)] else []
  let others := changes.foldl
    (fun (acc : List Str × List (Str × SyncKind)) c =>
      if acc.1.contains c.nodeId then acc
      else (acc.1 ++ [c.nodeId], acc.2 ++ [(c.nodeId, SyncKind.desired)]))
    ([nodeId], own)
  others.2 ++ if fields.enabled = .set false then [(nodeId, .accessRevoked)] else []

def applyAddressUpdate (now nodeId : Str) (fields : NodeFields)
    (changes : List PropagatedChange := []) : DbTx ManagedNode :=
  updateFields now nodeId fields (addressEvents nodeId fields changes) changes

end ManagedNodeStore

/-! ## `class ProposalStore` -/

def Db.getProposal (id : Nat) (db : Db) : Option ConfigProposal :=
  db.configProposals.find? fun p => p.id == id

/-- `INSERT INTO config_proposals`; the new row's id. -/
def Db.insertProposal (nodeId : Str) (source : ProposalSource) (kind : ProposalKind)
    (payload : JsonObject) (now : Str) (db : Db) : Except SqlError (Nat × Db) :=
  if !db.nodes.contains nodeId then .error .integrity
  else
    let row : ConfigProposal :=
      { id := db.proposalSeq + 1, nodeId, source, kind, payload, status := .pending,
        receivedAt := now, decidedAt := none, message := none }
    .ok (db.proposalSeq + 1, { db with
      configProposals := db.configProposals ++ [row], proposalSeq := db.proposalSeq + 1 })

/-- `UPDATE config_proposals SET status=?, decided_at=?, message=? WHERE id=?`. -/
def Db.decided (now : Str) (id : Nat) (status : ProposalStatus) (message : Option Msg) (db : Db) :
    Db :=
  { db with
    configProposals := Rows.updateWhere (fun p => p.id == id)
      (fun p => { p with status, decidedAt := some now, message }) db.configProposals }

/-- The text of `config_proposals.source`, and which texts are one. -/
def ProposalSource.ofText (s : Str) : Option ProposalSource :=
  if s = lit "push" then some .push else if s = lit "scan" then some .scan else none

def ProposalKind.ofText (s : Str) : Option ProposalKind :=
  if s = lit "peer_add" then some .peerAdd
  else if s = lit "peer_modify" then some .peerModify
  else if s = lit "peer_delete" then some .peerDelete
  else none

def ProposalStatus.text : ProposalStatus → Str
  | .pending => lit "pending"
  | .accepted => lit "accepted"
  | .rejected => lit "rejected"

namespace ProposalStore

def get (id : Nat) : DbTx (Option ConfigProposal) :=
  queryOr (databaseError "查询 proposal 失败") (params [.int id]) (Db.getProposal id)

def add (now nodeId source kind : Str) (payload : JsonObject) : DbTx ConfigProposal := do
  match ProposalSource.ofText source, ProposalKind.ofText kind with
  | none, _ => fail (databaseErrorOf "非法 source: " source)
  | some _, none => fail (databaseErrorOf "非法 kind: " kind)
  | some src, some knd =>
      let rowId ← guarded (fun _ => databaseError "插入 config_proposal 失败") do
        let rowId ← execute (params [.text nodeId, .json (.dict payload)])
          (Db.insertProposal nodeId src knd payload now)
        commit
        pure rowId
      readBack (databaseError "查询 proposal 失败") (databaseError "插入后无法读取 proposal")
        none (Db.getProposal rowId)

/-- An unconditional `UPDATE … WHERE id=?`. -/
def setStatus (now : Str) (id : Nat) (status : ProposalStatus) (message : Option Msg := none) :
    DbTx ConfigProposal := do
  guarded (fun _ => databaseError "更新 proposal 状态失败") do
    let rowcount ← execute
      (params [message.elim .null .message, .int id]) fun db =>
        .ok (db.configProposals.countP fun p => p.id == id, db.decided now id status message)
    abortIf (rowcount == 0) (databaseErrorOf "proposal 不存在: " (ofInt id))
    commit
  readBack (databaseError "查询 proposal 失败") (databaseError "更新后无法读取 proposal")
    (params [.int id]) (Db.getProposal id)

end ProposalStore

/-! ## `class ReportStore` -/

def Db.getReport (id : Nat) (db : Db) : Option NodeReport :=
  db.nodeReports.find? fun r => r.id == id

/-- `INSERT INTO node_reports`; the new row's id. -/
def Db.insertReport (nodeId : Str) (kind : ReportKind) (payload : JsonObject) (now : Str)
    (db : Db) : Except SqlError (Nat × Db) :=
  if !db.nodes.contains nodeId then .error .integrity
  else
    let row : NodeReport :=
      { id := db.reportSeq + 1, nodeId, kind, payload, receivedAt := now, importedAt := none }
    .ok (db.reportSeq + 1, { db with
      nodeReports := db.nodeReports ++ [row], reportSeq := db.reportSeq + 1 })

def ReportKind.ofText (s : Str) : Option ReportKind :=
  if s = lit "apply_result" then some .applyResult
  else if s = lit "scan_result" then some .scanResult
  else if s = lit "live_status" then some .liveStatus
  else if s = lit "error" then some .error
  else none

def ReportKind.text : ReportKind → Str
  | .applyResult => lit "apply_result"
  | .scanResult => lit "scan_result"
  | .liveStatus => lit "live_status"
  | .error => lit "error"

namespace ReportStore

def get (id : Nat) : DbTx (Option NodeReport) :=
  queryOr (databaseError "查询 report 失败") (params [.int id]) (Db.getReport id)

def add (now nodeId kind : Str) (payload : JsonObject) : DbTx NodeReport := do
  match ReportKind.ofText kind with
  | none => fail (databaseErrorOf "非法 report kind: " kind)
  | some knd =>
      let rowId ← guarded (fun _ => databaseError "插入 node_report 失败") do
        let rowId ← execute (params [.text nodeId, .json (.dict payload)])
          (Db.insertReport nodeId knd payload now)
        commit
        pure rowId
      readBack (databaseError "查询 report 失败") (databaseError "插入后无法读取 report")
        none (Db.getReport rowId)

def markImported (now : Str) (id : Nat) : DbTx NodeReport := do
  guarded (fun _ => databaseError "更新 report imported_at 失败") do
    let rowcount ← execute (params [.int id]) fun db =>
      .ok (db.nodeReports.countP fun r => r.id == id, { db with
        nodeReports := Rows.updateWhere (fun r => r.id == id)
          (fun r => { r with importedAt := some now }) db.nodeReports })
    abortIf (rowcount == 0) (databaseErrorOf "report 不存在: " (ofInt id))
    commit
  readBack (databaseError "查询 report 失败") (databaseError "更新后无法读取 report")
    (params [.int id]) (Db.getReport id)

end ReportStore

/-! ## `class RevisionStore` -/

/-- `WHERE node_id=? AND revision=?`. -/
def ConfigRevision.is (nodeId revision : Str) (r : ConfigRevision) : Bool :=
  r.nodeId == nodeId && r.revision == revision

def Db.getByRevision (nodeId revision : Str) (db : Db) : Option ConfigRevision :=
  db.configRevisions.find? (ConfigRevision.is nodeId revision)

def Db.getRevision (id : Nat) (db : Db) : Option ConfigRevision :=
  db.configRevisions.find? fun r => r.id == id

/-- `WHERE node_id=? ORDER BY id DESC`. -/
def Db.revisionsDesc (nodeId : Str) (db : Db) : List ConfigRevision :=
  (db.configRevisions.filter fun r => r.nodeId == nodeId).insertionSort fun a b => b.id ≤ a.id

/-- `LIMIT n`: a negative limit is none. -/
def limitRows {α : Type} (n : Int) (rows : List α) : List α :=
  if n < 0 then rows else rows.take n.toNat

/-- The texts in one entry of a payload. -/
def BgpPeerDesired.params (p : BgpPeerDesired) : List Param :=
  [.text p.ifname, .text p.wgPrivateKey, .text p.wgPublicKey, .ofOption p.peerPublicKey,
    .ofOption p.endpoint, .text p.localLla, .ofOption p.peerLla, .text p.netBackend] ++
    p.allowedIps.map .text

def IbgpPeerDesired.params (p : IbgpPeerDesired) : List Param :=
  [.text p.name, .text p.ifname, .text p.wgPrivateKey, .text p.wgPublicKey,
    .ofOption p.peerPublicKey, .ofOption p.endpoint, .text p.localLla, .ofOption p.peerLla,
    .ofOption p.peerIp, .text p.netBackend, .text p.babelType] ++ p.allowedIps.map .text

/-- `json.dumps(payload, ensure_ascii=False)` can be bound exactly when each
text in it can. -/
def DesiredState.params (d : DesiredState) : List Param :=
  [.text d.nodeId, .text d.revision, .text d.generatedAt] ++
    d.bgpPeers.flatMap BgpPeerDesired.params ++ d.ibgpPeers.flatMap IbgpPeerDesired.params ++
    [.ofOption d.node.ownIpv6, .ofOption d.node.routerId]

/-- `INSERT INTO config_revisions`, with `UNIQUE(node_id, revision)` and the
foreign key to `nodes`; the new row's id. -/
def Db.insertRevision (nodeId revision generatedAt : Str) (payload : DesiredState) (db : Db) :
    Except SqlError (Nat × Db) :=
  if db.configRevisions.any (ConfigRevision.is nodeId revision) then .error .integrity
  else if !db.nodes.contains nodeId then .error .integrity
  else
    let row : ConfigRevision := ⟨db.revisionSeq + 1, nodeId, revision, generatedAt, payload⟩
    .ok (db.revisionSeq + 1, { db with
      configRevisions := db.configRevisions ++ [row], revisionSeq := db.revisionSeq + 1 })

def Db.getPinRow (nodeId : Str) (db : Db) : Option DesiredPin :=
  db.desiredPins.find? fun p => p.nodeId == nodeId

/-- The pinned revision's row, if the node has a pin and its row is there. -/
def Db.getPin (nodeId : Str) (db : Db) : Option ConfigRevision :=
  (db.getPinRow nodeId).bind fun p => db.getByRevision nodeId p.revision

/-- `INSERT INTO node_desired_pin … ON CONFLICT(node_id) DO UPDATE`, with the
foreign key to `nodes`. -/
def Db.upsertPin (pin : DesiredPin) (db : Db) : Except SqlError (Unit × Db) :=
  if db.desiredPins.any fun p => p.nodeId == pin.nodeId then
    .ok ((), { db with
      desiredPins := Rows.updateWhere (fun p => p.nodeId == pin.nodeId) (fun _ => pin)
        db.desiredPins })
  else if !db.nodes.contains pin.nodeId then .error .integrity
  else .ok ((), { db with desiredPins := db.desiredPins ++ [pin] })

/-- The rows `trim` deletes: not among the `keepLatest` newest of the node,
and not named by the node's pin. -/
def Db.trimmed (nodeId : Str) (keepLatest : Int) (db : Db) (r : ConfigRevision) : Bool :=
  r.nodeId == nodeId &&
    !((limitRows keepLatest (db.revisionsDesc nodeId)).map ConfigRevision.id).contains r.id &&
    !((db.desiredPins.filter fun p => p.nodeId == nodeId).map DesiredPin.revision).contains
      r.revision

namespace RevisionStore

def getByRevision (nodeId revision : Str) : DbTx (Option ConfigRevision) :=
  queryOr (databaseError "查询 revision 失败") (params [.text nodeId, .text revision])
    (Db.getByRevision nodeId revision)

/-- The same query for a revision that was read from the database, so that its
text always fits the statement. -/
def getStored (nodeId revision : Str) : DbTx (Option ConfigRevision) :=
  queryOr (databaseError "查询 revision 失败") (params [.text nodeId])
    (Db.getByRevision nodeId revision)

/-- Insert a snapshot, or return the one that has this revision already. -/
def record (nodeId revision generatedAt : Str) (payload : DesiredState) : DbTx ConfigRevision := do
  match ← getByRevision nodeId revision with
  | some existing => pure existing
  | none =>
      let rowId ← guarded (fun _ => databaseError "插入 config_revision 失败") do
        let rowId ← execute
          (params ([.text nodeId, .text revision, .text generatedAt] ++ payload.params))
          (Db.insertRevision nodeId revision generatedAt payload)
        commit
        pure rowId
      readBack (databaseError "查询 revision 失败") (databaseError "插入后无法读取 revision")
        none (Db.getRevision rowId)

def listForNode (nodeId : Str) (limit : Int := 50) : DbTx (List ConfigRevision) :=
  queryOr (databaseError "列出 revisions 失败") (params [.text nodeId, .int limit]) fun db =>
    limitRows limit (db.revisionsDesc nodeId)

def latestRevision (nodeId : Str) : DbTx (Option Str) :=
  queryOr (databaseError "查询最新 revision 失败") (params [.text nodeId]) fun db =>
    (db.revisionsDesc nodeId).head?.map ConfigRevision.revision

/-- Delete all but the `keepLatest` newest revisions, never the pinned one;
the number of rows deleted. -/
def trim (nodeId : Str) (keepLatest : Int := 50) : DbTx Nat :=
  guarded (fun _ => databaseError "trim revisions 失败") do
    let deleted ← execute
      (params [.text nodeId, .text nodeId, .int keepLatest, .text nodeId]) fun db =>
        .ok (db.configRevisions.countP (db.trimmed nodeId keepLatest), { db with
          configRevisions := Rows.deleteWhere (db.trimmed nodeId keepLatest) db.configRevisions })
    commit
    pure deleted

def pin (now nodeId revision : Str) : DbTx Unit := do
  match ← getByRevision nodeId revision with
  | none =>
      fail ⟨.databaseError, [.text (lit "revision 不存在: node="), .text nodeId,
        .text (lit " revision="), .text revision]⟩
  | some _ =>
      guarded (fun _ => databaseError "pin revision 失败") do
        execute (params [.text nodeId, .text revision])
          (Db.upsertPin ⟨nodeId, revision, now⟩)
        emitSyncEvent now nodeId .desired
        commit

def unpin (now nodeId : Str) : DbTx Unit :=
  guarded (fun _ => databaseError "unpin revision 失败") do
    modify (params [.text nodeId]) fun db =>
      { db with desiredPins := Rows.deleteWhere (fun p => p.nodeId == nodeId) db.desiredPins }
    emitSyncEvent now nodeId .desired
    commit

/-- The pin is read first, then the row it names. -/
def getPin (nodeId : Str) : DbTx (Option ConfigRevision) := do
  match ← queryOr (databaseError "查询 pin 失败") (params [.text nodeId]) (Db.getPinRow nodeId) with
  | none => pure none
  | some p => getStored nodeId p.revision

end RevisionStore

/-! ## `class SyncEventStore` -/

/-- `SELECT COALESCE(MAX(id), 0)`. -/
def Db.latestEventId (db : Db) : Nat := (db.syncEvents.map SyncEvent.id).foldl max 0

/-- `WHERE id > ? ORDER BY id LIMIT ?`. -/
def Db.eventsSince (lastId limit : Nat) (db : Db) : List SyncEvent :=
  ((db.syncEvents.filter fun e => decide (lastId < e.id)).insertionSort fun a b =>
    a.id ≤ b.id).take limit

namespace SyncEventStore

def fetchSince (lastId : Nat) (limit : Nat := 500) : DbTx (List SyncEvent) :=
  queryOr (databaseError "查询 sync_events 失败") none (Db.eventsSince lastId limit)

end SyncEventStore

end Dn42Ctl
