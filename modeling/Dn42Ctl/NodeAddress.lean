import Dn42Ctl.DbManaged
import Dn42Ctl.Validators

/-!
# NodeAddress

`services/node_address.py`: a node's address is copied into the `ibgp_peers`
rows of other nodes, as the host part of `endpoint` and as `peer_ip`.  This
module plans which cells follow a change of address, writes them, links rows to
nodes after the fact, and moves a partition onto the hub's own node.
-/

namespace Dn42Ctl

open Text Txn

def dn42CtlError (text : Msg) : PyError := ⟨.dn42CtlError, text⟩

/-- `raise Dn42CtlError(str(exc)) from exc`. -/
def asDn42CtlError (e : PyError) : PyError := ⟨.dn42CtlError, e.text⟩

/-! ## planning -/

structure PropagationPlan where
  changes : List PropagatedChange := []
  warnings : List Msg := []
deriving Repr

/-- `row["peer_ip"]` follows a non-empty `own_ipv6`; clearing the address never
blanks a peer's row. -/
def planPeerIp (ownIpv6 : Option Str) (row : IbgpRow) : List PropagatedChange :=
  match ownIpv6 with
  | none => []
  | some v =>
      if !v.isEmpty && row.peerIp != some v then [⟨row.nodeId, row.name, .peerIp, row.peerIp, v⟩]
      else []

/-- `endpoint` gets a new host and keeps its port.  A row without an endpoint
is the passive side and has no port to keep. -/
def planEndpoint (endpointHost : Option Str) (row : IbgpRow) : PropagationPlan :=
  let label := row.nodeId ++ 47 :: row.name
  match endpointHost with
  | none => {}
  | some host =>
      if host.isEmpty then {}
      else
        let current := strip (row.endpoint.getD [])
        if current.isEmpty then
          { warnings := [[.text label,
              .text (lit ": endpoint 为空(被动侧),无法推导端口,已跳过")]] }
        else
          match splitEndpoint current with
          | .error _ =>
              { warnings := [[.text label, .text (lit ": endpoint 无法解析 ("),
                  .repr (.str current), .text (lit "),已跳过")]] }
          | .ok (_, port) =>
              let newEndpoint := formatEndpoint host port
              if newEndpoint = current then {}
              else { changes := [⟨row.nodeId, row.name, .endpoint, some current, newEndpoint⟩] }

/-- How the rows that point at a node change with its address. -/
def planPropagation (rows : List IbgpRow) (ownIpv6 endpointHost : Option Str) : PropagationPlan :=
  { changes := rows.flatMap fun row =>
      planPeerIp ownIpv6 row ++ (planEndpoint endpointHost row).changes
    warnings := rows.flatMap fun row => (planEndpoint endpointHost row).warnings }

/-! ## writing -/

structure NodeAddressUpdate where
  node : ManagedNode
  changes : List PropagatedChange
  warnings : List Msg
  dryRun : Bool
deriving Repr

/-- `_validated`: `UNSET` and `None` pass, a text goes through the validator. -/
def validated (validator : Str → Except PyError Str) :
    Patch (Option Str) → Except PyError (Patch (Option Str))
  | .set (some v) => ((validator v).map fun v => .set (some v)).mapError asDn42CtlError
  | p => .ok p

/-- The plan for a node whose fields are about to be written: a field that was
not given counts with its stored value. -/
def effectivePlan (node : ManagedNode) (fields : NodeFields) (rows : List IbgpRow) :
    PropagationPlan :=
  planPropagation rows (fields.ownIpv6.getD node.ownIpv6)
    (fields.endpointHost.getD node.endpointHost)

def setNodeAddresses (now nodeId : Str) (fields : NodeFields) (propagate : Bool := true)
    (dryRun : Bool := false) : DbTx NodeAddressUpdate := do
  let endpointHost ← Prog.lift
    ((validated validateEndpointHost fields.endpointHost).mapError Exc.raised)
  let ownIpv6 ← Prog.lift ((validated
    (fun v => validateIpv6Address v (lit "own_ipv6")) fields.ownIpv6).mapError Exc.raised)
  let routerId ← Prog.lift ((validated validateRouterId fields.routerId).mapError Exc.raised)
  let fields := { fields with endpointHost, ownIpv6, routerId }
  match ← ManagedNodeStore.get nodeId with
  | none => fail (dn42CtlError [.text (lit "managed node 不存在: "), .text nodeId])
  | some node => do
      let plan ←
        if propagate then do
          let rows ← Database.listIbgpPeersByRemote nodeId
          let plan := effectivePlan node fields rows
          let ipv6 := fields.ownIpv6.getD node.ownIpv6
          let host := fields.endpointHost.getD node.endpointHost
          let noRows : List Msg :=
            if rows.isEmpty &&
                (ipv6.any (fun s => !s.isEmpty) || host.any fun s => !s.isEmpty) then
              [[.text (lit "没有任何 iBGP peer 行的 remote_node_id 指向 "), .text nodeId,
                .text (lit ",本次改动不会传播到 mesh")]]
            else []
          let noIpv6 : List Msg :=
            if ipv6.isNone && !rows.isEmpty then
              [[.text (lit "own_ipv6 未设置,指向该节点的 peer_ip 保持原值")]]
            else []
          pure { plan with warnings := plan.warnings ++ noRows ++ noIpv6 }
        else pure {}
      if dryRun then pure ⟨node, plan.changes, plan.warnings, true⟩
      else do
        let updated ← ManagedNodeStore.applyAddressUpdate now nodeId fields plan.changes
        pure ⟨updated, plan.changes, plan.warnings, false⟩

/-! ## linking rows after the fact -/

/-- The managed nodes whose `own_ipv6` is this address. -/
def nodesWithIpv6 (nodes : List ManagedNode) (peerIp : Str) : List Str :=
  (nodes.filter fun n => n.ownIpv6.any fun v => !v.isEmpty && v == peerIp).map ManagedNode.nodeId

/-- What `backfill_remote_node_ids` does with a row: link it to the one managed
node that has its `peer_ip`, or skip it with a reason. -/
def backfillTarget (nodes : List ManagedNode) (row : IbgpRow) : Except Msg Str :=
  if row.remoteNodeId.any fun s => !s.isEmpty then
    .error [.text (lit "已有 remote_node_id,未改动")]
  else
    match row.peerIp with
    | none => .error [.text (lit "peer_ip 为空,无法匹配")]
    | some peerIp =>
        if peerIp.isEmpty then .error [.text (lit "peer_ip 为空,无法匹配")]
        else
          match nodesWithIpv6 nodes peerIp with
          | [target] => .ok target
          | [] => .error [.text (lit "没有匹配的受管节点 (peer_ip="), .text peerIp, .text (lit ")")]
          | candidates =>
              .error [.text (lit "匹配到 "), .text (ofInt candidates.length),
                .text (lit " 个节点,不唯一 (peer_ip="), .text peerIp, .text (lit ")")]

structure BackfillResult where
  linked : List Msg
  skipped : List Msg
deriving Repr

/-- Link every row that has exactly one candidate. -/
def backfillRemoteNodeIds (dryRun : Bool := false) : DbTx BackfillResult := do
  let nodes ← ManagedNodeStore.listAll
  let rows ← query none fun db => db.ibgpPeers.insertionSort fun a b =>
    a.nodeId < b.nodeId ∨ a.nodeId = b.nodeId ∧ a.name ≤ b.name
  let label (row : IbgpRow) : Str := row.nodeId ++ 47 :: row.name
  let pending := rows.filterMap fun row =>
    match backfillTarget nodes row with
    | .ok target => some (row, target)
    | .error _ => none
  let skipped : List Msg := rows.filterMap fun row =>
    match backfillTarget nodes row with
    | .ok _ => none
    | .error why => some (.text (label row ++ lit ": ") :: why)
  let linked : List Msg := pending.map fun (row, target) =>
    [.text (label row), .text (lit " -> "), .text target]
  unless pending.isEmpty || dryRun do
    guarded (fun _ => dn42CtlError [.text (lit "写入 remote_node_id 失败")]) do
      pending.forM fun (row, target) =>
        modify none fun db =>
          (db.updateIbgpRows row.nodeId row.name fun r => { r with remoteNodeId := some target }).2
      commit
  pure ⟨linked, skipped⟩

/-! ## re-homing a partition -/

/-- `UPDATE bgp_peers SET node_id=? WHERE node_id=?`, with its unique columns; the
foreign key to `nodes` is checked for the rows it moves. -/
def Db.moveBgpRows (source target : Str) (db : Db) : Except SqlError (Unit × Db) :=
  if (db.bgpRowsOf source).any fun r => (db.bgpRowsOf target).any fun q =>
      q.peerAsn == r.peerAsn || q.ifname == r.ifname then .error .integrity
  else if !(db.bgpRowsOf source).isEmpty && !db.nodes.contains target then .error .integrity
  else .ok ((), { db with
    bgpPeers := Rows.updateWhere (fun r => r.nodeId == source) (fun r => { r with nodeId := target })
      db.bgpPeers })

def Db.moveIbgpRows (source target : Str) (db : Db) : Except SqlError (Unit × Db) :=
  if (db.ibgpRowsOf source).any fun r => (db.ibgpRowsOf target).any fun q =>
      q.name == r.name || q.ifname == r.ifname then .error .integrity
  else if !(db.ibgpRowsOf source).isEmpty && !db.nodes.contains target then .error .integrity
  else .ok ((), { db with
    ibgpPeers := Rows.updateWhere (fun r => r.nodeId == source)
      (fun r => { r with nodeId := target }) db.ibgpPeers })

structure AdoptSelfResult where
  fromNodeId : Str
  toNodeId : Str
  bgpMoved : Nat
  ibgpMoved : Nat
  dryRun : Bool
deriving DecidableEq, Repr

/-- Move the peers written under `source` onto the hub's own node. -/
def adoptSelfPartition (now configNodeId : Str) (fromNodeId : Option Str) (dryRun : Bool := false) :
    DbTx AdoptSelfResult := do
  match ← ManagedNodeStore.getSelf with
  | none =>
      fail (dn42CtlError
        [.text (lit "没有 self 节点(managed_nodes.is_self=1),无需也无法执行 adopt-self")])
  | some selfNode => do
      let target := selfNode.nodeId
      let source := orDefault fromNodeId configNodeId
      if source = target then
        fail (dn42CtlError [.text (lit "源分区与 self 节点相同 ("), .text target,
          .text (lit "),无需修复")])
      else do
        let bgpRows ← Database.listBgpPeers source
        let ibgpRows ← Database.listIbgpPeers source
        if bgpRows.isEmpty && ibgpRows.isEmpty then
          fail (dn42CtlError [.text (lit "源分区 "), .text source,
            .text (lit " 下没有任何 peer 行,无需修复")])
        else do
          let targetBgp ← Database.listBgpPeers target
          let targetIbgp ← Database.listIbgpPeers target
          if !targetBgp.isEmpty || !targetIbgp.isEmpty then
            fail (dn42CtlError [.text (lit "目标分区 "), .text target,
              .text (lit " 非空,拒绝自动搬迁(会撞 UNIQUE(node_id, ifname));请人工合并")])
          else do
            unless dryRun do
              guarded (fun _ => dn42CtlError [.text (lit "搬迁 peer 行失败")]) do
                execute none (Db.moveBgpRows source target)
                execute none (Db.moveIbgpRows source target)
                emitSyncEvent now target
                commit
            pure ⟨source, target, bgpRows.length, ibgpRows.length, dryRun⟩

end Dn42Ctl
