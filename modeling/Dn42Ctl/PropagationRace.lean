import Dn42Ctl.Propagation

/-!
# PropagationRace

`set_node_addresses` plans outside the transaction that writes, and another
process may change or delete a peer row at any point: before the plan, between
the plan and the write, or after the write.  The plan holds whole endpoints,
so a write after a change puts the port back that was planned with.

`race_keeps_edit_iff` says exactly when the other call's port survives.
-/

namespace Dn42Ctl

open Text Txn

/-! ## the race -/

/-- The committing step of the other call.  `modify_ibgp_peer` has read `found`
and chosen `port` at some time before. -/
inductive PeerEdit where
  | modify (env : PeerEnv) (configNodeId : Str) (a : IbgpModifyArgs)
      (found : Str × Str × IbgpRow) (port : Int)
  | delete (env : PeerEnv) (configNodeId name : Str) (nodeId : Option Str)

def PeerEdit.run : PeerEdit → DbTx Unit
  | .modify env cfg a found port => forEffect (modifyIbgpWrite env cfg a found port)
  | .delete env cfg name nodeId => deleteIbgpPeer env cfg name nodeId

structure AddressRace where
  db : Db
  planned : Option (NodeFields × ManagedNode × PropagationPlan) := none

inductive RaceAction where
  | plan
  | write
  | edit (e : PeerEdit)

/-- A step that returns; a call that raises is not in the race. -/
def raceStep (now n : Str) (fields : NodeFields) (s : AddressRace) : RaceAction → Option AddressRace
  | .plan =>
      match eval (planAddresses n fields) s.db with
      | (.ok planned, db') => some ⟨db', some planned⟩
      | (.error _, _) => none
  | .write =>
      match s.planned with
      | none => none
      | some planned =>
          match eval (writeAddresses now n false planned) s.db with
          | (.ok _, db') => some { s with db := db' }
          | (.error _, _) => none
  | .edit e =>
      match eval e.run s.db with
      | (.ok _, db') => some { s with db := db' }
      | (.error _, _) => none

/-- When the other call commits. -/
inductive Turn where
  | beforePlan
  | between
  | afterWrite
deriving DecidableEq, Repr

/-- The interleavings of a plan and a write with one other step. -/
def Turn.schedule (e : PeerEdit) : Turn → List RaceAction
  | .beforePlan => [.edit e, .plan, .write]
  | .between => [.plan, .edit e, .write]
  | .afterWrite => [.plan, .write, .edit e]

/-- What the other call did is not undone: a deleted row stays deleted, and a
row that was given an endpoint with a port has that port. -/
def PeerEdit.Kept (db : Db) : PeerEdit → Prop
  | .modify _ cfg a found _ =>
      ∀ host port, splitEndpoint a.endpoint = .ok (host, port) →
        ∀ r, db.getIbgpPeer (orDefault a.nodeId cfg) found.2.1 = some r →
          endpointPort (r.endpoint.getD []) = some port
  | .delete _ cfg name nodeId =>
      ∀ peerName, sanitizeName name = .ok peerName →
        db.getIbgpPeer (orDefault nodeId cfg) peerName = none

/-- The host the rows of the mesh get: the one given, or the stored one. -/
def Db.effectiveHost (n : Str) (fields : NodeFields) (db : Db) : Option Str :=
  match validated validateEndpointHost fields.endpointHost, db.getNode n with
  | .ok host, some node => host.getD node.endpointHost
  | _, _ => none

/-- A change that comes between gives the row the port it had, unless the row
was not linked, or had no endpoint that another host could be put into. -/
def PeerEdit.Agrees (n : Str) (fields : NodeFields) (db : Db) : PeerEdit → Prop
  | .modify _ cfg a found _ =>
      ∀ host port, splitEndpoint a.endpoint = .ok (host, port) →
        ∀ r, db.getIbgpPeer (orDefault a.nodeId cfg) found.2.1 = some r →
          r.remoteNodeId = some n →
          ∀ newHost oldHost oldPort, db.effectiveHost n fields = some newHost →
            newHost.isEmpty = false →
            splitEndpoint (strip (r.endpoint.getD [])) = .ok (oldHost, oldPort) →
            formatEndpoint newHost oldPort ≠ strip (r.endpoint.getD []) → oldPort = port
  | .delete .. => True

/-! ## what the steps do to the rows -/

section Steps

variable {now n : Str} {fields : NodeFields} {db db' : Db}

/-- The rows after a write, looked up by key. -/
theorem getIbgpPeer_map_rewrite {cs : List PropagatedChange}
    (h : db'.ibgpPeers = db.ibgpPeers.map (IbgpRow.rewrite now cs)) (m name : Str) :
    db'.getIbgpPeer m name = (db.getIbgpPeer m name).map (IbgpRow.rewrite now cs) := by
  have hkey : (IbgpRow.is m name ∘ IbgpRow.rewrite now cs) = IbgpRow.is m name := by
    funext r
    obtain ⟨h1, h2⟩ := rewrite_key now cs r
    rw [Function.comp_apply, IbgpRow.is, IbgpRow.is, h1, h2]
  rw [Db.getIbgpPeer, h, List.find?_map, hkey]
  rfl

theorem eval_writeAddresses {planned : NodeFields × ManagedNode × PropagationPlan}
    {upd : NodeAddressUpdate} (h : eval (writeAddresses now n false planned) db = (.ok upd, db')) :
    db'.ibgpPeers = db.ibgpPeers.map (IbgpRow.rewrite now planned.2.2.changes) := by
  rw [writeAddresses, if_neg Bool.false_ne_true] at h
  obtain ⟨updated, mid, hwrite, h⟩ := (atomic_updateFields now n planned.1 _ _).eval_bind h
  obtain ⟨-, rfl⟩ := eval_pure.mp h
  exact (eval_applyAddressUpdate hwrite).1

/-- The row a change commits. -/
theorem eval_modify_edit {env : PeerEnv} {cfg : Str} {a : IbgpModifyArgs}
    {found : Str × Str × IbgpRow} {port : Int} {u : Unit}
    (h : eval (PeerEdit.run (.modify env cfg a found port)) db = (.ok u, db')) :
    ∃ up : Database.IbgpUpdate, up.endpoint = some a.endpoint ∧
      db'.ibgpPeers = Rows.updateWhere (IbgpRow.is (orDefault a.nodeId cfg) found.2.1)
        (up.apply env.now) db.ibgpPeers ∧
      ∃ r, db.getIbgpPeer (orDefault a.nodeId cfg) found.2.1 = some r ∧
        db'.getIbgpPeer (orDefault a.nodeId cfg) found.2.1 = some (up.apply env.now r) := by
  obtain ⟨b, h⟩ := eval_forEffect h
  obtain ⟨u, -, h⟩ := Atomic.eval_bind_read (readOnly_checkValid _) h
  obtain ⟨u, mid, hupdate, h⟩ := (atomic_updateIbgpPeer ..).eval_bind h
  obtain ⟨-, rfl⟩ := eval_pure.mp h
  exact ⟨_, rfl, (rows_of_updateIbgpPeer hupdate).1,
    getIbgpPeer_of_update (eval_wrapDatabaseError.mp hupdate)⟩

theorem Db.NamesUnique.updateWhere {m name : Str} {up : Database.IbgpUpdate} (h : db.NamesUnique)
    (hrows : db'.ibgpPeers = Rows.updateWhere (IbgpRow.is m name) (up.apply now) db.ibgpPeers) :
    db'.NamesUnique := by
  have hkey : ∀ r : IbgpRow, (if IbgpRow.is m name r then up.apply now r else r).nodeId = r.nodeId ∧
      (if IbgpRow.is m name r then up.apply now r else r).name = r.name := fun r => by
    split <;> exact ⟨rfl, rfl⟩
  rw [Db.NamesUnique, hrows, Rows.updateWhere, List.pairwise_map]
  refine h.imp fun {a b} hab => ?_
  rw [IbgpRow.is, (hkey a).1, (hkey a).2, (hkey b).1, (hkey b).2]
  exact hab

/-- The effective host of a plan. -/
theorem effectiveHost_of_plan {valid : NodeFields} {node : ManagedNode}
    (hvalid : ValidatedFields fields valid) (hnode : db.getNode n = some node) :
    db.effectiveHost n fields = valid.endpointHost.getD node.endpointHost := by
  rw [Db.effectiveHost, hvalid.endpointHost, hnode]

/-- Stripping first changes nothing. -/
theorem splitEndpoint_strip (s : Str) : splitEndpoint (strip s) = splitEndpoint s := by
  simp only [splitEndpoint, validateEndpoint, strip_strip]

/-- A row that follows keeps its port. -/
theorem endpointPort_follow {host : Option Str} {endpoint host' : Str} {port : Nat}
    (h : splitEndpoint endpoint = .ok (host', port)) :
    endpointPort ((followEndpoint host (some endpoint)).getD []) = some port := by
  cases host with
  | none => exact endpointPort_of_split h
  | some newHost =>
      simp only [followEndpoint, Option.getD_some, splitEndpoint_strip, h]
      split
      · exact endpointPort_of_split h
      · split
        · exact endpointPort_of_split h
        · exact endpointPort_formatEndpoint newHost port

end Steps

/-! ## the three turns -/

section Race

variable {now n : Str} {fields : NodeFields} {s s' : AddressRace} {db : Db}

theorem raceStep_plan (h : raceStep now n fields s .plan = some s') :
    ∃ valid node, ValidatedFields fields valid ∧ s.db.getNode n = some node ∧
      s' = ⟨s.db, some (valid, node, addressPlan n node valid (s.db.listIbgpPeersByRemote n))⟩ := by
  rw [raceStep] at h
  rcases hplan : eval (planAddresses n fields) s.db with ⟨r, db'⟩
  rw [hplan] at h
  cases r with
  | error e => cases h
  | ok planned =>
      obtain ⟨valid, node, plan⟩ := planned
      obtain ⟨hvalid, -, hnode, rfl, rfl⟩ := eval_planAddresses.mp hplan
      exact ⟨valid, node, hvalid, hnode, (Option.some.inj h).symm⟩

theorem raceStep_write {planned : NodeFields × ManagedNode × PropagationPlan}
    (hplanned : s.planned = some planned) (h : raceStep now n fields s .write = some s') :
    s'.db.ibgpPeers = s.db.ibgpPeers.map (IbgpRow.rewrite now planned.2.2.changes) := by
  simp only [raceStep, hplanned] at h
  rcases hwrite : eval (writeAddresses now n false planned) s.db with ⟨r, db'⟩
  rw [hwrite] at h
  cases r with
  | error e => cases h
  | ok upd =>
      rw [← Option.some.inj h]
      exact eval_writeAddresses hwrite

theorem raceStep_edit {e : PeerEdit} (h : raceStep now n fields s (.edit e) = some s') :
    ∃ u, eval e.run s.db = (.ok u, s'.db) ∧ s'.planned = s.planned := by
  rw [raceStep] at h
  rcases hedit : eval e.run s.db with ⟨r, db'⟩
  rw [hedit] at h
  cases r with
  | error e => cases h
  | ok u =>
      rw [← Option.some.inj h]
      exact ⟨u, rfl, rfl⟩

/-- A deleted row is not written back, whenever it was deleted. -/
theorem delete_kept {env : PeerEnv} {cfg name : Str} {m : Option Str} {u : Unit} {db' : Db}
    (h : eval (PeerEdit.run (.delete env cfg name m)) db = (.ok u, db')) :
    (PeerEdit.delete env cfg name m).Kept db' := by
  intro peerName hname
  obtain ⟨peerName', hname', -, hrows, -⟩ := eval_deleteIbgpPeer h
  obtain rfl := Except.ok.inj (hname'.symm.trans hname)
  rw [Db.getIbgpPeer, hrows, List.find?_eq_none]
  intro r hr
  simpa using (List.mem_filter.mp hr).2

theorem delete_kept_write {env : PeerEnv} {cfg name : Str} {m : Option Str} {db' : Db}
    {cs : List PropagatedChange} (h : (PeerEdit.delete env cfg name m).Kept db)
    (hrows : db'.ibgpPeers = db.ibgpPeers.map (IbgpRow.rewrite now cs)) :
    (PeerEdit.delete env cfg name m).Kept db' := by
  intro peerName hname
  rw [getIbgpPeer_map_rewrite hrows, h peerName hname]
  rfl

/-- The endpoint of a changed row after the changes planned for the row as it
was: the planned one, if there is one. -/
theorem endpoint_rewrite_rowChanges {ownIpv6 endpointHost : Option Str} {r x : IbgpRow}
    (hkey : x.nodeId = r.nodeId ∧ x.name = r.name) :
    (x.rewrite now (rowChanges ownIpv6 endpointHost r)).endpoint =
      (((planEndpoint endpointHost r).changes.head?.map PropagatedChange.new).or x.endpoint) := by
  rw [rowChanges]
  obtain ⟨hip, -⟩ | ⟨v, hip, -⟩ := planPeerIp_cases ownIpv6 r
  · obtain ⟨hep, -⟩ | ⟨_, _, _, -, -, -, -, hep, -⟩ := planEndpoint_cases endpointHost r
    · rw [hip, hep]
      rfl
    · rw [hip, hep]
      simp [IbgpRow.rewrite, PropagatedChange.targets, IbgpRow.is, PropagatedChange.apply, hkey]
  · obtain ⟨hep, -⟩ | ⟨_, _, _, -, -, -, -, hep, -⟩ := planEndpoint_cases endpointHost r
    · rw [hip, hep]
      simp [IbgpRow.rewrite, PropagatedChange.targets, IbgpRow.is, PropagatedChange.apply, hkey]
    · rw [hip, hep]
      simp [IbgpRow.rewrite, PropagatedChange.targets, IbgpRow.is, PropagatedChange.apply, hkey]

/-- A change that commits between the plan and the write. -/
theorem modify_between (hkeys : db.NamesUnique) {env : PeerEnv} {cfg : Str} {a : IbgpModifyArgs}
    {found : Str × Str × IbgpRow} {port : Int} {u : Unit} {db₁ db₂ : Db} {valid : NodeFields}
    {node : ManagedNode} (hvalid : ValidatedFields fields valid) (hnode : db.getNode n = some node)
    (hedit : eval (PeerEdit.run (.modify env cfg a found port)) db = (.ok u, db₁))
    (hrows : db₂.ibgpPeers = db₁.ibgpPeers.map (IbgpRow.rewrite now
      (addressPlan n node valid (db.listIbgpPeersByRemote n)).changes)) :
    (PeerEdit.modify env cfg a found port).Kept db₂ ↔
      (PeerEdit.modify env cfg a found port).Agrees n fields db := by
  obtain ⟨up, hup, -, r, hr, hr₁⟩ := eval_modify_edit hedit
  have hmem : r ∈ db.ibgpPeers := List.mem_of_find?_eq_some hr
  have hfinal : db₂.getIbgpPeer (orDefault a.nodeId cfg) found.2.1 =
      some ((up.apply env.now r).rewrite now
        (addressPlan n node valid (db.listIbgpPeersByRemote n)).changes) := by
    rw [getIbgpPeer_map_rewrite hrows, hr₁]
    rfl
  have hkey : (up.apply env.now r).nodeId = r.nodeId ∧ (up.apply env.now r).name = r.name :=
    ⟨rfl, rfl⟩
  have hrewrite := rewrite_plan hkeys n now (valid.ownIpv6.getD node.ownIpv6)
    (valid.endpointHost.getD node.endpointHost) hmem hkey
  rw [show (addressPlan n node valid (db.listIbgpPeersByRemote n)).changes =
    (planPropagation (db.listIbgpPeersByRemote n) (valid.ownIpv6.getD node.ownIpv6)
      (valid.endpointHost.getD node.endpointHost)).changes from rfl, hrewrite] at hfinal
  simp only [PeerEdit.Kept, PeerEdit.Agrees, hfinal, hr, Option.some.injEq, forall_eq',
    effectiveHost_of_plan hvalid hnode]
  refine forall₂_congr fun host p => forall_congr' fun hsplit => ?_
  by_cases hlinked : r.remoteNodeId = some n
  · rw [if_pos hlinked, endpoint_rewrite_rowChanges hkey]
    obtain ⟨hnil, -, hsame⟩ | ⟨newHost, oldHost, oldPort, hhost, hne, hold, hdiffers, hone, -⟩ :=
      planEndpoint_cases (valid.endpointHost.getD node.endpointHost) r
    · -- nothing is planned for this endpoint
      constructor
      · intro _ _ newHost oldHost oldPort hhost hne hold hdiffers
        exact absurd (hsame newHost oldHost oldPort hhost hne hold) hdiffers
      · intro _
        rw [hnil]
        show endpointPort (up.endpoint.getD []) = some p
        rw [hup]
        exact endpointPort_of_split hsplit
    · rw [hone]
      show endpointPort (formatEndpoint newHost oldPort) = some p ↔ _
      rw [endpointPort_formatEndpoint, Option.some.injEq]
      constructor
      · intro hp _ newHost' oldHost' oldPort' hhost' _ hold' _
        rw [hold] at hold'
        cases hold'
        exact hp
      · exact fun hagrees => hagrees hlinked newHost oldHost oldPort hhost hne hold hdiffers
  · rw [if_neg hlinked]
    refine ⟨fun _ habsurd => absurd habsurd hlinked, fun _ => ?_⟩
    show endpointPort (up.endpoint.getD []) = some p
    rw [hup]
    exact endpointPort_of_split hsplit

/-- A change that commits before the plan is planned with. -/
theorem modify_beforePlan (hkeys : db.NamesUnique) {env : PeerEnv} {cfg : Str}
    {a : IbgpModifyArgs} {found : Str × Str × IbgpRow} {port : Int} {u : Unit} {db₁ db₂ : Db}
    {valid : NodeFields} {node : ManagedNode}
    (hedit : eval (PeerEdit.run (.modify env cfg a found port)) db = (.ok u, db₁))
    (hrows : db₂.ibgpPeers = db₁.ibgpPeers.map (IbgpRow.rewrite now
      (addressPlan n node valid (db₁.listIbgpPeersByRemote n)).changes)) :
    (PeerEdit.modify env cfg a found port).Kept db₂ := by
  obtain ⟨up, hup, hupdated, r, -, hr₁⟩ := eval_modify_edit hedit
  intro host p hsplit r₂ hr₂
  rw [getIbgpPeer_map_rewrite hrows, hr₁, Option.map_some, Option.some.injEq] at hr₂
  have hrewrite := rewrite_plan (hkeys.updateWhere hupdated) n now
    (valid.ownIpv6.getD node.ownIpv6) (valid.endpointHost.getD node.endpointHost)
    (List.mem_of_find?_eq_some hr₁) ⟨rfl, rfl⟩
  have hplan : (addressPlan n node valid (db₁.listIbgpPeersByRemote n)).changes =
      (planPropagation (db₁.listIbgpPeersByRemote n) (valid.ownIpv6.getD node.ownIpv6)
        (valid.endpointHost.getD node.endpointHost)).changes := rfl
  have hendpoint : (up.apply env.now r).endpoint = some a.endpoint := hup
  rw [← hr₂, hplan, hrewrite]
  split
  · rw [rewrite_rowChanges]
    dsimp only
    rw [hendpoint]
    exact endpointPort_follow hsplit
  · rw [hendpoint]
    exact endpointPort_of_split hsplit

/-- **Propagation against another writer**: in every interleaving of the plan
and the write with a call that changes or deletes a row, what that call did is
kept exactly when the call does not come between, or agrees with the plan. -/
theorem race_keeps_edit_iff (hkeys : db.NamesUnique) {turn : Turn} {e : PeerEdit}
    (h : Machine.exec (raceStep now n fields) ⟨db, none⟩ (turn.schedule e) = some s') :
    e.Kept s'.db ↔ (turn = .between → e.Agrees n fields db) := by
  cases turn with
  | beforePlan =>
      obtain ⟨s₁, h₁, h⟩ := Machine.exec_cons_eq_some _ h
      obtain ⟨s₂, h₂, h⟩ := Machine.exec_cons_eq_some _ h
      obtain ⟨s₃, h₃, h⟩ := Machine.exec_cons_eq_some _ h
      obtain rfl := Option.some.inj h
      obtain ⟨u, hedit, -⟩ := raceStep_edit h₁
      obtain ⟨valid, node, hvalid, hnode, rfl⟩ := raceStep_plan h₂
      have hrows := raceStep_write rfl h₃
      refine ⟨fun _ hturn => (by cases hturn), fun _ => ?_⟩
      cases e with
      | modify env cfg a found port => exact modify_beforePlan hkeys hedit hrows
      | delete env cfg name m => exact delete_kept_write (delete_kept hedit) hrows
  | between =>
      obtain ⟨s₁, h₁, h⟩ := Machine.exec_cons_eq_some _ h
      obtain ⟨s₂, h₂, h⟩ := Machine.exec_cons_eq_some _ h
      obtain ⟨s₃, h₃, h⟩ := Machine.exec_cons_eq_some _ h
      obtain rfl := Option.some.inj h
      obtain ⟨valid, node, hvalid, hnode, rfl⟩ := raceStep_plan h₁
      obtain ⟨u, hedit, hplanned⟩ := raceStep_edit h₂
      have hrows := raceStep_write hplanned h₃
      cases e with
      | modify env cfg a found port =>
          exact (modify_between hkeys hvalid hnode hedit hrows).trans
            ⟨fun hagrees _ => hagrees, fun hagrees => hagrees rfl⟩
      | delete env cfg name m =>
          exact ⟨fun _ _ => trivial, fun _ => delete_kept_write (delete_kept hedit) hrows⟩
  | afterWrite =>
      obtain ⟨s₁, h₁, h⟩ := Machine.exec_cons_eq_some _ h
      obtain ⟨s₂, h₂, h⟩ := Machine.exec_cons_eq_some _ h
      obtain ⟨s₃, h₃, h⟩ := Machine.exec_cons_eq_some _ h
      obtain rfl := Option.some.inj h
      obtain ⟨u, hedit, -⟩ := raceStep_edit h₃
      refine ⟨fun _ hturn => (by cases hturn), fun _ => ?_⟩
      cases e with
      | modify env cfg a found port =>
          obtain ⟨up, hup, -, r, -, hr⟩ := eval_modify_edit hedit
          intro host p hsplit r' hr'
          rw [hr, Option.some.injEq] at hr'
          rw [← hr', show (up.apply env.now r).endpoint = some a.endpoint from hup]
          exact endpointPort_of_split hsplit
      | delete env cfg name m => exact delete_kept hedit

end Race

/-! ### a port that is put back -/

/-- The row of `b` that is linked to `a`, as it is stored. -/
def storedRow : IbgpRow :=
  { meshRow (lit "old.net:51820") with createdAt := lit "t1", updatedAt := lit "t1" }

/-- `b`'s row gets another port. -/
def portArgs (endpoint : Str) : IbgpModifyArgs :=
  { name := lit "to_a", peerPublicKey := lit "peer", endpoint, peerLla := lit "fe80::2",
    netBackend := lit "networkd", babelRxcost := 96, babelType := lit "tunnel",
    peerIp := lit "fd00::9", nodeId := some (lit "b") }

def portEdit (endpoint : Str) : PeerEdit :=
  .modify (sampleEnv (lit "t2")) (lit "a") (portArgs endpoint)
    (lit "networkd", lit "to_a", storedRow) 51821

def sampleRace (turn : Turn) (e : PeerEdit) : Option AddressRace :=
  Machine.exec (raceStep (lit "t3") (lit "a") { endpointHost := .set (some (lit "new.net")) })
    ⟨meshDb (lit "old.net:51820"), none⟩ (turn.schedule e)

/-- The call reads the row, commits `new.net:40000` between the plan and the
write, and the row ends with the old port. -/
theorem planned_port_put_back :
    (meshDb (lit "old.net:51820")).NamesUnique ∧
    (eval (modifyIbgpRead (lit "a") (portArgs (lit "new.net:40000")))
      (meshDb (lit "old.net:51820"))).1 = .ok (lit "networkd", lit "to_a", storedRow) ∧
    splitEndpoint (lit "new.net:40000") = .ok (lit "new.net", 40000) ∧
    ∃ s r, sampleRace .between (portEdit (lit "new.net:40000")) = some s ∧
      s.db.getIbgpPeer (lit "b") (lit "to_a") = some r ∧
      r.endpoint = some (lit "new.net:51820") ∧
      ¬ (portEdit (lit "new.net:40000")).Kept s.db := by
  have hrun : ∃ s r, sampleRace .between (portEdit (lit "new.net:40000")) = some s ∧
      s.db.getIbgpPeer (lit "b") (lit "to_a") = some r ∧
      r.endpoint = some (lit "new.net:51820") := ⟨_, _, rfl, rfl, rfl⟩
  obtain ⟨s, r, hs, hr, hendpoint⟩ := hrun
  refine ⟨by decide +kernel, rfl, rfl, s, r, hs, hr, hendpoint, fun hkept => ?_⟩
  have hport := hkept (lit "new.net") 40000 rfl r hr
  rw [hendpoint] at hport
  exact absurd hport (by decide)

theorem race_keeps_edit_sample :
    ∃ s, sampleRace .beforePlan (portEdit (lit "old.net:40000")) = some s ∧
      (portEdit (lit "old.net:40000")).Kept s.db := by
  have hrun : ∃ s, sampleRace .beforePlan (portEdit (lit "old.net:40000")) = some s := ⟨_, rfl⟩
  obtain ⟨s, hs⟩ := hrun
  exact ⟨s, hs, (race_keeps_edit_iff (by decide +kernel) hs).mpr fun hturn => by cases hturn⟩

end Dn42Ctl
