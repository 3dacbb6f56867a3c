import Dn42Ctl.Events
import Dn42Ctl.PeerSpecs
import Dn42Ctl.Updates
import Dn42Ctl.Endpoints
import Mathlib.Data.List.Pairwise

/-!
# Propagation

A node's address stands in the rows of the nodes that peer with it, as the host
of `endpoint` and as `peer_ip`.  `set_node_addresses` first plans which cells
follow, from the rows it reads, and then writes them by `(node_id, name)`.

* `IbgpRow.Follows` — what a row becomes;
* `propagation_exact` — without other writers, exactly that;
* `race_keeps_edit_iff` — with another writer between the plan and the write.
-/

namespace Dn42Ctl

open Text Txn

/-! ## the port of an endpoint -/

/-- The number after the last colon. -/
def endpointPort (endpoint : Str) : Option Nat :=
  (rpartition 58 (strip endpoint)).bind fun parts => decimalValue parts.2

/-- Where an endpoint can be taken apart, its port is this number. -/
theorem endpointPort_of_split {s host : Str} {port : Nat}
    (h : splitEndpoint s = .ok (host, port)) : endpointPort s = some port := by
  obtain ⟨text, digits, hparts, hport, -⟩ := (splitEndpoint_ok_iff s host port).mp h
  rw [endpointPort, hparts.text, rpartition_append (colon_notMem_digits hparts.digits_all)]
  exact hport.2.1

/-- A formatted endpoint ends in its port. -/
theorem formatEndpoint_eq (host : Str) (port : Nat) :
    ∃ front, formatEndpoint host port = front ++ 58 :: ofInt port := by
  obtain ⟨-, h⟩ | ⟨-, h⟩ := formatEndpoint_cases host port
  · exact ⟨_, h⟩
  · exact ⟨_, h⟩

theorem endpointPort_formatEndpoint (host : Str) (port : Nat) :
    endpointPort (formatEndpoint host port) = some port := by
  obtain ⟨front, hfront⟩ := formatEndpoint_eq host port
  have hcolon : 58 ∉ ofInt (port : Int) := by
    intro hc
    have := asciiDigits_ofInt port 58 hc
    omega
  rw [endpointPort, hfront,
    strip_append_digits (by decide) (asciiDigits_ofInt port) (ofInt_ne_nil port),
    rpartition_append hcolon, Option.bind_some]
  exact decimalValue_ofInt port

/-! ## what a row becomes -/

/-- `peer_ip` is the address of the node, where it has one. -/
def followPeerIp (ownIpv6 old : Option Str) : Option Str :=
  match ownIpv6 with
  | none => old
  | some v => if v.isEmpty then old else some v

/-- `endpoint` gets the host of the node, where it has one and there is a port
to keep.  A text that has this host and port already, white space around it
aside, is left as it is. -/
def followEndpoint (endpointHost old : Option Str) : Option Str :=
  match endpointHost with
  | none => old
  | some host =>
      if host.isEmpty then old
      else
        match splitEndpoint (strip (old.getD [])) with
        | .error _ => old
        | .ok (_, port) =>
            if formatEndpoint host port = strip (old.getD []) then old
            else some (formatEndpoint host port)

/-- A row after the address of `n` has changed: a linked row follows, and only
its `updated_at` may differ otherwise; another row is as it was. -/
def IbgpRow.Follows (n : Str) (ownIpv6 endpointHost : Option Str) (r r' : IbgpRow) : Prop :=
  if r.remoteNodeId = some n then
    r' = { r with
      peerIp := followPeerIp ownIpv6 r.peerIp
      endpoint := followEndpoint endpointHost r.endpoint
      updatedAt := r'.updatedAt }
  else r' = r

/-- `UNIQUE(node_id, name)`. -/
def Db.NamesUnique (db : Db) : Prop :=
  db.ibgpPeers.Pairwise fun a b => IbgpRow.is a.nodeId a.name b = false

instance (db : Db) : Decidable db.NamesUnique := inferInstanceAs (Decidable (List.Pairwise _ _))

/-- What is planned for one row. -/
def rowChanges (ownIpv6 endpointHost : Option Str) (row : IbgpRow) : List PropagatedChange :=
  planPeerIp ownIpv6 row ++ (planEndpoint endpointHost row).changes

section Rows

variable {ownIpv6 endpointHost : Option Str} {now : Str}

theorem planPeerIp_cases (ownIpv6 : Option Str) (r : IbgpRow) :
    planPeerIp ownIpv6 r = [] ∧ followPeerIp ownIpv6 r.peerIp = r.peerIp ∨
      ∃ v, planPeerIp ownIpv6 r = [⟨r.nodeId, r.name, .peerIp, r.peerIp, v⟩] ∧
        followPeerIp ownIpv6 r.peerIp = some v := by
  cases ownIpv6 with
  | none => exact .inl ⟨rfl, rfl⟩
  | some v =>
      simp only [planPeerIp, followPeerIp]
      cases hv : v.isEmpty with
      | true => exact .inl ⟨by simp, by simp⟩
      | false =>
          by_cases hsame : r.peerIp = some v
          · exact .inl ⟨by simp [hsame], by simp [hsame]⟩
          · exact .inr ⟨v, by simp [hsame], by simp⟩

theorem planEndpoint_cases (endpointHost : Option Str) (r : IbgpRow) :
    (planEndpoint endpointHost r).changes = [] ∧
        followEndpoint endpointHost r.endpoint = r.endpoint ∧
        (∀ host host' port, endpointHost = some host → host.isEmpty = false →
          splitEndpoint (strip (r.endpoint.getD [])) = .ok (host', port) →
          formatEndpoint host port = strip (r.endpoint.getD [])) ∨
      ∃ host host' port, endpointHost = some host ∧ host.isEmpty = false ∧
        splitEndpoint (strip (r.endpoint.getD [])) = .ok (host', port) ∧
        formatEndpoint host port ≠ strip (r.endpoint.getD []) ∧
        (planEndpoint endpointHost r).changes =
          [⟨r.nodeId, r.name, .endpoint, some (strip (r.endpoint.getD [])),
            formatEndpoint host port⟩] ∧
        followEndpoint endpointHost r.endpoint = some (formatEndpoint host port) := by
  cases endpointHost with
  | none => exact .inl ⟨rfl, rfl, by simp⟩
  | some host =>
      simp only [planEndpoint, followEndpoint]
      cases hh : host.isEmpty with
      | true =>
          refine .inl ⟨by simp, by simp, ?_⟩
          rintro _ _ _ ⟨⟩ hne
          rw [hh] at hne
          cases hne
      | false =>
          simp only [Bool.false_eq_true, if_false]
          cases hsplit : splitEndpoint (strip (r.endpoint.getD [])) with
          | error e => exact .inl ⟨by split <;> rfl, rfl, by simp⟩
          | ok found =>
              obtain ⟨host', port⟩ := found
              -- an endpoint that splits is not empty
              have hne : (strip (r.endpoint.getD [])).isEmpty = false := by
                rw [← Bool.not_eq_true, List.isEmpty_iff]
                intro hnil
                rw [hnil] at hsplit
                cases hsplit
              by_cases hsame : formatEndpoint host port = strip (r.endpoint.getD [])
              · refine .inl ⟨by simp [hne, hsame], by simp [hsame], ?_⟩
                rintro _ _ _ ⟨⟩ - ⟨⟩
                exact hsame
              · exact .inr ⟨host, host', port, rfl, hh, rfl, hsame, by simp [hne, hsame],
                  by simp [hsame]⟩

/-- The changes planned for a row name it. -/
theorem key_rowChanges {r : IbgpRow} {c : PropagatedChange}
    (hc : c ∈ rowChanges ownIpv6 endpointHost r) : c.nodeId = r.nodeId ∧ c.name = r.name := by
  obtain hip | hep := List.mem_append.mp hc
  · obtain ⟨hnil, -⟩ | ⟨v, hone, -⟩ := planPeerIp_cases ownIpv6 r
    · rw [hnil] at hip
      cases hip
    · rw [hone, List.mem_singleton] at hip
      rw [hip]
      exact ⟨rfl, rfl⟩
  · obtain ⟨hnil, -⟩ | ⟨_, _, _, -, -, -, -, hone, -⟩ := planEndpoint_cases endpointHost r
    · rw [hnil] at hep
      cases hep
    · rw [hone, List.mem_singleton] at hep
      rw [hep]
      exact ⟨rfl, rfl⟩

/-- The changes planned for a row make it follow. -/
theorem rewrite_rowChanges (r : IbgpRow) :
    r.rewrite now (rowChanges ownIpv6 endpointHost r) = { r with
      peerIp := followPeerIp ownIpv6 r.peerIp
      endpoint := followEndpoint endpointHost r.endpoint
      updatedAt := (r.rewrite now (rowChanges ownIpv6 endpointHost r)).updatedAt } := by
  rw [rowChanges]
  obtain ⟨hip, hfip⟩ | ⟨v, hip, hfip⟩ := planPeerIp_cases ownIpv6 r
  · obtain ⟨hep, hfep, -⟩ | ⟨_, _, _, -, -, -, -, hep, hfep⟩ := planEndpoint_cases endpointHost r
    · rw [hip, hep, hfip, hfep]
      rfl
    · rw [hip, hep, hfip, hfep]
      simp [IbgpRow.rewrite, PropagatedChange.targets, IbgpRow.is, PropagatedChange.apply]
  · obtain ⟨hep, hfep, -⟩ | ⟨_, _, _, -, -, -, -, hep, hfep⟩ := planEndpoint_cases endpointHost r
    · rw [hip, hep, hfip, hfep]
      simp [IbgpRow.rewrite, PropagatedChange.targets, IbgpRow.is, PropagatedChange.apply]
    · rw [hip, hep, hfip, hfep]
      simp [IbgpRow.rewrite, PropagatedChange.targets, IbgpRow.is, PropagatedChange.apply]

/-- Changes of other rows leave a row alone. -/
theorem rewrite_other {cs : List PropagatedChange} {r : IbgpRow}
    (h : ∀ c ∈ cs, c.targets r = false) : r.rewrite now cs = r := by
  induction cs with
  | nil => rfl
  | cons c cs ih =>
      rw [IbgpRow.rewrite, List.foldl_cons, h c (List.mem_cons_self ..)]
      exact ih fun x hx => h x (List.mem_cons_of_mem _ hx)

theorem rewrite_append_list (cs ds : List PropagatedChange) (r : IbgpRow) :
    r.rewrite now (cs ++ ds) = (r.rewrite now cs).rewrite now ds := List.foldl_append

/-- Changes planned for rows with other keys. -/
theorem not_targets_rowChanges {rows : List IbgpRow} {r : IbgpRow}
    (h : ∀ s ∈ rows, IbgpRow.is s.nodeId s.name r = false) :
    ∀ c ∈ rows.flatMap (rowChanges ownIpv6 endpointHost), c.targets r = false := by
  intro c hc
  obtain ⟨s, hs, hc⟩ := List.mem_flatMap.mp hc
  obtain ⟨h1, h2⟩ := key_rowChanges hc
  rw [PropagatedChange.targets, h1, h2]
  exact h s hs

end Rows

/-! ## the plan of a database -/

theorem IbgpRow.is_comm (a b : IbgpRow) :
    IbgpRow.is a.nodeId a.name b = IbgpRow.is b.nodeId b.name a := by
  rw [Bool.eq_iff_iff]
  simp only [IbgpRow.is, Bool.and_eq_true, beq_iff_eq]
  exact ⟨fun h => ⟨h.1.symm, h.2.symm⟩, fun h => ⟨h.1.symm, h.2.symm⟩⟩

theorem mem_listByRemote {db : Db} {n : Str} {r : IbgpRow} :
    r ∈ db.listIbgpPeersByRemote n ↔ r ∈ db.ibgpPeers ∧ r.remoteNodeId = some n := by
  rw [Db.listIbgpPeersByRemote, List.mem_insertionSort, List.mem_filter, beq_iff_eq]

theorem Db.NamesUnique.apart {db : Db} (h : db.NamesUnique) {r s : IbgpRow}
    (hr : r ∈ db.ibgpPeers) (hs : s ∈ db.ibgpPeers) (hne : s ≠ r) :
    IbgpRow.is s.nodeId s.name r = false := by
  have hsymm : Std.Symm fun a b : IbgpRow => IbgpRow.is a.nodeId a.name b = false :=
    ⟨fun a b hab => by rw [IbgpRow.is_comm]; exact hab⟩
  exact h.forall hs hr hne

theorem Db.NamesUnique.byRemote {db : Db} (h : db.NamesUnique) (n : Str) :
    (db.listIbgpPeersByRemote n).Pairwise fun a b => IbgpRow.is a.nodeId a.name b = false := by
  have hperm := List.perm_insertionSort
    (fun a b : IbgpRow => a.nodeId < b.nodeId ∨ a.nodeId = b.nodeId ∧ a.name ≤ b.name)
    (db.ibgpPeers.filter fun r => r.remoteNodeId == some n)
  rw [Db.listIbgpPeersByRemote]
  refine (hperm.pairwise_iff fun {a b} hab => ?_).mpr (h.sublist List.filter_sublist)
  rw [IbgpRow.is_comm]
  exact hab

/-- **The plan, row by row**: a row that has the key of `r` by now is rewritten
by the changes planned for `r` if `r` is linked, and by none otherwise. -/
theorem rewrite_plan {db : Db} (h : db.NamesUnique) (n now : Str)
    (ownIpv6 endpointHost : Option Str) {r x : IbgpRow} (hr : r ∈ db.ibgpPeers)
    (hkey : x.nodeId = r.nodeId ∧ x.name = r.name) :
    x.rewrite now (planPropagation (db.listIbgpPeersByRemote n) ownIpv6 endpointHost).changes =
      if r.remoteNodeId = some n then x.rewrite now (rowChanges ownIpv6 endpointHost r)
      else x := by
  have hplan : (planPropagation (db.listIbgpPeersByRemote n) ownIpv6 endpointHost).changes =
      (db.listIbgpPeersByRemote n).flatMap (rowChanges ownIpv6 endpointHost) := rfl
  have hx : ∀ s : IbgpRow, IbgpRow.is s.nodeId s.name x = IbgpRow.is s.nodeId s.name r :=
    fun s => by rw [IbgpRow.is, IbgpRow.is, hkey.1, hkey.2]
  rw [hplan]
  split
  · rename_i hlinked
    obtain ⟨before, after, hsplit⟩ := List.append_of_mem (mem_listByRemote.mpr ⟨hr, hlinked⟩)
    have hpair := h.byRemote n
    rw [hsplit, List.pairwise_append, List.pairwise_cons] at hpair
    have hbefore : ∀ s ∈ before, IbgpRow.is s.nodeId s.name x = false := fun s hs => by
      rw [hx]
      exact hpair.2.2 s hs r (List.mem_cons_self ..)
    have hafter : ∀ s ∈ after, IbgpRow.is s.nodeId s.name x = false := fun s hs => by
      rw [hx, IbgpRow.is_comm]
      exact hpair.2.1.1 s hs
    rw [hsplit, List.flatMap_append, List.flatMap_cons, rewrite_append_list,
      rewrite_other (not_targets_rowChanges hbefore), rewrite_append_list]
    refine rewrite_other fun c hc => ?_
    rw [targets_rewrite]
    exact not_targets_rowChanges hafter c hc
  · rename_i hother
    refine rewrite_other (not_targets_rowChanges fun s hs => ?_)
    obtain ⟨hs, hlinked⟩ := mem_listByRemote.mp hs
    rw [hx]
    exact h.apart hr hs fun heq => hother (heq ▸ hlinked)

/-- The rows after the plan was written. -/
theorem follows_plan {db : Db} (h : db.NamesUnique) (n now : Str)
    (ownIpv6 endpointHost : Option Str) :
    List.Forall₂ (IbgpRow.Follows n ownIpv6 endpointHost) db.ibgpPeers
      (db.ibgpPeers.map (IbgpRow.rewrite now
        (planPropagation (db.listIbgpPeersByRemote n) ownIpv6 endpointHost).changes)) := by
  rw [List.forall₂_map_right_iff, List.forall₂_same]
  intro r hr
  rw [rewrite_plan h n now ownIpv6 endpointHost hr ⟨rfl, rfl⟩, IbgpRow.Follows]
  split
  · exact rewrite_rowChanges r
  · rfl

/-! ## planning again -/

/-- **Planning is idempotent**: a row that follows needs no change. -/
theorem rowChanges_of_follows {n : Str} {ownIpv6 endpointHost : Option Str} {r r' : IbgpRow}
    (hhost : ∀ host, endpointHost = some host → host.isEmpty = false → ValidHost host)
    (hlinked : r.remoteNodeId = some n) (h : r.Follows n ownIpv6 endpointHost r') :
    rowChanges ownIpv6 endpointHost r' = [] := by
  rw [IbgpRow.Follows, if_pos hlinked] at h
  have hip : r'.peerIp = followPeerIp ownIpv6 r.peerIp := by rw [h]
  have hep : r'.endpoint = followEndpoint endpointHost r.endpoint := by rw [h]
  rw [rowChanges, List.append_eq_nil_iff]
  constructor
  · cases ownIpv6 with
    | none => rfl
    | some v =>
        cases hv : v.isEmpty with
        | true => simp [planPeerIp, hv]
        | false =>
            have : r'.peerIp = some v := by
              rw [hip, followPeerIp, hv]
              rfl
            simp [planPeerIp, this]
  · obtain ⟨hnil, -⟩ | ⟨host, host', port, rfl, hne, hsplit, hdiffers, -, -⟩ :=
      planEndpoint_cases endpointHost r'
    · exact hnil
    · -- the row was rewritten, so its endpoint has this host
      exfalso
      obtain ⟨-, hkept, -⟩ | ⟨host₀, host₀', port₀, hhost₀, -, hsplit₀, -, -, hnew⟩ :=
        planEndpoint_cases (some host) r
      · rw [hkept] at hep
        rw [hep] at hsplit hdiffers
        have hfollow := hkept
        simp only [followEndpoint, hne, Bool.false_eq_true, if_false, hsplit, if_neg hdiffers]
          at hfollow
        rw [← hfollow, Option.getD_some, strip_formatEndpoint (hhost host rfl hne)] at hdiffers
        exact hdiffers rfl
      · obtain rfl := Option.some.inj hhost₀
        rw [hnew] at hep
        rw [hep, Option.getD_some, strip_formatEndpoint (hhost host rfl hne)] at hsplit hdiffers
        have hport := endpointPort_of_split hsplit
        rw [endpointPort_formatEndpoint, Option.some.injEq] at hport
        rw [hport] at hdiffers
        exact hdiffers rfl

/-! ## the two steps of the call -/

/-- The plan with the warnings about the node itself. -/
def addressPlan (nodeId : Str) (node : ManagedNode) (fields : NodeFields) (rows : List IbgpRow) :
    PropagationPlan :=
  let plan := effectivePlan node fields rows
  let ipv6 := fields.ownIpv6.getD node.ownIpv6
  let host := fields.endpointHost.getD node.endpointHost
  let noRows : List Msg :=
    if rows.isEmpty && (ipv6.any (fun s => !s.isEmpty) || host.any fun s => !s.isEmpty) then
      [[.text (lit "没有任何 iBGP peer 行的 remote_node_id 指向 "), .text nodeId,
        .text (lit ",本次改动不会传播到 mesh")]]
    else []
  let noIpv6 : List Msg :=
    if ipv6.isNone && !rows.isEmpty then
      [[.text (lit "own_ipv6 未设置,指向该节点的 peer_ip 保持原值")]]
    else []
  { plan with warnings := plan.warnings ++ noRows ++ noIpv6 }

/-- What `set_node_addresses` does before it writes: check the values, read the
node and the rows that point at it, and plan. -/
def planAddresses (nodeId : Str) (fields : NodeFields) :
    DbTx (NodeFields × ManagedNode × PropagationPlan) := do
  let endpointHost ← check (validated validateEndpointHost fields.endpointHost)
  let ownIpv6 ← check (validated (fun v => validateIpv6Address v (lit "own_ipv6")) fields.ownIpv6)
  let routerId ← check (validated validateRouterId fields.routerId)
  let valid := { fields with endpointHost, ownIpv6, routerId }
  match ← ManagedNodeStore.get nodeId with
  | none => fail (dn42CtlError [.text (lit "managed node 不存在: "), .text nodeId])
  | some node => do
      let rows ← Database.listIbgpPeersByRemote nodeId
      pure (valid, node, addressPlan nodeId node valid rows)

/-- What it does with the plan. -/
def writeAddresses (now nodeId : Str) (dryRun : Bool)
    (planned : NodeFields × ManagedNode × PropagationPlan) : DbTx NodeAddressUpdate :=
  if dryRun then pure ⟨planned.2.1, planned.2.2.changes, planned.2.2.warnings, true⟩
  else do
    let updated ← ManagedNodeStore.applyAddressUpdate now nodeId planned.1 planned.2.2.changes
    pure ⟨updated, planned.2.2.changes, planned.2.2.warnings, false⟩

/-- A call that propagates is its two steps. -/
theorem setNodeAddresses_eq (now n : Str) (fields : NodeFields) (dryRun : Bool) :
    setNodeAddresses now n fields true dryRun = (do
      let planned ← planAddresses n fields
      writeAddresses now n dryRun planned) := by
  rw [setNodeAddresses, planAddresses, Prog.bind_assoc]
  refine congrArg _ (funext fun endpointHost => ?_)
  rw [Prog.bind_assoc]
  refine congrArg _ (funext fun ownIpv6 => ?_)
  rw [Prog.bind_assoc]
  refine congrArg _ (funext fun routerId => ?_)
  dsimp only
  rw [Prog.bind_assoc]
  refine congrArg _ (funext fun found => ?_)
  cases found with
  | none => rfl
  | some node =>
      dsimp only
      rw [if_pos rfl, Prog.bind_assoc]
      refine congrArg _ (funext fun rows => ?_)
      rfl

/-- The values of a call after their checks. -/
structure ValidatedFields (fields valid : NodeFields) : Prop where
  endpointHost : validated validateEndpointHost fields.endpointHost = .ok valid.endpointHost
  ownIpv6 : validated (fun v => validateIpv6Address v (lit "own_ipv6")) fields.ownIpv6 =
    .ok valid.ownIpv6
  routerId : validated validateRouterId fields.routerId = .ok valid.routerId
  others : valid = { fields with
    endpointHost := valid.endpointHost, ownIpv6 := valid.ownIpv6, routerId := valid.routerId }

theorem readOnly_planAddresses (n : Str) (fields : NodeFields) :
    ReadOnly (planAddresses n fields) := by
  refine .bind (readOnly_check _) fun _ => .bind (readOnly_check _) fun _ =>
    .bind (readOnly_check _) fun _ => .bind (.queryOr ..) fun found => ?_
  cases found with
  | none => exact .fail _
  | some node => exact .bind (.queryOr ..) fun _ => .pure _

section Plan

variable {n : Str} {fields valid : NodeFields} {db : Db}

/-- **The plan**: it returns exactly when the values pass, the node's id can be
bound and the node exists. -/
theorem eval_planAddresses {node : ManagedNode} {plan : PropagationPlan} {db' : Db} :
    eval (planAddresses n fields) db = (.ok (valid, node, plan), db') ↔
      ValidatedFields fields valid ∧ params [.text n] = none ∧ db.getNode n = some node ∧
        plan = addressPlan n node valid (db.listIbgpPeersByRemote n) ∧ db' = db := by
  constructor
  · intro h
    obtain ⟨host, h1, h⟩ := Atomic.eval_bind_read (readOnly_check _) h
    obtain ⟨ipv6, h2, h⟩ := Atomic.eval_bind_read (readOnly_check _) h
    obtain ⟨routerId, h3, h⟩ := Atomic.eval_bind_read (readOnly_check _) h
    obtain ⟨c', hrun, hc⟩ := eval_eq_ok.mp h
    obtain ⟨hb, hrun⟩ := bind_queryOr hrun
    cases hnode : db.getNode n with
    | none =>
        rw [hnode] at hrun
        cases hrun
    | some found =>
        rw [hnode] at hrun
        obtain ⟨-, hrun⟩ := bind_queryOr hrun
        rw [Prog.run_pure, Prod.mk.injEq, Except.ok.injEq, Prod.mk.injEq, Prod.mk.injEq] at hrun
        obtain ⟨⟨rfl, rfl, rfl⟩, rfl⟩ := hrun
        exact ⟨⟨(eval_check.mp h1).1, (eval_check.mp h2).1, (eval_check.mp h3).1, rfl⟩, hb, rfl,
          rfl, hc.symm⟩
  · rintro ⟨hvalid, hb, hnode, rfl, rfl⟩
    refine eval_eq_ok.mpr ⟨⟨db', db', false, none, false⟩, ?_, rfl⟩
    rw [planAddresses, hvalid.endpointHost, Prog.run_bind_ok (run_check_eq_ok.mpr ⟨rfl, rfl⟩),
      hvalid.ownIpv6, Prog.run_bind_ok (run_check_eq_ok.mpr ⟨rfl, rfl⟩), hvalid.routerId,
      Prog.run_bind_ok (run_check_eq_ok.mpr ⟨rfl, rfl⟩)]
    dsimp only
    rw [ManagedNodeStore.get, hb, Prog.run_bind_ok (run_queryOr_none ..), hnode]
    dsimp only
    rw [Database.listIbgpPeersByRemote, hb, Prog.run_bind_ok (run_queryOr_none ..), ← hvalid.others]
    rfl

end Plan

/-! ## exactness -/

/-- What the write leaves. -/
theorem eval_applyAddressUpdate {now n : Str} {f : NodeFields} {cs : List PropagatedChange}
    {db db' : Db} {node : ManagedNode}
    (h : eval (ManagedNodeStore.applyAddressUpdate now n f cs) db = (.ok node, db')) :
    db'.ibgpPeers = db.ibgpPeers.map (IbgpRow.rewrite now cs) ∧
      db'.managedNodes =
        Rows.updateWhere (fun m => m.nodeId == n) (f.apply now) db.managedNodes ∧
      Frame [.managedNodes, .ibgpPeers] db.tables db'.tables := by
  obtain ⟨mid, hmid, rfl⟩ := eval_updateFields h
  have hframe : Frame [.managedNodes, .ibgpPeers] db mid :=
    Call.commit_frame (.applyAddressUpdate n f cs) hmid
  obtain ⟨-, -, rfl⟩ := commitFields_eq_some hmid
  have htables := tables_emitAll now (ManagedNodeStore.addressEvents n f cs)
    (((db.updateNodes n (f.apply now)).2).applyChanges now cs)
  refine ⟨?_, ?_, ?_⟩
  · exact (congrArg Db.ibgpPeers htables).trans (ibgpPeers_applyChanges now cs _)
  · exact (congrArg Db.managedNodes htables).trans (applyChanges_managedNodes now cs _)
  · rw [htables]
    exact hframe.tables

/-- Neither cell of the row was blanked. -/
def IbgpRow.NotBlanked (r r' : IbgpRow) : Prop :=
  (r'.peerIp = r.peerIp ∨ ∃ s, s ≠ [] ∧ r'.peerIp = some s) ∧
    (r'.endpoint = r.endpoint ∨ ∃ s, s ≠ [] ∧ r'.endpoint = some s)

theorem IbgpRow.Follows.notBlanked {n : Str} {ownIpv6 endpointHost : Option Str} {r r' : IbgpRow}
    (h : r.Follows n ownIpv6 endpointHost r') : r.NotBlanked r' := by
  rw [IbgpRow.Follows] at h
  split at h
  · rw [h]
    constructor
    · show followPeerIp ownIpv6 r.peerIp = r.peerIp ∨ _
      cases ownIpv6 with
      | none => exact .inl rfl
      | some v =>
          cases v with
          | nil => exact .inl rfl
          | cons c v => exact .inr ⟨c :: v, by simp, rfl⟩
    · obtain ⟨-, hkept, -⟩ | ⟨host, _, port, -, -, -, -, -, hnew⟩ :=
        planEndpoint_cases endpointHost r
      · exact .inl hkept
      · refine .inr ⟨formatEndpoint host port, ?_, hnew⟩
        obtain ⟨front, hfront⟩ := formatEndpoint_eq host port
        rw [hfront]
        simp
  · rw [h]
    exact ⟨.inl rfl, .inl rfl⟩

theorem IbgpRow.Follows.remote {n : Str} {ownIpv6 endpointHost : Option Str} {r r' : IbgpRow}
    (h : r.Follows n ownIpv6 endpointHost r') : r'.remoteNodeId = r.remoteNodeId := by
  rw [IbgpRow.Follows] at h
  split at h
  · rw [h]
  · rw [h]

/-- A validator that passes has returned, for a given value. -/
theorem validHost_of_validated {p q : Patch (Option Str)}
    (h : validated validateEndpointHost p = .ok q) {host : Str} (hq : q = .set (some host)) :
    ValidHost host := by
  cases p with
  | unset => cases h; cases hq
  | set v =>
      cases v with
      | none => cases h; cases hq
      | some given =>
          rw [validated] at h
          cases hv : validateEndpointHost given with
          | error e =>
              rw [hv] at h
              cases h
          | ok found =>
              rw [hv, hq] at h
              have hfound : found = host := by simpa [Except.map, Except.mapError] using h
              exact ⟨given, hfound ▸ hv⟩

theorem ValidatedFields.unique {fields valid valid' : NodeFields}
    (h : ValidatedFields fields valid) (h' : ValidatedFields fields valid') : valid' = valid := by
  have h1 := Except.ok.inj (h.endpointHost.symm.trans h'.endpointHost)
  have h2 := Except.ok.inj (h.ownIpv6.symm.trans h'.ownIpv6)
  have h3 := Except.ok.inj (h.routerId.symm.trans h'.routerId)
  rw [h.others, h'.others, h1, h2, h3]

theorem Patch.getD_getD {α : Type} (p : Patch α) (a : α) : p.getD (p.getD a) = p.getD a := by
  cases p with
  | unset => rfl
  | set v => rfl

theorem exists_of_forall₂ {α β : Type} {R : α → β → Prop} {l : List α} {l' : List β}
    (h : List.Forall₂ R l l') {b : β} (hb : b ∈ l') : ∃ a ∈ l, R a b := by
  induction h with
  | nil => cases hb
  | cons hab _ ih =>
      obtain rfl | hb := List.mem_cons.mp hb
      · exact ⟨_, List.mem_cons_self .., hab⟩
      · obtain ⟨a, ha, hR⟩ := ih hb
        exact ⟨a, List.mem_cons_of_mem _ ha, hR⟩

theorem atomic_setNodeAddresses (now n : Str) (fields : NodeFields) (dryRun : Bool) :
    Atomic true (setNodeAddresses now n fields true dryRun) := by
  rw [setNodeAddresses_eq]
  apply Atomic.bind_read (readOnly_planAddresses n fields)
  intro planned
  rw [writeAddresses]
  split
  · exact .pure _
  · exact (atomic_updateFields now n _ _ _).map _

section Exact

variable {now n : Str} {fields : NodeFields} {db db' : Db} {upd : NodeAddressUpdate}

/-- What a call that returned has written. -/
theorem setNodeAddresses_writes (hkeys : db.NamesUnique)
    (h : eval (setNodeAddresses now n fields true false) db = (.ok upd, db')) :
    ∃ node valid, eval (planAddresses n fields) db =
        (.ok (valid, node, addressPlan n node valid (db.listIbgpPeersByRemote n)), db) ∧
      db.getNode n = some node ∧ ValidatedFields fields valid ∧
      upd.changes = (addressPlan n node valid (db.listIbgpPeersByRemote n)).changes ∧
      upd.warnings = (addressPlan n node valid (db.listIbgpPeersByRemote n)).warnings ∧
      List.Forall₂ (IbgpRow.Follows n (valid.ownIpv6.getD node.ownIpv6)
        (valid.endpointHost.getD node.endpointHost)) db.ibgpPeers db'.ibgpPeers ∧
      db'.managedNodes =
        Rows.updateWhere (fun m => m.nodeId == n) (valid.apply now) db.managedNodes ∧
      Frame [.managedNodes, .ibgpPeers] db.tables db'.tables := by
  rw [setNodeAddresses_eq] at h
  obtain ⟨⟨valid, node, plan⟩, hplan, h⟩ :=
    Atomic.eval_bind_read (readOnly_planAddresses n fields) h
  obtain ⟨hvalid, hb, hnode, rfl, -⟩ := eval_planAddresses.mp hplan
  rw [writeAddresses, if_neg Bool.false_ne_true] at h
  obtain ⟨updated, mid, hwrite, h⟩ :=
    (atomic_updateFields now n valid _ _).eval_bind h
  obtain ⟨rfl, rfl⟩ := eval_pure.mp h
  obtain ⟨hrows, hnodes, hframe⟩ := eval_applyAddressUpdate hwrite
  have hfollows : List.Forall₂ (IbgpRow.Follows n (valid.ownIpv6.getD node.ownIpv6)
      (valid.endpointHost.getD node.endpointHost)) db.ibgpPeers db'.ibgpPeers := by
    rw [hrows]
    exact follows_plan hkeys n now _ _
  exact ⟨node, valid, hplan, hnode, hvalid, rfl, rfl, hfollows, hnodes, hframe⟩

/-- **Propagation is exact, framed and idempotent.** -/
theorem propagation_exact (hkeys : db.NamesUnique)
    (h : eval (setNodeAddresses now n fields true false) db = (.ok upd, db')) :
    ∃ node valid, db.getNode n = some node ∧ ValidatedFields fields valid ∧
      -- the rows of the mesh
      List.Forall₂ (IbgpRow.Follows n (valid.ownIpv6.getD node.ownIpv6)
        (valid.endpointHost.getD node.endpointHost)) db.ibgpPeers db'.ibgpPeers ∧
      List.Forall₂ IbgpRow.NotBlanked db.ibgpPeers db'.ibgpPeers ∧
      -- the node and everything else
      db'.managedNodes =
        Rows.updateWhere (fun m => m.nodeId == n) (valid.apply now) db.managedNodes ∧
      Frame [.managedNodes, .ibgpPeers] db.tables db'.tables ∧
      -- a dry run
      (∃ dry, eval (setNodeAddresses now n fields true true) db = (.ok dry, db) ∧
        dry.changes = upd.changes ∧ dry.warnings = upd.warnings) ∧
      -- the same call again
      ((valid.endpointHost = .unset → ∀ host, node.endpointHost = some host →
          host.isEmpty = false → ValidHost host) →
        ∀ now' dryRun again db'',
          eval (setNodeAddresses now' n fields true dryRun) db' = (.ok again, db'') →
          again.changes = []) := by
  obtain ⟨node, valid, hplan, hnode, hvalid, hchanges, hwarnings, hfollows, hnodes, hframe⟩ :=
    setNodeAddresses_writes hkeys h
  refine ⟨node, valid, hnode, hvalid, hfollows, hfollows.imp fun _ _ hf => hf.notBlanked, hnodes,
    hframe, ?_, fun hhost now' dryRun again db'' hagain => ?_⟩
  · refine ⟨⟨node, (addressPlan n node valid (db.listIbgpPeersByRemote n)).changes,
      (addressPlan n node valid (db.listIbgpPeersByRemote n)).warnings, true⟩, ?_,
      hchanges.symm, hwarnings.symm⟩
    rw [setNodeAddresses_eq]
    obtain ⟨c', hrun, hc⟩ := eval_eq_ok.mp hplan
    refine eval_eq_ok.mpr ⟨c', ?_, hc⟩
    rw [Prog.run_bind_ok hrun]
    rfl
  · rw [setNodeAddresses_eq] at hagain
    obtain ⟨⟨valid', node', plan'⟩, hplan', hagain⟩ :=
      Atomic.eval_bind_read (readOnly_planAddresses n fields) hagain
    obtain ⟨hvalid', -, hnode', rfl, -⟩ := eval_planAddresses.mp hplan'
    obtain rfl := hvalid.unique hvalid'
    -- the node has its new values, so the effective values are the same
    have hnode'' : db'.getNode n = some (valid'.apply now node) := by
      have hfind := @Rows.find?_updateWhere_self _ (fun m : ManagedNode => m.nodeId == n)
        (valid'.apply now) db.managedNodes fun _ _ _ => rfl
      rw [Db.getNode, hnodes, hfind, show db.managedNodes.find? _ = some node from hnode]
      rfl
    obtain rfl := Option.some.inj (hnode''.symm.trans hnode')
    have hnothing : (addressPlan n (valid'.apply now node) valid'
        (db'.listIbgpPeersByRemote n)).changes = [] := by
      refine List.flatMap_eq_nil_iff.mpr fun r' hr' => ?_
      obtain ⟨hr', hlinked⟩ := mem_listByRemote.mp hr'
      obtain ⟨r, -, hfollow⟩ := exists_of_forall₂ hfollows hr'
      rw [show (valid'.apply now node).ownIpv6 = valid'.ownIpv6.getD node.ownIpv6 from rfl,
        show (valid'.apply now node).endpointHost =
          valid'.endpointHost.getD node.endpointHost from rfl, Patch.getD_getD, Patch.getD_getD]
      refine rowChanges_of_follows (fun host heff hne => ?_) (hfollow.remote ▸ hlinked) hfollow
      cases hset : valid'.endpointHost with
      | unset =>
          rw [hset] at heff
          exact hhost hset host heff hne
      | set v =>
          rw [hset] at heff
          exact validHost_of_validated hvalid.endpointHost (by rw [hset]; exact congrArg _ heff)
    rw [writeAddresses] at hagain
    split at hagain
    · obtain ⟨rfl, -⟩ := eval_pure.mp hagain
      exact hnothing
    · obtain ⟨_, _, -, hagain⟩ := (atomic_updateFields now' n valid' _ _).eval_bind hagain
      obtain ⟨rfl, -⟩ := eval_pure.mp hagain
      exact hnothing

end Exact

/-! ### a mesh of two nodes -/

/-- A row of `b` that is linked to `a`. -/
def meshRow (endpoint : Str) : IbgpPeerRecord :=
  { nodeId := lit "b", ifname := lit "wg_to_a", wgPrivateKey := lit "priv",
    wgPublicKey := lit "pub", peerPublicKey := some (lit "peer"), endpoint := some endpoint,
    localLla := lit "fe80::1", peerLla := some (lit "fe80::2"), listenPort := 51821,
    allowedIps := [lit "::/0"], netBackend := lit "networkd", name := lit "to_a",
    babelRxcost := 96, peerIp := some (lit "fd00::9"), remoteNodeId := some (lit "a") }

def meshRun (endpoint : Str) : List HubAction :=
  [⟨.call (.addNode (lit "a") (lit "alpha")), lit "t0", none, false⟩,
    ⟨.call (.addNode (lit "b") (lit "beta")), lit "t0", none, false⟩,
    ⟨.call (.insertIbgpPeer (meshRow endpoint)), lit "t1", none, false⟩]

def meshDb (endpoint : Str) : Db := (Machine.exec hubStep Db.empty (meshRun endpoint)).getD Db.empty

/-- `set_node_addresses(a, endpoint_host = host)`. -/
def sampleUpdate (host : Str) (dryRun : Bool := false) : DbTx NodeAddressUpdate :=
  setNodeAddresses (lit "t2") (lit "a") { endpointHost := .set (some host) } true dryRun

/-- The mesh with these addresses stored for `a`. -/
def storedDb (ownIpv6 endpointHost : Option Str) : Db :=
  { meshDb (lit "old.net:51820") with
    managedNodes := (meshDb (lit "old.net:51820")).managedNodes.map fun m =>
      if m.nodeId = lit "a" then { m with ownIpv6, endpointHost } else m }

/-- `set_node_addresses(a, router_id = None)`. -/
def clearRouterId : DbTx NodeAddressUpdate :=
  setNodeAddresses (lit "t2") (lit "a") { routerId := .set none } true false

/-- An endpoint with white space before it has this host already: it can be
taken apart, and is left as it is. -/
theorem spaced_endpoint_kept :
    ∃ upd db' r r', eval (sampleUpdate (lit "old.net")) (meshDb (lit " old.net:51820")) =
        (.ok upd, db') ∧
      (meshDb (lit " old.net:51820")).ibgpPeers = [r] ∧ r.remoteNodeId = some (lit "a") ∧
      splitEndpoint (r.endpoint.getD []) = .ok (lit "old.net", 51820) ∧
      db'.ibgpPeers = [r'] ∧
      r'.endpoint ≠ some (formatEndpoint (lit "old.net") 51820) := by
  refine ⟨_, _, _, _, Prod.ext rfl rfl, rfl, rfl, rfl, rfl, ?_⟩
  decide +kernel

/-- Stored addresses that are empty, not NULL, count as unset. -/
theorem empty_addresses_kept :
    ∃ upd db' r', eval clearRouterId (storedDb (some []) (some [])) = (.ok upd, db') ∧
      db'.ibgpPeers = [r'] ∧ r'.remoteNodeId = some (lit "a") ∧
      r'.peerIp = some (lit "fd00::9") ∧ r'.endpoint = some (lit "old.net:51820") :=
  ⟨_, _, _, Prod.ext rfl rfl, rfl, rfl, rfl, rfl⟩

/-- A stored host that no validator returns is planned again after it was
written. -/
theorem bracketed_host_planned_again :
    ∃ upd db' again db'', eval clearRouterId (storedDb none (some (lit "[ x ]"))) = (.ok upd, db') ∧
      eval clearRouterId db' = (.ok again, db'') ∧ again.changes ≠ [] := by
  refine ⟨_, _, _, _, Prod.ext rfl rfl, Prod.ext rfl rfl, ?_⟩
  decide +kernel

/-- **Propagation is not exact**: an endpoint that parses keeps its white space,
an empty own_ipv6 that is not NULL is not propagated, and a call is planned again. -/
theorem propagation_not_exact :
    (∃ upd db' r r', eval (sampleUpdate (lit "old.net")) (meshDb (lit " old.net:51820")) =
        (.ok upd, db') ∧
      (meshDb (lit " old.net:51820")).ibgpPeers = [r] ∧ r.remoteNodeId = some (lit "a") ∧
      splitEndpoint (r.endpoint.getD []) = .ok (lit "old.net", 51820) ∧
      db'.ibgpPeers = [r'] ∧ r'.endpoint ≠ some (formatEndpoint (lit "old.net") 51820)) ∧
    (∃ upd db' r', eval clearRouterId (storedDb (some []) (some [])) = (.ok upd, db') ∧
      db'.ibgpPeers = [r'] ∧ r'.remoteNodeId = some (lit "a") ∧
      r'.peerIp = some (lit "fd00::9") ∧ r'.endpoint = some (lit "old.net:51820")) ∧
    ∃ upd db' again db'', eval clearRouterId (storedDb none (some (lit "[ x ]"))) = (.ok upd, db') ∧
      eval clearRouterId db' = (.ok again, db'') ∧ again.changes ≠ [] :=
  ⟨spaced_endpoint_kept, empty_addresses_kept, bracketed_host_planned_again⟩

theorem propagation_exact_sample :
    ∃ upd db', eval (sampleUpdate (lit "new.net")) (meshDb (lit "old.net:51820")) = (.ok upd, db') ∧
      List.Forall₂ (IbgpRow.Follows (lit "a") none (some (lit "new.net")))
        (meshDb (lit "old.net:51820")).ibgpPeers db'.ibgpPeers := by
  have hcall : ∃ upd db', eval (sampleUpdate (lit "new.net")) (meshDb (lit "old.net:51820")) =
      (.ok upd, db') := ⟨_, _, Prod.ext rfl rfl⟩
  obtain ⟨upd, db', hcall⟩ := hcall
  obtain ⟨node, valid, hnode, hvalid, hfollows, -⟩ :=
    propagation_exact (by decide +kernel) hcall
  refine ⟨upd, db', hcall, ?_⟩
  have hown : valid.ownIpv6 = .unset := (Except.ok.inj hvalid.ownIpv6).symm
  have hhost : valid.endpointHost = .set (some (lit "new.net")) :=
    (Except.ok.inj hvalid.endpointHost).symm
  have hipv6 : node.ownIpv6 = none := by
    cases hnode
    rfl
  rw [hown, hhost, Patch.getD, hipv6] at hfollows
  exact hfollows

end Dn42Ctl
