import Dn42Ctl.Events
import Dn42Ctl.Lib.Binding

/-!
# AllOrNothing

Database writes are all or nothing, up to one way out that the handlers of the
mutators miss: a parameter the driver cannot convert (an integer outside 64
bits, a text without a UTF-8 encoding) raises an exception that is no
`sqlite3.Error`, after the writing statement has opened its transaction.

`allOrNothing_iff` says which calls these are.
-/

namespace Dn42Ctl

open Text Txn

/-! ## what the writing statements bind -/

/-- The parameters of the writing statements that a call reaches.  A call that
looks its row up first has converted the same parameters for the lookup. -/
def Call.writeParams (db : Db) : Call → List Param
  | .ensureNode n | .touchLastSeen n | .unpin n => [.text n]
  | .insertBgpPeer r =>
      [.text r.nodeId, .int r.peerAsn] ++ Database.baseParams r.toPeerRecordBase
  | .updateBgpPeer n asn u => u.params ++ [.text n, .int asn]
  | .insertIbgpPeer r =>
      [.text r.nodeId, .text r.name] ++ Database.baseParams r.toPeerRecordBase ++
        [.int r.babelRxcost, .ofOption r.peerIp, .text r.babelType, .ofOption r.remoteNodeId]
  | .updateIbgpPeer n name u => u.params ++ [.text n, .text name]
  | .deleteBgpPeer .. | .deleteIbgpPeer .. | .deleteNode .. | .pin .. => []
  | .addNode n name | .upsertSelf n name => [.text n, .text name]
  | .setTokenHash n hash => [.text hash, .text n]
  | .setWritePolicy n policy => if (validateWritePolicy policy).isOk then [.text n] else []
  | .setName n name => [.text name, .text n]
  | .setEnabled n _ => [.text n]
  | .setAddresses n host v6 rid =>
      let fields : NodeFields := { endpointHost := host, ownIpv6 := v6, routerId := rid }
      if fields = {} then [] else fields.params ++ [.text n]
  | .applyAddressUpdate n fields changes =>
      fields.params ++ [.text n] ++
        if (db.getNode n).isSome then
          changes.flatMap fun c => [.text c.new, .text c.nodeId, .text c.name]
        else []
  | .addProposal n source kind payload =>
      if (ProposalSource.ofText source).isSome ∧ (ProposalKind.ofText kind).isSome then
        [.text n, .json (.dict payload)]
      else []
  | .setStatus id _ message => [message.elim .null .message, .int id]
  | .addReport n kind payload =>
      if (ReportKind.ofText kind).isSome then [.text n, .json (.dict payload)] else []
  | .markImported id => [.int id]
  | .record n revision generatedAt payload =>
      if params [.text n, .text revision] = none ∧ db.getByRevision n revision = none then
        [.text n, .text revision, .text generatedAt] ++ payload.params
      else []
  | .trim n keepLatest => [.text n, .int keepLatest]

/-! ## calls whose parameters convert -/

section Tidy

variable {now : Str} {db : Db}

/-- An event binds when the node's name does. -/
theorem bound_emitSyncEvent {n : Str} (hb : params [.text n] = none) (kind : SyncKind) :
    Bound (emitSyncEvent now n kind) :=
  .bind (.execute hb _) fun newId => by
    split
    · exact .modify rfl _
    · exact .pure _

/-- The end of every announcing mutator. -/
theorem bound_emit {n : Str} (hb : params [.text n] = none) (kind : SyncKind) :
    Bound (emitSyncEvent now n kind >>= fun _ => commit) :=
  .bind (bound_emitSyncEvent hb kind) fun _ => .commit

theorem bound_requireMatched {ρ : Type} (rowcount : Nat) {bd : Option BindError} (hb : bd = none)
    (lookup : Db → Option ρ) (missing : PyError) :
    Bound (Database.requireMatched rowcount (query bd lookup) missing) := by
  rw [Database.requireMatched]
  split
  · exact .bind (.query hb _) fun found => .abortIf _ _
  · exact .pure _

/-- Dropping the value leaves the statements. -/
theorem bound_forEffect {α : Type} {m : DbTx α} (hm : Bound m) : Bound (forEffect m) :=
  .bind hm fun _ => .pure _

/-- No deletion leaves a transaction open at a parameter. -/
theorem tidy_deletePeer {ρ : Type} (msg failed : PyError) {bd : Option BindError}
    (lookup : Db → Option ρ) (delete : Db → Db) {n : Str}
    (hn : bd = none → params [.text n] = none) :
    Tidy (Database.deletePeer (queryOr msg bd lookup) bd delete failed now n) db :=
  .bind_queryOr fun hb => by
    cases lookup db with
    | none => exact .of_bound (.pure _)
    | some r =>
        exact .of_bound (.guarded (.bind (.modify hb _) fun _ =>
          .bind (bound_emitSyncEvent (hn hb) _) fun _ => .bind .commit fun _ => .pure _))

/-- The columns and the cells of `_update_fields`. -/
theorem bound_updateFields {n : Str} {fields : NodeFields} {events : List (Str × SyncKind)}
    {changes : List PropagatedChange} (hfields : params (fields.params ++ [.text n]) = none)
    (hchanges : ∀ c ∈ changes, params [.text c.new, .text c.nodeId, .text c.name] = none)
    (hevents : ∀ e ∈ events, params [.text e.1] = none) :
    Bound (ManagedNodeStore.updateFields now n fields events changes) :=
  .bind (.guarded (.bind (.execute hfields _) fun _ => .bind (.abortIf _ _) fun _ =>
    .bind (.forM fun c hc => .modify (hchanges c hc) _) fun _ =>
      .bind (.forM fun e he => bound_emitSyncEvent (hevents e he) _) fun _ => .commit))
    fun _ => .readBack _ _ (params_append.mp hfields).2 _

/-- `_update_fields` of a node that does not exist reaches neither its changes
nor its events. -/
theorem tidy_updateFields_missing {n : Str} {fields : NodeFields}
    {events : List (Str × SyncKind)} {changes : List PropagatedChange}
    (hfields : params (fields.params ++ [.text n]) = none) (hnode : db.getNode n = none) :
    Tidy (ManagedNodeStore.updateFields now n fields events changes) db := by
  intro c b c' hc hdb h
  have hzero : ((db.updateNodes n (fields.apply now)).1 == 0) = true := by
    rw [beq_iff_eq, Db.updateNodes, countP_eq_zero_iff_find?]
    exact hnode
  have hexec : Bound (execute (params (fields.params ++ [.text n])) fun db =>
      .ok (db.updateNodes n (fields.apply now)) : DbTx Nat) := .execute hfields _
  rw [ManagedNodeStore.updateFields, Prog.run_bind, run_guarded, Prog.run_bind] at h
  cases hrun : (execute (params (fields.params ++ [.text n])) fun db =>
      .ok (db.updateNodes n (fields.apply now)) : DbTx Nat).run c with
  | mk r c1 =>
      simp only [hrun] at h
      rcases r with (e | e | e) | rowcount
      · cases h
      · exact absurd hrun (hexec c e c1)
      · cases h
      · have hcount : rowcount = (db.updateNodes n (fields.apply now)).1 := by
          obtain ⟨w, hw⟩ := execute_returns hrun
          rw [hc.1, hdb] at hw
          exact (congrArg Prod.fst (Except.ok.inj hw)).symm
        simp only [hcount, hzero, abortIf, if_true] at h
        cases h

/-- Nor does an address update whose parameters bind. -/
theorem tidy_applyAddressUpdate {n : Str} {fields : NodeFields} {changes : List PropagatedChange}
    (h : params ((Call.applyAddressUpdate n fields changes).writeParams db) = none) :
    Tidy (ManagedNodeStore.applyAddressUpdate now n fields changes) db := by
  obtain ⟨hfields, hchanges⟩ := params_append.mp h
  cases hnode : db.getNode n with
  | none => exact tidy_updateFields_missing hfields hnode
  | some node =>
      have hbind : FieldsBind n fields changes := by
        refine ⟨hfields, fun c hc => params_of_subset hchanges fun p hp => ?_⟩
        rw [hnode, Option.isSome_some, if_pos rfl, List.mem_flatMap]
        exact ⟨c, hc, hp⟩
      exact .of_bound (bound_updateFields hfields hbind.2 (addressEvents_bind hbind))

/-- A call is tidy when the parameters of its writing statements convert. -/
theorem Call.tidy {call : Call} (h : params (call.writeParams db) = none) :
    Tidy (call.run now) db := by
  cases call with
  | ensureNode n => exact .of_bound (.guarded (.bind (.modify h _) fun _ => .commit))
  | insertBgpPeer r =>
      exact .of_bound (.guarded (.bind (.execute h _) fun _ =>
        bound_emit (params_of_subset h (by simp [Call.writeParams])) _))
  | updateBgpPeer n asn u =>
      exact .of_bound (.guarded (.bind (.execute h _) fun _ =>
        .bind (bound_requireMatched _ (params_append.mp h).2 _ _) fun _ =>
          bound_emit (params_of_subset h (by simp [Call.writeParams])) _))
  | deleteBgpPeer n asn =>
      exact (tidy_deletePeer _ _ _ _ fun hb => params_of_subset hb (by simp)).map _
  | insertIbgpPeer r =>
      exact .of_bound (.guarded (.bind (.execute h _) fun _ =>
        bound_emit (params_of_subset h (by simp [Call.writeParams])) _))
  | updateIbgpPeer n name u =>
      exact .of_bound (.guarded (.bind (.execute h _) fun _ =>
        .bind (bound_requireMatched _ (params_append.mp h).2 _ _) fun _ =>
          bound_emit (params_of_subset h (by simp [Call.writeParams])) _))
  | deleteIbgpPeer n name =>
      exact (tidy_deletePeer _ _ _ _ fun hb => params_of_subset hb (by simp)).map _
  | addNode n name =>
      have hn : params [.text n] = none := params_of_subset h (by simp [Call.writeParams])
      exact .of_bound (bound_forEffect (.bind (.guarded (.bind (.modify hn _) fun _ =>
        .bind (.execute h _) fun _ => .commit)) fun _ => .readBack _ _ hn _))
  | upsertSelf n name =>
      have hn : params [.text n] = none := params_of_subset h (by simp [Call.writeParams])
      exact .of_bound (bound_forEffect (.bind (.guarded (.bind (.modify hn _) fun _ =>
        .bind (.modify hn _) fun _ => .bind (.execute h _) fun _ => .commit)) fun _ =>
          .readBack _ _ hn _))
  | deleteNode n force =>
      refine Tidy.map (.bind_queryOr fun hb => ?_) _
      cases db.getNode n with
      | none => exact .of_bound (.pure _)
      | some existing =>
          dsimp only
          split
          · exact .of_bound (.fail _)
          · exact .of_bound (.bind (.guarded (.bind (.modify hb _) fun _ => bound_emit hb _))
              fun _ => .pure _)
  | setTokenHash n hash =>
      exact .of_bound (.guarded (.bind (.execute h _) fun _ => .bind (.abortIf _ _) fun _ =>
        bound_emit (params_of_subset h (by simp [Call.writeParams])) _))
  | setWritePolicy n policy =>
      refine .of_bound (bound_forEffect ?_)
      cases hp : validateWritePolicy policy with
      | error e =>
          intro c b c' hrun
          rw [ManagedNodeStore.setWritePolicy, hp] at hrun
          cases hrun
      | ok normalized =>
          rw [Call.writeParams, hp] at h
          rw [ManagedNodeStore.setWritePolicy, hp]
          exact .bind (.pure normalized) fun _ => .bind (.guarded (.bind (.execute h _) fun _ =>
            .bind (.abortIf _ _) fun _ => .commit)) fun _ => .readBack _ _ h _
  | touchLastSeen n => exact .of_bound (.guarded (.bind (.modify h _) fun _ => .commit))
  | setName n name =>
      exact .of_bound (bound_forEffect (bound_updateFields h (fun _ hc => (by cases hc))
        fun _ he => (by cases he)))
  | setEnabled n e =>
      refine .of_bound (bound_forEffect (bound_updateFields h (fun _ hc => (by cases hc)) ?_))
      intro ev hev
      cases e with
      | true => cases hev
      | false =>
          rw [List.mem_singleton.mp hev]
          exact h
  | setAddresses n host v6 rid =>
      refine Tidy.map ?_ _
      rw [ManagedNodeStore.setAddresses]
      by_cases hnone : ({ endpointHost := host, ownIpv6 := v6, routerId := rid } : NodeFields) = {}
      · rw [if_pos hnone]
        exact .of_readOnly (.readBack ..)
      · rw [Call.writeParams, if_neg hnone] at h
        rw [if_neg hnone]
        refine .of_bound (bound_updateFields h (fun _ hc => (by cases hc)) fun e he => ?_)
        split at he
        · rw [List.mem_singleton.mp he]
          exact (params_append.mp h).2
        · cases he
  | applyAddressUpdate n f cs => exact (tidy_applyAddressUpdate h).map _
  | addProposal n src kind payload =>
      refine .of_bound (bound_forEffect ?_)
      rw [ProposalStore.add]
      rw [Call.writeParams] at h
      split
      · exact .fail _
      · exact .fail _
      · next hsrc hkind =>
          rw [hsrc, hkind, if_pos ⟨rfl, rfl⟩] at h
          exact .bind (.guarded (.bind (.execute h _) fun _ => .bind .commit fun _ => .pure _))
            fun _ => .readBack _ _ rfl _
  | setStatus id st m =>
      exact .of_bound (bound_forEffect (.bind (.guarded (.bind (.execute h _) fun _ =>
        .bind (.abortIf _ _) fun _ => .commit)) fun _ =>
          .readBack _ _ (params_of_subset h (by simp [Call.writeParams])) _))
  | addReport n kind payload =>
      refine .of_bound (bound_forEffect ?_)
      rw [ReportStore.add]
      rw [Call.writeParams] at h
      split
      · exact .fail _
      · next hkind =>
          rw [hkind, Option.isSome_some, if_pos rfl] at h
          exact .bind (.guarded (.bind (.execute h _) fun _ => .bind .commit fun _ => .pure _))
            fun _ => .readBack _ _ rfl _
  | markImported id =>
      exact .of_bound (bound_forEffect (.bind (.guarded (.bind (.execute h _) fun _ =>
        .bind (.abortIf _ _) fun _ => .commit)) fun _ => .readBack _ _ h _))
  | record n rev gen payload =>
      refine Tidy.map (.bind_queryOr fun hb => ?_) _
      cases hrow : db.getByRevision n rev with
      | some r => exact .of_bound (.pure _)
      | none =>
          rw [Call.writeParams, if_pos ⟨hb, hrow⟩] at h
          exact .of_bound (.bind (.guarded (.bind (.execute h _) fun _ =>
            .bind .commit fun _ => .pure _)) fun _ => .readBack _ _ rfl _)
  | trim n keep =>
      have hb : params [.text n, .text n, .int keep, .text n] = none :=
        params_of_subset h (by simp [Call.writeParams])
      exact .of_bound (bound_forEffect (.guarded (.bind (.execute hb _) fun _ =>
        .bind .commit fun _ => .pure _)))
  | pin n rev =>
      refine .bind_queryOr fun hb => ?_
      cases db.getByRevision n rev with
      | none => exact .of_bound (.fail _)
      | some r =>
          exact .of_bound (.guarded (.bind (.execute hb _) fun _ =>
            bound_emit (params_of_subset hb (by simp)) _))
  | unpin n =>
      exact .of_bound (.guarded (.bind (.modify h _) fun _ => bound_emit h _))

end Tidy

/-! ## calls with a parameter that does not -/

section Unbinds

variable {now : Str} {db : Db} {d w : Db} {t l : Bool}

theorem unbinds_forEffect {α : Type} {m : DbTx α} {c : Conn Db} (h : Unbinds m c) :
    Unbinds (forEffect m) c := .bind h _

/-- The first cell that cannot be written ends the loop. -/
theorem unbinds_changes {changes : List PropagatedChange}
    (h : ∃ c ∈ changes, params [.text c.new, .text c.nodeId, .text c.name] ≠ none) :
    Unbinds (changes.forM fun change =>
      modify (params [.text change.new, .text change.nodeId, .text change.name]) fun db =>
        (db.updateIbgpRows change.nodeId change.name (change.apply now)).2 : DbTx PUnit)
      ⟨d, w, t, none, l⟩ := by
  induction changes generalizing w t with
  | nil =>
      obtain ⟨c, hc, -⟩ := h
      cases hc
  | cons c cs ih =>
      by_cases hb : params [.text c.new, .text c.nodeId, .text c.name] = none
      · have hrest : ∃ x ∈ cs, params [.text x.new, .text x.nodeId, .text x.name] ≠ none := by
          obtain ⟨x, hx, hne⟩ := h
          rcases List.mem_cons.mp hx with rfl | hx
          · exact absurd hb hne
          · exact ⟨x, hx, hne⟩
        obtain ⟨b, c', hrun, ht⟩ := ih (w := (w.updateIbgpRows c.nodeId c.name (c.apply now)).2)
          (t := true) hrest
        refine ⟨b, c', ?_, ht⟩
        rw [Prog.run_forM_cons, hb, Prog.run_bind_ok (run_modify_none ..), hrun]
      · exact .bind (.modify hb _) _

/-- An update of the node row, with its events, that ends at a parameter. -/
theorem unbinds_updateFields {n : Str} {fields : NodeFields} {events : List (Str × SyncKind)}
    {changes : List PropagatedChange}
    (h : params (fields.params ++ [.text n]) ≠ none ∨ (db.getNode n).isSome ∧
      ∃ c ∈ changes, params [.text c.new, .text c.nodeId, .text c.name] ≠ none) :
    Unbinds (ManagedNodeStore.updateFields now n fields events changes)
      ⟨db, db, false, none, false⟩ := by
  refine .bind (.guarded ?_) _
  by_cases hb : params (fields.params ++ [.text n]) = none
  · obtain hne | ⟨hnode, hchange⟩ := h
    · exact absurd hb hne
    · have hcount : ((db.updateNodes n (fields.apply now)).1 == 0) = false := by
        rw [beq_eq_false_iff_ne, Db.updateNodes, ne_eq, countP_eq_zero_iff_find?]
        exact Option.isSome_iff_ne_none.mp hnode
      have hexec : (execute none fun db => .ok (db.updateNodes n (fields.apply now)) :
          DbTx Nat).run ⟨db, db, false, none, false⟩ =
            (.ok (db.updateNodes n (fields.apply now)).1,
              ⟨db, (db.updateNodes n (fields.apply now)).2, true, none, false⟩) := rfl
      have habort : (abortIf ((db.updateNodes n (fields.apply now)).1 == 0)
          (databaseErrorOf "节点不存在: " n) : DbTx Unit).run
            ⟨db, (db.updateNodes n (fields.apply now)).2, true, none, false⟩ =
              (.ok (), ⟨db, (db.updateNodes n (fields.apply now)).2, true, none, false⟩) := by
        rw [hcount]
        rfl
      rw [hb]
      exact .after hexec (.after habort (.bind (unbinds_changes hchange) _))
  · exact .bind (.execute hb _) _

/-- A call with such a parameter leaves its transaction open. -/
theorem Call.unbinds {call : Call} (h : params (call.writeParams db) ≠ none) :
    Unbinds (call.run now) (Conn.fresh db none false) := by
  cases call with
  | ensureNode n => exact .guarded (.bind (.modify h _) _)
  | insertBgpPeer r => exact .guarded (.bind (.execute h _) _)
  | updateBgpPeer n asn u => exact .guarded (.bind (.execute h _) _)
  | deleteBgpPeer n asn => exact absurd rfl h
  | insertIbgpPeer r => exact .guarded (.bind (.execute h _) _)
  | updateIbgpPeer n name u => exact .guarded (.bind (.execute h _) _)
  | deleteIbgpPeer n name => exact absurd rfl h
  | addNode n name =>
      refine unbinds_forEffect (.bind (.guarded ?_) _)
      by_cases hn : params [.text n] = none
      · rw [hn]
        exact .after (run_modify_none ..) (.bind (.execute h _) _)
      · exact .bind (.modify hn _) _
  | upsertSelf n name =>
      refine unbinds_forEffect (.bind (.guarded ?_) _)
      by_cases hn : params [.text n] = none
      · rw [hn]
        exact .after (run_modify_none ..) (.after (run_modify_none ..) (.bind (.execute h _) _))
      · exact .bind (.modify hn _) _
  | deleteNode n force => exact absurd rfl h
  | setTokenHash n hash => exact .guarded (.bind (.execute h _) _)
  | setWritePolicy n policy =>
      rw [Call.writeParams] at h
      cases hp : validateWritePolicy policy with
      | error e =>
          rw [hp] at h
          exact absurd rfl h
      | ok normalized =>
          rw [hp] at h
          refine unbinds_forEffect ?_
          rw [ManagedNodeStore.setWritePolicy, hp]
          exact .after (Prog.run_lift ..) (.bind (.guarded (.bind (.execute h _) _)) _)
  | touchLastSeen n => exact .guarded (.bind (.modify h _) _)
  | setName n name => exact unbinds_forEffect (unbinds_updateFields (.inl h))
  | setEnabled n e => exact unbinds_forEffect (unbinds_updateFields (.inl h))
  | setAddresses n host v6 rid =>
      rw [Call.writeParams] at h
      refine unbinds_forEffect ?_
      rw [ManagedNodeStore.setAddresses]
      by_cases hnone : ({ endpointHost := host, ownIpv6 := v6, routerId := rid } : NodeFields) = {}
      · rw [if_pos hnone] at h
        exact absurd rfl h
      · rw [if_neg hnone] at h
        rw [if_neg hnone]
        exact unbinds_updateFields (.inl h)
  | applyAddressUpdate n f cs =>
      refine unbinds_forEffect (unbinds_updateFields ?_)
      by_cases hb : params (f.params ++ [.text n]) = none
      · right
        rw [Call.writeParams, ne_eq, params_append, not_and] at h
        have hchanges := h hb
        cases hnode : (db.getNode n).isSome with
        | false =>
            rw [hnode] at hchanges
            exact absurd rfl hchanges
        | true =>
            refine ⟨rfl, ?_⟩
            by_contra hall
            push Not at hall
            rw [hnode, if_pos rfl, params_eq_none] at hchanges
            apply hchanges
            intro p hp
            obtain ⟨c, hc, hp⟩ := List.mem_flatMap.mp hp
            exact params_eq_none.mp (hall c hc) p hp
      · exact .inl hb
  | addProposal n src kind payload =>
      rw [Call.writeParams] at h
      split at h
      · next hboth =>
          obtain ⟨source, hsrc⟩ := Option.isSome_iff_exists.mp hboth.1
          obtain ⟨knd, hkind⟩ := Option.isSome_iff_exists.mp hboth.2
          refine unbinds_forEffect ?_
          rw [ProposalStore.add, hsrc, hkind]
          exact .bind (.guarded (.bind (.execute h _) _)) _
      · exact absurd rfl h
  | setStatus id st m =>
      exact unbinds_forEffect (.bind (.guarded (.bind (.execute h _) _)) _)
  | addReport n kind payload =>
      rw [Call.writeParams] at h
      split at h
      · next hsome =>
          obtain ⟨knd, hkind⟩ := Option.isSome_iff_exists.mp hsome
          refine unbinds_forEffect ?_
          rw [ReportStore.add, hkind]
          exact .bind (.guarded (.bind (.execute h _) _)) _
      · exact absurd rfl h
  | markImported id =>
      exact unbinds_forEffect (.bind (.guarded (.bind (.execute h _) _)) _)
  | record n rev gen payload =>
      rw [Call.writeParams] at h
      split at h
      · next hrow =>
          refine unbinds_forEffect ?_
          rw [RevisionStore.record, RevisionStore.getByRevision, hrow.1]
          refine .after (run_queryOr_none ..) ?_
          rw [hrow.2]
          exact .bind (.guarded (.bind (.execute h _) _)) _
      · exact absurd rfl h
  | trim n keep =>
      have hb : params [.text n, .text n, .int keep, .text n] ≠ none :=
        fun hall => h (params_of_subset hall (by simp [Call.writeParams]))
      exact unbinds_forEffect (.guarded (.bind (.execute hb _) _))
  | pin n rev => exact absurd rfl h
  | unpin n => exact .guarded (.bind (.modify h _) _)

end Unbinds

/-- **Database writes are all or nothing** for exactly the calls whose writing
statements bind parameters the driver can convert: whichever statement up to
the commit fails, a call that raises leaves every table as it was, one that
returns has committed, and neither leaves a transaction open. -/
theorem allOrNothing_iff (now : Str) (db : Db) (call : Call) :
    AllOrNothing (call.run now) db ↔ params (call.writeParams db) = none := by
  constructor
  · intro hall
    by_contra hb
    exact not_allOrNothing_of_unbinds (Call.unbinds hb) hall
  · intro hb
    exact .of_tidy (call.atomic now) (Call.tidy hb)

/-- A proposal whose payload has a text without a UTF-8 encoding, which the JSON
of a node can hold. -/
def surrogateProposal : Call :=
  .addProposal (lit "a") (lit "push") (lit "peer_add") [(lit "peer_kind", .str [0xD800])]

/-- Storing it raises and leaves the transaction open. -/
theorem surrogateProposal_leaves_transaction :
    ∃ e c', (surrogateProposal.run []).run (Conn.fresh Db.empty none false) = (.error e, c') ∧
      c'.inTransaction = true ∧ ¬ AllOrNothing (surrogateProposal.run []) Db.empty := by
  have hb : params (surrogateProposal.writeParams Db.empty) ≠ none := by decide +kernel
  have hun : Unbinds (surrogateProposal.run []) (Conn.fresh Db.empty none false) := Call.unbinds hb
  obtain ⟨b, c', hrun, ht⟩ := hun
  exact ⟨_, c', hrun, ht, not_allOrNothing_of_unbinds ⟨b, c', hrun, ht⟩⟩

end Dn42Ctl
