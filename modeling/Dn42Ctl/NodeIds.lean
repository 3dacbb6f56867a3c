import Dn42Ctl.Watcher
import Dn42Ctl.NodeAdmin

/-!
# NodeIds

The ids of the managed nodes.  `add_node` takes UUIDs only, and the hub's own id
comes from a configuration that `load_config` has accepted, so that no managed
node has the empty id.
-/

namespace Dn42Ctl

open Text Txn

/-! ## ids along a write -/

section Writes

variable {db mid db' : Db} {now n : Str} {evs : List (Str × SyncKind)}

/-- The ids of the managed nodes. -/
def Db.nodeIds (db : Db) : List Str := db.managedNodes.map ManagedNode.nodeId

/-- The id of the node that a call may insert. -/
def Call.newNodeId : Call → Option Str
  | .addNode n _ | .upsertSelf n _ => some n
  | _ => none

/-- An update that keeps the key keeps the ids. -/
theorem nodeIds_updateWhere {p : ManagedNode → Bool} {f : ManagedNode → ManagedNode}
    (hmid : mid.managedNodes = Rows.updateWhere p f db.managedNodes)
    (hf : ∀ x, (f x).nodeId = x.nodeId) : mid.nodeIds = db.nodeIds := by
  rw [Db.nodeIds, hmid, Rows.updateWhere, List.map_map, Db.nodeIds]
  apply List.map_congr_left
  intro x _
  simp only [Function.comp_apply]
  split
  · exact hf x
  · rfl

theorem nodeIds_updateNodes {m : Str} {f : ManagedNode → ManagedNode}
    (hf : ∀ x, (f x).nodeId = x.nodeId) : (db.updateNodes m f).2.nodeIds = db.nodeIds :=
  nodeIds_updateWhere rfl hf

/-- A new row adds its id. -/
theorem nodeIds_append {node : ManagedNode}
    (hmid : mid.managedNodes = db.managedNodes ++ [node]) :
    mid.nodeIds = db.nodeIds ++ [node.nodeId] := by
  rw [Db.nodeIds, hmid, List.map_append]
  rfl

/-- `upsert_self`. -/
theorem nodeIds_upsertSelf {m name : Str} {u : Unit}
    (h : ((db.demoteSelf now m).upsertNode m).upsertSelfRow
      (ManagedNodeStore.newNode now m name true) = .ok (u, mid)) (hn : n ∈ mid.nodeIds) :
    n ∈ db.nodeIds ∨ n = m := by
  have hdemote : (db.demoteSelf now m).nodeIds = db.nodeIds :=
    nodeIds_updateWhere rfl fun _ => rfl
  rw [upsertNode_eq] at h
  obtain hmid | ⟨-, hmid⟩ := upsertSelfRow_ok h
  · rw [@nodeIds_updateWhere (db.demoteSelf now m) _ _ _ (congrArg Db.managedNodes hmid)
      fun _ => rfl, hdemote] at hn
    exact .inl hn
  · rw [@nodeIds_append (db.demoteSelf now m) _ _ (congrArg Db.managedNodes hmid), hdemote,
      List.mem_append, List.mem_singleton] at hn
    exact hn

/-- A node of a committed call was there before, or the call brings it. -/
theorem Call.commit_nodeIds {call : Call} (h : call.commit now db = some (mid, evs))
    (hn : n ∈ mid.nodeIds) : n ∈ db.nodeIds ∨ call.newNodeId = some n := by
  by_cases hw : Table.managedNodes ∈ call.writes
  · cases hfu : call.fieldUpdate with
    | some x =>
        obtain ⟨m, f, cs⟩ := x
        rw [commit_of_fieldUpdate hfu] at h
        obtain ⟨-, -, hmid⟩ := commitFields_eq_some h
        have hrows : mid.managedNodes = Rows.updateWhere (fun x => x.nodeId == m) (f.apply now)
            db.managedNodes := by
          rw [hmid, applyChanges_managedNodes]
          rfl
        rw [nodeIds_updateWhere hrows fun _ => rfl] at hn
        exact .inl hn
    | none =>
        cases call with
        | addNode m name =>
            obtain ⟨⟨u, hr⟩, -⟩ := committedIf_eq_some h
            obtain ⟨-, hmid⟩ := insertNode_ok hr
            have hrows := congrArg Db.managedNodes hmid
            rw [upsertNode_eq] at hrows
            rw [nodeIds_append hrows, List.mem_append, List.mem_singleton] at hn
            exact hn.imp_right fun heq => congrArg some heq.symm
        | upsertSelf m name =>
            obtain ⟨⟨u, hr⟩, -⟩ := committedIf_eq_some h
            exact (nodeIds_upsertSelf hr hn).imp_right fun heq => congrArg some heq.symm
        | deleteNode m force =>
            simp only [Call.commit] at h
            split at h
            · simp at h
            · simp only [Option.ite_none_left_eq_some, Option.some.injEq, Prod.mk.injEq] at h
              obtain ⟨-, rfl, rfl⟩ := h
              obtain ⟨x, hx, rfl⟩ := List.mem_map.mp hn
              exact .inl (List.mem_map_of_mem (List.mem_of_mem_filter hx))
        | setTokenHash m hash =>
            simp only [Call.commit, Option.ite_none_right_eq_some, Option.some.injEq,
              Prod.mk.injEq] at h
            obtain ⟨-, rfl, rfl⟩ := h
            rw [nodeIds_updateNodes] at hn
            · exact .inl hn
            · exact fun _ => rfl
        | setWritePolicy m policy =>
            simp only [Call.commit] at h
            split at h
            · simp at h
            · simp only [Option.ite_none_right_eq_some, Option.some.injEq, Prod.mk.injEq] at h
              obtain ⟨-, rfl, rfl⟩ := h
              rw [nodeIds_updateNodes] at hn
              · exact .inl hn
              · exact fun _ => rfl
        | touchLastSeen m =>
            simp only [Call.commit, Option.some.injEq, Prod.mk.injEq] at h
            obtain ⟨rfl, rfl⟩ := h
            rw [nodeIds_updateNodes] at hn
            · exact .inl hn
            · exact fun _ => rfl
        | setAddresses m host v6 rid =>
            simp only [Call.fieldUpdate, ite_eq_left_iff, reduceCtorEq, imp_false,
              not_not] at hfu
            simp [Call.commit, hfu] at h
        | setName m name => simp [Call.fieldUpdate] at hfu
        | setEnabled m e => simp [Call.fieldUpdate] at hfu
        | applyAddressUpdate m f cs => simp [Call.fieldUpdate] at hfu
        | _ => simp [Call.writes] at hw
  · rw [Db.nodeIds, (call.commit_frame h).managedNodes hw] at hn
    exact .inl hn

/-- So is a node after any write. -/
theorem hubStep_nodeIds {a : HubAction} (h : hubStep db a = some db') (hn : n ∈ db'.nodeIds) :
    n ∈ db.nodeIds ∨ ∃ c, a.write = .call c ∧ c.newNodeId = some n := by
  by_cases hcall : ∃ c, a.write = .call c
  · obtain ⟨c, hw⟩ := hcall
    obtain hdb | hdb := hubStep_call hw h
    · exact .inl (hdb ▸ hn)
    · obtain heq | ⟨mid, evs, hc, hnodes, -⟩ := after_log a.now db c
      · exact .inl (heq ▸ hdb ▸ hn)
      · rw [hdb, Db.nodeIds, hnodes] at hn
        exact (Call.commit_nodeIds hc hn).imp_right fun hnew => ⟨c, hw, hnew⟩
  · have hrepair := hubStep_repair_sameNodes h fun c hw => hcall ⟨c, hw⟩
    rw [Db.nodeIds, hrepair.nodes] at hn
    exact .inl hn

end Writes

/-! ## what the services pass on -/

/-- `add_node`. -/
def addNode (now nodeId name : Str) : DbTx ManagedNode := do
  let nodeId ← check (validateNodeId nodeId)
  if (strip name).isEmpty then fail (dn42CtlError [.text (lit "name 不能为空")])
  else wrapDatabaseError (ManagedNodeStore.add now nodeId (strip name))

/-- The write comes from `add_node`, from the start of the hub, or names no new
node. -/
def HubAction.Admitted (a : HubAction) : Prop :=
  match a.write with
  | .call (.addNode n _) => isUuid n = true
  | .call (.upsertSelf n _) => n ≠ []
  | _ => True

instance (a : HubAction) : Decidable a.Admitted := by
  unfold HubAction.Admitted
  split <;> infer_instance

/-- What `add_node` runs is admitted. -/
theorem addNode_admitted {now n name : Str} {c c' : Conn Db} {node : ManagedNode}
    (h : (addNode now n name).run c = (.ok node, c')) :
    isUuid n = true ∧
      (wrapDatabaseError (ManagedNodeStore.add now n (strip name))).run c = (.ok node, c') := by
  obtain ⟨id, c1, hid, hadd⟩ := Prog.run_bind_eq_ok.mp h
  have hchecked : id = n ∧ c1 = c ∧ isUuid n = true := by
    rw [check, validateNodeId] at hid
    split at hid
    · next huuid =>
        cases hid
        exact ⟨rfl, rfl, huuid⟩
    · cases hid
  obtain ⟨rfl, rfl, huuid⟩ := hchecked
  split at hadd
  · cases hadd
  · exact ⟨huuid, hadd⟩

/-- The databases that runs of the services' writes lead to. -/
def Db.Administered (db : Db) : Prop :=
  ∃ actions : List HubAction, (∀ a ∈ actions, a.Admitted) ∧
    Machine.exec hubStep Db.empty actions = some db

theorem Db.Administered.reachable {db : Db} (h : db.Administered) : db.Reachable := by
  obtain ⟨actions, -, hrun⟩ := h
  exact ⟨actions, hrun⟩

theorem isUuid_nil : isUuid [] = false := by decide

/-- One write. -/
theorem nil_notMem_step {db db' : Db} {a : HubAction} (hdb : [] ∉ db.nodeIds) (ha : a.Admitted)
    (h : hubStep db a = some db') : [] ∉ db'.nodeIds := by
  intro hn
  obtain hold | ⟨c, hw, hnew⟩ := hubStep_nodeIds h hn
  · exact hdb hold
  · rw [HubAction.Admitted, hw] at ha
    cases c with
    | addNode m name =>
        cases hnew
        have huuid : isUuid [] = true := ha
        rw [isUuid_nil] at huuid
        cases huuid
    | upsertSelf m name =>
        cases hnew
        exact ha rfl
    | _ => cases hnew

/-- **No managed node has the empty id.** -/
theorem Db.Administered.nodeId_ne_nil {db : Db} (h : db.Administered) {n : Str}
    (hn : (db.getNode n).isSome) : n ≠ [] := by
  obtain ⟨actions, hadmitted, hrun⟩ := h
  have hids : [] ∉ db.nodeIds := Machine.exec_invariant hubStep
    (fun _ _ _ hdb ha hstep => nil_notMem_step hdb ha hstep) List.not_mem_nil
    (Machine.along_of_forall hubStep hadmitted) hrun
  rintro rfl
  obtain ⟨x, hx⟩ := Option.isSome_iff_exists.mp hn
  rw [Db.getNode] at hx
  have hid : x.nodeId = [] := by simpa using List.find?_some hx
  exact hids (hid ▸ List.mem_map_of_mem (List.mem_of_find?_eq_some hx))

end Dn42Ctl
