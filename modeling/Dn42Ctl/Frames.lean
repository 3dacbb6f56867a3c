import Dn42Ctl.Atomicity

/-!
# Frames

Which tables a call writes, and that it writes no others; what the content of a
node depends on.
-/

namespace Dn42Ctl

open Text Txn

/-! ## tables -/

inductive Table where
  | nodes
  | bgpPeers
  | ibgpPeers
  | managedNodes
  | configProposals
  | nodeReports
  | configRevisions
  | desiredPins
deriving DecidableEq, Repr

/-- Outside `tables` the two databases agree, and the queue is untouched. -/
structure Frame (tables : List Table) (db db' : Db) : Prop where
  nodes : .nodes ∉ tables → db'.nodes = db.nodes
  bgpPeers : .bgpPeers ∉ tables → db'.bgpPeers = db.bgpPeers
  ibgpPeers : .ibgpPeers ∉ tables → db'.ibgpPeers = db.ibgpPeers
  managedNodes : .managedNodes ∉ tables → db'.managedNodes = db.managedNodes
  configProposals : .configProposals ∉ tables →
    db'.configProposals = db.configProposals ∧ db'.proposalSeq = db.proposalSeq
  nodeReports : .nodeReports ∉ tables →
    db'.nodeReports = db.nodeReports ∧ db'.reportSeq = db.reportSeq
  configRevisions : .configRevisions ∉ tables →
    db'.configRevisions = db.configRevisions ∧ db'.revisionSeq = db.revisionSeq
  desiredPins : .desiredPins ∉ tables → db'.desiredPins = db.desiredPins
  queue : db'.syncEvents = db.syncEvents ∧ db'.syncSeq = db.syncSeq ∧ db'.syncLog = db.syncLog

/-- Nothing is written. -/
theorem Frame.refl (tables : List Table) (db : Db) : Frame tables db db :=
  ⟨fun _ => rfl, fun _ => rfl, fun _ => rfl, fun _ => rfl, fun _ => ⟨rfl, rfl⟩,
    fun _ => ⟨rfl, rfl⟩, fun _ => ⟨rfl, rfl⟩, fun _ => rfl, rfl, rfl, rfl⟩

/-- Two writes to the same tables. -/
theorem Frame.trans {tables : List Table} {db mid db' : Db} (h : Frame tables db mid)
    (h' : Frame tables mid db') : Frame tables db db' where
  nodes hn := (h'.nodes hn).trans (h.nodes hn)
  bgpPeers hn := (h'.bgpPeers hn).trans (h.bgpPeers hn)
  ibgpPeers hn := (h'.ibgpPeers hn).trans (h.ibgpPeers hn)
  managedNodes hn := (h'.managedNodes hn).trans (h.managedNodes hn)
  configProposals hn :=
    ⟨(h'.configProposals hn).1.trans (h.configProposals hn).1,
      (h'.configProposals hn).2.trans (h.configProposals hn).2⟩
  nodeReports hn :=
    ⟨(h'.nodeReports hn).1.trans (h.nodeReports hn).1,
      (h'.nodeReports hn).2.trans (h.nodeReports hn).2⟩
  configRevisions hn :=
    ⟨(h'.configRevisions hn).1.trans (h.configRevisions hn).1,
      (h'.configRevisions hn).2.trans (h.configRevisions hn).2⟩
  desiredPins hn := (h'.desiredPins hn).trans (h.desiredPins hn)
  queue := ⟨h'.queue.1.trans h.queue.1, h'.queue.2.1.trans h.queue.2.1,
    h'.queue.2.2.trans h.queue.2.2⟩

/-- The tables a call may write, events aside. -/
def Call.writes : Call → List Table
  | .ensureNode .. => [.nodes]
  | .insertBgpPeer .. | .updateBgpPeer .. | .deleteBgpPeer .. => [.bgpPeers]
  | .insertIbgpPeer .. | .updateIbgpPeer .. | .deleteIbgpPeer .. => [.ibgpPeers]
  | .addNode .. | .upsertSelf .. => [.nodes, .managedNodes]
  | .deleteNode .. | .setTokenHash .. | .setWritePolicy .. | .touchLastSeen .. | .setName ..
  | .setEnabled .. | .setAddresses .. => [.managedNodes]
  | .applyAddressUpdate .. => [.managedNodes, .ibgpPeers]
  | .addProposal .. | .setStatus .. => [.configProposals]
  | .addReport .. | .markImported .. => [.nodeReports]
  | .record .. | .trim .. => [.configRevisions]
  | .pin .. | .unpin .. => [.desiredPins]

/-! ## what the inserts do -/

section Inserts

variable {db db' : Db} {u : Unit}

/-- An insert that returns has added its row. -/
theorem insertBgpRow_ok {row : BgpRow} (h : db.insertBgpRow row = .ok (u, db')) :
    db' = { db with bgpPeers := db.bgpPeers ++ [row] } := by
  rw [Db.insertBgpRow] at h
  split at h
  · simp at h
  · split at h
    · simp at h
    · simp only [Except.ok.injEq, Prod.mk.injEq] at h
      exact h.2.symm

/-- The same for an iBGP row. -/
theorem insertIbgpRow_ok {row : IbgpRow} (h : db.insertIbgpRow row = .ok (u, db')) :
    db' = { db with ibgpPeers := db.ibgpPeers ++ [row] } := by
  rw [Db.insertIbgpRow] at h
  split at h
  · simp at h
  · split at h
    · simp at h
    · simp only [Except.ok.injEq, Prod.mk.injEq] at h
      exact h.2.symm

/-- A new managed node: no row had its id. -/
theorem insertNode_ok {node : ManagedNode} (h : db.insertNode node = .ok (u, db')) :
    db.getNode node.nodeId = none ∧
      db' = { db with managedNodes := db.managedNodes ++ [node] } := by
  rw [Db.insertNode] at h
  split at h
  · simp at h
  · rename_i hany
    split at h
    · simp at h
    · simp only [Except.ok.injEq, Prod.mk.injEq] at h
      refine ⟨?_, h.2.symm⟩
      rw [Db.getNode, List.find?_eq_none]
      intro m hm
      simp only [List.any_eq_true, Bool.or_eq_true, Bool.and_eq_true, not_exists, not_and,
        not_or] at hany
      exact (hany m hm).1

/-- The row of the node itself is updated, or added. -/
theorem upsertSelfRow_ok {node : ManagedNode} (h : db.upsertSelfRow node = .ok (u, db')) :
    db' = (db.updateNodes node.nodeId fun n =>
        { n with isSelf := true, enabled := true, updatedAt := node.updatedAt }).2 ∨
      db.getNode node.nodeId = none ∧
        db' = { db with managedNodes := db.managedNodes ++ [node] } := by
  rw [Db.upsertSelfRow] at h
  split at h
  · split at h
    · simp at h
    · simp only [Except.ok.injEq, Prod.mk.injEq] at h
      exact .inl h.2.symm
  · exact .inr (insertNode_ok h)

/-- A snapshot that is inserted is new and has the next id. -/
theorem insertRevision_ok {n rev gen : Str} {payload : DesiredState} {id : Nat}
    (h : db.insertRevision n rev gen payload = .ok (id, db')) :
    db.getByRevision n rev = none ∧ db' = { db with
      configRevisions := db.configRevisions ++ [⟨db.revisionSeq + 1, n, rev, gen, payload⟩]
      revisionSeq := db.revisionSeq + 1 } := by
  rw [Db.insertRevision] at h
  split at h
  · simp at h
  · rename_i hany
    split at h
    · simp at h
    · simp only [Except.ok.injEq, Prod.mk.injEq] at h
      refine ⟨?_, h.2.symm⟩
      rw [Db.getByRevision, List.find?_eq_none]
      simpa using hany

/-- A pin replaces the node's pin, or is added. -/
theorem upsertPin_ok {pin : DesiredPin} (h : db.upsertPin pin = .ok (u, db')) :
    db' = { db with desiredPins :=
        Rows.updateWhere (fun p => p.nodeId == pin.nodeId) (fun _ => pin) db.desiredPins } ∨
      db.getPinRow pin.nodeId = none ∧
        db' = { db with desiredPins := db.desiredPins ++ [pin] } := by
  rw [Db.upsertPin] at h
  split at h
  · simp only [Except.ok.injEq, Prod.mk.injEq] at h
    exact .inl h.2.symm
  · rename_i hany
    split at h
    · simp at h
    · simp only [Except.ok.injEq, Prod.mk.injEq] at h
      refine .inr ⟨?_, h.2.symm⟩
      rw [Db.getPinRow, List.find?_eq_none]
      simpa using hany

/-- A proposal that is inserted is pending and has the next id. -/
theorem insertProposal_ok {n : Str} {s : ProposalSource} {k : ProposalKind} {p : JsonObject}
    {now : Str} {id : Nat} (h : db.insertProposal n s k p now = .ok (id, db')) :
    id = db.proposalSeq + 1 ∧ db' = { db with
      configProposals := db.configProposals ++ [⟨db.proposalSeq + 1, n, s, k, p, .pending, now,
        none, none⟩]
      proposalSeq := db.proposalSeq + 1 } := by
  rw [Db.insertProposal] at h
  split at h
  · simp at h
  · simp only [Except.ok.injEq, Prod.mk.injEq] at h
    exact ⟨h.1.symm, h.2.symm⟩

/-- A report that is inserted has the next id. -/
theorem insertReport_ok {n : Str} {k : ReportKind} {p : JsonObject} {now : Str} {id : Nat}
    (h : db.insertReport n k p now = .ok (id, db')) :
    id = db.reportSeq + 1 ∧ db' = { db with
      nodeReports := db.nodeReports ++ [⟨db.reportSeq + 1, n, k, p, now, none⟩]
      reportSeq := db.reportSeq + 1 } := by
  rw [Db.insertReport] at h
  split at h
  · simp at h
  · simp only [Except.ok.injEq, Prod.mk.injEq] at h
    exact ⟨h.1.symm, h.2.symm⟩

end Inserts

/-- What is committed is what the statement left. -/
theorem committedIf_eq_some {α : Type} {r : Except SqlError (α × Db)}
    {evs evs' : List (Str × SyncKind)} {mid : Db} (h : committedIf r evs = some (mid, evs')) :
    (∃ a, r = .ok (a, mid)) ∧ evs' = evs := by
  cases r with
  | error e => simp [committedIf] at h
  | ok p =>
      obtain ⟨a, db⟩ := p
      simp only [committedIf, Option.some.injEq, Prod.mk.injEq] at h
      exact ⟨⟨a, by rw [h.1]⟩, h.2.symm⟩

/-- Propagated cells are cells of `ibgp_peers`. -/
theorem applyChanges_eq (now : Str) (changes : List PropagatedChange) (db : Db) :
    db.applyChanges now changes =
      { db with ibgpPeers := (db.applyChanges now changes).ibgpPeers } := by
  induction changes generalizing db with
  | nil => rfl
  | cons c cs ih => exact ih (db.updateIbgpRows c.nodeId c.name (c.apply now)).2

/-- An update of a node that is committed has found the node. -/
theorem commitFields_eq_some {now n : Str} {f : NodeFields} {evs evs' : List (Str × SyncKind)}
    {cs : List PropagatedChange} {db mid : Db}
    (h : db.commitFields now n f evs cs = some (mid, evs')) :
    (db.getNode n).isSome ∧ evs' = evs ∧
      mid = ((db.updateNodes n (f.apply now)).2).applyChanges now cs := by
  rw [Db.commitFields] at h
  split at h
  · simp only [Option.some.injEq, Prod.mk.injEq] at h
    exact ⟨‹_›, h.2.symm, h.1.symm⟩
  · simp at h

/-- `ensure_node` writes `nodes` only. -/
theorem upsertNode_eq (n : Str) (db : Db) :
    db.upsertNode n = { db with nodes := (db.upsertNode n).nodes } := by
  rw [Db.upsertNode]
  split <;> rfl

/-! ## a call writes only its tables -/

theorem frame_nodes (db : Db) (rows : List Str) : Frame [.nodes] db { db with nodes := rows } := by
  constructor <;> simp

theorem frame_bgpPeers (db : Db) (rows : List BgpRow) :
    Frame [.bgpPeers] db { db with bgpPeers := rows } := by
  constructor <;> simp

theorem frame_ibgpPeers (db : Db) (rows : List IbgpRow) :
    Frame [.ibgpPeers] db { db with ibgpPeers := rows } := by
  constructor <;> simp

theorem frame_managedNodes (db : Db) (rows : List ManagedNode) :
    Frame [.managedNodes] db { db with managedNodes := rows } := by
  constructor <;> simp

theorem frame_registration (db : Db) (ids : List Str) (rows : List ManagedNode) :
    Frame [.nodes, .managedNodes] db { db with nodes := ids, managedNodes := rows } := by
  constructor <;> simp

theorem frame_addresses (db : Db) (nodes : List ManagedNode) (rows : List IbgpRow) :
    Frame [.managedNodes, .ibgpPeers] db { db with managedNodes := nodes, ibgpPeers := rows } := by
  constructor <;> simp

theorem frame_configProposals (db : Db) (rows : List ConfigProposal) (seq : Nat) :
    Frame [.configProposals] db { db with configProposals := rows, proposalSeq := seq } := by
  constructor <;> simp

theorem frame_nodeReports (db : Db) (rows : List NodeReport) (seq : Nat) :
    Frame [.nodeReports] db { db with nodeReports := rows, reportSeq := seq } := by
  constructor <;> simp

theorem frame_configRevisions (db : Db) (rows : List ConfigRevision) (seq : Nat) :
    Frame [.configRevisions] db { db with configRevisions := rows, revisionSeq := seq } := by
  constructor <;> simp

theorem frame_desiredPins (db : Db) (rows : List DesiredPin) :
    Frame [.desiredPins] db { db with desiredPins := rows } := by
  constructor <;> simp

/-- An update of a node without propagation writes `managed_nodes` only. -/
theorem frame_commitFields {now n : Str} {f : NodeFields} {evs evs' : List (Str × SyncKind)}
    {db mid : Db} (h : db.commitFields now n f evs [] = some (mid, evs')) :
    Frame [.managedNodes] db mid := by
  rw [(commitFields_eq_some h).2.2]
  exact frame_managedNodes db _

/-- **Frame**: a call writes the tables it names, and no others. -/
theorem Call.commit_frame {now : Str} {db mid : Db} {evs : List (Str × SyncKind)} (call : Call)
    (h : call.commit now db = some (mid, evs)) : Frame call.writes db mid := by
  cases call with
  | ensureNode n =>
      simp only [Call.commit, Option.some.injEq, Prod.mk.injEq] at h
      rw [← h.1, upsertNode_eq]
      exact frame_nodes db _
  | insertBgpPeer r =>
      obtain ⟨⟨u, hr⟩, -⟩ := committedIf_eq_some h
      rw [insertBgpRow_ok hr]
      exact frame_bgpPeers db _
  | updateBgpPeer n asn up =>
      simp only [Call.commit, Option.ite_none_right_eq_some, Option.some.injEq,
        Prod.mk.injEq] at h
      rw [← h.2.1]
      exact frame_bgpPeers db _
  | deleteBgpPeer n asn =>
      simp only [Call.commit, Option.ite_none_right_eq_some, Option.some.injEq,
        Prod.mk.injEq] at h
      rw [← h.2.1]
      exact frame_bgpPeers db _
  | insertIbgpPeer r =>
      obtain ⟨⟨u, hr⟩, -⟩ := committedIf_eq_some h
      rw [insertIbgpRow_ok hr]
      exact frame_ibgpPeers db _
  | updateIbgpPeer n name up =>
      simp only [Call.commit, Option.ite_none_right_eq_some, Option.some.injEq,
        Prod.mk.injEq] at h
      rw [← h.2.1]
      exact frame_ibgpPeers db _
  | deleteIbgpPeer n name =>
      simp only [Call.commit, Option.ite_none_right_eq_some, Option.some.injEq,
        Prod.mk.injEq] at h
      rw [← h.2.1]
      exact frame_ibgpPeers db _
  | addNode n name =>
      obtain ⟨⟨u, hr⟩, -⟩ := committedIf_eq_some h
      rw [(insertNode_ok hr).2, upsertNode_eq]
      exact frame_registration db _ _
  | upsertSelf n name =>
      obtain ⟨⟨u, hr⟩, -⟩ := committedIf_eq_some h
      rcases upsertSelfRow_ok hr with hmid | ⟨-, hmid⟩
      · rw [hmid, upsertNode_eq]
        exact frame_registration db _ _
      · rw [hmid, upsertNode_eq]
        exact frame_registration db _ _
  | deleteNode n force =>
      simp only [Call.commit] at h
      split at h
      · simp at h
      · simp only [Option.ite_none_left_eq_some, Option.some.injEq, Prod.mk.injEq] at h
        rw [← h.2.1]
        exact frame_managedNodes db _
  | setTokenHash n hash =>
      simp only [Call.commit, Option.ite_none_right_eq_some, Option.some.injEq,
        Prod.mk.injEq] at h
      rw [← h.2.1]
      exact frame_managedNodes db _
  | setWritePolicy n policy =>
      simp only [Call.commit] at h
      split at h
      · simp at h
      · simp only [Option.ite_none_right_eq_some, Option.some.injEq, Prod.mk.injEq] at h
        rw [← h.2.1]
        exact frame_managedNodes db _
  | touchLastSeen n =>
      simp only [Call.commit, Option.some.injEq, Prod.mk.injEq] at h
      rw [← h.1]
      exact frame_managedNodes db _
  | setName n name => exact frame_commitFields h
  | setEnabled n e => exact frame_commitFields h
  | setAddresses n host v6 rid =>
      simp only [Call.commit, Option.ite_none_left_eq_some] at h
      exact frame_commitFields h.2
  | applyAddressUpdate n f cs =>
      rw [(commitFields_eq_some h).2.2, applyChanges_eq]
      exact frame_addresses db _ _
  | addProposal n src kind payload =>
      simp only [Call.commit] at h
      split at h
      · obtain ⟨⟨u, hr⟩, -⟩ := committedIf_eq_some h
        rw [(insertProposal_ok hr).2]
        exact frame_configProposals db _ _
      · simp at h
  | setStatus id st m =>
      simp only [Call.commit, Option.ite_none_right_eq_some, Option.some.injEq,
        Prod.mk.injEq] at h
      rw [← h.2.1]
      exact frame_configProposals db _ _
  | addReport n kind payload =>
      simp only [Call.commit] at h
      split at h
      · obtain ⟨⟨u, hr⟩, -⟩ := committedIf_eq_some h
        rw [(insertReport_ok hr).2]
        exact frame_nodeReports db _ _
      · simp at h
  | markImported id =>
      simp only [Call.commit, Option.ite_none_right_eq_some, Option.some.injEq,
        Prod.mk.injEq] at h
      rw [← h.2.1]
      exact frame_nodeReports db _ _
  | record n rev gen payload =>
      simp only [Call.commit, Option.ite_none_left_eq_some] at h
      obtain ⟨⟨u, hr⟩, -⟩ := committedIf_eq_some h.2
      rw [(insertRevision_ok hr).2]
      exact frame_configRevisions db _ _
  | trim n keep =>
      simp only [Call.commit, Option.some.injEq, Prod.mk.injEq] at h
      rw [← h.1]
      exact frame_configRevisions db _ _
  | pin n rev =>
      simp only [Call.commit, Option.ite_none_right_eq_some] at h
      obtain ⟨⟨u, hr⟩, -⟩ := committedIf_eq_some h.2
      rcases upsertPin_ok hr with hmid | ⟨-, hmid⟩
      · rw [hmid]
        exact frame_desiredPins db _
      · rw [hmid]
        exact frame_desiredPins db _
  | unpin n =>
      simp only [Call.commit, Option.some.injEq, Prod.mk.injEq] at h
      rw [← h.1]
      exact frame_desiredPins db _

/-- The tables without the queue of events. -/
def Db.tables (db : Db) : Db := { db with syncEvents := [], syncSeq := 0, syncLog := [] }

/-- The queue is not among the tables. -/
@[simp] theorem tables_emitAll (now : Str) (events : List (Str × SyncKind)) (db : Db) :
    (db.emitAll now events).tables = db.tables := by
  induction events generalizing db with
  | nil => rfl
  | cons e es ih => exact (ih _).trans rfl

/-- What a call leaves of the tables, the queue apart. -/
theorem Frame.tables {tables : List Table} {db mid : Db} (h : Frame tables db mid) :
    Frame tables db.tables mid.tables :=
  ⟨h.nodes, h.bgpPeers, h.ibgpPeers, h.managedNodes, h.configProposals, h.nodeReports,
    h.configRevisions, h.desiredPins, rfl, rfl, rfl⟩

/-- A call writes its tables and the queue. -/
theorem Call.after_frame (now : Str) (db : Db) (call : Call) :
    Frame call.writes db.tables (call.after now db).tables := by
  rw [Call.after]
  cases hc : call.commit now db with
  | none => exact .refl _ _
  | some done =>
      obtain ⟨mid, evs⟩ := done
      dsimp only
      rw [tables_emitAll]
      exact (call.commit_frame hc).tables

end Dn42Ctl
