import Dn42Ctl.PeerEffects
import Dn42Ctl.NodeIds

/-!
# Confinement

What the holder of a node's token can change.  A submission stores a proposal
or a report; under a policy of automatic acceptance a new peer adds rows to the
node's own partition; nothing else of the hub's records changes.
-/

namespace Dn42Ctl

open Text Txn Prog

/-! ## what stays -/

/-- The hub's own records are as in `db`: nodes with their addresses, tokens,
flags and policies, pins and recorded revisions. -/
structure SameAuthority (db w : Db) : Prop where
  managedNodes : w.managedNodes = db.managedNodes
  desiredPins : w.desiredPins = db.desiredPins
  configRevisions : w.configRevisions = db.configRevisions

/-- Peer rows have only been added to `db`, and only of node `n`. -/
structure PeersAdded (n : Str) (db w : Db) : Prop where
  bgp : ∃ new, w.bgpPeers = db.bgpPeers ++ new ∧ ∀ r ∈ new, r.nodeId = n
  ibgp : ∃ new, w.ibgpPeers = db.ibgpPeers ++ new ∧ ∀ r ∈ new, r.nodeId = n

/-- The peers are those of `db`. -/
structure SamePeers (db w : Db) : Prop where
  bgp : w.bgpPeers = db.bgpPeers
  ibgp : w.ibgpPeers = db.ibgpPeers

/-- The peers of every node but `n` are those of `db`. -/
structure SameOthers (n : Str) (db w : Db) : Prop where
  bgp : ∀ m, m ≠ n → w.bgpRowsOf m = db.bgpRowsOf m
  ibgp : ∀ m, m ≠ n → w.ibgpRowsOf m = db.ibgpRowsOf m

/-- Ids are handed out in order. -/
def Db.ProposalsWF (db : Db) : Prop := ∀ p ∈ db.configProposals, p.id ≤ db.proposalSeq

section Closure

variable {n : Str} {db : Db}

/-- Added peers leave the rights of every node. -/
theorem addsPeers_authority : AddsPeersOf n (SameAuthority db) where
  nodes _ _ h := ⟨h.managedNodes, h.desiredPins, h.configRevisions⟩
  queue _ _ _ _ h := ⟨h.managedNodes, h.desiredPins, h.configRevisions⟩
  addBgp _ _ _ h := ⟨h.managedNodes, h.desiredPins, h.configRevisions⟩
  addIbgp _ _ _ h := ⟨h.managedNodes, h.desiredPins, h.configRevisions⟩

/-- Peers that are added to the node are among its own. -/
theorem addsPeers_added : AddsPeersOf n (PeersAdded n db) where
  nodes _ _ h := ⟨h.bgp, h.ibgp⟩
  queue _ _ _ _ h := ⟨h.bgp, h.ibgp⟩
  addBgp w row hrow h := by
    obtain ⟨new, hw, hnew⟩ := h.bgp
    refine ⟨⟨new ++ [row], by rw [hw, List.append_assoc], fun r hr => ?_⟩, h.ibgp⟩
    rcases List.mem_append.mp hr with hr | hr
    · exact hnew r hr
    · rw [List.mem_singleton.mp hr]
      exact hrow
  addIbgp w row hrow h := by
    obtain ⟨new, hw, hnew⟩ := h.ibgp
    refine ⟨h.bgp, new ++ [row], by rw [hw, List.append_assoc], fun r hr => ?_⟩
    rcases List.mem_append.mp hr with hr | hr
    · exact hnew r hr
    · rw [List.mem_singleton.mp hr]
      exact hrow

/-- Edits of the node's peers leave those of the others. -/
theorem editsPeers_others : EditsPeersOf n (SameOthers n db) where
  nodes _ _ h := ⟨h.bgp, h.ibgp⟩
  queue _ _ _ _ h := ⟨h.bgp, h.ibgp⟩
  addBgp w row hrow h := by
    refine ⟨fun m hm => ?_, h.ibgp⟩
    rw [← h.bgp m hm]
    exact Rows.filter_append_of_false (by simpa [hrow] using Ne.symm hm) _
  addIbgp w row hrow h := by
    refine ⟨h.bgp, fun m hm => ?_⟩
    rw [← h.ibgp m hm]
    exact Rows.filter_append_of_false (by simpa [hrow] using Ne.symm hm) _
  updateBgp w asn u now h := by
    refine ⟨fun m hm => ?_, h.ibgp⟩
    rw [← h.bgp m hm]
    refine Rows.filter_updateWhere fun r _ hr => ?_
    simp only [BgpRow.is, Bool.and_eq_true, beq_iff_eq] at hr
    simp [Database.BgpUpdate.apply, hr.1, Ne.symm hm]
  updateIbgp w name u now h := by
    refine ⟨h.bgp, fun m hm => ?_⟩
    rw [← h.ibgp m hm]
    refine Rows.filter_updateWhere fun r _ hr => ?_
    simp only [IbgpRow.is, Bool.and_eq_true, beq_iff_eq] at hr
    simp [Database.IbgpUpdate.apply, hr.1, Ne.symm hm]
  deleteBgp w asn h := by
    refine ⟨fun m hm => ?_, h.ibgp⟩
    rw [← h.bgp m hm]
    refine Rows.filter_deleteWhere (fun r hr => ?_) _
    rw [beq_iff_eq] at hr
    simp [BgpRow.is, hr, hm]
  deleteIbgp w name h := by
    refine ⟨h.bgp, fun m hm => ?_⟩
    rw [← h.ibgp m hm]
    refine Rows.filter_deleteWhere (fun r hr => ?_) _
    rw [beq_iff_eq] at hr
    simp [IbgpRow.is, hr, hm]

end Closure

/-! ## submissions -/

/-- `I` survives new and decided proposals, and new reports. -/
structure IgnoresSubmissions (I : Db → Prop) : Prop where
  insertProposal : ∀ w n s k payload now id w',
    I w → w.insertProposal n s k payload now = .ok (id, w') → I w'
  updateProposals : ∀ w id (f : ConfigProposal → ConfigProposal), (∀ p, (f p).id = p.id) → I w →
    I { w with configProposals := Rows.updateWhere (fun p => p.id == id) f w.configProposals }
  reports : ∀ w rows seq, I w → I { w with nodeReports := rows, reportSeq := seq }

section Submissions

variable {I : Db → Prop}

/-- What holds whatever the proposals and the reports are. -/
theorem ignores_of_frame (h : ∀ w rows seq, I w →
      I { w with configProposals := rows, proposalSeq := seq })
    (hr : ∀ w rows seq, I w → I { w with nodeReports := rows, reportSeq := seq }) :
    IgnoresSubmissions I where
  insertProposal w n s k payload now id w' hw hi := by
    rw [(insertProposal_ok hi).2]
    exact h w _ _ hw
  updateProposals w id f _ hw := h w _ _ hw
  reports := hr

theorem ignores_proposalsWF : IgnoresSubmissions Db.ProposalsWF where
  insertProposal w n s k payload now id w' hw hi := by
    obtain ⟨-, rfl⟩ := insertProposal_ok hi
    intro p hp
    rcases List.mem_append.mp hp with hp | hp
    · exact Nat.le_succ_of_le (hw p hp)
    · rw [List.mem_singleton.mp hp]
  updateProposals w id f hf hw := by
    intro p hp
    obtain ⟨q, hq, rfl⟩ := List.mem_map.mp hp
    split
    · rw [hf]
      exact hw q hq
    · exact hw q hq
  reports w rows seq hw := hw

/-- A proposal is added. -/
theorem preserves_addProposal (h : IgnoresSubmissions I) (now n src kind : Str)
    (payload : JsonObject) : Preserves I (ProposalStore.add now n src kind payload) := by
  rw [ProposalStore.add]
  split
  · exact .fail _
  · exact .fail _
  · exact .bind (.guarded (.bind (.execute _ fun w id w' hw hi =>
      h.insertProposal w _ _ _ _ _ id w' hw hi) fun _ => .bind .commit fun _ => .pure _))
      fun _ => .readBack _ _ _ _

/-- A proposal is decided. -/
theorem preserves_setStatus (h : IgnoresSubmissions I) (now : Str) (id : Nat)
    (status : ProposalStatus) (m : Option Msg) :
    Preserves I (ProposalStore.setStatus now id status m) := by
  refine .bind (.guarded (.bind (.execute _ fun w k w' hw hr => ?_) fun k =>
    .bind (.abortIf _ _) fun _ => .commit)) fun _ => .readBack _ _ _ _
  simp only [Except.ok.injEq, Prod.mk.injEq] at hr
  rw [← hr.2]
  exact h.updateProposals w id _ (fun _ => rfl) hw

/-- A report is added. -/
theorem preserves_addReport (h : IgnoresSubmissions I) (now n kind : Str) (payload : JsonObject) :
    Preserves I (ReportStore.add now n kind payload) := by
  rw [ReportStore.add]
  split
  · exact .fail _
  · refine .bind (.guarded (.bind (.execute _ fun w id w' hw hi => ?_) fun _ =>
      .bind .commit fun _ => .pure _)) fun _ => .readBack _ _ _ _
    rw [(insertReport_ok hi).2]
    exact h.reports w _ _ hw

/-- A report is marked. -/
theorem preserves_markImported (h : IgnoresSubmissions I) (now : Str) (id : Nat) :
    Preserves I (ReportStore.markImported now id) := by
  refine .bind (.guarded (.bind (.execute _ fun w k w' hw hr => ?_) fun k =>
    .bind (.abortIf _ _) fun _ => .commit)) fun _ => .readBack _ _ _ _
  simp only [Except.ok.injEq, Prod.mk.injEq] at hr
  rw [← hr.2]
  exact h.reports w _ _ hw

end Submissions

/-! ## ids of proposals -/

/-- The table is as it was. -/
theorem proposalsWF_of_eq {db db' : Db} (h : db.ProposalsWF)
    (hrows : db'.configProposals = db.configProposals) (hseq : db'.proposalSeq = db.proposalSeq) :
    db'.ProposalsWF := by
  rw [Db.ProposalsWF, hrows, hseq]
  exact h

/-- Every write of the hub keeps the ids of the proposals apart. -/
theorem proposalsWF_hubStep {db db' : Db} {a : HubAction} (hwf : db.ProposalsWF)
    (h : hubStep db a = some db') : db'.ProposalsWF := by
  have hframe := hubStep_frame h
  by_cases hin : Table.configProposals ∈ a.write.writes
  · simp only [hubStep, Option.some.injEq] at h
    rw [← h]
    have hrun : ∀ {m : DbTx Unit}, Preserves Db.ProposalsWF m →
        (m.run (Conn.fresh db a.fault a.late)).2.committed.ProposalsWF :=
      fun hm => hm.run_fresh hwf _ _
    cases hw : a.write with
    | backfill dryRun => simp [hw, Write.writes] at hin
    | adoptSelf cfg frm dryRun => simp [hw, Write.writes] at hin
    | call c =>
        rw [hw] at hin
        cases c with
        | addProposal n src kind payload =>
            exact hrun (.bind (preserves_addProposal ignores_proposalsWF _ _ _ _ _) fun _ =>
              .pure _)
        | setStatus id st m =>
            exact hrun (.bind (preserves_setStatus ignores_proposalsWF _ _ _ _) fun _ => .pure _)
        | _ => simp [Write.writes, Call.writes] at hin
  · exact proposalsWF_of_eq hwf (hframe.configProposals hin).1 (hframe.configProposals hin).2

/-- The ids of the proposals are distinct in every state. -/
theorem Db.Reachable.proposalsWF {db : Db} (h : db.Reachable) : db.ProposalsWF :=
  Machine.reachable_invariant hubStep (fun _ _ _ => proposalsWF_hubStep)
    (by simp [Db.ProposalsWF, Db.empty]) h

/-- A new id is found in the new row. -/
theorem getProposal_insert {db : Db} (hwf : db.ProposalsWF) {p : ConfigProposal}
    (hid : p.id = db.proposalSeq + 1) :
    (db.configProposals ++ [p]).find? (fun q => q.id == db.proposalSeq + 1) = some p := by
  have hold : db.configProposals.find? (fun q => q.id == db.proposalSeq + 1) = none := by
    rw [List.find?_eq_none]
    intro q hq hqid
    have := hwf q hq
    rw [beq_iff_eq] at hqid
    omega
  rw [List.find?_append, hold, Option.none_or]
  simp [hid]

/-- What `submit_proposal` has read when its first connection is closed. -/
theorem eval_storeProposal {now n src kind : Str} {payload : JsonObject} {db db' : Db}
    {p : ConfigProposal} {policy : WritePolicy} (hwf : db.ProposalsWF)
    (h : eval (storeProposal now n src kind payload) db = (.ok (p, policy), db')) :
    (∃ node, db.getNode n = some node ∧ node.writePolicy = policy) ∧
      p.nodeId = n ∧ ProposalKind.ofText kind = some p.kind ∧ p.payload = payload ∧
      db'.configProposals = db.configProposals ++ [p] := by
  obtain ⟨c', hrun, hc⟩ := eval_eq_ok.mp h
  obtain ⟨-, hrun⟩ := bind_queryOr hrun
  cases hnode : db.getNode n with
  | none => simp [hnode] at hrun
  | some node =>
      simp only [hnode] at hrun
      obtain ⟨q, c1, hadd, hret⟩ := Prog.run_bind_eq_ok.mp hrun
      simp only [Prog.run_pure, Prod.mk.injEq, Except.ok.injEq] at hret
      obtain ⟨⟨rfl, hpolicy⟩, hfinal⟩ := hret
      rw [ProposalStore.add] at hadd
      cases hs : ProposalSource.ofText src with
      | none => simp [hs] at hadd
      | some s =>
          cases hk : ProposalKind.ofText kind with
          | none => simp [hs, hk] at hadd
          | some k =>
              simp only [hs, hk] at hadd
              obtain ⟨rowId, c2, h1, h2⟩ := Prog.run_bind_eq_ok.mp hadd
              obtain ⟨x, w, -, hw, h1⟩ := bind_execute (run_guarded_eq_ok.mp h1)
              have hx : rowId = x := by
                obtain ⟨u, c3, -, h3⟩ := Prog.run_bind_eq_ok.mp h1
                simp only [Prog.run_pure, Prod.mk.injEq, Except.ok.injEq] at h3
                exact h3.1.symm
              obtain ⟨hid, rfl⟩ := insertProposal_ok hw
              rw [committed_of_commit_pure h1] at h2
              obtain ⟨-, hfound, hread⟩ := run_readBack_eq_ok.mp h2
              rw [Db.getProposal, hx, hid, getProposal_insert hwf rfl, Option.some.injEq] at hfound
              subst hfound
              rw [← hc, ← hfinal, hread]
              exact ⟨⟨node, rfl, hpolicy⟩, rfl, rfl, rfl, rfl⟩

/-! ## one submission -/

section Submit

variable {I : Db → Prop} {n : Str}

/-- A submitted proposal is stored under the node that submits it. -/
theorem preserves_storeProposal (h : IgnoresSubmissions I) (now src kind : Str)
    (payload : JsonObject) : Preserves I (storeProposal now n src kind payload) := by
  refine .bind (.queryOr _ _ _) fun found => ?_
  cases found with
  | none => exact .fail _
  | some node => exact .bind (preserves_addProposal h _ _ _ _ _) fun p => .pure _

/-- Accepting on submission adds peers of the submitting node only. -/
theorem maintains_tryAutoAccept {p : ConfigProposal} (hadd : AddsPeersOf p.nodeId I)
    (hign : IgnoresSubmissions I) (hn : p.nodeId ≠ []) (env : PeerEnv) (cfg : Str)
    (policy : WritePolicy) : Maintains I (tryAutoAccept env cfg p policy) := by
  rw [tryAutoAccept]
  split
  · rename_i hauto
    -- only a new peer is applied without a decision
    have hkind : p.kind = .peerAdd := by
      simp only [autoAccepts, Bool.and_eq_true, decide_eq_true_eq] at hauto
      exact hauto.1.2
    refine .bind (.catching (.bind ?_ fun _ => .pure _) fun e => ?_) fun failed => ?_
    · rw [applyProposal, hkind]
      exact maintains_applyPeerAdd env cfg _ _ (by rwa [orDefault_some hn])
    · split
      · exact .pure _
      · exact .raise _
    · cases failed with
      | some err => exact maintains_onConnection (preserves_setStatus hign _ _ _ _)
      | none => exact maintains_onConnection (preserves_setStatus hign _ _ _ _)
  · exact .pure _

/-- What `submit_proposal` leaves: nothing new, a stored proposal, or one it has
tried to accept. -/
theorem submitProposal_cases (env : PeerEnv) (src kind : Str) (payload : Json)
    (config : Option Str) (w : Db) :
    ((submitProposal env n src kind payload config).run w).2 = w ∨
    ∃ obj, ((submitProposal env n src kind payload config).run w).2 =
        ((onConnection (storeProposal env.now n src kind obj)).run w).2 ∨
      ∃ p policy w' cfg,
        (onConnection (storeProposal env.now n src kind obj)).run w = (.ok (p, policy), w') ∧
        ((submitProposal env n src kind payload config).run w).2 =
          ((tryAutoAccept env cfg p policy).run w').2 := by
  unfold submitProposal
  split
  · exact .inl rfl
  · exact .inl rfl
  · rename_i obj _ _
    refine .inr ⟨obj, ?_⟩
    rw [run_bind]
    cases hrun : (onConnection (storeProposal env.now n src kind obj)).run w with
    | mk r w' =>
        cases r with
        | error e => exact .inl rfl
        | ok submitted =>
            cases config with
            | none => exact .inl rfl
            | some cfg => exact .inr ⟨submitted.1, submitted.2, w', cfg, rfl, rfl⟩
  · exact .inl rfl

/-- A submission adds peers of the submitting node only. -/
theorem maintains_submitProposal (hadd : AddsPeersOf n I) (hign : IgnoresSubmissions I)
    (hwf : ∀ w, I w → w.ProposalsWF) (hn : n ≠ []) (env : PeerEnv) (src kind : Str)
    (payload : Json) (config : Option Str) :
    Maintains I (submitProposal env n src kind payload config) := by
  intro w hw
  have hstored : ∀ obj, I ((onConnection (storeProposal env.now n src kind obj)).run w).2 :=
    fun obj => maintains_onConnection (preserves_storeProposal hign env.now src kind obj) w hw
  rcases submitProposal_cases (n := n) env src kind payload config w with
    h | ⟨obj, h | ⟨p, policy, w', cfg, hrun, h⟩⟩
  · rw [h]
    exact hw
  · rw [h]
    exact hstored obj
  · obtain ⟨-, hnode, -⟩ := eval_storeProposal (hwf w hw) hrun
    have hw' := hstored obj
    rw [hrun] at hw'
    rw [h]
    rw [← hnode] at hadd hn
    exact maintains_tryAutoAccept hadd hign hn env cfg policy w' hw'

/-- A report adds no peer. -/
theorem maintains_submitReport (hign : IgnoresSubmissions I) (now kind : Str) (payload : Json) :
    Maintains I (submitReport now n kind payload) := by
  unfold submitReport
  split
  · exact .raise _
  · refine maintains_onConnection (.bind (.queryOr _ _ _) fun found => ?_)
    cases found with
    | none => exact .fail _
    | some node => exact preserves_addReport hign _ _ _ _
  · exact .raise _

/-- A proposal is applied at once only under the policy, and only a new peer. -/
theorem submitProposal_review (hign : IgnoresSubmissions I) {w : Db} (hwf : w.ProposalsWF)
    (hw : I w) (env : PeerEnv) (src kind : Str) (payload : Json) (config : Option Str)
    (hreview : ∀ node, w.getNode n = some node → ProposalKind.ofText kind = some .peerAdd →
      node.writePolicy.peerAdd ≠ .autoAccept) :
    I ((submitProposal env n src kind payload config).run w).2 := by
  have hstored : ∀ obj, I ((onConnection (storeProposal env.now n src kind obj)).run w).2 :=
    fun obj => maintains_onConnection (preserves_storeProposal hign env.now src kind obj) w hw
  rcases submitProposal_cases (n := n) env src kind payload config w with
    h | ⟨obj, h | ⟨p, policy, w', cfg, hrun, h⟩⟩
  · rw [h]
    exact hw
  · rw [h]
    exact hstored obj
  · obtain ⟨⟨node, hnode, hpolicy⟩, -, hkind, -⟩ := eval_storeProposal hwf hrun
    have hnot : autoAccepts p policy = false := by
      by_contra hauto
      simp only [Bool.not_eq_false, autoAccepts, Bool.and_eq_true, decide_eq_true_eq] at hauto
      rw [hauto.1.2] at hkind
      rw [← hpolicy] at hauto
      exact hreview node hnode hkind hauto.2
    have hw' := hstored obj
    rw [hrun] at hw'
    rw [h, tryAutoAccept, hnot]
    exact hw'

end Submit

/-! ## runs of submissions -/

/-- A call made with a node's token. -/
inductive Submission where
  | proposal (env : PeerEnv) (source kind : Str) (payload : Json) (config : Option Str)
  | report (now kind : Str) (payload : Json)

def Submission.run (n : Str) : Submission → Service Unit
  | .proposal env source kind payload config => do
      let _ ← submitProposal env n source kind payload config
  | .report now kind payload => do
      let _ ← submitReport now n kind payload

/-- The database after a submission of node `n`, whether it returned or raised. -/
def submitStep (n : Str) (db : Db) (s : Submission) : Option Db := some ((s.run n).run db).2

/-- A new peer, submitted to a hub that accepts them of node `n` by itself. -/
def Submission.AutoAccepted (n : Str) (db : Db) : Submission → Prop
  | .proposal _ _ kind _ _ =>
      ProposalKind.ofText kind = some .peerAdd ∧
        ∃ node, db.getNode n = some node ∧ node.writePolicy.peerAdd = .autoAccept
  | .report .. => False

/-- What a run of submissions of node `n` keeps of `db`. -/
structure Confined (n : Str) (db w : Db) : Prop where
  authority : SameAuthority db w
  added : PeersAdded n db w
  proposals : w.ProposalsWF

section Confined

variable {n : Str} {db : Db}

/-- Both at once. -/
theorem addsPeers_confined : AddsPeersOf n (Confined n db) where
  nodes w rows h := ⟨addsPeers_authority.nodes w rows h.authority (n := n),
    addsPeers_added.nodes w rows h.added, h.proposals⟩
  queue w e s l h := ⟨addsPeers_authority.queue w e s l h.authority (n := n),
    addsPeers_added.queue w e s l h.added, h.proposals⟩
  addBgp w row hrow h := ⟨addsPeers_authority.addBgp w row hrow h.authority,
    addsPeers_added.addBgp w row hrow h.added, h.proposals⟩
  addIbgp w row hrow h := ⟨addsPeers_authority.addIbgp w row hrow h.authority,
    addsPeers_added.addIbgp w row hrow h.added, h.proposals⟩

theorem ignores_confined : IgnoresSubmissions (Confined n db) where
  insertProposal w m s k payload now id w' h hi := by
    refine ⟨?_, ?_, ignores_proposalsWF.insertProposal w m s k payload now id w' h.proposals hi⟩
    · rw [(insertProposal_ok hi).2]
      exact ⟨h.authority.managedNodes, h.authority.desiredPins, h.authority.configRevisions⟩
    · rw [(insertProposal_ok hi).2]
      exact ⟨h.added.bgp, h.added.ibgp⟩
  updateProposals w id f hf h :=
    ⟨⟨h.authority.managedNodes, h.authority.desiredPins, h.authority.configRevisions⟩,
      ⟨h.added.bgp, h.added.ibgp⟩, ignores_proposalsWF.updateProposals w id f hf h.proposals⟩
  reports w rows seq h :=
    ⟨⟨h.authority.managedNodes, h.authority.desiredPins, h.authority.configRevisions⟩,
      ⟨h.added.bgp, h.added.ibgp⟩, h.proposals⟩

/-- One submission of a node is confined to it. -/
theorem confined_step (hn : n ≠ []) {w w' : Db} {s : Submission} (h : Confined n db w)
    (hs : submitStep n w s = some w') : Confined n db w' := by
  simp only [submitStep, Option.some.injEq] at hs
  rw [← hs]
  cases s with
  | proposal env src kind payload config =>
      exact Maintains.bind (maintains_submitProposal addsPeers_confined ignores_confined
        (fun _ h => h.proposals) hn env src kind payload config) (fun _ => .pure _) w h
  | report now kind payload =>
      exact Maintains.bind (maintains_submitReport ignores_confined now kind payload)
        (fun _ => .pure _) w h

/-- A run of submissions is. -/
theorem confined_run (hn : n ≠ []) {w w' : Db} {calls : List Submission} (h : Confined n db w)
    (hrun : Machine.exec (submitStep n) w calls = some w') : Confined n db w' :=
  Machine.reachable_invariant (submitStep n) (fun _ _ _ h hs => confined_step hn h hs) h
    ⟨calls, hrun⟩

/-- A submission that is not accepted at once leaves the peers alone. -/
theorem samePeers_step {w w' : Db} {s : Submission} (h : Confined n db w)
    (hs : submitStep n w s = some w') (hnot : ¬ s.AutoAccepted n db) : SamePeers w w' := by
  have hign : IgnoresSubmissions (SamePeers w) :=
    ignores_of_frame (fun _ _ _ h => ⟨h.bgp, h.ibgp⟩) fun _ _ _ h => ⟨h.bgp, h.ibgp⟩
  simp only [submitStep, Option.some.injEq] at hs
  rw [← hs]
  cases s with
  | proposal env src kind payload config =>
      have hsame := submitProposal_review (n := n) hign h.proposals ⟨rfl, rfl⟩ env src kind payload
        config fun node hnode hkind hauto => hnot ⟨hkind, node, by
          rw [Db.getNode, ← h.authority.managedNodes]
          exact hnode, hauto⟩
      rw [Submission.run, run_bind]
      cases hrun : (submitProposal env n src kind payload config).run w with
      | mk r w' =>
          rw [hrun] at hsame
          cases r with
          | ok p => exact hsame
          | error e => exact hsame
  | report now kind payload =>
      exact Maintains.bind (maintains_submitReport hign now kind payload) (fun _ => .pure _) w
        ⟨rfl, rfl⟩

end Confined

/-! ## decisions on what a node has submitted -/

section Decide

variable {n : Str}

theorem ignores_others {w : Db} : IgnoresSubmissions (SameOthers n w) :=
  ignores_of_frame (fun _ _ _ h => ⟨h.bgp, h.ibgp⟩) fun _ _ _ h => ⟨h.bgp, h.ibgp⟩

theorem sameOthers_refl (w : Db) : SameOthers n w w := ⟨fun _ _ => rfl, fun _ _ => rfl⟩

/-- An accepted proposal changes the peers of its node only. -/
theorem acceptProposal_others (hn : n ≠ []) (env : PeerEnv) (cfg : Str) {w : Db} {id : Nat}
    {p : ConfigProposal} (hp : w.getProposal id = some p) (hpn : p.nodeId = n) :
    SameOthers n w ((acceptProposal env cfg id).run w).2 := by
  have hread := maintains_onConnection (preserves_requirePending (I := (· = w)) id "接受") w rfl
  rw [acceptProposal]
  cases hrun : (onConnection (requirePending id "接受")).run w with
  | mk r w' =>
      rw [hrun] at hread
      dsimp only at hread
      subst hread
      cases r with
      | error e =>
          rw [run_bind_error hrun]
          exact sameOthers_refl w'
      | ok q =>
          obtain ⟨hq, -, -⟩ := eval_requirePending hrun
          rw [hp, Option.some.injEq] at hq
          subst hq hpn
          rw [run_bind_ok hrun]
          have hedits : EditsPeersOf (orDefault (some p.nodeId) cfg) (SameOthers p.nodeId w') := by
            rw [orDefault_some hn]
            exact editsPeers_others
          exact Maintains.bind (maintains_applyProposal env cfg hedits)
            (fun _ => maintains_onConnection (preserves_setStatus ignores_others _ _ _ _)) w'
            (sameOthers_refl w')

/-- An imported report changes the peers of its node only. -/
theorem importReport_others (hn : n ≠ []) (env : Nat → PeerEnv) (now cfg : Str) {w : Db}
    {id : Nat} {r : NodeReport} (hr : w.getReport id = some r) (hrn : r.nodeId = n) :
    SameOthers n w ((importReport env now cfg id).run w).2 := by
  have hread := maintains_onConnection (preserves_requireImportable (I := (· = w)) id) w rfl
  rw [importReport_eq]
  cases hrun : (onConnection (requireImportable id)).run w with
  | mk result w' =>
      rw [hrun] at hread
      dsimp only at hread
      subst hread
      cases result with
      | error e =>
          rw [run_bind_error hrun]
          exact sameOthers_refl w'
      | ok q =>
          obtain ⟨hq, -⟩ := eval_requireImportable hrun
          rw [hr, Option.some.injEq] at hq
          subst hq hrn
          rw [run_bind_ok hrun]
          have hadds : AddsPeersOf (orDefault (some r.nodeId) cfg) (SameOthers r.nodeId w') := by
            rw [orDefault_some hn]
            exact editsPeers_others.toAddsPeersOf
          refine Maintains.bind (maintains_importEntries env cfg hadds) (fun counts => ?_) w'
            (sameOthers_refl w')
          exact .bind (maintains_onConnection (preserves_markImported ignores_others _ _))
            fun _ => .pure _

end Decide

/-! ## confinement -/

/-- **Confinement.**  Whatever node `n` submits, the hub's records and the peers
that exist stay as they are; peers are only added, only to `n`, and only by a
new peer under a policy that accepts it.  Accepting one of `n`'s proposals or
importing one of its reports leaves the peers of the other nodes alone.  The empty
id is no managed node's where the services have made the nodes. -/
theorem node_token_confined {db db' : Db} {n : Str} {calls : List Submission} (hdb : db.Reachable)
    (hnode : n ≠ [] ∨ db.Administered ∧ (db.getNode n).isSome)
    (hrun : Machine.exec (submitStep n) db calls = some db') :
    SameAuthority db db' ∧ PeersAdded n db db' ∧
    Machine.Along (submitStep n) (fun w s => ∀ w', submitStep n w s = some w' →
      ¬ SamePeers w w' → s.AutoAccepted n db) db calls ∧
    (∀ w env cfg id p, Db.getProposal id w = some p → p.nodeId = n →
      SameOthers n w ((acceptProposal env cfg id).run w).2) ∧
    ∀ w env now cfg id r, Db.getReport id w = some r → r.nodeId = n →
      SameOthers n w ((importReport env now cfg id).run w).2 := by
  have hn : n ≠ [] := hnode.elim id fun h => h.1.nodeId_ne_nil h.2
  have hstart : Confined n db db :=
    ⟨⟨rfl, rfl, rfl⟩, ⟨⟨[], by simp, by simp⟩, ⟨[], by simp, by simp⟩⟩, hdb.proposalsWF⟩
  have hend := confined_run hn hstart hrun
  refine ⟨hend.authority, hend.added, ?_, ?_, ?_⟩
  · refine Machine.along_of_invariant (submitStep n) (fun _ _ _ h hs => confined_step hn h hs)
      (fun w s h w' hs hchanged => ?_) hstart calls
    by_contra hnot
    exact hchanged (samePeers_step h hs hnot)
  · intro w env cfg id p hp hpn
    exact acceptProposal_others hn env cfg hp hpn
  · intro w env now cfg id r hr hrn
    exact importReport_others hn env now cfg hr hrn

/-! ### a peer accepted at once -/

/-- The id of a node that `add_node` accepts. -/
def trustedNode : Str := lit "6ba7b810-9dad-11d1-80b4-00c04fd430c8"

/-- A node whose new peers are accepted at once. -/
def trustingRun : List HubAction :=
  [⟨.call (.addNode trustedNode (lit "alpha")), lit "t0", none, false⟩,
    ⟨.call (.setWritePolicy trustedNode [(lit "peer_add", lit "auto_accept")]), lit "t1", none,
      false⟩]

def trustingDb : Db := (Machine.exec hubStep Db.empty trustingRun).getD Db.empty

def sampleSubmissions : List Submission :=
  [.proposal (sampleEnv (lit "t2")) (lit "push") (lit "peer_add") (.dict samplePayload)
      (some (lit "hub")),
    .report (lit "t3") (lit "scan_result") (.dict [])]

def submittedDb : Db :=
  (Machine.exec (submitStep trustedNode) trustingDb sampleSubmissions).getD trustingDb

theorem node_token_confined_sample :
    submittedDb.bgpPeers.map (fun r => r.nodeId) = [trustedNode] ∧
      SameAuthority trustingDb submittedDb ∧ PeersAdded trustedNode trustingDb submittedDb := by
  have hadmitted : ∀ a ∈ trustingRun, a.Admitted := by decide +kernel
  have hadministered : trustingDb.Administered := ⟨trustingRun, hadmitted, rfl⟩
  have hrun : Machine.exec (submitStep trustedNode) trustingDb sampleSubmissions =
      some submittedDb := rfl
  have h := node_token_confined hadministered.reachable (.inr ⟨hadministered, by decide +kernel⟩)
    hrun
  exact ⟨by decide +kernel, h.1, h.2.1⟩

end Dn42Ctl
