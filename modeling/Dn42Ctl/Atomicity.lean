import Dn42Ctl.Effects

/-!
# Atomicity

Every mutator is all or nothing: from a connection without an open transaction
it returns with everything committed, or raises with the database as it was.
The one way to raise after the commit is a read-back that fails.
-/

namespace Dn42Ctl

open Text Txn

/-! ## the announcements inside a transaction -/

/-- An event is part of a transaction. -/
theorem body_emitSyncEvent (now n : Str) (kind : SyncKind) : Body (emitSyncEvent now n kind) :=
  .bind (.execute _ _) fun newId => by
    split
    · exact .modify _ _
    · exact .pure _

/-- The end of every announcing mutator. -/
theorem committing_emit (now n : Str) (kind : SyncKind) :
    Committing (emitSyncEvent now n kind >>= fun _ => commit) :=
  .bind (body_emitSyncEvent now n kind) fun _ => .commit

/-- So is the lookup after an update. -/
theorem body_requireMatched {ρ : Type} (rowcount : Nat) (bd : Option BindError)
    (lookup : Db → Option ρ) (missing : PyError) :
    Body (Database.requireMatched rowcount (query bd lookup) missing) := by
  rw [Database.requireMatched]
  split
  · exact .bind (.query _ _) fun found => .abortIf _ _
  · exact .pure _

/-! ## rows that are read back are there -/

/-- The queue holds no nodes. -/
theorem emitAll_managedNodes (now : Str) (events : List (Str × SyncKind)) (db : Db) :
    (db.emitAll now events).managedNodes = db.managedNodes := by
  induction events generalizing db with
  | nil => rfl
  | cons e es ih => exact (ih _).trans rfl

/-- Propagated changes are made to peers. -/
theorem applyChanges_managedNodes (now : Str) (changes : List PropagatedChange) (db : Db) :
    (db.applyChanges now changes).managedNodes = db.managedNodes := by
  induction changes generalizing db with
  | nil => rfl
  | cons c cs ih => exact (ih _).trans rfl

/-- A read-back that finds its row returns. -/
theorem eval_readBack_ok {α : Type} {msg missing : PyError} {bd : Option BindError}
    {f : Db → Option α} {db : Db} (hb : bd = none) (hf : (f db).isSome) :
    ∃ b, eval (readBack msg missing bd f) db = (.ok b, db) := by
  obtain ⟨b, hb'⟩ := Option.isSome_iff_exists.mp hf
  exact ⟨b, eval_eq_ok.mpr ⟨_, run_readBack_eq_ok.mpr ⟨hb, hb', rfl⟩, rfl⟩⟩

/-- The row just appended is found by its key. -/
theorem isSome_find?_append {α : Type} {p : α → Bool} {rows : List α} {r : α} (h : p r = true) :
    ((rows ++ [r]).find? p).isSome := by
  rw [List.find?_isSome]
  exact ⟨r, by simp, h⟩

/-- A node that was updated is there to be read back. -/
theorem isSome_getNode_updateNodes {n : Str} {f : ManagedNode → ManagedNode} {db : Db}
    (hf : ∀ m, (f m).nodeId = m.nodeId)
    (h : (db.managedNodes.countP fun m => m.nodeId == n) ≠ 0) :
    (((db.updateNodes n f).2).getNode n).isSome := by
  simp only [Db.getNode, Db.updateNodes]
  rw [Rows.find?_updateWhere (fun m _ _ => by rw [hf m]), Option.isSome_map]
  exact isSome_of_countP h

theorem isSome_getNode_of_rowcount {n : Str} {f : ManagedNode → ManagedNode} {db w : Db}
    {rowcount : Nat} (h : db.updateNodes n f = (rowcount, w)) (hf : ∀ m, (f m).nodeId = m.nodeId)
    (hzero : (rowcount == 0) = false) : (w.getNode n).isSome := by
  have hcount : db.managedNodes.countP (fun m => m.nodeId == n) = rowcount := congrArg Prod.fst h
  have hw : (db.updateNodes n f).2 = w := congrArg Prod.snd h
  rw [← hw]
  exact isSome_getNode_updateNodes hf (hcount ▸ beq_eq_false_iff_ne.mp hzero)

/-! ## the mutators -/

/-- The calls that read their row back after the commit. -/
def Call.readsBack : Call → Bool
  | .addNode .. | .upsertSelf .. | .setWritePolicy .. | .setName .. | .setEnabled ..
  | .setAddresses .. | .applyAddressUpdate .. | .addProposal .. | .setStatus .. | .addReport ..
  | .markImported .. | .record .. => true
  | _ => false

section Atomic

variable (now : Str)

/-- The deletion of a peer. -/
theorem atomic_deletePeer {ρ : Type} (msg failed : PyError) (bd bd' : Option BindError)
    (lookup : Db → Option ρ) (delete : Db → Db) (n : Str) :
    Atomic false (Database.deletePeer (queryOr msg bd lookup) bd' delete failed now n) :=
  .bind_read (.queryOr ..) fun row => by
    cases row with
    | none => exact .pure _
    | some r =>
        exact .guarded (.bind (.modify _ _) fun _ =>
          .bind (body_emitSyncEvent ..) fun _ => Committing.commit.map fun _ => some r)

/-- A new node. -/
theorem atomic_add (n name : Str) : Atomic true (ManagedNodeStore.add now n name) := by
  refine .then_read (.guarded (.bind (.modify _ _) fun _ => .bind (.execute _ _) fun _ => .commit))
    (fun _ => .readBack ..) fun db u db' h => ?_
  obtain ⟨c', hrun, rfl⟩ := eval_eq_ok.mp h
  obtain ⟨hb, hrun⟩ := bind_modify (run_guarded_eq_ok.mp hrun)
  obtain ⟨x, w, -, hw, hrun⟩ := bind_execute hrun
  rw [committed_of_commit hrun]
  refine eval_readBack_ok hb ?_
  rw [Db.insertNode] at hw
  split at hw
  · simp at hw
  · split at hw
    · simp at hw
    · simp only [Except.ok.injEq, Prod.mk.injEq] at hw
      rw [← hw.2]
      exact isSome_find?_append (by simp [ManagedNodeStore.newNode])

/-- The row of the node itself is there to be read back. -/
theorem isSome_getNode_upsertSelfRow {node : ManagedNode} {db db' : Db} {u : Unit}
    (h : db.upsertSelfRow node = .ok (u, db')) : (db'.getNode node.nodeId).isSome := by
  rw [Db.upsertSelfRow] at h
  split at h
  · rename_i hany
    split at h
    · simp at h
    · simp only [Except.ok.injEq, Prod.mk.injEq] at h
      rw [← h.2]
      refine isSome_getNode_updateNodes (fun m => rfl) ?_
      rw [Ne, List.countP_eq_zero]
      simpa using hany
  · rw [Db.insertNode] at h
    split at h
    · simp at h
    · split at h
      · simp at h
      · simp only [Except.ok.injEq, Prod.mk.injEq] at h
        rw [← h.2]
        exact isSome_find?_append (by simp)

/-- The registration of the node itself. -/
theorem atomic_upsertSelf (n name : Str) :
    Atomic true (ManagedNodeStore.upsertSelf now n name) := by
  refine .then_read (.guarded (.bind (.modify _ _) fun _ => .bind (.modify _ _) fun _ =>
    .bind (.execute _ _) fun _ => .commit)) (fun _ => .readBack ..) fun db u db' h => ?_
  obtain ⟨c', hrun, rfl⟩ := eval_eq_ok.mp h
  obtain ⟨hb, hrun⟩ := bind_modify (run_guarded_eq_ok.mp hrun)
  obtain ⟨-, hrun⟩ := bind_modify hrun
  obtain ⟨x, w, -, hw, hrun⟩ := bind_execute hrun
  rw [committed_of_commit hrun]
  exact eval_readBack_ok hb (isSome_getNode_upsertSelfRow hw)

/-- The deletion of a node. -/
theorem atomic_delete (n : Str) (force : Bool) :
    Atomic false (ManagedNodeStore.delete now n force) :=
  .bind_read (.queryOr ..) fun row => by
    cases row with
    | none => exact .pure _
    | some existing =>
        dsimp only
        split
        · exact .fail _
        · exact .map (.guarded (.bind (.modify _ _) fun _ => committing_emit ..)) fun _ =>
            some existing

theorem atomic_setTokenHash (n hash : Str) :
    Atomic false (ManagedNodeStore.setTokenHash now n hash) :=
  .guarded (.bind (.execute _ _) fun _ => .bind (.abortIf _ _) fun _ => committing_emit ..)

/-- The write policy. -/
theorem atomic_setWritePolicy (n : Str) (policy : List (Str × Str)) :
    Atomic true (ManagedNodeStore.setWritePolicy now n policy) := by
  have hlift : ReadOnly (Prog.lift ((validateWritePolicy policy).mapError Exc.raised) :
      DbTx WritePolicy) := by
    cases validateWritePolicy policy with
    | ok p => exact .pure p
    | error e => exact .fail e
  refine .bind_read hlift fun normalized => ?_
  refine .then_read (.guarded (.bind (.execute _ _) fun _ => .bind (.abortIf _ _) fun _ =>
    .commit)) (fun _ => .readBack ..) fun db u db' h => ?_
  obtain ⟨c', hrun, rfl⟩ := eval_eq_ok.mp h
  obtain ⟨rowcount, w, hb, hw, hrun⟩ := bind_execute (run_guarded_eq_ok.mp hrun)
  simp only [Except.ok.injEq] at hw
  obtain ⟨hzero, hrun⟩ := bind_abortIf hrun
  rw [committed_of_commit hrun]
  exact eval_readBack_ok hb (isSome_getNode_of_rowcount hw (fun m => rfl) hzero)

/-- The columns of a node, with what they propagate. -/
theorem atomic_updateFields (n : Str) (fields : NodeFields) (events : List (Str × SyncKind))
    (changes : List PropagatedChange) :
    Atomic true (ManagedNodeStore.updateFields now n fields events changes) := by
  refine .then_read (.guarded (.bind (.execute _ _) fun _ => .bind (.abortIf _ _) fun _ =>
    .bind (.forM (fun _ => .modify _ _) _) fun _ =>
      .bind (.forM (fun _ => body_emitSyncEvent ..) _) fun _ => .commit))
    (fun _ => .readBack ..) fun db u db' h => ?_
  obtain ⟨c', hrun, rfl⟩ := eval_eq_ok.mp h
  obtain ⟨rowcount, w, hb, hw, hrun⟩ := bind_execute (run_guarded_eq_ok.mp hrun)
  simp only [Except.ok.injEq] at hw
  obtain ⟨hzero, hrun⟩ := bind_abortIf hrun
  obtain ⟨u1, c1, hchanges, hrun⟩ := Prog.run_bind_eq_ok.mp hrun
  obtain ⟨t1, rfl⟩ := run_changes_eq_ok hchanges
  obtain ⟨u2, c2, hevents, hrun⟩ := Prog.run_bind_eq_ok.mp hrun
  obtain ⟨t2, rfl⟩ := run_emitAll_eq_ok hevents
  rw [committed_of_commit hrun]
  refine eval_readBack_ok (params_of_subset hb (by simp)) ?_
  rw [Db.getNode, emitAll_managedNodes, applyChanges_managedNodes]
  exact isSome_getNode_of_rowcount hw (fun m => rfl) hzero

/-- The addresses of a node. -/
theorem atomic_setAddresses (n : Str) (host v6 rid : Patch (Option Str)) :
    Atomic true (ManagedNodeStore.setAddresses now n host v6 rid) := by
  rw [ManagedNodeStore.setAddresses]
  split
  · exact .of_readOnly (.readBack ..)
  · exact atomic_updateFields ..

/-- A new proposal. -/
theorem atomic_addProposal (n src kind : Str) (payload : JsonObject) :
    Atomic true (ProposalStore.add now n src kind payload) := by
  rw [ProposalStore.add]
  split
  · exact .fail _
  · exact .fail _
  · refine .then_read (.guarded (.bind (.execute _ _) fun _ => Committing.commit.map fun _ => _))
      (fun _ => .readBack ..) fun db rowId db' h => ?_
    obtain ⟨c', hrun, rfl⟩ := eval_eq_ok.mp h
    obtain ⟨x, w, -, hw, hrun⟩ := bind_execute (run_guarded_eq_ok.mp hrun)
    obtain ⟨u, c1, h1, h2⟩ := Prog.run_bind_eq_ok.mp hrun
    simp only [Prog.run_pure, Prod.mk.injEq, Except.ok.injEq] at h2
    rw [← h2.1, ← h2.2, committed_of_commit h1]
    refine eval_readBack_ok rfl ?_
    rw [Db.insertProposal] at hw
    split at hw
    · simp at hw
    · simp only [Except.ok.injEq, Prod.mk.injEq] at hw
      rw [← hw.1, ← hw.2]
      exact isSome_find?_append (by simp)

/-- The status of a proposal. -/
theorem atomic_setStatus (id : Nat) (st : ProposalStatus) (m : Option Msg) :
    Atomic true (ProposalStore.setStatus now id st m) := by
  refine .then_read (.guarded (.bind (.execute _ _) fun _ => .bind (.abortIf _ _) fun _ =>
    .commit)) (fun _ => .readBack ..) fun db u db' h => ?_
  obtain ⟨c', hrun, rfl⟩ := eval_eq_ok.mp h
  obtain ⟨rowcount, w, hb, hw, hrun⟩ := bind_execute (run_guarded_eq_ok.mp hrun)
  simp only [Except.ok.injEq, Prod.mk.injEq] at hw
  obtain ⟨rfl, rfl⟩ := hw
  obtain ⟨hzero, hrun⟩ := bind_abortIf hrun
  rw [committed_of_commit hrun]
  refine eval_readBack_ok (params_of_subset hb (by simp)) ?_
  simp only [Db.getProposal]
  rw [Db.decided, Rows.find?_updateWhere (fun p _ _ => by rfl), Option.isSome_map]
  exact isSome_of_countP (beq_eq_false_iff_ne.mp hzero)

/-- A new report. -/
theorem atomic_addReport (n kind : Str) (payload : JsonObject) :
    Atomic true (ReportStore.add now n kind payload) := by
  rw [ReportStore.add]
  split
  · exact .fail _
  · refine .then_read (.guarded (.bind (.execute _ _) fun _ => Committing.commit.map fun _ => _))
      (fun _ => .readBack ..) fun db rowId db' h => ?_
    obtain ⟨c', hrun, rfl⟩ := eval_eq_ok.mp h
    obtain ⟨x, w, -, hw, hrun⟩ := bind_execute (run_guarded_eq_ok.mp hrun)
    obtain ⟨u, c1, h1, h2⟩ := Prog.run_bind_eq_ok.mp hrun
    simp only [Prog.run_pure, Prod.mk.injEq, Except.ok.injEq] at h2
    rw [← h2.1, ← h2.2, committed_of_commit h1]
    refine eval_readBack_ok rfl ?_
    rw [Db.insertReport] at hw
    split at hw
    · simp at hw
    · simp only [Except.ok.injEq, Prod.mk.injEq] at hw
      rw [← hw.1, ← hw.2]
      exact isSome_find?_append (by simp)

/-- A report that is marked as imported. -/
theorem atomic_markImported (id : Nat) : Atomic true (ReportStore.markImported now id) := by
  refine .then_read (.guarded (.bind (.execute _ _) fun _ => .bind (.abortIf _ _) fun _ =>
    .commit)) (fun _ => .readBack ..) fun db u db' h => ?_
  obtain ⟨c', hrun, rfl⟩ := eval_eq_ok.mp h
  obtain ⟨rowcount, w, hb, hw, hrun⟩ := bind_execute (run_guarded_eq_ok.mp hrun)
  simp only [Except.ok.injEq, Prod.mk.injEq] at hw
  obtain ⟨rfl, rfl⟩ := hw
  obtain ⟨hzero, hrun⟩ := bind_abortIf hrun
  rw [committed_of_commit hrun]
  refine eval_readBack_ok hb ?_
  simp only [Db.getReport]
  rw [Rows.find?_updateWhere (fun p _ _ => by rfl), Option.isSome_map]
  exact isSome_of_countP (beq_eq_false_iff_ne.mp hzero)

/-- A snapshot. -/
theorem atomic_record (n rev gen : Str) (payload : DesiredState) :
    Atomic true (RevisionStore.record n rev gen payload) :=
  .bind_read (.queryOr ..) fun existing => by
    cases existing with
    | some r => exact .pure _
    | none =>
        refine .then_read
          (.guarded (.bind (.execute _ _) fun _ => Committing.commit.map fun _ => _))
          (fun _ => .readBack ..) fun db rowId db' h => ?_
        obtain ⟨c', hrun, rfl⟩ := eval_eq_ok.mp h
        obtain ⟨x, w, -, hw, hrun⟩ := bind_execute (run_guarded_eq_ok.mp hrun)
        obtain ⟨u, c1, h1, h2⟩ := Prog.run_bind_eq_ok.mp hrun
        simp only [Prog.run_pure, Prod.mk.injEq, Except.ok.injEq] at h2
        rw [← h2.1, ← h2.2, committed_of_commit h1]
        refine eval_readBack_ok rfl ?_
        rw [Db.insertRevision] at hw
        split at hw
        · simp at hw
        · split at hw
          · simp at hw
          · simp only [Except.ok.injEq, Prod.mk.injEq] at hw
            rw [← hw.1, ← hw.2]
            exact isSome_find?_append (by simp)

/-- The deletion of old snapshots. -/
theorem atomic_trim (n : Str) (keep : Int) : Atomic false (RevisionStore.trim n keep) :=
  .guarded (.bind (.execute _ _) fun _ => Committing.commit.map fun _ => _)

/-- A pin. -/
theorem atomic_pin (n rev : Str) : Atomic false (RevisionStore.pin now n rev) :=
  .bind_read (.queryOr ..) fun existing => by
    cases existing with
    | none => exact .fail _
    | some r => exact .guarded (.bind (.execute _ _) fun _ => committing_emit ..)

/-- **Every mutator is all or nothing.** -/
theorem Call.atomic (call : Call) : Atomic call.readsBack (call.run now) := by
  cases call with
  | ensureNode n => exact .guarded (.bind (.modify _ _) fun _ => .commit)
  | insertBgpPeer r => exact .guarded (.bind (.execute _ _) fun _ => committing_emit ..)
  | updateBgpPeer n asn u =>
      exact .guarded (.bind (.execute _ _) fun _ => .bind (body_requireMatched ..) fun _ =>
        committing_emit ..)
  | deleteBgpPeer n asn => exact (atomic_deletePeer now ..).map fun _ => ()
  | insertIbgpPeer r => exact .guarded (.bind (.execute _ _) fun _ => committing_emit ..)
  | updateIbgpPeer n name u =>
      exact .guarded (.bind (.execute _ _) fun _ => .bind (body_requireMatched ..) fun _ =>
        committing_emit ..)
  | deleteIbgpPeer n name => exact (atomic_deletePeer now ..).map fun _ => ()
  | addNode n name => exact (atomic_add now n name).map fun _ => ()
  | upsertSelf n name => exact (atomic_upsertSelf now n name).map fun _ => ()
  | deleteNode n force => exact (atomic_delete now n force).map fun _ => ()
  | setTokenHash n hash => exact atomic_setTokenHash now n hash
  | setWritePolicy n policy => exact (atomic_setWritePolicy now n policy).map fun _ => ()
  | touchLastSeen n => exact .guarded (.bind (.modify _ _) fun _ => .commit)
  | setName n name => exact (atomic_updateFields now ..).map fun _ => ()
  | setEnabled n e => exact (atomic_updateFields now ..).map fun _ => ()
  | setAddresses n host v6 rid => exact (atomic_setAddresses now n host v6 rid).map fun _ => ()
  | applyAddressUpdate n f cs => exact (atomic_updateFields now ..).map fun _ => ()
  | addProposal n src kind payload =>
      exact (atomic_addProposal now n src kind payload).map fun _ => ()
  | setStatus id st m => exact (atomic_setStatus now id st m).map fun _ => ()
  | addReport n kind payload => exact (atomic_addReport now n kind payload).map fun _ => ()
  | markImported id => exact (atomic_markImported now id).map fun _ => ()
  | record n rev gen payload => exact (atomic_record n rev gen payload).map fun _ => ()
  | trim n keep => exact (atomic_trim n keep).map fun _ => ()
  | pin n rev => exact atomic_pin now n rev
  | unpin n => exact .guarded (.bind (.modify _ _) fun _ => committing_emit ..)

end Atomic

/-- A program on a connection of its own keeps what its statements keep, whichever
of them fails. -/
theorem maintains_onConnectionWith {α : Type} {I : Db → Prop} {m : DbTx α} (hm : Preserves I m)
    (f : ConnFault) : Prog.Maintains I (onConnectionWith f m) :=
  fun _ h => hm.run_fresh h f.fault f.late

/-- On a connection of its own, what a program preserves is kept. -/
theorem maintains_onConnection {α : Type} {I : Db → Prop} {m : DbTx α} (hm : Preserves I m) :
    Prog.Maintains I (onConnection m) := maintains_onConnectionWith hm .none

end Dn42Ctl
