import Dn42Ctl.Atomicity
import Dn42Ctl.Proposals

/-!
# PeerEffects

What the operations on peers can write.  A property of databases that survives
the few statements they are made of survives every one of them, whether it
returns, raises or meets a fault.
-/

namespace Dn42Ctl

open Text Txn

/-- `I` survives a new peer of node `n`: its rows, the node's row in `nodes` and
the queue of events. -/
structure AddsPeersOf (n : Str) (I : Db → Prop) : Prop where
  nodes : ∀ w rows, I w → I { w with nodes := rows }
  queue : ∀ w events seq log, I w →
    I { w with syncEvents := events, syncSeq := seq, syncLog := log }
  addBgp : ∀ w (row : BgpRow), row.nodeId = n → I w →
    I { w with bgpPeers := w.bgpPeers ++ [row] }
  addIbgp : ∀ w (row : IbgpRow), row.nodeId = n → I w →
    I { w with ibgpPeers := w.ibgpPeers ++ [row] }

/-- `I` survives every operation on a peer of node `n`. -/
structure EditsPeersOf (n : Str) (I : Db → Prop) : Prop extends AddsPeersOf n I where
  updateBgp : ∀ w asn (u : Database.BgpUpdate) now, I w → I (w.updateBgpRows n asn (u.apply now)).2
  updateIbgp : ∀ w name (u : Database.IbgpUpdate) now, I w →
    I (w.updateIbgpRows n name (u.apply now)).2
  deleteBgp : ∀ w asn, I w →
    I { w with bgpPeers := Rows.deleteWhere (BgpRow.is n asn) w.bgpPeers }
  deleteIbgp : ∀ w name, I w →
    I { w with ibgpPeers := Rows.deleteWhere (IbgpRow.is n name) w.ibgpPeers }

/-! ## statements and checks -/

section Preserves

variable {I : Db → Prop} {n : Str} {α : Type}

theorem preserves_raise (e : Exc PyError) : Preserves I (Prog.raise e : DbTx α) :=
  fun _ h1 h2 => ⟨h1, h2⟩

/-- A check reads nothing of the database. -/
theorem preserves_check (r : Except PyError α) : Preserves I (check r) := fun _ h1 h2 => ⟨h1, h2⟩

/-- Another error of the same program. -/
theorem preserves_wrapDatabaseError {m : DbTx α} (hm : Preserves I m) :
    Preserves I (wrapDatabaseError m) := by
  refine .catching hm fun e => ?_
  split
  · exact .fail _
  · exact preserves_raise _

/-- The queue may change. -/
theorem preserves_emit_queue (h : AddsPeersOf n I) (now m : Str) (k : SyncKind) :
    Preserves I (emitSyncEvent now m k) := by
  refine .bind (.execute _ fun w a w' hw hr => ?_) fun newId => ?_
  · simp only [Except.ok.injEq, Db.insertSyncEvent, Prod.mk.injEq] at hr
    rw [← hr.2]
    exact h.queue w _ _ _ hw
  · split
    · exact .modify _ fun w hw => h.queue w _ _ _ hw
    · exact .pure _

/-- The row in `nodes` may be added. -/
theorem preserves_ensureNode (h : ∀ w rows, I w → I { w with nodes := rows }) (m : Str) :
    Preserves I (ensureNode m) := by
  refine preserves_wrapDatabaseError (.guarded (.bind (.modify _ fun w hw => ?_) fun _ => .commit))
  rw [Db.upsertNode]
  split
  · exact hw
  · exact h w _ hw

theorem preserves_resolveWgKeypair (env : PeerEnv) (priv pub : Option Str) :
    Preserves I (resolveWgKeypair env priv pub) := by
  cases priv with
  | none =>
      cases pub with
      | none =>
          rw [resolveWgKeypair]
          cases env.wgKeypair with
          | ok pair => exact .pure _
          | error text => exact .fail _
      | some k => exact .fail _
  | some k =>
      cases pub with
      | none => exact .fail _
      | some k' => exact .pure _

theorem preserves_getUsedListenPorts (m : Str) :
    Preserves I (wrapDatabaseError (Database.getUsedListenPorts m)) :=
  preserves_wrapDatabaseError (.bind (.queryOr _ _ _) fun _ => .bind (.queryOr _ _ _) fun _ =>
    .pure _)

/-- The ports in use are read. -/
theorem preserves_checkPortFree (m : Str) (port current : Int) :
    Preserves I (checkPortFree m port current) := by
  refine .bind (preserves_getUsedListenPorts m) fun used => ?_
  split
  · exact .fail _
  · exact .pure _

/-- A BGP row of the node is added. -/
theorem preserves_insertBgpPeer (h : AddsPeersOf n I) (now : Str) {r : BgpPeerRecord}
    (hr : r.nodeId = n) : Preserves I (Database.insertBgpPeer now r) := by
  refine .guarded (.bind (.execute _ fun w u w' hw hi => ?_) fun _ =>
    .bind (preserves_emit_queue h _ _ _) fun _ => .commit)
  rw [Db.insertBgpRow] at hi
  split at hi
  · simp at hi
  · split at hi
    · simp at hi
    · simp only [Except.ok.injEq, Prod.mk.injEq] at hi
      rw [← hi.2]
      exact h.addBgp w _ hr hw

/-- An iBGP row of the node is added. -/
theorem preserves_insertIbgpPeer (h : AddsPeersOf n I) (now : Str) {r : IbgpPeerRecord}
    (hr : r.nodeId = n) : Preserves I (Database.insertIbgpPeer now r) := by
  refine .guarded (.bind (.execute _ fun w u w' hw hi => ?_) fun _ =>
    .bind (preserves_emit_queue h _ _ _) fun _ => .commit)
  rw [Db.insertIbgpRow] at hi
  split at hi
  · simp at hi
  · split at hi
    · simp at hi
    · simp only [Except.ok.injEq, Prod.mk.injEq] at hi
      rw [← hi.2]
      exact h.addIbgp w _ hr hw

/-- After an update, the row is looked up at most. -/
theorem preserves_requireMatched {ρ : Type} (k : Nat) (b : Option BindError)
    (lookup : Db → Option ρ) (missing : PyError) :
    Preserves I (Database.requireMatched k (query b lookup) missing) := by
  rw [Database.requireMatched]
  split
  · refine .bind (.query _ _) fun found => ?_
    rw [abortIf]
    split
    · exact .abort _
    · exact .pure _
  · exact .pure _

/-! ## the operations -/

theorem preserves_bgpListenPort (asn : Int) (given : Option Int) :
    Preserves I (bgpListenPort asn given) := by
  cases given with
  | none =>
      rw [bgpListenPort]
      split
      · exact .fail _
      · exact .pure _
  | some p => exact preserves_check _

/-- `create_bgp_peer` adds peers of its node only. -/
theorem preserves_createBgpPeer (h : AddsPeersOf n I) (env : PeerEnv) {cfg : Str}
    {a : BgpPeerArgs} (hn : orDefault a.nodeId cfg = n) :
    Preserves I (createBgpPeer env cfg a) := by
  refine .bind (preserves_check _) fun backend => .bind (preserves_ensureNode h.nodes _) fun _ =>
    .bind (preserves_wrapDatabaseError (.queryOr _ _ _)) fun existing => ?_
  split
  · exact .fail _
  · exact .bind (preserves_bgpListenPort _ _) fun port =>
      .bind (preserves_resolveWgKeypair env _ _) fun keys => .bind (preserves_check _) fun _ =>
      .bind (preserves_wrapDatabaseError (preserves_insertBgpPeer h _ hn)) fun _ => .pure _

/-- The columns of a new tunnel are read and drawn. -/
theorem preserves_tunnelFor (env : PeerEnv) (m : Str) (a : IbgpPeerArgs) :
    Preserves I (tunnelFor env m a) := by
  rw [tunnelFor]
  split
  · refine .bind (preserves_check _) fun backend => .bind ?_ fun port =>
      .bind (preserves_check _) fun _ => .bind (preserves_check _) fun _ =>
      .bind (preserves_resolveWgKeypair env _ _) fun keys => .bind (preserves_check _) fun _ =>
      .pure _
    cases a.listenPort with
    | none => exact .bind (preserves_getUsedListenPorts _) fun used => preserves_check _
    | some given =>
        refine .bind (preserves_check _) fun port => ?_
        split
        · exact .bind (preserves_checkPortFree _ _ _) fun _ => .pure _
        · exact .pure _
  · exact .pure _

/-- `create_ibgp_peer` adds peers of its node only. -/
theorem preserves_createIbgpPeer (h : AddsPeersOf n I) (env : PeerEnv) {cfg : Str}
    {a : IbgpPeerArgs} (hn : orDefault a.nodeId cfg = n) :
    Preserves I (createIbgpPeer env cfg a) := by
  refine .bind (preserves_ensureNode h.nodes _) fun _ => .bind (preserves_check _) fun name => ?_
  dsimp only
  split
  · exact .fail _
  · exact .bind (preserves_tunnelFor env _ a) fun t =>
      .bind (preserves_wrapDatabaseError (preserves_insertIbgpPeer h _ hn)) fun _ => .pure _

theorem preserves_modifiedPort (m : Str) (given : Option Int) (current : Int) :
    Preserves I (modifiedPort m given current) := by
  refine .bind (preserves_check _) fun port => ?_
  split
  · exact .bind (preserves_checkPortFree _ _ _) fun _ => .pure _
  · exact .pure _

/-- A BGP row of the node is edited. -/
theorem preserves_updateBgpPeer (h : EditsPeersOf n I) (now : Str) (asn : Int)
    (u : Database.BgpUpdate) : Preserves I (Database.updateBgpPeer now n asn u) := by
  refine .guarded (.bind (.execute _ fun w k w' hw hr => ?_) fun k =>
    .bind (preserves_requireMatched _ _ _ _) fun _ =>
    .bind (preserves_emit_queue h.toAddsPeersOf _ _ _) fun _ => .commit)
  simp only [Except.ok.injEq] at hr
  have hupd := h.updateBgp w asn u now hw
  rw [hr] at hupd
  exact hupd

/-- An iBGP row of the node is edited. -/
theorem preserves_updateIbgpPeer (h : EditsPeersOf n I) (now name : Str)
    (u : Database.IbgpUpdate) : Preserves I (Database.updateIbgpPeer now n name u) := by
  refine .guarded (.bind (.execute _ fun w k w' hw hr => ?_) fun k =>
    .bind (preserves_requireMatched _ _ _ _) fun _ =>
    .bind (preserves_emit_queue h.toAddsPeersOf _ _ _) fun _ => .commit)
  simp only [Except.ok.injEq] at hr
  have hupd := h.updateIbgp w name u now hw
  rw [hr] at hupd
  exact hupd

/-- `modify_bgp_peer` edits peers of its node only. -/
theorem preserves_modifyBgpPeer (h : EditsPeersOf n I) (env : PeerEnv) {cfg : Str}
    {a : BgpPeerArgs} (hn : orDefault a.nodeId cfg = n) :
    Preserves I (modifyBgpPeer env cfg a) := by
  refine .bind (preserves_check _) fun backend =>
    .bind (preserves_ensureNode h.nodes _) fun _ =>
    .bind (preserves_wrapDatabaseError (.queryOr _ _ _)) fun found => ?_
  cases found with
  | none => exact .fail _
  | some row =>
      dsimp only
      rw [hn]
      exact .bind (preserves_modifiedPort _ _ _) fun port => .bind (preserves_check _) fun _ =>
        .bind (preserves_wrapDatabaseError (preserves_updateBgpPeer h _ _ _)) fun _ => .pure _

/-- `modify_ibgp_peer` edits peers of its node only. -/
theorem preserves_modifyIbgpPeer (h : EditsPeersOf n I) (env : PeerEnv) {cfg : Str}
    {a : IbgpModifyArgs} (hn : orDefault a.nodeId cfg = n) :
    Preserves I (modifyIbgpPeer env cfg a) := by
  refine .bind (preserves_check _) fun backend => .bind (preserves_check _) fun _ =>
    .bind (preserves_check _) fun _ => .bind (preserves_ensureNode h.nodes _) fun _ =>
    .bind (preserves_check _) fun name =>
    .bind (preserves_wrapDatabaseError (.queryOr _ _ _)) fun found => ?_
  cases found with
  | none => exact .fail _
  | some row =>
      dsimp only
      rw [hn]
      split
      · exact .fail _
      · exact .bind (preserves_modifiedPort _ _ _) fun port => .bind (preserves_check _) fun _ =>
          .bind (preserves_wrapDatabaseError (preserves_updateIbgpPeer h _ _ _)) fun _ => .pure _

/-- `_delete_peer`, where `I` survives the `DELETE`. -/
theorem preserves_deletePeer {ρ : Type} (h : AddsPeersOf n I) {get : DbTx (Option ρ)}
    (hget : Preserves I get) (b : Option BindError) {delete : Db → Db}
    (hdelete : ∀ w, I w → I (delete w)) (failed : PyError) (now m : Str) :
    Preserves I (Database.deletePeer get b delete failed now m) := by
  refine .bind hget fun found => ?_
  cases found with
  | none => exact .pure _
  | some row =>
      exact .guarded (.bind (.modify _ hdelete) fun _ => .bind (preserves_emit_queue h _ _ _)
        fun _ => .bind .commit fun _ => .pure _)

/-- `delete_bgp_peer` deletes a peer of its node only. -/
theorem preserves_deleteBgpPeer (h : EditsPeersOf n I) (env : PeerEnv) {cfg : Str} (asn : Int)
    {m : Option Str} (hn : orDefault m cfg = n) : Preserves I (deleteBgpPeer env cfg asn m) := by
  refine .bind (preserves_wrapDatabaseError (.queryOr _ _ _)) fun found => ?_
  cases found with
  | none => exact .fail _
  | some row =>
      dsimp only
      rw [hn]
      exact .bind (preserves_wrapDatabaseError (preserves_deletePeer h.toAddsPeersOf
        (.queryOr _ _ _) _ (fun w hw => h.deleteBgp w asn hw) _ _ _)) fun _ => .pure _

/-- `delete_ibgp_peer` deletes a peer of its node only. -/
theorem preserves_deleteIbgpPeer (h : EditsPeersOf n I) (env : PeerEnv) {cfg : Str} (name : Str)
    {m : Option Str} (hn : orDefault m cfg = n) : Preserves I (deleteIbgpPeer env cfg name m) := by
  refine .bind (preserves_check _) fun peerName =>
    .bind (preserves_wrapDatabaseError (.queryOr _ _ _)) fun found => ?_
  cases found with
  | none => exact .fail _
  | some row =>
      dsimp only
      rw [hn]
      exact .bind (preserves_wrapDatabaseError (preserves_deletePeer h.toAddsPeersOf
        (.queryOr _ _ _) _ (fun w hw => h.deleteIbgp w peerName hw) _ _ _)) fun _ => .pure _

end Preserves

/-! ## operations that raise -/

section Raises

variable {I : Db → Prop} {α : Type}

/-- Another error of a program that raises safely. -/
theorem safeRaise_wrapDatabaseError {m : DbTx α} (hm : SafeRaise I m) :
    SafeRaise I (wrapDatabaseError m) := by
  refine Prog.RaisesTo.catching hm fun e => ?_
  split
  · exact fun c h => h
  · exact fun c h => h

variable (h : ∀ w rows, I w → I { w with nodes := rows }) (env : PeerEnv) (cfg : Str)

include h

/-- The peer is stored last: an operation that raises has stored none. -/
theorem safeRaise_createBgpPeer (a : BgpPeerArgs) : SafeRaise I (createBgpPeer env cfg a) := by
  refine .bind (preserves_check _) fun backend => .bind (preserves_ensureNode h _) fun _ =>
    .bind (preserves_wrapDatabaseError (.queryOr _ _ _)) fun existing => ?_
  split
  · exact .of_preserves (.fail _)
  · exact .bind (preserves_bgpListenPort _ _) fun port =>
      .bind (preserves_resolveWgKeypair env _ _) fun keys => .bind (preserves_check _) fun _ =>
      (safeRaise_wrapDatabaseError (.guarded (.bind (.execute _ _) fun _ =>
        committing_emit ..))).map _

/-- A tunnel that is refused has been rolled back. -/
theorem safeRaise_createIbgpPeer (a : IbgpPeerArgs) : SafeRaise I (createIbgpPeer env cfg a) := by
  refine .bind (preserves_ensureNode h _) fun _ => .bind (preserves_check _) fun name => ?_
  dsimp only
  split
  · exact .of_preserves (.fail _)
  · exact .bind (preserves_tunnelFor env _ a) fun t =>
      (safeRaise_wrapDatabaseError (.guarded (.bind (.execute _ _) fun _ =>
        committing_emit ..))).map _

/-- A BGP peer whose change is refused is as it was. -/
theorem safeRaise_modifyBgpPeer (a : BgpPeerArgs) : SafeRaise I (modifyBgpPeer env cfg a) := by
  refine .bind (preserves_check _) fun backend => .bind (preserves_ensureNode h _) fun _ =>
    .bind (preserves_wrapDatabaseError (.queryOr _ _ _)) fun found => ?_
  cases found with
  | none => exact .of_preserves (.fail _)
  | some row =>
      exact .bind (preserves_modifiedPort _ _ _) fun port => .bind (preserves_check _) fun _ =>
        (safeRaise_wrapDatabaseError (.guarded (.bind (.execute _ _) fun _ =>
          .bind (body_requireMatched ..) fun _ => committing_emit ..))).map _

/-- So is an iBGP peer. -/
theorem safeRaise_modifyIbgpPeer (a : IbgpModifyArgs) :
    SafeRaise I (modifyIbgpPeer env cfg a) := by
  refine .bind (preserves_check _) fun backend => .bind (preserves_check _) fun _ =>
    .bind (preserves_check _) fun _ => .bind (preserves_ensureNode h _) fun _ =>
    .bind (preserves_check _) fun name =>
    .bind (preserves_wrapDatabaseError (.queryOr _ _ _)) fun found => ?_
  cases found with
  | none => exact .of_preserves (.fail _)
  | some row =>
      dsimp only
      split
      · exact .of_preserves (.fail _)
      · exact .bind (preserves_modifiedPort _ _ _) fun port => .bind (preserves_check _) fun _ =>
          (safeRaise_wrapDatabaseError (.guarded (.bind (.execute _ _) fun _ =>
            .bind (body_requireMatched ..) fun _ => committing_emit ..))).map _

omit h

/-- A row that could not be deleted is there. -/
theorem safeRaise_deletePeer {ρ : Type} {get : DbTx (Option ρ)} (hget : Preserves I get)
    (b : Option BindError) (delete : Db → Db) (failed : PyError) (now m : Str) :
    SafeRaise I (Database.deletePeer get b delete failed now m) := by
  refine .bind hget fun found => ?_
  cases found with
  | none => exact .of_preserves (.pure _)
  | some row =>
      exact .guarded (.bind (.modify _ _) fun _ => .bind (body_emitSyncEvent ..) fun _ =>
        Committing.commit.map fun _ => some row)

theorem safeRaise_deleteBgpPeer (asn : Int) (m : Option Str) :
    SafeRaise I (deleteBgpPeer env cfg asn m) := by
  refine .bind (preserves_wrapDatabaseError (.queryOr _ _ _)) fun found => ?_
  cases found with
  | none => exact .of_preserves (.fail _)
  | some row =>
      exact (safeRaise_wrapDatabaseError (safeRaise_deletePeer (.queryOr _ _ _) _ _ _ _ _)).map _

theorem safeRaise_deleteIbgpPeer (name : Str) (m : Option Str) :
    SafeRaise I (deleteIbgpPeer env cfg name m) := by
  refine .bind (preserves_check _) fun peerName =>
    .bind (preserves_wrapDatabaseError (.queryOr _ _ _)) fun found => ?_
  cases found with
  | none => exact .of_preserves (.fail _)
  | some row =>
      exact (safeRaise_wrapDatabaseError (safeRaise_deletePeer (.queryOr _ _ _) _ _ _ _ _)).map _

end Raises

/-! ## proposals and reports -/

section Maintains

open Prog

variable {I : Db → Prop} {n : Str} {α : Type}

/-- A check in a service returns its value and leaves the database. -/
theorem run_liftCheck_eq_ok {r : Except PyError α} {a : α} {w w' : Db} :
    (liftCheck r).run w = (.ok a, w') ↔ r = .ok a ∧ w' = w := by
  rw [liftCheck, Prog.run_lift, Prod.mk.injEq]
  cases r with
  | error e => simp [Except.mapError]
  | ok b => simp [Except.mapError, eq_comm]

/-- What returns after a check has passed it. -/
theorem bind_liftCheck {β : Type} {r : Except PyError α} {f : α → Service β} {b : β} {w w' : Db}
    (h : (liftCheck r >>= f).run w = (.ok b, w')) :
    ∃ a, r = .ok a ∧ (f a).run w = (.ok b, w') := by
  obtain ⟨a, mid, hcheck, hrest⟩ := run_bind_eq_ok.mp h
  obtain ⟨hr, rfl⟩ := run_liftCheck_eq_ok.mp hcheck
  exact ⟨a, hr, hrest⟩

theorem maintains_liftCheck (r : Except PyError α) : Maintains I (liftCheck r) := .lift _

/-- A target that is not the empty string is not replaced by the configured node. -/
theorem orDefault_some {s d : Str} (h : s ≠ []) : orDefault (some s) d = s := by
  simp [orDefault, h]

section Apply

variable (env : PeerEnv) (cfg target : Str) (payload : JsonObject)

/-- A `peer_add` proposal adds peers of its node only. -/
theorem maintains_applyPeerAdd (h : AddsPeersOf (orDefault (some target) cfg) I) :
    Maintains I (applyPeerAdd env cfg target payload) := by
  refine .bind (maintains_liftCheck _) fun ibgp => .bind (maintains_liftCheck _) fun peer => ?_
  cases ibgp with
  | true =>
      exact .bind (maintains_liftCheck _) fun parsed => .bind (maintains_onConnection
        (preserves_createIbgpPeer h env rfl)) fun _ => .pure _
  | false =>
      exact .bind (maintains_liftCheck _) fun parsed => .bind (maintains_onConnection
        (preserves_createBgpPeer h env rfl)) fun _ => .pure _

/-- A `peer_modify` proposal edits peers of its node only. -/
theorem maintains_applyPeerModify (h : EditsPeersOf (orDefault (some target) cfg) I) :
    Maintains I (applyPeerModify env cfg target payload) := by
  refine .bind (maintains_liftCheck _) fun ibgp => .bind (maintains_liftCheck _) fun peer => ?_
  cases ibgp with
  | true =>
      exact .bind (maintains_liftCheck _) fun parsed => .bind (maintains_onConnection
        (preserves_modifyIbgpPeer h env rfl)) fun _ => .pure _
  | false =>
      exact .bind (maintains_liftCheck _) fun parsed => .bind (maintains_onConnection
        (preserves_modifyBgpPeer h env rfl)) fun _ => .pure _

/-- A `peer_delete` proposal deletes a peer of its node only. -/
theorem maintains_applyPeerDelete (h : EditsPeersOf (orDefault (some target) cfg) I) :
    Maintains I (applyPeerDelete env cfg target payload) := by
  refine .bind (maintains_liftCheck _) fun ibgp => .bind (maintains_liftCheck _) fun key => ?_
  cases ibgp with
  | true =>
      exact .bind (maintains_liftCheck _) fun name => maintains_onConnection
        (preserves_deleteIbgpPeer h env name rfl)
  | false =>
      exact .bind (maintains_liftCheck _) fun asn => maintains_onConnection
        (preserves_deleteBgpPeer h env asn rfl)

/-- A proposal writes the peers of its own node. -/
theorem maintains_applyProposal {p : ConfigProposal}
    (h : EditsPeersOf (orDefault (some p.nodeId) cfg) I) :
    Maintains I (applyProposal env cfg p) := by
  rw [applyProposal]
  cases p.kind with
  | peerAdd => exact maintains_applyPeerAdd env cfg _ _ h.toAddsPeersOf
  | peerModify => exact maintains_applyPeerModify env cfg _ _ h
  | peerDelete => exact maintains_applyPeerDelete env cfg _ _ h

end Apply

section Raises

variable (h : ∀ w rows, I w → I { w with nodes := rows }) (env : PeerEnv) (cfg : Str)

include h

/-- A proposal that could not be applied has changed no peer. -/
theorem raisesTo_applyProposal (p : ConfigProposal) : RaisesTo I I (applyProposal env cfg p) := by
  have hcheck : ∀ {α β : Type} (r : Except PyError α) {f : α → Service β},
      (∀ a, RaisesTo I I (f a)) → RaisesTo I I (liftCheck r >>= f) :=
    fun r _ hf => .bind (fun _ hs => hs) (maintains_liftCheck r) hf
  have hop : ∀ {α : Type} {m : DbTx α}, SafeRaise I m → RaisesTo I I (onConnection m) :=
    fun hm _ _ _ hs hrun => hm.eval hs hrun
  rw [applyProposal]
  cases p.kind with
  | peerAdd =>
      refine hcheck _ fun ibgp => hcheck _ fun peer => ?_
      cases ibgp with
      | true => exact hcheck _ fun parsed => (hop (safeRaise_createIbgpPeer h env cfg _)).map _
      | false => exact hcheck _ fun parsed => (hop (safeRaise_createBgpPeer h env cfg _)).map _
  | peerModify =>
      refine hcheck _ fun ibgp => hcheck _ fun peer => ?_
      cases ibgp with
      | true => exact hcheck _ fun parsed => (hop (safeRaise_modifyIbgpPeer h env cfg _)).map _
      | false => exact hcheck _ fun parsed => (hop (safeRaise_modifyBgpPeer h env cfg _)).map _
  | peerDelete =>
      refine hcheck _ fun ibgp => hcheck _ fun key => ?_
      cases ibgp with
      | true => exact hcheck _ fun name => hop (safeRaise_deleteIbgpPeer env cfg _ _)
      | false => exact hcheck _ fun asn => hop (safeRaise_deleteBgpPeer env cfg _ _)

end Raises

/-- What is required to be pending is read and left as it is. -/
theorem eval_requirePending {id : Nat} {verb : String} {p : ConfigProposal} {db db' : Db}
    (h : eval (requirePending id verb) db = (.ok p, db')) :
    db.getProposal id = some p ∧ p.status = .pending ∧ db' = db := by
  obtain ⟨c', hrun, rfl⟩ := eval_eq_ok.mp h
  obtain ⟨-, hrun⟩ := bind_queryOr hrun
  cases hp : db.getProposal id with
  | none => simp [hp] at hrun
  | some q =>
      simp only [hp] at hrun
      split at hrun
      · rename_i hq
        simp only [Prog.run_pure, Prod.mk.injEq, Except.ok.injEq] at hrun
        obtain ⟨rfl, rfl⟩ := hrun
        exact ⟨rfl, hq, rfl⟩
      · simp at hrun

theorem preserves_requirePending (id : Nat) (verb : String) :
    Preserves I (requirePending id verb) := by
  refine .bind (.queryOr _ _ _) fun found => ?_
  cases found with
  | none => exact .fail _
  | some p =>
      dsimp only
      split
      · exact .pure _
      · exact .fail _

/-- The report is read, and found not to be imported yet. -/
theorem eval_requireImportable {id : Nat} {r : NodeReport} {db db' : Db}
    (h : eval (requireImportable id) db = (.ok r, db')) : db.getReport id = some r ∧ db' = db := by
  obtain ⟨c', hrun, rfl⟩ := eval_eq_ok.mp h
  obtain ⟨-, hrun⟩ := bind_queryOr hrun
  cases hr : db.getReport id with
  | none => simp [hr] at hrun
  | some q =>
      simp only [hr] at hrun
      split at hrun
      · simp at hrun
      · cases hat : q.importedAt with
        | some at_ => simp [hat] at hrun
        | none =>
            simp only [hat, Prog.run_pure, Prod.mk.injEq, Except.ok.injEq] at hrun
            obtain ⟨rfl, rfl⟩ := hrun
            exact ⟨rfl, rfl⟩

theorem preserves_requireImportable (id : Nat) : Preserves I (requireImportable id) := by
  refine .bind (.queryOr _ _ _) fun found => ?_
  cases found with
  | none => exact .fail _
  | some r =>
      dsimp only
      split
      · exact .fail _
      · cases r.importedAt with
        | some at_ => exact .fail _
        | none => exact .pure _

/-- An entry adds its peer, or nothing. -/
theorem maintains_importBgp (env : PeerEnv) (cfg : Str) (h : AddsPeersOf (orDefault (some n) cfg) I)
    (faults : EntryFaults) (peer : JsonObject) :
    Maintains I (importBgpWith env cfg n faults peer) := by
  refine .bind (maintains_liftCheck _) fun parsed =>
    .bind (maintains_onConnectionWith (.queryOr _ _ _) _) fun existing => ?_
  split
  · exact .pure _
  · exact .bind (maintains_onConnectionWith (preserves_createBgpPeer h env rfl) _) fun _ => .pure _

/-- An iBGP entry of a report adds peers of its node only. -/
theorem maintains_importIbgp (env : PeerEnv) (cfg : Str)
    (h : AddsPeersOf (orDefault (some n) cfg) I) (faults : EntryFaults) (peer : JsonObject) :
    Maintains I (importIbgpWith env cfg n faults peer) := by
  refine .bind (maintains_liftCheck _) fun parsed =>
    .bind (maintains_onConnectionWith (.queryOr _ _ _) _) fun existing => ?_
  split
  · exact .pure _
  · exact .bind (maintains_onConnectionWith (preserves_createIbgpPeer h env rfl) _) fun _ => .pure _

/-- The context is put in front of an error's text. -/
theorem maintains_withContext (what key : String) (peer : JsonObject) {m : Service Bool}
    (hm : Maintains I m) : Maintains I (withContext what key peer m) := by
  refine .catching hm fun e => ?_
  split
  · exact .raise _
  · exact .raise _

/-- The loop over the entries of one kind. -/
theorem maintains_importPeers {one : Nat → JsonObject → Service Bool}
    (hone : ∀ i peer, Maintains I (one i peer))
    (count : Option Bool → ImportCounts → ImportCounts) (i : Nat) (peers : List Json)
    (counts : ImportCounts) : Maintains I (importPeers one count i peers counts) := by
  induction peers generalizing i counts with
  | nil => exact .pure _
  | cons peer peers ih =>
      cases peer with
      | dict peer => exact .bind (hone i peer) fun created => ih _ _
      | _ => exact ih _ _

/-- The two loops of `import_report`, over the BGP and then the iBGP peers. -/
def importEntriesWith (faults : Nat → EntryFaults) (env : Nat → PeerEnv) (cfg : Str)
    (r : NodeReport) : Service ImportCounts := do
  let peers ← liftCheck (reportPeers r.payload)
  let counts ← importPeers (fun i peer => withContext "导入 BGP peer 失败" "peer_asn" peer
    (importBgpWith (env i) cfg r.nodeId (faults i) peer)) countBgp 0 peers.1 {}
  importPeers (fun i peer => withContext "导入 iBGP peer 失败" "name" peer
    (importIbgpWith (env i) cfg r.nodeId (faults i) peer)) countIbgp peers.1.length peers.2 counts

def importEntries (env : Nat → PeerEnv) (cfg : Str) (r : NodeReport) : Service ImportCounts :=
  importEntriesWith (fun _ => .none) env cfg r

/-- `import_report` in three parts. -/
theorem importReportWith_eq (faults : ImportFaults) (env : Nat → PeerEnv) (now cfg : Str)
    (id : Nat) :
    importReportWith faults env now cfg id = (do
      let report ← onConnectionWith faults.read (requireImportable id)
      let counts ← importEntriesWith faults.entry env cfg report
      let _ ← onConnectionWith faults.mark (ReportStore.markImported now id)
      pure counts) := by
  simp only [importEntriesWith, Prog.bind_assoc]
  rfl

/-- An import: the report is read, its entries are imported, and it is marked. -/
theorem importReport_eq (env : Nat → PeerEnv) (now cfg : Str) (id : Nat) :
    importReport env now cfg id = (do
      let report ← onConnection (requireImportable id)
      let counts ← importEntries env cfg report
      let _ ← onConnection (ReportStore.markImported now id)
      pure counts) := by
  simp only [importReport, importReportWith_eq, ImportFaults.none, onConnectionWith_none,
    importEntries]

/-- The loops add peers of the node that sent the report, and nothing else. -/
theorem maintains_importEntriesWith (faults : Nat → EntryFaults) (env : Nat → PeerEnv) (cfg : Str)
    {r : NodeReport} (h : AddsPeersOf (orDefault (some r.nodeId) cfg) I) :
    Maintains I (importEntriesWith faults env cfg r) := by
  refine .bind (maintains_liftCheck _) fun peers => .bind ?_ fun counts => ?_
  · exact maintains_importPeers (fun i peer => maintains_withContext _ _ _
      (maintains_importBgp _ cfg h _ peer)) _ _ _ _
  · exact maintains_importPeers (fun i peer => maintains_withContext _ _ _
      (maintains_importIbgp _ cfg h _ peer)) _ _ _ _

/-- The entries of a report add peers of its node only. -/
theorem maintains_importEntries (env : Nat → PeerEnv) (cfg : Str) {r : NodeReport}
    (h : AddsPeersOf (orDefault (some r.nodeId) cfg) I) :
    Maintains I (importEntries env cfg r) :=
  maintains_importEntriesWith (fun _ => .none) env cfg h

end Maintains

end Dn42Ctl
