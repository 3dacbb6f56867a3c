import Dn42Ctl.DesiredState
import Dn42Ctl.NodeAddress

/-!
# Effects

What the mutators do when they commit.  A `Call` is a call of one mutator;
`Call.run` is the statement-level program of the source and `Call.commit` the
abstract reading of it: the rows it writes and the events it announces, or
`none` when it commits nothing.  `Call.eval_run` connects the two: a call that
returns has left exactly the abstract result.
-/

namespace Dn42Ctl

open Text Txn

/-! ## announcing -/

/-- The event an announcement appends. -/
def Db.nextEvent (now nodeId : Str) (kind : SyncKind) (db : Db) : SyncEvent :=
  ⟨db.syncSeq + 1, nodeId, kind, now⟩

/-- The queue after an announcement and the trimming it may do. -/
def Db.emitted (now nodeId : Str) (kind : SyncKind) (db : Db) : List SyncEvent :=
  let events := db.syncEvents ++ [db.nextEvent now nodeId kind]
  if (db.syncSeq + 1) % syncEventsTrimEvery = 0 then
    events.filter fun e => decide (db.syncSeq + 1 < e.id + syncEventsKeep)
  else events

/-- The effect of `emit_sync_event` on the tables. -/
def Db.emit (now nodeId : Str) (kind : SyncKind) (db : Db) : Db :=
  { db with
    syncEvents := db.emitted now nodeId kind, syncSeq := db.syncSeq + 1,
    syncLog := db.syncLog ++ [db.nextEvent now nodeId kind] }

/-- Announce a list of events in order. -/
def Db.emitAll (now : Str) (events : List (Str × SyncKind)) (db : Db) : Db :=
  events.foldl (fun db e => db.emit now e.1 e.2) db

/-- Parameters fit when each does. -/
theorem params_eq_none {ps : List Param} : params ps = none ↔ ∀ p ∈ ps, p.convert = none := by
  simp [params, List.findSome?_eq_none_iff]

theorem params_cons {p : Param} {ps : List Param} :
    params (p :: ps) = none ↔ p.convert = none ∧ params ps = none := by
  rw [params_eq_none, params_eq_none, List.forall_mem_cons]

/-- Two lists of parameters. -/
theorem params_append {ps qs : List Param} :
    params (ps ++ qs) = none ↔ params ps = none ∧ params qs = none := by
  simp only [params_eq_none, List.mem_append, or_imp, forall_and]

/-- The parameters of a statement fit when those of a longer one do. -/
theorem params_of_subset {ps qs : List Param} (h : params qs = none) (hs : ps ⊆ qs) :
    params ps = none :=
  params_eq_none.mpr fun p hp => params_eq_none.mp h p (hs hp)

/-- The statements of `emit_sync_event` have that effect. -/
theorem emit_eq (now nodeId : Str) (kind : SyncKind) (db : Db) :
    db.emit now nodeId kind =
      if (db.insertSyncEvent nodeId kind now).1 % syncEventsTrimEvery = 0 then
        (db.insertSyncEvent nodeId kind now).2.trimSyncEvents
          (((db.insertSyncEvent nodeId kind now).1 : Int) - (syncEventsKeep : Int))
      else (db.insertSyncEvent nodeId kind now).2 := by
  by_cases hid : (db.syncSeq + 1) % syncEventsTrimEvery = 0
  · have hbound : ∀ e : SyncEvent,
        (!decide ((e.id : Int) ≤ ((db.syncSeq + 1 : Nat) : Int) - (syncEventsKeep : Int))) =
          decide (db.syncSeq + 1 < e.id + syncEventsKeep) := by
      intro e
      by_cases he : db.syncSeq + 1 < e.id + syncEventsKeep
      · simp only [he, decide_true, Bool.not_eq_true', decide_eq_false_iff_not]
        omega
      · simp only [he, decide_false, Bool.not_eq_false', decide_eq_true_eq]
        omega
    rw [if_pos (show (db.insertSyncEvent nodeId kind now).1 % syncEventsTrimEvery = 0 from hid)]
    simp only [Db.emit, Db.emitted, if_pos hid]
    exact congrArg (fun events => ({ db with
      syncEvents := events, syncSeq := db.syncSeq + 1,
      syncLog := db.syncLog ++ [db.nextEvent now nodeId kind] } : Db))
      (List.filter_congr fun e _ => (hbound e).symm)
  · rw [if_neg (show ¬ (db.insertSyncEvent nodeId kind now).1 % syncEventsTrimEvery = 0 from hid)]
    simp only [Db.emit, Db.emitted, if_neg hid]
    rfl

/-- An event is stored, once the node's id can be bound. -/
theorem run_emitSyncEvent_eq_ok {now nodeId : Str} {kind : SyncKind} {d w : Db} {t l : Bool}
    {u : Unit} {c' : Conn Db} :
    (emitSyncEvent now nodeId kind).run ⟨d, w, t, none, l⟩ = (.ok u, c') ↔
      params [.text nodeId] = none ∧ c' = ⟨d, w.emit now nodeId kind, true, none, l⟩ := by
  rw [emitSyncEvent, Prog.run_bind_eq_ok, emit_eq]
  simp only [run_execute_eq_ok, Except.ok.injEq]
  constructor
  · rintro ⟨newId, c1, ⟨hb, w', hw, rfl⟩, h⟩
    refine ⟨hb, ?_⟩
    rw [hw]
    split at h
    · rw [if_pos (by assumption)]
      exact (run_modify_eq_ok.mp h).2
    · rw [if_neg (by assumption)]
      simp only [Prog.run_pure, Prod.mk.injEq] at h
      exact h.2.symm
  · rintro ⟨hb, rfl⟩
    refine ⟨(w.insertSyncEvent nodeId kind now).1, _,
      ⟨hb, (w.insertSyncEvent nodeId kind now).2, rfl, rfl⟩, ?_⟩
    generalize w.insertSyncEvent nodeId kind now = inserted
    obtain ⟨newId, w'⟩ := inserted
    by_cases hid : newId % syncEventsTrimEvery = 0
    · simp only [if_pos hid]
      rfl
    · simp only [if_neg hid]
      rfl

/-- What follows an event. -/
theorem bind_emit {now nodeId : Str} {kind : SyncKind} {d w : Db} {t l : Bool} {β : Type} {b : β}
    {c' : Conn Db} {rest : Unit → DbTx β}
    (h : (emitSyncEvent now nodeId kind >>= rest).run ⟨d, w, t, none, l⟩ = (.ok b, c')) :
    (rest ()).run ⟨d, w.emit now nodeId kind, true, none, l⟩ = (.ok b, c') := by
  obtain ⟨u, c1, h1, h2⟩ := Prog.run_bind_eq_ok.mp h
  obtain ⟨-, rfl⟩ := run_emitSyncEvent_eq_ok.mp h1
  exact h2

/-- The loop over the events. -/
theorem run_emitAll_eq_ok {now : Str} {events : List (Str × SyncKind)} {d w : Db} {t l : Bool}
    {u : PUnit} {c' : Conn Db}
    (h : (events.forM fun e => emitSyncEvent now e.1 e.2).run ⟨d, w, t, none, l⟩ = (.ok u, c')) :
    ∃ t', c' = ⟨d, w.emitAll now events, t', none, l⟩ := by
  induction events generalizing w t with
  | nil =>
      rw [Prog.run_forM_nil, Prod.mk.injEq] at h
      exact ⟨t, h.2.symm⟩
  | cons e es ih =>
      rw [Prog.run_forM_cons] at h
      obtain ⟨u1, c1, h1, h2⟩ := Prog.run_bind_eq_ok.mp h
      obtain ⟨-, rfl⟩ := run_emitSyncEvent_eq_ok.mp h1
      exact ih h2

/-! ## calls -/

/-- A call of a mutator of `Database` or of one of the stores. -/
inductive Call where
  | ensureNode (nodeId : Str)
  | insertBgpPeer (record : BgpPeerRecord)
  | updateBgpPeer (nodeId : Str) (peerAsn : Int) (u : Database.BgpUpdate)
  | deleteBgpPeer (nodeId : Str) (peerAsn : Int)
  | insertIbgpPeer (record : IbgpPeerRecord)
  | updateIbgpPeer (nodeId name : Str) (u : Database.IbgpUpdate)
  | deleteIbgpPeer (nodeId name : Str)
  | addNode (nodeId name : Str)
  | upsertSelf (nodeId name : Str)
  | deleteNode (nodeId : Str) (force : Bool)
  | setTokenHash (nodeId tokenHash : Str)
  | setWritePolicy (nodeId : Str) (policy : List (Str × Str))
  | touchLastSeen (nodeId : Str)
  | setName (nodeId name : Str)
  | setEnabled (nodeId : Str) (enabled : Bool)
  | setAddresses (nodeId : Str) (endpointHost ownIpv6 routerId : Patch (Option Str))
  | applyAddressUpdate (nodeId : Str) (fields : NodeFields) (changes : List PropagatedChange)
  | addProposal (nodeId source kind : Str) (payload : JsonObject)
  | setStatus (id : Nat) (status : ProposalStatus) (message : Option Msg)
  | addReport (nodeId kind : Str) (payload : JsonObject)
  | markImported (id : Nat)
  | record (nodeId revision generatedAt : Str) (payload : DesiredState)
  | trim (nodeId : Str) (keepLatest : Int)
  | pin (nodeId revision : Str)
  | unpin (nodeId : Str)

/-- Run for effect. -/
def forEffect {α : Type} (m : DbTx α) : DbTx Unit := do
  let _ ← m
  pure ()

/-- The program of the source. -/
def Call.run (now : Str) : Call → DbTx Unit
  | .ensureNode n => Database.ensureNode n
  | .insertBgpPeer r => Database.insertBgpPeer now r
  | .updateBgpPeer n asn u => Database.updateBgpPeer now n asn u
  | .deleteBgpPeer n asn => forEffect (Database.deleteBgpPeer now n asn)
  | .insertIbgpPeer r => Database.insertIbgpPeer now r
  | .updateIbgpPeer n name u => Database.updateIbgpPeer now n name u
  | .deleteIbgpPeer n name => forEffect (Database.deleteIbgpPeer now n name)
  | .addNode n name => forEffect (ManagedNodeStore.add now n name)
  | .upsertSelf n name => forEffect (ManagedNodeStore.upsertSelf now n name)
  | .deleteNode n force => forEffect (ManagedNodeStore.delete now n force)
  | .setTokenHash n h => ManagedNodeStore.setTokenHash now n h
  | .setWritePolicy n p => forEffect (ManagedNodeStore.setWritePolicy now n p)
  | .touchLastSeen n => ManagedNodeStore.touchLastSeen now n
  | .setName n name => forEffect (ManagedNodeStore.setName now n name)
  | .setEnabled n e => forEffect (ManagedNodeStore.setEnabled now n e)
  | .setAddresses n h v r => forEffect (ManagedNodeStore.setAddresses now n h v r)
  | .applyAddressUpdate n f cs => forEffect (ManagedNodeStore.applyAddressUpdate now n f cs)
  | .addProposal n src kind p => forEffect (ProposalStore.add now n src kind p)
  | .setStatus id st m => forEffect (ProposalStore.setStatus now id st m)
  | .addReport n kind p => forEffect (ReportStore.add now n kind p)
  | .markImported id => forEffect (ReportStore.markImported now id)
  | .record n rev gen p => forEffect (RevisionStore.record n rev gen p)
  | .trim n k => forEffect (RevisionStore.trim n k)
  | .pin n rev => RevisionStore.pin now n rev
  | .unpin n => RevisionStore.unpin now n

/-- What a committed call leaves: the tables before its events, and the events
in the order they are announced. -/
abbrev Committed := Db × List (Str × SyncKind)

/-- The cells that follow a change of address. -/
def Db.applyChanges (now : Str) (changes : List PropagatedChange) (db : Db) : Db :=
  changes.foldl (fun db c => (db.updateIbgpRows c.nodeId c.name (c.apply now)).2) db

/-- `_update_fields`, when the node exists. -/
def Db.commitFields (now nodeId : Str) (fields : NodeFields) (events : List (Str × SyncKind))
    (changes : List PropagatedChange) (db : Db) : Option Committed :=
  if (db.getNode nodeId).isSome then
    some (((db.updateNodes nodeId (fields.apply now)).2).applyChanges now changes, events)
  else none

/-- The result of a statement with constraints, and its events. -/
def committedIf {α : Type} (r : Except SqlError (α × Db)) (events : List (Str × SyncKind)) :
    Option Committed :=
  match r with
  | .ok (_, db) => some (db, events)
  | .error _ => none

/-- The abstract reading of a call. -/
def Call.commit (now : Str) (db : Db) : Call → Option Committed
  | .ensureNode n => some (db.upsertNode n, [])
  | .insertBgpPeer r =>
      committedIf (db.insertBgpRow { r with createdAt := now, updatedAt := now })
        [(r.nodeId, .desired)]
  | .updateBgpPeer n asn u =>
      if (db.getBgpPeer n asn).isSome then
        some ((db.updateBgpRows n asn (u.apply now)).2, [(n, .desired)])
      else none
  | .deleteBgpPeer n asn =>
      if (db.getBgpPeer n asn).isSome then
        some ({ db with bgpPeers := Rows.deleteWhere (BgpRow.is n asn) db.bgpPeers },
          [(n, .desired)])
      else none
  | .insertIbgpPeer r =>
      committedIf (db.insertIbgpRow { r with createdAt := now, updatedAt := now })
        [(r.nodeId, .desired)]
  | .updateIbgpPeer n name u =>
      if (db.getIbgpPeer n name).isSome then
        some ((db.updateIbgpRows n name (u.apply now)).2, [(n, .desired)])
      else none
  | .deleteIbgpPeer n name =>
      if (db.getIbgpPeer n name).isSome then
        some ({ db with ibgpPeers := Rows.deleteWhere (IbgpRow.is n name) db.ibgpPeers },
          [(n, .desired)])
      else none
  | .addNode n name =>
      committedIf ((db.upsertNode n).insertNode (ManagedNodeStore.newNode now n name false)) []
  | .upsertSelf n name =>
      committedIf (((db.demoteSelf now n).upsertNode n).upsertSelfRow
        (ManagedNodeStore.newNode now n name true)) []
  | .deleteNode n force =>
      match db.getNode n with
      | none => none
      | some existing =>
          if existing.isSelf && !force then none
          else some ({ db with
            managedNodes := Rows.deleteWhere (fun m => m.nodeId == n) db.managedNodes },
            [(n, .accessRevoked)])
  | .setTokenHash n h =>
      if (db.getNode n).isSome then
        some ((db.updateNodes n fun m => { m with apiTokenHash := some h, updatedAt := now }).2,
          [(n, .accessRevoked)])
      else none
  | .setWritePolicy n p =>
      match validateWritePolicy p with
      | .error _ => none
      | .ok normalized =>
          if (db.getNode n).isSome then
            some ((db.updateNodes n fun m =>
              { m with writePolicy := normalized, updatedAt := now }).2, [])
          else none
  | .touchLastSeen n => some ((db.updateNodes n fun m => { m with lastSeenAt := some now }).2, [])
  | .setName n name => db.commitFields now n { name := .set name } [] []
  | .setEnabled n e =>
      db.commitFields now n { enabled := .set e } (if e then [] else [(n, .accessRevoked)]) []
  | .setAddresses n h v r =>
      let fields : NodeFields := { endpointHost := h, ownIpv6 := v, routerId := r }
      if fields = {} then none
      else
        db.commitFields now n fields (if fields.touchesBlock then [(n, .desired)] else []) []
  | .applyAddressUpdate n f cs =>
      db.commitFields now n f (ManagedNodeStore.addressEvents n f cs) cs
  | .addProposal n src kind p =>
      match ProposalSource.ofText src, ProposalKind.ofText kind with
      | some s, some k => committedIf (db.insertProposal n s k p now) []
      | _, _ => none
  | .setStatus id st m =>
      if (db.getProposal id).isSome then
        some (db.decided now id st m, [])
      else none
  | .addReport n kind p =>
      match ReportKind.ofText kind with
      | some k => committedIf (db.insertReport n k p now) []
      | none => none
  | .markImported id =>
      if (db.getReport id).isSome then
        some ({ db with
          nodeReports := Rows.updateWhere (fun r => r.id == id)
            (fun r => { r with importedAt := some now }) db.nodeReports }, [])
      else none
  | .record n rev gen p =>
      if (db.getByRevision n rev).isSome then none
      else committedIf (db.insertRevision n rev gen p) []
  | .trim n k =>
      some ({ db with
        configRevisions := Rows.deleteWhere (db.trimmed n k) db.configRevisions }, [])
  | .pin n rev =>
      if (db.getByRevision n rev).isSome then
        committedIf (db.upsertPin ⟨n, rev, now⟩) [(n, .desired)]
      else none
  | .unpin n =>
      some ({ db with desiredPins := Rows.deleteWhere (fun p => p.nodeId == n) db.desiredPins },
        [(n, .desired)])

/-- The database a call leaves when it returns. -/
def Call.after (now : Str) (db : Db) (call : Call) : Db :=
  match call.commit now db with
  | some (mid, events) => mid.emitAll now events
  | none => db

/-! ## a call that returns has left the abstract result -/

/-- A result that is dropped was there. -/
theorem eval_forEffect {α : Type} {m : DbTx α} {db db' : Db} {u : Unit}
    (h : eval (forEffect m) db = (.ok u, db')) : ∃ a, eval m db = (.ok a, db') := by
  obtain ⟨c', hrun, rfl⟩ := eval_eq_ok.mp h
  obtain ⟨a, c1, h1, h2⟩ := Prog.run_bind_eq_ok.mp hrun
  simp only [Prog.run_pure, Prod.mk.injEq] at h2
  exact ⟨a, eval_eq_ok.mpr ⟨c1, h1, by rw [h2.2]⟩⟩

/-- It is dropped. -/
theorem eval_forEffect_of {α : Type} {m : DbTx α} {db db' : Db} {a : α}
    (h : eval m db = (.ok a, db')) : eval (forEffect m) db = (.ok (), db') := by
  obtain ⟨c', hrun, rfl⟩ := eval_eq_ok.mp h
  exact eval_eq_ok.mpr ⟨c', Prog.run_bind_eq_ok.mpr ⟨a, c', hrun, rfl⟩, rfl⟩

/-- A row count is zero exactly when the lookup finds nothing. -/
theorem countP_eq_zero_iff_find? {α : Type} {p : α → Bool} {rows : List α} :
    rows.countP p = 0 ↔ rows.find? p = none := by
  rw [List.countP_eq_zero, List.find?_eq_none]

theorem isSome_of_countP {α : Type} {p : α → Bool} {rows : List α} (h : ¬ rows.countP p = 0) :
    (rows.find? p).isSome = true := by
  rw [countP_eq_zero_iff_find?] at h
  exact Option.isSome_iff_ne_none.mpr h

section Eval

variable {now : Str} {db db' : Db} {u : Unit}

/-- The row in `nodes`. -/
theorem eval_ensureNode {n : Str} (h : eval (Database.ensureNode n) db = (.ok u, db')) :
    db' = Call.after now db (.ensureNode n) := by
  obtain ⟨c', hrun, rfl⟩ := eval_eq_ok.mp h
  obtain ⟨-, h⟩ := bind_modify (run_guarded_eq_ok.mp hrun)
  rw [committed_of_commit h]
  rfl

/-- A new BGP peer and its event. -/
theorem eval_insertBgpPeer {r : BgpPeerRecord}
    (h : eval (Database.insertBgpPeer now r) db = (.ok u, db')) :
    db' = Call.after now db (.insertBgpPeer r) := by
  obtain ⟨c', hrun, rfl⟩ := eval_eq_ok.mp h
  obtain ⟨a, w, -, hw, h⟩ := bind_execute (run_guarded_eq_ok.mp hrun)
  rw [committed_of_commit (bind_emit h)]
  simp only [Call.after, Call.commit, hw, committedIf]
  rfl

/-- A new iBGP peer and its event. -/
theorem eval_insertIbgpPeer {r : IbgpPeerRecord}
    (h : eval (Database.insertIbgpPeer now r) db = (.ok u, db')) :
    db' = Call.after now db (.insertIbgpPeer r) := by
  obtain ⟨c', hrun, rfl⟩ := eval_eq_ok.mp h
  obtain ⟨a, w, -, hw, h⟩ := bind_execute (run_guarded_eq_ok.mp hrun)
  rw [committed_of_commit (bind_emit h)]
  simp only [Call.after, Call.commit, hw, committedIf]
  rfl

/-- An update that returns has matched a row, or the row it looked up exists. -/
theorem bind_requireMatched {ρ β : Type} {rowcount : Nat} {bd : Option BindError}
    {lookup : Db → Option ρ} {missing : PyError} {rest : Unit → DbTx β} {d w : Db} {t l : Bool}
    {b : β} {c' : Conn Db}
    (h : (Database.requireMatched rowcount (query bd lookup) missing >>= rest).run
      ⟨d, w, t, none, l⟩ = (.ok b, c')) :
    (rowcount ≠ 0 ∨ (lookup w).isSome) ∧ (rest ()).run ⟨d, w, t, none, l⟩ = (.ok b, c') := by
  obtain ⟨u, c1, h1, h2⟩ := Prog.run_bind_eq_ok.mp h
  rw [Database.requireMatched] at h1
  split at h1
  · obtain ⟨-, h1⟩ := bind_query h1
    cases hw : lookup w with
    | none => simp [hw, abortIf] at h1
    | some r =>
        simp only [hw, abortIf, Option.isNone_some, Bool.false_eq_true, if_false, Prog.run_pure,
          Prod.mk.injEq] at h1
        exact ⟨.inr rfl, h1.2 ▸ h2⟩
  · simp only [Prog.run_pure, Prod.mk.injEq] at h1
    exact ⟨.inl ‹_›, h1.2 ▸ h2⟩

/-- An update that returns has found its row. -/
theorem found_of_updateBgpPeer {n : Str} {asn : Int} {up : Database.BgpUpdate}
    (h : eval (Database.updateBgpPeer now n asn up) db = (.ok u, db')) :
    (db.getBgpPeer n asn).isSome = true := by
  obtain ⟨c', hrun, rfl⟩ := eval_eq_ok.mp h
  obtain ⟨rowcount, w, -, hw, hrun⟩ := bind_execute (run_guarded_eq_ok.mp hrun)
  simp only [Except.ok.injEq, Db.updateBgpRows, Prod.mk.injEq] at hw
  obtain ⟨rfl, rfl⟩ := hw
  obtain ⟨hfound, hrun⟩ := bind_requireMatched hrun
  rcases hfound with h0 | h0
  · exact isSome_of_countP h0
  · -- the update keeps the key columns, so the lookup sees the same row
    have hkey : ∀ r ∈ db.bgpPeers, BgpRow.is n asn r = true →
        BgpRow.is n asn (up.apply now r) = BgpRow.is n asn r := fun _ _ _ => rfl
    simp only [Db.getBgpPeer] at h0
    rw [Rows.find?_updateWhere hkey, Option.isSome_map] at h0
    exact h0

/-- A changed BGP peer and its event. -/
theorem eval_updateBgpPeer {n : Str} {asn : Int} {up : Database.BgpUpdate}
    (h : eval (Database.updateBgpPeer now n asn up) db = (.ok u, db')) :
    db' = Call.after now db (.updateBgpPeer n asn up) := by
  have hsome := found_of_updateBgpPeer h
  obtain ⟨c', hrun, rfl⟩ := eval_eq_ok.mp h
  obtain ⟨rowcount, w, -, hw, hrun⟩ := bind_execute (run_guarded_eq_ok.mp hrun)
  simp only [Except.ok.injEq, Db.updateBgpRows, Prod.mk.injEq] at hw
  obtain ⟨rfl, rfl⟩ := hw
  obtain ⟨-, hrun⟩ := bind_requireMatched hrun
  rw [committed_of_commit (bind_emit hrun)]
  simp only [Call.after, Call.commit, hsome, if_true]
  rfl

/-- An update that returns has found its row. -/
theorem found_of_updateIbgpPeer {n name : Str} {up : Database.IbgpUpdate}
    (h : eval (Database.updateIbgpPeer now n name up) db = (.ok u, db')) :
    (db.getIbgpPeer n name).isSome = true := by
  obtain ⟨c', hrun, rfl⟩ := eval_eq_ok.mp h
  obtain ⟨rowcount, w, -, hw, hrun⟩ := bind_execute (run_guarded_eq_ok.mp hrun)
  simp only [Except.ok.injEq, Db.updateIbgpRows, Prod.mk.injEq] at hw
  obtain ⟨rfl, rfl⟩ := hw
  obtain ⟨hfound, hrun⟩ := bind_requireMatched hrun
  rcases hfound with h0 | h0
  · exact isSome_of_countP h0
  · have hkey : ∀ r ∈ db.ibgpPeers, IbgpRow.is n name r = true →
        IbgpRow.is n name (up.apply now r) = IbgpRow.is n name r := fun _ _ _ => rfl
    simp only [Db.getIbgpPeer] at h0
    rw [Rows.find?_updateWhere hkey, Option.isSome_map] at h0
    exact h0

/-- A changed iBGP peer and its event. -/
theorem eval_updateIbgpPeer {n name : Str} {up : Database.IbgpUpdate}
    (h : eval (Database.updateIbgpPeer now n name up) db = (.ok u, db')) :
    db' = Call.after now db (.updateIbgpPeer n name up) := by
  have hsome := found_of_updateIbgpPeer h
  obtain ⟨c', hrun, rfl⟩ := eval_eq_ok.mp h
  obtain ⟨rowcount, w, -, hw, hrun⟩ := bind_execute (run_guarded_eq_ok.mp hrun)
  simp only [Except.ok.injEq, Db.updateIbgpRows, Prod.mk.injEq] at hw
  obtain ⟨rfl, rfl⟩ := hw
  obtain ⟨-, hrun⟩ := bind_requireMatched hrun
  rw [committed_of_commit (bind_emit hrun)]
  simp only [Call.after, Call.commit, hsome, if_true]
  rfl

/-- `_delete_peer`, when it returns: nothing, or the row is gone and announced. -/
theorem eval_deletePeer {ρ : Type} {msg failed : PyError} {bd bd' : Option BindError}
    {lookup : Db → Option ρ} {delete : Db → Db} {n : Str} {a : Option ρ}
    (h : eval (Database.deletePeer (queryOr msg bd lookup) bd' delete failed now n) db =
      (.ok a, db')) :
    db' = if (lookup db).isSome then (delete db).emit now n .desired else db := by
  obtain ⟨c', hrun, rfl⟩ := eval_eq_ok.mp h
  obtain ⟨-, hrun⟩ := bind_queryOr hrun
  cases hrow : lookup db with
  | none =>
      simp only [hrow, Prog.run_pure, Prod.mk.injEq] at hrun
      rw [← hrun.2]
      rfl
  | some row =>
      simp only [hrow] at hrun
      obtain ⟨-, hrun⟩ := bind_modify (run_guarded_eq_ok.mp hrun)
      rw [committed_of_commit_pure (bind_emit hrun)]
      rfl

/-- A new node. -/
theorem eval_add {n name : Str} {a : ManagedNode}
    (h : eval (ManagedNodeStore.add now n name) db = (.ok a, db')) :
    db' = Call.after now db (.addNode n name) := by
  obtain ⟨c', hrun, rfl⟩ := eval_eq_ok.mp h
  obtain ⟨u, c1, h1, h2⟩ := Prog.run_bind_eq_ok.mp hrun
  obtain ⟨-, h1⟩ := bind_modify (run_guarded_eq_ok.mp h1)
  obtain ⟨x, w, -, hw, h1⟩ := bind_execute h1
  rw [committed_of_commit h1] at h2
  rw [(run_readBack_eq_ok.mp h2).2.2]
  simp only [Call.after, Call.commit, hw, committedIf]
  rfl

/-- The registration of the node itself. -/
theorem eval_upsertSelf {n name : Str} {a : ManagedNode}
    (h : eval (ManagedNodeStore.upsertSelf now n name) db = (.ok a, db')) :
    db' = Call.after now db (.upsertSelf n name) := by
  obtain ⟨c', hrun, rfl⟩ := eval_eq_ok.mp h
  obtain ⟨u, c1, h1, h2⟩ := Prog.run_bind_eq_ok.mp hrun
  obtain ⟨-, h1⟩ := bind_modify (run_guarded_eq_ok.mp h1)
  obtain ⟨-, h1⟩ := bind_modify h1
  obtain ⟨x, w, -, hw, h1⟩ := bind_execute h1
  rw [committed_of_commit h1] at h2
  rw [(run_readBack_eq_ok.mp h2).2.2]
  simp only [Call.after, Call.commit, hw, committedIf]
  rfl

/-- The deletion of a node. -/
theorem eval_delete {n : Str} {force : Bool} {a : Option ManagedNode}
    (h : eval (ManagedNodeStore.delete now n force) db = (.ok a, db')) :
    db' = Call.after now db (.deleteNode n force) := by
  obtain ⟨c', hrun, rfl⟩ := eval_eq_ok.mp h
  obtain ⟨-, hrun⟩ := bind_queryOr hrun
  cases hrow : db.getNode n with
  | none =>
      simp only [hrow, Prog.run_pure, Prod.mk.injEq] at hrun
      rw [← hrun.2]
      simp only [Call.after, Call.commit, hrow]
  | some existing =>
      simp only [hrow] at hrun
      split at hrun
      · simp at hrun
      · rename_i hself
        obtain ⟨u, c1, h1, h2⟩ := Prog.run_bind_eq_ok.mp hrun
        simp only [Prog.run_pure, Prod.mk.injEq] at h2
        obtain ⟨-, h1⟩ := bind_modify (run_guarded_eq_ok.mp h1)
        rw [← h2.2, committed_of_commit (bind_emit h1)]
        simp only [Call.after, Call.commit, hrow, if_neg hself]
        rfl

/-- A token, by its hash. -/
theorem eval_setTokenHash {n hash : Str}
    (h : eval (ManagedNodeStore.setTokenHash now n hash) db = (.ok u, db')) :
    db' = Call.after now db (.setTokenHash n hash) := by
  obtain ⟨c', hrun, rfl⟩ := eval_eq_ok.mp h
  obtain ⟨rowcount, w, -, hw, hrun⟩ := bind_execute (run_guarded_eq_ok.mp hrun)
  simp only [Except.ok.injEq, Db.updateNodes, Prod.mk.injEq] at hw
  obtain ⟨rfl, rfl⟩ := hw
  obtain ⟨hzero, hrun⟩ := bind_abortIf hrun
  rw [committed_of_commit (bind_emit hrun)]
  simp only [Call.after, Call.commit, Db.getNode, isSome_of_countP (beq_eq_false_iff_ne.mp hzero),
    if_true]
  rfl

/-- The write policy. -/
theorem eval_setWritePolicy {n : Str} {policy : List (Str × Str)} {a : ManagedNode}
    (h : eval (ManagedNodeStore.setWritePolicy now n policy) db = (.ok a, db')) :
    db' = Call.after now db (.setWritePolicy n policy) := by
  obtain ⟨c', hrun, rfl⟩ := eval_eq_ok.mp h
  obtain ⟨normalized, c1, h1, h2⟩ := Prog.run_bind_eq_ok.mp hrun
  rw [Prog.run_lift, Prod.mk.injEq] at h1
  obtain ⟨hpol, rfl⟩ := h1
  have hval : validateWritePolicy policy = .ok normalized := by
    cases hv : validateWritePolicy policy with
    | error e => simp [hv, Except.mapError] at hpol
    | ok p => simpa [hv, Except.mapError] using hpol
  obtain ⟨u, c2, h2, h3⟩ := Prog.run_bind_eq_ok.mp h2
  obtain ⟨rowcount, w, -, hw, h2⟩ := bind_execute (run_guarded_eq_ok.mp h2)
  simp only [Except.ok.injEq, Db.updateNodes, Prod.mk.injEq] at hw
  obtain ⟨rfl, rfl⟩ := hw
  obtain ⟨hzero, h2⟩ := bind_abortIf h2
  rw [committed_of_commit h2] at h3
  rw [(run_readBack_eq_ok.mp h3).2.2]
  simp only [Call.after, Call.commit, hval, Db.getNode,
    isSome_of_countP (beq_eq_false_iff_ne.mp hzero), if_true]
  rfl

/-- The time a node was seen last. -/
theorem eval_touchLastSeen {n : Str}
    (h : eval (ManagedNodeStore.touchLastSeen now n) db = (.ok u, db')) :
    db' = Call.after now db (.touchLastSeen n) := by
  obtain ⟨c', hrun, rfl⟩ := eval_eq_ok.mp h
  obtain ⟨-, hrun⟩ := bind_modify (run_guarded_eq_ok.mp hrun)
  rw [committed_of_commit hrun]
  rfl

/-- The loop over the propagated changes. -/
theorem run_changes_eq_ok {changes : List PropagatedChange} {d w : Db} {t l : Bool} {u : PUnit}
    {c' : Conn Db}
    (h : (changes.forM fun change =>
        modify (params [.text change.new, .text change.nodeId, .text change.name]) fun db =>
          (db.updateIbgpRows change.nodeId change.name (change.apply now)).2 : DbTx PUnit).run
      ⟨d, w, t, none, l⟩ = (.ok u, c')) :
    ∃ t', c' = ⟨d, w.applyChanges now changes, t', none, l⟩ := by
  induction changes generalizing w t with
  | nil =>
      rw [Prog.run_forM_nil, Prod.mk.injEq] at h
      exact ⟨t, h.2.symm⟩
  | cons c cs ih =>
      rw [Prog.run_forM_cons] at h
      obtain ⟨-, h⟩ := bind_modify h
      exact ih h

/-- The columns of a node, what they propagate and their events. -/
theorem eval_updateFields {n : Str} {fields : NodeFields} {events : List (Str × SyncKind)}
    {changes : List PropagatedChange} {a : ManagedNode}
    (h : eval (ManagedNodeStore.updateFields now n fields events changes) db = (.ok a, db')) :
    ∃ mid, db.commitFields now n fields events changes = some (mid, events) ∧
      db' = mid.emitAll now events := by
  obtain ⟨c', hrun, rfl⟩ := eval_eq_ok.mp h
  obtain ⟨u, c1, h1, h2⟩ := Prog.run_bind_eq_ok.mp hrun
  obtain ⟨rowcount, w, -, hw, h1⟩ := bind_execute (run_guarded_eq_ok.mp h1)
  simp only [Except.ok.injEq, Db.updateNodes, Prod.mk.injEq] at hw
  obtain ⟨rfl, rfl⟩ := hw
  obtain ⟨hzero, h1⟩ := bind_abortIf h1
  obtain ⟨u2, c2, hchanges, h1⟩ := Prog.run_bind_eq_ok.mp h1
  obtain ⟨t2, rfl⟩ := run_changes_eq_ok hchanges
  obtain ⟨u3, c3, hevents, h1⟩ := Prog.run_bind_eq_ok.mp h1
  obtain ⟨t3, rfl⟩ := run_emitAll_eq_ok hevents
  rw [committed_of_commit h1] at h2
  rw [(run_readBack_eq_ok.mp h2).2.2]
  refine ⟨_, ?_, rfl⟩
  simp only [Db.commitFields, Db.getNode, isSome_of_countP (beq_eq_false_iff_ne.mp hzero), if_true]
  rfl

/-- The addresses of a node. -/
theorem eval_setAddresses {n : Str} {host v6 rid : Patch (Option Str)} {a : ManagedNode}
    (h : eval (ManagedNodeStore.setAddresses now n host v6 rid) db = (.ok a, db')) :
    db' = Call.after now db (.setAddresses n host v6 rid) := by
  rw [ManagedNodeStore.setAddresses] at h
  by_cases hf : ({ endpointHost := host, ownIpv6 := v6, routerId := rid } : NodeFields) = {}
  · simp only [if_pos hf] at h
    obtain ⟨c', hrun, rfl⟩ := eval_eq_ok.mp h
    rw [(run_readBack_eq_ok.mp hrun).2.2]
    simp only [Call.after, Call.commit, if_pos hf]
  · simp only [if_neg hf] at h
    obtain ⟨mid, hmid, rfl⟩ := eval_updateFields h
    simp only [Call.after, Call.commit, if_neg hf, hmid]

/-- A new proposal. -/
theorem eval_addProposal {n src kind : Str} {payload : JsonObject} {a : ConfigProposal}
    (h : eval (ProposalStore.add now n src kind payload) db = (.ok a, db')) :
    db' = Call.after now db (.addProposal n src kind payload) := by
  obtain ⟨c', hrun, rfl⟩ := eval_eq_ok.mp h
  rw [ProposalStore.add] at hrun
  cases hs : ProposalSource.ofText src with
  | none => simp [hs] at hrun
  | some s =>
      cases hk : ProposalKind.ofText kind with
      | none => simp [hs, hk] at hrun
      | some k =>
          simp only [hs, hk] at hrun
          obtain ⟨rowId, c1, h1, h2⟩ := Prog.run_bind_eq_ok.mp hrun
          obtain ⟨x, w, -, hw, h1⟩ := bind_execute (run_guarded_eq_ok.mp h1)
          rw [committed_of_commit_pure h1] at h2
          rw [(run_readBack_eq_ok.mp h2).2.2]
          simp only [Call.after, Call.commit, hs, hk, hw, committedIf]
          rfl

/-- The status of a proposal. -/
theorem eval_setStatus {id : Nat} {st : ProposalStatus} {m : Option Msg} {a : ConfigProposal}
    (h : eval (ProposalStore.setStatus now id st m) db = (.ok a, db')) :
    db' = Call.after now db (.setStatus id st m) := by
  obtain ⟨c', hrun, rfl⟩ := eval_eq_ok.mp h
  obtain ⟨u, c1, h1, h2⟩ := Prog.run_bind_eq_ok.mp hrun
  obtain ⟨rowcount, w, -, hw, h1⟩ := bind_execute (run_guarded_eq_ok.mp h1)
  simp only [Except.ok.injEq, Prod.mk.injEq] at hw
  obtain ⟨rfl, rfl⟩ := hw
  obtain ⟨hzero, h1⟩ := bind_abortIf h1
  rw [committed_of_commit h1] at h2
  rw [(run_readBack_eq_ok.mp h2).2.2]
  simp only [Call.after, Call.commit, Db.getProposal,
    isSome_of_countP (beq_eq_false_iff_ne.mp hzero), if_true]
  rfl

/-- A new report. -/
theorem eval_addReport {n kind : Str} {payload : JsonObject} {a : NodeReport}
    (h : eval (ReportStore.add now n kind payload) db = (.ok a, db')) :
    db' = Call.after now db (.addReport n kind payload) := by
  obtain ⟨c', hrun, rfl⟩ := eval_eq_ok.mp h
  rw [ReportStore.add] at hrun
  cases hk : ReportKind.ofText kind with
  | none => simp [hk] at hrun
  | some k =>
      simp only [hk] at hrun
      obtain ⟨rowId, c1, h1, h2⟩ := Prog.run_bind_eq_ok.mp hrun
      obtain ⟨x, w, -, hw, h1⟩ := bind_execute (run_guarded_eq_ok.mp h1)
      rw [committed_of_commit_pure h1] at h2
      rw [(run_readBack_eq_ok.mp h2).2.2]
      simp only [Call.after, Call.commit, hk, hw, committedIf]
      rfl

theorem eval_markImported {id : Nat} {a : NodeReport}
    (h : eval (ReportStore.markImported now id) db = (.ok a, db')) :
    db' = Call.after now db (.markImported id) := by
  obtain ⟨c', hrun, rfl⟩ := eval_eq_ok.mp h
  obtain ⟨u, c1, h1, h2⟩ := Prog.run_bind_eq_ok.mp hrun
  obtain ⟨rowcount, w, -, hw, h1⟩ := bind_execute (run_guarded_eq_ok.mp h1)
  simp only [Except.ok.injEq, Prod.mk.injEq] at hw
  obtain ⟨rfl, rfl⟩ := hw
  obtain ⟨hzero, h1⟩ := bind_abortIf h1
  rw [committed_of_commit h1] at h2
  rw [(run_readBack_eq_ok.mp h2).2.2]
  simp only [Call.after, Call.commit, Db.getReport,
    isSome_of_countP (beq_eq_false_iff_ne.mp hzero), if_true]
  rfl

/-- A snapshot, unless there is one of this revision. -/
theorem eval_record {n rev gen : Str} {payload : DesiredState} {a : ConfigRevision}
    (h : eval (RevisionStore.record n rev gen payload) db = (.ok a, db')) :
    db' = Call.after now db (.record n rev gen payload) := by
  obtain ⟨c', hrun, rfl⟩ := eval_eq_ok.mp h
  obtain ⟨-, hrun⟩ := bind_queryOr hrun
  cases hex : db.getByRevision n rev with
  | some existing =>
      simp only [hex, Prog.run_pure, Prod.mk.injEq] at hrun
      rw [← hrun.2]
      simp only [Call.after, Call.commit, hex, Option.isSome_some, if_true]
  | none =>
      simp only [hex] at hrun
      obtain ⟨rowId, c1, h1, h2⟩ := Prog.run_bind_eq_ok.mp hrun
      obtain ⟨x, w, -, hw, h1⟩ := bind_execute (run_guarded_eq_ok.mp h1)
      rw [committed_of_commit_pure h1] at h2
      rw [(run_readBack_eq_ok.mp h2).2.2]
      simp only [Call.after, Call.commit, hex, Option.isSome_none, Bool.false_eq_true, if_false,
        hw, committedIf]
      rfl

/-- The snapshots that are dropped. -/
theorem eval_trim {n : Str} {keep : Int} {a : Nat}
    (h : eval (RevisionStore.trim n keep) db = (.ok a, db')) :
    db' = Call.after now db (.trim n keep) := by
  obtain ⟨c', hrun, rfl⟩ := eval_eq_ok.mp h
  obtain ⟨x, w, -, hw, hrun⟩ := bind_execute (run_guarded_eq_ok.mp hrun)
  simp only [Except.ok.injEq, Prod.mk.injEq] at hw
  obtain ⟨rfl, rfl⟩ := hw
  rw [committed_of_commit_pure hrun]
  rfl

/-- A pin and its event. -/
theorem eval_pin {n rev : Str} (h : eval (RevisionStore.pin now n rev) db = (.ok u, db')) :
    db' = Call.after now db (.pin n rev) := by
  obtain ⟨c', hrun, rfl⟩ := eval_eq_ok.mp h
  obtain ⟨-, hrun⟩ := bind_queryOr hrun
  cases hex : db.getByRevision n rev with
  | none => simp [hex] at hrun
  | some existing =>
      simp only [hex] at hrun
      obtain ⟨x, w, -, hw, hrun⟩ := bind_execute (run_guarded_eq_ok.mp hrun)
      rw [committed_of_commit (bind_emit hrun)]
      simp only [Call.after, Call.commit, hex, Option.isSome_some, if_true, hw, committedIf]
      rfl

/-- No pin, and its event. -/
theorem eval_unpin {n : Str} (h : eval (RevisionStore.unpin now n) db = (.ok u, db')) :
    db' = Call.after now db (.unpin n) := by
  obtain ⟨c', hrun, rfl⟩ := eval_eq_ok.mp h
  obtain ⟨-, hrun⟩ := bind_modify (run_guarded_eq_ok.mp hrun)
  rw [committed_of_commit (bind_emit hrun)]
  rfl

/-- **Refinement**: a call that returns has left what its abstract reading says. -/
theorem Call.eval_run (call : Call) (h : eval (call.run now) db = (.ok u, db')) :
    db' = call.after now db := by
  cases call with
  | ensureNode n => exact eval_ensureNode h
  | insertBgpPeer r => exact eval_insertBgpPeer h
  | updateBgpPeer n asn up => exact eval_updateBgpPeer h
  | deleteBgpPeer n asn =>
      obtain ⟨a, h⟩ := eval_forEffect h
      rw [eval_deletePeer h]
      simp only [Call.after, Call.commit]
      split <;> rfl
  | insertIbgpPeer r => exact eval_insertIbgpPeer h
  | updateIbgpPeer n name up => exact eval_updateIbgpPeer h
  | deleteIbgpPeer n name =>
      obtain ⟨a, h⟩ := eval_forEffect h
      rw [eval_deletePeer h]
      simp only [Call.after, Call.commit]
      split <;> rfl
  | addNode n name =>
      obtain ⟨a, h⟩ := eval_forEffect h
      exact eval_add h
  | upsertSelf n name =>
      obtain ⟨a, h⟩ := eval_forEffect h
      exact eval_upsertSelf h
  | deleteNode n force =>
      obtain ⟨a, h⟩ := eval_forEffect h
      exact eval_delete h
  | setTokenHash n hash => exact eval_setTokenHash h
  | setWritePolicy n policy =>
      obtain ⟨a, h⟩ := eval_forEffect h
      exact eval_setWritePolicy h
  | touchLastSeen n => exact eval_touchLastSeen h
  | setName n name =>
      obtain ⟨a, h⟩ := eval_forEffect h
      obtain ⟨mid, hmid, rfl⟩ := eval_updateFields h
      simp only [Call.after, Call.commit, hmid]
      rfl
  | setEnabled n e =>
      obtain ⟨a, h⟩ := eval_forEffect h
      obtain ⟨mid, hmid, rfl⟩ := eval_updateFields h
      simp only [Call.after, Call.commit, hmid]
  | setAddresses n host v6 rid =>
      obtain ⟨a, h⟩ := eval_forEffect h
      exact eval_setAddresses h
  | applyAddressUpdate n f cs =>
      obtain ⟨a, h⟩ := eval_forEffect h
      obtain ⟨mid, hmid, rfl⟩ := eval_updateFields h
      simp only [Call.after, Call.commit, hmid]
  | addProposal n src kind payload =>
      obtain ⟨a, h⟩ := eval_forEffect h
      exact eval_addProposal h
  | setStatus id st m =>
      obtain ⟨a, h⟩ := eval_forEffect h
      exact eval_setStatus h
  | addReport n kind payload =>
      obtain ⟨a, h⟩ := eval_forEffect h
      exact eval_addReport h
  | markImported id =>
      obtain ⟨a, h⟩ := eval_forEffect h
      exact eval_markImported h
  | record n rev gen payload =>
      obtain ⟨a, h⟩ := eval_forEffect h
      exact eval_record h
  | trim n keep =>
      obtain ⟨a, h⟩ := eval_forEffect h
      exact eval_trim h
  | pin n rev => exact eval_pin h
  | unpin n => exact eval_unpin h

end Eval

end Dn42Ctl
