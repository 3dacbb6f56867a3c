import Dn42Ctl.Frames
import Dn42Ctl.Lib.Machine

/-!
# Hub

The hub's database as a machine.  A write is a call of a mutator, or one of the
two repair commands that write through a connection of their own; each may meet
a fault at any statement.  `Db.WF` is what every reachable database satisfies.
-/

namespace Dn42Ctl

open Text Txn

/-! ## writes -/

inductive Write where
  | call (call : Call)
  | backfill (dryRun : Bool)
  | adoptSelf (configNodeId : Str) (fromNodeId : Option Str) (dryRun : Bool)

def Write.run (now : Str) : Write → DbTx Unit
  | .call c => c.run now
  | .backfill dryRun => forEffect (backfillRemoteNodeIds dryRun)
  | .adoptSelf cfg frm dryRun => forEffect (adoptSelfPartition now cfg frm dryRun)

/-- A write with what the environment decides: the clock, and where a statement
fails. -/
structure HubAction where
  write : Write
  now : Str
  fault : Option Nat := none
  late : Bool := false

/-- The database a write leaves. -/
def hubStep (db : Db) (a : HubAction) : Option Db :=
  some ((a.write.run a.now).run (Conn.fresh db a.fault a.late)).2.committed

/-- The databases that runs of writes lead to. -/
def Db.Reachable (db : Db) : Prop := Machine.Reachable hubStep Db.empty db

/-! ## well-formed databases -/

/-- The queue: the rows left in the table are rows of the log, in its order,
and the newest row is never trimmed. -/
structure Db.QueueWF (db : Db) : Prop where
  logBounded : ∀ e ∈ db.syncLog, e.id ≤ db.syncSeq
  logIncreasing : (db.syncLog.map SyncEvent.id).Pairwise (· < ·)
  queueLogged : db.syncEvents.Sublist db.syncLog
  newestKept : db.syncSeq = 0 ∨ ∃ e ∈ db.syncEvents, e.id = db.syncSeq

/-- The revisions: their ids increase, and `UNIQUE(node_id, revision)`. -/
structure Db.RevisionsWF (db : Db) : Prop where
  bounded : ∀ r ∈ db.configRevisions, r.id ≤ db.revisionSeq
  increasing : (db.configRevisions.map ConfigRevision.id).Pairwise (· < ·)
  unique : db.configRevisions.Pairwise fun a b => ¬ ConfigRevision.is a.nodeId a.revision b

structure Db.WF (db : Db) : Prop where
  queue : db.QueueWF
  revisions : db.RevisionsWF
  /-- A pin names a recorded revision of its node. -/
  pinsRecorded : ∀ n p, db.getPinRow n = some p → (db.getByRevision n p.revision).isSome

/-- The empty database is well formed. -/
theorem wf_empty : Db.empty.WF where
  queue := ⟨by simp [Db.empty], .nil, .slnil, .inl rfl⟩
  revisions := ⟨by simp [Db.empty], .nil, .nil⟩
  pinsRecorded n p h := by simp [Db.empty, Db.getPinRow] at h

/-- The queue's well-formedness reads the queue alone. -/
theorem Db.QueueWF.of_eq {db db' : Db} (h : db.QueueWF) (hev : db'.syncEvents = db.syncEvents)
    (hseq : db'.syncSeq = db.syncSeq) (hlog : db'.syncLog = db.syncLog) : db'.QueueWF where
  logBounded := by
    rw [hseq, hlog]
    exact h.logBounded
  logIncreasing := by
    rw [hlog]
    exact h.logIncreasing
  queueLogged := by
    rw [hev, hlog]
    exact h.queueLogged
  newestKept := by
    rw [hev, hseq]
    exact h.newestKept

/-- The revisions' well-formedness reads the revisions alone. -/
theorem Db.RevisionsWF.of_eq {db db' : Db} (h : db.RevisionsWF)
    (hrev : db'.configRevisions = db.configRevisions) (hseq : db'.revisionSeq = db.revisionSeq) :
    db'.RevisionsWF where
  bounded := by
    rw [hrev, hseq]
    exact h.bounded
  increasing := by
    rw [hrev]
    exact h.increasing
  unique := by
    rw [hrev]
    exact h.unique

/-- Only the pins, the revisions and the queue matter. -/
theorem Db.WF.of_eq {db db' : Db} (h : db.WF) (hpins : db'.desiredPins = db.desiredPins)
    (hrev : db'.configRevisions = db.configRevisions) (hrevs : db'.revisionSeq = db.revisionSeq)
    (hev : db'.syncEvents = db.syncEvents) (hseq : db'.syncSeq = db.syncSeq)
    (hlog : db'.syncLog = db.syncLog) : db'.WF where
  queue := h.queue.of_eq hev hseq hlog
  revisions := h.revisions.of_eq hrev hrevs
  pinsRecorded n p hp := by
    rw [Db.getPinRow, hpins] at hp
    rw [Db.getByRevision, hrev]
    exact h.pinsRecorded n p hp

/-- Appending the next event keeps the log; the table may then lose old rows. -/
theorem Db.QueueWF.append {db db' : Db} (h : db.QueueWF) {e : SyncEvent}
    (he : e.id = db.syncSeq + 1) (hseq : db'.syncSeq = db.syncSeq + 1)
    (hlog : db'.syncLog = db.syncLog ++ [e])
    (hev : db'.syncEvents.Sublist (db.syncEvents ++ [e])) (hmem : e ∈ db'.syncEvents) :
    db'.QueueWF where
  logBounded x hx := by
    rw [hlog] at hx
    rw [hseq]
    rcases List.mem_append.mp hx with hx | hx
    · exact Nat.le_succ_of_le (h.logBounded x hx)
    · rw [List.mem_singleton.mp hx, he]
  logIncreasing := by
    rw [hlog, List.map_append, List.pairwise_append]
    refine ⟨h.logIncreasing, List.pairwise_singleton _ _, fun i hi j hj => ?_⟩
    obtain ⟨x, hx, rfl⟩ := List.mem_map.mp hi
    rw [List.map_singleton, List.mem_singleton] at hj
    rw [hj, he]
    exact Nat.lt_succ_of_le (h.logBounded x hx)
  queueLogged := by
    rw [hlog]
    exact hev.trans (h.queueLogged.append_right [e])
  newestKept := .inr ⟨e, hmem, by rw [he, hseq]⟩

/-- An event takes the next number. -/
theorem Db.QueueWF.emit {db : Db} (h : db.QueueWF) (now n : Str) (k : SyncKind) :
    (db.emit now n k).QueueWF := by
  refine h.append (e := db.nextEvent now n k) rfl rfl rfl ?_ ?_
  · simp only [Db.emit, Db.emitted]
    split
    · exact List.filter_sublist
    · exact .refl _
  · simp only [Db.emit, Db.emitted]
    split
    · refine List.mem_filter.mpr ⟨by simp, ?_⟩
      simp [Db.nextEvent, syncEventsKeep]
    · simp

/-- An event keeps the database well formed. -/
theorem Db.WF.emit {db : Db} (h : db.WF) (now n : Str) (k : SyncKind) : (db.emit now n k).WF where
  queue := h.queue.emit now n k
  revisions := h.revisions.of_eq rfl rfl
  pinsRecorded := h.pinsRecorded

/-- So do several. -/
theorem Db.WF.emitAll {db : Db} (h : db.WF) (now : Str) (events : List (Str × SyncKind)) :
    (db.emitAll now events).WF := by
  induction events generalizing db with
  | nil => exact h
  | cons e es ih => exact ih (h.emit now e.1 e.2)

/-! ## what keeps a database well formed -/

/-- A call that writes neither pins nor revisions. -/
theorem Db.WF.of_frame {tables : List Table} {db mid : Db} (h : db.WF) (hf : Frame tables db mid)
    (hrev : Table.configRevisions ∉ tables) (hpin : Table.desiredPins ∉ tables) : mid.WF :=
  h.of_eq (hf.desiredPins hpin) (hf.configRevisions hrev).1 (hf.configRevisions hrev).2
    hf.queue.1 hf.queue.2.1 hf.queue.2.2

/-- A new revision keeps the table well formed. -/
theorem Db.RevisionsWF.record {db : Db} {n rev gen : Str} {payload : DesiredState}
    (h : db.RevisionsWF) (hnone : db.getByRevision n rev = none) :
    Db.RevisionsWF { db with
      configRevisions := db.configRevisions ++ [⟨db.revisionSeq + 1, n, rev, gen, payload⟩]
      revisionSeq := db.revisionSeq + 1 } where
  bounded r hr := by
    rcases List.mem_append.mp hr with hr | hr
    · exact Nat.le_succ_of_le (h.bounded r hr)
    · rw [List.mem_singleton.mp hr]
  increasing := by
    rw [List.map_append, List.pairwise_append]
    refine ⟨h.increasing, List.pairwise_singleton _ _, fun i hi j hj => ?_⟩
    obtain ⟨r, hr, rfl⟩ := List.mem_map.mp hi
    rw [List.map_singleton, List.mem_singleton] at hj
    rw [hj]
    exact Nat.lt_succ_of_le (h.bounded r hr)
  unique := by
    refine List.pairwise_append.mpr ⟨h.unique, List.pairwise_singleton _ _, fun a ha b hb => ?_⟩
    rw [List.mem_singleton.mp hb]
    have hna := List.find?_eq_none.mp hnone a ha
    simp only [ConfigRevision.is, Bool.and_eq_true, beq_iff_eq, not_and] at hna ⊢
    exact fun h1 h2 => hna h1.symm h2.symm

/-- So does deleting rows. -/
theorem Db.RevisionsWF.sublist {db db' : Db} (h : db.RevisionsWF)
    (hsub : db'.configRevisions.Sublist db.configRevisions)
    (hseq : db'.revisionSeq = db.revisionSeq) : db'.RevisionsWF where
  bounded r hr := by
    rw [hseq]
    exact h.bounded r (hsub.subset hr)
  increasing := h.increasing.sublist (hsub.map _)
  unique := h.unique.sublist hsub

/-- A recorded revision is found again after another one was recorded. -/
theorem getByRevision_append {n rev : Str} {db : Db} {row : ConfigRevision} {r : ConfigRevision}
    (h : db.getByRevision n rev = some r) :
    (db.configRevisions ++ [row]).find? (ConfigRevision.is n rev) = some r := by
  rw [List.find?_append, show db.configRevisions.find? _ = some r from h, Option.some_or]

/-- A trim leaves the row a pin names. -/
theorem getByRevision_trim {n rev : Str} {keep : Int} {m : Str} {db : Db}
    (h : m = n → ∃ p ∈ db.desiredPins, p.nodeId = n ∧ p.revision = rev) :
    (Rows.deleteWhere (db.trimmed n keep) db.configRevisions).find? (ConfigRevision.is m rev) =
      db.configRevisions.find? (ConfigRevision.is m rev) := by
  refine Rows.find?_deleteWhere (fun r hr => ?_) _
  simp only [ConfigRevision.is, Bool.and_eq_true, beq_iff_eq] at hr
  obtain ⟨hrn, hrr⟩ := hr
  by_cases hmn : m = n
  · obtain ⟨p, hp, hpn, hpr⟩ := h hmn
    have hmem : r.revision ∈
        (db.desiredPins.filter fun p => p.nodeId == n).map DesiredPin.revision := by
      rw [hrr, ← hpr]
      exact List.mem_map_of_mem (List.mem_filter.mpr ⟨hp, by simp [hpn]⟩)
    rw [Db.trimmed, List.contains_iff_mem.mpr hmem]
    simp
  · simp [Db.trimmed, hrn, hmn]

/-- The pin found for a node is in the table and is that node's. -/
theorem getPinRow_mem {n : Str} {db : Db} {p : DesiredPin} (h : db.getPinRow n = some p) :
    p ∈ db.desiredPins ∧ p.nodeId = n := by
  rw [Db.getPinRow] at h
  exact ⟨List.mem_of_find?_eq_some h, by simpa using List.find?_some h⟩

/-- The pin rows after a pin was set. -/
theorem getPinRow_upsertPin {pin : DesiredPin} {db db' : Db} {u : Unit}
    (h : db.upsertPin pin = .ok (u, db')) (n : Str) :
    db'.getPinRow n = if n = pin.nodeId then some pin else db.getPinRow n := by
  rcases upsertPin_ok h with rfl | ⟨hnone, rfl⟩
  · simp only [Db.getPinRow]
    by_cases hn : n = pin.nodeId
    · subst hn
      rw [Rows.find?_updateWhere (fun p _ hp => by simpa using hp.symm), if_pos rfl]
      rw [Db.upsertPin] at h
      split at h
      · rename_i hany
        obtain ⟨p, hp, hpn⟩ := List.any_eq_true.mp hany
        cases hf : db.desiredPins.find? fun p => p.nodeId == pin.nodeId with
        | none => exact absurd hpn (List.find?_eq_none.mp hf p hp)
        | some q =>
            have hq : q.nodeId = pin.nodeId := by simpa using List.find?_some hf
            simp [hq]
      · rename_i hany
        split at h
        · simp at h
        · simp only [Except.ok.injEq, Prod.mk.injEq] at h
          have hlen := congrArg (fun d => d.desiredPins.length) h.2
          simp [Rows.updateWhere] at hlen
    · rw [if_neg hn, Rows.find?_updateWhere]
      · cases hf : db.desiredPins.find? fun p => p.nodeId == n with
        | none => rfl
        | some q =>
            have hq : q.nodeId = n := by simpa using List.find?_some hf
            have hne : q.nodeId ≠ pin.nodeId := by rwa [hq]
            simp [hne]
      · intro p _ hp
        rw [beq_iff_eq] at hp
        rw [hp]
  · simp only [Db.getPinRow] at hnone ⊢
    rw [List.find?_append]
    by_cases hn : n = pin.nodeId
    · subst hn
      rw [hnone, if_pos rfl]
      simp
    · rw [if_neg hn]
      have : ([pin].find? fun p => p.nodeId == n) = none := by simp [Ne.symm hn]
      rw [this, Option.or_none]

/-- Unpinning a node leaves every other pin. -/
theorem getPinRow_unpin (m n : Str) (db : Db) :
    (Rows.deleteWhere (fun p => p.nodeId == n) db.desiredPins).find? (fun p => p.nodeId == m) =
      if m = n then none else db.getPinRow m := by
  by_cases hm : m = n
  · rw [if_pos hm, List.find?_eq_none]
    intro p hp
    simp only [Rows.deleteWhere, List.mem_filter, Bool.not_eq_true', beq_eq_false_iff_ne] at hp
    simpa [hm] using hp.2
  · rw [if_neg hm, Db.getPinRow]
    refine Rows.find?_deleteWhere (fun p hp => ?_) _
    rw [beq_iff_eq] at hp
    simpa [hp] using hm

/-- An inserted revision keeps the database well formed. -/
theorem Db.WF.insertRevision {db db' : Db} {n rev gen : Str} {payload : DesiredState} {rowId : Nat}
    (h : db.WF) (hr : db.insertRevision n rev gen payload = .ok (rowId, db')) : db'.WF := by
  obtain ⟨hnone, rfl⟩ := insertRevision_ok hr
  refine ⟨h.queue.of_eq rfl rfl rfl, h.revisions.record hnone, fun m p hp => ?_⟩
  obtain ⟨r, hr⟩ := Option.isSome_iff_exists.mp (h.pinsRecorded m p hp)
  simp only [Db.getByRevision]
  rw [getByRevision_append hr]
  rfl

/-- So does a trim. -/
theorem Db.WF.trim {db : Db} (h : db.WF) (n : Str) (keep : Int) :
    Db.WF { db with
      configRevisions := Rows.deleteWhere (db.trimmed n keep) db.configRevisions } := by
  refine ⟨h.queue.of_eq rfl rfl rfl, h.revisions.sublist List.filter_sublist rfl,
    fun m p hp => ?_⟩
  obtain ⟨hmem, hnode⟩ := getPinRow_mem (show db.getPinRow m = some p from hp)
  simp only [Db.getByRevision]
  rw [getByRevision_trim fun hmn => ⟨p, hmem, hnode.trans hmn, rfl⟩]
  exact h.pinsRecorded m p hp

/-- What a call commits is well formed. -/
theorem Call.wf_commit {now : Str} {db mid : Db} {evs : List (Str × SyncKind)} (call : Call)
    (hwf : db.WF) (h : call.commit now db = some (mid, evs)) : mid.WF := by
  have hframe := call.commit_frame h
  by_cases hrev : Table.configRevisions ∈ call.writes
  · cases call with
    | record n rev gen payload =>
        simp only [Call.commit, Option.ite_none_left_eq_some] at h
        obtain ⟨⟨u, hr⟩, -⟩ := committedIf_eq_some h.2
        exact hwf.insertRevision hr
    | trim n keep =>
        simp only [Call.commit, Option.some.injEq, Prod.mk.injEq] at h
        obtain ⟨rfl, -⟩ := h
        exact hwf.trim n keep
    | _ => simp [Call.writes] at hrev
  · by_cases hpin : Table.desiredPins ∈ call.writes
    · cases call with
      | pin n rev =>
          simp only [Call.commit, Option.ite_none_right_eq_some] at h
          obtain ⟨hex, h⟩ := h
          obtain ⟨⟨u, hr⟩, -⟩ := committedIf_eq_some h
          have hrevs := (hframe.configRevisions hrev).1
          refine ⟨hwf.queue.of_eq hframe.queue.1 hframe.queue.2.1 hframe.queue.2.2,
            hwf.revisions.of_eq hrevs (hframe.configRevisions hrev).2, fun m p hp => ?_⟩
          rw [getPinRow_upsertPin hr] at hp
          rw [Db.getByRevision, hrevs]
          split at hp
          · rename_i hmn
            simp only [Option.some.injEq] at hp
            rw [← hp, hmn]
            exact hex
          · exact hwf.pinsRecorded m p hp
      | unpin n =>
          simp only [Call.commit, Option.some.injEq, Prod.mk.injEq] at h
          obtain ⟨rfl, -⟩ := h
          refine ⟨hwf.queue.of_eq rfl rfl rfl, hwf.revisions.of_eq rfl rfl, fun m p hp => ?_⟩
          simp only [Db.getPinRow] at hp
          rw [getPinRow_unpin] at hp
          split at hp
          · simp at hp
          · exact hwf.pinsRecorded m p hp
      | _ => simp [Call.writes] at hpin
    · exact hwf.of_frame hframe hrev hpin

/-- So is what it leaves, committed or rolled back. -/
theorem Call.wf_after (now : Str) {db : Db} (call : Call) (hwf : db.WF) :
    (call.after now db).WF := by
  rw [Call.after]
  cases h : call.commit now db with
  | none => exact hwf
  | some c => exact (call.wf_commit hwf h).emitAll now c.2

/-- The database a call leaves, whatever faults it meets. -/
theorem Call.committed_cases (call : Call) (now : Str) (db : Db) (fault : Option Nat)
    (late : Bool) :
    ((call.run now).run (Conn.fresh db fault late)).2.committed = db ∨
      ((call.run now).run (Conn.fresh db fault late)).2.committed = call.after now db := by
  rcases (call.atomic now).run_fresh db fault late with ⟨a, c', hrun, he⟩ | ⟨e, c', hrun, hc⟩
  · rw [hrun]
    exact .inr (call.eval_run he)
  · rw [hrun]
    rcases hc with hsame | ⟨-, -, a, he⟩
    · exact .inl hsame
    · exact .inr (call.eval_run he)

/-! ## the repair commands -/

theorem wf_insertSyncEvent {w : Db} (hw : w.WF) (now n : Str) (k : SyncKind) :
    (w.insertSyncEvent n k now).2.WF where
  queue := hw.queue.append (e := w.nextEvent now n k) rfl rfl rfl (.refl _)
    (List.mem_append_right _ (List.mem_singleton.mpr rfl))
  revisions := hw.revisions.of_eq rfl rfl
  pinsRecorded := hw.pinsRecorded

theorem wf_trimSyncEvents {w : Db} (hw : w.WF) {bound : Int} (hb : bound < w.syncSeq) :
    (w.trimSyncEvents bound).WF where
  queue :=
    { logBounded := hw.queue.logBounded
      logIncreasing := hw.queue.logIncreasing
      queueLogged := List.filter_sublist.trans hw.queue.queueLogged
      newestKept := by
        rcases hw.queue.newestKept with h | ⟨e, he, hid⟩
        · exact .inl h
        · refine .inr ⟨e, List.mem_filter.mpr ⟨he, ?_⟩, hid⟩
          simp only [Bool.not_eq_true', decide_eq_false_iff_not, hid]
          omega }
  revisions := hw.revisions.of_eq rfl rfl
  pinsRecorded := hw.pinsRecorded

theorem preserves_emitSyncEvent (now n : Str) (k : SyncKind) :
    Preserves Db.WF (emitSyncEvent now n k) := by
  refine .execute_bind (Q := fun newId w => w.syncSeq = newId) _ (fun w a w' hw h => ?_)
    fun newId c h1 h2 hseq => ?_
  · simp only [Except.ok.injEq] at h
    have hwf := wf_insertSyncEvent hw now n k
    rw [h] at hwf
    exact ⟨hwf, by rw [Db.insertSyncEvent, Prod.mk.injEq] at h; rw [← h.1, ← h.2]⟩
  · split
    · refine Preserves.modify_at _ h1 h2 (wf_trimSyncEvents h2 ?_)
      rw [hseq, syncEventsKeep]
      omega
    · exact ⟨h1, h2⟩

section Repair

variable {I : Db → Prop}

/-- `backfill_remote_node_ids` writes only `ibgp_peers`. -/
theorem preserves_backfill (hibgp : ∀ w rows, I w → I { w with ibgpPeers := rows })
    (dryRun : Bool) : Preserves I (backfillRemoteNodeIds dryRun) := by
  refine .bind (.queryOr _ _ _) fun nodes => .bind (.query _ _) fun rows => ?_
  dsimp only
  split
  · exact .pure _
  · exact .bind (.guarded (.bind (.forM fun _ _ => .modify _ fun w hw => hibgp w _ hw)
      fun _ => .commit)) fun _ => .pure _

/-- A move of BGP rows changes that table alone. -/
theorem moveBgpRows_ok {source target : Str} {w w' : Db} {u : Unit}
    (h : w.moveBgpRows source target = .ok (u, w')) :
    ∃ rows, w' = { w with bgpPeers := rows } := by
  rw [Db.moveBgpRows] at h
  split at h
  · simp at h
  · split at h
    · simp at h
    · simp only [Except.ok.injEq, Prod.mk.injEq] at h
      exact ⟨_, h.2.symm⟩

/-- A move of iBGP rows changes that table alone. -/
theorem moveIbgpRows_ok {source target : Str} {w w' : Db} {u : Unit}
    (h : w.moveIbgpRows source target = .ok (u, w')) :
    ∃ rows, w' = { w with ibgpPeers := rows } := by
  rw [Db.moveIbgpRows] at h
  split at h
  · simp at h
  · split at h
    · simp at h
    · simp only [Except.ok.injEq, Prod.mk.injEq] at h
      exact ⟨_, h.2.symm⟩

/-- `adopt_self_partition` writes the two peer tables and announces. -/
theorem preserves_adoptSelf (hbgp : ∀ w rows, I w → I { w with bgpPeers := rows })
    (hibgp : ∀ w rows, I w → I { w with ibgpPeers := rows }) {now : Str}
    (hemit : ∀ n k, Preserves I (emitSyncEvent now n k)) (cfg : Str) (frm : Option Str)
    (dryRun : Bool) : Preserves I (adoptSelfPartition now cfg frm dryRun) := by
  have hmoveBgp : ∀ source target w (u : Unit) w', I w →
      Db.moveBgpRows source target w = .ok (u, w') → I w' := by
    intro source target w u w' hw h
    obtain ⟨rows, rfl⟩ := moveBgpRows_ok h
    exact hbgp w rows hw
  have hmoveIbgp : ∀ source target w (u : Unit) w', I w →
      Db.moveIbgpRows source target w = .ok (u, w') → I w' := by
    intro source target w u w' hw h
    obtain ⟨rows, rfl⟩ := moveIbgpRows_ok h
    exact hibgp w rows hw
  refine .bind (.queryOr _ _ _) fun selfNode => ?_
  cases selfNode with
  | none => exact .fail _
  | some node =>
      dsimp only
      split
      · exact .fail _
      · refine .bind (.queryOr _ _ _) fun bgpRows => .bind (.queryOr _ _ _) fun ibgpRows => ?_
        split
        · exact .fail _
        · refine .bind (.queryOr _ _ _) fun targetBgp => .bind (.queryOr _ _ _) fun targetIbgp => ?_
          split
          · exact .fail _
          · split
            · exact .pure _
            · refine .bind (.guarded ?_) fun _ => .pure _
              exact .bind (.execute _ (hmoveBgp _ _)) fun _ =>
                .bind (.execute _ (hmoveIbgp _ _)) fun _ => .bind (hemit _ _) fun _ => .commit

end Repair

/-- What a repair command keeps, as a step of the machine. -/
theorem hubStep_repair {I : Db → Prop} {db db' : Db} {a : HubAction} (hdb : I db)
    (h : hubStep db a = some db') (hcall : ∀ c, a.write ≠ .call c)
    (hbgp : ∀ w rows, I w → I { w with bgpPeers := rows })
    (hibgp : ∀ w rows, I w → I { w with ibgpPeers := rows })
    (hemit : ∀ n k, Preserves I (emitSyncEvent a.now n k)) : I db' := by
  simp only [hubStep, Option.some.injEq] at h
  rw [← h]
  cases hw : a.write with
  | call c => exact absurd hw (hcall c)
  | backfill dryRun =>
      exact (Preserves.bind (preserves_backfill hibgp dryRun) fun _ => .pure _).run_fresh hdb _ _
  | adoptSelf cfg frm dryRun =>
      exact (Preserves.bind (preserves_adoptSelf hbgp hibgp hemit cfg frm dryRun) fun _ =>
        .pure _).run_fresh hdb _ _

/-- What a call leaves, as a step of the machine. -/
theorem hubStep_call {db db' : Db} {a : HubAction} {c : Call} (hw : a.write = .call c)
    (h : hubStep db a = some db') : db' = db ∨ db' = c.after a.now db := by
  simp only [hubStep, hw, Write.run, Option.some.injEq] at h
  rw [← h]
  exact c.committed_cases a.now db a.fault a.late

def Write.writes : Write → List Table
  | .call c => c.writes
  | .backfill _ => [.ibgpPeers]
  | .adoptSelf .. => [.bgpPeers, .ibgpPeers]

/-- An event touches no table of the configuration. -/
theorem preserves_emit_tables (db : Db) (now n : Str) (k : SyncKind) :
    Preserves (fun w => Frame tables db.tables w.tables) (emitSyncEvent now n k) := by
  refine .bind (.execute _ fun w a w' hw h => ?_) fun newId => ?_
  · simp only [Except.ok.injEq, Db.insertSyncEvent, Prod.mk.injEq] at h
    rw [← h.2]
    exact hw
  · split
    · exact .modify _ fun w hw => hw
    · exact .pure _

/-- A write stays within its tables and the queue. -/
theorem hubStep_frame {db db' : Db} {a : HubAction} (h : hubStep db a = some db') :
    Frame a.write.writes db.tables db'.tables := by
  have hibgp : ∀ (ts : List Table) (w : Db) rows, .ibgpPeers ∈ ts →
      Frame ts db.tables w.tables → Frame ts db.tables { w with ibgpPeers := rows }.tables :=
    fun ts w rows hin hw => ⟨hw.nodes, hw.bgpPeers, fun hn => absurd hin hn, hw.managedNodes,
      hw.configProposals, hw.nodeReports, hw.configRevisions, hw.desiredPins, rfl, rfl, rfl⟩
  cases hw : a.write with
  | call c =>
      rcases hubStep_call hw h with hdb | hdb
      · rw [hdb]
        exact .refl _ _
      · rw [hdb]
        exact c.after_frame a.now db
  | backfill dryRun =>
      simp only [hubStep, hw, Write.run, Option.some.injEq] at h
      rw [← h]
      exact (Preserves.bind (preserves_backfill
        (I := fun w => Frame [.ibgpPeers] db.tables w.tables)
        (fun w rows => hibgp _ w rows (by simp)) dryRun) fun _ => .pure _).run_fresh (.refl _ _) _ _
  | adoptSelf cfg frm dryRun =>
      simp only [hubStep, hw, Write.run, Option.some.injEq] at h
      rw [← h]
      refine (Preserves.bind (preserves_adoptSelf
        (I := fun w => Frame [.bgpPeers, .ibgpPeers] db.tables w.tables) (fun w rows h => ?_)
        (fun w rows => hibgp _ w rows (by simp))
        (preserves_emit_tables db a.now) cfg frm dryRun) fun _ => .pure _).run_fresh (.refl _ _) _ _
      exact ⟨h.nodes, fun hn => by simp at hn, h.ibgpPeers, h.managedNodes, h.configProposals,
        h.nodeReports, h.configRevisions, h.desiredPins, rfl, rfl, rfl⟩

/-! ## every reachable database is well formed -/

/-- One step of the hub keeps the database well formed. -/
theorem wf_hubStep {db db' : Db} {a : HubAction} (hwf : db.WF) (h : hubStep db a = some db') :
    db'.WF := by
  by_cases hcall : ∃ c, a.write = .call c
  · obtain ⟨c, hw⟩ := hcall
    rcases hubStep_call hw h with hdb | hdb
    · rw [hdb]
      exact hwf
    · rw [hdb]
      exact c.wf_after a.now hwf
  · exact hubStep_repair hwf h (fun c hw => hcall ⟨c, hw⟩)
      (fun w rows hw => hw.of_eq rfl rfl rfl rfl rfl rfl)
      (fun w rows hw => hw.of_eq rfl rfl rfl rfl rfl rfl) (preserves_emitSyncEvent a.now)

/-- Every reachable database is well formed. -/
theorem Db.Reachable.wf {db : Db} (h : db.Reachable) : db.WF :=
  Machine.reachable_invariant hubStep (fun _ _ _ => wf_hubStep) wf_empty h

end Dn42Ctl
