import Dn42Ctl.Build
import Mathlib.Data.List.Pairwise

/-!
# Rollback

`services/revisions.py`: a rollback pins a recorded revision, and from then on
the node receives that snapshot whatever the tables hold.  Builds go on
recording and trimming, so the pinned snapshot has to outlive any number of
evictions.
-/

namespace Dn42Ctl

open Text Txn

/-! ## the service -/

/-- `rollback_to`: set `revision` as the desired revision of the node. -/
def rollbackTo (now nodeId revision : Str) : DbTx ConfigRevision := do
  match ← RevisionStore.getByRevision nodeId revision with
  | none =>
      fail ⟨.dn42CtlError, [.text (lit "revision 不存在: node="), .text nodeId,
        .text (lit " revision="), .text revision]⟩
  | some target => do
      RevisionStore.pin now nodeId revision
      pure target

/-- `clear_rollback`: the node follows the latest revision again. -/
def clearRollback (now nodeId : Str) : DbTx Unit := RevisionStore.unpin now nodeId

/-- What happens to the revisions: a write of the hub, or a build. -/
inductive RevisionAction where
  | write (a : HubAction)
  | build (nodeId now : Str) (recordRevision : Bool) (keepLatest : Int)

/-- The action sets or clears the pin of the node. -/
def RevisionAction.repins (nodeId : Str) : RevisionAction → Bool
  | .write ⟨.call (.pin m _), _, _, _⟩ | .write ⟨.call (.unpin m), _, _, _⟩ => m == nodeId
  | _ => false

def revisionStep (digest : DesiredContent → Str) (db : Db) : RevisionAction → Option Db
  | .write a => hubStep db a
  | .build nodeId now recordRevision keepLatest =>
      some ((buildDesiredState digest now nodeId recordRevision keepLatest).run db).2

/-! ## pins -/

/-- `node_desired_pin` has one row for each node, and revisions are those of
registered nodes. -/
structure Db.PinsWF (db : Db) : Prop where
  once : db.desiredPins.Pairwise fun a b => a.nodeId ≠ b.nodeId
  registered : ∀ r ∈ db.configRevisions, r.nodeId ∈ db.nodes

/-- There are no pins at first. -/
theorem pinsWF_empty : Db.empty.PinsWF := ⟨.nil, by simp [Db.empty]⟩

/-- The pin rows of a node are what looking its pin up finds. -/
theorem Db.PinsWF.getPinRow_eq {db : Db} (h : db.PinsWF) {p : DesiredPin}
    (hp : p ∈ db.desiredPins) : db.getPinRow p.nodeId = some p := by
  cases hf : db.getPinRow p.nodeId with
  | none => exact absurd (beq_self_eq_true _) (List.find?_eq_none.mp hf p hp)
  | some q =>
      obtain ⟨hq, hnode⟩ := getPinRow_mem hf
      by_cases hqp : q = p
      · rw [hqp]
      · have : Std.Symm fun a b : DesiredPin => a.nodeId ≠ b.nodeId := ⟨fun _ _ hab => hab.symm⟩
        exact absurd hnode (h.once.forall hq hp hqp)

/-- The tables are as they were. -/
theorem Db.PinsWF.of_eq {db db' : Db} (h : db.PinsWF) (hpins : db'.desiredPins = db.desiredPins)
    (hrev : db'.configRevisions = db.configRevisions) (hnodes : db.nodes ⊆ db'.nodes) :
    db'.PinsWF where
  once := by
    rw [hpins]
    exact h.once
  registered r hr := by
    rw [hrev] at hr
    exact hnodes (h.registered r hr)

/-- A snapshot more. -/
theorem Db.PinsWF.insertRevision {db db' : Db} (h : db.PinsWF) {n rev gen : Str}
    {payload : DesiredState} {rowId : Nat}
    (hr : db.insertRevision n rev gen payload = .ok (rowId, db')) : db'.PinsWF := by
  have hnode : n ∈ db.nodes := by
    rw [Db.insertRevision] at hr
    split at hr
    · simp at hr
    · split at hr
      · simp at hr
      · simpa using ‹¬ (!db.nodes.contains n) = true›
  obtain ⟨-, rfl⟩ := insertRevision_ok hr
  refine ⟨h.once, fun r hr => ?_⟩
  rcases List.mem_append.mp hr with hr | hr
  · exact h.registered r hr
  · rw [List.mem_singleton.mp hr]
    exact hnode

/-- The snapshots of pins are not trimmed. -/
theorem Db.PinsWF.trim {db : Db} (h : db.PinsWF) (n : Str) (keep : Int) :
    Db.PinsWF { db with
      configRevisions := Rows.deleteWhere (db.trimmed n keep) db.configRevisions } :=
  ⟨h.once, fun r hr => h.registered r (List.mem_of_mem_filter hr)⟩

/-- A pin names a recorded snapshot. -/
theorem Db.PinsWF.upsertPin {db db' : Db} (h : db.PinsWF) {pin : DesiredPin} {u : Unit}
    (hr : db.upsertPin pin = .ok (u, db')) : db'.PinsWF := by
  rcases upsertPin_ok hr with rfl | ⟨hnone, rfl⟩
  · refine ⟨?_, h.registered⟩
    rw [Rows.updateWhere, List.pairwise_map]
    refine h.once.imp fun {a b} hab => ?_
    -- an updated row keeps its key
    have hkey : ∀ p : DesiredPin,
        (if p.nodeId == pin.nodeId then pin else p).nodeId = p.nodeId := by
      intro p
      split
      · exact (beq_iff_eq.mp ‹_›).symm
      · rfl
    rw [hkey, hkey]
    exact hab
  · refine ⟨?_, h.registered⟩
    refine List.pairwise_append.mpr ⟨h.once, List.pairwise_singleton _ _, fun a ha b hb => ?_⟩
    rw [List.mem_singleton.mp hb]
    have := List.find?_eq_none.mp hnone a ha
    simpa using this

/-- A pin less. -/
theorem Db.PinsWF.unpin {db : Db} (h : db.PinsWF) (n : Str) :
    Db.PinsWF { db with
      desiredPins := Rows.deleteWhere (fun p => p.nodeId == n) db.desiredPins } :=
  ⟨h.once.sublist List.filter_sublist, h.registered⟩

theorem nodes_subset_upsertNode (n : Str) (db : Db) : db.nodes ⊆ (db.upsertNode n).nodes := by
  rw [Db.upsertNode]
  split
  · exact fun _ h => h
  · exact fun _ h => List.mem_append_left _ h

/-- Every call keeps the pins well formed. -/
theorem Call.pinsWF_commit {now : Str} {db mid : Db} {evs : List (Str × SyncKind)} (call : Call)
    (hwf : db.PinsWF) (h : call.commit now db = some (mid, evs)) : mid.PinsWF := by
  have hframe := call.commit_frame h
  cases call with
  | ensureNode n =>
      simp only [Call.commit, Option.some.injEq, Prod.mk.injEq] at h
      refine hwf.of_eq (hframe.desiredPins (by simp [Call.writes]))
        (hframe.configRevisions (by simp [Call.writes])).1 ?_
      rw [← h.1]
      exact nodes_subset_upsertNode n db
  | addNode n name =>
      obtain ⟨⟨u, hr⟩, -⟩ := committedIf_eq_some h
      refine hwf.of_eq (hframe.desiredPins (by simp [Call.writes]))
        (hframe.configRevisions (by simp [Call.writes])).1 ?_
      rw [(insertNode_ok hr).2]
      exact nodes_subset_upsertNode n db
  | upsertSelf n name =>
      obtain ⟨⟨u, hr⟩, -⟩ := committedIf_eq_some h
      refine hwf.of_eq (hframe.desiredPins (by simp [Call.writes]))
        (hframe.configRevisions (by simp [Call.writes])).1 ?_
      rcases upsertSelfRow_ok hr with hmid | ⟨-, hmid⟩
      · rw [hmid]
        exact nodes_subset_upsertNode n (db.demoteSelf now n)
      · rw [hmid]
        exact nodes_subset_upsertNode n (db.demoteSelf now n)
  | record n rev gen payload =>
      simp only [Call.commit, Option.ite_none_left_eq_some] at h
      obtain ⟨⟨u, hr⟩, -⟩ := committedIf_eq_some h.2
      exact hwf.insertRevision hr
  | trim n keep =>
      simp only [Call.commit, Option.some.injEq, Prod.mk.injEq] at h
      obtain ⟨rfl, -⟩ := h
      exact hwf.trim n keep
  | pin n rev =>
      simp only [Call.commit, Option.ite_none_right_eq_some] at h
      obtain ⟨⟨u, hr⟩, -⟩ := committedIf_eq_some h.2
      exact hwf.upsertPin hr
  | unpin n =>
      simp only [Call.commit, Option.some.injEq, Prod.mk.injEq] at h
      obtain ⟨rfl, -⟩ := h
      exact hwf.unpin n
  | _ =>
      refine hwf.of_eq (hframe.desiredPins (by simp [Call.writes]))
        (hframe.configRevisions (by simp [Call.writes])).1 ?_
      rw [hframe.nodes (by simp [Call.writes])]
      exact fun _ hx => hx

/-- Announcing writes the queue only. -/
theorem frame_emitAll (now : Str) (events : List (Str × SyncKind)) (db : Db) :
    Frame [] db.tables (db.emitAll now events).tables := by
  rw [tables_emitAll]
  exact .refl _ _

/-- Events leave the pins. -/
theorem Db.PinsWF.emitAll {db : Db} (h : db.PinsWF) (now : Str) (events : List (Str × SyncKind)) :
    (db.emitAll now events).PinsWF := by
  have hframe := frame_emitAll now events db
  have hnodes : (db.emitAll now events).nodes = db.nodes := hframe.nodes (by simp)
  refine h.of_eq (hframe.desiredPins (by simp)) (hframe.configRevisions (by simp)).1 ?_
  rw [hnodes]
  exact fun _ hx => hx

/-- Every write of the hub keeps the pins well formed. -/
theorem pinsWF_hubStep {db db' : Db} {a : HubAction} (hwf : db.PinsWF)
    (h : hubStep db a = some db') : db'.PinsWF := by
  by_cases hcall : ∃ c, a.write = .call c
  · obtain ⟨c, hw⟩ := hcall
    rcases hubStep_call hw h with hdb | hdb
    · rw [hdb]
      exact hwf
    · rw [hdb, Call.after]
      cases hc : c.commit a.now db with
      | none => exact hwf
      | some done => exact (c.pinsWF_commit hwf hc).emitAll a.now done.2
  · -- the repair commands write the peer tables only
    have hwrites : ∀ t ∈ a.write.writes, t = .bgpPeers ∨ t = .ibgpPeers := by
      cases hw : a.write with
      | call c => exact absurd ⟨c, hw⟩ hcall
      | backfill dryRun => simp [Write.writes]
      | adoptSelf cfg frm dryRun => simp [Write.writes]
    have hframe := hubStep_frame h
    have hnodes : db'.nodes = db.nodes := hframe.nodes fun ht => by simpa using hwrites _ ht
    refine hwf.of_eq (hframe.desiredPins fun ht => by simpa using hwrites _ ht)
      (hframe.configRevisions fun ht => by simpa using hwrites _ ht).1 ?_
    rw [hnodes]
    exact fun _ hx => hx

/-! ## runs -/

section Runs

variable {digest : DesiredContent → Str}

/-- What every run of writes and builds keeps. -/
structure Db.RollbackInv (db : Db) : Prop where
  wf : db.WF
  pins : db.PinsWF

/-- A step of the history keeps the invariant. -/
theorem rollbackInv_step {db db' : Db} {a : RevisionAction} (h : db.RollbackInv)
    (hs : revisionStep digest db a = some db') : db'.RollbackInv := by
  cases a with
  | write w => exact ⟨wf_hubStep h.wf hs, pinsWF_hubStep h.pins hs⟩
  | build n now record keep =>
      simp only [revisionStep, Option.some.injEq] at hs
      rw [← hs]
      exact maintains_build
        (fun _ _ _ _ hw hr => ⟨hw.wf.insertRevision hr, hw.pins.insertRevision hr⟩)
        (fun _ hw => ⟨hw.wf.trim n keep, hw.pins.trim n keep⟩) record db h

/-- It holds in every state of the history. -/
theorem rollbackInv_of_reachable {db : Db}
    (h : Machine.Reachable (revisionStep digest) Db.empty db) : db.RollbackInv :=
  Machine.reachable_invariant _ (fun _ _ _ => rollbackInv_step) ⟨wf_empty, pinsWF_empty⟩ h

/-- A pin names a recorded revision of its node. -/
theorem Db.RollbackInv.pin_recorded {db : Db} (h : db.RollbackInv) {p : DesiredPin}
    (hp : p ∈ db.desiredPins) :
    ∃ r ∈ db.configRevisions, r.nodeId = p.nodeId ∧ r.revision = p.revision := by
  obtain ⟨r, hr⟩ :=
    Option.isSome_iff_exists.mp (h.wf.pinsRecorded p.nodeId p (h.pins.getPinRow_eq hp))
  have his := List.find?_some hr
  simp only [ConfigRevision.is, Bool.and_eq_true, beq_iff_eq] at his
  exact ⟨r, List.mem_of_find?_eq_some hr, his⟩

/-! ## the pinned snapshot stays -/

/-- The node's pin names `row`, and `row` is recorded. -/
structure Db.Held (n : Str) (row : ConfigRevision) (db : Db) : Prop where
  pinned : ∃ p, db.getPinRow n = some p ∧ p.revision = row.revision
  recorded : db.getByRevision n row.revision = some row

variable {n : Str} {row : ConfigRevision}

/-- The held snapshot is the pinned one. -/
theorem Db.Held.getPin_eq {db : Db} (h : db.Held n row) : db.getPin n = some row := by
  obtain ⟨p, hp, hrev⟩ := h.pinned
  rw [Db.getPin, hp, Option.bind_some, hrev]
  exact h.recorded

/-- The tables are as they were. -/
theorem Db.Held.of_eq {db db' : Db} (h : db.Held n row)
    (hpins : db'.getPinRow n = db.getPinRow n)
    (hrev : db'.configRevisions = db.configRevisions) : db'.Held n row where
  pinned := by
    rw [hpins]
    exact h.pinned
  recorded := by
    rw [Db.getByRevision, hrev]
    exact h.recorded

/-- A snapshot more. -/
theorem Db.Held.insertRevision {db db' : Db} (h : db.Held n row) {m rev gen : Str}
    {payload : DesiredState} {rowId : Nat}
    (hr : db.insertRevision m rev gen payload = .ok (rowId, db')) : db'.Held n row := by
  obtain ⟨-, rfl⟩ := insertRevision_ok hr
  exact ⟨h.pinned, getByRevision_append h.recorded⟩

/-- A held snapshot is not trimmed. -/
theorem Db.Held.trim {db : Db} (h : db.Held n row) (m : Str) (keep : Int) :
    Db.Held n row { db with
      configRevisions := Rows.deleteWhere (db.trimmed m keep) db.configRevisions } := by
  refine ⟨h.pinned, ?_⟩
  obtain ⟨p, hp, hrev⟩ := h.pinned
  obtain ⟨hmem, hnode⟩ := getPinRow_mem hp
  simp only [Db.getByRevision]
  rw [getByRevision_trim fun hnm => ⟨p, hmem, hnode.trans hnm, hrev⟩]
  exact h.recorded

/-- Events leave the pin. -/
theorem Db.Held.emitAll {db : Db} (h : db.Held n row) (now : Str)
    (events : List (Str × SyncKind)) : (db.emitAll now events).Held n row := by
  have hframe := frame_emitAll now events db
  have hpins : (db.emitAll now events).desiredPins = db.desiredPins :=
    hframe.desiredPins (by simp)
  refine h.of_eq ?_ (hframe.configRevisions (by simp)).1
  rw [Db.getPinRow, hpins]
  rfl

/-- A call that does not pin the node leaves its snapshot held. -/
theorem Call.held_commit {now : Str} {db mid : Db} {evs : List (Str × SyncKind)} (call : Call)
    (hheld : db.Held n row) (hpin : ∀ rev, call ≠ .pin n rev) (hunpin : call ≠ .unpin n)
    (h : call.commit now db = some (mid, evs)) : mid.Held n row := by
  have hframe := call.commit_frame h
  cases call with
  | record m rev gen payload =>
      simp only [Call.commit, Option.ite_none_left_eq_some] at h
      obtain ⟨⟨u, hr⟩, -⟩ := committedIf_eq_some h.2
      exact hheld.insertRevision hr
  | trim m keep =>
      simp only [Call.commit, Option.some.injEq, Prod.mk.injEq] at h
      obtain ⟨rfl, -⟩ := h
      exact hheld.trim m keep
  | pin m rev =>
      simp only [Call.commit, Option.ite_none_right_eq_some] at h
      obtain ⟨⟨u, hr⟩, -⟩ := committedIf_eq_some h.2
      refine hheld.of_eq ?_ (hframe.configRevisions (by simp [Call.writes])).1
      rw [getPinRow_upsertPin hr, if_neg]
      rintro rfl
      exact hpin rev rfl
  | unpin m =>
      simp only [Call.commit, Option.some.injEq, Prod.mk.injEq] at h
      obtain ⟨rfl, -⟩ := h
      refine hheld.of_eq ?_ rfl
      simp only [Db.getPinRow]
      rw [getPinRow_unpin, if_neg]
      · rfl
      · rintro rfl
        exact hunpin rfl
  | _ =>
      refine hheld.of_eq ?_ (hframe.configRevisions (by simp [Call.writes])).1
      rw [Db.getPinRow, hframe.desiredPins (by simp [Call.writes])]
      rfl

/-- So does a write of the hub. -/
theorem held_hubStep {db db' : Db} {a : HubAction} (hheld : db.Held n row)
    (hrepin : RevisionAction.repins n (.write a) = false) (h : hubStep db a = some db') :
    db'.Held n row := by
  obtain ⟨w, now, fault, late⟩ := a
  cases w with
  | call c =>
      rcases hubStep_call rfl h with hdb | hdb
      · rw [hdb]
        exact hheld
      · rw [hdb, Call.after]
        dsimp only
        cases hc : c.commit now db with
        | none => exact hheld
        | some done =>
            refine (c.held_commit hheld ?_ ?_ hc).emitAll now done.2
            · rintro rev rfl
              simp [RevisionAction.repins] at hrepin
            · rintro rfl
              simp [RevisionAction.repins] at hrepin
  | backfill dryRun =>
      have hframe := hubStep_frame h
      have hpins : db'.desiredPins = db.desiredPins :=
        hframe.desiredPins (by simp [Write.writes])
      refine hheld.of_eq ?_ (hframe.configRevisions (by simp [Write.writes])).1
      rw [Db.getPinRow, hpins]
      rfl
  | adoptSelf cfg frm dryRun =>
      have hframe := hubStep_frame h
      have hpins : db'.desiredPins = db.desiredPins :=
        hframe.desiredPins (by simp [Write.writes])
      refine hheld.of_eq ?_ (hframe.configRevisions (by simp [Write.writes])).1
      rw [Db.getPinRow, hpins]
      rfl

/-- A build keeps the pinned snapshot, whatever it records and evicts. -/
theorem maintains_held_build (m now : Str) (record : Bool) (keep : Int) :
    Prog.Maintains (Db.Held n row) (buildDesiredState digest now m record keep) :=
  maintains_build (fun _ _ _ _ hw hr => hw.insertRevision hr) (fun _ hw => hw.trim m keep) record

/-- And a step of the history. -/
theorem held_step {db db' : Db} {a : RevisionAction} (hheld : db.Held n row)
    (hrepin : a.repins n = false) (h : revisionStep digest db a = some db') : db'.Held n row := by
  cases a with
  | write w => exact held_hubStep hheld hrepin h
  | build m now record keep =>
      simp only [revisionStep, Option.some.injEq] at h
      rw [← h]
      exact maintains_held_build m now record keep db hheld

/-- What a rollback that returns leaves. -/
theorem held_of_rollbackTo {now r : Str} {db db' : Db} {target : ConfigRevision}
    (h : eval (rollbackTo now n r) db = (.ok target, db')) :
    params [.text n] = none ∧ db.getByRevision n r = some target ∧
      db' = Call.after now db (.pin n r) ∧ db'.Held n target := by
  obtain ⟨c', hrun, rfl⟩ := eval_eq_ok.mp h
  obtain ⟨hb, hrun⟩ := bind_queryOr hrun
  cases hfound : db.getByRevision n r with
  | none => simp [hfound] at hrun
  | some found =>
      simp only [hfound] at hrun
      obtain ⟨u, c1, hpin, hrun⟩ := Prog.run_bind_eq_ok.mp hrun
      rw [Prog.run_pure, Prod.mk.injEq, Except.ok.injEq] at hrun
      obtain ⟨rfl, rfl⟩ := hrun
      have hafter : c1.committed = Call.after now db (.pin n r) :=
        eval_pin (eval_eq_ok.mpr ⟨c1, hpin, rfl⟩)
      have hrev : found.revision = r := by
        have his := List.find?_some hfound
        simp only [ConfigRevision.is, Bool.and_eq_true, beq_iff_eq] at his
        exact his.2
      refine ⟨params_of_subset hb (by simp), rfl, hafter, ?_⟩
      -- the pin call has run its insert, or it would have raised
      obtain ⟨-, hpin⟩ := bind_queryOr hpin
      simp only [hfound] at hpin
      obtain ⟨v, w, -, hw, -⟩ := bind_execute (run_guarded_eq_ok.mp hpin)
      rw [hafter, Call.after, Call.commit, hfound, hw]
      refine Db.Held.emitAll ⟨⟨⟨n, r, now⟩, ?_, hrev.symm⟩, ?_⟩ now _
      · rw [getPinRow_upsertPin hw, if_pos rfl]
      · have hrevs : w.configRevisions = db.configRevisions := by
          rcases upsertPin_ok hw with rfl | ⟨-, rfl⟩ <;> rfl
        rw [Db.getByRevision, hrevs, hrev]
        exact hfound

/-! ## a build returns -/

/-- What a build binds fits its statements: texts that were read from the
database, the clock, the digest and the limit. -/
def Db.BuildFits (digest : DesiredContent → Str) (now n : Str) (keep : Int) (db : Db) : Prop :=
  params ([.text n, .text (computeRevision digest (db.liveContent n) now), .text now] ++
    DesiredState.params { db.liveContent n with
      revision := computeRevision digest (db.liveContent n) now, generatedAt := now }) = none ∧
  params [.int keep] = none

/-- Looking for a snapshot to reuse writes nothing. -/
theorem run_reusableSnapshot_eq {rev gen : Str} (hb : params [.text n] = none) (d w : Db)
    (t l : Bool) : (reusableSnapshot n rev gen).run ⟨d, w, t, none, l⟩ =
      (.ok (w.reusable n rev gen), ⟨d, w, t, none, l⟩) := by
  rw [reusableSnapshot, RevisionStore.latestRevision, hb, Prog.run_bind_ok (run_queryOr_none ..),
    Db.reusable, Db.newestRevision]
  cases (w.revisionsDesc n).head? with
  | none => rfl
  | some previous =>
      simp only [Option.map_some]
      by_cases hd : digestOfRevision previous.revision = digestOfRevision rev
      · simp only [if_pos hd]
        rw [RevisionStore.getStored, hb, Prog.run_bind_ok (run_queryOr_none ..)]
        cases w.getByRevision n previous.revision with
        | none => rfl
        | some existing => rfl
      · simp only [if_neg hd]
        rfl

/-- `record` returns when its parameters fit and the node is registered. -/
theorem run_record_ok {rev gen : Str} {payload : DesiredState} {db : Db}
    (hb : params ([.text n, .text rev, .text gen] ++ payload.params) = none) (hn : n ∈ db.nodes) :
    ∃ r d, (RevisionStore.record n rev gen payload).run ⟨db, db, false, none, false⟩ =
      (.ok r, ⟨d, d, false, none, false⟩) := by
  rw [RevisionStore.record, RevisionStore.getByRevision, params_of_subset hb (by simp),
    Prog.run_bind_ok (run_queryOr_none ..)]
  cases hfound : db.getByRevision n rev with
  | some existing => exact ⟨existing, db, rfl⟩
  | none =>
      have hany : db.configRevisions.any (ConfigRevision.is n rev) = false := by
        rw [List.any_eq_false]
        exact List.find?_eq_none.mp hfound
      dsimp only
      rw [hb]
      -- the insert meets its constraints, so its row is there to be read back
      have hins : db.insertRevision n rev gen payload = .ok (db.revisionSeq + 1, { db with
          configRevisions := db.configRevisions ++ [⟨db.revisionSeq + 1, n, rev, gen, payload⟩]
          revisionSeq := db.revisionSeq + 1 }) := by
        simp [Db.insertRevision, hany, hn]
      set w : Db := { db with
        configRevisions := db.configRevisions ++ [⟨db.revisionSeq + 1, n, rev, gen, payload⟩]
        revisionSeq := db.revisionSeq + 1 } with hw
      have hback : (w.getRevision (db.revisionSeq + 1)).isSome := by
        simp [hw, Db.getRevision]
      obtain ⟨r, hr⟩ := Option.isSome_iff_exists.mp hback
      refine ⟨r, w, Prog.run_bind_eq_ok.mpr ⟨db.revisionSeq + 1, ⟨w, w, false, none, false⟩,
        run_guarded_eq_ok.mpr ?_, run_readBack_eq_ok.mpr ⟨rfl, hr, rfl⟩⟩⟩
      refine Prog.run_bind_eq_ok.mpr ⟨db.revisionSeq + 1, ⟨db, w, true, none, false⟩, ?_, rfl⟩
      rw [run_execute_none, hins]

/-- `trim` returns when its parameters fit. -/
theorem run_trim_ok {keep : Int} (hb : params [.text n] = none) (hk : params [.int keep] = none)
    (db : Db) :
    ∃ k d, d = Call.after [] db (.trim n keep) ∧
      (RevisionStore.trim n keep).run ⟨db, db, false, none, false⟩ =
        (.ok k, ⟨d, d, false, none, false⟩) := by
  have hall : params [.text n, .text n, .int keep, .text n] = none := by
    rw [params_eq_none] at hb hk ⊢
    intro p hp
    simp only [List.mem_cons, List.not_mem_nil, or_false] at hp
    rcases hp with rfl | rfl | rfl | rfl
    · exact hb _ (by simp)
    · exact hb _ (by simp)
    · exact hk _ (by simp)
    · exact hb _ (by simp)
  rw [RevisionStore.trim, hall]
  exact ⟨_, _, rfl, run_guarded_eq_ok.mpr rfl⟩

/-- A build whose statements fit returns, when the node is registered. -/
theorem build_returns {now : Str} {keep : Int} {db : Db} (hb : params [.text n] = none)
    (hn : n ∈ db.nodes) (hfits : db.BuildFits digest now n keep) :
    ∃ st db', (buildDesiredState digest now n true keep).run db = (.ok st, db') := by
  have hlive : (onConnection (readLive n)).run db = (.ok (db.liveContent n), db) :=
    eval_readLive db hb
  have hrecord : ∃ built pin db', eval (recordBuild n (computeRevision digest (db.liveContent n) now)
      now (db.liveContent n) keep) db = (.ok (built, pin), db') := by
    simp only [eval_eq_ok]
    rw [recordBuild, Prog.run_bind_ok (run_reusableSnapshot_eq hb ..)]
    cases db.reusable n (computeRevision digest (db.liveContent n) now) now with
    | some snapshot =>
        refine ⟨snapshot, db.getPin n, db, ⟨db, db, false, none, false⟩, ?_, rfl⟩
        dsimp only
        rw [Prog.run_bind_ok (Prog.run_pure ..), Prog.run_bind_ok (run_getPin hb ..)]
        rfl
    | none =>
        obtain ⟨r, d, hr⟩ := run_record_ok hfits.1 hn
        obtain ⟨k, d', -, ht⟩ := run_trim_ok hb hfits.2 d
        refine ⟨(computeRevision digest (db.liveContent n) now, now), d'.getPin n, d',
          ⟨d', d', false, none, false⟩, ?_, rfl⟩
        have hsnap : (recordSnapshot n (computeRevision digest (db.liveContent n) now) now
            (db.liveContent n) keep).run ⟨db, db, false, none, false⟩ =
            (.ok (computeRevision digest (db.liveContent n) now, now),
              ⟨d', d', false, none, false⟩) := by
          rw [recordSnapshot, Prog.run_bind_ok hr, Prog.run_bind_ok ht]
          rfl
        dsimp only
        rw [Prog.run_bind_ok hsnap, Prog.run_bind_ok (run_getPin hb ..)]
        rfl
  obtain ⟨built, pin, db', hbuilt⟩ := hrecord
  have hbuilt' : (onConnection (recordBuild n (computeRevision digest (db.liveContent n) now)
      now (db.liveContent n) keep)).run db = (.ok (built, pin), db') := hbuilt
  rw [buildDesiredState, Prog.run_bind_ok hlive]
  simp only [if_true]
  rw [Prog.run_bind_ok hbuilt']
  cases pin with
  | some p => exact ⟨p.payload, db', rfl⟩
  | none => exact ⟨_, db', rfl⟩

/-! ## the rows a trim leaves -/

/-- How many revisions of the same node are newer. -/
def Db.newerThan (db : Db) (r : ConfigRevision) : Nat :=
  db.configRevisions.countP fun s => s.nodeId == r.nodeId && decide (r.id < s.id)

/-- The newest snapshot comes first. -/
theorem revisionsDesc_decreasing {db : Db} (h : db.RevisionsWF) (n : Str) :
    (db.revisionsDesc n).Pairwise fun a b => b.id < a.id := by
  have hsorted := List.pairwise_insertionSort (fun a b : ConfigRevision => b.id ≤ a.id)
    (db.configRevisions.filter fun r => r.nodeId == n)
  have hnodup : ((db.revisionsDesc n).map ConfigRevision.id).Nodup := by
    have hperm := (List.perm_insertionSort (fun a b : ConfigRevision => b.id ≤ a.id)
      (db.configRevisions.filter fun r => r.nodeId == n)).map ConfigRevision.id
    rw [Db.revisionsDesc, hperm.nodup_iff]
    have hsub : (db.configRevisions.filter fun r => r.nodeId == n).Sublist db.configRevisions :=
      List.filter_sublist
    exact (h.increasing.sublist (hsub.map _)).imp fun hlt => Nat.ne_of_lt hlt
  rw [List.Nodup, List.pairwise_map] at hnodup
  refine (List.Pairwise.and hsorted hnodup).imp fun hab => ?_
  obtain ⟨hle, hne⟩ := hab
  omega

/-- A row is among the newest `k` of its node when fewer than `k` are newer. -/
theorem mem_limit_iff {db : Db} (h : db.RevisionsWF) {r : ConfigRevision}
    (hr : r ∈ db.configRevisions) {keep : Int} (hk : 0 ≤ keep) :
    r.id ∈ (limitRows keep (db.revisionsDesc r.nodeId)).map ConfigRevision.id ↔
      (db.newerThan r : Int) < keep := by
  have hperm := List.perm_insertionSort (fun a b : ConfigRevision => b.id ≤ a.id)
    (db.configRevisions.filter fun s => s.nodeId == r.nodeId)
  have hmem : r ∈ db.revisionsDesc r.nodeId := by
    rw [Db.revisionsDesc, hperm.mem_iff]
    exact List.mem_filter.mpr ⟨hr, by simp⟩
  have hcount : (db.revisionsDesc r.nodeId).countP (fun s => decide (r.id < s.id)) =
      db.newerThan r := by
    rw [Db.revisionsDesc, hperm.countP_eq, List.countP_filter, Db.newerThan]
    exact List.countP_congr fun s _ => by simp [and_comm]
  have hdec := revisionsDesc_decreasing h r.nodeId
  have htake : r.id ∈ ((db.revisionsDesc r.nodeId).take keep.toNat).map ConfigRevision.id ↔
      r ∈ (db.revisionsDesc r.nodeId).take keep.toNat := by
    refine ⟨fun hid => ?_, fun hin => List.mem_map_of_mem hin⟩
    obtain ⟨s, hs, hsr⟩ := List.mem_map.mp hid
    -- ids are unique
    by_cases heq : s = r
    · exact heq ▸ hs
    · have hne : (db.revisionsDesc r.nodeId).Pairwise fun a b => a.id ≠ b.id :=
        hdec.imp fun hlt => (Nat.ne_of_lt hlt).symm
      have : Std.Symm fun a b : ConfigRevision => a.id ≠ b.id := ⟨fun _ _ hab => hab.symm⟩
      exact absurd hsr (hne.forall (List.mem_of_mem_take hs) hmem heq)
  rw [limitRows, if_neg (by omega), htake, Rows.mem_take_iff_countP hdec hmem, hcount]
  omega

/-- The rows a trim leaves. -/
theorem mem_deleteWhere_trimmed {db : Db} (h : db.RollbackInv) {keep : Int} (hk : 0 ≤ keep)
    (r : ConfigRevision) :
    r ∈ Rows.deleteWhere (db.trimmed n keep) db.configRevisions ↔ r ∈ db.configRevisions ∧
      (r.nodeId = n → (db.newerThan r : Int) < keep ∨
        ∃ p, db.getPinRow n = some p ∧ p.revision = r.revision) := by
  have hpin : r.revision ∈
      (db.desiredPins.filter fun p => p.nodeId == n).map DesiredPin.revision ↔
        ∃ p, db.getPinRow n = some p ∧ p.revision = r.revision := by
    simp only [List.mem_map, List.mem_filter, beq_iff_eq]
    constructor
    · rintro ⟨p, ⟨hp, rfl⟩, hrev⟩
      exact ⟨p, h.pins.getPinRow_eq hp, hrev⟩
    · rintro ⟨p, hp, hrev⟩
      exact ⟨p, getPinRow_mem hp, hrev⟩
  rw [Rows.deleteWhere, List.mem_filter]
  refine and_congr_right fun hr => ?_
  rw [Db.trimmed]
  by_cases hn : r.nodeId = n
  · subst hn
    rw [← hpin, ← mem_limit_iff h.wf.revisions hr hk]
    simp only [beq_self_eq_true, Bool.true_and, Bool.not_and, Bool.not_not, Bool.or_eq_true,
      List.contains_iff_mem, true_imp_iff]
  · simp [hn]

/-- **Trim**: of the node, the newest `keep` revisions stay and the one its pin
names; of other nodes, all. -/
theorem mem_trim_iff {db db' : Db} (h : db.RollbackInv) {keep : Int} (hk : 0 ≤ keep)
    {deleted : Nat} (htrim : eval (RevisionStore.trim n keep) db = (.ok deleted, db'))
    (r : ConfigRevision) :
    r ∈ db'.configRevisions ↔ r ∈ db.configRevisions ∧
      (r.nodeId = n → (db.newerThan r : Int) < keep ∨
        ∃ p, db.getPinRow n = some p ∧ p.revision = r.revision) := by
  have hafter : db' = Call.after [] db (.trim n keep) := eval_trim htrim
  have hrows : db'.configRevisions =
      Rows.deleteWhere (db.trimmed n keep) db.configRevisions := by
    rw [hafter]
    rfl
  rw [hrows]
  exact mem_deleteWhere_trimmed h hk r

variable (digest)

/-- **Rollback is stable and trim is exact**, in every state that writes and
builds lead to. -/
theorem rollback_stable {db : Db} (hreach : Machine.Reachable (revisionStep digest) Db.empty db) :
    (∀ p ∈ db.desiredPins,
      ∃ r ∈ db.configRevisions, r.nodeId = p.nodeId ∧ r.revision = p.revision) ∧
    (∀ now n r target db1, eval (rollbackTo now n r) db = (.ok target, db1) →
      target ∈ db.configRevisions ∧ target.nodeId = n ∧ target.revision = r ∧
      ∀ as db2, (∀ a ∈ as, RevisionAction.repins n a = false) →
        Machine.exec (revisionStep digest) db1 as = some db2 →
        (∀ now keep,
          (∀ st db3, (buildDesiredState digest now n true keep).run db2 = (.ok st, db3) →
            st = target.payload) ∧
          (db2.BuildFits digest now n keep →
            ∃ db3, (buildDesiredState digest now n true keep).run db2 =
              (.ok target.payload, db3))) ∧
        eval (computeDesiredFingerprint digest n) db2 =
          (.ok ⟨n, digest target.payload.toDesiredContent, some r⟩, db2)) ∧
    (∀ n keep deleted db1, 0 ≤ keep →
      eval (RevisionStore.trim n keep) db = (.ok deleted, db1) →
      ∀ r, r ∈ db1.configRevisions ↔ r ∈ db.configRevisions ∧
        (r.nodeId = n → (db.newerThan r : Int) < keep ∨
          ∃ p, db.getPinRow n = some p ∧ p.revision = r.revision)) := by
  have hinv : db.RollbackInv := rollbackInv_of_reachable hreach
  refine ⟨fun p hp => hinv.pin_recorded hp, fun now n r target db1 hroll => ?_,
    fun n keep deleted db1 hk htrim r => mem_trim_iff hinv hk htrim r⟩
  obtain ⟨hb, hfound, hafter, hheld⟩ := held_of_rollbackTo hroll
  have his := List.find?_some hfound
  simp only [ConfigRevision.is, Bool.and_eq_true, beq_iff_eq] at his
  refine ⟨List.mem_of_find?_eq_some hfound, his.1, his.2, fun as db2 has hexec => ?_⟩
  have hinv1 : db1.RollbackInv := by
    have hstep : hubStep db ⟨.call (.pin n r), now, none, false⟩ = some db1 := by
      obtain ⟨c', hrun, hc⟩ := eval_eq_ok.mp hroll
      obtain ⟨-, hrun⟩ := bind_queryOr hrun
      simp only [hfound] at hrun
      obtain ⟨u, c1, hpin, hrun⟩ := Prog.run_bind_eq_ok.mp hrun
      rw [Prog.run_pure, Prod.mk.injEq] at hrun
      have hpin' : ((Call.pin n r).run now).run ⟨db, db, false, none, false⟩ = (.ok u, c1) := hpin
      simp only [hubStep, Write.run, Conn.fresh, hpin', Option.some.injEq]
      rw [hrun.2, hc]
    exact ⟨wf_hubStep hinv.wf hstep, pinsWF_hubStep hinv.pins hstep⟩
  have halong : Machine.Along (revisionStep digest) (fun _ a => RevisionAction.repins n a = false)
      db1 as := Machine.along_of_forall _ has
  have hheld2 : db2.Held n target :=
    Machine.exec_invariant _ (fun _ _ _ => held_step) hheld halong hexec
  have hinv2 : db2.RollbackInv :=
    Machine.reachable_invariant _ (fun _ _ _ => rollbackInv_step) hinv1 ⟨as, hexec⟩
  have hnode : n ∈ db2.nodes := by
    have hmem := hinv2.pins.registered target (List.mem_of_find?_eq_some hheld2.recorded)
    rw [his.1] at hmem
    exact hmem
  have hpayload : ∀ now keep st db3,
      (buildDesiredState digest now n true keep).run db2 = (.ok st, db3) →
        st = target.payload := by
    intro now keep st db3 hbuild
    have hheld3 := @maintains_held_build digest n target n now true keep db2 hheld2
    rw [hbuild] at hheld3
    obtain ⟨-, built, -, hst⟩ := build_ok hbuild
    rw [hst, hheld3.getPin_eq]
  refine ⟨fun now keep => ⟨hpayload now keep, fun hfits => ?_⟩, ?_⟩
  · obtain ⟨st, db3, hbuild⟩ := build_returns hb hnode hfits
    exact ⟨db3, by rw [hbuild, hpayload now keep st db3 hbuild]⟩
  · rw [eval_fingerprint db2 hb digest, Db.desiredContent, hheld2.getPin_eq]
    dsimp only [Option.map_some]
    rw [his.2]

end Runs

/-! ### a node that is rolled back -/

/-- A node is added and built, gets an address and is built again. -/
def twoRevisions : List RevisionAction :=
  [.write ⟨.call (.addNode (lit "a") (lit "alpha")), lit "t0", none, false⟩,
    .build (lit "a") (lit "t1") true 50,
    .write ⟨.call (.setAddresses (lit "a") .unset (.set (some (lit "fd00::1"))) .unset), lit "t2",
      none, false⟩,
    .build (lit "a") (lit "t3") true 50]

def revisionRun (as : List RevisionAction) : Db :=
  (Machine.exec (revisionStep sampleDigest) Db.empty as).getD Db.empty

/-- The first of its two snapshots. -/
def firstSnapshot : ConfigRevision :=
  ⟨1, lit "a", lit "t1-7efbcf6b", lit "t1",
    { nodeId := lit "a", bgpPeers := [], ibgpPeers := [], node := {},
      revision := lit "t1-7efbcf6b", generatedAt := lit "t1" }⟩

theorem rollback_first :
    ∃ db1, eval (rollbackTo (lit "t4") (lit "a") (lit "t1-7efbcf6b")) (revisionRun twoRevisions) =
      (.ok firstSnapshot, db1) :=
  ⟨_, Prod.ext rfl rfl⟩

theorem rollback_stable_sample :
    Machine.Reachable (revisionStep sampleDigest) Db.empty (revisionRun twoRevisions) ∧
    ∃ db1, eval (rollbackTo (lit "t4") (lit "a") (lit "t1-7efbcf6b")) (revisionRun twoRevisions) =
        (.ok firstSnapshot, db1) ∧
      ∀ as db2, (∀ a ∈ as, RevisionAction.repins (lit "a") a = false) →
        Machine.exec (revisionStep sampleDigest) db1 as = some db2 →
        eval (computeDesiredFingerprint sampleDigest (lit "a")) db2 =
          (.ok ⟨lit "a", lit "7efbcf6b", some (lit "t1-7efbcf6b")⟩, db2) := by
  have hreach : Machine.Reachable (revisionStep sampleDigest) Db.empty
      (revisionRun twoRevisions) := ⟨twoRevisions, rfl⟩
  obtain ⟨db1, hroll⟩ := rollback_first
  obtain ⟨-, hstable, -⟩ := rollback_stable sampleDigest hreach
  obtain ⟨-, -, -, hruns⟩ := hstable _ _ _ _ _ hroll
  exact ⟨hreach, db1, hroll, fun as db2 has hexec => (hruns as db2 has hexec).2⟩

end Dn42Ctl
