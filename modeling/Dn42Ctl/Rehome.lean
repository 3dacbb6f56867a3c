import Dn42Ctl.Propagation

/-!
# Rehome

`adopt_self_partition` moves the peers of one partition onto the hub's own
node.

* `Db.Rehomable` — what the refusals leave: when a run moves the rows;
* `Rehomed` — the rows are moved and nothing else is changed;
* `AnnouncesChanges` — every managed node whose content changed is told.

The move changes the content of two nodes and announces one of them.
-/

namespace Dn42Ctl

open Text Txn

/-! ## when it moves -/

/-- The row `get_self` returns. -/
def Db.selfNode (db : Db) : Option ManagedNode :=
  ((db.managedNodes.filter fun n => n.isSelf).insertionSort fun a b =>
    b.updatedAt < a.updatedAt ∨ b.updatedAt = a.updatedAt ∧ b.nodeId ≤ a.nodeId).head?

/-- No refusal applies, and the two `UPDATE`s go through. -/
structure Db.Rehomable (source target : Str) (db : Db) : Prop where
  self : db.selfNode.map ManagedNode.nodeId = some target
  apart : source ≠ target
  bound : params [.text source] = none
  targetBound : params [.text target] = none
  rows : db.bgpRowsOf source ≠ [] ∨ db.ibgpRowsOf source ≠ []
  bgpFree : db.bgpRowsOf target = []
  ibgpFree : db.ibgpRowsOf target = []
  known : target ∈ db.nodes

def Db.movedBgp (source target : Str) (db : Db) : List BgpRow :=
  Rows.updateWhere (fun r => r.nodeId == source) (fun r => { r with nodeId := target }) db.bgpPeers

def Db.movedIbgp (source target : Str) (db : Db) : List IbgpRow :=
  Rows.updateWhere (fun r => r.nodeId == source) (fun r => { r with nodeId := target }) db.ibgpPeers

/-- The tables after the move. -/
def Db.moveRows (source target : Str) (db : Db) : Db :=
  { db with bgpPeers := db.movedBgp source target, ibgpPeers := db.movedIbgp source target }

theorem listBgpPeers_eq_nil {n : Str} {db : Db} : db.listBgpPeers n = [] ↔ db.bgpRowsOf n = [] := by
  rw [Db.listBgpPeers, ← List.length_eq_zero_iff, List.length_insertionSort,
    List.length_eq_zero_iff]

theorem listIbgpPeers_eq_nil {n : Str} {db : Db} :
    db.listIbgpPeers n = [] ↔ db.ibgpRowsOf n = [] := by
  rw [Db.listIbgpPeers, ← List.length_eq_zero_iff, List.length_insertionSort,
    List.length_eq_zero_iff]

theorem moveBgpRows_free {source target : Str} {db : Db} (hfree : db.bgpRowsOf target = []) :
    db.moveBgpRows source target =
      if db.bgpRowsOf source ≠ [] ∧ target ∉ db.nodes then .error .integrity
      else .ok ((), { db with bgpPeers := db.movedBgp source target }) := by
  have hclash : ((db.bgpRowsOf source).any fun r => (db.bgpRowsOf target).any fun q =>
      q.peerAsn == r.peerAsn || q.ifname == r.ifname) = false := by
    simp [hfree]
  rw [Db.moveBgpRows, hclash, Db.movedBgp]
  simp

theorem moveIbgpRows_free {source target : Str} {db : Db} (hfree : db.ibgpRowsOf target = []) :
    db.moveIbgpRows source target =
      if db.ibgpRowsOf source ≠ [] ∧ target ∉ db.nodes then .error .integrity
      else .ok ((), { db with ibgpPeers := db.movedIbgp source target }) := by
  have hclash : ((db.ibgpRowsOf source).any fun r => (db.ibgpRowsOf target).any fun q =>
      q.name == r.name || q.ifname == r.ifname) = false := by
    simp [hfree]
  rw [Db.moveIbgpRows, hclash, Db.movedIbgp]
  simp

/-- The two statements go through together exactly when `nodes` has the target. -/
theorem moveRows_ok {source target : Str} {db w1 w2 : Db} (hbgp : db.bgpRowsOf target = [])
    (hibgp : db.ibgpRowsOf target = [])
    (hrows : db.bgpRowsOf source ≠ [] ∨ db.ibgpRowsOf source ≠ [])
    (h1 : db.moveBgpRows source target = .ok ((), w1))
    (h2 : w1.moveIbgpRows source target = .ok ((), w2)) :
    target ∈ db.nodes ∧ w2 = db.moveRows source target := by
  rw [moveBgpRows_free hbgp] at h1
  split at h1
  · cases h1
  · rename_i hmoved
    cases h1
    have hfree : Db.ibgpRowsOf target { db with bgpPeers := db.movedBgp source target } = [] :=
      hibgp
    rw [moveIbgpRows_free hfree] at h2
    split at h2
    · cases h2
    · rename_i himoved
      cases h2
      refine ⟨?_, rfl⟩
      by_contra hunknown
      rcases hrows with hrows | hrows
      · exact hmoved ⟨hrows, hunknown⟩
      · exact himoved ⟨hrows, hunknown⟩

/-! ## what a run does -/

section Run

variable {now cfg target : Str} {frm : Option Str} {dryRun : Bool} {db db' : Db}
  {res : AdoptSelfResult}

theorem atomic_adoptSelf (now cfg : Str) (frm : Option Str) (dryRun : Bool) :
    Atomic false (adoptSelfPartition now cfg frm dryRun) := by
  unfold adoptSelfPartition
  apply Atomic.bind_read (.queryOr ..)
  intro selfNode
  cases selfNode with
  | none => exact .fail _
  | some node =>
      dsimp only
      split
      · exact .fail _
      · apply Atomic.bind_read (.queryOr ..)
        intro bgpRows
        apply Atomic.bind_read (.queryOr ..)
        intro ibgpRows
        split
        · exact .fail _
        · apply Atomic.bind_read (.queryOr ..)
          intro targetBgp
          apply Atomic.bind_read (.queryOr ..)
          intro targetIbgp
          split
          · exact .fail _
          · cases dryRun with
            | true => exact .pure _
            | false =>
                have hmove : Committing (Txn.execute none (Db.moveBgpRows
                    (orDefault frm cfg) node.nodeId) >>= fun _ =>
                    Txn.execute none (Db.moveIbgpRows (orDefault frm cfg) node.nodeId) >>= fun _ =>
                    emitSyncEvent now node.nodeId >>= fun _ => commit : DbTx Unit) :=
                  .bind (.execute ..) fun _ => .bind (.execute ..) fun _ =>
                    .bind (body_emitSyncEvent ..) fun _ => .commit
                exact (Atomic.guarded hmove).map _

/-- A run that returns was not refused, and did what it says. -/
theorem adoptSelf_returns (h : eval (adoptSelfPartition now cfg frm dryRun) db = (.ok res, db')) :
    dryRun = true ∧ db' = db ∨
      dryRun = false ∧ ∃ target, db.Rehomable (orDefault frm cfg) target ∧
        db' = (db.moveRows (orDefault frm cfg) target).emit now target .desired := by
  obtain ⟨c', hrun, rfl⟩ := eval_eq_ok.mp h
  rw [adoptSelfPartition] at hrun
  obtain ⟨-, hrun⟩ := bind_queryOr hrun
  dsimp only at hrun
  cases hself : db.selfNode with
  | none =>
      unfold Db.selfNode at hself
      rw [hself] at hrun
      cases hrun
  | some node =>
      have hfirst := hself
      unfold Db.selfNode at hfirst
      rw [hfirst] at hrun
      dsimp only at hrun
      split at hrun
      · cases hrun
      · rename_i hapart
        obtain ⟨hbound, hrun⟩ := bind_queryOr hrun
        obtain ⟨-, hrun⟩ := bind_queryOr hrun
        split at hrun
        · cases hrun
        · rename_i hrows
          obtain ⟨htargetBound, hrun⟩ := bind_queryOr hrun
          obtain ⟨-, hrun⟩ := bind_queryOr hrun
          split at hrun
          · cases hrun
          · rename_i hfree
            simp only [Bool.or_eq_true, Bool.not_eq_true', not_or, Bool.not_eq_false,
              List.isEmpty_iff, listBgpPeers_eq_nil, listIbgpPeers_eq_nil] at hfree
            simp only [Bool.and_eq_true, List.isEmpty_iff, listBgpPeers_eq_nil,
              listIbgpPeers_eq_nil, not_and_or] at hrows
            cases dryRun with
            | true =>
                cases hrun
                exact .inl ⟨rfl, rfl⟩
            | false =>
                obtain ⟨u, c1, hmove, hend⟩ := Prog.run_bind_eq_ok.mp hrun
                obtain ⟨u1, w1, -, hw1, hmove⟩ := bind_execute (run_guarded_eq_ok.mp hmove)
                obtain ⟨u2, w2, -, hw2, hmove⟩ := bind_execute hmove
                obtain ⟨hknown, rfl⟩ := moveRows_ok hfree.1 hfree.2 hrows hw1 hw2
                rw [Prog.run_pure, Prod.mk.injEq] at hend
                rw [← hend.2, committed_of_commit (bind_emit hmove)]
                refine .inr ⟨rfl, node.nodeId, ?_, rfl⟩
                exact ⟨by rw [hself]; rfl, hapart, hbound, htargetBound, hrows, hfree.1, hfree.2,
                  hknown⟩

/-- Where nothing refuses, the rows move and the target is told. -/
theorem run_move_of_rehomable {source : Str} (now : Str) (h : db.Rehomable source target) :
    (guarded (fun _ => dn42CtlError [.text (lit "搬迁 peer 行失败")]) (do
      Txn.execute none (Db.moveBgpRows source target)
      Txn.execute none (Db.moveIbgpRows source target)
      emitSyncEvent now target
      commit) : DbTx Unit).run ⟨db, db, false, none, false⟩ =
      (.ok (), Conn.fresh ((db.moveRows source target).emit now target .desired) none false) := by
  have hbgp : db.moveBgpRows source target =
      .ok ((), { db with bgpPeers := db.movedBgp source target }) := by
    rw [moveBgpRows_free h.bgpFree, if_neg fun hm => hm.2 h.known]
  have hibgp : Db.moveIbgpRows source target { db with bgpPeers := db.movedBgp source target } =
      .ok ((), db.moveRows source target) := by
    have hfree : Db.ibgpRowsOf target { db with bgpPeers := db.movedBgp source target } = [] :=
      h.ibgpFree
    rw [moveIbgpRows_free hfree, if_neg fun hm => hm.2 h.known]
    rfl
  have h1 := run_execute_none (ε := PyError) (Db.moveBgpRows source target) db db false false
  rw [hbgp] at h1
  have h2 := run_execute_none (ε := PyError) (Db.moveIbgpRows source target)
    db { db with bgpPeers := db.movedBgp source target } true false
  rw [hibgp] at h2
  have h3 : (emitSyncEvent now target).run ⟨db, db.moveRows source target, true, none, false⟩ =
      (.ok (), ⟨db, (db.moveRows source target).emit now target .desired, true, none, false⟩) :=
    run_emitSyncEvent_eq_ok.mpr ⟨h.targetBound, rfl⟩
  rw [run_guarded_eq_ok, Prog.run_bind_ok h1, Prog.run_bind_ok h2]
  exact (Prog.run_bind_ok h3).trans rfl

/-- Where nothing refuses, a wet run returns. -/
theorem adoptSelf_of_rehomable (now : Str) (h : db.Rehomable (orDefault frm cfg) target) :
    ∃ res, eval (adoptSelfPartition now cfg frm false) db =
      (.ok res, (db.moveRows (orDefault frm cfg) target).emit now target .desired) := by
  obtain ⟨node, hself, rfl⟩ := Option.map_eq_some_iff.mp h.self
  have hsome : ((db.listBgpPeers (orDefault frm cfg)).isEmpty &&
      (db.listIbgpPeers (orDefault frm cfg)).isEmpty) = false := by
    rw [← Bool.not_eq_true, Bool.and_eq_true, List.isEmpty_iff, List.isEmpty_iff,
      listBgpPeers_eq_nil, listIbgpPeers_eq_nil, not_and_or]
    exact h.rows
  have hfree : (!(db.listBgpPeers node.nodeId).isEmpty || !(db.listIbgpPeers node.nodeId).isEmpty) =
      false := by
    simp [listBgpPeers_eq_nil.mpr h.bgpFree, listIbgpPeers_eq_nil.mpr h.ibgpFree]
  refine ⟨⟨orDefault frm cfg, node.nodeId, (db.listBgpPeers (orDefault frm cfg)).length,
    (db.listIbgpPeers (orDefault frm cfg)).length, false⟩, eval_eq_ok.mpr ⟨Conn.fresh
      ((db.moveRows (orDefault frm cfg) node.nodeId).emit now node.nodeId .desired) none false,
      ?_, rfl⟩⟩
  have hgetSelf : ManagedNodeStore.getSelf.run ⟨db, db, false, none, false⟩ =
      (.ok (some node), ⟨db, db, false, none, false⟩) := by
    rw [← hself]
    rfl
  rw [adoptSelfPartition, Prog.run_bind_ok hgetSelf]
  dsimp only
  rw [if_neg h.apart, Database.listBgpPeers, Database.listIbgpPeers, h.bound,
    Prog.run_bind_ok (run_queryOr_none ..), Prog.run_bind_ok (run_queryOr_none ..), hsome]
  simp only [Bool.false_eq_true, if_false]
  rw [Database.listBgpPeers, Database.listIbgpPeers, h.targetBound,
    Prog.run_bind_ok (run_queryOr_none ..), Prog.run_bind_ok (run_queryOr_none ..), hfree]
  simp only [Bool.false_eq_true, if_false]
  exact (Prog.run_bind_ok (run_move_of_rehomable now h)).trans rfl

end Run

/-! ## what is moved -/

/-- The rows of `source` are those of `target` now; nothing else is changed but
the queue of events. -/
structure Rehomed (source target : Str) (db db' : Db) : Prop where
  bgpMoved : db'.bgpRowsOf target = (db.bgpRowsOf source).map fun r => { r with nodeId := target }
  ibgpMoved :
    db'.ibgpRowsOf target = (db.ibgpRowsOf source).map fun r => { r with nodeId := target }
  bgpGone : db'.bgpRowsOf source = []
  ibgpGone : db'.ibgpRowsOf source = []
  bgpOthers : ∀ n, n ≠ source → n ≠ target → db'.bgpRowsOf n = db.bgpRowsOf n
  ibgpOthers : ∀ n, n ≠ source → n ≠ target → db'.ibgpRowsOf n = db.ibgpRowsOf n
  tables : db' = { db with
    bgpPeers := db'.bgpPeers, ibgpPeers := db'.ibgpPeers, syncEvents := db'.syncEvents,
    syncSeq := db'.syncSeq, syncLog := db'.syncLog }

theorem rehomed_of_rehomable {source target : Str} {db : Db} (h : db.Rehomable source target)
    (now : Str) :
    Rehomed source target db ((db.moveRows source target).emit now target .desired) where
  bgpMoved := Rows.filter_updateWhere_into (fun r _ => by simp) h.bgpFree
  ibgpMoved := Rows.filter_updateWhere_into (fun r _ => by simp) h.ibgpFree
  bgpGone := Rows.filter_updateWhere_out fun r => by simp [h.apart.symm]
  ibgpGone := Rows.filter_updateWhere_out fun r => by simp [h.apart.symm]
  bgpOthers n hsource htarget := by
    apply Rows.filter_updateWhere
    intro r _ hr
    have hr : r.nodeId = source := by simpa using hr
    simp [hr, hsource.symm, htarget.symm]
  ibgpOthers n hsource htarget := by
    apply Rows.filter_updateWhere
    intro r _ hr
    have hr : r.nodeId = source := by simpa using hr
    simp [hr, hsource.symm, htarget.symm]
  tables := rfl

/-! ## whom it tells -/

/-- Every managed node whose content is another one has a `desired` event that
the transaction inserted. -/
def AnnouncesChanges (db db' : Db) : Prop :=
  ∀ n, (db.getNode n).isSome → db'.desiredContent n ≠ db.desiredContent n →
    ∃ e ∈ db'.syncEvents, e ∈ db'.syncLog.drop db.syncLog.length ∧ e.nodeId = n ∧
      e.kind = .desired

section Told

variable {source target : Str} {db : Db}

/-- Content that is neither of the two nodes' stays. -/
theorem desiredContent_rehomed {db' : Db} {n : Str} (h : Rehomed source target db db')
    (hsource : n ≠ source) (htarget : n ≠ target) :
    db'.desiredContent n = db.desiredContent n := by
  apply desiredContent_of_parts
  apply desiredParts_eq (h.bgpOthers n hsource htarget)
  · rw [Db.listIbgpPeers, h.ibgpOthers n hsource htarget, Db.listIbgpPeers]
  · rw [h.tables]
    rfl
  · rw [h.tables]
    rfl

theorem getPin_rehomed {db' : Db} (h : Rehomed source target db db') (n : Str) :
    db'.getPin n = db.getPin n := by
  rw [h.tables]
  rfl

/-- The source's content is emptied, unless a pin stands for it. -/
theorem desiredContent_source {db' : Db} (h : Rehomed source target db db')
    (hrows : db.bgpRowsOf source ≠ [] ∨ db.ibgpRowsOf source ≠ []) :
    db'.desiredContent source = db.desiredContent source ↔ (db.getPin source).isSome := by
  rw [Db.desiredContent, getPin_rehomed h, Db.desiredContent]
  cases db.getPin source with
  | some pin => simp
  | none =>
      have hbgp : db'.listBgpPeers source = [] := listBgpPeers_eq_nil.mpr h.bgpGone
      have hibgp : db'.listIbgpPeers source = [] := listIbgpPeers_eq_nil.mpr h.ibgpGone
      simp only [Option.isSome_none, Bool.false_eq_true, iff_false, Db.liveContent, hbgp, hibgp]
      intro hsame
      simp only [DesiredContent.mk.injEq, List.map_nil, true_and] at hsame
      rcases hrows with hrows | hrows
      · exact hrows (listBgpPeers_eq_nil.mp (List.map_eq_nil_iff.mp hsame.1.symm))
      · exact hrows (listIbgpPeers_eq_nil.mp (List.map_eq_nil_iff.mp hsame.2.1.symm))

/-- The event of an announcement is in the queue, and is all that is new. -/
theorem mem_emit (now n : Str) (db : Db) :
    db.nextEvent now n .desired ∈ (db.emit now n .desired).syncEvents ∧
      (db.emit now n .desired).syncLog.drop db.syncLog.length =
        [db.nextEvent now n .desired] := by
  constructor
  · simp only [Db.emit, Db.emitted]
    split
    · exact List.mem_filter.mpr ⟨by simp, by simp [Db.nextEvent, syncEventsKeep]⟩
    · simp
  · simp [Db.emit]

/-- The move tells all it has to unless it empties another managed node. -/
theorem announcesChanges_iff (h : db.Rehomable source target) (now : Str) :
    AnnouncesChanges db ((db.moveRows source target).emit now target .desired) ↔
      ((db.getNode source).isSome → (db.getPin source).isSome) := by
  have hrehomed := rehomed_of_rehomable h now
  obtain ⟨hmem, hnew⟩ := mem_emit now target (db.moveRows source target)
  have hlog : (db.moveRows source target).syncLog = db.syncLog := rfl
  rw [hlog] at hnew
  constructor
  · intro htold hsome
    rw [← desiredContent_source hrehomed h.rows]
    by_contra hchanged
    obtain ⟨e, -, he, hid, -⟩ := htold source hsome hchanged
    rw [hnew, List.mem_singleton] at he
    rw [he] at hid
    exact h.apart hid.symm
  · intro hpinned n hsome hchanged
    by_cases hsource : n = source
    · subst hsource
      exact absurd ((desiredContent_source hrehomed h.rows).mpr (hpinned hsome)) hchanged
    · by_cases htarget : n = target
      · subst htarget
        exact ⟨_, hmem, by rw [hnew]; exact List.mem_singleton_self _, rfl, rfl⟩
      · exact absurd (desiredContent_rehomed hrehomed hsource htarget) hchanged

end Told

/-! ## re-homing conserves the partition -/

/-- A run that raises or is dry changes nothing; a wet run that returns moves
the rows of `source` and tells every managed node whose content changed. -/
def ConservesPartition (source : Str) (dryRun : Bool) (db : Db)
    (outcome : Except (Exc PyError) AdoptSelfResult × Db) : Prop :=
  match outcome.1 with
  | .error _ => outcome.2 = db
  | .ok _ =>
      if dryRun then outcome.2 = db
      else ∃ target, db.selfNode.map ManagedNode.nodeId = some target ∧
        Rehomed source target db outcome.2 ∧ AnnouncesChanges db outcome.2

/-- The run moves the rows of a managed node that no pin stands for. -/
def Db.EmptiesNode (source : Str) (db : Db) : Prop :=
  (∃ target, db.Rehomable source target) ∧ (db.getNode source).isSome ∧ db.getPin source = none

/-- Such a run does not tell the node. -/
theorem not_conserves_of_empties (now : Str) {cfg : Str} {frm : Option Str} {db : Db}
    (h : db.EmptiesNode (orDefault frm cfg)) :
    ¬ ConservesPartition (orDefault frm cfg) false db
      (eval (adoptSelfPartition now cfg frm false) db) := by
  obtain ⟨⟨target, hrehomable⟩, hsome, hpin⟩ := h
  obtain ⟨res, heval⟩ := adoptSelf_of_rehomable now hrehomable
  intro hkept
  rw [heval, ConservesPartition] at hkept
  obtain ⟨-, -, -, htold⟩ := hkept
  have hpinned := (announcesChanges_iff hrehomable now).mp htold hsome
  rw [hpin] at hpinned
  cases hpinned

/-- Without a failing statement, a wet run that empties a managed node is what does
not conserve the partition. -/
theorem conserves_eval_iff (now cfg : Str) (frm : Option Str) (dryRun : Bool) (db : Db) :
    ConservesPartition (orDefault frm cfg) dryRun db
        (eval (adoptSelfPartition now cfg frm dryRun) db) ↔
      ¬ (dryRun = false ∧ db.EmptiesNode (orDefault frm cfg)) := by
  constructor
  · rintro hkept ⟨rfl, hempties⟩
    exact not_conserves_of_empties now hempties hkept
  · intro hcond
    cases heval : eval (adoptSelfPartition now cfg frm dryRun) db with
    | mk outcome db' =>
        cases outcome with
        | error e => exact (atomic_adoptSelf now cfg frm dryRun).eval_error heval
        | ok res =>
            rcases adoptSelf_returns heval with ⟨rfl, rfl⟩ | ⟨rfl, target, hrehomable, rfl⟩
            · exact rfl
            · have htold : (db.getNode (orDefault frm cfg)).isSome →
                  (db.getPin (orDefault frm cfg)).isSome := by
                intro hsome
                rw [Option.isSome_iff_ne_none]
                exact fun hnone => hcond ⟨rfl, ⟨target, hrehomable⟩, hsome, hnone⟩
              exact ⟨target, hrehomable.self, rehomed_of_rehomable hrehomable now,
                (announcesChanges_iff hrehomable now).mpr htold⟩

/-- What a run leaves in which a statement may fail. -/
def adoptSelfOutcome (now cfg : Str) (frm : Option Str) (dryRun : Bool) (db : Db)
    (fault : Option Nat) (late : Bool) : Except (Exc PyError) AdoptSelfResult × Db :=
  let r := (adoptSelfPartition now cfg frm dryRun).run (Conn.fresh db fault late)
  (r.1, r.2.committed)

/-- **Re-homing**: the partition is conserved, except that a wet run that
empties a managed node does not tell it.  Where a statement fails, a run that
raises conserves the partition too. -/
theorem conserves_partition_iff (now cfg : Str) (frm : Option Str) (dryRun : Bool) (db : Db) :
    (ConservesPartition (orDefault frm cfg) dryRun db
        (eval (adoptSelfPartition now cfg frm dryRun) db) ↔
      ¬ (dryRun = false ∧ db.EmptiesNode (orDefault frm cfg))) ∧
    ∀ fault late, ConservesPartition (orDefault frm cfg) dryRun db
        (adoptSelfOutcome now cfg frm dryRun db fault late) ↔
      ¬ (dryRun = false ∧ db.EmptiesNode (orDefault frm cfg)) ∨
        ∃ e, (adoptSelfOutcome now cfg frm dryRun db fault late).1 = .error e := by
  refine ⟨conserves_eval_iff now cfg frm dryRun db, fun fault late => ?_⟩
  obtain ⟨res, c', hrun, heval⟩ | ⟨e, c', hrun, hsame | ⟨hreads, -⟩⟩ :=
    (atomic_adoptSelf now cfg frm dryRun).run_fresh db fault late
  · -- the run met no failing statement
    have houtcome : adoptSelfOutcome now cfg frm dryRun db fault late =
        (.ok res, c'.committed) := by
      rw [adoptSelfOutcome, hrun]
    rw [houtcome, ← heval, conserves_eval_iff]
    simp [heval]
  · have houtcome : adoptSelfOutcome now cfg frm dryRun db fault late = (.error e, db) := by
      rw [adoptSelfOutcome, hrun, hsame]
    rw [houtcome]
    exact ⟨fun _ => .inr ⟨e, rfl⟩, fun _ => rfl⟩
  · cases hreads

/-! ### a partition that is another node's -/

/-- The hub's own node has no peers; the peers of `b`, a managed node, are to
become its. -/
def twoManagedNodes : Db :=
  { Db.empty with
    nodes := [lit "a", lit "b"]
    managedNodes := [ManagedNodeStore.newNode (lit "t0") (lit "a") (lit "alpha") true,
      ManagedNodeStore.newNode (lit "t0") (lit "b") (lit "beta") false]
    ibgpPeers := [{ meshRow (lit "b.net:51820") with
      createdAt := lit "t1", updatedAt := lit "t1" }] }

theorem emptied_node_untold :
    ¬ ConservesPartition (lit "b") false twoManagedNodes
      (eval (adoptSelfPartition (lit "t1") (lit "a") (some (lit "b")) false) twoManagedNodes) := by
  have hrehomable : twoManagedNodes.Rehomable (orDefault (some (lit "b")) (lit "a")) (lit "a") :=
    { self := by decide
      apart := by decide
      bound := by decide
      targetBound := by decide
      rows := .inr (by decide)
      bgpFree := by decide
      ibgpFree := by decide
      known := by decide }
  exact not_conserves_of_empties (lit "t1") ⟨⟨lit "a", hrehomable⟩, by decide, by decide⟩

end Dn42Ctl
