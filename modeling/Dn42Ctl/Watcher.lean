import Dn42Ctl.Events

/-!
# Watcher

`run_sync_watcher` as the reader of the queue: it anchors its cursor at
`MAX(id)` and then fetches batches.  The trim of `emit_sync_event` runs in the
writers and knows nothing of the cursor; this module says exactly when it takes
rows away that the watcher has not fetched.
-/

namespace Dn42Ctl

open Text Txn

/-! ## one tick -/

/-- `_WATCHER_BATCH`. -/
def watcherBatch : Nat := 500

/-- `_fetch_events`. -/
def fetchEvents (lastId : Nat) : DbTx (List SyncEvent) :=
  SyncEventStore.fetchSince lastId watcherBatch

/-- `max(e.id for e in events)`; nothing fetched leaves the cursor. -/
def advanceCursor (lastId : Nat) (events : List SyncEvent) : Nat :=
  if events.isEmpty then lastId else (events.map SyncEvent.id).foldl max 0

/-- The nodes whose connections a batch closes. -/
def revokedNodes (events : List SyncEvent) : List Str :=
  (events.filter fun e => e.kind = .accessRevoked).map SyncEvent.nodeId

/-- The nodes whose connections a batch wakes: `changed - revoked`. -/
def changedNodes (events : List SyncEvent) : List Str :=
  ((events.filter fun e => e.kind = .desired).map SyncEvent.nodeId).filter fun n =>
    !(revokedNodes events).contains n

/-! ## the log along a run -/

/-- The events committed after the anchor. -/
def eventsAfter (anchor db : Db) : List SyncEvent := db.syncLog.drop anchor.syncLog.length

/-- Events logged later come after those logged before. -/
theorem eventsAfter_append {anchor db db' : Db} {new : List SyncEvent}
    (hgrown : anchor.syncLog <+: db.syncLog) (hlog : db'.syncLog = db.syncLog ++ new) :
    eventsAfter anchor db' = eventsAfter anchor db ++ new := by
  rw [eventsAfter, eventsAfter, hlog]
  exact List.drop_append_of_le_length hgrown.length_le

/-- Ids increase along the log, so a new event is none of the old ones. -/
theorem new_not_logged {db db' : Db} {new : List SyncEvent} (hq : db'.QueueWF)
    (hlog : db'.syncLog = db.syncLog ++ new) : ∀ e ∈ new, e ∉ db.syncLog := by
  intro e he hold
  have hinc := hq.logIncreasing
  rw [hlog, List.map_append, List.pairwise_append] at hinc
  exact Nat.lt_irrefl _ (hinc.2.2 e.id (List.mem_map_of_mem hold) e.id (List.mem_map_of_mem he))

/-- The log has grown, and the managed nodes are the same. -/
structure Db.SameNodes (db w : Db) : Prop where
  log : db.syncLog <+: w.syncLog
  nodes : w.managedNodes = db.managedNodes

/-- An event leaves the nodes. -/
theorem preserves_emit_sameNodes (db : Db) (now m : Str) (k : SyncKind) :
    Preserves db.SameNodes (emitSyncEvent now m k) := by
  refine .bind (.execute _ fun w a w' hw h => ?_) fun newId => ?_
  · simp only [Except.ok.injEq, Db.insertSyncEvent, Prod.mk.injEq] at h
    rw [← h.2]
    exact ⟨hw.log.trans (List.prefix_append _ _), hw.nodes⟩
  · split
    · exact .modify _ fun w hw => ⟨hw.log, hw.nodes⟩
    · exact .pure _

/-- The log after a committed call. -/
theorem after_log (now : Str) (db : Db) (call : Call) :
    call.after now db = db ∨ ∃ mid evs, call.commit now db = some (mid, evs) ∧
      (call.after now db).managedNodes = mid.managedNodes ∧
      (call.after now db).syncLog = db.syncLog ++ loggedFrom now db.syncSeq evs := by
  cases hc : call.commit now db with
  | none => exact .inl (by rw [Call.after, hc])
  | some c =>
      obtain ⟨mid, evs⟩ := c
      have hq := (call.commit_frame hc).queue
      have hafter : call.after now db = mid.emitAll now evs := by rw [Call.after, hc]
      refine .inr ⟨mid, evs, rfl, ?_, ?_⟩
      · rw [hafter, emitAll_managedNodes]
      · rw [hafter, syncLog_emitAll, hq.2.1, hq.2.2]

/-- An event that was asked for is logged. -/
theorem mem_loggedFrom {m : Str} {k : SyncKind} (now : Str) (seq : Nat)
    {evs : List (Str × SyncKind)}
    (h : (m, k) ∈ evs) : ∃ e ∈ loggedFrom now seq evs, e.nodeId = m ∧ e.kind = k := by
  induction evs generalizing seq with
  | nil => simp at h
  | cons x xs ih =>
      rcases List.mem_cons.mp h with rfl | h
      · exact ⟨_, List.mem_cons_self .., rfl, rfl⟩
      · obtain ⟨e, he, hek⟩ := ih (seq + 1) h
        exact ⟨e, List.mem_cons_of_mem _ he, hek⟩

/-- A repair command appends to the log and leaves the managed nodes. -/
theorem hubStep_repair_sameNodes {db db' : Db} {a : HubAction} (h : hubStep db a = some db')
    (hcall : ∀ c, a.write ≠ .call c) : db.SameNodes db' :=
  hubStep_repair ⟨List.prefix_rfl, rfl⟩ h hcall (fun _ _ hw => ⟨hw.log, hw.nodes⟩)
    (fun _ _ hw => ⟨hw.log, hw.nodes⟩) (preserves_emit_sameNodes db a.now)

/-- The log only grows. -/
theorem hubStep_log {db db' : Db} {a : HubAction} (h : hubStep db a = some db') :
    ∃ new, db'.syncLog = db.syncLog ++ new := by
  by_cases hcall : ∃ c, a.write = .call c
  · obtain ⟨c, hw⟩ := hcall
    rcases hubStep_call hw h with hdb | hdb
    · exact ⟨[], by rw [hdb, List.append_nil]⟩
    · rcases after_log a.now db c with heq | ⟨mid, evs, -, -, hlog⟩
      · exact ⟨[], by rw [hdb, heq, List.append_nil]⟩
      · exact ⟨_, by rw [hdb, hlog]⟩
  · obtain ⟨new, hnew⟩ := (hubStep_repair_sameNodes h fun c hw => hcall ⟨c, hw⟩).log
    exact ⟨new, hnew.symm⟩

/-! ## the watcher and the writers -/

structure Watch where
  db : Db
  lastId : Nat
  /-- What each fetch returned, in order. -/
  fetched : List (List SyncEvent)

/-- The watcher when it has just read `MAX(id)`. -/
def Watch.anchored (db : Db) : Watch := ⟨db, db.latestEventId, []⟩

inductive WatchAction where
  /-- A transaction of some writer that announces one event. -/
  | emit (now nodeId : Str) (kind : SyncKind)
  /-- A round of the watcher; its statement may fail. -/
  | tick (fault : Option Nat)

/-- A failed round is logged and the next one starts from the same cursor. -/
def watchStep (s : Watch) : WatchAction → Option Watch
  | .emit now nodeId kind => some { s with
      db := (eval (emitSyncEvent now nodeId kind >>= fun _ => commit : DbTx Unit) s.db).2 }
  | .tick fault =>
      match ((fetchEvents s.lastId).run (Conn.fresh s.db fault false)).1 with
      | .ok events => some { s with
          lastId := advanceCursor s.lastId events, fetched := s.fetched ++ [events] }
      | .error _ => some s

/-- The rows the watcher has still to fetch. -/
def Watch.pending (s : Watch) : List SyncEvent :=
  s.db.syncEvents.filter fun e => decide (s.lastId < e.id)

/-- What the queue promises its reader. -/
structure Delivered (anchor : Db) (s : Watch) : Prop where
  /-- Nothing after the cursor is gone from the table. -/
  kept : ∀ e ∈ eventsAfter anchor s.db, s.lastId < e.id → e ∈ s.db.syncEvents
  /-- The fetches return ids in increasing order, so none twice. -/
  ordered : (s.fetched.flatten.map SyncEvent.id).Pairwise (· < ·)
  /-- After enough further rounds every event was returned. -/
  complete : ∃ n t, Machine.exec watchStep s (List.replicate n (.tick none)) = some t ∧
    t.fetched.flatten = eventsAfter anchor s.db

/-! ## what a step does -/

/-- A text the driver cannot encode is refused; otherwise the event is queued. -/
theorem eval_emit (now n : Str) (k : SyncKind) (db : Db) :
    (eval (emitSyncEvent now n k >>= fun _ => commit : DbTx Unit) db).2 =
      if params [.text n] = none then db.emit now n k else db := by
  by_cases hb : params [.text n] = none
  · have hrun : (emitSyncEvent now n k).run ⟨db, db, false, none, false⟩ =
        (.ok (), ⟨db, db.emit now n k, true, none, false⟩) :=
      run_emitSyncEvent_eq_ok.mpr ⟨hb, rfl⟩
    rw [if_pos hb, eval, Conn.fresh, Prog.run_bind_ok hrun]
    rfl
  · rw [if_neg hb, eval, Conn.fresh, Prog.run_bind]
    obtain ⟨e, he⟩ := Option.ne_none_iff_exists'.mp hb
    have hrun : (emitSyncEvent now n k).run ⟨db, db, false, none, false⟩ =
        (.error (.unbound e), ⟨db, db, true, none, false⟩) := by
      rw [emitSyncEvent, Prog.run_bind, he]
      rfl
    rw [hrun]

/-- An event of any node as a step. -/
theorem watchStep_emit (s : Watch) (now n : Str) (k : SyncKind) :
    watchStep s (.emit now n k) = some { s with
      db := if params [.text n] = none then s.db.emit now n k else s.db } := by
  rw [watchStep, eval_emit]

/-- A round either fails and changes nothing, or fetches one batch. -/
theorem watchStep_tick (s : Watch) (fault : Option Nat) :
    watchStep s (.tick fault) = some s ∨
      watchStep s (.tick fault) = some { s with
        lastId := advanceCursor s.lastId (s.db.eventsSince s.lastId watcherBatch)
        fetched := s.fetched ++ [s.db.eventsSince s.lastId watcherBatch] } := by
  match fault with
  | none => exact .inr rfl
  | some 0 => exact .inl rfl
  | some (k + 1) => exact .inr rfl

/-! ## batches -/

/-- The maximum is at least each element. -/
theorem le_foldl_max {a x : Nat} {l : List Nat} (h : x ≤ a ∨ x ∈ l) : x ≤ l.foldl max a := by
  induction l generalizing a with
  | nil => simpa using h
  | cons y ys ih =>
      rw [List.foldl_cons]
      rcases h with h | h
      · exact ih (.inl (h.trans (Nat.le_max_left a y)))
      · rcases List.mem_cons.mp h with rfl | h
        · exact ih (.inl (Nat.le_max_right a x))
        · exact ih (.inr h)

/-- It stays below a bound of all of them. -/
theorem foldl_max_lt {a b : Nat} {l : List Nat} (ha : a < b) (h : ∀ x ∈ l, x < b) :
    l.foldl max a < b := by
  induction l generalizing a with
  | nil => exact ha
  | cons y ys ih =>
      exact ih (Nat.max_lt.mpr ⟨ha, h y (List.mem_cons_self ..)⟩)
        fun x hx => h x (List.mem_cons_of_mem _ hx)

/-- In a table ordered by id, the rows after the largest id of a batch are the
rows after the batch. -/
theorem filter_after_batch {rows : List SyncEvent} (k : Nat)
    (hinc : (rows.map SyncEvent.id).Pairwise (· < ·)) (hne : (rows.take k).isEmpty = false) :
    rows.filter (fun e => decide (((rows.take k).map SyncEvent.id).foldl max 0 < e.id)) =
      rows.drop k := by
  have hsplit : (rows.take k ++ rows.drop k).Pairwise fun a b => a.id < b.id := by
    rw [List.take_append_drop]
    exact List.pairwise_map.mp hinc
  obtain ⟨-, -, hcross⟩ := List.pairwise_append.mp hsplit
  have htake : (rows.take k).filter
      (fun e => decide (((rows.take k).map SyncEvent.id).foldl max 0 < e.id)) = [] := by
    refine List.filter_eq_nil_iff.mpr fun e he => ?_
    rw [decide_eq_true_eq, Nat.not_lt]
    exact le_foldl_max (.inr (List.mem_map_of_mem he))
  have hdrop : (rows.drop k).filter
      (fun e => decide (((rows.take k).map SyncEvent.id).foldl max 0 < e.id)) = rows.drop k := by
    refine List.filter_eq_self.mpr fun e he => ?_
    rw [decide_eq_true_eq]
    obtain ⟨x, hx⟩ := List.exists_mem_of_ne_nil (rows.take k) (by simpa using hne)
    refine foldl_max_lt (Nat.zero_lt_of_lt (hcross x hx e he)) fun i hi => ?_
    obtain ⟨y, hy, rfl⟩ := List.mem_map.mp hi
    exact hcross y hy e he
  calc rows.filter _ = (rows.take k ++ rows.drop k).filter _ := by rw [List.take_append_drop]
    _ = rows.drop k := by rw [List.filter_append, htake, hdrop, List.nil_append]

/-! ## what holds in every run -/

structure WatchInv (anchor : Db) (s : Watch) : Prop where
  queue : s.db.QueueWF
  grown : s.db.syncLog = anchor.syncLog ++ eventsAfter anchor s.db
  cursor : anchor.syncSeq ≤ s.lastId ∧ s.lastId ≤ s.db.syncSeq
  /-- Every id after the anchor was handed out to an event. -/
  contiguous : ∀ i, anchor.syncSeq < i → i ≤ s.db.syncSeq →
    ∃ e ∈ eventsAfter anchor s.db, e.id = i
  fetchedBounded : ∀ e ∈ s.fetched.flatten, e.id ≤ s.lastId
  inLog : (s.fetched.flatten ++ s.pending).Sublist (eventsAfter anchor s.db)

/-- What was fetched and what is still to be fetched are everything. -/
def Intact (anchor : Db) (s : Watch) : Prop :=
  s.fetched.flatten ++ s.pending = eventsAfter anchor s.db

/-- Logged events come in the order of their ids. -/
theorem eventsAfter_increasing {anchor : Db} {s : Watch} (h : WatchInv anchor s) :
    ((eventsAfter anchor s.db).map SyncEvent.id).Pairwise (· < ·) :=
  h.queue.logIncreasing.sublist ((List.drop_sublist _ _).map _)

/-- So do the pending ones. -/
theorem pending_increasing {anchor : Db} {s : Watch} (h : WatchInv anchor s) :
    (s.pending.map SyncEvent.id).Pairwise (· < ·) :=
  h.queue.logIncreasing.sublist ((List.filter_sublist.trans h.queue.queueLogged).map _)

/-- A fetch returns the next rows of the table. -/
theorem eventsSince_eq {anchor : Db} {s : Watch} (h : WatchInv anchor s) (k : Nat) :
    s.db.eventsSince s.lastId k = s.pending.take k := by
  rw [Db.eventsSince, List.Pairwise.insertionSort_eq]
  · rfl
  · exact (List.pairwise_map.mp (pending_increasing h)).imp Nat.le_of_lt

/-- The state after a round that fetched. -/
def Watch.fetch (s : Watch) : Watch :=
  { s with
    lastId := advanceCursor s.lastId (s.db.eventsSince s.lastId watcherBatch)
    fetched := s.fetched ++ [s.db.eventsSince s.lastId watcherBatch] }

/-- A fetch takes the first batch of what is pending. -/
theorem pending_fetch {anchor : Db} {s : Watch} (h : WatchInv anchor s) :
    s.fetch.pending = s.pending.drop watcherBatch := by
  rw [Watch.pending, Watch.fetch, eventsSince_eq h, advanceCursor]
  cases hne : (s.pending.take watcherBatch).isEmpty with
  | true =>
      have hnil : s.pending = [] := by
        rcases List.take_eq_nil_iff.mp (List.isEmpty_iff.mp hne) with h0 | h0
        · exact absurd h0 (by decide)
        · exact h0
      rw [if_pos rfl]
      exact hnil.trans (by rw [hnil, List.drop_nil])
  | false =>
      rw [if_neg Bool.false_ne_true, ← filter_after_batch watcherBatch (pending_increasing h) hne,
        Watch.pending, List.filter_filter]
      refine List.filter_congr fun e _ => ?_
      obtain ⟨x, hx⟩ := List.exists_mem_of_ne_nil (s.pending.take watcherBatch) (by simpa using hne)
      have hle : x.id ≤ ((s.pending.take watcherBatch).map SyncEvent.id).foldl max 0 :=
        le_foldl_max (.inr (List.mem_map_of_mem hx))
      have hlt : s.lastId < x.id := by
        simpa using (List.mem_filter.mp (List.mem_of_mem_take hx)).2
      rw [Watch.pending] at hle
      rw [Bool.eq_iff_iff]
      simp only [Bool.and_eq_true, decide_eq_true_eq]
      omega

/-- And appends it to what was fetched. -/
theorem flatten_fetch {anchor : Db} {s : Watch} (h : WatchInv anchor s) :
    s.fetch.fetched.flatten = s.fetched.flatten ++ s.pending.take watcherBatch := by
  rw [Watch.fetch, eventsSince_eq h]
  simp

/-- A round moves rows from the table to the watcher and loses none. -/
theorem total_fetch {anchor : Db} {s : Watch} (h : WatchInv anchor s) :
    s.fetch.fetched.flatten ++ s.fetch.pending = s.fetched.flatten ++ s.pending := by
  rw [flatten_fetch h, pending_fetch h, List.append_assoc, List.take_append_drop]

/-- A pending event lies between the cursor and the newest id. -/
theorem pending_bounded {anchor : Db} {s : Watch} (h : WatchInv anchor s) {e : SyncEvent}
    (he : e ∈ s.pending) : s.lastId < e.id ∧ e.id ≤ s.db.syncSeq := by
  obtain ⟨hmem, hlt⟩ := List.mem_filter.mp he
  exact ⟨of_decide_eq_true hlt, h.queue.logBounded e (h.queue.queueLogged.subset hmem)⟩

/-- The cursor moves past what was fetched and never past the newest id. -/
theorem lastId_fetch {anchor : Db} {s : Watch} (h : WatchInv anchor s) :
    s.lastId ≤ s.fetch.lastId ∧ s.fetch.lastId ≤ s.db.syncSeq ∧
      ∀ e ∈ s.pending.take watcherBatch, e.id ≤ s.fetch.lastId := by
  rw [Watch.fetch, eventsSince_eq h, advanceCursor]
  cases hne : (s.pending.take watcherBatch).isEmpty with
  | true =>
      rw [if_pos rfl]
      refine ⟨Nat.le_refl _, h.cursor.2, fun e he => ?_⟩
      rw [List.isEmpty_iff.mp hne] at he
      simp at he
  | false =>
      rw [if_neg Bool.false_ne_true]
      have hall : ∀ e ∈ s.pending.take watcherBatch,
          e.id ≤ ((s.pending.take watcherBatch).map SyncEvent.id).foldl max 0 :=
        fun e he => le_foldl_max (.inr (List.mem_map_of_mem he))
      obtain ⟨x, hx⟩ := List.exists_mem_of_ne_nil (s.pending.take watcherBatch) (by simpa using hne)
      have hlt := (pending_bounded h (List.mem_of_mem_take hx)).1
      refine ⟨Nat.le_of_lt (Nat.lt_of_lt_of_le hlt (hall x hx)), ?_, hall⟩
      refine Nat.le_of_lt_succ (foldl_max_lt (Nat.succ_pos _) fun i hi => ?_)
      obtain ⟨y, hy, rfl⟩ := List.mem_map.mp hi
      exact Nat.lt_succ_of_le (pending_bounded h (List.mem_of_mem_take hy)).2

/-- A fetch keeps the invariant. -/
theorem WatchInv.fetch {anchor : Db} {s : Watch} (h : WatchInv anchor s) :
    WatchInv anchor s.fetch where
  queue := h.queue
  grown := h.grown
  cursor := ⟨h.cursor.1.trans (lastId_fetch h).1, (lastId_fetch h).2.1⟩
  contiguous := h.contiguous
  fetchedBounded e he := by
    rw [flatten_fetch h] at he
    rcases List.mem_append.mp he with he | he
    · exact (h.fetchedBounded e he).trans (lastId_fetch h).1
    · exact (lastId_fetch h).2.2 e he
  inLog := by
    rw [total_fetch h]
    exact h.inLog

/-- The rows a writer's trim leaves. -/
def keptBy (newId : Nat) (e : SyncEvent) : Bool :=
  newId % syncEventsTrimEvery != 0 || decide (newId < e.id + syncEventsKeep)

/-- The state after an event was announced. -/
def Watch.announce (s : Watch) (now n : Str) (k : SyncKind) : Watch :=
  { s with db := s.db.emit now n k }

/-- An announcement is logged last. -/
theorem eventsAfter_announce {anchor : Db} {s : Watch} (h : WatchInv anchor s) (now n : Str)
    (k : SyncKind) :
    eventsAfter anchor (s.announce now n k).db =
      eventsAfter anchor s.db ++ [s.db.nextEvent now n k] := by
  exact eventsAfter_append ⟨_, h.grown.symm⟩ rfl

/-- What is pending after it, with the deletion it may cause. -/
theorem pending_announce {anchor : Db} {s : Watch} (h : WatchInv anchor s) (now n : Str)
    (k : SyncKind) :
    (s.announce now n k).pending =
      s.pending.filter (keptBy (s.db.syncSeq + 1)) ++ [s.db.nextEvent now n k] := by
  have hnew : decide (s.lastId < (s.db.nextEvent now n k).id) = true :=
    decide_eq_true (Nat.lt_succ_of_le h.cursor.2)
  have hkept : keptBy (s.db.syncSeq + 1) (s.db.nextEvent now n k) = true := by
    simp [keptBy, Db.nextEvent, syncEventsKeep]
  have hevents : (s.announce now n k).db.syncEvents =
      (s.db.syncEvents ++ [s.db.nextEvent now n k]).filter (keptBy (s.db.syncSeq + 1)) := by
    simp only [Watch.announce, Db.emit, Db.emitted]
    split
    · rename_i htrim
      refine List.filter_congr fun e _ => ?_
      simp [keptBy, htrim]
    · rename_i htrim
      refine (List.filter_eq_self.mpr fun e _ => ?_).symm
      simp [keptBy, htrim]
  rw [Watch.pending, hevents, List.filter_filter, List.filter_append, List.filter_singleton]
  rw [show (s.announce now n k).lastId = s.lastId from rfl, hnew, hkept, Watch.pending,
    List.filter_filter]
  simp only [Bool.and_self, cond_true, Bool.and_comm]

/-- An announcement keeps the invariant. -/
theorem WatchInv.announce {anchor : Db} {s : Watch} (h : WatchInv anchor s) (now n : Str)
    (k : SyncKind) : WatchInv anchor (s.announce now n k) where
  queue := h.queue.emit now n k
  grown := by
    rw [eventsAfter_announce h, ← List.append_assoc, ← h.grown]
    rfl
  cursor := ⟨h.cursor.1, Nat.le_succ_of_le h.cursor.2⟩
  contiguous i hi hle := by
    rw [eventsAfter_announce h]
    rcases Nat.lt_or_eq_of_le hle with hlt | heq
    · obtain ⟨e, he, hid⟩ := h.contiguous i hi (Nat.le_of_lt_succ hlt)
      exact ⟨e, List.mem_append_left _ he, hid⟩
    · exact ⟨s.db.nextEvent now n k, by simp, heq.symm⟩
  fetchedBounded := h.fetchedBounded
  inLog := by
    rw [eventsAfter_announce h, pending_announce h, ← List.append_assoc]
    exact ((List.filter_sublist.append_left _).trans h.inLog).append (.refl _)

/-- Every step keeps it. -/
theorem watchInv_step {anchor : Db} {s s' : Watch} {a : WatchAction} (h : WatchInv anchor s)
    (hs : watchStep s a = some s') : WatchInv anchor s' := by
  cases a with
  | emit now n k =>
      rw [watchStep_emit, Option.some.injEq] at hs
      rw [← hs]
      split
      · exact h.announce now n k
      · exact h
  | tick fault =>
      rcases watchStep_tick s fault with ht | ht
      · rw [ht, Option.some.injEq] at hs
        exact hs ▸ h
      · rw [ht, Option.some.injEq] at hs
        exact hs ▸ h.fetch

/-- The newest row has the largest id of the table. -/
theorem latestEventId_eq {db : Db} (h : db.QueueWF) : db.latestEventId = db.syncSeq := by
  refine Nat.le_antisymm ?_ ?_
  · refine Nat.le_of_lt_succ (foldl_max_lt (Nat.succ_pos _) fun i hi => ?_)
    obtain ⟨e, he, rfl⟩ := List.mem_map.mp hi
    exact Nat.lt_succ_of_le (h.logBounded e (h.queueLogged.subset he))
  · rcases h.newestKept with h0 | ⟨e, he, hid⟩
    · rw [h0]
      exact Nat.zero_le _
    · exact le_foldl_max (.inr (hid ▸ List.mem_map_of_mem he))

/-- It holds where the watcher starts. -/
theorem watchInv_anchored {db : Db} (h : db.QueueWF) : WatchInv db (Watch.anchored db) where
  queue := h
  grown := by simp [eventsAfter, Watch.anchored]
  cursor := ⟨(latestEventId_eq h).ge, (latestEventId_eq h).le⟩
  contiguous i hi hle := absurd hle (Nat.not_le_of_lt hi)
  fetchedBounded e he := by simp [Watch.anchored] at he
  inLog := by
    have hnone : (Watch.anchored db).pending = [] := by
      refine List.filter_eq_nil_iff.mpr fun e he => ?_
      have hle := h.logBounded e (h.queueLogged.subset he)
      simp only [Watch.anchored, latestEventId_eq h, decide_eq_true_eq, Nat.not_lt]
      exact hle
    rw [hnone]
    simp [Watch.anchored]

/-- Nothing is lost at the start. -/
theorem intact_anchored {db : Db} (h : db.QueueWF) : Intact db (Watch.anchored db) := by
  have hsub := (watchInv_anchored h).inLog
  have hnil : eventsAfter db (Watch.anchored db).db = [] := by simp [eventsAfter, Watch.anchored]
  rw [hnil, List.sublist_nil] at hsub
  rw [Intact, hsub, hnil]

/-! ## when nothing is lost -/

/-- A trimming announcement comes when the cursor is within the rows it keeps. -/
def TrimWithinReach (s : Watch) : WatchAction → Prop
  | .emit _ nodeId _ => params [.text nodeId] = none →
      (s.db.syncSeq + 1) % syncEventsTrimEvery = 0 →
        s.db.syncSeq + 1 ≤ s.lastId + syncEventsKeep
  | .tick _ => True

/-- An announcement keeps the queue intact exactly when its trim, if it makes
one, starts before the cursor. -/
theorem intact_announce_iff {anchor : Db} {s : Watch} (h : WatchInv anchor s) (now n : Str)
    (k : SyncKind) :
    Intact anchor (s.announce now n k) ↔ Intact anchor s ∧
      ((s.db.syncSeq + 1) % syncEventsTrimEvery = 0 →
        s.db.syncSeq + 1 ≤ s.lastId + syncEventsKeep) := by
  rw [Intact, Intact, eventsAfter_announce h, pending_announce h, ← List.append_assoc,
    List.append_left_inj]
  constructor
  · intro heq
    -- the filtered rows are below the rows, and these are below the log
    have hback : (s.fetched.flatten ++ s.pending).Sublist
        (s.fetched.flatten ++ s.pending.filter (keptBy (s.db.syncSeq + 1))) := by
      refine h.inLog.trans ?_
      rw [← heq]
      exact .refl _
    have hsame : s.fetched.flatten ++ s.pending.filter (keptBy (s.db.syncSeq + 1)) =
        s.fetched.flatten ++ s.pending :=
      (List.filter_sublist.append_left _).antisymm hback
    refine ⟨hsame.symm.trans heq, fun htrim => ?_⟩
    by_contra hlt
    rw [Nat.not_le] at hlt
    -- the first id after the cursor was handed out, not fetched, and is trimmed
    obtain ⟨e, he, hid⟩ := h.contiguous (s.lastId + 1) (Nat.lt_succ_of_le h.cursor.1)
      (by rw [syncEventsKeep] at hlt; omega)
    rw [← heq] at he
    rcases List.mem_append.mp he with he | he
    · have := h.fetchedBounded e he
      omega
    · have hk := (List.mem_filter.mp he).2
      simp only [keptBy, htrim, bne_self_eq_false, Bool.false_or, decide_eq_true_eq] at hk
      omega
  · rintro ⟨heq, hreach⟩
    rw [← heq]
    refine congrArg _ (List.filter_eq_self.mpr fun e he => ?_)
    have hlt := (pending_bounded h he).1
    by_cases htrim : (s.db.syncSeq + 1) % syncEventsTrimEvery = 0
    · have := hreach htrim
      simp only [keptBy, htrim, bne_self_eq_false, Bool.false_or, decide_eq_true_eq]
      omega
    · simp [keptBy, htrim]

/-- A step loses an event exactly when its deletion reaches past the cursor. -/
theorem intact_step_iff {anchor : Db} {s s' : Watch} {a : WatchAction} (h : WatchInv anchor s)
    (hs : watchStep s a = some s') : Intact anchor s' ↔ Intact anchor s ∧ TrimWithinReach s a := by
  cases a with
  | emit now n k =>
      rw [watchStep_emit, Option.some.injEq] at hs
      rw [← hs]
      by_cases hb : params [.text n] = none
      · rw [if_pos hb, TrimWithinReach]
        refine (intact_announce_iff h now n k).trans ?_
        exact and_congr_right fun _ => ⟨fun hr _ => hr, fun hr => hr hb⟩
      · rw [if_neg hb, TrimWithinReach]
        exact ⟨fun hi => ⟨hi, fun hb' => absurd hb' hb⟩, fun hi => hi.1⟩
  | tick fault =>
      rcases watchStep_tick s fault with ht | ht
      · rw [ht, Option.some.injEq] at hs
        rw [← hs]
        exact ⟨fun hi => ⟨hi, trivial⟩, fun hi => hi.1⟩
      · rw [ht, Option.some.injEq] at hs
        have htotal := total_fetch h
        rw [← hs, Intact, Intact]
        exact ⟨fun hi => ⟨htotal.symm.trans hi, trivial⟩, fun hi => htotal.trans hi.1⟩

/-- Rounds without new events empty the table batch by batch. -/
theorem exec_ticks {anchor : Db} {s : Watch} (h : WatchInv anchor s) (n : Nat) :
    ∃ t, Machine.exec watchStep s (List.replicate n (.tick none)) = some t ∧
      t.fetched.flatten ++ t.pending = s.fetched.flatten ++ s.pending ∧
      t.pending = s.pending.drop (n * watcherBatch) := by
  induction n generalizing s with
  | zero => exact ⟨s, rfl, rfl, by simp⟩
  | succ n ih =>
      obtain ⟨t, hrun, htotal, hpending⟩ := ih h.fetch
      refine ⟨t, hrun, htotal.trans (total_fetch h), ?_⟩
      rw [hpending, pending_fetch h, List.drop_drop, Nat.succ_mul, Nat.add_comm]

/-- Delivery fails exactly when an event was lost. -/
theorem delivered_iff_intact {anchor : Db} {s : Watch} (h : WatchInv anchor s) :
    Delivered anchor s ↔ Intact anchor s := by
  constructor
  · intro hd
    obtain ⟨n, t, hrun, hall⟩ := hd.complete
    obtain ⟨t', hrun', htotal, -⟩ := exec_ticks h n
    have htt : t' = t := Option.some.inj (hrun'.symm.trans hrun)
    rw [htt, hall] at htotal
    have hsub := h.inLog
    rw [← htotal] at hsub
    have hnil : t.pending = [] := by
      have hlen := hsub.length_le
      rw [List.length_append] at hlen
      exact List.length_eq_zero_iff.mp (by omega)
    rw [Intact, ← htotal, hnil, List.append_nil]
  · intro hi
    refine ⟨fun e he hlt => ?_, ?_, ?_⟩
    · rw [← hi] at he
      rcases List.mem_append.mp he with he | he
      · exact absurd (h.fetchedBounded e he) (Nat.not_le_of_lt hlt)
      · exact (List.mem_filter.mp he).1
    · refine (eventsAfter_increasing h).sublist (List.Sublist.map _ ?_)
      rw [← hi]
      exact List.sublist_append_left _ _
    · obtain ⟨t, hrun, htotal, hpending⟩ := exec_ticks h s.pending.length
      refine ⟨_, t, hrun, ?_⟩
      have hnil : t.pending = [] := by
        rw [hpending, List.drop_eq_nil_iff, watcherBatch]
        omega
      rw [← hi, ← htotal, hnil, List.append_nil]

/-- **Trimming.**  From every reachable database the watcher anchors at, and for
every interleaving of announcements and rounds: the queue keeps what it promises
exactly when every trimming announcement found the cursor at most
`syncEventsKeep` ids behind. -/
theorem delivered_iff {db : Db} (hreach : db.Reachable) {as : List WatchAction} {s : Watch}
    (h : Machine.exec watchStep (Watch.anchored db) as = some s) :
    Delivered db s ↔ Machine.Along watchStep TrimWithinReach (Watch.anchored db) as := by
  have hq := hreach.wf.queue
  have hinv0 := watchInv_anchored hq
  have hinv : WatchInv db s :=
    Machine.reachable_invariant watchStep (fun _ _ _ => watchInv_step) hinv0 ⟨as, h⟩
  rw [delivered_iff_intact hinv]
  refine (Machine.exec_iff_along watchStep (fun _ _ _ => watchInv_step)
    (fun _ _ _ => intact_step_iff) hinv0 h).trans ?_
  exact ⟨fun hg => hg.2, fun hal => ⟨intact_anchored hq, hal⟩⟩

/-- Announcements without a round in between. -/
def burst (n : Nat) : List WatchAction := List.replicate n (.emit (lit "t") (lit "a") .desired)

theorem exec_burst (db : Db) (n : Nat) :
    ∃ s, Machine.exec watchStep (Watch.anchored db) (burst n) = some s ∧
      s.lastId = db.latestEventId ∧ s.db.syncSeq = db.syncSeq + n := by
  induction n with
  | zero => exact ⟨_, rfl, rfl, rfl⟩
  | succ n ih =>
      obtain ⟨s, hrun, hcur, hseq⟩ := ih
      have hb : params [.text (lit "a")] = none := by decide
      refine ⟨s.announce (lit "t") (lit "a") .desired, ?_, hcur, ?_⟩
      · rw [burst, List.replicate_succ', Machine.exec_append, ← burst, hrun, Option.bind_some,
          Machine.exec_cons, watchStep_emit, if_pos hb]
        rfl
      · exact congrArg (· + 1) hseq

theorem delivered_iff_burst : Db.empty.Reachable ∧
    ∃ s, Machine.exec watchStep (Watch.anchored Db.empty) (burst 1000) = some s ∧
      (Delivered Db.empty s ↔
        Machine.Along watchStep TrimWithinReach (Watch.anchored Db.empty) (burst 1000)) := by
  obtain ⟨s, hrun, -⟩ := exec_burst Db.empty 1000
  exact ⟨.refl _ _, s, hrun, delivered_iff (.refl _ _) hrun⟩

/-- 1024 announcements between two rounds: the last one trims the first 24. -/
theorem burst_1024_not_delivered : Db.empty.Reachable ∧
    ∃ s, Machine.exec watchStep (Watch.anchored Db.empty) (burst 1024) = some s ∧
      ¬ Delivered Db.empty s := by
  obtain ⟨s, hrun, -⟩ := exec_burst Db.empty 1024
  obtain ⟨t, hrun', hcur, hseq⟩ := exec_burst Db.empty 1023
  refine ⟨.refl _ _, s, hrun, fun hd => ?_⟩
  have hinv0 := watchInv_anchored wf_empty.queue
  have hinv : WatchInv Db.empty s :=
    Machine.reachable_invariant watchStep (fun _ _ _ => watchInv_step) hinv0 ⟨_, hrun⟩
  have hgood := (Machine.exec_iff_along watchStep (fun _ _ _ => watchInv_step)
    (fun _ _ _ => intact_step_iff) hinv0 hrun).mp ((delivered_iff_intact hinv).mp hd)
  have hlast : TrimWithinReach t (.emit (lit "t") (lit "a") .desired) := by
    have hal := hgood.2
    rw [burst, List.replicate_succ'] at hal
    exact Machine.along_last watchStep hal hrun'
  have hle := hlast (by decide) (by rw [hseq]; rfl)
  rw [hseq, hcur] at hle
  exact absurd hle (by decide)

end Dn42Ctl
