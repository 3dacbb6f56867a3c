import Dn42Ctl.Fingerprint

/-!
# Revisions

The revisions a node is handed over its history: contents change, builds
record, reuse and evict snapshots.  `record` leaves a revision alone that was
recorded before, so a content that comes back within one second of the clock
is not the newest snapshot of its node.

* `Db.RecordsNewest` — a build after which its content is the newest snapshot;
* `rebuild_unchanged` — when building again changes nothing;
* `handed_out_found_iff` — when a revision that is handed out can be found.
-/

namespace Dn42Ctl

open Text Txn

/-! ## histories -/

section Digest

variable (digest : DesiredContent → Str)

/-- Writes of the hub and builds; `record` and `trim` are called by builds only. -/
def historyStep (db : Db) : RevisionAction → Option Db
  | .write a => if a.write.storesRevisions then none else hubStep db a
  | .build nodeId now recordRevision keepLatest =>
      some ((buildDesiredState digest now nodeId recordRevision keepLatest).run db).2

/-- The revision a build computes. -/
def Db.builtRevision (db : Db) (n now : Str) : Str := computeRevision digest (db.liveContent n) now

/-- The snapshot is stored under the revision of its content, with its time. -/
structure ConfigRevision.Exact (r : ConfigRevision) : Prop where
  revision : r.payload.revision = r.revision
  generatedAt : r.payload.generatedAt = r.generatedAt
  computed : r.revision = computeRevision digest r.payload.toDesiredContent r.generatedAt

/-- What every history keeps. -/
structure Db.HistoryInv (db : Db) : Prop where
  rollback : db.RollbackInv
  exact : ∀ r ∈ db.configRevisions, r.Exact digest

/-- The newest snapshot has the content being built, or its revision is not
recorded yet. -/
def Db.RecordsNewest (db : Db) (n now : Str) : Prop :=
  (db.reusable n (db.builtRevision digest n now) now).isSome ∨
    db.getByRevision n (db.builtRevision digest n now) = none

/-- The revision being built is recorded, and the trim of the build deletes
nothing. -/
structure Db.FindsBuilt (db : Db) (n now : Str) (keep : Int) : Prop where
  recorded : (db.getByRevision n (db.builtRevision digest n now)).isSome
  bound : params [.int keep] = none
  keepsAll : ∀ r ∈ db.configRevisions, db.trimmed n keep r = false

/-- A build returns the revision and the time of `st`, and leaves the snapshots. -/
def Db.Rebuilds (db : Db) (n now : Str) (keep : Int) (st : DesiredState) : Prop :=
  ∃ st' db', (buildDesiredState digest now n true keep).run db = (.ok st', db') ∧
    st'.revision = st.revision ∧ st'.generatedAt = st.generatedAt ∧
    db'.configRevisions = db.configRevisions

end Digest

variable {digest : DesiredContent → Str}

/-! ## what a history keeps -/

theorem configRevisions_hubStep {db db' : Db} {a : HubAction}
    (hstores : a.write.storesRevisions = false) (hs : hubStep db a = some db') :
    db'.configRevisions = db.configRevisions := by
  have hnot : Table.configRevisions ∉ a.write.writes := by
    cases hw : a.write with
    | call c =>
        rw [hw] at hstores
        cases c <;> simp [Write.storesRevisions, Write.writes, Call.writes] at hstores ⊢
    | backfill dryRun => simp [Write.writes]
    | adoptSelf cfg frm dryRun => simp [Write.writes]
  exact ((hubStep_frame hs).configRevisions hnot).1

theorem historyInv_empty : Db.empty.HistoryInv digest :=
  ⟨⟨wf_empty, pinsWF_empty⟩, by simp [Db.empty]⟩

theorem Db.HistoryInv.insertRevision {db db' : Db} (h : db.HistoryInv digest) {n now : Str}
    {content : DesiredContent} {rowId : Nat}
    (hr : db.insertRevision n (computeRevision digest content now) now
      { content with revision := computeRevision digest content now, generatedAt := now } =
        .ok (rowId, db')) : db'.HistoryInv digest := by
  refine ⟨⟨h.rollback.wf.insertRevision hr, h.rollback.pins.insertRevision hr⟩, ?_⟩
  obtain ⟨-, rfl⟩ := insertRevision_ok hr
  intro r hr
  obtain hr | hr := List.mem_append.mp hr
  · exact h.exact r hr
  · rw [List.mem_singleton.mp hr]
    exact ⟨rfl, rfl, rfl⟩

theorem Db.HistoryInv.trim {db : Db} (h : db.HistoryInv digest) (n : Str) (keep : Int) :
    Db.HistoryInv digest { db with
      configRevisions := Rows.deleteWhere (db.trimmed n keep) db.configRevisions } :=
  ⟨⟨h.rollback.wf.trim n keep, h.rollback.pins.trim n keep⟩,
    fun r hr => h.exact r (List.mem_of_mem_filter hr)⟩

theorem historyInv_build (n now : Str) (record : Bool) (keep : Int) :
    Prog.Maintains (Db.HistoryInv digest) (buildDesiredState digest now n record keep) :=
  maintains_build (fun _ _ _ _ hw hr => hw.insertRevision hr) (fun _ hw => hw.trim n keep) record

theorem historyInv_step {db db' : Db} {a : RevisionAction} (h : db.HistoryInv digest)
    (hs : historyStep digest db a = some db') : db'.HistoryInv digest := by
  cases a with
  | write w =>
      simp only [historyStep, Option.ite_none_left_eq_some] at hs
      refine ⟨⟨wf_hubStep h.rollback.wf hs.2, pinsWF_hubStep h.rollback.pins hs.2⟩, ?_⟩
      rw [configRevisions_hubStep (Bool.eq_false_iff.mpr hs.1) hs.2]
      exact h.exact
  | build n now record keep =>
      simp only [historyStep, Option.some.injEq] at hs
      rw [← hs]
      exact historyInv_build n now record keep db h

theorem historyInv_of_reachable {db : Db}
    (h : Machine.Reachable (historyStep digest) Db.empty db) : db.HistoryInv digest :=
  Machine.reachable_invariant _ (fun _ _ _ => historyInv_step) historyInv_empty h

/-! ## the newest snapshot -/

theorem Db.RevisionsWF.eq_of_id {db : Db} (h : db.RevisionsWF) {r s : ConfigRevision}
    (hr : r ∈ db.configRevisions) (hs : s ∈ db.configRevisions) (hid : r.id = s.id) : r = s := by
  have hne : db.configRevisions.Pairwise fun a b => a.id ≠ b.id :=
    (List.pairwise_map.mp h.increasing).imp fun hlt => Nat.ne_of_lt hlt
  have : Std.Symm fun a b : ConfigRevision => a.id ≠ b.id := ⟨fun _ _ hab => hab.symm⟩
  by_contra heq
  exact hne.forall hr hs heq hid

/-- A recorded row is what looking its revision up finds. -/
theorem Db.RevisionsWF.getByRevision_eq {db : Db} (h : db.RevisionsWF) {r : ConfigRevision}
    (hr : r ∈ db.configRevisions) : db.getByRevision r.nodeId r.revision = some r := by
  cases hf : db.getByRevision r.nodeId r.revision with
  | none =>
      have := List.find?_eq_none.mp hf r hr
      simp [ConfigRevision.is] at this
  | some s =>
      have his : ConfigRevision.is r.nodeId r.revision s = true := List.find?_some hf
      have hs : s ∈ db.configRevisions := List.mem_of_find?_eq_some hf
      by_cases heq : s = r
      · rw [heq]
      · -- two rows of one revision
        have hsymm : Std.Symm fun a b : ConfigRevision =>
            ¬ ConfigRevision.is a.nodeId a.revision b := by
          refine ⟨fun a b hab => ?_⟩
          simp only [ConfigRevision.is, Bool.and_eq_true, beq_iff_eq, not_and] at hab ⊢
          exact fun h1 h2 => hab h1.symm h2.symm
        exact absurd his (h.unique.forall hr hs (Ne.symm heq))

theorem nodeId_of_getByRevision {db : Db} {n rev : Str} {r : ConfigRevision}
    (h : db.getByRevision n rev = some r) : r.nodeId = n := by
  have his := List.find?_some h
  simp only [ConfigRevision.is, Bool.and_eq_true, beq_iff_eq] at his
  exact his.1

theorem mem_revisionsDesc {db : Db} {n : Str} {r : ConfigRevision} :
    r ∈ db.revisionsDesc n ↔ r ∈ db.configRevisions ∧ r.nodeId = n := by
  rw [Db.revisionsDesc, List.mem_insertionSort, List.mem_filter, beq_iff_eq]

/-- The newest snapshot is the row of the node with the largest id. -/
theorem newestRevision_eq_some {db : Db} (h : db.RevisionsWF) {n : Str} {r : ConfigRevision} :
    db.newestRevision n = some r ↔ (r ∈ db.configRevisions ∧ r.nodeId = n) ∧
      ∀ s ∈ db.configRevisions, s.nodeId = n → s.id ≤ r.id := by
  have hdec := revisionsDesc_decreasing h n
  rw [Db.newestRevision]
  cases hd : db.revisionsDesc n with
  | nil =>
      refine ⟨fun hn => (by cases hn), fun hr => ?_⟩
      have hmem := mem_revisionsDesc.mpr hr.1
      rw [hd] at hmem
      cases hmem
  | cons a rest =>
      have ha : a ∈ db.configRevisions ∧ a.nodeId = n := by
        rw [← mem_revisionsDesc, hd]
        exact List.mem_cons_self ..
      have hmax : ∀ s ∈ db.configRevisions, s.nodeId = n → s.id ≤ a.id := by
        intro s hs hsn
        have hmem := mem_revisionsDesc.mpr ⟨hs, hsn⟩
        rw [hd] at hmem hdec
        obtain rfl | hmem := List.mem_cons.mp hmem
        · exact le_rfl
        · exact (List.rel_of_pairwise_cons hdec hmem).le
      rw [List.head?_cons, Option.some.injEq]
      constructor
      · rintro rfl
        exact ⟨ha, hmax⟩
      · rintro ⟨hr, hrmax⟩
        exact h.eq_of_id ha.1 hr.1 (le_antisymm (hrmax a ha.1 ha.2) (hmax r hr.1 hr.2))

/-- No snapshot of the node is newer than its newest one. -/
theorem newerThan_eq_zero {db : Db} {r : ConfigRevision}
    (hmax : ∀ s ∈ db.configRevisions, s.nodeId = r.nodeId → s.id ≤ r.id) : db.newerThan r = 0 := by
  rw [Db.newerThan, List.countP_eq_zero]
  intro s hs
  simp only [Bool.and_eq_true, beq_iff_eq, decide_eq_true_eq, not_and, not_lt]
  exact hmax s hs

/-- A recorded snapshot is reused, with its own revision and time. -/
theorem reusable_of_newest {db : Db} (h : db.RevisionsWF) {n rev gen : Str} {r : ConfigRevision}
    (hnew : db.newestRevision n = some r)
    (hd : digestOfRevision r.revision = digestOfRevision rev) :
    db.reusable n rev gen = some (r.revision, r.generatedAt) := by
  obtain ⟨⟨hr, rfl⟩, -⟩ := (newestRevision_eq_some h).mp hnew
  simp only [Db.reusable, hnew, if_pos hd, h.getByRevision_eq hr]

/-- What is reused is the newest snapshot. -/
theorem newest_of_reusable {db : Db} (h : db.RevisionsWF) {n rev gen : Str} {built : Str × Str}
    (hreuse : db.reusable n rev gen = some built) :
    ∃ r, db.newestRevision n = some r ∧ built = (r.revision, r.generatedAt) ∧
      digestOfRevision r.revision = digestOfRevision rev := by
  cases hnew : db.newestRevision n with
  | none => simp [Db.reusable, hnew] at hreuse
  | some r =>
      by_cases hd : digestOfRevision r.revision = digestOfRevision rev
      · rw [reusable_of_newest h hnew hd, Option.some.injEq] at hreuse
        exact ⟨r, rfl, hreuse.symm, hd⟩
      · simp [Db.reusable, hnew, hd] at hreuse

/-! ## what a build leaves -/

section Build

variable {n now : Str} {keep : Int} {db db' : Db} {st : DesiredState}

/-- A `record` that returns has found its revision, or inserted it. -/
theorem after_record_new {rev gen : Str} {payload : DesiredState} {row : ConfigRevision} {mid : Db}
    (hnone : db.getByRevision n rev = none)
    (h : eval (RevisionStore.record n rev gen payload) db = (.ok row, mid)) :
    ∃ rowId, db.insertRevision n rev gen payload = .ok (rowId, mid) := by
  have hafter : mid = Call.after [] db (.record n rev gen payload) := eval_record h
  obtain ⟨c', hrun, -⟩ := eval_eq_ok.mp h
  obtain ⟨-, hrun⟩ := bind_queryOr hrun
  simp only [hnone] at hrun
  obtain ⟨rowId, c1, hins, -⟩ := Prog.run_bind_eq_ok.mp hrun
  obtain ⟨v, w, -, hw, -⟩ := bind_execute (run_guarded_eq_ok.mp hins)
  have hmid : mid = w := by
    rw [hafter, Call.after, Call.commit, hnone, hw]
    rfl
  exact ⟨v, by rw [hmid]; exact hw⟩

/-- A build that does not reuse a snapshot has called `record`, and `trim` with
a limit that binds. -/
theorem build_record (h : (buildDesiredState digest now n true keep).run db = (.ok st, db'))
    (hnone : db.reusable n (db.builtRevision digest n now) now = none) :
    (∃ row mid, eval (RevisionStore.record n (db.builtRevision digest n now) now
      { db.liveContent n with revision := db.builtRevision digest n now, generatedAt := now }) db =
        (.ok row, mid)) ∧ params [.int keep] = none := by
  have hb : params [.text n] = none := (build_ok h).1
  obtain ⟨content, db1, h1, h⟩ := Prog.run_bind_eq_ok.mp h
  have hlive : eval (readLive n) db = (.ok content, db1) := h1
  rw [eval_readLive db hb, Prod.mk.injEq, Except.ok.injEq] at hlive
  obtain ⟨rfl, rfl⟩ := hlive
  simp only [if_true] at h
  obtain ⟨result, db2, h2, -⟩ := Prog.run_bind_eq_ok.mp h
  have hrec : eval (recordBuild n (db.builtRevision digest n now) now (db.liveContent n) keep) db =
      (.ok result, db2) := h2
  obtain ⟨c', hrun, -⟩ := eval_eq_ok.mp hrec
  rw [recordBuild, Prog.run_bind_ok (run_reusableSnapshot_eq hb ..), hnone] at hrun
  dsimp only at hrun
  obtain ⟨built, c1, hsnap, -⟩ := Prog.run_bind_eq_ok.mp hrun
  obtain ⟨row, c2, hrow, hsnap⟩ := Prog.run_bind_eq_ok.mp hsnap
  refine ⟨⟨row, c2.committed, eval_eq_ok.mpr ⟨c2, hrow, rfl⟩⟩, ?_⟩
  obtain ⟨deleted, c3, htrim, -⟩ := Prog.run_bind_eq_ok.mp hsnap
  obtain ⟨hc2, -⟩ := fresh_of_atomic (atomic_record n _ now _) hrow
  rw [hc2] at htrim
  obtain ⟨-, -, hbound, -⟩ := bind_execute (run_guarded_eq_ok.mp htrim)
  exact params_of_subset hbound (by simp)

/-- A node whose pin names a recorded revision is pinned. -/
theorem getPinRow_of_getPin (hinv : db.RollbackInv) (h : db.getPin n = none) :
    db.getPinRow n = none := by
  cases hp : db.getPinRow n with
  | none => rfl
  | some p =>
      have hsome := hinv.wf.pinsRecorded n p hp
      rw [Db.getPin, hp, Option.bind_some] at h
      rw [h] at hsome
      cases hsome

theorem getPin_of_getPinRow (h : db.getPinRow n = none) : db.getPin n = none := by
  rw [Db.getPin, h]
  rfl

/-- A row that is inserted has the largest id. -/
theorem inserted_max (hinv : db.RollbackInv) {rev gen : Str} {payload : DesiredState} {mid : Db}
    {rowId : Nat} (hins : db.insertRevision n rev gen payload = .ok (rowId, mid)) :
    ⟨db.revisionSeq + 1, n, rev, gen, payload⟩ ∈ mid.configRevisions ∧
      ∀ s ∈ mid.configRevisions, s.id ≤ db.revisionSeq + 1 := by
  obtain ⟨-, hmid⟩ := insertRevision_ok hins
  rw [hmid]
  refine ⟨List.mem_append_right _ (List.mem_singleton.mpr rfl), fun s hs => ?_⟩
  obtain hs | hs := List.mem_append.mp hs
  · exact Nat.le_succ_of_le (hinv.wf.revisions.bounded s hs)
  · rw [List.mem_singleton.mp hs]

/-- The row with the next id is the newest one, and a trim leaves it. -/
theorem newest_inserted (hinv : db.RollbackInv) {rev gen : Str} {payload : DesiredState} {mid : Db}
    {rowId : Nat} (hins : db.insertRevision n rev gen payload = .ok (rowId, mid))
    (hk : 1 ≤ keep) :
    Db.newestRevision n { mid with
      configRevisions := Rows.deleteWhere (mid.trimmed n keep) mid.configRevisions } =
      some ⟨db.revisionSeq + 1, n, rev, gen, payload⟩ := by
  have hinv' : mid.RollbackInv := ⟨hinv.wf.insertRevision hins, hinv.pins.insertRevision hins⟩
  obtain ⟨hmem, hmax⟩ := inserted_max hinv hins
  refine (newestRevision_eq_some (hinv'.wf.trim n keep).revisions).mpr ⟨⟨?_, rfl⟩, ?_⟩
  · refine (mem_deleteWhere_trimmed hinv' (by omega) _).mpr ⟨hmem, fun _ => .inl ?_⟩
    rw [newerThan_eq_zero fun s hs _ => hmax s hs]
    omega
  · exact fun s hs _ => hmax s (List.mem_of_mem_filter hs)

/-- A trim that leaves any snapshot of a node that is not pinned leaves the one
just inserted. -/
theorem inserted_kept (hinv : db.RollbackInv) {rev gen : Str} {payload : DesiredState} {mid : Db}
    {rowId : Nat} (hins : db.insertRevision n rev gen payload = .ok (rowId, mid))
    (hpin : mid.getPinRow n = none) {r : ConfigRevision} (hnode : r.nodeId = n)
    (hkept : r ∈ Rows.deleteWhere (mid.trimmed n keep) mid.configRevisions) :
    (⟨db.revisionSeq + 1, n, rev, gen, payload⟩ : ConfigRevision) ∈
      Rows.deleteWhere (mid.trimmed n keep) mid.configRevisions := by
  have hinv' : mid.RollbackInv := ⟨hinv.wf.insertRevision hins, hinv.pins.insertRevision hins⟩
  obtain ⟨hmem, hmax⟩ := inserted_max hinv hins
  by_cases hk : 0 ≤ keep
  · refine (mem_deleteWhere_trimmed hinv' hk _).mpr ⟨hmem, fun _ => .inl ?_⟩
    rw [newerThan_eq_zero fun s hs _ => hmax s hs]
    obtain hlt | ⟨p, hp, -⟩ := ((mem_deleteWhere_trimmed hinv' hk r).mp hkept).2 hnode
    · omega
    · rw [hpin] at hp
      cases hp
  · -- a negative limit is none
    refine List.mem_filter.mpr ⟨hmem, ?_⟩
    have hdesc : (⟨db.revisionSeq + 1, n, rev, gen, payload⟩ : ConfigRevision) ∈
        mid.revisionsDesc n := mem_revisionsDesc.mpr ⟨hmem, rfl⟩
    have hid := List.mem_map_of_mem (f := ConfigRevision.id) hdesc
    simp [Db.trimmed, limitRows, not_le.mp hk, hid]

/-- Without a snapshot to reuse, a node that is not pinned is handed the revision
that was computed. -/
theorem build_recorded (hinv : db.HistoryInv digest) (hpin : db.getPin n = none)
    (hreuse : db.reusable n (db.builtRevision digest n now) now = none)
    (h : (buildDesiredState digest now n true keep).run db = (.ok st, db')) :
    st = { db.liveContent n with revision := db.builtRevision digest n now, generatedAt := now } ∧
      db' = db.recorded n (db.builtRevision digest n now) now (db.liveContent n) keep := by
  obtain ⟨-, built, ⟨hsome, -⟩ | ⟨-, hbuilt, hdb⟩, hst⟩ := build_ok h
  · rw [show computeRevision digest (db.liveContent n) now = db.builtRevision digest n now from rfl,
      hreuse] at hsome
    cases hsome
  · have hpin' : db'.getPin n = none := by
      refine getPin_of_getPinRow ?_
      rw [hdb, getPinRow_recorded]
      exact getPinRow_of_getPin hinv.rollback hpin
    rw [hpin', hbuilt] at hst
    exact ⟨hst, hdb⟩

/-- The rows such a build leaves, when its revision was recorded before. -/
theorem recorded_found {content : DesiredContent} {rev gen : Str} {r : ConfigRevision}
    (hfound : db.getByRevision n rev = some r) :
    (db.recorded n rev gen content keep) = { db with
      configRevisions := Rows.deleteWhere (db.trimmed n keep) db.configRevisions } := by
  obtain hsame | ⟨hnone, -⟩ := after_record db n rev gen
    { content with revision := rev, generatedAt := gen }
  · rw [Db.recorded, hsame]
    rfl
  · rw [hfound] at hnone
    cases hnone

/-- **A build of a node that is not pinned**: it reuses the newest snapshot,
records one that becomes the newest, or finds its revision recorded. -/
theorem build_unpinned (hinv : db.HistoryInv digest) (hpin : db.getPin n = none) (hk : 1 ≤ keep)
    (h : (buildDesiredState digest now n true keep).run db = (.ok st, db')) :
    (∃ r, db.newestRevision n = some r ∧
      digestOfRevision r.revision = digestOfRevision (db.builtRevision digest n now) ∧ db' = db ∧
      st = { db.liveContent n with revision := r.revision, generatedAt := r.generatedAt }) ∨
    db.reusable n (db.builtRevision digest n now) now = none ∧
      st = { db.liveContent n with
        revision := db.builtRevision digest n now, generatedAt := now } ∧
      ((db.getByRevision n (db.builtRevision digest n now) = none ∧
          ∃ r, db'.newestRevision n = some r ∧ r.revision = st.revision ∧ r.generatedAt = now ∧
            r.payload = st) ∨
        ∃ r, db.getByRevision n (db.builtRevision digest n now) = some r ∧
          ∀ s, s ∈ db'.configRevisions ↔
            s ∈ db.configRevisions ∧ (s.nodeId = n → (db.newerThan s : Int) < keep)) := by
  have hrow : db.getPinRow n = none := getPinRow_of_getPin hinv.rollback hpin
  cases hreuse : db.reusable n (db.builtRevision digest n now) now with
  | some reused =>
      obtain ⟨-, built, ⟨hsome, hdb⟩ | ⟨hnone, -⟩, hst⟩ := build_ok h
      · obtain ⟨r, hnew, hbuilt, hd⟩ := newest_of_reusable hinv.rollback.wf.revisions hsome
        rw [hdb, hpin, hbuilt] at hst
        exact .inl ⟨r, hnew, hd, hdb, hst⟩
      · rw [Db.builtRevision, hnone] at hreuse
        cases hreuse
  | none =>
      obtain ⟨hst, hdb⟩ := build_recorded hinv hpin hreuse h
      refine .inr ⟨rfl, hst, ?_⟩
      cases hfound : db.getByRevision n (db.builtRevision digest n now) with
      | none =>
          left
          obtain ⟨⟨row, mid, hrec⟩, -⟩ := build_record h hreuse
          have hafter : mid = Call.after [] db (.record n (db.builtRevision digest n now) now
              { db.liveContent n with
                revision := db.builtRevision digest n now, generatedAt := now }) :=
            eval_record hrec
          have hrows : db' = { mid with
              configRevisions := Rows.deleteWhere (mid.trimmed n keep) mid.configRevisions } := by
            rw [hdb, hafter]
            rfl
          obtain ⟨rowId, hins⟩ := after_record_new hfound hrec
          have hnew := newest_inserted hinv.rollback hins hk
          rw [← hrows] at hnew
          exact ⟨rfl, _, hnew, by rw [hst], rfl, by rw [hst]⟩
      | some r =>
          right
          refine ⟨r, rfl, fun s => ?_⟩
          rw [hdb, recorded_found hfound]
          refine (mem_deleteWhere_trimmed hinv.rollback (by omega) s).trans ?_
          simp [hrow]

end Build

/-! ## rebuilding -/

/-- The action is a build of the node that records. -/
def RevisionAction.builds (nodeId : Str) : RevisionAction → Bool
  | .build m _ true _ => m == nodeId
  | _ => false

section Rebuild

variable {n : Str} {db db' : Db} {r : ConfigRevision}

theorem newest_insertRevision {m rev gen : Str} {payload : DesiredState} {rowId : Nat}
    (h : db.RollbackInv) (hm : m ≠ n) (hnew : db.newestRevision n = some r)
    (hr : db.insertRevision m rev gen payload = .ok (rowId, db')) :
    db'.newestRevision n = some r := by
  have hwf := h.wf.insertRevision hr
  obtain ⟨-, rfl⟩ := insertRevision_ok hr
  obtain ⟨⟨hmem, hnode⟩, hmax⟩ := (newestRevision_eq_some h.wf.revisions).mp hnew
  refine (newestRevision_eq_some hwf.revisions).mpr
    ⟨⟨List.mem_append_left _ hmem, hnode⟩, fun s hs hsn => ?_⟩
  obtain hs | hs := List.mem_append.mp hs
  · exact hmax s hs hsn
  · rw [List.mem_singleton.mp hs] at hsn
    exact absurd hsn hm

theorem newest_trim {m : Str} (h : db.RollbackInv) (hm : m ≠ n) (keep : Int)
    (hnew : db.newestRevision n = some r) :
    Db.newestRevision n { db with
      configRevisions := Rows.deleteWhere (db.trimmed m keep) db.configRevisions } = some r := by
  obtain ⟨⟨hmem, hnode⟩, hmax⟩ := (newestRevision_eq_some h.wf.revisions).mp hnew
  refine (newestRevision_eq_some (h.wf.trim m keep).revisions).mpr
    ⟨⟨List.mem_filter.mpr ⟨hmem, ?_⟩, hnode⟩, fun s hs hsn => ?_⟩
  · simp [Db.trimmed, hnode, Ne.symm hm]
  · exact hmax s (List.mem_of_mem_filter hs) hsn

/-- A build that records nothing leaves the database. -/
theorem build_unrecorded (now : Str) (keep : Int) :
    ((buildDesiredState digest now n false keep).run db).2 = db := by
  have hkeeps : Prog.Maintains (fun d => d = db) (buildDesiredState digest now n false keep) := by
    refine .bind (maintains_onConnection (preserves_readLive n)) fun content => ?_
    exact .pure _
  exact hkeeps db rfl

/-- Only builds of the node change its newest snapshot. -/
theorem newest_step {a : RevisionAction} (hinv : db.HistoryInv digest)
    (hnew : db.newestRevision n = some r) (hother : a.builds n = false)
    (hs : historyStep digest db a = some db') : db'.newestRevision n = some r := by
  cases a with
  | write w =>
      simp only [historyStep, Option.ite_none_left_eq_some] at hs
      rw [Db.newestRevision, Db.revisionsDesc,
        configRevisions_hubStep (Bool.eq_false_iff.mpr hs.1) hs.2]
      exact hnew
  | build m now record keep =>
      simp only [historyStep, Option.some.injEq] at hs
      rw [← hs]
      cases record with
      | false =>
          rw [build_unrecorded]
          exact hnew
      | true =>
          have hm : m ≠ n := by simpa [RevisionAction.builds] using hother
          have hkeeps : Prog.Maintains
              (fun d => d.HistoryInv digest ∧ d.newestRevision n = some r)
              (buildDesiredState digest now m true keep) :=
            maintains_build
              (fun _ _ _ _ hw hr => ⟨hw.1.insertRevision hr,
                newest_insertRevision hw.1.rollback hm hw.2 hr⟩)
              (fun _ hw => ⟨hw.1.trim m keep, newest_trim hw.1.rollback hm keep hw.2⟩) true
          exact (hkeeps db ⟨hinv, hnew⟩).2

/-- A build that reuses a snapshot returns, and writes nothing. -/
theorem build_reuses {now : Str} {keep : Int} {built : Str × Str}
    (hb : params [.text n] = none)
    (hreuse : db.reusable n (db.builtRevision digest n now) now = some built)
    (hpin : db.getPin n = none) :
    (buildDesiredState digest now n true keep).run db =
      (.ok { db.liveContent n with revision := built.1, generatedAt := built.2 }, db) := by
  have hlive : (onConnection (readLive n)).run db = (.ok (db.liveContent n), db) :=
    eval_readLive db hb
  have hrecord : (onConnection (recordBuild n (db.builtRevision digest n now) now
      (db.liveContent n) keep)).run db = (.ok (built, none), db) := by
    refine eval_eq_ok.mpr ⟨⟨db, db, false, none, false⟩, ?_, rfl⟩
    rw [recordBuild, Prog.run_bind_ok (run_reusableSnapshot_eq hb ..), hreuse]
    dsimp only
    rw [Prog.run_bind_ok (Prog.run_pure ..), Prog.run_bind_ok (run_getPin hb ..), hpin]
    rfl
  rw [buildDesiredState, Prog.run_bind_ok hlive]
  simp only [if_true]
  rw [show computeRevision digest (db.liveContent n) now = db.builtRevision digest n now from rfl,
    Prog.run_bind_ok hrecord]
  rfl

/-- A snapshot is found recorded, and none is trimmed. -/
theorem run_recordSnapshot_finds {now : Str} {keep : Int}
    (hb : params [.text n, .text (db.builtRevision digest n now)] = none)
    (hfinds : db.FindsBuilt digest n now keep) (content : DesiredContent) :
    (recordSnapshot n (db.builtRevision digest n now) now content keep).run
        ⟨db, db, false, none, false⟩ =
      (.ok (db.builtRevision digest n now, now), ⟨db, db, false, none, false⟩) := by
  have hn : params [.text n] = none := params_of_subset hb (by simp)
  obtain ⟨r, hfound⟩ := Option.isSome_iff_exists.mp hfinds.recorded
  have hrow : (RevisionStore.record n (db.builtRevision digest n now) now
      { content with revision := db.builtRevision digest n now, generatedAt := now }).run
        ⟨db, db, false, none, false⟩ = (.ok r, ⟨db, db, false, none, false⟩) := by
    rw [RevisionStore.record, RevisionStore.getByRevision, hb,
      Prog.run_bind_ok (run_queryOr_none ..), hfound]
    rfl
  have hall : Rows.deleteWhere (db.trimmed n keep) db.configRevisions = db.configRevisions :=
    List.filter_eq_self.mpr fun s hs => by rw [hfinds.keepsAll s hs]; rfl
  have hkept : Call.after [] db (.trim n keep) = db :=
    calc Call.after [] db (.trim n keep)
        = { db with configRevisions := Rows.deleteWhere (db.trimmed n keep) db.configRevisions } :=
          rfl
      _ = db := by rw [hall]
  obtain ⟨k, d, hd, htrim⟩ := run_trim_ok hn hfinds.bound db
  rw [hd, hkept] at htrim
  rw [recordSnapshot, Prog.run_bind_ok hrow, Prog.run_bind_ok htrim]
  rfl

/-- A build that finds its revision returns it, and writes nothing. -/
theorem build_finds {now : Str} {keep : Int}
    (hb : params [.text n, .text (db.builtRevision digest n now)] = none)
    (hreuse : db.reusable n (db.builtRevision digest n now) now = none)
    (hpin : db.getPin n = none) (hfinds : db.FindsBuilt digest n now keep) :
    (buildDesiredState digest now n true keep).run db =
      (.ok { db.liveContent n with
        revision := db.builtRevision digest n now, generatedAt := now }, db) := by
  have hn : params [.text n] = none := params_of_subset hb (by simp)
  have hlive : (onConnection (readLive n)).run db = (.ok (db.liveContent n), db) :=
    eval_readLive db hn
  have hrecord : (onConnection (recordBuild n (db.builtRevision digest n now) now
      (db.liveContent n) keep)).run db =
        (.ok ((db.builtRevision digest n now, now), none), db) := by
    refine eval_eq_ok.mpr ⟨⟨db, db, false, none, false⟩, ?_, rfl⟩
    rw [recordBuild, Prog.run_bind_ok (run_reusableSnapshot_eq hn ..), hreuse]
    dsimp only
    rw [Prog.run_bind_ok (run_recordSnapshot_finds hb hfinds _),
      Prog.run_bind_ok (run_getPin hn ..), hpin]
    rfl
  rw [buildDesiredState, Prog.run_bind_ok hlive]
  simp only [if_true]
  rw [show computeRevision digest (db.liveContent n) now = db.builtRevision digest n now from rfl,
    Prog.run_bind_ok hrecord]
  rfl

/-- After a build that records newest, the newest snapshot is what it returned. -/
theorem newest_of_build (hhex : HexDigest digest) {now : Str} {keep : Int} {st : DesiredState}
    (hinv : db.HistoryInv digest) (hpin : db.getPin n = none) (hk : 1 ≤ keep)
    (hnewest : db.RecordsNewest digest n now)
    (h : (buildDesiredState digest now n true keep).run db = (.ok st, db')) :
    ∃ r, db'.newestRevision n = some r ∧ r.revision = st.revision ∧
      r.generatedAt = st.generatedAt ∧ Names digest r.revision (db.liveContent n) := by
  have hnames := names_computeRevision hhex (db.liveContent n) now
  obtain ⟨r, hnew, hd, rfl, rfl⟩ | ⟨hreuse, hst, ⟨-, r, hnew, hrev, hgen, -⟩ | ⟨r, hfound, -⟩⟩ :=
    build_unpinned hinv hpin hk h
  · exact ⟨r, hnew, rfl, rfl, hd.trans hnames⟩
  · refine ⟨r, hnew, hrev, ?_, ?_⟩
    · rw [hgen, hst]
    · rw [hrev, hst]
      exact hnames
  · -- the revision is recorded, and is not the newest
    obtain hsome | hnone := hnewest
    · rw [hreuse] at hsome
      cases hsome
    · rw [hfound] at hnone
      cases hnone

/-- After any other build, the snapshot that was the newest is the newest still,
and has another content. -/
theorem newest_of_stale_build {now : Str} {keep : Int} {st : DesiredState}
    (hinv : db.HistoryInv digest) (hpin : db.getPin n = none) (hk : 1 ≤ keep)
    (hstale : ¬ db.RecordsNewest digest n now)
    (h : (buildDesiredState digest now n true keep).run db = (.ok st, db')) :
    st.revision = db.builtRevision digest n now ∧ st.generatedAt = now ∧
      ∃ r, db'.newestRevision n = some r ∧
        digestOfRevision r.revision ≠ digestOfRevision (db.builtRevision digest n now) := by
  have hinv' : db'.HistoryInv digest := by
    have hbuild := @historyInv_build digest n now true keep db hinv
    rw [h] at hbuild
    exact hbuild
  obtain ⟨r, hnew, hd, -⟩ | ⟨hreuse, hst, ⟨hnone, -⟩ | ⟨r, hfound, hrows⟩⟩ :=
    build_unpinned hinv hpin hk h
  · refine absurd (.inl ?_) hstale
    rw [reusable_of_newest hinv.rollback.wf.revisions hnew hd]
    rfl
  · exact absurd (.inr hnone) hstale
  · refine ⟨by rw [hst], by rw [hst], ?_⟩
    cases hnew : db.newestRevision n with
    | none =>
        -- the node has a snapshot, so one is the newest
        have hmem : r ∈ db.revisionsDesc n :=
          mem_revisionsDesc.mpr ⟨(getByRevision_mem hfound).1, nodeId_of_getByRevision hfound⟩
        rw [List.head?_eq_none_iff.mp hnew] at hmem
        cases hmem
    | some q =>
        obtain ⟨⟨hq, hnode⟩, hmax⟩ := (newestRevision_eq_some hinv.rollback.wf.revisions).mp hnew
        have hzero : db.newerThan q = 0 :=
          newerThan_eq_zero fun s hs hsn => hmax s hs (hsn.trans hnode)
        refine ⟨q, (newestRevision_eq_some hinv'.rollback.wf.revisions).mpr
          ⟨⟨(hrows q).mpr ⟨hq, fun _ => by omega⟩, hnode⟩,
            fun s hs hsn => hmax s ((hrows s).mp hs).1 hsn⟩, fun hd => ?_⟩
        rw [reusable_of_newest hinv.rollback.wf.revisions hnew hd] at hreuse
        cases hreuse

/-- Such a build has looked its revision up. -/
theorem bound_of_stale_build {now : Str} {keep : Int} {st : DesiredState}
    (h : (buildDesiredState digest now n true keep).run db = (.ok st, db'))
    (hstale : ¬ db.RecordsNewest digest n now) :
    params [.text n, .text (db.builtRevision digest n now)] = none := by
  have hreuse : db.reusable n (db.builtRevision digest n now) now = none :=
    Option.not_isSome_iff_eq_none.mp fun hsome => hstale (.inl hsome)
  obtain ⟨⟨row, mid, hrec⟩, -⟩ := build_record h hreuse
  obtain ⟨c', hrun, -⟩ := eval_eq_ok.mp hrec
  exact (bind_queryOr hrun).1

/-- A build that records and leaves the snapshots has found its revision. -/
theorem findsBuilt_of_build {now : Str} {keep : Int} {st : DesiredState}
    (hinv : db.HistoryInv digest) (hpin : db.getPin n = none)
    (hnew : db.newestRevision n = some r)
    (hreuse : db.reusable n (db.builtRevision digest n now) now = none)
    (h : (buildDesiredState digest now n true keep).run db = (.ok st, db'))
    (hsame : db'.configRevisions = db.configRevisions) : db.FindsBuilt digest n now keep := by
  obtain ⟨⟨row, mid, hrec⟩, hbound⟩ := build_record h hreuse
  obtain ⟨-, hdb⟩ := build_recorded hinv hpin hreuse h
  cases hfound : db.getByRevision n (db.builtRevision digest n now) with
  | some found =>
      rw [recorded_found hfound] at hdb
      rw [hdb] at hsame
      refine ⟨by rw [hfound]; rfl, hbound, fun s hs => ?_⟩
      simpa using List.filter_eq_self.mp hsame s hs
  | none =>
      -- the new snapshot would be there, or the trim would have taken all
      obtain ⟨rowId, hins⟩ := after_record_new hfound hrec
      have hrows : db'.configRevisions =
          Rows.deleteWhere (mid.trimmed n keep) mid.configRevisions := by
        have hafter := @eval_record [] _ _ _ _ _ _ _ hrec
        rw [hdb, hafter]
        rfl
      have hpinRow : mid.getPinRow n = none := by
        obtain ⟨-, hmid⟩ := insertRevision_ok hins
        have hrow : db.getPinRow n = none := getPinRow_of_getPin hinv.rollback hpin
        rw [hmid]
        exact hrow
      obtain ⟨⟨hr, hnode⟩, -⟩ := (newestRevision_eq_some hinv.rollback.wf.revisions).mp hnew
      have hin := inserted_kept hinv.rollback hins hpinRow hnode (by rwa [← hrows, hsame])
      rw [← hrows, hsame] at hin
      exact absurd (hinv.rollback.wf.revisions.bounded _ hin) (Nat.not_succ_le_self _)

/-- **Rebuilding unchanged content changes nothing**, whatever happens to other
nodes and between contents, exactly when the first build records newest or the
second one finds what it built, within the same second.  Then the second build
leaves the database as it is. -/
theorem rebuild_unchanged (hhex : HexDigest digest) {now₁ : Str} {keep₁ : Int} (now₂ : Str)
    (keep₂ : Int) {db₀ db₁ db₂ : Db} {st₁ : DesiredState} {as : List RevisionAction}
    (hreach : Machine.Reachable (historyStep digest) Db.empty db₀)
    (hpin₀ : db₀.getPin n = none) (hkeep : 1 ≤ keep₁)
    (hfirst : (buildDesiredState digest now₁ n true keep₁).run db₀ = (.ok st₁, db₁))
    (hbetween : Machine.exec (historyStep digest) db₁ as = some db₂)
    (hconsecutive : ∀ a ∈ as, a.builds n = false)
    (hpin₂ : db₂.getPin n = none) (hsame : db₂.liveContent n = db₀.liveContent n) :
    (db₂.Rebuilds digest n now₂ keep₂ st₁ ↔ db₀.RecordsNewest digest n now₁ ∨
      now₂ = now₁ ∧ db₂.FindsBuilt digest n now₂ keep₂) ∧
    (db₂.Rebuilds digest n now₂ keep₂ st₁ →
      ((buildDesiredState digest now₂ n true keep₂).run db₂).2 = db₂) := by
  have hinv₀ : db₀.HistoryInv digest := historyInv_of_reachable hreach
  have hinv₁ : db₁.HistoryInv digest := by
    have hbuild := @historyInv_build digest n now₁ true keep₁ db₀ hinv₀
    rw [hfirst] at hbuild
    exact hbuild
  have hstep : ∀ r d a d', (d.HistoryInv digest ∧ d.newestRevision n = some r) →
      a.builds n = false → historyStep digest d a = some d' →
      d'.HistoryInv digest ∧ d'.newestRevision n = some r :=
    fun r d a d' hd ha hs => ⟨historyInv_step hd.1 hs, newest_step hd.1 hd.2 ha hs⟩
  have hnames : Names digest (db₂.builtRevision digest n now₂) (db₀.liveContent n) := by
    rw [Db.builtRevision, hsame]
    exact names_computeRevision hhex _ _
  by_cases hnewest : db₀.RecordsNewest digest n now₁
  · obtain ⟨r, hnew, hrev, hgen, hnamed⟩ := newest_of_build hhex hinv₀ hpin₀ hkeep hnewest hfirst
    obtain ⟨hinv₂, hnew₂⟩ := Machine.exec_invariant _ (hstep r) ⟨hinv₁, hnew⟩
      (Machine.along_of_forall _ hconsecutive) hbetween
    have hreuse : db₂.reusable n (db₂.builtRevision digest n now₂) now₂ =
        some (r.revision, r.generatedAt) :=
      reusable_of_newest hinv₂.rollback.wf.revisions hnew₂ (hnamed.trans hnames.symm)
    have hsecond : (buildDesiredState digest now₂ n true keep₂).run db₂ =
        (.ok { db₂.liveContent n with revision := r.revision, generatedAt := r.generatedAt },
          db₂) :=
      build_reuses (build_ok hfirst).1 hreuse hpin₂
    exact ⟨iff_of_true ⟨_, _, hsecond, hrev, hgen, rfl⟩ (.inl hnewest), fun _ => by rw [hsecond]⟩
  · obtain ⟨hrev, hgen, r, hnew, hd⟩ := newest_of_stale_build hinv₀ hpin₀ hkeep hnewest hfirst
    obtain ⟨hinv₂, hnew₂⟩ := Machine.exec_invariant _ (hstep r) ⟨hinv₁, hnew⟩
      (Machine.along_of_forall _ hconsecutive) hbetween
    have hreuse : db₂.reusable n (db₂.builtRevision digest n now₂) now₂ = none := by
      cases hsome : db₂.reusable n (db₂.builtRevision digest n now₂) now₂ with
      | none => rfl
      | some reused =>
          obtain ⟨q, hq, -, hqd⟩ := newest_of_reusable hinv₂.rollback.wf.revisions hsome
          rw [hnew₂, Option.some.injEq] at hq
          exact absurd (hq ▸ hqd.trans (hnames.trans (names_computeRevision hhex _ _).symm)) hd
    have hfound : now₂ = now₁ ∧ db₂.FindsBuilt digest n now₂ keep₂ →
        (buildDesiredState digest now₂ n true keep₂).run db₂ = (.ok { db₂.liveContent n with
          revision := db₂.builtRevision digest n now₂, generatedAt := now₂ }, db₂) := by
      rintro ⟨rfl, hfinds⟩
      refine build_finds ?_ hreuse hpin₂ hfinds
      rw [Db.builtRevision, hsame]
      exact bound_of_stale_build hfirst hnewest
    have hiff : db₂.Rebuilds digest n now₂ keep₂ st₁ ↔
        now₂ = now₁ ∧ db₂.FindsBuilt digest n now₂ keep₂ := by
      constructor
      · rintro ⟨st₂, db₃, hsecond, -, hgen₂, hrows⟩
        obtain ⟨hst₂, -⟩ := build_recorded hinv₂ hpin₂ hreuse hsecond
        refine ⟨?_, findsBuilt_of_build hinv₂ hpin₂ hnew₂ hreuse hsecond hrows⟩
        rw [← hgen, ← hgen₂, hst₂]
      · intro h
        refine ⟨_, _, hfound h, ?_, ?_, rfl⟩
        · rw [hrev, Db.builtRevision, Db.builtRevision, hsame, h.1]
        · rw [hgen, h.1]
    refine ⟨hiff.trans (or_iff_right hnewest).symm, fun h => ?_⟩
    rw [hfound (hiff.mp h)]

end Rebuild

/-! ## rolling back to what was handed out -/

/-- The contents a build compares: the recorded ones and the live one. -/
def Db.contents (db : Db) (n : Str) : Set DesiredContent :=
  {c | (∃ r ∈ db.configRevisions, r.payload.toDesiredContent = c) ∨ c = db.liveContent n}

/-- The node is pinned, or its newest snapshot is reused, or the computed
revision is not one that the trim of this build evicts. -/
def Db.KeepsBuilt (digest : DesiredContent → Str) (db : Db) (n now : Str) (keep : Int) : Prop :=
  (db.getPin n).isSome ∨ (db.reusable n (db.builtRevision digest n now) now).isSome ∨
    ∀ r, db.getByRevision n (db.builtRevision digest n now) = some r →
      (db.newerThan r : Int) < keep

section HandedOut

variable {n now : Str} {keep : Int} {db db' : Db} {st : DesiredState} {r : ConfigRevision}

theorem ConfigRevision.Exact.names (hhex : HexDigest digest) (h : r.Exact digest) :
    Names digest r.revision r.payload.toDesiredContent := by
  rw [h.computed]
  exact names_computeRevision hhex _ _

/-- A snapshot whose revision carries the digest of the live content holds it. -/
theorem content_of_names (hinj : Set.InjOn digest (db.contents n)) (hhex : HexDigest digest)
    (hr : r ∈ db.configRevisions) (hexact : r.Exact digest)
    (hnames : Names digest r.revision (db.liveContent n)) :
    r.payload.toDesiredContent = db.liveContent n := by
  have hdigest : digest r.payload.toDesiredContent = digest (db.liveContent n) := by
    have hown := hexact.names hhex
    rw [Names] at hown hnames
    exact Option.some.inj (hown.symm.trans hnames)
  exact hinj (.inl ⟨r, hr, rfl⟩) (.inr rfl) hdigest

/-- A snapshot is its content, its revision and its time. -/
theorem ConfigRevision.Exact.payload_eq (h : r.Exact digest) {content : DesiredContent}
    (hcontent : r.payload.toDesiredContent = content) :
    r.payload = { content with revision := r.revision, generatedAt := r.generatedAt } := by
  rw [← h.revision, ← h.generatedAt, ← hcontent]

/-- A snapshot under the computed revision is the state being built. -/
theorem payload_of_builtRevision (hinj : Set.InjOn digest (db.contents n))
    (hhex : HexDigest digest) (hr : r ∈ db.configRevisions) (hexact : r.Exact digest)
    (hrev : r.revision = db.builtRevision digest n now) :
    r.payload = { db.liveContent n with
      revision := db.builtRevision digest n now, generatedAt := now } := by
  have hcontent : r.payload.toDesiredContent = db.liveContent n := by
    refine content_of_names hinj hhex hr hexact ?_
    rw [hrev]
    exact names_computeRevision hhex _ _
  have hgen : r.generatedAt = now := by
    have hcomputed := hexact.computed
    rw [hrev, hcontent, Db.builtRevision, computeRevision, computeRevision] at hcomputed
    exact (List.append_cancel_right hcomputed).symm
  rw [hexact.payload_eq hcontent, hrev, hgen]

/-- A pinned snapshot is handed out, and a trim leaves it. -/
theorem found_pinned {pin : ConfigRevision} (hexact : pin.Exact digest)
    (hpin : db.getPin n = some pin)
    (h : (buildDesiredState digest now n true keep).run db = (.ok st, db')) :
    db'.getByRevision n st.revision = some pin ∧ pin.payload = st := by
  obtain ⟨-, built, hcases, hst⟩ := build_ok h
  have hpin' : db'.getPin n = some pin := by
    obtain ⟨-, rfl⟩ | ⟨-, -, rfl⟩ := hcases
    · exact hpin
    · exact getPin_recorded hpin
  have hst' : st = pin.payload := by rw [hst, hpin']
  obtain ⟨p, -, hrow⟩ := Option.bind_eq_some_iff.mp hpin'
  have hrev : st.revision = p.revision := by
    rw [hst', hexact.revision]
    exact (getByRevision_mem hrow).2
  exact ⟨by rw [hrev]; exact hrow, hst'.symm⟩

/-- A snapshot that is reused is recorded. -/
theorem found_reused (hhex : HexDigest digest) (hinv : db.HistoryInv digest)
    (hinj : Set.InjOn digest (db.contents n)) (hnew : db.newestRevision n = some r)
    (hd : digestOfRevision r.revision = digestOfRevision (db.builtRevision digest n now)) :
    db.getByRevision n r.revision = some r ∧
      r.payload =
        { db.liveContent n with revision := r.revision, generatedAt := r.generatedAt } := by
  have hwf := hinv.rollback.wf.revisions
  obtain ⟨⟨hr, hnode⟩, -⟩ := (newestRevision_eq_some hwf).mp hnew
  have hnames : Names digest r.revision (db.liveContent n) :=
    hd.trans (names_computeRevision hhex _ now)
  have hexact := hinv.exact r hr
  refine ⟨?_, hexact.payload_eq (content_of_names hinj hhex hr hexact hnames)⟩
  rw [← hnode]
  exact hwf.getByRevision_eq hr

/-- A revision that was recorded before is found when its row, as old as it was,
is left by the trim. -/
theorem found_recorded_iff (hhex : HexDigest digest) (hinv : db.HistoryInv digest)
    (hinv' : db'.HistoryInv digest) (hinj : Set.InjOn digest (db.contents n))
    (hfound : db.getByRevision n (db.builtRevision digest n now) = some r)
    (hrows : ∀ s, s ∈ db'.configRevisions ↔
      s ∈ db.configRevisions ∧ (s.nodeId = n → (db.newerThan s : Int) < keep)) :
    (∃ row, db'.getByRevision n (db.builtRevision digest n now) = some row ∧
      row.payload = { db.liveContent n with
        revision := db.builtRevision digest n now, generatedAt := now }) ↔
      (db.newerThan r : Int) < keep := by
  obtain ⟨hr, hrev⟩ := getByRevision_mem hfound
  have hnode : r.nodeId = n := nodeId_of_getByRevision hfound
  constructor
  · rintro ⟨row, hrow, -⟩
    obtain ⟨hmem, hrowRev⟩ := getByRevision_mem hrow
    have hrowNode : row.nodeId = n := nodeId_of_getByRevision hrow
    obtain ⟨hin, hnewer⟩ := (hrows row).mp hmem
    have heq : some row = some r := by
      rw [← hinv.rollback.wf.revisions.getByRevision_eq hin, hrowNode, hrowRev]
      exact hfound
    rw [← Option.some.inj heq]
    exact hnewer hrowNode
  · intro hnewer
    have hmem : r ∈ db'.configRevisions := (hrows r).mpr ⟨hr, fun _ => hnewer⟩
    refine ⟨r, ?_, payload_of_builtRevision hinj hhex hr (hinv.exact r hr) hrev⟩
    rw [← hrev, ← hnode]
    exact hinv'.rollback.wf.revisions.getByRevision_eq hmem

/-- **Every revision handed out can be rolled back to**, exactly when the build
keeps what it hands out. -/
theorem handed_out_found_iff (hhex : HexDigest digest)
    (hreach : Machine.Reachable (historyStep digest) Db.empty db)
    (hinj : Set.InjOn digest (db.contents n)) (hk : 1 ≤ keep)
    (h : (buildDesiredState digest now n true keep).run db = (.ok st, db')) :
    (∃ row, db'.getByRevision n st.revision = some row ∧ row.payload = st) ↔
      db.KeepsBuilt digest n now keep := by
  have hinv : db.HistoryInv digest := historyInv_of_reachable hreach
  have hinv' : db'.HistoryInv digest := by
    have hbuild := @historyInv_build digest n now true keep db hinv
    rw [h] at hbuild
    exact hbuild
  cases hpin : db.getPin n with
  | some pin =>
      exact iff_of_true ⟨pin, found_pinned (hinv.exact pin (getPin_mem hpin)) hpin h⟩
        (.inl (by rw [hpin]; rfl))
  | none =>
      obtain ⟨r, hnew, hd, rfl, rfl⟩ | ⟨hreuse, hst, ⟨hfresh, r, hnew, hrev, -, hpayload⟩ |
        ⟨r, hfound, hrows⟩⟩ := build_unpinned hinv hpin hk h
      · refine iff_of_true ⟨r, found_reused hhex hinv hinj hnew hd⟩ (.inr (.inl ?_))
        rw [reusable_of_newest hinv.rollback.wf.revisions hnew hd]
        rfl
      · -- a new snapshot is the newest one
        have hwf := hinv'.rollback.wf.revisions
        obtain ⟨⟨hr, hnode⟩, -⟩ := (newestRevision_eq_some hwf).mp hnew
        refine iff_of_true ⟨r, ?_, hpayload⟩ (.inr (.inr fun s hs => ?_))
        · rw [← hrev, ← hnode]
          exact hwf.getByRevision_eq hr
        · rw [hfresh] at hs
          cases hs
      · rw [hst]
        refine (found_recorded_iff hhex hinv hinv' hinj hfound hrows).trans
          ⟨fun hnewer => .inr (.inr fun s hs => ?_), ?_⟩
        · rw [hfound, Option.some.injEq] at hs
          rw [← hs]
          exact hnewer
        · rintro (hsome | hsome | hkeeps)
          · rw [hpin] at hsome
            cases hsome
          · rw [hreuse] at hsome
            cases hsome
          · exact hkeeps r hfound

end HandedOut

/-! ### a content that comes back within a second -/

/-- The second in which a node gets an address and loses it again. -/
def sampleSecond : Str := lit "2026-05-18T10:00:00+00:00"

def nextSecond : Str := lit "2026-05-18T10:00:01+00:00"

/-- A node is added and built, gets an address and is built, and loses the
address. -/
def backAndForth : List RevisionAction :=
  [.write ⟨.call (.addNode (lit "a") (lit "alpha")), sampleSecond, none, false⟩,
    .build (lit "a") sampleSecond true 50,
    .write ⟨.call (.setAddresses (lit "a") .unset (.set (some (lit "fd00::1"))) .unset),
      sampleSecond, none, false⟩,
    .build (lit "a") sampleSecond true 50,
    .write ⟨.call (.setAddresses (lit "a") .unset (.set none) .unset), sampleSecond, none, false⟩]

def historyRun (as : List RevisionAction) : Db :=
  (Machine.exec (historyStep sampleDigest) Db.empty as).getD Db.empty

def sampleBuild (now : Str) (keep : Int) (db : Db) :
    Except (Exc PyError) DesiredState × Db :=
  (buildDesiredState sampleDigest now (lit "a") true keep).run db

theorem reachable_backAndForth :
    Machine.Reachable (historyStep sampleDigest) Db.empty (historyRun backAndForth) :=
  ⟨backAndForth, rfl⟩

/-- Collisions among finitely many contents can be decided. -/
theorem injOn_contents {db : Db} {n : Str}
    (h : ∀ c ∈ db.liveContent n :: db.configRevisions.map (·.payload.toDesiredContent),
      ∀ d ∈ db.liveContent n :: db.configRevisions.map (·.payload.toDesiredContent),
        digest c = digest d → c = d) : Set.InjOn digest (db.contents n) := by
  have hmem : ∀ c ∈ db.contents n,
      c ∈ db.liveContent n :: db.configRevisions.map (·.payload.toDesiredContent) := by
    rintro c (⟨r, hr, rfl⟩ | rfl)
    · exact List.mem_cons_of_mem _ (List.mem_map_of_mem hr)
    · exact List.mem_cons_self ..
  exact fun c hc d hd => h c (hmem c hc) d (hmem d hd)

theorem injOn_backAndForth :
    Set.InjOn sampleDigest ((historyRun backAndForth).contents (lit "a")) :=
  injOn_contents (by decide +kernel)

/-- What a build without an address returns. -/
def sampleState (now : Str) : DesiredState :=
  { nodeId := lit "a", bgpPeers := [], ibgpPeers := [], node := {},
    revision := now ++ lit "-7efbcf6b", generatedAt := now }

/-- The content is built, and built again a second later: another revision, and
one more row. -/
theorem rebuild_records_again :
    Machine.Reachable (historyStep sampleDigest) Db.empty (historyRun backAndForth) ∧
    HexDigest sampleDigest ∧
    Set.InjOn sampleDigest ((historyRun backAndForth).contents (lit "a")) ∧
    (historyRun backAndForth).getPin (lit "a") = none ∧
    ∃ st₁ db₁ st₂ db₂, sampleBuild sampleSecond 50 (historyRun backAndForth) = (.ok st₁, db₁) ∧
      db₁.getPin (lit "a") = none ∧
      db₁.liveContent (lit "a") = (historyRun backAndForth).liveContent (lit "a") ∧
      sampleBuild nextSecond 50 db₁ = (.ok st₂, db₂) ∧
      st₂.revision ≠ st₁.revision ∧ st₂.generatedAt ≠ st₁.generatedAt ∧
      db₂.configRevisions ≠ db₁.configRevisions := by
  refine ⟨reachable_backAndForth, hexDigest_sample, injOn_backAndForth, by decide +kernel,
    sampleState sampleSecond, _, sampleState nextSecond, _, Prod.ext rfl rfl, by decide +kernel,
    by decide +kernel, Prod.ext rfl rfl, by decide, by decide, by decide +kernel⟩

/-- Only one snapshot is kept: the revision is handed out, and its row is gone. -/
theorem handed_out_evicted :
    Machine.Reachable (historyStep sampleDigest) Db.empty (historyRun backAndForth) ∧
    HexDigest sampleDigest ∧
    Set.InjOn sampleDigest ((historyRun backAndForth).contents (lit "a")) ∧
    ∃ st db', sampleBuild sampleSecond 1 (historyRun backAndForth) = (.ok st, db') ∧
      db'.getByRevision (lit "a") st.revision = none := by
  refine ⟨reachable_backAndForth, hexDigest_sample, injOn_backAndForth,
    sampleState sampleSecond, _, Prod.ext rfl rfl, by decide +kernel⟩

/-- A node that is not built yet. -/
def addedOnly : List RevisionAction :=
  [.write ⟨.call (.addNode (lit "a") (lit "alpha")), sampleSecond, none, false⟩]

theorem reachable_addedOnly :
    Machine.Reachable (historyStep sampleDigest) Db.empty (historyRun addedOnly) :=
  ⟨addedOnly, rfl⟩

theorem rebuild_unchanged_sample :
    ∃ st₁ db₁ st₂, sampleBuild sampleSecond 50 (historyRun addedOnly) = (.ok st₁, db₁) ∧
      sampleBuild nextSecond 50 db₁ = (.ok st₂, db₁) ∧
      st₂.revision = st₁.revision ∧ st₂.generatedAt = st₁.generatedAt := by
  have hfirst : ∃ db₁, sampleBuild sampleSecond 50 (historyRun addedOnly) =
        (.ok (sampleState sampleSecond), db₁) ∧ db₁.getPin (lit "a") = none ∧
      db₁.liveContent (lit "a") = (historyRun addedOnly).liveContent (lit "a") :=
    ⟨_, Prod.ext rfl rfl, by decide +kernel, by decide +kernel⟩
  obtain ⟨db₁, hfirst, hpin, hlive⟩ := hfirst
  have hagain := rebuild_unchanged hexDigest_sample nextSecond 50 reachable_addedOnly
    (by decide +kernel) (by decide) hfirst rfl (List.forall_mem_nil _) hpin hlive
  have hrebuilds : db₁.Rebuilds sampleDigest (lit "a") nextSecond 50 (sampleState sampleSecond) :=
    hagain.1.mpr (.inl (.inr (by decide +kernel)))
  have hleaves : (sampleBuild nextSecond 50 db₁).2 = db₁ := hagain.2 hrebuilds
  obtain ⟨st₂, db₂, hsecond, hrev, hgen, -⟩ := hrebuilds
  have hsecond : sampleBuild nextSecond 50 db₁ = (.ok st₂, db₂) := hsecond
  rw [hsecond] at hleaves
  exact ⟨_, db₁, st₂, hfirst, by rw [hsecond, ← hleaves], hrev, hgen⟩

theorem handed_out_found_sample :
    ∃ st db' row, sampleBuild sampleSecond 1 (historyRun addedOnly) = (.ok st, db') ∧
      db'.getByRevision (lit "a") st.revision = some row ∧ row.payload = st := by
  have hbuild : ∃ db', sampleBuild sampleSecond 1 (historyRun addedOnly) =
      (.ok (sampleState sampleSecond), db') := ⟨_, Prod.ext rfl rfl⟩
  obtain ⟨db', hbuild⟩ := hbuild
  have hnone : (historyRun addedOnly).getByRevision (lit "a")
      ((historyRun addedOnly).builtRevision sampleDigest (lit "a") sampleSecond) = none := by
    decide +kernel
  obtain ⟨row, hrow, hpayload⟩ := (handed_out_found_iff hexDigest_sample reachable_addedOnly
    (injOn_contents (by decide +kernel)) (by decide) hbuild).mpr
      (.inr (.inr fun r hr => by rw [hnone] at hr; cases hr))
  exact ⟨_, db', row, hbuild, hrow, hpayload⟩

end Dn42Ctl
