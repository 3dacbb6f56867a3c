import Dn42Ctl.Events

/-!
# Build

What the two readers of a desired state return: the fingerprint is the digest
of the content a node receives, and a build returns that content under a
revision that carries its digest, leaving every node's content as it was.
-/

namespace Dn42Ctl

open Text Txn

/-! ## reads -/

/-- The newest recorded snapshot of a node. -/
def Db.newestRevision (nodeId : Str) (db : Db) : Option ConfigRevision :=
  (db.revisionsDesc nodeId).head?

/-- `_current_revision`: the pin's revision, or the newest recorded one. -/
def currentRevision (nodeId : Str) : DbTx (Option Str) := do
  match ← RevisionStore.getPin nodeId with
  | some pin => pure (some pin.revision)
  | none => RevisionStore.latestRevision nodeId

/-- What that reads. -/
def Db.currentRevision (nodeId : Str) (db : Db) : Option Str :=
  match db.getPin nodeId with
  | some pin => some pin.revision
  | none => (db.newestRevision nodeId).map ConfigRevision.revision

section Reads

variable {n : Str} (db : Db) (hb : params [.text n] = none)

include hb

theorem run_readLive (d w : Db) (t l : Bool) :
    (readLive n).run ⟨d, w, t, none, l⟩ = (.ok (w.liveContent n), ⟨d, w, t, none, l⟩) := by
  rw [readLive, Database.listBgpPeers, Database.listIbgpPeers, ManagedNodeStore.get, hb]
  rfl

theorem run_getPin (d w : Db) (t l : Bool) :
    (RevisionStore.getPin n).run ⟨d, w, t, none, l⟩ = (.ok (w.getPin n), ⟨d, w, t, none, l⟩) := by
  rw [RevisionStore.getPin, hb, Prog.run_bind_ok (run_queryOr_none ..), Db.getPin]
  cases w.getPinRow n with
  | none => rfl
  | some p =>
      dsimp only
      rw [RevisionStore.getStored, hb]
      rfl

theorem eval_readLive : eval (readLive n) db = (.ok (db.liveContent n), db) := by
  rw [eval, Conn.fresh, run_readLive hb]

theorem eval_currentRevision :
    eval (currentRevision n) db = (.ok (db.currentRevision n), db) := by
  rw [eval, Conn.fresh, currentRevision, Prog.run_bind_ok (run_getPin hb ..), Db.currentRevision]
  cases db.getPin n with
  | some pin => rfl
  | none =>
      rw [RevisionStore.latestRevision, hb]
      rfl

/-- The fingerprint is the digest of what the node receives. -/
theorem eval_fingerprint (digest : DesiredContent → Str) :
    eval (computeDesiredFingerprint digest n) db =
      (.ok ⟨n, digest (db.desiredContent n), (db.getPin n).map ConfigRevision.revision⟩, db) := by
  rw [eval, Conn.fresh, computeDesiredFingerprint, Prog.run_bind_ok (run_readLive hb ..),
    Prog.run_bind_ok (run_getPin hb ..), Db.desiredContent]
  cases db.getPin n <;> rfl

end Reads

/-- A fingerprint that returns has bound its parameter. -/
theorem bind_of_fingerprint {digest : DesiredContent → Str} {n : Str} {db db' : Db}
    {fp : DesiredFingerprint}
    (h : eval (computeDesiredFingerprint digest n) db = (.ok fp, db')) :
    params [.text n] = none := by
  obtain ⟨c', hrun, -⟩ := eval_eq_ok.mp h
  obtain ⟨live, c1, hlive, -⟩ := Prog.run_bind_eq_ok.mp hrun
  exact (bind_queryOr hlive).1

/-- A fingerprint that returns is the digest of the content the node receives. -/
theorem contentHash_of_fingerprint {digest : DesiredContent → Str} {n : Str} {db : Db}
    {fp : DesiredFingerprint} (h : (eval (computeDesiredFingerprint digest n) db).1 = .ok fp) :
    fp.contentHash = digest (db.desiredContent n) := by
  have hb : params [.text n] = none :=
    bind_of_fingerprint (Prod.ext h rfl)
  rw [eval_fingerprint db hb digest, Except.ok.injEq] at h
  rw [← h]

/-! ## the build -/

/-- The snapshot a build reuses instead of recording one. -/
def Db.reusable (nodeId revision generatedAt : Str) (db : Db) : Option (Str × Str) :=
  match db.newestRevision nodeId with
  | none => none
  | some previous =>
      if digestOfRevision previous.revision = digestOfRevision revision then
        match db.getByRevision nodeId previous.revision with
        | some existing => some (existing.revision, existing.generatedAt)
        | none => some (revision, generatedAt)
      else none

theorem run_reusableSnapshot {n rev gen : Str} {d w : Db} {t l : Bool}
    {reused : Option (Str × Str)} {c' : Conn Db}
    (h : (reusableSnapshot n rev gen).run ⟨d, w, t, none, l⟩ = (.ok reused, c')) :
    reused = w.reusable n rev gen ∧ c' = ⟨d, w, t, none, l⟩ := by
  obtain ⟨hb, h⟩ := bind_queryOr h
  rw [Db.reusable, Db.newestRevision]
  cases hnew : (w.revisionsDesc n).head? with
  | none =>
      simp only [hnew, Option.map_none, Prog.run_pure, Prod.mk.injEq, Except.ok.injEq] at h
      exact ⟨h.1.symm, h.2.symm⟩
  | some previous =>
      simp only [hnew, Option.map_some] at h
      by_cases hd : digestOfRevision previous.revision = digestOfRevision rev
      · simp only [if_pos hd] at h ⊢
        obtain ⟨-, h⟩ := bind_queryOr h
        cases hex : w.getByRevision n previous.revision with
        | some existing =>
            simp only [hex, Prog.run_pure, Prod.mk.injEq, Except.ok.injEq] at h
            exact ⟨h.1.symm, h.2.symm⟩
        | none =>
            simp only [hex, Prog.run_pure, Prod.mk.injEq, Except.ok.injEq] at h
            exact ⟨h.1.symm, h.2.symm⟩
      · simp only [if_neg hd, Prog.run_pure, Prod.mk.injEq, Except.ok.injEq] at h ⊢
        exact ⟨h.1.symm, h.2.symm⟩

/-- The database after a snapshot was recorded and the oldest were dropped. -/
def Db.recorded (nodeId revision generatedAt : Str) (content : DesiredContent) (keep : Int)
    (db : Db) : Db :=
  Call.after [] (Call.after [] db
    (.record nodeId revision generatedAt { content with revision, generatedAt }))
    (.trim nodeId keep)

/-- An atomic program that returns leaves a connection as if just opened. -/
theorem fresh_of_atomic {α : Type} {r : Bool} {m : DbTx α} (hm : Atomic r m) {db : Db} {a : α}
    {c' : Conn Db} (h : m.run ⟨db, db, false, none, false⟩ = (.ok a, c')) :
    c' = ⟨c'.committed, c'.committed, false, none, false⟩ ∧
      eval m db = (.ok a, c'.committed) := by
  have hclean : (⟨db, db, false, none, false⟩ : Conn Db).Clean := ⟨rfl, rfl⟩
  have hdisarm := hm.steady _ a c' h
  rw [show (⟨db, db, false, none, false⟩ : Conn Db).disarm = ⟨db, db, false, none, false⟩ from rfl,
    h, Prod.mk.injEq] at hdisarm
  have hfresh := Conn.disarm_eq_fresh (hm.ok _ a c' hclean h).1
  rw [← hdisarm.2] at hfresh
  exact ⟨hfresh, Atomic.eval_of_run hm.steady hclean h⟩

theorem run_recordSnapshot {n rev gen : Str} {content : DesiredContent} {keep : Int} {db : Db}
    {built : Str × Str} {c' : Conn Db}
    (h : (recordSnapshot n rev gen content keep).run ⟨db, db, false, none, false⟩ =
      (.ok built, c')) :
    built = (rev, gen) ∧ ∃ d, d = db.recorded n rev gen content keep ∧
      c' = ⟨d, d, false, none, false⟩ := by
  obtain ⟨row, c1, h1, h⟩ := Prog.run_bind_eq_ok.mp h
  obtain ⟨hc1, he1⟩ := fresh_of_atomic (atomic_record n rev gen _) h1
  rw [hc1] at h
  obtain ⟨deleted, c2, h2, h⟩ := Prog.run_bind_eq_ok.mp h
  obtain ⟨hc2, he2⟩ := fresh_of_atomic (atomic_trim n keep) h2
  rw [Prog.run_pure, Prod.mk.injEq, Except.ok.injEq] at h
  have hrecord : c1.committed = Call.after [] db
      (.record n rev gen { content with revision := rev, generatedAt := gen }) := eval_record he1
  have htrim : c2.committed = Call.after [] c1.committed (.trim n keep) := eval_trim he2
  refine ⟨h.1.symm, c2.committed, ?_, ?_⟩
  · rw [htrim, hrecord]
    rfl
  · rw [← h.2, ← hc2]

/-- The second half of a build, when it returns. -/
theorem eval_recordBuild {n rev gen : Str} {content : DesiredContent} {keep : Int} {db db' : Db}
    {built : Str × Str} {pin : Option ConfigRevision} (hb : params [.text n] = none)
    (h : eval (recordBuild n rev gen content keep) db = (.ok (built, pin), db')) :
    pin = db'.getPin n ∧
      (db.reusable n rev gen = some built ∧ db' = db ∨
        db.reusable n rev gen = none ∧ built = (rev, gen) ∧
          db' = db.recorded n rev gen content keep) := by
  obtain ⟨c', hrun, rfl⟩ := eval_eq_ok.mp h
  obtain ⟨reused, c1, h1, hrun⟩ := Prog.run_bind_eq_ok.mp hrun
  obtain ⟨hreused, rfl⟩ := run_reusableSnapshot h1
  cases hr : reused with
  | some snapshot =>
      rw [hr] at hrun hreused
      dsimp only at hrun
      rw [Prog.run_bind_ok (Prog.run_pure ..), Prog.run_bind_ok (run_getPin hb ..), Prog.run_pure,
        Prod.mk.injEq, Except.ok.injEq, Prod.mk.injEq] at hrun
      obtain ⟨⟨hbuilt, hpin⟩, hc⟩ := hrun
      rw [← hc]
      exact ⟨hpin.symm, .inl ⟨by rw [← hreused, hbuilt], rfl⟩⟩
  | none =>
      rw [hr] at hrun hreused
      dsimp only at hrun
      obtain ⟨built', c2, h2, hrun⟩ := Prog.run_bind_eq_ok.mp hrun
      obtain ⟨hbuilt', d, hd, hc2⟩ := run_recordSnapshot h2
      rw [hc2, Prog.run_bind_ok (run_getPin hb ..), Prog.run_pure, Prod.mk.injEq,
        Except.ok.injEq, Prod.mk.injEq] at hrun
      obtain ⟨⟨hbuilt, hpin⟩, hc⟩ := hrun
      rw [← hc]
      exact ⟨hpin.symm, .inr ⟨hreused.symm, by rw [← hbuilt, hbuilt'], hd⟩⟩

section Digest

variable {digest : DesiredContent → Str} {n now : Str} {keep : Int} {db db' : Db}
  {st : DesiredState}

/-- **The build**, when it returns: the live content is read, its snapshot is
reused or recorded, and the pin decides what the node gets. -/
theorem build_ok (h : (buildDesiredState digest now n true keep).run db = (.ok st, db')) :
    params [.text n] = none ∧ ∃ built : Str × Str,
      (db.reusable n (computeRevision digest (db.liveContent n) now) now = some built ∧ db' = db ∨
        db.reusable n (computeRevision digest (db.liveContent n) now) now = none ∧
          built = (computeRevision digest (db.liveContent n) now, now) ∧
          db' = db.recorded n (computeRevision digest (db.liveContent n) now) now
            (db.liveContent n) keep) ∧
      st = match db'.getPin n with
        | some pin => pin.payload
        | none => { db.liveContent n with revision := built.1, generatedAt := built.2 } := by
  obtain ⟨content, db1, h1, h⟩ := Prog.run_bind_eq_ok.mp h
  have hb : params [.text n] = none := by
    obtain ⟨c', hrun, -⟩ := eval_eq_ok.mp h1
    exact (bind_queryOr hrun).1
  have hlive : eval (readLive n) db = (.ok content, db1) := h1
  rw [eval_readLive db hb, Prod.mk.injEq, Except.ok.injEq] at hlive
  obtain ⟨rfl, rfl⟩ := hlive
  simp only [if_true] at h
  obtain ⟨result, db2, h2, h⟩ := Prog.run_bind_eq_ok.mp h
  obtain ⟨built, pin⟩ := result
  obtain ⟨hpin, hcases⟩ := eval_recordBuild hb h2
  have hdb : db2 = db' := by
    cases pin with
    | some p => exact congrArg Prod.snd h
    | none => exact congrArg Prod.snd h
  rw [hdb] at hcases hpin
  refine ⟨hb, built, hcases, ?_⟩
  rw [← hpin]
  cases pin with
  | some p => exact (Except.ok.inj (congrArg Prod.fst h)).symm
  | none => exact (Except.ok.inj (congrArg Prod.fst h)).symm

theorem events_record {rev gen : Str} {p : DesiredState} {mid : Db}
    {evs : List (Str × SyncKind)}
    (h : (Call.record n rev gen p).commit [] db = some (mid, evs)) : evs = [] :=
  Call.quiet_of_readsBack rfl rfl h

theorem events_trim {mid : Db} {evs : List (Str × SyncKind)}
    (h : (Call.trim n keep).commit [] db = some (mid, evs)) : evs = [] := by
  simp only [Call.commit, Option.some.injEq, Prod.mk.injEq] at h
  exact h.2.symm

/-- What a call without events leaves. -/
theorem after_quiet {c : Call} (hwf : db.WF) (hfu : c.fieldUpdate = none)
    (hevs : ∀ mid evs, c.commit [] db = some (mid, evs) → evs = []) :
    (c.after [] db).WF ∧ Frame c.writes db (c.after [] db) ∧
      ∀ m, (c.after [] db).desiredParts m = db.desiredParts m := by
  refine ⟨c.wf_after [] hwf, ?_⟩
  rw [Call.after]
  cases hc : c.commit [] db with
  | none => exact ⟨Frame.refl _ _, fun _ => rfl⟩
  | some done =>
      obtain ⟨mid, evs⟩ := done
      have hnil : evs = [] := hevs mid evs hc
      have hframe : Frame c.writes db mid := c.commit_frame hc
      have hparts : ∀ m, mid.desiredParts m = db.desiredParts m := fun m => by
        refine Call.desiredParts_commit hwf hc (by rw [hnil]; simp) fun f cs hx => ?_
        rw [hfu] at hx
        simp at hx
      rw [hnil]
      exact ⟨hframe, hparts⟩

/-- Recording a snapshot writes `config_revisions` and changes no node's parts. -/
theorem recorded_quiet {rev gen : Str} {content : DesiredContent} (hwf : db.WF) :
    (db.recorded n rev gen content keep).WF ∧
      Frame [.configRevisions] db (db.recorded n rev gen content keep) ∧
      ∀ m, (db.recorded n rev gen content keep).desiredParts m = db.desiredParts m := by
  have h1 := after_quiet
    (c := .record n rev gen { content with revision := rev, generatedAt := gen }) hwf rfl
    fun _ _ hc => events_record hc
  have h2 := after_quiet (c := .trim n keep) h1.1 rfl fun _ _ hc => events_trim hc
  exact ⟨h2.1, h1.2.1.trans h2.2.1, fun m => (h2.2.2 m).trans (h1.2.2 m)⟩

/-- A build keeps the database well formed and every node's parts, and writes
`config_revisions` only. -/
theorem build_quiet (hwf : db.WF)
    (h : (buildDesiredState digest now n true keep).run db = (.ok st, db')) :
    db'.WF ∧ Frame [.configRevisions] db db' ∧ ∀ m, db'.desiredParts m = db.desiredParts m := by
  obtain ⟨-, built, hcases, -⟩ := build_ok h
  rcases hcases with ⟨-, rfl⟩ | ⟨-, -, rfl⟩
  · exact ⟨hwf, Frame.refl _ _, fun _ => rfl⟩
  · exact recorded_quiet hwf

/-- A build returns the content the node receives. -/
theorem build_content (hwf : db.WF)
    (h : (buildDesiredState digest now n true keep).run db = (.ok st, db')) :
    st.toDesiredContent = db.desiredContent n := by
  have hparts := (build_quiet hwf h).2.2 n
  obtain ⟨-, built, -, hst⟩ := build_ok h
  rw [← desiredContent_of_parts hparts, Db.desiredContent, hst]
  have hlive : db'.liveContent n = db.liveContent n := congrArg Prod.fst hparts
  cases db'.getPin n with
  | some pin => rfl
  | none => exact hlive.symm

end Digest

/-! ## what a build keeps -/

theorem preserves_getPin {I : Db → Prop} (n : Str) : Preserves I (RevisionStore.getPin n) := by
  refine .bind (.queryOr _ _ _) fun row => ?_
  cases row with
  | none => exact .pure _
  | some p => exact .queryOr _ _ _

theorem preserves_readLive {I : Db → Prop} (n : Str) : Preserves I (readLive n) :=
  .bind (.queryOr _ _ _) fun _ => .bind (.queryOr _ _ _) fun _ =>
    .bind (.queryOr _ _ _) fun _ => .pure _

section Keeps

variable {I : Db → Prop} {n rev gen : Str} {content : DesiredContent} {keep : Int}

theorem preserves_record {payload : DesiredState}
    (hins : ∀ w rowId w', I w → w.insertRevision n rev gen payload = .ok (rowId, w') → I w') :
    Preserves I (RevisionStore.record n rev gen payload) := by
  refine .bind (.queryOr _ _ _) fun found => ?_
  cases found with
  | some existing => exact .pure _
  | none =>
      refine .bind (.guarded (.bind (.execute _ hins) fun _ =>
        .bind .commit fun _ => .pure _)) fun rowId => .bind (.queryOr _ _ _) fun row => ?_
      cases row with
      | some r => exact .pure _
      | none => exact .fail _

theorem preserves_trim
    (htrim : ∀ w, I w →
      I { w with configRevisions := Rows.deleteWhere (w.trimmed n keep) w.configRevisions }) :
    Preserves I (RevisionStore.trim n keep) := by
  refine .guarded (.bind (.execute _ fun w k w' hw hr => ?_) fun _ =>
    .bind .commit fun _ => .pure _)
  simp only [Except.ok.injEq, Prod.mk.injEq] at hr
  rw [← hr.2]
  exact htrim w hw

/-- The second half of a build keeps what its insert and its trim keep. -/
theorem preserves_recordBuild
    (hins : ∀ w rowId w', I w → w.insertRevision n rev gen
      { content with revision := rev, generatedAt := gen } = .ok (rowId, w') → I w')
    (htrim : ∀ w, I w →
      I { w with configRevisions := Rows.deleteWhere (w.trimmed n keep) w.configRevisions }) :
    Preserves I (recordBuild n rev gen content keep) := by
  have hpin : ∀ built : Str × Str, Preserves I
      (RevisionStore.getPin n >>= fun pin => pure (built, pin)) :=
    fun built => .bind (preserves_getPin n) fun pin => .pure _
  refine .bind (.bind (.queryOr _ _ _) fun previous => ?_) fun reused => ?_
  · cases previous with
    | none => exact .pure _
    | some rev' =>
        dsimp only
        split
        · refine .bind (.queryOr _ _ _) fun existing => ?_
          cases existing with
          | some e => exact .pure _
          | none => exact .pure _
        · exact .pure _
  · cases reused with
    | some snapshot => exact .bind (.pure _) hpin
    | none =>
        exact .bind (.bind (preserves_record hins) fun _ => .bind (preserves_trim htrim) fun _ =>
          .pure _) hpin

/-- A build keeps what recording its snapshot and trimming keep, whether it
returns or raises. -/
theorem maintains_build {digest : DesiredContent → Str} {now : Str}
    (hins : ∀ content w rowId w', I w → w.insertRevision n (computeRevision digest content now) now
      { content with revision := computeRevision digest content now, generatedAt := now } =
        .ok (rowId, w') → I w')
    (htrim : ∀ w, I w →
      I { w with configRevisions := Rows.deleteWhere (w.trimmed n keep) w.configRevisions })
    (record : Bool) : Prog.Maintains I (buildDesiredState digest now n record keep) := by
  refine .bind (maintains_onConnection (preserves_readLive n)) fun content => ?_
  dsimp only
  split
  · refine .bind (maintains_onConnection (preserves_recordBuild (hins content) htrim))
      fun built => ?_
    cases built.2 with
    | some pin => exact .pure _
    | none => exact .pure _
  · exact .pure _

end Keeps

/-- The digest on the two contents of a node `a` without peers: without an
address of its own, and with `fd00::1`. -/
def sampleDigest (content : DesiredContent) : Str :=
  if content.node.ownIpv6.isNone then lit "7efbcf6b" else lit "be743994"

end Dn42Ctl
