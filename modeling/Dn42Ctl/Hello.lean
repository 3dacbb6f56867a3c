import Dn42Ctl.Build

/-!
# Hello

The answer to `hello`.  A node names the revision it has cached; the hub
compares it with the pinned or the newest recorded revision, and records the
fingerprint of the current content as pushed when the two agree.
-/

namespace Dn42Ctl

open Text Txn

section Digest

variable (digest : DesiredContent → Str)

/-! ## the answer -/

structure HelloAck where
  revision : Option Str
  inSync : Bool
  /-- `conn.last_pushed_hash` after the answer. -/
  lastPushedHash : Option Str
deriving DecidableEq, Repr

/-- `isinstance(cached_revision, str) and cached_revision == revision`. -/
def isCurrent (cachedRevision : Json) (revision : Option Str) : Bool :=
  match cachedRevision with
  | .str cached => revision == some cached
  | _ => false

/-- `_send_hello_ack`.  The fingerprint and the revision are read on two
connections; `cached_revision` is whatever the node sent. -/
def sendHelloAck (nodeId : Str) (cachedRevision : Json) : Prog Db (Exc PyError) HelloAck := do
  let fingerprint ← onConnection (computeDesiredFingerprint digest nodeId)
  let revision ← onConnection (currentRevision nodeId)
  let inSync := isCurrent cachedRevision revision
  pure ⟨revision, inSync, if inSync then some fingerprint.contentHash else none⟩

/-! ## the hub -/

/-- A state a build has returned, under its revision. -/
structure HandedOut where
  nodeId : Str
  revision : Str
  content : DesiredContent
deriving DecidableEq, Repr

structure Serving where
  db : Db
  handed : List HandedOut

def Serving.start : Serving := ⟨Db.empty, []⟩

inductive ServingAction where
  | write (a : HubAction)
  | build (nodeId now : Str)

/-- `record` and `trim` are called by builds only. -/
def Write.storesRevisions : Write → Bool
  | .call (.record ..) | .call (.trim ..) => true
  | _ => false

def servingStep (s : Serving) : ServingAction → Option Serving
  | .write a =>
      if a.write.storesRevisions then none
      else (hubStep s.db a).map fun db' => { s with db := db' }
  | .build nodeId now =>
      match (buildDesiredState digest now nodeId).run s.db with
      | (.ok st, db') => some ⟨db', s.handed ++ [⟨nodeId, st.revision, st.toDesiredContent⟩]⟩
      | (.error _, db') => some { s with db := db' }

/-- The contents a cached revision of the node may be compared with. -/
def Serving.contents (s : Serving) (nodeId : Str) : Set DesiredContent :=
  {c | (∃ h ∈ s.handed, h.content = c) ∨
    (∃ r ∈ s.db.configRevisions, r.payload.toDesiredContent = c) ∨ s.db.liveContent nodeId = c}

/-- An answer `in_sync` to a node that holds `h` means that it holds what a build
would return, and `last_pushed_hash` is the digest of what it holds. -/
def HelloSound (db : Db) (h : HandedOut) : Prop :=
  ∀ ack db', (sendHelloAck digest h.nodeId (.str h.revision)).run db = (.ok ack, db') →
    ack.inSync = true →
      ack.lastPushedHash = some (digest h.content) ∧
      ∀ now st db'', (buildDesiredState digest now h.nodeId).run db = (.ok st, db'') →
        st.toDesiredContent = h.content

/-- The node is pinned, or its newest snapshot is another one than the node
holds, or the tables have not moved since that snapshot. -/
def Db.SnapshotCurrent (db : Db) (h : HandedOut) : Prop :=
  (db.getPin h.nodeId).isSome ∨
    ∀ r, db.newestRevision h.nodeId = some r → r.revision = h.revision →
      r.payload.toDesiredContent = db.liveContent h.nodeId

/-! ## revisions name contents -/

/-- A hexadecimal text: not empty, and without the separator of revisions. -/
def HexDigest : Prop := ∀ c, digest c ≠ [] ∧ 45 ∉ digest c

/-- The revision carries the digest of the content. -/
def Names (revision : Str) (content : DesiredContent) : Prop :=
  digestOfRevision revision = some (digest content)

/-- Every snapshot is stored under its own revision, which carries its digest. -/
def Db.SnapshotsNamed (db : Db) : Prop :=
  ∀ r ∈ db.configRevisions,
    r.payload.revision = r.revision ∧ Names digest r.revision r.payload.toDesiredContent

structure ServingInv (s : Serving) : Prop where
  wf : s.db.WF
  snapshots : s.db.SnapshotsNamed digest
  handed : ∀ h ∈ s.handed, params [.text h.nodeId] = none ∧ Names digest h.revision h.content

variable {digest}

/-- A revision names the content it was computed from. -/
theorem names_computeRevision (hhex : HexDigest digest) (content : DesiredContent) (now : Str) :
    Names digest (computeRevision digest content now) content := by
  obtain ⟨hne, hdash⟩ := hhex content
  rw [Names, digestOfRevision, computeRevision, rpartition_append hdash]
  simp [hne]

/-- The newest row of a node is a row of the table. -/
theorem newestRevision_mem {n : Str} {db : Db} {r : ConfigRevision}
    (h : db.newestRevision n = some r) : r ∈ db.configRevisions := by
  have hmem := List.mem_of_head? h
  rw [Db.revisionsDesc, List.mem_insertionSort] at hmem
  exact (List.mem_filter.mp hmem).1

/-- A row found by its revision is in the table and has that revision. -/
theorem getByRevision_mem {n rev : Str} {db : Db} {r : ConfigRevision}
    (h : db.getByRevision n rev = some r) : r ∈ db.configRevisions ∧ r.revision = rev := by
  have his := List.find?_some h
  simp only [ConfigRevision.is, Bool.and_eq_true, beq_iff_eq] at his
  exact ⟨List.mem_of_find?_eq_some h, his.2⟩

/-- So is the row that a pin names. -/
theorem getPin_mem {n : Str} {db : Db} {r : ConfigRevision} (h : db.getPin n = some r) :
    r ∈ db.configRevisions := by
  obtain ⟨p, -, hp⟩ := Option.bind_eq_some_iff.mp h
  exact (getByRevision_mem hp).1

/-! ## steps -/

/-- A write that records no revision keeps the invariant. -/
theorem ServingInv.write {s : Serving} (h : ServingInv digest s) {a : HubAction} {db' : Db}
    (hstores : a.write.storesRevisions = false) (hs : hubStep s.db a = some db') :
    ServingInv digest { s with db := db' } := by
  have hnot : Table.configRevisions ∉ a.write.writes := by
    cases hw : a.write with
    | call c =>
        rw [hw] at hstores
        cases c <;> simp [Write.storesRevisions, Write.writes, Call.writes] at hstores ⊢
    | backfill dryRun => simp [Write.writes]
    | adoptSelf cfg frm dryRun => simp [Write.writes]
  have hsame : db'.configRevisions = s.db.configRevisions :=
    ((hubStep_frame hs).configRevisions hnot).1
  refine ⟨wf_hubStep h.wf hs, ?_, h.handed⟩
  rw [Db.SnapshotsNamed, hsame]
  exact h.snapshots

/-- What a build keeps, whether it returns or raises. -/
def Db.BuildInv (digest : DesiredContent → Str) (db : Db) : Prop :=
  db.WF ∧ db.SnapshotsNamed digest

/-- Recording a computed revision keeps every row named by its content. -/
theorem buildInv_insert (hhex : HexDigest digest) {n now : Str} {content : DesiredContent}
    {w w' : Db} {rowId : Nat} (hw : w.BuildInv digest)
    (hr : w.insertRevision n (computeRevision digest content now) now
      { content with revision := computeRevision digest content now, generatedAt := now } =
        .ok (rowId, w')) : w'.BuildInv digest := by
  refine ⟨hw.1.insertRevision hr, ?_⟩
  obtain ⟨-, rfl⟩ := insertRevision_ok hr
  intro r hr
  rcases List.mem_append.mp hr with hr | hr
  · exact hw.2 r hr
  · rw [List.mem_singleton.mp hr]
    exact ⟨rfl, names_computeRevision hhex content now⟩

/-- A reused snapshot has the digest of the content being built. -/
theorem digest_of_reusable {n rev gen : Str} {db : Db} {built : Str × Str}
    (h : db.reusable n rev gen = some built) :
    digestOfRevision built.1 = digestOfRevision rev := by
  rw [Db.reusable] at h
  cases hnew : db.newestRevision n with
  | none => simp [hnew] at h
  | some previous =>
      simp only [hnew, Option.ite_none_right_eq_some] at h
      obtain ⟨hd, h⟩ := h
      cases hex : db.getByRevision n previous.revision with
      | some existing =>
          rw [hex, Option.some.injEq] at h
          rw [← h, ← hd]
          exact congrArg digestOfRevision (getByRevision_mem hex).2
      | none =>
          rw [hex, Option.some.injEq] at h
          rw [← h]

/-- A build keeps it, recorded or not. -/
theorem build_inv (hhex : HexDigest digest) (n now : Str) {db : Db} (h : db.BuildInv digest) :
    ((buildDesiredState digest now n).run db).2.BuildInv digest :=
  maintains_build (fun _ _ _ _ hw hr => buildInv_insert hhex hw hr)
    (fun _ hw => ⟨hw.1.trim n 50, fun r hr => hw.2 r (List.mem_of_mem_filter hr)⟩) true db h

/-- The revision a build returns carries the digest of the content it returns. -/
theorem build_names (hhex : HexDigest digest) {n now : Str} {db db' : Db} {st : DesiredState}
    (h : db.BuildInv digest) (hrun : (buildDesiredState digest now n).run db = (.ok st, db')) :
    Names digest st.revision st.toDesiredContent := by
  have hinv : db'.BuildInv digest := by
    have hb := build_inv hhex n now h
    rw [hrun] at hb
    exact hb
  obtain ⟨-, built, hcases, hst⟩ := build_ok hrun
  cases hpin : db'.getPin n with
  | some pin =>
      -- a pinned payload is a recorded one
      rw [hpin] at hst
      obtain ⟨hrev, hnames⟩ := hinv.2 pin (getPin_mem hpin)
      rw [hst]
      dsimp only
      rw [hrev]
      exact hnames
  | none =>
      rw [hpin] at hst
      rw [hst]
      show digestOfRevision built.1 = some (digest (db.liveContent n))
      rw [← names_computeRevision hhex (db.liveContent n) now]
      rcases hcases with ⟨hreuse, -⟩ | ⟨-, hbuilt, -⟩
      · exact digest_of_reusable hreuse
      · rw [hbuilt]

/-- One step of the hub keeps the invariant. -/
theorem servingInv_step (hhex : HexDigest digest) {s s' : Serving} {a : ServingAction}
    (h : ServingInv digest s) (hs : servingStep digest s a = some s') : ServingInv digest s' := by
  cases a with
  | write w =>
      simp only [servingStep, Option.ite_none_left_eq_some, Option.map_eq_some_iff] at hs
      obtain ⟨hstores, db', hstep, rfl⟩ := hs
      exact h.write (Bool.eq_false_iff.mpr hstores) hstep
  | build n now =>
      have hinv := build_inv hhex n now ⟨h.wf, h.snapshots⟩
      simp only [servingStep] at hs
      rcases hrun : (buildDesiredState digest now n).run s.db with ⟨r, db'⟩
      rw [hrun] at hinv
      cases r with
      | error e =>
          rw [hrun, Option.some.injEq] at hs
          rw [← hs]
          exact ⟨hinv.1, hinv.2, h.handed⟩
      | ok st =>
          rw [hrun, Option.some.injEq] at hs
          rw [← hs]
          refine ⟨hinv.1, hinv.2, fun x hx => ?_⟩
          rcases List.mem_append.mp hx with hx | hx
          · exact h.handed x hx
          · rw [List.mem_singleton.mp hx]
            exact ⟨(build_ok hrun).1, build_names hhex ⟨h.wf, h.snapshots⟩ hrun⟩

/-- It holds of the empty hub. -/
theorem servingInv_start : ServingInv digest Serving.start where
  wf := wf_empty
  snapshots r hr := by simp [Serving.start, Db.empty] at hr
  handed x hx := by simp [Serving.start] at hx

/-! ## soundness -/

/-- What the answer is. -/
theorem run_sendHelloAck {n cached : Str} {db db' : Db} {ack : HelloAck}
    (hb : params [.text n] = none) :
    (sendHelloAck digest n (.str cached)).run db = (.ok ack, db') ↔
      db' = db ∧ ack = ⟨db.currentRevision n, db.currentRevision n == some cached,
        if db.currentRevision n == some cached then some (digest (db.desiredContent n))
        else none⟩ := by
  have hrun : (sendHelloAck digest n (.str cached)).run db =
      (.ok ⟨db.currentRevision n, db.currentRevision n == some cached,
        if db.currentRevision n == some cached then some (digest (db.desiredContent n))
        else none⟩, db) := by
    have hfp : (onConnection (computeDesiredFingerprint digest n)).run db = _ :=
      eval_fingerprint db hb digest
    have hcur : (onConnection (currentRevision n)).run db = _ := eval_currentRevision db hb
    rw [sendHelloAck, Prog.run_bind_ok hfp, Prog.run_bind_ok hcur]
    rfl
  rw [hrun, Prod.mk.injEq, Except.ok.injEq]
  exact ⟨fun h => ⟨h.2.symm, h.1.symm⟩, fun h => ⟨h.2.symm, h.1.symm⟩⟩

/-- A snapshot under the revision a node holds has the content the node holds. -/
theorem ServingInv.snapshot_content {s : Serving} (hinv : ServingInv digest s) {h : HandedOut}
    (hh : h ∈ s.handed) (hinj : Set.InjOn digest (s.contents h.nodeId)) {r : ConfigRevision}
    (hr : r ∈ s.db.configRevisions) (hrev : r.revision = h.revision) :
    r.payload.toDesiredContent = h.content := by
  have hnames := (hinv.snapshots r hr).2
  rw [Names, hrev, (hinv.handed h hh).2, Option.some.injEq] at hnames
  exact hinj (.inr (.inl ⟨r, hr, rfl⟩)) (.inl ⟨h, hh, rfl⟩) hnames.symm

variable (digest)

/-- **When hello is sound.**  In every state that writes and builds lead to and
for every revision the hub has handed out, the answer is sound exactly when the
node is pinned, or its newest snapshot is another one than it holds, or the
tables have not moved since that snapshot. -/
theorem helloSound_iff (hhex : HexDigest digest) {as : List ServingAction} {s : Serving}
    (hrun : Machine.exec (servingStep digest) Serving.start as = some s) {h : HandedOut}
    (hh : h ∈ s.handed) (hinj : Set.InjOn digest (s.contents h.nodeId)) :
    HelloSound digest s.db h ↔ s.db.SnapshotCurrent h := by
  have hinv : ServingInv digest s :=
    Machine.reachable_invariant (servingStep digest) (fun _ _ _ => servingInv_step hhex)
      servingInv_start ⟨as, hrun⟩
  have hb : params [.text h.nodeId] = none := (hinv.handed h hh).1
  constructor
  · intro hsound
    refine or_iff_not_imp_left.mpr fun hpin r hnew hrev => ?_
    have hnone : s.db.getPin h.nodeId = none := Option.not_isSome_iff_eq_none.mp hpin
    have hcur : s.db.currentRevision h.nodeId = some h.revision := by
      rw [Db.currentRevision, hnone, hnew, ← hrev]
      rfl
    obtain ⟨hhash, -⟩ := hsound _ _ ((run_sendHelloAck hb).mpr ⟨rfl, rfl⟩) (by simp [hcur])
    have hdigest : digest (s.db.liveContent h.nodeId) = digest h.content := by
      simpa [hcur, Db.desiredContent, hnone] using hhash
    rw [hinv.snapshot_content hh hinj (newestRevision_mem hnew) hrev]
    exact (hinj (.inr (.inr rfl)) (.inl ⟨h, hh, rfl⟩) hdigest).symm
  · intro hcond ack db' hack hsync
    obtain ⟨-, rfl⟩ := (run_sendHelloAck hb).mp hack
    have hcur : s.db.currentRevision h.nodeId = some h.revision := by simpa using hsync
    -- the content the node receives is the one under the revision it holds
    have hcontent : s.db.desiredContent h.nodeId = h.content := by
      rw [Db.currentRevision] at hcur
      rw [Db.desiredContent]
      cases hpin : s.db.getPin h.nodeId with
      | some pin =>
          rw [hpin, Option.some.injEq] at hcur
          exact hinv.snapshot_content hh hinj (getPin_mem hpin) hcur
      | none =>
          rw [hpin] at hcur
          obtain ⟨r, hnew, hrev⟩ := Option.map_eq_some_iff.mp hcur
          rcases hcond with hsome | hcond
          · simp [hpin] at hsome
          · dsimp only
            rw [← hcond r hnew hrev]
            exact hinv.snapshot_content hh hinj (newestRevision_mem hnew) hrev
    refine ⟨by simp [hcur, hcontent], fun now st db'' hbuild => ?_⟩
    rw [build_content hinv.wf hbuild, hcontent]

end Digest

/-! ### a node that was away -/

/-- A node is added and fetches its state. -/
def fetchedRun : List ServingAction :=
  [.write ⟨.call (.addNode (lit "a") (lit "alpha")), lit "t0", none, false⟩,
    .build (lit "a") (lit "t1")]

/-- While it is away it gets an address. -/
def awayRun : List ServingAction :=
  fetchedRun ++ [.write ⟨.call (.setAddresses (lit "a") .unset (.set (some (lit "fd00::1")))
    .unset), lit "t2", none, false⟩]

def servingRun (as : List ServingAction) : Serving :=
  (Machine.exec (servingStep sampleDigest) Serving.start as).getD Serving.start

/-- What the node holds. -/
def fetchedState : HandedOut := ⟨lit "a", lit "t1-7efbcf6b", ⟨lit "a", [], [], {}⟩⟩

theorem hexDigest_sample : HexDigest sampleDigest := by
  intro c
  rw [sampleDigest]
  split <;> decide

theorem injOn_sample (s : Serving)
    (h : ∀ c ∈ s.handed.map HandedOut.content ++
      s.db.configRevisions.map (fun r => r.payload.toDesiredContent) ++
      [s.db.liveContent (lit "a")], ∀ d ∈ s.handed.map HandedOut.content ++
      s.db.configRevisions.map (fun r => r.payload.toDesiredContent) ++
      [s.db.liveContent (lit "a")], sampleDigest c = sampleDigest d → c = d) :
    Set.InjOn sampleDigest (s.contents (lit "a")) := by
  have hmem : ∀ c ∈ s.contents (lit "a"), c ∈ s.handed.map HandedOut.content ++
      s.db.configRevisions.map (fun r => r.payload.toDesiredContent) ++
      [s.db.liveContent (lit "a")] := by
    rintro c (⟨x, hx, rfl⟩ | ⟨r, hr, rfl⟩ | rfl)
    · exact List.mem_append_left _ (List.mem_append_left _ (List.mem_map_of_mem hx))
    · refine List.mem_append_left _ (List.mem_append_right _ ?_)
      exact List.mem_map.mpr ⟨r, hr, rfl⟩
    · exact List.mem_append_right _ (List.mem_singleton.mpr rfl)
  exact fun c hc d hd => h c (hmem c hc) d (hmem d hd)

theorem helloSound_iff_fetched :
    fetchedState ∈ (servingRun fetchedRun).handed ∧
      (HelloSound sampleDigest (servingRun fetchedRun).db fetchedState ↔
        (servingRun fetchedRun).db.SnapshotCurrent fetchedState) := by
  have hrun : Machine.exec (servingStep sampleDigest) Serving.start fetchedRun =
      some (servingRun fetchedRun) := rfl
  have hmem : fetchedState ∈ (servingRun fetchedRun).handed := by decide +kernel
  exact ⟨hmem, helloSound_iff sampleDigest hexDigest_sample hrun hmem
    (injOn_sample _ (by decide +kernel))⟩

/-- The hub answers `in_sync` to the node that comes back, which has never seen
its address, and records the new content as pushed. -/
theorem away_not_sound :
    Machine.exec (servingStep sampleDigest) Serving.start awayRun = some (servingRun awayRun) ∧
    fetchedState ∈ (servingRun awayRun).handed ∧
    Set.InjOn sampleDigest ((servingRun awayRun).contents (lit "a")) ∧
    ¬ HelloSound sampleDigest (servingRun awayRun).db fetchedState := by
  refine ⟨rfl, by decide +kernel, injOn_sample _ (by decide +kernel), fun h => ?_⟩
  have hack : (sendHelloAck sampleDigest (lit "a") (.str (lit "t1-7efbcf6b"))).run
      (servingRun awayRun).db = (.ok ⟨some (lit "t1-7efbcf6b"), true, some (lit "be743994")⟩,
        (servingRun awayRun).db) := rfl
  obtain ⟨hhash, -⟩ := h _ _ hack rfl
  exact absurd hhash (by decide)

end Dn42Ctl
