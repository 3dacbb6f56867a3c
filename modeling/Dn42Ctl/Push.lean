import Dn42Ctl.Build
import Dn42Ctl.Watcher

/-!
# Push

One registered connection in steady state: the watcher that wakes it, the
pusher loop and the reader loop, both of which run `_maybe_push_desired`.  In
that function the fingerprint, the build, the send and the assignment of
`last_pushed_hash` are separate steps, with the tables free to change between
any two of them.
-/

namespace Dn42Ctl

open Text Txn

section Digest

variable (digest : DesiredContent → Str) (nodeId : Str)

/-! ## the connection -/

/-- Who is inside `_maybe_push_desired`. -/
inductive Task where
  | pusher
  | reader
deriving DecidableEq, Repr

/-- Where a call of `_maybe_push_desired` stands. -/
inductive Stage where
  | idle
  | started (force : Bool)
  | fingerprinted (force : Bool) (hash : Str)
  | checked (hash : Str)
  | built (hash : Str) (content : DesiredContent)
  | sent (hash : Str)
deriving DecidableEq, Repr

/-- From the comparison with `last_pushed_hash` to its assignment. -/
def Stage.inWindow : Stage → Bool
  | .checked _ | .built .. | .sent _ => true
  | _ => false

structure Push where
  db : Db
  lastId : Nat
  /-- Every event a fetch has returned. -/
  seen : List SyncEvent
  /-- The node is in the batch whose connections are being notified. -/
  notifying : Bool
  /-- The wake buffer, of size one. -/
  wake : Bool
  stage : Task → Stage
  /-- The first forced push is done and both loops run. -/
  looping : Bool
  lastPushedHash : Option Str
  /-- The contents of the `desired_push` frames, oldest first. -/
  pushes : List DesiredContent
  /-- A step of a push raised. -/
  failed : Bool
  /-- Every content the node has had. -/
  contents : List DesiredContent

def Push.set (s : Push) (t : Task) (stage : Stage) : Push :=
  { s with stage := fun t' => if t' = t then stage else s.stage t' }

def Task.other : Task → Task
  | .pusher => .reader
  | .reader => .pusher

/-- After a handshake that answered `in_sync = false`: the reader's task makes
the first, forced push. -/
def Push.start (db : Db) : Push where
  db := db
  lastId := db.latestEventId
  seen := []
  notifying := false
  wake := false
  stage := fun
    | .pusher => .idle
    | .reader => .started true
  looping := false
  lastPushedHash := none
  pushes := []
  failed := false
  contents := [db.desiredContent nodeId]

inductive PushAction where
  | write (a : HubAction)
  | poll
  | notify
  | wakeUp
  | request
  | readFingerprint (t : Task)
  | check (t : Task)
  | build (t : Task) (now : Str)
  | send (t : Task) (delivered : Bool)
  | assign (t : Task)

/-- A write of the kind considered: a change of the node's content comes with a
`desired` event of it, and the node's access is not revoked. -/
def announcesChange (db db' : Db) : Bool :=
  let new := db'.syncLog.drop db.syncLog.length
  (decide (db'.desiredContent nodeId = db.desiredContent nodeId) ||
    new.any fun e => e.nodeId == nodeId) &&
  new.all fun e => e.nodeId != nodeId || e.kind = .desired

/-- A call that ends by an exception: it is logged, and the loop goes on. -/
def Push.fail (s : Push) (t : Task) : Push := { s.set t .idle with failed := true }

def pushStep (s : Push) : PushAction → Option Push
  | .write a =>
      match hubStep s.db a with
      | none => none
      | some db' =>
          if announcesChange nodeId s.db db' then
            some { s with db := db', contents := s.contents ++ [db'.desiredContent nodeId] }
          else none
  | .poll =>
      if s.notifying then none
      else
        match (eval (fetchEvents s.lastId) s.db).1 with
        | .error _ => some s
        | .ok events => some { s with
            lastId := advanceCursor s.lastId events
            seen := s.seen ++ events
            notifying := (changedNodes events).contains nodeId }
  | .notify => if s.notifying then some { s with notifying := false, wake := true } else none
  | .wakeUp =>
      if s.wake && s.looping && s.stage .pusher = .idle then
        some { s.set .pusher (.started false) with wake := false }
      else none
  | .request =>
      if s.looping && s.stage .reader = .idle then some (s.set .reader (.started true)) else none
  | .readFingerprint t =>
      match s.stage t with
      | .started force =>
          match (eval (computeDesiredFingerprint digest nodeId) s.db).1 with
          | .ok fp => some (s.set t (.fingerprinted force fp.contentHash))
          | .error _ => some (s.fail t)
      | _ => none
  | .check t =>
      match s.stage t with
      | .fingerprinted force hash =>
          if !force && s.lastPushedHash == some hash then some (s.set t .idle)
          else some (s.set t (.checked hash))
      | _ => none
  | .build t now =>
      match s.stage t with
      | .checked hash =>
          match (buildDesiredState digest now nodeId).run s.db with
          | (.ok st, db') => some { s.set t (.built hash st.toDesiredContent) with db := db' }
          | (.error _, db') => some { s.fail t with db := db' }
      | _ => none
  | .send t delivered =>
      match s.stage t with
      | .built hash content =>
          if delivered then some { s.set t (.sent hash) with pushes := s.pushes ++ [content] }
          else some (s.fail t)
      | _ => none
  | .assign t =>
      match s.stage t with
      | .sent hash => some { s.set t .idle with lastPushedHash := some hash, looping := true }
      | _ => none

/-- All events are fetched, the wake buffer is empty, no push is in flight and
none has failed. -/
def Push.Quiescent (anchor : Db) (s : Push) : Prop :=
  (∀ e ∈ eventsAfter anchor s.db, e ∈ s.seen) ∧ s.notifying = false ∧ s.wake = false ∧
    (∀ t, s.stage t = .idle) ∧ s.failed = false

/-- The tables have not moved between a call's fingerprint and its build, and a
call compares with `last_pushed_hash` while no other call is about to assign it. -/
def PushesAlone (s : Push) : PushAction → Prop
  | .build t _ => ∀ hash, s.stage t = .checked hash → hash = digest (s.db.desiredContent nodeId)
  | .check t => (s.stage t.other).inWindow = false
  | _ => True

/-! ## the invariant -/

/-- The hash a call in flight will assign, once its content is decided. -/
def Stage.claims : Stage → Option Str
  | .built hash _ | .sent hash => some hash
  | _ => none

/-- `last_pushed_hash` as it will be when the call in flight is done. -/
def Push.virtualHash (s : Push) : Option Str :=
  (s.stage .pusher).claims.or ((s.stage .reader).claims.or s.lastPushedHash)

/-- The fingerprint will be read again: something is on its way to the pusher,
or a call has not compared the current fingerprint yet. -/
def Push.Pending (anchor : Db) (s : Push) : Prop :=
  s.wake = true ∨ s.notifying = true ∨
    (∃ e ∈ eventsAfter anchor s.db, e.nodeId = nodeId ∧ e ∉ s.seen) ∨
    ∃ t force, s.stage t = .started force ∨
      s.stage t = .fingerprinted force (digest (s.db.desiredContent nodeId))

/-- What a stage says about the contents. -/
def Push.StageOk (s : Push) : Stage → Prop
  | .built hash content => hash = digest content ∧ content ∈ s.contents
  | .sent hash => ∃ content, s.pushes.getLast? = some content ∧ hash = digest content
  | _ => True

/-- What holds of the tables, the log and the calls in flight. -/
structure PushCore (anchor : Db) (s : Push) : Prop where
  wf : s.db.WF
  grown : anchor.syncLog <+: s.db.syncLog
  cursor : anchor.syncSeq ≤ s.lastId
  desired : ∀ e ∈ eventsAfter anchor s.db, e.nodeId = nodeId → e.kind = .desired
  seenLogged : ∀ e ∈ s.seen, e ∈ s.db.syncLog
  current : s.db.desiredContent nodeId ∈ s.contents
  alone : ∀ t, (s.stage t).inWindow = true → (s.stage t.other).inWindow = false
  stages : ∀ t, s.StageOk digest (s.stage t)
  pushed : (∀ t hash, s.stage t ≠ .sent hash) →
    s.lastPushedHash = s.pushes.getLast?.map digest
  pushesKnown : ∀ c ∈ s.pushes, c ∈ s.contents

structure PushInv (anchor : Db) (s : Push) : Prop extends PushCore digest nodeId anchor s where
  /-- The last push has the current content, or a further look at it is due. -/
  fresh : s.virtualHash = some (digest (s.db.desiredContent nodeId)) ∨
    s.Pending digest nodeId anchor ∨ ∃ t hash, s.stage t = .checked hash

theorem inWindow_of_claims {x : Stage} {hash : Str} (h : x.claims = some hash) :
    x.inWindow = true := by
  cases x with
  | built h' c => rfl
  | sent h' => rfl
  | _ => simp [Stage.claims] at h

theorem claims_of_not_inWindow {x : Stage} (h : x.inWindow = false) : x.claims = none := by
  cases hc : x.claims with
  | none => rfl
  | some hash =>
      rw [inWindow_of_claims hc] at h
      simp at h

theorem stage_set (s : Push) (t t' : Task) (x : Stage) :
    (s.set t x).stage t' = if t' = t then x else s.stage t' := rfl

theorem stage_set_self (s : Push) (t : Task) (x : Stage) : (s.set t x).stage t = x := by
  rw [stage_set, if_pos rfl]

theorem stage_set_other (s : Push) (t : Task) (x : Stage) :
    (s.set t x).stage t.other = s.stage t.other := by
  cases t <;> rfl

theorem other_other (t : Task) : t.other.other = t := by
  cases t <;> rfl

/-- A task is one or the other. -/
theorem forall_task {P : Task → Prop} (t : Task) (h : P t) (ho : P t.other) : ∀ t', P t' := by
  intro t'
  cases t <;> cases t' <;> assumption

theorem virtualHash_eq (s : Push) (t : Task) (ho : (s.stage t.other).claims = none) :
    s.virtualHash = (s.stage t).claims.or s.lastPushedHash := by
  cases t with
  | pusher =>
      rw [Task.other] at ho
      rw [Push.virtualHash, ho, Option.none_or]
  | reader =>
      rw [Task.other] at ho
      rw [Push.virtualHash, ho, Option.none_or]

/-- Moving a call along without deciding anything. -/
theorem virtualHash_set (s : Push) (t : Task) (x : Stage) (h : x.claims = (s.stage t).claims) :
    (s.set t x).virtualHash = s.virtualHash := by
  rw [Push.virtualHash, Push.virtualHash]
  cases t with
  | pusher =>
      rw [stage_set_self, h]
      rfl
  | reader =>
      rw [stage_set_self, h]
      rfl

/-! ## steps that keep the invariant -/

variable {digest nodeId} {anchor : Db} {s : Push}

/-- A call moves to another stage before its send. -/
theorem PushCore.set (h : PushCore digest nodeId anchor s) {t : Task} {x : Stage}
    (halone : x.inWindow = true → (s.stage t.other).inWindow = false)
    (hok : s.StageOk digest x) (hold : ∀ hash, s.stage t ≠ .sent hash) :
    PushCore digest nodeId anchor (s.set t x) where
  wf := h.wf
  grown := h.grown
  cursor := h.cursor
  desired := h.desired
  seenLogged := h.seenLogged
  current := h.current
  alone := by
    refine forall_task t ?_ ?_
    · rw [stage_set_self, stage_set_other]
      exact halone
    · intro hin
      rw [stage_set_other] at hin
      rw [other_other, stage_set_self]
      cases hx : x.inWindow with
      | false => rfl
      | true =>
          rw [halone hx] at hin
          simp at hin
  stages := by
    refine forall_task t ?_ ?_
    · rw [stage_set_self]
      exact hok
    · rw [stage_set_other]
      exact h.stages t.other
  pushed hno := by
    refine h.pushed (forall_task t hold fun hash hs => ?_)
    have ho := hno t.other hash
    rw [stage_set_other] at ho
    exact ho hs
  pushesKnown := h.pushesKnown

theorem PushInv.write (h : PushInv digest nodeId anchor s) {a : HubAction} {db' : Db}
    (hs : hubStep s.db a = some db') (hann : announcesChange nodeId s.db db' = true) :
    PushInv digest nodeId anchor
      { s with db := db', contents := s.contents ++ [db'.desiredContent nodeId] } := by
  have hwf : db'.WF := wf_hubStep h.wf hs
  obtain ⟨new, hlog⟩ : ∃ new, db'.syncLog = s.db.syncLog ++ new := hubStep_log hs
  have hdrop : db'.syncLog.drop s.db.syncLog.length = new := by rw [hlog, List.drop_left]
  have hafter := eventsAfter_append h.grown hlog
  have hunseen : ∀ e ∈ new, e ∉ s.seen := fun e he hseen =>
    new_not_logged hwf.queue hlog e he (h.seenLogged e hseen)
  simp only [announcesChange, hdrop, Bool.and_eq_true, Bool.or_eq_true, decide_eq_true_eq,
    List.any_eq_true, List.all_eq_true, beq_iff_eq, bne_iff_ne] at hann
  obtain ⟨hchange, hkinds⟩ := hann
  refine ⟨⟨hwf, ?_, h.cursor, ?_, ?_, ?_, h.alone, ?_, h.pushed, ?_⟩, ?_⟩
  · rw [hlog]
    exact h.grown.trans (List.prefix_append _ _)
  · intro e he hn
    rw [hafter] at he
    rcases List.mem_append.mp he with he | he
    · exact h.desired e he hn
    · rcases hkinds e he with hne | hk
      · exact absurd hn hne
      · exact hk
  · intro e he
    rw [hlog]
    exact List.mem_append_left _ (h.seenLogged e he)
  · exact List.mem_append_right _ (List.mem_singleton.mpr rfl)
  · intro t
    have hst := h.stages t
    dsimp only
    cases hx : s.stage t with
    | built hash content =>
        rw [hx] at hst
        exact ⟨hst.1, List.mem_append_left _ hst.2⟩
    | sent hash =>
        rw [hx] at hst
        exact hst
    | _ => trivial
  · intro c hc
    exact List.mem_append_left _ (h.pushesKnown c hc)
  · have hmono : ∀ e ∈ eventsAfter anchor s.db, e ∈ eventsAfter anchor db' := by
      intro e he
      rw [hafter]
      exact List.mem_append_left _ he
    rcases hchange with hsame | ⟨e, he, hn⟩
    · -- the content is the same, so whatever was due is still due
      rcases h.fresh with hv | hpend | hchk
      · refine .inl ?_
        rw [hsame]
        exact hv
      · refine .inr (.inl ?_)
        rcases hpend with hw | hn | ⟨e, he, hen, hseen⟩ | hstage
        · exact .inl hw
        · exact .inr (.inl hn)
        · exact .inr (.inr (.inl ⟨e, hmono e he, hen, hseen⟩))
        · refine .inr (.inr (.inr ?_))
          rw [hsame]
          exact hstage
      · exact .inr (.inr hchk)
    · refine .inr (.inl (.inr (.inr (.inl ⟨e, ?_, hn, hunseen e he⟩))))
      rw [hafter]
      exact List.mem_append_right _ he

/-- The rows of a fetch were committed after the anchor. -/
theorem fetched_after {db : Db} (hanchor : anchor.QueueWF) (hq : db.QueueWF)
    (hgrown : anchor.syncLog <+: db.syncLog) {lastId k : Nat} (hcursor : anchor.syncSeq ≤ lastId)
    {e : SyncEvent} (he : e ∈ db.eventsSince lastId k) :
    lastId < e.id ∧ e ∈ db.syncLog ∧ e ∈ eventsAfter anchor db := by
  have hsorted := List.mem_of_mem_take he
  rw [List.mem_insertionSort] at hsorted
  obtain ⟨hmem, hid⟩ := List.mem_filter.mp hsorted
  have hlt : lastId < e.id := of_decide_eq_true hid
  have hlog : e ∈ db.syncLog := hq.queueLogged.subset hmem
  refine ⟨hlt, hlog, ?_⟩
  obtain ⟨rest, hrest⟩ := hgrown
  rw [eventsAfter, ← hrest, List.drop_left]
  rw [← hrest] at hlog
  rcases List.mem_append.mp hlog with hold | hnew
  · have hle := hanchor.logBounded e hold
    omega
  · exact hnew

theorem advanceCursor_ge {db : Db} {lastId k : Nat} :
    lastId ≤ advanceCursor lastId (db.eventsSince lastId k) := by
  rw [advanceCursor]
  split
  · exact Nat.le_refl _
  · rename_i hne
    obtain ⟨e, he⟩ := List.exists_mem_of_ne_nil (db.eventsSince lastId k) (by simpa using hne)
    have hsorted := List.mem_of_mem_take he
    rw [List.mem_insertionSort] at hsorted
    have hlt : lastId < e.id := of_decide_eq_true (List.mem_filter.mp hsorted).2
    have hle : e.id ≤ ((db.eventsSince lastId k).map SyncEvent.id).foldl max 0 :=
      le_foldl_max (.inr (List.mem_map_of_mem he))
    omega

theorem PushInv.poll (hanchor : anchor.QueueWF) (h : PushInv digest nodeId anchor s) :
    PushInv digest nodeId anchor { s with
      lastId := advanceCursor s.lastId (s.db.eventsSince s.lastId watcherBatch)
      seen := s.seen ++ s.db.eventsSince s.lastId watcherBatch
      notifying := s.notifying ||
        (changedNodes (s.db.eventsSince s.lastId watcherBatch)).contains nodeId } := by
  have hfetched : ∀ e ∈ s.db.eventsSince s.lastId watcherBatch,
      s.lastId < e.id ∧ e ∈ s.db.syncLog ∧ e ∈ eventsAfter anchor s.db :=
    fun e he => fetched_after hanchor h.wf.queue h.grown h.cursor he
  refine ⟨⟨h.wf, h.grown, h.cursor.trans advanceCursor_ge, h.desired, ?_, h.current, h.alone,
    h.stages, h.pushed, h.pushesKnown⟩, ?_⟩
  · intro e he
    rcases List.mem_append.mp he with he | he
    · exact h.seenLogged e he
    · exact (hfetched e he).2.1
  · rcases h.fresh with hv | hpend | hchk
    · exact .inl hv
    · refine .inr (.inl ?_)
      rcases hpend with hw | hn | ⟨e, he, hen, hseen⟩ | hstage
      · exact .inl hw
      · exact .inr (.inl (by simp [hn]))
      · by_cases hin : e ∈ s.db.eventsSince s.lastId watcherBatch
        · -- every event of the node in the batch is a `desired` one
          have hnotrev : nodeId ∉ revokedNodes (s.db.eventsSince s.lastId watcherBatch) := by
            intro hrev
            obtain ⟨x, hx, hxn⟩ := List.mem_map.mp hrev
            obtain ⟨hxmem, hxk⟩ := List.mem_filter.mp hx
            have hk := h.desired x (hfetched x hxmem).2.2 hxn
            rw [hk] at hxk
            simp at hxk
          have hchanged : nodeId ∈ changedNodes (s.db.eventsSince s.lastId watcherBatch) := by
            refine List.mem_filter.mpr ⟨?_, by simpa using hnotrev⟩
            rw [← hen]
            exact List.mem_map_of_mem
              (List.mem_filter.mpr ⟨hin, by simpa using h.desired e he hen⟩)
          exact .inr (.inl (by simp [hchanged]))
        · refine .inr (.inr (.inl ⟨e, he, hen, fun hmem => ?_⟩))
          rcases List.mem_append.mp hmem with hmem | hmem
          · exact hseen hmem
          · exact hin hmem
      · exact .inr (.inr (.inr hstage))
    · exact .inr (.inr hchk)

theorem PushInv.notify (h : PushInv digest nodeId anchor s) :
    PushInv digest nodeId anchor { s with notifying := false, wake := true } :=
  ⟨⟨h.wf, h.grown, h.cursor, h.desired, h.seenLogged, h.current, h.alone, h.stages, h.pushed,
    h.pushesKnown⟩, .inr (.inl (.inl rfl))⟩

/-- A call that starts will read the fingerprint. -/
theorem PushInv.startCall (h : PushInv digest nodeId anchor s) {t : Task} {force : Bool}
    (hidle : s.stage t = .idle) (wake : Bool) :
    PushInv digest nodeId anchor { s.set t (.started force) with wake := wake } := by
  have hcore : PushCore digest nodeId anchor (s.set t (.started force)) :=
    h.toPushCore.set (by simp [Stage.inWindow]) trivial (by simp [hidle])
  refine ⟨⟨hcore.wf, hcore.grown, hcore.cursor, hcore.desired, hcore.seenLogged, hcore.current,
    hcore.alone, hcore.stages, hcore.pushed, hcore.pushesKnown⟩, ?_⟩
  exact .inr (.inl (.inr (.inr (.inr ⟨t, force, .inl (stage_set_self s t _)⟩))))

theorem PushInv.readFingerprint (h : PushInv digest nodeId anchor s) {t : Task} {force : Bool}
    (hstage : s.stage t = .started force) :
    PushInv digest nodeId anchor
      (s.set t (.fingerprinted force (digest (s.db.desiredContent nodeId)))) := by
  have hcore := h.toPushCore.set (t := t)
    (x := .fingerprinted force (digest (s.db.desiredContent nodeId)))
    (by simp [Stage.inWindow]) trivial (by simp [hstage])
  exact ⟨hcore, .inr (.inl (.inr (.inr (.inr ⟨t, force, .inr (stage_set_self s t _)⟩))))⟩

/-- The comparison finds the hash of the last push: nothing is in flight, so if
the fingerprint is the current one, the last push is. -/
theorem PushInv.skip (h : PushInv digest nodeId anchor s) {t : Task} {force : Bool} {hash : Str}
    (hstage : s.stage t = .fingerprinted force hash)
    (hother : (s.stage t.other).inWindow = false) (hhash : s.lastPushedHash = some hash) :
    PushInv digest nodeId anchor (s.set t .idle) := by
  have hcore := h.toPushCore.set (t := t) (x := .idle) (by simp [Stage.inWindow]) trivial
    (by simp [hstage])
  have hvirtual : (s.set t .idle).virtualHash = s.virtualHash :=
    virtualHash_set s t .idle (by simp [Stage.claims, hstage])
  have hlast : s.virtualHash = some hash := by
    rw [virtualHash_eq s t (claims_of_not_inWindow hother), hstage, hhash]
    rfl
  refine ⟨hcore, ?_⟩
  rcases h.fresh with hv | hpend | ⟨t', h', hchk⟩
  · exact .inl (hvirtual.trans hv)
  · rcases hpend with hw | hn | hev | ⟨t', force', ht'⟩
    · exact .inr (.inl (.inl hw))
    · exact .inr (.inl (.inr (.inl hn)))
    · exact .inr (.inl (.inr (.inr (.inl hev))))
    · by_cases htt : t' = t
      · rw [htt, hstage] at ht'
        rcases ht' with hbad | hsame
        · simp at hbad
        · rw [Stage.fingerprinted.injEq] at hsame
          exact .inl (by rw [hvirtual, hlast, hsame.2]; rfl)
      · refine .inr (.inl (.inr (.inr (.inr ⟨t', force', ?_⟩))))
        rw [stage_set, if_neg htt]
        exact ht'
  · by_cases htt : t' = t
    · rw [htt, hstage] at hchk
      simp at hchk
    · have hto : t' = t.other := by cases t <;> cases t' <;> simp_all [Task.other]
      rw [← hto, hchk] at hother
      simp [Stage.inWindow] at hother

theorem PushInv.proceed (h : PushInv digest nodeId anchor s) {t : Task} {force : Bool}
    {hash : Str} (hstage : s.stage t = .fingerprinted force hash)
    (hother : (s.stage t.other).inWindow = false) :
    PushInv digest nodeId anchor (s.set t (.checked hash)) := by
  have hcore := h.toPushCore.set (t := t) (x := .checked hash) (fun _ => hother) trivial
    (by simp [hstage])
  exact ⟨hcore, .inr (.inr ⟨t, hash, stage_set_self s t _⟩)⟩

/-- A build decides the content of the push.  It records a snapshot, which
changes nobody's content and logs nothing. -/
theorem PushInv.build (h : PushInv digest nodeId anchor s) {t : Task} {hash now : Str}
    {st : DesiredState} {db' : Db} (hstage : s.stage t = .checked hash)
    (hhash : hash = digest (s.db.desiredContent nodeId))
    (hrun : (buildDesiredState digest now nodeId).run s.db = (.ok st, db')) :
    PushInv digest nodeId anchor { s.set t (.built hash st.toDesiredContent) with db := db' } := by
  obtain ⟨hwf, hframe, hparts⟩ := build_quiet h.wf hrun
  have hsame : db'.desiredContent nodeId = s.db.desiredContent nodeId :=
    desiredContent_of_parts (hparts nodeId)
  have hlog : db'.syncLog = s.db.syncLog := hframe.queue.2.2
  have hcontent : st.toDesiredContent = s.db.desiredContent nodeId := build_content h.wf hrun
  have hother : (s.stage t.other).inWindow = false := by
    refine h.alone t ?_
    rw [hstage]
    rfl
  have hafter : eventsAfter anchor db' = eventsAfter anchor s.db := by
    rw [eventsAfter, eventsAfter, hlog]
  rw [hcontent]
  have hcore := h.toPushCore.set (t := t) (x := .built hash (s.db.desiredContent nodeId))
    (fun _ => hother) ⟨hhash, h.current⟩ (by simp [hstage])
  refine ⟨⟨hwf, ?_, hcore.cursor, ?_, ?_, ?_, hcore.alone, hcore.stages, hcore.pushed,
    hcore.pushesKnown⟩, .inl ?_⟩
  · rw [hlog]
    exact hcore.grown
  · rw [hafter]
    exact hcore.desired
  · rw [hlog]
    exact hcore.seenLogged
  · rw [hsame]
    exact hcore.current
  · have hclaims : (((s.set t (.built hash (s.db.desiredContent nodeId))).stage t.other)).claims =
        none := by
      rw [stage_set_other]
      exact claims_of_not_inWindow hother
    rw [hsame, ← hhash]
    have hv := virtualHash_eq _ t hclaims
    rw [stage_set_self] at hv
    exact hv

/-- What is due stays due when a call that has decided its content moves on. -/
theorem PushInv.fresh_move (h : PushInv digest nodeId anchor s) {t : Task} {hash : Str}
    {s' : Push} (hclaims : (s.stage t).claims = some hash) (hdb : s'.db = s.db)
    (hwake : s'.wake = s.wake) (hnotifying : s'.notifying = s.notifying)
    (hseen : s'.seen = s.seen) (hstage : ∀ t', t' ≠ t → s'.stage t' = s.stage t')
    (hvirtual : s'.virtualHash = s.virtualHash) :
    s'.virtualHash = some (digest (s'.db.desiredContent nodeId)) ∨
      s'.Pending digest nodeId anchor ∨ ∃ t hash, s'.stage t = .checked hash := by
  rw [hvirtual, Push.Pending, hdb, hwake, hnotifying, hseen]
  rcases h.fresh with hv | hpend | ⟨t', h', hchk⟩
  · exact .inl hv
  · rcases hpend with hw | hn | hev | ⟨t', force, ht'⟩
    · exact .inr (.inl (.inl hw))
    · exact .inr (.inl (.inr (.inl hn)))
    · exact .inr (.inl (.inr (.inr (.inl hev))))
    · have hne : t' ≠ t := by
        rintro rfl
        rcases ht' with ht' | ht' <;> simp [ht', Stage.claims] at hclaims
      refine .inr (.inl (.inr (.inr (.inr ⟨t', force, ?_⟩))))
      rw [hstage t' hne]
      exact ht'
  · have hne : t' ≠ t := by
      rintro rfl
      simp [hchk, Stage.claims] at hclaims
    refine .inr (.inr ⟨t', h', ?_⟩)
    rw [hstage t' hne]
    exact hchk

/-- The frame goes out: the call that sent it is the only one under way. -/
theorem PushInv.send (h : PushInv digest nodeId anchor s) {t : Task} {hash : Str}
    {content : DesiredContent} (hstage : s.stage t = .built hash content) :
    PushInv digest nodeId anchor
      { s.set t (.sent hash) with pushes := s.pushes ++ [content] } := by
  obtain ⟨hhash, hknown⟩ : hash = digest content ∧ content ∈ s.contents := by
    have hok := h.stages t
    rw [hstage] at hok
    exact hok
  have hother : (s.stage t.other).inWindow = false := by
    refine h.alone t ?_
    rw [hstage]
    rfl
  have hlast : (s.pushes ++ [content]).getLast? = some content := List.getLast?_concat
  refine ⟨⟨h.wf, h.grown, h.cursor, h.desired, h.seenLogged, h.current, ?_, ?_, ?_, ?_⟩, ?_⟩
  · refine forall_task t (fun _ => ?_) fun hin => ?_
    · exact (congrArg Stage.inWindow (stage_set_other s t _)).trans hother
    · have hin' : (s.stage t.other).inWindow = true :=
        (congrArg Stage.inWindow (stage_set_other s t _)).symm.trans hin
      rw [hother] at hin'
      simp at hin'
  · refine forall_task t ?_ ?_
    · show Push.StageOk digest _ ((s.set t (.sent hash)).stage t)
      rw [stage_set_self]
      exact ⟨content, hlast, hhash⟩
    · show Push.StageOk digest _ ((s.set t (.sent hash)).stage t.other)
      rw [stage_set_other]
      have hok := h.stages t.other
      cases hx : s.stage t.other with
      | sent hash' =>
          rw [hx] at hother
          simp [Stage.inWindow] at hother
      | built hash' c =>
          rw [hx] at hother
          simp [Stage.inWindow] at hother
      | _ => trivial
  · intro hno
    exact absurd (stage_set_self s t (.sent hash)) (hno t hash)
  · intro c hc
    rcases List.mem_append.mp hc with hc | hc
    · exact h.pushesKnown c hc
    · rw [List.mem_singleton.mp hc]
      exact hknown
  · have hvirtual : (s.set t (.sent hash)).virtualHash = s.virtualHash :=
      virtualHash_set s t _ (by rw [hstage]; rfl)
    have hclaims : (s.stage t).claims = some hash := by
      rw [hstage]
      rfl
    exact h.fresh_move hclaims rfl rfl rfl rfl
      (fun t' hne => by rw [stage_set, if_neg hne]) hvirtual

/-- `last_pushed_hash` is assigned: it is what the call had claimed. -/
theorem PushInv.assign (h : PushInv digest nodeId anchor s) {t : Task} {hash : Str}
    (hstage : s.stage t = .sent hash) :
    PushInv digest nodeId anchor
      { s.set t .idle with lastPushedHash := some hash, looping := true } := by
  obtain ⟨content, hlast, hhash⟩ : ∃ c, s.pushes.getLast? = some c ∧ hash = digest c := by
    have hok := h.stages t
    rw [hstage] at hok
    exact hok
  have hother : (s.stage t.other).inWindow = false := by
    refine h.alone t ?_
    rw [hstage]
    rfl
  refine ⟨⟨h.wf, h.grown, h.cursor, h.desired, h.seenLogged, h.current, ?_, ?_, ?_,
    h.pushesKnown⟩, ?_⟩
  · refine forall_task t (fun hin => ?_) fun hin => ?_
    · have hidle : (s.set t .idle).stage t = .idle := stage_set_self s t _
      exact absurd hin (by simp [hidle, Stage.inWindow])
    · rw [other_other]
      exact congrArg Stage.inWindow (stage_set_self s t _)
  · refine forall_task t ?_ ?_
    · show Push.StageOk digest _ ((s.set t .idle).stage t)
      rw [stage_set_self]
      trivial
    · show Push.StageOk digest _ ((s.set t .idle).stage t.other)
      rw [stage_set_other]
      exact h.stages t.other
  · intro _
    show some hash = s.pushes.getLast?.map digest
    rw [hlast, hhash]
    rfl
  · have hclaims : (s.stage t).claims = some hash := by
      rw [hstage]
      rfl
    have hold := virtualHash_eq s t (claims_of_not_inWindow hother)
    have hnew := virtualHash_eq
      ({ s.set t .idle with lastPushedHash := some hash, looping := true } : Push) t
      (by
        show ((s.set t .idle).stage t.other).claims = none
        rw [stage_set_other]
        exact claims_of_not_inWindow hother)
    refine h.fresh_move hclaims rfl rfl rfl rfl (fun t' hne => if_neg hne) ?_
    rw [hnew, hold, hclaims]
    show (((s.set t .idle).stage t).claims).or (some hash) = some hash
    rw [stage_set_self]
    rfl

/-- A call that raised leaves its mark. -/
theorem fail_failed (s : Push) (t : Task) : (s.fail t).failed = true := rfl

/-- A failure is not forgotten. -/
theorem failed_step {a : PushAction} {s' : Push} (hf : s.failed = true)
    (hs : pushStep digest nodeId s a = some s') : s'.failed = true := by
  cases a with
  | write w =>
      simp only [pushStep] at hs
      cases hw : hubStep s.db w with
      | none => simp [hw] at hs
      | some db' =>
          simp only [hw, Option.ite_none_right_eq_some, Option.some.injEq] at hs
          exact hs.2 ▸ hf
  | poll =>
      simp only [pushStep, Option.ite_none_left_eq_some] at hs
      obtain ⟨-, hs⟩ := hs
      split at hs <;> (rw [Option.some.injEq] at hs; exact hs ▸ hf)
  | notify =>
      simp only [pushStep, Option.ite_none_right_eq_some, Option.some.injEq] at hs
      exact hs.2 ▸ hf
  | wakeUp =>
      simp only [pushStep, Option.ite_none_right_eq_some, Option.some.injEq] at hs
      exact hs.2 ▸ hf
  | request =>
      simp only [pushStep, Option.ite_none_right_eq_some, Option.some.injEq] at hs
      exact hs.2 ▸ hf
  | readFingerprint t =>
      simp only [pushStep] at hs
      split at hs
      · split at hs
        · exact Option.some.inj hs ▸ hf
        · exact Option.some.inj hs ▸ fail_failed s t
      · simp at hs
  | check t =>
      simp only [pushStep] at hs
      split at hs
      · split at hs <;> exact Option.some.inj hs ▸ hf
      · simp at hs
  | build t now =>
      simp only [pushStep] at hs
      split at hs
      · split at hs
        · exact Option.some.inj hs ▸ hf
        · exact Option.some.inj hs ▸ fail_failed s t
      · simp at hs
  | send t delivered =>
      simp only [pushStep] at hs
      split at hs
      · split at hs
        · exact Option.some.inj hs ▸ hf
        · exact Option.some.inj hs ▸ fail_failed s t
      · simp at hs
  | assign t =>
      simp only [pushStep] at hs
      split at hs
      · exact Option.some.inj hs ▸ hf
      · simp at hs

/-- **Every step** of a run that pushes alone keeps the invariant, or something
has failed. -/
theorem pushInv_step {a : PushAction} {s' : Push} (hanchor : anchor.QueueWF)
    (h : s.failed = true ∨ PushInv digest nodeId anchor s)
    (hP : PushesAlone digest nodeId s a) (hs : pushStep digest nodeId s a = some s') :
    s'.failed = true ∨ PushInv digest nodeId anchor s' := by
  rcases h with hf | h
  · exact .inl (failed_step hf hs)
  cases a with
  | write w =>
      simp only [pushStep] at hs
      cases hw : hubStep s.db w with
      | none => simp [hw] at hs
      | some db' =>
          rw [hw] at hs
          simp only [Option.ite_none_right_eq_some, Option.some.injEq] at hs
          exact .inr (hs.2 ▸ h.write hw hs.1)
  | poll =>
      simp only [pushStep, Option.ite_none_left_eq_some] at hs
      obtain ⟨hidle, hs⟩ := hs
      have hfetch : (eval (fetchEvents s.lastId) s.db).1 =
          .ok (s.db.eventsSince s.lastId watcherBatch) := rfl
      rw [hfetch, Option.some.injEq] at hs
      have hinv := h.poll hanchor
      rw [Bool.eq_false_iff.mpr hidle, Bool.false_or] at hinv
      exact .inr (hs ▸ hinv)
  | notify =>
      simp only [pushStep, Option.ite_none_right_eq_some, Option.some.injEq] at hs
      exact .inr (hs.2 ▸ h.notify)
  | wakeUp =>
      simp only [pushStep, Option.ite_none_right_eq_some, Option.some.injEq, Bool.and_eq_true,
        decide_eq_true_eq] at hs
      exact .inr (hs.2 ▸ h.startCall hs.1.2 false)
  | request =>
      simp only [pushStep, Option.ite_none_right_eq_some, Option.some.injEq, Bool.and_eq_true,
        decide_eq_true_eq] at hs
      exact .inr (hs.2 ▸ h.startCall hs.1.2 s.wake)
  | readFingerprint t =>
      simp only [pushStep] at hs
      cases hstage : s.stage t with
      | started force =>
          simp only [hstage] at hs
          cases hfp : (eval (computeDesiredFingerprint digest nodeId) s.db).1 with
          | error e =>
              rw [hfp, Option.some.injEq] at hs
              exact .inl (hs ▸ fail_failed s t)
          | ok fp =>
              rw [hfp, Option.some.injEq] at hs
              have hhash := contentHash_of_fingerprint hfp
              rw [hhash] at hs
              exact .inr (hs ▸ h.readFingerprint hstage)
      | _ => simp [hstage] at hs
  | check t =>
      simp only [pushStep] at hs
      cases hstage : s.stage t with
      | fingerprinted force hash =>
          simp only [hstage] at hs
          split at hs
          · rename_i hskip
            rw [Option.some.injEq] at hs
            simp only [Bool.and_eq_true, beq_iff_eq] at hskip
            exact .inr (hs ▸ h.skip hstage hP hskip.2)
          · rw [Option.some.injEq] at hs
            exact .inr (hs ▸ h.proceed hstage hP)
      | _ => simp [hstage] at hs
  | build t now =>
      simp only [pushStep] at hs
      cases hstage : s.stage t with
      | checked hash =>
          simp only [hstage] at hs
          rcases hrun : (buildDesiredState digest now nodeId).run s.db with ⟨r, db'⟩
          cases r with
          | error e =>
              rw [hrun, Option.some.injEq] at hs
              exact .inl (hs ▸ fail_failed s t)
          | ok st =>
              rw [hrun, Option.some.injEq] at hs
              exact .inr (hs ▸ h.build hstage (hP hash hstage) hrun)
      | _ => simp [hstage] at hs
  | send t delivered =>
      simp only [pushStep] at hs
      cases hstage : s.stage t with
      | built hash content =>
          simp only [hstage] at hs
          split at hs
          · rw [Option.some.injEq] at hs
            exact .inr (hs ▸ h.send hstage)
          · rw [Option.some.injEq] at hs
            exact .inl (hs ▸ fail_failed s t)
      | _ => simp [hstage] at hs
  | assign t =>
      simp only [pushStep] at hs
      cases hstage : s.stage t with
      | sent hash =>
          simp only [hstage, Option.some.injEq] at hs
          exact .inr (hs ▸ h.assign hstage)
      | _ => simp [hstage] at hs

theorem pushInv_start (hwf : anchor.WF) :
    PushInv digest nodeId anchor (Push.start nodeId anchor) where
  wf := hwf
  grown := List.prefix_rfl
  cursor := (latestEventId_eq hwf.queue).ge
  desired e he := by simp [Push.start, eventsAfter] at he
  seenLogged e he := by simp [Push.start] at he
  current := List.mem_singleton.mpr rfl
  alone t ht := by cases t <;> simp [Push.start, Stage.inWindow] at ht
  stages t := by cases t <;> trivial
  pushed _ := rfl
  pushesKnown c hc := by simp [Push.start] at hc
  fresh := .inr (.inl (.inr (.inr (.inr ⟨.reader, true, .inl rfl⟩))))

/-- Nothing is due in a quiescent state. -/
theorem PushInv.hash_of_quiescent (h : PushInv digest nodeId anchor s)
    (hquiet : s.Quiescent anchor) :
    s.lastPushedHash = some (digest (s.db.desiredContent nodeId)) := by
  obtain ⟨hseen, hnotifying, hwake, hidle, -⟩ := hquiet
  have hvirtual : s.virtualHash = s.lastPushedHash := by
    rw [Push.virtualHash, hidle, hidle]
    rfl
  rcases h.fresh with hv | hpend | ⟨t, hash, hchk⟩
  · rw [← hvirtual]
    exact hv
  · rcases hpend with hw | hn | ⟨e, he, -, hunseen⟩ | ⟨t, force, hstage⟩
    · rw [hwake] at hw
      simp at hw
    · rw [hnotifying] at hn
      simp at hn
    · exact absurd (hseen e he) hunseen
    · rw [hidle] at hstage
      simp at hstage
  · rw [hidle] at hchk
    simp at hchk

variable (digest nodeId)

/-- **No lost update** in every run in which a call builds the content it has
fingerprinted and compares with `last_pushed_hash` while no other call is about
to assign it: in every quiescent state the last push has the current content. -/
theorem no_lost_update {db : Db} (hreach : db.Reachable) {as : List PushAction} {s : Push}
    (hrun : Machine.exec (pushStep digest nodeId) (Push.start nodeId db) as = some s)
    (halone : Machine.Along (pushStep digest nodeId) (PushesAlone digest nodeId)
      (Push.start nodeId db) as)
    (hquiet : s.Quiescent db) (hinj : Set.InjOn digest {c | c ∈ s.contents}) :
    s.pushes.getLast? = some (s.db.desiredContent nodeId) := by
  have hinv : s.failed = true ∨ PushInv digest nodeId db s :=
    Machine.exec_invariant (pushStep digest nodeId)
      (fun _ _ _ h hP hs => pushInv_step hreach.wf.queue h hP hs)
      (.inr (pushInv_start hreach.wf)) halone hrun
  rcases hinv with hf | h
  · rw [hquiet.2.2.2.2] at hf
    simp at hf
  -- the hash of the last push is that of the current content
  have hlast : s.pushes.getLast?.map digest = some (digest (s.db.desiredContent nodeId)) := by
    rw [← h.pushed fun t hash => by rw [hquiet.2.2.2.1 t]; simp]
    exact h.hash_of_quiescent hquiet
  obtain ⟨content, hcontent, hdigest⟩ := Option.map_eq_some_iff.mp hlast
  have hmem : content ∈ s.contents := h.pushesKnown _ (List.mem_of_getLast? hcontent)
  rw [hcontent, hinj hmem h.current hdigest]

end Digest

/-! ### a content that changes and changes back -/

def pushedRun : List HubAction :=
  [⟨.call (.addNode (lit "a") (lit "alpha")), lit "t0", none, false⟩]

def pushedDb : Db := (Machine.exec hubStep Db.empty pushedRun).getD Db.empty

/-- Give the node an address, or take it away. -/
def writeOwnIpv6 (now : Str) (address : Option Str) : PushAction :=
  .write ⟨.call (.setAddresses (lit "a") .unset (.set address) .unset), now, none, false⟩

/-- The address comes between two pushes and is pushed. -/
def orderlyPushes : List PushAction :=
  [.readFingerprint .reader, .check .reader, .build .reader (lit "t1"), .send .reader true,
    .assign .reader, writeOwnIpv6 (lit "t2") (some (lit "fd00::1")), .poll, .notify, .wakeUp,
    .readFingerprint .pusher, .check .pusher, .build .pusher (lit "t3"), .send .pusher true,
    .assign .pusher]

/-- The address comes between a fingerprint and its build, and goes again. -/
def crossedPush : List PushAction :=
  [.readFingerprint .reader, writeOwnIpv6 (lit "t1") (some (lit "fd00::1")), .check .reader,
    .build .reader (lit "t2"), .send .reader true, .assign .reader,
    writeOwnIpv6 (lit "t3") none, .poll, .notify, .wakeUp, .readFingerprint .pusher,
    .check .pusher]

def pushRun (as : List PushAction) : Push :=
  (Machine.exec (pushStep sampleDigest (lit "a")) (Push.start (lit "a") pushedDb) as).getD
    (Push.start (lit "a") pushedDb)

theorem no_lost_update_orderly :
    (pushRun orderlyPushes).Quiescent pushedDb ∧
      (pushRun orderlyPushes).pushes.getLast? =
        some ((pushRun orderlyPushes).db.desiredContent (lit "a")) := by
  have hquiet : (pushRun orderlyPushes).Quiescent pushedDb :=
    ⟨by decide +kernel, by decide +kernel, by decide +kernel,
      fun t => by cases t <;> decide +kernel, by decide +kernel⟩
  have hreach : pushedDb.Reachable := ⟨pushedRun, rfl⟩
  have hrun : Machine.exec (pushStep sampleDigest (lit "a")) (Push.start (lit "a") pushedDb)
      orderlyPushes = some (pushRun orderlyPushes) := rfl
  have hinj : ∀ c ∈ (pushRun orderlyPushes).contents, ∀ d ∈ (pushRun orderlyPushes).contents,
      sampleDigest c = sampleDigest d → c = d := by decide +kernel
  refine ⟨hquiet, no_lost_update sampleDigest (lit "a") hreach hrun ?_ hquiet
    fun c hc d hd => hinj c hc d hd⟩
  refine Machine.along_cons _ trivial rfl (Machine.along_cons _ rfl rfl
    (Machine.along_cons _ (fun hash h => (Stage.checked.inj h).symm) rfl
    (Machine.along_cons _ trivial rfl (Machine.along_cons _ trivial rfl
    (Machine.along_cons _ trivial rfl (Machine.along_cons _ trivial rfl
    (Machine.along_cons _ trivial rfl (Machine.along_cons _ trivial rfl
    (Machine.along_cons _ trivial rfl (Machine.along_cons _ rfl rfl
    (Machine.along_cons _ (fun hash h => (Stage.checked.inj h).symm) rfl
    (Machine.along_cons _ trivial rfl (Machine.along_cons _ trivial rfl trivial)))))))))))))

/-- Every event is fetched, nothing is in flight, and the node holds an address
that the hub no longer gives it. -/
theorem crossedPush_loses_update : pushedDb.Reachable ∧
    Machine.exec (pushStep sampleDigest (lit "a")) (Push.start (lit "a") pushedDb) crossedPush =
      some (pushRun crossedPush) ∧
    (pushRun crossedPush).Quiescent pushedDb ∧
    Set.InjOn sampleDigest {c | c ∈ (pushRun crossedPush).contents} ∧
    (pushRun crossedPush).pushes.getLast? ≠
      some ((pushRun crossedPush).db.desiredContent (lit "a")) := by
  have hinj : ∀ c ∈ (pushRun crossedPush).contents, ∀ d ∈ (pushRun crossedPush).contents,
      sampleDigest c = sampleDigest d → c = d := by decide +kernel
  refine ⟨⟨pushedRun, rfl⟩, rfl, ?_, fun c hc d hd => hinj c hc d hd, by decide +kernel⟩
  exact ⟨by decide +kernel, by decide +kernel, by decide +kernel,
    fun t => by cases t <;> decide +kernel, by decide +kernel⟩

end Dn42Ctl
