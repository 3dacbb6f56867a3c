import Dn42Ctl.Events
import Dn42Ctl.Watcher

/-!
# Registry

The hub's live connections: `serve_node_connection` up to the registry, the
registry itself, and the watcher that closes the connections of a node whose
access was revoked.  A token is checked once, at the start of the handshake; a
connection becomes visible to the watcher only when it is registered.
-/

namespace Dn42Ctl

open Text Txn

section Tokens

variable (sha256 : Str → Str)

/-! ## authorisation -/

/-- The node exists, is enabled, and the token verifies against its hash. -/
def Db.authorizes (nodeId token : Str) (db : Db) : Bool :=
  db.managedNodes.any fun n =>
    n.nodeId == nodeId && n.enabled && n.apiTokenHash.any fun stored =>
      verifyToken sha256 stored token

/-- `_extract_bearer`. -/
def extractBearer (header : Option Str) : Option Str :=
  match header with
  | none => none
  | some value =>
      let (scheme, token) := partition 32 value
      let token := strip (token.getD [])
      if lower scheme != lit "bearer" || token.isEmpty then none else some token

/-- Where `serve_node_connection` stands. -/
inductive Phase where
  | accepted
  | authenticated
  | checked
  | greeted
  | registered
  | gone
deriving DecidableEq, Repr

structure Session where
  nodeId : Str
  token : Str
  phase : Phase
  /-- The hub has closed the socket. -/
  closed : Bool := false
deriving DecidableEq, Repr

/-- `MAX_CONNECTIONS_PER_NODE`. -/
def maxConnectionsPerNode : Nat := 4

structure Fleet where
  db : Db
  /-- `last_id`; `none` when the cursor could not be read at the start. -/
  lastId : Option Nat
  /-- Nodes of the current batch whose connections are still to be closed. -/
  revoking : List Str
  /-- Every event a fetch has returned. -/
  seen : List SyncEvent
  sessions : List Session
  /-- The registered connections, oldest first. -/
  registry : List Nat

/-- A hub that has just started; reading the cursor may have failed. -/
def Fleet.start (db : Db) (anchored : Bool) : Fleet :=
  ⟨db, if anchored then some db.latestEventId else none, [], [], [], []⟩

def Fleet.session (s : Fleet) (i : Nat) : Option Session := s.sessions[i]?

/-- The registered connections of a node, oldest first. -/
def Fleet.connectionsFor (s : Fleet) (nodeId : Str) : List Nat :=
  s.registry.filter fun i => (s.session i).any fun c => c.nodeId == nodeId

/-- Change the sessions with these indices. -/
def Fleet.update (s : Fleet) (indices : List Nat) (f : Session → Session) : Fleet :=
  { s with sessions := s.sessions.mapIdx fun i c => if indices.contains i then f c else c }

def Session.close (c : Session) : Session := { c with closed := true }

/-- A step of the handshake: its outcome decides the next phase. -/
def Session.advance (next : Phase) (ok : Bool) (c : Session) : Session :=
  { c with phase := if ok then next else .gone }

/-- `register`: append, and close all but the newest four of the node. -/
def Fleet.register (s : Fleet) (i : Nat) (nodeId : Str) : Fleet :=
  let s := { s.update [i] (Session.advance .registered true) with registry := s.registry ++ [i] }
  s.update ((s.connectionsFor nodeId).take
    ((s.connectionsFor nodeId).length - maxConnectionsPerNode)) Session.close

variable {sha256} {n token : Str} {db mid : Db}

theorem any_map_of_imp {α : Type} {q : α → Bool} {g : α → α} {rows : List α}
    (h : ∀ x ∈ rows, q x = true → q (g x) = true) (hq : rows.any q = true) :
    (rows.map g).any q = true := by
  obtain ⟨x, hx, hqx⟩ := List.any_eq_true.mp hq
  exact List.any_eq_true.mpr ⟨g x, List.mem_map_of_mem hx, h x hx hqx⟩

/-- Only the table of managed nodes matters. -/
theorem authorizes_congr (h : mid.managedNodes = db.managedNodes) :
    mid.authorizes sha256 n token = db.authorizes sha256 n token := by
  rw [Db.authorizes, Db.authorizes, h]

/-- A row stays authorised when its key, its flag and its hash do. -/
theorem authorizes_updateWhere {p : ManagedNode → Bool} {f : ManagedNode → ManagedNode}
    (hmid : mid.managedNodes = Rows.updateWhere p f db.managedNodes)
    (hf : ∀ x, p x = true → x.nodeId = n → (f x).nodeId = x.nodeId ∧
      (x.enabled = true → (f x).enabled = true) ∧ (f x).apiTokenHash = x.apiTokenHash)
    (h : db.authorizes sha256 n token = true) : mid.authorizes sha256 n token = true := by
  rw [Db.authorizes, hmid]
  refine any_map_of_imp (fun x _ hx => ?_) h
  cases hp : p x with
  | false => simpa [hp] using hx
  | true =>
      simp only [Bool.and_eq_true, beq_iff_eq] at hx
      obtain ⟨h1, h2, h3⟩ := hf x hp hx.1.1
      have henabled : (f x).enabled = true := h2 hx.1.2
      simp only [if_true, h1, hx.1.1, henabled, h3, beq_self_eq_true, Bool.true_and]
      exact hx.2

/-- A node more authorises what was authorised. -/
theorem authorizes_append {node : ManagedNode}
    (hmid : mid.managedNodes = db.managedNodes ++ [node])
    (h : db.authorizes sha256 n token = true) : mid.authorizes sha256 n token = true := by
  have hany : db.managedNodes.any _ = true := h
  rw [Db.authorizes, hmid, List.any_append, hany, Bool.true_or]

/-- Disabling a node is announced. -/
theorem revoked_mem_addressEvents {f : NodeFields} {cs : List PropagatedChange}
    (h : f.enabled = .set false) :
    (n, SyncKind.accessRevoked) ∈ ManagedNodeStore.addressEvents n f cs := by
  rw [ManagedNodeStore.addressEvents, if_pos h]
  exact List.mem_append_right _ (List.mem_singleton.mpr rfl)

/-- A registration authorises what was authorised. -/
theorem authorizes_upsertSelf {m name now : Str} {u : Unit}
    (h : ((db.demoteSelf now m).upsertNode m).upsertSelfRow
      (ManagedNodeStore.newNode now m name true) = .ok (u, mid))
    (ha : db.authorizes sha256 n token = true) : mid.authorizes sha256 n token = true := by
  have hdemote : (db.demoteSelf now m).authorizes sha256 n token = true :=
    authorizes_updateWhere rfl (fun _ _ _ => ⟨rfl, fun he => he, rfl⟩) ha
  rw [upsertNode_eq] at h
  rcases upsertSelfRow_ok h with hmid | ⟨-, hmid⟩
  · have hrows := congrArg Db.managedNodes hmid
    exact authorizes_updateWhere hrows (fun _ _ _ => ⟨rfl, fun _ => rfl, rfl⟩) hdemote
  · have hrows := congrArg Db.managedNodes hmid
    exact authorizes_append hrows hdemote

/-- So does an update of the columns that does not disable. -/
theorem authorizes_fieldUpdate {call : Call} {m now : Str} {f : NodeFields}
    {cs : List PropagatedChange} {evs : List (Str × SyncKind)}
    (hfu : call.fieldUpdate = some (m, f, cs)) (h : call.commit now db = some (mid, evs))
    (ha : db.authorizes sha256 n token = true) :
    mid.authorizes sha256 n token = true ∨ (n, SyncKind.accessRevoked) ∈ evs := by
  rw [commit_of_fieldUpdate hfu] at h
  obtain ⟨-, hevs, hmid⟩ := commitFields_eq_some h
  have hrows : mid.managedNodes = Rows.updateWhere (fun x => x.nodeId == m) (f.apply now)
      db.managedNodes := by
    rw [hmid, applyChanges_managedNodes]
    rfl
  by_cases hdis : n = m ∧ f.enabled = .set false
  · refine .inr ?_
    rw [hevs, hdis.1]
    exact revoked_mem_addressEvents hdis.2
  · refine .inl (authorizes_updateWhere hrows (fun x hx hxn => ⟨rfl, fun he => ?_, rfl⟩) ha)
    have hnm : n = m := by
      rw [← hxn]
      exact beq_iff_eq.mp hx
    cases hen : f.enabled with
    | unset => simpa [NodeFields.apply, hen, Patch.getD] using he
    | set b =>
        cases b with
        | true => simp [NodeFields.apply, hen, Patch.getD]
        | false => exact absurd ⟨hnm, hen⟩ hdis

/-- **Revocations are announced**: a committed call that takes a node's
authorisation away announces `access_revoked` for it. -/
theorem Call.authorizes_commit {call : Call} {now : Str} {evs : List (Str × SyncKind)}
    (h : call.commit now db = some (mid, evs)) (ha : db.authorizes sha256 n token = true) :
    mid.authorizes sha256 n token = true ∨ (n, SyncKind.accessRevoked) ∈ evs := by
  by_cases hw : Table.managedNodes ∈ call.writes
  · cases hfu : call.fieldUpdate with
    | some x => exact authorizes_fieldUpdate hfu h ha
    | none =>
        cases call with
        | addNode m name =>
            obtain ⟨⟨u, hr⟩, -⟩ := committedIf_eq_some h
            obtain ⟨-, hmid⟩ := insertNode_ok hr
            have hrows := congrArg Db.managedNodes hmid
            rw [upsertNode_eq] at hrows
            exact .inl (authorizes_append hrows ha)
        | upsertSelf m name =>
            obtain ⟨⟨u, hr⟩, -⟩ := committedIf_eq_some h
            exact .inl (authorizes_upsertSelf hr ha)
        | deleteNode m force =>
            simp only [Call.commit] at h
            split at h
            · simp at h
            · simp only [Option.ite_none_left_eq_some, Option.some.injEq, Prod.mk.injEq] at h
              obtain ⟨-, rfl, rfl⟩ := h
              by_cases hnm : n = m
              · exact .inr (by simp [hnm])
              · refine .inl (List.any_eq_true.mpr ?_)
                obtain ⟨x, hx, hq⟩ := List.any_eq_true.mp ha
                refine ⟨x, List.mem_filter.mpr ⟨hx, ?_⟩, hq⟩
                simp only [Bool.and_eq_true, beq_iff_eq] at hq
                simp [hq.1.1, hnm]
        | setTokenHash m hash =>
            simp only [Call.commit, Option.ite_none_right_eq_some, Option.some.injEq,
              Prod.mk.injEq] at h
            obtain ⟨-, rfl, rfl⟩ := h
            by_cases hnm : n = m
            · exact .inr (by simp [hnm])
            · refine .inl (authorizes_updateWhere rfl (fun x hx hxn => ?_) ha)
              exact absurd (hxn.symm.trans (beq_iff_eq.mp hx)) hnm
        | setWritePolicy m policy =>
            simp only [Call.commit] at h
            split at h
            · simp at h
            · simp only [Option.ite_none_right_eq_some, Option.some.injEq, Prod.mk.injEq] at h
              obtain ⟨-, rfl, rfl⟩ := h
              exact .inl (authorizes_updateWhere rfl (fun _ _ _ => ⟨rfl, fun he => he, rfl⟩) ha)
        | touchLastSeen m =>
            simp only [Call.commit, Option.some.injEq, Prod.mk.injEq] at h
            obtain ⟨rfl, rfl⟩ := h
            exact .inl (authorizes_updateWhere rfl (fun _ _ _ => ⟨rfl, fun he => he, rfl⟩) ha)
        | setAddresses m host v6 rid =>
            simp only [Call.fieldUpdate, ite_eq_left_iff, reduceCtorEq, imp_false,
              not_not] at hfu
            simp [Call.commit, hfu] at h
        | setName m name => simp [Call.fieldUpdate] at hfu
        | setEnabled m e => simp [Call.fieldUpdate] at hfu
        | applyAddressUpdate m f cs => simp [Call.fieldUpdate] at hfu
        | _ => simp [Call.writes] at hw
  · have hrows := (call.commit_frame h).managedNodes hw
    rw [authorizes_congr hrows]
    exact .inl ha

/-! ## what a write does to the log -/

/-- **A write never forgets**: the log only grows, and a node that loses its
authorisation is named by one of the new events. -/
theorem hubStep_authorizes (sha256 : Str → Str) {db' : Db} {a : HubAction}
    (h : hubStep db a = some db') :
    ∃ new, db'.syncLog = db.syncLog ++ new ∧
      ∀ n token, db.authorizes sha256 n token = true →
        db'.authorizes sha256 n token = true ∨
          ∃ e ∈ new, e.kind = .accessRevoked ∧ e.nodeId = n := by
  by_cases hcall : ∃ c, a.write = .call c
  · obtain ⟨c, hw⟩ := hcall
    have hsame : ∀ {d : Db}, d = db → ∃ new, d.syncLog = db.syncLog ++ new ∧
        ∀ n token, db.authorizes sha256 n token = true → d.authorizes sha256 n token = true ∨
          ∃ e ∈ new, e.kind = .accessRevoked ∧ e.nodeId = n := by
      intro d hd
      exact ⟨[], by rw [hd, List.append_nil], fun n token ha => .inl (by rwa [hd])⟩
    rcases hubStep_call hw h with hdb | hdb
    · exact hsame hdb
    · rcases after_log a.now db c with heq | ⟨mid, evs, hc, hnodes, hlog⟩
      · exact hsame (hdb.trans heq)
      · rw [← hdb] at hnodes hlog
        refine ⟨_, hlog, fun n token ha => ?_⟩
        rcases Call.authorizes_commit hc ha with hkeep | hrev
        · exact .inl (by rwa [authorizes_congr hnodes])
        · obtain ⟨e, he, hen, hek⟩ := mem_loggedFrom a.now db.syncSeq hrev
          exact .inr ⟨e, he, hek, hen⟩
  · have hrepair := hubStep_repair_sameNodes h fun c hw => hcall ⟨c, hw⟩
    obtain ⟨new, hnew⟩ := hrepair.log
    refine ⟨new, hnew.symm, fun n token ha => .inl ?_⟩
    rwa [authorizes_congr hrepair.nodes]

/-! ## the invariant of the fleet -/

/-- A revocation of the node is in the batch being worked off, or no fetch has
returned it yet. -/
def Fleet.RevocationPending (anchor : Db) (s : Fleet) (nodeId : Str) : Prop :=
  nodeId ∈ s.revoking ∨ ∃ e ∈ eventsAfter anchor s.db,
    e.kind = .accessRevoked ∧ e.nodeId = nodeId ∧ e ∉ s.seen

/-- What the watcher can rely on for a connection it can see. -/
def Fleet.Sound (sha256 : Str → Str) (anchor : Db) (s : Fleet) (c : Session) : Prop :=
  s.db.authorizes sha256 c.nodeId c.token = true ∨ s.RevocationPending anchor c.nodeId

structure FleetInv (sha256 : Str → Str) (anchor : Db) (s : Fleet) : Prop where
  wf : s.db.WF
  grown : anchor.syncLog <+: s.db.syncLog
  seenLogged : ∀ e ∈ s.seen, e ∈ s.db.syncLog
  inRange : ∀ i ∈ s.registry, i < s.sessions.length
  sound : ∀ i ∈ s.registry, ∀ c, s.session i = some c → c.closed = false → s.Sound sha256 anchor c

/-- The watcher has worked off every event committed since it started. -/
def Fleet.Quiescent (anchor : Db) (s : Fleet) : Prop :=
  s.revoking = [] ∧ ∀ e ∈ eventsAfter anchor s.db, e ∈ s.seen

/-- An update that keeps who a session is and never reopens it. -/
def Session.Tame (f : Session → Session) : Prop :=
  ∀ c, (f c).nodeId = c.nodeId ∧ (f c).token = c.token ∧ ((f c).closed = false → c.closed = false)

theorem tame_advance (next : Phase) (ok : Bool) : Session.Tame (Session.advance next ok) :=
  fun _ => ⟨rfl, rfl, fun h => h⟩

theorem tame_close : Session.Tame Session.close :=
  fun _ => ⟨rfl, rfl, fun h => by simp [Session.close] at h⟩

/-- A session after an update. -/
theorem session_update (s : Fleet) (is : List Nat) (f : Session → Session) (i : Nat) :
    (s.update is f).session i = (s.session i).map fun c => if is.contains i then f c else c := by
  simp only [Fleet.session, Fleet.update, List.getElem?_mapIdx]

theorem length_update (s : Fleet) (is : List Nat) (f : Session → Session) :
    (s.update is f).sessions.length = s.sessions.length := by
  simp [Fleet.update]

/-- A session after a tame update comes from one that was already open. -/
theorem session_of_update {s : Fleet} {is : List Nat} {f : Session → Session}
    (hf : Session.Tame f) {i : Nat} {c : Session} (h : (s.update is f).session i = some c)
    (hc : c.closed = false) :
    ∃ c0, s.session i = some c0 ∧ c0.closed = false ∧ c.nodeId = c0.nodeId ∧
      c.token = c0.token := by
  rw [session_update, Option.map_eq_some_iff] at h
  obtain ⟨c0, h0, heq⟩ := h
  refine ⟨c0, h0, ?_⟩
  split at heq
  · obtain ⟨h1, h2, h3⟩ := hf c0
    rw [heq] at h1 h2 h3
    exact ⟨h3 hc, h1, h2⟩
  · rw [heq]
    exact ⟨hc, rfl, rfl⟩

variable {anchor : Db} {s s' : Fleet}

/-- A step that only moves sessions along. -/
theorem FleetInv.update (h : FleetInv sha256 anchor s) {is : List Nat} {f : Session → Session}
    (hf : Session.Tame f) : FleetInv sha256 anchor (s.update is f) where
  wf := h.wf
  grown := h.grown
  seenLogged := h.seenLogged
  inRange i hi := by
    rw [length_update]
    exact h.inRange i hi
  sound i hi c hc hopen := by
    obtain ⟨c0, h0, hopen0, hn, ht⟩ := session_of_update hf hc hopen
    have hsound := h.sound i hi c0 h0 hopen0
    rw [Fleet.Sound, hn, ht]
    exact hsound

/-- A connection more. -/
theorem FleetInv.connect (h : FleetInv sha256 anchor s) (c : Session) :
    FleetInv sha256 anchor { s with sessions := s.sessions ++ [c] } where
  wf := h.wf
  grown := h.grown
  seenLogged := h.seenLogged
  inRange i hi := by
    have := h.inRange i hi
    simp only [List.length_append, List.length_singleton]
    omega
  sound i hi c' hc' hopen := by
    have hlt := h.inRange i hi
    have hold : s.session i = some c' := by
      rw [Fleet.session] at hc' ⊢
      rwa [List.getElem?_append_left hlt] at hc'
    exact h.sound i hi c' hold hopen

/-- A session that is registered. -/
theorem FleetInv.register (h : FleetInv sha256 anchor s) {i : Nat} {n : Str} {c : Session}
    (hc : s.session i = some c) (hsound : s.Sound sha256 anchor c) :
    FleetInv sha256 anchor (s.register i n) := by
  have hadded : FleetInv sha256 anchor
      { s.update [i] (Session.advance .registered true) with registry := s.registry ++ [i] } := by
    have hup : FleetInv sha256 anchor (s.update [i] (Session.advance .registered true)) :=
      h.update (tame_advance _ _)
    refine ⟨h.wf, h.grown, h.seenLogged, fun j hj => ?_, fun j hj d hd hopen => ?_⟩
    · rcases List.mem_append.mp hj with hj | hj
      · exact hup.inRange j hj
      · rw [List.mem_singleton.mp hj]
        have hlt := (List.getElem?_eq_some_iff.mp hc).1
        rw [← length_update s [i] (Session.advance .registered true)] at hlt
        exact hlt
    · rcases List.mem_append.mp hj with hj | hj
      · exact hup.sound j hj d hd hopen
      · rw [List.mem_singleton.mp hj] at hd
        obtain ⟨c0, h0, -, hn, ht⟩ := session_of_update (tame_advance _ _) hd hopen
        have hcc : c0 = c := Option.some.inj (h0.symm.trans hc)
        rw [Fleet.Sound, hn, ht, hcc]
        exact hsound
  exact hadded.update tame_close

/-- A session that ends. -/
theorem FleetInv.finish (h : FleetInv sha256 anchor s) (i : Nat) :
    FleetInv sha256 anchor
      { s.update [i] (Session.advance .gone true) with registry := s.registry.erase i } := by
  have hup : FleetInv sha256 anchor (s.update [i] (Session.advance .gone true)) :=
    h.update (tame_advance _ _)
  exact ⟨hup.wf, hup.grown, hup.seenLogged,
    fun j hj => hup.inRange j (List.mem_of_mem_erase hj),
    fun j hj => hup.sound j (List.mem_of_mem_erase hj)⟩

/-! ### the watcher -/

/-- The watcher reads events. -/
theorem FleetInv.poll (h : FleetInv sha256 anchor s) (hrev : s.revoking = []) (lastId : Nat) :
    FleetInv sha256 anchor { s with
      lastId := some (advanceCursor lastId (s.db.eventsSince lastId watcherBatch))
      revoking := (revokedNodes (s.db.eventsSince lastId watcherBatch)).eraseDups
      seen := s.seen ++ s.db.eventsSince lastId watcherBatch } where
  wf := h.wf
  grown := h.grown
  seenLogged e he := by
    rcases List.mem_append.mp he with he | he
    · exact h.seenLogged e he
    · have hmem := List.mem_of_mem_take he
      rw [List.mem_insertionSort] at hmem
      exact h.wf.queue.queueLogged.subset (List.mem_filter.mp hmem).1
  inRange := h.inRange
  sound i hi c hc hopen := by
    rcases h.sound i hi c hc hopen with hauth | hin | ⟨e, he, hk, hn, hseen⟩
    · exact .inl hauth
    · rw [hrev] at hin
      simp at hin
    · by_cases hfetched : e ∈ s.db.eventsSince lastId watcherBatch
      · -- the batch holds the revocation, so the node is on the list to close
        refine .inr (.inl ?_)
        rw [List.mem_eraseDups, revokedNodes, ← hn]
        exact List.mem_map_of_mem (List.mem_filter.mpr ⟨hfetched, by simpa using hk⟩)
      · refine .inr (.inr ⟨e, he, hk, hn, fun hmem => ?_⟩)
        rcases List.mem_append.mp hmem with hmem | hmem
        · exact hseen hmem
        · exact hfetched hmem

/-- A write of the hub. -/
theorem FleetInv.write (h : FleetInv sha256 anchor s) {a : HubAction} {db' : Db}
    (hs : hubStep s.db a = some db') : FleetInv sha256 anchor { s with db := db' } := by
  have hwf : db'.WF := wf_hubStep h.wf hs
  obtain ⟨new, hlog, hkeep⟩ := hubStep_authorizes sha256 hs
  have hgrown : anchor.syncLog <+: db'.syncLog := by
    rw [hlog]
    exact h.grown.trans (List.prefix_append _ _)
  have hafter := eventsAfter_append h.grown hlog
  have hfresh := new_not_logged hwf.queue hlog
  refine ⟨hwf, hgrown, fun e he => ?_, h.inRange, fun i hi c hc hopen => ?_⟩
  · rw [hlog]
    exact List.mem_append_left _ (h.seenLogged e he)
  · rcases h.sound i hi c hc hopen with hauth | hin | ⟨e, he, hk, hn, hseen⟩
    · rcases hkeep c.nodeId c.token hauth with hauth' | ⟨e, he, hk, hn⟩
      · exact .inl hauth'
      · refine .inr (.inr ⟨e, ?_, hk, hn, fun hmem => hfresh e he (h.seenLogged e hmem)⟩)
        rw [hafter]
        exact List.mem_append_right _ he
    · exact .inr (.inl hin)
    · refine .inr (.inr ⟨e, ?_, hk, hn, hseen⟩)
      rw [hafter]
      exact List.mem_append_left _ he

/-! ## every run -/

end Tokens

/-- SHA-256 on two tokens. -/
def sampleSha256 (token : Str) : Str :=
  if token = lit "old" then
    lit "cba06b5736faf67e54b07b561eae94395e774c517a7d910a54369e1263ccfbd4"
  else lit "11507a0e2f5e69d5dfa40a62a1bd7b6ee57e6bcd85c67c9b8431b36fff21c437"

/-- A node with a token. -/
def rotatedRun : List HubAction :=
  [⟨.call (.addNode (lit "a") (lit "alpha")), lit "t0", none, false⟩,
    ⟨.call (.setTokenHash (lit "a") (hashToken sampleSha256 (lit "old"))), lit "t1", none, false⟩]

def rotatedDb : Db := (Machine.exec hubStep Db.empty rotatedRun).getD Db.empty

end Dn42Ctl
