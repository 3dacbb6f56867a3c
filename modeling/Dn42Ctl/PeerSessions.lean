import Dn42Ctl.AutoPeer
import Dn42Ctl.Confinement

/-!
# PeerSessions

`submit_peer`: a peer session is claimed, a node is chosen, a proposal is
submitted, and the session is released or dropped.  The store is locked for the
first step and the last; the database is used in between.

* `peeringStep` — any number of such calls, with `open_session` and the purges
  of the store between their steps;
* `Peering.Phase` — what the store, the calls and the proposals are for one
  token;
* `one_proposal_per_session` — one proposal at most, with the verified ASN, for
  a node that was open; and a session whose submission failed is free again.
-/

namespace Dn42Ctl

open Text Txn Prog

/-! ## `services/auto_peer.py` -/

inductive AutoPeerErrorClass where
  | autoPeer
  | autoPeerExpired
  | autoPeerSession
deriving DecidableEq, Repr

/-- What `submit_peer` raises: an error of its own, or one of what it calls. -/
inductive SubmitError where
  | autoPeer (cls : AutoPeerErrorClass) (text : Msg)
  | service (e : Exc PyError)

/-- `_claim_session`: of the calls with one token, the first gets the session. -/
def claimSession (now : Double) (token : Str) (st : SessionStore) :
    Except SubmitError PeerSession × SessionStore :=
  if token.isEmpty then
    (.error (.autoPeer .autoPeerSession [.text (lit "缺少 peer-session token")]), st)
  else
    let st := purgeExpired now st
    match st.sessions.find? fun s => s.token == token with
    | none => (.error (.autoPeer .autoPeerExpired [.text (lit "peer-session 已过期或无效")]), st)
    | some session =>
        if session.expiresAt ≤ now then
          (.error (.autoPeer .autoPeerExpired [.text (lit "peer-session 已过期或无效")]), st)
        else if session.inFlight then
          (.error (.autoPeer .autoPeer [.text (lit "该 peer-session 正在处理中，请稍候重试")]), st)
        else
          (.ok { session with inFlight := true }, { st with
            sessions := Rows.updateWhere (fun s => s.token == token)
              (fun s => { s with inFlight := true }) st.sessions })

/-- `_release_session`. -/
def releaseSession (token : Str) (st : SessionStore) : SessionStore :=
  { st with
    sessions := Rows.updateWhere (fun s => s.token == token) (fun s => { s with inFlight := false })
      st.sessions }

/-- `_sessions.pop(session_token, None)`. -/
def popSession (token : Str) (st : SessionStore) : SessionStore :=
  { st with sessions := Rows.deleteWhere (fun s => s.token == token) st.sessions }

structure PeerTarget where
  nodeId : Str
  name : Str
  endpointHost : Option Str
deriving DecidableEq, Repr

/-- `list_peer_targets`. -/
def listPeerTargets : DbTx (List PeerTarget) := do
  let nodes ← ManagedNodeStore.listAutoPeer
  pure (nodes.map fun n => ⟨n.nodeId, n.name, n.endpointHost⟩)

/-- `_resolve_target`. -/
def resolveTarget (nodeId : Str) (db : Db) : Except SubmitError (Str × Str) :=
  match ((onConnection listPeerTargets).run db).1 with
  | .error e => .error (.service e)
  | .ok targets =>
      match targets.find? fun t => t.nodeId == nodeId with
      | some t => .ok (t.nodeId, t.name)
      | none =>
          .error (.autoPeer .autoPeer [.text (lit "节点不接受 auto-peer 请求: "), .text nodeId])

/-- The keyword arguments of `submit_peer`. -/
structure SubmitArgs where
  sessionToken : Str
  nodeId : Str
  wgPublicKey : Str
  endpoint : Str
  peerLla : Str
  netBackend : Str := lit "networkd"
  listenPort : Option Int := none
deriving DecidableEq, Repr

/-- `build_peer_add_payload`. -/
def buildPeerAddPayload (peerKind : Str) (peer : JsonObject) : Except PyError JsonObject :=
  if peerKind = lit "bgp" ∨ peerKind = lit "ibgp" then
    pure [(lit "peer_kind", .str peerKind), (lit "peer", .dict peer)]
  else throw (dn42CtlError [.text (lit "peer_kind 必须是 bgp 或 ibgp, 收到 "), .text peerKind])

/-- The peer a session asks for. -/
def sessionPeer (session : PeerSession) (a : SubmitArgs) : JsonObject :=
  [(lit "peer_asn", .int session.asn), (lit "peer_public_key", .str a.wgPublicKey),
    (lit "endpoint", .str a.endpoint), (lit "peer_lla", .str a.peerLla),
    (lit "net_backend", .str a.netBackend),
    (lit "listen_port", match a.listenPort with | none => .null | some port => .int port)]

/-- The payload and its submission. -/
def submitSession (env : PeerEnv) (session : PeerSession) (a : SubmitArgs) (target : Str) :
    Service ConfigProposal := do
  let payload ← liftCheck (buildPeerAddPayload (lit "bgp") (sessionPeer session a))
  submitProposal env target (lit "push") (lit "peer_add") (.dict payload) none

structure SubmitResult where
  proposal : ConfigProposal
  nodeId : Str
  nodeName : Str

/-! ## the machine -/

/-- How far a call of `submit_peer` has come. -/
inductive SubmitStage where
  | started
  | claimed (session : PeerSession)
  /-- The target's id and name; `seen` is the database it was resolved in, which
  nothing reads. -/
  | resolved (session : PeerSession) (target : Str × Str) (seen : Db)
  /-- An exception was caught, and the session is to be released. -/
  | failed (e : SubmitError)
  /-- The proposal is there, and the session is to be dropped. -/
  | submitted (result : SubmitResult)
  | raised (e : SubmitError)
  | returned (result : SubmitResult)

/-- The call has claimed the session and not given it back. -/
def SubmitStage.holds : SubmitStage → Bool
  | .claimed _ | .resolved .. | .failed _ | .submitted _ => true
  | .started | .raised _ | .returned _ => false

def SubmitStage.isSubmitted : SubmitStage → Bool
  | .submitted _ => true
  | _ => false

def SubmitStage.isResolved : SubmitStage → Bool
  | .resolved .. => true
  | _ => false

structure SubmitCall where
  args : SubmitArgs
  stage : SubmitStage

/-- A session that was opened. -/
structure Opening where
  token : Str
  identity : KioubitIdentity
  expiresAt : Double

/-- A proposal that `submit_peer` created. -/
structure Creation where
  token : Str
  proposal : ConfigProposal
  /-- The database when the target was resolved. -/
  seen : Db

/-- The database, the store and the calls at work.  The last three fields are
history: the sessions opened, the clock readings the store was purged at, and
the proposals created. -/
structure Peering where
  db : Db
  store : SessionStore := {}
  calls : List SubmitCall := []
  opened : List Opening := []
  readings : List Double := []
  created : List Creation := []

def Peering.start (db : Db) : Peering := { db }

inductive PeeringAction where
  | openSession (now : Double) (token : Str) (identity : KioubitIdentity)
  | purge (now : Double)
  | call (a : SubmitArgs)
  | claim (i : Nat) (now : Double)
  | resolve (i : Nat)
  | submit (i : Nat) (env : PeerEnv)
  /-- Release the session or drop it. -/
  | finish (i : Nat)
  /-- Another write to the database. -/
  | write (a : HubAction)

def Peering.moveTo (s : Peering) (i : Nat) (stage : SubmitStage) : Peering :=
  { s with calls := s.calls.modify i fun c => { c with stage } }

/-- Take a clock reading and purge the store at it. -/
def Peering.purge (s : Peering) (now : Double) : Peering :=
  { s with store := purgeExpired now s.store, readings := s.readings ++ [now] }

/-- `open_session`, which purges first. -/
def Peering.openSession (s : Peering) (now : Double) (token : Str) (identity : KioubitIdentity) :
    Peering :=
  match Dn42Ctl.openSession now token identity s.store with
  | (.error _, store) => { s with store, readings := s.readings ++ [now] }
  | (.ok issued, store) =>
      { s with
        store, readings := s.readings ++ [now]
        opened := s.opened ++ [⟨issued.peerSessionToken, identity, issued.expiresAt⟩] }

/-- `_claim_session`; without a token it does not come to the lock. -/
def Peering.claim (s : Peering) (i : Nat) (token : Str) (now : Double) : Peering :=
  let readings := if token.isEmpty then s.readings else s.readings ++ [now]
  match claimSession now token s.store with
  | (.error e, store) => Peering.moveTo { s with store, readings } i (.raised e)
  | (.ok session, store) => Peering.moveTo { s with store, readings } i (.claimed session)

def peeringStep (s : Peering) : PeeringAction → Option Peering
  | .openSession now token identity => some (s.openSession now token identity)
  | .purge now => some (s.purge now)
  | .call a => some { s with calls := s.calls ++ [⟨a, .started⟩] }
  | .claim i now =>
      match s.calls[i]? with
      | some ⟨a, .started⟩ => some (s.claim i a.sessionToken now)
      | _ => none
  | .resolve i =>
      match s.calls[i]? with
      | some ⟨a, .claimed session⟩ =>
          match resolveTarget a.nodeId s.db with
          | .error e => some (s.moveTo i (.failed e))
          | .ok target => some (s.moveTo i (.resolved session target s.db))
      | _ => none
  | .submit i env =>
      match s.calls[i]? with
      | some ⟨a, .resolved session target seen⟩ =>
          match (submitSession env session a target.1).run s.db with
          | (.error e, db) => some (Peering.moveTo { s with db } i (.failed (.service e)))
          | (.ok p, db) =>
              let created := s.created ++ [⟨a.sessionToken, p, seen⟩]
              some (Peering.moveTo { s with db, created } i
                (.submitted ⟨p, target.1, target.2⟩))
      | _ => none
  | .finish i =>
      match s.calls[i]? with
      | some ⟨a, .failed e⟩ =>
          some (Peering.moveTo { s with store := releaseSession a.sessionToken s.store } i
            (.raised e))
      | some ⟨a, .submitted result⟩ =>
          some (Peering.moveTo { s with store := popSession a.sessionToken s.store } i
            (.returned result))
      | _ => none
  | .write a => (hubStep s.db a).map fun db => { s with db }

def PeeringAction.opens : PeeringAction → Bool
  | .openSession .. => true
  | _ => false

/-- The tokens that are drawn have not been drawn before. -/
def FreshToken (s : Peering) : PeeringAction → Prop
  | .openSession _ token _ => token ≠ [] ∧ ∀ o ∈ s.opened, o.token ≠ token
  | _ => True

/-! ## one token -/

/-- The stored session, as it was opened. -/
def Opening.session (o : Opening) (inFlight : Bool) : PeerSession :=
  ⟨o.token, o.identity.asn, o.identity.mntner, o.expiresAt, inFlight⟩

def SubmitStage.session? : SubmitStage → Option PeerSession
  | .claimed session | .resolved session _ _ => some session
  | _ => none

namespace Peering

section View

variable (s : Peering) (t : Str)

def openedOf : List Opening := s.opened.filter fun o => o.token == t

def sessionsOf : List PeerSession := s.store.sessions.filter fun x => x.token == t

def createdOf : List Creation := s.created.filter fun k => k.token == t

/-- Call `i` is at work on the session of the token. -/
def Holder (i : Nat) (stage : SubmitStage) : Prop :=
  ∃ a, s.calls[i]? = some ⟨a, stage⟩ ∧ a.sessionToken = t ∧ stage.holds = true

/-- The store was purged at a reading at which the session was over. -/
def Expired (o : Opening) : Prop := ∃ r ∈ s.readings, o.expiresAt ≤ r

/-- The session is stored, or was purged. -/
def Stored (o : Opening) (inFlight : Bool) : Prop :=
  s.sessionsOf t = [o.session inFlight] ∨ s.sessionsOf t = [] ∧ s.Expired o

/-- What there can be of one token. -/
inductive Phase : Prop
  | unopened (hopened : s.openedOf t = []) (hsessions : s.sessionsOf t = [])
      (hfree : ∀ i st, ¬ s.Holder t i st) (hnone : s.createdOf t = [])
  | idle (o : Opening) (hopened : s.openedOf t = [o]) (hstored : s.Stored t o false)
      (hfree : ∀ i st, ¬ s.Holder t i st) (hnone : s.createdOf t = [])
  | busy (o : Opening) (i : Nat) (stage : SubmitStage) (hopened : s.openedOf t = [o])
      (hstored : s.Stored t o true) (hholder : s.Holder t i stage)
      (hworking : stage.isSubmitted = false) (honly : ∀ j st, s.Holder t j st → j = i)
      (hsession : ∀ x, stage.session? = some x → x = o.session true) (hnone : s.createdOf t = [])
  | submitted (o : Opening) (i : Nat) (result : SubmitResult) (k : Creation)
      (hopened : s.openedOf t = [o])
      (hsessions : s.sessionsOf t = [o.session true] ∨ s.sessionsOf t = [])
      (hholder : s.Holder t i (.submitted result)) (honly : ∀ j st, s.Holder t j st → j = i)
      (hone : s.createdOf t = [k])
  | spent (o : Opening) (k : Creation) (hopened : s.openedOf t = [o])
      (hsessions : s.sessionsOf t = []) (hfree : ∀ i st, ¬ s.Holder t i st)
      (hone : s.createdOf t = [k])

end View

section Steps

variable {s s' : Peering} {t : Str} {i : Nat}

/-- A step that is not about the token. -/
theorem Phase.quiet (h : s.Phase t) (hopened : s'.openedOf t = s.openedOf t)
    (hsessions : s'.sessionsOf t = s.sessionsOf t)
    (hheld : ∀ j st, s'.Holder t j st ↔ s.Holder t j st)
    (hcreated : s'.createdOf t = s.createdOf t)
    (hreadings : ∀ r ∈ s.readings, r ∈ s'.readings) : s'.Phase t := by
  have hstored : ∀ o b, s.Stored t o b → s'.Stored t o b := by
    intro o b hst
    rw [Stored, hsessions]
    exact hst.imp_right fun hgone => ⟨hgone.1, hgone.2.imp fun r hr => ⟨hreadings r hr.1, hr.2⟩⟩
  cases h with
  | unopened h1 h2 h3 h4 =>
      exact .unopened (hopened.trans h1) (hsessions.trans h2)
        (fun j st hj => h3 j st ((hheld j st).mp hj)) (hcreated.trans h4)
  | idle o h1 h2 h3 h4 =>
      exact .idle o (hopened.trans h1) (hstored o _ h2)
        (fun j st hj => h3 j st ((hheld j st).mp hj)) (hcreated.trans h4)
  | busy o i stage h1 h2 h3 h4 h5 h6 h7 =>
      exact .busy o i stage (hopened.trans h1) (hstored o _ h2) ((hheld i stage).mpr h3) h4
        (fun j st hj => h5 j st ((hheld j st).mp hj)) h6 (hcreated.trans h7)
  | submitted o i result k h1 h2 h3 h4 h5 =>
      exact .submitted o i result k (hopened.trans h1) (by rwa [hsessions]) ((hheld i _).mpr h3)
        (fun j st hj => h4 j st ((hheld j st).mp hj)) (hcreated.trans h5)
  | spent o k h1 h2 h3 h4 =>
      exact .spent o k (hopened.trans h1) (hsessions.trans h2)
        (fun j st hj => h3 j st ((hheld j st).mp hj)) (hcreated.trans h4)

theorem Phase.otherDb (h : s.Phase t) (db : Db) : Phase { s with db } t :=
  h.quiet rfl rfl (fun _ _ => Iff.rfl) rfl fun _ hr => hr

theorem sessionsOf_purge (now : Double) :
    (s.purge now).sessionsOf t = (s.sessionsOf t).filter fun x => !decide (x.expiresAt ≤ now) := by
  rw [sessionsOf, sessionsOf, purge, purgeExpired, List.filter_filter, List.filter_filter]
  exact List.filter_congr fun x _ => Bool.and_comm _ _

/-- A purge takes a session at a reading at which it is over. -/
theorem stored_purge {o : Opening} {b : Bool} (h : s.Stored t o b) (now : Double) :
    (s.purge now).Stored t o b := by
  rw [Stored, sessionsOf_purge]
  rcases h with h | ⟨h, hexpired⟩
  · rw [h, List.filter_singleton]
    by_cases hnow : o.expiresAt ≤ now
    · right
      have hover : decide ((o.session b).expiresAt ≤ now) = true := decide_eq_true hnow
      rw [hover]
      exact ⟨rfl, now, List.mem_append_right _ (List.mem_singleton_self now), hnow⟩
    · left
      have hrunning : decide ((o.session b).expiresAt ≤ now) = false := decide_eq_false hnow
      rw [hrunning]
      rfl
  · right
    obtain ⟨r, hr, hle⟩ := hexpired
    rw [h]
    exact ⟨rfl, r, List.mem_append_left _ hr, hle⟩

theorem Phase.purge (h : s.Phase t) (now : Double) : (s.purge now).Phase t := by
  cases h with
  | unopened h1 h2 h3 h4 =>
      refine .unopened h1 ?_ h3 h4
      rw [sessionsOf_purge, h2]
      rfl
  | idle o h1 h2 h3 h4 => exact .idle o h1 (stored_purge h2 now) h3 h4
  | busy o i stage h1 h2 h3 h4 h5 h6 h7 =>
      exact .busy o i stage h1 (stored_purge h2 now) h3 h4 h5 h6 h7
  | submitted o i result k h1 h2 h3 h4 h5 =>
      refine .submitted o i result k h1 ?_ h3 h4 h5
      rw [sessionsOf_purge]
      rcases h2 with h2 | h2
      · rw [h2, List.filter_singleton]
        cases decide ((o.session true).expiresAt ≤ now) with
        | true => exact .inr rfl
        | false => exact .inl rfl
      · rw [h2]
        exact .inr rfl
  | spent o k h1 h2 h3 h4 =>
      refine .spent o k h1 ?_ h3 h4
      rw [sessionsOf_purge, h2]
      rfl

/-! ### the calls -/

/-- Who holds the session when call `i` has moved on. -/
theorem holder_moveTo {a : SubmitArgs} {old stage : SubmitStage}
    (hc : s.calls[i]? = some ⟨a, old⟩) {j : Nat} {st : SubmitStage} :
    (s.moveTo i stage).Holder t j st ↔
      j = i ∧ a.sessionToken = t ∧ st = stage ∧ stage.holds = true ∨ j ≠ i ∧ s.Holder t j st := by
  rw [Holder, Holder, moveTo, List.getElem?_modify]
  by_cases hj : j = i
  · subst hj
    simp only [if_pos, hc, Option.map_eq_map, Option.map_some, Option.some.injEq,
      SubmitCall.mk.injEq, true_and, ne_eq, not_true_eq_false, false_and, or_false]
    constructor
    · rintro ⟨b, ⟨rfl, rfl⟩, htok, hholds⟩
      exact ⟨htok, rfl, hholds⟩
    · rintro ⟨htok, rfl, hholds⟩
      exact ⟨a, ⟨rfl, rfl⟩, htok, hholds⟩
  · have hi : i ≠ j := fun h => hj h.symm
    simp [hj, hi]

/-- A call of another token moves on. -/
theorem holder_other {a : SubmitArgs} {old stage : SubmitStage}
    (hc : s.calls[i]? = some ⟨a, old⟩) (ht : a.sessionToken ≠ t) {j : Nat} {st : SubmitStage} :
    (s.moveTo i stage).Holder t j st ↔ s.Holder t j st := by
  rw [holder_moveTo hc]
  constructor
  · rintro (⟨-, htok, -⟩ | ⟨-, hold⟩)
    · exact absurd htok ht
    · exact hold
  · intro hold
    right
    refine ⟨?_, hold⟩
    rintro rfl
    obtain ⟨b, hb, htok, -⟩ := hold
    rw [hc, Option.some.injEq, SubmitCall.mk.injEq] at hb
    exact ht (hb.1 ▸ htok)

/-- A call that holds nothing before and after. -/
theorem holder_outside {a : SubmitArgs} {old stage : SubmitStage}
    (hc : s.calls[i]? = some ⟨a, old⟩) (hold : old.holds = false) (hnew : stage.holds = false)
    {j : Nat} {st : SubmitStage} : (s.moveTo i stage).Holder t j st ↔ s.Holder t j st := by
  rw [holder_moveTo hc]
  constructor
  · rintro (⟨-, -, -, hholds⟩ | ⟨-, hheld⟩)
    · rw [hnew] at hholds
      cases hholds
    · exact hheld
  · intro hheld
    right
    refine ⟨?_, hheld⟩
    rintro rfl
    obtain ⟨b, hb, -, hholds⟩ := hheld
    rw [hc, Option.some.injEq, SubmitCall.mk.injEq] at hb
    rw [← hb.2, hold] at hholds
    cases hholds

/-- The phase of a token whose session a call is working on. -/
theorem Phase.of_working {st : SubmitStage} (h : s.Phase t) (hheld : s.Holder t i st)
    (hworking : st.isSubmitted = false) :
    ∃ o, s.openedOf t = [o] ∧ s.Stored t o true ∧ (∀ j st, s.Holder t j st → j = i) ∧
      (∀ x, st.session? = some x → x = o.session true) ∧ s.createdOf t = [] := by
  have hsame : ∀ stage, s.Holder t i stage → stage = st := by
    rintro stage ⟨a, ha, -⟩
    obtain ⟨b, hb, -⟩ := hheld
    rw [ha, Option.some.injEq, SubmitCall.mk.injEq] at hb
    exact hb.2
  cases h with
  | unopened h1 h2 h3 h4 => exact absurd hheld (h3 i st)
  | idle o h1 h2 h3 h4 => exact absurd hheld (h3 i st)
  | busy o j stage h1 h2 h3 h4 h5 h6 h7 =>
      obtain rfl := h5 i st hheld
      rw [hsame stage h3] at h6
      exact ⟨o, h1, h2, h5, h6, h7⟩
  | submitted o j result k h1 h2 h3 h4 h5 =>
      obtain rfl := h4 i st hheld
      rw [← hsame _ h3] at hworking
      cases hworking
  | spent o k h1 h2 h3 h4 => exact absurd hheld (h3 i st)

/-- The phase of a token whose proposal was just created. -/
theorem Phase.of_submitted {result : SubmitResult} (h : s.Phase t)
    (hheld : s.Holder t i (.submitted result)) :
    ∃ o k, s.openedOf t = [o] ∧ (s.sessionsOf t = [o.session true] ∨ s.sessionsOf t = []) ∧
      (∀ j st, s.Holder t j st → j = i) ∧ s.createdOf t = [k] := by
  cases h with
  | unopened h1 h2 h3 h4 => exact absurd hheld (h3 i _)
  | idle o h1 h2 h3 h4 => exact absurd hheld (h3 i _)
  | busy o j stage h1 h2 h3 h4 h5 h6 h7 =>
      obtain rfl := h5 i _ hheld
      obtain ⟨a, ha, -⟩ := h3
      obtain ⟨b, hb, -⟩ := hheld
      rw [ha, Option.some.injEq, SubmitCall.mk.injEq] at hb
      rw [hb.2] at h4
      cases h4
  | submitted o j result k h1 h2 h3 h4 h5 =>
      obtain rfl := h4 i _ hheld
      exact ⟨o, k, h1, h2, h4, h5⟩
  | spent o k h1 h2 h3 h4 => exact absurd hheld (h3 i _)

/-- The phase of a token that is drawn. -/
theorem Phase.of_fresh (h : s.Phase t) (hfresh : ∀ o ∈ s.opened, o.token ≠ t) :
    s.openedOf t = [] ∧ s.sessionsOf t = [] ∧ (∀ i st, ¬ s.Holder t i st) ∧ s.createdOf t = [] := by
  have hopened : s.openedOf t = [] := by
    rw [openedOf, List.filter_eq_nil_iff]
    intro o ho
    simpa using hfresh o ho
  cases h with
  | unopened h1 h2 h3 h4 => exact ⟨h1, h2, h3, h4⟩
  | idle o h1 => rw [hopened] at h1; cases h1
  | busy o j stage h1 => rw [hopened] at h1; cases h1
  | submitted o j result k h1 => rw [hopened] at h1; cases h1
  | spent o k h1 => rw [hopened] at h1; cases h1

end Steps

/-! ### each step, for every token -/

section EachStep

variable {s : Peering} {i : Nat} {a : SubmitArgs}

theorem openSession_cases (s : Peering) (now : Double) (token : Str) (identity : KioubitIdentity) :
    s.openSession now token identity = s.purge now ∨
      ∃ consumed, s.openSession now token identity = { s.purge now with
        store := ⟨((s.purge now).store.sessions.filter fun x => x.token != token) ++
          [(Opening.mk token identity (now + sessionTtlSeconds)).session false], consumed⟩
        opened := s.opened ++ [⟨token, identity, now + sessionTtlSeconds⟩] } := by
  rw [Peering.openSession, Dn42Ctl.openSession]
  dsimp only
  cases (purgeExpired now s.store).consumed.any fun c => c.1 == identity.digest with
  | true => exact .inl rfl
  | false => exact .inr ⟨_, rfl⟩

theorem phase_openSession (h : ∀ t, s.Phase t) {now : Double} {token : Str}
    {identity : KioubitIdentity} (hfresh : ∀ o ∈ s.opened, o.token ≠ token) (t : Str) :
    (s.openSession now token identity).Phase t := by
  have hpurged := (h t).purge now
  rcases openSession_cases s now token identity with heq | ⟨consumed, heq⟩
  · rw [heq]
    exact hpurged
  · rw [heq]
    by_cases ht : t = token
    · subst ht
      obtain ⟨hopened, hsessions, hfree, hnone⟩ := hpurged.of_fresh hfresh
      refine .idle ⟨t, identity, now + sessionTtlSeconds⟩ ?_ (.inl ?_) hfree hnone
      · rw [openedOf] at hopened ⊢
        rw [List.filter_append, show s.opened.filter (fun o => o.token == t) = [] from hopened]
        simp
      · rw [sessionsOf, List.filter_append, List.filter_filter]
        simp [Opening.session]
    · apply hpurged.quiet
      · rw [openedOf, List.filter_append]
        have hother : (token == t) = false := by simpa using fun he : token = t => ht he.symm
        simp [hother, openedOf, purge]
      · rw [sessionsOf, List.filter_append, List.filter_filter]
        have hother : (token == t) = false := by simpa using fun he : token = t => ht he.symm
        have hkeep : ∀ x : PeerSession, (x.token == t && x.token != token) = (x.token == t) := by
          intro x
          by_cases hx : x.token = t
          · simp [hx, ht]
          · simp [hx]
        simp [hother, Opening.session, hkeep, sessionsOf]
      · exact fun j st => Iff.rfl
      · rfl
      · exact fun r hr => hr

theorem phase_call (h : ∀ t, s.Phase t) (a : SubmitArgs) (t : Str) :
    Phase { s with calls := s.calls ++ [⟨a, .started⟩] } t := by
  have hheld : ∀ j st, Holder { s with calls := s.calls ++ [⟨a, .started⟩] } t j st ↔
      s.Holder t j st := by
    intro j st
    refine exists_congr fun b => ?_
    by_cases hj : j < s.calls.length
    · rw [List.getElem?_append_left hj]
    · rw [List.getElem?_append_right (Nat.le_of_not_lt hj),
        List.getElem?_eq_none (Nat.le_of_not_lt hj)]
      constructor
      · rintro ⟨hb, -, hholds⟩
        have hmem := List.mem_of_getElem? hb
        rw [List.mem_singleton, SubmitCall.mk.injEq] at hmem
        rw [hmem.2] at hholds
        cases hholds
      · rintro ⟨hb, -⟩
        cases hb
  exact (h t).quiet rfl rfl hheld rfl fun r hr => hr

/-- The stored sessions of a token when those of one are rewritten. -/
theorem sessionsOf_rewrite (s : Peering) (token t : Str) {f : PeerSession → PeerSession}
    (hf : ∀ x, (f x).token = x.token) :
    (Rows.updateWhere (fun x => x.token == token) f s.store.sessions).filter
        (fun x => x.token == t) =
      if t = token then (s.sessionsOf t).map f else s.sessionsOf t := by
  by_cases ht : t = token
  · subst ht
    rw [if_pos rfl, sessionsOf]
    exact Rows.filter_updateWhere_self fun x hx => by rw [hf]; exact hx
  · rw [if_neg ht, sessionsOf]
    apply Rows.filter_updateWhere
    intro x _ hx
    rw [beq_iff_eq] at hx
    have hother : (x.token == t) = false := by
      rw [hx, beq_eq_false_iff_ne]
      exact fun he => ht he.symm
    simp [hf, hother]

/-- A call of an idle session claims it. -/
theorem phase_claimed (h : ∀ t, s.Phase t) (hc : s.calls[i]? = some ⟨a, .started⟩)
    {x : PeerSession} (hx : s.store.sessions.find? (fun y => y.token == a.sessionToken) = some x)
    (hidle : x.inFlight = false) (t : Str) :
    Phase (moveTo { s with store := { s.store with
      sessions := Rows.updateWhere (fun y => y.token == a.sessionToken)
        (fun y => { y with inFlight := true }) s.store.sessions } } i
      (.claimed { x with inFlight := true })) t := by
  have hsessions := sessionsOf_rewrite s a.sessionToken t
    (f := fun y => { y with inFlight := true }) fun _ => rfl
  by_cases ht : t = a.sessionToken
  · rw [if_pos ht] at hsessions
    rw [← List.head?_filter, ← ht, show s.store.sessions.filter (fun y => y.token == t) =
      s.sessionsOf t from rfl] at hx
    have hbusy : ∀ o, s.sessionsOf t ≠ [Opening.session o true] := by
      intro o ho
      rw [ho, List.head?_cons, Option.some.injEq] at hx
      rw [← hx] at hidle
      cases hidle
    have hsome : s.sessionsOf t ≠ [] := by
      intro hnil
      rw [hnil] at hx
      cases hx
    cases h t with
    | unopened h1 h2 h3 h4 => exact absurd h2 hsome
    | idle o h1 h2 h3 h4 =>
        obtain h2 | ⟨h2, -⟩ := h2
        · rw [h2] at hsessions hx
          rw [List.head?_cons, Option.some.injEq] at hx
          refine .busy o i (.claimed { x with inFlight := true }) h1 (.inl hsessions)
            ((holder_moveTo hc).mpr (.inl ⟨rfl, ht.symm, rfl, rfl⟩)) rfl ?_ ?_ h4
          · intro j st hj
            obtain ⟨hji, -⟩ | ⟨-, hold⟩ := (holder_moveTo hc).mp hj
            · exact hji
            · exact absurd hold (h3 j st)
          · intro y hy
            rw [← Option.some.inj hy, ← hx]
            rfl
        · exact absurd h2 hsome
    | busy o j stage h1 h2 =>
        obtain h2 | ⟨h2, -⟩ := h2
        · exact absurd h2 (hbusy o)
        · exact absurd h2 hsome
    | submitted o j result k h1 h2 =>
        obtain h2 | h2 := h2
        · exact absurd h2 (hbusy o)
        · exact absurd h2 hsome
    | spent o k h1 h2 => exact absurd h2 hsome
  · rw [if_neg ht] at hsessions
    exact (h t).quiet rfl hsessions (fun j st => holder_other hc fun he => ht he.symm) rfl
      fun r hr => hr

/-- A call that ends without having held anything. -/
theorem phase_refused (h : ∀ t, s.Phase t) (hc : s.calls[i]? = some ⟨a, .started⟩)
    (e : SubmitError) (t : Str) : (s.moveTo i (.raised e)).Phase t :=
  (h t).quiet rfl rfl (fun _ _ => holder_outside hc rfl rfl) rfl fun _ hr => hr

theorem claimSession_cases (now : Double) (token : Str) (st : SessionStore) :
    token = [] ∧ (∃ e, claimSession now token st = (.error e, st)) ∨
      token ≠ [] ∧ ((∃ e, claimSession now token st = (.error e, purgeExpired now st)) ∨
        ∃ x, (purgeExpired now st).sessions.find? (fun y => y.token == token) = some x ∧
          x.inFlight = false ∧ claimSession now token st =
            (.ok { x with inFlight := true }, { purgeExpired now st with
              sessions := Rows.updateWhere (fun y => y.token == token)
                (fun y => { y with inFlight := true }) (purgeExpired now st).sessions })) := by
  rw [claimSession]
  cases token with
  | nil => exact .inl ⟨rfl, _, rfl⟩
  | cons c cs =>
      right
      refine ⟨List.cons_ne_nil c cs, ?_⟩
      rw [if_neg (by simp)]
      dsimp only
      cases hx : (purgeExpired now st).sessions.find? fun y => y.token == c :: cs with
      | none => exact .inl ⟨_, rfl⟩
      | some x =>
          dsimp only
          split
          · exact .inl ⟨_, rfl⟩
          · cases hflight : x.inFlight with
            | true => exact .inl ⟨_, rfl⟩
            | false => exact .inr ⟨x, rfl, hflight, rfl⟩

theorem phase_claim (h : ∀ t, s.Phase t) (hc : s.calls[i]? = some ⟨a, .started⟩) (now : Double)
    (t : Str) : (s.claim i a.sessionToken now).Phase t := by
  have hpurged : ∀ t, (s.purge now).Phase t := fun t => (h t).purge now
  rw [claim]
  obtain ⟨hempty, e, he⟩ | ⟨hne, ⟨e, he⟩ | ⟨x, hx, hidle, hok⟩⟩ :=
    claimSession_cases now a.sessionToken s.store
  · rw [he]
    simp only [hempty, List.isEmpty_nil, if_true]
    exact phase_refused h hc e t
  · rw [he]
    have hsome : a.sessionToken.isEmpty = false := by simpa using hne
    simp only [hsome, Bool.false_eq_true, if_false]
    exact phase_refused hpurged hc e t
  · rw [hok]
    have hsome : a.sessionToken.isEmpty = false := by simpa using hne
    simp only [hsome, Bool.false_eq_true, if_false]
    exact phase_claimed hpurged hc hx hidle t

/-- Nobody else holds the session a call is working on. -/
theorem only_moveTo {old stage : SubmitStage} {t : Str} (hc : s.calls[i]? = some ⟨a, old⟩)
    (honly : ∀ j st, s.Holder t j st → j = i) {j : Nat} {st : SubmitStage}
    (hj : (s.moveTo i stage).Holder t j st) : j = i := by
  obtain ⟨hji, -⟩ | ⟨-, hold⟩ := (holder_moveTo hc).mp hj
  · exact hji
  · exact honly j st hold

/-- Nobody holds it when that call has let it go. -/
theorem free_moveTo {old stage : SubmitStage} {t : Str} (hc : s.calls[i]? = some ⟨a, old⟩)
    (honly : ∀ j st, s.Holder t j st → j = i) (hfree : stage.holds = false) {j : Nat}
    {st : SubmitStage} : ¬ (s.moveTo i stage).Holder t j st := by
  intro hj
  obtain ⟨-, -, -, hholds⟩ | ⟨hji, hold⟩ := (holder_moveTo hc).mp hj
  · rw [hfree] at hholds
    cases hholds
  · exact hji (honly j st hold)

/-- A call goes on working on its session. -/
theorem phase_working {old stage : SubmitStage} (h : ∀ t, s.Phase t)
    (hc : s.calls[i]? = some ⟨a, old⟩) (hold : old.holds = true)
    (hworking : old.isSubmitted = false) (hholds : stage.holds = true)
    (hnot : stage.isSubmitted = false)
    (hsession : ∀ x, stage.session? = some x → old.session? = some x) (t : Str) :
    (s.moveTo i stage).Phase t := by
  by_cases ht : a.sessionToken = t
  · have hheld : s.Holder t i old := ⟨a, hc, ht, hold⟩
    obtain ⟨o, hopened, hstored, honly, hold', hnone⟩ := (h t).of_working hheld hworking
    exact .busy o i stage hopened hstored ((holder_moveTo hc).mpr (.inl ⟨rfl, ht, rfl, hholds⟩))
      hnot (fun j st => only_moveTo hc honly) (fun x hx => hold' x (hsession x hx)) hnone
  · exact (h t).quiet rfl rfl (fun j st => holder_other hc ht) rfl fun r hr => hr

/-- A call has created its proposal. -/
theorem phase_submitted {session : PeerSession} {target : Str × Str} {seen : Db}
    (h : ∀ t, s.Phase t) (hc : s.calls[i]? = some ⟨a, .resolved session target seen⟩)
    {k : Creation} (hk : k.token = a.sessionToken) (result : SubmitResult) (t : Str) :
    Phase (moveTo { s with created := s.created ++ [k] } i (.submitted result)) t := by
  by_cases ht : a.sessionToken = t
  · have hheld : s.Holder t i (.resolved session target seen) := ⟨a, hc, ht, rfl⟩
    obtain ⟨o, hopened, hstored, honly, -, hnone⟩ := (h t).of_working hheld rfl
    have hone : createdOf (moveTo { s with created := s.created ++ [k] } i (.submitted result)) t =
        [k] := by
      show (s.created ++ [k]).filter (fun k => k.token == t) = [k]
      rw [List.filter_append, show s.created.filter (fun k => k.token == t) = [] from hnone]
      simp [hk, ht]
    exact .submitted o i result k hopened (hstored.imp_right And.left)
      ((holder_moveTo hc).mpr (.inl ⟨rfl, ht, rfl, rfl⟩)) (fun j st => only_moveTo hc honly) hone
  · have hsame : createdOf (moveTo { s with created := s.created ++ [k] } i (.submitted result)) t =
        s.createdOf t := by
      show (s.created ++ [k]).filter (fun k => k.token == t) = _
      have hother : (k.token == t) = false := by
        rw [hk, beq_eq_false_iff_ne]
        exact ht
      rw [List.filter_append, List.filter_singleton, hother, cond_false, List.append_nil, createdOf]
    exact (h t).quiet rfl rfl (fun j st => holder_other hc ht) hsame fun r hr => hr

/-- The session of a failed call is free again. -/
theorem phase_released {e : SubmitError} (h : ∀ t, s.Phase t)
    (hc : s.calls[i]? = some ⟨a, .failed e⟩) (t : Str) :
    Phase (moveTo { s with store := releaseSession a.sessionToken s.store } i (.raised e)) t := by
  have hsessions := sessionsOf_rewrite s a.sessionToken t
    (f := fun y => { y with inFlight := false }) fun _ => rfl
  by_cases ht : t = a.sessionToken
  · rw [if_pos ht] at hsessions
    have hheld : s.Holder t i (.failed e) := ⟨a, hc, ht.symm, rfl⟩
    obtain ⟨o, hopened, hstored, honly, -, hnone⟩ := (h t).of_working hheld rfl
    refine .idle o hopened ?_ (fun j st => free_moveTo hc honly rfl) hnone
    obtain hstored | ⟨hgone, hexpired⟩ := hstored
    · rw [hstored] at hsessions
      exact .inl hsessions
    · rw [hgone] at hsessions
      exact .inr ⟨hsessions, hexpired⟩
  · rw [if_neg ht] at hsessions
    exact (h t).quiet rfl hsessions (fun j st => holder_other hc fun he => ht he.symm) rfl
      fun r hr => hr

/-- The session of a call that returns is dropped. -/
theorem phase_dropped {result : SubmitResult} (h : ∀ t, s.Phase t)
    (hc : s.calls[i]? = some ⟨a, .submitted result⟩) (t : Str) :
    Phase (moveTo { s with store := popSession a.sessionToken s.store } i (.returned result)) t := by
  by_cases ht : t = a.sessionToken
  · have hheld : s.Holder t i (.submitted result) := ⟨a, hc, ht.symm, rfl⟩
    obtain ⟨o, k, hopened, -, honly, hone⟩ := (h t).of_submitted hheld
    refine .spent o k hopened ?_ (fun j st => free_moveTo hc honly rfl) hone
    show (Rows.deleteWhere (fun x => x.token == a.sessionToken) s.store.sessions).filter
      (fun x => x.token == t) = []
    rw [← ht, Rows.deleteWhere, List.filter_filter, List.filter_eq_nil_iff]
    intro x _
    cases x.token == t <;> simp
  · have hsessions : (Rows.deleteWhere (fun x => x.token == a.sessionToken)
        s.store.sessions).filter (fun x => x.token == t) = s.sessionsOf t := by
      apply Rows.filter_deleteWhere
      intro x hx
      rw [beq_iff_eq] at hx
      rw [hx, beq_eq_false_iff_ne]
      exact ht
    exact (h t).quiet rfl hsessions (fun j st => holder_other hc fun he => ht he.symm) rfl
      fun r hr => hr

end EachStep

/-! ## the invariant -/

/-- The node was enabled and open to the public page. -/
def OpenTarget (seen : Db) (nodeId : Str) : Prop :=
  ∃ node ∈ seen.managedNodes, node.nodeId = nodeId ∧ node.enabled = true ∧ node.autoPeer = true

/-- The ASN a `peer_add` payload asks for. -/
def payloadAsn (payload : JsonObject) : Option Json :=
  match Json.lookup (lit "peer") payload with
  | some (.dict peer) => Json.lookup (lit "peer_asn") peer
  | _ => none

/-- A proposal with the verified ASN of its session, for a node that was open
when it was chosen. -/
structure Verified (s : Peering) (k : Creation) : Prop where
  asn : ∃ o ∈ s.opened, o.token = k.token ∧
    payloadAsn k.proposal.payload = some (.int o.identity.asn)
  target : OpenTarget k.seen k.proposal.nodeId

structure Inv (s : Peering) : Prop where
  phase : ∀ t, s.Phase t
  ids : s.db.ProposalsWF
  tokens : ∀ o ∈ s.opened, o.token ≠ []
  targets : ∀ (i : Nat) (a : SubmitArgs) (session : PeerSession) (target : Str × Str) (seen : Db),
    s.calls[i]? = some ⟨a, .resolved session target seen⟩ → OpenTarget seen target.1
  created : ∀ k ∈ s.created, s.Verified k

end Peering

/-! ### choosing a node and submitting -/

theorem openTarget_of_resolve {n : Str} {db : Db} {target : Str × Str}
    (h : resolveTarget n db = .ok target) : Peering.OpenTarget db target.1 := by
  rw [resolveTarget] at h
  have hlist : ((onConnection listPeerTargets).run db).1 =
      .ok ((ManagedNodeStore.orderNodes
        (db.managedNodes.filter fun n => n.autoPeer && n.enabled)).map
        fun n => ⟨n.nodeId, n.name, n.endpointHost⟩) := rfl
  rw [hlist] at h
  dsimp only at h
  cases hfound : ((ManagedNodeStore.orderNodes (db.managedNodes.filter fun n =>
      n.autoPeer && n.enabled)).map fun n => PeerTarget.mk n.nodeId n.name n.endpointHost).find?
      fun t => t.nodeId == n with
  | none => rw [hfound] at h; cases h
  | some t =>
      rw [hfound] at h
      cases h
      obtain ⟨node, hnode, rfl⟩ := List.mem_map.mp (List.mem_of_find?_eq_some hfound)
      have horder : node ∈ db.managedNodes.filter fun n => n.autoPeer && n.enabled :=
        (List.perm_insertionSort _ _).mem_iff.mp hnode
      obtain ⟨hmem, hopen⟩ := List.mem_filter.mp horder
      rw [Bool.and_eq_true] at hopen
      exact ⟨node, hmem, rfl, hopen.2, hopen.1⟩

section Submit

variable {env : PeerEnv} {session : PeerSession} {a : SubmitArgs} {target : Str} {db db' : Db}

theorem submitSession_eq (env : PeerEnv) (session : PeerSession) (a : SubmitArgs) (target : Str) :
    submitSession env session a target = (do
      let submitted ← onConnection (storeProposal env.now target (lit "push") (lit "peer_add")
        [(lit "peer_kind", .str (lit "bgp")), (lit "peer", .dict (sessionPeer session a))])
      pure submitted.1) := by
  have hk : ProposalKind.ofText (lit "peer_add") = some .peerAdd := by decide
  have hs : ProposalSource.ofText (lit "push") = some .push := by decide
  have hp : buildPeerAddPayload (lit "bgp") (sessionPeer session a) =
      .ok [(lit "peer_kind", .str (lit "bgp")), (lit "peer", .dict (sessionPeer session a))] := rfl
  have hpass : ∀ (x : JsonObject) (f : JsonObject → Service ConfigProposal),
      (liftCheck (.ok x) >>= f) = f x := fun _ _ => rfl
  rw [submitSession, hp, hpass]
  unfold submitProposal
  rw [hk, hs]

/-- A submission that returns has stored the session's peer for the target. -/
theorem submitSession_ok {p : ConfigProposal} (hids : db.ProposalsWF)
    (h : (submitSession env session a target).run db = (.ok p, db')) :
    p.nodeId = target ∧ Peering.payloadAsn p.payload = some (.int session.asn) ∧
      db'.configProposals = db.configProposals ++ [p] := by
  rw [submitSession_eq] at h
  obtain ⟨⟨q, policy⟩, w, hstore, hret⟩ := run_bind_eq_ok.mp h
  rw [run_pure, Prod.mk.injEq, Except.ok.injEq] at hret
  obtain ⟨rfl, rfl⟩ := hret
  obtain ⟨-, hnode, -, hpayload, hrows⟩ := eval_storeProposal hids hstore
  refine ⟨hnode, ?_, hrows⟩
  rw [hpayload]
  rfl

theorem atomic_storeProposal (now n src kind : Str) (payload : JsonObject) :
    Atomic true (storeProposal now n src kind payload) :=
  .bind_read (.queryOr ..) fun found => by
    cases found with
    | none => exact .fail _
    | some node => exact (atomic_addProposal now n src kind payload).map _

/-- One that raises has stored nothing. -/
theorem submitSession_error {e : Exc PyError}
    (h : (submitSession env session a target).run db = (.error e, db')) : db' = db := by
  rw [submitSession_eq] at h
  cases hstore : (onConnection (storeProposal env.now target (lit "push") (lit "peer_add")
      [(lit "peer_kind", .str (lit "bgp")), (lit "peer", .dict (sessionPeer session a))])).run
      db with
  | mk res w =>
      cases res with
      | ok submitted =>
          rw [run_bind_ok hstore] at h
          cases h
      | error e' =>
          rw [run_bind_error hstore] at h
          cases h
          exact (atomic_storeProposal ..).eval_error hstore

theorem ids_submitSession (hids : db.ProposalsWF) :
    ((submitSession env session a target).run db).2.ProposalsWF := by
  rw [submitSession_eq]
  exact Maintains.bind
    (maintains_onConnection (preserves_storeProposal ignores_proposalsWF env.now _ _ _))
    (fun _ => .pure _) db hids

end Submit

namespace Peering

section Step

variable {s s' : Peering} {i : Nat} {a : SubmitArgs}

theorem inv_start {db : Db} (hids : db.ProposalsWF) : (Peering.start db).Inv where
  phase t := .unopened rfl rfl (by rintro i st ⟨a, ha, -⟩; cases ha) rfl
  ids := hids
  tokens o ho := by cases ho
  targets i a session target seen hc := by cases hc
  created k hk := by cases hk

/-- What every step keeps of the calls, the sessions and the proposals, where it
adds none. -/
theorem Inv.keep (h : s.Inv) (hphase : ∀ t, s'.Phase t) (hids : s'.db.ProposalsWF)
    (htokens : ∀ o ∈ s'.opened, o ∈ s.opened ∨ o.token ≠ [])
    (hopened : ∀ o ∈ s.opened, o ∈ s'.opened)
    (htargets : ∀ (j : Nat) (b : SubmitArgs) (session : PeerSession) (target : Str × Str)
      (seen : Db), s'.calls[j]? = some ⟨b, .resolved session target seen⟩ →
        s.calls[j]? = some ⟨b, .resolved session target seen⟩ ∨ OpenTarget seen target.1)
    (hcreated : ∀ k ∈ s'.created, k ∈ s.created ∨ s'.Verified k) : s'.Inv where
  phase := hphase
  ids := hids
  tokens o ho := (htokens o ho).elim (h.tokens o) id
  targets j b session target seen hc :=
    (htargets j b session target seen hc).elim (h.targets j b session target seen) id
  created k hk := by
    obtain hold | hnew := hcreated k hk
    · obtain ⟨⟨o, ho, htoken, hasn⟩, htarget⟩ := h.created k hold
      exact ⟨⟨o, hopened o ho, htoken, hasn⟩, htarget⟩
    · exact hnew

/-- The resolved calls, when one call has moved on. -/
theorem resolved_moveTo {old stage : SubmitStage} (hc : s.calls[i]? = some ⟨a, old⟩) {j : Nat}
    {b : SubmitArgs} {st : SubmitStage} (hj : (s.moveTo i stage).calls[j]? = some ⟨b, st⟩) :
    s.calls[j]? = some ⟨b, st⟩ ∨ st = stage := by
  rw [moveTo, List.getElem?_modify] at hj
  by_cases hji : i = j
  · subst hji
    rw [hc] at hj
    right
    simp only [Option.map_eq_map, Option.map_some, if_true, Option.some.injEq,
      SubmitCall.mk.injEq] at hj
    exact hj.2.symm
  · left
    simpa [hji] using hj

theorem unresolved_moveTo {old stage : SubmitStage} (hc : s.calls[i]? = some ⟨a, old⟩)
    (hstage : stage.isResolved = false) {j : Nat} {b : SubmitArgs} {session : PeerSession}
    {target : Str × Str} {seen : Db}
    (hj : (s.moveTo i stage).calls[j]? = some ⟨b, .resolved session target seen⟩) :
    s.calls[j]? = some ⟨b, .resolved session target seen⟩ := by
  obtain hold | rfl := resolved_moveTo hc hj
  · exact hold
  · cases hstage

theorem inv_openSession {now : Double} {token : Str} {identity : KioubitIdentity} (h : s.Inv)
    (hne : token ≠ []) (hfresh : ∀ o ∈ s.opened, o.token ≠ token) :
    (s.openSession now token identity).Inv := by
  have hphase : ∀ t, (s.openSession now token identity).Phase t := phase_openSession h.phase hfresh
  obtain heq | ⟨consumed, heq⟩ := openSession_cases s now token identity
  · rw [heq] at hphase ⊢
    exact h.keep hphase h.ids (fun o ho => .inl ho) (fun o ho => ho)
      (fun j b session target seen hc => .inl hc) fun k hk => .inl hk
  · rw [heq] at hphase ⊢
    refine h.keep hphase h.ids ?_ (fun o ho => List.mem_append_left _ ho)
      (fun j b session target seen hc => .inl hc) fun k hk => .inl hk
    intro o ho
    obtain hold | hnew := List.mem_append.mp ho
    · exact .inl hold
    · rw [List.mem_singleton.mp hnew]
      exact .inr hne

theorem inv_claim (h : s.Inv) (hc : s.calls[i]? = some ⟨a, .started⟩) (now : Double) :
    (s.claim i a.sessionToken now).Inv := by
  have hmoved : ∃ store readings stage, s.claim i a.sessionToken now =
      moveTo { s with store, readings } i stage ∧ stage.isResolved = false := by
    rw [claim]
    cases claimSession now a.sessionToken s.store with
    | mk outcome store =>
        cases outcome with
        | error e => exact ⟨_, _, _, rfl, rfl⟩
        | ok session => exact ⟨_, _, _, rfl, rfl⟩
  have hphase := phase_claim h.phase hc now
  obtain ⟨store, readings, stage, heq, hstage⟩ := hmoved
  rw [heq] at hphase ⊢
  exact h.keep hphase h.ids (fun o ho => .inl ho) (fun o ho => ho)
    (fun j b session target seen hj => .inl (unresolved_moveTo hc hstage hj)) fun k hk => .inl hk

theorem inv_resolve {session : PeerSession} (h : s.Inv)
    (hc : s.calls[i]? = some ⟨a, .claimed session⟩) {stage : SubmitStage}
    (hstage : (∃ e, stage = .failed e) ∨ ∃ target, resolveTarget a.nodeId s.db = .ok target ∧
      stage = .resolved session target s.db) : (s.moveTo i stage).Inv := by
  obtain ⟨e, rfl⟩ | ⟨target, hresolved, rfl⟩ := hstage
  · have hphase : ∀ t, (s.moveTo i (.failed e)).Phase t :=
      phase_working h.phase hc rfl rfl rfl rfl (fun x hx => by cases hx)
    exact h.keep hphase h.ids (fun o ho => .inl ho) (fun o ho => ho)
      (fun j b session target seen hj => .inl (unresolved_moveTo hc rfl hj)) fun k hk => .inl hk
  · have hphase : ∀ t, (s.moveTo i (.resolved session target s.db)).Phase t :=
      phase_working h.phase hc rfl rfl rfl rfl (fun x hx => hx)
    refine h.keep hphase h.ids (fun o ho => .inl ho) (fun o ho => ho) ?_ fun k hk => .inl hk
    intro j b session' target' seen hj
    refine (resolved_moveTo hc hj).imp_right fun hnew => ?_
    cases hnew
    exact openTarget_of_resolve hresolved

/-- A submission that raised. -/
theorem inv_failed {session : PeerSession} {target : Str × Str} {seen : Db} (h : s.Inv)
    (hc : s.calls[i]? = some ⟨a, .resolved session target seen⟩) {db : Db}
    (hids : db.ProposalsWF) (e : SubmitError) :
    (moveTo { s with db } i (.failed e)).Inv := by
  have hphase : ∀ t, (moveTo { s with db } i (.failed e)).Phase t :=
    phase_working (s := { s with db }) (fun t => (h.phase t).otherDb db) hc rfl rfl rfl rfl
      (fun x hx => by cases hx)
  exact h.keep hphase hids (fun o ho => .inl ho) (fun o ho => ho)
    (fun j b session target seen hj => .inl (unresolved_moveTo (s := { s with db }) hc rfl hj))
    fun k hk => .inl hk

/-- A submission that returned. -/
theorem inv_submitted {session : PeerSession} {target : Str × Str} {seen : Db} (h : s.Inv)
    (hc : s.calls[i]? = some ⟨a, .resolved session target seen⟩) {db : Db} {p : ConfigProposal}
    (hids : db.ProposalsWF) (hnode : p.nodeId = target.1)
    (hasn : payloadAsn p.payload = some (.int session.asn)) (result : SubmitResult) :
    (moveTo { s with db, created := s.created ++ [⟨a.sessionToken, p, seen⟩] } i
      (.submitted result)).Inv := by
  have hphase := phase_submitted (s := { s with db }) (fun t => (h.phase t).otherDb db) hc
    (k := ⟨a.sessionToken, p, seen⟩) rfl result
  refine h.keep hphase hids (fun o ho => .inl ho) (fun o ho => ho)
    (fun j b session target seen hj => .inl (unresolved_moveTo (s := { s with db }) hc rfl hj)) ?_
  intro k hk
  obtain hold | hnew := List.mem_append.mp hk
  · exact .inl hold
  · right
    rw [List.mem_singleton.mp hnew]
    have hheld : s.Holder a.sessionToken i (.resolved session target seen) := ⟨a, hc, rfl, rfl⟩
    obtain ⟨o, hopened, -, -, hsession, -⟩ := (h.phase a.sessionToken).of_working hheld rfl
    have ho : o ∈ s.openedOf a.sessionToken := by rw [hopened]; exact List.mem_singleton_self o
    obtain ⟨hmem, htoken⟩ := List.mem_filter.mp ho
    refine ⟨⟨o, hmem, by simpa using htoken, ?_⟩, ?_⟩
    · rw [hasn, hsession session rfl]
      rfl
    · rw [hnode]
      exact h.targets i a session target seen hc

theorem inv_released {e : SubmitError} (h : s.Inv) (hc : s.calls[i]? = some ⟨a, .failed e⟩) :
    (moveTo { s with store := releaseSession a.sessionToken s.store } i (.raised e)).Inv :=
  h.keep (phase_released h.phase hc) h.ids (fun _ ho => .inl ho) (fun _ ho => ho)
    (fun _ _ _ _ _ hj => .inl (unresolved_moveTo (s := { s with
      store := releaseSession a.sessionToken s.store }) hc rfl hj)) fun _ hk => .inl hk

theorem inv_dropped {result : SubmitResult} (h : s.Inv)
    (hc : s.calls[i]? = some ⟨a, .submitted result⟩) :
    (moveTo { s with store := popSession a.sessionToken s.store } i (.returned result)).Inv :=
  h.keep (phase_dropped h.phase hc) h.ids (fun _ ho => .inl ho) (fun _ ho => ho)
    (fun _ _ _ _ _ hj => .inl (unresolved_moveTo (s := { s with
      store := popSession a.sessionToken s.store }) hc rfl hj)) fun _ hk => .inl hk

theorem inv_step {action : PeeringAction} (h : s.Inv) (hfresh : FreshToken s action)
    (hs : peeringStep s action = some s') : s'.Inv := by
  cases action with
  | openSession now token identity =>
      cases hs
      exact inv_openSession h hfresh.1 hfresh.2
  | purge now =>
      cases hs
      exact h.keep (fun t => (h.phase t).purge now) h.ids (fun o ho => .inl ho) (fun o ho => ho)
        (fun j b session target seen hc => .inl hc) fun k hk => .inl hk
  | call a =>
      cases hs
      refine h.keep (phase_call h.phase a) h.ids (fun o ho => .inl ho) (fun o ho => ho) ?_
        fun k hk => .inl hk
      intro j b session target seen hj
      left
      by_cases hlt : j < s.calls.length
      · rwa [List.getElem?_append_left hlt] at hj
      · rw [List.getElem?_append_right (Nat.le_of_not_lt hlt)] at hj
        have hmem := List.mem_of_getElem? hj
        rw [List.mem_singleton, SubmitCall.mk.injEq] at hmem
        cases hmem.2
  | claim i now =>
      simp only [peeringStep] at hs
      split at hs
      · rename_i a hc
        cases hs
        exact inv_claim h hc now
      · cases hs
  | resolve i =>
      simp only [peeringStep] at hs
      split at hs
      · rename_i a session hc
        split at hs
        · rename_i e he
          cases hs
          exact inv_resolve h hc (.inl ⟨e, rfl⟩)
        · rename_i target htarget
          cases hs
          exact inv_resolve h hc (.inr ⟨target, htarget, rfl⟩)
      · cases hs
  | submit i env =>
      simp only [peeringStep] at hs
      split at hs
      · rename_i a session target seen hc
        have hids : ((submitSession env session a target.1).run s.db).2.ProposalsWF :=
          ids_submitSession h.ids
        split at hs
        · rename_i e db hrun
          cases hs
          rw [hrun] at hids
          exact inv_failed h hc hids (.service e)
        · rename_i p db hrun
          cases hs
          rw [hrun] at hids
          obtain ⟨hnode, hasn, -⟩ := submitSession_ok h.ids hrun
          exact inv_submitted h hc hids hnode hasn ⟨p, target.1, target.2⟩
      · cases hs
  | finish i =>
      simp only [peeringStep] at hs
      split at hs
      · rename_i a e hc
        cases hs
        exact inv_released h hc
      · rename_i a result hc
        cases hs
        exact inv_dropped h hc
      · cases hs
  | write w =>
      simp only [peeringStep] at hs
      obtain ⟨db, hdb, rfl⟩ := Option.map_eq_some_iff.mp hs
      exact h.keep (fun t => (h.phase t).otherDb db)
        (proposalsWF_hubStep h.ids hdb) (fun o ho => .inl ho) (fun o ho => ho)
        (fun j b session target seen hc => .inl hc) fun k hk => .inl hk

end Step

/-! ## one proposal for a session -/

/-- A call that claims the session before it expires gets it. -/
def Claimable (o : Opening) (st : SessionStore) : Prop :=
  ∀ now, now < o.expiresAt → ∃ session st', claimSession now o.token st = (.ok session, st') ∧
    session.asn = o.identity.asn

section Outcome

variable {s : Peering} {o : Opening}

/-- A purge before it expires leaves a session. -/
theorem claimable_of_stored (hne : o.token ≠ []) (h : s.sessionsOf o.token = [o.session false]) :
    Claimable o s.store := by
  intro now hnow
  have hkept : ((purgeExpired now s.store).sessions.find? fun y => y.token == o.token) =
      some (o.session false) := by
    have hpurged := sessionsOf_purge (s := s) (t := o.token) now
    have hrunning : decide ((o.session false).expiresAt ≤ now) = false :=
      decide_eq_false hnow.2
    rw [h, List.filter_singleton, hrunning] at hpurged
    rw [← List.head?_filter]
    show ((s.purge now).sessionsOf o.token).head? = _
    rw [hpurged]
    rfl
  have hempty : o.token.isEmpty = false := by simpa using hne
  have hclaim : claimSession now o.token s.store =
      (.ok { o.session false with inFlight := true }, { purgeExpired now s.store with
        sessions := Rows.updateWhere (fun y => y.token == o.token)
          (fun y => { y with inFlight := true }) (purgeExpired now s.store).sessions }) := by
    have hrunning : ¬ (o.session false).expiresAt ≤ now := hnow.2
    rw [claimSession, hempty]
    simp only [Bool.false_eq_true, if_false, hkept]
    rw [if_neg hrunning]
    rfl
  exact ⟨_, _, hclaim, rfl⟩

/-- A session that nobody holds and that has no proposal can be claimed. -/
theorem Inv.claimable (h : s.Inv) (ho : o ∈ s.opened) (hnone : ∀ k ∈ s.created, k.token ≠ o.token)
    (hfree : ∀ i st, ¬ s.Holder o.token i st) (hlive : ¬ s.Expired o) : Claimable o s.store := by
  have hmem : o ∈ s.openedOf o.token := List.mem_filter.mpr ⟨ho, by simp⟩
  have hfew : s.createdOf o.token = [] := by
    rw [createdOf, List.filter_eq_nil_iff]
    intro k hk
    simpa using hnone k hk
  cases h.phase o.token with
  | unopened h1 => rw [h1] at hmem; cases hmem
  | idle o' h1 h2 =>
      rw [h1, List.mem_singleton] at hmem
      subst hmem
      obtain h2 | ⟨-, hexpired⟩ := h2
      · exact claimable_of_stored (h.tokens o ho) h2
      · exact absurd hexpired hlive
  | busy o' i stage h1 h2 h3 => exact absurd h3 (hfree i stage)
  | submitted o' i result k h1 h2 h3 => exact absurd h3 (hfree i _)
  | spent o' k h1 h2 h3 h4 => rw [hfew] at h4; cases h4

/-- After its failure is handled, the session of a call can be claimed again. -/
theorem Inv.claimable_again {i : Nat} {a : SubmitArgs} {e : SubmitError} (h : s.Inv)
    (hc : s.calls[i]? = some ⟨a, .failed e⟩) :
    ∃ o ∈ s.opened, o.token = a.sessionToken ∧ ∃ s', peeringStep s (.finish i) = some s' ∧
      (¬ s'.Expired o → Claimable o s'.store) := by
  have hheld : s.Holder a.sessionToken i (.failed e) := ⟨a, hc, rfl, rfl⟩
  obtain ⟨o, hopened, -, honly, -, hnone⟩ := (h.phase a.sessionToken).of_working hheld rfl
  have hmem : o ∈ s.openedOf a.sessionToken := by rw [hopened]; exact List.mem_singleton_self o
  obtain ⟨ho, htoken⟩ := List.mem_filter.mp hmem
  rw [beq_iff_eq] at htoken
  refine ⟨o, ho, htoken, _, by rw [peeringStep, hc], fun hlive => ?_⟩
  refine (inv_released h hc).claimable ho ?_ ?_ hlive
  · intro k hk htok
    have hin : k ∈ s.createdOf a.sessionToken :=
      List.mem_filter.mpr ⟨hk, by rw [beq_iff_eq, htok, htoken]⟩
    rw [hnone] at hin
    cases hin
  · intro j st
    rw [htoken]
    exact free_moveTo hc honly rfl

/-- A submission that returns has stored the proposal that is counted, and one
that raises has stored none. -/
theorem Inv.submit_counts (h : s.Inv) {i : Nat} {env : PeerEnv} {s' : Peering}
    (hs : peeringStep s (.submit i env) = some s') :
    (∃ k, s'.created = s.created ++ [k] ∧
        s'.db.configProposals = s.db.configProposals ++ [k.proposal]) ∨
      s'.created = s.created ∧ s'.db = s.db := by
  simp only [peeringStep] at hs
  split at hs
  · rename_i a session target seen hc
    split at hs
    · rename_i e db hrun
      cases hs
      exact .inr ⟨rfl, submitSession_error hrun⟩
    · rename_i p db hrun
      cases hs
      exact .inl ⟨_, rfl, (submitSession_ok h.ids hrun).2.2⟩
  · cases hs

/-- No token has two proposals. -/
theorem Inv.once (h : s.Inv) : (s.created.map Creation.token).Nodup := by
  rw [List.nodup_iff_count_le_one]
  intro t
  have hcount : (s.created.map Creation.token).count t = (s.createdOf t).length := by
    rw [List.count, List.countP_map, createdOf, List.countP_eq_length_filter]
    rfl
  rw [hcount]
  cases h.phase t with
  | unopened h1 h2 h3 h4 => simp [h4]
  | idle o h1 h2 h3 h4 => simp [h4]
  | busy o i stage h1 h2 h3 h4 h5 h6 h7 => simp [h7]
  | submitted o i result k h1 h2 h3 h4 h5 => simp [h5]
  | spent o k h1 h2 h3 h4 => simp [h4]

end Outcome

end Peering

open Peering in
/-- **A peer session yields at most one proposal**, of the verified ASN, for a
node that was open when it was chosen; and a session whose submission failed
can be claimed again until it expires. -/
theorem one_proposal_per_session {db : Db} {as : List PeeringAction} {s : Peering}
    (hids : db.ProposalsWF)
    (hfresh : Machine.Along peeringStep FreshToken (Peering.start db) as)
    (hexec : Machine.exec peeringStep (Peering.start db) as = some s) :
    (s.created.map Creation.token).Nodup ∧ (∀ k ∈ s.created, s.Verified k) ∧
    (∀ i env s', peeringStep s (.submit i env) = some s' →
      (∃ k, s'.created = s.created ++ [k] ∧
          s'.db.configProposals = s.db.configProposals ++ [k.proposal]) ∨
        s'.created = s.created ∧ s'.db = s.db) ∧
    (∀ (i : Nat) (a : SubmitArgs) (e : SubmitError), s.calls[i]? = some ⟨a, .failed e⟩ →
      ∃ o ∈ s.opened, o.token = a.sessionToken ∧ ∃ s', peeringStep s (.finish i) = some s' ∧
        (¬ s'.Expired o → Claimable o s'.store)) ∧
    ∀ o ∈ s.opened, (∀ k ∈ s.created, k.token ≠ o.token) →
      (∀ i st, ¬ s.Holder o.token i st) → ¬ s.Expired o → Claimable o s.store := by
  have hinv : s.Inv := Machine.exec_invariant peeringStep
    (fun _ _ _ h hfresh hs => Peering.inv_step h hfresh hs) (Peering.inv_start hids) hfresh hexec
  exact ⟨hinv.once, hinv.created, fun i env s' hs => hinv.submit_counts hs,
    fun i a e hc => hinv.claimable_again hc,
    fun o ho hnone hfree hlive => hinv.claimable ho hnone hfree hlive⟩

/-! ### a second try -/

/-- A hub with one open node. -/
def openNodeDb : Db :=
  { Db.empty with
    nodes := [lit "a"]
    managedNodes := [{ ManagedNodeStore.newNode (lit "t0") (lit "a") (lit "alpha") false with
      autoPeer := true }] }

def sampleSubmit (nodeId : Str) : SubmitArgs :=
  { sessionToken := lit "token", nodeId, wgPublicKey := lit "key", endpoint := lit "h:1",
    peerLla := lit "fe80::1" }

/-- The first call chooses a node that is not there; the second chooses `a`. -/
def secondTry : List PeeringAction :=
  [.openSession (.ofInt 0) (lit "token") ⟨4242420001, lit "M", [], .ofInt 0, lit "digest"⟩,
    .call (sampleSubmit (lit "b")), .claim 0 (.ofInt 1), .resolve 0, .finish 0,
    .call (sampleSubmit (lit "a")), .claim 1 (.ofInt 2), .resolve 1,
    .submit 1 (sampleEnv (lit "t1")), .finish 1]

theorem one_proposal_of_second_try :
    ∃ s, Machine.exec peeringStep (Peering.start openNodeDb) secondTry = some s ∧
      s.created.map Creation.token = [lit "token"] ∧ (∀ k ∈ s.created, s.Verified k) := by
  have hcreated : (Machine.exec peeringStep (Peering.start openNodeDb) secondTry).map
      (fun s => s.created.map Creation.token) = some [lit "token"] := by decide +kernel
  obtain ⟨s, hexec, htokens⟩ := Option.map_eq_some_iff.mp hcreated
  have hids : openNodeDb.ProposalsWF := fun p hp => by cases hp
  have hfresh : Machine.Along peeringStep FreshToken (Peering.start openNodeDb) secondTry := by
    refine ⟨⟨by decide, fun o ho => by cases ho⟩, fun s' _ => ?_⟩
    refine Machine.Along.mono peeringStep (P := fun _ a => a.opens = false) ?_
      (Machine.along_of_forall peeringStep (by decide))
    intro s a ha
    cases a with
    | openSession now token identity => cases ha
    | _ => trivial
  exact ⟨s, hexec, htokens, (one_proposal_per_session hids hfresh hexec).2.1⟩

end Dn42Ctl
