import Dn42Ctl.Submissions
import Dn42Ctl.WsProtocol
import Mathlib.Algebra.Order.Ring.Rat

/-!
# Dispatch

`ws_hub.py`: the reader loop of a connection.  A frame is decoded, handled and
answered; what a handler raises is answered with an `error` that names no
request.

* `Answered` — a frame got one reply, which names its request, and the
  connection is still open;
* `frame_answered_iff` — which frames are answered.
-/

namespace Dn42Ctl

open Text Txn Endings WsProtocol

namespace Dispatch

/-! ## the environment -/

/-- A new envelope's `id` and `ts`: hexadecimal digits and an ISO time. -/
structure Stamp where
  id : Str
  ts : Str
  id_encodable : encodable id = true
  ts_encodable : encodable ts = true

/-- `repr(value)`, which escapes what has no encoding. -/
structure ReprLib where
  repr : Json → Str
  escapes : ∀ v, encodable (repr v) = true

/-- `str(exc)`. -/
def errorText (lib : ReprLib) (text : Msg) : Str :=
  text.flatMap fun
    | .text s => s
    | .repr v => lib.repr v

/-- What the hub runs with.  A digest is hexadecimal, and the configuration is a
file in UTF-8. -/
structure Hub where
  json : JsonLib
  reprs : ReprLib
  digest : DesiredContent → Str
  digest_encodable : ∀ content, encodable (digest content) = true
  nodeId : Str
  /-- `config.node_id`, when the hub has its configuration. -/
  config : Option Str
  config_encodable : ∀ cfg, config = some cfg → encodable cfg = true

/-- What one frame finds: the clocks, the tools, and the stamps of its reply and
of the generic one. -/
structure Moment where
  peer : PeerEnv
  peer_decoded : peer.Decoded
  now_encodable : encodable peer.now = true
  monotonic : ℚ
  reply : Stamp
  generic : Stamp

/-! ## the connection -/

/-- The hub's database, and what a connection has sent and remembers. -/
structure Session where
  db : Db
  sent : List Envelope
  lastPushedHash : Option Str
  lastSeenTouchedAt : Option ℚ

/-- An exception that leaves a handler. -/
inductive Raised where
  | service (e : Exc PyError)
  | decoding (e : DecodeFailure)
  | unicodeEncodeError

abbrev Handler (α : Type) := Prog Session Raised α

/-- `conn.send(envelope)`. -/
def send (e : Envelope) : Handler Unit := fun s =>
  if Json.encodable (.dict e.toDict) then (.ok (), { s with sent := s.sent ++ [e] })
  else (.error .unicodeEncodeError, s)

/-- `_to_thread`: run a service. -/
def toThread {α : Type} (m : Service α) : Handler α := fun s =>
  ((m.run s.db).1.mapError .service, { s with db := (m.run s.db).2 })

def lastSeenThrottleSeconds : ℚ := 60

section Handlers

variable (hub : Hub) (at_ : Moment)

/-- `_touch_last_seen`; what it raises is suppressed. -/
def touchLastSeen : Handler Unit := fun s =>
  if s.lastSeenTouchedAt.any fun last => at_.monotonic - last < lastSeenThrottleSeconds then
    (.ok (), s)
  else
    let write := ManagedNodeStore.touchLastSeen at_.peer.now hub.nodeId
    (.ok (), { s with db := ((onConnection write).run s.db).2,
                      lastSeenTouchedAt := some at_.monotonic })

/-- The payload of a `desired_push`. -/
def pushPayload (state : DesiredState) : JsonObject :=
  [(lit "revision", .str state.revision), (lit "generated_at", .str state.generatedAt),
    (lit "desired", .dict (desiredPayload state))]

/-- `Envelope(type=…, payload=…, re=re)`. -/
def reply (type : String) (payload : JsonObject) (re : Option Str) : Envelope :=
  { type := lit type, payload, id := at_.reply.id, re, v := protocolVersion, ts := at_.reply.ts }

def setLastPushedHash (hash : Str) : Handler Unit :=
  Prog.write fun s => { s with lastPushedHash := some hash }

/-- `_maybe_push_desired`. -/
def maybePushDesired (force : Bool) (re : Option Str) : Handler Unit := do
  let fingerprint ← toThread (onConnection (computeDesiredFingerprint hub.digest hub.nodeId))
  let last ← Prog.read Session.lastPushedHash
  if !force && last == some fingerprint.contentHash then pure ()
  else do
    let state ← toThread (buildDesiredState hub.digest at_.peer.now hub.nodeId)
    send (reply at_ "desired_push" (pushPayload state) re)
    setLastPushedHash fingerprint.contentHash

/-- `await conn.send(make_error(code, message, re=env.id))`. -/
def sendError (code : String) (message : Str) (re : Option Str) : Handler Unit :=
  send (makeError at_.reply.id at_.reply.ts code message re)

/-- What a service returned, or the `Dn42CtlError` it raised. -/
def rescued {α : Type} (m : Service α) : Handler (Except PyError α) :=
  Prog.catching (toThread (m >>= fun a => pure (.ok a))) fun
    | .service exc =>
        match serviceError? exc with
        | some err => pure (.error err)
        | none => Prog.raise (.service exc)
    | exc => Prog.raise exc

/-- `except Dn42CtlError as exc:` around a service, and the reply to either end. -/
def answering {α : Type} (m : Service α) (ack : α → JsonObject) (e : Envelope) :
    Handler Unit := do
  let outcome ← rescued m
  match outcome with
  | .error err => sendError at_ "service_error" (errorText hub.reprs err.text) (some e.id)
  | .ok a => do
      send (makeAck at_.reply.id at_.reply.ts (ack a) e.id)
      touchLastSeen hub at_

/-- `kind` and `payload` of a submission. -/
def submitted (e : Envelope) : Option (Str × JsonObject) :=
  match Json.lookup (lit "kind") e.payload, Json.lookup (lit "payload") e.payload with
  | some (.str kind), some (.dict payload) => some (kind, payload)
  | _, _ => none

/-- `env.payload.get("source", "push")`. -/
def submittedSource (e : Envelope) : Option Str :=
  match Json.getD (lit "source") e.payload (.str (lit "push")) with
  | .str source => some source
  | _ => none

def handleProposal (e : Envelope) : Handler Unit :=
  match submitted e, submittedSource e with
  | some (kind, payload), some source =>
      answering hub at_
        (submitProposal at_.peer hub.nodeId source kind (.dict payload) hub.config)
        (fun p => [(lit "proposal_id", .int p.id), (lit "status", .str p.status.text)]) e
  | _, _ =>
      sendError at_ "payload_invalid" (lit "proposal_submit 需要 kind/payload/source") (some e.id)

def handleReport (e : Envelope) : Handler Unit :=
  match submitted e with
  | some (kind, payload) =>
      answering hub at_ (submitReport at_.peer.now hub.nodeId kind (.dict payload))
        (fun r => [(lit "report_id", .int r.id), (lit "received_at", .str r.receivedAt)]) e
  | none => sendError at_ "payload_invalid" (lit "report_submit 需要 kind/payload") (some e.id)

/-- `_dispatch`, after the frame is decoded. -/
def dispatchEnvelope (e : Envelope) : Handler Unit :=
  if e.v ≠ protocolVersion then
    sendError at_ "version_mismatch" (lit "协议版本不匹配: v=" ++ ofInt e.v) (some e.id)
  else if e.type = lit "ping" then do
    send (reply at_ "pong" [] (some e.id))
    touchLastSeen hub at_
  else if e.type = lit "desired_request" then maybePushDesired hub at_ true (some e.id)
  else if e.type = lit "proposal_submit" then handleProposal hub at_ e
  else if e.type = lit "report_submit" then handleReport hub at_ e
  else sendError at_ "unknown_type" (lit "未知消息类型: " ++ e.type) (some e.id)

/-- `_dispatch`. -/
def dispatch (raw : Str) : Handler Unit :=
  match decode hub.json at_.peer.now raw with
  | .ok e => dispatchEnvelope hub at_ e
  | .error (.envelopeError text) =>
      sendError at_ "bad_envelope" (errorText hub.reprs text) none
  | .error failure => Prog.raise (.decoding failure)

/-- The body of the loop: what a handler raises is logged and answered with
`internal`; what that answer raises is suppressed. -/
def handleFrame (raw : Str) (s : Session) : Session :=
  match (dispatch hub at_ raw).run s with
  | (.ok _, s') => s'
  | (.error _, s') =>
      ((send (makeError at_.generic.id at_.generic.ts "internal" (lit "服务端内部错误"))).run s').2

end Handlers

/-- `_reader_loop` on what it receives: frames, or `none` for a disconnect, which
ends it.  The flag says whether it still waits for frames. -/
def readerLoop (hub : Hub) : List (Moment × Option Str) → Session → Session × Bool
  | [], s => (s, true)
  | (_, none) :: _, s => (s, false)
  | (at_, some raw) :: rest, s => readerLoop hub rest (handleFrame hub at_ raw s)

/-! ## what can be sent -/

section Sendable

variable {id : Str} {r : Envelope}

/-- A frame has an encoding when its texts do. -/
theorem encodable_toDict :
    Json.encodable (.dict r.toDict) = true ↔
      encodable r.type = true ∧ encodable r.id = true ∧ (optionStr r.re).encodable = true ∧
        encodable r.ts = true ∧ Json.encodable (.dict r.payload) = true := by
  have hkeys : encodable (lit "v") = true ∧ encodable (lit "type") = true ∧
      encodable (lit "id") = true ∧ encodable (lit "re") = true ∧ encodable (lit "ts") = true ∧
      encodable (lit "payload") = true := by decide
  simp [Envelope.toDict, Json.encodable, Json.encodableEntries, hkeys]

/-- `make_error(code, message, re=id)` can be sent when the request's `id` and
the message can. -/
theorem encodable_makeError {stamp : Stamp} {code : String} {message : Str}
    (hcode : encodable (lit code) = true) :
    Json.encodable (.dict (makeError stamp.id stamp.ts code message (some id)).toDict) = true ↔
      encodable id = true ∧ encodable message = true := by
  have hlits : encodable (lit "error") = true ∧ encodable (lit "code") = true ∧
      encodable (lit "message") = true := by decide
  rw [encodable_toDict]
  simp [makeError, optionStr, Json.encodable, Json.encodableEntries, hlits, hcode,
    stamp.id_encodable, stamp.ts_encodable]

/-- The generic internal error can always be sent. -/
theorem encodable_internal {stamp : Stamp} :
    Json.encodable (.dict (makeError stamp.id stamp.ts "internal" (lit "服务端内部错误")).toDict) =
      true := by
  have hlits : encodable (lit "error") = true ∧ encodable (lit "code") = true ∧
      encodable (lit "message") = true ∧ encodable (lit "internal") = true ∧
      encodable (lit "服务端内部错误") = true := by decide
  rw [encodable_toDict]
  simp [makeError, optionStr, Json.encodable, Json.encodableEntries, hlits,
    stamp.id_encodable, stamp.ts_encodable]

/-- An acknowledgement can be sent exactly when the id it answers can. -/
theorem encodable_makeAck {stamp : Stamp} {payload : JsonObject}
    (h : Json.encodable (.dict payload) = true) :
    Json.encodable (.dict (makeAck stamp.id stamp.ts payload id).toDict) = true ↔
      encodable id = true := by
  have htype : encodable (lit "ack") = true := by decide
  rw [Json.encodable] at h
  rw [encodable_toDict]
  simp [makeAck, optionStr, Json.encodable, htype, stamp.id_encodable, stamp.ts_encodable, h]

/-- A reply can be sent exactly when the id it answers can, its payload being sendable. -/
theorem encodable_reply {at_ : Moment} {type : String} {payload : JsonObject}
    (htype : encodable (lit type) = true) (h : Json.encodable (.dict payload) = true) :
    Json.encodable (.dict (reply at_ type payload (some id)).toDict) = true ↔
      encodable id = true := by
  rw [Json.encodable] at h
  rw [encodable_toDict]
  simp [reply, optionStr, Json.encodable, htype, at_.reply.id_encodable, at_.reply.ts_encodable, h]

/-- What an error says has an encoding when its literal texts do. -/
theorem encodable_errorText {lib : ReprLib} {text : Msg} :
    encodable (errorText lib text) = true ↔ Msg.encodable text = true := by
  induction text with
  | nil => exact iff_of_true rfl rfl
  | cons fragment text ih =>
      rw [errorText, List.flatMap_cons, encodable_append, ← errorText, ih, Msg.encodable,
        Msg.encodable, List.all_cons, Bool.and_eq_true]
      refine and_congr_left' ?_
      cases fragment with
      | text s => exact Iff.rfl
      | repr v => exact iff_of_true (lib.escapes v) rfl

end Sendable

/-! ### a desired state -/

section Payload

theorem encodableEntries_append {xs ys : JsonObject} :
    Json.encodableEntries (xs ++ ys) = true ↔
      Json.encodableEntries xs = true ∧ Json.encodableEntries ys = true := by
  induction xs with
  | nil => simp [Json.encodableEntries]
  | cons entry xs ih =>
      obtain ⟨k, v⟩ := entry
      rw [List.cons_append, Json.encodableEntries, Json.encodableEntries]
      simp only [Bool.and_eq_true, ih, and_assoc]

theorem encodableAll_map {α : Type} {f : α → Json} {xs : List α}
    (h : ∀ x ∈ xs, (f x).encodable = true) : Json.encodableAll (xs.map f) = true := by
  induction xs with
  | nil => rfl
  | cons x xs ih =>
      rw [List.map_cons, Json.encodableAll, Bool.and_eq_true]
      exact ⟨h x (List.mem_cons_self ..), ih fun y hy => h y (List.mem_cons_of_mem _ hy)⟩

/-- What SQLite bound as a text, or as NULL, the encoder can send. -/
theorem encodable_jsonOpt {o : Option Str} (h : (Param.ofOption o).convert = none) :
    (jsonOpt o).encodable = true := by
  cases o with
  | none => rfl
  | some s => exact convert_text.mp h

/-- So can a list of texts that the statement bound. -/
theorem encodable_texts {ss : List Str} (h : params (ss.map .text) = none) :
    Json.encodableAll (ss.map .str) = true :=
  encodableAll_map fun _ hs =>
    convert_text.mp (params_eq_none.mp h _ (List.mem_map_of_mem hs))

/-- A BGP peer of a recorded state can be sent. -/
theorem encodable_bgpJson {d : BgpPeerDesired} (h : params d.params = none) :
    d.json.encodable = true := by
  have hkeys : encodable (lit "peer_asn") = true ∧ encodable (lit "ifname") = true ∧
      encodable (lit "wg_private_key") = true ∧ encodable (lit "wg_public_key") = true ∧
      encodable (lit "peer_public_key") = true ∧ encodable (lit "endpoint") = true ∧
      encodable (lit "local_lla") = true ∧ encodable (lit "peer_lla") = true ∧
      encodable (lit "listen_port") = true ∧ encodable (lit "allowed_ips") = true ∧
      encodable (lit "net_backend") = true := by decide
  simp only [BgpPeerDesired.params, params_append, params_cons, convert_text] at h
  obtain ⟨⟨hifname, hpriv, hpub, hpeer, hendpoint, hlocal, hlla, hbackend, -⟩, hips⟩ := h
  simp [BgpPeerDesired.json, Json.encodable, Json.encodableEntries, hkeys, hifname, hpriv, hpub,
    hlocal, hbackend, encodable_jsonOpt hpeer, encodable_jsonOpt hendpoint,
    encodable_jsonOpt hlla, encodable_texts hips]

/-- An iBGP peer of a recorded state can be sent. -/
theorem encodable_ibgpJson {d : IbgpPeerDesired} (h : params d.params = none) :
    d.json.encodable = true := by
  have hkeys : encodable (lit "name") = true ∧ encodable (lit "ifname") = true ∧
      encodable (lit "wg_private_key") = true ∧ encodable (lit "wg_public_key") = true ∧
      encodable (lit "peer_public_key") = true ∧ encodable (lit "endpoint") = true ∧
      encodable (lit "local_lla") = true ∧ encodable (lit "peer_lla") = true ∧
      encodable (lit "peer_ip") = true ∧ encodable (lit "has_wg") = true ∧
      encodable (lit "listen_port") = true ∧ encodable (lit "allowed_ips") = true ∧
      encodable (lit "net_backend") = true ∧ encodable (lit "babel_rxcost") = true ∧
      encodable (lit "babel_type") = true := by decide
  simp only [IbgpPeerDesired.params, params_append, params_cons, convert_text] at h
  obtain ⟨⟨hname, hifname, hpriv, hpub, hpeer, hendpoint, hlocal, hlla, hip, hbackend, htype, -⟩,
    hips⟩ := h
  simp [IbgpPeerDesired.json, Json.encodable, Json.encodableEntries, hkeys, hname, hifname, hpriv,
    hpub, hlocal, hbackend, htype, encodable_jsonOpt hpeer, encodable_jsonOpt hendpoint,
    encodable_jsonOpt hlla, encodable_jsonOpt hip, encodable_texts hips]

/-- The node's own block can be sent when its two addresses bound. -/
theorem encodable_entries {b : NodeBlock}
    (hown : (Param.ofOption b.ownIpv6).convert = none)
    (hrouter : (Param.ofOption b.routerId).convert = none) :
    Json.encodableEntries b.entries = true := by
  have hkeys : encodable (lit "own_ipv6") = true ∧ encodable (lit "router_id") = true := by decide
  rw [NodeBlock.entries, encodableEntries_append]
  constructor
  · cases h : b.ownIpv6 with
    | none => rfl
    | some s =>
        have hs := convert_ofOption.mp hown s h
        simp [Json.encodableEntries, Json.encodable, hkeys, hs]
  · cases h : b.routerId with
    | none => rfl
    | some s =>
        have hs := convert_ofOption.mp hrouter s h
        simp [Json.encodableEntries, Json.encodable, hkeys, hs]

/-- A desired state that can be stored can be sent. -/
theorem encodable_desiredPayload {st : DesiredState} (h : params st.params = none) :
    Json.encodable (.dict (desiredPayload st)) = true := by
  have hkeys : encodable (lit "node_id") = true ∧ encodable (lit "revision") = true ∧
      encodable (lit "generated_at") = true ∧ encodable (lit "bgp_peers") = true ∧
      encodable (lit "ibgp_peers") = true ∧ encodable (lit "node") = true := by decide
  simp only [DesiredState.params, params_append, params_cons, convert_text] at h
  obtain ⟨⟨⟨⟨hnode, hrev, hgen, -⟩, hbgp⟩, hibgp⟩, hown, hrouter, -⟩ := h
  have hbgpJson : Json.encodableAll (st.bgpPeers.map BgpPeerDesired.json) = true :=
    encodableAll_map fun d hd => encodable_bgpJson <|
      params_of_subset hbgp fun _ hp => List.mem_flatMap.mpr ⟨d, hd, hp⟩
  have hibgpJson : Json.encodableAll (st.ibgpPeers.map IbgpPeerDesired.json) = true :=
    encodableAll_map fun d hd => encodable_ibgpJson <|
      params_of_subset hibgp fun _ hp => List.mem_flatMap.mpr ⟨d, hd, hp⟩
  rw [desiredPayload, Json.encodable, encodableEntries_append]
  constructor
  · simp [Json.encodableEntries, Json.encodable, hkeys, hnode, hrev, hgen, hbgpJson, hibgpJson]
  · split
    · rfl
    · simp [Json.encodableEntries, Json.encodable, hkeys, encodable_entries hown hrouter]

/-- A state whose parameters bound can be pushed. -/
theorem encodable_pushPayload {st : DesiredState} (h : params st.params = none) :
    Json.encodable (.dict (pushPayload st)) = true := by
  have hkeys : encodable (lit "revision") = true ∧ encodable (lit "generated_at") = true ∧
      encodable (lit "desired") = true := by decide
  have hdesired := encodable_desiredPayload h
  simp only [DesiredState.params, params_append, params_cons, convert_text] at h
  obtain ⟨⟨⟨⟨-, hrev, hgen, -⟩, -⟩, -⟩, -⟩ := h
  rw [pushPayload, Json.encodable]
  simp [Json.encodableEntries, hkeys, Json.encodable, hrev, hgen]
  simpa only [Json.encodable] using hdesired

end Payload

/-! ## handlers -/

/-- When `P` the handler returns, having sent one frame that names the request.
When not, it raises before it has sent any. -/
def AnswersIff (id : Str) (P : Prop) (m : Handler Unit) (s : Session) : Prop :=
  (P ∧ ∃ s' r, m.run s = (.ok (), s') ∧ s'.sent = s.sent ++ [r] ∧ r.re = some id) ∨
    (¬ P ∧ ∃ x s', m.run s = (.error x, s') ∧ s'.sent = s.sent)

/-- The program returns and has sent nothing. -/
def Silent (m : Handler Unit) : Prop := ∀ s, ∃ s', m.run s = (.ok (), s') ∧ s'.sent = s.sent

namespace AnswersIff

variable {id : Str} {P P' : Prop} {m : Handler Unit} {s s1 : Session}

/-- The condition of an answer may be replaced by an equivalent one. -/
theorem congr (h : AnswersIff id P m s) (hP : P ↔ P') : AnswersIff id P' m s := by
  rw [← hP]
  exact h

/-- A frame with the right `re` answers exactly when it can be encoded. -/
theorem send {r : Envelope} (hre : r.re = some id) :
    AnswersIff id (Json.encodable (.dict r.toDict) = true) (Dispatch.send r) s := by
  unfold AnswersIff Dispatch.send Prog.run
  cases h : Json.encodable (.dict r.toDict) with
  | true => exact .inl ⟨rfl, _, r, rfl, rfl, hre⟩
  | false => exact .inr ⟨Bool.false_ne_true, _, s, rfl, rfl⟩

/-- A handler that raises answers nothing. -/
theorem raise (x : Raised) (hP : ¬ P) : AnswersIff id P (Prog.raise x) s :=
  .inr ⟨hP, x, s, rfl, rfl⟩

/-- A step that sends nothing comes first. -/
theorem after {α : Type} {n : Handler α} {f : α → Handler Unit} {a : α}
    (hrun : n.run s = (.ok a, s1)) (hsent : s1.sent = s.sent) (h : AnswersIff id P (f a) s1) :
    AnswersIff id P (n >>= f) s := by
  unfold AnswersIff
  rw [Prog.run_bind_ok hrun, ← hsent]
  exact h

/-- A step that sends nothing comes last. -/
theorem before {k : Handler Unit} (h : AnswersIff id P m s) (hk : Silent k) :
    AnswersIff id P (m >>= fun _ => k) s := by
  obtain ⟨hP, s1, r, hrun, hsent, hre⟩ | ⟨hP, x, s1, hrun, hsent⟩ := h
  · obtain ⟨s2, hrun2, hsent2⟩ := hk s1
    exact .inl ⟨hP, s2, r, (Prog.run_bind_ok hrun).trans hrun2, hsent2.trans hsent, hre⟩
  · exact .inr ⟨hP, x, s1, Prog.run_bind_error hrun, hsent⟩

end AnswersIff

section Handled

variable {hub : Hub} {at_ : Moment} {e : Envelope} {s : Session}

/-- Noting when the node was last seen sends no frame. -/
theorem silent_touchLastSeen : Silent (touchLastSeen hub at_) := by
  intro s
  unfold touchLastSeen Prog.run
  dsimp only
  split
  · exact ⟨s, rfl, rfl⟩
  · exact ⟨_, rfl, rfl⟩

/-- Nor does storing the fingerprint that was pushed. -/
theorem silent_setLastPushedHash (hash : Str) : Silent (setLastPushedHash hash) :=
  fun _ => ⟨_, rfl, rfl⟩

/-- A service call that returns changes the session's database and nothing else. -/
theorem run_toThread_ok {α : Type} {m : Service α} {a : α} {db' : Db}
    (h : m.run s.db = (.ok a, db')) : (toThread m).run s = (.ok a, { s with db := db' }) := by
  show ((m.run s.db).1.mapError Raised.service, { s with db := (m.run s.db).2 }) = _
  rw [h]
  rfl

/-- One that raises is handed to the handler as it is. -/
theorem run_toThread_error {α : Type} {m : Service α} {exc : Exc PyError} {db' : Db}
    (h : m.run s.db = (.error exc, db')) :
    (toThread m).run s = (.error (.service exc), { s with db := db' }) := by
  show ((m.run s.db).1.mapError Raised.service, { s with db := (m.run s.db).2 }) = _
  rw [h]
  rfl

section Rescued

variable {α : Type} {m : Service α} {db' : Db}

/-- A call that returns under `except Dn42CtlError` is returned. -/
theorem run_rescued_ok {a : α} (h : m.run s.db = (.ok a, db')) :
    (rescued m).run s = (.ok (.ok a), { s with db := db' }) := by
  have hbody : (m >>= fun a => pure (Except.ok a) : Service (Except PyError α)).run s.db =
      (.ok (.ok a), db') := Prog.run_bind_ok h
  rw [rescued, Prog.run_catching, run_toThread_ok hbody]

/-- A refusal under `except Dn42CtlError` is caught. -/
theorem run_rescued_refused {exc : Exc PyError} {err : PyError}
    (h : m.run s.db = (.error exc, db')) (hservice : serviceError? exc = some err) :
    (rescued m).run s = (.ok (.error err), { s with db := db' }) := by
  have hbody : (m >>= fun a => pure (Except.ok a) : Service (Except PyError α)).run s.db =
      (.error exc, db') := Prog.run_bind_error h
  rw [rescued, Prog.run_catching, run_toThread_error hbody]
  dsimp only
  rw [hservice]
  rfl

/-- Any other exception passes it. -/
theorem run_rescued_other {exc : Exc PyError}
    (h : m.run s.db = (.error exc, db')) (hservice : serviceError? exc = none) :
    (rescued m).run s = (.error (.service exc), { s with db := db' }) := by
  have hbody : (m >>= fun a => pure (Except.ok a) : Service (Except PyError α)).run s.db =
      (.error exc, db') := Prog.run_bind_error h
  rw [rescued, Prog.run_catching, run_toThread_error hbody]
  dsimp only
  rw [hservice]
  rfl

end Rescued

/-- An error reply answers exactly when its id and its message can be encoded. -/
theorem answers_sendError {code : String} {message : Str} {id : Str}
    (hcode : encodable (lit code) = true) :
    AnswersIff id (encodable id = true ∧ encodable message = true)
      (sendError at_ code message (some id)) s :=
  (AnswersIff.send rfl).congr (encodable_makeError hcode)

/-- A ping. -/
theorem answers_pong :
    AnswersIff e.id (encodable e.id = true)
      (send (reply at_ "pong" [] (some e.id)) >>= fun _ => touchLastSeen hub at_) s :=
  ((AnswersIff.send rfl).congr (encodable_reply (by decide) rfl)).before silent_touchLastSeen

/-- A request for the desired state. -/
theorem answers_maybePushDesired (hserves : s.db.Serves hub.nodeId) :
    AnswersIff e.id (encodable e.id = true) (maybePushDesired hub at_ true (some e.id)) s := by
  have hbind : params [.text hub.nodeId] = none :=
    params_cons.mpr ⟨convert_text.mpr hserves.nodeId, rfl⟩
  have hfingerprint : (onConnection (computeDesiredFingerprint hub.digest hub.nodeId)).run s.db =
      (.ok _, s.db) := eval_fingerprint s.db hbind hub.digest
  obtain ⟨st, db', hbuild, hst⟩ := build_sendable hserves at_.now_encodable hub.digest_encodable
  unfold maybePushDesired
  refine AnswersIff.after (run_toThread_ok hfingerprint) rfl ?_
  refine AnswersIff.after (Prog.run_read ..) rfl ?_
  rw [Bool.not_true, Bool.false_and, if_neg Bool.false_ne_true]
  refine AnswersIff.after (run_toThread_ok hbuild) rfl ?_
  refine AnswersIff.before ?_ (silent_setLastPushedHash _)
  exact (AnswersIff.send rfl).congr (encodable_reply (by decide) (encodable_pushPayload hst))

/-- A `Dn42CtlError` is told when its text can be. -/
theorem told_serviceError {α : Type} {exc : Exc PyError} {err : PyError}
    (h : serviceError? exc = some err) :
    Told (.error exc : Except (Exc PyError) α) ↔ Msg.encodable err.text = true := by
  cases exc with
  | raised e =>
      rw [serviceError?] at h
      split at h
      · next hcls =>
          cases h
          constructor
          · rintro ⟨err', herr, hraises⟩
            cases herr
            exact hraises.text
          · intro htext
            exact ⟨err, rfl, hcls, htext⟩
      · cases h
  | sqlite q => cases h
  | unbound b => cases h

/-- An exception that is no `Dn42CtlError` is not told to the node. -/
theorem not_told_other {α : Type} {exc : Exc PyError} (h : serviceError? exc = none) :
    ¬ Told (.error exc : Except (Exc PyError) α) := by
  rintro ⟨err, rfl, hraises⟩
  rw [serviceError?, if_pos hraises.cls] at h
  cases h

/-- A submission, whose acknowledgement can be sent. -/
theorem answers_answering {α : Type} {m : Service α} {ack : α → JsonObject}
    (hack : ∀ a db', m.run s.db = (.ok a, db') → Json.encodable (.dict (ack a)) = true) :
    AnswersIff e.id (encodable e.id = true ∧ Told (m.run s.db).1) (answering hub at_ m ack e) s := by
  unfold answering
  cases hrun : m.run s.db with
  | mk outcome db' =>
      cases outcome with
      | ok a =>
          refine AnswersIff.after (run_rescued_ok hrun) rfl ?_
          refine ((AnswersIff.send rfl).congr ?_).before silent_touchLastSeen
          rw [encodable_makeAck (hack a db' hrun)]
          exact (and_iff_left trivial).symm
      | error exc =>
          cases hservice : serviceError? exc with
          | some err =>
              refine AnswersIff.after (run_rescued_refused hrun hservice) rfl ?_
              refine (answers_sendError (by decide)).congr ?_
              rw [encodable_errorText, ← told_serviceError hservice]
          | none =>
              refine .inr ⟨fun h => not_told_other hservice h.2, .service exc,
                { s with db := db' }, ?_, rfl⟩
              exact Prog.run_bind_error (run_rescued_other hrun hservice)

theorem encodable_ack_status (p : ConfigProposal) :
    Json.encodable (.dict [(lit "proposal_id", .int p.id), (lit "status", .str p.status.text)]) =
      true := by
  have hkeys : encodable (lit "proposal_id") = true ∧ encodable (lit "status") = true := by decide
  have hstatus : encodable p.status.text = true := by
    cases p.status <;> decide
  simp [Json.encodable, Json.encodableEntries, hkeys, hstatus]

theorem encodable_ack_report {r : NodeReport} (h : encodable r.receivedAt = true) :
    Json.encodable (.dict [(lit "report_id", .int r.id), (lit "received_at", .str r.receivedAt)]) =
      true := by
  have hkeys : encodable (lit "report_id") = true ∧ encodable (lit "received_at") = true := by
    decide
  simp [Json.encodable, Json.encodableEntries, hkeys, h]

end Handled

/-! ## frames -/

/-- When a request can be answered: its `id` and its `type` can be sent back, and
a submission can be stored, or its refusal told. -/
structure Answerable (hub : Hub) (db : Db) (e : Envelope) : Prop where
  id : encodable e.id = true
  type : encodable e.type = true
  proposal : e.type = lit "proposal_submit" → ∀ kind payload source,
    submitted e = some (kind, payload) → submittedSource e = some source →
      ProposalTellable db hub.nodeId hub.config source kind payload
  report : e.type = lit "report_submit" → ∀ kind payload,
    submitted e = some (kind, payload) → ReportTellable kind payload

section Frames

variable {hub : Hub} {at_ : Moment} {e : Envelope} {s : Session}

/-- A proposal is answered exactly when its id and its outcome can be put in a frame. -/
theorem answers_handleProposal (hserves : s.db.Serves hub.nodeId) :
    AnswersIff e.id (encodable e.id = true ∧ ∀ kind payload source,
        submitted e = some (kind, payload) → submittedSource e = some source →
          ProposalTellable s.db hub.nodeId hub.config source kind payload)
      (handleProposal hub at_ e) s := by
  have hinvalid : AnswersIff e.id (encodable e.id = true ∧
      encodable (lit "proposal_submit 需要 kind/payload/source") = true)
      (sendError at_ "payload_invalid" (lit "proposal_submit 需要 kind/payload/source")
        (some e.id)) s := answers_sendError (by decide)
  have htext : encodable (lit "proposal_submit 需要 kind/payload/source") = true := by decide
  unfold handleProposal
  cases hsubmitted : submitted e with
  | none => exact hinvalid.congr (and_congr_right' (iff_of_true htext fun _ _ _ h => (by cases h)))
  | some pair =>
      obtain ⟨kind, payload⟩ := pair
      cases hsource : submittedSource e with
      | none =>
          exact hinvalid.congr (and_congr_right' (iff_of_true htext fun _ _ _ _ h => (by cases h)))
      | some source =>
          refine (answers_answering fun p _ _ => encodable_ack_status p).congr ?_
          rw [submitProposal_told_iff hserves at_.peer_decoded hub.config_encodable]
          refine and_congr_right' ⟨fun h kind' payload' source' h1 h2 => ?_, fun h =>
            h kind payload source rfl rfl⟩
          cases h1
          cases h2
          exact h

/-- So is a report. -/
theorem answers_handleReport (hserves : s.db.Serves hub.nodeId) :
    AnswersIff e.id (encodable e.id = true ∧ ∀ kind payload,
        submitted e = some (kind, payload) → ReportTellable kind payload)
      (handleReport hub at_ e) s := by
  unfold handleReport
  cases hsubmitted : submitted e with
  | none =>
      have htext : encodable (lit "report_submit 需要 kind/payload") = true := by decide
      exact (answers_sendError (by decide)).congr
        (and_congr_right' (iff_of_true htext fun _ _ h => (by cases h)))
  | some pair =>
      obtain ⟨kind, payload⟩ := pair
      have hack : ∀ r db', (submitReport at_.peer.now hub.nodeId kind (.dict payload)).run s.db =
          (.ok r, db') → Json.encodable (.dict [(lit "report_id", .int r.id),
            (lit "received_at", .str r.receivedAt)]) = true := by
        intro r db' hrun
        exact encodable_ack_report (receivedAt_submitReport hserves at_.now_encodable hrun)
      refine (answers_answering hack).congr ?_
      rw [submitReport_told_iff hserves at_.now_encodable]
      refine and_congr_right' ⟨fun h kind' payload' h1 => ?_, fun h => h kind payload rfl⟩
      cases h1
      exact h

/-- A request is answered when it can be. -/
theorem answers_dispatchEnvelope (hv : e.v = protocolVersion) (hserves : s.db.Serves hub.nodeId) :
    AnswersIff e.id (Answerable hub s.db e) (dispatchEnvelope hub at_ e) s := by
  have hne : ∀ {a b : String}, e.type = lit a → lit a ≠ lit b → e.type ≠ lit b := by
    intro a b ha hab hb
    exact hab (ha.symm.trans hb)
  unfold dispatchEnvelope
  rw [if_neg (not_not.mpr hv)]
  by_cases hping : e.type = lit "ping"
  · rw [if_pos hping]
    refine answers_pong.congr ⟨fun hid => ⟨hid, ?_, fun h => ?_, fun h => ?_⟩, Answerable.id⟩
    · rw [hping]
      decide
    · exact absurd h (hne hping (by decide))
    · exact absurd h (hne hping (by decide))
  rw [if_neg hping]
  by_cases hdesired : e.type = lit "desired_request"
  · rw [if_pos hdesired]
    refine (answers_maybePushDesired hserves).congr
      ⟨fun hid => ⟨hid, ?_, fun h => ?_, fun h => ?_⟩, Answerable.id⟩
    · rw [hdesired]
      decide
    · exact absurd h (hne hdesired (by decide))
    · exact absurd h (hne hdesired (by decide))
  rw [if_neg hdesired]
  by_cases hproposal : e.type = lit "proposal_submit"
  · rw [if_pos hproposal]
    refine (answers_handleProposal hserves).congr
      ⟨fun h => ⟨h.1, ?_, fun _ => h.2, fun h => ?_⟩, fun h => ⟨h.id, h.proposal hproposal⟩⟩
    · rw [hproposal]
      decide
    · exact absurd h (hne hproposal (by decide))
  rw [if_neg hproposal]
  by_cases hreport : e.type = lit "report_submit"
  · rw [if_pos hreport]
    refine (answers_handleReport hserves).congr
      ⟨fun h => ⟨h.1, ?_, fun h => ?_, fun _ => h.2⟩, fun h => ⟨h.id, h.report hreport⟩⟩
    · rw [hreport]
      decide
    · exact absurd h hproposal
  rw [if_neg hreport]
  have hlit : encodable (lit "未知消息类型: ") = true := by decide
  refine (answers_sendError (by decide)).congr ⟨fun h => ⟨h.1, ?_, fun h => ?_, fun h => ?_⟩,
    fun h => ⟨h.id, encodable_append.mpr ⟨hlit, h.type⟩⟩⟩
  · exact (encodable_append.mp h.2).2
  · exact absurd h hproposal
  · exact absurd h hreport

/-- The loop got the frame: it sent one reply, which names the request, and it
still waits for frames. -/
def Answered (hub : Hub) (at_ : Moment) (raw : Str) (e : Envelope) (s : Session) : Prop :=
  ∃ s' r, readerLoop hub [(at_, some raw)] s = (s', true) ∧ s'.sent = s.sent ++ [r] ∧
    r.re = some e.id

variable {raw : Str}

/-- An accepted frame whose answer can be sent is answered once. -/
theorem answered_of_answerable (hdecode : decode hub.json at_.peer.now raw = .ok e)
    (hv : e.v = protocolVersion) (hserves : s.db.Serves hub.nodeId)
    (h : Answerable hub s.db e) : Answered hub at_ raw e s := by
  have hends : AnswersIff e.id (Answerable hub s.db e) (dispatchEnvelope hub at_ e) s :=
    answers_dispatchEnvelope hv hserves
  obtain ⟨-, s', r, hrun, hsent, hre⟩ | ⟨hnot, -⟩ := hends
  · refine ⟨s', r, ?_, hsent, hre⟩
    rw [readerLoop, readerLoop, handleFrame, dispatch, hdecode]
    dsimp only
    rw [hrun]
  · exact absurd h hnot

/-- What cannot be answered gets an `internal` that names no request. -/
theorem sent_of_not_answerable (hdecode : decode hub.json at_.peer.now raw = .ok e)
    (hv : e.v = protocolVersion) (hserves : s.db.Serves hub.nodeId)
    (h : ¬ Answerable hub s.db e) :
    (handleFrame hub at_ raw s).sent = s.sent ++
      [makeError at_.generic.id at_.generic.ts "internal" (lit "服务端内部错误")] := by
  have hends : AnswersIff e.id (Answerable hub s.db e) (dispatchEnvelope hub at_ e) s :=
    answers_dispatchEnvelope hv hserves
  obtain ⟨hyes, -⟩ | ⟨-, x, s', hrun, hsent⟩ := hends
  · exact absurd hyes h
  · rw [handleFrame, dispatch, hdecode]
    dsimp only
    rw [hrun]
    dsimp only
    unfold send Prog.run
    dsimp only
    rw [if_pos encodable_internal, ← hsent]

/-- One whose answer cannot be sent is not. -/
theorem not_answered (hdecode : decode hub.json at_.peer.now raw = .ok e)
    (hv : e.v = protocolVersion) (hserves : s.db.Serves hub.nodeId)
    (h : ¬ Answerable hub s.db e) : ¬ Answered hub at_ raw e s := by
  rintro ⟨s', r, hrun, hsent, hre⟩
  rw [readerLoop, readerLoop] at hrun
  obtain ⟨rfl, -⟩ := Prod.mk.inj hrun
  rw [sent_of_not_answerable hdecode hv hserves h, List.append_cancel_left_eq,
    List.singleton_inj] at hsent
  rw [← hsent] at hre
  cases hre

/-- A request is answered when its `id` and its `type` can be sent back, and its
submission can be stored or its refusal told. -/
theorem frame_answered_iff (hdecode : decode hub.json at_.peer.now raw = .ok e)
    (hv : e.v = protocolVersion) (hserves : s.db.Serves hub.nodeId) :
    Answered hub at_ raw e s ↔ Answerable hub s.db e :=
  ⟨fun h => by_contra fun hnot => not_answered hdecode hv hserves hnot h,
    answered_of_answerable hdecode hv hserves⟩

end Frames

/-! ### a ping, and a ping whose `id` is half a character -/

section Sample

/-- A hub with one node and no peers. -/
def sampleDb : Db :=
  { Db.empty with
    nodes := [lit "lax"]
    managedNodes := [ManagedNodeStore.newNode (lit "2026-07-29T12:00:00+00:00") (lit "lax")
      (lit "lax") false] }

/-- A parser that knows one text. -/
def knowing (text : Str) (doc : JsonObject) : JsonLib where
  dumps obj := .ok (jsonText (.dict obj))
  loads raw :=
    if raw = text then .ok (.dict doc) else .error (.valueError [.text (lit "Expecting value")])

def sampleHub (text : Str) (doc : JsonObject) : Hub where
  json := knowing text doc
  reprs := ⟨fun _ => lit "None", fun _ => by decide⟩
  digest _ := lit "9f86d081"
  digest_encodable _ := by decide
  nodeId := lit "lax"
  config := none
  config_encodable _ h := by cases h

def sampleMoment : Moment where
  peer :=
    { now := lit "2026-07-29T12:00:05+00:00"
      wgKeypair := .error [.text (lit "wg genkey")]
      draw := fun i => i }
  peer_decoded := ⟨fun _ _ h => (by cases h), fun text h => (by cases h; decide)⟩
  now_encodable := by decide
  monotonic := 5
  reply := ⟨lit "a1b2c3d4", lit "2026-07-29T12:00:05+00:00", by decide, by decide⟩
  generic := ⟨lit "e5f60718", lit "2026-07-29T12:00:05+00:00", by decide, by decide⟩

def sampleSession : Session :=
  { db := sampleDb, sent := [], lastPushedHash := none, lastSeenTouchedAt := none }

theorem sampleDb_serves : sampleDb.Serves (lit "lax") where
  node := rfl
  rooted := List.mem_singleton.mpr rfl
  nodeId := by decide
  live := by
    unfold DesiredContent.Bound
    decide
  pinned _ h := by cases h
  revisions _ h := by cases h
  reports _ h := by cases h
  proposals _ h := by cases h
  ids := by decide

/-- A ping as it is received, and what `json.loads` makes of it. -/
def pingText (id : String) : Str :=
  lit "\x7b\"v\": 1, \"type\": \"ping\", \"id\": \"" ++ lit id ++ lit "\"\x7d"

def pingDoc (id : Str) : JsonObject :=
  [(lit "v", .int 1), (lit "type", .str (lit "ping")), (lit "id", .str id)]

def pingEnvelope (id : Str) : Envelope :=
  { type := lit "ping", payload := [], id, re := none, v := protocolVersion,
    ts := sampleMoment.peer.now }

theorem frame_answered_ping :
    Answered (sampleHub (pingText "42") (pingDoc (lit "42"))) sampleMoment (pingText "42")
      (pingEnvelope (lit "42")) sampleSession := by
  refine (frame_answered_iff ?_ rfl sampleDb_serves).mpr ⟨by decide, by decide, ?_, ?_⟩
  · rfl
  · intro h
    cases h
  · intro h
    cases h

/-- A ping whose `id` is an escaped lone surrogate is not answered. -/
theorem frame_answered_fails :
    ¬ ∀ (hub : Hub) (at_ : Moment) (raw : Str) (e : Envelope) (s : Session),
      decode hub.json at_.peer.now raw = .ok e → e.v = protocolVersion →
        s.db.Serves hub.nodeId → Answered hub at_ raw e s := by
  intro h
  have hdecode : decode (sampleHub (pingText "\\ud800") (pingDoc [0xD800])).json
      sampleMoment.peer.now (pingText "\\ud800") = .ok (pingEnvelope [0xD800]) := rfl
  have hnot : ¬ Answerable (sampleHub (pingText "\\ud800") (pingDoc [0xD800])) sampleSession.db
      (pingEnvelope [0xD800]) := by
    intro hanswerable
    exact absurd hanswerable.id (by decide)
  exact not_answered hdecode rfl sampleDb_serves hnot
    (h _ _ _ _ sampleSession hdecode rfl sampleDb_serves)

end Sample

end Dispatch

end Dn42Ctl
