import Dn42Ctl.NodeAddress

/-!
# PeerPayload

`services/peer_payload.py`: untrusted peer payloads are arbitrary JSON written
by whoever holds a node token.  Every error is a `Dn42CtlError` that names the
field it is about.
-/

namespace Dn42Ctl

open Text

structure BgpPeerPayload where
  peerAsn : Int
  peerPublicKey : Str
  endpoint : Str
  peerLla : Str
  netBackend : Str
  listenPort : Option Int
deriving DecidableEq, Repr

structure IbgpPeerPayload where
  name : Str
  peerIp : Str
  hasWg : Bool
  peerPublicKey : Option Str
  endpoint : Str
  peerLla : Option Str
  netBackend : Str
  babelRxcost : Int
  babelType : Str
  listenPort : Option Int
deriving DecidableEq, Repr

/-! ## one field -/

/-- `_require`. -/
def requireField (peer : JsonObject) (field : String) : Except PyError Json :=
  match Json.lookup (lit field) peer with
  | some v => pure v
  | none => throw (dn42CtlError [.text (lit "peer payload 缺少必填字段: "), .text (lit field)])

def typeError (field what : String) (value : Json) : PyError :=
  dn42CtlError [.text (lit field), .text (lit " 必须是"), .text (lit what),
    .text (lit ", 收到 "), .repr value]

/-- A `bool` is no integer here, and a float is not truncated. -/
def asInt (field : String) : Json → Except PyError Int
  | .int n => pure n
  | v => throw (typeError field "整数" v)

def asStr (field : String) : Json → Except PyError Str
  | .str s => pure s
  | v => throw (typeError field "字符串" v)

def asBool (field : String) : Json → Except PyError Bool
  | .bool b => pure b
  | v => throw (typeError field "布尔值" v)

/-- `_checked`: a validator's complaint, with the field in front. -/
def checked {α : Type} (field : String) (r : Except PyError α) : Except PyError α :=
  r.mapError fun e =>
    if e.cls = .validationError then
      dn42CtlError (.text (lit field) :: .text (lit ": ") :: e.text)
    else e

/-- `_optional_str`: a wrong type is an error, not a default. -/
def optionalStr (peer : JsonObject) (field : String) (default : Str := []) : Except PyError Str :=
  match Json.lookup (lit field) peer with
  | none | some .null => pure default
  | some v => do
      let s ← asStr field v
      pure (if s.isEmpty then default else s)

def optionalListenPort (peer : JsonObject) : Except PyError (Option Int) :=
  match Json.lookup (lit "listen_port") peer with
  | none | some .null => pure none
  | some v => do
      let n ← asInt "listen_port" v
      let port ← checked "listen_port" (validateListenPort n true)
      pure (some port)

def payloadNetBackend (peer : JsonObject) : Except PyError Str := do
  let s ← optionalStr peer "net_backend" (lit "networkd")
  checked "net_backend" (validateNetBackend s)

def payloadEndpoint (peer : JsonObject) : Except PyError Str := do
  let s ← optionalStr peer "endpoint"
  checked "endpoint" (validateEndpoint s true)

/-- A required text that goes through a validator. -/
def requireText (peer : JsonObject) (field : String) (validator : Str → Except PyError Str) :
    Except PyError Str := do
  let v ← requireField peer field
  let s ← asStr field v
  checked field (validator s)

/-- A required integer that goes through a validator. -/
def requireInt (peer : JsonObject) (field : String) (validator : Int → Except PyError Int) :
    Except PyError Int := do
  let v ← requireField peer field
  let n ← asInt field v
  checked field (validator n)

def requireIpv6 (peer : JsonObject) (field : String) : Except PyError Str :=
  requireText peer field fun v => validateIpv6Address v (lit field)

/-! ## peers -/

def parseBgpPeer (peer : JsonObject) : Except PyError BgpPeerPayload := do
  let peerAsn ← requireInt peer "peer_asn" validateAsn
  let peerPublicKey ← requireText peer "peer_public_key" validatePubkey
  let endpoint ← payloadEndpoint peer
  let peerLla ← requireIpv6 peer "peer_lla"
  let netBackend ← payloadNetBackend peer
  let listenPort ← optionalListenPort peer
  pure ⟨peerAsn, peerPublicKey, endpoint, peerLla, netBackend, listenPort⟩

/-- The name of an iBGP peer, which must not be blank. -/
def requireName (peer : JsonObject) : Except PyError Str := do
  let v ← requireField peer "name"
  let name ← asStr "name" v
  if (strip name).isEmpty then throw (dn42CtlError [.text (lit "name 不能为空")])
  else pure name

/-- The key and the peer's link-local address of a tunnel. -/
def parseTunnel (peer : JsonObject) : Except PyError (Option Str × Option Str) := do
  let peerPublicKey ← requireText peer "peer_public_key" validatePubkey
  let peerLla ← requireIpv6 peer "peer_lla"
  pure (some peerPublicKey, some peerLla)

/-- `requireWgFields` is `none` for a new peer, whose own `has_wg` decides, and
`true` for a modification, which always concerns a tunnel. -/
def parseIbgpPeer (peer : JsonObject) (requireWgFields : Option Bool := none) :
    Except PyError IbgpPeerPayload := do
  let name ← requireName peer
  let hasWg ← match requireWgFields with
    | none => do
        let v ← requireField peer "has_wg"
        asBool "has_wg" v
    | some _ => pure true
  let validateWg := match requireWgFields with
    | none => hasWg
    | some r => r
  let tunnel ← if validateWg then parseTunnel peer else pure (none, none)
  let peerIp ← requireIpv6 peer "peer_ip"
  let endpoint ← payloadEndpoint peer
  let netBackend ← payloadNetBackend peer
  let babelRxcost ← requireInt peer "babel_rxcost" validateRxcost
  let babelType ← requireText peer "babel_type" validateBabelType
  let listenPort ← optionalListenPort peer
  pure { name, peerIp, hasWg, peerPublicKey := tunnel.1, endpoint, peerLla := tunnel.2,
         netBackend, babelRxcost, babelType, listenPort }

/-! ## keys -/

def parseBgpKey (key : JsonObject) : Except PyError Int := requireInt key "peer_asn" validateAsn

def parseIbgpKey (key : JsonObject) : Except PyError Str := requireName key

end Dn42Ctl
