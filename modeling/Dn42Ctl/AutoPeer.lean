import Dn42Ctl.Validators
import Dn42Ctl.Lib.Builtins
import Dn42Ctl.Lib.Machine
import Dn42Ctl.Lib.Binary64

/-!
# AutoPeer

`services/kioubit_auth.py` and the session store of `services/auto_peer.py`: a
signed response of the authentication service is verified locally and exchanged
for a peer-session token, and its signature is remembered so that it cannot be
handed in twice.

Clock readings, deadlines and the time of a response are doubles, and their sums
and differences are rounded as the code's are.
-/

namespace Dn42Ctl

open Text Builtins

/-! ## errors -/

inductive AuthErrorClass where
  | kioubitAuth
  | kioubitExpired
  | autoPeerExpired
  /-- Exceptions of the libraries that no handler names. -/
  | unicodeEncode
  | overflow
  | loads
deriving DecidableEq, Repr

structure AuthError where
  cls : AuthErrorClass
  text : Msg
deriving Repr

def kioubitAuthError (s : String) : AuthError := ⟨.kioubitAuth, [.text (lit s)]⟩

/-- `if not p: raise e`. -/
def require (p : Bool) (e : AuthError) : Except AuthError Unit := if p then pure () else throw e

/-! ## `verify_auth_response` -/

/-- What `json.loads` raises. -/
inductive LoadsError where
  /-- `JSONDecodeError` or `UnicodeDecodeError`. -/
  | decode
  | other
deriving DecidableEq, Repr

/-- The libraries behind a verification: ECDSA over the bytes of a signature and
the signed text, the JSON parser, `float()` and SHA-256. -/
structure AuthLib where
  verifies : List Nat → Str → Bool
  loads : List Nat → Except LoadsError Json
  float : Json → Except ConvError Double
  sha256 : List Nat → Str

/-- The accepted skew in either direction. -/
def maxAgeSeconds : Double := .ofInt 60

/-- `abs(current - issued_at) > MAX_AGE_SECONDS`. -/
def isExpired (current issuedAt : Double) : Bool :=
  decide (maxAgeSeconds < (current - issuedAt).abs)

structure KioubitIdentity where
  asn : Int
  mntner : Str
  authtype : Str
  issuedAt : Double
  digest : Str

/-- `_b64decode`. -/
def authB64decode (value : Str) (field : String) : Except AuthError (List Nat) :=
  match Base64.b64decode value with
  | some raw => pure raw
  | none => throw ⟨.kioubitAuth, [.text (lit field), .text (lit " 不是合法的 base64")]⟩

/-- The first entry that is a text with something in it. -/
def firstName : List Json → Option Str
  | [] => none
  | .str s :: rest => if (strip s).isEmpty then firstName rest else some (strip s)
  | _ :: rest => firstName rest

/-- `_pick_mntner`: the maintainer that authenticated before those of the ASN. -/
def pickMntner (payload : JsonObject) : Except AuthError Str :=
  match firstName ((Json.lookup (lit "effective_mnt") payload).toList) with
  | some name => pure name
  | none =>
      let entries : List Json := match Json.lookup (lit "mnt") payload with
        | some (.list xs) => xs
        | some v => [v]
        | none => []
      match firstName entries with
      | some name => pure name
      | none => throw (kioubitAuthError "认证响应缺少 mntner")

/-- `domain.removeprefix("https://").removeprefix("http://").rstrip("/")`. -/
def expectedDomain (domain : Str) : Str :=
  let removePrefix (pre s : Str) : Str := if startsWith s pre then s.drop pre.length else s
  (((removePrefix (lit "http://") (removePrefix (lit "https://") domain)).reverse).dropWhile
    (· == 47)).reverse

/-- `payload.get("domain") == expected_domain`. -/
def isOwnDomain (domain : Str) (payload : JsonObject) : Bool :=
  match Json.lookup (lit "domain") payload with
  | some (.str d) => d == expectedDomain domain
  | _ => false

/-- `float(payload["time"])`. -/
def authTime (lib : AuthLib) (payload : JsonObject) : Except AuthError Double :=
  match Json.lookup (lit "time") payload with
  | none => throw (kioubitAuthError "认证响应缺少合法的 time 字段")
  | some v =>
      match lib.float v with
      | .ok t => pure t
      | .error .overflow => throw ⟨.overflow, []⟩
      | .error _ => throw (kioubitAuthError "认证响应缺少合法的 time 字段")

/-- `validate_asn(int(payload.get("asn")))`. -/
def authAsn (payload : JsonObject) : Except AuthError Int :=
  let raw := Json.getD (lit "asn") payload .null
  let invalid : AuthError :=
    ⟨.kioubitAuth, [.text (lit "认证响应中的 ASN 不合法: "), .repr raw]⟩
  match Builtins.int raw with
  | .error .overflow => throw ⟨.overflow, []⟩
  | .error _ => throw invalid
  | .ok n =>
      match validateAsn n with
      | .ok asn => pure asn
      | .error _ => throw invalid

/-- The payload of a signed response and the digest of its signature. -/
def signedPayload (lib : AuthLib) (params signature : Str) :
    Except AuthError (JsonObject × Str) := do
  require (!params.isEmpty && !signature.isEmpty)
    (kioubitAuthError "params 与 signature 都不能为空")
  let signatureBytes ← authB64decode signature "signature"
  require (encodable params) ⟨.unicodeEncode, []⟩
  require (lib.verifies signatureBytes params) (kioubitAuthError "签名校验失败")
  let raw ← authB64decode params "params"
  match lib.loads raw with
  | .error .decode => throw (kioubitAuthError "认证响应不是合法 JSON")
  | .error .other => throw ⟨.loads, []⟩
  | .ok (.dict payload) => pure (payload, lib.sha256 signatureBytes)
  | .ok _ => throw (kioubitAuthError "认证响应不是 JSON 对象")

/-- Verify a signed authentication response and return the identity it asserts. -/
def verifyAuthResponse (lib : AuthLib) (params signature domain : Str) (now : Double) :
    Except AuthError KioubitIdentity := do
  let (payload, digest) ← signedPayload lib params signature
  require (isOwnDomain domain payload) (kioubitAuthError "认证响应属于其他域名")
  let issuedAt ← authTime lib payload
  require (!isExpired now issuedAt) ⟨.kioubitExpired, [.text (lit "认证响应已过期，请重新认证")]⟩
  let asn ← authAsn payload
  let mntner ← pickMntner payload
  let authtype := match Json.lookup (lit "authtype") payload with
    | some (.str s) => s
    | _ => []
  pure { asn, mntner, authtype, issuedAt, digest }

/-! ## the session store -/

def sessionTtlSeconds : Double := .ofInt 900

/-- Twice the accepted skew. -/
def consumedTtlSeconds : Double := .ofInt (60 * 2)

/-- The deadline of 1000.1 s has come at 1120.1 s. -/
example : Double.ofUnits (8796972631510221 * 2 ^ 1031) + consumedTtlSeconds ≤
    .ofUnits (4926251897087590 * 2 ^ 1032) := by decide +kernel

structure PeerSession where
  token : Str
  asn : Int
  mntner : Str
  expiresAt : Double
  inFlight : Bool := false

/-- `_sessions` and `_consumed`. -/
structure SessionStore where
  sessions : List PeerSession := []
  /-- Digests of exchanged signatures, with the deadline they are kept until. -/
  consumed : List (Str × Double) := []

structure SessionIssued where
  peerSessionToken : Str
  verifiedAsn : Int
  verifiedMntner : Str
  expiresAt : Double

/-- `_purge_expired_locked`. -/
def purgeExpired (now : Double) (st : SessionStore) : SessionStore where
  sessions := st.sessions.filter fun s => !decide (s.expiresAt ≤ now)
  consumed := st.consumed.filter fun c => !decide (c.2 ≤ now)

/-- Issue a peer-session token for a verified identity; `token` is what
`secrets.token_urlsafe` drew. -/
def openSession (now : Double) (token : Str) (identity : KioubitIdentity) (st : SessionStore) :
    Except AuthError SessionIssued × SessionStore :=
  let st := purgeExpired now st
  if st.consumed.any fun c => c.1 == identity.digest then
    (.error ⟨.autoPeerExpired, [.text (lit "该认证响应已被使用，请重新认证")]⟩, st)
  else
    let session : PeerSession :=
      ⟨token, identity.asn, identity.mntner, now + sessionTtlSeconds, false⟩
    (.ok ⟨token, identity.asn, identity.mntner, now + sessionTtlSeconds⟩,
      { sessions := (st.sessions.filter fun s => s.token != token) ++ [session]
        consumed := st.consumed ++ [(identity.digest, now + consumedTtlSeconds)] })

end Dn42Ctl
