import Dn42Ctl.Schema
import Dn42Ctl.Lib.Base64
import Dn42Ctl.Lib.IpAddress

/-!
# Validators

`dn42ctl/validators.py`.  A validator returns the text it accepted, stripped of
surrounding white space, or raises a `ValidationError`.

`_ENDPOINT_RE` is `^(\[.+\]|[^:]+):(\d+)$`: its digits hold no colon, so a
match splits the text at the last colon.  `.` matches everything but a line
feed, `[^:]` everything but a colon, and `\d` a decimal digit of any script.
The texts matched are stripped, so `$` never matches before a final line feed.
-/

namespace Dn42Ctl

open Text IpAddress

def maxPort : Int := 65535

def maxAsn : Int := 4294967295

def wgKeyBytes : Nat := 32

def validationError (text : Msg) : PyError := ⟨.validationError, text⟩

/-! ## numbers -/

def validateListenPort (value : Int) (allowZero : Bool := false) : Except PyError Int :=
  let lo : Int := if allowZero then 0 else 1
  if value < lo ∨ value > maxPort then
    throw (validationError [.text (lit "ListenPort 超出范围 ("), .text (ofInt lo),
      .text (lit "-65535): "), .text (ofInt value)])
  else pure value

def validateRxcost (value : Int) : Except PyError Int :=
  if value < 0 ∨ value > maxPort then
    throw (validationError [.text (lit "rxcost 超出范围 (0-65535): "), .text (ofInt value)])
  else pure value

def validateAsn (value : Int) : Except PyError Int :=
  if value ≤ 0 then
    throw (validationError [.text (lit "ASN 必须是正整数: "), .text (ofInt value)])
  else if value > maxAsn then
    throw (validationError
      [.text (lit "ASN 超出 32 位范围 (1-4294967295): "), .text (ofInt value)])
  else pure value

/-! ## keys and endpoints -/

def validatePubkey (value : Str) : Except PyError Str :=
  let value := strip value
  if value.isEmpty then throw (validationError [.text (lit "公钥不能为空")])
  else
    match Base64.b64decode value with
    | none =>
        throw (validationError [.text (lit "公钥不是合法的 base64: "), .repr (.str value)])
    | some raw =>
        if raw.length ≠ wgKeyBytes then
          throw (validationError [.text (lit "公钥长度不对 (解码后需 32 字节, 实际 "),
            .text (ofInt raw.length), .text (lit "): "), .repr (.str value)])
        else pure value

/-- The host alternative of `_ENDPOINT_RE`: `\[.+\]` or `[^:]+`. -/
def isEndpointHost (host : Str) : Bool :=
  (decide (3 ≤ host.length) && host.head? == some 91 && host.getLast? == some 93 &&
      !(host.tail.dropLast).contains 10) ||
    (!host.isEmpty && !host.contains 58)

/-- `_ENDPOINT_RE.match(value)`: the groups for host and digits. -/
def matchEndpoint (value : Str) : Option (Str × Str) :=
  match rpartition 58 value with
  | none => none
  | some (host, digits) =>
      if !digits.isEmpty && digits.all isDigit && isEndpointHost host then some (host, digits)
      else none

def validateEndpoint (value : Str) (allowEmpty : Bool := false) : Except PyError Str :=
  let value := strip value
  if value.isEmpty then
    if allowEmpty then pure value
    else throw (validationError [.text (lit "Endpoint 不能为空")])
  else
    match matchEndpoint value with
    | none =>
        throw (validationError
          [.text (lit "Endpoint 格式错误: 需要 host:port 或 [IPv6]:port 形式: "),
            .repr (.str value)])
    | some (_, digits) =>
        if 5 < digits.length then
          throw (validationError [.text (lit "Endpoint 端口超出范围 (1-65535): "),
            .text (digits.take 16), .text (lit "…")])
        else
          let port := (decimalValue digits).getD 0
          if 1 ≤ port ∧ port ≤ 65535 then pure value
          else throw (validationError
            [.text (lit "Endpoint 端口超出范围 (1-65535): "), .text (ofInt port)])

/-- Drop the brackets of `[v6]`. -/
def unbracket (host : Str) : Str :=
  if host.head? = some 91 ∧ host.getLast? = some 93 then host.tail.dropLast else host

/-- `host:port` or `[v6]:port`, taken apart. -/
def splitEndpoint (value : Str) : Except PyError (Str × Nat) := do
  let value ← validateEndpoint value
  match matchEndpoint value with
  | none =>
      throw (validationError [.text (lit "Endpoint 格式错误: "), .repr (.str value)])
  | some (host, digits) => pure (unbracket host, (decimalValue digits).getD 0)

/-- Put an endpoint together; an IPv6 literal gets brackets. -/
def formatEndpoint (host : Str) (port : Nat) : Str :=
  let host := unbracket (strip host)
  if !isIPv4 host && isIPv6 host then 91 :: host ++ 93 :: 58 :: ofInt port
  else host ++ 58 :: ofInt port

/-! ## addresses -/

/-- A validator that strips, refuses the empty text and checks a grammar. -/
def validateWith (grammar : Str → Bool) (fieldName : Str) (what : String) (value : Str) :
    Except PyError Str :=
  let value := strip value
  if value.isEmpty then throw (validationError [.text fieldName, .text (lit " 不能为空")])
  else if grammar value then pure value
  else throw (validationError [.text (lit what), .repr (.str value)])

/-- `IPv6Interface` when there is a `/`, else `IPv6Address`. -/
def isIPv6Text (value : Str) : Bool :=
  if value.contains 47 then isIPv6Interface value else isIPv6 value

def validateIpv6Address (value : Str) (fieldName : Str := lit "IPv6 地址") : Except PyError Str :=
  validateWith isIPv6Text fieldName "不是合法的 IPv6 地址: " value

def validateIpv4Address (value : Str) (fieldName : Str := lit "IPv4 地址") : Except PyError Str :=
  validateWith isIPv4 fieldName "不是合法的 IPv4 地址: " value

def validateIpv6Network (value : Str) (fieldName : Str := lit "IPv6 前缀") : Except PyError Str :=
  validateWith isIPv6Interface fieldName "不是合法的 IPv6 CIDR 前缀: " value

def validateRouterId (value : Str) : Except PyError Str :=
  validateIpv4Address value (lit "Router ID")

def isAlnum (c : Nat) : Bool :=
  (48 ≤ c && c ≤ 57) || (65 ≤ c && c ≤ 90) || (97 ≤ c && c ≤ 122)

/-- `[A-Za-z0-9]([A-Za-z0-9-]{0,61}[A-Za-z0-9])?`. -/
def isHostLabel (s : Str) : Bool :=
  decide (1 ≤ s.length ∧ s.length ≤ 63) && (s.all fun c => isAlnum c || c == 45) &&
    s.head?.any isAlnum && s.getLast?.any isAlnum

/-- `_HOSTNAME_RE` matches: labels separated by dots, an optional dot at the
end, at most 253 characters. -/
def isHostname (s : Str) : Bool :=
  let body := if s.getLast? = some 46 then s.dropLast else s
  decide (1 ≤ s.length ∧ s.length ≤ 253) && (body.splitOn 46).all isHostLabel

def validateEndpointHost (value : Str) : Except PyError Str :=
  let value := strip value
  if value.isEmpty then throw (validationError [.text (lit "endpoint_host 不能为空")])
  else if value.head? = some 91 then
    throw (validationError [.text (lit "endpoint_host 是裸主机名/地址，不要带方括号或端口: "),
      .repr (.str value)])
  else if isIPv4 value || isIPv6 value then pure value
  else if value.contains 58 then
    throw (validationError [.text (lit "endpoint_host 不能包含端口: "), .repr (.str value)])
  else if !isHostname value then
    throw (validationError [.text (lit "endpoint_host 不是合法的主机名: "), .repr (.str value)])
  else pure value

/-! ## enumerated texts -/

def validateBabelType (value : Str) : Except PyError Str :=
  let value := lower (strip value)
  if value = lit "wired" ∨ value = lit "wireless" ∨ value = lit "tunnel" then pure value
  else throw (validationError
    [.text (lit "type 必须是 wired, wireless, tunnel 之一: "), .repr (.str value)])

def validateNetBackend (value : Str) : Except PyError Str :=
  let backend := lower (strip value)
  if backend = lit "networkd" then pure (lit "networkd")
  else if backend = lit "nm" ∨ backend = lit "networkmanager" then pure (lit "nm")
  else throw (validationError
    [.text (lit "net_backend 必须是 networkd 或 nm: "), .repr (.str value)])

/-! ## lists of prefixes -/

/-- `validate_allowed_ips_list`, for callers that use it as a check and keep
the list they had. -/
def validateAllowedIpsList (value : List Str) : Except PyError Unit :=
  if value.isEmpty then
    throw (validationError
      [.text (lit "AllowedIPs 不能为空，至少需要一个合法的 IPv6 CIDR")])
  else
    value.forM fun item =>
      let item := strip item
      if item.isEmpty then throw (validationError [.text (lit "AllowedIPs 包含空字符串")])
      else if isIPv6Interface item then pure ()
      else throw (validationError [.text (lit "不是合法的 IPv6 CIDR: "), .repr (.str item)])

end Dn42Ctl
