import Dn42Ctl.PeerPayload

/-!
# Peers

`services/bgp.py` and `services/ibgp.py` with what they use of
`services/core.py`: the operations on one peer, on one connection of their own,
as the hub runs them (`render_files=False`: the files are written by the node
that owns the peer).

What the environment decides is an argument: the key pair `wg` prints, the
random numbers for a link-local address and for a port, and the clock.
-/

namespace Dn42Ctl

open Text Txn

/-! ## helpers -/

def defaultAllowedIps : List Str := [lit "fe80::/64", lit "fd00::/8"]

def ibgpAllowedIps : List Str := [lit "fe80::/64", lit "fd00::/8", lit "ff02::/16"]

/-- What one call finds in its environment. -/
structure PeerEnv where
  now : Str
  /-- What `generate_wg_keypair` returns, or the text of its `WireGuardError`. -/
  wgKeypair : Except Msg (Str × Str)
  /-- The random numbers drawn. -/
  draw : Nat → Nat

/-- `except DatabaseError as exc: raise Dn42CtlError(str(exc))`. -/
def wrapDatabaseError {α : Type} (m : DbTx α) : DbTx α :=
  Prog.catching m fun
    | .raised ⟨.databaseError, text⟩ => fail (dn42CtlError text)
    | e => Prog.raise e

/-- A check that may raise. -/
def check {α : Type} (r : Except PyError α) : DbTx α := Prog.lift (r.mapError Exc.raised)

/-- `except ValidationError as exc: raise Dn42CtlError(str(exc))`. -/
def checkValid {α : Type} (r : Except PyError α) : DbTx α := check (r.mapError asDn42CtlError)

def failWith {α : Type} (s : String) : DbTx α := fail (dn42CtlError [.text (lit s)])

/-- `open_db_and_ensure_node`, after the connection is open. -/
def ensureNode (nodeId : Str) : DbTx Unit := wrapDatabaseError (Database.ensureNode nodeId)

def normalizeNetBackend (netBackend : Str) : DbTx Str := checkValid (validateNetBackend netBackend)

/-- `random.randint(*WG_PORT_RANGE)`. -/
def randomPort (n : Nat) : Int := 30000 + (n % 20000 : Nat)

/-- The loop of `pick_unused_port`. -/
def pickFrom (draw : Nat → Nat) (used : List Int) : Nat → Nat → Except PyError Int
  | 0, _ => throw (dn42CtlError [.text (lit "无法自动选择未占用端口，请手动指定")])
  | left + 1, i =>
      if used.contains (randomPort (draw i)) then pickFrom draw used left (i + 1)
      else pure (randomPort (draw i))

def pickUnusedPort (draw : Nat → Nat) (used : List Int) : Except PyError Int :=
  pickFrom draw used 2001 0

def hexDigit (n : Nat) : Nat := if n < 10 then 48 + n else 87 + n

/-- `f"{n:04x}"` of a 16-bit number. -/
def hex4 (n : Nat) : Str :=
  [hexDigit (n / 4096 % 16), hexDigit (n / 256 % 16), hexDigit (n / 16 % 16), hexDigit (n % 16)]

def generateRandomLla (a b : Nat) : Str :=
  lit "fe80::" ++ hex4 (a % 65536) ++ 58 :: hex4 (b % 65536)

def resolveWgKeypair (env : PeerEnv) (wgPrivateKey wgPublicKey : Option Str) : DbTx (Str × Str) :=
  match wgPrivateKey, wgPublicKey with
  | none, none =>
      match env.wgKeypair with
      | .ok pair => pure pair
      | .error text => fail (dn42CtlError text)
  | some priv, some pub => pure (priv, pub)
  | _, _ => failWith "内部错误: 必须同时提供 wg_private_key 与 wg_public_key"

def isNameChar (c : Nat) : Bool := isAlnum c || c == 95

def sanitizeName (name : Str) : Except PyError Str :=
  let cleaned := subRuns (fun c => !isNameChar c) 95 false (strip name)
  let cleaned := stripOf 95 (subRuns (· == 95) 95 false cleaned)
  if cleaned.isEmpty then throw (dn42CtlError [.text (lit "名称不能为空")])
  else pure (lower cleaned)

structure PeerResult where
  ifname : Str
  listenPort : Int
  wgPublicKey : Str
  localLla : Str
deriving DecidableEq, Repr

/-- The last `n` characters. -/
def lastChars (n : Nat) (s : Str) : Str := s.drop (s.length - n)

/-- `int(str(asn)[-5:])`. -/
def lastFive : Int → Int
  | .ofNat n => ((n % 100000 : Nat) : Int)
  | .negSucc n => if n + 1 < 10000 then .negSucc n else (((n + 1) % 100000 : Nat) : Int)

/-- The ports in use, zero and `current` aside. -/
def otherPorts (used : List Int) (current : Int) : List Int :=
  used.filter fun p => p != 0 && p != current

/-- A port that a peer is about to take must be free. -/
def checkPortFree (nodeId : Str) (port current : Int) : DbTx Unit := do
  let used ← wrapDatabaseError (Database.getUsedListenPorts nodeId)
  if (otherPorts used current).contains port then
    fail (dn42CtlError [.text (lit "ListenPort 已被占用: "), .text (ofInt port)])
  else pure ()

/-- The port of a modified peer: the one given, or the one it has. -/
def modifiedPort (nodeId : Str) (given : Option Int) (current : Int) : DbTx Int := do
  let port ← checkValid (validateListenPort (given.getD current) true)
  if given.isSome ∧ port > 0 ∧ port ≠ current then
    checkPortFree nodeId port current >>= fun _ => pure port
  else pure port

/-! ## `services/bgp.py` -/

/-- The keyword arguments of `create_bgp_peer`. -/
structure BgpPeerArgs where
  peerAsn : Int
  peerPublicKey : Str
  endpoint : Str
  peerLla : Str
  netBackend : Str
  listenPort : Option Int := none
  wgPrivateKey : Option Str := none
  wgPublicKey : Option Str := none
  localLla : Option Str := none
  nodeId : Option Str := none
  allowedIps : Option (List Str) := none
deriving DecidableEq, Repr

/-- The port of a new BGP peer: the one given, or the last digits of the ASN. -/
def bgpListenPort (peerAsn : Int) : Option Int → DbTx Int
  | none =>
      if lastFive peerAsn > maxPort then
        fail (dn42CtlError [.text (lit "由 ASN 推导的 ListenPort 超出范围: "),
          .text (ofInt (lastFive peerAsn))])
      else pure (lastFive peerAsn)
  | some port => checkValid (validateListenPort port true)

def createBgpPeer (env : PeerEnv) (configNodeId : Str) (a : BgpPeerArgs) : DbTx PeerResult := do
  let backend ← normalizeNetBackend a.netBackend
  let nodeId := orDefault a.nodeId configNodeId
  ensureNode nodeId
  let existing ← wrapDatabaseError (Database.getBgpPeer nodeId a.peerAsn)
  if existing.isSome then failWith "该 BGP peer 已存在，请使用 bgp peer modify"
  else do
    let ifname := lit "dn42_" ++ lastChars 4 (ofInt a.peerAsn)
    let listenPort ← bgpListenPort a.peerAsn a.listenPort
    let keys ← resolveWgKeypair env a.wgPrivateKey a.wgPublicKey
    let localLla := orDefault a.localLla (generateRandomLla (env.draw 0) (env.draw 1))
    let allowedIps := a.allowedIps.getD defaultAllowedIps
    checkValid (validateAllowedIpsList allowedIps)
    wrapDatabaseError (Database.insertBgpPeer env.now
      { nodeId, peerAsn := a.peerAsn, ifname, wgPrivateKey := keys.1, wgPublicKey := keys.2,
        peerPublicKey := some a.peerPublicKey, endpoint := some a.endpoint, localLla,
        peerLla := some a.peerLla, listenPort, allowedIps, netBackend := backend })
    pure ⟨ifname, listenPort, keys.2, localLla⟩

/-- `modify_bgp_peer` has no arguments for the keys and the local address. -/
def modifyBgpPeer (env : PeerEnv) (configNodeId : Str) (a : BgpPeerArgs) : DbTx PeerResult := do
  let backend ← normalizeNetBackend a.netBackend
  let nodeId := orDefault a.nodeId configNodeId
  ensureNode nodeId
  match ← wrapDatabaseError (Database.getBgpPeer nodeId a.peerAsn) with
  | none => failWith "该 BGP peer 不存在"
  | some row => do
      let port ← modifiedPort nodeId a.listenPort row.listenPort
      let allowedIps := a.allowedIps.getD row.allowedIps
      checkValid (validateAllowedIpsList allowedIps)
      wrapDatabaseError (Database.updateBgpPeer env.now nodeId a.peerAsn
        { peerPublicKey := some a.peerPublicKey, endpoint := some a.endpoint,
          peerLla := some a.peerLla, listenPort := port, allowedIps, netBackend := backend })
      pure ⟨row.ifname, port, row.wgPublicKey, row.localLla⟩

def deleteBgpPeer (env : PeerEnv) (configNodeId : Str) (peerAsn : Int) (nodeId : Option Str) :
    DbTx Unit := do
  let nodeId := orDefault nodeId configNodeId
  match ← wrapDatabaseError (Database.getBgpPeer nodeId peerAsn) with
  | none => failWith "该 BGP peer 不存在"
  | some _ => do
      let _ ← wrapDatabaseError (Database.deleteBgpPeer env.now nodeId peerAsn)
      pure ()

/-! ## `services/ibgp.py` -/

/-- The keyword arguments of `create_ibgp_peer`. -/
structure IbgpPeerArgs where
  name : Str
  peerIp : Str
  hasWg : Bool := true
  peerPublicKey : Option Str := none
  endpoint : Option Str := none
  peerLla : Option Str := none
  netBackend : Option Str := none
  babelRxcost : Int := 20
  babelType : Str := lit "tunnel"
  listenPort : Option Int := none
  wgPrivateKey : Option Str := none
  wgPublicKey : Option Str := none
  localLla : Option Str := none
  nodeId : Option Str := none
  allowedIps : Option (List Str) := none
  remoteNodeId : Option Str := none
deriving DecidableEq, Repr

/-- The columns of a tunnel. -/
structure Tunnel where
  backend : Str
  listenPort : Int
  privateKey : Str
  publicKey : Str
  localLla : Str
  allowedIps : List Str
deriving DecidableEq, Repr

/-- The port of a new tunnel: the one given, or a free one. -/
def ibgpListenPort (env : PeerEnv) (nodeId : Str) : Option Int → DbTx Int
  | none => do
      let used ← wrapDatabaseError (Database.getUsedListenPorts nodeId)
      check (pickUnusedPort (fun i => env.draw (i + 2)) (otherPorts used 0))
  | some given => do
      let port ← checkValid (validateListenPort given true)
      if port > 0 then checkPortFree nodeId port 0 >>= fun _ => pure port
      else pure port

def createTunnel (env : PeerEnv) (nodeId : Str) (a : IbgpPeerArgs) : DbTx Tunnel := do
  let backend ← normalizeNetBackend (orDefault a.netBackend (lit "networkd"))
  let listenPort ← ibgpListenPort env nodeId a.listenPort
  let _ ← checkValid (validateRxcost a.babelRxcost)
  let _ ← checkValid (validateBabelType a.babelType)
  let keys ← resolveWgKeypair env a.wgPrivateKey a.wgPublicKey
  let localLla := orDefault a.localLla (generateRandomLla (env.draw 0) (env.draw 1))
  let allowedIps := a.allowedIps.getD ibgpAllowedIps
  checkValid (validateAllowedIpsList allowedIps)
  pure ⟨backend, listenPort, keys.1, keys.2, localLla, allowedIps⟩

/-- The columns of the tunnel, which are empty where there is none. -/
def tunnelFor (env : PeerEnv) (nodeId : Str) (a : IbgpPeerArgs) : DbTx Tunnel :=
  if a.hasWg then createTunnel env nodeId a
  else pure ⟨lit "networkd", 0, [], [], [], a.allowedIps.getD ibgpAllowedIps⟩

def createIbgpPeer (env : PeerEnv) (configNodeId : Str) (a : IbgpPeerArgs) : DbTx PeerResult := do
  let nodeId := orDefault a.nodeId configNodeId
  ensureNode nodeId
  let peerName ← check (sanitizeName a.name)
  let ifname := lit "wg_" ++ peerName
  if 15 < ifname.length then failWith "接口名过长，请使用更短的 name"
  else do
    let t ← tunnelFor env nodeId a
    wrapDatabaseError (Database.insertIbgpPeer env.now
      { nodeId, name := peerName, ifname, wgPrivateKey := t.privateKey, wgPublicKey := t.publicKey,
        peerPublicKey := some (orDefault a.peerPublicKey []),
        endpoint := some (orDefault a.endpoint []), localLla := t.localLla,
        peerLla := some (orDefault a.peerLla []), listenPort := t.listenPort,
        allowedIps := t.allowedIps, netBackend := t.backend, babelRxcost := a.babelRxcost,
        peerIp := some a.peerIp, hasWg := a.hasWg, babelType := a.babelType,
        remoteNodeId := a.remoteNodeId })
    pure ⟨ifname, t.listenPort, t.publicKey, t.localLla⟩

/-- The keyword arguments of `modify_ibgp_peer`. -/
structure IbgpModifyArgs where
  name : Str
  peerPublicKey : Str
  endpoint : Str
  peerLla : Str
  netBackend : Str
  babelRxcost : Int
  babelType : Str
  peerIp : Str
  listenPort : Option Int := none
  nodeId : Option Str := none
  allowedIps : Option (List Str) := none
  remoteNodeId : Patch (Option Str) := .unset
deriving DecidableEq, Repr

def modifyIbgpPeer (env : PeerEnv) (configNodeId : Str) (a : IbgpModifyArgs) :
    DbTx PeerResult := do
  let backend ← normalizeNetBackend a.netBackend
  let _ ← checkValid (validateRxcost a.babelRxcost)
  let _ ← checkValid (validateBabelType a.babelType)
  let nodeId := orDefault a.nodeId configNodeId
  ensureNode nodeId
  let peerName ← check (sanitizeName a.name)
  match ← wrapDatabaseError (Database.getIbgpPeer nodeId peerName) with
  | none => failWith "该 iBGP peer 不存在"
  | some row =>
      if !row.hasWg then
        failWith "该 iBGP peer 未启用 WireGuard，不支持修改 WG 相关参数"
      else do
        let port ← modifiedPort nodeId a.listenPort row.listenPort
        let allowedIps := a.allowedIps.getD row.allowedIps
        checkValid (validateAllowedIpsList allowedIps)
        wrapDatabaseError (Database.updateIbgpPeer env.now nodeId peerName
          { peerPublicKey := some a.peerPublicKey, endpoint := some a.endpoint,
            peerLla := some a.peerLla, listenPort := port, allowedIps, netBackend := backend,
            babelRxcost := a.babelRxcost, peerIp := some a.peerIp, babelType := a.babelType,
            remoteNodeId := a.remoteNodeId })
        pure ⟨row.ifname, port, row.wgPublicKey, row.localLla⟩

def deleteIbgpPeer (env : PeerEnv) (configNodeId name : Str) (nodeId : Option Str) :
    DbTx Unit := do
  let nodeId := orDefault nodeId configNodeId
  let peerName ← check (sanitizeName name)
  match ← wrapDatabaseError (Database.getIbgpPeer nodeId peerName) with
  | none => failWith "该 iBGP peer 不存在"
  | some _ => do
      let _ ← wrapDatabaseError (Database.deleteIbgpPeer env.now nodeId peerName)
      pure ()

end Dn42Ctl
