import Dn42Ctl.PeerSpecs
import Dn42Ctl.GenConfSpecs

/-!
# PeerFiles

`create_bgp_peer`, `modify_bgp_peer`, `create_ibgp_peer` and `modify_ibgp_peer`
with their files: what the operations do where they run on the machine of the
peer (`render_files=True`).

The row is committed first, the files are rendered from the arguments after
it.  `storeBgpPeer` and its siblings are the operations up to the commit, with
what the renderers are given; without files nothing else happens
(`createBgpPeer_store`).
-/

namespace Dn42Ctl

open Text Txn

/-! ## programs on the database and the disk -/

/-- A program on a connection and the files of the machine. -/
abbrev PeerTx (α : Type) := Prog (Conn Db × Disk) (Exc PyError) α

def onDb {α : Type} (m : DbTx α) : PeerTx α := fun s => ((m.run s.1).1, (m.run s.1).2, s.2)

def onDisk {α : Type} (m : DiskTx α) : PeerTx α := fun s =>
  ((m.run s.2).1.mapError Exc.raised, s.1, (m.run s.2).2)

/-- Run a program on a fresh connection, close it and return the outcome with
the database and the files left behind. -/
def evalPeer {α : Type} (m : PeerTx α) (db : Db) (disk : Disk) :
    Except (Exc PyError) α × Db × Disk :=
  let r := m.run (Conn.fresh db none false, disk)
  (r.1, r.2.1.committed, r.2.2)

/-! ## up to the commit -/

/-- `create_bgp_peer` up to the commit: its result, and what
`write_net_backend_files` is given. -/
def storeBgpPeer (env : PeerEnv) (configNodeId : Str) (a : BgpPeerArgs) :
    DbTx (PeerResult × NetBackendArgs) := do
  let backend ← normalizeNetBackend a.netBackend
  let nodeId := orDefault a.nodeId configNodeId
  ensureNode nodeId
  let existing ← wrapDatabaseError (Database.getBgpPeer nodeId a.peerAsn)
  if existing.isSome then failWith "该 BGP peer 已存在，请使用 bgp peer modify"
  else do
    let ifname := lit "dn42_" ++ lastChars 4 (ofInt a.peerAsn)
    let listenPort ← bgpListenPort a.peerAsn a.listenPort
    let keys ← resolveWgKeypair env a.wgPrivateKey a.wgPublicKey
    let localLla := orDefault a.localLla (generateRandomLla (env.draw 0) (env.draw 1))
    let allowedIps := a.allowedIps.getD defaultAllowedIps
    checkValid (validateAllowedIpsList allowedIps)
    wrapDatabaseError (Database.insertBgpPeer env.now
      { nodeId, peerAsn := a.peerAsn, ifname, wgPrivateKey := keys.1, wgPublicKey := keys.2,
        peerPublicKey := some a.peerPublicKey, endpoint := some a.endpoint, localLla,
        peerLla := some a.peerLla, listenPort, allowedIps, netBackend := backend })
    pure (⟨ifname, listenPort, keys.2, localLla⟩,
      { backend, ifname, privateKey := keys.1, listenPort, peerPublicKey := a.peerPublicKey,
        endpoint := a.endpoint, allowedIps, localLla, peerLla := a.peerLla })

/-- `modify_bgp_peer` up to the commit. -/
def restoreBgpPeer (env : PeerEnv) (configNodeId : Str) (a : BgpPeerArgs) :
    DbTx (PeerResult × NetBackendArgs) := do
  let backend ← normalizeNetBackend a.netBackend
  let nodeId := orDefault a.nodeId configNodeId
  ensureNode nodeId
  match ← wrapDatabaseError (Database.getBgpPeer nodeId a.peerAsn) with
  | none => failWith "该 BGP peer 不存在"
  | some row => do
      let port ← modifiedPort nodeId a.listenPort row.listenPort
      let allowedIps := a.allowedIps.getD row.allowedIps
      checkValid (validateAllowedIpsList allowedIps)
      wrapDatabaseError (Database.updateBgpPeer env.now nodeId a.peerAsn
        { peerPublicKey := some a.peerPublicKey, endpoint := some a.endpoint,
          peerLla := some a.peerLla, listenPort := port, allowedIps, netBackend := backend })
      pure (⟨row.ifname, port, row.wgPublicKey, row.localLla⟩,
        { backend, ifname := row.ifname, privateKey := row.wgPrivateKey, listenPort := port,
          peerPublicKey := a.peerPublicKey, endpoint := a.endpoint, allowedIps,
          localLla := row.localLla, peerLla := a.peerLla })

/-- `create_ibgp_peer` up to the commit; the last part is the peer's name. -/
def storeIbgpPeer (env : PeerEnv) (configNodeId : Str) (a : IbgpPeerArgs) :
    DbTx (PeerResult × NetBackendArgs × Str) := do
  let nodeId := orDefault a.nodeId configNodeId
  ensureNode nodeId
  let peerName ← check (sanitizeName a.name)
  let ifname := lit "wg_" ++ peerName
  if 15 < ifname.length then failWith "接口名过长，请使用更短的 name"
  else do
    let t ← tunnelFor env nodeId a
    wrapDatabaseError (Database.insertIbgpPeer env.now
      { nodeId, name := peerName, ifname, wgPrivateKey := t.privateKey, wgPublicKey := t.publicKey,
        peerPublicKey := some (orDefault a.peerPublicKey []),
        endpoint := some (orDefault a.endpoint []), localLla := t.localLla,
        peerLla := some (orDefault a.peerLla []), listenPort := t.listenPort,
        allowedIps := t.allowedIps, netBackend := t.backend, babelRxcost := a.babelRxcost,
        peerIp := some a.peerIp, hasWg := a.hasWg, babelType := a.babelType,
        remoteNodeId := a.remoteNodeId })
    pure (⟨ifname, t.listenPort, t.publicKey, t.localLla⟩,
      { backend := t.backend, ifname, privateKey := t.privateKey, listenPort := t.listenPort,
        peerPublicKey := orDefault a.peerPublicKey [], endpoint := orDefault a.endpoint [],
        allowedIps := t.allowedIps, localLla := t.localLla, peerLla := orDefault a.peerLla [] },
      peerName)

/-- `modify_ibgp_peer` up to the commit. -/
def restoreIbgpPeer (env : PeerEnv) (configNodeId : Str) (a : IbgpModifyArgs) :
    DbTx (PeerResult × NetBackendArgs × Str) := do
  let backend ← normalizeNetBackend a.netBackend
  let _ ← checkValid (validateRxcost a.babelRxcost)
  let _ ← checkValid (validateBabelType a.babelType)
  let nodeId := orDefault a.nodeId configNodeId
  ensureNode nodeId
  let peerName ← check (sanitizeName a.name)
  match ← wrapDatabaseError (Database.getIbgpPeer nodeId peerName) with
  | none => failWith "该 iBGP peer 不存在"
  | some row =>
      if !row.hasWg then
        failWith "该 iBGP peer 未启用 WireGuard，不支持修改 WG 相关参数"
      else do
        let port ← modifiedPort nodeId a.listenPort row.listenPort
        let allowedIps := a.allowedIps.getD row.allowedIps
        checkValid (validateAllowedIpsList allowedIps)
        wrapDatabaseError (Database.updateIbgpPeer env.now nodeId peerName
          { peerPublicKey := some a.peerPublicKey, endpoint := some a.endpoint,
            peerLla := some a.peerLla, listenPort := port, allowedIps, netBackend := backend,
            babelRxcost := a.babelRxcost, peerIp := some a.peerIp, babelType := a.babelType,
            remoteNodeId := a.remoteNodeId })
        pure (⟨row.ifname, port, row.wgPublicKey, row.localLla⟩,
          { backend, ifname := row.ifname, privateKey := row.wgPrivateKey, listenPort := port,
            peerPublicKey := a.peerPublicKey, endpoint := a.endpoint, allowedIps,
            localLla := row.localLla, peerLla := a.peerLla },
          peerName)

/-! ## the files -/

/-- The files of a BGP peer. -/
def renderBgpPeer (io : FileIo) (config : AppConfig) (peerLla : Str) (peerAsn : Int)
    (tunnel : NetBackendArgs) : DiskTx (List FileSpec) := do
  let bird ← writeBirdBgpPeer io config tunnel.ifname peerLla peerAsn
  let files ← writeNetBackendFiles io config tunnel
  pure (bird ++ files)

/-- The BIRD file of an iBGP peer. -/
def writeBirdIbgpPeer (io : FileIo) (config : AppConfig) (name ifname peerIp : Str) :
    DiskTx (List FileSpec) := do
  let text ← Prog.lift ((renderBirdIbgpPeerConf name ifname peerIp).mapError asDiskError)
  let file : FileSpec :=
    ⟨(PosixPath.ofStr config.birdPeersDir).join (lit "ibgp_" ++ name ++ lit ".conf"), text, .bird⟩
  writeText io file
  pure [file]

/-- The files of an iBGP peer; those of the tunnel and `babel.conf` where there
is one. -/
def renderIbgpPeer (io : FileIo) (config : AppConfig) (nodeId name peerIp : Str) (hasWg : Bool)
    (tunnel : NetBackendArgs) : PeerTx (List FileSpec) := do
  let bird ← onDisk (writeBirdIbgpPeer io config name tunnel.ifname peerIp)
  if hasWg then do
    let files ← onDisk (writeNetBackendFiles io config tunnel)
    let rows ← onDb (wrapDatabaseError (Database.listIbgpPeers nodeId))
    let babel ← onDisk (regenerateBabelConf io config rows)
    pure (bird ++ files ++ [babel])
  else pure bird

/-! ## the operations -/

/-- A call of one of the four operations. -/
inductive PeerOperation where
  | createBgp (a : BgpPeerArgs)
  | modifyBgp (a : BgpPeerArgs)
  | createIbgp (a : IbgpPeerArgs)
  | modifyIbgp (a : IbgpModifyArgs)

/-- The result and the generated files. -/
abbrev Generated := PeerResult × List FileSpec

/-- The row first, its files after it. -/
def withFiles {τ : Type} (renderFiles : Bool) (store : DbTx (PeerResult × τ))
    (render : τ → PeerTx (List FileSpec)) : PeerTx Generated := do
  let stored ← onDb store
  if renderFiles then do
    let files ← render stored.2
    pure (stored.1, files)
  else pure (stored.1, [])

section Operations

variable (env : PeerEnv) (io : FileIo) (config : AppConfig) (renderFiles : Bool)

def createBgpPeerFiles (a : BgpPeerArgs) : PeerTx Generated :=
  withFiles renderFiles (storeBgpPeer env config.nodeId a) fun tunnel =>
    onDisk (renderBgpPeer io config a.peerLla a.peerAsn tunnel)

def modifyBgpPeerFiles (a : BgpPeerArgs) : PeerTx Generated :=
  withFiles renderFiles (restoreBgpPeer env config.nodeId a) fun tunnel =>
    onDisk (renderBgpPeer io config a.peerLla a.peerAsn tunnel)

def createIbgpPeerFiles (a : IbgpPeerArgs) : PeerTx Generated :=
  withFiles renderFiles (storeIbgpPeer env config.nodeId a) fun stored =>
    renderIbgpPeer io config (orDefault a.nodeId config.nodeId) stored.2 a.peerIp a.hasWg stored.1

/-- The row of a peer that can be modified has a tunnel. -/
def modifyIbgpPeerFiles (a : IbgpModifyArgs) : PeerTx Generated :=
  withFiles renderFiles (restoreIbgpPeer env config.nodeId a) fun stored =>
    renderIbgpPeer io config (orDefault a.nodeId config.nodeId) stored.2 a.peerIp true stored.1

def PeerOperation.run : PeerOperation → PeerTx Generated
  | .createBgp a => createBgpPeerFiles env io config renderFiles a
  | .modifyBgp a => modifyBgpPeerFiles env io config renderFiles a
  | .createIbgp a => createIbgpPeerFiles env io config renderFiles a
  | .modifyIbgp a => modifyIbgpPeerFiles env io config renderFiles a

end Operations

end Dn42Ctl
