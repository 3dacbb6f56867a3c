import Dn42Ctl.NodeApply
import Dn42Ctl.Database

/-!
# GenConf

`genconf` of `services/init_sys.py` with what it uses of `services/core.py`:
the hub's own files, rendered from the rows of its partition.

A program returns the files it generated with their contents.  `FileIo` says
how the world outside answers.  What `ensure_dummy_interface` writes is left out:
it comes first, and touches nothing but the two files of `dn42-dummy`.
-/

namespace Dn42Ctl

open Text

/-- How the download of the ROA table ends. -/
inductive Download where
  | content (text : Str)
  /-- A `URLError`, a `TimeoutError` or a `ValueError`. -/
  | failed
  /-- Another exception. -/
  | raises (e : PyError)

/-- How the world outside answers. -/
structure FileIo where
  write : PosixPath → WriteOutcome
  /-- Removing the file raises an `OSError`. -/
  unlinkFails : PosixPath → Bool
  /-- What `ensure_dummy_interface` raises. -/
  dummyRaises : Option PyError
  download : Download

/-- Every operation succeeds. -/
def FileIo.calm : FileIo where
  write := fun _ => .done
  unlinkFails := fun _ => false
  dummyRaises := none
  download := .content (lit "# ROA\n")

/-! ## `services/core.py` -/

/-- `write_text`. -/
def writeText (io : FileIo) (file : FileSpec) : DiskTx Unit :=
  match io.write file.path with
  | .done => Prog.write (Disk.write file.path (.text file.content))
  | .refused => Prog.raise (dn42CtlError [.text (lit "写入失败: "), .text file.path.toStr])
  | .torn left =>
      Prog.write (Disk.write file.path left) >>= fun _ =>
        Prog.raise (dn42CtlError [.text (lit "写入失败: "), .text file.path.toStr])

/-- `path.unlink(missing_ok=True)`. -/
def unlinkMissingOk (io : FileIo) (path : PosixPath) : DiskTx Unit :=
  if io.unlinkFails path then Prog.raise (pyError .osError) else Prog.write (Disk.unlink path)

/-- The arguments of `write_net_backend_files`. -/
structure NetBackendArgs where
  backend : Str
  ifname : Str
  privateKey : Str
  listenPort : Int
  peerPublicKey : Str
  endpoint : Str
  allowedIps : List Str
  localLla : Str
  peerLla : Str

/-- The `.netdev` and the `.network` of a tunnel. -/
def NetBackendArgs.files (networkdDir : PosixPath) (a : NetBackendArgs) : List FileSpec :=
  [⟨networkdDir.join (a.ifname ++ lit ".netdev"),
    renderNetworkdNetdev a.ifname a.privateKey a.listenPort a.peerPublicKey a.endpoint
      a.allowedIps, .netdev⟩,
   ⟨networkdDir.join (a.ifname ++ lit ".network"),
    renderNetworkdNetwork a.ifname a.localLla a.peerLla, .network⟩]

def writeNetBackendFiles (io : FileIo) (config : AppConfig) (a : NetBackendArgs) :
    DiskTx (List FileSpec) :=
  if a.allowedIps.isEmpty then
    Prog.raise (dn42CtlError [.text (lit "AllowedIPs 不能为空 (ifname="), .text a.ifname,
      .text (lit ")，至少需要一个合法的 IPv6 CIDR")])
  else if a.backend ≠ lit "networkd" then
    Prog.raise (dn42CtlError [.text (lit "不支持的网络后端: "), .text a.backend,
      .text (lit "，peer 仅支持 networkd")])
  else do
    let files := a.files (.ofStr config.networkdDir)
    files.forM (writeText io)
    pure files

/-- `except ValueError as exc: raise Dn42CtlError(str(exc))`. -/
def asDiskError (e : PyError) : PyError :=
  if e.cls = .valueError then dn42CtlError e.text else e

def writeBirdBgpPeer (io : FileIo) (config : AppConfig) (ifname peerLla : Str) (peerAsn : Int) :
    DiskTx (List FileSpec) := do
  let text ← Prog.lift ((renderBirdBgpPeerConf ifname peerLla peerAsn).mapError asDiskError)
  let file : FileSpec :=
    ⟨(PosixPath.ofStr config.birdPeersDir).join (ifname ++ lit ".conf"), text, .bird⟩
  writeText io file
  pure [file]

/-- The interfaces of `babel.conf`; an empty type is a tunnel. -/
def babelInterfaces (rows : List IbgpRow) : List BabelInterface :=
  (rows.filter fun r => r.hasWg).map fun r =>
    ⟨r.ifname, r.babelRxcost, if r.babelType.isEmpty then lit "tunnel" else r.babelType⟩

def babelFile (config : AppConfig) (rows : List IbgpRow) : FileSpec :=
  ⟨.ofStr config.birdBabelConfPath, renderBabelConf (babelInterfaces rows), .bird⟩

def regenerateBabelConf (io : FileIo) (config : AppConfig) (rows : List IbgpRow) :
    DiskTx FileSpec := do
  writeText io (babelFile config rows)
  pure (babelFile config rows)

/-! ## `genconf` -/

/-- `row["net_backend"] or "networkd"`. -/
def backendOf (netBackend : Str) : Str :=
  if netBackend.isEmpty then lit "networkd" else netBackend

/-- What `write_net_backend_files` gets from a row. -/
def rowBackendArgs (r : PeerRecordBase) (peerLla : Str) : NetBackendArgs :=
  { backend := backendOf r.netBackend, ifname := r.ifname, privateKey := r.wgPrivateKey,
    listenPort := r.listenPort, peerPublicKey := printed r.peerPublicKey,
    endpoint := orDefault r.endpoint [], allowedIps := r.allowedIps, localLla := r.localLla,
    peerLla }

def legacyNm (config : AppConfig) (ifname : Str) : PosixPath :=
  (PosixPath.ofStr config.nmSystemConnectionsDir).join (ifname ++ lit ".nmconnection")

/-- One round of the BGP loop.  A missing `peer_lla` is refused like an empty
one. -/
def genconfBgpPeer (io : FileIo) (config : AppConfig) (r : BgpRow) : DiskTx (List FileSpec) := do
  unlinkMissingOk io (legacyNm config r.ifname)
  let bird ← writeBirdBgpPeer io config r.ifname (orDefault r.peerLla []) r.peerAsn
  let tunnel ← writeNetBackendFiles io config
    (rowBackendArgs r.toPeerRecordBase (orDefault r.peerLla []))
  pure (bird ++ tunnel)

/-- The BIRD file of an iBGP row, if it has a `peer_ip`. -/
def genconfIbgpBird (io : FileIo) (config : AppConfig) (r : IbgpRow) : DiskTx (List FileSpec) := do
  let peerIp := orDefault r.peerIp []
  if peerIp.isEmpty then pure []
  else do
    let text ← Prog.lift (renderBirdIbgpPeerConf r.name r.ifname peerIp)
    let file : FileSpec :=
      ⟨(PosixPath.ofStr config.birdPeersDir).join (lit "ibgp_" ++ r.name ++ lit ".conf"), text,
        .bird⟩
    writeText io file
    pure [file]

/-- One round of the iBGP loop. -/
def genconfIbgpPeer (io : FileIo) (config : AppConfig) (r : IbgpRow) :
    DiskTx (List FileSpec) := do
  let bird ← genconfIbgpBird io config r
  if r.hasWg then do
    unlinkMissingOk io (legacyNm config r.ifname)
    let tunnel ← writeNetBackendFiles io config
      (rowBackendArgs r.toPeerRecordBase (orDefault r.peerLla []))
    pure (bird ++ tunnel)
  else pure bird

/-- Run `f` on every item and put the results together. -/
def collectTx {α β : Type} (f : α → DiskTx (List β)) : List α → DiskTx (List β)
  | [] => pure []
  | x :: xs => do
      let ys ← f x
      let zs ← collectTx f xs
      pure (ys ++ zs)

/-- The peer loops: what `genconf` does with `regenerate_peers`. -/
def genconfPeers (io : FileIo) (config : AppConfig) (bgpRows : List BgpRow)
    (ibgpRows : List IbgpRow) : DiskTx (List FileSpec) := do
  let bgp ← collectTx (genconfBgpPeer io config) bgpRows
  let ibgp ← collectTx (genconfIbgpPeer io config) ibgpRows
  pure (bgp ++ ibgp)

/-- `bird.conf` from a configuration. -/
def mainConfFile (config : AppConfig) : FileSpec :=
  ⟨.ofStr config.birdConfPath,
    renderBirdMainConf config.ownAsn config.routerId config.ownIpv6 config.ownnetV6
      config.ownnetsetV6 (.ofStr config.birdBabelConfPath) (.ofStr config.birdPeersDir)
      (.ofStr config.birdRoaV6ConfPath) (.ofStr config.birdExtraConfPath), .bird⟩

/-- A file that must not be there already. -/
def refuseExisting (path : PosixPath) (overwrite : Bool) (what : String) : DiskTx Unit := do
  let found ← Prog.read fun disk => (disk.read path).isSome
  if found ∧ ¬ overwrite then
    Prog.raise (dn42CtlError [.text (lit what), .text path.toStr])
  else pure ()

structure GenConfResult where
  birdConf : FileSpec
  babelConf : FileSpec
  generatedPeerFiles : List FileSpec

/-- A missing `extra.conf` is created; its content belongs to the operator. -/
def ensureExtraConf (io : FileIo) (config : AppConfig) : DiskTx Unit := do
  let found ← Prog.read fun disk => (disk.read (.ofStr config.birdExtraConfPath)).isSome
  if found then pure ()
  else writeText io ⟨.ofStr config.birdExtraConfPath, renderBirdExtraConfPlaceholder, .bird⟩

def dn42RoaV6Url : Str := lit "https://dn42.burble.com/roa/dn42_roa_bird2_6.conf"

/-- The table of a machine that could not download one. -/
def roaPlaceholder : Str :=
  lit "# dn42ctl: ROA v6 placeholder\n# 下载失败，请稍后手动获取: " ++ dn42RoaV6Url ++ lit "\n"

/-- The ROA table; blank content is a `ValueError`. -/
def roaContent : Download → Str
  | .content text => if (strip text).isEmpty then roaPlaceholder else text
  | .failed | .raises _ => roaPlaceholder

def roaFile (io : FileIo) (config : AppConfig) : FileSpec :=
  ⟨.ofStr config.birdRoaV6ConfPath, roaContent io.download, .bird⟩

/-- A missing ROA table is downloaded, or replaced by an empty one. -/
def ensureRoaConf (io : FileIo) (config : AppConfig) : DiskTx Unit := do
  let found ← Prog.read fun disk => (disk.read (.ofStr config.birdRoaV6ConfPath)).isSome
  if found then pure ()
  else
    match io.download with
    | .raises e => Prog.raise e
    | _ => writeText io (roaFile io config)

def ensureDummyInterface (io : FileIo) : DiskTx Unit :=
  match io.dummyRaises with
  | some e => Prog.raise e
  | none => pure ()

def regeneratedPeers (io : FileIo) (config : AppConfig) (bgpRows : List BgpRow)
    (ibgpRows : List IbgpRow) (regeneratePeers : Bool) : DiskTx (List FileSpec) :=
  if regeneratePeers then genconfPeers io config bgpRows ibgpRows else pure []

/-- `genconf`, on the rows of the machine's partition. -/
def genconf (io : FileIo) (config : AppConfig) (bgpRows : List BgpRow) (ibgpRows : List IbgpRow)
    (overwriteBirdConf overwriteBabelConf regeneratePeers : Bool) : DiskTx GenConfResult := do
  ensureDummyInterface io
  refuseExisting (mainConfFile config).path overwriteBirdConf "Bird 主配置已存在且未允许覆盖: "
  writeText io (mainConfFile config)
  ensureExtraConf io config
  refuseExisting (.ofStr config.birdBabelConfPath) overwriteBabelConf
    "babel.conf 已存在且未允许覆盖: "
  let babelConf ← regenerateBabelConf io config ibgpRows
  ensureRoaConf io config
  let generatedPeerFiles ← regeneratedPeers io config bgpRows ibgpRows regeneratePeers
  pure ⟨mainConfFile config, babelConf, generatedPeerFiles⟩

end Dn42Ctl
