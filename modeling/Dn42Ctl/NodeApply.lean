import Dn42Ctl.Config
import Dn42Ctl.Render
import Dn42Ctl.PeerPayload
import Dn42Ctl.Lib.Builtins
import Mathlib.Data.List.Sort

/-!
# NodeApply

`services/node_apply.py` with `services/reload.py` and `file_policy.py`: turn
the cached desired state into files.

The payload is whatever JSON object the cache holds, so every access to it may
raise: a missing key, a value of the wrong type, a conversion.  Exceptions
that Python raises itself are modelled by their class, without their text.
The unified diffs are left out, and so are permissions on disk: a file's
policy is part of what is written (`FileSpec`), not of what is read.  Texts and
paths can be encoded: the cached state was, when it was stored.

`ApplyEnv` is what one call finds outside itself: the TOML library, the links
of the file system, the operations that fail and what the reload commands do.
-/

namespace Dn42Ctl

open Text

/-! ## files -/

/-- Mode and group of a generated file. -/
structure FilePolicy where
  mode : Nat
  group : Option Str := none
deriving DecidableEq, Repr

namespace FilePolicy

/-- A `.netdev` holds the private key. -/
def netdev : FilePolicy := ⟨0o640, some (lit "systemd-network")⟩

def network : FilePolicy := ⟨0o644, none⟩

def bird : FilePolicy := ⟨0o644, none⟩

def priv : FilePolicy := ⟨0o600, none⟩

end FilePolicy

/-- A file to write. -/
structure FileSpec where
  path : PosixPath
  content : Str
  policy : FilePolicy
deriving DecidableEq, Repr

structure ResolvedPaths where
  birdPeersDir : PosixPath
  babelConfPath : PosixPath
  networkdDir : PosixPath
  nmDir : PosixPath
  birdConfPath : PosixPath
  birdExtraConfPath : PosixPath
  configPath : PosixPath
deriving DecidableEq, Repr

/-- The machine's own `config.toml` decides where it writes, else the built-in
defaults do. -/
def resolvePaths (appConfig : Option AppConfig) (configPath : PosixPath) : ResolvedPaths :=
  match appConfig with
  | some config =>
      { birdPeersDir := .ofStr config.birdPeersDir
        babelConfPath := .ofStr config.birdBabelConfPath
        networkdDir := .ofStr config.networkdDir
        nmDir := .ofStr config.nmSystemConnectionsDir
        birdConfPath := .ofStr config.birdConfPath
        birdExtraConfPath := .ofStr config.birdExtraConfPath
        configPath }
  | none =>
      { birdPeersDir := .ofStr (lit "/etc/bird/peers")
        babelConfPath := .ofStr (lit "/etc/bird/babel.conf")
        networkdDir := .ofStr (lit "/etc/systemd/network")
        nmDir := .ofStr (lit "/etc/NetworkManager/system-connections")
        birdConfPath := .ofStr (lit "/etc/bird.conf")
        birdExtraConfPath := .ofStr (lit "/etc/bird/extra.conf")
        configPath }

/-! ## reading the payload -/

/-- An exception raised by the language itself. -/
def pyError (cls : ErrorClass) : PyError := ⟨cls, []⟩

/-- `x[key]`: an object without the key raises `KeyError`, any other value
`TypeError`. -/
def subscript (x : Json) (key : String) : Except PyError Json :=
  match x with
  | .dict kvs =>
      match Json.lookup (lit key) kvs with
      | some v => pure v
      | none => throw (pyError .keyError)
  | _ => throw (pyError .typeError)

/-- `x.get(key)`; only an object has the method. -/
def getAttr (x : Json) (key : String) : Except PyError Json :=
  match x with
  | .dict kvs => pure (Json.getD (lit key) kvs .null)
  | _ => throw (pyError .attributeError)

/-- `int(x)`. -/
def pyInt (x : Json) : Except PyError Int :=
  match Builtins.int x with
  | .ok n => pure n
  | .error .type => throw (pyError .typeError)
  | .error .value => throw (pyError .valueError)
  | .error .overflow => throw (pyError .overflowError)

/-- The values of `for _ in x`. -/
def pyIter (x : Json) : Except PyError (List Json) :=
  match Builtins.iterate x with
  | some xs => pure xs
  | none => throw (pyError .typeError)

section Render

variable (display : Json → Str)

/-- `x or ""`, printed. -/
def textOr (x : Json) : Str := if x.truthy then Builtins.str display x else []

/-! ## peers -/

/-- The `.netdev` and `.network` of a peer; both kinds read the same fields of
it, but `.network` gets its `peer_lla` in two ways. -/
def renderTunnelFiles (peer : Json) (paths : ResolvedPaths) (ifname : Str)
    (peerLla : Except PyError Str) : Except PyError (List FileSpec) := do
  let privateKey ← subscript peer "wg_private_key"
  let portValue ← subscript peer "listen_port"
  let listenPort ← pyInt portValue
  let peerPublicKey ← subscript peer "peer_public_key"
  let endpoint ← getAttr peer "endpoint"
  let allowedValue ← subscript peer "allowed_ips"
  let allowedIps ← pyIter allowedValue
  let localLla ← subscript peer "local_lla"
  let peerLla ← peerLla
  pure
    [⟨paths.networkdDir.join (ifname ++ lit ".netdev"),
      renderNetworkdNetdev ifname (Builtins.str display privateKey) listenPort
        (Builtins.str display peerPublicKey) (textOr display endpoint)
        (allowedIps.map (Builtins.str display)),
      .netdev⟩,
     ⟨paths.networkdDir.join (ifname ++ lit ".network"),
      renderNetworkdNetwork ifname (Builtins.str display localLla) peerLla,
      .network⟩]

/-- `_render_bgp_peer_files`. -/
def renderBgpPeerFiles (peer : Json) (paths : ResolvedPaths) : Except PyError (List FileSpec) := do
  let ifnameValue ← subscript peer "ifname"
  let ifname := Builtins.str display ifnameValue
  let peerLla ← subscript peer "peer_lla"
  let asnValue ← subscript peer "peer_asn"
  let peerAsn ← pyInt asnValue
  let bird ← renderBirdBgpPeerConf ifname (textOr display peerLla) peerAsn
  let tunnel ← renderTunnelFiles display peer paths ifname (.ok (Builtins.str display peerLla))
  pure (⟨paths.birdPeersDir.join (ifname ++ lit ".conf"), bird, .bird⟩ :: tunnel)

/-- The BIRD file of an iBGP peer, which is left out when `peer_ip` is empty. -/
def renderIbgpBird (peer : Json) (paths : ResolvedPaths) (name ifname : Str) :
    Except PyError (List FileSpec) := do
  let peerIp ← getAttr peer "peer_ip"
  if peerIp.truthy then
    let bird ← renderBirdIbgpPeerConf name ifname (textOr display peerIp)
    pure [⟨paths.birdPeersDir.join (lit "ibgp_" ++ name ++ lit ".conf"), bird, .bird⟩]
  else pure []

/-- `_render_ibgp_peer_files`. -/
def renderIbgpPeerFiles (peer : Json) (paths : ResolvedPaths) :
    Except PyError (List FileSpec) := do
  let nameValue ← subscript peer "name"
  let name := Builtins.str display nameValue
  let ifnameValue ← subscript peer "ifname"
  let ifname := Builtins.str display ifnameValue
  let bird ← renderIbgpBird display peer paths name ifname
  let hasWg ← subscript peer "has_wg"
  if hasWg.truthy then
    let tunnel ← renderTunnelFiles display peer paths ifname
      ((getAttr peer "peer_lla").map (textOr display))
    pure (bird ++ tunnel)
  else pure bird

/-- The entry of an iBGP peer in `babel.conf`. -/
def babelInterface (peer : Json) : Except PyError (List BabelInterface) := do
  let hasWg ← subscript peer "has_wg"
  if hasWg.truthy then
    let ifname ← subscript peer "ifname"
    let costValue ← subscript peer "babel_rxcost"
    let rxcost ← pyInt costValue
    let babelType ← subscript peer "babel_type"
    pure [⟨Builtins.str display ifname, rxcost, Builtins.str display babelType⟩]
  else pure []

/-- Run `f` on every item and put the results together. -/
def collect {α β : Type} (f : α → Except PyError (List β)) : List α → Except PyError (List β)
  | [] => pure []
  | x :: xs => do
      let ys ← f x
      let zs ← collect f xs
      pure (ys ++ zs)

/-- `payload.get(key, [])`, iterated. -/
def payloadPeers (payload : JsonObject) (key : String) : Except PyError (List Json) :=
  pyIter (Json.getD (lit key) payload (.list []))

/-- `_render_babel`. -/
def renderBabel (payload : JsonObject) (paths : ResolvedPaths) : Except PyError FileSpec := do
  let peers ← payloadPeers payload "ibgp_peers"
  let interfaces ← collect (babelInterface display) peers
  pure ⟨paths.babelConfPath, renderBabelConf interfaces, .bird⟩

/-! ## the node block -/

/-- The fields of the node block that are to replace the configured ones. -/
def nodeUpdates (block : Json) (config : AppConfig) : Except PyError AppConfig := do
  let ownIpv6 ← getAttr block "own_ipv6"
  let routerId ← getAttr block "router_id"
  pure { config with
    ownIpv6 := if ownIpv6.truthy then Builtins.str display ownIpv6 else config.ownIpv6
    routerId := if routerId.truthy then Builtins.str display routerId else config.routerId }

/-- Some field of the node block is to be applied. -/
def hasUpdates (block : Json) : Except PyError Bool := do
  let ownIpv6 ← getAttr block "own_ipv6"
  let routerId ← getAttr block "router_id"
  pure (ownIpv6.truthy || routerId.truthy)

/-- `bird.conf` from a configuration, with the files it includes at the
resolved paths. -/
def mainConf (config : AppConfig) (paths : ResolvedPaths) : Str :=
  renderBirdMainConf config.ownAsn config.routerId config.ownIpv6 config.ownnetV6
    config.ownnetsetV6 paths.babelConfPath paths.birdPeersDir
    (.ofStr config.birdRoaV6ConfPath) paths.birdExtraConfPath

def dummyIfname : Str := lit "dn42-dummy"

/-- The files of the node block and the warnings, once the fields are merged. -/
def nodeFiles (toml : TomlLib) (config merged : AppConfig) (paths : ResolvedPaths)
    (extraExists : Bool) : List FileSpec × List Msg :=
  let base :=
    (if merged = config then [] else [⟨paths.configPath, dumpsConfig toml merged, .priv⟩]) ++
    [⟨paths.birdConfPath, mainConf merged paths, .bird⟩] ++
    (if extraExists then []
     else [⟨paths.birdExtraConfPath, renderBirdExtraConfPlaceholder, .bird⟩])
  if merged.dummyBackend = lit "networkd" then
    (base ++
      [⟨paths.networkdDir.join (dummyIfname ++ lit ".netdev"), renderDummyNetdev, .netdev⟩,
       ⟨paths.networkdDir.join (dummyIfname ++ lit ".network"),
        renderDummyNetwork merged.ownIpv6, .network⟩], [])
  else
    (base, [[.text (lit "dummy_backend="), .text merged.dummyBackend,
      .text (lit ",dn42-dummy 由 NetworkManager 管理,"),
      .text (lit "本次未更新其地址;请在该节点上运行 dn42ctl genconf 使新 own_ipv6 生效")]])

/-- `_render_node_config_files`. -/
def renderNodeConfigFiles (toml : TomlLib) (block : Json) (paths : ResolvedPaths)
    (appConfig : Option AppConfig) (extraExists : Bool) :
    Except PyError (List FileSpec × List Msg) :=
  match appConfig with
  | none =>
      pure ([], [[.text (lit "中心下发了节点地址,但本机 config.toml 不可用,"),
        .text (lit "已跳过 config.toml/bird.conf/dummy")]])
  | some config => do
      let any ← hasUpdates block
      if any then
        let merged ← nodeUpdates display block config
        pure (nodeFiles toml config merged paths extraExists)
      else pure ([], [])

/-- The files of the payload's `node` block, if it has one. -/
def renderNodeBlock (toml : TomlLib) (payload : JsonObject) (paths : ResolvedPaths)
    (appConfig : Option AppConfig) (extraExists : Bool) :
    Except PyError (List FileSpec × List Msg) :=
  let block := Json.getD (lit "node") payload .null
  if block.truthy then renderNodeConfigFiles display toml block paths appConfig extraExists
  else pure ([], [])

/-- Everything `apply` writes for a payload. -/
def renderDesired (toml : TomlLib) (payload : JsonObject) (paths : ResolvedPaths)
    (appConfig : Option AppConfig) (extraExists : Bool) :
    Except PyError (List FileSpec × List Msg) := do
  let bgpPeers ← payloadPeers payload "bgp_peers"
  let bgpFiles ← collect (fun peer => renderBgpPeerFiles display peer paths) bgpPeers
  let ibgpPeers ← payloadPeers payload "ibgp_peers"
  let ibgpFiles ← collect (fun peer => renderIbgpPeerFiles display peer paths) ibgpPeers
  let babel ← renderBabel display payload paths
  let node ← renderNodeBlock display toml payload paths appConfig extraExists
  pure (bgpFiles ++ ibgpFiles ++ [babel] ++ node.1, node.2)

end Render

/-! ## stale files -/

/-- `_managed_paths`: which names in each directory belong to the tool. -/
def managedPaths (paths : ResolvedPaths) : List (PosixPath × List (Str × Str)) :=
  [(paths.birdPeersDir, [(lit "dn42_", lit ".conf"), (lit "ibgp_", lit ".conf")]),
   (paths.networkdDir,
     [(lit "dn42_", lit ".netdev"), (lit "dn42_", lit ".network"),
      (lit "wg_", lit ".netdev"), (lit "wg_", lit ".network")]),
   (paths.nmDir, [(lit "dn42_", lit ".nmconnection"), (lit "wg_", lit ".nmconnection")])]

/-- `_is_managed`. -/
def isManaged (name : Str) (patterns : List (Str × Str)) : Bool :=
  patterns.any fun pattern => startsWith name pattern.1 && endsWith name pattern.2

/-- The managed files of a directory that are not expected. -/
def staleIn (expected : List PosixPath) (disk : Disk) (m : PosixPath × List (Str × Str)) :
    List PosixPath :=
  (disk.iterdir m.1).filter fun p => isManaged p.name m.2 && !expected.contains p

/-- The loop of `_collect_stale`; `i` counts the directories.  No directory whose
path has a NUL can be listed. -/
def collectStaleFrom (fails : Nat → Bool) (expected : List PosixPath) (disk : Disk) (i : Nat) :
    List (PosixPath × List (Str × Str)) → Except PyError (List PosixPath)
  | [] => pure []
  | m :: ms =>
      if fails i then throw (pyError .osError)
      else if m.1.hasNul then throw (pyError .valueError)
      else do
        let rest ← collectStaleFrom fails expected disk (i + 1) ms
        pure (staleIn expected disk m ++ rest)

/-- `_collect_stale`. -/
def collectStale (fails : Nat → Bool) (expected : List PosixPath) (paths : ResolvedPaths)
    (disk : Disk) : Except PyError (List PosixPath) :=
  collectStaleFrom fails expected disk 0 (managedPaths paths)

/-! ## differences -/

inductive ApplyAction where
  | create
  | update
  | unchanged
  | delete
deriving DecidableEq, Repr

structure ApplyDiff where
  path : PosixPath
  action : ApplyAction
deriving DecidableEq, Repr

/-- `_diff`.  A file that is not UTF-8 raises `UnicodeDecodeError`, which is a
`ValueError`. -/
def diffOf (disk : Disk) (file : FileSpec) : Except PyError ApplyDiff :=
  match disk.read file.path with
  | none => pure ⟨file.path, .create⟩
  | some old =>
      match old.readText with
      | none => throw (pyError .valueError)
      | some text =>
          if text = file.content then pure ⟨file.path, .unchanged⟩
          else pure ⟨file.path, .update⟩

/-! ## reloads -/

inductive ReloadCommand where
  | networkctlReload
  | birdcConfigure
deriving DecidableEq, Repr

def ReloadCommand.text : ReloadCommand → Str
  | .networkctlReload => lit "networkctl reload"
  | .birdcConfigure => lit "birdc configure"

/-- A command that was run, and how it failed if it did. -/
structure ReloadAction where
  cmd : ReloadCommand
  error : Option Str
deriving DecidableEq, Repr

def ReloadAction.ok (a : ReloadAction) : Bool := a.error.isNone

/-- `ReloadResult.warnings`. -/
def reloadWarnings (actions : List ReloadAction) : List Msg :=
  actions.filterMap fun a =>
    a.error.map fun e => [.text a.cmd.text, .text (lit " 失败: "), .text e]

/-- `_under`: by where the two really are, or by their spelling where an `OSError`
keeps that from being known. -/
def under (resolve : PosixPath → Except PyError PosixPath) (path directory : PosixPath) :
    Except PyError Bool :=
  let really := do
    let p ← resolve path
    let d ← resolve directory
    pure (p.parent == d)
  match really with
  | .ok found => pure found
  | .error e => if e.cls = .osError then pure (path.parent == directory) else throw e

/-- `bird_targets`. -/
def birdTargets (resolve : PosixPath → Except PyError PosixPath) (birdFiles : List PosixPath) :
    Except PyError (List PosixPath) :=
  birdFiles.mapM fun f => if f.isAbsolute then resolve f else pure f

/-- `plan_reloads`: which commands the touched paths call for. -/
def planReloads (resolve : PosixPath → Except PyError PosixPath) (touched : List PosixPath)
    (networkdDir birdPeersDir : PosixPath) (birdFiles : List PosixPath) :
    Except PyError (List ReloadCommand) := do
  let networkctl ← touched.anyM fun p => under resolve p networkdDir
  let targets ← birdTargets resolve birdFiles
  let birdc ← touched.anyM fun p => do
    let below ← under resolve p birdPeersDir
    pure (below || targets.contains p)
  pure ((if networkctl then [.networkctlReload] else []) ++
    (if birdc then [.birdcConfigure] else []))

/-- `run_reloads`: the commands one after the other. -/
def runReloads (runner : ReloadCommand → Except PyError (Option Str)) :
    List ReloadCommand → Except PyError (List ReloadAction)
  | [] => pure []
  | cmd :: cmds => do
      let error ← runner cmd
      let actions ← runReloads runner cmds
      pure (⟨cmd, error⟩ :: actions)

/-! ## one call -/

/-- How the write of a file ends. -/
inductive WriteOutcome where
  | done
  /-- It raises, and the file is what it was. -/
  | refused
  /-- It raises after `_write_in_place` has replaced the content. -/
  | torn (left : Content)
deriving DecidableEq, Repr

/-- What one call finds outside itself. -/
structure ApplyEnv where
  toml : TomlLib
  /-- What `str()` prints of a list or an object. -/
  display : Json → Str
  /-- `PosixPath.resolve`. -/
  resolve : PosixPath → Except PyError PosixPath
  /-- Listing the n-th managed directory raises an `OSError`, or what is asked of
  the file system just before it. -/
  listFails : Nat → Bool
  /-- The n-th `_diff` raises an `OSError`. -/
  diffFails : Nat → Bool
  /-- How the n-th write ends. -/
  writes : Nat → WriteOutcome
  /-- `ensure_policy` raises an `OSError`. -/
  policyFails : Bool
  /-- The n-th `unlink` raises an `OSError`. -/
  unlinkFails : Nat → Bool
  /-- The runner: how a reload command fails, if it does.  Output that is not
  UTF-8 makes it raise. -/
  runner : ReloadCommand → Except PyError (Option Str)

inductive ReloadPolicy where
  | auto
  | never
deriving DecidableEq, Repr

/-- The cached desired state. -/
structure PullResult where
  revision : Str
  payload : JsonObject
deriving Repr

structure ApplyResult where
  revision : Str
  diffs : List ApplyDiff
  written : List PosixPath := []
  deleted : List PosixPath := []
  dryRun : Bool := false
  warnings : List Msg := []
  reloads : List ReloadAction := []
deriving Repr

/-- A program on the files of a machine. -/
abbrev DiskTx (α : Type) := Prog Disk PyError α

/-- `_atomic_write`. -/
def atomicWrite (outcome : WriteOutcome) (file : FileSpec) : DiskTx Unit :=
  match outcome with
  | .refused => Prog.raise (pyError .osError)
  | .torn left =>
      Prog.write (Disk.write file.path left) >>= fun _ => Prog.raise (pyError .osError)
  | .done =>
      if file.path.hasNul then Prog.raise (pyError .valueError)
      else Prog.write (Disk.write file.path (.text file.content))

/-- Write the files in order; `i` counts the writes. -/
def writeFiles (outcome : Nat → WriteOutcome) (i : Nat) : List FileSpec → DiskTx (List PosixPath)
  | [] => pure []
  | file :: files => do
      atomicWrite (outcome i) file
      let written ← writeFiles outcome (i + 1) files
      pure (file.path :: written)

/-- `ensure_policy(paths.bird_extra_conf_path, BIRD)`, which changes permissions
only. -/
def ensurePolicy (fails : Bool) : DiskTx Unit :=
  if fails then Prog.raise (pyError .osError) else pure ()

/-- `s.unlink()`; a file that is already gone is passed over. -/
def unlinkStale (fails : Bool) (p : PosixPath) : DiskTx (List PosixPath) := do
  if fails then Prog.raise (pyError .osError)
  else do
    let found ← Prog.read fun disk => (disk.read p).isSome
    if found then Prog.write (Disk.unlink p) >>= fun _ => pure [p] else pure []

/-- Delete the stale files in order; `i` counts the calls. -/
def unlinkFiles (fails : Nat → Bool) (i : Nat) : List PosixPath → DiskTx (List PosixPath)
  | [] => pure []
  | p :: ps => do
      let head ← unlinkStale (fails i) p
      let tail ← unlinkFiles fails (i + 1) ps
      pure (head ++ tail)

/-- The differences of all files, the `_diff`s made in order. -/
def diffAll (fails : Nat → Bool) (disk : Disk) (i : Nat) :
    List FileSpec → Except PyError (List ApplyDiff)
  | [] => pure []
  | file :: files =>
      if fails i then throw (pyError .osError)
      else do
        let d ← diffOf disk file
        let ds ← diffAll fails disk (i + 1) files
        pure (d :: ds)

/-- The machine's configuration, if `config.toml` can be loaded. -/
def localConfig (toml : TomlLib) (configPath : PosixPath) (disk : Disk) : Option AppConfig :=
  (loadConfig toml configPath (disk.read configPath)).toOption

/-- What a call renders on a disk. -/
def rendered (env : ApplyEnv) (payload : JsonObject) (configPath : PosixPath) (disk : Disk) :
    Except PyError (List FileSpec × List Msg) :=
  let appConfig := localConfig env.toml configPath disk
  let paths := resolvePaths appConfig configPath
  renderDesired env.display env.toml payload paths appConfig
    (disk.read paths.birdExtraConfPath).isSome

/-- What a call is going to do, computed before it writes anything. -/
structure ApplyPlan where
  paths : ResolvedPaths
  files : List FileSpec
  warnings : List Msg
  stale : List PosixPath
  diffs : List ApplyDiff
deriving Repr

/-- The first half of `apply`. -/
def planApply (env : ApplyEnv) (payload : JsonObject) (configPath : PosixPath) (disk : Disk) :
    Except PyError ApplyPlan := do
  let paths := resolvePaths (localConfig env.toml configPath disk) configPath
  let r ← rendered env payload configPath disk
  let stale ← collectStale env.listFails (r.1.map FileSpec.path) paths disk
  let diffs ← diffAll env.diffFails disk 0 r.1
  pure ⟨paths, r.1, r.2, stale, diffs ++ stale.map fun p => ⟨p, .delete⟩⟩

/-- The paths whose content a call changes. -/
def changedPaths (diffs : List ApplyDiff) : List PosixPath :=
  (diffs.filter fun d => d.action == .create || d.action == .update).map ApplyDiff.path

/-- `sorted(changed_actions | set(deleted))`. -/
def touchedPaths (diffs : List ApplyDiff) (deleted : List PosixPath) : List PosixPath :=
  (changedPaths diffs ++ deleted).dedup.insertionSort fun p q => p.sortKey ≤ q.sortKey

/-- `run_reloads(plan_reloads(…))`. -/
def reload (env : ApplyEnv) (paths : ResolvedPaths) (touched : List PosixPath) :
    Except PyError (List ReloadAction) := do
  let cmds ← planReloads env.resolve touched paths.networkdDir paths.birdPeersDir
    [paths.babelConfPath, paths.birdConfPath, paths.birdExtraConfPath]
  runReloads env.runner cmds

/-- The reload step, which `no_reload` and the policy `never` leave out. -/
def reloadStep (env : ApplyEnv) (paths : ResolvedPaths) (noReload : Bool)
    (reloadPolicy : ReloadPolicy) (touched : List PosixPath) :
    Except PyError (List ReloadAction) :=
  if noReload ∨ reloadPolicy = .never then pure [] else reload env paths touched

/-- The second half of `apply`: write, delete, reload. -/
def execute (env : ApplyEnv) (plan : ApplyPlan) (revision : Str) (noReload : Bool)
    (reloadPolicy : ReloadPolicy) : DiskTx ApplyResult := do
  let written ← writeFiles env.writes 0 plan.files
  ensurePolicy env.policyFails
  let deleted ← unlinkFiles env.unlinkFails 0 plan.stale
  let reloads ← Prog.lift
    (reloadStep env plan.paths noReload reloadPolicy (touchedPaths plan.diffs deleted))
  pure
    { revision, diffs := plan.diffs, written, deleted,
      warnings := plan.warnings ++ reloadWarnings reloads, reloads }

/-- `apply`. -/
def apply (env : ApplyEnv) (cached : Option PullResult) (configPath : PosixPath)
    (dryRun : Bool := false) (noReload : Bool := false) (reloadPolicy : ReloadPolicy := .auto) :
    DiskTx ApplyResult :=
  match cached with
  | none => Prog.raise (dn42CtlError [.text (lit "本地缓存为空,先运行 dn42ctl node pull")])
  | some c => do
      let disk ← Prog.read id
      let plan ← Prog.lift (planApply env c.payload configPath disk)
      if dryRun then
        pure { revision := c.revision, diffs := plan.diffs, dryRun := true,
               warnings := plan.warnings }
      else execute env plan c.revision noReload reloadPolicy

end Dn42Ctl
