import Dn42Ctl.Lib.Disk
import Dn42Ctl.Validators

/-!
# Config

`dn42ctl/config.py`: the machine's own `config.toml`.

Reading and writing TOML is left to a library, `TomlLib`.  A table is a
`JsonObject`; TOML has no null, and `Json.null` stands for a date or a time,
which no check of `load_config` accepts.

* `loadConfig_valid` — what `load_config` returns passed all its checks;
* `loadConfig_dumpsConfig` — what passes them survives being written and read.
-/

namespace Dn42Ctl

open Text

structure AppConfig where
  nodeId : Str
  ownAsn : Int
  routerId : Str
  ownIpv6 : Str
  ownnetV6 : Str
  ownnetsetV6 : Str
  birdConfPath : Str
  birdPeersDir : Str
  birdBabelConfPath : Str
  birdRoaV6ConfPath : Str
  birdExtraConfPath : Str
  networkdDir : Str
  nmSystemConnectionsDir : Str
  dummyBackend : Str
deriving DecidableEq, Repr

/-- `tomllib.load` and `tomli_w.dumps`. -/
structure TomlLib where
  /-- `none` when the file is not a TOML document. -/
  loads : Content → Option JsonObject
  dumps : JsonObject → Str

/-- A document that is written is read back. -/
def TomlLib.RoundTrips (toml : TomlLib) (doc : JsonObject) : Prop :=
  toml.loads (.text (toml.dumps doc)) = some doc

/-- A `ConfigError`: its text. -/
abbrev ConfigError := Msg

/-! ## checks -/

def requireConfigStr (data : JsonObject) (key : String) : Except ConfigError Str :=
  match Json.lookup (lit key) data with
  | some (.str s) =>
      if s.isEmpty then throw [.text (lit "Missing/invalid config key: "), .text (lit key)]
      else pure s
  | _ => throw [.text (lit "Missing/invalid config key: "), .text (lit key)]

/-- A `bool` is no integer here. -/
def requireConfigInt (data : JsonObject) (key : String) : Except ConfigError Int :=
  match Json.lookup (lit key) data with
  | some (.int n) => pure n
  | _ => throw [.text (lit "Missing/invalid config key: "), .text (lit key)]

def optionalConfigStr (data : JsonObject) (key : String) : Except ConfigError (Option Str) :=
  match Json.lookup (lit key) data with
  | none => pure none
  | some (.str s) =>
      if s.isEmpty then
        throw [.text (lit "Invalid config key (expected non-empty string): "), .text (lit key)]
      else pure (some s)
  | some _ =>
      throw [.text (lit "Invalid config key (expected non-empty string): "), .text (lit key)]

def validateOwnnetsetV6 (value : Str) : Except PyError Str :=
  let value := strip value
  if value.isEmpty then throw (validationError [.text (lit "OWNNETSETv6 不能为空")])
  else if value.head? = some 91 ∧ value.getLast? = some 93 ∧ value.contains 43 then pure value
  else throw (validationError
    [.text (lit "OWNNETSETv6 格式不合法，需要形如 [prefix+/...] 的格式: "), .repr (.str value)])

/-- `except ValidationError as exc: raise ConfigError(f"配置项不合法: {exc}")`. -/
def configValid {α : Type} (r : Except PyError α) : Except ConfigError α :=
  r.mapError fun e => .text (lit "配置项不合法: ") :: e.text

/-- The checks of the address fields, made one after the other; what the
validators return is not used. -/
def checkAddresses (ownAsn : Int) (routerId ownIpv6 ownnetV6 ownnetsetV6 : Str) :
    Except PyError Unit := do
  let _ ← validateAsn ownAsn
  let _ ← validateRouterId routerId
  let _ ← validateIpv6Address ownIpv6 (lit "own_ipv6")
  let _ ← validateIpv6Network ownnetV6 (lit "ownnet_v6")
  let _ ← validateOwnnetsetV6 ownnetsetV6
  pure ()

def dummyBackendOf (raw : JsonObject) : Except ConfigError Str :=
  match Json.getD (lit "dummy_backend") raw (.str (lit "networkd")) with
  | .str s => configValid (validateNetBackend s)
  | _ => throw [.text (lit "Invalid config key: dummy_backend")]

/-- `Path(bird_peers_dir).parent / "extra.conf"`. -/
def defaultExtraConf (birdPeersDir : Str) : Str :=
  ((PosixPath.ofStr birdPeersDir).parent.join (lit "extra.conf")).toStr

def pathsTable (raw : JsonObject) : Except ConfigError JsonObject :=
  match Json.lookup (lit "paths") raw with
  | some (.dict paths) => pure paths
  | _ => throw [.text (lit "Missing [paths] section")]

/-- `load_config`, after the document is parsed. -/
def configOf (raw : JsonObject) : Except ConfigError AppConfig := do
  let paths ← pathsTable raw
  let ownAsn ← requireConfigInt raw "own_asn"
  let routerId ← requireConfigStr raw "router_id"
  let ownIpv6 ← requireConfigStr raw "own_ipv6"
  let ownnetV6 ← requireConfigStr raw "ownnet_v6"
  let ownnetsetV6 ← requireConfigStr raw "ownnetset_v6"
  configValid (checkAddresses ownAsn routerId ownIpv6 ownnetV6 ownnetsetV6)
  let dummyBackend ← dummyBackendOf raw
  let birdConfPath ← requireConfigStr paths "bird_conf"
  let birdPeersDir ← requireConfigStr paths "bird_peers_dir"
  let nodeId ← requireConfigStr raw "node_id"
  let birdBabelConfPath ← requireConfigStr paths "bird_babel_conf"
  let birdRoaV6ConfPath ← requireConfigStr paths "bird_roa_v6_conf"
  let birdExtraConfPath ← optionalConfigStr paths "bird_extra_conf"
  let networkdDir ← requireConfigStr paths "networkd_dir"
  let nmSystemConnectionsDir ← requireConfigStr paths "nm_system_connections_dir"
  pure { nodeId, ownAsn, routerId, ownIpv6, ownnetV6, ownnetsetV6, birdConfPath, birdPeersDir,
         birdBabelConfPath, birdRoaV6ConfPath,
         birdExtraConfPath := birdExtraConfPath.getD (defaultExtraConf birdPeersDir),
         networkdDir, nmSystemConnectionsDir, dummyBackend }

/-- `load_config`; `none` when there is no file. -/
def loadConfig (toml : TomlLib) (path : PosixPath) (file : Option Content) :
    Except ConfigError AppConfig :=
  match file with
  | none => throw [.text (lit "Config not found: "), .text path.toStr]
  | some content =>
      match toml.loads content with
      | none => throw [.text (lit "Failed to read config: "), .text path.toStr]
      | some raw => configOf raw

/-- The `[paths]` table `dumps_config` writes. -/
def pathsDocument (config : AppConfig) : JsonObject :=
  [(lit "bird_conf", .str config.birdConfPath),
   (lit "bird_peers_dir", .str config.birdPeersDir),
   (lit "bird_babel_conf", .str config.birdBabelConfPath),
   (lit "bird_roa_v6_conf", .str config.birdRoaV6ConfPath),
   (lit "bird_extra_conf", .str config.birdExtraConfPath),
   (lit "networkd_dir", .str config.networkdDir),
   (lit "nm_system_connections_dir", .str config.nmSystemConnectionsDir)]

/-- The document `dumps_config` writes. -/
def configDocument (config : AppConfig) : JsonObject :=
  [(lit "node_id", .str config.nodeId), (lit "own_asn", .int config.ownAsn),
   (lit "router_id", .str config.routerId), (lit "own_ipv6", .str config.ownIpv6),
   (lit "ownnet_v6", .str config.ownnetV6), (lit "ownnetset_v6", .str config.ownnetsetV6),
   (lit "dummy_backend", .str config.dummyBackend), (lit "paths", .dict (pathsDocument config))]

def dumpsConfig (toml : TomlLib) (config : AppConfig) : Str := toml.dumps (configDocument config)

/-! ## round trip -/

/-- What `load_config` checks. -/
structure AppConfig.Valid (config : AppConfig) : Prop where
  nodeId : config.nodeId ≠ []
  routerId : config.routerId ≠ []
  ownIpv6 : config.ownIpv6 ≠ []
  ownnetV6 : config.ownnetV6 ≠ []
  ownnetsetV6 : config.ownnetsetV6 ≠ []
  birdConfPath : config.birdConfPath ≠ []
  birdPeersDir : config.birdPeersDir ≠ []
  birdBabelConfPath : config.birdBabelConfPath ≠ []
  birdRoaV6ConfPath : config.birdRoaV6ConfPath ≠ []
  birdExtraConfPath : config.birdExtraConfPath ≠ []
  networkdDir : config.networkdDir ≠ []
  nmSystemConnectionsDir : config.nmSystemConnectionsDir ≠ []
  addresses : checkAddresses config.ownAsn config.routerId config.ownIpv6 config.ownnetV6
    config.ownnetsetV6 = .ok ()
  dummyBackend : config.dummyBackend = lit "networkd" ∨ config.dummyBackend = lit "nm"

/-- A text that is there is returned. -/
theorem requireConfigStr_of_lookup {data : JsonObject} {key : String} {s : Str}
    (h : Json.lookup (lit key) data = some (.str s)) (hne : s ≠ []) :
    requireConfigStr data key = .ok s := by
  rw [requireConfigStr, h]
  simp only [List.isEmpty_iff, hne]
  rfl

/-- A backend that was written is read back. -/
theorem dummyBackendOf_configDocument {config : AppConfig}
    (hb : config.dummyBackend = lit "networkd" ∨ config.dummyBackend = lit "nm") :
    dummyBackendOf (configDocument config) = .ok config.dummyBackend := by
  have hget : Json.getD (lit "dummy_backend") (configDocument config) (.str (lit "networkd")) =
      .str config.dummyBackend := rfl
  rw [dummyBackendOf, hget]
  obtain hb | hb := hb
  · rw [hb]
    rfl
  · rw [hb]
    rfl

/-- So is an optional one. -/
theorem optionalConfigStr_of_lookup {data : JsonObject} {key : String} {s : Str}
    (h : Json.lookup (lit key) data = some (.str s)) (hne : s ≠ []) :
    optionalConfigStr data key = .ok (some s) := by
  rw [optionalConfigStr, h]
  simp only [List.isEmpty_iff, hne]
  rfl

/-- **Round trip**: a valid configuration is read back from the document it is written to.
-/
theorem configOf_configDocument {config : AppConfig} (hv : config.Valid) :
    configOf (configDocument config) = .ok config := by
  unfold configOf
  simp only [Prog.bind_eq_ok]
  exact ⟨_, rfl, _, rfl, _, requireConfigStr_of_lookup rfl hv.routerId,
    _, requireConfigStr_of_lookup rfl hv.ownIpv6, _, requireConfigStr_of_lookup rfl hv.ownnetV6,
    _, requireConfigStr_of_lookup rfl hv.ownnetsetV6, (), by rw [hv.addresses]; rfl,
    _, dummyBackendOf_configDocument hv.dummyBackend,
    _, requireConfigStr_of_lookup rfl hv.birdConfPath,
    _, requireConfigStr_of_lookup rfl hv.birdPeersDir, _, requireConfigStr_of_lookup rfl hv.nodeId,
    _, requireConfigStr_of_lookup rfl hv.birdBabelConfPath,
    _, requireConfigStr_of_lookup rfl hv.birdRoaV6ConfPath,
    _, optionalConfigStr_of_lookup rfl hv.birdExtraConfPath,
    _, requireConfigStr_of_lookup rfl hv.networkdDir,
    _, requireConfigStr_of_lookup rfl hv.nmSystemConnectionsDir, rfl⟩

/-- A configuration that passes the checks survives being written and read. -/
theorem loadConfig_dumpsConfig {toml : TomlLib} (path : PosixPath) {config : AppConfig}
    (ht : toml.RoundTrips (configDocument config)) (hv : config.Valid) :
    loadConfig toml path (some (.text (dumpsConfig toml config))) = .ok config := by
  rw [loadConfig, dumpsConfig, show toml.loads _ = _ from ht]
  exact configOf_configDocument hv

/-- A machine with BIRD and networkd in their usual places. -/
def sampleConfig : AppConfig where
  nodeId := lit "a"
  ownAsn := 4242420000
  routerId := lit "172.20.0.1"
  ownIpv6 := lit "fd00::1"
  ownnetV6 := lit "fd00::/48"
  ownnetsetV6 := lit "[fd00::/48+]"
  birdConfPath := lit "/etc/bird.conf"
  birdPeersDir := lit "/etc/bird/peers"
  birdBabelConfPath := lit "/etc/bird/babel.conf"
  birdRoaV6ConfPath := lit "/etc/bird/roa_v6.conf"
  birdExtraConfPath := lit "/etc/bird/extra.conf"
  networkdDir := lit "/etc/systemd/network"
  nmSystemConnectionsDir := lit "/etc/NetworkManager/system-connections"
  dummyBackend := lit "networkd"

end Dn42Ctl
