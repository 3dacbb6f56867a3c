import Dn42Ctl.NodeConfig
import Dn42Ctl.NodeAdmin
import Dn42Ctl.PeerFiles

/-!
# SelfRegistration

`run_self_registration` of `serve_bootstrap.py` and `rotate_token` of
`services/node_admin.py`: the hub's credential as its own node.

The credential is in three places: the id in the file `self_node_id`, the hash
of the token in the node's row, and both the id and the token in `node.toml`.
-/

namespace Dn42Ctl

open Text Txn

/-! ## what the calls are given -/

/-- A text of ASCII characters. -/
def IsAscii (s : Str) : Prop := ∀ c ∈ s, c < 128

instance (s : Str) : Decidable (IsAscii s) := inferInstanceAs (Decidable (∀ c ∈ s, c < 128))

theorem isAscii_hashToken {sha256 : Str → Str} (h : ∀ s, IsAscii (sha256 s)) (token : Str) :
    IsAscii (hashToken sha256 token) := by
  intro c hc
  obtain hc | hc := List.mem_append.mp hc
  · have hlabel : IsAscii (lit "sha256$") := by decide
    exact hlabel c hc
  · exact h token c hc

/-- The libraries and the files of the hub. -/
structure SelfHost where
  toml : TomlLib
  float : IntToFloat
  /-- `hashlib.sha256(token.encode("utf-8")).hexdigest()`. -/
  sha256 : Str → Str
  sha256_ascii : ∀ s, IsAscii (sha256 s)
  selfNodeIdPath : PosixPath
  nodeTomlPath : PosixPath
  paths_ne : selfNodeIdPath ≠ nodeTomlPath

/-- One call of `run_self_registration`: its arguments, and what the clock and
the random numbers are during it. -/
structure RegisterCall where
  serverUrl : Str
  appConfig : Option AppConfig
  /-- The n-th `_now_iso()`. -/
  clock : Nat → Str
  /-- `str(uuid.uuid4())`. -/
  uuid : Str
  /-- `secrets.token_urlsafe(32)`. -/
  token : Str
  serverUrl_ne : serverUrl ≠ []
  uuid_chars : ∀ c ∈ uuid, c = 45 ∨ 48 ≤ c ∧ c ≤ 57 ∨ 97 ≤ c ∧ c ≤ 102
  uuid_ne : uuid ≠ []
  token_ne : token ≠ []
  /-- `config.toml` is UTF-8 text. -/
  appConfig_encodable : ∀ config ∈ appConfig,
    encodable config.ownIpv6 = true ∧ encodable config.routerId = true

/-! ## files -/

/-- `path.write_text(s)`, or a dump into an opened file. -/
def writeFile (io : FileIo) (path : PosixPath) (s : Str) : DiskTx Unit :=
  match io.write path with
  | .done => Prog.write (Disk.write path (.text s))
  | .refused => Prog.raise (pyError .osError)
  | .torn left => Prog.write (Disk.write path left) >>= fun _ => Prog.raise (pyError .osError)

def saveNodeConfig (io : FileIo) (host : SelfHost) (config : NodeConfig) : DiskTx Unit :=
  writeFile io host.nodeTomlPath (host.toml.dumps (nodeConfigDocument config))

/-- `load_node_config` of the hub's own `node.toml`. -/
def SelfHost.load (host : SelfHost) (disk : Disk) : Except NodeConfigFailure NodeConfig :=
  loadNodeConfig host.toml host.float host.nodeTomlPath (disk.read host.nodeTomlPath)

/-! ## `run_self_registration` -/

structure SelfRegistrationResult where
  nodeId : Str
  createdNodeId : Bool
  upsertedManagedNode : Bool
  rotatedToken : Bool
  nodeTomlPath : PosixPath
  seededAddresses : List Str
  configNodeIdMismatch : Bool

section Register

variable (host : SelfHost) (call : RegisterCall) (io : FileIo)

/-- The end of `_read_or_create_self_node_id`. -/
def createSelfNodeId : DiskTx (Str × Bool) := do
  writeFile io host.selfNodeIdPath (call.uuid ++ lit "\n")
  pure (call.uuid, true)

/-- `_read_or_create_self_node_id`: the id, and whether it is new. -/
def readOrCreateSelfNodeId : DiskTx (Str × Bool) := do
  match ← Prog.read (Disk.read host.selfNodeIdPath) with
  | none => createSelfNodeId host call io
  | some content =>
      match content.readText with
      -- a `UnicodeDecodeError`
      | none => Prog.raise (pyError .valueError)
      | some text =>
          if (strip text).isEmpty then createSelfNodeId host call io else pure (strip text, false)

/-- The addresses of `config.toml`, for the columns that are null. -/
def seedAddresses (nodeId : Str) (selfNode : ManagedNode) : DbTx (List Str) :=
  match call.appConfig with
  | none => pure []
  | some config =>
      let seedsIpv6 := selfNode.ownIpv6.isNone && !config.ownIpv6.isEmpty
      let seedsRouterId := selfNode.routerId.isNone && !config.routerId.isEmpty
      if seedsIpv6 || seedsRouterId then do
        let _ ← ManagedNodeStore.setAddresses (call.clock 1) nodeId .unset
          (if seedsIpv6 then .set (some config.ownIpv6) else .unset)
          (if seedsRouterId then .set (some config.routerId) else .unset)
        pure ((if seedsIpv6 then [lit "own_ipv6"] else []) ++
          if seedsRouterId then [lit "router_id"] else [])
      else pure []

/-- The node's row before the token is looked at, whether the node is another
one than before, and the seeded columns. -/
def registerSelfNode (nodeId : Str) : DbTx (ManagedNode × Bool × List Str) := do
  let existingSelf ← ManagedNodeStore.getSelf
  let selfNode ← ManagedNodeStore.upsertSelf (call.clock 0) nodeId
  let seeded ← seedAddresses call nodeId selfNode
  pure (selfNode, existingSelf.all fun node => node.nodeId != nodeId, seeded)

/-- `verify_token`; `compare_digest` takes texts only where both are ASCII. -/
def verifyStored (stored token : Str) : Except PyError Bool :=
  if IsAscii stored ∧ IsAscii (hashToken host.sha256 token) then
    pure (verifyToken host.sha256 stored token)
  else throw (pyError .typeError)

/-- `_needs_new_token`. -/
def needsNewToken (disk : Disk) (nodeId : Str) (storedHash : Option Str) : Except PyError Bool :=
  match storedHash with
  | none => pure true
  | some stored =>
      match host.load disk with
      -- there is no file, or it is broken
      | .error _ => pure true
      | .ok existing =>
          if existing.nodeId ≠ nodeId then pure true
          else if existing.token.isEmpty then pure true
          else (verifyStored host stored existing.token).map (!·)

def RegisterCall.nodeConfig (nodeId : Str) : NodeConfig where
  server := call.serverUrl
  nodeId
  token := call.token

/-- A new token: its hash first, the file after it. -/
def issueSelfToken (nodeId : Str) : PeerTx Unit := do
  onDb (ManagedNodeStore.setTokenHash (call.clock 2) nodeId (hashToken host.sha256 call.token))
  onDisk (saveNodeConfig io host (call.nodeConfig nodeId))

def runSelfRegistration : PeerTx SelfRegistrationResult := do
  let self ← onDisk (readOrCreateSelfNodeId host call io)
  let registered ← onDb (registerSelfNode call self.1)
  let disk ← onDisk (Prog.read id)
  let rotated ← Prog.lift
    ((needsNewToken host disk self.1 registered.1.apiTokenHash).mapError Exc.raised)
  if rotated then issueSelfToken host call io self.1
  pure { nodeId := self.1, createdNodeId := self.2, upsertedManagedNode := registered.2.1,
         rotatedToken := rotated, nodeTomlPath := host.nodeTomlPath,
         seededAddresses := registered.2.2,
         configNodeIdMismatch := call.appConfig.any fun config => config.nodeId != self.1 }

end Register

/-! ## `rotate_token` -/

/-- One call of `rotate_token`. -/
structure RotateCall where
  nodeId : Str
  now : Str
  /-- `secrets.token_urlsafe(32)`. -/
  token : Str
  token_ne : token ≠ []

structure RotatedToken where
  nodeId : Str
  plaintext : Str
  selfNodeTomlUpdated : Bool
  selfNodeTomlPath : Option PosixPath
  selfNodeTomlError : Option Msg

section Rotate

variable (host : SelfHost) (call : RotateCall) (io : FileIo)

/-- `_rewrite_self_node_toml`: the reason of a failure. -/
def rewriteSelfNodeToml : DiskTx (Option Msg) := do
  let disk ← Prog.read id
  match host.load disk with
  | .error (.nodeConfigError text) => pure (some text)
  | .error .overflowError => Prog.raise (pyError .overflowError)
  | .ok existing =>
      Prog.catching
        (do
          saveNodeConfig io host { existing with nodeId := call.nodeId, token := call.token }
          pure none)
        fun e =>
          if e.cls = .osError then
            pure (some (.text (lit "写入 node.toml 失败: ") :: .text host.nodeTomlPath.toStr ::
              .text (lit " (") :: e.text ++ [.text (lit ")")]))
          else Prog.raise e

/-- The node as it was, its new hash stored. -/
def storeNewToken : DbTx ManagedNode := do
  let nodeId ← check (validateNodeId call.nodeId)
  wrapDatabaseError do
    match ← ManagedNodeStore.get nodeId with
    | none => fail (dn42CtlError [.text (lit "节点不存在: "), .text nodeId])
    | some node =>
        ManagedNodeStore.rotateToken host.sha256 call.now nodeId call.token
        pure node

def NodeAdmin.rotateToken : PeerTx RotatedToken := do
  let node ← onDb (storeNewToken host call)
  if node.isSelf then do
    let error ← onDisk (rewriteSelfNodeToml host call io)
    pure ⟨call.nodeId, call.token, error.isNone, some host.nodeTomlPath, error⟩
  else pure ⟨call.nodeId, call.token, false, none, none⟩

end Rotate

end Dn42Ctl
