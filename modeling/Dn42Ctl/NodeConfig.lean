import Dn42Ctl.Config
import Dn42Ctl.NodeApply

/-!
# NodeConfig

`dn42ctl/node_config.py`: the agent's `node.toml`.

`save_node_config` leaves out the tables that hold the defaults, and
`load_node_config` fills the defaults in.

* `loadNodeConfig_valid` — what is loaded passed the checks;
* `loadNodeConfig_document` — what passes them is loaded from the document that
  is saved, up to the spelling of the options.
-/

namespace Dn42Ctl

open Text

/-! ## floats -/

/-- `x <= 0`: zero is the float that is false, a negative one has a sign. -/
def nonPositive (x : PyFloat) : Bool := !x.truthy || x.repr.head? == some 45

/-- `float(n)` of an integer; `none` where it raises `OverflowError`. -/
structure IntToFloat where
  ofInt : Int → Option PyFloat
  positive : ∀ n x, 0 < n → ofInt n = some x → nonPositive x = false

/-! ## `class AgentOptions` -/

inductive AgentField where
  | reconnectInitialSeconds
  | reconnectMaxSeconds
  | authRetrySeconds
  | reconcileIntervalSeconds
  | heartbeatIntervalSeconds
deriving DecidableEq, Repr

/-- The fields of the dataclass, in order. -/
def AgentField.all : List AgentField :=
  [.reconnectInitialSeconds, .reconnectMaxSeconds, .authRetrySeconds, .reconcileIntervalSeconds,
    .heartbeatIntervalSeconds]

def AgentField.key : AgentField → Str
  | .reconnectInitialSeconds => lit "reconnect_initial_seconds"
  | .reconnectMaxSeconds => lit "reconnect_max_seconds"
  | .authRetrySeconds => lit "auth_retry_seconds"
  | .reconcileIntervalSeconds => lit "reconcile_interval_seconds"
  | .heartbeatIntervalSeconds => lit "heartbeat_interval_seconds"

/-- `AgentOptions`, by its fields: the values of the `[agent]` table. -/
structure AgentTable where
  get : AgentField → PyFloat

def defaultAgentTable : AgentTable where
  get
    | .reconnectInitialSeconds => ⟨lit "1.0", true, .ok 1⟩
    | .reconnectMaxSeconds => ⟨lit "60.0", true, .ok 60⟩
    | .authRetrySeconds => ⟨lit "300.0", true, .ok 300⟩
    | .reconcileIntervalSeconds => ⟨lit "900.0", true, .ok 900⟩
    | .heartbeatIntervalSeconds => ⟨lit "60.0", true, .ok 60⟩

def AgentTable.set (o : AgentTable) (field : AgentField) (x : PyFloat) : AgentTable where
  get f := if f = field then x else o.get f

/-- The values of the options: the `repr` of a float says which float it is. -/
def AgentTable.reprs (o : AgentTable) : List Str := AgentField.all.map fun f => (o.get f).repr

/-- `asdict`. -/
def AgentTable.asdict (o : AgentTable) : JsonObject :=
  AgentField.all.map fun f => (f.key, .float (o.get f))

/-! ## `class NodeConfig` -/

def nodeCacheDbPath : PosixPath := .ofStr (lit "/var/lib/dn42ctl/node-cache.sqlite3")

structure NodeConfig where
  server : Str
  nodeId : Str
  token : Str
  cacheDbPath : PosixPath := nodeCacheDbPath
  agent : AgentTable := defaultAgentTable
  reloadPolicy : ReloadPolicy := .auto

def ReloadPolicy.text : ReloadPolicy → Str
  | .auto => lit "auto"
  | .never => lit "never"

/-- What `load_node_config` raises: a `NodeConfigError` with its text, or the
`OverflowError` of `float()`. -/
inductive NodeConfigFailure where
  | nodeConfigError (text : Msg)
  | overflowError
deriving Repr

/-- `raise NodeConfigError(f"{file}: …")`. -/
def nodeConfigError {α : Type} (file : PosixPath) (text : Msg) : Except NodeConfigFailure α :=
  throw (.nodeConfigError (.text file.toStr :: text))

/-! ## `load_node_config` -/

def requireStr (data : JsonObject) (key : String) (file : PosixPath) :
    Except NodeConfigFailure Str :=
  match Json.lookup (lit key) data with
  | some (.str s) =>
      if s.isEmpty then
        nodeConfigError file [.text (lit ": 缺失或类型错误的字段 '"), .text (lit key), .text (lit "'")]
      else pure s
  | _ => nodeConfigError file [.text (lit ": 缺失或类型错误的字段 '"), .text (lit key), .text (lit "'")]

/-- One entry of the `[agent]` table. -/
def parseAgentEntry (float : IntToFloat) (file : PosixPath) (o : AgentTable)
    (entry : Str × Json) : Except NodeConfigFailure AgentTable :=
  match AgentField.all.find? fun f => f.key == entry.1 with
  | none => nodeConfigError file [.text (lit ": [agent] 未知字段 '"), .text entry.1, .text (lit "'")]
  | some field =>
      match entry.2 with
      | .int n =>
          if n ≤ 0 then
            nodeConfigError file [.text (lit ": [agent]."), .text entry.1, .text (lit " 必须大于 0")]
          else
            match float.ofInt n with
            | some x => pure (o.set field x)
            | none => throw .overflowError
      | .float x =>
          if nonPositive x then
            nodeConfigError file [.text (lit ": [agent]."), .text entry.1, .text (lit " 必须大于 0")]
          else pure (o.set field x)
      | _ => nodeConfigError file [.text (lit ": [agent]."), .text entry.1, .text (lit " 必须是数字")]

def parseAgentBlock (float : IntToFloat) (file : PosixPath) (block : JsonObject) :
    Except NodeConfigFailure AgentTable :=
  block.foldlM (parseAgentEntry float file) defaultAgentTable

def reloadPolicyError {α : Type} (file : PosixPath) : Except NodeConfigFailure α :=
  nodeConfigError file [.text (lit ": [apply].reload 必须是 auto 或 never")]

/-- One entry of the `[apply]` table: `reload` is the only key. -/
def parseApplyEntry (file : PosixPath) (entry : Str × Json) :
    Except NodeConfigFailure ReloadPolicy :=
  if entry.1 ≠ lit "reload" then
    nodeConfigError file [.text (lit ": [apply] 未知字段 '"), .text entry.1,
      .text (lit "';文件写入位置改由本机 config.toml 的 [paths] 决定")]
  else
    match entry.2 with
    | .str s =>
        if s = lit "auto" then pure .auto
        else if s = lit "never" then pure .never
        else reloadPolicyError file
    | _ => reloadPolicyError file

def applyBlock (file : PosixPath) (raw : JsonObject) : Except NodeConfigFailure ReloadPolicy :=
  match Json.lookup (lit "apply") raw with
  | none => pure .auto
  | some (.dict block) => block.foldlM (fun _ entry => parseApplyEntry file entry) .auto
  | some _ => nodeConfigError file [.text (lit ": [apply] 段格式错误")]

def cacheBlock (file : PosixPath) (raw : JsonObject) : Except NodeConfigFailure PosixPath :=
  match Json.lookup (lit "cache") raw with
  | none => pure nodeCacheDbPath
  | some (.dict block) =>
      match Json.lookup (lit "db_path") block with
      | none => pure nodeCacheDbPath
      | some (.str s) => pure (.ofStr s)
      | some _ => nodeConfigError file [.text (lit ": [cache].db_path 必须是字符串")]
  | some _ => nodeConfigError file [.text (lit ": [cache] 段格式错误")]

def agentBlock (float : IntToFloat) (file : PosixPath) (raw : JsonObject) :
    Except NodeConfigFailure AgentTable :=
  match Json.lookup (lit "agent") raw with
  | none => pure defaultAgentTable
  | some (.dict block) => parseAgentBlock float file block
  | some _ => nodeConfigError file [.text (lit ": [agent] 段格式错误")]

/-- `load_node_config`, after the document is parsed. -/
def nodeConfigOf (float : IntToFloat) (file : PosixPath) (raw : JsonObject) :
    Except NodeConfigFailure NodeConfig := do
  let server ← requireStr raw "server" file
  let nodeId ← requireStr raw "node_id" file
  let token ← requireStr raw "token" file
  let reloadPolicy ← applyBlock file raw
  let cacheDbPath ← cacheBlock file raw
  let agent ← agentBlock float file raw
  pure { server, nodeId, token, cacheDbPath, agent, reloadPolicy }

/-- `load_node_config`; `none` when there is no file. -/
def loadNodeConfig (toml : TomlLib) (float : IntToFloat) (path : PosixPath)
    (file : Option Content) : Except NodeConfigFailure NodeConfig :=
  match file with
  | none => throw (.nodeConfigError [.text (lit "node.toml 不存在: "), .text path.toStr])
  | some content =>
      match toml.loads content with
      | none => throw (.nodeConfigError [.text (lit "读取 node.toml 失败: "), .text path.toStr])
      | some raw => nodeConfigOf float path raw

/-! ## `save_node_config` -/

/-- The document `save_node_config` writes; a float equals a default if it has
the same `repr`. -/
def nodeConfigDocument (config : NodeConfig) : JsonObject :=
  [(lit "server", .str config.server), (lit "node_id", .str config.nodeId),
    (lit "token", .str config.token)] ++
  (if config.reloadPolicy = .auto then []
    else [(lit "apply", .dict [(lit "reload", .str config.reloadPolicy.text)])]) ++
  (if config.cacheDbPath = nodeCacheDbPath then []
    else [(lit "cache", .dict [(lit "db_path", .str config.cacheDbPath.toStr)])]) ++
  (if config.agent.reprs = defaultAgentTable.reprs then []
    else [(lit "agent", .dict config.agent.asdict)])

/-! ## what is loaded -/

/-- What `load_node_config` checks. -/
structure NodeConfig.Valid (config : NodeConfig) : Prop where
  server : config.server ≠ []
  nodeId : config.nodeId ≠ []
  token : config.token ≠ []
  cacheDbPath : config.cacheDbPath.Canonical
  agent : ∀ field, nonPositive (config.agent.get field) = false

/-- A text that is required is not empty. -/
theorem requireStr_ok {data : JsonObject} {key : String} {file : PosixPath} {s : Str}
    (h : requireStr data key file = .ok s) : s ≠ [] := by
  unfold requireStr at h
  split at h
  · split at h
    · cases h
    · next hne =>
        cases h
        simpa using hne
  · cases h

/-- The path of the cache is in pathlib's normal form. -/
theorem cacheBlock_ok {file : PosixPath} {raw : JsonObject} {p : PosixPath}
    (h : cacheBlock file raw = .ok p) : p.Canonical := by
  unfold cacheBlock at h
  split at h
  · cases h
    exact PosixPath.canonical_ofStr _
  · split at h
    · cases h
      exact PosixPath.canonical_ofStr _
    · cases h
      exact PosixPath.canonical_ofStr _
    · cases h
  · cases h

/-- The defaults pass their own check. -/
theorem defaultAgentTable_positive (field : AgentField) :
    nonPositive (defaultAgentTable.get field) = false := by
  cases field <;> decide

/-- An entry that is accepted sets its option to a positive value. -/
theorem parseAgentEntry_positive {float : IntToFloat} {file : PosixPath} {o o' : AgentTable}
    {entry : Str × Json} (ho : ∀ field, nonPositive (o.get field) = false)
    (h : parseAgentEntry float file o entry = .ok o') :
    ∀ field, nonPositive (o'.get field) = false := by
  have hset : ∀ field x, nonPositive x = false →
      ∀ field', nonPositive ((o.set field x).get field') = false := by
    intro field x hx field'
    show nonPositive (if field' = field then x else o.get field') = false
    split
    · exact hx
    · exact ho field'
  unfold parseAgentEntry at h
  split at h
  · cases h
  · split at h
    · split at h
      · cases h
      · next hn =>
          split at h
          · next x hx =>
              cases h
              exact hset _ x (float.positive _ x (by omega) hx)
          · cases h
    · split at h
      · cases h
      · next hx =>
          cases h
          exact hset _ _ (by simpa using hx)
    · cases h

/-- What is parsed over positive options is positive. -/
theorem parseAgentBlock_positive {float : IntToFloat} {file : PosixPath} {block : JsonObject}
    {o o' : AgentTable} (ho : ∀ field, nonPositive (o.get field) = false)
    (h : block.foldlM (parseAgentEntry float file) o = .ok o') :
    ∀ field, nonPositive (o'.get field) = false := by
  induction block generalizing o with
  | nil =>
      cases h
      exact ho
  | cons entry block ih =>
      rw [List.foldlM_cons] at h
      obtain ⟨mid, hentry, hrest⟩ := Prog.bind_eq_ok.mp h
      exact ih (parseAgentEntry_positive ho hentry) hrest

/-- The options of the agent are positive. -/
theorem agentBlock_ok {float : IntToFloat} {file : PosixPath} {raw : JsonObject} {o : AgentTable}
    (h : agentBlock float file raw = .ok o) : ∀ field, nonPositive (o.get field) = false := by
  unfold agentBlock at h
  split at h
  · cases h
    exact defaultAgentTable_positive
  · exact parseAgentBlock_positive defaultAgentTable_positive h
  · cases h

/-- A loaded configuration passed every check. -/
theorem loadNodeConfig_valid {toml : TomlLib} {float : IntToFloat} {path : PosixPath}
    {file : Option Content} {config : NodeConfig}
    (h : loadNodeConfig toml float path file = .ok config) : config.Valid := by
  unfold loadNodeConfig at h
  split at h
  · cases h
  · split at h
    · cases h
    · unfold nodeConfigOf at h
      simp only [Prog.bind_eq_ok] at h
      obtain ⟨server, hserver, nodeId, hnode, token, htoken, policy, -, cache, hcache, agent,
        hagent, hconfig⟩ := h
      cases hconfig
      exact ⟨requireStr_ok hserver, requireStr_ok hnode, requireStr_ok htoken,
        cacheBlock_ok hcache, agentBlock_ok hagent⟩

/-! ## round trip -/

/-- A configuration after it is saved and loaded: options that equal the
defaults are the defaults. -/
def NodeConfig.stored (config : NodeConfig) : NodeConfig :=
  if config.agent.reprs = defaultAgentTable.reprs then
    { config with agent := defaultAgentTable }
  else config

/-- The values of the fields that are no part of the credential. -/
structure NodeConfig.Keeps (old new : NodeConfig) : Prop where
  cacheDbPath : new.cacheDbPath = old.cacheDbPath
  agent : new.agent.reprs = old.agent.reprs
  reloadPolicy : new.reloadPolicy = old.reloadPolicy

/-- Storing keeps what `Keeps` says. -/
theorem keeps_stored (config : NodeConfig) : config.Keeps config.stored := by
  unfold NodeConfig.stored
  split
  · next h => exact ⟨rfl, h.symm, rfl⟩
  · exact ⟨rfl, rfl, rfl⟩

/-- Storing keeps the credential. -/
theorem stored_credential (config : NodeConfig) :
    config.stored.server = config.server ∧ config.stored.nodeId = config.nodeId ∧
      config.stored.token = config.token := by
  unfold NodeConfig.stored
  split <;> exact ⟨rfl, rfl, rfl⟩

section Document

variable (config : NodeConfig) (file : PosixPath)

/-- The policy is written when it is not the default. -/
theorem lookup_apply :
    Json.lookup (lit "apply") (nodeConfigDocument config) =
      if config.reloadPolicy = .auto then none
      else some (.dict [(lit "reload", .str config.reloadPolicy.text)]) := by
  unfold nodeConfigDocument
  split_ifs <;> rfl

/-- The path of the cache is written when it is not the default. -/
theorem lookup_cache :
    Json.lookup (lit "cache") (nodeConfigDocument config) =
      if config.cacheDbPath = nodeCacheDbPath then none
      else some (.dict [(lit "db_path", .str config.cacheDbPath.toStr)]) := by
  unfold nodeConfigDocument
  split_ifs <;> rfl

/-- The options are written when they differ from the defaults as printed. -/
theorem lookup_agent :
    Json.lookup (lit "agent") (nodeConfigDocument config) =
      if config.agent.reprs = defaultAgentTable.reprs then none
      else some (.dict config.agent.asdict) := by
  unfold nodeConfigDocument
  split_ifs <;> rfl

theorem applyBlock_document :
    applyBlock file (nodeConfigDocument config) = .ok config.reloadPolicy := by
  rw [applyBlock, lookup_apply]
  cases config.reloadPolicy with
  | auto => rfl
  | never => rfl

/-- The path of the cache is read back. -/
theorem cacheBlock_document (h : config.cacheDbPath.Canonical) :
    cacheBlock file (nodeConfigDocument config) = .ok config.cacheDbPath := by
  rw [cacheBlock, lookup_cache]
  by_cases hdefault : config.cacheDbPath = nodeCacheDbPath
  · rw [if_pos hdefault, hdefault]
    rfl
  · rw [if_neg hdefault]
    show (Except.ok (PosixPath.ofStr config.cacheDbPath.toStr) : Except NodeConfigFailure _) = _
    rw [PosixPath.ofStr_toStr h]

/-- An option is read back as it was written. -/
theorem parseAgentEntry_float {float : IntToFloat} {o : AgentTable} {field : AgentField}
    {x : PyFloat} (h : nonPositive x = false) :
    parseAgentEntry float file o (field.key, .float x) = .ok (o.set field x) := by
  have hfind : (AgentField.all.find? fun f => f.key == field.key) = some field := by
    cases field <;> decide
  rw [parseAgentEntry, hfind]
  simp only [h, Bool.false_eq_true, if_false]
  rfl

/-- Positive options are read back. -/
theorem parseAgentBlock_asdict (float : IntToFloat)
    (h : ∀ field, nonPositive (config.agent.get field) = false) :
    parseAgentBlock float file config.agent.asdict = .ok config.agent := by
  have hfold : ∀ fields : List AgentField, ∀ o : AgentTable,
      (fields.map fun f => (f.key, Json.float (config.agent.get f))).foldlM
          (parseAgentEntry float file) o =
        .ok (fields.foldl (fun o f => o.set f (config.agent.get f)) o) := by
    intro fields
    induction fields with
    | nil => exact fun o => rfl
    | cons f fields ih =>
        intro o
        rw [List.map_cons, List.foldlM_cons, parseAgentEntry_float file (h f), List.foldl_cons,
          ← ih]
        rfl
  rw [parseAgentBlock, AgentTable.asdict, hfold]
  congr 1
  -- every field is among those that were set
  have hget : ∀ field, (AgentField.all.foldl (fun o f => o.set f (config.agent.get f))
      defaultAgentTable).get field = config.agent.get field := by
    intro field
    cases field <;> rfl
  exact congrArg AgentTable.mk (funext hget)

/-- The options are read back as they were stored. -/
theorem agentBlock_document (float : IntToFloat)
    (h : ∀ field, nonPositive (config.agent.get field) = false) :
    agentBlock float file (nodeConfigDocument config) = .ok config.stored.agent := by
  rw [agentBlock, lookup_agent, NodeConfig.stored]
  by_cases hdefault : config.agent.reprs = defaultAgentTable.reprs
  · rw [if_pos hdefault, if_pos hdefault]
    rfl
  · rw [if_neg hdefault, if_neg hdefault]
    exact parseAgentBlock_asdict config file float h

end Document

/-- A text that is there is returned. -/
theorem requireStr_of_lookup {data : JsonObject} {key : String} {file : PosixPath} {s : Str}
    (h : Json.lookup (lit key) data = some (.str s)) (hne : s ≠ []) :
    requireStr data key file = .ok s := by
  rw [requireStr, h]
  simp only [List.isEmpty_iff, hne]
  rfl

/-- **Round trip**: a valid `node.toml` is read back as it was stored. -/
theorem nodeConfigOf_document {config : NodeConfig} (float : IntToFloat) (file : PosixPath)
    (hv : config.Valid) :
    nodeConfigOf float file (nodeConfigDocument config) = .ok config.stored := by
  have hconfig : config.stored =
      ⟨config.server, config.nodeId, config.token, config.cacheDbPath, config.stored.agent,
        config.reloadPolicy⟩ := by
    unfold NodeConfig.stored
    split <;> rfl
  rw [nodeConfigOf, requireStr_of_lookup rfl hv.server, requireStr_of_lookup rfl hv.nodeId,
    requireStr_of_lookup rfl hv.token, applyBlock_document, cacheBlock_document _ _ hv.cacheDbPath,
    agentBlock_document _ _ _ hv.agent, hconfig]
  rfl

/-- A configuration that passes the checks is loaded as it was saved. -/
theorem loadNodeConfig_document {toml : TomlLib} {config : NodeConfig} (float : IntToFloat)
    (path : PosixPath) (ht : toml.RoundTrips (nodeConfigDocument config)) (hv : config.Valid) :
    loadNodeConfig toml float path (some (.text (toml.dumps (nodeConfigDocument config)))) =
      .ok config.stored := by
  rw [loadNodeConfig, ht]
  exact nodeConfigOf_document float path hv

end Dn42Ctl
