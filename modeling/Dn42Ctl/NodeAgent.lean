import Dn42Ctl.ApplySpecs
import Dn42Ctl.Reloads
import Dn42Ctl.WsProtocol
import Dn42Ctl.Lib.Raising

/-!
# NodeAgent

The agent of a node: `services/node_agent.py`, and from `node_ws_agent.py` the
handling of a pushed state and the way from the start of the service to its
connections.

A push is stored in the cache before it is applied, and a start applies what is
in the cache before it connects.  Both catch `Dn42CtlError` and `OSError` only.

* `agentStep` — one event in the life of an agent;
* `ApplyStops`, `apply_fails_iff` — when `apply` raises something else;
* `push_ends_session_iff` — which pushes end their session.
-/

namespace Dn42Ctl

open Text WsProtocol

namespace NodeAgent

/-! ## the cache -/

/-- The row of `cached_desired`. -/
structure CacheRow where
  revision : Str
  payloadJson : Str
deriving DecidableEq, Repr

/-- What the agent keeps on its machine. -/
structure Files where
  disk : Disk
  cache : Option CacheRow

/-- An exception on the way of a payload. -/
inductive AgentError where
  | service (e : PyError)
  | sqliteError
  | json (e : JsonFailure)
  | unicodeEncodeError

/-- The classes of the `except` clauses: `Dn42CtlError` and `OSError`. -/
def Caught (e : PyError) : Prop := e.cls = .dn42CtlError ∨ e.cls = .osError

instance : DecidablePred Caught := fun _ => inferInstanceAs (Decidable (_ ∨ _))

def AgentError.Caught : AgentError → Prop
  | .service e => NodeAgent.Caught e
  | .sqliteError | .json _ | .unicodeEncodeError => False

instance : DecidablePred AgentError.Caught
  | .service e => inferInstanceAs (Decidable (NodeAgent.Caught e))
  | .sqliteError | .json _ | .unicodeEncodeError => .isFalse id

abbrev AgentTx (α : Type) := Prog Files AgentError α

/-- How the cache file fails. -/
inductive CacheFault where
  | osError
  | sqliteError
deriving DecidableEq, Repr

def CacheFault.error : CacheFault → AgentError
  | .osError => .service (pyError .osError)
  | .sqliteError => .sqliteError

/-- What is the same for every call: the JSON library, the place of
`config.toml` and the policy of `node.toml`. -/
structure Setup where
  json : JsonLib
  configPath : PosixPath
  reloadPolicy : ReloadPolicy := .auto

/-- What one call finds: the rest of the machine, and how the cache fails. -/
structure AgentEnv where
  apply : ApplyEnv
  storeFails : Option CacheFault := none
  readFails : Bool := false

section Calls

variable (setup : Setup) (env : AgentEnv)

/-- `raise Dn42CtlError("server 返回的 desired state 缺少 revision")`. -/
def missingRevision : AgentError :=
  .service (dn42CtlError [.text (lit "server 返回的 desired state 缺少 revision")])

/-- The row of `cached_desired` is written. -/
def storeRow (revision : Str) (payload : JsonObject) : AgentTx Unit :=
  match env.storeFails with
  | some fault => Prog.raise fault.error
  | none => do
      let raw ← Prog.lift ((setup.json.dumps payload).mapError .json)
      if encodable revision && encodable raw then
        Prog.write fun s => { s with cache := some ⟨revision, raw⟩ }
      else Prog.raise .unicodeEncodeError

/-- `store_desired`. -/
def storeDesired (payload : JsonObject) : AgentTx Unit :=
  match Json.lookup (lit "revision") payload with
  | some (.str revision) =>
      if revision.isEmpty then Prog.raise missingRevision else storeRow setup env revision payload
  | _ => Prog.raise missingRevision

/-- `read_cache`: the revision and what was loaded. -/
def readCache : AgentTx (Option (Str × Json)) := do
  let row ← Prog.read Files.cache
  match row with
  | none => pure none
  | some row =>
      if env.readFails then Prog.raise .sqliteError
      else do
        let payload ← Prog.lift ((setup.json.loads row.payloadJson).mapError .json)
        pure (some (row.revision, payload))

/-- A call on the files of the machine. -/
def onFiles {α : Type} (m : DiskTx α) : AgentTx α := fun s =>
  ((m.run s.disk).1.mapError .service, { s with disk := (m.run s.disk).2 })

/-- `apply`, which reads the cache itself; a payload that is no object has no
`get`. -/
def applyCached : AgentTx ApplyResult := do
  let cached ← readCache setup env
  match cached with
  | none => onFiles (apply env.apply none setup.configPath)
  | some (revision, .dict payload) =>
      onFiles (apply env.apply (some ⟨revision, payload⟩) setup.configPath false false
        setup.reloadPolicy)
  | some _ => Prog.raise (.service (pyError .attributeError))

/-- The payload of an `apply_result`. -/
structure ApplyReport where
  revision : Str
  create : Nat
  update : Nat
  unchanged : Nat
  delete : Nat
  reloads : List (Str × Bool)
  warnings : List Msg
deriving Repr

/-- What the agent submits about a push. -/
inductive AgentReport where
  | applyResult (r : ApplyReport)
  | error (message : Msg)
deriving Repr

def ApplyReport.of (r : ApplyResult) : ApplyReport where
  revision := r.revision
  create := r.diffs.countP fun d => d.action == .create
  update := r.diffs.countP fun d => d.action == .update
  unchanged := r.diffs.countP fun d => d.action == .unchanged
  delete := r.diffs.countP fun d => d.action == .delete
  reloads := r.reloads.map fun a => (a.cmd.text, a.ok)
  warnings := r.warnings

/-- `str(exc)` of an exception that is caught. -/
def AgentError.message : AgentError → Msg
  | .service e => e.text
  | .sqliteError | .json _ | .unicodeEncodeError => []

/-- `except (Dn42CtlError, OSError)`. -/
def catchingCaught {α : Type} (m : AgentTx α) (handler : AgentError → AgentTx α) : AgentTx α :=
  Prog.catching m fun e => if e.Caught then handler e else Prog.raise e

/-- `_handle_desired_push`: what is reported. -/
def handleDesiredPush (payload : JsonObject) : AgentTx AgentReport :=
  match Json.getD (lit "desired") payload .null with
  | .dict desired =>
      catchingCaught
        (do
          storeDesired setup env desired
          let result ← applyCached setup env
          pure (.applyResult (.of result)))
        fun e => pure (.error e.message)
  | _ => pure (.error [.text (lit "desired_push 缺少 desired 对象")])

/-- `_apply_from_cache`. -/
def applyFromCache : AgentTx Unit := do
  let cached ← readCache setup env
  if cached.isNone then pure ()
  else catchingCaught (applyCached setup env >>= fun _ => pure ()) fun _ => pure ()

end Calls

/-! ## the life of an agent -/

inductive Phase where
  /-- The service does not run. -/
  | stopped
  /-- `run_agent` is past its start and tries to connect, again and again. -/
  | connecting
  | connected
deriving DecidableEq, Repr

structure Agent extends Files where
  phase : Phase
  /-- The reports that were sent, oldest first. -/
  reports : List AgentReport
  /-- What ended a session or the service, oldest first. -/
  ends : List AgentError

/-- The files of an agent after a call. -/
def Agent.with (s : Agent) (files : Files) : Agent := { s with toFiles := files }

inductive AgentAction where
  /-- The service starts. -/
  | start (env : AgentEnv)
  /-- A connection is made and `hello` sent. -/
  | connect (env : AgentEnv)
  /-- A `desired_push` arrives; whether the report about it can be sent. -/
  | push (env : AgentEnv) (payload : JsonObject) (delivered : Bool)
  /-- The connection is lost, by either side. -/
  | disconnect
  /-- The service stops for a reason of its own: a signal, or a `node.toml` that
  does not load. -/
  | stop
  /-- The operator writes or removes a file. -/
  | edit (path : PosixPath) (content : Option Content)
  /-- The cache is deleted. -/
  | clearCache

variable (setup : Setup)

def agentStep (s : Agent) : AgentAction → Option Agent
  | .start env =>
      if s.phase = .stopped then
        match (applyFromCache setup env).run s.toFiles with
        | (.ok _, files) => some { s.with files with phase := .connecting }
        | (.error e, files) => some { s.with files with ends := s.ends ++ [e] }
      else none
  | .connect env =>
      if s.phase = .connecting then
        -- `_cached_revision` reads the cache for the `hello`
        match (readCache setup env).run s.toFiles with
        | (.ok _, _) => some { s with phase := .connected }
        | (.error _, _) => some s
      else none
  | .push env payload delivered =>
      if s.phase = .connected then
        match (handleDesiredPush setup env payload).run s.toFiles with
        | (.ok report, files) =>
            if delivered then some { s.with files with reports := s.reports ++ [report] }
            else
              match report with
              | .error _ => some (s.with files)
              -- only the report of an error is sent with its exceptions suppressed
              | .applyResult _ => some { s.with files with phase := .connecting }
        | (.error e, files) =>
            some { s.with files with phase := .connecting, ends := s.ends ++ [e] }
      else none
  | .disconnect => if s.phase = .connected then some { s with phase := .connecting } else none
  | .stop => some { s with phase := .stopped }
  | .edit path content =>
      match content with
      | some c => some (s.with { s.toFiles with disk := s.disk.write path c })
      | none => some (s.with { s.toFiles with disk := s.disk.unlink path })
  | .clearCache => some (s.with { s.toFiles with cache := none })

/-! ## what a payload that does not render raises -/

section Rendering

variable {display : Json → Str} {paths : ResolvedPaths}

/-- Not caught. -/
def Uncaught (e : PyError) : Prop := ¬Caught e

/-- What is neither a `Dn42CtlError` nor an `OSError` is not caught. -/
theorem uncaught_of {e : PyError} (h : e.cls ≠ .dn42CtlError) (h' : e.cls ≠ .osError) :
    Uncaught e := fun hc => hc.elim h h'

/-- A subscript raises nothing the session catches. -/
theorem errorsIn_subscript (x : Json) (key : String) : (subscript x key).ErrorsIn Uncaught := by
  unfold subscript
  split
  · split
    · exact .pure _
    · exact .throw (uncaught_of (by decide) (by decide))
  · exact .throw (uncaught_of (by decide) (by decide))

/-- Nor does `.get` on a value that has none. -/
theorem errorsIn_getAttr (x : Json) (key : String) : (getAttr x key).ErrorsIn Uncaught := by
  unfold getAttr
  split
  · exact .pure _
  · exact .throw (uncaught_of (by decide) (by decide))

/-- Nor does `int`. -/
theorem errorsIn_pyInt (x : Json) : (pyInt x).ErrorsIn Uncaught := by
  unfold pyInt
  split
  · exact .pure _
  · exact .throw (uncaught_of (by decide) (by decide))
  · exact .throw (uncaught_of (by decide) (by decide))
  · exact .throw (uncaught_of (by decide) (by decide))

/-- Nor does iterating over a value. -/
theorem errorsIn_pyIter (x : Json) : (pyIter x).ErrorsIn Uncaught := by
  unfold pyIter
  split
  · exact .pure _
  · exact .throw (uncaught_of (by decide) (by decide))

/-- Nor does the BIRD template of a BGP peer. -/
theorem errorsIn_renderBirdBgpPeerConf (ifname peerLla : Str) (peerAsn : Int) :
    (renderBirdBgpPeerConf ifname peerLla peerAsn).ErrorsIn Uncaught := by
  unfold renderBirdBgpPeerConf
  split
  · exact .throw (uncaught_of (by simp [emptyFieldError]) (by simp [emptyFieldError]))
  · exact .pure _

/-- Nor does that of an iBGP peer. -/
theorem errorsIn_renderBirdIbgpPeerConf (name ifname peerIp : Str) :
    (renderBirdIbgpPeerConf name ifname peerIp).ErrorsIn Uncaught := by
  unfold renderBirdIbgpPeerConf
  split
  · exact .throw (uncaught_of (by simp [emptyFieldError]) (by simp [emptyFieldError]))
  · exact .pure _

/-- Nor do the tunnel files, when the link-local address does not. -/
theorem errorsIn_renderTunnelFiles (peer : Json) (ifname : Str) {peerLla : Except PyError Str}
    (hlla : peerLla.ErrorsIn Uncaught) :
    (renderTunnelFiles display peer paths ifname peerLla).ErrorsIn Uncaught := by
  unfold renderTunnelFiles
  exact .bind (errorsIn_subscript _ _) fun _ _ => .bind (errorsIn_subscript _ _) fun _ _ =>
    .bind (errorsIn_pyInt _) fun _ _ => .bind (errorsIn_subscript _ _) fun _ _ =>
    .bind (errorsIn_getAttr _ _) fun _ _ => .bind (errorsIn_subscript _ _) fun _ _ =>
    .bind (errorsIn_pyIter _) fun _ _ => .bind (errorsIn_subscript _ _) fun _ _ =>
    .bind hlla fun _ _ => .pure _

/-- So a BGP peer of the payload fails past the session's `except`. -/
theorem errorsIn_renderBgpPeerFiles (peer : Json) :
    (renderBgpPeerFiles display peer paths).ErrorsIn Uncaught := by
  unfold renderBgpPeerFiles
  exact .bind (errorsIn_subscript _ _) fun _ _ => .bind (errorsIn_subscript _ _) fun _ _ =>
    .bind (errorsIn_subscript _ _) fun _ _ => .bind (errorsIn_pyInt _) fun _ _ =>
    .bind (errorsIn_renderBirdBgpPeerConf _ _ _) fun _ _ =>
    .bind (errorsIn_renderTunnelFiles _ _ (.pure _)) fun _ _ => .pure _

theorem errorsIn_renderIbgpBird (peer : Json) (name ifname : Str) :
    (renderIbgpBird display peer paths name ifname).ErrorsIn Uncaught := by
  unfold renderIbgpBird
  refine .bind (errorsIn_getAttr _ _) fun peerIp _ => ?_
  split
  · exact .bind (errorsIn_renderBirdIbgpPeerConf _ _ _) fun _ _ => .pure _
  · exact .pure _

/-- And so does an iBGP peer. -/
theorem errorsIn_renderIbgpPeerFiles (peer : Json) :
    (renderIbgpPeerFiles display peer paths).ErrorsIn Uncaught := by
  unfold renderIbgpPeerFiles
  refine .bind (errorsIn_subscript _ _) fun name _ =>
    .bind (errorsIn_subscript _ _) fun ifname _ =>
    .bind (errorsIn_renderIbgpBird _ _ _) fun bird _ =>
    .bind (errorsIn_subscript _ _) fun hasWg _ => ?_
  split
  · exact .bind (errorsIn_renderTunnelFiles _ _ (.map (errorsIn_getAttr _ _) _)) fun _ _ => .pure _
  · exact .pure _

theorem errorsIn_babelInterface (peer : Json) :
    (babelInterface display peer).ErrorsIn Uncaught := by
  unfold babelInterface
  refine .bind (errorsIn_subscript _ _) fun hasWg _ => ?_
  split
  · exact .bind (errorsIn_subscript _ _) fun _ _ => .bind (errorsIn_subscript _ _) fun _ _ =>
      .bind (errorsIn_pyInt _) fun _ _ => .bind (errorsIn_subscript _ _) fun _ _ => .pure _
  · exact .pure _

/-- Rendering a list fails as its items do. -/
theorem errorsIn_collect {α β : Type} {f : α → Except PyError (List β)}
    (hf : ∀ x, (f x).ErrorsIn Uncaught) (xs : List α) : (collect f xs).ErrorsIn Uncaught := by
  induction xs with
  | nil => exact .pure _
  | cons x xs ih =>
      unfold collect
      exact .bind (hf x) fun _ _ => .bind ih fun _ _ => .pure _

theorem errorsIn_hasUpdates (block : Json) : (hasUpdates block).ErrorsIn Uncaught := by
  unfold hasUpdates
  exact .bind (errorsIn_getAttr _ _) fun _ _ => .bind (errorsIn_getAttr _ _) fun _ _ => .pure _

theorem errorsIn_nodeUpdates (block : Json) (config : AppConfig) :
    (nodeUpdates display block config).ErrorsIn Uncaught := by
  unfold nodeUpdates
  exact .bind (errorsIn_getAttr _ _) fun _ _ => .bind (errorsIn_getAttr _ _) fun _ _ => .pure _

/-- The node block fails past the session's `except` too. -/
theorem errorsIn_renderNodeBlock (toml : TomlLib) (payload : JsonObject)
    (config : Option AppConfig) (extraExists : Bool) :
    (renderNodeBlock display toml payload paths config extraExists).ErrorsIn Uncaught := by
  unfold renderNodeBlock
  simp only
  split
  · unfold renderNodeConfigFiles
    split
    · exact .pure _
    · refine .bind (errorsIn_hasUpdates _) fun any _ => ?_
      split
      · exact .bind (errorsIn_nodeUpdates _ _) fun _ _ => .pure _
      · exact .pure _
  · exact .pure _

/-- Whatever a rendering raises, no `except` clause of the agent names it. -/
theorem errorsIn_renderDesired (toml : TomlLib) (payload : JsonObject)
    (config : Option AppConfig) (extraExists : Bool) :
    (renderDesired display toml payload paths config extraExists).ErrorsIn Uncaught := by
  unfold renderDesired
  refine .bind (errorsIn_pyIter _) fun _ _ =>
    .bind (errorsIn_collect errorsIn_renderBgpPeerFiles _) fun _ _ => .bind (errorsIn_pyIter _)
    fun _ _ => .bind (errorsIn_collect errorsIn_renderIbgpPeerFiles _) fun _ _ => .bind ?_
    fun _ _ => .bind (errorsIn_renderNodeBlock _ _ _ _) fun _ _ => .pure _
  unfold renderBabel
  exact .bind (errorsIn_pyIter _) fun _ _ => .bind (errorsIn_collect errorsIn_babelInterface _)
    fun _ _ => .pure _

end Rendering

/-! ## when `apply` raises something else -/

section Apply

variable {env : ApplyEnv} {configPath : PosixPath} {disk disk' : Disk}

/-- A file that is not UTF-8 is compared before a comparison fails. -/
def Undecodable (fails : Nat → Bool) (disk : Disk) : Nat → List FileSpec → Prop :=
  Reaches (fun n => fails n = false) fun f => ∃ bytes, disk.read f.path = some (.bytes bytes)

/-- A path with a NUL is written before a write fails. -/
def NulPath (outcome : Nat → WriteOutcome) : Nat → List FileSpec → Prop :=
  Reaches (fun n => outcome n = .done) fun f => f.path.hasNul = true

/-- A managed directory whose path has a NUL is listed before a listing fails. -/
def NulDirectory (fails : Nat → Bool) (paths : ResolvedPaths) : Prop :=
  Reaches (fun n => fails n = false) (fun m => m.1.hasNul = true) 0 (managedPaths paths)

/-- The call writes all its files and deletes all stale ones. -/
structure Completes (env : ApplyEnv) (plan : ApplyPlan) : Prop where
  writes : ∀ k f, plan.files[k]? = some f → ¬WriteFails env.writes k f
  policy : env.policyFails = false
  unlinks : ∀ k < plan.stale.length, env.unlinkFails k = false

/-- `resolve` raises what neither clause names. -/
def Unresolvable (env : ApplyEnv) (p : PosixPath) : Prop := (env.resolve p).FailsWith Uncaught

/-- So it cannot be told whether the path is in the directory. -/
def Unplaced (env : ApplyEnv) (dir p : PosixPath) : Prop :=
  Unresolvable env p ∨ (∃ q, env.resolve p = .ok q) ∧ Unresolvable env dir

/-- The reload step raises what neither clause names: over a touched path, over one
of BIRD's own files, or in a command. -/
inductive ReloadStops (env : ApplyEnv) (paths : ResolvedPaths) (touched : List PosixPath) :
    Prop where
  | networkd {before after : List PosixPath} {p : PosixPath}
      (htouched : touched = before ++ p :: after)
      (hbefore : ∀ q ∈ before, under env.resolve q paths.networkdDir = .ok false)
      (hp : Unplaced env paths.networkdDir p)
  | birdFile {networkctl : Bool} {before after : List PosixPath} {f : PosixPath}
      (hnetworkd : (touched.anyM fun p => under env.resolve p paths.networkdDir) = .ok networkctl)
      (hfiles : paths.birdFiles = before ++ f :: after)
      (hbefore : ∀ g ∈ before, g.isAbsolute = true → ∃ q, env.resolve g = .ok q)
      (habs : f.isAbsolute = true) (hf : Unresolvable env f)
  | peers {networkctl : Bool} {targets before after : List PosixPath} {p : PosixPath}
      (hnetworkd : (touched.anyM fun p => under env.resolve p paths.networkdDir) = .ok networkctl)
      (htargets : birdTargets env.resolve paths.birdFiles = .ok targets)
      (htouched : touched = before ++ p :: after)
      (hbefore : ∀ q ∈ before, under env.resolve q paths.birdPeersDir = .ok false ∧ q ∉ targets)
      (hp : Unplaced env paths.birdPeersDir p)
  | command {before after : List ReloadCommand} {cmd : ReloadCommand}
      (hplan : env.planned paths touched = .ok (before ++ cmd :: after))
      (hbefore : ∀ c ∈ before, ∃ failure, env.runner c = .ok failure)
      (hcmd : (env.runner cmd).FailsWith Uncaught)

/-- `apply` raises what neither clause names. -/
inductive ApplyStops (env : ApplyEnv) (policy : ReloadPolicy) (payload : JsonObject)
    (configPath : PosixPath) (disk : Disk) : Prop where
  | render {e : PyError} (h : rendered env payload configPath disk = .error e)
  | list {files : List FileSpec} {warnings : List Msg}
      (h : rendered env payload configPath disk = .ok (files, warnings))
      (hdir : NulDirectory env.listFails
        (resolvePaths (localConfig env.toml configPath disk) configPath))
  | compare {files : List FileSpec} {warnings : List Msg}
      (h : rendered env payload configPath disk = .ok (files, warnings))
      (hlist : Lists env.listFails
        (resolvePaths (localConfig env.toml configPath disk) configPath))
      (hfile : Undecodable env.diffFails disk 0 files)
  | write {plan : ApplyPlan} (hplan : planApply env payload configPath disk = .ok plan)
      (hfile : NulPath env.writes 0 plan.files)
  | reload {plan : ApplyPlan} (hplan : planApply env payload configPath disk = .ok plan)
      (hdone : Completes env plan) (hpolicy : policy ≠ .never)
      (hstops : ReloadStops env plan.paths (touchedPaths plan.diffs plan.stale))

theorem caught_osError : Caught (pyError .osError) := .inr rfl

theorem not_uncaught_osError : ¬Uncaught (pyError .osError) := fun h => h caught_osError

theorem uncaught_valueError : Uncaught (pyError .valueError) :=
  uncaught_of (by decide) (by decide)

/-- A comparison: a file that is not UTF-8. -/
theorem diffOf_fails_iff {f : FileSpec} :
    (diffOf disk f).FailsWith Uncaught ↔ ∃ bytes, disk.read f.path = some (.bytes bytes) := by
  unfold diffOf
  cases disk.read f.path with
  | none => simp
  | some old =>
      cases old with
      | bytes b => simpa [Content.readText] using uncaught_valueError
      | text s =>
          simp only [Content.readText]
          split
          · simp
          · simp

/-- A diff that fails, fails past the session's `except`. -/
theorem diffOf_error {f : FileSpec} {e : PyError} (h : diffOf disk f = .error e) :
    (diffOf disk f).FailsWith Uncaught := by
  refine ⟨e, h, ?_⟩
  unfold diffOf at h
  split at h
  · cases h
  · split at h
    · cases h
      exact uncaught_valueError
    · split at h
      · cases h
      · cases h

/-- The comparisons. -/
theorem diffAll_fails_iff {fails : Nat → Bool} {i : Nat} {files : List FileSpec} :
    (diffAll fails disk i files).FailsWith Uncaught ↔ Undecodable fails disk i files := by
  induction files generalizing i with
  | nil =>
      constructor
      · exact fun h => absurd h Except.failsWith_ok
      · exact fun h => absurd h reaches_nil
  | cons f fs ih =>
      rw [Undecodable, reaches_cons, ← Undecodable, ← ih, ← diffOf_fails_iff, diffAll]
      cases fails i with
      | true => simpa using not_uncaught_osError
      | false =>
          simp only [Bool.false_eq_true, if_false, true_and]
          rw [Except.failsWith_bind]
          cases hdiff : diffOf disk f with
          | error e =>
              have hfails := hdiff ▸ diffOf_error hdiff
              exact ⟨fun _ => .inl hfails, fun _ => .inl hfails⟩
          | ok d =>
              simp only [Except.failsWith_ok, false_or, Except.ok.injEq, exists_eq_left']
              rw [Except.failsWith_bind]
              simp

/-- A write: a path with a NUL, where nothing outside stops it. -/
theorem atomicWrite_fails_iff {outcome : WriteOutcome} {f : FileSpec} :
    (atomicWrite outcome f).FailsWith Uncaught disk ↔
      outcome = .done ∧ f.path.hasNul = true := by
  cases outcome with
  | refused => simpa [atomicWrite, Prog.failsWith_raise] using not_uncaught_osError
  | torn left =>
      have hraise : (atomicWrite (.torn left) f).run disk =
          (.error (pyError .osError), disk.write f.path left) := rfl
      simpa [Prog.FailsWith, hraise] using not_uncaught_osError
  | done =>
      unfold atomicWrite
      by_cases hnul : f.path.hasNul = true
      · simpa [hnul, Prog.failsWith_raise] using uncaught_valueError
      · have hwrite : (Prog.write (Disk.write f.path (.text f.content)) : DiskTx Unit).run disk =
            (.ok (), disk.write f.path (.text f.content)) := rfl
        simp [hnul, Prog.FailsWith, hwrite]

/-- A calm write to a path without NUL leaves the content at the path. -/
theorem run_atomicWrite_done {f : FileSpec} (hnul : f.path.hasNul = false) :
    (atomicWrite .done f).run disk = (.ok (), disk.write f.path (.text f.content)) := by
  rw [atomicWrite, if_neg (by simp [hnul])]
  rfl

/-- The writes. -/
theorem writeFiles_fails_iff {outcome : Nat → WriteOutcome} {i : Nat} {files : List FileSpec} :
    (writeFiles outcome i files).FailsWith Uncaught disk ↔ NulPath outcome i files := by
  induction files generalizing i disk with
  | nil =>
      constructor
      · exact fun h => absurd h Except.failsWith_ok
      · exact fun h => absurd h reaches_nil
  | cons f fs ih =>
      rw [NulPath, reaches_cons, ← NulPath, writeFiles, Prog.failsWith_bind, atomicWrite_fails_iff]
      have hrest : ∀ disk', (writeFiles outcome (i + 1) fs >>= fun written =>
          (pure (f.path :: written) : DiskTx (List PosixPath))).FailsWith Uncaught disk' ↔
            NulPath outcome (i + 1) fs := by
        intro disk'
        rw [Prog.failsWith_bind, ih, or_iff_left]
        rintro ⟨written, s, _, h⟩
        exact Prog.not_failsWith_pure h
      simp only [hrest]
      constructor
      · rintro (⟨hdone, hnul⟩ | ⟨u, disk', hwrite, hfails⟩)
        · exact ⟨hdone, .inl hnul⟩
        · refine ⟨?_, .inr hfails⟩
          cases hout : outcome i with
          | refused =>
              rw [hout] at hwrite
              cases hwrite
          | torn left =>
              rw [hout] at hwrite
              cases hwrite
          | done => rfl
      · rintro ⟨hdone, h⟩
        cases hnul : f.path.hasNul with
        | true => exact .inl ⟨hdone, rfl⟩
        | false =>
            have hfails := h.resolve_left (by simp [hnul])
            rw [hdone]
            exact .inr ⟨(), _, run_atomicWrite_done hnul, hfails⟩

/-- An unlink raises only what the session catches. -/
theorem errorsIn_unlinkFiles (fails : Nat → Bool) (i : Nat) (ps : List PosixPath) :
    (unlinkFiles fails i ps).ErrorsIn Caught := by
  induction ps generalizing i with
  | nil => exact .pure _
  | cons p ps ih =>
      unfold unlinkFiles
      refine .bind ?_ fun _ => .bind (ih _) fun _ => .pure _
      unfold unlinkStale
      split
      · exact .raise caught_osError
      · refine .bind (.read _) fun found => ?_
        split
        · exact .bind (.write _) fun _ => .pure _
        · exact .pure _

/-- The listings. -/
theorem collectStaleFrom_fails_iff {fails : Nat → Bool} {expected : List PosixPath} {i : Nat}
    {ms : List (PosixPath × List (Str × Str))} :
    (collectStaleFrom fails expected disk i ms).FailsWith Uncaught ↔
      Reaches (fun n => fails n = false) (fun m => m.1.hasNul = true) i ms := by
  induction ms generalizing i with
  | nil =>
      constructor
      · exact fun h => absurd h Except.failsWith_ok
      · exact fun h => absurd h reaches_nil
  | cons m ms ih =>
      rw [reaches_cons, ← ih, collectStaleFrom]
      cases fails i with
      | true => simpa using not_uncaught_osError
      | false =>
          cases hnul : m.1.hasNul with
          | true => simpa using uncaught_valueError
          | false =>
              simp only [Bool.false_eq_true, if_false, true_and, false_or]
              rw [Except.failsWith_bind]
              simp

/-- `_under` lets out nothing but what `resolve` raises. -/
theorem under_fails_iff {dir p : PosixPath} :
    (under env.resolve p dir).FailsWith Uncaught ↔ Unplaced env dir p := by
  constructor
  · rintro ⟨e, h, hun⟩
    obtain ⟨hp | ⟨q, hp, hdir⟩, -⟩ := under_eq_error.mp h
    · exact .inl ⟨e, hp, hun⟩
    · exact .inr ⟨⟨q, hp⟩, e, hdir, hun⟩
  · have hcls : ∀ {e : PyError}, Uncaught e → e.cls ≠ .osError := fun hun h => hun (.inr h)
    rintro (⟨e, hp, hun⟩ | ⟨⟨q, hp⟩, e, hdir, hun⟩)
    · exact ⟨e, under_eq_error.mpr ⟨.inl hp, hcls hun⟩, hun⟩
    · exact ⟨e, under_eq_error.mpr ⟨.inr ⟨q, hp, hdir⟩, hcls hun⟩, hun⟩

/-- The search for a touched file of `networkd_dir`. -/
theorem networkd_fails_iff {paths : ResolvedPaths} {touched : List PosixPath} :
    (touched.anyM fun p => under env.resolve p paths.networkdDir).FailsWith Uncaught ↔
      ∃ before p after, touched = before ++ p :: after ∧
        (∀ q ∈ before, under env.resolve q paths.networkdDir = .ok false) ∧
        Unplaced env paths.networkdDir p := by
  rw [Except.anyM_failsWith_iff]
  simp only [Except.FirstFails, under_fails_iff, exists_eq_right]

/-- The absolute paths of BIRD's own files. -/
theorem birdTargets_fails_iff {paths : ResolvedPaths} :
    (birdTargets env.resolve paths.birdFiles).FailsWith Uncaught ↔
      ∃ before f after, paths.birdFiles = before ++ f :: after ∧
        (∀ g ∈ before, g.isAbsolute = true → ∃ q, env.resolve g = .ok q) ∧
        f.isAbsolute = true ∧ Unresolvable env f := by
  have hreturns : ∀ g : PosixPath, (∃ q, (if g.isAbsolute then env.resolve g else pure g :
      Except PyError PosixPath) = .ok q ∧ True) ↔
        (g.isAbsolute = true → ∃ q, env.resolve g = .ok q) := by
    intro g
    cases g.isAbsolute with
    | true => simp
    | false => simp [pure, Except.pure]
  have hfails : ∀ f : PosixPath, (if f.isAbsolute then env.resolve f else pure f :
      Except PyError PosixPath).FailsWith Uncaught ↔
        f.isAbsolute = true ∧ Unresolvable env f := by
    intro f
    cases f.isAbsolute with
    | true => simp [Unresolvable]
    | false => simp
  rw [birdTargets, Except.mapM_failsWith_iff]
  simp only [Except.FirstFails, hreturns, hfails]

/-- The search for a touched file of BIRD's. -/
theorem bird_fails_iff {dir : PosixPath} {targets touched : List PosixPath} :
    (touched.anyM fun p => do
        let below ← under env.resolve p dir
        pure (below || targets.contains p)).FailsWith Uncaught ↔
      ∃ before p after, touched = before ++ p :: after ∧
        (∀ q ∈ before, under env.resolve q dir = .ok false ∧ q ∉ targets) ∧
        Unplaced env dir p := by
  have hpast : ∀ q, (∃ found, (do
      let below ← under env.resolve q dir
      pure (below || targets.contains q)) = Except.ok found ∧ found = false) ↔
        under env.resolve q dir = .ok false ∧ q ∉ targets := by
    intro q
    cases hunder : under env.resolve q dir with
    | error e =>
        constructor
        · rintro ⟨_, h, _⟩
          cases h
        · rintro ⟨h, _⟩
          cases h
    | ok below =>
        have hbind : ((Except.ok below : Except PyError Bool) >>= fun below =>
            pure (below || targets.contains q)) = .ok (below || targets.contains q) := rfl
        rw [hbind]
        simp
  have hfails : ∀ p, (do
      let below ← under env.resolve p dir
      pure (below || targets.contains p)).FailsWith Uncaught ↔ Unplaced env dir p := by
    intro p
    rw [Except.failsWith_bind, under_fails_iff]
    simp
  rw [Except.anyM_failsWith_iff]
  simp only [Except.FirstFails, hpast, hfails]

/-- The commands, one after the other. -/
theorem runReloads_fails_iff {cmds : List ReloadCommand} :
    (runReloads env.runner cmds).FailsWith Uncaught ↔
      Except.FirstFails Uncaught (fun _ => True) env.runner cmds := by
  induction cmds with
  | nil => exact ⟨fun h => absurd h Except.failsWith_ok, fun h => absurd h Except.firstFails_nil⟩
  | cons cmd cmds ih =>
      rw [runReloads, Except.failsWith_bind, Except.firstFails_cons, ← ih]
      apply or_congr_right
      simp only [Except.failsWith_bind, Except.failsWith_pure, and_false, exists_false, or_false,
        and_true]
      exact exists_and_right

/-- What the reload step lets out. -/
theorem reloadStep_fails_iff {paths : ResolvedPaths} {policy : ReloadPolicy}
    {touched : List PosixPath} :
    (reloadStep env paths false policy touched).FailsWith Uncaught ↔
      policy ≠ .never ∧ ReloadStops env paths touched := by
  unfold reloadStep
  by_cases hnever : policy = .never
  · simp [hnever]
  rw [if_neg (by simpa using hnever), reload, Except.failsWith_bind]
  have hcmds : (∃ cmds, env.planned paths touched = .ok cmds ∧
      (runReloads env.runner cmds).FailsWith Uncaught) ↔
        ∃ before cmd after, env.planned paths touched = .ok (before ++ cmd :: after) ∧
          (∀ c ∈ before, ∃ failure, env.runner c = .ok failure) ∧
          (env.runner cmd).FailsWith Uncaught := by
    simp only [runReloads_fails_iff, Except.FirstFails, and_true]
    constructor
    · rintro ⟨_, hplan, before, cmd, after, rfl, hbefore, hcmd⟩
      exact ⟨before, cmd, after, hplan, hbefore, hcmd⟩
    · rintro ⟨before, cmd, after, hplan, hbefore, hcmd⟩
      exact ⟨_, hplan, before, cmd, after, rfl, hbefore, hcmd⟩
  have hplanned : (env.planned paths touched).FailsWith Uncaught ↔
      (touched.anyM fun p => under env.resolve p paths.networkdDir).FailsWith Uncaught ∨
        ∃ networkctl, (touched.anyM fun p => under env.resolve p paths.networkdDir) =
            .ok networkctl ∧
          ((birdTargets env.resolve paths.birdFiles).FailsWith Uncaught ∨
            ∃ targets, birdTargets env.resolve paths.birdFiles = .ok targets ∧
              (touched.anyM fun p => do
                let below ← under env.resolve p paths.birdPeersDir
                pure (below || targets.contains p)).FailsWith Uncaught) := by
    unfold ApplyEnv.planned planReloads
    simp only [Except.failsWith_bind, Except.failsWith_pure, and_false, exists_false, or_false]
  have hgoal := or_congr hplanned hcmds
  refine hgoal.trans ?_
  rw [networkd_fails_iff, birdTargets_fails_iff]
  simp only [bird_fails_iff]
  constructor
  · rintro ((⟨before, p, after, htouched, hbefore, hp⟩ |
      ⟨networkctl, hnetworkd, ⟨before, f, after, hfiles, hbefore, habs, hf⟩ |
        ⟨targets, htargets, before, p, after, htouched, hbefore, hp⟩⟩) |
      ⟨before, cmd, after, hplan, hbefore, hcmd⟩)
    · exact ⟨hnever, .networkd htouched hbefore hp⟩
    · exact ⟨hnever, .birdFile hnetworkd hfiles hbefore habs hf⟩
    · exact ⟨hnever, .peers hnetworkd htargets htouched hbefore hp⟩
    · exact ⟨hnever, .command hplan hbefore hcmd⟩
  · rintro ⟨-, hstops⟩
    cases hstops with
    | networkd htouched hbefore hp => exact .inl (.inl ⟨_, _, _, htouched, hbefore, hp⟩)
    | birdFile hnetworkd hfiles hbefore habs hf =>
        exact .inl (.inr ⟨_, hnetworkd, .inl ⟨_, _, _, hfiles, hbefore, habs, hf⟩⟩)
    | peers hnetworkd htargets htouched hbefore hp =>
        exact .inl (.inr ⟨_, hnetworkd, .inr ⟨_, htargets, _, _, _, htouched, hbefore, hp⟩⟩)
    | command hplan hbefore hcmd => exact .inr ⟨_, _, _, hplan, hbefore, hcmd⟩

/-- When executing a plan ends the session. -/
theorem execute_fails_iff {payload : JsonObject} {plan : ApplyPlan} {revision : Str}
    {policy : ReloadPolicy} (hplan : planApply env payload configPath disk = .ok plan) :
    (execute env plan revision false policy).FailsWith Uncaught disk ↔
      NulPath env.writes 0 plan.files ∨
        Completes env plan ∧ policy ≠ .never ∧
          ReloadStops env plan.paths (touchedPaths plan.diffs plan.stale) := by
  rw [← reloadStep_fails_iff]
  have hraised : ∀ {e disk'}, Interrupted env plan false policy disk e disk' → Uncaught e →
      (execute env plan revision false policy).FailsWith Uncaught disk := by
    intro e disk' h hun
    exact ⟨e, congrArg Prod.fst (execute_error_iff.mpr h), hun⟩
  constructor
  · rintro ⟨e, hrun, hun⟩
    have hstops : Interrupted env plan false policy disk e _ :=
      execute_error_iff.mp (Prod.ext hrun rfl)
    cases hstops with
    | write hwrite =>
        exact .inl (writeFiles_fails_iff.mp ⟨e, congrArg Prod.fst hwrite, hun⟩)
    | policy _ _ he => exact absurd (he ▸ hun) not_uncaught_osError
    | unlink _ _ hunlink =>
        have hcaught := errorsIn_unlinkFiles env.unlinkFails 0 plan.stale _ e
          (congrArg Prod.fst hunlink)
        exact absurd hcaught hun
    | reload hwrite hpolicy hunlink hraises =>
        refine .inr ⟨⟨fun k f hk => ?_, hpolicy, fun k hk => ?_⟩, e, ?_, hun⟩
        · simpa using writeFiles_done hwrite hk
        · simpa using unlinkFiles_done hunlink hk
        · rw [(writeFiles_ok hwrite).2] at hunlink
          rwa [deleted_eq hplan hunlink] at hraises
  · rintro (hnul | ⟨hdone, e, hraises, hun⟩)
    · obtain ⟨e, hrun, hun⟩ := writeFiles_fails_iff.mpr hnul
      exact hraised (.write (Prod.ext hrun rfl)) hun
    · have hwrite := writeFiles_run (i := 0) (by simpa using hdone.writes) disk
      obtain ⟨deleted, disk', hunlink⟩ := unlinkFiles_returns (i := 0)
        (by simpa using hdone.unlinks) (disk.writeAll (writesOf plan.files))
      rw [← deleted_eq hplan hunlink] at hraises
      exact hraised (.reload hwrite hdone.policy hunlink hraises) hun

/-- When planning does: the state does not render, or the disk cannot be looked at. -/
theorem planApply_fails_iff (env : ApplyEnv) (configPath : PosixPath) (disk : Disk)
    (payload : JsonObject) :
    (planApply env payload configPath disk).FailsWith Uncaught ↔
      (∃ e, rendered env payload configPath disk = .error e) ∨
        ∃ files warnings, rendered env payload configPath disk = .ok (files, warnings) ∧
          (NulDirectory env.listFails
              (resolvePaths (localConfig env.toml configPath disk) configPath) ∨
            Lists env.listFails
              (resolvePaths (localConfig env.toml configPath disk) configPath) ∧
              Undecodable env.diffFails disk 0 files) := by
  unfold planApply
  simp only
  rw [Except.failsWith_bind]
  apply or_congr
  · constructor
    · rintro ⟨e, h, _⟩
      exact ⟨e, h⟩
    · rintro ⟨e, h⟩
      exact ⟨e, h, errorsIn_renderDesired _ _ _ _ e h⟩
  · simp only [Except.failsWith_bind, collectStale, collectStaleFrom_fails_iff,
      diffAll_fails_iff, Except.failsWith_pure, and_false, exists_false, or_false]
    constructor
    · rintro ⟨⟨files, warnings⟩, h, hdir | ⟨stale, hstale, hfile⟩⟩
      · exact ⟨files, warnings, h, .inl hdir⟩
      · exact ⟨files, warnings, h, .inr ⟨(collectStale_eq_ok.mp hstale).1, hfile⟩⟩
    · rintro ⟨files, warnings, h, hdir | ⟨hlist, hfile⟩⟩
      · exact ⟨(files, warnings), h, .inl hdir⟩
      · exact ⟨(files, warnings), h, .inr ⟨_, collectStale_eq_ok.mpr ⟨hlist, rfl⟩, hfile⟩⟩

/-- **When `apply` raises something else.** -/
theorem apply_fails_iff {cached : PullResult} {policy : ReloadPolicy} :
    (apply env (some cached) configPath false false policy).FailsWith Uncaught disk ↔
      ApplyStops env policy cached.payload configPath disk := by
  have hplanned := planApply_fails_iff env configPath disk cached.payload
  cases hplan : planApply env cached.payload configPath disk with
  | error e =>
      rw [hplan, Except.failsWith_error] at hplanned
      rw [Prog.FailsWith, run_apply_of_error hplan, Except.failsWith_error, hplanned]
      constructor
      · rintro (⟨e, h⟩ | ⟨files, warnings, h, hdir | ⟨hlist, hfile⟩⟩)
        · exact .render h
        · exact .list h hdir
        · exact .compare h hlist hfile
      · intro h
        cases h with
        | render h => exact .inl ⟨_, h⟩
        | list h hdir => exact .inr ⟨_, _, h, .inl hdir⟩
        | compare h hlist hfile => exact .inr ⟨_, _, h, .inr ⟨hlist, hfile⟩⟩
        | write hok =>
            rw [hplan] at hok
            cases hok
        | reload hok =>
            rw [hplan] at hok
            cases hok
  | ok plan =>
      -- the call got past the rendering, the listings and the comparisons
      have hpast : ¬(planApply env cached.payload configPath disk).FailsWith Uncaught := by
        rw [hplan]
        exact Except.failsWith_ok
      rw [planApply_fails_iff] at hpast
      rw [Prog.FailsWith, run_apply_of_plan hplan, if_neg (by decide), ← Prog.FailsWith,
        execute_fails_iff hplan]
      constructor
      · rintro (hfile | ⟨hdone, hpolicy, hstops⟩)
        · exact .write hplan hfile
        · exact .reload hplan hdone hpolicy hstops
      · intro h
        cases h with
        | render h => exact absurd (.inl ⟨_, h⟩) hpast
        | list h hdir => exact absurd (.inr ⟨_, _, h, .inl hdir⟩) hpast
        | compare h hlist hfile => exact absurd (.inr ⟨_, _, h, .inr ⟨hlist, hfile⟩⟩) hpast
        | write hok hfile =>
            cases hplan.symm.trans hok
            exact .inl hfile
        | reload hok hdone hpolicy hstops =>
            cases hplan.symm.trans hok
            exact .inr ⟨hdone, hpolicy, hstops⟩

end Apply

/-! ## a push -/

/-- What neither clause of the agent names. -/
def AgentError.Uncaught (e : AgentError) : Prop := ¬e.Caught

section Push

variable {setup : Setup} {env : AgentEnv} {desired : JsonObject} {s s' : Files}

/-- The object has a revision. -/
def HasRevision (desired : JsonObject) (revision : Str) : Prop :=
  Json.lookup (lit "revision") desired = some (.str revision) ∧ revision ≠ []

/-- The state is stored as the row. -/
structure Stores (setup : Setup) (env : AgentEnv) (desired : JsonObject) (row : CacheRow) :
    Prop where
  revision : HasRevision desired row.revision
  calm : env.storeFails = none
  dumps : setup.json.dumps desired = .ok row.payloadJson
  encodable : (encodable row.revision && encodable row.payloadJson) = true

/-- Storing raises what neither clause names. -/
inductive StoreStops (setup : Setup) (env : AgentEnv) (desired : JsonObject) : Prop where
  | sqlite {revision : Str} (h : HasRevision desired revision)
      (hfails : env.storeFails = some .sqliteError)
  | dumps {revision : Str} {e : JsonFailure} (h : HasRevision desired revision)
      (hcalm : env.storeFails = none) (hdumps : setup.json.dumps desired = .error e)
  | encode {revision raw : Str} (h : HasRevision desired revision) (hcalm : env.storeFails = none)
      (hdumps : setup.json.dumps desired = .ok raw)
      (hencode : (encodable revision && encodable raw) = false)

/-- A state has one revision at most. -/
theorem HasRevision.unique {r r' : Str} (h : HasRevision desired r) (h' : HasRevision desired r') :
    r = r' := by
  have heq := h.1.symm.trans h'.1
  simpa using heq

/-- With a revision, storing the state is storing its row. -/
theorem storeDesired_of_revision {revision : Str} (h : HasRevision desired revision) :
    storeDesired setup env desired = storeRow setup env revision desired := by
  rw [storeDesired, h.1]
  simp only
  rw [if_neg (by simpa using h.2)]

/-- A state without a revision is refused. -/
theorem storeDesired_of_none (h : ∀ revision, ¬HasRevision desired revision) :
    storeDesired setup env desired = Prog.raise missingRevision := by
  unfold storeDesired
  split
  · next revision hlookup =>
      have hempty : revision.isEmpty = true := by
        by_contra hne
        exact h revision ⟨hlookup, by simpa using hne⟩
      rw [if_pos hempty]
  · rfl

theorem caught_missingRevision : missingRevision.Caught := .inl rfl

theorem run_dumps {raw : Str} (h : setup.json.dumps desired = .ok raw) (s : Files) :
    (Prog.lift ((setup.json.dumps desired).mapError .json) : AgentTx Str).run s = (.ok raw, s) := by
  rw [Prog.run_lift, h]
  rfl

/-- The state is stored. -/
theorem storeDesired_stores {row : CacheRow} (h : Stores setup env desired row) (s : Files) :
    (storeDesired setup env desired).run s = (.ok (), { s with cache := some row }) := by
  rw [storeDesired_of_revision h.revision, storeRow, h.calm]
  simp only
  rw [Prog.run_bind_ok (run_dumps h.dumps s), if_pos h.encodable]
  rfl

/-- A faulty disk ends the store with its fault. -/
theorem run_storeRow_fault {revision : Str} {fault : CacheFault}
    (h : env.storeFails = some fault) (s : Files) :
    (storeRow setup env revision desired).run s = (.error fault.error, s) := by
  rw [storeRow, h]
  rfl

/-- A state without a text ends it in the encoder. -/
theorem run_storeRow_dumps {revision : Str} {e : JsonFailure} (hcalm : env.storeFails = none)
    (h : setup.json.dumps desired = .error e) (s : Files) :
    (storeRow setup env revision desired).run s = (.error (.json e), s) := by
  rw [storeRow, hcalm, h]
  rfl

/-- A text SQLite cannot bind ends it in the statement. -/
theorem run_storeRow_encode {revision raw : Str} (hcalm : env.storeFails = none)
    (hdumps : setup.json.dumps desired = .ok raw)
    (h : (encodable revision && encodable raw) = false) (s : Files) :
    (storeRow setup env revision desired).run s = (.error .unicodeEncodeError, s) := by
  rw [storeRow, hcalm]
  simp only
  rw [Prog.run_bind_ok (run_dumps hdumps s), h]
  rfl

/-- What storing can do. -/
theorem storeDesired_cases (setup : Setup) (env : AgentEnv) (desired : JsonObject) (s : Files) :
    (∃ row, Stores setup env desired row) ∨
      ∃ e, (storeDesired setup env desired).run s = (.error e, s) ∧
        (e.Uncaught ↔ StoreStops setup env desired) := by
  by_cases hrev : ∃ revision, HasRevision desired revision
  · obtain ⟨revision, hrev⟩ := hrev
    rw [storeDesired_of_revision hrev]
    cases hfails : env.storeFails with
    | some fault =>
        refine .inr ⟨fault.error, run_storeRow_fault hfails s, ?_⟩
        cases fault with
        | osError =>
            refine ⟨fun h => absurd caught_osError h, fun h => ?_⟩
            cases h with
            | sqlite _ h => simp [hfails] at h
            | dumps _ h => simp [hfails] at h
            | encode _ h => simp [hfails] at h
        | sqliteError => exact ⟨fun _ => .sqlite hrev hfails, fun _ h => h⟩
    | none =>
        cases hdumps : setup.json.dumps desired with
        | error e =>
            exact .inr ⟨_, run_storeRow_dumps hfails hdumps s,
              fun _ => .dumps hrev hfails hdumps, fun _ h => h⟩
        | ok raw =>
            cases hencode : encodable revision && encodable raw with
            | true => exact .inl ⟨⟨revision, raw⟩, hrev, hfails, hdumps, hencode⟩
            | false =>
                exact .inr ⟨_, run_storeRow_encode hfails hdumps hencode s,
                  fun _ => .encode hrev hfails hdumps hencode, fun _ h => h⟩
  · have hnone : ∀ revision, ¬HasRevision desired revision := fun r h => hrev ⟨r, h⟩
    rw [storeDesired_of_none hnone]
    refine .inr ⟨_, rfl, fun h => absurd caught_missingRevision h, fun h => ?_⟩
    cases h with
    | sqlite h => exact absurd h (hnone _)
    | dumps h => exact absurd h (hnone _)
    | encode h => exact absurd h (hnone _)

/-- A store that stops has stored nothing. -/
theorem storeStops_not_stores {row : CacheRow} (h : Stores setup env desired row) :
    ¬StoreStops setup env desired := by
  intro hstops
  cases hstops with
  | sqlite _ hfails => simp [h.calm] at hfails
  | dumps _ _ hdumps => simp [h.dumps] at hdumps
  | encode hrev _ hdumps hencode =>
      rw [h.dumps, Except.ok.injEq] at hdumps
      rw [← h.revision.unique hrev, ← hdumps, h.encodable] at hencode
      cases hencode

/-- A disk step fails in the agent as it does on the disk. -/
theorem onFiles_fails_iff {α : Type} {m : DiskTx α} :
    (onFiles m).FailsWith AgentError.Uncaught s ↔ m.FailsWith Uncaught s.disk := by
  have hrun : ((onFiles m).run s).1 = (m.run s.disk).1.mapError .service := rfl
  rw [Prog.FailsWith, Prog.FailsWith, hrun]
  cases (m.run s.disk).1 with
  | error e => simp [Except.mapError, AgentError.Uncaught, Uncaught, AgentError.Caught]
  | ok a => simp [Except.mapError]

/-- The handlers of the agent do not raise. -/
theorem catchingCaught_fails_iff {α : Type} {m : AgentTx α} {f : AgentError → α} :
    (catchingCaught m fun e => pure (f e)).FailsWith (fun _ => True) s ↔
      m.FailsWith AgentError.Uncaught s := by
  rw [Prog.FailsWith, catchingCaught, Prog.run_catching, Prog.FailsWith]
  cases hrun : m.run s with
  | mk r s' =>
      cases r with
      | ok a => simp
      | error e =>
          by_cases hcaught : e.Caught
          · have hpure : ((if e.Caught then pure (f e) else Prog.raise e : AgentTx α).run s').1 =
                .ok (f e) := by
              rw [if_pos hcaught]
              rfl
            simp [AgentError.Uncaught, hcaught]
          · have hraise : ((if e.Caught then pure (f e) else Prog.raise e : AgentTx α).run s').1 =
                .error e := by
              rw [if_neg hcaught]
              rfl
            simp [AgentError.Uncaught, hcaught]

/-- A cached object that is read. -/
theorem readCache_some {row : CacheRow} {payload : Json} (hread : env.readFails = false)
    (hcache : s.cache = some row) (hloads : setup.json.loads row.payloadJson = .ok payload) :
    (readCache setup env).run s = (.ok (some (row.revision, payload)), s) := by
  have hlift : (Prog.lift ((setup.json.loads row.payloadJson).mapError .json) :
      AgentTx Json).run s = (.ok payload, s) := by
    rw [Prog.run_lift, hloads]
    rfl
  rw [readCache, Prog.run_bind_ok (Prog.run_read _ _), hcache]
  simp only [hread, Bool.false_eq_true, if_false]
  rw [Prog.run_bind_ok hlift]
  rfl

/-- A cache that cannot be read ends the retry with SQLite's error. -/
theorem readCache_fails {row : CacheRow} (hread : env.readFails = true)
    (hcache : s.cache = some row) : (readCache setup env).run s = (.error .sqliteError, s) := by
  rw [readCache, Prog.run_bind_ok (Prog.run_read _ _), hcache]
  simp only [hread, if_true]
  rfl

/-- When the retry from the cache ends the session. -/
theorem applyCached_fails_iff {row : CacheRow} (hcache : s.cache = some row)
    (hloads : setup.json.loads row.payloadJson = .ok (.dict desired)) :
    (applyCached setup env).FailsWith AgentError.Uncaught s ↔
      env.readFails = true ∨ env.readFails = false ∧
        ApplyStops env.apply setup.reloadPolicy desired setup.configPath s.disk := by
  rw [applyCached, Prog.failsWith_bind]
  cases hread : env.readFails with
  | true =>
      have hfails : (readCache setup env).run s = (.error .sqliteError, s) :=
        readCache_fails hread hcache
      simp [Prog.FailsWith, hfails, AgentError.Uncaught, AgentError.Caught]
  | false =>
      have hok := readCache_some hread hcache hloads
      rw [hok]
      simp only [Prog.FailsWith, hok, Except.failsWith_ok, false_or, Prod.mk.injEq,
        Except.ok.injEq, Bool.false_eq_true, true_and]
      have hstops : (apply env.apply (some ⟨row.revision, desired⟩) setup.configPath false false
          setup.reloadPolicy).FailsWith Uncaught s.disk ↔
            ApplyStops env.apply setup.reloadPolicy desired setup.configPath s.disk :=
        apply_fails_iff
      rw [← hstops, ← onFiles_fails_iff]
      constructor
      · rintro ⟨_, _, ⟨rfl, rfl⟩, h⟩
        exact h
      · exact fun h => ⟨_, _, ⟨rfl, rfl⟩, h⟩

/-- A push ends its session. -/
inductive PushStops (setup : Setup) (env : AgentEnv) (payload : JsonObject) (disk : Disk) :
    Prop where
  | store {desired : JsonObject} (h : Json.getD (lit "desired") payload .null = .dict desired)
      (hstops : StoreStops setup env desired)
  | read {desired : JsonObject} {row : CacheRow}
      (h : Json.getD (lit "desired") payload .null = .dict desired)
      (hstores : Stores setup env desired row) (hread : env.readFails = true)
  | apply {desired : JsonObject} {row : CacheRow}
      (h : Json.getD (lit "desired") payload .null = .dict desired)
      (hstores : Stores setup env desired row) (hread : env.readFails = false)
      (hstops : ApplyStops env.apply setup.reloadPolicy desired setup.configPath disk)

/-- Store, then apply. -/
theorem storeThenApply_fails_iff {β : Type} (g : ApplyResult → β)
    (hinv : setup.json.Inverts desired) :
    (storeDesired setup env desired >>= fun _ => applyCached setup env >>= fun r =>
        (pure (g r) : AgentTx β)).FailsWith AgentError.Uncaught s ↔
      StoreStops setup env desired ∨ ∃ row, Stores setup env desired row ∧
        (env.readFails = true ∨ env.readFails = false ∧
          ApplyStops env.apply setup.reloadPolicy desired setup.configPath s.disk) := by
  rw [Prog.failsWith_bind]
  obtain ⟨row, hstores⟩ | ⟨e, hrun, huncaught⟩ := storeDesired_cases setup env desired s
  · have hrun := storeDesired_stores hstores s
    have happly : (applyCached setup env).FailsWith AgentError.Uncaught
        { s with cache := some row } ↔ env.readFails = true ∨ env.readFails = false ∧
          ApplyStops env.apply setup.reloadPolicy desired setup.configPath s.disk :=
      applyCached_fails_iff rfl (hinv _ hstores.dumps)
    have hrest : (applyCached setup env >>= fun r => (pure (g r) : AgentTx β)).FailsWith
        AgentError.Uncaught { s with cache := some row } ↔
          env.readFails = true ∨ env.readFails = false ∧
            ApplyStops env.apply setup.reloadPolicy desired setup.configPath s.disk := by
      rw [Prog.failsWith_bind, happly, or_iff_left]
      rintro ⟨r, s1, _, h⟩
      exact Prog.not_failsWith_pure h
    have hstored : ¬(storeDesired setup env desired).FailsWith AgentError.Uncaught s := by
      rw [Prog.FailsWith, hrun]
      exact Except.failsWith_ok
    rw [or_iff_right hstored, or_iff_right (storeStops_not_stores hstores), hrun]
    constructor
    · rintro ⟨u, s1, heq, h⟩
      cases heq
      exact ⟨row, hstores, hrest.mp h⟩
    · rintro ⟨_, _, h⟩
      exact ⟨(), _, rfl, hrest.mpr h⟩
  · have hnone : ¬∃ row, Stores setup env desired row := by
      rintro ⟨row, hstores⟩
      rw [storeDesired_stores hstores s] at hrun
      cases hrun
    have hfails : (storeDesired setup env desired).FailsWith AgentError.Uncaught s ↔
        StoreStops setup env desired := by
      rw [Prog.FailsWith, hrun, Except.failsWith_error, huncaught]
    rw [hfails]
    apply or_congr_right
    constructor
    · rintro ⟨u, s1, heq, _⟩
      rw [hrun] at heq
      cases heq
    · rintro ⟨row, hstores, _⟩
      exact absurd ⟨row, hstores⟩ hnone

/-- **Which pushes end their session**: the handler of a push raises if and only
if the state cannot be stored for another reason than a missing revision or an
`OSError`, or its stored form cannot be read back, or `apply` on it raises
something else than `Dn42CtlError` and `OSError`; else it answers with a report. -/
theorem push_ends_session_iff {payload : JsonObject}
    (hinv : ∀ desired, Json.getD (lit "desired") payload .null = .dict desired →
      setup.json.Inverts desired) :
    (∃ e s', (handleDesiredPush setup env payload).run s = (.error e, s')) ↔
      PushStops setup env payload s.disk := by
  have hfails : (∃ e s', (handleDesiredPush setup env payload).run s = (.error e, s')) ↔
      (handleDesiredPush setup env payload).FailsWith (fun _ => True) s := by
    constructor
    · rintro ⟨e, s', h⟩
      exact ⟨e, congrArg Prod.fst h, trivial⟩
    · rintro ⟨e, h, _⟩
      exact ⟨e, _, Prod.ext h rfl⟩
  rw [hfails]
  by_cases hdict : ∃ desired, Json.getD (lit "desired") payload .null = .dict desired
  · obtain ⟨desired, hpayload⟩ := hdict
    rw [handleDesiredPush, hpayload]
    simp only
    rw [catchingCaught_fails_iff, storeThenApply_fails_iff _ (hinv desired hpayload)]
    constructor
    · rintro (hstops | ⟨row, hstores, hread | ⟨hread, hstops⟩⟩)
      · exact .store hpayload hstops
      · exact .read hpayload hstores hread
      · exact .apply hpayload hstores hread hstops
    · intro hstops
      cases hstops with
      | store h hstops =>
          cases Json.dict.inj (hpayload.symm.trans h)
          exact .inl hstops
      | read h hstores hread =>
          cases Json.dict.inj (hpayload.symm.trans h)
          exact .inr ⟨_, hstores, .inl hread⟩
      | apply h hstores hread hstops =>
          cases Json.dict.inj (hpayload.symm.trans h)
          exact .inr ⟨_, hstores, .inr ⟨hread, hstops⟩⟩
  · have hreport : ∃ report, handleDesiredPush setup env payload = pure report := by
      unfold handleDesiredPush
      split
      · next desired hpayload => exact absurd ⟨desired, hpayload⟩ hdict
      · exact ⟨_, rfl⟩
    obtain ⟨report, hreport⟩ := hreport
    rw [hreport]
    constructor
    · exact fun h => absurd h Prog.not_failsWith_pure
    · intro hstops
      cases hstops with
      | store h _ => exact absurd ⟨_, h⟩ hdict
      | read h _ _ => exact absurd ⟨_, h⟩ hdict
      | apply h _ _ _ => exact absurd ⟨_, h⟩ hdict

end Push

/-! ### a list that is a number -/

theorem loads_knowing (doc : JsonObject) :
    (JsonLib.knowing doc).loads (jsonText (.dict doc)) = .ok (.dict doc) := by
  have hbrace : ((jsonText (.dict doc)).takeWhile (· == 91)) = [] := by
    rw [jsonText]
    rfl
  rw [JsonLib.knowing]
  dsimp only
  rw [hbrace, if_neg (by decide), if_pos rfl]

theorem inverts_knowing (doc : JsonObject) : (JsonLib.knowing doc).Inverts doc := by
  intro raw hraw
  have hsame : jsonText (.dict doc) = raw := Except.ok.inj hraw
  rw [← hsame, loads_knowing]

/-- A state whose list of BGP peers is a number. -/
def numberState : JsonObject := [(lit "revision", .str (lit "r1")), (lit "bgp_peers", .int 5)]

/-- Its push ends the session with a `TypeError`. -/
theorem number_ends_session :
    ∃ e s', (handleDesiredPush ⟨.knowing numberState, configToml, .auto⟩ ⟨calmEnv, none, false⟩
      [(lit "desired", .dict numberState)]).run ⟨[], none⟩ = (.error e, s') := by
  have hdesired : Json.getD (lit "desired") [(lit "desired", .dict numberState)] .null =
      .dict numberState := rfl
  refine (push_ends_session_iff fun desired h => ?_).mpr ?_
  · cases Json.dict.inj (hdesired.symm.trans h)
    exact inverts_knowing numberState
  · have hstores : Stores ⟨.knowing numberState, configToml, .auto⟩ ⟨calmEnv, none, false⟩
        numberState ⟨lit "r1", jsonText (.dict numberState)⟩ :=
      ⟨⟨rfl, by decide⟩, rfl, rfl, by decide +kernel⟩
    exact .apply hdesired hstores rfl (.render rfl)

end NodeAgent

end Dn42Ctl
