import Dn42Ctl.AgentDisk
import Dn42Ctl.Dispatch

/-!
# AgentRuns

The agent of a node along a run: which states of the hub it outlives.

* `agent_outlives_pushes` — a run in which the hub pushes states that render, and
  the machine keeps its files in order;
* `poisoned_agent` — a state with a BGP peer without a link-local address is
  stored before it is refused, and keeps the agent from ever connecting again.
-/

namespace Dn42Ctl

open Text WsProtocol

namespace NodeAgent

/-! ## one call -/

section Calls

variable {setup : Setup} {env : AgentEnv} {s : Files}

theorem maintains_readCache {I : Files → Prop} : (readCache setup env).Maintains I := by
  refine .bind (fun s h => h) fun row => ?_
  split
  · exact .pure _
  · split
    · exact .raise _
    · exact .bind (.lift _) fun _ => .pure _

theorem readCache_none (hcache : s.cache = none) :
    (readCache setup env).run s = (.ok none, s) := by
  rw [readCache, Prog.run_bind_ok (Prog.run_read _ _), hcache]
  rfl

theorem run_onFiles {α : Type} {m : DiskTx α} {res : Except PyError α} {disk' : Disk}
    (s : Files) (h : m.run s.disk = (res, disk')) :
    (onFiles m).run s = (res.mapError .service, { s with disk := disk' }) := by
  have hrun : (onFiles m).run s =
      ((m.run s.disk).1.mapError .service, { s with disk := (m.run s.disk).2 }) := rfl
  rw [hrun, h]

/-- `apply` on a cached object. -/
theorem run_applyCached {row : CacheRow} {desired : JsonObject} (hread : env.readFails = false)
    (hcache : s.cache = some row)
    (hloads : setup.json.loads row.payloadJson = .ok (.dict desired)) :
    (applyCached setup env).run s =
      (onFiles (apply env.apply (some ⟨row.revision, desired⟩) setup.configPath false false
        setup.reloadPolicy)).run s := by
  rw [applyCached, Prog.run_bind_ok (readCache_some hread hcache hloads)]

theorem maintains_catchingCaught {α : Type} {I : Files → Prop} {m : AgentTx α}
    {f : AgentError → α} (hm : m.Maintains I) :
    (catchingCaught m fun e => pure (f e)).Maintains I := by
  refine .catching hm fun e => ?_
  split
  · exact .pure _
  · exact .raise _

theorem maintains_storeDesired {I : Files → Prop} {desired : JsonObject}
    (hI : ∀ s row, Stores setup env desired row → I s → I { s with cache := some row }) :
    (storeDesired setup env desired).Maintains I := by
  intro s hs
  obtain ⟨row, hstores⟩ | ⟨e, hrun, -⟩ := storeDesired_cases setup env desired s
  · rw [storeDesired_stores hstores s]
    exact hI s row hstores hs
  · rw [hrun]
    exact hs

/-- A call that raises only what is caught is answered, and its files are kept. -/
theorem run_catchingCaught_of_not_fails {α : Type} {m : AgentTx α} {f : AgentError → α}
    (h : ¬m.FailsWith AgentError.Uncaught s) :
    ∃ a, (catchingCaught m fun e => pure (f e)).run s = (.ok a, (m.run s).2) := by
  rw [catchingCaught, Prog.run_catching]
  cases hrun : m.run s with
  | mk r s' =>
      cases r with
      | ok a => exact ⟨a, rfl⟩
      | error e =>
          have hcaught : e.Caught := by
            by_contra hun
            exact h ⟨e, congrArg Prod.fst hrun, hun⟩
          refine ⟨f e, ?_⟩
          simp only
          rw [if_pos hcaught]
          rfl

/-- What is done with a result changes no file. -/
theorem run_bind_pure_snd {α β : Type} (m : AgentTx α) (g : α → β) (s : Files) :
    ((m >>= fun a => (pure (g a) : AgentTx β)).run s).2 = (m.run s).2 := by
  cases hrun : m.run s with
  | mk r s' =>
      cases r with
      | ok a => rw [Prog.run_bind_ok hrun, Prog.run_pure]
      | error e => rw [Prog.run_bind_error hrun]

end Calls

/-! ## the agent along a run -/

/-- The cache holds a state that renders, or nothing. -/
def GoodCache (setup : Setup) (cache : Option CacheRow) : Prop :=
  ∀ row, cache = some row → ∃ st, Renderable st ∧
    setup.json.loads row.payloadJson = .ok (.dict (desiredPayload st))

/-- What holds along a run of fine events. -/
structure Healthy (setup : Setup) (toml : TomlLib) (s : Files) : Prop where
  disk : GoodDisk toml setup.configPath s.disk
  cache : GoodCache setup s.cache

/-- A call whose sqlite works, on a machine as `SoundApply` has it. -/
structure Sound (setup : Setup) (toml : TomlLib) (env : AgentEnv) (disk : Disk) : Prop where
  store : env.storeFails ≠ some .sqliteError
  read : env.readFails = false
  apply : SoundApply toml setup.configPath env.apply
    (pathsOf toml setup.configPath (disk.read setup.configPath))

/-- A push of a state of the hub that renders. -/
structure Pushes (setup : Setup) (payload : JsonObject) (st : DesiredState) : Prop where
  payload : payload = Dispatch.pushPayload st
  renderable : Renderable st
  encodable : encodable st.revision = true
  carries : setup.Carries (desiredPayload st)

section Runs

variable {setup : Setup} {toml : TomlLib} {env : AgentEnv} {s : Files}

theorem applyCached_survives (hs : Healthy setup toml s) (hsound : Sound setup toml env s.disk)
    {row : CacheRow} (hrow : s.cache = some row) :
    ¬(applyCached setup env).FailsWith AgentError.Uncaught s := by
  obtain ⟨st, hst, hloads⟩ := hs.cache row hrow
  rw [applyCached_fails_iff hrow hloads, hsound.read]
  rintro (h | ⟨_, hstops⟩)
  · cases h
  · exact not_applyStops hst hs.disk hsound.apply _ hstops

/-- Applying the cache, however it ends. -/
theorem healthy_applyCached (hname : ConfigName setup.configPath)
    (hkeeps : KeepsProper toml setup.configPath) (hs : Healthy setup toml s)
    (hsound : Sound setup toml env s.disk) :
    Healthy setup toml ((applyCached setup env).run s).2 := by
  cases hrow : s.cache with
  | none =>
      rw [applyCached, Prog.run_bind_ok (readCache_none hrow)]
      exact hs
  | some row =>
      obtain ⟨st, hst, hloads⟩ := hs.cache row hrow
      rw [run_applyCached hsound.read hrow hloads]
      have hdisk := goodDisk_apply hname hkeeps hst hs.disk hsound.apply row.revision false
        setup.reloadPolicy
      exact ⟨hdisk, hs.cache⟩

/-- A start from a good cache. -/
theorem applyFromCache_survives (hname : ConfigName setup.configPath)
    (hkeeps : KeepsProper toml setup.configPath) (hs : Healthy setup toml s)
    (hsound : Sound setup toml env s.disk) :
    ∃ s', (applyFromCache setup env).run s = (.ok (), s') ∧ Healthy setup toml s' := by
  cases hrow : s.cache with
  | none =>
      refine ⟨s, ?_, hs⟩
      rw [applyFromCache, Prog.run_bind_ok (readCache_none hrow)]
      rfl
  | some row =>
      obtain ⟨st, -, hloads⟩ := hs.cache row hrow
      have hfails : ¬(applyCached setup env >>= fun _ => (pure () : AgentTx Unit)).FailsWith
          AgentError.Uncaught s := by
        rw [Prog.failsWith_bind, or_iff_left]
        · exact applyCached_survives hs hsound hrow
        · rintro ⟨_, _, _, h⟩
          exact Prog.not_failsWith_pure h
      obtain ⟨u, hrun⟩ := run_catchingCaught_of_not_fails (f := fun _ => ()) hfails
      rw [run_bind_pure_snd] at hrun
      refine ⟨_, ?_, healthy_applyCached hname hkeeps hs hsound⟩
      rw [applyFromCache, Prog.run_bind_ok (readCache_some hsound.read hrow hloads),
        if_neg (by simp)]
      exact hrun

theorem desired_pushPayload (st : DesiredState) :
    Json.getD (lit "desired") (Dispatch.pushPayload st) .null = .dict (desiredPayload st) := rfl

theorem hasRevision_desiredPayload {st : DesiredState} (h : st.revision ≠ []) :
    HasRevision (desiredPayload st) st.revision := ⟨rfl, h⟩

/-- A state of the hub can be stored. -/
theorem not_storeStops (hsound : Sound setup toml env s.disk) {payload : JsonObject}
    {st : DesiredState} (hpush : Pushes setup payload st) :
    ¬StoreStops setup env (desiredPayload st) := by
  obtain ⟨raw, hdumps, hraw, -⟩ := hpush.carries
  intro hstops
  cases hstops with
  | sqlite _ hfails => exact hsound.store hfails
  | dumps _ _ herror =>
      rw [hdumps] at herror
      cases herror
  | encode hrev _ hdumps' hencode =>
      rw [hdumps, Except.ok.injEq] at hdumps'
      rw [← (hasRevision_desiredPayload hpush.renderable.revision).unique hrev, ← hdumps',
        hpush.encodable, hraw] at hencode
      cases hencode

/-- Storing a state of the hub and applying it, however they end. -/
theorem healthy_storeThenApply {β : Type} (g : ApplyResult → β)
    (hname : ConfigName setup.configPath) (hkeeps : KeepsProper toml setup.configPath)
    (hs : Healthy setup toml s) (hsound : Sound setup toml env s.disk) {payload : JsonObject}
    {st : DesiredState} (hpush : Pushes setup payload st) :
    Healthy setup toml ((storeDesired setup env (desiredPayload st) >>= fun _ =>
      applyCached setup env >>= fun r => (pure (g r) : AgentTx β)).run s).2 := by
  obtain ⟨row, hstores⟩ | ⟨e, hraises, -⟩ := storeDesired_cases setup env (desiredPayload st) s
  · -- the new state is in the cache, whatever `apply` does with it
    rw [Prog.run_bind_ok (storeDesired_stores hstores s), run_bind_pure_snd]
    have hcache : GoodCache setup (some row) := by
      intro row' hrow'
      cases hrow'
      exact ⟨st, hpush.renderable, hpush.carries.inverts _ hstores.dumps⟩
    exact healthy_applyCached hname hkeeps ⟨hs.disk, hcache⟩ hsound
  · rw [Prog.run_bind_error hraises]
    exact hs

/-- A push that renders is reported, and leaves good files. -/
theorem handleDesiredPush_survives (hname : ConfigName setup.configPath)
    (hkeeps : KeepsProper toml setup.configPath) (hs : Healthy setup toml s)
    (hsound : Sound setup toml env s.disk) {payload : JsonObject} {st : DesiredState}
    (hpush : Pushes setup payload st) :
    ∃ report s', (handleDesiredPush setup env payload).run s = (.ok report, s') ∧
      Healthy setup toml s' := by
  have hfails : ¬(storeDesired setup env (desiredPayload st) >>= fun _ =>
      applyCached setup env >>= fun r =>
        (pure (.applyResult (.of r)) : AgentTx AgentReport)).FailsWith AgentError.Uncaught s := by
    rw [storeThenApply_fails_iff _ hpush.carries.inverts]
    rintro (hstops | ⟨row, -, hread | ⟨-, hstops⟩⟩)
    · exact not_storeStops hsound hpush hstops
    · rw [hsound.read] at hread
      cases hread
    · exact not_applyStops hpush.renderable hs.disk hsound.apply _ hstops
  obtain ⟨report, hrun⟩ := run_catchingCaught_of_not_fails
    (f := fun e => AgentReport.error e.message) hfails
  have hhandled : handleDesiredPush setup env payload = catchingCaught
      (storeDesired setup env (desiredPayload st) >>= fun _ => applyCached setup env >>= fun r =>
        pure (.applyResult (.of r))) fun e => pure (.error e.message) := by
    rw [hpush.payload, handleDesiredPush, desired_pushPayload]
  rw [hhandled]
  exact ⟨report, _, hrun, healthy_storeThenApply _ hname hkeeps hs hsound hpush⟩

/-- An edit that keeps a good disk: text under a path without a NUL, and no improper
paths in `config.toml`. -/
structure FineEdit (setup : Setup) (toml : TomlLib) (path : PosixPath) (content : Content) :
    Prop where
  text : ∃ s, content = .text s
  nulFree : path.hasNul = false
  config : path = setup.configPath → Proper (pathsOf toml setup.configPath (some content))

/-- An event whose calls are sound, whose push is a state of the hub that renders,
and whose edit keeps a good disk. -/
def AgentAction.Fine (setup : Setup) (toml : TomlLib) (s : Agent) : AgentAction → Prop
  | .start env => Sound setup toml env s.disk
  | .push env payload _ => Sound setup toml env s.disk ∧ ∃ st, Pushes setup payload st
  | .edit path content => ∀ c, content = some c → FineEdit setup toml path c
  | .connect _ | .disconnect | .stop | .clearCache => True

/-- The report of the event is sent. -/
def AgentAction.delivered : AgentAction → Bool
  | .push _ _ delivered => delivered
  | _ => false

theorem healthy_edit (hs : Healthy setup toml s) {path : PosixPath} {content : Content}
    (hfine : FineEdit setup toml path content) :
    Healthy setup toml { s with disk := s.disk.write path content } := by
  obtain ⟨text, rfl⟩ := hfine.text
  exact ⟨goodDisk_write hs.disk hfine.nulFree hfine.config, hs.cache⟩

/-- One event. -/
theorem healthy_step (hname : ConfigName setup.configPath)
    (hkeeps : KeepsProper toml setup.configPath) {s s' : Agent} {a : AgentAction}
    (h : Healthy setup toml s.toFiles) (hfine : a.Fine setup toml s)
    (hstep : agentStep setup s a = some s') :
    Healthy setup toml s'.toFiles ∧ s'.ends = s.ends ∧
      s'.reports.length = s.reports.length + if a.delivered then 1 else 0 := by
  cases a with
  | start env =>
      obtain ⟨files, hrun, hfiles⟩ := applyFromCache_survives hname hkeeps h hfine
      simp only [agentStep, hrun] at hstep
      split at hstep
      · cases hstep
        exact ⟨hfiles, rfl, rfl⟩
      · cases hstep
  | connect env =>
      simp only [agentStep] at hstep
      split at hstep
      · split at hstep
        · cases hstep
          exact ⟨h, rfl, rfl⟩
        · cases hstep
          exact ⟨h, rfl, rfl⟩
      · cases hstep
  | push env payload delivered =>
      obtain ⟨hsound, st, hpush⟩ := hfine
      obtain ⟨report, files, hrun, hfiles⟩ :=
        handleDesiredPush_survives hname hkeeps h hsound hpush
      simp only [agentStep, hrun] at hstep
      split at hstep
      · split at hstep
        · next hdelivered =>
            cases hstep
            refine ⟨hfiles, rfl, ?_⟩
            simp [AgentAction.delivered, hdelivered]
        · next hdelivered =>
            split at hstep
            · cases hstep
              exact ⟨hfiles, rfl, by simp [AgentAction.delivered, hdelivered, Agent.with]⟩
            · cases hstep
              exact ⟨hfiles, rfl, by simp [AgentAction.delivered, hdelivered, Agent.with]⟩
      · cases hstep
  | disconnect =>
      simp only [agentStep] at hstep
      split at hstep
      · cases hstep
        exact ⟨h, rfl, rfl⟩
      · cases hstep
  | stop =>
      cases hstep
      exact ⟨h, rfl, rfl⟩
  | edit path content =>
      cases content with
      | none =>
          cases hstep
          exact ⟨⟨goodDisk_unlink hname h.disk path, h.cache⟩, rfl, rfl⟩
      | some c =>
          cases hstep
          exact ⟨healthy_edit h (hfine c rfl), rfl, rfl⟩
  | clearCache =>
      cases hstep
      refine ⟨⟨h.disk, fun row hrow => ?_⟩, rfl, rfl⟩
      cases hrow

/-- **The agent outlives every push of a state that renders**: along any run in
which the hub pushes such states, sqlite works, files stay UTF-8 and the paths that
`config.toml` gives stay proper, whatever `OSError` any call meets and however
often the service stops or the operator edits files, no push ends its session, no
start ends the service, and every push whose report can be sent is reported. -/
theorem agent_outlives_pushes (hname : ConfigName setup.configPath)
    (hkeeps : KeepsProper toml setup.configPath) {s t : Agent} {as : List AgentAction}
    (hs : Healthy setup toml s.toFiles)
    (hfine : Machine.Along (agentStep setup) (AgentAction.Fine setup toml) s as)
    (hrun : Machine.exec (agentStep setup) s as = some t) :
    Healthy setup toml t.toFiles ∧ t.ends = s.ends ∧
      t.reports.length = s.reports.length + as.countP AgentAction.delivered := by
  induction as generalizing s with
  | nil =>
      cases hrun
      exact ⟨hs, rfl, rfl⟩
  | cons a as ih =>
      obtain ⟨s1, hstep, hrest⟩ := Machine.exec_cons_eq_some _ hrun
      obtain ⟨hs1, hends1, hreports1⟩ := healthy_step hname hkeeps hs hfine.1 hstep
      obtain ⟨ht, hends, hreports⟩ := ih hs1 (hfine.2 s1 hstep) hrest
      refine ⟨ht, hends.trans hends1, ?_⟩
      rw [hreports, hreports1, List.countP_cons]
      omega

end Runs

/-! ### a directory that cannot be listed -/

/-- Listing a managed directory raises an `OSError`. -/
def unlistedCall : AgentEnv :=
  ⟨{ sampleApplyEnv with listFails := fun _ => true }, none, false⟩

/-- The BGP peer of `sampleDesired`. -/
def soleDesired : DesiredState := { sampleDesired with ibgpPeers := [] }

def sampleSetup : Setup := ⟨.knowing (desiredPayload soleDesired), configToml, .auto⟩

/-- A machine with a `config.toml`. -/
def sampleAgent : Agent := ⟨⟨sampleDisk, none⟩, .stopped, [], []⟩

def restartedRun : List AgentAction :=
  [.start unlistedCall, .connect unlistedCall,
   .push unlistedCall (Dispatch.pushPayload soleDesired) true,
   .disconnect, .stop, .start unlistedCall, .connect unlistedCall]

theorem configName_sample : ConfigName configToml := by decide

theorem proper_samplePaths : Proper samplePaths := by
  refine ⟨⟨?_, ?_, ?_, ?_, ?_, ?_, ?_⟩, ?_⟩ <;> decide +kernel

/-- `sampleToml` reads nothing but two configurations. -/
theorem loads_sampleToml {content : Content}
    (hmoved : content ≠ .text (dumpsConfig sampleToml movedConfig))
    (hsample : content ≠ .text (dumpsConfig sampleToml sampleConfig)) :
    sampleToml.loads content = none :=
  (if_neg hmoved).trans (if_neg hsample)

/-- Whatever `sampleToml` reads, the paths are proper. -/
theorem proper_sampleToml (content : Option Content) :
    Proper (pathsOf sampleToml configToml content) := by
  have hnone : Proper (pathsOf sampleToml configToml none) :=
    proper_none configName_sample (by decide)
  cases content with
  | none => exact hnone
  | some c =>
      by_cases hmoved : c = .text (dumpsConfig sampleToml movedConfig)
      · have hpaths : resolvePaths (some movedConfig) configToml = samplePaths := by
          decide +kernel
        rw [hmoved, pathsOf, loadConfig_dumpsConfig configToml roundTrips_moved valid_movedConfig,
          Except.toOption, hpaths]
        exact proper_samplePaths
      · by_cases hsample : c = .text (dumpsConfig sampleToml sampleConfig)
        · rw [hsample, pathsOf, load_sampleConfig]
          exact proper_samplePaths
        · have hload : pathsOf sampleToml configToml (some c) =
              pathsOf sampleToml configToml none := by
            rw [pathsOf, loadConfig, loads_sampleToml hmoved hsample]
            rfl
          rw [hload]
          exact hnone

theorem sound_unlistedCall (disk : Disk) : Sound sampleSetup sampleToml unlistedCall disk where
  store := by decide
  read := rfl
  apply :=
    { library := rfl
      torn := fun n left h => by cases h
      resolves := fun p e _ _ h => by cases h
      runs := fun cmd => ⟨none, rfl⟩ }

theorem goodDisk_sampleDisk : GoodDisk sampleToml configToml sampleDisk := by
  have hfiles : ∀ p c, sampleDisk.read p = some c →
      p = configToml ∧ c = .text (dumpsConfig sampleToml sampleConfig) := by
    intro p c h
    simp only [sampleDisk, Disk.read, Option.map_eq_some_iff] at h
    obtain ⟨e, hfind, rfl⟩ := h
    have hkey := List.find?_some hfind
    obtain rfl := List.mem_singleton.mp (List.mem_of_find?_eq_some hfind)
    exact ⟨(by simpa using Eq.symm (by simpa using hkey)), rfl⟩
  refine ⟨fun p c h => ⟨_, (hfiles p c h).2⟩, fun p c h => ?_, proper_sampleToml _⟩
  rw [(hfiles p c h).1]
  decide

theorem renderable_sole : Renderable soleDesired := by
  constructor <;> decide +kernel

theorem pushes_sole : Pushes sampleSetup (Dispatch.pushPayload soleDesired) soleDesired where
  payload := rfl
  renderable := renderable_sole
  encodable := by decide
  carries := ⟨jsonText (.dict (desiredPayload soleDesired)), rfl, by decide +kernel,
    loads_knowing _⟩

/-- The error is reported, and the agent connects again after a restart. -/
theorem agent_outlives_pushes_restarted :
    ∃ t, Machine.exec (agentStep sampleSetup) sampleAgent restartedRun = some t ∧
      t.phase = .connected ∧ t.ends = [] ∧ t.reports.length = 1 := by
  have hphase : (Machine.exec (agentStep sampleSetup) sampleAgent restartedRun).map Agent.phase =
      some .connected := by decide +kernel
  obtain ⟨t, hrun, ht⟩ := Option.map_eq_some_iff.mp hphase
  have hhealthy : Healthy sampleSetup sampleToml sampleAgent.toFiles :=
    ⟨goodDisk_sampleDisk, fun row hrow => (by cases hrow)⟩
  have hfine : ∀ a ∈ restartedRun, ∀ s, a.Fine sampleSetup sampleToml s := by
    simp only [restartedRun, List.forall_mem_cons, List.not_mem_nil, false_implies, implies_true,
      AgentAction.Fine, and_true, true_and]
    exact ⟨fun s => sound_unlistedCall _, fun s => ⟨sound_unlistedCall _, _, pushes_sole⟩,
      fun s => sound_unlistedCall _⟩
  have halong : Machine.Along (agentStep sampleSetup) (AgentAction.Fine sampleSetup sampleToml)
      sampleAgent restartedRun :=
    Machine.Along.mono _ (fun s a h => h s) (Machine.along_of_forall _ hfine)
  have hkeeps : KeepsProper sampleToml sampleSetup.configPath :=
    fun config _ => proper_sampleToml _
  obtain ⟨-, hends, hreports⟩ :=
    agent_outlives_pushes configName_sample hkeeps hhealthy halong hrun
  exact ⟨t, hrun, ht, hends, hreports⟩

/-! ## a state that does not render -/

section Poison

variable {setup : Setup} {env : AgentEnv} {s t : Agent} {st : DesiredState} {row : CacheRow}

theorem collect_error {α β : Type} {f : α → Except PyError (List β)} {xs : List α} {x : α}
    (hx : x ∈ xs) {e : PyError} (hfx : f x = .error e) : ∃ e', collect f xs = .error e' := by
  induction xs with
  | nil => cases hx
  | cons y ys ih =>
      cases hfy : f y with
      | error e' =>
          refine ⟨e', ?_⟩
          rw [collect, hfy]
          rfl
      | ok zs =>
          have hmem : x ∈ ys := by
            obtain rfl | hmem := List.mem_cons.mp hx
            · rw [hfx] at hfy
              cases hfy
            · exact hmem
          obtain ⟨e', he'⟩ := ih hmem
          refine ⟨e', ?_⟩
          rw [collect, hfy, he']
          rfl

/-- A BGP peer without a link-local address. -/
def LacksLla (st : DesiredState) : Prop := ∃ d ∈ st.bgpPeers, orDefault d.peerLla [] = []

theorem rendered_error (h : LacksLla st) (env : ApplyEnv) (configPath : PosixPath) (disk : Disk) :
    ∃ e, rendered env (desiredPayload st) configPath disk = .error e := by
  obtain ⟨d, hd, hlla⟩ := h
  have hpeer := renderBgpPeerFiles_json_empty env.display
    (resolvePaths (localConfig env.toml configPath disk) configPath) hlla
  obtain ⟨e, herror⟩ := collect_error (f := fun d : BgpPeerDesired =>
    renderBgpPeerFiles env.display d.json
      (resolvePaths (localConfig env.toml configPath disk) configPath)) hd hpeer
  refine ⟨e, ?_⟩
  unfold rendered renderDesired
  simp only
  rw [payloadPeers_bgp]
  show collect _ _ >>= _ = _
  rw [collect_map, herror]
  rfl

theorem planApply_error {env : ApplyEnv} {payload : JsonObject} {configPath : PosixPath}
    {disk : Disk} {e : PyError} (h : rendered env payload configPath disk = .error e) :
    planApply env payload configPath disk = .error e := by
  unfold planApply
  simp only
  rw [h]
  rfl

/-- Such a state is not applied, and no file is touched. -/
theorem applyCached_lacksLla (env : AgentEnv) (h : LacksLla st) {files : Files}
    (hcache : files.cache = some row)
    (hloads : setup.json.loads row.payloadJson = .ok (.dict (desiredPayload st))) :
    ∃ e : AgentError, e.Uncaught ∧ (applyCached setup env).run files = (.error e, files) := by
  cases hread : env.readFails with
  | true =>
      refine ⟨.sqliteError, fun h => h, ?_⟩
      rw [applyCached, Prog.run_bind_error (readCache_fails hread hcache)]
  | false =>
      obtain ⟨e, herror⟩ := rendered_error h env.apply setup.configPath files.disk
      have huncaught : Uncaught e := errorsIn_renderDesired _ _ _ _ e herror
      have hrun : (apply env.apply (some ⟨row.revision, desiredPayload st⟩) setup.configPath false
          false setup.reloadPolicy).run files.disk = (.error e, files.disk) :=
        run_apply_of_error (planApply_error herror)
      have hfiles : (onFiles (apply env.apply (some ⟨row.revision, desiredPayload st⟩)
          setup.configPath false false setup.reloadPolicy)).run files =
            (.error (.service e), files) := by
        rw [Prog.run, onFiles, hrun]
        rfl
      refine ⟨.service e, huncaught, ?_⟩
      rw [applyCached, Prog.run_bind_ok (readCache_some hread hcache hloads)]
      exact hfiles

theorem run_catchingCaught {α : Type} {m : AgentTx α} {f : AgentError → AgentTx α}
    {files files' : Files} {e : AgentError} (hrun : m.run files = (.error e, files'))
    (he : e.Uncaught) : (catchingCaught m f).run files = (.error e, files') := by
  rw [catchingCaught, Prog.run_catching, hrun]
  simp only
  rw [if_neg he]
  rfl

/-- Such a state in the cache ends every start. -/
theorem applyFromCache_lacksLla (env : AgentEnv) (h : LacksLla st) {files : Files}
    (hcache : files.cache = some row)
    (hloads : setup.json.loads row.payloadJson = .ok (.dict (desiredPayload st))) :
    ∃ e, (applyFromCache setup env).run files = (.error e, files) := by
  cases hread : env.readFails with
  | true =>
      refine ⟨.sqliteError, ?_⟩
      rw [applyFromCache, Prog.run_bind_error (readCache_fails hread hcache)]
  | false =>
      obtain ⟨e, he, hrun⟩ := applyCached_lacksLla env h hcache hloads
      refine ⟨e, ?_⟩
      rw [applyFromCache, Prog.run_bind_ok (readCache_some hread hcache hloads),
        if_neg (by simp)]
      exact run_catchingCaught (Prog.run_bind_error hrun) he

/-- Such a push is stored and ends its session. -/
theorem handleDesiredPush_lacksLla (h : LacksLla st) (files : Files)
    (hstores : Stores setup env (desiredPayload st) row)
    (hinv : setup.json.Inverts (desiredPayload st)) :
    ∃ e, (handleDesiredPush setup env (Dispatch.pushPayload st)).run files =
      (.error e, { files with cache := some row }) := by
  have hcache : ({ files with cache := some row } : Files).cache = some row := rfl
  obtain ⟨e, he, hrun⟩ := applyCached_lacksLla env h hcache (hinv _ hstores.dumps)
  refine ⟨e, ?_⟩
  rw [handleDesiredPush, desired_pushPayload]
  simp only
  refine run_catchingCaught ?_ he
  rw [Prog.run_bind_ok (storeDesired_stores hstores files), Prog.run_bind_error hrun]

/-- A stopped agent whose cache holds such a state, `n` starts later. -/
structure Stuck (row : CacheRow) (reports : List AgentReport) (s : Agent) : Prop where
  phase : s.phase = .stopped
  cache : s.cache = some row
  reports : s.reports = reports

def AgentAction.isStart : AgentAction → Bool
  | .start _ => true
  | _ => false

def AgentAction.isClear : AgentAction → Bool
  | .clearCache => true
  | _ => false

/-- One event. -/
theorem stuck_step (h : LacksLla st) {reports : List AgentReport}
    (hloads : setup.json.loads row.payloadJson = .ok (.dict (desiredPayload st)))
    {a : AgentAction} (hs : Stuck row reports s) (hclear : a.isClear = false)
    (hstep : agentStep setup s a = some t) :
    Stuck row reports t ∧ t.ends.length = s.ends.length + if a.isStart then 1 else 0 := by
  cases a with
  | start env =>
      obtain ⟨e, hrun⟩ := applyFromCache_lacksLla env h hs.cache hloads
      simp only [agentStep, hs.phase, if_true, hrun] at hstep
      cases hstep
      exact ⟨⟨hs.phase, hs.cache, hs.reports⟩, by simp [AgentAction.isStart]⟩
  | connect env => simp [agentStep, hs.phase] at hstep
  | push env payload delivered => simp [agentStep, hs.phase] at hstep
  | disconnect => simp [agentStep, hs.phase] at hstep
  | stop =>
      cases hstep
      exact ⟨⟨rfl, hs.cache, hs.reports⟩, rfl⟩
  | edit path content =>
      cases content with
      | none =>
          cases hstep
          exact ⟨⟨hs.phase, hs.cache, hs.reports⟩, rfl⟩
      | some c =>
          cases hstep
          exact ⟨⟨hs.phase, hs.cache, hs.reports⟩, rfl⟩
  | clearCache => cases hclear

theorem stuck_run (h : LacksLla st) {reports : List AgentReport}
    (hloads : setup.json.loads row.payloadJson = .ok (.dict (desiredPayload st)))
    {as : List AgentAction} (hs : Stuck row reports s)
    (hclear : ∀ a ∈ as, a.isClear = false)
    (hrun : Machine.exec (agentStep setup) s as = some t) :
    Stuck row reports t ∧ t.ends.length = s.ends.length + as.countP AgentAction.isStart := by
  induction as generalizing s with
  | nil =>
      cases hrun
      exact ⟨hs, rfl⟩
  | cons a as ih =>
      obtain ⟨s1, hstep, hrest⟩ := Machine.exec_cons_eq_some _ hrun
      obtain ⟨hfirst, hothers⟩ := List.forall_mem_cons.mp hclear
      obtain ⟨hs1, hends1⟩ := stuck_step h hloads hs hfirst hstep
      obtain ⟨ht, hends⟩ := ih hs1 hothers hrest
      refine ⟨ht, ?_⟩
      rw [hends, hends1, List.countP_cons]
      omega

/-- **A state that stops the agent for good**: a pushed state with a BGP peer
without a link-local address ends its session and stays in the cache; once the
service stops, every start ends it again before it connects, whatever happens to
the files, until the cache is deleted. -/
theorem poisoned_agent (h : LacksLla st) (hinv : setup.json.Inverts (desiredPayload st))
    (hstores : Stores setup env (desiredPayload st) row) {delivered : Bool} {s1 : Agent}
    (hpush : agentStep setup s (.push env (Dispatch.pushPayload st) delivered) = some s1) :
    (∃ e, s1.ends = s.ends ++ [e]) ∧ s1.phase = .connecting ∧ s1.reports = s.reports ∧
      s1.disk = s.disk ∧
    ∀ as t, (∀ a ∈ as, a.isClear = false) →
      Machine.exec (agentStep setup) s1 (.stop :: as) = some t →
      t.phase = .stopped ∧ t.cache = some row ∧ t.reports = s.reports ∧
        t.ends.length = s1.ends.length + as.countP AgentAction.isStart := by
  obtain ⟨e, hhandled⟩ := handleDesiredPush_lacksLla h s.toFiles hstores hinv
  have hs1 : s1 = { s.with { s.toFiles with cache := some row } with
      phase := .connecting, ends := s.ends ++ [e] } := by
    simp only [agentStep, hhandled] at hpush
    split at hpush
    · cases hpush
      rfl
    · cases hpush
  subst hs1
  refine ⟨⟨e, rfl⟩, rfl, rfl, rfl, fun as t hclear hrun => ?_⟩
  obtain ⟨s2, hstop, hrest⟩ := Machine.exec_cons_eq_some _ hrun
  cases hstop
  obtain ⟨hstuck, hends⟩ := stuck_run h (hinv _ hstores.dumps) ⟨rfl, rfl, rfl⟩ hclear hrest
  exact ⟨hstuck.phase, hstuck.cache, hstuck.reports, hends⟩

end Poison

/-! ### a peer without an address -/

/-- A machine on which everything works. -/
def calmCall : AgentEnv := ⟨calmEnv, none, false⟩

/-- A machine without files. -/
def freshAgent : Agent := ⟨⟨[], none⟩, .stopped, [], []⟩

/-- `soleDesired` with a BGP peer that a scan found without its address. -/
def poorDesired : DesiredState :=
  { soleDesired with
    bgpPeers := soleDesired.bgpPeers.map fun d => { d with peerLla := none } }

def poorSetup : Setup := ⟨.knowing (desiredPayload poorDesired), configToml, .auto⟩

/-- The push that is refused, and three starts after a stop. -/
def poorRun : List AgentAction := [.start calmCall, .start calmCall, .start calmCall]

theorem poisoned_agent_starts :
    ∃ s1 t, agentStep poorSetup { freshAgent with phase := .connected }
        (.push calmCall (Dispatch.pushPayload poorDesired) true) = some s1 ∧
      Machine.exec (agentStep poorSetup) s1 (.stop :: poorRun) = some t ∧
      t.phase = .stopped ∧ t.reports = [] ∧ t.ends.length = 4 := by
  have hlacks : LacksLla poorDesired := by
    refine ⟨poorDesired.bgpPeers.head (by decide), List.head_mem _, rfl⟩
  have hstores : Stores poorSetup calmCall (desiredPayload poorDesired)
      ⟨poorDesired.revision, jsonText (.dict (desiredPayload poorDesired))⟩ :=
    ⟨⟨rfl, by decide⟩, rfl, rfl, by decide +kernel⟩
  have hsome : ((agentStep poorSetup { freshAgent with phase := .connected }
      (.push calmCall (Dispatch.pushPayload poorDesired) true)).bind fun s1 =>
        Machine.exec (agentStep poorSetup) s1 (.stop :: poorRun)).isSome = true := by
    decide +kernel
  obtain ⟨t, hruns⟩ := Option.isSome_iff_exists.mp hsome
  obtain ⟨s1, hpush, hrun⟩ := Option.bind_eq_some_iff.mp hruns
  obtain ⟨⟨e, hends⟩, -, -, -, hstuck⟩ :=
    poisoned_agent hlacks (inverts_knowing _) hstores hpush
  obtain ⟨hphase, -, hreports, hlength⟩ := hstuck poorRun t (by decide) hrun
  refine ⟨s1, t, hpush, hrun, hphase, hreports, ?_⟩
  rw [hlength, hends]
  rfl

end NodeAgent

end Dn42Ctl
