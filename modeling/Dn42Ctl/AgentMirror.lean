import Dn42Ctl.AgentRuns
import Dn42Ctl.Converge

/-!
# AgentMirror

The files of a node after a push that its agent has reported as applied.

The hub builds a state from its rows, the agent stores it, reads it back and
applies it.  From the report on the machine *holds* the state: its files are
those of the rows, and what the agent does on its own, restarts and failed calls
included, changes none of them.

* `holds_of_reported` — a reported push makes the machine hold its state;
* `holds_step` — what happens on the machine until the next state leaves it so;
* `reported_state_stays` — the two together, in terms of the rows of the hub.
-/

namespace Dn42Ctl

open Text WsProtocol

/-! ## files that do not matter -/

section Edit

variable {toml : TomlLib} {display : Json → Str} {payload : JsonObject} {configPath p : PosixPath}
  {files : List FileSpec} {disk disk' : Disk}

theorem localConfig_congr (h : disk'.read configPath = disk.read configPath) :
    localConfig toml configPath disk' = localConfig toml configPath disk := by
  rw [localConfig, h, localConfig]

/-- A machine stays steady when a file is written or removed that `apply` neither
reads, writes nor lists. -/
theorem Steady.edit (h : Steady toml display payload configPath files disk)
    (hsame : ∀ q, q ≠ p → disk'.read q = disk.read q) (hfiles : p ∉ files.map FileSpec.path)
    (hconfig : p ≠ configPath)
    (hextra : p ≠ (resolvePaths (localConfig toml configPath disk) configPath).birdExtraConfPath)
    (hmanaged : ¬Managed (resolvePaths (localConfig toml configPath disk) configPath) p) :
    Steady toml display payload configPath files disk' := by
  have hlocal : localConfig toml configPath disk' = localConfig toml configPath disk :=
    localConfig_congr (hsame _ hconfig.symm)
  refine ⟨?_, fun f hf => ?_, h.lines, h.writable, h.configKept, ?_⟩
  · rw [hlocal, hsame _ hextra.symm]
    exact h.rendered
  · have hne : f.path ≠ p := fun heq => hfiles (heq ▸ List.mem_map_of_mem hf)
    rw [Settled, hsame _ hne]
    exact h.settled f hf
  · rw [hlocal]
    intro q hq hread
    have hne : q ≠ p := fun heq => hmanaged (heq ▸ hq)
    rw [hsame _ hne] at hread
    exact h.mirrored q hq hread

end Edit

/-- The configuration once a state of the hub is applied. -/
theorem configAfter_payload {display : Json → Str} {st : DesiredState} {config merged : AppConfig}
    (h : configAfter display (desiredPayload st) config = .ok merged) :
    merged = mergeBlock config st.node ∨ merged = config := by
  simp only [configAfter, node_of_payload] at h
  cases hne : st.node.entries.isEmpty with
  | true =>
      simp only [hne, if_true, Json.truthy, Bool.false_eq_true, if_false] at h
      cases h
      exact .inr rfl
  | false =>
      have htruthy : (Json.dict st.node.entries).truthy = true := by
        rw [Json.truthy, hne]
        rfl
      simp only [hne, Bool.false_eq_true, if_false, htruthy, if_true, Prog.bind_eq_ok] at h
      obtain ⟨any, -, h⟩ := h
      cases any with
      | false =>
          cases h
          exact .inr rfl
      | true =>
          simp only [if_true, nodeUpdates, Prog.bind_eq_ok, getAttr_ownIpv6, getAttr_routerId,
            Except.ok.injEq, exists_eq_left', updated_field] at h
          cases h
          exact .inl rfl

/-! ## what a machine holds -/

namespace NodeAgent

/-- The machine holds a state: the cache, where there is one, is of this state, and
`apply` has nothing more to do for it. -/
structure Holds (setup : Setup) (toml : TomlLib) (display : Json → Str) (st : DesiredState)
    (paths : ResolvedPaths) (s : Files) : Prop where
  cache : ∀ row, s.cache = some row → row.revision = st.revision ∧
    setup.json.loads row.payloadJson = .ok (.dict (desiredPayload st))
  paths : resolvePaths (localConfig toml setup.configPath s.disk) setup.configPath = paths
  steady : ∃ files, Steady toml display (desiredPayload st) setup.configPath files s.disk

/-- A call of the same program that leaves no file half written. -/
structure AgentEnv.Same (env : AgentEnv) (toml : TomlLib) (display : Json → Str) : Prop where
  toml : env.apply.toml = toml
  display : env.apply.display = display
  notTorn : ∀ n left, env.apply.writes n ≠ .torn left

/-- The paths `apply` may write for a state, and `config.toml`. -/
def targets (paths : ResolvedPaths) (st : DesiredState) : List PosixPath :=
  (desiredPeerFiles paths st.toDesiredContent).map FileSpec.path ++
    paths.configPath :: blockPaths paths

/-- What can happen on the machine before another state is pushed: calls of the
same program, the same state once more, edits of files that are not its own. -/
def AgentAction.Leaves (toml : TomlLib) (display : Json → Str) (st : DesiredState)
    (paths : ResolvedPaths) : AgentAction → Prop
  | .start env => env.Same toml display
  | .push env payload _ => env.Same toml display ∧ payload = Dispatch.pushPayload st
  | .edit p _ => p ∉ targets paths st ∧ ¬Managed paths p
  | .connect _ | .disconnect | .stop | .clearCache => True

section Holds

variable {setup : Setup} {toml : TomlLib} {display : Json → Str} {st : DesiredState}
  {paths : ResolvedPaths} {s s' : Files} {env : AgentEnv}

/-- Only the cache and what can be read matter. -/
theorem Holds.of_reads (h : Holds setup toml display st paths s) (hcache : s'.cache = s.cache)
    (hreads : ∀ p, s'.disk.read p = s.disk.read p) : Holds setup toml display st paths s' := by
  obtain ⟨files, hsteady⟩ := h.steady
  refine ⟨fun row hrow => h.cache row (hcache ▸ hrow), ?_, files, hsteady.of_reads hreads⟩
  rw [localConfig_congr (hreads _)]
  exact h.paths

/-- Applying the cache once more, however it ends. -/
theorem maintains_applyCached_holds (henv : env.Same toml display) :
    (applyCached setup env).Maintains (Holds setup toml display st paths) := by
  intro s hs
  cases hrow : s.cache with
  | none =>
      have hread : (readCache setup env).run s = (.ok none, s) := by
        rw [readCache, Prog.run_bind_ok (Prog.run_read _ _), hrow]
        rfl
      rw [applyCached, Prog.run_bind_ok hread]
      exact hs
  | some row =>
      cases hfails : env.readFails with
      | true =>
          rw [applyCached, Prog.run_bind_error (readCache_fails hfails hrow)]
          exact hs
      | false =>
          obtain ⟨files, hsteady⟩ := hs.steady
          rw [run_applyCached hfails hrow (hs.cache row hrow).2]
          cases hrun : (apply env.apply (some ⟨row.revision, desiredPayload st⟩) setup.configPath
            false false setup.reloadPolicy).run s.disk with
          | mk res disk' =>
              rw [run_onFiles s hrun]
              have hsame := (hsteady.run henv.toml henv.display henv.notTorn hrun).1
              exact hs.of_reads rfl hsame

theorem revision_of_stores {row : CacheRow}
    (h : Stores setup env (desiredPayload st) row) : row.revision = st.revision := by
  have hlookup : Json.lookup (lit "revision") (desiredPayload st) = some (.str st.revision) := rfl
  exact Json.str.inj (Option.some.inj (h.revision.1.symm.trans hlookup))

/-- Storing the same state once more, however it ends. -/
theorem maintains_storeDesired_holds (hinv : setup.json.Inverts (desiredPayload st)) :
    (storeDesired setup env (desiredPayload st)).Maintains
      (Holds setup toml display st paths) := by
  refine maintains_storeDesired fun s row hstores hs => ⟨fun row' hrow' => ?_, hs.paths, hs.steady⟩
  cases hrow'
  exact ⟨revision_of_stores hstores, hinv _ hstores.dumps⟩

theorem maintains_push_holds (henv : env.Same toml display)
    (hinv : setup.json.Inverts (desiredPayload st)) :
    (handleDesiredPush setup env (Dispatch.pushPayload st)).Maintains
      (Holds setup toml display st paths) :=
  maintains_catchingCaught
    (.bind (maintains_storeDesired_holds hinv) fun _ =>
      .bind (maintains_applyCached_holds henv) fun _ => .pure _)

theorem maintains_applyFromCache_holds (henv : env.Same toml display) :
    (applyFromCache setup env).Maintains (Holds setup toml display st paths) := by
  refine .bind maintains_readCache fun cached => ?_
  split
  · exact .pure _
  · exact maintains_catchingCaught (.bind (maintains_applyCached_holds henv) fun _ => .pure _)

/-- The node block asks for no files, or for those of the updated configuration. -/
theorem desiredNodeFiles_cases (toml : TomlLib) (appConfig : Option AppConfig)
    (paths : ResolvedPaths) (extraExists : Bool) (b : NodeBlock) :
    (desiredNodeFiles toml appConfig paths extraExists b).1 = [] ∨
      ∃ config, appConfig = some config ∧
        (desiredNodeFiles toml appConfig paths extraExists b).1 =
          (nodeFiles toml config (mergeBlock config b) paths extraExists).1 := by
  unfold desiredNodeFiles
  split
  · exact .inl rfl
  · cases appConfig with
    | none => exact .inl rfl
    | some config =>
        simp only
        split
        · exact .inr ⟨config, rfl, rfl⟩
        · exact .inl rfl

/-- The paths of a steady machine's files are among those of its state. -/
theorem Holds.targets {files : List FileSpec}
    (hlla : ∀ d ∈ st.bgpPeers, orDefault d.peerLla [] ≠ [])
    (hpaths : resolvePaths (localConfig toml setup.configPath s.disk) setup.configPath = paths)
    (h : Steady toml display (desiredPayload st) setup.configPath files s.disk) :
    ∃ node, files = desiredPeerFiles paths st.toDesiredContent ++ node ∧
      node.map FileSpec.path ⊆ paths.configPath :: blockPaths paths := by
  obtain ⟨warnings, hrender⟩ := h.rendered
  rw [hpaths, renderDesired_payload display toml st _ _ _ hlla] at hrender
  cases hrender
  refine ⟨_, rfl, ?_⟩
  obtain hnil | ⟨config, -, hnode⟩ := desiredNodeFiles_cases toml
    (localConfig toml setup.configPath s.disk) paths (s.disk.read paths.birdExtraConfPath).isSome
    st.node
  · rw [hnil]
    exact List.nil_subset _
  · obtain ⟨rest, hmap, hrest⟩ := nodeFiles_paths toml config (mergeBlock config st.node) paths
      (s.disk.read paths.birdExtraConfPath).isSome
    rw [hnode, hmap, ← List.singleton_append]
    exact ((updatedToml_paths ..).append hrest).subset

/-- Whatever an edit of another file is, the machine holds its state. -/
theorem holds_edit (hlla : ∀ d ∈ st.bgpPeers, orDefault d.peerLla [] ≠ [])
    (h : Holds setup toml display st paths s) {p : PosixPath}
    (htargets : p ∉ NodeAgent.targets paths st) (hmanaged : ¬Managed paths p) {disk' : Disk}
    (hsame : ∀ q, q ≠ p → disk'.read q = s.disk.read q) :
    Holds setup toml display st paths { s with disk := disk' } := by
  obtain ⟨files, hsteady⟩ := h.steady
  obtain ⟨node, rfl, hnode⟩ := Holds.targets hlla h.paths hsteady
  rw [NodeAgent.targets, List.mem_append, not_or] at htargets
  obtain ⟨hpeers, hrest⟩ := htargets
  have hconfigPath : paths.configPath = setup.configPath := by
    rw [← h.paths]
    exact configPath_pathsOf toml setup.configPath _
  have hconfig : p ≠ setup.configPath := by
    rw [← hconfigPath]
    exact fun heq => hrest (heq ▸ List.mem_cons_self)
  have hextra : p ≠ paths.birdExtraConfPath := by
    rintro rfl
    exact hrest (by simp [blockPaths])
  have hfiles : p ∉ (desiredPeerFiles paths st.toDesiredContent ++ node).map FileSpec.path := by
    rw [List.map_append, List.mem_append, not_or]
    exact ⟨hpeers, fun hmem => hrest (hnode hmem)⟩
  refine ⟨h.cache, ?_, _, hsteady.edit hsame hfiles hconfig (h.paths ▸ hextra)
    (h.paths ▸ hmanaged)⟩
  rw [localConfig_congr (hsame _ hconfig.symm)]
  exact h.paths

/-- **One event** between two states leaves the machine holding the first. -/
theorem holds_step {s s' : Agent} {a : AgentAction}
    (hinv : setup.json.Inverts (desiredPayload st))
    (hlla : ∀ d ∈ st.bgpPeers, orDefault d.peerLla [] ≠ [])
    (h : Holds setup toml display st paths s.toFiles) (hleaves : a.Leaves toml display st paths)
    (hstep : agentStep setup s a = some s') : Holds setup toml display st paths s'.toFiles := by
  cases a with
  | start env =>
      have hkept := maintains_applyFromCache_holds hleaves s.toFiles h
      simp only [agentStep] at hstep
      split at hstep
      · split at hstep
        · next files hrun =>
            rw [hrun] at hkept
            cases hstep
            exact hkept
        · next files hrun =>
            rw [hrun] at hkept
            cases hstep
            exact hkept
      · cases hstep
  | connect env =>
      simp only [agentStep] at hstep
      split at hstep
      · split at hstep
        · cases hstep
          exact h
        · cases hstep
          exact h
      · cases hstep
  | push env payload delivered =>
      obtain ⟨henv, rfl⟩ := hleaves
      have hkept := maintains_push_holds henv hinv s.toFiles h
      simp only [agentStep] at hstep
      split at hstep
      · split at hstep
        · next report files hrun =>
            rw [hrun] at hkept
            split at hstep
            · cases hstep
              exact hkept
            · split at hstep
              · cases hstep
                exact hkept
              · cases hstep
                exact hkept
        · next files hrun =>
            rw [hrun] at hkept
            cases hstep
            exact hkept
      · cases hstep
  | disconnect =>
      simp only [agentStep] at hstep
      split at hstep
      · cases hstep
        exact h
      · cases hstep
  | stop =>
      cases hstep
      exact h
  | edit p content =>
      obtain ⟨htargets, hmanaged⟩ := hleaves
      cases content with
      | none =>
          cases hstep
          exact holds_edit hlla h htargets hmanaged fun q hq => by
            rw [Disk.read_unlink, if_neg hq]
      | some c =>
          cases hstep
          exact holds_edit hlla h htargets hmanaged fun q hq => Disk.read_write_of_ne hq
  | clearCache =>
      cases hstep
      exact ⟨fun row hrow => (by cases hrow), h.paths, h.steady⟩

end Holds

/-! ## a push that was reported -/

section Reported

variable {setup : Setup} {env : AgentEnv} {st : DesiredState} {s s' : Files} {r : ApplyReport}
  {config : AppConfig}

/-- A report of success comes from the stored state and an `apply` that returned. -/
theorem reported_push (hinv : setup.json.Inverts (desiredPayload st))
    (h : (handleDesiredPush setup env (Dispatch.pushPayload st)).run s =
      (.ok (.applyResult r), s')) :
    ∃ row result disk', Stores setup env (desiredPayload st) row ∧
      (apply env.apply (some ⟨st.revision, desiredPayload st⟩) setup.configPath false false
        setup.reloadPolicy).run s.disk = (.ok result, disk') ∧
      r = .of result ∧ s' = { s with disk := disk', cache := some row } := by
  rw [handleDesiredPush, desired_pushPayload] at h
  simp only [catchingCaught, Prog.run_catching] at h
  split at h
  · next report files hrun =>
      cases h
      obtain ⟨u, s1, hstore, hrun⟩ := Prog.run_bind_eq_ok.mp hrun
      obtain ⟨result, s2, happly, hrun⟩ := Prog.run_bind_eq_ok.mp hrun
      cases hrun
      obtain ⟨row, hstores⟩ | ⟨e, hfails, -⟩ := storeDesired_cases setup env (desiredPayload st) s
      · rw [storeDesired_stores hstores s] at hstore
        cases hstore
        have hloads := hinv _ hstores.dumps
        cases hread : env.readFails with
        | true =>
            rw [applyCached, Prog.run_bind_error (readCache_fails hread rfl)] at happly
            cases happly
        | false =>
            rw [run_applyCached hread rfl hloads, revision_of_stores hstores] at happly
            cases hrun : (apply env.apply (some ⟨st.revision, desiredPayload st⟩) setup.configPath
              false false setup.reloadPolicy).run s.disk with
            | mk res disk' =>
                have hfiles : (onFiles (apply env.apply (some ⟨st.revision, desiredPayload st⟩)
                    setup.configPath false false setup.reloadPolicy)).run
                      { s with cache := some row } =
                    (res.mapError .service, { s with disk := disk', cache := some row }) :=
                  run_onFiles { s with cache := some row } hrun
                rw [hfiles] at happly
                cases res with
                | error e => cases happly
                | ok result' =>
                    cases happly
                    exact ⟨row, _, disk', hstores, rfl, rfl, rfl⟩
      · rw [hfails] at hstore
        cases hstore
  · next e files hrun =>
      split at h
      · cases h
      · cases h

/-- A state that is stored and applied is reported. -/
theorem run_push_of_apply {row : CacheRow} {result : ApplyResult} {disk' : Disk}
    (hstores : Stores setup env (desiredPayload st) row) (hread : env.readFails = false)
    (hinv : setup.json.Inverts (desiredPayload st))
    (happly : (apply env.apply (some ⟨st.revision, desiredPayload st⟩) setup.configPath false false
      setup.reloadPolicy).run s.disk = (.ok result, disk')) :
    (handleDesiredPush setup env (Dispatch.pushPayload st)).run s =
      (.ok (.applyResult (.of result)), { s with disk := disk', cache := some row }) := by
  have hcached : (applyCached setup env).run { s with cache := some row } =
      (.ok result, { s with disk := disk', cache := some row }) := by
    rw [run_applyCached hread rfl (hinv _ hstores.dumps), revision_of_stores hstores]
    exact run_onFiles { s with cache := some row } happly
  rw [handleDesiredPush, desired_pushPayload]
  simp only [catchingCaught, Prog.run_catching]
  rw [Prog.run_bind_ok (storeDesired_stores hstores s), Prog.run_bind_ok hcached]
  rfl

/-- **A reported push makes the machine hold its state.** -/
theorem holds_of_reported {paths : ResolvedPaths} (hinv : setup.json.Inverts (desiredPayload st))
    (hlla : ∀ d ∈ st.bgpPeers, orDefault d.peerLla [] ≠ [])
    (hconfig : localConfig env.apply.toml setup.configPath s.disk = some config)
    (hpaths : paths = resolvePaths (some config) setup.configPath)
    (hapart : PathsApart paths ((desiredPeerFiles paths st.toDesiredContent).map FileSpec.path))
    (hlines : ∀ f ∈ desiredPeerFiles paths st.toDesiredContent ++
      (desiredNodeFiles env.apply.toml (some config) paths
        (s.disk.read paths.birdExtraConfPath).isSome st.node).1, 13 ∉ f.content)
    (hload : Loadable env.apply.toml config (mergeBlock config st.node))
    (h : (handleDesiredPush setup env (Dispatch.pushPayload st)).run s =
      (.ok (.applyResult r), s')) :
    r.revision = st.revision ∧
      Holds setup env.apply.toml env.apply.display st paths s' := by
  obtain ⟨row, result, disk', hstores, hrun, rfl, rfl⟩ := reported_push hinv h
  obtain ⟨plan, hplan, -, -⟩ := apply_written hrun
  have hplanPaths := (planApply_ok hplan).1
  rw [hconfig, ← hpaths] at hplanPaths
  have hfiles := planApply_files hplan hconfig hpaths.symm
    (renderDesired_payload env.apply.display env.apply.toml st paths (some config) _ hlla)
  have hpeers : renderPeers env.apply.display (desiredPayload st) plan.paths =
      .ok (desiredPeerFiles plan.paths st.toDesiredContent) :=
    renderPeers_payload env.apply.display st plan.paths hlla
  have hlines' : ∀ f ∈ plan.files, 13 ∉ f.content := by
    rw [hfiles]
    exact hlines
  have hapart' : PathsApart plan.paths
      ((desiredPeerFiles plan.paths st.toDesiredContent).map FileSpec.path) := by
    rw [hplanPaths]
    exact hapart
  obtain ⟨-, hkept, files, hsteady⟩ := steady_of_apply hrun hplan hpeers hapart' hlines'
    fun config' merged hconfig' hafter => by
      cases hconfig.symm.trans hconfig'
      obtain rfl | rfl := configAfter_payload hafter
      · exact hload
      · exact fun hne => absurd rfl hne
  have hrevision : result.revision = st.revision := by
    rw [run_apply_of_plan hplan] at hrun
    exact (execute_ok hrun).1
  refine ⟨hrevision, fun row' hrow' => ?_, hkept.trans hplanPaths, files, hsteady⟩
  cases hrow'
  exact ⟨revision_of_stores hstores, hinv _ hstores.dumps⟩

end Reported

/-! ## the rows of the hub -/

section Hub

variable {digest : DesiredContent → Str} {now n : Str} {record : Bool} {keep : Int} {db db' : Db}
  {st : DesiredState} {setup : Setup} {env : AgentEnv} {config : AppConfig}

/-- The files of a node's rows. -/
def nodeFilesOf (config : AppConfig) (db : Db) (n : Str) : List FileSpec :=
  rowFiles config (db.listBgpPeers n) (db.listIbgpPeers n) ++
    [babelFile config (db.listIbgpPeers n)]

/-- A push whose report is sent. -/
theorem step_of_push {s : Agent} {payload : JsonObject} {report : AgentReport} {files : Files}
    (hphase : s.phase = .connected)
    (hrun : (handleDesiredPush setup env payload).run s.toFiles = (.ok report, files)) :
    agentStep setup s (.push env payload true) =
      some { s.with files with reports := s.reports ++ [report] } := by
  simp only [agentStep, hphase, hrun, if_true]

/-- The report of a push is the last one sent. -/
theorem push_of_sent {s t : Agent} {payload : JsonObject} {r : ApplyReport}
    (hstep : agentStep setup s (.push env payload true) = some t)
    (hsent : t.reports = s.reports ++ [.applyResult r]) :
    (handleDesiredPush setup env payload).run s.toFiles = (.ok (.applyResult r), t.toFiles) := by
  simp only [agentStep] at hstep
  split at hstep
  · split at hstep
    · next report files hrun =>
        cases hstep
        rw [hrun]
        have hlast := List.append_cancel_left hsent
        cases hlast
        rfl
    · cases hstep
      have hlength := congrArg List.length hsent
      simp [Agent.with] at hlength
  · cases hstep

/-- **A reported state stays**: once a node has reported that a state of the hub is
applied, its files are those of the node's rows, none missing, outdated or left
over, and so they stay until another state is pushed, however often the agent
stops, starts, loses its connection or its cache, fails to apply the state again or
is sent it again.  The `hello` of every later connection names this state. -/
theorem reported_state_stays {s t u : Agent} {as : List AgentAction} {r : ApplyReport}
    (hrows : ComparableRows (db.listBgpPeers n) (db.listIbgpPeers n))
    (hpin : db.getPinRow n = none)
    (hbuild : (buildDesiredState digest now n record keep).run db = (.ok st, db'))
    (hinv : setup.json.Inverts (desiredPayload st))
    (hload : loadConfig env.apply.toml setup.configPath (s.disk.read setup.configPath) = .ok config)
    (hloadable : Loadable env.apply.toml config (mergeBlock config st.node))
    (hapart : PathsApart (resolvePaths (some config) setup.configPath)
      ((nodeFilesOf config db n).map FileSpec.path))
    (hlines : ∀ f ∈ nodeFilesOf config db n ++
      (desiredNodeFiles env.apply.toml (some config) (resolvePaths (some config) setup.configPath)
        (s.disk.read (.ofStr config.birdExtraConfPath)).isSome st.node).1, 13 ∉ f.content)
    (hstep : agentStep setup s (.push env (Dispatch.pushPayload st) true) = some t)
    (hsent : t.reports = s.reports ++ [.applyResult r])
    (hleaves : ∀ a ∈ as, a.Leaves env.apply.toml env.apply.display st
      (resolvePaths (some config) setup.configPath))
    (hexec : Machine.exec (agentStep setup) t as = some u) :
    r.revision = st.revision ∧
    (∀ f ∈ nodeFilesOf config db n, u.disk.read f.path = some (.text f.content)) ∧
    (∀ p, Managed (resolvePaths (some config) setup.configPath) p → (u.disk.read p).isSome →
      p ∈ (nodeFilesOf config db n).map FileSpec.path ∨
        p ∈ blockPaths (resolvePaths (some config) setup.configPath)) ∧
    ∀ row, u.cache = some row → row.revision = st.revision := by
  have hlive : st.toDesiredContent = db.liveContent n := build_live hpin hbuild
  have hlla : ∀ d ∈ st.bgpPeers, orDefault d.peerLla [] ≠ [] := by
    have hpeers : st.bgpPeers = (db.listBgpPeers n).map bgpRowToDict :=
      congrArg DesiredContent.bgpPeers hlive
    rw [hpeers]
    intro d hd
    obtain ⟨row, hrow, rfl⟩ := List.mem_map.mp hd
    exact hrows.peerLla row hrow
  have hfiles : desiredPeerFiles (resolvePaths (some config) setup.configPath)
      st.toDesiredContent = nodeFilesOf config db n := by
    rw [hlive, desiredPeerFiles_rows config setup.configPath hrows, nodeFilesOf]
  have hconfig : localConfig env.apply.toml setup.configPath s.disk = some config := by
    rw [localConfig, hload]
    rfl
  have hrun := push_of_sent hstep hsent
  obtain ⟨hrevision, hholds⟩ := holds_of_reported hinv hlla hconfig rfl (hfiles ▸ hapart)
    (hfiles ▸ hlines) hloadable hrun
  have hfinal := Machine.exec_invariant (agentStep setup)
    (fun _ a _ hs ha hstep => holds_step hinv hlla hs ha hstep) hholds
    (Machine.along_of_forall _ hleaves) hexec
  obtain ⟨files, hsteady⟩ := hfinal.steady
  obtain ⟨node, rfl, hnode⟩ := Holds.targets hlla hfinal.paths hsteady
  rw [hfiles] at hsteady
  refine ⟨hrevision, fun f hf => hsteady.settled f (List.mem_append_left _ hf), ?_,
    fun row hrow => (hfinal.cache row hrow).1⟩
  intro p hp hread
  have hmem := hsteady.mirrored p (hfinal.paths ▸ hp) hread
  rw [List.map_append, List.mem_append] at hmem
  refine hmem.imp_right fun hp' => ?_
  obtain rfl | hblock := List.mem_cons.mp (hnode hp')
  · exact absurd hp hapart.config
  · exact hblock

/-- A restart is taken, however the call at its start ends. -/
theorem exec_restart (setup : Setup) (env : AgentEnv) (t : Agent) :
    ∃ u, Machine.exec (agentStep setup) t [.stop, .start env] = some u := by
  have hstart : ∃ u, agentStep setup { t with phase := .stopped } (.start env) = some u := by
    simp only [agentStep, if_true]
    split
    · exact ⟨_, rfl⟩
    · exact ⟨_, rfl⟩
  obtain ⟨u, hu⟩ := hstart
  refine ⟨u, ?_⟩
  rw [Machine.exec_cons, show agentStep setup t .stop = some { t with phase := .stopped } from rfl,
    Option.bind_some, Machine.exec_cons, hu]
  rfl

end Hub

/-! ### a node that is moved and restarts -/

def movedSetup : Setup := ⟨.knowing (desiredPayload sampleDesired), configToml, .auto⟩

def movedCall : AgentEnv := ⟨sampleApplyEnv, none, false⟩

/-- Every write of the call is refused. -/
def refusedCall : AgentEnv := ⟨{ sampleApplyEnv with writes := fun _ => .refused }, none, false⟩

def connectedAgent : Agent := ⟨⟨extendedDisk, none⟩, .connected, [], []⟩

/-- The sample node reports its two peers, and keeps their files through a restart
that cannot write. -/
theorem reported_state_stays_restarted :
    ∃ t r u, agentStep movedSetup connectedAgent
        (.push movedCall (Dispatch.pushPayload sampleDesired) true) = some t ∧
      t.reports = [.applyResult r] ∧ r.revision = sampleDesired.revision ∧
      Machine.exec (agentStep movedSetup) t [.stop, .start refusedCall] = some u ∧
      ∀ f ∈ nodeFilesOf sampleConfig sampleDb (lit "a"),
        u.disk.read f.path = some (.text f.content) := by
  have hinv : movedSetup.json.Inverts (desiredPayload sampleDesired) := inverts_knowing _
  have hpeers : nodeFilesOf sampleConfig sampleDb (lit "a") = samplePeerFiles :=
    (desiredPeerFiles_rows sampleConfig configToml comparable_sample).symm
  have hread : extendedDisk.read configToml = some (.text (dumpsConfig sampleToml sampleConfig)) :=
    (Disk.read_write_of_ne (by decide +kernel)).trans read_sampleDisk
  have hload : loadConfig movedCall.apply.toml movedSetup.configPath
      (connectedAgent.disk.read movedSetup.configPath) = .ok sampleConfig := by
    rw [show connectedAgent.disk.read movedSetup.configPath = _ from hread]
    exact load_sampleConfig
  have hmerge : mergeBlock sampleConfig sampleDesired.node = movedConfig := by decide +kernel
  have hloadable : Loadable movedCall.apply.toml sampleConfig
      (mergeBlock sampleConfig sampleDesired.node) := by
    rw [hmerge]
    exact fun _ => ⟨valid_movedConfig, roundTrips_moved⟩
  have hapart : PathsApart (resolvePaths (some sampleConfig) movedSetup.configPath)
      ((nodeFilesOf sampleConfig sampleDb (lit "a")).map FileSpec.path) := by
    rw [hpeers]
    refine ⟨?_, ?_, ?_⟩ <;> decide +kernel
  have hextra : (connectedAgent.disk.read samplePaths.birdExtraConfPath).isSome = true := by
    have hwritten : connectedAgent.disk.read samplePaths.birdExtraConfPath = some (.text []) :=
      Disk.read_write_self
    rw [hwritten]
    rfl
  have hlines : ∀ f ∈ nodeFilesOf sampleConfig sampleDb (lit "a") ++
      (desiredNodeFiles movedCall.apply.toml (some sampleConfig)
        (resolvePaths (some sampleConfig) movedSetup.configPath)
        (connectedAgent.disk.read (.ofStr sampleConfig.birdExtraConfPath)).isSome
          sampleDesired.node).1, 13 ∉ f.content := by
    rw [hpeers, show (connectedAgent.disk.read (.ofStr sampleConfig.birdExtraConfPath)).isSome =
      true from hextra]
    exact noReturn_sampleFiles
  -- the push is stored, applied and reported
  obtain ⟨plan, hplan, hfiles, hpaths⟩ := planApply_sample
  have hnul : ∀ f ∈ plan.files, f.path.hasNul = false := by
    rw [hfiles]
    decide +kernel
  obtain ⟨result, disk', happly⟩ :=
    apply_returns (hpaths ▸ calm_sampleApplyEnv) hplan hnul false false .auto
      (reloadStep_sample _ _)
  have hstores : Stores movedSetup movedCall (desiredPayload sampleDesired)
      ⟨sampleDesired.revision, jsonText (.dict (desiredPayload sampleDesired))⟩ := by
    refine ⟨⟨rfl, by decide⟩, rfl, rfl, by decide +kernel⟩
  have hrun : (handleDesiredPush movedSetup movedCall (Dispatch.pushPayload sampleDesired)).run
      connectedAgent.toFiles = _ := run_push_of_apply hstores rfl hinv happly
  have hstep := step_of_push (s := connectedAgent) rfl hrun
  obtain ⟨u, hexec⟩ := exec_restart movedSetup refusedCall
    { connectedAgent.with _ with reports := connectedAgent.reports ++ [_] }
  have hleaves : ∀ a ∈ ([.stop, .start refusedCall] : List AgentAction),
      a.Leaves movedCall.apply.toml movedCall.apply.display sampleDesired
        (resolvePaths (some sampleConfig) movedSetup.configPath) := by
    simp only [List.forall_mem_cons, List.not_mem_nil, false_implies, implies_true, and_true,
      AgentAction.Leaves, true_and]
    exact ⟨rfl, rfl, fun n left h => (by cases h)⟩
  obtain ⟨hrevision, hkept, -, -⟩ := reported_state_stays comparable_sample rfl build_sample hinv
    hload hloadable hapart hlines hstep rfl hleaves hexec
  exact ⟨_, _, u, hstep, rfl, hrevision, hexec, hkept⟩

end NodeAgent

end Dn42Ctl
