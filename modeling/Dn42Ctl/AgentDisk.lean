import Dn42Ctl.NodeAgent
import Dn42Ctl.Converge

/-!
# AgentDisk

The files of a node between two calls of its agent.

A disk is *good* when `apply` of a state that renders cannot stumble over it:
every file is text under a path without a NUL, and `config.toml`, where it loads,
names places that can be written and are not `config.toml` itself.  A call may
rewrite `config.toml`, delete files and be cut short in the middle of a write.

* `desiredFiles_cases` — what `apply` writes for a state;
* `not_applyStops` — on a good disk it raises nothing but what is caught;
* `goodDisk_apply` — and leaves a good disk, however it ends.
-/

namespace Dn42Ctl

open Text WsProtocol

namespace NodeAgent

/-! ## states that can be delivered -/

/-- The JSON library carries an object: what it dumps can be encoded and is
loaded again. -/
def Setup.Carries (setup : Setup) (payload : JsonObject) : Prop :=
  ∃ raw, setup.json.dumps payload = .ok raw ∧ encodable raw = true ∧
    setup.json.loads raw = .ok (.dict payload)

theorem Setup.Carries.inverts {setup : Setup} {payload : JsonObject} (h : setup.Carries payload) :
    setup.json.Inverts payload := by
  obtain ⟨raw, hdumps, -, hloads⟩ := h
  intro raw' hraw'
  rw [hdumps] at hraw'
  cases hraw'
  exact hloads

/-- A state of the hub that renders: every BGP peer has its link-local address,
and no name is cut short by a NUL. -/
structure Renderable (st : DesiredState) : Prop where
  revision : st.revision ≠ []
  peerLla : ∀ d ∈ st.bgpPeers, orDefault d.peerLla [] ≠ []
  bgpNames : ∀ d ∈ st.bgpPeers, 0 ∉ d.ifname
  ibgpNames : ∀ d ∈ st.ibgpPeers, 0 ∉ d.ifname ∧ 0 ∉ d.name

/-! ## good disks -/

/-- The paths of a machine have no NUL. -/
structure NulFree (paths : ResolvedPaths) : Prop where
  birdPeersDir : paths.birdPeersDir.hasNul = false
  babelConfPath : paths.babelConfPath.hasNul = false
  networkdDir : paths.networkdDir.hasNul = false
  nmDir : paths.nmDir.hasNul = false
  birdConfPath : paths.birdConfPath.hasNul = false
  birdExtraConfPath : paths.birdExtraConfPath.hasNul = false
  configPath : paths.configPath.hasNul = false

/-- Where a machine writes its files: nowhere with a NUL, and none of BIRD's files
over `config.toml`. -/
structure Proper (paths : ResolvedPaths) : Prop extends NulFree paths where
  apart : paths.configPath ∉ paths.birdFiles

/-- What a content of `config.toml` makes of the paths. -/
def pathsOf (toml : TomlLib) (configPath : PosixPath) (content : Option Content) : ResolvedPaths :=
  resolvePaths (loadConfig toml configPath content).toOption configPath

/-- `config.toml` is not named like a file of a peer. -/
def ConfigName (configPath : PosixPath) : Prop :=
  ∀ suffix ∈ [lit ".conf", lit ".netdev", lit ".network"],
    endsWith configPath.name suffix = false

instance (configPath : PosixPath) : Decidable (ConfigName configPath) :=
  inferInstanceAs (Decidable (∀ _ ∈ _, _))

/-- Proper paths that the TOML library writes are not read back as others. -/
def KeepsProper (toml : TomlLib) (configPath : PosixPath) : Prop :=
  ∀ config, Proper (resolvePaths (some config) configPath) →
    Proper (pathsOf toml configPath (some (.text (dumpsConfig toml config))))

/-- Every file is UTF-8. -/
def TextOnly (disk : Disk) : Prop := ∀ p c, disk.read p = some c → ∃ s, c = .text s

/-- A disk that `apply` does not stumble over. -/
structure GoodDisk (toml : TomlLib) (configPath : PosixPath) (disk : Disk) : Prop where
  text : TextOnly disk
  nulFree : ∀ p c, disk.read p = some c → p.hasNul = false
  proper : Proper (pathsOf toml configPath (disk.read configPath))

section Disks

variable {toml : TomlLib} {configPath p : PosixPath} {disk : Disk}

theorem pathsOf_read (toml : TomlLib) (configPath : PosixPath) (disk : Disk) :
    pathsOf toml configPath (disk.read configPath) =
      resolvePaths (localConfig toml configPath disk) configPath := rfl

theorem configPath_pathsOf (toml : TomlLib) (configPath : PosixPath) (content : Option Content) :
    (pathsOf toml configPath content).configPath = configPath := by
  unfold pathsOf resolvePaths
  split <;> rfl

/-- The built-in defaults are proper. -/
theorem proper_none (hname : ConfigName configPath) (hnul : configPath.hasNul = false) :
    Proper (pathsOf toml configPath none) := by
  have hpaths : pathsOf toml configPath none = resolvePaths none configPath := rfl
  have hother : ∀ f ∈ (resolvePaths none configPath).birdFiles,
      endsWith f.name (lit ".conf") = true := by
    simp only [resolvePaths, ResolvedPaths.birdFiles, List.forall_mem_cons, List.not_mem_nil,
      false_implies, implies_true, and_true]
    decide
  have hfree : NulFree (resolvePaths none configPath) := by
    constructor
    case configPath => exact hnul
    all_goals
      simp only [resolvePaths]
      decide
  rw [hpaths]
  refine ⟨hfree, fun hmem => ?_⟩
  have hconf := hother configPath hmem
  rw [hname _ (by simp)] at hconf
  cases hconf

/-- A write of text under a path without a NUL. -/
theorem goodDisk_write (h : GoodDisk toml configPath disk) {s : Str} (hp : p.hasNul = false)
    (hconfig : p = configPath → Proper (pathsOf toml configPath (some (.text s)))) :
    GoodDisk toml configPath (disk.write p (.text s)) := by
  refine ⟨fun q c hc => ?_, fun q c hc => ?_, ?_⟩
  · rw [Disk.read_write] at hc
    split at hc
    · cases hc
      exact ⟨s, rfl⟩
    · exact h.text q c hc
  · rw [Disk.read_write] at hc
    split at hc
    · next heq => exact heq ▸ hp
    · exact h.nulFree q c hc
  · rw [Disk.read_write]
    split
    · next heq => exact hconfig heq.symm
    · exact h.proper

/-- A file less. -/
theorem goodDisk_unlink (hname : ConfigName configPath) (h : GoodDisk toml configPath disk)
    (p : PosixPath) : GoodDisk toml configPath (disk.unlink p) := by
  refine ⟨fun q c hc => ?_, fun q c hc => ?_, ?_⟩
  · rw [Disk.read_unlink] at hc
    split at hc
    · cases hc
    · exact h.text q c hc
  · rw [Disk.read_unlink] at hc
    split at hc
    · cases hc
    · exact h.nulFree q c hc
  · rw [Disk.read_unlink]
    split
    · have hnul := h.proper.configPath
      rw [configPath_pathsOf] at hnul
      exact proper_none hname hnul
    · exact h.proper

end Disks

/-! ## the files of a state -/

/-- A file of a peer or of the dummy interface. -/
def Generated (paths : ResolvedPaths) (p : PosixPath) : Prop :=
  ∃ dir ∈ [paths.birdPeersDir, paths.networkdDir],
    ∃ suffix ∈ [lit ".conf", lit ".netdev", lit ".network"],
      ∃ name : Str, 0 ∉ name ∧ p = dir.join (name ++ suffix)

/-- A file that `apply` may write where it has loaded `appConfig`. -/
inductive Written (toml : TomlLib) (paths : ResolvedPaths) (appConfig : Option AppConfig)
    (f : FileSpec) : Prop where
  | generated (h : Generated paths f.path)
  | bird (h : f.path ∈ paths.birdFiles)
  /-- `config.toml`, with the same paths in it. -/
  | config {config merged : AppConfig} (hconfig : appConfig = some config)
      (hpaths : ∀ configPath,
        resolvePaths (some merged) configPath = resolvePaths (some config) configPath)
      (hf : f = ⟨paths.configPath, dumpsConfig toml merged, .priv⟩)

section Files

variable {paths : ResolvedPaths} {p : PosixPath} {f : FileSpec} {toml : TomlLib}
  {appConfig : Option AppConfig} {st : DesiredState}

theorem generated_netBackend {a : NetBackendArgs} (hname : 0 ∉ a.ifname)
    (hf : f ∈ a.files paths.networkdDir) : Generated paths f.path := by
  obtain rfl | rfl := List.mem_pair.mp hf
  · exact ⟨paths.networkdDir, by simp, lit ".netdev", by simp, a.ifname, hname, rfl⟩
  · exact ⟨paths.networkdDir, by simp, lit ".network", by simp, a.ifname, hname, rfl⟩

theorem desiredPeerFiles_cases (h : Renderable st)
    (hf : f ∈ desiredPeerFiles paths st.toDesiredContent) :
    Generated paths f.path ∨ f.path = paths.babelConfPath := by
  simp only [desiredPeerFiles, List.mem_append, List.mem_flatMap, List.mem_singleton] at hf
  obtain (⟨d, hd, hf⟩ | ⟨d, hd, hf⟩) | rfl := hf
  · obtain rfl | hf := List.mem_cons.mp hf
    · exact .inl ⟨paths.birdPeersDir, by simp, lit ".conf", by simp, d.ifname, h.bgpNames d hd, rfl⟩
    · exact .inl (generated_netBackend (h.bgpNames d hd) hf)
  · obtain ⟨hifname, hname⟩ := h.ibgpNames d hd
    rw [desiredIbgpFiles, List.mem_append] at hf
    obtain hf | hf := hf
    · unfold ibgpBirdFiles at hf
      split at hf
      · cases hf
      · rw [List.mem_singleton.mp hf]
        refine .inl ⟨paths.birdPeersDir, by simp, lit ".conf", by simp, lit "ibgp_" ++ d.name, ?_,
          rfl⟩
        simp [hname, lit]
    · split at hf
      · exact .inl (generated_netBackend hifname hf)
      · cases hf
  · exact .inr rfl

theorem mem_nodeFiles_cases {config merged : AppConfig} {extraExists : Bool}
    (hf : f ∈ (nodeFiles toml config merged paths extraExists).1) :
    f = ⟨paths.configPath, dumpsConfig toml merged, .priv⟩ ∨ f.path ∈ paths.birdFiles ∨
      Generated paths f.path := by
  have hdummy : 0 ∉ dummyIfname := by decide
  rw [nodeFiles_fst] at hf
  simp only [List.mem_append, List.mem_singleton] at hf
  obtain ((hf | rfl) | hf) | hf := hf
  · unfold updatedToml at hf
    split at hf
    · cases hf
    · exact .inl (List.mem_singleton.mp hf)
  · exact .inr (.inl (by simp [ResolvedPaths.birdFiles]))
  · unfold extraFiles at hf
    split at hf
    · cases hf
    · rw [List.mem_singleton.mp hf]
      exact .inr (.inl (by simp [ResolvedPaths.birdFiles]))
  · unfold dummyFiles at hf
    split at hf
    · obtain rfl | rfl := List.mem_pair.mp hf
      · exact .inr (.inr ⟨paths.networkdDir, by simp, lit ".netdev", by simp, _, hdummy, rfl⟩)
      · exact .inr (.inr ⟨paths.networkdDir, by simp, lit ".network", by simp, _, hdummy, rfl⟩)
    · cases hf

/-- **What `apply` writes for a state.** -/
theorem desiredFiles_cases {extraExists : Bool} (h : Renderable st)
    (hf : f ∈ desiredPeerFiles paths st.toDesiredContent ++
      (desiredNodeFiles toml appConfig paths extraExists st.node).1) :
    Written toml paths appConfig f := by
  obtain hf | hf := List.mem_append.mp hf
  · obtain hgen | hbabel := desiredPeerFiles_cases h hf
    · exact .generated hgen
    · exact .bird (by simp [hbabel, ResolvedPaths.birdFiles])
  · unfold desiredNodeFiles at hf
    split at hf
    · cases hf
    · cases appConfig with
      | none => cases hf
      | some config =>
          simp only at hf
          split at hf
          · have hpaths : ∀ configPath, resolvePaths (some (mergeBlock config st.node)) configPath =
                resolvePaths (some config) configPath := fun _ => rfl
            obtain rfl | hbird | hgen := mem_nodeFiles_cases hf
            · exact .config rfl hpaths rfl
            · exact .bird hbird
            · exact .generated hgen
          · cases hf

theorem nulFree_partsOf {name : Str} (h : 0 ∉ name) :
    ((PosixPath.partsOf name).any fun part => part.contains 0) = false := by
  rw [List.any_eq_false]
  intro part hpart hcontains
  have h0 : 0 ∈ part := by simpa using hcontains
  exact h (forall_mem_splitOnP (List.mem_of_mem_filter hpart) 0 h0).2

theorem nulFree_join {name : Str} (hp : p.hasNul = false) (hname : 0 ∉ name) :
    (p.join name).hasNul = false := by
  have hparts := nulFree_partsOf hname
  rw [PosixPath.join]
  split
  · rw [PosixPath.hasNul, List.any_append, hparts, Bool.or_false]
    exact hp
  · exact hparts

theorem nulFree_generated (hpaths : NulFree paths) (h : Generated paths p) : p.hasNul = false := by
  obtain ⟨dir, hdir, suffix, hsuffix, name, hname, rfl⟩ := h
  have hfree : ∀ s ∈ [lit ".conf", lit ".netdev", lit ".network"], 0 ∉ s := by decide
  have hdirs : ∀ d ∈ [paths.birdPeersDir, paths.networkdDir], d.hasNul = false := by
    simp [hpaths.birdPeersDir, hpaths.networkdDir]
  exact nulFree_join (hdirs dir hdir) (by simp [hname, hfree suffix hsuffix])

theorem nulFree_birdFile (hpaths : NulFree paths) (h : p ∈ paths.birdFiles) :
    p.hasNul = false := by
  have hfiles : ∀ f ∈ paths.birdFiles, f.hasNul = false := by
    simp [ResolvedPaths.birdFiles, hpaths.babelConfPath, hpaths.birdConfPath,
      hpaths.birdExtraConfPath]
  exact hfiles p h

/-- None of the files of peers is `config.toml`. -/
theorem ne_configPath_of_generated {configPath : PosixPath} (hname : ConfigName configPath)
    (h : Generated paths p) : p ≠ configPath := by
  obtain ⟨dir, -, suffix, hsuffix, name, -, rfl⟩ := h
  have hproper : ∀ s ∈ [lit ".conf", lit ".netdev", lit ".network"], 47 ∉ s ∧ 1 < s.length := by
    decide
  intro heq
  have hends := PosixPath.endsWith_name_join (hproper suffix hsuffix).1 (hproper suffix hsuffix).2
    dir name
  rw [heq, hname suffix hsuffix] at hends
  cases hends

/-- What is written has no NUL in its path. -/
theorem Written.nulFree (h : Written toml paths appConfig f) (hpaths : NulFree paths) :
    f.path.hasNul = false := by
  cases h with
  | generated h => exact nulFree_generated hpaths h
  | bird h => exact nulFree_birdFile hpaths h
  | config _ _ hf =>
      subst hf
      exact hpaths.configPath

end Files

/-! ## what a call meets -/

/-- The paths whose places the reload step may look up. -/
def InReach (paths : ResolvedPaths) (p : PosixPath) : Prop :=
  p ∈ paths.configPath :: paths.birdPeersDir :: paths.networkdDir :: paths.birdFiles ∨
    Generated paths p ∨ Managed paths p

/-- A call on a machine without loops of links, whose commands print text: what a
write that is cut short leaves of `config.toml` has no improper paths. -/
structure SoundApply (toml : TomlLib) (configPath : PosixPath) (env : ApplyEnv)
    (paths : ResolvedPaths) : Prop where
  library : env.toml = toml
  torn : ∀ n left, env.writes n = .torn left →
    ∃ s, left = .text s ∧ Proper (pathsOf toml configPath (some left))
  resolves : ∀ p e, InReach paths p → p.hasNul = false → env.resolve p = .error e → Caught e
  runs : ∀ cmd, ∃ failure, env.runner cmd = .ok failure

section Apply

variable {toml : TomlLib} {configPath : PosixPath} {env : ApplyEnv} {disk : Disk}
  {st : DesiredState} {plan : ApplyPlan}

/-- What is planned on a good disk. -/
theorem planned_written (hst : Renderable st) (htoml : env.toml = toml)
    (hplan : planApply env (desiredPayload st) configPath disk = .ok plan) :
    plan.paths = pathsOf toml configPath (disk.read configPath) ∧
      ∀ f ∈ plan.files, Written toml plan.paths (localConfig toml configPath disk) f := by
  subst htoml
  have hpaths : plan.paths = pathsOf env.toml configPath (disk.read configPath) :=
    (planApply_ok hplan).1
  have hfiles := planApply_files hplan rfl rfl
    (renderDesired_payload env.display env.toml st _ _ _ hst.peerLla)
  refine ⟨hpaths, fun f hf => ?_⟩
  rw [hpaths]
  rw [hfiles] at hf
  exact desiredFiles_cases hst hf

/-- The touched paths are in reach, and have no NUL. -/
theorem touched_inReach (hst : Renderable st) (hdisk : GoodDisk toml configPath disk)
    (htoml : env.toml = toml)
    (hplan : planApply env (desiredPayload st) configPath disk = .ok plan) {p : PosixPath}
    (hp : p ∈ touchedPaths plan.diffs plan.stale) :
    InReach plan.paths p ∧ p.hasNul = false := by
  obtain ⟨hpaths, hwritten⟩ := planned_written hst htoml hplan
  have hproper : Proper plan.paths := hpaths ▸ hdisk.proper
  rw [mem_touchedPaths hplan, List.mem_append] at hp
  obtain hp | hp := hp
  · obtain ⟨f, hf, rfl⟩ := List.mem_map.mp hp
    have hf' := hwritten f (List.mem_of_mem_filter hf)
    refine ⟨?_, hf'.nulFree hproper.toNulFree⟩
    cases hf' with
    | generated h => exact .inr (.inl h)
    | bird h => exact .inl (by simp [h])
    | config _ _ hf =>
        rw [hf]
        exact .inl List.mem_cons_self
  · rw [(planApply_ok hplan).2.2.2.1, mem_staleFiles] at hp
    obtain ⟨hmanaged, hread, -⟩ := hp
    obtain ⟨c, hc⟩ := Option.isSome_iff_exists.mp hread
    exact ⟨.inr (.inr hmanaged), hdisk.nulFree p c hc⟩

/-- The reload step raises nothing but what is caught. -/
theorem not_reloadStops (hst : Renderable st) (hdisk : GoodDisk toml configPath disk)
    (hsound : SoundApply toml configPath env (pathsOf toml configPath (disk.read configPath)))
    (hplan : planApply env (desiredPayload st) configPath disk = .ok plan) :
    ¬ReloadStops env plan.paths (touchedPaths plan.diffs plan.stale) := by
  have hpaths := (planned_written hst hsound.library hplan).1
  have hproper : Proper plan.paths := hpaths ▸ hdisk.proper
  have hresolves : ∀ p, InReach plan.paths p → p.hasNul = false → ¬Unresolvable env p := by
    rintro p hreach hnul ⟨e, hraises, hun⟩
    rw [hpaths] at hreach
    exact hun (hsound.resolves p e hreach hnul hraises)
  have hdirs : ∀ dir ∈ [plan.paths.networkdDir, plan.paths.birdPeersDir],
      ¬Unresolvable env dir := by
    intro dir hdir
    obtain rfl | rfl := List.mem_pair.mp hdir
    · exact hresolves _ (.inl (by simp)) hproper.networkdDir
    · exact hresolves _ (.inl (by simp)) hproper.birdPeersDir
  have hplaced : ∀ p ∈ touchedPaths plan.diffs plan.stale,
      ∀ dir ∈ [plan.paths.networkdDir, plan.paths.birdPeersDir], ¬Unplaced env dir p := by
    rintro p hp dir hdir (hraises | ⟨-, hraises⟩)
    · obtain ⟨hreach, hnul⟩ := touched_inReach hst hdisk hsound.library hplan hp
      exact hresolves p hreach hnul hraises
    · exact hdirs dir hdir hraises
  intro hstops
  cases hstops with
  | networkd htouched _ hp => exact hplaced _ (by simp [htouched]) _ (by simp) hp
  | birdFile _ hfiles _ _ hf =>
      have hmem : _ ∈ plan.paths.birdFiles := hfiles ▸ List.mem_append_right _ List.mem_cons_self
      exact hresolves _ (.inl (by simp [hmem])) (nulFree_birdFile hproper.toNulFree hmem) hf
  | peers _ _ htouched _ hp => exact hplaced _ (by simp [htouched]) _ (by simp) hp
  | command _ _ hcmd =>
      obtain ⟨e, hraises, -⟩ := hcmd
      obtain ⟨failure, hruns⟩ := hsound.runs _
      rw [hruns] at hraises
      cases hraises

/-- **`apply` of a state that renders** raises nothing but what is caught. -/
theorem not_applyStops (hst : Renderable st) (hdisk : GoodDisk toml configPath disk)
    (hsound : SoundApply toml configPath env (pathsOf toml configPath (disk.read configPath)))
    (policy : ReloadPolicy) : ¬ApplyStops env policy (desiredPayload st) configPath disk := by
  have hrender : rendered env (desiredPayload st) configPath disk = _ :=
    renderDesired_payload env.display env.toml st _ _ _ hst.peerLla
  have hproper : Proper (resolvePaths (localConfig env.toml configPath disk) configPath) := by
    rw [hsound.library]
    exact hdisk.proper
  intro hstops
  cases hstops with
  | render herror =>
      rw [hrender] at herror
      cases herror
  | list _ hdir =>
      obtain ⟨m, hm, hnul⟩ := hdir.exists_mem
      have hfree : ∀ m ∈ managedPaths (resolvePaths (localConfig env.toml configPath disk)
          configPath), m.1.hasNul = false := by
        simp [managedPaths, hproper.birdPeersDir, hproper.networkdDir, hproper.nmDir]
      rw [hfree m hm] at hnul
      cases hnul
  | compare _ _ hfile =>
      obtain ⟨f, -, bytes, hbytes⟩ := hfile.exists_mem
      obtain ⟨s, hs⟩ := hdisk.text _ _ hbytes
      cases hs
  | write hplan hfile =>
      obtain ⟨hpaths, hwritten⟩ := planned_written hst hsound.library hplan
      obtain ⟨f, hf, hnul⟩ := hfile.exists_mem
      rw [(hwritten f hf).nulFree (hpaths ▸ hdisk.proper.toNulFree)] at hnul
      cases hnul
  | reload hplan _ _ hstops => exact not_reloadStops hst hdisk hsound hplan hstops

/-! ## what a call leaves -/

/-- A file whose write leaves a good disk. -/
structure Safe (toml : TomlLib) (configPath : PosixPath) (f : FileSpec) : Prop where
  nulFree : f.path.hasNul = false
  config : f.path = configPath → Proper (pathsOf toml configPath (some (.text f.content)))

/-- What `apply` writes is safe. -/
theorem safe_written (hname : ConfigName configPath) (hkeeps : KeepsProper toml configPath)
    (hdisk : GoodDisk toml configPath disk) {f : FileSpec}
    (h : Written toml (pathsOf toml configPath (disk.read configPath))
      (localConfig toml configPath disk) f) : Safe toml configPath f := by
  refine ⟨h.nulFree hdisk.proper.toNulFree, fun heq => ?_⟩
  cases h with
  | generated h => exact absurd heq (ne_configPath_of_generated hname h)
  | bird h =>
      have hapart := hdisk.proper.apart
      rw [configPath_pathsOf] at hapart
      exact absurd (heq ▸ h) hapart
  | config hconfig hpaths hf =>
      subst hf
      have hproper := hdisk.proper
      rw [pathsOf_read, hconfig, ← hpaths] at hproper
      exact hkeeps _ hproper

theorem goodDisk_atomicWrite
    (htorn : ∀ n left, env.writes n = .torn left →
      ∃ s, left = .text s ∧ Proper (pathsOf toml configPath (some left)))
    (n : Nat) {f : FileSpec} (hf : Safe toml configPath f) :
    (atomicWrite (env.writes n) f).Maintains (GoodDisk toml configPath) := by
  cases hout : env.writes n with
  | refused => exact .raise _
  | torn left =>
      obtain ⟨s, rfl, hproper⟩ := htorn n left hout
      exact .bind (fun disk h => goodDisk_write h hf.nulFree fun _ => hproper) fun _ => .raise _
  | done =>
      unfold atomicWrite
      simp only
      split
      · exact .raise _
      · exact fun disk h => goodDisk_write h hf.nulFree hf.config

theorem goodDisk_writeFiles
    (htorn : ∀ n left, env.writes n = .torn left →
      ∃ s, left = .text s ∧ Proper (pathsOf toml configPath (some left)))
    (i : Nat) {files : List FileSpec} (hfiles : ∀ f ∈ files, Safe toml configPath f) :
    (writeFiles env.writes i files).Maintains (GoodDisk toml configPath) := by
  induction files generalizing i with
  | nil => exact .pure _
  | cons f fs ih =>
      obtain ⟨hf, hfs⟩ := List.forall_mem_cons.mp hfiles
      unfold writeFiles
      exact .bind (goodDisk_atomicWrite htorn i hf) fun _ => .bind (ih _ hfs) fun _ => .pure _

theorem goodDisk_unlinkFiles (hname : ConfigName configPath) (fails : Nat → Bool) (i : Nat)
    (ps : List PosixPath) :
    (unlinkFiles fails i ps).Maintains (GoodDisk toml configPath) := by
  induction ps generalizing i with
  | nil => exact .pure _
  | cons p ps ih =>
      unfold unlinkFiles
      refine .bind ?_ fun _ => .bind (ih _) fun _ => .pure _
      unfold unlinkStale
      split
      · exact .raise _
      · refine .bind (fun disk h => h) fun found => ?_
        split
        · exact .bind (fun disk h => goodDisk_unlink hname h p) fun _ => .pure _
        · exact .pure _

/-- **What `apply` leaves**: a good disk, however the call ends. -/
theorem goodDisk_apply (hname : ConfigName configPath) (hkeeps : KeepsProper toml configPath)
    (hst : Renderable st) (hdisk : GoodDisk toml configPath disk)
    (hsound : SoundApply toml configPath env (pathsOf toml configPath (disk.read configPath)))
    (revision : Str) (noReload : Bool) (policy : ReloadPolicy) :
    GoodDisk toml configPath
      ((apply env (some ⟨revision, desiredPayload st⟩) configPath false noReload policy).run
        disk).2 := by
  cases hplan : planApply env (desiredPayload st) configPath disk with
  | error e =>
      rw [run_apply_of_error hplan]
      exact hdisk
  | ok plan =>
      obtain ⟨hpaths, hwritten⟩ := planned_written hst hsound.library hplan
      rw [hpaths] at hwritten
      have hsafe : ∀ f ∈ plan.files, Safe toml configPath f := fun f hf =>
        safe_written hname hkeeps hdisk (hwritten f hf)
      have hkept : (execute env plan revision noReload policy).Maintains
          (GoodDisk toml configPath) := by
        unfold execute ensurePolicy
        refine .bind (goodDisk_writeFiles hsound.torn 0 hsafe) fun _ => .bind ?_ fun _ =>
          .bind (goodDisk_unlinkFiles hname _ 0 _) fun _ => .bind (.lift _) fun _ => .pure _
        split
        · exact .raise _
        · exact .pure _
      rw [run_apply_of_plan hplan]
      exact hkept disk hdisk

end Apply

end NodeAgent

end Dn42Ctl
