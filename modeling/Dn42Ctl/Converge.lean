import Dn42Ctl.RenderAgreement
import Dn42Ctl.Reloads
import Dn42Ctl.TemplateLines

/-!
# Converge

`apply` as a call that is made again and again on one cached state.

A machine is *steady* when every file `apply` would write is on disk with that
text, and the managed names in the managed directories are the names of these
files.  A call on a steady machine writes the same texts once more, deletes
nothing and reloads nothing.

* `Steady.run` — what any call, however it ends, leaves on a steady machine;
* `steady_of_apply` — one call that returns makes the machine steady, though it
  may have rewritten the `config.toml` that decides what the next one writes;
* `apply_settles` — the two together, over any later calls.
-/

namespace Dn42Ctl

open Text

/-! ## what the node block changes -/

section Render

variable (display : Json → Str)

/-- The peers' part of `renderDesired`. -/
def renderPeers (payload : JsonObject) (paths : ResolvedPaths) :
    Except PyError (List FileSpec) := do
  let bgpPeers ← payloadPeers payload "bgp_peers"
  let bgpFiles ← collect (fun peer => renderBgpPeerFiles display peer paths) bgpPeers
  let ibgpPeers ← payloadPeers payload "ibgp_peers"
  let ibgpFiles ← collect (fun peer => renderIbgpPeerFiles display peer paths) ibgpPeers
  let babel ← renderBabel display payload paths
  pure (bgpFiles ++ ibgpFiles ++ [babel])

/-- The configuration a machine has once the payload's node block is applied. -/
def configAfter (payload : JsonObject) (config : AppConfig) : Except PyError AppConfig := do
  let block := Json.getD (lit "node") payload .null
  if block.truthy then
    let any ← hasUpdates block
    if any then nodeUpdates display block config else pure config
  else pure config

theorem renderDesired_ok {toml : TomlLib} {payload : JsonObject} {paths : ResolvedPaths}
    {appConfig : Option AppConfig} {extraExists : Bool} {files : List FileSpec}
    {warnings : List Msg} :
    renderDesired display toml payload paths appConfig extraExists = .ok (files, warnings) ↔
      ∃ peers node, renderPeers display payload paths = .ok peers ∧
        renderNodeBlock display toml payload paths appConfig extraExists = .ok (node, warnings) ∧
        files = peers ++ node := by
  unfold renderDesired renderPeers
  simp only [Prog.bind_eq_ok]
  constructor
  · rintro ⟨bgp, hbgp, bgpFiles, hbgpFiles, ibgp, hibgp, ibgpFiles, hibgpFiles, babel, hbabel,
      node, hnode, h⟩
    cases h
    exact ⟨_, node.1, ⟨bgp, hbgp, bgpFiles, hbgpFiles, ibgp, hibgp, ibgpFiles, hibgpFiles, babel,
      hbabel, rfl⟩, hnode, rfl⟩
  · rintro ⟨peers, node, ⟨bgp, hbgp, bgpFiles, hbgpFiles, ibgp, hibgp, ibgpFiles, hibgpFiles,
      babel, hbabel, hpeers⟩, hnode, rfl⟩
    cases hpeers
    exact ⟨bgp, hbgp, bgpFiles, hbgpFiles, ibgp, hibgp, ibgpFiles, hibgpFiles, babel, hbabel,
      _, hnode, rfl⟩

/-- A node block that was applied asks for nothing more. -/
theorem nodeUpdates_again {block : Json} {config merged : AppConfig}
    (h : nodeUpdates display block config = .ok merged) :
    nodeUpdates display block merged = .ok merged := by
  unfold nodeUpdates at h ⊢
  simp only [Prog.bind_eq_ok] at h ⊢
  obtain ⟨ip, hip, rid, hrid, h⟩ := h
  cases h
  refine ⟨ip, hip, rid, hrid, ?_⟩
  congr 2
  · split <;> rfl
  · split <;> rfl

/-- Only the node's own addresses change. -/
theorem nodeUpdates_paths {block : Json} {config merged : AppConfig} (configPath : PosixPath)
    (h : nodeUpdates display block config = .ok merged) :
    resolvePaths (some merged) configPath = resolvePaths (some config) configPath := by
  unfold nodeUpdates at h
  simp only [Prog.bind_eq_ok] at h
  obtain ⟨ip, -, rid, -, h⟩ := h
  cases h
  rfl

/-- The node block's files are none, whatever is on disk, or those of an updated
configuration, which is not updated further. -/
theorem renderNodeBlock_cases {toml : TomlLib} {payload : JsonObject} {paths : ResolvedPaths}
    {appConfig : Option AppConfig} {extraExists : Bool} {node : List FileSpec}
    {warnings : List Msg}
    (h : renderNodeBlock display toml payload paths appConfig extraExists =
      .ok (node, warnings)) :
    (node = [] ∧
      (∀ again, renderNodeBlock display toml payload paths appConfig again = .ok ([], warnings)) ∧
      ∀ config, appConfig = some config → configAfter display payload config = .ok config) ∨
    ∃ config merged, appConfig = some config ∧ configAfter display payload config = .ok merged ∧
      (∀ configPath,
        resolvePaths (some merged) configPath = resolvePaths (some config) configPath) ∧
      (node, warnings) = nodeFiles toml config merged paths extraExists ∧
      ∀ again, renderNodeBlock display toml payload paths (some merged) again =
        .ok (nodeFiles toml merged merged paths again) := by
  unfold renderNodeBlock at h ⊢
  unfold configAfter
  simp only at h ⊢
  cases htruthy : (Json.getD (lit "node") payload .null).truthy with
  | false =>
      simp only [htruthy, Bool.false_eq_true, if_false] at h ⊢
      cases h
      exact .inl ⟨rfl, fun _ => rfl, fun config _ => rfl⟩
  | true =>
      simp only [htruthy, if_true] at h ⊢
      cases appConfig with
      | none =>
          cases h
          exact .inl ⟨rfl, fun _ => rfl, fun config hconfig => (by cases hconfig)⟩
      | some config =>
          unfold renderNodeConfigFiles at h ⊢
          simp only [Prog.bind_eq_ok] at h ⊢
          obtain ⟨any, hany, h⟩ := h
          cases any with
          | false =>
              simp only [Bool.false_eq_true, if_false] at h
              cases h
              exact .inl ⟨rfl, fun again => ⟨false, hany, rfl⟩, fun config' hconfig =>
                ⟨false, hany, rfl⟩⟩
          | true =>
              simp only [if_true, Prog.bind_eq_ok] at h
              obtain ⟨merged, hmerged, h⟩ := h
              refine .inr ⟨config, merged, rfl, ⟨true, hany, hmerged⟩,
                fun configPath => nodeUpdates_paths display configPath hmerged,
                (Except.ok.inj h).symm, fun again => ⟨true, hany, ?_⟩⟩
              simp only [if_true, Prog.bind_eq_ok]
              exact ⟨merged, nodeUpdates_again display hmerged, rfl⟩

end Render

/-- The files of the dummy interface, where networkd manages it. -/
def dummyFiles (config : AppConfig) (paths : ResolvedPaths) : List FileSpec :=
  if config.dummyBackend = lit "networkd" then
    [⟨paths.networkdDir.join (dummyIfname ++ lit ".netdev"), renderDummyNetdev, .netdev⟩,
     ⟨paths.networkdDir.join (dummyIfname ++ lit ".network"),
      renderDummyNetwork config.ownIpv6, .network⟩]
  else []

/-- The placeholder of `extra.conf`, where there is none. -/
def extraFiles (paths : ResolvedPaths) (extraExists : Bool) : List FileSpec :=
  if extraExists then []
  else [⟨paths.birdExtraConfPath, renderBirdExtraConfPlaceholder, .bird⟩]

theorem nodeFiles_fst (toml : TomlLib) (config merged : AppConfig) (paths : ResolvedPaths)
    (extraExists : Bool) :
    (nodeFiles toml config merged paths extraExists).1 =
      updatedToml toml paths.configPath config merged ++
        [⟨paths.birdConfPath, mainConf merged paths, .bird⟩] ++
        extraFiles paths extraExists ++ dummyFiles merged paths := by
  unfold nodeFiles dummyFiles
  by_cases hback : merged.dummyBackend = lit "networkd"
  · simp only [if_pos hback]
    rfl
  · simp only [if_neg hback, List.append_nil]
    rfl

/-- The files of a block that was applied before are among those of the block,
and the others are `config.toml` and `extra.conf`. -/
theorem mem_nodeFiles {toml : TomlLib} {config merged : AppConfig} {paths : ResolvedPaths}
    {extraExists : Bool} {f : FileSpec} :
    f ∈ (nodeFiles toml config merged paths extraExists).1 ↔
      f ∈ (nodeFiles toml merged merged paths true).1 ∨
        f ∈ updatedToml toml paths.configPath config merged ∨ f ∈ extraFiles paths extraExists := by
  have htoml : updatedToml toml paths.configPath merged merged = [] := if_pos rfl
  have hextra : extraFiles paths true = [] := rfl
  rw [nodeFiles_fst, nodeFiles_fst, htoml, hextra]
  simp only [List.mem_append, List.mem_singleton, List.not_mem_nil, false_or, or_false]
  tauto

/-! ## a steady machine -/

/-- Everything `apply` would write is on disk, and nothing else under a managed
name. -/
structure Steady (toml : TomlLib) (display : Json → Str) (payload : JsonObject)
    (configPath : PosixPath) (files : List FileSpec) (disk : Disk) : Prop where
  rendered : ∃ warnings, renderDesired display toml payload
    (resolvePaths (localConfig toml configPath disk) configPath) (localConfig toml configPath disk)
    (disk.read (resolvePaths (localConfig toml configPath disk) configPath).birdExtraConfPath).isSome
      = .ok (files, warnings)
  settled : ∀ f ∈ files, Settled disk f
  lines : ∀ f ∈ files, 13 ∉ f.content
  writable : ∀ f ∈ files, f.path.hasNul = false
  configKept : configPath ∉ files.map FileSpec.path
  mirrored : ∀ p, Managed (resolvePaths (localConfig toml configPath disk) configPath) p →
    (disk.read p).isSome → p ∈ files.map FileSpec.path

/-- A call of the same program with the same cached state that leaves no file
half written. -/
structure ApplyCall.Again (toml : TomlLib) (display : Json → Str) (cached : PullResult)
    (c : ApplyCall) : Prop where
  cached : c.cached = some cached
  toml : c.env.toml = toml
  display : c.env.display = display
  notTorn : ∀ n left, c.env.writes n ≠ .torn left

section Steady

variable {toml : TomlLib} {display : Json → Str} {payload : JsonObject} {configPath : PosixPath}
  {files : List FileSpec} {disk disk' : Disk}

/-- Only what can be read matters. -/
theorem Steady.of_reads (h : Steady toml display payload configPath files disk)
    (hreads : ∀ p, disk'.read p = disk.read p) :
    Steady toml display payload configPath files disk' := by
  have hconfig : localConfig toml configPath disk' = localConfig toml configPath disk := by
    rw [localConfig, hreads, localConfig]
  refine ⟨?_, fun f hf => ?_, h.lines, h.writable, h.configKept, ?_⟩
  · rw [hconfig, hreads]
    exact h.rendered
  · rw [Settled, hreads]
    exact h.settled f hf
  · rw [hconfig]
    intro p hp hread
    rw [hreads] at hread
    exact h.mirrored p hp hread

/-- A settled file without carriage returns compares as unchanged. -/
theorem diffOf_settled {f : FileSpec} (h : Settled disk f) (hline : 13 ∉ f.content) :
    diffOf disk f = .ok ⟨f.path, .unchanged⟩ := by
  unfold diffOf
  rw [show disk.read f.path = _ from h]
  simp only [Content.readText, universalNewlines_eq_self.mpr hline, if_true]
  rfl

theorem diffAll_of_settled (hsettled : ∀ f ∈ files, Settled disk f)
    (hlines : ∀ f ∈ files, 13 ∉ f.content) {fails : Nat → Bool} (hfails : ∀ n, fails n = false)
    (i : Nat) :
    diffAll fails disk i files = .ok (files.map fun f => ⟨f.path, .unchanged⟩) := by
  induction files generalizing i with
  | nil => rfl
  | cons f fs ih =>
      rw [diffAll, hfails, if_neg Bool.false_ne_true,
        diffOf_settled (hsettled f List.mem_cons_self) (hlines f List.mem_cons_self),
        ih (fun g hg => hsettled g (List.mem_cons_of_mem f hg))
          (fun g hg => hlines g (List.mem_cons_of_mem f hg))]
      rfl

theorem diffAll_settled {fails : Nat → Bool} {i : Nat} {diffs : List ApplyDiff}
    (hsettled : ∀ f ∈ files, Settled disk f) (hlines : ∀ f ∈ files, 13 ∉ f.content)
    (h : diffAll fails disk i files = .ok diffs) :
    diffs = files.map fun f => ⟨f.path, .unchanged⟩ := by
  induction files generalizing i diffs with
  | nil =>
      cases h
      rfl
  | cons f fs ih =>
      unfold diffAll at h
      split at h
      · cases h
      · simp only [Prog.bind_eq_ok] at h
        obtain ⟨d, hd, ds, hds, h⟩ := h
        cases h
        rw [diffOf_settled (hsettled f List.mem_cons_self) (hlines f List.mem_cons_self)] at hd
        cases hd
        rw [ih (fun g hg => hsettled g (List.mem_cons_of_mem f hg))
          (fun g hg => hlines g (List.mem_cons_of_mem f hg)) hds]
        rfl

theorem Steady.stale (h : Steady toml display payload configPath files disk) :
    staleFiles (files.map FileSpec.path)
      (resolvePaths (localConfig toml configPath disk) configPath) disk = [] := by
  rw [List.eq_nil_iff_forall_not_mem]
  intro p hp
  obtain ⟨hmanaged, hread, hexp⟩ := mem_staleFiles.mp hp
  exact hexp (h.mirrored p hmanaged hread)

/-- The plan of a call on a steady machine. -/
theorem Steady.plan (h : Steady toml display payload configPath files disk) {env : ApplyEnv}
    (htoml : env.toml = toml) (hdisplay : env.display = display) {plan : ApplyPlan}
    (hplan : planApply env payload configPath disk = .ok plan) :
    plan.files = files ∧ plan.stale = [] ∧
      plan.diffs = files.map fun f => ⟨f.path, .unchanged⟩ := by
  subst htoml hdisplay
  obtain ⟨warnings, hrendered⟩ := h.rendered
  have hfiles : plan.files = files := planApply_files hplan rfl rfl hrendered
  obtain ⟨hpaths, -, -, hstale, diffs, hdiffs, hall⟩ := planApply_ok hplan
  rw [hfiles] at hstale hdiffs
  rw [hpaths, h.stale] at hstale
  rw [hstale, List.map_nil, List.append_nil] at hall
  exact ⟨hfiles, hstale, by rw [hall, diffAll_settled h.settled h.lines hdiffs]⟩

/-- Where nothing differs and nothing was deleted, nothing was touched. -/
theorem touchedPaths_unchanged {diffs : List ApplyDiff}
    (h : ∀ d ∈ diffs, d.action = .unchanged) : touchedPaths diffs [] = [] := by
  have hchanged : changedPaths diffs = [] := by
    rw [changedPaths, List.map_eq_nil_iff, List.filter_eq_nil_iff]
    intro d hd
    simp [h d hd]
  rw [touchedPaths, hchanged]
  rfl

/-- The result of a call that found nothing to do. -/
structure ApplyResult.Quiet (configPath : PosixPath) (r : ApplyResult) : Prop where
  diffs : ∀ d ∈ r.diffs, d.action = .unchanged
  written : configPath ∉ r.written
  deleted : r.deleted = []
  reloads : r.reloads = []

/-- **A call on a steady machine**: it changes no file, however it ends, and if it
returns it reports nothing to do. -/
theorem Steady.run {cached : PullResult}
    (h : Steady toml display cached.payload configPath files disk) {env : ApplyEnv}
    (htoml : env.toml = toml) (hdisplay : env.display = display)
    (htorn : ∀ n left, env.writes n ≠ .torn left) {dryRun noReload : Bool} {policy : ReloadPolicy}
    {res : Except PyError ApplyResult}
    (hrun : (apply env (some cached) configPath dryRun noReload policy).run disk =
      (res, disk')) :
    (∀ p, disk'.read p = disk.read p) ∧ ∀ r, res = .ok r → r.Quiet configPath := by
  cases hplan : planApply env cached.payload configPath disk with
  | error e =>
      rw [run_apply_of_error hplan] at hrun
      cases hrun
      exact ⟨fun p => rfl, fun r hr => (by cases hr)⟩
  | ok plan =>
      obtain ⟨hfiles, hstale, hdiffs⟩ := h.plan htoml hdisplay hplan
      have hunchanged : ∀ d ∈ plan.diffs, d.action = .unchanged := by
        rw [hdiffs]
        intro d hd
        obtain ⟨f, -, rfl⟩ := List.mem_map.mp hd
        rfl
      rw [run_apply_of_plan hplan] at hrun
      split at hrun
      · cases hrun
        exact ⟨fun p => rfl, fun r hr => (by cases hr; exact ⟨hunchanged, by simp, rfl, rfl⟩)⟩
      · cases res with
        | ok r =>
            obtain ⟨-, hrdiffs, hwritten, hread, hunlink, hreloads, -⟩ := execute_ok hrun
            rw [hfiles] at hwritten hread
            have hnone : r.deleted = [] := (deleted_eq hplan hunlink).trans hstale
            rw [hnone, touchedPaths_unchanged hunchanged] at hreloads
            refine ⟨fun p => ?_, fun r' hr' => ?_⟩
            · rw [hread, hstale, if_neg List.not_mem_nil, read_writeAll_settled h.settled]
            · cases hr'
              exact ⟨by rwa [hrdiffs], by rw [hwritten]; exact h.configKept, hnone,
                reloadStep_nil hreloads⟩
        | error e =>
            refine ⟨?_, fun r hr => (by cases hr)⟩
            have hwritten : ∀ written disk1, (writeFiles env.writes 0 plan.files).run disk =
                (.ok written, disk1) → ∀ p, disk1.read p = disk.read p := by
              intro written disk1 hwrite p
              rw [(writeFiles_ok hwrite).2, hfiles, read_writeAll_settled h.settled]
            cases execute_error_iff.mp hrun with
            | write hwrite =>
                apply writeFiles_harmless ?_ hwrite
                intro k file _ _
                refine ⟨htorn _, fun j g _ hg => ?_⟩
                rw [hfiles] at hg
                exact h.settled g (List.mem_of_getElem? hg)
            | policy hwrite => exact hwritten _ _ hwrite
            | unlink hwrite _ hunlink =>
                rw [hstale] at hunlink
                cases hunlink
            | reload hwrite _ hunlink =>
                rw [hstale] at hunlink
                cases hunlink
                exact hwritten _ _ hwrite

/-- Nothing outside stops the calls: every operation succeeds, and the paths of
BIRD's own files can be resolved. -/
structure ApplyEnv.Calm (env : ApplyEnv) (paths : ResolvedPaths) : Prop where
  lists : Lists env.listFails paths
  diffFails : ∀ n, env.diffFails n = false
  writes : ∀ n, env.writes n = .done
  policyFails : env.policyFails = false
  unlinkFails : ∀ n, env.unlinkFails n = false
  resolves : ∀ f ∈ paths.birdFiles, f.isAbsolute = true → ∃ q, env.resolve f = .ok q

/-- A call that can plan returns when nothing outside stops it, up to the reload
step. -/
theorem apply_returns {env : ApplyEnv} {cached : PullResult} {plan : ApplyPlan}
    (hcalm : env.Calm plan.paths)
    (hplan : planApply env cached.payload configPath disk = .ok plan)
    (hnul : ∀ f ∈ plan.files, f.path.hasNul = false) (dryRun noReload : Bool)
    (policy : ReloadPolicy)
    (hreload : ∃ actions, reloadStep env plan.paths noReload policy
      (touchedPaths plan.diffs plan.stale) = .ok actions) :
    ∃ r disk',
      (apply env (some cached) configPath dryRun noReload policy).run disk = (.ok r, disk') := by
  rw [run_apply_of_plan hplan]
  cases dryRun with
  | true => exact ⟨_, _, rfl⟩
  | false =>
      have hunlinks : ∀ k < plan.stale.length, env.unlinkFails (0 + k) = false :=
        fun k _ => hcalm.unlinkFails _
      obtain ⟨deleted, disk', hunlink⟩ :=
        unlinkFiles_returns hunlinks (disk.writeAll (writesOf plan.files))
      obtain ⟨actions, hactions⟩ := hreload
      have hdone : ∀ k f, plan.files[k]? = some f → ¬WriteFails env.writes (0 + k) f := by
        rintro k f hk (hout | hfails)
        · exact hout (hcalm.writes _)
        · rw [hnul f (List.mem_of_getElem? hk)] at hfails
          cases hfails
      rw [← deleted_eq hplan hunlink] at hactions
      simp only [Bool.false_eq_true, if_false]
      rw [execute, ensurePolicy, hcalm.policyFails, if_neg Bool.false_ne_true,
        Prog.run_bind_ok (writeFiles_run hdone disk),
        Prog.run_bind_ok (Prog.run_pure _ _), Prog.run_bind_ok hunlink,
        Prog.run_bind_ok ((Prog.run_lift _ _).trans (congrArg (·, disk') hactions))]
      exact ⟨_, _, rfl⟩

/-- With nothing touched, only the paths of BIRD's own files are resolved. -/
theorem reloadStep_untouched {env : ApplyEnv} {paths : ResolvedPaths}
    (hresolves : ∀ f ∈ paths.birdFiles, f.isAbsolute = true → ∃ q, env.resolve f = .ok q)
    (noReload : Bool) (policy : ReloadPolicy) :
    ∃ actions, reloadStep env paths noReload policy [] = .ok actions := by
  rw [reloadStep]
  split
  · exact ⟨[], rfl⟩
  · cases htargets : birdTargets env.resolve paths.birdFiles with
    | ok targets =>
        refine ⟨[], Prog.bind_eq_ok.mpr ⟨[], ?_, rfl⟩⟩
        exact Prog.bind_eq_ok.mpr ⟨false, rfl, Prog.bind_eq_ok.mpr ⟨targets, htargets, rfl⟩⟩
    | error e =>
        exfalso
        obtain ⟨f, hf, hraises⟩ := Except.mapM_error htargets
        split at hraises
        · next habs =>
            obtain ⟨q, hq⟩ := hresolves f hf habs
            rw [hq] at hraises
            cases hraises
        · cases hraises

theorem Steady.returns (h : Steady toml display payload configPath files disk) {env : ApplyEnv}
    (hcalm : env.Calm (resolvePaths (localConfig toml configPath disk) configPath))
    (htoml : env.toml = toml) (hdisplay : env.display = display)
    (revision : Str) (dryRun noReload : Bool) (policy : ReloadPolicy) :
    ∃ r disk', (apply env (some ⟨revision, payload⟩) configPath dryRun noReload policy).run disk =
      (.ok r, disk') := by
  subst htoml hdisplay
  obtain ⟨warnings, hrendered⟩ := h.rendered
  have hplan : planApply env (⟨revision, payload⟩ : PullResult).payload configPath disk = .ok _ :=
    planApply_eq rfl rfl hrendered hcalm.lists h.stale
      (diffAll_of_settled h.settled h.lines hcalm.diffFails 0)
  refine apply_returns hcalm hplan h.writable dryRun noReload policy ?_
  have htouched : touchedPaths (files.map fun f => ⟨f.path, .unchanged⟩) [] = [] := by
    apply touchedPaths_unchanged
    intro d hd
    obtain ⟨f, -, rfl⟩ := List.mem_map.mp hd
    rfl
  simp only [List.map_nil, List.append_nil, htouched]
  exact reloadStep_untouched hcalm.resolves noReload policy

end Steady

/-! ## the first call -/

/-- The paths of the node block's files, besides `config.toml`. -/
def blockPaths (paths : ResolvedPaths) : List PosixPath :=
  [paths.birdConfPath, paths.birdExtraConfPath,
   paths.networkdDir.join (dummyIfname ++ lit ".netdev"),
   paths.networkdDir.join (dummyIfname ++ lit ".network")]

/-- Every file has one use: no two of the files a call may write are the same, and
the two it does not always write are not taken for left-over peer files. -/
structure PathsApart (paths : ResolvedPaths) (peers : List PosixPath) : Prop where
  distinct : (peers ++ paths.configPath :: blockPaths paths).Nodup
  config : ¬Managed paths paths.configPath
  extra : ¬Managed paths paths.birdExtraConfPath

theorem extraFiles_paths (paths : ResolvedPaths) (extraExists : Bool) :
    ((extraFiles paths extraExists).map FileSpec.path).Sublist [paths.birdExtraConfPath] := by
  cases extraExists with
  | true => exact List.nil_sublist _
  | false => exact List.Sublist.refl _

theorem nodeFiles_paths (toml : TomlLib) (config merged : AppConfig) (paths : ResolvedPaths)
    (extraExists : Bool) :
    ∃ rest, (nodeFiles toml config merged paths extraExists).1.map FileSpec.path =
        (updatedToml toml paths.configPath config merged).map FileSpec.path ++ rest ∧
      rest.Sublist (blockPaths paths) := by
  have hdummy : ((dummyFiles merged paths).map FileSpec.path).Sublist
      [paths.networkdDir.join (dummyIfname ++ lit ".netdev"),
       paths.networkdDir.join (dummyIfname ++ lit ".network")] := by
    unfold dummyFiles
    split
    · exact List.Sublist.refl _
    · exact List.nil_sublist _
  rw [nodeFiles_fst, List.append_assoc, List.append_assoc, List.map_append]
  refine ⟨_, rfl, ?_⟩
  rw [List.map_append, List.map_append]
  exact List.Sublist.cons_cons _ ((extraFiles_paths paths extraExists).append hdummy)

theorem updatedToml_paths (toml : TomlLib) (configPath : PosixPath) (config merged : AppConfig) :
    ((updatedToml toml configPath config merged).map FileSpec.path).Sublist [configPath] := by
  unfold updatedToml
  split
  · exact List.nil_sublist _
  · exact List.Sublist.refl _

theorem PathsApart.nodup {paths : ResolvedPaths} {peers : List FileSpec}
    (h : PathsApart paths (peers.map FileSpec.path)) (toml : TomlLib) (config merged : AppConfig)
    (extraExists : Bool) :
    ((peers ++ (nodeFiles toml config merged paths extraExists).1).map FileSpec.path).Nodup := by
  obtain ⟨rest, hpaths, hrest⟩ := nodeFiles_paths toml config merged paths extraExists
  rw [List.map_append, hpaths]
  apply List.Nodup.sublist ?_ h.distinct
  apply List.Sublist.append (List.Sublist.refl _)
  exact (updatedToml_paths toml paths.configPath config merged).append hrest

/-- `config.toml` is written as such or not at all. -/
theorem PathsApart.notMem_config {paths : ResolvedPaths} {peers : List FileSpec}
    (h : PathsApart paths (peers.map FileSpec.path)) (toml : TomlLib) (config : AppConfig)
    (extraExists : Bool) :
    paths.configPath ∉
      (peers ++ (nodeFiles toml config config paths extraExists).1).map FileSpec.path := by
  obtain ⟨rest, hpaths, hrest⟩ := nodeFiles_paths toml config config paths extraExists
  have htoml : updatedToml toml paths.configPath config config = [] := if_pos rfl
  rw [htoml, List.map_nil, List.nil_append] at hpaths
  obtain ⟨-, hblock, hdisjoint⟩ := List.nodup_append'.mp h.distinct
  rw [List.map_append, hpaths, List.mem_append, not_or]
  exact ⟨fun hmem => hdisjoint hmem List.mem_cons_self,
    fun hmem => (List.nodup_cons.mp hblock).1 (hrest.subset hmem)⟩

section First

variable {env : ApplyEnv} {cached : PullResult} {configPath : PosixPath} {noReload : Bool}
  {policy : ReloadPolicy} {disk disk' : Disk} {r : ApplyResult} {plan : ApplyPlan}

/-- What a call that returned left on disk, when its files were distinct. -/
structure Applied (plan : ApplyPlan) (disk disk' : Disk) : Prop where
  written : ∀ f ∈ plan.files, Settled disk' f
  others : ∀ p, p ∉ plan.files.map FileSpec.path →
    disk'.read p = if Managed plan.paths p then none else disk.read p
  writable : ∀ f ∈ plan.files, f.path.hasNul = false

theorem applied_of_run (hplan : planApply env cached.payload configPath disk = .ok plan)
    (hdistinct : (plan.files.map FileSpec.path).Nodup)
    (hrun : (apply env (some cached) configPath false noReload policy).run disk =
      (.ok r, disk')) : Applied plan disk disk' := by
  rw [run_apply_of_plan hplan] at hrun
  simp only [Bool.false_eq_true, if_false] at hrun
  have hread := (execute_ok hrun).2.2.2.1
  refine ⟨fun f hf => ?_, fun p hp => ?_, ?_⟩
  · have hmem : f.path ∈ plan.files.map FileSpec.path := List.mem_map_of_mem hf
    rw [Settled, hread, if_neg (notMem_stale hplan hmem)]
    exact Disk.read_writeAll_of_mem (by rwa [map_fst_writesOf])
      (mem_writesOf.mpr ⟨f, hf, rfl, rfl⟩)
  · have hsame : (disk.writeAll (writesOf plan.files)).read p = disk.read p :=
      Disk.read_writeAll_of_notMem (by rwa [map_fst_writesOf])
    have hstale : p ∈ plan.stale ↔ Managed plan.paths p ∧ (disk.read p).isSome := by
      rw [(planApply_ok hplan).2.2.2.1, mem_staleFiles]
      simp only [hp, not_false_eq_true, and_true]
    rw [hread, hsame]
    by_cases hmanaged : Managed plan.paths p
    · rw [if_pos hmanaged]
      cases h : disk.read p with
      | none => simp
      | some content => rw [if_pos (hstale.mpr ⟨hmanaged, by simp [h]⟩)]
    · rw [if_neg hmanaged, if_neg fun h => hmanaged (hstale.mp h).1]
  · unfold execute at hrun
    simp only [Prog.run_bind_eq_ok] at hrun
    obtain ⟨written, disk1, hwrite, -⟩ := hrun
    intro f hf
    obtain ⟨k, hk⟩ := List.mem_iff_getElem?.mp hf
    by_contra hnul
    exact writeFiles_done hwrite hk (.inr (by simpa using hnul))

/-- A managed file that is still there was written. -/
theorem Applied.mirrored (h : Applied plan disk disk') {p : PosixPath}
    (hp : Managed plan.paths p) (hread : (disk'.read p).isSome) :
    p ∈ plan.files.map FileSpec.path := by
  by_contra hnot
  rw [h.others p hnot, if_pos hp] at hread
  cases hread

/-- The updated configuration can be written and loaded. -/
def Loadable (toml : TomlLib) (config merged : AppConfig) : Prop :=
  merged ≠ config → merged.Valid ∧ toml.RoundTrips (configDocument merged)

/-- After the call the machine has the updated configuration. -/
theorem localConfig_applied {config merged : AppConfig} {toml : TomlLib}
    (h : Applied plan disk disk')
    (hconfig : localConfig toml configPath disk = some config)
    (hload : Loadable toml config merged)
    (hwritten : ∀ f ∈ updatedToml toml configPath config merged, f ∈ plan.files)
    (hkept : merged = config → configPath ∉ plan.files.map FileSpec.path)
    (hunmanaged : ¬Managed plan.paths configPath) :
    localConfig toml configPath disk' = some merged := by
  by_cases hsame : merged = config
  · have hread := h.others configPath (hkept hsame)
    rw [if_neg hunmanaged] at hread
    rw [localConfig, hread, hsame]
    exact hconfig
  · obtain ⟨hvalid, hround⟩ := hload hsame
    have hfile := h.written ⟨configPath, dumpsConfig toml merged, .priv⟩
      (hwritten _ (by rw [updatedToml, if_neg hsame]; exact List.mem_singleton_self _))
    rw [localConfig, show disk'.read configPath = _ from hfile,
      loadConfig_dumpsConfig configPath hround hvalid]
    rfl

/-- After the call there is an `extra.conf`. -/
theorem extra_applied (h : Applied plan disk disk')
    (hwritten : ∀ f ∈ extraFiles plan.paths (disk.read plan.paths.birdExtraConfPath).isSome,
      f ∈ plan.files)
    (hunmanaged : ¬Managed plan.paths plan.paths.birdExtraConfPath) :
    (disk'.read plan.paths.birdExtraConfPath).isSome = true := by
  by_cases hmem : plan.paths.birdExtraConfPath ∈ plan.files.map FileSpec.path
  · obtain ⟨f, hf, hpath⟩ := List.mem_map.mp hmem
    rw [← hpath, show disk'.read f.path = _ from h.written f hf]
    rfl
  · rw [h.others _ hmem, if_neg hunmanaged]
    cases hexists : (disk.read plan.paths.birdExtraConfPath).isSome with
    | true => rfl
    | false =>
        rw [hexists] at hwritten
        exact absurd (List.mem_map_of_mem (hwritten _ (List.mem_singleton_self _))) hmem

/-- A call that does not write `config.toml` keeps the configuration. -/
theorem localConfig_kept (toml : TomlLib) (h : Applied plan disk disk')
    (hkept : configPath ∉ plan.files.map FileSpec.path)
    (hunmanaged : ¬Managed plan.paths configPath) :
    localConfig toml configPath disk' = localConfig toml configPath disk := by
  have hread := h.others configPath hkept
  rw [if_neg hunmanaged] at hread
  rw [localConfig, hread, localConfig]

/-- A call whose node block asks for nothing. -/
theorem steady_of_peers {peers : List FileSpec}
    (happlied : Applied plan disk disk') (hlines : ∀ f ∈ plan.files, 13 ∉ f.content)
    (hpaths : plan.paths = resolvePaths (localConfig env.toml configPath disk) configPath)
    (hpeers : renderPeers env.display cached.payload plan.paths = .ok peers)
    (hfiles : plan.files = peers) (hkept : configPath ∉ plan.files.map FileSpec.path)
    (hunmanaged : ¬Managed plan.paths configPath)
    (hagain : ∀ again, renderNodeBlock env.display env.toml cached.payload plan.paths
      (localConfig env.toml configPath disk) again = .ok ([], plan.warnings)) :
    Steady env.toml env.display cached.payload configPath plan.files disk' := by
  have hlocal := localConfig_kept env.toml happlied hkept hunmanaged
  refine ⟨⟨plan.warnings, ?_⟩, happlied.written, hlines, happlied.writable, hkept, ?_⟩
  · rw [hlocal, ← hpaths, renderDesired_ok]
    exact ⟨peers, [], hpeers, hagain _, by rw [hfiles, List.append_nil]⟩
  · rw [hlocal, ← hpaths]
    exact fun p hp hread => happlied.mirrored hp hread

/-- A call that has updated the configuration. -/
theorem steady_of_block {peers : List FileSpec} {config merged : AppConfig}
    (happlied : Applied plan disk disk') (hlines : ∀ f ∈ plan.files, 13 ∉ f.content)
    (hconfigPath : plan.paths.configPath = configPath)
    (hapart : PathsApart plan.paths (peers.map FileSpec.path))
    (hpeers : renderPeers env.display cached.payload plan.paths = .ok peers)
    (hfiles : plan.files = peers ++ (nodeFiles env.toml config merged plan.paths
      (disk.read plan.paths.birdExtraConfPath).isSome).1)
    (hlocal : localConfig env.toml configPath disk' = some merged)
    (hpaths : resolvePaths (some merged) configPath = plan.paths)
    (hagain : ∀ again, renderNodeBlock env.display env.toml cached.payload plan.paths
      (some merged) again = .ok (nodeFiles env.toml merged merged plan.paths again)) :
    Steady env.toml env.display cached.payload configPath
      (peers ++ (nodeFiles env.toml merged merged plan.paths true).1) disk' := by
  have hsub : peers ++ (nodeFiles env.toml merged merged plan.paths true).1 ⊆ plan.files := by
    intro f hf
    rw [List.mem_append] at hf
    rw [hfiles, List.mem_append, mem_nodeFiles]
    exact hf.imp_right .inl
  have hextra : (disk'.read plan.paths.birdExtraConfPath).isSome = true := by
    apply extra_applied happlied ?_ hapart.extra
    intro f hf
    rw [hfiles, List.mem_append, mem_nodeFiles]
    exact .inr (.inr (.inr hf))
  refine ⟨⟨(nodeFiles env.toml merged merged plan.paths true).2, ?_⟩,
    fun f hf => happlied.written f (hsub hf), fun f hf => hlines f (hsub hf),
    fun f hf => happlied.writable f (hsub hf), ?_, ?_⟩
  · rw [hlocal, hpaths, hextra, renderDesired_ok]
    exact ⟨peers, _, hpeers, hagain _, rfl⟩
  · rw [← hconfigPath]
    exact hapart.notMem_config env.toml merged true
  · rw [hlocal, hpaths]
    intro p hp hread
    have hmem := happlied.mirrored hp hread
    obtain ⟨f, hf, hpath⟩ := List.mem_map.mp hmem
    rw [hfiles, List.mem_append, mem_nodeFiles] at hf
    obtain hf | hf | hf | hf := hf
    · exact List.mem_map.mpr ⟨f, List.mem_append_left _ hf, hpath⟩
    · exact List.mem_map.mpr ⟨f, List.mem_append_right _ hf, hpath⟩
    · -- `config.toml` has no managed name
      have hp' := (updatedToml_paths env.toml plan.paths.configPath config merged).subset
        (List.mem_map_of_mem hf)
      rw [hpath, List.mem_singleton] at hp'
      exact absurd (hp' ▸ hp) hapart.config
    · -- nor has `extra.conf`
      have hp' := (extraFiles_paths plan.paths _).subset (List.mem_map_of_mem hf)
      rw [hpath, List.mem_singleton] at hp'
      exact absurd (hp' ▸ hp) hapart.extra

/-- **One call makes the machine steady**, and its paths stay the same. -/
theorem steady_of_apply {peers : List FileSpec}
    (hrun : (apply env (some cached) configPath false noReload policy).run disk = (.ok r, disk'))
    (hplan : planApply env cached.payload configPath disk = .ok plan)
    (hpeers : renderPeers env.display cached.payload plan.paths = .ok peers)
    (hapart : PathsApart plan.paths (peers.map FileSpec.path))
    (hlines : ∀ f ∈ plan.files, 13 ∉ f.content)
    (hload : ∀ config merged, localConfig env.toml configPath disk = some config →
      configAfter env.display cached.payload config = .ok merged →
      Loadable env.toml config merged) :
    Applied plan disk disk' ∧
      resolvePaths (localConfig env.toml configPath disk') configPath = plan.paths ∧
      ∃ files, Steady env.toml env.display cached.payload configPath files disk' := by
  have hpaths := (planApply_ok hplan).1
  have hrender := planApply_renders hplan
  have hconfigPath : plan.paths.configPath = configPath := by
    rw [hpaths]
    unfold resolvePaths
    split <;> rfl
  have hunmanaged : ¬Managed plan.paths configPath := hconfigPath ▸ hapart.config
  obtain ⟨peers', node, hpeers', hnode, hfiles⟩ := (renderDesired_ok env.display).mp hrender
  rw [hpeers] at hpeers'
  cases hpeers'
  obtain ⟨rfl, hagain, -⟩ | ⟨config, merged, hconfig, hafter, hresolve, hnodeFiles, hagain⟩ :=
    renderNodeBlock_cases env.display hnode
  · rw [List.append_nil] at hfiles
    have hnodup := hapart.distinct
    rw [← hfiles] at hnodup
    have happlied := applied_of_run hplan hnodup.of_append_left hrun
    have hkept : configPath ∉ plan.files.map FileSpec.path := fun hmem =>
      (List.nodup_append'.mp hnodup).2.2 hmem (by rw [hconfigPath]; exact List.mem_cons_self)
    refine ⟨happlied, ?_, _, steady_of_peers happlied hlines hpaths hpeers hfiles hkept hunmanaged
      hagain⟩
    rw [localConfig_kept env.toml happlied hkept hunmanaged, hpaths]
  · have hnodeEq := congrArg Prod.fst hnodeFiles
    rw [show node = _ from hnodeEq] at hfiles
    have hnodup := hapart.nodup env.toml config merged
      (disk.read plan.paths.birdExtraConfPath).isSome
    rw [← hfiles] at hnodup
    have happlied := applied_of_run hplan hnodup hrun
    have hlocal : localConfig env.toml configPath disk' = some merged := by
      apply localConfig_applied happlied hconfig (hload config merged hconfig hafter) ?_ ?_
        hunmanaged
      · intro f hf
        rw [hfiles, List.mem_append, mem_nodeFiles, hconfigPath]
        exact .inr (.inr (.inl hf))
      · rintro rfl
        rw [hfiles, ← hconfigPath]
        exact hapart.notMem_config env.toml _ _
    have hpathsAfter : resolvePaths (some merged) configPath = plan.paths := by
      rw [hresolve, ← hconfig, ← hpaths]
    refine ⟨happlied, ?_, _, steady_of_block happlied hlines hconfigPath hapart hpeers hfiles
      hlocal hpathsAfter hagain⟩
    rw [hlocal, hpathsAfter]

end First

/-! ## any later calls -/

section Later

variable {toml : TomlLib} {display : Json → Str} {cached : PullResult} {configPath : PosixPath}
  {files : List FileSpec} {disk : Disk}

/-- The disk reads as it did, and the daemons have loaded nothing since. -/
structure NodeWorld.Unchanged (start w : NodeWorld) : Prop where
  disk : ∀ p, w.disk.read p = start.disk.read p
  networkd : w.networkd = start.networkd
  bird : w.bird = start.bird

/-- A call on a steady machine leaves it as it is. -/
theorem unchanged_step {start w w' : NodeWorld} {c : ApplyCall}
    (hsteady : Steady toml display cached.payload configPath files start.disk)
    (hsame : start.Unchanged w) (hagain : c.Again toml display cached)
    (hstep : nodeStep configPath w c = some w') : start.Unchanged w' := by
  have hw : Steady toml display cached.payload configPath files w.disk :=
    hsteady.of_reads hsame.disk
  cases hrun : c.outcome configPath w with
  | mk res disk' =>
      rw [nodeStep, hrun] at hstep
      cases hstep
      rw [ApplyCall.outcome, hagain.cached] at hrun
      obtain ⟨hreads, hquiet⟩ := hw.run hagain.toml hagain.display hagain.notTorn hrun
      have hnothing : ∀ cmd, reloaded cmd res = false := by
        intro cmd
        cases res with
        | error e => rfl
        | ok r =>
            simp only [reloaded, (hquiet r rfl).reloads, List.any_nil]
      refine ⟨fun p => (hreads p).trans (hsame.disk p), ?_, ?_⟩
      · simp only [NodeWorld.after, hnothing, Bool.false_eq_true, if_false]
        exact hsame.networkd
      · simp only [NodeWorld.after, hnothing, Bool.false_eq_true, if_false]
        exact hsame.bird

/-- The run of the step. -/
theorem unchanged_run {start w : NodeWorld} {calls : List ApplyCall}
    (hsteady : Steady toml display cached.payload configPath files start.disk)
    (hagain : ∀ c ∈ calls, c.Again toml display cached)
    (hrun : Machine.exec (nodeStep configPath) start calls = some w) : start.Unchanged w :=
  Machine.exec_invariant (nodeStep configPath)
    (fun _ _ _ hsame hc hstep => unchanged_step hsteady hsame hc hstep)
    ⟨fun _ => rfl, rfl, rfl⟩ (Machine.along_of_forall (nodeStep configPath) hagain) hrun

end Later

/-- **`apply` settles in one call**: a call that returns, on any disk, leaves the
rendered files, no other file under a managed name and every other file as it
was.  Whatever calls with the same cached state follow, failed ones included,
change no file and reload no daemon; those that return find nothing to do, and
a call that nothing outside stops returns. -/
theorem apply_settles {env : ApplyEnv} {cached : PullResult} {configPath : PosixPath}
    {noReload : Bool} {policy : ReloadPolicy} {disk disk' : Disk} {r : ApplyResult}
    {plan : ApplyPlan} {peers : List FileSpec}
    (hrun : (apply env (some cached) configPath false noReload policy).run disk = (.ok r, disk'))
    (hplan : planApply env cached.payload configPath disk = .ok plan)
    (hpeers : renderPeers env.display cached.payload plan.paths = .ok peers)
    (hapart : PathsApart plan.paths (peers.map FileSpec.path))
    (hlines : ∀ f ∈ plan.files, 13 ∉ f.content)
    (hload : ∀ config merged, localConfig env.toml configPath disk = some config →
      configAfter env.display cached.payload config = .ok merged →
      Loadable env.toml config merged) :
    (∀ f ∈ plan.files, disk'.read f.path = some (.text f.content)) ∧
    (∀ p, p ∉ plan.files.map FileSpec.path →
      disk'.read p = if Managed plan.paths p then none else disk.read p) ∧
    ∀ networkd bird calls w, (∀ c ∈ calls, c.Again env.toml env.display cached) →
      Machine.exec (nodeStep configPath) ⟨disk', networkd, bird⟩ calls = some w →
      NodeWorld.Unchanged ⟨disk', networkd, bird⟩ w ∧
      ∀ later : ApplyEnv, later.toml = env.toml → later.display = env.display →
        ∀ dryRun noReload policy,
          (∀ again disk'', (∀ n left, later.writes n ≠ .torn left) →
            (apply later (some cached) configPath dryRun noReload policy).run w.disk =
              (.ok again, disk'') →
            again.Quiet configPath) ∧
          (later.Calm plan.paths → ∃ again disk'',
            (apply later (some cached) configPath dryRun noReload policy).run w.disk =
              (.ok again, disk'')) := by
  obtain ⟨happlied, hpaths, files, hsteady⟩ :=
    steady_of_apply hrun hplan hpeers hapart hlines hload
  refine ⟨happlied.written, happlied.others, fun networkd bird calls w hcalls hexec => ?_⟩
  have hsame : NodeWorld.Unchanged ⟨disk', networkd, bird⟩ w := unchanged_run hsteady hcalls hexec
  have hw := hsteady.of_reads hsame.disk
  have hlocal : localConfig env.toml configPath w.disk = localConfig env.toml configPath disk' := by
    rw [localConfig, hsame.disk, localConfig]
  refine ⟨hsame, fun later htoml hdisplay dryRun noReload policy => ⟨?_, fun hcalm => ?_⟩⟩
  · intro again disk'' htorn hagain
    exact (hw.run htoml hdisplay htorn hagain).2 again rfl
  · rw [← hpaths, ← hlocal] at hcalm
    exact hw.returns hcalm htoml hdisplay cached.revision dryRun noReload policy

/-! ### a node that is moved -/

/-- The peers' files of a desired state whose BGP peers have addresses. -/
theorem renderPeers_payload (display : Json → Str) (st : DesiredState) (paths : ResolvedPaths)
    (hlla : ∀ d ∈ st.bgpPeers, orDefault d.peerLla [] ≠ []) :
    renderPeers display (desiredPayload st) paths =
      .ok (desiredPeerFiles paths st.toDesiredContent) := by
  -- rendered for a machine without a configuration, these are all the files
  have hrender := renderDesired_payload display calmEnv.toml st paths none true hlla
  have hnil : (desiredNodeFiles calmEnv.toml none paths true st.node).1 = [] := by
    unfold desiredNodeFiles
    split <;> rfl
  obtain ⟨peers, node, hpeers, hnode, hfiles⟩ := (renderDesired_ok display).mp hrender
  rw [renderNodeBlock_payload] at hnode
  have hnodeNil : node = [] := by
    rw [← hnil, Except.ok.inj hnode]
  rw [hnil, hnodeNil, List.append_nil, List.append_nil] at hfiles
  rw [hpeers, hfiles]

theorem diffAll_returns {fails : Nat → Bool} {disk : Disk} {files : List FileSpec}
    (hfails : ∀ n, fails n = false)
    (htext : ∀ p content, disk.read p = some content → ∃ s, content = .text s) (i : Nat) :
    ∃ diffs, diffAll fails disk i files = .ok diffs := by
  induction files generalizing i with
  | nil => exact ⟨[], rfl⟩
  | cons f fs ih =>
      obtain ⟨ds, hds⟩ := ih (i + 1)
      have hd : ∃ d, diffOf disk f = .ok d := by
        unfold diffOf
        cases hread : disk.read f.path with
        | none => exact ⟨_, rfl⟩
        | some content =>
            obtain ⟨s, rfl⟩ := htext _ _ hread
            simp only [Content.readText]
            split
            · exact ⟨_, rfl⟩
            · exact ⟨_, rfl⟩
      obtain ⟨d, hd⟩ := hd
      exact ⟨d :: ds, by rw [diffAll, hfails, if_neg Bool.false_ne_true, hd, hds]; rfl⟩

def samplePull : PullResult := ⟨sampleDesired.revision, desiredPayload sampleDesired⟩

def samplePaths : ResolvedPaths := resolvePaths (some sampleConfig) configToml

def samplePeerFiles : List FileSpec :=
  desiredPeerFiles samplePaths sampleDesired.toDesiredContent

def sampleFiles : List FileSpec :=
  samplePeerFiles ++
    (desiredNodeFiles sampleToml (some sampleConfig) samplePaths true sampleDesired.node).1

/-- The machine has an empty `extra.conf` of its own. -/
def extendedDisk : Disk := sampleDisk.write samplePaths.birdExtraConfPath (.text [])

theorem lla_sampleDesired : ∀ d ∈ sampleDesired.bgpPeers, orDefault d.peerLla [] ≠ [] := by
  decide +kernel

theorem localConfig_sample :
    localConfig sampleToml configToml extendedDisk = some sampleConfig := by
  have hread : extendedDisk.read configToml = sampleDisk.read configToml :=
    Disk.read_write_of_ne (by decide +kernel)
  rw [localConfig, hread, show sampleDisk.read configToml = _ from read_sampleDisk,
    load_sampleConfig]
  rfl

theorem text_extendedDisk {p : PosixPath} {content : Content}
    (h : extendedDisk.read p = some content) : ∃ s, content = .text s := by
  rw [extendedDisk, Disk.read_write] at h
  split at h
  · cases h
    exact ⟨_, rfl⟩
  · simp only [sampleDisk, Disk.read, Option.map_eq_some_iff] at h
    obtain ⟨e, hfind, rfl⟩ := h
    have hmem := List.mem_of_find?_eq_some hfind
    rw [List.mem_singleton] at hmem
    exact ⟨_, by rw [hmem]⟩

theorem lists_sampleApplyEnv : Lists sampleApplyEnv.listFails samplePaths := by
  have hdirs : ∀ m ∈ managedPaths samplePaths, m.1.hasNul = false := by decide +kernel
  exact fun k m hm => ⟨rfl, hdirs m (List.mem_of_getElem? hm)⟩

theorem calm_sampleApplyEnv : sampleApplyEnv.Calm samplePaths where
  lists := lists_sampleApplyEnv
  diffFails _ := rfl
  writes _ := rfl
  policyFails := rfl
  unlinkFails _ := rfl
  resolves f _ _ := ⟨f, rfl⟩

/-- Where every path can be resolved and every command succeeds, the reload step
goes through. -/
theorem reloadStep_returns {env : ApplyEnv} (hresolve : ∀ p, ∃ q, env.resolve p = .ok q)
    (hrunner : ∀ cmd, env.runner cmd = .ok none) (paths : ResolvedPaths) (noReload : Bool)
    (policy : ReloadPolicy) (touched : List PosixPath) :
    ∃ actions, reloadStep env paths noReload policy touched = .ok actions := by
  rw [reloadStep]
  split
  · exact ⟨[], rfl⟩
  · cases hplan : env.planned paths touched with
    | ok cmds => exact ⟨_, Prog.bind_eq_ok.mpr ⟨cmds, hplan, runReloads_calm hrunner cmds⟩⟩
    | error e =>
        exfalso
        obtain ⟨p, -, dir, -, hraises | ⟨_, -, hraises⟩, -⟩ | ⟨f, -, -, hraises⟩ :=
          planReloads_error hplan
        · obtain ⟨q, hq⟩ := hresolve p
          rw [hq] at hraises
          cases hraises
        · obtain ⟨q, hq⟩ := hresolve dir
          rw [hq] at hraises
          cases hraises
        · obtain ⟨q, hq⟩ := hresolve f
          rw [hq] at hraises
          cases hraises

theorem reloadStep_sample (paths : ResolvedPaths) (touched : List PosixPath) :
    ∃ actions, reloadStep sampleApplyEnv paths false .auto touched = .ok actions :=
  reloadStep_returns (fun p => ⟨p, rfl⟩) (fun _ => rfl) paths false .auto touched

theorem planApply_sample : ∃ plan,
    planApply sampleApplyEnv samplePull.payload configToml extendedDisk = .ok plan ∧
      plan.files = sampleFiles ∧ plan.paths = samplePaths := by
  have hextra : (extendedDisk.read samplePaths.birdExtraConfPath).isSome = true := by
    rw [extendedDisk, Disk.read_write_self]
    rfl
  have hrender : renderDesired sampleApplyEnv.display sampleToml samplePull.payload samplePaths
      (some sampleConfig) (extendedDisk.read samplePaths.birdExtraConfPath).isSome =
        .ok (sampleFiles, (desiredNodeFiles sampleToml (some sampleConfig) samplePaths true
          sampleDesired.node).2) := by
    rw [hextra]
    exact renderDesired_payload _ _ _ _ _ _ lla_sampleDesired
  obtain ⟨diffs, hdiffs⟩ := @diffAll_returns sampleApplyEnv.diffFails extendedDisk sampleFiles
    (fun _ => rfl) (fun _ _ => text_extendedDisk) 0
  exact ⟨_, planApply_eq localConfig_sample rfl hrender lists_sampleApplyEnv rfl hdiffs, rfl,
    rfl⟩

theorem valid_movedConfig : movedConfig.Valid := by
  have haddresses : (checkAddresses movedConfig.ownAsn movedConfig.routerId movedConfig.ownIpv6
      movedConfig.ownnetV6 movedConfig.ownnetsetV6).isOk = true := by decide +kernel
  refine ⟨?_, ?_, ?_, ?_, ?_, ?_, ?_, ?_, ?_, ?_, ?_, ?_, eq_ok_of_isOk haddresses, .inl rfl⟩ <;>
    decide +kernel

/-- None of the sample files holds a carriage return. -/
theorem noReturn_sampleFiles : ∀ f ∈ sampleFiles, 13 ∉ f.content := by
  have hpeers : ∀ f ∈ samplePeerFiles, 13 ∉ f.content := by decide +kernel
  have hconf : 13 ∉ mainConf movedConfig samplePaths := by
    have hvalues : MainConfLines movedConfig samplePaths := by
      refine ⟨?_, ?_, ?_, ?_, ?_, ?_, ?_, ?_⟩ <;> decide +kernel
    obtain ⟨lines, hlines, hone⟩ := oneLine_mainConf hvalues
    rw [hlines]
    exact noReturn_unlines hone
  have htoml : ∀ f ∈ updatedToml sampleToml samplePaths.configPath sampleConfig movedConfig,
      13 ∉ f.content := by decide +kernel
  have hdummy : ∀ f ∈ dummyFiles movedConfig samplePaths, 13 ∉ f.content := by decide +kernel
  have hmerged : (desiredNodeFiles sampleToml (some sampleConfig) samplePaths true
      sampleDesired.node).1 = (nodeFiles sampleToml sampleConfig movedConfig samplePaths true).1 :=
    rfl
  rw [sampleFiles, hmerged, nodeFiles_fst]
  simp only [List.forall_mem_append, List.forall_mem_cons, extraFiles, if_true]
  exact ⟨hpeers, ⟨⟨htoml, hconf, by simp⟩, by simp⟩, hdummy⟩

/-- The sample node gets its new address, and a second call finds nothing to do. -/
theorem apply_settles_sample :
    ∃ r disk' again disk'',
      (apply sampleApplyEnv (some samplePull) configToml).run extendedDisk = (.ok r, disk') ∧
      disk'.read configToml = some (.text (dumpsConfig sampleToml movedConfig)) ∧
      (apply sampleApplyEnv (some samplePull) configToml).run disk' = (.ok again, disk'') ∧
      again.Quiet configToml := by
  obtain ⟨plan, hplan, hfiles, hpaths⟩ := planApply_sample
  have hnul : ∀ f ∈ plan.files, f.path.hasNul = false := by
    rw [hfiles]
    decide +kernel
  have hlines : ∀ f ∈ plan.files, 13 ∉ f.content := by
    rw [hfiles]
    exact noReturn_sampleFiles
  have hpeers : renderPeers sampleApplyEnv.display samplePull.payload plan.paths =
      .ok samplePeerFiles := by
    rw [hpaths]
    exact renderPeers_payload _ _ _ lla_sampleDesired
  have hapart : PathsApart plan.paths (samplePeerFiles.map FileSpec.path) := by
    rw [hpaths]
    refine ⟨?_, ?_, ?_⟩ <;> decide +kernel
  have hload : ∀ config merged,
      localConfig sampleApplyEnv.toml configToml extendedDisk = some config →
      configAfter sampleApplyEnv.display samplePull.payload config = .ok merged →
      Loadable sampleApplyEnv.toml config merged := by
    intro config merged hconfig hafter _
    cases localConfig_sample.symm.trans hconfig
    have hmoved : configAfter sampleApplyEnv.display samplePull.payload sampleConfig =
        .ok movedConfig := rfl
    cases hmoved.symm.trans hafter
    exact ⟨valid_movedConfig, roundTrips_moved⟩
  have hcalm : sampleApplyEnv.Calm plan.paths := hpaths ▸ calm_sampleApplyEnv
  obtain ⟨r, disk', hrun⟩ :=
    apply_returns hcalm hplan hnul false false .auto (reloadStep_sample _ _)
  obtain ⟨hwritten, -, hlater⟩ := apply_settles hrun hplan hpeers hapart hlines hload
  obtain ⟨-, hagain⟩ := hlater [] [] [] ⟨disk', [], []⟩ (by simp) rfl
  obtain ⟨hquiet, hreturns⟩ := hagain sampleApplyEnv rfl rfl false false .auto
  obtain ⟨again, disk'', hrun'⟩ := hreturns hcalm
  have htoml : (⟨configToml, dumpsConfig sampleToml movedConfig, .priv⟩ : FileSpec) ∈
      plan.files := by
    rw [hfiles]
    decide +kernel
  exact ⟨r, disk', again, disk'', hrun, hwritten _ htoml, hrun',
    hquiet again disk'' (fun _ _ h => (by cases h)) hrun'⟩

end Dn42Ctl
