import Dn42Ctl.ApplySpecs
import Dn42Ctl.Lib.Machine

/-!
# Reloads

What the daemons run against what is on disk.  A daemon remembers the files as
they were when it last loaded them; `apply` decides from the differences of
the current call alone whether a daemon has to load them again.

`daemons_in_sync` gives the calls for which this is enough: a call must not
raise after it changed a file, what it changes must be found where it is named,
and the reload commands it runs must succeed.  `reload_never_repeated` is a run
in which they do not.
-/

namespace Dn42Ctl

open Text

/-! ## daemons -/

/-- A node: its files, and the files each daemon loaded last. -/
structure NodeWorld where
  disk : Disk
  networkd : Disk
  bird : Disk

/-- A regular file of a directory. -/
def InDir (dir p : PosixPath) : Prop := p.parent = dir ∧ p ≠ dir ∧ p.name ≠ lit ".."

/-- The files networkd reads. -/
def ResolvedPaths.NetworkdFile (paths : ResolvedPaths) (p : PosixPath) : Prop :=
  InDir paths.networkdDir p

/-- The files that are BIRD's own. -/
def ResolvedPaths.birdFiles (paths : ResolvedPaths) : List PosixPath :=
  [paths.babelConfPath, paths.birdConfPath, paths.birdExtraConfPath]

/-- The files BIRD reads. -/
def ResolvedPaths.BirdFile (paths : ResolvedPaths) (p : PosixPath) : Prop :=
  InDir paths.birdPeersDir p ∨ p ∈ paths.birdFiles

/-- What the daemons run is what is on disk. -/
structure NodeWorld.InSync (w : NodeWorld) (paths : ResolvedPaths) : Prop where
  networkd : ∀ p, paths.NetworkdFile p → w.networkd.read p = w.disk.read p
  bird : ∀ p, paths.BirdFile p → w.bird.read p = w.disk.read p

/-! ## runs -/

/-- One call of `apply`, with the reload policy `auto`. -/
structure ApplyCall where
  env : ApplyEnv
  cached : Option PullResult
  dryRun : Bool := false

/-- How the call ends, and the disk it leaves. -/
def ApplyCall.outcome (configPath : PosixPath) (w : NodeWorld) (c : ApplyCall) :
    Except PyError ApplyResult × Disk :=
  (apply c.env c.cached configPath c.dryRun).run w.disk

/-- The call reports that the command was run and succeeded. -/
def reloaded (cmd : ReloadCommand) : Except PyError ApplyResult → Bool
  | .ok r => r.reloads.any fun a => a.cmd == cmd && a.ok
  | .error _ => false

/-- The node after a call: a daemon whose reload succeeded holds the new disk. -/
def NodeWorld.after (w : NodeWorld) (out : Except PyError ApplyResult × Disk) : NodeWorld :=
  { disk := out.2
    networkd := if reloaded .networkctlReload out.1 then out.2 else w.networkd
    bird := if reloaded .birdcConfigure out.1 then out.2 else w.bird }

def nodeStep (configPath : PosixPath) (w : NodeWorld) (c : ApplyCall) : Option NodeWorld :=
  some (w.after (c.outcome configPath w))

/-! ## the condition -/

/-- The paths that writing the files is going to touch: those of the files whose
text on disk is another, and the stale ones. -/
def toTouch (paths : ResolvedPaths) (disk : Disk) (files : List FileSpec) : List PosixPath :=
  (differing disk files).map FileSpec.path ++
    staleFiles (files.map FileSpec.path) paths disk

/-- The reload step goes through, and finds the touched files of the daemons. -/
structure Reloadable (env : ApplyEnv) (paths : ResolvedPaths) (touched : List PosixPath) : Prop where
  /-- A touched file of a directory is really in it. -/
  networkd : ∀ p ∈ touched, paths.NetworkdFile p → ReallyIn env.resolve paths.networkdDir p
  peers : ∀ p ∈ touched, InDir paths.birdPeersDir p → ReallyIn env.resolve paths.birdPeersDir p
  /-- The absolute path of a touched file of BIRD's own leads through no link. -/
  birdFiles : ∀ p ∈ touched, p ∈ paths.birdFiles → p.isAbsolute = true → env.resolve p = .ok p
  /-- Only an `OSError` keeps a path from being resolved, or nothing where that
  is not caught. -/
  resolves : ∀ p ∈ touched, ∀ q ∈ [p, paths.networkdDir, paths.birdPeersDir], ∀ e,
    env.resolve q = .error e → e.cls = .osError
  targets : touched ≠ [] → ∀ f ∈ paths.birdFiles, f.isAbsolute = true →
    ∃ q, env.resolve f = .ok q
  /-- The reload commands succeed. -/
  runner : touched ≠ [] → ∀ cmd, env.runner cmd = .ok none

/-- Writing the files on the disk leaves no daemon behind. -/
structure Harmless (env : ApplyEnv) (paths : ResolvedPaths) (disk : Disk)
    (files : List FileSpec) : Prop where
  /-- A write that fails comes before the first change. -/
  writes : HarmlessWrites env.writes disk 0 files
  policy : env.policyFails = true → ∀ f ∈ files, Settled disk f
  /-- An `unlink` that fails comes before the first change. -/
  unlinks : ∀ k < (staleFiles (files.map FileSpec.path) paths disk).length,
    env.unlinkFails k = true → k = 0 ∧ ∀ f ∈ files, Settled disk f
  /-- No file differs from what is to be written in line ends alone. -/
  newlines : ∀ f ∈ files, ∀ s, disk.read f.path = some (.text s) →
    universalNewlines s = f.content → s = f.content
  reload : Reloadable env paths (toTouch paths disk files)

/-- What `daemons_in_sync` asks of a call, in the state it is made in. -/
structure LeavesNoDebt (configPath : PosixPath) (paths : ResolvedPaths) (w : NodeWorld)
    (c : ApplyCall) : Prop where
  /-- The machine's paths stay the same. -/
  samePaths : resolvePaths (localConfig c.env.toml configPath w.disk) configPath = paths
  /-- A call that is to write something can. -/
  harmless : ∀ cached files warnings, c.cached = some cached → c.dryRun = false →
    rendered c.env cached.payload configPath w.disk = .ok (files, warnings) →
    Harmless c.env paths w.disk files

/-! ## the reload step -/

section Step

variable {env : ApplyEnv} {paths : ResolvedPaths} {touched : List PosixPath} {p : PosixPath}

theorem Reloadable.of_mem {touched' : List PosixPath} (h : Reloadable env paths touched)
    (hmem : ∀ p, p ∈ touched' ↔ p ∈ touched) : Reloadable env paths touched' := by
  have hne : touched' ≠ [] → touched ≠ [] := by
    intro hne
    obtain ⟨p, hp⟩ := List.exists_mem_of_ne_nil _ hne
    exact List.ne_nil_of_mem ((hmem p).mp hp)
  exact ⟨fun p hp => h.networkd p ((hmem p).mp hp), fun p hp => h.peers p ((hmem p).mp hp),
    fun p hp => h.birdFiles p ((hmem p).mp hp), fun p hp => h.resolves p ((hmem p).mp hp),
    fun ht => h.targets (hne ht), fun ht => h.runner (hne ht)⟩

/-- The plan of the touched paths. -/
def ApplyEnv.planned (env : ApplyEnv) (paths : ResolvedPaths) (touched : List PosixPath) :
    Except PyError (List ReloadCommand) :=
  planReloads env.resolve touched paths.networkdDir paths.birdPeersDir paths.birdFiles

/-- The plan is made. -/
theorem Reloadable.plans (h : Reloadable env paths touched) (hne : touched ≠ []) :
    ∃ cmds, env.planned paths touched = .ok cmds := by
  cases hplan : env.planned paths touched with
  | ok cmds => exact ⟨cmds, rfl⟩
  | error e =>
      exfalso
      obtain ⟨p, hp, dir, hdir, hraises, hcls⟩ | ⟨f, hf, habs, hraises⟩ :=
        planReloads_error hplan
      · obtain hraises | ⟨_, -, hraises⟩ := hraises
        · exact hcls (h.resolves p hp p List.mem_cons_self e hraises)
        · exact hcls (h.resolves p hp dir (List.mem_cons_of_mem p hdir) e hraises)
      · obtain ⟨q, hq⟩ := h.targets hne f hf habs
        rw [hq] at hraises
        cases hraises

/-- A touched file of networkd calls for a reload. -/
theorem Reloadable.networkctl_planned (h : Reloadable env paths touched)
    {cmds : List ReloadCommand} (hplan : env.planned paths touched = .ok cmds)
    (hp : paths.NetworkdFile p) (hmem : p ∈ touched) : .networkctlReload ∈ cmds :=
  (planReloads_ok hplan).1.mpr ⟨p, hmem, under_of_reallyIn (h.networkd p hmem hp)⟩

/-- A touched file of BIRD calls for a reload. -/
theorem Reloadable.birdc_planned (h : Reloadable env paths touched)
    {cmds : List ReloadCommand} (hplan : env.planned paths touched = .ok cmds)
    (hp : paths.BirdFile p) (hmem : p ∈ touched) : .birdcConfigure ∈ cmds := by
  refine (planReloads_ok hplan).2.1.mpr ⟨p, hmem, ?_⟩
  obtain hdir | hfile := hp
  · exact .inl (under_of_reallyIn (h.peers p hmem hdir))
  · refine .inr ⟨?_, p, hfile, ?_⟩
    · cases hunder : under env.resolve p paths.birdPeersDir with
      | ok found => exact ⟨found, rfl⟩
      | error e =>
          obtain ⟨hraises | ⟨_, -, hraises⟩, hcls⟩ := under_eq_error.mp hunder
          · exact absurd (h.resolves p hmem p (by simp) e hraises) hcls
          · exact absurd (h.resolves p hmem _ (by simp) e hraises) hcls
    · unfold birdTarget
      split
      · next habs => exact h.birdFiles p hmem hfile habs
      · rfl

theorem runReloads_calm {runner : ReloadCommand → Except PyError (Option Str)}
    (h : ∀ cmd, runner cmd = .ok none) (cmds : List ReloadCommand) :
    runReloads runner cmds = .ok (cmds.map fun cmd => ⟨cmd, none⟩) := by
  induction cmds with
  | nil => rfl
  | cons cmd cmds ih =>
      rw [runReloads, h, ih]
      rfl

/-- All planned commands are run, and succeed. -/
theorem Reloadable.reloads (h : Reloadable env paths touched) (hne : touched ≠ [])
    {cmds : List ReloadCommand} (hplan : env.planned paths touched = .ok cmds) :
    reloadStep env paths false .auto touched = .ok (cmds.map fun cmd => ⟨cmd, none⟩) := by
  have hrun := runReloads_calm (h.runner hne) cmds
  rw [reloadStep, if_neg (by simp), reload]
  exact Prog.bind_eq_ok.mpr ⟨cmds, hplan, hrun⟩

end Step

/-! ## one call -/

/-- A call that changes no file and reloads nothing keeps the daemons in sync. -/
theorem inSync_of_same {w : NodeWorld} {paths : ResolvedPaths}
    {out : Except PyError ApplyResult × Disk} (hsync : w.InSync paths)
    (hsame : ∀ p, out.2.read p = w.disk.read p) : (w.after out).InSync paths := by
  constructor
  · intro p hp
    simp only [NodeWorld.after]
    split
    · rfl
    · rw [hsame]
      exact hsync.networkd p hp
  · intro p hp
    simp only [NodeWorld.after]
    split
    · rfl
    · rw [hsame]
      exact hsync.bird p hp

section Call

variable {env : ApplyEnv} {payload : JsonObject} {configPath : PosixPath} {paths : ResolvedPaths}
  {disk disk' : Disk} {plan : ApplyPlan} {revision : Str} {r : ApplyResult} {e : PyError}

/-- What the reload step of a planned call needs. -/
theorem Harmless.touched (h : Harmless env paths disk plan.files) (hpaths : plan.paths = paths)
    (hplan : planApply env payload configPath disk = .ok plan) :
    Reloadable env paths (touchedPaths plan.diffs plan.stale) := by
  refine h.reload.of_mem fun p => ?_
  rw [mem_touchedPaths hplan, (planApply_ok hplan).2.2.2.1, hpaths]
  rfl

/-- A completed call changes no file but the touched ones. -/
theorem Harmless.changes (h : Harmless env paths disk plan.files)
    (hplan : planApply env payload configPath disk = .ok plan)
    (hread : ∀ p, disk'.read p = if p ∈ plan.stale then none
      else (disk.writeAll (writesOf plan.files)).read p) {p : PosixPath}
    (hchanged : disk'.read p ≠ disk.read p) : p ∈ touchedPaths plan.diffs plan.stale :=
  mem_touched_of_changed hplan h.newlines hread hchanged

/-- The files that a completed call changes are loaded again. -/
theorem inSync_of_executed {w : NodeWorld} (hsync : w.InSync paths)
    (h : Harmless env paths w.disk plan.files) (hpaths : plan.paths = paths)
    (hplan : planApply env payload configPath w.disk = .ok plan)
    (hexec : (execute env plan revision false .auto).run w.disk = (.ok r, disk')) :
    (w.after (.ok r, disk')).InSync paths := by
  obtain ⟨-, -, -, hread, hunlink, hreloads, -⟩ := execute_ok hexec
  rw [deleted_eq hplan hunlink, hpaths] at hreloads
  have hstep := h.touched hpaths hplan
  -- a changed file is touched, so its daemon is reloaded
  have hran : ∀ cmd p, disk'.read p ≠ w.disk.read p →
      (∀ cmds, env.planned paths (touchedPaths plan.diffs plan.stale) = .ok cmds →
        p ∈ touchedPaths plan.diffs plan.stale → cmd ∈ cmds) → reloaded cmd (.ok r) = true := by
    intro cmd p hchanged hcmd
    have hmem := h.changes hplan hread hchanged
    obtain ⟨cmds, hcmds⟩ := hstep.plans (List.ne_nil_of_mem hmem)
    rw [hstep.reloads (List.ne_nil_of_mem hmem) hcmds, Except.ok.injEq] at hreloads
    simp only [reloaded, List.any_eq_true, ← hreloads]
    exact ⟨⟨cmd, none⟩, List.mem_map_of_mem (hcmd cmds hcmds hmem), by simp [ReloadAction.ok]⟩
  constructor
  · intro p hp
    by_cases hchanged : disk'.read p = w.disk.read p
    · simp only [NodeWorld.after]
      split
      · rfl
      · rw [hchanged]
        exact hsync.networkd p hp
    · simp only [NodeWorld.after, hran _ p hchanged fun cmds hcmds hmem =>
        hstep.networkctl_planned hcmds hp hmem, if_true]
  · intro p hp
    by_cases hchanged : disk'.read p = w.disk.read p
    · simp only [NodeWorld.after]
      split
      · rfl
      · rw [hchanged]
        exact hsync.bird p hp
    · simp only [NodeWorld.after, hran _ p hchanged fun cmds hcmds hmem =>
        hstep.birdc_planned hcmds hp hmem, if_true]

/-- A call that raises while it writes, deletes or reloads has changed nothing. -/
theorem same_of_interrupted (h : Harmless env paths disk plan.files) (hpaths : plan.paths = paths)
    (hplan : planApply env payload configPath disk = .ok plan)
    (hstops : Interrupted env plan false .auto disk e disk') (p : PosixPath) :
    disk'.read p = disk.read p := by
  have hstale := (planApply_ok hplan).2.2.2.1
  rw [hpaths] at hstale
  cases hstops with
  | write hwrite => exact writeFiles_harmless h.writes hwrite p
  | policy hwrite hfails =>
      rw [(writeFiles_ok hwrite).2, read_writeAll_settled (h.policy hfails)]
  | unlink hwrite _ hunlink =>
      have hfirst := h.unlinks
      rw [← hstale] at hfirst
      obtain ⟨k, hlt, hk⟩ := unlinkFiles_error hunlink
      rw [Nat.zero_add] at hk
      rw [unlinkFiles_harmless (fun n hn hfails => (hfirst n hn (by simpa using hfails)).1) hunlink,
        (writeFiles_ok hwrite).2, read_writeAll_settled (hfirst k hlt hk).2]
  | reload hwrite _ hunlink hraises =>
      rw [(writeFiles_ok hwrite).2] at hunlink
      rw [deleted_eq hplan hunlink, hpaths] at hraises
      have hstep := h.touched hpaths hplan
      -- with something touched the step goes through
      by_contra hchanged
      have hmem := h.changes hplan (unlinkFiles_ok hunlink).1 hchanged
      obtain ⟨cmds, hcmds⟩ := hstep.plans (List.ne_nil_of_mem hmem)
      rw [hstep.reloads (List.ne_nil_of_mem hmem) hcmds] at hraises
      cases hraises

end Call

/-- **One call** keeps the daemons in sync. -/
theorem inSync_nodeStep {configPath : PosixPath} {paths : ResolvedPaths} {w w' : NodeWorld}
    {c : ApplyCall} (hsync : w.InSync paths) (hok : LeavesNoDebt configPath paths w c)
    (hstep : nodeStep configPath w c = some w') : w'.InSync paths := by
  cases hstep
  cases hcached : c.cached with
  | none =>
      apply inSync_of_same hsync
      intro p
      rw [ApplyCall.outcome, hcached]
      rfl
  | some cached =>
      rw [ApplyCall.outcome, hcached]
      cases hplan : planApply c.env cached.payload configPath w.disk with
      | error e =>
          rw [run_apply_of_error hplan]
          exact inSync_of_same hsync fun p => rfl
      | ok plan =>
          rw [run_apply_of_plan hplan]
          by_cases hdry : c.dryRun = true
          · rw [if_pos hdry]
            exact inSync_of_same hsync fun p => rfl
          · rw [if_neg hdry]
            obtain ⟨hpaths, hrender, -⟩ := planApply_ok hplan
            rw [hok.samePaths] at hpaths
            have hharmless := hok.harmless cached _ _ hcached (by simpa using hdry) hrender
            cases hexec : (execute c.env plan cached.revision false .auto).run w.disk with
            | mk res disk' =>
                cases res with
                | ok r => exact inSync_of_executed hsync hharmless hpaths hplan hexec
                | error e =>
                    exact inSync_of_same hsync
                      (same_of_interrupted hharmless hpaths hplan (execute_error_iff.mp hexec))

/-! ## runs of calls -/

/-- **Daemons in sync**: from a start in which the daemons run what is on disk,
after every run of calls that leave no debt, a call that returns leaves the
daemons running what is on disk, with or without warnings. -/
theorem daemons_in_sync {configPath : PosixPath} {paths : ResolvedPaths} {disk : Disk}
    {w : NodeWorld} {calls : List ApplyCall} {c : ApplyCall} {r : ApplyResult} {disk' : Disk}
    (hdebt : Machine.Along (nodeStep configPath) (LeavesNoDebt configPath paths)
      ⟨disk, disk, disk⟩ (calls ++ [c]))
    (hrun : Machine.exec (nodeStep configPath) ⟨disk, disk, disk⟩ calls = some w)
    (hreturns : c.outcome configPath w = (.ok r, disk')) :
    (w.after (.ok r, disk')).InSync paths := by
  have hstep : ∀ w c w', NodeWorld.InSync w paths → LeavesNoDebt configPath paths w c →
      nodeStep configPath w c = some w' → w'.InSync paths :=
    fun w c w' hw hc hs => inSync_nodeStep hw hc hs
  have hstart : NodeWorld.InSync ⟨disk, disk, disk⟩ paths := ⟨fun _ _ => rfl, fun _ _ => rfl⟩
  have hlast : nodeStep configPath w c = some (w.after (.ok r, disk')) := by
    rw [nodeStep, hreturns]
  have hwhole : Machine.exec (nodeStep configPath) ⟨disk, disk, disk⟩ (calls ++ [c]) =
      some (w.after (.ok r, disk')) := by
    rw [Machine.exec_append, hrun, Option.bind_some, Machine.exec_cons, hlast]
    rfl
  exact Machine.exec_invariant (nodeStep configPath) hstep hstart hdebt hwhole

/-! ### a failed reload -/

/-- A machine without a `config.toml` on which every operation succeeds. -/
def calmEnv : ApplyEnv where
  toml := ⟨fun _ => none, fun _ => []⟩
  display := fun _ => []
  resolve := fun p => .ok p
  listFails := fun _ => false
  diffFails := fun _ => false
  writes := fun _ => .done
  policyFails := false
  unlinkFails := fun _ => false
  runner := fun _ => .ok none

/-- A desired state without peers. -/
def peerless : PullResult := ⟨lit "r1", [(lit "revision", .str (lit "r1"))]⟩

def configToml : PosixPath := .ofStr (lit "/etc/dn42ctl/config.toml")

def babelConf : FileSpec :=
  ⟨.ofStr (lit "/etc/bird/babel.conf"), renderBabelConf [], .bird⟩

theorem renderDesired_peerless (paths : ResolvedPaths) (extraExists : Bool) :
    renderDesired calmEnv.display calmEnv.toml peerless.payload paths none extraExists =
      .ok ([⟨paths.babelConfPath, renderBabelConf [], .bird⟩], []) := by
  have habsent : ∀ key, (lit "revision" == lit key) = false →
      Json.lookup (lit key) peerless.payload = none := by
    intro key hkey
    simp [Json.lookup, peerless, hkey]
  have hbgp := habsent "bgp_peers" (by decide +kernel)
  have hibgp := habsent "ibgp_peers" (by decide +kernel)
  have hnode := habsent "node" (by decide +kernel)
  simp only [renderDesired, renderBabel, renderNodeBlock, payloadPeers, Json.getD, hbgp, hibgp,
    hnode, Option.getD_none]
  rfl

theorem lists_calm : Lists calmEnv.listFails (resolvePaths none configToml) := by
  have hdirs : ∀ m ∈ managedPaths (resolvePaths none configToml), m.1.hasNul = false := by decide
  exact fun k m hm => ⟨rfl, hdirs m (List.mem_of_getElem? hm)⟩

theorem harmless_peerless : Harmless calmEnv (resolvePaths none configToml) [] [babelConf] where
  writes := by
    rintro k file hk (hout | hnul)
    · exact absurd rfl hout
    · rw [List.mem_singleton.mp (List.mem_of_getElem? hk)] at hnul
      exact absurd hnul (by decide)
  policy h := by cases h
  unlinks k _ h := by cases h
  newlines f hf s h := by cases h
  reload :=
    { networkd := fun p _ hfile => ⟨p, _, rfl, rfl, hfile.1⟩
      peers := fun p _ hfile => ⟨p, _, rfl, rfl, hfile.1⟩
      birdFiles := fun _ _ _ _ => rfl
      resolves := fun _ _ _ _ _ h => (by cases h)
      targets := fun _ f _ _ => ⟨f, rfl⟩
      runner := fun _ _ => rfl }

theorem leavesNoDebt_peerless :
    LeavesNoDebt configToml (resolvePaths none configToml) ⟨[], [], []⟩
      ⟨calmEnv, some peerless, false⟩ where
  samePaths := rfl
  harmless := by
    intro cached files warnings hcached _ hrender
    cases hcached
    have hfiles : rendered calmEnv peerless.payload configToml [] = .ok ([babelConf], []) :=
      (rendered_eq rfl rfl).trans (renderDesired_peerless _ _)
    rw [hfiles] at hrender
    cases hrender
    exact harmless_peerless

/-- BIRD loads the file that the call wrote. -/
theorem daemons_in_sync_peerless :
    ∃ r disk', ApplyCall.outcome configToml ⟨[], [], []⟩ ⟨calmEnv, some peerless, false⟩ =
        (.ok r, disk') ∧ r.reloads = [⟨.birdcConfigure, none⟩] ∧
      (NodeWorld.after ⟨[], [], []⟩ (.ok r, disk')).InSync (resolvePaths none configToml) :=
  have hdebt : Machine.Along (nodeStep configToml)
      (LeavesNoDebt configToml (resolvePaths none configToml)) ⟨[], [], []⟩
      ([] ++ [⟨calmEnv, some peerless, false⟩]) := ⟨leavesNoDebt_peerless, fun _ _ => trivial⟩
  ⟨_, _, rfl, rfl, daemons_in_sync hdebt rfl rfl⟩

/-- The same machine while `birdc` cannot reach its daemon. -/
def birdDown : ApplyEnv :=
  { calmEnv with
    runner := fun cmd => .ok (if cmd = .birdcConfigure then some (lit "down") else none) }

/-- The disk after the first call. -/
def babelDisk : Disk := [(babelConf.path, .text babelConf.content)]

theorem planApply_peerless_again :
    planApply calmEnv peerless.payload configToml babelDisk =
      .ok ⟨resolvePaths none configToml, [babelConf], [], [], [⟨babelConf.path, .unchanged⟩]⟩ := by
  have hcr : 13 ∉ babelConf.content := by decide +kernel
  have hdiff : diffOf babelDisk babelConf = .ok ⟨babelConf.path, .unchanged⟩ := by
    have hread : babelDisk.read babelConf.path = some (.text babelConf.content) := rfl
    rw [diffOf, hread]
    simp only [Content.readText, universalNewlines_eq_self.mpr hcr, if_true]
    rfl
  have hdiffs : diffAll calmEnv.diffFails babelDisk 0 [babelConf] =
      .ok [⟨babelConf.path, .unchanged⟩] := by
    rw [diffAll, hdiff]
    rfl
  have hstale : staleFiles ([babelConf].map FileSpec.path) (resolvePaths none configToml)
      babelDisk = [] := by decide +kernel
  have hconfig : localConfig calmEnv.toml configToml babelDisk = none := by decide +kernel
  exact planApply_eq hconfig rfl (renderDesired_peerless _ _) lists_calm hstale hdiffs

/-- **A reload is not tried again**: BIRD cannot be reached in the first call,
which says so; the second call finds every file as it wants it, returns without
warnings, and BIRD still runs without `babel.conf`. -/
theorem reload_never_repeated :
    ∃ w r disk',
      Machine.exec (nodeStep configToml) ⟨[], [], []⟩ [⟨birdDown, some peerless, false⟩] =
        some w ∧
      ApplyCall.outcome configToml w ⟨calmEnv, some peerless, false⟩ = (.ok r, disk') ∧
      r.warnings = [] ∧
      ¬ (w.after (.ok r, disk')).InSync
        (resolvePaths (localConfig calmEnv.toml configToml w.disk) configToml) := by
  have hsecond : ApplyCall.outcome configToml ⟨babelDisk, [], []⟩ ⟨calmEnv, some peerless, false⟩ =
      (.ok { revision := lit "r1", diffs := [⟨babelConf.path, .unchanged⟩],
             written := [babelConf.path] }, babelDisk) := by
    rw [ApplyCall.outcome, run_apply_of_plan planApply_peerless_again]
    rfl
  refine ⟨⟨babelDisk, [], []⟩, _, _, rfl, hsecond, rfl, fun hsync => ?_⟩
  have hbird : Disk.read babelConf.path [] = Disk.read babelConf.path babelDisk :=
    hsync.bird babelConf.path (.inr List.mem_cons_self)
  cases hbird

end Dn42Ctl
