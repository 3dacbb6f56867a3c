import Dn42Ctl.Reloads
import Dn42Ctl.Lib.Links

/-!
# ReloadPlan

`plan_reloads` on a file system with symbolic links: which commands the touched
paths call for, when any directory or file on the way may be a link.

A directory is compared by where it really is, a file of BIRD's own by its
spelling.  `plan_exact_iff` says for which links the two agree with what was
written through the configured paths; `linked_bird_dir_missed` is a machine
whose `/etc/bird` is a link.
-/

namespace Dn42Ctl

open Text

/-! ## what the plan is for -/

/-- The exception of `Path.resolve`. -/
def resolveError : Layout.ResolveError → PyError
  | .nul => pyError .valueError
  | .loop => pyError .runtimeError

/-- `Path.resolve` on these links. -/
def pathResolve (fs : Layout) (p : PosixPath) : Except PyError PosixPath :=
  (fs.resolve p).mapError resolveError

/-- The plan of a call that touched these paths. -/
def plannedReloads (fs : Layout) (paths : ResolvedPaths) (touched : List PosixPath) :
    Except PyError (List ReloadCommand) :=
  planReloads (pathResolve fs) touched paths.networkdDir paths.birdPeersDir paths.birdFiles

/-- Each daemon reads its configuration again if and only if one of its files
was touched, `networkctl` first. -/
structure CommandsExact (paths : ResolvedPaths) (touched : List PosixPath)
    (cmds : List ReloadCommand) : Prop where
  networkctl : .networkctlReload ∈ cmds ↔ ∃ p ∈ touched, paths.NetworkdFile p
  birdc : .birdcConfigure ∈ cmds ↔ ∃ p ∈ touched, paths.BirdFile p
  order : cmds.Sublist [.networkctlReload, .birdcConfigure]

/-- There is a plan, and it is exact. -/
def PlanExact (paths : ResolvedPaths) (touched : List PosixPath)
    (planned : Except PyError (List ReloadCommand)) : Prop :=
  ∃ cmds, planned = .ok cmds ∧ CommandsExact paths touched cmds

/-! ## links -/

/-- A path that can be a file's. -/
def FilePath (p : PosixPath) : Prop := p.parts ≠ [] ∧ p.name ≠ dotDot

/-- A path that can be resolved. -/
def Resolves (fs : Layout) (p : PosixPath) : Prop := ∃ q, fs.resolve p = .ok q

/-- A path that something was written to or deleted at. -/
structure Touchable (fs : Layout) (p : PosixPath) : Prop where
  file : FilePath p
  resolves : Resolves fs p

/-- A file of the directory is a link to a file elsewhere. -/
def LeadsOut (fs : Layout) (dir p : PosixPath) : Prop :=
  fs.isLink p = true ∧ (fs.realpath p).parent ≠ fs.realpath dir

/-- A file that is not named in the directory is there all the same: it is a
link to a file there, or its own directory is the same one under another name. -/
def LeadsIn (fs : Layout) (dir p : PosixPath) : Prop :=
  p.parent ≠ dir ∧
    if fs.isLink p then (fs.realpath p).parent = fs.realpath dir
    else fs.realpath p.parent = fs.realpath dir

/-- One of BIRD's own files, at a path past no link. -/
def NamedPlainly (fs : Layout) (paths : ResolvedPaths) (p : PosixPath) : Prop :=
  p ∈ paths.birdFiles ∧ (p.isAbsolute = true → fs.Straight p)

/-- The absolute path of one of BIRD's own files goes past a link, and ends here. -/
def LinkedTo (fs : Layout) (paths : ResolvedPaths) (p : PosixPath) : Prop :=
  ∃ f ∈ paths.birdFiles, f.isAbsolute = true ∧ ¬fs.Straight f ∧ fs.resolve f = .ok p

/-- The links on the configured paths do not change the plan. -/
structure LinksHarmless (fs : Layout) (paths : ResolvedPaths) (touched : List PosixPath) : Prop where
  /-- The paths of BIRD's own files that are resolved can be. -/
  targets : ∀ f ∈ paths.birdFiles, f.isAbsolute = true → Resolves fs f
  dirs : touched ≠ [] → ∀ dir ∈ [paths.networkdDir, paths.birdPeersDir], Resolves fs dir
  /-- Not all files written through `networkd_dir` lead out of it. -/
  networkd : (∃ p ∈ touched, paths.NetworkdFile p) →
    (∃ p ∈ touched, paths.NetworkdFile p ∧ ¬ LeadsOut fs paths.networkdDir p) ∨
      ∃ p ∈ touched, LeadsIn fs paths.networkdDir p
  /-- No other file leads into it on its own. -/
  networkdOnly : (∃ p ∈ touched, LeadsIn fs paths.networkdDir p) →
    ∃ p ∈ touched, paths.NetworkdFile p
  /-- The same for `bird_peers_dir`; a file of BIRD's own must be named past no
  link, or be where the link of another leads. -/
  bird : (∃ p ∈ touched, paths.BirdFile p) →
    (∃ p ∈ touched, InDir paths.birdPeersDir p ∧ ¬ LeadsOut fs paths.birdPeersDir p) ∨
      (∃ p ∈ touched, LeadsIn fs paths.birdPeersDir p) ∨
      ∃ p ∈ touched, NamedPlainly fs paths p ∨ LinkedTo fs paths p
  birdOnly : (∃ p ∈ touched, LeadsIn fs paths.birdPeersDir p ∨ LinkedTo fs paths p) →
    ∃ p ∈ touched, paths.BirdFile p

/-! ### the conditions are decidable -/

instance (p : PosixPath) : Decidable (FilePath p) := inferInstanceAs (Decidable (_ ∧ _))

theorem resolves_iff {fs : Layout} {p : PosixPath} :
    Resolves fs p ↔ (fs.resolve p).toOption.isSome = true := by
  unfold Resolves
  cases fs.resolve p with
  | error e => simp [Except.toOption]
  | ok q => simp [Except.toOption]

instance (fs : Layout) (p : PosixPath) : Decidable (Resolves fs p) :=
  decidable_of_iff _ resolves_iff.symm

instance (dir p : PosixPath) : Decidable (InDir dir p) :=
  inferInstanceAs (Decidable (_ ∧ _ ∧ _))

instance (paths : ResolvedPaths) (p : PosixPath) : Decidable (paths.NetworkdFile p) :=
  inferInstanceAs (Decidable (InDir _ _))

instance (paths : ResolvedPaths) (p : PosixPath) : Decidable (paths.BirdFile p) :=
  inferInstanceAs (Decidable (_ ∨ _))

instance (fs : Layout) (dir p : PosixPath) : Decidable (LeadsOut fs dir p) :=
  inferInstanceAs (Decidable (_ ∧ _))

instance (fs : Layout) (dir p : PosixPath) : Decidable (LeadsIn fs dir p) :=
  inferInstanceAs (Decidable (p.parent ≠ dir ∧
    if fs.isLink p then (fs.realpath p).parent = fs.realpath dir
    else fs.realpath p.parent = fs.realpath dir))

instance (fs : Layout) (paths : ResolvedPaths) (p : PosixPath) :
    Decidable (NamedPlainly fs paths p) := inferInstanceAs (Decidable (_ ∧ (_ → _)))

theorem linkedTo_iff {fs : Layout} {paths : ResolvedPaths} {p : PosixPath} :
    LinkedTo fs paths p ↔ ∃ f ∈ paths.birdFiles, f.isAbsolute = true ∧ ¬fs.Straight f ∧
      (fs.resolve f).toOption = some p := by
  have hok : ∀ f, fs.resolve f = .ok p ↔ (fs.resolve f).toOption = some p := by
    intro f
    cases fs.resolve f with
    | error e => simp [Except.toOption]
    | ok q => simp [Except.toOption]
  simp only [LinkedTo, hok]

instance (fs : Layout) (paths : ResolvedPaths) (p : PosixPath) : Decidable (LinkedTo fs paths p) :=
  decidable_of_iff _ linkedTo_iff.symm

/-! ## the checks -/

section Checks

variable {fs : Layout} {dir p : PosixPath} {paths : ResolvedPaths} {touched : List PosixPath}

theorem inDir_iff (hp : FilePath p) : InDir dir p ↔ p.parent = dir := by
  constructor
  · intro h
    exact h.1
  · intro h
    refine ⟨h, fun heq => ?_, hp.2⟩
    have hlen := congrArg (fun q : PosixPath => q.parts.length) (h.trans heq.symm)
    have hpos : 0 < p.parts.length := List.length_pos_iff.mpr hp.1
    simp only [PosixPath.parent, List.length_dropLast] at hlen
    omega

/-- A path that is resolved leads where its links do. -/
theorem pathResolve_of_resolves (h : Resolves fs p) : pathResolve fs p = .ok (fs.realpath p) := by
  obtain ⟨q, hq⟩ := h
  rw [pathResolve, hq, Layout.resolve_eq_ok hq]
  rfl

/-- No link makes `resolve` raise an `OSError`. -/
theorem pathResolve_error {e : PyError} (h : pathResolve fs p = .error e) :
    ¬Resolves fs p ∧ e.cls ≠ .osError := by
  unfold pathResolve at h
  constructor
  · rintro ⟨q, hq⟩
    rw [hq] at h
    cases h
  · cases hp : fs.resolve p with
    | ok q =>
        rw [hp] at h
        cases h
    | error e' =>
        rw [hp] at h
        cases h
        cases e' with
        | nul => decide
        | loop => decide

/-- A path that cannot be resolved makes it raise. -/
theorem resolves_of_pathResolve (h : ∀ e, pathResolve fs p ≠ .error e) : Resolves fs p := by
  unfold pathResolve at h
  cases hp : fs.resolve p with
  | ok q => exact ⟨q, hp⟩
  | error e =>
      rw [hp] at h
      exact absurd rfl (h (resolveError e))

/-- `_under` returns only where both paths can be resolved. -/
theorem resolves_of_under {found : Bool} (h : under (pathResolve fs) p dir = .ok found) :
    Resolves fs dir := by
  refine resolves_of_pathResolve fun e hdir => ?_
  have hraises : ∃ e', under (pathResolve fs) p dir = .error e' := by
    cases hp : pathResolve fs p with
    | error e' => exact ⟨e', under_eq_error.mpr ⟨.inl hp, (pathResolve_error hp).2⟩⟩
    | ok q => exact ⟨e, under_eq_error.mpr ⟨.inr ⟨q, hp, hdir⟩, (pathResolve_error hdir).2⟩⟩
  obtain ⟨e', hraises⟩ := hraises
  rw [h] at hraises
  cases hraises

/-- `_under` finds the files of a directory, those that lead out of it apart
and those that lead into it besides. -/
theorem under_iff (hp : Touchable fs p) (hdir : Resolves fs dir) :
    under (pathResolve fs) p dir = .ok true ↔
      (InDir dir p ∧ ¬ LeadsOut fs dir p) ∨ LeadsIn fs dir p := by
  rw [under_of_resolve (pathResolve_of_resolves hp.resolves) (pathResolve_of_resolves hdir),
    Except.ok.injEq, beq_iff_eq, inDir_iff hp.file, LeadsOut, LeadsIn]
  cases hlink : fs.isLink p with
  | true =>
      by_cases hparent : p.parent = dir
      · simp [hparent]
      · simp [hparent]
  | false =>
      rw [Layout.realpath_parent hp.file.1 hp.file.2 hlink]
      by_cases hparent : p.parent = dir
      · simp [hparent]
      · simp [hparent]

/-- What `p in bird_targets` finds. -/
theorem target_iff (htargets : ∀ f ∈ paths.birdFiles, f.isAbsolute = true → Resolves fs f) :
    (∃ f ∈ paths.birdFiles, birdTarget (pathResolve fs) f = .ok p) ↔
      NamedPlainly fs paths p ∨ LinkedTo fs paths p := by
  constructor
  · rintro ⟨f, hf, htarget⟩
    unfold birdTarget at htarget
    by_cases habs : f.isAbsolute = true
    · obtain ⟨q, hq⟩ := htargets f hf habs
      rw [if_pos habs, pathResolve, hq] at htarget
      cases htarget
      by_cases hstraight : fs.Straight f
      · obtain rfl := Layout.resolve_straight hstraight hq
        exact .inl ⟨hf, fun _ => hstraight⟩
      · exact .inr ⟨f, hf, habs, hstraight, hq⟩
    · rw [if_neg habs] at htarget
      cases htarget
      exact .inl ⟨hf, fun h => absurd h habs⟩
  · rintro (⟨hp, hplain⟩ | ⟨f, hf, habs, -, hq⟩)
    · refine ⟨p, hp, ?_⟩
      unfold birdTarget
      split
      · next habs =>
          obtain ⟨q, hq⟩ := htargets p hp habs
          obtain rfl := Layout.resolve_straight (hplain habs) hq
          rw [pathResolve, hq]
          rfl
      · rfl
    · refine ⟨f, hf, ?_⟩
      rw [birdTarget, if_pos habs, pathResolve, hq]
      rfl

/-- The plan is made if and only if the paths it needs can be resolved. -/
theorem planned_iff (hfiles : ∀ p ∈ touched, Touchable fs p) :
    (∃ cmds, plannedReloads fs paths touched = .ok cmds) ↔
      (∀ f ∈ paths.birdFiles, f.isAbsolute = true → Resolves fs f) ∧
        (touched ≠ [] → ∀ dir ∈ [paths.networkdDir, paths.birdPeersDir], Resolves fs dir) := by
  constructor
  · rintro ⟨cmds, hplan⟩
    refine ⟨fun f hf habs => ?_, fun hne dir hdir => ?_⟩
    · obtain ⟨q, hq⟩ := resolve_of_planned hplan hf habs
      refine resolves_of_pathResolve fun e he => ?_
      rw [hq] at he
      cases he
    · obtain ⟨p, rest, rfl⟩ := List.exists_cons_of_ne_nil hne
      obtain ⟨found, hfound⟩ := under_of_planned hplan hdir
      exact resolves_of_under hfound
  · rintro ⟨htargets, hdirs⟩
    cases hplan : plannedReloads fs paths touched with
    | ok cmds => exact ⟨cmds, rfl⟩
    | error e =>
        exfalso
        obtain ⟨p, hp, dir, hdir, hraises | ⟨_, -, hraises⟩, -⟩ | ⟨f, hf, habs, hraises⟩ :=
          planReloads_error hplan
        · exact (pathResolve_error hraises).1 (hfiles p hp).resolves
        · exact (pathResolve_error hraises).1 (hdirs (List.ne_nil_of_mem hp) dir hdir)
        · exact (pathResolve_error hraises).1 (htargets f hf habs)

/-- Which commands a plan holds. -/
theorem commands_iff (hfiles : ∀ p ∈ touched, Touchable fs p) {cmds : List ReloadCommand}
    (hplan : plannedReloads fs paths touched = .ok cmds) :
    (.networkctlReload ∈ cmds ↔
      (∃ p ∈ touched, paths.NetworkdFile p ∧ ¬ LeadsOut fs paths.networkdDir p) ∨
        ∃ p ∈ touched, LeadsIn fs paths.networkdDir p) ∧
    (.birdcConfigure ∈ cmds ↔
      (∃ p ∈ touched, InDir paths.birdPeersDir p ∧ ¬ LeadsOut fs paths.birdPeersDir p) ∨
        (∃ p ∈ touched, LeadsIn fs paths.birdPeersDir p) ∨
        ∃ p ∈ touched, NamedPlainly fs paths p ∨ LinkedTo fs paths p) := by
  obtain ⟨htargets, hdirs⟩ := (planned_iff hfiles).mp ⟨cmds, hplan⟩
  obtain ⟨hnetworkctl, hbirdc, -⟩ := planReloads_ok hplan
  have hunder : ∀ p ∈ touched, ∀ dir ∈ [paths.networkdDir, paths.birdPeersDir],
      (under (pathResolve fs) p dir = .ok true ↔
        (InDir dir p ∧ ¬ LeadsOut fs dir p) ∨ LeadsIn fs dir p) :=
    fun p hp dir hdir => under_iff (hfiles p hp) (hdirs (List.ne_nil_of_mem hp) dir hdir)
  have hreturns : ∀ p ∈ touched, ∃ found,
      under (pathResolve fs) p paths.birdPeersDir = .ok found := by
    intro p hp
    exact ⟨_, under_of_resolve (pathResolve_of_resolves (hfiles p hp).resolves)
      (pathResolve_of_resolves (hdirs (List.ne_nil_of_mem hp) _ (by simp)))⟩
  constructor
  · rw [hnetworkctl]
    constructor
    · rintro ⟨p, hp, hfound⟩
      obtain h | h := (hunder p hp _ (by simp)).mp hfound
      · exact .inl ⟨p, hp, h⟩
      · exact .inr ⟨p, hp, h⟩
    · rintro (⟨p, hp, h⟩ | ⟨p, hp, h⟩)
      · exact ⟨p, hp, (hunder p hp _ (by simp)).mpr (.inl h)⟩
      · exact ⟨p, hp, (hunder p hp _ (by simp)).mpr (.inr h)⟩
  · rw [hbirdc]
    constructor
    · rintro ⟨p, hp, hfound | ⟨-, htarget⟩⟩
      · obtain h | h := (hunder p hp _ (by simp)).mp hfound
        · exact .inl ⟨p, hp, h⟩
        · exact .inr (.inl ⟨p, hp, h⟩)
      · exact .inr (.inr ⟨p, hp, (target_iff htargets).mp htarget⟩)
    · rintro (⟨p, hp, h⟩ | ⟨p, hp, h⟩ | ⟨p, hp, h⟩)
      · exact ⟨p, hp, .inl ((hunder p hp _ (by simp)).mpr (.inl h))⟩
      · exact ⟨p, hp, .inl ((hunder p hp _ (by simp)).mpr (.inr h))⟩
      · exact ⟨p, hp, .inr ⟨hreturns p hp, (target_iff htargets).mpr h⟩⟩

end Checks

/-! ## exactness -/

/-- The commands of a plan are exact if and only if the links are harmless. -/
theorem commandsExact_iff {fs : Layout} {paths : ResolvedPaths} {touched : List PosixPath}
    (hfiles : ∀ p ∈ touched, Touchable fs p) {cmds : List ReloadCommand}
    (hplan : plannedReloads fs paths touched = .ok cmds) :
    CommandsExact paths touched cmds ↔ LinksHarmless fs paths touched := by
  obtain ⟨htargets, hdirs⟩ := (planned_iff hfiles).mp ⟨cmds, hplan⟩
  obtain ⟨hnetworkctl, hbirdc⟩ := commands_iff hfiles hplan
  constructor
  · intro h
    have hnetworkd := hnetworkctl.symm.trans h.networkctl
    have hbird := hbirdc.symm.trans h.birdc
    refine ⟨htargets, hdirs, hnetworkd.mpr, fun hin => hnetworkd.mp (.inr hin), hbird.mpr, ?_⟩
    rintro ⟨p, hp, hin | hlinked⟩
    · exact hbird.mp (.inr (.inl ⟨p, hp, hin⟩))
    · exact hbird.mp (.inr (.inr ⟨p, hp, .inr hlinked⟩))
  · intro h
    refine ⟨hnetworkctl.trans ⟨?_, h.networkd⟩, hbirdc.trans ⟨?_, h.bird⟩,
      (planReloads_ok hplan).2.2⟩
    · rintro (⟨p, hp, hfile, -⟩ | hin)
      · exact ⟨p, hp, hfile⟩
      · exact h.networkdOnly hin
    · rintro (⟨p, hp, hdir, -⟩ | ⟨p, hp, hin⟩ | ⟨p, hp, hplain | hlinked⟩)
      · exact ⟨p, hp, .inl hdir⟩
      · exact h.birdOnly ⟨p, hp, .inl hin⟩
      · exact ⟨p, hp, .inr hplain.1⟩
      · exact h.birdOnly ⟨p, hp, .inr hlinked⟩

/-- **Reload planning under links**: the plan of `apply` is made and exact if and
only if the links are harmless for the files it touched. -/
theorem plan_exact_iff (fs : Layout) (paths : ResolvedPaths) (touched : List PosixPath)
    (hfiles : ∀ p ∈ touched, Touchable fs p) :
    PlanExact paths touched (plannedReloads fs paths touched) ↔ LinksHarmless fs paths touched := by
  constructor
  · rintro ⟨cmds, hplan, hexact⟩
    exact (commandsExact_iff hfiles hplan).mp hexact
  · intro h
    obtain ⟨cmds, hplan⟩ := (planned_iff hfiles).mpr ⟨h.targets, h.dirs⟩
    exact ⟨cmds, hplan, (commandsExact_iff hfiles hplan).mpr h⟩

/-- **Plain layouts**: the plan is exact when no touched file is a link, the two
directories have no second name among the touched files' directories and the
paths of BIRD's own files lead through no link. -/
theorem plan_exact_of_plain {fs : Layout} {paths : ResolvedPaths} {touched : List PosixPath}
    (hfiles : ∀ p ∈ touched, Touchable fs p) (hlinks : ∀ p ∈ touched, fs.isLink p = false)
    (hdirs : ∀ dir ∈ [paths.networkdDir, paths.birdPeersDir], Resolves fs dir ∧
      ∀ p ∈ touched, fs.realpath p.parent = fs.realpath dir → p.parent = dir)
    (hbird : ∀ f ∈ paths.birdFiles, f.isAbsolute = true → Resolves fs f ∧ fs.Straight f) :
    PlanExact paths touched (plannedReloads fs paths touched) := by
  have hout : ∀ p ∈ touched, ∀ dir, ¬ LeadsOut fs dir p := by
    intro p hp dir h
    rw [LeadsOut, hlinks p hp] at h
    cases h.1
  have hin : ∀ p ∈ touched, ∀ dir ∈ [paths.networkdDir, paths.birdPeersDir],
      ¬ LeadsIn fs dir p := by
    intro p hp dir hdir h
    rw [LeadsIn, hlinks p hp] at h
    exact h.1 ((hdirs dir hdir).2 p hp h.2)
  have hlinked : ∀ p, ¬ LinkedTo fs paths p := by
    rintro p ⟨f, hf, habs, hnot, -⟩
    exact hnot (hbird f hf habs).2
  refine (plan_exact_iff fs paths touched hfiles).mpr
    ⟨fun f hf habs => (hbird f hf habs).1, fun _ dir hdir => (hdirs dir hdir).1, ?_, ?_, ?_, ?_⟩
  · rintro ⟨p, hp, hfile⟩
    exact .inl ⟨p, hp, hfile, hout p hp _⟩
  · rintro ⟨p, hp, hlead⟩
    exact absurd hlead (hin p hp _ (by simp))
  · rintro ⟨p, hp, hdir | hfile⟩
    · exact .inl ⟨p, hp, hdir, hout p hp _⟩
    · exact .inr (.inr ⟨p, hp, .inl ⟨hfile, fun habs => (hbird p hfile habs).2⟩⟩)
  · rintro ⟨p, hp, hlead | hlead⟩
    · exact absurd hlead (hin p hp _ (by simp))
    · exact absurd hlead (hlinked p)

theorem runReloads_cmds {runner : ReloadCommand → Except PyError (Option Str)}
    {cmds : List ReloadCommand} {actions : List ReloadAction}
    (h : runReloads runner cmds = .ok actions) : actions.map ReloadAction.cmd = cmds := by
  induction cmds generalizing actions with
  | nil =>
      cases h
      rfl
  | cons cmd cmds ih =>
      rw [runReloads] at h
      simp only [Prog.bind_eq_ok] at h
      obtain ⟨error, -, rest, hrest, h⟩ := h
      cases h
      rw [List.map_cons, ih hrest]

/-- The same of a whole call: the commands that `apply` runs. -/
theorem apply_reloads_exact_iff {env : ApplyEnv} {fs : Layout} {plan : ApplyPlan} {revision : Str}
    {disk disk' : Disk} {r : ApplyResult} (hresolve : env.resolve = pathResolve fs)
    (hexec : (execute env plan revision false .auto).run disk = (.ok r, disk'))
    (hfiles : ∀ p ∈ touchedPaths r.diffs r.deleted, Touchable fs p) :
    CommandsExact plan.paths (touchedPaths r.diffs r.deleted) (r.reloads.map ReloadAction.cmd) ↔
      LinksHarmless fs plan.paths (touchedPaths r.diffs r.deleted) := by
  obtain ⟨-, hdiffs, -, -, -, hreloads, -⟩ := execute_ok hexec
  rw [reloadStep, if_neg (by simp), reload, Prog.bind_eq_ok, ← hdiffs, hresolve] at hreloads
  obtain ⟨cmds, hplan, hrun⟩ := hreloads
  rw [runReloads_cmds hrun]
  exact commandsExact_iff hfiles hplan

/-! ### a linked directory -/

/-- A machine with one link. -/
def oneLink (place : List Str) (target : String) : Layout where
  cwd := []
  links := [(place, .ofStr (lit target))]
  eloop := fun _ => false
  cwd_real := List.not_mem_nil

/-- `/etc/systemd/network` is a link to `/srv/network`. -/
def linkedNetwork : Layout := oneLink [lit "etc", lit "systemd", lit "network"] "/srv/network"

/-- `/etc/bird` is a link to `/srv/bird`. -/
def linkedBird : Layout := oneLink [lit "etc", lit "bird"] "/srv/bird"

def dummyNetwork : PosixPath := .ofStr (lit "/etc/systemd/network/dn42-dummy.network")

/-- The link of `networkd_dir` does no harm. -/
theorem plan_exact_linked_network :
    PlanExact (resolvePaths none configToml) [dummyNetwork]
      (plannedReloads linkedNetwork (resolvePaths none configToml) [dummyNetwork]) := by
  have hfiles : ∀ p ∈ [dummyNetwork], Touchable linkedNetwork p := by
    intro p hp
    rw [List.mem_singleton.mp hp]
    exact ⟨by decide, by decide +kernel⟩
  exact (plan_exact_iff linkedNetwork (resolvePaths none configToml) [dummyNetwork] hfiles).mpr
    ⟨by decide +kernel, by decide +kernel, by decide +kernel, by decide +kernel,
      by decide +kernel, by decide +kernel⟩

/-- **A linked directory**: with `/etc/bird` a link, a call that wrote
`/etc/bird/babel.conf` does not have BIRD read it. -/
theorem linked_bird_dir_missed :
    ¬ PlanExact (resolvePaths none configToml) [babelConf.path]
      (plannedReloads linkedBird (resolvePaths none configToml) [babelConf.path]) := by
  rintro ⟨cmds, hplan, h⟩
  have hnone :
      (plannedReloads linkedBird (resolvePaths none configToml) [babelConf.path]).toOption =
      some [] := by decide +kernel
  have hbird : (resolvePaths none configToml).BirdFile babelConf.path := .inr (by decide +kernel)
  have hmem := h.birdc.mpr ⟨babelConf.path, List.mem_singleton_self _, hbird⟩
  rw [hplan] at hnone
  cases Option.some.inj hnone
  cases hmem

end Dn42Ctl
