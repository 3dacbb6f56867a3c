import Dn42Ctl.NodeApply
import Dn42Ctl.Lib.Raising

/-!
# ApplySpecs

What the parts of one `apply` call do to the disk, as facts about what can be
read from it before and after.

* `planApply_ok` — what a plan holds;
* `writeFiles_ok`, `unlinkFiles_ok` — the disk after all operations went well;
* `execute_error_iff` — where a call may have raised;
* `writeFiles_harmless` — a call stopped before its first change;
* `mem_touched_of_changed` — a file whose content changed is a touched path.
-/

namespace Dn42Ctl

open Text

/-- The text is on disk already. -/
def Settled (disk : Disk) (file : FileSpec) : Prop :=
  disk.read file.path = some (.text file.content)

/-- Paths and contents, as `Disk.writeAll` takes them. -/
def writesOf (files : List FileSpec) : List (PosixPath × Str) :=
  files.map fun f => (f.path, f.content)

theorem map_fst_writesOf (files : List FileSpec) :
    (writesOf files).map Prod.fst = files.map FileSpec.path := by
  simp [writesOf]

theorem mem_writesOf {files : List FileSpec} {p : PosixPath} {s : Str} :
    (p, s) ∈ writesOf files ↔ ∃ f ∈ files, f.path = p ∧ f.content = s := by
  simp [writesOf]

/-! ## the plan -/

/-- The managed files on disk that are not expected. -/
def staleFiles (expected : List PosixPath) (paths : ResolvedPaths) (disk : Disk) :
    List PosixPath :=
  (managedPaths paths).flatMap (staleIn expected disk)

/-- Every managed directory can be listed, if it is there. -/
def Lists (fails : Nat → Bool) (paths : ResolvedPaths) : Prop :=
  ∀ k m, (managedPaths paths)[k]? = some m → fails k = false ∧ m.1.hasNul = false

theorem collectStaleFrom_eq_ok {fails : Nat → Bool} {expected : List PosixPath} {disk : Disk}
    {i : Nat} {ms : List (PosixPath × List (Str × Str))} {stale : List PosixPath} :
    collectStaleFrom fails expected disk i ms = .ok stale ↔
      (∀ k m, ms[k]? = some m → fails (i + k) = false ∧ m.1.hasNul = false) ∧
        stale = ms.flatMap (staleIn expected disk) := by
  induction ms generalizing i stale with
  | nil =>
      constructor
      · intro h
        cases h
        exact ⟨fun k m hk => (by cases hk), rfl⟩
      · rintro ⟨-, rfl⟩
        rfl
  | cons m ms ih =>
      have hnext : ∀ k, i + (k + 1) = i + 1 + k := fun k => by omega
      rw [collectStaleFrom]
      constructor
      · intro h
        split at h
        · cases h
        · next hfails =>
            split at h
            · cases h
            · next hnul =>
                simp only [Prog.bind_eq_ok] at h
                obtain ⟨rest, hrest, h⟩ := h
                cases h
                obtain ⟨hall, rfl⟩ := ih.mp hrest
                refine ⟨fun k m' hk => ?_, rfl⟩
                cases k with
                | zero =>
                    cases hk
                    exact ⟨by simpa using hfails, by simpa using hnul⟩
                | succ k => exact hnext k ▸ hall k m' hk
      · rintro ⟨hall, rfl⟩
        obtain ⟨hfails, hnul⟩ := hall 0 m rfl
        rw [if_neg (by simpa using hfails), if_neg (by simp [hnul])]
        simp only [Prog.bind_eq_ok]
        exact ⟨_, ih.mpr ⟨fun k m' hk => hnext k ▸ hall (k + 1) m' hk, rfl⟩, rfl⟩

/-- The stale files are collected if and only if all directories can be listed. -/
theorem collectStale_eq_ok {fails : Nat → Bool} {expected : List PosixPath}
    {paths : ResolvedPaths} {disk : Disk} {stale : List PosixPath} :
    collectStale fails expected paths disk = .ok stale ↔
      Lists fails paths ∧ stale = staleFiles expected paths disk := by
  rw [collectStale, collectStaleFrom_eq_ok]
  simp only [Nat.zero_add]
  rfl

/-- The files whose text, as it is read, is not the wanted one. -/
def differing (disk : Disk) (files : List FileSpec) : List FileSpec :=
  files.filter fun f => (disk.read f.path).bind Content.readText != some f.content

/-- A plan, taken apart. -/
theorem planApply_ok {env : ApplyEnv} {payload : JsonObject} {configPath : PosixPath} {disk : Disk}
    {plan : ApplyPlan} (h : planApply env payload configPath disk = .ok plan) :
    plan.paths = resolvePaths (localConfig env.toml configPath disk) configPath ∧
      rendered env payload configPath disk = .ok (plan.files, plan.warnings) ∧
      Lists env.listFails plan.paths ∧
      plan.stale = staleFiles (plan.files.map FileSpec.path) plan.paths disk ∧
      ∃ diffs, diffAll env.diffFails disk 0 plan.files = .ok diffs ∧
        plan.diffs = diffs ++ plan.stale.map fun p => ⟨p, .delete⟩ := by
  unfold planApply at h
  simp only [Prog.bind_eq_ok] at h
  obtain ⟨r, hrender, stale, hstale, diffs, hdiffs, h⟩ := h
  cases h
  obtain ⟨hlist, hstale⟩ := collectStale_eq_ok.mp hstale
  exact ⟨rfl, hrender, hlist, hstale, diffs, hdiffs, rfl⟩

/-- The rendering of a plan, from what it was made of. -/
theorem rendered_eq {env : ApplyEnv} {payload : JsonObject} {configPath : PosixPath} {disk : Disk}
    {appConfig : Option AppConfig} {paths : ResolvedPaths}
    (hconfig : localConfig env.toml configPath disk = appConfig)
    (hpaths : resolvePaths appConfig configPath = paths) :
    rendered env payload configPath disk =
      renderDesired env.display env.toml payload paths appConfig
        (disk.read paths.birdExtraConfPath).isSome := by
  subst hconfig hpaths
  rfl

/-- What a plan holds was rendered for its paths. -/
theorem planApply_renders {env : ApplyEnv} {payload : JsonObject} {configPath : PosixPath}
    {disk : Disk} {plan : ApplyPlan} (h : planApply env payload configPath disk = .ok plan) :
    renderDesired env.display env.toml payload plan.paths (localConfig env.toml configPath disk)
      (disk.read plan.paths.birdExtraConfPath).isSome = .ok (plan.files, plan.warnings) := by
  obtain ⟨hpaths, hrender, -⟩ := planApply_ok h
  rwa [rendered_eq rfl hpaths.symm] at hrender

/-- A plan holds what was rendered. -/
theorem planApply_files {env : ApplyEnv} {payload : JsonObject} {configPath : PosixPath}
    {disk : Disk}
    {plan : ApplyPlan} {appConfig : Option AppConfig} {paths : ResolvedPaths}
    {files : List FileSpec} {warnings : List Msg}
    (hplan : planApply env payload configPath disk = .ok plan)
    (hconfig : localConfig env.toml configPath disk = appConfig)
    (hpaths : resolvePaths appConfig configPath = paths)
    (hrender : renderDesired env.display env.toml payload paths appConfig
      (disk.read paths.birdExtraConfPath).isSome = .ok (files, warnings)) :
    plan.files = files := by
  have hfiles := (planApply_ok hplan).2.1
  rw [rendered_eq hconfig hpaths] at hfiles
  exact congrArg Prod.fst (Except.ok.inj (hfiles.symm.trans hrender))

/-- The plan of a call that can render, list and compare. -/
theorem planApply_eq {env : ApplyEnv} {payload : JsonObject} {configPath : PosixPath} {disk : Disk}
    {appConfig : Option AppConfig} {paths : ResolvedPaths} {files : List FileSpec}
    {warnings : List Msg} {stale : List PosixPath} {diffs : List ApplyDiff}
    (hconfig : localConfig env.toml configPath disk = appConfig)
    (hpaths : resolvePaths appConfig configPath = paths)
    (hrender : renderDesired env.display env.toml payload paths appConfig
      (disk.read paths.birdExtraConfPath).isSome = .ok (files, warnings))
    (hlist : Lists env.listFails paths)
    (hstale : staleFiles (files.map FileSpec.path) paths disk = stale)
    (hdiffs : diffAll env.diffFails disk 0 files = .ok diffs) :
    planApply env payload configPath disk =
      .ok ⟨paths, files, warnings, stale, diffs ++ stale.map fun p => ⟨p, .delete⟩⟩ := by
  subst hconfig hpaths hstale
  unfold planApply
  simp only [Prog.bind_eq_ok]
  exact ⟨(files, warnings), hrender, _, collectStale_eq_ok.mpr ⟨hlist, rfl⟩, diffs, hdiffs, rfl⟩

/-- The three outcomes of a comparison. -/
theorem diffOf_ok {disk : Disk} {file : FileSpec} {d : ApplyDiff}
    (h : diffOf disk file = .ok d) :
    d.path = file.path ∧
      (d.action = .create ∧ disk.read file.path = none ∨
       (d.action = .unchanged ∧
         ∃ s, disk.read file.path = some (.text s) ∧ universalNewlines s = file.content) ∨
       (d.action = .update ∧
         ∃ s, disk.read file.path = some (.text s) ∧ universalNewlines s ≠ file.content)) := by
  unfold diffOf at h
  split at h
  · next hread =>
      cases h
      exact ⟨rfl, .inl ⟨rfl, hread⟩⟩
  · next old hread =>
      cases old with
      | bytes b => cases h
      | text s =>
          simp only [Content.readText] at h
          split at h
          · next heq =>
              cases h
              exact ⟨rfl, .inr (.inl ⟨rfl, s, hread, heq⟩)⟩
          · next hne =>
              cases h
              exact ⟨rfl, .inr (.inr ⟨rfl, s, hread, hne⟩)⟩

/-! ## writing -/

theorem atomicWrite_ok {outcome : WriteOutcome} {file : FileSpec} {disk disk' : Disk} {u : Unit}
    (h : (atomicWrite outcome file).run disk = (.ok u, disk')) :
    disk' = disk.write file.path (.text file.content) := by
  cases outcome with
  | refused => cases h
  | torn left => cases h
  | done =>
      unfold atomicWrite at h
      simp only at h
      split at h
      · cases h
      · cases h
        rfl

theorem writeFiles_ok {outcome : Nat → WriteOutcome} {i : Nat} {files : List FileSpec}
    {disk disk' : Disk} {written : List PosixPath}
    (h : (writeFiles outcome i files).run disk = (.ok written, disk')) :
    written = files.map FileSpec.path ∧ disk' = disk.writeAll (writesOf files) := by
  induction files generalizing i disk written with
  | nil =>
      cases h
      exact ⟨rfl, rfl⟩
  | cons f fs ih =>
      unfold writeFiles at h
      simp only [Prog.run_bind_eq_ok] at h
      obtain ⟨u, disk1, hwrite, paths, disk2, hrest, h⟩ := h
      cases h
      obtain ⟨hpaths, hdisk⟩ := ih hrest
      rw [hpaths, hdisk, atomicWrite_ok hwrite]
      exact ⟨rfl, rfl⟩

/-- The n-th file cannot be written. -/
def WriteFails (outcome : Nat → WriteOutcome) (i : Nat) (file : FileSpec) : Prop :=
  outcome i ≠ .done ∨ file.path.hasNul = true

/-- Writes fail, if at all, before the first file that is not on disk already,
and leave the file alone; `i` counts the writes. -/
def HarmlessWrites (outcome : Nat → WriteOutcome) (disk : Disk) (i : Nat)
    (files : List FileSpec) : Prop :=
  ∀ k file, files[k]? = some file → WriteFails outcome (i + k) file →
    (∀ left, outcome (i + k) ≠ .torn left) ∧
      ∀ j g, j < k → files[j]? = some g → Settled disk g

/-- Writing a file again changes nothing. -/
theorem read_write_settled {disk : Disk} {file : FileSpec} (h : Settled disk file) (p : PosixPath) :
    (disk.write file.path (.text file.content)).read p = disk.read p := by
  rw [Disk.read_write]
  split
  · next hp =>
      rw [hp]
      exact h.symm
  · rfl

/-- Writing files that are on disk already changes nothing. -/
theorem read_writeAll_settled {files : List FileSpec} {disk : Disk}
    (h : ∀ f ∈ files, Settled disk f)
    (p : PosixPath) : (disk.writeAll (writesOf files)).read p = disk.read p := by
  by_cases hp : p ∈ (writesOf files).map Prod.fst
  · obtain ⟨s, hs, hread⟩ := @Disk.read_writeAll_isSome disk p _ hp
    obtain ⟨f, hf, rfl, rfl⟩ := mem_writesOf.mp hs
    rw [hread]
    exact (h f hf).symm
  · exact Disk.read_writeAll_of_notMem hp

/-- One write: it fails, or it lands. -/
theorem atomicWrite_cases (outcome : Nat → WriteOutcome) (i : Nat) (file : FileSpec)
    (disk : Disk) :
    (WriteFails outcome i file ∧ ∃ e disk', (atomicWrite (outcome i) file).run disk =
        (.error e, disk') ∧ ((∀ left, outcome i ≠ .torn left) → disk' = disk)) ∨
      (atomicWrite (outcome i) file).run disk =
        (.ok (), disk.write file.path (.text file.content)) := by
  cases hout : outcome i with
  | refused => exact .inl ⟨.inl (by simp [hout]), _, _, rfl, fun _ => rfl⟩
  | torn left =>
      exact .inl ⟨.inl (by simp [hout]), _, _, rfl, fun hnot => absurd rfl (hnot left)⟩
  | done =>
      unfold atomicWrite
      by_cases hnul : file.path.hasNul = true
      · rw [if_pos hnul]
        exact .inl ⟨.inr hnul, _, _, rfl, fun _ => rfl⟩
      · rw [if_neg hnul]
        exact .inr rfl

theorem writeFiles_error {outcome : Nat → WriteOutcome} {i : Nat} {files : List FileSpec}
    {disk disk' : Disk} {e : PyError}
    (h : (writeFiles outcome i files).run disk = (.error e, disk')) :
    ∃ k file, files[k]? = some file ∧ WriteFails outcome (i + k) file := by
  induction files generalizing i disk with
  | nil => cases h
  | cons f fs ih =>
      rw [writeFiles] at h
      obtain ⟨hfail, -⟩ | hwrite := atomicWrite_cases outcome i f disk
      · exact ⟨0, f, rfl, hfail⟩
      · rw [Prog.run_bind_ok hwrite] at h
        cases hrest : (writeFiles outcome (i + 1) fs).run
            (disk.write f.path (.text f.content)) with
        | mk res disk2 =>
            cases res with
            | ok paths =>
                rw [Prog.run_bind_ok hrest] at h
                cases h
            | error e' =>
                rw [Prog.run_bind_error hrest] at h
                cases h
                obtain ⟨k, g, hk, hfail⟩ := ih hrest
                exact ⟨k + 1, g, hk, by rwa [show i + (k + 1) = i + 1 + k by omega]⟩

/-- Writes of which none fails go through. -/
theorem writeFiles_run {outcome : Nat → WriteOutcome} {i : Nat} {files : List FileSpec}
    (hdone : ∀ k f, files[k]? = some f → ¬WriteFails outcome (i + k) f) (disk : Disk) :
    (writeFiles outcome i files).run disk =
      (.ok (files.map FileSpec.path), disk.writeAll (writesOf files)) := by
  cases h : (writeFiles outcome i files).run disk with
  | mk res disk' =>
      cases res with
      | ok written =>
          obtain ⟨rfl, rfl⟩ := writeFiles_ok h
          rfl
      | error e =>
          obtain ⟨k, f, hk, hfails⟩ := writeFiles_error h
          exact absurd hfails (hdone k f hk)

/-- Writes that went through did not fail. -/
theorem writeFiles_done {outcome : Nat → WriteOutcome} {i : Nat} {files : List FileSpec}
    {disk disk' : Disk} {written : List PosixPath}
    (h : (writeFiles outcome i files).run disk = (.ok written, disk')) {k : Nat} {f : FileSpec}
    (hk : files[k]? = some f) : ¬WriteFails outcome (i + k) f := by
  induction files generalizing i disk disk' written k with
  | nil => cases hk
  | cons g gs ih =>
      unfold writeFiles at h
      simp only [Prog.run_bind_eq_ok] at h
      obtain ⟨u, disk1, hwrite, rest, disk2, hrest, -⟩ := h
      cases k with
      | zero =>
          cases hk
          rintro (hout | hnul)
          · cases hcase : outcome i with
            | done => exact hout hcase
            | refused =>
                rw [hcase] at hwrite
                cases hwrite
            | torn left =>
                rw [hcase] at hwrite
                cases hwrite
          · unfold atomicWrite at hwrite
            split at hwrite
            · cases hwrite
            · cases hwrite
            · rw [if_pos hnul] at hwrite
              cases hwrite
      | succ k =>
          rw [show i + (k + 1) = i + 1 + k by omega]
          exact ih hrest hk

/-- A list of writes that is stopped before its first change. -/
theorem writeFiles_harmless {outcome : Nat → WriteOutcome} {i : Nat} {files : List FileSpec}
    {disk disk' : Disk} {e : PyError} (hharm : HarmlessWrites outcome disk i files)
    (h : (writeFiles outcome i files).run disk = (.error e, disk')) (p : PosixPath) :
    disk'.read p = disk.read p := by
  induction files generalizing i disk with
  | nil => cases h
  | cons f fs ih =>
      rw [writeFiles] at h
      obtain ⟨hfail, e', disk1, herr, hsame⟩ | hwrite := atomicWrite_cases outcome i f disk
      · rw [Prog.run_bind_error herr] at h
        cases h
        rw [hsame (hharm 0 f rfl hfail).1]
      · rw [Prog.run_bind_ok hwrite] at h
        cases hrest : (writeFiles outcome (i + 1) fs).run
            (disk.write f.path (.text f.content)) with
        | mk res disk2 =>
            cases res with
            | ok paths =>
                rw [Prog.run_bind_ok hrest] at h
                cases h
            | error e' =>
                rw [Prog.run_bind_error hrest] at h
                cases h
                -- a later write failed, so this one wrote what was there
                obtain ⟨k, g, hk, hfail⟩ := writeFiles_error hrest
                have hidx : ∀ n, i + (n + 1) = i + 1 + n := fun n => by omega
                have hsettled : Settled disk f :=
                  (hharm (k + 1) g hk (by rwa [hidx])).2 0 f (by omega) rfl
                have hreads := read_write_settled hsettled
                have hharm' : HarmlessWrites outcome (disk.write f.path (.text f.content))
                    (i + 1) fs := by
                  intro n file hn hfails
                  obtain ⟨htorn, hprev⟩ := hharm (n + 1) file hn (by rwa [hidx])
                  rw [hidx] at htorn
                  refine ⟨htorn, fun j g' hj hg' => ?_⟩
                  rw [Settled, hreads]
                  exact hprev (j + 1) g' (by omega) hg'
                rw [ih hharm' hrest, hreads]

/-! ## deleting -/

theorem unlinkStale_ok {fails : Bool} {p : PosixPath} {disk disk' : Disk} {deleted : List PosixPath}
    (h : (unlinkStale fails p).run disk = (.ok deleted, disk')) :
    (∀ q, disk'.read q = if q = p then none else disk.read q) ∧
      ∀ q, q ∈ deleted ↔ q = p ∧ (disk.read p).isSome := by
  unfold unlinkStale at h
  split at h
  · cases h
  · simp only [Prog.run_bind_eq_ok] at h
    obtain ⟨found, disk1, hread, h⟩ := h
    cases hread
    split at h
    · next hfound =>
        cases h
        exact ⟨fun q => Disk.read_unlink p q disk, fun q => by simp [hfound]⟩
    · next hnone =>
        cases h
        have hp : disk.read p = none := by simpa using hnone
        constructor
        · intro q
          split
          · next hq => rw [hq, hp]
          · rfl
        · intro q
          simp [hp]

/-- All stale files are gone, and those that were there are reported. -/
theorem unlinkFiles_ok {fails : Nat → Bool} {i : Nat} {ps : List PosixPath} {disk disk' : Disk}
    {deleted : List PosixPath} (h : (unlinkFiles fails i ps).run disk = (.ok deleted, disk')) :
    (∀ q, disk'.read q = if q ∈ ps then none else disk.read q) ∧
      ∀ q, q ∈ deleted ↔ q ∈ ps ∧ (disk.read q).isSome := by
  induction ps generalizing i disk deleted with
  | nil =>
      cases h
      simp
  | cons p ps ih =>
      unfold unlinkFiles at h
      simp only [Prog.run_bind_eq_ok] at h
      obtain ⟨head, disk1, hhead, tail, disk2, htail, h⟩ := h
      cases h
      obtain ⟨hread1, hmem1⟩ := unlinkStale_ok hhead
      obtain ⟨hread2, hmem2⟩ := ih htail
      constructor
      · intro q
        rw [hread2, hread1]
        by_cases hq : q = p
        · simp [hq]
        · simp [hq]
      · intro q
        rw [List.mem_append, hmem1, hmem2, hread1, List.mem_cons]
        by_cases hq : q = p
        · simp [hq]
        · simp [hq]

theorem unlinkStale_error {fails : Bool} {p : PosixPath} {disk disk' : Disk} {e : PyError}
    (h : (unlinkStale fails p).run disk = (.error e, disk')) : fails = true ∧ disk' = disk := by
  unfold unlinkStale at h
  split at h
  · next hfails =>
      cases h
      exact ⟨hfails, rfl⟩
  · rw [Prog.run_bind_ok (Prog.run_read _ _)] at h
    split at h
    · cases h
    · cases h

/-- A list of deletions that raises was stopped at one of them. -/
theorem unlinkFiles_error {fails : Nat → Bool} {i : Nat} {ps : List PosixPath} {disk disk' : Disk}
    {e : PyError} (h : (unlinkFiles fails i ps).run disk = (.error e, disk')) :
    ∃ k < ps.length, fails (i + k) = true := by
  induction ps generalizing i disk with
  | nil => cases h
  | cons p ps ih =>
      rw [unlinkFiles] at h
      cases hhead : (unlinkStale (fails i) p).run disk with
      | mk res disk1 =>
          cases res with
          | error e' => exact ⟨0, Nat.succ_pos _, (unlinkStale_error hhead).1⟩
          | ok head =>
              rw [Prog.run_bind_ok hhead] at h
              cases htail : (unlinkFiles fails (i + 1) ps).run disk1 with
              | mk res disk2 =>
                  cases res with
                  | ok tail =>
                      rw [Prog.run_bind_ok htail] at h
                      cases h
                  | error e' =>
                      rw [Prog.run_bind_error htail] at h
                      cases h
                      obtain ⟨k, hlt, hk⟩ := ih htail
                      exact ⟨k + 1, Nat.succ_lt_succ hlt,
                        by rwa [show i + (k + 1) = i + 1 + k by omega]⟩

/-- A list of deletions that is stopped at the first one. -/
theorem unlinkFiles_harmless {fails : Nat → Bool} {i : Nat} {ps : List PosixPath}
    {disk disk' : Disk}
    {e : PyError} (hfirst : ∀ k < ps.length, fails (i + k) = true → k = 0)
    (h : (unlinkFiles fails i ps).run disk = (.error e, disk')) : disk' = disk := by
  cases ps with
  | nil => cases h
  | cons p ps =>
      rw [unlinkFiles] at h
      cases hhead : (unlinkStale (fails i) p).run disk with
      | mk res disk1 =>
          cases res with
          | error e' =>
              rw [Prog.run_bind_error hhead] at h
              cases h
              exact (unlinkStale_error hhead).2
          | ok head =>
              rw [Prog.run_bind_ok hhead] at h
              cases htail : (unlinkFiles fails (i + 1) ps).run disk1 with
              | mk res disk2 =>
                  cases res with
                  | ok tail =>
                      rw [Prog.run_bind_ok htail] at h
                      cases h
                  | error e' =>
                      obtain ⟨k, hlt, hk⟩ := unlinkFiles_error htail
                      have hzero := hfirst (k + 1) (Nat.succ_lt_succ hlt)
                        (by rwa [show i + (k + 1) = i + 1 + k by omega])
                      omega

/-- Deletions that went through did not fail. -/
theorem unlinkFiles_done {fails : Nat → Bool} {i : Nat} {ps : List PosixPath} {disk disk' : Disk}
    {deleted : List PosixPath} (h : (unlinkFiles fails i ps).run disk = (.ok deleted, disk'))
    {k : Nat} (hk : k < ps.length) : fails (i + k) = false := by
  induction ps generalizing i disk disk' deleted k with
  | nil => cases hk
  | cons p ps ih =>
      unfold unlinkFiles at h
      simp only [Prog.run_bind_eq_ok] at h
      obtain ⟨head, disk1, hhead, tail, disk2, htail, -⟩ := h
      cases k with
      | zero =>
          cases hfails : fails i with
          | false => rfl
          | true =>
              rw [hfails, unlinkStale, if_pos rfl] at hhead
              cases hhead
      | succ k =>
          rw [show i + (k + 1) = i + 1 + k by omega]
          exact ih htail (Nat.lt_of_succ_lt_succ hk)

/-- Files that are there are all reported, in order. -/
theorem unlinkFiles_all {fails : Nat → Bool} {i : Nat} {ps : List PosixPath} {disk disk' : Disk}
    {deleted : List PosixPath} (hnodup : ps.Nodup) (hthere : ∀ p ∈ ps, (disk.read p).isSome)
    (h : (unlinkFiles fails i ps).run disk = (.ok deleted, disk')) : deleted = ps := by
  induction ps generalizing i disk deleted with
  | nil =>
      cases h
      rfl
  | cons p ps ih =>
      obtain ⟨hnot, hnodup⟩ := List.nodup_cons.mp hnodup
      obtain ⟨hp, hthere⟩ := List.forall_mem_cons.mp hthere
      unfold unlinkFiles at h
      simp only [Prog.run_bind_eq_ok] at h
      obtain ⟨head, disk1, hhead, tail, disk2, htail, h⟩ := h
      cases h
      have hread := (unlinkStale_ok hhead).1
      have hrest : ∀ q ∈ ps, (disk1.read q).isSome := by
        intro q hq
        have hne : q ≠ p := fun heq => hnot (heq ▸ hq)
        rw [hread, if_neg hne]
        exact hthere q hq
      rw [ih hnodup hrest htail]
      unfold unlinkStale at hhead
      split at hhead
      · cases hhead
      · rw [Prog.run_bind_ok (Prog.run_read _ _), if_pos hp] at hhead
        cases hhead
        rfl

/-- The deletions go through in a call that nothing outside stops. -/
theorem unlinkFiles_returns {fails : Nat → Bool} {i : Nat} {ps : List PosixPath}
    (hnone : ∀ k < ps.length, fails (i + k) = false) (disk : Disk) :
    ∃ deleted disk', (unlinkFiles fails i ps).run disk = (.ok deleted, disk') := by
  cases h : (unlinkFiles fails i ps).run disk with
  | mk res disk' =>
      cases res with
      | ok deleted => exact ⟨deleted, disk', rfl⟩
      | error e =>
          obtain ⟨k, hlt, hk⟩ := unlinkFiles_error h
          rw [hnone k hlt] at hk
          cases hk

/-! ## the whole call -/

/-- A call that cannot plan raises and leaves the disk alone. -/
theorem run_apply_of_error {env : ApplyEnv} {cached : PullResult} {configPath : PosixPath}
    {dryRun noReload : Bool} {policy : ReloadPolicy} {disk : Disk} {e : PyError}
    (h : planApply env cached.payload configPath disk = .error e) :
    (apply env (some cached) configPath dryRun noReload policy).run disk = (.error e, disk) := by
  rw [apply, Prog.run_bind_ok (Prog.run_read _ _)]
  exact Prog.run_bind_error (congrArg (fun r => (r, disk)) h)

/-- A call that can plan writes and deletes, unless it is a dry run. -/
theorem run_apply_of_plan {env : ApplyEnv} {cached : PullResult} {configPath : PosixPath}
    {dryRun noReload : Bool} {policy : ReloadPolicy} {disk : Disk} {plan : ApplyPlan}
    (h : planApply env cached.payload configPath disk = .ok plan) :
    (apply env (some cached) configPath dryRun noReload policy).run disk =
      if dryRun then
        (.ok { revision := cached.revision, diffs := plan.diffs, dryRun := true,
               warnings := plan.warnings }, disk)
      else (execute env plan cached.revision noReload policy).run disk := by
  have hlift : (Prog.lift (planApply env cached.payload configPath disk) : DiskTx ApplyPlan).run
      disk = (.ok plan, disk) := by rw [Prog.run_lift, h]
  rw [apply, Prog.run_bind_ok (Prog.run_read _ _), id, Prog.run_bind_ok hlift]
  split
  · rfl
  · rfl

/-- What a call that wrote and deleted did. -/
theorem execute_ok {env : ApplyEnv} {plan : ApplyPlan} {revision : Str} {noReload : Bool}
    {policy : ReloadPolicy} {disk disk' : Disk} {r : ApplyResult}
    (h : (execute env plan revision noReload policy).run disk = (.ok r, disk')) :
    r.revision = revision ∧ r.diffs = plan.diffs ∧ r.written = plan.files.map FileSpec.path ∧
      (∀ p, disk'.read p = if p ∈ plan.stale then none
        else (disk.writeAll (writesOf plan.files)).read p) ∧
      (unlinkFiles env.unlinkFails 0 plan.stale).run (disk.writeAll (writesOf plan.files)) =
        (.ok r.deleted, disk') ∧
      reloadStep env plan.paths noReload policy (touchedPaths plan.diffs r.deleted) =
        .ok r.reloads ∧
      r.warnings = plan.warnings ++ reloadWarnings r.reloads := by
  unfold execute ensurePolicy at h
  simp only [Prog.run_bind_eq_ok] at h
  obtain ⟨written, disk1, hwrite, u, disk2, hpolicy, deleted, disk3, hdelete, reloads, disk4,
    hreload, h⟩ := h
  cases h
  split at hpolicy
  · cases hpolicy
  · cases hpolicy
    obtain ⟨hpaths, rfl⟩ := writeFiles_ok hwrite
    rw [Prog.run_lift, Prod.mk.injEq] at hreload
    obtain ⟨hreload, rfl⟩ := hreload
    exact ⟨rfl, rfl, hpaths, (unlinkFiles_ok hdelete).1, hdelete, hreload, rfl⟩

/-- Where a call that wrote something may have raised. -/
inductive Interrupted (env : ApplyEnv) (plan : ApplyPlan) (noReload : Bool)
    (policy : ReloadPolicy) (disk : Disk) (e : PyError) (disk' : Disk) : Prop where
  | write (h : (writeFiles env.writes 0 plan.files).run disk = (.error e, disk'))
  | policy {written : List PosixPath}
      (hwrite : (writeFiles env.writes 0 plan.files).run disk = (.ok written, disk'))
      (hfails : env.policyFails = true) (he : e = pyError .osError)
  | unlink {written : List PosixPath} {disk1 : Disk}
      (hwrite : (writeFiles env.writes 0 plan.files).run disk = (.ok written, disk1))
      (hpolicy : env.policyFails = false)
      (h : (unlinkFiles env.unlinkFails 0 plan.stale).run disk1 = (.error e, disk'))
  | reload {written deleted : List PosixPath} {disk1 : Disk}
      (hwrite : (writeFiles env.writes 0 plan.files).run disk = (.ok written, disk1))
      (hpolicy : env.policyFails = false)
      (hunlink : (unlinkFiles env.unlinkFails 0 plan.stale).run disk1 = (.ok deleted, disk'))
      (h : reloadStep env plan.paths noReload policy (touchedPaths plan.diffs deleted) = .error e)

/-- A call raises while it writes, deletes or reloads. -/
theorem execute_error_iff {env : ApplyEnv} {plan : ApplyPlan} {revision : Str} {noReload : Bool}
    {policy : ReloadPolicy} {disk disk' : Disk} {e : PyError} :
    (execute env plan revision noReload policy).run disk = (.error e, disk') ↔
      Interrupted env plan noReload policy disk e disk' := by
  unfold execute ensurePolicy
  constructor
  · intro h
    cases hwrite : (writeFiles env.writes 0 plan.files).run disk with
    | mk res disk1 =>
        cases res with
        | error e' =>
            rw [Prog.run_bind_error hwrite] at h
            cases h
            exact .write hwrite
        | ok written =>
            rw [Prog.run_bind_ok hwrite] at h
            cases hpolicy : env.policyFails with
            | true =>
                rw [if_pos hpolicy, Prog.run_bind_error (Prog.run_raise _ _)] at h
                cases h
                exact .policy hwrite hpolicy rfl
            | false =>
                rw [if_neg (by simp [hpolicy]), Prog.run_bind_ok (Prog.run_pure _ _)] at h
                cases hunlink : (unlinkFiles env.unlinkFails 0 plan.stale).run disk1 with
                | mk res disk2 =>
                    cases res with
                    | error e' =>
                        rw [Prog.run_bind_error hunlink] at h
                        cases h
                        exact .unlink hwrite hpolicy hunlink
                    | ok deleted =>
                        rw [Prog.run_bind_ok hunlink] at h
                        cases hreload : reloadStep env plan.paths noReload policy
                            (touchedPaths plan.diffs deleted) with
                        | error e' =>
                            rw [Prog.run_bind_error ((Prog.run_lift _ _).trans
                              (congrArg (·, disk2) hreload))] at h
                            cases h
                            exact .reload hwrite hpolicy hunlink hreload
                        | ok reloads =>
                            rw [Prog.run_bind_ok ((Prog.run_lift _ _).trans
                              (congrArg (·, disk2) hreload))] at h
                            cases h
  · intro h
    cases h with
    | write h => rw [Prog.run_bind_error h]
    | policy hwrite hfails he =>
        rw [Prog.run_bind_ok hwrite, if_pos hfails, Prog.run_bind_error (Prog.run_raise _ _), he]
    | unlink hwrite hpolicy h =>
        rw [Prog.run_bind_ok hwrite, if_neg (by simp [hpolicy]),
          Prog.run_bind_ok (Prog.run_pure _ _), Prog.run_bind_error h]
    | reload hwrite hpolicy hunlink h =>
        rw [Prog.run_bind_ok hwrite, if_neg (by simp [hpolicy]),
          Prog.run_bind_ok (Prog.run_pure _ _), Prog.run_bind_ok hunlink]
        exact Prog.run_bind_error (congrArg (·, disk') h)

/-- The path has a name `apply` deletes when it does not write it. -/
def Managed (paths : ResolvedPaths) (p : PosixPath) : Prop :=
  ∃ m ∈ managedPaths paths, p.parent = m.1 ∧ p ≠ m.1 ∧ isManaged p.name m.2 = true

instance (paths : ResolvedPaths) (p : PosixPath) : Decidable (Managed paths p) :=
  inferInstanceAs (Decidable (∃ m ∈ managedPaths paths, _))

/-- A stale file has a managed name, is there and is not expected. -/
theorem mem_staleFiles {expected : List PosixPath} {paths : ResolvedPaths} {disk : Disk}
    {p : PosixPath} :
    p ∈ staleFiles expected paths disk ↔
      Managed paths p ∧ (disk.read p).isSome ∧ p ∉ expected := by
  simp only [staleFiles, staleIn, List.mem_flatMap, List.mem_filter, Disk.mem_iterdir,
    Bool.and_eq_true, Bool.not_eq_true', List.contains_eq_mem, decide_eq_false_iff_not, Managed]
  constructor
  · rintro ⟨m, hm, ⟨hread, hparent, hne⟩, hname, hexp⟩
    exact ⟨⟨m, hm, hparent, hne, hname⟩, hread, hexp⟩
  · rintro ⟨⟨m, hm, hparent, hne, hname⟩, hread, hexp⟩
    exact ⟨m, hm, ⟨hread, hparent, hne⟩, hname, hexp⟩

/-- Managed names end as their patterns do. -/
theorem getLast?_of_isManaged {name : Str} {patterns : List (Str × Str)}
    (hpatterns : ∀ m ∈ patterns, m.2 ≠ []) (h : isManaged name patterns = true) :
    name.getLast? ∈ patterns.map fun m => m.2.getLast? := by
  obtain ⟨m, hm, hname⟩ := List.any_eq_true.mp h
  rw [Bool.and_eq_true, endsWith, List.isSuffixOf_iff_suffix] at hname
  obtain ⟨pre, hpre⟩ := hname.2
  refine List.mem_map.mpr ⟨m, hm, ?_⟩
  rw [← hpre, List.getLast?_append_of_ne_nil _ (hpatterns m hm)]

/-- No file is stale twice. -/
theorem nodup_staleFiles (expected : List PosixPath) (paths : ResolvedPaths) (disk : Disk) :
    (staleFiles expected paths disk).Nodup := by
  -- the names of two managed directories end in different letters
  have hapart : ∀ (dir dir' : PosixPath) (names names' : List (Str × Str)),
      (∀ x ∈ names, x.2 ≠ []) → (∀ x ∈ names', x.2 ≠ []) →
      (∀ x ∈ names, ∀ x' ∈ names', x.2.getLast? ≠ x'.2.getLast?) →
      (staleIn expected disk (dir, names)).Disjoint (staleIn expected disk (dir', names')) := by
    intro dir dir' names names' hnames hnames' hends p hp hp'
    rw [staleIn, List.mem_filter, Bool.and_eq_true] at hp hp'
    obtain ⟨x, hx, hlast⟩ := List.mem_map.mp (getLast?_of_isManaged hnames hp.2.1)
    obtain ⟨x', hx', hlast'⟩ := List.mem_map.mp (getLast?_of_isManaged hnames' hp'.2.1)
    exact hends x hx x' hx' (hlast.trans hlast'.symm)
  refine List.nodup_flatMap.mpr ⟨fun m _ => ?_, ?_⟩
  · exact ((List.nodup_dedup _).filter _).filter _
  · simp only [managedPaths, List.pairwise_cons, List.forall_mem_cons, Function.onFun]
    refine ⟨⟨?_, ?_, by simp⟩, ⟨?_, by simp⟩, by simp⟩
    · exact hapart _ _ _ _ (by decide) (by decide) (by decide)
    · exact hapart _ _ _ _ (by decide) (by decide) (by decide)
    · exact hapart _ _ _ _ (by decide) (by decide) (by decide)

section Plan

variable {env : ApplyEnv} {payload : JsonObject} {configPath : PosixPath} {disk disk' : Disk}
  {plan : ApplyPlan}

/-- A file to be written is not stale. -/
theorem notMem_stale (hplan : planApply env payload configPath disk = .ok plan) {p : PosixPath}
    (hmem : p ∈ plan.files.map FileSpec.path) : p ∉ plan.stale := by
  rw [(planApply_ok hplan).2.2.2.1, mem_staleFiles]
  exact fun h => h.2.2 hmem

/-- A call that gets through deletes every stale file. -/
theorem deleted_eq (hplan : planApply env payload configPath disk = .ok plan)
    {deleted : List PosixPath}
    (hunlink : (unlinkFiles env.unlinkFails 0 plan.stale).run
      (disk.writeAll (writesOf plan.files)) = (.ok deleted, disk')) : deleted = plan.stale := by
  have hstale := (planApply_ok hplan).2.2.2.1
  refine unlinkFiles_all ?_ (fun p hp => ?_) hunlink
  · rw [hstale]
    exact nodup_staleFiles _ _ _
  · have hnot : p ∉ (writesOf plan.files).map Prod.fst := by
      rw [map_fst_writesOf]
      exact fun hmem => notMem_stale hplan hmem hp
    rw [Disk.read_writeAll_of_notMem hnot]
    rw [hstale, mem_staleFiles] at hp
    exact hp.2.1

/-- The changed paths are those of the files that differ. -/
theorem changedPaths_diffs {fails : Nat → Bool} {i : Nat} {files : List FileSpec}
    {diffs : List ApplyDiff} (h : diffAll fails disk i files = .ok diffs) :
    changedPaths diffs = (differing disk files).map FileSpec.path := by
  induction files generalizing i diffs with
  | nil =>
      cases h
      rfl
  | cons f fs ih =>
      unfold diffAll at h
      split at h
      · cases h
      · simp only [Prog.bind_eq_ok] at h
        obtain ⟨d, hd, ds, hds, h⟩ := h
        cases h
        have hrest := ih hds
        unfold changedPaths differing at hrest ⊢
        obtain ⟨hpath, ⟨ha, hnone⟩ | ⟨ha, s, hs, hsame⟩ | ⟨ha, s, hs, hother⟩⟩ := diffOf_ok hd
        · simp [ha, hnone, hpath, hrest]
        · simp [ha, hs, Content.readText, hsame, hrest]
        · simp [ha, hs, Content.readText, hother, hpath, hrest]

theorem changedPaths_plan (hplan : planApply env payload configPath disk = .ok plan) :
    changedPaths plan.diffs = (differing disk plan.files).map FileSpec.path := by
  obtain ⟨-, -, -, -, diffs, hdiffs, hall⟩ := planApply_ok hplan
  have hstale : changedPaths (plan.stale.map fun p => ⟨p, .delete⟩) = [] := by
    rw [changedPaths, List.map_eq_nil_iff, List.filter_eq_nil_iff]
    intro d hd
    obtain ⟨p, -, rfl⟩ := List.mem_map.mp hd
    simp
  rw [← changedPaths_diffs hdiffs, hall]
  unfold changedPaths at hstale ⊢
  rw [List.filter_append, List.map_append, hstale, List.append_nil]

/-- What a call finds to be touched: the files that differ and the stale ones. -/
theorem mem_touchedPaths (hplan : planApply env payload configPath disk = .ok plan)
    {p : PosixPath} :
    p ∈ touchedPaths plan.diffs plan.stale ↔
      p ∈ (differing disk plan.files).map FileSpec.path ++ plan.stale := by
  rw [touchedPaths, List.mem_insertionSort, List.mem_dedup, changedPaths_plan hplan]

end Plan

/-- What a call that returned has written. -/
theorem apply_written {env : ApplyEnv} {cached : PullResult} {configPath : PosixPath}
    {noReload : Bool} {policy : ReloadPolicy} {disk disk' : Disk} {r : ApplyResult}
    (h : (apply env (some cached) configPath false noReload policy).run disk = (.ok r, disk')) :
    ∃ plan, planApply env cached.payload configPath disk = .ok plan ∧
      r.written = plan.files.map FileSpec.path ∧
      ∀ p ∈ r.written, disk'.read p = (disk.writeAll (writesOf plan.files)).read p := by
  cases hplan : planApply env cached.payload configPath disk with
  | error e =>
      rw [run_apply_of_error hplan] at h
      cases h
  | ok plan =>
      rw [run_apply_of_plan hplan] at h
      obtain ⟨-, -, hwritten, hread, -⟩ := execute_ok h
      refine ⟨plan, rfl, hwritten, fun p hp => ?_⟩
      rw [hwritten] at hp
      rw [hread, if_neg (notMem_stale hplan hp)]

/-- **Changes are seen**: a file whose content a call changed is among the paths
it reloads for, unless the file differed in line ends alone. -/
theorem mem_touched_of_changed {env : ApplyEnv} {payload : JsonObject} {configPath : PosixPath}
    {disk disk' : Disk} {plan : ApplyPlan}
    (hplan : planApply env payload configPath disk = .ok plan)
    (hlines : ∀ f ∈ plan.files, ∀ s, disk.read f.path = some (.text s) →
      universalNewlines s = f.content → s = f.content)
    (hread : ∀ p, disk'.read p = if p ∈ plan.stale then none
      else (disk.writeAll (writesOf plan.files)).read p)
    {p : PosixPath} (hchanged : disk'.read p ≠ disk.read p) :
    p ∈ touchedPaths plan.diffs plan.stale := by
  obtain ⟨-, -, -, -, diffs, hdiffs, -⟩ := planApply_ok hplan
  rw [mem_touchedPaths hplan, List.mem_append]
  by_cases hmem : p ∈ plan.files.map FileSpec.path
  · -- the file that was written last decides
    left
    obtain ⟨s, hs, hlast⟩ := @Disk.read_writeAll_isSome disk p (writesOf plan.files)
      (by rwa [map_fst_writesOf])
    obtain ⟨f, hf, hpath, hcontent⟩ := mem_writesOf.mp hs
    rw [hread, if_neg (notMem_stale hplan hmem), hlast, ← hpath, ← hcontent] at hchanged
    refine List.mem_map.mpr ⟨f, List.mem_filter.mpr ⟨hf, ?_⟩, hpath⟩
    rw [bne_iff_ne]
    intro hsame
    obtain ⟨c, hc, htext⟩ := Option.bind_eq_some_iff.mp hsame
    cases c with
    | bytes b => cases htext
    | text t =>
        rw [Content.readText, Option.some.injEq] at htext
        rw [hc, hlines f hf t hc htext] at hchanged
        exact hchanged rfl
  · -- not written: only a deletion changes it
    right
    have hsame : (disk.writeAll (writesOf plan.files)).read p = disk.read p :=
      Disk.read_writeAll_of_notMem (by rwa [map_fst_writesOf])
    by_contra hst
    rw [hread, if_neg hst, hsame] at hchanged
    exact hchanged rfl

/-! ## reloading -/

section Reload

variable {resolve : PosixPath → Except PyError PosixPath}
  {p dir networkdDir birdPeersDir : PosixPath}
  {touched birdFiles : List PosixPath}

/-- A file is really in the directory it is named in. -/
def ReallyIn (resolve : PosixPath → Except PyError PosixPath) (dir p : PosixPath) : Prop :=
  ∃ q d, resolve p = .ok q ∧ resolve dir = .ok d ∧ q.parent = d

theorem under_of_resolve {q d : PosixPath} (hp : resolve p = .ok q) (hdir : resolve dir = .ok d) :
    under resolve p dir = .ok (q.parent == d) := by
  rw [under, hp, hdir]
  rfl

theorem under_of_reallyIn (h : ReallyIn resolve dir p) : under resolve p dir = .ok true := by
  obtain ⟨q, d, hq, hd, hparent⟩ := h
  rw [under_of_resolve hq hd, hparent, beq_self_eq_true]

/-- `_under` lets out what `resolve` raises, unless it is an `OSError`. -/
theorem under_eq_error {e : PyError} : under resolve p dir = .error e ↔
    (resolve p = .error e ∨ ∃ q, resolve p = .ok q ∧ resolve dir = .error e) ∧
      e.cls ≠ .osError := by
  have hcaught : ∀ e', (if e'.cls = .osError then pure (p.parent == dir) else throw e' :
      Except PyError Bool) = .error e ↔ e' = e ∧ e.cls ≠ .osError := by
    intro e'
    constructor
    · intro h
      split at h
      · cases h
      · next hcls =>
          cases h
          exact ⟨rfl, hcls⟩
    · rintro ⟨rfl, hcls⟩
      exact if_neg hcls
  cases hp : resolve p with
  | error e' =>
      rw [under, hp]
      exact (hcaught e').trans (by simp)
  | ok q =>
      cases hd : resolve dir with
      | error e' =>
          rw [under, hp, hd]
          exact (hcaught e').trans (by simp)
      | ok d =>
          rw [under_of_resolve hp hd]
          simp

/-- A file of BIRD's own, as it is looked for among the touched paths. -/
def birdTarget (resolve : PosixPath → Except PyError PosixPath) (f : PosixPath) :
    Except PyError PosixPath := if f.isAbsolute then resolve f else pure f

theorem mem_birdTargets {targets : List PosixPath}
    (h : birdTargets resolve birdFiles = .ok targets) :
    p ∈ targets ↔ ∃ f ∈ birdFiles, birdTarget resolve f = .ok p := by
  rw [birdTargets] at h
  exact Except.mem_of_mapM_ok h

/-- The commands of two decisions. -/
theorem mem_commands (a b : Bool) :
    let cmds := (if a then [ReloadCommand.networkctlReload] else []) ++
      (if b then [.birdcConfigure] else [])
    (.networkctlReload ∈ cmds ↔ a = true) ∧ (.birdcConfigure ∈ cmds ↔ b = true) ∧
      cmds.Sublist [.networkctlReload, .birdcConfigure] := by
  cases a <;> cases b <;> simp

/-- What a plan holds. -/
theorem planReloads_ok {cmds : List ReloadCommand}
    (h : planReloads resolve touched networkdDir birdPeersDir birdFiles = .ok cmds) :
    (.networkctlReload ∈ cmds ↔ ∃ p ∈ touched, under resolve p networkdDir = .ok true) ∧
      (.birdcConfigure ∈ cmds ↔ ∃ p ∈ touched, under resolve p birdPeersDir = .ok true ∨
        (∃ found, under resolve p birdPeersDir = .ok found) ∧
          ∃ f ∈ birdFiles, birdTarget resolve f = .ok p) ∧
      cmds.Sublist [.networkctlReload, .birdcConfigure] := by
  unfold planReloads at h
  simp only [Prog.bind_eq_ok] at h
  obtain ⟨networkctl, hnetworkctl, targets, htargets, birdc, hbirdc, h⟩ := h
  cases h
  obtain ⟨hcmd, hcmd', hsublist⟩ := mem_commands networkctl birdc
  refine ⟨hcmd.trans (Except.anyM_ok hnetworkctl), ?_, hsublist⟩
  rw [hcmd', Except.anyM_ok hbirdc]
  apply exists_congr
  intro p
  apply and_congr_right
  intro _
  rw [← mem_birdTargets htargets]
  cases hunder : under resolve p birdPeersDir with
  | error e =>
      constructor
      · intro h
        cases h
      · rintro (h | ⟨⟨_, h⟩, _⟩)
        · cases h
        · cases h
  | ok found =>
      have hbind : (Except.ok found >>= fun below => pure (below || targets.contains p) :
          Except PyError Bool) = .ok (found || targets.contains p) := rfl
      rw [hbind]
      simp

/-- A plan has resolved the absolute paths of BIRD's own files. -/
theorem resolve_of_planned {cmds : List ReloadCommand}
    (h : planReloads resolve touched networkdDir birdPeersDir birdFiles = .ok cmds)
    {f : PosixPath} (hf : f ∈ birdFiles) (habs : f.isAbsolute = true) :
    ∃ q, resolve f = .ok q := by
  unfold planReloads birdTargets at h
  simp only [Prog.bind_eq_ok] at h
  obtain ⟨-, -, targets, htargets, -⟩ := h
  obtain ⟨q, hq⟩ := Except.ok_of_mapM_ok htargets hf
  rw [if_pos habs] at hq
  exact ⟨q, hq⟩

/-- A plan has looked at the first touched path. -/
theorem under_of_planned {cmds : List ReloadCommand}
    (h : planReloads resolve (p :: touched) networkdDir birdPeersDir birdFiles = .ok cmds)
    (hdir : dir ∈ [networkdDir, birdPeersDir]) : ∃ found, under resolve p dir = .ok found := by
  unfold planReloads at h
  simp only [List.anyM_cons, Prog.bind_eq_ok] at h
  obtain ⟨_, ⟨found, hfound, -⟩, _, -, _, ⟨_, ⟨found', hfound', -⟩, -⟩, -⟩ := h
  obtain rfl | rfl := List.mem_pair.mp hdir
  · exact ⟨found, hfound⟩
  · exact ⟨found', hfound'⟩

/-- What planning lets out. -/
theorem planReloads_error {e : PyError}
    (h : planReloads resolve touched networkdDir birdPeersDir birdFiles = .error e) :
    (∃ p ∈ touched, ∃ dir ∈ [networkdDir, birdPeersDir],
      (resolve p = .error e ∨ ∃ q, resolve p = .ok q ∧ resolve dir = .error e) ∧
        e.cls ≠ .osError) ∨
      ∃ f ∈ birdFiles, f.isAbsolute = true ∧ resolve f = .error e := by
  unfold planReloads at h
  rw [Except.bind_eq_error] at h
  obtain h | ⟨networkctl, -, h⟩ := h
  · obtain ⟨p, hp, hunder⟩ := Except.anyM_error h
    exact .inl ⟨p, hp, networkdDir, by simp, under_eq_error.mp hunder⟩
  · rw [Except.bind_eq_error] at h
    obtain h | ⟨targets, -, h⟩ := h
    · obtain ⟨f, hf, htarget⟩ := Except.mapM_error h
      split at htarget
      · next habs => exact .inr ⟨f, hf, habs, htarget⟩
      · cases htarget
    · rw [Except.bind_eq_error] at h
      obtain h | ⟨birdc, -, h⟩ := h
      · obtain ⟨p, hp, hfound⟩ := Except.anyM_error h
        rw [Except.bind_eq_error] at hfound
        obtain hunder | ⟨_, -, h⟩ := hfound
        · exact .inl ⟨p, hp, birdPeersDir, by simp, under_eq_error.mp hunder⟩
        · cases h
      · cases h

/-- Where nothing was touched, no command is run. -/
theorem reloadStep_nil {env : ApplyEnv} {paths : ResolvedPaths} {noReload : Bool}
    {policy : ReloadPolicy} {actions : List ReloadAction}
    (h : reloadStep env paths noReload policy [] = .ok actions) : actions = [] := by
  rw [reloadStep] at h
  split at h
  · cases h
    rfl
  · rw [reload, Prog.bind_eq_ok] at h
    obtain ⟨cmds, hplan, hrun⟩ := h
    unfold planReloads at hplan
    simp only [Prog.bind_eq_ok] at hplan
    obtain ⟨networkctl, hnetworkctl, targets, -, birdc, hbirdc, hcmds⟩ := hplan
    cases hnetworkctl
    cases hbirdc
    cases hcmds
    cases hrun
    rfl

end Reload

end Dn42Ctl
