import Dn42Ctl.MigrationScripts

/-!
# MigrationRuns

`migrate`, cut short after any of its statements and run again.

Running it again leads where the uninterrupted run would have led, whatever the
rows (`Script.resume_migrate`).  That it leads anywhere depends on the rows at one
place: the unique index of version 13 needs at most one row with `is_self = 1`.
-/

namespace Dn42Ctl

namespace Migrations

open Script Sqlite

/-! ## what a script needs -/

/-- The tables a script needs are there, or it makes them; no unique index. -/
def fits : List TableName → List Stmt → Bool
  | _, [] => true
  | ns, .pragmaForeignKeys :: ss => fits ns ss
  | ns, .createTable t _ :: ss => fits (t :: ns) ss
  | ns, .createIndex i :: ss => ns.contains i.table && i.uniqueWhere.isNone && fits ns ss
  | ns, .update t .. :: ss => ns.contains t && fits ns ss
  | ns, .ensureColumn t _ :: ss => ns.contains t && fits ns ss

/-- A statement on tables that are there runs. -/
theorem run_of_fits {ns : List TableName} {script : List Stmt} (hfits : fits ns script = true)
    {d : Sqlite} (hns : ∀ t ∈ ns, d.has t = true) :
    ∃ d', run (script.map Stmt.run) d = some d' := by
  induction script generalizing ns d with
  | nil => exact ⟨d, rfl⟩
  | cons s ss ih =>
      have hstep : ∀ {d1 ns'}, s.run d = some d1 → fits ns' ss = true →
          (∀ t ∈ ns', d1.has t = true) → ∃ d', run ((s :: ss).map Stmt.run) d = some d' := by
        intro d1 ns' h1 hfits' hns'
        obtain ⟨d', hd'⟩ := ih hfits' hns'
        exact ⟨d', by rw [List.map_cons, run, h1]; exact hd'⟩
      have hgrown : ∀ {d1}, s.run d = some d1 → ∀ t ∈ ns, d1.has t = true :=
        fun h1 t ht => (grows_run h1).has (hns t ht)
      cases s with
      | pragmaForeignKeys => exact hstep rfl hfits hns
      | createTable t tableDef =>
          refine hstep rfl hfits fun k hk => ?_
          rw [has_createTable]
          rcases List.mem_cons.mp hk with rfl | hk
          · simp
          · simp [hns k hk]
      | createIndex i =>
          rw [fits, Bool.and_eq_true, Bool.and_eq_true, List.contains_iff_mem] at hfits
          obtain ⟨⟨htable, hplain⟩, hfits⟩ := hfits
          have hadmits : i.admits (d.rowsOf i.table) = true := by
            rw [Index.admits, Option.isNone_iff_eq_none.mp hplain]
          have hrun : ∃ d1, (Stmt.createIndex i).run d = some d1 := by
            rw [Stmt.run, hns _ htable, hadmits]
            split
            · exact ⟨_, rfl⟩
            · exact ⟨_, rfl⟩
          obtain ⟨d1, h1⟩ := hrun
          exact hstep h1 hfits (hgrown h1)
      | update t c v cond =>
          rw [fits, Bool.and_eq_true, List.contains_iff_mem] at hfits
          have hrun : ∃ d1, (Stmt.update t c v cond).run d = some d1 :=
            ⟨_, by rw [Stmt.run, if_pos (hns t hfits.1)]⟩
          obtain ⟨d1, h1⟩ := hrun
          exact hstep h1 hfits.2 (hgrown h1)
      | ensureColumn t c =>
          rw [fits, Bool.and_eq_true, List.contains_iff_mem] at hfits
          obtain ⟨x, hx⟩ := Option.isSome_iff_exists.mp (hns t hfits.1)
          have hrun : ∃ d1, (Stmt.ensureColumn t c).run d = some d1 := by
            rw [Stmt.run, hx]
            dsimp only
            split
            · exact ⟨_, rfl⟩
            · exact ⟨_, rfl⟩
          obtain ⟨d1, h1⟩ := hrun
          exact hstep h1 hfits.2 (hgrown h1)

/-! ## what a script leaves of the self rows -/

/-- `node_id` and `updated_at` of the rows with `is_self = 1`. -/
def selfs (d : Sqlite) : List (Value × Value) := selfPairs (d.rowsOf .managedNodes)

/-- The columns they are read from. -/
def selfColumns : List ColumnName := [.nodeId, .isSelf, .updatedAt]

/-- A statement that leaves them alone. -/
def Stmt.quiet : Stmt → Bool
  | .update t c _ _ => t != .managedNodes || !selfColumns.contains c
  | .ensureColumn t c => t != .managedNodes || !selfColumns.contains c.name
  | _ => true

/-- A row map that leaves the self columns alone leaves the self rows. -/
theorem selfPairs_map {f : Row → Row} {rows : List Row}
    (h : ∀ r ∈ rows, ∀ c ∈ selfColumns, (f r).get c = r.get c) :
    selfPairs (rows.map f) = selfPairs rows := by
  have hself : rows.filter (isSelf ∘ f) = rows.filter isSelf := by
    refine List.filter_congr fun r hr => ?_
    rw [Function.comp_apply, isSelf, isSelf, h r hr .isSelf (by decide)]
  rw [selfPairs, List.filter_map, List.map_map, hself, selfPairs]
  refine List.map_congr_left fun r hr => ?_
  have hr := List.mem_of_mem_filter hr
  rw [Function.comp_apply, h r hr .nodeId (by decide), h r hr .updatedAt (by decide)]

/-- What an UPDATE leaves in its table. -/
theorem rowsOf_update {t : TableName} {c : ColumnName} {v : Value} {cond : List Row → Row → Bool}
    {d d' : Sqlite} (h : (Stmt.update t c v cond).run d = some d') :
    d'.rowsOf t = updateRows c v cond (d.rowsOf t) := by
  rw [Stmt.run] at h
  split at h
  · rename_i ht
    rw [Option.some.injEq] at h
    obtain ⟨x, hx⟩ := Option.isSome_iff_exists.mp ht
    have hrows : d.rowsOf t = x.rows := by
      rw [rowsOf, hx]
      rfl
    rw [← h, rowsOf_modify hx, hrows]
    exact fun _ => rfl
  · cases h

/-- A quiet statement changes no self row. -/
theorem selfs_quiet {s : Stmt} (hs : s.quiet = true) {d d' : Sqlite} (h : s.run d = some d') :
    selfs d' = selfs d := by
  by_cases hw : s.writes = some .managedNodes
  · cases s with
    | pragmaForeignKeys => cases hw
    | createTable t tableDef => cases hw
    | createIndex i => cases hw
    | update t c v cond =>
        obtain rfl : t = .managedNodes := Option.some.inj hw
        have hc : c ∉ selfColumns := by simpa [Stmt.quiet] using hs
        rw [selfs, rowsOf_update h, updateRows]
        refine selfPairs_map fun r _ k hk => ?_
        have hkc : k ≠ c := fun hkc => hc (hkc ▸ hk)
        split
        · exact Row.get_set_other hkc v r
        · rfl
    | ensureColumn t c =>
        obtain rfl : t = .managedNodes := Option.some.inj hw
        have hc : c.name ∉ selfColumns := by simpa [Stmt.quiet] using hs
        rw [Stmt.run] at h
        split at h
        · cases h
        · rename_i x hx
          split at h
          · rw [Option.some.injEq] at h
            rw [h]
          · rw [Option.some.injEq] at h
            have hrows : d.rowsOf .managedNodes = x.rows := by
              rw [rowsOf, hx]
              rfl
            rw [selfs, selfs, ← h, rowsOf_modify hx, hrows]
            · refine selfPairs_map fun r _ k hk => ?_
              have hkc : k ≠ c.name := fun hkc => hc (hkc ▸ hk)
              exact Row.get_append hkc _ r
            · exact fun _ => rfl
  · rw [selfs, rowsOf_run h hw]
    rfl

/-! ## the migrations one by one -/

def initialTables : List TableName :=
  [.schemaMigrations, .nodes, .bgpPeers, .ibgpPeers, .managedNodes, .configProposals,
    .nodeReports, .configRevisions, .nodeDesiredPin]

/-- The migrations `ms` are not done, and the tables of the first one are there. -/
structure Pending (ms : List (Int × List Stmt)) (d : Sqlite) : Prop where
  tables : ∀ t ∈ initialTables, d.has t = true
  fresh : ∀ m ∈ ms, m.1 ∉ applied d
  distinct : (ms.map Prod.fst).Nodup
  known : ms ⊆ migrations

/-- They run, and leave at most one self row. -/
def Finishes (ms : List (Int × List Stmt)) (d : Sqlite) : Prop :=
  ∃ f, run (ledger.statements (ms.map toStep)) d = some f ∧ (selfs f).length ≤ 1

/-- The steps of a ledger run one after another. -/
theorem run_cons {m : Int × List Stmt} {ms : List (Int × List Stmt)} {d d1 f : Sqlite}
    (h1 : run (ledger.block (toStep m)) d = some d1)
    (hf : run (ledger.statements (ms.map toStep)) d1 = some f) :
    run (ledger.statements ((m :: ms).map toStep)) d = some f := by
  rw [List.map_cons, Ledger.statements, List.flatMap_cons, run_append, h1]
  exact hf

/-- A script that runs is recorded. -/
theorem block_of_script {m : Int × List Stmt} {d d1 : Sqlite} (hm : m ∈ migrations)
    (hmig : d.has .schemaMigrations = true) (hnew : m.1 ∉ applied d)
    (h : run (m.2.map Stmt.run) d = some d1) :
    ∃ d2, run (ledger.block (toStep m)) d = some d2 ∧ applied d2 = applied d ++ [m.1] ∧
      Grows d1 d2 ∧ selfs d2 = selfs d1 := by
  have hinv : applied d1 = applied d ∧ d1.has .schemaMigrations = true := by
    refine run_invariant (P := fun w => applied w = applied d ∧ w.has .schemaMigrations = true)
      (fun f hf w w' hw hfw => ?_) ⟨rfl, hmig⟩ h
    refine ⟨(lawful.keeps (toStep m) (List.mem_map_of_mem hm) f hf w w' hfw).trans hw.1, ?_⟩
    obtain ⟨s, -, rfl⟩ := List.mem_map.mp hf
    exact (grows_run hfw).has hw.2
  have hmark : ∃ d2, insertVersion m.1 d1 = some d2 := by
    rw [insertVersion, hinv.2, hinv.1]
    simp [hnew]
  obtain ⟨d2, h2⟩ := hmark
  refine ⟨d2, ?_, ?_, grows_insertVersion h2, ?_⟩
  · show run (m.2.map Stmt.run ++ [insertVersion m.1]) d = some d2
    rw [run_append, h, Option.bind_some, run, h2]
    rfl
  · rw [applied_insertVersion h2, hinv.1]
  · obtain ⟨-, -, rfl⟩ := insertVersion_eq_some h2
    rw [selfs, rowsOf_modify_other (by decide)]
    · rfl
    · exact fun _ => rfl

/-- No script drops a table. -/
theorem grows_script {script : List Stmt} {d d1 : Sqlite}
    (h : run (script.map Stmt.run) d = some d1) {t : TableName} (ht : d.has t = true) :
    d1.has t = true := by
  refine run_invariant (P := fun w => w.has t = true) (fun f hf w w' hw hfw => ?_) ht h
  obtain ⟨s, -, rfl⟩ := List.mem_map.mp hf
  exact (grows_run hfw).has hw

/-- One migration, when its script runs. -/
theorem finishes_cons {m : Int × List Stmt} {ms : List (Int × List Stmt)} {d d1 : Sqlite}
    (hp : Pending (m :: ms) d) (h : run (m.2.map Stmt.run) d = some d1)
    (hrest : ∀ d2, Pending ms d2 → selfs d2 = selfs d1 → Finishes ms d2) :
    Finishes (m :: ms) d := by
  have hm := hp.known (List.mem_cons_self ..)
  obtain ⟨d2, h2, happlied, hgrows, hselfs⟩ := block_of_script hm
    (hp.tables _ (by decide)) (hp.fresh m (List.mem_cons_self ..)) h
  have hpending : Pending ms d2 := by
    refine ⟨fun t ht => hgrows.has (grows_script h (hp.tables t ht)), fun k hk hmem => ?_,
      (List.nodup_cons.mp hp.distinct).2, fun k hk => hp.known (List.mem_cons_of_mem _ hk)⟩
    rw [happlied] at hmem
    rcases List.mem_append.mp hmem with hmem | hmem
    · exact hp.fresh k (List.mem_cons_of_mem _ hk) hmem
    · refine (List.nodup_cons.mp hp.distinct).1 (List.mem_map.mpr ⟨k, hk, ?_⟩)
      exact List.mem_singleton.mp hmem
  obtain ⟨f, hf, hlen⟩ := hrest d2 hpending hselfs
  exact ⟨f, run_cons h2 hf, hlen⟩

/-- One migration whose script leaves the self rows alone. -/
theorem finishes_quiet {m : Int × List Stmt} {ms : List (Int × List Stmt)} {d : Sqlite}
    (hp : Pending (m :: ms) d) (hfits : fits initialTables m.2 = true)
    (hquiet : (m.2.all Stmt.quiet) = true)
    (hrest : ∀ d2, Pending ms d2 → selfs d2 = selfs d → Finishes ms d2) :
    Finishes (m :: ms) d := by
  obtain ⟨d1, h1⟩ := run_of_fits hfits hp.tables
  have hselfs : selfs d1 = selfs d := by
    refine run_invariant (P := fun w => selfs w = selfs d) (fun f hf w w' hw hfw => ?_) rfl h1
    obtain ⟨s, hs, rfl⟩ := List.mem_map.mp hf
    exact (selfs_quiet (List.all_eq_true.mp hquiet s hs) hfw).trans hw
  exact finishes_cons hp h1 fun d2 hp2 h2 => hrest d2 hp2 (h2.trans hselfs)

/-- The partial unique index admits a table exactly when it has one self row at most. -/
theorem admits_singleSelf {d : Sqlite} :
    singleSelfIndex.admits (d.rowsOf .managedNodes) = true ↔ (selfs d).length ≤ 1 := by
  have hcells : ((d.rowsOf .managedNodes).filter fun r => r.get .isSelf = .integer 1).map
      (fun r => [r.get .isSelf]) = List.replicate (selfs d).length [.integer 1] := by
    rw [List.eq_replicate_iff]
    refine ⟨by rw [selfs, selfPairs, List.length_map, List.length_map]; rfl, fun cells hc => ?_⟩
    obtain ⟨r, hr, rfl⟩ := List.mem_map.mp hc
    have hone : r.get .isSelf = .integer 1 := by simpa using List.of_mem_filter hr
    rw [hone]
  show decide (List.Nodup (List.filter _ (List.map (fun r : Row => [r.get .isSelf]) _))) = true ↔ _
  rw [hcells, List.filter_eq_self.mpr fun cells hc => ?_, decide_eq_true_eq, List.nodup_replicate]
  rw [List.eq_of_mem_replicate hc]
  rfl

/-- The merge of version 12 leaves one self row. -/
def CanMerge (d : Sqlite) : Prop :=
  (selfs d).length ≤ 1 ∨ (∀ p ∈ selfs d, p.1 ≠ .null) ∧ ((selfs d).map Prod.fst).Nodup

theorem finishes14 {d : Sqlite} (hp : Pending (migrations.drop 7) d) (h : (selfs d).length ≤ 1) :
    Finishes (migrations.drop 7) d :=
  finishes_quiet hp rfl rfl fun d2 _ h2 => ⟨d2, rfl, h2 ▸ h⟩

theorem finishes13 {d : Sqlite} (hp : Pending (migrations.drop 6) d) (h : (selfs d).length ≤ 1) :
    Finishes (migrations.drop 6) d := by
  have hrun : ∃ d1, (Stmt.createIndex singleSelfIndex).run d = some d1 ∧ selfs d1 = selfs d := by
    rw [Stmt.run]
    split
    · exact ⟨d, rfl, rfl⟩
    · have htable : d.has singleSelfIndex.table = true := hp.tables .managedNodes (by decide)
      have hadmits : singleSelfIndex.admits (d.rowsOf singleSelfIndex.table) = true :=
        admits_singleSelf.mpr h
      rw [htable, hadmits, if_neg (by simp), if_pos rfl]
      exact ⟨_, rfl, rfl⟩
  obtain ⟨d1, h1, hselfs⟩ := hrun
  have hscript : run (singleSelfScript.map Stmt.run) d = some d1 := by
    rw [singleSelfScript, List.map_cons, run, h1]
    rfl
  exact finishes_cons hp hscript fun d2 hp2 h2 => finishes14 hp2 (by rw [h2, hselfs]; exact h)

theorem finishes12 {d : Sqlite} (hp : Pending (migrations.drop 5) d) (h : CanMerge d) :
    Finishes (migrations.drop 5) d := by
  have hscript : ∃ d1, run (mergeSelfScript.map Stmt.run) d = some d1 :=
    @run_of_fits initialTables _ rfl _ hp.tables
  obtain ⟨d1, h1⟩ := hscript
  have hselfs : selfs d1 = keepSelf (selfs d) := by
    obtain ⟨d1', hs, hnil⟩ := Option.bind_eq_some_iff.mp h1
    obtain rfl : d1' = d1 := Option.some.inj hnil
    rw [selfs, rowsOf_update hs]
    exact selfPairs_mergeSelf _
  refine finishes_cons hp h1 fun d2 hp2 h2 => finishes13 hp2 ?_
  rw [h2, hselfs]
  exact length_keepSelf h

theorem finishes11 {d : Sqlite} (hp : Pending (migrations.drop 4) d) (h : CanMerge d) :
    Finishes (migrations.drop 4) d :=
  finishes_quiet hp rfl rfl fun d2 hp2 h2 => finishes12 hp2 (by rw [CanMerge, h2]; exact h)

theorem finishes10 {d : Sqlite} (hp : Pending (migrations.drop 3) d) (h : CanMerge d) :
    Finishes (migrations.drop 3) d :=
  finishes_quiet hp rfl rfl fun d2 hp2 h2 => finishes11 hp2 (by rw [CanMerge, h2]; exact h)

theorem finishes9 {d : Sqlite} (hp : Pending (migrations.drop 2) d) (h : CanMerge d) :
    Finishes (migrations.drop 2) d :=
  finishes_quiet hp rfl rfl fun d2 hp2 h2 => finishes10 hp2 (by rw [CanMerge, h2]; exact h)

theorem finishes8 {d : Sqlite} (hp : Pending (migrations.drop 1) d) (h : CanMerge d) :
    Finishes (migrations.drop 1) d :=
  finishes_quiet hp rfl rfl fun d2 hp2 h2 => finishes9 hp2 (by rw [CanMerge, h2]; exact h)

/-- The first migration makes the tables of its own. -/
theorem finishes1 {d : Sqlite} (hmig : d.has .schemaMigrations = true)
    (hfresh : ∀ m ∈ migrations, m.1 ∉ applied d) (h : CanMerge d) : Finishes migrations d := by
  obtain ⟨d1, h1⟩ := @run_of_fits [] initialScript rfl d (by simp)
  have hdone := (@resumable_schema initialScript rfl).settled h1
  have hcreated : ∀ t ∈ initialTables, ∃ tableDef, .createTable t tableDef ∈ initialScript := by
    simp [initialTables, initialScript]
  have hselfs : selfs d1 = selfs d := by
    refine run_invariant (P := fun w => selfs w = selfs d) (fun f hf w w' hw hfw => ?_) rfl h1
    obtain ⟨s, hs, rfl⟩ := List.mem_map.mp hf
    have hquiet : initialScript.all Stmt.quiet = true := rfl
    exact (selfs_quiet (List.all_eq_true.mp hquiet s hs) hfw).trans hw
  obtain ⟨d2, h2, happlied, hgrows, hself2⟩ :=
    block_of_script (m := (1, initialScript)) (List.mem_cons_self ..) hmig
      (hfresh _ (List.mem_cons_self ..)) h1
  have hpending : Pending (migrations.drop 1) d2 := by
    refine ⟨fun t ht => hgrows.has ?_, fun m hm hmem => ?_, by decide,
      fun m hm => List.mem_of_mem_drop hm⟩
    · obtain ⟨tableDef, hs⟩ := hcreated t ht
      exact done_of_run (hdone _ (List.mem_map_of_mem hs))
    · rw [happlied] at hmem
      rcases List.mem_append.mp hmem with hmem | hmem
      · exact hfresh m (List.mem_of_mem_drop hm) hmem
      · have hdup : (1 : Int) ∉ (migrations.drop 1).map Prod.fst := by decide
        exact hdup (List.mem_map.mpr ⟨m, hm, List.mem_singleton.mp hmem⟩)
  obtain ⟨f, hf, hlen⟩ := finishes8 hpending (by rw [CanMerge, hself2, hselfs]; exact h)
  have hsplit : migrations = (1, initialScript) :: migrations.drop 1 := rfl
  rw [hsplit]
  exact ⟨f, run_cons h2 hf, hlen⟩

/-! ## databases with a prefix of the migrations -/

def Sqlite.schema (d : Sqlite) : List (TableName × TableDef) × List Index :=
  (d.tables.map fun t => (t.name, t.toTableDef), d.indexes)

/-- What the first `k` migrations make of an empty database. -/
def afterPrefix (k : Nat) : Sqlite :=
  (run (ledger.statements ((migrations.take k).map toStep)) {}).getD {}

/-- The first `k` migrations are done, and the rows are any that the schema
admits; of its constraints, those that matter are the primary key of
`managed_nodes` and the unique indexes. -/
structure Admits (k : Nat) (d : Sqlite) : Prop where
  isPrefix : k ≤ migrations.length
  schema : d.schema = (afterPrefix k).schema
  versions : applied d = (migrations.take k).map Prod.fst
  primaryKey : (((d.rowsOf .managedNodes).map (Row.get .nodeId)).filter (· ≠ .null)).Nodup
  indexed : ∀ i ∈ d.indexes, i.admits (d.rowsOf i.table) = true

/-- Where the unique index is still to be built, there is at most one self row,
or the merge is still to come and no self row lacks a `node_id`. -/
def SelfMergeable (d : Sqlite) : Prop :=
  13 ∈ applied d ∨ (selfs d).length ≤ 1 ∨ 12 ∉ applied d ∧ ∀ p ∈ selfs d, p.1 ≠ .null

/-- Which tables there are is a matter of the schema. -/
theorem has_of_schema {d d' : Sqlite} (h : d.schema = d'.schema) (t : TableName) :
    d.has t = d'.has t := by
  have heq : ∀ w : Sqlite, w.has t = w.schema.1.any fun x => x.1 = t := by
    intro w
    rw [has, table?, List.isSome_find?, schema, List.any_map]
    rfl
  rw [heq, heq, h]

/-- Every prefix of the migrations keeps the tables of the first one. -/
theorem has_initialTables :
    ∀ k ∈ [1, 2, 3, 4, 5, 6, 7, 8], ∀ t ∈ initialTables, (afterPrefix k).has t = true := by
  decide +kernel

/-- The index on the self row is there from migration 13 on. -/
theorem singleSelf_mem : ∀ k ∈ [7, 8], singleSelfIndex ∈ (afterPrefix k).indexes := by
  decide +kernel

/-- The merge goes through when the keys are distinct and the self rows named. -/
theorem canMerge_of {d : Sqlite}
    (hkey : (((d.rowsOf .managedNodes).map (Row.get .nodeId)).filter (· ≠ .null)).Nodup)
    (h : (selfs d).length ≤ 1 ∨ ∀ p ∈ selfs d, p.1 ≠ .null) : CanMerge d := by
  refine h.imp id fun hnull => ⟨hnull, ?_⟩
  have hids : (selfs d).map Prod.fst =
      ((d.rowsOf .managedNodes).filter isSelf).map (Row.get .nodeId) := by
    rw [selfs, selfPairs, List.map_map]
    rfl
  have hself : ((selfs d).map Prod.fst).filter (· ≠ .null) = (selfs d).map Prod.fst := by
    refine List.filter_eq_self.mpr fun v hv => ?_
    obtain ⟨p, hp, rfl⟩ := List.mem_map.mp hv
    simpa using hnull p hp
  rw [← hself, hids]
  exact hkey.sublist ((List.filter_sublist.map _).filter _)

/-- With one migration done, its tables are there. -/
theorem Admits.pending {k : Nat} {d : Sqlite} (hd : Admits k d) (hk : k ≠ 0) :
    Pending (migrations.drop k) (createMigrations d) := by
  have hlen : migrations.length = 8 := rfl
  have hprefix := hd.isPrefix
  have hmem : k ∈ [1, 2, 3, 4, 5, 6, 7, 8] := by
    simp only [List.mem_cons, List.not_mem_nil, or_false]
    omega
  have happlied : applied (createMigrations d) = (migrations.take k).map Prod.fst := by
    rw [← hd.versions]
    exact startsWith.applied d _ rfl
  have hdistinct : (migrations.map Prod.fst).Nodup := by decide
  refine ⟨fun t ht => ?_, fun m hm hmem => ?_, ?_, List.drop_subset ..⟩
  · refine (grows_createTable ..).has ?_
    rw [has_of_schema hd.schema]
    exact has_initialTables k hmem t ht
  · rw [happlied] at hmem
    -- the versions are distinct
    have hsplit : ((migrations.take k).map Prod.fst ++ (migrations.drop k).map Prod.fst).Nodup := by
      rw [← List.map_append, List.take_append_drop]
      exact hdistinct
    exact (List.nodup_append.mp hsplit).2.2 _ hmem _ (List.mem_map_of_mem hm) rfl
  · exact hdistinct.sublist ((List.drop_sublist ..).map _)

/-- What is left to do is the rest of the list. -/
theorem Admits.pending_eq {k : Nat} {d : Sqlite} (hd : Admits k d) :
    ledger.pending steps (createMigrations d) = (migrations.drop k).map toStep := by
  have happlied : applied (createMigrations d) = (migrations.take k).map Prod.fst := by
    rw [← hd.versions]
    exact startsWith.applied d _ rfl
  have hlen : migrations.length = 8 := rfl
  have hprefix := hd.isPrefix
  show steps.filter (fun step => decide (step.1 ∉ applied (createMigrations d))) = _
  rw [happlied]
  obtain rfl | rfl | rfl | rfl | rfl | rfl | rfl | rfl | rfl :
      k = 0 ∨ k = 1 ∨ k = 2 ∨ k = 3 ∨ k = 4 ∨ k = 5 ∨ k = 6 ∨ k = 7 ∨ k = 8 := by omega
  all_goals rfl

/-- Creating the ledger's table leaves the self rows. -/
theorem selfs_createMigrations (d : Sqlite) : selfs (createMigrations d) = selfs d := by
  rw [selfs, createMigrations, rowsOf_createTable]
  rfl

/-- The migrations that are left run to their end. -/
theorem Admits.finishes {k : Nat} {d : Sqlite} (hd : Admits k d) (hself : SelfMergeable d) :
    Finishes (migrations.drop k) (createMigrations d) := by
  have hlen : migrations.length = 8 := rfl
  have hprefix := hd.isPrefix
  have hselfs := selfs_createMigrations d
  -- before version 13 the rows decide, after it the index
  have hearly : (13 : Int) ∉ applied d → (12 : Int) ∉ applied d →
      CanMerge (createMigrations d) := by
    intro h13 _
    rw [CanMerge, hselfs]
    refine canMerge_of hd.primaryKey ?_
    rcases hself with h | h | h
    · exact absurd h h13
    · exact .inl h
    · exact .inr h.2
  have hmerged : (13 : Int) ∉ applied d → (12 : Int) ∈ applied d →
      (selfs (createMigrations d)).length ≤ 1 := by
    intro h13 h12
    rw [hselfs]
    rcases hself with h | h | h
    · exact absurd h h13
    · exact h
    · exact absurd h12 h.1
  have hindexed : k ∈ [7, 8] → (selfs (createMigrations d)).length ≤ 1 := by
    intro hk
    rw [hselfs]
    have hmem : singleSelfIndex ∈ d.indexes := by
      rw [show d.indexes = (afterPrefix k).indexes from congrArg Prod.snd hd.schema]
      exact singleSelf_mem k hk
    exact admits_singleSelf.mp (hd.indexed _ hmem)
  have hversions := hd.versions
  obtain rfl | rfl | rfl | rfl | rfl | rfl | rfl | rfl | rfl :
      k = 0 ∨ k = 1 ∨ k = 2 ∨ k = 3 ∨ k = 4 ∨ k = 5 ∨ k = 6 ∨ k = 7 ∨ k = 8 := by omega
  · refine finishes1 ?_ ?_ (hearly (by rw [hversions]; decide) (by rw [hversions]; decide))
    · rw [createMigrations, has_createTable]
      simp
    · intro m _
      rw [show applied (createMigrations d) = [] from (startsWith.applied d _ rfl).trans hversions]
      simp
  · exact finishes8 (hd.pending (by decide))
      (hearly (by rw [hversions]; decide) (by rw [hversions]; decide))
  · exact finishes9 (hd.pending (by decide))
      (hearly (by rw [hversions]; decide) (by rw [hversions]; decide))
  · exact finishes10 (hd.pending (by decide))
      (hearly (by rw [hversions]; decide) (by rw [hversions]; decide))
  · exact finishes11 (hd.pending (by decide))
      (hearly (by rw [hversions]; decide) (by rw [hversions]; decide))
  · exact finishes12 (hd.pending (by decide))
      (hearly (by rw [hversions]; decide) (by rw [hversions]; decide))
  · exact finishes13 (hd.pending (by decide))
      (hmerged (by rw [hversions]; decide) (by rw [hversions]; decide))
  · exact finishes14 (hd.pending (by decide)) (hindexed (by decide))
  · exact ⟨_, rfl, hindexed (by decide)⟩

/-- The migration returns what the ledger's run leaves. -/
theorem migrate_eq_ok {d d' : Sqlite} (h : ledger.migrate start steps d = some d') :
    migrate d = .ok d' := by
  rw [← migrate_eq] at h
  cases hm : migrate d with
  | error e => simp [hm, Except.toOption] at h
  | ok w =>
      simp only [hm, Except.toOption, Option.some.injEq] at h
      rw [h]

/-- **Migration survives a crash**: from every database with a prefix of the
migrations whose self rows can be merged, `migrate` returns; cut short after any
statement and run again it ends in the same database, with at most one row of
`is_self = 1`; and run once more it changes nothing. -/
theorem migrate_survives_crash {k : Nat} {d : Sqlite} (hd : Admits k d) (hself : SelfMergeable d) :
    ∃ final, migrate d = .ok final ∧ (selfs final).length ≤ 1 ∧ migrate final = .ok final ∧
      ∀ n mid, crash n d = some mid → migrate mid = .ok final := by
  obtain ⟨final, hrun, hlen⟩ := hd.finishes hself
  rw [← hd.pending_eq] at hrun
  have hmigrate : ledger.migrate start steps d = some final := hrun
  have hmid : ∀ n mid, ledger.crash start steps n d = some mid →
      ledger.migrate start steps mid = some final := by
    intro n mid hcrash
    rw [resume_migrate lawful startsWith hcrash]
    exact hmigrate
  have hfinal : ledger.migrate start steps final = some final := by
    -- the uninterrupted run is a crash after the last statement
    refine hmid (ledger.statements (ledger.pending steps d) |>.length.succ) final ?_
    have hpending : ledger.pending steps (createMigrations d) = ledger.pending steps d := by
      rw [Ledger.pending, Ledger.pending, startsWith.applied d _ rfl]
    rw [Ledger.crash, List.take_succ_cons, List.take_length, ← hpending]
    exact hrun
  refine ⟨final, migrate_eq_ok hmigrate, hlen, migrate_eq_ok hfinal, fun n mid hcrash => ?_⟩
  rw [crash_eq] at hcrash
  exact migrate_eq_ok (hmid n mid hcrash)

/-! ### two self rows -/

/-- A row of `managed_nodes` before version 14. -/
def selfRow (nodeId updatedAt : Text.Str) : Row :=
  [(.nodeId, .text nodeId), (.name, .text nodeId), (.apiTokenHash, .null),
    (.writePolicy, .text []), (.enabled, .integer 1), (.isSelf, .integer 1),
    (.lastSeenAt, .null), (.createdAt, .text (Text.lit "t0")), (.updatedAt, .text updatedAt),
    (.endpointHost, .null), (.ownIpv6, .null), (.routerId, .null)]

/-- The first `k` migrations are done, and two rows have `is_self = 1`. -/
def twoSelves (k : Nat) : Sqlite :=
  (afterPrefix k).modify .managedNodes fun x =>
    { x with rows := [selfRow (Text.lit "a") (Text.lit "t1"),
        selfRow (Text.lit "b") (Text.lit "t2")] }

/-- Replacing a table's rows leaves the schema. -/
theorem schema_modify {t : TableName} {rows : List Row} (d : Sqlite) :
    (d.modify t fun x => { x with rows }).schema = d.schema := by
  rw [schema, schema, Sqlite.modify, List.map_map]
  refine Prod.ext (List.map_congr_left fun x _ => ?_) rfl
  rw [Function.comp_apply]
  split
  · rfl
  · rfl

theorem migrate_survives_crash_twoSelves :
    SelfMergeable (twoSelves 5) ∧ ∃ final, migrate (twoSelves 5) = .ok final ∧
      (selfs final).length ≤ 1 ∧ migrate final = .ok final ∧
      ∀ n mid, crash n (twoSelves 5) = some mid → migrate mid = .ok final := by
  have hd : Admits 5 (twoSelves 5) :=
    ⟨by decide, schema_modify _, by decide +kernel, by decide +kernel, by decide +kernel⟩
  have hself : SelfMergeable (twoSelves 5) := by
    refine .inr (.inr ⟨by decide +kernel, ?_⟩)
    decide +kernel
  exact ⟨hself, migrate_survives_crash hd hself⟩

/-- One of them has no `node_id`, which a `TEXT PRIMARY KEY` admits. -/
def namelessSelf (k : Nat) : Sqlite :=
  (afterPrefix k).modify .managedNodes fun x =>
    { x with rows := [selfRow (Text.lit "a") (Text.lit "t1"),
        (.nodeId, .null) :: (selfRow (Text.lit "b") (Text.lit "t2")).tail] }

/-- With version 12 recorded nothing merges the two rows, and the unique index of
version 13 cannot be built.  Neither can it when version 12 is still to be run and
one of the rows has no `node_id`. -/
theorem migrate_twoSelves_fails :
    (Admits 6 (twoSelves 6) ∧ ∀ final, migrate (twoSelves 6) ≠ .ok final) ∧
    (12 : Int) ∉ applied (namelessSelf 5) ∧ Admits 5 (namelessSelf 5) ∧
      ∀ final, migrate (namelessSelf 5) ≠ .ok final := by
  have hfails : ∀ {d : Sqlite}, (migrate d).toOption.isNone = true → ∀ final,
      migrate d ≠ .ok final := by
    intro d hnone final h
    rw [h] at hnone
    cases hnone
  refine ⟨⟨⟨by decide, schema_modify _, by decide +kernel, by decide +kernel, by decide +kernel⟩,
    hfails (by decide +kernel)⟩, by decide +kernel, ⟨by decide, schema_modify _, by decide +kernel,
    by decide +kernel, by decide +kernel⟩, hfails (by decide +kernel)⟩

end Migrations

end Dn42Ctl
