import Dn42Ctl.Migrations

/-!
# MigrationScripts

The scripts of the migrations may be run again: every statement has nothing left
to do once it has run, and the later ones of its script leave it so.  With the
versions, which no script writes, they are a `Script.Ledger`.
-/

namespace Dn42Ctl

namespace Migrations

open Script

/-! ## rows -/

namespace Row

/-- Setting a column changes its cell alone. -/
theorem find?_set (c k : ColumnName) (v : Value) (r : Row) :
    (r.set c v).find? (fun cell => cell.1 = k) =
      (r.find? fun cell => cell.1 = k).map fun cell => if cell.1 = c then (c, v) else cell := by
  induction r with
  | nil => rfl
  | cons cell r ih =>
      have hname : (if cell.1 = c then (c, v) else cell).1 = cell.1 := by
        split
        · exact Eq.symm ‹_›
        · rfl
      rw [set, List.map_cons, List.find?_cons, List.find?_cons, hname]
      split
      · rfl
      · exact ih

/-- A column that was there has the value it was set to. -/
theorem get_set_self {c : ColumnName} {v : Value} {r : Row} (h : r.get c ≠ .null) :
    (r.set c v).get c = v := by
  rw [get, find?_set]
  cases hf : r.find? fun cell => cell.1 = c with
  | none => exact absurd (by rw [get, hf]; rfl) h
  | some cell =>
      have hc : cell.1 = c := by simpa using List.find?_some hf
      rw [Option.map_some, if_pos hc]
      rfl

theorem get_set_other {c k : ColumnName} (h : k ≠ c) (v : Value) (r : Row) :
    (r.set c v).get k = r.get k := by
  rw [get, find?_set, get]
  cases hf : r.find? fun cell => cell.1 = k with
  | none => rfl
  | some cell =>
      have hk : cell.1 = k := by simpa using List.find?_some hf
      rw [Option.map_some, if_neg (hk ▸ h)]

/-- A new column leaves the others. -/
theorem get_append {c k : ColumnName} (h : k ≠ c) (v : Value) (r : Row) :
    Row.get k (r ++ [(c, v)]) = r.get k := by
  rw [get, get, List.find?_append]
  cases hf : r.find? fun cell => cell.1 = k with
  | some cell => rfl
  | none => simp [h.symm]

end Row

/-! ## tables -/

namespace Sqlite

/-- A table is changed, and the others are found as they were. -/
theorem table?_modify {t k : TableName} {f : Table → Table} (hf : ∀ x, (f x).name = x.name)
    (d : Sqlite) :
    (d.modify t f).table? k = if k = t then (d.table? k).map f else d.table? k := by
  rw [table?, table?, modify]
  induction d.tables with
  | nil => simp
  | cons x xs ih =>
      have hname : (if x.name = t then f x else x).name = x.name := by
        split
        · exact hf x
        · rfl
      rw [List.map_cons, List.find?_cons, hname, List.find?_cons]
      by_cases hx : x.name = k
      · simp only [hx, decide_true]
        by_cases hk : k = t
        · simp [hk]
        · simp [hk]
      · simp only [hx, decide_false]
        exact ih

/-- The rows of a changed table. -/
theorem rowsOf_modify {t : TableName} {f : Table → Table} {d : Sqlite} {x : Table}
    (hx : d.table? t = some x) (hf : ∀ x, (f x).name = x.name) :
    (d.modify t f).rowsOf t = (f x).rows := by
  rw [rowsOf, table?_modify hf, if_pos rfl, hx]
  rfl

theorem rowsOf_modify_other {t k : TableName} (hk : k ≠ t) {f : Table → Table} (d : Sqlite)
    (hf : ∀ x, (f x).name = x.name) : (d.modify t f).rowsOf k = d.rowsOf k := by
  rw [rowsOf, table?_modify hf, if_neg hk]
  rfl

/-- A change that changes nothing. -/
theorem modify_eq_self {t : TableName} {f : Table → Table} {d : Sqlite}
    (h : ∀ x ∈ d.tables, x.name = t → f x = x) : d.modify t f = d := by
  have hmap : d.tables.map (fun x => if x.name = t then f x else x) = d.tables := by
    rw [List.map_congr_left (g := id) fun x hx => ?_, List.map_id]
    split
    · exact h x hx ‹_›
    · rfl
  rw [modify, hmap]

/-- `CREATE TABLE IF NOT EXISTS` adds a table that is missing. -/
theorem table?_createTable (t k : TableName) (tableDef : TableDef) (d : Sqlite) :
    (d.createTable t tableDef).table? k =
      if d.has t = false ∧ k = t then some { tableDef with name := t } else d.table? k := by
  rw [createTable]
  cases ht : d.has t with
  | true => simp
  | false =>
      simp only [Bool.false_eq_true, if_false, true_and]
      rw [table?, List.find?_append]
      by_cases hk : k = t
      · subst hk
        have hnone : d.table? k = none := by simpa [has] using ht
        rw [table?] at hnone
        simp [hnone]
      · have hkt : ¬ t = k := fun h => hk h.symm
        simp only [hk, if_false, List.find?_cons, hkt, decide_false, List.find?_nil]
        exact Option.or_none

theorem has_createTable (t k : TableName) (tableDef : TableDef) (d : Sqlite) :
    (d.createTable t tableDef).has k = (d.has k || decide (k = t)) := by
  rw [has, table?_createTable]
  by_cases hk : k = t
  · subst hk
    cases hd : d.has k with
    | true => simpa [has] using hd
    | false => simp
  · simp [hk, has]

/-- A new table has no rows. -/
theorem rowsOf_createTable (t k : TableName) (tableDef : TableDef) (d : Sqlite) :
    (d.createTable t tableDef).rowsOf k = d.rowsOf k := by
  rw [rowsOf, table?_createTable]
  split
  · rename_i h
    have hnone : d.table? k = none := by simpa [has, h.2] using h.1
    rw [rowsOf, hnone]
    rfl
  · rfl

/-- Nothing is dropped: tables keep their columns, indexes stay. -/
structure Grows (d d' : Sqlite) : Prop where
  indexes : d.indexes ⊆ d'.indexes
  tables : ∀ k x, d.table? k = some x → ∃ x', d'.table? k = some x' ∧ x.columns ⊆ x'.columns

/-- Nothing is taken away. -/
theorem Grows.refl (d : Sqlite) : Grows d d := ⟨fun _ h => h, fun _ x h => ⟨x, h, fun _ hc => hc⟩⟩

/-- A table that was there is there. -/
theorem Grows.has {d d' : Sqlite} (h : Grows d d') {k : TableName} (hk : d.has k = true) :
    d'.has k = true := by
  obtain ⟨x, hx⟩ := Option.isSome_iff_exists.mp hk
  obtain ⟨x', hx', -⟩ := h.tables k x hx
  rw [Sqlite.has, hx']
  rfl

/-- A change that keeps the columns keeps the schema. -/
theorem grows_modify {t : TableName} {f : Table → Table} (hf : ∀ x, (f x).name = x.name)
    (hc : ∀ x, x.columns ⊆ (f x).columns) (d : Sqlite) : Grows d (d.modify t f) where
  indexes _ h := h
  tables k x hx := by
    rw [table?_modify hf, hx]
    split
    · exact ⟨f x, rfl, hc x⟩
    · exact ⟨x, rfl, fun _ h => h⟩

theorem grows_createTable (t : TableName) (tableDef : TableDef) (d : Sqlite) :
    Grows d (d.createTable t tableDef) where
  indexes _ h := by
    rw [createTable]
    split
    · exact h
    · exact h
  tables k x hx := by
    rw [table?_createTable]
    split
    · rename_i h
      have hnone : d.table? k = none := by simpa [Sqlite.has, h.2] using h.1
      rw [hnone] at hx
      cases hx
    · exact ⟨x, hx, fun _ h => h⟩

end Sqlite

open Sqlite

/-- No statement takes a table or a column away. -/
theorem grows_run {s : Stmt} {d d' : Sqlite} (h : s.run d = some d') : Grows d d' := by
  cases s with
  | pragmaForeignKeys =>
      rw [Stmt.run, Option.some.injEq] at h
      exact h ▸ .refl d
  | createTable t tableDef =>
      rw [Stmt.run, Option.some.injEq] at h
      exact h ▸ grows_createTable t tableDef d
  | createIndex i =>
      rw [Stmt.run] at h
      split at h
      · rw [Option.some.injEq] at h
        exact h ▸ .refl d
      · split at h
        · cases h
        · split at h
          · rw [Option.some.injEq] at h
            rw [← h]
            exact ⟨fun _ hi => List.mem_append_left _ hi, fun _ x hx => ⟨x, hx, fun _ hc => hc⟩⟩
          · cases h
  | update t c v cond =>
      rw [Stmt.run] at h
      split at h
      · rw [Option.some.injEq] at h
        rw [← h]
        apply grows_modify
        · exact fun _ => rfl
        · exact fun _ _ hc => hc
      · cases h
  | ensureColumn t c =>
      rw [Stmt.run] at h
      split at h
      · cases h
      · split at h
        · rw [Option.some.injEq] at h
          exact h ▸ .refl d
        · rw [Option.some.injEq] at h
          rw [← h]
          apply grows_modify
          · exact fun _ => rfl
          · exact fun _ _ hc => List.mem_append_left _ hc

/-- A version is recorded once. -/
theorem insertVersion_eq_some {v : Int} {d d' : Sqlite} (h : insertVersion v d = some d') :
    d.has .schemaMigrations = true ∧ v ∉ applied d ∧
      d' = d.modify .schemaMigrations fun x =>
        { x with rows := x.rows ++ [[(.version, .integer v)]] } := by
  rw [insertVersion] at h
  split at h
  · cases h
  · rename_i hcond
    rw [Option.some.injEq] at h
    simp only [Bool.or_eq_true, Bool.not_eq_true', List.contains_iff_mem, not_or] at hcond
    exact ⟨by simpa using hcond.1, hcond.2, h.symm⟩

theorem grows_insertVersion {v : Int} {d d' : Sqlite} (h : insertVersion v d = some d') :
    Grows d d' := by
  obtain ⟨-, -, rfl⟩ := insertVersion_eq_some h
  apply grows_modify
  · exact fun _ => rfl
  · exact fun _ _ hc => hc

/-! ## statements that are done -/

/-- What a statement is for. -/
def Stmt.Done : Stmt → Sqlite → Prop
  | .pragmaForeignKeys, _ => True
  | .createTable t _, d => d.has t = true
  | .createIndex i, d => (d.indexes.any fun x => x.name = i.name) = true
  | .update t c v cond, d =>
      d.has t = true ∧ ∀ x ∈ d.tables, x.name = t → updateRows c v cond x.rows = x.rows
  | .ensureColumn t c, d =>
      ∃ x, d.table? t = some x ∧ (x.columns.any fun k => k.name = c.name) = true

/-- A statement that has nothing left to do changes nothing. -/
theorem run_of_done {s : Stmt} {d : Sqlite} (h : s.Done d) : s.run d = some d := by
  cases s with
  | pragmaForeignKeys => rfl
  | createTable t tableDef =>
      have ht : d.has t = true := h
      rw [Stmt.run, createTable, if_pos ht]
  | createIndex i =>
      have hi : (d.indexes.any fun x => x.name = i.name) = true := h
      rw [Stmt.run, if_pos hi]
  | update t c v cond =>
      rw [Stmt.run, if_pos h.1, modify_eq_self fun x hx hname => ?_]
      rw [h.2 x hx hname]
  | ensureColumn t c =>
      obtain ⟨x, hx, hc⟩ := h
      simp only [Stmt.run, hx, hc, if_true]

/-- A statement that changes nothing is done. -/
theorem done_of_run {s : Stmt} {d : Sqlite} (h : s.run d = some d) : s.Done d := by
  cases s with
  | pragmaForeignKeys => trivial
  | createTable t tableDef =>
      rw [Stmt.run, Option.some.injEq, createTable] at h
      by_contra hd
      rw [Stmt.Done, Bool.not_eq_true] at hd
      rw [hd] at h
      have hlen := congrArg (fun w => w.tables.length) h
      simp at hlen
  | createIndex i =>
      rw [Stmt.run] at h
      split at h
      · assumption
      · split at h
        · cases h
        · split at h
          · have hlen := congrArg (fun w => w.indexes.length) (Option.some.inj h)
            simp at hlen
          · cases h
  | update t c v cond =>
      rw [Stmt.run] at h
      split at h
      · rename_i ht
        refine ⟨ht, fun x hx hname => ?_⟩
        have htables := congrArg Sqlite.tables (Option.some.inj h)
        have hself : (fun y => if Table.name y = t then _ else y) x = x :=
          List.map_inj_left.mp (htables.trans (List.map_id _).symm) x hx
        dsimp only at hself
        rw [if_pos hname] at hself
        exact congrArg Table.rows hself
      · cases h
  | ensureColumn t c =>
      rw [Stmt.run] at h
      split at h
      · cases h
      · rename_i x hx
        split at h
        · exact ⟨x, hx, ‹_›⟩
        · have htable := congrArg (fun w => Sqlite.table? t w) (Option.some.inj h)
          simp only [table?_modify (f := addColumn c) (fun _ => rfl), hx, if_true, Option.map_some,
            Option.some.injEq] at htable
          have hlen := congrArg (fun w => w.columns.length) htable
          simp [addColumn] at hlen

/-- The table whose rows a statement writes. -/
def Stmt.writes : Stmt → Option TableName
  | .update t .. => some t
  | .ensureColumn t _ => some t
  | _ => none

/-- The rows of the other tables stay. -/
theorem rowsOf_run {s : Stmt} {d d' : Sqlite} (h : s.run d = some d') {k : TableName}
    (hk : s.writes ≠ some k) : d'.rowsOf k = d.rowsOf k := by
  cases s with
  | pragmaForeignKeys =>
      rw [Stmt.run, Option.some.injEq] at h
      rw [h]
  | createTable t tableDef =>
      rw [Stmt.run, Option.some.injEq] at h
      rw [← h]
      exact rowsOf_createTable t k tableDef d
  | createIndex i =>
      rw [Stmt.run] at h
      split at h
      · rw [Option.some.injEq] at h
        rw [h]
      · split at h
        · cases h
        · split at h
          · rw [Option.some.injEq] at h
            rw [← h]
            rfl
          · cases h
  | update t c v cond =>
      have hkt : k ≠ t := fun hkt => hk (congrArg some hkt.symm)
      rw [Stmt.run] at h
      split at h
      · rw [Option.some.injEq] at h
        rw [← h, rowsOf_modify_other hkt]
        exact fun _ => rfl
      · cases h
  | ensureColumn t c =>
      have hkt : k ≠ t := fun hkt => hk (congrArg some hkt.symm)
      rw [Stmt.run] at h
      split at h
      · cases h
      · split at h
        · rw [Option.some.injEq] at h
          rw [h]
        · rw [Option.some.injEq] at h
          rw [← h, rowsOf_modify_other hkt]
          exact fun _ => rfl

/-! ## updates -/

/-- An update whose condition no longer holds of a row it has changed. -/
theorem updateRows_idem {c : ColumnName} {v : Value} {p : Row → Bool}
    (h : ∀ r, p r = true → p (r.set c v) = false) (rows : List Row) :
    updateRows c v (fun _ => p) (updateRows c v (fun _ => p) rows) =
      updateRows c v (fun _ => p) rows := by
  rw [updateRows, updateRows, List.map_map]
  refine List.map_congr_left fun r _ => ?_
  rw [Function.comp_apply]
  cases hp : p r with
  | true => simp [h r hp]
  | false => simp [hp]

/-- An update that changes nothing when it is run again. -/
def Stmt.Idem : Stmt → Prop
  | .update _ c v cond => ∀ rows,
      updateRows c v cond (updateRows c v cond rows) = updateRows c v cond rows
  | _ => True

/-- An idempotent statement has nothing left to do after it has run. -/
theorem done_after {s : Stmt} (hs : s.Idem) {d d' : Sqlite} (h : s.run d = some d') :
    s.Done d' := by
  cases s with
  | pragmaForeignKeys => trivial
  | createTable t tableDef =>
      rw [Stmt.run, Option.some.injEq] at h
      rw [← h, Stmt.Done, has_createTable]
      simp
  | createIndex i =>
      rw [Stmt.run] at h
      split at h
      · rename_i hi
        rw [Option.some.injEq] at h
        exact h ▸ hi
      · split at h
        · cases h
        · split at h
          · rw [Option.some.injEq] at h
            rw [← h, Stmt.Done]
            simp
          · cases h
  | update t c v cond =>
      have hgrows := grows_run h
      rw [Stmt.run] at h
      split at h
      · rename_i ht
        refine ⟨hgrows.has ht, fun x hx hname => ?_⟩
        rw [Option.some.injEq] at h
        rw [← h] at hx
        obtain ⟨y, -, rfl⟩ := List.mem_map.mp hx
        by_cases hy : y.name = t
        · rw [if_pos hy]
          exact hs y.rows
        · rw [if_neg hy] at hname
          exact absurd hname hy
      · cases h
  | ensureColumn t c =>
      rw [Stmt.run] at h
      split at h
      · cases h
      · rename_i x hx
        split at h
        · rename_i hc
          rw [Option.some.injEq] at h
          exact h ▸ ⟨x, hx, hc⟩
        · rw [Option.some.injEq] at h
          refine ⟨addColumn c x, ?_, by simp [addColumn]⟩
          rw [← h, table?_modify (f := addColumn c) (fun _ => rfl), if_pos rfl, hx]
          rfl

/-- What is done stays done, whatever is run later; for an update, whatever leaves
its table's rows alone. -/
theorem done_keeps {s t : Stmt} {d d' : Sqlite} (hs : s.Done d) (h : t.run d = some d')
    (hne : ∀ k c v cond, s = .update k c v cond → ∃ k' c' v' cond', t = .update k' c' v' cond' ∧
      k' ≠ k) : s.Done d' := by
  have hgrows := grows_run h
  cases s with
  | pragmaForeignKeys => trivial
  | createTable k tableDef => exact hgrows.has hs
  | createIndex i =>
      obtain ⟨x, hx, hname⟩ := List.any_eq_true.mp hs
      exact List.any_eq_true.mpr ⟨x, hgrows.indexes hx, hname⟩
  | update k c v cond =>
      obtain ⟨k', c', v', cond', rfl, hkk⟩ := hne k c v cond rfl
      refine ⟨hgrows.has hs.1, fun x hx hname => ?_⟩
      rw [Stmt.run] at h
      split at h
      · rw [Option.some.injEq] at h
        rw [← h] at hx
        obtain ⟨y, hy, rfl⟩ := List.mem_map.mp hx
        by_cases hyk : y.name = k'
        · rw [if_pos hyk] at hname
          exact absurd (hyk.symm.trans hname) hkk
        · rw [if_neg hyk] at hname ⊢
          exact hs.2 y hy hname
      · cases h
  | ensureColumn k c =>
      obtain ⟨x, hx, hc⟩ := hs
      obtain ⟨x', hx', hsub⟩ := hgrows.tables k x hx
      obtain ⟨col, hcol, hname⟩ := List.any_eq_true.mp hc
      exact ⟨x', hx', List.any_eq_true.mpr ⟨col, hsub hcol, hname⟩⟩

/-! ## the rows with `is_self = 1` -/

/-- Values are told apart by their keys. -/
theorem Value.key_injective : Function.Injective Value.key := by
  have hnat : Function.Injective (List.map Int.ofNat) :=
    List.map_injective_iff.mpr fun _ _ h => Int.ofNat.inj h
  intro a b h
  cases a with
  | null => cases b <;> simp_all [Value.key]
  | integer n => cases b <;> simp_all [Value.key]
  | text t =>
      cases b with
      | text u =>
          rw [Value.key, Value.key, List.cons.injEq] at h
          rw [hnat h.2]
      | null => simp [Value.key] at h
      | integer n => simp [Value.key] at h
      | blob bytes => simp [Value.key] at h
  | blob bytes =>
      cases b with
      | blob bytes' =>
          rw [Value.key, Value.key, List.cons.injEq] at h
          rw [hnat h.2]
      | null => simp [Value.key] at h
      | integer n => simp [Value.key] at h
      | text u => simp [Value.key] at h

/-- Two rows are never equally recent. -/
theorem recency_injective : Function.Injective recency := by
  intro p q h
  have hpair := Prod.ext_iff.mp (toLex.injective h)
  exact Prod.ext (Value.key_injective hpair.2) (Value.key_injective hpair.1)

/-- Only without rows there is no newest one. -/
theorem newest_eq_none {ps : List (Value × Value)} : newest ps = none ↔ ps = [] := by
  cases ps with
  | nil => simp [newest]
  | cons p ps =>
      rw [newest]
      cases newest ps with
      | none => simp
      | some q =>
          dsimp only
          split <;> simp

/-- The newest row is one of them, and none is more recent. -/
theorem newest_spec {ps : List (Value × Value)} {m : Value × Value} (h : newest ps = some m) :
    m ∈ ps ∧ ∀ p ∈ ps, recency p ≤ recency m := by
  induction ps generalizing m with
  | nil => cases h
  | cons p ps ih =>
      rw [newest] at h
      cases hn : newest ps with
      | none =>
          rw [hn, Option.some.injEq] at h
          obtain rfl := newest_eq_none.mp hn
          subst h
          simp
      | some q =>
          obtain ⟨hmem, hmax⟩ := ih hn
          rw [hn] at h
          dsimp only at h
          split at h
          · rename_i hle
            cases h
            refine ⟨List.mem_cons_of_mem _ hmem, fun x hx => ?_⟩
            rcases List.mem_cons.mp hx with rfl | hx
            · exact hle
            · exact hmax x hx
          · rename_i hlt
            cases h
            refine ⟨List.mem_cons_self .., fun x hx => ?_⟩
            rcases List.mem_cons.mp hx with rfl | hx
            · exact le_refl _
            · exact (hmax x hx).trans (le_of_not_ge hlt)

/-- The rows that stay `is_self = 1`. -/
def keepSelf (ps : List (Value × Value)) : List (Value × Value) :=
  ps.filter fun p => !notIn p.1 ((newest ps).map Prod.fst)

/-- The merge keeps the newest row. -/
theorem newest_keepSelf (ps : List (Value × Value)) : newest (keepSelf ps) = newest ps := by
  cases hn : newest ps with
  | none =>
      obtain rfl := newest_eq_none.mp hn
      rfl
  | some m =>
      obtain ⟨hmem, hmax⟩ := newest_spec hn
      have hkept : m ∈ keepSelf ps := by
        refine List.mem_filter.mpr ⟨hmem, ?_⟩
        rw [hn]
        simp [notIn]
      cases hk : newest (keepSelf ps) with
      | none =>
          rw [newest_eq_none.mp hk] at hkept
          cases hkept
      | some q =>
          -- the newest of a part that has the newest of all
          obtain ⟨hq, hqmax⟩ := newest_spec hk
          have hle := hmax q (List.mem_of_mem_filter hq)
          rw [recency_injective (le_antisymm hle (hqmax m hkept))]

/-- Version 12 on the rows. -/
def mergeSelf (rows : List Row) : List Row := updateRows .isSelf (.integer 0) olderSelf rows

/-- A row whose flag is cleared is no self row. -/
theorem isSelf_set (r : Row) (h : isSelf r = true) :
    isSelf (r.set .isSelf (.integer 0)) = false := by
  have hget : r.get .isSelf = .integer 1 := by simpa [isSelf] using h
  have hset : (r.set .isSelf (.integer 0)).get .isSelf = .integer 0 :=
    Row.get_set_self (by rw [hget]; simp)
  simp [isSelf, hset]

/-- The merge of version 12 leaves the self rows that it keeps. -/
theorem selfPairs_mergeSelf (rows : List Row) :
    selfPairs (mergeSelf rows) = keepSelf (selfPairs rows) := by
  have hself : ∀ r, isSelf (if olderSelf rows r then r.set .isSelf (.integer 0) else r) =
      (isSelf r && !olderSelf rows r) := by
    intro r
    cases ho : olderSelf rows r with
    | false => simp
    | true =>
        have hr : isSelf r = true := by
          rw [olderSelf, Bool.and_eq_true] at ho
          exact ho.1
        simp [isSelf_set r hr]
  rw [selfPairs, mergeSelf, updateRows, List.filter_map, List.map_map, keepSelf, selfPairs,
    List.filter_map, List.filter_filter]
  have hfilter : rows.filter (isSelf ∘ fun r =>
      if olderSelf rows r then r.set .isSelf (.integer 0) else r) =
      rows.filter fun r => ((fun p : Value × Value =>
        !notIn p.1 ((newest (selfPairs rows)).map Prod.fst)) ∘
          fun r => (r.get .nodeId, r.get .updatedAt)) r && isSelf r := by
    refine List.filter_congr fun r _ => ?_
    rw [Function.comp_apply, hself, olderSelf, Function.comp_apply]
    cases isSelf r with
    | false => simp
    | true => simp
  rw [hfilter]
  refine List.map_congr_left fun r hr => ?_
  have hkept : olderSelf rows r = false := by
    have hcond := List.of_mem_filter hr
    rw [Bool.and_eq_true, Function.comp_apply, Bool.not_eq_true'] at hcond
    rw [olderSelf, hcond.1, Bool.and_false]
  rw [Function.comp_apply, hkept]
  rfl

/-- Merged rows are not merged further. -/
theorem mergeSelf_idem (rows : List Row) : mergeSelf (mergeSelf rows) = mergeSelf rows := by
  have hnone : ∀ r ∈ mergeSelf rows, olderSelf (mergeSelf rows) r = false := by
    intro r hr
    rw [olderSelf, selfPairs_mergeSelf, newest_keepSelf]
    cases hself : isSelf r with
    | false => rfl
    | true =>
        have hmem : (r.get .nodeId, r.get .updatedAt) ∈ selfPairs (mergeSelf rows) :=
          List.mem_map.mpr ⟨r, List.mem_filter.mpr ⟨hr, hself⟩, rfl⟩
        rw [selfPairs_mergeSelf] at hmem
        have hkept := List.of_mem_filter hmem
        rw [Bool.not_eq_true'] at hkept
        rw [hkept]
        rfl
  rw [mergeSelf, updateRows]
  have hid : ∀ r ∈ mergeSelf rows,
      (if olderSelf (mergeSelf rows) r then r.set .isSelf (.integer 0) else r) = id r := by
    intro r hr
    rw [hnone r hr]
    rfl
  rw [List.map_congr_left hid, List.map_id]

/-- One row is left, unless a row without a `node_id` is among several. -/
theorem length_keepSelf {ps : List (Value × Value)}
    (h : ps.length ≤ 1 ∨ (∀ p ∈ ps, p.1 ≠ .null) ∧ (ps.map Prod.fst).Nodup) :
    (keepSelf ps).length ≤ 1 := by
  rcases h with h | ⟨hnull, hnodup⟩
  · exact (List.length_filter_le ..).trans h
  · cases hn : newest ps with
    | none =>
        obtain rfl := newest_eq_none.mp hn
        simp [keepSelf]
    | some m =>
        have hm := hnull m (newest_spec hn).1
        have hall : ∀ p ∈ keepSelf ps, p.1 = m.1 := by
          intro p hp
          obtain ⟨hmem, hkeep⟩ := List.mem_filter.mp hp
          rw [hn] at hkeep
          simpa [notIn, hnull p hmem, hm] using hkeep
        have hsub : ((keepSelf ps).map Prod.fst).Nodup :=
          hnodup.sublist (List.filter_sublist.map _)
        have hrep : (keepSelf ps).map Prod.fst = List.replicate (keepSelf ps).length m.1 := by
          rw [List.eq_replicate_iff]
          refine ⟨by simp, fun v hv => ?_⟩
          obtain ⟨p, hp, rfl⟩ := List.mem_map.mp hv
          exact hall p hp
        rw [hrep, List.nodup_replicate] at hsub
        exact hsub

/-! ## the migrations as scripts -/

def ledger : Ledger Sqlite Int := ⟨applied, insertVersion⟩

def toStep (m : Int × List Stmt) : Int × List (Sqlite → Option Sqlite) :=
  (m.1, m.2.map Stmt.run)

def steps : List (Int × List (Sqlite → Option Sqlite)) := migrations.map toStep

def start (d : Sqlite) : Option Sqlite := some (createMigrations d)

theorem resumable_of {script : List Stmt} (hidem : ∀ s ∈ script, s.Idem)
    (hkeeps : script.Pairwise fun s t => ∀ k c v cond, s = .update k c v cond →
      ∃ k' c' v' cond', t = .update k' c' v' cond' ∧ k' ≠ k) :
    Resumable (script.map Stmt.run) where
  idem f hf d d' h := by
    obtain ⟨s, hs, rfl⟩ := List.mem_map.mp hf
    exact run_of_done (done_after (hidem s hs) h)
  keeps := by
    rw [List.pairwise_map]
    refine hkeeps.imp fun {s t} hst d d' hs ht => ?_
    exact run_of_done (done_keeps (done_of_run hs) ht hst)

def Stmt.isUpdate : Stmt → Bool
  | .update .. => true
  | _ => false

/-- Scripts that only build the schema. -/
theorem resumable_schema {script : List Stmt} (h : (script.all fun s => !s.isUpdate) = true) :
    Resumable (script.map Stmt.run) := by
  have hnot : ∀ s ∈ script, ∀ k c v cond, s ≠ .update k c v cond := by
    rintro s hs k c v cond rfl
    have := List.all_eq_true.mp h _ hs
    simp [Stmt.isUpdate] at this
  refine resumable_of (fun s hs => ?_) (List.pairwise_of_forall_mem_list fun s hs t _ => ?_)
  · cases s with
    | update k c v cond => exact absurd rfl (hnot _ hs k c v cond)
    | pragmaForeignKeys => trivial
    | createTable t tableDef => trivial
    | createIndex i => trivial
    | ensureColumn t c => trivial
  · intro k c v cond hk
    exact absurd hk (hnot s hs k c v cond)

/-- A script of one idempotent statement. -/
theorem resumable_update {s : Stmt} (h : s.Idem) : Resumable ([s].map Stmt.run) := by
  refine resumable_of (fun t ht => ?_) (List.pairwise_singleton ..)
  rw [List.mem_singleton.mp ht]
  exact h

/-- Rows whose backend was changed are not found again. -/
theorem idem_onNm (t : TableName) :
    (Stmt.update t .netBackend (.text (Text.lit "networkd")) onNm).Idem := by
  refine updateRows_idem (p := onNm []) fun r hr => ?_
  have hget : r.get .netBackend = .text (Text.lit "nm") := by simpa [onNm] using hr
  have hset : (r.set .netBackend (.text (Text.lit "networkd"))).get .netBackend =
      .text (Text.lit "networkd") := Row.get_set_self (by rw [hget]; simp)
  have hne : Text.lit "networkd" ≠ Text.lit "nm" := by decide
  simp [onNm, hset, hne]

/-- Hashes that were cleared are not found again. -/
theorem idem_oldTokenHash :
    (Stmt.update .managedNodes .apiTokenHash .null oldTokenHash).Idem := by
  refine updateRows_idem (p := oldTokenHash []) fun r hr => ?_
  have hget : r.get .apiTokenHash ≠ .null := by
    intro hnull
    simp [oldTokenHash, hnull] at hr
  rw [oldTokenHash, Row.get_set_self hget]

theorem resumable_backend : Resumable (backendScript.map Stmt.run) := by
  refine resumable_of (fun s hs => ?_) ?_
  · rw [backendScript, List.mem_cons, List.mem_singleton] at hs
    rcases hs with rfl | rfl
    · exact idem_onNm .bgpPeers
    · exact idem_onNm .ibgpPeers
  · refine List.pairwise_pair.mpr ?_
    rintro k c v cond h
    cases h
    exact ⟨_, _, _, _, rfl, by decide⟩

/-- **Every step can be cut short and run again**, to the same end. -/
theorem resumable_steps : ∀ step ∈ steps, Resumable step.2 := by
  intro step hstep
  obtain ⟨m, hm, rfl⟩ := List.mem_map.mp hstep
  simp only [migrations, List.mem_cons, List.not_mem_nil, or_false] at hm
  rcases hm with rfl | rfl | rfl | rfl | rfl | rfl | rfl | rfl
  · exact resumable_schema rfl
  · exact resumable_backend
  · exact resumable_schema rfl
  · exact resumable_schema rfl
  · exact resumable_update idem_oldTokenHash
  · exact resumable_update mergeSelf_idem
  · exact resumable_schema rfl
  · exact resumable_schema rfl

/-- The version that is recorded is the last one. -/
theorem applied_insertVersion {v : Int} {d d' : Sqlite} (h : insertVersion v d = some d') :
    applied d' = applied d ++ [v] := by
  obtain ⟨hhas, -, rfl⟩ := insertVersion_eq_some h
  obtain ⟨x, hx⟩ := Option.isSome_iff_exists.mp hhas
  have hrows : d.rowsOf .schemaMigrations = x.rows := by
    rw [rowsOf, hx]
    rfl
  rw [applied, rowsOf_modify hx]
  · rw [List.filterMap_append, applied, hrows]
    rfl
  · exact fun _ => rfl

/-- No script writes the versions. -/
theorem writes_steps : (migrations.all fun m => m.2.all fun s =>
    s.writes != some .schemaMigrations) = true := rfl

/-- The ledger of the migrations keeps its laws. -/
theorem lawful : ledger.Lawful steps where
  marks _ _ _ h := applied_insertVersion h
  keeps step hstep f hf d d' h := by
    obtain ⟨m, hm, rfl⟩ := List.mem_map.mp hstep
    obtain ⟨s, hs, rfl⟩ := List.mem_map.mp hf
    have hw := List.all_eq_true.mp (List.all_eq_true.mp writes_steps m hm) s hs
    show applied d' = applied d
    rw [applied, rowsOf_run h (by simpa using hw)]
    rfl
  resumable := resumable_steps
  distinct := by
    rw [steps, List.map_map]
    decide

/-- The ledger's own table is created once. -/
theorem start_eq_self {d : Sqlite} (h : d.has .schemaMigrations = true) : start d = some d := by
  rw [start, createMigrations, createTable, if_pos h]

theorem has_of_start {d : Sqlite} (h : start d = some d) : d.has .schemaMigrations = true := by
  rw [start, Option.some.injEq] at h
  rw [← h, createMigrations, has_createTable]
  simp

/-- Creating the ledger's table is where every run starts. -/
theorem startsWith : ledger.Init start steps where
  applied d d' h := by
    rw [start, Option.some.injEq] at h
    show applied d' = applied d
    rw [← h, applied, createMigrations, rowsOf_createTable]
    rfl
  idem d d' h := by
    rw [start, Option.some.injEq] at h
    refine start_eq_self ?_
    rw [← h, createMigrations, has_createTable]
    simp
  keeps f hf d d' hd h := by
    refine start_eq_self ?_
    obtain ⟨step, hstep, hf⟩ := List.mem_flatMap.mp hf
    obtain ⟨m, -, rfl⟩ := List.mem_map.mp hstep
    rcases List.mem_append.mp hf with hf | hf
    · obtain ⟨s, -, rfl⟩ := List.mem_map.mp hf
      exact (grows_run h).has (has_of_start hd)
    · rw [List.mem_singleton.mp hf] at h
      exact (grows_insertVersion h).has (has_of_start hd)

/-- The loop of `migrate` runs the statements of what is not done. -/
theorem foldlM_migrateStep (done : List Int) (ms : List (Int × List Stmt)) (d : Sqlite) :
    (ms.foldlM (migrateStep done) d).toOption =
      run (ledger.statements ((ms.map toStep).filter fun step => decide (step.1 ∉ done))) d := by
  induction ms generalizing d with
  | nil => rfl
  | cons m ms ih =>
      rw [List.foldlM_cons, List.map_cons, migrateStep]
      by_cases hm : m.1 ∈ done
      · have hskip : ¬ decide ((toStep m).1 ∉ done) = true := by simp [toStep, hm]
        rw [if_pos (List.contains_iff_mem.mpr hm), List.filter_cons, if_neg hskip]
        exact ih d
      · have hrun : decide ((toStep m).1 ∉ done) = true := by simp [toStep, hm]
        have hblock : ledger.block (toStep m) = m.2.map Stmt.run ++ [insertVersion m.1] := rfl
        rw [if_neg (by simp [hm]), List.filter_cons, if_pos hrun, Ledger.statements,
          List.flatMap_cons, hblock, run_append (_ ++ _)]
        cases run (m.2.map Stmt.run ++ [insertVersion m.1]) d with
        | none => rfl
        | some d1 => exact ih d1

/-- `migrate` is the run of the ledger. -/
theorem migrate_eq (d : Sqlite) : (migrate d).toOption = ledger.migrate start steps d :=
  foldlM_migrateStep _ _ _

/-- A crash of `migrate` is a crash of the ledger's run. -/
theorem crash_eq (n : Nat) (d : Sqlite) : crash n d = ledger.crash start steps n d := by
  have hfilter : (steps.filter fun step => decide (step.1 ∉ applied d)) =
      (migrations.filter fun m => !(applied d).contains m.1).map toStep := by
    rw [steps, List.filter_map]
    refine congrArg (List.map toStep) (List.filter_congr fun m _ => ?_)
    by_cases hm : m.1 ∈ applied d
    · simp [toStep, hm]
    · simp [toStep, hm]
  rw [crash, Ledger.crash, Ledger.statements, Ledger.pending]
  show _ = run ((start :: (steps.filter fun step => decide (step.1 ∉ applied d)).flatMap
    ledger.block).take n) d
  rw [hfilter, List.flatMap_map]
  rfl

end Migrations

end Dn42Ctl
