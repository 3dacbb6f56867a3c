import Dn42Ctl.NodeAddress
import Dn42Ctl.Lib.Paging
import Mathlib.Data.List.Sort

/-!
# DbBrowse

`services/db_browse.py`: read-only pages of the tables, with the secrets masked.

* `SameButSecrets` — two databases that differ in the secrets alone;
* `browse_no_leak` — they give the same page or the same error, and the pages of
  one database list every row once.
-/

namespace Dn42Ctl

open Text

namespace DbBrowse

/-! ## stored tables -/

/-- What a cell holds. -/
inductive Cell where
  | null
  | integer (n : Int)
  | real (x : PyFloat)
  | text (s : Str)
  | blob (bytes : List Nat)

/-- A row: its `rowid`, and its cells by column. -/
structure StoredRow where
  rowid : Int
  cells : List (Str × Cell)

structure StoredTable where
  columns : List Str
  rows : List StoredRow
  row_columns : ∀ row ∈ rows, row.cells.map Prod.fst = columns
  rowids_nodup : (rows.map StoredRow.rowid).Nodup
  /-- A file has fewer rows than an offset can count. -/
  rows_fit : rows.length < 2 ^ 63

/-- The tables of a database file. -/
structure Store where
  table : Str → Option StoredTable

/-! ## the allow-list -/

/-- `BROWSABLE_TABLES`: the tables and their columns with secrets. -/
def browsableTables : List (Str × List Str) :=
  [(lit "schema_migrations", []), (lit "nodes", []),
    (lit "bgp_peers", [lit "wg_private_key"]), (lit "ibgp_peers", [lit "wg_private_key"]),
    (lit "managed_nodes", [lit "api_token_hash"]), (lit "config_proposals", []),
    (lit "node_reports", []), (lit "config_revisions", [lit "payload_json"]),
    (lit "node_desired_pin", []), (lit "sync_events", [])]

/-- `NODE_SCOPED_TABLES`. -/
def nodeScopedTables : List Str :=
  [lit "bgp_peers", lit "ibgp_peers", lit "managed_nodes", lit "config_proposals",
    lit "node_reports", lit "config_revisions", lit "node_desired_pin", lit "sync_events"]

def maxLimit : Int := 500

/-- `_require_table`. -/
def requireTable (table : Str) : Except (Txn.Exc PyError) (Str × List Str) :=
  match browsableTables.find? fun entry => entry.1 == table with
  | some entry => pure entry
  | none => throw (.raised (dn42CtlError [.text (lit "未知或不可浏览的表: "), .text table]))

/-! ## redaction -/

/-- `_redact_value`. -/
def redactValue : Cell → Cell
  | .null => .null
  | _ => .text (lit "***")

/-- The size `_redact_payload` tells: `len(value)`, of other values of their
`str`. -/
def payloadSize : Cell → Nat
  | .null => 0
  | .integer n => (ofInt n).length
  | .real x => x.repr.length
  | .text s => s.length
  | .blob bytes => bytes.length

/-- `_redact_payload`. -/
def redactPayload : Cell → Cell
  | .null => .null
  | value => .text (lit "<payload: " ++ ofInt (payloadSize value) ++ lit " bytes>")

def isPayload (col : Str) : Bool := endsWith col (lit "_json")

/-- A cell as the page shows it. -/
def showCell (redacted : List Str) (cell : Str × Cell) : Str × Cell :=
  (cell.1,
    if redacted.contains cell.1 then
      if isPayload cell.1 then redactPayload cell.2 else redactValue cell.2
    else cell.2)

def showRow (redacted : List Str) (row : StoredRow) : List (Str × Cell) :=
  row.cells.map (showCell redacted)

/-! ## `browse_table` -/

structure TablePage where
  table : Str
  columns : List Str
  rows : List (List (Str × Cell))
  total : Nat
  limit : Int
  offset : Int
  redacted : List Str

/-- `node_id=?`; a column of texts holds no numbers. -/
def ofNode (nodeId : Str) (row : StoredRow) : Bool :=
  match row.cells.find? fun cell => cell.1 == lit "node_id" with
  | some (_, .text s) => s == nodeId
  | _ => false

/-- `if node_id and name in NODE_SCOPED_TABLES`. -/
def nodeFilter (name : Str) (nodeId : Option Str) : Option Str :=
  match nodeId with
  | none => none
  | some n => if !n.isEmpty && nodeScopedTables.contains name then some n else none

def filterParams : Option Str → List Param
  | none => []
  | some nodeId => [.text nodeId]

def passesFilter (cond : Option Str) (row : StoredRow) : Bool := cond.all fun n => ofNode n row

/-- The rows of the query, `ORDER BY rowid`. -/
def matchingRows (t : StoredTable) (cond : Option Str) : List StoredRow :=
  (t.rows.filter (passesFilter cond)).insertionSort fun a b => a.rowid ≤ b.rowid

/-- Convert the parameters of a query. -/
def bind (ps : List Param) : Except (Txn.Exc PyError) Unit :=
  match params ps with
  | none => pure ()
  | some e => throw (.unbound e)

/-- The two statements; they are compiled before anything is bound, which fails
without the table or its column. -/
def selectRows (store : Store) (name : Str) (cond : Option Str) (limit offset : Int) :
    Except (Txn.Exc PyError) (StoredTable × List StoredRow) :=
  match store.table name with
  | none => throw (.raised (dn42CtlError [.text (lit "读取表失败: "), .text name]))
  | some t =>
      if cond.isSome && !t.columns.contains (lit "node_id") then
        throw (.raised (dn42CtlError [.text (lit "读取表失败: "), .text name]))
      else do
        bind (filterParams cond)
        bind (filterParams cond ++ [.int limit, .int offset])
        pure (t, matchingRows t cond)

def browseTable (store : Store) (table : Str) (limit offset : Int) (nodeId : Option Str) :
    Except (Txn.Exc PyError) TablePage := do
  let (name, redacted) ← requireTable table
  let limit := max 1 (min limit maxLimit)
  let offset := max 0 offset
  let (t, rows) ← selectRows store name (nodeFilter name nodeId) limit offset
  pure { table := name, columns := t.columns,
         rows := (Paging.page limit.toNat offset.toNat rows).map (showRow redacted),
         total := rows.length, limit, offset, redacted }

/-! ## databases that differ in the secrets -/

/-- Two values of a column: the same, or secrets with the same `NULL`s and, in a
payload, the same size. -/
def Alike (redacted : List Str) (a b : Str × Cell) : Prop :=
  b.1 = a.1 ∧
    if redacted.contains a.1 then
      (a.2 = .null ↔ b.2 = .null) ∧ (isPayload a.1 = true → payloadSize a.2 = payloadSize b.2)
    else b.2 = a.2

/-- Two rows with the same `rowid`, alike in every column. -/
structure RowAlike (redacted : List Str) (r r' : StoredRow) : Prop where
  rowid : r'.rowid = r.rowid
  cells : List.Forall₂ (Alike redacted) r.cells r'.cells

/-- Two tables with the same columns and the same rows up to secrets. -/
structure TableAlike (redacted : List Str) (t t' : StoredTable) : Prop where
  columns : t'.columns = t.columns
  rows : List.Forall₂ (RowAlike redacted) t.rows t'.rows

/-- Two databases that differ only in the columns with secrets. -/
def SameButSecrets (store store' : Store) : Prop :=
  ∀ entry ∈ browsableTables,
    Option.Rel (TableAlike entry.2) (store.table entry.1) (store'.table entry.1)

section Alike

variable {redacted : List Str}

theorem redactValue_eq {v v' : Cell} (h : v = .null ↔ v' = .null) :
    redactValue v = redactValue v' := by
  cases v with
  | null => rw [h.mp rfl]
  | integer n =>
      cases v' with
      | null => cases h.mpr rfl
      | _ => rfl
  | real x =>
      cases v' with
      | null => cases h.mpr rfl
      | _ => rfl
  | text s =>
      cases v' with
      | null => cases h.mpr rfl
      | _ => rfl
  | blob bytes =>
      cases v' with
      | null => cases h.mpr rfl
      | _ => rfl

theorem redactPayload_of_ne {v : Cell} (h : v ≠ .null) :
    redactPayload v = .text (lit "<payload: " ++ ofInt (payloadSize v) ++ lit " bytes>") := by
  cases v with
  | null => exact absurd rfl h
  | _ => rfl

theorem redactPayload_eq {v v' : Cell} (h : v = .null ↔ v' = .null)
    (hsize : payloadSize v = payloadSize v') : redactPayload v = redactPayload v' := by
  by_cases hnull : v = .null
  · rw [hnull, h.mp hnull]
  · rw [redactPayload_of_ne hnull, redactPayload_of_ne fun h' => hnull (h.mpr h'), hsize]

/-- A page shows the same of cells that are alike. -/
theorem showCell_eq {a b : Str × Cell} (h : Alike redacted a b) :
    showCell redacted b = showCell redacted a := by
  obtain ⟨hcol, hvalue⟩ := h
  rw [showCell, showCell, hcol]
  split at hvalue
  · next hsecret =>
      rw [if_pos hsecret, if_pos hsecret]
      split
      · next hpayload => rw [redactPayload_eq hvalue.1 (hvalue.2 hpayload)]
      · rw [redactValue_eq hvalue.1]
  · next hplain => rw [if_neg hplain, if_neg hplain, hvalue]

theorem showRow_eq {r r' : StoredRow} (h : RowAlike redacted r r') :
    showRow redacted r' = showRow redacted r := by
  have hcells : ∀ {cs cs' : List (Str × Cell)}, List.Forall₂ (Alike redacted) cs cs' →
      cs'.map (showCell redacted) = cs.map (showCell redacted) := by
    intro cs cs' halike
    induction halike with
    | nil => rfl
    | cons hab _ ih => rw [List.map_cons, List.map_cons, showCell_eq hab, ih]
  exact hcells h.cells

/-- The filter looks at no secret. -/
theorem ofNode_eq (hplain : redacted.contains (lit "node_id") = false) {r r' : StoredRow}
    (h : RowAlike redacted r r') (nodeId : Str) : ofNode nodeId r' = ofNode nodeId r := by
  have hcells : ∀ {cs cs' : List (Str × Cell)}, List.Forall₂ (Alike redacted) cs cs' →
      (cs'.find? fun cell => cell.1 == lit "node_id") =
        cs.find? fun cell => cell.1 == lit "node_id" := by
    intro cs cs' halike
    induction halike with
    | nil => rfl
    | @cons a b cs cs' hab _ ih =>
        obtain ⟨hcol, hvalue⟩ := hab
        rw [List.find?_cons, List.find?_cons, hcol, ih]
        cases hkey : a.1 == lit "node_id" with
        | false => rfl
        | true =>
            rw [beq_iff_eq.mp hkey, hplain, if_neg Bool.false_ne_true] at hvalue
            exact congrArg some (Prod.ext hcol hvalue)
  rw [ofNode, ofNode, hcells h.cells]

theorem passesFilter_eq (hplain : redacted.contains (lit "node_id") = false) {r r' : StoredRow}
    (h : RowAlike redacted r r') (cond : Option Str) :
    passesFilter cond r' = passesFilter cond r := by
  cases cond with
  | none => rfl
  | some nodeId => exact ofNode_eq hplain h nodeId

/-- What a page depends on: the place of a row, whether it passes, and what is
shown of it. -/
def viewRow (redacted : List Str) (cond : Option Str) (row : StoredRow) :
    Int × Bool × List (Str × Cell) := (row.rowid, passesFilter cond row, showRow redacted row)

theorem viewRow_eq (hplain : redacted.contains (lit "node_id") = false) {t t' : StoredTable}
    (h : TableAlike redacted t t') (cond : Option Str) :
    t'.rows.map (viewRow redacted cond) = t.rows.map (viewRow redacted cond) := by
  have hrows : ∀ {rs rs' : List StoredRow}, List.Forall₂ (RowAlike redacted) rs rs' →
      rs'.map (viewRow redacted cond) = rs.map (viewRow redacted cond) := by
    intro rs rs' halike
    induction halike with
    | nil => rfl
    | cons hab _ ih =>
        rw [List.map_cons, List.map_cons, ih, viewRow, hab.rowid, passesFilter_eq hplain hab,
          showRow_eq hab]
        rfl
  exact hrows h.rows

/-- The rows of a query, as they are shown, follow from the views. -/
theorem map_showRow_matchingRows (t : StoredTable) (cond : Option Str) :
    (matchingRows t cond).map (showRow redacted) =
      (((t.rows.map (viewRow redacted cond)).filter fun v => v.2.1).insertionSort
        fun a b => a.1 ≤ b.1).map fun v => v.2.2 := by
  have hsort : (matchingRows t cond).map (viewRow redacted cond) =
      ((t.rows.filter (passesFilter cond)).map (viewRow redacted cond)).insertionSort
        fun a b => a.1 ≤ b.1 :=
    List.map_insertionSort _ _ _ _ fun a _ b _ => Iff.rfl
  have hfilter : (t.rows.filter (passesFilter cond)).map (viewRow redacted cond) =
      (t.rows.map (viewRow redacted cond)).filter fun v => v.2.1 := by
    rw [List.filter_map]
    rfl
  rw [← hfilter, ← hsort, List.map_map]
  rfl

end Alike

/-! ## two runs -/

theorem requireTable_ok {table : Str} {entry : Str × List Str}
    (h : requireTable table = .ok entry) : entry ∈ browsableTables ∧ entry.1 = table := by
  unfold requireTable at h
  split at h
  · next found hfind =>
      cases h
      have hname := List.find?_some hfind
      exact ⟨List.mem_of_find?_eq_some hfind, beq_iff_eq.mp hname⟩
  · cases h

/-- No browsable table hides the column of the filter. -/
theorem node_id_not_redacted :
    ∀ entry ∈ browsableTables, entry.2.contains (lit "node_id") = false := by
  decide

/-- A query gives the same error on both databases, or rows that are shown as
the same. -/
theorem selectRows_eq {store store' : Store} (h : SameButSecrets store store')
    {entry : Str × List Str} (hmem : entry ∈ browsableTables) (cond : Option Str)
    (limit offset : Int) :
    (∃ e, selectRows store entry.1 cond limit offset = .error e ∧
      selectRows store' entry.1 cond limit offset = .error e) ∨
    ∃ t t' rows rows', selectRows store entry.1 cond limit offset = .ok (t, rows) ∧
      selectRows store' entry.1 cond limit offset = .ok (t', rows') ∧
      t'.columns = t.columns ∧
      rows'.map (showRow entry.2) = rows.map (showRow entry.2) := by
  have hrel := h entry hmem
  unfold selectRows
  cases htable : store.table entry.1 with
  | none =>
      rw [htable] at hrel
      cases htable' : store'.table entry.1 with
      | none => exact Or.inl ⟨_, rfl, rfl⟩
      | some t' =>
          rw [htable'] at hrel
          cases hrel
  | some t =>
      rw [htable] at hrel
      cases htable' : store'.table entry.1 with
      | none =>
          rw [htable'] at hrel
          cases hrel
      | some t' =>
          rw [htable'] at hrel
          obtain ⟨halike⟩ := hrel
          simp only [halike.columns]
          split
          · exact Or.inl ⟨_, rfl, rfl⟩
          · cases bind (filterParams cond) with
            | error e => exact Or.inl ⟨e, rfl, rfl⟩
            | ok _ =>
                cases bind (filterParams cond ++ [.int limit, .int offset]) with
                | error e => exact Or.inl ⟨e, rfl, rfl⟩
                | ok _ =>
                    have hviews := viewRow_eq (node_id_not_redacted entry hmem) halike cond
                    have hshown : (matchingRows t' cond).map (showRow entry.2) =
                        (matchingRows t cond).map (showRow entry.2) := by
                      rw [map_showRow_matchingRows, map_showRow_matchingRows, hviews]
                    exact Or.inr ⟨t, t', _, _, rfl, rfl, halike.columns, hshown⟩

theorem browseTable_of_ok {store : Store} {table : Str} {limit offset : Int}
    {nodeId : Option Str} {entry : Str × List Str} (hentry : requireTable table = .ok entry)
    {t : StoredTable} {rows : List StoredRow}
    (h : selectRows store entry.1 (nodeFilter entry.1 nodeId) (max 1 (min limit maxLimit))
      (max 0 offset) = .ok (t, rows)) :
    browseTable store table limit offset nodeId = .ok
      { table := entry.1, columns := t.columns,
        rows := Paging.page (max 1 (min limit maxLimit)).toNat (max 0 offset).toNat
          (rows.map (showRow entry.2)),
        total := rows.length, limit := max 1 (min limit maxLimit), offset := max 0 offset,
        redacted := entry.2 } := by
  rw [← Paging.map_page]
  simp only [browseTable, Bind.bind, Except.bind, hentry, h]
  rfl

theorem browseTable_of_error {store : Store} {table : Str} {limit offset : Int}
    {nodeId : Option Str} {entry : Str × List Str} (hentry : requireTable table = .ok entry)
    {e : Txn.Exc PyError}
    (h : selectRows store entry.1 (nodeFilter entry.1 nodeId) (max 1 (min limit maxLimit))
      (max 0 offset) = .error e) :
    browseTable store table limit offset nodeId = .error e := by
  simp only [browseTable, Bind.bind, Except.bind, hentry, h]

/-- The page shows nothing the databases differ in. -/
theorem browseTable_eq {store store' : Store} (h : SameButSecrets store store') (table : Str)
    (limit offset : Int) (nodeId : Option Str) :
    browseTable store table limit offset nodeId = browseTable store' table limit offset nodeId := by
  cases hentry : requireTable table with
  | error e => simp only [browseTable, Bind.bind, Except.bind, hentry]
  | ok entry =>
      obtain ⟨hmem, -⟩ := requireTable_ok hentry
      obtain ⟨e, hleft, hright⟩ | ⟨t, t', rows, rows', hleft, hright, hcolumns, hshown⟩ :=
        selectRows_eq h hmem (nodeFilter entry.1 nodeId) (max 1 (min limit maxLimit))
          (max 0 offset)
      · rw [browseTable_of_error hentry hleft, browseTable_of_error hentry hright]
      · have hlength : rows'.length = rows.length := by
          have := congrArg List.length hshown
          rwa [List.length_map, List.length_map] at this
        rw [browseTable_of_ok hentry hleft, browseTable_of_ok hentry hright, hcolumns, hlength,
          hshown]

/-! ## the pages of one table -/

/-- The query asks for the rows that pass, each once, by `rowid`. -/
theorem perm_matchingRows (t : StoredTable) (cond : Option Str) :
    (matchingRows t cond).Perm (t.rows.filter (passesFilter cond)) :=
  List.perm_insertionSort _ _

theorem pairwise_matchingRows (t : StoredTable) (cond : Option Str) :
    (matchingRows t cond).Pairwise fun a b => a.rowid < b.rowid := by
  have hle : (matchingRows t cond).Pairwise fun a b => a.rowid ≤ b.rowid := by
    have : Std.Total fun a b : StoredRow => a.rowid ≤ b.rowid := ⟨fun a b => le_total _ _⟩
    have : IsTrans StoredRow fun a b => a.rowid ≤ b.rowid := ⟨fun a b c => le_trans⟩
    exact List.pairwise_insertionSort _ _
  have hnodup : ((matchingRows t cond).map StoredRow.rowid).Nodup := by
    have hfilter : ((t.rows.filter (passesFilter cond)).map StoredRow.rowid).Nodup :=
      t.rowids_nodup.sublist (List.filter_sublist.map _)
    exact ((perm_matchingRows t cond).map _).nodup_iff.mpr hfilter
  have hne : (matchingRows t cond).Pairwise fun a b => a.rowid ≠ b.rowid :=
    List.pairwise_map.mp hnodup
  exact (hle.and hne).imp fun hab => lt_of_le_of_ne hab.1 hab.2

theorem length_matchingRows_lt (t : StoredTable) (cond : Option Str) :
    (matchingRows t cond).length < 2 ^ 63 := by
  have hfilter := List.length_filter_le (passesFilter cond) t.rows
  have hfit := t.rows_fit
  rw [(perm_matchingRows t cond).length_eq]
  omega

theorem bind_eq_ok {ps : List Param} : bind ps = .ok () ↔ params ps = none := by
  unfold bind
  cases params ps with
  | none => exact ⟨fun _ => rfl, fun _ => rfl⟩
  | some e => exact ⟨fun h => (by cases h), fun h => (by cases h)⟩

/-- A limit and an offset in range are bound. -/
theorem bind_window {ps : List Param} (h : bind ps = .ok ()) {limit offset : Int}
    (hlimit : 0 ≤ limit) (hlimit' : limit < 2 ^ 63) (hoffset : 0 ≤ offset)
    (hoffset' : offset < 2 ^ 63) : bind (ps ++ [.int limit, .int offset]) = .ok () := by
  have hps := bind_eq_ok.mp h
  have hl : (Param.int limit).convert = none := (convert_int hlimit).mpr hlimit'
  have ho : (Param.int offset).convert = none := (convert_int hoffset).mpr hoffset'
  unfold params at hps
  rw [bind_eq_ok, params, List.findSome?_append, hps, List.findSome?_cons, hl, List.findSome?_cons,
    ho]
  rfl

/-- A query that returned at one place of a table returns at every other. -/
theorem selectRows_ok {store : Store} {name : Str} {cond : Option Str} {limit offset : Int}
    {t : StoredTable} {rows : List StoredRow}
    (h : selectRows store name cond limit offset = .ok (t, rows)) :
    store.table name = some t ∧ rows = matchingRows t cond ∧
      ∀ limit' offset' : Int, 0 ≤ limit' → limit' < 2 ^ 63 → 0 ≤ offset' → offset' < 2 ^ 63 →
        selectRows store name cond limit' offset' = .ok (t, rows) := by
  unfold selectRows at h
  cases htable : store.table name with
  | none =>
      rw [htable] at h
      cases h
  | some found =>
      simp only [htable] at h
      split at h
      · cases h
      · next hcolumn =>
          cases hfilter : bind (filterParams cond) with
          | error e =>
              rw [hfilter] at h
              cases h
          | ok _ =>
              cases hwindow : bind (filterParams cond ++ [.int limit, .int offset]) with
              | error e =>
                  rw [hfilter, hwindow] at h
                  cases h
              | ok _ =>
                  rw [hfilter, hwindow] at h
                  cases h
                  have hrest : ∀ limit' offset' : Int, 0 ≤ limit' → limit' < 2 ^ 63 →
                      0 ≤ offset' → offset' < 2 ^ 63 →
                      selectRows store name cond limit' offset' =
                        .ok (t, matchingRows t cond) := by
                    intro limit' offset' hl hl' ho ho'
                    simp only [selectRows, htable, if_neg hcolumn, hfilter,
                      bind_window hfilter hl hl' ho ho']
                    rfl
                  exact ⟨rfl, rfl, hrest⟩

/-- The pages of a table list its matching rows. -/
theorem browseTable_pages {store : Store} {table : Str} {nodeId : Option Str} {limit : Nat}
    (hpos : 1 ≤ limit) (hmax : limit ≤ 500) {first : TablePage}
    (h : browseTable store table limit 0 nodeId = .ok first) :
    ∃ (t : StoredTable) (matching : List StoredRow) (pages : Nat → TablePage),
      store.table table = some t ∧
      matching.Perm (t.rows.filter (passesFilter (nodeFilter table nodeId))) ∧
      (matching.Pairwise fun a b => a.rowid < b.rowid) ∧ matching.length < 2 ^ 63 ∧
      (∀ k : Nat, k * limit < 2 ^ 63 →
        browseTable store table limit (k * limit : Nat) nodeId = .ok (pages k)) ∧
      ∀ n : Nat, matching.length ≤ n * limit →
        ((List.range n).flatMap fun k => (pages k).rows) =
          matching.map (showRow first.redacted) := by
  have hclamp : max 1 (min (limit : Int) maxLimit) = limit := by
    unfold maxLimit
    omega
  cases hentry : requireTable table with
  | error e =>
      simp only [browseTable, Bind.bind, Except.bind, hentry] at h
      cases h
  | ok entry =>
      obtain ⟨-, rfl⟩ := requireTable_ok hentry
      cases hrows : selectRows store entry.1 (nodeFilter entry.1 nodeId)
          (max 1 (min (limit : Int) maxLimit)) (max 0 0) with
      | error e =>
          rw [browseTable_of_error hentry hrows] at h
          cases h
      | ok found =>
          obtain ⟨t, rows⟩ := found
          rw [browseTable_of_ok hentry hrows] at h
          obtain rfl := Except.ok.inj h
          obtain ⟨htable, hmatching, hother⟩ := selectRows_ok hrows
          have hpages : ∀ k : Nat, k * limit < 2 ^ 63 →
              browseTable store entry.1 limit (k * limit : Nat) nodeId = .ok
                { table := entry.1, columns := t.columns,
                  rows := Paging.page limit (k * limit) (rows.map (showRow entry.2)),
                  total := rows.length, limit := limit, offset := (k * limit : Nat),
                  redacted := entry.2 } := by
            intro k hk
            have hoffset : max 0 ((k * limit : Nat) : Int) = (k * limit : Nat) := by omega
            have hquery := hother limit (k * limit : Nat) (by omega) (by omega) (by omega)
              (by omega)
            rw [← hclamp, ← hoffset] at hquery
            rw [browseTable_of_ok hentry hquery, hclamp, hoffset, Int.toNat_natCast,
              Int.toNat_natCast]
          have hall : ∀ n : Nat, rows.length ≤ n * limit →
              ((List.range n).flatMap fun k =>
                Paging.page limit (k * limit) (rows.map (showRow entry.2))) =
                rows.map (showRow entry.2) := by
            intro n hn
            exact Paging.flatMap_page_all (by rwa [List.length_map])
          have hperm : rows.Perm (t.rows.filter (passesFilter (nodeFilter entry.1 nodeId))) := by
            rw [hmatching]
            exact perm_matchingRows t _
          have hpairwise : rows.Pairwise fun a b => a.rowid < b.rowid := by
            rw [hmatching]
            exact pairwise_matchingRows t _
          have hfit : rows.length < 2 ^ 63 := by
            rw [hmatching]
            exact length_matchingRows_lt t _
          exact ⟨t, rows, _, htable, hperm, hpairwise, hfit, hpages, hall⟩

/-- The browser leaks no secret. Two databases that differ in the secrets alone
give the same page or the same error, and the pages of a database, one after the
other, list the matching rows, each once. -/
theorem browse_no_leak :
    (∀ store store' : Store, SameButSecrets store store' →
      ∀ (table : Str) (limit offset : Int) (nodeId : Option Str),
        browseTable store table limit offset nodeId =
          browseTable store' table limit offset nodeId) ∧
    ∀ (store : Store) (table : Str) (nodeId : Option Str) (limit : Nat), 1 ≤ limit → limit ≤ 500 →
      ∀ first : TablePage, browseTable store table limit 0 nodeId = .ok first →
        ∃ (t : StoredTable) (matching : List StoredRow) (pages : Nat → TablePage),
          store.table table = some t ∧
          matching.Perm (t.rows.filter (passesFilter (nodeFilter table nodeId))) ∧
          (matching.Pairwise fun a b => a.rowid < b.rowid) ∧ matching.length < 2 ^ 63 ∧
          (∀ k : Nat, k * limit < 2 ^ 63 →
            browseTable store table limit (k * limit : Nat) nodeId = .ok (pages k)) ∧
          ∀ n : Nat, matching.length ≤ n * limit →
            ((List.range n).flatMap fun k => (pages k).rows) =
              matching.map (showRow first.redacted) := by
  have hruns : ∀ store store' : Store, SameButSecrets store store' →
      ∀ (table : Str) (limit offset : Int) (nodeId : Option Str),
        browseTable store table limit offset nodeId =
          browseTable store' table limit offset nodeId := by
    intro store store' h table limit offset nodeId
    exact browseTable_eq h table limit offset nodeId
  exact ⟨hruns, fun _ _ _ _ hpos hmax _ h => browseTable_pages hpos hmax h⟩

/-- A row with the key of a peer. -/
def keyRow (rowid : Int) (node : String) (key : Str) : StoredRow :=
  ⟨rowid, [(lit "node_id", .text (lit node)), (lit "wg_private_key", .text key)]⟩

/-- Four peers of two nodes, not in the order of their `rowid`s. -/
def samplePeers (key : Nat → Str) : StoredTable where
  columns := [lit "node_id", lit "wg_private_key"]
  rows := [keyRow 5 "n1" (key 0), keyRow 1 "n1" (key 1), keyRow 3 "n2" (key 2),
    keyRow 2 "n1" (key 3)]
  row_columns := by simp [keyRow]
  rowids_nodup := by simp [keyRow]
  rows_fit := by simp

def sampleStore (key : Nat → Str) : Store :=
  { table := fun name => if name = lit "bgp_peers" then some (samplePeers key) else none }

def numberedKey (i : Nat) : Str := lit "key" ++ ofInt i

/-- Two rows with different keys. -/
theorem keyRow_alike (rowid : Int) (node : String) (key key' : Str) :
    RowAlike [lit "wg_private_key"] (keyRow rowid node key) (keyRow rowid node key') := by
  have hnode : Alike [lit "wg_private_key"] (lit "node_id", .text (lit node))
      (lit "node_id", .text (lit node)) := ⟨rfl, rfl⟩
  have hsecret : Alike [lit "wg_private_key"] (lit "wg_private_key", .text key)
      (lit "wg_private_key", .text key') :=
    ⟨rfl, ⟨fun h => (by cases h), fun h => (by cases h)⟩, fun h => (by cases h)⟩
  exact ⟨rfl, .cons hnode (.cons hsecret .nil)⟩

/-- The sample databases differ in the keys. -/
theorem sampleStore_alike (key key' : Nat → Str) :
    SameButSecrets (sampleStore key) (sampleStore key') := by
  intro entry hmem
  by_cases hname : entry.1 = lit "bgp_peers"
  · have hunique : ∀ e ∈ browsableTables, e.1 = lit "bgp_peers" →
        e = (lit "bgp_peers", [lit "wg_private_key"]) := by
      decide
    obtain rfl := hunique entry hmem hname
    exact Option.Rel.some ⟨rfl, .cons (keyRow_alike ..) (.cons (keyRow_alike ..)
      (.cons (keyRow_alike ..) (.cons (keyRow_alike ..) .nil)))⟩
  · have hnone : ∀ k, (sampleStore k).table entry.1 = none := fun k => if_neg hname
    rw [hnone, hnone]
    exact Option.Rel.none

/-- The keys of one node's three peers, on two pages. -/
theorem browse_no_leak_keys :
    (∀ offset ∈ [(0 : Int), 2],
      browseTable (sampleStore fun _ => lit "k1") (lit "bgp_peers") 2 offset (some (lit "n1")) =
        browseTable (sampleStore numberedKey) (lit "bgp_peers") 2 offset (some (lit "n1"))) ∧
    ∃ (matching : List StoredRow) (pages : Nat → TablePage),
      matching.length = 3 ∧ matching.Pairwise (fun a b => a.rowid < b.rowid) ∧
      (∀ k : Nat, k * 2 < 2 ^ 63 →
        browseTable (sampleStore numberedKey) (lit "bgp_peers") (2 : Nat) (k * 2 : Nat)
          (some (lit "n1")) = .ok (pages k)) ∧
      ((List.range 2).flatMap fun k => (pages k).rows) =
        matching.map (showRow [lit "wg_private_key"]) := by
  obtain ⟨t, matching, pages, htable, hperm, hsorted, -, hpages, hall⟩ :=
    browse_no_leak.2 (sampleStore numberedKey) (lit "bgp_peers") (some (lit "n1")) 2 (by decide)
      (by decide) _ rfl
  cases htable
  have hlength : matching.length = 3 := hperm.length_eq
  refine ⟨fun offset _ =>
    browse_no_leak.1 _ _ (sampleStore_alike (fun _ => lit "k1") numberedKey) _ _ _ _,
    matching, pages, hlength, hsorted, hpages, hall 2 ?_⟩
  rw [hlength]
  decide

end DbBrowse

end Dn42Ctl
