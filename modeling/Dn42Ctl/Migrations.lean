import Dn42Ctl.Schema
import Dn42Ctl.Lib.Script
import Mathlib.Data.Prod.Lex
import Mathlib.Data.List.Lex

/-!
# Migrations

`migrations.py` and `Database.migrate`: the schema of the hub's database, and the
numbered steps that build it and repair old rows.

Statements take effect one by one: `executescript` commits before it starts and
then runs in autocommit, and `ALTER TABLE` and `CREATE` are not part of Python's
implicit transactions.  Only the insert of the version waits for its `commit`.
-/

namespace Dn42Ctl

open Text

namespace Migrations

/-! ## the store -/

inductive TableName where
  | schemaMigrations | nodes | bgpPeers | ibgpPeers | managedNodes | configProposals
  | nodeReports | configRevisions | nodeDesiredPin | syncEvents
deriving DecidableEq, Repr

inductive ColumnName where
  | version | nodeId | createdAt | updatedAt | id | peerAsn | ifname | wgPrivateKey | wgPublicKey
  | peerPublicKey | endpoint | localLla | peerLla | listenPort | allowedIpsJson | netBackend | name
  | babelRxcost | peerIp | hasWg | babelType | apiTokenHash | writePolicy | enabled | isSelf
  | lastSeenAt | source | kind | payloadJson | status | receivedAt | decidedAt | message
  | importedAt | revision | generatedAt | pinnedAt | endpointHost | ownIpv6 | routerId
  | remoteNodeId | autoPeer
deriving DecidableEq, Repr

inductive IndexName where
  | idxConfigProposalsNodeStatus | idxNodeReportsNodeKind | idxConfigRevisionsNodeTime
  | idxSyncEventsNode | idxIbgpPeersRemote | idxManagedNodesSingleSelf
deriving DecidableEq, Repr

/-- What a cell holds.  No column of the schema has the affinity of a `REAL`. -/
inductive Value where
  | null
  | integer (n : Int)
  | text (s : Str)
  | blob (bytes : List Nat)
deriving DecidableEq, Repr

/-- SQLite's order: `NULL`, numbers, text, blobs. -/
def Value.key : Value → List Int
  | .null => [0]
  | .integer n => [1, n]
  | .text s => 2 :: s.map Int.ofNat
  | .blob bytes => 3 :: bytes.map Int.ofNat

inductive Affinity where
  | text
  | integer
deriving DecidableEq, Repr

structure Column where
  name : ColumnName
  affinity : Affinity
  notNull : Bool := false
  primaryKey : Bool := false
  autoincrement : Bool := false
  default : Option Value := none
deriving DecidableEq, Repr

/-- A row, by column and in the order of the columns. -/
abbrev Row := List (ColumnName × Value)

namespace Row

def get (c : ColumnName) (r : Row) : Value :=
  ((r.find? fun cell => cell.1 = c).map Prod.snd).getD .null

def set (c : ColumnName) (v : Value) (r : Row) : Row :=
  r.map fun cell => if cell.1 = c then (c, v) else cell

end Row

/-- Columns and constraints as `CREATE TABLE` gives them.  The foreign key is on
`node_id` and cascades. -/
structure TableDef where
  columns : List Column
  unique : List (List ColumnName) := []
  nodesKey : Bool := false
deriving DecidableEq, Repr

structure Table extends TableDef where
  name : TableName
  rows : List Row := []
deriving DecidableEq, Repr

structure Index where
  name : IndexName
  table : TableName
  columns : List ColumnName
  /-- A unique index, over the rows where a column has a value. -/
  uniqueWhere : Option (ColumnName × Value) := none
deriving DecidableEq, Repr

structure Sqlite where
  tables : List Table := []
  indexes : List Index := []
deriving DecidableEq, Repr

namespace Sqlite

def table? (t : TableName) (d : Sqlite) : Option Table := d.tables.find? fun x => x.name = t

def has (t : TableName) (d : Sqlite) : Bool := (d.table? t).isSome

def rowsOf (t : TableName) (d : Sqlite) : List Row := ((d.table? t).map Table.rows).getD []

def modify (t : TableName) (f : Table → Table) (d : Sqlite) : Sqlite :=
  { d with tables := d.tables.map fun x => if x.name = t then f x else x }

end Sqlite

/-! ## statements -/

/-- The rows fit a unique index: `NULL`s are never equal. -/
def Index.admits (i : Index) (rows : List Row) : Bool :=
  match i.uniqueWhere with
  | none => true
  | some (c, v) =>
      let covered := (rows.filter fun r => r.get c = v).map fun r => i.columns.map fun k => r.get k
      decide (covered.filter fun cells => !cells.contains .null).Nodup

inductive Stmt where
  | pragmaForeignKeys
  | createTable (name : TableName) (d : TableDef)
  | createIndex (i : Index)
  /-- `UPDATE … SET column = value WHERE …`, the condition over all the rows. -/
  | update (t : TableName) (c : ColumnName) (v : Value) (cond : List Row → Row → Bool)
  | ensureColumn (t : TableName) (c : Column)

def updateRows (c : ColumnName) (v : Value) (cond : List Row → Row → Bool) (rows : List Row) :
    List Row :=
  rows.map fun r => if cond rows r then r.set c v else r

def addColumn (c : Column) (t : Table) : Table :=
  { t with
    columns := t.columns ++ [c],
    rows := t.rows.map fun r => r ++ [(c.name, c.default.getD .null)] }

/-- `CREATE TABLE IF NOT EXISTS`. -/
def Sqlite.createTable (name : TableName) (tableDef : TableDef) (d : Sqlite) : Sqlite :=
  if d.has name then d else { d with tables := d.tables ++ [{ tableDef with name }] }

/-- One statement; `none` is a `sqlite3.Error`. -/
def Stmt.run : Stmt → Sqlite → Option Sqlite
  | .pragmaForeignKeys, d => some d
  | .createTable name tableDef, d => some (d.createTable name tableDef)
  | .createIndex i, d =>
      if d.indexes.any fun x => x.name = i.name then some d
      else if !d.has i.table then none
      else if i.admits (d.rowsOf i.table) then some { d with indexes := d.indexes ++ [i] }
      else none
  | .update t c v cond, d =>
      if d.has t then some (d.modify t fun x => { x with rows := updateRows c v cond x.rows })
      else none
  | .ensureColumn t c, d =>
      match d.table? t with
      | none => none
      | some x =>
          if x.columns.any fun k => k.name = c.name then some d else some (d.modify t (addColumn c))

/-! ## `MIGRATIONS` -/

def text (c : ColumnName) : Column := { name := c, affinity := .text }

def textNotNull (c : ColumnName) : Column := { name := c, affinity := .text, notNull := true }

def integerNotNull (c : ColumnName) (default : Option Value := none) : Column :=
  { name := c, affinity := .integer, notNull := true, default }

def idColumn : Column :=
  { name := .id, affinity := .integer, primaryKey := true, autoincrement := true }

def nodeIdKey : Column := { name := .nodeId, affinity := .text, primaryKey := true }

def migrationsTable : TableDef :=
  { columns := [{ name := .version, affinity := .integer, primaryKey := true }] }

def nodesTable : TableDef :=
  { columns := [nodeIdKey, textNotNull .createdAt, textNotNull .updatedAt] }

def bgpPeersTable : TableDef :=
  { columns := [idColumn, textNotNull .nodeId, integerNotNull .peerAsn, textNotNull .ifname,
      textNotNull .wgPrivateKey, textNotNull .wgPublicKey, text .peerPublicKey, text .endpoint,
      textNotNull .localLla, text .peerLla, integerNotNull .listenPort,
      textNotNull .allowedIpsJson, textNotNull .netBackend, textNotNull .createdAt,
      textNotNull .updatedAt],
    unique := [[.nodeId, .peerAsn], [.nodeId, .ifname]], nodesKey := true }

def ibgpPeersTable : TableDef :=
  { columns := [idColumn, textNotNull .nodeId, textNotNull .name, textNotNull .ifname,
      textNotNull .wgPrivateKey, textNotNull .wgPublicKey, text .peerPublicKey, text .endpoint,
      textNotNull .localLla, text .peerLla, integerNotNull .listenPort,
      textNotNull .allowedIpsJson, textNotNull .netBackend,
      integerNotNull .babelRxcost (some (.integer 20)), text .peerIp,
      integerNotNull .hasWg (some (.integer 1)),
      { textNotNull .babelType with default := some (.text (lit "tunnel")) },
      textNotNull .createdAt, textNotNull .updatedAt],
    unique := [[.nodeId, .name], [.nodeId, .ifname]], nodesKey := true }

def writePolicyDefault : Str :=
  lit ("\x7b\"peer_add\":\"review\",\"peer_modify\":\"review\"," ++
    "\"peer_delete\":\"review\",\"report\":\"auto\"\x7d")

def managedNodesTable : TableDef :=
  { columns := [nodeIdKey, textNotNull .name, text .apiTokenHash,
      { textNotNull .writePolicy with default := some (.text writePolicyDefault) },
      integerNotNull .enabled (some (.integer 1)), integerNotNull .isSelf (some (.integer 0)),
      text .lastSeenAt, textNotNull .createdAt, textNotNull .updatedAt],
    nodesKey := true }

def configProposalsTable : TableDef :=
  { columns := [idColumn, textNotNull .nodeId, textNotNull .source, textNotNull .kind,
      textNotNull .payloadJson,
      { textNotNull .status with default := some (.text (lit "pending")) },
      textNotNull .receivedAt, text .decidedAt, text .message],
    nodesKey := true }

def nodeReportsTable : TableDef :=
  { columns := [idColumn, textNotNull .nodeId, textNotNull .kind, textNotNull .payloadJson,
      textNotNull .receivedAt, text .importedAt],
    nodesKey := true }

def configRevisionsTable : TableDef :=
  { columns := [idColumn, textNotNull .nodeId, textNotNull .revision, textNotNull .generatedAt,
      textNotNull .payloadJson],
    unique := [[.nodeId, .revision]], nodesKey := true }

def nodeDesiredPinTable : TableDef :=
  { columns := [nodeIdKey, textNotNull .revision, textNotNull .pinnedAt], nodesKey := true }

def syncEventsTable : TableDef :=
  { columns := [idColumn, textNotNull .nodeId, textNotNull .kind, textNotNull .createdAt] }

def initialScript : List Stmt :=
  [.pragmaForeignKeys,
    .createTable .schemaMigrations migrationsTable,
    .createTable .nodes nodesTable,
    .createTable .bgpPeers bgpPeersTable,
    .createTable .ibgpPeers ibgpPeersTable,
    .createTable .managedNodes managedNodesTable,
    .createTable .configProposals configProposalsTable,
    .createIndex
      { name := .idxConfigProposalsNodeStatus, table := .configProposals,
        columns := [.nodeId, .status] },
    .createTable .nodeReports nodeReportsTable,
    .createIndex
      { name := .idxNodeReportsNodeKind, table := .nodeReports,
        columns := [.nodeId, .kind, .receivedAt] },
    .createTable .configRevisions configRevisionsTable,
    .createIndex
      { name := .idxConfigRevisionsNodeTime, table := .configRevisions,
        columns := [.nodeId, .generatedAt] },
    .createTable .nodeDesiredPin nodeDesiredPinTable]

/-- `net_backend = 'nm'`. -/
def onNm (_ : List Row) (r : Row) : Bool := r.get .netBackend = .text (lit "nm")

def backendScript : List Stmt :=
  [.update .bgpPeers .netBackend (.text (lit "networkd")) onNm,
    .update .ibgpPeers .netBackend (.text (lit "networkd")) onNm]

def syncEventsScript : List Stmt :=
  [.createTable .syncEvents syncEventsTable,
    .createIndex { name := .idxSyncEventsNode, table := .syncEvents, columns := [.nodeId, .id] }]

/-- `_migration_10`. -/
def migration10 : List Stmt :=
  [.ensureColumn .managedNodes (text .endpointHost),
    .ensureColumn .managedNodes (text .ownIpv6),
    .ensureColumn .managedNodes (text .routerId),
    .ensureColumn .ibgpPeers (text .remoteNodeId),
    .createIndex { name := .idxIbgpPeersRemote, table := .ibgpPeers, columns := [.remoteNodeId] }]

/-- `LIKE 'sha256$%'`: ASCII letters match in either case, blobs as text. -/
def likeSha256 (s : List Nat) : Bool := lower (s.take 7) == lit "sha256$"

/-- `api_token_hash IS NOT NULL AND api_token_hash NOT LIKE 'sha256$%'`. -/
def oldTokenHash (_ : List Row) (r : Row) : Bool :=
  match r.get .apiTokenHash with
  | .null => false
  | .integer n => !likeSha256 (ofInt n)
  | .text s => !likeSha256 s
  | .blob bytes => !likeSha256 bytes

def tokenHashScript : List Stmt := [.update .managedNodes .apiTokenHash .null oldTokenHash]

def isSelf (r : Row) : Bool := r.get .isSelf = .integer 1

/-- `node_id` and `updated_at` of the rows with `is_self = 1`. -/
def selfPairs (rows : List Row) : List (Value × Value) :=
  (rows.filter isSelf).map fun r => (r.get .nodeId, r.get .updatedAt)

/-- The order of `ORDER BY updated_at DESC, node_id DESC`, the other way round. -/
def recency (p : Value × Value) : List Int ×ₗ List Int := toLex (p.2.key, p.1.key)

/-- The first row of that order. -/
def newest : List (Value × Value) → Option (Value × Value)
  | [] => none
  | p :: ps =>
      match newest ps with
      | none => some p
      | some q => if recency p ≤ recency q then some q else some p

/-- `v NOT IN (SELECT … LIMIT 1)` is true: no comparison with `NULL` is. -/
def notIn (v : Value) : Option Value → Bool
  | none => true
  | some w => v != .null && w != .null && v != w

/-- A row with `is_self = 1` that is not the newest of them. -/
def olderSelf (rows : List Row) (r : Row) : Bool :=
  isSelf r && notIn (r.get .nodeId) ((newest (selfPairs rows)).map Prod.fst)

def mergeSelfScript : List Stmt := [.update .managedNodes .isSelf (.integer 0) olderSelf]

def singleSelfIndex : Index :=
  { name := .idxManagedNodesSingleSelf, table := .managedNodes, columns := [.isSelf],
    uniqueWhere := some (.isSelf, .integer 1) }

def singleSelfScript : List Stmt := [.createIndex singleSelfIndex]

/-- `_migration_14`. -/
def migration14 : List Stmt :=
  [.ensureColumn .managedNodes (integerNotNull .autoPeer (some (.integer 0)))]

def migrations : List (Int × List Stmt) :=
  [(1, initialScript), (8, backendScript), (9, syncEventsScript), (10, migration10),
    (11, tokenHashScript), (12, mergeSelfScript), (13, singleSelfScript), (14, migration14)]

/-! ## `Database.migrate` -/

/-- `SELECT version FROM schema_migrations`. -/
def applied (d : Sqlite) : List Int :=
  (d.rowsOf .schemaMigrations).filterMap fun r =>
    match r.get .version with
    | .integer v => some v
    | _ => none

/-- `INSERT INTO schema_migrations(version)` and its `commit`. -/
def insertVersion (v : Int) (d : Sqlite) : Option Sqlite :=
  if !d.has .schemaMigrations || (applied d).contains v then none
  else some (d.modify .schemaMigrations fun x =>
    { x with rows := x.rows ++ [[(.version, .integer v)]] })

def createMigrations (d : Sqlite) : Sqlite := d.createTable .schemaMigrations migrationsTable

/-- One turn of the loop of `migrate`. -/
def migrateStep (done : List Int) (d : Sqlite) (step : Int × List Stmt) :
    Except PyError Sqlite :=
  if done.contains step.1 then pure d
  else
    match Script.run (step.2.map Stmt.run ++ [insertVersion step.1]) d with
    | some d' => pure d'
    | none => throw (databaseErrorOf "Migration failed at version " (ofInt step.1))

def migrate (d : Sqlite) : Except PyError Sqlite :=
  migrations.foldlM (migrateStep (applied (createMigrations d))) (createMigrations d)

/-- A crash: the first `n` statements of `migrate` have taken effect. -/
def crash (n : Nat) (d : Sqlite) : Option Sqlite :=
  let todo := migrations.filter fun step => !(applied d).contains step.1
  Script.run (((fun d => some (createMigrations d)) ::
    todo.flatMap fun step => step.2.map Stmt.run ++ [insertVersion step.1]).take n) d

end Migrations

end Dn42Ctl
