import Dn42Ctl.NoTrace
import Dn42Ctl.Credential

/-!
# PeerRemoval

`delete_bgp_peer` and `delete_ibgp_peer` with their files, and the six
operations on peers as calls of one kind.

The row is deleted first, the files are removed after it from the columns the
row had.  A file that cannot be removed is reported and does not end the call:
the row is gone and the call could not be repeated.
-/

namespace Dn42Ctl

open Text Txn

/-! ## `services/core.py` -/

/-- What `delete_files_and_collect_status` reports of the files; a failure
without the text of its exception. -/
structure FileStatuses where
  deleted : List PosixPath := []
  missing : List PosixPath := []
  failed : List PosixPath := []
deriving DecidableEq, Repr

/-- `p.unlink(missing_ok=True)` under `except OSError`: whether it went through. -/
def unlinkOrReport (io : FileIo) (path : PosixPath) : DiskTx Bool :=
  Prog.catching (do unlinkMissingOk io path; pure true) fun e =>
    if e.cls = .osError then pure false else Prog.raise e

def deleteFilesAndCollectStatus (io : FileIo) : List PosixPath → DiskTx FileStatuses
  | [] => pure {}
  | p :: ps => do
      let existed ← Prog.read fun disk => (disk.read p).isSome
      let removed ← unlinkOrReport io p
      let rest ← deleteFilesAndCollectStatus io ps
      pure (if !removed then { rest with failed := p :: rest.failed }
        else if existed then { rest with deleted := p :: rest.deleted }
        else { rest with missing := p :: rest.missing })

/-- The `.netdev` and the `.network` of an interface. -/
def tunnelPaths (config : AppConfig) (ifname : Str) : List PosixPath :=
  [(PosixPath.ofStr config.networkdDir).join (ifname ++ lit ".netdev"),
   (PosixPath.ofStr config.networkdDir).join (ifname ++ lit ".network")]

/-- `kind` and `ibgp_name` of `peer_files_for_backend`. -/
inductive PeerFilesKind where
  | bgp
  | ibgp (name : Str)

def peerFilesForBackend (config : AppConfig) (ifname netBackend : Str) :
    PeerFilesKind → List PosixPath
  | .bgp =>
      (PosixPath.ofStr config.birdPeersDir).join (ifname ++ lit ".conf") ::
        if netBackend = lit "networkd" then tunnelPaths config ifname else []
  | .ibgp name =>
      (PosixPath.ofStr config.birdPeersDir).join (lit "ibgp_" ++ name ++ lit ".conf") ::
        .ofStr config.birdBabelConfPath ::
        if netBackend = lit "networkd" then tunnelPaths config ifname else []

/-! ## up to the commit -/

/-- `delete_bgp_peer` up to the commit: the row that was deleted. -/
def removeBgpPeer (env : PeerEnv) (configNodeId : Str) (peerAsn : Int) (nodeId : Option Str) :
    DbTx BgpRow := do
  let nodeId := orDefault nodeId configNodeId
  match ← wrapDatabaseError (Database.getBgpPeer nodeId peerAsn) with
  | none => failWith "该 BGP peer 不存在"
  | some row => do
      let _ ← wrapDatabaseError (Database.deleteBgpPeer env.now nodeId peerAsn)
      pure row

/-- `delete_ibgp_peer` up to the commit; the second part is the peer's name. -/
def removeIbgpPeer (env : PeerEnv) (configNodeId name : Str) (nodeId : Option Str) :
    DbTx (IbgpRow × Str) := do
  let nodeId := orDefault nodeId configNodeId
  let peerName ← check (sanitizeName name)
  match ← wrapDatabaseError (Database.getIbgpPeer nodeId peerName) with
  | none => failWith "该 iBGP peer 不存在"
  | some row => do
      let _ ← wrapDatabaseError (Database.deleteIbgpPeer env.now nodeId peerName)
      pure (row, peerName)

/-! ## the operations -/

structure DeleteResult where
  kind : Str
  peerAsn : Option Int := none
  name : Option Str := none
  files : FileStatuses
  regeneratedFiles : List PosixPath := []
deriving DecidableEq, Repr

section Operations

variable (env : PeerEnv) (io : FileIo) (config : AppConfig) (renderFiles : Bool)

def deleteBgpPeerFiles (peerAsn : Int) (nodeId : Option Str) : PeerTx DeleteResult := do
  let row ← onDb (removeBgpPeer env config.nodeId peerAsn nodeId)
  let files ← if renderFiles then
      onDisk (deleteFilesAndCollectStatus io
        (peerFilesForBackend config row.ifname row.netBackend .bgp))
    else pure {}
  pure { kind := lit "bgp", peerAsn := some peerAsn, files }

/-- The files `delete_ibgp_peer` removes: `babel.conf` is written again instead,
and a peer without a tunnel has its BIRD file only. -/
def ibgpFilesToDelete (row : IbgpRow) (peerName : Str) : List PosixPath :=
  if row.hasWg then
    (peerFilesForBackend config row.ifname row.netBackend (.ibgp peerName)).filter fun p =>
      p != .ofStr config.birdBabelConfPath
  else [(PosixPath.ofStr config.birdPeersDir).join (lit "ibgp_" ++ peerName ++ lit ".conf")]

/-- `babel.conf` from the rows that are stored. -/
def refreshBabel (nodeId : Str) : PeerTx FileSpec := do
  let rows ← onDb (wrapDatabaseError (Database.listIbgpPeers nodeId))
  onDisk (regenerateBabelConf io config rows)

def deleteIbgpPeerFiles (name : Str) (nodeId : Option Str) : PeerTx DeleteResult := do
  let removed ← onDb (removeIbgpPeer env config.nodeId name nodeId)
  let files ← if renderFiles then
      onDisk (deleteFilesAndCollectStatus io (ibgpFilesToDelete config removed.1 removed.2))
    else pure {}
  let regenerated ← if renderFiles ∧ removed.1.hasWg then do
      let babel ← refreshBabel io config (orDefault nodeId config.nodeId)
      pure [babel.path]
    else pure []
  pure { kind := lit "ibgp", name := some removed.2, files, regeneratedFiles := regenerated }

end Operations

/-- One of the six operations with its arguments. -/
inductive PeerRequest where
  | write (op : PeerOperation)
  | deleteBgp (peerAsn : Int) (nodeId : Option Str)
  | deleteIbgp (name : Str) (nodeId : Option Str)

/-- The node whose partition an operation is called for. -/
def PeerOperation.nodeId : PeerOperation → Option Str
  | .createBgp a | .modifyBgp a => a.nodeId
  | .createIbgp a => a.nodeId
  | .modifyIbgp a => a.nodeId

def PeerRequest.nodeId : PeerRequest → Option Str
  | .write op => op.nodeId
  | .deleteBgp _ n | .deleteIbgp _ n => n

/-- A call: the request, whether it renders files, and what the machine answers. -/
structure PeerFilesCall where
  env : PeerEnv
  io : FileIo
  renderFiles : Bool
  request : PeerRequest

/-- Run a call; the result is the files that could not be removed. -/
def PeerFilesCall.run (config : AppConfig) (c : PeerFilesCall) : PeerTx (List PosixPath) :=
  match c.request with
  | .write op => do
      let _ ← op.run c.env c.io config c.renderFiles
      pure []
  | .deleteBgp peerAsn nodeId => do
      let r ← deleteBgpPeerFiles c.env c.io config c.renderFiles peerAsn nodeId
      pure r.files.failed
  | .deleteIbgp name nodeId => do
      let r ← deleteIbgpPeerFiles c.env c.io config c.renderFiles name nodeId
      pure r.files.failed

/-! ## removing files -/

section Removal

variable {io : FileIo} {disk : Disk}

/-- A file that cannot be removed stays, and is told. -/
theorem run_unlinkOrReport (io : FileIo) (path : PosixPath) (disk : Disk) :
    (unlinkOrReport io path).run disk =
      (.ok (!io.unlinkFails path), if io.unlinkFails path then disk else disk.unlink path) := by
  unfold unlinkOrReport unlinkMissingOk
  cases io.unlinkFails path with
  | true => rfl
  | false => rfl

/-- **`delete_files_and_collect_status` never raises**: the files that can be
removed are gone, the others are reported. -/
theorem deleteFilesAndCollectStatus_returns (io : FileIo) (files : List PosixPath) (disk : Disk) :
    ∃ statuses, (deleteFilesAndCollectStatus io files).run disk =
        (.ok statuses, disk.unlinkAll (files.filter fun p => !io.unlinkFails p)) ∧
      statuses.failed = files.filter io.unlinkFails := by
  induction files generalizing disk with
  | nil => exact ⟨{}, rfl, rfl⟩
  | cons p ps ih =>
      obtain ⟨rest, hrest, hfailed⟩ := ih (if io.unlinkFails p then disk else disk.unlink p)
      rw [deleteFilesAndCollectStatus, Prog.run_bind_ok (Prog.run_read _ _),
        Prog.run_bind_ok (run_unlinkOrReport io p disk), Prog.run_bind_ok hrest]
      cases hp : io.unlinkFails p with
      | true =>
          refine ⟨{ rest with failed := p :: rest.failed }, ?_, ?_⟩
          · simp [hp]
          · simp [hp, hfailed]
      | false =>
          refine ⟨if (disk.read p).isSome then { rest with deleted := p :: rest.deleted }
            else { rest with missing := p :: rest.missing }, ?_, ?_⟩
          · simp [hp, Disk.unlinkAll]
          · split <;> simp [hp, hfailed]

/-- Without failures every file is gone. -/
theorem deleteFilesAndCollectStatus_ok {files : List PosixPath} {statuses : FileStatuses}
    {disk' : Disk} (h : (deleteFilesAndCollectStatus io files).run disk = (.ok statuses, disk'))
    (hfailed : statuses.failed = []) : disk' = disk.unlinkAll files := by
  obtain ⟨statuses', hrun, hfailed'⟩ := deleteFilesAndCollectStatus_returns io files disk
  rw [h, Prod.mk.injEq, Except.ok.injEq] at hrun
  obtain ⟨rfl, rfl⟩ := hrun
  rw [hfailed, eq_comm, List.filter_eq_nil_iff] at hfailed'
  rw [List.filter_eq_self.mpr fun p hp => by simpa using hfailed' p hp]

end Removal

/-! ## the deleted rows -/

section Rows

variable {env : PeerEnv} {cfg : Str} {db db' : Db} {m : Option Str}

/-- `delete_bgp_peer` without its files. -/
theorem deleteBgpPeer_remove (asn : Int) :
    deleteBgpPeer env cfg asn m = removeBgpPeer env cfg asn m >>= fun _ => pure () := by
  unfold deleteBgpPeer removeBgpPeer
  simp only [Prog.bind_assoc]
  refine congrArg _ (funext fun found => ?_)
  cases found with
  | none => rfl
  | some row =>
      simp only [Prog.bind_assoc]
      rfl

theorem deleteIbgpPeer_remove (name : Str) :
    deleteIbgpPeer env cfg name m = removeIbgpPeer env cfg name m >>= fun _ => pure () := by
  unfold deleteIbgpPeer removeIbgpPeer
  simp only [Prog.bind_assoc]
  refine congrArg _ (funext fun peerName => congrArg _ (funext fun found => ?_))
  cases found with
  | none => rfl
  | some row =>
      simp only [Prog.bind_assoc]
      rfl

/-- A BGP peer that is deleted was there. -/
theorem eval_removeBgpPeer {asn : Int} {row : BgpRow}
    (h : eval (removeBgpPeer env cfg asn m) db = (.ok row, db')) :
    db.getBgpPeer (orDefault m cfg) asn = some row ∧
      db'.bgpPeers = Rows.deleteWhere (BgpRow.is (orDefault m cfg) asn) db.bgpPeers ∧
      db'.ibgpPeers = db.ibgpPeers := by
  obtain ⟨found, h1, h⟩ := Atomic.eval_bind_read (readOnly_wrapDatabaseError (.queryOr ..)) h
  have hfound := (eval_queryOr (eval_wrapDatabaseError.mp h1)).1
  cases found with
  | none => cases h
  | some row' =>
      obtain ⟨r, mid, h2, h⟩ := (atomic_wrapDatabaseError (atomic_deletePeer ..)).eval_bind h
      obtain ⟨rfl, rfl⟩ := eval_pure.mp h
      rw [eval_deletePeer (eval_wrapDatabaseError.mp h2), ← hfound]
      exact ⟨rfl, rfl, rfl⟩

/-- An iBGP peer that is deleted was there, under its clean name. -/
theorem eval_removeIbgpPeer {name : Str} {removed : IbgpRow × Str}
    (h : eval (removeIbgpPeer env cfg name m) db = (.ok removed, db')) :
    sanitizeName name = .ok removed.2 ∧
      db.getIbgpPeer (orDefault m cfg) removed.2 = some removed.1 ∧
      db'.ibgpPeers = Rows.deleteWhere (IbgpRow.is (orDefault m cfg) removed.2) db.ibgpPeers ∧
      db'.bgpPeers = db.bgpPeers := by
  obtain ⟨peerName, hname, h⟩ := Atomic.eval_bind_read (readOnly_check _) h
  obtain ⟨found, h1, h⟩ := Atomic.eval_bind_read (readOnly_wrapDatabaseError (.queryOr ..)) h
  have hfound := (eval_queryOr (eval_wrapDatabaseError.mp h1)).1
  cases found with
  | none => cases h
  | some row' =>
      obtain ⟨r, mid, h2, h⟩ := (atomic_wrapDatabaseError (atomic_deletePeer ..)).eval_bind h
      obtain ⟨rfl, rfl⟩ := eval_pure.mp h
      rw [eval_deletePeer (eval_wrapDatabaseError.mp h2), ← hfound]
      exact ⟨(eval_check.mp hname).1, rfl, rfl, rfl⟩

/-- A deletion settles: it commits, or leaves the database. -/
theorem settles_removeBgpPeer (asn : Int) : Settles (removeBgpPeer env cfg asn m) := by
  refine .bind (.of_readOnly (readOnly_wrapDatabaseError (.queryOr ..))) fun found => ?_
  cases found with
  | none => exact .fail _
  | some row =>
      exact .bind (.of_atomic (atomic_wrapDatabaseError (atomic_deletePeer ..))) fun _ => .pure _

theorem settles_removeIbgpPeer (name : Str) : Settles (removeIbgpPeer env cfg name m) := by
  refine .bind (.of_readOnly (readOnly_check _)) fun peerName =>
    .bind (.of_readOnly (readOnly_wrapDatabaseError (.queryOr ..))) fun found => ?_
  cases found with
  | none => exact .fail _
  | some row =>
      exact .bind (.of_atomic (atomic_wrapDatabaseError (atomic_deletePeer ..))) fun _ => .pure _

end Rows

end Dn42Ctl
