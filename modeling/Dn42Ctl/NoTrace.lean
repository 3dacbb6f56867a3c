import Dn42Ctl.PeerChecks

/-!
# NoTrace

A call of an operation on a peer that raises, although every operation on the
file system succeeds: does it leave the database and the files as they were?

The checks before the commit do, the renderers after it do not.
`leaves_no_trace_iff` says which calls are affected: those that are stored, and
that the renderers then refuse.
-/

namespace Dn42Ctl

open Text Txn

/-! ## traces -/

/-- The tables of the peers and the queue of events are the same. -/
structure SameTables (db db' : Db) : Prop where
  bgpPeers : db'.bgpPeers = db.bgpPeers
  ibgpPeers : db'.ibgpPeers = db.ibgpPeers
  syncEvents : db'.syncEvents = db.syncEvents

/-- If the program raises, it has stored nothing and written no file. -/
def NoTrace {α : Type} (m : PeerTx α) (db : Db) (disk : Disk) : Prop :=
  ∀ e db' disk', evalPeer m db disk = (.error e, db', disk') → SameTables db db' ∧ disk' = disk

/-- The call is stored: it passes the checks before the commit. -/
def PeerOperation.Accepted (env : PeerEnv) (config : AppConfig) : PeerOperation → Db → Prop
  | .createBgp a, db => ∃ backend port keys, a.Storable env config.nodeId backend port keys db
  | .modifyBgp a, db => ∃ backend row port, a.Modifiable config.nodeId backend row port db
  | .createIbgp a, db => ∃ peerName t, a.Storable env config.nodeId peerName t db
  | .modifyIbgp a, db =>
      ∃ backend peerName row port, a.Modifiable config.nodeId backend peerName row port db

/-- The renderers accept the arguments: an address for BIRD, and `networkd` for
the tunnel. -/
def PeerOperation.Renderable : PeerOperation → Prop
  | .createBgp a | .modifyBgp a =>
      a.peerLla ≠ [] ∧ validateNetBackend a.netBackend = .ok (lit "networkd")
  | .createIbgp a => a.peerIp ≠ [] ∧ (a.hasWg = true →
      validateNetBackend (orDefault a.netBackend (lit "networkd")) = .ok (lit "networkd"))
  | .modifyIbgp a => a.peerIp ≠ [] ∧ validateNetBackend a.netBackend = .ok (lit "networkd")

/-! ## the row first, the files after it -/

section WithFiles

variable {τ α : Type} {db db' : Db} {disk disk' : Disk}

/-- The program raises on a database in which nothing fails. -/
def Refuses (m : PeerTx α) (db : Db) (disk : Disk) : Prop :=
  ∃ e s, m.run (Conn.fresh db none false, disk) = (.error e, s)

/-- A call that does not refuse returns. -/
theorem not_refuses_iff {m : PeerTx α} :
    ¬ Refuses m db disk ↔ ∃ a s, m.run (Conn.fresh db none false, disk) = (.ok a, s) := by
  unfold Refuses
  cases m.run (Conn.fresh db none false, disk) with
  | mk r s =>
      cases r with
      | ok a => simp
      | error e => simp

/-- A program that leaves the database as it is. -/
abbrev KeepsDb (m : PeerTx α) : Prop :=
  Prog.Keeps (fun s : Conn Db × Disk => s.1.committed) m

/-- A write of a file leaves the database. -/
theorem keepsDb_onDisk (m : DiskTx α) : KeepsDb (onDisk m) := fun _ => rfl

/-- So does a read. -/
theorem keepsDb_onDb {m : DbTx α} (hm : ReadOnly m) : KeepsDb (onDb m) :=
  fun s => hm.committed s.1

/-- A program that settles, as part of a call. -/
theorem run_onDb_of_eval {m : DbTx α} (hm : Settles m) {a : α} (h : eval m db = (.ok a, db'))
    (disk : Disk) : (onDb m).run (Conn.fresh db none false, disk) =
      (.ok a, Conn.fresh db' none false, disk) := by
  have hrun := hm.run_eq_ok.mp h
  show ((m.run _).1, (m.run _).2, disk) = _
  rw [hrun]

variable {renderFiles : Bool} {store : DbTx (PeerResult × τ)} {render : τ → PeerTx (List FileSpec)}

/-- A call that raises was not stored, or its files are refused. -/
theorem withFiles_raises (hsettles : Settles store) (hkeeps : ∀ t, KeepsDb (render t))
    {e : Exc PyError} (h : evalPeer (withFiles renderFiles store render) db disk =
      (.error e, db', disk')) :
    (eval store db = (.error e, db') ∧ disk' = disk) ∨
      (renderFiles = true ∧ ∃ s, eval store db = (.ok s, db') ∧
        Refuses (render s.2) db' disk) := by
  unfold evalPeer withFiles at h
  cases hstore : eval store db with
  | mk r db1 =>
      cases r with
      | error e1 =>
          have hrun : (onDb store).run (Conn.fresh db none false, disk) =
              (.error e1, (store.run (Conn.fresh db none false)).2, disk) := by
            rw [eval, Prod.mk.injEq] at hstore
            show ((store.run _).1, _, _) = _
            rw [hstore.1]
          rw [Prog.run_bind_error hrun] at h
          cases h
          rw [eval, Prod.mk.injEq] at hstore
          exact .inl ⟨by rw [hstore.2], rfl⟩
      | ok s =>
          rw [Prog.run_bind_ok (run_onDb_of_eval hsettles hstore disk)] at h
          cases renderFiles with
          | false => cases h
          | true =>
              rw [if_pos rfl] at h
              cases hrender : (render s.2).run (Conn.fresh db1 none false, disk) with
              | mk r s' =>
                  have hsame := hkeeps s.2 (Conn.fresh db1 none false, disk)
                  rw [hrender] at hsame
                  cases r with
                  | ok files =>
                      rw [Prog.run_bind_ok hrender] at h
                      cases h
                  | error e1 =>
                      rw [Prog.run_bind_error hrender] at h
                      simp only [Prod.mk.injEq] at h
                      obtain ⟨-, rfl, -⟩ := h
                      have hdb : s'.1.committed = db1 := hsame
                      rw [hdb]
                      exact .inr ⟨rfl, s, rfl, e1, s', hrender⟩

/-- A stored call whose files are refused raises, and what it stored stays. -/
theorem withFiles_refused (hsettles : Settles store) (hkeeps : ∀ t, KeepsDb (render t))
    {s : PeerResult × τ} (hstore : eval store db = (.ok s, db'))
    (hrefuses : Refuses (render s.2) db' disk) :
    ∃ e disk', evalPeer (withFiles true store render) db disk = (.error e, db', disk') := by
  obtain ⟨e, s', hrender⟩ := hrefuses
  have hsame := hkeeps s.2 (Conn.fresh db' none false, disk)
  rw [hrender] at hsame
  refine ⟨e, s'.2, ?_⟩
  unfold evalPeer withFiles
  rw [Prog.run_bind_ok (run_onDb_of_eval hsettles hstore disk), if_pos rfl,
    Prog.run_bind_error hrender]
  exact congrArg (fun d => (Except.error e, d, s'.2)) hsame

/-- An operation that stores last leaves no trace unless its files are refused. -/
theorem noTrace_withFiles_iff (hsettles : Settles store) (hkeeps : ∀ t, KeepsDb (render t))
    (hraises : ∀ e db', eval store db = (.error e, db') → SameTables db db')
    (hstores : ∀ s db', eval store db = (.ok s, db') → ¬ SameTables db db') :
    NoTrace (withFiles renderFiles store render) db disk ↔
      (renderFiles = true → ∀ s db', eval store db = (.ok s, db') →
        ¬ Refuses (render s.2) db' disk) := by
  constructor
  · rintro h rfl s db' hstore hrefuses
    obtain ⟨e, disk', hcall⟩ := withFiles_refused hsettles hkeeps hstore hrefuses
    exact hstores s db' hstore (h e db' disk' hcall).1
  · intro h e db' disk' hcall
    obtain ⟨hstore, rfl⟩ | ⟨hrender, s, hstore, hrefuses⟩ :=
      withFiles_raises hsettles hkeeps hcall
    · exact ⟨hraises e db' hstore, rfl⟩
    · exact absurd hrefuses (h hrender s db' hstore)

end WithFiles

/-! ## the stores -/

section Stores

variable {env : PeerEnv} {cfg : Str} {db db' : Db}

/-- `create_bgp_peer` is its store, without the files. -/
theorem createBgpPeer_store (a : BgpPeerArgs) :
    createBgpPeer env cfg a = storeBgpPeer env cfg a >>= fun s => pure s.1 := by
  unfold createBgpPeer storeBgpPeer
  simp only [Prog.bind_assoc]
  refine congrArg _ (funext fun backend => congrArg _ (funext fun _ => congrArg _
    (funext fun existing => ?_)))
  split
  · rfl
  · simp only [Prog.bind_assoc]
    rfl

/-- So is `modify_bgp_peer`. -/
theorem modifyBgpPeer_restore (a : BgpPeerArgs) :
    modifyBgpPeer env cfg a = restoreBgpPeer env cfg a >>= fun s => pure s.1 := by
  unfold modifyBgpPeer restoreBgpPeer
  simp only [Prog.bind_assoc]
  refine congrArg _ (funext fun backend => congrArg _ (funext fun _ => congrArg _
    (funext fun found => ?_)))
  cases found with
  | none => rfl
  | some row =>
      simp only [Prog.bind_assoc]
      rfl

/-- And `create_ibgp_peer`. -/
theorem createIbgpPeer_store (a : IbgpPeerArgs) :
    createIbgpPeer env cfg a = storeIbgpPeer env cfg a >>= fun s => pure s.1 := by
  unfold createIbgpPeer storeIbgpPeer
  simp only [Prog.bind_assoc]
  refine congrArg _ (funext fun _ => congrArg _ (funext fun peerName => ?_))
  split
  · rfl
  · simp only [Prog.bind_assoc]
    rfl

/-- And `modify_ibgp_peer`. -/
theorem modifyIbgpPeer_restore (a : IbgpModifyArgs) :
    modifyIbgpPeer env cfg a = restoreIbgpPeer env cfg a >>= fun s => pure s.1 := by
  unfold modifyIbgpPeer restoreIbgpPeer
  simp only [Prog.bind_assoc]
  refine congrArg _ (funext fun backend => congrArg _ (funext fun _ => congrArg _
    (funext fun _ => congrArg _ (funext fun _ => congrArg _ (funext fun peerName => congrArg _
      (funext fun found => ?_))))))
  cases found with
  | none => rfl
  | some row =>
      dsimp only
      split
      · rfl
      · simp only [Prog.bind_assoc]
        rfl

/-- A store commits, or leaves the database. -/
theorem settles_storeBgpPeer (a : BgpPeerArgs) : Settles (storeBgpPeer env cfg a) := by
  refine .bind (.of_readOnly (readOnly_checkValid _)) fun backend =>
    .bind (.of_atomic (atomic_ensureNode _)) fun _ =>
    .bind (.of_readOnly (readOnly_wrapDatabaseError (.queryOr ..))) fun existing => ?_
  split
  · exact .fail _
  · exact .bind (.of_readOnly (readOnly_bgpListenPort ..)) fun _ =>
      .bind (.of_readOnly (readOnly_resolveWgKeypair ..)) fun _ =>
      .bind (.of_readOnly (readOnly_checkValid _)) fun _ =>
      .bind (.of_atomic (atomic_insertBgpPeer ..)) fun _ => .pure _

theorem settles_restoreBgpPeer (a : BgpPeerArgs) : Settles (restoreBgpPeer env cfg a) := by
  refine .bind (.of_readOnly (readOnly_checkValid _)) fun backend =>
    .bind (.of_atomic (atomic_ensureNode _)) fun _ =>
    .bind (.of_readOnly (readOnly_wrapDatabaseError (.queryOr ..))) fun found => ?_
  cases found with
  | none => exact .fail _
  | some row =>
      exact .bind (.of_readOnly (readOnly_modifiedPort ..)) fun _ =>
        .bind (.of_readOnly (readOnly_checkValid _)) fun _ =>
        .bind (.of_atomic (atomic_updateBgpPeer ..)) fun _ => .pure _

theorem settles_storeIbgpPeer (a : IbgpPeerArgs) : Settles (storeIbgpPeer env cfg a) := by
  refine .bind (.of_atomic (atomic_ensureNode _)) fun _ =>
    .bind (.of_readOnly (readOnly_check _)) fun peerName => ?_
  dsimp only
  split
  · exact .fail _
  · exact .bind (.of_readOnly (readOnly_tunnelFor ..)) fun _ =>
      .bind (.of_atomic (atomic_insertIbgpPeer ..)) fun _ => .pure _

theorem settles_restoreIbgpPeer (a : IbgpModifyArgs) : Settles (restoreIbgpPeer env cfg a) := by
  refine .bind (.of_readOnly (readOnly_checkValid _)) fun backend =>
    .bind (.of_readOnly (readOnly_checkValid _)) fun _ =>
    .bind (.of_readOnly (readOnly_checkValid _)) fun _ =>
    .bind (.of_atomic (atomic_ensureNode _)) fun _ =>
    .bind (.of_readOnly (readOnly_check _)) fun peerName =>
    .bind (.of_readOnly (readOnly_wrapDatabaseError (.queryOr ..))) fun found => ?_
  cases found with
  | none => exact .fail _
  | some row =>
      dsimp only
      split
      · exact .fail _
      · exact .bind (.of_readOnly (readOnly_modifiedPort ..)) fun _ =>
          .bind (.of_readOnly (readOnly_checkValid _)) fun _ =>
          .bind (.of_atomic (atomic_updateIbgpPeer ..)) fun _ => .pure _

/-- An operation that stores last has stored nothing when it raises. -/
theorem sameTables_of_raises {α β : Type} {m : DbTx α} {store : DbTx β} {f : β → DbTx α}
    (heq : m = store >>= f) (hsafe : ∀ I : Db → Prop, (∀ w rows, I w → I { w with nodes := rows }) →
      SafeRaise I m) {e : Exc PyError} (h : eval store db = (.error e, db')) :
    SameTables db db' := by
  have hkept := hsafe (SameTables db) fun w rows hw => ⟨hw.bgpPeers, hw.ibgpPeers, hw.syncEvents⟩
  refine hkept.eval ⟨rfl, rfl, rfl⟩ (e := e) ?_
  rw [eval, Prod.mk.injEq] at h
  have hrun : store.run (Conn.fresh db none false) =
      (.error e, (store.run (Conn.fresh db none false)).2) := Prod.ext h.1 rfl
  rw [heq, eval, Prog.run_bind_error hrun, h.2]

/-- An announced change is seen in the queue. -/
theorem not_sameTables_emit {now n : Str} {w : Db} (hseq : ∀ e ∈ db.syncEvents, e.id ≤ db.syncSeq)
    (hevents : w.syncSeq = db.syncSeq) : ¬ SameTables db (w.emit now n .desired) := by
  intro h
  have hmem : w.nextEvent now n .desired ∈ db.syncEvents := by
    rw [← h.syncEvents]
    simp only [Db.emit, Db.emitted]
    split
    · exact List.mem_filter.mpr ⟨by simp, by simp [Db.nextEvent, syncEventsKeep]⟩
    · simp
  have hle := hseq _ hmem
  simp only [Db.nextEvent, hevents] at hle
  omega

/-- A new row in `nodes` queues nothing. -/
theorem upsertNode_syncSeq {n : Str} : (db.upsertNode n).syncSeq = db.syncSeq := by
  rw [Db.upsertNode]
  split <;> rfl

end Stores

/-! ## the renderers -/

section Renderers

variable {config : AppConfig} {db : Db} {disk : Disk}

/-- A list that passes is not empty. -/
theorem validateAllowedIps_ne_nil {ips : List Str} (h : validateAllowedIpsList ips = .ok ()) :
    ips ≠ [] := by
  rintro rfl
  cases h

theorem onDisk_returns_iff {α : Type} {m : DiskTx α} {c : Conn Db} :
    (∃ a s, (onDisk m).run (c, disk) = (.ok a, s)) ↔ ∃ a disk', m.run disk = (.ok a, disk') := by
  have hrun : (onDisk m).run (c, disk) =
      ((m.run disk).1.mapError Exc.raised, c, (m.run disk).2) := rfl
  rw [hrun]
  cases m.run disk with
  | mk r disk' =>
      cases r with
      | ok a => simp [Except.mapError]
      | error e => simp [Except.mapError]

/-- The files of a BGP peer are written when its backend is known and it has an address. -/
theorem renderBgpPeer_returns_iff {peerLla : Str} {peerAsn : Int} {tunnel : NetBackendArgs} :
    (∃ files disk', (renderBgpPeer .calm config peerLla peerAsn tunnel).run disk =
      (.ok files, disk')) ↔
      peerLla ≠ [] ∧ tunnel.allowedIps ≠ [] ∧ tunnel.backend = lit "networkd" := by
  constructor
  · rintro ⟨files, disk', h⟩
    obtain ⟨bird, disk1, hbird, h⟩ := Prog.run_bind_eq_ok.mp h
    obtain ⟨tunnelFiles, disk2, htunnel, -⟩ := Prog.run_bind_eq_ok.mp h
    obtain ⟨hips, hbackend, -⟩ := writeNetBackendFiles_ok htunnel
    exact ⟨(writeBirdBgpPeer_ok hbird).1, hips, hbackend⟩
  · rintro ⟨hlla, hips, hbackend⟩
    rw [renderBgpPeer, Prog.run_bind_ok (run_writeBirdBgpPeer_calm peerAsn hlla disk),
      Prog.run_bind_ok (run_writeNetBackendFiles_calm hips hbackend _)]
    exact ⟨_, _, rfl⟩

/-- The BIRD file of an iBGP peer is written when it has an address. -/
theorem writeBirdIbgpPeer_returns_iff {name ifname peerIp : Str} :
    (∃ files disk', (writeBirdIbgpPeer .calm config name ifname peerIp).run disk =
      (.ok files, disk')) ↔ peerIp ≠ [] := by
  unfold writeBirdIbgpPeer renderBirdIbgpPeerConf
  cases peerIp with
  | nil =>
      simp only [ne_eq, not_true_eq_false, iff_false]
      rintro ⟨files, disk', h⟩
      cases h
  | cons c cs =>
      simp only [ne_eq, reduceCtorEq, not_false_eq_true, iff_true]
      exact ⟨_, _, rfl⟩

theorem run_onDisk_ok {α : Type} {m : DiskTx α} {disk' : Disk} {a : α}
    (h : m.run disk = (.ok a, disk')) (c : Conn Db) :
    (onDisk m).run (c, disk) = (.ok a, c, disk') := by
  show ((m.run disk).1.mapError Exc.raised, c, (m.run disk).2) = _
  rw [h]
  rfl

theorem run_listIbgpPeers {n : Str} (hnode : params [.text n] = none) :
    (onDb (wrapDatabaseError (Database.listIbgpPeers n))).run (Conn.fresh db none false, disk) =
      (.ok (db.listIbgpPeers n), Conn.fresh db none false, disk) := by
  unfold Database.listIbgpPeers
  rw [hnode]
  rfl

/-- The files of an iBGP peer are written when both are. -/
theorem renderIbgpPeer_returns_iff {n name peerIp : Str} {hasWg : Bool} {tunnel : NetBackendArgs}
    (hnode : params [.text n] = none) :
    (∃ files s, (renderIbgpPeer .calm config n name peerIp hasWg tunnel).run
      (Conn.fresh db none false, disk) = (.ok files, s)) ↔
      peerIp ≠ [] ∧
        (hasWg = true → tunnel.allowedIps ≠ [] ∧ tunnel.backend = lit "networkd") := by
  constructor
  · rintro ⟨files, s, h⟩
    obtain ⟨bird, s1, hbird, h⟩ := Prog.run_bind_eq_ok.mp h
    refine ⟨writeBirdIbgpPeer_returns_iff.mp (onDisk_returns_iff.mp ⟨bird, s1, hbird⟩), ?_⟩
    rintro rfl
    obtain ⟨tunnelFiles, s2, htunnel, -⟩ := Prog.run_bind_eq_ok.mp h
    obtain ⟨files1, disk2, hfiles⟩ := onDisk_returns_iff.mp ⟨tunnelFiles, s2, htunnel⟩
    obtain ⟨hips, hbackend, -⟩ := writeNetBackendFiles_ok hfiles
    exact ⟨hips, hbackend⟩
  · rintro ⟨hip, htunnel⟩
    obtain ⟨bird, disk1, hbird⟩ := writeBirdIbgpPeer_returns_iff.mpr hip
    rw [renderIbgpPeer, Prog.run_bind_ok (run_onDisk_ok hbird _)]
    cases hasWg with
    | false => exact ⟨_, _, rfl⟩
    | true =>
        obtain ⟨hips, hbackend⟩ := htunnel rfl
        rw [if_pos rfl,
          Prog.run_bind_ok (run_onDisk_ok (run_writeNetBackendFiles_calm hips hbackend disk1) _),
          Prog.run_bind_ok (run_listIbgpPeers hnode)]
        exact ⟨_, _, rfl⟩

theorem keepsDb_renderIbgpPeer (n name peerIp : Str) (hasWg : Bool) (tunnel : NetBackendArgs) :
    KeepsDb (renderIbgpPeer .calm config n name peerIp hasWg tunnel) := by
  refine .bind (keepsDb_onDisk _) fun bird => ?_
  split
  · exact .bind (keepsDb_onDisk _) fun _ =>
      .bind (keepsDb_onDb (readOnly_wrapDatabaseError (.queryOr ..))) fun _ =>
      .bind (keepsDb_onDisk _) fun _ => .pure _
  · exact .pure _

end Renderers

/-! ## the operations -/

section Operations

variable {env : PeerEnv} {config : AppConfig} {renderFiles : Bool} {db : Db} {disk : Disk}

/-- **`create_bgp_peer`** leaves no trace when its files can be written. -/
theorem noTrace_createBgp_iff {a : BgpPeerArgs}
    (hseq : ∀ e ∈ db.syncEvents, e.id ≤ db.syncSeq) :
    NoTrace (createBgpPeerFiles env .calm config renderFiles a) db disk ↔
      (renderFiles = true → (PeerOperation.createBgp a).Accepted env config db →
        (PeerOperation.createBgp a).Renderable) := by
  rw [createBgpPeerFiles, noTrace_withFiles_iff (settles_storeBgpPeer a)
    (fun t => keepsDb_onDisk _) (fun e db' h => sameTables_of_raises (createBgpPeer_store a)
      (fun I hI => safeRaise_createBgpPeer hI env config.nodeId a) h)
    (fun s db' h => by
      obtain ⟨backend, port, keys, -, -, rfl⟩ := eval_storeBgpPeer_iff.mp h
      exact not_sameTables_emit hseq upsertNode_syncSeq)]
  refine imp_congr_right fun _ => ?_
  simp only [not_refuses_iff, onDisk_returns_iff, renderBgpPeer_returns_iff]
  constructor
  · rintro h ⟨backend, port, keys, hstorable⟩
    obtain ⟨hlla, -, hbackend⟩ := h _ _ (eval_storeBgpPeer_iff.mpr
      ⟨backend, port, keys, hstorable, rfl, rfl⟩)
    exact ⟨hlla, hstorable.valid.trans (congrArg Except.ok hbackend)⟩
  · intro h s db' hstore
    obtain ⟨backend, port, keys, hstorable, rfl, -⟩ := eval_storeBgpPeer_iff.mp hstore
    obtain ⟨hlla, hnetworkd⟩ := h ⟨backend, port, keys, hstorable⟩
    exact ⟨hlla, validateAllowedIps_ne_nil hstorable.allowedIps,
      Except.ok.inj (hstorable.valid.symm.trans hnetworkd)⟩

/-- **`modify_bgp_peer`**, in the same way. -/
theorem noTrace_modifyBgp_iff {a : BgpPeerArgs}
    (hseq : ∀ e ∈ db.syncEvents, e.id ≤ db.syncSeq) :
    NoTrace (modifyBgpPeerFiles env .calm config renderFiles a) db disk ↔
      (renderFiles = true → (PeerOperation.modifyBgp a).Accepted env config db →
        (PeerOperation.modifyBgp a).Renderable) := by
  rw [modifyBgpPeerFiles, noTrace_withFiles_iff (settles_restoreBgpPeer a)
    (fun t => keepsDb_onDisk _) (fun e db' h => sameTables_of_raises (modifyBgpPeer_restore a)
      (fun I hI => safeRaise_modifyBgpPeer hI env config.nodeId a) h)
    (fun s db' h => by
      obtain ⟨backend, row, port, -, -, rfl⟩ := eval_restoreBgpPeer_iff.mp h
      exact not_sameTables_emit hseq upsertNode_syncSeq)]
  refine imp_congr_right fun _ => ?_
  simp only [not_refuses_iff, onDisk_returns_iff, renderBgpPeer_returns_iff]
  constructor
  · rintro h ⟨backend, row, port, hmodifiable⟩
    obtain ⟨hlla, -, hbackend⟩ := h _ _ (eval_restoreBgpPeer_iff.mpr
      ⟨backend, row, port, hmodifiable, rfl, rfl⟩)
    exact ⟨hlla, hmodifiable.valid.trans (congrArg Except.ok hbackend)⟩
  · intro h s db' hstore
    obtain ⟨backend, row, port, hmodifiable, rfl, -⟩ := eval_restoreBgpPeer_iff.mp hstore
    obtain ⟨hlla, hnetworkd⟩ := h ⟨backend, row, port, hmodifiable⟩
    exact ⟨hlla, validateAllowedIps_ne_nil hmodifiable.allowedIps,
      Except.ok.inj (hmodifiable.valid.symm.trans hnetworkd)⟩

/-- The node of a stored row fits a parameter. -/
theorem params_insertParams {row : IbgpRow} (h : params row.insertParams = none) :
    params [.text row.nodeId] = none :=
  params_of_subset h (List.cons_subset.mpr ⟨List.mem_cons_self, List.nil_subset _⟩)

/-- **`create_ibgp_peer`**, in the same way. -/
theorem noTrace_createIbgp_iff {a : IbgpPeerArgs}
    (hseq : ∀ e ∈ db.syncEvents, e.id ≤ db.syncSeq) :
    NoTrace (createIbgpPeerFiles env .calm config renderFiles a) db disk ↔
      (renderFiles = true → (PeerOperation.createIbgp a).Accepted env config db →
        (PeerOperation.createIbgp a).Renderable) := by
  rw [createIbgpPeerFiles, noTrace_withFiles_iff (settles_storeIbgpPeer a)
    (fun t => keepsDb_renderIbgpPeer _ _ _ _ _)
    (fun e db' h => sameTables_of_raises (createIbgpPeer_store a)
      (fun I hI => safeRaise_createIbgpPeer hI env config.nodeId a) h)
    (fun s db' h => by
      obtain ⟨peerName, t, -, -, rfl⟩ := eval_storeIbgpPeer_iff.mp h
      exact not_sameTables_emit hseq upsertNode_syncSeq)]
  refine imp_congr_right fun _ => ?_
  simp only [not_refuses_iff]
  constructor
  · rintro h ⟨peerName, t, hstorable⟩
    have hreturns := h _ _ (eval_storeIbgpPeer_iff.mpr ⟨peerName, t, hstorable, rfl, rfl⟩)
    obtain ⟨hip, htunnel⟩ :=
      (renderIbgpPeer_returns_iff (params_insertParams hstorable.bound)).mp hreturns
    refine ⟨hip, fun hwg => ?_⟩
    have hchecked := hstorable.tunnel
    rw [TunnelOf, if_pos hwg] at hchecked
    exact hchecked.backend.trans (congrArg Except.ok (htunnel hwg).2)
  · intro h s db' hstore
    obtain ⟨peerName, t, hstorable, rfl, -⟩ := eval_storeIbgpPeer_iff.mp hstore
    obtain ⟨hip, hnetworkd⟩ := h ⟨peerName, t, hstorable⟩
    refine (renderIbgpPeer_returns_iff (params_insertParams hstorable.bound)).mpr
      ⟨hip, fun hwg => ?_⟩
    have hchecked := hstorable.tunnel
    rw [TunnelOf, if_pos hwg] at hchecked
    exact ⟨validateAllowedIps_ne_nil hchecked.valid,
      Except.ok.inj (hchecked.backend.symm.trans (hnetworkd hwg))⟩

/-- **`modify_ibgp_peer`**, in the same way. -/
theorem noTrace_modifyIbgp_iff {a : IbgpModifyArgs}
    (hseq : ∀ e ∈ db.syncEvents, e.id ≤ db.syncSeq) :
    NoTrace (modifyIbgpPeerFiles env .calm config renderFiles a) db disk ↔
      (renderFiles = true → (PeerOperation.modifyIbgp a).Accepted env config db →
        (PeerOperation.modifyIbgp a).Renderable) := by
  have hnode : ∀ {backend peerName : Str} {row : IbgpRow} {port : Int},
      a.Modifiable config.nodeId backend peerName row port db →
        params [.text (orDefault a.nodeId config.nodeId)] = none :=
    fun h => params_of_subset (params_append.mp h.bound).2 (by simp)
  rw [modifyIbgpPeerFiles, noTrace_withFiles_iff (settles_restoreIbgpPeer a)
    (fun t => keepsDb_renderIbgpPeer _ _ _ _ _)
    (fun e db' h => sameTables_of_raises (modifyIbgpPeer_restore a)
      (fun I hI => safeRaise_modifyIbgpPeer hI env config.nodeId a) h)
    (fun s db' h => by
      obtain ⟨backend, peerName, row, port, -, -, rfl⟩ := eval_restoreIbgpPeer_iff.mp h
      exact not_sameTables_emit hseq upsertNode_syncSeq)]
  refine imp_congr_right fun _ => ?_
  simp only [not_refuses_iff]
  constructor
  · rintro h ⟨backend, peerName, row, port, hmodifiable⟩
    have hreturns := h _ _ (eval_restoreIbgpPeer_iff.mpr
      ⟨backend, peerName, row, port, hmodifiable, rfl, rfl⟩)
    obtain ⟨hip, htunnel⟩ := (renderIbgpPeer_returns_iff (hnode hmodifiable)).mp hreturns
    exact ⟨hip, hmodifiable.valid.trans (congrArg Except.ok (htunnel rfl).2)⟩
  · intro h s db' hstore
    obtain ⟨backend, peerName, row, port, hmodifiable, rfl, -⟩ :=
      eval_restoreIbgpPeer_iff.mp hstore
    obtain ⟨hip, hnetworkd⟩ := h ⟨backend, peerName, row, port, hmodifiable⟩
    exact (renderIbgpPeer_returns_iff (hnode hmodifiable)).mpr
      ⟨hip, fun _ => ⟨validateAllowedIps_ne_nil hmodifiable.allowedIps,
        Except.ok.inj (hmodifiable.valid.symm.trans hnetworkd)⟩⟩

end Operations

/-- **No trace of a failed call**: an operation on a peer that raises for its
arguments or the database has left the peers, the queue of events and the files
alone, if and only if it does not write files, or is not stored, or its files
can be rendered. -/
theorem leaves_no_trace_iff (env : PeerEnv) (config : AppConfig) (renderFiles : Bool)
    (op : PeerOperation) {db : Db} (hseq : ∀ e ∈ db.syncEvents, e.id ≤ db.syncSeq) (disk : Disk) :
    NoTrace (op.run env .calm config renderFiles) db disk ↔
      (renderFiles = true → op.Accepted env config db → op.Renderable) := by
  cases op with
  | createBgp a => exact noTrace_createBgp_iff hseq
  | modifyBgp a => exact noTrace_modifyBgp_iff hseq
  | createIbgp a => exact noTrace_createIbgp_iff hseq
  | modifyIbgp a => exact noTrace_modifyIbgp_iff hseq

/-! ### an unsupported backend -/

/-- A machine whose `wg` works. -/
def wgEnv : PeerEnv := ⟨lit "t0", .ok (lit "priv", lit "pub"), fun i => i⟩

/-- A new BGP peer. -/
def newPeerArgs (netBackend : Str) : BgpPeerArgs where
  peerAsn := 4242420001
  peerPublicKey := lit "k"
  endpoint := lit "example.net:1"
  peerLla := lit "fe80::1"
  netBackend := netBackend

/-- A peer with `networkd` leaves no trace when its creation raises. -/
theorem networkd_leaves_no_trace :
    NoTrace ((PeerOperation.createBgp (newPeerArgs (lit "networkd"))).run wgEnv .calm sampleConfig
      true) Db.empty [] :=
  have hseq : ∀ e ∈ Db.empty.syncEvents, e.id ≤ Db.empty.syncSeq := by
    intro e he
    cases he
  (leaves_no_trace_iff wgEnv sampleConfig true (.createBgp (newPeerArgs (lit "networkd")))
    hseq []).mpr fun _ _ => ⟨by decide, rfl⟩

/-- **An unsupported backend**: `nm` passes the check of the backend, so the peer
is stored before the renderer refuses it. -/
theorem nm_peer_left_behind :
    ¬ NoTrace ((PeerOperation.createBgp (newPeerArgs (lit "nm"))).run wgEnv .calm sampleConfig
      true) Db.empty [] := by
  intro h
  have hstorable : (newPeerArgs (lit "nm")).Storable wgEnv sampleConfig.nodeId (lit "nm") 20001
      (lit "priv", lit "pub") Db.empty := by
    refine ⟨rfl, ⟨rfl, by decide⟩, rfl, rfl, by decide +kernel, ?_⟩
    intro x hx
    cases hx
  have hseq : ∀ e ∈ Db.empty.syncEvents, e.id ≤ Db.empty.syncSeq := by
    intro e he
    cases he
  have hnetworkd := (noTrace_createBgp_iff hseq).mp h rfl ⟨_, _, _, hstorable⟩
  have hbackend := Except.ok.inj (hstorable.valid.symm.trans hnetworkd.2)
  exact absurd hbackend (by decide)

end Dn42Ctl
