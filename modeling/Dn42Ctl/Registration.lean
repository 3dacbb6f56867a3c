import Dn42Ctl.Credential
import Dn42Ctl.Registry
import Dn42Ctl.RenderAgreement

/-!
# Registration

`run_self_registration` and `rotate_token` against `node.toml`.

* `RegistrationKept` — the three places agree after a call, the next call leaves
  them, and a file that is replaced keeps its settings;
* `registration_kept_iff` — this is so except where a loadable file with
  settings of its own does not have the credential.
-/

namespace Dn42Ctl

open Text Txn

/-! ## coherence -/

/-- The three places agree: the id in `self_node_id` is the self node's, and
`node.toml` loads with this id and a token that verifies against its hash. -/
structure Coherent (host : SelfHost) (db : Db) (disk : Disk) (nodeId : Str) : Prop where
  names : host.Names disk nodeId
  self : db.SelfIs nodeId
  credential : ∃ hash config, db.tokenHash nodeId = some hash ∧ host.load disk = .ok config ∧
    config.nodeId = nodeId ∧ verifyToken host.sha256 hash config.token = true

section Coherence

variable {host : SelfHost} {call : RegisterCall} {db db' : Db} {disk disk' : Disk} {n : Str}

/-- A hash that verifies is ASCII. -/
theorem isAscii_of_verifyToken {hash token : Str}
    (h : verifyToken host.sha256 hash token = true) : IsAscii hash := by
  rw [verifyToken, beq_iff_eq] at h
  rw [h]
  exact isAscii_hashToken host.sha256_ascii token

/-- A host that agrees with its row needs no new token. -/
theorem Coherent.needsNone (h : Coherent host db disk n) :
    needsNewToken host disk n (db.tokenHash n) = .ok false := by
  obtain ⟨hash, config, hhash, hload, hid, hverify⟩ := h.credential
  exact needsNewToken_false_iff.mpr
    ⟨hash, config, hhash, hload, hid, isAscii_of_verifyToken hverify, hverify⟩

/-- What the registration writes is a valid node configuration. -/
theorem valid_nodeConfig (call : RegisterCall) (hne : n ≠ []) : (call.nodeConfig n).Valid where
  server := call.serverUrl_ne
  nodeId := hne
  token := call.token_ne
  cacheDbPath := PosixPath.canonical_ofStr _
  agent := defaultAgentTable_positive

/-- A token verifies against its own hash. -/
theorem verifyToken_self (sha256 : Str → Str) (token : Str) :
    verifyToken sha256 (hashToken sha256 token) token = true := by
  rw [verifyToken, beq_self_eq_true]

/-- What the registration wrote is loaded. -/
theorem load_issued (hne : n ≠ [])
    (ht : host.toml.RoundTrips (nodeConfigDocument (call.nodeConfig n)))
    (hfile : disk'.read host.nodeTomlPath =
      some (.text (host.toml.dumps (nodeConfigDocument (call.nodeConfig n))))) :
    host.load disk' = .ok (call.nodeConfig n).stored := by
  rw [SelfHost.load, hfile]
  exact loadNodeConfig_document _ _ ht (valid_nodeConfig call hne)

/-- After a complete registration the host agrees with its row. -/
theorem RegistrationDone.coherent {r : SelfRegistrationResult}
    (h : RegistrationDone host call db db' disk disk' r)
    (ht : host.toml.RoundTrips (nodeConfigDocument (call.nodeConfig r.nodeId))) :
    Coherent host db' disk' r.nodeId := by
  refine ⟨h.names, h.self, ?_⟩
  cases hrotated : r.rotatedToken with
  | false =>
      obtain ⟨hsame, hkept⟩ := h.kept hrotated
      have hneeds := h.needs
      rw [hrotated] at hneeds
      obtain ⟨hash, config, hhash, hload, hid, -, hverify⟩ := needsNewToken_false_iff.mp hneeds
      exact ⟨hash, config, hkept.trans hhash, (load_congr hsame).trans hload, hid, hverify⟩
  | true =>
      obtain ⟨hfile, hhash⟩ := h.issued hrotated
      obtain ⟨-, hid, htoken⟩ := stored_credential (call.nodeConfig r.nodeId)
      refine ⟨_, _, hhash, load_issued h.ne ht hfile, hid, ?_⟩
      rw [htoken]
      exact verifyToken_self _ _

/-- Where the places agree, a call leaves the files and every hash, whether it
returns or raises. -/
theorem Coherent.settled (h : Coherent host db disk n) (hne : n ≠ []) (call : RegisterCall)
    (io : FileIo) (fault : Option Nat) (late : Bool) {s : Conn Db × Disk}
    {res : Except (Exc PyError) SelfRegistrationResult}
    (hrun : (runSelfRegistration host call io).run (Conn.fresh db fault late, disk) = (res, s)) :
    s.2 = disk ∧ (∀ m, s.1.committed.tokenHash m = db.tokenHash m) ∧
      ∀ r, res = .ok r → r.nodeId = n ∧ r.rotatedToken = false := by
  have hkept : ∀ m, ((registerSelfNode call n).run (Conn.fresh db fault late)).2.committed.tokenHash
      m = db.tokenHash m :=
    fun m => (preserves_registerSelfNode call n m (db.tokenHash m) _ rfl rfl).1
  rw [runSelfRegistration,
    Prog.run_bind_ok (run_onDisk_ok (readOrCreateSelfNodeId_again h.names hne) _)] at hrun
  cases hreg : (registerSelfNode call n).run (Conn.fresh db fault late) with
  | mk regResult c =>
      rw [hreg] at hkept
      have hdb : (onDb (registerSelfNode call n)).run (Conn.fresh db fault late, disk) =
          (regResult, c, disk) := by
        show (((registerSelfNode call n).run _).1, ((registerSelfNode call n).run _).2, disk) = _
        rw [hreg]
      cases regResult with
      | error e =>
          rw [Prog.run_bind_error hdb] at hrun
          cases hrun
          exact ⟨rfl, hkept, fun r hr => (by cases hr)⟩
      | ok registered =>
          obtain ⟨-, -, hhash, -, -, -⟩ := registerSelfNode_ok (Conn.fresh_clean db fault late) hreg
          have hneeds : needsNewToken host disk n registered.1.apiTokenHash = .ok false := by
            rw [hhash]
            exact h.needsNone
          rw [Prog.run_bind_ok hdb, Prog.run_bind_ok (run_onDisk_ok (Prog.run_read ..) _), id_eq,
            hneeds] at hrun
          cases hrun
          refine ⟨rfl, hkept, fun r hr => ?_⟩
          cases hr
          exact ⟨rfl, rfl⟩

end Coherence

/-! ## a call in which nothing fails -/

section Calm

variable {host : SelfHost} {call : RegisterCall} {db : Db} {disk : Disk} {n : Str}

theorem run_writeFile_calm (path : PosixPath) (s : Str) (disk : Disk) :
    (writeFile .calm path s).run disk = (.ok (), disk.write path (.text s)) := rfl

/-- The id that a call registers is found or made. -/
theorem run_readOrCreateSelfNodeId_calm (h : call.registers host disk = some n) :
    ∃ created disk', (readOrCreateSelfNodeId host call .calm).run disk =
      (.ok (n, created), disk') := by
  have hcreate : (createSelfNodeId host call .calm).run disk =
      (.ok (call.uuid, true), disk.write host.selfNodeIdPath (.text (call.uuid ++ lit "\n"))) := by
    rw [createSelfNodeId, Prog.run_bind_ok (run_writeFile_calm ..)]
    rfl
  rw [readOrCreateSelfNodeId, Prog.run_bind_ok (Prog.run_read ..)]
  unfold RegisterCall.registers at h
  cases hfile : disk.read host.selfNodeIdPath with
  | none =>
      simp only [hfile, Option.some.injEq] at h
      rw [← h]
      exact ⟨_, _, hcreate⟩
  | some content =>
      simp only [hfile] at h
      cases htext : content.readText with
      | none =>
          rw [htext] at h
          cases h
      | some text =>
          simp only [htext] at h ⊢
          split at h
          · next hempty =>
              cases h
              rw [if_pos hempty]
              exact ⟨_, _, hcreate⟩
          · next hempty =>
              split at h
              · cases h
                rw [if_neg hempty]
                exact ⟨_, _, rfl⟩
              · cases h

/-- The identifier a registration registers can be bound. -/
theorem registers_encodable (h : call.registers host disk = some n) : encodable n = true := by
  unfold RegisterCall.registers at h
  split at h
  · cases h
    exact encodable_uuid call
  · split at h
    · cases h
    · split at h
      · cases h
        exact encodable_uuid call
      · split at h
        · next henc =>
            cases h
            exact henc
        · cases h

theorem params_single (h : encodable n = true) : params [.text n] = none :=
  params_eq_none.mpr fun p hp => by
    rw [List.mem_singleton.mp hp]
    exact convert_text.mpr h

/-- An update that binds its parameters returns the row. -/
theorem eval_updateFields_returns {now : Str} {fields : NodeFields}
    {events : List (Str × SyncKind)} (hnode : (db.getNode n).isSome)
    (hbind : params (fields.params ++ [.text n]) = none)
    (hevents : ∀ e ∈ events, params [.text e.1] = none) :
    ∃ row db', eval (ManagedNodeStore.updateFields now n fields events) db = (.ok row, db') := by
  obtain ⟨t, hemit⟩ :=
    run_emitAll_of_bind now db (db.updateNodes n (fields.apply now)).2 true false hevents
  have hcount : ((db.updateNodes n (fields.apply now)).1 == 0) = false := by
    rw [beq_eq_false_iff_ne, Db.updateNodes, ne_eq, countP_eq_zero_iff_find?]
    exact Option.isSome_iff_ne_none.mp hnode
  have hexec : (Txn.execute none fun db => .ok (db.updateNodes n (fields.apply now)) : DbTx Nat).run
      ⟨db, db, false, none, false⟩ = (.ok (db.updateNodes n (fields.apply now)).1,
        ⟨db, (db.updateNodes n (fields.apply now)).2, true, none, false⟩) := rfl
  have hthere :
      (((db.updateNodes n (fields.apply now)).2.emitAll now events).getNode n).isSome := by
    rw [Db.getNode, emitAll_managedNodes]
    exact isSome_getNode_apply hnode
  obtain ⟨row, hrow⟩ := Option.isSome_iff_exists.mp hthere
  refine ⟨row, ((db.updateNodes n (fields.apply now)).2).emitAll now events,
    eval_eq_ok.mpr ⟨Conn.fresh _ none false, ?_, rfl⟩⟩
  rw [ManagedNodeStore.updateFields, Prog.run_bind, run_guarded, Conn.fresh, hbind,
    Prog.run_bind_ok hexec, hcount, abortIf, if_neg Bool.false_ne_true,
    Prog.run_bind_ok (Prog.run_pure ..), Prog.run_bind_ok (Prog.run_forM_nil ..),
    Prog.run_bind_ok hemit]
  exact run_readBack_eq_ok.mpr ⟨(params_append.mp hbind).2, hrow, rfl⟩

/-- The address update returns when the row is there and its values bind. -/
theorem eval_setAddresses_returns (now : Str) {host v6 rid : Patch (Option Str)}
    (hnode : (db.getNode n).isSome)
    (hbind : params ((NodeFields.params
      { endpointHost := host, ownIpv6 := v6, routerId := rid }) ++ [.text n]) = none) :
    ∃ row db', eval (ManagedNodeStore.setAddresses now n host v6 rid) db = (.ok row, db') := by
  have hn : params [.text n] = none := (params_append.mp hbind).2
  rw [ManagedNodeStore.setAddresses]
  split
  · obtain ⟨row, hrow⟩ := Option.isSome_iff_exists.mp hnode
    exact ⟨row, db, eval_eq_ok.mpr ⟨_, run_readBack_eq_ok.mpr ⟨hn, hrow, rfl⟩, rfl⟩⟩
  · refine eval_updateFields_returns hnode hbind fun e he => ?_
    split at he
    · rw [List.mem_singleton.mp he]
      exact hn
    · cases he

/-- The seeded addresses are the ones of `config.toml`. -/
theorem eval_seedAddresses_returns (call : RegisterCall) (henc : encodable n = true)
    (hnode : (db.getNode n).isSome) (node : ManagedNode) :
    ∃ seeded db', eval (seedAddresses call n node) db = (.ok seeded, db') := by
  cases hconfig : call.appConfig with
  | none =>
      rw [seedAddresses, hconfig]
      exact ⟨_, _, eval_pure.mpr ⟨rfl, rfl⟩⟩
  | some config =>
      obtain ⟨hv6, hrid⟩ := call.appConfig_encodable config hconfig
      rw [seedAddresses, hconfig]
      dsimp only
      split
      · have hbind : ∀ a b : Bool, params ((NodeFields.params
            { endpointHost := .unset,
              ownIpv6 := if a = true then .set (some config.ownIpv6) else .unset,
              routerId := if b = true then .set (some config.routerId) else .unset }) ++
              [.text n]) = none := by
          intro a b
          cases a <;> cases b <;>
            simp [NodeFields.params, Patch.optionParam, params_eq_none, convert_text,
              convert_ofOption, henc, hv6, hrid]
        obtain ⟨row, db', hset⟩ := eval_setAddresses_returns (call.clock 1) hnode (hbind _ _)
        exact ⟨_, db', (Settles.of_atomic (atomic_setAddresses ..)).eval_bind.mpr
          ⟨row, db', hset, eval_pure.mpr ⟨rfl, rfl⟩⟩⟩
      · exact ⟨_, _, eval_pure.mpr ⟨rfl, rfl⟩⟩

/-- The row is inserted or found, and the call returns. -/
theorem eval_registerSelfNode_returns (call : RegisterCall) (db : Db)
    (henc : encodable n = true) :
    ∃ x db', eval (registerSelfNode call n) db = (.ok x, db') := by
  obtain ⟨existing, hread⟩ : ∃ x, eval ManagedNodeStore.getSelf db = (.ok x, db) := ⟨_, rfl⟩
  have hself : encodable (lit "self") = true := by decide
  obtain ⟨-, row, hupsert⟩ | ⟨b, hb, -⟩ := eval_upsertSelf_cases (call.clock 0) n (lit "self") db
  · obtain ⟨-, -, hrow⟩ := eval_upsertSelf_row hupsert
    have hthere : ((db.register (call.clock 0) n (lit "self")).getNode n).isSome := by
      rw [hrow]
      rfl
    obtain ⟨seeded, db', hseed⟩ := eval_seedAddresses_returns call henc hthere row
    exact ⟨_, db', (Settles.of_readOnly (.queryOr ..)).eval_bind.mpr ⟨_, _, hread,
      (Settles.of_atomic (atomic_upsertSelf ..)).eval_bind.mpr ⟨row, _, hupsert,
        (Settles.of_atomic (atomic_seedAddresses ..)).eval_bind.mpr ⟨seeded, db', hseed,
          eval_pure.mpr ⟨rfl, rfl⟩⟩⟩⟩⟩
  · have hnone : params [.text n, .text (lit "self")] = none :=
      params_eq_none.mpr fun p hp => by
        obtain rfl | hp := List.mem_cons.mp hp
        · exact convert_text.mpr henc
        · rw [List.mem_singleton.mp hp]
          exact convert_text.mpr hself
    rw [hnone] at hb
    cases hb

/-- The hash is stored when the row is there. -/
theorem eval_setTokenHash_returns (now : Str) {hash : Str} (henc : encodable n = true)
    (hhash : encodable hash = true) (hnode : (db.getNode n).isSome) :
    ∃ db', eval (ManagedNodeStore.setTokenHash now n hash) db = (.ok (), db') := by
  have hbind : params [.text hash, .text n] = none := params_eq_none.mpr fun p hp => by
    obtain rfl | hp := List.mem_cons.mp hp
    · exact convert_text.mpr hhash
    · rw [List.mem_singleton.mp hp]
      exact convert_text.mpr henc
  let setHash : ManagedNode → ManagedNode :=
    fun m => { m with apiTokenHash := some hash, updatedAt := now }
  have hcount : ((db.updateNodes n setHash).1 == 0) = false := by
    rw [beq_eq_false_iff_ne, Db.updateNodes, ne_eq, countP_eq_zero_iff_find?]
    exact Option.isSome_iff_ne_none.mp hnode
  have hexec : (Txn.execute none fun db => .ok (db.updateNodes n setHash) : DbTx Nat).run
      ⟨db, db, false, none, false⟩ = (.ok (db.updateNodes n setHash).1,
        ⟨db, (db.updateNodes n setHash).2, true, none, false⟩) := rfl
  have hemit : (emitSyncEvent now n .accessRevoked).run
      ⟨db, (db.updateNodes n setHash).2, true, none, false⟩ =
        (.ok (), ⟨db, (db.updateNodes n setHash).2.emit now n .accessRevoked, true, none, false⟩) :=
    run_emitSyncEvent_eq_ok.mpr ⟨params_single henc, rfl⟩
  refine ⟨(db.updateNodes n setHash).2.emit now n .accessRevoked,
    eval_eq_ok.mpr ⟨Conn.fresh _ none false, ?_, rfl⟩⟩
  rw [ManagedNodeStore.setTokenHash, run_guarded_eq_ok, Conn.fresh, hbind, Prog.run_bind_ok hexec,
    hcount, abortIf, if_neg Bool.false_ne_true, Prog.run_bind_ok (Prog.run_pure ..),
    Prog.run_bind_ok hemit]
  rfl

/-- An ASCII text can be bound. -/
theorem encodable_of_isAscii {s : Str} (h : IsAscii s) : encodable s = true :=
  encodable_of_small fun c hc => (h c hc).trans (by decide)

/-- Where a token is needed and nothing fails, the call issues it. -/
theorem runSelfRegistration_calm (hregisters : call.registers host disk = some n)
    (hneeds : needsNewToken host disk n (db.tokenHash n) = .ok true) :
    ∃ r c' disk', (runSelfRegistration host call .calm).run (Conn.fresh db none false, disk) =
      (.ok r, c', disk') ∧ r.nodeId = n ∧ r.rotatedToken = true := by
  have henc := registers_encodable hregisters
  obtain ⟨created, disk1, hid⟩ := run_readOrCreateSelfNodeId_calm hregisters
  obtain ⟨-, -, hsame, -⟩ := readOrCreateSelfNodeId_ok hid
  obtain ⟨registered, db1, hregistered⟩ := eval_registerSelfNode_returns call db henc
  have hsettles : Settles (registerSelfNode call n) :=
    .bind (.of_readOnly (.queryOr ..)) fun _ => .bind (.of_atomic (atomic_upsertSelf ..)) fun _ =>
      .bind (.of_atomic (atomic_seedAddresses ..)) fun _ => .pure _
  obtain ⟨-, -, hhash, -, -, hnode⟩ :=
    registerSelfNode_ok (Conn.fresh_clean db none false) (hsettles.run_eq_ok.mp hregistered)
  have hthere : (db1.getNode n).isSome := hnode
  have hrotated : needsNewToken host disk1 n registered.1.apiTokenHash = .ok true := by
    rw [hhash, needsNewToken_congr hsame]
    exact hneeds
  obtain ⟨db2, hset⟩ := eval_setTokenHash_returns (call.clock 2) henc
    (encodable_of_isAscii (isAscii_hashToken host.sha256_ascii call.token)) hthere
  rw [runSelfRegistration, Prog.run_bind_ok (run_onDisk_ok hid _),
    Prog.run_bind_ok (run_onDb_of_eval hsettles hregistered _),
    Prog.run_bind_ok (run_onDisk_ok (Prog.run_read ..) _), id_eq, hrotated]
  have hissue : (issueSelfToken host call .calm n).run (Conn.fresh db1 none false, disk1) =
      (.ok (), Conn.fresh db2 none false, disk1.write host.nodeTomlPath
        (.text (host.toml.dumps (nodeConfigDocument (call.nodeConfig n))))) := by
    rw [issueSelfToken,
      Prog.run_bind_ok (run_onDb_of_eval (.of_atomic (atomic_setTokenHash ..)) hset _)]
    exact run_onDisk_ok (run_writeFile_calm ..) _
  have hlift : (Prog.lift ((Except.ok true : Except PyError Bool).mapError Exc.raised) :
      PeerTx Bool).run (Conn.fresh db1 none false, disk1) =
        (.ok true, Conn.fresh db1 none false, disk1) := rfl
  exact ⟨_, _, _, (Prog.run_bind_ok hlift).trans (Prog.run_bind_ok hissue), rfl, rfl⟩

end Calm

/-! ## the settings -/

/-- A file that loads does so afterwards, with the settings it had. -/
def SelfHost.Preserves (host : SelfHost) (disk disk' : Disk) : Prop :=
  ∀ old, host.load disk = .ok old → ∃ new, host.load disk' = .ok new ∧ old.Keeps new

/-- The settings are the defaults, as in a file that is built from the
credential. -/
structure NodeConfig.Plain (config : NodeConfig) : Prop where
  cacheDbPath : config.cacheDbPath = nodeCacheDbPath
  agent : config.agent.reprs = defaultAgentTable.reprs
  reloadPolicy : config.reloadPolicy = .auto

section Settings

variable {host : SelfHost} {call : RegisterCall} {rotation : RotateCall} {io : FileIo}
  {db db' : Db} {disk disk' : Disk} {c c' : Conn Db} {n : Str}

theorem keeps_refl (config : NodeConfig) : config.Keeps config := ⟨rfl, rfl, rfl⟩

/-- A file written anew keeps a configuration exactly when that one is plain. -/
theorem keeps_nodeConfig_iff {old : NodeConfig} :
    old.Keeps (call.nodeConfig n).stored ↔ old.Plain := by
  have hstored : (call.nodeConfig n).stored = call.nodeConfig n := by
    unfold NodeConfig.stored
    split <;> rfl
  rw [hstored]
  exact ⟨fun h => ⟨h.cacheDbPath.symm, h.agent.symm, h.reloadPolicy.symm⟩,
    fun h => ⟨h.cacheDbPath.symm, h.agent.symm, h.reloadPolicy.symm⟩⟩

/-- A call keeps the settings if it leaves the file, or the settings are the
defaults. -/
theorem RegistrationDone.preserves {r : SelfRegistrationResult}
    (h : RegistrationDone host call db db' disk disk' r)
    (ht : host.toml.RoundTrips (nodeConfigDocument (call.nodeConfig r.nodeId)))
    (hplain : ∀ config, host.load disk = .ok config →
      config.Plain ∨ host.Holds config r.nodeId (db.tokenHash r.nodeId)) :
    host.Preserves disk disk' := by
  intro old hold
  cases hrotated : r.rotatedToken with
  | false => exact ⟨old, (load_congr (h.kept hrotated).1).trans hold, keeps_refl old⟩
  | true =>
      have hneeds := h.needs
      rw [hrotated] at hneeds
      obtain hdefault | hholds := hplain old hold
      · exact ⟨_, load_issued h.ne ht (h.issued hrotated).1, keeps_nodeConfig_iff.mpr hdefault⟩
      · exact absurd hholds ((needsNewToken_true_iff hold).mp hneeds)

/-- A rewrite that wrote the file wrote what it had loaded, with the token exchanged. -/
theorem rewriteSelfNodeToml_ok (h : (rewriteSelfNodeToml host rotation io).run disk =
      (.ok none, disk')) :
    ∃ existing, host.load disk = .ok existing ∧ disk' = disk.write host.nodeTomlPath
      (.text (host.toml.dumps (nodeConfigDocument
        { existing with nodeId := rotation.nodeId, token := rotation.token }))) := by
  rw [rewriteSelfNodeToml, Prog.run_bind_ok (Prog.run_read ..), id_eq] at h
  cases hload : host.load disk with
  | error e =>
      rw [hload] at h
      cases e with
      | nodeConfigError text => cases h
      | overflowError => cases h
  | ok existing =>
      simp only [hload] at h
      rw [Prog.run_catching] at h
      cases hsave : (saveNodeConfig io host
          { existing with nodeId := rotation.nodeId, token := rotation.token }).run disk with
      | mk r d =>
          cases r with
          | ok u =>
              rw [Prog.run_bind_ok hsave] at h
              cases h
              exact ⟨existing, rfl, writeFile_ok hsave⟩
          | error e =>
              rw [Prog.run_bind_error hsave] at h
              dsimp only at h
              split at h
              · cases h
              · cases h

/-- `rotate_token` replaces the credential and keeps the settings. -/
theorem rotateToken_preserves {r : RotatedToken}
    (ht : ∀ old, isUuid rotation.nodeId = true → host.load disk = .ok old →
      host.toml.RoundTrips (nodeConfigDocument
        { old with nodeId := rotation.nodeId, token := rotation.token }))
    (h : (NodeAdmin.rotateToken host rotation io).run (c, disk) = (.ok r, c', disk'))
    (hupdated : r.selfNodeTomlUpdated = true) : host.Preserves disk disk' := by
  intro old hold
  obtain ⟨node, c1, hstore, h1⟩ := bind_onDb h
  split at h1
  · obtain ⟨error, d1, hrewrite, h2⟩ := bind_onDisk h1
    cases h2
    have herror : error = none := Option.isNone_iff_eq_none.mp hupdated
    rw [herror] at hrewrite
    obtain ⟨existing, hload, rfl⟩ := rewriteSelfNodeToml_ok hrewrite
    have hsame : existing = old := Except.ok.inj (hload.symm.trans hold)
    rw [hsame]
    have hv := loadNodeConfig_valid hold
    have huuid : isUuid rotation.nodeId = true := by
      obtain ⟨nodeId, c2, hcheck, -⟩ := Prog.run_bind_eq_ok.mp hstore
      obtain ⟨hvalid, -⟩ := run_check_eq_ok.mp hcheck
      unfold validateNodeId at hvalid
      split at hvalid
      · assumption
      · cases hvalid
    have hnode : rotation.nodeId ≠ [] := by
      intro hempty
      rw [hempty] at huuid
      cases huuid
    have hvalid : ({ old with nodeId := rotation.nodeId, token := rotation.token } :
        NodeConfig).Valid := ⟨hv.server, hnode, rotation.token_ne, hv.cacheDbPath, hv.agent⟩
    refine ⟨NodeConfig.stored { old with nodeId := rotation.nodeId, token := rotation.token },
      ?_, ?_⟩
    · rw [SelfHost.load, Disk.read_write_self]
      exact loadNodeConfig_document _ _ (ht old huuid hold) hvalid
    · have hkeeps := keeps_stored
        { old with nodeId := rotation.nodeId, token := rotation.token }
      exact ⟨hkeeps.cacheDbPath, hkeeps.agent, hkeeps.reloadPolicy⟩
  · cases h1
    cases hupdated

end Settings

/-! ## the property -/

/-- What a registration, and a rotation of the self node's token, owe to the
three places. -/
structure RegistrationKept (host : SelfHost) (call : RegisterCall) (rotation : RotateCall)
    (db : Db) (disk : Disk) : Prop where
  /-- The places agree after a call. -/
  coherent : ∀ io fault late r c' disk',
    (runSelfRegistration host call io).run (Conn.fresh db fault late, disk) = (.ok r, c', disk') →
      Coherent host c'.committed disk' r.nodeId
  /-- The next call leaves the token and the files. -/
  settled : ∀ io fault late r c' disk',
    (runSelfRegistration host call io).run (Conn.fresh db fault late, disk) = (.ok r, c', disk') →
      ∀ next io' fault' late' res s, (runSelfRegistration host next io').run
          (Conn.fresh c'.committed fault' late', disk') = (res, s) →
        s.2 = disk' ∧ (∀ n, s.1.committed.tokenHash n = c'.committed.tokenHash n) ∧
          ∀ r', res = .ok r' → r'.rotatedToken = false
  /-- The call keeps the settings. -/
  kept : ∀ io fault late r c' disk',
    (runSelfRegistration host call io).run (Conn.fresh db fault late, disk) = (.ok r, c', disk') →
      host.Preserves disk disk'
  /-- The rotation keeps the settings. -/
  rotated : ∀ io fault late r c' disk',
    (NodeAdmin.rotateToken host rotation io).run (Conn.fresh db fault late, disk) =
      (.ok r, c', disk') → r.selfNodeTomlUpdated = true → host.Preserves disk disk'

/-- Settings are lost where the credential has to be replaced. -/
theorem not_kept_of_settings {host : SelfHost} {call : RegisterCall} {rotation : RotateCall}
    {db : Db} {disk : Disk} {n : Str} {config : NodeConfig}
    (ht : host.toml.RoundTrips (nodeConfigDocument (call.nodeConfig n)))
    (hregisters : call.registers host disk = some n) (hload : host.load disk = .ok config)
    (hplain : ¬ config.Plain) (hholds : ¬ host.Holds config n (db.tokenHash n)) :
    ¬ RegistrationKept host call rotation db disk := by
  intro hkept
  obtain ⟨r, c', disk', hrun, hid, hrotated⟩ :=
    runSelfRegistration_calm hregisters ((needsNewToken_true_iff hload).mpr hholds)
  have hdone := runSelfRegistration_ok hrun
  obtain ⟨new, hnew, hkeeps⟩ := hkept.kept _ _ _ _ _ _ hrun config hload
  have hissued := load_issued hdone.ne (hid ▸ ht) (hdone.issued hrotated).1
  rw [Except.ok.inj (hnew.symm.trans hissued)] at hkeeps
  exact hplain (keeps_nodeConfig_iff.mp hkeeps)

/-- The registration keeps what it owes exactly where a loadable `node.toml` has
no settings of its own, or already has the credential. -/
theorem registration_kept_iff (host : SelfHost) (call : RegisterCall) (rotation : RotateCall)
    (db : Db) (disk : Disk)
    (ht : ∀ n, call.registers host disk = some n →
      host.toml.RoundTrips (nodeConfigDocument (call.nodeConfig n)))
    (htr : ∀ old, isUuid rotation.nodeId = true → host.load disk = .ok old →
      host.toml.RoundTrips (nodeConfigDocument
        { old with nodeId := rotation.nodeId, token := rotation.token })) :
    RegistrationKept host call rotation db disk ↔
      ∀ n config, call.registers host disk = some n → host.load disk = .ok config →
        config.Plain ∨ host.Holds config n (db.tokenHash n) := by
  constructor
  · intro hkept n config hregisters hload
    by_contra hcontra
    rw [not_or] at hcontra
    exact not_kept_of_settings (ht n hregisters) hregisters hload hcontra.1 hcontra.2 hkept
  · intro h
    refine ⟨?_, ?_, ?_, ?_⟩
    · intro io fault late r c' disk' hrun
      exact (runSelfRegistration_ok hrun).coherent (ht _ (runSelfRegistration_ok hrun).registers)
    · intro io fault late r c' disk' hrun next io' fault' late' res s hagain
      have hdone := runSelfRegistration_ok hrun
      obtain ⟨hdisk, hhash, hres⟩ :=
        (hdone.coherent (ht _ hdone.registers)).settled hdone.ne next io' fault' late' hagain
      exact ⟨hdisk, hhash, fun r' hr' => (hres r' hr').2⟩
    · intro io fault late r c' disk' hrun
      have hdone := runSelfRegistration_ok hrun
      exact hdone.preserves (ht _ hdone.registers) fun config => h r.nodeId config hdone.registers
    · intro io fault late r c' disk' hrun hupdated
      exact rotateToken_preserves htr hrun hupdated

/-! ### a hub that does not reload -/

def selfId : Str := lit "5f0c2b9e-31a7-4d5b-8c55-0d9d1e6f7a21"

/-- `node.toml` of a hub whose operator chose `reload = "never"`. -/
def neverConfig : NodeConfig where
  server := lit "https://hub.example"
  nodeId := selfId
  token := lit "old"
  reloadPolicy := .never

def sampleRegisterCall : RegisterCall where
  serverUrl := lit "https://hub.example"
  appConfig := none
  clock := fun _ => lit "t1"
  uuid := lit "c1a0a6a4-7d5e-4f0e-9a55-3c2f5b8e9d10"
  token := lit "new"
  serverUrl_ne := by decide
  uuid_chars := by decide
  uuid_ne := by decide
  token_ne := by decide
  appConfig_encodable := by simp

def sampleRotation : RotateCall where
  nodeId := selfId
  now := lit "t1"
  token := lit "new"
  token_ne := by decide

/-- The documents of the two files that are written, and of the one that is there. -/
def sampleNodeDocs : List JsonObject :=
  [nodeConfigDocument neverConfig, nodeConfigDocument (sampleRegisterCall.nodeConfig selfId),
    nodeConfigDocument { neverConfig with nodeId := selfId, token := lit "new" }]

/-- A TOML library that knows some documents. -/
def TomlLib.knowingAll (dumps : JsonObject → Str) (docs : List JsonObject) : TomlLib where
  loads content := docs.find? fun doc => content = .text (dumps doc)
  dumps

theorem TomlLib.roundTrips_knowingAll {dumps : JsonObject → Str} {docs : List JsonObject}
    {doc : JsonObject} (hne : (docs.map dumps).Nodup) (hdoc : doc ∈ docs) :
    (TomlLib.knowingAll dumps docs).RoundTrips doc := by
  show (docs.find? fun doc' => Content.text (dumps doc) = .text (dumps doc')) = some doc
  cases hfind : docs.find? fun doc' => Content.text (dumps doc) = .text (dumps doc') with
  | none =>
      have hnot := List.find?_eq_none.mp hfind doc hdoc
      simp at hnot
  | some doc' =>
      have hsame := List.find?_some hfind
      rw [decide_eq_true_eq, Content.text.injEq] at hsame
      rw [List.inj_on_of_nodup_map hne hdoc (List.mem_of_find?_eq_some hfind) hsame]

def sampleNodeToml : TomlLib := .knowingAll (fun doc => unlines (tomlLines doc)) sampleNodeDocs

theorem isAscii_sampleSha256 (s : Str) : IsAscii (sampleSha256 s) := by
  unfold sampleSha256
  split <;> decide

def sampleSelfHost : SelfHost where
  toml := sampleNodeToml
  float := ⟨fun _ => none, fun _ _ _ h => by cases h⟩
  sha256 := sampleSha256
  sha256_ascii := isAscii_sampleSha256
  selfNodeIdPath := .ofStr (lit "/var/lib/dn42ctl/self_node_id")
  nodeTomlPath := .ofStr (lit "/etc/dn42ctl/node.toml")
  paths_ne := by decide +kernel

def neverDisk : Disk :=
  [(sampleSelfHost.selfNodeIdPath, .text (selfId ++ lit "\n")),
    (sampleSelfHost.nodeTomlPath, .text (sampleNodeToml.dumps (nodeConfigDocument neverConfig)))]

/-- The database that `neverDisk` belongs to. -/
def neverDb : Db :=
  { Db.empty with
    nodes := [selfId],
    managedNodes :=
      [{ nodeId := selfId, name := lit "self",
         apiTokenHash := some (hashToken sampleSha256 (lit "old")),
         writePolicy := defaultWritePolicy, enabled := true, isSelf := true, lastSeenAt := none,
         createdAt := lit "t0", updatedAt := lit "t0" }] }

theorem roundTrips_sampleNodeDocs {doc : JsonObject} (h : doc ∈ sampleNodeDocs) :
    sampleNodeToml.RoundTrips doc := by
  have hne : (sampleNodeDocs.map fun doc => unlines (tomlLines doc)).Nodup := by decide +kernel
  exact TomlLib.roundTrips_knowingAll hne h

theorem roundTrips_never : sampleNodeToml.RoundTrips (nodeConfigDocument neverConfig) :=
  roundTrips_sampleNodeDocs (.head _)

theorem roundTrips_issued :
    sampleNodeToml.RoundTrips (nodeConfigDocument (sampleRegisterCall.nodeConfig selfId)) :=
  roundTrips_sampleNodeDocs (.tail _ (.head _))

theorem roundTrips_rotated : sampleNodeToml.RoundTrips
    (nodeConfigDocument { neverConfig with nodeId := selfId, token := lit "new" }) :=
  roundTrips_sampleNodeDocs (.tail _ (.tail _ (.head _)))

theorem read_neverDisk : neverDisk.read sampleSelfHost.nodeTomlPath =
    some (.text (sampleNodeToml.dumps (nodeConfigDocument neverConfig))) := by
  have hne := sampleSelfHost.paths_ne
  have hread : ∀ (p q : PosixPath) (a b : Content), p ≠ q →
      Disk.read q [(p, a), (q, b)] = some b := by
    intro p q a b hpq
    simp [Disk.read, hpq]
  exact hread _ _ _ _ hne

theorem load_neverDisk : sampleSelfHost.load neverDisk = .ok neverConfig := by
  have hvalid : neverConfig.Valid :=
    ⟨by decide, by decide, by decide, PosixPath.canonical_ofStr _, defaultAgentTable_positive⟩
  rw [SelfHost.load, read_neverDisk]
  exact loadNodeConfig_document _ _ roundTrips_never hvalid

theorem registers_never : sampleRegisterCall.registers sampleSelfHost neverDisk = some selfId := by
  decide +kernel

/-- With its database, the hub keeps what it has. -/
theorem registration_kept_never :
    RegistrationKept sampleSelfHost sampleRegisterCall sampleRotation neverDb neverDisk := by
  refine (registration_kept_iff _ _ _ _ _ ?_ ?_).mpr ?_
  · intro n hn
    rw [registers_never, Option.some.injEq] at hn
    rw [← hn]
    exact roundTrips_issued
  · intro old _ hload
    rw [load_neverDisk, Except.ok.injEq] at hload
    rw [← hload]
    exact roundTrips_rotated
  · intro n config hn hload
    rw [registers_never, Option.some.injEq] at hn
    rw [load_neverDisk, Except.ok.injEq] at hload
    rw [← hn, ← hload]
    exact .inr ⟨rfl, _, rfl, fun _ => verifyToken_self _ _⟩

/-- Without it, the new token costs the hub its reload policy. -/
theorem registration_kept_fails :
    ¬ RegistrationKept sampleSelfHost sampleRegisterCall sampleRotation Db.empty neverDisk := by
  refine not_kept_of_settings roundTrips_issued registers_never load_neverDisk ?_ ?_
  · intro h
    cases h.reloadPolicy
  · rintro ⟨-, hash, hhash, -⟩
    cases hhash

end Dn42Ctl
