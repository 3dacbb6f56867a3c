import Dn42Ctl.PeerFiles

/-!
# PeerChecks

Which calls of the four operations on peers are stored, and what is stored: one
equivalence for each operation.  The checks are predicates on the arguments
and the database (`BgpPeerArgs.Storable` and its siblings); what the helpers of
`Peers` find is said by one equivalence each.
-/

namespace Dn42Ctl

open Text Txn

/-! ## what the checks find -/

section Checks

variable {n : Str} {db db' : Db}

/-- The row in `nodes` is there afterwards, once its id can be bound. -/
theorem eval_ensureNode_iff {u : Unit} :
    eval (ensureNode n) db = (.ok u, db') ↔ params [.text n] = none ∧ db' = db.upsertNode n := by
  rw [ensureNode, eval_wrapDatabaseError, Database.ensureNode, eval_eq_ok]
  simp only [run_guarded_eq_ok]
  constructor
  · rintro ⟨c', hrun, rfl⟩
    obtain ⟨hbound, hrun⟩ := bind_modify hrun
    rw [committed_of_commit hrun]
    exact ⟨hbound, rfl⟩
  · rintro ⟨hbound, rfl⟩
    exact ⟨Conn.fresh (db.upsertNode n) none false, by rw [hbound]; rfl, rfl⟩

/-- A lookup that can be bound reads the database. -/
theorem eval_get_iff {α : Type} {msg : PyError} {bd : Option BindError} {f : Db → α} {x : α} :
    eval (wrapDatabaseError (queryOr msg bd f)) db = (.ok x, db') ↔
      bd = none ∧ x = f db ∧ db' = db := by
  rw [eval_wrapDatabaseError, eval_eq_ok]
  simp only [run_queryOr_eq_ok]
  constructor
  · rintro ⟨c', ⟨hbound, rfl, rfl⟩, rfl⟩
    exact ⟨hbound, rfl, rfl⟩
  · rintro ⟨hbound, rfl, rfl⟩
    exact ⟨_, ⟨hbound, rfl, rfl⟩, rfl⟩

/-- The ports in use. -/
theorem eval_usedListenPorts_iff {used : List Int} :
    eval (wrapDatabaseError (Database.getUsedListenPorts n)) db = (.ok used, db') ↔
      params [.text n] = none ∧ used = db.usedPorts n ∧ db' = db := by
  have hsettles : ∀ (f : Db → List Int),
      Settles (queryOr (databaseError "Failed to query listen ports") (params [.text n]) f) :=
    fun f => .of_readOnly (.queryOr ..)
  have hquery : ∀ (f : Db → List Int) (x : List Int) (mid mid' : Db),
      eval (queryOr (databaseError "Failed to query listen ports") (params [.text n]) f) mid =
        (.ok x, mid') ↔ params [.text n] = none ∧ x = f mid ∧ mid' = mid :=
    fun f x mid mid' => eval_wrapDatabaseError.symm.trans eval_get_iff
  rw [eval_wrapDatabaseError, Database.getUsedListenPorts]
  simp only [(hsettles _).eval_bind, hquery, eval_pure]
  constructor
  · rintro ⟨bgp, mid, ⟨hbound, rfl, rfl⟩, ibgp, mid', ⟨-, rfl, rfl⟩, rfl, rfl⟩
    exact ⟨hbound, rfl, rfl⟩
  · rintro ⟨hbound, rfl, rfl⟩
    exact ⟨_, _, ⟨hbound, rfl, rfl⟩, _, _, ⟨hbound, rfl, rfl⟩, rfl, rfl⟩

/-- A refusal before the rest of a program. -/
theorem eval_unless_iff {α : Type} {p : Prop} [Decidable p] {text : String} {m : DbTx α} {x : α} :
    eval (if p then failWith text else m) db = (.ok x, db') ↔
      ¬ p ∧ eval m db = (.ok x, db') := by
  split
  · next hp =>
      constructor
      · intro h
        cases h
      · intro h
        exact absurd hp h.1
  · next hp => exact ⟨fun h => ⟨hp, h⟩, fun h => h.2⟩

/-- The key pair of a new peer. -/
def wgKeys (env : PeerEnv) : Option Str → Option Str → Option (Str × Str)
  | none, none => env.wgKeypair.toOption
  | some priv, some pub => some (priv, pub)
  | _, _ => none

/-- The keys that were given, or a new pair. -/
theorem eval_resolveWgKeypair_iff {env : PeerEnv} {priv pub : Option Str} {keys : Str × Str} :
    eval (resolveWgKeypair env priv pub) db = (.ok keys, db') ↔
      wgKeys env priv pub = some keys ∧ db' = db := by
  cases priv with
  | none =>
      cases pub with
      | none =>
          rw [resolveWgKeypair, wgKeys]
          cases env.wgKeypair with
          | ok pair =>
              rw [eval_pure]
              simp [Except.toOption]
          | error text => simp [Except.toOption, eval_eq_ok]
      | some k => simp [resolveWgKeypair, wgKeys, failWith, eval_eq_ok]
  | some k =>
      cases pub with
      | none => simp [resolveWgKeypair, wgKeys, failWith, eval_eq_ok]
      | some k' =>
          rw [resolveWgKeypair, wgKeys, eval_pure]
          simp

/-- The port of a new BGP peer. -/
def BgpPort (asn : Int) (given : Option Int) (port : Int) : Prop :=
  match given with
  | none => port = lastFive asn ∧ port ≤ maxPort
  | some value => validateListenPort value true = .ok port

/-- The port of a new BGP peer. -/
theorem eval_bgpListenPort_iff {asn : Int} {given : Option Int} {port : Int} :
    eval (bgpListenPort asn given) db = (.ok port, db') ↔ BgpPort asn given port ∧ db' = db := by
  cases given with
  | none =>
      rw [bgpListenPort, BgpPort]
      split
      · constructor
        · intro h
          cases h
        · rintro ⟨⟨rfl, hmax⟩, -⟩
          omega
      · rw [eval_pure]
        constructor
        · rintro ⟨rfl, rfl⟩
          exact ⟨⟨rfl, by omega⟩, rfl⟩
        · rintro ⟨⟨rfl, -⟩, rfl⟩
          exact ⟨rfl, rfl⟩
  | some value => exact eval_checkValid

/-- A port that a peer of the node may take besides `current`. -/
def PortFree (n : Str) (port current : Int) (db : Db) : Prop :=
  params [.text n] = none ∧ port ∉ otherPorts (db.usedPorts n) current

/-- A port that is free, or that the peer has. -/
theorem eval_checkPortFree_iff {port current : Int} {u : Unit} :
    eval (checkPortFree n port current) db = (.ok u, db') ↔
      PortFree n port current db ∧ db' = db := by
  rw [checkPortFree, (Settles.of_readOnly (readOnly_usedListenPorts n)).eval_bind]
  simp only [eval_usedListenPorts_iff, PortFree, ← List.contains_iff_mem, Bool.not_eq_true]
  constructor
  · rintro ⟨used, mid, ⟨hbound, rfl, rfl⟩, h⟩
    split at h
    · cases h
    · next hfree => exact ⟨⟨hbound, by simpa using hfree⟩, (eval_pure.mp h).2⟩
  · rintro ⟨⟨hbound, hfree⟩, rfl⟩
    refine ⟨_, _, ⟨hbound, rfl, rfl⟩, ?_⟩
    rw [hfree]
    exact eval_pure.mpr ⟨rfl, rfl⟩

/-- A port that is checked when `p` asks for it. -/
theorem eval_guardedPort_iff {p : Prop} [Decidable p] {port current port' : Int} :
    eval (if p then checkPortFree n port current >>= fun _ => pure port else pure port) db =
        (.ok port', db') ↔ (p → PortFree n port current db) ∧ port' = port ∧ db' = db := by
  split
  · next hp =>
      rw [(Settles.of_readOnly (readOnly_checkPortFree ..)).eval_bind]
      simp only [eval_checkPortFree_iff, eval_pure]
      constructor
      · rintro ⟨u, mid, ⟨hfree, rfl⟩, rfl, rfl⟩
        exact ⟨fun _ => hfree, rfl, rfl⟩
      · rintro ⟨hfree, rfl, rfl⟩
        exact ⟨(), _, ⟨hfree hp, rfl⟩, rfl, rfl⟩
  · next hp =>
      rw [eval_pure]
      constructor
      · rintro ⟨rfl, rfl⟩
        exact ⟨fun h => absurd h hp, rfl, rfl⟩
      · rintro ⟨-, rfl, rfl⟩
        exact ⟨rfl, rfl⟩

/-- The port of a modified peer. -/
def ModifiedPort (n : Str) (given : Option Int) (current port : Int) (db : Db) : Prop :=
  validateListenPort (given.getD current) true = .ok port ∧
    (given.isSome ∧ port > 0 ∧ port ≠ current → PortFree n port current db)

/-- The port of a modified peer. -/
theorem eval_modifiedPort_iff {given : Option Int} {current port : Int} :
    eval (modifiedPort n given current) db = (.ok port, db') ↔
      ModifiedPort n given current port db ∧ db' = db := by
  rw [modifiedPort, (Settles.of_readOnly (readOnly_checkValid _)).eval_bind]
  simp only [eval_checkValid, eval_guardedPort_iff, ModifiedPort]
  constructor
  · rintro ⟨checked, mid, ⟨hvalid, rfl⟩, hfree, rfl, rfl⟩
    exact ⟨⟨hvalid, hfree⟩, rfl⟩
  · rintro ⟨⟨hvalid, hfree⟩, rfl⟩
    exact ⟨_, _, ⟨hvalid, rfl⟩, hfree, rfl, rfl⟩

/-- The port of a new tunnel. -/
def TunnelPort (env : PeerEnv) (n : Str) (given : Option Int) (port : Int) (db : Db) : Prop :=
  match given with
  | none =>
      params [.text n] = none ∧
        pickUnusedPort (fun i => env.draw (i + 2)) (otherPorts (db.usedPorts n) 0) = .ok port
  | some value =>
      validateListenPort value true = .ok port ∧ (port > 0 → PortFree n port 0 db)

/-- The port of a new tunnel. -/
theorem eval_ibgpListenPort_iff {env : PeerEnv} {given : Option Int} {port : Int} :
    eval (ibgpListenPort env n given) db = (.ok port, db') ↔
      TunnelPort env n given port db ∧ db' = db := by
  cases given with
  | none =>
      rw [ibgpListenPort, (Settles.of_readOnly (readOnly_usedListenPorts n)).eval_bind]
      simp only [eval_usedListenPorts_iff, eval_check, TunnelPort]
      constructor
      · rintro ⟨used, mid, ⟨hbound, rfl, rfl⟩, hpick, rfl⟩
        exact ⟨⟨hbound, hpick⟩, rfl⟩
      · rintro ⟨⟨hbound, hpick⟩, rfl⟩
        exact ⟨_, _, ⟨hbound, rfl, rfl⟩, hpick, rfl⟩
  | some value =>
      rw [ibgpListenPort, (Settles.of_readOnly (readOnly_checkValid _)).eval_bind]
      simp only [eval_checkValid, eval_guardedPort_iff, TunnelPort]
      constructor
      · rintro ⟨checked, mid, ⟨hvalid, rfl⟩, hfree, rfl, rfl⟩
        exact ⟨⟨hvalid, hfree⟩, rfl⟩
      · rintro ⟨⟨hvalid, hfree⟩, rfl⟩
        exact ⟨_, _, ⟨hvalid, rfl⟩, hfree, rfl, rfl⟩

/-- The columns of a new tunnel that passes the checks. -/
structure TunnelChecked (env : PeerEnv) (n : Str) (a : IbgpPeerArgs) (t : Tunnel) (db : Db) :
    Prop where
  backend : validateNetBackend (orDefault a.netBackend (lit "networkd")) = .ok t.backend
  port : TunnelPort env n a.listenPort t.listenPort db
  rxcost : ∃ c, validateRxcost a.babelRxcost = .ok c
  babelType : ∃ b, validateBabelType a.babelType = .ok b
  keys : wgKeys env a.wgPrivateKey a.wgPublicKey = some (t.privateKey, t.publicKey)
  localLla : t.localLla = orDefault a.localLla (generateRandomLla (env.draw 0) (env.draw 1))
  allowedIps : t.allowedIps = a.allowedIps.getD ibgpAllowedIps
  valid : validateAllowedIpsList t.allowedIps = .ok ()

/-- The columns of the tunnel of a new iBGP peer, checked where it has one. -/
def TunnelOf (env : PeerEnv) (n : Str) (a : IbgpPeerArgs) (t : Tunnel) (db : Db) : Prop :=
  if a.hasWg then TunnelChecked env n a t db
  else t = ⟨lit "networkd", 0, [], [], [], a.allowedIps.getD ibgpAllowedIps⟩

/-- The columns of a new tunnel, once its checks pass. -/
theorem eval_createTunnel_iff {env : PeerEnv} {a : IbgpPeerArgs} {t : Tunnel} :
    eval (createTunnel env n a) db = (.ok t, db') ↔ TunnelChecked env n a t db ∧ db' = db := by
  rw [createTunnel, normalizeNetBackend, (Settles.of_readOnly (readOnly_checkValid _)).eval_bind]
  simp only [(Settles.of_readOnly (readOnly_checkValid _)).eval_bind,
    (Settles.of_readOnly (readOnly_ibgpListenPort ..)).eval_bind,
    (Settles.of_readOnly (readOnly_resolveWgKeypair ..)).eval_bind, eval_checkValid,
    eval_ibgpListenPort_iff, eval_resolveWgKeypair_iff, eval_pure]
  constructor
  · rintro ⟨backend, _, ⟨hbackend, rfl⟩, port, _, ⟨hport, rfl⟩, cost, _, ⟨hcost, rfl⟩, type, _,
      ⟨htype, rfl⟩, keys, _, ⟨hkeys, rfl⟩, u, _, ⟨hips, rfl⟩, rfl, rfl⟩
    exact ⟨⟨hbackend, hport, ⟨cost, hcost⟩, ⟨type, htype⟩, hkeys, rfl, rfl, hips⟩, rfl⟩
  · rintro ⟨⟨hbackend, hport, ⟨cost, hcost⟩, ⟨type, htype⟩, hkeys, hlla, hips, hvalid⟩, rfl⟩
    obtain ⟨backend, port, priv, pub, lla, ips⟩ := t
    simp only at hlla hips
    subst hlla hips
    exact ⟨backend, _, ⟨hbackend, rfl⟩, port, _, ⟨hport, rfl⟩, cost, _, ⟨hcost, rfl⟩, type, _,
      ⟨htype, rfl⟩, (priv, pub), _, ⟨hkeys, rfl⟩, (), _, ⟨hvalid, rfl⟩, rfl, rfl⟩

/-- The columns of a new tunnel, or those of a peer without one. -/
theorem eval_tunnelFor_iff {env : PeerEnv} {a : IbgpPeerArgs} {t : Tunnel} :
    eval (tunnelFor env n a) db = (.ok t, db') ↔ TunnelOf env n a t db ∧ db' = db := by
  rw [tunnelFor, TunnelOf]
  split
  · exact eval_createTunnel_iff
  · rw [eval_pure, eq_comm]

end Checks

/-! ## what is stored -/

section Stores

variable {now n : Str} {db db' : Db} {u : Unit}

/-- A statement, its announcement and the commit. -/
theorem eval_inserted_iff {onError : SqlError → PyError} {bd : Option BindError}
    {f : Db → Except SqlError (Unit × Db)} :
    eval (wrapDatabaseError (guarded onError
      (Txn.execute bd f >>= fun _ => emitSyncEvent now n >>= fun _ => commit))) db = (.ok u, db') ↔
      bd = none ∧ params [.text n] = none ∧
        ∃ w, f db = .ok ((), w) ∧ db' = w.emit now n .desired := by
  rw [eval_wrapDatabaseError, eval_eq_ok]
  simp only [run_guarded_eq_ok]
  constructor
  · rintro ⟨c', hrun, rfl⟩
    obtain ⟨v, w, hbound, hw, hrun⟩ := bind_execute hrun
    obtain ⟨v', c1, hemit, hrun⟩ := Prog.run_bind_eq_ok.mp hrun
    obtain ⟨hnode, rfl⟩ := run_emitSyncEvent_eq_ok.mp hemit
    rw [committed_of_commit hrun]
    exact ⟨hbound, hnode, w, hw, rfl⟩
  · rintro ⟨hbound, hnode, w, hw, rfl⟩
    have hexecute : (Txn.execute bd f : DbTx Unit).run ⟨db, db, false, none, false⟩ =
        (.ok (), ⟨db, w, true, none, false⟩) := run_execute_eq_ok.mpr ⟨hbound, w, hw, rfl⟩
    have hemit : (emitSyncEvent now n).run ⟨db, w, true, none, false⟩ =
        (.ok (), ⟨db, w.emit now n .desired, true, none, false⟩) :=
      run_emitSyncEvent_eq_ok.mpr ⟨hnode, rfl⟩
    exact ⟨_, (Prog.run_bind_ok hexecute).trans (Prog.run_bind_ok hemit), rfl⟩

/-- The same of an `UPDATE` that matches a row. -/
theorem eval_updated_iff {ρ : Type} {onError : SqlError → PyError} {bd : Option BindError}
    {f : Db → Nat × Db} {lookup : DbTx (Option ρ)} {missing : PyError} (hfound : (f db).1 ≠ 0) :
    eval (wrapDatabaseError (guarded onError
      (Txn.execute bd (fun w => .ok (f w)) >>= fun rowcount =>
        Database.requireMatched rowcount lookup missing >>= fun _ =>
          emitSyncEvent now n >>= fun _ => commit))) db = (.ok u, db') ↔
      bd = none ∧ params [.text n] = none ∧ db' = (f db).2.emit now n .desired := by
  have hmatched : ∀ c : Conn Db, (Database.requireMatched (f db).1 lookup missing).run c =
      (.ok (), c) := by
    intro c
    rw [Database.requireMatched, if_neg hfound]
    rfl
  rw [eval_wrapDatabaseError, eval_eq_ok]
  simp only [run_guarded_eq_ok]
  constructor
  · rintro ⟨c', hrun, rfl⟩
    obtain ⟨rowcount, w, hbound, hw, hrun⟩ := bind_execute hrun
    have hpair : f db = (rowcount, w) := Except.ok.inj hw
    obtain rfl : (f db).1 = rowcount := congrArg Prod.fst hpair
    obtain rfl : (f db).2 = w := congrArg Prod.snd hpair
    rw [Prog.run_bind_ok (hmatched _)] at hrun
    obtain ⟨v', c1, hemit, hrun⟩ := Prog.run_bind_eq_ok.mp hrun
    obtain ⟨hnode, rfl⟩ := run_emitSyncEvent_eq_ok.mp hemit
    rw [committed_of_commit hrun]
    exact ⟨hbound, hnode, rfl⟩
  · rintro ⟨hbound, hnode, rfl⟩
    have hexecute : (Txn.execute bd (fun w => .ok (f w)) : DbTx Nat).run
        ⟨db, db, false, none, false⟩ = (.ok (f db).1, ⟨db, (f db).2, true, none, false⟩) :=
      run_execute_eq_ok.mpr ⟨hbound, _, rfl, rfl⟩
    have hemit : (emitSyncEvent now n).run ⟨db, (f db).2, true, none, false⟩ =
        (.ok (), ⟨db, (f db).2.emit now n .desired, true, none, false⟩) :=
      run_emitSyncEvent_eq_ok.mpr ⟨hnode, rfl⟩
    exact ⟨_, (Prog.run_bind_ok hexecute).trans
      ((Prog.run_bind_ok (hmatched _)).trans (Prog.run_bind_ok hemit)), rfl⟩

/-- A new row in `nodes` changes no peer. -/
theorem upsertNode_bgpPeers : (db.upsertNode n).bgpPeers = db.bgpPeers := by
  rw [Db.upsertNode]
  split <;> rfl

theorem upsertNode_ibgpPeers : (db.upsertNode n).ibgpPeers = db.ibgpPeers := by
  rw [Db.upsertNode]
  split <;> rfl

theorem usedPorts_upsertNode : (db.upsertNode n).usedPorts n = db.usedPorts n := by
  rw [Db.usedPorts, Db.usedPorts, Db.bgpRowsOf, Db.ibgpRowsOf, upsertNode_bgpPeers,
    upsertNode_ibgpPeers]
  rfl

/-- Nor does it change which port a modified peer gets. -/
theorem modifiedPort_upsertNode {given : Option Int} {current port : Int} :
    ModifiedPort n given current port (db.upsertNode n) ↔ ModifiedPort n given current port db := by
  rw [ModifiedPort, ModifiedPort, PortFree, PortFree, usedPorts_upsertNode]

/-- Nor which tunnel is made. -/
theorem tunnelOf_upsertNode {env : PeerEnv} {a : IbgpPeerArgs} {t : Tunnel} :
    TunnelOf env n a t (db.upsertNode n) ↔ TunnelOf env n a t db := by
  have hport : TunnelPort env n a.listenPort t.listenPort (db.upsertNode n) ↔
      TunnelPort env n a.listenPort t.listenPort db := by
    unfold TunnelPort PortFree
    rw [usedPorts_upsertNode]
  unfold TunnelOf
  split
  · constructor
    · intro h
      exact { h with port := hport.mp h.port }
    · intro h
      exact { h with port := hport.mpr h.port }
  · rfl

/-- The constraints of `bgp_peers`: the ASN and the interface are the node's own. -/
theorem insertBgpRow_ok_iff {row : BgpRow} {w : Db} (hnode : db.nodes.contains row.nodeId = true) :
    db.insertBgpRow row = .ok ((), w) ↔
      (∀ x ∈ db.bgpPeers, x.nodeId = row.nodeId →
        x.peerAsn ≠ row.peerAsn ∧ x.ifname ≠ row.ifname) ∧
      w = { db with bgpPeers := db.bgpPeers ++ [row] } := by
  rw [Db.insertBgpRow, hnode]
  split
  · next htaken =>
      constructor
      · intro h
        cases h
      · rintro ⟨hfree, -⟩
        obtain ⟨x, hx, hkey⟩ := List.any_eq_true.mp htaken
        simp only [Bool.and_eq_true, Bool.or_eq_true, beq_iff_eq] at hkey
        obtain ⟨hasn, hifname⟩ := hfree x hx hkey.1
        exact absurd hkey.2 (by simp [hasn, hifname])
  · next hfree =>
      simp only [List.any_eq_true, Bool.and_eq_true, Bool.or_eq_true, beq_iff_eq, not_exists,
        not_and, not_or] at hfree
      simp only [Bool.not_true, Bool.false_eq_true, if_false, Except.ok.injEq, Prod.mk.injEq,
        true_and]
      exact ⟨fun h => ⟨hfree, h.symm⟩, fun h => h.2.symm⟩

/-- The constraints of `ibgp_peers`: the name and the interface are the node's own. -/
theorem insertIbgpRow_ok_iff {row : IbgpRow} {w : Db} (hnode : db.nodes.contains row.nodeId = true) :
    db.insertIbgpRow row = .ok ((), w) ↔
      (∀ x ∈ db.ibgpPeers, x.nodeId = row.nodeId →
        x.name ≠ row.name ∧ x.ifname ≠ row.ifname) ∧
      w = { db with ibgpPeers := db.ibgpPeers ++ [row] } := by
  rw [Db.insertIbgpRow, hnode]
  split
  · next htaken =>
      constructor
      · intro h
        cases h
      · rintro ⟨hfree, -⟩
        obtain ⟨x, hx, hkey⟩ := List.any_eq_true.mp htaken
        simp only [Bool.and_eq_true, Bool.or_eq_true, beq_iff_eq] at hkey
        obtain ⟨hname, hifname⟩ := hfree x hx hkey.1
        exact absurd hkey.2 (by simp [hname, hifname])
  · next hfree =>
      simp only [List.any_eq_true, Bool.and_eq_true, Bool.or_eq_true, beq_iff_eq, not_exists,
        not_and, not_or] at hfree
      simp only [Bool.not_true, Bool.false_eq_true, if_false, Except.ok.injEq, Prod.mk.injEq,
        true_and]
      exact ⟨fun h => ⟨hfree, h.symm⟩, fun h => h.2.symm⟩

end Stores

/-! ### `create_bgp_peer` -/

section CreateBgp

variable {env : PeerEnv} {cfg : Str} {a : BgpPeerArgs} {db db' : Db}

/-- What `create_bgp_peer` checks before it stores the row. -/
structure BgpPeerArgs.Storable (env : PeerEnv) (cfg : Str) (a : BgpPeerArgs) (backend : Str)
    (port : Int) (keys : Str × Str) (db : Db) : Prop where
  valid : validateNetBackend a.netBackend = .ok backend
  listenPort : BgpPort a.peerAsn a.listenPort port
  keypair : wgKeys env a.wgPrivateKey a.wgPublicKey = some keys
  allowedIps : validateAllowedIpsList (a.allowedIps.getD defaultAllowedIps) = .ok ()
  bound : params ([.text (orDefault a.nodeId cfg), .int a.peerAsn] ++
    Database.baseParams (newBgpRow env cfg a backend port keys).toPeerRecordBase) = none
  unique : ∀ x ∈ db.bgpPeers, x.nodeId = orDefault a.nodeId cfg →
    x.peerAsn ≠ a.peerAsn ∧ x.ifname ≠ lit "dn42_" ++ lastChars 4 (ofInt a.peerAsn)

/-- What `write_net_backend_files` is given for a new BGP peer. -/
def newBgpTunnel (env : PeerEnv) (a : BgpPeerArgs) (backend : Str) (port : Int)
    (keys : Str × Str) : NetBackendArgs where
  backend := backend
  ifname := lit "dn42_" ++ lastChars 4 (ofInt a.peerAsn)
  privateKey := keys.1
  listenPort := port
  peerPublicKey := a.peerPublicKey
  endpoint := a.endpoint
  allowedIps := a.allowedIps.getD defaultAllowedIps
  localLla := orDefault a.localLla (generateRandomLla (env.draw 0) (env.draw 1))
  peerLla := a.peerLla

/-- **`create_bgp_peer`** stores a row exactly when its checks pass. -/
theorem eval_storeBgpPeer_iff {s : PeerResult × NetBackendArgs} :
    eval (storeBgpPeer env cfg a) db = (.ok s, db') ↔
      ∃ (backend : Str) (port : Int) (keys : Str × Str),
        a.Storable env cfg backend port keys db ∧
        s = (⟨lit "dn42_" ++ lastChars 4 (ofInt a.peerAsn), port, keys.2,
          orDefault a.localLla (generateRandomLla (env.draw 0) (env.draw 1))⟩,
          newBgpTunnel env a backend port keys) ∧
        db' = Db.emit env.now (orDefault a.nodeId cfg) .desired
          { db.upsertNode (orDefault a.nodeId cfg) with
            bgpPeers := db.bgpPeers ++ [newBgpRow env cfg a backend port keys] } := by
  have hbound : ∀ {ps : List Param}, params ([.text (orDefault a.nodeId cfg), .int a.peerAsn] ++
      ps) = none → params [.text (orDefault a.nodeId cfg)] = none ∧
        params [.text (orDefault a.nodeId cfg), .int a.peerAsn] = none :=
    fun h => ⟨params_of_subset h (by simp), (params_append.mp h).1⟩
  rw [storeBgpPeer, normalizeNetBackend, (Settles.of_readOnly (readOnly_checkValid _)).eval_bind]
  simp only [(Settles.of_atomic (atomic_ensureNode _)).eval_bind, eval_checkValid,
    eval_ensureNode_iff, Database.getBgpPeer, eval_get_iff, eval_unless_iff,
    (Settles.of_readOnly (readOnly_wrapDatabaseError (.queryOr ..))).eval_bind,
    (Settles.of_readOnly (readOnly_bgpListenPort ..)).eval_bind, eval_bgpListenPort_iff,
    (Settles.of_readOnly (readOnly_resolveWgKeypair ..)).eval_bind, eval_resolveWgKeypair_iff,
    (Settles.of_readOnly (readOnly_checkValid _)).eval_bind,
    (Settles.of_atomic (atomic_insertBgpPeer ..)).eval_bind, eval_pure]
  constructor
  · rintro ⟨backend, _, ⟨hbackend, rfl⟩, _, _, ⟨hnode, rfl⟩, existing, _, ⟨hkey, rfl, rfl⟩, habsent,
      port, _, ⟨hport, rfl⟩, keys, _, ⟨hkeys, rfl⟩, _, _, ⟨hips, rfl⟩, _, mid, hinsert, rfl, rfl⟩
    obtain ⟨hparams, -, w, hw, rfl⟩ := eval_inserted_iff.mp hinsert
    obtain ⟨hunique, rfl⟩ := (insertBgpRow_ok_iff contains_upsertNode).mp hw
    rw [upsertNode_bgpPeers] at hunique
    refine ⟨backend, port, keys, ⟨hbackend, hport, hkeys, hips, hparams, hunique⟩, rfl, ?_⟩
    rw [upsertNode_bgpPeers]
    rfl
  · rintro ⟨backend, port, keys, h, rfl, rfl⟩
    obtain ⟨hnode, hkey⟩ := hbound h.bound
    have hunique : ∀ x ∈ (db.upsertNode (orDefault a.nodeId cfg)).bgpPeers,
        x.nodeId = orDefault a.nodeId cfg → x.peerAsn ≠ a.peerAsn ∧
          x.ifname ≠ lit "dn42_" ++ lastChars 4 (ofInt a.peerAsn) := by
      rw [upsertNode_bgpPeers]
      exact h.unique
    have habsent : ¬ (Db.getBgpPeer (orDefault a.nodeId cfg) a.peerAsn
        (db.upsertNode (orDefault a.nodeId cfg))).isSome = true := by
      rw [Db.getBgpPeer, List.find?_isSome]
      rintro ⟨x, hx, his⟩
      simp only [BgpRow.is, Bool.and_eq_true, beq_iff_eq] at his
      exact (hunique x hx his.1).1 his.2
    refine ⟨backend, _, ⟨h.valid, rfl⟩, (), _, ⟨hnode, rfl⟩, _, _, ⟨hkey, rfl, rfl⟩, habsent, port,
      _, ⟨h.listenPort, rfl⟩, keys, _, ⟨h.keypair, rfl⟩, (), _, ⟨h.allowedIps, rfl⟩, (), _,
      eval_inserted_iff.mpr ⟨h.bound, hnode, _,
        (insertBgpRow_ok_iff contains_upsertNode).mpr ⟨hunique, rfl⟩, rfl⟩, rfl, ?_⟩
    rw [upsertNode_bgpPeers]
    rfl

end CreateBgp

/-! ### `modify_bgp_peer` -/

section ModifyBgp

variable {env : PeerEnv} {cfg : Str} {a : BgpPeerArgs} {db db' : Db}

/-- The columns `modify_bgp_peer` writes. -/
def BgpPeerArgs.update (a : BgpPeerArgs) (backend : Str) (row : BgpRow) (port : Int) :
    Database.BgpUpdate where
  peerPublicKey := some a.peerPublicKey
  endpoint := some a.endpoint
  peerLla := some a.peerLla
  listenPort := port
  allowedIps := a.allowedIps.getD row.allowedIps
  netBackend := backend

/-- What `modify_bgp_peer` checks before it writes the row. -/
structure BgpPeerArgs.Modifiable (cfg : Str) (a : BgpPeerArgs) (backend : Str) (row : BgpRow)
    (port : Int) (db : Db) : Prop where
  valid : validateNetBackend a.netBackend = .ok backend
  found : db.getBgpPeer (orDefault a.nodeId cfg) a.peerAsn = some row
  listenPort : ModifiedPort (orDefault a.nodeId cfg) a.listenPort row.listenPort port db
  allowedIps : validateAllowedIpsList (a.allowedIps.getD row.allowedIps) = .ok ()
  bound : params ((a.update backend row port).params ++
    [.text (orDefault a.nodeId cfg), .int a.peerAsn]) = none

/-- What `write_net_backend_files` is given for a modified BGP peer. -/
def modifiedBgpTunnel (a : BgpPeerArgs) (backend : Str) (row : BgpRow) (port : Int) :
    NetBackendArgs where
  backend := backend
  ifname := row.ifname
  privateKey := row.wgPrivateKey
  listenPort := port
  peerPublicKey := a.peerPublicKey
  endpoint := a.endpoint
  allowedIps := a.allowedIps.getD row.allowedIps
  localLla := row.localLla
  peerLla := a.peerLla

/-- **`modify_bgp_peer`** writes a row exactly when its checks pass. -/
theorem eval_restoreBgpPeer_iff {s : PeerResult × NetBackendArgs} :
    eval (restoreBgpPeer env cfg a) db = (.ok s, db') ↔
      ∃ (backend : Str) (row : BgpRow) (port : Int), a.Modifiable cfg backend row port db ∧
        s = (⟨row.ifname, port, row.wgPublicKey, row.localLla⟩,
          modifiedBgpTunnel a backend row port) ∧
        db' = Db.emit env.now (orDefault a.nodeId cfg) .desired
          ((db.upsertNode (orDefault a.nodeId cfg)).updateBgpRows (orDefault a.nodeId cfg)
            a.peerAsn ((a.update backend row port).apply env.now)).2 := by
  have hget : Db.getBgpPeer (orDefault a.nodeId cfg) a.peerAsn
      (db.upsertNode (orDefault a.nodeId cfg)) =
        db.getBgpPeer (orDefault a.nodeId cfg) a.peerAsn := by
    rw [Db.getBgpPeer, Db.getBgpPeer, upsertNode_bgpPeers]
  have hcount : ∀ (row : BgpRow) (f : BgpRow → BgpRow),
      db.getBgpPeer (orDefault a.nodeId cfg) a.peerAsn = some row →
      ((db.upsertNode (orDefault a.nodeId cfg)).updateBgpRows (orDefault a.nodeId cfg)
        a.peerAsn f).1 ≠ 0 := by
    intro row f hrow
    rw [← hget] at hrow
    rw [Db.updateBgpRows, Ne, countP_eq_zero_iff_find?]
    exact fun hnone => Option.some_ne_none row (hrow.symm.trans hnone)
  rw [restoreBgpPeer, normalizeNetBackend,
    (Settles.of_readOnly (readOnly_checkValid _)).eval_bind]
  simp only [(Settles.of_atomic (atomic_ensureNode _)).eval_bind, eval_checkValid,
    eval_ensureNode_iff, Database.getBgpPeer, eval_get_iff,
    (Settles.of_readOnly (readOnly_wrapDatabaseError (.queryOr ..))).eval_bind]
  constructor
  · rintro ⟨backend, _, ⟨hbackend, rfl⟩, _, _, ⟨hnode, rfl⟩, found, _, ⟨hkey, hfound, rfl⟩, h⟩
    cases found with
    | none => cases h
    | some row =>
        simp only [(Settles.of_readOnly (readOnly_modifiedPort ..)).eval_bind,
          eval_modifiedPort_iff, (Settles.of_readOnly (readOnly_checkValid _)).eval_bind,
          eval_checkValid, (Settles.of_atomic (atomic_updateBgpPeer ..)).eval_bind,
          eval_pure] at h
        obtain ⟨port, _, ⟨hport, rfl⟩, _, _, ⟨hips, rfl⟩, _, mid, hupdate, rfl, rfl⟩ := h
        have hrow := hget.symm.trans hfound.symm
        obtain ⟨hparams, -, rfl⟩ := (eval_updated_iff (hcount row _ hrow)).mp hupdate
        exact ⟨backend, row, port,
          ⟨hbackend, hrow, modifiedPort_upsertNode.mp hport, hips, hparams⟩, rfl, rfl⟩
  · rintro ⟨backend, row, port, h, rfl, rfl⟩
    have hkey : params [.text (orDefault a.nodeId cfg), .int a.peerAsn] = none :=
      (params_append.mp h.bound).2
    have hnode : params [.text (orDefault a.nodeId cfg)] = none :=
      params_of_subset hkey (by simp)
    refine ⟨backend, _, ⟨h.valid, rfl⟩, (), _, ⟨hnode, rfl⟩, some row, _,
      ⟨hkey, (hget.trans h.found).symm, rfl⟩, ?_⟩
    simp only [(Settles.of_readOnly (readOnly_modifiedPort ..)).eval_bind,
      eval_modifiedPort_iff, (Settles.of_readOnly (readOnly_checkValid _)).eval_bind,
      eval_checkValid, (Settles.of_atomic (atomic_updateBgpPeer ..)).eval_bind, eval_pure]
    exact ⟨port, _, ⟨modifiedPort_upsertNode.mpr h.listenPort, rfl⟩, (), _, ⟨h.allowedIps, rfl⟩, (),
      _, (eval_updated_iff (hcount row _ h.found)).mpr ⟨h.bound, hnode, rfl⟩, rfl, rfl⟩

end ModifyBgp

/-! ### `create_ibgp_peer` -/

section CreateIbgp

variable {env : PeerEnv} {cfg : Str} {a : IbgpPeerArgs} {db db' : Db}

/-- The parameters of the `INSERT`. -/
def IbgpRow.insertParams (row : IbgpRow) : List Param :=
  [.text row.nodeId, .text row.name] ++ Database.baseParams row.toPeerRecordBase ++
    [.int row.babelRxcost, .ofOption row.peerIp, .text row.babelType, .ofOption row.remoteNodeId]

/-- What `create_ibgp_peer` checks before it stores the row. -/
structure IbgpPeerArgs.Storable (env : PeerEnv) (cfg : Str) (a : IbgpPeerArgs) (peerName : Str)
    (t : Tunnel) (db : Db) : Prop where
  name : sanitizeName a.name = .ok peerName
  short : ¬ 15 < (lit "wg_" ++ peerName).length
  tunnel : TunnelOf env (orDefault a.nodeId cfg) a t db
  bound : params (newIbgpRow env cfg a peerName t).insertParams = none
  unique : ∀ x ∈ db.ibgpPeers, x.nodeId = orDefault a.nodeId cfg →
    x.name ≠ peerName ∧ x.ifname ≠ lit "wg_" ++ peerName

/-- What `write_net_backend_files` is given for a new iBGP peer. -/
def newIbgpTunnel (a : IbgpPeerArgs) (peerName : Str) (t : Tunnel) : NetBackendArgs where
  backend := t.backend
  ifname := lit "wg_" ++ peerName
  privateKey := t.privateKey
  listenPort := t.listenPort
  peerPublicKey := orDefault a.peerPublicKey []
  endpoint := orDefault a.endpoint []
  allowedIps := t.allowedIps
  localLla := t.localLla
  peerLla := orDefault a.peerLla []

/-- **`create_ibgp_peer`** stores a row exactly when its checks pass. -/
theorem eval_storeIbgpPeer_iff {s : PeerResult × NetBackendArgs × Str} :
    eval (storeIbgpPeer env cfg a) db = (.ok s, db') ↔
      ∃ (peerName : Str) (t : Tunnel), a.Storable env cfg peerName t db ∧
        s = (⟨lit "wg_" ++ peerName, t.listenPort, t.publicKey, t.localLla⟩,
          newIbgpTunnel a peerName t, peerName) ∧
        db' = Db.emit env.now (orDefault a.nodeId cfg) .desired
          { db.upsertNode (orDefault a.nodeId cfg) with
            ibgpPeers := db.ibgpPeers ++ [newIbgpRow env cfg a peerName t] } := by
  have hnode : ∀ {peerName : Str} {t : Tunnel},
      params (newIbgpRow env cfg a peerName t).insertParams = none →
        params [.text (orDefault a.nodeId cfg)] = none :=
    fun h => params_of_subset h (List.cons_subset.mpr ⟨List.mem_cons_self, List.nil_subset _⟩)
  rw [storeIbgpPeer, (Settles.of_atomic (atomic_ensureNode _)).eval_bind]
  simp only [eval_ensureNode_iff, (Settles.of_readOnly (readOnly_check _)).eval_bind, eval_check,
    eval_unless_iff, (Settles.of_readOnly (readOnly_tunnelFor ..)).eval_bind, eval_tunnelFor_iff,
    (Settles.of_atomic (atomic_insertIbgpPeer ..)).eval_bind, eval_pure]
  constructor
  · rintro ⟨_, _, ⟨-, rfl⟩, peerName, _, ⟨hname, rfl⟩, hshort, t, _, ⟨htunnel, rfl⟩, _, mid,
      hinsert, rfl, rfl⟩
    obtain ⟨hparams, -, w, hw, rfl⟩ := eval_inserted_iff.mp hinsert
    obtain ⟨hunique, rfl⟩ := (insertIbgpRow_ok_iff contains_upsertNode).mp hw
    rw [upsertNode_ibgpPeers] at hunique
    refine ⟨peerName, t, ⟨hname, hshort, tunnelOf_upsertNode.mp htunnel, hparams, hunique⟩, rfl, ?_⟩
    rw [upsertNode_ibgpPeers]
    rfl
  · rintro ⟨peerName, t, h, rfl, rfl⟩
    have hunique : ∀ x ∈ (db.upsertNode (orDefault a.nodeId cfg)).ibgpPeers,
        x.nodeId = orDefault a.nodeId cfg → x.name ≠ peerName ∧
          x.ifname ≠ lit "wg_" ++ peerName := by
      rw [upsertNode_ibgpPeers]
      exact h.unique
    refine ⟨(), _, ⟨hnode h.bound, rfl⟩, peerName, _, ⟨h.name, rfl⟩, h.short, t, _,
      ⟨tunnelOf_upsertNode.mpr h.tunnel, rfl⟩, (), _,
      eval_inserted_iff.mpr ⟨h.bound, hnode h.bound, _,
        (insertIbgpRow_ok_iff contains_upsertNode).mpr ⟨hunique, rfl⟩, rfl⟩, rfl, ?_⟩
    rw [upsertNode_ibgpPeers]
    rfl

end CreateIbgp

/-! ### `modify_ibgp_peer` -/

section ModifyIbgp

variable {env : PeerEnv} {cfg : Str} {a : IbgpModifyArgs} {db db' : Db}

/-- The columns `modify_ibgp_peer` writes. -/
def IbgpModifyArgs.update (a : IbgpModifyArgs) (backend : Str) (row : IbgpRow) (port : Int) :
    Database.IbgpUpdate where
  peerPublicKey := some a.peerPublicKey
  endpoint := some a.endpoint
  peerLla := some a.peerLla
  listenPort := port
  allowedIps := a.allowedIps.getD row.allowedIps
  netBackend := backend
  babelRxcost := a.babelRxcost
  peerIp := some a.peerIp
  babelType := a.babelType
  remoteNodeId := a.remoteNodeId

/-- What `modify_ibgp_peer` checks before it writes the row. -/
structure IbgpModifyArgs.Modifiable (cfg : Str) (a : IbgpModifyArgs) (backend peerName : Str)
    (row : IbgpRow) (port : Int) (db : Db) : Prop where
  valid : validateNetBackend a.netBackend = .ok backend
  rxcost : ∃ c, validateRxcost a.babelRxcost = .ok c
  type : ∃ b, validateBabelType a.babelType = .ok b
  name : sanitizeName a.name = .ok peerName
  found : db.getIbgpPeer (orDefault a.nodeId cfg) peerName = some row
  hasWg : row.hasWg = true
  listenPort : ModifiedPort (orDefault a.nodeId cfg) a.listenPort row.listenPort port db
  allowedIps : validateAllowedIpsList (a.allowedIps.getD row.allowedIps) = .ok ()
  bound : params ((a.update backend row port).params ++
    [.text (orDefault a.nodeId cfg), .text peerName]) = none

/-- What `write_net_backend_files` is given for a modified iBGP peer. -/
def modifiedIbgpTunnel (a : IbgpModifyArgs) (backend : Str) (row : IbgpRow) (port : Int) :
    NetBackendArgs where
  backend := backend
  ifname := row.ifname
  privateKey := row.wgPrivateKey
  listenPort := port
  peerPublicKey := a.peerPublicKey
  endpoint := a.endpoint
  allowedIps := a.allowedIps.getD row.allowedIps
  localLla := row.localLla
  peerLla := a.peerLla

/-- **`modify_ibgp_peer`** writes a row exactly when its checks pass. -/
theorem eval_restoreIbgpPeer_iff {s : PeerResult × NetBackendArgs × Str} :
    eval (restoreIbgpPeer env cfg a) db = (.ok s, db') ↔
      ∃ (backend peerName : Str) (row : IbgpRow) (port : Int),
        a.Modifiable cfg backend peerName row port db ∧
        s = (⟨row.ifname, port, row.wgPublicKey, row.localLla⟩,
          modifiedIbgpTunnel a backend row port, peerName) ∧
        db' = Db.emit env.now (orDefault a.nodeId cfg) .desired
          ((db.upsertNode (orDefault a.nodeId cfg)).updateIbgpRows (orDefault a.nodeId cfg)
            peerName ((a.update backend row port).apply env.now)).2 := by
  have hget : ∀ name, Db.getIbgpPeer (orDefault a.nodeId cfg) name
      (db.upsertNode (orDefault a.nodeId cfg)) =
        db.getIbgpPeer (orDefault a.nodeId cfg) name := by
    intro name
    rw [Db.getIbgpPeer, Db.getIbgpPeer, upsertNode_ibgpPeers]
  have hcount : ∀ (name : Str) (row : IbgpRow) (f : IbgpRow → IbgpRow),
      db.getIbgpPeer (orDefault a.nodeId cfg) name = some row →
      ((db.upsertNode (orDefault a.nodeId cfg)).updateIbgpRows (orDefault a.nodeId cfg)
        name f).1 ≠ 0 := by
    intro name row f hrow
    rw [← hget] at hrow
    rw [Db.updateIbgpRows, Ne, countP_eq_zero_iff_find?]
    exact fun hnone => Option.some_ne_none row (hrow.symm.trans hnone)
  rw [restoreIbgpPeer, normalizeNetBackend,
    (Settles.of_readOnly (readOnly_checkValid _)).eval_bind]
  simp only [(Settles.of_atomic (atomic_ensureNode _)).eval_bind, eval_checkValid,
    (Settles.of_readOnly (readOnly_checkValid _)).eval_bind,
    (Settles.of_readOnly (readOnly_check _)).eval_bind, eval_check,
    eval_ensureNode_iff, Database.getIbgpPeer, eval_get_iff,
    (Settles.of_readOnly (readOnly_wrapDatabaseError (.queryOr ..))).eval_bind]
  constructor
  · rintro ⟨backend, _, ⟨hbackend, rfl⟩, cost, _, ⟨hcost, rfl⟩, type, _, ⟨htype, rfl⟩, _, _,
      ⟨hnode, rfl⟩, peerName, _, ⟨hname, rfl⟩, found, _, ⟨hkey, hfound, rfl⟩, h⟩
    cases found with
    | none => cases h
    | some row =>
        simp only [eval_unless_iff, (Settles.of_readOnly (readOnly_modifiedPort ..)).eval_bind,
          eval_modifiedPort_iff, (Settles.of_readOnly (readOnly_checkValid _)).eval_bind,
          eval_checkValid, (Settles.of_atomic (atomic_updateIbgpPeer ..)).eval_bind,
          eval_pure] at h
        obtain ⟨hwg, port, _, ⟨hport, rfl⟩, _, _, ⟨hips, rfl⟩, _, mid, hupdate, rfl, rfl⟩ := h
        have hrow := (hget peerName).symm.trans hfound.symm
        obtain ⟨hparams, -, rfl⟩ := (eval_updated_iff (hcount peerName row _ hrow)).mp hupdate
        exact ⟨backend, peerName, row, port,
          ⟨hbackend, ⟨cost, hcost⟩, ⟨type, htype⟩, hname, hrow, by simpa using hwg,
            modifiedPort_upsertNode.mp hport, hips, hparams⟩, rfl, rfl⟩
  · rintro ⟨backend, peerName, row, port, h, rfl, rfl⟩
    obtain ⟨cost, hcost⟩ := h.rxcost
    obtain ⟨type, htype⟩ := h.type
    have hkey : params [.text (orDefault a.nodeId cfg), .text peerName] = none :=
      (params_append.mp h.bound).2
    have hnode : params [.text (orDefault a.nodeId cfg)] = none :=
      params_of_subset hkey (by simp)
    refine ⟨backend, _, ⟨h.valid, rfl⟩, cost, _, ⟨hcost, rfl⟩, type, _, ⟨htype, rfl⟩, (), _,
      ⟨hnode, rfl⟩, peerName, _, ⟨h.name, rfl⟩, some row, _,
      ⟨hkey, ((hget peerName).trans h.found).symm, rfl⟩, ?_⟩
    simp only [eval_unless_iff, (Settles.of_readOnly (readOnly_modifiedPort ..)).eval_bind,
      eval_modifiedPort_iff, (Settles.of_readOnly (readOnly_checkValid _)).eval_bind,
      eval_checkValid, (Settles.of_atomic (atomic_updateIbgpPeer ..)).eval_bind, eval_pure]
    exact ⟨by simp [h.hasWg], port, _, ⟨modifiedPort_upsertNode.mpr h.listenPort, rfl⟩, (), _,
      ⟨h.allowedIps, rfl⟩, (), _,
      (eval_updated_iff (hcount peerName row _ h.found)).mpr ⟨h.bound, hnode, rfl⟩, rfl, rfl⟩

end ModifyIbgp

end Dn42Ctl
