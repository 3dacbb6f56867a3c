import Dn42Ctl.PeerEffects

/-!
# PeerSpecs

What the operations on peers store when they return, each as one equation on the
rows.  A call that raises has stored no peer (`PeerEffects`).
-/

namespace Dn42Ctl

open Text Txn

/-! ## checks and handlers -/

section Checks

variable {α : Type} {c c' : Conn Db} {db db' : Db} {a : α}

/-- A check returns the value that was checked. -/
theorem run_check_eq_ok {r : Except PyError α} :
    (check r).run c = (.ok a, c') ↔ r = .ok a ∧ c' = c := by
  rw [check, Prog.run_lift, Prod.mk.injEq]
  cases r with
  | error e => simp [Except.mapError]
  | ok b => simp [Except.mapError, eq_comm]

/-- A handler that only raises returns when its body does. -/
theorem run_wrapDatabaseError_eq_ok {m : DbTx α} :
    (wrapDatabaseError m).run c = (.ok a, c') ↔ m.run c = (.ok a, c') := by
  apply Prog.run_catching_eq_ok
  intro e s1 b s2 hok
  split at hok
  · cases hok
  · cases hok

/-- Another error of the same program. -/
theorem eval_wrapDatabaseError {m : DbTx α} :
    eval (wrapDatabaseError m) db = (.ok a, db') ↔ eval m db = (.ok a, db') := by
  rw [eval_eq_ok, eval_eq_ok]
  simp only [run_wrapDatabaseError_eq_ok]

/-- A check on a connection of its own. -/
theorem eval_check {r : Except PyError α} :
    eval (check r) db = (.ok a, db') ↔ r = .ok a ∧ db' = db := by
  rw [eval_eq_ok]
  constructor
  · rintro ⟨c', hrun, rfl⟩
    obtain ⟨hr, rfl⟩ := run_check_eq_ok.mp hrun
    exact ⟨hr, rfl⟩
  · rintro ⟨hr, rfl⟩
    exact ⟨_, run_check_eq_ok.mpr ⟨hr, rfl⟩, rfl⟩

/-- The same for a validator. -/
theorem eval_checkValid {r : Except PyError α} :
    eval (checkValid r) db = (.ok a, db') ↔ r = .ok a ∧ db' = db := by
  rw [checkValid, eval_check]
  cases r with
  | error e => simp [Except.mapError]
  | ok b => simp [Except.mapError]

theorem eval_pure {b : α} : eval (pure b : DbTx α) db = (.ok a, db') ↔ b = a ∧ db' = db := by
  constructor
  · intro h
    cases h
    exact ⟨rfl, rfl⟩
  · rintro ⟨rfl, rfl⟩
    rfl

/-- A query finds what is stored. -/
theorem eval_queryOr {msg : PyError} {bd : Option BindError} {f : Db → α}
    (h : eval (queryOr msg bd f) db = (.ok a, db')) : a = f db ∧ db' = db := by
  obtain ⟨c', hrun, rfl⟩ := eval_eq_ok.mp h
  obtain ⟨-, hfound, rfl⟩ := run_queryOr_eq_ok.mp hrun
  exact ⟨hfound.symm, rfl⟩

/-- A check reads nothing. -/
theorem readOnly_check (r : Except PyError α) : ReadOnly (check r) := by
  rw [check]
  cases r with
  | error e => exact .fail e
  | ok b => exact .pure b

theorem readOnly_checkValid (r : Except PyError α) : ReadOnly (checkValid r) := readOnly_check _

/-- Nor does the key pair. -/
theorem readOnly_resolveWgKeypair (env : PeerEnv) (priv pub : Option Str) :
    ReadOnly (resolveWgKeypair env priv pub) := by
  cases priv with
  | none =>
      cases pub with
      | none =>
          rw [resolveWgKeypair]
          cases env.wgKeypair with
          | ok pair => exact .pure _
          | error text => exact .fail _
      | some k => exact .fail _
  | some k =>
      cases pub with
      | none => exact .fail _
      | some k' => exact .pure _

theorem steady_wrapDatabaseError {m : DbTx α} (hm : Steady m) : Steady (wrapDatabaseError m) :=
  fun c a c' h => run_wrapDatabaseError_eq_ok.mpr
    (hm c a c' (run_wrapDatabaseError_eq_ok.mp h))

/-- A read with another error. -/
theorem readOnly_wrapDatabaseError {m : DbTx α} (hm : ReadOnly m) :
    ReadOnly (wrapDatabaseError m) where
  steady := steady_wrapDatabaseError hm.steady
  view := by
    refine hm.view.catching fun e => ?_
    split
    · exact .raise _
    · exact .raise _
  late := by
    refine hm.late.catching fun e => ?_
    split
    · exact .raise _
    · exact .raise _

/-- An atomic program with another error. -/
theorem atomic_wrapDatabaseError {r : Bool} {m : DbTx α} (hm : Atomic r m) :
    Atomic r (wrapDatabaseError m) where
  steady := steady_wrapDatabaseError hm.steady
  ok c a c' hc h := hm.ok c a c' hc (run_wrapDatabaseError_eq_ok.mp h)
  error c e c' hc h := by
    rw [wrapDatabaseError, Prog.run_catching] at h
    cases hmc : m.run c with
    | mk res c1 =>
        rw [hmc] at h
        cases res with
        | ok a => simp at h
        | error e1 =>
            obtain ⟨hclean, hsame⟩ := hm.error c e1 c1 hc hmc
            have hlate : c1.committed = c.committed ∨ r = true ∧ c.late = true ∧
                ∃ a, eval (wrapDatabaseError m) c.committed = (.ok a, c1.committed) := by
              simp only [eval_wrapDatabaseError]
              exact hsame
            dsimp only at h
            split at h
            · -- a `DatabaseError` becomes a `Dn42CtlError` on the same connection
              cases h
              refine ⟨.inl ?_, hlate⟩
              rcases hclean with hclean | ⟨b, hb⟩
              · exact hclean
              · cases hb
            · cases h
              exact ⟨hclean, hlate⟩

/-- The row in `nodes`. -/
theorem atomic_ensureNode (n : Str) : Atomic false (ensureNode n) :=
  atomic_wrapDatabaseError (.guarded (.bind (.modify _ _) fun _ => .commit))

/-- The update of a BGP peer. -/
theorem atomic_updateBgpPeer (now n : Str) (asn : Int) (u : Database.BgpUpdate) :
    Atomic false (wrapDatabaseError (Database.updateBgpPeer now n asn u)) :=
  atomic_wrapDatabaseError ((Call.updateBgpPeer n asn u).atomic now)

/-- The update of an iBGP peer. -/
theorem atomic_updateIbgpPeer (now n name : Str) (u : Database.IbgpUpdate) :
    Atomic false (wrapDatabaseError (Database.updateIbgpPeer now n name u)) :=
  atomic_wrapDatabaseError ((Call.updateIbgpPeer n name u).atomic now)

/-- The insert of a BGP peer. -/
theorem atomic_insertBgpPeer (now : Str) (r : BgpPeerRecord) :
    Atomic false (wrapDatabaseError (Database.insertBgpPeer now r)) :=
  atomic_wrapDatabaseError ((Call.insertBgpPeer r).atomic now)

/-- The insert of an iBGP peer. -/
theorem atomic_insertIbgpPeer (now : Str) (r : IbgpPeerRecord) :
    Atomic false (wrapDatabaseError (Database.insertIbgpPeer now r)) :=
  atomic_wrapDatabaseError ((Call.insertIbgpPeer r).atomic now)

/-- A new row in `nodes` changes no peer. -/
theorem eval_ensureNode_peers {n : Str} {u : Unit}
    (h : eval (ensureNode n) db = (.ok u, db')) :
    db'.bgpPeers = db.bgpPeers ∧ db'.ibgpPeers = db.ibgpPeers := by
  rw [@eval_ensureNode [] db db' u n (eval_wrapDatabaseError.mp h)]
  simp only [Call.after, Call.commit, Db.emitAll, Db.upsertNode]
  split
  · exact ⟨rfl, rfl⟩
  · exact ⟨rfl, rfl⟩

/-- The ports of a node's peers. -/
def Db.usedPorts (n : Str) (db : Db) : List Int :=
  (db.bgpRowsOf n).map (fun r => r.listenPort) ++ (db.ibgpRowsOf n).map fun r => r.listenPort

theorem readOnly_usedListenPorts (n : Str) :
    ReadOnly (wrapDatabaseError (Database.getUsedListenPorts n)) :=
  readOnly_wrapDatabaseError
    (.bind (.queryOr ..) fun _ => .bind (.queryOr ..) fun _ => .pure _)

/-- The ports in use. -/
theorem eval_usedListenPorts {n : Str} {used : List Int}
    (h : eval (wrapDatabaseError (Database.getUsedListenPorts n)) db = (.ok used, db')) :
    used = db.usedPorts n := by
  obtain ⟨bgp, h1, h⟩ := Atomic.eval_bind_read (.queryOr ..) (eval_wrapDatabaseError.mp h)
  obtain ⟨ibgp, h2, h⟩ := Atomic.eval_bind_read (.queryOr ..) h
  obtain ⟨rfl, -⟩ := eval_pure.mp h
  rw [(eval_queryOr h1).1, (eval_queryOr h2).1]
  rfl

end Checks

/-! ## ports -/

/-- A port that passes is the one that was given, within its range. -/
theorem validateListenPort_ok {value port : Int} {allowZero : Bool}
    (h : validateListenPort value allowZero = .ok port) :
    port = value ∧ (if allowZero then 0 else 1) ≤ port ∧ port ≤ maxPort := by
  simp only [validateListenPort] at h
  cases allowZero with
  | true =>
      simp only [if_true] at h ⊢
      split at h
      · cases h
      · cases h
        exact ⟨rfl, by omega⟩
  | false =>
      simp only [Bool.false_eq_true, if_false] at h ⊢
      split at h
      · cases h
      · cases h
        exact ⟨rfl, by omega⟩

section Ports

variable {n : Str} {port : Int} {db db' : Db}

/-- A given port. -/
theorem eval_validPort {value : Int}
    (h : eval (checkValid (validateListenPort value true)) db = (.ok port, db')) :
    port = value ∧ 0 ≤ port ∧ port ≤ maxPort ∧ db' = db := by
  obtain ⟨hr, rfl⟩ := eval_checkValid.mp h
  obtain ⟨hv, hlo, hhi⟩ := validateListenPort_ok hr
  exact ⟨hv, hlo, hhi, rfl⟩

/-- A port that passes the check is `current`, or no peer of the node has it. -/
theorem eval_checkPortFree {current : Int} {u : Unit}
    (h : eval (checkPortFree n port current) db = (.ok u, db')) :
    port ≠ 0 → port ≠ current → port ∉ db.usedPorts n := by
  obtain ⟨used, h1, h⟩ := Atomic.eval_bind_read (readOnly_usedListenPorts n) h
  obtain rfl := eval_usedListenPorts h1
  intro hzero hcurrent hused
  have hother : (otherPorts (db.usedPorts n) current).contains port = true := by
    simp [otherPorts, hused, hzero, hcurrent]
  rw [if_pos hother] at h
  cases h

theorem readOnly_checkPortFree (n : Str) (port current : Int) :
    ReadOnly (checkPortFree n port current) := by
  refine .bind (readOnly_usedListenPorts n) fun used => ?_
  split
  · exact .fail _
  · exact .pure _

theorem readOnly_modifiedPort (n : Str) (given : Option Int) (current : Int) :
    ReadOnly (modifiedPort n given current) := by
  refine .bind (readOnly_checkValid _) fun port => ?_
  split
  · exact .bind (readOnly_checkPortFree ..) fun _ => .pure _
  · exact .pure _

/-- The port of a modified peer: the one given, or the one it has; a new one is
free. -/
theorem eval_modifiedPort {given : Option Int} {current : Int}
    (h : eval (modifiedPort n given current) db = (.ok port, db')) :
    port = given.getD current ∧ 0 ≤ port ∧ port ≤ maxPort ∧
      (port ≠ 0 → port ≠ current → port ∉ db.usedPorts n) := by
  obtain ⟨checked, h1, h⟩ := Atomic.eval_bind_read (readOnly_checkValid _) h
  obtain ⟨hport, hlo, hhi, -⟩ := eval_validPort h1
  split at h
  · obtain ⟨u, h2, h⟩ := Atomic.eval_bind_read (readOnly_checkPortFree ..) h
    obtain ⟨rfl, -⟩ := eval_pure.mp h
    exact ⟨hport, hlo, hhi, eval_checkPortFree h2⟩
  · rename_i hkeep
    obtain ⟨rfl, -⟩ := eval_pure.mp h
    refine ⟨hport, hlo, hhi, fun hzero hcurrent => ?_⟩
    -- a port that was not given is the current one
    cases given with
    | none => exact absurd hport hcurrent
    | some p => exact absurd ⟨rfl, by omega, hcurrent⟩ hkeep

/-- The port of a new BGP peer is not compared with the ports in use. -/
theorem eval_bgpListenPort {asn : Int} {given : Option Int}
    (h : eval (bgpListenPort asn given) db = (.ok port, db')) :
    port = given.getD (lastFive asn) ∧ (given.isSome → 0 ≤ port) ∧ port ≤ maxPort := by
  cases given with
  | none =>
      rw [bgpListenPort] at h
      split at h
      · cases h
      · obtain ⟨rfl, -⟩ := eval_pure.mp h
        exact ⟨rfl, by simp, by omega⟩
  | some p =>
      obtain ⟨hport, hlo, hhi, -⟩ := eval_validPort h
      exact ⟨hport, fun _ => hlo, hhi⟩

theorem readOnly_bgpListenPort (asn : Int) (given : Option Int) :
    ReadOnly (bgpListenPort asn given) := by
  cases given with
  | none =>
      rw [bgpListenPort]
      split
      · exact .fail _
      · exact .pure _
  | some p => exact readOnly_checkValid _

/-- A port that is drawn is not in use. -/
theorem pickFrom_ok {draw : Nat → Nat} {used : List Int} {left i : Nat}
    (h : pickFrom draw used left i = .ok port) :
    port ∉ used ∧ 30000 ≤ port ∧ port < 50000 := by
  induction left generalizing i with
  | zero => cases h
  | succ left ih =>
      rw [pickFrom] at h
      split at h
      · exact ih h
      · rename_i hfree
        cases h
        rw [randomPort] at hfree ⊢
        refine ⟨fun hused => hfree ?_, by omega, by omega⟩
        simpa using hused

/-- The port of a new tunnel is free. -/
theorem eval_ibgpListenPort {env : PeerEnv} {given : Option Int}
    (h : eval (ibgpListenPort env n given) db = (.ok port, db')) :
    0 ≤ port ∧ port ≤ maxPort ∧ (port ≠ 0 → port ∉ db.usedPorts n) := by
  cases given with
  | none =>
      obtain ⟨used, h1, h⟩ := Atomic.eval_bind_read (readOnly_usedListenPorts n) h
      obtain rfl := eval_usedListenPorts h1
      obtain ⟨hfree, hlo, hhi⟩ := pickFrom_ok (eval_check.mp h).1
      have hmax : maxPort = 65535 := rfl
      refine ⟨by omega, by omega, fun hzero hused => hfree ?_⟩
      simp [otherPorts, hused, hzero]
  | some p =>
      obtain ⟨checked, h1, h⟩ := Atomic.eval_bind_read (readOnly_checkValid _) h
      obtain ⟨hport, hlo, hhi, -⟩ := eval_validPort h1
      split at h
      · obtain ⟨u, h2, h⟩ := Atomic.eval_bind_read (readOnly_checkPortFree ..) h
        obtain ⟨rfl, -⟩ := eval_pure.mp h
        exact ⟨hlo, hhi, fun hzero => eval_checkPortFree h2 hzero hzero⟩
      · obtain ⟨rfl, -⟩ := eval_pure.mp h
        exact ⟨hlo, hhi, fun hzero => by omega⟩

theorem readOnly_ibgpListenPort (env : PeerEnv) (n : Str) (given : Option Int) :
    ReadOnly (ibgpListenPort env n given) := by
  cases given with
  | none => exact .bind (readOnly_usedListenPorts n) fun _ => readOnly_check _
  | some p =>
      refine .bind (readOnly_checkValid _) fun port => ?_
      split
      · exact .bind (readOnly_checkPortFree ..) fun _ => .pure _
      · exact .pure _

end Ports

/-! ## rows -/

section Rows

variable {now n : Str} {u : Unit} {db db' : Db}

/-- A row that is inserted is the last one, and no row of the node has its key. -/
theorem rows_of_insertBgpPeer {r : BgpPeerRecord}
    (h : eval (wrapDatabaseError (Database.insertBgpPeer now r)) db = (.ok u, db')) :
    db'.bgpPeers = db.bgpPeers ++ [{ r with createdAt := now, updatedAt := now }] ∧
      db'.ibgpPeers = db.ibgpPeers ∧
      ∀ x ∈ db.bgpPeers, x.nodeId = r.nodeId → x.peerAsn ≠ r.peerAsn ∧ x.ifname ≠ r.ifname := by
  obtain ⟨c', hrun, rfl⟩ := eval_eq_ok.mp (eval_wrapDatabaseError.mp h)
  obtain ⟨a, w, -, hw, hrun⟩ := bind_execute (run_guarded_eq_ok.mp hrun)
  rw [committed_of_commit (bind_emit hrun)]
  rw [Db.insertBgpRow] at hw
  split at hw
  · cases hw
  · rename_i hkey
    split at hw
    · cases hw
    · cases hw
      refine ⟨rfl, rfl, fun x hx hnode => ?_⟩
      simp only [List.any_eq_true, Bool.and_eq_true, Bool.or_eq_true, beq_iff_eq, not_exists,
        not_and, not_or] at hkey
      exact hkey x hx hnode

/-- The rows after the insert of an iBGP peer. -/
theorem rows_of_insertIbgpPeer {r : IbgpPeerRecord}
    (h : eval (wrapDatabaseError (Database.insertIbgpPeer now r)) db = (.ok u, db')) :
    db'.ibgpPeers = db.ibgpPeers ++ [{ r with createdAt := now, updatedAt := now }] ∧
      db'.bgpPeers = db.bgpPeers ∧
      ∀ x ∈ db.ibgpPeers, x.nodeId = r.nodeId → x.name ≠ r.name ∧ x.ifname ≠ r.ifname := by
  obtain ⟨c', hrun, rfl⟩ := eval_eq_ok.mp (eval_wrapDatabaseError.mp h)
  obtain ⟨a, w, -, hw, hrun⟩ := bind_execute (run_guarded_eq_ok.mp hrun)
  rw [committed_of_commit (bind_emit hrun)]
  rw [Db.insertIbgpRow] at hw
  split at hw
  · cases hw
  · rename_i hkey
    split at hw
    · cases hw
    · cases hw
      refine ⟨rfl, rfl, fun x hx hnode => ?_⟩
      simp only [List.any_eq_true, Bool.and_eq_true, Bool.or_eq_true, beq_iff_eq, not_exists,
        not_and, not_or] at hkey
      exact hkey x hx hnode

/-- The rows after the update of a BGP peer. -/
theorem rows_of_updateBgpPeer {asn : Int} {up : Database.BgpUpdate}
    (h : eval (wrapDatabaseError (Database.updateBgpPeer now n asn up)) db = (.ok u, db')) :
    db'.bgpPeers = Rows.updateWhere (BgpRow.is n asn) (up.apply now) db.bgpPeers ∧
      db'.ibgpPeers = db.ibgpPeers := by
  have hsome := found_of_updateBgpPeer (eval_wrapDatabaseError.mp h)
  rw [eval_updateBgpPeer (eval_wrapDatabaseError.mp h)]
  simp only [Call.after, Call.commit, hsome, if_true]
  exact ⟨rfl, rfl⟩

/-- The rows after the update of an iBGP peer. -/
theorem rows_of_updateIbgpPeer {name : Str} {up : Database.IbgpUpdate}
    (h : eval (wrapDatabaseError (Database.updateIbgpPeer now n name up)) db = (.ok u, db')) :
    db'.ibgpPeers = Rows.updateWhere (IbgpRow.is n name) (up.apply now) db.ibgpPeers ∧
      db'.bgpPeers = db.bgpPeers := by
  have hsome := found_of_updateIbgpPeer (eval_wrapDatabaseError.mp h)
  rw [eval_updateIbgpPeer (eval_wrapDatabaseError.mp h)]
  simp only [Call.after, Call.commit, hsome, if_true]
  exact ⟨rfl, rfl⟩

end Rows

/-! ## the operations -/

section Operations

variable {env : PeerEnv} {cfg : Str} {db db' : Db}

/-- The row `create_bgp_peer` stores. -/
def newBgpRow (env : PeerEnv) (cfg : Str) (a : BgpPeerArgs) (backend : Str) (port : Int)
    (keys : Str × Str) : BgpRow where
  nodeId := orDefault a.nodeId cfg
  peerAsn := a.peerAsn
  ifname := lit "dn42_" ++ lastChars 4 (ofInt a.peerAsn)
  wgPrivateKey := keys.1
  wgPublicKey := keys.2
  peerPublicKey := some a.peerPublicKey
  endpoint := some a.endpoint
  localLla := orDefault a.localLla (generateRandomLla (env.draw 0) (env.draw 1))
  peerLla := some a.peerLla
  listenPort := port
  allowedIps := a.allowedIps.getD defaultAllowedIps
  netBackend := backend
  createdAt := env.now
  updatedAt := env.now

/-- What `create_bgp_peer` has checked and stored. -/
theorem eval_createBgpPeer {a : BgpPeerArgs} {res : PeerResult}
    (h : eval (createBgpPeer env cfg a) db = (.ok res, db')) :
    ∃ (backend : Str) (port : Int) (keys : Str × Str),
      validateNetBackend a.netBackend = .ok backend ∧
      db.getBgpPeer (orDefault a.nodeId cfg) a.peerAsn = none ∧
      (port = a.listenPort.getD (lastFive a.peerAsn) ∧ (a.listenPort.isSome → 0 ≤ port) ∧
        port ≤ maxPort) ∧
      validateAllowedIpsList (a.allowedIps.getD defaultAllowedIps) = .ok () ∧
      db'.bgpPeers = db.bgpPeers ++ [newBgpRow env cfg a backend port keys] ∧
      db'.ibgpPeers = db.ibgpPeers ∧
      ∀ x ∈ db.bgpPeers, x.nodeId = orDefault a.nodeId cfg →
        x.peerAsn ≠ a.peerAsn ∧ x.ifname ≠ lit "dn42_" ++ lastChars 4 (ofInt a.peerAsn) := by
  obtain ⟨backend, hbackend, h⟩ := Atomic.eval_bind_read (readOnly_checkValid _) h
  obtain ⟨u, mid, h1, h⟩ := (atomic_ensureNode _).eval_bind h
  obtain ⟨hbgp, hibgp⟩ := eval_ensureNode_peers h1
  obtain ⟨existing, h2, h⟩ := Atomic.eval_bind_read (readOnly_wrapDatabaseError (.queryOr ..)) h
  have hexisting : existing = db.getBgpPeer (orDefault a.nodeId cfg) a.peerAsn := by
    rw [(eval_queryOr (eval_wrapDatabaseError.mp h2)).1, Db.getBgpPeer, hbgp]
    rfl
  split at h
  · cases h
  · rename_i hnone
    rw [hexisting, Option.not_isSome_iff_eq_none] at hnone
    obtain ⟨port, h3, h⟩ := Atomic.eval_bind_read (readOnly_bgpListenPort ..) h
    obtain ⟨keys, -, h⟩ := Atomic.eval_bind_read (readOnly_resolveWgKeypair ..) h
    obtain ⟨u, h4, h⟩ := Atomic.eval_bind_read (readOnly_checkValid _) h
    obtain ⟨u, mid', h5, h⟩ := (atomic_insertBgpPeer ..).eval_bind h
    obtain ⟨-, rfl⟩ := eval_pure.mp h
    have hrows := rows_of_insertBgpPeer h5
    rw [hbgp, hibgp] at hrows
    exact ⟨backend, port, keys, (eval_checkValid.mp hbackend).1, hnone, eval_bgpListenPort h3,
      (eval_checkValid.mp h4).1, hrows⟩

/-- What `modify_bgp_peer` writes. -/
theorem eval_modifyBgpPeer {a : BgpPeerArgs} {res : PeerResult}
    (h : eval (modifyBgpPeer env cfg a) db = (.ok res, db')) :
    ∃ (backend : Str) (row : BgpRow) (port : Int),
      validateNetBackend a.netBackend = .ok backend ∧
      db.getBgpPeer (orDefault a.nodeId cfg) a.peerAsn = some row ∧
      (port = a.listenPort.getD row.listenPort ∧ 0 ≤ port ∧ port ≤ maxPort ∧
        (port ≠ 0 → port ≠ row.listenPort → port ∉ db.usedPorts (orDefault a.nodeId cfg))) ∧
      validateAllowedIpsList (a.allowedIps.getD row.allowedIps) = .ok () ∧
      db'.bgpPeers = Rows.updateWhere (BgpRow.is (orDefault a.nodeId cfg) a.peerAsn)
        (Database.BgpUpdate.apply
          { peerPublicKey := some a.peerPublicKey, endpoint := some a.endpoint,
            peerLla := some a.peerLla, listenPort := port,
            allowedIps := a.allowedIps.getD row.allowedIps, netBackend := backend } env.now)
        db.bgpPeers ∧
      db'.ibgpPeers = db.ibgpPeers := by
  obtain ⟨backend, hbackend, h⟩ := Atomic.eval_bind_read (readOnly_checkValid _) h
  obtain ⟨u, mid, h1, h⟩ := (atomic_ensureNode _).eval_bind h
  obtain ⟨hbgp, hibgp⟩ := eval_ensureNode_peers h1
  obtain ⟨found, h2, h⟩ := Atomic.eval_bind_read (readOnly_wrapDatabaseError (.queryOr ..)) h
  have hfound : found = db.getBgpPeer (orDefault a.nodeId cfg) a.peerAsn := by
    rw [(eval_queryOr (eval_wrapDatabaseError.mp h2)).1, Db.getBgpPeer, hbgp]
    rfl
  cases found with
  | none => cases h
  | some row =>
      obtain ⟨port, h3, h⟩ := Atomic.eval_bind_read (readOnly_modifiedPort ..) h
      obtain ⟨u, h4, h⟩ := Atomic.eval_bind_read (readOnly_checkValid _) h
      obtain ⟨u, mid', h5, h⟩ := (atomic_updateBgpPeer ..).eval_bind h
      obtain ⟨-, rfl⟩ := eval_pure.mp h
      have hport := eval_modifiedPort h3
      rw [Db.usedPorts, Db.bgpRowsOf, Db.ibgpRowsOf, hbgp, hibgp] at hport
      have hrows := rows_of_updateBgpPeer h5
      rw [hbgp, hibgp] at hrows
      exact ⟨backend, row, port, (eval_checkValid.mp hbackend).1, hfound.symm, hport,
        (eval_checkValid.mp h4).1, hrows⟩

/-- What `delete_bgp_peer` has deleted. -/
theorem eval_deleteBgpPeer {asn : Int} {m : Option Str} {u : Unit}
    (h : eval (deleteBgpPeer env cfg asn m) db = (.ok u, db')) :
    (db.getBgpPeer (orDefault m cfg) asn).isSome ∧
      db'.bgpPeers = Rows.deleteWhere (BgpRow.is (orDefault m cfg) asn) db.bgpPeers ∧
      db'.ibgpPeers = db.ibgpPeers := by
  obtain ⟨found, h1, h⟩ := Atomic.eval_bind_read (readOnly_wrapDatabaseError (.queryOr ..)) h
  have hfound := (eval_queryOr (eval_wrapDatabaseError.mp h1)).1
  cases found with
  | none => cases h
  | some row =>
      obtain ⟨r, mid, h2, h⟩ := (atomic_wrapDatabaseError (atomic_deletePeer ..)).eval_bind h
      obtain ⟨-, rfl⟩ := eval_pure.mp h
      rw [eval_deletePeer (eval_wrapDatabaseError.mp h2), ← hfound]
      exact ⟨rfl, rfl, rfl⟩

/-- The columns of a new tunnel. -/
theorem eval_tunnelFor {n : Str} {a : IbgpPeerArgs} {t : Tunnel}
    (h : eval (tunnelFor env n a) db = (.ok t, db')) :
    (a.hasWg = true ∧
      validateNetBackend (orDefault a.netBackend (lit "networkd")) = .ok t.backend ∧
      (0 ≤ t.listenPort ∧ t.listenPort ≤ maxPort ∧
        (t.listenPort ≠ 0 → t.listenPort ∉ db.usedPorts n)) ∧
      (∃ c, validateRxcost a.babelRxcost = .ok c) ∧
      (∃ b, validateBabelType a.babelType = .ok b) ∧
      t.allowedIps = a.allowedIps.getD ibgpAllowedIps ∧
      validateAllowedIpsList t.allowedIps = .ok ()) ∨
    (a.hasWg = false ∧
      t = ⟨lit "networkd", 0, [], [], [], a.allowedIps.getD ibgpAllowedIps⟩) := by
  rw [tunnelFor] at h
  split at h
  · obtain ⟨backend, h1, h⟩ := Atomic.eval_bind_read (readOnly_checkValid _) h
    obtain ⟨port, h2, h⟩ := Atomic.eval_bind_read (readOnly_ibgpListenPort ..) h
    obtain ⟨cost, h3, h⟩ := Atomic.eval_bind_read (readOnly_checkValid _) h
    obtain ⟨type, h4, h⟩ := Atomic.eval_bind_read (readOnly_checkValid _) h
    obtain ⟨keys, -, h⟩ := Atomic.eval_bind_read (readOnly_resolveWgKeypair ..) h
    obtain ⟨u, h5, h⟩ := Atomic.eval_bind_read (readOnly_checkValid _) h
    obtain ⟨rfl, -⟩ := eval_pure.mp h
    exact .inl ⟨‹_›, (eval_checkValid.mp h1).1, eval_ibgpListenPort h2,
      ⟨cost, (eval_checkValid.mp h3).1⟩, ⟨type, (eval_checkValid.mp h4).1⟩, rfl,
      (eval_checkValid.mp h5).1⟩
  · rename_i hwg
    obtain ⟨rfl, -⟩ := eval_pure.mp h
    exact .inr ⟨Bool.eq_false_iff.mpr hwg, rfl⟩

theorem readOnly_tunnelFor (env : PeerEnv) (n : Str) (a : IbgpPeerArgs) :
    ReadOnly (tunnelFor env n a) := by
  rw [tunnelFor]
  split
  · exact .bind (readOnly_checkValid _) fun _ => .bind (readOnly_ibgpListenPort ..) fun _ =>
      .bind (readOnly_checkValid _) fun _ => .bind (readOnly_checkValid _) fun _ =>
      .bind (readOnly_resolveWgKeypair ..) fun _ => .bind (readOnly_checkValid _) fun _ => .pure _
  · exact .pure _

/-- The row `create_ibgp_peer` stores. -/
def newIbgpRow (env : PeerEnv) (cfg : Str) (a : IbgpPeerArgs) (peerName : Str) (t : Tunnel) :
    IbgpRow where
  nodeId := orDefault a.nodeId cfg
  name := peerName
  ifname := lit "wg_" ++ peerName
  wgPrivateKey := t.privateKey
  wgPublicKey := t.publicKey
  peerPublicKey := some (orDefault a.peerPublicKey [])
  endpoint := some (orDefault a.endpoint [])
  localLla := t.localLla
  peerLla := some (orDefault a.peerLla [])
  listenPort := t.listenPort
  allowedIps := t.allowedIps
  netBackend := t.backend
  babelRxcost := a.babelRxcost
  peerIp := some a.peerIp
  hasWg := a.hasWg
  babelType := a.babelType
  remoteNodeId := a.remoteNodeId
  createdAt := env.now
  updatedAt := env.now

/-- What `create_ibgp_peer` has checked and stored. -/
theorem eval_createIbgpPeer {a : IbgpPeerArgs} {res : PeerResult}
    (h : eval (createIbgpPeer env cfg a) db = (.ok res, db')) :
    ∃ (peerName : Str) (t : Tunnel) (mid : Db),
      sanitizeName a.name = .ok peerName ∧
      (mid.bgpPeers = db.bgpPeers ∧ mid.ibgpPeers = db.ibgpPeers) ∧
      eval (tunnelFor env (orDefault a.nodeId cfg) a) mid = (.ok t, mid) ∧
      db'.ibgpPeers = db.ibgpPeers ++ [newIbgpRow env cfg a peerName t] ∧
      db'.bgpPeers = db.bgpPeers ∧
      ∀ x ∈ db.ibgpPeers, x.nodeId = orDefault a.nodeId cfg →
        x.name ≠ peerName ∧ x.ifname ≠ lit "wg_" ++ peerName := by
  obtain ⟨u, mid, h1, h⟩ := (atomic_ensureNode _).eval_bind h
  have hmid := eval_ensureNode_peers h1
  obtain ⟨peerName, h2, h⟩ := Atomic.eval_bind_read (readOnly_check _) h
  dsimp only at h
  split at h
  · cases h
  · obtain ⟨t, h3, h⟩ := Atomic.eval_bind_read (readOnly_tunnelFor ..) h
    obtain ⟨u, mid', h4, h⟩ := (atomic_insertIbgpPeer ..).eval_bind h
    obtain ⟨-, rfl⟩ := eval_pure.mp h
    have hrows := rows_of_insertIbgpPeer h4
    rw [hmid.1, hmid.2] at hrows
    exact ⟨peerName, t, mid, (eval_check.mp h2).1, hmid, h3, hrows⟩

/-- What `modify_ibgp_peer` writes. -/
theorem eval_modifyIbgpPeer {a : IbgpModifyArgs} {res : PeerResult}
    (h : eval (modifyIbgpPeer env cfg a) db = (.ok res, db')) :
    ∃ (backend peerName : Str) (row : IbgpRow) (port : Int),
      validateNetBackend a.netBackend = .ok backend ∧
      (∃ c, validateRxcost a.babelRxcost = .ok c) ∧
      (∃ b, validateBabelType a.babelType = .ok b) ∧
      sanitizeName a.name = .ok peerName ∧
      db.getIbgpPeer (orDefault a.nodeId cfg) peerName = some row ∧
      row.hasWg = true ∧
      (port = a.listenPort.getD row.listenPort ∧ 0 ≤ port ∧ port ≤ maxPort ∧
        (port ≠ 0 → port ≠ row.listenPort → port ∉ db.usedPorts (orDefault a.nodeId cfg))) ∧
      validateAllowedIpsList (a.allowedIps.getD row.allowedIps) = .ok () ∧
      db'.ibgpPeers = Rows.updateWhere (IbgpRow.is (orDefault a.nodeId cfg) peerName)
        (Database.IbgpUpdate.apply
          { peerPublicKey := some a.peerPublicKey, endpoint := some a.endpoint,
            peerLla := some a.peerLla, listenPort := port,
            allowedIps := a.allowedIps.getD row.allowedIps, netBackend := backend,
            babelRxcost := a.babelRxcost, peerIp := some a.peerIp, babelType := a.babelType,
            remoteNodeId := a.remoteNodeId } env.now)
        db.ibgpPeers ∧
      db'.bgpPeers = db.bgpPeers := by
  obtain ⟨backend, hbackend, h⟩ := Atomic.eval_bind_read (readOnly_checkValid _) h
  obtain ⟨cost, hcost, h⟩ := Atomic.eval_bind_read (readOnly_checkValid _) h
  obtain ⟨type, htype, h⟩ := Atomic.eval_bind_read (readOnly_checkValid _) h
  obtain ⟨u, mid, h1, h⟩ := (atomic_ensureNode _).eval_bind h
  obtain ⟨hbgp, hibgp⟩ := eval_ensureNode_peers h1
  obtain ⟨peerName, hname, h⟩ := Atomic.eval_bind_read (readOnly_check _) h
  obtain ⟨found, h2, h⟩ := Atomic.eval_bind_read (readOnly_wrapDatabaseError (.queryOr ..)) h
  have hfound : found = db.getIbgpPeer (orDefault a.nodeId cfg) peerName := by
    rw [(eval_queryOr (eval_wrapDatabaseError.mp h2)).1, Db.getIbgpPeer, hibgp]
    rfl
  cases found with
  | none => cases h
  | some row =>
      dsimp only at h
      split at h
      · cases h
      · rename_i hwg
        obtain ⟨port, h3, h⟩ := Atomic.eval_bind_read (readOnly_modifiedPort ..) h
        obtain ⟨u, h4, h⟩ := Atomic.eval_bind_read (readOnly_checkValid _) h
        obtain ⟨u, mid', h5, h⟩ := (atomic_updateIbgpPeer ..).eval_bind h
        obtain ⟨-, rfl⟩ := eval_pure.mp h
        have hport := eval_modifiedPort h3
        rw [Db.usedPorts, Db.bgpRowsOf, Db.ibgpRowsOf, hbgp, hibgp] at hport
        have hrows := rows_of_updateIbgpPeer h5
        rw [hbgp, hibgp] at hrows
        exact ⟨backend, peerName, row, port, (eval_checkValid.mp hbackend).1,
          ⟨cost, (eval_checkValid.mp hcost).1⟩, ⟨type, (eval_checkValid.mp htype).1⟩,
          (eval_check.mp hname).1, hfound.symm, by simpa using hwg, hport,
          (eval_checkValid.mp h4).1, hrows⟩

/-- What `delete_ibgp_peer` has deleted. -/
theorem eval_deleteIbgpPeer {name : Str} {m : Option Str} {u : Unit}
    (h : eval (deleteIbgpPeer env cfg name m) db = (.ok u, db')) :
    ∃ peerName, sanitizeName name = .ok peerName ∧
      (db.getIbgpPeer (orDefault m cfg) peerName).isSome ∧
      db'.ibgpPeers = Rows.deleteWhere (IbgpRow.is (orDefault m cfg) peerName) db.ibgpPeers ∧
      db'.bgpPeers = db.bgpPeers := by
  obtain ⟨peerName, hname, h⟩ := Atomic.eval_bind_read (readOnly_check _) h
  obtain ⟨found, h1, h⟩ := Atomic.eval_bind_read (readOnly_wrapDatabaseError (.queryOr ..)) h
  have hfound := (eval_queryOr (eval_wrapDatabaseError.mp h1)).1
  refine ⟨peerName, (eval_check.mp hname).1, ?_⟩
  cases found with
  | none => cases h
  | some row =>
      obtain ⟨r, mid, h2, h⟩ := (atomic_wrapDatabaseError (atomic_deletePeer ..)).eval_bind h
      obtain ⟨-, rfl⟩ := eval_pure.mp h
      rw [eval_deletePeer (eval_wrapDatabaseError.mp h2), ← hfound]
      exact ⟨rfl, rfl, rfl⟩

end Operations

end Dn42Ctl
