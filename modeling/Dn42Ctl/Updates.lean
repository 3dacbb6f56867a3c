import Dn42Ctl.NodeAdmin
import Dn42Ctl.PeerSpecs
import Dn42Ctl.Hub
import Dn42Ctl.Lib.PartialUpdate

/-!
# Updates

The partial updates of the hub: `set_policy`, `modify_bgp_peer` and
`modify_ibgp_peer`.  Each reads a row, merges in the caller's values and writes
the row back in a later transaction, so that two of them may interleave.
-/

namespace Dn42Ctl

open Text Txn PartialUpdate

/-! ## the steps of a call -/

/-- What a step on the hub's database gives: a value, or nothing when it raises. -/
def attempt {α : Type} (m : DbTx α) (db : Db) : Option α × Db :=
  ((eval m db).1.toOption, (eval m db).2)

/-- A statement that returned in an attempt returns by itself. -/
theorem attempt_eq_some {α : Type} {m : DbTx α} {db : Db} {a : α} (h : (attempt m db).1 = some a) :
    eval m db = (.ok a, (eval m db).2) := by
  rw [attempt] at h
  cases hr : (eval m db).1 with
  | error e => simp [hr, Except.toOption] at h
  | ok b =>
      simp only [hr, Except.toOption, Option.some.injEq] at h
      rw [← h, ← hr]

/-- An attempt with an outcome is a call that returned. -/
theorem attempt_isSome {α : Type} {m : DbTx α} {db : Db} (h : (attempt m db).1.isSome = true) :
    ∃ a, eval m db = (.ok a, (attempt m db).2) := by
  obtain ⟨a, ha⟩ := Option.isSome_iff_exists.mp h
  exact ⟨a, attempt_eq_some ha⟩

/-- An attempt without one is a call that raised. -/
theorem attempt_isNone {α : Type} {m : DbTx α} {db : Db} (h : (attempt m db).1.isSome = false) :
    ∃ e, eval m db = (.error e, (attempt m db).2) := by
  rw [attempt] at h
  cases hr : (eval m db).1 with
  | error e => exact ⟨e, Prod.ext hr rfl⟩
  | ok b => simp [hr, Except.toOption] at h

/-- Everything `modify_bgp_peer` does before it looks at the port: the backend
and the row. -/
def modifyBgpRead (configNodeId : Str) (a : BgpPeerArgs) : DbTx (Str × BgpRow) := do
  let backend ← normalizeNetBackend a.netBackend
  let nodeId := orDefault a.nodeId configNodeId
  ensureNode nodeId
  match ← wrapDatabaseError (Database.getBgpPeer nodeId a.peerAsn) with
  | none => failWith "该 BGP peer 不存在"
  | some row => pure (backend, row)

/-- The rest of `modify_bgp_peer`. -/
def modifyBgpWrite (env : PeerEnv) (configNodeId : Str) (a : BgpPeerArgs) (found : Str × BgpRow)
    (port : Int) : DbTx PeerResult := do
  let allowedIps := a.allowedIps.getD found.2.allowedIps
  checkValid (validateAllowedIpsList allowedIps)
  wrapDatabaseError (Database.updateBgpPeer env.now (orDefault a.nodeId configNodeId) a.peerAsn
    { peerPublicKey := some a.peerPublicKey, endpoint := some a.endpoint,
      peerLla := some a.peerLla, listenPort := port, allowedIps, netBackend := found.1 })
  pure ⟨found.2.ifname, port, found.2.wgPublicKey, found.2.localLla⟩

/-- A call is its three steps. -/
theorem modifyBgpPeer_eq (env : PeerEnv) (cfg : Str) (a : BgpPeerArgs) :
    modifyBgpPeer env cfg a = (do
      let found ← modifyBgpRead cfg a
      let port ← modifiedPort (orDefault a.nodeId cfg) a.listenPort found.2.listenPort
      modifyBgpWrite env cfg a found port) := by
  rw [modifyBgpPeer, modifyBgpRead, Prog.bind_assoc]
  refine congrArg _ (funext fun backend => ?_)
  rw [Prog.bind_assoc]
  dsimp only
  refine congrArg _ (funext fun _ => ?_)
  rw [Prog.bind_assoc]
  refine congrArg _ (funext fun found => ?_)
  cases found with
  | none => rfl
  | some row => rfl

/-- The same for `modify_ibgp_peer`: the backend, the name and the row. -/
def modifyIbgpRead (configNodeId : Str) (a : IbgpModifyArgs) : DbTx (Str × Str × IbgpRow) := do
  let backend ← normalizeNetBackend a.netBackend
  let _ ← checkValid (validateRxcost a.babelRxcost)
  let _ ← checkValid (validateBabelType a.babelType)
  let nodeId := orDefault a.nodeId configNodeId
  ensureNode nodeId
  let peerName ← check (sanitizeName a.name)
  match ← wrapDatabaseError (Database.getIbgpPeer nodeId peerName) with
  | none => failWith "该 iBGP peer 不存在"
  | some row =>
      if !row.hasWg then
        failWith "该 iBGP peer 未启用 WireGuard，不支持修改 WG 相关参数"
      else pure (backend, peerName, row)

def modifyIbgpWrite (env : PeerEnv) (configNodeId : Str) (a : IbgpModifyArgs)
    (found : Str × Str × IbgpRow) (port : Int) : DbTx PeerResult := do
  let allowedIps := a.allowedIps.getD found.2.2.allowedIps
  checkValid (validateAllowedIpsList allowedIps)
  wrapDatabaseError (Database.updateIbgpPeer env.now (orDefault a.nodeId configNodeId) found.2.1
    { peerPublicKey := some a.peerPublicKey, endpoint := some a.endpoint,
      peerLla := some a.peerLla, listenPort := port, allowedIps, netBackend := found.1,
      babelRxcost := a.babelRxcost, peerIp := some a.peerIp, babelType := a.babelType,
      remoteNodeId := a.remoteNodeId })
  pure ⟨found.2.2.ifname, port, found.2.2.wgPublicKey, found.2.2.localLla⟩

/-- `modify_ibgp_peer` is its read, the choice of a port and its write. -/
theorem modifyIbgpPeer_eq (env : PeerEnv) (cfg : Str) (a : IbgpModifyArgs) :
    modifyIbgpPeer env cfg a = (do
      let found ← modifyIbgpRead cfg a
      let port ← modifiedPort (orDefault a.nodeId cfg) a.listenPort found.2.2.listenPort
      modifyIbgpWrite env cfg a found port) := by
  rw [modifyIbgpPeer, modifyIbgpRead, Prog.bind_assoc]
  refine congrArg _ (funext fun backend => ?_)
  rw [Prog.bind_assoc]
  refine congrArg _ (funext fun _ => ?_)
  rw [Prog.bind_assoc]
  refine congrArg _ (funext fun _ => ?_)
  rw [Prog.bind_assoc]
  dsimp only
  refine congrArg _ (funext fun _ => ?_)
  rw [Prog.bind_assoc]
  refine congrArg _ (funext fun peerName => ?_)
  rw [Prog.bind_assoc]
  refine congrArg _ (funext fun found => ?_)
  cases found with
  | none => rfl
  | some row =>
      dsimp only
      split
      · rfl
      · rfl

/-! ## policies -/

section Policy

variable (n : Str) (now : Bool → Str) (args : Bool → PolicyArgs)

/-- Two calls of `set_policy` on one node. -/
def policyRace : Race Db ManagedNode Unit where
  read _ := attempt (setPolicyRead n)
  check _ _ db := (some (), db)
  write c node _ db :=
    ((attempt (setPolicyWrite (now c) n (args c) node) db).1.isSome,
      (attempt (setPolicyWrite (now c) n (args c) node) db).2)

def policyFields : Fields Db ManagedNode (fun _ : PolicyField => Str) where
  stored db := (db.getNode n).map fun node => node.writePolicy.text
  found node := node.writePolicy.text
  asked c := (args c).asked

/-- Programs whose handlers only raise return when their body does. -/
theorem run_wrapPolicyError_eq_ok {α : Type} {m : DbTx α} {c c' : Conn Db} {a : α} :
    (wrapPolicyError m).run c = (.ok a, c') ↔ m.run c = (.ok a, c') := by
  apply Prog.run_catching_eq_ok
  intro e s1 b s2 hok
  split at hok
  · cases hok
  · cases hok
  · cases hok

/-- The wrapped write raises only where the write does. -/
theorem run_wrapPolicyError_error {α : Type} {m : DbTx α} {c c' : Conn Db} {e : Exc PyError}
    (h : (wrapPolicyError m).run c = (.error e, c')) : ∃ e', m.run c = (.error e', c') := by
  rw [wrapPolicyError, Prog.run_catching] at h
  cases hm : m.run c with
  | mk r c1 =>
      rw [hm] at h
      cases r with
      | ok a => simp at h
      | error e1 =>
          refine ⟨e1, ?_⟩
          dsimp only at h
          split at h
          · rw [(Prod.mk.inj h).2]
          · rw [(Prod.mk.inj h).2]
          · rw [(Prod.mk.inj h).2]

/-- The wrapper keeps what the write keeps. -/
theorem preserves_wrapPolicyError {α : Type} {I : Db → Prop} {m : DbTx α} (hm : Preserves I m) :
    Preserves I (wrapPolicyError m) := by
  refine .catching hm fun e => ?_
  split
  · exact .fail _
  · exact .fail _
  · exact preserves_raise _

/-- The read changes nothing. -/
theorem preserves_setPolicyRead {I : Db → Prop} (n : Str) : Preserves I (setPolicyRead n) := by
  refine .bind (preserves_check _) fun m =>
    .bind (preserves_wrapPolicyError (.queryOr _ _ _)) fun found => ?_
  cases found with
  | none => exact .fail _
  | some node => exact .pure _

/-- The read returns the stored node. -/
theorem eval_setPolicyRead {n : Str} {db db' : Db} {node : ManagedNode}
    (h : eval (setPolicyRead n) db = (.ok node, db')) : db.getNode n = some node := by
  obtain ⟨c', hrun, -⟩ := eval_eq_ok.mp h
  obtain ⟨m, c1, h1, hrun⟩ := Prog.run_bind_eq_ok.mp hrun
  obtain ⟨hm, rfl⟩ := run_check_eq_ok.mp h1
  have hmn : m = n := by
    rw [validateNodeId] at hm
    split at hm
    · cases hm
      rfl
    · cases hm
  obtain ⟨found, c2, h2, hrun⟩ := Prog.run_bind_eq_ok.mp hrun
  obtain ⟨-, hfound, -⟩ := run_queryOr_eq_ok.mp (run_wrapPolicyError_eq_ok.mp h2)
  cases found with
  | none => cases hrun
  | some row =>
      rw [Prog.run_pure, Prod.mk.injEq, Except.ok.injEq] at hrun
      rw [← hmn, ← hrun.1]
      exact hfound

/-- A write that returns has checked the policy and found the node. -/
theorem eval_setPolicyWrite {now n : Str} {a : PolicyArgs} {node b : ManagedNode} {db db' : Db}
    (h : eval (setPolicyWrite now n a node) db = (.ok b, db')) :
    ∃ p, validateWritePolicy (a.merge node.writePolicy) = .ok p ∧
      (db.getNode n).isSome ∧
      db'.getNode n =
        (db.getNode n).map fun m => { m with writePolicy := p, updatedAt := now } := by
  obtain ⟨c', hrun, rfl⟩ := eval_eq_ok.mp h
  have hrun := run_wrapPolicyError_eq_ok.mp hrun
  have hafter : c'.committed =
      Call.after now db (.setWritePolicy n (a.merge node.writePolicy)) :=
    eval_setWritePolicy (eval_eq_ok.mpr ⟨c', hrun, rfl⟩)
  obtain ⟨p, c1, h1, h2⟩ := Prog.run_bind_eq_ok.mp hrun
  have hval : validateWritePolicy (a.merge node.writePolicy) = .ok p := (run_check_eq_ok.mp h1).1
  obtain ⟨-, rfl⟩ := run_check_eq_ok.mp h1
  obtain ⟨u, c2, h2, -⟩ := Prog.run_bind_eq_ok.mp h2
  obtain ⟨rowcount, w, -, hw, h2⟩ := bind_execute (run_guarded_eq_ok.mp h2)
  simp only [Except.ok.injEq, Db.updateNodes, Prod.mk.injEq] at hw
  obtain ⟨hzero, -⟩ := bind_abortIf h2
  have hsome : (db.getNode n).isSome := by
    rw [← hw.1] at hzero
    exact isSome_of_countP (beq_eq_false_iff_ne.mp hzero)
  refine ⟨p, hval, hsome, ?_⟩
  rw [hafter, Call.after, Call.commit, hval]
  dsimp only
  rw [if_pos hsome]
  exact Rows.find?_updateWhere_self fun _ _ _ => rfl

/-- A write that raises has changed nothing. -/
theorem eval_setPolicyWrite_error {now n : Str} {a : PolicyArgs} {node : ManagedNode} {db db' : Db}
    {e : Exc PyError} (h : eval (setPolicyWrite now n a node) db = (.error e, db')) : db' = db := by
  simp only [eval, setPolicyWrite, Prod.mk.injEq] at h
  obtain ⟨e', hrun⟩ := run_wrapPolicyError_error (Prod.ext h.1 rfl)
  rcases (atomic_setWritePolicy now n (a.merge node.writePolicy)).run_fresh db none false with
    ⟨b, c1, hok, -⟩ | ⟨e1, c1, herr, hsame⟩
  · rw [hrun] at hok
    cases hok
  · rw [hrun, Prod.mk.injEq] at herr
    rcases hsame with hsame | ⟨-, hlate, -⟩
    · exact h.2.symm.trans ((congrArg Conn.committed herr.2).trans hsame)
    · cases hlate

/-- The race of two policy edits obeys the laws of partial updates. -/
theorem lawful_policy :
    Lawful (policyRace n now args) (policyFields n args) fun _ _ _ => True where
  read_keeps c db := by
    have hdb : (eval (setPolicyRead n) db).2 = db :=
      (preserves_setPolicyRead (I := (· = db)) n).run_fresh rfl none false
    show (policyFields n args).stored (eval (setPolicyRead n) db).2 = _
    rw [hdb]
  read_found c db node h := by
    have hnode := eval_setPolicyRead (attempt_eq_some h)
    simp only [policyFields, hnode, Option.map_some]
  check_keeps c node db := rfl
  check_checks _ _ _ _ _ _ _ := trivial
  write_merges c node k db _ h := by
    obtain ⟨b, hb⟩ := attempt_isSome h
    obtain ⟨p, hval, hsome, hnode⟩ := eval_setPolicyWrite hb
    obtain ⟨m, hm⟩ := Option.isSome_iff_exists.mp hsome
    show ((attempt (setPolicyWrite (now c) n (args c) node) db).2.getNode n).map _ = _
    rw [hnode, hm, Option.map_some, Option.map_some, Option.some.injEq]
    exact funext fun f => text_of_merge hval f
  write_raises c node k db h := by
    obtain ⟨e, he⟩ := attempt_isNone h
    have hdb := eval_setPolicyWrite_error he
    show (policyFields n args).stored (attempt (setPolicyWrite (now c) n (args c) node) db).2 = _
    rw [hdb]

end Policy

/-! ## peers -/

/-- The columns a caller may leave alone. -/
inductive PeerField where
  | listenPort
  | allowedIps
deriving DecidableEq, Repr

abbrev PeerField.Value : PeerField → Type
  | .listenPort => Int
  | .allowedIps => List Str

/-- The two columns of a row. -/
def PeerRecordBase.field (r : PeerRecordBase) : ∀ f : PeerField, f.Value
  | .listenPort => r.listenPort
  | .allowedIps => r.allowedIps

/-- What a caller asks of them. -/
def askedOf (listenPort : Option Int) (allowedIps : Option (List Str)) :
    ∀ f : PeerField, Option f.Value
  | .listenPort => listenPort
  | .allowedIps => allowedIps

/-- The rows after an update, through the queue of events. -/
theorem getBgpPeer_of_update {now n : Str} {asn : Int} {up : Database.BgpUpdate} {u : Unit}
    {db db' : Db} (h : eval (Database.updateBgpPeer now n asn up) db = (.ok u, db')) :
    ∃ r, db.getBgpPeer n asn = some r ∧ db'.getBgpPeer n asn = some (up.apply now r) := by
  obtain ⟨r, hr⟩ := Option.isSome_iff_exists.mp (found_of_updateBgpPeer h)
  refine ⟨r, hr, ?_⟩
  have hrows : db'.bgpPeers =
      Rows.updateWhere (BgpRow.is n asn) (up.apply now) db.bgpPeers := by
    rw [eval_updateBgpPeer h, Call.after, Call.commit, hr]
    rfl
  have hkey : ∀ x ∈ db.bgpPeers, BgpRow.is n asn x = true →
      BgpRow.is n asn (up.apply now x) = BgpRow.is n asn x := fun _ _ _ => rfl
  rw [Db.getBgpPeer, hrows, Rows.find?_updateWhere_self hkey]
  rw [Db.getBgpPeer] at hr
  rw [hr]
  rfl

/-- An update that returned is found under the same name. -/
theorem getIbgpPeer_of_update {now n name : Str} {up : Database.IbgpUpdate} {u : Unit}
    {db db' : Db} (h : eval (Database.updateIbgpPeer now n name up) db = (.ok u, db')) :
    ∃ r, db.getIbgpPeer n name = some r ∧ db'.getIbgpPeer n name = some (up.apply now r) := by
  obtain ⟨r, hr⟩ := Option.isSome_iff_exists.mp (found_of_updateIbgpPeer h)
  refine ⟨r, hr, ?_⟩
  have hrows : db'.ibgpPeers =
      Rows.updateWhere (IbgpRow.is n name) (up.apply now) db.ibgpPeers := by
    rw [eval_updateIbgpPeer h, Call.after, Call.commit, hr]
    rfl
  have hkey : ∀ x ∈ db.ibgpPeers, IbgpRow.is n name x = true →
      IbgpRow.is n name (up.apply now x) = IbgpRow.is n name x := fun _ _ _ => rfl
  rw [Db.getIbgpPeer, hrows, Rows.find?_updateWhere_self hkey]
  rw [Db.getIbgpPeer] at hr
  rw [hr]
  rfl

section Bgp

variable (n cfg : Str) (asn : Int) (env : Bool → PeerEnv) (args : Bool → BgpPeerArgs)

/-- Two calls of `modify_bgp_peer`. -/
def bgpRace : Race Db (Str × BgpRow) Int where
  read c := attempt (modifyBgpRead cfg (args c))
  check c found := attempt
    (modifiedPort (orDefault (args c).nodeId cfg) (args c).listenPort found.2.listenPort)
  write c found port db :=
    ((attempt (modifyBgpWrite (env c) cfg (args c) found port) db).1.isSome,
      (attempt (modifyBgpWrite (env c) cfg (args c) found port) db).2)

def bgpFields : Fields Db (Str × BgpRow) PeerField.Value where
  stored db := (db.getBgpPeer n asn).map fun r => r.field
  found t := t.2.field
  asked c := askedOf (args c).listenPort (args c).allowedIps

variable {n cfg asn args}

/-- The read finds the row that is stored. -/
theorem eval_modifyBgpRead {a : BgpPeerArgs} {found : Str × BgpRow} {db db' : Db}
    (h : eval (modifyBgpRead cfg a) db = (.ok found, db')) :
    db.getBgpPeer (orDefault a.nodeId cfg) a.peerAsn = some found.2 := by
  obtain ⟨backend, -, h⟩ := Atomic.eval_bind_read (readOnly_checkValid _) h
  obtain ⟨u, mid, h1, h⟩ := (atomic_ensureNode _).eval_bind h
  obtain ⟨row, h2, h⟩ :=
    Atomic.eval_bind_read (readOnly_wrapDatabaseError (.queryOr ..)) h
  have hrow : row = db.getBgpPeer (orDefault a.nodeId cfg) a.peerAsn := by
    rw [(eval_queryOr (eval_wrapDatabaseError.mp h2)).1, Db.getBgpPeer,
      (eval_ensureNode_peers h1).1]
    rfl
  cases row with
  | none => cases h
  | some r =>
      obtain ⟨rfl, -⟩ := eval_pure.mp h
      exact hrow.symm

/-- The read of a BGP edit changes at most the node rows. -/
theorem preserves_modifyBgpRead {I : Db → Prop} (h : ∀ w rows, I w → I { w with nodes := rows })
    (a : BgpPeerArgs) : Preserves I (modifyBgpRead cfg a) := by
  refine .bind (preserves_check _) fun backend => .bind (preserves_ensureNode h _) fun _ =>
    .bind (preserves_wrapDatabaseError (.queryOr _ _ _)) fun found => ?_
  cases found with
  | none => exact .fail _
  | some row => exact .pure _

/-- The write stores the merged columns. -/
theorem eval_modifyBgpWrite {e : PeerEnv} {a : BgpPeerArgs} {found : Str × BgpRow} {port : Int}
    {b : PeerResult} {db db' : Db}
    (h : eval (modifyBgpWrite e cfg a found port) db = (.ok b, db')) :
    ∃ r, db'.getBgpPeer (orDefault a.nodeId cfg) a.peerAsn = some r ∧ r.listenPort = port ∧
      r.allowedIps = a.allowedIps.getD found.2.allowedIps := by
  obtain ⟨u, -, h⟩ := Atomic.eval_bind_read (readOnly_checkValid _) h
  obtain ⟨u, mid, h1, h⟩ := (atomic_updateBgpPeer ..).eval_bind h
  obtain ⟨-, rfl⟩ := eval_pure.mp h
  obtain ⟨r, -, hr⟩ := getBgpPeer_of_update (eval_wrapDatabaseError.mp h1)
  exact ⟨_, hr, rfl, rfl⟩

/-- The race of two BGP edits obeys the laws. -/
theorem lawful_bgp (hnode : ∀ c, orDefault (args c).nodeId cfg = n)
    (hasn : ∀ c, (args c).peerAsn = asn) :
    Lawful (bgpRace cfg env args) (bgpFields n asn args) fun c t port =>
      port = (args c).listenPort.getD t.2.listenPort where
  read_keeps c db := by
    have hdb : (eval (modifyBgpRead cfg (args c)) db).2.bgpPeers = db.bgpPeers :=
      (preserves_modifyBgpRead (I := fun w => w.bgpPeers = db.bgpPeers) (fun _ _ hw => hw)
        (args c)).run_fresh rfl none false
    show Option.map _ (Db.getBgpPeer n asn (eval (modifyBgpRead cfg (args c)) db).2) = _
    rw [Db.getBgpPeer, hdb]
    rfl
  read_found c db t h := by
    have hrow := eval_modifyBgpRead (attempt_eq_some h)
    rw [hnode, hasn] at hrow
    simp only [bgpFields, hrow, Option.map_some]
  check_keeps c t db := by
    have hdb : (eval (modifiedPort (orDefault (args c).nodeId cfg) (args c).listenPort
        t.2.listenPort) db).2 = db :=
      (preserves_modifiedPort (I := (· = db)) _ _ _).run_fresh rfl none false
    show (bgpFields n asn args).stored (eval (modifiedPort _ _ _) db).2 = _
    rw [hdb]
  check_checks c _ t db port _ h := by
    exact (eval_modifiedPort (attempt_eq_some h)).1
  write_merges c t port db hport h := by
    obtain ⟨b, hb⟩ := attempt_isSome h
    obtain ⟨r, hr, hrport, hips⟩ := eval_modifyBgpWrite hb
    rw [hnode, hasn] at hr
    show Option.map _ (Db.getBgpPeer n asn (attempt (modifyBgpWrite (env c) cfg (args c) t port)
      db).2) = _
    rw [hr, Option.map_some, Option.some.injEq]
    funext f
    cases f with
    | listenPort => exact hrport.trans hport
    | allowedIps => exact hips
  write_raises c t port db h := by
    obtain ⟨e, he⟩ := attempt_isNone h
    have hraise : SafeRaise (· = db) (modifyBgpWrite (env c) cfg (args c) t port) :=
      .bind (preserves_check _) fun _ =>
        (safeRaise_wrapDatabaseError (.guarded (.bind (.execute _ _) fun _ =>
          .bind (body_requireMatched ..) fun _ => committing_emit ..))).map _
    have hdb := hraise.eval rfl he
    show (bgpFields n asn args).stored (attempt (modifyBgpWrite (env c) cfg (args c) t port)
      db).2 = _
    rw [hdb]

end Bgp

section Ibgp

variable (n cfg name : Str) (env : Bool → PeerEnv) (args : Bool → IbgpModifyArgs)

/-- Two calls of `modify_ibgp_peer`. -/
def ibgpRace : Race Db (Str × Str × IbgpRow) Int where
  read c := attempt (modifyIbgpRead cfg (args c))
  check c found := attempt
    (modifiedPort (orDefault (args c).nodeId cfg) (args c).listenPort found.2.2.listenPort)
  write c found port db :=
    ((attempt (modifyIbgpWrite (env c) cfg (args c) found port) db).1.isSome,
      (attempt (modifyIbgpWrite (env c) cfg (args c) found port) db).2)

def ibgpFields : Fields Db (Str × Str × IbgpRow) PeerField.Value where
  stored db := (db.getIbgpPeer n name).map fun r => r.field
  found t := t.2.2.field
  asked c := askedOf (args c).listenPort (args c).allowedIps

variable {n cfg name args}

/-- The read of an iBGP edit returns the stored row. -/
theorem eval_modifyIbgpRead {a : IbgpModifyArgs} {found : Str × Str × IbgpRow} {db db' : Db}
    (h : eval (modifyIbgpRead cfg a) db = (.ok found, db')) :
    sanitizeName a.name = .ok found.2.1 ∧
      db.getIbgpPeer (orDefault a.nodeId cfg) found.2.1 = some found.2.2 := by
  obtain ⟨backend, -, h⟩ := Atomic.eval_bind_read (readOnly_checkValid _) h
  obtain ⟨rxcost, -, h⟩ := Atomic.eval_bind_read (readOnly_checkValid _) h
  obtain ⟨type, -, h⟩ := Atomic.eval_bind_read (readOnly_checkValid _) h
  obtain ⟨u, mid, h1, h⟩ := (atomic_ensureNode _).eval_bind h
  obtain ⟨peerName, h2, h⟩ := Atomic.eval_bind_read (readOnly_check _) h
  obtain ⟨row, h3, h⟩ :=
    Atomic.eval_bind_read (readOnly_wrapDatabaseError (.queryOr ..)) h
  have hrow : row = db.getIbgpPeer (orDefault a.nodeId cfg) peerName := by
    rw [(eval_queryOr (eval_wrapDatabaseError.mp h3)).1, Db.getIbgpPeer,
      (eval_ensureNode_peers h1).2]
    rfl
  cases row with
  | none => cases h
  | some r =>
      dsimp only at h
      split at h
      · cases h
      · obtain ⟨rfl, -⟩ := eval_pure.mp h
        exact ⟨(eval_check.mp h2).1, hrow.symm⟩

/-- It changes at most the node rows. -/
theorem preserves_modifyIbgpRead {I : Db → Prop} (h : ∀ w rows, I w → I { w with nodes := rows })
    (a : IbgpModifyArgs) : Preserves I (modifyIbgpRead cfg a) := by
  refine .bind (preserves_check _) fun backend => .bind (preserves_check _) fun _ =>
    .bind (preserves_check _) fun _ => .bind (preserves_ensureNode h _) fun _ =>
    .bind (preserves_check _) fun peerName =>
    .bind (preserves_wrapDatabaseError (.queryOr _ _ _)) fun found => ?_
  cases found with
  | none => exact .fail _
  | some row =>
      dsimp only
      split
      · exact .fail _
      · exact .pure _

/-- What the write of an iBGP edit leaves of the row. -/
theorem eval_modifyIbgpWrite {e : PeerEnv} {a : IbgpModifyArgs} {found : Str × Str × IbgpRow}
    {port : Int} {b : PeerResult} {db db' : Db}
    (h : eval (modifyIbgpWrite e cfg a found port) db = (.ok b, db')) :
    ∃ r, db'.getIbgpPeer (orDefault a.nodeId cfg) found.2.1 = some r ∧ r.listenPort = port ∧
      r.allowedIps = a.allowedIps.getD found.2.2.allowedIps := by
  obtain ⟨u, -, h⟩ := Atomic.eval_bind_read (readOnly_checkValid _) h
  obtain ⟨u, mid, h1, h⟩ := (atomic_updateIbgpPeer ..).eval_bind h
  obtain ⟨-, rfl⟩ := eval_pure.mp h
  obtain ⟨r, -, hr⟩ := getIbgpPeer_of_update (eval_wrapDatabaseError.mp h1)
  exact ⟨_, hr, rfl, rfl⟩

/-- The race of two iBGP edits obeys the laws. -/
theorem lawful_ibgp (hnode : ∀ c, orDefault (args c).nodeId cfg = n)
    (hname : ∀ c, sanitizeName (args c).name = .ok name) :
    Lawful (ibgpRace cfg env args) (ibgpFields n name args) fun c t port =>
      t.2.1 = name ∧ port = (args c).listenPort.getD t.2.2.listenPort where
  read_keeps c db := by
    have hdb : (eval (modifyIbgpRead cfg (args c)) db).2.ibgpPeers = db.ibgpPeers :=
      (preserves_modifyIbgpRead (I := fun w => w.ibgpPeers = db.ibgpPeers) (fun _ _ hw => hw)
        (args c)).run_fresh rfl none false
    show Option.map _ (Db.getIbgpPeer n name (eval (modifyIbgpRead cfg (args c)) db).2) = _
    rw [Db.getIbgpPeer, hdb]
    rfl
  read_found c db t h := by
    obtain ⟨hn, hrow⟩ := eval_modifyIbgpRead (attempt_eq_some h)
    rw [hname, Except.ok.injEq] at hn
    rw [hnode, ← hn] at hrow
    simp only [ibgpFields, hrow, Option.map_some]
  check_keeps c t db := by
    have hdb : (eval (modifiedPort (orDefault (args c).nodeId cfg) (args c).listenPort
        t.2.2.listenPort) db).2 = db :=
      (preserves_modifiedPort (I := (· = db)) _ _ _).run_fresh rfl none false
    show (ibgpFields n name args).stored (eval (modifiedPort _ _ _) db).2 = _
    rw [hdb]
  check_checks c _ t db port hread h := by
    obtain ⟨hn, -⟩ := eval_modifyIbgpRead (attempt_eq_some hread)
    rw [hname, Except.ok.injEq] at hn
    exact ⟨hn.symm, (eval_modifiedPort (attempt_eq_some h)).1⟩
  write_merges c t port db hport h := by
    obtain ⟨b, hb⟩ := attempt_isSome h
    obtain ⟨r, hr, hrport, hips⟩ := eval_modifyIbgpWrite hb
    rw [hnode, hport.1] at hr
    show Option.map _ (Db.getIbgpPeer n name (attempt (modifyIbgpWrite (env c) cfg (args c) t port)
      db).2) = _
    rw [hr, Option.map_some, Option.some.injEq]
    funext f
    cases f with
    | listenPort => exact hrport.trans hport.2
    | allowedIps => exact hips
  write_raises c t port db h := by
    obtain ⟨e, he⟩ := attempt_isNone h
    have hraise : SafeRaise (· = db) (modifyIbgpWrite (env c) cfg (args c) t port) :=
      .bind (preserves_check _) fun _ =>
        (safeRaise_wrapDatabaseError (.guarded (.bind (.execute _ _) fun _ =>
          .bind (body_requireMatched ..) fun _ => committing_emit ..))).map _
    have hdb := hraise.eval rfl he
    show (ibgpFields n name args).stored (attempt (modifyIbgpWrite (env c) cfg (args c) t port)
      db).2 = _
    rw [hdb]

end Ibgp

/-! ## what two calls keep -/

/-- **Partial updates**: when two calls of `set_policy` on one node, or of
`modify_bgp_peer` or `modify_ibgp_peer` on one row, have both returned, each
field that one was asked to change and the other to keep has its new value
exactly when, at each write, the fields the caller keeps still have the values it
has read. -/
theorem partial_updates_kept_iff (n : Str) (db : Db) (as : List Bool) :
    (∀ (now : Bool → Str) (args : Bool → PolicyArgs) (t : State Db ManagedNode Unit),
      Machine.exec (step (policyRace n now args)) (State.start db) as = some t →
      BothReturned t →
      (Kept (policyFields n args) t ↔
        Machine.Along (step (policyRace n now args)) (Unchanged (policyFields n args))
          (State.start db) as)) ∧
    (∀ (cfg : Str) (asn : Int) (env : Bool → PeerEnv) (args : Bool → BgpPeerArgs)
      (t : State Db (Str × BgpRow) Int),
      (∀ c, orDefault (args c).nodeId cfg = n) → (∀ c, (args c).peerAsn = asn) →
      Machine.exec (step (bgpRace cfg env args)) (State.start db) as = some t →
      BothReturned t →
      (Kept (bgpFields n asn args) t ↔
        Machine.Along (step (bgpRace cfg env args)) (Unchanged (bgpFields n asn args))
          (State.start db) as)) ∧
    (∀ (cfg name : Str) (env : Bool → PeerEnv) (args : Bool → IbgpModifyArgs)
      (t : State Db (Str × Str × IbgpRow) Int),
      (∀ c, orDefault (args c).nodeId cfg = n) → (∀ c, sanitizeName (args c).name = .ok name) →
      Machine.exec (step (ibgpRace cfg env args)) (State.start db) as = some t →
      BothReturned t →
      (Kept (ibgpFields n name args) t ↔
        Machine.Along (step (ibgpRace cfg env args)) (Unchanged (ibgpFields n name args))
          (State.start db) as)) := by
  refine ⟨?_, ?_, ?_⟩
  · intro now args t hexec ht
    exact kept_iff (lawful_policy n now args) db hexec ht
  · intro cfg asn env args t hnode hasn hexec ht
    exact kept_iff (lawful_bgp env hnode hasn) db hexec ht
  · intro cfg name env args t hnode hname hexec ht
    exact kept_iff (lawful_ibgp env hnode hname) db hexec ht

/-! ### two administrators -/

def auditedNode : Str := lit "00000000-0000-0000-0000-000000000000"

def auditedDb : Db :=
  (Machine.exec hubStep Db.empty
    [⟨.call (.addNode auditedNode (lit "alpha")), lit "t0", none, false⟩]).getD Db.empty

/-- One of them lets peers in, the other one reports. -/
def administrators : Bool → PolicyArgs
  | true => { peerAdd := some (lit "auto_accept") }
  | false => { report := some (lit "auto") }

/-- A run of the two calls. -/
def administered (as : List Bool) : Option (State Db ManagedNode Unit) :=
  Machine.exec (step (policyRace auditedNode (fun _ => lit "t1") administrators))
    (State.start auditedDb) as

/-- How the two calls end and what is then stored. -/
def administered? (as : List Bool) : Option (Bool × Bool × Option WritePolicy) :=
  (administered as).map fun t =>
    (t.stage true == .returned, t.stage false == .returned,
      (t.shared.getNode auditedNode).map fun node => node.writePolicy)

theorem administered_of {as : List Bool} {p : WritePolicy}
    (h : administered? as = some (true, true, some p)) :
    ∃ t, administered as = some t ∧ BothReturned t ∧
      (policyFields auditedNode administrators).stored t.shared = some p.text := by
  obtain ⟨t, ht, hp⟩ := Option.map_eq_some_iff.mp h
  simp only [Prod.mk.injEq, beq_iff_eq] at hp
  obtain ⟨htrue, hfalse, hnode⟩ := hp
  refine ⟨t, ht, ?_, ?_⟩
  · intro c
    cases c with
    | true => exact htrue
    | false => exact hfalse
  · obtain ⟨node, hget, rfl⟩ := Option.map_eq_some_iff.mp hnode
    show Option.map _ (t.shared.getNode auditedNode) = _
    rw [hget]
    rfl

/-- One call after the other. -/
theorem partial_updates_kept_iff_serial :
    ∃ t, administered [true, true, true, false, false, false] = some t ∧ BothReturned t ∧
      Kept (policyFields auditedNode administrators) t ∧
      Machine.Along (step (policyRace auditedNode (fun _ => lit "t1") administrators))
        (Unchanged (policyFields auditedNode administrators)) (State.start auditedDb)
        [true, true, true, false, false, false] := by
  obtain ⟨t, ht, hboth, hstored⟩ := administered_of
    (show administered? [true, true, true, false, false, false] =
      some (true, true, some ⟨.autoAccept, .review, .review, .auto⟩) by decide +kernel)
  have hkept : Kept (policyFields auditedNode administrators) t := by
    refine ⟨_, hstored, fun c f v hasked _ => ?_⟩
    cases c <;> cases f <;> cases hasked <;> rfl
  exact ⟨t, ht, hboth, hkept,
    ((partial_updates_kept_iff auditedNode auditedDb _).1 _ administrators t ht hboth).mp hkept⟩

/-- Both read before either writes: `peer_add` is `review` again. -/
theorem peer_add_lost :
    ∃ t, administered [true, false, true, true, false, false] = some t ∧ BothReturned t ∧
      ¬ Kept (policyFields auditedNode administrators) t := by
  obtain ⟨t, ht, hboth, hstored⟩ := administered_of
    (show administered? [true, false, true, true, false, false] =
      some (true, true, some ⟨.review, .review, .review, .auto⟩) by decide +kernel)
  refine ⟨t, ht, hboth, ?_⟩
  rintro ⟨stored, hs, hkept⟩
  rw [hstored, Option.some.injEq] at hs
  have hadd := hkept true .peerAdd (lit "auto_accept") rfl rfl
  rw [← hs] at hadd
  exact absurd hadd (by decide)

end Dn42Ctl
