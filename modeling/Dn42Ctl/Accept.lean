import Dn42Ctl.Decisions
import Dn42Ctl.Propagation

/-!
# Accept

One `accept_proposal` with nothing beside it: a proposal is dispatched over
three kinds and two tables, and its status is written in a transaction of its
own.

* `OnePeerWritten` — one row of the node is inserted, updated or deleted;
* `accept_all_or_nothing` — a call that raises leaves the proposal pending and
  the peers alone; one that returns has written one row and the status.

A node whose id is the empty text is the configured one for the peer
operations.
-/

namespace Dn42Ctl

open Text Txn Prog

/-! ## one row -/

/-- What a kind of proposal does to the rows of one table: one row of `n` is
appended, replaced by one with its key, or taken out. -/
def OneRowWritten {α κ : Type} (key : α → Str × κ) (n : Str) (rows rows' : List α) :
    ProposalKind → Prop
  | .peerAdd => ∃ r, (key r).1 = n ∧ (∀ x ∈ rows, key x ≠ key r) ∧ rows' = rows ++ [r]
  | .peerModify => ∃ front r r' back, (key r).1 = n ∧ key r' = key r ∧
      rows = front ++ r :: back ∧ rows' = front ++ r' :: back
  | .peerDelete => ∃ front r back, (key r).1 = n ∧ rows = front ++ r :: back ∧
      rows' = front ++ back

def BgpRow.key (r : BgpRow) : Str × Int := (r.nodeId, r.peerAsn)

def IbgpRow.key (r : IbgpRow) : Str × Str := (r.nodeId, r.name)

/-- One row of one of the two tables, the other table as it was. -/
def OnePeerWritten (kind : ProposalKind) (n : Str) (db db' : Db) : Prop :=
  OneRowWritten BgpRow.key n db.bgpPeers db'.bgpPeers kind ∧ db'.ibgpPeers = db.ibgpPeers ∨
    OneRowWritten IbgpRow.key n db.ibgpPeers db'.ibgpPeers kind ∧ db'.bgpPeers = db.bgpPeers

/-- `UNIQUE(node_id, peer_asn)` and `UNIQUE(node_id, name)`. -/
structure Db.PeersUnique (db : Db) : Prop where
  bgp : db.bgpPeers.Pairwise fun a b => ¬ BgpRow.is a.nodeId a.peerAsn b
  ibgp : db.NamesUnique

section Rows

variable {db : Db} {n : Str}

theorem split_bgp (h : db.PeersUnique) {asn : Int} {r : BgpRow}
    (hr : db.getBgpPeer n asn = some r) :
    ∃ front back, r.key = (n, asn) ∧ db.bgpPeers = front ++ r :: back ∧
      (∀ f, Rows.updateWhere (BgpRow.is n asn) f db.bgpPeers = front ++ f r :: back) ∧
      Rows.deleteWhere (BgpRow.is n asn) db.bgpPeers = front ++ back := by
  have hunique : db.bgpPeers.Pairwise fun a b =>
      BgpRow.is n asn a = true → BgpRow.is n asn b = false := by
    refine h.bgp.imp fun {a b} hab ha => ?_
    simp only [BgpRow.is, Bool.and_eq_true, beq_iff_eq] at ha
    rw [ha.1, ha.2, Bool.not_eq_true] at hab
    exact hab
  obtain ⟨front, back, his, hrest⟩ := Rows.split_of_find? hr hunique
  simp only [BgpRow.is, Bool.and_eq_true, beq_iff_eq] at his
  exact ⟨front, back, by rw [BgpRow.key, his.1, his.2], hrest⟩

theorem split_ibgp (h : db.PeersUnique) {name : Str} {r : IbgpRow}
    (hr : db.getIbgpPeer n name = some r) :
    ∃ front back, r.key = (n, name) ∧ db.ibgpPeers = front ++ r :: back ∧
      (∀ f, Rows.updateWhere (IbgpRow.is n name) f db.ibgpPeers = front ++ f r :: back) ∧
      Rows.deleteWhere (IbgpRow.is n name) db.ibgpPeers = front ++ back := by
  have hunique : db.ibgpPeers.Pairwise fun a b =>
      IbgpRow.is n name a = true → IbgpRow.is n name b = false := by
    refine h.ibgp.imp fun {a b} hab ha => ?_
    simp only [IbgpRow.is, Bool.and_eq_true, beq_iff_eq] at ha
    rw [ha.1, ha.2] at hab
    exact hab
  obtain ⟨front, back, his, hrest⟩ := Rows.split_of_find? hr hunique
  simp only [IbgpRow.is, Bool.and_eq_true, beq_iff_eq] at his
  exact ⟨front, back, by rw [IbgpRow.key, his.1, his.2], hrest⟩

end Rows

/-! ## the peer operation of a proposal -/

section Apply

variable {env : PeerEnv} {cfg target : Str} {payload : JsonObject} {db db' : Db} {u : Unit}

theorem applyPeerAdd_writes
    (h : (applyPeerAdd env cfg target payload).run db = (.ok u, db')) :
    OnePeerWritten .peerAdd (orDefault (some target) cfg) db db' := by
  rw [applyPeerAdd] at h
  obtain ⟨ibgp, -, h⟩ := bind_liftCheck h
  obtain ⟨peer, -, h⟩ := bind_liftCheck h
  cases ibgp with
  | true =>
      rw [if_pos rfl] at h
      obtain ⟨parsed, -, h⟩ := bind_liftCheck h
      obtain ⟨res, w', hcreate, h⟩ := run_bind_eq_ok.mp h
      rw [run_pure, Prod.mk.injEq] at h
      obtain ⟨peerName, t, mid, -, -, -, hrows, hother, hfree⟩ := eval_createIbgpPeer hcreate
      rw [h.2] at hrows hother
      right
      refine ⟨⟨newIbgpRow env cfg (parsed.toArgs target) peerName t, rfl, ?_, hrows⟩, hother⟩
      intro x hx hkey
      rw [IbgpRow.key, IbgpRow.key, Prod.mk.injEq] at hkey
      exact (hfree x hx hkey.1).1 hkey.2
  | false =>
      rw [if_neg Bool.false_ne_true] at h
      obtain ⟨parsed, -, h⟩ := bind_liftCheck h
      obtain ⟨res, w', hcreate, h⟩ := run_bind_eq_ok.mp h
      rw [run_pure, Prod.mk.injEq] at h
      obtain ⟨backend, port, keys, -, -, -, -, hrows, hother, hfree⟩ := eval_createBgpPeer hcreate
      rw [h.2] at hrows hother
      left
      refine ⟨⟨newBgpRow env cfg (parsed.toArgs target) backend port keys, rfl, ?_, hrows⟩, hother⟩
      intro x hx hkey
      rw [BgpRow.key, BgpRow.key, Prod.mk.injEq] at hkey
      exact (hfree x hx hkey.1).1 hkey.2

theorem applyPeerModify_writes (hkeys : db.PeersUnique)
    (h : (applyPeerModify env cfg target payload).run db = (.ok u, db')) :
    OnePeerWritten .peerModify (orDefault (some target) cfg) db db' := by
  rw [applyPeerModify] at h
  obtain ⟨ibgp, -, h⟩ := bind_liftCheck h
  obtain ⟨peer, -, h⟩ := bind_liftCheck h
  cases ibgp with
  | true =>
      rw [if_pos rfl] at h
      obtain ⟨parsed, -, h⟩ := bind_liftCheck h
      obtain ⟨res, w', hmodify, h⟩ := run_bind_eq_ok.mp h
      rw [run_pure, Prod.mk.injEq] at h
      obtain ⟨backend, peerName, row, port, -, -, -, -, hfound, -, -, -, hrows, hother⟩ :=
        eval_modifyIbgpPeer hmodify
      rw [h.2] at hrows hother
      obtain ⟨front, back, hkey, hsplit, hupdate, -⟩ := split_ibgp hkeys hfound
      right
      refine ⟨⟨front, row, _, back, by rw [hkey]; rfl, ?_, hsplit, hrows.trans (hupdate _)⟩,
        hother⟩
      rfl
  | false =>
      rw [if_neg Bool.false_ne_true] at h
      obtain ⟨parsed, -, h⟩ := bind_liftCheck h
      obtain ⟨res, w', hmodify, h⟩ := run_bind_eq_ok.mp h
      rw [run_pure, Prod.mk.injEq] at h
      obtain ⟨backend, row, port, -, hfound, -, -, hrows, hother⟩ := eval_modifyBgpPeer hmodify
      rw [h.2] at hrows hother
      obtain ⟨front, back, hkey, hsplit, hupdate, -⟩ := split_bgp hkeys hfound
      left
      refine ⟨⟨front, row, _, back, by rw [hkey]; rfl, ?_, hsplit, hrows.trans (hupdate _)⟩,
        hother⟩
      rfl

theorem applyPeerDelete_writes (hkeys : db.PeersUnique)
    (h : (applyPeerDelete env cfg target payload).run db = (.ok u, db')) :
    OnePeerWritten .peerDelete (orDefault (some target) cfg) db db' := by
  rw [applyPeerDelete] at h
  obtain ⟨ibgp, -, h⟩ := bind_liftCheck h
  obtain ⟨key, -, h⟩ := bind_liftCheck h
  cases ibgp with
  | true =>
      rw [if_pos rfl] at h
      obtain ⟨name, -, h⟩ := bind_liftCheck h
      obtain ⟨peerName, -, hsome, hrows, hother⟩ := eval_deleteIbgpPeer h
      obtain ⟨row, hfound⟩ := Option.isSome_iff_exists.mp hsome
      obtain ⟨front, back, hkey, hsplit, -, hdelete⟩ := split_ibgp hkeys hfound
      exact .inr ⟨⟨front, row, back, by rw [hkey], hsplit, hrows.trans hdelete⟩, hother⟩
  | false =>
      rw [if_neg Bool.false_ne_true] at h
      obtain ⟨asn, -, h⟩ := bind_liftCheck h
      obtain ⟨hsome, hrows, hother⟩ := eval_deleteBgpPeer h
      obtain ⟨row, hfound⟩ := Option.isSome_iff_exists.mp hsome
      obtain ⟨front, back, hkey, hsplit, -, hdelete⟩ := split_bgp hkeys hfound
      exact .inl ⟨⟨front, row, back, by rw [hkey], hsplit, hrows.trans hdelete⟩, hother⟩

/-- A proposal that is applied writes one row. -/
theorem applyProposal_writes {p : ConfigProposal} (hkeys : db.PeersUnique)
    (h : (applyProposal env cfg p).run db = (.ok u, db')) :
    OnePeerWritten p.kind (orDefault (some p.nodeId) cfg) db db' := by
  rw [applyProposal] at h
  cases hkind : p.kind with
  | peerAdd =>
      rw [hkind] at h
      exact applyPeerAdd_writes h
  | peerModify =>
      rw [hkind] at h
      exact applyPeerModify_writes hkeys h
  | peerDelete =>
      rw [hkind] at h
      exact applyPeerDelete_writes hkeys h

end Apply

/-! ## a call of `accept_proposal` -/

/-- Setting the status of a pending proposal returns its new row. -/
theorem setStatus_returns (now : Str) {id : Nat} {p : ConfigProposal} {db : Db}
    (hid : params [.int id] = none) (hp : db.getProposal id = some p)
    (hpending : p.status = .pending) :
    ∃ q, eval (ProposalStore.setStatus now id .accepted) db =
        (.ok q, db.decided now id .accepted none) ∧
      (db.decided now id .accepted none).getProposal id = some q ∧ q.status = .accepted := by
  have hstores := setStatus_stores now id .accepted db hid (by rw [hp]; rfl)
  have hstatus := getProposal_decided now id .accepted none db
  rw [hp, Option.map_some] at hstatus
  cases heval : eval (ProposalStore.setStatus now id .accepted) db with
  | mk outcome db' =>
      rw [heval] at hstores
      dsimp only at hstores
      subst hstores
      cases outcome with
      | error e =>
          have hsame := (atomic_setStatus now id .accepted none).eval_error heval
          rw [hsame, hp, Option.map_some, hpending] at hstatus
          cases hstatus
      | ok q =>
          obtain ⟨c', hrun, hc⟩ := eval_eq_ok.mp heval
          obtain ⟨u, c1, hset, hread⟩ := run_bind_eq_ok.mp hrun
          obtain ⟨rowcount, w, -, -, hset⟩ := bind_execute (run_guarded_eq_ok.mp hset)
          obtain ⟨-, hset⟩ := bind_abortIf hset
          rw [committed_of_commit hset] at hread
          obtain ⟨-, hrow, hfinal⟩ := run_readBack_eq_ok.mp hread
          rw [hfinal] at hc
          dsimp only at hc
          subst hc
          refine ⟨q, rfl, hrow, ?_⟩
          rw [show Db.getProposal id _ = some q from hrow, Option.map_some] at hstatus
          exact Option.some.inj hstatus

/-- What a call on the pending proposal `p` leaves: the proposal pending and no
row or event written, or the proposal accepted and one row of its node. -/
def AcceptsWhole (id : Nat) (p : ConfigProposal) (db : Db)
    (outcome : Except (Exc PyError) ConfigProposal × Db) : Prop :=
  match outcome.1 with
  | .error _ =>
      outcome.2.getProposal id = some p ∧ outcome.2.bgpPeers = db.bgpPeers ∧
        outcome.2.ibgpPeers = db.ibgpPeers ∧ outcome.2.syncEvents = db.syncEvents
  | .ok q =>
      outcome.2.getProposal id = some q ∧ q.status = .accepted ∧
        OnePeerWritten p.kind p.nodeId db outcome.2

section Accept

variable (env : PeerEnv) (cfg : Str) {id : Nat} {p : ConfigProposal} {db : Db}

/-- The two transactions that follow the read. -/
theorem apply_then_set (hkeys : db.PeersUnique) (hp : db.getProposal id = some p)
    (hpending : p.status = .pending) (hnode : p.nodeId ≠ []) (hid : params [.int id] = none) :
    AcceptsWhole id p db ((applyProposal env cfg p >>= fun _ =>
      onConnection (ProposalStore.setStatus env.now id .accepted)).run db) := by
  have hproposals := applyProposal_proposals env cfg p db
  cases happly : (applyProposal env cfg p).run db with
  | mk outcome db1 =>
      rw [happly] at hproposals
      have hp1 : db1.getProposal id = some p := by
        rw [Db.getProposal, hproposals]
        exact hp
      cases outcome with
      | error e =>
          rw [run_bind_error happly]
          have hsame := raisesTo_applyProposal (I := fun w => w.bgpPeers = db.bgpPeers ∧
            w.ibgpPeers = db.ibgpPeers ∧ w.syncEvents = db.syncEvents)
            (fun _ _ h => h) env cfg p db e db1 ⟨rfl, rfl, rfl⟩ happly
          exact ⟨hp1, hsame⟩
      | ok u =>
          have hwrites := applyProposal_writes hkeys happly
          rw [orDefault_some hnode] at hwrites
          obtain ⟨q, heval, hrow, hstatus⟩ := setStatus_returns env.now hid hp1 hpending
          have hset : (onConnection (ProposalStore.setStatus env.now id .accepted)).run db1 =
              (.ok q, db1.decided env.now id .accepted none) := heval
          rw [run_bind_ok happly, hset]
          exact ⟨hrow, hstatus, hwrites⟩

/-- **A failed accept leaves no trace**, and one that returns has written one
row of the proposal's node. -/
theorem accept_all_or_nothing (hkeys : db.PeersUnique) (hp : db.getProposal id = some p)
    (hpending : p.status = .pending) (hnode : p.nodeId ≠ []) :
    AcceptsWhole id p db ((acceptProposal env cfg id).run db) := by
  have hsame := maintains_onConnection (preserves_requirePending (I := (· = db)) id "接受") db rfl
  rw [acceptProposal]
  cases hread : (onConnection (requirePending id "接受")).run db with
  | mk found db0 =>
      rw [hread] at hsame
      dsimp only at hsame
      cases found with
      | error e =>
          rw [run_bind_error hread, hsame]
          exact ⟨hp, rfl, rfl, rfl⟩
      | ok q =>
          have hq := (eval_requirePending hread).1
          rw [hp, Option.some.injEq] at hq
          have hid : params [.int id] = none := by
            obtain ⟨c', hrun, -⟩ := eval_eq_ok.mp hread
            exact (bind_queryOr hrun).1
          rw [run_bind_ok hread, hsame, ← hq]
          exact apply_then_set env cfg hkeys hp hpending hnode hid

end Accept

theorem accept_pending :
    AcceptsWhole 1 pendingProposal pendingDb
      ((acceptProposal (sampleEnv (lit "t3")) (lit "hub") 1).run pendingDb) := by
  have hkeys : pendingDb.PeersUnique := ⟨by decide, by unfold Db.NamesUnique; decide⟩
  have hp : pendingDb.getProposal 1 = some pendingProposal := rfl
  have hpending : pendingProposal.status = .pending := rfl
  have hnode : pendingProposal.nodeId ≠ [] := by decide
  exact @accept_all_or_nothing (sampleEnv (lit "t3")) (lit "hub") 1 pendingProposal pendingDb hkeys
    hp hpending hnode

/-! ### a node without an id -/

/-- The pending proposal of a node whose id is the empty text. -/
def namelessProposal : ConfigProposal := { pendingProposal with nodeId := [] }

def namelessDb : Db :=
  { Db.empty with
    nodes := [[]]
    managedNodes := [ManagedNodeStore.newNode (lit "t0") [] (lit "alpha") false]
    configProposals := [namelessProposal]
    proposalSeq := 1 }

/-- Its peer is written under the configured node. -/
theorem nameless_peer_diverted :
    namelessDb.PeersUnique ∧ namelessDb.getProposal 1 = some namelessProposal ∧
      namelessProposal.status = .pending ∧
      ¬ AcceptsWhole 1 namelessProposal namelessDb
        ((acceptProposal (sampleEnv (lit "t3")) (lit "hub") 1).run namelessDb) := by
  refine ⟨⟨by decide, by unfold Db.NamesUnique; decide⟩, rfl, rfl, ?_⟩
  have hrows : ((acceptProposal (sampleEnv (lit "t3")) (lit "hub") 1).run
      namelessDb).2.bgpPeers.map (fun r => r.nodeId) = [lit "hub"] := by decide +kernel
  have hibgp : ((acceptProposal (sampleEnv (lit "t3")) (lit "hub") 1).run
      namelessDb).2.ibgpPeers = [] := by decide +kernel
  generalize (acceptProposal (sampleEnv (lit "t3")) (lit "hub") 1).run namelessDb = outcome at *
  obtain ⟨res, db'⟩ := outcome
  cases res with
  | error e =>
      rintro ⟨-, hbgp, -⟩
      rw [show db'.bgpPeers = [] from hbgp] at hrows
      cases hrows
  | ok q =>
      rintro ⟨-, -, ⟨⟨r, hr, -, hadded⟩, -⟩ | ⟨⟨r, -, -, hadded⟩, -⟩⟩
      · rw [show db'.bgpPeers = [r] from hadded] at hrows
        rw [BgpRow.key] at hr
        rw [List.map_singleton, show r.nodeId = [] from hr] at hrows
        cases hrows
      · rw [show db'.ibgpPeers = [r] from hadded] at hibgp
        cases hibgp

end Dn42Ctl
