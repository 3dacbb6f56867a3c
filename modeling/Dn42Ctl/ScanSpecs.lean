import Dn42Ctl.Effects
import Dn42Ctl.Scan

/-!
# ScanSpecs

What a scan does to the database.  A candidate is looked up by its key and
inserted under its interface name; the one thing that can go wrong besides a
conflict is a value the driver cannot bind, and that exception ends the scan.

* `importCandidate_ending` — the six ways one candidate can end;
* `ScanInv` — what a loop that has not raised knows about its candidates;
* `scanOne_cases` — one round keeps it or raises.
-/

namespace Dn42Ctl

open Text Txn Prog

/-! ## one candidate -/

/-- A row of the node has the candidate's key. -/
def Candidate.Known (n : Str) (db : Db) : Candidate → Prop
  | .bgp asn _ => (db.getBgpPeer n asn).isSome
  | .ibgp name _ _ => (db.getIbgpPeer n name).isSome

/-- A row of the node has the interface. -/
def Candidate.Blocked (n ifname : Str) (db : Db) : Candidate → Prop
  | .bgp .. => ∃ r ∈ db.bgpPeers, r.nodeId = n ∧ r.ifname = ifname
  | .ibgp .. => ∃ r ∈ db.ibgpPeers, r.nodeId = n ∧ r.ifname = ifname

/-- Two candidates compete for one key. -/
def Candidate.SameKey : Candidate → Candidate → Prop
  | .bgp a _, .bgp b _ => a = b
  | .ibgp a _ _, .ibgp b _ _ => a = b
  | _, _ => False

/-- The parameters of the lookup. -/
def Candidate.keyParams (n : Str) : Candidate → List Param
  | .bgp asn _ => [.text n, .int asn]
  | .ibgp name _ _ => [.text n, .text name]

/-- The parameters of the `INSERT`. -/
def Candidate.rowParams (n : Str) (babel : List (Str × BabelParams)) (ifname pub : Str) :
    Candidate → List Param
  | .bgp asn t => [.text n, .int asn] ++ Database.baseParams (t.record n ifname pub)
  | .ibgp name peerIp t =>
      [.text n, .text name] ++ Database.baseParams (t.record n ifname pub) ++
        [.int (ibgpRecord n babel ifname name peerIp t pub).babelRxcost, .ofOption peerIp,
          .text (ibgpRecord n babel ifname name peerIp t pub).babelType, .null]

def Candidate.privateKey : Candidate → Str
  | .bgp _ t | .ibgp _ _ t => t.privateKey

/-- The candidate's row was added, and nothing else about the peers changed. -/
def Candidate.Added (n : Str) (babel : List (Str × BabelParams)) (ifname pub : Str) (db db' : Db) :
    Candidate → Prop
  | .bgp asn t => ∃ row : BgpRow, row.toBgpPeerRecord = bgpRecord n ifname asn t pub ∧
      db'.bgpPeers = db.bgpPeers ++ [row] ∧ db'.ibgpPeers = db.ibgpPeers ∧ db'.nodes = db.nodes
  | .ibgp name peerIp t => ∃ row : IbgpRow,
      row.toIbgpPeerRecord = ibgpRecord n babel ifname name peerIp t pub ∧
      db'.ibgpPeers = db.ibgpPeers ++ [row] ∧ db'.bgpPeers = db.bgpPeers ∧ db'.nodes = db.nodes

section Run

variable {now n ifname : Str} {db : Db}

theorem run_lookup {α : Type} (msg : PyError) (b : Option BindError) (f : Db → α) :
    (wrapDatabaseError (queryOr msg b f)).run (Conn.fresh db none false) =
      (b.elim (.ok (f db)) fun e => .error (.unbound e), Conn.fresh db none false) := by
  cases b with
  | none => rfl
  | some e => rfl

/-- An `INSERT` with its event, on a clean connection. -/
theorem run_insert {onError : SqlError → PyError} {b : Option BindError}
    {ins : Db → Except SqlError (Unit × Db)} (hn : params [.text n] = none)
    (honError : ∀ e, (onError e).cls = .databaseError) :
    (catchDatabaseError (guarded onError do
      Txn.execute b ins
      emitSyncEvent now n
      commit)).run (Conn.fresh db none false) =
      match b with
      | some e => (.error (.unbound e), ⟨db, db, true, none, false⟩)
      | none =>
          match ins db with
          | .error e => (.ok (some (onError e)), Conn.fresh db none false)
          | .ok done => (.ok none, Conn.fresh (done.2.emit now n .desired) none false) := by
  cases b with
  | some e => rfl
  | none =>
      cases hins : ins db with
      | error e =>
          have hbody : (guarded onError (do
              Txn.execute none ins
              emitSyncEvent now n
              commit) : DbTx Unit).run (Conn.fresh db none false) =
              (.error (.raised (onError e)), Conn.fresh db none false) := by
            rw [run_guarded, run_bind, Conn.fresh, run_execute_none, hins]
          rw [catchDatabaseError, run_catching, run_bind_error hbody]
          cases hcls : onError e with
          | mk cls text =>
              have hc := honError e
              rw [hcls] at hc
              cases hc
              dsimp only
              rw [hcls]
              rfl
      | ok done =>
          have hemit : (emitSyncEvent now n).run ⟨db, done.2, true, none, false⟩ =
              (.ok (), ⟨db, done.2.emit now n .desired, true, none, false⟩) :=
            run_emitSyncEvent_eq_ok.mpr ⟨hn, rfl⟩
          have hbody : (guarded onError (do
              Txn.execute none ins
              emitSyncEvent now n
              commit) : DbTx Unit).run (Conn.fresh db none false) =
              (.ok (), Conn.fresh (done.2.emit now n .desired) none false) := by
            rw [run_guarded, run_bind, Conn.fresh, run_execute_none, hins]
            dsimp only
            rw [run_bind_ok hemit]
            rfl
          rw [catchDatabaseError, run_catching, run_bind_ok hbody]
          rfl

/-- How `importRow` ends, on a clean connection. -/
theorem run_importRow {ρ : Type} {msg : PyError} {kb : Option BindError} {f : Db → Option ρ}
    {pubkey : Except Msg Str} {onError : SqlError → PyError} {b : Str → Option BindError}
    {ins : Str → Db → Except SqlError (Unit × Db)} (hn : params [.text n] = none)
    (honError : ∀ e, (onError e).cls = .databaseError) :
    (importRow (queryOr msg kb f) pubkey fun pub => guarded onError do
      Txn.execute (b pub) (ins pub)
      emitSyncEvent now n
      commit).run (Conn.fresh db none false) =
      match kb with
      | some e => (.error (.unbound e), Conn.fresh db none false)
      | none =>
          if (f db).isSome then (.ok .taken, Conn.fresh db none false)
          else
            match pubkey with
            | .error text => (.ok (.skipped (.text (lit "wg pubkey 失败: ") :: text)),
                Conn.fresh db none false)
            | .ok pub =>
                match b pub with
                | some e => (.error (.unbound e), ⟨db, db, true, none, false⟩)
                | none =>
                    match ins pub db with
                    | .error e => (.ok (.refused (onError e)), Conn.fresh db none false)
                    | .ok done => (.ok .inserted,
                        Conn.fresh (done.2.emit now n .desired) none false) := by
  unfold importRow
  rw [run_bind, run_lookup]
  cases kb with
  | some e => rfl
  | none =>
      dsimp only [Option.elim]
      by_cases hfound : (f db).isSome = true
      · rw [if_pos hfound, if_pos hfound]
        rfl
      · rw [if_neg hfound, if_neg hfound]
        cases pubkey with
        | error text => rfl
        | ok pub =>
            dsimp only
            rw [run_bind, run_insert hn honError]
            cases b pub with
            | some e => rfl
            | none =>
                dsimp only
                cases ins pub db with
                | error e => rfl
                | ok done => rfl

variable {wg : WgCommand} {babel : List (Str × BabelParams)} {c : Candidate}
  {result : Except (Exc PyError) Outcome} {c' : Conn Db}

/-- The six ways a candidate can end. -/
inductive Ending (n ifname : Str) (wg : WgCommand) (babel : List (Str × BabelParams)) (db : Db)
    (c : Candidate) : Except (Exc PyError) Outcome → Conn Db → Prop
  | badKey {e : BindError} {conn : Conn Db} (key : params (c.keyParams n) = some e) :
      Ending n ifname wg babel db c (.error (.unbound e)) conn
  | taken (key : params (c.keyParams n) = none) (known : c.Known n db) :
      Ending n ifname wg babel db c (.ok .taken) (Conn.fresh db none false)
  | noKey {text : Msg} (key : params (c.keyParams n) = none) (known : ¬ c.Known n db)
      (pubkey : wg.pubkeyFromPrivate c.privateKey = .error text) :
      Ending n ifname wg babel db c (.ok (.skipped (.text (lit "wg pubkey 失败: ") :: text)))
        (Conn.fresh db none false)
  | badRow {pub : Str} {e : BindError} {conn : Conn Db} (key : params (c.keyParams n) = none)
      (known : ¬ c.Known n db) (pubkey : wg.pubkeyFromPrivate c.privateKey = .ok pub)
      (row : params (c.rowParams n babel ifname pub) = some e) :
      Ending n ifname wg babel db c (.error (.unbound e)) conn
  | refused {pub : Str} {e : PyError} (key : params (c.keyParams n) = none)
      (known : ¬ c.Known n db) (pubkey : wg.pubkeyFromPrivate c.privateKey = .ok pub)
      (row : params (c.rowParams n babel ifname pub) = none) (blocked : c.Blocked n ifname db) :
      Ending n ifname wg babel db c (.ok (.refused e)) (Conn.fresh db none false)
  | inserted {pub : Str} {db' : Db} (key : params (c.keyParams n) = none)
      (known : ¬ c.Known n db) (pubkey : wg.pubkeyFromPrivate c.privateKey = .ok pub)
      (row : params (c.rowParams n babel ifname pub) = none) (blocked : ¬ c.Blocked n ifname db)
      (added : c.Added n babel ifname pub db db') :
      Ending n ifname wg babel db c (.ok .inserted) (Conn.fresh db' none false)

/-- The `INSERT` of a BGP row whose key is free. -/
theorem insertBgpRow_cases {row : BgpRow} (hkey : ¬ (db.getBgpPeer row.nodeId row.peerAsn).isSome)
    (hnode : db.nodes.contains row.nodeId = true) :
    ((∃ r ∈ db.bgpPeers, r.nodeId = row.nodeId ∧ r.ifname = row.ifname) ∧
        db.insertBgpRow row = .error .integrity) ∨
      ((¬ ∃ r ∈ db.bgpPeers, r.nodeId = row.nodeId ∧ r.ifname = row.ifname) ∧
        db.insertBgpRow row = .ok ((), { db with bgpPeers := db.bgpPeers ++ [row] })) := by
  have hany : (db.bgpPeers.any fun r => r.nodeId == row.nodeId &&
      (r.peerAsn == row.peerAsn || r.ifname == row.ifname)) = true ↔
      ∃ r ∈ db.bgpPeers, r.nodeId = row.nodeId ∧ r.ifname = row.ifname := by
    rw [List.any_eq_true]
    refine exists_congr fun r => and_congr_right fun hr => ?_
    rw [Bool.and_eq_true, Bool.or_eq_true, beq_iff_eq, beq_iff_eq, beq_iff_eq]
    refine and_congr_right fun hrn => ⟨fun h => h.resolve_left fun hasn => hkey ?_, .inr⟩
    rw [Db.getBgpPeer, List.find?_isSome]
    exact ⟨r, hr, by simp [BgpRow.is, hrn, hasn]⟩
  rw [Db.insertBgpRow, ← hany]
  cases hb : db.bgpPeers.any fun r => r.nodeId == row.nodeId &&
      (r.peerAsn == row.peerAsn || r.ifname == row.ifname) with
  | true => exact .inl ⟨rfl, if_pos rfl⟩
  | false =>
      refine .inr ⟨Bool.false_ne_true, ?_⟩
      rw [if_neg Bool.false_ne_true, hnode]
      rfl

/-- The `INSERT` of an iBGP row whose key is free. -/
theorem insertIbgpRow_cases {row : IbgpRow} (hkey : ¬ (db.getIbgpPeer row.nodeId row.name).isSome)
    (hnode : db.nodes.contains row.nodeId = true) :
    ((∃ r ∈ db.ibgpPeers, r.nodeId = row.nodeId ∧ r.ifname = row.ifname) ∧
        db.insertIbgpRow row = .error .integrity) ∨
      ((¬ ∃ r ∈ db.ibgpPeers, r.nodeId = row.nodeId ∧ r.ifname = row.ifname) ∧
        db.insertIbgpRow row = .ok ((), { db with ibgpPeers := db.ibgpPeers ++ [row] })) := by
  have hany : (db.ibgpPeers.any fun r => r.nodeId == row.nodeId &&
      (r.name == row.name || r.ifname == row.ifname)) = true ↔
      ∃ r ∈ db.ibgpPeers, r.nodeId = row.nodeId ∧ r.ifname = row.ifname := by
    rw [List.any_eq_true]
    refine exists_congr fun r => and_congr_right fun hr => ?_
    rw [Bool.and_eq_true, Bool.or_eq_true, beq_iff_eq, beq_iff_eq, beq_iff_eq]
    refine and_congr_right fun hrn => ⟨fun h => h.resolve_left fun hname => hkey ?_, .inr⟩
    rw [Db.getIbgpPeer, List.find?_isSome]
    exact ⟨r, hr, by simp [IbgpRow.is, hrn, hname]⟩
  rw [Db.insertIbgpRow, ← hany]
  cases hb : db.ibgpPeers.any fun r => r.nodeId == row.nodeId &&
      (r.name == row.name || r.ifname == row.ifname) with
  | true => exact .inl ⟨rfl, if_pos rfl⟩
  | false =>
      refine .inr ⟨Bool.false_ne_true, ?_⟩
      rw [if_neg Bool.false_ne_true, hnode]
      rfl

/-- An insert with the values of a candidate ends like the candidate. -/
theorem ending_of_importRow {ρ : Type} {msg : PyError} {kb : Option BindError}
    {f : Db → Option ρ} {onError : SqlError → PyError} {b : Str → Option BindError}
    {ins : Str → Db → Except SqlError (Unit × Db)} (hn : params [.text n] = none)
    (honError : ∀ e, (onError e).cls = .databaseError)
    (hkey : kb = params (c.keyParams n)) (hknown : (f db).isSome = true ↔ c.Known n db)
    (hrow : ∀ pub, b pub = params (c.rowParams n babel ifname pub))
    (hins : ∀ pub, ¬c.Known n db →
      c.Blocked n ifname db ∧ ins pub db = .error .integrity ∨
        ¬c.Blocked n ifname db ∧ ∃ db', ins pub db = .ok ((), db') ∧
          c.Added n babel ifname pub db (db'.emit now n .desired)) :
    Ending n ifname wg babel db c
      ((importRow (queryOr msg kb f) (wg.pubkeyFromPrivate c.privateKey) fun pub =>
        guarded onError do
          Txn.execute (b pub) (ins pub)
          emitSyncEvent now n
          commit).run (Conn.fresh db none false)).1
      ((importRow (queryOr msg kb f) (wg.pubkeyFromPrivate c.privateKey) fun pub =>
        guarded onError do
          Txn.execute (b pub) (ins pub)
          emitSyncEvent now n
          commit).run (Conn.fresh db none false)).2 := by
  rw [run_importRow hn honError, hkey]
  cases hkeyParams : params (c.keyParams n) with
  | some e => exact .badKey hkeyParams
  | none =>
      dsimp only
      by_cases hfound : c.Known n db
      · rw [if_pos (hknown.mpr hfound)]
        exact .taken hkeyParams hfound
      · rw [if_neg (mt hknown.mp hfound)]
        cases hpub : wg.pubkeyFromPrivate c.privateKey with
        | error text => exact .noKey hkeyParams hfound hpub
        | ok pub =>
            dsimp only
            rw [hrow pub]
            cases hrowParams : params (c.rowParams n babel ifname pub) with
            | some e => exact .badRow hkeyParams hfound hpub hrowParams
            | none =>
                dsimp only
                obtain ⟨hblocked, hrun⟩ | ⟨hfree, db', hrun, hadded⟩ := hins pub hfound
                · rw [hrun]
                  exact .refused hkeyParams hfound hpub hrowParams hblocked
                · rw [hrun]
                  exact .inserted hkeyParams hfound hpub hrowParams hfree hadded

theorem importCandidate_ending (hn : params [.text n] = none)
    (hnode : db.nodes.contains n = true) :
    Ending n ifname wg babel db c
      ((importCandidate now n wg babel ifname c).run (Conn.fresh db none false)).1
      ((importCandidate now n wg babel ifname c).run (Conn.fresh db none false)).2 := by
  cases c with
  | bgp asn t =>
      refine @ending_of_importRow now n ifname db wg babel (.bgp asn t) BgpRow
        (databaseError "Failed to query BGP peer") _ (Db.getBgpPeer n asn)
        (Database.insertError (databaseError "BGP peer already exists")
          (databaseError "Failed to insert BGP peer"))
        _ _ hn (fun e => by cases e <;> rfl) rfl Iff.rfl (fun pub => rfl) (fun pub hknown => ?_)
      obtain ⟨hblocked, hins⟩ | ⟨hfree, hins⟩ := @insertBgpRow_cases db
        { bgpRecord n ifname asn t pub with createdAt := now, updatedAt := now } hknown hnode
      · exact .inl ⟨hblocked, hins⟩
      · exact .inr ⟨hfree, _, hins, _, rfl, rfl, rfl, rfl⟩
  | ibgp name peerIp t =>
      refine @ending_of_importRow now n ifname db wg babel (.ibgp name peerIp t) IbgpRow
        (databaseError "Failed to query iBGP peer") _ (Db.getIbgpPeer n name)
        (Database.insertError (databaseError "iBGP peer already exists")
          (databaseError "Failed to insert iBGP peer"))
        _ _ hn (fun e => by cases e <;> rfl) rfl Iff.rfl (fun pub => rfl) (fun pub hknown => ?_)
      obtain ⟨hblocked, hins⟩ | ⟨hfree, hins⟩ := @insertIbgpRow_cases db
        { ibgpRecord n babel ifname name peerIp t pub with
          createdAt := now, updatedAt := now } hknown hnode
      · exact .inl ⟨hblocked, hins⟩
      · exact .inr ⟨hfree, _, hins, _, rfl, rfl, rfl, rfl⟩

end Run

/-! ## what an added row changes -/

section Added

variable {n x pub : Str} {babel : List (Str × BabelParams)} {db db' : Db} {c d : Candidate}

theorem Candidate.Added.nodes (h : c.Added n babel x pub db db') : db'.nodes = db.nodes := by
  cases c with
  | bgp asn t =>
      obtain ⟨row, -, -, -, hnodes⟩ := h
      exact hnodes
  | ibgp name peerIp t =>
      obtain ⟨row, -, -, -, hnodes⟩ := h
      exact hnodes

theorem Candidate.Added.rows (h : c.Added n babel x pub db db') :
    db.bgpPeers <+: db'.bgpPeers ∧ db.ibgpPeers <+: db'.ibgpPeers := by
  cases c with
  | bgp asn t =>
      obtain ⟨row, -, hbgp, hibgp, -⟩ := h
      rw [hbgp, hibgp]
      exact ⟨List.prefix_append _ _, List.prefix_rfl⟩
  | ibgp name peerIp t =>
      obtain ⟨row, -, hibgp, hbgp, -⟩ := h
      rw [hbgp, hibgp]
      exact ⟨List.prefix_rfl, List.prefix_append _ _⟩

/-- The keys in use after it. -/
theorem Candidate.Added.known (h : c.Added n babel x pub db db') :
    d.Known n db' ↔ d.Known n db ∨ c.SameKey d := by
  cases c with
  | bgp asn t =>
      obtain ⟨row, hrow, hbgp, hibgp, -⟩ := h
      have hn : row.nodeId = n := congrArg (·.nodeId) hrow
      have hasn : row.peerAsn = asn := congrArg (·.peerAsn) hrow
      cases d with
      | bgp asn' t' =>
          simp only [Candidate.Known, Candidate.SameKey, Db.getBgpPeer, List.find?_isSome, hbgp,
            List.mem_append, List.mem_singleton, or_and_right, exists_or, exists_eq_left]
          simp [BgpRow.is, hn, hasn]
      | ibgp name' peerIp' t' =>
          simp [Candidate.Known, Candidate.SameKey, Db.getIbgpPeer, hibgp]
  | ibgp name peerIp t =>
      obtain ⟨row, hrow, hibgp, hbgp, -⟩ := h
      have hn : row.nodeId = n := congrArg (·.nodeId) hrow
      have hname : row.name = name := congrArg (·.name) hrow
      cases d with
      | bgp asn' t' => simp [Candidate.Known, Candidate.SameKey, Db.getBgpPeer, hbgp]
      | ibgp name' peerIp' t' =>
          simp only [Candidate.Known, Candidate.SameKey, Db.getIbgpPeer, List.find?_isSome, hibgp,
            List.mem_append, List.mem_singleton, or_and_right, exists_or, exists_eq_left]
          simp [IbgpRow.is, hn, hname]

/-- Only its own interface is taken by it. -/
theorem Candidate.Added.blocked (h : c.Added n babel x pub db db') {y : Str} (hy : y ≠ x) :
    d.Blocked n y db' ↔ d.Blocked n y db := by
  cases c with
  | bgp asn t =>
      obtain ⟨row, hrow, hbgp, hibgp, -⟩ := h
      have hx : row.ifname = x := congrArg (·.ifname) hrow
      have hne : row.ifname ≠ y := fun he => hy (he.symm.trans hx)
      cases d with
      | bgp asn' t' =>
          simp only [Candidate.Blocked, hbgp, List.mem_append, List.mem_singleton, or_and_right,
            exists_or, exists_eq_left]
          simp [hne]
      | ibgp name' peerIp' t' => simp only [Candidate.Blocked, hibgp]
  | ibgp name peerIp t =>
      obtain ⟨row, hrow, hibgp, hbgp, -⟩ := h
      have hx : row.ifname = x := congrArg (·.ifname) hrow
      have hne : row.ifname ≠ y := fun he => hy (he.symm.trans hx)
      cases d with
      | bgp asn' t' => simp only [Candidate.Blocked, hbgp]
      | ibgp name' peerIp' t' =>
          simp only [Candidate.Blocked, hibgp, List.mem_append, List.mem_singleton, or_and_right,
            exists_or, exists_eq_left]
          simp [hne]

theorem Candidate.SameKey.refl (c : Candidate) : c.SameKey c := by
  cases c with
  | bgp asn t => exact rfl
  | ibgp name peerIp t => exact rfl

/-- A key is in use for every candidate that competes for it. -/
theorem Candidate.SameKey.known (h : c.SameKey d) : c.Known n db ↔ d.Known n db := by
  cases c with
  | bgp asn t =>
      cases d with
      | bgp asn' t' =>
          cases h
          exact Iff.rfl
      | ibgp name' peerIp' t' => cases h
  | ibgp name peerIp t =>
      cases d with
      | bgp asn' t' => cases h
      | ibgp name' peerIp' t' =>
          cases h
          exact Iff.rfl

/-- What is known or blocked stays so when rows are added. -/
theorem Candidate.Known.mono (h : c.Known n db) (hbgp : db.bgpPeers <+: db'.bgpPeers)
    (hibgp : db.ibgpPeers <+: db'.ibgpPeers) : c.Known n db' := by
  cases c with
  | bgp asn t =>
      rw [Candidate.Known, Db.getBgpPeer, List.find?_isSome] at h ⊢
      obtain ⟨r, hr, hkey⟩ := h
      exact ⟨r, hbgp.subset hr, hkey⟩
  | ibgp name peerIp t =>
      rw [Candidate.Known, Db.getIbgpPeer, List.find?_isSome] at h ⊢
      obtain ⟨r, hr, hkey⟩ := h
      exact ⟨r, hibgp.subset hr, hkey⟩

theorem Candidate.Blocked.mono (h : c.Blocked n x db) (hbgp : db.bgpPeers <+: db'.bgpPeers)
    (hibgp : db.ibgpPeers <+: db'.ibgpPeers) : c.Blocked n x db' := by
  cases c with
  | bgp asn t =>
      obtain ⟨r, hr, hkey⟩ := h
      exact ⟨r, hbgp.subset hr, hkey⟩
  | ibgp name peerIp t =>
      obtain ⟨r, hr, hkey⟩ := h
      exact ⟨r, hibgp.subset hr, hkey⟩

end Added

/-! ## the loop -/

section Loop

variable (files : ScanFiles) (config : AppConfig) (wg : WgCommand)
  (babel : List (Str × BabelParams))

/-- What the files say about the interface. -/
def Reads (x : Str) (c : Candidate) : Prop := (readCandidate files config x).2 = .ok c

/-- The interface puts a row under the key of `c`, unless one is there: it can be
read, its public key derived, and no row of `db` has its name. -/
def Offers (db : Db) (x : Str) (c : Candidate) : Prop :=
  ∃ d, Reads files config x d ∧ d.SameKey c ∧
    (∃ pub, wg.pubkeyFromPrivate d.privateKey = .ok pub) ∧ ¬ d.Blocked config.nodeId x db

/-- The values of a candidate can be bound: those of its key, and, where its row
is about to be written, those of the row.  It is about to be written when the key
is neither in `db` nor offered by an interface before it. -/
def Fits (db : Db) (before : List Str) (x : Str) (c : Candidate) : Prop :=
  params (c.keyParams config.nodeId) = none ∧
    ∀ pub, wg.pubkeyFromPrivate c.privateKey = .ok pub → ¬ c.Known config.nodeId db →
      (∀ y ∈ before, ¬ Offers files config wg db y c) →
        params (c.rowParams config.nodeId babel x pub) = none

/-- Scanning the interface again adds nothing. -/
def Resolved (db : Db) (x : Str) (c : Candidate) : Prop :=
  params (c.keyParams config.nodeId) = none ∧
    (c.Known config.nodeId db ∨ (∃ text, wg.pubkeyFromPrivate c.privateKey = .error text) ∨
      (c.Blocked config.nodeId x db ∧ ∀ pub, wg.pubkeyFromPrivate c.privateKey = .ok pub →
        params (c.rowParams config.nodeId babel x pub) = none))

/-- The interfaces in the three lists. -/
def ScanResult.ifnames (r : ScanResult) : List Str :=
  r.inserted.map ScanImported.ifname ++ r.conflicts.map ScanImported.ifname ++
    r.skipped.map Prod.fst

/-- A row that says what the files say about an interface. -/
def FromBgp (row : BgpRow) (x : Str) : Prop :=
  ∃ asn t pub, Reads files config x (.bgp asn t) ∧ wg.pubkeyFromPrivate t.privateKey = .ok pub ∧
    params (Candidate.rowParams config.nodeId babel x pub (.bgp asn t)) = none ∧
    row.toBgpPeerRecord = bgpRecord config.nodeId x asn t pub

def FromIbgp (row : IbgpRow) (x : Str) : Prop :=
  ∃ name peerIp t pub, Reads files config x (.ibgp name peerIp t) ∧
    wg.pubkeyFromPrivate t.privateKey = .ok pub ∧
    params (Candidate.rowParams config.nodeId babel x pub (.ibgp name peerIp t)) = none ∧
    row.toIbgpPeerRecord = ibgpRecord config.nodeId babel x name peerIp t pub

/-- Every row that was added comes from one of the interfaces. -/
structure RowsFrom (db now : Db) (seen : List Str) : Prop where
  bgp : ∀ row ∈ now.bgpPeers.drop db.bgpPeers.length,
    ∃ x ∈ seen, FromBgp files config wg babel row x
  ibgp : ∀ row ∈ now.ibgpPeers.drop db.ibgpPeers.length,
    ∃ x ∈ seen, FromIbgp files config wg babel row x

/-- What a loop that started in `db` and has not raised knows: the rows, who took
which key, and where each interface it has seen was entered. -/
structure ScanInv (db now : Db) (seen : List Str) (r : ScanResult) : Prop where
  nodes : now.nodes.contains config.nodeId = true
  bgp : db.bgpPeers <+: now.bgpPeers
  ibgp : db.ibgpPeers <+: now.ibgpPeers
  rows : RowsFrom files config wg babel db now seen
  known : ∀ c : Candidate, c.Known config.nodeId now ↔
    c.Known config.nodeId db ∨ ∃ x ∈ seen, Offers files config wg db x c
  blocked : ∀ x (c : Candidate), x ∉ seen →
    (c.Blocked config.nodeId x now ↔ c.Blocked config.nodeId x db)
  lists : r.ifnames.Perm seen
  resolved : ∀ x ∈ seen, ∀ c, Reads files config x c → Resolved config wg babel now x c
  inserted : ∀ e ∈ r.inserted, ∃ c, Reads files config e.ifname c ∧ ¬ c.Known config.nodeId db ∧
    (∃ pub, wg.pubkeyFromPrivate c.privateKey = .ok pub) ∧ ¬ c.Blocked config.nodeId e.ifname db
  listed : ∀ e ∈ r.inserted ++ r.conflicts, ∃ c, Reads files config e.ifname c ∧
    (c.Known config.nodeId now ∨ ∃ pub, wg.pubkeyFromPrivate c.privateKey = .ok pub)
  skipped : ∀ e ∈ r.skipped, (∃ reason, (readCandidate files config e.1).2 = .error reason) ∨
    ∃ c text, Reads files config e.1 c ∧ ¬ c.Known config.nodeId db ∧
      wg.pubkeyFromPrivate c.privateKey = .error text

end Loop

section Steps

variable {files : ScanFiles} {config : AppConfig} {wg : WgCommand}
  {babel : List (Str × BabelParams)} {db db' db'' : Db} {seen : List Str} {x : Str} {c : Candidate}
  {r : ScanResult}

theorem Resolved.mono (h : Resolved config wg babel db' x c) (hbgp : db'.bgpPeers <+: db''.bgpPeers)
    (hibgp : db'.ibgpPeers <+: db''.ibgpPeers) : Resolved config wg babel db'' x c :=
  ⟨h.1, h.2.imp (fun hk => hk.mono hbgp hibgp) (.imp id fun hb => ⟨hb.1.mono hbgp hibgp, hb.2⟩)⟩

/-- Nothing is offered by an interface that is not read. -/
theorem offers_unread {reason : Msg} (h : (readCandidate files config x).2 = .error reason) :
    ¬ Offers files config wg db x c := by
  rintro ⟨d, hd, -⟩
  rw [Reads, h] at hd
  cases hd

theorem reads_unique {d : Candidate} (hc : Reads files config x c) (hd : Reads files config x d) :
    c = d := by
  rw [Reads] at hc hd
  rw [hc] at hd
  exact Except.ok.inj hd

/-- Rows that are added twice. -/
theorem mem_drop_trans {α : Type} {as bs cs : List α} {a : α} (hab : as <+: bs) (hbc : bs <+: cs)
    (h : a ∈ cs.drop as.length) : a ∈ bs.drop as.length ∨ a ∈ cs.drop bs.length := by
  obtain ⟨us, rfl⟩ := hab
  obtain ⟨vs, rfl⟩ := hbc
  rw [List.append_assoc, List.drop_left, List.mem_append] at h
  rw [List.drop_left, List.drop_left]
  exact h

theorem RowsFrom.append {late : List Str} (h : RowsFrom files config wg babel db db' seen)
    (h' : RowsFrom files config wg babel db' db'' late)
    (hbgp : db.bgpPeers <+: db'.bgpPeers) (hbgp' : db'.bgpPeers <+: db''.bgpPeers)
    (hibgp : db.ibgpPeers <+: db'.ibgpPeers) (hibgp' : db'.ibgpPeers <+: db''.ibgpPeers) :
    RowsFrom files config wg babel db db'' (seen ++ late) where
  bgp := by
    intro row hrow
    rcases mem_drop_trans hbgp hbgp' hrow with hrow | hrow
    · obtain ⟨y, hy, hfrom⟩ := h.bgp row hrow
      exact ⟨y, List.mem_append_left _ hy, hfrom⟩
    · obtain ⟨y, hy, hfrom⟩ := h'.bgp row hrow
      exact ⟨y, List.mem_append_right _ hy, hfrom⟩
  ibgp := by
    intro row hrow
    rcases mem_drop_trans hibgp hibgp' hrow with hrow | hrow
    · obtain ⟨y, hy, hfrom⟩ := h.ibgp row hrow
      exact ⟨y, List.mem_append_left _ hy, hfrom⟩
    · obtain ⟨y, hy, hfrom⟩ := h'.ibgp row hrow
      exact ⟨y, List.mem_append_right _ hy, hfrom⟩

theorem RowsFrom.same : RowsFrom files config wg babel db db seen where
  bgp := by
    intro row hrow
    rw [List.drop_length] at hrow
    cases hrow
  ibgp := by
    intro row hrow
    rw [List.drop_length] at hrow
    cases hrow

theorem Candidate.Added.rowsFrom {pub : Str}
    (h : c.Added config.nodeId babel x pub db db') (hc : Reads files config x c)
    (hpub : wg.pubkeyFromPrivate c.privateKey = .ok pub)
    (hfits : params (c.rowParams config.nodeId babel x pub) = none) :
    RowsFrom files config wg babel db db' [x] := by
  cases c with
  | bgp asn t =>
      obtain ⟨row, hrow, hbgp, hibgp, -⟩ := h
      refine ⟨fun r hr => ?_, fun r hr => ?_⟩
      · rw [hbgp, List.drop_left, List.mem_singleton] at hr
        subst hr
        exact ⟨x, List.mem_singleton_self x, asn, t, pub, hc, hpub, hfits, hrow⟩
      · rw [hibgp, List.drop_length] at hr
        cases hr
  | ibgp name peerIp t =>
      obtain ⟨row, hrow, hibgp, hbgp, -⟩ := h
      refine ⟨fun r hr => ?_, fun r hr => ?_⟩
      · rw [hbgp, List.drop_length] at hr
        cases hr
      · rw [hibgp, List.drop_left, List.mem_singleton] at hr
        subst hr
        exact ⟨x, List.mem_singleton_self x, name, peerIp, t, pub, hc, hpub, hfits, hrow⟩

/-- One more interface: what has to be known about it. -/
theorem ScanInv.advance (h : ScanInv files config wg babel db db' seen r) (hx : x ∉ seen)
    {r' : ScanResult} (hnodes : db''.nodes = db'.nodes)
    (hrows : db'.bgpPeers <+: db''.bgpPeers ∧ db'.ibgpPeers <+: db''.ibgpPeers)
    (hnew : RowsFrom files config wg babel db' db'' [x])
    (hknown : ∀ d : Candidate, d.Known config.nodeId db'' ↔
      d.Known config.nodeId db' ∨ Offers files config wg db x d)
    (hblocked : ∀ y (d : Candidate), y ≠ x →
      (d.Blocked config.nodeId y db'' ↔ d.Blocked config.nodeId y db'))
    (hresolved : ∀ c, Reads files config x c → Resolved config wg babel db'' x c)
    (hlists : r'.ifnames.Perm (r.ifnames ++ [x]))
    (hinserted : ∀ e ∈ r'.inserted, e ∈ r.inserted ∨ e.ifname = x ∧
      ∃ c, Reads files config x c ∧ ¬ c.Known config.nodeId db ∧
        (∃ pub, wg.pubkeyFromPrivate c.privateKey = .ok pub) ∧ ¬ c.Blocked config.nodeId x db)
    (hlisted : ∀ e ∈ r'.inserted ++ r'.conflicts, e ∈ r.inserted ++ r.conflicts ∨ e.ifname = x ∧
      ∃ c, Reads files config x c ∧ (c.Known config.nodeId db'' ∨
        ∃ pub, wg.pubkeyFromPrivate c.privateKey = .ok pub))
    (hskipped : ∀ e ∈ r'.skipped, e ∈ r.skipped ∨ e.1 = x ∧
      ((∃ reason, (readCandidate files config x).2 = .error reason) ∨
        ∃ c text, Reads files config x c ∧ ¬ c.Known config.nodeId db ∧
          wg.pubkeyFromPrivate c.privateKey = .error text)) :
    ScanInv files config wg babel db db'' (seen ++ [x]) r' where
  nodes := by rw [hnodes]; exact h.nodes
  bgp := h.bgp.trans hrows.1
  ibgp := h.ibgp.trans hrows.2
  rows := h.rows.append hnew h.bgp hrows.1 h.ibgp hrows.2
  known := by
    intro d
    rw [hknown, h.known, or_assoc]
    refine or_congr_right ?_
    simp only [List.mem_append, List.mem_singleton, or_and_right, exists_or, exists_eq_left]
  blocked := by
    intro y d hy
    rw [List.mem_append, List.mem_singleton, not_or] at hy
    rw [hblocked y d hy.2, h.blocked y d hy.1]
  lists := hlists.trans (h.lists.append_right [x])
  resolved := by
    intro y hy d hd
    rcases List.mem_append.mp hy with hy | hy
    · exact (h.resolved y hy d hd).mono hrows.1 hrows.2
    · rw [List.mem_singleton.mp hy] at hd ⊢
      exact hresolved d hd
  inserted := by
    intro e he
    rcases hinserted e he with hold | ⟨rfl, hnew⟩
    · exact h.inserted e hold
    · exact hnew
  listed := by
    intro e he
    rcases hlisted e he with hold | ⟨rfl, hnew⟩
    · obtain ⟨c, hc, hk⟩ := h.listed e hold
      exact ⟨c, hc, hk.imp_left fun hk => hk.mono hrows.1 hrows.2⟩
    · exact hnew
  skipped := by
    intro e he
    rcases hskipped e he with hold | ⟨rfl, hnew⟩
    · exact h.skipped e hold
    · exact hnew

/-- An interface whose files are not enough is skipped. -/
theorem ScanInv.unread (h : ScanInv files config wg babel db db' seen r) (hx : x ∉ seen)
    {reason : Msg} (hread : (readCandidate files config x).2 = .error reason)
    {warnings : List Msg} :
    ScanInv files config wg babel db db' (seen ++ [x])
      { r with skipped := r.skipped ++ [(x, reason)], warnings := warnings } := by
  have hnot : ∀ c, ¬ Reads files config x c := by
    intro c hc
    rw [Reads, hread] at hc
    cases hc
  refine h.advance hx rfl ⟨List.prefix_rfl, List.prefix_rfl⟩ .same (fun d => ?_)
    (fun _ _ _ => Iff.rfl)
    (fun c hc => absurd hc (hnot c)) ?_ (fun e he => .inl he) (fun e he => .inl he) ?_
  · exact (or_iff_left (offers_unread hread)).symm
  · simp only [ScanResult.ifnames, List.map_append, List.map_cons, List.map_nil, List.append_assoc]
    exact List.Perm.refl _
  · intro e he
    rcases List.mem_append.mp he with he | he
    · exact .inl he
    · rw [List.mem_singleton.mp he]
      exact .inr ⟨rfl, .inl ⟨reason, hread⟩⟩

theorem ScanInv.rewarn (h : ScanInv files config wg babel db db' seen r) (warnings : List Msg) :
    ScanInv files config wg babel db db' seen { r with warnings := warnings } :=
  ⟨h.nodes, h.bgp, h.ibgp, h.rows, h.known, h.blocked, h.lists, h.resolved, h.inserted, h.listed,
    h.skipped⟩

/-- A key that is free now was free at the start and was offered by nobody. -/
theorem ScanInv.free (h : ScanInv files config wg babel db db' seen r)
    (hknown : ¬ c.Known config.nodeId db') :
    ¬ c.Known config.nodeId db ∧ ∀ y ∈ seen, ¬ Offers files config wg db y c := by
  rw [h.known, not_or] at hknown
  exact ⟨hknown.1, fun y hy hoffer => hknown.2 ⟨y, hy, hoffer⟩⟩

/-- A candidate that ends in a conflict, where what it offers is taken. -/
theorem ScanInv.conflict (h : ScanInv files config wg babel db db' seen r) (hx : x ∉ seen)
    (hc : Reads files config x c)
    (hoffers : ∀ d, Offers files config wg db x d → d.Known config.nodeId db')
    (hresolved : Resolved config wg babel db' x c)
    (hlisted : c.Known config.nodeId db' ∨ ∃ pub, wg.pubkeyFromPrivate c.privateKey = .ok pub)
    (warnings : List Msg) :
    ScanInv files config wg babel db db' (seen ++ [x])
      { r with conflicts := r.conflicts ++ [c.imported x], warnings := warnings } := by
  have hname : (c.imported x).ifname = x := by
    cases c with
    | bgp asn t => rfl
    | ibgp name peerIp t => rfl
  refine h.advance hx rfl ⟨List.prefix_rfl, List.prefix_rfl⟩ .same (fun d => ?_)
    (fun _ _ _ => Iff.rfl)
    (fun d hd => ?_) ?_ (fun e he => .inl he) ?_ (fun e he => .inl he)
  · exact (or_iff_left_of_imp (hoffers d)).symm
  · rw [← reads_unique hc hd]
    exact hresolved
  · simp only [ScanResult.ifnames, List.map_append, List.map_cons, List.map_nil, List.append_assoc,
      hname]
    exact (List.perm_append_comm.append_left _).append_left _
  · intro e he
    rcases List.mem_append.mp he with he | he
    · exact .inl (List.mem_append_left _ he)
    · rcases List.mem_append.mp he with he | he
      · exact .inl (List.mem_append_right _ he)
      · rw [List.mem_singleton.mp he]
        exact .inr ⟨hname, c, hc, hlisted⟩

/-- A candidate whose key is known is a conflict. -/
theorem ScanInv.taken (h : ScanInv files config wg babel db db' seen r) (hx : x ∉ seen)
    (hc : Reads files config x c) (key : params (c.keyParams config.nodeId) = none)
    (known : c.Known config.nodeId db') :
    ScanInv files config wg babel db db' (seen ++ [x])
      { r with conflicts := r.conflicts ++ [c.imported x] } := by
  refine h.conflict hx hc (fun d hoffer => ?_) ⟨key, .inl known⟩ (.inl known) r.warnings
  obtain ⟨d', hd', hsame, -⟩ := hoffer
  rw [← reads_unique hc hd'] at hsame
  exact hsame.known.mp known

/-- The values of a row that can be bound. -/
theorem Fits.of_row {pub : Str} (key : params (c.keyParams config.nodeId) = none)
    (pubkey : wg.pubkeyFromPrivate c.privateKey = .ok pub)
    (row : params (c.rowParams config.nodeId babel x pub) = none) :
    Fits files config wg babel db seen x c := by
  refine ⟨key, fun pub' hpub' _ _ => ?_⟩
  rw [pubkey] at hpub'
  cases hpub'
  exact row

/-- A candidate whose row is refused, for the name of its interface, is a conflict. -/
theorem ScanInv.refused (h : ScanInv files config wg babel db db' seen r) (hx : x ∉ seen)
    (hc : Reads files config x c) {pub : Str} (key : params (c.keyParams config.nodeId) = none)
    (pubkey : wg.pubkeyFromPrivate c.privateKey = .ok pub)
    (row : params (c.rowParams config.nodeId babel x pub) = none)
    (blocked : c.Blocked config.nodeId x db') (warnings : List Msg) :
    ScanInv files config wg babel db db' (seen ++ [x])
      { r with conflicts := r.conflicts ++ [c.imported x], warnings := warnings } := by
  have hrow : ∀ pub', wg.pubkeyFromPrivate c.privateKey = .ok pub' →
      params (c.rowParams config.nodeId babel x pub') = none := by
    intro pub' hpub'
    rw [pubkey] at hpub'
    cases hpub'
    exact row
  refine h.conflict hx hc (fun d hoffer => ?_) ⟨key, .inr (.inr ⟨blocked, hrow⟩)⟩
    (.inr ⟨pub, pubkey⟩) _
  obtain ⟨d', hd', -, -, hfree⟩ := hoffer
  rw [← reads_unique hc hd', ← h.blocked x c hx] at hfree
  exact absurd blocked hfree

/-- A candidate without a public key is skipped. -/
theorem ScanInv.noKey (h : ScanInv files config wg babel db db' seen r) (hx : x ∉ seen)
    (hc : Reads files config x c) {text reason : Msg}
    (key : params (c.keyParams config.nodeId) = none) (known : ¬ c.Known config.nodeId db')
    (pubkey : wg.pubkeyFromPrivate c.privateKey = .error text) :
    ScanInv files config wg babel db db' (seen ++ [x])
      { r with skipped := r.skipped ++ [(x, reason)] } := by
  refine h.advance hx rfl ⟨List.prefix_rfl, List.prefix_rfl⟩ .same (fun d => ?_)
    (fun _ _ _ => Iff.rfl) (fun d hd => ?_) ?_ (fun e he => .inl he) (fun e he => .inl he) ?_
  · refine (or_iff_left fun hoffer => ?_).symm
    obtain ⟨d', hd', -, ⟨pub, hpub⟩, -⟩ := hoffer
    rw [← reads_unique hc hd', pubkey] at hpub
    cases hpub
  · rw [← reads_unique hc hd]
    exact ⟨key, .inr (.inl ⟨text, pubkey⟩)⟩
  · simp only [ScanResult.ifnames, List.map_append, List.map_cons, List.map_nil, List.append_assoc]
    exact List.Perm.refl _
  · intro e he
    rcases List.mem_append.mp he with he | he
    · exact .inl he
    · rw [List.mem_singleton.mp he]
      exact .inr ⟨rfl, .inr ⟨c, text, hc, (h.free known).1, pubkey⟩⟩

/-- A candidate whose row is stored is imported. -/
theorem ScanInv.insert (h : ScanInv files config wg babel db db' seen r) (hx : x ∉ seen)
    (hc : Reads files config x c) {pub : Str} (key : params (c.keyParams config.nodeId) = none)
    (known : ¬ c.Known config.nodeId db') (pubkey : wg.pubkeyFromPrivate c.privateKey = .ok pub)
    (row : params (c.rowParams config.nodeId babel x pub) = none)
    (blocked : ¬ c.Blocked config.nodeId x db')
    (added : c.Added config.nodeId babel x pub db' db'') :
    ScanInv files config wg babel db db'' (seen ++ [x])
      { r with inserted := r.inserted ++ [c.imported x] } := by
  have hfree : ¬ c.Blocked config.nodeId x db := by
    rw [← h.blocked x c hx]
    exact blocked
  have hname : (c.imported x).ifname = x := by
    cases c with
    | bgp asn t => rfl
    | ibgp name peerIp t => rfl
  have hown : c.Known config.nodeId db'' := added.known.mpr (.inr (.refl c))
  refine h.advance hx added.nodes added.rows (added.rowsFrom hc pubkey row)
    (fun d => ?_) (fun y d hy => added.blocked hy) (fun d hd => ?_) ?_ ?_ ?_ (fun e he => .inl he)
  · rw [added.known]
    refine or_congr_right ⟨fun hsame => ⟨c, hc, hsame, ⟨pub, pubkey⟩, hfree⟩, ?_⟩
    rintro ⟨d', hd', hsame, -⟩
    rw [← reads_unique hc hd'] at hsame
    exact hsame
  · rw [← reads_unique hc hd]
    exact ⟨key, .inl hown⟩
  · simp only [ScanResult.ifnames, List.map_append, List.map_cons, List.map_nil,
      List.append_assoc, hname]
    refine List.Perm.append_left _ ?_
    rw [← List.append_assoc (r.conflicts.map ScanImported.ifname)]
    exact List.perm_append_comm
  · intro e he
    rcases List.mem_append.mp he with he | he
    · exact .inl he
    · rw [List.mem_singleton.mp he]
      exact .inr ⟨hname, c, hc, (h.free known).1, ⟨pub, pubkey⟩, hfree⟩
  · intro e he
    rcases List.mem_append.mp he with he | he
    · rcases List.mem_append.mp he with he | he
      · exact .inl (List.mem_append_left _ he)
      · rw [List.mem_singleton.mp he]
        exact .inr ⟨hname, c, hc, .inl hown⟩
    · exact .inl (List.mem_append_right _ he)

/-- Whatever way a candidate ends without raising, the loop goes on. -/
theorem ScanInv.ended (h : ScanInv files config wg babel db db' seen r) (hx : x ∉ seen)
    (hc : Reads files config x c) {outcome : Outcome} {conn : Conn Db}
    (hend : Ending config.nodeId x wg babel db' c (.ok outcome) conn) (missing : List Str) :
    Fits files config wg babel db seen x c ∧
      ∃ db'', conn = Conn.fresh db'' none false ∧
        ScanInv files config wg babel db db'' (seen ++ [x])
          (noteOutcome babel x c outcome (r, missing)).1 := by
  cases hend with
  | taken key known =>
      refine ⟨⟨key, fun pub _ hfree hbefore => ?_⟩, db', rfl, h.taken hx hc key known⟩
      rcases (h.known c).mp known with hold | ⟨y, hy, hoffer⟩
      · exact absurd hold hfree
      · exact absurd hoffer (hbefore y hy)
  | refused key known pubkey row blocked =>
      exact ⟨.of_row key pubkey row, db', rfl, h.refused hx hc key pubkey row blocked _⟩
  | noKey key known pubkey =>
      refine ⟨⟨key, fun pub hpub _ _ => ?_⟩, db', rfl, h.noKey hx hc key known pubkey⟩
      rw [pubkey] at hpub
      cases hpub
  | inserted key known pubkey row blocked added =>
      exact ⟨.of_row key pubkey row, _, rfl, h.insert hx hc key known pubkey row blocked added⟩

/-- A candidate that raises has a value that cannot be bound. -/
theorem ScanInv.raised (h : ScanInv files config wg babel db db' seen r) {e : Exc PyError}
    {conn : Conn Db} (hend : Ending config.nodeId x wg babel db' c (.error e) conn) :
    ¬ Fits files config wg babel db seen x c := by
  rintro ⟨hkey, hrow⟩
  cases hend with
  | badKey key =>
      rw [hkey] at key
      cases key
  | badRow key known pubkey row =>
      obtain ⟨hfree, hbefore⟩ := h.free known
      rw [hrow _ pubkey hfree hbefore] at row
      cases row

/-- One round of the loop. -/
theorem scanOne_cases (h : ScanInv files config wg babel db db' seen r) (hx : x ∉ seen)
    (hn : params [.text config.nodeId] = none) (now : Str) (missing : List Str) :
    ((∀ c, Reads files config x c → Fits files config wg babel db seen x c) ∧
      ∃ r' missing' db'', (scanOne now config.nodeId wg babel files config (r, missing) x).run
          (Conn.fresh db' none false) = (.ok (r', missing'), Conn.fresh db'' none false) ∧
        ScanInv files config wg babel db db'' (seen ++ [x]) r') ∨
    ((∃ c, Reads files config x c ∧ ¬ Fits files config wg babel db seen x c) ∧
      ∃ e conn, (scanOne now config.nodeId wg babel files config (r, missing) x).run
        (Conn.fresh db' none false) = (.error e, conn)) := by
  cases hread : readCandidate files config x with
  | mk warnings reading =>
      have hsnd : (readCandidate files config x).2 = reading := by rw [hread]
      unfold scanOne
      rw [hread]
      dsimp only
      cases reading with
      | error reason =>
          refine .inl ⟨fun c hc => ?_, _, _, db', rfl, h.unread hx hsnd⟩
          rw [Reads, hsnd] at hc
          cases hc
      | ok c =>
          have hc : Reads files config x c := hsnd
          have hend := @importCandidate_ending now config.nodeId x db' wg babel c hn h.nodes
          dsimp only
          cases hrun : (importCandidate now config.nodeId wg babel x c).run
              (Conn.fresh db' none false) with
          | mk result conn =>
              rw [hrun] at hend
              dsimp only at hend
              cases result with
              | error e => exact .inr ⟨⟨c, hc, h.raised hend⟩, e, conn, run_bind_error hrun⟩
              | ok outcome =>
                  obtain ⟨hfits, db'', rfl, hinv⟩ :=
                    (h.rewarn (r.warnings ++ warnings)).ended hx hc hend missing
                  refine .inl ⟨fun d hd => ?_, _, _, db'', run_bind_ok hrun, hinv⟩
                  rw [← reads_unique hc hd]
                  exact hfits

end Steps

end Dn42Ctl
