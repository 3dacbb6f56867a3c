import Dn42Ctl.Fingerprint
import Dn42Ctl.Refusals

/-!
# Submissions

How `submit_proposal`, `submit_report` and `build_desired_state` end for a node
that the hub serves, when no statement fails.

* `submitProposal_told_iff`, `submitReport_told_iff` — when a submission returns,
  or is refused with a `Dn42CtlError` that can be told;
* `build_sendable` — a build returns a state that can be sent.
-/

namespace Dn42Ctl

open Text Txn Endings

/-! ## the node -/

/-- The content can be stored and sent: its texts were read from the database,
which holds no others. -/
def DesiredContent.Bound (c : DesiredContent) : Prop :=
  params (DesiredState.params { c with revision := [], generatedAt := [] }) = none

/-- The hub serves the node: its rows are there, what is stored for it are texts
of the database, and ids are left. -/
structure Db.Serves (db : Db) (n : Str) : Prop where
  node : (db.getNode n).isSome
  rooted : n ∈ db.nodes
  nodeId : encodable n = true
  live : (db.liveContent n).Bound
  pinned : ∀ pin, db.getPin n = some pin → params pin.payload.params = none
  revisions : ∀ r ∈ db.configRevisions, encodable r.revision = true ∧ encodable r.generatedAt = true
  reports : ∀ r ∈ db.nodeReports, encodable r.receivedAt = true
  proposals : db.ProposalsWF
  ids : db.proposalSeq + 1 < 2 ^ 63

/-- It returned, or was refused with an error that can be told. -/
def Told {α : Type} (r : Except (Exc PyError) α) : Prop := Checks (fun _ => True) Refusal r

section Rows

variable {n now source kind : Str} {payload : JsonObject} {db : Db}

theorem payload_bound (hn : encodable n = true) (h : Json.encodable (.dict payload) = true) :
    params [.text n, .json (.dict payload)] = none := by
  rw [params_cons, params_cons]
  refine ⟨convert_text.mpr hn, ?_, rfl⟩
  rw [Param.convert, if_pos h]

theorem payload_unbound (hn : encodable n = true) (h : Json.encodable (.dict payload) = false) :
    params [.text n, .json (.dict payload)] = some .unicodeEncode := by
  rw [params, List.findSome?_cons, convert_text.mpr hn, List.findSome?_cons, Param.convert,
    if_neg (by rw [h]; exact Bool.false_ne_true)]

theorem eval_of_run {α : Type} {m : DbTx α} {r : Except (Exc PyError) α} {c' : Conn Db}
    (h : m.run ⟨db, db, false, none, false⟩ = (r, c')) : eval m db = (r, c'.committed) := by
  rw [eval, Conn.fresh, h]

/-- The transaction of an `INSERT`, when its parameters are bound and no
constraint is violated. -/
theorem run_insertCommit {onError : SqlError → PyError} {f : Db → Except SqlError (Nat × Db)}
    {rowId : Nat} {db' : Db} (h : f db = .ok (rowId, db')) :
    (guarded onError (do
      let rowId ← Txn.execute none f
      commit
      pure rowId)).run ⟨db, db, false, none, false⟩ =
        (.ok rowId, ⟨db', db', false, none, false⟩) := by
  have hexec : (Txn.execute none f : DbTx Nat).run ⟨db, db, false, none, false⟩ =
      (.ok rowId, ⟨db, db', true, none, false⟩) := by
    rw [run_execute_none, h]
  rw [run_guarded_eq_ok, Prog.run_bind_ok hexec]
  rfl

/-- A parameter that cannot be bound is no error of the driver. -/
theorem run_insertCommit_unbound {onError : SqlError → PyError} {f : Db → Except SqlError (Nat × Db)}
    (e : BindError) :
    (guarded onError (do
      let rowId ← Txn.execute (some e) f
      commit
      pure rowId)).run ⟨db, db, false, none, false⟩ =
        (.error (.unbound e), ⟨db, db, true, none, false⟩) := rfl

/-! ## proposals -/

/-- The row of a new proposal. -/
def Db.newProposal (db : Db) (now n : Str) (source : ProposalSource) (kind : ProposalKind)
    (payload : JsonObject) : ConfigProposal :=
  { id := db.proposalSeq + 1, nodeId := n, source, kind, payload, status := .pending,
    receivedAt := now, decidedAt := none, message := none }

/-- The database with it. -/
def Db.withProposal (db : Db) (p : ConfigProposal) : Db :=
  { db with configProposals := db.configProposals ++ [p], proposalSeq := db.proposalSeq + 1 }

variable {node : ManagedNode} {src : ProposalSource} {knd : ProposalKind}

theorem run_storeProposal (hserves : db.Serves n) (hnode : db.getNode n = some node)
    (hsource : ProposalSource.ofText source = some src)
    (hkind : ProposalKind.ofText kind = some knd) (h : Json.encodable (.dict payload) = true) :
    (onConnection (storeProposal now n source kind payload)).run db =
      (.ok (db.newProposal now n src knd payload, node.writePolicy),
        db.withProposal (db.newProposal now n src knd payload)) := by
  have hn : params [.text n] = none := params_cons.mpr ⟨convert_text.mpr hserves.nodeId, rfl⟩
  have hinsert : db.insertProposal n src knd payload now = .ok (db.proposalSeq + 1,
      db.withProposal (db.newProposal now n src knd payload)) := by
    rw [Db.insertProposal, List.contains_iff_mem.mpr hserves.rooted]
    rfl
  have hfound : (db.withProposal (db.newProposal now n src knd payload)).getProposal
      (db.proposalSeq + 1) = some (db.newProposal now n src knd payload) :=
    getProposal_insert hserves.proposals rfl
  refine eval_eq_ok.mpr ⟨Conn.fresh (db.withProposal (db.newProposal now n src knd payload))
    none false, ?_, rfl⟩
  rw [storeProposal, ManagedNodeStore.get, hn, Prog.run_bind_ok (run_queryOr_none ..), hnode,
    ProposalStore.add, hsource, hkind]
  dsimp only
  rw [payload_bound hserves.nodeId h, Prog.bind_assoc, Prog.run_bind_ok (run_insertCommit hinsert),
    Prog.run_bind_ok (run_readBack_eq_ok.mpr ⟨rfl, hfound, rfl⟩)]
  rfl

theorem run_storeProposal_unbound (hserves : db.Serves n)
    (hsource : ProposalSource.ofText source = some src)
    (hkind : ProposalKind.ofText kind = some knd) (h : Json.encodable (.dict payload) = false) :
    (onConnection (storeProposal now n source kind payload)).run db =
      (.error (.unbound .unicodeEncode), db) := by
  have hn : params [.text n] = none := params_cons.mpr ⟨convert_text.mpr hserves.nodeId, rfl⟩
  obtain ⟨node, hnode⟩ := Option.isSome_iff_exists.mp hserves.node
  refine eval_of_run (show _ = (_, (⟨db, db, true, none, false⟩ : Conn Db)) from ?_)
  rw [storeProposal, ManagedNodeStore.get, hn, Prog.run_bind_ok (run_queryOr_none ..), hnode,
    ProposalStore.add, hsource, hkind]
  dsimp only
  rw [payload_unbound hserves.nodeId h, Prog.bind_assoc,
    Prog.run_bind_error (run_insertCommit_unbound .unicodeEncode)]

/-- Setting the status of a proposal that is there returns its new row. -/
theorem run_setStatus (now : Str) {id : Nat} (status : ProposalStatus) {message : Option Msg}
    (hid : (Param.int id).convert = none) (hmessage : ∀ m, message = some m → Msg.encodable m = true)
    (hp : (db.getProposal id).isSome) :
    ∃ q, (onConnection (ProposalStore.setStatus now id status message)).run db =
      (.ok q, db.decided now id status message) := by
  have hbind : params [message.elim .null .message, .int id] = none := by
    rw [params_cons, params_cons]
    refine ⟨?_, hid, rfl⟩
    cases message with
    | none => rfl
    | some m =>
        have hall : m.all Fragment.encodable = true := hmessage m rfl
        rw [Option.elim_some, Param.convert, if_pos hall]
  have hcount : ((db.configProposals.countP fun p => p.id == id) == 0) = false := by
    rw [beq_eq_false_iff_ne]
    intro hzero
    have hnone : db.getProposal id = none := countP_eq_zero_iff_find?.mp hzero
    simp [hnone] at hp
  have hexec : (Txn.execute none fun db => .ok (db.configProposals.countP fun p => p.id == id,
      db.decided now id status message) : DbTx Nat).run ⟨db, db, false, none, false⟩ =
      (.ok (db.configProposals.countP fun p => p.id == id),
        ⟨db, db.decided now id status message, true, none, false⟩) := rfl
  have hrow : ((db.decided now id status message).getProposal id).isSome := by
    obtain ⟨p, hp⟩ := Option.isSome_iff_exists.mp hp
    have hstatus := getProposal_decided now id status message db
    rw [hp, Option.map_some] at hstatus
    obtain ⟨q, hq, -⟩ := Option.map_eq_some_iff.mp hstatus
    rw [hq]
    rfl
  obtain ⟨q, hq⟩ := Option.isSome_iff_exists.mp hrow
  refine ⟨q, eval_eq_ok.mpr ⟨Conn.fresh (db.decided now id status message) none false, ?_, rfl⟩⟩
  have hbody : ∀ {onError : SqlError → PyError}, (guarded onError (do
      let rowcount ← Txn.execute none fun db =>
        .ok (db.configProposals.countP fun p => p.id == id, db.decided now id status message)
      abortIf (rowcount == 0) (databaseErrorOf "proposal 不存在: " (ofInt id))
      commit) : DbTx Unit).run ⟨db, db, false, none, false⟩ =
      (.ok (), Conn.fresh (db.decided now id status message) none false) := by
    intro onError
    rw [run_guarded_eq_ok, Prog.run_bind_ok hexec, hcount]
    rfl
  rw [ProposalStore.setStatus, hbind, Prog.run_bind_ok hbody]
  exact run_readBack_eq_ok.mpr ⟨params_cons.mpr ⟨hid, rfl⟩, hq, rfl⟩

/-! ## reports -/

/-- The report that is read back has a time that can be told. -/
theorem run_submitReport (hserves : db.Serves n) (hnow : encodable now = true) {knd : ReportKind}
    (hkind : ReportKind.ofText kind = some knd) (h : Json.encodable (.dict payload) = true) :
    ∃ r db', (submitReport now n kind (.dict payload)).run db = (.ok r, db') ∧
      encodable r.receivedAt = true := by
  have hn : params [.text n] = none := params_cons.mpr ⟨convert_text.mpr hserves.nodeId, rfl⟩
  obtain ⟨node, hnode⟩ := Option.isSome_iff_exists.mp hserves.node
  let row : NodeReport :=
    { id := db.reportSeq + 1, nodeId := n, kind := knd, payload, receivedAt := now,
      importedAt := none }
  let db' : Db :=
    { db with nodeReports := db.nodeReports ++ [row], reportSeq := db.reportSeq + 1 }
  have hinsert : db.insertReport n knd payload now = .ok (db.reportSeq + 1, db') := by
    rw [Db.insertReport, List.contains_iff_mem.mpr hserves.rooted]
    rfl
  have hthere : (db'.getReport (db.reportSeq + 1)).isSome := by
    rw [Db.getReport, List.find?_isSome]
    exact ⟨row, List.mem_append_right _ (List.mem_singleton.mpr rfl), beq_self_eq_true _⟩
  obtain ⟨r, hr⟩ := Option.isSome_iff_exists.mp hthere
  have hreceived : encodable r.receivedAt = true := by
    have hmem : r ∈ db.nodeReports ++ [row] := List.mem_of_find?_eq_some hr
    obtain hold | hnew := List.mem_append.mp hmem
    · exact hserves.reports r hold
    · rw [List.mem_singleton.mp hnew]
      exact hnow
  refine ⟨r, db', ?_, hreceived⟩
  unfold submitReport
  rw [hkind]
  refine eval_eq_ok.mpr ⟨Conn.fresh db' none false, ?_, rfl⟩
  rw [ManagedNodeStore.get, hn, Prog.run_bind_ok (run_queryOr_none ..), hnode, ReportStore.add,
    hkind]
  dsimp only
  rw [payload_bound hserves.nodeId h, Prog.run_bind_ok (run_insertCommit hinsert)]
  exact run_readBack_eq_ok.mpr ⟨rfl, hr, rfl⟩

theorem run_submitReport_unbound (hserves : db.Serves n) {knd : ReportKind}
    (hkind : ReportKind.ofText kind = some knd) (h : Json.encodable (.dict payload) = false) :
    (submitReport now n kind (.dict payload)).run db = (.error (.unbound .unicodeEncode), db) := by
  have hn : params [.text n] = none := params_cons.mpr ⟨convert_text.mpr hserves.nodeId, rfl⟩
  obtain ⟨node, hnode⟩ := Option.isSome_iff_exists.mp hserves.node
  unfold submitReport
  rw [hkind]
  refine eval_of_run (show _ = (_, (⟨db, db, true, none, false⟩ : Conn Db)) from ?_)
  rw [ManagedNodeStore.get, hn, Prog.run_bind_ok (run_queryOr_none ..), hnode, ReportStore.add,
    hkind]
  dsimp only
  rw [payload_unbound hserves.nodeId h,
    Prog.run_bind_error (run_insertCommit_unbound .unicodeEncode)]

/-- A report that is acknowledged has a time that can be told. -/
theorem receivedAt_submitReport {r : NodeReport} {db' : Db} (hserves : db.Serves n)
    (hnow : encodable now = true)
    (h : (submitReport now n kind (.dict payload)).run db = (.ok r, db')) :
    encodable r.receivedAt = true := by
  cases hkind : ReportKind.ofText kind with
  | none =>
      unfold submitReport at h
      rw [hkind] at h
      cases h
  | some knd =>
      cases hpayload : Json.encodable (.dict payload) with
      | true =>
          obtain ⟨r', db1, hrun, hreceived⟩ := run_submitReport hserves hnow hkind hpayload
          rw [hrun] at h
          cases h
          exact hreceived
      | false =>
          rw [run_submitReport_unbound hserves hkind hpayload] at h
          cases h

theorem told_error {α : Type} {text : Msg} :
    Told (.error (.raised (dn42CtlError text)) : Except (Exc PyError) α) ↔
      Msg.encodable text = true := by
  constructor
  · rintro ⟨err, herr, hraises⟩
    cases herr
    exact hraises.text
  · intro h
    exact ⟨_, rfl, rfl, h⟩

theorem not_told_unbound {α : Type} {e : BindError} :
    ¬ Told (.error (.unbound e) : Except (Exc PyError) α) := by
  rintro ⟨err, herr, -⟩
  cases herr

/-- A literal, a text of the node and a literal. -/
theorem encodable_around {pre post : Str} (hpre : encodable pre = true)
    (hpost : encodable post = true) (s : Str) :
    Msg.encodable [.text pre, .text s, .text post] = true ↔ encodable s = true := by
  simp [Msg.encodable, Fragment.encodable, hpre, hpost]

/-- When a report can be answered. -/
def ReportTellable (kind : Str) (payload : JsonObject) : Prop :=
  match ReportKind.ofText kind with
  | none => encodable kind = true
  | some _ => Json.encodable (.dict payload) = true

theorem submitReport_told_iff (hserves : db.Serves n) (hnow : encodable now = true) :
    Told ((submitReport now n kind (.dict payload)).run db).1 ↔ ReportTellable kind payload := by
  unfold ReportTellable
  cases hkind : ReportKind.ofText kind with
  | none =>
      unfold submitReport
      rw [hkind]
      exact told_error.trans (encodable_around (by decide) (by decide) kind)
  | some knd =>
      dsimp only
      cases h : Json.encodable (.dict payload) with
      | true =>
          obtain ⟨r, db', hrun, -⟩ := run_submitReport hserves hnow hkind h
          rw [hrun]
          exact iff_of_true trivial rfl
      | false =>
          rw [run_submitReport_unbound hserves hkind h]
          exact iff_of_false not_told_unbound Bool.false_ne_true

end Rows

/-! ## `submit_proposal` -/

section Submit

variable {env : PeerEnv} {n source kind : Str} {payload : JsonObject} {db : Db}

/-- A new peer is accepted at once: the hub has its configuration and the node
the policy. -/
def Db.acceptsAtOnce (db : Db) (n : Str) (config : Option Str) (kind : ProposalKind) : Bool :=
  config.isSome && kind = .peerAdd &&
    (db.getNode n).any fun node => node.writePolicy.peerAdd = .autoAccept

/-- When a proposal can be answered. -/
def ProposalTellable (db : Db) (n : Str) (config : Option Str) (source kind : Str)
    (payload : JsonObject) : Prop :=
  match ProposalKind.ofText kind, ProposalSource.ofText source with
  | none, _ => encodable kind = true
  | some _, none => encodable source = true
  | some knd, some _ =>
      Json.encodable (.dict payload) = true ∧
        (db.acceptsAtOnce n config knd = true → hashable (peerKind payload) = true)

theorem told_tryAutoAccept {p : ConfigProposal} {policy : WritePolicy} {cfg : Str}
    (henv : env.Decoded) (hpayload : Json.encodable (.dict p.payload) = true)
    (hn : encodable (orDefault (some p.nodeId) cfg) = true)
    (hid : (Param.int p.id).convert = none) (hp : (db.getProposal p.id).isSome) :
    Told ((tryAutoAccept env cfg p policy).run db).1 ↔
      (autoAccepts p policy = true → hashable (peerKind p.payload) = true) := by
  unfold tryAutoAccept
  by_cases hauto : autoAccepts p policy = true
  · rw [if_pos hauto]
    have hkind : p.kind = .peerAdd := by
      simp only [autoAccepts, Bool.and_eq_true, decide_eq_true_eq] at hauto
      exact hauto.1.2
    have happly : applyProposal env cfg p = applyPeerAdd env cfg p.nodeId p.payload := by
      rw [applyProposal, hkind]
    have hproposals := applyProposal_proposals env cfg p db
    rw [happly] at hproposals ⊢
    cases hhash : hashable (peerKind p.payload) with
    | false =>
        obtain ⟨text, hraise⟩ : ∃ text, (applyPeerAdd env cfg p.nodeId p.payload).run db =
            (.error (.raised ⟨.typeError, text⟩), db) := applyPeerAdd_unhashable hhash db
        have hbody : (applyPeerAdd env cfg p.nodeId p.payload >>= fun _ =>
            pure (none : Option PyError)).run db = (.error (.raised ⟨.typeError, text⟩), db) :=
          Prog.run_bind_error hraise
        rw [Prog.run_bind, Prog.run_catching, hbody]
        refine iff_of_false ?_ fun h => Bool.false_ne_true (h hauto)
        rintro ⟨err, herr, hraises⟩
        cases herr
        cases hraises.cls
    | true =>
        refine iff_of_true ?_ fun _ => rfl
        have hrefuses : Ends (fun _ => True) (fun _ => True) Refusal
            (applyPeerAdd env cfg p.nodeId p.payload) :=
          refuses_applyPeerAdd hpayload hhash henv hn
        have hends := hrefuses db trivial
        cases hrun : (applyPeerAdd env cfg p.nodeId p.payload).run db with
        | mk outcome db1 =>
            rw [hrun] at hends hproposals
            have hp1 : (db1.getProposal p.id).isSome := by
              rw [Db.getProposal, hproposals]
              exact hp
            cases outcome with
            | ok u =>
                have hbody : (applyPeerAdd env cfg p.nodeId p.payload >>= fun _ =>
                    pure (none : Option PyError)).run db = (.ok none, db1) :=
                  Prog.run_bind_ok hrun
                have hnone : ∀ m, (none : Option Msg) = some m → Msg.encodable m = true := by
                  intro m hm
                  cases hm
                obtain ⟨q, hset⟩ := run_setStatus env.now .accepted hid hnone hp1
                rw [Prog.run_bind, Prog.run_catching, hbody]
                show Told ((onConnection _).run db1).1
                rw [hset]
                exact trivial
            | error e =>
                obtain ⟨err, rfl, hraises⟩ := hends.2
                have hbody : (applyPeerAdd env cfg p.nodeId p.payload >>= fun _ =>
                    pure (none : Option PyError)).run db = (.error (.raised err), db1) :=
                  Prog.run_bind_error hrun
                have hservice : serviceError? (.raised err) = some err := if_pos hraises.cls
                have hmessage : ∀ m, some (autoRejectMessage err) = some m →
                    Msg.encodable m = true := by
                  intro m hm
                  cases hm
                  exact encodable_cons_text (by decide) hraises.text
                obtain ⟨q, hset⟩ := run_setStatus env.now .rejected hid hmessage hp1
                rw [Prog.run_bind, Prog.run_catching, hbody]
                dsimp only
                rw [hservice]
                show Told ((onConnection _).run db1).1
                rw [hset]
                exact trivial
  · rw [if_neg hauto]
    exact iff_of_true trivial fun h => absurd h hauto

theorem submitProposal_told_iff (hserves : db.Serves n) (henv : env.Decoded)
    {config : Option Str} (hconfig : ∀ cfg, config = some cfg → encodable cfg = true) :
    Told ((submitProposal env n source kind (.dict payload) config).run db).1 ↔
      ProposalTellable db n config source kind payload := by
  unfold ProposalTellable submitProposal
  cases hkind : ProposalKind.ofText kind with
  | none => exact told_error.trans (encodable_around (by decide) (by decide) kind)
  | some knd =>
      cases hsource : ProposalSource.ofText source with
      | none =>
          dsimp only
          have htext : Msg.encodable [.text (lit "非法 source: "), .text source] = true ↔
              encodable source = true := by
            have hlit : encodable (lit "非法 source: ") = true := by decide
            simp [Msg.encodable, Fragment.encodable, hlit]
          exact told_error.trans htext
      | some src =>
          dsimp only
          cases h : Json.encodable (.dict payload) with
          | false =>
              rw [Prog.run_bind_error (run_storeProposal_unbound hserves hsource hkind h)]
              exact iff_of_false not_told_unbound fun hboth => Bool.false_ne_true hboth.1
          | true =>
              obtain ⟨node, hnode⟩ := Option.isSome_iff_exists.mp hserves.node
              rw [Prog.run_bind_ok (run_storeProposal hserves hnode hsource hkind h)]
              cases config with
              | none =>
                  exact iff_of_true trivial ⟨rfl, fun hauto => by simp [Db.acceptsAtOnce] at hauto⟩
              | some cfg =>
                  have hn : encodable (orDefault (some n) cfg) = true := by
                    unfold orDefault
                    dsimp only
                    split
                    · exact hconfig cfg rfl
                    · exact hserves.nodeId
                  have hid : (Param.int (db.newProposal env.now n src knd payload).id).convert =
                      none := (convert_int (by omega)).mpr (by
                    have := hserves.ids
                    simp only [Db.newProposal]
                    omega)
                  have hthere : ((db.withProposal (db.newProposal env.now n src knd payload)
                      ).getProposal (db.newProposal env.now n src knd payload).id).isSome := by
                    have hfound : (db.withProposal (db.newProposal env.now n src knd payload)
                        ).getProposal (db.proposalSeq + 1) =
                          some (db.newProposal env.now n src knd payload) :=
                      getProposal_insert hserves.proposals rfl
                    rw [show (db.newProposal env.now n src knd payload).id = db.proposalSeq + 1
                      from rfl, hfound]
                    rfl
                  have hauto : autoAccepts (db.newProposal env.now n src knd payload)
                      node.writePolicy = db.acceptsAtOnce n (some cfg) knd := by
                    rw [Db.acceptsAtOnce, hnode]
                    rfl
                  dsimp only
                  rw [told_tryAutoAccept henv h hn hid hthere, hauto]
                  exact (and_iff_right rfl).symm

end Submit

/-! ## `build_desired_state` -/

section Build

variable {digest : DesiredContent → Str} {n now rev gen : Str} {content : DesiredContent}
  {db : Db}

/-- With its revision and its time, a content can still be stored and sent. -/
theorem params_bound (h : content.Bound) (hrev : encodable rev = true)
    (hgen : encodable gen = true) :
    params (DesiredState.params { content with revision := rev, generatedAt := gen }) = none := by
  rw [DesiredContent.Bound] at h
  simp only [DesiredState.params, List.append_assoc, params_append, params_cons] at h ⊢
  obtain ⟨⟨hn, -, -, -⟩, hrest⟩ := h
  exact ⟨⟨hn, convert_text.mpr hrev, convert_text.mpr hgen, rfl⟩, hrest⟩

theorem reusable_encodable (hserves : db.Serves n) (hrev : encodable rev = true)
    (hgen : encodable gen = true) {built : Str × Str} (h : db.reusable n rev gen = some built) :
    encodable built.1 = true ∧ encodable built.2 = true := by
  unfold Db.reusable at h
  split at h
  · cases h
  · next previous hnewest =>
      split at h
      · split at h
        · next existing hfound =>
            cases h
            exact hserves.revisions existing (getByRevision_mem hfound).1
        · cases h
          exact ⟨hrev, hgen⟩
      · cases h

/-- A build for a node that is served returns a state that can be sent. -/
theorem build_sendable (hserves : db.Serves n) (hnow : encodable now = true)
    (hdigest : ∀ c, encodable (digest c) = true) :
    ∃ st db', (buildDesiredState digest now n).run db = (.ok st, db') ∧
      params st.params = none := by
  have hbind : params [.text n] = none :=
    params_cons.mpr ⟨convert_text.mpr hserves.nodeId, rfl⟩
  have hrev : encodable (computeRevision digest (db.liveContent n) now) = true := by
    have hdash : encodable [45] = true := by decide
    exact encodable_append.mpr ⟨hnow, encodable_append.mpr ⟨hdash, hdigest _⟩⟩
  have hlive := params_bound hserves.live hrev hnow
  have hfits : db.BuildFits digest now n 50 := by
    refine ⟨params_append.mpr ⟨?_, hlive⟩, by decide⟩
    exact params_cons.mpr ⟨convert_text.mpr hserves.nodeId,
      params_cons.mpr ⟨convert_text.mpr hrev, params_cons.mpr ⟨convert_text.mpr hnow, rfl⟩⟩⟩
  obtain ⟨st, db', hrun⟩ := build_returns hbind hserves.rooted hfits
  refine ⟨st, db', hrun, ?_⟩
  obtain ⟨-, built, hcases, hst⟩ := build_ok hrun
  have hbuilt : encodable built.1 = true ∧ encodable built.2 = true := by
    obtain ⟨hreuse, -⟩ | ⟨-, rfl, -⟩ := hcases
    · exact reusable_encodable hserves hrev hnow hreuse
    · exact ⟨hrev, hnow⟩
  cases hpin : db'.getPin n with
  | none =>
      rw [hpin] at hst
      rw [hst]
      exact params_bound hserves.live hbuilt.1 hbuilt.2
  | some pin =>
      have hpayload : st = pin.payload := by
        rw [hst, hpin]
      rw [hpayload]
      obtain ⟨-, rfl⟩ | ⟨-, -, rfl⟩ := hcases
      · exact hserves.pinned pin hpin
      · cases hold : db.getPin n with
        | some old =>
            rw [getPin_recorded hold] at hpin
            cases hpin
            exact hserves.pinned pin hold
        | none =>
            rw [getPin_recorded_none hold hpin]
            exact hlive

end Build

end Dn42Ctl
