import Dn42Ctl.Registry
import Dn42Ctl.SelfRegistration
import Dn42Ctl.Lib.Digits

/-!
# Authorization

The two places where a node's token is checked: `_resolve_principal` and
`require_node_self_or_admin` of `api.py`, and the handshake of `ws_hub.py`.

Both read the same header and ask the same rows.  Only the API compares with the
admin token, so they part where that comparison refuses its texts.  The
handshake strips the token; whether the API does is left to `HTTPBearer`, which
is a parameter (`HttpBearer`).

* `authenticateRows_eq` — what the loop over the rows finds, and when it raises;
* `auth_agrees_iff` — when the two reach one decision.
-/

namespace Dn42Ctl

open Text Txn

/-! ## what a request brings -/

/-- The value of an `Authorization` header: bytes, read as Latin-1. -/
structure HeaderValue where
  text : Str
  latin1 : ∀ c ∈ text, c < 256

/-- A parameter in the path of a URL: UTF-8 text. -/
structure PathParam where
  text : Str
  utf8 : encodable text = true

/-- `hashlib.sha256(s.encode("utf-8")).hexdigest()`. -/
structure TokenDigest where
  digest : Str → Str
  ascii : ∀ s, IsAscii (digest s)

/-- `secrets.compare_digest` of two texts. -/
def compareDigest (a b : Str) : Except PyError Bool :=
  if IsAscii a ∧ IsAscii b then pure (a == b) else throw (pyError .typeError)

/-! ## `ManagedNodeStore.authenticate` -/

/-- `WHERE api_token_hash IS NOT NULL AND enabled=1`. -/
def Db.authRows (db : Db) : List (ManagedNode × Str) :=
  db.managedNodes.filterMap fun node =>
    if node.enabled then node.apiTokenHash.map fun stored => (node, stored) else none

section Authenticate

variable (sha256 : TokenDigest) (token : Str)

/-- The loop over the rows. -/
def authenticateRows : List (ManagedNode × Str) → Except PyError (Option ManagedNode)
  | [] => pure none
  | (node, stored) :: rows => do
      if ← compareDigest stored (hashToken sha256.digest token) then pure (some node)
      else authenticateRows rows

/-- `authenticate`, with what its comparisons raise. -/
def authenticateToken : DbTx (Option ManagedNode) := do
  let rows ← queryOr (databaseError "查询 managed_nodes (auth) 失败") none Db.authRows
  check (authenticateRows sha256 token rows)

end Authenticate

/-! ## `api.py` -/

structure HttpException where
  statusCode : Nat
  detail : String
deriving DecidableEq, Repr

inductive Principal where
  | admin
  | node (nodeId : Str)
deriving DecidableEq, Repr

/-- What the header has behind its first space. -/
def HeaderValue.rest (value : HeaderValue) : Str := (partition 32 value.text).2.getD []

/-- The header begins with the scheme `bearer`, in any case. -/
def HeaderValue.IsBearer (value : HeaderValue) : Prop :=
  lower (partition 32 value.text).1 = lit "bearer"

instance (value : HeaderValue) : Decidable value.IsBearer := inferInstanceAs (Decidable (_ = _))

/-- `HTTPBearer(auto_error=False)`: it yields credentials for the scheme `bearer`
only, and they are what is behind the first space, with the white space around it
or, in later versions, without. -/
structure HttpBearer where
  credentials : HeaderValue → Option Str
  scheme : ∀ value t, credentials value = some t → value.IsBearer
  rest : ∀ value t, credentials value = some t →
    t ≠ [] ∧ (t = value.rest ∨ t = strip value.rest)
  present : ∀ value, value.IsBearer → strip value.rest ≠ [] → (credentials value).isSome

section Http

variable (bearer : HttpBearer) (sha256 : TokenDigest) (adminToken : Option Str)

/-- `_admin_token and compare_digest(token, _admin_token)`. -/
def matchesAdmin (token : Str) : Except PyError Bool :=
  match adminToken with
  | none => pure false
  | some admin => if admin.isEmpty then pure false else compareDigest token admin

/-- `_resolve_principal`. -/
def resolvePrincipal (cred : Option Str) : DbTx (Except HttpException Principal) :=
  match cred with
  | none => pure (.error ⟨401, "Missing Bearer token"⟩)
  | some token =>
      if token.isEmpty then pure (.error ⟨401, "Missing Bearer token"⟩)
      else do
        let isAdmin ← check (matchesAdmin adminToken token)
        if isAdmin then pure (.ok .admin)
        else do
          match ← authenticateToken sha256 token with
          | none => pure (.error ⟨401, "Invalid token"⟩)
          | some node => pure (.ok (.node node.nodeId))

/-- `require_node_self_or_admin`. -/
def requireNodeSelfOrAdmin (nodeId : Str) :
    Except HttpException Principal → Except HttpException Principal
  | .error e => .error e
  | .ok .admin => .ok .admin
  | .ok (.node id) => if id = nodeId then .ok (.node id) else .error ⟨403, "Forbidden"⟩

/-- A request to a route of a node. -/
def httpAuthorize (header : Option HeaderValue) (nodeId : PathParam) :
    DbTx (Except HttpException Principal) := do
  let principal ← resolvePrincipal sha256 adminToken (header.bind bearer.credentials)
  pure (requireNodeSelfOrAdmin nodeId.text principal)

end Http

/-! ## `ws_hub.py` -/

/-- What `_reject` sends: the code of the close frame, and the error. -/
structure WsRejection where
  closeCode : Nat
  errCode : String
  message : Msg
deriving Repr

section Ws

variable (sha256 : TokenDigest)

/-- `_authenticate_sync`. -/
def authenticateForNode (token nodeId : Str) : DbTx (Except WsRejection Unit) := do
  match ← authenticateToken sha256 token with
  | none => pure (.error ⟨4401, "unauthorized", [.text (lit "token 无效")]⟩)
  | some node =>
      if node.nodeId ≠ nodeId then
        pure (.error ⟨4403, "forbidden", [.text (lit "node_id 与 token 不匹配")]⟩)
      else pure (.ok ())

/-- `require_managed_node_exists`, its `Dn42CtlError` as the handshake answers it. -/
def requireManagedNode (nodeId : Str) : DbTx (Except WsRejection Unit) := do
  match ← ManagedNodeStore.get nodeId with
  | none => pure (.error ⟨4404, "not_found", [.text (lit "managed node 不存在: "), .text nodeId]⟩)
  | some _ => pure (.ok ())

/-- `serve_node_connection` up to the first `hello`. -/
def wsAuthorize (header : Option HeaderValue) (nodeId : PathParam) :
    DbTx (Except WsRejection Unit) :=
  match extractBearer (header.map HeaderValue.text) with
  | none => pure (.error ⟨4401, "unauthorized", [.text (lit "缺少 Bearer token")]⟩)
  | some token => do
      match ← authenticateForNode sha256 token nodeId.text with
      | .error rejection => pure (.error rejection)
      | .ok () => requireManagedNode nodeId.text

end Ws

/-! ## decisions -/

inductive AuthVerdict where
  | allowed
  | unauthorized
  | forbidden
deriving DecidableEq, Repr

/-- The status code of a decision. -/
def httpVerdict : Except HttpException Principal → Option AuthVerdict
  | .ok _ => some .allowed
  | .error e =>
      if e.statusCode = 401 then some .unauthorized
      else if e.statusCode = 403 then some .forbidden
      else none

/-- The close code of a decision. -/
def wsVerdict : Except WsRejection Unit → Option AuthVerdict
  | .ok () => some .allowed
  | .error rejection =>
      if rejection.closeCode = 4401 then some .unauthorized
      else if rejection.closeCode = 4403 then some .forbidden
      else none

/-- Both sides decide, and decide the same. -/
def AuthAgrees (bearer : HttpBearer) (sha256 : TokenDigest) (adminToken : Option Str) (db : Db)
    (header : Option HeaderValue) (nodeId : PathParam) : Prop :=
  ∃ verdict http ws,
    eval (httpAuthorize bearer sha256 adminToken header nodeId) db = (.ok http, db) ∧
    eval (wsAuthorize sha256 header nodeId) db = (.ok ws, db) ∧
    httpVerdict http = some verdict ∧ wsVerdict ws = some verdict

/-! ## the loop over the rows -/

section Rows

variable (sha256 : TokenDigest) (token : Str)

/-- The row's hash is the token's. -/
def verifies (row : ManagedNode × Str) : Bool := verifyToken sha256.digest row.2 token

/-- The node a token belongs to. -/
def tokenNode (rows : List (ManagedNode × Str)) : Option ManagedNode :=
  (rows.find? (verifies sha256 token)).map Prod.fst

/-- The hashes the loop looks at before it finds the token's are ASCII. -/
def Comparable (rows : List (ManagedNode × Str)) : Prop :=
  ∀ row ∈ rows.takeWhile fun row => !verifies sha256 token row, IsAscii row.2

/-- The loop finds the token's node, or raises at a hash that is not ASCII. -/
theorem authenticateRows_eq (rows : List (ManagedNode × Str)) :
    (Comparable sha256 token rows ∧
      authenticateRows sha256 token rows = .ok (tokenNode sha256 token rows)) ∨
    (¬ Comparable sha256 token rows ∧
      ∃ e, authenticateRows sha256 token rows = .error e) := by
  induction rows with
  | nil => exact .inl ⟨fun row hrow => (by cases hrow), rfl⟩
  | cons row rows ih =>
      obtain ⟨node, stored⟩ := row
      have hhash := isAscii_hashToken sha256.ascii token
      cases hverify : verifies sha256 token (node, stored) with
      | true =>
          have hsame : (stored == hashToken sha256.digest token) = true := hverify
          have hstored : IsAscii stored := by
            rw [beq_iff_eq.mp hsame]
            exact hhash
          have hcompare : compareDigest stored (hashToken sha256.digest token) = .ok true := by
            rw [compareDigest, if_pos ⟨hstored, hhash⟩, hsame]
            rfl
          refine .inl ⟨?_, ?_⟩
          · intro row hrow
            rw [List.takeWhile_cons_of_neg (by simp [hverify])] at hrow
            cases hrow
          · rw [authenticateRows, hcompare, tokenNode, List.find?_cons_of_pos hverify]
            rfl
      | false =>
          have hdiffers : (stored == hashToken sha256.digest token) = false := hverify
          have hiff : Comparable sha256 token ((node, stored) :: rows) ↔
              IsAscii stored ∧ Comparable sha256 token rows := by
            rw [Comparable, List.takeWhile_cons_of_pos (by simp [hverify]), List.forall_mem_cons]
            rfl
          have hfind : tokenNode sha256 token ((node, stored) :: rows) =
              tokenNode sha256 token rows := by
            rw [tokenNode, List.find?_cons_of_neg (by simp [hverify])]
            rfl
          rw [hiff, hfind, authenticateRows]
          by_cases hstored : IsAscii stored
          · have hcompare : compareDigest stored (hashToken sha256.digest token) = .ok false := by
              rw [compareDigest, if_pos ⟨hstored, hhash⟩, hdiffers]
              rfl
            rw [hcompare]
            obtain ⟨hcomp, hrun⟩ | ⟨hcomp, hrun⟩ := ih
            · exact .inl ⟨⟨hstored, hcomp⟩, hrun⟩
            · exact .inr ⟨fun h => hcomp h.2, hrun⟩
          · have hcompare : compareDigest stored (hashToken sha256.digest token) =
                .error (pyError .typeError) := by
              rw [compareDigest, if_neg fun h => hstored h.1]
              rfl
            rw [hcompare]
            exact .inr ⟨fun h => hstored h.1, _, rfl⟩

/-- Without comparisons that raise, this is `authenticate`. -/
theorem tokenNode_authRows (db : Db) :
    tokenNode sha256 token db.authRows =
      db.managedNodes.find? fun n =>
        n.enabled && n.apiTokenHash.any fun stored => verifyToken sha256.digest stored token := by
  rw [Db.authRows]
  induction db.managedNodes with
  | nil => rfl
  | cons n nodes ih =>
      rw [List.filterMap_cons, List.find?_cons]
      cases n.enabled with
      | false =>
          rw [if_neg Bool.false_ne_true, Bool.false_and]
          exact ih
      | true =>
          rw [if_pos rfl, Bool.true_and]
          cases n.apiTokenHash with
          | none => exact ih
          | some stored =>
              rw [Option.map_some, Option.any_some, tokenNode, List.find?_cons]
              have hrow : verifies sha256 token (n, stored) =
                  verifyToken sha256.digest stored token := rfl
              rw [hrow]
              cases verifyToken sha256.digest stored token with
              | true => rfl
              | false => exact ih

end Rows

/-! ## the two chains -/

section Chains

variable {bearer : HttpBearer} {sha256 : TokenDigest} {adminToken : Option Str} {db : Db}
  {header : Option HeaderValue} {nodeId : PathParam} {t : Str}

theorem extractBearer_some (value : HeaderValue) :
    extractBearer (some value.text) =
      if value.IsBearer ∧ strip value.rest ≠ [] then some (strip value.rest) else none := by
  simp only [extractBearer, HeaderValue.IsBearer, HeaderValue.rest]
  by_cases hscheme : lower (partition 32 value.text).1 = lit "bearer"
  · by_cases hstrip : strip ((partition 32 value.text).2.getD []) = []
    · simp [hscheme, hstrip]
    · simp [hscheme, hstrip]
  · simp [hscheme]

/-- The handshake strips what the API takes as `HTTPBearer` hands it over. -/
theorem extractBearer_eq (bearer : HttpBearer) (header : Option HeaderValue) :
    extractBearer (header.map HeaderValue.text) =
      (header.bind bearer.credentials).bind fun t =>
        if strip t = [] then none else some (strip t) := by
  cases header with
  | none => rfl
  | some value =>
      rw [Option.map_some, extractBearer_some, Option.bind_some]
      cases hcred : bearer.credentials value with
      | none =>
          have hnot : ¬ (value.IsBearer ∧ strip value.rest ≠ []) := by
            rintro ⟨hscheme, hne⟩
            have hsome := bearer.present value hscheme hne
            rw [hcred] at hsome
            cases hsome
          rw [if_neg hnot]
          rfl
      | some t =>
          have hscheme := bearer.scheme value t hcred
          have hstrip : strip t = strip value.rest := by
            obtain h | h := (bearer.rest value t hcred).2
            · rw [h]
            · rw [h, strip_strip]
          rw [Option.bind_some, hstrip]
          by_cases hne : strip value.rest = []
          · simp [hne]
          · simp [hscheme, hne]

theorem credentials_ne (h : header.bind bearer.credentials = some t) : t ≠ [] := by
  obtain ⟨value, -, hcred⟩ := Option.bind_eq_some_iff.mp h
  exact (bearer.rest value t hcred).1

/-- The comparison with the admin token does not raise. -/
def AdminComparable (adminToken : Option Str) (t : Str) : Prop :=
  ∀ admin, adminToken = some admin → admin ≠ [] → IsAscii t ∧ IsAscii admin

/-- The header carries the admin token. -/
def CarriesAdmin (bearer : HttpBearer) (adminToken : Option Str) (header : Option HeaderValue) :
    Prop :=
  ∃ admin, adminToken = some admin ∧ admin ≠ [] ∧ header.bind bearer.credentials = some admin

theorem matchesAdmin_eq (hother : ∀ admin, adminToken = some admin → admin ≠ [] → t ≠ admin) :
    (AdminComparable adminToken t ∧ matchesAdmin adminToken t = .ok false) ∨
      (¬ AdminComparable adminToken t ∧ ∃ e, matchesAdmin adminToken t = .error e) := by
  cases adminToken with
  | none => exact .inl ⟨fun admin h => (by cases h), rfl⟩
  | some admin =>
      rw [matchesAdmin]
      by_cases hempty : admin = []
      · rw [hempty]
        refine .inl ⟨fun admin' h hne => ?_, rfl⟩
        exact absurd (Option.some.inj h).symm hne
      · have hnot : admin.isEmpty = false := by simpa using hempty
        rw [hnot, if_neg Bool.false_ne_true, compareDigest]
        by_cases hascii : IsAscii t ∧ IsAscii admin
        · have hne : (t == admin) = false := beq_eq_false_iff_ne.mpr (hother admin rfl hempty)
          rw [if_pos hascii, hne]
          refine .inl ⟨fun admin' h _ => ?_, rfl⟩
          rw [← Option.some.inj h]
          exact hascii
        · rw [if_neg hascii]
          exact .inr ⟨fun h => hascii (h admin rfl hempty), _, rfl⟩

/-- To whom a token belongs: to the path's node, to another, or to none. -/
def Db.belongs (sha256 : TokenDigest) (nodeId : PathParam) (db : Db) (token : Str) : Option Bool :=
  (tokenNode sha256 token db.authRows).map fun node => node.nodeId == nodeId.text

def verdictOf : Option Bool → AuthVerdict
  | none => .unauthorized
  | some true => .allowed
  | some false => .forbidden

theorem verdictOf_inj {a b : Option Bool} : verdictOf a = verdictOf b ↔ a = b := by
  cases a with
  | none =>
      cases b with
      | none => simp
      | some y => cases y <;> simp [verdictOf]
  | some x =>
      cases b with
      | none => cases x <;> simp [verdictOf]
      | some y => cases x <;> cases y <;> simp [verdictOf]

theorem run_authenticateToken (sha256 : TokenDigest) (token : Str) (db : Db) :
    (authenticateToken sha256 token).run (Conn.fresh db none false) =
      ((authenticateRows sha256 token db.authRows).mapError Exc.raised,
        Conn.fresh db none false) := rfl

theorem run_authenticateToken_cases (sha256 : TokenDigest) (token : Str) (db : Db) :
    (Comparable sha256 token db.authRows ∧
      (authenticateToken sha256 token).run (Conn.fresh db none false) =
        (.ok (tokenNode sha256 token db.authRows), Conn.fresh db none false)) ∨
    (¬ Comparable sha256 token db.authRows ∧
      ∃ e, (authenticateToken sha256 token).run (Conn.fresh db none false) =
        (.error e, Conn.fresh db none false)) := by
  rw [run_authenticateToken]
  obtain ⟨hcomp, hrun⟩ | ⟨hcomp, e, hrun⟩ := authenticateRows_eq sha256 token db.authRows
  · rw [hrun]
    exact .inl ⟨hcomp, rfl⟩
  · rw [hrun]
    exact .inr ⟨hcomp, _, rfl⟩

/-- The API decides whom the token belongs to, unless a comparison raises. -/
theorem eval_httpAuthorize (sha256 : TokenDigest) (db : Db) (nodeId : PathParam)
    (hbearer : header.bind bearer.credentials = some t)
    (hother : ¬ CarriesAdmin bearer adminToken header) :
    (AdminComparable adminToken t ∧ Comparable sha256 t db.authRows ∧
      ∃ http, eval (httpAuthorize bearer sha256 adminToken header nodeId) db = (.ok http, db) ∧
        httpVerdict http = some (verdictOf (db.belongs sha256 nodeId t))) ∨
    (¬ (AdminComparable adminToken t ∧ Comparable sha256 t db.authRows) ∧
      ∃ e, eval (httpAuthorize bearer sha256 adminToken header nodeId) db = (.error e, db)) := by
  have hne : t.isEmpty = false := by simpa using credentials_ne hbearer
  have hnot : ∀ admin, adminToken = some admin → admin ≠ [] → t ≠ admin := by
    intro admin hadmin hempty hsame
    exact hother ⟨admin, hadmin, hempty, hbearer.trans (congrArg some hsame)⟩
  simp only [eval, httpAuthorize, resolvePrincipal, hbearer, hne, Bool.false_eq_true, if_false]
  obtain ⟨hadmin, hmatch⟩ | ⟨hadmin, e, hmatch⟩ := matchesAdmin_eq hnot
  · rw [hmatch]
    have hcheck : (check (.ok false : Except PyError Bool)).run (Conn.fresh db none false) =
        (.ok false, Conn.fresh db none false) := rfl
    rw [Prog.bind_assoc, Prog.run_bind_ok hcheck, if_neg Bool.false_ne_true, Prog.bind_assoc]
    obtain ⟨hcomp, hrun⟩ | ⟨hcomp, e, hrun⟩ := run_authenticateToken_cases sha256 t db
    · rw [Prog.run_bind_ok hrun]
      refine .inl ⟨hadmin, hcomp, ?_⟩
      rw [Db.belongs]
      cases tokenNode sha256 t db.authRows with
      | none => exact ⟨_, rfl, rfl⟩
      | some node =>
          by_cases hnode : node.nodeId = nodeId.text
          · refine ⟨.ok (.node node.nodeId), ?_, ?_⟩
            · have hself : requireNodeSelfOrAdmin nodeId.text (.ok (.node node.nodeId)) =
                  .ok (.node node.nodeId) := if_pos hnode
              rw [← hself]
              rfl
            · rw [Option.map_some, beq_iff_eq.mpr hnode]
              rfl
          · refine ⟨.error ⟨403, "Forbidden"⟩, ?_, ?_⟩
            · have hself : requireNodeSelfOrAdmin nodeId.text (.ok (.node node.nodeId)) =
                  .error ⟨403, "Forbidden"⟩ := if_neg hnode
              rw [← hself]
              rfl
            · rw [Option.map_some, beq_eq_false_iff_ne.mpr hnode]
              rfl
    · rw [Prog.run_bind_error hrun]
      exact .inr ⟨fun h => hcomp h.2, e, rfl⟩
  · rw [hmatch]
    have hcheck : (check (.error e : Except PyError Bool)).run (Conn.fresh db none false) =
        (.error (.raised e), Conn.fresh db none false) := rfl
    rw [Prog.bind_assoc, Prog.run_bind_error hcheck]
    exact .inr ⟨fun h => hadmin h.1, _, rfl⟩

/-- A token that is found belongs to a node that is there. -/
theorem getNode_of_belongs {token : Str} (h : db.belongs sha256 nodeId token = some true) :
    (db.getNode nodeId.text).isSome := by
  rw [Db.belongs, Option.map_eq_some_iff] at h
  obtain ⟨node, hnode, hid⟩ := h
  rw [tokenNode_authRows] at hnode
  rw [Db.getNode, List.find?_isSome]
  exact ⟨node, List.mem_of_find?_eq_some hnode, hid⟩

theorem run_requireManagedNode (h : (db.getNode nodeId.text).isSome) :
    (requireManagedNode nodeId.text).run (Conn.fresh db none false) =
      (.ok (.ok ()), Conn.fresh db none false) := by
  obtain ⟨row, hrow⟩ := Option.isSome_iff_exists.mp h
  have hbind : params [.text nodeId.text] = none := params_eq_none.mpr fun p hp => by
    rw [List.mem_singleton.mp hp]
    exact convert_text.mpr nodeId.utf8
  have hget : (ManagedNodeStore.get nodeId.text).run (Conn.fresh db none false) =
      (.ok (some row), Conn.fresh db none false) := by
    rw [ManagedNodeStore.get, hbind, Conn.fresh, run_queryOr_none, hrow]
  rw [requireManagedNode, Prog.run_bind_ok hget]
  rfl

/-- The handshake decides whom the stripped token belongs to, unless a
comparison raises. -/
theorem eval_wsAuthorize (sha256 : TokenDigest) (db : Db) (nodeId : PathParam)
    (hbearer : header.bind bearer.credentials = some t) (hstrip : strip t ≠ []) :
    (Comparable sha256 (strip t) db.authRows ∧
      ∃ ws, eval (wsAuthorize sha256 header nodeId) db = (.ok ws, db) ∧
        wsVerdict ws = some (verdictOf (db.belongs sha256 nodeId (strip t)))) ∨
    (¬ Comparable sha256 (strip t) db.authRows ∧
      ∃ e, eval (wsAuthorize sha256 header nodeId) db = (.error e, db)) := by
  simp only [eval, wsAuthorize, extractBearer_eq bearer, hbearer, Option.bind_some, if_neg hstrip,
    authenticateForNode]
  rw [Prog.bind_assoc]
  obtain ⟨hcomp, hrun⟩ | ⟨hcomp, e, hrun⟩ := run_authenticateToken_cases sha256 (strip t) db
  · rw [Prog.run_bind_ok hrun]
    refine .inl ⟨hcomp, ?_⟩
    cases hbelongs : db.belongs sha256 nodeId (strip t) with
    | none =>
        rw [Db.belongs, Option.map_eq_none_iff] at hbelongs
        rw [hbelongs]
        exact ⟨_, rfl, rfl⟩
    | some self =>
        have hnode := hbelongs
        rw [Db.belongs, Option.map_eq_some_iff] at hnode
        obtain ⟨node, hnode, hid⟩ := hnode
        rw [hnode]
        cases self with
        | true =>
            have hself : ¬ node.nodeId ≠ nodeId.text := not_not_intro (beq_iff_eq.mp hid)
            dsimp only
            rw [if_neg hself, Prog.run_bind_ok (Prog.run_pure ..),
              run_requireManagedNode (getNode_of_belongs hbelongs)]
            exact ⟨_, rfl, rfl⟩
        | false =>
            have hother : node.nodeId ≠ nodeId.text := beq_eq_false_iff_ne.mp hid
            dsimp only
            rw [if_pos hother]
            exact ⟨_, rfl, rfl⟩
  · rw [Prog.run_bind_error hrun]
    exact .inr ⟨hcomp, e, rfl⟩

/-! ## agreement -/

/-- A header without credentials is refused by both. -/
theorem auth_agrees_of_none (hbearer : header.bind bearer.credentials = none) :
    AuthAgrees bearer sha256 adminToken db header nodeId := by
  refine ⟨.unauthorized, .error ⟨401, "Missing Bearer token"⟩,
    .error ⟨4401, "unauthorized", [.text (lit "缺少 Bearer token")]⟩, ?_, ?_, rfl, rfl⟩
  · simp only [eval, httpAuthorize, resolvePrincipal, hbearer]
    rfl
  · simp only [eval, wsAuthorize, extractBearer_eq bearer, hbearer, Option.bind_none]
    rfl

/-- Credentials of white space alone are refused by the handshake. -/
theorem eval_wsAuthorize_blank (hbearer : header.bind bearer.credentials = some t)
    (hstrip : strip t = []) :
    eval (wsAuthorize sha256 header nodeId) db =
      (.ok (.error ⟨4401, "unauthorized", [.text (lit "缺少 Bearer token")]⟩), db) := by
  simp only [eval, wsAuthorize, extractBearer_eq bearer, hbearer, Option.bind_some, if_pos hstrip]
  rfl

/-- What the handshake does with credentials: the verdict on the stripped token,
unless a comparison raises. -/
theorem eval_wsAuthorize_cases (sha256 : TokenDigest) (db : Db) (nodeId : PathParam)
    (hbearer : header.bind bearer.credentials = some t) :
    ((strip t ≠ [] → Comparable sha256 (strip t) db.authRows) ∧
      ∃ ws, eval (wsAuthorize sha256 header nodeId) db = (.ok ws, db) ∧
        wsVerdict ws = some (verdictOf
          (if strip t = [] then none else db.belongs sha256 nodeId (strip t)))) ∨
    (¬ (strip t ≠ [] → Comparable sha256 (strip t) db.authRows) ∧
      ∃ e, eval (wsAuthorize sha256 header nodeId) db = (.error e, db)) := by
  by_cases hstrip : strip t = []
  · rw [if_pos hstrip]
    exact .inl ⟨fun h => absurd hstrip h, _, eval_wsAuthorize_blank hbearer hstrip, rfl⟩
  · rw [if_neg hstrip]
    obtain ⟨hcomp, hws⟩ | ⟨hcomp, hws⟩ := eval_wsAuthorize sha256 db nodeId hbearer hstrip
    · exact .inl ⟨fun _ => hcomp, hws⟩
    · exact .inr ⟨fun h => hcomp (h hstrip), hws⟩

/-- No comparison raises, and where `HTTPBearer` has left white space around the
credentials, they belong to the same without it. -/
structure ReadAlike (sha256 : TokenDigest) (adminToken : Option Str) (db : Db) (nodeId : PathParam)
    (t : Str) : Prop where
  admin : AdminComparable adminToken t
  rows : Comparable sha256 t db.authRows
  spaced : strip t ≠ t → (strip t ≠ [] → Comparable sha256 (strip t) db.authRows) ∧
    db.belongs sha256 nodeId t = if strip t = [] then none else db.belongs sha256 nodeId (strip t)

/-- The handshake reads the token as the API does. -/
theorem ReadAlike.stripped (h : ReadAlike sha256 adminToken db nodeId t) (hne : t ≠ []) :
    (strip t ≠ [] → Comparable sha256 (strip t) db.authRows) ∧
      db.belongs sha256 nodeId t =
        if strip t = [] then none else db.belongs sha256 nodeId (strip t) := by
  by_cases hsame : strip t = t
  · rw [hsame, if_neg hne]
    exact ⟨fun _ => h.rows, rfl⟩
  · exact h.spaced hsame

theorem auth_agrees_of_some (hbearer : header.bind bearer.credentials = some t)
    (hother : ¬ CarriesAdmin bearer adminToken header) :
    AuthAgrees bearer sha256 adminToken db header nodeId ↔
      ReadAlike sha256 adminToken db nodeId t := by
  constructor
  · rintro ⟨verdict, http, ws, hrunHttp, hrunWs, hverdict, hverdict'⟩
    obtain ⟨hadmin, hcomp, http', hhttp, hv⟩ | ⟨-, e, hhttp⟩ :=
      eval_httpAuthorize sha256 db nodeId hbearer hother
    · obtain ⟨hstripped, ws', hws, hv'⟩ | ⟨-, e, hws⟩ :=
        eval_wsAuthorize_cases sha256 db nodeId hbearer
      · rw [hhttp, Prod.mk.injEq, Except.ok.injEq] at hrunHttp
        rw [hws, Prod.mk.injEq, Except.ok.injEq] at hrunWs
        rw [← hrunHttp.1, hv] at hverdict
        rw [← hrunWs.1, hv'] at hverdict'
        have hsame := Option.some.inj (hverdict.trans hverdict'.symm)
        exact ⟨hadmin, hcomp, fun _ => ⟨hstripped, verdictOf_inj.mp hsame⟩⟩
      · rw [hws] at hrunWs
        cases hrunWs
    · rw [hhttp] at hrunHttp
      cases hrunHttp
  · intro hread
    obtain ⟨hstripped, hsame⟩ := hread.stripped (credentials_ne hbearer)
    obtain ⟨-, -, http, hhttp, hv⟩ | ⟨hnot, -⟩ :=
      eval_httpAuthorize sha256 db nodeId hbearer hother
    · obtain ⟨-, ws, hws, hv'⟩ | ⟨hnot, -⟩ :=
        eval_wsAuthorize_cases sha256 db nodeId hbearer
      · rw [← hsame] at hv'
        exact ⟨_, http, ws, hhttp, hws, hv, hv'⟩
      · exact absurd hstripped hnot
    · exact absurd ⟨hread.admin, hread.rows⟩ hnot

end Chains

/-- **HTTP and WebSocket authentication**: for a header that does not carry the
admin token, the two chains agree exactly where the comparisons they make do not
raise; where `HTTPBearer` keeps the white space around the credentials, they must
also belong to the same without it. -/
theorem auth_agrees_iff (bearer : HttpBearer) (sha256 : TokenDigest) (adminToken : Option Str)
    (db : Db) (header : Option HeaderValue) (nodeId : PathParam)
    (hother : ¬ CarriesAdmin bearer adminToken header) :
    AuthAgrees bearer sha256 adminToken db header nodeId ↔
      ∀ t, header.bind bearer.credentials = some t → ReadAlike sha256 adminToken db nodeId t := by
  cases hbearer : header.bind bearer.credentials with
  | none => exact iff_of_true (auth_agrees_of_none hbearer) fun t ht => by cases ht
  | some t =>
      rw [auth_agrees_of_some hbearer hother]
      constructor
      · intro h t' ht
        rw [← Option.some.inj ht]
        exact h
      · exact fun h => h t rfl

/-! ### an accent -/

def sampleDigest256 : TokenDigest where
  digest := sampleSha256
  ascii s := by
    unfold sampleSha256
    split
    · decide
    · decide

/-- The node of the path. -/
def pathA : PathParam := ⟨lit "a", by decide⟩

/-- `HTTPBearer` as it is since it strips the credentials. -/
def strippingBearer : HttpBearer where
  credentials value :=
    if value.IsBearer ∧ strip value.rest ≠ [] then some (strip value.rest) else none
  scheme value t h := by
    split at h
    · next hvalue => exact hvalue.1
    · cases h
  rest value t h := by
    split at h
    · next hvalue =>
        cases h
        exact ⟨hvalue.2, .inr rfl⟩
    · cases h
  present value hscheme hne := by
    rw [if_pos ⟨hscheme, hne⟩]
    rfl

/-- The header as clients write it. -/
def plainHeader : HeaderValue := ⟨lit "Bearer old", by decide⟩

/-- `Bearer é`. -/
def accentHeader : HeaderValue := ⟨lit "Bearer " ++ [233], by decide⟩

/-- Both take the token of node `a`, and the API compares it with another text first. -/
theorem auth_agrees_plain :
    AuthAgrees strippingBearer sampleDigest256 (some (lit "adm")) rotatedDb (some plainHeader)
      pathA := by
  have htoken : (some plainHeader).bind strippingBearer.credentials = some (lit "old") := by
    decide +kernel
  have hother : ¬ CarriesAdmin strippingBearer (some (lit "adm")) (some plainHeader) := by
    rintro ⟨admin, hadmin, -, hcred⟩
    cases hadmin
    rw [htoken] at hcred
    exact absurd hcred (by decide)
  refine (auth_agrees_iff _ _ _ _ _ _ hother).mpr fun t ht => ?_
  have hcomp : Comparable sampleDigest256 (lit "old") rotatedDb.authRows := by
    unfold Comparable
    decide +kernel
  rw [htoken, Option.some.injEq] at ht
  rw [← ht]
  refine ⟨fun admin h _ => ?_, hcomp, fun hspaced => absurd (by decide) hspaced⟩
  cases h
  decide

/-- With the admin token `adm` configured, the API raises on credentials that are
not ASCII. -/
theorem auth_agrees_fails :
    ¬ AuthAgrees strippingBearer sampleDigest256 (some (lit "adm")) rotatedDb (some accentHeader)
      pathA := by
  have htoken : (some accentHeader).bind strippingBearer.credentials = some [233] := by
    decide +kernel
  have hother : ¬ CarriesAdmin strippingBearer (some (lit "adm")) (some accentHeader) := by
    rintro ⟨admin, hadmin, -, hcred⟩
    cases hadmin
    rw [htoken] at hcred
    exact absurd hcred (by decide)
  rw [auth_agrees_of_some htoken hother]
  intro hread
  have hascii := (hread.admin _ rfl (by decide)).1
  exact absurd hascii (by decide)

end Dn42Ctl
