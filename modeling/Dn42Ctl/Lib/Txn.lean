import Dn42Ctl.Lib.Prog

/-!
# Txn

A database connection with implicit transactions, in the manner of a DB-API
driver over a transactional store: a writing statement opens a transaction,
`commit` publishes the working copy, `rollback` drops it.

A connection may carry one injected fault: the number of statements that
still succeed before one raises.  Reads, writes and `commit` are statements;
`rollback` always works.  `fault` reaches the statements up to and including
the commit; `late` makes the first statement after the commit fail, which is
where a mutator reads its row back.

The rules at the end reduce a mutator to what it computes without a fault:

* `Steady` — a run that returns is the run without the fault;
* `Atomic` — a run that raises leaves the committed state alone, and no run
  leaves a transaction open;
* `Atomic.guarded` — the `try: …; commit  except: rollback; raise` pattern
  is atomic.
-/

namespace Txn

/-- What the driver raises: an integrity violation is the one kind of error
that callers tell from the others. -/
inductive SqlError where
  | operational
  | integrity
deriving DecidableEq, Repr

/-- A parameter the driver cannot convert: an integer outside 64 bits, or a
text that has no UTF-8 encoding.  These are exceptions of the language, not
of the driver, so a handler for the driver's errors does not see them. -/
inductive BindError where
  | overflow
  | unicodeEncode
deriving DecidableEq, Repr

/-- An exception: the driver's, one of parameter conversion, or one the
caller's code raised. -/
inductive Exc (ε : Type) where
  | sqlite (e : SqlError)
  | unbound (e : BindError)
  | raised (e : ε)
deriving DecidableEq, Repr

/-- An open connection. -/
structure Conn (σ : Type) where
  committed : σ
  working : σ
  inTransaction : Bool
  fault : Option Nat
  late : Bool
deriving DecidableEq, Repr

variable {σ ε α β γ : Type}

namespace Conn

/-- A connection just opened on `db`. -/
def fresh (db : σ) (fault : Option Nat) (late : Bool) : Conn σ := ⟨db, db, false, fault, late⟩

/-- No transaction is open and nothing is pending. -/
def Clean (c : Conn σ) : Prop := c.working = c.committed ∧ c.inTransaction = false

/-- The same connection without its faults. -/
def disarm (c : Conn σ) : Conn σ := { c with fault := none, late := false }

/-- Everything but the fault. -/
def view (c : Conn σ) : σ × σ × Bool := (c.committed, c.working, c.inTransaction)

/-- A connection that was just opened is clean. -/
theorem fresh_clean (db : σ) (fault : Option Nat) (late : Bool) : (fresh db fault late).Clean :=
  ⟨rfl, rfl⟩

/-- Disarming takes the pending fault away. -/
@[simp] theorem disarm_fresh (db : σ) (fault : Option Nat) (late : Bool) :
    (fresh db fault late).disarm = fresh db none false := rfl

/-- It leaves what is committed. -/
@[simp] theorem disarm_committed (c : Conn σ) : c.disarm.committed = c.committed := rfl

/-- Being clean is seen from outside. -/
theorem clean_of_view {c c' : Conn σ} (h : c'.view = c.view) (hc : c.Clean) :
    c'.Clean ∧ c'.committed = c.committed := by
  simp only [view, Prod.mk.injEq] at h
  obtain ⟨h1, h2, h3⟩ := h
  exact ⟨⟨by rw [h1, h2]; exact hc.1, by rw [h3]; exact hc.2⟩, h1⟩

/-- Without a fault there is nothing to disarm. -/
theorem disarm_of_fault {c : Conn σ} (h : c.fault = none) (hl : c.late = false) :
    c.disarm = c := by
  obtain ⟨d, w, t, f, l⟩ := c
  simp only at h hl
  subst h; subst hl
  rfl

/-- A clean connection without a fault is a fresh one. -/
theorem disarm_eq_fresh {c : Conn σ} (hc : c.Clean) : c.disarm = fresh c.committed none false := by
  obtain ⟨d, w, t, f, l⟩ := c
  obtain ⟨hw, ht⟩ := hc
  simp only at hw ht
  subst hw; subst ht
  rfl

end Conn

/-- A program over a connection. -/
abbrev Tx (σ ε α : Type) := Prog (Conn σ) (Exc ε) α

/-! ## statements -/

/-- Run one statement, unless the fault is due. -/
def statement (body : Conn σ → Except (Exc ε) α × Conn σ) : Tx σ ε α := fun c =>
  match c.fault with
  | none => body c
  | some 0 => (.error (.sqlite .operational), { c with fault := none })
  | some (k + 1) => body { c with fault := some k }

/-- A `SELECT`.  `bind` is the outcome of converting the parameters. -/
def query (bind : Option BindError) (f : σ → α) : Tx σ ε α := statement fun c =>
  match bind with
  | some e => (.error (.unbound e), c)
  | none => (.ok (f c.working), c)

/-- An `INSERT`, `UPDATE` or `DELETE`; it opens a transaction before it
converts its parameters, and also when it matches no row. -/
def execute (bind : Option BindError) (f : σ → Except SqlError (α × σ)) : Tx σ ε α :=
  statement fun c =>
    match bind with
    | some e => (.error (.unbound e), { c with inTransaction := true })
    | none =>
        match f c.working with
        | .ok (a, w) => (.ok a, { c with working := w, inTransaction := true })
        | .error e => (.error (.sqlite e), { c with inTransaction := true })

/-- A writing statement that violates no constraint and whose result is not used. -/
def modify (bind : Option BindError) (f : σ → σ) : Tx σ ε Unit :=
  execute bind fun w => .ok ((), f w)

/-- Publish the working copy. -/
def commit : Tx σ ε Unit := statement fun c =>
  (.ok (), { c with
    committed := c.working, inTransaction := false,
    fault := if c.late then some 0 else none, late := false })

/-- Drop the working copy. -/
def rollback : Tx σ ε Unit := fun c =>
  (.ok (), { c with working := c.committed, inTransaction := false })

/-- `raise` of the caller's own exception. -/
def fail (e : ε) : Tx σ ε α := Prog.raise (.raised e)

/-- `rollback()` and then `raise`: how a mutator leaves an open transaction
with an exception of its own. -/
def abort (e : ε) : Tx σ ε α := do
  rollback
  fail e

/-- `if p: rollback(); raise e`. -/
def abortIf (p : Bool) (e : ε) : Tx σ ε Unit := if p then abort e else pure ()

/-- `try: body  except sqlite3.Error: rollback; raise onError`. -/
def guarded (onError : SqlError → ε) (body : Tx σ ε α) : Tx σ ε α :=
  Prog.catching body fun
    | .sqlite e => abort (onError e)
    | e => Prog.raise e

/-- `try: SELECT …  except sqlite3.Error: raise msg`. -/
def queryOr (msg : ε) (bind : Option BindError) (f : σ → α) : Tx σ ε α :=
  Prog.catching (query bind f) fun
    | .sqlite _ => fail msg
    | e => Prog.raise e

/-- Read a row back and raise when it is not there. -/
def readBack (msg missing : ε) (bind : Option BindError) (f : σ → Option α) : Tx σ ε α := do
  match ← queryOr msg bind f with
  | some a => pure a
  | none => fail missing

/-- Run a program on a fresh connection, close it (dropping what was not
committed) and return the outcome with the database left behind. -/
def eval (m : Tx σ ε α) (db : σ) : Except (Exc ε) α × σ :=
  ((m.run (Conn.fresh db none false)).1, (m.run (Conn.fresh db none false)).2.committed)

/-! ## running statements without a fault -/

/-- A query whose parameters bind reads the working state. -/
@[simp] theorem run_query_none (f : σ → α) (d w : σ) (t l : Bool) :
    (query none f : Tx σ ε α).run ⟨d, w, t, none, l⟩ = (.ok (f w), ⟨d, w, t, none, l⟩) := rfl

@[simp] theorem run_queryOr_none (msg : ε) (f : σ → α) (d w : σ) (t l : Bool) :
    (queryOr msg none f).run ⟨d, w, t, none, l⟩ = (.ok (f w), ⟨d, w, t, none, l⟩) := rfl

/-- A write whose parameters fit, where no statement fails. -/
theorem run_execute_none (f : σ → Except SqlError (α × σ)) (d w : σ) (t l : Bool) :
    (execute none f : Tx σ ε α).run ⟨d, w, t, none, l⟩ =
      match f w with
      | .ok (a, w') => (.ok a, ⟨d, w', true, none, l⟩)
      | .error e => (.error (.sqlite e), ⟨d, w, true, none, l⟩) := rfl

/-- A statement that binds changes the working state and opens the transaction. -/
@[simp] theorem run_modify_none (f : σ → σ) (d w : σ) (t l : Bool) :
    (modify none f : Tx σ ε Unit).run ⟨d, w, t, none, l⟩ = (.ok (), ⟨d, f w, true, none, l⟩) :=
  rfl

/-- A commit publishes the working state. -/
@[simp] theorem run_commit_none (d w : σ) (t : Bool) :
    (commit : Tx σ ε Unit).run ⟨d, w, t, none, false⟩ = (.ok (), ⟨w, w, false, none, false⟩) := rfl

/-- A commit publishes the working copy unless it is the statement that fails. -/
theorem run_commit (c : Conn σ) :
    (commit : Tx σ ε Unit).run c =
        (.ok (), ⟨c.working, c.working, false, if c.late then some 0 else none, false⟩) ∨
      (commit : Tx σ ε Unit).run c = (.error (.sqlite .operational), { c with fault := none }) := by
  obtain ⟨d, w, t, f, l⟩ := c
  match f with
  | none => exact .inl rfl
  | some 0 => exact .inr rfl
  | some (k + 1) => exact .inl rfl

/-- A rollback takes the committed state back. -/
@[simp] theorem run_rollback (c : Conn σ) :
    (rollback : Tx σ ε Unit).run c =
      (.ok (), ⟨c.committed, c.committed, false, c.fault, c.late⟩) := rfl

@[simp] theorem run_fail (e : ε) (c : Conn σ) :
    (fail e : Tx σ ε α).run c = (.error (.raised e), c) := rfl

/-- An abort rolls back and raises. -/
@[simp] theorem run_abort (e : ε) (c : Conn σ) :
    (abort e : Tx σ ε α).run c =
      (.error (.raised e), ⟨c.committed, c.committed, false, c.fault, c.late⟩) := rfl

/-- The handler of `guarded`, on each kind of exception. -/
theorem run_guarded {onError : SqlError → ε} (body : Tx σ ε α) (c : Conn σ) :
    (guarded onError body).run c =
      match body.run c with
      | (.ok a, c') => (.ok a, c')
      | (.error (.sqlite e), c') =>
          (.error (.raised (onError e)), ⟨c'.committed, c'.committed, false, c'.fault, c'.late⟩)
      | (.error e, c') => (.error e, c') := by
  rw [guarded, Prog.run_catching]
  cases body.run c with
  | mk r c' =>
      match r with
      | .ok a => rfl
      | .error (.sqlite e) => rfl
      | .error (.unbound e) => rfl
      | .error (.raised e) => rfl

/-- What a query returns, on any connection. -/
theorem queryOr_found {msg : ε} {bd : Option BindError} {f : σ → α} {c c' : Conn σ} {a : α}
    (h : (queryOr msg bd f).run c = (.ok a, c')) : a = f c.working := by
  obtain ⟨d, w, t, k, l⟩ := c
  match k, bd with
  | none, none =>
      cases h
      rfl
  | none, some e => cases h
  | some 0, _ => cases h
  | some (k + 1), none =>
      cases h
      rfl
  | some (k + 1), some e => cases h

/-! ## inverting runs that return

`eval m db = (.ok a, db')` is taken apart statement by statement: each lemma
says what the first statement of a program that returned has done. -/

/-- A program on a connection of its own returns what it commits. -/
theorem eval_eq_ok {m : Tx σ ε α} {db db' : σ} {a : α} :
    eval m db = (.ok a, db') ↔
      ∃ c', m.run ⟨db, db, false, none, false⟩ = (.ok a, c') ∧ c'.committed = db' := by
  simp only [eval, Conn.fresh, Prod.mk.injEq]
  constructor
  · rintro ⟨h1, h2⟩
    exact ⟨_, Prod.ext h1 rfl, h2⟩
  · rintro ⟨c', h, rfl⟩
    rw [h]
    exact ⟨rfl, rfl⟩

section Invert

variable {d w : σ} {t l : Bool} {c c' : Conn σ} {b : β} {bd : Option BindError}

/-- A query that returns was bound and reads the working copy. -/
theorem run_query_eq_ok {f : σ → α} {a : α} :
    (query bd f : Tx σ ε α).run ⟨d, w, t, none, l⟩ = (.ok a, c') ↔
      bd = none ∧ f w = a ∧ c' = ⟨d, w, t, none, l⟩ := by
  cases bd with
  | some e => simp [query, statement, Prog.run]
  | none => simp [eq_comm]

/-- A guarded query returned what it read. -/
theorem run_queryOr_eq_ok {msg : ε} {f : σ → α} {a : α} :
    (queryOr msg bd f).run ⟨d, w, t, none, l⟩ = (.ok a, c') ↔
      bd = none ∧ f w = a ∧ c' = ⟨d, w, t, none, l⟩ := by
  cases bd with
  | some e => simp [queryOr, query, statement, Prog.run, Prog.catching, Prog.raise]
  | none => simp [eq_comm]

/-- A write that returns was bound and left the working copy that it computes. -/
theorem run_execute_eq_ok {f : σ → Except SqlError (α × σ)} {a : α} :
    (execute bd f : Tx σ ε α).run ⟨d, w, t, none, l⟩ = (.ok a, c') ↔
      bd = none ∧ ∃ w', f w = .ok (a, w') ∧ c' = ⟨d, w', true, none, l⟩ := by
  cases bd with
  | some e => simp [execute, statement, Prog.run]
  | none =>
      rw [run_execute_none]
      cases f w with
      | error e => simp
      | ok p =>
          obtain ⟨a', w'⟩ := p
          constructor
          · intro h
            simp only [Prod.mk.injEq, Except.ok.injEq] at h
            exact ⟨rfl, w', by rw [h.1], h.2.symm⟩
          · rintro ⟨-, w'', h, rfl⟩
            simp only [Except.ok.injEq, Prod.mk.injEq] at h
            rw [h.1, h.2]

/-- An unconditional write. -/
theorem run_modify_eq_ok {f : σ → σ} {u : Unit} :
    (modify bd f : Tx σ ε Unit).run ⟨d, w, t, none, l⟩ = (.ok u, c') ↔
      bd = none ∧ c' = ⟨d, f w, true, none, l⟩ := by
  rw [modify, run_execute_eq_ok]
  simp

/-- What follows a query. -/
theorem bind_query {f : σ → α} {rest : α → Tx σ ε β}
    (h : (query bd f >>= rest).run ⟨d, w, t, none, l⟩ = (.ok b, c')) :
    bd = none ∧ (rest (f w)).run ⟨d, w, t, none, l⟩ = (.ok b, c') := by
  obtain ⟨a, c1, h1, h2⟩ := Prog.run_bind_eq_ok.mp h
  obtain ⟨hb, rfl, rfl⟩ := run_query_eq_ok.mp h1
  exact ⟨hb, h2⟩

/-- What follows a query with a message. -/
theorem bind_queryOr {msg : ε} {f : σ → α} {rest : α → Tx σ ε β}
    (h : (queryOr msg bd f >>= rest).run ⟨d, w, t, none, l⟩ = (.ok b, c')) :
    bd = none ∧ (rest (f w)).run ⟨d, w, t, none, l⟩ = (.ok b, c') := by
  obtain ⟨a, c1, h1, h2⟩ := Prog.run_bind_eq_ok.mp h
  obtain ⟨hb, rfl, rfl⟩ := run_queryOr_eq_ok.mp h1
  exact ⟨hb, h2⟩

/-- What follows a write. -/
theorem bind_execute {f : σ → Except SqlError (α × σ)} {rest : α → Tx σ ε β}
    (h : (execute bd f >>= rest).run ⟨d, w, t, none, l⟩ = (.ok b, c')) :
    ∃ a w', bd = none ∧ f w = .ok (a, w') ∧
      (rest a).run ⟨d, w', true, none, l⟩ = (.ok b, c') := by
  obtain ⟨a, c1, h1, h2⟩ := Prog.run_bind_eq_ok.mp h
  obtain ⟨hb, w', hw, rfl⟩ := run_execute_eq_ok.mp h1
  exact ⟨a, w', hb, hw, h2⟩

/-- What follows an unconditional write. -/
theorem bind_modify {f : σ → σ} {rest : Unit → Tx σ ε β}
    (h : (modify bd f >>= rest).run ⟨d, w, t, none, l⟩ = (.ok b, c')) :
    bd = none ∧ (rest ()).run ⟨d, f w, true, none, l⟩ = (.ok b, c') := by
  obtain ⟨a, c1, h1, h2⟩ := Prog.run_bind_eq_ok.mp h
  obtain ⟨hb, rfl⟩ := run_modify_eq_ok.mp h1
  exact ⟨hb, h2⟩

/-- What returns after an `abortIf` did not abort. -/
theorem bind_abortIf {p : Bool} {e : ε} {rest : Unit → Tx σ ε β}
    (h : (abortIf p e >>= rest).run c = (.ok b, c')) :
    p = false ∧ (rest ()).run c = (.ok b, c') := by
  obtain ⟨a, c1, h1, h2⟩ := Prog.run_bind_eq_ok.mp h
  cases p with
  | true => simp [abortIf] at h1
  | false =>
      simp only [abortIf, Bool.false_eq_true, if_false, Prog.run_pure, Prod.mk.injEq] at h1
      exact ⟨rfl, h1.2 ▸ h2⟩

/-- A commit that returns has published the working copy. -/
theorem committed_of_commit {u : Unit}
    (h : (commit : Tx σ ε Unit).run ⟨d, w, t, none, l⟩ = (.ok u, c')) :
    c' = ⟨w, w, false, if l then some 0 else none, false⟩ := by
  rcases run_commit (ε := ε) ⟨d, w, t, none, l⟩ with hc | hc
  · rw [hc, Prod.mk.injEq] at h
    exact h.2.symm
  · simp [hc] at h

/-- A program that ends with its commit has committed the working copy. -/
theorem committed_of_commit_pure {a : β}
    (h : ((commit : Tx σ ε Unit) >>= fun _ => pure a).run ⟨d, w, t, none, l⟩ = (.ok b, c')) :
    c' = ⟨w, w, false, if l then some 0 else none, false⟩ := by
  obtain ⟨u, c1, h1, h2⟩ := Prog.run_bind_eq_ok.mp h
  simp only [Prog.run_pure, Prod.mk.injEq] at h2
  exact h2.2 ▸ committed_of_commit h1

/-- A guarded body returns exactly when the body does. -/
theorem run_guarded_eq_ok {onError : SqlError → ε} {body : Tx σ ε β} :
    (guarded onError body).run c = (.ok b, c') ↔ body.run c = (.ok b, c') := by
  rw [run_guarded]
  match body.run c with
  | (.ok b, c1) => exact Iff.rfl
  | (.error (.sqlite e), c1) => simp
  | (.error (.unbound e), c1) => simp
  | (.error (.raised e), c1) => simp

/-- What is read back is the row the query finds. -/
theorem run_readBack_eq_ok {msg missing : ε} {f : σ → Option α} {a : α} :
    (readBack msg missing bd f).run ⟨d, w, t, none, l⟩ = (.ok a, c') ↔
      bd = none ∧ f w = some a ∧ c' = ⟨d, w, t, none, l⟩ := by
  constructor
  · intro h
    obtain ⟨hb, h⟩ := bind_queryOr h
    cases hf : f w with
    | none => simp [hf] at h
    | some a' =>
        simp only [hf, Prog.run_pure, Prod.mk.injEq, Except.ok.injEq] at h
        exact ⟨hb, by rw [h.1], h.2.symm⟩
  · rintro ⟨rfl, hf, rfl⟩
    rw [readBack, Prog.run_bind_ok (run_queryOr_none ..), hf]
    rfl

end Invert

/-! ## steady programs -/

/-- A run that returns is the run without the fault. -/
def Steady (m : Tx σ ε α) : Prop :=
  ∀ c a c', m.run c = (.ok a, c') → m.run c.disarm = (.ok a, c'.disarm)

namespace Steady

theorem pure (a : α) : Steady (Pure.pure a : Tx σ ε α) := by
  intro c b c' h
  simp only [Prog.run_pure, Prod.mk.injEq, Except.ok.injEq] at h ⊢
  exact ⟨h.1, congrArg Conn.disarm h.2⟩

theorem fail (e : ε) : Steady (fail e : Tx σ ε α) := by
  intro c b c' h
  simp at h

theorem rollback : Steady (rollback : Tx σ ε Unit) := by
  intro c b c' h
  rw [run_rollback, Prod.mk.injEq] at h
  rw [← h.2]
  rfl

/-- A statement is steady when its body does not look at the fault. -/
theorem statement {body : Conn σ → Except (Exc ε) α × Conn σ}
    (hb : ∀ c a c', body c = (.ok a, c') → body c.disarm = (.ok a, c'.disarm)) :
    Steady (statement body) := by
  intro c a c' h
  obtain ⟨d, w, t, f, l⟩ := c
  match f with
  | none => exact hb _ _ _ h
  | some 0 => simp [Txn.statement, Prog.run] at h
  | some (k + 1) => exact hb ⟨d, w, t, some k, l⟩ a c' h

theorem query (b : Option BindError) (f : σ → α) : Steady (query b f : Tx σ ε α) :=
  statement fun c a c' h => by
    cases b with
    | some e => simp at h
    | none =>
        simp only [Prod.mk.injEq, Except.ok.injEq] at h ⊢
        exact ⟨h.1, congrArg Conn.disarm h.2⟩

theorem execute (b : Option BindError) (f : σ → Except SqlError (α × σ)) :
    Steady (execute b f : Tx σ ε α) :=
  statement fun c a c' h => by
    have hd : c.disarm.working = c.working := rfl
    rw [hd]
    cases b with
    | some e => simp at h
    | none =>
        cases hf : f c.working with
        | error e => simp [hf] at h
        | ok p =>
            simp only [hf, Prod.mk.injEq, Except.ok.injEq] at h
            rw [← h.1, ← h.2]
            rfl

theorem modify (b : Option BindError) (f : σ → σ) : Steady (modify b f : Tx σ ε Unit) :=
  execute b _

theorem commit : Steady (commit : Tx σ ε Unit) :=
  statement fun c a c' h => by
    simp only [Prod.mk.injEq] at h
    rw [← h.2]
    rfl

theorem bind {m : Tx σ ε α} {f : α → Tx σ ε β} (hm : Steady m) (hf : ∀ a, Steady (f a)) :
    Steady (m >>= f) := by
  intro c b c' h
  obtain ⟨a, c1, h1, h2⟩ := Prog.run_bind_eq_ok.mp h
  exact Prog.run_bind_eq_ok.mpr ⟨a, c1.disarm, hm c a c1 h1, hf a c1 b c' h2⟩

/-- A handler that never returns does not matter for the runs that do. -/
theorem catching {m : Tx σ ε α} {h : Exc ε → Tx σ ε α} (hm : Steady m)
    (hh : ∀ e c, ∃ e' c', (h e).run c = (.error e', c')) : Steady (Prog.catching m h) := by
  intro c a c' hr
  rw [Prog.run_catching] at hr ⊢
  cases hmc : m.run c with
  | mk r c1 =>
      rw [hmc] at hr
      cases r with
      | error e =>
          obtain ⟨e', c2, he⟩ := hh e c1
          simp [he] at hr
      | ok b =>
          simp only [Prod.mk.injEq, Except.ok.injEq] at hr
          obtain ⟨rfl, rfl⟩ := hr
          rw [hm c b c1 hmc]

theorem guarded {onError : SqlError → ε} {body : Tx σ ε α} (hb : Steady body) :
    Steady (guarded onError body) :=
  catching hb fun e c => by
    cases e with
    | sqlite e => exact ⟨_, _, rfl⟩
    | unbound e => exact ⟨_, _, rfl⟩
    | raised e => exact ⟨_, _, rfl⟩

theorem queryOr (msg : ε) (b : Option BindError) (f : σ → α) : Steady (queryOr msg b f) :=
  catching (query b f) fun e c => by
    cases e with
    | sqlite e => exact ⟨_, _, rfl⟩
    | unbound e => exact ⟨_, _, rfl⟩
    | raised e => exact ⟨_, _, rfl⟩

theorem abort (e : ε) : Steady (abort e : Tx σ ε α) := bind rollback fun _ => fail e

end Steady

/-! ## transaction bodies -/

/-- A body before its commit: it publishes nothing, and an exception of its
own leaves no transaction open. -/
structure Body (m : Tx σ ε α) : Prop where
  steady : Steady m
  committed : Prog.Keeps Conn.committed m
  late : Prog.Keeps Conn.late m
  raised : ∀ c e c', m.run c = (.error (.raised e), c') → c'.Clean

namespace Body

theorem pure (a : α) : Body (Pure.pure a : Tx σ ε α) where
  steady := .pure a
  committed := .pure a
  late := .pure a
  raised c e c' h := by simp at h

theorem abort (e : ε) : Body (abort e : Tx σ ε α) where
  steady := .abort e
  committed _ := rfl
  late _ := rfl
  raised c e c' h := by
    rw [run_abort, Prod.mk.injEq] at h
    rw [← h.2]
    exact ⟨rfl, rfl⟩

theorem abortIf (p : Bool) (e : ε) : Body (abortIf p e : Tx σ ε Unit) := by
  cases p with
  | true => exact abort e
  | false => exact pure ()

/-- Statements raise only the driver's exceptions. -/
theorem statement {body : Conn σ → Except (Exc ε) α × Conn σ} (hs : Steady (statement body))
    (hc : ∀ c, (body c).2.committed = c.committed) (hl : ∀ c, (body c).2.late = c.late)
    (hr : ∀ c e c', body c ≠ (.error (.raised e), c')) : Body (statement body) where
  steady := hs
  committed := by
    intro c
    obtain ⟨d, w, t, f, l⟩ := c
    match f with
    | none => exact hc _
    | some 0 => rfl
    | some (k + 1) => exact hc ⟨d, w, t, some k, l⟩
  late := by
    intro c
    obtain ⟨d, w, t, f, l⟩ := c
    match f with
    | none => exact hl _
    | some 0 => rfl
    | some (k + 1) => exact hl ⟨d, w, t, some k, l⟩
  raised c e c' h := by
    obtain ⟨d, w, t, f, l⟩ := c
    match f with
    | none => exact absurd h (hr _ _ _)
    | some 0 => simp [Txn.statement, Prog.run] at h
    | some (k + 1) => exact absurd h (hr ⟨d, w, t, some k, l⟩ _ _)

theorem query (b : Option BindError) (f : σ → α) : Body (query b f : Tx σ ε α) := by
  refine statement (.query b f) (fun c => ?_) (fun c => ?_) fun c e c' h => ?_
  · cases b <;> rfl
  · cases b <;> rfl
  · cases b <;> simp at h

theorem execute (b : Option BindError) (f : σ → Except SqlError (α × σ)) :
    Body (execute b f : Tx σ ε α) := by
  refine statement (.execute b f) (fun c => ?_) (fun c => ?_) fun c e c' h => ?_
  · cases b with
    | some e => rfl
    | none => cases f c.working <;> rfl
  · cases b with
    | some e => rfl
    | none => cases f c.working <;> rfl
  · cases b with
    | some e => simp at h
    | none => cases hf : f c.working <;> simp [hf] at h

theorem modify (b : Option BindError) (f : σ → σ) : Body (modify b f : Tx σ ε Unit) :=
  execute b _

/-- A body is made of bodies. -/
theorem bind {m : Tx σ ε α} {f : α → Tx σ ε β} (hm : Body m) (hf : ∀ a, Body (f a)) :
    Body (m >>= f) where
  steady := hm.steady.bind fun a => (hf a).steady
  committed := hm.committed.bind fun a => (hf a).committed
  late := hm.late.bind fun a => (hf a).late
  raised c e c' h := by
    rw [Prog.run_bind] at h
    cases hmc : m.run c with
    | mk r c1 =>
        rw [hmc] at h
        cases r with
        | ok a => exact (hf a).raised c1 e c' h
        | error e1 =>
            simp only [Prod.mk.injEq, Except.error.injEq] at h
            obtain ⟨rfl, rfl⟩ := h
            exact hm.raised c e c1 hmc

/-- A loop over bodies is one. -/
theorem forM {f : β → Tx σ ε PUnit} (hf : ∀ b, Body (f b)) (bs : List β) : Body (bs.forM f) := by
  induction bs with
  | nil => exact .pure _
  | cons b bs ih => exact .bind (hf b) fun _ => ih

end Body

/-! ## bodies with their commit -/

/-- A body whose last statement is its commit. -/
structure Committing (m : Tx σ ε α) : Prop where
  steady : Steady m
  ok : ∀ c a c', m.run c = (.ok a, c') →
    c'.Clean ∧ c'.fault = (if c.late then some 0 else none) ∧ c'.late = false
  error : ∀ c e c', m.run c = (.error e, c') →
    c'.committed = c.committed ∧ ∀ e', e = .raised e' → c'.Clean

namespace Committing

theorem commit : Committing (commit : Tx σ ε Unit) where
  steady := .commit
  ok c a c' h := by
    rcases run_commit (ε := ε) c with hc | hc
    · rw [hc, Prod.mk.injEq] at h
      rw [← h.2]
      exact ⟨⟨rfl, rfl⟩, rfl, rfl⟩
    · simp [hc] at h
  error c e c' h := by
    -- the commit itself may be the statement that fails
    rcases run_commit (ε := ε) c with hc | hc
    · simp [hc] at h
    · rw [hc, Prod.mk.injEq, Except.error.injEq] at h
      rw [← h.1, ← h.2]
      exact ⟨rfl, fun e' he => by simp at he⟩

/-- The value of a committing program may still be changed. -/
theorem map {m : Tx σ ε α} (hm : Committing m) (g : α → β) :
    Committing (m >>= fun a => Pure.pure (g a)) where
  steady := hm.steady.bind fun _ => .pure _
  ok c b c' h := by
    obtain ⟨a, c1, h1, h2⟩ := Prog.run_bind_eq_ok.mp h
    simp only [Prog.run_pure, Prod.mk.injEq] at h2
    exact h2.2 ▸ hm.ok c a c1 h1
  error c e c' h := by
    rw [Prog.run_bind] at h
    cases hmc : m.run c with
    | mk res c1 =>
        rw [hmc] at h
        cases res with
        | ok a => simp at h
        | error e1 =>
            simp only [Prod.mk.injEq, Except.error.injEq] at h
            obtain ⟨rfl, rfl⟩ := h
            exact hm.error c e1 c1 hmc

/-- A body that ends in a committing program commits. -/
theorem bind {m : Tx σ ε α} {f : α → Tx σ ε β} (hm : Body m) (hf : ∀ a, Committing (f a)) :
    Committing (m >>= f) where
  steady := hm.steady.bind fun a => (hf a).steady
  ok c b c' h := by
    obtain ⟨a, c1, h1, h2⟩ := Prog.run_bind_eq_ok.mp h
    have hl := hm.late c
    rw [h1] at hl
    obtain ⟨hcl, hfault, hlate⟩ := (hf a).ok c1 b c' h2
    exact ⟨hcl, by rw [hfault, show c1.late = c.late from hl], hlate⟩
  error c e c' h := by
    have hk := hm.committed c
    rw [Prog.run_bind] at h
    cases hmc : m.run c with
    | mk res c1 =>
        rw [hmc] at h hk
        cases res with
        | ok a =>
            obtain ⟨h1, h2⟩ := (hf a).error c1 e c' h
            exact ⟨h1.trans hk, h2⟩
        | error e1 =>
            simp only [Prod.mk.injEq, Except.error.injEq] at h
            obtain ⟨rfl, rfl⟩ := h
            exact ⟨hk, fun e' he => hm.raised c e' c1 (by rw [hmc, he])⟩

end Committing

/-! ## atomic programs -/

/-- All or nothing: from a connection with no open transaction, a run that
raises leaves the committed state as it was, and no run leaves a transaction
open unless a parameter could not be converted.  The exception is a program that
reads its row back: when that read fails, the run raises after it has committed
what it would have returned. -/
structure Atomic (readsBack : Bool) (m : Tx σ ε α) : Prop where
  steady : Steady m
  error : ∀ c e c', c.Clean → m.run c = (.error e, c') →
    (c'.Clean ∨ ∃ b, e = .unbound b) ∧ (c'.committed = c.committed ∨
      readsBack = true ∧ c.late = true ∧ ∃ a, eval m c.committed = (.ok a, c'.committed))
  ok : ∀ c a c', c.Clean → m.run c = (.ok a, c') →
    c'.Clean ∧ (c'.committed = c.committed ∨
      (c.late = false → c'.fault = none ∧ c'.late = false))

/-- A program that only reads. -/
structure ReadOnly (m : Tx σ ε α) : Prop where
  steady : Steady m
  view : Prog.Keeps Conn.view m
  late : Prog.Keeps Conn.late m

namespace ReadOnly

theorem pure (a : α) : ReadOnly (Pure.pure a : Tx σ ε α) := ⟨.pure a, .pure a, .pure a⟩

theorem fail (e : ε) : ReadOnly (fail e : Tx σ ε α) := ⟨.fail e, .raise _, .raise _⟩

theorem queryOr (msg : ε) (b : Option BindError) (f : σ → α) : ReadOnly (queryOr msg b f) where
  steady := .queryOr msg b f
  view := by
    intro c
    obtain ⟨d, w, t, k, l⟩ := c
    match k with
    | none => cases b <;> rfl
    | some 0 => rfl
    | some (k + 1) => cases b <;> rfl
  late := by
    intro c
    obtain ⟨d, w, t, k, l⟩ := c
    match k with
    | none => cases b <;> rfl
    | some 0 => rfl
    | some (k + 1) => cases b <;> rfl

/-- Reads in sequence read. -/
theorem bind {m : Tx σ ε α} {f : α → Tx σ ε β} (hm : ReadOnly m) (hf : ∀ a, ReadOnly (f a)) :
    ReadOnly (m >>= f) :=
  ⟨hm.steady.bind fun a => (hf a).steady, hm.view.bind fun a => (hf a).view,
    hm.late.bind fun a => (hf a).late⟩

theorem readBack (msg missing : ε) (b : Option BindError) (f : σ → Option α) :
    ReadOnly (readBack msg missing b f) :=
  bind (queryOr msg b f) fun a => by
    cases a with
    | none => exact fail missing
    | some a => exact pure a

/-- A program that only reads leaves what is committed. -/
theorem committed {m : Tx σ ε α} (hm : ReadOnly m) (c : Conn σ) :
    (m.run c).2.committed = c.committed := congrArg Prod.fst (hm.view c)

end ReadOnly

namespace Atomic

/-- Reading is atomic. -/
theorem of_readOnly {r : Bool} {m : Tx σ ε α} (hm : ReadOnly m) : Atomic r m where
  steady := hm.steady
  error c e c' hc h := by
    have hv := hm.view c
    rw [h] at hv
    exact ⟨.inl (Conn.clean_of_view hv hc).1, .inl (Conn.clean_of_view hv hc).2⟩
  ok c a c' hc h := by
    have hv := hm.view c
    rw [h] at hv
    exact ⟨(Conn.clean_of_view hv hc).1, .inl (Conn.clean_of_view hv hc).2⟩

theorem pure {r : Bool} (a : α) : Atomic r (Pure.pure a : Tx σ ε α) := of_readOnly (.pure a)

theorem fail {r : Bool} (e : ε) : Atomic r (fail e : Tx σ ε α) := of_readOnly (.fail e)

/-- What a steady run returns is what `eval` returns. -/
theorem eval_of_run {m : Tx σ ε α} (hm : Steady m) {c c' : Conn σ} {a : α} (hc : c.Clean)
    (h : m.run c = (.ok a, c')) : eval m c.committed = (.ok a, c'.committed) := by
  have hd := hm c a c' h
  rw [Conn.disarm_eq_fresh hc] at hd
  simp only [eval, hd, Conn.disarm_committed]

/-- `eval` of a sequence whose first half returns. -/
theorem eval_bind_of_run {m : Tx σ ε α} {f : α → Tx σ ε β} (hm : Steady m) {c c' : Conn σ} {a : α}
    (hc : c.Clean) (hc' : c'.Clean) (h : m.run c = (.ok a, c')) :
    eval (m >>= f) c.committed = eval (f a) c'.committed := by
  have hd := hm c a c' h
  rw [Conn.disarm_eq_fresh hc, Conn.disarm_eq_fresh hc'] at hd
  simp only [eval, Prog.run_bind_ok hd]

/-- A sequence that returns, its first half being atomic: each half returns. -/
theorem eval_bind {r : Bool} {m : Tx σ ε α} {f : α → Tx σ ε β} (hm : Atomic r m) {db db' : σ}
    {b : β} (h : eval (m >>= f) db = (.ok b, db')) :
    ∃ a mid, eval m db = (.ok a, mid) ∧ eval (f a) mid = (.ok b, db') := by
  obtain ⟨c', hrun, -⟩ := eval_eq_ok.mp h
  obtain ⟨a, c1, h1, -⟩ := Prog.run_bind_eq_ok.mp hrun
  have hfresh := Conn.fresh_clean db none false
  have hclean := (hm.ok _ a c1 hfresh h1).1
  refine ⟨a, c1.committed, eval_of_run hm.steady hfresh h1, ?_⟩
  have hbind : eval (m >>= f) db = eval (f a) c1.committed :=
    eval_bind_of_run hm.steady hfresh hclean h1
  rw [← hbind]
  exact h

/-- A sequence that returns, its first half only reading. -/
theorem eval_bind_read {m : Tx σ ε α} {f : α → Tx σ ε β} (hm : ReadOnly m) {db db' : σ} {b : β}
    (h : eval (m >>= f) db = (.ok b, db')) :
    ∃ a, eval m db = (.ok a, db) ∧ eval (f a) db = (.ok b, db') := by
  obtain ⟨a, mid, h1, h2⟩ := eval_bind (of_readOnly (r := false) hm) h
  have hsame : mid = db := by
    have hdb := hm.committed (Conn.fresh db none false)
    obtain ⟨c', hrun, rfl⟩ := eval_eq_ok.mp h1
    change m.run (Conn.fresh db none false) = _ at hrun
    rw [hrun] at hdb
    exact hdb
  exact ⟨a, hsame ▸ h1, hsame ▸ h2⟩

/-- The result may be replaced. -/
theorem map {r : Bool} {m : Tx σ ε α} (hm : Atomic r m) (g : α → β) :
    Atomic r (m >>= fun a => Pure.pure (g a)) where
  steady := hm.steady.bind fun _ => .pure _
  error c e c' hc h := by
    rw [Prog.run_bind] at h
    cases hmc : m.run c with
    | mk res c1 =>
        rw [hmc] at h
        cases res with
        | ok a => simp at h
        | error e1 =>
            simp only [Prod.mk.injEq, Except.error.injEq] at h
            obtain ⟨rfl, rfl⟩ := h
            obtain ⟨hcl, hsame | ⟨hr, hl, a, ha⟩⟩ := hm.error c e1 c1 hc hmc
            · exact ⟨hcl, .inl hsame⟩
            · refine ⟨hcl, .inr ⟨hr, hl, g a, ?_⟩⟩
              obtain ⟨c2, hc2, h2⟩ := eval_eq_ok.mp ha
              exact eval_eq_ok.mpr ⟨c2, by rw [Prog.run_bind_ok hc2]; rfl, h2⟩
  ok c b c' hc h := by
    obtain ⟨a, c1, h1, h2⟩ := Prog.run_bind_eq_ok.mp h
    simp only [Prog.run_pure, Prod.mk.injEq] at h2
    exact h2.2 ▸ hm.ok c a c1 hc h1

/-- Reads may come before an atomic program. -/
theorem bind_read {r : Bool} {m : Tx σ ε α} {f : α → Tx σ ε β} (hm : ReadOnly m)
    (hf : ∀ a, Atomic r (f a)) : Atomic r (m >>= f) where
  steady := hm.steady.bind fun a => (hf a).steady
  error c e c' hc h := by
    have hv := hm.view c
    rw [Prog.run_bind] at h
    cases hmc : m.run c with
    | mk res c1 =>
        rw [hmc] at h hv
        have hc1 := Conn.clean_of_view hv hc
        cases res with
        | error e1 =>
            simp only [Prod.mk.injEq] at h
            exact h.2 ▸ ⟨.inl hc1.1, .inl hc1.2⟩
        | ok a =>
            obtain ⟨hcl, hsame | ⟨hr, hl, b, hb⟩⟩ := (hf a).error c1 e c' hc1.1 h
            · exact ⟨hcl, .inl (hsame.trans hc1.2)⟩
            · refine ⟨hcl, .inr ⟨hr, ?_, b, ?_⟩⟩
              · have := hm.late c
                rw [hmc] at this
                exact this.symm.trans hl
              · rw [eval_bind_of_run hm.steady hc hc1.1 hmc, hb]
  ok c b c' hc h := by
    obtain ⟨a, c1, h1, h2⟩ := Prog.run_bind_eq_ok.mp h
    have hv := hm.view c
    have hl := hm.late c
    rw [h1] at hv hl
    have hc1 := Conn.clean_of_view hv hc
    obtain ⟨hcl, hsame | hfault⟩ := (hf a).ok c1 b c' hc1.1 h2
    · exact ⟨hcl, .inl (hsame.trans hc1.2)⟩
    · exact ⟨hcl, .inr fun h => hfault (hl.trans h)⟩

/-- **The mutator pattern**: a body and its commit inside the handler that
rolls back. -/
theorem guarded {r : Bool} {onError : SqlError → ε} {m : Tx σ ε α} (hm : Committing m) :
    Atomic r (guarded onError m) where
  steady := .guarded hm.steady
  error c e c' hc h := by
    rw [run_guarded] at h
    cases hmc : m.run c with
    | mk res c1 =>
        rw [hmc] at h
        match res with
        | .error (.sqlite e1) =>
            simp only [Prod.mk.injEq] at h
            rw [← h.2]
            exact ⟨.inl ⟨rfl, rfl⟩, .inl (hm.error c _ c1 hmc).1⟩
        | .error (.unbound e1) =>
            simp only [Prod.mk.injEq, Except.error.injEq] at h
            rw [← h.2]
            exact ⟨.inr ⟨e1, h.1.symm⟩, .inl (hm.error c _ c1 hmc).1⟩
        | .error (.raised e1) =>
            simp only [Prod.mk.injEq] at h
            rw [← h.2]
            exact ⟨.inl ((hm.error c _ c1 hmc).2 e1 rfl), .inl (hm.error c _ c1 hmc).1⟩
        | .ok a => simp at h
  ok c a c' hc h := by
    obtain ⟨hcl, hf, hl⟩ := hm.ok c a c' (run_guarded_eq_ok.mp h)
    refine ⟨hcl, .inr fun hlate => ⟨?_, hl⟩⟩
    rw [hf, hlate]
    rfl

/-- A program that reads its row back after the commit, when the row is there. -/
theorem then_read {m : Tx σ ε γ} {f : γ → Tx σ ε β} (hm : Atomic false m)
    (hf : ∀ a, ReadOnly (f a))
    (hok : ∀ db a db', eval m db = (.ok a, db') → ∃ b, eval (f a) db' = (.ok b, db')) :
    Atomic true (m >>= f) where
  steady := hm.steady.bind fun a => (hf a).steady
  error c e c' hc h := by
    rw [Prog.run_bind] at h
    cases hmc : m.run c with
    | mk res c1 =>
        rw [hmc] at h
        cases res with
        | error e1 =>
            simp only [Prod.mk.injEq] at h
            obtain ⟨hcl, hsame | ⟨hr, -⟩⟩ := hm.error c e1 c1 hc hmc
            · rw [Except.error.injEq] at h
              exact h.1 ▸ h.2 ▸ ⟨hcl, .inl hsame⟩
            · simp at hr
        | ok a =>
            replace h : (f a).run c1 = (.error e, c') := h
            have hv := (hf a).view c1
            rw [h] at hv
            obtain ⟨hcl, hfault⟩ := hm.ok c a c1 hc hmc
            obtain ⟨hcl', hsame'⟩ := Conn.clean_of_view hv hcl
            refine ⟨.inl hcl', ?_⟩
            rcases hfault with hsame | hnone
            · exact .inl (hsame'.trans hsame)
            · obtain ⟨b, hb⟩ := hok _ a _ (eval_of_run hm.steady hc hmc)
              cases hl : c.late with
              | true =>
                  refine .inr ⟨rfl, rfl, b, ?_⟩
                  rw [eval_bind_of_run hm.steady hc hcl hmc, hb, hsame']
              | false =>
                  -- no fault is left, so the read-back is the one `eval` runs
                  obtain ⟨hn, hl1⟩ := hnone hl
                  have h1 : c1 = Conn.fresh c1.committed none false :=
                    (Conn.disarm_of_fault hn hl1).symm.trans (Conn.disarm_eq_fresh hcl)
                  rw [eval, ← h1, h] at hb
                  simp at hb
  ok c b c' hc h := by
    obtain ⟨a, c1, h1, h2⟩ := Prog.run_bind_eq_ok.mp h
    have hv := (hf a).view c1
    rw [h2] at hv
    obtain ⟨hcl, hfault⟩ := hm.ok c a c1 hc h1
    obtain ⟨hcl', hsame'⟩ := Conn.clean_of_view hv hcl
    refine ⟨hcl', ?_⟩
    rcases hfault with hsame | hnone
    · exact .inl (hsame'.trans hsame)
    · right
      intro hl
      obtain ⟨hn, hl1⟩ := hnone hl
      have hs := (hf a).steady c1 b c' h2
      rw [Conn.disarm_of_fault hn hl1, h2, Prod.mk.injEq] at hs
      rw [hs.2]
      exact ⟨rfl, rfl⟩

/-- What an atomic program leaves on a database, whatever faults it meets:
it returns as `eval` says, or it raises and the database is as before, or the
read-back failed and the database is as `eval` says. -/
theorem run_fresh {r : Bool} {m : Tx σ ε α} (hm : Atomic r m) (db : σ) (fault : Option Nat)
    (late : Bool) :
    (∃ a c', m.run (Conn.fresh db fault late) = (.ok a, c') ∧ eval m db = (.ok a, c'.committed)) ∨
      ∃ e c', m.run (Conn.fresh db fault late) = (.error e, c') ∧
        (c'.committed = db ∨
          r = true ∧ late = true ∧ ∃ a, eval m db = (.ok a, c'.committed)) := by
  have hclean := Conn.fresh_clean db fault late
  cases h : m.run (Conn.fresh db fault late) with
  | mk res c' =>
      cases res with
      | ok a => exact .inl ⟨a, c', rfl, eval_of_run hm.steady hclean h⟩
      | error e => exact .inr ⟨e, c', rfl, (hm.error _ e c' hclean h).2⟩

/-- Without a fault, a program that raises leaves the database alone. -/
theorem eval_error {r : Bool} {m : Tx σ ε α} (hm : Atomic r m) {db db' : σ} {e : Exc ε}
    (h : eval m db = (.error e, db')) : db' = db := by
  rw [eval, Prod.mk.injEq] at h
  obtain ⟨hres, rfl⟩ := h
  obtain ⟨a, c', hrun, -⟩ | ⟨e', c', hrun, hsame | ⟨-, hlate, -⟩⟩ := hm.run_fresh db none false
  · rw [hrun] at hres
    cases hres
  · rw [hrun]
    exact hsame
  · cases hlate

end Atomic

/-! ## invariants of the stored state -/

/-- Whatever faults it meets, `m` keeps `I` of the committed state and of the
working copy. -/
def Preserves (I : σ → Prop) (m : Tx σ ε α) : Prop :=
  ∀ c, I c.committed → I c.working → I (m.run c).2.committed ∧ I (m.run c).2.working

namespace Preserves

variable {I : σ → Prop}

theorem pure (a : α) : Preserves I (Pure.pure a : Tx σ ε α) := fun _ h1 h2 => ⟨h1, h2⟩

theorem fail (e : ε) : Preserves I (fail e : Tx σ ε α) := fun _ h1 h2 => ⟨h1, h2⟩

theorem abort (e : ε) : Preserves I (abort e : Tx σ ε α) := fun _ h1 _ => ⟨h1, h1⟩

/-- A statement preserves what its body preserves. -/
theorem statement {body : Conn σ → Except (Exc ε) α × Conn σ}
    (hb : ∀ c, I c.committed → I c.working → I (body c).2.committed ∧ I (body c).2.working) :
    Preserves I (statement body) := by
  intro c h1 h2
  obtain ⟨d, w, t, f, l⟩ := c
  match f with
  | none => exact hb _ h1 h2
  | some 0 => exact ⟨h1, h2⟩
  | some (k + 1) => exact hb ⟨d, w, t, some k, l⟩ h1 h2

theorem query (b : Option BindError) (f : σ → α) : Preserves I (query b f : Tx σ ε α) :=
  statement fun c h1 h2 => by cases b <;> exact ⟨h1, h2⟩

/-- A statement keeps what its effect keeps. -/
theorem execute (b : Option BindError) {f : σ → Except SqlError (α × σ)}
    (hf : ∀ w a w', I w → f w = .ok (a, w') → I w') : Preserves I (execute b f : Tx σ ε α) :=
  statement fun c h1 h2 => by
    cases b with
    | some e => exact ⟨h1, h2⟩
    | none =>
        cases hw : f c.working with
        | error e => exact ⟨h1, h2⟩
        | ok p => exact ⟨h1, hf _ p.1 p.2 h2 hw⟩

/-- So does an unconditional one. -/
theorem modify (b : Option BindError) {f : σ → σ} (hf : ∀ w, I w → I (f w)) :
    Preserves I (modify b f : Tx σ ε Unit) :=
  execute b fun w a w' hw h => by
    simp only [Except.ok.injEq, Prod.mk.injEq] at h
    exact h.2 ▸ hf w hw

/-- A commit makes both states the working one. -/
theorem commit : Preserves I (commit : Tx σ ε Unit) := statement fun _ _ h2 => ⟨h2, h2⟩

/-- A sequence keeps what its parts keep. -/
theorem bind {m : Tx σ ε α} {f : α → Tx σ ε β} (hm : Preserves I m) (hf : ∀ a, Preserves I (f a)) :
    Preserves I (m >>= f) := by
  intro c h1 h2
  rw [Prog.run_bind]
  have h := hm c h1 h2
  cases hmc : m.run c with
  | mk r c' =>
      rw [hmc] at h
      cases r with
      | ok a => exact hf a c' h.1 h.2
      | error e => exact h

/-- A write whose result the rest of the program relies on. -/
theorem execute_bind {Q : α → σ → Prop} (b : Option BindError)
    {f : σ → Except SqlError (α × σ)} {rest : α → Tx σ ε β}
    (hf : ∀ w a w', I w → f w = .ok (a, w') → I w' ∧ Q a w')
    (hrest : ∀ a c, I c.committed → I c.working → Q a c.working →
      I ((rest a).run c).2.committed ∧ I ((rest a).run c).2.working) :
    Preserves I (Txn.execute b f >>= rest) := by
  intro c h1 h2
  have hpost : ∀ a c', (Txn.execute b f : Tx σ ε α).run c = (.ok a, c') →
      f c.working = .ok (a, c'.working) := by
    intro a c' hrun
    obtain ⟨d, w, t, k, l⟩ := c
    have hbody : ∀ k, (Txn.execute b f : Tx σ ε α).run ⟨d, w, t, k, l⟩ = (.ok a, c') →
        b = none ∧ f w = .ok (a, c'.working) := by
      intro k hk
      cases b with
      | some e => match k with
          | none | some 0 | some (k + 1) => simp [Txn.execute, Txn.statement, Prog.run] at hk
      | none =>
          cases hw : f w with
          | error e => match k with
              | none | some 0 | some (k + 1) =>
                  simp [Txn.execute, Txn.statement, Prog.run, hw] at hk
          | ok p => match k with
              | none | some (k + 1) =>
                  simp only [Txn.execute, Txn.statement, Prog.run, hw, Prod.mk.injEq,
                    Except.ok.injEq] at hk
                  exact ⟨rfl, by rw [← hk.1, ← hk.2]⟩
              | some 0 => simp [Txn.execute, Txn.statement, Prog.run] at hk
    exact (hbody k hrun).2
  rw [Prog.run_bind]
  have h := execute (ε := ε) b (fun w a w' hw hfw => (hf w a w' hw hfw).1) c h1 h2
  cases hmc : (Txn.execute b f : Tx σ ε α).run c with
  | mk r c' =>
      rw [hmc] at h
      cases r with
      | ok a => exact hrest a c' h.1 h.2 (hf _ _ _ h2 (hpost a c' hmc)).2
      | error e => exact h

/-- The rule at one state: the effect has to keep the invariant there only. -/
theorem modify_at (b : Option BindError) {f : σ → σ} {c : Conn σ} (h1 : I c.committed)
    (h2 : I c.working) (hf : I (f c.working)) :
    I ((Txn.modify b f : Tx σ ε Unit).run c).2.committed ∧
      I ((Txn.modify b f : Tx σ ε Unit).run c).2.working := by
  obtain ⟨d, w, t, k, l⟩ := c
  cases b with
  | some e => match k with
      | none | some 0 | some (k + 1) => exact ⟨h1, h2⟩
  | none => match k with
      | none | some (k + 1) => exact ⟨h1, hf⟩
      | some 0 => exact ⟨h1, h2⟩

theorem catching {m : Tx σ ε α} {h : Exc ε → Tx σ ε α} (hm : Preserves I m)
    (hh : ∀ e, Preserves I (h e)) : Preserves I (Prog.catching m h) := by
  intro c h1 h2
  rw [Prog.run_catching]
  have h := hm c h1 h2
  cases hmc : m.run c with
  | mk r c' =>
      rw [hmc] at h
      cases r with
      | ok a => exact h
      | error e => exact hh e c' h.1 h.2

theorem guarded {onError : SqlError → ε} {m : Tx σ ε α} (hm : Preserves I m) :
    Preserves I (guarded onError m) :=
  catching hm fun e => by
    cases e with
    | sqlite e => exact abort _
    | unbound e => exact fun _ h1 h2 => ⟨h1, h2⟩
    | raised e => exact fun _ h1 h2 => ⟨h1, h2⟩

theorem queryOr (msg : ε) (b : Option BindError) (f : σ → α) : Preserves I (queryOr msg b f) :=
  catching (query b f) fun e => by
    cases e with
    | sqlite e => exact fail _
    | unbound e => exact fun _ h1 h2 => ⟨h1, h2⟩
    | raised e => exact fun _ h1 h2 => ⟨h1, h2⟩

theorem abortIf (p : Bool) (e : ε) : Preserves I (abortIf p e : Tx σ ε Unit) := by
  rw [Txn.abortIf]
  split
  · exact abort _
  · exact pure _

theorem readBack (msg missing : ε) (b : Option BindError) (f : σ → Option α) :
    Preserves I (readBack msg missing b f) := by
  refine bind (queryOr _ _ _) fun found => ?_
  cases found with
  | some a => exact pure _
  | none => exact fail _

theorem forM {f : β → Tx σ ε PUnit} {bs : List β} (hf : ∀ b ∈ bs, Preserves I (f b)) :
    Preserves I (bs.forM f) := by
  induction bs with
  | nil => exact pure _
  | cons b bs ih =>
      exact bind (hf b (List.mem_cons_self ..)) fun _ =>
        ih fun x hx => hf x (List.mem_cons_of_mem _ hx)

/-- From a fresh connection the database left behind keeps the invariant. -/
theorem run_fresh {m : Tx σ ε α} (hm : Preserves I m) {db : σ} (h : I db) (fault : Option Nat)
    (late : Bool) : I (m.run (Conn.fresh db fault late)).2.committed :=
  (hm (Conn.fresh db fault late) h h).1

end Preserves

/-! ## what a program that raises has stored -/

/-- A run of `m` that raises leaves a committed state with `I`. -/
def SafeRaise (I : σ → Prop) (m : Tx σ ε α) : Prop :=
  Prog.RaisesTo (fun c => I c.committed ∧ I c.working) (fun c => I c.committed) m

namespace SafeRaise

variable {I : σ → Prop}

/-- What is always kept is kept when the program raises. -/
theorem of_preserves {m : Tx σ ε α} (hm : Preserves I m) : SafeRaise I m :=
  .of_maintains (fun _ h => h.1) fun c h => hm c h.1 h.2

theorem bind {m : Tx σ ε α} {f : α → Tx σ ε β} (hm : Preserves I m)
    (hf : ∀ a, SafeRaise I (f a)) : SafeRaise I (m >>= f) :=
  Prog.RaisesTo.bind (fun _ h => h.1) (fun c h => hm c h.1 h.2) hf

theorem map {m : Tx σ ε α} (hm : SafeRaise I m) (g : α → β) :
    SafeRaise I (m >>= fun a => Pure.pure (g a)) := Prog.RaisesTo.map hm g

/-- What a failed transaction wrote is rolled back. -/
theorem guarded {onError : SqlError → ε} {m : Tx σ ε α} (hm : Committing m) :
    SafeRaise I (guarded onError m) := by
  intro c e c' h hrun
  have herr := hm.error c
  rw [run_guarded] at hrun
  match hmr : m.run c with
  | (.ok a, c1) => simp [hmr] at hrun
  | (.error (.sqlite e1), c1) =>
      simp only [hmr, Prod.mk.injEq] at hrun
      rw [← hrun.2, (herr _ c1 hmr).1]
      exact h.1
  | (.error (.unbound e1), c1) =>
      simp only [hmr, Prod.mk.injEq] at hrun
      rw [← hrun.2, (herr _ c1 hmr).1]
      exact h.1
  | (.error (.raised e1), c1) =>
      simp only [hmr, Prod.mk.injEq] at hrun
      rw [← hrun.2, (herr _ c1 hmr).1]
      exact h.1

theorem eval {m : Tx σ ε α} (hm : SafeRaise I m) {db db' : σ} {e : Exc ε} (h : I db)
    (hrun : eval m db = (.error e, db')) : I db' := by
  simp only [Txn.eval, Prod.mk.injEq] at hrun
  rw [← hrun.2]
  exact hm (Conn.fresh db none false) e _ ⟨h, h⟩ (Prod.ext hrun.1 rfl)

end SafeRaise

/-! ## programs that settle -/

/-- A run on a fresh connection that returns leaves one that is as good as fresh. -/
def Settles (m : Tx σ ε α) : Prop :=
  ∀ db a c', m.run (Conn.fresh db none false) = (.ok a, c') →
    c' = Conn.fresh c'.committed none false

namespace Settles

/-- An atomic program leaves nothing uncommitted. -/
theorem of_atomic {r : Bool} {m : Tx σ ε α} (hm : Atomic r m) : Settles m := by
  intro db a c' h
  have hclean := (hm.ok _ a c' (Conn.fresh_clean db none false) h).1
  have hsteady := hm.steady _ a c' h
  rw [Conn.disarm_fresh, h, Conn.disarm_eq_fresh hclean] at hsteady
  exact congrArg Prod.snd hsteady

theorem of_readOnly {m : Tx σ ε α} (hm : ReadOnly m) : Settles m :=
  of_atomic (r := false) (.of_readOnly hm)

theorem pure (a : α) : Settles (Pure.pure a : Tx σ ε α) := of_readOnly (.pure a)

theorem fail (e : ε) : Settles (Txn.fail e : Tx σ ε α) := of_readOnly (.fail e)

/-- A settling program that returns leaves a fresh connection. -/
theorem run_eq_ok {m : Tx σ ε α} (hm : Settles m) {db db' : σ} {a : α} :
    eval m db = (.ok a, db') ↔
      m.run (Conn.fresh db none false) = (.ok a, Conn.fresh db' none false) := by
  rw [eval_eq_ok]
  constructor
  · rintro ⟨c', h, rfl⟩
    exact h.trans (by rw [hm db a c' h]; rfl)
  · intro h
    exact ⟨_, h, rfl⟩

theorem bind {m : Tx σ ε α} {f : α → Tx σ ε β} (hm : Settles m) (hf : ∀ a, Settles (f a)) :
    Settles (m >>= f) := by
  intro db b c' h
  obtain ⟨a, c1, h1, h2⟩ := Prog.run_bind_eq_ok.mp h
  rw [hm db a c1 h1] at h2
  exact hf a _ b c' h2

/-- A sequence returns exactly when its halves do, one after the other. -/
theorem eval_bind {m : Tx σ ε α} {f : α → Tx σ ε β} (hm : Settles m) {db db' : σ} {b : β} :
    eval (m >>= f) db = (.ok b, db') ↔
      ∃ a mid, eval m db = (.ok a, mid) ∧ eval (f a) mid = (.ok b, db') := by
  constructor
  · intro h
    obtain ⟨c', hrun, hdb⟩ := eval_eq_ok.mp h
    obtain ⟨a, c1, h1, h2⟩ := Prog.run_bind_eq_ok.mp hrun
    rw [hm db a c1 h1] at h2
    exact ⟨a, c1.committed, eval_eq_ok.mpr ⟨c1, h1, rfl⟩, eval_eq_ok.mpr ⟨c', h2, hdb⟩⟩
  · rintro ⟨a, mid, h1, h2⟩
    obtain ⟨c', hrun, hdb⟩ := eval_eq_ok.mp h2
    refine eval_eq_ok.mpr ⟨c', ?_, hdb⟩
    have hfirst := hm.run_eq_ok.mp h1
    rw [Conn.fresh] at hfirst
    rw [Prog.run_bind_ok hfirst]
    exact hrun

end Settles

end Txn
