import Dn42Ctl.Lib.Txn

/-!
# Binding

Parameters that the driver cannot convert.  A writing statement opens its
transaction first and converts its parameters second, and the exception it
then raises is not one of the driver's, so a handler that rolls back for the
driver's errors does not run.

* `Bound` — no parameter of a program fails to convert;
* `Unbinds` — a run ends at one that does, with its transaction open;
* `AllOrNothing` — what an atomic program is as long as its parameters convert.
-/

namespace Txn

variable {σ ε α β : Type}

/-! ## parameters that convert -/

/-- No parameter of the program fails to convert. -/
def Bound (m : Tx σ ε α) : Prop := ∀ c b c', m.run c ≠ (.error (.unbound b), c')

namespace Bound

theorem pure (a : α) : Bound (Pure.pure a : Tx σ ε α) := by
  intro c b c' h
  cases h

theorem fail (e : ε) : Bound (fail e : Tx σ ε α) := by
  intro c b c' h
  cases h

theorem abort (e : ε) : Bound (abort e : Tx σ ε α) := by
  intro c b c' h
  cases h

/-- Rolling back and raising binds nothing. -/
theorem abortIf (p : Bool) (e : ε) : Bound (abortIf p e : Tx σ ε Unit) := by
  cases p with
  | true => exact abort e
  | false => exact pure ()

/-- A statement whose body raises no binding error. -/
theorem statement {body : Conn σ → Except (Exc ε) α × Conn σ}
    (hb : ∀ c b c', body c ≠ (.error (.unbound b), c')) : Bound (statement body) := by
  intro c b c' h
  obtain ⟨d, w, t, f, l⟩ := c
  match f with
  | none => exact hb _ _ _ h
  | some 0 => cases h
  | some (k + 1) => exact hb ⟨d, w, t, some k, l⟩ _ _ h

/-- A query whose parameters fit. -/
theorem query {bd : Option BindError} (hbd : bd = none) (f : σ → α) :
    Bound (query bd f : Tx σ ε α) := by
  subst hbd
  refine statement fun c b c' h => ?_
  cases h

/-- A write whose parameters fit. -/
theorem execute {bd : Option BindError} (hbd : bd = none) (f : σ → Except SqlError (α × σ)) :
    Bound (execute bd f : Tx σ ε α) := by
  subst hbd
  refine statement fun c b c' h => ?_
  cases hf : f c.working with
  | error e =>
      simp only [hf] at h
      cases h
  | ok p =>
      simp only [hf] at h
      cases h

theorem modify {bd : Option BindError} (hbd : bd = none) (f : σ → σ) :
    Bound (modify bd f : Tx σ ε Unit) := execute hbd _

theorem commit : Bound (commit : Tx σ ε Unit) := by
  refine statement fun c b c' h => ?_
  cases h

/-- In sequence. -/
theorem bind {m : Tx σ ε α} {f : α → Tx σ ε β} (hm : Bound m) (hf : ∀ a, Bound (f a)) :
    Bound (m >>= f) := by
  intro c b c' h
  rw [Prog.run_bind] at h
  cases hmc : m.run c with
  | mk r c1 =>
      rw [hmc] at h
      cases r with
      | ok a => exact hf a c1 b c' h
      | error e =>
          cases h
          exact hm c b c' hmc

/-- In a loop. -/
theorem forM {f : β → Tx σ ε PUnit} {bs : List β} (hf : ∀ b ∈ bs, Bound (f b)) :
    Bound (bs.forM f) := by
  induction bs with
  | nil => exact pure _
  | cons b bs ih =>
      obtain ⟨hb, hbs⟩ := List.forall_mem_cons.mp hf
      exact bind hb fun _ => ih hbs

/-- Under a handler. -/
theorem guarded {onError : SqlError → ε} {m : Tx σ ε α} (hm : Bound m) :
    Bound (guarded onError m) := by
  intro c b c' h
  rw [run_guarded] at h
  cases hmc : m.run c with
  | mk r c1 =>
      rw [hmc] at h
      match r with
      | .ok a => cases h
      | .error (.sqlite e) => cases h
      | .error (.raised e) => cases h
      | .error (.unbound e) => exact hm c e c1 hmc

theorem queryOr (msg : ε) {bd : Option BindError} (hbd : bd = none) (f : σ → α) :
    Bound (queryOr msg bd f) := by
  intro c b c' h
  rw [Txn.queryOr, Prog.run_catching] at h
  cases hmc : (Txn.query bd f : Tx σ ε α).run c with
  | mk r c1 =>
      rw [hmc] at h
      rcases r with (e | e | e) | a
      · cases h
      · exact query hbd f c e c1 hmc
      · cases h
      · cases h

/-- A row that is read back. -/
theorem readBack (msg missing : ε) {bd : Option BindError} (hbd : bd = none) (f : σ → Option α) :
    Bound (readBack msg missing bd f) :=
  bind (queryOr msg hbd f) fun a => by
    cases a with
    | none => exact fail missing
    | some a => exact pure a

end Bound

/-! ## parameters that do not -/

/-- The run ends at a parameter that does not convert, with a transaction open. -/
def Unbinds (m : Tx σ ε α) (c : Conn σ) : Prop :=
  ∃ b c', m.run c = (.error (.unbound b), c') ∧ c'.inTransaction = true

namespace Unbinds

variable {d w : σ} {t l : Bool}

/-- A write whose parameters do not fit raises. -/
theorem execute {bd : Option BindError} (hbd : bd ≠ none) (f : σ → Except SqlError (α × σ)) :
    Unbinds (execute bd f : Tx σ ε α) ⟨d, w, t, none, l⟩ := by
  cases bd with
  | none => exact absurd rfl hbd
  | some e => exact ⟨e, _, rfl, rfl⟩

theorem modify {bd : Option BindError} (hbd : bd ≠ none) (f : σ → σ) :
    Unbinds (modify bd f : Tx σ ε Unit) ⟨d, w, t, none, l⟩ := execute hbd _

/-- What comes after is not run. -/
theorem bind {m : Tx σ ε α} {c : Conn σ} (h : Unbinds m c) (f : α → Tx σ ε β) :
    Unbinds (m >>= f) c := by
  obtain ⟨b, c', hrun, ht⟩ := h
  exact ⟨b, c', Prog.run_bind_error hrun, ht⟩

/-- What comes before returns. -/
theorem after {m : Tx σ ε α} {f : α → Tx σ ε β} {c c1 : Conn σ} {a : α}
    (hm : m.run c = (.ok a, c1)) (h : Unbinds (f a) c1) : Unbinds (m >>= f) c := by
  obtain ⟨b, c', hrun, ht⟩ := h
  exact ⟨b, c', by rw [Prog.run_bind_ok hm, hrun], ht⟩

/-- A handler of SQLite's errors lets a binding error pass. -/
theorem guarded {onError : SqlError → ε} {m : Tx σ ε α} {c : Conn σ} (h : Unbinds m c) :
    Unbinds (guarded onError m) c := by
  obtain ⟨b, c', hrun, ht⟩ := h
  exact ⟨b, c', by rw [run_guarded, hrun], ht⟩

end Unbinds

/-! ## all or nothing -/

/-- A run that raises leaves the database as it was, one that returns has
committed what it wrote, and neither leaves a transaction open, whichever
statement up to the commit fails. -/
def AllOrNothing (m : Tx σ ε α) (db : σ) : Prop :=
  ∀ fault r c', m.run (Conn.fresh db fault false) = (r, c') →
    c'.Clean ∧ (∀ e, r = .error e → c'.committed = db) ∧
      ∀ a, r = .ok a → eval m db = (.ok a, c'.committed)

/-- No run of the program leaves a transaction open at a parameter. -/
def Tidy (m : Tx σ ε α) (db : σ) : Prop :=
  ∀ c b c', c.Clean → c.committed = db → m.run c = (.error (.unbound b), c') → c'.Clean

/-- A program without binding errors leaves nothing open. -/
theorem Tidy.of_bound {m : Tx σ ε α} {db : σ} (hm : Bound m) : Tidy m db :=
  fun c b c' _ _ h => absurd h (hm c b c')

/-- Nor does one that only reads. -/
theorem Tidy.of_readOnly {m : Tx σ ε α} {db : σ} (hm : ReadOnly m) : Tidy m db := by
  intro c b c' hc _ h
  have hv := hm.view c
  rw [h] at hv
  exact (Conn.clean_of_view hv hc).1

/-- A query that returned could convert its parameters. -/
theorem queryOr_returns {msg : ε} {bd : Option BindError} {f : σ → α} {c c' : Conn σ} {a : α}
    (h : (queryOr msg bd f).run c = (.ok a, c')) : bd = none := by
  obtain ⟨d, w, t, k, l⟩ := c
  match k, bd with
  | _, none => rfl
  | none, some e => cases h
  | some 0, some e => cases h
  | some (k + 1), some e => cases h

/-- What a writing statement that returned has computed. -/
theorem execute_returns {bd : Option BindError} {f : σ → Except SqlError (α × σ)} {c c' : Conn σ}
    {a : α} (h : (execute bd f : Tx σ ε α).run c = (.ok a, c')) :
    ∃ w, f c.working = .ok (a, w) := by
  have hd := Steady.execute bd f c a c' h
  obtain ⟨-, w, hw, -⟩ := run_execute_eq_ok.mp hd
  exact ⟨w, hw⟩

/-- A program that looks a row up before it writes. -/
theorem Tidy.bind_queryOr {msg : ε} {bd : Option BindError} {f : σ → α} {k : α → Tx σ ε β}
    {db : σ} (hk : bd = none → Tidy (k (f db)) db) : Tidy (queryOr msg bd f >>= k) db := by
  intro c b c' hc hdb h
  have hread : ReadOnly (queryOr msg bd f) := .queryOr msg bd f
  have hv := hread.view c
  rw [Prog.run_bind] at h
  cases hmc : (queryOr msg bd f).run c with
  | mk r c1 =>
      rw [hmc] at h hv
      have hc1 := Conn.clean_of_view hv hc
      cases r with
      | error e =>
          cases h
          exact hc1.1
      | ok a =>
          have ha : a = f db := by rw [queryOr_found hmc, hc.1, hdb]
          subst ha
          exact hk (queryOr_returns hmc) c1 b c' hc1.1 (hc1.2.trans hdb) h

theorem Tidy.map {m : Tx σ ε α} {db : σ} (hm : Tidy m db) (g : α → β) :
    Tidy (m >>= fun a => Pure.pure (g a)) db := by
  intro c b c' hc hdb h
  rw [Prog.run_bind] at h
  cases hmc : m.run c with
  | mk r c1 =>
      rw [hmc] at h
      cases r with
      | ok a => cases h
      | error e =>
          cases h
          exact hm c b c' hc hdb hmc

/-- An atomic program is all or nothing when its parameters convert. -/
theorem AllOrNothing.of_tidy {r : Bool} {m : Tx σ ε α} {db : σ} (hm : Atomic r m)
    (ht : Tidy m db) : AllOrNothing m db := by
  intro fault res c' h
  have hclean : (Conn.fresh db fault false).Clean := Conn.fresh_clean ..
  cases res with
  | ok a =>
      refine ⟨(hm.ok _ a c' hclean h).1, fun e he => (by cases he), fun a' ha => ?_⟩
      cases ha
      exact Atomic.eval_of_run hm.steady hclean h
  | error e =>
      obtain ⟨hdone, hsame⟩ := hm.error _ e c' hclean h
      refine ⟨?_, fun _ _ => ?_, fun a ha => (by cases ha)⟩
      · obtain hdone | ⟨b, rfl⟩ := hdone
        · exact hdone
        · exact ht _ b c' hclean rfl h
      · obtain hsame | ⟨-, hlate, -⟩ := hsame
        · exact hsame
        · cases hlate

/-- A parameter that does not convert leaves its transaction open. -/
theorem not_allOrNothing_of_unbinds {m : Tx σ ε α} {db : σ}
    (h : Unbinds m (Conn.fresh db none false)) : ¬ AllOrNothing m db := by
  obtain ⟨b, c', hrun, ht⟩ := h
  intro hall
  have hclean := (hall none _ c' hrun).1.2
  rw [ht] at hclean
  cases hclean

end Txn
