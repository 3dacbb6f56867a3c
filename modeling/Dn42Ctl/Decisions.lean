import Dn42Ctl.Confinement

/-!
# Decisions

Concurrent decisions on one proposal.  A call reads the status, applies the
proposal and sets the status on three occasions, and any other call may run in
between.  The machine interleaves the steps of any number of calls.
-/

namespace Dn42Ctl

open Text Txn Prog

/-! ## the machine -/

/-- A call of `accept_proposal`, `reject_proposal` or `try_auto_accept`. -/
inductive Decision where
  | accept
  | reject (reason : Str)
  | auto (policy : WritePolicy)
deriving DecidableEq, Repr

/-- How far a call has come. -/
inductive DecisionStage where
  | started
  /-- The proposal was read and is to be decided. -/
  | read (p : ConfigProposal)
  /-- The peer operation returned. -/
  | applied (p : ConfigProposal)
  /-- The peer operation raised in `try_auto_accept`, which rejects then. -/
  | failed (p : ConfigProposal) (e : PyError)
  | done
deriving Repr

/-- Between its peer operation and the status that goes with it. -/
def DecisionStage.isApplied : DecisionStage → Bool
  | .applied _ => true
  | _ => false

structure DecisionCall where
  kind : Decision
  stage : DecisionStage
deriving Repr

/-- The database and the calls at work on it.  `effects` is a history variable:
how many peer operations of the proposal have returned. -/
structure Deciding where
  db : Db
  calls : List DecisionCall
  effects : Nat

def Deciding.start (db : Db) : Deciding := ⟨db, [], 0⟩

inductive DecideAction where
  | call (kind : Decision)
  | read (i : Nat)
  | apply (i : Nat) (env : PeerEnv)
  | set (i : Nat) (now : Str)

def Deciding.moveTo (s : Deciding) (i : Nat) (stage : DecisionStage) : Deciding :=
  { s with calls := s.calls.modify i fun c => { c with stage } }

section Machine

variable (configNodeId : Str) (id : Nat)

/-- A call goes on with what it has read, and ends where the read raised. -/
def DecisionStage.ofRead : Except (Exc PyError) ConfigProposal → DecisionStage
  | .ok p => .read p
  | .error _ => .done

/-- `try_auto_accept` is handed a proposal that its caller has read. -/
def DecisionStage.ofSnapshot (policy : WritePolicy) :
    Except (Exc PyError) (Option ConfigProposal) → DecisionStage
  | .ok (some p) => if autoAccepts p policy then .read p else .done
  | _ => .done

/-- What a call has after its first step. -/
def readStage (db : Db) : Decision → DecisionStage
  | .accept => .ofRead ((onConnection (requirePending id "接受")).run db).1
  | .reject reason =>
      if (strip reason).isEmpty then .done
      else .ofRead ((onConnection (requirePending id "拒绝")).run db).1
  | .auto policy => .ofSnapshot policy ((onConnection (ProposalStore.get id)).run db).1

/-- A call whose peer operation raised. -/
def afterRaise (kind : Decision) (p : ConfigProposal) (e : Exc PyError) : DecisionStage :=
  match kind, serviceError? e with
  | .auto _, some err => .failed p err
  | _, _ => .done

/-- The last step of a call: which status it sets, with which message. -/
def verdict : DecisionCall → Option (ProposalStatus × Option Msg)
  | ⟨_, .applied _⟩ => some (.accepted, none)
  | ⟨.reject reason, .read _⟩ => some (.rejected, some [.text reason])
  | ⟨_, .failed _ e⟩ => some (.rejected, some (autoRejectMessage e))
  | _ => none

def decideStep (s : Deciding) : DecideAction → Option Deciding
  | .call kind => some { s with calls := s.calls ++ [⟨kind, .started⟩] }
  | .read i =>
      match s.calls[i]? with
      | some ⟨kind, .started⟩ => some (s.moveTo i (readStage id s.db kind))
      | _ => none
  | .apply i env =>
      match s.calls[i]? with
      | some ⟨.reject _, _⟩ => none
      | some ⟨kind, .read p⟩ =>
          match (applyProposal env configNodeId p).run s.db with
          | (.ok _, db) => some (Deciding.moveTo ⟨db, s.calls, s.effects + 1⟩ i (.applied p))
          | (.error e, db) =>
              some (Deciding.moveTo ⟨db, s.calls, s.effects⟩ i (afterRaise kind p e))
      | _ => none
  | .set i now =>
      match s.calls[i]?.bind verdict with
      | some (status, message) =>
          let db := ((onConnection (ProposalStore.setStatus now id status message)).run s.db).2
          some (Deciding.moveTo ⟨db, s.calls, s.effects⟩ i .done)
      | none => none

def Deciding.status (s : Deciding) : Option ProposalStatus :=
  (s.db.getProposal id).map ConfigProposal.status

/-- Every call has returned or raised. -/
def Deciding.finished (s : Deciding) : Prop := ∀ c ∈ s.calls, c.stage = .done

/-- **Decided once**: after it has left `pending` the status never changes; the
peer operation returned at most once, and never means that no peer changed; and
when every call is finished, the proposal is accepted exactly if it was applied. -/
structure DecidedOnce (db : Db) (as : List DecideAction) (s : Deciding) : Prop where
  final : Machine.Along (decideStep configNodeId id) (fun t a =>
    ∀ t', decideStep configNodeId id t a = some t' → t.status id ≠ some .pending →
      t'.status id = t.status id) (Deciding.start db) as
  once : s.effects ≤ 1
  unapplied : s.effects = 0 → SamePeers db s.db
  accepted : s.finished → (s.status id = some .accepted ↔ s.effects = 1)

/-- No call acts on a stale read: where it applies or sets, the proposal is
still pending, and no other call is between applying and setting. -/
def ActsOnFreshRead (s : Deciding) : DecideAction → Prop
  | .apply i _ | .set i _ =>
      s.status id = some .pending ∧
        ∀ j c, j ≠ i → s.calls[j]? = some c → c.stage.isApplied = false
  | _ => True

/-- The step changes neither the status nor a peer: the peer operation raises,
the status it sets is the one there is, or `set_status` raises. -/
def ChangesNothing (s : Deciding) : DecideAction → Prop
  | .apply i env => ∀ kind p, s.calls[i]? = some ⟨kind, .read p⟩ →
      ∃ e db, (applyProposal env configNodeId p).run s.db = (.error e, db)
  | .set i _ => ∀ status message, s.calls[i]?.bind verdict = some (status, message) →
      s.status id = some status ∨ params [message.elim .null .message, .int id] ≠ none
  | _ => True

end Machine

/-! ## what the steps do to the proposal -/

section SetStatus

variable (now : Str) (id : Nat) (status : ProposalStatus) (message : Option Msg) (db : Db)

/-- `set_status` writes its row or nothing. -/
theorem setStatus_cases :
    (eval (ProposalStore.setStatus now id status message) db).2 = db ∨
      (eval (ProposalStore.setStatus now id status message) db).2 =
        db.decided now id status message := by
  rcases (atomic_setStatus now id status message).run_fresh db none false with
    ⟨a, c', -, he⟩ | ⟨e, c', hrun, hc⟩
  · rw [he]
    have hafter := eval_setStatus he
    rw [Call.after] at hafter
    cases hcommit : Call.commit now db (.setStatus id status message) with
    | none =>
        rw [hcommit] at hafter
        exact .inl hafter
    | some done =>
        rw [hcommit] at hafter
        simp only [Call.commit, Option.ite_none_right_eq_some, Option.some.injEq] at hcommit
        rw [← hcommit.2] at hafter
        exact .inr hafter
  · rcases hc with hc | ⟨-, hlate, -⟩
    · exact .inl (by rw [eval, hrun]; exact hc)
    · simp at hlate

/-- It writes nothing when a parameter does not bind. -/
theorem setStatus_unbound (h : params [message.elim .null .message, .int id] ≠ none) :
    (eval (ProposalStore.setStatus now id status message) db).2 = db := by
  rcases (atomic_setStatus now id status message).run_fresh db none false with
    ⟨a, c', hrun, -⟩ | ⟨e, c', hrun, hc⟩
  · obtain ⟨u, c1, hset, -⟩ := run_bind_eq_ok.mp hrun
    obtain ⟨rowcount, w, hb, -⟩ := bind_execute (run_guarded_eq_ok.mp hset)
    exact absurd hb h
  · rcases hc with hc | ⟨-, hlate, -⟩
    · rw [eval, hrun]
      exact hc
    · simp at hlate

/-- Without a message it always writes the row of a proposal there is. -/
theorem setStatus_stores (hid : params [.int id] = none) (hsome : (db.getProposal id).isSome) :
    (eval (ProposalStore.setStatus now id status none) db).2 = db.decided now id status none := by
  have hcount : ((db.configProposals.countP fun p => p.id == id) == 0) = false := by
    rw [beq_eq_false_iff_ne]
    intro hz
    have hnone : db.getProposal id = none := countP_eq_zero_iff_find?.mp hz
    simp [hnone] at hsome
  have hbind : params [(none : Option Msg).elim .null .message, .int id] = none := by
    rw [params_eq_none] at hid ⊢
    intro p hp
    rcases List.mem_cons.mp hp with rfl | hp
    · rfl
    · exact hid p hp
  have habort : ∀ c : Conn Db, (abortIf ((db.configProposals.countP fun p => p.id == id) == 0)
      (databaseErrorOf "proposal 不存在: " (ofInt id)) : DbTx Unit).run c = (.ok (), c) := by
    intro c
    rw [hcount]
    rfl
  have hbody : ∀ {onError : SqlError → PyError}, (guarded onError (do
      let rowcount ← Txn.execute none fun db =>
        .ok (db.configProposals.countP fun p => p.id == id, db.decided now id status none)
      abortIf (rowcount == 0) (databaseErrorOf "proposal 不存在: " (ofInt id))
      commit) : DbTx Unit).run (Conn.fresh db none false) =
      (.ok (), ⟨db.decided now id status none, db.decided now id status none, false, none,
        false⟩) := by
    intro onError
    rw [run_guarded_eq_ok, run_bind_ok (run_execute_none ..), run_bind_ok (habort _)]
    rfl
  rw [eval, ProposalStore.setStatus, hbind]
  dsimp only
  rw [run_bind_ok hbody, (ReadOnly.readBack _ _ _ _).committed]

end SetStatus

theorem getProposal_decided (now : Str) (id : Nat) (status : ProposalStatus)
    (message : Option Msg) (db : Db) :
    ((db.decided now id status message).getProposal id).map ConfigProposal.status =
      (db.getProposal id).map fun _ => status := by
  rw [Db.getProposal, Db.decided, Rows.find?_updateWhere (fun p _ _ => by rfl), Option.map_map,
    Db.getProposal]
  refine Option.map_congr fun p hp => ?_
  have hid := List.find?_some (p := fun p : ConfigProposal => p.id == id) hp
  simp only [Function.comp_apply, hid, if_true]

/-- The peer operations leave the proposals alone. -/
theorem applyProposal_proposals (env : PeerEnv) (cfg : Str) (p : ConfigProposal) (db : Db) :
    ((applyProposal env cfg p).run db).2.configProposals = db.configProposals := by
  have hedits : EditsPeersOf (orDefault (some p.nodeId) cfg)
      fun w => w.configProposals = db.configProposals :=
    { nodes := fun _ _ h => h
      queue := fun _ _ _ _ h => h
      addBgp := fun _ _ _ h => h
      addIbgp := fun _ _ _ h => h
      updateBgp := fun _ _ _ _ h => h
      updateIbgp := fun _ _ _ _ h => h
      deleteBgp := fun _ _ h => h
      deleteIbgp := fun _ _ h => h }
  exact maintains_applyProposal env cfg hedits db rfl

/-- A proposal that could not be applied has changed no peer. -/
theorem applyProposal_raises {env : PeerEnv} {cfg : Str} {p : ConfigProposal} {db db' : Db}
    {e : Exc PyError} (h : (applyProposal env cfg p).run db = (.error e, db')) :
    SamePeers db db' :=
  raisesTo_applyProposal (I := SamePeers db) (fun _ _ h => ⟨h.bgp, h.ibgp⟩) env cfg p db e db'
    ⟨rfl, rfl⟩ h

/-- A call that goes on has read the proposal, whose id fits its column. -/
theorem ofRead_cases {id : Nat} (db : Db) (verb : String) :
    (∃ p, DecisionStage.ofRead ((onConnection (requirePending id verb)).run db).1 = .read p ∧
      params [.int id] = none) ∨
    DecisionStage.ofRead ((onConnection (requirePending id verb)).run db).1 = .done := by
  cases hrun : (onConnection (requirePending id verb)).run db with
  | mk r db' =>
      cases r with
      | error e => exact .inr rfl
      | ok p =>
          obtain ⟨c', hc, -⟩ := eval_eq_ok.mp hrun
          exact .inl ⟨p, rfl, (bind_queryOr hc).1⟩

theorem readStage_cases (id : Nat) (db : Db) (kind : Decision) :
    (∃ p, readStage id db kind = .read p ∧ params [.int id] = none) ∨
      readStage id db kind = .done := by
  cases kind with
  | accept =>
      rw [readStage]
      exact ofRead_cases db "接受"
  | reject reason =>
      rw [readStage]
      split
      · exact .inr rfl
      · exact ofRead_cases db "拒绝"
  | auto policy =>
      rw [readStage]
      cases hrun : (onConnection (ProposalStore.get id)).run db with
      | mk r db' =>
          cases r with
          | error e => exact .inr rfl
          | ok found =>
              cases found with
              | none => exact .inr rfl
              | some p =>
                  obtain ⟨c', hc, -⟩ := eval_eq_ok.mp hrun
                  simp only [DecisionStage.ofSnapshot]
                  split
                  · exact .inl ⟨p, rfl, (run_queryOr_eq_ok.mp hc).1⟩
                  · exact .inr rfl

theorem afterRaise_cases (kind : Decision) (p : ConfigProposal) (e : Exc PyError) :
    (∃ err, afterRaise kind p e = .failed p err) ∨ afterRaise kind p e = .done := by
  unfold afterRaise
  split
  · exact .inl ⟨_, rfl⟩
  · exact .inr rfl

/-! ## the calls -/

/-- At most the call `who` is between its peer operation and its status. -/
def Deciding.AppliedOnly (s : Deciding) (who : Option Nat) : Prop :=
  ∀ j c, s.calls[j]? = some c → c.stage.isApplied = true → who = some j

/-- Who has read the proposal knows that its id fits the column. -/
def Deciding.Fits (id : Nat) (s : Deciding) : Prop :=
  ∀ (j : Nat) (c : DecisionCall) (p : ConfigProposal), s.calls[j]? = some c → c.stage = .read p →
    params [.int id] = none

section Calls

variable {s : Deciding} {i : Nat} {stage : DecisionStage}

@[simp] theorem moveTo_db : (s.moveTo i stage).db = s.db := rfl

theorem getElem?_moveTo {j : Nat} {c : DecisionCall}
    (h : (s.moveTo i stage).calls[j]? = some c) :
    (j = i ∧ c.stage = stage) ∨ (j ≠ i ∧ s.calls[j]? = some c) := by
  simp only [Deciding.moveTo, List.getElem?_modify, Option.map_eq_map, Option.map_eq_some_iff] at h
  obtain ⟨c', hc', h⟩ := h
  by_cases hij : i = j
  · rw [if_pos hij] at h
    exact .inl ⟨hij.symm, by rw [← h]⟩
  · rw [if_neg hij] at h
    exact .inr ⟨Ne.symm hij, by rw [hc', h]⟩

theorem appliedOnly_moveTo {who : Option Nat}
    (hothers : ∀ j c, j ≠ i → s.calls[j]? = some c → c.stage.isApplied = true → who = some j)
    (hstage : stage.isApplied = true → who = some i) : (s.moveTo i stage).AppliedOnly who := by
  intro j c hc happlied
  rcases getElem?_moveTo hc with ⟨rfl, hs⟩ | ⟨hji, hc⟩
  · exact hstage (hs ▸ happlied)
  · exact hothers j c hji hc happlied

theorem fits_moveTo {id : Nat} (h : s.Fits id)
    (hstage : ∀ p, stage = .read p → params [.int id] = none) : (s.moveTo i stage).Fits id := by
  intro j c p hc hp
  rcases getElem?_moveTo hc with ⟨rfl, hs⟩ | ⟨-, hc⟩
  · exact hstage p (hs ▸ hp)
  · exact h j c p hc hp

theorem getElem?_moveTo_ne {j : Nat} (h : j ≠ i) :
    (s.moveTo i stage).calls[j]? = s.calls[j]? := by
  simp only [Deciding.moveTo, List.getElem?_modify, if_neg (Ne.symm h), Option.map_eq_map,
    Option.map_id']

theorem getElem?_append_call {calls : List DecisionCall} {c new : DecisionCall} {j : Nat}
    (h : (calls ++ [new])[j]? = some c) : calls[j]? = some c ∨ c = new := by
  rw [List.getElem?_append] at h
  split at h
  · exact .inl h
  · rw [List.getElem?_singleton] at h
    split at h
    · exact .inr (Option.some.inj h).symm
    · simp at h

end Calls

/-! ## the invariant -/

section Invariant

variable {cfg : Str} {id : Nat} {db : Db}

/-- Where a proposal stands that no call decided on a stale read. -/
inductive Deciding.Phase (id : Nat) (db : Db) (s : Deciding) : Prop
  | unapplied (heffects : s.effects = 0) (hnone : s.AppliedOnly none)
      (hstatus : s.status id = some .pending ∨ s.status id = some .rejected)
      (hpeers : SamePeers db s.db)
  | applied (i : Nat) (heffects : s.effects = 1) (honly : s.AppliedOnly (some i))
      (hstatus : s.status id = some .pending) (hid : params [.int id] = none)
      (hcall : ∃ c, s.calls[i]? = some c ∧ c.stage.isApplied = true)
  | accepted (heffects : s.effects = 1) (hnone : s.AppliedOnly none)
      (hstatus : s.status id = some .accepted)

structure Deciding.Inv (id : Nat) (db : Db) (s : Deciding) : Prop where
  fits : s.Fits id
  phase : s.Phase id db

theorem SamePeers.trans {db w w' : Db} (h : SamePeers db w) (h' : SamePeers w w') :
    SamePeers db w' := ⟨h'.bgp.trans h.bgp, h'.ibgp.trans h.ibgp⟩

theorem status_of_proposals {s s' : Deciding}
    (h : s'.db.configProposals = s.db.configProposals) : s'.status id = s.status id := by
  rw [Deciding.status, Deciding.status, Db.getProposal, Db.getProposal, h]

/-- What a step leaves that decides nothing. -/
structure Deciding.Quiet (id : Nat) (s s' : Deciding) : Prop where
  status : s'.status id = s.status id
  peers : SamePeers s.db s'.db
  effects : s'.effects = s.effects

theorem Deciding.Quiet.of_db {s s' : Deciding} (hdb : s'.db = s.db)
    (heff : s'.effects = s.effects) : s.Quiet id s' where
  status := status_of_proposals (by rw [hdb])
  peers := ⟨by rw [hdb], by rw [hdb]⟩
  effects := heff

/-- A step that decides nothing and leaves the applied calls as they are. -/
theorem phase_of_quiet {s s' : Deciding} (h : s.Phase id db) (hquiet : s.Quiet id s')
    (hcalls : ∀ (j : Nat) (c : DecisionCall), c.stage.isApplied = true →
      (s'.calls[j]? = some c ↔ s.calls[j]? = some c)) :
    s'.Phase id db := by
  have honly : ∀ who, s.AppliedOnly who → s'.AppliedOnly who :=
    fun who hw j c hc happlied => hw j c ((hcalls j c happlied).mp hc) happlied
  cases h with
  | unapplied heffects hnone hst hpeers =>
      exact .unapplied (hquiet.effects.trans heffects) (honly _ hnone) (by rwa [hquiet.status])
        (hpeers.trans hquiet.peers)
  | applied i heffects hi hst hid hcall =>
      obtain ⟨c, hc, happlied⟩ := hcall
      exact .applied i (hquiet.effects.trans heffects) (honly _ hi) (hquiet.status.trans hst) hid
        ⟨c, (hcalls i c happlied).mpr hc, happlied⟩
  | accepted heffects hnone hst =>
      exact .accepted (hquiet.effects.trans heffects) (honly _ hnone) (hquiet.status.trans hst)

/-- A call that goes on without having applied the proposal leaves the applied
calls as they are. -/
theorem applied_moveTo_iff {s s' : Deciding} {i : Nat} {c : DecisionCall} {stage : DecisionStage}
    (hcalls : s'.calls = (s.moveTo i stage).calls) (hc : s.calls[i]? = some c)
    (hnot : c.stage.isApplied = false) (hstage : stage.isApplied = false) (j : Nat)
    (d : DecisionCall) (happlied : d.stage.isApplied = true) :
    s'.calls[j]? = some d ↔ s.calls[j]? = some d := by
  rw [hcalls]
  constructor
  · intro hd
    rcases getElem?_moveTo hd with ⟨-, hs⟩ | ⟨-, hd⟩
    · rw [hs, hstage] at happlied
      simp at happlied
    · exact hd
  · intro hd
    have hji : j ≠ i := by
      rintro rfl
      rw [hc, Option.some.injEq] at hd
      rw [← hd, hnot] at happlied
      simp at happlied
    rw [getElem?_moveTo_ne hji]
    exact hd

/-! ### what each step does -/

section Steps

variable {s s' : Deciding} {i : Nat}

theorem step_read (h : decideStep cfg id s (.read i) = some s') :
    ∃ kind, s.calls[i]? = some ⟨kind, .started⟩ ∧ s' = s.moveTo i (readStage id s.db kind) := by
  simp only [decideStep] at h
  split at h
  · rename_i kind hc
    exact ⟨kind, hc, (Option.some.inj h).symm⟩
  · simp at h

theorem step_apply {env : PeerEnv} (h : decideStep cfg id s (.apply i env) = some s') :
    ∃ kind p, s.calls[i]? = some ⟨kind, .read p⟩ ∧
      ((∃ u w, (applyProposal env cfg p).run s.db = (.ok u, w) ∧
        s' = Deciding.moveTo ⟨w, s.calls, s.effects + 1⟩ i (.applied p)) ∨
      ∃ e w, (applyProposal env cfg p).run s.db = (.error e, w) ∧
        s' = Deciding.moveTo ⟨w, s.calls, s.effects⟩ i (afterRaise kind p e)) := by
  simp only [decideStep] at h
  split at h
  · simp at h
  · rename_i kind p _ hc
    refine ⟨kind, p, hc, ?_⟩
    cases hrun : (applyProposal env cfg p).run s.db with
    | mk r w =>
        rw [hrun] at h
        cases r with
        | ok u => exact .inl ⟨u, w, rfl, (Option.some.inj h).symm⟩
        | error e => exact .inr ⟨e, w, rfl, (Option.some.inj h).symm⟩
  · simp at h

/-- A peer operation that changes nothing raises. -/
theorem step_apply_nothing {env : PeerEnv} (hnothing : ChangesNothing cfg id s (.apply i env))
    (h : decideStep cfg id s (.apply i env) = some s') :
    ∃ kind p e w, s.calls[i]? = some ⟨kind, .read p⟩ ∧
      (applyProposal env cfg p).run s.db = (.error e, w) ∧
      s' = Deciding.moveTo ⟨w, s.calls, s.effects⟩ i (afterRaise kind p e) := by
  obtain ⟨kind, p, hci, ⟨u, w, hrun, -⟩ | ⟨e, w, hrun, hs'⟩⟩ := step_apply h
  · obtain ⟨e, w', hraises⟩ := hnothing kind p hci
    rw [hrun] at hraises
    cases hraises
  · exact ⟨kind, p, e, w, hci, hrun, hs'⟩

theorem step_set {now : Str} (h : decideStep cfg id s (.set i now) = some s') :
    ∃ c status message w, s.calls[i]? = some c ∧ verdict c = some (status, message) ∧
      (eval (ProposalStore.setStatus now id status message) s.db).2 = w ∧
      s' = Deciding.moveTo ⟨w, s.calls, s.effects⟩ i .done := by
  simp only [decideStep] at h
  split at h
  · rename_i status message hv
    obtain ⟨c, hc, hv⟩ := Option.bind_eq_some_iff.mp hv
    exact ⟨c, status, message, _, hc, hv, rfl, (Option.some.inj h).symm⟩
  · simp at h

theorem verdict_cases {c : DecisionCall} {status : ProposalStatus} {message : Option Msg}
    (h : verdict c = some (status, message)) :
    (c.stage.isApplied = true ∧ status = .accepted ∧ message = none) ∨
      (c.stage.isApplied = false ∧ status = .rejected) := by
  unfold verdict at h
  split at h
  · simp only [Option.some.injEq, Prod.mk.injEq] at h
    exact .inl ⟨rfl, h.1.symm, h.2.symm⟩
  · simp only [Option.some.injEq, Prod.mk.injEq] at h
    exact .inr ⟨rfl, h.1.symm⟩
  · simp only [Option.some.injEq, Prod.mk.injEq] at h
    exact .inr ⟨rfl, h.1.symm⟩
  · simp at h

/-- Who acts on a fresh read without having applied the proposal finds it as it
was at first. -/
theorem phase_fresh {c : DecisionCall} (h : s.Phase id db) (hst : s.status id = some .pending)
    (hothers : ∀ j c, j ≠ i → s.calls[j]? = some c → c.stage.isApplied = false)
    (hc : s.calls[i]? = some c) (hnot : c.stage.isApplied = false) :
    s.effects = 0 ∧ s.AppliedOnly none ∧ SamePeers db s.db := by
  cases h with
  | unapplied heffects hnone _ hpeers => exact ⟨heffects, hnone, hpeers⟩
  | applied k _ _ _ _ hcall =>
      obtain ⟨c', hc', happlied⟩ := hcall
      by_cases hk : k = i
      · rw [hk, hc, Option.some.injEq] at hc'
        rw [hc', happlied] at hnot
        simp at hnot
      · rw [hothers k c' hk hc'] at happlied
        simp at happlied
  | accepted _ _ hacc =>
      rw [hacc] at hst
      simp at hst

theorem inv_call {kind : Decision} (hinv : s.Inv id db) :
    Deciding.Inv id db { s with calls := s.calls ++ [⟨kind, .started⟩] } where
  fits j c p hc hp := by
    rcases getElem?_append_call hc with hc | rfl
    · exact hinv.fits j c p hc hp
    · simp at hp
  phase := by
    refine phase_of_quiet hinv.phase (.of_db rfl rfl) fun j c happlied =>
      ⟨fun hc => ?_, fun hc => ?_⟩
    · rcases getElem?_append_call hc with hc | rfl
      · exact hc
      · simp [DecisionStage.isApplied] at happlied
    · rw [List.getElem?_append_left (List.getElem?_eq_some_iff.mp hc).1]
      exact hc

theorem inv_read (hinv : s.Inv id db) (h : decideStep cfg id s (.read i) = some s') :
    s'.Inv id db := by
  obtain ⟨kind, hci, rfl⟩ := step_read h
  have hstage : (readStage id s.db kind).isApplied = false := by
    rcases readStage_cases id s.db kind with ⟨p, hp, -⟩ | hp
    · rw [hp]
      rfl
    · rw [hp]
      rfl
  refine ⟨fits_moveTo hinv.fits fun p hp => ?_, phase_of_quiet hinv.phase (.of_db rfl rfl)
    (applied_moveTo_iff rfl hci rfl hstage)⟩
  rcases readStage_cases id s.db kind with ⟨q, -, hid⟩ | hdone
  · exact hid
  · simp [hdone] at hp

/-- A peer operation that raises decides nothing. -/
theorem quiet_of_raises {env : PeerEnv} {p : ConfigProposal} {e : Exc PyError} {w : Db}
    (hrun : (applyProposal env cfg p).run s.db = (.error e, w)) (stage : DecisionStage) :
    s.Quiet id (Deciding.moveTo ⟨w, s.calls, s.effects⟩ i stage) where
  status := by
    have hproposals := applyProposal_proposals env cfg p s.db
    rw [hrun] at hproposals
    exact status_of_proposals hproposals
  peers := applyProposal_raises hrun
  effects := rfl

/-- A status that is set to what it is, or not at all, decides nothing. -/
theorem quiet_of_set {now : Str} {status : ProposalStatus} {message : Option Msg} {w : Db}
    (hw : (eval (ProposalStore.setStatus now id status message) s.db).2 = w)
    (hnothing : s.status id = some status ∨
      params [message.elim .null .message, .int id] ≠ none) :
    s.Quiet id (Deciding.moveTo ⟨w, s.calls, s.effects⟩ i .done) where
  status := by
    rcases hnothing with hst | hbound
    · rcases setStatus_cases now id status message s.db with hdb | hdb
      · exact status_of_proposals (by rw [moveTo_db, ← hw, hdb])
      · obtain ⟨q, hq, -⟩ := Option.map_eq_some_iff.mp hst
        rw [hst]
        simp only [Deciding.status, moveTo_db]
        rw [← hw, hdb, getProposal_decided, hq]
        rfl
    · rw [setStatus_unbound now id status message s.db hbound] at hw
      exact status_of_proposals (by rw [moveTo_db, ← hw])
  peers := by
    rcases setStatus_cases now id status message s.db with hdb | hdb
    · rw [moveTo_db, ← hw, hdb]
      exact ⟨rfl, rfl⟩
    · rw [moveTo_db, ← hw, hdb]
      exact ⟨rfl, rfl⟩
  effects := rfl

theorem isApplied_afterRaise (kind : Decision) (p : ConfigProposal) (e : Exc PyError) :
    (afterRaise kind p e).isApplied = false ∧ ∀ q, afterRaise kind p e ≠ .read q := by
  rcases afterRaise_cases kind p e with ⟨err, hs⟩ | hs
  · rw [hs]
    exact ⟨rfl, fun q => by simp⟩
  · rw [hs]
    exact ⟨rfl, fun q => by simp⟩

theorem inv_raises {env : PeerEnv} {kind : Decision} {p : ConfigProposal} {e : Exc PyError}
    {w : Db} (hinv : s.Inv id db) (hci : s.calls[i]? = some ⟨kind, .read p⟩)
    (hrun : (applyProposal env cfg p).run s.db = (.error e, w)) :
    Deciding.Inv id db (Deciding.moveTo ⟨w, s.calls, s.effects⟩ i (afterRaise kind p e)) := by
  obtain ⟨hnot, hread⟩ := isApplied_afterRaise kind p e
  exact ⟨fits_moveTo hinv.fits fun q hq => absurd hq (hread q),
    phase_of_quiet hinv.phase (quiet_of_raises hrun _) (applied_moveTo_iff rfl hci rfl hnot)⟩

theorem inv_apply {env : PeerEnv} (hinv : s.Inv id db)
    (hfresh : ActsOnFreshRead id s (.apply i env))
    (h : decideStep cfg id s (.apply i env) = some s') : s'.Inv id db := by
  obtain ⟨kind, p, hci, hres⟩ := step_apply h
  obtain ⟨heffects, hnone, hpeers⟩ := phase_fresh hinv.phase hfresh.1 hfresh.2 hci rfl
  rcases hres with ⟨u, w, hrun, rfl⟩ | ⟨e, w, hrun, rfl⟩
  · have hproposals := applyProposal_proposals env cfg p s.db
    rw [hrun] at hproposals
    refine ⟨fits_moveTo hinv.fits fun q hq => by simp at hq, .applied i ?_ ?_ ?_ ?_ ?_⟩
    · show s.effects + 1 = 1
      rw [heffects]
    · refine appliedOnly_moveTo (fun j c _ hc happlied => ?_) fun _ => rfl
      have hj := hnone j c hc happlied
      simp at hj
    · exact (status_of_proposals hproposals).trans hfresh.1
    · exact hinv.fits i _ p hci rfl
    · exact ⟨⟨kind, .applied p⟩, by simp [Deciding.moveTo, hci], rfl⟩
  · exact inv_raises hinv hci hrun

/-- A call that has applied the proposal accepts it. -/
theorem inv_accept {now : Str} {c : DecisionCall} {w : Db} (hinv : s.Inv id db)
    (hci : s.calls[i]? = some c) (happlied : c.stage.isApplied = true)
    (hw : (eval (ProposalStore.setStatus now id .accepted none) s.db).2 = w) :
    Deciding.Inv id db (Deciding.moveTo ⟨w, s.calls, s.effects⟩ i .done) := by
  refine ⟨fits_moveTo hinv.fits fun q hq => by simp at hq, ?_⟩
  cases hinv.phase with
  | unapplied _ hnone _ _ =>
      have hi := hnone i c hci happlied
      simp at hi
  | accepted _ hnone _ =>
      have hi := hnone i c hci happlied
      simp at hi
  | applied k heffects honly hst hid _ =>
      have hk : some k = some i := honly i c hci happlied
      refine .accepted heffects (appliedOnly_moveTo (fun j d hji hd hdapplied => ?_) ?_) ?_
      · have hj : some k = some j := honly j d hd hdapplied
        exact absurd (Option.some.inj (hj.symm.trans hk)) hji
      · simp [DecisionStage.isApplied]
      · have hsome : (s.db.getProposal id).isSome := by
          rw [Deciding.status] at hst
          rw [← Option.isSome_map (f := ConfigProposal.status), hst]
          rfl
        obtain ⟨q, hq⟩ := Option.isSome_iff_exists.mp hsome
        simp only [Deciding.status, moveTo_db]
        rw [← hw, setStatus_stores now id .accepted s.db hid hsome, getProposal_decided, hq]
        rfl

/-- A call on a fresh read that has not applied the proposal rejects it. -/
theorem inv_reject {now : Str} {c : DecisionCall} {message : Option Msg} {w : Db}
    (hinv : s.Inv id db) (hfresh : ActsOnFreshRead id s (.set i now))
    (hci : s.calls[i]? = some c) (hnot : c.stage.isApplied = false)
    (hw : (eval (ProposalStore.setStatus now id .rejected message) s.db).2 = w) :
    Deciding.Inv id db (Deciding.moveTo ⟨w, s.calls, s.effects⟩ i .done) := by
  refine ⟨fits_moveTo hinv.fits fun q hq => by simp at hq, ?_⟩
  obtain ⟨heffects, hnone, hpeers⟩ := phase_fresh hinv.phase hfresh.1 hfresh.2 hci hnot
  refine .unapplied heffects (appliedOnly_moveTo (fun j d _ => hnone j d) ?_) ?_ ?_
  · simp [DecisionStage.isApplied]
  · have hst := hfresh.1
    simp only [Deciding.status, moveTo_db] at hst ⊢
    rcases setStatus_cases now id .rejected message s.db with hdb | hdb
    · rw [← hw, hdb]
      exact .inl hst
    · obtain ⟨q, hq, -⟩ := Option.map_eq_some_iff.mp hst
      rw [← hw, hdb, getProposal_decided, hq]
      exact .inr rfl
  · refine hpeers.trans ?_
    simp only [moveTo_db]
    rcases setStatus_cases now id .rejected message s.db with hdb | hdb
    · rw [← hw, hdb]
      exact ⟨rfl, rfl⟩
    · rw [← hw, hdb]
      exact ⟨rfl, rfl⟩

theorem inv_set {now : Str} (hinv : s.Inv id db)
    (hok : ActsOnFreshRead id s (.set i now) ∨ ChangesNothing cfg id s (.set i now))
    (h : decideStep cfg id s (.set i now) = some s') : s'.Inv id db := by
  obtain ⟨c, status, message, w, hci, hv, hw, rfl⟩ := step_set h
  rcases verdict_cases hv with ⟨happlied, rfl, rfl⟩ | ⟨hnot, rfl⟩
  · exact inv_accept hinv hci happlied hw
  · rcases hok with hfresh | hnothing
    · exact inv_reject hinv hfresh hci hnot hw
    · have hquiet := @quiet_of_set id s i now .rejected message w hw
        (hnothing _ _ (by rw [hci]; exact hv))
      exact ⟨fits_moveTo hinv.fits fun q hq => by simp at hq,
        phase_of_quiet hinv.phase hquiet (applied_moveTo_iff rfl hci hnot rfl)⟩

theorem inv_step {a : DecideAction} (hinv : s.Inv id db)
    (hok : ActsOnFreshRead id s a ∨ ChangesNothing cfg id s a)
    (h : decideStep cfg id s a = some s') : s'.Inv id db := by
  cases a with
  | call kind =>
      rw [← Option.some.inj h]
      exact inv_call hinv
  | read i => exact inv_read hinv h
  | apply i env =>
      rcases hok with hfresh | hnothing
      · exact inv_apply hinv hfresh h
      · obtain ⟨kind, p, e, w, hci, hrun, rfl⟩ := step_apply_nothing hnothing h
        exact inv_raises hinv hci hrun
  | set i now => exact inv_set hinv hok h

/-- A step on a fresh read, or one that changes nothing, leaves a decided status
alone. -/
theorem status_step {a : DecideAction} (hok : ActsOnFreshRead id s a ∨ ChangesNothing cfg id s a)
    (h : decideStep cfg id s a = some s') (hdecided : s.status id ≠ some .pending) :
    s'.status id = s.status id := by
  cases a with
  | call kind => rw [← Option.some.inj h, Deciding.status, Deciding.status]
  | read i =>
      obtain ⟨kind, -, rfl⟩ := step_read h
      exact status_of_proposals rfl
  | apply i env =>
      rcases hok with hfresh | hnothing
      · exact absurd hfresh.1 hdecided
      · obtain ⟨kind, p, e, w, -, hrun, rfl⟩ := step_apply_nothing hnothing h
        exact (quiet_of_raises hrun _).status
  | set i now =>
      rcases hok with hfresh | hnothing
      · exact absurd hfresh.1 hdecided
      · obtain ⟨c, status, message, w, hci, hv, hw, rfl⟩ := step_set h
        exact (quiet_of_set hw (hnothing _ _ (by rw [hci]; exact hv))).status

end Steps

theorem inv_start {p : ConfigProposal} (hp : db.getProposal id = some p)
    (hst : p.status = .pending) : (Deciding.start db).Inv id db where
  fits j c p hc := by simp [Deciding.start] at hc
  phase := .unapplied rfl (fun j c hc => by simp [Deciding.start] at hc)
    (.inl (by simp [Deciding.status, Deciding.start, hp, hst])) ⟨rfl, rfl⟩

end Invariant

/-! ## runs -/

/-- **Decided once.**  In every run in which a call that acts on a stale read
changes nothing, the proposal is decided once. -/
theorem decided_once_of_fresh_reads {cfg : Str} {id : Nat} {db : Db} {p : ConfigProposal}
    {as : List DecideAction} {s : Deciding} (hp : db.getProposal id = some p)
    (hst : p.status = .pending)
    (hrun : Machine.exec (decideStep cfg id) (Deciding.start db) as = some s)
    (hfresh : Machine.Along (decideStep cfg id)
      (fun t a => ActsOnFreshRead id t a ∨ ChangesNothing cfg id t a) (Deciding.start db) as) :
    DecidedOnce cfg id db as s := by
  have hinv := Machine.exec_invariant (decideStep cfg id) (fun _ _ _ => inv_step)
    (inv_start hp hst) hfresh hrun
  refine ⟨?_, ?_, ?_, ?_⟩
  · exact hfresh.mono _ fun t a hok t' ht hdecided => status_step hok ht hdecided
  · cases hinv.phase with
    | unapplied heffects _ _ _ => omega
    | applied _ heffects _ _ _ _ => omega
    | accepted heffects _ _ => omega
  · intro hzero
    cases hinv.phase with
    | unapplied _ _ _ hpeers => exact hpeers
    | applied _ heffects _ _ _ _ => omega
    | accepted heffects _ _ => omega
  · intro hfinished
    cases hinv.phase with
    | unapplied heffects _ hstatus _ =>
        constructor
        · intro hacc
          rcases hstatus with h | h
          · rw [h] at hacc
            simp at hacc
          · rw [h] at hacc
            simp at hacc
        · intro hone
          omega
    | applied i _ _ _ _ hcall =>
        obtain ⟨c, hc, happlied⟩ := hcall
        rw [hfinished c (List.mem_of_getElem? hc)] at happlied
        simp [DecisionStage.isApplied] at happlied
    | accepted heffects _ hstatus => exact ⟨fun _ => heffects, fun _ => hstatus⟩

/-! ### an acceptance and a rejection -/

def pendingRun : List HubAction :=
  [⟨.call (.addNode (lit "a") (lit "alpha")), lit "t0", none, false⟩,
    ⟨.call (.addProposal (lit "a") (lit "push") (lit "peer_add") samplePayload), lit "t1", none,
      false⟩]

def pendingDb : Db := (Machine.exec hubStep Db.empty pendingRun).getD Db.empty

def pendingProposal : ConfigProposal :=
  ⟨1, lit "a", .push, .peerAdd, samplePayload, .pending, lit "t1", none, none⟩

/-- The rejection reads after the acceptance has ended. -/
def orderlyDecisions : List DecideAction :=
  [.call .accept, .call (.reject (lit "no")), .read 0, .apply 0 (sampleEnv (lit "t2")),
    .set 0 (lit "t3"), .read 1]

/-- Both read `pending` before either decides. -/
def crossedDecisions : List DecideAction :=
  [.call .accept, .call (.reject (lit "no")), .read 0, .read 1, .apply 0 (sampleEnv (lit "t2")),
    .set 0 (lit "t3"), .set 1 (lit "t4")]

def decidingRun (as : List DecideAction) : Deciding :=
  (Machine.exec (decideStep (lit "hub") 1) (Deciding.start pendingDb) as).getD
    (Deciding.start pendingDb)

theorem decided_once_orderly :
    (decidingRun orderlyDecisions).effects = 1 ∧
      DecidedOnce (lit "hub") 1 pendingDb orderlyDecisions (decidingRun orderlyDecisions) := by
  have hp : pendingDb.getProposal 1 = some pendingProposal := rfl
  have hrun : Machine.exec (decideStep (lit "hub") 1) (Deciding.start pendingDb)
      orderlyDecisions = some (decidingRun orderlyDecisions) := rfl
  refine ⟨by decide +kernel, decided_once_of_fresh_reads hp rfl hrun ?_⟩
  have hothers : ∀ (kind : Decision) (stage : DecisionStage) (j : Nat) (c : DecisionCall), j ≠ 0 →
      [⟨.accept, stage⟩, (⟨kind, .started⟩ : DecisionCall)][j]? = some c →
      c.stage.isApplied = false := by
    intro kind stage j c hj hc
    match j with
    | 0 => exact absurd rfl hj
    | 1 => rw [← Option.some.inj hc]; rfl
    | j + 2 => simp at hc
  refine Machine.along_cons _ (.inl trivial) rfl (Machine.along_cons _ (.inl trivial) rfl
    (Machine.along_cons _ (.inl trivial) rfl (Machine.along_cons _ (.inl ⟨rfl, hothers _ _⟩) rfl
    (Machine.along_cons _ (.inl ⟨rfl, hothers _ _⟩) rfl
      (Machine.along_cons _ (.inl trivial) rfl trivial)))))

/-- The proposal is applied, accepted and then rejected. -/
theorem crossedDecisions_not_once : pendingDb.Reachable ∧
    pendingDb.getProposal 1 = some pendingProposal ∧
    Machine.exec (decideStep (lit "hub") 1) (Deciding.start pendingDb) crossedDecisions =
      some (decidingRun crossedDecisions) ∧
    ¬ DecidedOnce (lit "hub") 1 pendingDb crossedDecisions (decidingRun crossedDecisions) := by
  refine ⟨⟨pendingRun, rfl⟩, rfl, rfl, fun h => ?_⟩
  have hcalls : (decidingRun crossedDecisions).calls =
      [⟨.accept, .done⟩, ⟨.reject (lit "no"), .done⟩] := rfl
  have hfinished : (decidingRun crossedDecisions).finished := by
    rw [Deciding.finished, hcalls]
    simp
  have heffects : (decidingRun crossedDecisions).effects = 1 := by decide +kernel
  have hrejected : (decidingRun crossedDecisions).status 1 = some .rejected := by decide +kernel
  have haccepted := (h.accepted hfinished).mpr heffects
  rw [hrejected] at haccepted
  simp at haccepted

end Dn42Ctl
