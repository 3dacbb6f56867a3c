import Dn42Ctl.AutoPeer

/-!
# Replay

Runs of `verify_auth_response` and `open_session`.  Replay protection remembers
signatures, not responses, and for a limited time; `one_session_iff` says in
which runs that is enough to exchange no response twice.
-/

namespace Dn42Ctl

open Text Builtins

/-! ## runs -/

/-- What the two clocks show at one instant. -/
structure Clock where
  wall : FiniteDouble
  mono : FiniteDouble

/-- Neither clock goes back. -/
instance : LE Clock := ⟨fun a b => (a.wall : Double) ≤ b.wall ∧ (a.mono : Double) ≤ b.mono⟩

instance (a b : Clock) : Decidable (a ≤ b) := inferInstanceAs (Decidable (_ ∧ _))

theorem Clock.le_refl (a : Clock) : a ≤ a :=
  ⟨Double.coe_le.mpr (Int.le_refl _), Double.coe_le.mpr (Int.le_refl _)⟩

theorem Clock.le_trans {a b c : Clock} (hab : a ≤ b) (hbc : b ≤ c) : a ≤ c :=
  ⟨Double.le_trans hab.1 hbc.1, Double.le_trans hab.2 hbc.2⟩

/-- A response that was exchanged for a token. -/
structure Exchange where
  params : Str
  digest : Str
  openedAt : Clock
  token : Str

/-- Until when the exchange is remembered. -/
def Exchange.deadline (e : Exchange) : Double := e.openedAt.mono + consumedTtlSeconds

/-- The process with the requests it is serving: the identities that are
verified and not yet handed to `open_session`. -/
structure AuthRun where
  clock : Clock
  verified : List (Str × KioubitIdentity) := []
  store : SessionStore := {}
  /-- Every exchange so far.  Nothing reads it. -/
  exchanged : List Exchange := []

def AuthRun.start (clock : Clock) : AuthRun := { clock }

inductive AuthAction where
  | verify (now : Clock) (params signature : Str)
  | openSession (now : Clock) (i : Nat) (token : Str)
  /-- The other functions of the store purge it too. -/
  | purge (now : Clock)

def AuthAction.now : AuthAction → Clock
  | .verify now .. | .openSession now .. | .purge now => now

section Machine

variable (lib : AuthLib) (domain : Str)

/-- One step, at clock readings that are not before the last ones. -/
def authStep (s : AuthRun) (a : AuthAction) : Option AuthRun :=
  if ¬ s.clock ≤ a.now then none
  else
    match a with
    | .verify now params signature =>
        match verifyAuthResponse lib params signature domain now.wall with
        | .error _ => some { s with clock := now }
        | .ok identity =>
            some { s with clock := now, verified := s.verified ++ [(params, identity)] }
    | .openSession now i token =>
        match s.verified[i]? with
        | none => none
        | some (params, identity) =>
            let verified := s.verified.eraseIdx i
            match openSession now.mono token identity s.store with
            | (.error _, store) => some { s with clock := now, verified, store }
            | (.ok _, store) =>
                some { clock := now, verified, store
                       exchanged := s.exchanged ++ [⟨params, identity.digest, now, token⟩] }
    | .purge now => some { s with clock := now, store := purgeExpired now.mono s.store }

/-- No params string was exchanged for two tokens. -/
def AuthRun.OncePerParams (s : AuthRun) : Prop := (s.exchanged.map Exchange.params).Nodup

/-- A response whose params string was exchanged before comes before the deadline
of an exchange with its signature. -/
def Remembered (s : AuthRun) : AuthAction → Prop
  | .openSession now i _ =>
      ∀ params identity, s.verified[i]? = some (params, identity) →
        params ∈ s.exchanged.map Exchange.params →
          ∃ e ∈ s.exchanged, e.digest = identity.digest ∧ ¬ e.deadline ≤ now.mono
  | _ => True

/-! ## what the store remembers -/

/-- The store remembers exchanges, and every one whose deadline has not come. -/
structure StoreInv (s : AuthRun) : Prop where
  recorded : ∀ c ∈ s.store.consumed, ∃ e ∈ s.exchanged, e.digest = c.1 ∧ e.deadline = c.2
  remembers : ∀ e ∈ s.exchanged, ¬ e.deadline ≤ s.clock.mono →
    (e.digest, e.deadline) ∈ s.store.consumed

variable {lib domain}

theorem storeInv_start (clock : Clock) : StoreInv (AuthRun.start clock) :=
  ⟨by simp [AuthRun.start], by simp [AuthRun.start]⟩

/-- A purge drops the exchanges whose deadline has come. -/
theorem mem_purge {now : Double} {st : SessionStore} {c : Str × Double} :
    c ∈ (purgeExpired now st).consumed ↔ c ∈ st.consumed ∧ ¬ c.2 ≤ now := by
  simp [purgeExpired]

theorem StoreInv.purge {s : AuthRun} (h : StoreInv s) {now : Clock} (hnow : s.clock ≤ now)
    (verified : List (Str × KioubitIdentity)) :
    StoreInv { s with clock := now, verified, store := purgeExpired now.mono s.store } where
  recorded c hc := h.recorded c (mem_purge.mp hc).1
  remembers e he hlive :=
    mem_purge.mpr ⟨h.remembers e he fun hle => hlive (Double.le_trans hle hnow.2), hlive⟩

/-- A signature is refused exactly before the deadline of an exchange with it. -/
theorem refused_iff {s : AuthRun} (h : StoreInv s) {now : Clock} (hnow : s.clock ≤ now)
    (digest : Str) :
    ((purgeExpired now.mono s.store).consumed.any fun c => c.1 == digest) = true ↔
      ∃ e ∈ s.exchanged, e.digest = digest ∧ ¬ e.deadline ≤ now.mono := by
  rw [List.any_eq_true]
  constructor
  · rintro ⟨c, hc, hcd⟩
    obtain ⟨hmem, hlive⟩ := mem_purge.mp hc
    obtain ⟨e, he, hed, hdl⟩ := h.recorded c hmem
    exact ⟨e, he, hed.trans (beq_iff_eq.mp hcd), hdl ▸ hlive⟩
  · rintro ⟨e, he, hed, hlive⟩
    refine ⟨(e.digest, e.deadline), mem_purge.mpr ⟨?_, hlive⟩, by simp [hed]⟩
    exact h.remembers e he fun hle => hlive (Double.le_trans hle hnow.2)

theorem StoreInv.exchange {s : AuthRun} (h : StoreInv s) {now : Clock} (hnow : s.clock ≤ now)
    (verified : List (Str × KioubitIdentity)) (sessions : List PeerSession)
    (params digest token : Str) :
    StoreInv
      { clock := now, verified
        store :=
          { sessions
            consumed := (purgeExpired now.mono s.store).consumed ++
              [(digest, now.mono + consumedTtlSeconds)] }
        exchanged := s.exchanged ++ [⟨params, digest, now, token⟩] } := by
  have hp := h.purge hnow verified
  constructor
  · intro c hc
    rcases List.mem_append.mp hc with hc | hc
    · obtain ⟨e, he, hx⟩ := hp.recorded c hc
      exact ⟨e, List.mem_append_left _ he, hx⟩
    · rw [List.mem_singleton.mp hc]
      exact ⟨⟨params, digest, now, token⟩, by simp, rfl, rfl⟩
  · intro e he hlive
    rcases List.mem_append.mp he with he | he
    · exact List.mem_append_left _ (hp.remembers e he hlive)
    · rw [List.mem_singleton.mp he]
      exact List.mem_append_right _ (List.mem_singleton.mpr rfl)

/-! ## one step -/

/-- What a step of the machine does. -/
theorem authStep_cases {s s' : AuthRun} {a : AuthAction}
    (h : authStep lib domain s a = some s') :
    s.clock ≤ a.now ∧
      ((∃ params signature, a = .verify a.now params signature ∧
          s'.store = s.store ∧ s'.exchanged = s.exchanged ∧ s'.clock = a.now) ∨
        (∃ i token params identity, a = .openSession a.now i token ∧
          s.verified[i]? = some (params, identity) ∧
          (((purgeExpired a.now.mono s.store).consumed.any
              fun c => c.1 == identity.digest) = true ∧
              s' = { s with
                clock := a.now, verified := s.verified.eraseIdx i,
                store := purgeExpired a.now.mono s.store } ∨
            ((purgeExpired a.now.mono s.store).consumed.any
              fun c => c.1 == identity.digest) = false ∧
              ∃ sessions, s' =
                { clock := a.now, verified := s.verified.eraseIdx i
                  store :=
                    { sessions
                      consumed := (purgeExpired a.now.mono s.store).consumed ++
                        [(identity.digest, a.now.mono + consumedTtlSeconds)] }
                  exchanged := s.exchanged ++ [⟨params, identity.digest, a.now, token⟩] })) ∨
        (a = .purge a.now ∧ s' = { s with
          clock := a.now, store := purgeExpired a.now.mono s.store })) := by
  simp only [authStep, Option.ite_none_left_eq_some, not_not] at h
  refine ⟨h.1, ?_⟩
  obtain ⟨-, h⟩ := h
  cases a with
  | verify now params signature =>
      refine .inl ⟨params, signature, rfl, ?_⟩
      dsimp only at h
      cases hv : verifyAuthResponse lib params signature domain now.wall with
      | error e =>
          rw [hv, Option.some.injEq] at h
          rw [← h]
          exact ⟨rfl, rfl, rfl⟩
      | ok identity =>
          rw [hv, Option.some.injEq] at h
          rw [← h]
          exact ⟨rfl, rfl, rfl⟩
  | openSession now i token =>
      dsimp only at h
      cases hi : s.verified[i]? with
      | none => simp [hi] at h
      | some found =>
          obtain ⟨params, identity⟩ := found
          refine .inr (.inl ⟨i, token, params, identity, rfl, hi, ?_⟩)
          simp only [hi, openSession] at h
          cases hany : (purgeExpired now.mono s.store).consumed.any
              fun c => c.1 == identity.digest with
          | true =>
              simp only [hany, if_true, Option.some.injEq] at h
              exact .inl ⟨hany, h.symm⟩
          | false =>
              simp only [hany, Bool.false_eq_true, if_false, Option.some.injEq] at h
              exact .inr ⟨hany, _, h.symm⟩
  | purge now =>
      simp only [Option.some.injEq] at h
      exact .inr (.inr ⟨rfl, h.symm⟩)

theorem storeInv_step {s s' : AuthRun} {a : AuthAction} (hinv : StoreInv s)
    (h : authStep lib domain s a = some s') : StoreInv s' := by
  obtain ⟨hnow, hcases⟩ := authStep_cases h
  rcases hcases with ⟨params, signature, -, hstore, hex, hclock⟩ |
    ⟨i, token, params, identity, -, -, hopen⟩ | ⟨-, rfl⟩
  · refine ⟨fun c hc => ?_, fun e he hlt => ?_⟩
    · rw [hex]
      exact hinv.recorded c (hstore ▸ hc)
    · rw [hstore]
      exact hinv.remembers e (hex ▸ he) fun hle =>
        hlt (hclock ▸ Double.le_trans hle hnow.2)
  · rcases hopen with ⟨-, rfl⟩ | ⟨-, sessions, rfl⟩
    · exact hinv.purge hnow _
    · exact hinv.exchange hnow _ sessions params identity.digest token
  · exact hinv.purge hnow _

/-- A step exchanges no params string again exactly when it is remembered. -/
theorem oncePerParams_step {s s' : AuthRun} {a : AuthAction} (hinv : StoreInv s)
    (h : authStep lib domain s a = some s') :
    s'.OncePerParams ↔ s.OncePerParams ∧ Remembered s a := by
  obtain ⟨hnow, hcases⟩ := authStep_cases h
  rcases hcases with ⟨params, signature, ha, -, hex, -⟩ |
    ⟨i, token, params, identity, ha, hi, hopen⟩ | ⟨ha, rfl⟩
  · rw [AuthRun.OncePerParams, hex, ha]
    exact ⟨fun hs => ⟨hs, trivial⟩, fun hs => hs.1⟩
  · have hrem : Remembered s a ↔ (params ∈ s.exchanged.map Exchange.params →
        ∃ e ∈ s.exchanged, e.digest = identity.digest ∧ ¬ e.deadline ≤ a.now.mono) := by
      rw [ha]
      simp only [Remembered, hi, Option.some.injEq, Prod.mk.injEq]
      constructor
      · intro hr
        exact hr params identity ⟨rfl, rfl⟩
      · rintro hr p d ⟨rfl, rfl⟩
        exact hr
    rw [hrem, ← refused_iff hinv hnow]
    rcases hopen with ⟨hany, rfl⟩ | ⟨hany, sessions, rfl⟩
    · exact ⟨fun hs => ⟨hs, fun _ => hany⟩, fun hs => hs.1⟩
    · simp only [AuthRun.OncePerParams, List.map_append, List.map_cons, List.map_nil, hany,
        Bool.false_eq_true, imp_false]
      rw [List.nodup_append_comm, List.singleton_append, List.nodup_cons]
      exact and_comm
  · rw [ha]
    exact ⟨fun hs => ⟨hs, trivial⟩, fun hs => hs.1⟩

variable (lib domain)

/-- **One session per response, exactly when it is remembered**: a run exchanges
no params string for two tokens exactly when every response whose params string
was exchanged before comes before the deadline of an exchange with its
signature. -/
theorem one_session_iff {clock : Clock} {as : List AuthAction} {s : AuthRun}
    (h : Machine.exec (authStep lib domain) (AuthRun.start clock) as = some s) :
    s.OncePerParams ↔
      Machine.Along (authStep lib domain) Remembered (AuthRun.start clock) as := by
  have hstart : (AuthRun.start clock).OncePerParams := List.nodup_nil
  rw [Machine.exec_iff_along _ (fun _ _ _ => storeInv_step) (fun _ _ _ => oncePerParams_step)
    (storeInv_start clock) h]
  exact ⟨fun hs => hs.2, fun hs => ⟨hstart, hs⟩⟩

/-! ## inside the window -/

variable {lib domain}

/-- The payload of a response is read from its params string alone. -/
theorem payload_of_signedPayload {params signature : Str} {payload : JsonObject} {digest : Str}
    (h : signedPayload lib params signature = .ok (payload, digest)) :
    ∃ raw, Base64.b64decode params = some raw ∧ lib.loads raw = .ok (.dict payload) := by
  obtain ⟨-, -, h⟩ := Prog.bind_eq_ok.mp h
  obtain ⟨signatureBytes, -, h⟩ := Prog.bind_eq_ok.mp h
  obtain ⟨-, -, h⟩ := Prog.bind_eq_ok.mp h
  obtain ⟨-, -, h⟩ := Prog.bind_eq_ok.mp h
  obtain ⟨raw, hraw, h⟩ := Prog.bind_eq_ok.mp h
  have hdecode : Base64.b64decode params = some raw := by
    rw [authB64decode] at hraw
    split at hraw
    · rename_i found hfound
      cases hraw
      exact hfound
    · cases hraw
  refine ⟨raw, hdecode, ?_⟩
  split at h
  · cases h
  · cases h
  · rename_i found hl
    cases h
    exact hl
  · cases h

/-- An accepted response is fresh, and its time is read from its params string. -/
theorem verified_spec {params signature : Str} {now : Double} {identity : KioubitIdentity}
    (h : verifyAuthResponse lib params signature domain now = .ok identity) :
    isExpired now identity.issuedAt = false ∧
      ∃ raw payload, Base64.b64decode params = some raw ∧ lib.loads raw = .ok (.dict payload) ∧
        authTime lib payload = .ok identity.issuedAt := by
  obtain ⟨⟨payload, digest⟩, hs, h⟩ := Prog.bind_eq_ok.mp h
  obtain ⟨raw, hraw, hloads⟩ := payload_of_signedPayload hs
  obtain ⟨-, -, h⟩ := Prog.bind_eq_ok.mp h
  obtain ⟨issuedAt, ht, h⟩ := Prog.bind_eq_ok.mp h
  obtain ⟨_, hfresh, h⟩ := Prog.bind_eq_ok.mp h
  obtain ⟨asn, -, h⟩ := Prog.bind_eq_ok.mp h
  obtain ⟨mntner, -, h⟩ := Prog.bind_eq_ok.mp h
  cases h
  refine ⟨?_, raw, payload, hraw, hloads, ht⟩
  rw [require] at hfresh
  split at hfresh
  · simpa using ‹(!isExpired now issuedAt) = true›
  · cases hfresh

theorem issuedAt_unique {params sig sig' : Str} {now now' : Double}
    {identity identity' : KioubitIdentity}
    (h : verifyAuthResponse lib params sig domain now = .ok identity)
    (h' : verifyAuthResponse lib params sig' domain now' = .ok identity') :
    identity.issuedAt = identity'.issuedAt := by
  obtain ⟨-, raw, payload, hraw, hloads, ht⟩ := verified_spec h
  obtain ⟨-, raw', payload', hraw', hloads', ht'⟩ := verified_spec h'
  rw [hraw, Option.some.injEq] at hraw'
  rw [← hraw', hloads, Except.ok.injEq, Json.dict.injEq] at hloads'
  rw [← hloads', ht, Except.ok.injEq] at ht'
  exact ht'

/-- Identities come from verifications that have been made. -/
structure VerifiedInv (lib : AuthLib) (domain : Str) (s : AuthRun) : Prop where
  verified : ∀ v ∈ s.verified, ∃ signature, ∃ now ≤ s.clock,
    verifyAuthResponse lib v.1 signature domain now.wall = .ok v.2
  exchanged : ∀ e ∈ s.exchanged, ∃ signature identity, ∃ now ≤ e.openedAt,
    verifyAuthResponse lib e.params signature domain now.wall = .ok identity

theorem verifiedInv_step {s s' : AuthRun} {a : AuthAction} (hinv : VerifiedInv lib domain s)
    (h : authStep lib domain s a = some s') : VerifiedInv lib domain s' := by
  have hlater : ∀ {now}, s.clock ≤ now → ∀ v ∈ s.verified, ∃ signature, ∃ t ≤ now,
      verifyAuthResponse lib v.1 signature domain t.wall = .ok v.2 := by
    intro now hnow v hv
    obtain ⟨signature, t, ht, hver⟩ := hinv.verified v hv
    exact ⟨signature, t, Clock.le_trans ht hnow, hver⟩
  simp only [authStep, Option.ite_none_left_eq_some, not_not] at h
  obtain ⟨hnow, h⟩ := h
  cases a with
  | verify now params signature =>
      cases hv : verifyAuthResponse lib params signature domain now.wall with
      | error e =>
          simp only [hv, Option.some.injEq] at h
          rw [← h]
          exact ⟨hlater hnow, hinv.exchanged⟩
      | ok identity =>
          simp only [hv, Option.some.injEq] at h
          rw [← h]
          refine ⟨fun v hmem => ?_, hinv.exchanged⟩
          rcases List.mem_append.mp hmem with hmem | hmem
          · exact hlater hnow v hmem
          · rw [List.mem_singleton.mp hmem]
            exact ⟨signature, now, Clock.le_refl now, hv⟩
  | openSession now i token =>
      cases hi : s.verified[i]? with
      | none => simp [hi] at h
      | some found =>
          obtain ⟨params, identity⟩ := found
          have hmem : (params, identity) ∈ s.verified := List.mem_of_getElem? hi
          simp only [hi] at h
          split at h
          · rw [Option.some.injEq] at h
            rw [← h]
            exact ⟨fun v hv => hlater hnow v (List.mem_of_mem_eraseIdx hv), hinv.exchanged⟩
          · rw [Option.some.injEq] at h
            rw [← h]
            refine ⟨fun v hv => hlater hnow v (List.mem_of_mem_eraseIdx hv), fun e he => ?_⟩
            rcases List.mem_append.mp he with he | he
            · exact hinv.exchanged e he
            · rw [List.mem_singleton.mp he]
              obtain ⟨signature, t, ht, hver⟩ := hlater hnow _ hmem
              exact ⟨signature, identity, t, ht, hver⟩
  | purge now =>
      simp only [Option.some.injEq] at h
      rw [← h]
      exact ⟨hlater hnow, hinv.exchanged⟩

/-- From one instant to the other the monotonic clock has not gained a second on
the wall clock. -/
def Together (a b : Clock) : Prop :=
  b.mono.units - a.mono.units ≤ b.wall.units - a.wall.units + Binary64.one

/-- The exchange of a response three seconds before its window closes, under the
one signature its params string is known with, on clocks that go together. -/
def InWindow (s : AuthRun) : AuthAction → Prop
  | .openSession now i _ =>
      ∀ params identity, s.verified[i]? = some (params, identity) →
        (∃ t, identity.issuedAt = .finite t ∧
          now.wall.units + 3 * Binary64.one ≤ t.units + 60 * Binary64.one) ∧
        now.mono.units.natAbs < 2 ^ 52 * Binary64.one ∧
        ∀ e ∈ s.exchanged, e.params = params →
          e.digest = identity.digest ∧ Together e.openedAt now
  | _ => True

/-- What is not expired is a minute old, up to a second that rounding can take. -/
theorem units_of_fresh {current issuedAt : FiniteDouble}
    (h : isExpired current issuedAt = false) :
    issuedAt.units < current.units + 61 * Binary64.one := by
  by_contra hold
  have hlt : maxAgeSeconds < ((current : Double) - issuedAt).abs :=
    Double.ofInt_lt_abs (n := 60) (by norm_num) (by push_cast; omega)
  rw [isExpired, decide_eq_true hlt] at h
  cases h

/-- Inside the window a signature is remembered long enough: the first exchange
was not before the window opened. -/
theorem remembered_of_inWindow {s : AuthRun} {a : AuthAction} (hinv : VerifiedInv lib domain s)
    (h : InWindow s a) : Remembered s a := by
  cases a with
  | verify now params signature => trivial
  | purge now => trivial
  | openSession now i token =>
      intro params identity hi hex
      obtain ⟨e, he, rfl⟩ := List.mem_map.mp hex
      obtain ⟨⟨t, hissued, hlt⟩, hcommon, hsame⟩ := h e.params identity hi
      obtain ⟨hdigest, htogether⟩ := hsame e he rfl
      obtain ⟨sig, id1, v, hv, hver⟩ := hinv.exchanged e he
      obtain ⟨sig', v', -, hver'⟩ := hinv.verified _ (List.mem_of_getElem? hi)
      have hfresh := (verified_spec hver).1
      rw [issuedAt_unique hver hver', hissued] at hfresh
      have hopened := Double.coe_le.mp hv.1
      have hold := units_of_fresh hfresh
      obtain ⟨ttl, httl, hunits⟩ := @Double.ofInt_eq (60 * 2) (by norm_num)
      refine ⟨e, he, hdigest, ?_⟩
      rw [Exchange.deadline, consumedTtlSeconds, httl, Double.finite_add]
      refine Double.not_ofUnits_le hcommon ?_
      unfold Together at htogether
      rw [hunits]
      omega

structure AuthInv (lib : AuthLib) (domain : Str) (s : AuthRun) : Prop where
  once : s.OncePerParams
  store : StoreInv s
  verified : VerifiedInv lib domain s

/-- **Inside the window replay protection holds**: where each params string has
one signature, its time is a number, the clocks go together and `open_session`
runs three seconds before the window closes, no response is exchanged twice. -/
theorem one_session_in_window {clock : Clock} {as : List AuthAction} {s : AuthRun}
    (h : Machine.exec (authStep lib domain) (AuthRun.start clock) as = some s)
    (hwin : Machine.Along (authStep lib domain) InWindow (AuthRun.start clock) as) :
    s.OncePerParams := by
  have hstep : ∀ s a s', AuthInv lib domain s → InWindow s a →
      authStep lib domain s a = some s' → AuthInv lib domain s' := by
    intro s a s' hinv hw hs
    have hrem : Remembered s a := remembered_of_inWindow hinv.verified hw
    exact ⟨(oncePerParams_step hinv.store hs).mpr ⟨hinv.once, hrem⟩,
      storeInv_step hinv.store hs, verifiedInv_step hinv.verified hs⟩
  have hstart : AuthInv lib domain (AuthRun.start clock) :=
    ⟨List.nodup_nil, storeInv_start clock, by simp [AuthRun.start], by simp [AuthRun.start]⟩
  exact (Machine.exec_invariant _ hstep hstart hwin h).once

end Machine

/-! ### a response with two signatures -/

/-- `{"asn":"1","time":1000,"mnt":"M","domain":"d"}` in base64:
`eyJhc24iOiIxIiwidGltZSI6MTAwMCwibW50IjoiTSIsImRvbWFpbiI6ImQifQ==`. -/
def sampleParams : Str :=
  [101, 121, 74, 104, 99, 50, 52, 105, 79, 105, 73, 120, 73, 105, 119, 105, 100, 71, 108, 116, 90,
    83, 73, 54, 77, 84, 65, 119, 77, 67, 119, 105, 98, 87, 53, 48, 73, 106, 111, 105, 84, 83, 73,
    115, 73, 109, 82, 118, 98, 87, 70, 112, 98, 105, 73, 54, 73, 109, 81, 105, 102, 81, 61, 61]

/-- The pair `(1, 2)` in DER, and `(1, 3)`. -/
def sampleSignature : Str := lit "MAYCAQECAQI="

def otherSignature : Str := lit "MAYCAQECAQM="

def sampleAuthLib : AuthLib where
  verifies _ params := params == sampleParams
  loads _ := .ok (.dict [(lit "asn", .str (lit "1")), (lit "time", .int 1000),
    (lit "mnt", .str (lit "M")), (lit "domain", .str (lit "d"))])
  float
    | .int n => .ok (.ofInt n)
    | _ => .error .type
  sha256 raw :=
    if raw = [48, 6, 2, 1, 1, 2, 1, 2] then
      lit "676f0b8a8568db389920de2cf8e9c2c1555518e9cc97ae2652d7c819f5eb3e8c"
    else lit "199cd5a7a1871b6f2cccc0ddb81d898e46c05ed5fd2aaf6a303aee6edcb6aa22"

/-- Both clocks at a whole second. -/
def clockAt (n : Nat) (h : n < 2 ^ 53) : Clock := ⟨.ofNat n h, .ofNat n h⟩

def sampleStart : AuthRun := AuthRun.start (clockAt 0 (by decide))

def authRun (as : List AuthAction) : AuthRun :=
  (Machine.exec (authStep sampleAuthLib (lit "d")) sampleStart as).getD sampleStart

theorem exec_authRun {as : List AuthAction} {exchanged : List Str}
    (h : (Machine.exec (authStep sampleAuthLib (lit "d")) sampleStart as).map
      (fun s => s.exchanged.map Exchange.params) = some exchanged) :
    Machine.exec (authStep sampleAuthLib (lit "d")) sampleStart as =
        some (authRun as) ∧ (authRun as).exchanged.map Exchange.params = exchanged := by
  obtain ⟨s, hs, hex⟩ := Option.map_eq_some_iff.mp h
  rw [authRun, hs]
  exact ⟨rfl, hex⟩

/-- A response that is handed in again a second later. -/
def handedInTwice : List AuthAction :=
  [.verify (clockAt 1000 (by decide)) sampleParams sampleSignature,
    .openSession (clockAt 1000 (by decide)) 0 (lit "token1"),
    .verify (clockAt 1001 (by decide)) sampleParams sampleSignature,
    .openSession (clockAt 1001 (by decide)) 0 (lit "token2")]

theorem one_session_iff_handedInTwice :
    (authRun handedInTwice).exchanged.map Exchange.params = [sampleParams] ∧
    ((authRun handedInTwice).OncePerParams ↔
      Machine.Along (authStep sampleAuthLib (lit "d")) Remembered sampleStart
        handedInTwice) := by
  have hexec : (Machine.exec (authStep sampleAuthLib (lit "d")) sampleStart
      handedInTwice).map (fun s => s.exchanged.map Exchange.params) = some [sampleParams] := by
    decide +kernel
  obtain ⟨hrun, hex⟩ := exec_authRun hexec
  exact ⟨hex, one_session_iff sampleAuthLib (lit "d") hrun⟩

/-- The same response, handed in under each of its signatures. -/
def twoSignatures : List AuthAction :=
  [.verify (clockAt 1000 (by decide)) sampleParams sampleSignature,
    .openSession (clockAt 1000 (by decide)) 0 (lit "token1"),
    .verify (clockAt 1001 (by decide)) sampleParams otherSignature,
    .openSession (clockAt 1001 (by decide)) 0 (lit "token2")]

/-- The same response under one signature, when its window opens and when it
closes. -/
def windowEnds : List AuthAction :=
  [.verify (clockAt 940 (by decide)) sampleParams sampleSignature,
    .openSession (clockAt 940 (by decide)) 0 (lit "token1"),
    .verify (clockAt 1060 (by decide)) sampleParams sampleSignature,
    .openSession (clockAt 1060 (by decide)) 0 (lit "token2")]

/-- Both runs exchange one params string for two tokens. -/
theorem exchanged_twice :
    (Machine.exec (authStep sampleAuthLib (lit "d")) sampleStart twoSignatures =
        some (authRun twoSignatures) ∧ ¬ (authRun twoSignatures).OncePerParams) ∧
    (Machine.exec (authStep sampleAuthLib (lit "d")) sampleStart windowEnds =
        some (authRun windowEnds) ∧ ¬ (authRun windowEnds).OncePerParams) := by
  have hsig : (Machine.exec (authStep sampleAuthLib (lit "d")) sampleStart
      twoSignatures).map (fun s => s.exchanged.map Exchange.params) =
        some [sampleParams, sampleParams] := by decide +kernel
  have hend : (Machine.exec (authStep sampleAuthLib (lit "d")) sampleStart
      windowEnds).map (fun s => s.exchanged.map Exchange.params) =
        some [sampleParams, sampleParams] := by decide +kernel
  have hdup : ¬ [sampleParams, sampleParams].Nodup := by simp
  refine ⟨⟨(exec_authRun hsig).1, ?_⟩, (exec_authRun hend).1, ?_⟩
  · rw [AuthRun.OncePerParams, (exec_authRun hsig).2]
    exact hdup
  · rw [AuthRun.OncePerParams, (exec_authRun hend).2]
    exact hdup

end Dn42Ctl
