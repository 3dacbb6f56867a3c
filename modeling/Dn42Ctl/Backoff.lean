import Dn42Ctl.Schema
import Dn42Ctl.Lib.Double
import Dn42Ctl.Lib.Machine

/-!
# Backoff

`node_ws_agent.py`: how long the agent of a node waits before it connects again.
The wait is drawn from `[0, min(cap, base * 2**attempt]`, and the counter of
attempts grows as long as the hub is down.  `2**attempt` is an integer that
Python converts to a double before it multiplies, and that conversion is the
one step that can raise.

* `nextDelay` — `_next_delay`;
* `agentStep` — one round of the loop of `run_agent`;
* `agent_retries_iff` — which waits are computed, and which outages survived.
-/

namespace Dn42Ctl

open Text

/-! ## one wait -/

/-- The options the loop uses, as `load_node_config` accepts them. -/
structure AgentOptions where
  reconnectInitialSeconds : PosDouble := .one
  reconnectMaxSeconds : PosDouble := .ofNat 60 (by omega) (by decide)
  authRetrySeconds : PosDouble := .ofNat 300 (by omega) (by decide)

/-- `AUTH_FATAL_CLOSE_CODES`. -/
def authFatalCloseCodes : List Int := [4003, 4004, 4008, 4401, 4403, 4404]

/-- `rng.uniform(0, ceiling)`, which lies between its arguments. -/
structure Rng where
  uniform : PosDouble → ℚ
  bounds : ∀ ceiling, 0 ≤ uniform ceiling ∧ uniform ceiling ≤ ceiling.value

/-- `min(reconnect_max_seconds, reconnect_initial_seconds * (2**attempt))`. -/
def reconnectCeiling (settings : AgentOptions) (attempt : Nat) : Except PyError PosDouble :=
  match PosDouble.one.scale attempt with
  | none => .error ⟨.overflowError, [.text (lit "int too large to convert to float")]⟩
  | some _ =>
      match settings.reconnectInitialSeconds.scale attempt with
      | none => .ok settings.reconnectMaxSeconds
      | some product =>
          if product.value < settings.reconnectMaxSeconds.value then .ok product
          else .ok settings.reconnectMaxSeconds

def isAuthFatal (closeCode : Option Int) : Bool := closeCode.any authFatalCloseCodes.contains

/-- `_next_delay`: the wait, and the counter after it. -/
def nextDelay (settings : AgentOptions) (attempt : Nat) (closeCode : Option Int) (rng : Rng) :
    Except PyError (ℚ × Nat) :=
  if isAuthFatal closeCode then .ok (settings.authRetrySeconds.value, 0)
  else (reconnectCeiling settings attempt).map fun ceiling => (rng.uniform ceiling, attempt + 1)

/-- The ceiling, where the power of two can be converted. -/
theorem reconnectCeiling_ok {settings : AgentOptions} {attempt : Nat} (h : attempt < 1024) :
    ∃ ceiling, reconnectCeiling settings attempt = .ok ceiling ∧
      ceiling.value = min settings.reconnectMaxSeconds.value
        (settings.reconnectInitialSeconds.value * 2 ^ attempt) := by
  obtain ⟨power, hpower⟩ :=
    Option.isSome_iff_exists.mp (PosDouble.one_scale_isSome_iff.mpr h)
  rw [reconnectCeiling, hpower]
  dsimp only
  cases hproduct : settings.reconnectInitialSeconds.scale attempt with
  | none =>
      -- the product is infinite, so the other argument is the smaller one
      have hlarge : ¬ settings.reconnectInitialSeconds.value * 2 ^ attempt < 2 ^ 1024 := by
        rw [← PosDouble.scale_isSome_iff, hproduct]
        decide
      refine ⟨_, rfl, (min_eq_left ?_).symm⟩
      exact settings.reconnectMaxSeconds.value_lt.le.trans (not_lt.mp hlarge)
  | some product =>
      rw [← PosDouble.value_scale hproduct]
      by_cases hlt : product.value < settings.reconnectMaxSeconds.value
      · exact ⟨product, if_pos hlt, (min_eq_right hlt.le).symm⟩
      · exact ⟨_, if_neg hlt, (min_eq_left (not_lt.mp hlt)).symm⟩

theorem reconnectCeiling_error {settings : AgentOptions} {attempt : Nat} (h : 1024 ≤ attempt) :
    ∃ e, reconnectCeiling settings attempt = .error e ∧ e.cls = .overflowError := by
  have hnone : PosDouble.one.scale attempt = none := by
    rw [← Option.not_isSome_iff_eq_none, PosDouble.one_scale_isSome_iff]
    omega
  rw [reconnectCeiling, hnone]
  exact ⟨_, rfl, rfl⟩

/-- A wait is computed, and is within its bounds. -/
def DelayBounded (settings : AgentOptions) (attempt : Nat) (closeCode : Option Int) (rng : Rng) :
    Prop :=
  ∃ delay next, nextDelay settings attempt closeCode rng = .ok (delay, next) ∧
    if isAuthFatal closeCode then delay = settings.authRetrySeconds.value ∧ next = 0
    else 0 ≤ delay ∧ delay ≤ min settings.reconnectMaxSeconds.value
      (settings.reconnectInitialSeconds.value * 2 ^ attempt) ∧ next = attempt + 1

theorem delayBounded_iff (settings : AgentOptions) (attempt : Nat) (closeCode : Option Int)
    (rng : Rng) :
    DelayBounded settings attempt closeCode rng ↔
      attempt < 1024 ∨ isAuthFatal closeCode = true := by
  rw [DelayBounded, nextDelay]
  cases hfatal : isAuthFatal closeCode with
  | true => exact ⟨fun _ => .inr rfl, fun _ => ⟨_, _, rfl, rfl, rfl⟩⟩
  | false =>
      simp only [Bool.false_eq_true, if_false, or_false]
      by_cases hsmall : attempt < 1024
      · obtain ⟨ceiling, hceiling, hvalue⟩ :=
          @reconnectCeiling_ok settings attempt hsmall
        obtain ⟨hnonneg, hle⟩ := rng.bounds ceiling
        rw [hceiling]
        exact ⟨fun _ => hsmall, fun _ => ⟨_, _, rfl, hnonneg, hvalue ▸ hle, rfl⟩⟩
      · obtain ⟨e, herror, -⟩ := @reconnectCeiling_error settings attempt (not_lt.mp hsmall)
        rw [herror]
        constructor
        · rintro ⟨delay, next, hok, -⟩
          cases hok
        · exact fun h => absurd h hsmall

/-! ## the loop -/

/-- How a round of the loop ends before it waits: no connection at all, or a
session with its close code. -/
inductive RoundEnd where
  | refused
  | closed (closeCode : Option Int)
deriving DecidableEq, Repr

/-- A round: the options are read again each time. -/
structure AgentRound where
  settings : AgentOptions
  ending : RoundEnd
  rng : Rng

/-- One round of `run_agent`, from the counter to the counter; `none` when the
exception of `_next_delay` ends the agent. -/
def agentStep (attempt : Nat) (round : AgentRound) : Option Nat :=
  match round.ending with
  | .refused => (nextDelay round.settings attempt none round.rng).toOption.map Prod.snd
  | .closed closeCode => (nextDelay round.settings 0 closeCode round.rng).toOption.map Prod.snd

theorem agentStep_refused {attempt : Nat} {round : AgentRound} (h : round.ending = .refused) :
    agentStep attempt round = if attempt < 1024 then some (attempt + 1) else none := by
  have hnext : nextDelay round.settings attempt none round.rng =
      (reconnectCeiling round.settings attempt).map fun ceiling =>
        (round.rng.uniform ceiling, attempt + 1) := rfl
  rw [agentStep, h]
  dsimp only
  rw [hnext]
  by_cases hsmall : attempt < 1024
  · obtain ⟨ceiling, hceiling, -⟩ := @reconnectCeiling_ok round.settings attempt hsmall
    rw [hceiling, if_pos hsmall]
    rfl
  · obtain ⟨e, herror, -⟩ := @reconnectCeiling_error round.settings attempt (not_lt.mp hsmall)
    rw [herror, if_neg hsmall]
    rfl

/-- An outage: every round is refused. -/
theorem outage {attempt : Nat} {rounds : List AgentRound}
    (h : ∀ r ∈ rounds, r.ending = .refused) (hattempt : attempt ≤ 1024) :
    (Machine.exec agentStep attempt rounds).isSome ↔ attempt + rounds.length ≤ 1024 := by
  induction rounds generalizing attempt with
  | nil => simpa using hattempt
  | cons r rs ih =>
      rw [Machine.exec_cons, agentStep_refused (h r (List.mem_cons_self ..)), List.length_cons]
      by_cases hsmall : attempt < 1024
      · rw [if_pos hsmall, Option.bind_some,
          ih (fun x hx => h x (List.mem_cons_of_mem _ hx)) hsmall]
        omega
      · rw [if_neg hsmall]
        simp only [Option.bind_none, Option.isSome_none, Bool.false_eq_true, false_iff]
        omega

/-- **The backoff**: a wait within its bounds is computed exactly for the first
1024 attempts or an auth-fatal close code, and the agent survives an outage
exactly when no more than 1024 attempts in a row are refused. -/
theorem agent_retries_iff (settings : AgentOptions) (attempt : Nat) (closeCode : Option Int)
    (rng : Rng) (rounds : List AgentRound) :
    (DelayBounded settings attempt closeCode rng ↔
      attempt < 1024 ∨ isAuthFatal closeCode = true) ∧
    ((∀ r ∈ rounds, r.ending = .refused) →
      ((Machine.exec agentStep 0 rounds).isSome ↔ rounds.length ≤ 1024)) := by
  refine ⟨delayBounded_iff settings attempt closeCode rng, fun hrefused => ?_⟩
  have hends := outage hrefused (Nat.zero_le 1024)
  simpa using hends

/-- A generator that always draws the lower end. -/
def zeroRng : Rng where
  uniform := fun _ => 0
  bounds := fun ceiling => ⟨le_rfl, ceiling.value_pos.le⟩

def refusedRound : AgentRound := ⟨{}, .refused, zeroRng⟩

theorem agent_retries_three :
    (∀ r ∈ List.replicate 3 refusedRound, r.ending = .refused) ∧
      (Machine.exec agentStep 0 (List.replicate 3 refusedRound)).isSome = true := by
  have hrefused : ∀ r ∈ List.replicate 3 refusedRound, r.ending = .refused := by
    intro r hr
    rw [List.eq_of_mem_replicate hr]
    rfl
  exact ⟨hrefused, ((agent_retries_iff {} 0 none zeroRng _).2 hrefused).mpr (by decide)⟩

/-- With the default options, the 1025th attempt in a row raises and the outage
ends the agent. -/
theorem attempt_1024_raises :
    ¬ DelayBounded {} 1024 none zeroRng ∧
      Machine.exec agentStep 0 (List.replicate 1025 refusedRound) = none := by
  constructor
  · rw [delayBounded_iff]
    decide
  · have hrefused : ∀ r ∈ List.replicate 1025 refusedRound, r.ending = .refused := by
      intro r hr
      rw [List.eq_of_mem_replicate hr]
      rfl
    have hends := outage hrefused (Nat.zero_le 1024)
    rw [List.length_replicate] at hends
    rw [← Option.not_isSome_iff_eq_none, hends]
    decide

end Dn42Ctl
