import Mathlib.Data.List.Basic

/-!
# Script

Scripts of statements that take effect one by one, and numbered migrations made
of them.  A statement is a partial function on states, `none` when it fails.

* `Resumable.resume` — a script that was cut short may be run again from the
  start;
* `resume_migrate` — so may a list of migrations that records which of them are
  done.
-/

namespace Script

variable {σ : Type}

def run : List (σ → Option σ) → σ → Option σ
  | [], d => some d
  | s :: ss, d => (s d).bind (run ss)

theorem run_append (ss ts : List (σ → Option σ)) (d : σ) :
    run (ss ++ ts) d = (run ss d).bind (run ts) := by
  induction ss generalizing d with
  | nil => rfl
  | cons s ss ih =>
      rw [List.cons_append, run, run, Option.bind_assoc]
      exact congrArg _ (funext fun d' => ih d')

/-- What each statement preserves, a script preserves. -/
theorem run_invariant {P : σ → Prop} {ss : List (σ → Option σ)}
    (h : ∀ s ∈ ss, ∀ d d', P d → s d = some d' → P d') {d d' : σ} (hd : P d)
    (hrun : run ss d = some d') : P d' := by
  induction ss generalizing d with
  | nil =>
      rw [run, Option.some.injEq] at hrun
      exact hrun ▸ hd
  | cons s ss ih =>
      obtain ⟨mid, hs, hrun⟩ := Option.bind_eq_some_iff.mp hrun
      refine ih (fun t ht => h t (List.mem_cons_of_mem _ ht)) ?_ hrun
      exact h s (List.mem_cons_self ..) d mid hd hs

/-- A script whose statements all have nothing left to do. -/
theorem run_settled {ss : List (σ → Option σ)} {d : σ} (h : ∀ s ∈ ss, s d = some d) :
    run ss d = some d := by
  induction ss with
  | nil => rfl
  | cons s ss ih =>
      rw [run, h s (List.mem_cons_self ..)]
      exact ih fun t ht => h t (List.mem_cons_of_mem _ ht)

/-! ## one script -/

/-- A statement has nothing left to do after it has run, and the later ones of
the script leave it so. -/
structure Resumable (ss : List (σ → Option σ)) : Prop where
  idem : ∀ s ∈ ss, ∀ d d', s d = some d' → s d' = some d'
  keeps : ss.Pairwise fun s t => ∀ d d', s d = some d → t d = some d' → s d' = some d'

namespace Resumable

theorem tail {s : σ → Option σ} {ss : List (σ → Option σ)} (h : Resumable (s :: ss)) :
    Resumable ss :=
  ⟨fun t ht => h.idem t (List.mem_cons_of_mem _ ht), (List.pairwise_cons.mp h.keeps).2⟩

theorem take {ss : List (σ → Option σ)} (h : Resumable ss) (i : Nat) : Resumable (ss.take i) :=
  ⟨fun t ht => h.idem t (List.mem_of_mem_take ht), h.keeps.sublist (List.take_sublist ..)⟩

/-- After a run, every statement is settled. -/
theorem settled {ss : List (σ → Option σ)} (h : Resumable ss) {d d' : σ}
    (hrun : run ss d = some d') : ∀ s ∈ ss, s d' = some d' := by
  induction ss generalizing d with
  | nil => simp
  | cons s ss ih =>
      obtain ⟨mid, hs, hrest⟩ := Option.bind_eq_some_iff.mp hrun
      have hkeeps := (List.pairwise_cons.mp h.keeps).1
      intro t ht
      rcases List.mem_cons.mp ht with rfl | ht
      · have hmid := h.idem t (List.mem_cons_self ..) d mid hs
        exact run_invariant (P := fun w => t w = some w)
          (fun u hu w w' hw hu' => hkeeps u hu w w' hw hu') hmid hrest
      · exact ih h.tail hrest t ht

/-- **A script that was cut short may be run again.** -/
theorem resume {ss : List (σ → Option σ)} (h : Resumable ss) {i : Nat} {d mid : σ}
    (hrun : run (ss.take i) d = some mid) : run ss mid = run ss d := by
  have hagain : run (ss.take i) mid = some mid := run_settled ((h.take i).settled hrun)
  calc run ss mid = run (ss.take i ++ ss.drop i) mid := by rw [List.take_append_drop]
    _ = run (ss.drop i) mid := by rw [run_append, hagain, Option.bind_some]
    _ = run (ss.take i ++ ss.drop i) d := by rw [run_append, hrun, Option.bind_some]
    _ = run ss d := by rw [List.take_append_drop]

end Resumable

/-! ## migrations -/

section Migrations

variable {ν : Type}

/-- Where a state records the migrations that are done. -/
structure Ledger (σ ν : Type) where
  applied : σ → List ν
  mark : ν → σ → Option σ

/-- The statements of a migration: its script, then the mark. -/
def Ledger.block (L : Ledger σ ν) (step : ν × List (σ → Option σ)) : List (σ → Option σ) :=
  step.2 ++ [L.mark step.1]

def Ledger.statements (L : Ledger σ ν) (steps : List (ν × List (σ → Option σ))) :
    List (σ → Option σ) := steps.flatMap L.block

/-- Scripts may be run again and leave the record alone; a mark adds to it. -/
structure Ledger.Lawful (L : Ledger σ ν) (steps : List (ν × List (σ → Option σ))) : Prop where
  marks : ∀ v d d', L.mark v d = some d' → L.applied d' = L.applied d ++ [v]
  keeps : ∀ step ∈ steps, ∀ s ∈ step.2, ∀ d d', s d = some d' → L.applied d' = L.applied d
  resumable : ∀ step ∈ steps, Resumable step.2
  distinct : (steps.map Prod.fst).Nodup

variable {L : Ledger σ ν} {steps : List (ν × List (σ → Option σ))}

theorem Ledger.Lawful.tail {step : ν × List (σ → Option σ)} (h : L.Lawful (step :: steps)) :
    L.Lawful steps where
  marks := h.marks
  keeps s hs := h.keeps s (List.mem_cons_of_mem _ hs)
  resumable s hs := h.resumable s (List.mem_cons_of_mem _ hs)
  distinct := (List.nodup_cons.mp h.distinct).2

theorem Ledger.Lawful.filter (h : L.Lawful steps) (p : ν × List (σ → Option σ) → Bool) :
    L.Lawful (steps.filter p) where
  marks := h.marks
  keeps s hs := h.keeps s (List.mem_of_mem_filter hs)
  resumable s hs := h.resumable s (List.mem_of_mem_filter hs)
  distinct := h.distinct.sublist (List.filter_sublist.map _)

/-- The record only grows. -/
theorem Ledger.Lawful.applied_mono (h : L.Lawful steps) {n : Nat} {d mid : σ}
    (hrun : run ((L.statements steps).take n) d = some mid) {v : ν} (hv : v ∈ L.applied d) :
    v ∈ L.applied mid := by
  refine run_invariant (P := fun w => v ∈ L.applied w) (fun s hs w w' hw hsw => ?_) hv hrun
  obtain ⟨step, hstep, hs⟩ := List.mem_flatMap.mp (List.mem_of_mem_take hs)
  rcases List.mem_append.mp hs with hs | hs
  · rw [h.keeps step hstep s hs w w' hsw]
    exact hw
  · rw [List.mem_singleton.mp hs] at hsw
    rw [h.marks _ _ _ hsw]
    exact List.mem_append_left _ hw

variable [DecidableEq ν]

/-- The migrations that are not done. -/
def Ledger.pending (L : Ledger σ ν) (steps : List (ν × List (σ → Option σ))) (d : σ) :
    List (ν × List (σ → Option σ)) :=
  steps.filter fun step => decide (step.1 ∉ L.applied d)

theorem pending_eq_self {d : σ} (h : ∀ step ∈ steps, step.1 ∉ L.applied d) :
    L.pending steps d = steps :=
  List.filter_eq_self.mpr fun step hstep => decide_eq_true (h step hstep)

theorem pending_cons_done {d : σ} {step : ν × List (σ → Option σ)}
    (h : step.1 ∈ L.applied d) : L.pending (step :: steps) d = L.pending steps d := by
  rw [Ledger.pending, List.filter_cons_of_neg (by simpa using h)]
  rfl

/-- **Migrations that were cut short may be run again**: what is left to do from
where they stopped leads to where they would have led. -/
theorem resume_steps (h : L.Lawful steps) {n : Nat} {d mid : σ}
    (hnew : ∀ step ∈ steps, step.1 ∉ L.applied d)
    (hrun : run ((L.statements steps).take n) d = some mid) :
    run (L.statements (L.pending steps mid)) mid = run (L.statements steps) d := by
  induction steps generalizing n d with
  | nil =>
      rw [Ledger.statements, List.flatMap_nil, List.take_nil, run, Option.some.injEq] at hrun
      rw [hrun]
      rfl
  | cons step steps ih =>
      obtain ⟨v, script⟩ := step
      have hsplit : L.statements ((v, script) :: steps) =
          script ++ (L.mark v :: L.statements steps) := by
        rw [Ledger.statements, List.flatMap_cons, Ledger.block, List.append_assoc]
        rfl
      rw [hsplit] at hrun
      have hkeeps := h.keeps _ (List.mem_cons_self ..)
      by_cases hn : n ≤ script.length
      · -- the script was cut short: the record is as it was, and all of it is run again
        rw [List.take_append_of_le_length hn] at hrun
        have happlied : L.applied mid = L.applied d :=
          run_invariant (P := fun w => L.applied w = L.applied d)
            (fun s hs w w' hw hsw => (hkeeps s (List.mem_of_mem_take hs) w w' hsw).trans hw)
            rfl hrun
        rw [pending_eq_self (happlied ▸ hnew), hsplit, run_append, run_append,
          (h.resumable _ (List.mem_cons_self ..)).resume hrun]
      · -- the migration is done, and skipped
        obtain ⟨k, rfl⟩ : ∃ k, n = script.length + 1 + k := ⟨n - (script.length + 1), by omega⟩
        have htake : (script ++ (L.mark v :: L.statements steps)).take (script.length + 1 + k) =
            script ++ (L.mark v :: (L.statements steps).take k) := by
          rw [Nat.add_assoc, List.take_length_add_append, Nat.add_comm 1 k, List.take_succ_cons]
        rw [htake, run_append] at hrun
        obtain ⟨d1, h1, hrun⟩ := Option.bind_eq_some_iff.mp hrun
        obtain ⟨d2, h2, hrun⟩ := Option.bind_eq_some_iff.mp hrun
        have happlied : L.applied d2 = L.applied d ++ [v] := by
          rw [h.marks v d1 d2 h2]
          exact congrArg (· ++ [v]) (run_invariant (P := fun w => L.applied w = L.applied d)
            (fun s hs w w' hw hsw => (hkeeps s hs w w' hsw).trans hw) rfl h1)
        have hv : v ∈ L.applied mid :=
          h.tail.applied_mono hrun (by rw [happlied]; exact List.mem_append_right _ (by simp))
        have hnew2 : ∀ step ∈ steps, step.1 ∉ L.applied d2 := by
          intro step hstep hmem
          rw [happlied] at hmem
          rcases List.mem_append.mp hmem with hmem | hmem
          · exact hnew step (List.mem_cons_of_mem _ hstep) hmem
          · have hdup := (List.nodup_cons.mp h.distinct).1
            exact hdup (List.mem_map.mpr ⟨step, hstep, by simpa using hmem⟩)
        rw [pending_cons_done hv, ih h.tail hnew2 hrun, hsplit, run_append, h1, Option.bind_some,
          run, h2, Option.bind_some]

/-! ## with the record's own table -/

/-- `init` makes room for the record; then what is not done is run. -/
def Ledger.migrate (L : Ledger σ ν) (init : σ → Option σ)
    (steps : List (ν × List (σ → Option σ))) (d : σ) : Option σ :=
  (init d).bind fun d => run (L.statements (L.pending steps d)) d

/-- The state after a crash: the first `n` statements have taken effect. -/
def Ledger.crash (L : Ledger σ ν) (init : σ → Option σ)
    (steps : List (ν × List (σ → Option σ))) (n : Nat) (d : σ) : Option σ :=
  run ((init :: L.statements (L.pending steps d)).take n) d

/-- `init` leaves the record alone and has nothing to do once it has run. -/
structure Ledger.Init (L : Ledger σ ν) (init : σ → Option σ)
    (steps : List (ν × List (σ → Option σ))) : Prop where
  applied : ∀ d d', init d = some d' → L.applied d' = L.applied d
  idem : ∀ d d', init d = some d' → init d' = some d'
  keeps : ∀ s ∈ L.statements steps, ∀ d d', init d = some d → s d = some d' → init d' = some d'

theorem pending_pending {d mid : σ} (h : ∀ v ∈ L.applied d, v ∈ L.applied mid) :
    L.pending (L.pending steps d) mid = L.pending steps mid := by
  rw [Ledger.pending, Ledger.pending, Ledger.pending, List.filter_filter]
  refine List.filter_congr fun step _ => ?_
  by_cases hmid : step.1 ∈ L.applied mid
  · simp [hmid]
  · have hd : step.1 ∉ L.applied d := fun hd => hmid (h _ hd)
    simp [hmid, hd]

/-- **A crash is survived.** -/
theorem resume_migrate {init : σ → Option σ} (h : L.Lawful steps) (hinit : L.Init init steps)
    {n : Nat} {d mid : σ} (hcrash : L.crash init steps n d = some mid) :
    L.migrate init steps mid = L.migrate init steps d := by
  cases n with
  | zero =>
      rw [Ledger.crash, List.take_zero, run, Option.some.injEq] at hcrash
      rw [hcrash]
  | succ n =>
      rw [Ledger.crash, List.take_succ_cons] at hcrash
      obtain ⟨d1, h1, hrun⟩ := Option.bind_eq_some_iff.mp hcrash
      have happlied : L.applied d1 = L.applied d := hinit.applied d d1 h1
      have hpending : L.pending steps d1 = L.pending steps d := by
        rw [Ledger.pending, Ledger.pending, happlied]
      have hmid : init mid = some mid := by
        refine run_invariant (P := fun w => init w = some w) (fun s hs w w' hw hsw => ?_)
          (hinit.idem d d1 h1) hrun
        obtain ⟨step, hstep, hs⟩ := List.mem_flatMap.mp (List.mem_of_mem_take hs)
        exact hinit.keeps s (List.mem_flatMap.mpr ⟨step, List.mem_of_mem_filter hstep, hs⟩) w w'
          hw hsw
      have hnew : ∀ step ∈ L.pending steps d, step.1 ∉ L.applied d1 := by
        intro step hstep
        rw [happlied]
        simpa using List.of_mem_filter hstep
      have hlawful : L.Lawful (L.pending steps d) := h.filter _
      have hmono : ∀ v ∈ L.applied d, v ∈ L.applied mid :=
        fun v hv => hlawful.applied_mono hrun (happlied ▸ hv)
      rw [Ledger.migrate, Ledger.migrate, hmid, h1, Option.bind_some, Option.bind_some, hpending,
        ← pending_pending hmono]
      exact resume_steps hlawful hnew hrun

end Migrations

end Script
