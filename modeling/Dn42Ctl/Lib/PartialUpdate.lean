import Dn42Ctl.Lib.Machine

/-!
# PartialUpdate

Two callers that each read a record, check something, and write the whole
record back: the fields a caller was asked to change with their new values, the
others with the values it has read.  Their steps interleave.

`kept_iff` is the law of lost updates: what one caller changed and the other was
asked to keep survives exactly when, at each write, the fields its caller keeps
still have the values it has read.
-/

namespace PartialUpdate

variable {σ τ κ φ : Type} {β : φ → Type}

/-- The three steps of either caller over a shared state: read (`none` when it
raises), check, and write (`false` when it raises). -/
structure Race (σ τ κ : Type) where
  read : Bool → σ → Option τ × σ
  check : Bool → τ → σ → Option κ × σ
  write : Bool → τ → κ → σ → Bool × σ

inductive Stage (τ κ : Type) where
  | start
  | read (found : τ)
  | checked (found : τ) (k : κ)
  | returned
  | raised
deriving DecidableEq

structure State (σ τ κ : Type) where
  shared : σ
  stage : Bool → Stage τ κ

def State.start (s : σ) : State σ τ κ := ⟨s, fun _ => .start⟩

/-- The stage of one caller changes. -/
def State.set (s : State σ τ κ) (c : Bool) (shared : σ) (stage : Stage τ κ) : State σ τ κ :=
  ⟨shared, fun d => if d = c then stage else s.stage d⟩

/-- Caller `c` takes its next step. -/
def step (R : Race σ τ κ) (s : State σ τ κ) (c : Bool) : Option (State σ τ κ) :=
  match s.stage c with
  | .start =>
      some (s.set c (R.read c s.shared).2 (match (R.read c s.shared).1 with
        | some found => .read found
        | none => .raised))
  | .read found =>
      some (s.set c (R.check c found s.shared).2 (match (R.check c found s.shared).1 with
        | some k => .checked found k
        | none => .raised))
  | .checked found k =>
      some (s.set c (R.write c found k s.shared).2
        (if (R.write c found k s.shared).1 then .returned else .raised))
  | .returned | .raised => none

/-- The fields of the record: in the shared state, in what a caller has read,
and as a caller was asked to change them. -/
structure Fields (σ τ : Type) (β : φ → Type) where
  stored : σ → Option (∀ f, β f)
  found : τ → ∀ f, β f
  asked : Bool → ∀ f, Option (β f)

/-- What a caller writes. -/
def Fields.merged (F : Fields σ τ β) (c : Bool) (old : ∀ f, β f) : ∀ f, β f :=
  fun f => (F.asked c f).getD (old f)

/-- The steps read, keep and merge the fields; `Checks` is what a check has
established. -/
structure Lawful (R : Race σ τ κ) (F : Fields σ τ β) (Checks : Bool → τ → κ → Prop) : Prop where
  read_keeps : ∀ c s, F.stored (R.read c s).2 = F.stored s
  read_found : ∀ c s t, (R.read c s).1 = some t → F.stored s = some (F.found t)
  check_keeps : ∀ c t s, F.stored (R.check c t s).2 = F.stored s
  check_checks : ∀ c s t s' k, (R.read c s).1 = some t → (R.check c t s').1 = some k →
    Checks c t k
  write_merges : ∀ c t k s, Checks c t k → (R.write c t k s).1 = true →
    F.stored (R.write c t k s).2 = some (F.merged c (F.found t))
  write_raises : ∀ c t k s, (R.write c t k s).1 = false → F.stored (R.write c t k s).2 = F.stored s

/-- Every field that one caller changed and the other was asked to keep has the
value the first one wrote. -/
def Kept (F : Fields σ τ β) (s : State σ τ κ) : Prop :=
  ∃ stored, F.stored s.shared = some stored ∧
    ∀ c f v, F.asked c f = some v → F.asked (!c) f = none → stored f = v

/-- When a caller writes, the fields it keeps have the values it has read. -/
def Unchanged (F : Fields σ τ β) (s : State σ τ κ) (c : Bool) : Prop :=
  ∀ t k, s.stage c = .checked t k → ∀ stored, F.stored s.shared = some stored →
    ∀ f, F.asked c f = none → stored f = F.found t f

/-! ## where a run stands -/

/-- What a caller that has not written has read. -/
def Stage.found? : Stage τ κ → Option τ
  | .read t | .checked t _ => some t
  | _ => none

/-- Neither caller has written. -/
structure Before (F : Fields σ τ β) (old : Option (∀ f, β f)) (s : State σ τ κ) : Prop where
  waiting : ∀ c, s.stage c ≠ .returned
  stored : F.stored s.shared = old
  read : ∀ c t, (s.stage c).found? = some t → old = some (F.found t)

/-- Caller `c` has written, the other one has not: what the other has read is
the old record or the new one. -/
structure Between (F : Fields σ τ β) (old : Option (∀ f, β f)) (c : Bool) (s : State σ τ κ) :
    Prop where
  wrote : s.stage c = .returned
  waiting : s.stage (!c) ≠ .returned
  stored : ∃ r, old = some r ∧ F.stored s.shared = some (F.merged c r)
  read : ∀ t, (s.stage (!c)).found? = some t →
    old = some (F.found t) ∨ F.stored s.shared = some (F.found t)

def BothReturned (s : State σ τ κ) : Prop := ∀ c, s.stage c = .returned

/-- **A step**: a call reads, raises, or writes what it has read. -/
theorem step_cases {R : Race σ τ κ} {s s' : State σ τ κ} {c : Bool} (h : step R s c = some s') :
    (s.stage c = .start ∧ ∃ stage, s' = s.set c (R.read c s.shared).2 stage ∧
        (∀ t, stage.found? = some t → (R.read c s.shared).1 = some t) ∧
        stage ≠ .returned ∧ ∀ t k, stage ≠ .checked t k) ∨
      (∃ t, s.stage c = .read t ∧ ∃ stage, s' = s.set c (R.check c t s.shared).2 stage ∧
        stage ≠ .returned ∧ (∀ t', stage.found? = some t' → t' = t) ∧
        ∀ t' k, stage = .checked t' k → t' = t ∧ (R.check c t s.shared).1 = some k) ∨
      (∃ t k, s.stage c = .checked t k ∧
        ((R.write c t k s.shared).1 = true ∧ s' = s.set c (R.write c t k s.shared).2 .returned ∨
          (R.write c t k s.shared).1 = false ∧
            s' = s.set c (R.write c t k s.shared).2 .raised)) := by
  rw [step] at h
  cases hs : s.stage c with
  | start =>
      simp only [hs, Option.some.injEq] at h
      refine .inl ⟨rfl, _, h.symm, ?_, ?_, ?_⟩
      · intro t ht
        cases hr : (R.read c s.shared).1 with
        | none => simp [hr, Stage.found?] at ht
        | some found => simpa [hr, Stage.found?] using ht
      · cases (R.read c s.shared).1 <;> simp
      · cases (R.read c s.shared).1 <;> simp
  | read t =>
      simp only [hs, Option.some.injEq] at h
      refine .inr (.inl ⟨t, rfl, _, h.symm, ?_, ?_, ?_⟩)
      · cases (R.check c t s.shared).1 <;> simp
      · intro t' ht
        cases hr : (R.check c t s.shared).1 with
        | none => simp [hr, Stage.found?] at ht
        | some k => simpa [hr, Stage.found?] using ht.symm
      · intro t' k' ht
        cases hr : (R.check c t s.shared).1 with
        | none => simp [hr] at ht
        | some k =>
            rw [hr, Stage.checked.injEq] at ht
            exact ⟨ht.1.symm, by rw [ht.2]⟩
  | checked t k =>
      simp only [hs, Option.some.injEq] at h
      refine .inr (.inr ⟨t, k, rfl, ?_⟩)
      cases hw : (R.write c t k s.shared).1 with
      | true => exact .inl ⟨rfl, by simpa [hw] using h.symm⟩
      | false => exact .inr ⟨rfl, by simpa [hw] using h.symm⟩
  | returned => simp [hs] at h
  | raised => simp [hs] at h

@[simp] theorem set_shared (s : State σ τ κ) (c : Bool) (x : σ) (st : Stage τ κ) :
    (s.set c x st).shared = x := rfl

@[simp] theorem set_stage_self (s : State σ τ κ) (c : Bool) (x : σ) (st : Stage τ κ) :
    (s.set c x st).stage c = st := by simp [State.set]

@[simp] theorem set_stage_other (s : State σ τ κ) (c : Bool) (x : σ) (st : Stage τ κ) :
    (s.set c x st).stage (!c) = s.stage (!c) := by simp [State.set]

/-! ## one step -/

section Steps

variable {R : Race σ τ κ} {F : Fields σ τ β} {Checks : Bool → τ → κ → Prop}
  {old : Option (∀ f, β f)} {s s' : State σ τ κ}

/-- Callers check what they have read and write what their checks have passed. -/
structure Checked (R : Race σ τ κ) (Checks : Bool → τ → κ → Prop) (s : State σ τ κ) : Prop where
  read : ∀ c t, s.stage c = .read t → ∃ x, (R.read c x).1 = some t
  checked : ∀ c t k, s.stage c = .checked t k → Checks c t k

/-- What a call has read passed the check when it read. -/
theorem checked_step (hL : Lawful R F Checks) (h : Checked R Checks s) {c : Bool}
    (hs : step R s c = some s') : Checked R Checks s' := by
  have hset : ∀ x st, (∀ t, st = .read t → ∃ x, (R.read c x).1 = some t) →
      (∀ t k, st = .checked t k → Checks c t k) → Checked R Checks (s.set c x st) := by
    intro x st hread hst
    refine ⟨fun d t hd => ?_, fun d t k hd => ?_⟩
    · by_cases hdc : d = c
      · rw [hdc, set_stage_self] at hd
        exact hdc ▸ hread t hd
      · simp only [State.set, if_neg hdc] at hd
        exact h.read d t hd
    · by_cases hdc : d = c
      · rw [hdc, set_stage_self] at hd
        exact hdc ▸ hst t k hd
      · simp only [State.set, if_neg hdc] at hd
        exact h.checked d t k hd
  rcases step_cases hs with ⟨-, st, rfl, hread, -, hne⟩ | ⟨t, hst, st, rfl, -, hnot, hchk⟩ |
    ⟨t, k, -, hwrite⟩
  · refine hset _ _ (fun t hst => ⟨s.shared, hread t ?_⟩) fun t k hst => absurd hst (hne t k)
    rw [hst]
    rfl
  · refine hset _ _ (fun t' hst' => ?_) fun t' k hst' => ?_
    · obtain rfl := hnot t' (by rw [hst']; rfl)
      exact h.read c t' hst
    · obtain ⟨rfl, hk⟩ := hchk t' k hst'
      obtain ⟨x, hx⟩ := h.read c t' hst
      exact hL.check_checks c x t' s.shared k hx hk
  · rcases hwrite with ⟨-, rfl⟩ | ⟨-, rfl⟩
    · exact hset _ _ (fun t hst => by cases hst) fun t k hst => by cases hst
    · exact hset _ _ (fun t hst => by cases hst) fun t k hst => by cases hst

theorem found?_set {c d : Bool} {x : σ} {st : Stage τ κ} {t : τ}
    (h : ((s.set c x st).stage d).found? = some t) :
    d = c ∧ st.found? = some t ∨ d ≠ c ∧ (s.stage d).found? = some t := by
  by_cases hd : d = c
  · rw [hd, set_stage_self] at h
    exact .inl ⟨hd, h⟩
  · simp only [State.set, if_neg hd] at h
    exact .inr ⟨hd, h⟩

/-- Before either has written, neither field has changed. -/
theorem Before.unchanged (h : Before F old s) (c : Bool) : Unchanged F s c := by
  intro t k hst stored hstored f _
  have hold : old = some (F.found t) := h.read c t (by rw [hst]; rfl)
  rw [h.stored, hold, Option.some.injEq] at hstored
  rw [← hstored]

/-- A step that does not write. -/
theorem Before.keep (h : Before F old s) {c : Bool} {x : σ} {st : Stage τ κ}
    (hx : F.stored x = F.stored s.shared) (hst : st ≠ .returned)
    (hfound : ∀ t, st.found? = some t → old = some (F.found t)) :
    Before F old (s.set c x st) where
  waiting d := by
    by_cases hd : d = c
    · rw [hd, set_stage_self]
      exact hst
    · simp only [State.set, if_neg hd]
      exact h.waiting d
  stored := hx.trans h.stored
  read d t ht := by
    rcases found?_set ht with ⟨-, ht⟩ | ⟨-, ht⟩
    · exact hfound t ht
    · exact h.read d t ht

/-- A step before either has written. -/
theorem before_step (hL : Lawful R F Checks) (hchk : Checked R Checks s) (h : Before F old s)
    {c : Bool} (hs : step R s c = some s') : Before F old s' ∨ Between F old c s' := by
  rcases step_cases hs with ⟨-, st, rfl, hread, hne, -⟩ | ⟨t, hst, st, rfl, hne, hsame, -⟩ |
    ⟨t, k, hst, hwrite⟩
  · refine .inl (h.keep (hL.read_keeps ..) hne fun t ht => ?_)
    rw [← h.stored]
    exact hL.read_found c s.shared t (hread t ht)
  · refine .inl (h.keep (hL.check_keeps ..) hne fun t' ht => ?_)
    rw [hsame t' ht]
    exact h.read c t (by rw [hst]; rfl)
  · have hold : old = some (F.found t) := h.read c t (by rw [hst]; rfl)
    rcases hwrite with ⟨hok, rfl⟩ | ⟨hraise, rfl⟩
    · have hmerged := hL.write_merges c t k _ (hchk.checked c t k hst) hok
      refine .inr ⟨set_stage_self .., ?_, ⟨F.found t, hold, hmerged⟩, ?_⟩
      · rw [set_stage_other]
        exact h.waiting _
      · intro t' ht
        rw [set_stage_other] at ht
        exact .inl (h.read _ t' ht)
    · refine .inl (h.keep (hL.write_raises c t k _ hraise) (by simp) fun t' ht => ?_)
      simp [Stage.found?] at ht

/-- The other caller moves on without writing. -/
theorem Between.keep {c : Bool} (h : Between F old c s) {x : σ} {st : Stage τ κ}
    (hx : F.stored x = F.stored s.shared) (hst : st ≠ .returned)
    (hfound : ∀ t, st.found? = some t →
      old = some (F.found t) ∨ F.stored s.shared = some (F.found t)) :
    Between F old c (s.set (!c) x st) where
  wrote := by
    have hne : c ≠ !c := by cases c <;> simp
    simp only [State.set, if_neg hne]
    exact h.wrote
  waiting := by
    rw [set_stage_self]
    exact hst
  stored := by
    obtain ⟨r, hr, hstored⟩ := h.stored
    exact ⟨r, hr, hx.trans hstored⟩
  read t ht := by
    rw [set_stage_self] at ht
    rw [set_shared, hx]
    exact hfound t ht

/-- The last write: what the first caller changed survives exactly when the
fields the last one keeps are those it has read. -/
theorem Between.kept_iff {c : Bool} (h : Between F old c s) {t : τ} {k : κ}
    (hst : s.stage (!c) = .checked t k) {x : σ}
    (hx : F.stored x = some (F.merged (!c) (F.found t))) :
    Kept F (s.set (!c) x (.returned : Stage τ κ)) ↔ Unchanged F s (!c) := by
  obtain ⟨r, hold, hstored⟩ := h.stored
  have hread := h.read t (by rw [hst]; rfl)
  rw [hold, hstored, Option.some.injEq, Option.some.injEq] at hread
  constructor
  · rintro ⟨final, hfinal, hkept⟩ t' k' hst' stored hs f hf
    rw [hst, Stage.checked.injEq] at hst'
    obtain ⟨rfl, rfl⟩ := hst'
    rw [hstored, Option.some.injEq] at hs
    rw [set_shared, hx, Option.some.injEq] at hfinal
    rw [← hs, Fields.merged]
    cases hask : F.asked c f with
    | some v =>
        have hv := hkept c f v hask hf
        rw [← hfinal, Fields.merged, hf] at hv
        exact hv.symm
    | none =>
        -- neither caller was asked to change the field
        rcases hread with hread | hread
        · rw [hread]
          rfl
        · rw [← hread, Fields.merged, hask]
  · intro hun
    refine ⟨_, hx, fun d f v hask hkeep => ?_⟩
    by_cases hd : d = c
    · subst hd
      have hf := hun t k hst _ hstored f hkeep
      rw [Fields.merged, hask] at hf
      rw [Fields.merged, hkeep]
      exact hf.symm
    · have hdc : d = !c := by cases d <;> cases c <;> simp_all
      rw [← hdc, Fields.merged, hask]
      rfl

/-- A step between the two writes. -/
theorem between_step (hL : Lawful R F Checks) (hchk : Checked R Checks s) {c d : Bool}
    (h : Between F old c s) (hs : step R s d = some s') :
    Between F old c s' ∧ Unchanged F s d ∨ BothReturned s' ∧ (Kept F s' ↔ Unchanged F s d) ∨
      s'.stage d = .raised := by
  have hd : d = !c := by
    by_cases hdc : d = c
    · rw [step, hdc, h.wrote] at hs
      simp at hs
    · cases d <;> cases c <;> simp_all
  subst hd
  have hidle : ∀ st, s.stage (!c) = st → (∀ t k, st ≠ .checked t k) → Unchanged F s (!c) := by
    intro st hst hne t k hst'
    exact absurd (hst.symm.trans hst') (hne t k)
  rcases step_cases hs with ⟨hst, st, rfl, hread, hne, -⟩ | ⟨t, hst, st, rfl, hne, hsame, -⟩ |
    ⟨t, k, hst, hwrite⟩
  · refine .inl ⟨h.keep (hL.read_keeps ..) hne fun t ht => .inr ?_, hidle _ hst (by simp)⟩
    exact hL.read_found _ s.shared t (hread t ht)
  · refine .inl ⟨h.keep (hL.check_keeps ..) hne fun t' ht => ?_, hidle _ hst (by simp)⟩
    rw [hsame t' ht]
    exact h.read t (by rw [hst]; rfl)
  · rcases hwrite with ⟨hok, rfl⟩ | ⟨-, rfl⟩
    · refine .inr (.inl ⟨fun d => ?_,
        h.kept_iff hst (hL.write_merges _ t k _ (hchk.checked _ t k hst) hok)⟩)
      by_cases hd : d = !c
      · rw [hd, set_stage_self]
      · have hdc : d = c := by cases d <;> cases c <;> simp_all
        simp only [State.set, if_neg hd]
        rw [hdc]
        exact h.wrote
    · exact .inr (.inr (set_stage_self ..))

/-! ## runs -/

/-- A call that raised is over. -/
theorem raised_stays {t : State σ τ κ} {as : List Bool} (h : Machine.exec (step R) s as = some t)
    {c : Bool} (hc : s.stage c = .raised) : t.stage c = .raised := by
  induction as generalizing s with
  | nil =>
      rw [Machine.exec_nil, Option.some.injEq] at h
      rw [← h]
      exact hc
  | cons d as ih =>
      obtain ⟨s', hs', h⟩ := Machine.exec_cons_eq_some _ h
      refine ih h ?_
      have hdc : c ≠ d := by
        rintro rfl
        rw [step, hc] at hs'
        simp at hs'
      have hother : ∀ x st, (s.set d x st).stage c = .raised := by
        intro x st
        simp only [State.set, if_neg hdc]
        exact hc
      rcases step_cases hs' with ⟨-, st, rfl, -⟩ | ⟨t, -, st, rfl, -⟩ | ⟨t, k, -, hw⟩
      · exact hother ..
      · exact hother ..
      · rcases hw with ⟨-, rfl⟩ | ⟨-, rfl⟩
        · exact hother ..
        · exact hother ..

/-- After both have returned there are no more steps. -/
theorem along_of_bothReturned {P : State σ τ κ → Bool → Prop} {t : State σ τ κ} {as : List Bool}
    (hs : BothReturned s) (h : Machine.exec (step R) s as = some t) :
    s = t ∧ Machine.Along (step R) P s as := by
  cases as with
  | nil =>
      rw [Machine.exec_nil, Option.some.injEq] at h
      exact ⟨h, trivial⟩
  | cons c as =>
      obtain ⟨s', hs', -⟩ := Machine.exec_cons_eq_some _ h
      rw [step, hs c] at hs'
      simp at hs'

/-- From between the writes on, the update is kept exactly when the second read after it. -/
theorem kept_iff_between (hL : Lawful R F Checks) (hchk : Checked R Checks s) {c : Bool}
    {t : State σ τ κ} {as : List Bool} (h : Between F old c s)
    (hexec : Machine.exec (step R) s as = some t) (ht : BothReturned t) :
    Kept F t ↔ Machine.Along (step R) (Unchanged F) s as := by
  induction as generalizing s with
  | nil =>
      rw [Machine.exec_nil, Option.some.injEq] at hexec
      exact absurd (hexec ▸ ht (!c)) h.waiting
  | cons d as ih =>
      obtain ⟨s', hs', hexec⟩ := Machine.exec_cons_eq_some _ hexec
      have halong : Machine.Along (step R) (Unchanged F) s (d :: as) ↔
          Unchanged F s d ∧ Machine.Along (step R) (Unchanged F) s' as := by
        constructor
        · intro hal
          exact ⟨hal.1, hal.2 s' hs'⟩
        · intro hal
          exact Machine.along_cons _ hal.1 hs' hal.2
      rw [halong]
      rcases between_step hL hchk h hs' with ⟨hbetween, hun⟩ | ⟨hboth, hiff⟩ | hraised
      · rw [ih (checked_step hL hchk hs') hbetween hexec]
        exact ⟨fun hal => ⟨hun, hal⟩, fun hal => hal.2⟩
      · obtain ⟨rfl, hal⟩ := along_of_bothReturned (P := Unchanged F) hboth hexec
        rw [hiff]
        exact ⟨fun hun => ⟨hun, hal⟩, fun hun => hun.1⟩
      · have := raised_stays hexec hraised
        rw [ht d] at this
        cases this

theorem kept_iff_before (hL : Lawful R F Checks) (hchk : Checked R Checks s) {t : State σ τ κ}
    {as : List Bool} (h : Before F old s) (hexec : Machine.exec (step R) s as = some t)
    (ht : BothReturned t) :
    Kept F t ↔ Machine.Along (step R) (Unchanged F) s as := by
  induction as generalizing s with
  | nil =>
      rw [Machine.exec_nil, Option.some.injEq] at hexec
      exact absurd (hexec ▸ ht true) (h.waiting true)
  | cons d as ih =>
      obtain ⟨s', hs', hexec⟩ := Machine.exec_cons_eq_some _ hexec
      have halong : Machine.Along (step R) (Unchanged F) s (d :: as) ↔
          Machine.Along (step R) (Unchanged F) s' as := by
        constructor
        · intro hal
          exact hal.2 s' hs'
        · intro hal
          exact Machine.along_cons _ (h.unchanged d) hs' hal
      rw [halong]
      rcases before_step hL hchk h hs' with hbefore | hbetween
      · exact ih (checked_step hL hchk hs') hbefore hexec
      · exact kept_iff_between hL (checked_step hL hchk hs') hbetween hexec ht

/-- **Lost updates**: in a run in which both callers return, every field that one
changed and the other was asked to keep has its new value exactly when, at each
write, the fields its caller keeps still have the values it has read. -/
theorem kept_iff (hL : Lawful R F Checks) (shared : σ) {t : State σ τ κ} {as : List Bool}
    (hexec : Machine.exec (step R) (State.start shared) as = some t) (ht : BothReturned t) :
    Kept F t ↔ Machine.Along (step R) (Unchanged F) (State.start shared) as := by
  have hstart : Before F (F.stored shared) (State.start shared : State σ τ κ) :=
    ⟨fun _ => by simp [State.start], rfl, fun _ _ ht => by simp [State.start, Stage.found?] at ht⟩
  have hchk : Checked R Checks (State.start shared : State σ τ κ) :=
    ⟨fun c t hst => (by cases hst), fun c t k hst => (by cases hst)⟩
  exact kept_iff_before hL hchk hstart hexec ht

end Steps

end PartialUpdate
