import Mathlib.Data.List.Basic

/-!
# Runs of a labelled partial step function

A step either refuses an event or gives the next state. A run takes a list of
events in order. Conditions on the events of a run are read off state by state,
and a history may be carried along without changing which runs exist.
-/
namespace WalkieTalkie.PartialRuns

variable {σ ε γ : Type*} {step : σ → ε → Option σ}

def run (step : σ → ε → Option σ) : σ → List ε → Option σ
  | s, [] => some s
  | s, e :: es => match step s e with
    | none => none
    | some t => run step t es

/-- Every event of the run meets `P` in the state in which it is taken. -/
def Along (step : σ → ε → Option σ) (P : σ → ε → Prop) : σ → List ε → Prop
  | _, [] => True
  | s, e :: es => P s e ∧ match step s e with
    | none => True
    | some t => Along step P t es

/-- Every state of the run, the first and the last included, meets `Q`. -/
def Always (step : σ → ε → Option σ) (Q : σ → Prop) : σ → List ε → Prop
  | s, [] => Q s
  | s, e :: es => Q s ∧ match step s e with
    | none => True
    | some t => Always step Q t es

@[simp] theorem run_nil (s : σ) : run step s [] = some s := rfl

theorem run_cons_eq_some {s u : σ} {e : ε} {es : List ε} :
    run step s (e :: es) = some u ↔ ∃ t, step s e = some t ∧ run step t es = some u := by
  cases h : step s e <;> simp [run, h]

theorem run_singleton (s : σ) (e : ε) : run step s [e] = step s e := by
  cases h : step s e <;> simp [run, h]

theorem run_append_eq_some {s u : σ} {es fs : List ε} :
    run step s (es ++ fs) = some u ↔ ∃ t, run step s es = some t ∧ run step t fs = some u := by
  induction es generalizing s with
  | nil => simp
  | cons e es ih =>
    rw [List.cons_append, run_cons_eq_some]
    constructor
    · rintro ⟨t, ht, hr⟩
      obtain ⟨t', ht', hr'⟩ := ih.mp hr
      exact ⟨t', run_cons_eq_some.mpr ⟨t, ht, ht'⟩, hr'⟩
    · rintro ⟨t', ht', hr'⟩
      obtain ⟨t, ht, hr⟩ := run_cons_eq_some.mp ht'
      exact ⟨t, ht, ih.mpr ⟨t', hr, hr'⟩⟩

/-- Evaluate a run to exhibit a state it reaches. -/
theorem exists_of_run_any {P : σ → Prop} [DecidablePred P] {s : σ} {es : List ε}
    (h : (run step s es).any (fun t => decide (P t)) = true) :
    ∃ t, run step s es = some t ∧ P t := by
  cases hr : run step s es with
  | none => simp [hr] at h
  | some t => exact ⟨t, rfl, by simpa [hr] using h⟩

/-- Where a run that is not refused ends. -/
def ends (step : σ → ε → Option σ) (s : σ) (es : List ε) (h : (run step s es).isSome = true) : σ :=
  (run step s es).get h

theorem run_ends {s : σ} {es : List ε} (h : (run step s es).isSome = true) :
    run step s es = some (ends step s es h) := (Option.some_get h).symm

theorem Along.head {P : σ → ε → Prop} {s : σ} {e : ε} {es : List ε}
    (h : Along step P s (e :: es)) : P s e := h.1

theorem Along.tail {P : σ → ε → Prop} {s t : σ} {e : ε} {es : List ε}
    (h : Along step P s (e :: es)) (ht : step s e = some t) : Along step P t es := by
  have hh := h.2
  rwa [ht] at hh

theorem Along.mono {P Q : σ → ε → Prop} (hPQ : ∀ s e, P s e → Q s e) {s : σ} {es : List ε}
    (h : Along step P s es) : Along step Q s es := by
  induction es generalizing s with
  | nil => trivial
  | cons e es ih =>
    refine ⟨hPQ s e h.head, ?_⟩
    cases ht : step s e with
    | none => trivial
    | some t => exact ih (h.tail ht)

theorem Along.and {P Q : σ → ε → Prop} {s : σ} {es : List ε} (h : Along step P s es)
    (h' : Along step Q s es) : Along step (fun s e => P s e ∧ Q s e) s es := by
  induction es generalizing s with
  | nil => trivial
  | cons e es ih =>
    refine ⟨⟨h.head, h'.head⟩, ?_⟩
    cases ht : step s e with
    | none => trivial
    | some t => exact ih (h.tail ht) (h'.tail ht)

theorem along_of_forall {P : ε → Prop} {es : List ε} (h : ∀ e ∈ es, P e) (s : σ) :
    Along step (fun _ e => P e) s es := by
  induction es generalizing s with
  | nil => trivial
  | cons e es ih =>
    refine ⟨h e (by simp), ?_⟩
    cases step s e with
    | none => trivial
    | some t => exact ih (fun f hf => h f (by simp [hf])) t

/-- What holds at the start and is kept by every admitted step holds at the end. -/
theorem Along.invariant {P : σ → ε → Prop} (Inv : σ → Prop)
    (hstep : ∀ s e t, Inv s → P s e → step s e = some t → Inv t) {s t : σ} {es : List ε}
    (h : Along step P s es) (hs : Inv s) (hr : run step s es = some t) : Inv t := by
  induction es generalizing s with
  | nil => cases hr; exact hs
  | cons e es ih =>
    obtain ⟨u, hu, hr⟩ := run_cons_eq_some.mp hr
    exact ih (h.tail hu) (hstep s e u hs h.head hu) hr

theorem run_invariant (Inv : σ → Prop)
    (hstep : ∀ s e t, Inv s → step s e = some t → Inv t) {s t : σ} {es : List ε}
    (hs : Inv s) (hr : run step s es = some t) : Inv t := by
  induction es generalizing s with
  | nil => cases hr; exact hs
  | cons e es ih =>
    obtain ⟨u, hu, hr⟩ := run_cons_eq_some.mp hr
    exact ih (hstep s e u hs hu) hr

/-- Two conditions that agree in every state an invariant allows agree along every run. -/
theorem along_iff_of_invariant {P Q : σ → ε → Prop} (Inv : σ → Prop)
    (hinv : ∀ s e t, Inv s → step s e = some t → Inv t)
    (hPQ : ∀ s e, Inv s → (P s e ↔ Q s e)) {s : σ} (hi : Inv s) (es : List ε) :
    Along step P s es ↔ Along step Q s es := by
  induction es generalizing s with
  | nil => rfl
  | cons e es ih =>
    simp only [Along, hPQ s e hi]
    cases ht : step s e with
    | none => rfl
    | some t => simp only [ih (hinv s e t hi ht)]

theorem Always.start {Q : σ → Prop} {s : σ} {es : List ε} (h : Always step Q s es) : Q s := by
  cases es with
  | nil => exact h
  | cons => exact h.1

/-- If one admitted step keeps `Q` exactly when it meets `P`, then a run stays in `Q`
exactly when all its steps meet `P`. -/
theorem always_iff_along (Inv Q : σ → Prop) {P : σ → ε → Prop}
    (hinv : ∀ s e t, Inv s → step s e = some t → Inv t)
    (hstep : ∀ s e t, Inv s → Q s → step s e = some t → (Q t ↔ P s e))
    (hnone : ∀ s e, step s e = none → P s e) {s : σ} (hi : Inv s) (hq : Q s) (es : List ε) :
    Always step Q s es ↔ Along step P s es := by
  induction es generalizing s with
  | nil => simpa [Always, Along] using hq
  | cons e es ih =>
    cases ht : step s e with
    | none => simpa [Always, Along, ht, hq] using hnone s e ht
    | some t =>
      have hqt := hstep s e t hi hq ht
      simp only [Always, Along, ht]
      constructor
      · rintro ⟨_, ha⟩
        exact ⟨hqt.mp ha.start, (ih (hinv s e t hi ht) ha.start).mp ha⟩
      · rintro ⟨hp, ha⟩
        exact ⟨hq, (ih (hinv s e t hi ht) (hqt.mpr hp)).mpr ha⟩

/-- A rank that never grows and falls with every tick, until a goal is reached that is kept,
is used up by enough ticks. -/
theorem Along.reaches {P : σ → ε → Prop} (Inv Goal : σ → Prop) (tick : ε → Bool) (rank : σ → ℕ)
    (hinv : ∀ s e t, Inv s → P s e → step s e = some t → Inv t)
    (hgoal : ∀ s e t, Inv s → P s e → step s e = some t → Goal s → Goal t)
    (hrank : ∀ s e t, Inv s → P s e → step s e = some t →
      Goal t ∨ rank t + (tick e).toNat ≤ rank s)
    {s t : σ} {es : List ε} (h : Along step P s es) (hs : Inv s) (hr : run step s es = some t)
    (hn : rank s < es.countP tick) : Goal t := by
  induction es generalizing s with
  | nil => simp at hn
  | cons e es ih =>
    obtain ⟨u, hu, hr⟩ := run_cons_eq_some.mp hr
    have hiu := hinv s e u hs h.head hu
    rcases hrank s e u hs h.head hu with hg | hl
    · exact ((h.tail hu).invariant (fun u => Inv u ∧ Goal u)
        (fun a f b ha hf hb => ⟨hinv a f b ha.1 hf hb, hgoal a f b ha.1 hf hb ha.2⟩) ⟨hiu, hg⟩ hr).2
    · refine ih (h.tail hu) hiu hr ?_
      rw [List.countP_cons] at hn
      cases ht : tick e <;> simp only [ht, Bool.toNat_false, Bool.toNat_true, if_true,
        Bool.false_eq_true, if_false] at hl hn <;> omega

/-- Every run of the first system whose steps are admitted is matched by one of the second, if
every single step is. -/
theorem Along.simulates {τ δ : Type*} {step' : τ → δ → Option τ} {P : σ → ε → Prop}
    (R : σ → τ → Prop) (M : ε → δ → Prop)
    (hstep : ∀ s e u t, R s t → P s e → step s e = some u →
      ∃ d v, M e d ∧ step' t d = some v ∧ R u v) {s u : σ} {t : τ} {es : List ε}
    (h : Along step P s es) (hs : R s t) (hr : run step s es = some u) :
    ∃ ds v, List.Forall₂ M es ds ∧ run step' t ds = some v ∧ R u v := by
  induction es generalizing s t with
  | nil =>
    cases hr
    exact ⟨[], t, .nil, rfl, hs⟩
  | cons e es ih =>
    obtain ⟨w, hw, hr⟩ := run_cons_eq_some.mp hr
    obtain ⟨d, v, hm, hv, hR⟩ := hstep s e w t hs h.head hw
    obtain ⟨ds, v', hms, hrun, hR'⟩ := ih (h.tail hw) hR hr
    exact ⟨d :: ds, v', .cons hm hms, run_cons_eq_some.mpr ⟨v, hv, hrun⟩, hR'⟩

instance Along.decidable (P : σ → ε → Prop) [∀ s e, Decidable (P s e)] :
    ∀ s es, Decidable (Along step P s es)
  | _, [] => inferInstanceAs (Decidable True)
  | s, e :: es =>
    match h : step s e with
    | none => decidable_of_iff (P s e) (by simp [Along, h])
    | some t =>
      haveI := Along.decidable P t es
      decidable_of_iff (P s e ∧ Along step P t es) (by simp [Along, h])

/-- `Along` for a long run, tested event by event. -/
def checks (step : σ → ε → Option σ) (P : σ → ε → Prop) [∀ s e, Decidable (P s e)] :
    σ → List ε → Bool
  | _, [] => true
  | s, e :: es => if P s e then
      match step s e with
      | none => true
      | some t => checks step P t es
    else false

theorem along_of_checks {P : σ → ε → Prop} [∀ s e, Decidable (P s e)] {s : σ} {es : List ε}
    (h : checks step P s es = true) : Along step P s es := by
  induction es generalizing s with
  | nil => trivial
  | cons e es ih =>
    by_cases hp : P s e
    · refine ⟨hp, ?_⟩
      rw [checks, if_pos hp] at h
      cases ht : step s e with
      | none => trivial
      | some t =>
        rw [ht] at h
        exact ih h
    · rw [checks, if_neg hp] at h
      cases h

/-- The same system with a history that every event extends. -/
def tracked (step : σ → ε → Option σ) (record : σ → ε → γ → γ) : σ × γ → ε → Option (σ × γ)
  | (s, h), e => match step s e with
    | none => none
    | some t => some (t, record s e h)

theorem tracked_eq_some {record : σ → ε → γ → γ} {s t : σ} {h h' : γ} {e : ε} :
    tracked step record (s, h) e = some (t, h') ↔ step s e = some t ∧ h' = record s e h := by
  cases hs : step s e <;> simp [tracked, hs, eq_comm]

/-- A step with a history is one with any history read off it. -/
theorem tracked_map {δ : Type*} {record : σ → ε → γ → γ} {record' : σ → ε → δ → δ} (f : γ → δ)
    (hf : ∀ s e h, f (record s e h) = record' s e (f h)) {x y : σ × γ} {e : ε}
    (h : tracked step record x e = some y) :
    tracked step record' (x.1, f x.2) e = some (y.1, f y.2) := by
  obtain ⟨s, h₀⟩ := x
  obtain ⟨t, h₁⟩ := y
  obtain ⟨ht, rfl⟩ := tracked_eq_some.mp h
  exact tracked_eq_some.mpr ⟨ht, hf s e h₀⟩

/-- Keeping a history neither adds nor removes a run. -/
theorem tracked_run_fst {record : σ → ε → γ → γ} (s : σ) (h : γ) (es : List ε) :
    (run (tracked step record) (s, h) es).map Prod.fst = run step s es := by
  induction es generalizing s h with
  | nil => rfl
  | cons e es ih =>
    cases hs : step s e with
    | none => simp [run, tracked, hs]
    | some t => simpa [run, tracked, hs] using ih t (record s e h)

end WalkieTalkie.PartialRuns
