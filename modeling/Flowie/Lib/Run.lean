/-!
# Runs of a system

A system is a step function; a run folds it over a list of events. A condition on the events is
judged in the state each of them finds. A loop that can fail has an invariant over the events it
has passed.
-/

namespace Flowie.Run

open List

variable {σ ε : Type} {step : σ → ε → σ}

/-- Every event of the run meets the condition in the state it finds. -/
def Along (step : σ → ε → σ) (P : σ → ε → Prop) : σ → List ε → Prop
  | _, [] => True
  | state, event :: events => P state event ∧ Along step P (step state event) events

variable {I : σ → Prop} {P : σ → ε → Prop} {state : σ} {events : List ε}

/-- What every step under the condition keeps, every run under the condition keeps. -/
theorem Along.invariant (hstep : ∀ state event, I state → P state event → I (step state event))
    (halong : Along step P state events) (hinit : I state) : I (events.foldl step state) := by
  induction events generalizing state with
  | nil => exact hinit
  | cons event events ih =>
    obtain ⟨hev, hrest⟩ := halong
    exact ih hrest (hstep state event hinit hev)

variable {S : σ → Prop}

/-- A step out of a good state keeps `S` and is good exactly under the condition; then a run stays good
    exactly when every one of its events meets the condition. -/
theorem Along.iff_prefix_of_kept (hkept : ∀ state event, S state → I state → S (step state event))
    (hstep : ∀ state event, S state → I state → (I (step state event) ↔ P state event)) (hS : S state) (hinit : I state)
    (events : List ε) : (∀ before, before <+: events → I (before.foldl step state)) ↔ Along step P state events := by
  induction events generalizing state with
  | nil =>
    refine ⟨fun _ => trivial, fun _ before hbef => ?_⟩
    rw [List.prefix_nil.1 hbef]
    exact hinit
  | cons event events ih =>
    have hnextS := hkept state event hS hinit
    constructor
    · intro h
      have hnext : I (step state event) := h [event] (by simp)
      refine ⟨(hstep state event hS hinit).1 hnext, (ih hnextS hnext).1 ?_⟩
      intro before hbef
      exact h (event :: before) ((prefix_cons_inj event).2 hbef)
    · rintro ⟨hev, hrest⟩ before hbef
      have hnext := (hstep state event hS hinit).2 hev
      rcases List.prefix_cons_iff.1 hbef with rfl | ⟨rest, rfl, hrestpre⟩
      · exact hinit
      · exact (ih hnextS hnext).2 hrest rest hrestpre

/-- When a step out of a good state is good exactly under the condition, a run stays good exactly when
    every one of its events meets the condition. -/
theorem Along.iff_prefix (hstep : ∀ state event, I state → (I (step state event) ↔ P state event)) (hinit : I state)
    (events : List ε) : (∀ before, before <+: events → I (before.foldl step state)) ↔ Along step P state events :=
  iff_prefix_of_kept (S := fun _ => True) (fun _ _ _ _ => trivial) (fun state event _ => hstep state event) trivial hinit
    events

/-- What a step keeps unless it ends it, a run keeps up to the first event that ends it. -/
theorem kept_or_ended {P : σ → Prop} {E : σ → ε → Prop} (hkept : ∀ state event, S state → S (step state event))
    (hstep : ∀ state event, S state → P state → P (step state event) ∨ E state event) (hS : S state) (hinit : P state)
    (events : List ε) :
    P (events.foldl step state) ∨
      ∃ before event, before ++ [event] <+: events ∧ P (before.foldl step state) ∧ E (before.foldl step state) event := by
  induction events generalizing state with
  | nil => exact .inl hinit
  | cons event events ih =>
    rcases hstep state event hS hinit with hnext | hend
    · rcases ih (hkept state event hS) hnext with hlast | ⟨before, last, hprefix, hbef, hend⟩
      · exact .inl hlast
      · exact .inr ⟨event :: before, last, (prefix_cons_inj event).2 hprefix, hbef, hend⟩
    · exact .inr ⟨[], event, by simp, hinit, hend⟩

variable {Q : σ → ε → Prop}

/-- A condition whose steps keep an invariant, and which implies another under it, implies it along every run. -/
theorem Along.mono (hstep : ∀ state event, I state → Q state event → I (step state event))
    (himp : ∀ state event, I state → Q state event → P state event) (hinit : I state) (halong : Along step Q state events) :
    Along step P state events := by
  induction events generalizing state with
  | nil => trivial
  | cons event events ih =>
    obtain ⟨hev, hrest⟩ := halong
    exact ⟨himp state event hinit hev, ih (hstep state event hinit hev) hrest⟩

/-- Two conditions that agree under an invariant agree along every run of events that keep it. -/
theorem Along.congr {T : ε → Prop} (hkept : ∀ state event, T event → I state → I (step state event))
    (hagree : ∀ state event, T event → I state → (P state event ↔ Q state event)) (hevents : ∀ event ∈ events, T event)
    (hinit : I state) : Along step P state events ↔ Along step Q state events := by
  induction events generalizing state with
  | nil => exact Iff.rfl
  | cons event events ih =>
    have hev : T event := hevents event mem_cons_self
    exact and_congr (hagree state event hev hinit)
      (ih (fun later hmem => hevents later (mem_cons_of_mem _ hmem)) (hkept state event hev hinit))

/-- A condition on the events alone holds along the run when it holds of every event. -/
theorem Along.of_forall (h : ∀ state, ∀ event ∈ events, P state event) (state : σ) : Along step P state events := by
  induction events generalizing state with
  | nil => trivial
  | cons event events ih =>
    exact ⟨h state event mem_cons_self, ih (fun state event hmem => h state event (mem_cons_of_mem _ hmem)) _⟩

variable {δ : Type} {f : σ → ε → Except δ σ}

/-- A loop that can fail does not fail, and ends in its invariant, when every step keeps the
    invariant over what was passed. -/
theorem foldlM_invariant {I : List ε → σ → Prop} (hinit : I [] state)
    (hstep : ∀ passed event rest state, events = passed ++ event :: rest → I passed state →
      ∃ state', f state event = .ok state' ∧ I (passed ++ [event]) state') :
    ∃ state', events.foldlM f state = .ok state' ∧ I events state' := by
  suffices h : ∀ passed rest state, events = passed ++ rest → I passed state →
      ∃ state', rest.foldlM f state = .ok state' ∧ I events state' from h [] events state rfl hinit
  intro passed rest
  induction rest generalizing passed with
  | nil =>
    intro state hspl hst
    rw [hspl, append_nil]
    exact ⟨state, rfl, hst⟩
  | cons event rest ih =>
    intro state hspl hst
    obtain ⟨next, hnext, hkept⟩ := hstep passed event rest state hspl hst
    rw [foldlM_cons, hnext]
    exact ih (passed ++ [event]) next (by rw [hspl, append_assoc, singleton_append]) hkept

/-- What every successful step of a loop keeps, a successful loop keeps. -/
theorem foldlM_kept (hstep : ∀ state event state', I state → f state event = .ok state' → I state') {state' : σ}
    (h : events.foldlM f state = .ok state') (hinit : I state) : I state' := by
  induction events generalizing state with
  | nil =>
    cases h
    exact hinit
  | cons event events ih =>
    rw [foldlM_cons] at h
    cases hnext : f state event with
    | error e =>
      rw [hnext] at h
      cases h
    | ok next =>
      rw [hnext] at h
      exact ih h (hstep state event next hinit hnext)

end Flowie.Run
