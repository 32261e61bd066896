import Flowie.Client.Exchange

/-!
# Rules for the calls of the client

What holds of the client and its trace when a call succeeds and when it fails, and how this composes.
-/

namespace Flowie.MqttClient

namespace Outcome

variable {α β : Type} {G H B : Client → List Observation → Prop} {client : Client} {trace : List Observation}

/-- A call after a trace ends with `G` when it succeeds and with `B` when it fails. -/
def Meets (outcome : Outcome α) (trace : List Observation) (G B : Client → List Observation → Prop) : Prop :=
  match outcome.result with
  | .ok _ => G outcome.client (trace ++ outcome.trace)
  | .error _ => B outcome.client (trace ++ outcome.trace)

theorem meets_ok (value : α) (h : G client trace) : (Outcome.ok client value).Meets trace G B := by
  simpa [Meets, Outcome.ok] using h

theorem meets_fail {e : Errno} (h : B client trace) : (Outcome.fail client e : Outcome α).Meets trace G B := by
  simpa [Meets, Outcome.fail] using h

/-- A status that comes with no change of the client needs both conditions. -/
theorem meets_ofStatus (status : Except Errno α) (hgood : G client trace)
    (hbad : B client trace) : (Outcome.ofStatus client status).Meets trace G B := by
  cases status with
  | ok value => simpa [Meets, Outcome.ofStatus] using hgood
  | error e => simpa [Meets, Outcome.ofStatus] using hbad

/-- Both ends of a call that leaves one observation. -/
theorem meets_single {observation : Observation} {result : Except Errno α} (hbad : B client (trace ++ [observation]))
    (hgood : ∀ value, result = .ok value → G client (trace ++ [observation])) :
    (⟨client, [observation], result⟩ : Outcome α).Meets trace G B := by
  cases result with
  | ok value => exact hgood value rfl
  | error e => exact hbad

/-- The rule of sequence: what the first part establishes is the condition of the second. -/
theorem Meets.andThen {first : Outcome α} {next : Client → α → Outcome β} (hfst : first.Meets trace G B)
    (hnext : ∀ client trace value, G client trace → (next client value).Meets trace H B) :
    (first.andThen next).Meets trace H B := by
  cases hres : first.result with
  | error e =>
    simp only [Meets, hres] at hfst
    simpa only [Meets, Outcome.andThen, hres] using hfst
  | ok value =>
    simp only [Meets, hres] at hfst
    have hsecond := hnext _ _ value hfst
    simpa only [Meets, Outcome.andThen, hres, List.append_assoc] using hsecond

variable {outcome : Outcome α}

/-- The label `fail` brings a failed call to a good end. -/
theorem Meets.orClose (h : outcome.Meets trace G B) (hgood : ∀ client trace, G client trace → H client trace)
    (hcl : ∀ client trace, B client trace → H client.transportClose (trace ++ [.closed])) :
    outcome.orClose.Meets trace H H := by
  cases hres : outcome.result with
  | ok value =>
    simp only [Meets, hres] at h
    simpa only [Meets, Outcome.orClose, hres] using hgood _ _ h
  | error e =>
    simp only [Meets, hres] at h
    simpa only [Meets, Outcome.orClose, hres, List.append_assoc] using hcl _ _ h

/-- A call that is as G when it fails. -/
theorem Meets.of_same (h : outcome.Meets trace G G) : G outcome.client (trace ++ outcome.trace) := by
  unfold Meets at h
  split at h <;> exact h

end Outcome

end Flowie.MqttClient
