import Flowie.Lib.Run
import Flowie.Session.Durable
import Flowie.Session.Repository

/-!
# The capacity of a session

A session is configured with a number of packets in flight. Its snapshot counts the inbound records
and the outbound deliveries together against it, and so do both restores. A reservation checks that
sum, but `publish_begin` checks the inbound records alone: a session stays within its capacity exactly
when every PUBLISH it admits finds a place that neither direction uses.
-/

namespace Flowie.Session

open Mqtt List

/-- The inbound records and the deliveries are within the capacity the snapshot reports. -/
def InCapacity (owner : Owner) : Prop :=
  (ownerSnapshot owner).inflightCount ≤ (ownerSnapshot owner).inflightCapacity

/-- An owner of the same configuration with no more records and deliveries. -/
theorem InCapacity.of_length {owner owner' : Owner} (h : InCapacity owner) (hcfg : owner'.config = owner.config)
    (hinfl : owner'.inflight.length ≤ owner.inflight.length)
    (hdels : owner'.deliveries.entries.length ≤ owner.deliveries.entries.length) : InCapacity owner' := by
  have hroom : owner.inflight.length + owner.deliveries.entries.length ≤ owner.config.maxInflight := h
  show owner'.inflight.length + owner'.deliveries.entries.length ≤ owner'.config.maxInflight
  rw [hcfg]
  omega

theorem length_inflightClear_le (keep : Bool) (inflight : List Inflight) :
    (inflightClear keep inflight).length ≤ inflight.length := by
  unfold inflightClear
  rw [(retainSwap_all_perm _ inflight).length_eq]
  exact length_filter_le _ _

section

variable [Vstr] {owner owner' : Owner}

/-- The session is active, the PUBLISH is well formed, and the records and the counter of changes have room. -/
def recordable (owner : Owner) (publish : PublishView) : Bool :=
  owner.active && (publishMessageMap publish owner.version owner.config.ownerInstanceId owner.config.sessionId
      owner.sessionGeneration).isOk &&
    decide (owner.inflight.length < owner.config.maxInflight) && owner.resourceGeneration != uint64Max

/-- Whether the operation leaves a session within its capacity: a `publish_begin` that records a new
    packet identifier needs a place under the sum, and every other operation does. -/
def findsRoom (owner : Owner) : Op → Bool
  | .publishBegin publish =>
    publish.qos == 0 || (inflightFind owner publish.packetId).isSome || !recordable owner publish ||
      decide (owner.inflight.length + owner.deliveries.entries.length < owner.config.maxInflight)
  | _ => true

omit [Vstr] in
/-- A PUBLISH with a new packet identifier is recorded or refused. -/
theorem publishBegin_isOk {publish : PublishView} (hqos : publish.qos ≠ 0)
    (hfind : inflightFind owner publish.packetId = none) : (publishBegin owner publish).isOk = recordable owner publish := by
  unfold publishBegin recordable
  cases owner.active with
  | false => rfl
  | true =>
    cases publishMessageMap publish owner.version owner.config.ownerInstanceId owner.config.sessionId
      owner.sessionGeneration with
    | error e => rfl
    | ok message =>
      simp only [Bool.not_true, Bool.false_eq_true, if_false, hqos, hfind]
      split_ifs with hfull hgen
      · simp [Except.isOk, Except.toBool, Nat.not_lt.2 hfull]
      · simp [Except.isOk, Except.toBool, hgen]
      · simp [Except.isOk, Except.toBool, hgen, Nat.not_le.1 hfull]

variable {op : Op} {reply : Reply}

theorem Transition.config (h : Transition owner op owner' reply) : owner'.config = owner.config := by
  cases h with
  | closed =>
    unfold Session.closed
    split <;> rfl
  | _ => rfl

/-- Every transition but the record of a new PUBLISH keeps the session within its capacity. -/
theorem InCapacity.transition (hcap : InCapacity owner)
    (hop : ∀ publish, op ≠ .publishBegin publish) (h : Transition owner op owner' reply) : InCapacity owner' := by
  cases h with
  | opened view =>
    refine hcap.of_length rfl ?_ ?_
    · show (if view.cleanStart then inflightClear false owner.inflight else owner.inflight).length ≤ _
      split
      · exact length_inflightClear_le _ _
      · exact Nat.le_refl _
    · show (if view.cleanStart then IndexedVec.empty else owner.deliveries).entries.length ≤ _
      split
      · exact Nat.zero_le _
      · exact Nat.le_refl _
  | closed =>
    unfold Session.closed
    split
    · exact hcap.of_length rfl (length_inflightClear_le _ _) (Nat.zero_le _)
    · exact hcap.of_length rfl (length_inflightClear_le _ _) (Nat.le_refl _)
  | reserved qos candidate hqos hopen hsp hid hfr =>
    -- the one check of the sum
    show owner.inflight.length + (owner.deliveries.entries ++ [_]).length ≤ owner.config.maxInflight
    rw [length_append, length_singleton]
    omega
  | committed packetId packet expiry queued delivery index =>
    exact hcap.of_length rfl (Nat.le_refl _) (Nat.le_of_eq (length_modify ..))
  | removed op index removed deliveries generation reply hrep hent hop' honly hents =>
    refine hcap.of_length rfl (Nat.le_refl _) ?_
    rw [hents]
    exact (swapRemove_subperm hent).length_le
  | expired now count deliveries hents =>
    refine hcap.of_length rfl (Nat.le_refl _) ?_
    rw [hents, (retainSwap_all_perm _ _).length_eq]
    exact length_filter_le _ _
  | replayed => exact hcap.of_length rfl (Nat.le_refl _) (Nat.le_of_eq (length_modify ..))
  | released => exact hcap.of_length rfl (Nat.le_refl _) (Nat.le_of_eq (length_modify ..))
  | begun publish => exact absurd rfl (hop publish)
  | puback route request entry index hent =>
    exact hcap.of_length rfl (swapRemove_subperm hent).length_le (Nat.le_refl _)
  | pubrec => exact hcap.of_length rfl (Nat.le_of_eq length_set) (Nat.le_refl _)
  | pubcomp route entry index hent =>
    exact hcap.of_length rfl (swapRemove_subperm hent).length_le (Nat.le_refl _)
  | cloned deliveries hents =>
    exact hcap.of_length rfl (Nat.le_refl _) (Nat.le_of_eq (congrArg List.length hents))
  | _ => exact hcap

/-- One step out of a session within its capacity. -/
theorem inCapacity_next (hcap : InCapacity owner) : InCapacity (next owner op) ↔ findsRoom owner op = true := by
  unfold next
  cases hstep : step owner op with
  | error e =>
    refine iff_of_true hcap ?_
    cases op with
    | publishBegin publish =>
      have hbeg : publishBegin owner publish = .error e := by
        cases hres : publishBegin owner publish with
        | error e' =>
          rw [step, hres] at hstep
          cases hstep
          rfl
        | ok r =>
          rw [step, hres] at hstep
          cases hstep
      by_cases hqos : publish.qos = 0
      · simp [findsRoom, hqos]
      cases hfind : inflightFind owner publish.packetId with
      | some found => simp [findsRoom, hfind]
      | none =>
        have hrec := publishBegin_isOk hqos hfind
        rw [hbeg] at hrec
        simp [findsRoom, ← hrec, Except.isOk, Except.toBool]
    | _ => rfl
  | ok r =>
    obtain ⟨owner', reply⟩ := r
    by_cases hop : ∃ publish, op = .publishBegin publish
    · obtain ⟨publish, rfl⟩ := hop
      obtain ⟨result, hbeg, -⟩ := replied_eq_ok hstep
      rcases publishBegin_eq_ok hbeg with ⟨hkn, rfl⟩ | ⟨⟨hqos, hfind, rfl⟩, -⟩
      · refine iff_of_true hcap ?_
        rcases hkn with hqos | hsome
        · simp [findsRoom, hqos]
        · simp [findsRoom, hsome]
      · -- a new record: the place is there or it is not
        have hroom : findsRoom owner (.publishBegin publish) =
            decide (owner.inflight.length + owner.deliveries.entries.length < owner.config.maxInflight) := by
          have hrec := publishBegin_isOk hqos hfind
          rw [hbeg] at hrec
          simp [findsRoom, hqos, hfind, ← hrec, Except.isOk, Except.toBool]
        rw [hroom, decide_eq_true_iff]
        show (owner.inflight ++ [_]).length + owner.deliveries.entries.length ≤ owner.config.maxInflight ↔ _
        rw [length_append, length_singleton]
        omega
    · refine iff_of_true (hcap.transition (fun publish h => hop ⟨publish, h⟩) (step_transition hstep)) ?_
      cases op with
      | publishBegin publish => exact absurd ⟨publish, rfl⟩ hop
      | _ => rfl

theorem subscriptions_room_transition (h : Transition owner op owner' reply)
    (hroom : owner.subscriptions.length ≤ owner.config.maxSubscriptions) :
    owner'.subscriptions.length ≤ owner'.config.maxSubscriptions := by
  cases h with
  | opened view =>
    show (if view.cleanStart then [] else owner.subscriptions).length ≤ owner.config.maxSubscriptions
    split
    · exact Nat.zero_le _
    · exact hroom
  | closed =>
    unfold Session.closed
    split
    · exact Nat.zero_le _
    · exact hroom
  | subscribed packet view identifier staged changed result hact hver hidn hloop =>
    exact subscribeLoop_room hroom hloop
  | unsubscribed packet view => exact Nat.le_trans (unsubscribeLoop_subperm _ _).length_le hroom
  | _ => exact hroom

/-- In every run from a fresh owner the subscriptions stay within their number, and the packets in flight
    stay within theirs exactly when every operation of the run finds room. -/
theorem capacity_kept_iff {config : SessionConfig} {created : Owner} (hcr : ownerCreate config = some created)
    (ops : List Op) :
    (∀ before, before <+: ops →
      (ownerSnapshot (run created before)).subscriptionCount ≤ config.maxSubscriptions ∧
      (ownerSnapshot (run created before)).subscriptionCapacity = config.maxSubscriptions ∧
      (ownerSnapshot (run created before)).inflightCapacity = config.maxInflight) ∧
    ((∀ before, before <+: ops → (ownerSnapshot (run created before)).inflightCount ≤ config.maxInflight) ↔
      Run.Along next (fun owner op => findsRoom owner op = true) created ops) := by
  obtain ⟨hcfg, hinfl, hents, hsubs⟩ := ownerCreate_eq_some hcr
  have hkept : ∀ before, (run created before).config = config ∧
      (run created before).subscriptions.length ≤ (run created before).config.maxSubscriptions := by
    intro before
    refine run_induction (P := fun owner => owner.config = config ∧
      owner.subscriptions.length ≤ owner.config.maxSubscriptions) before ⟨hcfg, ?_⟩ ?_
    · rw [hsubs]
      exact Nat.zero_le _
    · intro owner op owner' reply _ ⟨hcfg, hroom⟩ h
      exact ⟨h.config.trans hcfg, subscriptions_room_transition h hroom⟩
  constructor
  · intro before _
    obtain ⟨hsame, hroom⟩ := hkept before
    rw [hsame] at hroom
    exact ⟨hroom, congrArg SessionConfig.maxSubscriptions hsame, congrArg SessionConfig.maxInflight hsame⟩
  · have hinit : InCapacity created := by
      show created.inflight.length + created.deliveries.entries.length ≤ _
      rw [hinfl, hents]
      exact Nat.zero_le _
    rw [← Run.Along.iff_prefix (I := InCapacity) (fun _ op hcap => inCapacity_next hcap) hinit]
    refine forall_congr' fun before => imp_congr_right fun _ => ?_
    rw [← congrArg SessionConfig.maxInflight (hkept before).1]
    exact Iff.rfl

end

section Example

attribute [local instance] asciiVstr

/-- Three deliveries take all the places, and a QoS 2 PUBLISH is received and settled. -/
def filled : List Op :=
  [.connect persistentConnect false, .reserve 1, .commit 1 (samplePacket 1) 0 false, .reserve 1,
    .commit 2 (samplePacket 2) 0 false, .reserve 1, .commit 3 (samplePacket 3) 0 false,
    .publishBegin (samplePublish 2 9 false), .publishSettle ⟨true, true, 1, 7, 1⟩ (sampleRequest 9)]

/-- Without the third delivery the PUBLISH finds room. -/
theorem capacity_kept_iff_two :
    (ownerSnapshot (run smallOwner [.connect persistentConnect false, .reserve 1, .reserve 1,
      .publishBegin (samplePublish 2 9 false)])).inflightCount ≤ 3 :=
  (capacity_kept_iff ownerCreate_smallConfig [.connect persistentConnect false, .reserve 1, .reserve 1,
    .publishBegin (samplePublish 2 9 false)]).2.2
    ⟨by decide, by decide, by decide, by decide, trivial⟩ _ (prefix_refl _)

/-- Four packets are in flight in a session with room for three, and the row it is stored as is refused when
    it is restored. -/
theorem publish_begin_exceeds_capacity :
    (ownerSnapshot (run smallOwner filled)).inflightCount = 4 ∧
      (ownerSnapshot (run smallOwner filled)).inflightCapacity = 3 ∧
      ∃ row, repositorySnapshot (run smallOwner filled) = .ok row ∧ repositoryRestore smallConfig row = .error .einval :=
  ⟨by decide, by decide, _, rfl, rfl⟩

end Example

end Flowie.Session
