import Flowie.Session.Steps

/-!
# Session rows of the repository

`flowie_session_owner_repository_snapshot` writes an owner as a row and
`flowie_session_owner_repository_restore` builds an owner from one. The restored owner has the
fields of the row but is not marked as initialized, and this is what every later operation asks
for: it is a session no CONNECT resumes.
-/

namespace Flowie.Session

open Mqtt

/-- `flowie_protocol_inflight_row_t`. -/
structure InflightRow where
  packetId : UInt16
  qos : UInt8
deriving DecidableEq, Repr

/-- `flowie_protocol_delivery_row_t`. -/
structure DeliveryRow where
  packetId : UInt16
  qos : UInt8
  state : DeliveryState
  expiryAtEpochSeconds : UInt64
  packet : Bytes
deriving DecidableEq, Repr

/-- `flowie_protocol_session_row_t`. A subscription row has the fields of a subscription, and the
    Will row those of a Will. -/
structure SessionRow where
  clientId : Bytes
  revision : UInt64
  sessionId : UInt64
  sessionGeneration : UInt64
  mqttVersion : Version
  keepAlive : UInt16
  sessionExpiryInterval : UInt32
  nextDeliveryPacketId : UInt16
  subscriptions : List Subscription
  inflight : List InflightRow
  deliveries : List DeliveryRow
  will : Option Will
deriving DecidableEq, Repr

def deliveryRows : List Delivery → Except Errno (List DeliveryRow)
  | [] => .ok []
  | delivery :: rest =>
    if delivery.state = .reserved then deliveryRows rest
    else
      match delivery.packet with
      | none => .error .eproto
      | some packet =>
        match deliveryRows rest with
        | .error e => .error e
        | .ok rows =>
          .ok (⟨delivery.packetId, delivery.qos, delivery.storedState, delivery.expiryAtEpochSeconds, packet⟩ :: rows)

/-- `flowie_session_owner_repository_snapshot`. -/
def repositorySnapshot (owner : Owner) : Except Errno SessionRow :=
  match owner.clientId with
  | none => .error .einval
  | some clientId =>
    if !owner.initialized || owner.resourceGeneration == 0 then .error .einval
    else
      match deliveryRows owner.deliveries.entries with
      | .error e => .error e
      | .ok deliveries =>
        .ok
          { clientId := clientId
            revision := owner.resourceGeneration
            sessionId := owner.config.sessionId
            sessionGeneration := owner.sessionGeneration
            mqttVersion := owner.version
            keepAlive := owner.keepAlive
            sessionExpiryInterval := owner.sessionExpiryInterval
            nextDeliveryPacketId := owner.nextDeliveryPacketId
            subscriptions := owner.subscriptions
            inflight := (owner.inflight.filter (·.state == .qos2Release)).map fun entry => ⟨entry.packetId, entry.qos⟩
            deliveries := deliveries
            will := owner.will.map (·.stored owner.active) }

section

variable [Vstr]

def deliveriesRestore : List DeliveryRow → Owner → Except Errno Owner
  | [], owner => .ok owner
  | row :: rest, owner =>
    let delivery : Delivery := ⟨row.packetId, row.qos, row.state, row.expiryAtEpochSeconds, some row.packet⟩
    match recordDeliveryValidate owner.version delivery with
    | .error e => .error e
    | .ok _ =>
      match deliveryAppend owner delivery with
      | .error .ealready => .error .eproto
      | .error e => .error e
      | .ok owner => deliveriesRestore rest owner

/-- `flowie_session_owner_repository_restore`. -/
def repositoryRestore (config : SessionConfig) (row : SessionRow) : Except Errno Owner :=
  if !configValid config || row.clientId.isEmpty || row.revision == 0 ||
      decide (row.subscriptions.length > config.maxSubscriptions) ||
      decide (row.inflight.length + row.deliveries.length > config.maxInflight) then .error .einval
  else
    match ownerCreate config with
    | none => .error .enomem
    | some owner =>
      let owner : Owner :=
        { owner with
          clientId := some row.clientId
          config := { config with sessionId := row.sessionId }
          version := row.mqttVersion
          keepAlive := row.keepAlive
          sessionExpiryInterval := row.sessionExpiryInterval
          sessionGeneration := row.sessionGeneration
          resourceGeneration := row.revision
          nextDeliveryPacketId := row.nextDeliveryPacketId
          subscriptions := row.subscriptions
          inflight := row.inflight.map fun entry => ⟨entry.packetId, entry.qos, .qos2Release⟩ }
      match deliveriesRestore row.deliveries owner with
      | .error e => .error e
      | .ok owner => .ok { owner with will := row.will, active := false, cleanStart := false }

def DeliveryRow.delivery (row : DeliveryRow) : Delivery :=
  ⟨row.packetId, row.qos, row.state, row.expiryAtEpochSeconds, some row.packet⟩

theorem deliveriesRestore_eq_ok {rows : List DeliveryRow} {owner owner' : Owner}
    (h : deliveriesRestore rows owner = .ok owner') : ∃ deliveries, owner' = { owner with deliveries := deliveries } ∧
      deliveries.entries = owner.deliveries.entries ++ rows.map DeliveryRow.delivery ∧
      ∀ row ∈ rows, row.delivery.packetId ≠ 0 := by
  induction rows generalizing owner with
  | nil =>
    cases h
    exact ⟨_, rfl, by simp, by simp⟩
  | cons row rest ih =>
    unfold deliveriesRestore at h
    dsimp only at h
    split at h
    · cases h
    split at h
    · cases h
    · cases h
    rename_i o happ
    obtain ⟨_, hid, rfl⟩ := deliveryAppend_eq_ok happ
    obtain ⟨deliveries, rfl, hents, hids⟩ := ih h
    exact ⟨deliveries, rfl, hents.trans (List.append_assoc ..), List.forall_mem_cons.2 ⟨hid, hids⟩⟩

variable {config : SessionConfig} {row : SessionRow} {restored : Owner}

/-- What a restored owner has from its row; none is initialized. -/
theorem repositoryRestore_eq_ok (h : repositoryRestore config row = .ok restored) :
    restored.config = { config with sessionId := row.sessionId } ∧ restored.subscriptions = row.subscriptions ∧
      row.subscriptions.length ≤ config.maxSubscriptions ∧
      restored.deliveries.entries = row.deliveries.map DeliveryRow.delivery ∧
      (∀ saved ∈ row.deliveries, saved.delivery.packetId ≠ 0) ∧ restored.initialized = false ∧ restored.active = false := by
  unfold repositoryRestore at h
  split at h
  · cases h
  rename_i hchecks
  have hroom : row.subscriptions.length ≤ config.maxSubscriptions := by
    by_contra hmany
    exact hchecks (by simp [Nat.lt_of_not_le hmany])
  split at h
  · cases h
  rename_i created hcr
  dsimp only at h
  split at h
  · cases h
  rename_i o hrest
  cases h
  obtain ⟨deliveries, rfl, hents, hids⟩ := deliveriesRestore_eq_ok hrest
  unfold ownerCreate at hcr
  split at hcr
  · cases hcr
    exact ⟨rfl, rfl, hroom, hents, hids, rfl, rfl⟩
  · cases hcr

/-- What a stored session has to do once it is restored, as the closed session it was stored from
    would: a CONNECT that does not start clean resumes it, another client identifier or protocol
    version is refused, deliveries are reserved while it is offline, and it can be stored again. -/
structure Resumes (owner : Owner) (row : SessionRow) (restored : Owner) : Prop where
  present : ∀ view takeover owner' result, view.cleanStart = false →
    ownerConnect restored view takeover = .ok (owner', result) → result.accepted = true → result.sessionPresent = true
  refused : ∀ view takeover owner' result,
    some view.clientId ≠ owner.clientId ∨ view.version ≠ owner.version ∧ view.cleanStart = false →
    ownerConnect restored view takeover = .ok (owner', result) → result.accepted = false
  offline : ∀ qos, qos = 1 ∨ qos = 2 → owner.sessionExpiryInterval ≠ 0 →
    restored.inflight.length + restored.deliveries.entries.length < restored.config.maxInflight →
    ∃ reserved, deliveryReserve restored qos = .ok reserved
  stored : repositorySnapshot restored = .ok row

/-- A restored owner treats every CONNECT as the first one, whatever client identifier and version
    were stored, reserves nothing while it is offline, and cannot be stored. -/
theorem repositoryRestore_forgets (h : repositoryRestore config row = .ok restored) :
    (∀ view takeover owner' result, ownerConnect restored view takeover = .ok (owner', result) →
      result.sessionPresent = false ∨ result.accepted = false) ∧
    (∀ view takeover clientId version,
      openCheck restored view takeover = openCheck { restored with clientId := clientId, version := version } view takeover) ∧
    (∀ qos, qos = 1 ∨ qos = 2 → deliveryReserve restored qos = .error .ebusy) ∧
    repositorySnapshot restored = .error .einval := by
  obtain ⟨hinit, hact⟩ := (repositoryRestore_eq_ok h).2.2.2.2.2
  refine ⟨?_, ?_, ?_, ?_⟩
  · intro view takeover owner' result hconn
    rcases ownerConnect_eq_ok hconn with ⟨-, hpres, -⟩ | ⟨href, -⟩
    · left
      rw [hpres, hinit]
      rfl
    · exact .inr href
  · intro view takeover clientId version
    simp only [openCheck, hinit, Bool.false_and]
  · intro qos hqos
    have hrng : ¬(qos = 0 ∨ qos > 2) := by
      cases hqos with
      | inl h1 => rw [h1]; decide
      | inr h2 => rw [h2]; decide
    simp only [deliveryReserve, if_neg hrng, hinit, hact]
    rfl
  · unfold repositorySnapshot
    cases restored.clientId with
    | none => rfl
    | some clientId =>
      simp only [hinit]
      rfl

/-- No owner at all is stored and restored to a session that resumes. -/
theorem repository_never_resumes (config : SessionConfig) (owner : Owner) :
    ¬∃ row restored, repositorySnapshot owner = .ok row ∧ repositoryRestore config row = .ok restored ∧
      Resumes owner row restored := by
  intro ⟨row, restored, _, hrest, hresumes⟩
  have hsto := hresumes.stored
  rw [(repositoryRestore_forgets hrest).2.2.2] at hsto
  cases hsto

end

section Example

attribute [local instance] asciiVstr

/-- The outcome of a CONNECT: whether it is accepted and whether the session is present. -/
def connectOutcome (owner : Owner) (view : ConnectView) : Except Errno (Bool × Bool) :=
  (ownerConnect owner view false).map fun r => (r.2.accepted, r.2.sessionPresent)

/-- A session that is connected, closed, stored and restored: the closed owner resumes and refuses
    another client, and the restored one does neither, refuses an offline delivery and cannot be
    stored. -/
theorem restored_session_is_new :
    ∃ closed row restored,
      closed = run smallOwner [.connect persistentConnect false, .close] ∧
      repositorySnapshot closed = .ok row ∧ repositoryRestore smallConfig row = .ok restored ∧
      connectOutcome closed persistentConnect = .ok (true, true) ∧
      connectOutcome restored persistentConnect = .ok (true, false) ∧
      connectOutcome closed { persistentConnect with clientId := text "other" } = .error .eproto ∧
      connectOutcome restored { persistentConnect with clientId := text "other" } = .ok (true, false) ∧
      deliveryReserve restored 1 = .error .ebusy ∧ repositorySnapshot restored = .error .einval ∧
      ¬Resumes closed row restored := by
  refine ⟨_, _, _, rfl, rfl, rfl, rfl, rfl, rfl, rfl, rfl, rfl, ?_⟩
  intro hresumes
  cases hresumes.stored

end Example

end Flowie.Session
