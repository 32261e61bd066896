import Flowie.Session.Delivery

/-!
# Inbound publishes of a session

`publish_begin` admits a PUBLISH to the application and records its packet identifier,
`publish_settle` acknowledges it once the application has settled it, and `qos2_release` ends a
QoS 2 exchange.
-/

namespace Flowie.Session

open Mqtt

/-- `flowie_protocol_message_kind_t`; `unknown` is a value outside the enumeration. -/
inductive MessageKind where
  | data | control | ack | unknown
deriving DecidableEq, Repr

/-- `flowie_protocol_message_t`. -/
structure ProtocolMessage where
  headerValid : Bool
  protocolMqtt : Bool
  protocolVersion : UInt32
  kind : MessageKind
  qos : UInt32
  packetId : UInt32
  sessionGeneration : UInt64
  duplicate : UInt8
  retain : UInt8
deriving DecidableEq, Repr

/-- `flowie_protocol_message_validate`. -/
def messageValidate (message : ProtocolMessage) : Except Errno Unit :=
  if !message.headerValid || !message.protocolMqtt || message.protocolVersion == 0 || message.kind == .unknown ||
      decide (message.duplicate > 1) || decide (message.retain > 1) || message.sessionGeneration == 0 then
    .error .einval
  else if (message.protocolVersion ≠ 3 ∧ message.protocolVersion ≠ 4 ∧ message.protocolVersion ≠ 5) ∨
      message.qos > 2 ∨ (message.qos = 0 ∧ message.packetId ≠ 0) ∨ (message.qos > 0 ∧ message.packetId = 0) then
    .error .eproto
  else .ok ()

/-- `flowie_publish_message_view_t`. -/
structure PublishMessageView where
  metadata : ProtocolMessage
  route : Route
  topic : Bytes
  properties : Bytes
  payload : Bytes
deriving DecidableEq, Repr

/-- `flowie_publish_message_map`. -/
def publishMessageMap (publish : PublishView) (version : Version) (ownerInstanceId sessionId sessionGeneration : UInt64) :
    Except Errno PublishMessageView :=
  if ownerInstanceId = 0 ∨ sessionId = 0 ∨ sessionGeneration = 0 ∨ !version.supported ∨ publish.qos > 2 then
    .error .einval
  else
    let metadata : ProtocolMessage :=
      { headerValid := true
        protocolMqtt := true
        protocolVersion := version.toByte.toUInt32
        kind := .data
        qos := publish.qos.toUInt32
        packetId := publish.packetId.toUInt32
        sessionGeneration := sessionGeneration
        duplicate := publish.duplicate.toUInt8
        retain := publish.retain.toUInt8 }
    match messageValidate metadata with
    | .error e => .error e
    | .ok _ =>
      .ok ⟨metadata, ⟨true, true, ownerInstanceId, sessionId, sessionGeneration⟩, publish.topic, publish.properties,
        publish.payload⟩

/-- A mapped PUBLISH has a QoS, and above zero a packet identifier. -/
theorem publishMessageMap_eq_ok {publish : PublishView} {version : Version} {instanceId sessionId generation : UInt64}
    {message : PublishMessageView} (h : publishMessageMap publish version instanceId sessionId generation = .ok message) :
    ¬2 < publish.qos ∧ (publish.qos ≠ 0 → publish.packetId ≠ 0) := by
  unfold publishMessageMap at h
  split_ifs at h with hflds
  refine ⟨fun hgt => hflds (Or.inr (Or.inr (Or.inr (Or.inr hgt)))), ?_⟩
  intro hqos hid
  dsimp only at h
  split at h
  · cases h
  rename_i hval
  unfold messageValidate at hval
  split_ifs at hval with _ hproto
  refine hproto (Or.inr (Or.inr (Or.inr ⟨?_, by rw [hid]; rfl⟩)))
  have hne : publish.qos.toNat ≠ 0 := fun h0 => hqos (UInt8.toNat_inj.1 h0)
  exact show 0 < publish.qos.toUInt32.toNat by rw [UInt8.toNat_toUInt32]; omega

/-- `flowie_session_inflight_find`. -/
def inflightFind (owner : Owner) (packetId : UInt16) : Option (Inflight × Nat) :=
  match owner.inflight.findIdx? (·.packetId == packetId) with
  | none => none
  | some index => owner.inflight[index]?.map (·, index)

variable {owner : Owner} {packetId : UInt16}

theorem inflightFind_eq_some {entry : Inflight} {index : Nat} (h : inflightFind owner packetId = some (entry, index)) :
    owner.inflight[index]? = some entry ∧ entry.packetId = packetId := by
  unfold inflightFind at h
  split at h
  · cases h
  rename_i i hfind
  obtain ⟨hlt, hid, -⟩ := List.findIdx?_eq_some_iff_getElem.1 hfind
  rw [List.getElem?_eq_getElem hlt] at h
  cases h
  exact ⟨List.getElem?_eq_getElem hlt, by simpa using hid⟩

theorem inflightFind_eq_none : inflightFind owner packetId = none ↔ ∀ entry ∈ owner.inflight, entry.packetId ≠ packetId := by
  unfold inflightFind
  cases hfind : owner.inflight.findIdx? (·.packetId == packetId) with
  | none =>
    rw [List.findIdx?_eq_none_iff] at hfind
    simpa using hfind
  | some i =>
    obtain ⟨hlt, hid, -⟩ := List.findIdx?_eq_some_iff_getElem.1 hfind
    dsimp only
    rw [List.getElem?_eq_getElem hlt]
    constructor
    · intro h
      cases h
    · intro h
      exact absurd (by simpa using hid) (h _ (List.getElem_mem hlt))

/-- `flowie_session_route_check`. -/
def routeCheck (owner : Owner) (route : Route) : Except Errno Unit :=
  if !route.headerValid then .error .einval
  else if !route.protocolMqtt then .error .eproto
  else if route.ownerInstanceId ≠ owner.config.ownerInstanceId ∨ route.sessionId ≠ owner.config.sessionId ∨
      route.sessionGeneration ≠ owner.sessionGeneration then .error .ebusy
  else .ok ()

/-- `flowie_session_publish_begin_result_t`. -/
structure PublishBeginResult where
  admitApplication : Bool
  message : PublishMessageView
  ack : Option AckIntent
deriving DecidableEq, Repr

/-- `flowie_session_owner_publish_begin`. -/
def publishBegin (owner : Owner) (publish : PublishView) : Except Errno (Owner × PublishBeginResult) :=
  if !owner.active then .error .ebusy
  else
    match publishMessageMap publish owner.version owner.config.ownerInstanceId owner.config.sessionId
      owner.sessionGeneration with
    | .error e => .error e
    | .ok message =>
      if publish.qos = 0 then .ok (owner, ⟨true, message, none⟩)
      else
        match inflightFind owner publish.packetId with
        | some (existing, _) =>
          if !publish.duplicate || existing.qos != publish.qos then .error .eproto
          else if existing.state = .qos2Release then
            .ok (owner, ⟨false, message, some ⟨.pubrec, publish.packetId⟩⟩)
          else .ok (owner, ⟨false, message, none⟩)
        | none =>
          if owner.inflight.length ≥ owner.config.maxInflight then .error .enospc
          else if owner.resourceGeneration = uint64Max then .error .erange
          else
            .ok
              ({ owner with
                inflight := owner.inflight ++ [⟨publish.packetId, publish.qos, .settlement⟩]
                resourceGeneration := owner.resourceGeneration + 1 }, ⟨true, message, none⟩)

/-- `flowie_protocol_settlement_request_t`; `status` is the code of a failure. -/
structure SettlementRequest where
  headerValid : Bool
  message : ProtocolMessage
  point : SettlementPoint
  status : Option Errno
deriving DecidableEq, Repr

/-- `flowie_session_required_settlement`. -/
def requiredSettlement (owner : Owner) (qos : UInt8) : SettlementPoint :=
  if qos = 1 then owner.config.settlement.qos1 else owner.config.settlement.qos2

/-- The request is about a QoS 1 or 2 message of the current session generation. -/
def settlementRequestValid (owner : Owner) (request : SettlementRequest) : Bool :=
  decide (messageValidate request.message = .ok ()) && request.message.protocolMqtt &&
    request.message.protocolVersion == owner.version.toByte.toUInt32 && request.message.kind == .data &&
    request.message.qos != 0 && decide (request.message.qos ≤ 2) &&
    decide (request.message.packetId.toNat ≤ uint16Max.toNat) &&
    request.message.sessionGeneration == owner.sessionGeneration && request.message.packetId != 0 &&
    settlementPointValid request.point

/-- `flowie_session_owner_publish_settle`. -/
def publishSettle (owner : Owner) (route : Route) (request : SettlementRequest) : Except Errno (Owner × AckIntent) :=
  if !request.headerValid then .error .einval
  else if !owner.active then .error .ebusy
  else
    match routeCheck owner route with
    | .error e => .error e
    | .ok _ =>
      if !settlementRequestValid owner request then .error .eproto
      else
        match inflightFind owner request.message.packetId.toUInt16 with
        | none => .error .enoent
        | some (entry, index) =>
          if entry.qos.toUInt32 ≠ request.message.qos then .error .eproto
          else if entry.state ≠ .settlement then .error .ealready
          else
            match request.status with
            | some status => .error status
            | none =>
              if request.point.rank < (requiredSettlement owner entry.qos).rank then .error .ebusy
              else if owner.resourceGeneration = uint64Max then .error .erange
              else if entry.qos = 1 then
                .ok
                  ({ owner with
                    inflight := owner.inflight.swapRemove index
                    resourceGeneration := owner.resourceGeneration + 1 }, ⟨.puback, entry.packetId⟩)
              else
                .ok
                  ({ owner with
                    inflight := owner.inflight.set index { entry with state := .qos2Release }
                    resourceGeneration := owner.resourceGeneration + 1 }, ⟨.pubrec, entry.packetId⟩)

/-- `flowie_session_owner_qos2_release`. -/
def qos2Release (owner : Owner) (route : Route) (packetId : UInt16) : Except Errno (Owner × AckIntent) :=
  if packetId = 0 then .error .einval
  else if !owner.active then .error .ebusy
  else
    match routeCheck owner route with
    | .error e => .error e
    | .ok _ =>
      match inflightFind owner packetId with
      | none => .error .enoent
      | some (entry, index) =>
        if entry.qos ≠ 2 ∨ entry.state ≠ .qos2Release then .error .eproto
        else if owner.resourceGeneration = uint64Max then .error .erange
        else
          .ok
            ({ owner with
              inflight := owner.inflight.swapRemove index
              resourceGeneration := owner.resourceGeneration + 1 }, ⟨.pubcomp, packetId⟩)

end Flowie.Session
