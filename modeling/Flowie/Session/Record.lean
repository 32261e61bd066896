import Flowie.Session.DeliveryPackets
import Flowie.Session.Inbound

/-!
# Session records

`flowie_session_owner_record_encode` writes the durable part of an owner as a sequence of LTV
messages, and `flowie_session_owner_record_restore` builds an owner from them. The messages come in
the order of their types: header, metadata, filters, subscription options, released packet
identifiers, deliveries, delivery packets and the four parts of the Will.
-/

namespace Flowie.Session

open Mqtt BigEndian

/-- The LTV library the records are written with: the size of a message with a value of the given size,
    or zero; the bytes written for a type and a value when there is room for them; the payload and
    header sizes of the message at the front; and the type and value of a message. -/
class Ltv where
  wireSize : Nat → Nat
  build : UInt8 → Bytes → Nat → Bytes
  peekSize : Bytes → Option (Nat × Nat)
  parse : Bytes → Option (UInt8 × Bytes)

open Ltv

/-- The library writes a message of the size it announces and parses back what it wrote. -/
class LawfulLtv [Ltv] : Prop where
  wireSize_ne_zero : ∀ size ≤ maxWirePacketSize, wireSize size ≠ 0
  length_build : ∀ type value capacity, type ≠ 0 → wireSize value.length ≠ 0 →
    wireSize value.length ≤ capacity → (build type value capacity).length = wireSize value.length
  peekSize_build : ∀ type value capacity rest, type ≠ 0 → wireSize value.length ≠ 0 →
    wireSize value.length ≤ capacity → ∃ payload header, payload ≠ 0 ∧
      header + payload = wireSize value.length ∧
      peekSize (build type value capacity ++ rest) = some (payload, header)
  parse_build : ∀ type value capacity, type ≠ 0 → wireSize value.length ≠ 0 →
    wireSize value.length ≤ capacity → parse (build type value capacity) = some (type, value)

def sizeMax : Nat := 2 ^ 64 - 1
def int64Max : UInt64 := 0x7fffffffffffffff

section Encode

variable [Ltv]

/-- `flowie_session_record_size_add`. -/
def recordSizeAdd (total size : Nat) : Except Errno Nat :=
  let wireSize := wireSize size
  if wireSize = 0 ∨ total > sizeMax - wireSize then .error .erange else .ok (total + wireSize)

/-- `flowie_session_record_append` after the bytes `out`. -/
def recordAppend (capacity : Nat) (out : Bytes) (type : UInt8) (value : Bytes) : Except Errno Bytes :=
  if type = 0 ∨ out.length > capacity then .error .einval
  else
    let wireSize := wireSize value.length
    if wireSize = 0 ∨ wireSize > capacity - out.length then .error .enospc
    else
      let written := build type value (capacity - out.length)
      if written.length ≠ wireSize then .error .eproto else .ok (out ++ written)

/-- A delivery that is written: every one that has its packet. -/
def Delivery.persisted (delivery : Delivery) : Bool := delivery.state != .reserved

def Inflight.released (entry : Inflight) : Bool := entry.state == .qos2Release

def DeliveryState.toByte : DeliveryState → UInt8
  | .reserved => 1
  | .waitAck => 2
  | .waitPubrec => 3
  | .waitPubcomp => 4
  | .queued => 5

/-- The states a record can hold. -/
def DeliveryState.ofStored (state : UInt8) : Option DeliveryState :=
  if state = 2 then some .waitAck else if state = 3 then some .waitPubrec else if state = 4 then some .waitPubcomp
  else none

section

variable [Vstr]

def willCheck (will : Will) : Except Errno Unit :=
  if will.qos > 2 ∨ !topicNameValidate will.topic then .error .eproto else .ok ()

/-- The value sizes in the order in which they are added up, and the failures met on the way. -/
def recordSizes (owner : Owner) : List (Except Errno Nat) :=
  [.ok 8, .ok 25] ++ owner.subscriptions.map (fun s => .ok s.filter.length) ++
    owner.subscriptions.map (fun _ => .ok 8) ++ (owner.inflight.filter (·.released)).map (fun _ => .ok 3) ++
    (owner.deliveries.entries.filter (·.persisted)).map
      (fun delivery => if delivery.packet.isNone then .error .eproto else .ok 12) ++
    (owner.deliveries.entries.filter (·.persisted)).map (fun delivery => .ok (delivery.packet.getD []).length) ++
    owner.will.elim [] fun will =>
      [(willCheck will).map fun _ => 7, .ok will.topic.length, .ok will.properties.length, .ok will.payload.length]

end

/-- Adding the sizes up. -/
def recordSizeLoop : List (Except Errno Nat) → Nat → Except Errno Nat
  | [], total => .ok total
  | .error e :: _, _ => .error e
  | .ok size :: rest, total =>
    match recordSizeAdd total size with
    | .error e => .error e
    | .ok total => recordSizeLoop rest total

def recordHeader : Bytes := text "FSES" ++ [0, 1, 0, 3]

def recordMetadata (owner : Owner) : Bytes :=
  [owner.version.toByte] ++ write 8 owner.config.sessionId.toNat ++
    write 8 owner.sessionGeneration.toNat ++ write 2 owner.keepAlive.toNat ++
    write 4 owner.sessionExpiryInterval.toNat ++ write 2 owner.nextDeliveryPacketId.toNat

def recordOptions (subscription : Subscription) : Bytes :=
  [subscription.qos, subscription.noLocal.toUInt8, subscription.retainAsPublished.toUInt8,
    subscription.retainHandling] ++ write 4 subscription.subscriptionIdentifier.toNat

def recordInflight (entry : Inflight) : Bytes := write 2 entry.packetId.toNat ++ [entry.qos]

def recordDelivery (delivery : Delivery) : Bytes :=
  write 2 delivery.packetId.toNat ++ [delivery.qos, delivery.storedState.toByte] ++
    write 8 delivery.expiryAtEpochSeconds.toNat

def recordWill (active : Bool) (will : Will) : Bytes :=
  [(will.pending || active).toUInt8, will.qos, will.retain.toUInt8] ++ write 4 will.delayInterval.toNat

def recordFields (owner : Owner) : List (UInt8 × Bytes) :=
  [(1, recordHeader), (2, recordMetadata owner)] ++ owner.subscriptions.map (fun s => (3, s.filter)) ++
    owner.subscriptions.map (fun s => (4, recordOptions s)) ++
    (owner.inflight.filter (·.released)).map (fun entry => (5, recordInflight entry)) ++
    (owner.deliveries.entries.filter (·.persisted)).map (fun delivery => (6, recordDelivery delivery)) ++
    (owner.deliveries.entries.filter (·.persisted)).map (fun delivery => (7, delivery.packet.getD [])) ++
    owner.will.elim [] fun will =>
      [(8, recordWill owner.active will), (9, will.topic), (10, will.properties), (11, will.payload)]

def recordAppendLoop (capacity : Nat) : List (UInt8 × Bytes) → Bytes → Except Errno Bytes
  | [], out => .ok out
  | (type, value) :: rest, out =>
    match recordAppend capacity out type value with
    | .error e => .error e
    | .ok out => recordAppendLoop capacity rest out

variable [Vstr]

/-- `flowie_session_owner_record_encode` into a buffer of the given capacity. -/
def recordEncode (owner : Owner) (capacity : Nat) : Except Errno Bytes :=
  if !owner.initialized || owner.clientId.isNone || owner.sessionGeneration == 0 || owner.resourceGeneration == 0 then
    .error .einval
  else
    match recordSizeLoop (recordSizes owner) 0 with
    | .error e => .error e
    | .ok required =>
      if capacity < required then .error .enospc
      else
        match recordAppendLoop capacity (recordFields owner) [] with
        | .error e => .error e
        | .ok out => if out.length = required then .ok out else .error .eproto

end Encode

structure RestoreState where
  owner : Owner
  offset : Nat
  optionIndex : Nat
  packetIndex : Nat
  previousType : UInt8
  recordMinor : UInt8
  headerSeen : Bool
  metadataSeen : Bool
  willMetadataSeen : Bool
  willTopicSeen : Bool
  willPropertiesSeen : Bool
  willPayloadSeen : Bool

/-- The number of `width` bytes at an offset of a value. -/
def readAt (value : Bytes) (offset width : Nat) : Nat := read ((value.drop offset).take width)

def byteAt (value : Bytes) (offset : Nat) : UInt8 := value.getD offset 0

/-- A message of type 1. -/
def restoreHeader (st : RestoreState) (value : Bytes) : Except Errno RestoreState :=
  if st.headerSeen ∨ st.offset ≠ 0 ∨ value.length ≠ 8 ∨ value.take 4 ≠ text "FSES" ∨ byteAt value 4 ≠ 0 ∨
      byteAt value 5 ≠ 1 ∨ byteAt value 6 ≠ 0 ∨ byteAt value 7 > 3 then .error .eproto
  else .ok { st with recordMinor := byteAt value 7, headerSeen := true }

/-- A message of type 2. -/
def restoreMetadata (st : RestoreState) (value : Bytes) : Except Errno RestoreState :=
  if !st.headerSeen ∨ st.metadataSeen ∨ value.length ≠ 25 then .error .eproto
  else
    let sessionId := UInt64.ofNat (readAt value 1 8)
    let sessionGeneration := UInt64.ofNat (readAt value 9 8)
    let version := Version.ofByte (byteAt value 0)
    if !version.supported ∨ sessionId = 0 ∨ sessionGeneration = 0 then .error .eproto
    else
      .ok
        { st with
          owner :=
            { st.owner with
              config := { st.owner.config with sessionId := sessionId }
              version := version
              sessionGeneration := sessionGeneration
              keepAlive := UInt16.ofNat (readAt value 17 2)
              sessionExpiryInterval := UInt32.ofNat (readAt value 19 4)
              nextDeliveryPacketId := UInt16.ofNat (readAt value 23 2) }
          metadataSeen := true }

section Restore

variable [Vstr]

/-- A message of type 3; the options of the subscription follow later. -/
def restoreFilter (config : SessionConfig) (st : RestoreState) (value : Bytes) : Except Errno RestoreState :=
  if !st.metadataSeen ∨ st.owner.subscriptions.length ≥ config.maxSubscriptions ∨ !topicFilterValidate value ∨
      st.owner.subscriptions.any (·.filter == value) then .error .eproto
  else
    .ok { st with owner := { st.owner with
      subscriptions := st.owner.subscriptions ++ [⟨value, 0, false, false, 0, 0⟩] } }

section

omit [Vstr]

/-- A message of type 4. -/
def restoreOptions (st : RestoreState) (value : Bytes) : Except Errno RestoreState :=
  match st.owner.subscriptions[st.optionIndex]? with
  | none => .error .eproto
  | some subscription =>
    if value.length ≠ (if st.recordMinor ≥ 2 then 8 else 4) ∨ byteAt value 0 > 2 ∨ byteAt value 1 > 1 ∨
        byteAt value 2 > 1 ∨ byteAt value 3 > 2 then .error .eproto
    else
      let identifier := if st.recordMinor ≥ 2 then UInt32.ofNat (readAt value 4 4) else 0
      if identifier.toNat > maxRemainingLength then .error .eproto
      else
        .ok
          { st with
            owner := { st.owner with
              subscriptions := st.owner.subscriptions.set st.optionIndex
                { subscription with
                  qos := byteAt value 0
                  noLocal := byteAt value 1 == 1
                  retainAsPublished := byteAt value 2 == 1
                  retainHandling := byteAt value 3
                  subscriptionIdentifier := identifier } }
            optionIndex := st.optionIndex + 1 }

/-- A message of type 5. -/
def restoreInflight (config : SessionConfig) (st : RestoreState) (value : Bytes) : Except Errno RestoreState :=
  if value.length ≠ 3 ∨ byteAt value 2 ≠ 2 ∨
      st.owner.inflight.length + st.owner.deliveries.entries.length ≥ config.maxInflight then .error .eproto
  else
    let packetId := UInt16.ofNat (readAt value 0 2)
    if packetId = 0 ∨ (inflightFind st.owner packetId).isSome then .error .eproto
    else
      .ok { st with owner := { st.owner with
        inflight := st.owner.inflight ++ [⟨packetId, byteAt value 2, .qos2Release⟩] } }

/-- A message of type 6; the packet of the delivery follows later. -/
def restoreDelivery (config : SessionConfig) (st : RestoreState) (value : Bytes) : Except Errno RestoreState :=
  if value.length ≠ (if st.recordMinor ≥ 3 then 12 else 4) ∨
      st.owner.inflight.length + st.owner.deliveries.entries.length ≥ config.maxInflight then .error .eproto
  else
    let packetId := UInt16.ofNat (readAt value 0 2)
    let qos := byteAt value 2
    let expiry := if st.recordMinor ≥ 3 then UInt64.ofNat (readAt value 4 8) else 0
    match DeliveryState.ofStored (byteAt value 3) with
    | none => .error .eproto
    | some state =>
      if packetId = 0 ∨ qos = 0 ∨ qos > 2 ∨ deliveryLookup st.owner packetId ≠ .error .enoent ∨
          (inflightFind st.owner packetId).isSome then .error .eproto
      else
        match deliveryAppend st.owner ⟨packetId, qos, state, expiry, none⟩ with
        | .error e => .error e
        | .ok owner => .ok { st with owner := owner }

/-- A message of type 7. -/
def restorePacket (st : RestoreState) (value : Bytes) : Except Errno RestoreState :=
  match st.owner.deliveries.entries[st.packetIndex]? with
  | none => .error .eproto
  | some delivery =>
    if delivery.packet.isSome ∨ value.length = 0 then .error .eproto
    else
      .ok
        { st with
          owner := deliveryModifyAt st.owner st.packetIndex (fun d => { d with packet := some value }) fun _ => rfl
          packetIndex := st.packetIndex + 1 }

/-- A message of type 8; the texts of the Will follow later. -/
def restoreWillMetadata (st : RestoreState) (value : Bytes) : Except Errno RestoreState :=
  if !st.metadataSeen ∨ st.willMetadataSeen ∨ value.length ≠ 7 ∨ byteAt value 0 > 1 ∨ byteAt value 1 > 2 ∨
      byteAt value 2 > 1 then .error .eproto
  else
    let will : Will := ⟨[], [], [], UInt32.ofNat (readAt value 3 4), byteAt value 0 == 1, byteAt value 1,
      byteAt value 2 == 1⟩
    .ok { st with owner := { st.owner with will := some will }, willMetadataSeen := true }

end

variable (st : RestoreState)

/-- A message of type 9. -/
def restoreWillTopic (value : Bytes) : Except Errno RestoreState :=
  if !st.willMetadataSeen ∨ st.willTopicSeen ∨ !topicNameValidate value then .error .eproto
  else
    .ok { st with
      owner := { st.owner with will := st.owner.will.map fun will => { will with topic := value } }
      willTopicSeen := true }

omit [Vstr] in
/-- A message of type 10. -/
def restoreWillProperties (value : Bytes) : Except Errno RestoreState :=
  if !st.willTopicSeen ∨ st.willPropertiesSeen then .error .eproto
  else
    .ok { st with
      owner := { st.owner with will := st.owner.will.map fun will => { will with properties := value } }
      willPropertiesSeen := true }

omit [Vstr] in
/-- A message of type 11. -/
def restoreWillPayload (value : Bytes) : Except Errno RestoreState :=
  if !st.willPropertiesSeen ∨ st.willPayloadSeen then .error .eproto
  else
    .ok { st with
      owner := { st.owner with will := st.owner.will.map fun will => { will with payload := value } }
      willPayloadSeen := true }

/-- The types come in order; subscriptions, packet identifiers and deliveries can be many. -/
def typeInOrder (type : UInt8) : Bool :=
  !(type == 0 || decide (type > 11) || decide (type < st.previousType) ||
    (type == st.previousType && (decide (type < 3) || decide (type > 7))) ||
    (st.recordMinor == 0 && decide (type > 7)))

def restoreMessage (config : SessionConfig) (st : RestoreState) (type : UInt8) (value : Bytes) :
    Except Errno RestoreState :=
  if type = 1 then restoreHeader st value
  else if type = 2 then restoreMetadata st value
  else if type = 3 then restoreFilter config st value
  else if type = 4 then restoreOptions st value
  else if type = 5 then restoreInflight config st value
  else if type = 6 then restoreDelivery config st value
  else if type = 7 then restorePacket st value
  else if type = 8 then restoreWillMetadata st value
  else if type = 9 then restoreWillTopic st value
  else if type = 10 then restoreWillProperties st value
  else restoreWillPayload st value

def restoreField (config : SessionConfig) (st : RestoreState) (type : UInt8) (value : Bytes) :
    Except Errno RestoreState :=
  if !typeInOrder st type then .error .eproto else restoreMessage config st type value

def RestoreState.passed (type : UInt8) (wireSize : Nat) : RestoreState :=
  { st with previousType := type, offset := st.offset + wireSize }

variable [Ltv]

/-- The loop over the messages of a record; every message takes a byte, so the fuel is the number of
    bytes. -/
def restoreLoop (config : SessionConfig) : Nat → Bytes → RestoreState → Except Errno RestoreState
  | 0, data, st => if data.isEmpty then .ok st else .error .eproto
  | fuel + 1, data, st =>
    if data.isEmpty then .ok st
    else
      match peekSize data with
      | none => .error .eproto
      | some (payloadSize, headerSize) =>
        if payloadSize = 0 ∨ headerSize > data.length ∨ payloadSize > data.length - headerSize then .error .eproto
        else
          let wireSize := headerSize + payloadSize
          match parse (data.take wireSize) with
          | none => .error .eproto
          | some (type, value) =>
            match restoreField config st type value with
            | .error e => .error e
            | .ok st => restoreLoop config fuel (data.drop wireSize) (st.passed type wireSize)

omit [Ltv] in
def restoreComplete (st : RestoreState) : Bool :=
  st.headerSeen && st.metadataSeen && st.optionIndex == st.owner.subscriptions.length &&
    st.packetIndex == st.owner.deliveries.entries.length && !(st.recordMinor == 0 && st.willMetadataSeen) &&
    !(st.willMetadataSeen && (!st.willTopicSeen || !st.willPropertiesSeen || !st.willPayloadSeen))

omit [Ltv] in
def deliveriesValidate (version : Version) : List Delivery → Except Errno Unit
  | [] => .ok ()
  | delivery :: rest =>
    match recordDeliveryValidate version delivery with
    | .error e => .error e
    | .ok _ => deliveriesValidate version rest

/-- `flowie_session_owner_record_restore`. -/
def recordRestore (config : SessionConfig) (clientId : Bytes) (revision : UInt64) (data : Bytes) :
    Except Errno Owner :=
  if !configValid config || data.isEmpty || clientId.isEmpty || decide (clientId.length > uint16Max.toNat) ||
      !utf8Validate clientId || revision == 0 || decide (revision > int64Max) then .error .einval
  else
    match ownerCreate config with
    | none => .error .enomem
    | some owner =>
      let owner := { owner with clientId := some clientId }
      match restoreLoop config data.length data
        ⟨owner, 0, 0, 0, 0, 0, false, false, false, false, false, false⟩ with
      | .error e => .error e
      | .ok st =>
        if !restoreComplete st then .error .eproto
        else
          match deliveriesValidate st.owner.version st.owner.deliveries.entries with
          | .error e => .error e
          | .ok _ =>
            .ok { st.owner with resourceGeneration := revision, initialized := true, active := false, cleanStart := false }

end Restore

end Flowie.Session
