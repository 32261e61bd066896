import Flowie.Lib.Checks
import Flowie.Mqtt.Wire

/-!
# Writing MQTT packets

The encoders of `flowie_mqtt_packet_views.c`. An encoder returns the bytes it writes to the
output, or the code it fails with before it has written. Flags of the source that it refuses above
one are Boolean here.
-/

namespace Flowie.Mqtt

open BigEndian

/-- The loop of `flowie_mqtt_vbi_write`, with one unit of fuel for each byte of a `uint32_t`. -/
def vbiWriteLoop : Nat → Nat → Bytes
  | 0, _ => []
  | fuel + 1, value =>
    if value / 128 ≠ 0 then UInt8.ofNat (value % 128 + 128) :: vbiWriteLoop fuel (value / 128)
    else [UInt8.ofNat (value % 128)]

/-- `flowie_mqtt_vbi_write`. -/
def vbiWrite (value : Nat) : Bytes := vbiWriteLoop 5 value

/-- The loop of `flowie_mqtt_vbi_size`. -/
def vbiSizeLoop : Nat → Nat → Nat
  | 0, _ => 0
  | fuel + 1, value => if value ≥ 128 then vbiSizeLoop fuel (value / 128) + 1 else 1

/-- `flowie_mqtt_vbi_size`. -/
def vbiSize (value : Nat) : Nat := vbiSizeLoop 5 value

/-- `flowie_mqtt_length_span_write`. -/
def lengthSpanWrite (value : Bytes) : Bytes := write 2 value.length ++ value

/-- `flowie_mqtt_property_values_write`. -/
def propertyValuesWrite (values : Bytes) : Bytes := vbiWrite values.length ++ values

/-- The first byte of a packet, its remaining length and its body, as `flowie_mqtt_encode_begin`
    and the writes after it lay them out; the capacity of the output bounds the whole. -/
def encodePacket (type : PacketType) (flags : Nat) (body : Bytes) (capacity : Nat) : Except ParseError Bytes :=
  if body.length > maxRemainingLength then .error .tooLarge
  else if 1 + vbiSize body.length + body.length > capacity then .error .tooLarge
  else .ok (UInt8.ofNat (type.toNibble * 16 + flags) :: (vbiWrite body.length ++ body))

/-- A check that fails with the code. -/
def require (condition : Bool) (e : ParseError) : Except ParseError Unit := if condition then .ok () else .error e

/-- A check made only when the flag is set. -/
def checkWhen (flag : Bool) (check : Except ParseError Unit) : Except ParseError Unit := if flag then check else .ok ()

theorem require_eq_ok {condition : Bool} {e : ParseError} : require condition e = .ok () ↔ condition = true := by
  cases condition <;> simp [require]

theorem checkWhen_eq_ok {flag : Bool} {check : Except ParseError Unit} :
    checkWhen flag check = .ok () ↔ (flag = true → check = .ok ()) := by
  cases flag <;> simp [checkWhen]

/-- `flowie_mqtt_publish_packet_t`. -/
structure PublishPacket where
  version : Version
  qos : UInt8
  retain : Bool
  duplicate : Bool
  packetId : UInt16
  topic : Bytes
  properties : Bytes
  payload : Bytes
deriving DecidableEq, Repr

section

variable [Vstr]

/-- `flowie_mqtt_property_values_validate`: the identifiers present. -/
def propertyValuesValidate (version : Version) (values : Bytes) (allowed repeatable : List PropertyId) :
    Except ParseError (List PropertyId) :=
  if values.length > maxRemainingLength then .error .tooLarge
  else if version.is3x then if values.isEmpty then .ok [] else .error .protocolError
  else if values.isEmpty then .ok []
  else
    match propertiesValidate values allowed repeatable with
    | .error _ => .error .protocolError
    | .ok present => .ok present

variable (packet : PublishPacket)

def publishTopicValid (present : List PropertyId) : Bool :=
  if packet.topic.isEmpty then packet.version == .v5 && present.contains .topicAlias
  else topicNameValidate packet.topic

def publishBody : Bytes :=
  lengthSpanWrite packet.topic ++
    (if packet.qos ≠ 0 then write 2 packet.packetId.toNat else []) ++
    (if packet.version = .v5 then propertyValuesWrite packet.properties else []) ++ packet.payload

def publishFlags : Nat :=
  packet.duplicate.toNat * 8 + packet.qos.toNat * 2 + packet.retain.toNat

/-- `flowie_mqtt_publish_packet_encode`. Every partial sum of the remaining length is checked
    against the same bound with the same result, so the model checks the total. -/
def publishPacketEncode (capacity : Nat) : Except ParseError Bytes :=
  if !packet.version.supported then .error .invalidArgument
  else if packet.qos > 2 ∨ (packet.qos = 0 ∧ (packet.packetId ≠ 0 ∨ packet.duplicate)) ∨
      (packet.qos ≠ 0 ∧ packet.packetId = 0) then .error .protocolError
  else if packet.topic.length > maxUtf8Size then .error .tooLarge
  else if !utf8Validate packet.topic then .error .protocolError
  else
    match propertyValuesValidate packet.version packet.properties publishPropertiesAllowed
      publishPropertiesRepeatable with
    | .error e => .error e
    | .ok present =>
      if !publishTopicValid packet present then .error .protocolError
      else encodePacket .publish (publishFlags packet) (publishBody packet) capacity

/-- `flowie_mqtt_length_span_input_validate`. -/
def lengthSpanInputValidate (value : Bytes) (utf8 : Bool) : Except ParseError Unit :=
  if value.length > maxUtf8Size then .error .tooLarge
  else if utf8 && !utf8Validate value then .error .protocolError
  else .ok ()

/-- `flowie_mqtt_remaining_add`. -/
def remainingAdd (remaining amount : Nat) : Except ParseError Nat :=
  if remaining + amount > maxRemainingLength then .error .tooLarge else .ok (remaining + amount)

/-- `flowie_mqtt_connect_packet_t`. -/
structure ConnectPacket where
  version : Version
  cleanStart : Bool
  hasWill : Bool
  willQos : UInt8
  willRetain : Bool
  hasUsername : Bool
  hasPassword : Bool
  keepAlive : UInt16
  properties : Bytes
  clientId : Bytes
  willProperties : Bytes
  willTopic : Bytes
  willPayload : Bytes
  username : Bytes
  password : Bytes
deriving DecidableEq, Repr

variable (packet : ConnectPacket)

def connectFlagsValid : Bool :=
  decide (packet.willQos ≤ 2) && !(packet.hasPassword && !packet.hasUsername) &&
    !(!packet.hasWill && (packet.willQos != 0 || packet.willRetain || !packet.willProperties.isEmpty ||
      !packet.willTopic.isEmpty || !packet.willPayload.isEmpty)) &&
    !(!packet.hasUsername && !packet.username.isEmpty) && !(!packet.hasPassword && !packet.password.isEmpty)

def willCheck : Except ParseError Unit := do
  let _ ← propertyValuesValidate packet.version packet.willProperties willPropertiesAllowed userPropertyRepeatable
  lengthSpanInputValidate packet.willTopic true
  require (topicNameValidate packet.willTopic) .protocolError
  lengthSpanInputValidate packet.willPayload false

/-- The checks of `flowie_mqtt_connect_packet_encode`. -/
def connectCheck : Except ParseError Unit := do
  require packet.version.supported .invalidArgument
  require (connectFlagsValid packet) .protocolError
  lengthSpanInputValidate packet.clientId true
  require (!(packet.version == .v31 && (packet.clientId.isEmpty || decide (packet.clientId.length > 23)))) .protocolError
  require (!(packet.version == .v311 && packet.clientId.isEmpty && !packet.cleanStart)) .protocolError
  let present ← propertyValuesValidate packet.version packet.properties connectPropertiesAllowed userPropertyRepeatable
  require (!(present.contains .authenticationData && !present.contains .authenticationMethod)) .protocolError
  checkWhen packet.hasWill (willCheck packet)
  checkWhen packet.hasUsername (lengthSpanInputValidate packet.username true)
  checkWhen packet.hasPassword (lengthSpanInputValidate packet.password false)

def connectFlags : Nat :=
  packet.hasUsername.toNat * 128 + packet.hasPassword.toNat * 64 + packet.willRetain.toNat * 32 +
    packet.willQos.toNat * 8 + packet.hasWill.toNat * 4 + packet.cleanStart.toNat * 2

def protocolName (version : Version) : Bytes := if version = .v31 then text "MQIsdp" else text "MQTT"

/-- A property block, which only MQTT 5 has. -/
def versionedPropertiesWrite (version : Version) (values : Bytes) : Bytes :=
  if version = .v5 then propertyValuesWrite values else []

def willWrite : Bytes :=
  if packet.hasWill then
    versionedPropertiesWrite packet.version packet.willProperties ++
      (lengthSpanWrite packet.willTopic ++ lengthSpanWrite packet.willPayload)
  else []

/-- A credential of a CONNECT, where it has one. -/
def optionalSpanWrite (flag : Bool) (value : Bytes) : Bytes := if flag then lengthSpanWrite value else []

def connectBody : Bytes :=
  lengthSpanWrite (protocolName packet.version) ++
    packet.version.toByte :: UInt8.ofNat (connectFlags packet) ::
      (write 2 packet.keepAlive.toNat ++
        (versionedPropertiesWrite packet.version packet.properties ++
          (lengthSpanWrite packet.clientId ++
            (willWrite packet ++
              (optionalSpanWrite packet.hasUsername packet.username ++
                optionalSpanWrite packet.hasPassword packet.password)))))

/-- `flowie_mqtt_connect_packet_encode`. The remaining length is added up after all other checks,
    so the model checks the total. -/
def connectPacketEncode (capacity : Nat) : Except ParseError Bytes := do
  connectCheck packet
  encodePacket .connect 0 (connectBody packet) capacity

/-- `flowie_mqtt_subscribe_packet_t`; a subscription has the fields of its view. -/
structure SubscribePacket where
  version : Version
  packetId : UInt16
  properties : Bytes
  subscriptions : List SubscriptionView
deriving DecidableEq, Repr

/-- The checks of one subscription in `flowie_mqtt_subscribe_packet_encode`. -/
def subscriptionCheck (version : Version) (entry : SubscriptionView) : Except ParseError Unit := do
  lengthSpanInputValidate entry.filter true
  require (topicFilterValidate entry.filter && decide (entry.qos ≤ 2) && decide (entry.retainHandling ≤ 2) &&
    !(version.is3x && (entry.noLocal || entry.retainAsPublished || entry.retainHandling != 0)) &&
    !(entry.noLocal && sharePrefix.isPrefixOf entry.filter)) .protocolError

/-- The loop over the subscriptions, with the remaining length so far. -/
def subscriptionsCheck (version : Version) : Nat → List SubscriptionView → Except ParseError Nat
  | remaining, [] => .ok remaining
  | remaining, entry :: rest => do
    subscriptionCheck version entry
    let remaining ← remainingAdd remaining (3 + entry.filter.length)
    subscriptionsCheck version remaining rest

def subscriptionOptions (entry : SubscriptionView) : Nat :=
  entry.qos.toNat + entry.noLocal.toNat * 4 + entry.retainAsPublished.toNat * 8 + entry.retainHandling.toNat * 16

def subscriptionWrite (entry : SubscriptionView) : Bytes :=
  lengthSpanWrite entry.filter ++ [UInt8.ofNat (subscriptionOptions entry)]

/-- The remaining length of a packet identifier and the property block. -/
def headRemaining (version : Version) (values : Bytes) : Except ParseError Nat :=
  if version = .v5 then remainingAdd 2 (vbiSize values.length + values.length) else .ok 2

/-- `flowie_mqtt_subscribe_packet_encode`. -/
def subscribePacketEncode (packet : SubscribePacket) (capacity : Nat) : Except ParseError Bytes := do
  require packet.version.supported .invalidArgument
  require (packet.packetId != 0 && !packet.subscriptions.isEmpty) .protocolError
  let _ ← propertyValuesValidate packet.version packet.properties subscribePropertiesAllowed userPropertyRepeatable
  let remaining ← headRemaining packet.version packet.properties
  let _ ← subscriptionsCheck packet.version remaining packet.subscriptions
  encodePacket .subscribe 2 (write 2 packet.packetId.toNat ++
    versionedPropertiesWrite packet.version packet.properties ++ packet.subscriptions.flatMap subscriptionWrite) capacity

/-- `flowie_mqtt_unsubscribe_packet_t`. -/
structure UnsubscribePacket where
  version : Version
  packetId : UInt16
  properties : Bytes
  filters : List Bytes
deriving DecidableEq, Repr

/-- The loop over the filters, with the remaining length so far. -/
def filtersCheck : Nat → List Bytes → Except ParseError Nat
  | remaining, [] => .ok remaining
  | remaining, filter :: rest => do
    lengthSpanInputValidate filter true
    require (topicFilterValidate filter) .protocolError
    let remaining ← remainingAdd remaining (2 + filter.length)
    filtersCheck remaining rest

/-- `flowie_mqtt_unsubscribe_packet_encode`. -/
def unsubscribePacketEncode (packet : UnsubscribePacket) (capacity : Nat) : Except ParseError Bytes := do
  require packet.version.supported .invalidArgument
  require (packet.packetId != 0 && !packet.filters.isEmpty) .protocolError
  let _ ← propertyValuesValidate packet.version packet.properties userPropertyRepeatable userPropertyRepeatable
  let remaining ← headRemaining packet.version packet.properties
  let _ ← filtersCheck remaining packet.filters
  encodePacket .unsubscribe 2 (write 2 packet.packetId.toNat ++
    versionedPropertiesWrite packet.version packet.properties ++ packet.filters.flatMap lengthSpanWrite) capacity

/-- `flowie_mqtt_control_packet_t`. -/
structure ControlPacket where
  version : Version
  type : PacketType
  sessionPresent : Bool
  packetId : UInt16
  reasonCode : UInt8
  properties : Bytes
  reasonCodes : Bytes
deriving DecidableEq, Repr

/-- The checks of `flowie_mqtt_control_validate` by packet type, and the body the encoder then
    writes. The remaining length it computes is the length of this body. -/
def controlBody (packet : ControlPacket) : Except ParseError Bytes :=
  match packet.type with
  | .pingresp =>
    if packet.sessionPresent || packet.packetId != 0 || packet.reasonCode != 0 || !packet.properties.isEmpty ||
        !packet.reasonCodes.isEmpty then .error .protocolError
    else .ok []
  | .disconnect | .auth =>
    if packet.sessionPresent || packet.packetId != 0 || !packet.reasonCodes.isEmpty ||
        !reasonCodeValid packet.type packet.version packet.reasonCode then .error .protocolError
    else if packet.version.is3x then
      if packet.type ≠ .disconnect ∨ packet.reasonCode ≠ 0 ∨ !packet.properties.isEmpty then .error .protocolError
      else .ok []
    else if packet.reasonCode = 0 ∧ packet.properties.isEmpty then .ok []
    else if packet.properties.isEmpty then .ok [packet.reasonCode]
    else .ok (packet.reasonCode :: propertyValuesWrite packet.properties)
  | .connack =>
    if packet.packetId != 0 || !packet.reasonCodes.isEmpty || (packet.sessionPresent && packet.reasonCode != 0) ||
        !reasonCodeValid packet.type packet.version packet.reasonCode then .error .protocolError
    else if packet.version = .v31 ∧ packet.sessionPresent then .error .protocolError
    else
      .ok (UInt8.ofNat packet.sessionPresent.toNat :: packet.reasonCode ::
        (if packet.version = .v5 then propertyValuesWrite packet.properties else []))
  | .suback | .unsuback =>
    if packet.sessionPresent || packet.packetId == 0 || packet.reasonCode != 0 ||
        (packet.type == .suback && packet.reasonCodes.isEmpty) ||
        (packet.type == .unsuback && packet.version == .v5 && packet.reasonCodes.isEmpty) then .error .protocolError
    else if packet.version.is3x ∧ (!packet.properties.isEmpty ∨ (packet.type = .unsuback ∧ !packet.reasonCodes.isEmpty))
    then .error .protocolError
    else if !packet.reasonCodes.all (reasonCodeValid packet.type packet.version) then .error .protocolError
    else
      .ok (write 2 packet.packetId.toNat ++
        (if packet.version = .v5 then propertyValuesWrite packet.properties else []) ++ packet.reasonCodes)
  | _ =>
    if packet.sessionPresent || packet.packetId == 0 || !packet.reasonCodes.isEmpty ||
        !reasonCodeValid packet.type packet.version packet.reasonCode then .error .protocolError
    else if packet.version.is3x then
      if !packet.properties.isEmpty ∨ packet.reasonCode ≠ 0 then .error .protocolError
      else .ok (write 2 packet.packetId.toNat)
    else if packet.reasonCode = 0 ∧ packet.properties.isEmpty then .ok (write 2 packet.packetId.toNat)
    else
      .ok (write 2 packet.packetId.toNat ++ packet.reasonCode :: propertyValuesWrite packet.properties)

/-- `flowie_mqtt_control_packet_encode`. -/
def controlPacketEncode (packet : ControlPacket) (capacity : Nat) : Except ParseError Bytes :=
  if !controlType packet.type || !packet.version.supported then .error .invalidArgument
  else if packet.properties.length > maxRemainingLength ∨ packet.reasonCodes.length > maxRemainingLength then
    .error .tooLarge
  else
    match (if packet.version = .v5 then controlPropertiesValidate packet.type packet.properties else .ok ()) with
    | .error _ => .error .protocolError
    | .ok _ =>
      match controlBody packet with
      | .error e => .error e
      | .ok body => encodePacket packet.type (if packet.type = .pubrel then 2 else 0) body capacity

end

end Flowie.Mqtt
