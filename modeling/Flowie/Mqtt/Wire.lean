import Flowie.Lib.BigEndian
import Flowie.Lib.Reader
import Flowie.Mqtt.Topic

/-!
# Reading MQTT packets

The lexer and the typed views of `flowie_mqtt_lexer.re`, `flowie_mqtt_protocol.c` and
`flowie_mqtt_packet_views.c`. A cursor into a buffer is the list of the bytes from it on, so a
reader returns what it read and what is left. Sizes and ABI versions of the view structures are
as expected, and a span always has data. Beside each typed parser stands the lemma that its failures are `Definite`.
-/

namespace Flowie.Mqtt

inductive Version where
  | unspecified | v31 | v311 | v5
deriving DecidableEq, Repr

/-- `flowie_mqtt_version_is_supported`. -/
def Version.supported (version : Version) : Bool := version != .unspecified

/-- `flowie_mqtt_version_is_3x`. -/
def Version.is3x (version : Version) : Bool := version == .v31 || version == .v311

def Version.toByte : Version → UInt8
  | .unspecified => 0
  | .v31 => 3
  | .v311 => 4
  | .v5 => 5

/-- The supported version a protocol level byte names. -/
def Version.ofByte (level : UInt8) : Version :=
  if level = 3 then .v31 else if level = 4 then .v311 else if level = 5 then .v5 else .unspecified

inductive PacketType where
  | connect | connack | publish | puback | pubrec | pubrel | pubcomp | subscribe | suback
  | unsubscribe | unsuback | pingreq | pingresp | disconnect | auth
deriving DecidableEq, Repr

def PacketType.toNibble : PacketType → Nat
  | .connect => 1 | .connack => 2 | .publish => 3 | .puback => 4 | .pubrec => 5 | .pubrel => 6
  | .pubcomp => 7 | .subscribe => 8 | .suback => 9 | .unsubscribe => 10 | .unsuback => 11
  | .pingreq => 12 | .pingresp => 13 | .disconnect => 14 | .auth => 15

def PacketType.ofNibble : Nat → Option PacketType
  | 1 => some .connect | 2 => some .connack | 3 => some .publish | 4 => some .puback
  | 5 => some .pubrec | 6 => some .pubrel | 7 => some .pubcomp | 8 => some .subscribe
  | 9 => some .suback | 10 => some .unsubscribe | 11 => some .unsuback | 12 => some .pingreq
  | 13 => some .pingresp | 14 => some .disconnect | 15 => some .auth
  | _ => none

/-- The failures of `flowie_mqtt_parse_result_t`. -/
inductive ParseError where
  | needMore | invalidArgument | malformed | protocolError | tooLarge
deriving DecidableEq, Repr

/-- A failure is one of the packet itself; more bytes would not help. -/
def Definite {α : Type} (result : Except ParseError α) : Prop :=
  ∀ e, result = .error e → e = .malformed ∨ e = .protocolError ∨ e = .invalidArgument

theorem Definite.ite {α : Type} {p : Prop} [Decidable p] {a b : Except ParseError α} (ha : Definite a) (hb : Definite b) :
    Definite (if p then a else b) := by
  split
  · exact ha
  · exact hb

variable {version : Version} {type : PacketType} {bytes block values : Bytes} {e : ParseError}

def maxRemainingLength : Nat := 268435455

def maxWirePacketSize : Nat := maxRemainingLength + 5

/-- The loop of `flowie_mqtt_vbi` after `offset` bytes; the lexer reads the remaining length with
    the same loop. -/
def vbiLoop (offset multiplier result : Nat) : Bytes → Except ParseError (Nat × Bytes)
  | [] => .error .needMore
  | byte :: rest =>
    if offset = 4 then .error .malformed
    else
      let result := result + byte.toNat % 128 * multiplier
      if byte.toNat ≥ 128 then vbiLoop (offset + 1) (multiplier * 128) result rest
      else if offset + 1 > 1 ∧ byte = 0 then .error .malformed
      else .ok (result, rest)

/-- `flowie_mqtt_vbi`: a variable byte integer. -/
def vbi (bytes : Bytes) : Except ParseError (Nat × Bytes) := vbiLoop 0 1 0 bytes

theorem vbiLoop_error {offset multiplier result : Nat} (h : vbiLoop offset multiplier result bytes = .error e) :
    e = .needMore ∨ e = .malformed := by
  induction bytes generalizing offset multiplier result with
  | nil => exact .inl (Except.error.inj h).symm
  | cons byte rest ih => grind [vbiLoop]

/-- An integer goes on behind the last byte: there are at most four, and each says that another one follows. -/
theorem vbiLoop_needMore_iff {offset multiplier result : Nat} (hoffset : offset ≤ 4) :
    vbiLoop offset multiplier result bytes = .error .needMore ↔ bytes.length + offset ≤ 4 ∧ ∀ byte ∈ bytes, 128 ≤ byte.toNat := by
  induction bytes generalizing offset multiplier result with
  | nil => simp [vbiLoop, hoffset]
  | cons byte rest ih =>
    rw [vbiLoop, List.length_cons, List.forall_mem_cons]
    by_cases hend : offset = 4
    · rw [if_pos hend]
      exact iff_of_false (by simp) (by omega)
    rw [if_neg hend]
    dsimp only
    by_cases hgoes : 128 ≤ byte.toNat
    · rw [if_pos hgoes, ih (by omega), and_iff_right hgoes, Nat.add_right_comm, ← Nat.add_assoc]
    · rw [if_neg hgoes]
      refine iff_of_false ?_ fun h => hgoes h.2.1
      split <;> simp

section

variable [Vstr]

/-- `flowie_mqtt_length_span`: a length of two bytes and as many bytes of data. -/
def lengthSpan (utf8 : Bool) : Bytes → Except ParseError (Bytes × Bytes)
  | hi :: lo :: rest =>
    let length := BigEndian.read [hi, lo]
    if rest.length < length then .error .malformed
    else if utf8 && !utf8Validate (rest.take length) then .error .protocolError
    else .ok (rest.take length, rest.drop length)
  | _ => .error .malformed

theorem definite_lengthSpan {utf8 : Bool} : Definite (lengthSpan utf8 bytes) := by
  unfold lengthSpan
  grind [Definite]

end

/-- `flowie_mqtt_property_block_parse`: the property values and what follows the block. -/
def propertyBlockParse (bytes : Bytes) : Except ParseError (Bytes × Bytes) :=
  match vbi bytes with
  | .error e => .error e
  | .ok (valueSize, rest) =>
    if valueSize > rest.length then .error .needMore else .ok (rest.take valueSize, rest.drop valueSize)

/-- `flowie_mqtt_typed_property_block`. -/
def typedPropertyBlock (bytes : Bytes) : Except ParseError (Bytes × Bytes) :=
  match propertyBlockParse bytes with
  | .error .needMore => .error .malformed
  | r => r

/-- The bytes end inside the length of the block, or before the last of the values it announces. -/
def EndsEarly (bytes : Bytes) : Prop :=
  (bytes.length ≤ 4 ∧ ∀ byte ∈ bytes, 128 ≤ byte.toNat) ∨ ∃ size rest, vbi bytes = .ok (size, rest) ∧ rest.length < size

theorem propertyBlockParse_needMore_iff : propertyBlockParse bytes = .error .needMore ↔ EndsEarly bytes := by
  have hcut : vbiLoop 0 1 0 bytes = _ ↔ _ := vbiLoop_needMore_iff (Nat.zero_le 4)
  unfold propertyBlockParse EndsEarly
  rw [Nat.add_zero, ← vbi] at hcut
  rw [← hcut]
  cases vbi bytes with
  | error e => simp
  | ok read =>
    obtain ⟨size, rest⟩ := read
    by_cases hlt : rest.length < size <;> simp [hlt]

theorem propertyBlockParse_error (h : propertyBlockParse bytes = .error e) : e = .needMore ∨ e = .malformed := by
  grind [propertyBlockParse, vbi, vbiLoop_error]

theorem definite_typedPropertyBlock : Definite (typedPropertyBlock bytes) := by
  grind [Definite, typedPropertyBlock, propertyBlockParse_error]

inductive PropertyId where
  | payloadFormatIndicator | messageExpiryInterval | contentType | responseTopic | correlationData
  | subscriptionIdentifier | sessionExpiryInterval | assignedClientIdentifier | serverKeepAlive
  | authenticationMethod | authenticationData | requestProblemInformation | willDelayInterval
  | requestResponseInformation | responseInformation | serverReference | reasonString
  | receiveMaximum | topicAliasMaximum | topicAlias | maximumQos | retainAvailable | userProperty
  | maximumPacketSize | wildcardSubscriptionAvailable | subscriptionIdentifierAvailable
  | sharedSubscriptionAvailable
deriving DecidableEq, Repr

def PropertyId.ofWire : Nat → Option PropertyId
  | 0x01 => some .payloadFormatIndicator | 0x02 => some .messageExpiryInterval
  | 0x03 => some .contentType | 0x08 => some .responseTopic | 0x09 => some .correlationData
  | 0x0b => some .subscriptionIdentifier | 0x11 => some .sessionExpiryInterval
  | 0x12 => some .assignedClientIdentifier | 0x13 => some .serverKeepAlive
  | 0x15 => some .authenticationMethod | 0x16 => some .authenticationData
  | 0x17 => some .requestProblemInformation | 0x18 => some .willDelayInterval
  | 0x19 => some .requestResponseInformation | 0x1a => some .responseInformation
  | 0x1c => some .serverReference | 0x1f => some .reasonString | 0x21 => some .receiveMaximum
  | 0x22 => some .topicAliasMaximum | 0x23 => some .topicAlias | 0x24 => some .maximumQos
  | 0x25 => some .retainAvailable | 0x26 => some .userProperty | 0x27 => some .maximumPacketSize
  | 0x28 => some .wildcardSubscriptionAvailable | 0x29 => some .subscriptionIdentifierAvailable
  | 0x2a => some .sharedSubscriptionAvailable
  | _ => none

inductive PropertyType where
  | byte | uint16 | uint32 | variableInteger | utf8 | binary | utf8Pair
deriving DecidableEq, Repr

/-- `flowie_mqtt_property_type`. -/
def propertyType : PropertyId → PropertyType
  | .payloadFormatIndicator | .requestProblemInformation | .requestResponseInformation | .maximumQos
  | .retainAvailable | .wildcardSubscriptionAvailable | .subscriptionIdentifierAvailable
  | .sharedSubscriptionAvailable => .byte
  | .serverKeepAlive | .receiveMaximum | .topicAliasMaximum | .topicAlias => .uint16
  | .messageExpiryInterval | .sessionExpiryInterval | .willDelayInterval | .maximumPacketSize => .uint32
  | .subscriptionIdentifier => .variableInteger
  | .contentType | .responseTopic | .assignedClientIdentifier | .authenticationMethod
  | .responseInformation | .serverReference | .reasonString => .utf8
  | .correlationData | .authenticationData => .binary
  | .userProperty => .utf8Pair

/-- `flowie_mqtt_property_scalar_valid`. -/
def propertyScalarValid (identifier : PropertyId) (integer : Nat) : Bool :=
  match identifier with
  | .payloadFormatIndicator | .requestProblemInformation | .requestResponseInformation
  | .retainAvailable | .wildcardSubscriptionAvailable | .subscriptionIdentifierAvailable
  | .sharedSubscriptionAvailable | .maximumQos => decide (integer ≤ 1)
  | .receiveMaximum | .topicAlias | .maximumPacketSize | .subscriptionIdentifier => integer != 0
  | _ => true

/-- `flowie_mqtt_property_view_t`; a field another type of property has is zero or empty. -/
structure Property where
  identifier : PropertyId
  integer : Nat
  value : Bytes
  pairValue : Bytes
deriving DecidableEq, Repr

section

variable [Vstr]

def propertyValue (identifier : PropertyId) (bytes : Bytes) : Except ParseError (Property × Bytes) :=
  match propertyType identifier with
  | .byte =>
    match bytes with
    | a :: rest => .ok (⟨identifier, a.toNat, [], []⟩, rest)
    | _ => .error .malformed
  | .uint16 =>
    match bytes with
    | a :: b :: rest => .ok (⟨identifier, BigEndian.read [a, b], [], []⟩, rest)
    | _ => .error .malformed
  | .uint32 =>
    match bytes with
    | a :: b :: c :: d :: rest => .ok (⟨identifier, BigEndian.read [a, b, c, d], [], []⟩, rest)
    | _ => .error .malformed
  | .variableInteger =>
    match vbi bytes with
    | .error _ => .error .malformed
    | .ok (integer, rest) => .ok (⟨identifier, integer, [], []⟩, rest)
  | .utf8 =>
    match lengthSpan true bytes with
    | .error e => .error e
    | .ok (value, rest) => .ok (⟨identifier, 0, value, []⟩, rest)
  | .binary =>
    match lengthSpan false bytes with
    | .error e => .error e
    | .ok (value, rest) => .ok (⟨identifier, 0, value, []⟩, rest)
  | .utf8Pair =>
    match lengthSpan true bytes with
    | .error e => .error e
    | .ok (value, rest) =>
      match lengthSpan true rest with
      | .error e => .error e
      | .ok (pairValue, rest) => .ok (⟨identifier, 0, value, pairValue⟩, rest)

theorem definite_propertyValue (identifier : PropertyId) : Definite (propertyValue identifier bytes) := by
  unfold propertyValue
  grind [Definite, definite_lengthSpan]

/-- `flowie_mqtt_property_iterator_next`. -/
def propertyIteratorNext (bytes : Bytes) : Except ParseError (Property × Bytes) :=
  if bytes.isEmpty then .error .needMore
  else
    match vbi bytes with
    | .error _ => .error .malformed
    | .ok (id, rest) =>
      match PropertyId.ofWire id with
      | none => .error .protocolError
      | some identifier =>
        match propertyValue identifier rest with
        | .error e => .error e
        | .ok (property, rest) =>
          if identifier = .responseTopic ∧ !topicNameValidate property.value then .error .protocolError
          else if !propertyScalarValid identifier property.integer then .error .protocolError
          else .ok (property, rest)

end

/-- The check of one property block: every property allowed, and repeated only where it may be. -/
def propertiesCheck (allowed repeatable : List PropertyId) : List PropertyId → List Property → Option (List PropertyId)
  | present, [] => some present
  | present, property :: rest =>
    if !allowed.contains property.identifier ||
        (present.contains property.identifier && !repeatable.contains property.identifier) then none
    else propertiesCheck allowed repeatable (property.identifier :: present) rest

section

variable [Vstr]

/-- The properties of a block of values, as the iterator yields them, and the code it ends with:
    `needMore` when everything was read. -/
def properties (values : Bytes) : List Property × ParseError := Reader.all .malformed propertyIteratorNext values

theorem properties_end : (properties values).2 ≠ .tooLarge := by
  refine Reader.all_error (P := (· ≠ ParseError.tooLarge)) (by decide) (fun bytes e h => ?_) values
  grind [Definite, propertyIteratorNext, definite_propertyValue]

/-- `flowie_mqtt_properties_validate`: the identifiers present. -/
def propertiesValidate (values : Bytes) (allowed repeatable : List PropertyId) : Except ParseError (List PropertyId) :=
  match propertiesCheck allowed repeatable [] (properties values).1 with
  | none => .error .protocolError
  | some present => if (properties values).2 = .needMore then .ok present else .error (properties values).2

theorem definite_propertiesValidate {allowed repeatable : List PropertyId} :
    Definite (propertiesValidate values allowed repeatable) := by
  unfold propertiesValidate
  grind [Definite, properties_end, cases ParseError]

end

def userPropertyRepeatable : List PropertyId := [.userProperty]

def connectPropertiesAllowed : List PropertyId :=
  [.sessionExpiryInterval, .receiveMaximum, .maximumPacketSize, .topicAliasMaximum, .requestResponseInformation,
    .requestProblemInformation, .userProperty, .authenticationMethod, .authenticationData]

def willPropertiesAllowed : List PropertyId :=
  [.willDelayInterval, .payloadFormatIndicator, .messageExpiryInterval, .contentType, .responseTopic,
    .correlationData, .userProperty]

def publishPropertiesAllowed : List PropertyId :=
  [.payloadFormatIndicator, .messageExpiryInterval, .topicAlias, .responseTopic, .correlationData, .userProperty,
    .subscriptionIdentifier, .contentType]

def publishPropertiesRepeatable : List PropertyId := [.userProperty, .subscriptionIdentifier]

def subscribePropertiesAllowed : List PropertyId := [.subscriptionIdentifier, .userProperty]

/-- `flowie_mqtt_packet_view_t`. -/
structure PacketView where
  version : Version
  type : PacketType
  flags : Nat
  body : Bytes
deriving DecidableEq, Repr

variable {packet : PacketView}

/-- `flowie_mqtt_fixed_header_valid`: the type and the flags of an acceptable first byte. -/
def fixedHeader (first : UInt8) (version : Version) : Option (PacketType × Nat) :=
  let flags := first.toNat % 16
  match PacketType.ofNibble (first.toNat / 16) with
  | none => none
  | some .auth => if version = .v5 ∧ flags = 0 then some (.auth, flags) else none
  | some .publish =>
    let qos := flags / 2 % 4
    if qos ≠ 3 ∧ ¬(qos = 0 ∧ flags / 8 % 2 = 1) then some (.publish, flags) else none
  | some type =>
    let required := if type = .pubrel ∨ type = .subscribe ∨ type = .unsubscribe then 2 else 0
    if flags = required then some (type, flags) else none

/-- `flowie_mqtt_packet_parse`: the first packet of the bytes and its size. -/
def packetParse (bytes : Bytes) (version : Version) (maxPacketSize : Nat) : Except ParseError (PacketView × Nat) :=
  let limit := if maxPacketSize = 0 then maxWirePacketSize else maxPacketSize
  if limit > maxWirePacketSize then .error .invalidArgument
  else
    match bytes with
    | [] => .error .needMore
    | first :: rest =>
      match fixedHeader first version with
      | none => .error .protocolError
      | some (type, flags) =>
        match vbi rest with
        | .error e => .error e
        | .ok (remaining, tail) =>
          let headerSize := 1 + (rest.length - tail.length)
          if headerSize + remaining > limit then .error .tooLarge
          else if tail.length < remaining then .error .needMore
          else if (type = .pingreq ∨ type = .pingresp) ∧ remaining ≠ 0 then .error .protocolError
          else .ok (⟨version, type, flags, tail.take remaining⟩, headerSize + remaining)

/-- `flowie_mqtt_publish_view_t`; the properties are the values of the block. -/
structure PublishView where
  qos : UInt8
  retain : Bool
  duplicate : Bool
  packetId : UInt16
  topic : Bytes
  properties : Bytes
  payload : Bytes
deriving DecidableEq, Repr

def packetIdentifier : Bytes → Except ParseError (UInt16 × Bytes)
  | hi :: lo :: rest =>
    let id := UInt16.ofNat (BigEndian.read [hi, lo])
    if id = 0 then .error .protocolError else .ok (id, rest)
  | _ => .error .malformed

theorem definite_packetIdentifier : Definite (packetIdentifier bytes) := by
  unfold packetIdentifier
  grind [Definite]

section

variable [Vstr]

/-- The property block of a packet, which only MQTT 5 has: the values, the identifiers present
    and what follows. -/
def versionedProperties (version : Version) (allowed repeatable : List PropertyId) (bytes : Bytes) :
    Except ParseError (Bytes × List PropertyId × Bytes) :=
  if version = .v5 then
    match typedPropertyBlock bytes with
    | .error e => .error e
    | .ok (values, rest) =>
      match propertiesValidate values allowed repeatable with
      | .error e => .error e
      | .ok present => .ok (values, present, rest)
  else .ok ([], [], bytes)

theorem definite_versionedProperties {allowed repeatable : List PropertyId} :
    Definite (versionedProperties version allowed repeatable bytes) := by
  unfold versionedProperties
  grind [Definite, definite_typedPropertyBlock, definite_propertiesValidate]

/-- `flowie_mqtt_publish_parse`. -/
def publishParse (packet : PacketView) : Except ParseError PublishView :=
  if packet.type ≠ .publish ∨ !packet.version.supported then .error .invalidArgument
  else
    let qos := UInt8.ofNat (packet.flags / 2 % 4)
    match lengthSpan true packet.body with
    | .error e => .error e
    | .ok (topic, rest) =>
      match (if qos ≠ 0 then packetIdentifier rest else .ok (0, rest)) with
      | .error e => .error e
      | .ok (packetId, rest) =>
        match versionedProperties packet.version publishPropertiesAllowed publishPropertiesRepeatable rest with
        | .error e => .error e
        | .ok (values, present, payload) =>
          if topic.isEmpty then
            if packet.version ≠ .v5 ∨ !present.contains .topicAlias then .error .protocolError
            else .ok ⟨qos, packet.flags % 2 = 1, packet.flags / 8 % 2 = 1, packetId, topic, values, payload⟩
          else if !topicNameValidate topic then .error .protocolError
          else .ok ⟨qos, packet.flags % 2 = 1, packet.flags / 8 % 2 = 1, packetId, topic, values, payload⟩

theorem definite_publishParse : Definite (publishParse packet) := by
  unfold publishParse
  grind [Definite, definite_lengthSpan, definite_packetIdentifier, definite_versionedProperties]

end

/-- `flowie_mqtt_control_type`. -/
def controlType (type : PacketType) : Bool :=
  type != .connect && type != .publish && type != .subscribe && type != .unsubscribe && type != .pingreq

/-- `flowie_mqtt_reason_code_valid`. -/
def reasonCodeValid (type : PacketType) (version : Version) (reason : UInt8) : Bool :=
  if version.is3x then
    match type with
    | .connack => decide (reason ≤ 5)
    | .suback => decide (reason ≤ 2) || (version == .v311 && reason == 0x80)
    | .auth => false
    | _ => reason == 0
  else
    match type with
    | .connack =>
      [0x00, 0x80, 0x81, 0x82, 0x83, 0x84, 0x85, 0x86, 0x87, 0x88, 0x89, 0x8a, 0x8c, 0x90, 0x95, 0x97, 0x99, 0x9a,
        0x9b, 0x9c, 0x9d, 0x9f].contains reason
    | .puback | .pubrec => [0x00, 0x10, 0x80, 0x83, 0x87, 0x90, 0x91, 0x97, 0x99].contains reason
    | .pubrel | .pubcomp => [0x00, 0x92].contains reason
    | .suback => [0x00, 0x01, 0x02, 0x80, 0x83, 0x87, 0x8f, 0x91, 0x97, 0x9e, 0xa1, 0xa2].contains reason
    | .unsuback => [0x00, 0x11, 0x80, 0x83, 0x87, 0x8f, 0x91].contains reason
    | .disconnect =>
      [0x00, 0x04, 0x80, 0x81, 0x82, 0x83, 0x87, 0x89, 0x8b, 0x8c, 0x8d, 0x8e, 0x8f, 0x90, 0x93, 0x94, 0x95, 0x96,
        0x97, 0x98, 0x99, 0x9a, 0x9b, 0x9c, 0x9d, 0x9e, 0x9f, 0xa0, 0xa1, 0xa2].contains reason
    | .auth => [0x00, 0x18, 0x19].contains reason
    | _ => reason == 0

/-- The properties `flowie_mqtt_control_properties_validate` allows. -/
def controlPropertiesAllowed : PacketType → List PropertyId
  | .connack =>
    [.sessionExpiryInterval, .receiveMaximum, .maximumQos, .retainAvailable, .maximumPacketSize,
      .assignedClientIdentifier, .topicAliasMaximum, .reasonString, .userProperty, .wildcardSubscriptionAvailable,
      .subscriptionIdentifierAvailable, .sharedSubscriptionAvailable, .serverKeepAlive, .responseInformation,
      .serverReference, .authenticationMethod, .authenticationData]
  | .puback | .pubrec | .pubrel | .pubcomp | .suback | .unsuback => [.reasonString, .userProperty]
  | .disconnect => [.sessionExpiryInterval, .serverReference, .reasonString, .userProperty]
  | .auth => [.authenticationMethod, .authenticationData, .reasonString, .userProperty]
  | _ => []

/-- `flowie_mqtt_control_packet_view_t`. -/
structure ControlView where
  version : Version
  type : PacketType
  sessionPresent : Bool
  packetId : UInt16
  reasonCode : UInt8
  properties : Bytes
  reasonCodes : Bytes
deriving DecidableEq, Repr

section

variable [Vstr]

/-- `flowie_mqtt_control_properties_validate`. -/
def controlPropertiesValidate (type : PacketType) (values : Bytes) : Except ParseError Unit :=
  if values.isEmpty then .ok ()
  else
    match propertiesValidate values (controlPropertiesAllowed type) userPropertyRepeatable with
    | .error e => .error e
    | .ok _ => .ok ()

theorem definite_controlPropertiesValidate : Definite (controlPropertiesValidate type values) := by
  unfold controlPropertiesValidate
  grind [Definite, definite_propertiesValidate]

/-- The part of a control packet before its properties: session present, packet id and reason. -/
def controlHead (packet : PacketView) : Except ParseError (Bool × UInt16 × UInt8 × Bytes) :=
  match packet.type with
  | .disconnect | .auth =>
    match packet.body with
    | [] => .ok (false, 0, 0, [])
    | reason :: rest => .ok (false, 0, reason, rest)
  | .connack =>
    match packet.body with
    | present :: reason :: rest =>
      if present > 1 then .error .protocolError
      else if (packet.version = .v31 ∧ present = 1) ∨ (present = 1 ∧ reason ≠ 0) then .error .protocolError
      else .ok (present == 1, 0, reason, rest)
    | _ => .error .malformed
  | type =>
    match packetIdentifier packet.body with
    | .error e => .error e
    | .ok (packetId, rest) =>
      if type ≠ .suback ∧ type ≠ .unsuback then
        match rest with
        | [] => .ok (false, packetId, 0, [])
        | reason :: rest =>
          if packet.version ≠ .v5 then .error .protocolError else .ok (false, packetId, reason, rest)
      else .ok (false, packetId, 0, rest)

omit [Vstr] in
theorem definite_controlHead : Definite (controlHead packet) := by
  unfold controlHead
  grind [Definite, definite_packetIdentifier]

def controlProperties (packet : PacketView) (bytes : Bytes) : Except ParseError (Bytes × Bytes) :=
  if packet.version = .v5 then
    if packet.type = .connack ∨ packet.type = .suback ∨ packet.type = .unsuback ∨ !bytes.isEmpty then
      match propertyBlockParse bytes with
      | .error e => .error e
      | .ok (values, rest) =>
        match controlPropertiesValidate packet.type values with
        | .error e => .error e
        | .ok _ => .ok (values, rest)
    else .ok ([], bytes)
  else if packet.type ≠ .suback ∧ !bytes.isEmpty then .error .protocolError
  else .ok ([], bytes)

theorem definite_controlProperties_iff :
    Definite (controlProperties packet block) ↔ ¬(packet.version = .v5 ∧
      (packet.type = .connack ∨ packet.type = .suback ∨ packet.type = .unsuback ∨ block ≠ []) ∧
      EndsEarly block) := by
  rw [← propertyBlockParse_needMore_iff]
  unfold controlProperties
  grind [Definite, definite_controlPropertiesValidate, propertyBlockParse_error, List.isEmpty_iff]

/-- `flowie_mqtt_control_packet_parse`. -/
def controlPacketParse (packet : PacketView) : Except ParseError ControlView :=
  if !controlType packet.type || !packet.version.supported then .error .invalidArgument
  else if packet.type = .pingresp then
    if packet.body.isEmpty then .ok ⟨packet.version, packet.type, false, 0, 0, [], []⟩ else .error .protocolError
  else if (packet.type = .disconnect ∨ packet.type = .auth) ∧ packet.version.is3x then
    if packet.type ≠ .disconnect ∨ !packet.body.isEmpty then .error .protocolError
    else .ok ⟨packet.version, packet.type, false, 0, 0, [], []⟩
  else
    match controlHead packet with
    | .error e => .error e
    | .ok (sessionPresent, packetId, reasonCode, rest) =>
      if !reasonCodeValid packet.type packet.version reasonCode then .error .protocolError
      else
        match controlProperties packet rest with
        | .error e => .error e
        | .ok (values, rest) =>
          if packet.type = .suback ∨ packet.type = .unsuback then
            if rest.isEmpty ∧ (packet.type = .suback ∨ packet.version = .v5) then .error .protocolError
            else if !rest.all (reasonCodeValid packet.type packet.version) then .error .protocolError
            else .ok ⟨packet.version, packet.type, sessionPresent, packetId, reasonCode, values, rest⟩
          else if !rest.isEmpty then .error .malformed
          else .ok ⟨packet.version, packet.type, sessionPresent, packetId, reasonCode, values, []⟩

/-- The property block of an MQTT 5 control packet is cut short by the end of the packet. -/
def BlockCut (packet : PacketView) : Prop :=
  controlType packet.type = true ∧ packet.type ≠ .pingresp ∧ packet.version = .v5 ∧
    ∃ sessionPresent packetId reasonCode block, controlHead packet = .ok (sessionPresent, packetId, reasonCode, block) ∧
      reasonCodeValid packet.type packet.version reasonCode = true ∧
      (packet.type = .connack ∨ packet.type = .suback ∨ packet.type = .unsuback ∨ block ≠ []) ∧ EndsEarly block

theorem definite_controlPacketParse_iff : Definite (controlPacketParse packet) ↔ ¬BlockCut packet := by
  unfold controlPacketParse
  split
  · grind [Definite, BlockCut, Version.supported]
  split
  · grind [Definite, BlockCut]
  split
  · grind [Definite, BlockCut, Version.is3x]
  split
  · grind [Definite, BlockCut, definite_controlHead]
  rename_i sessionPresent packetId reasonCode block hhead
  split
  · grind [Definite, BlockCut]
  rename_i hrsn
  have hprp : Definite (controlProperties packet block) ↔ ¬BlockCut packet := by
    rw [definite_controlProperties_iff]
    grind [BlockCut]
  grind [Definite]

/-- `flowie_mqtt_connect_view_t`; a credential that is absent has no data. -/
structure ConnectView where
  version : Version
  cleanStart : Bool
  willQos : UInt8
  willRetain : Bool
  keepAlive : UInt16
  properties : Bytes
  clientId : Bytes
  willProperties : Bytes
  willTopic : Bytes
  willPayload : Bytes
  username : Option Bytes
  password : Option Bytes
deriving DecidableEq, Repr

def optionalSpan (flag utf8 : Bool) (bytes : Bytes) : Except ParseError (Option Bytes × Bytes) :=
  if flag then
    match lengthSpan utf8 bytes with
    | .error e => .error e
    | .ok (value, rest) => .ok (some value, rest)
  else .ok (none, bytes)

theorem definite_optionalSpan (flag utf8 : Bool) : Definite (optionalSpan flag utf8 bytes) := by
  unfold optionalSpan
  grind [Definite, definite_lengthSpan]

def willParse (version : Version) (bytes : Bytes) : Except ParseError (Bytes × Bytes × Bytes × Bytes) :=
  match versionedProperties version willPropertiesAllowed userPropertyRepeatable bytes with
  | .error e => .error e
  | .ok (values, _, rest) =>
    match lengthSpan true rest with
    | .error _ => .error .protocolError
    | .ok (topic, rest) =>
      if !topicNameValidate topic then .error .protocolError
      else
        match lengthSpan false rest with
        | .error e => .error e
        | .ok (payload, rest) => .ok (values, topic, payload, rest)

theorem definite_willParse : Definite (willParse version bytes) := by
  unfold willParse
  grind [Definite, definite_lengthSpan, definite_versionedProperties]

/-- The properties of a CONNECT; authentication data needs a method. -/
def connectProperties (version : Version) (bytes : Bytes) : Except ParseError (Bytes × Bytes) :=
  if version = .v5 then
    match typedPropertyBlock bytes with
    | .error e => .error e
    | .ok (values, rest) =>
      match propertiesValidate values connectPropertiesAllowed userPropertyRepeatable with
      | .error _ => .error .protocolError
      | .ok present =>
        if present.contains .authenticationData && !present.contains .authenticationMethod then .error .protocolError
        else .ok (values, rest)
  else .ok ([], bytes)

theorem definite_connectProperties : Definite (connectProperties version bytes) := by
  unfold connectProperties
  grind [Definite, definite_typedPropertyBlock]

/-- `flowie_mqtt_connect_parse`. -/
def connectParse (packet : PacketView) : Except ParseError ConnectView :=
  if packet.type ≠ .connect then .error .invalidArgument
  else
    match lengthSpan true packet.body with
    | .error e => .error e
    | .ok (protocolName, level :: flagByte :: hi :: lo :: rest) =>
      let version := Version.ofByte level
      let flags := flagByte.toNat
      let willFlag : Bool := flags / 4 % 2 = 1
      let willQos := flags / 8 % 4
      let willRetain : Bool := flags / 32 % 2 = 1
      let passwordFlag : Bool := flags / 64 % 2 = 1
      let usernameFlag : Bool := flags / 128 % 2 = 1
      if !version.supported || (packet.version != .unspecified && packet.version != version) then
        .error .protocolError
      else if protocolName ≠ (if version = .v31 then text "MQIsdp" else text "MQTT") then .error .protocolError
      else if flags % 2 = 1 ∨ willQos = 3 ∨ (!willFlag && (willQos != 0 || willRetain)) ∨
          (passwordFlag && !usernameFlag) then .error .protocolError
      else
        match connectProperties version rest with
        | .error e => .error e
        | .ok (properties, rest) =>
          match lengthSpan true rest with
          | .error e => .error e
          | .ok (clientId, rest) =>
            if version = .v31 ∧ (clientId.isEmpty ∨ clientId.length > 23) then .error .protocolError
            else
              match (if willFlag then willParse version rest else .ok ([], [], [], rest)) with
              | .error e => .error e
              | .ok (willProperties, willTopic, willPayload, rest) =>
                match optionalSpan usernameFlag true rest with
                | .error e => .error e
                | .ok (username, rest) =>
                  match optionalSpan passwordFlag false rest with
                  | .error e => .error e
                  | .ok (password, rest) =>
                    if !rest.isEmpty then .error .protocolError
                    else
                      .ok
                        { version := version
                          cleanStart := flags / 2 % 2 = 1
                          willQos := UInt8.ofNat willQos
                          willRetain := willRetain
                          keepAlive := UInt16.ofNat (BigEndian.read [hi, lo])
                          properties := properties
                          clientId := clientId
                          willProperties := willProperties
                          willTopic := willTopic
                          willPayload := willPayload
                          username := username
                          password := password }
    | .ok _ => .error .malformed

theorem definite_connectParse : Definite (connectParse packet) := by
  unfold connectParse
  have hprotocol : Definite (.error .protocolError : Except ParseError ConnectView) := by grind [Definite]
  split
  · grind [Definite]
  split
  · grind [Definite, definite_lengthSpan]
  · refine .ite hprotocol (.ite hprotocol (.ite hprotocol ?_))
    split
    · grind [Definite, definite_connectProperties]
    split
    · grind [Definite, definite_lengthSpan]
    refine .ite hprotocol ?_
    grind [Definite, definite_willParse, definite_optionalSpan]
  · grind [Definite]

/-- `flowie_mqtt_subscription_view_t`. -/
structure SubscriptionView where
  filter : Bytes
  qos : UInt8
  noLocal : Bool
  retainAsPublished : Bool
  retainHandling : UInt8
deriving DecidableEq, Repr

/-- `flowie_mqtt_subscription_iterator_next`. -/
def subscriptionIteratorNext (version : Version) (bytes : Bytes) : Except ParseError (SubscriptionView × Bytes) :=
  if bytes.isEmpty then .error .needMore
  else
    match lengthSpan true bytes with
    | .error _ => .error .protocolError
    | .ok (filter, rest) =>
      if !topicFilterValidate filter then .error .protocolError
      else
        match rest with
        | [] => .error .malformed
        | optionByte :: rest =>
          let options := optionByte.toNat
          let qos := options % 4
          let noLocal : Bool := options / 4 % 2 = 1
          let retainHandling := options / 16 % 4
          if qos = 3 ∨ options / 64 ≠ 0 ∨ retainHandling = 3 ∨ (version.is3x ∧ options / 4 ≠ 0) ∨
              (noLocal ∧ sharePrefix.isPrefixOf filter) then .error .protocolError
          else .ok (⟨filter, UInt8.ofNat qos, noLocal, options / 8 % 2 = 1, UInt8.ofNat retainHandling⟩, rest)

/-- `flowie_mqtt_subscribe_view_t`. -/
structure SubscribeView where
  packetId : UInt16
  properties : Bytes
  entries : Bytes
  entryCount : Nat
deriving DecidableEq, Repr

/-- The entries of a SUBSCRIBE, as its iterator yields them. -/
def subscriptions (version : Version) (entries : Bytes) : List SubscriptionView × ParseError :=
  Reader.all .malformed (subscriptionIteratorNext version) entries

theorem subscriptions_end (entries : Bytes) : (subscriptions version entries).2 ≠ .tooLarge := by
  refine Reader.all_error (P := (· ≠ ParseError.tooLarge)) (by decide) (fun bytes e h => ?_) entries
  grind [subscriptionIteratorNext]

/-- `flowie_mqtt_subscribe_parse`. -/
def subscribeParse (packet : PacketView) : Except ParseError SubscribeView :=
  if packet.type ≠ .subscribe ∨ !packet.version.supported then .error .invalidArgument
  else
    match packetIdentifier packet.body with
    | .error e => .error e
    | .ok (packetId, rest) =>
      match versionedProperties packet.version subscribePropertiesAllowed userPropertyRepeatable rest with
      | .error e => .error e
      | .ok (values, _, entries) =>
        if entries.isEmpty then .error .protocolError
        else if (subscriptions packet.version entries).2 ≠ .needMore then
          .error (subscriptions packet.version entries).2
        else .ok ⟨packetId, values, entries, (subscriptions packet.version entries).1.length⟩

theorem definite_subscribeParse : Definite (subscribeParse packet) := by
  unfold subscribeParse
  grind [Definite, definite_packetIdentifier, definite_versionedProperties, subscriptions_end, cases ParseError]

/-- `flowie_mqtt_topic_filter_iterator_next`. -/
def topicFilterIteratorNext (bytes : Bytes) : Except ParseError (Bytes × Bytes) :=
  if bytes.isEmpty then .error .needMore
  else
    match lengthSpan true bytes with
    | .error e => .error e
    | .ok (filter, rest) => if !topicFilterValidate filter then .error .protocolError else .ok (filter, rest)

/-- `flowie_mqtt_unsubscribe_view_t`. -/
structure UnsubscribeView where
  packetId : UInt16
  properties : Bytes
  filters : Bytes
  filterCount : Nat
deriving DecidableEq, Repr

def topicFilters (filters : Bytes) : List Bytes × ParseError :=
  Reader.all .malformed topicFilterIteratorNext filters

theorem topicFilters_end (filters : Bytes) : (topicFilters filters).2 ≠ .tooLarge := by
  refine Reader.all_error (P := (· ≠ ParseError.tooLarge)) (by decide) (fun bytes e h => ?_) filters
  grind [Definite, topicFilterIteratorNext, definite_lengthSpan]

/-- `flowie_mqtt_unsubscribe_parse`. -/
def unsubscribeParse (packet : PacketView) : Except ParseError UnsubscribeView :=
  if packet.type ≠ .unsubscribe ∨ !packet.version.supported then .error .invalidArgument
  else
    match packetIdentifier packet.body with
    | .error e => .error e
    | .ok (packetId, rest) =>
      match versionedProperties packet.version userPropertyRepeatable userPropertyRepeatable rest with
      | .error e => .error e
      | .ok (values, _, filters) =>
        if filters.isEmpty then .error .protocolError
        else if (topicFilters filters).2 ≠ .needMore then .error (topicFilters filters).2
        else .ok ⟨packetId, values, filters, (topicFilters filters).1.length⟩

theorem definite_unsubscribeParse : Definite (unsubscribeParse packet) := by
  unfold unsubscribeParse
  grind [Definite, definite_packetIdentifier, definite_versionedProperties, topicFilters_end, cases ParseError]

end

end Flowie.Mqtt
