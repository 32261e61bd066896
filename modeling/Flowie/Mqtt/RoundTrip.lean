import Flowie.Mqtt.Framing

/-!
# Packets that are read back

What the PUBLISH encoder writes is parsed to a view of the same packet. How a packet and a PUBLISH are
laid out is said once, for the encoder and for the parser, so that a packet of the same layout is
parsed as before.
-/

namespace Flowie.Mqtt

open Reader List

/-- How a packet is laid out: the first byte, the remaining length and the body. -/
structure PacketLayout (bytes : Bytes) (view : PacketView) (first : UInt8) (lenBytes : Bytes) : Prop where
  split : bytes = first :: (lenBytes ++ view.body)
  header : fixedHeader first view.version = some (view.type, view.flags)
  remaining : Reads vbi lenBytes view.body.length
  size : bytes.length ≤ maxWirePacketSize
  ping : ¬((view.type = .pingreq ∨ view.type = .pingresp) ∧ view.body.length ≠ 0)

variable {bytes : Bytes} {first : UInt8} {lenBytes : Bytes}

theorem PacketLayout.length {view : PacketView} (h : PacketLayout bytes view first lenBytes) :
    bytes.length = 1 + lenBytes.length + view.body.length := by
  rw [h.split, length_cons, length_append]
  omega

/-- Bytes that are laid out this way are parsed as one packet. -/
theorem PacketLayout.parse {view : PacketView} (h : PacketLayout bytes view first lenBytes) :
    packetParse bytes view.version bytes.length = .ok (view, bytes.length) := by
  have hlen := h.length
  have hlim : packetLimit bytes.length = bytes.length := if_neg (by omega)
  have hfrm : Framed bytes view.version bytes.length view first lenBytes [] :=
    { limit := by rw [hlim]; exact h.size
      parsedAs := rfl
      split := by rw [append_nil]; exact h.split
      header := h.header
      remaining := h.remaining
      size := by omega
      ping := h.ping }
  rw [hfrm.parse, ← hlen]

variable {version : Version}

theorem packetLayout_of_parse {view : PacketView} (h : packetParse bytes version bytes.length = .ok (view, bytes.length)) :
    view.version = version ∧ ∃ first lenBytes, PacketLayout bytes view first lenBytes := by
  obtain ⟨first, lenBytes, rest, hfrm, hlen⟩ := framed_of_parse h
  have hlim : packetLimit bytes.length = bytes.length := if_neg (by omega)
  have hrest : rest = [] := by
    have hspl := congrArg List.length hfrm.split
    rw [length_cons, length_append, length_append] at hspl
    exact List.length_eq_zero_iff.1 (by omega)
  have hspl : bytes = first :: (lenBytes ++ view.body) := by simpa [hrest] using hfrm.split
  refine ⟨hfrm.parsedAs, first, lenBytes, hspl, ?_, hfrm.remaining, ?_, hfrm.ping⟩
  · rw [hfrm.parsedAs]
    exact hfrm.header
  · rw [← hlim]
    exact hfrm.limit

section

variable [Vstr] {values : Bytes} {present : List PropertyId}

/-- Properties the encoder accepts are valid when they are parsed; only MQTT 5 has any. -/
theorem propertyValuesValidate_eq_ok {allowed repeatable : List PropertyId}
    (h : propertyValuesValidate version values allowed repeatable = .ok present) (hv : version.supported = true) :
    values.length ≤ maxRemainingLength ∧
      (version = .v5 → propertiesValidate values allowed repeatable = .ok present) ∧
      (version ≠ .v5 → values = []) := by
  unfold propertyValuesValidate at h
  split at h
  · cases h
  rename_i hlen
  refine ⟨Nat.le_of_not_lt hlen, ?_⟩
  split at h
  · rename_i h3x
    split at h
    · rename_i hempty
      have hne : version ≠ .v5 := by
        intro h5
        rw [h5] at h3x
        cases h3x
      exact ⟨fun h5 => absurd h5 hne, fun _ => by simpa using hempty⟩
    · cases h
  · rename_i h3x
    have h5 : version = .v5 := by
      cases version with
      | unspecified => cases hv
      | v31 => exact absurd rfl h3x
      | v311 => exact absurd rfl h3x
      | v5 => rfl
    refine ⟨fun _ => ?_, fun hne => absurd h5 hne⟩
    split at h
    · rename_i hempty
      have hnil : values = [] := by simpa using hempty
      cases h
      rw [hnil]
      rfl
    · split at h
      · cases h
      rename_i hval
      cases h
      exact hval

variable {packet : PublishPacket}

omit [Vstr] in
theorem publishFlags_fields (hqos : ¬packet.qos > 2) :
    publishFlags packet < 16 ∧ publishFlags packet / 2 % 4 = packet.qos.toNat ∧
      publishFlags packet / 8 % 2 = packet.duplicate.toNat ∧ publishFlags packet % 2 = packet.retain.toNat := by
  have hle : ¬2 < packet.qos.toNat := hqos
  have hdup := Bool.toNat_le packet.duplicate
  have hret := Bool.toNat_le packet.retain
  unfold publishFlags
  omega

omit [Vstr] in
theorem fixedHeader_publish (hqos : ¬packet.qos > 2) (hdup : ¬(packet.qos = 0 ∧ packet.duplicate = true)) :
    fixedHeader (UInt8.ofNat (PacketType.publish.toNibble * 16 + publishFlags packet)) version =
      some (.publish, publishFlags packet) := by
  obtain ⟨hlt, hq, hd, -⟩ := publishFlags_fields hqos
  have hle : ¬2 < packet.qos.toNat := hqos
  have hfst : (UInt8.ofNat (PacketType.publish.toNibble * 16 + publishFlags packet)).toNat =
      48 + publishFlags packet := by
    rw [UInt8.toNat_ofNat']
    show (3 * 16 + publishFlags packet) % 2 ^ 8 = _
    omega
  unfold fixedHeader
  rw [hfst, show (48 + publishFlags packet) / 16 = 3 by omega,
    show (48 + publishFlags packet) % 16 = publishFlags packet by omega]
  show (if _ then some (PacketType.publish, publishFlags packet) else none) = _
  rw [if_pos]
  rw [hq, hd]
  refine ⟨by omega, ?_⟩
  intro ⟨hzero, hone⟩
  refine hdup ⟨UInt8.toNat_inj.1 hzero, ?_⟩
  cases hdu : packet.duplicate with
  | false => rw [hdu] at hone; cases hone
  | true => rfl

/-- How the body of a PUBLISH is laid out: the topic, the packet identifier above QoS 0, the length of
    the properties in MQTT 5, their values and the payload. -/
structure PublishLayout (packet : PacketView) (publish : PublishView) (topicBytes idBytes blockHead : Bytes)
    (present : List PropertyId) : Prop where
  type : packet.type = .publish
  supported : packet.version.supported = true
  body : packet.body = topicBytes ++ (idBytes ++ (blockHead ++ (publish.properties ++ publish.payload)))
  topic : Reads (lengthSpan true) topicBytes publish.topic
  packetId : if publish.qos ≠ 0 then Reads packetIdentifier idBytes publish.packetId
    else idBytes = [] ∧ publish.packetId = 0
  block : if packet.version = .v5 then
      Reads vbi blockHead publish.properties.length ∧
        propertiesValidate publish.properties publishPropertiesAllowed publishPropertiesRepeatable = .ok present
    else blockHead = [] ∧ publish.properties = []
  topicValid : if publish.topic.isEmpty then packet.version = .v5 ∧ present.contains .topicAlias = true
    else topicNameValidate publish.topic = true
  qos : publish.qos = UInt8.ofNat (packet.flags / 2 % 4)
  retain : publish.retain = decide (packet.flags % 2 = 1)
  duplicate : publish.duplicate = decide (packet.flags / 8 % 2 = 1)

variable {bytes : Bytes}

section

omit [Vstr]

theorem typedPropertyBlock_eq_ok {rest : Bytes} (h : typedPropertyBlock bytes = .ok (values, rest)) :
    ∃ head, bytes = head ++ (values ++ rest) ∧ Reads vbi head values.length := by
  unfold typedPropertyBlock at h
  split at h
  · cases h
  unfold propertyBlockParse at h
  split at h
  · cases h
  rename_i size tail hread
  split_ifs at h with hsize
  cases h
  obtain ⟨head, -, rfl, hhead⟩ := prefixed_vbi _ _ _ hread
  refine ⟨head, by rw [take_append_drop], ?_⟩
  rw [length_take, Nat.min_eq_left (Nat.le_of_not_lt hsize)]
  exact hhead

theorem typedPropertyBlock_of_reads {head : Bytes} (h : Reads vbi head values.length) (rest : Bytes) :
    typedPropertyBlock (head ++ (values ++ rest)) = .ok (values, rest) := by
  unfold typedPropertyBlock propertyBlockParse
  rw [h (values ++ rest)]
  dsimp only
  rw [if_neg (by simp), take_left, drop_left]

theorem agrees_typedPropertyBlock :
    Agrees typedPropertyBlock (fun values => values.length ≤ maxRemainingLength) propertyValuesWrite := by
  intro bytes values rest
  refine ⟨fun h => ?_, fun ⟨hlen, hbs⟩ => ?_⟩
  · obtain ⟨head, hbs, hrd⟩ := typedPropertyBlock_eq_ok h
    obtain ⟨hlen, hhead⟩ := agrees_vbi.eq_write hrd
    rw [hbs, hhead, propertyValuesWrite, append_assoc]
    exact ⟨hlen, rfl⟩
  · rw [hbs, propertyValuesWrite, append_assoc, typedPropertyBlock_of_reads (reads_vbi hlen)]

end

/-- The property block of a packet is what the encoder writes of properties it accepts. -/
theorem versionedProperties_iff {allowed repeatable : List PropertyId} {rest : Bytes} (hv : version.supported = true) :
    versionedProperties version allowed repeatable bytes = .ok (values, present, rest) ↔
      propertyValuesValidate version values allowed repeatable = .ok present ∧
        bytes = versionedPropertiesWrite version values ++ rest := by
  by_cases h5 : version = .v5
  · subst h5
    simp only [versionedProperties, versionedPropertiesWrite, if_true]
    constructor
    · intro h
      split at h
      · cases h
      rename_i found after hblk
      obtain ⟨hlen, hbs⟩ := (agrees_typedPropertyBlock _ _ _).1 hblk
      split at h
      · cases h
      rename_i hval
      cases h
      refine ⟨?_, hbs⟩
      unfold propertyValuesValidate
      rw [if_neg (by omega), if_neg (by decide), hval]
      split
      · rename_i hnil
        rw [List.isEmpty_iff.1 hnil] at hval
        exact hval
      · rfl
    · rintro ⟨hval, hbs⟩
      obtain ⟨hlen, hfnd, -⟩ := propertyValuesValidate_eq_ok hval hv
      rw [(agrees_typedPropertyBlock _ _ _).2 ⟨hlen, hbs⟩]
      dsimp only
      rw [hfnd rfl]
  · have h3x : version.is3x = true := by
      cases version with
      | unspecified => cases hv
      | v31 => rfl
      | v311 => rfl
      | v5 => exact absurd rfl h5
    simp only [versionedProperties, versionedPropertiesWrite, h5, if_false, nil_append, propertyValuesValidate, h3x, if_true]
    constructor
    · intro h
      cases h
      exact ⟨rfl, rfl⟩
    · rintro ⟨hval, rfl⟩
      split at hval
      · cases hval
      split at hval
      · rename_i hnil
        cases hval
        rw [List.isEmpty_iff.1 hnil]
      · cases hval

variable {publish : PublishView}

section
variable {packet : PacketView} {topicBytes idBytes blockHead : Bytes}

section
variable (h : PublishLayout packet publish topicBytes idBytes blockHead present)
include h

/-- The property block of a PUBLISH is read from its part of the body. -/
theorem PublishLayout.versionedProperties :
    ∃ found, versionedProperties packet.version publishPropertiesAllowed publishPropertiesRepeatable
        (blockHead ++ (publish.properties ++ publish.payload)) = .ok (publish.properties, found, publish.payload) ∧
      (packet.version = .v5 → found = present) := by
  have hb := h.block
  unfold Mqtt.versionedProperties
  split at hb
  · rename_i h5
    rw [if_pos h5, typedPropertyBlock_of_reads hb.1]
    dsimp only
    rw [hb.2]
    exact ⟨present, rfl, fun _ => rfl⟩
  · rename_i h5
    rw [if_neg h5, hb.1, hb.2]
    exact ⟨[], rfl, fun hv => absurd hv h5⟩

theorem PublishLayout.parse : publishParse packet = .ok publish := by
  have hid : (if publish.qos ≠ 0 then packetIdentifier (idBytes ++ (blockHead ++ (publish.properties ++ publish.payload)))
      else .ok (0, idBytes ++ (blockHead ++ (publish.properties ++ publish.payload)))) =
      .ok (publish.packetId, blockHead ++ (publish.properties ++ publish.payload)) := by
    have hpid := h.packetId
    split at hpid
    · rename_i hqos
      rw [if_pos hqos, hpid]
    rename_i hqos
    rw [if_neg hqos, hpid.1, hpid.2]
    rfl
  obtain ⟨found, hblk, hfnd⟩ := h.versionedProperties
  have htv := h.topicValid
  unfold publishParse
  rw [if_neg (by simp [h.type, h.supported])]
  rw [h.body, h.topic]
  dsimp only
  rw [← h.qos, hid]
  dsimp only
  rw [hblk]
  dsimp only
  rw [← h.retain, ← h.duplicate]
  split at htv
  · rename_i hnil
    have hpres : found.contains .topicAlias = true := by rw [hfnd htv.1, htv.2]
    rw [if_pos hnil, if_neg (by simpa [htv.1] using hpres)]
  · rename_i hnil
    rw [if_neg hnil, if_neg (by simp [htv])]

end

theorem publishLayout_of_parse (h : publishParse packet = .ok publish) :
    ∃ topicBytes idBytes blockHead present, PublishLayout packet publish topicBytes idBytes blockHead present := by
  unfold publishParse at h
  split_ifs at h with hhead
  have htype : packet.type = .publish := by
    by_contra hne
    exact hhead (.inl hne)
  have hsupp : packet.version.supported = true := by
    by_contra hne
    exact hhead (.inr (by simpa using hne))
  dsimp only at h
  split at h
  · cases h
  rename_i topic rest hread
  obtain ⟨topicBytes, -, hbody, htop⟩ := prefixed_lengthSpan true _ _ _ hread
  split at h
  · cases h
  rename_i packetId tail hid
  split at h
  · cases h
  rename_i values present payload hblk
  -- the packet identifier and the property block, as parts of the body
  obtain ⟨idBytes, rfl, hidBytes⟩ : ∃ idBytes, rest = idBytes ++ tail ∧
      (if UInt8.ofNat (packet.flags / 2 % 4) ≠ 0 then Reads packetIdentifier idBytes packetId
        else idBytes = [] ∧ packetId = 0) := by
    split at hid
    · rename_i hqos
      obtain ⟨used, -, hused, hrd⟩ := prefixed_packetIdentifier _ _ _ hid
      exact ⟨used, hused, by rw [if_pos hqos]; exact hrd⟩
    · rename_i hqos
      cases hid
      exact ⟨[], rfl, by rw [if_neg hqos]; exact ⟨rfl, rfl⟩⟩
  obtain ⟨head, rfl, hhead'⟩ : ∃ head, tail = head ++ (values ++ payload) ∧
      (if packet.version = .v5 then Reads vbi head values.length ∧
        propertiesValidate values publishPropertiesAllowed publishPropertiesRepeatable = .ok present
        else head = [] ∧ values = []) := by
    unfold versionedProperties at hblk
    split at hblk
    · rename_i h5
      split at hblk
      · cases hblk
      rename_i vs after htyped
      split at hblk
      · cases hblk
      rename_i found hval
      cases hblk
      obtain ⟨head, hhead, hrd⟩ := typedPropertyBlock_eq_ok htyped
      exact ⟨head, hhead, by rw [if_pos h5]; exact ⟨hrd, hval⟩⟩
    · rename_i h5
      cases hblk
      exact ⟨[], rfl, by rw [if_neg h5]; exact ⟨rfl, rfl⟩⟩
  refine ⟨topicBytes, idBytes, head, present, ?_⟩
  split at h
  · rename_i hnil
    split_ifs at h with halias
    cases h
    rw [not_or, not_not] at halias
    exact ⟨htype, hsupp, hbody, htop, hidBytes, hhead',
      by rw [if_pos hnil]; exact ⟨halias.1, by simpa using halias.2⟩, rfl, rfl, rfl⟩
  · rename_i hnil
    split_ifs at h with hval
    cases h
    exact ⟨htype, hsupp, hbody, htop, hidBytes, hhead', by rw [if_neg hnil]; simpa using hval, rfl, rfl, rfl⟩

end

/-- What the encoder checks of a PUBLISH. -/
structure Encodable (packet : PublishPacket) (present : List PropertyId) : Prop where
  supported : packet.version.supported = true
  qos : ¬packet.qos > 2
  unacknowledged : packet.qos = 0 → packet.packetId = 0 ∧ packet.duplicate = false
  acknowledged : packet.qos ≠ 0 → packet.packetId ≠ 0
  length : packet.topic.length ≤ 65535
  utf8 : utf8Validate packet.topic = true
  properties : propertyValuesValidate packet.version packet.properties publishPropertiesAllowed
    publishPropertiesRepeatable = .ok present
  topic : publishTopicValid packet present = true

variable {capacity : Nat}

theorem publishPacketEncode_eq_ok (h : publishPacketEncode packet capacity = .ok bytes) :
    ∃ present, Encodable packet present ∧
      encodePacket .publish (publishFlags packet) (publishBody packet) capacity = .ok bytes := by
  unfold publishPacketEncode at h
  split at h
  · cases h
  rename_i hsupp
  split at h
  · cases h
  rename_i hqos
  rw [not_or, not_or] at hqos
  obtain ⟨hqos, hzero, hnonzero⟩ := hqos
  split at h
  · cases h
  rename_i hlen
  split at h
  · cases h
  rename_i hutf8
  split at h
  · cases h
  rename_i present hprp
  split_ifs at h with htop
  refine ⟨present, ?_, h⟩
  constructor
  · simpa using hsupp
  · exact hqos
  · intro hq0
    simpa [hq0] using hzero
  · exact fun hq0 hid => hnonzero ⟨hq0, hid⟩
  · exact Nat.le_of_not_lt hlen
  · simpa using hutf8
  · exact hprp
  · simpa using htop

def PublishPacket.view (packet : PublishPacket) : PublishView :=
  ⟨packet.qos, packet.retain, packet.duplicate, packet.packetId, packet.topic, packet.properties, packet.payload⟩

/-- The encoder writes the layout the parser reads. -/
theorem Encodable.layout (h : Encodable packet present) :
    PublishLayout ⟨packet.version, .publish, publishFlags packet, publishBody packet⟩ packet.view
      (lengthSpanWrite packet.topic) (if packet.qos ≠ 0 then BigEndian.write 2 packet.packetId.toNat else [])
      (if packet.version = .v5 then vbiWrite packet.properties.length else []) present := by
  obtain ⟨hvls, hv5, hv3⟩ := propertyValuesValidate_eq_ok h.properties h.supported
  obtain ⟨-, hq, hd, hr⟩ := publishFlags_fields h.qos
  constructor
  · rfl
  · exact h.supported
  · show publishBody packet = _
    unfold publishBody propertyValuesWrite PublishPacket.view
    by_cases h5 : packet.version = .v5
    · simp [h5]
    · simp [h5, hv3 h5]
  · exact reads_lengthSpan h.length fun _ => h.utf8
  · show if packet.qos ≠ 0 then Reads packetIdentifier _ packet.packetId else _ ∧ packet.packetId = 0
    by_cases hq0 : packet.qos = 0
    · rw [if_neg (not_not.2 hq0), if_neg (not_not.2 hq0)]
      exact ⟨rfl, (h.unacknowledged hq0).1⟩
    · rw [if_pos hq0, if_pos hq0]
      exact reads_packetIdentifier (h.acknowledged hq0)
  · show if packet.version = .v5 then _ else _
    by_cases h5 : packet.version = .v5
    · rw [if_pos h5, if_pos h5]
      exact ⟨reads_vbi hvls, hv5 h5⟩
    · rw [if_neg h5, if_neg h5]
      exact ⟨rfl, hv3 h5⟩
  · have htop := h.topic
    unfold publishTopicValid at htop
    show if packet.topic.isEmpty then packet.version = .v5 ∧ present.contains .topicAlias = true else _
    split at htop
    · rename_i hnil
      rw [if_pos hnil]
      simpa using htop
    · rename_i hnil
      rw [if_neg hnil]
      exact htop
  · show packet.qos = UInt8.ofNat (publishFlags packet / 2 % 4)
    rw [hq, UInt8.ofNat_toNat]
  · show packet.retain = decide (publishFlags packet % 2 = 1)
    rw [hr]
    cases packet.retain <;> rfl
  · show packet.duplicate = decide (publishFlags packet / 8 % 2 = 1)
    rw [hd]
    cases packet.duplicate <;> rfl

variable (h : publishPacketEncode packet capacity = .ok bytes)
include h

theorem publishPacketEncode_parse_of_admits {maxPacketSize : Nat} (hadm : Admits maxPacketSize bytes.length) :
    ∃ view, packetParse bytes packet.version maxPacketSize = .ok (view, bytes.length) ∧
      publishParse view = .ok packet.view := by
  obtain ⟨present, hpkt, henc⟩ := publishPacketEncode_eq_ok h
  have hdup : ¬(packet.qos = 0 ∧ packet.duplicate = true) := by
    intro ⟨hq0, hd⟩
    rw [(hpkt.unacknowledged hq0).2] at hd
    cases hd
  exact ⟨_, packetParse_encodePacket henc (fixedHeader_publish hpkt.qos hdup) (by simp) hadm, hpkt.layout.parse⟩

theorem publishPacketEncode_parse :
    ∃ view, packetParse bytes packet.version bytes.length = .ok (view, bytes.length) ∧
      publishParse view = .ok packet.view := by
  obtain ⟨present, -, henc⟩ := publishPacketEncode_eq_ok h
  exact publishPacketEncode_parse_of_admits h (admits_length henc)

end

variable {type : PacketType}

theorem PacketType.toNibble_of_ofNibble {n : Nat} (h : PacketType.ofNibble n = some type) : type.toNibble = n := by
  unfold PacketType.ofNibble at h
  split at h <;> cases h <;> rfl

def FlagsValid (type : PacketType) (flags : Nat) : Prop :=
  (type = .publish → flags / 2 % 4 ≠ 3 ∧ ¬(flags / 2 % 4 = 0 ∧ flags / 8 % 2 = 1)) ∧
    (type = .subscribe ∨ type = .unsubscribe → flags = 2)

/-- The first byte of a packet is its type and its flags. -/
theorem fixedHeader_eq_some {flags : Nat} (h : fixedHeader first version = some (type, flags)) :
    first = UInt8.ofNat (type.toNibble * 16 + flags) ∧ flags < 16 ∧ FlagsValid type flags := by
  have hparts : PacketType.ofNibble (first.toNat / 16) = some type ∧ first.toNat % 16 = flags ∧
      FlagsValid type flags := by
    unfold fixedHeader at h
    dsimp only at h
    split at h
    · cases h
    · rename_i htype
      split at h
      · cases h
        exact ⟨htype, rfl, by simp [FlagsValid]⟩
      · cases h
    · rename_i htype
      split at h
      · rename_i hfl
        cases h
        exact ⟨htype, rfl, fun _ => hfl, by simp⟩
      · cases h
    · rename_i type' _ hnot htype
      split at h
      · split at h
        · rename_i htwo
          cases h
          exact ⟨htype, rfl, fun hpub => absurd hpub hnot, fun _ => htwo⟩
        · cases h
      · rename_i hrequired
        split at h
        · cases h
          exact ⟨htype, rfl, fun hpub => absurd hpub hnot, fun hsub => absurd (.inr hsub) hrequired⟩
        · cases h
  obtain ⟨htype, hfl, hval⟩ := hparts
  have hnibble := PacketType.toNibble_of_ofNibble htype
  refine ⟨?_, by omega, hval⟩
  have hfst := first.toNat_lt
  rw [← UInt8.toNat_inj, UInt8.toNat_ofNat', hnibble]
  omega

end Flowie.Mqtt
