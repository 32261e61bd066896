import Flowie.Mqtt.ClientRoundTrip
import Flowie.Mqtt.ControlRoundTrip

/-!
# The wire form is canonical

A PUBLISH, SUBSCRIBE or UNSUBSCRIBE that is accepted is encoded again to the same bytes, and a control
packet to bytes that are parsed to the same fields (`wire_form_is_canonical`). A control packet may be
spelt in more than one way, since a zero reason and an empty property block may be left out.
-/

namespace Flowie.Mqtt

open List BigEndian
open Checks (bind_eq_ok bind_unit_eq_ok)
open Reader

variable {n : Nat} {version : Version}

/-- The packet that was parsed is what the encoder lays out of its parts. -/
theorem encodePacket_of_parse {bytes : Bytes} {maxPacketSize capacity : Nat} {view : PacketView}
    (h : packetParse bytes version maxPacketSize = .ok (view, n)) (hcap : n ≤ capacity) :
    encodePacket view.type view.flags view.body capacity = .ok (bytes.take n) := by
  obtain ⟨first, lenBytes, rest, hfrm, rfl⟩ := framed_of_parse h
  obtain ⟨hlen, rfl⟩ := agrees_vbi.eq_write hfrm.remaining
  obtain ⟨rfl, -, -⟩ := fixedHeader_eq_some hfrm.header
  have hsize := length_vbiWrite view.body.length
  have hlength : (UInt8.ofNat (view.type.toNibble * 16 + view.flags) :: (vbiWrite view.body.length ++ view.body)).length =
      1 + (vbiWrite view.body.length).length + view.body.length := by
    rw [length_cons, length_append]
    omega
  have hspl : bytes = (UInt8.ofNat (view.type.toNibble * 16 + view.flags) ::
      (vbiWrite view.body.length ++ view.body)) ++ rest := by simp [hfrm.split]
  unfold encodePacket
  rw [if_neg (by omega), if_neg (by omega), hspl, take_left' hlength]

section

variable [Vstr]

def PublishView.packet (publish : PublishView) (version : Version) : PublishPacket :=
  ⟨version, publish.qos, publish.retain, publish.duplicate, publish.packetId, publish.topic, publish.properties,
    publish.payload⟩

theorem Encodable.encode {packet : PublishPacket} {present : List PropertyId} (h : Encodable packet present)
    (capacity : Nat) :
    publishPacketEncode packet capacity =
      encodePacket .publish (publishFlags packet) (publishBody packet) capacity := by
  have hlen := h.length
  unfold publishPacketEncode
  rw [if_neg (by simp [h.supported]), if_neg, if_neg (by unfold maxUtf8Size; omega), if_neg (by simp [h.utf8]), h.properties]
  · dsimp only
    rw [if_neg (by simp [h.topic])]
  · rw [not_or, not_or]
    refine ⟨h.qos, ?_, fun hid => h.acknowledged hid.1 hid.2⟩
    rintro ⟨hzero, hbad⟩
    simp [h.unacknowledged hzero] at hbad

section

variable {packet : PacketView} {publish : PublishView} (h : publishParse packet = .ok publish) {first : UInt8}
  (hhdr : fixedHeader first packet.version = some (packet.type, packet.flags))
include h hhdr

/-- A PUBLISH that was parsed passes the checks of the encoder, which lays it out as it was. -/
theorem encodable_of_parse :
    (∃ present, Encodable (publish.packet packet.version) present) ∧ packet.type = .publish ∧
      publishFlags (publish.packet packet.version) = packet.flags ∧
      publishBody (publish.packet packet.version) = packet.body := by
  obtain ⟨topicBytes, idBytes, blockHead, present, layout⟩ := publishLayout_of_parse h
  obtain ⟨found, hblk, hfnd⟩ := layout.versionedProperties
  obtain ⟨hval, hprp⟩ := (versionedProperties_iff layout.supported).1 hblk
  obtain ⟨htop, rfl⟩ := (agrees_lengthSpan true).eq_write layout.topic
  obtain ⟨hlen, hutf8⟩ := lengthSpanInputValidate_iff.1 htop
  have htype := layout.type
  rw [htype] at hhdr
  obtain ⟨-, hfl, hpub, -⟩ := fixedHeader_eq_some hhdr
  obtain ⟨hqos3, hdup⟩ := hpub rfl
  have hqos : publish.qos.toNat = packet.flags / 2 % 4 := by
    rw [layout.qos, UInt8.toNat_ofNat']
    omega
  have hid : idBytes = (if publish.qos ≠ 0 then write 2 publish.packetId.toNat else []) ∧
      (publish.qos ≠ 0 → publish.packetId ≠ 0) ∧ (publish.qos = 0 → publish.packetId = 0) := by
    have hpid := layout.packetId
    split at hpid
    · rename_i hne
      obtain ⟨hid, hbs⟩ := agrees_packetIdentifier.eq_write hpid
      rw [if_pos hne]
      exact ⟨hbs, fun _ => hid, fun h0 => absurd h0 hne⟩
    · rename_i hzero
      rw [if_neg hzero]
      exact ⟨hpid.1, fun hne => absurd hne hzero, fun _ => hpid.2⟩
  obtain ⟨rfl, hacknowledged, hunacknowledged⟩ := hid
  have henc : Encodable (publish.packet packet.version) found :=
    { supported := layout.supported
      qos := fun hgt => by
        have hgt : 2 < publish.qos.toNat := hgt
        omega
      unacknowledged := fun hzero => by
        have hzero : publish.qos = 0 := hzero
        have hq0 : publish.qos.toNat = 0 := by rw [hzero]; rfl
        refine ⟨hunacknowledged hzero, ?_⟩
        show publish.duplicate = false
        rw [layout.duplicate]
        exact decide_eq_false fun hd => hdup ⟨by omega, hd⟩
      acknowledged := hacknowledged
      length := hlen
      utf8 := hutf8 rfl
      properties := hval
      topic := by
        have htv := layout.topicValid
        unfold publishTopicValid
        show (if publish.topic.isEmpty then packet.version == .v5 && found.contains .topicAlias
          else topicNameValidate publish.topic) = true
        split at htv
        · rename_i hnil
          rw [if_pos hnil, hfnd htv.1, htv.1, htv.2]
          rfl
        · rename_i hnil
          rw [if_neg hnil, htv] }
  have hbit : ∀ k, (decide (packet.flags / k % 2 = 1)).toNat = packet.flags / k % 2 := by
    intro k
    rcases Nat.mod_two_eq_zero_or_one (packet.flags / k) with h | h <;> simp [h]
  have hsame : publishFlags (publish.packet packet.version) = packet.flags := by
    have hret : publish.retain.toNat = packet.flags % 2 := by
      rw [layout.retain]
      simpa using hbit 1
    show publish.duplicate.toNat * 8 + publish.qos.toNat * 2 + publish.retain.toNat = packet.flags
    rw [layout.duplicate, hbit 8, hret, hqos]
    omega
  have hbody : publishBody (publish.packet packet.version) = packet.body := by
    rw [layout.body, hprp]
    simp only [publishBody, PublishView.packet, versionedPropertiesWrite, append_assoc]
    rfl
  exact ⟨⟨found, henc⟩, htype, hsame, hbody⟩

theorem publishPacketEncode_of_parse (capacity : Nat) :
    publishPacketEncode (publish.packet packet.version) capacity =
      encodePacket packet.type packet.flags packet.body capacity := by
  obtain ⟨⟨_, henc⟩, htype, hfl, hbody⟩ := encodable_of_parse h hhdr
  rw [henc.encode, hfl, hbody, htype]

end

variable {version : Version} {values : Bytes}

variable {capacity : Nat} {bytes : Bytes} {packet : PacketView}

/-- A packet with a list that was parsed is encoded to its body. -/
theorem ListCodec.encode_of_parse {α β : Type} {codec : ListCodec packet.version α}
    {view : UInt16 → Bytes → Bytes → Nat → β} {b : β} (h : codec.parse view packet = .ok b)
    (henc : encodePacket packet.type 2 packet.body capacity = .ok bytes) :
    ∃ packetId values items, view packetId values (items.flatMap codec.write) items.length = b ∧
      codec.list (items.flatMap codec.write) = (items, .needMore) ∧
      codec.encode packetId values items capacity = .ok bytes := by
  obtain ⟨htype, hv, packetId, values, items, hid, hne, hval, hitems, hbody, hview⟩ := parse_iff.1 h
  rw [htype, hbody, ← append_assoc] at henc
  exact ⟨packetId, values, items, hview, codec.list_iff.2 ⟨hitems, rfl⟩, encode_iff.2 ⟨hv, hid, hne, hval, hitems, henc⟩⟩

/-- A control packet that was parsed can be encoded again, to the same body or to a short form of it. -/
structure Reencodes (packet : PacketView) (control : ControlView) : Prop where
  version : control.version = packet.version
  type : control.type = packet.type
  length : control.properties.length ≤ maxRemainingLength
  codes : control.reasonCodes.length ≤ packet.body.length
  valid : packet.version = .v5 → controlPropertiesValidate packet.type control.properties = .ok ()
  properties : packet.version ≠ .v5 → control.properties = []
  body : ∃ body, controlBody control.packet = .ok body ∧
    (body = packet.body ∨ (body.length ≤ 4 ∧ body.length ≤ packet.body.length + 1))

/-- What is read as properties can be written as properties. -/
theorem controlProperties_eq_ok {rest : Bytes} (h : controlProperties packet bytes = .ok (values, rest)) :
    values.length ≤ maxRemainingLength ∧
      (packet.version = .v5 → controlPropertiesValidate packet.type values = .ok ()) ∧
      (packet.version ≠ .v5 → values = []) ∧ rest.length ≤ bytes.length := by
  by_cases h5 : packet.version = .v5
  · rcases (controlProperties_v5 h5).1 h with ⟨-, rfl, rfl, -⟩ | ⟨hlen, hval, rfl⟩
    · exact ⟨Nat.zero_le _, fun _ => rfl, fun _ => rfl, Nat.zero_le _⟩
    · exact ⟨hlen, fun _ => hval, fun hne => absurd h5 hne, by simp⟩
  · obtain ⟨rfl, rfl, -⟩ := (controlProperties_3x h5).1 h
    exact ⟨Nat.zero_le _, fun hv => absurd hv h5, fun _ => rfl, Nat.le_refl _⟩

section Reencode

variable {packet : PacketView} {control : ControlView} (htype : controlType packet.type = true)
  (hv : packet.version.supported = true) (h : controlPacketParse packet = .ok control)

include htype hv h

theorem reencodes_ack (hack : IsAck packet.type) : Reencodes packet control := by
  obtain ⟨hping, hdisc, hsub, -⟩ := hack.others
  rw [controlPacketParse_iff htype hv hping fun h => hdisc h.1, if_neg hsub] at h
  obtain ⟨version, type, flags, bytes⟩ := packet
  obtain ⟨version', type', sp, id, rc, properties, codes⟩ := control
  obtain ⟨rfl, rfl, rest, hhead, hrsn, hprp, rfl⟩ := h
  obtain ⟨hlen, hval, hnone5, -⟩ := controlProperties_eq_ok hprp
  obtain ⟨rfl, hid, hbody⟩ := (controlHead_ack_iff hack).1 hhead
  have hsht : version'.is3x = true → properties = [] ∧ rc = 0 := by
    intro hold
    have h5 := Version.ne_v5 hold
    obtain ⟨hnone, -⟩ := (controlProperties_3x h5).1 hprp
    rcases hbody with ⟨-, hrc, -⟩ | ⟨hver, -⟩
    · exact ⟨hnone, hrc⟩
    · exact absurd hver h5
  refine ⟨rfl, rfl, hlen, Nat.zero_le _, hval, hnone5,
    write 2 id.toNat ++ (if rc = 0 ∧ properties = [] then [] else rc :: propertyValuesWrite properties),
    (controlBody_ack_iff hack).2 ⟨rfl, hid, rfl, hrsn, hsht, rfl⟩, ?_⟩
  rcases hbody with ⟨rfl, rfl, rfl⟩ | ⟨h5, rfl⟩
  · -- the shortest form
    have hnone : properties = [] := by
      by_cases h5 : version' = .v5
      · rcases (controlProperties_v5 h5).1 hprp with ⟨-, hnone, -⟩ | ⟨-, -, hblk⟩
        · exact hnone
        · exact absurd (List.append_eq_nil_iff.1 hblk.symm).1 propertyValuesWrite_ne_nil
      · exact ((controlProperties_3x h5).1 hprp).1
    left
    rw [if_pos ⟨rfl, hnone⟩, append_nil]
  · rcases (controlProperties_v5 h5).1 hprp with ⟨rfl, rfl, -, -⟩ | ⟨-, -, rfl⟩
    · -- a reason without properties
      right
      split <;> simp [propertyValuesWrite, vbiWrite, vbiWriteLoop]
    · split
      · right
        simp only [append_nil, length_write, length_append, length_cons]
        omega
      · left
        rw [append_nil]

theorem reencodes_disconnect (hdisc : packet.type = .disconnect ∨ packet.type = .auth) : Reencodes packet control := by
  obtain ⟨hping, hsub, -⟩ := disconnect_others hdisc
  obtain ⟨version, type, flags, bytes⟩ := packet
  obtain ⟨version', type', sp, id, rc, properties, codes⟩ := control
  cases hold : version.is3x with
  | true =>
    -- before MQTT 5 a DISCONNECT has no body
    unfold controlPacketParse at h
    rw [if_neg (by simp [htype, hv]), if_neg hping, if_pos ⟨hdisc, hold⟩] at h
    split_ifs at h with hnil
    simp only [not_or, not_not, Bool.not_eq_true', Bool.not_eq_false, List.isEmpty_iff] at hnil
    obtain ⟨rfl, rfl⟩ := hnil
    cases h
    have h5 := Version.ne_v5 hold
    have hrsn : reasonCodeValid .disconnect version 0 = true := by cases version <;> decide
    exact ⟨rfl, rfl, Nat.zero_le _, Nat.zero_le _, fun hver => absurd hver h5, fun _ => rfl, [],
      (controlBody_disconnect_iff hdisc).2
        ⟨rfl, rfl, rfl, hrsn, fun _ => ⟨rfl, rfl, rfl⟩, by simp [ControlView.packet]⟩, .inl rfl⟩
  | false =>
    have h5 : version = .v5 := (Version.eq_v5_iff hv).2 hold
    rw [controlPacketParse_iff htype hv hping fun h => by simp [hold] at h, if_neg hsub] at h
    obtain ⟨rfl, rfl, rest, hhead, hrsn, hprp, hnone⟩ := h
    subst hnone
    obtain ⟨hlen, hval, hnone5, -⟩ := controlProperties_eq_ok hprp
    obtain ⟨rfl, rfl, hbody⟩ := (controlHead_disconnect_iff hdisc).1 hhead
    refine ⟨rfl, rfl, hlen, Nat.zero_le _, hval, hnone5,
      if rc = 0 ∧ properties = [] then [] else rc :: (if properties = [] then [] else propertyValuesWrite properties),
      (controlBody_disconnect_iff hdisc).2 ⟨rfl, rfl, rfl, hrsn, fun h => ?_, rfl⟩, ?_⟩
    · simp [ControlView.packet, hold] at h
    · dsimp only
      split
      · exact .inr ⟨Nat.zero_le _, Nat.zero_le _⟩
      rename_i hlong
      rcases hbody with ⟨-, rfl, rfl⟩ | rfl
      · -- nothing was read, so nothing is left out
        rcases (controlProperties_v5 h5).1 hprp with ⟨-, hnone, -, -⟩ | ⟨-, -, hblk⟩
        · exact absurd ⟨rfl, hnone⟩ hlong
        · exact absurd (List.append_eq_nil_iff.1 hblk.symm).1 propertyValuesWrite_ne_nil
      · rcases (controlProperties_v5 h5).1 hprp with ⟨rfl, rfl, -, -⟩ | ⟨-, -, rfl⟩
        · exact .inl rfl
        split
        · exact .inr (by simp)
        · exact .inl (by rw [append_nil])

theorem reencodes_connack (hca : packet.type = .connack) : Reencodes packet control := by
  obtain ⟨version, type, flags, bytes⟩ := packet
  obtain ⟨version', type', sp, id, rc, properties, codes⟩ := control
  dsimp only at *
  have hping : type ≠ .pingresp := by simp [hca]
  have hdisc : ¬(type = .disconnect ∨ type = .auth) := by simp [hca]
  have hsub : ¬(type = .suback ∨ type = .unsuback) := by simp [hca]
  rw [controlPacketParse_iff htype hv hping fun h => hdisc h.1, if_neg hsub] at h
  obtain ⟨rfl, rfl, rest, hhead, hrsn, hprp, hnone⟩ := h
  dsimp only at *
  subst hnone
  obtain ⟨hlen, hval, hnone5, -⟩ := controlProperties_eq_ok hprp
  obtain ⟨rfl, hsp, hv31, rfl⟩ := (controlHead_connack_iff hca).1 hhead
  refine ⟨rfl, rfl, hlen, Nat.zero_le _, hval, hnone5,
    UInt8.ofNat sp.toNat :: rc :: (if version' = .v5 then propertyValuesWrite properties else []),
    (controlBody_connack_iff hca).2 ⟨rfl, rfl, hsp, hrsn, hv31, rfl⟩, .inl ?_⟩
  by_cases h5 : version' = .v5
  · rcases (controlProperties_v5 h5).1 hprp with ⟨-, -, -, hblk⟩ | ⟨-, -, rfl⟩
    · exact absurd (.inl hca) hblk
    · rw [if_pos h5, append_nil]
  · obtain ⟨-, hrest, -⟩ := (controlProperties_3x h5).1 hprp
    rw [if_neg h5, hrest]

theorem reencodes_suback (hsub : packet.type = .suback ∨ packet.type = .unsuback) : Reencodes packet control := by
  obtain ⟨version, type, flags, bytes⟩ := packet
  obtain ⟨version', type', sp, id, rc, properties, codes⟩ := control
  dsimp only at *
  have hping : type ≠ .pingresp := by rcases hsub with h | h <;> simp [h]
  have hdisc : ¬(type = .disconnect ∨ type = .auth) := by rcases hsub with h | h <;> simp [h]
  rw [controlPacketParse_iff htype hv hping fun h => hdisc h.1, if_pos hsub] at h
  obtain ⟨rfl, rfl, rest, hhead, hrsn, hprp, hcodes, hall⟩ := h
  dsimp only at *
  obtain ⟨hlen, hval, hnone5, hle⟩ := controlProperties_eq_ok hprp
  obtain ⟨rfl, hid, rfl, rfl⟩ := (controlHead_suback_iff hsub).1 hhead
  have h3x : version'.is3x = true → properties = [] ∧ (type' = .unsuback → codes = []) := by
    intro hold
    have h5 := Version.ne_v5 hold
    obtain ⟨hnone, rfl, hsuback⟩ := (controlProperties_3x h5).1 hprp
    refine ⟨hnone, fun hunsuback => hsuback.resolve_left fun h => ?_⟩
    rw [hunsuback] at h
    cases h
  refine ⟨rfl, rfl, hlen, ?_, hval, hnone5,
    write 2 id.toNat ++ (if version' = .v5 then propertyValuesWrite properties else []) ++ codes,
    (controlBody_suback_iff hsub).2 ⟨rfl, hid, rfl, hcodes, h3x, hall, rfl⟩, .inl ?_⟩
  · show codes.length ≤ (write 2 id.toNat ++ rest).length
    rw [length_append]
    omega
  · by_cases h5 : version' = .v5
    · rcases (controlProperties_v5 h5).1 hprp with ⟨-, -, -, hblk⟩ | ⟨-, -, rfl⟩
      · exact absurd (.inr hsub) hblk
      · rw [if_pos h5, append_assoc]
    · obtain ⟨-, rfl, -⟩ := (controlProperties_3x h5).1 hprp
      rw [if_neg h5, append_nil]

end Reencode

variable {control : ControlView}

/-- Every control packet that is parsed can be encoded again. -/
theorem reencodes_of_parse (h : controlPacketParse packet = .ok control) :
    controlType packet.type = true ∧ packet.version.supported = true ∧ Reencodes packet control := by
  have hargs : controlType packet.type = true ∧ packet.version.supported = true := by
    unfold controlPacketParse at h
    split at h
    · cases h
    · rename_i hargs
      simpa using hargs
  obtain ⟨htype, hv⟩ := hargs
  refine ⟨htype, hv, ?_⟩
  by_cases hack : IsAck packet.type
  · exact reencodes_ack htype hv h hack
  by_cases hdisc : packet.type = .disconnect ∨ packet.type = .auth
  · exact reencodes_disconnect htype hv h hdisc
  by_cases hsub : packet.type = .suback ∨ packet.type = .unsuback
  · exact reencodes_suback htype hv h hsub
  by_cases hca : packet.type = .connack
  · exact reencodes_connack htype hv h hca
  obtain ⟨version, type, flags, bytes⟩ := packet
  have hping : type = .pingresp := by
    cases type <;> simp_all [controlType, IsAck]
  subst hping
  unfold controlPacketParse at h
  rw [if_neg (by simp [htype, hv]), if_pos rfl] at h
  split at h
  · rename_i hnil
    cases h
    exact ⟨rfl, rfl, Nat.zero_le _, Nat.zero_le _, fun _ => rfl, fun _ => rfl, [], rfl,
      .inl (List.isEmpty_iff.1 hnil).symm⟩
  · cases h

omit [Vstr] in
theorem ControlView.view_packet (h : control.version ≠ .v5 → control.properties = []) : control.packet.view = control := by
  obtain ⟨version, type, sp, id, rc, properties, codes⟩ := control
  unfold ControlView.packet ControlPacket.view
  dsimp only at h ⊢
  split
  · rfl
  · rename_i h5
    rw [h h5]

omit [Vstr] in
/-- A body that is the one parsed, or a short form, fits the room of the packet and one byte more. -/
theorem encodePacket_fits {type : PacketType} {flags : Nat} {old body : Bytes} (hold : old.length ≤ maxRemainingLength)
    (hcap : 1 + vbiSize old.length + old.length ≤ capacity)
    (hbody : body = old ∨ (body.length ≤ 4 ∧ body.length ≤ old.length + 1)) :
    ∃ written, encodePacket type flags body (capacity + 1) = .ok written := by
  have hsmall : body.length ≤ 4 → vbiSize body.length = 1 := by
    intro h
    unfold vbiSize vbiSizeLoop
    rw [if_neg (by omega)]
  have hpos : 1 ≤ vbiSize old.length := by
    unfold vbiSize vbiSizeLoop
    split <;> omega
  unfold encodePacket
  rcases hbody with rfl | ⟨hfour, hsht⟩
  · exact ⟨_, by rw [if_neg (by omega), if_neg (by omega)]⟩
  have hone := hsmall hfour
  unfold maxRemainingLength
  exact ⟨_, by rw [if_neg (by omega), if_neg (by omega)]⟩

/-- A PUBLISH, SUBSCRIBE or UNSUBSCRIBE that is accepted is encoded again to its bytes; a control packet
    that is accepted is encoded again to bytes with the same meaning. -/
theorem wire_form_is_canonical (bytes : Bytes) (version : Version) (maxPacketSize n capacity : Nat) (view : PacketView)
    (h : packetParse bytes version maxPacketSize = .ok (view, n)) (hcap : n ≤ capacity) :
    (∀ publish, publishParse view = .ok publish →
      publishPacketEncode (publish.packet version) capacity = .ok (bytes.take n)) ∧
    (∀ subscribe, subscribeParse view = .ok subscribe →
      subscribePacketEncode ⟨version, subscribe.packetId, subscribe.properties,
        (subscriptions version subscribe.entries).1⟩ capacity = .ok (bytes.take n)) ∧
    (∀ unsubscribe, unsubscribeParse view = .ok unsubscribe →
      unsubscribePacketEncode ⟨version, unsubscribe.packetId, unsubscribe.properties,
        (topicFilters unsubscribe.filters).1⟩ capacity = .ok (bytes.take n)) ∧
    (∀ control, controlPacketParse view = .ok control →
      ∃ written, controlPacketEncode control.packet (capacity + 1) = .ok written ∧
        ∀ limit, Admits limit written.length →
          ∃ again, packetParse written version limit = .ok (again, written.length) ∧
            controlPacketParse again = .ok control) := by
  have henc := encodePacket_of_parse h hcap
  obtain ⟨first, lenBytes, rest, hfrm, rfl⟩ := framed_of_parse h
  obtain ⟨hlen, rfl⟩ := agrees_vbi.eq_write hfrm.remaining
  obtain rfl := hfrm.parsedAs
  obtain ⟨-, -, -, hfl⟩ := fixedHeader_eq_some hfrm.header
  refine ⟨?_, ?_, ?_, ?_⟩
  · intro publish hpub
    rw [publishPacketEncode_of_parse hpub hfrm.header, henc]
  · intro subscribe hsub
    rw [subscribeParse_eq] at hsub
    rw [hfl (.inl (ListCodec.parse_iff.1 hsub).1)] at henc
    obtain ⟨packetId, values, entries, rfl, hlist, hencoded⟩ := ListCodec.encode_of_parse hsub henc
    rw [← hencoded, subscribePacketEncode_eq]
    exact congrArg (fun list => (subscribeCodec _).encode packetId values list.1 capacity) hlist
  · intro unsubscribe huns
    rw [unsubscribeParse_eq] at huns
    rw [hfl (.inr (ListCodec.parse_iff.1 huns).1)] at henc
    obtain ⟨packetId, values, filters, rfl, hlist, hencoded⟩ := ListCodec.encode_of_parse huns henc
    rw [← hencoded, unsubscribePacketEncode_eq]
    exact congrArg (fun list => (unsubscribeCodec _).encode packetId values list.1 capacity) hlist
  · intro control hctl
    obtain ⟨htype, hv, hre⟩ := reencodes_of_parse hctl
    obtain ⟨body, hbody, hsize⟩ := hre.body
    rw [length_vbiWrite] at hcap
    obtain ⟨written, hwr⟩ := encodePacket_fits hlen hcap hsize
    have hpkt : controlPacketEncode control.packet (capacity + 1) = .ok written := by
      refine controlPacketEncode_eq_ok.2 ⟨?_, ?_, hre.length, Nat.le_trans hre.codes hlen, ?_, body, hbody, hwr⟩
      · rw [← hre.type] at htype
        exact htype
      · rw [← hre.version] at hv
        exact hv
      have hval := hre.valid
      rw [← hre.version, ← hre.type] at hval
      exact hval
    refine ⟨written, hpkt, fun limit hadm => ?_⟩
    obtain ⟨again, hpar, -, hagain⟩ := controlPacketEncode_parse hpkt hadm
    have hprp := hre.properties
    rw [← hre.version] at hprp
    rw [ControlView.view_packet hprp] at hagain
    exact ⟨again, hre.version ▸ hpar, hagain⟩

end

section Examples

attribute [local instance] asciiVstr

/-- A PUBACK with a reason of zero and no properties, spelt out, is encoded again to its short form. -/
theorem wire_form_is_canonical_puback :
    packetParse [0x40, 0x04, 0x00, 0x07, 0x00, 0x00] .v5 0 = .ok (⟨.v5, .puback, 0, [0x00, 0x07, 0x00, 0x00]⟩, 6) ∧
    ∃ written, controlPacketEncode ⟨.v5, .puback, false, 7, 0, [], []⟩ 7 = .ok written ∧
      ∀ limit, Admits limit written.length →
        ∃ again, packetParse written .v5 limit = .ok (again, written.length) ∧
          controlPacketParse again = .ok ⟨.v5, .puback, false, 7, 0, [], []⟩ :=
  have hpar : packetParse [0x40, 0x04, 0x00, 0x07, 0x00, 0x00] .v5 0 =
      .ok (⟨.v5, .puback, 0, [0x00, 0x07, 0x00, 0x00]⟩, 6) := by rfl
  ⟨hpar, (wire_form_is_canonical _ .v5 0 6 6 _ hpar (by decide)).2.2.2 ⟨.v5, .puback, false, 7, 0, [], []⟩ rfl⟩

end Examples

end Flowie.Mqtt
