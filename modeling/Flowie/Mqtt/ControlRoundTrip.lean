import Flowie.Mqtt.RoundTrip

/-!
# Control packets are read back

The acknowledgements, CONNACK, SUBACK, UNSUBACK, PINGRESP, DISCONNECT and AUTH. What the encoder accepts
is parsed back with the same fields, short forms included, except that a CONNACK before MQTT 5 loses
the properties it was given (`control_packets_round_trip_iff`): the encoder neither refuses them, as it does
for every other packet, nor writes them.
-/

namespace Flowie.Mqtt

open BigEndian
open Checks (ite_error_eq_ok)
open Reader

section

variable [Vstr]

omit [Vstr] in
theorem agrees_propertyBlockParse :
    Agrees propertyBlockParse (fun values => values.length ≤ maxRemainingLength) propertyValuesWrite := by
  intro bytes values rest
  rw [← agrees_typedPropertyBlock bytes values rest]
  unfold typedPropertyBlock
  split
  · rename_i hread
    rw [hread]
    exact ⟨fun h => (nomatch h), fun h => (nomatch h)⟩
  · rfl

omit [Vstr] in
theorem propertyValuesWrite_ne_nil {values : Bytes} : propertyValuesWrite values ≠ [] := by
  unfold propertyValuesWrite vbiWrite vbiWriteLoop
  split <;> simp

/-- The packets of the parser's last branch, with a head, properties and reason codes. -/
theorem controlPacketParse_iff {packet : PacketView} {control : ControlView} (htype : controlType packet.type = true)
    (hv : packet.version.supported = true) (hping : packet.type ≠ .pingresp)
    (h3x : ¬((packet.type = .disconnect ∨ packet.type = .auth) ∧ packet.version.is3x = true)) :
    controlPacketParse packet = .ok control ↔
      control.version = packet.version ∧ control.type = packet.type ∧
      ∃ rest, controlHead packet = .ok (control.sessionPresent, control.packetId, control.reasonCode, rest) ∧
        reasonCodeValid packet.type packet.version control.reasonCode = true ∧
        controlProperties packet rest = .ok (control.properties, control.reasonCodes) ∧
        (if packet.type = .suback ∨ packet.type = .unsuback then
          (control.reasonCodes = [] → packet.type ≠ .suback ∧ packet.version ≠ .v5) ∧
            control.reasonCodes.all (reasonCodeValid packet.type packet.version) = true
          else control.reasonCodes = []) := by
  obtain ⟨version, type, sessionPresent, packetId, reasonCode, properties, reasonCodes⟩ := control
  unfold controlPacketParse
  rw [if_neg (by simp [htype, hv]), if_neg hping, if_neg h3x]
  dsimp only
  constructor
  · intro h
    split at h
    · cases h
    rename_i sp id rc rest hhead
    split at h
    · cases h
    rename_i hrsn
    split at h
    · cases h
    rename_i values tail hprp
    split at h
    · rename_i hcodes
      rw [if_pos hcodes]
      split_ifs at h with hempty hall
      cases h
      refine ⟨rfl, rfl, rest, hhead, by simpa using hrsn, hprp, ?_, by simpa using hall⟩
      intro hnil
      rw [hnil] at hempty
      simpa [not_or] using hempty
    · rename_i hcodes
      rw [if_neg hcodes]
      split_ifs at h with hempty
      cases h
      have htail : tail = [] := by simpa using hempty
      rw [htail] at hprp
      exact ⟨rfl, rfl, rest, hhead, by simpa using hrsn, hprp, rfl⟩
  · rintro ⟨rfl, rfl, rest, hhead, hrsn, hprp, hcodes⟩
    rw [hhead]
    dsimp only
    rw [if_neg (by simp [hrsn]), hprp]
    dsimp only
    split at hcodes
    · rename_i hsub
      rw [if_pos hsub, if_neg, if_neg (by rw [hcodes.2]; simp)]
      intro ⟨hempty, hneeded⟩
      obtain ⟨hnot, hnot5⟩ := hcodes.1 (List.isEmpty_iff.1 hempty)
      rcases hneeded with hsuback | h5
      · exact hnot hsuback
      · exact hnot5 h5
    · rename_i hsub
      rw [if_neg hsub, hcodes, if_neg (by simp)]

/-- The packets whose property block is always written in MQTT 5. -/
def blockRequired (type : PacketType) : Prop := type = .connack ∨ type = .suback ∨ type = .unsuback

instance (type : PacketType) : Decidable (blockRequired type) := inferInstanceAs (Decidable (_ ∨ _))

variable {bytes rest : Bytes} {values : Bytes}

/-- In MQTT 5 the property block is read as it is written, or is left out with what precedes it. -/
theorem controlProperties_v5 {packet : PacketView} (h5 : packet.version = .v5) :
    controlProperties packet bytes = .ok (values, rest) ↔
      (bytes = [] ∧ values = [] ∧ rest = [] ∧ ¬blockRequired packet.type) ∨
      (values.length ≤ maxRemainingLength ∧ controlPropertiesValidate packet.type values = .ok () ∧
        bytes = propertyValuesWrite values ++ rest) := by
  unfold controlProperties
  rw [if_pos h5]
  by_cases hblk : packet.type = .connack ∨ packet.type = .suback ∨ packet.type = .unsuback ∨ (!bytes.isEmpty) = true
  · rw [if_pos hblk]
    have hnot : ¬(bytes = [] ∧ values = [] ∧ rest = [] ∧ ¬blockRequired packet.type) := by
      rintro ⟨hempty, -, -, hnone⟩
      rw [hempty] at hblk
      unfold blockRequired at hnone
      simp only [List.isEmpty_nil, Bool.not_true, Bool.false_eq_true, or_false] at hblk
      exact hnone hblk
    rw [or_iff_right hnot]
    constructor
    · intro h
      split at h
      · cases h
      rename_i found tail hread
      obtain ⟨hlen, hbs⟩ := (agrees_propertyBlockParse _ _ _).1 hread
      split at h
      · cases h
      rename_i hval
      cases h
      exact ⟨hlen, hval, hbs⟩
    · rintro ⟨hlen, hval, rfl⟩
      rw [agrees_propertyBlockParse.reads hlen]
      dsimp only
      rw [hval]
  · rw [if_neg hblk]
    simp only [not_or] at hblk
    obtain ⟨hca, hsuback, hunsuback, hempty⟩ := hblk
    have hnil : bytes = [] := by simpa using hempty
    subst hnil
    constructor
    · intro h
      cases h
      exact .inl ⟨rfl, rfl, rfl, by simp [blockRequired, hca, hsuback, hunsuback]⟩
    · rintro (⟨-, rfl, rfl, -⟩ | ⟨-, -, hbs⟩)
      · rfl
      · exact absurd (List.append_eq_nil_iff.1 hbs.symm).1 propertyValuesWrite_ne_nil

/-- Before MQTT 5 there are no properties, and only a SUBACK has more behind its head. -/
theorem controlProperties_3x {packet : PacketView} (h5 : packet.version ≠ .v5) :
    controlProperties packet bytes = .ok (values, rest) ↔
      values = [] ∧ rest = bytes ∧ (packet.type = .suback ∨ bytes = []) := by
  unfold controlProperties
  rw [if_neg h5]
  split
  · rename_i hmore
    refine ⟨fun h => (nomatch h), fun ⟨_, _, h⟩ => ?_⟩
    rcases h with hsuback | hnil
    · exact absurd hsuback hmore.1
    · simp [hnil] at hmore
  · rename_i hmore
    constructor
    · intro h
      cases h
      refine ⟨rfl, rfl, ?_⟩
      by_cases hsuback : packet.type = .suback
      · exact .inl hsuback
      · exact .inr (by simpa [hsuback] using hmore)
    · rintro ⟨rfl, rfl, -⟩
      rfl

/-- The fields a control packet is parsed to: MQTT 3.1 and 3.1.1 have no properties. -/
def ControlPacket.view (packet : ControlPacket) : ControlView :=
  ⟨packet.version, packet.type, packet.sessionPresent, packet.packetId, packet.reasonCode,
    if packet.version = .v5 then packet.properties else [], packet.reasonCodes⟩

def ControlView.packet (control : ControlView) : ControlPacket :=
  ⟨control.version, control.type, control.sessionPresent, control.packetId, control.reasonCode, control.properties,
    control.reasonCodes⟩

variable {packet : ControlPacket}

omit [Vstr] in
theorem ControlPacket.packet_view (h : packet.version = .v5 ∨ packet.properties = []) : packet.view.packet = packet := by
  obtain ⟨version, type, sp, id, rc, properties, codes⟩ := packet
  unfold ControlView.packet ControlPacket.view
  rcases h with rfl | rfl
  · rfl
  · simp

variable {capacity : Nat}

/-- What the encoder checks before the body. -/
theorem controlPacketEncode_eq_ok :
    controlPacketEncode packet capacity = .ok bytes ↔
      controlType packet.type = true ∧ packet.version.supported = true ∧
      packet.properties.length ≤ maxRemainingLength ∧ packet.reasonCodes.length ≤ maxRemainingLength ∧
      (packet.version = .v5 → controlPropertiesValidate packet.type packet.properties = .ok ()) ∧
      ∃ body, controlBody packet = .ok body ∧
        encodePacket packet.type (if packet.type = .pubrel then 2 else 0) body capacity = .ok bytes := by
  unfold controlPacketEncode
  rw [ite_error_eq_ok, ite_error_eq_ok]
  simp only [Bool.or_eq_true, Bool.not_eq_true', not_or, Bool.not_eq_false, Nat.not_lt, and_assoc, gt_iff_lt]
  refine and_congr_right fun _ => and_congr_right fun _ => and_congr_right fun _ => and_congr_right fun _ => ?_
  constructor
  · intro h
    split at h
    · cases h
    rename_i hval
    split at h
    · cases h
    rename_i body hbody
    exact ⟨fun h5 => by rwa [if_pos h5] at hval, body, hbody, h⟩
  · rintro ⟨hval, body, hbody, henc⟩
    have hchk : (if packet.version = .v5 then controlPropertiesValidate packet.type packet.properties else .ok ()) =
        .ok () := by
      split
      · rename_i h5
        exact hval h5
      · rfl
    rw [hchk]
    rw [hbody]
    exact henc

/-- The acknowledgements of a PUBLISH exchange. -/
def IsAck (type : PacketType) : Prop := type = .puback ∨ type = .pubrec ∨ type = .pubrel ∨ type = .pubcomp

variable {type : PacketType} {body : Bytes}

section

omit [Vstr]

theorem IsAck.others (hack : IsAck type) : type ≠ .pingresp ∧ ¬(type = .disconnect ∨ type = .auth) ∧
    ¬(type = .suback ∨ type = .unsuback) ∧ ¬blockRequired type := by
  rcases hack with rfl | rfl | rfl | rfl <;> decide

theorem disconnect_others (hdisc : type = .disconnect ∨ type = .auth) :
    type ≠ .pingresp ∧ ¬(type = .suback ∨ type = .unsuback) ∧ ¬blockRequired type := by
  rcases hdisc with rfl | rfl <;> decide

variable {packet : ControlPacket}

/-- The short form of an acknowledgement leaves out a zero reason together with its properties. -/
theorem controlBody_ack_iff (hack : IsAck packet.type) :
    controlBody packet = .ok body ↔
      packet.sessionPresent = false ∧ packet.packetId ≠ 0 ∧ packet.reasonCodes = [] ∧
      reasonCodeValid packet.type packet.version packet.reasonCode = true ∧
      (packet.version.is3x = true → packet.properties = [] ∧ packet.reasonCode = 0) ∧
      write 2 packet.packetId.toNat ++ (if packet.reasonCode = 0 ∧ packet.properties = [] then []
        else packet.reasonCode :: propertyValuesWrite packet.properties) = body := by
  obtain ⟨version, type, sp, id, rc, properties, codes⟩ := packet
  -- the checks as conditions, in each of the types; what is left is to sort them
  rcases hack with rfl | rfl | rfl | rfl <;> simp only [controlBody, ite_error_eq_ok] <;> grind [List.isEmpty_iff]

/-- DISCONNECT and AUTH leave out a zero reason with its properties, and empty properties alone. -/
theorem controlBody_disconnect_iff (htype : packet.type = .disconnect ∨ packet.type = .auth) :
    controlBody packet = .ok body ↔
      packet.sessionPresent = false ∧ packet.packetId = 0 ∧ packet.reasonCodes = [] ∧
      reasonCodeValid packet.type packet.version packet.reasonCode = true ∧
      (packet.version.is3x = true → packet.type = .disconnect ∧ packet.properties = [] ∧ packet.reasonCode = 0) ∧
      (if packet.reasonCode = 0 ∧ packet.properties = [] then []
        else packet.reasonCode :: (if packet.properties = [] then [] else propertyValuesWrite packet.properties)) = body := by
  obtain ⟨version, type, sp, id, rc, properties, codes⟩ := packet
  rcases htype with rfl | rfl <;> simp only [controlBody, ite_error_eq_ok] <;> grind [List.isEmpty_iff]

theorem controlBody_connack_iff (htype : packet.type = .connack) :
    controlBody packet = .ok body ↔
      packet.packetId = 0 ∧ packet.reasonCodes = [] ∧ (packet.sessionPresent = true → packet.reasonCode = 0) ∧
      reasonCodeValid packet.type packet.version packet.reasonCode = true ∧
      (packet.version = .v31 → packet.sessionPresent = false) ∧
      UInt8.ofNat packet.sessionPresent.toNat :: packet.reasonCode ::
        (if packet.version = .v5 then propertyValuesWrite packet.properties else []) = body := by
  obtain ⟨version, type, sp, id, rc, properties, codes⟩ := packet
  subst htype
  simp only [controlBody, ite_error_eq_ok, Except.ok.injEq]
  grind [List.isEmpty_iff]

theorem controlBody_pingresp_iff (htype : packet.type = .pingresp) :
    controlBody packet = .ok body ↔ packet.sessionPresent = false ∧ packet.packetId = 0 ∧ packet.reasonCode = 0 ∧
      packet.properties = [] ∧ packet.reasonCodes = [] ∧ [] = body := by
  obtain ⟨version, type, sp, id, rc, properties, codes⟩ := packet
  subst htype
  simp only [controlBody, ite_error_eq_ok]
  grind [List.isEmpty_iff]

theorem controlBody_suback_iff (htype : packet.type = .suback ∨ packet.type = .unsuback) :
    controlBody packet = .ok body ↔
      packet.sessionPresent = false ∧ packet.packetId ≠ 0 ∧ packet.reasonCode = 0 ∧
      (packet.reasonCodes = [] → packet.type ≠ .suback ∧ packet.version ≠ .v5) ∧
      (packet.version.is3x = true → packet.properties = [] ∧ (packet.type = .unsuback → packet.reasonCodes = [])) ∧
      packet.reasonCodes.all (reasonCodeValid packet.type packet.version) = true ∧
      write 2 packet.packetId.toNat ++
        (if packet.version = .v5 then propertyValuesWrite packet.properties else []) ++ packet.reasonCodes = body := by
  obtain ⟨version, type, sp, id, rc, properties, codes⟩ := packet
  rcases htype with rfl | rfl <;> simp only [controlBody, ite_error_eq_ok, Except.ok.injEq] <;> grind [List.isEmpty_iff]

end

variable {sp : Bool} {id : UInt16} {rc : UInt8}

section

omit [Vstr]

variable {packet : PacketView}

theorem controlHead_ack_iff (hack : IsAck packet.type) :
    controlHead packet = .ok (sp, id, rc, rest) ↔
      sp = false ∧ id ≠ 0 ∧ ((packet.body = write 2 id.toNat ∧ rc = 0 ∧ rest = []) ∨
        (packet.version = .v5 ∧ packet.body = write 2 id.toNat ++ rc :: rest)) := by
  have hhead : controlHead packet =
      match packetIdentifier packet.body with
      | .error e => .error e
      | .ok (packetId, []) => .ok (false, packetId, 0, [])
      | .ok (packetId, reason :: rest) =>
        if packet.version ≠ .v5 then .error .protocolError else .ok (false, packetId, reason, rest) := by
    obtain ⟨version, type, flags, body⟩ := packet
    unfold controlHead
    cases packetIdentifier body with
    | error e => rcases hack with rfl | rfl | rfl | rfl <;> rfl
    | ok r =>
      obtain ⟨packetId, tail⟩ := r
      cases tail <;> rcases hack with rfl | rfl | rfl | rfl <;> rfl
  rw [hhead]
  constructor
  · intro h
    split at h
    · cases h
    · rename_i packetId hread
      cases h
      obtain ⟨hid, hbody⟩ := (agrees_packetIdentifier _ _ _).1 hread
      exact ⟨rfl, hid, .inl ⟨by simpa using hbody, rfl, rfl⟩⟩
    · rename_i packetId reason tail hread
      obtain ⟨hid, hbody⟩ := (agrees_packetIdentifier _ _ _).1 hread
      split_ifs at h with h5
      cases h
      exact ⟨rfl, hid, .inr ⟨not_not.1 h5, hbody⟩⟩
  · rintro ⟨rfl, hid, ⟨hbody, rfl, rfl⟩ | ⟨h5, hbody⟩⟩
    · rw [(agrees_packetIdentifier packet.body id []).2 ⟨hid, by simpa using hbody⟩]
    rw [(agrees_packetIdentifier packet.body id (rc :: rest)).2 ⟨hid, hbody⟩]
    dsimp only
    rw [if_neg (not_not.2 h5)]

theorem controlHead_disconnect_iff (htype : packet.type = .disconnect ∨ packet.type = .auth) :
    controlHead packet = .ok (sp, id, rc, rest) ↔
      sp = false ∧ id = 0 ∧ ((packet.body = [] ∧ rc = 0 ∧ rest = []) ∨ packet.body = rc :: rest) := by
  obtain ⟨version, type, flags, body⟩ := packet
  cases body with
  | nil => rcases htype with rfl | rfl <;> simp [controlHead, eq_comm]
  | cons reason tail => rcases htype with rfl | rfl <;> simp [controlHead, eq_comm]

theorem controlHead_connack_iff (htype : packet.type = .connack) :
    controlHead packet = .ok (sp, id, rc, rest) ↔
      id = 0 ∧ (sp = true → rc = 0) ∧ (packet.version = .v31 → sp = false) ∧
        packet.body = UInt8.ofNat sp.toNat :: rc :: rest := by
  obtain ⟨version, type, flags, body⟩ := packet
  subst htype
  unfold controlHead
  dsimp only
  constructor
  · intro h
    split at h
    · rename_i present reason tail
      split_ifs at h with hbit hagrees
      cases h
      rw [not_or, not_and, not_and, not_not] at hagrees
      have hle : present.toNat ≤ 1 := Nat.le_of_not_lt hbit
      refine ⟨rfl, fun hp => hagrees.2 (beq_iff_eq.1 hp), fun hv => by simpa using hagrees.1 hv, ?_⟩
      have hpres : UInt8.ofNat (present == 1).toNat = present := by
        rcases Nat.le_one_iff_eq_zero_or_eq_one.1 hle with h0 | h1
        · obtain rfl : present = 0 := UInt8.toNat_inj.1 h0
          rfl
        · obtain rfl : present = 1 := UInt8.toNat_inj.1 h1
          rfl
      rw [hpres]
    · cases h
  · rintro ⟨rfl, hrsn, hv31, rfl⟩
    cases sp with
    | false => simp
    | true =>
      have hv : version ≠ .v31 := fun hv => by simpa using hv31 hv
      simp [hrsn rfl, hv]

theorem controlHead_suback_iff (htype : packet.type = .suback ∨ packet.type = .unsuback) :
    controlHead packet = .ok (sp, id, rc, rest) ↔
      sp = false ∧ id ≠ 0 ∧ rc = 0 ∧ packet.body = write 2 id.toNat ++ rest := by
  have hhead : controlHead packet = (packetIdentifier packet.body).map fun head => (false, head.1, 0, head.2) := by
    obtain ⟨version, type, flags, body⟩ := packet
    unfold controlHead
    rcases htype with rfl | rfl <;> cases packetIdentifier body <;> rfl
  rw [hhead]
  constructor
  · intro h
    cases hread : packetIdentifier packet.body with
    | error e =>
      rw [hread] at h
      cases h
    | ok head =>
      rw [hread] at h
      cases h
      obtain ⟨hid, hbody⟩ := (agrees_packetIdentifier _ _ _).1 hread
      exact ⟨rfl, hid, rfl, hbody⟩
  · rintro ⟨rfl, hid, rfl, hbody⟩
    rw [(agrees_packetIdentifier packet.body id rest).2 ⟨hid, hbody⟩]
    rfl

variable {version : Version}

theorem Version.ne_v5 (h3x : version.is3x = true) : version ≠ .v5 := by
  rintro rfl
  cases h3x

theorem Version.eq_v5_iff (hv : version.supported = true) : version = .v5 ↔ version.is3x = false := by
  cases version with
  | unspecified => cases hv
  | v31 => decide
  | v311 => decide
  | v5 => decide

end

section Parse

variable {packet : ControlPacket} {flags : Nat} {body : Bytes} (htype : controlType packet.type = true)
  (hv : packet.version.supported = true) (hlen : packet.properties.length ≤ maxRemainingLength)
  (hval : packet.version = .v5 → controlPropertiesValidate packet.type packet.properties = .ok ())
  (hbody : controlBody packet = .ok body)

include htype hv hlen hval hbody

theorem controlPacketParse_ack (hack : IsAck packet.type) :
    controlPacketParse ⟨packet.version, packet.type, flags, body⟩ = .ok packet.view := by
  obtain ⟨version, type, sp, id, rc, properties, codes⟩ := packet
  obtain ⟨rfl, hid, rfl, hrsn, h3x, rfl⟩ := (controlBody_ack_iff hack).1 hbody
  obtain ⟨hping, hdisc, hsub, hblk⟩ := hack.others
  rw [controlPacketParse_iff htype hv hping fun h => hdisc h.1, if_neg hsub]
  refine ⟨rfl, rfl, ?_⟩
  dsimp only [ControlPacket.view] at *
  by_cases hsht : rc = 0 ∧ properties = []
  · obtain ⟨rfl, rfl⟩ := hsht
    refine ⟨[], (controlHead_ack_iff hack).2 ⟨rfl, hid, .inl ⟨by simp, rfl, rfl⟩⟩, hrsn, ?_, rfl⟩
    by_cases h5 : version = .v5
    · rw [if_pos h5]
      exact (controlProperties_v5 h5).2 (.inl ⟨rfl, rfl, rfl, hblk⟩)
    · rw [if_neg h5]
      exact (controlProperties_3x h5).2 ⟨rfl, rfl, .inr rfl⟩
  · -- only MQTT 5 has the long form
    have h5 : version = .v5 := by
      rw [Version.eq_v5_iff hv]
      exact Bool.eq_false_iff.2 fun h => hsht ⟨(h3x h).2, (h3x h).1⟩
    refine ⟨propertyValuesWrite properties ++ [], (controlHead_ack_iff hack).2 ⟨rfl, hid, .inr ⟨h5, ?_⟩⟩, hrsn, ?_, rfl⟩
    · rw [if_neg hsht, List.append_nil]
    · rw [if_pos h5]
      exact (controlProperties_v5 h5).2 (.inr ⟨hlen, hval h5, rfl⟩)

theorem controlPacketParse_disconnect (hdisc : packet.type = .disconnect ∨ packet.type = .auth) :
    controlPacketParse ⟨packet.version, packet.type, flags, body⟩ = .ok packet.view := by
  obtain ⟨version, type, sp, id, rc, properties, codes⟩ := packet
  obtain ⟨rfl, rfl, rfl, hrsn, h3x, rfl⟩ := (controlBody_disconnect_iff hdisc).1 hbody
  dsimp only [ControlPacket.view] at *
  cases hold : version.is3x with
  | true =>
    -- before MQTT 5 a DISCONNECT has no body
    obtain ⟨rfl, rfl, rfl⟩ := h3x hold
    have h5 := Version.ne_v5 hold
    simp [controlPacketParse, controlType, hv, hold, h5]
  | false =>
    have h5 : version = .v5 := (Version.eq_v5_iff hv).2 hold
    obtain ⟨hping, hsub, hblk⟩ := disconnect_others hdisc
    rw [controlPacketParse_iff htype hv hping fun h => by simp [hold] at h, if_neg hsub, if_pos h5]
    refine ⟨rfl, rfl, ?_⟩
    by_cases hsht : rc = 0 ∧ properties = []
    · obtain ⟨rfl, rfl⟩ := hsht
      exact ⟨[], (controlHead_disconnect_iff hdisc).2 ⟨rfl, rfl, .inl ⟨by simp, rfl, rfl⟩⟩, hrsn,
        (controlProperties_v5 h5).2 (.inl ⟨rfl, rfl, rfl, hblk⟩), rfl⟩
    · rw [if_neg hsht]
      by_cases hp : properties = []
      · subst hp
        exact ⟨[], (controlHead_disconnect_iff hdisc).2 ⟨rfl, rfl, .inr (by simp)⟩, hrsn,
          (controlProperties_v5 h5).2 (.inl ⟨rfl, rfl, rfl, hblk⟩), rfl⟩
      · exact ⟨propertyValuesWrite properties ++ [],
          (controlHead_disconnect_iff hdisc).2 ⟨rfl, rfl, .inr (by simp [hp])⟩, hrsn,
          (controlProperties_v5 h5).2 (.inr ⟨hlen, hval h5, rfl⟩), rfl⟩

theorem controlPacketParse_connack (hca : packet.type = .connack) :
    controlPacketParse ⟨packet.version, packet.type, flags, body⟩ = .ok packet.view := by
  obtain ⟨version, type, sp, id, rc, properties, codes⟩ := packet
  obtain ⟨rfl, rfl, hsp, hrsn, hv31, rfl⟩ := (controlBody_connack_iff hca).1 hbody
  subst hca
  dsimp only [ControlPacket.view] at *
  have hping : PacketType.connack ≠ .pingresp := by decide
  have hdisc : ¬(PacketType.connack = .disconnect ∨ PacketType.connack = .auth) := by decide
  have hsub : ¬(PacketType.connack = .suback ∨ PacketType.connack = .unsuback) := by decide
  rw [controlPacketParse_iff htype hv hping fun h => hdisc h.1, if_neg hsub]
  refine ⟨rfl, rfl, _, (controlHead_connack_iff rfl).2 ⟨rfl, hsp, hv31, rfl⟩, hrsn, ?_, rfl⟩
  by_cases h5 : version = .v5
  · rw [if_pos h5, if_pos h5]
    exact (controlProperties_v5 h5).2 (.inr ⟨hlen, hval h5, by simp⟩)
  · rw [if_neg h5, if_neg h5]
    exact (controlProperties_3x h5).2 ⟨rfl, rfl, .inr rfl⟩

theorem controlPacketParse_suback (hsub : packet.type = .suback ∨ packet.type = .unsuback) :
    controlPacketParse ⟨packet.version, packet.type, flags, body⟩ = .ok packet.view := by
  obtain ⟨version, type, sp, id, rc, properties, codes⟩ := packet
  obtain ⟨rfl, hid, rfl, hcodes, h3x, hall, rfl⟩ := (controlBody_suback_iff hsub).1 hbody
  have hping : type ≠ .pingresp := by rcases hsub with rfl | rfl <;> decide
  have hdisc : ¬(type = .disconnect ∨ type = .auth) := by rcases hsub with rfl | rfl <;> decide
  have hrsn : reasonCodeValid type version 0 = true := by rcases hsub with rfl | rfl <;> cases version <;> decide
  dsimp only [ControlPacket.view] at *
  rw [controlPacketParse_iff htype hv hping fun h => hdisc h.1, if_pos hsub]
  refine ⟨rfl, rfl, _, (controlHead_suback_iff hsub).2 ⟨rfl, hid, rfl, List.append_assoc _ _ _⟩, hrsn, ?_, hcodes, hall⟩
  by_cases h5 : version = .v5
  · rw [if_pos h5, if_pos h5]
    exact (controlProperties_v5 h5).2 (.inr ⟨hlen, hval h5, rfl⟩)
  rw [if_neg h5, if_neg h5]
  have hold : version.is3x = true := by simpa using fun h => h5 ((Version.eq_v5_iff hv).2 h)
  refine (controlProperties_3x h5).2 ⟨rfl, rfl, ?_⟩
  rcases hsub with hsuback | hunsuback
  · exact .inl hsuback
  · exact .inr ((h3x hold).2 hunsuback)

theorem controlPacketParse_controlBody :
    controlPacketParse ⟨packet.version, packet.type, flags, body⟩ = .ok packet.view := by
  by_cases hack : IsAck packet.type
  · exact controlPacketParse_ack htype hv hlen hval hbody hack
  by_cases hdisc : packet.type = .disconnect ∨ packet.type = .auth
  · exact controlPacketParse_disconnect htype hv hlen hval hbody hdisc
  by_cases hsub : packet.type = .suback ∨ packet.type = .unsuback
  · exact controlPacketParse_suback htype hv hlen hval hbody hsub
  by_cases hca : packet.type = .connack
  · exact controlPacketParse_connack htype hv hlen hval hbody hca
  obtain ⟨version, type, sp, id, rc, properties, codes⟩ := packet
  have hping : type = .pingresp := by
    cases type <;> simp_all [controlType, IsAck]
  subst hping
  obtain ⟨rfl, rfl, rfl, rfl, rfl, rfl⟩ := (controlBody_pingresp_iff rfl).1 hbody
  simp [controlPacketParse, controlType, hv, ControlPacket.view]

end Parse

variable {packet : ControlPacket}

omit [Vstr] in
/-- The first byte of a control packet is acceptable; the encoder refuses AUTH before MQTT 5. -/
theorem fixedHeader_control (htype : controlType packet.type = true)
    (hv : packet.version.supported = true) (hbody : controlBody packet = .ok body) :
    fixedHeader (UInt8.ofNat (packet.type.toNibble * 16 + if packet.type = .pubrel then 2 else 0)) packet.version =
      some (packet.type, if packet.type = .pubrel then 2 else 0) := by
  have hhdr : ∀ (type : PacketType) (version : Version), controlType type = true → (type = .auth → version = .v5) →
      fixedHeader (UInt8.ofNat (type.toNibble * 16 + if type = .pubrel then 2 else 0)) version =
        some (type, if type = .pubrel then 2 else 0) := by
    intro type version
    cases type <;> cases version <;> decide
  refine hhdr _ _ htype fun hauth => ?_
  obtain ⟨-, -, -, -, h3x, -⟩ := (controlBody_disconnect_iff (.inr hauth)).1 hbody
  rw [Version.eq_v5_iff hv]
  refine Bool.eq_false_iff.2 fun hold => ?_
  have hdisc := (h3x hold).1
  rw [hauth] at hdisc
  cases hdisc

theorem controlPacketEncode_parse {maxPacketSize : Nat}
    (h : controlPacketEncode packet capacity = .ok bytes) (hadm : Admits maxPacketSize bytes.length) :
    ∃ view, packetParse bytes packet.version maxPacketSize = .ok (view, bytes.length) ∧ view.type = packet.type ∧
      controlPacketParse view = .ok packet.view := by
  obtain ⟨htype, hv, hlen, -, hval, body, hbody, henc⟩ := controlPacketEncode_eq_ok.1 h
  have hping : packet.type = .pingreq ∨ packet.type = .pingresp → body = [] := by
    rintro (hpingreq | hpingresp)
    · rw [hpingreq] at htype
      cases htype
    · exact ((controlBody_pingresp_iff hpingresp).1 hbody).2.2.2.2.2.symm
  exact ⟨_, packetParse_encodePacket henc (fixedHeader_control htype hv hbody) hping hadm, rfl,
    controlPacketParse_controlBody htype hv hlen hval hbody⟩

theorem controlPacketEncode_pubrel {version : Version} {packetId : UInt16}
    (h : controlPacketEncode ⟨version, .pubrel, false, packetId, 0, [], []⟩ capacity = .ok bytes) :
    ∃ view control, packetParse bytes version bytes.length = .ok (view, bytes.length) ∧ view.type = .pubrel ∧
      controlPacketParse view = .ok control ∧ control.packetId = packetId := by
  obtain ⟨-, -, -, -, -, body, -, henc⟩ := controlPacketEncode_eq_ok.1 h
  obtain ⟨view, hpar, htype, hctl⟩ := controlPacketEncode_parse h (admits_length henc)
  exact ⟨view, _, hpar, htype, hctl, rfl⟩

omit [Vstr] in
/-- Before MQTT 5 the encoder refuses properties, except in a CONNACK. -/
theorem properties_of_controlBody (htype : controlType packet.type = true)
    (hbody : controlBody packet = .ok body) (h3x : packet.version.is3x = true) (hca : packet.type ≠ .connack) :
    packet.properties = [] := by
  by_cases hack : IsAck packet.type
  · exact (((controlBody_ack_iff hack).1 hbody).2.2.2.2.1 h3x).1
  by_cases hdisc : packet.type = .disconnect ∨ packet.type = .auth
  · exact (((controlBody_disconnect_iff hdisc).1 hbody).2.2.2.2.1 h3x).2.1
  by_cases hsub : packet.type = .suback ∨ packet.type = .unsuback
  · exact (((controlBody_suback_iff hsub).1 hbody).2.2.2.2.1 h3x).1
  have hping : packet.type = .pingresp := by
    cases htype' : packet.type <;> simp_all [controlType, IsAck]
  exact ((controlBody_pingresp_iff hping).1 hbody).2.2.2.1

/-- A control packet is parsed back with the fields it was encoded from, unless it is a CONNACK before
    MQTT 5 with properties: these are neither refused nor written. -/
theorem control_packets_round_trip_iff (packet : ControlPacket) (capacity maxPacketSize : Nat) (bytes : Bytes)
    (h : controlPacketEncode packet capacity = .ok bytes) (hadm : Admits maxPacketSize bytes.length) :
    (∃ view control, packetParse bytes packet.version maxPacketSize = .ok (view, bytes.length) ∧
      controlPacketParse view = .ok control ∧ control.packet = packet) ↔
    ¬(packet.type = .connack ∧ packet.version.is3x = true ∧ packet.properties ≠ []) := by
  obtain ⟨parsed, hpar, -, hctl⟩ := controlPacketEncode_parse h hadm
  obtain ⟨htype, hv, -, -, -, body, hbody, -⟩ := controlPacketEncode_eq_ok.1 h
  constructor
  · rintro ⟨view, control, hview, hflds, hsame⟩ ⟨-, h3x, hprp⟩
    obtain ⟨rfl, -⟩ := Prod.mk.inj (Except.ok.inj (hview.symm.trans hpar))
    obtain rfl := Except.ok.inj (hflds.symm.trans hctl)
    have h5 := Version.ne_v5 h3x
    have hnil := congrArg ControlPacket.properties hsame
    simp only [ControlView.packet, ControlPacket.view, if_neg h5] at hnil
    exact hprp hnil.symm
  · intro hnot
    refine ⟨parsed, _, hpar, hctl, ?_⟩
    apply ControlPacket.packet_view
    by_cases h5 : packet.version = .v5
    · exact .inl h5
    have h3x : packet.version.is3x = true := by simpa using fun h => h5 ((Version.eq_v5_iff hv).2 h)
    right
    by_cases hca : packet.type = .connack
    · by_contra hne
      exact hnot ⟨hca, h3x, hne⟩
    · exact properties_of_controlBody htype hbody h3x hca

end

section Examples

attribute [local instance] asciiVstr

/-- A PUBACK of MQTT 5 with a reason is parsed back. -/
theorem control_packets_round_trip_puback :
    controlPacketEncode ⟨.v5, .puback, false, 7, 0x10, [], []⟩ 16 = .ok [0x40, 0x04, 0x00, 0x07, 0x10, 0x00] ∧
    ∃ view control, packetParse [0x40, 0x04, 0x00, 0x07, 0x10, 0x00] .v5 0 = .ok (view, 6) ∧
      controlPacketParse view = .ok control ∧ control.packet = ⟨.v5, .puback, false, 7, 0x10, [], []⟩ :=
  have henc : controlPacketEncode ⟨.v5, .puback, false, 7, 0x10, [], []⟩ 16 =
      .ok [0x40, 0x04, 0x00, 0x07, 0x10, 0x00] := by rfl
  ⟨henc, (control_packets_round_trip_iff _ 16 0 _ henc ⟨by decide, by decide⟩).2 (by decide)⟩

/-- A CONNACK of MQTT 3.1.1 that is given a property is encoded without it. -/
theorem connack_properties_lost :
    controlPacketEncode ⟨.v311, .connack, false, 0, 0, [0x24, 0x01], []⟩ 16 = .ok [0x20, 0x02, 0x00, 0x00] ∧
    packetParse [0x20, 0x02, 0x00, 0x00] .v311 0 = .ok (⟨.v311, .connack, 0, [0x00, 0x00]⟩, 4) ∧
    controlPacketParse ⟨.v311, .connack, 0, [0x00, 0x00]⟩ = .ok ⟨.v311, .connack, false, 0, 0, [], []⟩ := by
  exact ⟨rfl, rfl, rfl⟩

end Examples

end Flowie.Mqtt
