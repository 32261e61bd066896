import Flowie.Cluster.PeerCommand
import Flowie.Session.Inbound

/-!
# Results between nodes

`flowie_cluster_peer_mqtt_reply.c`, `flowie_cluster_peer_edge_action.c` and `flowie_cluster_peer_publish_settle.c`:
the owner of a session answers with a packet to send, a close or a settlement; it sends the edge such an action on
its own with a sequence number; and the edge reports what the application settled.
-/

namespace Flowie.Cluster

open Layout BigEndian Checks Mqtt
open List hiding head
open Session (SettlementPoint ProtocolMessage messageValidate)

/-! ## Settlement points on the wire -/

def settlementOfNumber (number : Nat) : SettlementPoint :=
  match number with
  | 1 => .received
  | 2 => .accepted
  | 3 => .processed
  | 4 => .durable
  | _ => .unknown

theorem settlementOfNumber_rank (point : SettlementPoint) : settlementOfNumber point.rank = point := by
  cases point <;> rfl

theorem rank_settlementOfNumber {number : Nat} (h : settlementOfNumber number ≠ .unknown) :
    (settlementOfNumber number).rank = number := by
  unfold settlementOfNumber at h ⊢
  split <;> simp_all [SettlementPoint.rank]

theorem rank_lt (point : SettlementPoint) : point.rank < 5 := by
  cases point <;> decide

/-! ## Replies -/

/-- The arguments of the encoder; no settlement point is zero. -/
structure MqttReply where
  mqttVersion : Version
  packet : Bytes
  closeAfterSend : Int
  settlementPoint : Option SettlementPoint
deriving DecidableEq, Repr

open MqttReply

/-- `flowie_cluster_peer_mqtt_reply_settlement_valid`. -/
def replySettlementValid : Option SettlementPoint → Bool
  | none => true
  | some point => point != .unknown

def settlementByte : Option SettlementPoint → UInt8
  | none => 0
  | some point => UInt8.ofNat point.rank

def settlementOfByte (byte : UInt8) : Option SettlementPoint :=
  if byte = 0 then none else some (settlementOfNumber byte.toNat)

/-- `flowie_cluster_peer_mqtt_reply_packet_allowed`. -/
def replyPacketAllowed : PacketType → Bool
  | .publish | .puback | .pubrec | .pubrel | .pubcomp | .suback | .unsuback | .pingresp | .disconnect | .auth => true
  | _ => false

def mqttReplyMagic : Bytes := text "TFRP"

def mqttReplyHeaderSize : Nat := 20

/-- Bit 0: a packet, bit 1: close, bit 2: a settlement. -/
def MqttReply.flags (reply : MqttReply) : Nat :=
  (if reply.packet.isEmpty then 0 else 1) + (if reply.closeAfterSend = 0 then 0 else 2) +
    (if reply.settlementPoint = none then 0 else 4)

def MqttReply.fields (reply : MqttReply) : List Bytes :=
  head mqttReplyMagic 1 20 (mqttReplyHeaderSize + reply.packet.length) ++
    [ofU32 (UInt32.ofNat reply.packet.length), [reply.mqttVersion.toByte], [UInt8.ofNat reply.flags],
      [settlementByte reply.settlementPoint], [0], reply.packet]

section
variable [Vstr]

def replyTypedValidate (packet : PacketView) : Except Errno Unit :=
  if packet.type = .publish then typedStatus (publishParse packet) else typedStatus (controlPacketParse packet)

/-- `flowie_cluster_peer_mqtt_reply_packet_parse`. -/
def replyPacketParse (mqttVersion : Version) (packet : Bytes) (maxPacketSize : Nat) : Except Errno PacketView := do
  require (!packet.isEmpty) .einval
  require (packet.length ≤ maxPacketSize) .emsgsize
  let (view, consumed) ← packetStatus (packetParse packet mqttVersion maxPacketSize)
  require (consumed == packet.length && replyPacketAllowed view.type) .eproto
  replyTypedValidate view
  return view

def replyPacket (mqttVersion : Version) (packet : Bytes) (maxPacketSize : Nat) : Except Errno (Option PacketView) :=
  if packet.isEmpty then .ok none else (replyPacketParse mqttVersion packet maxPacketSize).map some

/-- `flowie_cluster_peer_mqtt_reply_encode`. -/
def mqttReplyEncode (reply : MqttReply) (maxPacketSize : Nat) : Except Errno Bytes := do
  require (reply.mqttVersion.supported && maxPacketSize != 0 && maxPacketSize ≤ maxWirePacketSize && 0 ≤ reply.closeAfterSend &&
    reply.closeAfterSend ≤ 1 && replySettlementValid reply.settlementPoint) .einval
  let _ ← replyPacket reply.mqttVersion reply.packet maxPacketSize
  require (mqttReplyHeaderSize + reply.packet.length < 2 ^ 32 && reply.packet.length < 2 ^ 32) .erange
  return reply.fields.flatten

def mqttReplyOf (data : Bytes) : MqttReply where
  mqttVersion := Version.ofByte (byteAt data 16)
  packet := slice data mqttReplyHeaderSize (toU32 (slice data 12 4)).toNat
  closeAfterSend := if (byteAt data 17).toNat / 2 % 2 = 1 then 1 else 0
  settlementPoint := settlementOfByte (byteAt data 18)

/-- `flowie_cluster_peer_mqtt_reply_decode`: the reply and the packet it parsed. -/
def mqttReplyDecode (data : Bytes) (maxPacketSize : Nat) : Except Errno (MqttReply × Option PacketView) := do
  require (maxPacketSize != 0 && maxPacketSize ≤ maxWirePacketSize) .einval
  require (mqttReplyHeaderSize ≤ data.length) .eproto
  let reply := mqttReplyOf data
  let flags := (byteAt data 17).toNat
  require (headMatches mqttReplyMagic 1 20 data && byteAt data 19 == 0 && flags < 8 && reply.mqttVersion.supported &&
    replySettlementValid reply.settlementPoint) .eproto
  let packetSize := (toU32 (slice data 12 4)).toNat
  require (mqttReplyHeaderSize + packetSize == data.length && ((flags % 2 == 1) == (packetSize != 0)) &&
    ((flags / 4 % 2 == 1) == (byteAt data 18 != 0))) .eproto
  let packet ← replyPacket reply.mqttVersion reply.packet maxPacketSize
  return (reply, packet)

end

/-! ## A reply is decoded exactly from its encoding -/

def mqttReplyWidths (reply : MqttReply) : List Nat := [4, 2, 2, 4, 4, 1, 1, 1, 1, reply.packet.length]

variable (reply : MqttReply)

theorem MqttReply.slices_fields : slices reply.fields.flatten 0 (mqttReplyWidths reply) = reply.fields := by
  rw [← append_nil reply.fields.flatten]
  apply slices_flatten
  simp [fields, head, mqttReplyWidths, mqttReplyMagic, text]

theorem MqttReply.length_fields : reply.fields.flatten.length = mqttReplyHeaderSize + reply.packet.length := by
  simp [fields, head, mqttReplyMagic, text, mqttReplyHeaderSize]
  omega

variable {point : Option SettlementPoint}

theorem settlementOfByte_settlementByte (h : replySettlementValid point = true) :
    settlementOfByte (settlementByte point) = point := by
  cases point with
  | none => rfl
  | some point => cases point <;> simp_all [settlementOfByte, settlementByte, replySettlementValid, SettlementPoint.rank, settlementOfNumber]

variable {byte : UInt8}

theorem settlementByte_settlementOfByte (h : replySettlementValid (settlementOfByte byte) = true) :
    settlementByte (settlementOfByte byte) = byte := by
  unfold settlementOfByte at h ⊢
  split
  · rename_i hzero
    rw [hzero]
    rfl
  · rename_i hzero
    simp only [if_neg hzero, replySettlementValid, bne_iff_ne, ne_eq] at h
    rw [settlementByte, rank_settlementOfNumber h, UInt8.ofNat_toNat]

theorem settlementByte_eq_zero (h : replySettlementValid point = true) : settlementByte point = 0 ↔ point = none := by
  cases point with
  | none => simp [settlementByte]
  | some point => cases point <;> simp_all [settlementByte, replySettlementValid, SettlementPoint.rank]

theorem MqttReply.flags_bits :
    reply.flags < 8 ∧ (reply.flags % 2 = 1 ↔ reply.packet ≠ []) ∧ (reply.flags / 2 % 2 = 1 ↔ reply.closeAfterSend ≠ 0) ∧
      (reply.flags / 4 % 2 = 1 ↔ reply.settlementPoint ≠ none) := by
  unfold flags
  by_cases hpkt : reply.packet = [] <;> by_cases hcl : reply.closeAfterSend = 0 <;>
    by_cases hpt : reply.settlementPoint = none <;> simp [hpkt, hcl, hpt]

section
variable [Vstr] {reply : MqttReply} {maxPacketSize : Nat} {data : Bytes}

theorem mqttReplyEncode_eq_ok :
    mqttReplyEncode reply maxPacketSize = .ok data ↔
      (reply.mqttVersion.supported = true ∧ maxPacketSize ≠ 0 ∧ maxPacketSize ≤ maxWirePacketSize ∧ 0 ≤ reply.closeAfterSend ∧
        reply.closeAfterSend ≤ 1 ∧ replySettlementValid reply.settlementPoint = true) ∧
      (∃ packet, replyPacket reply.mqttVersion reply.packet maxPacketSize = .ok packet) ∧
      data.length < 2 ^ 32 ∧ reply.fields.flatten = data := by
  simp only [mqttReplyEncode, bind_eq_ok, exists_unit, Checks.require_eq_ok, pure_eq_ok, Bool.and_eq_true,
    bne_iff_ne, decide_eq_true_eq, and_assoc]
  have hlen := reply.length_fields
  constructor
  · rintro ⟨hver, hlim, hwire, hlow, hhigh, hpt, packet, hpar, hsize, -, rfl⟩
    exact ⟨hver, hlim, hwire, hlow, hhigh, hpt, ⟨packet, hpar⟩, by omega, rfl⟩
  · rintro ⟨hver, hlim, hwire, hlow, hhigh, hpt, ⟨packet, hpar⟩, hsize, rfl⟩
    exact ⟨hver, hlim, hwire, hlow, hhigh, hpt, packet, hpar, by omega, by omega, rfl⟩

variable {packet : Option PacketView}

theorem mqttReplyDecode_fields (henc : mqttReplyEncode reply maxPacketSize = .ok data)
    (hpkt : replyPacket reply.mqttVersion reply.packet maxPacketSize = .ok packet) :
    mqttReplyDecode data maxPacketSize = .ok (reply, packet) := by
  obtain ⟨⟨hsupp, hlim, hwire, hlow, hhigh, hpt⟩, -, hsize, rfl⟩ := mqttReplyEncode_eq_ok.1 henc
  have hlen := reply.length_fields
  have hsl := reply.slices_fields
  generalize reply.fields.flatten = data at hsl hlen hsize ⊢
  simp only [fields, head, mqttReplyWidths, cons_append, nil_append, slices_cons, slices_nil,
    Nat.reduceAdd, List.cons.injEq, and_true, ← hlen] at hsl
  obtain ⟨hmag, hver, hhdr, htot, hpacketSize, hlevel, hfl, hsettled, hresv, hbs⟩ := hsl
  rw [mqttReplyHeaderSize] at hlen
  obtain ⟨hbits, hpacketBit, hcloseBit, hpointBit⟩ := reply.flags_bits
  have hpacketAt := toNat_of_ofU32 hpacketSize (by omega)
  have hflagsAt : (byteAt data 17).toNat = reply.flags := by
    rw [byteAt_of_slice hfl]
    exact UInt8.toNat_ofNat_of_lt' (show _ < 2 ^ 8 by omega)
  have hsettledAt : byteAt data 18 = settlementByte reply.settlementPoint := byteAt_of_slice hsettled
  have hcl : (if reply.flags / 2 % 2 = 1 then (1 : Int) else 0) = reply.closeAfterSend := by
    split <;> omega
  have hrep : mqttReplyOf data = reply := by
    simp only [mqttReplyOf, hpacketAt, mqttReplyHeaderSize, hbs, hflagsAt, hcl, hsettledAt, byteAt_of_slice hlevel,
      Version.ofByte_toByte, settlementOfByte_settlementByte hpt]
  have hpacketFlag : (reply.flags % 2 == 1) = (reply.packet.length != 0) := by
    rw [Bool.eq_iff_iff, beq_iff_eq, bne_iff_ne, hpacketBit, ne_eq, ne_eq, length_eq_zero_iff]
  have hpointFlag : (reply.flags / 4 % 2 == 1) = (settlementByte reply.settlementPoint != 0) := by
    rw [Bool.eq_iff_iff, beq_iff_eq, bne_iff_ne, hpointBit, ne_eq, ne_eq, settlementByte_eq_zero hpt]
  simp only [mqttReplyDecode, bind_eq_ok, exists_unit, Checks.require_eq_ok, pure_eq_ok,
    Bool.and_eq_true, beq_iff_eq, bne_iff_ne, decide_eq_true_eq, hpacketAt, hflagsAt, hsettledAt, hrep]
  exact ⟨⟨hlim, hwire⟩, by rw [mqttReplyHeaderSize]; omega,
    ⟨⟨⟨⟨(headMatches_iff (by omega)).2 ⟨hmag, hver, hhdr, htot, hsize⟩, byteAt_of_slice hresv⟩, hbits⟩,
      hsupp⟩, hpt⟩, ⟨⟨hlen.symm, hpacketFlag⟩, hpointFlag⟩, packet, hpkt, rfl⟩

/-- The decoder returns a reply exactly when the data is what the encoder makes of it. -/
theorem mqttReplyDecode_eq_ok :
    mqttReplyDecode data maxPacketSize = .ok (reply, packet) ↔
      mqttReplyEncode reply maxPacketSize = .ok data ∧
        replyPacket reply.mqttVersion reply.packet maxPacketSize = .ok packet := by
  constructor
  · intro h
    simp only [mqttReplyDecode, bind_eq_ok, exists_unit, Checks.require_eq_ok, pure_eq_ok,
      Bool.and_eq_true, beq_iff_eq, bne_iff_ne, decide_eq_true_eq, Prod.mk.injEq] at h
    obtain ⟨⟨hlim, hwire⟩, hsize, ⟨⟨⟨⟨hhead, hresv⟩, hbits⟩, hsupp⟩, hpt⟩, ⟨⟨hsum, hpacketFlag⟩, hpointFlag⟩, parsed,
      hpar, rfl, rfl⟩ := h
    rw [mqttReplyHeaderSize] at hsize
    obtain ⟨hmag, hver, hhdr, htot, hlt⟩ := (headMatches_iff (by omega)).1 hhead
    have hlevel : (Version.ofByte (byteAt data 16)).toByte = byteAt data 16 := Version.toByte_ofByte hsupp
    have hsettled : settlementByte (settlementOfByte (byteAt data 18)) = byteAt data 18 := settlementByte_settlementOfByte hpt
    have hpkt : (mqttReplyOf data).packet.length = (toU32 (slice data 12 4)).toNat := length_slice (by omega)
    have hfl : UInt8.ofNat (mqttReplyOf data).flags = byteAt data 17 := by
      -- the three bits say the same on both sides
      obtain ⟨hbits', hpacketBit, hcloseBit, hpointBit⟩ := (mqttReplyOf data).flags_bits
      have hpacketSame : (mqttReplyOf data).flags % 2 = 1 ↔ (byteAt data 17).toNat % 2 = 1 := by
        rw [Bool.eq_iff_iff, beq_iff_eq, bne_iff_ne] at hpacketFlag
        rw [hpacketBit, hpacketFlag, ← hpkt, ne_eq, ne_eq, length_eq_zero_iff]
      have hcloseSame : (mqttReplyOf data).flags / 2 % 2 = 1 ↔ (byteAt data 17).toNat / 2 % 2 = 1 := by
        rw [hcloseBit]
        simp [mqttReplyOf]
      have hpointSame : (mqttReplyOf data).flags / 4 % 2 = 1 ↔ (byteAt data 17).toNat / 4 % 2 = 1 := by
        rw [Bool.eq_iff_iff, beq_iff_eq, bne_iff_ne] at hpointFlag
        rw [hpointBit, hpointFlag]
        simp [mqttReplyOf, settlementOfByte]
      have hsame : (mqttReplyOf data).flags = (byteAt data 17).toNat := by omega
      rw [hsame, UInt8.ofNat_toNat]
    have hflds : slices data 0 (mqttReplyWidths (mqttReplyOf data)) = (mqttReplyOf data).fields := by
      simp only [fields, head, mqttReplyWidths, hpkt, hsum, hfl, ← hmag, ← hver, ← hhdr, ← htot,
        UInt32.ofNat_toNat, ← hresv]
      simp (disch := omega) [mqttReplyOf, mqttReplyHeaderSize, ofU32_slice, hlevel, hsettled, singleton_byteAt]
    have hbs : (mqttReplyOf data).fields.flatten = data := by
      refine (eq_flatten_of_slices hflds ?_).symm
      simp only [mqttReplyWidths, hpkt, ← hsum, mqttReplyHeaderSize, sum_cons, sum_nil]
      omega
    have hcl : 0 ≤ (mqttReplyOf data).closeAfterSend ∧ (mqttReplyOf data).closeAfterSend ≤ 1 := by
      simp only [mqttReplyOf]
      split <;> decide
    exact ⟨mqttReplyEncode_eq_ok.2 ⟨⟨hsupp, hlim, hwire, hcl.1, hcl.2, hpt⟩, ⟨parsed, hpar⟩, hlt, hbs⟩, hpar⟩
  · rintro ⟨henc, hpar⟩
    exact mqttReplyDecode_fields henc hpar

theorem mqttReplyDecode_trailing {more : Bytes} {first second : MqttReply × Option PacketView}
    (h : mqttReplyDecode data maxPacketSize = .ok first) (hmore : mqttReplyDecode (data ++ more) maxPacketSize = .ok second) :
    more = [] := by
  simp only [mqttReplyDecode, bind_unit_eq_ok, Checks.require_eq_ok, Bool.and_eq_true, decide_eq_true_eq] at h hmore
  have hsize := h.2.1
  rw [mqttReplyHeaderSize] at hsize
  exact eq_nil_of_headMatches (by omega) h.2.2.1.1.1.1.1 hmore.2.2.1.1.1.1.1

end

/-! ## Edge actions -/

/-- A reply the owner sends on its own, in the order of the connection. -/
structure EdgeAction where
  actionSequence : UInt64
  reply : MqttReply
deriving DecidableEq, Repr

/-- Nothing to send, to close or to settle. -/
def MqttReply.idle (reply : MqttReply) : Bool :=
  reply.packet.isEmpty && reply.closeAfterSend == 0 && reply.settlementPoint.isNone

def edgeActionMagic : Bytes := text "TFEA"

def edgeActionHeaderSize : Nat := 24

/-- What the headers take of the limit. -/
def edgeActionOverhead : Nat := edgeActionHeaderSize + mqttReplyHeaderSize

variable (actionSequence : UInt64)

def edgeActionFields (reply : Bytes) : List Bytes :=
  head edgeActionMagic 1 24 (edgeActionHeaderSize + reply.length) ++ [ofU32 (UInt32.ofNat reply.length), ofU64 actionSequence, reply]

theorem slices_edgeActionFields (reply : Bytes) :
    slices (edgeActionFields actionSequence reply).flatten 0 [4, 2, 2, 4, 4, 8, reply.length] =
      edgeActionFields actionSequence reply := by
  rw [← append_nil (edgeActionFields actionSequence reply).flatten]
  apply slices_flatten
  simp [edgeActionFields, head, edgeActionMagic, text]

theorem length_edgeActionFields (reply : Bytes) :
    (edgeActionFields actionSequence reply).flatten.length = edgeActionHeaderSize + reply.length := by
  simp [edgeActionFields, head, edgeActionMagic, text, edgeActionHeaderSize]
  omega

section
variable [Vstr]

/-- `flowie_cluster_peer_edge_action_encode`. -/
def edgeActionEncode (action : EdgeAction) (maxPayloadSize : Nat) : Except Errno Bytes := do
  require (action.actionSequence != 0 && !action.reply.idle && edgeActionOverhead < maxPayloadSize) .einval
  let reply ← mqttReplyEncode action.reply (maxPayloadSize - edgeActionOverhead)
  require (edgeActionHeaderSize + reply.length ≤ maxPayloadSize && edgeActionHeaderSize + reply.length < 2 ^ 32) .emsgsize
  return (edgeActionFields action.actionSequence reply).flatten

/-- `flowie_cluster_peer_edge_action_decode`: the action and the packet it parsed. -/
def edgeActionDecode (data : Bytes) (maxPayloadSize : Nat) : Except Errno (EdgeAction × Option PacketView) := do
  require (edgeActionOverhead < maxPayloadSize) .einval
  require (data.length ≤ maxPayloadSize) .emsgsize
  require (edgeActionHeaderSize ≤ data.length) .eproto
  require (headMatches edgeActionMagic 1 24 data) .eproto
  let actionSize := (toU32 (slice data 12 4)).toNat
  let actionSequence := toU64 (slice data 16 8)
  require (actionSequence != 0 && actionSize == data.length - edgeActionHeaderSize && mqttReplyHeaderSize ≤ actionSize) .eproto
  let (reply, packet) ← mqttReplyDecode (slice data edgeActionHeaderSize actionSize) (maxPayloadSize - edgeActionOverhead)
  require (!reply.idle) .eproto
  return (⟨actionSequence, reply⟩, packet)

variable {data : Bytes} {maxPayloadSize : Nat} {action : EdgeAction}

/-- The decoder returns an action exactly when the data is what the encoder makes of it. -/
theorem edgeActionDecode_eq_ok {packet : Option PacketView} :
    edgeActionDecode data maxPayloadSize = .ok (action, packet) ↔
      edgeActionEncode action maxPayloadSize = .ok data ∧
        replyPacket action.reply.mqttVersion action.reply.packet (maxPayloadSize - edgeActionOverhead) = .ok packet := by
  simp only [edgeActionDecode, edgeActionEncode, bind_eq_ok, exists_unit, Checks.require_eq_ok, pure_eq_ok,
    Bool.and_eq_true, beq_iff_eq, bne_iff_ne, decide_eq_true_eq, Prod.mk.injEq, Prod.exists]
  constructor
  · rintro ⟨hlim, hmax, hsize, hhead, ⟨⟨hsequence, hactionSize⟩, hreplySize⟩, reply, parsed, hrep, hidle, rfl, rfl⟩
    rw [edgeActionHeaderSize] at hsize hactionSize
    obtain ⟨hmag, hver, hhdr, htot, hlt⟩ := (headMatches_iff (by omega)).1 hhead
    obtain ⟨henc, hpar⟩ := mqttReplyDecode_eq_ok.1 hrep
    have hlen : (slice data edgeActionHeaderSize (toU32 (slice data 12 4)).toNat).length = (toU32 (slice data 12 4)).toNat :=
      length_slice (by rw [edgeActionHeaderSize]; omega)
    have hsum : edgeActionHeaderSize + (toU32 (slice data 12 4)).toNat = data.length := by rw [edgeActionHeaderSize]; omega
    have hflds : slices data 0 [4, 2, 2, 4, 4, 8, (toU32 (slice data 12 4)).toNat] =
        edgeActionFields (toU64 (slice data 16 8)) (slice data edgeActionHeaderSize (toU32 (slice data 12 4)).toNat) := by
      simp only [edgeActionFields, head, hlen, hsum, ← hmag, ← hver, ← hhdr, ← htot, UInt32.ofNat_toNat]
      simp (disch := omega) [edgeActionHeaderSize, ofU32_slice, ofU64_slice]
    have hbs : (edgeActionFields (toU64 (slice data 16 8))
        (slice data edgeActionHeaderSize (toU32 (slice data 12 4)).toNat)).flatten = data := by
      refine (eq_flatten_of_slices hflds ?_).symm
      simp only [sum_cons, sum_nil]
      omega
    exact ⟨⟨⟨⟨hsequence, hidle⟩, hlim⟩, _, henc, by omega, hbs⟩, hpar⟩
  · rintro ⟨⟨⟨⟨hsequence, hidle⟩, hlim⟩, reply, henc, ⟨hmax, hlt⟩, rfl⟩, hpar⟩
    have hlen := length_edgeActionFields action.actionSequence reply
    have hsl := slices_edgeActionFields action.actionSequence reply
    generalize (edgeActionFields action.actionSequence reply).flatten = data at hsl hlen ⊢
    simp only [edgeActionFields, head, cons_append, nil_append, slices_cons, slices_nil, Nat.reduceAdd,
      List.cons.injEq, and_true, ← hlen] at hsl
    obtain ⟨hmag, hver, hhdr, htot, hreplySize, hsequenceAt, hreplyAt⟩ := hsl
    have hreplyLength : mqttReplyHeaderSize ≤ reply.length := by
      rw [← (mqttReplyEncode_eq_ok.1 henc).2.2.2, length_fields]
      omega
    have hsizeAt := toNat_of_ofU32 hreplySize (by omega)
    rw [hsizeAt, hsequenceAt, toU64_ofU64, hlen]
    simp only [edgeActionHeaderSize] at hmax hlt hlen ⊢
    refine ⟨hlim, hmax, by omega, (headMatches_iff (by omega)).2 ⟨hmag, hver, hhdr, htot, by omega⟩,
      ⟨⟨hsequence, by omega⟩, hreplyLength⟩, action.reply, packet, ?_, hidle, rfl, rfl⟩
    rw [hreplyAt]
    exact mqttReplyDecode_eq_ok.2 ⟨henc, hpar⟩

theorem replyPacket_of_edgeActionEncode (h : edgeActionEncode action maxPayloadSize = .ok data) :
    ∃ packet, replyPacket action.reply.mqttVersion action.reply.packet (maxPayloadSize - edgeActionOverhead) = .ok packet := by
  simp only [edgeActionEncode, bind_eq_ok, exists_unit] at h
  obtain ⟨-, reply, hrep, -⟩ := h
  exact (mqttReplyEncode_eq_ok.1 hrep).2.1

theorem edgeActionDecode_trailing {more : Bytes} {first second : EdgeAction × Option PacketView}
    (h : edgeActionDecode data maxPayloadSize = .ok first) (hmore : edgeActionDecode (data ++ more) maxPayloadSize = .ok second) :
    more = [] := by
  simp only [edgeActionDecode, bind_unit_eq_ok, Checks.require_eq_ok, Bool.and_eq_true, decide_eq_true_eq] at h hmore
  have hsize := h.2.2.1
  rw [edgeActionHeaderSize] at hsize
  exact eq_nil_of_headMatches (by omega) h.2.2.2.1 hmore.2.2.2.1

end

/-! ## Settlements -/

/-- `flowie_protocol_settlement_request_t` for a client. -/
structure PublishSettle where
  clientId : Bytes
  message : ProtocolMessage
  point : SettlementPoint
  status : Int32
  messageId : UInt64
  attempt : UInt32
deriving DecidableEq, Repr

def publishSettleMagic : Bytes := text "TFPS"

def publishSettleHeaderSize : Nat := 64

/-- Bit 0: duplicate, bit 1: retain. -/
def settleFlags (message : ProtocolMessage) : Nat :=
  (if message.duplicate = 0 then 0 else 1) + (if message.retain = 0 then 0 else 2)

variable (settle : PublishSettle)

def PublishSettle.fields : List Bytes :=
  head publishSettleMagic 1 64 (publishSettleHeaderSize + settle.clientId.length) ++
    [ofU16 (UInt16.ofNat settle.clientId.length), ofU16 0, ofU32 settle.message.protocolVersion, ofU32 settle.message.qos,
      ofU32 settle.message.packetId, ofU32 (UInt32.ofNat settle.point.rank), ofU32 settle.status.toUInt32, ofU32 settle.attempt,
      ofU64 settle.message.sessionGeneration, ofU64 settle.messageId, ofU32 (UInt32.ofNat (settleFlags settle.message)), ofU32 0,
      settle.clientId]

def publishSettleWidths : List Nat :=
  [4, 2, 2, 4, 2, 2, 4, 4, 4, 4, 4, 4, 8, 8, 4, 4, settle.clientId.length]

theorem PublishSettle.slices_fields : slices settle.fields.flatten 0 (publishSettleWidths settle) = settle.fields := by
  rw [← append_nil settle.fields.flatten]
  apply slices_flatten
  simp [PublishSettle.fields, head, publishSettleWidths, publishSettleMagic, text]

theorem PublishSettle.length_fields : settle.fields.flatten.length = publishSettleHeaderSize + settle.clientId.length := by
  simp [PublishSettle.fields, head, publishSettleMagic, text, publishSettleHeaderSize]
  omega

theorem settleFlags_bits (message : ProtocolMessage) :
    settleFlags message < 4 ∧ (settleFlags message % 2 = 1 ↔ message.duplicate ≠ 0) ∧
      (settleFlags message / 2 % 2 = 1 ↔ message.retain ≠ 0) := by
  unfold settleFlags
  by_cases hdup : message.duplicate = 0 <;> by_cases hret : message.retain = 0 <;> simp [hdup, hret]

/-- The fields a settlement does not carry. -/
theorem message_eq {message : ProtocolMessage} (hhdr : message.headerValid = true) (hmqtt : message.protocolMqtt = true)
    (hkind : message.kind = .data) : { message with headerValid := true, protocolMqtt := true, kind := .data } = message := by
  cases message
  simp_all

/-- A bit and the byte it is read back as. -/
theorem bit_ne_zero (c : Prop) [Decidable c] : (if c then (1 : UInt8) else 0) ≠ 0 ↔ c := by
  by_cases h : c <;> simp [h]

theorem bit_eq (hbyte : byte.toNat ≤ 1) {c : Prop} [Decidable c] (hc : c ↔ byte ≠ 0) :
    (if c then (1 : UInt8) else 0) = byte := by
  rw [← UInt8.toNat_inj]
  by_cases hzero : byte = 0
  · simp [hc, hzero]
  have : byte.toNat ≠ 0 := fun h => hzero (UInt8.toNat_inj.1 h)
  rw [if_pos (hc.2 hzero), UInt8.toNat_one]
  omega

section
variable [Vstr]

/-- `flowie_cluster_peer_publish_settlement_validate`. -/
def publishSettlementValidate (settle : PublishSettle) : Except Errno Unit :=
  require (!settle.clientId.isEmpty && settle.clientId.length < 2 ^ 16 && utf8Validate settle.clientId && settle.attempt != 0 &&
    (settle.point == .accepted || settle.point == .processed || settle.point == .durable) &&
    (messageValidate settle.message).isOk && settle.message.protocolMqtt && settle.message.kind == .data &&
    (settle.message.qos == 1 || settle.message.qos == 2) && settle.message.packetId != 0 &&
    settle.message.packetId.toNat < 2 ^ 16) .eproto

/-- `flowie_cluster_peer_publish_settle_encode`. -/
def publishSettleEncode (settle : PublishSettle) (maxPayloadSize : Nat) : Except Errno Bytes := do
  publishSettlementValidate settle
  require (publishSettleHeaderSize + settle.clientId.length ≤ maxPayloadSize &&
    publishSettleHeaderSize + settle.clientId.length < 2 ^ 32) .emsgsize
  return settle.fields.flatten

def publishSettleOf (data : Bytes) : PublishSettle where
  clientId := slice data publishSettleHeaderSize (toU16 (slice data 12 2)).toNat
  message := {
    headerValid := true
    protocolMqtt := true
    protocolVersion := toU32 (slice data 16 4)
    kind := .data
    qos := toU32 (slice data 20 4)
    packetId := toU32 (slice data 24 4)
    sessionGeneration := toU64 (slice data 40 8)
    duplicate := if (toU32 (slice data 56 4)).toNat % 2 = 1 then 1 else 0
    retain := if (toU32 (slice data 56 4)).toNat / 2 % 2 = 1 then 1 else 0 }
  point := settlementOfNumber (toU32 (slice data 28 4)).toNat
  status := (toU32 (slice data 32 4)).toInt32
  messageId := toU64 (slice data 48 8)
  attempt := toU32 (slice data 36 4)

/-- `flowie_cluster_peer_publish_settle_decode`. -/
def publishSettleDecode (data : Bytes) (maxPayloadSize : Nat) : Except Errno PublishSettle := do
  require (data.length ≤ maxPayloadSize) .emsgsize
  require (publishSettleHeaderSize ≤ data.length) .eproto
  require (headMatches publishSettleMagic 1 64 data && toU16 (slice data 14 2) == 0 && toU32 (slice data 60 4) == 0 &&
    (toU32 (slice data 56 4)).toNat < 4) .eproto
  let clientIdSize := (toU16 (slice data 12 2)).toNat
  require (clientIdSize != 0 && clientIdSize == data.length - publishSettleHeaderSize) .eproto
  publishSettlementValidate (publishSettleOf data)
  return publishSettleOf data

variable {settle : PublishSettle}

/-- What the validation says of the fields that are not carried or are carried as bits. -/
theorem carried_of_validate (h : publishSettlementValidate settle = .ok ()) :
    settle.clientId ≠ [] ∧ settle.clientId.length < 2 ^ 16 ∧ settle.point ≠ .unknown ∧ settle.message.headerValid = true ∧
      settle.message.protocolMqtt = true ∧ settle.message.kind = .data ∧ settle.message.duplicate.toNat ≤ 1 ∧
      settle.message.retain.toNat ≤ 1 := by
  simp only [publishSettlementValidate, Checks.require_eq_ok, Bool.and_eq_true, Bool.or_eq_true, Bool.not_eq_true',
    isEmpty_eq_false_iff, decide_eq_true_eq, beq_iff_eq] at h
  obtain ⟨⟨⟨⟨⟨⟨⟨⟨⟨⟨hnil, hcli⟩, -⟩, -⟩, hpt⟩, hmessage⟩, hmqtt⟩, hkind⟩, -⟩, -⟩, -⟩ := h
  have hval : messageValidate settle.message = .ok () := by
    cases hres : messageValidate settle.message with
    | error e => simp [hres, Except.isOk, Except.toBool] at hmessage
    | ok value => rfl
  unfold messageValidate at hval
  split_ifs at hval with hflds
  simp only [Bool.or_eq_true, Bool.not_eq_true', decide_eq_true_eq, not_or, Bool.not_eq_false] at hflds
  obtain ⟨⟨⟨⟨⟨⟨hhdr, -⟩, -⟩, -⟩, hdup⟩, hret⟩, -⟩ := hflds
  refine ⟨hnil, hcli, ?_, hhdr, hmqtt, hkind, UInt8.le_iff_toNat_le.1 (UInt8.not_lt.1 hdup),
    UInt8.le_iff_toNat_le.1 (UInt8.not_lt.1 hret)⟩
  rintro hunknown
  simp [hunknown] at hpt

variable {data : Bytes} {maxPayloadSize : Nat}

/-- The decoder returns a settlement exactly when the data is what the encoder makes of it. -/
theorem publishSettleDecode_eq_ok :
    publishSettleDecode data maxPayloadSize = .ok settle ↔ publishSettleEncode settle maxPayloadSize = .ok data := by
  simp only [publishSettleDecode, publishSettleEncode, bind_eq_ok, exists_unit, Checks.require_eq_ok,
    pure_eq_ok, Bool.and_eq_true, beq_iff_eq, bne_iff_ne, decide_eq_true_eq]
  constructor
  · rintro ⟨hmax, hsize, ⟨⟨⟨hhead, hr16⟩, hr32⟩, hbits⟩, ⟨-, hclientSize⟩, hval, rfl⟩
    rw [publishSettleHeaderSize] at hsize hclientSize
    obtain ⟨hmag, hver, hhdr, htot, hlt⟩ := (headMatches_iff (by omega)).1 hhead
    obtain ⟨-, -, hpt, -⟩ := carried_of_validate hval
    have hcli : (publishSettleOf data).clientId.length = (toU16 (slice data 12 2)).toNat :=
      length_slice (by rw [publishSettleHeaderSize]; omega)
    have hsum : publishSettleHeaderSize + (toU16 (slice data 12 2)).toNat = data.length := by rw [publishSettleHeaderSize]; omega
    have hrank : (publishSettleOf data).point.rank = (toU32 (slice data 28 4)).toNat := rank_settlementOfNumber hpt
    have hfl : settleFlags (publishSettleOf data).message = (toU32 (slice data 56 4)).toNat := by
      obtain ⟨hlow, hduplicateBit, hretainBit⟩ := settleFlags_bits (publishSettleOf data).message
      have hdup := hduplicateBit.trans (bit_ne_zero ((toU32 (slice data 56 4)).toNat % 2 = 1))
      have hret := hretainBit.trans (bit_ne_zero ((toU32 (slice data 56 4)).toNat / 2 % 2 = 1))
      omega
    have hflds : slices data 0 (publishSettleWidths (publishSettleOf data)) = (publishSettleOf data).fields := by
      simp only [PublishSettle.fields, head, publishSettleWidths, hcli, hsum, hrank, hfl, ← hmag, ← hver, ← hhdr,
        ← htot, UInt16.ofNat_toNat, UInt32.ofNat_toNat, ← hr16, ← hr32]
      simp (disch := omega) [publishSettleOf, publishSettleHeaderSize, ofU16_slice, ofU32_slice, ofU64_slice]
    have hbs : (publishSettleOf data).fields.flatten = data := by
      refine (eq_flatten_of_slices hflds ?_).symm
      simp only [publishSettleWidths, hcli, sum_cons, sum_nil]
      omega
    exact ⟨hval, by omega, hbs⟩
  · rintro ⟨hval, ⟨hmax, hlt⟩, rfl⟩
    have hlen := settle.length_fields
    have hsl := settle.slices_fields
    obtain ⟨hnil, hclient16, hpt, hheaderValid, hmqtt, hkind, hdup, hret⟩ := carried_of_validate hval
    obtain ⟨hbits, hduplicateBit, hretainBit⟩ := settleFlags_bits settle.message
    generalize settle.fields.flatten = data at hsl hlen ⊢
    simp only [PublishSettle.fields, head, publishSettleWidths, cons_append, nil_append, slices_cons,
      slices_nil, Nat.reduceAdd, List.cons.injEq, and_true, ← hlen] at hsl
    obtain ⟨hmag, hver, hhdr, htot, hclientSize, hr16, hprotocol, hqos, hpid, hpointAt, hstatus, hattempt,
      hgen, hmessageId, hfl, hr32, hclientId⟩ := hsl
    rw [publishSettleHeaderSize] at hlen hmax hlt
    have hclientAt := toNat_of_ofU16 hclientSize hclient16
    have hflagsAt := toNat_of_ofU32 hfl (by omega)
    have hpointNumber : (toU32 (slice data 28 4)).toNat = settle.point.rank := by
      have := rank_lt settle.point
      rw [hpointAt, toU32_ofU32]
      exact UInt32.toNat_ofNat_of_lt' (show _ < 2 ^ 32 by omega)
    have hsettle : publishSettleOf data = settle := by
      simp only [publishSettleOf, hclientAt, hflagsAt, hpointNumber, publishSettleHeaderSize, hclientId, hprotocol, hqos, hpid,
        hstatus, hattempt, hgen, hmessageId, toU32_ofU32, toU64_ofU64, settlementOfNumber_rank,
        bit_eq hdup hduplicateBit, bit_eq hret hretainBit, Int32.toInt32_toUInt32, message_eq hheaderValid hmqtt hkind]
    have hne : settle.clientId.length ≠ 0 := by simpa using hnil
    rw [hsettle, hclientAt, hflagsAt, hlen, hr16, hr32, toU16_ofU16, toU32_ofU32]
    exact ⟨hmax, by rw [publishSettleHeaderSize]; omega,
      ⟨⟨⟨(headMatches_iff (by omega)).2 ⟨hmag, hver, hhdr, htot, by omega⟩, rfl⟩, rfl⟩, hbits⟩,
      ⟨hne, by rw [publishSettleHeaderSize]; omega⟩, hval, rfl⟩

theorem publishSettleDecode_trailing {more : Bytes} {first second : PublishSettle}
    (h : publishSettleDecode data maxPayloadSize = .ok first)
    (hmore : publishSettleDecode (data ++ more) maxPayloadSize = .ok second) : more = [] := by
  simp only [publishSettleDecode, bind_unit_eq_ok, Checks.require_eq_ok, Bool.and_eq_true, decide_eq_true_eq] at h hmore
  have hsize := h.2.1
  rw [publishSettleHeaderSize] at hsize
  exact eq_nil_of_headMatches (by omega) h.2.2.1.1.1.1 hmore.2.2.1.1.1.1

end

end Flowie.Cluster
