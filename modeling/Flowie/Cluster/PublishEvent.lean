import Flowie.Cluster.PeerReply

/-!
# Published events

`flowie_cluster_publish_event.c`: a PUBLISH an edge node accepted, as it is replicated: a header about the
connection and the session, the edge's name, and the PUBLISH as an MQTT command. Version 1 of the header had no
time of acceptance; the decoder still reads it.
-/

namespace Flowie.Cluster

open Layout BigEndian Checks Mqtt
open Session (SettlementPoint)

structure PublishEvent where
  mqttVersion : Version
  requestedSettlement : SettlementPoint
  connectionId : UInt64
  connectionGeneration : UInt64
  sessionId : UInt64
  sessionGeneration : UInt64
  acceptedAtEpochSeconds : UInt64
  edgeNodeId : Bytes
  edgeBootId : BootId
  clientId : Bytes
  packet : Bytes
deriving DecidableEq, Repr

open PublishEvent

def PublishEvent.command (event : PublishEvent) : MqttCommand := ⟨.mqttPublish, event.mqttVersion, event.clientId, event.packet⟩

def publishEventMagic : Bytes := text "TFPE"

def publishEventHeaderSize : Nat := 88

def publishEventV1HeaderSize : Nat := 80

def eventPacketLimit (maxPayloadSize : Nat) : Nat := if maxPayloadSize < maxWirePacketSize then maxPayloadSize else maxWirePacketSize

def PublishEvent.fields (event : PublishEvent) (command : Bytes) : List Bytes :=
  head publishEventMagic 2 88 (publishEventHeaderSize + event.edgeNodeId.length + command.length) ++
    [ofU32 (UInt32.ofNat command.length), [UInt8.ofNat event.requestedSettlement.rank], List.replicate 7 0, ofU64 event.connectionId,
      ofU64 event.connectionGeneration, ofU64 event.sessionId, ofU64 event.sessionGeneration, event.edgeBootId.bytes,
      ofU64 event.acceptedAtEpochSeconds, ofU16 (UInt16.ofNat event.edgeNodeId.length), ofU16 0, ofU32 0, event.edgeNodeId, command]

def blockAt (data : Bytes) (offset size : Nat) : Block size where
  bytes := (slice data offset size ++ List.replicate size 0).take size
  size := by simp

theorem bytes_blockAt {data : Bytes} {offset size : Nat} (h : offset + size ≤ data.length) :
    (blockAt data offset size).bytes = slice data offset size := by
  simp only [blockAt]
  rw [List.take_append_of_le_length (Nat.le_of_eq (length_slice h).symm), List.take_of_length_le]
  exact Nat.le_of_eq (length_slice h)

section
variable [Vstr]

/-- `flowie_cluster_publish_event_settlement_validate`. -/
def eventSettlementValidate (requested : SettlementPoint) (packet : PacketView) : Except Errno Unit :=
  match publishParse packet with
  | .error _ => .error .eproto
  | .ok publish => require (requested != .unknown && !(publish.qos == 0 && requested != .received)) .eproto

def PublishEvent.identified (event : PublishEvent) : Bool :=
  event.connectionId != 0 && event.connectionGeneration != 0 && event.sessionId != 0 && event.sessionGeneration != 0 &&
    identifierOk nodeIdMax event.edgeNodeId && event.edgeBootId.nonzero

/-- `flowie_cluster_publish_event_encode`. -/
def publishEventEncode (event : PublishEvent) (maxPayloadSize : Nat) : Except Errno Bytes := do
  require (event.identified && event.acceptedAtEpochSeconds != 0 && publishEventHeaderSize < maxPayloadSize) .einval
  let command ← mqttCommandEncode event.command (eventPacketLimit maxPayloadSize)
  let (_, packet) ← mqttCommandDecode .mqttPublish command (eventPacketLimit maxPayloadSize)
  eventSettlementValidate event.requestedSettlement packet
  require (publishEventHeaderSize + event.edgeNodeId.length + command.length ≤ maxPayloadSize &&
    publishEventHeaderSize + event.edgeNodeId.length + command.length < 2 ^ 32) .emsgsize
  return (event.fields command).flatten

/-- The event the data spells around its PUBLISH; `legacy` is version 1. -/
def publishEventOf (data : Bytes) (legacy : Bool) (edgeNodeId : Bytes) (command : MqttCommand) : PublishEvent where
  mqttVersion := command.mqttVersion
  requestedSettlement := settlementOfNumber (byteAt data 16).toNat
  connectionId := toU64 (slice data 24 8)
  connectionGeneration := toU64 (slice data 32 8)
  sessionId := toU64 (slice data 40 8)
  sessionGeneration := toU64 (slice data 48 8)
  acceptedAtEpochSeconds := if legacy then 0 else toU64 (slice data 72 8)
  edgeNodeId := edgeNodeId
  edgeBootId := blockAt data 56 16
  clientId := command.clientId
  packet := command.packet

/-- `flowie_cluster_publish_event_decode`: the event and the PUBLISH it parsed. -/
def publishEventDecode (data : Bytes) (maxPayloadSize : Nat) : Except Errno (PublishEvent × PacketView) := do
  require (maxPayloadSize != 0) .einval
  require (data.length ≤ maxPayloadSize) .emsgsize
  require (publishEventV1HeaderSize ≤ data.length) .eproto
  let legacy := toU16 (slice data 4 2) == 1
  let headerSize := if legacy then publishEventV1HeaderSize else publishEventHeaderSize
  require (slice data 0 4 == publishEventMagic && (legacy || toU16 (slice data 4 2) == 2) &&
    toU16 (slice data 6 2) == UInt16.ofNat headerSize && headerSize ≤ data.length && (toU32 (slice data 8 4)).toNat == data.length &&
    slice data 17 7 == List.replicate 7 0 && toU16 (slice data (headerSize - 6) 2) == 0 &&
    toU32 (slice data (headerSize - 4) 4) == 0) .eproto
  let commandSize := (toU32 (slice data 12 4)).toNat
  let edgeNodeSize := (toU16 (slice data (headerSize - 8) 2)).toNat
  let edgeNodeId := slice data headerSize edgeNodeSize
  require (edgeNodeSize ≤ data.length - headerSize && commandSize == data.length - headerSize - edgeNodeSize &&
    mqttCommandHeaderSize ≤ commandSize && (publishEventOf data legacy edgeNodeId ⟨.mqttPublish, .unspecified, [], []⟩).identified)
    .eproto
  let (command, packet) ← mqttCommandDecode .mqttPublish (slice data (headerSize + edgeNodeSize) commandSize)
    (eventPacketLimit maxPayloadSize)
  let event := publishEventOf data legacy edgeNodeId command
  eventSettlementValidate event.requestedSettlement packet
  return (event, packet)

end

/-! ## The decoder and the encoder -/

variable (event : PublishEvent)

def publishEventWidths (command : Bytes) : List Nat :=
  [4, 2, 2, 4, 4, 1, 7, 8, 8, 8, 8, 16, 8, 2, 2, 4, event.edgeNodeId.length, command.length]

theorem PublishEvent.slices_fields (command : Bytes) :
    slices (event.fields command).flatten 0 (publishEventWidths event command) = event.fields command := by
  rw [← List.append_nil (event.fields command).flatten]
  apply slices_flatten
  simp [fields, head, publishEventWidths, publishEventMagic, text, event.edgeBootId.size]

theorem PublishEvent.length_fields (command : Bytes) :
    (event.fields command).flatten.length = publishEventHeaderSize + event.edgeNodeId.length + command.length := by
  simp [fields, head, publishEventMagic, text, publishEventHeaderSize, event.edgeBootId.size]
  omega

theorem Block.ext_bytes {n : Nat} {first second : Block n} (h : first.bytes = second.bytes) : first = second := by
  cases first
  cases second
  cases h
  rfl

section
variable [Vstr]

/-- The data is the event with its PUBLISH, within the limit; nothing is said about the time of acceptance. -/
structure PublishEvent.Spells (event : PublishEvent) (maxPayloadSize : Nat) (packet : PacketView) (data : Bytes) : Prop where
  identified : event.identified = true
  within : data.length ≤ maxPayloadSize ∧ data.length < 2 ^ 32
  settlement : eventSettlementValidate event.requestedSettlement packet = .ok ()
  published : ∃ command, mqttCommandDecode .mqttPublish command (eventPacketLimit maxPayloadSize) = .ok (event.command, packet) ∧
    (event.fields command).flatten = data

variable {data : Bytes}

theorem length_of_mqttCommandDecode {operation : PeerOperation} {maxPacketSize : Nat} {value : MqttCommand × PacketView}
    (h : mqttCommandDecode operation data maxPacketSize = .ok value) : mqttCommandHeaderSize ≤ data.length := by
  simp only [mqttCommandDecode, bind_unit_eq_ok, Checks.require_eq_ok, decide_eq_true_eq] at h
  exact h.1

variable {event : PublishEvent} {maxPayloadSize : Nat}

theorem publishEventEncode_eq_ok :
    publishEventEncode event maxPayloadSize = .ok data ↔
      event.acceptedAtEpochSeconds ≠ 0 ∧ ∃ packet, event.Spells maxPayloadSize packet data := by
  simp only [publishEventEncode, bind_eq_ok, exists_unit, Checks.require_eq_ok, pure_eq_ok, Bool.and_eq_true,
    bne_iff_ne, decide_eq_true_eq, Prod.exists]
  constructor
  · rintro ⟨⟨⟨hidn, hacc⟩, hlim⟩, command, hcmd, decoded, packet, hdec, hsett, hsize, rfl⟩
    obtain ⟨own, hpar⟩ := (mqttCommandEncode_eq_ok.1 hcmd).2.1
    have hown : mqttCommandDecode .mqttPublish command (eventPacketLimit maxPayloadSize) = .ok (event.command, own) :=
      mqttCommandDecode_eq_ok.2 ⟨rfl, hcmd, hpar⟩
    obtain ⟨rfl, rfl⟩ : event.command = decoded ∧ own = packet := by simpa using hown.symm.trans hdec
    refine ⟨hacc, own, hidn, ?_, hsett, command, hdec, rfl⟩
    rwa [event.length_fields]
  · rintro ⟨hacc, packet, hidn, hin, hsett, command, hdec, rfl⟩
    obtain ⟨-, henc, -⟩ := mqttCommandDecode_eq_ok.1 hdec
    have hcmd := length_of_mqttCommandDecode hdec
    rw [event.length_fields] at hin
    rw [mqttCommandHeaderSize] at hcmd
    exact ⟨⟨⟨hidn, hacc⟩, by omega⟩, command, henc, event.command, packet, hdec, hsett, hin, rfl⟩

variable {packet : PacketView}

/-- What the decoder asks of data of the current version. -/
theorem publishEventDecode_current (hver : toU16 (slice data 4 2) = 2) :
    publishEventDecode data maxPayloadSize = .ok (event, packet) ↔
      (maxPayloadSize ≠ 0 ∧ data.length ≤ maxPayloadSize ∧ publishEventHeaderSize ≤ data.length) ∧
      (headMatches publishEventMagic 2 88 data = true ∧ slice data 17 7 = List.replicate 7 0 ∧ toU16 (slice data 82 2) = 0 ∧
        toU32 (slice data 84 4) = 0) ∧
      ((toU16 (slice data 80 2)).toNat ≤ data.length - 88 ∧
        (toU32 (slice data 12 4)).toNat = data.length - 88 - (toU16 (slice data 80 2)).toNat ∧
        mqttCommandHeaderSize ≤ (toU32 (slice data 12 4)).toNat) ∧
      event.identified = true ∧
      ∃ command, mqttCommandDecode .mqttPublish
          (slice data (88 + (toU16 (slice data 80 2)).toNat) (toU32 (slice data 12 4)).toNat) (eventPacketLimit maxPayloadSize) =
            .ok (command, packet) ∧
        eventSettlementValidate event.requestedSettlement packet = .ok () ∧
        publishEventOf data false (slice data 88 (toU16 (slice data 80 2)).toNat) command = event := by
  have hlegacy : (toU16 (slice data 4 2) == 1) = false := by rw [hver]; decide
  simp only [publishEventDecode, headMatches, bind_eq_ok, exists_unit, Checks.require_eq_ok, pure_eq_ok,
    Bool.and_eq_true, beq_iff_eq, bne_iff_ne, decide_eq_true_eq, Prod.exists, Prod.mk.injEq, hlegacy, Bool.false_eq_true, if_false,
    Bool.false_or, publishEventHeaderSize, publishEventV1HeaderSize, Nat.reduceSub]
  constructor
  · rintro ⟨hzero, hmax, -, ⟨⟨⟨⟨⟨⟨⟨hmag, -⟩, hhdr⟩, hsize⟩, htot⟩, hresv⟩, hr16⟩, hr32⟩,
      ⟨⟨⟨hnode, hcmd⟩, hcmdSize⟩, hidn⟩, command, parsed, hdec, hsett, rfl, rfl⟩
    exact ⟨⟨hzero, hmax, hsize⟩, ⟨⟨⟨⟨hmag, hver⟩, hhdr⟩, htot⟩, hresv, hr16, hr32⟩,
      ⟨hnode, hcmd, hcmdSize⟩, hidn, command, hdec, hsett, rfl⟩
  · rintro ⟨⟨hzero, hmax, hsize⟩, ⟨⟨⟨⟨hmag, -⟩, hhdr⟩, htot⟩, hresv, hr16, hr32⟩,
      ⟨hnode, hcmd, hcmdSize⟩, hidn, command, hdec, hsett, rfl⟩
    exact ⟨hzero, hmax, decide_eq_true (Nat.le_trans (by decide) hsize), ⟨⟨⟨⟨⟨⟨⟨hmag, hver⟩, hhdr⟩, hsize⟩, htot⟩, hresv⟩, hr16⟩, hr32⟩,
      ⟨⟨⟨hnode, hcmd⟩, hcmdSize⟩, hidn⟩, command, packet, hdec, hsett, rfl, rfl⟩

/-- Every event that is spelled is decoded, whenever it was accepted. -/
theorem publishEventDecode_spells (h : event.Spells maxPayloadSize packet data) :
    publishEventDecode data maxPayloadSize = .ok (event, packet) := by
  obtain ⟨hidn, ⟨hmax, hlt⟩, hsett, command, hdec, rfl⟩ := h
  have hlen := event.length_fields command
  have hsl := event.slices_fields command
  have hcmdSize := length_of_mqttCommandDecode hdec
  have hnode : event.edgeNodeId.length ≤ nodeIdMax := by
    simp only [identified, identifierOk, Bool.and_eq_true, decide_eq_true_eq] at hidn
    exact hidn.1.2.1.2
  generalize (event.fields command).flatten = data at hsl hlen hmax hlt ⊢
  simp only [fields, head, publishEventWidths, List.cons_append, List.nil_append, slices_cons, slices_nil,
    Nat.reduceAdd, List.cons.injEq, and_true, ← hlen] at hsl
  obtain ⟨hmag, hver, hhdr, htot, hcommandAt, hpt, hresv, hconnection, hconnectionGeneration, hsess,
    hsessionGeneration, hboot, hacc, hnodeSize, hr16, hr32, hnodeAt, hcommandBytes⟩ := hsl
  simp only [publishEventHeaderSize] at hlen
  have hnodeSizeAt := toNat_of_ofU16 hnodeSize (Nat.lt_of_le_of_lt hnode (by decide))
  have hcommandSizeAt := toNat_of_ofU32 hcommandAt (by omega)
  have hbootAt : blockAt data 56 16 = event.edgeBootId := Block.ext_bytes (by rw [bytes_blockAt (by omega), hboot])
  have hpointAt : settlementOfNumber (byteAt data 16).toNat = event.requestedSettlement := by
    have hrank := rank_lt event.requestedSettlement
    rw [byteAt_of_slice hpt, UInt8.toNat_ofNat_of_lt' (show _ < 2 ^ 8 by omega), settlementOfNumber_rank]
  rw [publishEventDecode_current (by rw [hver, toU16_ofU16]), hnodeSizeAt, hcommandSizeAt, hnodeAt, hcommandBytes]
  refine ⟨⟨by omega, hmax, by rw [publishEventHeaderSize]; omega⟩,
    ⟨(headMatches_iff (by omega)).2 ⟨hmag, hver, hhdr, htot, hlt⟩, hresv, ?_, ?_⟩,
    ⟨by omega, by omega, hcmdSize⟩, hidn, event.command, hdec, hsett, ?_⟩
  · rw [hr16, toU16_ofU16]
  · rw [hr32, toU32_ofU32]
  · simp only [publishEventOf, PublishEvent.command, hbootAt, hpointAt, hconnection, hconnectionGeneration, hsess,
      hsessionGeneration, hacc, toU64_ofU64, Bool.false_eq_true, if_false]

theorem eventSettlementValidate_known {requested : SettlementPoint} (h : eventSettlementValidate requested packet = .ok ()) :
    requested ≠ .unknown := by
  unfold eventSettlementValidate at h
  split at h
  · cases h
  · simp only [Checks.require_eq_ok, Bool.and_eq_true, bne_iff_ne] at h
    exact h.1

/-- Data of the current version that is decoded is the event it was decoded to. -/
theorem spells_of_publishEventDecode (hver : toU16 (slice data 4 2) = 2)
    (h : publishEventDecode data maxPayloadSize = .ok (event, packet)) : event.Spells maxPayloadSize packet data := by
  obtain ⟨⟨-, hmax, hsize⟩, ⟨hhead, hresv, hr16, hr32⟩, ⟨hnodeSize, hcmdSize, -⟩, hidn, command,
    hdec, hsett, hev⟩ := (publishEventDecode_current hver).1 h
  rw [publishEventHeaderSize] at hsize
  obtain ⟨hmag, hversionAt, hhdr, htot, hlt⟩ := (headMatches_iff (by omega)).1 hhead
  have hcmd : event.command = command := by
    obtain ⟨hop, -, -⟩ := mqttCommandDecode_eq_ok.1 hdec
    rw [← hev, PublishEvent.command, publishEventOf, ← hop]
  have hnodeId : event.edgeNodeId = slice data 88 (toU16 (slice data 80 2)).toNat := by rw [← hev, publishEventOf]
  have hnodeLength : event.edgeNodeId.length = (toU16 (slice data 80 2)).toNat := by
    rw [hnodeId]
    exact length_slice (by omega)
  have hpt : UInt8.ofNat event.requestedSettlement.rank = byteAt data 16 := by
    have hkn := eventSettlementValidate_known hsett
    rw [← hev, publishEventOf] at hkn ⊢
    rw [rank_settlementOfNumber hkn, UInt8.ofNat_toNat]
  have hboot : event.edgeBootId.bytes = slice data 56 16 := by
    rw [← hev, publishEventOf]
    exact bytes_blockAt (by omega)
  refine ⟨hidn, ⟨hmax, hlt⟩, hsett, _, hcmd ▸ hdec, ?_⟩
  have hcommandLength : (slice data (88 + (toU16 (slice data 80 2)).toNat) (toU32 (slice data 12 4)).toNat).length =
      (toU32 (slice data 12 4)).toNat := length_slice (by omega)
  generalize hbs : slice data (88 + (toU16 (slice data 80 2)).toNat) (toU32 (slice data 12 4)).toNat = bytes at hcommandLength
  have hsum : publishEventHeaderSize + (toU16 (slice data 80 2)).toNat + (toU32 (slice data 12 4)).toNat = data.length := by
    rw [publishEventHeaderSize]
    omega
  have hflds : slices data 0 (publishEventWidths event bytes) = event.fields bytes := by
    simp only [fields, head, publishEventWidths, hsum, hcommandLength, hnodeLength, hboot, hpt, ← hmag, ← hversionAt,
      ← hhdr, ← htot, UInt16.ofNat_toNat, UInt32.ofNat_toNat, ← hresv, ← hr16, ← hr32]
    rw [← hev]
    simp (disch := omega) [publishEventOf, ofU16_slice, ofU32_slice, ofU64_slice, singleton_byteAt, hbs]
  refine (eq_flatten_of_slices hflds ?_).symm
  rw [← hsum]
  simp only [publishEventWidths, publishEventHeaderSize, hnodeLength, hcommandLength, List.sum_cons, List.sum_nil]
  omega

theorem acceptedAt_of_publishEventDecode (hver : toU16 (slice data 4 2) = 2)
    (h : publishEventDecode data maxPayloadSize = .ok (event, packet)) :
    event.acceptedAtEpochSeconds = toU64 (slice data 72 8) := by
  obtain ⟨-, -, -, -, command, -, -, rfl⟩ := (publishEventDecode_current hver).1 h
  rfl

theorem publishEventDecode_trailing {more : Bytes} {first second : PublishEvent × PacketView}
    (h : publishEventDecode data maxPayloadSize = .ok first)
    (hmore : publishEventDecode (data ++ more) maxPayloadSize = .ok second) : more = [] := by
  simp only [publishEventDecode, bind_unit_eq_ok, Checks.require_eq_ok, Bool.and_eq_true, decide_eq_true_eq, beq_iff_eq]
    at h hmore
  have hsize := h.2.2.1
  rw [publishEventV1HeaderSize] at hsize
  exact eq_nil_of_total (by omega) h.2.2.2.1.1.1.1.2 hmore.2.2.2.1.1.1.1.2

/-- The five payloads between nodes. A value that is encoded is what the decoder returns, no decoder accepts more
bytes, and what is decoded is encoded back; of the events of the current version just those with a time of
acceptance are, which the encoder asks for and the decoder does not. -/
theorem peer_payload_codecs (limit : Nat) :
    ((∀ command data, mqttCommandEncode command limit = .ok data →
        ∃ packet, mqttCommandDecode command.operation data limit = .ok (command, packet)) ∧
      (∀ operation data more first second, mqttCommandDecode operation data limit = .ok first →
        mqttCommandDecode operation (data ++ more) limit = .ok second → more = []) ∧
      (∀ operation data command packet, mqttCommandDecode operation data limit = .ok (command, packet) →
        command.operation = operation ∧ mqttCommandEncode command limit = .ok data)) ∧
    ((∀ reply data, mqttReplyEncode reply limit = .ok data → ∃ packet, mqttReplyDecode data limit = .ok (reply, packet)) ∧
      (∀ data more first second, mqttReplyDecode data limit = .ok first → mqttReplyDecode (data ++ more) limit = .ok second →
        more = []) ∧
      (∀ data reply packet, mqttReplyDecode data limit = .ok (reply, packet) → mqttReplyEncode reply limit = .ok data)) ∧
    ((∀ action data, edgeActionEncode action limit = .ok data → ∃ packet, edgeActionDecode data limit = .ok (action, packet)) ∧
      (∀ data more first second, edgeActionDecode data limit = .ok first → edgeActionDecode (data ++ more) limit = .ok second →
        more = []) ∧
      (∀ data action packet, edgeActionDecode data limit = .ok (action, packet) → edgeActionEncode action limit = .ok data)) ∧
    ((∀ settle data, publishSettleEncode settle limit = .ok data → publishSettleDecode data limit = .ok settle) ∧
      (∀ data more first second, publishSettleDecode data limit = .ok first →
        publishSettleDecode (data ++ more) limit = .ok second → more = []) ∧
      (∀ data settle, publishSettleDecode data limit = .ok settle → publishSettleEncode settle limit = .ok data)) ∧
    ((∀ event data, publishEventEncode event limit = .ok data → ∃ packet, publishEventDecode data limit = .ok (event, packet)) ∧
      (∀ data more first second, publishEventDecode data limit = .ok first → publishEventDecode (data ++ more) limit = .ok second →
        more = []) ∧
      (∀ data event packet, publishEventDecode data limit = .ok (event, packet) → toU16 (slice data 4 2) = 2 →
        (publishEventEncode event limit = .ok data ↔ toU64 (slice data 72 8) ≠ 0))) := by
  refine ⟨⟨?_, fun _ _ _ _ _ => mqttCommandDecode_trailing, ?_⟩, ⟨?_, fun _ _ _ _ => mqttReplyDecode_trailing, ?_⟩,
    ⟨?_, fun _ _ _ _ => edgeActionDecode_trailing, ?_⟩,
    ⟨fun _ _ => publishSettleDecode_eq_ok.2, fun _ _ _ _ => publishSettleDecode_trailing, fun _ _ => publishSettleDecode_eq_ok.1⟩,
    ?_, fun _ _ _ _ => publishEventDecode_trailing, ?_⟩
  · intro command data henc
    obtain ⟨packet, hpkt⟩ := (mqttCommandEncode_eq_ok.1 henc).2.1
    exact ⟨packet, mqttCommandDecode_eq_ok.2 ⟨rfl, henc, hpkt⟩⟩
  · intro operation data command packet hdec
    obtain ⟨hop, henc, -⟩ := mqttCommandDecode_eq_ok.1 hdec
    exact ⟨hop, henc⟩
  · intro reply data henc
    obtain ⟨packet, hpkt⟩ := (mqttReplyEncode_eq_ok.1 henc).2.1
    exact ⟨packet, mqttReplyDecode_eq_ok.2 ⟨henc, hpkt⟩⟩
  · intro data reply packet hdec
    exact (mqttReplyDecode_eq_ok.1 hdec).1
  · intro action data henc
    obtain ⟨packet, hpkt⟩ := replyPacket_of_edgeActionEncode henc
    exact ⟨packet, edgeActionDecode_eq_ok.2 ⟨henc, hpkt⟩⟩
  · intro data action packet hdec
    exact (edgeActionDecode_eq_ok.1 hdec).1
  · intro event data henc
    obtain ⟨-, packet, hspells⟩ := publishEventEncode_eq_ok.1 henc
    exact ⟨packet, publishEventDecode_spells hspells⟩
  · intro data event packet hdec hver
    have hspells := spells_of_publishEventDecode hver hdec
    rw [← acceptedAt_of_publishEventDecode hver hdec]
    exact ⟨fun henc => (publishEventEncode_eq_ok.1 henc).1, fun hacc => publishEventEncode_eq_ok.2 ⟨hacc, packet, hspells⟩⟩

end

/-! ## An event without a time of acceptance -/

section
attribute [local instance] asciiVstr

/-- A QoS 0 PUBLISH to topic `a` by client `c` at edge `e`. -/
def edgeEvent (acceptedAtEpochSeconds : UInt64) : PublishEvent where
  mqttVersion := .v311
  requestedSettlement := .received
  connectionId := 1
  connectionGeneration := 1
  sessionId := 1
  sessionGeneration := 1
  acceptedAtEpochSeconds := acceptedAtEpochSeconds
  edgeNodeId := text "e"
  edgeBootId := bootOf 1
  clientId := text "c"
  packet := [0x30, 3, 0, 1, 0x61]

def edgeEventData (acceptedAtEpochSeconds : UInt64) : Bytes :=
  ((edgeEvent acceptedAtEpochSeconds).fields (edgeEvent acceptedAtEpochSeconds).command.fields.flatten).flatten

theorem peer_payload_codecs_event :
    publishEventEncode (edgeEvent 7) 256 = .ok (edgeEventData 7) ∧
      ∃ packet, publishEventDecode (edgeEventData 7) 256 = .ok (edgeEvent 7, packet) :=
  have henc : publishEventEncode (edgeEvent 7) 256 = .ok (edgeEventData 7) := by decide +kernel
  ⟨henc, (peer_payload_codecs 256).2.2.2.2.1 _ _ henc⟩

/-- The decoder takes an event of the current version that the encoder refuses. -/
theorem event_not_encoded_back :
    toU16 (slice (edgeEventData 0) 4 2) = 2 ∧
      (publishEventDecode (edgeEventData 0) 256).map Prod.fst = .ok (edgeEvent 0) ∧
      publishEventEncode (edgeEvent 0) 256 = .error .einval := by
  decide +kernel

end

end Flowie.Cluster
