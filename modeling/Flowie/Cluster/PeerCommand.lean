import Flowie.Cluster.PeerFrame
import Flowie.Lib.WireRecord
import Flowie.Mqtt.ClientRoundTrip

/-!
# MQTT commands between nodes

`flowie_cluster_peer_mqtt_command.c`: an edge node passes a packet of a connection to the owner of the session.
The payload is a header, the client identifier and the packet as it arrived; both sides parse the packet.
-/

namespace Flowie.Cluster

open Layout BigEndian Checks Mqtt

structure MqttCommand where
  operation : PeerOperation
  mqttVersion : Version
  clientId : Bytes
  packet : Bytes
deriving DecidableEq, Repr

/-- `flowie_cluster_peer_mqtt_command_operation_type`. -/
def commandOperationType (operation : PeerOperation) (type : PacketType) : Bool :=
  match operation with
  | .mqttPublish => type == .publish
  | .mqttSubscribe => type == .subscribe
  | .mqttUnsubscribe => type == .unsubscribe
  | .mqttAck => type == .puback || type == .pubrec || type == .pubrel || type == .pubcomp
  | .mqttDisconnect => type == .disconnect
  | _ => false

/-- `flowie_cluster_peer_mqtt_command_operation_supported`. -/
def commandOperationSupported : PeerOperation → Bool
  | .mqttPublish | .mqttSubscribe | .mqttUnsubscribe | .mqttAck | .mqttDisconnect => true
  | _ => false

def mqttCommandMagic : Bytes := text "TFMQ"

def mqttCommandHeaderSize : Nat := 20

/-- The fields of the payload: sizes, version, a reserved byte, the client identifier and the packet. -/
def MqttCommand.fields (command : MqttCommand) : List Bytes :=
  head mqttCommandMagic 1 20 (mqttCommandHeaderSize + command.clientId.length + command.packet.length) ++
    [ofU32 (UInt32.ofNat command.packet.length), ofU16 (UInt16.ofNat command.clientId.length), [command.mqttVersion.toByte], [0],
      command.clientId, command.packet]

def packetStatus {α : Type} : Except ParseError α → Except Errno α
  | .ok value => .ok value
  | .error .tooLarge => .error .emsgsize
  | .error _ => .error .eproto

/-- Any failure of a typed parser is a protocol error. -/
def typedStatus {α : Type} : Except ParseError α → Except Errno Unit
  | .ok _ => .ok ()
  | .error _ => .error .eproto

section
variable [Vstr] (operation : PeerOperation)

/-- `flowie_cluster_peer_mqtt_command_typed_validate`. -/
def commandTypedValidate (packet : PacketView) : Except Errno Unit :=
  match operation with
  | .mqttPublish => typedStatus (publishParse packet)
  | .mqttSubscribe => typedStatus (subscribeParse packet)
  | .mqttUnsubscribe => typedStatus (unsubscribeParse packet)
  | .mqttAck | .mqttDisconnect => typedStatus (controlPacketParse packet)
  | _ => .error .enotsup

/-- `flowie_cluster_peer_mqtt_command_packet_parse`. -/
def commandPacketParse (mqttVersion : Version) (packet : Bytes) (maxPacketSize : Nat) :
    Except Errno PacketView := do
  require (commandOperationSupported operation) .enotsup
  require (mqttVersion.supported && !packet.isEmpty && maxPacketSize != 0 && maxPacketSize ≤ maxWirePacketSize) .einval
  require (packet.length ≤ maxPacketSize) .emsgsize
  let (view, consumed) ← packetStatus (packetParse packet mqttVersion maxPacketSize)
  require (consumed == packet.length && commandOperationType operation view.type) .eproto
  commandTypedValidate operation view
  return view

/-- `flowie_cluster_peer_mqtt_command_encode`. -/
def mqttCommandEncode (command : MqttCommand) (maxPacketSize : Nat) : Except Errno Bytes := do
  require (!command.clientId.isEmpty && command.clientId.length < 2 ^ 16 && utf8Validate command.clientId) .eproto
  let _ ← commandPacketParse command.operation command.mqttVersion command.packet maxPacketSize
  require (mqttCommandHeaderSize + command.clientId.length + command.packet.length < 2 ^ 32 && command.packet.length < 2 ^ 32)
    .erange
  return command.fields.flatten

def mqttCommandOf (data : Bytes) : MqttCommand :=
  let clientIdSize := (toU16 (slice data 16 2)).toNat
  { operation := operation
    mqttVersion := Version.ofByte (byteAt data 18)
    clientId := slice data mqttCommandHeaderSize clientIdSize
    packet := slice data (mqttCommandHeaderSize + clientIdSize) (toU32 (slice data 12 4)).toNat }

/-- `flowie_cluster_peer_mqtt_command_decode`: the command and the packet it parsed. -/
def mqttCommandDecode (data : Bytes) (maxPacketSize : Nat) :
    Except Errno (MqttCommand × PacketView) := do
  require (mqttCommandHeaderSize ≤ data.length) .eproto
  require (headMatches mqttCommandMagic 1 20 data && byteAt data 19 == 0) .eproto
  require ((toU16 (slice data 16 2)).toNat != 0) .eproto
  require (mqttCommandHeaderSize + (toU16 (slice data 16 2)).toNat + (toU32 (slice data 12 4)).toNat == data.length) .eproto
  let command := mqttCommandOf operation data
  require (utf8Validate command.clientId) .eproto
  let packet ← commandPacketParse operation command.mqttVersion command.packet maxPacketSize
  return (command, packet)

end

theorem Version.toByte_ofByte {byte : UInt8} (h : (Version.ofByte byte).supported = true) :
    (Version.ofByte byte).toByte = byte := by
  unfold Version.ofByte at h ⊢
  split
  · simp_all [Version.toByte]
  split
  · simp_all [Version.toByte]
  split
  · simp_all [Version.toByte]
  · simp_all [Version.supported]

/-! ## The decoder returns just what is encoded -/

variable (command : MqttCommand)

def mqttCommandWidths : List Nat :=
  [4, 2, 2, 4, 4, 2, 1, 1, command.clientId.length, command.packet.length]

theorem MqttCommand.slices_fields : slices command.fields.flatten 0 (mqttCommandWidths command) = command.fields := by
  rw [← List.append_nil command.fields.flatten]
  apply slices_flatten
  simp [MqttCommand.fields, head, mqttCommandWidths, mqttCommandMagic, text]

theorem MqttCommand.length_fields :
    command.fields.flatten.length = mqttCommandHeaderSize + command.clientId.length + command.packet.length := by
  simp [MqttCommand.fields, head, mqttCommandMagic, text, mqttCommandHeaderSize]
  omega

section
variable [Vstr] {command : MqttCommand} {maxPacketSize : Nat} {data : Bytes}

theorem mqttCommandEncode_eq_ok :
    mqttCommandEncode command maxPacketSize = .ok data ↔
      (command.clientId ≠ [] ∧ command.clientId.length < 2 ^ 16 ∧ utf8Validate command.clientId = true) ∧
      (∃ packet, commandPacketParse command.operation command.mqttVersion command.packet maxPacketSize = .ok packet) ∧
      data.length < 2 ^ 32 ∧ command.fields.flatten = data := by
  simp only [mqttCommandEncode, bind_eq_ok, exists_unit, Checks.require_eq_ok, pure_eq_ok, Bool.and_eq_true,
    Bool.not_eq_true', List.isEmpty_eq_false_iff, decide_eq_true_eq, and_assoc]
  have hlen := command.length_fields
  constructor
  · rintro ⟨hnil, hcli, hutf8, packet, hpar, hsize, -, rfl⟩
    exact ⟨hnil, hcli, hutf8, ⟨packet, hpar⟩, by omega, rfl⟩
  · rintro ⟨hnil, hcli, hutf8, ⟨packet, hpar⟩, hsize, rfl⟩
    exact ⟨hnil, hcli, hutf8, packet, hpar, by omega, by omega, rfl⟩

variable {operation : PeerOperation}

theorem commandPacketParse_supported {mqttVersion : Version} {packet : Bytes} {view : PacketView}
    (h : commandPacketParse operation mqttVersion packet maxPacketSize = .ok view) : mqttVersion.supported = true := by
  simp only [commandPacketParse, bind_unit_eq_ok, Checks.require_eq_ok, Bool.and_eq_true] at h
  exact h.2.1.1.1.1

variable {packet : PacketView}

theorem mqttCommandDecode_fields (henc : mqttCommandEncode command maxPacketSize = .ok data)
    (hpkt : commandPacketParse command.operation command.mqttVersion command.packet maxPacketSize = .ok packet) :
    mqttCommandDecode command.operation data maxPacketSize = .ok (command, packet) := by
  obtain ⟨⟨hnil, hclient16, hutf8⟩, -, hsize, rfl⟩ := mqttCommandEncode_eq_ok.1 henc
  have hlen := command.length_fields
  have hsl := command.slices_fields
  generalize command.fields.flatten = data at hsl hlen hsize ⊢
  simp only [MqttCommand.fields, head, mqttCommandWidths, List.cons_append, List.nil_append, slices_cons, slices_nil,
    Nat.reduceAdd, List.cons.injEq, and_true, ← hlen] at hsl
  obtain ⟨hmag, hver, hhdr, htot, hpacketSize, hclientSize, hlevel, hresv, hclientId, hbs⟩ := hsl
  rw [mqttCommandHeaderSize] at hlen
  have hclientAt := toNat_of_ofU16 hclientSize hclient16
  have hpacketAt := toNat_of_ofU32 hpacketSize (by omega)
  have hcmd : mqttCommandOf command.operation data = command := by
    simp only [mqttCommandOf, hclientAt, hpacketAt, mqttCommandHeaderSize, hclientId, hbs, byteAt_of_slice hlevel,
      Version.ofByte_toByte]
  have hne : command.clientId.length ≠ 0 := by simpa using hnil
  simp only [mqttCommandDecode, bind_eq_ok, exists_unit, Checks.require_eq_ok, pure_eq_ok,
    Bool.and_eq_true, beq_iff_eq, bne_iff_ne, decide_eq_true_eq, hclientAt, hpacketAt, hcmd]
  exact ⟨by rw [mqttCommandHeaderSize]; omega,
    ⟨(headMatches_iff (by omega)).2 ⟨hmag, hver, hhdr, htot, hsize⟩, byteAt_of_slice hresv⟩, hne,
    hlen.symm, hutf8, packet, hpkt, rfl⟩

/-- The decoder returns a command exactly when the data is what the encoder makes of it. -/
theorem mqttCommandDecode_eq_ok :
    mqttCommandDecode operation data maxPacketSize = .ok (command, packet) ↔
      command.operation = operation ∧ mqttCommandEncode command maxPacketSize = .ok data ∧
        commandPacketParse operation command.mqttVersion command.packet maxPacketSize = .ok packet := by
  constructor
  · intro h
    simp only [mqttCommandDecode, bind_eq_ok, exists_unit, Checks.require_eq_ok, pure_eq_ok,
      Bool.and_eq_true, beq_iff_eq, bne_iff_ne, decide_eq_true_eq, Prod.mk.injEq] at h
    obtain ⟨hsize, ⟨hhead, hresv⟩, hclientSize, hsum, hutf8, parsed, hpar, rfl, rfl⟩ := h
    rw [mqttCommandHeaderSize] at hsize
    obtain ⟨hmag, hver, hhdr, htot, hlt⟩ := (headMatches_iff (by omega)).1 hhead
    have hlevel : (Version.ofByte (byteAt data 18)).toByte = byteAt data 18 :=
      Version.toByte_ofByte (commandPacketParse_supported hpar)
    have hcli : (mqttCommandOf operation data).clientId.length = (toU16 (slice data 16 2)).toNat :=
      length_slice (by omega)
    have hpkt : (mqttCommandOf operation data).packet.length = (toU32 (slice data 12 4)).toNat :=
      length_slice (by omega)
    -- each field of the data is written back as it was read
    have hflds : slices data 0 (mqttCommandWidths (mqttCommandOf operation data)) = (mqttCommandOf operation data).fields := by
      simp only [MqttCommand.fields, head, mqttCommandWidths, hcli, hpkt, hsum, ← hmag, ← hver, ← hhdr, ← htot,
        UInt16.ofNat_toNat, UInt32.ofNat_toNat, ← hresv]
      simp (disch := omega) [mqttCommandOf, mqttCommandHeaderSize, ofU16_slice, ofU32_slice, hlevel, singleton_byteAt]
    have hbs : (mqttCommandOf operation data).fields.flatten = data := by
      refine (eq_flatten_of_slices hflds ?_).symm
      simp only [mqttCommandWidths, hcli, hpkt, ← hsum, mqttCommandHeaderSize, List.sum_cons, List.sum_nil]
      omega
    refine ⟨rfl, mqttCommandEncode_eq_ok.2 ⟨⟨?_, ?_, hutf8⟩, ⟨parsed, hpar⟩, hlt, hbs⟩, hpar⟩
    · rw [← List.length_pos_iff, hcli]
      omega
    · rw [hcli]
      exact (toU16 _).toNat_lt
  · rintro ⟨rfl, henc, hpar⟩
    exact mqttCommandDecode_fields henc hpar

theorem mqttCommandDecode_trailing {more : Bytes} {first second : MqttCommand × PacketView}
    (h : mqttCommandDecode operation data maxPacketSize = .ok first)
    (hmore : mqttCommandDecode operation (data ++ more) maxPacketSize = .ok second) : more = [] := by
  simp only [mqttCommandDecode, bind_unit_eq_ok, Checks.require_eq_ok, Bool.and_eq_true, decide_eq_true_eq] at h hmore
  have hsize := h.1
  rw [mqttCommandHeaderSize] at hsize
  exact eq_nil_of_headMatches (by omega) h.2.1.1 hmore.2.1.1

end

end Flowie.Cluster
