import Flowie.Cluster.Owners
import Flowie.Lib.Checks

/-!
# Peer frames

`flowie_cluster_peer_protocol.c`: the frames nodes exchange. A frame is a header of fixed layout, the four
identities it names and a payload. The decoder takes one frame from the front of what has arrived.
-/

namespace Flowie.Cluster

open List Layout BigEndian Checks

inductive FrameKind where
  | hello | helloAck | command | reply | event | ping | pong | goaway
deriving DecidableEq, Repr

inductive PeerOperation where
  | none | connectBind | mqttPublish | mqttSubscribe | mqttUnsubscribe | mqttAck | mqttDisconnect | connectionLost
  | takeoverClose | mqttReply | eventDeliver | eventAck | edgeAction | edgeActionAck | mqttPublishSettle
deriving DecidableEq, Repr

def FrameKind.all : List FrameKind := [.hello, .helloAck, .command, .reply, .event, .ping, .pong, .goaway]

def FrameKind.wire : FrameKind → UInt16
  | .hello => 1 | .helloAck => 2 | .command => 3 | .reply => 4 | .event => 5 | .ping => 6 | .pong => 7 | .goaway => 8

def FrameKind.ofWire? (number : UInt16) : Option FrameKind := FrameKind.all.find? (·.wire == number)

def PeerOperation.all : List PeerOperation :=
  [.none, .connectBind, .mqttPublish, .mqttSubscribe, .mqttUnsubscribe, .mqttAck, .mqttDisconnect, .connectionLost,
    .takeoverClose, .mqttReply, .eventDeliver, .eventAck, .edgeAction, .edgeActionAck, .mqttPublishSettle]

def PeerOperation.wire : PeerOperation → UInt16
  | .none => 0 | .connectBind => 1 | .mqttPublish => 2 | .mqttSubscribe => 3 | .mqttUnsubscribe => 4 | .mqttAck => 5
  | .mqttDisconnect => 6 | .connectionLost => 7 | .takeoverClose => 8 | .mqttReply => 9 | .eventDeliver => 10
  | .eventAck => 11 | .edgeAction => 12 | .edgeActionAck => 13 | .mqttPublishSettle => 14

def PeerOperation.ofWire? (number : UInt16) : Option PeerOperation := PeerOperation.all.find? (·.wire == number)

/-- `flowie_cluster_peer_frame_t`. -/
structure PeerFrame where
  kind : FrameKind
  operation : PeerOperation
  flags : UInt32
  shardId : UInt32
  status : Int32
  ownerEpoch : UInt64
  connectionId : UInt64
  connectionGeneration : UInt64
  sourceBootId : BootId
  targetBootId : BootId
  correlationId : Block 16
  clusterId : Bytes
  listenerId : Bytes
  sourceNodeId : Bytes
  targetNodeId : Bytes
  payload : Bytes
deriving DecidableEq, Repr

open PeerFrame

/-! ## Validation -/

/-- `flowie_cluster_peer_text_validate`. -/
def peerTextValidate (value : Bytes) (maximum : Nat) (required : Bool) : Except Errno Unit := do
  require (!(required && value.isEmpty)) .einval
  require (value.length ≤ maximum) .emsgsize
  require (!value.contains 0) .eproto

/-- `flowie_cluster_peer_is_state_frame`. -/
def FrameKind.isState : FrameKind → Bool
  | .command | .reply | .event => true
  | _ => false

/-- `flowie_cluster_peer_operation_validate`. -/
def operationValidate (kind : FrameKind) (operation : PeerOperation) : Bool :=
  match kind with
  | .command =>
    (PeerOperation.connectBind.wire ≤ operation.wire && operation.wire ≤ PeerOperation.takeoverClose.wire) ||
      operation == .edgeAction || operation == .mqttPublishSettle
  | .reply => operation == .mqttReply || operation == .edgeActionAck
  | .event => operation == .eventDeliver || operation == .eventAck
  | _ => operation == .none

/-- `flowie_cluster_peer_operation_requires_connection`. -/
def PeerOperation.requiresConnection (operation : PeerOperation) : Bool :=
  (PeerOperation.connectBind.wire ≤ operation.wire && operation.wire ≤ PeerOperation.mqttReply.wire) ||
    operation == .edgeAction || operation == .edgeActionAck || operation == .mqttPublishSettle

def PeerFrame.stateValidate (frame : PeerFrame) : Except Errno Unit := do
  require (frame.ownerEpoch != 0 && frame.correlationId.nonzero &&
    (if frame.operation.requiresConnection then frame.connectionId != 0 && frame.connectionGeneration != 0
      else frame.connectionId == 0 && frame.connectionGeneration == 0)) .eproto
  require (frame.kind == .reply || frame.status == 0) .eproto

/-- The other frames have none of them. -/
def PeerFrame.plainValidate (frame : PeerFrame) : Except Errno Unit :=
  require (frame.operation == .none && frame.listenerId.isEmpty && frame.shardId == 0 && frame.status == 0 &&
    frame.ownerEpoch == 0 && !frame.correlationId.nonzero && frame.connectionId == 0 && frame.connectionGeneration == 0) .eproto

def PeerFrame.fieldsValidate (frame : PeerFrame) : Except Errno Unit :=
  if frame.kind.isState then frame.stateValidate else frame.plainValidate

/-- `flowie_cluster_peer_frame_validate`. -/
def peerFrameValidate (frame : PeerFrame) (maxPayloadSize : Nat) : Except Errno Unit := do
  require (maxPayloadSize != 0) .einval
  require (frame.flags == 0) .eproto
  require (operationValidate frame.kind frame.operation) .eproto
  require (frame.payload.length ≤ maxPayloadSize && frame.payload.length < 2 ^ 32) .emsgsize
  peerTextValidate frame.clusterId clusterIdMax true
  peerTextValidate frame.sourceNodeId nodeIdMax true
  peerTextValidate frame.targetNodeId nodeIdMax true
  require (frame.sourceBootId.nonzero && frame.targetBootId.nonzero) .eproto
  peerTextValidate frame.listenerId listenerIdMax frame.kind.isState
  frame.fieldsValidate
  require (!(frame.kind == .ping || frame.kind == .pong) || frame.payload.isEmpty) .eproto

/-! ## The encoder -/

def peerMagic : Bytes := text "TFCL"

def peerWireVersion : UInt16 := 1

def peerHeaderSize : Nat := 112

/-- `flowie_cluster_peer_frame_encode_header`: the fields, one after the other. -/
def PeerFrame.header (frame : PeerFrame) (totalSize : Nat) : List Bytes :=
  [peerMagic, ofU16 peerWireVersion, ofU16 (UInt16.ofNat peerHeaderSize), ofU16 frame.kind.wire, ofU16 frame.operation.wire,
    ofU32 frame.flags, ofU32 (UInt32.ofNat totalSize), ofU32 (UInt32.ofNat frame.payload.length),
    ofU16 (UInt16.ofNat frame.clusterId.length), ofU16 (UInt16.ofNat frame.listenerId.length),
    ofU16 (UInt16.ofNat frame.sourceNodeId.length), ofU16 (UInt16.ofNat frame.targetNodeId.length),
    frame.sourceBootId.bytes, frame.targetBootId.bytes, ofU32 frame.shardId, ofU32 frame.status.toUInt32,
    ofU64 frame.ownerEpoch, frame.correlationId.bytes, ofU64 frame.connectionId, ofU64 frame.connectionGeneration]

/-- The identities and the payload, in the order they follow the header. -/
def PeerFrame.body (frame : PeerFrame) : List Bytes :=
  [frame.clusterId, frame.listenerId, frame.sourceNodeId, frame.targetNodeId, frame.payload]

/-- `flowie_cluster_peer_frame_encoded_size`. -/
def peerFrameEncodedSize (frame : PeerFrame) (maxPayloadSize : Nat) : Except Errno Nat := do
  peerFrameValidate frame maxPayloadSize
  let size := peerHeaderSize + frame.body.flatten.length
  require (size < 2 ^ 32) .erange
  return size

/-- `flowie_cluster_peer_frame_encode`. -/
def peerFrameEncode (frame : PeerFrame) (maxPayloadSize : Nat) : Except Errno Bytes := do
  let totalSize ← peerFrameEncodedSize frame maxPayloadSize
  return (frame.header totalSize).flatten ++ frame.body.flatten

/-! ## The decoder -/

/-- Why a decoder returns no frame: it needs more bytes, or it failed. -/
inductive PeerStatus where
  | incomplete
  | failed (e : Errno)
deriving DecidableEq, Repr

structure PeerSizes where
  total : Nat
  payload : Nat
  cluster : Nat
  listener : Nat
  sourceNode : Nat
  targetNode : Nat

/-- The part of `flowie_cluster_peer_header_decode` that can fail. -/
def peerHeaderDecode (data : Bytes) (maxPayloadSize : Nat) : Except Errno PeerSizes := do
  require (slice data 0 4 == peerMagic && toU16 (slice data 4 2) == peerWireVersion &&
    toU16 (slice data 6 2) == UInt16.ofNat peerHeaderSize) .eproto
  let sizes : PeerSizes := {
    total := (toU32 (slice data 16 4)).toNat
    payload := (toU32 (slice data 20 4)).toNat
    cluster := (toU16 (slice data 24 2)).toNat
    listener := (toU16 (slice data 26 2)).toNat
    sourceNode := (toU16 (slice data 28 2)).toNat
    targetNode := (toU16 (slice data 30 2)).toNat }
  require (sizes.cluster ≤ clusterIdMax && sizes.listener ≤ listenerIdMax && sizes.sourceNode ≤ nodeIdMax &&
    sizes.targetNode ≤ nodeIdMax && sizes.payload ≤ maxPayloadSize) .emsgsize
  require (peerHeaderSize + (sizes.cluster + sizes.listener + sizes.sourceNode + sizes.targetNode) + sizes.payload == sizes.total)
    .eproto
  return sizes

def peerFrameOf? (data : Bytes) (hsize : peerHeaderSize ≤ data.length) (sizes : PeerSizes) : Option PeerFrame := do
  let kind ← FrameKind.ofWire? (toU16 (slice data 8 2))
  let operation ← PeerOperation.ofWire? (toU16 (slice data 10 2))
  let listenerAt := peerHeaderSize + sizes.cluster
  let sourceAt := listenerAt + sizes.listener
  let targetAt := sourceAt + sizes.sourceNode
  let payloadAt := targetAt + sizes.targetNode
  return {
    kind := kind
    operation := operation
    flags := toU32 (slice data 12 4)
    shardId := toU32 (slice data 64 4)
    status := (toU32 (slice data 68 4)).toInt32
    ownerEpoch := toU64 (slice data 72 8)
    connectionId := toU64 (slice data 96 8)
    connectionGeneration := toU64 (slice data 104 8)
    sourceBootId := ⟨slice data 32 16, Layout.length_slice (by unfold peerHeaderSize at hsize; omega)⟩
    targetBootId := ⟨slice data 48 16, Layout.length_slice (by unfold peerHeaderSize at hsize; omega)⟩
    correlationId := ⟨slice data 80 16, Layout.length_slice (by unfold peerHeaderSize at hsize; omega)⟩
    clusterId := slice data peerHeaderSize sizes.cluster
    listenerId := slice data listenerAt sizes.listener
    sourceNodeId := slice data sourceAt sizes.sourceNode
    targetNodeId := slice data targetAt sizes.targetNode
    payload := slice data payloadAt sizes.payload }

/-- `flowie_cluster_peer_frame_decode`: the frame and the number of bytes it took. -/
def peerFrameDecode (data : Bytes) (maxPayloadSize : Nat) : Except PeerStatus (PeerFrame × Nat) :=
  if maxPayloadSize = 0 then .error (.failed .einval)
  else if hsize : data.length < peerHeaderSize then .error .incomplete
  else
    match peerHeaderDecode data maxPayloadSize with
    | .error e => .error (.failed e)
    | .ok sizes =>
      if data.length < sizes.total then .error .incomplete
      else
        match peerFrameOf? data (Nat.not_lt.1 hsize) sizes with
        | none => .error (.failed .eproto)
        | some frame =>
          match peerFrameValidate frame maxPayloadSize with
          | .error e => .error (.failed (if e = .einval then .eproto else e))
          | .ok _ => .ok (frame, sizes.total)

/-! ## Encoded frames -/

@[simp] theorem FrameKind.ofWire?_wire (kind : FrameKind) : FrameKind.ofWire? kind.wire = some kind := by
  cases kind <;> rfl

variable {number : UInt16}

theorem FrameKind.wire_of_ofWire? {kind : FrameKind} (h : FrameKind.ofWire? number = some kind) : kind.wire = number := by
  simpa using List.find?_some h

open PeerOperation

@[simp] theorem PeerOperation.ofWire?_wire (operation : PeerOperation) : ofWire? operation.wire = some operation := by
  cases operation <;> rfl

theorem PeerOperation.wire_of_ofWire? {operation : PeerOperation}
    (h : ofWire? number = some operation) : operation.wire = number := by
  simpa using List.find?_some h

theorem length_le_of_peerTextValidate {value : Bytes} {maximum : Nat} {required : Bool}
    (h : peerTextValidate value maximum required = .ok ()) : value.length ≤ maximum := by
  simp only [peerTextValidate, bind_unit_eq_ok, Checks.require_eq_ok, decide_eq_true_eq] at h
  exact h.2.1

structure PeerFrame.Fits (frame : PeerFrame) (maxPayloadSize : Nat) : Prop where
  limit : maxPayloadSize ≠ 0
  payload : frame.payload.length ≤ maxPayloadSize
  payload32 : frame.payload.length < 2 ^ 32
  cluster : frame.clusterId.length ≤ clusterIdMax
  listener : frame.listenerId.length ≤ listenerIdMax
  sourceNode : frame.sourceNodeId.length ≤ nodeIdMax
  targetNode : frame.targetNodeId.length ≤ nodeIdMax

variable {frame : PeerFrame} {maxPayloadSize : Nat}

theorem fits_of_validate (h : peerFrameValidate frame maxPayloadSize = .ok ()) : frame.Fits maxPayloadSize := by
  simp only [peerFrameValidate, bind_unit_eq_ok, Checks.require_eq_ok, Bool.and_eq_true, bne_iff_ne, decide_eq_true_eq] at h
  obtain ⟨hlim, -, -, ⟨hpay, hpayload32⟩, hcluster, hsource, htgt, -, hlis, -⟩ := h
  exact ⟨hlim, hpay, hpayload32, length_le_of_peerTextValidate hcluster, length_le_of_peerTextValidate hlis,
    length_le_of_peerTextValidate hsource, length_le_of_peerTextValidate htgt⟩

variable {encoded : Bytes}

theorem peerFrameEncode_eq_ok :
    peerFrameEncode frame maxPayloadSize = .ok encoded ↔
      peerFrameValidate frame maxPayloadSize = .ok () ∧ peerHeaderSize + frame.body.flatten.length < 2 ^ 32 ∧
        encoded = (frame.header (peerHeaderSize + frame.body.flatten.length)).flatten ++ frame.body.flatten := by
  simp only [peerFrameEncode, bind_eq_ok, peerFrameEncodedSize]
  constructor
  · rintro ⟨size, ⟨⟨⟩, hval, ⟨⟩, hfits, hsize⟩, hencoded⟩
    cases hsize
    cases hencoded
    exact ⟨hval, by simpa [Checks.require_eq_ok] using hfits, rfl⟩
  · rintro ⟨hval, hfits, rfl⟩
    exact ⟨_, ⟨(), hval, (), by simpa [Checks.require_eq_ok] using hfits, rfl⟩, rfl⟩

def peerHeaderWidths : List Nat := [4, 2, 2, 2, 2, 4, 4, 4, 2, 2, 2, 2, 16, 16, 4, 4, 8, 16, 8, 8]

theorem PeerFrame.header_widths (frame : PeerFrame) (totalSize : Nat) :
    (frame.header totalSize).map List.length = peerHeaderWidths := by
  simp [header, peerHeaderWidths, frame.sourceBootId.size, frame.targetBootId.size, frame.correlationId.size,
    peerMagic, text]

theorem PeerFrame.length_header (frame : PeerFrame) (totalSize : Nat) :
    (frame.header totalSize).flatten.length = peerHeaderSize := by
  rw [length_flatten, frame.header_widths]
  rfl

def PeerFrame.sizes (frame : PeerFrame) : PeerSizes where
  total := peerHeaderSize + frame.body.flatten.length
  payload := frame.payload.length
  cluster := frame.clusterId.length
  listener := frame.listenerId.length
  sourceNode := frame.sourceNodeId.length
  targetNode := frame.targetNodeId.length

theorem toNat_ofNat16 {size max : Nat} (h : size ≤ max) (hmax : max < 2 ^ 16) : (UInt16.ofNat size).toNat = size :=
  UInt16.toNat_ofNat_of_lt' (Nat.lt_of_le_of_lt h hmax)

theorem peerHeaderDecode_header (hfits : frame.Fits maxPayloadSize) (htot : peerHeaderSize + frame.body.flatten.length < 2 ^ 32)
    (rest : Bytes) :
    peerHeaderDecode ((frame.header (peerHeaderSize + frame.body.flatten.length)).flatten ++ rest) maxPayloadSize =
      .ok frame.sizes := by
  have hsl := slices_flatten (frame.header_widths (peerHeaderSize + frame.body.flatten.length)) rest
  generalize (frame.header (peerHeaderSize + frame.body.flatten.length)).flatten ++ rest = data at hsl ⊢
  simp only [header, peerHeaderWidths, slices_cons, slices_nil, Nat.reduceAdd, List.cons.injEq, and_true] at hsl
  obtain ⟨hmag, hver, hhdr, -, -, -, htotalAt, hpay, hcluster, hlis, hsource, htgt, -⟩ := hsl
  have hcluster16 := toNat_ofNat16 hfits.cluster (by decide)
  have hlistener16 := toNat_ofNat16 hfits.listener (by decide)
  have hsource16 := toNat_ofNat16 hfits.sourceNode (by decide)
  have htarget16 := toNat_ofNat16 hfits.targetNode (by decide)
  have hpayload32 : (UInt32.ofNat frame.payload.length).toNat = frame.payload.length :=
    UInt32.toNat_ofNat_of_lt' hfits.payload32
  have htotal32 : (UInt32.ofNat (peerHeaderSize + frame.body.flatten.length)).toNat =
      peerHeaderSize + frame.body.flatten.length := UInt32.toNat_ofNat_of_lt' htot
  simp only [peerHeaderDecode, hmag, hver, hhdr, htotalAt, hpay, hcluster, hlis, hsource, htgt,
    toU16_ofU16, toU32_ofU32, hcluster16, hlistener16, hsource16, htarget16, hpayload32, htotal32]
  have hsum : peerHeaderSize + (frame.clusterId.length + frame.listenerId.length + frame.sourceNodeId.length +
      frame.targetNodeId.length) + frame.payload.length = peerHeaderSize + frame.body.flatten.length := by
    simp [body]
    omega
  simp only [hsum, beq_self_eq_true, Bool.and_self, decide_eq_true hfits.cluster, decide_eq_true hfits.listener,
    decide_eq_true hfits.sourceNode, decide_eq_true hfits.targetNode, decide_eq_true hfits.payload]
  rfl

theorem PeerFrame.slices_encoded (frame : PeerFrame) (totalSize : Nat) (suffix : Bytes) :
    slices ((frame.header totalSize).flatten ++ frame.body.flatten ++ suffix) 0
      (peerHeaderWidths ++ frame.body.map List.length) = frame.header totalSize ++ frame.body := by
  rw [← flatten_append]
  apply slices_flatten
  rw [map_append, frame.header_widths]

theorem peerFrameOf?_encoded (frame : PeerFrame) (totalSize : Nat) (suffix : Bytes)
    (hsize : peerHeaderSize ≤ ((frame.header totalSize).flatten ++ frame.body.flatten ++ suffix).length) :
    peerFrameOf? ((frame.header totalSize).flatten ++ frame.body.flatten ++ suffix) hsize frame.sizes = some frame := by
  have hsl := frame.slices_encoded totalSize suffix
  generalize (frame.header totalSize).flatten ++ frame.body.flatten ++ suffix = data at hsl hsize ⊢
  simp only [header, body, peerHeaderWidths, map_cons, map_nil, cons_append, nil_append,
    slices_cons, slices_nil, Nat.reduceAdd, List.cons.injEq, and_true] at hsl
  obtain ⟨-, -, -, hkind, hop, hfl, -, -, -, -, -, -, hsourceBoot, htargetBoot, hshd, hstatus, hepoch, hcorrelation,
    hconnection, hgen, hcluster, hlis, hsource, htgt, hpay⟩ := hsl
  simp only [peerFrameOf?, sizes, peerHeaderSize, hkind, hop, hfl, hsourceBoot, htargetBoot, hshd, hstatus,
    hepoch, hcorrelation, hconnection, hgen, hcluster, hlis, hsource, htgt, hpay, toU16_ofU16,
    toU32_ofU32, toU64_ofU64, FrameKind.ofWire?_wire, ofWire?_wire]
  simp

/-! ## Both directions -/

section
variable (h : peerFrameEncode frame maxPayloadSize = .ok encoded)
include h

theorem peerFrameDecode_encoded (suffix : Bytes) :
    peerFrameDecode (encoded ++ suffix) maxPayloadSize = .ok (frame, encoded.length) := by
  obtain ⟨hval, htot, rfl⟩ := peerFrameEncode_eq_ok.1 h
  have hfits := fits_of_validate hval
  have hlen := frame.length_header (peerHeaderSize + frame.body.flatten.length)
  have hframe := peerFrameOf?_encoded frame (peerHeaderSize + frame.body.flatten.length) suffix
  have hhdr := peerHeaderDecode_header hfits htot (frame.body.flatten ++ suffix)
  rw [← append_assoc] at hhdr
  unfold peerFrameDecode
  rw [if_neg hfits.limit, dif_neg (by simp only [length_append]; omega), hhdr]
  have hcpl : ¬((frame.header (peerHeaderSize + frame.body.flatten.length)).flatten ++ frame.body.flatten ++ suffix).length <
      frame.sizes.total := by
    simp only [sizes, length_append]
    omega
  dsimp only
  rw [if_neg hcpl, hframe]
  simp only [hval, length_append, hlen]
  rfl

theorem peerFrameDecode_prefix {front : Bytes}
    (hfront : front <+: encoded) (hstrict : front ≠ encoded) : peerFrameDecode front maxPayloadSize = .error .incomplete := by
  obtain ⟨hval, htot, rfl⟩ := peerFrameEncode_eq_ok.1 h
  have hfits := fits_of_validate hval
  have hlen := frame.length_header (peerHeaderSize + frame.body.flatten.length)
  have hsht : front.length < peerHeaderSize + frame.body.flatten.length := by
    have hle := hfront.length_le
    have hne : front.length ≠ _ := fun heq => hstrict (hfront.eq_of_length heq)
    simp only [length_append, hlen] at hle hne
    omega
  unfold peerFrameDecode
  rw [if_neg hfits.limit]
  split
  · rfl
  -- the header is complete, so the frame's size is known
  rename_i hhdr
  obtain ⟨rest, rfl⟩ : (frame.header (peerHeaderSize + frame.body.flatten.length)).flatten <+: front :=
    prefix_of_prefix_length_le (prefix_append _ _) hfront (by omega)
  rw [peerHeaderDecode_header hfits htot rest]
  exact if_pos hsht

end

variable {data : Bytes}

/-- What the header gives of data that holds a whole frame. -/
theorem peerHeaderDecode_eq_ok {sizes : PeerSizes} (h : peerHeaderDecode data maxPayloadSize = .ok sizes) :
    slice data 0 4 = peerMagic ∧ toU16 (slice data 4 2) = peerWireVersion ∧
      toU16 (slice data 6 2) = UInt16.ofNat peerHeaderSize ∧
      sizes = ⟨(toU32 (slice data 16 4)).toNat, (toU32 (slice data 20 4)).toNat, (toU16 (slice data 24 2)).toNat,
        (toU16 (slice data 26 2)).toNat, (toU16 (slice data 28 2)).toNat, (toU16 (slice data 30 2)).toNat⟩ ∧
      peerHeaderSize + (sizes.cluster + sizes.listener + sizes.sourceNode + sizes.targetNode) + sizes.payload = sizes.total := by
  simp only [peerHeaderDecode, bind_unit_eq_ok, Checks.require_eq_ok, Bool.and_eq_true, beq_iff_eq] at h
  obtain ⟨⟨⟨hmag, hver⟩, hsize⟩, -, htot, hsizes⟩ := h
  cases hsizes
  exact ⟨hmag, hver, hsize, rfl, htot⟩

variable {consumed : Nat}

section
variable (h : peerFrameDecode data maxPayloadSize = .ok (frame, consumed))
include h

theorem peerFrameDecode_eq_ok :
    ∃ (hsize : peerHeaderSize ≤ data.length) (sizes : PeerSizes), peerHeaderDecode data maxPayloadSize = .ok sizes ∧
      sizes.total ≤ data.length ∧ peerFrameOf? data hsize sizes = some frame ∧
      peerFrameValidate frame maxPayloadSize = .ok () ∧ consumed = sizes.total := by
  unfold peerFrameDecode at h
  split_ifs at h with _ hsize
  cases hhdr : peerHeaderDecode data maxPayloadSize with
  | error e => simp [hhdr] at h
  | ok sizes =>
    simp only [hhdr] at h
    split_ifs at h with hcpl
    cases hframe : peerFrameOf? data (Nat.not_lt.1 hsize) sizes with
    | none => simp [hframe] at h
    | some parsed =>
      simp only [hframe] at h
      cases hval : peerFrameValidate parsed maxPayloadSize with
      | error e => simp [hval] at h
      | ok value =>
        simp only [hval, Except.ok.injEq, Prod.mk.injEq] at h
        obtain ⟨rfl, rfl⟩ := h
        exact ⟨Nat.not_lt.1 hsize, sizes, rfl, Nat.not_lt.1 hcpl, hframe, hval, rfl⟩

theorem peerFrameEncode_decoded :
    consumed ≤ data.length ∧ peerFrameEncode frame maxPayloadSize = .ok (data.take consumed) := by
  obtain ⟨hsize, sizes, hhdr, hcpl, hframe, hval, rfl⟩ := peerFrameDecode_eq_ok h
  obtain ⟨hmag, hver, hheaderSize, hsizes, htot⟩ := peerHeaderDecode_eq_ok hhdr
  refine ⟨hcpl, peerFrameEncode_eq_ok.2 ⟨hval, ?_⟩⟩
  -- the parts of the frame are the slices of the data at their offsets
  have hword16 : ∀ {offset : Nat}, offset + 2 ≤ 112 → ofU16 (toU16 (slice data offset 2)) = slice data offset 2 :=
    fun hle => ofU16_toU16 (length_slice (Nat.le_trans hle hsize))
  have hword32 : ∀ {offset : Nat}, offset + 4 ≤ 112 → ofU32 (toU32 (slice data offset 4)) = slice data offset 4 :=
    fun hle => ofU32_toU32 (length_slice (Nat.le_trans hle hsize))
  have hword64 : ∀ {offset : Nat}, offset + 8 ≤ 112 → ofU64 (toU64 (slice data offset 8)) = slice data offset 8 :=
    fun hle => ofU64_toU64 (length_slice (Nat.le_trans hle hsize))
  simp only [peerFrameOf?, Option.bind_eq_bind, Option.bind_eq_some_iff] at hframe
  obtain ⟨kind, hkind, operation, hop, hframe⟩ := hframe
  have hbody : frame.body = slices data peerHeaderSize
      [sizes.cluster, sizes.listener, sizes.sourceNode, sizes.targetNode, sizes.payload] := by
    cases hframe
    rfl
  have hlengths : frame.body.map List.length =
      [sizes.cluster, sizes.listener, sizes.sourceNode, sizes.targetNode, sizes.payload] := by
    rw [hbody]
    apply map_length_slices
    simp only [sum_cons, sum_nil]
    omega
  have hbodyLength : peerHeaderSize + frame.body.flatten.length = sizes.total := by
    rw [length_flatten, hlengths]
    simp only [sum_cons, sum_nil]
    omega
  have hheaderBytes : frame.header sizes.total = slices data 0 peerHeaderWidths := by
    simp only [body, map_cons, map_nil, List.cons.injEq, and_true] at hlengths
    obtain ⟨hcluster, hlis, hsource, htgt, hpay⟩ := hlengths
    simp only [header, hcluster, hlis, hsource, htgt, hpay, hsizes, ← hmag, ← hver, ← hheaderSize]
    cases hframe
    simp only [FrameKind.wire_of_ofWire? hkind, wire_of_ofWire? hop, UInt16.ofNat_toNat, UInt32.ofNat_toNat,
      UInt32.toUInt32_toInt32]
    simp [peerHeaderWidths, hword16, hword32, hword64]
  refine ⟨by rw [hbodyLength, hsizes]; exact (toU32 _).toNat_lt, ?_⟩
  have hwidths : (peerHeaderWidths ++ [sizes.cluster, sizes.listener, sizes.sourceNode, sizes.targetNode, sizes.payload]).sum =
      sizes.total := by
    rw [← hlengths, sum_append, ← length_flatten]
    exact hbodyLength
  rw [hbodyLength, hheaderBytes, hbody, ← hwidths, take_eq_slices, slices_widths_append, flatten_append]
  rfl

end

/-- Every encoded frame is decoded back, whatever follows it, and takes just its own bytes; a part of it is incomplete;
and what is decoded is the encoding of the decoded frame, under the same limit. -/
theorem peer_frame_codec (maxPayloadSize : Nat) :
    (∀ frame encoded, peerFrameEncode frame maxPayloadSize = .ok encoded →
      (∀ suffix, peerFrameDecode (encoded ++ suffix) maxPayloadSize = .ok (frame, encoded.length)) ∧
      ∀ front, front <+: encoded → front ≠ encoded → peerFrameDecode front maxPayloadSize = .error .incomplete) ∧
    ∀ data frame consumed, peerFrameDecode data maxPayloadSize = .ok (frame, consumed) →
      consumed ≤ data.length ∧ peerFrameEncode frame maxPayloadSize = .ok (data.take consumed) :=
  ⟨fun _ _ h => ⟨peerFrameDecode_encoded h, fun _ => peerFrameDecode_prefix h⟩, fun _ _ _ => peerFrameEncode_decoded⟩

/-- A PUBLISH that a node forwards to the owner of the shard. -/
def publishFrame : PeerFrame where
  kind := .command
  operation := .mqttPublish
  flags := 0
  shardId := 3
  status := 0
  ownerEpoch := 7
  connectionId := 4
  connectionGeneration := 1
  sourceBootId := bootOf 1
  targetBootId := bootOf 2
  correlationId := bootOf 9
  clusterId := text "c"
  listenerId := text "l"
  sourceNodeId := text "a"
  targetNodeId := text "b"
  payload := [0x30, 0x03, 0x00, 0x01, 0x61]

theorem peer_frame_codec_publish :
    ∃ encoded, peerFrameEncode publishFrame 64 = .ok encoded ∧ encoded.length = 121 ∧
      peerFrameDecode (encoded ++ [84]) 64 = .ok (publishFrame, 121) ∧
      peerFrameDecode (encoded.take 112) 64 = .error .incomplete := by
  obtain ⟨encoded, hencoded⟩ : ∃ encoded, peerFrameEncode publishFrame 64 = .ok encoded := ⟨_, rfl⟩
  have hlen : encoded.length = 121 := by
    cases hencoded
    rfl
  obtain ⟨hdec, hfront⟩ := (peer_frame_codec 64).1 publishFrame encoded hencoded
  refine ⟨encoded, hencoded, hlen, hlen ▸ hdec [84], hfront _ (List.take_prefix _ _) fun heq => ?_⟩
  have := congrArg List.length heq
  simp [hlen] at this

end Flowie.Cluster
