import Flowie.Session.Steps

/-!
# The send queue of a connection

`flowie_endpoint.c`: replies wait in the queue of their connection until a drain hands them to the
transport. QoS 1 and 2 deliveries take a place in the Receive Maximum window of the client; an
acknowledgement frees it.
-/

namespace Flowie.Endpoint

open Mqtt Session

/-- `flowie_reply_request_t`, as far as the send path reads it. The delivery session of a request is
    the session of the connection it is queued on. -/
structure ReplyRequest where
  packet : Bytes
  closeAfterSend : Bool
  preserveOnTerminalError : Bool
  subscriberDelivery : Bool
  qosDelivery : Bool
  deliveryPacketId : UInt16
  expiryAtEpochSeconds : UInt64
  protocolVersion : Version
deriving DecidableEq, Repr

/-- The type in the first byte of the packet. -/
def ReplyRequest.carries (type : PacketType) (request : ReplyRequest) : Bool :=
  (request.packet.headD 0).toNat / 16 == type.toNibble

def ReplyRequest.terminal (request : ReplyRequest) : Bool :=
  request.closeAfterSend || request.carries .disconnect

/-- `flowie_endpoint_connection_t` with the session it is bound to and the two settings of the
    endpoint that the send path reads. -/
structure Connection where
  owner : Owner
  persistenceEnabled : Bool
  retainedSg : Bool
  sendQueue : List ReplyRequest
  sendDrainActive : Bool
  connackAdmitted : Bool
  connackSent : Bool
  closing : Bool
  closeWhenRepliesDrain : Bool
  terminalReplyCount : Nat
  clientReceiveMaximum : UInt16
  outboundQosInflight : UInt16

open Connection

/-- The connection `flowie_connection_create` sets up. -/
def connectionCreate (owner : Owner) (persistenceEnabled retainedSg : Bool) : Connection :=
  { owner := owner
    persistenceEnabled := persistenceEnabled
    retainedSg := retainedSg
    sendQueue := []
    sendDrainActive := false
    connackAdmitted := false
    connackSent := false
    closing := false
    closeWhenRepliesDrain := false
    terminalReplyCount := 0
    clientReceiveMaximum := uint16Max
    outboundQosInflight := 0 }

section

variable [Vstr]

/-- `flowie_connection_negotiate_connect`: the last Receive Maximum of the CONNECT counts. The
    maximum packet size it also takes is not read on the send path. -/
def negotiateConnect (connection : Connection) (connect : ConnectView) : Except Errno Connection :=
  if connect.version = .v5 ∧ !connect.properties.isEmpty then
    match properties connect.properties with
    | (found, .needMore) =>
      let maximum := found.foldl
        (fun maximum property =>
          if property.identifier = .receiveMaximum then UInt16.ofNat property.integer else maximum) uint16Max
      .ok { connection with clientReceiveMaximum := maximum }
    | _ => .error .eproto
  else .ok { connection with clientReceiveMaximum := uint16Max }

/-- An operation of the endpoint on its session: with persistence a clone takes it, and replaces
    the owner once the repository has stored it. -/
def Connection.staged {α : Type} (connection : Connection) (commit : Option Errno)
    (op : Owner → Except Errno (Owner × α)) : Except Errno (Owner × α) :=
  if connection.persistenceEnabled then
    match ownerClone connection.owner with
    | none => .error .enomem
    | some copy =>
      match op copy, commit with
      | .error e, _ => .error e
      | .ok _, some e => .error e
      | .ok result, none => .ok result
  else op connection.owner

end

variable (connection : Connection)

/-- `flowie_connection_reply_request_release`. -/
def Connection.release (request : ReplyRequest) : Connection :=
  if request.preserveOnTerminalError then
    { connection with terminalReplyCount := connection.terminalReplyCount - 1 }
  else connection

/-- `flowie_connection_fail_reply_queue`. -/
def Connection.failReplyQueue : Connection :=
  { connection.sendQueue.foldl release connection with sendQueue := [] }

/-- `flowie_connection_close`. -/
def Connection.close : Connection :=
  failReplyQueue { connection with closing := true }

/-- `flowie_connection_close_after_terminal_replies`. -/
def Connection.closeAfterTerminalReplies : Connection :=
  if connection.terminalReplyCount = 0 then connection.close
  else { connection with closeWhenRepliesDrain := true }

/-- What a call on a connection leaves: the deliveries the transport took on the way, by packet
    identifier, and the status, `none` for `SALTS_OK`. -/
structure Effect where
  connection : Connection
  handed : List UInt16
  status : Option Errno

/-- What the surroundings answer during one pass of the drain: the clock and the repository at
    each expiry check, and the transport. A send that fails has taken a number of packets before. -/
structure Pass where
  clock : Nat → UInt64
  commit : Nat → Option Errno
  sendFailure : Option (Nat × Errno)

inductive Prepared where
  | live (packet : Bytes)
  | expired (owner : Owner)

section

variable [Vstr]

/-- `flowie_reply_request_expiry_prepare`. -/
def requestExpiryPrepare (connection : Connection) (request : ReplyRequest) (now : UInt64)
    (commit : Option Errno) : Except Errno Prepared :=
  if now = 0 then .error .einval
  else if request.expiryAtEpochSeconds = 0 then .ok (.live request.packet)
  else if now < request.expiryAtEpochSeconds then
    if request.protocolVersion = .v5 then
      (packetExpiryRefresh request.protocolVersion request.packet request.expiryAtEpochSeconds now).map .live
    else if request.protocolVersion.is3x then .ok (.live request.packet)
    else .error .eproto
  else if request.deliveryPacketId ≠ 0 then
    let expire (owner : Owner) : Except Errno (Owner × Unit) :=
      match deliveryExpirePacket owner request.deliveryPacketId now with
      | .error e => .error e
      | .ok (_, false) => .error .eproto
      | .ok (owner, true) => .ok (owner, ())
    (connection.staged commit expire).map fun r => .expired r.1
  else .ok (.expired connection.owner)

/-- The loop of the drain over expired requests at the front of the queue. A request that is still
    live stays there with its refreshed packet. -/
def expireFront (pass : Pass) : Nat → List ReplyRequest → Connection → Connection × Option Errno
  | _, [], connection => ({ connection with sendQueue := [] }, none)
  | k, request :: rest, connection =>
    let here : Connection := { connection with sendQueue := request :: rest }
    if request.expiryAtEpochSeconds = 0 then (here, none)
    else if pass.clock k = 0 then (here, some .eio)
    else
      match requestExpiryPrepare connection request (pass.clock k) (pass.commit k) with
      | .error e => (here, some e)
      | .ok (.live packet) => ({ connection with sendQueue := { request with packet := packet } :: rest }, none)
      | .ok (.expired owner) =>
        expireFront pass (k + 1) rest (release { connection with owner := owner } request)

end

/-- `FLOWIE_REPLY_SEND_BATCH_MAX_ITEMS`. -/
def replySendBatchMaxItems : Nat := 64

/-- The requests of one send, what stays queued, the QoS deliveries among the requests and whether
    the last request is terminal. -/
structure Batch where
  requests : List ReplyRequest
  rest : List ReplyRequest
  qosDeliveryCount : Nat
  terminal : Bool

def Batch.cons (request : ReplyRequest) (batch : Batch) : Batch := { batch with requests := request :: batch.requests }

/-- A request is the last of its batch when it or the next one expires, the transport takes one
    packet at a time, nothing may follow, the batch is full, or the next one does not fit into the
    window. The counts are those with the request. -/
def batchEnds (connection : Connection) (qosDeliveryCount requestCount : Nat) (request next : ReplyRequest) : Bool :=
  request.expiryAtEpochSeconds != 0 || !connection.retainedSg || request.terminal ||
    requestCount == replySendBatchMaxItems || next.expiryAtEpochSeconds != 0 ||
    (next.qosDelivery &&
      decide (connection.outboundQosInflight.toNat + qosDeliveryCount ≥ connection.clientReceiveMaximum.toNat))

/-- The loop of the drain that fills a batch: the counts are those before the request. -/
def collect (connection : Connection) (qosDeliveryCount requestCount : Nat) (request : ReplyRequest) :
    List ReplyRequest → Batch
  | [] => ⟨[request], [], qosDeliveryCount + request.qosDelivery.toNat, request.terminal⟩
  | next :: rest =>
    if batchEnds connection (qosDeliveryCount + request.qosDelivery.toNat) (requestCount + 1) request next then
      ⟨[request], next :: rest, qosDeliveryCount + request.qosDelivery.toNat, request.terminal⟩
    else
      .cons request (collect connection (qosDeliveryCount + request.qosDelivery.toNat) (requestCount + 1) next rest)

def deliveryIds (requests : List ReplyRequest) : List UInt16 :=
  (requests.filter (·.qosDelivery)).map (·.deliveryPacketId)

/-- What the transport takes of a batch. -/
def Pass.taken (pass : Pass) (requests : List ReplyRequest) : List ReplyRequest :=
  match pass.sendFailure with
  | none => requests
  | some (count, _) => requests.take count

/-- The connection once the transport took the batch. -/
def Connection.counted (connection : Connection) (batch : Batch) : Connection :=
  { connection with
    sendQueue := batch.rest
    outboundQosInflight := UInt16.ofNat (connection.outboundQosInflight.toNat + batch.qosDeliveryCount)
    connackSent := connection.connackSent || batch.requests.any (·.carries .connack) }

/-- The connection after a batch was sent or failed, and the failure. -/
def batchSent (connection : Connection) (batch : Batch) (pass : Pass) : Connection × Option Errno :=
  match pass.sendFailure with
  | some (_, e) =>
    ((batch.requests.foldl release { connection with sendQueue := batch.rest }).close, some e)
  | none =>
    let released := batch.requests.foldl release (connection.counted batch)
    if batch.terminal || (released.closeWhenRepliesDrain && released.terminalReplyCount == 0) then
      (released.close, none)
    else (released, none)

inductive PassEnd where
  | returns (connection : Connection) (status : Option Errno)
  | again (connection : Connection) (handed : List UInt16) (result : Option Errno)

section

variable [Vstr]

/-- One pass of the loop of `flowie_connection_reply_drain`; `result` is the failure of an earlier
    pass. -/
def drainPass (pass : Pass) (result : Option Errno) (connection : Connection) : PassEnd :=
  if connection.closing then .returns { connection.failReplyQueue with sendDrainActive := false } result
  else if connection.sendQueue.isEmpty then .returns { connection with sendDrainActive := false } result
  else
    match expireFront pass 0 connection.sendQueue connection with
    | (connection, some e) => .returns connection (some e)
    | (connection, none) =>
      match connection.sendQueue with
      | [] => .again connection [] result
      | request :: rest =>
        if request.qosDelivery ∧ connection.outboundQosInflight ≥ connection.clientReceiveMaximum then
          .returns { connection with sendDrainActive := false } result
        else
          let batch := collect connection 0 0 request rest
          let sent := batchSent connection batch pass
          .again sent.1 (deliveryIds (pass.taken batch.requests)) (sent.2.or result)

/-- The loop of the drain. Every pass that does not return takes a request from the queue, so one
    more pass than there are requests is enough. -/
def drainLoop (passes : Nat → Pass) : Nat → Nat → Option Errno → Connection → Effect
  | 0, _, result, connection => ⟨connection, [], result⟩
  | fuel + 1, k, result, connection =>
    match drainPass (passes k) result connection with
    | .returns connection status => ⟨connection, [], status⟩
    | .again connection handed result =>
      let rest := drainLoop passes fuel (k + 1) result connection
      { rest with handed := handed ++ rest.handed }

/-- `flowie_connection_reply_drain`. -/
def replyDrain (passes : Nat → Pass) (connection : Connection) : Effect :=
  drainLoop passes (connection.sendQueue.length + 1) 0 none connection

/-- What the surroundings answer to a request to queue a reply: whether the endpoint runs, its
    budget for a control reply, the budget of the connection, the room in the queue, whether the
    drain is put off to the end of the input, and the drain otherwise. -/
structure Admission where
  started : Bool
  endpointBudget : Option Errno
  budget : Option Errno
  room : Option Errno
  deferred : Bool
  passes : Nat → Pass

variable (admission : Admission) (connection : Connection)

/-- `flowie_connection_schedule_reply_drain`. -/
def scheduleReplyDrain : Effect :=
  if connection.sendDrainActive then ⟨connection, [], none⟩
  else
    let active : Connection := { connection with sendDrainActive := true }
    if admission.deferred then ⟨active, [], none⟩
    else
      let drained := replyDrain admission.passes active
      match drained.status with
      | none => drained
      | some _ => { drained with connection := { drained.connection with sendDrainActive := false } }

/-- The queue with a request that goes before the first QoS delivery. -/
def prioritized (request : ReplyRequest) (queue : List ReplyRequest) : List ReplyRequest :=
  queue.takeWhile (!·.qosDelivery) ++ request :: queue.dropWhile (!·.qosDelivery)

/-- `flowie_connection_reply_enqueue_with_priority`. -/
def replyEnqueueWithPriority (request : ReplyRequest) (prioritize : Bool)
    (connection : Connection) : Effect :=
  if request.packet.isEmpty then ⟨connection, [], some .einval⟩
  else if connection.closing || connection.closeWhenRepliesDrain then ⟨connection, [], some .enotconn⟩
  else if !admission.started then ⟨connection, [], some .eshutdown⟩
  else
    match admission.budget, admission.room with
    -- A subscriber that is too slow and a connection that has no room for a reply are both closed.
    | some e, _ => ⟨if e = .enospc then connection.close else connection, [], some e⟩
    | none, some e => ⟨(connection.release request).close, [], some e⟩
    | none, none =>
      let queued : Connection :=
        { connection with
          sendQueue := if prioritize then prioritized request connection.sendQueue else connection.sendQueue ++ [request]
          terminalReplyCount := connection.terminalReplyCount + request.preserveOnTerminalError.toNat
          connackAdmitted := connection.connackAdmitted || request.carries .connack }
      let scheduled := scheduleReplyDrain admission queued
      match scheduled.status with
      | none => scheduled
      | some e => ⟨scheduled.connection.close, scheduled.handed, some e⟩

def ackPacketType : AckKind → PacketType
  | .puback => .puback
  | .pubrec => .pubrec
  | .pubrel => .pubrel
  | .pubcomp => .pubcomp

/-- `flowie_session_ack_control_packet`. -/
def ackControlPacket (ack : AckIntent) (version : Version) : Except Errno ControlPacket :=
  if ack.packetId = 0 ∨ !version.supported then .error .einval
  else .ok ⟨version, ackPacketType ack.kind, false, ack.packetId, 0, [], []⟩

/-- `flowie_reply_control_request_create` for a packet without properties and reason codes that is
    kept when the connection ends in an error. -/
def replyControlRequestCreate (control : ControlPacket) : Except Errno ReplyRequest :=
  match controlPacketEncode control 32, admission.endpointBudget with
  | .error e, _ => .error (if e = .tooLarge then .emsgsize else .eproto)
  | .ok _, some e => .error e
  | .ok packet, none =>
    .ok
      { packet := packet
        closeAfterSend := false
        preserveOnTerminalError := true
        subscriberDelivery := false
        qosDelivery := false
        deliveryPacketId := 0
        expiryAtEpochSeconds := 0
        protocolVersion := .unspecified }

/-- `flowie_endpoint_ack_enqueue`: a PUBREL does not wait behind the deliveries of a full window. -/
def ackEnqueue (version : Version) (ack : AckIntent) (connection : Connection) : Effect :=
  match ackControlPacket ack version with
  | .error e => ⟨connection, [], some e⟩
  | .ok control =>
    match replyControlRequestCreate admission control with
    | .error e => ⟨connection, [], some e⟩
    | .ok request => replyEnqueueWithPriority admission request (ack.kind == .pubrel) connection

variable (packet : PacketView)

/-- The session takes an acknowledgement; one for a packet it does not know is a protocol error. -/
def Connection.acknowledged (commit : Option Errno) :
    Except Errno (Owner × Option AckIntent) :=
  connection.staged commit fun owner =>
    match deliveryAck owner packet with
    | .error .enoent => .error .eproto
    | result => result

/-- The acknowledgements that give their place in the window back. -/
def frees : Bool := packet.type == .puback || packet.type == .pubcomp

/-- The window after an acknowledgement. -/
def Connection.freed : Except Errno Connection :=
  if frees packet then
    if connection.outboundQosInflight = 0 then .error .eproto
    else .ok { connection with outboundQosInflight := connection.outboundQosInflight - 1 }
  else .ok connection

/-- The reply to an acknowledgement is queued; without one the queue may go on. -/
def acknowledgementReply (version : Version) (reply : Option AckIntent)
    (connection : Connection) : Effect :=
  match reply with
  | some ack => ackEnqueue admission version ack connection
  | none => if connection.sendQueue.isEmpty then ⟨connection, [], none⟩ else scheduleReplyDrain admission connection

/-- `flowie_endpoint_prepare_delivery_ack` without its log lines. -/
def prepareDeliveryAck (commit : Option Errno)
    (connection : Connection) : Effect :=
  match connection.acknowledged packet commit with
  | .error e => ⟨connection, [], some e⟩
  | .ok (owner, reply) =>
    match freed { connection with owner := owner } packet with
    | .error e => ⟨{ connection with owner := owner }, [], some e⟩
    | .ok freed => acknowledgementReply admission packet.version reply freed

end

end Flowie.Endpoint
