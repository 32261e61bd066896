import Flowie.Mqtt.Encode
import Flowie.Mqtt.TopicMatch

/-!
# The packet exchange of the MQTT client

`flowie_mqtt_client.c`: how the worker thread handles a packet that arrives, waits for an answer and opens
and closes its connection. What the transport, the callbacks, the clock and the allocator answer are inputs
of each call. A call leaves the client, what could be seen of it on the way and its result.

The flags `busy` and `callback_active` keep callbacks from running an operation of their own; on the worker
they are clear when one begins.
-/

namespace Flowie.MqttClient

open Mqtt

/-- `flowie_mqtt_client_state_t`. -/
inductive ClientState where
  | disconnected | transportConnected | connected
deriving DecidableEq, Repr

/-- The worker's part of `flowie_mqtt_client_t`. The topic handlers are their filters, and the callbacks
    `on_auth_challenge` and `refresh_connect` are there or not. -/
structure Client where
  selectedVersion : Version
  version : Version
  state : ClientState
  authMethod : Bytes
  onAuthChallenge : Bool
  maxPacketSize : Nat
  outboundMaxPacketSize : Nat
  serverTopicAliasMaximum : Nat
  serverMaximumQos : Nat
  serverRetainAvailable : Bool
  topicHandlers : List Bytes
  maxInboundQos2 : Nat
  inboundQos2 : List UInt16
  nextPacketId : UInt16
  disconnectReason : UInt8
  disconnectReasonValid : Bool
  resilienceEnabled : Bool
  reconnectInitialDelayMs : UInt64
  reconnectMaxDelayMs : UInt64
  reconnectMaxAttempts : UInt32
  refreshConnect : Bool
  reconnectConnect : Option ConnectPacket
  reconnectDelayMs : UInt64
  reconnectDeadlineMs : UInt64
  reconnectAttempt : UInt32
  reconnectPending : Bool

/-- What is seen of a client from outside: a PUBLISH with the handlers it was given to, whether they
    accepted it and the packet that answered it, a PUBREL, a connection with the two flags of its session,
    and the end of a connection. -/
inductive Observation where
  | publish (publish : PublishView) (called : List Nat) (accepted : Bool) (reply : Option ControlPacket)
  | pubrel (packetId : UInt16)
  | connected (cleanStart sessionPresent : Bool)
  | closed
deriving DecidableEq, Repr

/-- What a call leaves. -/
structure Outcome (α : Type) where
  client : Client
  trace : List Observation
  result : Except Errno α

namespace Outcome

variable {α β : Type}

def ok (client : Client) (value : α) : Outcome α := ⟨client, [], .ok value⟩

def fail (client : Client) (e : Errno) : Outcome α := ⟨client, [], .error e⟩

/-- A call after another that did not fail. -/
def andThen (first : Outcome α) (next : Client → α → Outcome β) : Outcome β :=
  match first.result with
  | .error e => ⟨first.client, first.trace, .error e⟩
  | .ok value =>
    let second := next first.client value
    ⟨second.client, first.trace ++ second.trace, second.result⟩

def ofStatus (client : Client) (status : Except Errno α) : Outcome α := ⟨client, [], status⟩

end Outcome

/-- A packet the client receives, with what it is answered while it handles it: by the hash set, by each of
    its handlers, by the callback for challenges and by the transport for its reply. -/
structure Incoming where
  packet : PacketView
  added : Except Errno Unit
  onMessage : Nat → Except Errno Unit
  challenge : Except Errno (UInt8 × Bytes)
  sent : Except Errno Unit

/-- `flowie_mqtt_client_parse_status`. -/
def parseStatus : ParseError → Errno
  | .tooLarge => .emsgsize
  | .invalidArgument => .einval
  | _ => .eproto

section

variable [Vstr]

/-- The loop of `flowie_mqtt_client_auth_method_get`; no method is the empty one. -/
def authMethodLoop : Bytes → List Property → Except Errno Bytes
  | method, [] => .ok method
  | method, property :: rest =>
    if property.identifier ≠ .authenticationMethod then authMethodLoop method rest
    else if !method.isEmpty || property.value.isEmpty then .error .eproto
    else authMethodLoop property.value rest

/-- `flowie_mqtt_client_auth_method_get`. -/
def authMethodGet (values : Bytes) : Except Errno Bytes :=
  if values.isEmpty then .ok []
  else
    match authMethodLoop [] (properties values).1 with
    | .error e => .error e
    | .ok method => if (properties values).2 = .needMore then .ok method else .error (parseStatus (properties values).2)

/-- `flowie_mqtt_client_auth_method_matches`. -/
def authMethodMatches (client : Client) (values : Bytes) (required : Bool) : Except Errno Unit :=
  match authMethodGet values with
  | .error e => .error e
  | .ok method =>
    if method.isEmpty then if required then .error .eproto else .ok ()
    else if method = client.authMethod then .ok ()
    else .error .eproto

/-- `flowie_mqtt_client_auth_method_select`. -/
def authMethodSelect (client : Client) (values : Bytes) (stored : Except Errno Unit) : Except Errno Client :=
  match authMethodGet values with
  | .error e => .error e
  | .ok method =>
    match if method.isEmpty then .ok () else stored with
    | .error e => .error e
    | .ok _ => .ok { client with authMethod := method }

/-- `flowie_mqtt_client_send_control`: the packet handed to the transport, and the status. -/
def sendControl (client : Client) (type : PacketType) (packetId : UInt16) (reasonCode : UInt8)
    (sent : Except Errno Unit) : Option ControlPacket × Except Errno Unit :=
  let packet : ControlPacket := ⟨client.version, type, false, packetId, reasonCode, [], []⟩
  match controlPacketEncode packet client.outboundMaxPacketSize with
  | .error e => (none, .error (parseStatus e))
  | .ok _ => (some packet, sent)

/-- `flowie_mqtt_client_send_auth`. -/
def sendAuth (client : Client) (reasonCode : UInt8) (values : Bytes) (sent : Except Errno Unit) : Except Errno Unit :=
  if client.version ≠ .v5 then .error .einval
  else
    match controlPacketEncode ⟨.v5, .auth, false, 0, reasonCode, values, []⟩ client.outboundMaxPacketSize with
    | .error e => .error (parseStatus e)
    | .ok _ => sent

/-- The loop of `flowie_mqtt_client_handle_publish` over the handlers from an index on: those that were
    called, and the status. -/
def callHandlers (onMessage : Nat → Except Errno Unit) (topic : Bytes) :
    Nat → List Bytes → List Nat × Except Errno Unit
  | _, [] => ([], .ok ())
  | i, filter :: rest =>
    match topicMatches filter topic with
    | .error e => ([], .error (parseStatus e))
    | .ok false => callHandlers onMessage topic (i + 1) rest
    | .ok true =>
      match onMessage i with
      | .error e => ([i], .error e)
      | .ok _ =>
        let later := callHandlers onMessage topic (i + 1) rest
        (i :: later.1, later.2)

/-- `flowie_mqtt_client_handle_publish`. -/
def handlePublish (client : Client) (incoming : Incoming) : Outcome Unit :=
  match publishParse incoming.packet with
  | .error e => .fail client (parseStatus e)
  | .ok publish =>
    if publish.qos = 2 ∧ client.inboundQos2.contains publish.packetId then
      if !publish.duplicate then ⟨client, [.publish publish [] false none], .error .eproto⟩
      else
        let reply := sendControl client .pubrec publish.packetId 0 incoming.sent
        ⟨client, [.publish publish [] false reply.1], reply.2⟩
    else if publish.qos = 2 ∧ client.inboundQos2.length ≥ client.maxInboundQos2 then
      ⟨client, [.publish publish [] false none], .error .enospc⟩
    else
      match if publish.qos = 2 then incoming.added else .ok () with
      | .error e => ⟨client, [.publish publish [] false none], .error e⟩
      | .ok _ =>
        let handled := callHandlers incoming.onMessage publish.topic 0 client.topicHandlers
        match if handled.1.isEmpty then handled.2.bind fun _ => .error .enotsup else handled.2 with
        -- the identifier is in the set only while the handlers run
        | .error e => ⟨client, [.publish publish handled.1 false none], .error e⟩
        | .ok _ =>
          if publish.qos = 0 then ⟨client, [.publish publish handled.1 true none], .ok ()⟩
          else
            let accepted : Client :=
              if publish.qos = 2 then { client with inboundQos2 := publish.packetId :: client.inboundQos2 } else client
            let reply := sendControl client (if publish.qos = 1 then .puback else .pubrec) publish.packetId 0 incoming.sent
            ⟨accepted, [.publish publish handled.1 true reply.1], reply.2⟩

/-- `flowie_mqtt_client_handle_pubrel`. -/
def handlePubrel (client : Client) (incoming : Incoming) : Outcome Unit :=
  match controlPacketParse incoming.packet with
  | .error e => .fail client (parseStatus e)
  | .ok control =>
    let reasonCode : UInt8 :=
      if !client.inboundQos2.contains control.packetId ∧ client.version = .v5 then 0x92 else 0
    let reply := sendControl client .pubcomp control.packetId reasonCode incoming.sent
    ⟨{ client with inboundQos2 := client.inboundQos2.erase control.packetId }, [.pubrel control.packetId], reply.2⟩

/-- `flowie_mqtt_client_handle_auth_challenge`. -/
def handleAuthChallenge (client : Client) (incoming : Incoming) : Except Errno Unit :=
  if incoming.packet.type ≠ .auth ∨ client.version ≠ .v5 then .error .einval
  else
    match controlPacketParse incoming.packet with
    | .error e => .error (parseStatus e)
    | .ok challenge =>
      if challenge.reasonCode ≠ 0x18 then .error .eproto
      else
        match authMethodMatches client challenge.properties true with
        | .error e => .error e
        | .ok _ =>
          if !client.onAuthChallenge then .error .enotsup
          else
            match incoming.challenge with
            | .error e => .error e
            | .ok (reasonCode, values) =>
              if reasonCode ≠ 0x18 then .error .eproto
              else
                match authMethodMatches client values true with
                | .error e => .error e
                | .ok _ => sendAuth client reasonCode values incoming.sent

/-- `flowie_mqtt_client_handle_unsolicited`: whether the packet was handled. -/
def handleUnsolicited (client : Client) (incoming : Incoming) : Outcome Bool :=
  match incoming.packet.type with
  | .publish => (handlePublish client incoming).andThen fun client _ => .ok client true
  | .pubrel => (handlePubrel client incoming).andThen fun client _ => .ok client true
  | .disconnect =>
    match controlPacketParse incoming.packet with
    | .error e => .fail client (parseStatus e)
    | .ok disconnect =>
      .fail { client with
        disconnectReason := disconnect.reasonCode
        disconnectReasonValid := incoming.packet.version == .v5 } .econnreset
  | .auth => .fail client .eproto
  | _ => .ok client false

/-- The packets that arrive during a call, and how the reading of the next one fails. -/
structure Arrivals where
  incoming : List Incoming
  failure : Errno

/-- `flowie_mqtt_client_wait_control`: the packet that was waited for, and what arrives after it. -/
def waitControl (client : Client) (expected : PacketType) (packetId : UInt16) (failure : Errno) :
    List Incoming → Outcome (ControlView × Arrivals)
  | [] => .fail client failure
  | incoming :: rest =>
    if expected = .connack ∧ incoming.packet.type ≠ .connack ∧ incoming.packet.type ≠ .auth then .fail client .eproto
    else if expected = .connack ∧ incoming.packet.type = .auth then
      match handleAuthChallenge client incoming with
      | .error e => .fail client e
      | .ok _ => waitControl client expected packetId failure rest
    else
      (handleUnsolicited client incoming).andThen fun client handled =>
        if handled then waitControl client expected packetId failure rest
        else if incoming.packet.type ≠ expected then .fail client .eproto
        else
          match controlPacketParse incoming.packet with
          | .error e => .fail client (parseStatus e)
          | .ok control =>
            if control.packetId ≠ packetId then .fail client .eproto else .ok client (control, ⟨rest, failure⟩)

/-- The waiting of an operation. -/
def Arrivals.await (arrivals : Arrivals) (client : Client) (expected : PacketType) (packetId : UInt16) :
    Outcome (ControlView × Arrivals) :=
  waitControl client expected packetId arrivals.failure arrivals.incoming

end

/-- `flowie_mqtt_client_transport_close`. -/
def Client.transportClose (client : Client) : Client :=
  { client with
    state := .disconnected
    version := .unspecified
    authMethod := []
    outboundMaxPacketSize := client.maxPacketSize
    serverTopicAliasMaximum := 0
    serverMaximumQos := 2
    serverRetainAvailable := true
    inboundQos2 := [] }

namespace Outcome

variable {α : Type}

/-- The label `fail` of the operations: the transport is closed. -/
def orClose (outcome : Outcome α) : Outcome α :=
  match outcome.result with
  | .ok _ => outcome
  | .error _ => ⟨outcome.client.transportClose, outcome.trace ++ [.closed], outcome.result⟩

end Outcome

section

variable [Vstr]

def connackProperty (client : Client) (property : Property) : Client :=
  match property.identifier with
  | .maximumPacketSize =>
    if property.integer < client.outboundMaxPacketSize then { client with outboundMaxPacketSize := property.integer } else client
  | .topicAliasMaximum => { client with serverTopicAliasMaximum := property.integer % 2 ^ 16 }
  | .maximumQos => { client with serverMaximumQos := property.integer % 2 ^ 8 }
  | .retainAvailable => { client with serverRetainAvailable := property.integer % 2 ^ 8 != 0 }
  | _ => client

/-- `flowie_mqtt_client_negotiate_connack`. The Receive Maximum and the keep alive of the server are not read. -/
def negotiateConnack (client : Client) (connack : ControlView) : Except Errno Client :=
  let reset : Client :=
    { client with
      outboundMaxPacketSize := client.maxPacketSize
      serverTopicAliasMaximum := 0
      serverMaximumQos := 2
      serverRetainAvailable := true }
  if client.version ≠ .v5 ∨ connack.properties.isEmpty then .ok reset
  else
    match authMethodMatches client connack.properties false with
    | .error e => .error e
    | .ok _ =>
      if (properties connack.properties).2 = .needMore then .ok ((properties connack.properties).1.foldl connackProperty reset)
      else .error .eproto

/-- What a CONNECT is answered: by the allocator for the method, by the transport when it connects, when it
    takes the packet and when the connection is handed over, and the packets that arrive. -/
structure ConnectAnswer where
  stored : Except Errno Unit
  transport : Except Errno Unit
  sent : Except Errno Unit
  arrivals : Arrivals
  ready : Except Errno Unit

/-- The part of `flowie_mqtt_client_connect_operation` on the open transport. -/
def connectExchange (client : Client) (packet : ConnectPacket) (answer : ConnectAnswer) : Outcome ControlView :=
  (Outcome.ofStatus client answer.transport).andThen fun client _ =>
    (Outcome.ofStatus { client with state := .transportConnected } answer.sent).andThen fun client _ =>
      (answer.arrivals.await client .connack 0).andThen fun client (connack, _) =>
        if connack.reasonCode ≠ 0 then ⟨client.transportClose, [.closed], .ok connack⟩
        else
          match negotiateConnack client connack with
          | .error e => .fail client e
          | .ok client =>
            (Outcome.ofStatus client answer.ready).andThen fun client _ =>
              ⟨{ client with state := .connected }, [.connected packet.cleanStart connack.sessionPresent], .ok connack⟩

/-- `flowie_mqtt_client_connect_operation`. -/
def connectOperation (client : Client) (packet : ConnectPacket) (answer : ConnectAnswer) : Outcome ControlView :=
  if !packet.version.supported then .fail client .einval
  else if client.state ≠ .disconnected then .fail client .ealready
  else
    match connectPacketEncode packet client.maxPacketSize with
    | .error e => .fail client (parseStatus e)
    | .ok _ =>
      match authMethodSelect client (if packet.version = .v5 then packet.properties else []) answer.stored with
      | .error e => .fail client e
      | .ok client => (connectExchange { client with inboundQos2 := [], version := packet.version } packet answer).orClose

end

end Flowie.MqttClient
