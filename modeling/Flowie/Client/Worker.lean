import Flowie.Client.Exchange

/-!
# The worker of the MQTT client

`flowie_mqtt_client.c`: the operations the commands run, the recovery of a lost connection and the loop of
the worker thread, which runs one command after the other, connects again when it is time and reads packets
in between.
-/

namespace Flowie.MqttClient

open Mqtt

/-- The client after `flowie_mqtt_client_packet_id`, which returns `nextPacketId`. -/
def Client.packetId (client : Client) : Client :=
  { client with nextPacketId := if client.nextPacketId + 1 = 0 then 1 else client.nextPacketId + 1 }

section

variable [Vstr]

/-- `flowie_mqtt_client_publish_capabilities_validate`. -/
def publishCapabilitiesValidate (client : Client) (packet : PublishPacket) : Except Errno Unit :=
  if client.version ≠ .v5 then .ok ()
  else if packet.qos.toNat > client.serverMaximumQos ∨ (packet.retain ∧ !client.serverRetainAvailable) then .error .enotsup
  else if packet.properties.isEmpty then .ok ()
  else if (properties packet.properties).1.any fun property =>
      property.identifier == .topicAlias && (property.integer == 0 || property.integer > client.serverTopicAliasMaximum) then
    .error .enotsup
  else if (properties packet.properties).2 = .needMore then .ok ()
  else .error .eproto

/-- What an operation is answered: by the transport for the packet and for a PUBREL after it, and the packets
    that arrive. -/
structure Answer where
  sent : Except Errno Unit
  released : Except Errno Unit
  arrivals : Arrivals

/-- A packet is encoded, sent and answered; once it is encoded a failure closes the transport. -/
def exchange {α : Type} (client : Client) (encoded : Except ParseError Bytes) (sent : Except Errno Unit)
    (answered : Client → Outcome α) : Outcome α :=
  match encoded with
  | .error e => .fail client (parseStatus e)
  | .ok _ => ((Outcome.ofStatus client sent).andThen fun client _ => answered client).orClose

/-- `flowie_mqtt_client_publish_operation`: the acknowledgement of a PUBLISH with a QoS. -/
def publishOperation (client : Client) (packet : PublishPacket) (answer : Answer) : Outcome (Option ControlView) :=
  if packet.packetId ≠ 0 then .fail client .einval
  else if client.state ≠ .connected then .fail client .enotconn
  else if packet.version ≠ client.version then .fail client .eproto
  else
    match publishCapabilitiesValidate client packet with
    | .error e => .fail client e
    | .ok _ =>
      if packet.qos = 0 then
        exchange client (publishPacketEncode packet client.outboundMaxPacketSize) answer.sent fun client => .ok client none
      else
        let packetId := client.nextPacketId
        exchange client.packetId (publishPacketEncode { packet with packetId } client.outboundMaxPacketSize) answer.sent
          fun client =>
            (answer.arrivals.await client (if packet.qos = 1 then .puback else .pubrec) packetId).andThen
              fun client (received, arrivals) =>
                if packet.qos = 1 ∨ received.reasonCode ≥ 0x80 then .ok client (some received)
                else
                  (Outcome.ofStatus client (sendControl client .pubrel packetId 0 answer.released).2).andThen fun client _ =>
                    (arrivals.await client .pubcomp packetId).andThen fun client (received, _) => .ok client (some received)

/-- `flowie_mqtt_client_subscribe_operation`. -/
def subscribeOperation (client : Client) (packet : SubscribePacket) (answer : Answer) : Outcome ControlView :=
  if packet.packetId ≠ 0 then .fail client .einval
  else if client.state ≠ .connected then .fail client .enotconn
  else if packet.version ≠ client.version then .fail client .eproto
  else
    let packetId := client.nextPacketId
    exchange client.packetId (subscribePacketEncode { packet with packetId } client.outboundMaxPacketSize) answer.sent
      fun client =>
        (answer.arrivals.await client .suback packetId).andThen fun client (received, _) =>
          if received.reasonCodes.length ≠ packet.subscriptions.length then .fail client .eproto else .ok client received

/-- `flowie_mqtt_client_unsubscribe_operation`. -/
def unsubscribeOperation (client : Client) (packet : UnsubscribePacket) (answer : Answer) : Outcome ControlView :=
  if packet.packetId ≠ 0 then .fail client .einval
  else if client.state ≠ .connected then .fail client .enotconn
  else if packet.version ≠ client.version then .fail client .eproto
  else
    let packetId := client.nextPacketId
    exchange client.packetId (unsubscribePacketEncode { packet with packetId } client.outboundMaxPacketSize) answer.sent
      fun client =>
        (answer.arrivals.await client .unsuback packetId).andThen fun client (received, _) =>
          if client.version = .v5 ∧ received.reasonCodes.length ≠ packet.filters.length then .fail client .eproto
          else .ok client received

/-- `flowie_mqtt_pingreq_encode`. -/
def pingreqEncode (version : Version) (capacity : Nat) : Except ParseError Bytes :=
  if !version.supported then .error .invalidArgument
  else if capacity < 2 then .error .tooLarge
  else .ok [0xc0, 0x00]

/-- `flowie_mqtt_client_ping_operation`. -/
def pingOperation (client : Client) (answer : Answer) : Outcome Unit :=
  if client.state ≠ .connected then .fail client .enotconn
  else
    exchange client (pingreqEncode client.version client.outboundMaxPacketSize) answer.sent fun client =>
      (answer.arrivals.await client .pingresp 0).andThen fun client _ => .ok client ()

/-- The loop of `flowie_mqtt_client_auth_operation`. -/
def authLoop (client : Client) (failure : Errno) : List Incoming → Outcome ControlView
  | [] => .fail client failure
  | incoming :: rest =>
    if incoming.packet.type = .auth then
      match controlPacketParse incoming.packet with
      | .error e => .fail client (parseStatus e)
      | .ok response =>
        if response.reasonCode = 0x18 then
          match handleAuthChallenge client incoming with
          | .error e => .fail client e
          | .ok _ => authLoop client failure rest
        else if response.reasonCode ≠ 0 then .fail client .eproto
        else
          match authMethodMatches client response.properties false with
          | .error e => .fail client e
          | .ok _ => .ok client response
    else
      (handleUnsolicited client incoming).andThen fun client handled =>
        if handled then authLoop client failure rest else .fail client .eproto

/-- `flowie_mqtt_client_auth_operation`. -/
def authOperation (client : Client) (values : Bytes) (answer : Answer) : Outcome ControlView :=
  if client.state ≠ .connected then .fail client .enotconn
  else if client.version ≠ .v5 then .fail client .enotsup
  else
    ((Outcome.ofStatus client (authMethodMatches client values true)).andThen fun client _ =>
      (Outcome.ofStatus client (sendAuth client 0x19 values answer.sent)).andThen fun client _ =>
        authLoop client answer.arrivals.failure answer.arrivals.incoming).orClose

/-- `flowie_mqtt_client_disconnect_operation`. -/
def disconnectOperation (client : Client) (reasonCode : UInt8) (values : Bytes) (answer : Answer) : Outcome Unit :=
  if client.state ≠ .connected then .fail client .enotconn
  else
    let status :=
      match controlPacketEncode ⟨client.version, .disconnect, false, 0, reasonCode, values, []⟩
        client.outboundMaxPacketSize with
      | .error e => .error (parseStatus e)
      | .ok _ => answer.sent
    ⟨client.transportClose, [.closed], status⟩

end

/-- What the recovery is answered: by `network_security_failure`, by the callback `refresh_connect`, by the
    allocator for the copy of its CONNECT and by the clock. -/
structure RecoveryAnswer where
  securityFailure : Bool
  refreshed : Except Errno ConnectPacket
  stored : Except Errno Unit
  now : UInt64

variable (client : Client)

/-- `flowie_mqtt_client_version_resolve`. -/
def versionResolve (version : Version) : Except Errno Version :=
  if version = .unspecified then .ok client.selectedVersion
  else if !version.supported then .error .einval
  else if version = client.selectedVersion then .ok version
  else .error .eproto

/-- `flowie_mqtt_client_reconnect_connect_replace`. -/
def reconnectConnectReplace (packet : ConnectPacket) (stored : Except Errno Unit) :
    Except Errno Client :=
  match versionResolve client packet.version with
  | .error e => .error e
  | .ok version =>
    match stored with
    | .error e => .error e
    | .ok _ => .ok { client with reconnectConnect := some { packet with version } }

/-- `flowie_mqtt_client_reconnect_cancel`. -/
def Client.reconnectCancel (clearConnect : Bool) : Client :=
  { client with
    reconnectPending := false
    reconnectAttempt := 0
    reconnectDelayMs := client.reconnectInitialDelayMs
    reconnectDeadlineMs := 0
    reconnectConnect := if clearConnect then none else client.reconnectConnect }

/-- `flowie_mqtt_client_reconnect_reason`. -/
def reconnectReason (reasonCode : UInt8) : Bool := reasonCode == 0x88 || reasonCode == 0x89

/-- `flowie_mqtt_client_refresh_reason`. -/
def refreshReason (reasonCode : UInt8) : Bool := reasonCode == 0x86 || reasonCode == 0x87

/-- `flowie_mqtt_client_reconnect_status`. -/
def reconnectStatus : Errno → Bool
  | .eof | .econnreset | .econnrefused | .etimedout | .enetdown | .enetunreach | .ehostunreach | .eio => true
  | _ => false

/-- `flowie_mqtt_client_reconnect_schedule`. -/
def Client.reconnectSchedule (now : UInt64) : Client :=
  if !client.resilienceEnabled || client.reconnectConnect.isNone then client
  else if client.reconnectMaxAttempts ≠ 0 ∧ client.reconnectAttempt ≥ client.reconnectMaxAttempts then
    { client with reconnectPending := false }
  else
    let delay := if client.reconnectDelayMs = 0 then client.reconnectInitialDelayMs else client.reconnectDelayMs
    { client with
      reconnectDelayMs := delay
      reconnectDeadlineMs := if delay > UInt64.ofNat (2 ^ 64 - 1) - now then UInt64.ofNat (2 ^ 64 - 1) else now + delay
      reconnectPending := true }

/-- `flowie_mqtt_client_reconnect_backoff`. -/
def Client.reconnectBackoff : Client :=
  let doubled :=
    if client.reconnectDelayMs > UInt64.ofNat (2 ^ 64 - 1) / 2 then UInt64.ofNat (2 ^ 64 - 1)
    else client.reconnectDelayMs * 2
  { client with
    reconnectDelayMs := if doubled > client.reconnectMaxDelayMs then client.reconnectMaxDelayMs else doubled }

/-- `flowie_mqtt_client_refresh_reconnect`. -/
def refreshReconnect (answer : RecoveryAnswer) : Except Errno Client :=
  if !client.refreshConnect || client.reconnectConnect.isNone then .error .enotsup
  else
    match answer.refreshed with
    | .error e => .error e
    | .ok refreshed => reconnectConnectReplace client refreshed answer.stored

/-- The CONNECT is refreshed and the next attempt scheduled, or there is none. -/
def refreshAndSchedule (increaseBackoff : Bool) (answer : RecoveryAnswer) : Client :=
  match refreshReconnect client answer with
  | .error _ => client.reconnectCancel true
  | .ok client => (if increaseBackoff then client.reconnectBackoff else client).reconnectSchedule answer.now

/-- `flowie_mqtt_client_reconnect_after_failure`. -/
def reconnectAfterFailure (status : Errno) (increaseBackoff : Bool) (answer : RecoveryAnswer) : Client :=
  if !client.resilienceEnabled || client.reconnectConnect.isNone then client
  else if answer.securityFailure then client.reconnectCancel true
  else
    let hasReason := client.disconnectReasonValid
    let client := { client with disconnectReasonValid := false }
    if hasReason && refreshReason client.disconnectReason then refreshAndSchedule client increaseBackoff answer
    else if (hasReason && client.disconnectReason == 0x89) || (!hasReason && reconnectStatus status) then
      (if increaseBackoff then client.reconnectBackoff else client).reconnectSchedule answer.now
    else client

section

variable [Vstr]

inductive Command where
  | connect (packet : ConnectPacket)
  | publish (packet : PublishPacket)
  | subscribe (packet : SubscribePacket)
  | unsubscribe (packet : UnsubscribePacket)
  | ping
  | auth (values : Bytes)
  | disconnect (reasonCode : UInt8) (values : Bytes)

/-- What a command is answered on its way; `stopping` is read before the completion and after it. -/
structure CommandAnswer where
  replaced : Except Errno Unit
  connect : ConnectAnswer
  operation : Answer
  stoppingBefore : Bool
  stoppingAfter : Bool
  recovery : RecoveryAnswer

variable (client : Client)

/-- The CONNECT of `flowie_mqtt_client_run_command`. -/
def connectCommand (packet : ConnectPacket) (answer : CommandAnswer) : Outcome ControlView :=
  if client.state ≠ .disconnected then .fail client .ealready
  else if client.resilienceEnabled then
    match reconnectConnectReplace client packet answer.replaced with
    | .error e => .fail client e
    | .ok client => connectOperation (client.reconnectCancel false) packet answer.connect
  else connectOperation client packet answer.connect

/-- The switch of `flowie_mqtt_client_run_command`: the response there is. -/
def commandOperation (answer : CommandAnswer) : Command → Outcome (Option ControlView)
  | .connect packet => (connectCommand client packet answer).andThen fun client connack => .ok client (some connack)
  | .publish packet => publishOperation client packet answer.operation
  | .subscribe packet =>
    (subscribeOperation client packet answer.operation).andThen fun client suback => .ok client (some suback)
  | .unsubscribe packet =>
    (unsubscribeOperation client packet answer.operation).andThen fun client unsuback => .ok client (some unsuback)
  | .ping => (pingOperation client answer.operation).andThen fun client _ => .ok client none
  | .auth values => (authOperation client values answer.operation).andThen fun client auth => .ok client (some auth)
  | .disconnect reasonCode values =>
    let outcome := disconnectOperation client reasonCode values answer.operation
    match outcome.result with
    | .error e => ⟨outcome.client, outcome.trace, if e = .eof ∨ e = .econnreset then .ok none else .error e⟩
    | .ok _ => ⟨outcome.client, outcome.trace, .ok none⟩

def connectRecovery (recovery : RecoveryAnswer) : Except Errno (Option ControlView) → Client
  | .error e => reconnectAfterFailure client e false recovery
  | .ok none => client.reconnectCancel true
  | .ok (some response) =>
    if response.reasonCode = 0 then client.reconnectCancel false
    else if reconnectReason response.reasonCode then client.reconnectSchedule recovery.now
    else if refreshReason response.reasonCode then refreshAndSchedule client false recovery
    else client.reconnectCancel true

def commandRecovery (recovery : RecoveryAnswer) : Except Errno (Option ControlView) → Client
  | .error e => reconnectAfterFailure client e false recovery
  | .ok _ => client

/-- `flowie_mqtt_client_run_command` after the completion. -/
def afterCommand (command : Command) (result : Except Errno (Option ControlView))
    (answer : CommandAnswer) : Client :=
  match command with
  | .connect _ =>
    if client.resilienceEnabled && !answer.stoppingAfter then connectRecovery client answer.recovery result else client
  | .disconnect _ _ => client.reconnectCancel true
  | _ => if client.resilienceEnabled && !answer.stoppingAfter then commandRecovery client answer.recovery result else client

/-- `flowie_mqtt_client_run_command`. -/
def runCommand (command : Command) (answer : CommandAnswer) : Outcome (Option ControlView) :=
  let outcome := commandOperation { client with disconnectReasonValid := false } answer command
  let result :=
    match outcome.result with
    | .error e => .error (if answer.stoppingBefore then .eshutdown else e)
    | .ok response => .ok response
  ⟨afterCommand outcome.client command result answer, outcome.trace, result⟩

/-- What an attempt of the worker to connect again is answered; `stopping` is read before it and after it. -/
structure ReconnectAnswer where
  stoppingBefore : Bool
  connect : ConnectAnswer
  stoppingAfter : Bool
  recovery : RecoveryAnswer

/-- `flowie_mqtt_client_run_reconnect` after the CONNECT. -/
def afterReconnect (recovery : RecoveryAnswer) : Except Errno ControlView → Client
  | .error e => reconnectAfterFailure client e true recovery
  | .ok response =>
    if response.reasonCode = 0 then client.reconnectCancel false
    else if reconnectReason response.reasonCode then client.reconnectBackoff.reconnectSchedule recovery.now
    else if refreshReason response.reasonCode then refreshAndSchedule client true recovery
    else { client with reconnectPending := false }

/-- `flowie_mqtt_client_run_reconnect`. -/
def runReconnect (answer : ReconnectAnswer) : Outcome Unit :=
  match client.reconnectConnect with
  | none => .ok client ()
  | some packet =>
    if answer.stoppingBefore then .ok client ()
    else
      let outcome := connectOperation { client with
        reconnectPending := false
        reconnectAttempt := client.reconnectAttempt + 1 } packet answer.connect
      if answer.stoppingAfter then ⟨outcome.client, outcome.trace, .ok ()⟩
      else ⟨afterReconnect outcome.client answer.recovery outcome.result, outcome.trace, .ok ()⟩

/-- A reading that failed closes the transport, and the connection is recovered. -/
def recoverReading (outcome : Outcome Unit) (recovery : RecoveryAnswer) : Outcome Unit :=
  match outcome.result with
  | .ok _ => outcome
  | .error e => ⟨reconnectAfterFailure outcome.orClose.client e false recovery, outcome.orClose.trace, .ok ()⟩

/-- The reading of `flowie_mqtt_client_worker_pump`. -/
def workerReceive (arrival : Except Errno Incoming) (recovery : RecoveryAnswer) : Outcome Unit :=
  let client := { client with disconnectReasonValid := false }
  match arrival with
  | .error e => if e = .eintr then .ok client () else recoverReading (.fail client e) recovery
  | .ok incoming =>
    let outcome : Outcome Unit :=
      (handleUnsolicited client incoming).andThen fun client handled =>
        if !handled ∧ incoming.packet.type ≠ .pingresp then .fail client .eproto else .ok client ()
    recoverReading outcome recovery

/-- What the loop of the worker does in one pass: it runs a command, connects again, reads a packet or stops. -/
inductive WorkerEvent where
  | command (command : Command) (answer : CommandAnswer)
  | reconnect (now : UInt64) (answer : ReconnectAnswer)
  | receive (arrival : Except Errno Incoming) (recovery : RecoveryAnswer)
  | stop

/-- The worker: its client, what has been seen of it, and whether its loop has ended. -/
structure Worker where
  client : Client
  trace : List Observation
  ended : Bool

def Worker.after {α : Type} (worker : Worker) (outcome : Outcome α) : Worker :=
  { worker with client := outcome.client, trace := worker.trace ++ outcome.trace }

/-- A pass of `flowie_mqtt_client_worker_pump`. It connects again only when an attempt is due, and reads only
    while it is connected and waits for no attempt. -/
def workerStep (worker : Worker) (event : WorkerEvent) : Worker :=
  if worker.ended then worker
  else
    match event with
    | .command command answer => worker.after (runCommand worker.client command answer)
    | .reconnect now answer =>
      if worker.client.reconnectPending ∧ worker.client.reconnectDeadlineMs ≤ now then
        worker.after (runReconnect worker.client answer)
      else worker
    | .receive arrival recovery =>
      if !worker.client.reconnectPending ∧ worker.client.state = .connected then
        worker.after (workerReceive worker.client arrival recovery)
      else worker
    | .stop =>
      { client := worker.client.transportClose.reconnectCancel true, trace := worker.trace ++ [.closed], ended := true }

def workerRun (client : Client) (events : List WorkerEvent) : Worker := events.foldl workerStep ⟨client, [], false⟩

end

end Flowie.MqttClient
