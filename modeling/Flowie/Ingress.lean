import Flowie.Lib.Pump
import Flowie.Mqtt.Framing

/-!
# The ingress of a connection

`flowie_ingress.c`: the bytes of a connection are collected in a framing buffer, cut into packets and
handed to the callbacks. The framing buffer is a queue whose capacity is the packet limit. The context
of the callbacks is a state they pass on; what the prepare callback sets on the ingress (the route, the
settlement and the packet that is published instead) is part of its answer.

A connection sees the same packets and ends in the same state however its stream is cut into reads
(`ingress_is_chunk_independent`). A call ends with the packet whose callback asked to stop the pump exactly when no input
is left for another pump (`stop_pump_respected`).
-/

namespace Flowie.Ingress

open Mqtt Pump List Option

variable {σ ρ τ κ : Type}

/-- `flowie_message_t`, as far as the ingress fills it in. -/
structure Message (ρ τ : Type) where
  type : PacketType
  flags : Nat
  payload : Bytes
  route : Option ρ
  settlement : Option τ
deriving DecidableEq, Repr

structure Prepared (τ : Type) where
  publishPacket : Bool
  stopPump : Bool
  publishPacketOverride : Option Bytes
  settlement : Option τ
deriving DecidableEq, Repr

/-- The callbacks of the configuration, over their context `σ`. A dispatch leaves a result `κ` for
    the completion. -/
structure Callbacks (σ ρ τ κ : Type) where
  prepare : Option (σ → Version → PacketView → σ × Option ρ × Except Errno (Prepared τ))
  dispatch : σ → Message ρ τ → σ × Except Errno Unit × κ
  publishComplete : Option (σ → Message ρ τ → κ → σ × Except Errno Unit)

/-- What the callbacks were given. -/
inductive Event (ρ τ : Type) where
  | prepared (packet : PacketView)
  | dispatched (message : Message ρ τ)
deriving DecidableEq, Repr

/-- The ingress without its framing buffer, with all messages published so far and the record of
    what the callbacks were given. -/
structure State (σ ρ τ : Type) where
  version : Version
  route : Option ρ
  disconnectReason : UInt8
  context : σ
  published : Nat
  log : List (Event ρ τ)

/-- `flowie_ingress_parse_disconnect_reason`. -/
def parseDisconnectReason : ParseError → UInt8
  | .malformed => 0x81
  | .protocolError => 0x82
  | .tooLarge => 0x95
  | _ => 0

/-- `flowie_ingress_parse_error`. -/
def parseError : ParseError → Errno
  | .tooLarge => .emsgsize
  | .invalidArgument => .einval
  | _ => .eproto

/-- `flowie_mqtt_message_flags_encode`. -/
def messageFlagsEncode (version : Version) (fixedFlags : Nat) : Except Errno Nat :=
  if !version.supported ∨ fixedFlags > 0x0f then .error .einval else .ok (version.toByte.toNat * 256 + fixedFlags)

/-- `flowie_ingress_message_create`; the route and the settlement were checked when they were set. -/
def messageCreate (ingress : State σ ρ τ) (packet : PacketView) (bytes : Bytes) (settlement : Option τ) :
    Except Errno (Message ρ τ) :=
  match messageFlagsEncode ingress.version packet.flags with
  | .error e => .error e
  | .ok flags => .ok ⟨packet.type, flags, bytes, ingress.route, settlement⟩

/-- What became of a packet: it was refused and stays in the buffer, it was taken and then failed,
    or it was handled. -/
inductive Accepted (σ ρ τ : Type) where
  | refused (ingress : State σ ρ τ) (e : Errno)
  | failed (ingress : State σ ρ τ) (e : Errno)
  | handled (ingress : State σ ρ τ) (stop : Bool)

variable (callbacks : Callbacks σ ρ τ κ)

/-- The completion of a message that was dispatched, where there is one. -/
def complete (context : σ) (message : Message ρ τ) (result : κ) : σ × Except Errno Unit :=
  match callbacks.publishComplete with
  | none => (context, .ok ())
  | some publishComplete => publishComplete context message result

/-- The message of a packet is dispatched and its completion run. -/
def publish (ingress : State σ ρ τ) (packet : PacketView) (bytes : Bytes)
    (settlement : Option τ) (stop : Bool) : Accepted σ ρ τ :=
  match messageCreate ingress packet bytes settlement with
  | .error e => .refused ingress e
  | .ok message =>
    let (context, status, result) := callbacks.dispatch ingress.context message
    let (context, completion) := complete callbacks context message result
    let ingress := { ingress with context := context, log := ingress.log ++ [Event.dispatched message] }
    match status, completion with
    | .error e, _ => .failed ingress e
    | .ok _, .error e => .failed ingress e
    | .ok _, .ok _ => .handled { ingress with published := ingress.published + 1 } stop

def prepareDisconnectReason (reason : UInt8) : Errno → UInt8
  | .eproto => 0x82
  | .emsgsize => 0x95
  | _ => reason

/-- A packet is prepared and, where the callback asks for it, published. -/
def prepareAndPublish (ingress : State σ ρ τ) (packet : PacketView) (bytes : Bytes) :
    Accepted σ ρ τ :=
  match callbacks.prepare with
  | none => publish callbacks ingress packet bytes none false
  | some prepare =>
    let (context, route, answer) := prepare ingress.context ingress.version packet
    let ingress :=
      { ingress with
        context := context, route := route.or ingress.route, log := ingress.log ++ [Event.prepared packet] }
    match answer with
    | .error e =>
      .refused { ingress with disconnectReason := prepareDisconnectReason ingress.disconnectReason e } e
    | .ok prepared =>
      if !prepared.publishPacket then .handled ingress prepared.stopPump
      else
        publish callbacks ingress packet (prepared.publishPacketOverride.getD bytes) prepared.settlement
          prepared.stopPump

section

variable [Vstr]

/-- The version of the connection after a packet: the first one is a CONNECT and fixes it, and no other
    is. -/
def connectionVersion (version : Version) (packet : PacketView) : Option Version :=
  if version = .unspecified then
    if packet.type ≠ .connect then none
    else
      match connectParse packet with
      | .error _ => none
      | .ok connect => some connect.version
  else if packet.type = .connect then none
  else some version

/-- A packet of the given bytes. -/
def accept (callbacks : Callbacks σ ρ τ κ) (ingress : State σ ρ τ) (packet : PacketView) (bytes : Bytes) :
    Accepted σ ρ τ :=
  match connectionVersion ingress.version packet with
  | none => .refused { ingress with disconnectReason := 0x82 } .eproto
  | some version => prepareAndPublish callbacks { ingress with version := version } packet bytes

def Accepted.move (framing : Bytes) (consumed : Nat) : Accepted σ ρ τ → Move (State σ ρ τ) UInt8 Errno
  | .refused ingress e => .fail ingress framing e
  | .failed ingress e => .fail ingress (framing.drop consumed) e
  | .handled ingress true => .stop ingress (framing.drop consumed)
  | .handled ingress false => .next ingress (framing.drop consumed)

/-- One round of the loop of `flowie_ingress_pump`. -/
def pumpStep (callbacks : Callbacks σ ρ τ κ) (maxPacketSize : Nat) (ingress : State σ ρ τ) (framing : Bytes) :
    Move (State σ ρ τ) UInt8 Errno :=
  if framing.isEmpty then .wait
  else
    match packetParse framing ingress.version maxPacketSize with
    | .error .needMore => .wait
    | .error e => .fail { ingress with disconnectReason := parseDisconnectReason e } framing (parseError e)
    | .ok (packet, consumed) =>
      if consumed = 0 ∨ consumed > framing.length then
        .fail { ingress with disconnectReason := 0x81 } framing .eproto
      else (accept callbacks ingress packet (framing.take consumed)).move framing consumed

end

/-- `flowie_ingress_config_t`. -/
structure Config (σ ρ τ κ : Type) where
  callbacks : Callbacks σ ρ τ κ
  context : σ
  version : Version
  maxPacketSize : Nat
  route : Option ρ

/-- The capacity of the framing buffer, which is the limit for a packet. -/
abbrev Config.limit (config : Config σ ρ τ κ) : Nat := packetLimit config.maxPacketSize

/-- The round of the pump with these settings. -/
abbrev Config.step [Vstr] (config : Config σ ρ τ κ) : State σ ρ τ → Bytes → Move (State σ ρ τ) UInt8 Errno :=
  pumpStep config.callbacks (packetLimit config.maxPacketSize)

/-- `flowie_ingress_t`. -/
structure Handle (σ ρ τ : Type) where
  state : State σ ρ τ
  framing : Bytes
  terminalError : Option Errno

/-- `flowie_ingress_create`. -/
def create (config : Config σ ρ τ κ) : Option (Handle σ ρ τ) :=
  if config.limit > maxWirePacketSize then none
  else some ⟨⟨config.version, config.route, 0, config.context, 0, []⟩, [], none⟩

/-- The code of a feed that ended; a full buffer is too small for the packet in it. -/
def failureErrno : Failure Errno → Errno
  | .failed e => e
  | .full => .emsgsize

section

variable [Vstr] (config : Config σ ρ τ κ) (ingress : Handle σ ρ τ)

/-- The loop of `flowie_ingress_feed` over the data. -/
def feedData (data : Bytes) :
    Rest (State σ ρ τ) UInt8 (Failure Errno) :=
  Pump.feed config.step config.limit ingress.state ingress.framing data

/-- `flowie_ingress_feed`: the ingress, the number of messages published and the code. -/
def feed (data : Bytes) :
    Handle σ ρ τ × Nat × Except Errno Unit :=
  match ingress.terminalError with
  | some e => (ingress, 0, .error e)
  | none =>
    let fed := feedData config ingress data
    match fed.error with
    | some f =>
      (⟨fed.state, fed.buffer, some (failureErrno f)⟩, fed.state.published - ingress.state.published,
        .error (failureErrno f))
    | none => (⟨fed.state, fed.buffer, none⟩, fed.state.published - ingress.state.published, .ok ())

/-- The ingress after the reads of a stream. -/
def feeds (chunks : List Bytes) : Handle σ ρ τ :=
  chunks.foldl (fun ingress data => (feed config ingress data).1) ingress

def NeverStops (callbacks : Callbacks σ ρ τ κ) : Prop :=
  ∀ prepare, callbacks.prepare = some prepare →
    ∀ context version packet prepared, (prepare context version packet).2.2 = .ok prepared → prepared.stopPump = false

variable {callbacks : Callbacks σ ρ τ κ} {ingress : State σ ρ τ} {packet : PacketView}
  {ingress' : State σ ρ τ} {bytes : Bytes} {stop : Bool}

omit [Vstr] in
theorem publish_stop {settlement : Option τ} {stop' : Bool}
    (h : publish callbacks ingress packet bytes settlement stop = .handled ingress' stop') : stop' = stop := by
  unfold publish at h
  split at h
  · cases h
  dsimp only at h
  split at h <;> cases h
  rfl

theorem accept_goes_on (hstops : NeverStops callbacks)
    (h : accept callbacks ingress packet bytes = .handled ingress' stop) : stop = false := by
  unfold accept at h
  split at h
  · cases h
  unfold prepareAndPublish at h
  split at h
  · exact publish_stop h
  rename_i prepare hprep
  dsimp only at h
  split at h
  · cases h
  rename_i prepared hprd
  have hstop := hstops prepare hprep _ _ _ prepared hprd
  split at h
  · cases h
    exact hstop
  · rw [publish_stop h, hstop]

variable {maxPacketSize : Nat} {framing : Bytes}

omit [Vstr] in
/-- A packet never leaves the pump waiting; it stops the pump when it says so, and is taken off the buffer. -/
theorem Accepted.move_spec (accepted : Accepted σ ρ τ) (framing : Bytes) (consumed : Nat) :
    accepted.move framing consumed ≠ .wait ∧
      (∀ ingress rest, accepted.move framing consumed = .stop ingress rest →
        accepted = .handled ingress true ∧ rest = framing.drop consumed) ∧
      ∀ ingress rest, accepted.move framing consumed = .next ingress rest →
        accepted = .handled ingress false ∧ rest = framing.drop consumed := by
  cases accepted with
  | refused ingress e => simp [move]
  | failed ingress e => simp [move]
  | handled ingress stop => cases stop <;> simp +contextual [move]

/-- A round that finds a packet. -/
theorem pumpStep_of_parse {consumed : Nat} (h : packetParse framing ingress.version maxPacketSize = .ok (packet, consumed)) :
    0 < consumed ∧ consumed ≤ framing.length ∧
      pumpStep callbacks maxPacketSize ingress framing =
        (accept callbacks ingress packet (framing.take consumed)).move framing consumed := by
  obtain ⟨hle, -⟩ := packetParse_take h
  have hpos : 0 < consumed := by
    obtain ⟨first, lenBytes, rest, -, rfl⟩ := framed_of_parse h
    omega
  refine ⟨hpos, hle, ?_⟩
  have hne : framing ≠ [] := by
    rintro rfl
    rw [length_nil] at hle
    omega
  unfold pumpStep
  rw [if_neg (by simpa using hne), h]
  dsimp only
  rw [if_neg (by omega)]

/-- A round that finds bytes which are no packet. -/
theorem pumpStep_of_error {e : ParseError} (hne : framing ≠ [])
    (h : packetParse framing ingress.version maxPacketSize = .error e) (he : e ≠ .needMore) :
    pumpStep callbacks maxPacketSize ingress framing =
      .fail { ingress with disconnectReason := parseDisconnectReason e } framing (parseError e) := by
  unfold pumpStep
  rw [if_neg (by simpa using hne), h]
  cases e with
  | needMore => exact absurd rfl he
  | _ => rfl

/-- What a round of the pump finds: nothing yet, bytes that are no packet, or a packet. -/
theorem pumpStep_cases (callbacks : Callbacks σ ρ τ κ) (maxPacketSize : Nat) (ingress : State σ ρ τ) (framing : Bytes) :
    (pumpStep callbacks maxPacketSize ingress framing = .wait ∧
      (framing = [] ∨ packetParse framing ingress.version maxPacketSize = .error .needMore)) ∨
    (framing ≠ [] ∧ ∃ e, packetParse framing ingress.version maxPacketSize = .error e ∧ e ≠ .needMore) ∨
    ∃ packet consumed, packetParse framing ingress.version maxPacketSize = .ok (packet, consumed) := by
  by_cases hne : framing = []
  · subst hne
    exact .inl ⟨rfl, .inl rfl⟩
  cases hpar : packetParse framing ingress.version maxPacketSize with
  | ok r => exact .inr (.inr ⟨r.1, r.2, rfl⟩)
  | error e =>
    by_cases he : e = .needMore
    · subst he
      refine .inl ⟨?_, .inr rfl⟩
      unfold pumpStep
      rw [hpar, ite_self]
    · exact .inr (.inl ⟨hne, e, rfl, he⟩)

/-- A round that goes on or stops has accepted a packet. -/
theorem pumpStep_packet {move : Move (State σ ρ τ) UInt8 Errno} (h : pumpStep callbacks maxPacketSize ingress framing = move)
    (hwait : move ≠ .wait) (hfail : ∀ failed rest e, move ≠ .fail failed rest e) :
    ∃ packet consumed, 0 < consumed ∧ consumed ≤ framing.length ∧
      (accept callbacks ingress packet (framing.take consumed)).move framing consumed = move := by
  obtain ⟨hstep, -⟩ | ⟨hne, e, hpar, he⟩ | ⟨packet, consumed, hpar⟩ :=
    pumpStep_cases callbacks maxPacketSize ingress framing
  · exact absurd (h.symm.trans hstep) hwait
  · exact absurd (h.symm.trans (pumpStep_of_error hne hpar he)) (hfail _ _ _)
  · obtain ⟨hpos, hle, hstep⟩ := pumpStep_of_parse hpar
    exact ⟨packet, consumed, hpos, hle, hstep.symm.trans h⟩

/-- A round that goes on or stops has handled a packet and taken it off the front of the buffer. -/
theorem pumpStep_handled {rest : Bytes} (h : pumpStep callbacks maxPacketSize ingress framing = .next ingress' rest ∨
      pumpStep callbacks maxPacketSize ingress framing = .stop ingress' rest) :
    rest <:+ framing ∧ rest.length < framing.length ∧
      ∃ packet consumed stop, accept callbacks ingress packet (framing.take consumed) = .handled ingress' stop := by
  rcases h with h | h
  all_goals
    obtain ⟨packet, consumed, hpos, hle, hmove⟩ := pumpStep_packet h (by simp) (by simp)
  · obtain ⟨haccept, rfl⟩ := (Accepted.move_spec ..).2.2 _ _ hmove
    exact ⟨drop_suffix .., by rw [length_drop]; omega, packet, consumed, false, haccept⟩
  · obtain ⟨haccept, rfl⟩ := (Accepted.move_spec ..).2.1 _ _ hmove
    exact ⟨drop_suffix .., by rw [length_drop]; omega, packet, consumed, true, haccept⟩

/-- A round of the pump looks only at the first packet. -/
theorem streaming_pumpStep (hstops : NeverStops callbacks) (maxPacketSize : Nat) :
    Streaming (pumpStep callbacks maxPacketSize) where
  goes_on ingress framing ingress' rest h := by
    obtain ⟨packet, consumed, -, -, hmove⟩ := pumpStep_packet h (by simp) (by simp)
    cases accept_goes_on hstops ((Accepted.move_spec ..).2.1 _ _ hmove).1
  shortens _ _ _ _ h := (pumpStep_handled (.inl h)).2.1
  append ingress framing more h := by
    obtain ⟨hstep, -⟩ | ⟨hne, e, hpar, he⟩ | ⟨packet, consumed, hpar⟩ :=
      pumpStep_cases callbacks maxPacketSize ingress framing
    · exact absurd hstep h
    · rw [pumpStep_of_error hne hpar he, pumpStep_of_error (by simp [hne]) (packetParse_refused hpar he) he]
      rfl
    · obtain ⟨-, hle, hstep⟩ := pumpStep_of_parse hpar
      obtain ⟨-, -, hmore⟩ := pumpStep_of_parse (packetParse_append hpar more)
      rw [hstep, hmore, take_append_of_le_length hle]
      cases accept callbacks ingress packet (framing.take consumed) with
      | refused ingress e => rfl
      | failed ingress e => simp only [Accepted.move, Move.append, drop_append_of_le_length hle]
      | handled ingress stop =>
        cases stop <;> simp only [Accepted.move, Move.append, drop_append_of_le_length hle]

/-- A pump that waits has room for another byte, when the longest length fits the limit with a byte to
    spare. -/
theorem room_of_wait (hlim : 6 ≤ packetLimit maxPacketSize) (ingress : State σ ρ τ) (framing : Bytes)
    (h : pumpStep callbacks (packetLimit maxPacketSize) ingress framing = .wait) :
    framing.length < packetLimit maxPacketSize := by
  have hself : packetLimit (packetLimit maxPacketSize) = packetLimit maxPacketSize := if_neg (by omega)
  obtain ⟨-, rfl | hpar⟩ | ⟨hne, e, hpar, he⟩ | ⟨packet, consumed, hpar⟩ :=
    pumpStep_cases callbacks (packetLimit maxPacketSize) ingress framing
  · rw [length_nil]
    omega
  · have hlen := length_of_packetParse_needMore hpar
    omega
  · rw [pumpStep_of_error hne hpar he] at h
    cases h
  · rw [(pumpStep_of_parse hpar).2.2] at h
    exact absurd h (Accepted.move_spec ..).1

def Handle.ofRest (fed : Rest (State σ ρ τ) UInt8 (Failure Errno)) : Handle σ ρ τ :=
  ⟨fed.state, fed.buffer, fed.error.map failureErrno⟩

open Handle

/-- A feed that is not refused at once leaves the ingress where its loop rests. -/
theorem feed_eq {ingress : Handle σ ρ τ} (h : ingress.terminalError = none) (data : Bytes) :
    (feed config ingress data).1 = ofRest (feedData config ingress data) := by
  unfold feed
  rw [h]
  cases herr : (feedData config ingress data).error with
  | some f => simp only [ofRest, herr, map_some]
  | none => simp only [ofRest, herr, map_none]

/-- The reads of a stream are the chunks of the pump. -/
theorem feeds_ofRest (fed : Rest (State σ ρ τ) UInt8 (Failure Errno)) (chunks : List Bytes) :
    feeds config (ofRest fed) chunks =
      ofRest (feedAll config.step config.limit fed chunks) := by
  induction chunks generalizing fed with
  | nil => rfl
  | cons chunk chunks ih =>
    rw [feedAll]
    cases herr : fed.error with
    | some f =>
      have hstays : (feed config (ofRest fed) chunk).1 = ofRest fed := by
        simp only [feed, ofRest, herr, map_some]
      show feeds config (feed config (ofRest fed) chunk).1 chunks = _
      rw [hstays, ih]
    | none =>
      have hnone : (ofRest fed).terminalError = none := by
        simp only [ofRest, herr, map_none]
      show feeds config (feed config (ofRest fed) chunk).1 chunks = _
      rw [feed_eq config hnone, ih]
      rfl

/-- A connection sees the same packets and ends in the same state however its stream is cut into reads:
    with the same record of what the callbacks were given, the same version, disconnect reason and terminal
    error and, where there is none, the same unfinished packet. The framing buffer is never full of an
    unfinished packet when the limit is at least six bytes. -/
theorem ingress_is_chunk_independent (config : Config σ ρ τ κ) (ingress : Handle σ ρ τ)
    (hcr : create config = some ingress) (hstops : NeverStops config.callbacks) :
    (∀ chunks chunks' : List Bytes, chunks.flatten = chunks'.flatten →
      (feeds config ingress chunks).state = (feeds config ingress chunks').state ∧
      (feeds config ingress chunks).terminalError = (feeds config ingress chunks').terminalError ∧
      ((feeds config ingress chunks).terminalError = none →
        (feeds config ingress chunks).framing = (feeds config ingress chunks').framing)) ∧
    (6 ≤ packetLimit config.maxPacketSize →
      ∀ chunks data, (feeds config ingress chunks).terminalError = none →
        (feedData config (feeds config ingress chunks) data).error ≠ some .full) := by
  have hs := streaming_pumpStep hstops config.limit
  obtain ⟨s, rfl⟩ : ∃ s, ingress = ofRest ⟨s, [], none⟩ := by
    unfold create at hcr
    split_ifs at hcr
    · cases hcr
      exact ⟨_, rfl⟩
  have hwait : config.step s [] = .wait := rfl
  refine ⟨?_, ?_⟩
  · intro chunks chunks' hflatten
    have hsame : Same (feedAll _ config.limit ⟨s, [], none⟩ chunks) _ :=
      feedAll_same hs hwait hflatten
    rw [feeds_ofRest, feeds_ofRest]
    refine ⟨hsame.state, congrArg (Option.map failureErrno) hsame.error, fun hnone => hsame.buffer ?_⟩
    simpa [ofRest] using hnone
  · intro hlim chunks data hnone
    have hsame : Same (feedAll _ config.limit ⟨s, [], none⟩ chunks) _ :=
      feedAll_absorb hs hwait
    rw [feeds_ofRest] at hnone ⊢
    have herr : (feedAll config.step config.limit ⟨s, [], none⟩ chunks).error = none := by
      simpa [ofRest] using hnone
    have hrests := wait_of_absorb hs hwait (hsame.error.symm.trans herr)
    rw [← hsame.state, ← hsame.buffer herr] at hrests
    exact feed_ne_full hs (room_of_wait hlim) hrests

end

section Stop

/-- The ingress and the error a packet leaves. -/
def Accepted.outcome : Accepted σ ρ τ → State σ ρ τ × Option Errno
  | .refused ingress e | .failed ingress e => (ingress, some e)
  | .handled ingress _ => (ingress, none)

inductive Call where
  | feed (data : Bytes)
  | resume

def Call.data : Call → Bytes
  | .feed data => data
  | .resume => []

variable [Vstr] (config : Config σ ρ τ κ)

/-- `flowie_ingress_pump`. -/
def pump (ingress : State σ ρ τ) (framing : Bytes) : Rest (State σ ρ τ) UInt8 Errno :=
  drain config.step ingress framing

/-- `flowie_ingress_resume`. -/
def resume (ingress : Handle σ ρ τ) : Handle σ ρ τ × Nat × Except Errno Unit :=
  match ingress.terminalError with
  | some e => (ingress, 0, .error e)
  | none =>
    let pumped := pump config ingress.state ingress.framing
    (⟨pumped.state, pumped.buffer, pumped.error⟩, pumped.state.published - ingress.state.published,
      pumped.error.elim (.ok ()) .error)

def Call.next (ingress : Handle σ ρ τ) : Call → Handle σ ρ τ
  | .feed data => (Ingress.feed config ingress data).1
  | .resume => (Ingress.resume config ingress).1

def runCalls (ingress : Handle σ ρ τ) (calls : List Call) : Handle σ ρ τ :=
  calls.foldl (fun ingress call => call.next config ingress) ingress

/-- The rounds of a call: the ingress and the framing buffer it pumps, with the input that is not in the buffer yet. -/
def Call.Reaches (ingress : Handle σ ρ τ) (call : Call) (reached : State σ ρ τ × Bytes × Bytes) : Prop :=
  match call with
  | .feed data => Pump.Reaches config.step config.limit ingress.state ingress.framing data reached
  | .resume => Rounds config.step (ingress.state, ingress.framing) (reached.1, reached.2.1) ∧ reached.2.2 = []

/-- A call takes its bytes in order: what it has not taken yet is the end of what was buffered and read. -/
theorem Call.suffix_of_reaches {config : Config σ ρ τ κ} {handle : Handle σ ρ τ} {call : Call}
    {reached : State σ ρ τ × Bytes × Bytes} (h : call.Reaches config handle reached) : reached.2.1 ++ reached.2.2 <:+ handle.framing ++ call.data := by
  have hsuffix : ∀ ingress framing after left, config.step ingress framing = .next after left ∨
      config.step ingress framing = .stop after left → left <:+ framing := fun _ _ _ _ h => (pumpStep_handled h).1
  cases call with
  | feed data => exact Pump.suffix_of_reaches hsuffix h
  | resume =>
    rw [h.2, append_nil, Call.data, append_nil]
    exact Pump.suffix_of_rounds hsuffix h.1

/-- The round prepares the packet, and the callback asks to stop the pump. -/
def AsksStop (ingress : State σ ρ τ) (framing : Bytes) (packet : PacketView) (consumed : Nat) : Prop :=
  packetParse framing ingress.version config.limit = .ok (packet, consumed) ∧
    ∃ version prepare prepared, connectionVersion ingress.version packet = some version ∧
      config.callbacks.prepare = some prepare ∧ (prepare ingress.context version packet).2.2 = .ok prepared ∧
      prepared.stopPump = true

/-- Another pump has nothing to do: there is no input, or only the beginning of a packet, for which there is room. -/
def NoInputLeft (ingress : State σ ρ τ) (framing rest : Bytes) : Prop :=
  rest = [] ∨ framing.length + rest.length ≤ config.limit ∧
    packetParse (framing ++ rest) ingress.version config.limit = .error .needMore

variable {config} {ingress after : State σ ρ τ} {packet : PacketView} {framing rest : Bytes} {consumed : Nat}
  {handle : Handle σ ρ τ} {call : Call}

/-- What is prepared is dispatched at most once. -/
theorem accept_log {callbacks : Callbacks σ ρ τ κ} (hprep : callbacks.prepare.isSome) {version : Version}
    (hver : connectionVersion ingress.version packet = some version) (bytes : Bytes) :
    ∃ dispatched : Option (Message ρ τ), (accept callbacks ingress packet bytes).outcome.1.log =
      ingress.log ++ .prepared packet :: dispatched.toList.map .dispatched := by
  obtain ⟨prepare, hprep⟩ := isSome_iff_exists.1 hprep
  unfold accept prepareAndPublish
  rw [hver, hprep]
  dsimp only
  split
  · exact ⟨none, rfl⟩
  split
  · exact ⟨none, rfl⟩
  unfold publish
  split
  · exact ⟨none, rfl⟩
  rename_i message _
  dsimp only
  split <;> exact ⟨some message, by simp [Accepted.outcome]⟩

/-- The pump does not go on when it was asked to stop. -/
theorem AsksStop.accept_ne (h : AsksStop config ingress framing packet consumed) (bytes : Bytes) :
    accept config.callbacks ingress packet bytes ≠ .handled after false := by
  obtain ⟨-, version, prepare, prepared, hver, hprep, hprd, hstop⟩ := h
  unfold accept prepareAndPublish
  rw [hver, hprep]
  dsimp only
  rw [hprd]
  dsimp only
  rw [hstop]
  split
  · simp
  · exact fun haft => by cases publish_stop haft

theorem resume_eq (h : handle.terminalError = none) : Call.resume.next config handle =
    ⟨(pump config handle.state handle.framing).state, (pump config handle.state handle.framing).buffer,
      (pump config handle.state handle.framing).error⟩ := by
  simp [Call.next, Ingress.resume, h]

/-- A call whose rounds have led to a failure ends with it. One whose rounds have led to a stop feeds the input that is
    left to the ingress as the packet left it. -/
theorem Call.next_of_reaches (hnone : handle.terminalError = none) (h : call.Reaches config handle (ingress, framing, rest)) :
    (∀ failed left e, config.step ingress framing = .fail failed left e → call.next config handle = ⟨failed, left, some e⟩) ∧
    ∀ after left, config.step ingress framing = .stop after left →
      call.next config handle = (Ingress.feed config ⟨after, left, none⟩ rest).1 ∧ (rest = [] ∨ left.length < config.limit) := by
  have hnext : ∀ ingress framing after left, config.step ingress framing = .next after left →
      left.length < framing.length := fun _ _ _ _ h => (pumpStep_handled (.inl h)).2.1
  cases call with
  | feed data =>
    obtain ⟨hfail, hstop⟩ := feed_of_reaches hnext (fun _ _ _ _ h => (pumpStep_handled (.inr h)).2.1) h
    have heq : (Call.feed data).next config handle = _ := feed_eq config hnone data
    rw [heq]
    refine ⟨fun failed left e hstep => ?_, fun after left hstep => ?_⟩
    · rw [feedData, hfail failed left e hstep]
      rfl
    · obtain ⟨hfeed, hroom⟩ := hstop after left hstep
      rw [feed_eq config rfl, feedData, hfeed]
      exact ⟨rfl, .inr hroom⟩
  | resume =>
    obtain ⟨hrounds, rfl : rest = []⟩ := h
    have hdr : pump config handle.state handle.framing = _ := drain_rounds hnext hrounds
    rw [resume_eq hnone, hdr]
    refine ⟨fun failed left e hstep => ?_, fun after left hstep => ?_⟩
    · rw [drain_fail hstep]
    · rw [drain_stop hstep]
      exact ⟨rfl, .inl rfl⟩

theorem needMore_of_wait (hne : framing ≠ []) (h : config.step ingress framing = .wait) :
    packetParse framing ingress.version config.limit = .error .needMore := by
  obtain ⟨-, hnil | hmore⟩ | ⟨-, e, hpar, he⟩ | ⟨packet, consumed, hpar⟩ :=
    pumpStep_cases config.callbacks config.limit ingress framing
  · exact absurd hnil hne
  · exact hmore
  · cases (pumpStep_of_error hne hpar he).symm.trans h
  · exact absurd ((pumpStep_of_parse hpar).2.2.symm.trans h) (Accepted.move_spec ..).1

/-- When no input is left, a feed puts what there is into the buffer. -/
theorem feed_of_noInputLeft (h : NoInputLeft config ingress framing rest) :
    (feed config ⟨ingress, framing, none⟩ rest).1 = ⟨ingress, framing ++ rest, none⟩ := by
  rw [feed_eq config rfl]
  by_cases hrest : rest = []
  · rw [hrest, append_nil]
    rfl
  obtain ⟨hfits, hmore⟩ := h.resolve_left hrest
  have hpos := length_pos_iff.2 hrest
  have hwait : config.step ingress (framing ++ rest) = .wait := by
    unfold Config.step pumpStep
    rw [hmore, ite_self]
  have hroom : framing.length < config.limit := by omega
  have hmade : Pump.feed config.step config.limit ingress framing rest = _ := feed_made hrest (makeRoom_of_lt hroom) hroom
  show Handle.ofRest (Pump.feed config.step config.limit ingress framing rest) = _
  rw [hmade, take_of_length_le (by omega), drain_wait hwait, drop_of_length_le (by omega)]
  rfl

section
variable (hprep : config.callbacks.prepare.isSome)
include hprep

/-- A round that goes on or stops has prepared a packet. -/
theorem pumpStep_prepares
    (h : config.step ingress framing = .next after rest ∨ config.step ingress framing = .stop after rest) :
    ingress.log.length < after.log.length := by
  obtain ⟨-, -, packet, consumed, stop, haccept⟩ := pumpStep_handled h
  cases hver : connectionVersion ingress.version packet with
  | none => simp [accept, hver] at haccept
  | some version =>
    obtain ⟨dispatched, hlog⟩ := accept_log hprep hver (framing.take consumed)
    rw [haccept] at hlog
    rw [show after.log = _ from hlog, length_append, length_cons]
    omega

/-- The first round of a feed prepares a packet, and the record does not get shorter. -/
theorem feed_grows {left : Bytes} (hrest : rest ≠ []) (hroom : framing.length < config.limit)
    (hfst : config.step ingress (framing ++ rest.take (config.limit - framing.length)) = .next after left ∨
      config.step ingress (framing ++ rest.take (config.limit - framing.length)) = .stop after left)
    (hnone : (feedData config ⟨ingress, framing, none⟩ rest).error = none) :
    ingress.log.length < (feedData config ⟨ingress, framing, none⟩ rest).state.log.length :=
  @feed_keeps _ _ _ config.step _ _ _ _ _ (fun reached => ingress.log.length < reached.log.length)
    (fun _ _ _ _ hlt hstep => Nat.lt_trans hlt (pumpStep_prepares hprep hstep)) _ hrest hroom hfst
    (pumpStep_prepares hprep hfst) hnone

/-- A feed that prepares nothing and does not fail leaves no input to another pump. -/
theorem noInputLeft_of_feed (hroom : framing.length < config.limit)
    (hlog : (feedData config ⟨ingress, framing, none⟩ rest).state.log = ingress.log)
    (hnone : (feedData config ⟨ingress, framing, none⟩ rest).error = none) : NoInputLeft config ingress framing rest := by
  refine or_iff_not_imp_left.2 fun hrest => ?_
  have hmade : feedData config ⟨ingress, framing, none⟩ rest = _ := feed_made hrest (makeRoom_of_lt hroom) hroom
  cases hmove : config.step ingress (framing ++ rest.take (config.limit - framing.length)) with
  | wait =>
    rw [hmade, drain_wait hmove] at hnone
    by_cases hfits : framing.length + rest.length ≤ config.limit
    · rw [take_of_length_le (by omega)] at hmove
      exact ⟨hfits, needMore_of_wait (by simp [hrest]) hmove⟩
    · -- the buffer is full of an unfinished packet
      dsimp only at hnone
      rw [feed_full (by simpa using by omega) hmove (by rw [length_append, length_take]; omega)] at hnone
      cases hnone
  | fail failed left e =>
    rw [hmade, drain_fail hmove] at hnone
    cases hnone
  | stop after left =>
    exact absurd hlog (Nat.ne_of_gt (feed_grows hprep hrest hroom (.inr hmove) hnone) ∘ congrArg length)
  | next after left =>
    exact absurd hlog (Nat.ne_of_gt (feed_grows hprep hrest hroom (.inl hmove) hnone) ∘ congrArg length)

end

/-- Whichever round of a run asks to stop the pump, whatever is buffered and however the input is cut: its packet is
    dispatched at most once. The call prepares no other packet, and fails only with what became of this one, exactly when
    no input is left for another pump. The bytes behind the packet, which are the end of what was buffered and read, are
    then left to the later calls of the run. -/
theorem stop_pump_respected (before later : List Call)
    (hnone : (runCalls config handle before).terminalError = none)
    (hreaches : call.Reaches config (runCalls config handle before) (ingress, framing, rest))
    (hstop : AsksStop config ingress framing packet consumed) :
    let accepted := (accept config.callbacks ingress packet (framing.take consumed)).outcome
    let ended := call.next config (runCalls config handle before)
    framing ++ rest <:+ (runCalls config handle before).framing ++ call.data ∧
    (∃ dispatched : Option (Message ρ τ),
      accepted.1.log = ingress.log ++ .prepared packet :: dispatched.toList.map .dispatched) ∧
    ((ended.state.log = accepted.1.log ∧ ended.terminalError = accepted.2) ↔
      (accepted.2 = none → NoInputLeft config accepted.1 (framing.drop consumed) rest)) ∧
    (accepted.2 = none → NoInputLeft config accepted.1 (framing.drop consumed) rest →
      runCalls config handle (before ++ call :: later) =
        runCalls config ⟨accepted.1, framing.drop consumed ++ rest, none⟩ later) := by
  obtain ⟨hfail, hgoes⟩ := Call.next_of_reaches hnone hreaches
  obtain ⟨-, -, hstep⟩ := pumpStep_of_parse hstop.1
  obtain ⟨version, prepare, -, hver, hcb, -⟩ := hstop.2
  have hprep : config.callbacks.prepare.isSome := by rw [hcb]; rfl
  refine ⟨Call.suffix_of_reaches hreaches, accept_log hprep hver _, ?_⟩
  cases haccept : accept config.callbacks ingress packet (framing.take consumed) with
  | refused failed e | failed failed e =>
    rw [haccept] at hstep
    rw [hfail _ _ _ hstep]
    exact ⟨iff_of_true ⟨rfl, rfl⟩ nofun, nofun⟩
  | handled after stop =>
    cases stop with
    | false => exact absurd haccept (hstop.accept_ne _)
    | true =>
      rw [haccept] at hstep
      obtain ⟨hended, hroom⟩ := hgoes _ _ hstep
      rw [hended, runCalls, foldl_append, foldl_cons]
      refine ⟨⟨fun h _ => ?_, fun h => ?_⟩, fun _ hleft => ?_⟩
      · rw [feed_eq config rfl] at h
        exact hroom.elim .inl (noInputLeft_of_feed hprep · h.1 (map_eq_none_iff.1 h.2))
      · have heq : (feed config ⟨after, framing.drop consumed, none⟩ rest).1 = _ := feed_of_noInputLeft (h rfl)
        rw [heq]
        exact ⟨rfl, rfl⟩
      · exact congrArg (runCalls config · later) (hended.trans (feed_of_noInputLeft hleft))

/-- With a limit of at least six bytes the reads of a stream end as one pump over the whole of it would, in a buffer
    without a bound. -/
theorem feeds_refine_one_pump (hcr : create config = some handle) (hstops : NeverStops config.callbacks)
    (hlim : 6 ≤ config.limit) (chunks : List Bytes) : let after := feeds config handle chunks
    Same ⟨after.state, after.framing, after.terminalError⟩ (pump config handle.state chunks.flatten) := by
  obtain ⟨s, rfl⟩ : ∃ s, handle = .ofRest ⟨s, [], none⟩ := by
    unfold create at hcr
    split_ifs at hcr
    cases hcr
    exact ⟨_, rfl⟩
  have hs := streaming_pumpStep hstops config.limit
  have hwait : config.step s [] = .wait := rfl
  have hsame : Same (feedAll _ _ _ chunks) _ :=
    (feedAll_absorb hs hwait).trans (absorb_drain hs hwait (.inr (room_of_wait hlim)))
  rw [feeds_ofRest]
  refine ⟨hsame.state, ?_, fun hnone => hsame.buffer (map_eq_none_iff.1 hnone)⟩
  exact (congrArg (Option.map failureErrno) hsame.error).trans ((Option.map_map ..).trans (congrFun Option.map_id _))

end Stop

section Examples

attribute [local instance] asciiVstr

/-- A connection of MQTT 5 whose messages are all dispatched, with the given packet limit. -/
def plainConfig (maxPacketSize : Nat) : Config Unit Unit Unit Unit :=
  { callbacks := { prepare := none, dispatch := fun context _ => (context, .ok (), ()), publishComplete := none }
    context := ()
    version := .v5
    maxPacketSize := maxPacketSize
    route := none }

def plainHandle : Handle Unit Unit Unit := ⟨⟨.v5, none, 0, (), 0, []⟩, [], none⟩

theorem ingress_is_chunk_independent_ping :
    (feeds (plainConfig 64) plainHandle [[0xc0, 0x00]]).state.published = 1 ∧
    (feeds (plainConfig 64) plainHandle [[0xc0, 0x00]]).state =
      (feeds (plainConfig 64) plainHandle [[0xc0], [0x00]]).state :=
  have hindependent := ingress_is_chunk_independent (plainConfig 64) plainHandle rfl fun _ h => nomatch h
  ⟨rfl, (hindependent.1 [[0xc0, 0x00]] [[0xc0], [0x00]] rfl).1⟩

theorem feeds_refine_one_pump_pings : (feeds (plainConfig 64) plainHandle [[0xc0], [0, 0xc0, 0]]).state =
    (pump (plainConfig 64) plainHandle.state [0xc0, 0, 0xc0, 0]).state :=
  (feeds_refine_one_pump (rfl : create (plainConfig 64) = some plainHandle) nofun (by decide) [[0xc0], [0, 0xc0, 0]]).state

/-- With a limit of two bytes the buffer is full of the first two bytes of a packet whose length goes
    on. -/
theorem narrow_buffer_is_full :
    create (plainConfig 2) = some plainHandle ∧
    (feedData (plainConfig 2) plainHandle [0x30, 0x80, 0x01]).error = some .full ∧
    (feed (plainConfig 2) plainHandle [0x30, 0x80, 0x01]).2.2 = .error .emsgsize := by
  exact ⟨rfl, rfl, rfl⟩

/-- A connection of MQTT 5 whose prepare callback asks to stop after every packet. -/
def stoppingConfig (maxPacketSize : Nat) : Config Unit Unit Unit Unit :=
  { plainConfig maxPacketSize with
    callbacks := { (plainConfig maxPacketSize).callbacks with
      prepare := some fun context _ _ => (context, none, .ok ⟨false, true, none, none⟩) } }

/-- Two PINGREQs for which there is room: the second one stays in the buffer. -/
theorem stop_pump_respected_ping :
    runCalls (stoppingConfig 64) plainHandle [.feed [0xc0, 0, 0xc0, 0], .resume] =
      runCalls (stoppingConfig 64) ⟨⟨.v5, none, 0, (), 0, [.prepared ⟨.v5, .pingreq, 0, []⟩]⟩, [0xc0, 0], none⟩ [.resume] := by
  have hreaches : (Call.feed [0xc0, 0, 0xc0, 0]).Reaches (stoppingConfig 64) plainHandle
      (plainHandle.state, [0xc0, 0, 0xc0, 0], []) :=
    .pumping (by simp) (makeRoom_of_lt (by decide)) (by decide) .refl
  have hstop : AsksStop (stoppingConfig 64) plainHandle.state [0xc0, 0, 0xc0, 0] ⟨.v5, .pingreq, 0, []⟩ 2 :=
    ⟨rfl, .v5, _, _, rfl, rfl, rfl, rfl⟩
  exact (stop_pump_respected [] [.resume] rfl hreaches hstop).2.2.2 rfl (.inl rfl)

/-- With room for one of them the same call prepares both. -/
theorem stop_pump_ignored :
    AsksStop (stoppingConfig 2) plainHandle.state [0xc0, 0] ⟨.v5, .pingreq, 0, []⟩ 2 ∧
    (feed (stoppingConfig 2) plainHandle [0xc0, 0, 0xc0, 0]).1.state.log =
      [.prepared ⟨.v5, .pingreq, 0, []⟩, .prepared ⟨.v5, .pingreq, 0, []⟩] :=
  ⟨⟨rfl, .v5, _, _, rfl, rfl, rfl, rfl⟩, rfl⟩

end Examples

end Flowie.Ingress
