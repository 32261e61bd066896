import Flowie.Client.Worker
import Flowie.Client.Rules
import Flowie.Lib.Run
import Mathlib.Data.List.Infix

/-!
# The inbound QoS 2 packets of the client

`inbound_qos2` holds the identifiers the handlers accepted and no PUBREL has released. It is emptied when the
transport is closed and when a CONNECT begins, so it is the set of the connection and not of the session: a
retransmission on a later connection of the same session is given to the handlers again.
-/

namespace Flowie.MqttClient

open Outcome List Mqtt

/-- The identifiers of the session: those the handlers accepted that no PUBREL has released. A connection that
    does not resume the session begins with none. -/
def pendingStep (pending : List UInt16) : Observation → List UInt16
  | .publish publish _ accepted _ => if publish.qos = 2 ∧ accepted then publish.packetId :: pending else pending
  | .pubrel packetId => pending.filter (· ≠ packetId)
  | .connected cleanStart sessionPresent => if !cleanStart ∧ sessionPresent then pending else []
  | .closed => pending

/-- The identifiers of the connection: every connection begins with none and its end leaves none. -/
def hereStep (here : List UInt16) : Observation → List UInt16
  | .publish publish _ accepted _ => if publish.qos = 2 ∧ accepted then publish.packetId :: here else here
  | .pubrel packetId => here.filter (· ≠ packetId)
  | .connected _ _ => []
  | .closed => []

variable (trace : List Observation)

def pending : List UInt16 := trace.foldl pendingStep []

def here : List UInt16 := trace.foldl hereStep []

@[simp] theorem here_concat (observation : Observation) :
    here (trace ++ [observation]) = hereStep (here trace) observation := by
  simp [here]

def pubrec (version : Version) (packetId : UInt16) : ControlPacket := ⟨version, .pubrec, false, packetId, 0, [], []⟩

/-- A PUBLISH was answered with its PUBREC and given to no handler. -/
def OnlyAnswered (publish : PublishView) (called : List Nat) (reply : Option ControlPacket) : Prop :=
  called = [] ∧ ∃ version, reply = some (pubrec version publish.packetId)

/-- A retransmission of a pending identifier is only answered exactly when the identifier is of this
    connection. -/
def AnsweredHere (before : List Observation) : Observation → Prop
  | .publish publish called _ reply =>
    publish.qos = 2 → publish.duplicate = true → publish.packetId ∈ pending before →
      (OnlyAnswered publish called reply ↔ publish.packetId ∈ here before)
  | _ => True

/-- `AnsweredHere` holds of every observation. -/
def Answered : Prop :=
  ∀ before observation, before ++ [observation] <+: trace → AnsweredHere before observation

theorem answered_nil : Answered [] := by
  intro before observation h
  simp at h

variable {observation : Observation}

/-- One more observation, judged by what came before it. -/
theorem Answered.concat {trace : List Observation} (h : Answered trace)
    (hlast : AnsweredHere trace observation) : Answered (trace ++ [observation]) := by
  intro before other hbef
  rcases List.prefix_concat_iff.1 hbef with heq | herl
  · obtain ⟨rfl, hoth⟩ := append_inj' heq rfl
    cases hoth
    exact hlast
  · exact h before other herl

section

variable [Vstr]

/-- The set is that of the connection; without a connection it is empty, and every identifier in it can be
    answered. -/
structure Kept (client : Client) (trace : List Observation) : Prop where
  answered : Answered trace
  mem : ∀ packetId, packetId ∈ client.inboundQos2 ↔ packetId ∈ here trace
  nodup : client.inboundQos2.Nodup
  idle : client.state ≠ .connected → client.inboundQos2 = []
  encodes : ∀ packetId ∈ client.inboundQos2,
    ∃ bytes, controlPacketEncode (pubrec client.version packetId) client.outboundMaxPacketSize = .ok bytes

/-- The same while connected. -/
def Online (client : Client) (trace : List Observation) : Prop := Kept client trace ∧ client.state = .connected

/-- What a failed exchange leaves before the transport is closed. -/
def Broken (_ : Client) (trace : List Observation) : Prop := Answered trace

variable {client : Client} {trace : List Observation}

theorem Online.broken (h : Online client trace) : Broken client trace :=
  h.1.answered

/-- The close empties the set, and the connection has no identifiers any more. -/
theorem Broken.close (h : Broken client trace) :
    Kept client.transportClose (trace ++ [.closed]) where
  answered := Answered.concat h trivial
  mem packetId := by simp [Client.transportClose, hereStep]
  nodup := nodup_nil
  idle _ := rfl
  encodes packetId hp := by simp [Client.transportClose] at hp

inductive Handled (client : Client) (sent : Except Errno Unit) : Outcome Unit → Prop where
  | malformed (e : Errno) : Handled client sent (.fail client e)
  | repeated (publish : PublishView) (hkn : publish.packetId ∈ client.inboundQos2) (hfst : publish.duplicate = false) :
      Handled client sent ⟨client, [.publish publish [] false none], .error .eproto⟩
  | retransmitted (publish : PublishView) (hkn : publish.packetId ∈ client.inboundQos2) :
      Handled client sent ⟨client, [.publish publish [] false (sendControl client .pubrec publish.packetId 0 sent).1],
        (sendControl client .pubrec publish.packetId 0 sent).2⟩
  | refused (publish : PublishView) (called : List Nat) (e : Errno)
      (hnew : publish.qos = 2 → publish.packetId ∉ client.inboundQos2) :
      Handled client sent ⟨client, [.publish publish called false none], .error e⟩
  | passed (publish : PublishView) (called : List Nat) (reply : Option ControlPacket) (status : Except Errno Unit)
      (hqos : publish.qos ≠ 2) : Handled client sent ⟨client, [.publish publish called true reply], status⟩
  | accepted (publish : PublishView) (called : List Nat) (hqos : publish.qos = 2)
      (hnew : publish.packetId ∉ client.inboundQos2) (hcalled : called ≠ []) :
      Handled client sent ⟨{ client with inboundQos2 := publish.packetId :: client.inboundQos2 },
        [.publish publish called true (sendControl client .pubrec publish.packetId 0 sent).1],
        (sendControl client .pubrec publish.packetId 0 sent).2⟩

/-- The branches of `handlePublish`, as `Handled` lists them. -/
theorem handlePublish_handled (client : Client) (incoming : Incoming) :
    Handled client incoming.sent (handlePublish client incoming) := by
  unfold handlePublish
  split
  · exact .malformed _
  rename_i publish _
  split
  · rename_i hkn
    have hmem : publish.packetId ∈ client.inboundQos2 := by simpa using hkn.2
    split
    · rename_i hfst
      exact .repeated publish hmem (by simpa using hfst)
    · exact .retransmitted publish hmem
  rename_i hunknown
  have hnew : publish.qos = 2 → publish.packetId ∉ client.inboundQos2 := by simpa using hunknown
  split
  · exact .refused publish [] _ hnew
  split
  · exact .refused publish [] _ hnew
  dsimp only
  split
  · exact .refused publish _ _ hnew
  rename_i hstatus
  split
  · rename_i hqos
    exact .passed publish _ none _ (by simp [hqos])
  by_cases hqos : publish.qos = 2
  · have hcalled : (callHandlers incoming.onMessage publish.topic 0 client.topicHandlers).1 ≠ [] := by
      intro hnil
      rw [hnil] at hstatus
      cases hres : (callHandlers incoming.onMessage publish.topic 0 client.topicHandlers).2 <;>
        simp [hres, Except.bind] at hstatus
    have hone : publish.qos ≠ 1 := by simp [hqos]
    simpa [hqos, hone] using Handled.accepted publish _ hqos (hnew hqos) hcalled
  · simpa [hqos] using Handled.passed publish _ _ _ hqos

variable {sent : Except Errno Unit}

/-- A status of `sendControl` that is good came from a packet that was encoded. -/
theorem sendControl_encodes {type : PacketType} {packetId : UInt16} {reasonCode : UInt8} {value : Unit}
    (h : (sendControl client type packetId reasonCode sent).2 = .ok value) :
    ∃ bytes, controlPacketEncode ⟨client.version, type, false, packetId, reasonCode, [], []⟩ client.outboundMaxPacketSize =
      .ok bytes := by
  dsimp only [sendControl] at h
  split at h
  · cases h
  · exact ⟨_, ‹_›⟩

/-- A PUBREC that can be encoded goes out, whatever the transport then returns. -/
theorem sendControl_of_encodes {packetId : UInt16} {bytes : Bytes}
    (h : controlPacketEncode (pubrec client.version packetId) client.outboundMaxPacketSize = .ok bytes) :
    (sendControl client .pubrec packetId 0 sent).1 = some (pubrec client.version packetId) := by
  unfold pubrec at h ⊢
  simp [sendControl, h]

/-- An observation that leaves the set alone. -/
theorem Online.same (h : Online client trace) (hanswer : AnsweredHere trace observation)
    (hhere : hereStep (here trace) observation = here trace) : Online client (trace ++ [observation]) :=
  ⟨{ answered := h.1.answered.concat hanswer
     mem := by simpa [hhere] using h.1.mem
     nodup := h.1.nodup
     idle := h.1.idle
     encodes := h.1.encodes }, h.2⟩

/-- A PUBLISH that is given to handlers, or not answered, is right exactly when its identifier is not of this
    connection. -/
theorem Kept.answeredHere_of_new (h : Kept client trace) {publish : PublishView} {called : List Nat} {accepted : Bool}
    {reply : Option ControlPacket} (hnew : publish.qos = 2 → publish.packetId ∉ client.inboundQos2)
    (hgiven : ¬OnlyAnswered publish called reply) : AnsweredHere trace (.publish publish called accepted reply) := by
  intro hqos _ _
  exact iff_of_false hgiven fun hhere => hnew hqos ((h.mem publish.packetId).2 hhere)

variable (incoming : Incoming)

section
variable (h : Online client trace)
include h

/-- A PUBLISH is judged by the set, so the set follows what the handlers accepted. -/
theorem handlePublish_online : (handlePublish client incoming).Meets trace Online Broken := by
  have hhandled := handlePublish_handled client incoming
  generalize handlePublish client incoming = outcome at hhandled
  cases hhandled with
  | malformed e => exact meets_fail h.broken
  | repeated publish hkn hfst =>
    refine meets_single (h.1.answered.concat ?_) (fun _ hres => nomatch hres)
    intro _ hdup
    simp [hfst] at hdup
  | retransmitted publish hkn =>
    obtain ⟨bytes, hbs⟩ := h.1.encodes _ hkn
    have hanswer : AnsweredHere trace
        (.publish publish [] false (sendControl client .pubrec publish.packetId 0 incoming.sent).1) := by
      intro _ _ _
      rw [sendControl_of_encodes hbs]
      exact iff_of_true ⟨rfl, client.version, rfl⟩ ((h.1.mem publish.packetId).1 hkn)
    exact meets_single (h.1.answered.concat hanswer) fun _ _ => h.same hanswer (by simp [hereStep])
  | refused publish called e hnew =>
    refine meets_single (h.1.answered.concat (h.1.answeredHere_of_new hnew ?_)) (fun _ hres => nomatch hres)
    rintro ⟨-, version, hrep⟩
    cases hrep
  | passed publish called reply status hqos =>
    have hanswer : AnsweredHere trace (.publish publish called true reply) := fun htwo => absurd htwo hqos
    exact meets_single (h.1.answered.concat hanswer) fun _ _ => h.same hanswer (by simp [hereStep, hqos])
  | accepted publish called hqos hnew hcalled =>
    have hanswer : AnsweredHere trace
        (.publish publish called true (sendControl client .pubrec publish.packetId 0 incoming.sent).1) :=
      h.1.answeredHere_of_new (fun _ => hnew) fun hgiven => hcalled hgiven.1
    refine meets_single (h.1.answered.concat hanswer) fun _ hres => ⟨?_, h.2⟩
    -- the reply was encoded, so a retransmission can be answered the same way
    obtain ⟨bytes, hbs⟩ := sendControl_encodes hres
    exact {
      answered := h.1.answered.concat hanswer
      mem := by simp [hereStep, hqos, h.1.mem]
      nodup := List.nodup_cons.2 ⟨hnew, h.1.nodup⟩
      idle := fun hst => absurd h.2 hst
      encodes := by
        intro packetId hp
        rcases List.mem_cons.1 hp with rfl | hp
        · exact ⟨bytes, hbs⟩
        · exact h.1.encodes packetId hp }

/-- A PUBREL takes its identifier out of both. -/
theorem handlePubrel_online : (handlePubrel client incoming).Meets trace Online Broken := by
  unfold handlePubrel
  split
  · exact meets_fail h.broken
  rename_i control _
  refine meets_single (h.1.answered.concat trivial) fun _ _ => ⟨?_, h.2⟩
  exact {
    answered := h.1.answered.concat trivial
    mem := by simp [hereStep, h.1.nodup.mem_erase_iff, h.1.mem, and_comm]
    nodup := h.1.nodup.erase _
    idle := fun hst => absurd h.2 hst
    encodes := fun packetId hp => h.1.encodes packetId (mem_of_mem_erase hp) }

theorem handleUnsolicited_online : (handleUnsolicited client incoming).Meets trace Online Broken := by
  unfold handleUnsolicited
  split
  · exact (handlePublish_online incoming h).andThen fun _ _ _ hgood => meets_ok true hgood
  · exact (handlePubrel_online incoming h).andThen fun _ _ _ hgood => meets_ok true hgood
  · split <;> exact meets_fail h.broken
  · exact meets_fail h.broken
  · exact meets_ok false h

end

variable {expected : PacketType} {failure : Errno}

/-- Whatever arrives before the expected answer is handled on the way. -/
theorem waitControl_online {packetId : UInt16} (incoming : List Incoming)
    (h : Online client trace) : (waitControl client expected packetId failure incoming).Meets trace Online Broken := by
  induction incoming generalizing client trace with
  | nil => exact meets_fail h.broken
  | cons incoming rest ih =>
    unfold waitControl
    split
    · exact meets_fail h.broken
    split
    · split
      · exact meets_fail h.broken
      · exact ih h
    refine (handleUnsolicited_online incoming h).andThen fun client trace handled hgood => ?_
    split
    · exact ih hgood
    split
    · exact meets_fail hgood.broken
    split
    · exact meets_fail hgood.broken
    split
    · exact meets_fail hgood.broken
    · exact meets_ok _ hgood

/-- While the CONNACK is waited for no packet changes the client. -/
theorem waitControl_connack (packetId : UInt16) (incoming : List Incoming) :
    ∃ result, waitControl client .connack packetId failure incoming = ⟨client, [], result⟩ := by
  induction incoming with
  | nil => exact ⟨_, rfl⟩
  | cons incoming rest ih =>
    unfold waitControl
    split
    · exact ⟨_, rfl⟩
    rename_i hadmitted
    split
    · split
      · exact ⟨_, rfl⟩
      · exact ih
    rename_i hauth
    have htype : incoming.packet.type = .connack := by
      by_contra hoth
      exact hadmitted ⟨rfl, hoth, fun h => hauth ⟨rfl, h⟩⟩
    simp only [handleUnsolicited, htype, andThen, ok, nil_append, Bool.false_eq_true, if_false, ne_eq, not_true_eq_false]
    split
    · exact ⟨_, rfl⟩
    split <;> exact ⟨_, rfl⟩

/-- Nothing is in the set and nothing was accepted on this connection. -/
structure Opening (client : Client) (trace : List Observation) : Prop where
  answered : Answered trace
  none_here : here trace = []
  none_kept : client.inboundQos2 = []

/-- Nothing is in either set, so they agree. -/
theorem Opening.kept (h : Opening client trace) : Kept client trace where
  answered := h.answered
  mem packetId := by simp [h.none_here, h.none_kept]
  nodup := by simp [h.none_kept]
  idle _ := h.none_kept
  encodes packetId hp := by simp [h.none_kept] at hp

/-- Without a connection there are no identifiers of one. -/
theorem Kept.none_here (h : Kept client trace) (hst : client.state ≠ .connected) : here trace = [] := by
  refine List.eq_nil_iff_forall_not_mem.2 fun packetId hp => ?_
  rw [← h.mem, h.idle hst] at hp
  simp at hp

variable {after : Client}

/-- The CONNACK sets limits and leaves the set. -/
theorem negotiateConnack_kept {connack : ControlView} (h : negotiateConnack client connack = .ok after) :
    after.inboundQos2 = client.inboundQos2 := by
  have hproperty : ∀ (values : List Property) (client : Client),
      (values.foldl connackProperty client).inboundQos2 = client.inboundQos2 := by
    intro values
    induction values with
    | nil => exact fun _ => rfl
    | cons property rest ih =>
      intro client
      rw [foldl_cons, ih]
      unfold connackProperty
      split <;> first | rfl | (split <;> rfl)
  dsimp only [negotiateConnack] at h
  split at h
  · cases h
    rfl
  split at h
  · cases h
  split at h
  · cases h
    exact hproperty _ _
  · cases h

/-- From the emptied set a CONNECT and its CONNACK begin a connection without identifiers. -/
theorem connectExchange_kept (packet : ConnectPacket) (answer : ConnectAnswer) (h : Opening client trace) :
    (connectExchange client packet answer).Meets trace Kept Broken := by
  unfold connectExchange
  refine (meets_ofStatus (G := Opening) _ h h.answered).andThen fun client trace _ h => ?_
  have hopen : Opening { client with state := .transportConnected } trace := ⟨h.answered, h.none_here, h.none_kept⟩
  refine (meets_ofStatus (G := Opening) _ hopen hopen.answered).andThen fun client trace _ h => ?_
  obtain ⟨result, hwait⟩ := waitControl_connack 0 answer.arrivals.incoming
  rw [Arrivals.await, hwait]
  refine (meets_ofStatus (G := Opening) result h h.answered).andThen fun client trace connack h => ?_
  dsimp only
  split
  · exact meets_single (h.answered.concat trivial) fun _ _ => Broken.close h.answered
  split
  · exact meets_fail h.answered
  rename_i after hnegotiated
  have haft : Opening after trace := ⟨h.answered, h.none_here, (negotiateConnack_kept hnegotiated).trans h.none_kept⟩
  refine (meets_ofStatus (G := Opening) _ haft haft.answered).andThen fun client trace _ h => ?_
  have hconn : Opening { client with state := .connected }
      (trace ++ [.connected packet.cleanStart connack.1.sessionPresent]) :=
    ⟨h.answered.concat trivial, by simp [hereStep], h.none_kept⟩
  exact meets_single hconn.answered fun _ _ => hconn.kept

/-- A failure on the way closes the transport, which empties the set again. -/
theorem connectOperation_kept (packet : ConnectPacket) (answer : ConnectAnswer) (h : Kept client trace) :
    (connectOperation client packet answer).Meets trace Kept Kept := by
  unfold connectOperation
  split
  · exact meets_fail h
  split
  · exact meets_fail h
  rename_i hst
  have hidle : client.state ≠ .connected := by simpa using fun hconn => hst (by simp [hconn])
  split
  · exact meets_fail h
  split
  · exact meets_fail h
  · refine (connectExchange_kept packet answer ⟨h.answered, h.none_here hidle, rfl⟩).orClose (fun _ _ h => h)
      fun _ _ h => h.close

/-- What `Kept` reads of a client. -/
structure SameLink (client after : Client) : Prop where
  state : after.state = client.state
  version : after.version = client.version
  outboundMaxPacketSize : after.outboundMaxPacketSize = client.outboundMaxPacketSize
  inboundQos2 : after.inboundQos2 = client.inboundQos2

omit [Vstr] in
theorem SameLink.refl (client : Client) : SameLink client client := ⟨rfl, rfl, rfl, rfl⟩

omit [Vstr] in
theorem SameLink.trans {between : Client} (h : SameLink client between) (h' : SameLink between after) : SameLink client after :=
  ⟨h'.state.trans h.state, h'.version.trans h.version, h'.outboundMaxPacketSize.trans h.outboundMaxPacketSize,
    h'.inboundQos2.trans h.inboundQos2⟩

/-- A change outside of the link is not seen. -/
theorem Kept.of_sameLink (h : Kept client trace) (hsame : SameLink client after) : Kept after trace where
  answered := h.answered
  mem := by simpa [hsame.inboundQos2] using h.mem
  nodup := by simpa [hsame.inboundQos2] using h.nodup
  idle := by simpa [hsame.state, hsame.inboundQos2] using h.idle
  encodes := by simpa [hsame.inboundQos2, hsame.version, hsame.outboundMaxPacketSize] using h.encodes

variable {encoded : Except ParseError Bytes}

section
variable (h : Online client trace)
include h

/-- An operation that waits while connected keeps the set, whether it succeeds or closes the transport. -/
theorem exchange_kept {α : Type} {answered : Client → Outcome α}
    (hanswered : ∀ client trace, Online client trace → (answered client).Meets trace Online Broken) :
    (exchange client encoded sent answered).Meets trace Kept Kept := by
  unfold exchange
  split
  · exact meets_fail h.1
  · refine Outcome.Meets.orClose (G := Online) (B := Broken) ?_ (fun _ _ h => h.1) fun _ _ h => h.close
    exact (meets_ofStatus (G := Online) _ h h.broken).andThen fun client trace _ h => hanswered client trace h

theorem Online.packetId : Online client.packetId trace :=
  ⟨h.1.of_sameLink ⟨rfl, rfl, rfl, rfl⟩, h.2⟩

/-- An operation with an identifier of its own that waits for one answer and checks it. -/
theorem numbered_kept {arrivals : Arrivals}
    {packetId : UInt16} {R : Client → ControlView → Prop} [∀ client received, Decidable (R client received)] :
    (exchange client.packetId encoded sent fun client =>
      (arrivals.await client expected packetId).andThen fun client (received, _) =>
        if R client received then .fail client .eproto else .ok client received).Meets trace Kept Kept := by
  refine exchange_kept h.packetId fun client trace h => ?_
  refine (waitControl_online _ h).andThen fun client trace received h => ?_
  dsimp only
  split
  · exact meets_fail h.broken
  · exact meets_ok _ h

end

variable {answer : Answer}

theorem publishOperation_kept (packet : PublishPacket) (h : Kept client trace) :
    (publishOperation client packet answer).Meets trace Kept Kept := by
  unfold publishOperation
  split
  · exact meets_fail h
  split
  · exact meets_fail h
  rename_i hst
  have hconn : client.state = .connected := by simpa using hst
  split
  · exact meets_fail h
  split
  · exact meets_fail h
  split
  · exact exchange_kept ⟨h, hconn⟩ fun _ _ h => meets_ok _ h
  refine exchange_kept (Online.packetId ⟨h, hconn⟩) fun client trace h => ?_
  refine (waitControl_online _ h).andThen fun client trace received h => ?_
  dsimp only
  split
  · exact meets_ok _ h
  refine (meets_ofStatus (G := Online) _ h h.broken).andThen fun client trace _ h => ?_
  exact (waitControl_online _ h).andThen fun _ _ _ h => meets_ok _ h

theorem subscribeOperation_kept (packet : SubscribePacket) (h : Kept client trace) :
    (subscribeOperation client packet answer).Meets trace Kept Kept := by
  unfold subscribeOperation
  split
  · exact meets_fail h
  split
  · exact meets_fail h
  rename_i hst
  split
  · exact meets_fail h
  · exact numbered_kept (R := fun _ received => received.reasonCodes.length ≠ packet.subscriptions.length)
      ⟨h, by simpa using hst⟩

theorem unsubscribeOperation_kept (packet : UnsubscribePacket) (h : Kept client trace) :
    (unsubscribeOperation client packet answer).Meets trace Kept Kept := by
  unfold unsubscribeOperation
  split
  · exact meets_fail h
  split
  · exact meets_fail h
  rename_i hst
  split
  · exact meets_fail h
  exact numbered_kept
    (R := fun client received => client.version = .v5 ∧ received.reasonCodes.length ≠ packet.filters.length)
    ⟨h, by simpa using hst⟩

theorem pingOperation_kept (h : Kept client trace) : (pingOperation client answer).Meets trace Kept Kept := by
  unfold pingOperation
  split
  · exact meets_fail h
  rename_i hst
  refine exchange_kept ⟨h, by simpa using hst⟩ fun client trace h => ?_
  exact (waitControl_online _ h).andThen fun _ _ _ h => meets_ok _ h

/-- The steps of an authentication exchange wait as every other answer does. -/
theorem authLoop_online (incoming : List Incoming) (h : Online client trace) :
    (authLoop client failure incoming).Meets trace Online Broken := by
  induction incoming generalizing client trace with
  | nil => exact meets_fail h.broken
  | cons incoming rest ih =>
    unfold authLoop
    split
    · split
      · exact meets_fail h.broken
      split
      · split
        · exact meets_fail h.broken
        · exact ih h
      split
      · exact meets_fail h.broken
      split
      · exact meets_fail h.broken
      · exact meets_ok _ h
    · refine (handleUnsolicited_online incoming h).andThen fun client trace handled h => ?_
      split
      · exact ih h
      · exact meets_fail h.broken

theorem authOperation_kept (values : Bytes) (h : Kept client trace) :
    (authOperation client values answer).Meets trace Kept Kept := by
  unfold authOperation
  split
  · exact meets_fail h
  rename_i hst
  split
  · exact meets_fail h
  have honline : Online client trace := ⟨h, by simpa using hst⟩
  refine Outcome.Meets.orClose (G := Online) (B := Broken) ?_ (fun _ _ h => h.1) fun _ _ h => h.close
  refine (meets_ofStatus (G := Online) _ honline honline.broken).andThen fun client trace _ h => ?_
  refine (meets_ofStatus (G := Online) _ h h.broken).andThen fun client trace _ h => ?_
  exact authLoop_online _ h

/-- A connected client closes the transport even when the DISCONNECT cannot be sent. -/
theorem disconnectOperation_kept (reasonCode : UInt8) (values : Bytes) (answer : Answer) (h : Kept client trace) :
    (disconnectOperation client reasonCode values answer).Meets trace Kept Kept := by
  unfold disconnectOperation
  split
  · exact meets_fail h
  have hbroken : Broken client trace := h.answered
  have hclsd := hbroken.close
  exact meets_single hclsd fun _ _ => hclsd

end

/-! The recovery leaves the connection alone. -/

variable (client : Client)

theorem sameLink_reconnectSchedule {now : UInt64} : SameLink client (client.reconnectSchedule now) := by
  unfold Client.reconnectSchedule
  split
  · exact .refl client
  split <;> exact ⟨rfl, rfl, rfl, rfl⟩

theorem sameLink_backoffSchedule (increaseBackoff : Bool) (now : UInt64) :
    SameLink client ((if increaseBackoff then client.reconnectBackoff else client).reconnectSchedule now) := by
  cases increaseBackoff with
  | false => exact sameLink_reconnectSchedule client
  | true =>
    have hbackoff : SameLink client client.reconnectBackoff := ⟨rfl, rfl, rfl, rfl⟩
    exact hbackoff.trans (sameLink_reconnectSchedule _)

theorem sameLink_reconnectConnectReplace {client after : Client} {packet : ConnectPacket} {stored : Except Errno Unit}
    (h : reconnectConnectReplace client packet stored = .ok after) : SameLink client after := by
  unfold reconnectConnectReplace at h
  split at h
  · cases h
  split at h
  · cases h
  · cases h
    exact ⟨rfl, rfl, rfl, rfl⟩

theorem sameLink_refreshAndSchedule (increaseBackoff : Bool) (answer : RecoveryAnswer) :
    SameLink client (refreshAndSchedule client increaseBackoff answer) := by
  unfold refreshAndSchedule
  split
  · exact ⟨rfl, rfl, rfl, rfl⟩
  rename_i after hrefreshed
  unfold refreshReconnect at hrefreshed
  split_ifs at hrefreshed
  split at hrefreshed
  · cases hrefreshed
  · exact (sameLink_reconnectConnectReplace hrefreshed).trans (sameLink_backoffSchedule after _ _)

/-- The plan for a reconnect does not touch the link. -/
theorem sameLink_reconnectAfterFailure {status : Errno} {increaseBackoff : Bool}
    {answer : RecoveryAnswer} : SameLink client (reconnectAfterFailure client status increaseBackoff answer) := by
  unfold reconnectAfterFailure
  split
  · exact .refl client
  split
  · exact ⟨rfl, rfl, rfl, rfl⟩
  have hread : SameLink client { client with disconnectReasonValid := false } := ⟨rfl, rfl, rfl, rfl⟩
  dsimp only
  split
  · exact hread.trans (sameLink_refreshAndSchedule _ _ _)
  split
  · exact hread.trans (sameLink_backoffSchedule _ _ _)
  · exact hread

theorem sameLink_afterCommand (command : Command) (result : Except Errno (Option ControlView))
    (answer : CommandAnswer) : SameLink client (afterCommand client command result answer) := by
  have hoth : SameLink client (if client.resilienceEnabled && !answer.stoppingAfter then
      commandRecovery client answer.recovery result else client) := by
    split
    · unfold commandRecovery
      split
      · exact sameLink_reconnectAfterFailure _
      · exact .refl client
    · exact .refl client
  unfold afterCommand
  split
  · split
    · unfold connectRecovery
      split
      · exact sameLink_reconnectAfterFailure _
      · exact ⟨rfl, rfl, rfl, rfl⟩
      split
      · exact ⟨rfl, rfl, rfl, rfl⟩
      split
      · exact sameLink_reconnectSchedule _
      split
      · exact sameLink_refreshAndSchedule _ _ _
      · exact ⟨rfl, rfl, rfl, rfl⟩
    · exact .refl client
  · exact ⟨rfl, rfl, rfl, rfl⟩
  · exact hoth

theorem sameLink_afterReconnect (recovery : RecoveryAnswer) (result : Except Errno ControlView) :
    SameLink client (afterReconnect client recovery result) := by
  unfold afterReconnect
  split
  · exact sameLink_reconnectAfterFailure _
  split
  · exact ⟨rfl, rfl, rfl, rfl⟩
  split
  · exact sameLink_backoffSchedule client true _
  split
  · exact sameLink_refreshAndSchedule _ _ _
  · exact ⟨rfl, rfl, rfl, rfl⟩

section

variable [Vstr] {client : Client} {trace : List Observation}

theorem connectCommand_kept (packet : ConnectPacket) (answer : CommandAnswer) (h : Kept client trace) :
    (connectCommand client packet answer).Meets trace Kept Kept := by
  unfold connectCommand
  split
  · exact meets_fail h
  split
  · split
    · exact meets_fail h
    rename_i after hreplaced
    have hcan : SameLink after (after.reconnectCancel false) := ⟨rfl, rfl, rfl, rfl⟩
    exact connectOperation_kept _ _ (h.of_sameLink ((sameLink_reconnectConnectReplace hreplaced).trans hcan))
  · exact connectOperation_kept _ _ h

variable {command : Command}

/-- One case for each command of the queue. -/
theorem commandOperation_kept (answer : CommandAnswer) (h : Kept client trace) :
    (commandOperation client answer command).Meets trace Kept Kept := by
  cases command with
  | connect packet => exact (connectCommand_kept packet answer h).andThen fun _ _ _ h => meets_ok _ h
  | publish packet => exact publishOperation_kept packet h
  | subscribe packet =>
    exact (subscribeOperation_kept packet h).andThen fun _ _ _ h => meets_ok _ h
  | unsubscribe packet =>
    exact (unsubscribeOperation_kept packet h).andThen fun _ _ _ h => meets_ok _ h
  | ping => exact (pingOperation_kept h).andThen fun _ _ _ h => meets_ok _ h
  | auth values => exact (authOperation_kept values h).andThen fun _ _ _ h => meets_ok _ h
  | disconnect reasonCode values =>
    have hend := (disconnectOperation_kept reasonCode values answer.operation h).of_same
    dsimp only [commandOperation]
    split
    · split <;> exact hend
    · exact hend

/-- A command with what the worker does after it. -/
theorem runCommand_kept (answer : CommandAnswer) (h : Kept client trace) :
    Kept (runCommand client command answer).client (trace ++ (runCommand client command answer).trace) := by
  have hread : Kept { client with disconnectReasonValid := false } trace := h.of_sameLink ⟨rfl, rfl, rfl, rfl⟩
  exact (commandOperation_kept answer hread).of_same.of_sameLink (sameLink_afterCommand _ _ _ _)

/-- A reconnect is a CONNECT with the packet that was kept for it. -/
theorem runReconnect_kept (answer : ReconnectAnswer) (h : Kept client trace) :
    Kept (runReconnect client answer).client (trace ++ (runReconnect client answer).trace) := by
  unfold runReconnect
  split
  · simpa [ok] using h
  rename_i packet _
  split
  · simpa [ok] using h
  have hstart : Kept { client with reconnectPending := false, reconnectAttempt := client.reconnectAttempt + 1 } trace :=
    h.of_sameLink ⟨rfl, rfl, rfl, rfl⟩
  have hend := (connectOperation_kept packet answer.connect hstart).of_same
  split
  · exact hend
  · exact hend.of_sameLink (sameLink_afterReconnect _ _ _)

variable {recovery : RecoveryAnswer}

theorem recoverReading_kept {outcome : Outcome Unit} (h : outcome.Meets trace Online Broken) :
    Kept (recoverReading outcome recovery).client (trace ++ (recoverReading outcome recovery).trace) := by
  have hclsd := (h.orClose (fun _ _ h => h.1) fun _ _ h => h.close).of_same
  unfold recoverReading
  split
  · rename_i hres
    simpa only [orClose, hres] using hclsd
  · exact hclsd.of_sameLink (sameLink_reconnectAfterFailure _)

/-- A packet that arrives while no command waits. -/
theorem workerReceive_kept {arrival : Except Errno Incoming} (h : Online client trace) :
    Kept (workerReceive client arrival recovery).client (trace ++ (workerReceive client arrival recovery).trace) := by
  have hread : Online { client with disconnectReasonValid := false } trace :=
    ⟨h.1.of_sameLink ⟨rfl, rfl, rfl, rfl⟩, h.2⟩
  unfold workerReceive
  split
  · split
    · simpa [ok] using hread.1
    · exact recoverReading_kept (meets_fail hread.broken)
  · refine recoverReading_kept ((handleUnsolicited_online _ hread).andThen fun client trace handled h => ?_)
    split
    · exact meets_fail h.broken
    · exact meets_ok _ h

/-- One step of the worker. -/
theorem workerStep_kept {worker : Worker} (event : WorkerEvent) (h : Kept worker.client worker.trace) :
    Kept (workerStep worker event).client (workerStep worker event).trace := by
  unfold workerStep
  split
  · exact h
  cases event with
  | command command answer => exact runCommand_kept answer h
  | reconnect now answer =>
    dsimp only
    split
    · exact runReconnect_kept answer h
    · exact h
  | receive arrival recovery =>
    dsimp only
    split
    · rename_i hrdy
      exact workerReceive_kept ⟨h, hrdy.2⟩
    · exact h
  | stop =>
    have hbroken : Broken worker.client worker.trace := h.answered
    exact hbroken.close.of_sameLink ⟨rfl, rfl, rfl, rfl⟩

/-- A client before its first connection. -/
structure Client.Unconnected (client : Client) : Prop where
  state : client.state = .disconnected
  inboundQos2 : client.inboundQos2 = []

/-- All steps of the worker, from a client without a connection. -/
theorem workerRun_kept (h : client.Unconnected) (events : List WorkerEvent) :
    Kept (workerRun client events).client (workerRun client events).trace := by
  have hstart : Opening client [] := ⟨answered_nil, rfl, h.inboundQos2⟩
  have hall : Run.Along workerStep (fun _ _ => True) ⟨client, [], false⟩ events :=
    Run.Along.of_forall (fun _ _ _ => trivial) _
  exact hall.invariant (I := fun worker : Worker => Kept worker.client worker.trace)
    (fun _ event hworker _ => workerStep_kept event hworker) hstart.kept

/-- In every run, a PUBLISH that retransmits an identifier the handlers accepted and no PUBREL released, on this
    connection or an earlier one of the resumed session, is answered with PUBREC and given to no handler exactly
    when the identifier was accepted on this connection. -/
theorem retransmission_answered_iff {client : Client} (hstart : client.Unconnected) (events : List WorkerEvent)
    {before : List Observation} {publish : PublishView} {called : List Nat} {accepted : Bool} {reply : Option ControlPacket}
    (hseen : before ++ [.publish publish called accepted reply] <+: (workerRun client events).trace)
    (hqos : publish.qos = 2) (hdup : publish.duplicate = true) (hpend : publish.packetId ∈ pending before) :
    OnlyAnswered publish called reply ↔ publish.packetId ∈ here before :=
  (workerRun_kept hstart events).answered before _ hseen hqos hdup hpend

end

section

attribute [local instance] asciiVstr

/-- A client with one handler that connects again after a lost connection. -/
def sampleClient : Client where
  selectedVersion := .v311
  version := .unspecified
  state := .disconnected
  authMethod := []
  onAuthChallenge := false
  maxPacketSize := 1024
  outboundMaxPacketSize := 1024
  serverTopicAliasMaximum := 0
  serverMaximumQos := 2
  serverRetainAvailable := true
  topicHandlers := [text "a"]
  maxInboundQos2 := 4
  inboundQos2 := []
  nextPacketId := 1
  disconnectReason := 0
  disconnectReasonValid := false
  resilienceEnabled := true
  reconnectInitialDelayMs := 100
  reconnectMaxDelayMs := 1000
  reconnectMaxAttempts := 0
  refreshConnect := false
  reconnectConnect := none
  reconnectDelayMs := 100
  reconnectDeadlineMs := 0
  reconnectAttempt := 0
  reconnectPending := false

def sampleConnect : ConnectPacket :=
  ⟨.v311, false, false, 0, false, false, false, 60, [], text "c", [], [], [], [], []⟩

/-- A packet that every callback and the transport accept. -/
def calmIncoming (packet : PacketView) : Incoming := ⟨packet, .ok (), fun _ => .ok (), .error .enotsup, .ok ()⟩

def sampleRecovery : RecoveryAnswer := ⟨false, .error .enotsup, .ok (), 0⟩

def acceptedConnect (sessionPresent : UInt8) : ConnectAnswer :=
  ⟨.ok (), .ok (), .ok (), ⟨[calmIncoming ⟨.v311, .connack, 0, [sessionPresent, 0]⟩], .econnreset⟩, .ok ()⟩

def connectEvent : WorkerEvent :=
  .command (.connect sampleConnect)
    ⟨.ok (), acceptedConnect 0, ⟨.ok (), .ok (), ⟨[], .econnreset⟩⟩, false, false, sampleRecovery⟩

def publishEvent (duplicate : Bool) : WorkerEvent :=
  .receive (.ok (calmIncoming ⟨.v311, .publish, if duplicate then 12 else 4, [0, 1, 97, 0, 7]⟩)) sampleRecovery

def sampleView (duplicate : Bool) : PublishView := ⟨2, false, duplicate, 7, text "a", [], []⟩

/-- The trace of the first connection until its PUBLISH is accepted. -/
def firstTrace : List Observation :=
  [.connected false false, .publish (sampleView false) [0] true (some (pubrec .v311 7))]

theorem firstTrace_run : (workerRun sampleClient [connectEvent, publishEvent false, publishEvent true]).trace =
    firstTrace ++ [.publish (sampleView true) [] false (some (pubrec .v311 7))] := by
  decide +kernel

theorem sampleClient_unconnected : sampleClient.Unconnected := ⟨rfl, rfl⟩

/-- On the same connection the retransmission is answered and given to no handler. -/
theorem retransmission_same_connection : sampleClient.Unconnected ∧ (7 : UInt16) ∈ here firstTrace ∧
    OnlyAnswered (sampleView true) [] (some (pubrec .v311 7)) := by
  have hseen : firstTrace ++ [.publish (sampleView true) [] false (some (pubrec .v311 7))] <+:
      (workerRun sampleClient [connectEvent, publishEvent false, publishEvent true]).trace := by
    rw [firstTrace_run]
  refine ⟨sampleClient_unconnected, by decide, ?_⟩
  exact (retransmission_answered_iff sampleClient_unconnected _ hseen rfl rfl (by decide)).2 (by decide)

/-- The connection is lost and the session resumed. -/
def resumeEvents : List WorkerEvent :=
  [.receive (.error .econnreset) sampleRecovery, .reconnect 1000 ⟨false, acceptedConnect 1, false, sampleRecovery⟩]

theorem resumed_run :
    (workerRun sampleClient ([connectEvent, publishEvent false] ++ resumeEvents ++ [publishEvent true])).trace =
      (firstTrace ++ [.closed, .connected false true]) ++ [.publish (sampleView true) [0] true (some (pubrec .v311 7))] := by
  decide +kernel

/-- On the resumed session the retransmission is given to the handler a second time. -/
theorem retransmission_given_again : sampleClient.Unconnected ∧
    ∃ before called reply, before ++ [.publish (sampleView true) called true reply] <+:
        (workerRun sampleClient ([connectEvent, publishEvent false] ++ resumeEvents ++ [publishEvent true])).trace ∧
      (7 : UInt16) ∈ pending before ∧ ¬OnlyAnswered (sampleView true) called reply := by
  refine ⟨sampleClient_unconnected, firstTrace ++ [.closed, .connected false true], [0], some (pubrec .v311 7), ?_, by decide, ?_⟩
  · rw [resumed_run]
  · rintro ⟨hcalled, -⟩
    cases hcalled

end

end Flowie.MqttClient
