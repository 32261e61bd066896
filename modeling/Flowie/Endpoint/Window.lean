import Flowie.Lib.Run
import Flowie.Endpoint.SendQueue

/-!
# The Receive Maximum window

`outbound_qos_inflight` counts the exchanges the client has open: it grows when the transport takes
a QoS delivery and falls when the session takes the last acknowledgement of one. A run of a
connection is watched together with the packet identifiers of the open exchanges.
-/

namespace Flowie.Endpoint

open Mqtt Session List

def Connection.Within (connection : Connection) : Prop :=
  connection.outboundQosInflight.toNat ≤ connection.clientReceiveMaximum.toNat

/-- Nothing happened to the window. -/
structure SameWindow (before after : Connection) : Prop where
  maximum : after.clientReceiveMaximum = before.clientReceiveMaximum
  inflight : after.outboundQosInflight = before.outboundQosInflight

namespace SameWindow

variable (connection : Connection)

theorem refl : SameWindow connection connection := ⟨rfl, rfl⟩

theorem trans {a b c : Connection} (h : SameWindow a b) (h' : SameWindow b c) : SameWindow a c :=
  ⟨h'.maximum.trans h.maximum, h'.inflight.trans h.inflight⟩

theorem release (request : ReplyRequest) : SameWindow connection (connection.release request) := by
  unfold Connection.release
  split <;> exact ⟨rfl, rfl⟩

theorem releases (requests : List ReplyRequest) : SameWindow connection (requests.foldl Connection.release connection) := by
  induction requests generalizing connection with
  | nil => exact refl connection
  | cons request requests ih => exact (release connection request).trans (ih _)

theorem failReplyQueue : SameWindow connection connection.failReplyQueue :=
  ⟨(releases connection _).maximum, (releases connection _).inflight⟩

theorem sendQueue (queue : List ReplyRequest) : SameWindow connection { connection with sendQueue := queue } := ⟨rfl, rfl⟩

theorem close : SameWindow connection connection.close :=
  ⟨(failReplyQueue _).maximum, (failReplyQueue _).inflight⟩

theorem closeAfterTerminalReplies : SameWindow connection connection.closeAfterTerminalReplies := by
  unfold Connection.closeAfterTerminalReplies
  split
  · exact close connection
  · exact ⟨rfl, rfl⟩

end SameWindow

def PassEnd.connection : PassEnd → Connection
  | .returns connection _ => connection
  | .again connection _ _ => connection

/-- A transport that fails has taken nothing of the batch. -/
def Pass.Whole (pass : Pass) : Prop := ∀ count e, pass.sendFailure = some (count, e) → count = 0

/-- How the deliveries the transport took show in the window: it holds them, and the counter follows
    them as long as the transport takes batches as a whole. -/
structure Accounts (whole : Prop) (before : Connection) (handed : List UInt16) (after : Connection) : Prop where
  maximum : after.clientReceiveMaximum = before.clientReceiveMaximum
  within : after.Within
  counted : whole → after.outboundQosInflight.toNat = before.outboundQosInflight.toNat + handed.length

variable {before : Connection}

theorem SameWindow.within {after : Connection} (h : SameWindow before after) (hin : before.Within) : after.Within := by
  unfold Connection.Within at hin ⊢
  rw [h.maximum, h.inflight]
  exact hin

theorem SameWindow.accounts {after : Connection} (h : SameWindow before after) (whole : Prop)
    (hin : before.Within) : Accounts whole before [] after where
  maximum := h.maximum
  within := h.within hin
  counted _ := by simp [h.inflight]

variable {whole : Prop} {a b c : Connection} {handed : List UInt16}

section
variable (h : Accounts whole a handed b)
include h

theorem Accounts.trans {handed' : List UInt16} (h' : Accounts whole b handed' c) :
    Accounts whole a (handed ++ handed') c where
  maximum := h'.maximum.trans h.maximum
  within := h'.within
  counted hwhl := by
    have h₁ := h.counted hwhl
    have h₂ := h'.counted hwhl
    rw [length_append]
    omega

theorem Accounts.mono {whole' : Prop} (himp : whole' → whole) : Accounts whole' a handed b :=
  ⟨h.maximum, h.within, fun hwhl => h.counted (himp hwhl)⟩

/-- A change elsewhere, before or after, leaves the account as it is. -/
theorem Accounts.after_same (hsame : SameWindow b c) : Accounts whole a handed c := by
  simpa using h.trans (hsame.accounts whole h.within)

end

theorem Accounts.of_same (h : Accounts whole b handed c) (hsame : SameWindow a b) : Accounts whole a handed c where
  maximum := h.maximum.trans hsame.maximum
  within := h.within
  counted hwhl := by rw [h.counted hwhl, hsame.inflight]

theorem deliveryIds_cons {request : ReplyRequest} (requests : List ReplyRequest) :
    (deliveryIds (request :: requests)).length = request.qosDelivery.toNat + (deliveryIds requests).length := by
  unfold deliveryIds
  cases hqos : request.qosDelivery <;> simp [hqos, Nat.add_comm]

variable (connection : Connection) (qosCount count : Nat) (request : ReplyRequest) (queue : List ReplyRequest)

/-- The count of a batch is the number of QoS deliveries in it. -/
theorem collect_count :
    (collect connection qosCount count request queue).qosDeliveryCount =
      qosCount + (deliveryIds (collect connection qosCount count request queue).requests).length := by
  have hlast : (deliveryIds [request]).length = request.qosDelivery.toNat := deliveryIds_cons []
  induction queue generalizing qosCount count request with
  | nil => simp only [collect, hlast]
  | cons next rest ih =>
    unfold collect
    split
    · simp only [hlast]
    simp only [Batch.cons, deliveryIds_cons]
    rw [ih _ _ next (deliveryIds_cons [])]
    omega

/-- A batch that starts within the window stays within it: the next delivery is left in the queue
    when it would not fit. -/
theorem collect_within (hfits : connection.outboundQosInflight.toNat + qosCount + request.qosDelivery.toNat ≤
      connection.clientReceiveMaximum.toNat) :
    connection.outboundQosInflight.toNat + (collect connection qosCount count request queue).qosDeliveryCount ≤
      connection.clientReceiveMaximum.toNat := by
  induction queue generalizing qosCount count request with
  | nil =>
    simp only [collect]
    omega
  | cons next rest ih =>
    unfold collect
    split
    · simp only
      omega
    rename_i hgo
    apply ih
    cases hnext : next.qosDelivery with
    | false =>
      simp only [Bool.toNat_false]
      omega
    | true =>
      simp only [batchEnds, hnext, Bool.true_and, Bool.or_eq_true, not_or, decide_eq_true_eq] at hgo
      simp only [Bool.toNat_true]
      omega

/-- A batch takes at least its first request from the queue. -/
theorem collect_rest_suffix : (collect connection qosCount count request queue).rest <:+ queue := by
  induction queue generalizing qosCount count request with
  | nil => exact suffix_rfl
  | cons next rest ih =>
    unfold collect
    split
    · exact suffix_rfl
    · exact (ih _ _ next).trans (suffix_cons next rest)

theorem counted_accounts (whole : Prop) (connection : Connection) (batch : Batch)
    (hcnt : batch.qosDeliveryCount = (deliveryIds batch.requests).length)
    (hfits : connection.outboundQosInflight.toNat + batch.qosDeliveryCount ≤ connection.clientReceiveMaximum.toNat) :
    Accounts whole connection (deliveryIds batch.requests) (connection.counted batch) := by
  have hlt : connection.outboundQosInflight.toNat + batch.qosDeliveryCount < UInt16.size :=
    Nat.lt_of_le_of_lt hfits connection.clientReceiveMaximum.toNat_lt
  have hnat : (connection.counted batch).outboundQosInflight.toNat =
      connection.outboundQosInflight.toNat + batch.qosDeliveryCount := UInt16.toNat_ofNat_of_lt hlt
  refine ⟨rfl, ?_, ?_⟩
  · unfold Connection.Within
    rw [hnat]
    exact hfits
  · intro _
    rw [← hcnt]
    exact hnat

open SameWindow

variable (connection : Connection)

theorem batchSent_accounts (batch : Batch) (pass : Pass)
    (hcnt : batch.qosDeliveryCount = (deliveryIds batch.requests).length)
    (hfits : connection.outboundQosInflight.toNat + batch.qosDeliveryCount ≤ connection.clientReceiveMaximum.toNat) :
    Accounts pass.Whole connection (deliveryIds (pass.taken batch.requests)) (batchSent connection batch pass).1 := by
  unfold batchSent Pass.taken
  cases hfail : pass.sendFailure with
  | some failure =>
    obtain ⟨count, e⟩ := failure
    have hsame := ((sendQueue connection batch.rest).trans (releases _ batch.requests)).trans
      (close _)
    refine ⟨hsame.maximum, hsame.within (Nat.le_trans (Nat.le_add_right _ _) hfits), ?_⟩
    intro hwhl
    -- A failure that leaves nothing half sent hands over no delivery.
    obtain rfl := hwhl count e hfail
    exact congrArg UInt16.toNat hsame.inflight
  | none =>
    have hrel := (counted_accounts pass.Whole connection batch hcnt hfits).after_same
      (releases _ batch.requests)
    simp only
    split
    · exact hrel.after_same (close _)
    · exact hrel

theorem release_sendQueue (request : ReplyRequest) : (connection.release request).sendQueue = connection.sendQueue := by
  unfold Connection.release
  split <;> rfl

theorem releases_sendQueue (requests : List ReplyRequest) :
    (requests.foldl Connection.release connection).sendQueue = connection.sendQueue := by
  induction requests generalizing connection with
  | nil => rfl
  | cons request requests ih => exact (ih _).trans (release_sendQueue connection request)

def deliveryFlags (queue : List ReplyRequest) : List Bool := queue.map (·.qosDelivery)

theorem batchSent_flags {batch : Batch} (pass : Pass) :
    deliveryFlags (batchSent connection batch pass).1.sendQueue <:+ deliveryFlags batch.rest := by
  unfold batchSent
  split
  · exact nil_suffix
  dsimp only
  split
  · exact nil_suffix
  · rw [releases_sendQueue]
    exact suffix_rfl

section

variable [Vstr]

/-- The loop over the expired requests takes them from the front, and frees no place in the window: they never took one. -/
theorem expireFront_sound (pass : Pass) (i : Nat) (queue : List ReplyRequest) (connection : Connection) :
    SameWindow connection (expireFront pass i queue connection).1 ∧
      deliveryFlags (expireFront pass i queue connection).1.sendQueue <:+ deliveryFlags queue := by
  induction queue generalizing i connection with
  | nil => exact ⟨⟨rfl, rfl⟩, suffix_rfl⟩
  | cons request rest ih =>
    unfold expireFront
    split
    · exact ⟨⟨rfl, rfl⟩, suffix_rfl⟩
    split
    · exact ⟨⟨rfl, rfl⟩, suffix_rfl⟩
    split
    · exact ⟨⟨rfl, rfl⟩, suffix_rfl⟩
    · exact ⟨⟨rfl, rfl⟩, suffix_rfl⟩
    rename_i owner _
    have hrelease := release { connection with owner := owner } request
    obtain ⟨hsame, hfl⟩ := ih (i + 1) (Connection.release { connection with owner := owner } request)
    exact ⟨⟨hsame.maximum.trans hrelease.maximum, hsame.inflight.trans hrelease.inflight⟩, hfl.trans (suffix_cons _ _)⟩

/-- What a pass of the drain can do: a pass that returns leaves the window alone, and one that goes
    on accounts for what it handed over and has shortened the queue. -/
def PassEnd.Sound (pass : Pass) (connection : Connection) : PassEnd → Prop
  | .returns after _ => SameWindow connection after
  | .again after handed _ =>
    (connection.Within → Accounts pass.Whole connection handed after) ∧
      after.sendQueue.length < connection.sendQueue.length

omit [Vstr] in
/-- A pass that sends: the front of the queue fits into the window. -/
theorem batch_accounts (connection : Connection) (pass : Pass) (request : ReplyRequest) (rest : List ReplyRequest)
    (hin : connection.Within)
    (hroom : ¬(request.qosDelivery ∧ connection.outboundQosInflight ≥ connection.clientReceiveMaximum)) :
    Accounts pass.Whole connection (deliveryIds (pass.taken (collect connection 0 0 request rest).requests))
      (batchSent connection (collect connection 0 0 request rest) pass).1 := by
  have hcnt := collect_count connection 0 0 request rest
  rw [Nat.zero_add] at hcnt
  apply batchSent_accounts connection _ pass hcnt
  apply collect_within
  unfold Connection.Within at hin
  cases hqos : request.qosDelivery with
  | false =>
    simp only [Bool.toNat_false]
    omega
  | true =>
    simp only [hqos, true_and, ge_iff_le, UInt16.not_le, UInt16.lt_iff_toNat_lt] at hroom
    simp only [Bool.toNat_true]
    omega

theorem drainPass_sound (pass : Pass) (result : Option Errno) (connection : Connection) :
    (drainPass pass result connection).Sound pass connection ∧
      deliveryFlags (drainPass pass result connection).connection.sendQueue <:+ deliveryFlags connection.sendQueue := by
  unfold drainPass
  obtain ⟨hfront, hfl⟩ := expireFront_sound pass 0 connection.sendQueue connection
  split
  · have hfail := failReplyQueue connection
    exact ⟨⟨hfail.maximum, hfail.inflight⟩, nil_suffix⟩
  split
  · exact ⟨⟨rfl, rfl⟩, suffix_rfl⟩
  rename_i hque
  split
  · rename_i expired e hexpr
    rw [hexpr] at hfront hfl
    exact ⟨hfront, hfl⟩
  · rename_i expired hexpr
    rw [hexpr] at hfront hfl
    split
    · rename_i hnil
      refine ⟨⟨hfront.accounts _, ?_⟩, hfl⟩
      rw [hnil]
      apply length_pos_of_ne_nil
      simpa using hque
    · rename_i request rest hrequest
      split
      · exact ⟨⟨hfront.maximum, hfront.inflight⟩, hfl⟩
      rename_i hroom
      have hsent := (batchSent_flags expired pass).trans
        ((collect_rest_suffix expired 0 0 request rest).map ReplyRequest.qosDelivery)
      rw [hrequest] at hfl
      refine ⟨⟨fun hin => ?_, ?_⟩, hsent.trans ((suffix_cons _ _).trans hfl)⟩
      · exact (batch_accounts expired pass request rest (hfront.within hin) hroom).of_same hfront
      have hlen := hfl.length_le
      have hless := hsent.length_le
      simp only [deliveryFlags, length_map, length_cons] at hlen hless
      omega

variable (passes : Nat → Pass)

theorem drainLoop_sound (fuel k : Nat) (result : Option Errno) (connection : Connection) :
    (connection.Within → Accounts (∀ k, (passes k).Whole) connection (drainLoop passes fuel k result connection).handed
        (drainLoop passes fuel k result connection).connection) ∧
      deliveryFlags (drainLoop passes fuel k result connection).connection.sendQueue <:+
        deliveryFlags connection.sendQueue := by
  induction fuel generalizing k result connection with
  | zero => exact ⟨(refl connection).accounts _, suffix_rfl⟩
  | succ fuel ih =>
    obtain ⟨hpass, hfl⟩ := drainPass_sound (passes k) result connection
    unfold drainLoop
    split
    · rename_i hreturns
      rw [hreturns] at hpass hfl
      exact ⟨accounts hpass _, hfl⟩
    · rename_i hagain
      rw [hagain] at hpass hfl
      refine ⟨fun hin => ?_, (ih _ _ _).2.trans hfl⟩
      have hacc := hpass.1 hin
      exact (hacc.mono (fun hwhl => hwhl k)).trans ((ih _ _ _).1 hacc.within)

/-- The drain returns: it makes no more passes than one for each request and one more. -/
theorem drainLoop_fuel (fuel fuel' k : Nat) (result : Option Errno) (connection : Connection)
    (hfuel : connection.sendQueue.length < fuel) (hfuel' : connection.sendQueue.length < fuel') :
    drainLoop passes fuel k result connection = drainLoop passes fuel' k result connection := by
  induction fuel generalizing fuel' k result connection with
  | zero => omega
  | succ fuel ih =>
    obtain ⟨fuel', rfl⟩ : ∃ n, fuel' = n + 1 := ⟨fuel' - 1, by omega⟩
    have hpass := (drainPass_sound (passes k) result connection).1
    unfold drainLoop
    split
    · rfl
    rename_i after handed result' hagain
    rw [hagain] at hpass
    have hsht := hpass.2
    rw [ih fuel' (k + 1) result' after (by omega) (by omega)]

theorem replyDrain_accounts (connection : Connection) (hin : connection.Within) :
    Accounts (∀ k, (passes k).Whole) connection (replyDrain passes connection).handed
      (replyDrain passes connection).connection :=
  (drainLoop_sound passes _ 0 none connection).1 hin

/-- The batches of the drain an enqueue may start are taken as a whole. -/
def Admission.Whole (admission : Admission) : Prop := ∀ k, (admission.passes k).Whole

variable (admission : Admission)

theorem scheduleReplyDrain_sound (connection : Connection) :
    (connection.Within → Accounts admission.Whole connection (scheduleReplyDrain admission connection).handed
        (scheduleReplyDrain admission connection).connection) ∧
      deliveryFlags (scheduleReplyDrain admission connection).connection.sendQueue <:+
        deliveryFlags connection.sendQueue := by
  unfold scheduleReplyDrain
  split
  · exact ⟨(refl connection).accounts _, suffix_rfl⟩
  have hact : SameWindow connection { connection with sendDrainActive := true } := ⟨rfl, rfl⟩
  obtain ⟨hdr, hfl⟩ := drainLoop_sound admission.passes (connection.sendQueue.length + 1) 0 none
    { connection with sendDrainActive := true }
  have hdr := fun hin => (hdr (hact.within hin)).of_same hact
  simp only
  split
  · exact ⟨hact.accounts _, suffix_rfl⟩
  split
  · exact ⟨hdr, hfl⟩
  · exact ⟨fun hin => (hdr hin).after_same ⟨rfl, rfl⟩, hfl⟩

theorem replyEnqueueWithPriority_accounts (request : ReplyRequest) {prioritize : Bool}
    (connection : Connection) (hin : connection.Within) :
    Accounts admission.Whole connection (replyEnqueueWithPriority admission request prioritize connection).handed
      (replyEnqueueWithPriority admission request prioritize connection).connection := by
  have hrefl := (refl connection).accounts admission.Whole hin
  have hcl := (close connection).accounts admission.Whole hin
  unfold replyEnqueueWithPriority
  split
  · exact hrefl
  split
  · exact hrefl
  split
  · exact hrefl
  split
  · simp only
    split
    · exact hcl
    · exact hrefl
  · exact ((release connection request).trans (close _)).accounts _ hin
  · generalize hqd : ({ connection with
        sendQueue :=
          if prioritize then prioritized request connection.sendQueue else connection.sendQueue ++ [request]
        terminalReplyCount := connection.terminalReplyCount + request.preserveOnTerminalError.toNat
        connackAdmitted := connection.connackAdmitted || request.carries .connack } : Connection) = queued
    have hsame : SameWindow connection queued := by
      subst hqd
      exact ⟨rfl, rfl⟩
    have hsched := ((scheduleReplyDrain_sound admission queued).1 (hsame.within hin)).of_same hsame
    simp only
    split
    · exact hsched
    · exact hsched.after_same (close _)

theorem ackEnqueue_accounts {version : Version} (ack : AckIntent) (connection : Connection) (hin : connection.Within) :
    Accounts admission.Whole connection (ackEnqueue admission version ack connection).handed
      (ackEnqueue admission version ack connection).connection := by
  have hrefl := (refl connection).accounts admission.Whole hin
  unfold ackEnqueue
  split
  · exact hrefl
  split
  · exact hrefl
  · exact replyEnqueueWithPriority_accounts admission _ connection hin

theorem acknowledgementReply_accounts (version : Version) (reply : Option AckIntent)
    (connection : Connection) (hin : connection.Within) :
    Accounts admission.Whole connection (acknowledgementReply admission version reply connection).handed
      (acknowledgementReply admission version reply connection).connection := by
  unfold acknowledgementReply
  split
  · exact ackEnqueue_accounts admission _ connection hin
  split
  · exact (refl connection).accounts _ hin
  · exact (scheduleReplyDrain_sound admission connection).1 hin

variable {packet : PacketView} {result : Owner × Option AckIntent}

variable {connection : Connection} {commit : Option Errno}

omit [Vstr] in
theorem Connection.staged_eq_ok {α : Type} {op : Owner → Except Errno (Owner × α)} {result : Owner × α}
    (h : connection.staged commit op = .ok result) : ∃ owner, op owner = .ok result := by
  unfold Connection.staged at h
  split at h
  · split at h
    · cases h
    rename_i copy _
    split at h
    · cases h
    · cases h
    rename_i hop
    cases h
    exact ⟨copy, hop⟩
  · exact ⟨connection.owner, h⟩

theorem acknowledged_parses (h : connection.acknowledged packet commit = .ok result) :
    ∃ control, controlPacketParse packet = .ok control := by
  obtain ⟨owner, hown⟩ := Connection.staged_eq_ok h
  split at hown
  · cases hown
  · obtain ⟨-, control, _, _, hctl, -⟩ := deliveryAck_eq_ok hown
    exact ⟨control, hctl⟩

section

omit [Vstr]

variable {freed : Connection}

theorem freed_eq_ok (h : connection.freed packet = .ok freed) :
    freed.sendQueue = connection.sendQueue ∧ freed.clientReceiveMaximum = connection.clientReceiveMaximum ∧
      freed.outboundQosInflight.toNat + (frees packet).toNat = connection.outboundQosInflight.toNat := by
  unfold Connection.freed at h
  split at h
  · rename_i hfrees
    split_ifs at h with hne
    cases h
    refine ⟨rfl, rfl, ?_⟩
    have hpos : 0 < connection.outboundQosInflight.toNat :=
      Nat.pos_of_ne_zero fun hzero => hne (UInt16.toNat_inj.mp hzero)
    have hsub : (connection.outboundQosInflight - 1).toNat = connection.outboundQosInflight.toNat - 1 :=
      UInt16.toNat_sub_of_le _ _ (UInt16.le_iff_toNat_le.mpr hpos)
    simp only [hsub, hfrees, Bool.toNat_true]
    omega
  · rename_i hfrees
    cases h
    simp [hfrees]

theorem freed_eq_error {e : Errno} (h : connection.freed packet = .error e) :
    frees packet = true ∧ connection.outboundQosInflight = 0 := by
  unfold Connection.freed at h
  split at h
  · rename_i hfrees
    split at h
    · rename_i hzero
      exact ⟨hfrees, hzero⟩
    · cases h
  · cases h

theorem freed_within (h : connection.freed packet = .ok freed) (hin : connection.Within) : freed.Within := by
  obtain ⟨-, hmaximum, hcnt⟩ := freed_eq_ok h
  unfold Connection.Within at hin ⊢
  rw [hmaximum]
  omega

end

end

/-- A connection and the packet identifiers of its open exchanges: those of the deliveries the
    transport took whose exchange has not ended. -/
structure World where
  connection : Connection
  exchanges : List UInt16

/-- What happens to a connection once its CONNECT was negotiated. The session is also used by the
    rest of the endpoint, and a DISCONNECT only marks the connection. -/
inductive Event where
  | enqueue (admission : Admission) (request : ReplyRequest) (prioritize : Bool)
  | drain (passes : Nat → Pass)
  | ack (admission : Admission) (packet : PacketView) (commit : Option Errno)
  | session (op : Op)
  | disconnect
  | closeAfterTerminalReplies
  | close

section

variable [Vstr]

/-- The exchange an acknowledgement ends: a PUBACK, a PUBCOMP and a PUBREC that refuses the message
    are the last packet of theirs. -/
def endsExchange (packet : PacketView) : Option UInt16 :=
  match controlPacketParse packet with
  | .error _ => none
  | .ok control =>
    if packet.type = .puback ∨ packet.type = .pubcomp ∨ (packet.type = .pubrec ∧ control.reasonCode ≥ 0x80) then
      some control.packetId
    else none

/-- The open exchanges after an acknowledgement, which counts when the session takes it. -/
def World.ended (world : World) (packet : PacketView) (commit : Option Errno) : List UInt16 :=
  match world.connection.acknowledged packet commit, endsExchange packet with
  | .ok _, some packetId => world.exchanges.erase packetId
  | _, _ => world.exchanges

/-- The exchanges a call opens are those the transport took. -/
def World.after (exchanges : List UInt16) (effect : Effect) : World := ⟨effect.connection, exchanges ++ effect.handed⟩

def World.step (world : World) : Event → World
  | .enqueue admission request prioritize =>
    .after world.exchanges (replyEnqueueWithPriority admission request prioritize world.connection)
  | .drain passes => .after world.exchanges (replyDrain passes world.connection)
  | .ack admission packet commit =>
    .after (world.ended packet commit) (prepareDeliveryAck admission packet commit world.connection)
  | .session op => { world with connection := { world.connection with owner := next world.connection.owner op } }
  | .disconnect => { world with connection := { world.connection with closing := true } }
  | .closeAfterTerminalReplies => { world with connection := world.connection.closeAfterTerminalReplies }
  | .close => { world with connection := world.connection.close }

/-- The peer acknowledges only what it was sent and has not acknowledged to the end. -/
def World.Honest (world : World) : Event → Prop
  | .ack _ packet _ => ∀ control, controlPacketParse packet = .ok control → control.packetId ∈ world.exchanges
  | _ => True

def Refuses (packet : PacketView) : Prop :=
  packet.type = .pubrec ∧ ∃ control, controlPacketParse packet = .ok control ∧ control.reasonCode ≥ 0x80

/-- The steps the counter follows: no PUBREC refuses a message and no send fails half way. -/
def Event.Counted : Event → Prop
  | .enqueue admission _ _ => admission.Whole
  | .drain passes => ∀ k, (passes k).Whole
  | .ack admission packet _ => ¬Refuses packet ∧ admission.Whole
  | _ => True

/-- The counter is the number of open exchanges. -/
def World.Balanced (world : World) : Prop :=
  world.connection.outboundQosInflight.toNat = world.exchanges.length

variable {admission : Admission} {packet : PacketView} {commit : Option Errno} {connection : Connection}
  {owner : Owner} {reply : Option AckIntent}

/-- What an acknowledgement that the session took does to the counter. -/
theorem prepareDeliveryAck_counted {freed : Connection} (htkn : connection.acknowledged packet commit = .ok (owner, reply))
    (hfreed : Connection.freed { connection with owner := owner } packet = .ok freed) (hin : connection.Within)
    (hwhl : admission.Whole) :
    (prepareDeliveryAck admission packet commit connection).connection.outboundQosInflight.toNat +
        (frees packet).toNat =
      connection.outboundQosInflight.toNat + (prepareDeliveryAck admission packet commit connection).handed.length := by
  have hcnt : freed.outboundQosInflight.toNat + (frees packet).toNat = connection.outboundQosInflight.toNat :=
    (freed_eq_ok hfreed).2.2
  have hrep := (acknowledgementReply_accounts admission packet.version reply freed (freed_within hfreed hin)).counted
    hwhl
  unfold prepareDeliveryAck
  simp only [htkn, hfreed]
  omega

theorem prepareDeliveryAck_within (hin : connection.Within) :
    (prepareDeliveryAck admission packet commit connection).connection.Within := by
  unfold prepareDeliveryAck
  split
  · exact hin
  split
  · exact hin
  · rename_i freed hfreed
    exact (acknowledgementReply_accounts admission packet.version _ freed (freed_within hfreed hin)).within

/-- No step leaves the window, whatever the peer and the transport do. -/
theorem World.step_within (world : World) {event : Event} (hin : world.connection.Within) :
    (world.step event).connection.Within := by
  cases event with
  | enqueue admission request prioritize =>
    exact (replyEnqueueWithPriority_accounts admission request world.connection hin).within
  | drain passes => exact (replyDrain_accounts passes world.connection hin).within
  | ack admission packet commit => exact prepareDeliveryAck_within hin
  | session op => exact hin
  | disconnect => exact hin
  | closeAfterTerminalReplies => exact (closeAfterTerminalReplies world.connection).within hin
  | close => exact (close world.connection).within hin

variable {result : Owner × Option AckIntent}

/-- An acknowledgement the session took ends at most its own exchange. -/
theorem World.ended_length {world : World}
    (htkn : world.connection.acknowledged packet commit = .ok result) (hhonest : world.Honest (.ack admission packet commit)) :
    (world.ended packet commit).length + (endsExchange packet).isSome.toNat = world.exchanges.length := by
  unfold World.ended
  rw [htkn]
  cases hends : endsExchange packet with
  | none => rfl
  | some packetId =>
    unfold endsExchange at hends
    split at hends
    · cases hends
    rename_i control hctl
    split at hends
    · cases hends
      have hopen := hhonest control hctl
      have hpos := length_pos_of_mem hopen
      simp only [Option.isSome_some, Bool.toNat_true]
      rw [length_erase_of_mem hopen]
      omega
    · cases hends

/-- The counter and the session agree on which acknowledgements end an exchange, but for a PUBREC
    that refuses the message. -/
theorem endsExchange_isSome (htkn : connection.acknowledged packet commit = .ok result)
    (hrefuses : ¬Refuses packet) : (endsExchange packet).isSome = frees packet := by
  obtain ⟨control, hctl⟩ := acknowledged_parses htkn
  have hrec : ¬(packet.type = .pubrec ∧ control.reasonCode ≥ 0x80) := fun h => hrefuses ⟨h.1, control, hctl, h.2⟩
  unfold endsExchange
  rw [hctl]
  simp only [hrec, or_false, frees]
  split
  · rename_i htype
    simpa using htype
  · rename_i htype
    simpa [not_or] using htype

theorem World.step_balanced (world : World) (event : Event) (hin : world.connection.Within)
    (hbal : world.Balanced) (hhonest : world.Honest event) (hcntd : event.Counted) :
    (world.step event).Balanced := by
  -- Without an acknowledgement only the deliveries the transport took count.
  have hopens {whole : Prop} {effect : Effect} (h : Accounts whole world.connection effect.handed effect.connection)
      (hwhl : whole) : (World.after world.exchanges effect).Balanced := by
    have hcnt := h.counted hwhl
    unfold World.Balanced at hbal ⊢
    simp only [World.after, length_append]
    omega
  cases event with
  | enqueue admission request prioritize =>
    exact hopens (replyEnqueueWithPriority_accounts admission request world.connection hin) hcntd
  | drain passes => exact hopens (replyDrain_accounts passes world.connection hin) hcntd
  | ack admission packet commit =>
    obtain ⟨hrefuses, hwhl⟩ := hcntd
    cases htkn : world.connection.acknowledged packet commit with
    | error e =>
      simpa [World.Balanced, World.step, World.after, World.ended, prepareDeliveryAck, htkn] using hbal
    | ok result =>
      obtain ⟨owner, reply⟩ := result
      have hended := World.ended_length htkn hhonest
      rw [endsExchange_isSome htkn hrefuses] at hended
      cases hfreed : Connection.freed { world.connection with owner := owner } packet with
      | error e =>
        -- The place of an open exchange is counted, so there is one to give back.
        obtain ⟨hfrees, hzero⟩ := freed_eq_error hfreed
        have hzero : world.connection.outboundQosInflight.toNat = 0 := congrArg UInt16.toNat hzero
        rw [hfrees, Bool.toNat_true] at hended
        unfold World.Balanced at hbal
        omega
      | ok freed =>
        have hcnt := prepareDeliveryAck_counted htkn hfreed hin hwhl
        unfold World.Balanced at hbal ⊢
        simp only [World.step, World.after, length_append]
        omega
  | session op => exact hbal
  | disconnect => exact hbal
  | closeAfterTerminalReplies =>
    exact (congrArg UInt16.toNat (closeAfterTerminalReplies world.connection).inflight).trans hbal
  | close => exact (congrArg UInt16.toNat (close world.connection).inflight).trans hbal

/-- A PUBREC that refuses the message ends its exchange in the session and keeps its place in the
    window: the counter is one too high from then on. -/
theorem World.refused_stays_counted (world : World) (hin : world.connection.Within)
    (hbal : world.Balanced) (hhonest : world.Honest (.ack admission packet commit)) (hrefuses : Refuses packet)
    (hwhl : admission.Whole) (htkn : world.connection.acknowledged packet commit = .ok (owner, reply)) :
    (world.step (.ack admission packet commit)).connection.outboundQosInflight.toNat =
      (world.step (.ack admission packet commit)).exchanges.length + 1 := by
  obtain ⟨htype, control, hctl, hrsn⟩ := hrefuses
  have hfrees : frees packet = false := by simp [frees, htype]
  have hfreed : Connection.freed { world.connection with owner := owner } packet =
      .ok { world.connection with owner := owner } := by simp [Connection.freed, hfrees]
  have hended := World.ended_length htkn hhonest
  have hends : endsExchange packet = some control.packetId := by simp [endsExchange, hctl, htype, hrsn]
  have hcnt := prepareDeliveryAck_counted htkn hfreed hin hwhl
  rw [hends, Option.isSome_some, Bool.toNat_true] at hended
  rw [hfrees, Bool.toNat_false] at hcnt
  unfold World.Balanced at hbal
  simp only [World.step, World.after, length_append]
  omega

/-- A CONNECT only sets the size of the window. -/
theorem negotiateConnect_eq_ok {negotiated : Connection} {connect : ConnectView}
    (h : negotiateConnect connection connect = .ok negotiated) :
    negotiated = { connection with clientReceiveMaximum := negotiated.clientReceiveMaximum } := by
  unfold negotiateConnect at h
  split at h
  · split at h
    · cases h
      rfl
    · cases h
  · cases h
    rfl

/-- In every run of a connection whose peer acknowledges only what it was sent, where no PUBREC
    refuses a message and no send fails half way, unless nothing changes, the counter is the number of open exchanges. -/
theorem window_counts_open_exchanges (owner : Owner) (persistenceEnabled retainedSg : Bool) (connect : ConnectView)
    (connection : Connection)
    (hconn : negotiateConnect (connectionCreate owner persistenceEnabled retainedSg) connect = .ok connection)
    (events : List Event)
    (hrun : Run.Along World.step (fun world event => world.Honest event ∧ (event.Counted ∨ world.step event = world))
      ⟨connection, []⟩ events) :
    let world := events.foldl World.step ⟨connection, []⟩
    world.connection.outboundQosInflight.toNat = world.exchanges.length ∧
      world.connection.outboundQosInflight ≤ world.connection.clientReceiveMaximum ∧
      (world.exchanges = [] → world.connection.outboundQosInflight = 0) := by
  have hzero : connection.outboundQosInflight = 0 := by rw [negotiateConnect_eq_ok hconn]; rfl
  have hinit : World.Balanced ⟨connection, []⟩ ∧ connection.Within := by
    constructor
    · exact congrArg UInt16.toNat hzero
    unfold Connection.Within
    rw [hzero]
    exact Nat.zero_le _
  obtain ⟨hbal, hin⟩ := hrun.invariant (I := fun world => world.Balanced ∧ world.connection.Within)
    (fun world event hinv hev => hev.2.elim
      (fun hcntd => ⟨world.step_balanced event hinv.2 hinv.1 hev.1 hcntd, world.step_within hinv.2⟩)
      fun hsame => hsame.symm ▸ hinv) hinit
  refine ⟨hbal, UInt16.le_iff_toNat_le.mpr hin, ?_⟩
  intro hended
  unfold World.Balanced at hbal
  rw [hended] at hbal
  exact UInt16.toNat_inj.mp hbal

/-- The counter stays within the window whatever the peer and the transport do. -/
theorem window_never_exceeded {persistenceEnabled retainedSg : Bool} {connect : ConnectView}
    (hconn : negotiateConnect (connectionCreate owner persistenceEnabled retainedSg) connect = .ok connection)
    (events : List Event) : (events.foldl World.step ⟨connection, []⟩).connection.Within := by
  have hinit : connection.Within := by
    rw [negotiateConnect_eq_ok hconn]
    exact Nat.zero_le _
  have hrun : Run.Along World.step (fun _ _ => True) ⟨connection, []⟩ events := .of_forall (fun _ _ _ => trivial) _
  exact hrun.invariant (I := (·.connection.Within)) (fun world _ hin _ => world.step_within hin) hinit

end

section Runs

attribute [local instance] asciiVstr

/-- Surroundings that answer every question well. -/
def calmPass : Pass := ⟨fun _ => 1, fun _ => none, none⟩

def calmAdmission : Admission := ⟨true, none, none, none, false, fun _ => calmPass⟩

def deliveryRequest (packet : Bytes) (packetId : UInt16) (version : Version) : ReplyRequest :=
  { packet := packet
    closeAfterSend := false
    preserveOnTerminalError := false
    subscriberDelivery := true
    qosDelivery := true
    deliveryPacketId := packetId
    expiryAtEpochSeconds := 0
    protocolVersion := version }

/-- A session connects, gets a delivery, and the client acknowledges it with the packet. -/
def acknowledgedRun (connect : ConnectView) (qos : UInt8) (publish : Bytes) (ack : PacketView) : List Event :=
  [.session (.connect connect false), .session (.reserve qos), .session (.commit 1 publish 0 false),
    .enqueue calmAdmission (deliveryRequest publish 1 connect.version) false, .ack calmAdmission ack none]

def ackPacket (version : Version) (type : PacketType) (tail : Bytes) : PacketView := ⟨version, type, 0, [0, 1] ++ tail⟩

def pubackRun : List Event := acknowledgedRun persistentConnect 1 (samplePacket 1) (ackPacket .v311 .puback [])

theorem window_counts_open_exchanges_puback :
    (pubackRun.foldl World.step ⟨connectionCreate smallOwner false true, []⟩).exchanges = [] ∧
      (pubackRun.foldl World.step ⟨connectionCreate smallOwner false true, []⟩).connection.outboundQosInflight = 0 := by
  have hwhl : calmAdmission.Whole := by
    intro k count e h
    cases h
  have hsent : ∀ control, controlPacketParse (ackPacket .v311 .puback []) = .ok control → control.packetId ∈ [1] := by
    intro control hctl
    cases hctl
    decide
  have hrefuses : ¬Refuses (ackPacket .v311 .puback []) := fun h => nomatch h.1
  have hrun := window_counts_open_exchanges smallOwner false true persistentConnect (connectionCreate smallOwner false true)
    rfl pubackRun
    ⟨⟨trivial, .inl trivial⟩, ⟨trivial, .inl trivial⟩, ⟨trivial, .inl trivial⟩, ⟨trivial, .inl hwhl⟩,
      ⟨hsent, .inl ⟨hrefuses, hwhl⟩⟩, trivial⟩
  have hended : (pubackRun.foldl World.step ⟨connectionCreate smallOwner false true, []⟩).exchanges = [] := by decide
  exact ⟨hended, hrun.2.2 hended⟩

theorem window_never_exceeded_puback :
    (pubackRun.foldl World.step ⟨connectionCreate smallOwner false true, []⟩).connection.Within :=
  window_never_exceeded (rfl : negotiateConnect (connectionCreate smallOwner false true) persistentConnect = _) pubackRun

/-- A QoS 2 delivery in MQTT 5 that the client refuses with a PUBREC of reason 0x80 leaves the
    session without a delivery and the counter at one. -/
theorem refused_delivery_keeps_its_place : let connect : ConnectView := { persistentConnect with version := .v5 }
    let events := acknowledgedRun connect 2 [0x34, 0x06, 0x00, 0x01, 0x74, 0x00, 0x01, 0x00]
      (ackPacket .v5 .pubrec [0x80])
    let sent := (events.take 4).foldl World.step ⟨connectionCreate smallOwner false true, []⟩
    let world := events.foldl World.step ⟨connectionCreate smallOwner false true, []⟩
    sent.exchanges = [1] ∧ world.connection.owner.deliveries.entries = [] ∧ world.exchanges = [] ∧
      world.connection.outboundQosInflight = 1 := by
  decide

end Runs

end Flowie.Endpoint
