import Flowie.Lib.Credit
import Flowie.Endpoint.Window

/-!
# Replies behind a full window

A drain sends the queue of a connection in order and stops at the first QoS delivery that has no place in
the Receive Maximum window. A reply that is not prioritized waits behind the deliveries that were queued
before it: `control_replies_held_iff` says which requests a drain leaves.
-/

namespace Flowie.Endpoint

open List Connection Mqtt Session Credit

def Connection.places (connection : Connection) : Nat :=
  connection.clientReceiveMaximum.toNat - connection.outboundQosInflight.toNat

variable (expired : UInt64 → Bool)

/-- A request that is dropped when it comes to the front of the queue. -/
def ReplyRequest.expires (request : ReplyRequest) : Bool :=
  request.expiryAtEpochSeconds != 0 && expired request.expiryAtEpochSeconds

/-- The requests that stay in the queue with so many places in the window. -/
def heldBack (places : Nat) (queue : List ReplyRequest) : List ReplyRequest :=
  held (·.qosDelivery) (·.expires expired) places queue

/-- Every reading of the clock during a drain finds the same requests of the queue expired. -/
def Steady (passes : Nat → Pass) (queue : List ReplyRequest) : Prop :=
  ∀ request ∈ queue, request.expiryAtEpochSeconds ≠ 0 → ∀ k i,
    (expired request.expiryAtEpochSeconds = true ↔ request.expiryAtEpochSeconds ≤ (passes k).clock i)

variable {expired : UInt64 → Bool} {request : ReplyRequest}

theorem not_expires_of_lasting (h : request.expiryAtEpochSeconds = 0) : request.expires expired = false := by
  simp [ReplyRequest.expires, h]

/-- A request that is sent takes a place when it is a delivery. -/
theorem heldBack_cons {places : Nat} (hlive : request.expires expired = false) (hroom : request.qosDelivery = true → 0 < places)
    (queue : List ReplyRequest) :
    heldBack expired places (request :: queue) = heldBack expired (places - request.qosDelivery.toNat) queue := by
  cases hqos : request.qosDelivery with
  | false => exact held_cons_free hqos _ _
  | true =>
    obtain ⟨left, rfl⟩ : ∃ left, places = left + 1 := ⟨places - 1, by have := hroom hqos; omega⟩
    exact held_cons_paid hqos hlive _ _

section
variable (expired : UInt64 → Bool)

/-- A batch takes the requests from the queue that are not held back. -/
theorem collect_held (connection : Connection) (qosCount count : Nat) (request : ReplyRequest)
    (queue : List ReplyRequest) (hlive : request.expires expired = false)
    (hroom : request.qosDelivery = true → qosCount < connection.places) :
    heldBack expired (connection.places - qosCount) (request :: queue) =
      heldBack expired (connection.places - (collect connection qosCount count request queue).qosDeliveryCount)
        (collect connection qosCount count request queue).rest := by
  induction queue generalizing qosCount count request with
  | nil =>
    rw [heldBack_cons hlive (fun hqos => Nat.sub_pos_of_lt (hroom hqos))]
    exact (held_nil _).trans (held_nil _).symm
  | cons next rest ih =>
    rw [heldBack_cons hlive (fun hqos => Nat.sub_pos_of_lt (hroom hqos)), Nat.sub_sub]
    unfold collect
    split
    · rfl
    rename_i hgo
    simp only [batchEnds, Bool.or_eq_true, not_or, bne_iff_ne, not_not, Bool.and_eq_true, not_and, decide_eq_true_eq,
      ge_iff_le, Nat.not_le] at hgo
    obtain ⟨⟨-, hlasting⟩, hfits⟩ := hgo
    refine ih _ _ next (not_expires_of_lasting hlasting) fun hqos => ?_
    have := hfits hqos
    unfold Connection.places
    omega

/-- What the loop over expired requests leaves of the queue: the end of it, perhaps with a refreshed packet in front,
    from which the same requests are held back when the clock finds the same requests expired. -/
structure Shortens (expired : UInt64 → Bool) (steady : Prop) (before after : List ReplyRequest) : Prop where
  times : after.map (·.expiryAtEpochSeconds) <:+ before.map (·.expiryAtEpochSeconds)
  less : ∀ places, deliveryFlags (heldBack (fun _ => false) places after) <:+
    deliveryFlags (heldBack (fun _ => false) places before)
  same : steady → ∀ places, deliveryFlags (heldBack expired places after) = deliveryFlags (heldBack expired places before)

theorem Shortens.refl (steady : Prop) (queue : List ReplyRequest) : Shortens expired steady queue queue :=
  ⟨suffix_rfl, fun _ => suffix_rfl, fun _ _ => rfl⟩

theorem Shortens.refreshed (steady : Prop) (request : ReplyRequest) (packet : Bytes)
    (rest : List ReplyRequest) : Shortens expired steady (request :: rest) ({ request with packet := packet } :: rest) := by
  have hfl : ∀ expired places, deliveryFlags (heldBack expired places ({ request with packet := packet } :: rest)) =
      deliveryFlags (heldBack expired places (request :: rest)) := fun expired places =>
    map_held_cons (by rfl) (by rfl) (by rfl) places rest
  exact ⟨suffix_rfl, fun places => hfl (fun _ => false) places ▸ suffix_rfl, fun _ places => hfl expired places⟩

end

variable {steady : Prop} {after : List ReplyRequest}

theorem Shortens.mono {steady' : Prop} {before : List ReplyRequest} (h : Shortens expired steady before after)
    (himp : steady' → steady) : Shortens expired steady' before after :=
  ⟨h.times, h.less, fun hstdy => h.same (himp hstdy)⟩

/-- An expired request at the front is dropped. -/
theorem Shortens.dropped {rest : List ReplyRequest} (h : Shortens expired steady rest after)
    (hexpd : steady → request.expires expired = true) : Shortens expired steady (request :: rest) after := by
  refine ⟨h.times.trans (suffix_cons _ _), fun places => (h.less places).trans ?_, fun hstdy places => ?_⟩
  · exact (held_suffix_held_cons rest).map _
  · rw [h.same hstdy]
    exact congrArg deliveryFlags (held_cons_gone (hexpd hstdy) _ _).symm

section

variable [Vstr] {request : ReplyRequest} {commit : Option Errno} {now : UInt64} {connection : Connection}

theorem requestExpiryPrepare_live {packet : Bytes}
    (h : requestExpiryPrepare connection request now commit = .ok (.live packet)) (hset : request.expiryAtEpochSeconds ≠ 0) :
    now < request.expiryAtEpochSeconds := by
  unfold requestExpiryPrepare at h
  rw [if_neg hset] at h
  split at h
  · cases h
  split at h
  · assumption
  split at h
  · obtain ⟨_, -, hres⟩ := except_map_eq_ok h
    cases hres
  · cases h

variable {owner : Owner}

theorem requestExpiryPrepare_expired (h : requestExpiryPrepare connection request now commit = .ok (.expired owner)) :
    request.expiryAtEpochSeconds ≤ now := by
  unfold requestExpiryPrepare at h
  split at h
  · cases h
  split at h
  · cases h
  split at h
  · split at h
    · obtain ⟨_, -, hres⟩ := except_map_eq_ok h
      cases hres
    · split at h <;> cases h
  · rename_i hlate
    exact UInt64.not_lt.1 hlate

/-- The loop over the expired requests at the front. -/
theorem expireFront_shortens (expired : UInt64 → Bool) (passes : Nat → Pass) (k i : Nat) (queue : List ReplyRequest)
    (connection : Connection) (hok : (expireFront (passes k) i queue connection).2 = none) :
    Shortens expired (Steady expired passes queue) queue (expireFront (passes k) i queue connection).1.sendQueue ∧
      (Steady expired passes (expireFront (passes k) i queue connection).1.sendQueue →
        ∀ request ∈ (expireFront (passes k) i queue connection).1.sendQueue.head?, request.expires expired = false) := by
  induction queue generalizing i connection with
  | nil => exact ⟨Shortens.refl _ _ _, fun _ request hmem => by cases hmem⟩
  | cons request rest ih =>
    unfold expireFront at hok ⊢
    split at hok
    · rename_i hlasting
      rw [if_pos hlasting]
      refine ⟨Shortens.refl _ _ _, fun _ first hfst => ?_⟩
      cases hfst
      exact not_expires_of_lasting hlasting
    · rename_i hset
      rw [if_neg hset]
      split_ifs at hok with hclock
      rw [if_neg hclock]
      cases hprd : requestExpiryPrepare connection request ((passes k).clock i) ((passes k).commit i) with
      | error e =>
        rw [hprd] at hok
        cases hok
      | ok prepared =>
        rw [hprd] at hok
        cases prepared with
        | live packet =>
          refine ⟨Shortens.refreshed _ _ request packet rest, fun hstdy first hfst => ?_⟩
          cases hfst
          have hearly := requestExpiryPrepare_live hprd hset
          have hverdict := hstdy _ mem_cons_self hset k i
          show (request.expiryAtEpochSeconds != 0 && expired request.expiryAtEpochSeconds) = false
          rw [Bool.eq_false_iff.2 fun hexpd => absurd (hverdict.1 hexpd) (UInt64.not_le.2 hearly), Bool.and_false]
        | expired owner =>
          have hlate := requestExpiryPrepare_expired hprd
          have hrest : Steady expired passes (request :: rest) → Steady expired passes rest :=
            fun hstdy other hmem => hstdy other (mem_cons_of_mem _ hmem)
          obtain ⟨hsht, hfst⟩ := ih (i + 1) _ hok
          refine ⟨(hsht.mono hrest).dropped fun hstdy => ?_, hfst⟩
          rw [ReplyRequest.expires, (hstdy request mem_cons_self hset k i).2 hlate, Bool.and_true]
          exact bne_iff_ne.2 hset

/-- A queue that a drain may leave: no more than what is held back when nothing expires, and just what is held back
    when the clock finds the same requests expired. -/
structure Leaves (expired : UInt64 → Bool) (steady : Prop) (connection : Connection) (left : List ReplyRequest) : Prop where
  less : deliveryFlags left <:+ deliveryFlags (heldBack (fun _ => false) connection.places connection.sendQueue)
  same : steady → deliveryFlags left = deliveryFlags (heldBack expired connection.places connection.sendQueue)

variable {expired : UInt64 → Bool} {queue : List ReplyRequest} {passes : Nat → Pass}

omit [Vstr] in
theorem Steady.of_times (h : Steady expired passes queue)
    (htimes : after.map (·.expiryAtEpochSeconds) <:+ queue.map (·.expiryAtEpochSeconds)) : Steady expired passes after := by
  intro request hmem hset
  obtain ⟨other, hoth, htime⟩ := List.mem_map.1 (htimes.subset (mem_map_of_mem hmem))
  rw [← htime] at hset ⊢
  exact h other hoth hset

/-- How a pass ends: what it returns with is what is left, and what is left of a queue it goes on with is left of the
    queue it found. -/
def PassEnd.Leaves (expired : UInt64 → Bool) (passes : Nat → Pass) (connection : Connection) : PassEnd → Prop
  | .returns after status =>
    status = none → after.closing = false →
      Endpoint.Leaves expired (Steady expired passes connection.sendQueue) connection after.sendQueue
  | .again after _ _ =>
    after.closing = true ∨ ∀ left, Endpoint.Leaves expired (Steady expired passes after.sendQueue) after left →
      Endpoint.Leaves expired (Steady expired passes connection.sendQueue) connection left

section

omit [Vstr]

variable {steady : Prop} {after : Connection}

theorem Shortens.leaves {left : List ReplyRequest}
    (h : Shortens expired steady connection.sendQueue after.sendQueue) (hplaces : after.places = connection.places)
    (hleft : Leaves expired steady after left) : Leaves expired steady connection left := by
  obtain ⟨hless, hsame⟩ := hleft
  rw [hplaces] at hless hsame
  exact ⟨hless.trans (h.less _), fun hstdy => (hsame hstdy).trans (h.same hstdy _)⟩

theorem SameWindow.places {before : Connection} (h : SameWindow before after) : after.places = before.places := by
  unfold Connection.places
  rw [h.maximum, h.inflight]

variable (connection : Connection)

theorem releases_closing (requests : List ReplyRequest) :
    (requests.foldl release connection).closing = connection.closing := by
  induction requests generalizing connection with
  | nil => rfl
  | cons request requests ih =>
    refine (ih _).trans ?_
    unfold release
    split <;> rfl

theorem failReplyQueue_closing : connection.failReplyQueue.closing = connection.closing :=
  releases_closing connection connection.sendQueue

theorem close_closing : connection.close.closing = true :=
  failReplyQueue_closing { connection with closing := true }

/-- A batch that was sent leaves the connection closing, or with the rest of the queue and the places it has not
    taken. -/
theorem batchSent_cases (pass : Pass) (request : ReplyRequest) (rest : List ReplyRequest) (hin : connection.Within)
    (hroom : ¬(request.qosDelivery ∧ connection.outboundQosInflight ≥ connection.clientReceiveMaximum)) :
    (batchSent connection (collect connection 0 0 request rest) pass).1.closing = true ∨
      (batchSent connection (collect connection 0 0 request rest) pass).1.sendQueue =
          (collect connection 0 0 request rest).rest ∧
        (batchSent connection (collect connection 0 0 request rest) pass).1.places =
          connection.places - (collect connection 0 0 request rest).qosDeliveryCount := by
  have hacc := batch_accounts connection pass request rest hin hroom
  have hcnt := collect_count connection 0 0 request rest
  revert hacc
  unfold batchSent Pass.taken
  cases hfail : pass.sendFailure with
  | some failure => exact fun _ => .inl (close_closing _)
  | none =>
    dsimp only
    split
    · exact fun _ => .inl (close_closing _)
    intro hacc
    have hinfl := hacc.counted (fun count e h => by rw [hfail] at h; cases h)
    refine .inr ⟨by rw [releases_sendQueue]; rfl, ?_⟩
    unfold Connection.places
    rw [hacc.maximum, hinfl]
    omega

variable {rest : List ReplyRequest}

/-- A pass that sends a batch: what is held back of the rest is held back of the queue. -/
theorem batchSent_leaves {connection : Connection} {pass : Pass}
    (hque : connection.sendQueue = request :: rest) (hin : connection.Within)
    (hroom : ¬(request.qosDelivery ∧ connection.outboundQosInflight ≥ connection.clientReceiveMaximum))
    (hlive : Steady expired passes connection.sendQueue → request.expires expired = false) :
    PassEnd.Leaves expired passes connection
      (.again (batchSent connection (collect connection 0 0 request rest) pass).1 [] none) := by
  have hplaces : request.qosDelivery = true → 0 < connection.places := by
    intro hqos
    have hfree : ¬connection.clientReceiveMaximum.toNat ≤ connection.outboundQosInflight.toNat := fun hle =>
      hroom ⟨hqos, UInt16.le_iff_toNat_le.2 hle⟩
    unfold Connection.places
    omega
  rcases batchSent_cases connection pass request rest hin hroom with hclosing | ⟨hrest, hleft⟩
  · exact .inl hclosing
  refine .inr fun left h => ?_
  obtain ⟨hless, hsame⟩ := h
  rw [hrest, hleft] at hless hsame
  have hheld := fun expired hlive => collect_held expired connection 0 0 request rest hlive hplaces
  refine ⟨?_, fun hstdy => ?_⟩
  · rw [hque, ← Nat.sub_zero connection.places, hheld _ (by simp [ReplyRequest.expires])]
    exact hless
  have hlat : Steady expired passes (collect connection 0 0 request rest).rest := by
    refine hstdy.of_times ?_
    rw [hque]
    exact ((collect_rest_suffix connection 0 0 request rest).trans (suffix_cons request rest)).map _
  rw [hque, ← Nat.sub_zero connection.places, hheld _ (hlive hstdy)]
  exact hsame hlat

/-- A delivery in front of a full window holds the whole queue back. -/
theorem leaves_of_full {connection : Connection}
    (hque : connection.sendQueue = request :: rest) (hqos : request.qosDelivery = true)
    (hfull : connection.outboundQosInflight ≥ connection.clientReceiveMaximum) (hlive : steady → request.expires expired = false) :
    Leaves expired steady connection connection.sendQueue := by
  have hplaces : connection.places = 0 := Nat.sub_eq_zero_of_le (UInt16.le_iff_toNat_le.1 hfull)
  have hheld : ∀ expired, request.expires expired = false →
      heldBack expired connection.places connection.sendQueue = connection.sendQueue := by
    intro expired hlive
    rw [hplaces, hque]
    exact held_cons_blocked hqos hlive rest
  refine ⟨?_, fun hstdy => by rw [hheld _ (hlive hstdy)]⟩
  rw [hheld _ (by simp [ReplyRequest.expires])]

end

theorem drainPass_leaves (expired : UInt64 → Bool) (passes : Nat → Pass) (k : Nat) (result : Option Errno)
    (hin : connection.Within) : (drainPass (passes k) result connection).Leaves expired passes connection := by
  unfold drainPass
  split
  · rename_i hclosing
    intro _ hopen
    have hkept : connection.failReplyQueue.closing = false := hopen
    rw [failReplyQueue_closing, hclosing] at hkept
    cases hkept
  · split
    · rename_i hempty
      intro _ _
      have hnil : connection.sendQueue = [] := List.isEmpty_iff.1 hempty
      have hheld : ∀ expired, heldBack expired connection.places connection.sendQueue = connection.sendQueue := by
        intro expired
        rw [hnil]
        exact held_nil _
      exact ⟨by rw [hheld], fun _ => by rw [hheld]⟩
    · split
      · exact fun hstatus => by cases hstatus
      rename_i after hexpr
      obtain ⟨hsht, hlive⟩ :=
        expireFront_shortens expired passes k 0 connection.sendQueue connection (by rw [hexpr])
      have hsame := (expireFront_sound (passes k) 0 connection.sendQueue connection).1
      rw [hexpr] at hsht hlive hsame
      -- what is left of the shortened queue is left of the queue
      have hback : ∀ left, Leaves expired (Steady expired passes after.sendQueue) after left →
          Leaves expired (Steady expired passes connection.sendQueue) connection left := fun left hleft =>
        hsht.leaves hsame.places ⟨hleft.less, fun hstdy => hleft.same (hstdy.of_times hsht.times)⟩
      split
      · exact .inr hback
      rename_i request rest hque
      have hfst : Steady expired passes after.sendQueue → request.expires expired = false := fun hstdy =>
        hlive hstdy request (by rw [hque]; rfl)
      split
      · rename_i hfull
        exact fun _ _ => hback _ (leaves_of_full hque hfull.1 hfull.2 hfst)
      rename_i hroom
      exact (batchSent_leaves hque (hsame.within hin) hroom hfst).imp_right fun hsent left hleft =>
        hback left (hsent left hleft)

theorem drainLoop_closing (h : connection.closing = true) (passes : Nat → Pass) (fuel k : Nat)
    (result : Option Errno) : (drainLoop passes fuel k result connection).connection.closing = true := by
  cases fuel with
  | zero => exact h
  | succ fuel =>
    unfold drainLoop drainPass
    rw [if_pos h]
    exact (failReplyQueue_closing connection).trans h

/-- What a drain leaves that does not fail and does not close the connection. -/
theorem drainLoop_leaves (expired : UInt64 → Bool) (passes : Nat → Pass) {fuel k : Nat} {result : Option Errno}
    (hin : connection.Within) (hfuel : connection.sendQueue.length < fuel)
    (hok : (drainLoop passes fuel k result connection).status = none)
    (hopen : (drainLoop passes fuel k result connection).connection.closing = false) :
    Leaves expired (Steady expired passes connection.sendQueue) connection
      (drainLoop passes fuel k result connection).connection.sendQueue := by
  induction fuel generalizing k result connection with
  | zero => cases hfuel
  | succ fuel ih =>
    have hpass := drainPass_leaves expired passes k result hin
    have hsnd := (drainPass_sound (passes k) result connection).1
    unfold drainLoop at hok hopen ⊢
    cases hend : drainPass (passes k) result connection with
    | returns after status =>
      rw [hend] at hpass hok hopen
      exact hpass hok hopen
    | again after handed later =>
      rw [hend] at hpass hsnd hok hopen
      rcases hpass with hclosing | hback
      · have hclsd := drainLoop_closing hclosing passes fuel (k + 1) later
        rw [hclsd] at hopen
        cases hopen
      · exact hback _ (ih (hsnd.1 hin).within (Nat.lt_of_lt_of_le hsnd.2 (Nat.le_of_lt_succ hfuel)) hok hopen)

/-- A queue in which nothing but deliveries stands behind a delivery. -/
def Ordered (queue : List ReplyRequest) : Prop :=
  (deliveryFlags queue).Pairwise fun first later => first = true → later = true

section

omit [Vstr]

variable (h : Ordered queue)
include h

theorem Ordered.of_suffix {left : List ReplyRequest} (hleft : deliveryFlags left <:+ deliveryFlags queue) : Ordered left :=
  h.sublist hleft.sublist

/-- A request at the end keeps the order when it is a delivery or no delivery is before it. -/
theorem Ordered.append (hrequest : request.qosDelivery = false → ∀ queued ∈ queue, queued.qosDelivery = false) :
    Ordered (queue ++ [request]) := by
  unfold Ordered deliveryFlags
  rw [map_append, pairwise_append]
  refine ⟨h, pairwise_singleton _ _, ?_⟩
  intro first hfst later hlat hset
  obtain ⟨queued, hqd, rfl⟩ := List.mem_map.1 hfst
  rw [map_singleton, mem_singleton] at hlat
  cases hqos : request.qosDelivery with
  | true => exact hlat.trans hqos
  | false =>
    rw [hrequest hqos queued hqd] at hset
    cases hset

theorem Ordered.prioritized (request : ReplyRequest) : Ordered (prioritized request queue) := by
  induction queue with
  | nil => exact pairwise_singleton _ _
  | cons first rest ih =>
    have hcons := List.pairwise_cons.1 (show (first.qosDelivery :: deliveryFlags rest).Pairwise _ from h)
    cases hqos : first.qosDelivery with
    | false =>
      have hstep : Endpoint.prioritized request (first :: rest) = first :: Endpoint.prioritized request rest := by
        simp [Endpoint.prioritized, hqos]
      rw [hstep]
      refine List.pairwise_cons.2 ⟨fun later _ hset => ?_, ih hcons.2⟩
      exact absurd (hqos.symm.trans hset) Bool.false_ne_true
    | true =>
      have hstep : Endpoint.prioritized request (first :: rest) = request :: first :: rest := by
        simp [Endpoint.prioritized, hqos]
      rw [hstep]
      refine List.pairwise_cons.2 ⟨fun later hlat _ => ?_, h⟩
      rcases List.mem_cons.1 hlat with rfl | hrest
      · exact hqos
      · exact hcons.1 later hrest hqos

end

/-- A call of `flowie_connection_reply_drain`. -/
structure DrainCall where
  passes : Nat → Pass
  connection : Connection

def DrainCall.left (call : DrainCall) : List ReplyRequest := (replyDrain call.passes call.connection).connection.sendQueue

/-- The call returns without error and the connection is still open. -/
def DrainCall.Returns (call : DrainCall) : Prop :=
  (replyDrain call.passes call.connection).status = none ∧
    (replyDrain call.passes call.connection).connection.closing = false

def Connection.queued (connection : Connection) (request : ReplyRequest) (prioritize : Bool) : Connection :=
  { connection with
    sendQueue := if prioritize then prioritized request connection.sendQueue else connection.sendQueue ++ [request]
    terminalReplyCount := connection.terminalReplyCount + request.preserveOnTerminalError.toNat
    connackAdmitted := connection.connackAdmitted || request.carries .connack }

variable (admission : Admission)

/-- The request is taken into the queue. -/
def admits (request : ReplyRequest) (connection : Connection) : Bool :=
  !request.packet.isEmpty && !(connection.closing || connection.closeWhenRepliesDrain) && admission.started &&
    admission.budget.isNone && admission.room.isNone

/-- The drain that `flowie_connection_schedule_reply_drain` makes. -/
def scheduledDrain (connection : Connection) : Option DrainCall :=
  if connection.sendDrainActive || admission.deferred then none
  else some ⟨admission.passes, { connection with sendDrainActive := true }⟩

def enqueueDrain (request : ReplyRequest) (prioritize : Bool) (connection : Connection) :
    Option DrainCall :=
  if admits admission request connection then scheduledDrain admission (connection.queued request prioritize) else none

def ackDrain (version : Version) (reply : Option AckIntent) (connection : Connection) :
    Option DrainCall :=
  match reply with
  | none => if connection.sendQueue.isEmpty then none else scheduledDrain admission connection
  | some ack =>
    match ackControlPacket ack version with
    | .error _ => none
    | .ok control =>
      match replyControlRequestCreate admission control with
      | .error _ => none
      | .ok request => enqueueDrain admission request (ack.kind == .pubrel) connection

def World.drains (world : World) : Event → Option DrainCall
  | .enqueue admission request prioritize => enqueueDrain admission request prioritize world.connection
  | .drain passes => some ⟨passes, world.connection⟩
  | .ack admission packet commit =>
    match world.connection.acknowledged packet commit with
    | .error _ => none
    | .ok (owner, reply) =>
      match Connection.freed { world.connection with owner := owner } packet with
      | .error _ => none
      | .ok freed => ackDrain admission packet.version reply freed
  | _ => none

variable {admission : Admission} {call : DrainCall} {connection : Connection}

/-- A scheduled drain that succeeds is all that is done. -/
theorem scheduleReplyDrain_of_drain (h : scheduledDrain admission connection = some call)
    (hok : (replyDrain call.passes call.connection).status = none) :
    scheduleReplyDrain admission connection = replyDrain call.passes call.connection := by
  unfold scheduledDrain at h
  split_ifs at h with hfree
  simp only [Bool.or_eq_true, not_or] at hfree
  cases h
  unfold scheduleReplyDrain
  rw [if_neg hfree.1]
  dsimp only
  rw [if_neg hfree.2]
  rw [hok]

variable {prioritize : Bool}

theorem replyEnqueue_of_drain (h : enqueueDrain admission request prioritize connection = some call)
    (hok : (replyDrain call.passes call.connection).status = none) :
    replyEnqueueWithPriority admission request prioritize connection = replyDrain call.passes call.connection := by
  unfold enqueueDrain at h
  split at h
  · rename_i hadm
    simp only [admits, Bool.and_eq_true, Bool.not_eq_true', Option.isNone_iff_eq_none] at hadm
    obtain ⟨⟨⟨⟨hpkt, hopen⟩, hstarted⟩, hbudget⟩, hroom⟩ := hadm
    have hsched := scheduleReplyDrain_of_drain h hok
    unfold replyEnqueueWithPriority
    rw [if_neg (by simp [hpkt]), if_neg (by simp [hopen]), if_neg (by simp [hstarted]), hbudget, hroom]
    have hstatus := (congrArg Effect.status hsched).trans hok
    dsimp only
    split
    · exact hsched
    · rename_i hsome
      cases hstatus.symm.trans hsome
  · cases h

variable {reply : Option AckIntent} {version : Version}

theorem acknowledgementReply_of_drain
    (h : ackDrain admission version reply connection = some call) (hok : (replyDrain call.passes call.connection).status = none) :
    acknowledgementReply admission version reply connection = replyDrain call.passes call.connection := by
  unfold ackDrain at h
  unfold acknowledgementReply
  cases reply with
  | none =>
    split_ifs at h with hque
    rw [if_neg hque]
    exact scheduleReplyDrain_of_drain h hok
  | some ack =>
    unfold ackEnqueue
    cases hctl : ackControlPacket ack version with
    | error e => simp [hctl] at h
    | ok control =>
      cases hrequest : replyControlRequestCreate admission control with
      | error e => simp [hctl, hrequest] at h
      | ok request =>
        simp only [hctl, hrequest] at h ⊢
        exact replyEnqueue_of_drain h hok

variable {world : World} {event : Event}

/-- The drain of an event that succeeds is what becomes of the connection. -/
theorem World.step_of_drains (h : world.drains event = some call) (hok : (replyDrain call.passes call.connection).status = none) :
    (world.step event).connection = (replyDrain call.passes call.connection).connection := by
  cases event with
  | enqueue admission request prioritize => exact congrArg Effect.connection (replyEnqueue_of_drain h hok)
  | drain passes =>
    cases h
    rfl
  | ack admission packet commit =>
    show (prepareDeliveryAck admission packet commit world.connection).connection = _
    dsimp only [World.drains] at h
    unfold prepareDeliveryAck
    cases htkn : world.connection.acknowledged packet commit with
    | error e => simp [htkn] at h
    | ok taken =>
      obtain ⟨owner, reply⟩ := taken
      cases hfreed : Connection.freed { world.connection with owner } packet with
      | error e => simp [htkn, hfreed] at h
      | ok freed =>
        simp only [htkn, hfreed] at h ⊢
        exact congrArg Effect.connection (acknowledgementReply_of_drain h hok)
  | session op => cases h
  | disconnect => cases h
  | closeAfterTerminalReplies => cases h
  | close => cases h

/-- A reply that is not prioritized is queued only while no delivery is in the queue. -/
def World.InOrder (world : World) : Event → Prop
  | .enqueue _ request prioritize =>
    request.qosDelivery = false → prioritize = false →
      ∀ queued ∈ world.connection.sendQueue, queued.qosDelivery = false
  | _ => True

section
variable (h : Ordered connection.sendQueue)
  (hord : request.qosDelivery = false → prioritize = false → ∀ queued ∈ connection.sendQueue, queued.qosDelivery = false)
include h hord

omit [Vstr] in
theorem queued_ordered : Ordered (connection.queued request prioritize).sendQueue := by
  unfold queued
  cases prioritize with
  | true => exact h.prioritized request
  | false => exact h.append fun hqos => hord hqos rfl

theorem replyEnqueue_ordered (admission : Admission) :
    Ordered (replyEnqueueWithPriority admission request prioritize connection).connection.sendQueue := by
  have hclsd : ∀ closed : Connection, Ordered closed.close.sendQueue := fun _ => List.Pairwise.nil
  have hsched := (queued_ordered h hord).of_suffix (scheduleReplyDrain_sound admission _).2
  unfold replyEnqueueWithPriority
  split
  · exact h
  split
  · exact h
  split
  · exact h
  split
  · dsimp only
    split
    · exact hclsd _
    · exact h
  · exact hclsd _
  · dsimp only
    split
    · exact hsched
    · exact hclsd _

end

variable {packet : PacketView}

variable {ack : AckIntent}

/-- The only reply to an acknowledgement is a PUBREL. -/
theorem acknowledged_reply (h : connection.acknowledged packet commit = .ok (owner, some ack)) : ack.kind = .pubrel := by
  obtain ⟨before, hbef⟩ := staged_eq_ok h
  split at hbef
  · cases hbef
  · obtain ⟨-, _, _, _, -, -, -, ⟨-, hkind⟩, -⟩ := deliveryAck_eq_ok hbef
    exact hkind ack rfl

theorem acknowledgementReply_ordered (h : Ordered connection.sendQueue) (admission : Admission)
    (version : Version) (hrep : ∀ ack, reply = some ack → ack.kind = .pubrel) :
    Ordered (acknowledgementReply admission version reply connection).connection.sendQueue := by
  unfold acknowledgementReply
  cases reply with
  | none =>
    dsimp only
    split
    · exact h
    · exact h.of_suffix (scheduleReplyDrain_sound admission connection).2
  | some ack =>
    dsimp only
    unfold ackEnqueue
    split
    · exact h
    split
    · exact h
    refine replyEnqueue_ordered h (fun _ hfst => ?_) admission
    rw [hrep ack rfl] at hfst
    cases hfst

theorem World.step_ordered (h : Ordered world.connection.sendQueue) (hord : world.InOrder event) :
    Ordered (world.step event).connection.sendQueue := by
  cases event with
  | enqueue admission request prioritize => exact replyEnqueue_ordered h hord admission
  | drain passes => exact h.of_suffix (drainLoop_sound passes _ 0 none world.connection).2
  | ack admission packet commit =>
    show Ordered (prepareDeliveryAck admission packet commit world.connection).connection.sendQueue
    unfold prepareDeliveryAck
    split
    · exact h
    rename_i owner reply htkn
    split
    · exact h
    rename_i freed hfreed
    refine acknowledgementReply_ordered ?_ admission packet.version ?_
    · rw [(freed_eq_ok hfreed).1]
      exact h
    · rintro ack rfl
      exact acknowledged_reply htkn
  | session op => exact h
  | disconnect => exact h
  | closeAfterTerminalReplies =>
    show Ordered world.connection.closeAfterTerminalReplies.sendQueue
    unfold closeAfterTerminalReplies
    split
    · exact List.Pairwise.nil
    · exact h
  | close => exact List.Pairwise.nil

omit [Vstr] in
theorem scheduledDrain_eq_some (h : scheduledDrain admission connection = some call) :
    call.connection.sendQueue = connection.sendQueue ∧ SameWindow connection call.connection := by
  unfold scheduledDrain at h
  split_ifs at h
  · cases h
    exact ⟨rfl, rfl, rfl⟩

omit [Vstr] in
theorem enqueueDrain_eq_some (h : enqueueDrain admission request prioritize connection = some call) :
    call.connection.sendQueue = (connection.queued request prioritize).sendQueue ∧
      SameWindow connection call.connection := by
  unfold enqueueDrain at h
  split at h
  · obtain ⟨hque, hmaximum, hinfl⟩ := scheduledDrain_eq_some h
    exact ⟨hque, hmaximum, hinfl⟩
  · cases h

/-- A drain that answers an acknowledgement finds the window as it is, and a queue in order. -/
theorem ackDrain_sound (h : ackDrain admission version reply connection = some call)
    (hrep : ∀ ack, reply = some ack → ack.kind = .pubrel) :
    SameWindow connection call.connection ∧ (Ordered connection.sendQueue → Ordered call.connection.sendQueue) := by
  unfold ackDrain at h
  cases reply with
  | none =>
    split_ifs at h
    · obtain ⟨hque, hsame⟩ := scheduledDrain_eq_some h
      exact ⟨hsame, fun hords => hque ▸ hords⟩
  | some ack =>
    dsimp only at h
    split at h
    · cases h
    split at h
    · cases h
    obtain ⟨hque, hsame⟩ := enqueueDrain_eq_some h
    refine ⟨hsame, fun hords => ?_⟩
    rw [hque]
    refine queued_ordered hords fun _ hfst => ?_
    rw [hrep ack rfl] at hfst
    cases hfst

/-- The connection a drain of an event finds. -/
theorem World.drains_sound (h : world.drains event = some call) (hin : world.connection.Within) :
    call.connection.Within ∧
      (Ordered world.connection.sendQueue → world.InOrder event → Ordered call.connection.sendQueue) := by
  cases event with
  | enqueue admission request prioritize =>
    obtain ⟨hque, hsame⟩ := enqueueDrain_eq_some h
    refine ⟨hsame.within hin, fun hords hord => ?_⟩
    rw [hque]
    exact queued_ordered hords hord
  | drain passes =>
    cases h
    exact ⟨hin, fun hords _ => hords⟩
  | ack admission packet commit =>
    dsimp only [World.drains] at h
    split at h
    · cases h
    rename_i owner reply htkn
    split at h
    · cases h
    rename_i freed hfreed
    obtain ⟨hsame, hords⟩ := ackDrain_sound h fun ack hack => by
      rw [hack] at htkn
      exact acknowledged_reply htkn
    refine ⟨hsame.within (freed_within hfreed hin), fun hque _ => hords ?_⟩
    rw [(freed_eq_ok hfreed).1]
    exact hque
  | session op => cases h
  | disconnect => cases h
  | closeAfterTerminalReplies => cases h
  | close => cases h

def OnlyDeliveries (queue : List ReplyRequest) : Prop := ∀ request ∈ queue, request.qosDelivery = true

omit [Vstr] in
theorem onlyDeliveries_iff : OnlyDeliveries queue ↔ ∀ flag ∈ deliveryFlags queue, flag = true := by
  unfold OnlyDeliveries deliveryFlags
  rw [forall_mem_map]

/-- What a drain leaves that returns, when the clock finds the same requests expired throughout and when it does not. -/
theorem DrainCall.left_spec (hin : call.connection.Within) (hreturns : call.Returns) :
    (OnlyDeliveries (heldBack (fun _ => false) call.connection.places call.connection.sendQueue) →
        OnlyDeliveries call.left) ∧
      ∀ expired, Steady expired call.passes call.connection.sendQueue →
        (OnlyDeliveries call.left ↔
          OnlyDeliveries (heldBack expired call.connection.places call.connection.sendQueue)) := by
  have hleaves := fun expired => drainLoop_leaves expired call.passes hin (Nat.lt_succ_self _) hreturns.1 hreturns.2
  refine ⟨fun hheld => ?_, fun expired hstdy => ?_⟩
  · rw [onlyDeliveries_iff] at hheld ⊢
    exact fun flag hflag => hheld flag ((hleaves fun _ => false).less.subset hflag)
  · rw [onlyDeliveries_iff, onlyDeliveries_iff, ← (hleaves expired).same hstdy]
    rfl

omit [Vstr] in
theorem Ordered.held (h : Ordered queue) (expired : UInt64 → Bool) (places : Nat) :
    OnlyDeliveries (heldBack expired places queue) := fun _ hmem =>
  needs_of_mem_held (List.pairwise_map.1 h) hmem

/-- In every run of a connection, a drain that returns with the connection open leaves nothing but QoS deliveries exactly
    when nothing else is held back behind the deliveries that find no place in the window, where the clock finds the same
    requests expired as long as the drain takes; in any case it leaves no more. So nothing else is left in a run in which
    replies that are not prioritized are queued only while no delivery waits. -/
theorem control_replies_held_iff (owner : Owner) (persistenceEnabled retainedSg : Bool) (connect : ConnectView)
    (connection : Connection)
    (hconn : negotiateConnect (connectionCreate owner persistenceEnabled retainedSg) connect = .ok connection)
    (events : List Event) :
    Run.Along World.step
        (fun world event => ∀ call, world.drains event = some call → call.Returns →
          (OnlyDeliveries (heldBack (fun _ => false) call.connection.places call.connection.sendQueue) →
            OnlyDeliveries call.left) ∧
          ∀ expired, Steady expired call.passes call.connection.sendQueue →
            (OnlyDeliveries call.left ↔
              OnlyDeliveries (heldBack expired call.connection.places call.connection.sendQueue)))
        ⟨connection, []⟩ events ∧
      (Run.Along World.step World.InOrder ⟨connection, []⟩ events →
        Run.Along World.step
          (fun world event => ∀ call, world.drains event = some call → call.Returns → OnlyDeliveries call.left)
          ⟨connection, []⟩ events) := by
  have hin : connection.Within := by
    rw [negotiateConnect_eq_ok hconn]
    exact Nat.zero_le _
  have hque : connection.sendQueue = [] := by rw [negotiateConnect_eq_ok hconn]; rfl
  refine ⟨?_, fun hord => ?_⟩
  · refine Run.Along.mono (I := fun world : World => world.connection.Within) (Q := fun _ _ => True)
      (fun world event hinv _ => world.step_within hinv) ?_ hin (Run.Along.of_forall (fun _ _ _ => trivial) _)
    intro world event hinv _ call hcall hreturns
    exact DrainCall.left_spec (World.drains_sound hcall hinv).1 hreturns
  · refine Run.Along.mono
      (I := fun world : World => world.connection.Within ∧ Ordered world.connection.sendQueue)
      (fun world event hinv hev => ⟨world.step_within hinv.1, World.step_ordered hinv.2 hev⟩) ?_
      ⟨hin, by rw [hque]; exact List.Pairwise.nil⟩ hord
    intro world event hinv hev call hcall hreturns
    obtain ⟨hcallWithin, hords⟩ := World.drains_sound hcall hinv.1
    exact (DrainCall.left_spec hcallWithin hreturns).1 ((hords hinv.2 hev).held _ _)

end

section Runs

attribute [local instance] asciiVstr

/-- A version 5 connection whose client takes one delivery at a time. -/
def narrowConnect : ConnectView := { persistentConnect with version := .v5, properties := [0x21, 0x00, 0x01] }

def narrowConnection : Connection := { connectionCreate smallOwner false true with clientReceiveMaximum := 1 }

def controlReply (packet : Bytes) : ReplyRequest :=
  { packet := packet
    closeAfterSend := false
    preserveOnTerminalError := true
    subscriberDelivery := false
    qosDelivery := false
    deliveryPacketId := 0
    expiryAtEpochSeconds := 0
    protocolVersion := .unspecified }

/-- Two QoS deliveries, the second of which waits, and a reply. -/
def waitingRun (packet : Bytes) (prioritize : Bool) : List Event :=
  [.enqueue calmAdmission (deliveryRequest (samplePacket 1) 1 .v5) false,
    .enqueue calmAdmission (deliveryRequest (samplePacket 1) 2 .v5) false,
    .enqueue calmAdmission (controlReply packet) prioritize]

/-- A PUBREL goes past the delivery that waits. -/
theorem pubrel_not_held :
    Run.Along World.step (fun world event => ∀ call, world.drains event = some call → call.Returns → OnlyDeliveries call.left)
        ⟨narrowConnection, []⟩ (waitingRun [0x62, 0x02, 0x00, 0x07] true) ∧
      ((waitingRun [0x62, 0x02, 0x00, 0x07] true).foldl World.step ⟨narrowConnection, []⟩).connection.sendQueue =
        [deliveryRequest (samplePacket 1) 2 .v5] := by
  refine ⟨(control_replies_held_iff smallOwner false true narrowConnect narrowConnection rfl
    (waitingRun [0x62, 0x02, 0x00, 0x07] true)).2 ?_, by decide⟩
  refine ⟨?_, ?_, ?_, trivial⟩
  · intro hqos
    cases hqos
  · intro hqos
    cases hqos
  · intro _ hfst
    cases hfst

/-- A PINGRESP stays behind the delivery that waits, although the drain returns and the connection is open. -/
theorem pingresp_held :
    ∃ call, World.drains (((waitingRun [0xd0, 0x00] false).take 2).foldl World.step ⟨narrowConnection, []⟩)
        (.enqueue calmAdmission (controlReply [0xd0, 0x00]) false) = some call ∧
      call.Returns ∧ call.left = [deliveryRequest (samplePacket 1) 2 .v5, controlReply [0xd0, 0x00]] ∧
      ((waitingRun [0xd0, 0x00] false).foldl World.step ⟨narrowConnection, []⟩).connection.sendQueue = call.left ∧
      ¬OnlyDeliveries call.left := by
  refine ⟨_, rfl, ⟨by decide, by decide⟩, by decide, by decide, fun h => ?_⟩
  exact absurd (h (controlReply [0xd0, 0x00]) (by decide)) (by decide)

end Runs

end Flowie.Endpoint
