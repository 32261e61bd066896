import Flowie.Session.Inbound

/-!
# Runs of a session owner

The operations on an owner as one step function, and runs of them. `Transition` says once what a
successful step can do to the owner; the invariants of the session follow from it case by case.
-/

namespace Flowie.Session

open Mqtt

/-- The operations on an owner; a CONNECT is a takeover when it may find the session active. -/
inductive Op where
  | connect (view : ConnectView) (takeover : Bool)
  | close
  | disconnect (view : ControlView)
  | willComplete
  | touch
  | subscribe (packet : PacketView) (view : SubscribeView)
  | unsubscribe (packet : PacketView) (view : UnsubscribeView) (reasonCodeCapacity : Nat)
  | reserve (qos : UInt8)
  | commit (packetId : UInt16) (packet : Bytes) (expiry : UInt64) (queued : Bool)
  | cancel (packetId : UInt16)
  | expire (now : UInt64)
  | expirePacket (packetId : UInt16) (now : UInt64)
  | pendingAt (index : Nat) (now : UInt64)
  | ack (packet : PacketView)
  | publishBegin (publish : PublishView)
  | publishSettle (route : Route) (request : SettlementRequest)
  | qos2Release (route : Route) (packetId : UInt16)
  | clone
deriving DecidableEq, Repr

/-- What a successful operation returns beside the owner. -/
inductive Reply where
  | done
  | connected (result : ConnectResult)
  | subscribed (result : SubscribeResult)
  | unsubscribed (result : UnsubscribeResult)
  | reserved (packetId : UInt16)
  | removed (count : Nat)
  | pending (delivery : Delivery)
  | acked (reply : Option AckIntent)
  | begun (result : PublishBeginResult)
  | settled (intent : AckIntent)
deriving DecidableEq, Repr

def Reply.reservation : Reply → Option UInt16
  | .reserved packetId => some packetId
  | _ => none

def done (result : Except Errno Owner) : Except Errno (Owner × Reply) := result.map (·, .done)

def replied {α : Type} (reply : α → Reply) (result : Except Errno (Owner × α)) : Except Errno (Owner × Reply) :=
  result.map fun r => (r.1, reply r.2)

section

variable [Vstr]

/-- The deliveries an operation takes out of the session when it succeeds: a PUBREC without an error
    only moves its delivery on. -/
def Op.removes : Op → Delivery → Bool
  | .cancel packetId, delivery => delivery.packetId == packetId
  | .expire now, delivery => delivery.expired now
  | .expirePacket packetId now, delivery => delivery.packetId == packetId && delivery.expired now
  | .ack packet, delivery =>
    match controlPacketParse packet with
    | .error _ => false
    | .ok control =>
      delivery.packetId == control.packetId && ackExpected packet.type delivery &&
        !(packet.type == .pubrec && decide (control.reasonCode < 0x80))
  | _, _ => false

def step (owner : Owner) : Op → Except Errno (Owner × Reply)
  | .connect view takeover => replied .connected (ownerConnect owner view takeover)
  | .close => done (ownerClose owner)
  | .disconnect view => done (ownerDisconnect owner view)
  | .willComplete => done (ownerWillComplete owner)
  | .touch => done (ownerTouch owner)
  | .subscribe packet view => replied .subscribed (ownerSubscribe owner packet view)
  | .unsubscribe packet view capacity => replied .unsubscribed (ownerUnsubscribe owner packet view capacity)
  | .reserve qos => replied .reserved (deliveryReserve owner qos)
  | .commit packetId packet expiry queued => done (deliveryCommit owner packetId packet expiry queued)
  | .cancel packetId => done (deliveryCancel owner packetId)
  | .expire now => replied .removed (deliveryExpire owner now)
  | .expirePacket packetId now => replied (.removed ∘ Bool.toNat) (deliveryExpirePacket owner packetId now)
  | .pendingAt index now => replied .pending (deliveryPendingAtEx owner index now)
  | .ack packet => replied .acked (deliveryAck owner packet)
  | .publishBegin publish => replied .begun (publishBegin owner publish)
  | .publishSettle route request => replied .settled (publishSettle owner route request)
  | .qos2Release route packetId => replied .settled (qos2Release owner route packetId)
  | .clone => done (match ownerClone owner with | none => .error .enomem | some copy => .ok copy)

/-- The owner after an operation; one that fails leaves it unchanged. -/
def next (owner : Owner) (op : Op) : Owner :=
  match step owner op with
  | .ok (owner', _) => owner'
  | .error _ => owner

def run (owner : Owner) (ops : List Op) : Owner := ops.foldl next owner

end

/-- What a successful operation can do to an owner. -/
inductive Transition [Vstr] (owner : Owner) : Op → Owner → Reply → Prop
  | unchanged (op : Op) (reply : Reply) (hrep : reply.reservation = none) : Transition owner op owner reply
  | advanced (op : Op) (reply : Reply) (hrep : reply.reservation = none) (hgen : owner.resourceGeneration ≠ uint64Max) :
      Transition owner op owner.advanced reply
  | opened (view : ConnectView) (takeover : Bool) (expiry : UInt32) (will : Option Will) (result : ConnectResult)
      (hchk : openCheck owner view takeover = none) (hexp : sessionExpiry view = .ok expiry)
      (hwill : connectWill view = .ok will) (hacc : result.accepted = true) :
      Transition owner (.connect view takeover) (opened owner view expiry will) (.connected result)
  | closed (hact : owner.active = true) (hgen : owner.resourceGeneration ≠ uint64Max) :
      Transition owner .close (closed owner.advanced) .done
  | disconnected (view : ControlView) (expiry : UInt32) (will : Option Will) (hact : owner.active = true)
      (hwill : will = owner.will ∨ will = none) (hgen : owner.resourceGeneration ≠ uint64Max) :
      Transition owner (.disconnect view) { owner.advanced with sessionExpiryInterval := expiry, will := will } .done
  | willCompleted (hgen : owner.resourceGeneration ≠ uint64Max) :
      Transition owner .willComplete { owner.advanced with will := none } .done
  | subscribed (packet : PacketView) (view : SubscribeView) (identifier : UInt32) (staged : List Subscription)
      (changed : Bool) (result : SubscribeResult) (hact : owner.active = true)
      (hver : packet.version = owner.version)
      (hidn : subscribeIdentifier packet.version view.properties = .ok identifier)
      (hloop : subscribeLoop owner.config.maxSubscriptions identifier (subscriptions packet.version view.entries).1
        owner.subscriptions false = .ok (staged, changed)) (hgen : owner.resourceGeneration ≠ uint64Max) :
      Transition owner (.subscribe packet view) { owner.advanced with subscriptions := staged } (.subscribed result)
  | unsubscribed (packet : PacketView) (view : UnsubscribeView) (capacity : Nat) (result : UnsubscribeResult)
      (hgen : owner.resourceGeneration ≠ uint64Max) :
      Transition owner (.unsubscribe packet view capacity)
        { owner.advanced with subscriptions := (unsubscribeLoop (topicFilters view.filters).1 owner.subscriptions).1 }
        (.unsubscribed result)
  | reserved (qos : UInt8) (candidate : UInt16) (hqos : qos = 1 ∨ qos = 2)
      (hopen : owner.active = true ∨ owner.initialized = true ∧ owner.sessionExpiryInterval ≠ 0)
      (hsp : owner.inflight.length + owner.deliveries.entries.length < owner.config.maxInflight)
      (hid : candidate ≠ 0) (hfr : owner.deliveries.index.lookup candidate = none) :
      Transition owner (.reserve qos)
        { owner with
          deliveries := owner.deliveries.append ⟨candidate, qos, .reserved, 0, none⟩ hfr
          nextDeliveryPacketId := candidate } (.reserved candidate)
  | committed (packetId : UInt16) (packet : Bytes) (expiry : UInt64) (queued : Bool) (delivery : Delivery) (index : Nat)
      (hlook : deliveryLookup owner packetId = .ok (delivery, index)) (hst : delivery.state = .reserved)
      (hexp : expiry ≠ 0 →
        recordDeliveryValidate owner.version (delivery.committed packet expiry queued) = .ok ())
      (hgen : owner.resourceGeneration ≠ uint64Max) :
      Transition owner (.commit packetId packet expiry queued)
        (deliveryModifyAt owner index (·.committed packet expiry queued) fun _ => rfl).advanced .done
  | removed (op : Op) (index : Nat) (removed : Delivery) (deliveries : IndexedVec Delivery.packetId)
      (generation : UInt64) (reply : Reply) (hrep : reply.reservation = none)
      (hent : owner.deliveries.entries[index]? = some removed) (hop : op.removes removed = true)
      (honly : ∀ delivery, op.removes delivery = true → delivery.packetId = removed.packetId)
      (hents : deliveries.entries = owner.deliveries.entries.swapRemove index)
      (hgen : (∃ packetId, op = .cancel packetId) ∧ generation = owner.resourceGeneration ∨
        owner.resourceGeneration ≠ uint64Max ∧ generation = owner.resourceGeneration + 1) :
      Transition owner op { owner with deliveries := deliveries, resourceGeneration := generation } reply
  | expired (now : UInt64) (count : Nat) (deliveries : IndexedVec Delivery.packetId)
      (hents : deliveries.entries =
        owner.deliveries.entries.retainSwap (fun d => !d.expired now) owner.deliveries.entries.length 0)
      (hgen : owner.resourceGeneration ≠ uint64Max) :
      Transition owner (.expire now) { owner.advanced with deliveries := deliveries } (.removed count)
  | replayed (index : Nat) (now : UInt64) (delivery : Delivery) (stored packet : Bytes)
      (hent : owner.deliveries.entries[index]? = some delivery) (hsto : delivery.packet = some stored)
      (hst : delivery.state ≠ .reserved) (hpkt : pendingPacket owner.version delivery stored now = .ok packet) :
      Transition owner (.pendingAt index now)
        (deliveryModifyAt owner index (·.replayed packet) (Delivery.replayed_packetId packet))
        (.pending (delivery.replayed packet))
  | released (view : PacketView) (packetId : UInt16) (delivery : Delivery) (index : Nat) (pubrel : Bytes)
      (reply : Option AckIntent) (hlook : deliveryLookup owner packetId = .ok (delivery, index))
      (hst : delivery.state = .waitPubrec) (hqos : delivery.qos = 2)
      (henc : controlPacketEncode (pubrelPacket owner.version packetId) 32 = .ok pubrel)
      (hgen : owner.resourceGeneration ≠ uint64Max) :
      Transition owner (.ack view) (deliveryModifyAt owner index (·.released pubrel) fun _ => rfl).advanced
        (.acked reply)
  | begun (publish : PublishView) (result : PublishBeginResult) (hact : owner.active = true)
      (hqos : publish.qos = 1 ∨ publish.qos = 2) (hid : publish.packetId ≠ 0)
      (hfr : ∀ entry ∈ owner.inflight, entry.packetId ≠ publish.packetId)
      (hsp : owner.inflight.length < owner.config.maxInflight) (hgen : owner.resourceGeneration ≠ uint64Max) :
      Transition owner (.publishBegin publish)
        { owner.advanced with inflight := owner.inflight ++ [⟨publish.packetId, publish.qos, .settlement⟩] }
        (.begun result)
  | puback (route : Route) (request : SettlementRequest) (entry : Inflight) (index : Nat)
      (hent : owner.inflight[index]? = some entry) (hst : entry.state = .settlement) (hqos : entry.qos = 1)
      (hgen : owner.resourceGeneration ≠ uint64Max) :
      Transition owner (.publishSettle route request)
        { owner.advanced with inflight := owner.inflight.swapRemove index } (.settled ⟨.puback, entry.packetId⟩)
  | pubrec (route : Route) (request : SettlementRequest) (entry : Inflight) (index : Nat)
      (hact : owner.active = true)
      (hent : owner.inflight[index]? = some entry) (hst : entry.state = .settlement) (hqos : entry.qos ≠ 1)
      (hgen : owner.resourceGeneration ≠ uint64Max) :
      Transition owner (.publishSettle route request)
        { owner.advanced with inflight := owner.inflight.set index { entry with state := .qos2Release } }
        (.settled ⟨.pubrec, entry.packetId⟩)
  | pubcomp (route : Route) (entry : Inflight) (index : Nat)
      (hent : owner.inflight[index]? = some entry) (hst : entry.state = .qos2Release)
      (hgen : owner.resourceGeneration ≠ uint64Max) :
      Transition owner (.qos2Release route entry.packetId)
        { owner.advanced with inflight := owner.inflight.swapRemove index } (.settled ⟨.pubcomp, entry.packetId⟩)
  | cloned (deliveries : IndexedVec Delivery.packetId) (hents : deliveries.entries = owner.deliveries.entries) :
      Transition owner .clone { owner with deliveries := deliveries } .done

variable {owner : Owner} {reply : Reply}

theorem done_eq_ok {result : Except Errno Owner} (h : done result = .ok (owner, reply)) :
    result = .ok owner ∧ reply = .done := by
  cases result with
  | error e => cases h
  | ok o =>
    cases h
    exact ⟨rfl, rfl⟩

theorem replied_eq_ok {α : Type} {mk : α → Reply} {result : Except Errno (Owner × α)}
    (h : replied mk result = .ok (owner, reply)) : ∃ a, result = .ok (owner, a) ∧ reply = mk a := by
  cases result with
  | error e => cases h
  | ok r =>
    cases h
    exact ⟨r.2, rfl, rfl⟩

theorem generationAdvance_eq_ok {owner' : Owner} (h : generationAdvance owner = .ok owner') :
    owner.resourceGeneration ≠ uint64Max ∧ owner' = owner.advanced := by
  unfold generationAdvance at h
  split_ifs at h
  · rename_i hgen
    exact ⟨hgen, (Except.ok.inj h).symm⟩

section

variable [Vstr] {owner owner' : Owner}

/-- What an acceptable CONNECT meets. -/
structure Openable (owner : Owner) (view : ConnectView) (takeover : Bool) : Prop where
  supported : view.version.supported = true
  idle : owner.active = true → takeover = true
  nonempty : view.clientId ≠ []
  length : view.clientId.length ≤ uint16Max.toNat
  utf8 : utf8Validate view.clientId = true
  sameClient : owner.initialized = true → owner.clientId = some view.clientId
  sameVersion : owner.initialized = true → view.cleanStart = false → owner.version = view.version
  sessionGeneration : owner.sessionGeneration ≠ uint64Max
  resourceGeneration : owner.resourceGeneration ≠ uint64Max

variable {view : ConnectView} {takeover : Bool}

theorem openable_of_openCheck (h : openCheck owner view takeover = none) : Openable owner view takeover := by
  unfold openCheck at h
  split_ifs at h with hsupp hidle hne hlen hutf8 hcli hver hgen
  rw [not_or] at hgen
  constructor
  · simpa using hsupp
  · intro hact
    simpa [hact] using hidle
  · simpa using hne
  · exact Nat.le_of_not_lt hlen
  · simpa using hutf8
  · intro hinit
    simpa [hinit] using hcli
  · intro hinit hcln
    simpa [hinit, hcln] using hver
  · exact hgen.1
  · exact hgen.2

theorem ownerOpen_eq_ok (h : ownerOpen owner view takeover = .ok owner') :
    ∃ expiry will, openCheck owner view takeover = none ∧ sessionExpiry view = .ok expiry ∧
      connectWill view = .ok will ∧ owner' = opened owner view expiry will := by
  unfold ownerOpen at h
  split at h
  · cases h
  rename_i hchk
  split at h
  · cases h
  rename_i expiry hexp
  split at h
  · cases h
  rename_i will hwill
  cases h
  exact ⟨expiry, will, hchk, hexp, hwill, rfl⟩

variable {result : ConnectResult}

section
variable (h : ownerConnect owner view takeover = .ok (owner', result))
include h

theorem ownerConnect_eq_ok :
    (result.accepted = true ∧ result.sessionPresent = (owner.initialized && !view.cleanStart) ∧
      ∃ expiry will, openCheck owner view takeover = none ∧ sessionExpiry view = .ok expiry ∧
        connectWill view = .ok will ∧ owner' = opened owner view expiry will) ∨
    result.accepted = false ∧ owner' = owner := by
  unfold ownerConnect at h
  split at h
  · rename_i o hopen
    split at h
    · cases h
    · cases h
      exact Or.inl ⟨rfl, rfl, ownerOpen_eq_ok hopen⟩
  · cases h
    exact Or.inr ⟨rfl, rfl⟩
  · cases h
    exact Or.inr ⟨rfl, rfl⟩
  · cases h

theorem ownerConnect_transition : Transition owner (.connect view takeover) owner' (.connected result) := by
  rcases ownerConnect_eq_ok h with ⟨hacc, -, expiry, will, hchk, hexp, hwill, rfl⟩ | ⟨-, rfl⟩
  · exact .opened view takeover expiry will result hchk hexp hwill hacc
  · exact .unchanged _ _ rfl

end

omit [Vstr] in
theorem ownerClose_eq_ok (h : ownerClose owner = .ok owner') :
    owner.active = true ∧ owner.resourceGeneration ≠ uint64Max ∧ owner' = closed owner.advanced := by
  unfold ownerClose at h
  split_ifs at h with hact
  split at h
  · cases h
  rename_i o hadvance
  cases h
  obtain ⟨hgen, rfl⟩ := generationAdvance_eq_ok hadvance
  exact ⟨by simpa using hact, hgen, rfl⟩

theorem ownerDisconnect_eq_ok {view : ControlView} (h : ownerDisconnect owner view = .ok owner') :
    Transition owner (.disconnect view) owner' .done ∧ owner'.will = if view.reasonCode = 0x04 then owner.will else none := by
  unfold ownerDisconnect at h
  split at h
  · cases h
  split at h
  · cases h
  rename_i hact
  split at h
  · cases h
  rename_i found _
  dsimp only at h
  split at h
  · cases h
  split at h
  · rename_i hsame
    cases h
    refine ⟨.unchanged _ _ rfl, ?_⟩
    simp only [Bool.and_eq_true, Bool.not_eq_true', Bool.and_eq_false_iff, bne_eq_false_iff_eq, Option.isSome_eq_false_iff,
      Option.isNone_iff_eq_none] at hsame
    rcases hsame.2 with hrsn | hwill
    · rw [if_pos hrsn]
    · rw [hwill, ite_self]
  split at h
  · cases h
  rename_i hgen
  cases h
  refine ⟨.disconnected view _ _ (by simpa using hact) ?_ hgen, ?_⟩
  · split
    · exact Or.inr rfl
    · exact Or.inl rfl
  · cases hwill : owner.will <;> simp

variable {packet : PacketView} {view : SubscribeView}

theorem ownerSubscribe_eq_ok {result : SubscribeResult} (h : ownerSubscribe owner packet view = .ok (owner', result)) :
    (result.changed = true ∧ owner.active = true ∧ packet.version = owner.version ∧
      owner.resourceGeneration ≠ uint64Max ∧ (subscriptions packet.version view.entries).2 = .needMore ∧
      (subscriptions packet.version view.entries).1.length = view.entryCount ∧
      ∃ identifier staged, subscribeIdentifier packet.version view.properties = .ok identifier ∧
        subscribeLoop owner.config.maxSubscriptions identifier (subscriptions packet.version view.entries).1
          owner.subscriptions false = .ok (staged, true) ∧
        owner' = { owner.advanced with subscriptions := staged }) ∨
    result.changed = false ∧ owner' = owner := by
  unfold ownerSubscribe at h
  split at h
  · cases h
  rename_i hact
  split at h
  · cases h
  rename_i hhdr
  split at h
  · cases h
  split at h
  · cases h
  rename_i identifier hidn
  dsimp only at h
  split at h
  · cases h
  rename_i staged changed hloop
  split at h
  · cases h
  rename_i hread
  rw [not_or, not_not, not_not] at hread
  split at h
  · rename_i hchg
    subst hchg
    split at h
    · cases h
    rename_i o hadvance
    cases h
    obtain ⟨hgen, rfl⟩ := generationAdvance_eq_ok hadvance
    have hver : packet.version = owner.version := by
      by_contra hne
      exact hhdr (Or.inr (Or.inl hne))
    exact Or.inl ⟨rfl, by simpa using hact, hver, hgen, hread.1, hread.2, identifier, staged,
      hidn, hloop, rfl⟩
  · rename_i hchg
    cases h
    exact Or.inr ⟨by simpa using hchg, rfl⟩

theorem ownerSubscribe_transition {result : SubscribeResult} (h : ownerSubscribe owner packet view = .ok (owner', result)) :
    Transition owner (.subscribe packet view) owner' (.subscribed result) := by
  rcases ownerSubscribe_eq_ok h with ⟨-, hact, hver, hgen, -, -, identifier, staged, hidn, hloop, rfl⟩ |
    ⟨-, rfl⟩
  · exact .subscribed packet view identifier staged true _ hact hver hidn hloop hgen
  · exact .unchanged _ _ rfl

variable {capacity : Nat}

theorem ownerUnsubscribe_eq_ok {view : UnsubscribeView} {result : UnsubscribeResult}
    (h : ownerUnsubscribe owner packet view capacity = .ok (owner', result)) :
    (result.removedCount ≠ 0 ∧ owner.resourceGeneration ≠ uint64Max ∧ (topicFilters view.filters).2 = .needMore ∧
      (topicFilters view.filters).1.length = view.filterCount ∧
      owner' = { owner.advanced with
        subscriptions := (unsubscribeLoop (topicFilters view.filters).1 owner.subscriptions).1 }) ∨
    result.removedCount = 0 ∧ owner' = owner := by
  unfold ownerUnsubscribe at h
  split at h
  · cases h
  split at h
  · cases h
  split at h
  · cases h
  split at h
  · cases h
  dsimp only at h
  split at h
  · cases h
  rename_i hread
  rw [not_or, not_not, not_not] at hread
  split at h
  · rename_i hcnt
    split at h
    · cases h
    rename_i o hadvance
    cases h
    obtain ⟨hgen, rfl⟩ := generationAdvance_eq_ok hadvance
    exact Or.inl ⟨hcnt, hgen, hread.1, hread.2, rfl⟩
  · rename_i hcnt
    cases h
    exact Or.inr ⟨not_not.1 hcnt, rfl⟩

theorem ownerUnsubscribe_transition {view : UnsubscribeView} {result : UnsubscribeResult}
    (h : ownerUnsubscribe owner packet view capacity = .ok (owner', result)) :
    Transition owner (.unsubscribe packet view capacity) owner' (.unsubscribed result) := by
  rcases ownerUnsubscribe_eq_ok h with ⟨-, hgen, -, -, rfl⟩ | ⟨-, rfl⟩
  · exact .unsubscribed packet view capacity _ hgen
  · exact .unchanged _ _ rfl

variable {delivery : Delivery} {packetId : UInt16}

theorem deliveryReserve_transition {qos : UInt8} (h : deliveryReserve owner qos = .ok (owner', packetId)) :
    Transition owner (.reserve qos) owner' (.reserved packetId) := by
  unfold deliveryReserve at h
  split_ifs at h with hqos hopen hsp
  split at h
  · cases h
  split at h
  · cases h
  rename_i o happ
  cases h
  obtain ⟨hfr, hid, rfl⟩ := deliveryAppend_eq_ok happ
  refine .reserved qos packetId ?_ ?_ (by omega) hid hfr
  · rw [not_or] at hqos
    exact qos_eq_one_or_two hqos.1 hqos.2
  cases hact : owner.active with
  | true => exact Or.inl rfl
  | false =>
    right
    simpa [hact] using hopen

theorem deliveryCommit_transition {packet : Bytes} {expiry : UInt64} {queued : Bool}
    (h : deliveryCommit owner packetId packet expiry queued = .ok owner') :
    Transition owner (.commit packetId packet expiry queued) owner' .done := by
  unfold deliveryCommit at h
  split at h
  · cases h
  split at h
  · cases h
  rename_i delivery index hlook
  split at h
  · cases h
  rename_i hst
  split at h
  · cases h
  rename_i hval
  split at h
  · cases h
  rename_i hgen
  cases h
  rw [not_or, not_not] at hst
  exact .committed packetId packet expiry queued delivery index hlook hst.1
    (fun hexp => by_contra fun hne => hval ⟨hexp, hne⟩) hgen

theorem deliveryCancel_transition (h : deliveryCancel owner packetId = .ok owner') :
    Transition owner (.cancel packetId) owner' .done := by
  unfold deliveryCancel at h
  split at h
  · cases h
  rename_i delivery index hlook
  obtain ⟨-, hent, rfl⟩ := deliveryLookup_eq_ok.1 hlook
  obtain ⟨deliveries, hrem, hents⟩ := deliveryRemoveAt_eq_ok hent
  rw [hrem] at h
  cases h
  exact .removed (.cancel delivery.packetId) index delivery deliveries owner.resourceGeneration .done rfl hent
    (by simp [Op.removes]) (by simp [Op.removes]) hents (Or.inl ⟨⟨_, rfl⟩, rfl⟩)

variable {now : UInt64}

theorem deliveryExpire_transition {count : Nat} (h : deliveryExpire owner now = .ok (owner', count)) :
    Transition owner (.expire now) owner' (.removed count) := by
  unfold deliveryExpire at h
  split at h
  · cases h
  dsimp only at h
  split at h
  · cases h
    exact .unchanged _ _ rfl
  split_ifs at h with hgen
  obtain ⟨deliveries, hloop, hents⟩ := expireLoop_eq_ok now owner.deliveries.entries.length 0 owner
  rw [hloop] at h
  cases h
  exact .expired now _ deliveries hents hgen

theorem deliveryExpirePacket_transition {removed : Bool} (h : deliveryExpirePacket owner packetId now = .ok (owner', removed)) :
    Transition owner (.expirePacket packetId now) owner' (.removed removed.toNat) := by
  unfold deliveryExpirePacket at h
  split at h
  · cases h
  split at h
  · cases h
  rename_i delivery index hlook
  obtain ⟨-, hent, rfl⟩ := deliveryLookup_eq_ok.1 hlook
  split at h
  · cases h
    exact .unchanged _ _ rfl
  rename_i hexpd
  split_ifs at h with hgen
  obtain ⟨deliveries, hrem, hents⟩ := deliveryRemoveAt_eq_ok hent
  rw [hrem] at h
  cases h
  refine .removed (.expirePacket delivery.packetId now) index delivery deliveries _ _ rfl hent ?_ ?_ hents
    (Or.inr ⟨hgen, rfl⟩)
  · simpa [Op.removes] using hexpd
  · intro other hoth
    simp only [Op.removes, Bool.and_eq_true, beq_iff_eq] at hoth
    exact hoth.1

variable {index : Nat}

theorem deliveryPendingAtEx_eq_ok {handed : Delivery} (h : deliveryPendingAtEx owner index now = .ok (owner', handed)) :
    ∃ delivery stored packet, owner.deliveries.entries[index]? = some delivery ∧ delivery.packet = some stored ∧
      delivery.state ≠ .reserved ∧ pendingPacket owner.version delivery stored now = .ok packet ∧
      owner' = deliveryModifyAt owner index (·.replayed packet) (Delivery.replayed_packetId packet) ∧
      handed = delivery.replayed packet := by
  unfold deliveryPendingAtEx at h
  split at h
  · cases h
  rename_i entry hent
  split at h
  · cases h
  rename_i stored hsto
  split_ifs at h with hst
  split at h
  · cases h
  rename_i packet hpkt
  cases h
  exact ⟨entry, stored, packet, hent, hsto, hst, hpkt, rfl, rfl⟩

theorem deliveryPendingAtEx_transition (h : deliveryPendingAtEx owner index now = .ok (owner', delivery)) :
    Transition owner (.pendingAt index now) owner' (.pending delivery) := by
  obtain ⟨entry, stored, packet, hent, hsto, hst, hpkt, rfl, rfl⟩ := deliveryPendingAtEx_eq_ok h
  exact .replayed index now entry stored packet hent hsto hst hpkt

variable {reply : Option AckIntent}

/-- An acknowledgement that is accepted was due for its delivery: the first PUBREC exchanges the packet, a
    repeated one is only answered again, and any other ends the delivery. -/
theorem deliveryAck_eq_ok {view : PacketView} (h : deliveryAck owner view = .ok (owner', reply)) :
    (view.type = .puback ∨ view.type = .pubrec ∨ view.type = .pubcomp) ∧
    ∃ control delivery index, controlPacketParse view = .ok control ∧
      deliveryLookup owner control.packetId = .ok (delivery, index) ∧ ackExpected view.type delivery = true ∧
      (owner.resourceGeneration ≠ uint64Max ∧ ∀ ack ∈ reply, ack.kind = .pubrel) ∧
      ((view.type = .pubrec ∧ control.reasonCode < 0x80 ∧ delivery.state = .waitPubrec ∧
          ∃ pubrel, controlPacketEncode (pubrelPacket owner.version control.packetId) 32 = .ok pubrel ∧
            owner' = (deliveryModifyAt owner index (·.released pubrel) fun _ => rfl).advanced) ∨
        (view.type = .pubrec ∧ control.reasonCode < 0x80 ∧ delivery.state ≠ .waitPubrec ∧ owner' = owner.advanced) ∨
        ¬(view.type = .pubrec ∧ control.reasonCode < 0x80) ∧
          ∃ deliveries, deliveries.entries = owner.deliveries.entries.swapRemove index ∧
            owner' = { owner.advanced with deliveries := deliveries }) := by
  unfold deliveryAck at h
  split at h
  · cases h
  split at h
  · cases h
  rename_i htypes
  split at h
  · cases h
  rename_i control hctl
  split at h
  · cases h
  rename_i delivery index hlook
  split at h
  · cases h
  split at h
  · cases h
  rename_i hexpct
  split at h
  · cases h
  rename_i hgen
  have htype : view.type = .puback ∨ view.type = .pubrec ∨ view.type = .pubcomp := by
    by_contra hnone
    rw [not_or, not_or] at hnone
    exact htypes hnone
  refine ⟨htype, control, delivery, index, hctl, hlook, by simpa using hexpct, ?_⟩
  split at h
  · rename_i hrec
    split at h
    · rename_i hst
      split at h
      · cases h
      rename_i pubrel henc
      cases h
      exact ⟨⟨hgen, by simp⟩, .inl ⟨hrec.1, hrec.2, hst, pubrel, henc, rfl⟩⟩
    · rename_i hst
      cases h
      exact ⟨⟨hgen, by simp⟩, .inr (.inl ⟨hrec.1, hrec.2, hst, rfl⟩)⟩
  · rename_i hrec
    obtain ⟨-, hent, -⟩ := deliveryLookup_eq_ok.1 hlook
    obtain ⟨deliveries, hrem, hents⟩ := deliveryRemoveAt_eq_ok hent
    rw [hrem] at h
    cases h
    exact ⟨⟨hgen, by simp⟩, .inr (.inr ⟨hrec, deliveries, hents, rfl⟩)⟩

theorem deliveryAck_transition {view : PacketView}
    (h : deliveryAck owner view = .ok (owner', reply)) : Transition owner (.ack view) owner' (.acked reply) := by
  obtain ⟨-, control, delivery, index, hctl, hlook, hexpct, ⟨hgen, -⟩, hcases⟩ := deliveryAck_eq_ok h
  rcases hcases with ⟨htype, -, hst, pubrel, henc, rfl⟩ | ⟨-, -, -, rfl⟩ | ⟨hrec, deliveries, hents, rfl⟩
  · have hqos : delivery.qos = 2 := by
      rw [htype] at hexpct
      simp only [ackExpected, Bool.and_eq_true] at hexpct
      simpa using hexpct.1
    exact .released view control.packetId delivery index pubrel _ hlook hst hqos henc hgen
  · exact .advanced _ _ rfl hgen
  · obtain ⟨-, hent, hid⟩ := deliveryLookup_eq_ok.1 hlook
    refine .removed (.ack view) index delivery deliveries _ _ rfl hent ?_ ?_ hents (Or.inr ⟨hgen, rfl⟩)
    · simp only [Op.removes, hctl, hid, hexpct]
      simpa [← imp_iff_not_or] using hrec
    intro other hoth
    simp only [Op.removes, hctl, Bool.and_eq_true, beq_iff_eq] at hoth
    exact hoth.1.1.trans hid.symm

theorem publishBegin_eq_ok {publish : PublishView} {result : PublishBeginResult}
    (h : publishBegin owner publish = .ok (owner', result)) :
    (publish.qos = 0 ∨ (inflightFind owner publish.packetId).isSome = true) ∧ owner' = owner ∨
      (publish.qos ≠ 0 ∧ inflightFind owner publish.packetId = none ∧
        owner' = { owner.advanced with inflight := owner.inflight ++ [⟨publish.packetId, publish.qos, .settlement⟩] }) ∧
      Transition owner (.publishBegin publish) owner' (.begun result) := by
  unfold publishBegin at h
  split at h
  · cases h
  rename_i hact
  split at h
  · cases h
  rename_i message hmap
  split at h
  · rename_i hqos
    cases h
    exact .inl ⟨.inl hqos, rfl⟩
  rename_i hqos
  obtain ⟨hle, hid⟩ := publishMessageMap_eq_ok hmap
  split at h
  · rename_i hfind
    have hsome : (inflightFind owner publish.packetId).isSome = true := by rw [hfind]; rfl
    split at h
    · cases h
    · split at h <;> cases h <;> exact .inl ⟨.inr hsome, rfl⟩
  · rename_i hfind
    split_ifs at h with hsp hgen
    cases h
    exact .inr ⟨⟨hqos, hfind, rfl⟩, .begun publish _ (by simpa using hact) (qos_eq_one_or_two hqos hle) (hid hqos)
      (inflightFind_eq_none.1 hfind) (by omega) hgen⟩

variable {route : Route} {intent : AckIntent} {request : SettlementRequest}

section
variable (h : publishSettle owner route request = .ok (owner', intent))
include h

omit [Vstr] in
theorem publishSettle_eq_ok :
    owner.active = true ∧ owner.resourceGeneration ≠ uint64Max ∧
      ∃ entry index, owner.inflight[index]? = some entry ∧ entry.state = .settlement ∧
      (entry.qos = 1 ∧ intent = ⟨.puback, entry.packetId⟩ ∧
          owner' = { owner.advanced with inflight := owner.inflight.swapRemove index } ∨
        entry.qos ≠ 1 ∧ intent = ⟨.pubrec, entry.packetId⟩ ∧
          owner' = { owner.advanced with inflight := owner.inflight.set index { entry with state := .qos2Release } }) := by
  unfold publishSettle at h
  split at h
  · cases h
  split at h
  · cases h
  rename_i hact
  refine ⟨by simpa using hact, ?_⟩
  split at h
  · cases h
  split at h
  · cases h
  split at h
  · cases h
  rename_i entry index hfind
  obtain ⟨hent, -⟩ := inflightFind_eq_some hfind
  split at h
  · cases h
  split at h
  · cases h
  rename_i hst
  split at h
  · cases h
  split at h
  · cases h
  split at h
  · cases h
  rename_i hgen
  refine ⟨hgen, entry, index, hent, by simpa using hst, ?_⟩
  split at h
  · rename_i hqos
    cases h
    exact Or.inl ⟨hqos, rfl, rfl⟩
  · rename_i hqos
    cases h
    exact Or.inr ⟨hqos, rfl, rfl⟩

theorem publishSettle_transition : Transition owner (.publishSettle route request) owner' (.settled intent) := by
  obtain ⟨hact, hgen, entry, index, hent, hst, hcase⟩ := publishSettle_eq_ok h
  rcases hcase with ⟨hqos, rfl, rfl⟩ | ⟨hqos, rfl, rfl⟩
  · exact .puback route request entry index hent hst hqos hgen
  · exact .pubrec route request entry index hact hent hst hqos hgen

end

theorem qos2Release_transition (h : qos2Release owner route packetId = .ok (owner', intent)) :
    Transition owner (.qos2Release route packetId) owner' (.settled intent) := by
  unfold qos2Release at h
  split at h
  · cases h
  split at h
  · cases h
  split at h
  · cases h
  split at h
  · cases h
  rename_i entry index hfind
  obtain ⟨hent, rfl⟩ := inflightFind_eq_some hfind
  split at h
  · cases h
  rename_i hst
  split at h
  · cases h
  rename_i hgen
  cases h
  rw [not_or, not_not, not_not] at hst
  exact .pubcomp route entry index hent hst.2 hgen

omit [Vstr] in
theorem ownerWillComplete_eq_ok (h : ownerWillComplete owner = .ok owner') :
    owner.resourceGeneration ≠ uint64Max ∧ owner' = { owner with will := none }.advanced := by
  unfold ownerWillComplete at h
  split_ifs at h with _ hgen
  cases h
  exact ⟨hgen, rfl⟩

/-- What any successful step does. -/
theorem step_transition {op : Op} {reply : Reply} (h : step owner op = .ok (owner', reply)) :
    Transition owner op owner' reply := by
  cases op with
  | connect view takeover =>
    obtain ⟨result, hop, rfl⟩ := replied_eq_ok h
    exact ownerConnect_transition hop
  | close =>
    obtain ⟨hop, rfl⟩ := done_eq_ok h
    obtain ⟨hact, hgen, rfl⟩ := ownerClose_eq_ok hop
    exact .closed hact hgen
  | disconnect view =>
    obtain ⟨hop, rfl⟩ := done_eq_ok h
    exact (ownerDisconnect_eq_ok hop).1
  | willComplete =>
    obtain ⟨hop, rfl⟩ := done_eq_ok h
    obtain ⟨hgen, rfl⟩ := ownerWillComplete_eq_ok hop
    exact .willCompleted hgen
  | touch =>
    obtain ⟨hop, rfl⟩ := done_eq_ok h
    unfold ownerTouch at hop
    split_ifs at hop
    · obtain ⟨hgen, rfl⟩ := generationAdvance_eq_ok hop
      exact .advanced _ _ rfl hgen
  | subscribe packet view =>
    obtain ⟨result, hop, rfl⟩ := replied_eq_ok h
    exact ownerSubscribe_transition hop
  | unsubscribe packet view capacity =>
    obtain ⟨result, hop, rfl⟩ := replied_eq_ok h
    exact ownerUnsubscribe_transition hop
  | reserve qos =>
    obtain ⟨packetId, hop, rfl⟩ := replied_eq_ok h
    exact deliveryReserve_transition hop
  | commit packetId packet expiry queued =>
    obtain ⟨hop, rfl⟩ := done_eq_ok h
    exact deliveryCommit_transition hop
  | cancel packetId =>
    obtain ⟨hop, rfl⟩ := done_eq_ok h
    exact deliveryCancel_transition hop
  | expire now =>
    obtain ⟨count, hop, rfl⟩ := replied_eq_ok h
    exact deliveryExpire_transition hop
  | expirePacket packetId now =>
    obtain ⟨removed, hop, rfl⟩ := replied_eq_ok h
    exact deliveryExpirePacket_transition hop
  | pendingAt index now =>
    obtain ⟨delivery, hop, rfl⟩ := replied_eq_ok h
    exact deliveryPendingAtEx_transition hop
  | ack view =>
    obtain ⟨reply, hop, rfl⟩ := replied_eq_ok h
    exact deliveryAck_transition hop
  | publishBegin publish =>
    obtain ⟨result, hop, rfl⟩ := replied_eq_ok h
    rcases publishBegin_eq_ok hop with ⟨-, rfl⟩ | ⟨-, htrans⟩
    · exact .unchanged _ _ rfl
    · exact htrans
  | publishSettle route request =>
    obtain ⟨intent, hop, rfl⟩ := replied_eq_ok h
    exact publishSettle_transition hop
  | qos2Release route packetId =>
    obtain ⟨intent, hop, rfl⟩ := replied_eq_ok h
    exact qos2Release_transition hop
  | clone =>
    obtain ⟨hop, rfl⟩ := done_eq_ok h
    split at hop
    · cases hop
    rename_i copy hclo
    cases hop
    obtain ⟨deliveries, rfl, hents⟩ := ownerClone_eq_some hclo
    exact .cloned deliveries hents

/-- Every operation of a run meets the condition in the state it finds. -/
def Along (P : Owner → Op → Prop) : Owner → List Op → Prop
  | _, [] => True
  | owner, op :: ops => P owner op ∧ Along P (next owner op) ops

/-- An invariant that every transition keeps holds after every run. -/
theorem run_induction {P : Owner → Prop} (ops : List Op) (hinit : P owner)
    (hstep : ∀ owner op owner' reply, op ∈ ops → P owner → Transition owner op owner' reply → P owner') :
    P (run owner ops) := by
  refine List.foldlRecOn ops next hinit ?_
  intro o ho op hop
  unfold next
  split
  · rename_i owner' reply hok
    exact hstep o op owner' reply hop ho (step_transition hok)
  · exact ho

end

/-- A session with room for two subscriptions and three packets in flight. -/
def smallConfig : SessionConfig :=
  { headerValid := true
    ownerInstanceId := 1
    sessionId := 7
    maxSubscriptions := 2
    maxInflight := 3
    settlement := ⟨.accepted, .accepted, .accepted⟩ }

def persistentConnect : ConnectView :=
  { version := .v311
    cleanStart := false
    willQos := 0
    willRetain := false
    keepAlive := 30
    properties := []
    clientId := text "sensor"
    willProperties := []
    willTopic := []
    willPayload := []
    username := none
    password := none }

def smallOwner : Owner := (ownerCreate smallConfig).get rfl

theorem ownerCreate_smallConfig : ownerCreate smallConfig = some smallOwner := (Option.some_get _).symm

def samplePublish (qos : UInt8) (packetId : UInt16) (duplicate : Bool) : PublishView :=
  { qos := qos
    retain := false
    duplicate := duplicate
    packetId := packetId
    topic := text "t"
    properties := []
    payload := [] }

def sampleRequest (packetId : UInt32) : SettlementRequest :=
  { headerValid := true
    message :=
      { headerValid := true
        protocolMqtt := true
        protocolVersion := 4
        kind := .data
        qos := 2
        packetId := packetId
        sessionGeneration := 1
        duplicate := 0
        retain := 0 }
    point := .accepted
    status := none }

def samplePacket (packetId : UInt8) : Bytes := [0x32, 0x05, 0x00, 0x01, 0x74, 0x00, packetId]

end Flowie.Session
