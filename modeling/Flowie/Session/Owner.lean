import Flowie.Lib.IndexedVec
import Flowie.Mqtt.Encode

/-!
# The session owner

The state of one MQTT session in `flowie_session.c`: its subscriptions, the inbound QoS 1 and 2
packet identifiers in flight, the outbound deliveries with their index by packet identifier, and
the Will. An operation returns the owner after it, or the code it fails with; a failed operation
leaves the owner as it was. Allocation succeeds.
-/

namespace Flowie.Session

open Mqtt

/-- `flowie_protocol_settlement_point_t`; `unknown` is a value outside the enumeration. -/
inductive SettlementPoint where
  | received | accepted | processed | durable | unknown
deriving DecidableEq, Repr

def SettlementPoint.rank : SettlementPoint → Nat
  | .unknown => 0
  | .received => 1
  | .accepted => 2
  | .processed => 3
  | .durable => 4

/-- `flowie_protocol_settlement_policy_t`. -/
structure SettlementPolicy where
  qos0 : SettlementPoint
  qos1 : SettlementPoint
  qos2 : SettlementPoint
deriving DecidableEq, Repr

/-- `flowie_session_config_t`. -/
structure SessionConfig where
  headerValid : Bool
  ownerInstanceId : UInt64
  sessionId : UInt64
  maxSubscriptions : Nat
  maxInflight : Nat
  settlement : SettlementPolicy
deriving DecidableEq, Repr

/-- `flowie_session_subscription_owned_t`. -/
structure Subscription where
  filter : Bytes
  qos : UInt8
  noLocal : Bool
  retainAsPublished : Bool
  retainHandling : UInt8
  subscriptionIdentifier : UInt32
deriving DecidableEq, Repr

inductive InflightState where
  | settlement | qos2Release
deriving DecidableEq, Repr

/-- `flowie_session_inflight_t`: an inbound packet identifier. -/
structure Inflight where
  packetId : UInt16
  qos : UInt8
  state : InflightState
deriving DecidableEq, Repr

inductive DeliveryState where
  | reserved | waitAck | waitPubrec | waitPubcomp | queued
deriving DecidableEq, Repr

/-- `flowie_session_delivery_t`: an outbound packet identifier and, once committed, its packet. -/
structure Delivery where
  packetId : UInt16
  qos : UInt8
  state : DeliveryState
  expiryAtEpochSeconds : UInt64
  packet : Option Bytes
deriving DecidableEq, Repr

/-- The Will of a session; its fields are zero when there is none. -/
structure Will where
  topic : Bytes
  properties : Bytes
  payload : Bytes
  delayInterval : UInt32
  pending : Bool
  qos : UInt8
  retain : Bool
deriving DecidableEq, Repr

/-- `flowie_session_owner_t`. -/
structure Owner where
  config : SessionConfig
  clientId : Option Bytes
  subscriptions : List Subscription
  inflight : List Inflight
  deliveries : IndexedVec Delivery.packetId
  will : Option Will
  version : Version
  keepAlive : UInt16
  sessionExpiryInterval : UInt32
  sessionGeneration : UInt64
  resourceGeneration : UInt64
  nextDeliveryPacketId : UInt16
  initialized : Bool
  active : Bool
  cleanStart : Bool

def uint64Max : UInt64 := 0xffffffffffffffff
def uint32Max : UInt32 := 0xffffffff
def uint16Max : UInt16 := 0xffff
def maxSubscriptions : Nat := 65535

/-- `flow_protocol_settlement_point_valid`. -/
def settlementPointValid (point : SettlementPoint) : Bool := point != .unknown

/-- `flowie_session_config_valid`. -/
def configValid (config : SessionConfig) : Bool :=
  config.headerValid && config.ownerInstanceId != 0 && config.sessionId != 0 && config.maxSubscriptions != 0 &&
    decide (config.maxSubscriptions ≤ maxSubscriptions) && config.maxInflight != 0 &&
    decide (config.maxInflight ≤ uint16Max.toNat) && settlementPointValid config.settlement.qos0 &&
    settlementPointValid config.settlement.qos1 && settlementPointValid config.settlement.qos2

/-- `flowie_session_owner_create`; `none` is the null pointer. -/
def ownerCreate (config : SessionConfig) : Option Owner :=
  if configValid config then
    some
      { config := config
        clientId := none
        subscriptions := []
        inflight := []
        deliveries := .empty
        will := none
        version := .unspecified
        keepAlive := 0
        sessionExpiryInterval := 0
        sessionGeneration := 0
        resourceGeneration := 1
        nextDeliveryPacketId := 0
        initialized := false
        active := false
        cleanStart := false }
  else none

theorem ownerCreate_eq_some {config : SessionConfig} {created : Owner} (h : ownerCreate config = some created) :
    created.config = config ∧ created.inflight = [] ∧ created.deliveries.entries = [] ∧ created.subscriptions = [] := by
  unfold ownerCreate at h
  split at h
  · cases h
    exact ⟨rfl, rfl, rfl, rfl⟩
  · cases h

variable {generation : UInt64}

theorem generation_succ_ne_zero (h : generation ≠ uint64Max) : generation + 1 ≠ 0 := by
  intro hzero
  have hnat : (generation.toNat + 1) % 2 ^ 64 = 0 := by
    rw [← UInt64.toNat_one, ← UInt64.toNat_add, hzero]
    rfl
  have hlt := generation.toNat_lt
  refine h (UInt64.toNat_inj.1 ?_)
  show generation.toNat = 2 ^ 64 - 1
  omega

theorem generation_lt_succ (h : generation ≠ uint64Max) : generation < generation + 1 := by
  have hlt : generation.toNat + 1 < 2 ^ 64 := by
    have hne : generation.toNat ≠ 2 ^ 64 - 1 := fun heq => h (UInt64.toNat_inj.1 heq)
    have := generation.toNat_lt
    omega
  show generation.toNat < (generation + 1).toNat
  rw [UInt64.toNat_add, UInt64.toNat_one, Nat.mod_eq_of_lt hlt]
  exact Nat.lt_succ_self _

def Owner.advanced (owner : Owner) : Owner := { owner with resourceGeneration := owner.resourceGeneration + 1 }

/-- `flowie_session_generation_advance`. -/
def generationAdvance (owner : Owner) : Except Errno Owner :=
  if owner.resourceGeneration = uint64Max then .error .erange else .ok owner.advanced

/-- `flowie_session_owner_touch`. -/
def ownerTouch (owner : Owner) : Except Errno Owner :=
  if !owner.initialized then .error .einval else generationAdvance owner

/-- `flowie_session_inflight_clear`. -/
def inflightClear (keepQos2Release : Bool) (inflight : List Inflight) : List Inflight :=
  List.retainSwap (fun entry => keepQos2Release && entry.state == .qos2Release) inflight.length 0 inflight

/-- The loop that reads the one value of a property; a second occurrence is an error. -/
def singlePropertyLoop (identifier : PropertyId) : Option Nat → List Property → Except Errno (Option Nat)
  | found, [] => .ok found
  | found, property :: rest =>
    if property.identifier ≠ identifier then singlePropertyLoop identifier found rest
    else if found.isSome then .error .eproto
    else singlePropertyLoop identifier (some property.integer) rest

/-- `flowie_protocol_route_t`. -/
structure Route where
  headerValid : Bool
  protocolMqtt : Bool
  ownerInstanceId : UInt64
  sessionId : UInt64
  sessionGeneration : UInt64
deriving DecidableEq, Repr

/-- `flowie_session_connect_result_t`; `replySessionPresent` and `reasonCode` go into the
    CONNACK. -/
structure ConnectResult where
  accepted : Bool
  closeAfterReply : Bool
  sessionPresent : Bool
  replySessionPresent : Bool
  reasonCode : UInt8
  route : Option Route
deriving DecidableEq, Repr

/-- `flowie_session_owner_route`. -/
def ownerRoute (owner : Owner) : Except Errno Route :=
  if !owner.active || owner.sessionGeneration == 0 then .error .ebusy
  else .ok ⟨true, true, owner.config.ownerInstanceId, owner.config.sessionId, owner.sessionGeneration⟩

section Connect

variable [Vstr]

def singleProperty (identifier : PropertyId) (values : Bytes) : Except Errno (Option Nat) :=
  match singlePropertyLoop identifier none (properties values).1 with
  | .error e => .error e
  | .ok found => if (properties values).2 = .needMore then .ok found else .error .eproto

/-- `flowie_session_will_delay`. -/
def willDelay (connect : ConnectView) : Except Errno UInt32 :=
  if connect.version ≠ .v5 then .ok 0
  else
    match singleProperty .willDelayInterval connect.willProperties with
    | .error e => .error e
    | .ok found => .ok (UInt32.ofNat (found.getD 0))

/-- `flowie_session_expiry`. -/
def sessionExpiry (connect : ConnectView) : Except Errno UInt32 :=
  if connect.version.is3x then .ok (if connect.cleanStart then 0 else uint32Max)
  else
    match singleProperty .sessionExpiryInterval connect.properties with
    | .error e => .error e
    | .ok found => .ok (UInt32.ofNat (found.getD 0))

def connectWill (connect : ConnectView) : Except Errno (Option Will) :=
  if connect.willTopic.isEmpty then .ok none
  else
    match willDelay connect with
    | .error e => .error e
    | .ok delay =>
      .ok (some
        { topic := connect.willTopic
          properties := connect.willProperties
          payload := connect.willPayload
          delayInterval := delay
          pending := false
          qos := connect.willQos
          retain := connect.willRetain })

/-- The checks of `flowie_session_owner_open_impl` before anything is read from the properties. -/
def openCheck (owner : Owner) (connect : ConnectView) (allowActive : Bool) : Option Errno :=
  if !connect.version.supported then some .einval
  else if owner.active && !allowActive then some .ealready
  else if connect.clientId.isEmpty then some .enotsup
  else if connect.clientId.length > uint16Max.toNat then some .emsgsize
  else if !utf8Validate connect.clientId then some .eproto
  else if owner.initialized && owner.clientId != some connect.clientId then some .eproto
  else if owner.initialized && owner.version != connect.version && !connect.cleanStart then some .eproto
  else if owner.sessionGeneration = uint64Max ∨ owner.resourceGeneration = uint64Max then some .erange
  else none

def opened (owner : Owner) (connect : ConnectView) (expiry : UInt32) (will : Option Will) : Owner :=
  { owner with
    clientId := if owner.initialized then owner.clientId else some connect.clientId
    subscriptions := if connect.cleanStart then [] else owner.subscriptions
    inflight := if connect.cleanStart then inflightClear false owner.inflight else owner.inflight
    deliveries := if connect.cleanStart then .empty else owner.deliveries
    will := will
    version := connect.version
    keepAlive := connect.keepAlive
    sessionExpiryInterval := expiry
    sessionGeneration := owner.sessionGeneration + 1
    resourceGeneration := owner.resourceGeneration + 1
    initialized := true
    active := true
    cleanStart := connect.cleanStart }

/-- `flowie_session_owner_open_impl`. -/
def ownerOpen (owner : Owner) (connect : ConnectView) (allowActive : Bool) : Except Errno Owner :=
  match openCheck owner connect allowActive with
  | some e => .error e
  | none =>
    match sessionExpiry connect with
    | .error e => .error e
    | .ok expiry =>
      match connectWill connect with
      | .error e => .error e
      | .ok will => .ok (opened owner connect expiry will)

/-- `flowie_session_owner_connect_impl`: `connect` when `allowActive` is false, `connect_takeover`
    when it is true. -/
def ownerConnect (owner : Owner) (connect : ConnectView) (allowActive : Bool) :
    Except Errno (Owner × ConnectResult) :=
  match ownerOpen owner connect allowActive with
  | .ok owner' =>
    let present := owner.initialized && !connect.cleanStart
    match ownerRoute owner' with
    | .error e => .error e
    | .ok route => .ok (owner', ⟨true, false, present, connect.version != .v31 && present, 0, some route⟩)
  | .error .enotsup => .ok (owner, ⟨false, true, false, false, if connect.version = .v5 then 0x85 else 0x02, none⟩)
  | .error .ealready => .ok (owner, ⟨false, true, false, false, if connect.version = .v5 then 0x89 else 0x03, none⟩)
  | .error e => .error e

end Connect

def Will.armed (will : Will) : Will := { will with pending := true }

/-- The stored Will: it is pending once the connection is gone. -/
def Will.stored (active : Bool) (will : Will) : Will := { will with pending := will.pending || active }

/-- What a close leaves of the session: an expiry interval of zero ends it, and otherwise only the
    released QoS 2 packet identifiers stay in flight. -/
def closed (owner : Owner) : Owner :=
  if owner.sessionExpiryInterval = 0 then
    { owner with
      active := false
      will := owner.will.map Will.armed
      subscriptions := []
      inflight := inflightClear false owner.inflight
      deliveries := .empty }
  else
    { owner with
      active := false
      will := owner.will.map Will.armed
      inflight := inflightClear true owner.inflight }

/-- `flowie_session_owner_close`. -/
def ownerClose (owner : Owner) : Except Errno Owner :=
  if !owner.active then .error .ealready
  else
    match generationAdvance owner with
    | .error e => .error e
    | .ok owner => .ok (closed owner)

/-- `flowie_session_snapshot_t`; the Will is absent when its fields are zero. -/
structure SessionSnapshot where
  active : Bool
  cleanStart : Bool
  version : Version
  keepAlive : UInt16
  sessionExpiryInterval : UInt32
  ownerInstanceId : UInt64
  sessionId : UInt64
  sessionGeneration : UInt64
  resourceGeneration : UInt64
  subscriptionCount : Nat
  subscriptionCapacity : Nat
  inflightCount : Nat
  inflightCapacity : Nat
  clientId : Bytes
  will : Option Will
deriving DecidableEq, Repr

/-- `flowie_session_owner_snapshot`: the inbound records and the deliveries are counted together. -/
def ownerSnapshot (owner : Owner) : SessionSnapshot :=
  { active := owner.active
    cleanStart := owner.cleanStart
    version := owner.version
    keepAlive := owner.keepAlive
    sessionExpiryInterval := owner.sessionExpiryInterval
    ownerInstanceId := owner.config.ownerInstanceId
    sessionId := owner.config.sessionId
    sessionGeneration := owner.sessionGeneration
    resourceGeneration := owner.resourceGeneration
    subscriptionCount := owner.subscriptions.length
    subscriptionCapacity := owner.config.maxSubscriptions
    inflightCount := owner.inflight.length + owner.deliveries.entries.length
    inflightCapacity := owner.config.maxInflight
    clientId := owner.clientId.getD []
    will := owner.will }

section Subscribe

variable [Vstr]

/-- `flowie_session_owner_disconnect`. -/
def ownerDisconnect (owner : Owner) (disconnect : ControlView) : Except Errno Owner :=
  if disconnect.type ≠ .disconnect ∨ disconnect.version ≠ owner.version then .error .einval
  else if !owner.active then .error .ebusy
  else
    match (if disconnect.version = .v5 then singleProperty .sessionExpiryInterval disconnect.properties else .ok none) with
    | .error e => .error e
    | .ok found =>
      let expiry := found.map UInt32.ofNat
      let expiryChanged := expiry.any (· != owner.sessionExpiryInterval)
      if expiryChanged && owner.sessionExpiryInterval == 0 then .error .eproto
      else
        let dropWill := disconnect.reasonCode != 0x04 && owner.will.isSome
        if !expiryChanged && !dropWill then .ok owner
        else if owner.resourceGeneration = uint64Max then .error .erange
        else
          .ok
            { owner with
              sessionExpiryInterval := expiry.getD owner.sessionExpiryInterval
              will := if dropWill then none else owner.will
              resourceGeneration := owner.resourceGeneration + 1 }

/-- `flowie_session_owner_will_complete`. -/
def ownerWillComplete (owner : Owner) : Except Errno Owner :=
  if !owner.will.any (·.pending) then .error .enoent
  else if owner.resourceGeneration = uint64Max then .error .erange
  else .ok { owner with will := none, resourceGeneration := owner.resourceGeneration + 1 }

def subscriptionOf (entry : SubscriptionView) (identifier : UInt32) : Subscription :=
  ⟨entry.filter, entry.qos, entry.noLocal, entry.retainAsPublished, entry.retainHandling, identifier⟩

/-- `flowie_session_subscription_apply`: the subscriptions after the entry and whether anything
    has changed so far. -/
def subscriptionApply (capacity : Nat) (entry : SubscriptionView) (identifier : UInt32)
    (subscriptions : List Subscription) (changed : Bool) : Except Errno (List Subscription × Bool) :=
  match subscriptions.findIdx? (·.filter == entry.filter) with
  | some i =>
    if subscriptions[i]? = some (subscriptionOf entry identifier) then .ok (subscriptions, changed)
    else .ok (subscriptions.set i (subscriptionOf entry identifier), true)
  | none =>
    if subscriptions.length ≥ capacity then .error .enospc
    else .ok (subscriptions ++ [subscriptionOf entry identifier], true)

/-- The loop of `flowie_session_owner_subscribe` over the entries. -/
def subscribeLoop (capacity : Nat) (identifier : UInt32) :
    List SubscriptionView → List Subscription → Bool → Except Errno (List Subscription × Bool)
  | [], subscriptions, changed => .ok (subscriptions, changed)
  | entry :: rest, subscriptions, changed =>
    match subscriptionApply capacity entry identifier subscriptions changed with
    | .error e => .error e
    | .ok (subscriptions, changed) => subscribeLoop capacity identifier rest subscriptions changed

/-- The subscription identifier of a SUBSCRIBE: the last one, or zero. -/
def subscribeIdentifier (version : Version) (values : Bytes) : Except Errno UInt32 :=
  if version = .v5 ∧ !values.isEmpty then
    if (properties values).2 = .needMore then
      .ok (((properties values).1.filter (·.identifier == .subscriptionIdentifier)).getLast?.elim 0
        fun property => UInt32.ofNat property.integer)
    else .error .eproto
  else .ok 0

/-- `flowie_session_subscribe_result_t`. -/
structure SubscribeResult where
  packetId : UInt16
  acceptedCount : Nat
  changed : Bool
deriving DecidableEq, Repr

/-- `flowie_session_owner_subscribe`. -/
def ownerSubscribe (owner : Owner) (packet : PacketView) (subscribe : SubscribeView) :
    Except Errno (Owner × SubscribeResult) :=
  if !owner.active then .error .ebusy
  else if packet.type ≠ .subscribe ∨ packet.version ≠ owner.version ∨ subscribe.packetId = 0 ∨
      subscribe.entryCount = 0 then .error .eproto
  else if !packet.version.supported then .error .eproto
  else
    match subscribeIdentifier packet.version subscribe.properties with
    | .error e => .error e
    | .ok identifier =>
      let entries := subscriptions packet.version subscribe.entries
      match subscribeLoop owner.config.maxSubscriptions identifier entries.1 owner.subscriptions false with
      | .error e => .error e
      | .ok (staged, changed) =>
        if entries.2 ≠ .needMore ∨ entries.1.length ≠ subscribe.entryCount then .error .eproto
        else
          let result : SubscribeResult := ⟨subscribe.packetId, entries.1.length, changed⟩
          if changed then
            match generationAdvance owner with
            | .error e => .error e
            | .ok owner => .ok ({ owner with subscriptions := staged }, result)
          else .ok (owner, result)

/-- `flowie_session_subscription_remove`: the subscriptions without the filter and whether it was
    there. -/
def subscriptionRemove (subscriptions : List Subscription) (filter : Bytes) : List Subscription × Bool :=
  match subscriptions.findIdx? (·.filter == filter) with
  | some i => (subscriptions.swapRemove i, true)
  | none => (subscriptions, false)

/-- The loop of `flowie_session_owner_unsubscribe`: the subscriptions left and the reason code of
    every filter. -/
def unsubscribeLoop : List Bytes → List Subscription → List Subscription × List UInt8
  | [], subscriptions => (subscriptions, [])
  | filter :: rest, subscriptions =>
    let (subscriptions, removed) := subscriptionRemove subscriptions filter
    let (subscriptions, reasons) := unsubscribeLoop rest subscriptions
    (subscriptions, (if removed then 0x00 else 0x11) :: reasons)

/-- `flowie_session_unsubscribe_result_t`; the reason codes are those of MQTT 5. -/
structure UnsubscribeResult where
  packetId : UInt16
  filterCount : Nat
  removedCount : Nat
  reasonCodes : List UInt8
deriving DecidableEq, Repr

/-- `flowie_session_owner_unsubscribe`. -/
def ownerUnsubscribe (owner : Owner) (packet : PacketView) (unsubscribe : UnsubscribeView)
    (reasonCodeCapacity : Nat) : Except Errno (Owner × UnsubscribeResult) :=
  if !owner.active then .error .ebusy
  else if packet.type ≠ .unsubscribe ∨ packet.version ≠ owner.version ∨ unsubscribe.packetId = 0 ∨
      unsubscribe.filterCount = 0 then .error .eproto
  else if packet.version = .v5 ∧ reasonCodeCapacity < unsubscribe.filterCount then .error .enospc
  else if unsubscribe.filters.isEmpty then .error .eproto
  else
    let filters := topicFilters unsubscribe.filters
    let (staged, reasons) := unsubscribeLoop filters.1 owner.subscriptions
    let removedCount := reasons.count 0x00
    if filters.2 ≠ .needMore ∨ filters.1.length ≠ unsubscribe.filterCount then .error .eproto
    else
      let result : UnsubscribeResult :=
        ⟨unsubscribe.packetId, filters.1.length, removedCount, if packet.version = .v5 then reasons else []⟩
      if removedCount ≠ 0 then
        match generationAdvance owner with
        | .error e => .error e
        | .ok owner => .ok ({ owner with subscriptions := staged }, result)
      else .ok (owner, result)

end Subscribe

end Flowie.Session
