import Flowie.Endpoint.FanOut
import Flowie.Session.Repository

/-!
# The sessions of an endpoint

The events of `flowie_endpoint.c` that change the sessions or the selector over them, for an
endpoint that manages its sessions itself (no cluster). An event that fails leaves what it had
changed by then, so each one gives the endpoint after it beside its result.

What the rest of the endpoint does is an answer in the event: the wall clock (zero when it fails),
the repository, and whether a connection can be fenced and bound. Timers decide when a session
expires and are left out, as is the security realm, which only ends an event early. A session is
updated by its identifier, which stands for the pointer to it.
-/

namespace Flowie.Endpoint

open Mqtt Session

/-- `flowie_endpoint_session_t`. -/
structure EndpointSession where
  clientId : Bytes
  owner : Owner
  connection : Option Nat

def EndpointSession.sessionId (session : EndpointSession) : UInt64 := session.owner.config.sessionId

/-- The part of `flowie_endpoint_t` that the sessions need. -/
structure State where
  instanceId : UInt64
  maxSessions : Nat
  maxSubscriptionsPerSession : Nat
  maxInflightPerSession : Nat
  settlement : SettlementPolicy
  persistenceEnabled : Bool
  nextRouteId : UInt64
  sessions : List EndpointSession
  selector : Selector
  subscriptionIndexValid : Bool

namespace State

def create (instanceId : UInt64) (maxSessions maxSubscriptionsPerSession maxInflightPerSession : Nat)
    (settlement : SettlementPolicy) (persistenceEnabled : Bool) : State :=
  { instanceId := instanceId
    maxSessions := maxSessions
    maxSubscriptionsPerSession := maxSubscriptionsPerSession
    maxInflightPerSession := maxInflightPerSession
    settlement := settlement
    persistenceEnabled := persistenceEnabled
    nextRouteId := 0
    sessions := []
    selector := .empty
    subscriptionIndexValid := true }

variable (endpoint : State)

def owners : List Owner := endpoint.sessions.map (·.owner)

/-- `flowie_session_find`. -/
def sessionFind (clientId : Bytes) : Option EndpointSession :=
  endpoint.sessions.find? (·.clientId == clientId)

variable (sessionId : UInt64)

def session : Option EndpointSession :=
  endpoint.sessions.find? (·.sessionId == sessionId)

def modify (f : EndpointSession → EndpointSession) : State :=
  { endpoint with sessions := endpoint.sessions.map fun session => if session.sessionId = sessionId then f session else session }

def setOwner (owner : Owner) : State :=
  endpoint.modify sessionId fun session => { session with owner := owner }

def setConnection (connection : Option Nat) : State :=
  endpoint.modify sessionId fun session => { session with connection := connection }

def invalidate : State := { endpoint with subscriptionIndexValid := false }

/-- The selector after an operation on it: one that failed makes the index invalid. -/
def reindex (result : Except Errno Selector) : State :=
  match result with
  | .ok selector => { endpoint with selector := selector }
  | .error _ => endpoint.invalidate

/-- `flowie_subscription_index_rebuild`. -/
def rebuild : State × Except Errno Unit :=
  match indexRebuild endpoint.selector endpoint.maxSessions endpoint.owners with
  | .ok selector => ({ endpoint with selector := selector, subscriptionIndexValid := true }, .ok ())
  | .error e => (endpoint.invalidate, .error e)

/-- `flowie_session_remove_owned`. -/
def sessionRemoveOwned : State :=
  let endpoint :=
    if endpoint.subscriptionIndexValid then endpoint.reindex (sessionRemove endpoint.selector sessionId) else endpoint
  match endpoint.sessions.findIdx? (·.sessionId == sessionId) with
  | none => endpoint
  | some i => { endpoint with sessions := endpoint.sessions.swapRemove i }

/-- `flowie_session_commit_staged`; `saved` is what `flowie_session_record_put` says, which is
    asked with persistence only. -/
def sessionCommitStaged (staged : Owner) (saved : Except Errno Unit) :
    Except Errno State :=
  match if endpoint.persistenceEnabled then saved else .ok () with
  | .error e => .error e
  | .ok _ => .ok (endpoint.setOwner sessionId staged)

end State

/-- What a CONNECT is answered by the clock, the repository, the old connection and the binding of
    the new one. -/
structure ConnectAnswer where
  now : UInt64
  saved : Except Errno Unit
  fenced : Except Errno Unit
  bound : Except Errno Unit

/-- What the close of a session is answered by the clock and the repository. -/
structure CloseAnswer where
  now : UInt64
  deleted : Except Errno Unit
  saved : Except Errno Unit

/-- `flowie_session_owner_delivery_expire` at the time of the clock. -/
def expireAt (owner : Owner) (now : UInt64) : Except Errno Owner :=
  if now = 0 then .error .eio
  else
    match deliveryExpire owner now with
    | .error e => .error e
    | .ok (owner, _) => .ok owner

section

variable [Vstr]

/-- The CONNECT of a session that is there: the owner the session has after it, and the result. With
    persistence it is made on a copy that replaces the owner once it is saved, else in place. -/
def connectOwner (persistenceEnabled : Bool) (owner : Owner) (view : ConnectView) (takeover : Bool)
    (answer : ConnectAnswer) : Owner × Except Errno ConnectResult :=
  match if persistenceEnabled then ownerClone owner else some owner with
  | none => (owner, .error .enomem)
  | some staged =>
    match ownerConnect staged view takeover with
    | .error e => (owner, .error e)
    | .ok (opened, decision) =>
      if !decision.accepted then (owner, .ok decision)
      else
        match expireAt opened answer.now with
        | .error e => (if persistenceEnabled then owner else opened, .error e)
        | .ok opened =>
          match if persistenceEnabled then answer.saved else .ok () with
          | .error e => (owner, .error e)
          | .ok _ => (opened, .ok decision)

end

/-- `flowie_session_owner_close` with its result ignored. -/
def closeIgnored (owner : Owner) : Owner :=
  match ownerClose owner with
  | .ok owner => owner
  | .error _ => owner

namespace State

section

variable [Vstr]

/-- `flowie_session_create`. -/
def sessionCreate (endpoint : State) (view : ConnectView) (answer : ConnectAnswer) :
    State × Except Errno ConnectResult :=
  if endpoint.sessions.length ≥ endpoint.maxSessions then (endpoint, .error .enospc)
  else if endpoint.nextRouteId = uint64Max then (endpoint, .error .erange)
  else
    let endpoint := { endpoint with nextRouteId := endpoint.nextRouteId + 1 }
    let config : SessionConfig :=
      { headerValid := true
        ownerInstanceId := endpoint.instanceId
        sessionId := endpoint.nextRouteId
        maxSubscriptions := endpoint.maxSubscriptionsPerSession
        maxInflight := endpoint.maxInflightPerSession
        settlement := endpoint.settlement }
    match ownerCreate config with
    | none => (endpoint, .error .enomem)
    | some owner =>
      match ownerConnect owner view false with
      | .error e => (endpoint, .error e)
      | .ok (owner, decision) =>
        if !decision.accepted then (endpoint, .ok decision)
        else
          match if endpoint.persistenceEnabled then answer.saved else .ok () with
          | .error e => (endpoint, .error e)
          | .ok _ =>
            ({ endpoint with sessions := endpoint.sessions ++ [⟨view.clientId, owner, none⟩] }, .ok decision)

end

/-- The end of a CONNECT that was accepted: a connection that cannot be bound closes the owner again. -/
def bindSession (endpoint : State) (sessionId : UInt64) (connection : Nat) (staleIndex : Bool)
    (answer : ConnectAnswer) : State × Except Errno Unit :=
  match answer.bound with
  | .error e =>
    (endpoint.modify sessionId fun session => { session with owner := closeIgnored session.owner }, .error e)
  | .ok _ =>
    let endpoint := endpoint.setConnection sessionId (some connection)
    (if staleIndex then endpoint.invalidate else endpoint, .ok ())

section

variable [Vstr] (endpoint : State)

/-- The CONNECT branch of `flowie_endpoint_session_prepare` once the client is authorized. -/
def connect (connection : Nat) (view : ConnectView) (answer : ConnectAnswer) :
    State × Except Errno Unit :=
  match endpoint.sessionFind view.clientId with
  | some session =>
    let takeover := session.connection.any (· != connection)
    let connected := connectOwner endpoint.persistenceEnabled session.owner view takeover answer
    let endpoint := endpoint.setOwner session.sessionId connected.1
    match connected.2 with
    | .error e => (endpoint, .error e)
    | .ok decision =>
      if !decision.accepted then (endpoint, .ok ())
      else
        match if takeover then answer.fenced else .ok () with
        | .error e => (endpoint, .error e)
        | .ok _ => endpoint.bindSession session.sessionId connection view.cleanStart answer
  | none =>
    match endpoint.sessionCreate view answer with
    | (endpoint, .error .enospc) => (endpoint, .ok ())
    | (endpoint, .error e) => (endpoint, .error e)
    | (endpoint, .ok decision) =>
      if !decision.accepted then (endpoint, .ok ())
      else endpoint.bindSession endpoint.nextRouteId connection false answer

variable (sessionId : UInt64) (packet : PacketView)

/-- `flowie_subscription_index_apply_subscribe` on a valid index. -/
def applySubscribe (subscribe : SubscribeView) :
    Except Errno Selector :=
  match subscribeIdentifier packet.version subscribe.properties with
  | .error e => .error e
  | .ok identifier =>
    let entries := subscriptions packet.version subscribe.entries
    let upsert := fun selector entry =>
      memberUpsert endpoint.maxSessions selector entry.filter (memberOf sessionId (subscriptionOf entry identifier))
    match entries.1.foldlM upsert endpoint.selector with
    | .error e => .error e
    | .ok selector =>
      if entries.2 = .needMore ∧ entries.1.length = subscribe.entryCount then .ok selector else .error .eproto

/-- `flowie_subscription_index_apply_unsubscribe` on a valid index. -/
def applyUnsubscribe (unsubscribe : UnsubscribeView) :
    Except Errno Selector :=
  let filters := topicFilters unsubscribe.filters
  match filters.1.foldlM (fun selector filter => memberRemove selector sessionId filter) endpoint.selector with
  | .error e => .error e
  | .ok selector =>
    if filters.2 = .needMore ∧ filters.1.length = unsubscribe.filterCount then .ok selector else .error .eproto

/-- The end of `flowie_endpoint_prepare_subscribe`, on the packet with the authorized entries. -/
def prepareSubscribe (subscribe : SubscribeView)
    (saved : Except Errno Unit) : State × Except Errno Unit :=
  match endpoint.session sessionId with
  | none => (endpoint, .error .einval)
  | some session =>
    match ownerClone session.owner with
    | none => (endpoint, .error .enomem)
    | some staged =>
      match ownerSubscribe staged packet subscribe with
      | .error e => (endpoint, .error e)
      | .ok (staged, result) =>
        if !result.changed then (endpoint, .ok ())
        else
          match endpoint.sessionCommitStaged sessionId staged saved with
          | .error e => (endpoint, .error e)
          | .ok endpoint =>
            if endpoint.subscriptionIndexValid then
              (endpoint.reindex (endpoint.applySubscribe sessionId packet subscribe), .ok ())
            else (endpoint, .ok ())

/-- `flowie_endpoint_prepare_unsubscribe`. -/
def prepareUnsubscribe (unsubscribe : UnsubscribeView) (saved : Except Errno Unit) : State × Except Errno Unit :=
  match endpoint.session sessionId with
  | none => (endpoint, .error .einval)
  | some session =>
    match ownerClone session.owner with
    | none => (endpoint, .error .enomem)
    | some staged =>
      let capacity := if packet.version = .v5 then unsubscribe.filterCount else 0
      match ownerUnsubscribe staged packet unsubscribe capacity with
      | .error e => (endpoint, .error e)
      | .ok (staged, result) =>
        if result.removedCount = 0 then (endpoint, .ok ())
        else
          match endpoint.sessionCommitStaged sessionId staged saved with
          | .error e => (endpoint, .error e)
          | .ok endpoint =>
            if endpoint.subscriptionIndexValid then
              (endpoint.reindex (endpoint.applyUnsubscribe sessionId unsubscribe), .ok ())
            else (endpoint, .ok ())

end

/-- `flowie_session_close_schedule`: on a staged owner with persistence, else in place. A session
    with expiry interval zero is removed at once, unless a Will is pending. -/
def sessionCloseSchedule (endpoint : State) (session : EndpointSession) (answer : CloseAnswer) :
    State × Except Errno Unit :=
  match if endpoint.persistenceEnabled then ownerClone session.owner else some session.owner with
  | none => (endpoint, .error .enomem)
  | some closing =>
    match ownerClose closing with
    | .error e => (endpoint, .error e)
    | .ok closing =>
      -- without persistence the session has the closed owner whatever follows
      let closed := if endpoint.persistenceEnabled then endpoint else endpoint.setOwner session.sessionId closing
      let willPending := closing.will.any (·.pending)
      if closing.sessionExpiryInterval = 0 ∧ !willPending then
        match if endpoint.persistenceEnabled then answer.deleted else .ok () with
        | .error e => (closed, .error e)
        | .ok _ => (closed.sessionRemoveOwned session.sessionId, .ok ())
      else if (closing.sessionExpiryInterval ≠ uint32Max ∨ willPending) ∧ answer.now = 0 then (closed, .error .eio)
      else
        match endpoint.sessionCommitStaged session.sessionId closing answer.saved with
        | .error e => (endpoint, .error e)
        | .ok endpoint => (endpoint, .ok ())

/-- The session part of `flowie_net_connection_release`. -/
def connectionRelease (endpoint : State) (sessionId : UInt64) (connection : Nat) (sessionTakeover : Bool)
    (answer : CloseAnswer) : State :=
  match endpoint.session sessionId with
  | none => endpoint
  | some session =>
    if session.connection ≠ some connection then endpoint
    else
      let endpoint := endpoint.setConnection sessionId none
      if sessionTakeover then endpoint else (endpoint.sessionCloseSchedule session answer).1

/-- The removal of a session in `flowie_expiry_task`, when its timer has run out. -/
def sessionExpire (endpoint : State) (sessionId : UInt64) (deleted : Except Errno Unit) : State :=
  match endpoint.session sessionId with
  | none => endpoint
  | some session =>
    if session.owner.active then endpoint
    else
      match if endpoint.persistenceEnabled then deleted else .ok () with
      | .error _ => endpoint
      | .ok _ => endpoint.sessionRemoveOwned sessionId

end State

/-- The session operations that no event of their own models. None of them is about
    subscriptions. -/
def plainOperation : Op → Bool
  | .connect .. | .close | .subscribe .. | .unsubscribe .. => false
  | _ => true

namespace State

section

variable [Vstr]

/-- Any other operation on a session, in place or staged and committed. -/
def operate (endpoint : State) (sessionId : UInt64) (op : Op) : State :=
  if plainOperation op then
    endpoint.modify sessionId fun session => { session with owner := next session.owner op }
  else endpoint

/-- `flowie_fanout_select`: an invalid index is rebuilt first. -/
def select (endpoint : State) (publisherSessionId : UInt64) (topic : Bytes) : State × Except Errno (List Target) :=
  let (endpoint, rebuilt) := if endpoint.subscriptionIndexValid then (endpoint, .ok ()) else endpoint.rebuild
  match rebuilt with
  | .error e => (endpoint, .error e)
  | .ok _ =>
    match fanoutSelect endpoint.owners endpoint.maxSessions endpoint.selector publisherSessionId topic with
    | .error e => (endpoint, .error e)
    | .ok (selector, targets) => ({ endpoint with selector := selector }, .ok targets)

end

/-- An accepted connection takes a route identifier of its own. -/
def clientAdd (endpoint : State) : State :=
  if endpoint.nextRouteId = uint64Max then endpoint
  else { endpoint with nextRouteId := endpoint.nextRouteId + 1 }

end State

inductive EndpointEvent where
  | clientAdd
  | connect (connection : Nat) (view : ConnectView) (answer : ConnectAnswer)
  | subscribe (sessionId : UInt64) (packet : PacketView) (view : SubscribeView) (saved : Except Errno Unit)
  | unsubscribe (sessionId : UInt64) (packet : PacketView) (view : UnsubscribeView) (saved : Except Errno Unit)
  | operate (sessionId : UInt64) (op : Op)
  | release (sessionId : UInt64) (connection : Nat) (sessionTakeover : Bool) (answer : CloseAnswer)
  | expire (sessionId : UInt64) (deleted : Except Errno Unit)
  | select (publisherSessionId : UInt64) (topic : Bytes)
  | rebuild

namespace State

section

variable [Vstr]

def step (endpoint : State) : EndpointEvent → State
  | .clientAdd => endpoint.clientAdd
  | .connect connection view answer => (endpoint.connect connection view answer).1
  | .subscribe sessionId packet view saved => (endpoint.prepareSubscribe sessionId packet view saved).1
  | .unsubscribe sessionId packet view saved => (endpoint.prepareUnsubscribe sessionId packet view saved).1
  | .operate sessionId op => endpoint.operate sessionId op
  | .release sessionId connection sessionTakeover answer =>
    endpoint.connectionRelease sessionId connection sessionTakeover answer
  | .expire sessionId deleted => endpoint.sessionExpire sessionId deleted
  | .select publisherSessionId topic => (endpoint.select publisherSessionId topic).1
  | .rebuild => endpoint.rebuild.1

def run (endpoint : State) (events : List EndpointEvent) : State := events.foldl step endpoint

/-- `flowie_endpoint_restore_session_row`: a session that has ended without a pending Will is dropped
    from the store instead. -/
def restoreSessionRow (now : UInt64) (endpoint : State) (stored : SessionRow × UInt64) : Except Errno State :=
  let (row, expiryAt) := stored
  let config : SessionConfig :=
    { headerValid := true
      ownerInstanceId := endpoint.instanceId
      sessionId := row.sessionId
      maxSubscriptions := endpoint.maxSubscriptionsPerSession
      maxInflight := endpoint.maxInflightPerSession
      settlement := endpoint.settlement }
  match repositoryRestore config row with
  | .error e => .error e
  | .ok owner =>
    let ended := owner.sessionExpiryInterval = 0 ∨ expiryAt ≠ 0 ∧ expiryAt ≤ now
    let willPending := owner.will.any (·.pending)
    if ended ∧ !willPending then .ok endpoint
    else if endpoint.sessions.length ≥ endpoint.maxSessions then .error .enospc
    else if (ended ∨ owner.sessionExpiryInterval ≠ uint32Max ∨ willPending) ∧ now = 0 then .error .eio
    else
      .ok
        { endpoint with
          sessions := endpoint.sessions ++ [⟨row.clientId, owner, none⟩]
          nextRouteId :=
            if owner.config.sessionId > endpoint.nextRouteId then owner.config.sessionId else endpoint.nextRouteId }

/-- `flowie_endpoint_restore_sessions`, as far as the sessions go, from the rows with their expiry
    times. -/
def restoreSessions (now : UInt64) (endpoint : State) (rows : List (SessionRow × UInt64)) : Except Errno State :=
  match rows.foldlM (restoreSessionRow now) endpoint with
  | .error e => .error e
  | .ok endpoint =>
    match endpoint.rebuild with
    | (_, .error e) => .error e
    | (endpoint, .ok _) => .ok endpoint

end

end State

end Flowie.Endpoint
