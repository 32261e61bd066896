import Flowie.Endpoint.Publish
import Flowie.Endpoint.Sessions
import Flowie.Lib.Run

/-!
# The Will of a client

One client's session at an endpoint with the timers of its expiry and its Will: CONNECT, DISCONNECT, the
loss of the connection and the expiry task. A Will belongs to the CONNECT that set it, and every accepted
CONNECT and every DISCONNECT other than 0x04 takes it away, whether it was published or not.
`will_obligation_iff` says in which runs no Will is lost.
-/

namespace Flowie.Endpoint

open Mqtt Session Option

structure WillConfig where
  persistenceEnabled : Bool
  maxPacketSize : Nat

/-- `flowie_endpoint_session_t` with its timers. A deadline of zero is not set; a timer belongs to the session
    generation in which it was set. -/
structure ClientSession where
  owner : Owner
  connection : Option Nat
  expiryAt : Nat
  willAt : Nat
  expiryDeadline : Nat
  expiryGeneration : UInt64
  willDeadline : Nat
  willGeneration : UInt64

/-- The time readings (zero when the clock fails) and results around the close of a session. -/
structure ReleaseAnswer where
  now : Nat
  deleted : Except Errno Unit
  saved : Except Errno Unit
  hrtime : Nat
  expiryNow : Nat
  expiryScheduled : Except Errno Unit
  willNow : Nat
  willScheduled : Except Errno Unit

/-- The time and the results of one pass of the expiry task over the session. -/
structure TickAnswer where
  hrtime : Nat
  dispatched : Except Errno Unit
  saved : Except Errno Unit
  deleted : Except Errno Unit

inductive WillEvent where
  | connect (connection : Nat) (view : ConnectView) (answer : ConnectAnswer) (config : SessionConfig)
  | disconnect (connection : Nat) (view : ControlView) (saved : Except Errno Unit)
  | release (connection : Nat) (sessionTakeover : Bool) (answer : ReleaseAnswer)
  | tick (answer : TickAnswer)
  | operate (op : Op)

def saturatingAdd (a b : Nat) : Nat := min (a + b) uint64Max.toNat

def nanosecondsPerSecond : Nat := 1000000000

/-- The delay of a Will: its own, or the expiry interval of the session when that is shorter. -/
def effectiveDelay (owner : Owner) (will : Will) : Nat :=
  if owner.sessionExpiryInterval ≠ uint32Max ∧ owner.sessionExpiryInterval < will.delayInterval then
    owner.sessionExpiryInterval.toNat
  else will.delayInterval.toNat

variable (session : ClientSession)

def ClientSession.timersReset : ClientSession :=
  { session with expiryDeadline := 0, expiryGeneration := 0, willDeadline := 0, willGeneration := 0 }

def ClientSession.willReset : ClientSession :=
  { session with willDeadline := 0, willGeneration := 0 }

/-- The end of an accepted CONNECT: a connection that cannot be bound closes the owner again, without timers. -/
def ClientSession.bind (connection : Nat) (bound : Except Errno Unit) : ClientSession :=
  match bound with
  | .error _ => { session with owner := closeIgnored session.owner }
  | .ok _ => { session.timersReset with connection := some connection, expiryAt := 0, willAt := 0 }

section

variable [Vstr]

def ClientSession.connect (config : WillConfig) (session : ClientSession) (connection : Nat) (view : ConnectView)
    (answer : ConnectAnswer) : ClientSession :=
  let takeover := session.connection.any (· != connection)
  let connected := connectOwner config.persistenceEnabled session.owner view takeover answer
  let session := { session with owner := connected.1 }
  match connected.2 with
  | .error _ => session
  | .ok decision =>
    if !decision.accepted then session
    else
      let session := if config.persistenceEnabled then { session with expiryAt := 0, willAt := 0 } else session
      match if takeover then answer.fenced else .ok () with
      | .error _ => session
      | .ok _ => session.bind connection answer.bound

/-- The first CONNECT of a client: `flowie_session_create` and the binding. -/
def clientCreate (config : WillConfig) (connection : Nat) (view : ConnectView) (answer : ConnectAnswer)
    (sessionConfig : SessionConfig) : Option ClientSession :=
  match ownerCreate sessionConfig with
  | none => none
  | some owner =>
    match ownerConnect owner view false with
    | .error _ => none
    | .ok (owner, decision) =>
      if !decision.accepted then none
      else
        match if config.persistenceEnabled then answer.saved else .ok () with
        | .error _ => none
        | .ok _ => some (ClientSession.bind ⟨owner, none, 0, 0, 0, 0, 0, 0⟩ connection answer.bound)

end

section

variable [Vstr]

/-- The session part of `flowie_endpoint_prepare_disconnect`: a copy is stored when it has changed. -/
def disconnectOwner (config : WillConfig) (owner : Owner) (view : ControlView) (saved : Except Errno Unit) :
    Except Errno (Owner × Bool) :=
  staged config.persistenceEnabled owner
    (fun owner => (ownerDisconnect owner view).map fun after => (after, after.resourceGeneration != owner.resourceGeneration))
    (fun changed => changed) saved

end

/-- The times of the expiry and of the Will that `flowie_session_close_schedule` stores. -/
def closeTimes (closing : Owner) (now : Nat) : Except Errno (Nat × Nat) :=
  let pending := closing.will.filter (·.pending)
  if (closing.sessionExpiryInterval ≠ uint32Max ∨ pending.isSome) ∧ now = 0 then .error .eio
  else
    let expiryAt :=
      if closing.sessionExpiryInterval = uint32Max then 0 else saturatingAdd now closing.sessionExpiryInterval.toNat
    match pending with
    | none => .ok (expiryAt, 0)
    | some will =>
      let willAt := saturatingAdd now (effectiveDelay closing will)
      .ok (expiryAt, if expiryAt ≠ 0 ∧ willAt > expiryAt then expiryAt else willAt)

variable (session : ClientSession)

/-- The expiry timer of a closed session: `flowie_session_expiry_arm`, or at once for an interval of zero. -/
def ClientSession.armExpiry (answer : ReleaseAnswer) : ClientSession × Except Errno Unit :=
  if session.owner.sessionExpiryInterval = 0 then
    ({ session with
        expiryDeadline := max 1 answer.hrtime
        expiryGeneration := session.owner.sessionGeneration }, .ok ())
  else if session.owner.sessionExpiryInterval = uint32Max then (session, .ok ())
  else if answer.expiryNow = 0 then (session, .error .eio)
  else
    ({ session with
        expiryDeadline := saturatingAdd answer.hrtime (session.owner.sessionExpiryInterval.toNat * nanosecondsPerSecond)
        expiryAt := if session.expiryAt = 0 then saturatingAdd answer.expiryNow session.owner.sessionExpiryInterval.toNat else session.expiryAt
        expiryGeneration := session.owner.sessionGeneration }, answer.expiryScheduled)

/-- `flowie_session_will_arm`. -/
def ClientSession.armWill (will : Will) (answer : ReleaseAnswer) :
    ClientSession × Except Errno Unit :=
  if answer.willNow = 0 then (session, .error .eio)
  else
    let willAt :=
      if session.willAt = 0 then saturatingAdd answer.willNow (effectiveDelay session.owner will) else session.willAt
    let duration := min ((willAt - answer.willNow) * nanosecondsPerSecond) uint64Max.toNat
    ({ session with
        willAt := willAt
        willDeadline := max 1 (saturatingAdd answer.hrtime duration)
        willGeneration := session.owner.sessionGeneration }, answer.willScheduled)

def ClientSession.armTimers (answer : ReleaseAnswer) : ClientSession :=
  match session.armExpiry answer with
  | (session, .error _) => session
  | (session, .ok _) =>
    match session.owner.will.filter (·.pending) with
    | none => session
    | some will => (session.armWill will answer).1

/-- `flowie_session_close_schedule`; no session is left when it ends with its connection. -/
def ClientSession.closeSchedule (config : WillConfig) (session : ClientSession) (answer : ReleaseAnswer) :
    Option ClientSession :=
  match if config.persistenceEnabled then ownerClone session.owner else some session.owner with
  | none => some session
  | some closing =>
    match ownerClose closing with
    | .error _ => some session
    | .ok closing =>
      -- without persistence the session has the closed owner whatever follows
      let inPlace := if config.persistenceEnabled then session else { session with owner := closing }
      if closing.sessionExpiryInterval = 0 ∧ closing.will.filter (·.pending) = none then
        match if config.persistenceEnabled then answer.deleted else .ok () with
        | .error _ => some inPlace
        | .ok _ => none
      else
        match closeTimes closing answer.now with
        | .error _ => some inPlace
        | .ok (expiryAt, willAt) =>
          match if config.persistenceEnabled then answer.saved else .ok () with
          | .error _ => some session
          | .ok _ =>
            some (ClientSession.armTimers { session with owner := closing, expiryAt := expiryAt, willAt := willAt } answer)

/-- The session part of `flowie_net_connection_release`. -/
def ClientSession.release (config : WillConfig) (session : ClientSession) (connection : Nat) (sessionTakeover : Bool)
    (answer : ReleaseAnswer) : Option ClientSession :=
  if session.connection ≠ some connection then some session
  else
    let session := { session with connection := none }
    if sessionTakeover then some session else session.closeSchedule config answer

section

variable [Vstr]

def propertyBytesNext (bytes : Bytes) : Except ParseError ((Property × Bytes) × Bytes) :=
  match propertyIteratorNext bytes with
  | .error e => .error e
  | .ok (property, rest) => .ok ((property, bytes.take (bytes.length - rest.length)), rest)

/-- `flowie_will_publish_properties`: all properties but the delay. -/
def willPublishProperties (values : Bytes) : Except Errno Bytes :=
  let read := Reader.all .malformed propertyBytesNext values
  if read.2 ≠ .needMore then .error .eproto
  else .ok ((read.1.filter (·.1.identifier != .willDelayInterval)).flatMap Prod.snd)

variable (config : WillConfig)

def willPacket (version : Version) (will : Will) : Except Errno Bytes :=
  match willPublishProperties will.properties with
  | .error e => .error e
  | .ok properties =>
    let capacity := 16 + will.topic.length + will.payload.length + properties.length
    if capacity > sizeMax then .error .erange
    else if capacity > config.maxPacketSize then .error .emsgsize
    else
      match publishPacketEncode
        ⟨version, will.qos, will.retain, false, if will.qos = 0 then 0 else 1, will.topic, properties, will.payload⟩
        capacity with
      | .error _ => .error .eproto
      | .ok packet => .ok packet

variable (session : ClientSession) (answer : TickAnswer)

/-- `flowie_session_will_publish`: the session, the PUBLISH when it was dispatched, and the result. -/
def ClientSession.willPublish :
    ClientSession × Option Bytes × Except Errno Unit :=
  match if session.owner.active then none else session.owner.will.filter (·.pending) with
  | none => (session, none, .error .enoent)
  | some will =>
    match willPacket config session.owner.version will with
    | .error e => (session, none, .error e)
    | .ok packet =>
      match answer.dispatched with
      | .error e => (session, none, .error e)
      | .ok _ =>
        match staged config.persistenceEnabled session.owner (fun owner => (ownerWillComplete owner).map (·, ()))
          (fun _ => true) answer.saved with
        | .error e => (session, some packet, .error e)
        | .ok (owner, _) => ({ session.willReset with owner := owner, willAt := 0 }, some packet, .ok ())

/-- The Will timer of a pass of the expiry task. -/
def ClientSession.tickWill :
    ClientSession × Option Bytes :=
  if session.willDeadline = 0 ∨ session.willDeadline > answer.hrtime then (session, none)
  else
    match session.willPublish config answer with
    | (session, dispatched, .ok _) => (session, dispatched)
    | (session, dispatched, .error e) =>
      if e = .enoent then (session.willReset, dispatched)
      else ({ session with willDeadline := saturatingAdd answer.hrtime nanosecondsPerSecond }, dispatched)

/-- The expiry timer of a pass of the expiry task: a session is only removed when no Will timer is set. -/
def ClientSession.tickExpiry :
    Option ClientSession :=
  if session.expiryDeadline = 0 ∨ session.expiryDeadline > answer.hrtime ∨ session.willDeadline ≠ 0 then some session
  else
    match if config.persistenceEnabled then answer.deleted else .ok () with
    | .error _ => some { session with expiryDeadline := saturatingAdd answer.hrtime nanosecondsPerSecond }
    | .ok _ => none

/-- A timer was set in another generation of the session. -/
def ClientSession.stale : Bool :=
  (session.expiryDeadline != 0 && session.owner.sessionGeneration != session.expiryGeneration) ||
    (session.willDeadline != 0 && session.owner.sessionGeneration != session.willGeneration)

/-- One pass of `flowie_expiry_task` over the session. -/
def ClientSession.tick :
    Option ClientSession × Option Bytes :=
  if session.owner.active || session.stale then (some session.timersReset, none)
  else
    let (session, dispatched) := session.tickWill config answer
    (session.tickExpiry config answer, dispatched)

/-- The operations that no event of their own stands for. -/
def otherOperation : Op → Bool
  | .connect .. | .close | .disconnect _ | .willComplete => false
  | _ => true

variable (session : Option ClientSession)

/-- The session of the client after an event, and the PUBLISH of its Will when it was dispatched. -/
def willStep (event : WillEvent) :
    Option ClientSession × Option Bytes :=
  match session, event with
  | none, .connect connection view answer sessionConfig => (clientCreate config connection view answer sessionConfig, none)
  | none, _ => (none, none)
  | some session, .connect connection view answer _ => (some (session.connect config connection view answer), none)
  | some session, .disconnect _ view saved =>
    match disconnectOwner config session.owner view saved with
    | .error _ => (some session, none)
    | .ok (owner, _) => (some { session with owner := owner }, none)
  | some session, .release connection sessionTakeover answer =>
    (session.release config connection sessionTakeover answer, none)
  | some session, .tick answer => session.tick config answer
  | some session, .operate op =>
    (some (if otherOperation op then { session with owner := next session.owner op } else session), none)

/-- The CONNECT whose Will the session still holds: its session and its generation. -/
def obligation : Option (UInt64 × UInt64) :=
  session.bind fun session => session.owner.will.map fun _ => (session.owner.config.sessionId, session.owner.sessionGeneration)

def connected : Bool := session.any (·.owner.active)

def WillEvent.now : WillEvent → Nat
  | .connect _ _ answer _ => answer.now.toNat
  | .release _ _ answer => answer.now
  | _ => 0

/-- The session with what was seen of it: when the connection was lost, and whether the Will was dispatched. -/
structure Watched where
  session : Option ClientSession
  closedAt : Nat
  sent : Bool

variable (state : Watched) (event : WillEvent)

def watchedStep : Watched :=
  let after := willStep config state.session event
  { session := after.1
    -- a connection that cannot be bound is closed by the CONNECT itself
    closedAt :=
      if (connected state.session || obligation after.1 != obligation state.session) && !connected after.1 then event.now
      else state.closedAt
    sent := decide (obligation after.1 = obligation state.session) && (state.sent || after.2.isSome) }

/-- The event takes a Will away that was never dispatched. -/
def LosesWill : Prop :=
  obligation state.session ≠ none ∧ obligation (willStep config state.session event).1 ≠ obligation state.session ∧
    state.sent = false ∧ (willStep config state.session event).2 = none

/-- A Will with a delay is given up by a CONNECT that resumes the session before the delay is over. -/
def ResumesInTime (owner : Owner) (will : Will) (closedAt : Nat) (view : ConnectView) (answer : ConnectAnswer) : Prop :=
  view.cleanStart = false ∧ effectiveDelay owner will ≠ 0 ∧
    (owner.active = true ∨ answer.now.toNat < closedAt + effectiveDelay owner will)

/-- A DISCONNECT of the connection that ends it normally; before MQTT 5 every one does. -/
def EndsNormally (session : ClientSession) (connection : Nat) (view : ControlView) : Prop :=
  session.connection = some connection ∧ (view.version ≠ .v5 ∨ view.reasonCode = 0)

/-- The causes for which a Will need not be published. -/
def Excused : Prop :=
  ∃ session will, state.session = some session ∧ session.owner.will = some will ∧
    match event with
    | .connect _ view answer _ => ResumesInTime session.owner will state.closedAt view answer
    | .disconnect connection view _ => EndsNormally session connection view
    | _ => False

variable (session : ClientSession)

/-- A pass of the expiry task is over without the PUBLISH of the Will and without a timer for it: no timer was set,
    or the application answered the PUBLISH with `ENOENT`. -/
def SkipsWill (will : Will) (answer : TickAnswer) : Prop :=
  session.willDeadline = 0 ∨
    session.willDeadline ≤ answer.hrtime ∧ answer.dispatched = .error .enoent ∧
      ∃ packet, willPacket config session.owner.version will = .ok packet

/-- What a packet of the client must be for the Will that is owed to stay owed: a CONNECT that takes effect resumes the
    session in time, a DISCONNECT that is accepted ends the connection normally or asks for the Will. -/
def PacketObserves (will : Will) (closedAt : Nat) : WillEvent → Prop
  | .connect connection view answer _ =>
    (connectOwner config.persistenceEnabled session.owner view (session.connection.any (· != connection)) answer).1 =
        session.owner ∨ ResumesInTime session.owner will closedAt view answer
  | .disconnect connection view saved =>
    (∃ e, disconnectOwner config session.owner view saved = .error e) ∨ view.reasonCode = 0x04 ∨
      EndsNormally session connection view
  | _ => True

/-- The expiry task does not skip the Will of a session that it removes. -/
def TaskObserves (will : Will) : WillEvent → Prop
  | .tick answer =>
    session.owner.active = true ∨ session.stale = true ∨ session.expiryDeadline = 0 ∨
      session.expiryDeadline > answer.hrtime ∨ (config.persistenceEnabled = true ∧ ∃ e, answer.deleted = .error e) ∨
      ¬SkipsWill config session will answer
  | _ => True

/-- A condition on the session and the Will that is still to be dispatched. -/
def WhileOwed (holds : ClientSession → Will → Prop) : Prop :=
  ∀ session will, state.session = some session → session.owner.will = some will → state.sent = false → holds session will

def PacketsObserve : Prop :=
  WhileOwed state fun session will => PacketObserves config session will state.closedAt event

/-- What the inputs of an event must be for the Will that is owed to stay owed. -/
def Observes : Prop :=
  WhileOwed state fun session will =>
    PacketObserves config session will state.closedAt event ∧ TaskObserves config session will event

open ClientSession

/-- What the operations on a session other than CONNECT, DISCONNECT, close and the end of the Will leave. -/
structure SameWill (owner owner' : Owner) : Prop where
  will : owner'.will = owner.will
  generation : owner'.sessionGeneration = owner.sessionGeneration
  config : owner'.config = owner.config
  active : owner'.active = owner.active

variable {owner owner' : Owner}

theorem sameWill_of_transition {op : Op} {reply : Reply} (h : Transition owner op owner' reply) (hop : otherOperation op = true) :
    SameWill owner owner' := by
  cases h with
  | opened => cases hop
  | closed => cases hop
  | disconnected => cases hop
  | willCompleted => cases hop
  | _ => exact ⟨rfl, rfl, rfl, rfl⟩

omit [Vstr] in
theorem sameWill_of_clone {copy : Owner} (h : ownerClone owner = some copy) : SameWill owner copy := by
  obtain ⟨deliveries, rfl, -⟩ := ownerClone_eq_some h
  exact ⟨rfl, rfl, rfl, rfl⟩

theorem sameWill_of_expireAt {now : UInt64} (h : expireAt owner now = .ok owner') : SameWill owner owner' := by
  unfold expireAt at h
  split_ifs at h
  split at h
  · cases h
  rename_i o count hexpr
  cases h
  exact sameWill_of_transition (deliveryExpire_transition hexpr) rfl

variable {persistence : Bool}

omit [Vstr] in
/-- The owner an operation is made on: the session's own, or a copy of it with persistence. -/
theorem sameWill_of_staging {staged : Owner} (h : (if persistence then ownerClone owner else some owner) = some staged) :
    SameWill owner staged := by
  split at h
  · exact sameWill_of_clone h
  · cases h
    exact ⟨rfl, rfl, rfl, rfl⟩

variable {view : ConnectView}

/-- A CONNECT that has any effect opens a new generation of the session. -/
theorem connectOwner_cases {takeover : Bool} (answer : ConnectAnswer) :
    ((connectOwner persistence owner view takeover answer).1 = owner ∧
        ∀ decision, (connectOwner persistence owner view takeover answer).2 = .ok decision → decision.accepted = false) ∨
      owner.sessionGeneration ≠ uint64Max ∧
        (connectOwner persistence owner view takeover answer).1.sessionGeneration = owner.sessionGeneration + 1 ∧
        (connectOwner persistence owner view takeover answer).1.active = true := by
  have href : ∀ e : Errno, ((owner, .error e) : Owner × Except Errno ConnectResult).1 = owner ∧
      ∀ decision, ((owner, .error e) : Owner × Except Errno ConnectResult).2 = .ok decision →
        decision.accepted = false := by
    intro e
    refine ⟨rfl, ?_⟩
    rintro decision ⟨⟩
  unfold connectOwner
  cases hstg : (if persistence then ownerClone owner else some owner) with
  | none => exact .inl (href .enomem)
  | some staged =>
    have hsame := sameWill_of_staging hstg
    dsimp only
    cases hconn : ownerConnect staged view takeover with
    | error e => exact .inl (href e)
    | ok result =>
      obtain ⟨opened, decision⟩ := result
      dsimp only
      rcases ownerConnect_eq_ok hconn with ⟨hacc, -, expiry, will, hchk, -, -, rfl⟩ | ⟨hno, rfl⟩
      · rw [if_neg (by simp [hacc])]
        have hopened : owner.sessionGeneration ≠ uint64Max ∧
            (Session.opened staged view expiry will).sessionGeneration = owner.sessionGeneration + 1 ∧
            (Session.opened staged view expiry will).active = true := by
          refine ⟨?_, congrArg (· + 1) hsame.generation, rfl⟩
          rw [← hsame.generation]
          exact (openable_of_openCheck hchk).sessionGeneration
        cases hexpr : expireAt (Session.opened staged view expiry will) answer.now with
        | error e =>
          dsimp only
          split
          · exact .inl (href e)
          · exact .inr hopened
        | ok expired =>
          have hsame' := sameWill_of_expireAt hexpr
          dsimp only
          split
          · exact .inl (href _)
          · exact .inr ⟨hopened.1, hsame'.generation.trans hopened.2.1, hsame'.active.trans hopened.2.2⟩
      · rw [if_pos (by simp [hno])]
        refine .inl ⟨rfl, ?_⟩
        rintro d ⟨⟩
        exact hno

omit [Vstr] in
/-- A close keeps the Will and arms it. -/
theorem ownerClose_will (h : ownerClose owner = .ok owner') :
    owner'.active = false ∧ owner'.will = owner.will.map Will.armed ∧
      owner'.sessionGeneration = owner.sessionGeneration ∧ owner'.config = owner.config := by
  obtain ⟨-, -, rfl⟩ := ownerClose_eq_ok h
  unfold Session.closed
  split <;> exact ⟨rfl, rfl, rfl, rfl⟩

/-- An accepted DISCONNECT takes the Will away unless its reason is 0x04. -/
theorem ownerDisconnect_will {view : ControlView} (h : ownerDisconnect owner view = .ok owner') :
    owner'.will = (if view.reasonCode = 0x04 then owner.will else none) ∧
      owner'.sessionGeneration = owner.sessionGeneration ∧ owner'.config = owner.config ∧ owner'.active = owner.active ∧
      (owner'.resourceGeneration = owner.resourceGeneration → owner' = owner) := by
  obtain ⟨htrans, hwill⟩ := ownerDisconnect_eq_ok h
  refine ⟨hwill, ?_⟩
  cases htrans with
  | unchanged => exact ⟨rfl, rfl, rfl, fun _ => rfl⟩
  | removed _ _ _ _ _ _ _ _ hop => cases hop
  | _ => exact ⟨rfl, rfl, rfl, fun heq => absurd heq (by simp [Owner.advanced])⟩

variable {config : WillConfig} {saved : Except Errno Unit}

/-- What a DISCONNECT that is accepted leaves of the Will, also with persistence. -/
theorem disconnectOwner_will {view : ControlView} {changed : Bool}
    (h : disconnectOwner config owner view saved = .ok (owner', changed)) :
    owner'.will = (if view.reasonCode = 0x04 then owner.will else none) ∧
      owner'.sessionGeneration = owner.sessionGeneration ∧ owner'.config = owner.config ∧ owner'.active = owner.active := by
  rcases staged_eq_ok h with hplc | ⟨copy, after, hclo, hcopy, rfl⟩
  · obtain ⟨after, hdisc, hres⟩ := except_map_eq_ok hplc
    cases hres
    obtain ⟨hwill, hgen, hcfg, hact, -⟩ := ownerDisconnect_will hdisc
    exact ⟨hwill, hgen, hcfg, hact⟩
  · have hsame := sameWill_of_clone hclo
    obtain ⟨_, hdisc, hres⟩ := except_map_eq_ok hcopy
    cases hres
    obtain ⟨hwill, hgen, hcfg, hact, hunchanged⟩ := ownerDisconnect_will hdisc
    rw [hsame.will] at hwill
    split
    · exact ⟨hwill, hgen.trans hsame.generation, hcfg.trans hsame.config, hact.trans hsame.active⟩
    rename_i hstay
    -- nothing was stored, so the copy was not changed
    rw [hunchanged (by simpa using hstay), hsame.will] at hwill
    exact ⟨hwill, rfl, rfl, rfl⟩

def WillArmed (owner : Owner) : Prop := owner.active = false → ∀ will, owner.will = some will → will.pending = true

/-- The Will of one owner is still that of another. -/
structure Owes (owner owner' : Owner) : Prop where
  will : owner'.will.isSome = owner.will.isSome
  generation : owner'.sessionGeneration = owner.sessionGeneration
  config : owner'.config = owner.config
  armed : WillArmed owner → WillArmed owner'

omit [Vstr] in
theorem SameWill.owes (h : SameWill owner owner') : Owes owner owner' := by
  refine ⟨by rw [h.will], h.generation, h.config, fun harmed hidle will hwill => ?_⟩
  rw [h.active] at hidle
  rw [h.will] at hwill
  exact harmed hidle will hwill

omit [Vstr] in
theorem owes_of_close {staging closing : Owner} (hsame : SameWill owner staging) (hcl : ownerClose staging = .ok closing) :
    Owes owner closing := by
  obtain ⟨-, hwill, hgen, hcfg⟩ := ownerClose_will hcl
  rw [hsame.will] at hwill
  refine ⟨by rw [hwill, isSome_map], hgen.trans hsame.generation, hcfg.trans hsame.config, ?_⟩
  intro _ _ will hsome
  rw [hwill, map_eq_some_iff] at hsome
  obtain ⟨_, -, rfl⟩ := hsome
  rfl

variable {session after : ClientSession}

section

omit [Vstr]

theorem obligation_of_owes (h : Owes session.owner after.owner) : obligation (some after) = obligation (some session) := by
  show after.owner.will.map _ = session.owner.will.map _
  rw [h.generation, h.config]
  cases hwill : session.owner.will with
  | none =>
    have hnone : after.owner.will = none := by simpa [hwill] using h.will
    rw [hnone]
  | some will =>
    obtain ⟨other, hoth⟩ := Option.isSome_iff_exists.1 (show after.owner.will.isSome = true by rw [h.will, hwill]; rfl)
    rw [hoth]
    rfl

/-- The owner is kept, and the expiry timer is the one there was or belongs to the generation of the owner. -/
structure ClientSession.Rearmed (session after : ClientSession) : Prop where
  owner : after.owner = session.owner
  timer : after.expiryDeadline = session.expiryDeadline ∧ after.expiryGeneration = session.expiryGeneration ∨
    after.expiryGeneration = session.owner.sessionGeneration

variable (session : ClientSession) (answer : ReleaseAnswer)

theorem armExpiry_rearmed : session.Rearmed (session.armExpiry answer).1 := by
  unfold armExpiry
  split
  · exact ⟨rfl, .inr rfl⟩
  split
  · exact ⟨rfl, .inl ⟨rfl, rfl⟩⟩
  split
  · exact ⟨rfl, .inl ⟨rfl, rfl⟩⟩
  · exact ⟨rfl, .inr rfl⟩

theorem armTimers_rearmed : session.Rearmed (session.armTimers answer) := by
  have hexp := armExpiry_rearmed session answer
  unfold armTimers
  split
  · rename_i after e harm
    rw [harm] at hexp
    exact hexp
  · rename_i after u harm
    rw [harm] at hexp
    split
    · exact hexp
    · unfold armWill
      split
      · exact hexp
      · exact ⟨hexp.owner, hexp.timer⟩

end

/-- What becomes of a session when its connection is lost. -/
inductive Closes (session : ClientSession) (answer : ReleaseAnswer) : Option ClientSession → Prop
  | failed : Closes session answer (some session)
  | ended (staging closing : Owner) (hsame : SameWill session.owner staging) (hcl : ownerClose staging = .ok closing)
      (hnone : closing.will.filter (·.pending) = none) : Closes session answer none
  | closed (staging closing : Owner) (hsame : SameWill session.owner staging) (hcl : ownerClose staging = .ok closing) :
      Closes session answer (some { session with owner := closing })
  | scheduled (staging closing : Owner) (expiryAt willAt : Nat) (hsame : SameWill session.owner staging)
      (hcl : ownerClose staging = .ok closing) :
      Closes session answer
        (some (armTimers { session with owner := closing, expiryAt := expiryAt, willAt := willAt } answer))

omit [Vstr] in
theorem closeSchedule_closes (answer : ReleaseAnswer) : Closes session answer (session.closeSchedule config answer) := by
  unfold closeSchedule
  cases hstaging : (if config.persistenceEnabled then ownerClone session.owner else some session.owner) with
  | none => exact .failed
  | some staging =>
    have hsame := sameWill_of_staging hstaging
    dsimp only
    cases hcl : ownerClose staging with
    | error e => exact .failed
    | ok closing =>
      dsimp only
      -- a failure leaves the session as it was with persistence, and with the closed owner without
      have hinPlace : Closes session answer
          (some (if config.persistenceEnabled then session else { session with owner := closing })) := by
        split
        · exact .failed
        · exact .closed staging closing hsame hcl
      split
      · rename_i hends
        split
        · exact hinPlace
        · exact .ended staging closing hsame hcl hends.2
      · split
        · exact hinPlace
        rename_i expiryAt willAt htimes
        split
        · exact .failed
        · exact .scheduled staging closing expiryAt willAt hsame hcl

variable {answer : ReleaseAnswer}

omit [Vstr] in
/-- The loss of a connection takes no Will away. -/
theorem Closes.owes {after : Option ClientSession} (h : Closes session answer after) (hwill : session.owner.will.isSome = true) :
    ∃ session', after = some session' ∧ Owes session.owner session'.owner := by
  cases h with
  | failed => exact ⟨session, rfl, ⟨rfl, rfl, rfl, id⟩⟩
  | ended staging closing hsame hcl hnone =>
    obtain ⟨-, hclosing, -⟩ := ownerClose_will hcl
    obtain ⟨will, hsome⟩ := Option.isSome_iff_exists.1 hwill
    rw [hclosing, hsame.will, hsome] at hnone
    cases hnone
  | closed staging closing hsame hcl => exact ⟨_, rfl, owes_of_close hsame hcl⟩
  | scheduled staging closing expiryAt willAt hsame hcl =>
    refine ⟨_, rfl, ?_⟩
    rw [(armTimers_rearmed _ answer).owner]
    exact owes_of_close hsame hcl

variable {sessionTakeover : Bool}

omit [Vstr] in
theorem release_closes {connection : Nat} :
    session.release config connection sessionTakeover answer = some session ∨
      session.release config connection sessionTakeover answer = some { session with connection := none } ∨
      Closes { session with connection := none } answer (session.release config connection sessionTakeover answer) := by
  unfold release
  split
  · exact .inl rfl
  split
  · exact .inr (.inl rfl)
  · exact .inr (.inr (closeSchedule_closes answer))

variable {connection : Nat}

/-- A CONNECT that is not accepted leaves the session as it was. -/
theorem connect_of_unchanged {answer : ConnectAnswer}
    (hsame : (connectOwner config.persistenceEnabled session.owner view (session.connection.any (· != connection))
      answer).1 = session.owner) (hno : ∀ decision, (connectOwner config.persistenceEnabled session.owner view
      (session.connection.any (· != connection)) answer).2 = .ok decision → decision.accepted = false) :
    session.connect config connection view answer = session := by
  unfold connect
  dsimp only
  rw [hsame]
  split
  · rfl
  · rename_i decision hdecision
    rw [if_pos (by simp [hno decision hdecision])]

omit [Vstr] in
theorem closeIgnored_generation : (closeIgnored owner).sessionGeneration = owner.sessionGeneration := by
  unfold closeIgnored
  split
  · rename_i closed hcl
    exact (ownerClose_will hcl).2.2.1
  · rfl

omit [Vstr] in
theorem bind_generation (bound : Except Errno Unit) :
    (session.bind connection bound).owner.sessionGeneration = session.owner.sessionGeneration := by
  unfold ClientSession.bind
  split
  · exact closeIgnored_generation
  · rfl

theorem connect_generation (answer : ConnectAnswer) :
    (session.connect config connection view answer).owner.sessionGeneration =
      (connectOwner config.persistenceEnabled session.owner view (session.connection.any (· != connection))
        answer).1.sessionGeneration := by
  unfold connect
  dsimp only
  split
  · rfl
  split
  · rfl
  split
  · split <;> rfl
  · rw [bind_generation]
    split <;> rfl

omit [Vstr] in
/-- The published Will is taken away once the application has it. -/
theorem willComplete_owner {u : Unit}
    (h : staged persistence owner (fun owner => (ownerWillComplete owner).map (·, ())) (fun _ => true) saved = .ok (owner', u)) :
    owner'.will = none ∧ owner'.sessionGeneration = owner.sessionGeneration ∧ owner'.active = owner.active := by
  rcases staged_eq_ok h with hplc | ⟨copy, after, hclo, hcopy, rfl⟩
  · obtain ⟨after, hok, hres⟩ := except_map_eq_ok hplc
    cases hres
    rw [(ownerWillComplete_eq_ok hok).2]
    exact ⟨rfl, rfl, rfl⟩
  · have hsame := sameWill_of_clone hclo
    obtain ⟨after, hok, hres⟩ := except_map_eq_ok hcopy
    cases hres
    rw [(ownerWillComplete_eq_ok hok).2]
    exact ⟨rfl, hsame.generation, hsame.active⟩

variable {will : Will}

theorem willPacket_ne_enoent {version : Version} {e : Errno} (h : willPacket config version will = .error e) : e ≠ .enoent := by
  unfold willPacket at h
  split at h
  · rename_i e' hprp
    cases h
    unfold willPublishProperties at hprp
    dsimp only at hprp
    split at hprp
    · cases hprp
      decide
    · cases hprp
  · dsimp only at h
    split at h
    · cases h
      decide
    split at h
    · cases h
      decide
    split at h
    · cases h
      decide
    · cases h

inductive TicksWill (config : WillConfig) (session : ClientSession) (answer : TickAnswer) :
    ClientSession × Option Bytes → Prop
  | waiting (htimer : session.willDeadline = 0 ∨ session.willDeadline > answer.hrtime) :
      TicksWill config session answer (session, none)
  | published (packet : Bytes) (owner : Owner) (hset : session.willDeadline ≠ 0) (hdisp : answer.dispatched = .ok ())
      (hwill : owner.will = none)
      (hgn : owner.sessionGeneration = session.owner.sessionGeneration)
      (hact : owner.active = session.owner.active) :
      TicksWill config session answer ({ session.willReset with owner := owner, willAt := 0 }, some packet)
  | nothing (hnone : session.owner.active = true ∨ session.owner.will.filter (·.pending) = none) :
      TicksWill config session answer (session.willReset, none)
  | forgotten (will : Will) (packet : Bytes) (hwill : session.owner.will = some will)
      (hdue : session.willDeadline ≤ answer.hrtime) (hpkt : willPacket config session.owner.version will = .ok packet)
      (hdisp : answer.dispatched = .error .enoent) : TicksWill config session answer (session.willReset, none)
  | unsaved (packet : Bytes) (hset : session.willDeadline ≠ 0) (hdisp : answer.dispatched = .ok ())
      (hsaved : answer.saved = .error .enoent) :
      TicksWill config session answer (session.willReset, some packet)
  | retried (dispatched : Option Bytes) (hset : session.willDeadline ≠ 0)
      (hdisp : answer.dispatched = .error .enoent →
        ∀ will, session.owner.will = some will → ∀ packet, willPacket config session.owner.version will ≠ .ok packet) :
      TicksWill config session answer
        ({ session with willDeadline := saturatingAdd answer.hrtime nanosecondsPerSecond }, dispatched)

omit [Vstr] in
/-- With a Will that is pending, only the store can answer its removal with `ENOENT`. -/
theorem willComplete_enoent (hwill : owner.will = some will) (hpend : will.pending = true)
    (h : staged persistence owner (fun owner => (ownerWillComplete owner).map (·, ())) (fun _ => true) saved = .error .enoent) :
    saved = .error .enoent := by
  have hcpl : ∀ {owner : Owner} {e}, owner.will = some will →
      (ownerWillComplete owner).map (·, ()) = .error e → e = .erange := by
    intro owner e hwill h
    unfold ownerWillComplete at h
    rw [if_neg (by simp [hwill, hpend])] at h
    split at h
    · cases h
      rfl
    · cases h
  unfold staged at h
  split at h
  · cases hcpl hwill h
  split at h
  · cases h
  rename_i copy hclo
  have hsame := sameWill_of_clone hclo
  split at h
  · rename_i e hfailed
    cases h
    cases hcpl (hsame.will.trans hwill) hfailed
  · split_ifs at h
    split at h
    · rename_i e
      cases h
      rfl
    · cases h

theorem tickWill_ticks (config : WillConfig) (session : ClientSession) (answer : TickAnswer) :
    TicksWill config session answer (session.tickWill config answer) := by
  unfold tickWill
  split
  · rename_i htimer
    exact .waiting htimer
  rename_i htimer
  rw [not_or] at htimer
  obtain ⟨hset, hdue⟩ := htimer
  have hdue : session.willDeadline ≤ answer.hrtime := Nat.le_of_not_lt hdue
  unfold willPublish
  cases hpend : (if session.owner.active then none else session.owner.will.filter (·.pending)) with
  | none =>
    refine .nothing ?_
    split at hpend
    · exact .inl ‹_›
    · exact .inr hpend
  | some will =>
    have hwill : session.owner.will = some will ∧ will.pending = true := by
      split_ifs at hpend
      · exact Option.filter_eq_some_iff.1 hpend
    dsimp only
    cases hpkt : willPacket config session.owner.version will with
    | error e =>
      dsimp only
      rw [if_neg (willPacket_ne_enoent hpkt)]
      refine .retried none hset fun _ other hoth packet hok => ?_
      rw [hwill.1] at hoth
      cases hoth
      rw [hpkt] at hok
      cases hok
    | ok packet =>
      cases hdisp : answer.dispatched with
      | error e =>
        dsimp only
        split
        · rename_i he
          rw [he] at hdisp
          exact .forgotten will packet hwill.1 hdue hpkt hdisp
        · rename_i he
          refine .retried none hset fun hen => ?_
          rw [hdisp] at hen
          cases hen
          exact absurd rfl he
      | ok _ =>
        cases hcpl : staged config.persistenceEnabled session.owner
          (fun owner => (ownerWillComplete owner).map (·, ())) (fun _ => true) answer.saved with
        | error e =>
          dsimp only
          split
          · rename_i he
            rw [he] at hcpl
            exact .unsaved packet hset hdisp (willComplete_enoent hwill.1 hwill.2 hcpl)
          · exact .retried (some packet) hset fun hen => by rw [hdisp] at hen; cases hen
        | ok result =>
          obtain ⟨owner, u⟩ := result
          obtain ⟨hnone, hgn, hact⟩ := willComplete_owner hcpl
          exact .published packet owner hset hdisp hnone hgn hact

omit [Vstr] in
theorem saturatingAdd_second_ne_zero (time : Nat) : saturatingAdd time nanosecondsPerSecond ≠ 0 := by
  have hpos : 0 < nanosecondsPerSecond ∧ 0 < uint64Max.toNat := by decide
  unfold saturatingAdd
  omega

/-- The expiry timer does not remove the session: it is not due, a Will timer is set, or the store refuses. -/
def Stays (config : WillConfig) (session : ClientSession) (answer : TickAnswer) : Prop :=
  session.expiryDeadline = 0 ∨ session.expiryDeadline > answer.hrtime ∨
    (config.persistenceEnabled = true ∧ ∃ e, answer.deleted = .error e) ∨ session.willDeadline ≠ 0

omit [Vstr] in
theorem tickExpiry_cases (config : WillConfig) (session : ClientSession) (answer : TickAnswer) :
    (Stays config session answer ∧
      ∃ deadline, session.tickExpiry config answer = some { session with expiryDeadline := deadline } ∧
        (session.expiryDeadline = 0 → deadline = 0)) ∨
      ¬Stays config session answer ∧ session.tickExpiry config answer = none := by
  unfold tickExpiry Stays
  by_cases hstays : session.expiryDeadline = 0 ∨ session.expiryDeadline > answer.hrtime ∨ session.willDeadline ≠ 0
  · rw [if_pos hstays]
    exact .inl ⟨by tauto, session.expiryDeadline, rfl, id⟩
  rw [if_neg hstays]
  rw [not_or, not_or] at hstays
  cases hdeleted : (if config.persistenceEnabled then answer.deleted else .ok ()) with
  | error e =>
    have hfails : config.persistenceEnabled = true ∧ ∃ e, answer.deleted = .error e := by
      split at hdeleted
      · exact ⟨‹_›, e, hdeleted⟩
      · cases hdeleted
    exact .inl ⟨.inr (.inr (.inl hfails)), _, rfl, fun hzero => absurd hzero hstays.1⟩
  | ok _ =>
    refine .inr ⟨?_, rfl⟩
    rintro (h | h | ⟨hpersistent, e, hfailed⟩ | h)
    · exact hstays.1 h
    · exact hstays.2.1 h
    · rw [if_pos hpersistent, hfailed] at hdeleted
      cases hdeleted
    · exact hstays.2.2 h

omit [Vstr] in
/-- After a Will timer that has left the owner alone, the Will is gone exactly when the session is removed. -/
theorem tickExpiry_loses_iff {answer : TickAnswer} (hwill : session.owner.will = some will) (hown : after.owner = session.owner) :
    obligation (after.tickExpiry config answer) ≠ obligation (some session) ↔ ¬Stays config after answer := by
  rcases tickExpiry_cases config after answer with ⟨hstays, deadline, hleft, -⟩ | ⟨hrm, hnone⟩
  · rw [hleft]
    refine iff_of_false (fun hne => hne ?_) (not_not.2 hstays)
    exact obligation_of_owes (show Owes session.owner after.owner by rw [hown]; exact ⟨rfl, rfl, rfl, id⟩)
  · rw [hnone]
    refine iff_of_true ?_ hrm
    show none ≠ session.owner.will.map _
    rw [hwill]
    exact (Option.some_ne_none _).symm

/-- A pass of the expiry task takes a Will away without its PUBLISH exactly when it skips the Will of a session
    that it removes. -/
theorem tick_loses_iff {answer : TickAnswer} (hwill : session.owner.will = some will) (harmed : WillArmed session.owner) :
    (obligation (session.tick config answer).1 ≠ obligation (some session) ∧ (session.tick config answer).2 = none) ↔
      ¬TaskObserves config session will (.tick answer) := by
  unfold tick
  by_cases hreset : (session.owner.active || session.stale) = true
  · rw [if_pos hreset]
    refine iff_of_false (fun h => h.1 rfl) (not_not.2 ?_)
    rcases Bool.or_eq_true_iff.1 hreset with h | h
    · exact .inl h
    · exact .inr (.inl h)
  · rw [if_neg hreset]
    simp only [Bool.or_eq_true, not_or, Bool.not_eq_true] at hreset
    obtain ⟨hidle, hfr⟩ := hreset
    -- with the Will skipped the session is removed as the expiry timer says, and otherwise it stays
    have hskipped : ∀ after : ClientSession, after.owner = session.owner →
        after.expiryDeadline = session.expiryDeadline → after.willDeadline = 0 → SkipsWill config session will answer →
        ((obligation (after.tickExpiry config answer) ≠ obligation (some session) ∧ (none : Option Bytes) = none) ↔
          ¬TaskObserves config session will (.tick answer)) := by
      intro after hown hdln htimer hskips
      rw [and_iff_left rfl, tickExpiry_loses_iff hwill hown]
      unfold Stays TaskObserves
      rw [hdln, htimer, hidle, hfr]
      simp [hskips]
    have hkept : ∀ lost : Prop, ¬lost → ¬SkipsWill config session will answer →
        (lost ↔ ¬TaskObserves config session will (.tick answer)) :=
      fun lost hlost hskips => iff_of_false hlost (not_not.2 (.inr (.inr (.inr (.inr (.inr hskips))))))
    -- a Will timer that was set is not skipped when the application has taken the PUBLISH
    have htkn : session.willDeadline ≠ 0 → answer.dispatched = .ok () → ¬SkipsWill config session will answer := by
      rintro hset hdisp (h | ⟨-, h, -⟩)
      · exact hset h
      · rw [hdisp] at h
        cases h
    have hticks := tickWill_ticks config session answer
    revert hticks
    generalize session.tickWill config answer = result
    intro hticks
    cases hticks with
    | waiting htimer =>
      by_cases hzero : session.willDeadline = 0
      · exact hskipped session rfl rfl hzero (.inl hzero)
      have hlate := htimer.resolve_left hzero
      refine hkept _ (fun h => ?_) (fun h => ?_)
      · exact (tickExpiry_loses_iff hwill rfl).1 h.1 (.inr (.inr (.inr hzero)))
      rcases h with h | h
      · exact hzero h
      · exact absurd h.1 (Nat.not_le_of_lt hlate)
    | published packet owner hset hdisp => exact hkept _ (fun h => nomatch h.2) (htkn hset hdisp)
    | nothing hnone =>
      rcases hnone with hact | hnone
      · rw [hidle] at hact
        cases hact
      · rw [hwill, filter_some, harmed hidle will hwill] at hnone
        cases hnone
    | forgotten other packet hoth hdue hpkt hdisp =>
      rw [hwill] at hoth
      cases hoth
      exact hskipped session.willReset rfl rfl rfl (.inr ⟨hdue, hdisp, packet, hpkt⟩)
    | unsaved packet hset hdisp => exact hkept _ (fun h => nomatch h.2) (htkn hset hdisp)
    | retried dispatched hset hdisp =>
      have hlat := saturatingAdd_second_ne_zero answer.hrtime
      revert hlat
      generalize saturatingAdd answer.hrtime nanosecondsPerSecond = deadline
      intro hlat
      refine hkept _ (fun h => ?_) ?_
      · have hlost : obligation (tickExpiry config { session with willDeadline := deadline } answer) ≠ _ := h.1
        exact (tickExpiry_loses_iff hwill (by rfl)).1 hlost (.inr (.inr (.inr hlat)))
      rintro (h | ⟨-, h, packet, hpkt⟩)
      · exact hset h
      · exact hdisp h will hwill packet hpkt

theorem sameWill_next {op : Op} (hop : otherOperation op = true) : SameWill owner (next owner op) := by
  unfold next
  split
  · rename_i owner' reply hstep
    exact sameWill_of_transition (step_transition hstep) hop
  · exact ⟨rfl, rfl, rfl, rfl⟩

section
variable (hwill : session.owner.will = some will)
include hwill

omit [Vstr] in
/-- Another generation of the session has another Will. -/
theorem obligation_ne_of_generation (hne : after.owner.sessionGeneration ≠ session.owner.sessionGeneration) :
    obligation (some after) ≠ obligation (some session) := by
  intro heq
  have heq : after.owner.will.map (fun _ => (after.owner.config.sessionId, after.owner.sessionGeneration)) =
      session.owner.will.map fun _ => (session.owner.config.sessionId, session.owner.sessionGeneration) := heq
  rw [hwill, Option.map_some, Option.map_eq_some_iff] at heq
  obtain ⟨_, -, hpair⟩ := heq
  exact hne (congrArg Prod.snd hpair)

/-- A CONNECT loses the Will without an excuse unless it has no effect or resumes the session in time. -/
theorem connect_observes (answer : ConnectAnswer) (excuse : Prop) :
    (obligation (some (session.connect config connection view answer)) ≠ obligation (some session) → excuse) ↔
      (connectOwner config.persistenceEnabled session.owner view (session.connection.any (· != connection)) answer).1 =
          session.owner ∨ excuse := by
  rcases connectOwner_cases
    answer with ⟨hsame, hno⟩ | ⟨-, hgn, -⟩
  · rw [connect_of_unchanged hsame hno]
    exact iff_of_true (fun h => absurd rfl h) (.inl hsame)
  · have hlost : obligation (some (session.connect config connection view answer)) ≠ obligation (some session) := by
      refine obligation_ne_of_generation hwill ?_
      rw [connect_generation, hgn]
      simp
    have hchg : (connectOwner config.persistenceEnabled session.owner view
        (session.connection.any (· != connection)) answer).1 ≠ session.owner := by
      intro hsame
      rw [hsame] at hgn
      simp at hgn
    rw [or_iff_right hchg]
    exact ⟨fun h => h hlost, fun h _ => h⟩

/-- A DISCONNECT loses the Will without an excuse unless it is refused or asks for the Will. -/
theorem disconnect_observes (view : ControlView) (excuse : Prop) :
    (obligation (willStep config (some session) (.disconnect connection view saved)).1 ≠ obligation (some session) →
        excuse) ↔
      (∃ e, disconnectOwner config session.owner view saved = .error e) ∨ view.reasonCode = 0x04 ∨ excuse := by
  unfold willStep
  dsimp only
  cases hdisc : disconnectOwner config session.owner view saved with
  | error e => exact iff_of_true (fun h => absurd rfl h) (.inl ⟨e, rfl⟩)
  | ok result =>
    obtain ⟨owner, changed⟩ := result
    obtain ⟨haft, hgn, hcfg, hact⟩ := disconnectOwner_will hdisc
    rw [or_iff_right (by rintro ⟨e, he⟩; cases he)]
    by_cases hrsn : view.reasonCode = 4
    · rw [if_pos hrsn] at haft
      refine iff_of_true (fun h => absurd (obligation_of_owes ?_) h) (.inl hrsn)
      exact SameWill.owes ⟨haft, hgn, hcfg, hact⟩
    · rw [if_neg hrsn] at haft
      have hlost : obligation (some { session with owner := owner }) ≠ obligation (some session) := by
        show owner.will.map _ ≠ session.owner.will.map _
        rw [haft, hwill]
        exact (some_ne_none _).symm
      rw [or_iff_right hrsn]
      exact ⟨fun h => h hlost, fun h _ => h⟩

omit [Vstr] in
theorem release_obligation :
    obligation (session.release config connection sessionTakeover answer) = obligation (some session) := by
  rcases release_closes with h | h | h
  · rw [h]
  · rw [h]
    rfl
  obtain ⟨after, haft, howes⟩ := h.owes (show session.owner.will.isSome = true by rw [hwill]; rfl)
  rw [haft]
  exact obligation_of_owes howes

end

def AllArmed (session : Option ClientSession) : Prop := ∀ s, session = some s → WillArmed s.owner

/-- Whether an event loses a Will without an excuse is decided by its inputs. -/
theorem observes_iff {state : Watched} (harmed : AllArmed state.session) (event : WillEvent) :
    (LosesWill config state event → Excused state event) ↔ Observes config state event := by
  obtain ⟨current, closedAt, sent⟩ := state
  cases current with
  | none =>
    refine iff_of_true (fun h => absurd rfl h.1) ?_
    rintro session will ⟨⟩
  | some session =>
    cases hwill : session.owner.will with
    | none =>
      refine iff_of_true (fun h => absurd (show session.owner.will.map _ = none by rw [hwill]; rfl) h.1) ?_
      rintro _ will ⟨⟩ hsome
      rw [hwill] at hsome
      cases hsome
    | some will =>
      cases sent with
      | true => exact iff_of_true (fun h => by cases h.2.2.1) (fun _ _ _ _ h => by cases h)
      | false =>
        have howed : obligation (some session) ≠ none := by
          show session.owner.will.map _ ≠ none
          rw [hwill]
          exact some_ne_none _
        have hloses : LosesWill config ⟨some session, closedAt, false⟩ event ↔
            obligation (willStep config (some session) event).1 ≠ obligation (some session) ∧
              (willStep config (some session) event).2 = none :=
          ⟨fun h => ⟨h.2.1, h.2.2.2⟩, fun h => ⟨howed, h.1, rfl, h.2⟩⟩
        -- the session and its Will are the ones the conditions speak of
        have hobserves : ∀ holds : ClientSession → Will → Prop,
            (∀ s w, some session = some s → s.owner.will = some w → false = false → holds s w) ↔ holds session will := by
          intro holds
          refine ⟨fun h => h session will rfl hwill rfl, fun h s w hs hw _ => ?_⟩
          cases hs
          rw [hwill] at hw
          cases hw
          exact h
        have hexcused : ∀ holds : ClientSession → Will → Prop,
            (∃ s w, some session = some s ∧ s.owner.will = some w ∧ holds s w) ↔ holds session will := by
          intro holds
          refine ⟨?_, fun h => ⟨session, will, rfl, hwill, h⟩⟩
          rintro ⟨s, w, hs, hw, h⟩
          cases hs
          rw [hwill] at hw
          cases hw
          exact h
        rw [hloses]
        unfold Excused Observes WhileOwed
        rw [hobserves, hexcused]
        cases event with
        | connect connection view answer sessionConfig =>
          refine Iff.trans ?_ (and_iff_left (by exact trivial)).symm
          exact (imp_congr_left (and_iff_left rfl)).trans (connect_observes hwill answer _)
        | disconnect connection view saved =>
          refine Iff.trans ?_ (and_iff_left (by exact trivial)).symm
          refine (imp_congr_left (and_iff_left ?_)).trans (disconnect_observes hwill view _)
          unfold willStep
          dsimp only
          split <;> rfl
        | release connection sessionTakeover answer =>
          exact iff_of_true (fun h => absurd (release_obligation hwill) h.1)
            ⟨trivial, trivial⟩
        | tick answer =>
          refine Iff.trans ?_ (and_iff_right (by exact trivial)).symm
          exact (imp_congr_left (tick_loses_iff hwill (harmed session rfl))).trans (imp_false.trans not_not)
        | operate op =>
          refine iff_of_true (fun h => absurd ?_ h.1) ⟨trivial, trivial⟩
          unfold willStep
          dsimp only
          split
          · rename_i hop
            exact obligation_of_owes (sameWill_next hop).owes
          · rfl

/-- What holds of the session in every run: a Will without connection is armed, and the expiry timer was set in this
    generation of the session or an earlier one, while it is connected in an earlier one. -/
structure ClientSession.Sound (session : ClientSession) : Prop where
  armed : WillArmed session.owner
  older : session.expiryDeadline ≠ 0 → session.expiryGeneration ≤ session.owner.sessionGeneration
  earlier : session.expiryDeadline ≠ 0 → session.owner.active = true →
    session.expiryGeneration < session.owner.sessionGeneration

/-- An expiry timer of this generation comes with a timer for the Will. -/
def ClientSession.Together (session : ClientSession) : Prop :=
  session.owner.active = false → session.owner.will.isSome = true → session.expiryDeadline ≠ 0 →
    session.expiryGeneration = session.owner.sessionGeneration → session.willDeadline ≠ 0

section

omit [Vstr]

/-- A timer of an earlier generation says nothing about this one. -/
theorem ClientSession.Together.of_earlier
    (h : session.expiryDeadline ≠ 0 → session.expiryGeneration < session.owner.sessionGeneration) : session.Together := by
  intro _ _ hset hsame
  have herl := h hset
  rw [hsame] at herl
  exact absurd herl (UInt64.lt_irrefl _)

section
variable (hgn : owner.sessionGeneration = session.owner.sessionGeneration) (hact : owner.active = session.owner.active)
  (hwill : ∀ will, owner.will = some will → session.owner.will = some will)
include hgn hact hwill

/-- Both hold of a session whose owner has changed in nothing but the Will. -/
theorem ClientSession.Sound.of_owner (h : session.Sound) : Sound { session with owner := owner } := by
  refine ⟨fun hidle will hsome => ?_, fun hset => ?_, fun hset hopen => ?_⟩
  · exact h.armed (hact ▸ hidle) will (hwill will hsome)
  · exact hgn ▸ h.older hset
  · exact hgn ▸ h.earlier hset (hact ▸ hopen)

theorem ClientSession.Together.of_owner (h : session.Together) : Together { session with owner := owner } := by
  intro hidle hsome hset hsame
  obtain ⟨will, hwill'⟩ := Option.isSome_iff_exists.1 hsome
  refine h (hact ▸ hidle) ?_ hset (hsame.trans hgn)
  rw [hwill will hwill']
  rfl

end

theorem closeIgnored_armed (hact : owner.active = true) : WillArmed (closeIgnored owner) := by
  unfold closeIgnored
  split
  · rename_i closed hcl
    exact (owes_of_close ⟨rfl, rfl, rfl, rfl⟩ hcl).armed fun hidle => by rw [hact] at hidle; cases hidle
  intro hidle
  rw [hact] at hidle
  cases hidle

end

/-- A session whose owner is one of a new generation, open or closed again, with the old expiry timer or none. -/
structure ClientSession.Renewed (session after : ClientSession) : Prop where
  generation : after.owner.sessionGeneration = session.owner.sessionGeneration + 1
  room : session.owner.sessionGeneration ≠ uint64Max
  armed : WillArmed after.owner
  timer : after.expiryDeadline = 0 ∨
    after.expiryDeadline = session.expiryDeadline ∧ after.expiryGeneration = session.expiryGeneration

/-- A CONNECT leaves the session as it was or renews it. -/
theorem connect_cases (answer : ConnectAnswer) :
    session.connect config connection view answer = session ∨
      session.Renewed (session.connect config connection view answer) := by
  rcases connectOwner_cases
    answer with ⟨hsame, hno⟩ | ⟨hroom, hgn, hact⟩
  · exact .inl (connect_of_unchanged hsame hno)
  · suffices hrest : _ ∧ _ from .inr ⟨by rw [connect_generation, hgn], hroom, hrest.1, hrest.2⟩
    have hopen : WillArmed (connectOwner config.persistenceEnabled session.owner view
        (session.connection.any (· != connection)) answer).1 := by
      intro hidle
      rw [hact] at hidle
      cases hidle
    unfold connect
    dsimp only
    split
    · exact ⟨hopen, .inr ⟨rfl, rfl⟩⟩
    split
    · exact ⟨hopen, .inr ⟨rfl, rfl⟩⟩
    split
    · split <;> exact ⟨hopen, .inr ⟨rfl, rfl⟩⟩
    · unfold ClientSession.bind
      cases answer.bound with
      | error e =>
        dsimp only
        split <;> exact ⟨closeIgnored_armed hact, .inr ⟨rfl, rfl⟩⟩
      | ok _ =>
        dsimp only
        split <;> exact ⟨hopen, .inl rfl⟩

omit [Vstr] in
theorem lt_next_generation {timer generation : UInt64} (h : timer ≤ generation) (hroom : generation ≠ uint64Max) :
    timer < generation + 1 := by
  have hmax : uint64Max.toNat = 18446744073709551615 := by decide
  have hne : generation.toNat ≠ uint64Max.toNat := fun heq => hroom (UInt64.toNat_inj.1 heq)
  rw [UInt64.le_iff_toNat_le] at h
  rw [UInt64.lt_iff_toNat_lt, UInt64.toNat_add, UInt64.toNat_one]
  have hlt := generation.toNat_lt
  omega

/-- A CONNECT keeps both: what it changes belongs to a new generation. -/
theorem connect_sound (h : session.Sound) (answer : ConnectAnswer) :
    (session.connect config connection view answer).Sound ∧
      (session.Together → (session.connect config connection view answer).Together) := by
  rcases connect_cases answer with hsame | hnew
  · rw [hsame]
    exact ⟨h, id⟩
  generalize session.connect config connection view answer = after at hnew ⊢
  have herl : after.expiryDeadline ≠ 0 → after.expiryGeneration < after.owner.sessionGeneration := by
    intro hset
    rcases hnew.timer with hzero | ⟨hdln, htimer⟩
    · exact absurd hzero hset
    rw [hdln] at hset
    rw [htimer, hnew.generation]
    exact lt_next_generation (h.older hset) hnew.room
  exact ⟨⟨hnew.armed, fun hset => UInt64.le_of_lt (herl hset), fun hset _ => herl hset⟩, fun _ => .of_earlier herl⟩

theorem clientCreate_sound {answer : ConnectAnswer} {sessionConfig : SessionConfig}
    (h : clientCreate config connection view answer sessionConfig = some session) : session.Sound ∧ session.Together := by
  unfold clientCreate at h
  split at h
  · cases h
  split at h
  · cases h
  rename_i owner decision hconn
  split at h
  · cases h
  rename_i hacc
  split at h
  · cases h
  cases h
  have hact : owner.active = true := by
    rcases ownerConnect_eq_ok hconn with ⟨-, -, expiry, will, -, -, -, rfl⟩ | ⟨hno, -⟩
    · rfl
    · exact absurd (by simp [hno]) hacc
  have hbd : WillArmed (bind ⟨owner, none, 0, 0, 0, 0, 0, 0⟩ connection answer.bound).owner ∧
      (bind ⟨owner, none, 0, 0, 0, 0, 0, 0⟩ connection answer.bound).expiryDeadline = 0 := by
    unfold ClientSession.bind
    split
    · exact ⟨closeIgnored_armed hact, rfl⟩
    · exact ⟨fun hidle => (by rw [show owner.active = false from hidle] at hact; cases hact), rfl⟩
  obtain ⟨harmed, hunset⟩ := hbd
  exact ⟨⟨harmed, fun hset => absurd hunset hset, fun hset => absurd hunset hset⟩,
    .of_earlier fun hset => absurd hunset hset⟩

/-- The clock and the scheduler work when a connection is lost, and neither the application nor the store answers the
    PUBLISH of a Will with `ENOENT`. -/
def WillEvent.Timely : WillEvent → Prop
  | .release _ _ answer => answer.expiryNow ≠ 0 ∧ answer.expiryScheduled = .ok () ∧ answer.willNow ≠ 0
  | .tick answer => answer.dispatched ≠ .error .enoent ∧ answer.saved ≠ .error .enoent
  | _ => True

section

omit [Vstr]

variable (htm : WillEvent.Timely (.release connection sessionTakeover answer))
include htm

theorem armExpiry_ok : (session.armExpiry answer).2 = .ok () := by
  unfold armExpiry
  split
  · rfl
  split
  · rfl
  · rw [if_neg htm.1]
    exact htm.2.1

/-- A pending Will gets its timer when the session is closed. -/
theorem armTimers_will (hwill : session.owner.will = some will) (hpend : will.pending = true) :
    (session.armTimers answer).willDeadline ≠ 0 := by
  have hok : (session.armExpiry answer).2 = .ok () := armExpiry_ok htm
  have hown := (armExpiry_rearmed session answer).owner
  unfold armTimers
  split
  · rename_i after e harm
    rw [harm] at hok
    cases hok
  · rename_i after u harm
    rw [harm] at hown
    rw [show after.owner = session.owner from hown, hwill, filter_some, if_pos hpend]
    unfold armWill
    dsimp only
    rw [if_neg htm.2.2]
    exact Nat.one_le_iff_ne_zero.1 (Nat.le_max_left 1 _)

omit htm

theorem Closes.sound (hcloses : Closes session answer (some after)) (h : session.Sound) :
    after.Sound ∧ (WillEvent.Timely (.release connection sessionTakeover answer) → session.Together → after.Together) := by
  generalize hres : some after = result at hcloses
  cases hcloses with
  | failed =>
    cases hres
    exact ⟨h, fun _ => id⟩
  | ended => cases hres
  | closed staging closing hsame hcl =>
    cases hres
    have howes := owes_of_close hsame hcl
    obtain ⟨hidle, -⟩ := ownerClose_will hcl
    refine ⟨⟨howes.armed h.armed, fun hset => howes.generation ▸ h.older hset, fun _ hopen => ?_⟩,
      fun _ _ => .of_earlier fun hset => ?_⟩
    · rw [show closing.active = true from hopen] at hidle
      cases hidle
    · -- the connection was there until now, so the timers are those of an earlier generation
      obtain ⟨hopen, -⟩ := ownerClose_eq_ok hcl
      exact howes.generation ▸ h.earlier hset (hsame.active.symm.trans hopen)
  | scheduled staging closing expiryAt willAt hsame hcl =>
    cases hres
    have howes := owes_of_close hsame hcl
    obtain ⟨hidle, -⟩ := ownerClose_will hcl
    obtain ⟨hown, htimer⟩ := armTimers_rearmed { session with owner := closing, expiryAt, willAt } answer
    refine ⟨⟨?_, fun hset => ?_, fun _ hopen => ?_⟩, fun htm _ _ hsome _ _ => ?_⟩
    · rw [hown]
      exact howes.armed h.armed
    · rw [hown]
      rcases htimer with ⟨hdln, htimer⟩ | htimer
      · rw [hdln] at hset
        rw [htimer]
        exact howes.generation ▸ h.older hset
      · rw [htimer]
        exact UInt64.le_refl _
    · rw [hown, show closing.active = false from hidle] at hopen
      cases hopen
    · rw [hown] at hsome
      obtain ⟨will, hwill⟩ := Option.isSome_iff_exists.1 hsome
      exact armTimers_will htm hwill (howes.armed h.armed hidle will hwill)

theorem release_sound (h : session.Sound) (haft : session.release config connection sessionTakeover answer = some after) :
    after.Sound ∧ (WillEvent.Timely (.release connection sessionTakeover answer) → session.Together → after.Together) := by
  have hcopy : Sound { session with connection := none } := ⟨h.armed, h.older, h.earlier⟩
  rcases release_closes with hkept | hkept | hcloses
  · rw [hkept] at haft
    cases haft
    exact ⟨h, fun _ => id⟩
  · rw [hkept] at haft
    cases haft
    exact ⟨hcopy, fun _ => id⟩
  · rw [haft] at hcloses
    exact hcloses.sound hcopy

theorem ClientSession.Sound.setWill (h : session.Sound) (deadline : Nat) : Sound { session with willDeadline := deadline } :=
  ⟨h.armed, h.older, h.earlier⟩

theorem ClientSession.Together.setWill {deadline : Nat} (hset : deadline ≠ 0) :
    Together { session with willDeadline := deadline } :=
  fun _ _ _ _ => hset

end

theorem TicksWill.sound {answer : TickAnswer} {result : ClientSession × Option Bytes}
    (hticks : TicksWill config session answer result) (h : session.Sound) (hidle : session.owner.active = false) :
    result.1.Sound ∧ result.1.owner.active = false ∧
      (WillEvent.Timely (.tick answer) → session.Together → result.1.Together) := by
  have hreset : session.willReset.Sound := ⟨h.armed, h.older, h.earlier⟩
  cases hticks with
  | waiting => exact ⟨h, hidle, fun _ => id⟩
  | published packet owner hset hdisp hwill hgn hact =>
    refine ⟨⟨fun _ will hsome => ?_, fun hset => hgn ▸ h.older hset, fun _ hopen => ?_⟩,
      hact.trans hidle, fun _ _ _ hsome => ?_⟩
    · rw [show owner.will = some will from hsome] at hwill
      cases hwill
    · rw [show owner.active = true from hopen, hidle] at hact
      cases hact
    · rw [show owner.will.isSome = true ↔ _ from isSome_iff_ne_none] at hsome
      exact absurd hwill hsome
  | nothing hnone =>
    refine ⟨hreset, hidle, fun _ _ _ hsome => ?_⟩
    obtain ⟨will, hwill⟩ := Option.isSome_iff_exists.1 hsome
    rcases hnone with hopen | hnone
    · rw [hidle] at hopen
      cases hopen
    rw [show session.owner.will = some will from hwill, filter_some, if_pos (h.armed hidle will hwill)] at hnone
    cases hnone
  | forgotten will packet hwill hdue hpkt hdisp =>
    exact ⟨hreset, hidle, fun htm => absurd hdisp htm.1⟩
  | unsaved packet hset hdisp hsaved => exact ⟨hreset, hidle, fun htm => absurd hsaved htm.2⟩
  | retried dispatched hset hdisp =>
    have hown : ∀ deadline, ClientSession.owner { session with willDeadline := deadline } = session.owner := fun _ => rfl
    exact ⟨h.setWill _, (congrArg Owner.active (hown _)).trans hidle,
      fun _ _ => .setWill (saturatingAdd_second_ne_zero answer.hrtime)⟩

theorem tick_sound (h : session.Sound) {answer : TickAnswer} (haft : (session.tick config answer).1 = some after) :
    after.Sound ∧ (WillEvent.Timely (.tick answer) → session.Together → after.Together) := by
  unfold tick at haft
  split at haft
  · cases haft
    exact ⟨⟨h.armed, fun hset => absurd rfl hset, fun hset => absurd rfl hset⟩, fun _ _ => .of_earlier fun hset => absurd rfl hset⟩
  rename_i hreset
  have hidle : session.owner.active = false := by
    cases hact : session.owner.active with
    | false => rfl
    | true => exact absurd (by rw [hact]; rfl) hreset
  obtain ⟨hsnd, hidle', htog⟩ := (tickWill_ticks config session answer).sound h hidle
  dsimp only at haft
  rcases tickExpiry_cases config (session.tickWill config answer).1 answer with ⟨-, deadline, hleft, hzero⟩ | ⟨-, hnone⟩
  · rw [hleft] at haft
    cases haft
    -- the expiry timer keeps its generation, and is not set anew
    have hset : ∀ {P : Prop}, ((session.tickWill config answer).1.expiryDeadline ≠ 0 → P) → deadline ≠ 0 → P :=
      fun hP hne => hP fun hold => hne (hzero hold)
    exact ⟨⟨hsnd.armed, hset hsnd.older, hset hsnd.earlier⟩, fun htm hold hidle hsome =>
      hset (htog htm hold hidle hsome)⟩
  · rw [hnone] at haft
    cases haft

/-- Every event keeps the session sound, and with working timers it keeps both timers together. -/
theorem willStep_sound {current : Option ClientSession} (h : ∀ session, current = some session → session.Sound)
    {event : WillEvent} (haft : (willStep config current event).1 = some after) :
    after.Sound ∧ (event.Timely → (∀ session, current = some session → session.Together) → after.Together) := by
  cases current with
  | none =>
    cases event with
    | connect connection view answer sessionConfig =>
      obtain ⟨hsnd, htog⟩ := clientCreate_sound haft
      exact ⟨hsnd, fun _ _ => htog⟩
    | _ => cases haft
  | some session =>
    have hsnd := h session rfl
    cases event with
    | connect connection view answer sessionConfig =>
      cases haft
      exact ⟨(connect_sound hsnd answer).1, fun _ hold => (connect_sound hsnd answer).2 (hold session rfl)⟩
    | disconnect connection view saved =>
      unfold willStep at haft
      dsimp only at haft
      split at haft
      · cases haft
        exact ⟨hsnd, fun _ hold => hold after rfl⟩
      rename_i owner changed hdisc
      cases haft
      obtain ⟨hwill, hgn, -, hact⟩ := disconnectOwner_will hdisc
      have hsame : ∀ will, owner.will = some will → session.owner.will = some will := by
        intro will hsome
        rw [hsome] at hwill
        split at hwill
        · exact hwill.symm
        · cases hwill
      exact ⟨hsnd.of_owner hgn hact hsame, fun _ hold => (hold session rfl).of_owner hgn hact hsame⟩
    | release connection sessionTakeover answer =>
      obtain ⟨hkept, htog⟩ := release_sound hsnd haft
      exact ⟨hkept, fun htm hold => htog htm (hold session rfl)⟩
    | tick answer =>
      obtain ⟨hkept, htog⟩ := tick_sound hsnd haft
      exact ⟨hkept, fun htm hold => htog htm (hold session rfl)⟩
    | operate op =>
      unfold willStep at haft
      dsimp only at haft
      split at haft
      · rename_i hop
        cases haft
        have hsame : SameWill session.owner (next session.owner op) := sameWill_next hop
        have hwill : ∀ will, (next session.owner op).will = some will → session.owner.will = some will :=
          fun will hsome => hsame.will.symm.trans hsome
        exact ⟨hsnd.of_owner hsame.generation hsame.active hwill,
          fun _ hold => (hold session rfl).of_owner hsame.generation hsame.active hwill⟩
      · cases haft
        exact ⟨hsnd, fun _ hold => hold after rfl⟩

/-- With both timers set together the expiry task skips no Will. -/
theorem observes_tick {answer : TickAnswer} (hwill : session.owner.will = some will) (htog : session.Together)
    (htm : WillEvent.Timely (.tick answer)) : TaskObserves config session will (.tick answer) := by
  by_cases hact : session.owner.active = true
  · exact .inl hact
  by_cases hstale : session.stale = true
  · exact .inr (.inl hstale)
  by_cases hset : session.expiryDeadline = 0
  · exact .inr (.inr (.inl hset))
  refine .inr (.inr (.inr (.inr (.inr ?_))))
  have hfr : session.expiryGeneration = session.owner.sessionGeneration := by
    unfold stale at hstale
    simp only [Bool.or_eq_true, Bool.and_eq_true, bne_iff_ne, not_or, not_and, not_not] at hstale
    exact (hstale.1 hset).symm
  rintro (hunset | ⟨-, hforgotten, -⟩)
  · exact htog (by simpa using hact) (by rw [hwill]; rfl) hset hfr hunset
  · exact htm.1 hforgotten

/-- No event of a run takes away a Will that was never dispatched, other than for its causes, exactly when every event
    observes the Will; and where the clock, the scheduler and the application do not fail this depends on the CONNECT
    and DISCONNECT packets alone. -/
theorem will_obligation_iff (config : WillConfig) (events : List WillEvent) :
    (Run.Along (watchedStep config) (fun state event => LosesWill config state event → Excused state event)
        ⟨none, 0, false⟩ events ↔
      Run.Along (watchedStep config) (Observes config) ⟨none, 0, false⟩ events) ∧
    ((∀ event ∈ events, event.Timely) →
      (Run.Along (watchedStep config) (fun state event => LosesWill config state event → Excused state event)
          ⟨none, 0, false⟩ events ↔
        Run.Along (watchedStep config) (PacketsObserve config) ⟨none, 0, false⟩ events)) := by
  refine ⟨?_, fun htm => ?_⟩
  · refine Run.Along.congr (I := fun state : Watched => ∀ session, state.session = some session → session.Sound)
      (T := fun _ => True) (fun state event _ h after haft => (willStep_sound h haft).1) ?_ (fun _ _ => trivial)
      (fun session hnone => by cases hnone)
    intro state event _ h
    exact observes_iff (fun session hsess => (h session hsess).armed) event
  · refine Run.Along.congr
      (I := fun state : Watched => ∀ session, state.session = some session → session.Sound ∧ session.Together)
      (T := WillEvent.Timely) ?_ ?_ htm (fun session hnone => by cases hnone)
    · intro state event htm h after haft
      obtain ⟨hsnd, htog⟩ := willStep_sound (fun session hsess => (h session hsess).1) haft
      exact ⟨hsnd, htog htm fun session hsess => (h session hsess).2⟩
    · intro state event htm h
      rw [observes_iff (fun session hsess => (h session hsess).1.armed) event]
      refine forall_congr' fun session => forall_congr' fun will => forall_congr' fun hsess => forall_congr' fun hwill =>
        forall_congr' fun _ => and_iff_left ?_
      cases event with
      | tick answer => exact observes_tick hwill (h session hsess).2 htm
      | _ => trivial

end

section

attribute [local instance] asciiVstr

def willConfig : WillConfig := ⟨false, 1024⟩

def willConnect : ConnectView :=
  { persistentConnect with version := .v5, willTopic := text "lost", willPayload := text "x" }

def willConnects (connection : Nat) (view : ConnectView) : WillEvent :=
  .connect connection view ⟨100, .ok (), .ok (), .ok ()⟩ smallConfig

def connectionLost (connection : Nat) : WillEvent :=
  .release connection false ⟨100, .ok (), .ok (), 5, 100, .ok (), 100, .ok ()⟩

def taskRuns : WillEvent := .tick ⟨10, .ok (), .ok (), .ok ()⟩

def willDisconnects (connection : Nat) (reasonCode : UInt8) : WillEvent :=
  .disconnect connection ⟨.v5, .disconnect, false, 0, reasonCode, [], []⟩ (.ok ())

/-- A lost connection leads to the PUBLISH of its Will. -/
theorem will_of_lost_connection :
    Run.Along (watchedStep willConfig) (fun state event => LosesWill willConfig state event → Excused state event)
        ⟨none, 0, false⟩ [willConnects 1 willConnect, connectionLost 1, taskRuns] ∧
      ((willStep willConfig ([willConnects 1 willConnect, connectionLost 1].foldl (watchedStep willConfig)
        ⟨none, 0, false⟩).session taskRuns).2).isSome = true := by
  refine ⟨?_, by decide⟩
  refine ((will_obligation_iff willConfig [willConnects 1 willConnect, connectionLost 1, taskRuns]).2 ?_).2 ?_
  · intro event hmem
    simp only [List.mem_cons, List.not_mem_nil, or_false] at hmem
    rcases hmem with rfl | rfl | rfl
    · trivial
    · exact ⟨by decide, rfl, by decide⟩
    · exact ⟨by simp, by simp⟩
  · refine ⟨?_, fun _ _ _ _ _ => trivial, fun _ _ _ _ _ => trivial, trivial⟩
    rintro session will ⟨⟩

theorem effectiveDelay_of_session {state : Watched} {session : ClientSession} {will : Will} {delay : Nat}
    (h : (state.session.bind fun session => session.owner.will.map (effectiveDelay session.owner)) = some delay)
    (hsess : state.session = some session) (hwill : session.owner.will = some will) :
    effectiveDelay session.owner will = delay := by
  rw [hsess] at h
  simpa [hwill] using h

/-- A takeover of a connection whose Will has no delay, a CONNECT with a clean start while the Will is pending, and a
    version 5 DISCONNECT with the reason 0x81 each take the Will away. -/
theorem will_lost :
    (LosesWill willConfig ([willConnects 1 willConnect].foldl (watchedStep willConfig) ⟨none, 0, false⟩)
        (willConnects 2 willConnect) ∧
      ¬Excused ([willConnects 1 willConnect].foldl (watchedStep willConfig) ⟨none, 0, false⟩)
        (willConnects 2 willConnect)) ∧
    (LosesWill willConfig ([willConnects 1 willConnect, connectionLost 1].foldl (watchedStep willConfig) ⟨none, 0, false⟩)
        (willConnects 2 { willConnect with cleanStart := true }) ∧
      ¬Excused ([willConnects 1 willConnect, connectionLost 1].foldl (watchedStep willConfig) ⟨none, 0, false⟩)
        (willConnects 2 { willConnect with cleanStart := true })) ∧
    (LosesWill willConfig ([willConnects 1 willConnect].foldl (watchedStep willConfig) ⟨none, 0, false⟩)
        (willDisconnects 1 0x81) ∧
      ¬Excused ([willConnects 1 willConnect].foldl (watchedStep willConfig) ⟨none, 0, false⟩) (willDisconnects 1 0x81)) := by
  refine ⟨⟨by unfold LosesWill; decide, ?_⟩, ⟨by unfold LosesWill; decide, ?_⟩, by unfold LosesWill; decide, ?_⟩
  · rintro ⟨session, will, hsess, hwill, -, hdelay, -⟩
    exact hdelay (effectiveDelay_of_session (by decide) hsess hwill)
  · rintro ⟨session, will, -, -, hcln, -⟩
    cases hcln
  rintro ⟨session, will, -, -, -, hver | hrsn⟩
  · exact hver rfl
  · cases hrsn

end

end Flowie.Endpoint
