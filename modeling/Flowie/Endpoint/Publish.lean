import Flowie.Ingress
import Flowie.Lib.IndexedVec
import Flowie.Endpoint.SubscribeBatch
import Flowie.Session.ExactlyOnce
import Flowie.Session.Record

/-!
# An inbound PUBLISH at the endpoint

`preparePublish` is `flowie_endpoint_prepare_publish`: the topic alias, the authorization and the limit of
retained messages are looked at before the session looks for the packet identifier. So the PUBREC that
refuses a QoS 2 PUBLISH leaves the record of its packet identifier as it was, and the identifier is free
afterwards exactly when it was free before (`pubrec_refusal_frees_iff`). A PUBLISH that has an alias in place
of its topic gets the last topic the alias was given (`topic_alias_resolved`).
-/

namespace Flowie.Endpoint

open Mqtt Session

structure PublishConfig where
  securityEnabled : Bool
  persistenceEnabled : Bool
  topicAliasMaximum : UInt16
  maxRetainedMessages : Nat
  maxPacketSize : Nat
  settlement : SettlementPolicy
deriving DecidableEq, Repr

/-- `flowie_topic_alias_entry_t`. -/
structure TopicAliasEntry where
  number : UInt16
  topic : Bytes

/-- `topic_aliases`, and `topic_alias_index` with the place of every alias. -/
abbrev TopicAliases := IndexedVec TopicAliasEntry.number

/-- The connection and its session: the topics of the aliases (none before the table is set up), the topics
    of the retained messages of the endpoint, and the settlement that is waited for. -/
structure Publisher where
  config : PublishConfig
  route : Route
  topicAliases : Option TopicAliases
  retained : List Bytes
  owner : Owner
  pendingSettlement : Option SettlementRequest

/-- A reply to a PUBLISH: an acknowledgement with its reason code, or the DISCONNECT that ends the connection. -/
inductive PublishReply where
  | ack (kind : AckKind) (packetId : UInt16) (reason : UInt8)
  | disconnect (reason : UInt8)
deriving DecidableEq, Repr

/-- What the outside answers: the containers when an alias needs a new entry, the authorization of the topic and
    the session store, asked when the PUBLISH is admitted and when it is settled at once. -/
structure Outside where
  pushedAlias : Except Errno Unit
  authorization : Authorization
  savedBegin : Except Errno Unit
  savedSettle : Except Errno Unit

/-- The state, the reply handed to the send queue and the answer to the ingress. -/
structure PublishOutcome where
  state : Publisher
  reply : Option PublishReply
  prepared : Except Errno (Ingress.Prepared SettlementRequest)

def topicAliasInvalid : UInt8 := 0x94
def receiveMaximumExceeded : UInt8 := 0x93
def notAuthorized : UInt8 := 0x87
def quotaExceeded : UInt8 := 0x97

def publishAckKind (qos : UInt8) : AckKind := if qos = 1 then .puback else .pubrec

section

variable [Vstr]

/-- The first topic alias of the properties, zero without one. -/
def topicAlias (values : Bytes) : Except Errno UInt16 :=
  match (properties values).1.find? (·.identifier == .topicAlias) with
  | some property => .ok (UInt16.ofNat property.integer)
  | none => if (properties values).2 = .needMore then .ok 0 else .error .eproto

/-- Only version 5 has properties, and without one there is no alias. -/
def publishAlias (version : Version) (publish : PublishView) : Except Errno UInt16 :=
  if version ≠ .v5 ∨ publish.properties.isEmpty then .ok 0 else topicAlias publish.properties

def normalizedPacket (maxPacketSize : Nat) (version : Version) (publish : PublishView) (topic : Bytes) : Except Errno Bytes :=
  let size := topic.length + publish.properties.length + publish.payload.length
  if size > sizeMax - 16 then .error .erange
  else if size + 16 > maxPacketSize then .error .emsgsize
  else
    match publishPacketEncode ⟨version, publish.qos, publish.retain, publish.duplicate, publish.packetId, topic,
      publish.properties, publish.payload⟩ (size + 16) with
    | .error .tooLarge => .error .emsgsize
    | .error _ => .error .eproto
    | .ok bytes => .ok bytes

/-- The table with a topic for an alias; `pushed` is the answer of the containers to a new entry. -/
def nameTopic (pushed : Except Errno Unit) (aliases : TopicAliases) (entry : TopicAliasEntry) : Except Errno TopicAliases :=
  match hix : aliases.index.lookup entry.number with
  | some i =>
    match aliases.entries[i]? with
    | none => .error .eproto
    | some _ => .ok (aliases.modifyAt i ({ · with topic := entry.topic }) fun _ => rfl)
  | none =>
    match pushed with
    -- the vector is cut back to the entries it had
    | .error e => .error e
    | .ok _ => .ok (aliases.append entry hix)

/-- `flowie_publish_topic_alias`: the aliases, the PUBLISH with its topic and the packet that replaces it. -/
def publishTopicAlias (pushed : Except Errno Unit) (state : Publisher) (version : Version) (publish : PublishView) :
    Except Errno (Publisher × PublishView × Option Bytes) :=
  match publishAlias version publish with
  | .error e => .error e
  | .ok number =>
    if number = 0 then .ok (state, publish, none)
    else
      match state.topicAliases with
      | none => .error .erange
      | some aliases =>
        if number > state.config.topicAliasMaximum then .error .erange
        else if !publish.topic.isEmpty then
          match nameTopic pushed aliases ⟨number, publish.topic⟩ with
          | .error e => .error e
          | .ok aliases => .ok ({ state with topicAliases := some aliases }, publish, none)
        else
          match aliases.find number with
          | none => .error .enoent
          | some (_, entry) =>
            match normalizedPacket state.config.maxPacketSize version publish entry.topic with
            | .error e => .error e
            | .ok bytes => .ok (state, { publish with topic := entry.topic }, some bytes)

/-- The answer to the ingress when the PUBLISH goes no further. -/
def withheld (stopPump : Bool) : Ingress.Prepared SettlementRequest := ⟨false, stopPump, none, none⟩

/-- `flowie_session_owner_clone` and the store around an operation of the session: without persistence the
    owner itself is changed; otherwise a copy is, which takes its place when it is stored. -/
def staged {α : Type} (persistence : Bool) (owner : Owner) (operation : Owner → Except Errno (Owner × α))
    (stores : α → Bool) (saved : Except Errno Unit) : Except Errno (Owner × α) :=
  if !persistence then operation owner
  else
    match ownerClone owner with
    | none => .error .enomem
    | some copy =>
      match operation copy with
      | .error e => .error e
      | .ok (changed, result) =>
        if !stores result then .ok (owner, result)
        else
          match saved with
          | .error e => .error e
          | .ok _ => .ok (changed, result)

variable {owner : Owner}

omit [Vstr] in
theorem staged_eq_ok {α : Type} {persistence : Bool} {owner' : Owner} {operation : Owner → Except Errno (Owner × α)}
    {stores : α → Bool} {saved : Except Errno Unit} {result : α}
    (h : staged persistence owner operation stores saved = .ok (owner', result)) :
    operation owner = .ok (owner', result) ∨
      ∃ copy changed, ownerClone owner = some copy ∧ operation copy = .ok (changed, result) ∧
        owner' = if stores result then changed else owner := by
  unfold staged at h
  split at h
  · exact .inl h
  split at h
  · cases h
  rename_i copy hclo
  split at h
  · cases h
  rename_i changed r hop
  split at h
  · rename_i hstores
    cases h
    exact .inr ⟨copy, changed, hclo, hop, (if_neg (by simpa using hstores)).symm⟩
  · rename_i hstores
    split at h
    · cases h
    · cases h
      exact .inr ⟨copy, _, hclo, hop, (if_pos (by simpa using hstores)).symm⟩

/-- What follows once the session admits the PUBLISH: the settlement it needs is waited for, or made at once. -/
def awaitSettlement (outside : Outside) (state : Publisher) (publish : PublishView) (message : ProtocolMessage)
    (replacement : Option Bytes) : PublishOutcome :=
  let point := if publish.qos = 1 then state.config.settlement.qos1 else state.config.settlement.qos2
  let settlement : SettlementRequest := ⟨true, message, point, none⟩
  let awaited (envelope : Option SettlementRequest) : PublishOutcome :=
    if state.pendingSettlement.isSome then ⟨state, none, .error .ebusy⟩
    else ⟨{ state with pendingSettlement := some settlement }, none, .ok ⟨true, false, replacement, envelope⟩⟩
  match point with
  | .accepted | .durable => awaited (some settlement)
  | .processed => awaited none
  | .received | .unknown =>
    match staged state.config.persistenceEnabled state.owner (publishSettle · state.route settlement) (fun _ => true)
      outside.savedSettle with
    | .error e => ⟨state, none, .error e⟩
    | .ok (owner, intent) =>
      ⟨{ state with owner := owner }, some (.ack intent.kind intent.packetId 0), .ok ⟨true, false, replacement, none⟩⟩

/-- The session takes the PUBLISH, once it is authorized and within the limits. -/
def beginPublish (outside : Outside) (state : Publisher) (version : Version) (publish : PublishView)
    (replacement : Option Bytes) : PublishOutcome :=
  match staged state.config.persistenceEnabled state.owner (publishBegin · publish)
    (fun result => result.admitApplication && publish.qos != 0) outside.savedBegin with
  | .error .enospc =>
    if version = .v5 then ⟨state, some (.disconnect receiveMaximumExceeded), .ok (withheld true)⟩
    else ⟨state, none, .error .enospc⟩
  | .error e => ⟨state, none, .error e⟩
  | .ok (owner, result) =>
    let state := { state with owner := owner }
    match result.ack with
    | some intent =>
      ⟨state, some (.ack intent.kind intent.packetId 0), .ok ⟨result.admitApplication, false, replacement, none⟩⟩
    | none =>
      if !result.admitApplication || publish.qos == 0 then
        ⟨state, none, .ok ⟨result.admitApplication, false, replacement, none⟩⟩
      else awaitSettlement outside state publish result.message.metadata replacement

/-- `flowie_endpoint_prepare_publish`. -/
def preparePublish (outside : Outside) (state : Publisher) (packet : PacketView) : PublishOutcome :=
  match publishParse packet with
  | .error _ => ⟨state, none, .error .eproto⟩
  | .ok publish =>
    match publishTopicAlias outside.pushedAlias state packet.version publish with
    | .error e =>
      if e = .erange ∨ e = .enoent then ⟨state, some (.disconnect topicAliasInvalid), .ok (withheld true)⟩
      else ⟨state, none, .error e⟩
    | .ok (state, publish, replacement) =>
      -- without security everything is authorized
      match (if state.config.securityEnabled then outside.authorization else .allowed) with
      | .denied =>
        if packet.version = .v5 ∧ publish.qos ≠ 0 then
          ⟨state, some (.ack (publishAckKind publish.qos) publish.packetId notAuthorized), .ok (withheld false)⟩
        else ⟨state, none, .error .eperm⟩
      | .failed e => ⟨state, none, .error e⟩
      | .allowed =>
        if publish.retain ∧ !publish.payload.isEmpty ∧ publish.topic ∉ state.retained ∧
            state.retained.length ≥ state.config.maxRetainedMessages then
          if packet.version ≠ .v5 then ⟨state, none, .error .enospc⟩
          else if publish.qos = 0 then ⟨state, none, .ok (withheld false)⟩
          else ⟨state, some (.ack (publishAckKind publish.qos) publish.packetId quotaExceeded), .ok (withheld false)⟩
        else beginPublish outside state packet.version publish replacement

variable {state : Publisher} {publish : PublishView} {replacement : Option Bytes} {version : Version}

theorem publishTopicAlias_eq_ok {pushed : Except Errno Unit} {state' : Publisher} {publish' : PublishView}
    (h : publishTopicAlias pushed state version publish = .ok (state', publish', replacement)) :
    state'.owner = state.owner ∧ publish'.packetId = publish.packetId ∧ publish'.qos = publish.qos := by
  unfold publishTopicAlias at h
  split at h
  · cases h
  split at h
  · cases h
    exact ⟨rfl, rfl, rfl⟩
  split at h
  · cases h
  split at h
  · cases h
  split at h
  · split at h
    · cases h
    · cases h
      exact ⟨rfl, rfl, rfl⟩
  split at h
  · cases h
  split at h
  · cases h
  · cases h
    exact ⟨rfl, rfl, rfl⟩

variable {outside : Outside} {kind : AckKind} {packetId : UInt16} {reason : UInt8}

omit [Vstr] in
theorem awaitSettlement_reply {message : ProtocolMessage}
    (h : (awaitSettlement outside state publish message replacement).reply = some (.ack kind packetId reason)) : reason = 0 := by
  have hawaited : ∀ (settlement : SettlementRequest) envelope,
      (if state.pendingSettlement.isSome then (⟨state, none, .error .ebusy⟩ : PublishOutcome)
        else ⟨{ state with pendingSettlement := some settlement }, none,
          .ok ⟨true, false, replacement, envelope⟩⟩).reply = none := by
    intro settlement envelope
    split <;> rfl
  unfold awaitSettlement at h
  dsimp only at h
  split at h
  · rw [hawaited] at h
    cases h
  · rw [hawaited] at h
    cases h
  · rw [hawaited] at h
    cases h
  all_goals
    split at h
    · cases h
    · cases h
      rfl

omit [Vstr] in
/-- What the session answers has no reason code. -/
theorem beginPublish_reply
    (h : (beginPublish outside state version publish replacement).reply = some (.ack kind packetId reason)) : reason = 0 := by
  unfold beginPublish at h
  split at h
  · split at h <;> cases h
  · cases h
  split at h
  · cases h
    rfl
  split_ifs at h
  · exact awaitSettlement_reply h

/-- An acknowledgement with a reason code refuses the PUBLISH before the session sees it. -/
theorem preparePublish_refusal {packet : PacketView}
    (h : (preparePublish outside state packet).reply = some (.ack kind packetId reason)) (hrsn : reason ≠ 0) :
    (preparePublish outside state packet).state.owner = state.owner ∧
      ∃ publish, publishParse packet = .ok publish ∧ packetId = publish.packetId ∧ kind = publishAckKind publish.qos := by
  unfold preparePublish at h ⊢
  cases hpar : publishParse packet with
  | error e =>
    rw [hpar] at h
    cases h
  | ok publish =>
    rw [hpar] at h
    dsimp only at h ⊢
    cases htop : publishTopicAlias outside.pushedAlias state packet.version publish with
    | error e =>
      rw [htop] at h
      dsimp only at h
      split at h <;> cases h
    | ok resolved =>
      obtain ⟨state', publish', replacement⟩ := resolved
      obtain ⟨hown, hid, hqos⟩ := publishTopicAlias_eq_ok htop
      rw [htop] at h
      dsimp only at h ⊢
      split at h
      · split at h
        · cases h
          rw [if_pos ‹_›]
          exact ⟨hown, publish, rfl, hid, by rw [hqos]⟩
        · cases h
      · cases h
      · split at h
        · split_ifs at h
          cases h
          rw [if_pos ‹_›, if_neg ‹_›, if_neg ‹_›]
          exact ⟨hown, publish, rfl, hid, by rw [hqos]⟩
        · exact absurd (beginPublish_reply h) hrsn

/-- The packet identifier is free: it is not recorded, and the next QoS 2 PUBLISH that has it is admitted whenever
    the session has room for it. -/
def Free (packetId : UInt16) (owner : Owner) : Prop :=
  inflightFind owner packetId = none ∧
    ∀ ops : List Op, (∀ publish, .publishBegin publish ∈ ops → publish.packetId ≠ packetId) →
      ∀ publish : PublishView, publish.qos = 2 → publish.packetId = packetId →
        Admissible (Session.run owner ops) publish →
        ∃ owner' result, publishBegin (Session.run owner ops) publish = .ok (owner', result) ∧
          result.admitApplication = true

theorem free_iff : Free packetId owner ↔ inflightFind owner packetId = none := by
  refine ⟨And.left, fun hnone => ⟨hnone, ?_⟩⟩
  rintro ops hops publish hqos rfl hadmissible
  exact (publishBegin_admits_iff hqos).2 ⟨unrecorded_run hnone hops, hadmissible⟩

/-- A PUBREC with a reason code of 0x80 or more frees the packet identifier exactly when it was not recorded
    before: the refusal leaves the session as it was. -/
theorem pubrec_refusal_frees_iff {outside : Outside} {state : Publisher} {packet : PacketView} {packetId : UInt16}
    {reason : UInt8} (h : (preparePublish outside state packet).reply = some (.ack .pubrec packetId reason))
    (hrsn : 0x80 ≤ reason) :
    Free packetId (preparePublish outside state packet).state.owner ↔ inflightFind state.owner packetId = none := by
  have hne : reason ≠ 0 := by
    rintro rfl
    exact absurd hrsn (by decide)
  rw [free_iff, (preparePublish_refusal h hne).1]

end

section Aliases

variable [Vstr]

/-- A PUBLISH of MQTT 5 that was taken off the wire. -/
structure Received (maxPacketSize : Nat) where
  publish : PublishView
  parsed : ∃ bytes packet size, packetParse bytes .v5 maxPacketSize = .ok (packet, size) ∧ publishParse packet = .ok publish

variable {maxPacketSize : Nat}

/-- The alias a PUBLISH gives to its topic. -/
def Received.names (received : Received maxPacketSize) : Option UInt16 :=
  match topicAlias received.publish.properties with
  | .ok number => if number = 0 ∨ received.publish.topic.isEmpty then none else some number
  | .error _ => none

def lastTopic (number : UInt16) (earlier : List (Received maxPacketSize)) : Option Bytes :=
  (earlier.reverse.find? (·.names == some number)).map (·.publish.topic)

/-- The connection after a PUBLISH, which may have been refused. -/
def aliased (state : Publisher) (received : Received maxPacketSize) : Publisher :=
  match publishTopicAlias (.ok ()) state .v5 received.publish with
  | .ok (after, _) => after
  | .error _ => state

def aliasTopic (aliases : TopicAliases) (number : UInt16) : Option Bytes := (aliases.find number).map (·.2.topic)

variable {state : Publisher} {aliases : TopicAliases} {number : UInt16}

omit [Vstr] in
/-- A topic takes the place of the one the alias had, or gets a new entry. -/
theorem nameTopic_topic (aliases : TopicAliases) (entry : TopicAliasEntry) :
    ∃ after, nameTopic (.ok ()) aliases entry = .ok after ∧
      ∀ n, aliasTopic after n = if entry.number = n then some entry.topic else aliasTopic aliases n := by
  unfold nameTopic
  split
  next i hix =>
    obtain ⟨old, hold, hnumber⟩ := (aliases.synced _ _).1 hix
    rw [hold]
    refine ⟨_, rfl, fun n => ?_⟩
    rw [aliasTopic, IndexedVec.find_modifyAt, Option.map_map]
    split
    next hn => simp [aliases.find_eq_some_iff.2 ⟨hold, hnumber.trans hn⟩]
    next hn =>
      -- another alias has another place
      refine Option.map_congr fun (j, found) hfnd => ?_
      obtain ⟨hent, hkey⟩ := aliases.find_eq_some_iff.1 hfnd
      have hplc : i ≠ j := by
        rintro rfl
        rw [Option.mem_unique hold hent] at hnumber
        exact hn (hnumber.symm.trans hkey)
      simp [hplc]
  next hix =>
    refine ⟨_, rfl, fun n => ?_⟩
    rw [aliasTopic]
    split
    next hn => rw [← hn, IndexedVec.find_append_self, Option.map_some]
    next hn => rw [IndexedVec.find_append_ne _ _ (Ne.symm hn), aliasTopic]

theorem publishAlias_v5 (publish : PublishView) : publishAlias .v5 publish = topicAlias publish.properties := by
  unfold publishAlias
  cases hprp : publish.properties <;> rfl

/-- A PUBLISH changes the table when it names an alias within the limit. -/
theorem aliased_eq (haliases : state.topicAliases = some aliases) (received : Received maxPacketSize) :
    aliased state received =
      match received.names with
      | none => state
      | some named =>
        if named > state.config.topicAliasMaximum then state
        else { state with
          topicAliases := (nameTopic (.ok ()) aliases ⟨named, received.publish.topic⟩).toOption } := by
  unfold aliased publishTopicAlias Received.names
  rw [publishAlias_v5]
  cases topicAlias received.publish.properties with
  | error e => rfl
  | ok named =>
    obtain ⟨after, haft, -⟩ := nameTopic_topic aliases ⟨named, received.publish.topic⟩
    by_cases hzero : named = 0
    · simp [hzero]
    by_cases hrng : named > state.config.topicAliasMaximum
    · by_cases htop : received.publish.topic = [] <;> simp [hzero, haliases, hrng, htop]
    by_cases htop : received.publish.topic = []
    · simp only [hzero, haliases, hrng, htop]
      cases hfind : aliases.find named with
      | none => rfl
      | some found => cases hbs : normalizedPacket state.config.maxPacketSize .v5 received.publish found.2.topic <;> simp [hbs]
    · simp [hzero, haliases, hrng, htop, haft, Except.toOption]

/-- The table holds the last topic of every alias. -/
theorem aliases_run (hnew : state.topicAliases = some .empty) (hnumber : number ≤ state.config.topicAliasMaximum)
    (earlier : List (Received maxPacketSize)) :
    ∃ after, (earlier.foldl aliased state).topicAliases = some after ∧
      (earlier.foldl aliased state).config = state.config ∧ aliasTopic after number = lastTopic number earlier := by
  induction earlier using List.reverseRecOn with
  | nil => exact ⟨.empty, hnew, rfl, rfl⟩
  | append_singleton earlier received ih =>
    obtain ⟨before, hbef, hcfg, htop⟩ := ih
    rw [List.foldl_append, List.foldl_cons, List.foldl_nil, aliased_eq hbef, hcfg, lastTopic, List.reverse_append,
      List.reverse_singleton, List.singleton_append, List.find?_cons]
    cases hnames : received.names with
    | none => exact ⟨before, hbef, hcfg, htop⟩
    | some named =>
      obtain ⟨after, haft, htopics⟩ := nameTopic_topic before ⟨named, received.publish.topic⟩
      dsimp only
      rw [haft]
      by_cases hsame : named = number
      · rw [if_neg (UInt16.not_lt.2 (hsame ▸ hnumber)), hsame, beq_self_eq_true]
        exact ⟨after, rfl, rfl, (htopics number).trans (if_pos hsame)⟩
      rw [beq_false_of_ne fun h => hsame (Option.some.inj h)]
      split
      · exact ⟨before, hbef, hcfg, htop⟩
      · exact ⟨after, rfl, rfl, ((htopics number).trans (if_neg hsame)).trans htop⟩

/-- What the parser read can be written again, within the limit of the wire. -/
theorem Received.encodable (received : Received maxPacketSize) :
    packetLimit maxPacketSize ≤ maxWirePacketSize ∧ (∃ present, Encodable (received.publish.packet .v5) present) ∧
      received.publish.properties.length + received.publish.payload.length ≤ maxWirePacketSize := by
  obtain ⟨bytes, packet, size, hpkt, hpub⟩ := received.parsed
  obtain ⟨first, lenBytes, rest, hfrm, -⟩ := framed_of_parse hpkt
  have hver := hfrm.parsedAs
  obtain ⟨henc, -, -, hbody⟩ := encodable_of_parse hpub (hver ▸ hfrm.header)
  have hsize := hfrm.size
  have hlim := hfrm.limit
  rw [hver] at henc hbody
  rw [← hbody, publishBody] at hsize
  simp only [PublishView.packet, propertyValuesWrite, if_true, List.length_append] at hsize
  exact ⟨hlim, henc, by omega⟩

variable {topic : Bytes}

/-- A topic that was given to an alias can stand in the PUBLISH that has the alias. -/
theorem Received.encodable_lastTopic {earlier : List (Received maxPacketSize)}
    (received : Received maxPacketSize) (h : lastTopic number earlier = some topic) :
    ∃ present, Encodable (PublishView.packet { received.publish with topic := topic } .v5) present := by
  obtain ⟨before, hbef, rfl⟩ := Option.map_eq_some_iff.1 h
  have hnames := List.find?_some hbef
  obtain ⟨-, ⟨_, hbef⟩, -⟩ := before.encodable
  obtain ⟨-, ⟨present, hreceived⟩, -⟩ := received.encodable
  have hfull : ¬before.publish.topic.isEmpty = true := by
    grind [Received.names]
  have hval := hbef.topic
  unfold publishTopicValid at hval
  exact ⟨present, { hreceived with
    length := hbef.length
    utf8 := hbef.utf8
    topic := (if_neg hfull).trans ((if_neg hfull).symm.trans hval) }⟩

/-- The sum the endpoint compares with the limit is more than the size of the packet. -/
theorem normalizedPacket_parse {publish : PublishView} {present : List PropertyId}
    (h : Encodable (PublishView.packet { publish with topic := topic } .v5) present)
    (hlim : packetLimit maxPacketSize ≤ maxWirePacketSize)
    (hfits : topic.length + publish.properties.length + publish.payload.length + 16 ≤ maxPacketSize) :
    ∃ bytes view, normalizedPacket maxPacketSize .v5 publish topic = .ok bytes ∧
      packetParse bytes .v5 maxPacketSize = .ok (view, bytes.length) ∧
      publishParse view = .ok { publish with topic := topic } := by
  have hmax : packetLimit maxPacketSize = maxPacketSize := if_neg (by omega)
  have hsize : ∀ n < 128 ^ 4, (vbiWrite n).length ≤ 4 := fun n hn => length_vbiWriteLoop_le (by decide) hn
  rw [hmax, maxWirePacketSize, maxRemainingLength] at hlim
  have hvls := hsize publish.properties.length (by omega)
  have hbody : (publishBody (PublishView.packet { publish with topic := topic } .v5)).length ≤
      topic.length + publish.properties.length + publish.payload.length + 8 := by
    by_cases hqos : publish.qos = 0 <;>
      simp [publishBody, PublishView.packet, lengthSpanWrite, propertyValuesWrite, hqos] <;> omega
  have hhead := hsize _ (Nat.lt_of_le_of_lt hbody (by omega))
  rw [length_vbiWrite] at hhead
  have henc := h.encode (topic.length + publish.properties.length + publish.payload.length + 16)
  unfold encodePacket at henc
  rw [if_neg (by unfold maxRemainingLength; omega), if_neg (by omega)] at henc
  obtain ⟨view, hpkt, hpub⟩ := publishPacketEncode_parse_of_admits henc
    ⟨hmax ▸ hlim, by rw [hmax, List.length_cons, List.length_append, length_vbiWrite]; omega⟩
  refine ⟨_, view, ?_, hpkt, hpub⟩
  unfold normalizedPacket
  rw [if_neg (by unfold sizeMax; omega), if_neg (by omega)]
  unfold PublishView.packet at henc
  rw [henc]
  rfl

/-- A PUBLISH that has an alias in place of its topic is refused when no PUBLISH before named the alias. Else it gets the
    topic of the last one, and the packet that replaces it is read as the same PUBLISH with that topic, if the parts of that
    packet stay 16 bytes below the limit; if they do not, it is refused too. -/
theorem topic_alias_resolved (state : Publisher) (hnew : state.topicAliases = some .empty)
    (earlier : List (Received state.config.maxPacketSize)) (received : Received state.config.maxPacketSize)
    (number : UInt16) (hnumber : topicAlias received.publish.properties = .ok number)
    (hrng : number ≠ 0 ∧ number ≤ state.config.topicAliasMaximum) (htop : received.publish.topic = [])
    (pushed : Except Errno Unit) :
    ∃ after, after = earlier.foldl aliased state ∧
      match lastTopic number earlier with
      | none => publishTopicAlias pushed after .v5 received.publish = .error .enoent
      | some topic =>
        if topic.length + received.publish.properties.length + received.publish.payload.length + 16 ≤
            state.config.maxPacketSize then
          ∃ bytes view, publishTopicAlias pushed after .v5 received.publish =
              .ok (after, { received.publish with topic := topic }, some bytes) ∧
            packetParse bytes .v5 state.config.maxPacketSize = .ok (view, bytes.length) ∧
            publishParse view = .ok { received.publish with topic := topic }
        else publishTopicAlias pushed after .v5 received.publish = .error .emsgsize := by
  refine ⟨_, rfl, ?_⟩
  obtain ⟨aliases, haliases, hcfg, hlast⟩ := aliases_run hnew hrng.2 earlier
  unfold publishTopicAlias
  rw [publishAlias_v5, hnumber]
  dsimp only
  rw [if_neg hrng.1, haliases]
  dsimp only
  rw [hcfg, if_neg (UInt16.not_lt.2 hrng.2), if_neg (by simp [htop])]
  cases hfind : aliases.find number with
  | none =>
    rw [← hlast, aliasTopic, hfind]
    rfl
  | some found =>
    obtain ⟨i, entry⟩ := found
    rw [aliasTopic, hfind, Option.map_some] at hlast
    obtain ⟨present, henc⟩ := received.encodable_lastTopic hlast.symm
    obtain ⟨hlim, -, hwire⟩ := received.encodable
    rw [← hlast]
    dsimp only
    split
    next hfits =>
      obtain ⟨bytes, view, hbs, hpar⟩ := normalizedPacket_parse henc hlim hfits
      rw [hbs]
      exact ⟨bytes, view, rfl, hpar⟩
    next hfits =>
      have hlen : entry.topic.length ≤ 65535 := henc.length
      unfold maxWirePacketSize maxRemainingLength at hwire
      unfold normalizedPacket
      rw [if_neg (by unfold sizeMax; omega), if_pos (by omega)]

end Aliases

section

attribute [local instance] asciiVstr

def qos2Packet (duplicate : Bool) : PacketView :=
  ⟨.v5, .publish, if duplicate then 12 else 4, [0, 1, 0x74, 0, 5, 0]⟩

/-- A connection of the session with the security enabled. -/
def securePublisher : Publisher :=
  { config := ⟨true, false, 0, 1, 1024, ⟨.accepted, .accepted, .accepted⟩⟩
    route := ⟨true, true, 1, 7, 1⟩
    topicAliases := none
    retained := []
    owner := connectedOwner
    pendingSettlement := none }

/-- A new PUBLISH that is refused leaves its packet identifier free. -/
theorem pubrec_refusal_frees_new :
    (preparePublish ⟨.ok (), .denied, .ok (), .ok ()⟩ securePublisher (qos2Packet false)).reply =
        some (.ack .pubrec 5 notAuthorized) ∧
      Free 5 (preparePublish ⟨.ok (), .denied, .ok (), .ok ()⟩ securePublisher (qos2Packet false)).state.owner := by
  have hrep : (preparePublish ⟨.ok (), .denied, .ok (), .ok ()⟩ securePublisher (qos2Packet false)).reply =
      some (.ack .pubrec 5 notAuthorized) := by decide
  exact ⟨hrep, (pubrec_refusal_frees_iff hrep (by decide)).2 (by decide)⟩

/-- The session after the PUBLISH was admitted while it was authorized. -/
def admittedPublisher : Publisher :=
  (preparePublish ⟨.ok (), .allowed, .ok (), .ok ()⟩ securePublisher (qos2Packet false)).state

/-- The same session after the PUBLISH was sent again and refused. -/
def refusedPublisher : Publisher :=
  (preparePublish ⟨.ok (), .denied, .ok (), .ok ()⟩ admittedPublisher (qos2Packet true)).state

/-- A PUBLISH that was admitted and is no longer authorized when it is sent again is refused with PUBREC, and its
    packet identifier stays taken: the next PUBLISH that has it is a protocol error. -/
theorem pubrec_refusal_keeps_record :
    (preparePublish ⟨.ok (), .denied, .ok (), .ok ()⟩ admittedPublisher (qos2Packet true)).reply =
        some (.ack .pubrec 5 notAuthorized) ∧
      inflightFind refusedPublisher.owner 5 = some (⟨5, 2, .settlement⟩, 0) ∧
      (preparePublish ⟨.ok (), .allowed, .ok (), .ok ()⟩ refusedPublisher (qos2Packet false)).prepared = .error .eproto :=
  ⟨by decide, by decide, rfl⟩

/-- A connection with one alias and a limit for the size of a packet. -/
def aliasPublisher (maxPacketSize : Nat) : Publisher :=
  { securePublisher with
    config := ⟨false, false, 1, 1, maxPacketSize, ⟨.accepted, .accepted, .accepted⟩⟩
    topicAliases := some .empty }

def aliasPublish (topic : Bytes) : PublishView := ⟨0, false, false, 0, topic, [0x23, 0, 1], []⟩

def namingBody : Bytes := [0, 1, 0x74, 3, 0x23, 0, 1]

def aliasBody : Bytes := [0, 0, 3, 0x23, 0, 1]

set_option maxRecDepth 2000 in
theorem topic_alias_resolved_second :
    ∃ after bytes, publishTopicAlias (.ok ()) after .v5 (aliasPublish []) = .ok (after, aliasPublish [0x74], some bytes) := by
  obtain ⟨after, -, bytes, _, h, -⟩ := topic_alias_resolved (aliasPublisher 20) rfl
    [⟨aliasPublish [0x74], 0x30 :: 7 :: namingBody, ⟨.v5, .publish, 0, namingBody⟩, 9, rfl, by decide⟩]
    ⟨aliasPublish [], 0x30 :: 6 :: aliasBody, ⟨.v5, .publish, 0, aliasBody⟩, 8, rfl, by decide⟩ 1 rfl (by decide) rfl (.ok ())
  exact ⟨after, bytes, h⟩

/-- A limit of 19 bytes is enough for both packets and for the one that would replace the second. -/
theorem topic_alias_refused :
    ∃ named received : Received 19,
      publishTopicAlias (.ok ()) (aliased (aliasPublisher 19) named) .v5 received.publish = .error .emsgsize ∧
      received.publish = aliasPublish [] ∧ publishPacketEncode (named.publish.packet .v5) 19 = .ok (0x30 :: 7 :: namingBody) :=
  ⟨⟨aliasPublish [0x74], 0x30 :: 7 :: namingBody, ⟨.v5, .publish, 0, namingBody⟩, 9, rfl, by decide⟩,
    ⟨aliasPublish [], 0x30 :: 6 :: aliasBody, ⟨.v5, .publish, 0, aliasBody⟩, 8, rfl, by decide⟩, rfl, rfl, rfl⟩

end

end Flowie.Endpoint
