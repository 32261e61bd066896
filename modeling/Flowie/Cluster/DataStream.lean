import Flowie.Cluster.PublishEvent
import Flowie.Cluster.StateMachine

/-!
# Streams of published events

`flowie_cluster_publish_stream.c`: a published event travels from the leader to a follower as a data stream of
TurboRaft, which cuts it into chunks and acknowledges them. The library is a parameter. Its receiver calls back into
the sink of this repository while it handles a chunk, so what it does with a chunk is the tree of its calls, one
branch for each answer of the sink.
-/

namespace Flowie.Cluster

open Mqtt

abbrev NodeId := UInt64

/-- `tr_raft_data_chunk_t`; `source` and `target` are `from` and `to`. -/
structure DataChunk where
  source : NodeId
  target : NodeId
  term : UInt64
  streamId : UInt64
  streamSize : Nat
  streamOffset : Nat
  streamDigest : Bytes
  data : Bytes
deriving DecidableEq, Repr

/-- `tr_raft_data_ack_t`. -/
structure DataAck where
  source : NodeId
  target : NodeId
  term : UInt64
  streamId : UInt64
  streamSize : Nat
  nextOffset : Nat
  streamDigest : Bytes
  accepted : Bool
  durable : Bool
deriving DecidableEq, Repr

/-- The acknowledgement of everything up to the end of a chunk. -/
def DataChunk.answer (chunk : DataChunk) (durable : Bool) : DataAck where
  source := chunk.target
  target := chunk.source
  term := chunk.term
  streamId := chunk.streamId
  streamSize := chunk.streamSize
  nextOffset := chunk.streamOffset + chunk.data.length
  streamDigest := chunk.streamDigest
  accepted := true
  durable := durable

/-! ## The receiver -/

/-- What a receiver does with a chunk: calls of its sink, each with what follows for either answer, and in the end
the acknowledgement and whether the stream was committed. -/
inductive SinkCalls (σ : Type) where
  | done (result : Except Errno (DataAck × Bool)) (receiver : σ)
  | start (streamSize : Nat) (next : Except Errno Unit → SinkCalls σ)
  | write (offset : Nat) (data : Bytes) (next : Except Errno Unit → SinkCalls σ)
  | commit (next : Except Errno Unit → SinkCalls σ)
  | abort (next : SinkCalls σ)

namespace SinkCalls

variable {σ : Type}

def NoCommit : SinkCalls σ → Prop
  | .done _ _ => True
  | .start _ next => ∀ answer, (next answer).NoCommit
  | .write _ _ next => ∀ answer, (next answer).NoCommit
  | .commit _ => False
  | .abort next => next.NoCommit

/-- The sink is not asked to commit, and the stream is reported as committed. -/
def Committed : SinkCalls σ → Prop
  | .done result _ => ∃ ack, result = .ok (ack, true)
  | .start _ next => ∀ answer, (next answer).Committed
  | .write _ _ next => ∀ answer, (next answer).Committed
  | .commit _ => False
  | .abort next => next.Committed

/-- The sink is asked to commit at most once, and a commit is reported exactly when the sink made it. -/
def CommitsOnce : SinkCalls σ → Prop
  | .done _ _ => True
  | .start _ next => ∀ answer, (next answer).CommitsOnce
  | .write _ _ next => ∀ answer, (next answer).CommitsOnce
  | .commit next => (next (.ok ())).Committed ∧ ∀ e, (next (.error e)).NoCommit
  | .abort next => next.CommitsOnce

end SinkCalls

/-- The receivers of TurboRaft: one chunk leads to at most one commit, which is reported. -/
class DataReceivers where
  Receiver : Type
  create : NodeId → Nat → Except Errno Receiver
  handle : Receiver → DataChunk → SinkCalls Receiver
  commitsOnce : ∀ receiver chunk, (handle receiver chunk).CommitsOnce

/-- What a receiver does once the sink answered to the write of a chunk: the last one is committed. -/
def plainWritten (chunk : DataChunk) : Except Errno Unit → SinkCalls Nat
  | .error e => .abort (.done (.error e) 0)
  | .ok () =>
    if chunk.streamOffset + chunk.data.length ≠ chunk.streamSize then
      .done (.ok (chunk.answer false, false)) (chunk.streamOffset + chunk.data.length)
    else
      .commit fun
        | .error e => .abort (.done (.error e) 0)
        | .ok () => .done (.ok (chunk.answer true, true)) chunk.streamSize

/-- A receiver that takes the chunks of one stream in their order; its state is the next offset. -/
def plainHandle (nextOffset : Nat) (chunk : DataChunk) : SinkCalls Nat :=
  if chunk.streamOffset ≠ nextOffset then .done (.error .eproto) nextOffset
  else if nextOffset = 0 then
    .start chunk.streamSize fun
      | .error e => .done (.error e) 0
      | .ok () => .write 0 chunk.data (plainWritten chunk)
  else .write nextOffset chunk.data (plainWritten chunk)

theorem plainWritten_commitsOnce {chunk : DataChunk} (answer : Except Errno Unit) : (plainWritten chunk answer).CommitsOnce := by
  cases answer with
  | error e => trivial
  | ok =>
    by_cases hlast : chunk.streamOffset + chunk.data.length ≠ chunk.streamSize
    · simp only [plainWritten, if_pos hlast]
      trivial
    · simp only [plainWritten, if_neg hlast]
      exact ⟨⟨_, rfl⟩, fun _ => trivial⟩

@[reducible] def plainReceivers : DataReceivers where
  Receiver := Nat
  create _ _ := .ok 0
  handle := plainHandle
  commitsOnce := by
    intro nextOffset chunk
    unfold plainHandle
    split
    · trivial
    split
    · intro answer
      cases answer with
      | error e => trivial
      | ok => exact plainWritten_commitsOnce
    · exact plainWritten_commitsOnce

/-- The event a sink is writing: its size and what was written so far. -/
structure StagedEvent where
  size : Nat
  bytes : Bytes
deriving DecidableEq, Repr

/-- `flowie_cluster_publish_stream_sink_begin`; a refusal keeps what was staged. -/
def sinkBegin (maxEventBytes streamSize : Nat) (staged : Option StagedEvent) : Except Errno Unit × Option StagedEvent :=
  if streamSize = 0 ∨ streamSize > maxEventBytes then (.error .emsgsize, staged) else (.ok (), some ⟨streamSize, []⟩)

/-- `flowie_cluster_publish_stream_sink_write`. -/
def sinkWrite (offset : Nat) (data : Bytes) : Option StagedEvent → Except Errno Unit × Option StagedEvent
  | none => (.error .eproto, none)
  | some staged =>
    if offset ≠ staged.bytes.length ∨ data.length > staged.size - staged.bytes.length then (.error .eproto, some staged)
    else (.ok (), some { staged with bytes := staged.bytes ++ data })

section
variable [Vstr]

/-- `flowie_cluster_publish_stream_sink_commit`: the answer and the events the commit callback was given. -/
def sinkCommit (maxEventBytes : Nat) (commit : PublishEvent → Except Errno Unit) :
    Option StagedEvent → Except Errno Unit × List PublishEvent
  | none => (.error .eproto, [])
  | some staged =>
    if staged.bytes.length ≠ staged.size then (.error .eproto, [])
    else
      match publishEventDecode staged.bytes maxEventBytes with
      | .error e => (.error e, [])
      | .ok (event, _) => (commit event, [event])

/-- What the calls of a receiver come to. -/
structure SinkRun (σ : Type) where
  result : Except Errno (DataAck × Bool)
  receiver : σ
  staged : Option StagedEvent
  commits : List PublishEvent

def SinkCalls.run {σ : Type} (maxEventBytes : Nat) (commit : PublishEvent → Except Errno Unit) :
    SinkCalls σ → Option StagedEvent → SinkRun σ
  | .done result receiver, staged => ⟨result, receiver, staged, []⟩
  | .start streamSize next, staged =>
    let (answer, staged) := sinkBegin maxEventBytes streamSize staged
    (next answer).run maxEventBytes commit staged
  | .write offset data next, staged =>
    let (answer, staged) := sinkWrite offset data staged
    (next answer).run maxEventBytes commit staged
  | .commit next, staged =>
    let (answer, events) := sinkCommit maxEventBytes commit staged
    let rest := (next answer).run maxEventBytes commit staged
    { rest with commits := events ++ rest.commits }
  -- `flowie_cluster_publish_stream_sink_abort`
  | .abort next, _ => next.run maxEventBytes commit none

namespace SinkCalls

variable {σ : Type} {maxEventBytes : Nat} {commit : PublishEvent → Except Errno Unit} {calls : SinkCalls σ}

theorem NoCommit.run (h : calls.NoCommit) (staged : Option StagedEvent) :
    (calls.run maxEventBytes commit staged).commits = [] := by
  induction calls generalizing staged with
  | done result receiver => rfl
  | start streamSize next ih => exact ih _ (h _) _
  | write offset data next ih => exact ih _ (h _) _
  | commit next ih => exact h.elim
  | abort next ih => exact ih h none

theorem Committed.run (h : calls.Committed) (staged : Option StagedEvent) :
    (calls.run maxEventBytes commit staged).commits = [] ∧
      ∃ ack, (calls.run maxEventBytes commit staged).result = .ok (ack, true) := by
  induction calls generalizing staged with
  | done result receiver => exact ⟨rfl, h⟩
  | start streamSize next ih => exact ih _ (h _) _
  | write offset data next ih => exact ih _ (h _) _
  | commit next ih => exact h.elim
  | abort next ih => exact ih h none

/-- A chunk leads to no commit, or to one, and that one is reported when the callback made it. -/
theorem CommitsOnce.run (h : calls.CommitsOnce) (hcm : ∀ event, commit event = .ok ()) (staged : Option StagedEvent) :
    (calls.run maxEventBytes commit staged).commits = [] ∨
      ((calls.run maxEventBytes commit staged).commits.length = 1 ∧
        ∃ ack, (calls.run maxEventBytes commit staged).result = .ok (ack, true)) := by
  induction calls generalizing staged with
  | done result receiver => exact .inl rfl
  | start streamSize next ih => exact ih _ (h _) _
  | write offset data next ih => exact ih _ (h _) _
  | commit next ih =>
    obtain ⟨hok, herr⟩ := h
    -- the sink either fails before it calls back, or the callback answers
    have hanswer : (∃ e, sinkCommit maxEventBytes commit staged = (.error e, [])) ∨
        ∃ event, sinkCommit maxEventBytes commit staged = (.ok (), [event]) := by
      unfold sinkCommit
      split
      · exact .inl ⟨_, rfl⟩
      split
      · exact .inl ⟨_, rfl⟩
      split
      · exact .inl ⟨_, rfl⟩
      · rename_i event packet hdec
        exact .inr ⟨event, by rw [hcm]⟩
    rcases hanswer with ⟨e, hsink⟩ | ⟨event, hsink⟩
    · left
      simp only [SinkCalls.run, hsink]
      exact (herr e).run staged
    · right
      simp only [SinkCalls.run, hsink]
      obtain ⟨hnone, hack⟩ := Committed.run hok staged
      exact ⟨by rw [hnone]; rfl, hack⟩
  | abort next ih => exact ih h none

end SinkCalls

end

/-! ## The sender -/

structure StreamLabel where
  source : NodeId
  target : NodeId
  term : UInt64
  streamId : UInt64
  streamSize : Nat
  streamDigest : Bytes
deriving DecidableEq, Repr

def DataChunk.label (chunk : DataChunk) : StreamLabel :=
  ⟨chunk.source, chunk.target, chunk.term, chunk.streamId, chunk.streamSize, chunk.streamDigest⟩

def DataChunk.Last (chunk : DataChunk) : Prop := chunk.streamOffset + chunk.data.length = chunk.streamSize

instance (chunk : DataChunk) : Decidable chunk.Last := inferInstanceAs (Decidable (_ = _))

/-- The senders of TurboRaft; a call that fails leaves a sender as it was. A started sender has the label of its stream
and waits for the chunks it handed out that are neither acknowledged nor cancelled. It takes the answer to the oldest of
them, and the youngest can be cancelled. -/
class DataSenders where
  Created : Type
  Sender : Type
  maxChunkBytes : Nat
  maxStreamBytes : Nat
  recommendedInflight : Nat
  digest : Bytes → Bytes
  create (selfId peerId : NodeId) (maxStreamBytes chunkSize maxInflight : Nat) : Except Errno Created
  start (created : Created) (term streamId : UInt64) (data : Bytes) : Except Errno Sender
  next (sender : Sender) : Except Errno (DataChunk × Sender)
  acknowledge (sender : Sender) (ack : DataAck) : Except Errno Sender
  cancel (sender : Sender) (streamOffset : Nat) : Except Errno Sender
  label : Sender → StreamLabel
  waiting : Sender → List DataChunk
  /-- How many chunks it can still hand out before an answer comes. -/
  room : Sender → Nat
  started : ∀ {selfId peerId size chunkSize inflight created term streamId data sender},
    create selfId peerId size chunkSize inflight = .ok created → start created term streamId data = .ok sender →
      label sender = ⟨selfId, peerId, term, streamId, data.length, digest data⟩ ∧ waiting sender = []
  next_ok : ∀ {sender chunk taken}, next sender = .ok (chunk, taken) → chunk.label = label sender ∧ label taken = label sender ∧
    waiting taken = waiting sender ++ [chunk] ∧ room taken < room sender
  next_refused : ∀ {sender e}, next sender = .error e → e = .ebusy ∨ e = .enoent
  cancel_youngest : ∀ {sender rest chunk}, waiting sender = rest ++ [chunk] →
    ∃ cancelled, cancel sender chunk.streamOffset = .ok cancelled ∧ label cancelled = label sender ∧ waiting cancelled = rest
  acknowledge_oldest : ∀ {sender chunk rest durable}, waiting sender = chunk :: rest → (durable = true → chunk.Last) →
    ∃ answered, acknowledge sender (chunk.answer durable) = .ok answered ∧ waiting answered = rest
  acknowledge_ok : ∀ {sender ack answered}, acknowledge sender ack = .ok answered → label answered = label sender

open DataSenders

inductive SenderPhase where
  | fresh | waiting | answered

structure PlainSender where
  label : StreamLabel
  stream : Bytes
  phase : SenderPhase

namespace PlainSender

def chunk (sender : PlainSender) : DataChunk :=
  ⟨sender.label.source, sender.label.target, sender.label.term, sender.label.streamId, sender.label.streamSize, 0,
    sender.label.streamDigest, sender.stream⟩

def waiting (sender : PlainSender) : List DataChunk :=
  match sender.phase with
  | .waiting => [sender.chunk]
  | _ => []

def next (sender : PlainSender) : Except Errno (DataChunk × PlainSender) :=
  match sender.phase with
  | .fresh => .ok (sender.chunk, { sender with phase := .waiting })
  | _ => .error .enoent

def cancel (sender : PlainSender) : Except Errno PlainSender :=
  match sender.phase with
  | .waiting => .ok { sender with phase := .fresh }
  | _ => .error .enoent

def acknowledge (sender : PlainSender) (ack : DataAck) : Except Errno PlainSender :=
  match sender.phase with
  | .waiting => if ack ≠ sender.chunk.answer ack.durable then .error .eproto else .ok { sender with phase := .answered }
  | _ => .error .eproto

end PlainSender

@[reducible] def plainSenders : DataSenders where
  Created := NodeId × NodeId
  Sender := PlainSender
  maxChunkBytes := 65536
  maxStreamBytes := 1048576
  recommendedInflight := 4
  digest _ := []
  create selfId peerId _ _ _ := .ok (selfId, peerId)
  start created term streamId data := .ok ⟨⟨created.1, created.2, term, streamId, data.length, []⟩, data, .fresh⟩
  next := PlainSender.next
  acknowledge := PlainSender.acknowledge
  cancel sender _ := sender.cancel
  label := PlainSender.label
  waiting := PlainSender.waiting
  room sender := match sender.phase with
    | .fresh => 1
    | _ => 0
  started := by
    intro selfId peerId size chunkSize inflight created term streamId data sender hcr hstart
    cases hcr
    cases hstart
    exact ⟨rfl, rfl⟩
  next_ok := by
    rintro ⟨label, stream, phase⟩ chunk taken h
    cases phase <;> cases h
    exact ⟨rfl, rfl, rfl, Nat.zero_lt_one⟩
  next_refused := by
    rintro ⟨label, stream, phase⟩ e h
    cases phase <;> cases h <;> exact .inr rfl
  cancel_youngest := by
    rintro ⟨label, stream, phase⟩ rest chunk hwaiting
    cases phase with
    | waiting =>
      obtain rfl : rest = [] := by simpa [PlainSender.waiting] using congrArg List.length hwaiting
      exact ⟨_, rfl, rfl, rfl⟩
    | _ => exact absurd hwaiting (by simp [PlainSender.waiting])
  acknowledge_oldest := by
    rintro ⟨label, stream, phase⟩ chunk rest durable hwaiting _
    cases phase with
    | waiting =>
      cases hwaiting
      exact ⟨_, if_neg (by simp [DataChunk.answer]), rfl⟩
    | _ => cases hwaiting
  acknowledge_ok := by
    rintro ⟨label, stream, phase⟩ ack answered h
    cases phase with
    | waiting =>
      obtain ⟨-, h⟩ := Checks.ite_error_eq_ok.1 h
      cases h
      rfl
    | _ => cases h

/-- A sender of this repository before it begins a stream. -/
structure CreatedSender [DataSenders] where
  stream : Created
  maxEventBytes : Nat

/-- `flowie_cluster_publish_stream_sender_config_t`. -/
structure PublishSenderConfig where
  selfId : NodeId
  peerId : NodeId
  maxEventBytes : Nat
  chunkSize : Nat
  maxInflightChunks : Nat

section
variable [DataSenders]

/-- `flowie_cluster_publish_stream_sender_create`; zero asks for the default of the library. -/
def publishSenderCreate (config : PublishSenderConfig) : Except Errno CreatedSender :=
  if config.selfId = 0 ∨ config.peerId = 0 ∨ config.selfId = config.peerId ∨ config.maxEventBytes = 0 ∨
      config.maxEventBytes > maxStreamBytes then .error .einval
  else
    match create config.selfId config.peerId config.maxEventBytes
        (if config.chunkSize ≠ 0 then config.chunkSize else maxChunkBytes)
        (if config.maxInflightChunks ≠ 0 then config.maxInflightChunks else recommendedInflight) with
    | .error e => .error e
    | .ok stream => .ok ⟨stream, config.maxEventBytes⟩

/-- `flowie_cluster_publish_stream_sender_begin`. -/
def publishSenderBegin [Vstr] (sender : CreatedSender) (term streamId : UInt64) (event : Bytes) : Except Errno Sender :=
  if term = 0 ∨ streamId = 0 ∨ event.length = 0 ∨ event.length > sender.maxEventBytes then .error .einval
  else
    match publishEventDecode event sender.maxEventBytes with
    | .error e => .error e
    | .ok _ => start sender.stream term streamId event

theorem publishSender_started [Vstr] {config : PublishSenderConfig} {created : CreatedSender} {sender : Sender}
    {term streamId : UInt64} {event : Bytes} (hcr : publishSenderCreate config = .ok created)
    (hbeg : publishSenderBegin created term streamId event = .ok sender) :
    label sender = ⟨config.selfId, config.peerId, term, streamId, event.length, digest event⟩ ∧
      waiting sender = [] := by
  obtain ⟨-, hcr⟩ := Checks.ite_error_eq_ok.1 hcr
  obtain ⟨-, hbeg⟩ := Checks.ite_error_eq_ok.1 hbeg
  split at hcr
  · cases hcr
  rename_i stream hstm
  cases hcr
  split at hbeg
  · cases hbeg
  exact started hstm hbeg

end

/-! ## The quorum -/

/-- `tr_raft_conf_member_t`. -/
structure ConfMember where
  nodeId : NodeId
  oldVoter : Bool
  newVoter : Bool
deriving DecidableEq, Repr

/-- `tr_raft_conf_t`: a node is a member once. -/
structure Configuration where
  members : List ConfMember
  distinct : (members.map ConfMember.nodeId).Nodup

/-- `tr_raft_data_quorum_config_t`. -/
structure QuorumConfig where
  selfId : NodeId
  term : UInt64
  configuration : Configuration
  streamId : UInt64
  streamSize : Nat
  streamDigest : Bytes

/-- The stream of a quorum as one of the followers gets it. -/
def QuorumConfig.label (config : QuorumConfig) (target : NodeId) : StreamLabel :=
  ⟨config.selfId, target, config.term, config.streamId, config.streamSize, config.streamDigest⟩

/-- The quorums of TurboRaft; a call that fails leaves a quorum as it was. A quorum takes the durable answer of each
other member, and makes a proposal or says that too few nodes have answered. -/
class DataQuorums where
  Quorum : Type
  create (config : QuorumConfig) : Except Errno Quorum
  markLocalDurable (quorum : Quorum) : Except Errno Quorum
  acknowledge (quorum : Quorum) (ack : DataAck) : Except Errno Quorum
  makeProposal (quorum : Quorum) (commandId : UInt64) : Except Errno Proposal
  config : Quorum → QuorumConfig
  created : ∀ {asked quorum}, create asked = .ok quorum → config quorum = asked
  marked : ∀ {quorum quorum'}, markLocalDurable quorum = .ok quorum' → config quorum' = config quorum
  acknowledge_answer : ∀ {quorum} {chunk : DataChunk}, chunk.label = (config quorum).label chunk.target → chunk.Last →
    chunk.target ∈ (config quorum).configuration.members.map ConfMember.nodeId → chunk.target ≠ (config quorum).selfId →
      ∃ quorum', acknowledge quorum (chunk.answer true) = .ok quorum' ∧ config quorum' = config quorum
  proposal_refused : ∀ {quorum commandId e}, commandId ≠ 0 → makeProposal quorum commandId = .error e → e = .ebusy

/-- A quorum that knows which nodes hold the stream. -/
structure PlainQuorum where
  config : QuorumConfig
  durable : List NodeId

namespace PlainQuorum

/-- A majority of the members holds the stream. -/
def reached (quorum : PlainQuorum) : Bool :=
  let members := quorum.config.configuration.members
  2 * (members.filter fun member => member.nodeId ∈ quorum.durable).length > members.length

def acknowledge (quorum : PlainQuorum) (ack : DataAck) : Except Errno PlainQuorum :=
  if ack.target ≠ quorum.config.selfId ∨ ack.streamId ≠ quorum.config.streamId ∨
      ack.source ∉ quorum.config.configuration.members.map ConfMember.nodeId then .error .eproto
  else .ok { quorum with durable := ack.source :: quorum.durable }

def makeProposal (quorum : PlainQuorum) (commandId : UInt64) : Except Errno Proposal :=
  if quorum.reached then .ok ⟨commandId, quorum.config.streamDigest⟩ else .error .ebusy

end PlainQuorum

@[reducible] def plainQuorums : DataQuorums where
  Quorum := PlainQuorum
  create config := .ok ⟨config, []⟩
  markLocalDurable quorum := .ok { quorum with durable := quorum.config.selfId :: quorum.durable }
  acknowledge := PlainQuorum.acknowledge
  makeProposal := PlainQuorum.makeProposal
  config := PlainQuorum.config
  created := by
    intro asked quorum h
    cases h
    rfl
  marked := by
    intro quorum quorum' h
    cases h
    rfl
  acknowledge_answer := by
    intro quorum chunk hlab _ hmbr _
    refine ⟨{ quorum with durable := chunk.target :: quorum.durable }, ?_, rfl⟩
    have hsource : chunk.source = quorum.config.selfId := congrArg StreamLabel.source hlab
    have hstm : chunk.streamId = quorum.config.streamId := congrArg StreamLabel.streamId hlab
    exact if_neg (by simp [DataChunk.answer, hsource, hstm, hmbr])
  proposal_refused := by
    intro quorum commandId e _ h
    unfold PlainQuorum.makeProposal at h
    split_ifs at h
    · cases h
      rfl

section
variable [DataQuorums]

def DataChunk.quorumConfig (chunk : DataChunk) (selfId : NodeId) (configuration : Configuration) : QuorumConfig :=
  ⟨selfId, chunk.term, configuration, chunk.streamId, chunk.streamSize, chunk.streamDigest⟩

/-- `flowie_cluster_publish_quorum_create`. -/
def publishQuorumCreate (selfId : NodeId) (configuration : Configuration) (firstChunk : DataChunk) :
    Except Errno DataQuorums.Quorum :=
  if selfId = 0 ∨ firstChunk.source ≠ selfId ∨ firstChunk.term = 0 ∨ firstChunk.streamId = 0 ∨ firstChunk.streamOffset ≠ 0 ∨
      firstChunk.streamSize = 0 then .error .einval
  else DataQuorums.create (firstChunk.quorumConfig selfId configuration)

/-- `flowie_cluster_publish_quorum_make_proposal`. -/
def publishQuorumMakeProposal (quorum : DataQuorums.Quorum) (commandId : UInt64) : Except Errno Proposal :=
  if commandId = 0 then .error .einval else DataQuorums.makeProposal quorum commandId

end

end Flowie.Cluster
