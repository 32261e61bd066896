import Flowie.Cluster.DataStream
import Flowie.Lib.KeyedList

/-!
# A stream a leader sends

`flowie_cluster_publish_egress.c`: one sender for each other member of the configuration and one quorum, which is made
with the first chunk. A chunk that the enqueue callback refuses is cancelled at its sender, so the chunks a sender waits
for are those that were handed over and have no answer (`Egress.Sends`); in that state the answer to the oldest of them
is taken whatever the other legs have done (`egressAcknowledge_answer`).
-/

namespace Flowie.Cluster

open List Option DataSenders StreamLabel KeyedList Mqtt

section
variable [DataSenders] [DataQuorums]

/-- `flowie_cluster_publish_egress_config_t` without its callback. -/
structure EgressConfig where
  selfId : NodeId
  term : UInt64
  streamId : UInt64
  configuration : Configuration
  maxEventBytes : Nat
  chunkSize : Nat
  maxInflightChunks : Nat

/-- `flowie_cluster_publish_egress_leg_t`. -/
structure EgressLeg where
  peerId : NodeId
  sender : Sender

/-- `flowie_cluster_publish_egress_t`. -/
structure Egress where
  config : EgressConfig
  event : Bytes
  legs : List EgressLeg
  quorum : Option DataQuorums.Quorum
  localDurable : Bool

/-! ## Creating -/

/-- The loop of `flowie_cluster_publish_egress_create` over the members. -/
def egressLegs [Vstr] (config : EgressConfig) (event : Bytes) : List ConfMember → Except Errno (List EgressLeg)
  | [] => .ok []
  | member :: rest =>
    if member.nodeId = config.selfId then egressLegs config event rest
    else
      match publishSenderCreate ⟨config.selfId, member.nodeId, config.maxEventBytes, config.chunkSize, config.maxInflightChunks⟩ with
      | .error e => .error e
      | .ok created =>
        match publishSenderBegin created config.term config.streamId event with
        | .error e => .error e
        | .ok sender =>
          match egressLegs config event rest with
          | .error e => .error e
          | .ok legs => .ok (⟨member.nodeId, sender⟩ :: legs)

/-- `flowie_cluster_publish_egress_create`. -/
def egressCreate [Vstr] (config : EgressConfig) (event : Bytes) : Except Errno Egress :=
  if config.selfId = 0 ∨ config.term = 0 ∨ config.streamId = 0 ∨ config.configuration.members = [] ∨ config.maxEventBytes = 0 ∨
      event.length > config.maxEventBytes then .error .einval
  else
    match egressLegs config event config.configuration.members with
    | .error e => .error e
    | .ok legs =>
      let selfCount := config.configuration.members.countP fun member => member.nodeId = config.selfId
      if selfCount ≠ 1 ∨ legs.isEmpty then .error .einval else .ok ⟨config, event, legs, none, false⟩

variable (egress : Egress)

/-- `flowie_cluster_publish_egress_mark_local_durable`. -/
def egressMarkLocalDurable : Except Errno Unit × Egress :=
  match egress.quorum with
  | none => (.ok (), { egress with localDurable := true })
  | some quorum =>
    match DataQuorums.markLocalDurable quorum with
    | .error e => (.error e, { egress with localDurable := false })
    | .ok marked => (.ok (), { egress with localDurable := true, quorum := some marked })

/-! ## Pumping -/

/-- The quorum a chunk is sent under: the first chunk makes it. -/
def egressQuorum (chunk : DataChunk) : Except Errno Unit × Egress :=
  match egress.quorum with
  | some _ => (.ok (), egress)
  | none =>
    match publishQuorumCreate egress.config.selfId egress.config.configuration chunk with
    | .error e => (.error e, egress)
    | .ok created =>
      if egress.localDurable then
        match DataQuorums.markLocalDurable created with
        | .error e => (.error e, { egress with quorum := some created })
        | .ok marked => (.ok (), { egress with quorum := some marked })
      else (.ok (), { egress with quorum := some created })

def Egress.setSender (index : Nat) (leg : EgressLeg) (sender : Sender) : Egress :=
  { egress with legs := egress.legs.set index { leg with sender } }

/-- The chunk was not handed over: the error of the cancel, where it fails. -/
def egressCancel (index : Nat) (leg : EgressLeg) (taken : Sender) (chunk : DataChunk) :
    Option Errno × Egress :=
  match cancel taken chunk.streamOffset with
  | .error e => (some e, egress)
  | .ok cancelled => (none, egress.setSender index leg cancelled)

structure EgressCall where
  result : Except Errno Unit
  egress : Egress
  sent : List DataChunk

/-- The loop of `flowie_cluster_publish_egress_pump_leg`. The answer to the n-th call of the enqueue callback is
`enqueue n`; a refused call ends the loop, so `sent` counts the calls. -/
def pumpLegLoop (enqueue : Nat → Except Errno Unit) (index : Nat) : Nat → Egress → List DataChunk → EgressCall
  | 0, egress, sent => ⟨.error .ebusy, egress, sent⟩
  | fuel + 1, egress, sent =>
    match egress.legs[index]? with
    | none => ⟨.ok (), egress, sent⟩
    | some leg =>
      match DataSenders.next leg.sender with
      | .error e => ⟨if e = .ebusy ∨ e = .enoent then .ok () else .error e, egress, sent⟩
      | .ok (chunk, taken) =>
        match egressQuorum (egress.setSender index leg taken) chunk with
        | (.error e, egress) => ⟨.error e, (egressCancel egress index leg taken chunk).2, sent⟩
        | (.ok (), egress) =>
          match enqueue sent.length with
          | .error e =>
            ⟨.error ((egressCancel egress index leg taken chunk).1.getD e), (egressCancel egress index leg taken chunk).2, sent⟩
          | .ok () => pumpLegLoop enqueue index fuel egress (sent ++ [chunk])

/-- The rounds a leg can go before its sender has no room. -/
def Egress.room (egress : Egress) (index : Nat) : Nat := (egress.legs[index]?.map fun leg => DataSenders.room leg.sender).getD 0

/-- `flowie_cluster_publish_egress_pump_leg`: each round takes a chunk, so the loop ends. -/
def pumpLeg (enqueue : Nat → Except Errno Unit) (index : Nat) (egress : Egress) (sent : List DataChunk) : EgressCall :=
  pumpLegLoop enqueue index (egress.room index + 1) egress sent

/-- The loop of `flowie_cluster_publish_egress_pump` over the places of the legs. -/
def pumpLegs (enqueue : Nat → Except Errno Unit) : List Nat → Egress → List DataChunk → EgressCall
  | [], egress, sent => ⟨.ok (), egress, sent⟩
  | index :: rest, egress, sent =>
    let call := pumpLeg enqueue index egress sent
    match call.result with
    | .error _ => call
    | .ok () => pumpLegs enqueue rest call.egress call.sent

/-- `flowie_cluster_publish_egress_pump`. -/
def egressPump (enqueue : Nat → Except Errno Unit) (egress : Egress) (sent : List DataChunk) : EgressCall :=
  pumpLegs enqueue (List.range egress.legs.length) egress sent

/-! ## Acknowledging -/

/-- A durable answer counts for the quorum. -/
def egressCount (egress : Egress) (ack : DataAck) : Except Errno Egress :=
  if ack.durable then
    match egress.quorum with
    | none => .error .eproto
    | some quorum =>
      match DataQuorums.acknowledge quorum ack with
      | .error e => .error e
      | .ok counted => .ok { egress with quorum := some counted }
  else .ok egress

/-- `flowie_cluster_publish_egress_acknowledge`. -/
def egressAcknowledge (enqueue : Nat → Except Errno Unit) (egress : Egress) (ack : DataAck) : EgressCall :=
  if ack.target ≠ egress.config.selfId ∨ ack.term ≠ egress.config.term ∨ ack.streamId ≠ egress.config.streamId then
    ⟨.error .einval, egress, []⟩
  else
    match KeyedList.lookupIdx EgressLeg.peerId ack.source egress.legs with
    | none => ⟨.error .enoent, egress, []⟩
    | some (index, leg) =>
      match acknowledge leg.sender ack with
      | .error e => ⟨.error e, egress, []⟩
      | .ok answered =>
        match egressCount (egress.setSender index leg answered) ack with
        | .error e => ⟨.error e, egress.setSender index leg answered, []⟩
        | .ok counted => pumpLeg enqueue index counted []

/-- `flowie_cluster_publish_egress_make_proposal`. -/
def egressMakeProposal (egress : Egress) (commandId : UInt64) : Except Errno Proposal :=
  match egress.quorum with
  | none => .error .ebusy
  | some quorum => publishQuorumMakeProposal quorum commandId

/-! ## Chunks handed over and not answered -/

def Egress.quorumConfig (egress : Egress) : QuorumConfig :=
  ⟨egress.config.selfId, egress.config.term, egress.config.configuration, egress.config.streamId, egress.event.length,
    digest egress.event⟩

def chunksTo (peerId : NodeId) (chunks : List DataChunk) : List DataChunk := chunks.filter fun chunk => chunk.target = peerId

/-- The unanswered chunks of a stream are what its senders wait for. -/
structure Egress.Sends (egress : Egress) (unanswered : List DataChunk) : Prop where
  peers : (egress.legs.map EgressLeg.peerId).Nodup
  members : ∀ leg ∈ egress.legs, leg.peerId ∈ egress.config.configuration.members.map ConfMember.nodeId ∧
    leg.peerId ≠ egress.config.selfId
  labels : ∀ leg ∈ egress.legs, label leg.sender = egress.quorumConfig.label leg.peerId
  waits : ∀ leg ∈ egress.legs, waiting leg.sender = chunksTo leg.peerId unanswered
  counts : ∀ quorum, egress.quorum = some quorum → DataQuorums.config quorum = egress.quorumConfig
  owned : ∀ chunk ∈ unanswered, chunk.target ∈ egress.legs.map EgressLeg.peerId ∧
    chunk.label = egress.quorumConfig.label chunk.target

variable {egress : Egress} {unanswered unanswered' : List DataChunk} {chunk : DataChunk} {index : Nat} {leg : EgressLeg}
  {sender : Sender}

theorem Egress.getElem?_setSender (hget : egress.legs[index]? = some leg) :
    (egress.setSender index leg sender).legs[index]? = some { leg with sender } :=
  List.getElem?_set_self (List.getElem?_eq_some_iff.1 hget).1

/-- One sender goes on and the others wait for what they waited for. -/
theorem Egress.Sends.setSender (h : egress.Sends unanswered) (hget : egress.legs[index]? = some leg)
    (hlab : label sender = label leg.sender) (hwaits : waiting sender = chunksTo leg.peerId unanswered')
    (hoths : ∀ peerId, peerId ≠ leg.peerId → chunksTo peerId unanswered' = chunksTo peerId unanswered)
    (howned : ∀ chunk ∈ unanswered', chunk ∈ unanswered ∨ chunk.label = egress.quorumConfig.label leg.peerId) :
    (egress.setSender index leg sender).Sends unanswered' := by
  have hleg := mem_of_getElem? hget
  have hpeers : (egress.setSender index leg sender).legs.map EgressLeg.peerId = egress.legs.map EgressLeg.peerId :=
    map_set_of_key hget rfl
  have hcases : ∀ other ∈ (egress.setSender index leg sender).legs,
      other = { leg with sender } ∨ other ∈ egress.legs ∧ other.peerId ≠ leg.peerId := fun other hmem =>
    mem_set_cases h.peers hget hmem
  refine ⟨hpeers ▸ h.peers, ?_, ?_, ?_, h.counts, ?_⟩
  · intro other hmem
    rcases hcases other hmem with rfl | ⟨hold, -⟩
    · exact h.members leg hleg
    · exact h.members other hold
  · intro other hmem
    rcases hcases other hmem with rfl | ⟨hold, -⟩
    · exact hlab.trans (h.labels leg hleg)
    · exact h.labels other hold
  · intro other hmem
    rcases hcases other hmem with rfl | ⟨hold, hne⟩
    · exact hwaits
    · rw [hoths _ hne]
      exact h.waits other hold
  · intro chunk hmem
    rw [hpeers]
    rcases howned chunk hmem with hold | hnew
    · exact h.owned chunk hold
    have htgt : chunk.target = leg.peerId := congrArg target hnew
    rw [htgt]
    exact ⟨mem_map_of_mem hleg, hnew⟩

omit [DataSenders] [DataQuorums] in
theorem chunksTo_append (peerId : NodeId) (chunks more : List DataChunk) :
    chunksTo peerId (chunks ++ more) = chunksTo peerId chunks ++ chunksTo peerId more := filter_append ..

omit [DataSenders] [DataQuorums] in
theorem chunksTo_singleton (peerId : NodeId) : chunksTo peerId [chunk] = if chunk.target = peerId then [chunk] else [] := by
  by_cases h : chunk.target = peerId
  · simp [chunksTo, h]
  · simp [chunksTo, h]

variable {taken : Sender}

/-- A chunk is taken from a sender. -/
theorem Egress.Sends.take (h : egress.Sends unanswered) (hget : egress.legs[index]? = some leg)
    (hnext : DataSenders.next leg.sender = .ok (chunk, taken)) :
    (egress.setSender index leg taken).Sends (unanswered ++ [chunk]) := by
  have hleg := mem_of_getElem? hget
  obtain ⟨hlab, hsame, hwaits, -⟩ := next_ok hnext
  rw [h.labels leg hleg] at hlab
  have htgt : chunk.target = leg.peerId := congrArg target hlab
  refine h.setSender hget hsame ?_ (fun peerId hne => ?_) fun other hmem => ?_
  · rw [hwaits, h.waits leg hleg, chunksTo_append, chunksTo_singleton, if_pos htgt]
  · rw [chunksTo_append, chunksTo_singleton, if_neg (fun heq : chunk.target = peerId => hne (heq ▸ htgt)), append_nil]
  rcases List.mem_append.1 hmem with hold | hlast
  · exact .inl hold
  · exact .inr (List.mem_singleton.1 hlast ▸ hlab)

/-- A chunk that was taken and not handed over is cancelled. -/
theorem Egress.Sends.cancel (h : egress.Sends (unanswered ++ [chunk]))
    (hget : egress.legs[index]? = some { leg with sender := taken }) (htgt : chunk.target = leg.peerId) :
    (egressCancel egress index leg taken chunk).2.Sends unanswered ∧ (egressCancel egress index leg taken chunk).1 = none := by
  have hwaits := h.waits _ (mem_of_getElem? hget)
  rw [chunksTo_append, chunksTo_singleton, if_pos htgt] at hwaits
  obtain ⟨cancelled, hcan, hlab, hrest⟩ := cancel_youngest hwaits
  simp only [egressCancel, hcan, and_true]
  have hoths : ∀ peerId, peerId ≠ leg.peerId → chunksTo peerId unanswered = chunksTo peerId (unanswered ++ [chunk]) := by
    intro peerId hne
    rw [chunksTo_append, chunksTo_singleton, if_neg (fun heq : chunk.target = peerId => hne (heq ▸ htgt)), append_nil]
  have hset := h.setSender hget hlab hrest hoths fun other hmem => .inl (mem_append_left _ hmem)
  exact hset

/-- The quorum is made for the stream, and nothing else of the egress changes. -/
theorem egressQuorum_cases :
    ∃ quorum, (egressQuorum egress chunk).2 = { egress with quorum } ∧
      ((egressQuorum egress chunk).1 = .ok () → quorum.isSome) ∧
      (egress.quorum.isSome → (egressQuorum egress chunk).1 = .ok ()) ∧
      ∀ known, quorum = some known →
        egress.quorum = some known ∨ DataQuorums.config known = chunk.quorumConfig egress.config.selfId egress.config.configuration := by
  obtain ⟨config, event, legs, quorum, localDurable⟩ := egress
  cases quorum with
  | some known => exact ⟨some known, rfl, fun _ => rfl, fun _ => rfl, fun _ h => .inl h⟩
  | none =>
    unfold egressQuorum
    cases hcr : publishQuorumCreate config.selfId config.configuration chunk with
    | error e => exact ⟨none, rfl, (fun h => nomatch h), (fun h => nomatch h), fun _ h => nomatch h⟩
    | ok created =>
      obtain ⟨-, hcr⟩ := Checks.ite_error_eq_ok.1 hcr
      have hmk := DataQuorums.created hcr
      dsimp only
      split
      · cases hmark : DataQuorums.markLocalDurable created with
        | error e => exact ⟨_, rfl, fun _ => rfl, (fun h => nomatch h), fun _ h => .inr (Option.some.inj h ▸ hmk)⟩
        | ok marked =>
          exact ⟨_, rfl, fun _ => rfl, (fun h => nomatch h),
            fun _ h => .inr (Option.some.inj h ▸ (DataQuorums.marked hmark).trans hmk)⟩
      · exact ⟨_, rfl, fun _ => rfl, (fun h => nomatch h), fun _ h => .inr (Option.some.inj h ▸ hmk)⟩

theorem Egress.Sends.setQuorum (h : egress.Sends unanswered) (quorum : Option DataQuorums.Quorum)
    (hcounts : ∀ known, quorum = some known → DataQuorums.config known = egress.quorumConfig) :
    ({ egress with quorum } : Egress).Sends unanswered := ⟨h.peers, h.members, h.labels, h.waits, hcounts, h.owned⟩

theorem Egress.quorumConfig_of_label {peerId : NodeId} (hlab : chunk.label = egress.quorumConfig.label peerId) :
    chunk.quorumConfig egress.config.selfId egress.config.configuration = egress.quorumConfig := by
  have hterm : chunk.term = egress.config.term := congrArg term hlab
  have hstm : chunk.streamId = egress.config.streamId := congrArg streamId hlab
  have hsize : chunk.streamSize = egress.event.length := congrArg streamSize hlab
  have hdigest : chunk.streamDigest = digest egress.event := congrArg streamDigest hlab
  rw [DataChunk.quorumConfig, Egress.quorumConfig, hterm, hstm, hsize, hdigest]

theorem egressCancel_rest :
    (egressCancel egress index leg taken chunk).2.config = egress.config ∧
      (egressCancel egress index leg taken chunk).2.quorum = egress.quorum := by
  unfold egressCancel
  split <;> exact ⟨rfl, rfl⟩

/-- A call handed `more` over, under a quorum. -/
structure EgressCall.Hands (call : EgressCall) (egress : Egress) (unanswered sent more : List DataChunk) : Prop where
  sent : call.sent = sent ++ more
  config : call.egress.config = egress.config
  sends : call.egress.Sends (unanswered ++ more)
  counted : call.egress.quorum = none → egress.quorum = none ∧ more = []

variable (enqueue : Nat → Except Errno Unit)

/-- The loop goes on until the sender has no chunk to hand out, and is stopped only by the enqueue callback or the first
chunk's quorum. -/
theorem pumpLegLoop_hands {fuel : Nat} (hfuel : egress.room index < fuel)
    (h : egress.Sends unanswered) (sent : List DataChunk) :
    ∃ more, (pumpLegLoop enqueue index fuel egress sent).Hands egress unanswered sent more ∧
      (egress.quorum.isSome → (∀ n, enqueue n = .ok ()) → (pumpLegLoop enqueue index fuel egress sent).result = .ok ()) := by
  induction fuel generalizing egress unanswered sent with
  | zero => exact absurd hfuel (Nat.not_lt_zero _)
  | succ fuel ih =>
    have hnothing : ∀ {result : Except Errno Unit}, EgressCall.Hands ⟨result, egress, sent⟩ egress unanswered sent [] :=
      ⟨(append_nil _).symm, rfl, (append_nil unanswered).symm ▸ h, fun hnone => ⟨hnone, rfl⟩⟩
    rw [pumpLegLoop]
    cases hget : egress.legs[index]? with
    | none => exact ⟨[], hnothing, fun _ _ => rfl⟩
    | some leg =>
      dsimp only
      cases hnext : DataSenders.next leg.sender with
      | error e => exact ⟨[], hnothing, fun _ _ => if_pos (next_refused hnext)⟩
      | ok taken =>
        obtain ⟨chunk, taken⟩ := taken
        obtain ⟨hlab, -, -, hroom⟩ := next_ok hnext
        rw [h.labels leg (mem_of_getElem? hget)] at hlab
        have htkn := h.take hget hnext
        obtain ⟨quorum, hmade, hthere, hgoes, hfrom⟩ := egressQuorum_cases
        dsimp only
        generalize egressQuorum (egress.setSender index leg taken) chunk = call at hmade hthere hgoes ⊢
        obtain ⟨result, made⟩ := call
        subst hmade
        have hcounts : ∀ known, quorum = some known → DataQuorums.config known = egress.quorumConfig := fun known hkn =>
          (hfrom known hkn).elim (h.counts known) fun hmk => hmk.trans (Egress.quorumConfig_of_label hlab)
        have hsends := htkn.setQuorum quorum hcounts
        have hleg : ({ egress.setSender index leg taken with quorum } : Egress).legs[index]? = some { leg with sender := taken } :=
          Egress.getElem?_setSender hget
        obtain ⟨hcancelled, hnone⟩ := hsends.cancel hleg (congrArg target hlab)
        have hkept : quorum = none → egress.quorum = none := fun habs => by
          cases hquo : egress.quorum with
          | none => rfl
          | some known => exact absurd (hthere (hgoes (by rw [Egress.setSender, hquo]; rfl))) (by simp [habs])
        have hcan : ∀ {result : Except Errno Unit}, EgressCall.Hands
            ⟨result, (egressCancel { egress.setSender index leg taken with quorum } index leg taken chunk).2, sent⟩
            egress unanswered sent [] := by
          obtain ⟨hcfg, hquo⟩ := egressCancel_rest
          exact ⟨(append_nil _).symm, hcfg, (append_nil unanswered).symm ▸ hcancelled,
            fun habs => ⟨hkept (hquo.symm.trans habs), rfl⟩⟩
        cases result with
        | error e => exact ⟨[], hcan, fun hsome _ => nomatch hgoes hsome⟩
        | ok =>
          cases henqueue : enqueue sent.length with
          | error e => exact ⟨[], hcan, fun _ hall => nomatch henqueue.symm.trans (hall _)⟩
          | ok =>
            have hless : ({ egress.setSender index leg taken with quorum } : Egress).room index < fuel := by
              rw [Egress.room, hget, map_some, getD_some] at hfuel
              rw [Egress.room, hleg, map_some, getD_some]
              exact Nat.lt_of_lt_of_le hroom (Nat.le_of_lt_succ hfuel)
            obtain ⟨more, hands, hres⟩ := ih hless hsends (sent ++ [chunk])
            refine ⟨chunk :: more, ⟨?_, hands.config, ?_, fun habs => ?_⟩, fun _ => hres (hthere rfl)⟩
            · rw [hands.sent, append_assoc]
              rfl
            · have hmore := hands.sends
              rw [append_assoc] at hmore
              exact hmore
            · have hgone : quorum = none := (hands.counted habs).1
              exact absurd (hthere rfl) (by simp [hgone])

theorem pumpLegs_hands (indices : List Nat) (h : egress.Sends unanswered)
    (sent : List DataChunk) : ∃ more, (pumpLegs enqueue indices egress sent).Hands egress unanswered sent more := by
  induction indices generalizing egress unanswered sent with
  | nil => exact ⟨[], (append_nil _).symm, rfl, (append_nil unanswered).symm ▸ h, fun hnone => ⟨hnone, rfl⟩⟩
  | cons index rest ih =>
    obtain ⟨more, hands, -⟩ := pumpLegLoop_hands enqueue (Nat.lt_succ_self (egress.room index)) h sent
    rw [← pumpLeg] at hands
    rw [pumpLegs]
    generalize pumpLeg enqueue index egress sent = call at hands ⊢
    cases call.result with
    | error e => exact ⟨more, hands⟩
    | ok =>
      obtain ⟨others, hrest⟩ := ih hands.sends call.sent
      refine ⟨more ++ others, ?_, hrest.config.trans hands.config, ?_, fun hnone => ?_⟩
      · rw [hrest.sent, hands.sent, append_assoc]
      · rw [← append_assoc]
        exact hrest.sends
      obtain ⟨hnone, rfl⟩ := hrest.counted hnone
      obtain ⟨hnone, rfl⟩ := hands.counted hnone
      exact ⟨hnone, rfl⟩

variable {config : EgressConfig} {event : Bytes}

omit [DataQuorums] in
theorem egressLegs_eq_ok [Vstr] {members : List ConfMember} {legs : List EgressLeg}
    (h : egressLegs config event members = .ok legs) :
    legs.map EgressLeg.peerId = (members.map ConfMember.nodeId).filter (· ≠ config.selfId) ∧
      ∀ leg ∈ legs, label leg.sender =
          ⟨config.selfId, leg.peerId, config.term, config.streamId, event.length, digest event⟩ ∧
        waiting leg.sender = [] := by
  induction members generalizing legs with
  | nil =>
    cases h
    exact ⟨rfl, by simp⟩
  | cons member rest ih =>
    unfold egressLegs at h
    by_cases hself : member.nodeId = config.selfId
    · rw [if_pos hself] at h
      rw [map_cons, filter_cons_of_neg (by simp [hself])]
      exact ih h
    · rw [if_neg hself] at h
      rw [map_cons, filter_cons_of_pos (by simp [hself])]
      split at h
      · cases h
      rename_i created hcr
      split at h
      · cases h
      rename_i sender hbeg
      split at h
      · cases h
      rename_i others hoths
      cases h
      obtain ⟨hpeers, hsenders⟩ := ih hoths
      exact ⟨congrArg (member.nodeId :: ·) hpeers, List.forall_mem_cons.2 ⟨publishSender_started hcr hbeg, hsenders⟩⟩

theorem egressCreate_sends [Vstr] (h : egressCreate config event = .ok egress) :
    egress.config = config ∧ egress.quorum = none ∧ egress.Sends [] := by
  obtain ⟨-, h⟩ := Checks.ite_error_eq_ok.1 h
  split at h
  · cases h
  rename_i legs hlegs
  obtain ⟨-, h⟩ := Checks.ite_error_eq_ok.1 h
  cases h
  obtain ⟨hpeers, hsenders⟩ := egressLegs_eq_ok hlegs
  refine ⟨rfl, rfl, hpeers ▸ config.configuration.distinct.filter _, ?_, fun leg hmem => (hsenders leg hmem).1,
    fun leg hmem => (hsenders leg hmem).2, (fun known heq => nomatch heq), by simp⟩
  intro leg hmem
  have hpeer : leg.peerId ∈ legs.map EgressLeg.peerId := mem_map_of_mem hmem
  rw [hpeers] at hpeer
  obtain ⟨hmbr, hoth⟩ := List.mem_filter.1 hpeer
  exact ⟨hmbr, by simpa using hoth⟩

theorem Egress.Sends.markLocalDurable (h : egress.Sends unanswered) :
    (egressMarkLocalDurable egress).2.Sends unanswered ∧ (egressMarkLocalDurable egress).2.config = egress.config ∧
      ((egressMarkLocalDurable egress).2.quorum = none → egress.quorum = none) := by
  obtain ⟨config, event, legs, quorum, localDurable⟩ := egress
  unfold egressMarkLocalDurable
  cases quorum with
  | none => exact ⟨⟨h.peers, h.members, h.labels, h.waits, h.counts, h.owned⟩, rfl, id⟩
  | some known =>
    dsimp only
    cases hmark : DataQuorums.markLocalDurable known with
    | error e => exact ⟨⟨h.peers, h.members, h.labels, h.waits, h.counts, h.owned⟩, rfl, id⟩
    | ok marked =>
      refine ⟨⟨h.peers, h.members, h.labels, h.waits, ?_, h.owned⟩, rfl, fun hnone => nomatch hnone⟩
      intro other heq
      cases heq
      exact (DataQuorums.marked hmark).trans (h.counts known rfl)

/-- A stream is proposed, or too few nodes hold it. -/
theorem egressMakeProposal_refused {commandId : UInt64} (hcmd : commandId ≠ 0) {e : Errno}
    (h : egressMakeProposal egress commandId = .error e) : e = .ebusy := by
  unfold egressMakeProposal at h
  split at h
  · cases h
    rfl
  · rw [publishQuorumMakeProposal, if_neg hcmd] at h
    exact DataQuorums.proposal_refused hcmd h

variable (h : egress.Sends unanswered)
include h

/-- The chunk is answered: the sender of its target waits for the ones after it. -/
theorem Egress.Sends.answered (hget : egress.legs[index]? = some leg)
    (hlab : label sender = label leg.sender) (hwaits : waiting sender = (chunksTo leg.peerId unanswered).tail) :
    (egress.setSender index leg sender).Sends (unanswered.eraseP fun other => other.target = leg.peerId) := by
  refine h.setSender hget hlab ?_ (fun peerId hne => ?_) fun other hmem => .inl (mem_of_mem_eraseP hmem)
  · rw [hwaits]
    exact (filter_eraseP_self).symm
  refine filter_eraseP_of_disjoint (fun other htgt => ?_)
  simp only [decide_eq_true_eq] at htgt
  simpa [htgt] using hne.symm

/-- The answer to the oldest chunk of its target is taken, and the sender goes on. -/
theorem egressAcknowledge_answer
    (hcntd : egress.quorum = none → unanswered = []) {waiting : List DataChunk} {durable : Bool}
    (hold : chunksTo chunk.target unanswered = chunk :: waiting) (hdurable : durable = true → chunk.Last) :
    ∃ more, (egressAcknowledge enqueue egress (chunk.answer durable)).Hands egress
        (unanswered.eraseP fun other => other.target = chunk.target) [] more ∧
      ((∀ n, enqueue n = .ok ()) → (egressAcknowledge enqueue egress (chunk.answer durable)).result = .ok ()) := by
  have hchunk : chunk ∈ unanswered := mem_of_mem_filter (hold ▸ mem_cons_self : chunk ∈ chunksTo chunk.target unanswered)
  obtain ⟨hpeer, hlab⟩ := h.owned chunk hchunk
  obtain ⟨leg, hleg, hpeer⟩ := List.mem_map.1 hpeer
  obtain ⟨index, hget⟩ := List.getElem?_of_mem hleg
  have hfind := lookupIdx_of_getElem? h.peers hget
  have hwaits := h.waits leg hleg
  rw [hpeer, hold] at hwaits
  obtain ⟨answered, hanswered, hrest⟩ := acknowledge_oldest hwaits hdurable
  have hsends := h.answered hget (acknowledge_ok hanswered) (by rw [hpeer, hold]; exact hrest)
  rw [hpeer] at hfind hsends
  obtain ⟨quorum, hquo⟩ : ∃ quorum, egress.quorum = some quorum := by
    cases hquo : egress.quorum with
    | none => exact absurd (hcntd hquo ▸ hchunk) not_mem_nil
    | some quorum => exact ⟨quorum, rfl⟩
  have hcnt : ∃ counted, egressCount (egress.setSender index leg answered) (chunk.answer durable) =
      .ok { egress.setSender index leg answered with quorum := some counted } ∧ DataQuorums.config counted = egress.quorumConfig := by
    have hcfg := h.counts quorum hquo
    cases durable with
    | false => exact ⟨quorum, by rw [← hquo]; rfl, hcfg⟩
    | true =>
      obtain ⟨hmbr, hoth⟩ := h.members leg hleg
      rw [hpeer] at hmbr hoth
      have hof : chunk.label = (DataQuorums.config quorum).label chunk.target := hcfg.symm ▸ hlab
      obtain ⟨counted, hcntd, hkept⟩ :=
        DataQuorums.acknowledge_answer hof (hdurable rfl) (hcfg.symm ▸ hmbr) (hcfg.symm ▸ hoth)
      refine ⟨counted, ?_, hkept.trans hcfg⟩
      simp only [egressCount, Egress.setSender, hquo, hcntd]
      rfl
  obtain ⟨counted, hcnt, hcfg⟩ := hcnt
  have hrdy := hsends.setQuorum (some counted) fun known heq => Option.some.inj heq ▸ hcfg
  obtain ⟨more, hands, hres⟩ := pumpLegLoop_hands enqueue (Nat.lt_succ_self _) hrdy []
  have hcall : egressAcknowledge enqueue egress (chunk.answer durable) =
      pumpLeg enqueue index { egress.setSender index leg answered with quorum := some counted } [] := by
    have hsource : chunk.source = egress.config.selfId := congrArg source hlab
    have hterm : chunk.term = egress.config.term := congrArg term hlab
    have hstm : chunk.streamId = egress.config.streamId := congrArg streamId hlab
    have hfind' : lookupIdx EgressLeg.peerId (chunk.answer durable).source egress.legs = some (index, leg) := hfind
    rw [egressAcknowledge, if_neg (by simp [DataChunk.answer, hsource, hterm, hstm])]
    simp only [hfind', hanswered, hcnt]
  rw [hcall]
  exact ⟨more, ⟨hands.sent, hands.config, hands.sends, fun hnone => absurd (hands.counted hnone).1 (by simp)⟩, hres rfl⟩

end

end Flowie.Cluster
