import Flowie.Cluster.PublishEgress
import Flowie.Cluster.PublishIngress

/-!
# The publish router of a node

`flowie_cluster_publish_router.c`: the table of streams the node sends and the table of those it receives. A stream is
proposed once a quorum holds it, and goes out of the table when the proposal is taken; a follower that answers later
finds nothing (`acknowledgement_accepted`).
-/

namespace Flowie.Cluster

open List KeyedList Mqtt

/-- `tr_raft_transport_payload_t`: the kinds the router knows, and any other. -/
inductive Payload where
  | dataChunk (chunk : DataChunk)
  | dataAck (ack : DataAck)
  | other

/-- How the callbacks answer during a call: the n-th call of enqueue and of propose, and the commit of an event. -/
structure RouterAnswers where
  commit : PublishEvent → Except Errno Unit
  enqueue : Nat → Except Errno Unit
  propose : Nat → Except Errno Unit

section
variable [DataSenders] [DataQuorums] [DataReceivers]

/-- `flowie_cluster_publish_router_outbound_t`. -/
structure Outbound where
  streamId : UInt64
  commandId : UInt64
  egress : Egress

/-- `flowie_cluster_publish_router_t` without its callbacks and the runtime it is bound to. -/
structure Router where
  selfId : NodeId
  maxEventBytes : Nat
  maxOutboundStreams : Nat
  ingress : Ingress
  outbound : List Outbound

/-- `flowie_cluster_publish_router_create`. -/
def routerCreate (selfId : NodeId) (maxEventBytes maxInboundStreams maxOutboundStreams : Nat) : Except Errno Router :=
  if selfId = 0 ∨ maxEventBytes = 0 ∨ maxInboundStreams = 0 ∨ maxOutboundStreams = 0 then .error .einval
  -- `flowie_cluster_publish_ingress_create`
  else if maxEventBytes > DataSenders.maxStreamBytes then .error .einval
  else .ok ⟨selfId, maxEventBytes, maxOutboundStreams, ⟨selfId, maxEventBytes, maxInboundStreams, []⟩, []⟩

/-- `flowie_cluster_publish_router_find`. -/
def routerFind (router : Router) (streamId : UInt64) : Option (Nat × Outbound) :=
  lookupIdx Outbound.streamId streamId router.outbound

def Router.setEntry (router : Router) (index : Nat) (entry : Outbound) : Router :=
  { router with outbound := router.outbound.set index entry }

/-- `flowie_cluster_publish_router_remove`. -/
def routerRemove (router : Router) (index : Nat) : Router := { router with outbound := router.outbound.swapRemove index }

/-- A call of the router: its result, what it enqueued and proposed, and the events it committed. -/
structure RouterCall where
  result : Except Errno Unit
  router : Router
  chunks : List DataChunk
  acks : List DataAck
  proposals : List Proposal
  commits : List PublishEvent

def Router.refuse (router : Router) (e : Errno) : RouterCall := ⟨.error e, router, [], [], [], []⟩

/-- What `flowie_cluster_publish_router_try_propose` left, and all proposals taken so far. -/
structure ProposeCall where
  result : Except Errno Unit
  router : Router
  proposals : List Proposal

/-- `flowie_cluster_publish_router_try_propose`. -/
def routerTryPropose (answers : RouterAnswers) (router : Router) (index : Nat) (entry : Outbound) (proposals : List Proposal) :
    ProposeCall :=
  match egressMakeProposal entry.egress entry.commandId with
  | .error e => ⟨if e = .ebusy then .ok () else .error e, router, proposals⟩
  | .ok proposal =>
    match answers.propose proposals.length with
    | .error e => ⟨.error e, router, proposals⟩
    | .ok () => ⟨.ok (), routerRemove router index, proposals ++ [proposal]⟩

/-- The part of `flowie_cluster_publish_router_submit_durable` that starts a new egress. -/
def egressLaunch (enqueue : Nat → Except Errno Unit) (egress : Egress) : EgressCall :=
  match egressMarkLocalDurable egress with
  | (.error e, marked) => ⟨.error e, marked, []⟩
  | (.ok (), marked) => egressPump enqueue marked []

variable [Vstr]

/-- `flowie_cluster_publish_router_submit_durable`. A stream that could not be sent for another reason than a full queue
is taken out again, with the chunks it had enqueued still underway. -/
def routerSubmitDurable (answers : RouterAnswers) (router : Router) (term streamId commandId : UInt64)
    (configuration : Configuration) (event : Bytes) : RouterCall :=
  if term = 0 ∨ streamId = 0 ∨ commandId = 0 then router.refuse .einval
  else if (routerFind router streamId).isSome then router.refuse .ebusy
  else if router.outbound.length ≥ router.maxOutboundStreams then router.refuse .enospc
  else
    match egressCreate ⟨router.selfId, term, streamId, configuration, router.maxEventBytes, 0, 0⟩ event with
    | .error e => router.refuse e
    | .ok egress =>
      let call := egressLaunch answers.enqueue egress
      let pushed := { router with outbound := router.outbound ++ [⟨streamId, commandId, call.egress⟩] }
      match call.result with
      | .ok () => ⟨.ok (), pushed, call.sent, [], [], []⟩
      | .error e =>
        if e = .enospc ∨ e = .ebusy then ⟨.error e, pushed, call.sent, [], [], []⟩
        else ⟨.error e, routerRemove pushed router.outbound.length, call.sent, [], [], []⟩

/-- `flowie_cluster_publish_router_handle`. -/
def routerHandle (answers : RouterAnswers) (router : Router) : Payload → RouterCall
  | .dataChunk chunk =>
    let call := ingressHandle answers.commit answers.enqueue router.ingress chunk
    ⟨call.result, { router with ingress := call.ingress }, [], call.sent, [], call.commits⟩
  | .dataAck ack =>
    match routerFind router ack.streamId with
    | none => router.refuse .enoent
    | some (index, entry) =>
      let call := egressAcknowledge answers.enqueue entry.egress ack
      let acknowledged := { entry with egress := call.egress }
      let updated := router.setEntry index acknowledged
      match call.result with
      | .error e => ⟨.error e, updated, call.sent, [], [], []⟩
      | .ok () =>
        let proposed := routerTryPropose answers updated index acknowledged []
        ⟨proposed.result, proposed.router, call.sent, [], proposed.proposals, []⟩
  | .other => router.refuse .einval

/-- The loop of `flowie_cluster_publish_router_retry`: each round takes an entry out or steps over it. -/
def routerRetryLoop (answers : RouterAnswers) : Nat → Router → Nat → List DataChunk → List Proposal → RouterCall
  | 0, router, _, chunks, proposals => ⟨.ok (), router, chunks, [], proposals, []⟩
  | fuel + 1, router, index, chunks, proposals =>
    match router.outbound[index]? with
    | none => ⟨.ok (), router, chunks, [], proposals, []⟩
    | some entry =>
      let call := egressPump answers.enqueue entry.egress chunks
      let pumped := { entry with egress := call.egress }
      let updated := router.setEntry index pumped
      match call.result with
      | .error e => ⟨.error e, updated, call.sent, [], proposals, []⟩
      | .ok () =>
        let proposed := routerTryPropose answers updated index pumped proposals
        match proposed.result with
        | .error e => ⟨.error e, proposed.router, call.sent, [], proposed.proposals, []⟩
        | .ok () =>
          let next := if proposed.router.outbound.length = router.outbound.length then index + 1 else index
          routerRetryLoop answers fuel proposed.router next call.sent proposed.proposals

/-- `flowie_cluster_publish_router_retry`. -/
def routerRetry (answers : RouterAnswers) (router : Router) : RouterCall :=
  routerRetryLoop answers router.outbound.length router 0 [] []

variable {router : Router} {index : Nat} {entry : Outbound}

omit [Vstr] in
theorem Router.getElem?_setEntry (hget : router.outbound[index]? = some entry) (entry' : Outbound) :
    (router.setEntry index entry').outbound[index]? = some entry' :=
  List.getElem?_set_self (List.getElem?_eq_some_iff.1 hget).1

omit [Vstr] in
theorem length_routerTryPropose (answers : RouterAnswers) (hget : router.outbound[index]? = some entry)
    (proposals : List Proposal) :
    (routerTryPropose answers router index entry proposals).router.outbound.length = router.outbound.length ∨
      (routerTryPropose answers router index entry proposals).router.outbound.length + 1 = router.outbound.length := by
  unfold routerTryPropose
  split
  · exact .inl rfl
  split
  · exact .inl rfl
  · exact .inr (length_swapRemove (List.getElem?_eq_some_iff.1 hget).1)

omit [Vstr] in
/-- More fuel than entries ahead changes nothing: the loop ends by itself. -/
theorem routerRetryLoop_fuel (answers : RouterAnswers) {fuel : Nat} (hfuel : router.outbound.length ≤ index + fuel) (more : Nat)
    (chunks : List DataChunk) (proposals : List Proposal) :
    routerRetryLoop answers (fuel + more) router index chunks proposals =
      routerRetryLoop answers fuel router index chunks proposals := by
  induction fuel generalizing router index chunks proposals with
  | zero =>
    cases more with
    | zero => rfl
    | succ more =>
      have hnone : router.outbound[index]? = none := List.getElem?_eq_none (by omega)
      rw [Nat.zero_add]
      simp only [routerRetryLoop, hnone]
  | succ fuel ih =>
    rw [Nat.add_right_comm, routerRetryLoop, routerRetryLoop]
    cases hget : router.outbound[index]? with
    | none => rfl
    | some entry =>
      dsimp only
      cases (egressPump answers.enqueue entry.egress chunks).result with
      | error e => rfl
      | ok =>
        have hupdated : ∀ pumped, (router.setEntry index pumped).outbound.length = router.outbound.length := fun pumped =>
          List.length_set
        have hlen := length_routerTryPropose answers
          (Router.getElem?_setEntry hget { entry with egress := (egressPump answers.enqueue entry.egress chunks).egress }) proposals
        rw [hupdated] at hlen
        generalize routerTryPropose answers _ index _ proposals = proposed at hlen ⊢
        cases proposed.result with
        | error e => rfl
        | ok =>
          refine ih ?_ _ _
          split <;> omega

/-! ## Chunks handed over and not answered -/

def ofStream (streamId : UInt64) (chunks : List DataChunk) : List DataChunk := chunks.filter fun chunk => chunk.streamId = streamId

/-- The unanswered chunks of a stream in the table: its senders wait for them, and a quorum counts their answers. -/
structure Outbound.Sends (entry : Outbound) (chunks : List DataChunk) : Prop where
  command : entry.commandId ≠ 0
  stream : entry.egress.config.streamId = entry.streamId
  sends : entry.egress.Sends chunks
  counted : entry.egress.quorum = none → chunks = []

structure Router.Sends (router : Router) (unanswered : List DataChunk) : Prop where
  ids : (router.outbound.map Outbound.streamId).Nodup
  entries : ∀ entry ∈ router.outbound, entry.Sends (ofStream entry.streamId unanswered)

omit [DataSenders] [DataQuorums] [DataReceivers] [Vstr] in
theorem ofStream_append (streamId : UInt64) (chunks more : List DataChunk) :
    ofStream streamId (chunks ++ more) = ofStream streamId chunks ++ ofStream streamId more := filter_append ..

variable {egress : Egress}

omit [DataReceivers] [Vstr] in
/-- All unanswered chunks of an egress are of its stream. -/
theorem Egress.Sends.ofStream_eq {chunks more : List DataChunk} (h : egress.Sends (chunks ++ more))
    (streamId : UInt64) : ofStream streamId more = if streamId = egress.config.streamId then more else [] := by
  have hid : ∀ chunk ∈ more, chunk.streamId = egress.config.streamId := fun chunk hmem =>
    congrArg StreamLabel.streamId (h.owned chunk (List.mem_append_right _ hmem)).2
  unfold ofStream
  split
  · rename_i hsame
    exact List.filter_eq_self.2 fun chunk hmem => by simp [hid chunk hmem, hsame]
  · rename_i hoth
    exact List.filter_eq_nil_iff.2 fun chunk hmem => by simp [hid chunk hmem, Ne.symm hoth]

namespace Router.Sends

variable {router : Router} {unanswered unanswered' : List DataChunk} {index : Nat} {entry : Outbound} {call : EgressCall}

variable (h : router.Sends unanswered)
include h

section
variable (hget : router.outbound[index]? = some entry)
include hget

omit [Vstr] in
/-- One stream goes on from the chunks of it in `unanswered'` and hands over more; those of the others stay. -/
theorem setEntry
    (hoths : ∀ streamId, streamId ≠ entry.streamId → ofStream streamId unanswered' = ofStream streamId unanswered)
    {sent more : List DataChunk} (hands : call.Hands entry.egress (ofStream entry.streamId unanswered') sent more)
    (hcntd : entry.egress.quorum = none → ofStream entry.streamId unanswered' = []) :
    (router.setEntry index { entry with egress := call.egress }).Sends (unanswered' ++ more) := by
  have hent := h.entries entry (List.mem_of_getElem? hget)
  have hstm : call.egress.config.streamId = entry.streamId := (congrArg EgressConfig.streamId hands.config).trans hent.stream
  have hmore := hands.sends.ofStream_eq
  have hids : (router.setEntry index { entry with egress := call.egress }).outbound.map Outbound.streamId =
      router.outbound.map Outbound.streamId := map_set_of_key hget rfl
  refine ⟨hids.symm ▸ h.ids, fun other hmem => ?_⟩
  rcases mem_set_cases h.ids hget hmem with rfl | ⟨hold, hne⟩
  · rw [ofStream_append, hmore, if_pos hstm.symm]
    refine ⟨hent.command, hstm, hands.sends, fun hnone => ?_⟩
    obtain ⟨hbef, rfl⟩ := hands.counted hnone
    exact List.append_eq_nil_iff.2 ⟨hcntd hbef, rfl⟩
  · rw [ofStream_append, hmore, if_neg (fun heq => hne (heq.trans hstm)), List.append_nil, hoths _ hne]
    exact h.entries other hold

omit [Vstr] in
theorem remove : (routerRemove router index).Sends unanswered :=
  ⟨nodup_of_subperm h.ids (swapRemove_subperm hget),
    fun other hmem => h.entries other (mem_of_mem_swapRemove (List.getElem?_eq_some_iff.1 hget).1 hmem)⟩

omit [Vstr] in
/-- A proposal changes no egress, and fails only where the propose callback fails. -/
theorem tryPropose {answers : RouterAnswers} {proposals : List Proposal} :
    (routerTryPropose answers router index entry proposals).router.Sends unanswered ∧
      ((∀ n, answers.propose n = .ok ()) → (routerTryPropose answers router index entry proposals).result = .ok ()) := by
  unfold routerTryPropose
  cases hmake : egressMakeProposal entry.egress entry.commandId with
  | error e =>
    exact ⟨h, fun _ => if_pos (egressMakeProposal_refused (h.entries entry (List.mem_of_getElem? hget)).command hmake)⟩
  | ok proposal =>
    cases hpropose : answers.propose proposals.length with
    | error e => exact ⟨h, fun hok => nomatch hpropose.symm.trans (hok _)⟩
    | ok => exact ⟨h.remove hget, fun _ => rfl⟩

end

omit [Vstr] in
theorem retryLoop {answers : RouterAnswers} (fuel index : Nat) (chunks : List DataChunk) (proposals : List Proposal) :
    ∃ more, (routerRetryLoop answers fuel router index chunks proposals).chunks = chunks ++ more ∧
      (routerRetryLoop answers fuel router index chunks proposals).router.Sends (unanswered ++ more) := by
  induction fuel generalizing router unanswered index chunks proposals with
  | zero => exact ⟨[], (append_nil _).symm, (append_nil unanswered).symm ▸ h⟩
  | succ fuel ih =>
    unfold routerRetryLoop
    cases hget : router.outbound[index]? with
    | none => exact ⟨[], (append_nil _).symm, (append_nil unanswered).symm ▸ h⟩
    | some entry =>
      have hent := h.entries entry (mem_of_getElem? hget)
      obtain ⟨more, hands⟩ := pumpLegs_hands answers.enqueue (List.range entry.egress.legs.length) hent.sends chunks
      rw [← egressPump] at hands
      have hpumped := h.setEntry hget (fun _ _ => rfl) hands hent.counted
      dsimp only
      generalize egressPump answers.enqueue entry.egress chunks = call at hands hpumped ⊢
      cases call.result with
      | error e => exact ⟨more, hands.sent, hpumped⟩
      | ok =>
        obtain ⟨hprop, -⟩ := hpumped.tryPropose (Router.getElem?_setEntry hget _)
        generalize routerTryPropose answers _ index _ proposals = proposed at hprop ⊢
        cases proposed.result with
        | error e => exact ⟨more, hands.sent, hprop⟩
        | ok =>
          obtain ⟨more', hchunks, hsends⟩ := ih hprop
            (if proposed.router.outbound.length = router.outbound.length then index + 1 else index) call.sent proposed.proposals
          refine ⟨more ++ more', hchunks.trans (by rw [hands.sent, append_assoc]), ?_⟩
          rw [← append_assoc]
          exact hsends

omit [Vstr] in
/-- A new stream: no chunk of its id is unanswered. -/
theorem push {streamId : UInt64} (hfr : routerFind router streamId = none)
    (hkept : ∀ chunk ∈ unanswered, (routerFind router chunk.streamId).isSome) {commandId : UInt64}
    {chunks : List DataChunk} (hnew : Outbound.Sends ⟨streamId, commandId, egress⟩ chunks) :
    ({ router with outbound := router.outbound ++ [⟨streamId, commandId, egress⟩] } : Router).Sends (unanswered ++ chunks) := by
  have hoth := lookupIdx_eq_none.1 hfr
  have hchunks := Egress.Sends.ofStream_eq (List.nil_append chunks ▸ hnew.sends)
  refine ⟨nodup_append h.ids hoth, List.forall_mem_append.2 ⟨fun other hold => ?_, ?_⟩⟩
  · rw [ofStream_append, hchunks, if_neg (fun heq => hoth other hold (heq.trans hnew.stream)), List.append_nil]
    exact h.entries other hold
  have hnone : ofStream streamId unanswered = [] := List.filter_eq_nil_iff.2 fun chunk hchunk => by
    have hthere := hkept chunk hchunk
    simpa using fun heq : chunk.streamId = streamId => by simp [heq, hfr] at hthere
  rw [List.forall_mem_singleton, ofStream_append, hchunks, if_pos hnew.stream.symm, hnone, List.nil_append]
  exact hnew

end Router.Sends

omit [Vstr] [DataReceivers] in
theorem egressLaunch_hands (h : egress.Sends []) (enqueue : Nat → Except Errno Unit) :
    (egressLaunch enqueue egress).Hands egress [] [] (egressLaunch enqueue egress).sent := by
  obtain ⟨hmarked, hcfg, hquo⟩ := h.markLocalDurable
  unfold egressLaunch
  generalize egressMarkLocalDurable egress = call at hmarked hcfg hquo ⊢
  obtain ⟨result, marked⟩ := call
  cases result with
  | error e => exact ⟨rfl, hcfg, hmarked, fun hnone => ⟨hquo hnone, rfl⟩⟩
  | ok =>
    obtain ⟨more, hands⟩ := pumpLegs_hands enqueue (List.range marked.legs.length) hmarked []
    rw [← egressPump] at hands
    obtain rfl : (egressPump enqueue marked []).sent = more := hands.sent
    exact ⟨rfl, hands.config.trans hcfg, hands.sends, fun hnone => (hands.counted hnone).imp_left hquo⟩

variable {unanswered : List DataChunk}

/-- A submission that adds a stream hands over chunks of that stream alone. -/
theorem Router.Sends.submitDurable (h : router.Sends unanswered)
    (hkept : ∀ chunk ∈ unanswered, (routerFind router chunk.streamId).isSome) {answers : RouterAnswers}
    {term streamId commandId : UInt64} {configuration : Configuration} (event : Bytes) :
    (routerSubmitDurable answers router term streamId commandId configuration event).router.Sends
      (unanswered ++ (routerSubmitDurable answers router term streamId commandId configuration event).chunks) := by
  have hrefuse : ∀ e, (router.refuse e).router.Sends (unanswered ++ (router.refuse e).chunks) := fun e =>
    (append_nil unanswered).symm ▸ h
  unfold routerSubmitDurable
  split
  · exact hrefuse _
  rename_i hzero
  split
  · exact hrefuse _
  rename_i hfr
  split
  · exact hrefuse _
  cases hcr : egressCreate ⟨router.selfId, term, streamId, configuration, router.maxEventBytes, 0, 0⟩ event with
  | error e => exact hrefuse _
  | ok egress =>
    obtain ⟨hcfg, -, hnew⟩ := egressCreate_sends hcr
    have hands := egressLaunch_hands hnew answers.enqueue
    dsimp only
    generalize egressLaunch answers.enqueue egress = call at hands ⊢
    have hent : Outbound.Sends ⟨streamId, commandId, call.egress⟩ call.sent :=
      ⟨fun hnil => hzero (.inr (.inr hnil)), congrArg EgressConfig.streamId (hands.config.trans hcfg), hands.sends,
        fun hnone => (hands.counted hnone).2⟩
    have hpushed := h.push (by simpa using hfr) hkept hent
    cases call.result with
    | ok => exact hpushed
    | error e =>
      dsimp only
      split
      · exact hpushed
      · exact hpushed.remove List.getElem?_concat_length

/-- The chunk is of the stream and goes to the node. -/
def onLeg (streamId : UInt64) (peerId : NodeId) (chunk : DataChunk) : Bool :=
  decide (chunk.target = peerId) && decide (chunk.streamId = streamId)

omit [DataSenders] [DataQuorums] [DataReceivers] [Vstr] in
theorem chunksTo_ofStream (streamId : UInt64) (peerId : NodeId) (chunks : List DataChunk) :
    chunksTo peerId (ofStream streamId chunks) = chunks.filter (onLeg streamId peerId) := filter_filter ..

variable {chunk : DataChunk}

/-- The answer to the oldest unanswered chunk of a leg whose stream is in the table is accepted; the call fails only
where a callback fails. -/
theorem Router.Sends.answer (h : router.Sends unanswered) (hthere : (routerFind router chunk.streamId).isSome)
    (hold : unanswered.find? (onLeg chunk.streamId chunk.target) = some chunk) {durable : Bool}
    (hdurable : durable = true → chunk.Last) (answers : RouterAnswers) :
    (routerHandle answers router (.dataAck (chunk.answer durable))).router.Sends
        (unanswered.eraseP (onLeg chunk.streamId chunk.target) ++
          (routerHandle answers router (.dataAck (chunk.answer durable))).chunks) ∧
      ((∀ n, answers.enqueue n = .ok ()) → (∀ n, answers.propose n = .ok ()) →
        (routerHandle answers router (.dataAck (chunk.answer durable))).result = .ok ()) := by
  obtain ⟨⟨index, entry⟩, hfnd⟩ := Option.isSome_iff_exists.1 hthere
  obtain ⟨hget, hid⟩ := getElem?_of_lookupIdx hfnd
  have hent := h.entries entry (mem_of_getElem? hget)
  rw [hid] at hent
  rw [← List.head?_filter, ← chunksTo_ofStream, List.head?_eq_some_iff] at hold
  obtain ⟨waiting, hold⟩ := hold
  obtain ⟨more, hands, hok⟩ := egressAcknowledge_answer answers.enqueue hent.sends hent.counted hold hdurable
  rw [ofStream, eraseP_filter] at hands
  unfold routerHandle
  dsimp only
  rw [show (chunk.answer durable).streamId = chunk.streamId from rfl, hfnd]
  dsimp only
  generalize egressAcknowledge answers.enqueue entry.egress (chunk.answer durable) = call at hands hok ⊢
  obtain rfl : call.sent = more := hands.sent
  -- the answered chunk leaves the list of its stream and no other
  have hoths : ∀ streamId, streamId ≠ entry.streamId →
      ofStream streamId (unanswered.eraseP (onLeg chunk.streamId chunk.target)) = ofStream streamId unanswered := by
    intro streamId hne
    refine filter_eraseP_of_disjoint (fun other hoth => ?_)
    have hstm : other.streamId = entry.streamId := by
      rw [onLeg, Bool.and_eq_true, decide_eq_true_eq, decide_eq_true_eq] at hoth
      exact hoth.2.trans hid.symm
    simpa [hstm] using Ne.symm hne
  have hcntd : entry.egress.quorum = none → ofStream entry.streamId (unanswered.eraseP (onLeg chunk.streamId chunk.target)) = [] := by
    intro hnone
    rw [hent.counted hnone] at hold
    cases hold
  have hupdated := h.setEntry hget hoths (by rw [hid]; exact hands) hcntd
  cases hres : call.result with
  | error e => exact ⟨hupdated, fun henqueue _ => nomatch hres.symm.trans (hok henqueue)⟩
  | ok =>
    obtain ⟨hprop, hpropose⟩ := hupdated.tryPropose (Router.getElem?_setEntry hget _)
    exact ⟨hprop, fun _ => hpropose⟩

/-! ## Runs -/

/-- A router, the chunks it handed over that were not answered, and those of them whose stream has left the table. -/
structure RouterRun where
  router : Router
  unanswered : List DataChunk
  late : List DataChunk

def Router.holds (router : Router) (chunk : DataChunk) : Bool := (routerFind router chunk.streamId).isSome

/-- The state a call leaves: chunks of a stream that is no longer in the table are late. -/
def RouterRun.after (call : RouterCall) (unanswered late : List DataChunk) : RouterRun :=
  ⟨call.router, (unanswered ++ call.chunks).filter call.router.holds,
    late ++ (unanswered ++ call.chunks).filter fun chunk => !call.router.holds chunk⟩

/-- What a follower sends in answer to a chunk; only the last chunk of a stream can make it durable. -/
def DataChunk.ackOf (chunk : DataChunk) (durable : Bool) : DataAck := chunk.answer (durable && decide chunk.Last)

/-- What can happen to a router. The answers of one follower to one stream arrive in the order of its chunks. -/
inductive RouterEvent where
  | submit (answers : RouterAnswers) (term streamId commandId : UInt64) (configuration : Configuration) (event : Bytes)
  | answered (answers : RouterAnswers) (streamId : UInt64) (peerId : NodeId) (durable : Bool)
  | answeredLate (answers : RouterAnswers) (index : Nat) (durable : Bool)
  | received (answers : RouterAnswers) (chunk : DataChunk)
  | retry (answers : RouterAnswers)

def RouterRun.step (state : RouterRun) : RouterEvent → RouterRun
  | .submit answers term streamId commandId configuration event =>
    .after (routerSubmitDurable answers state.router term streamId commandId configuration event) state.unanswered state.late
  | .answered answers streamId peerId durable =>
    match state.unanswered.find? (onLeg streamId peerId) with
    | none => state
    | some chunk =>
      .after (routerHandle answers state.router (.dataAck (chunk.ackOf durable)))
        (state.unanswered.eraseP (onLeg streamId peerId)) state.late
  | .answeredLate answers index durable =>
    match state.late[index]? with
    | none => state
    | some chunk =>
      .after (routerHandle answers state.router (.dataAck (chunk.ackOf durable))) state.unanswered (state.late.eraseIdx index)
  | .received answers chunk => .after (routerHandle answers state.router (.dataChunk chunk)) state.unanswered state.late
  | .retry answers => .after (routerRetry answers state.router) state.unanswered state.late

/-- A late answer does not meet another submission of its stream. -/
def RouterEvent.Timely (state : RouterRun) : RouterEvent → Prop
  | .answeredLate _ index _ => ∀ chunk, state.late[index]? = some chunk → routerFind state.router chunk.streamId = none
  | _ => True

structure RouterRun.Sound (state : RouterRun) : Prop where
  sends : state.router.Sends state.unanswered
  held : ∀ chunk ∈ state.unanswered, state.router.holds chunk = true

omit [Vstr] in
theorem RouterRun.Sound.after {call : RouterCall} (h : call.router.Sends (unanswered ++ call.chunks))
    (late : List DataChunk) : (RouterRun.after call unanswered late).Sound := by
  refine ⟨⟨h.ids, fun entry hmem => ?_⟩, fun chunk hmem => (List.mem_filter.1 hmem).2⟩
  have hsame : ofStream entry.streamId ((unanswered ++ call.chunks).filter call.router.holds) =
      ofStream entry.streamId (unanswered ++ call.chunks) := by
    rw [ofStream, ofStream, filter_filter]
    refine filter_congr fun chunk _ => ?_
    by_cases hid : chunk.streamId = entry.streamId
    · -- the entry itself is found, or one before it
      have hholds : call.router.holds chunk = true := by
        rw [Router.holds, Option.isSome_iff_ne_none]
        exact fun hnone => lookupIdx_eq_none.1 hnone entry hmem hid.symm
      rw [hholds, Bool.and_true]
    · simp [hid]
  exact hsame.symm ▸ h.entries entry hmem

omit [Vstr] in
theorem Router.Sends.retry (h : router.Sends unanswered) (answers : RouterAnswers) :
    (routerRetry answers router).router.Sends (unanswered ++ (routerRetry answers router).chunks) := by
  obtain ⟨more, hchunks, hsends⟩ := h.retryLoop router.outbound.length 0 [] []
  rw [routerRetry, hchunks]
  exact hsends

omit [DataSenders] [DataQuorums] [DataReceivers] [Vstr] in
theorem onLeg_of_find? {streamId : UInt64} {peerId : NodeId}
    (h : unanswered.find? (onLeg streamId peerId) = some chunk) : chunk.streamId = streamId ∧ chunk.target = peerId := by
  have hleg := List.find?_some h
  rw [onLeg, Bool.and_eq_true, decide_eq_true_eq, decide_eq_true_eq] at hleg
  exact hleg.symm

theorem RouterRun.Sound.step {state : RouterRun} (h : state.Sound) {event : RouterEvent} (htm : event.Timely state) :
    (state.step event).Sound := by
  cases event with
  | submit answers term streamId commandId configuration event =>
    exact .after (h.sends.submitDurable h.held event) _
  | answered answers streamId peerId durable =>
    unfold RouterRun.step
    dsimp only
    cases hfind : state.unanswered.find? (onLeg streamId peerId) with
    | none => exact h
    | some chunk =>
      obtain ⟨rfl, rfl⟩ := onLeg_of_find? hfind
      exact .after (h.sends.answer (h.held chunk (mem_of_find?_eq_some hfind)) hfind (by simp) answers).1 _
  | answeredLate answers index durable =>
    unfold RouterRun.step
    dsimp only
    cases hlate : state.late[index]? with
    | none => exact h
    | some chunk =>
      have habs := htm chunk hlate
      refine .after ?_ _
      rw [routerHandle, show (chunk.ackOf durable).streamId = chunk.streamId from rfl, habs]
      exact (append_nil state.unanswered).symm ▸ h.sends
  | received answers chunk =>
    refine .after ?_ _
    exact (append_nil state.unanswered).symm ▸ ⟨h.sends.ids, h.sends.entries⟩
  | retry answers => exact .after (h.sends.retry answers) _

/-- In every run of a router, whatever the order of the answers: while a stream is in the table, the answer to the
oldest unanswered chunk of each of its legs is accepted when the callbacks succeed. Once the stream has left the table
every answer is refused. -/
theorem acknowledgement_accepted {selfId : NodeId} {maxEventBytes maxInboundStreams maxOutboundStreams : Nat} {router : Router}
    (hcr : routerCreate selfId maxEventBytes maxInboundStreams maxOutboundStreams = .ok router) (events : List RouterEvent)
    (h : Run.Along RouterRun.step (fun state event => event.Timely state) ⟨router, [], []⟩ events) :
    (∀ (answers : RouterAnswers) (chunk : DataChunk) (durable : Bool),
      (events.foldl RouterRun.step ⟨router, [], []⟩).unanswered.find? (onLeg chunk.streamId chunk.target) = some chunk →
      (∀ n, answers.enqueue n = .ok ()) → (∀ n, answers.propose n = .ok ()) →
        (routerHandle answers (events.foldl RouterRun.step ⟨router, [], []⟩).router (.dataAck (chunk.ackOf durable))).result =
          .ok ()) ∧
    ∀ (answers : RouterAnswers) (chunk : DataChunk) (durable : Bool),
      chunk ∈ (events.foldl RouterRun.step ⟨router, [], []⟩).late →
      routerFind (events.foldl RouterRun.step ⟨router, [], []⟩).router chunk.streamId = none →
        (routerHandle answers (events.foldl RouterRun.step ⟨router, [], []⟩).router (.dataAck (chunk.ackOf durable))).result =
          .error .enoent := by
  have hinit : (⟨router, [], []⟩ : RouterRun).Sound := by
    unfold routerCreate at hcr
    obtain ⟨-, hcr⟩ := Checks.ite_error_eq_ok.1 hcr
    obtain ⟨-, hcr⟩ := Checks.ite_error_eq_ok.1 hcr
    cases hcr
    exact ⟨⟨nodup_nil, by simp⟩, by simp⟩
  have hsnd := h.invariant (fun _ _ hsnd htm => hsnd.step htm) hinit
  refine ⟨fun answers chunk durable hold => ?_, fun answers chunk durable _ habs => ?_⟩
  · exact (hsnd.sends.answer (hsnd.held chunk (mem_of_find?_eq_some hold)) hold (by simp) answers).2
  · rw [routerHandle, show (chunk.ackOf durable).streamId = chunk.streamId from rfl, habs]
    rfl

end

section
attribute [local instance] asciiVstr plainReceivers plainSenders plainQuorums

def acceptingAnswers : RouterAnswers := ⟨fun _ => .ok (), fun _ => .ok (), fun _ => .ok ()⟩

def threeNodes : Configuration := ⟨[⟨1, true, true⟩, ⟨2, true, true⟩, ⟨3, true, true⟩], by decide⟩

def edgeRouter : Router := ⟨1, 4096, 2, ⟨1, 4096, 2, []⟩, []⟩

def edgeSubmit : RouterEvent := .submit acceptingAnswers 3 44 9 threeNodes (edgeEventData 7)

/-- The slower of two followers answers first. -/
theorem acknowledgement_accepted_three :
    (routerHandle acceptingAnswers ([edgeSubmit].foldl RouterRun.step ⟨edgeRouter, [], []⟩).router
      (.dataAck ((⟨1, 3, 3, 44, (edgeEventData 7).length, 0, [], edgeEventData 7⟩ : DataChunk).ackOf true))).result = .ok () :=
  (acknowledgement_accepted (rfl : routerCreate 1 4096 2 2 = .ok edgeRouter) [edgeSubmit] ⟨trivial, trivial⟩).1
    acceptingAnswers _ true (by decide +kernel) (fun _ => rfl) (fun _ => rfl)

/-- Node 2 answers, the stream is proposed, and the answer of node 3 to the chunk that was sent to it is refused. -/
theorem acknowledgement_refused :
    ([edgeSubmit].foldl RouterRun.step ⟨edgeRouter, [], []⟩).unanswered = [edgeChunk 44, { edgeChunk 44 with target := 3 }] ∧
      (routerHandle acceptingAnswers
        ([edgeSubmit, .answered acceptingAnswers 44 2 true].foldl RouterRun.step ⟨edgeRouter, [], []⟩).router
          (.dataAck (({ edgeChunk 44 with target := 3 } : DataChunk).ackOf true))).result = .error .enoent := by
  decide +kernel

end

end Flowie.Cluster
