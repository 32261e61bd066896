import Flowie.Cluster.DataStream
import Flowie.Lib.KeyedList

/-!
# Streams a follower receives

`flowie_cluster_publish_ingress.c`: the table of streams a node is receiving. An entry is made by the first chunk of
a stream; it keeps an acknowledgement that could not be enqueued, and goes when the acknowledgement of a committed
stream has been enqueued. A commit is remembered by the entry alone: as long as no stream is begun again after its
commit, none is committed twice (`at_most_one_commit`).
-/

namespace Flowie.Cluster

open List KeyedList Mqtt

section
variable [DataReceivers]

/-- `flowie_cluster_publish_ingress_entry_t`; `staged` is the event buffer of its receiver. -/
structure IngressEntry where
  source : NodeId
  streamId : UInt64
  receiver : DataReceivers.Receiver
  staged : Option StagedEvent
  pendingAck : DataAck
  ackPending : Bool
  committed : Bool

def IngressEntry.key (entry : IngressEntry) : NodeId × UInt64 := (entry.source, entry.streamId)

def DataChunk.key (chunk : DataChunk) : NodeId × UInt64 := (chunk.source, chunk.streamId)

/-- `flowie_cluster_publish_ingress_t` without its callbacks. -/
structure Ingress where
  selfId : NodeId
  maxEventBytes : Nat
  maxActiveStreams : Nat
  entries : List IngressEntry

/-- `flowie_cluster_publish_ingress_find`. -/
def ingressFind (ingress : Ingress) (key : NodeId × UInt64) : Option (Nat × IngressEntry) :=
  KeyedList.lookupIdx IngressEntry.key key ingress.entries

def Ingress.setEntry (ingress : Ingress) (index : Nat) (entry : IngressEntry) : Ingress :=
  { ingress with entries := ingress.entries.set index entry }

/-- `flowie_cluster_publish_ingress_remove`. -/
def ingressRemove (ingress : Ingress) (index : Nat) : Ingress :=
  { ingress with entries := ingress.entries.swapRemove index }

/-- A call of the ingress: its result, the acknowledgements it enqueued and the commit callbacks it made. -/
structure IngressCall where
  result : Except Errno Unit
  ingress : Ingress
  sent : List DataAck
  commits : List PublishEvent

def noAck : DataAck := ⟨0, 0, 0, 0, 0, 0, [], false, false⟩

variable [Vstr]

/-- The part of `flowie_cluster_publish_ingress_handle` that hands the chunk to the receiver of the entry at the
index and sends its acknowledgement. The answer to the n-th call of the enqueue callback is `enqueue n`. -/
def ingressReceive (commit : PublishEvent → Except Errno Unit) (enqueue : Nat → Except Errno Unit) (ingress : Ingress) (index : Nat)
    (entry : IngressEntry) (chunk : DataChunk) (sent : List DataAck) : IngressCall :=
  let run := (DataReceivers.handle entry.receiver chunk).run ingress.maxEventBytes commit entry.staged
  let handled := { entry with receiver := run.receiver, staged := run.staged }
  match run.result with
  | .error e => ⟨.error e, ingress.setEntry index handled, sent, run.commits⟩
  | .ok (ack, committed) =>
    let pending := { handled with pendingAck := ack, ackPending := true, committed := committed }
    match enqueue sent.length with
    | .error e => ⟨.error e, ingress.setEntry index pending, sent, run.commits⟩
    | .ok () =>
      let sentEntry := { pending with ackPending := false }
      if committed then ⟨.ok (), ingressRemove (ingress.setEntry index sentEntry) index, sent ++ [ack], run.commits⟩
      else ⟨.ok (), ingress.setEntry index sentEntry, sent ++ [ack], run.commits⟩

/-- `flowie_cluster_publish_ingress_handle` for a chunk. -/
def ingressHandle (commit : PublishEvent → Except Errno Unit) (enqueue : Nat → Except Errno Unit) (ingress : Ingress)
    (chunk : DataChunk) : IngressCall :=
  if chunk.target ≠ ingress.selfId ∨ chunk.source = 0 ∨ chunk.streamId = 0 then ⟨.error .eproto, ingress, [], []⟩
  else
    match ingressFind ingress chunk.key with
    | some (index, entry) =>
      if entry.ackPending then
        match enqueue 0 with
        | .error e => ⟨.error e, ingress, [], []⟩
        | .ok () =>
          let sentEntry := { entry with ackPending := false }
          if entry.committed then ⟨.ok (), ingressRemove (ingress.setEntry index sentEntry) index, [entry.pendingAck], []⟩
          else if chunk.streamOffset < entry.pendingAck.nextOffset then
            ⟨.ok (), ingress.setEntry index sentEntry, [entry.pendingAck], []⟩
          else ingressReceive commit enqueue (ingress.setEntry index sentEntry) index sentEntry chunk [entry.pendingAck]
      else ingressReceive commit enqueue ingress index entry chunk []
    | none =>
      if chunk.streamOffset ≠ 0 then ⟨.error .eproto, ingress, [], []⟩
      else if ingress.entries.length ≥ ingress.maxActiveStreams then ⟨.error .enospc, ingress, [], []⟩
      else
        match DataReceivers.create ingress.selfId ingress.maxEventBytes with
        | .error e => ⟨.error e, ingress, [], []⟩
        | .ok receiver =>
          let created : IngressEntry := ⟨chunk.source, chunk.streamId, receiver, none, noAck, false, false⟩
          ingressReceive commit enqueue { ingress with entries := ingress.entries ++ [created] } ingress.entries.length created
            chunk []

/-! ## What a call can do -/

/-- What the receiver leaves at the index: the entry of the key, or nothing once its acknowledgement was enqueued. At
most one commit is made, and an entry that stays remembers it. -/
structure IngressCall.Receives (call : IngressCall) (ingress : Ingress) (index : Nat) (key : NodeId × UInt64) : Prop where
  single : call.commits.length ≤ 1
  left : ∃ kept : IngressEntry, kept.key = key ∧
    ((call.ingress = ingress.setEntry index kept ∧ (call.commits ≠ [] → kept.ackPending = true ∧ kept.committed = true)) ∨
      call.ingress = ingressRemove ingress index)

variable {ingress : Ingress} {index : Nat}

omit [Vstr] in
theorem ingressRemove_setEntry (entry : IngressEntry) :
    ingressRemove (ingress.setEntry index entry) index = ingressRemove ingress index := by
  rw [ingressRemove, ingressRemove, Ingress.setEntry, swapRemove_set_self]

variable {commit : PublishEvent → Except Errno Unit} {entry : IngressEntry}

theorem ingressReceive_receives (hcm : ∀ event, commit event = .ok ()) {enqueue : Nat → Except Errno Unit}
    {chunk : DataChunk} {sent : List DataAck} :
    (ingressReceive commit enqueue ingress index entry chunk sent).Receives ingress index entry.key := by
  generalize hrun : (DataReceivers.handle entry.receiver chunk).run ingress.maxEventBytes commit entry.staged = run
  have honce : run.commits = [] ∨ run.commits.length = 1 ∧ ∃ ack, run.result = .ok (ack, true) :=
    hrun ▸ (DataReceivers.commitsOnce entry.receiver chunk).run hcm entry.staged
  have hsgl : run.commits.length ≤ 1 := by
    rcases honce with hnone | ⟨hone, -⟩
    · simp [hnone]
    · omega
  unfold ingressReceive
  simp only [hrun]
  cases hres : run.result with
  | error e =>
    -- a failure was not preceded by a commit
    have hnone : run.commits = [] := by
      rcases honce with hnone | ⟨-, ack, hok⟩
      · exact hnone
      · rw [hres] at hok
        cases hok
    refine ⟨hsgl, _, ?_, .inl ⟨rfl, fun h => absurd hnone h⟩⟩
    rfl
  | ok outcome =>
    obtain ⟨ack, committed⟩ := outcome
    have hreported : run.commits ≠ [] → committed = true := by
      intro h
      rcases honce with hnone | ⟨-, ack', hok⟩
      · exact absurd hnone h
      rw [hres] at hok
      cases hok
      rfl
    cases enqueue sent.length with
    | error e =>
      refine ⟨hsgl, _, ?_, .inl ⟨rfl, fun h => ⟨rfl, hreported h⟩⟩⟩
      rfl
    | ok =>
      dsimp only
      split
      · exact ⟨hsgl, entry, rfl, .inr (ingressRemove_setEntry _)⟩
      rename_i huncommitted
      refine ⟨hsgl, _, ?_, .inl ⟨rfl, fun h => absurd (hreported h) huncommitted⟩⟩
      rfl

variable {key : NodeId × UInt64} {call : IngressCall}

omit [Vstr] in
theorem IngressCall.Receives.of_setEntry
    (h : call.Receives (ingress.setEntry index entry) index key) : call.Receives ingress index key := by
  obtain ⟨hsgl, kept, hkey, hleft⟩ := h
  rw [ingressRemove_setEntry] at hleft
  refine ⟨hsgl, kept, hkey, ?_⟩
  simpa only [Ingress.setEntry, set_set] using hleft

/-- The ways a call can go: it changes nothing, enqueues an acknowledgement that was waiting and is then done with the
entry or the chunk, or hands the chunk to an entry that has not committed. -/
inductive IngressCall.Handles (ingress : Ingress) (chunk : DataChunk) (call : IngressCall) : Prop where
  | refused (same : call.ingress = ingress) (none : call.commits = [])
  | acknowledged (index : Nat) (entry kept : IngressEntry) (found : ingressFind ingress chunk.key = some (index, entry))
      (same : kept.key = entry.key) (uncommitted : entry.committed = false) (left : call.ingress = ingress.setEntry index kept)
      (none : call.commits = [])
  | released (index : Nat) (entry : IngressEntry) (found : ingressFind ingress chunk.key = some (index, entry))
      (left : call.ingress = ingressRemove ingress index) (none : call.commits = [])
  | received (index : Nat) (entry : IngressEntry) (found : ingressFind ingress chunk.key = some (index, entry))
      (open_ : ¬(entry.ackPending = true ∧ entry.committed = true)) (receives : call.Receives ingress index entry.key)
  | created (entry : IngressEntry) (absent : ingressFind ingress chunk.key = none) (first : chunk.streamOffset = 0)
      (same : entry.key = chunk.key)
      (receives : call.Receives { ingress with entries := ingress.entries ++ [entry] } ingress.entries.length entry.key)

theorem ingressHandle_handles (hcm : ∀ event, commit event = .ok ()) (enqueue : Nat → Except Errno Unit) (ingress : Ingress)
    (chunk : DataChunk) : (ingressHandle commit enqueue ingress chunk).Handles ingress chunk := by
  unfold ingressHandle
  split
  · exact .refused rfl rfl
  cases hfind : ingressFind ingress chunk.key with
  | none =>
    dsimp only
    split
    · exact .refused rfl rfl
    rename_i hfst
    split
    · exact .refused rfl rfl
    cases DataReceivers.create ingress.selfId ingress.maxEventBytes with
    | error e => exact .refused rfl rfl
    | ok receiver =>
      refine .created _ hfind (by simpa using hfst) rfl (ingressReceive_receives hcm)
  | some found =>
    obtain ⟨index, entry⟩ := found
    dsimp only
    by_cases hpend : entry.ackPending = true
    · rw [if_pos hpend]
      cases enqueue 0 with
      | error e => exact .refused rfl rfl
      | ok =>
        dsimp only
        by_cases hcomm : entry.committed = true
        · rw [if_pos hcomm]
          exact .released index entry hfind (ingressRemove_setEntry _) rfl
        rw [if_neg hcomm]
        split
        · exact .acknowledged index entry { entry with ackPending := false } hfind rfl (by simpa using hcomm) rfl rfl
        · exact .received index entry hfind (fun h => hcomm h.2)
            (ingressReceive_receives hcm).of_setEntry
    · rw [if_neg hpend]
      exact .received index entry hfind (fun h => hpend h.1) (ingressReceive_receives hcm)

/-! ## Runs -/

/-- An ingress and the commit callbacks it has made, each with the stream it was made for. -/
structure IngressLog where
  ingress : Ingress
  commits : List ((NodeId × UInt64) × PublishEvent)

open IngressLog

variable (state : IngressLog)

def IngressLog.committed : List (NodeId × UInt64) := state.commits.map Prod.fst

/-- A chunk that is delivered, and how the callbacks answer while it is handled. -/
structure Delivery where
  chunk : DataChunk
  commit : PublishEvent → Except Errno Unit
  enqueue : Nat → Except Errno Unit

def IngressLog.deliver (delivery : Delivery) : IngressLog :=
  let call := ingressHandle delivery.commit delivery.enqueue state.ingress delivery.chunk
  ⟨call.ingress, state.commits ++ call.commits.map fun event => (delivery.chunk.key, event)⟩

/-- The commit callback does not fail, and the chunk does not begin a stream again that was committed. -/
def Delivery.Fresh (delivery : Delivery) : Prop :=
  (∀ event, delivery.commit event = .ok ()) ∧
    (ingressFind state.ingress delivery.chunk.key = none → delivery.chunk.streamOffset = 0 →
      delivery.chunk.key ∉ state.committed)

/-- No stream is committed twice, and the entry of a committed stream waits to send its acknowledgement. -/
structure IngressLog.Sound (state : IngressLog) : Prop where
  keys : (state.ingress.entries.map IngressEntry.key).Nodup
  once : state.committed.Nodup
  remembered : ∀ entry ∈ state.ingress.entries, entry.key ∈ state.committed → entry.ackPending = true ∧ entry.committed = true

namespace IngressLog.Sound

variable {ingress : Ingress} {log : List ((NodeId × UInt64) × PublishEvent)} {index : Nat} {entry kept : IngressEntry}

section

omit [Vstr]

variable (h : Sound ⟨ingress, log⟩)
include h

section
variable (hget : ingress.entries[index]? = some entry)
include hget

theorem setEntry (hkey : kept.key = entry.key)
    (hkept : kept.key ∈ log.map Prod.fst → kept.ackPending = true ∧ kept.committed = true) :
    Sound ⟨ingress.setEntry index kept, log⟩ where
  keys := by
    rw [Ingress.setEntry, map_set_of_key hget hkey]
    exact h.keys
  once := h.once
  remembered := by
    intro other hmem hcomm
    rcases mem_or_eq_of_mem_set hmem with hold | rfl
    · exact h.remembered other hold hcomm
    · exact hkept hcomm

theorem remove :
    Sound ⟨ingressRemove ingress index, log⟩ where
  keys := nodup_of_subperm h.keys (swapRemove_subperm hget)
  once := h.once
  remembered := fun other hmem => h.remembered other (mem_of_mem_swapRemove (List.getElem?_eq_some_iff.1 hget).1 hmem)

end

/-- The one commit of a stream that has none yet. -/
theorem append (event : PublishEvent) (hfr : key ∉ log.map Prod.fst)
    (hkept : ∀ other ∈ ingress.entries, other.key = key → other.ackPending = true ∧ other.committed = true) :
    Sound ⟨ingress, log ++ [(key, event)]⟩ where
  keys := h.keys
  once := by
    rw [committed, map_append]
    refine h.once.append (nodup_singleton _) ?_
    intro other hmem hsgl
    obtain rfl : other = key := by simpa using hsgl
    exact hfr hmem
  remembered := by
    intro other hmem hcomm
    rw [committed, map_append, mem_append, map_singleton, mem_singleton] at hcomm
    rcases hcomm with hold | hnew
    · exact h.remembered other hmem hold
    · exact hkept other hmem hnew

/-- Handing a chunk to the entry of a stream that was not committed. -/
theorem receive (hget : ingress.entries[index]? = some entry)
    (hfr : entry.key ∉ log.map Prod.fst) (hcall : call.Receives ingress index entry.key) :
    Sound ⟨call.ingress, log ++ call.commits.map fun event => (entry.key, event)⟩ := by
  obtain ⟨hsgl, kept, hkey, hleft⟩ := hcall
  have hset := h.setEntry hget hkey fun hmem => absurd (hkey ▸ hmem) hfr
  cases hcommits : call.commits with
  | nil =>
    rw [map_nil, append_nil]
    rcases hleft with ⟨hleft, -⟩ | hleft
    · exact hleft ▸ hset
    · exact hleft ▸ h.remove hget
  | cons event rest =>
    rw [hcommits] at hsgl hleft
    obtain rfl : rest = [] := eq_nil_of_length_eq_zero (Nat.le_zero.1 (Nat.le_of_succ_le_succ hsgl))
    rw [map_singleton]
    rcases hleft with ⟨hleft, hremembers⟩ | hleft
    · rw [hleft]
      refine hset.append event hfr fun other hmem heq => ?_
      -- the only entry of the key is the one that was set
      have hgetKept : (ingress.setEntry index kept).entries[index]? = some kept := by
        rw [Ingress.setEntry, List.getElem?_set_self (List.getElem?_eq_some_iff.1 hget).1]
      obtain ⟨place, hplc⟩ := List.getElem?_of_mem hmem
      have hoth := lookupIdx_of_getElem? hset.keys hplc
      rw [heq, ← hkey, lookupIdx_of_getElem? hset.keys hgetKept] at hoth
      cases hoth
      exact hremembers (cons_ne_nil _ _)
    · rw [hleft]
      refine (h.remove hget).append event hfr fun other hmem heq => ?_
      exact absurd heq ((mem_swapRemove_iff h.keys hget).1 hmem).2

end

end IngressLog.Sound

/-- A delivery that does not begin a committed stream again keeps the table sound. -/
theorem IngressLog.Sound.deliver {state : IngressLog} (h : state.Sound) {delivery : Delivery} (hfr : delivery.Fresh state) :
    (state.deliver delivery).Sound := by
  obtain ⟨ingress, log⟩ := state
  obtain ⟨hcm, hbeg⟩ := hfr
  have hcases := ingressHandle_handles hcm delivery.enqueue ingress delivery.chunk
  unfold IngressLog.deliver
  dsimp only at hbeg ⊢
  generalize ingressHandle delivery.commit delivery.enqueue ingress delivery.chunk = call at hcases ⊢
  cases hcases with
  | refused hsame hnone =>
    rw [hsame, hnone, map_nil, append_nil]
    exact h
  | acknowledged index entry kept hfnd hkey huncommitted hleft hnone =>
    obtain ⟨hget, -⟩ := getElem?_of_lookupIdx hfnd
    rw [hleft, hnone, map_nil, append_nil]
    refine h.setEntry hget hkey fun hmem => ?_
    have hremembered := h.remembered entry (mem_of_getElem? hget) (hkey ▸ hmem)
    rw [huncommitted] at hremembered
    cases hremembered.2
  | released index entry hfnd hleft hnone =>
    obtain ⟨hget, -⟩ := getElem?_of_lookupIdx hfnd
    rw [hleft, hnone, map_nil, append_nil]
    exact h.remove hget
  | received index entry hfnd hopen hreceives =>
    obtain ⟨hget, hkey⟩ := getElem?_of_lookupIdx hfnd
    rw [← hkey]
    exact h.receive hget (fun hmem => hopen (h.remembered entry (mem_of_getElem? hget) hmem)) hreceives
  | created entry habs hfst hkey hreceives =>
    have hnew := hbeg habs hfst
    rw [← hkey] at hnew ⊢
    have hoth := lookupIdx_eq_none.1 habs
    have hextended : Sound ⟨{ ingress with entries := ingress.entries ++ [entry] }, log⟩ :=
      { keys := nodup_append h.keys fun other hmem => hkey ▸ hoth other hmem
        once := h.once
        remembered := by
          intro other hmem hcomm
          rcases List.mem_append.1 hmem with hold | hlast
          · exact h.remembered other hold hcomm
          · exact absurd (List.mem_singleton.1 hlast ▸ hcomm) hnew }
    exact hextended.receive (by simp) hnew hreceives

def newIngress (selfId : NodeId) (maxEventBytes maxActiveStreams : Nat) : IngressLog :=
  ⟨⟨selfId, maxEventBytes, maxActiveStreams, []⟩, []⟩

/-- However chunks are delivered, repeated or lost, and whatever the enqueue callback answers: while the commit callback
does not fail and no stream is begun again after its commit, unless nothing changes, the callback is called at most once
for each stream. -/
theorem at_most_one_commit (selfId : NodeId) (maxEventBytes maxActiveStreams : Nat) (deliveries : List Delivery)
    (h : Run.Along IngressLog.deliver (fun state delivery => delivery.Fresh state ∨ state.deliver delivery = state)
      (newIngress selfId maxEventBytes maxActiveStreams) deliveries) :
    (deliveries.foldl IngressLog.deliver (newIngress selfId maxEventBytes maxActiveStreams)).committed.Nodup := by
  have hinit : (newIngress selfId maxEventBytes maxActiveStreams).Sound :=
    { keys := nodup_nil, once := nodup_nil, remembered := by simp [newIngress] }
  exact (h.invariant (fun _ _ hsnd hstep => hstep.elim hsnd.deliver fun hsame => hsame.symm ▸ hsnd) hinit).once

end

section
attribute [local instance] asciiVstr plainReceivers

def edgeChunk (streamId : UInt64) : DataChunk :=
  ⟨1, 2, 3, streamId, (edgeEventData 7).length, 0, [], edgeEventData 7⟩

def acceptedDelivery (streamId : UInt64) : Delivery := ⟨edgeChunk streamId, fun _ => .ok (), fun _ => .ok ()⟩

/-- The acknowledgement cannot be enqueued. -/
def unsentDelivery (streamId : UInt64) : Delivery := ⟨edgeChunk streamId, fun _ => .ok (), fun _ => .error .enospc⟩

/-- A stream whose acknowledgement could not be enqueued is sent again, then another stream. -/
theorem at_most_one_commit_resent :
    (List.foldl IngressLog.deliver (newIngress 2 4096 2) [unsentDelivery 44, acceptedDelivery 44, acceptedDelivery 45]).committed =
        [(1, 44), (1, 45)] ∧
      (List.foldl IngressLog.deliver (newIngress 2 4096 2)
        [unsentDelivery 44, acceptedDelivery 44, acceptedDelivery 45]).committed.Nodup := by
  refine ⟨by decide +kernel, at_most_one_commit 2 4096 2 _ ⟨.inl ⟨fun _ => rfl, ?_⟩, .inl ⟨fun _ => rfl, ?_⟩,
    .inl ⟨fun _ => rfl, ?_⟩, trivial⟩⟩
  · exact fun _ _ => not_mem_nil
  · -- the entry waits for its acknowledgement
    exact fun habs => absurd (congrArg Option.isNone habs) (by decide +kernel)
  · exact fun _ _ => by decide +kernel

/-- The acknowledgement of a committed stream is enqueued and lost, and the leader sends the stream again. -/
theorem committed_twice :
    (List.foldl IngressLog.deliver (newIngress 2 4096 2) [acceptedDelivery 44, acceptedDelivery 44]).committed = [(1, 44), (1, 44)] := by
  decide +kernel

end

end Flowie.Cluster
