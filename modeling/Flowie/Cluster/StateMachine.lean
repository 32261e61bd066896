import Flowie.Cluster.Owners

/-!
# The replicated state machine

`flowie_cluster_state_machine.c`: a committed batch has owner commands, which go to the owner directory, and
descriptors of published events, which go to a callback. The batch stops at the first entry that fails, and
what was applied before it stays applied.
-/

namespace Flowie.Cluster

open List CommittedCommand

/-- `flowie_cluster_state_machine_t`: the directory, and what the publish callback keeps. -/
structure StateMachine (ϖ : Type) where
  owners : OwnerDirectory
  publish : ϖ

/-- `flowie_cluster_publish_descriptor_apply_fn`: the index, the term and the command identifier of the entry and
its descriptor. -/
abbrev PublishDescriptorApply (ϖ Descriptor : Type) := ϖ → UInt64 → UInt64 → UInt64 → Descriptor → ϖ × Except Errno Unit

def dataMagic : Bytes := text "TRDS"

def LogEntry.isOwner (entry : LogEntry) : Bool := entry.data.take 4 == ownerCommandMagic

section
variable {ϖ Descriptor : Type} (decode : Bytes → Except Errno Descriptor) (applyPublish : PublishDescriptorApply ϖ Descriptor)

/-- One turn of the loop. `decode` is `tr_raft_data_descriptor_decode`. -/
def stateMachineApply (state : StateMachine ϖ) (entry : LogEntry) : StateMachine ϖ × Except Errno Unit :=
  if entry.data.length < 4 then (state, .error .eproto)
  else if entry.isOwner then
    match ownerProjectionApply state.owners entry with
    | .error e => (state, .error e)
    | .ok owners => ({ state with owners }, .ok ())
  else if entry.data.take 4 = dataMagic then
    match decode entry.data with
    | .error e => (state, .error e)
    | .ok descriptor =>
      let answer := applyPublish state.publish entry.index entry.term entry.commandId descriptor
      ({ state with publish := answer.1 }, answer.2)
  else (state, .error .eproto)

def applyEntries : StateMachine ϖ → List LogEntry → StateMachine ϖ × Except Errno Unit
  | state, [] => (state, .ok ())
  | state, entry :: entries =>
    match stateMachineApply decode applyPublish state entry with
    | (stopped, .error e) => (stopped, .error e)
    | (next, .ok _) => applyEntries next entries

/-- `flowie_cluster_state_machine_apply_batch`. -/
def stateMachineApplyBatch (state : StateMachine ϖ) (entries : List LogEntry) : StateMachine ϖ × Except Errno Unit :=
  if entries.isEmpty then (state, .error .einval) else applyEntries decode applyPublish state entries

/-! ## The directory after a batch -/

def Publishes (entry : LogEntry) : Prop :=
  entry.isOwner = false ∧ entry.data.take 4 = dataMagic ∧ ∃ descriptor, decode entry.data = .ok descriptor

variable {decode applyPublish}
  {state : StateMachine ϖ} {entry : LogEntry} {entries : List LogEntry}

theorem four_le_of_take {data magic : Bytes} (h : data.take 4 = magic) (hmag : magic.length = 4) : ¬data.length < 4 := by
  rw [← h, length_take] at hmag
  omega

theorem stateMachineApply_owner (h : entry.isOwner) :
    stateMachineApply decode applyPublish state entry =
      match ownerProjectionApply state.owners entry with
      | .error e => (state, .error e)
      | .ok owners => ({ state with owners }, .ok ()) := by
  have htake : entry.data.take 4 = ownerCommandMagic := by simpa [LogEntry.isOwner] using h
  rw [stateMachineApply, if_neg (four_le_of_take htake rfl), if_pos h]

theorem stateMachineApply_publishes (h : Publishes decode entry) :
    ∃ descriptor, stateMachineApply decode applyPublish state entry =
      ({ state with publish := (applyPublish state.publish entry.index entry.term entry.commandId descriptor).1 },
        (applyPublish state.publish entry.index entry.term entry.commandId descriptor).2) := by
  obtain ⟨hown, hmag, descriptor, hdec⟩ := h
  refine ⟨descriptor, ?_⟩
  rw [stateMachineApply, if_neg (four_le_of_take hmag rfl), if_neg (by simp [hown]), if_pos hmag, hdec]

/-- An entry that is no owner command leaves the directory, and is a descriptor when it succeeds. -/
theorem stateMachineApply_other (h : entry.isOwner = false) :
    (stateMachineApply decode applyPublish state entry).1.owners = state.owners ∧
      ((stateMachineApply decode applyPublish state entry).2 = .ok () → Publishes decode entry) := by
  by_cases hpubs : Publishes decode entry
  · obtain ⟨descriptor, heq⟩ := stateMachineApply_publishes hpubs
    exact ⟨by rw [heq], fun _ => hpubs⟩
  unfold stateMachineApply
  split
  · exact ⟨rfl, nofun⟩
  simp only [h, Bool.false_eq_true, if_false]
  split
  · rename_i hmag
    cases hdec : decode entry.data with
    | error e => exact ⟨rfl, nofun⟩
    | ok descriptor => exact absurd ⟨h, hmag, descriptor, hdec⟩ hpubs
  · exact ⟨rfl, nofun⟩

theorem owners_of_stateMachineApply_error {e : Errno} (h : (stateMachineApply decode applyPublish state entry).2 = .error e) :
    (stateMachineApply decode applyPublish state entry).1.owners = state.owners := by
  cases hown : entry.isOwner with
  | false => exact (stateMachineApply_other hown).1
  | true =>
    rw [stateMachineApply_owner hown] at h ⊢
    cases happ : ownerProjectionApply state.owners entry with
    | error e' => rfl
    | ok owners => simp [happ] at h

/-- A batch that succeeds has applied its owner entries to the directory one after the other. -/
theorem owners_of_applyEntries_ok (h : (applyEntries decode applyPublish state entries).2 = .ok ()) :
    (entries.filter (·.isOwner)).foldlM ownerProjectionApply state.owners =
        .ok (applyEntries decode applyPublish state entries).1.owners ∧
      ∀ entry ∈ entries, entry.isOwner = true ∨ Publishes decode entry := by
  induction entries generalizing state with
  | nil => exact ⟨rfl, nofun⟩
  | cons entry entries ih =>
    unfold applyEntries at h ⊢
    cases hown : entry.isOwner with
    | false =>
      have hoth : (stateMachineApply decode applyPublish state entry).1.owners = state.owners ∧ _ :=
        stateMachineApply_other hown
      cases happ : stateMachineApply decode applyPublish state entry with
      | mk next status =>
        rw [happ] at h hoth
        cases status with
        | error e => cases h
        | ok value =>
          obtain ⟨hkept, hpubs⟩ := hoth
          obtain ⟨hfold, hall⟩ := ih h
          rw [hkept] at hfold
          exact ⟨by simpa [hown] using hfold, List.forall_mem_cons.2 ⟨Or.inr (hpubs rfl), hall⟩⟩
    | true =>
      rw [stateMachineApply_owner hown] at h ⊢
      cases happ : ownerProjectionApply state.owners entry with
      | error e => simp [happ] at h
      | ok owners =>
        simp only [happ] at h ⊢
        obtain ⟨hfold, hall⟩ := ih h
        refine ⟨?_, List.forall_mem_cons.2 ⟨Or.inl hown, hall⟩⟩
        rw [filter_cons_of_pos hown, foldlM_cons, happ]
        exact hfold

/-- When the callback does not fail, a batch is applied as soon as the directory takes its owner entries. -/
theorem applyEntries_of_owners {owners : OwnerDirectory}
    (hpub : ∀ publish index term commandId descriptor, (applyPublish publish index term commandId descriptor).2 = .ok ())
    (hall : ∀ entry ∈ entries, entry.isOwner = true ∨ Publishes decode entry)
    (hfold : (entries.filter (·.isOwner)).foldlM ownerProjectionApply state.owners = .ok owners) :
    (applyEntries decode applyPublish state entries).2 = .ok () := by
  induction entries generalizing state with
  | nil => rfl
  | cons entry entries ih =>
    obtain ⟨hent, hrest⟩ := List.forall_mem_cons.1 hall
    unfold applyEntries
    cases hown : entry.isOwner with
    | false =>
      have hpubs : Publishes decode entry := hent.resolve_left (by simp [hown])
      obtain ⟨descriptor, heq⟩ : ∃ _, stateMachineApply decode applyPublish state entry = _ :=
        stateMachineApply_publishes hpubs
      rw [heq, hpub]
      exact ih hrest (by simpa [hown] using hfold)
    | true =>
      rw [filter_cons_of_pos hown, foldlM_cons] at hfold
      rw [stateMachineApply_owner hown]
      cases happ : ownerProjectionApply state.owners entry with
      | error e =>
        rw [happ] at hfold
        cases hfold
      | ok next =>
        rw [happ] at hfold
        exact ih hrest hfold

end

section
variable {ϖ Descriptor : Type} {decode : Bytes → Except Errno Descriptor} {applyPublish : PublishDescriptorApply ϖ Descriptor}

/-- A batch whose entry fails after others that succeeded has applied just those to the directory. -/
theorem applyEntries_stop {state : StateMachine ϖ} {before : List LogEntry} (after : List LogEntry) {failing : LogEntry} {e : Errno}
    (hbef : (applyEntries decode applyPublish state before).2 = .ok ())
    (hfail : (stateMachineApply decode applyPublish (applyEntries decode applyPublish state before).1 failing).2 = .error e) :
    (applyEntries decode applyPublish state (before ++ failing :: after)).2 = .error e ∧
      (applyEntries decode applyPublish state (before ++ failing :: after)).1.owners =
        (applyEntries decode applyPublish state before).1.owners := by
  induction before generalizing state with
  | nil =>
    have howners := owners_of_stateMachineApply_error hfail
    simp only [nil_append, applyEntries] at hfail howners ⊢
    cases happ : stateMachineApply decode applyPublish state failing with
    | mk stopped status =>
      rw [happ] at hfail howners
      cases status with
      | error e' => exact ⟨hfail, howners⟩
      | ok value => cases hfail
  | cons entry before ih =>
    simp only [cons_append, applyEntries] at hbef hfail ⊢
    cases happ : stateMachineApply decode applyPublish state entry with
    | mk next status =>
      simp only [happ] at hbef hfail ⊢
      cases status with
      | error e' => cases hbef
      | ok value => exact ih hbef hfail

end

/-! ## Applying a batch again -/

variable {owners after : OwnerDirectory} {entries : List LogEntry} {entry : LogEntry}

theorem revision_of_owners (h : (entry :: entries).foldlM ownerProjectionApply owners = .ok after) :
    after.revision ∈ (entry :: entries).map (·.index) ∧ after.shardCount = owners.shardCount := by
  induction entries generalizing owners entry with
  | nil =>
    have happ : ownerProjectionApply owners entry = .ok after := by simpa using h
    obtain ⟨hrev, hcnt⟩ := ownerProjectionApply_kept happ
    exact ⟨by simp [hrev], hcnt⟩
  | cons second entries ih =>
    rw [foldlM_cons] at h
    cases happ : ownerProjectionApply owners entry with
    | error e =>
      rw [happ] at h
      cases h
    | ok next =>
      rw [happ] at h
      obtain ⟨hrev, hcnt⟩ := ih h
      exact ⟨mem_cons_of_mem _ hrev, hcnt.trans (ownerProjectionApply_kept happ).2⟩

/-- Owner entries of which some were applied already are applied to the same end exactly when at most one was. -/
theorem owners_again_iff {stopped : OwnerDirectory} {before rest : List LogEntry}
    (hix : (before ++ rest).Pairwise (·.index < ·.index))
    (hcln : (before ++ rest).foldlM ownerProjectionApply owners = .ok after)
    (hstopped : before.foldlM ownerProjectionApply owners = .ok stopped) :
    (before ++ rest).foldlM ownerProjectionApply stopped = .ok after ↔ before.length ≤ 1 := by
  rw [foldlM_append, hstopped] at hcln
  have hrest : rest.foldlM ownerProjectionApply stopped = .ok after := hcln
  match before with
  | [] => exact iff_of_true hrest (Nat.zero_le 1)
  | [entry] =>
    -- the directory is at the revision of the entry and takes it again
    have happ : ownerProjectionApply owners entry = .ok stopped := by simpa using hstopped
    refine iff_of_true ?_ (Nat.le_refl 1)
    rw [singleton_append, foldlM_cons, ownerProjectionApply_again happ]
    exact hrest
  | first :: second :: entries =>
    -- the first entry is older than the directory by now
    rw [foldlM_cons] at hstopped
    cases happ : ownerProjectionApply owners first with
    | error e =>
      rw [happ] at hstopped
      cases hstopped
    | ok next =>
      rw [happ] at hstopped
      obtain ⟨hrev, hcnt⟩ := revision_of_owners hstopped
      obtain ⟨later, hlat, hindexLater⟩ := List.mem_map.1 hrev
      have holder : first.index < stopped.revision := by
        rw [← hindexLater]
        exact (List.pairwise_cons.1 (List.pairwise_append.1 hix).1).1 later hlat
      have hbusy := ownerProjectionApply_older happ (hcnt.trans (ownerProjectionApply_kept happ).2) holder
      refine iff_of_false ?_ (by simp)
      rw [cons_append, foldlM_cons, hbusy]
      nofun

/-- A batch that a first attempt with the callback `first` stopped at `failing`, applied again once the callback
does not fail: it succeeds, and leaves the directory of a clean run, exactly when at most one owner entry was
applied before the failure. -/
theorem batch_again_iff {ϖ Descriptor : Type} (decode : Bytes → Except Errno Descriptor)
    (first again : PublishDescriptorApply ϖ Descriptor)
    (hgone : ∀ publish index term commandId descriptor, (again publish index term commandId descriptor).2 = .ok ())
    (state : StateMachine ϖ) (before after : List LogEntry) (failing : LogEntry) (e : Errno)
    (hix : (before ++ failing :: after).Pairwise (·.index < ·.index))
    (hcln : (stateMachineApplyBatch decode again state (before ++ failing :: after)).2 = .ok ())
    (hbef : (applyEntries decode first state before).2 = .ok ())
    (hfail : (stateMachineApply decode first (applyEntries decode first state before).1 failing).2 = .error e) :
    (stateMachineApplyBatch decode first state (before ++ failing :: after)).2 = .error e ∧
    (((stateMachineApplyBatch decode again (stateMachineApplyBatch decode first state (before ++ failing :: after)).1
          (before ++ failing :: after)).2 = .ok () ∧
        (stateMachineApplyBatch decode again (stateMachineApplyBatch decode first state (before ++ failing :: after)).1
          (before ++ failing :: after)).1.owners =
          (stateMachineApplyBatch decode again state (before ++ failing :: after)).1.owners) ↔
      (before.filter (·.isOwner)).length ≤ 1) := by
  have hbatch : ∀ applyPublish : PublishDescriptorApply ϖ Descriptor, ∀ from',
      stateMachineApplyBatch decode applyPublish from' (before ++ failing :: after) =
        applyEntries decode applyPublish from' (before ++ failing :: after) := fun _ _ => by simp [stateMachineApplyBatch]
  simp only [hbatch] at hcln ⊢
  obtain ⟨hstatus, hstopped⟩ := applyEntries_stop after hbef hfail
  refine ⟨hstatus, ?_⟩
  obtain ⟨hcleanFold, hall⟩ := owners_of_applyEntries_ok hcln
  have hfirstFold := (owners_of_applyEntries_ok hbef).1
  rw [← hstopped] at hfirstFold
  rw [filter_append] at hcleanFold
  have hfil : ((before.filter (·.isOwner)) ++ ((failing :: after).filter (·.isOwner))).Pairwise (·.index < ·.index) := by
    rw [← filter_append]
    exact hix.filter _
  rw [← owners_again_iff hfil hcleanFold hfirstFold, ← filter_append]
  constructor
  · rintro ⟨hok, howners⟩
    rw [← howners]
    exact (owners_of_applyEntries_ok hok).1
  · intro hfold
    have hok := applyEntries_of_owners hgone hall hfold
    exact ⟨hok, Except.ok.inj ((owners_of_applyEntries_ok hok).1.symm.trans hfold)⟩

def twoShards : OwnerDirectoryConfig := ⟨1, 2, text "c", text "l"⟩

def twoShardDirectory : OwnerDirectory :=
  ⟨2, [DirectoryEntry.unassigned 0, DirectoryEntry.unassigned 1], 0, UInt32.ofNat (2 ^ 32 - 1), rfl⟩

def assignCommand (shardId : UInt32) : OwnerCommand := ⟨.assign, shardId, 1, text "a", bootOf 1⟩

def assignEntry (index : UInt64) (shardId : UInt32) : LogEntry :=
  ⟨index, 1, index, (assignCommand shardId).header.flatten ++ (assignCommand shardId).nodeId⟩

def publishEntry (index : UInt64) : LogEntry := ⟨index, 1, index, dataMagic⟩

def answering (answer : Except Errno Unit) : PublishDescriptorApply Unit Bytes := fun state _ _ _ _ => (state, answer)

theorem batch_again_one_owner :
    ownerDirectoryCreate twoShards = .ok twoShardDirectory ∧
      (stateMachineApplyBatch .ok (answering (.error .eio)) ⟨twoShardDirectory, ()⟩
        [assignEntry 1 0, publishEntry 2, assignEntry 3 1]).2 = .error .eio ∧
      (stateMachineApplyBatch .ok (answering (.ok ()))
        (stateMachineApplyBatch .ok (answering (.error .eio)) ⟨twoShardDirectory, ()⟩
          [assignEntry 1 0, publishEntry 2, assignEntry 3 1]).1
        [assignEntry 1 0, publishEntry 2, assignEntry 3 1]).2 = .ok () := by
  have hix : ([assignEntry 1 0, publishEntry 2, assignEntry 3 1] : List LogEntry).Pairwise (·.index < ·.index) := by
    decide +kernel
  have hagain := batch_again_iff .ok (answering (.error .eio)) (answering (.ok ())) (fun _ _ _ _ _ => rfl)
    ⟨twoShardDirectory, ()⟩ [assignEntry 1 0] [assignEntry 3 1] (publishEntry 2) .eio hix (by rfl) (by rfl) (by rfl)
  exact ⟨rfl, hagain.1, (hagain.2.2 (by decide +kernel)).1⟩

/-- With two owner entries before the failure, the batch is refused for good. -/
theorem batch_again_refused :
    ownerDirectoryCreate twoShards = .ok twoShardDirectory ∧
      (stateMachineApplyBatch .ok (answering (.ok ())) ⟨twoShardDirectory, ()⟩
        [assignEntry 1 0, assignEntry 2 1, publishEntry 3]).2 = .ok () ∧
      (stateMachineApplyBatch .ok (answering (.error .eio)) ⟨twoShardDirectory, ()⟩
        [assignEntry 1 0, assignEntry 2 1, publishEntry 3]).2 = .error .eio ∧
      (stateMachineApplyBatch .ok (answering (.ok ()))
        (stateMachineApplyBatch .ok (answering (.error .eio)) ⟨twoShardDirectory, ()⟩
          [assignEntry 1 0, assignEntry 2 1, publishEntry 3]).1
        [assignEntry 1 0, assignEntry 2 1, publishEntry 3]).2 = .error .ebusy :=
  ⟨rfl, rfl, rfl, rfl⟩

/-! ## Proposed commands -/

inductive GenerationState where
  | created
  | running
  | stopped
deriving DecidableEq, Repr

/-- `tr_raft_proposal_t`. -/
structure Proposal where
  commandId : UInt64
  data : Bytes
deriving DecidableEq, Repr

def ownerCommandMaxSize : Nat := ownerCommandHeaderSize + nodeIdMax

/-- `flowie_cluster_raft_generation_propose_owner` up to what it hands to `runtime_propose`. -/
def raftGenerationProposeOwner (generation : GenerationState) (commandId : UInt64) (command : OwnerCommand) :
    Except Errno Proposal :=
  if generation ≠ .running ∨ commandId = 0 then .error .einval
  else
    match ownerCommandEncode command ownerCommandMaxSize with
    | .error e => .error e
    | .ok encoded => .ok ⟨commandId, encoded⟩

theorem raftGenerationProposeOwner_eq_ok {generation : GenerationState} {commandId : UInt64} {command : OwnerCommand}
    {proposal : Proposal} (h : raftGenerationProposeOwner generation commandId command = .ok proposal) :
    command.valid ∧ proposal = ⟨commandId, command.header.flatten ++ command.nodeId⟩ := by
  unfold raftGenerationProposeOwner at h
  split_ifs at h
  cases henc : ownerCommandEncode command ownerCommandMaxSize with
  | error e => simp [henc] at h
  | ok encoded =>
    obtain ⟨hval, hdata⟩ := ownerCommandEncode_eq_ok henc
    simp only [henc, Except.ok.injEq] at h
    exact ⟨hval, by rw [← h, hdata]⟩

section
variable {ϖ Descriptor : Type} {decode : Bytes → Except Errno Descriptor}

/-- The replica after batches of the log, each with the answers of its callback. -/
def replicaAfter (decode : Bytes → Except Errno Descriptor) (state : StateMachine ϖ)
    (batches : List (PublishDescriptorApply ϖ Descriptor × List LogEntry)) : StateMachine ϖ :=
  batches.foldl (fun state batch => (stateMachineApplyBatch decode batch.1 state batch.2).1) state

/-- The directory has the shards it was created with and no revision from `index` on. -/
def Behind (shardCount : UInt32) (index : UInt64) (state : StateMachine ϖ) : Prop :=
  state.owners.shardCount = shardCount ∧ state.owners.revision < index

variable {shardCount : UInt32} {index : UInt64} {applyPublish : PublishDescriptorApply ϖ Descriptor} {state : StateMachine ϖ}

def NoneFails (decode : Bytes → Except Errno Descriptor) (state : StateMachine ϖ)
    (batches : List (PublishDescriptorApply ϖ Descriptor × List LogEntry)) : Prop :=
  Run.Along (fun state batch => (stateMachineApplyBatch decode batch.1 state batch.2).1)
    (fun state batch => (stateMachineApplyBatch decode batch.1 state batch.2).2 = .ok ()) state batches

variable {batches batches' : List (PublishDescriptorApply ϖ Descriptor × List LogEntry)}

theorem owners_of_log (h : NoneFails decode state batches) :
    .ok (replicaAfter decode state batches).owners =
      ((batches.flatMap (·.2)).filter (·.isOwner)).foldlM ownerProjectionApply state.owners := by
  induction batches generalizing state with
  | nil => rfl
  | cons batch batches ih =>
    obtain ⟨hbatch, hrest⟩ := h
    unfold stateMachineApplyBatch at hbatch
    split_ifs at hbatch with hne
    have happ : stateMachineApplyBatch decode batch.1 state batch.2 = _ := if_neg hne
    rw [flatMap_cons, filter_append, foldlM_append, (owners_of_applyEntries_ok hbatch).1, ← happ]
    exact ih hrest

/-- When no batch fails, the directory comes from the owner commands of the log alone, in log order: not from how the
log was cut into batches, nor from the answers of the callback. -/
theorem directory_of_log (h : NoneFails decode state batches) :
    .ok (replicaAfter decode state batches).owners =
      ((batches.flatMap (·.2)).filter (·.isOwner)).foldlM ownerProjectionApply state.owners :=
  owners_of_log h

/-- Replicas that start from one directory and apply the same log agree on the owners. -/
theorem replicas_agree {state' : StateMachine ϖ} (h : NoneFails decode state batches) (h' : NoneFails decode state' batches')
    (hstart : state.owners = state'.owners) (hlog : batches.flatMap (·.2) = batches'.flatMap (·.2)) :
    (replicaAfter decode state batches).owners = (replicaAfter decode state' batches').owners := by
  have hleft := owners_of_log h
  rw [hlog, hstart, ← owners_of_log h'] at hleft
  exact Except.ok.inj hleft

theorem directory_of_log_two : .ok (replicaAfter .ok ⟨twoShardDirectory, ()⟩
      [(answering (.ok ()), [assignEntry 1 0, publishEntry 2]), (answering (.error .eio), [assignEntry 3 1])]).owners =
    [assignEntry 1 0, assignEntry 3 1].foldlM ownerProjectionApply twoShardDirectory :=
  directory_of_log ⟨rfl, rfl, trivial⟩

variable (h : Behind shardCount index state)
include h

theorem Behind.apply (hent : entry.index < index) :
    Behind shardCount index (stateMachineApply decode applyPublish state entry).1 := by
  cases hown : entry.isOwner with
  | false =>
    unfold Behind
    rw [(stateMachineApply_other hown).1]
    exact h
  | true =>
    rw [stateMachineApply_owner hown]
    cases happ : ownerProjectionApply state.owners entry with
    | error e => exact h
    | ok owners =>
      obtain ⟨hrev, hcnt⟩ := ownerProjectionApply_kept happ
      exact ⟨hcnt.trans h.1, hrev ▸ hent⟩

theorem Behind.applyEntries (hents : ∀ entry ∈ entries, entry.index < index) :
    Behind shardCount index (applyEntries decode applyPublish state entries).1 := by
  induction entries generalizing state with
  | nil => exact h
  | cons entry entries ih =>
    obtain ⟨hent, hrest⟩ := List.forall_mem_cons.1 hents
    have hnext : Behind shardCount index (stateMachineApply decode applyPublish state entry).1 := h.apply hent
    unfold Cluster.applyEntries
    cases happ : stateMachineApply decode applyPublish state entry with
    | mk next status =>
      rw [happ] at hnext
      cases status with
      | error e => exact hnext
      | ok value => exact ih hnext hrest

theorem Behind.replicaAfter (hbatches : ∀ batch ∈ batches, ∀ entry ∈ batch.2, entry.index < index) :
    Behind shardCount index (replicaAfter decode state batches) := by
  induction batches generalizing state with
  | nil => exact h
  | cons batch batches ih =>
    obtain ⟨hbatch, hrest⟩ := List.forall_mem_cons.1 hbatches
    refine ih ?_ hrest
    show Behind shardCount index (stateMachineApplyBatch decode batch.1 state batch.2).1
    unfold stateMachineApplyBatch
    split
    · exact h
    · exact h.applyEntries hbatch

end

/-- A proposed command, committed at `index` and applied in log order by a replica whose directory was created with
the configuration, whatever it applied before and however its callback answered: it is applied exactly when its
shard is one of the configuration's. -/
theorem proposed_owner_applied_iff {ϖ Descriptor : Type} (decode : Bytes → Except Errno Descriptor)
    (applyPublish : PublishDescriptorApply ϖ Descriptor) {config : OwnerDirectoryConfig} {created : OwnerDirectory}
    (hcr : ownerDirectoryCreate config = .ok created) (publish : ϖ)
    (batches : List (PublishDescriptorApply ϖ Descriptor × List LogEntry)) {generation : GenerationState} {commandId : UInt64}
    {command : OwnerCommand} {proposal : Proposal}
    (hprop : raftGenerationProposeOwner generation commandId command = .ok proposal) (index term : UInt64) (hix : 0 < index)
    (hord : ∀ batch ∈ batches, ∀ entry ∈ batch.2, entry.index < index) :
    (stateMachineApplyBatch decode applyPublish (replicaAfter decode ⟨created, publish⟩ batches)
      [⟨index, term, proposal.commandId, proposal.data⟩]).2 = .ok () ↔ command.shardId < config.shardCount := by
  obtain ⟨hval, rfl⟩ := raftGenerationProposeOwner_eq_ok hprop
  have hmk : Behind config.shardCount index (⟨created, publish⟩ : StateMachine ϖ) := by
    unfold ownerDirectoryCreate at hcr
    split_ifs at hcr
    · cases hcr
      exact ⟨rfl, hix⟩
  obtain ⟨hcnt, hnewer⟩ := hmk.replicaAfter hord
  have hown : (entry ⟨index, term, commandId, command, hval⟩).isOwner := by
    simp [entry, LogEntry.isOwner, OwnerCommand.header, ownerCommandMagic, text]
  have happ : stateMachineApply decode applyPublish (replicaAfter decode ⟨created, publish⟩ batches)
      (entry ⟨index, term, commandId, command, hval⟩) = _ := stateMachineApply_owner hown
  rw [ownerProjectionApply_committed hnewer, hcnt] at happ
  show (applyEntries decode applyPublish _ [entry ⟨index, term, commandId, command, hval⟩]).2 = .ok () ↔ _
  simp only [applyEntries, happ]
  by_cases hshd : command.shardId < config.shardCount <;> simp [hshd]

theorem proposed_owner_applied_second :
    (raftGenerationProposeOwner .running 9 (assignCommand 1)).map (·.commandId) = .ok 9 ∧
      (stateMachineApplyBatch .ok (answering (.ok ())) (replicaAfter .ok ⟨twoShardDirectory, ()⟩ [(answering (.ok ()), [assignEntry 1 0])])
        [⟨2, 1, 9, (assignCommand 1).header.flatten ++ (assignCommand 1).nodeId⟩]).2 = .ok () :=
  ⟨rfl, (proposed_owner_applied_iff .ok (answering (.ok ())) (rfl : ownerDirectoryCreate twoShards = .ok twoShardDirectory) ()
    [(answering (.ok ()), [assignEntry 1 0])] (rfl : raftGenerationProposeOwner .running 9 (assignCommand 1) = .ok _) 2 1
    (by decide) (by decide +kernel)).2 (by decide)⟩

/-- A command for shard 2 of two shards is encoded and proposed, and no replica ever applies it. -/
theorem proposed_owner_refused :
    raftGenerationProposeOwner .running 9 (assignCommand 2) =
        .ok ⟨9, (assignCommand 2).header.flatten ++ (assignCommand 2).nodeId⟩ ∧
      (stateMachineApplyBatch .ok (answering (.ok ())) ⟨twoShardDirectory, ()⟩
        [⟨1, 1, 9, (assignCommand 2).header.flatten ++ (assignCommand 2).nodeId⟩]).2 = .error .einval :=
  ⟨rfl, rfl⟩

end Flowie.Cluster
