import Flowie.Cluster.Owners
import Mathlib.Data.List.Induction

/-!
# Epochs in the owner directory

The directory compares the revision of an entry with its own and never the epochs. So what it says of a shard
is the last command of the log for the shard, and the epochs it gives out go up exactly when those of the
assignments in the log do.
-/

namespace Flowie.Cluster

open OwnerCommand List

/-- A committed command reaches the directory; one that is not applied leaves it. -/
def projectionStep (directory : OwnerDirectory) (committed : CommittedCommand) : OwnerDirectory :=
  match ownerProjectionApply directory committed.entry with
  | .ok after => after
  | .error _ => directory

def directoryAfter (created : OwnerDirectory) (log : List CommittedCommand) : OwnerDirectory := log.foldl projectionStep created

def LogOrder (log : List CommittedCommand) : Prop := (0 :: log.map (·.index)).Pairwise (· < ·)

def assignEpoch? (shardId : UInt32) (committed : CommittedCommand) : Option UInt64 :=
  if committed.command.kind = .assign ∧ committed.command.shardId = shardId then some committed.command.ownerEpoch else none

def assignEpochs (shardId : UInt32) (log : List CommittedCommand) : List UInt64 := log.filterMap (assignEpoch? shardId)

theorem assignEpochs_append (shardId : UInt32) (before after : List CommittedCommand) :
    assignEpochs shardId (before ++ after) = assignEpochs shardId before ++ assignEpochs shardId after :=
  filterMap_append

section
variable {created : OwnerDirectory} (log : List CommittedCommand)

theorem directoryAfter_concat (committed : CommittedCommand) :
    directoryAfter created (log ++ [committed]) = projectionStep (directoryAfter created log) committed := by
  simp [directoryAfter]

theorem shardCount_directoryAfter : (directoryAfter created log).shardCount = created.shardCount := by
  induction log using List.reverseRecOn with
  | nil => rfl
  | append_singleton log committed ih =>
    rw [directoryAfter_concat, projectionStep]
    split
    · rename_i after happ
      rw [(ownerProjectionApply_kept happ).2, ih]
    · exact ih

/-- The directory is at the revision of an entry of the log. -/
theorem revision_directoryAfter : (directoryAfter created log).revision ∈ created.revision :: log.map (·.index) := by
  induction log using List.reverseRecOn with
  | nil => exact mem_cons_self
  | append_singleton log committed ih =>
    rw [directoryAfter_concat, projectionStep]
    split
    · rename_i after happ
      rw [(ownerProjectionApply_kept happ).1]
      simp [CommittedCommand.entry]
    · rw [map_append, ← cons_append]
      exact mem_append_left _ ih

theorem LogOrder.before {before after : List CommittedCommand} (h : LogOrder (before ++ after)) : LogOrder before := by
  unfold LogOrder at h ⊢
  rw [map_append, ← cons_append] at h
  exact (List.pairwise_append.1 h).1

/-- The next command in log order is newer than the directory. -/
theorem LogOrder.newer {log : List CommittedCommand} {committed : CommittedCommand} (h : LogOrder (log ++ [committed]))
    (hrev : created.revision = 0) : (directoryAfter created log).revision < committed.index := by
  have hmem : (directoryAfter created log).revision ∈ _ := revision_directoryAfter log
  unfold LogOrder at h
  rw [map_append, ← cons_append] at h
  rw [hrev] at hmem
  exact (List.pairwise_append.1 h).2.2 _ hmem _ (by simp)

end

/-! ## What the directory resolves -/

section
variable {directory : OwnerDirectory} {shardId : UInt32} {nowNs : UInt64} {revision : UInt64} {entry : DirectoryEntry}

theorem ownerDirectoryResolveShard_enter_of_ne (h : entry.shardId ≠ shardId) :
    ownerDirectoryResolveShard (directory.enter entry revision) shardId nowNs =
      ownerDirectoryResolveShard directory shardId nowNs := by
  have hne : entry.shardId.toNat ≠ shardId.toNat := fun heq => h (UInt32.toNat_inj.1 heq)
  simp [ownerDirectoryResolveShard, OwnerDirectory.enter, List.getElem?_set_ne hne]

theorem ownerDirectoryResolveShard_enter_self (h : entry.shardId < directory.shardCount) :
    ownerDirectoryResolveShard (directory.enter entry revision) entry.shardId nowNs =
      if entry.localDeadlineNs > nowNs ∧ entry.owner.validFor entry.shardId then .ok entry.owner else .error .ebusy := by
  have hlt : entry.shardId.toNat < directory.active.length := by
    rw [directory.complete]
    exact UInt32.lt_iff_toNat_lt.1 h
  simp [ownerDirectoryResolveShard, OwnerDirectory.enter, UInt32.not_le.2 h, hlt]

/-- A revoked shard has no owner, an assigned one the owner of the command until the last instant. -/
theorem ownerDirectoryResolveShard_assignment {command : OwnerCommand} (hval : command.valid)
    (h : command.shardId < directory.shardCount) :
    ownerDirectoryResolveShard (directory.enter command.assignment revision) command.shardId nowNs =
      if command.kind = .assign ∧ nowNs.toNat < 2 ^ 64 - 1 then
        .ok ⟨command.shardId, command.ownerEpoch, command.nodeId, command.bootId⟩ else .error .ebusy := by
  rw [← shardId_assignment] at h
  rw [← shardId_assignment, ownerDirectoryResolveShard_enter_self h, shardId_assignment]
  have hassigned := (directoryEntry_of_valid hval).2
  cases hkind : command.kind with
  | revoke => simp [assignment, hkind, DirectoryEntry.unassigned, UInt64.lt_iff_toNat_lt]
  | assign =>
    have hdln : UInt64.ofNat (2 ^ 64 - 1) ≠ 0 := by decide
    simp only [assignment, hkind, DirectoryEntry.valid, hdln, if_false] at hassigned
    simp [assignment, hkind, hassigned, UInt64.lt_iff_toNat_lt]

end

section
variable {created : OwnerDirectory} {shardId : UInt32} {committed : CommittedCommand}

theorem projectionStep_of_newer {directory : OwnerDirectory} (h : directory.revision < committed.index) :
    projectionStep directory committed =
      if committed.command.shardId < directory.shardCount then directory.enter committed.command.assignment committed.index
      else directory := by
  rw [projectionStep, ownerProjectionApply_committed h]
  by_cases hshd : committed.command.shardId < directory.shardCount <;> simp [hshd]

variable {config : OwnerDirectoryConfig}

section
variable (h : ownerDirectoryCreate config = .ok created)
include h

/-- A directory that was just created has no owner for any shard. -/
theorem resolve_created (nowNs : UInt64) (token : OwnerToken) :
    ownerDirectoryResolveShard created shardId nowNs ≠ .ok token := by
  unfold ownerDirectoryCreate at h
  split_ifs at h
  cases h
  simp only [ownerDirectoryResolveShard]
  split
  · simp
  rename_i hshd
  have hlt : shardId.toNat < config.shardCount.toNat := UInt32.lt_iff_toNat_lt.1 (UInt32.not_le.1 hshd)
  simp [hlt, DirectoryEntry.unassigned, UInt64.lt_iff_toNat_lt]

theorem revision_created : created.revision = 0 := by
  unfold ownerDirectoryCreate at h
  split_ifs at h
  · cases h
    rfl

end

variable {log : List CommittedCommand}

/-- After an assignment of the shard it resolves to the command's owner. -/
theorem resolve_after_assign {epoch : UInt64}
    (hrev : created.revision = 0) (hord : LogOrder (log ++ [committed])) (hshd : shardId < created.shardCount)
    (hassign : assignEpoch? shardId committed = some epoch) :
    ∃ token, ownerDirectoryResolveShard (directoryAfter created (log ++ [committed])) shardId 0 = .ok token ∧
      token.ownerEpoch = epoch := by
  unfold assignEpoch? at hassign
  split at hassign
  · rename_i hmt
    obtain ⟨hkind, rfl⟩ := hmt
    cases hassign
    have hcnt : committed.command.shardId < (directoryAfter created log).shardCount := by
      rwa [shardCount_directoryAfter]
    rw [directoryAfter_concat, projectionStep_of_newer (hord.newer hrev), if_pos hcnt,
      ownerDirectoryResolveShard_assignment committed.valid hcnt, if_pos ⟨hkind, by decide⟩]
    exact ⟨_, rfl, rfl⟩
  · cases hassign

/-- What a shard resolves to is the last assignment of the log for it. -/
theorem resolve_directoryAfter (hcr : ownerDirectoryCreate config = .ok created)
    (hord : LogOrder log) {nowNs : UInt64} {token : OwnerToken}
    (h : ownerDirectoryResolveShard (directoryAfter created log) shardId nowNs = .ok token) :
    (assignEpochs shardId log).getLast? = some token.ownerEpoch := by
  induction log using List.reverseRecOn with
  | nil => exact absurd h (resolve_created hcr nowNs token)
  | append_singleton log committed ih =>
    have hnewer := hord.newer (revision_created hcr)
    rw [directoryAfter_concat, projectionStep_of_newer hnewer] at h
    rw [assignEpochs_append]
    by_cases hoth : committed.command.shardId = shardId
    · subst hoth
      split at h
      · rename_i hcnt
        rw [ownerDirectoryResolveShard_assignment committed.valid hcnt] at h
        split at h
        · rename_i hassign
          cases h
          simp [assignEpochs, assignEpoch?, hassign.1]
        · cases h
      · -- the shard is none of the directory's, so it does not resolve
        rename_i hcnt
        simp [ownerDirectoryResolveShard, UInt32.not_lt.1 hcnt] at h
    · have hnone : assignEpochs shardId [committed] = [] := by simp [assignEpochs, assignEpoch?, hoth]
      rw [hnone, append_nil]
      refine ih hord.before ?_
      split at h
      · rwa [ownerDirectoryResolveShard_enter_of_ne (by simpa using hoth)] at h
      · exact h

/-- Over every log applied in order to a new directory: the epochs it gives out for a shard, at any two points
of the log and any times, never go down, exactly when the epochs of the shard's assignments in the log do not. -/
theorem resolved_epochs_monotone_iff {config : OwnerDirectoryConfig} (hcr : ownerDirectoryCreate config = .ok created)
    (hshd : shardId < created.shardCount) {log : List CommittedCommand} (hord : LogOrder log) :
    (∀ before after, before <+: after → after <+: log → ∀ nowNs laterNs token later,
      ownerDirectoryResolveShard (directoryAfter created before) shardId nowNs = .ok token →
      ownerDirectoryResolveShard (directoryAfter created after) shardId laterNs = .ok later →
      token.ownerEpoch ≤ later.ownerEpoch) ↔ (assignEpochs shardId log).Pairwise (· ≤ ·) := by
  constructor
  · intro hmonotone
    induction log using List.reverseRecOn with
    | nil => exact List.Pairwise.nil
    | append_singleton log committed ih =>
      have hlog : log <+: log ++ [committed] := prefix_append _ _
      rw [assignEpochs_append]
      refine List.pairwise_append.2 ⟨ih hord.before fun before after hbef haft =>
        hmonotone before after hbef (haft.trans hlog), ?_, ?_⟩
      · cases hassign : assignEpoch? shardId committed <;> simp [assignEpochs, hassign]
      · intro epoch hepoch last hlast
        obtain ⟨earlier, herl, hassigned⟩ := List.mem_filterMap.1 hepoch
        obtain ⟨lastCommitted, hmem, hlastAssigned⟩ := List.mem_filterMap.1 hlast
        obtain rfl := List.mem_singleton.1 hmem
        -- both assignments are resolved right after their command
        obtain ⟨before, rest, rfl⟩ := append_of_mem herl
        have hspl : before ++ earlier :: rest = before ++ [earlier] ++ rest := by simp
        have hrev := revision_created hcr
        obtain ⟨token, htoken, rfl⟩ := resolve_after_assign hrev
          (LogOrder.before (by rw [← hspl]; exact hord.before)) hshd hassigned
        obtain ⟨later, hlat, rfl⟩ := resolve_after_assign hrev hord hshd hlastAssigned
        refine hmonotone _ _ ?_ prefix_rfl 0 0 token later htoken hlat
        rw [hspl, append_assoc]
        exact prefix_append _ _
  · rintro hpairwise before after hbef ⟨rest, rfl⟩ nowNs laterNs token later htoken hlat
    obtain ⟨between, rfl⟩ := hbef
    have hfst := resolve_directoryAfter hcr hord.before.before htoken
    have hlast := resolve_directoryAfter hcr hord.before hlat
    rw [assignEpochs_append] at hpairwise
    have hsorted := (List.pairwise_append.1 hpairwise).1
    have hmem : token.ownerEpoch ∈ assignEpochs shardId (before ++ between) := by
      rw [assignEpochs_append]
      exact mem_append_left _ (mem_of_getLast? hfst)
    obtain ⟨init, hinit⟩ := List.getLast?_eq_some_iff.1 hlast
    rw [hinit] at hsorted hmem
    rcases List.mem_append.1 hmem with hinner | hend
    · exact (List.pairwise_append.1 hsorted).2.2 _ hinner _ (by simp)
    · exact List.mem_singleton.1 hend ▸ UInt64.le_refl _

end

/-! ## A log with epochs that go down -/

def oneShard : OwnerDirectoryConfig := ⟨1, 1, text "c", text "l"⟩

def assignOf (epoch : UInt64) : OwnerCommand := ⟨.assign, 0, epoch, text "a", bootOf 1⟩

def assignAt (index epoch : UInt64) (h : (assignOf epoch).valid) : CommittedCommand := ⟨index, 1, index, assignOf epoch, h⟩

theorem resolved_epochs_monotone_reassigned :
    (assignEpochs 0 [assignAt 1 1 (by decide), assignAt 2 2 (by decide)]).Pairwise (· ≤ ·) ∧
    ∃ created, ownerDirectoryCreate oneShard = .ok created ∧
      ∀ before after, before <+: after → after <+: [assignAt 1 1 (by decide), assignAt 2 2 (by decide)] →
        ∀ nowNs laterNs token later,
          ownerDirectoryResolveShard (directoryAfter created before) 0 nowNs = .ok token →
          ownerDirectoryResolveShard (directoryAfter created after) 0 laterNs = .ok later →
          token.ownerEpoch ≤ later.ownerEpoch := by
  have hepochs : (assignEpochs 0 [assignAt 1 1 (by decide), assignAt 2 2 (by decide)]).Pairwise (· ≤ ·) := by
    simp only [show assignEpochs 0 [assignAt 1 1 (by decide), assignAt 2 2 (by decide)] = [1, 2] from rfl]
    decide
  refine ⟨hepochs, _, rfl, (resolved_epochs_monotone_iff (rfl : ownerDirectoryCreate oneShard = .ok _) (by decide) ?_).2 hepochs⟩
  show ([0, 1, 2] : List UInt64).Pairwise (· < ·)
  decide

/-- The second assignment has the smaller epoch and is what the shard resolves to from then on. -/
theorem superseded_epoch_resolved :
    ∃ created, ownerDirectoryCreate oneShard = .ok created ∧ LogOrder [assignAt 1 2 (by decide), assignAt 2 1 (by decide)] ∧
      (ownerDirectoryResolveShard (directoryAfter created [assignAt 1 2 (by decide)]) 0 5).map (·.ownerEpoch) = .ok 2 ∧
      (ownerDirectoryResolveShard (directoryAfter created [assignAt 1 2 (by decide), assignAt 2 1 (by decide)]) 0 6).map
        (·.ownerEpoch) = .ok 1 := by
  refine ⟨_, rfl, ?_, by rfl, by rfl⟩
  show ([0, 1, 2] : List UInt64).Pairwise (· < ·)
  decide

end Flowie.Cluster
