import Flowie.Cluster.Lease
import Flowie.Lib.BigEndian
import Flowie.Lib.Layout

/-!
# Owner commands and the owner directory

`flowie_cluster_owner_projection.c` and `flowie_cluster_owner_directory.c`: the replicated log has commands that
assign a shard to an owner or revoke it. A replica decodes each and enters it in its directory, under the index
of the entry as revision; the edge resolves the owner of a shard there.
-/

namespace Flowie.Cluster

open Layout List LittleEndian

def shardCountMax : Nat := 1048576

/-! ## Owner commands -/

inductive OwnerCommandKind where
  | assign
  | revoke
deriving DecidableEq, Repr

def OwnerCommandKind.byte : OwnerCommandKind → UInt8
  | .assign => 1
  | .revoke => 2

def OwnerCommandKind.ofByte? (byte : UInt8) : Option OwnerCommandKind :=
  if byte = 1 then some .assign else if byte = 2 then some .revoke else none

/-- `flowie_cluster_owner_command_t`. -/
structure OwnerCommand where
  kind : OwnerCommandKind
  shardId : UInt32
  ownerEpoch : UInt64
  nodeId : Bytes
  bootId : BootId
deriving DecidableEq, Repr

/-- `flowie_owner_command_valid`. -/
def OwnerCommand.valid (command : OwnerCommand) : Bool :=
  if command.shardId.toNat ≥ shardCountMax then false
  else
    match command.kind with
    | .revoke => command.ownerEpoch == 0 && command.nodeId.isEmpty && !command.bootId.nonzero
    | .assign => command.ownerEpoch != 0 && !command.nodeId.isEmpty && decide (command.nodeId.length ≤ nodeIdMax) &&
        !command.nodeId.contains 0 && command.bootId.nonzero

def ownerCommandMagic : Bytes := text "FWOR"

def ownerCommandVersion : UInt8 := 1

def ownerCommandHeaderSize : Nat := 40

def OwnerCommand.header (command : OwnerCommand) : List Bytes :=
  [ownerCommandMagic, [ownerCommandVersion], [command.kind.byte], [0, 0], ofU32 command.shardId,
    ofU64 command.ownerEpoch, ofU16 (UInt16.ofNat command.nodeId.length), [0, 0],
    command.bootId.bytes]

/-- `flowie_cluster_owner_command_encode`. -/
def ownerCommandEncode (command : OwnerCommand) (outputCapacity : Nat) : Except Errno Bytes :=
  if !command.valid then .error .einval
  else if outputCapacity < ownerCommandHeaderSize + command.nodeId.length then .error .enospc
  else .ok (command.header.flatten ++ command.nodeId)

/-- `flowie_cluster_owner_command_decode`. -/
def ownerCommandDecode (input : Bytes) : Except Errno OwnerCommand :=
  if hsize : input.length < ownerCommandHeaderSize then .error .eproto
  else if slice input 0 4 ≠ ownerCommandMagic ∨ slice input 4 1 ≠ [ownerCommandVersion] ∨ slice input 6 2 ≠ [0, 0] ∨
      slice input 22 2 ≠ [0, 0] then .error .eproto
  else
    let nodeIdSize := (toU16 (slice input 20 2)).toNat
    if nodeIdSize > nodeIdMax ∨ input.length ≠ ownerCommandHeaderSize + nodeIdSize then .error .eproto
    else
      match OwnerCommandKind.ofByte? ((slice input 5 1).headD 0) with
      | none => .error .eproto
      | some kind =>
        let command : OwnerCommand :=
          ⟨kind, toU32 (slice input 8 4), toU64 (slice input 12 8), slice input 40 nodeIdSize,
            ⟨slice input 24 16, Layout.length_slice (by unfold ownerCommandHeaderSize at hsize; omega)⟩⟩
        if command.valid then .ok command else .error .eproto

@[simp] theorem OwnerCommandKind.ofByte?_byte (kind : OwnerCommandKind) : OwnerCommandKind.ofByte? kind.byte = some kind := by
  cases kind <;> rfl

variable {command : OwnerCommand}

open OwnerCommand

theorem OwnerCommand.nodeId_le_of_valid (h : command.valid) : command.nodeId.length ≤ nodeIdMax := by
  unfold valid at h
  split_ifs at h
  · split at h <;> simp_all

/-- The offsets at which the fields of an encoded command are read. -/
theorem OwnerCommand.slices_encoded (command : OwnerCommand) :
    slices (command.header.flatten ++ command.nodeId) 0 [4, 1, 1, 2, 4, 8, 2, 2, 16, command.nodeId.length] =
      command.header ++ [command.nodeId] := by
  have hflat : command.header.flatten ++ command.nodeId = (command.header ++ [command.nodeId]).flatten ++ [] := by simp
  rw [hflat]
  apply slices_flatten
  simp [header, command.bootId.size, ownerCommandMagic, text]

theorem ownerCommandDecode_encode (hval : command.valid) :
    ownerCommandDecode (command.header.flatten ++ command.nodeId) = .ok command := by
  have hnode := command.nodeId_le_of_valid hval
  have hsize : (UInt16.ofNat command.nodeId.length).toNat = command.nodeId.length :=
    UInt16.toNat_ofNat_of_lt' (Nat.lt_of_le_of_lt hnode (by decide))
  have hlen : (command.header.flatten ++ command.nodeId).length = ownerCommandHeaderSize + command.nodeId.length := by
    simp [header, command.bootId.size, ownerCommandMagic, text, ownerCommandHeaderSize]
    omega
  have hsl := command.slices_encoded
  generalize command.header.flatten ++ command.nodeId = input at hsl hlen ⊢
  simp only [header, slices_cons, slices_nil, Nat.reduceAdd, cons_append, nil_append, List.cons.injEq, and_true] at hsl
  obtain ⟨hmag, hver, hkind, hresv, hshd, hepoch, hnodesize, hreserved2, hboot, hnodeId⟩ := hsl
  unfold ownerCommandDecode
  simp only [hmag, hver, hkind, hresv, hshd, hepoch, hnodesize, hreserved2, hboot, hnodeId, hlen, hsize,
    toU16_ofU16, toU32_ofU32, toU64_ofU64]
  rw [dif_neg (by omega)]
  simp [hval, hnode]

theorem ownerCommandEncode_eq_ok {outputCapacity : Nat} {data : Bytes} (h : ownerCommandEncode command outputCapacity = .ok data) :
    command.valid ∧ data = command.header.flatten ++ command.nodeId := by
  unfold ownerCommandEncode at h
  split_ifs at h
  · cases h
    simp_all

/-! ## The directory -/

/-- `flowie_cluster_owner_directory_entry_t`. -/
structure DirectoryEntry where
  shardId : UInt32
  localDeadlineNs : UInt64
  owner : OwnerToken
deriving DecidableEq, Repr

open DirectoryEntry

/-- `flowie_cluster_owner_directory_token_valid`. -/
def OwnerToken.validFor (owner : OwnerToken) (shardId : UInt32) : Bool :=
  owner.shardId == shardId && owner.valid

def zeroBootId : BootId := ⟨List.replicate 16 0, length_replicate⟩

/-- `FLOWIE_CLUSTER_OWNER_DIRECTORY_ENTRY_INIT` for a shard: it has no owner. -/
def DirectoryEntry.unassigned (shardId : UInt32) : DirectoryEntry := ⟨shardId, 0, ⟨shardId, 0, [], zeroBootId⟩⟩

/-- `flowie_cluster_owner_directory_entry_valid` for the entry's own shard. -/
def DirectoryEntry.valid (entry : DirectoryEntry) : Bool :=
  if entry.localDeadlineNs = 0 then
    entry.owner.shardId == entry.shardId && entry.owner.ownerEpoch == 0 && entry.owner.nodeId.isEmpty &&
      !entry.owner.bootId.nonzero
  else entry.owner.validFor entry.shardId

/-- `flowie_cluster_owner_directory_owner_equal`. -/
def ownerEqual (left right : OwnerToken) : Bool := left == right && decide (left.nodeId.length ≤ nodeIdMax)

/-- `flowie_cluster_owner_directory_t`: an entry for every shard. -/
structure OwnerDirectory where
  shardCount : UInt32
  active : List DirectoryEntry
  revision : UInt64
  lastRevisionShard : UInt32
  complete : active.length = shardCount.toNat
deriving DecidableEq, Repr

/-- `flowie_cluster_owner_directory_config_t`. -/
structure OwnerDirectoryConfig where
  hashVersion : UInt32
  shardCount : UInt32
  clusterId : Bytes
  listenerId : Bytes
deriving DecidableEq, Repr

def hashVersion1 : UInt32 := 1

def clusterIdMax : Nat := 255

def listenerIdMax : Nat := 255

/-- An identifier of one to `max` bytes, none of them NUL. -/
def identifierOk (max : Nat) (identifier : Bytes) : Bool :=
  !identifier.isEmpty && decide (identifier.length ≤ max) && !identifier.contains 0

/-- `flowie_cluster_owner_directory_create`. -/
def ownerDirectoryCreate (config : OwnerDirectoryConfig) : Except Errno OwnerDirectory :=
  if config.hashVersion ≠ hashVersion1 ∨ config.shardCount = 0 ∨ config.shardCount.toNat > shardCountMax ∨
      !identifierOk clusterIdMax config.clusterId ∨ !identifierOk listenerIdMax config.listenerId then .error .einval
  else
    .ok {
      shardCount := config.shardCount
      active := (List.range config.shardCount.toNat).map fun shardId => unassigned (UInt32.ofNat shardId)
      revision := 0
      lastRevisionShard := UInt32.ofNat (2 ^ 32 - 1)
      complete := by simp }

def OwnerDirectory.enter (directory : OwnerDirectory) (entry : DirectoryEntry) (revision : UInt64) : OwnerDirectory where
  shardCount := directory.shardCount
  active := directory.active.set entry.shardId.toNat entry
  revision := revision
  lastRevisionShard := entry.shardId
  complete := by simpa using directory.complete

/-- `flowie_cluster_owner_directory_apply`. -/
def ownerDirectoryApply (directory : OwnerDirectory) (entry : DirectoryEntry) (revision : UInt64) :
    Except Errno OwnerDirectory :=
  if revision = 0 ∨ entry.shardId ≥ directory.shardCount ∨ !entry.valid then .error .einval
  else if revision < directory.revision then .error .ebusy
  else
    match directory.active[entry.shardId.toNat]? with
    | none => .error .eproto
    | some current =>
      if revision = directory.revision then
        if directory.lastRevisionShard = entry.shardId ∧ current.localDeadlineNs = entry.localDeadlineNs ∧
            ownerEqual current.owner entry.owner then .ok directory
        else .error .eproto
      else .ok (directory.enter entry revision)

/-- `flowie_cluster_owner_directory_resolve_shard`, at the time `nowNs`. -/
def ownerDirectoryResolveShard (directory : OwnerDirectory) (shardId : UInt32) (nowNs : UInt64) : Except Errno OwnerToken :=
  if shardId ≥ directory.shardCount then .error .einval
  else
    match directory.active[shardId.toNat]? with
    | none => .error .ebusy
    | some entry => if entry.localDeadlineNs > nowNs ∧ entry.owner.validFor shardId then .ok entry.owner else .error .ebusy

/-! ## The projection of the log -/

/-- `tr_raft_entry_t`. -/
structure LogEntry where
  index : UInt64
  term : UInt64
  commandId : UInt64
  data : Bytes
deriving DecidableEq, Repr

def OwnerCommand.directoryEntry (command : OwnerCommand) : Except Errno DirectoryEntry :=
  match command.kind with
  | .revoke => .ok (unassigned command.shardId)
  | .assign =>
    match ownerTokenInit command.shardId command.ownerEpoch command.nodeId command.bootId with
    | .error e => .error e
    | .ok owner => .ok ⟨command.shardId, UInt64.ofNat (2 ^ 64 - 1), owner⟩

/-- One turn of `flowie_cluster_owner_projection_apply_batch`. -/
def ownerProjectionApply (directory : OwnerDirectory) (entry : LogEntry) : Except Errno OwnerDirectory :=
  if entry.index = 0 then .error .eproto
  else
    match ownerCommandDecode entry.data with
    | .error e => .error e
    | .ok command =>
      match command.directoryEntry with
      | .error e => .error e
      | .ok directoryEntry => ownerDirectoryApply directory directoryEntry entry.index

/-! ## What applying an entry does -/

section
variable {directory after : OwnerDirectory} {entry : DirectoryEntry} {revision : UInt64}

theorem OwnerDirectory.getElem?_active (directory : OwnerDirectory) {shardId : UInt32} (h : shardId < directory.shardCount) :
    ∃ current, directory.active[shardId.toNat]? = some current := by
  have hlt : shardId.toNat < directory.active.length := by
    rw [directory.complete]
    exact UInt32.lt_iff_toNat_lt.1 h
  exact ⟨_, List.getElem?_eq_getElem hlt⟩

theorem ownerDirectoryApply_of_newer (hval : entry.valid) (hnewer : directory.revision < revision) :
    ownerDirectoryApply directory entry revision =
      if entry.shardId < directory.shardCount then .ok (directory.enter entry revision) else .error .einval := by
  have hrev : revision.toNat > directory.revision.toNat := UInt64.lt_iff_toNat_lt.1 hnewer
  have hzero : revision ≠ 0 := by
    rintro rfl
    simp at hrev
  unfold ownerDirectoryApply
  by_cases hshd : entry.shardId < directory.shardCount
  · obtain ⟨current, hcur⟩ := directory.getElem?_active hshd
    have hne : revision ≠ directory.revision := by
      rintro rfl
      omega
    simp [hzero, hval, hshd, UInt32.not_le.2 hshd, UInt64.not_lt.2 (UInt64.le_of_lt hnewer), hcur, hne]
  · simp [hshd, UInt32.not_lt.1 hshd]

/-- An entry that is applied is for a shard of the directory; it repeats the last one or is a newer one. -/
theorem ownerDirectoryApply_eq_ok (h : ownerDirectoryApply directory entry revision = .ok after) :
    entry.valid ∧ entry.shardId < directory.shardCount ∧
      (revision = directory.revision ∧ after = directory ∨
        directory.revision < revision ∧ after = directory.enter entry revision) := by
  unfold ownerDirectoryApply at h
  split at h
  · cases h
  rename_i hadmitted
  split at h
  · cases h
  rename_i hold
  obtain ⟨hzero, hshd, hval⟩ : revision ≠ 0 ∧ entry.shardId < directory.shardCount ∧ entry.valid := by
    simpa only [not_or, UInt32.not_le, ge_iff_le, Bool.not_eq_true', Bool.not_eq_false] using hadmitted
  refine ⟨hval, hshd, ?_⟩
  obtain ⟨current, hcur⟩ := directory.getElem?_active hshd
  simp only [hcur] at h
  split at h
  · rename_i hsame
    split at h
    · cases h
      exact Or.inl ⟨hsame, rfl⟩
    · cases h
  · rename_i hsame
    cases h
    refine Or.inr ⟨?_, rfl⟩
    rcases UInt64.lt_or_eq_of_le (UInt64.not_lt.1 hold) with hlt | heq
    · exact hlt
    · exact absurd heq.symm hsame

end

theorem DirectoryEntry.nodeId_le_of_valid {entry : DirectoryEntry} (h : entry.valid) :
    entry.owner.nodeId.length ≤ nodeIdMax := by
  unfold DirectoryEntry.valid at h
  split at h
  · have hnil : entry.owner.nodeId = [] := by simp_all
    simp [hnil]
  · simp_all [OwnerToken.validFor, OwnerToken.valid]

variable {directory after : OwnerDirectory} {revision : UInt64}

theorem ownerDirectoryApply_again {entry : DirectoryEntry}
    (h : ownerDirectoryApply directory entry revision = .ok after) : ownerDirectoryApply after entry revision = .ok after := by
  obtain ⟨hval, hshd, ⟨-, rfl⟩ | ⟨hnewer, rfl⟩⟩ := ownerDirectoryApply_eq_ok h
  · exact h
  have hlt : entry.shardId.toNat < directory.active.length := by
    rw [directory.complete]
    exact UInt32.lt_iff_toNat_lt.1 hshd
  have hzero : revision ≠ 0 := by
    rintro rfl
    simp [UInt64.lt_iff_toNat_lt] at hnewer
  unfold ownerDirectoryApply
  simp [OwnerDirectory.enter, hzero, hval, UInt32.not_le.2 hshd, hlt, ownerEqual, entry.nodeId_le_of_valid hval]

variable {later : OwnerDirectory}

theorem ownerDirectoryApply_older {entry : DirectoryEntry}
    (h : ownerDirectoryApply directory entry revision = .ok after) (hcnt : later.shardCount = directory.shardCount)
    (holder : revision < later.revision) : ownerDirectoryApply later entry revision = .error .ebusy := by
  unfold ownerDirectoryApply at h ⊢
  split at h
  · cases h
  · rename_i hadmitted
    rw [hcnt, if_neg hadmitted, if_pos holder]

/-! ## The projection of one entry -/

structure CommittedCommand where
  index : UInt64
  term : UInt64
  commandId : UInt64
  command : OwnerCommand
  valid : command.valid

def CommittedCommand.entry (committed : CommittedCommand) : LogEntry :=
  ⟨committed.index, committed.term, committed.commandId, committed.command.header.flatten ++ committed.command.nodeId⟩

def OwnerCommand.assignment (command : OwnerCommand) : DirectoryEntry :=
  match command.kind with
  | .revoke => unassigned command.shardId
  | .assign =>
    ⟨command.shardId, UInt64.ofNat (2 ^ 64 - 1), ⟨command.shardId, command.ownerEpoch, command.nodeId, command.bootId⟩⟩

@[simp] theorem OwnerCommand.shardId_assignment : command.assignment.shardId = command.shardId := by
  unfold assignment
  split <;> rfl

theorem DirectoryEntry.valid_unassigned (shardId : UInt32) : (unassigned shardId).valid := by
  have hzero : zeroBootId.nonzero = false := by decide
  simp [DirectoryEntry.valid, unassigned, hzero]

theorem OwnerCommand.directoryEntry_of_valid (h : command.valid) :
    command.directoryEntry = .ok command.assignment ∧ command.assignment.valid := by
  unfold valid at h
  split_ifs at h
  unfold directoryEntry assignment
  cases hkind : command.kind with
  | revoke => exact ⟨rfl, valid_unassigned _⟩
  | assign =>
    simp only [hkind, Bool.and_eq_true, bne_iff_ne, ne_eq, Bool.not_eq_true', isEmpty_eq_false_iff, decide_eq_true_eq] at h
    obtain ⟨⟨⟨⟨hepoch, hne⟩, hnode⟩, -⟩, hboot⟩ := h
    constructor
    · simp [ownerTokenInit, hne, Nat.not_lt.2 hnode, hepoch, hboot]
    · simp [DirectoryEntry.valid, OwnerToken.validFor, OwnerToken.valid, hepoch, hne, hnode, hboot]

/-- A committed command newer than the directory is applied exactly when its shard is one of the directory's. -/
theorem ownerProjectionApply_committed {committed : CommittedCommand} (hnewer : directory.revision < committed.index) :
    ownerProjectionApply directory committed.entry =
      if committed.command.shardId < directory.shardCount then
        .ok (directory.enter committed.command.assignment committed.index) else .error .einval := by
  obtain ⟨hent, hval⟩ := directoryEntry_of_valid committed.valid
  have hzero : committed.index ≠ 0 := by
    intro hzero
    simp [hzero, UInt64.lt_iff_toNat_lt] at hnewer
  unfold ownerProjectionApply CommittedCommand.entry
  simp only [hzero, if_false, ownerCommandDecode_encode committed.valid, hent]
  rw [ownerDirectoryApply_of_newer hval hnewer, shardId_assignment]

variable {entry : LogEntry} (h : ownerProjectionApply directory entry = .ok after)
include h

/-- An applied entry is a command with an entry of the directory, applied under its index. -/
theorem ownerProjectionApply_eq_ok :
    ∃ directoryEntry, ownerDirectoryApply directory directoryEntry entry.index = .ok after ∧
      ∀ other, ownerProjectionApply other entry = ownerDirectoryApply other directoryEntry entry.index := by
  unfold ownerProjectionApply at h
  split_ifs at h with hix
  cases hcmd : ownerCommandDecode entry.data with
  | error e => simp [hcmd] at h
  | ok command =>
    cases hent : command.directoryEntry with
    | error e => simp [hcmd, hent] at h
    | ok directoryEntry =>
      simp only [hcmd, hent] at h
      exact ⟨directoryEntry, h, fun other => by simp [ownerProjectionApply, hix, hcmd, hent]⟩

theorem ownerProjectionApply_kept : after.revision = entry.index ∧ after.shardCount = directory.shardCount := by
  obtain ⟨directoryEntry, happ, -⟩ := ownerProjectionApply_eq_ok h
  obtain ⟨-, -, ⟨hsame, rfl⟩ | ⟨-, rfl⟩⟩ := ownerDirectoryApply_eq_ok happ
  · exact ⟨hsame.symm, rfl⟩
  · exact ⟨rfl, rfl⟩

theorem ownerProjectionApply_again : ownerProjectionApply after entry = .ok after := by
  obtain ⟨directoryEntry, happ, hsame⟩ := ownerProjectionApply_eq_ok h
  rw [hsame, ownerDirectoryApply_again happ]

theorem ownerProjectionApply_older (hcnt : later.shardCount = directory.shardCount)
    (holder : entry.index < later.revision) : ownerProjectionApply later entry = .error .ebusy := by
  obtain ⟨directoryEntry, happ, hsame⟩ := ownerProjectionApply_eq_ok h
  rw [hsame, ownerDirectoryApply_older happ hcnt holder]

end Flowie.Cluster
