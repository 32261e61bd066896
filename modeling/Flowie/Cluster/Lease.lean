import Flowie.Basic
import Flowie.Lib.Run
import Mathlib.Tactic.Common

/-!
# Shard leases

`flowie_cluster.c`: the row of a shard in the database, which names the owner of the shard and the time its
lease ends. A node claims the row when nobody owns it or the lease has ended, and each claim gives the shard
the next epoch. The epoch stays in the row when the lease is released, so a token of an earlier claim never
matches the row again.
-/

namespace Flowie.Cluster

/-- Bytes of a fixed number. -/
structure Block (n : Nat) where
  bytes : Bytes
  size : bytes.length = n
deriving DecidableEq, Repr

/-- Some byte is not zero. -/
def Block.nonzero {n : Nat} (block : Block n) : Bool := block.bytes.any (· != 0)

abbrev BootId := Block 16

def nodeIdMax : Nat := 64

/-- `flowie_cluster_u64_add`. -/
def u64Add (left right : UInt64) : Except Errno UInt64 :=
  if right.toNat > 2 ^ 64 - 1 - left.toNat then .error .erange else .ok (left + right)

/-- `flowie_cluster_u64_mul`. -/
def u64Mul (left right : UInt64) : Except Errno UInt64 :=
  if left ≠ 0 ∧ right.toNat > (2 ^ 64 - 1) / left.toNat then .error .erange else .ok (left * right)

variable {left right : UInt64}

theorem u64Add_eq_ok {sum : UInt64} (h : u64Add left right = .ok sum) : sum.toNat = left.toNat + right.toNat := by
  unfold u64Add at h
  split_ifs at h with hfits
  cases h
  have := left.toNat_lt
  rw [UInt64.toNat_add]
  omega

theorem u64Mul_eq_ok {product : UInt64} (h : u64Mul left right = .ok product) :
    product.toNat = left.toNat * right.toNat := by
  unfold u64Mul at h
  split_ifs at h with hfits
  cases h
  rw [UInt64.toNat_mul]
  apply Nat.mod_eq_of_lt
  by_cases hzero : left = 0
  · simp [hzero]
  have hle : right.toNat ≤ (2 ^ 64 - 1) / left.toNat := by
    by_contra hgt
    exact hfits ⟨hzero, by omega⟩
  calc left.toNat * right.toNat ≤ left.toNat * ((2 ^ 64 - 1) / left.toNat) := Nat.mul_le_mul_left _ hle
    _ ≤ 2 ^ 64 - 1 := Nat.mul_div_le _ _
    _ < 2 ^ 64 := by omega

/-- `flowie_cluster_owner_token_t`. -/
structure OwnerToken where
  shardId : UInt32
  ownerEpoch : UInt64
  nodeId : Bytes
  bootId : BootId
deriving DecidableEq, Repr

/-- `flowie_cluster_owner_token_valid`. -/
def OwnerToken.valid (token : OwnerToken) : Bool :=
  token.ownerEpoch != 0 && !token.nodeId.isEmpty && decide (token.nodeId.length ≤ nodeIdMax) && token.bootId.nonzero

/-- `flowie_cluster_owner_token_init`. -/
def ownerTokenInit (shardId : UInt32) (ownerEpoch : UInt64) (nodeId : Bytes) (bootId : BootId) : Except Errno OwnerToken :=
  if nodeId.isEmpty || decide (nodeId.length > nodeIdMax) || ownerEpoch == 0 || !bootId.nonzero then .error .einval
  else .ok ⟨shardId, ownerEpoch, nodeId, bootId⟩

/-- `flowie_cluster_owner_token_require`. -/
def ownerTokenRequire (expected presented : OwnerToken) : Except Errno Unit :=
  if !expected.valid || !presented.valid then .error .einval
  else if expected.shardId ≠ presented.shardId ∨ expected.ownerEpoch ≠ presented.ownerEpoch ∨
      expected.nodeId ≠ presented.nodeId ∨ expected.bootId ≠ presented.bootId then .error .ebusy
  else .ok ()

variable {presented : OwnerToken} {value : Unit}

theorem ownerTokenRequire_eq_ok {expected : OwnerToken} (h : ownerTokenRequire expected presented = .ok value) :
    presented = expected := by
  unfold ownerTokenRequire at h
  split_ifs at h with _ hsame
  simp only [not_or, not_not] at hsame
  obtain ⟨hshd, hepoch, hnode, hboot⟩ := hsame
  cases expected
  cases presented
  simp_all

/-- `flowie_cluster_shard_lease_t`. -/
structure ShardLease where
  owned : Bool
  leaseUntilDbMs : UInt64
  owner : OwnerToken
deriving DecidableEq, Repr

variable (lease : ShardLease)

/-- `flowie_cluster_shard_lease_valid`. -/
def ShardLease.valid : Bool :=
  if !lease.owned then lease.leaseUntilDbMs == 0 else lease.leaseUntilDbMs != 0 && lease.owner.valid

/-- `flowie_cluster_shard_lease_claim`: the row and the token. -/
def shardLeaseClaim (databaseNowMs leaseTtlMs : UInt64) (shardId : UInt32) (nodeId : Bytes)
    (bootId : BootId) : Except Errno (ShardLease × OwnerToken) :=
  if !lease.valid || leaseTtlMs == 0 then .error .einval
  else if lease.owned ∧ databaseNowMs < lease.leaseUntilDbMs then .error .ebusy
  else if lease.owned ∧ lease.owner.shardId ≠ shardId then .error .eproto
  else
    match u64Add lease.owner.ownerEpoch 1 with
    | .error e => .error e
    | .ok nextEpoch =>
      match u64Add databaseNowMs leaseTtlMs with
      | .error e => .error e
      | .ok leaseUntil =>
        match ownerTokenInit shardId nextEpoch nodeId bootId with
        | .error e => .error e
        | .ok claimed => .ok (⟨true, leaseUntil, claimed⟩, claimed)

/-- `flowie_cluster_shard_lease_require`. -/
def shardLeaseRequire (databaseNowMs : UInt64) (presented : OwnerToken) : Except Errno Unit :=
  if !lease.valid then .error .einval
  else if !lease.owned ∨ databaseNowMs ≥ lease.leaseUntilDbMs then .error .ebusy
  else ownerTokenRequire lease.owner presented

/-- `flowie_cluster_shard_lease_renew`: the row, whose end of the lease is returned. -/
def shardLeaseRenew (databaseNowMs leaseTtlMs : UInt64) (presented : OwnerToken) :
    Except Errno ShardLease :=
  if leaseTtlMs == 0 then .error .einval
  else
    match shardLeaseRequire lease databaseNowMs presented with
    | .error e => .error e
    | .ok _ =>
      match u64Add databaseNowMs leaseTtlMs with
      | .error e => .error e
      | .ok leaseUntil => .ok { lease with leaseUntilDbMs := leaseUntil }

/-- `flowie_cluster_shard_lease_release`. -/
def shardLeaseRelease (databaseNowMs : UInt64) (presented : OwnerToken) : Except Errno ShardLease :=
  match shardLeaseRequire lease databaseNowMs presented with
  | .error e => .error e
  | .ok _ => .ok { lease with owned := false, leaseUntilDbMs := 0 }

def nsPerMs : UInt64 := 1000000

/-- `flowie_cluster_lease_deadline_ns`. -/
def leaseDeadlineNs (requestStartNs returnedValidityMs safetyMarginMs : UInt64) : Except Errno UInt64 :=
  if returnedValidityMs == 0 || returnedValidityMs ≤ safetyMarginMs then .error .einval
  else
    match u64Mul (returnedValidityMs - safetyMarginMs) nsPerMs with
    | .error e => .error e
    | .ok safeValidityNs => u64Add requestStartNs safeValidityNs

/-! ## What a call does to the row -/

variable {lease : ShardLease} {databaseNowMs : UInt64}

theorem shardLeaseRequire_eq_ok (h : shardLeaseRequire lease databaseNowMs presented = .ok value) :
    presented = lease.owner := by
  unfold shardLeaseRequire at h
  split_ifs at h
  · exact ownerTokenRequire_eq_ok h

variable {shardId : UInt32} {nodeId : Bytes} {bootId : BootId} {token : OwnerToken}

theorem ownerTokenInit_eq_ok {ownerEpoch : UInt64}
    (h : ownerTokenInit shardId ownerEpoch nodeId bootId = .ok token) : token = ⟨shardId, ownerEpoch, nodeId, bootId⟩ := by
  unfold ownerTokenInit at h
  split_ifs at h
  · cases h
    rfl

variable {leaseTtlMs : UInt64}

theorem shardLeaseClaim_eq_ok {claimed : ShardLease}
    (h : shardLeaseClaim lease databaseNowMs leaseTtlMs shardId nodeId bootId = .ok (claimed, token)) :
    claimed.owner = token ∧ token.ownerEpoch.toNat = lease.owner.ownerEpoch.toNat + 1 ∧
      claimed.leaseUntilDbMs.toNat = databaseNowMs.toNat + leaseTtlMs.toNat := by
  unfold shardLeaseClaim at h
  split_ifs at h
  cases hepoch : u64Add lease.owner.ownerEpoch 1 with
  | error e => simp [hepoch] at h
  | ok nextEpoch =>
    cases huntil : u64Add databaseNowMs leaseTtlMs with
    | error e => simp [hepoch, huntil] at h
    | ok leaseUntil =>
      cases htoken : ownerTokenInit shardId nextEpoch nodeId bootId with
      | error e => simp [hepoch, huntil, htoken] at h
      | ok fresh =>
        simp only [hepoch, huntil, htoken, Except.ok.injEq, Prod.mk.injEq] at h
        obtain ⟨rfl, rfl⟩ := h
        refine ⟨rfl, ?_, u64Add_eq_ok huntil⟩
        rw [ownerTokenInit_eq_ok htoken]
        exact u64Add_eq_ok hepoch

theorem shardLeaseRenew_eq_ok {renewed : ShardLease}
    (h : shardLeaseRenew lease databaseNowMs leaseTtlMs presented = .ok renewed) :
    presented = lease.owner ∧ renewed.owner = lease.owner ∧
      renewed.leaseUntilDbMs.toNat = databaseNowMs.toNat + leaseTtlMs.toNat := by
  unfold shardLeaseRenew at h
  split_ifs at h
  cases hrequire : shardLeaseRequire lease databaseNowMs presented with
  | error e => simp [hrequire] at h
  | ok accepted =>
    cases huntil : u64Add databaseNowMs leaseTtlMs with
    | error e => simp [hrequire, huntil] at h
    | ok leaseUntil =>
      simp only [hrequire, huntil, Except.ok.injEq] at h
      subst h
      exact ⟨shardLeaseRequire_eq_ok hrequire, rfl, u64Add_eq_ok huntil⟩

theorem shardLeaseRelease_eq_ok {released : ShardLease} (h : shardLeaseRelease lease databaseNowMs presented = .ok released) :
    released.owner = lease.owner := by
  unfold shardLeaseRelease at h
  cases hrequire : shardLeaseRequire lease databaseNowMs presented with
  | error e => simp [hrequire] at h
  | ok accepted =>
    simp only [hrequire, Except.ok.injEq] at h
    subst h
    rfl

/-! ## Runs of the calls of all nodes -/

inductive LeaseCall where
  | claim (databaseNowMs leaseTtlMs : UInt64) (nodeId : Bytes) (bootId : BootId)
  | renew (databaseNowMs leaseTtlMs : UInt64) (presented : OwnerToken)
  | release (databaseNowMs : UInt64) (presented : OwnerToken)
  | require (databaseNowMs : UInt64) (presented : OwnerToken)

/-- The rows, and of each shard the tokens its successful claims gave out, oldest first. -/
structure LeaseTable where
  rows : UInt32 → ShardLease
  claimed : UInt32 → List OwnerToken

open LeaseTable

variable (table : LeaseTable)

def LeaseTable.setRow (shardId : UInt32) (row : ShardLease) : LeaseTable :=
  { table with rows := Function.update table.rows shardId row }

def LeaseTable.addClaim (shardId : UInt32) (row : ShardLease) (token : OwnerToken) : LeaseTable :=
  ⟨Function.update table.rows shardId row, Function.update table.claimed shardId (table.claimed shardId ++ [token])⟩

/-- The call as one atomic operation of the database; a failed call leaves the row. -/
def leaseStep : UInt32 × LeaseCall → LeaseTable
  | (shardId, .claim databaseNowMs leaseTtlMs nodeId bootId) =>
    match shardLeaseClaim (table.rows shardId) databaseNowMs leaseTtlMs shardId nodeId bootId with
    | .error _ => table
    | .ok (row, token) => table.addClaim shardId row token
  | (shardId, .renew databaseNowMs leaseTtlMs presented) =>
    match shardLeaseRenew (table.rows shardId) databaseNowMs leaseTtlMs presented with
    | .error _ => table
    | .ok row => table.setRow shardId row
  | (shardId, .release databaseNowMs presented) =>
    match shardLeaseRelease (table.rows shardId) databaseNowMs presented with
    | .error _ => table
    | .ok row => table.setRow shardId row
  | (_, .require _ _) => table

def leaseRun (rows : UInt32 → ShardLease) (calls : List (UInt32 × LeaseCall)) : LeaseTable :=
  calls.foldl leaseStep ⟨rows, fun _ => []⟩

/-- The epochs a shard has had since `first`, oldest first. -/
def LeaseTable.epochs (first : UInt32 → UInt64) (shardId : UInt32) : List Nat :=
  (first shardId).toNat :: (table.claimed shardId).map (·.ownerEpoch.toNat)

/-- The epochs of each shard go up, and its row has the last of them. -/
structure Fenced (first : UInt32 → UInt64) (table : LeaseTable) : Prop where
  increasing : ∀ shardId, (table.epochs first shardId).Pairwise (· < ·)
  newest : ∀ shardId, ∀ epoch ∈ table.epochs first shardId, epoch ≤ (table.rows shardId).owner.ownerEpoch.toNat

section
variable {first : UInt32 → UInt64} {table : LeaseTable} {shardId : UInt32} {row : ShardLease} (h : Fenced first table)
include h

/-- A call that leaves the owner of the row. -/
theorem Fenced.setRow (hown : row.owner = (table.rows shardId).owner) : Fenced first (table.setRow shardId row) := by
  refine ⟨h.increasing, fun other epoch hmem => ?_⟩
  have hle := h.newest other epoch hmem
  by_cases hoth : other = shardId
  · subst hoth
    simpa [LeaseTable.setRow, hown] using hle
  · simpa [LeaseTable.setRow, hoth] using hle

theorem Fenced.claim (hown : row.owner = token)
    (hnext : token.ownerEpoch.toNat = (table.rows shardId).owner.ownerEpoch.toNat + 1) :
    Fenced first (table.addClaim shardId row token) := by
  -- the new epoch is above the row's, so above all the shard had
  have hepochs : ∀ other, (table.addClaim shardId row token).epochs first other =
      if other = shardId then table.epochs first shardId ++ [token.ownerEpoch.toNat] else table.epochs first other := by
    intro other
    by_cases hoth : other = shardId
    · subst hoth
      simp [epochs, addClaim]
    · simp [epochs, addClaim, hoth]
  constructor
  · intro other
    rw [hepochs]
    split
    · refine List.pairwise_append.2 ⟨h.increasing shardId, List.pairwise_singleton _ _, fun epoch hmem last hlast => ?_⟩
      have := h.newest shardId epoch hmem
      rw [List.mem_singleton.1 hlast]
      omega
    · exact h.increasing other
  · intro other epoch hmem
    rw [hepochs] at hmem
    split at hmem
    · rename_i hoth
      subst hoth
      simp only [addClaim, Function.update_self, hown]
      rcases List.mem_append.1 hmem with hold | hnew
      · have := h.newest other epoch hold
        omega
      · exact Nat.le_of_eq (List.mem_singleton.1 hnew)
    · rename_i hoth
      simpa [addClaim, hoth] using h.newest other epoch hmem

theorem Fenced.step (call : UInt32 × LeaseCall) : Fenced first (leaseStep table call) := by
  obtain ⟨shard, call⟩ := call
  cases call with
  | claim databaseNowMs leaseTtlMs nodeId bootId =>
    cases hclaim : shardLeaseClaim (table.rows shard) databaseNowMs leaseTtlMs shard nodeId bootId with
    | error e => simpa only [leaseStep, hclaim] using h
    | ok answer =>
      obtain ⟨hown, hnext, -⟩ := shardLeaseClaim_eq_ok hclaim
      simpa only [leaseStep, hclaim] using h.claim hown hnext
  | renew databaseNowMs leaseTtlMs presented =>
    cases hrenew : shardLeaseRenew (table.rows shard) databaseNowMs leaseTtlMs presented with
    | error e => simpa only [leaseStep, hrenew] using h
    | ok row => simpa only [leaseStep, hrenew] using h.setRow (shardLeaseRenew_eq_ok hrenew).2.1
  | release databaseNowMs presented =>
    cases hrelease : shardLeaseRelease (table.rows shard) databaseNowMs presented with
    | error e => simpa only [leaseStep, hrelease] using h
    | ok row => simpa only [leaseStep, hrelease] using h.setRow (shardLeaseRelease_eq_ok hrelease)
  | require databaseNowMs presented => exact h

end

theorem fenced_leaseRun (rows : UInt32 → ShardLease) (calls : List (UInt32 × LeaseCall)) :
    Fenced (fun shardId => (rows shardId).owner.ownerEpoch) (leaseRun rows calls) := by
  refine Run.Along.invariant (P := fun _ _ => True) (fun _ call h _ => h.step call) (Run.Along.of_forall (fun _ _ _ => trivial) _)
    ?_
  constructor <;> simp [epochs]

/-! ## The local deadline -/

/-- The local time, in nanoseconds, at which the database clock begins to show `ms`, when the clocks run at
one rate and are `offset` apart. -/
def localAt (offset : Int) (ms : Nat) : Int := offset + ms * 1000000

variable {requestStartNs returnedValidityMs safetyMarginMs deadline : UInt64}

section
variable (h : leaseDeadlineNs requestStartNs returnedValidityMs safetyMarginMs = .ok deadline)
include h

theorem leaseDeadlineNs_eq_ok :
    safetyMarginMs.toNat < returnedValidityMs.toNat ∧
      deadline.toNat = requestStartNs.toNat + (returnedValidityMs.toNat - safetyMarginMs.toNat) * 1000000 := by
  unfold leaseDeadlineNs at h
  split_ifs at h with hmargin
  have hlt : safetyMarginMs < returnedValidityMs := by simp_all
  cases hmul : u64Mul (returnedValidityMs - safetyMarginMs) nsPerMs with
  | error e => simp [hmul] at h
  | ok safeValidityNs =>
    rw [hmul] at h
    refine ⟨UInt64.lt_iff_toNat_lt.1 hlt, ?_⟩
    rw [u64Add_eq_ok h, u64Mul_eq_ok hmul, UInt64.toNat_sub_of_le _ _ (UInt64.le_of_lt hlt)]
    rfl

/-- A request that starts before the database shows `databaseNowMs`, or within that millisecond when a margin
of one is taken off, has its deadline before the lease ends. -/
theorem leaseDeadlineNs_le {offset processed : Int} {databaseNowMs : Nat}
    (hstart : requestStartNs.toNat ≤ processed) (hshown : processed < localAt offset (databaseNowMs + 1))
    (hexact : processed = localAt offset databaseNowMs ∨ 1 ≤ safetyMarginMs.toNat) :
    deadline.toNat ≤ localAt offset (databaseNowMs + returnedValidityMs.toNat) := by
  obtain ⟨hmargin, hdln⟩ := leaseDeadlineNs_eq_ok h
  simp only [localAt] at hshown hexact ⊢
  rw [hdln]
  rcases hexact with hexact | hexact <;> omega

end

/-- Over every run of the calls, from any rows: the epochs of the claims of a shard go up from the one its row had,
whatever released it between; the row accepts one token at most, at all times together; and a token older than a
claim of its shard is neither accepted nor renewed. The deadline a node takes from a claim or a renewal that the
database processed when its clock showed `databaseNowMs` is not after the end of the lease. -/
theorem shard_lease_fencing (rows : UInt32 → ShardLease) (calls : List (UInt32 × LeaseCall)) (shardId : UInt32) :
    ((rows shardId).owner.ownerEpoch.toNat :: ((leaseRun rows calls).claimed shardId).map (·.ownerEpoch.toNat)).Pairwise (· < ·) ∧
    (∀ databaseNowMs other presented rival, shardLeaseRequire ((leaseRun rows calls).rows shardId) databaseNowMs presented = .ok () →
      shardLeaseRequire ((leaseRun rows calls).rows shardId) other rival = .ok () → presented = rival) ∧
    (∀ later ∈ (leaseRun rows calls).claimed shardId, ∀ presented : OwnerToken, presented.ownerEpoch < later.ownerEpoch →
      ∀ databaseNowMs, shardLeaseRequire ((leaseRun rows calls).rows shardId) databaseNowMs presented ≠ .ok () ∧
        ∀ leaseTtlMs row, shardLeaseRenew ((leaseRun rows calls).rows shardId) databaseNowMs leaseTtlMs presented ≠ .ok row) ∧
    (∀ databaseNowMs leaseTtlMs nodeId bootId presented row,
      ((∃ token, shardLeaseClaim ((leaseRun rows calls).rows shardId) databaseNowMs leaseTtlMs shardId nodeId bootId = .ok (row, token)) ∨
        shardLeaseRenew ((leaseRun rows calls).rows shardId) databaseNowMs leaseTtlMs presented = .ok row) →
      ∀ requestStartNs safetyMarginMs deadline,
        leaseDeadlineNs requestStartNs (row.leaseUntilDbMs - databaseNowMs) safetyMarginMs = .ok deadline →
        ∀ offset processed : Int, requestStartNs.toNat ≤ processed → processed < localAt offset (databaseNowMs.toNat + 1) →
          (processed = localAt offset databaseNowMs.toNat ∨ 1 ≤ safetyMarginMs.toNat) →
          deadline.toNat ≤ localAt offset row.leaseUntilDbMs.toNat) := by
  have hfenced := fenced_leaseRun rows calls
  refine ⟨hfenced.increasing shardId, ?_, ?_, ?_⟩
  · intro databaseNowMs other presented rival hpresented hrival
    rw [shardLeaseRequire_eq_ok hpresented, shardLeaseRequire_eq_ok hrival]
  · intro later hlat presented holder databaseNowMs
    -- the row has at least the epoch of the later claim, so the presented token is not its owner
    have hnewest : later.ownerEpoch.toNat ≤ ((leaseRun rows calls).rows shardId).owner.ownerEpoch.toNat :=
      hfenced.newest shardId _ (List.mem_cons_of_mem _ (List.mem_map_of_mem hlat))
    have hoth : presented ≠ ((leaseRun rows calls).rows shardId).owner := by
      rintro rfl
      have := UInt64.lt_iff_toNat_lt.1 holder
      omega
    exact ⟨fun h => hoth (shardLeaseRequire_eq_ok h), fun _ _ h => hoth (shardLeaseRenew_eq_ok h).1⟩
  · intro databaseNowMs leaseTtlMs nodeId bootId presented row hrow requestStartNs safetyMarginMs deadline hdln offset
      processed hstart hshown hexact
    have huntil : row.leaseUntilDbMs.toNat = databaseNowMs.toNat + leaseTtlMs.toNat := by
      rcases hrow with ⟨token, hclaim⟩ | hrenew
      · exact (shardLeaseClaim_eq_ok hclaim).2.2
      · exact (shardLeaseRenew_eq_ok hrenew).2.2
    have hle : databaseNowMs ≤ row.leaseUntilDbMs := UInt64.le_iff_toNat_le.2 (by omega)
    have := leaseDeadlineNs_le hdln hstart hshown hexact
    rwa [UInt64.toNat_sub_of_le _ _ hle, Nat.add_sub_cancel' (UInt64.le_iff_toNat_le.1 hle)] at this

def bootOf (byte : UInt8) : BootId := ⟨List.replicate 16 byte, List.length_replicate⟩

/-- A row nobody has claimed yet. -/
def unclaimedRow : ShardLease := ⟨false, 0, ⟨0, 0, [], bootOf 0⟩⟩

/-- The token of claim `epoch` of shard 0 by the node `name`. -/
def tokenOf (epoch : UInt64) (name : String) : OwnerToken := ⟨0, epoch, text name, bootOf 1⟩

/-- One node claims the shard and releases it, another claims it. -/
def handOver : List (UInt32 × LeaseCall) :=
  [(0, .claim 5 10 (text "a") (bootOf 1)), (0, .release 7 (tokenOf 1 "a")),
    (0, .claim 8 10 (text "b") (bootOf 1))]

theorem shard_lease_fencing_hand_over :
    (leaseRun (fun _ => unclaimedRow) handOver).claimed 0 = [tokenOf 1 "a", tokenOf 2 "b"] ∧
    shardLeaseRequire ((leaseRun (fun _ => unclaimedRow) handOver).rows 0) 9 (tokenOf 2 "b") = .ok () ∧
    shardLeaseRequire ((leaseRun (fun _ => unclaimedRow) handOver).rows 0) 9 (tokenOf 1 "a") ≠ .ok () ∧
    leaseDeadlineNs 400 10 1 = .ok 9000400 ∧ (9000400 : Int) ≤ localAt (-8000000) 19 := by
  have hfencing := shard_lease_fencing (fun _ => unclaimedRow) handOver 0
  have hclaimed : (leaseRun (fun _ => unclaimedRow) handOver).claimed 0 = [tokenOf 1 "a", tokenOf 2 "b"] := by decide +kernel
  refine ⟨hclaimed, by decide +kernel, ?_, by decide +kernel, ?_⟩
  · exact (hfencing.2.2.1 (tokenOf 2 "b") (by simp [hclaimed]) (tokenOf 1 "a") (by decide +kernel) 9).1
  -- the owner renews when the database clock shows 9
  exact hfencing.2.2.2 9 10 [] (bootOf 1) (tokenOf 2 "b") ⟨true, 19, tokenOf 2 "b"⟩
    (.inr (by decide +kernel)) 400 1 9000400 (by decide +kernel) (-8000000) 1000000 (by decide) (by decide) (by decide)

end Flowie.Cluster
