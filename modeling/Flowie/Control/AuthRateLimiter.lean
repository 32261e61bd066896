import Flowie.Basic
import Flowie.Lib.AssocList
import Flowie.Lib.Run

/-!
# The rate limiter of authentication requests

`flowie_control_auth_rate_limiter.c`: every caller and every identity has a bucket of units that fills with the time. A
request reads the clock before it takes the lock, so that a reading may come to a bucket after a later one
(`acquire_in_order`).
-/

namespace Flowie.Control

open AssocList

/-- `flowie_control_auth_rate_entry_t`. -/
structure RateEntry where
  availableUnits : Nat
  lastRefillMs : Nat
  lastUsed : Nat

/-- The buckets of one scope under their digests, with the settings of the scope. -/
structure RateTable where
  capacity : Nat
  perSecond : Nat
  burst : Nat
  entries : List (Bytes × RateEntry)

/-- `flowie_control_auth_rate_limiter_t`. -/
structure RateLimiter where
  callers : RateTable
  identities : RateTable
  accessSequence : Nat

/-- The keyed hash of a scope and the texts. -/
class RateHash where
  hash : UInt8 → List Bytes → Bytes

structure AuthRequest where
  certificate : Bytes
  domainId : Bytes
  principalId : Bytes

/-- `flowie_control_auth_rate_next_sequence`. -/
def rateNextSequence (sequence : Nat) : Nat := if sequence = 2 ^ 64 - 1 then 1 else sequence + 1

/-- `flowie_control_auth_rate_evict_locked`. -/
def rateEvict (entries : List (Bytes × RateEntry)) : List (Bytes × RateEntry) :=
  match entries.foldl (fun found entry => if found.any (·.2.lastUsed ≤ entry.2.lastUsed) then found else some entry) none with
  | none => entries
  | some (digest, _) => remove digest entries

namespace RateTable

variable (table : RateTable)

def store (digest : Bytes) (entry : RateEntry) : RateTable := { table with entries := put digest entry table.entries }

/-- `flowie_control_auth_rate_entry_get_locked`: the table, the access sequence and the entry. -/
def entryGet (sequence : Nat) (digest : Bytes) (now : Nat) : RateTable × Nat × RateEntry :=
  match table.entries.lookup digest with
  | some entry => (table, sequence, entry)
  | none =>
    let entries := if table.entries.length ≥ table.capacity then rateEvict table.entries else table.entries
    let initial := ⟨table.burst * 1000, now, rateNextSequence sequence⟩
    (store { table with entries } digest initial, rateNextSequence sequence, initial)

/-- `flowie_control_auth_rate_refill`. -/
def refill (entry : RateEntry) (now : Nat) : Except Errno RateEntry :=
  if now < entry.lastRefillMs then .error .eio
  else
    let maximum := table.burst * 1000
    let elapsed := now - entry.lastRefillMs
    let added := if elapsed > (2 ^ 64 - 1) / table.perSecond then 2 ^ 64 - 1 else elapsed * table.perSecond
    let missing := (maximum + 2 ^ 64 - entry.availableUnits) % 2 ^ 64
    .ok { entry with
      availableUnits := if added ≥ missing then maximum else (entry.availableUnits + added) % 2 ^ 64
      lastRefillMs := now }

def Filled (time : Bytes → Nat) : Prop :=
  ∀ digest entry, table.entries.lookup digest = some entry → entry.lastRefillMs ≤ time digest

variable {table} {digest : Bytes} {entry : RateEntry} {now : Nat} {time : Bytes → Nat}

theorem Filled.store (h : table.Filled time) (hent : entry.lastRefillMs ≤ time digest) :
    (table.store digest entry).Filled time := by
  intro digest' other hoth
  by_cases hsame : digest' = digest
  · subst hsame
    rw [RateTable.store, lookup_put_self] at hoth
    cases hoth
    exact hent
  · rw [RateTable.store, lookup_put_ne hsame] at hoth
    exact h digest' other hoth

/-- An eviction only takes a bucket away. -/
theorem Filled.evict (h : table.Filled time) :
    ({ table with entries := rateEvict table.entries } : RateTable).Filled time := by
  intro digest entry hent
  unfold rateEvict at hent
  split at hent
  · exact h digest entry hent
  · rename_i oldest _ _
    by_cases hsame : digest = oldest
    · rw [hsame, lookup_remove_self] at hent
      cases hent
    · rw [lookup_remove_ne hsame] at hent
      exact h digest entry hent

/-- The bucket that is found or made is not ahead of the reading. -/
theorem Filled.entryGet (h : table.Filled time) (sequence : Nat) (digest : Bytes) :
    (table.entryGet sequence digest (time digest)).1.Filled time ∧
      (table.entryGet sequence digest (time digest)).2.2.lastRefillMs ≤ time digest := by
  unfold RateTable.entryGet
  split
  · rename_i entry hfnd
    exact ⟨h, h digest entry hfnd⟩
  · refine ⟨Filled.store ?_ (Nat.le_refl _), Nat.le_refl _⟩
    split
    · exact h.evict
    · exact h

theorem refill_of_le (table : RateTable) (h : entry.lastRefillMs ≤ now) :
    ∃ filled, table.refill entry now = .ok filled ∧ filled.lastRefillMs = now :=
  ⟨_, if_neg (Nat.not_lt.2 h), rfl⟩

end RateTable

/-- The times of the buckets after a reading for one of them. -/
def readAt (time : Bytes → Nat) (digest : Bytes) (now : Nat) : Bytes → Nat :=
  fun other => if other = digest then now else time other

/-- A reading that is not behind the time of its bucket moves the time on. -/
theorem RateTable.Filled.readAt {table : RateTable} {time : Bytes → Nat} {digest : Bytes} {now : Nat} (h : table.Filled time)
    (hle : time digest ≤ now) : table.Filled (readAt time digest now) := by
  intro other entry hent
  have hold := h other entry hent
  unfold Control.readAt
  split
  · rename_i hsame
    rw [hsame] at hold
    exact Nat.le_trans hold hle
  · exact hold

section
variable [RateHash]

def AuthRequest.callerDigest (request : AuthRequest) : Bytes := RateHash.hash 1 [request.certificate]

def AuthRequest.identityDigest (request : AuthRequest) : Bytes :=
  RateHash.hash 2 [request.certificate, request.domainId, request.principalId]

/-- `flowie_control_auth_rate_limiter_acquire` from the lock on, with the clock it has read before. -/
def rateLimiterAcquire (limiter : RateLimiter) (request : AuthRequest) (now : Nat) : RateLimiter × Except Errno Unit :=
  let (callers, sequence, caller) := limiter.callers.entryGet limiter.accessSequence request.callerDigest now
  let (identities, sequence, identity) := limiter.identities.entryGet sequence request.identityDigest now
  match callers.refill caller now with
  | .error e => (⟨callers, identities, sequence⟩, .error e)
  | .ok caller =>
    match identities.refill identity now with
    | .error e => (⟨callers.store request.callerDigest caller, identities, sequence⟩, .error e)
    | .ok identity =>
      let callerUsed := rateNextSequence sequence
      let identityUsed := rateNextSequence callerUsed
      let taken := if caller.availableUnits < 1000 ∨ identity.availableUnits < 1000 then 0 else 1000
      (⟨callers.store request.callerDigest { caller with
          availableUnits := caller.availableUnits - taken, lastUsed := callerUsed },
        identities.store request.identityDigest { identity with
          availableUnits := identity.availableUnits - taken, lastUsed := identityUsed },
        identityUsed⟩, if taken = 0 then .error .ebusy else .ok ())

/-- A reading that neither bucket of the request is ahead of: the call is decided by the buckets. -/
theorem rateLimiterAcquire_of_filled {limiter : RateLimiter} {request : AuthRequest} {now : Nat}
    {callerTime identityTime : Bytes → Nat} (hcallers : limiter.callers.Filled callerTime)
    (hids : limiter.identities.Filled identityTime)
    (hc : callerTime request.callerDigest = now) (hi : identityTime request.identityDigest = now) :
    (rateLimiterAcquire limiter request now).1.callers.Filled callerTime ∧
      (rateLimiterAcquire limiter request now).1.identities.Filled identityTime ∧
      ((rateLimiterAcquire limiter request now).2 = .ok () ∨ (rateLimiterAcquire limiter request now).2 = .error .ebusy) := by
  unfold rateLimiterAcquire
  dsimp only
  obtain ⟨hcallers, hcaller⟩ := hcallers.entryGet limiter.accessSequence request.callerDigest
  rw [hc] at hcallers hcaller
  generalize limiter.callers.entryGet _ _ now = callers at hcallers hcaller ⊢
  obtain ⟨hids, hidentity⟩ := hids.entryGet callers.2.1 request.identityDigest
  rw [hi] at hids hidentity
  generalize limiter.identities.entryGet _ _ now = identities at hids hidentity ⊢
  obtain ⟨caller, hrefill, hnow⟩ := callers.1.refill_of_le hcaller
  obtain ⟨identity, hrefill', hnow'⟩ := identities.1.refill_of_le hidentity
  rw [hrefill, hrefill']
  refine ⟨hcallers.store (Nat.le_of_eq (hnow.trans hc.symm)), hids.store (Nat.le_of_eq (hnow'.trans hi.symm)), ?_⟩
  dsimp only
  split
  · exact .inr rfl
  · exact .inl rfl

/-- A limiter, the last reading of the clock, the calls that have read it and wait for the lock, with their readings, the
last reading a call took into the lock for each caller and each identity, and the results. -/
structure RateCalls where
  limiter : RateLimiter
  clock : Nat
  waiting : List (AuthRequest × Nat)
  callerLatest : Bytes → Nat
  identityLatest : Bytes → Nat
  results : List (Except Errno Unit)

def RateCalls.created (limiter : RateLimiter) : RateCalls := ⟨limiter, 0, [], fun _ => 0, fun _ => 0, []⟩

/-- A call reads the clock; a waiting call takes the lock and runs to its end. -/
inductive RateEvent where
  | read (request : AuthRequest) (now : Nat)
  | enter (index : Nat)

def RateCalls.step (calls : RateCalls) : RateEvent → RateCalls
  | .read request now => { calls with clock := now, waiting := calls.waiting ++ [(request, now)] }
  | .enter index =>
    match calls.waiting[index]? with
    | none => calls
    | some (request, now) =>
      let (limiter, result) := rateLimiterAcquire calls.limiter request now
      ⟨limiter, calls.clock, calls.waiting.eraseIdx index, readAt calls.callerLatest request.callerDigest now,
        readAt calls.identityLatest request.identityDigest now, calls.results ++ [result]⟩

/-- The clock does not go back, and a call takes the lock when none of its caller or its identity has taken it with a later
reading. -/
def RateEvent.InOrder (calls : RateCalls) : RateEvent → Prop
  | .read _ now => calls.clock ≤ now
  | .enter index => ∀ call, calls.waiting[index]? = some call →
      calls.callerLatest call.1.callerDigest ≤ call.2 ∧ calls.identityLatest call.1.identityDigest ≤ call.2

/-- No bucket is ahead of its calls, and the buckets decided all of them. -/
structure RateCalls.Decided (calls : RateCalls) : Prop where
  callers : calls.limiter.callers.Filled calls.callerLatest
  identities : calls.limiter.identities.Filled calls.identityLatest
  results : ∀ result ∈ calls.results, result = .ok () ∨ result = .error .ebusy

/-- One event in order. -/
theorem RateCalls.Decided.step {calls : RateCalls} {event : RateEvent} (h : calls.Decided) (hord : event.InOrder calls) :
    (calls.step event).Decided := by
  cases event with
  | read request now => exact ⟨h.callers, h.identities, h.results⟩
  | enter index =>
    unfold RateCalls.step
    dsimp only
    split
    · exact h
    · rename_i request now hcall
      obtain ⟨hc, hi⟩ := hord _ hcall
      obtain ⟨hcallers, hids, hres⟩ :=
        rateLimiterAcquire_of_filled (h.callers.readAt hc) (h.identities.readAt hi) (if_pos rfl) (if_pos rfl)
      exact ⟨hcallers, hids, List.forall_mem_append.2 ⟨h.results, List.forall_mem_singleton.2 hres⟩⟩

/-- From a limiter without buckets, as it is created: in every interleaving in which the calls of one caller and those of
one identity take the lock in the order of their readings, each is admitted or refused by a bucket. -/
theorem acquire_in_order {limiter : RateLimiter} (hcallers : limiter.callers.entries = [])
    (hids : limiter.identities.entries = []) (events : List RateEvent)
    (h : Run.Along RateCalls.step (fun calls event => event.InOrder calls) (.created limiter) events) :
    ∀ result ∈ (events.foldl RateCalls.step (.created limiter)).results, result = .ok () ∨ result = .error .ebusy := by
  have hinit : (RateCalls.created limiter).Decided :=
    ⟨fun _ _ hent => (by rw [RateCalls.created, hcallers] at hent; cases hent),
      fun _ _ hent => (by rw [RateCalls.created, hids] at hent; cases hent), nofun⟩
  exact (h.invariant (fun _ _ => RateCalls.Decided.step) hinit).results

end

section

@[reducible] def plainHash : RateHash where
  hash scope texts := scope :: texts.flatten

attribute [local instance] plainHash

def clientRequest : AuthRequest := ⟨[99], [100], [112]⟩

/-- A limiter of one bucket in each scope, with two tokens. -/
def pairLimiter : RateLimiter := ⟨⟨1, 1, 2, []⟩, ⟨1, 1, 2, []⟩, 0⟩

/-- Two calls of one client read 5 and 6, and the one at the index takes the lock first. -/
def twoCalls (first : Nat) : List RateEvent := [.read clientRequest 5, .read clientRequest 6, .enter first, .enter 0]

theorem acquire_in_order_two :
    (((twoCalls 0).foldl RateCalls.step (.created pairLimiter)).results.all fun result =>
      decide (result = .ok () ∨ result = .error .ebusy)) = true :=
  List.all_eq_true.2 fun result hmem => decide_eq_true (acquire_in_order rfl rfl (twoCalls 0)
    ⟨Nat.zero_le 5, Nat.le_succ 5, fun _ _ => ⟨Nat.zero_le _, Nat.zero_le _⟩, fun call hcall => by cases hcall; decide,
      trivial⟩ result hmem)

/-- The call that has read 5 takes the lock behind the one that has read 6. -/
theorem acquire_overtaken :
    ((twoCalls 1).foldl RateCalls.step (.created pairLimiter)).results = [.ok (), .error .eio] := by
  decide

end

end Flowie.Control
