import Flowie.Session.Steps

/-!
# Whether a CONNECT finds its session

An accepted CONNECT reports `session_present` from `initialized` and its own Clean Start flag. What it
ought to report depends on the history: `Memory` follows what became of the state of the last
connection. A close with session expiry interval zero discards the state and leaves `initialized` set.
-/

namespace Flowie.Session

open Mqtt

/-- What became of the session state of the last connection. -/
inductive Memory where
  | never | kept | discarded
deriving DecidableEq, Repr

section

variable [Vstr]

/-- An accepted CONNECT has a session from then on, and a close with expiry interval zero ends it. -/
def Memory.after (memory : Memory) (owner : Owner) (op : Op) : Memory :=
  match op, step owner op with
  | .connect _ _, .ok (_, .connected result) => if result.accepted then .kept else memory
  | .close, .ok _ => if owner.sessionExpiryInterval = 0 then .discarded else memory
  | _, _ => memory

def historyStep (state : Owner × Memory) (op : Op) : Owner × Memory :=
  (next state.1 op, state.2.after state.1 op)

/-- The owner after a history, with what it has of its last connection. -/
def history (created : Owner) (ops : List Op) : Owner × Memory := ops.foldl historyStep (created, .never)

/-- The fields of an owner that tell what became of its last connection. -/
structure Recalls (owner : Owner) (memory : Memory) : Prop where
  never : memory = .never ↔ owner.initialized = false
  discarded : memory = .discarded ↔
    owner.initialized = true ∧ owner.active = false ∧ owner.sessionExpiryInterval = 0
  active : owner.active = true → owner.initialized = true

variable {owner owner' : Owner} {memory : Memory} {config : SessionConfig}

omit [Vstr] in
theorem Recalls.created (h : ownerCreate config = some owner) : Recalls owner .never := by
  unfold ownerCreate at h
  split at h
  · cases h
    exact ⟨by simp, by simp, by simp⟩
  · cases h

/-- An operation other than CONNECT and close keeps both flags, and the expiry interval of a session that
    is not active. -/
theorem Transition.lifecycle {op : Op} {reply : Reply} (h : Transition owner op owner' reply)
    (hconn : ∀ view takeover, op ≠ .connect view takeover) (hcl : op ≠ .close) :
    owner'.initialized = owner.initialized ∧ owner'.active = owner.active ∧
      (owner.active = false → owner'.sessionExpiryInterval = owner.sessionExpiryInterval) := by
  cases h with
  | opened view takeover => exact absurd rfl (hconn view takeover)
  | closed => exact absurd rfl hcl
  | disconnected view expiry will hact =>
    refine ⟨rfl, rfl, fun hidle => ?_⟩
    rw [hact] at hidle
    cases hidle
  | _ => exact ⟨rfl, rfl, fun _ => rfl⟩

section
variable (h : Recalls owner memory)
include h

omit [Vstr] in
theorem Recalls.of_lifecycle (hkept : owner'.initialized = owner.initialized ∧ owner'.active = owner.active ∧
      (owner.active = false → owner'.sessionExpiryInterval = owner.sessionExpiryInterval)) : Recalls owner' memory := by
  obtain ⟨hinit, hact, hexp⟩ := hkept
  refine ⟨by rw [hinit]; exact h.never, ?_, by rw [hinit, hact]; exact h.active⟩
  rw [hinit, hact, h.discarded]
  refine and_congr_right fun _ => and_congr_right fun hidle => ?_
  rw [hexp hidle]

omit [Vstr] in
/-- A close keeps the session unless its expiry interval is zero. -/
theorem Recalls.closed (hcl : ownerClose owner = .ok owner') :
    Recalls owner' (if owner.sessionExpiryInterval = 0 then .discarded else memory) := by
  obtain ⟨hact, -, rfl⟩ := ownerClose_eq_ok hcl
  have hinit := h.active hact
  have hflds : (Session.closed owner.advanced).initialized = true ∧ (Session.closed owner.advanced).active = false ∧
      (Session.closed owner.advanced).sessionExpiryInterval = owner.sessionExpiryInterval := by
    unfold Session.closed
    split <;> exact ⟨hinit, rfl, rfl⟩
  obtain ⟨hinit', hidle, hexp⟩ := hflds
  -- the session was active, so it was neither new nor discarded
  have hkept : memory = .kept := by
    have hnever : memory ≠ .never := by
      intro hmem
      rw [h.never, hinit] at hmem
      cases hmem
    have hdiscarded : memory ≠ .discarded := by
      intro hmem
      rw [h.discarded, hact] at hmem
      cases hmem.2.1
    cases memory with
    | never => exact absurd rfl hnever
    | kept => rfl
    | discarded => exact absurd rfl hdiscarded
  subst hkept
  refine ⟨?_, ?_, by simp [hidle]⟩
  · rw [hinit']
    split <;> simp
  rw [hinit', hidle, hexp]
  split
  · rename_i hzero
    simp [hzero]
  · rename_i hzero
    simp [hzero]

theorem Recalls.step (op : Op) : Recalls (historyStep (owner, memory) op).1 (historyStep (owner, memory) op).2 := by
  unfold historyStep next Memory.after
  cases hstep : Session.step owner op with
  | error e =>
    cases op <;> exact h
  | ok result =>
    obtain ⟨owner', reply⟩ := result
    have htrans := step_transition hstep
    cases op with
    | connect view takeover =>
      obtain ⟨result, hconn, rfl⟩ := replied_eq_ok hstep
      rcases ownerConnect_eq_ok hconn with ⟨hacc, -, expiry, will, -, -, -, rfl⟩ | ⟨href, rfl⟩
      · simp only [hacc, if_true]
        exact ⟨by simp [opened], by simp [opened], fun _ => rfl⟩
      · simpa [href] using h
    | close => exact h.closed (done_eq_ok hstep).1
    | _ => exact h.of_lifecycle (htrans.lifecycle (by intros; simp) (by simp))

end

theorem Recalls.history {created : Owner} (hcr : ownerCreate config = some created)
    (ops : List Op) : Recalls (history created ops).1 (history created ops).2 := by
  suffices h : ∀ state : Owner × Memory, Recalls state.1 state.2 →
      Recalls (ops.foldl historyStep state).1 (ops.foldl historyStep state).2 from
    h (created, .never) (Recalls.created hcr)
  induction ops with
  | nil => exact fun _ h => h
  | cons op ops ih => exact fun state h => ih (historyStep state op) (h.step op)

/-- The packet identifiers of the inbound QoS 2 messages that wait for their PUBREL. -/
def Owner.releasedIds (owner : Owner) : List UInt16 :=
  (owner.inflight.filter (·.state == .qos2Release)).map Inflight.packetId

/-- Two owners with the same session state; a close may reorder the packets in flight. -/
structure SameState (owner owner' : Owner) : Prop where
  subscriptions : owner'.subscriptions = owner.subscriptions
  releasedIds : owner'.releasedIds.Perm owner.releasedIds
  deliveries : owner'.deliveries = owner.deliveries

omit [Vstr] in
/-- A close with a session expiry interval keeps the session state. -/
theorem SameState.closed (hcl : ownerClose owner = .ok owner') (hexp : owner.sessionExpiryInterval ≠ 0) :
    SameState owner owner' := by
  obtain ⟨-, -, rfl⟩ := ownerClose_eq_ok hcl
  have hkept : Session.closed owner.advanced =
      { owner.advanced with
        active := false
        will := owner.will.map Will.armed
        inflight := inflightClear true owner.inflight } := if_neg hexp
  rw [hkept]
  refine ⟨rfl, ?_, rfl⟩
  have hperm := ((List.retainSwap_all_perm (fun entry : Inflight => true && entry.state == .qos2Release)
    owner.inflight).filter (·.state == .qos2Release)).map Inflight.packetId
  simpa [Owner.releasedIds, inflightClear, List.filter_filter] using hperm

omit [Vstr] in
theorem SameState.opened {view : ConnectView} (hcln : view.cleanStart = false) (expiry : UInt32) (will : Option Will) :
    SameState owner (opened owner view expiry will) := by
  refine ⟨?_, ?_, ?_⟩
  · simp [Session.opened, hcln]
  · simp [Session.opened, Owner.releasedIds, hcln]
  · simp [Session.opened, hcln]

/-- `session_present` is reported exactly for the state kept from the last connection. -/
structure Truthful (memory : Memory) (owner : Owner) (view : ConnectView) (owner' : Owner) (result : ConnectResult) :
    Prop where
  only : result.sessionPresent = true → view.cleanStart = false ∧ memory = .kept ∧ SameState owner owner'
  whenever : view.cleanStart = false → memory = .kept → result.sessionPresent = true

/-- In every history of one owner a close with a session expiry interval keeps the session state, and an
    accepted CONNECT tells the truth about it unless it continues a session that ended with its connection. -/
theorem sessionPresent_truthful_iff {config : SessionConfig} {created : Owner} (hcr : ownerCreate config = some created)
    (ops : List Op) :
    (∀ owner', ownerClose (history created ops).1 = .ok owner' →
      (history created ops).1.sessionExpiryInterval ≠ 0 → SameState (history created ops).1 owner') ∧
    ∀ view takeover owner' result,
      ownerConnect (history created ops).1 view takeover = .ok (owner', result) → result.accepted = true →
        (Truthful (history created ops).2 (history created ops).1 view owner' result ↔
          ¬ ((history created ops).1.initialized = true ∧ (history created ops).1.active = false ∧
            (history created ops).1.sessionExpiryInterval = 0 ∧ view.cleanStart = false)) := by
  have hrecalls := Recalls.history hcr ops
  generalize (history created ops).1 = owner at *
  generalize (history created ops).2 = memory at *
  refine ⟨fun owner' hcl => SameState.closed hcl, ?_⟩
  intro view takeover owner' result hconn hacc
  rcases ownerConnect_eq_ok hconn with ⟨-, hpres, expiry, will, -, -, -, rfl⟩ | ⟨href, -⟩
  · constructor
    · rintro htruth ⟨hinit, hidle, hzero, hcln⟩
      obtain ⟨-, hkept, -⟩ := htruth.only (by rw [hpres, hinit, hcln]; rfl)
      rw [hrecalls.discarded.2 ⟨hinit, hidle, hzero⟩] at hkept
      cases hkept
    · intro hcond
      refine ⟨fun hreported => ?_, fun hcln hkept => ?_⟩
      · rw [hpres, Bool.and_eq_true, Bool.not_eq_true'] at hreported
        obtain ⟨hinit, hcln⟩ := hreported
        refine ⟨hcln, ?_, SameState.opened hcln expiry will⟩
        -- an initialized session is kept unless it is discarded
        cases memory with
        | never =>
          rw [hrecalls.never.1 rfl] at hinit
          cases hinit
        | kept => rfl
        | discarded =>
          obtain ⟨-, hidle, hzero⟩ := hrecalls.discarded.1 rfl
          exact absurd ⟨hinit, hidle, hzero, hcln⟩ hcond
      · have hinit : owner.initialized = true := by
          cases h : owner.initialized with
          | true => rfl
          | false => cases (hrecalls.never.2 h).symm.trans hkept
        rw [hpres, hinit, hcln]
        rfl
  · rw [href] at hacc
    cases hacc

end

section

attribute [local instance] asciiVstr

def cleanConnect : ConnectView := { persistentConnect with cleanStart := true }

/-- The session subscribes to `a` and loses its connection. -/
def subscribedAndClosed (view : ConnectView) : List Op :=
  [.connect view false, .subscribe ⟨.v311, .subscribe, 2, []⟩ ⟨1, [], [0, 1, 97, 1], 1⟩, .close]

/-- A persistent session is found again with its subscription. -/
theorem sessionPresent_truthful_persistent :
    ∃ owner' result,
      ownerConnect (history smallOwner (subscribedAndClosed persistentConnect)).1 persistentConnect false =
          .ok (owner', result) ∧ result.sessionPresent = true ∧ owner'.subscriptions.length = 1 ∧
        Truthful (history smallOwner (subscribedAndClosed persistentConnect)).2
          (history smallOwner (subscribedAndClosed persistentConnect)).1 persistentConnect owner' result :=
  ⟨_, _, rfl, by decide, by decide,
    ((sessionPresent_truthful_iff ownerCreate_smallConfig (subscribedAndClosed persistentConnect)).2 persistentConnect
      false _ _ rfl (by decide)).2 (by decide)⟩

/-- The close discarded the subscription, and the next CONNECT reports the session as present. -/
theorem sessionPresent_after_discard :
    (history smallOwner (subscribedAndClosed cleanConnect)).2 = .discarded ∧
      ∃ owner' result,
        ownerConnect (history smallOwner (subscribedAndClosed cleanConnect)).1 persistentConnect false =
            .ok (owner', result) ∧ result.accepted = true ∧ result.sessionPresent = true ∧ owner'.subscriptions = [] :=
  ⟨by decide, _, _, rfl, by decide, by decide, by decide⟩

end

end Flowie.Session
