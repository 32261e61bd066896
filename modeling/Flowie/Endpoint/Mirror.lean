import Flowie.Endpoint.Cursors
import Flowie.Endpoint.Reindex
import Flowie.Session.Capacity

/-!
# The selector against the sessions, event by event

While `subscription_index_valid` is set the selector is meant to hold what the sessions hold.
`Sound` is what every event keeps of the sessions alone; `Mirrors` is the agreement. An event keeps it
unless it takes the subscriptions of a session that stays and leaves the flag set.
-/

namespace Flowie.Endpoint

open Mqtt Session List

section Owner

variable {owner owner' : Owner} {op : Op}

/-- An operation that is not about subscriptions leaves them. -/
theorem subscriptions_of_plain [Vstr] {reply : Reply} (h : Transition owner op owner' reply)
    (hpln : plainOperation op = true) : owner'.subscriptions = owner.subscriptions := by
  cases h with
  | opened => cases hpln
  | closed => cases hpln
  | subscribed => cases hpln
  | unsubscribed => cases hpln
  | _ => rfl

theorem next_of_plain [Vstr] (hpln : plainOperation op = true) :
    (next owner op).config = owner.config ∧ (next owner op).subscriptions = owner.subscriptions := by
  unfold Session.next
  split
  · rename_i hstep
    exact ⟨(step_transition hstep).config, subscriptions_of_plain (step_transition hstep) hpln⟩
  · exact ⟨rfl, rfl⟩

/-- The deliveries that ran out are the only change. -/
theorem expireAt_eq_ok [Vstr] {now : UInt64} (h : expireAt owner now = .ok owner') :
    owner'.config = owner.config ∧ owner'.subscriptions = owner.subscriptions ∧ owner'.active = owner.active := by
  unfold expireAt at h
  split_ifs at h
  split at h
  · cases h
  rename_i hexpr
  cases h
  cases deliveryExpire_transition hexpr <;> exact ⟨rfl, rfl, rfl⟩

theorem config_closeIgnored : (closeIgnored owner).config = owner.config := by
  unfold closeIgnored
  split
  · rename_i hcl
    obtain ⟨-, -, rfl⟩ := ownerClose_eq_ok hcl
    unfold closed
    split <;> rfl
  · rfl

theorem ownerClose_of_active (hact : owner.active = true) (hgen : owner.resourceGeneration ≠ uint64Max) :
    ownerClose owner = .ok (closed owner.advanced) := by
  rw [ownerClose, hact, generationAdvance, if_neg hgen]
  rfl

/-- A close takes the subscriptions of an active session with expiry interval zero. -/
theorem subscriptions_closeIgnored (hact : owner.active = true) :
    (closeIgnored owner).subscriptions =
      if owner.sessionExpiryInterval = 0 ∧ owner.resourceGeneration ≠ uint64Max then [] else owner.subscriptions := by
  by_cases hgen : owner.resourceGeneration = uint64Max
  · have hcl : ownerClose owner = .error .erange := by
      rw [ownerClose, hact, generationAdvance, if_pos hgen]
      rfl
    rw [closeIgnored, hcl]
    simp [hgen]
  · rw [closeIgnored, ownerClose_of_active hact hgen, closed]
    have hexp : owner.advanced.sessionExpiryInterval = owner.sessionExpiryInterval := rfl
    rw [hexp]
    by_cases hzero : owner.sessionExpiryInterval = 0
    · simp [hzero, hgen]
    · simp [hzero, Owner.advanced]

theorem subscriptions_closeIgnored_of_nil (h : owner.subscriptions = []) : (closeIgnored owner).subscriptions = [] := by
  unfold closeIgnored
  split
  · rename_i hcl
    obtain ⟨-, -, rfl⟩ := ownerClose_eq_ok hcl
    unfold closed
    split
    · rfl
    · exact h
  · exact h

/-- The owner an operation works on has the configuration and the subscriptions of the session. -/
theorem staged_eq {persistenceEnabled : Bool} {staged : Owner}
    (h : (if persistenceEnabled then ownerClone owner else some owner) = some staged) :
    ∃ deliveries, staged = { owner with deliveries := deliveries } := by
  split at h
  · obtain ⟨deliveries, hcopy, -⟩ := ownerClone_eq_some h
    exact ⟨deliveries, hcopy⟩
  · cases h
    exact ⟨owner.deliveries, rfl⟩

end Owner

namespace State

def ledger (endpoint : State) : Ledger := Endpoint.ledger endpoint.owners

variable {endpoint endpoint' : State} {sessionId : UInt64} {session : EndpointSession}

theorem ledger_eq :
    endpoint.ledger = endpoint.sessions.map fun session => (session.owner.config, session.owner.subscriptions) := by
  rw [ledger, Endpoint.ledger, owners, map_map]
  rfl

theorem sessionIds_ledger : endpoint.ledger.sessionIds = endpoint.sessions.map (·.sessionId) := by
  rw [ledger_eq, Ledger.sessionIds, map_map]
  rfl

theorem mem_of_session (h : endpoint.session sessionId = some session) :
    session ∈ endpoint.sessions ∧ session.sessionId = sessionId :=
  ⟨mem_of_find?_eq_some h, by simpa using List.find?_some h⟩

theorem mem_ledger (h : session ∈ endpoint.sessions) :
    (session.owner.config, session.owner.subscriptions) ∈ endpoint.ledger := by
  rw [ledger_eq]
  exact List.mem_map.2 ⟨session, h, rfl⟩

theorem mem_sessionIds (h : session ∈ endpoint.sessions) : session.sessionId ∈ endpoint.ledger.sessionIds := by
  rw [sessionIds_ledger]
  exact mem_map_of_mem h

variable {f : EndpointSession → EndpointSession}

/-- A change of sessions that keeps their configurations and subscriptions. -/
theorem ledger_modify_of_same (hcfg : ∀ session, (f session).owner.config = session.owner.config)
    (hsubs : ∀ session, (f session).owner.subscriptions = session.owner.subscriptions) :
    (endpoint.modify sessionId f).ledger = endpoint.ledger := by
  rw [ledger_eq, ledger_eq, modify, map_map]
  refine map_congr_left fun other _ => ?_
  rw [Function.comp_apply]
  split
  · rw [hcfg, hsubs]
  · rfl

/-- A change of one session that keeps its configuration. -/
theorem ledger_modify (hdist : endpoint.ledger.sessionIds.Nodup) (hmem : session ∈ endpoint.sessions)
    (hcfg : (f session).owner.config = session.owner.config) :
    (endpoint.modify session.sessionId f).ledger =
      endpoint.ledger.resubscribe session.sessionId (f session).owner.subscriptions := by
  rw [sessionIds_ledger] at hdist
  rw [ledger_eq, ledger_eq, modify, Ledger.resubscribe, map_map, map_map]
  refine map_congr_left fun other hoth => ?_
  rw [Function.comp_apply, Function.comp_apply]
  by_cases hid : other.sessionId = session.sessionId
  · obtain rfl := inj_on_of_nodup_map hdist hoth hmem hid
    have hkey : other.owner.config.sessionId = other.sessionId := rfl
    rw [if_pos rfl, if_pos hkey, hcfg]
  · have hkey : ¬other.owner.config.sessionId = session.sessionId := hid
    rw [if_neg hid, if_neg hkey]

theorem modify_modify {g : EndpointSession → EndpointSession}
    (hf : ∀ session, session.sessionId = sessionId → (f session).sessionId = sessionId) :
    (endpoint.modify sessionId f).modify sessionId g = endpoint.modify sessionId fun session => g (f session) := by
  rw [modify, modify, modify, map_map]
  congr 1
  refine map_congr_left fun other _ => ?_
  rw [Function.comp_apply]
  by_cases hid : other.sessionId = sessionId
  · rw [if_pos hid, if_pos hid, if_pos (hf other hid)]
  · rw [if_neg hid, if_neg hid, if_neg hid]

section

variable [Vstr]

/-- The sessions are ones an endpoint can have. -/
def Sound (endpoint : State) : Prop := endpoint.ledger.Sound endpoint.maxSessions endpoint.nextRouteId

/-- A selector in use holds what the sessions hold. -/
def Mirrors (endpoint : State) : Prop :=
  endpoint.subscriptionIndexValid = true →
    endpoint.selector.Valid endpoint.maxSessions ∧ endpoint.selector.view = held endpoint.ledger

abbrev Kept (endpoint : State) : Prop := endpoint.Sound ∧ endpoint.Mirrors

/-- An event that changes nothing of the sessions and the selector. -/
theorem Sound.of_ledger (h : endpoint.Sound) (hled : endpoint'.ledger = endpoint.ledger)
    (hmax : endpoint'.maxSessions = endpoint.maxSessions) (hroute : endpoint.nextRouteId ≤ endpoint'.nextRouteId) :
    endpoint'.Sound := by
  rw [Sound, hled, hmax]
  exact Ledger.Sound.mono h hroute

theorem Mirrors.of_ledger (h : endpoint.Mirrors) (hled : endpoint'.ledger = endpoint.ledger)
    (hmax : endpoint'.maxSessions = endpoint.maxSessions) (hsel : endpoint'.selector = endpoint.selector)
    (hval : endpoint'.subscriptionIndexValid = endpoint.subscriptionIndexValid) : endpoint'.Mirrors := by
  rw [Mirrors, hled, hmax, hsel, hval]
  exact h

theorem mirrors_of_invalid (h : endpoint.subscriptionIndexValid = false) : endpoint.Mirrors := by
  intro hval
  rw [h] at hval
  cases hval

/-- An event that replaced the subscriptions of one session at most, and left the selector. -/
structure Touched (endpoint endpoint' : State) (session : EndpointSession) (subscriptions : List Subscription)
    (valid : Bool) : Prop where
  ledger : endpoint'.ledger = endpoint.ledger.resubscribe session.sessionId subscriptions
  maxSessions : endpoint'.maxSessions = endpoint.maxSessions
  nextRouteId : endpoint'.nextRouteId = endpoint.nextRouteId
  selector : endpoint'.selector = endpoint.selector
  valid : endpoint'.subscriptionIndexValid = valid

/-- What an event can do to a session that stays, when `strands` says whether the subscriptions go
    without a sign. -/
def Outcome (endpoint endpoint' : State) (session : EndpointSession) (strands : Bool) : Prop :=
  ∃ subscriptions valid, Touched endpoint endpoint' session subscriptions valid ∧
    (subscriptions = session.owner.subscriptions ∨ subscriptions = []) ∧
    (valid = false ∧ strands = false ∨
      valid = endpoint.subscriptionIndexValid ∧
        (session.owner.subscriptions ≠ [] → (subscriptions = [] ↔ strands = true)))

variable {subscriptions : List Subscription} {valid strands : Bool} {f : EndpointSession → EndpointSession}
  (hsnd : endpoint.Sound) (hmem : session ∈ endpoint.sessions)
include hsnd hmem

theorem Touched.modify (hcfg : (f session).owner.config = session.owner.config) :
    Touched endpoint (endpoint.modify session.sessionId f) session (f session).owner.subscriptions
      endpoint.subscriptionIndexValid :=
  ⟨ledger_modify hsnd.distinct hmem hcfg, rfl, rfl, rfl, rfl⟩

theorem Touched.sound (h : Touched endpoint endpoint' session subscriptions valid)
    (hsubs : Subscriptions session.owner.config.maxSubscriptions subscriptions) : endpoint'.Sound := by
  rw [Sound, h.ledger, h.maxSessions, h.nextRouteId]
  exact Ledger.Sound.resubscribe hsnd (mem_ledger hmem) hsubs

/-- Subscriptions that are gone while the flag stays are what breaks the agreement. -/
theorem Touched.mirrors_iff (h : Touched endpoint endpoint' session subscriptions endpoint.subscriptionIndexValid)
    (hmir : endpoint.Mirrors) (hcase : subscriptions = session.owner.subscriptions ∨ subscriptions = []) :
    endpoint'.Mirrors ↔
      ¬(endpoint.subscriptionIndexValid = true ∧ session.owner.subscriptions ≠ [] ∧ subscriptions = []) := by
  have hself : endpoint.ledger.resubscribe session.sessionId session.owner.subscriptions = endpoint.ledger :=
    Ledger.resubscribe_self hsnd.distinct (mem_ledger hmem)
  cases hval : endpoint.subscriptionIndexValid with
  | false => simp [mirrors_of_invalid (h.valid.trans hval)]
  | true =>
    obtain ⟨hsel, hview⟩ := hmir hval
    have hiff : endpoint'.Mirrors ↔
        held (endpoint.ledger.resubscribe session.sessionId subscriptions) = held endpoint.ledger := by
      rw [Mirrors, h.ledger, h.maxSessions, h.selector, h.valid, hval, hview]
      exact ⟨fun hm => (hm rfl).2.symm, fun heq _ => ⟨hsel, heq.symm⟩⟩
    rw [hiff]
    by_cases hgone : session.owner.subscriptions ≠ [] ∧ subscriptions = []
    · obtain ⟨hsome, rfl⟩ := hgone
      simp only [hsome, not_true, and_true, ne_eq, not_false_eq_true, iff_false]
      exact Ledger.Sound.held_resubscribe_nil_ne hsnd (mem_ledger hmem) hsome
    · have hsame : subscriptions = session.owner.subscriptions := by
        rcases hcase with hsame | hnil
        · exact hsame
        rw [hnil, eq_comm]
        by_contra hsome
        exact hgone ⟨hsome, hnil⟩
      rw [hsame] at hgone ⊢
      simp [hself, hgone]

section
variable (h : Outcome endpoint endpoint' session strands)
include h

theorem Outcome.sound : endpoint'.Sound := by
  obtain ⟨subscriptions, valid, htch, hcase, -⟩ := h
  have hsubs := hsnd.subscriptions _ (mem_ledger hmem)
  refine htch.sound hsnd hmem ?_
  rcases hcase with rfl | rfl
  · exact hsubs
  · exact hsubs.of_subperm nil_subperm

theorem Outcome.mirrors_iff (hmir : endpoint.Mirrors) :
    endpoint'.Mirrors ↔
      ¬(endpoint.subscriptionIndexValid = true ∧ session.owner.subscriptions ≠ [] ∧ strands = true) := by
  obtain ⟨subscriptions, valid, htch, hcase, ⟨rfl, rfl⟩ | ⟨rfl, hstr⟩⟩ := h
  · simp [mirrors_of_invalid htch.valid]
  rw [htch.mirrors_iff hsnd hmem hmir hcase]
  by_cases hsome : session.owner.subscriptions = []
  · simp [hsome]
  · rw [hstr hsome]

end

variable (hcfg : (f session).owner.config = session.owner.config)
include hcfg

theorem Outcome.modify
    (hsubs : (f session).owner.subscriptions = if strands then [] else session.owner.subscriptions) :
    Outcome endpoint (endpoint.modify session.sessionId f) session strands := by
  refine ⟨_, _, Touched.modify hsnd hmem hcfg, ?_, .inr ⟨rfl, fun hsome => ?_⟩⟩
  · rw [hsubs]
    cases strands with
    | true => exact .inr rfl
    | false => exact .inl rfl
  · rw [hsubs]
    cases strands with
    | true => simp
    | false => simpa using hsome

/-- The index is marked with the change. -/
theorem Outcome.invalidate (hsubs : (f session).owner.subscriptions = []) :
    Outcome endpoint (endpoint.modify session.sessionId f).invalidate session false := by
  obtain ⟨hled, hmax, hroute, hsel, -⟩ := Touched.modify hsnd hmem hcfg
  exact ⟨_, false, ⟨hled, hmax, hroute, hsel, rfl⟩, .inr hsubs, .inl ⟨rfl, rfl⟩⟩

end

end State

end Flowie.Endpoint
