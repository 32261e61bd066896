import Flowie.Endpoint.Mirror

/-!
# CONNECT

A CONNECT changes the owner of a session first and marks the index last. `connectStrands` says when
it stops in between with the subscriptions gone.
-/

namespace Flowie.Endpoint

open Mqtt Session List

section

variable [Vstr]

/-- A CONNECT of a session stops after its owner lost the subscriptions and before the index is
    marked: the clock fails in place, the old connection is not fenced, or the new one is not bound. -/
def connectStrands (persistenceEnabled : Bool) (owner : Owner) (view : ConnectView) (takeover : Bool)
    (answer : ConnectAnswer) : Bool :=
  match if persistenceEnabled then ownerClone owner else some owner with
  | none => false
  | some staged =>
    match ownerConnect staged view takeover with
    | .error _ => false
    | .ok (opened, decision) =>
      if !decision.accepted then false
      else
        match expireAt opened answer.now with
        | .error _ => !persistenceEnabled && view.cleanStart
        | .ok opened =>
          match if persistenceEnabled then answer.saved else .ok () with
          | .error _ => false
          | .ok _ =>
            match if takeover then answer.fenced else .ok () with
            | .error _ => view.cleanStart
            | .ok _ =>
              -- the close after a failed bind ends a session with expiry interval zero
              !answer.bound.isOk && (view.cleanStart ||
                decide (opened.sessionExpiryInterval = 0 ∧ opened.resourceGeneration ≠ uint64Max))

/-- An accepted CONNECT opens the owner and drops its subscriptions on a clean start. -/
theorem ownerConnect_accepted {owner opened : Owner} {view : ConnectView} {takeover : Bool} {decision : ConnectResult}
    (h : ownerConnect owner view takeover = .ok (opened, decision)) (hacc : decision.accepted = true) :
    opened.config = owner.config ∧
      opened.subscriptions = (if view.cleanStart then [] else owner.subscriptions) ∧ opened.active = true := by
  rcases ownerConnect_eq_ok h with ⟨-, -, expiry, will, -, -, -, rfl⟩ | ⟨href, -⟩
  · exact ⟨rfl, rfl, rfl⟩
  · rw [hacc] at href
    cases href

namespace State

variable {endpoint : State} {session : EndpointSession}

/-- The end of the CONNECT of a session that is there. -/
theorem bindSession_outcome (hsnd : endpoint.Sound) (hmem : session ∈ endpoint.sessions) {connection : Nat}
    {cleanStart : Bool} {answer : ConnectAnswer} {owner : Owner} (hcfg : owner.config = session.owner.config)
    (hsubs : owner.subscriptions = if cleanStart then [] else session.owner.subscriptions)
    (hact : owner.active = true) :
    Outcome endpoint
      ((endpoint.setOwner session.sessionId owner).bindSession session.sessionId connection cleanStart answer).1 session
      (!answer.bound.isOk && (cleanStart ||
        decide (owner.sessionExpiryInterval = 0 ∧ owner.resourceGeneration ≠ uint64Max))) := by
  have hid : ∀ other : EndpointSession, other.sessionId = session.sessionId →
      EndpointSession.sessionId { other with owner := owner } = session.sessionId := by
    intro other _
    rw [EndpointSession.sessionId, hcfg]
    rfl
  unfold bindSession setOwner
  cases answer.bound with
  | error e =>
    rw [modify_modify hid]
    refine Outcome.modify hsnd hmem ((config_closeIgnored).trans hcfg) ?_
    rw [subscriptions_closeIgnored hact, hsubs]
    cases cleanStart with
    | true => simp [Except.isOk, Except.toBool]
    | false => simp [Except.isOk, Except.toBool]
  | ok =>
    dsimp only [setConnection]
    rw [modify_modify hid]
    cases cleanStart with
    | true => exact Outcome.invalidate hsnd hmem hcfg hsubs
    | false => exact Outcome.modify hsnd hmem hcfg hsubs

variable {view : ConnectView}

/-- The CONNECT of a session that is there. -/
theorem connect_existing (hsnd : endpoint.Sound) (connection : Nat) (answer : ConnectAnswer)
    (hfind : endpoint.sessionFind view.clientId = some session) :
    Outcome endpoint (endpoint.connect connection view answer).1 session
      (connectStrands endpoint.persistenceEnabled session.owner view (session.connection.any (· != connection)) answer) := by
  have hmem : session ∈ endpoint.sessions := mem_of_find?_eq_some hfind
  have hsame : Outcome endpoint (endpoint.setOwner session.sessionId session.owner) session false :=
    Outcome.modify hsnd hmem rfl rfl
  unfold connect
  rw [hfind]
  dsimp only
  generalize session.connection.any (· != connection) = takeover
  unfold connectOwner connectStrands
  cases hstg : if endpoint.persistenceEnabled then ownerClone session.owner else some session.owner with
  | none => exact hsame
  | some staged =>
    obtain ⟨deliveries, rfl⟩ := staged_eq hstg
    dsimp only
    cases hconn : ownerConnect { session.owner with deliveries := deliveries } view takeover with
    | error e => exact hsame
    | ok connected =>
      obtain ⟨opened, decision⟩ := connected
      dsimp only
      cases hacc : decision.accepted with
      | false => simpa [hacc] using hsame
      | true =>
        obtain ⟨hcfg, hsubs, hact⟩ := ownerConnect_accepted hconn hacc
        have hopened : Outcome endpoint (endpoint.setOwner session.sessionId opened) session view.cleanStart :=
          Outcome.modify hsnd hmem hcfg hsubs
        cases hexpr : expireAt opened answer.now with
        | error e =>
          cases hpst : endpoint.persistenceEnabled with
          | true => simpa using hsame
          | false => simpa using hopened
        | ok expired =>
          obtain ⟨hcfg', hsubs', hact'⟩ := expireAt_eq_ok hexpr
          rw [hcfg] at hcfg'
          rw [hsubs] at hsubs'
          rw [hact] at hact'
          cases hsaved : if endpoint.persistenceEnabled then answer.saved else .ok () with
          | error e => simpa [hexpr, hsaved] using hsame
          | ok =>
            simp only [hacc, Bool.not_true, Bool.false_eq_true, if_false]
            cases hfenced : if takeover then answer.fenced else .ok () with
            | error e => exact Outcome.modify hsnd hmem hcfg' hsubs'
            | ok => exact bindSession_outcome hsnd hmem hcfg' hsubs' hact'

/-- A session of a new client has the next identifier and no subscriptions. -/
theorem sessionCreate_cases (answer : ConnectAnswer) :
    (∃ route, endpoint.nextRouteId ≤ route ∧ (endpoint.sessionCreate view answer).1 = { endpoint with nextRouteId := route } ∧
      ∀ decision, (endpoint.sessionCreate view answer).2 = .ok decision → decision.accepted = false) ∨
    (endpoint.sessions.length < endpoint.maxSessions ∧ endpoint.nextRouteId ≠ uint64Max ∧
      ∃ session : EndpointSession, session.sessionId = endpoint.nextRouteId + 1 ∧ session.owner.subscriptions = [] ∧
        (endpoint.sessionCreate view answer).1 =
          { endpoint with nextRouteId := endpoint.nextRouteId + 1, sessions := endpoint.sessions ++ [session] }) := by
  unfold sessionCreate
  split
  · exact .inl ⟨_, UInt64.le_refl _, rfl, fun decision h => nomatch h⟩
  rename_i hroom
  split
  · exact .inl ⟨_, UInt64.le_refl _, rfl, fun decision h => nomatch h⟩
  rename_i hroute
  have hle : endpoint.nextRouteId ≤ endpoint.nextRouteId + 1 := UInt64.le_of_lt (generation_lt_succ hroute)
  dsimp only
  split
  · exact .inl ⟨_, hle, rfl, fun decision h => nomatch h⟩
  rename_i created hcr
  split
  · exact .inl ⟨_, hle, rfl, fun decision h => nomatch h⟩
  rename_i opened decision hconn
  split
  · rename_i href
    refine .inl ⟨_, hle, rfl, fun other h => ?_⟩
    cases h
    simpa using href
  · rename_i hacc
    split
    · exact .inl ⟨_, hle, rfl, fun decision h => nomatch h⟩
    obtain ⟨hmk, -, -, hnil⟩ := ownerCreate_eq_some hcr
    obtain ⟨hcfg, hsubs, -⟩ := ownerConnect_accepted hconn (by simpa using hacc)
    refine .inr ⟨Nat.lt_of_not_le hroom, hroute, _, ?_, ?_, rfl⟩
    · rw [EndpointSession.sessionId, hcfg, hmk]
    · rw [hsubs, hnil, ite_self]

variable (hsnd : endpoint.Sound)
include hsnd

/-- A session without subscriptions adds nothing to what is held. -/
theorem append_kept (hmir : endpoint.Mirrors)
    (hroom : endpoint.sessions.length < endpoint.maxSessions) (hroute : endpoint.nextRouteId ≠ uint64Max)
    (hid : session.sessionId = endpoint.nextRouteId + 1) (hnil : session.owner.subscriptions = []) {after : State}
    (haft : after =
      { endpoint with nextRouteId := endpoint.nextRouteId + 1, sessions := endpoint.sessions ++ [session] }) :
    after.Sound ∧ after.Mirrors := by
  have hlt := generation_lt_succ hroute
  have hnew : session.owner.config.sessionId ∉ endpoint.ledger.sessionIds := by
    intro hmem
    have hle := hsnd.issued _ hmem
    rw [EndpointSession.sessionId] at hid
    rw [hid] at hle
    exact UInt64.not_le.2 hlt hle
  have hlen : endpoint.ledger.length = endpoint.sessions.length := by rw [ledger_eq, length_map]
  have hled : after.ledger = endpoint.ledger ++ [(session.owner.config, [])] := by
    rw [haft, ledger_eq, ledger_eq, map_append, ← hnil]
    rfl
  have hheld : held (endpoint.ledger ++ [(session.owner.config, [])]) = held endpoint.ledger := by
    funext filter k
    rw [held_append hnew]
    split
    · rename_i hk
      rw [hk, held_of_not_mem hnew]
      rfl
    · rfl
  constructor
  · rw [Sound, hled, haft]
    exact Ledger.Sound.append hsnd hnew (UInt64.le_of_lt hlt) (UInt64.le_of_eq hid) (hlen ▸ hroom)
      ⟨nodup_nil, by simp, Nat.zero_le _⟩
  · rw [Mirrors, hled, hheld, haft]
    exact hmir

theorem bindSession_new (hmem : session ∈ endpoint.sessions) (connection : Nat)
    (answer : ConnectAnswer) (hnil : session.owner.subscriptions = []) :
    Outcome endpoint (endpoint.bindSession session.sessionId connection false answer).1 session false := by
  unfold bindSession
  cases answer.bound with
  | error e =>
    refine Outcome.modify hsnd hmem config_closeIgnored ?_
    rw [if_neg Bool.false_ne_true, hnil]
    exact subscriptions_closeIgnored_of_nil hnil
  | ok => exact Outcome.modify hsnd hmem rfl rfl

theorem connect_new (hmir : endpoint.Mirrors) (connection : Nat)
    (answer : ConnectAnswer) (hfind : endpoint.sessionFind view.clientId = none) :
    (endpoint.connect connection view answer).1.Kept := by
  unfold connect
  rw [hfind]
  rcases sessionCreate_cases answer with
    ⟨route, hroute, hmk, href⟩ | ⟨hroom, hroute, session, hid, hnil, hmk⟩
  · have hkept : (endpoint.sessionCreate view answer).1.Kept := by
      rw [hmk]
      exact ⟨hsnd.of_ledger rfl rfl hroute, hmir.of_ledger rfl rfl rfl rfl⟩
    generalize endpoint.sessionCreate view answer = result at hkept href ⊢
    obtain ⟨created, decided⟩ := result
    cases decided with
    | error e => cases e <;> exact hkept
    | ok decision =>
      dsimp only
      rw [href decision rfl]
      exact hkept
  · have hkept := append_kept hsnd hmir hroom hroute hid hnil rfl
    rw [← hmk] at hkept
    have hmem : session ∈ (endpoint.sessionCreate view answer).1.sessions := by
      rw [hmk]
      exact mem_append_right _ mem_cons_self
    have hlast : session.sessionId = (endpoint.sessionCreate view answer).1.nextRouteId := by
      rw [hmk]
      exact hid
    generalize endpoint.sessionCreate view answer = result at hkept hmem hlast ⊢
    obtain ⟨created, decided⟩ := result
    cases decided with
    | error e => cases e <;> exact hkept
    | ok decision =>
      dsimp only at hkept hmem hlast ⊢
      split
      · exact hkept
      rw [← hlast]
      have houtcome := bindSession_new hkept.1 hmem connection answer hnil
      exact ⟨houtcome.sound hkept.1 hmem, (houtcome.mirrors_iff hkept.1 hmem hkept.2).2 (by simp)⟩

end State

end

end Flowie.Endpoint
