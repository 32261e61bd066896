import Flowie.Endpoint.Rebuild

/-!
# What the sessions hold

The ledger of an endpoint lists its sessions by their configuration and their subscriptions, which
is all the selector is derived from. The events change it in three ways: the subscriptions of one
session are replaced, a session is added without any, a session is removed.
-/

namespace Flowie.Endpoint

open List Mqtt Session

namespace Ledger

def resubscribe (ledger : Ledger) (sessionId : UInt64) (subscriptions : List Subscription) : Ledger :=
  ledger.map fun session => if session.1.sessionId = sessionId then (session.1, subscriptions) else session

variable {ledger : Ledger} {sessionId : UInt64} {subscriptions : List Subscription}

theorem sessionIds_resubscribe : (ledger.resubscribe sessionId subscriptions).sessionIds = ledger.sessionIds := by
  rw [sessionIds, resubscribe, map_map]
  refine map_congr_left fun session _ => ?_
  rw [Function.comp_apply]
  split <;> rfl

theorem resubscribe_self (hdist : ledger.sessionIds.Nodup) {session : SessionConfig × List Subscription}
    (hmem : session ∈ ledger) : ledger.resubscribe session.1.sessionId session.2 = ledger := by
  rw [resubscribe]
  conv_rhs => rw [← map_id ledger]
  refine map_congr_left fun other hoth => ?_
  split
  · rename_i h
    obtain rfl := inj_on_of_nodup_map hdist hoth hmem h
    rfl
  · rfl

variable {filter : Bytes}

theorem held_resubscribe (hmem : sessionId ∈ ledger.sessionIds) {k : UInt64} :
    held (ledger.resubscribe sessionId subscriptions) filter k =
      if k = sessionId then (subscribed subscriptions filter).map (memberOf k) else held ledger filter k := by
  have hkey : ∀ session : SessionConfig × List Subscription,
      ((if session.1.sessionId = sessionId then (session.1, subscriptions) else session).1.sessionId == k) =
        (session.1.sessionId == k) := by
    intro session
    split <;> rfl
  rw [held, resubscribe, List.find?_map, Function.comp_def]
  simp only [hkey]
  by_cases hk : k = sessionId
  · obtain ⟨session, hsess, hid⟩ := List.mem_map.1 hmem
    obtain ⟨found, hfnd⟩ : ∃ found, ledger.find? (·.1.sessionId == k) = some found := by
      rw [← Option.isSome_iff_exists, List.find?_isSome]
      exact ⟨session, hsess, by rw [hid, hk]; exact beq_self_eq_true _⟩
    have hfoundId : found.1.sessionId = sessionId := by
      simpa [hk] using List.find?_some hfnd
    rw [if_pos hk, hfnd]
    simp [hfoundId]
  · rw [if_neg hk, held]
    cases hfnd : ledger.find? (·.1.sessionId == k) with
    | none => rfl
    | some found =>
      have hfoundId : found.1.sessionId = k := by simpa using List.find?_some hfnd
      simp [hfoundId, hk]

/-- What is held, by the sessions and their subscriptions. -/
theorem held_eq_some_iff (hdist : ledger.sessionIds.Nodup)
    (hfils : ∀ session ∈ ledger, (session.2.map (·.filter)).Nodup) {k : UInt64} {member : Member} :
    held ledger filter k = some member ↔
      ∃ session ∈ ledger, session.1.sessionId = k ∧
        ∃ subscription ∈ session.2, subscription.filter = filter ∧ memberOf k subscription = member := by
  simp only [held, Option.bind_eq_some_iff, Option.map_eq_some_iff, KeyedList.find?_eq_some_iff hdist, subscribed]
  constructor
  · rintro ⟨session, ⟨hmem, hid⟩, subscription, hfind, hmbr⟩
    obtain ⟨hsub, hfil⟩ := (KeyedList.find?_eq_some_iff (hfils session hmem)).1 hfind
    exact ⟨session, hmem, hid, subscription, hsub, hfil, hmbr⟩
  · rintro ⟨session, hmem, hid, subscription, hsub, hfil, hmbr⟩
    exact ⟨session, ⟨hmem, hid⟩, subscription, (KeyedList.find?_eq_some_iff (hfils session hmem)).2
      ⟨hsub, hfil⟩, hmbr⟩

section

variable [Vstr]

/-- The sessions an endpoint can have: their identifiers were issued once each, the subscriptions of
    each one are valid, and there is room for all of them. -/
structure Sound (maxSessions : Nat) (issued : UInt64) (ledger : Ledger) : Prop where
  distinct : ledger.sessionIds.Nodup
  issued : ∀ k ∈ ledger.sessionIds, k ≤ issued
  subscriptions : ∀ session ∈ ledger, Subscriptions session.1.maxSubscriptions session.2
  room : ledger.length ≤ maxSessions

variable {maxSessions : Nat} {issued : UInt64}

theorem Sound.filters (h : ledger.Sound maxSessions issued) :
    ∀ session ∈ ledger, (session.2.map (·.filter)).Nodup := fun session hmem => (h.subscriptions session hmem).distinct

theorem Sound.card_sessionIds (h : ledger.Sound maxSessions issued) : ledger.sessionIds.toFinset.card ≤ maxSessions := by
  refine (toFinset_card_le _).trans ?_
  rw [sessionIds, length_map]
  exact h.room

variable {later : UInt64}

theorem Sound.mono (h : ledger.Sound maxSessions issued) (hle : issued ≤ later) : ledger.Sound maxSessions later :=
  ⟨h.distinct, fun k hk => UInt64.le_trans (h.issued k hk) hle, h.subscriptions, h.room⟩

variable {config : SessionConfig}

theorem Sound.resubscribe (h : ledger.Sound maxSessions issued) {old : List Subscription}
    (hmem : (config, old) ∈ ledger) (hsubs : Subscriptions config.maxSubscriptions subscriptions) :
    (ledger.resubscribe config.sessionId subscriptions).Sound maxSessions issued := by
  refine ⟨?_, ?_, ?_, ?_⟩
  · rw [sessionIds_resubscribe]
    exact h.distinct
  · rw [sessionIds_resubscribe]
    exact h.issued
  · intro session hsess
    obtain ⟨other, hoth, rfl⟩ := List.mem_map.1 hsess
    split
    · rename_i hid
      obtain rfl := inj_on_of_nodup_map h.distinct hoth hmem hid
      exact hsubs
    · exact h.subscriptions other hoth
  · rw [Ledger.resubscribe, length_map]
    exact h.room

/-- A new session has the identifier after the last one issued. -/
theorem Sound.append (h : ledger.Sound maxSessions issued) (hnew : config.sessionId ∉ ledger.sessionIds)
    (hlast : issued ≤ later) (hid : config.sessionId ≤ later) (hroom : ledger.length < maxSessions)
    (hsubs : Subscriptions config.maxSubscriptions subscriptions) :
    Sound maxSessions later (ledger ++ [(config, subscriptions)]) := by
  have hids : sessionIds (ledger ++ [(config, subscriptions)]) = ledger.sessionIds ++ [config.sessionId] := by
    simp [sessionIds]
  refine ⟨?_, ?_, ?_, ?_⟩
  · rw [hids, nodup_append]
    refine ⟨h.distinct, nodup_singleton _, ?_⟩
    rintro k hk j hj rfl
    exact hnew (List.mem_singleton.1 hj ▸ hk)
  · intro k hk
    rw [hids, mem_append, mem_singleton] at hk
    rcases hk with hk | rfl
    · exact UInt64.le_trans (h.issued k hk) hlast
    · exact hid
  · intro session hsess
    rw [mem_append, mem_singleton] at hsess
    rcases hsess with hsess | rfl
    · exact h.subscriptions session hsess
    · exact hsubs
  · rw [length_append, length_singleton]
    exact hroom

variable {session : SessionConfig × List Subscription} {i : Nat} (h : ledger.Sound maxSessions issued)
include h

theorem Sound.swapRemove (hget : ledger[i]? = some session) : Sound maxSessions issued (ledger.swapRemove i) := by
  have hsub := swapRemove_subperm hget
  refine ⟨KeyedList.nodup_of_subperm h.distinct hsub, ?_, ?_, Nat.le_trans hsub.length_le h.room⟩
  · exact fun k hk => h.issued k (map_subset _ hsub.subset hk)
  · exact fun other hoth => h.subscriptions other (hsub.subset hoth)

/-- A session that loses its subscriptions held something before. -/
theorem Sound.held_resubscribe_nil_ne (hmem : session ∈ ledger) (hsome : session.2 ≠ []) :
    held (ledger.resubscribe session.1.sessionId []) ≠ held ledger := by
  obtain ⟨subscription, hsub⟩ := exists_mem_of_ne_nil _ hsome
  have hid : session.1.sessionId ∈ ledger.sessionIds := List.mem_map.2 ⟨session, hmem, rfl⟩
  intro heq
  have hnone : held (ledger.resubscribe session.1.sessionId []) subscription.filter session.1.sessionId = _ :=
    held_resubscribe hid
  rw [if_pos rfl, heq, (held_eq_some_iff h.distinct h.filters).2 ⟨session, hmem, rfl, subscription, hsub, rfl, rfl⟩]
    at hnone
  cases hnone

/-- A removed session holds nothing, and the others what they held. -/
theorem Sound.held_swapRemove (hget : ledger[i]? = some session)
    (k : UInt64) : held (ledger.swapRemove i) filter k = if k = session.1.sessionId then none else held ledger filter k := by
  have hnext := h.swapRemove hget
  apply Option.ext
  intro member
  rw [held_eq_some_iff hnext.distinct hnext.filters]
  simp only [mem_swapRemove_iff h.distinct hget]
  split
  · rename_i hk
    subst hk
    simp only [reduceCtorEq, iff_false]
    rintro ⟨other, ⟨-, hne⟩, hid, -⟩
    exact hne hid
  · rename_i hk
    rw [held_eq_some_iff h.distinct h.filters]
    constructor
    · rintro ⟨other, ⟨hmem, -⟩, hrest⟩
      exact ⟨other, hmem, hrest⟩
    · rintro ⟨other, hmem, hid, hrest⟩
      exact ⟨other, ⟨hmem, fun heq => hk (hid.symm.trans heq)⟩, hid, hrest⟩

end

end Ledger

end Flowie.Endpoint
