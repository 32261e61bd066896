import Flowie.Endpoint.Ledger
import Flowie.Endpoint.Sessions

/-!
# The selector after a SUBSCRIBE or an UNSUBSCRIBE

The owner and the selector read the same packet in loops of their own. Entry by entry, what the owner
does to its subscriptions the selector does to the members of the session, so they end in step.
-/

namespace Flowie.Endpoint

open Function (update update_apply update_eq_self_iff)
open Mqtt Session List

/-- The members of one session replaced. -/
def View.assign (view : View) (sessionId : UInt64) (subscriptions : List Subscription) : View := fun filter k =>
  if k = sessionId then (subscribed subscriptions filter).map (memberOf k) else view filter k

variable {sessionId : UInt64}

theorem held_resubscribe_eq_assign {ledger : Ledger} (hmem : sessionId ∈ ledger.sessionIds)
    (subscriptions : List Subscription) :
    held (ledger.resubscribe sessionId subscriptions) = (held ledger).assign sessionId subscriptions := by
  funext filter k
  rw [Ledger.held_resubscribe hmem]
  rfl

variable {subscriptions : List Subscription} {subscription : Subscription}

theorem subscribed_eq_some_iff (h : (subscriptions.map (·.filter)).Nodup) {filter : Bytes} :
    subscribed subscriptions filter = some subscription ↔ subscription ∈ subscriptions ∧ subscription.filter = filter :=
  KeyedList.find?_eq_some_iff h

variable {staged : List Subscription} {identifier : UInt32} {capacity : Nat}

section
variable (hdist : (subscriptions.map (·.filter)).Nodup)
include hdist

theorem subscribed_apply {entry : SubscriptionView} {changed changed' : Bool}
    (h : subscriptionApply capacity entry identifier subscriptions changed = .ok (staged, changed')) :
    subscribed staged = update (subscribed subscriptions) entry.filter (some (subscriptionOf entry identifier)) := by
  rcases subscriptionApply_eq_ok h with ⟨i, old, hold, hkey, rfl⟩ | ⟨hnew, -, rfl⟩
  · have hnext : ((subscriptions.set i (subscriptionOf entry identifier)).map (·.filter)).Nodup := by
      rw [KeyedList.map_set_of_key hold (show (subscriptionOf entry identifier).filter = old.filter from hkey.symm)]
      exact hdist
    funext filter
    rw [update_apply]
    split
    · rename_i hfil
      rw [subscribed_eq_some_iff hnext, hfil]
      exact ⟨mem_set (List.getElem?_eq_some_iff.1 hold).1 _, rfl⟩
    · rename_i hfil
      apply Option.ext
      intro other
      rw [subscribed_eq_some_iff hnext, subscribed_eq_some_iff hdist]
      constructor
      · rintro ⟨hmem, rfl⟩
        rcases mem_or_eq_of_mem_set hmem with hkept | rfl
        · exact ⟨hkept, rfl⟩
        · exact absurd rfl hfil
      · rintro ⟨hmem, rfl⟩
        obtain ⟨j, hj⟩ := mem_iff_getElem?.1 hmem
        refine ⟨mem_iff_getElem?.2 ⟨j, ?_⟩, rfl⟩
        rw [List.getElem?_set_ne, hj]
        rintro rfl
        rw [hold] at hj
        exact hfil (Option.some.inj hj ▸ hkey)
  · have hfil : (subscriptionOf entry identifier).filter = entry.filter := rfl
    rw [← hfil]
    refine subscribed_append fun hmem => ?_
    obtain ⟨other, hoth, hsame⟩ := List.mem_map.1 hmem
    exact hnew other hoth hsame

theorem subscribed_remove (filter : Bytes) :
    subscribed (subscriptionRemove subscriptions filter).1 = update (subscribed subscriptions) filter none := by
  unfold subscriptionRemove
  split
  · rename_i i hfind
    obtain ⟨hlt, hkey, -⟩ := List.findIdx?_eq_some_iff_getElem.1 hfind
    have hkey : subscriptions[i].filter = filter := beq_iff_eq.1 hkey
    have hget : subscriptions[i]? = some subscriptions[i] := List.getElem?_eq_getElem hlt
    have hnext := KeyedList.nodup_of_subperm hdist (swapRemove_subperm hget)
    funext f
    apply Option.ext
    intro other
    rw [subscribed_eq_some_iff hnext, mem_swapRemove_iff hdist hget, hkey, update_apply]
    split
    · rename_i hf
      simp only [reduceCtorEq, iff_false]
      rintro ⟨⟨-, hne⟩, rfl⟩
      exact hne hf
    · rename_i hf
      rw [subscribed_eq_some_iff hdist]
      constructor
      · rintro ⟨⟨hmem, -⟩, rfl⟩
        exact ⟨hmem, rfl⟩
      · rintro ⟨hmem, rfl⟩
        exact ⟨⟨hmem, hf⟩, rfl⟩
  · rename_i hfind
    rw [eq_comm, update_eq_self_iff, eq_comm]
    refine subscribed_eq_none fun hmem => ?_
    obtain ⟨other, hoth, hfil⟩ := List.mem_map.1 hmem
    rw [List.findIdx?_eq_none_iff] at hfind
    simpa [hfil] using hfind other hoth

end

namespace View

variable {later : List Subscription} {filter : Bytes}

theorem assign_put (view : View) (h : subscribed later = update (subscribed subscriptions) filter (some subscription)) :
    view.assign sessionId later = (view.assign sessionId subscriptions).put filter (memberOf sessionId subscription) := by
  funext f k
  rw [put_apply, assign, assign, h, update_apply]
  by_cases hk : k = sessionId
  · by_cases hf : f = filter
    · simp [hk, hf, memberOf]
    · simp [hk, hf]
  · simp [hk, memberOf]

theorem assign_drop (view : View) (h : subscribed later = update (subscribed subscriptions) filter none) :
    view.assign sessionId later = (view.assign sessionId subscriptions).drop filter sessionId := by
  funext f k
  rw [drop_apply, assign, assign, h, update_apply]
  by_cases hk : k = sessionId
  · by_cases hf : f = filter
    · simp [hk, hf]
    · simp [hk, hf]
  · simp [hk]

end View

section

variable [Vstr] {maxSessions : Nat} {selector : Selector} {sessionId : UInt64} {view : View}

/-- The entries of a SUBSCRIBE, in the owner and in the selector. -/
theorem upserts_spec {sessions : Finset UInt64} (hself : sessionId ∈ sessions) (hroom : sessions.card ≤ maxSessions)
    (hkn : ∀ filter k, view filter k ≠ none → k ∈ sessions) {entries : List SubscriptionView} {changed changed' : Bool}
    (hs : Subscriptions capacity subscriptions) (hents : ∀ entry ∈ entries, (subscriptionOf entry identifier).Valid)
    (hloop : subscribeLoop capacity identifier entries subscriptions changed = .ok (staged, changed'))
    (hval : selector.Valid maxSessions) (hview : selector.view = view.assign sessionId subscriptions) :
    ∃ selector', entries.foldlM (fun selector entry =>
        memberUpsert maxSessions selector entry.filter (memberOf sessionId (subscriptionOf entry identifier))) selector =
        .ok selector' ∧ selector'.Valid maxSessions ∧ selector'.view = view.assign sessionId staged := by
  induction entries generalizing subscriptions changed selector with
  | nil =>
    cases hloop
    exact ⟨selector, rfl, hval, hview⟩
  | cons entry rest ih =>
    unfold subscribeLoop at hloop
    split at hloop
    · cases hloop
    rename_i next changed'' happ
    have hent := hents entry mem_cons_self
    have hmems : ∀ k, selector.view entry.filter k ≠ none → k ∈ sessions := by
      intro k hk
      rw [hview, View.assign] at hk
      split at hk
      · rename_i hself'
        exact hself' ▸ hself
      · exact hkn _ _ hk
    let member := memberOf sessionId (subscriptionOf entry identifier)
    obtain ⟨upserted, hupsert, hval', hview'⟩ : ∃ selector',
        memberUpsert maxSessions selector entry.filter member = .ok selector' ∧ selector'.Valid maxSessions ∧
          selector'.view = selector.view.put entry.filter member :=
      memberUpsert_spec hval hent.filter hmems hself hroom
    rw [hview, ← view.assign_put (subscribed_apply hs.distinct happ)] at hview'
    rw [foldlM_cons, hupsert]
    exact ih (hs.apply hent happ) (fun e he => hents e (mem_cons_of_mem _ he)) hloop hval' hview'

/-- The filters of an UNSUBSCRIBE, in the owner and in the selector. -/
theorem removals_spec {filters : List Bytes}
    (hdist : (subscriptions.map (·.filter)).Nodup) (hval : selector.Valid maxSessions)
    (hview : selector.view = view.assign sessionId subscriptions) :
    ∃ selector', filters.foldlM (fun selector filter => memberRemove selector sessionId filter) selector =
        .ok selector' ∧ selector'.Valid maxSessions ∧
      selector'.view = view.assign sessionId (unsubscribeLoop filters subscriptions).1 := by
  induction filters generalizing subscriptions selector with
  | nil => exact ⟨selector, rfl, hval, hview⟩
  | cons filter rest ih =>
    obtain ⟨removed, hrem, hval', hview', -⟩ := memberRemove_spec hval
    rw [hview, ← view.assign_drop (subscribed_remove hdist filter)] at hview'
    have hsub : ((subscriptionRemove subscriptions filter).1.map (·.filter)).Nodup :=
      KeyedList.nodup_of_subperm hdist (unsubscribeLoop_subperm [filter] subscriptions)
    rw [foldlM_cons, hrem]
    exact ih hsub hval' hview'

end

end Flowie.Endpoint
