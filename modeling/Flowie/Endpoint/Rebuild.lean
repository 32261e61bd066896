import Flowie.Endpoint.SelectorView
import Flowie.Session.Durable

/-!
# The selector rebuilt from the sessions

`held` is what the sessions themselves hold, as an abstract selector. A rebuild does not fail and
its selector holds exactly that (`indexRebuild_spec`): the first loop stages an entry for every
filter and the second one binds the entries in the topic index.
-/

namespace Flowie.Endpoint

open List Selector Entry
open Function (update update_apply update_eq_self_iff)
open SlotMap Mqtt Session

def subscribed (subscriptions : List Subscription) (filter : Bytes) : Option Subscription :=
  subscriptions.find? (·.filter == filter)

/-- The sessions by what the selector is derived from. -/
abbrev Ledger := List (SessionConfig × List Subscription)

def ledger (owners : List Owner) : Ledger := owners.map fun owner => (owner.config, owner.subscriptions)

def Ledger.sessionIds (ledger : Ledger) : List UInt64 := ledger.map (·.1.sessionId)

/-- The members the subscriptions of the sessions make. -/
def held (ledger : Ledger) : View := fun filter sessionId =>
  (ledger.find? (·.1.sessionId == sessionId)).bind fun session =>
    (subscribed session.2 filter).map (memberOf sessionId)

variable {filter : Bytes} {subscriptions : List Subscription}

theorem subscribed_eq_none (h : filter ∉ subscriptions.map (·.filter)) : subscribed subscriptions filter = none := by
  rw [subscribed, List.find?_eq_none]
  intro s hs heq
  exact h (List.mem_map.2 ⟨s, hs, eq_of_beq heq⟩)

variable {subscription : Subscription}

theorem subscribed_append (hnew : subscription.filter ∉ subscriptions.map (·.filter)) :
    subscribed (subscriptions ++ [subscription]) =
      update (subscribed subscriptions) subscription.filter (some subscription) := by
  funext filter
  rw [subscribed, List.find?_append, update_apply]
  split
  · rename_i h
    subst h
    have hnone := subscribed_eq_none hnew
    rw [subscribed] at hnone
    simp [hnone]
  · rename_i h
    simp [Ne.symm h, subscribed]

variable {k : UInt64}

section
variable {ledger : Ledger}

theorem find?_session_eq_none (h : k ∉ ledger.sessionIds) : ledger.find? (·.1.sessionId == k) = none := by
  rw [List.find?_eq_none]
  intro session hsess heq
  exact h (List.mem_map.2 ⟨session, hsess, eq_of_beq heq⟩)

theorem held_of_not_mem (h : k ∉ ledger.sessionIds) : held ledger filter k = none := by
  rw [held, find?_session_eq_none h]
  rfl

/-- A session that holds something is one of the sessions. -/
theorem mem_of_held (h : held ledger filter k ≠ none) : k ∈ ledger.sessionIds := by
  by_contra hk
  exact h (held_of_not_mem hk)

/-- A session at the end holds its own subscriptions, the others what they held. -/
theorem held_append {config : SessionConfig} (hnew : config.sessionId ∉ ledger.sessionIds) :
    held (ledger ++ [(config, subscriptions)]) filter k =
      if k = config.sessionId then (subscribed subscriptions filter).map (memberOf k) else held ledger filter k := by
  rw [held, List.find?_append]
  split
  · rename_i h
    subst h
    simp [find?_session_eq_none hnew]
  · rename_i h
    simp [Ne.symm h, held]

end

section

variable [Vstr] {old : Selector} {maxSessions : Nat}

/-- The entries staged by the first loop: all slots are in use and none is bound. -/
structure Staged (maxSessions : Nat) (staged : SlotMap Entry.filter) : Prop where
  entry : ∀ {slot entry}, staged.get slot = some entry → entry.Valid maxSessions
  filter : ∀ {slot entry}, staged.get slot = some entry → topicFilterValidate entry.filter = true
  unbound : ∀ {slot entry}, staged.get slot = some entry → entry.topicBinding = none
  full : staged.free = []

variable {staged : SlotMap Entry.filter}

theorem Staged.of_each (heach : ∀ {slot entry}, staged.get slot = some entry →
      entry.Valid maxSessions ∧ topicFilterValidate entry.filter = true ∧ entry.topicBinding = none)
    (hfull : staged.free = []) : Staged maxSessions staged :=
  ⟨fun h => (heach h).1, fun h => (heach h).2.1, fun h => (heach h).2.2, hfull⟩

def stagedView (staged : SlotMap Entry.filter) : View := view ⟨staged, .empty⟩

/-- A subscription that is not staged yet is put into the abstract selector. -/
theorem rebuildMember_spec (h : Staged maxSessions staged) {sessionId : UInt64}
    (hfil : topicFilterValidate subscription.filter = true)
    (hnew : stagedView staged subscription.filter sessionId = none) {sessions : Finset UInt64}
    (hkn : ∀ k, stagedView staged subscription.filter k ≠ none → k ∈ sessions) (hself : sessionId ∈ sessions)
    (hroom : sessions.card ≤ maxSessions) :
    ∃ staged', rebuildMember old maxSessions sessionId staged subscription = .ok staged' ∧ Staged maxSessions staged' ∧
      stagedView staged' = (stagedView staged).put subscription.filter (memberOf sessionId subscription) := by
  let member := memberOf sessionId subscription
  unfold rebuildMember
  split
  next slot entry hfind =>
    obtain ⟨hget, hkey⟩ := staged.find_eq_some_iff.1 hfind
    have hview : stagedView staged subscription.filter = entry.members.find :=
      view_of_value (staged.value_of_find hfind)
    rw [hview] at hkn hnew
    have hent := h.entry hget
    have hunbound := h.unbound hget
    obtain ⟨members, hadd, hmems, hupdate, hne⟩ : ∃ members', memberAdd entry.members member = .ok members' ∧
        members'.Valid maxSessions ∧ members'.find = update entry.members.find sessionId (some member) ∧
        members'.entries ≠ [] :=
      hent.members.add hnew (Nat.lt_of_lt_of_le (hent.members.card_lt hkn hself hnew) hroom)
    refine ⟨setMembers staged slot members, by rw [hadd], .of_each (fun hget' => ?_) h.full, ?_⟩
    · rcases get_modifyAt_eq_some (withMembers_filter members) hget hget' with ⟨-, rfl⟩ | ⟨-, hold⟩
      · exact ⟨⟨hmems, hne, hent.shared⟩, by rw [withMembers_filter, hkey, hfil], hunbound⟩
      · exact ⟨h.entry hold, h.filter hold, h.unbound hold⟩
    · rw [stagedView, view_setMembers hget, View.put, hview, hkey, hupdate]
      rfl
  next hfind =>
    have hvl : staged.value subscription.filter = none := by rw [value, hfind]; rfl
    have hmax : maxSessions ≠ 0 := by
      have hpos := Finset.card_pos.2 ⟨_, hself⟩
      omega
    obtain ⟨created, hinit, hmk, hnil⟩ := Members.init_valid hmax
    have hnone : created.find sessionId = none := by rw [hnil]
    have hcard : created.sessionIds.members.card < sessions.card :=
      hmk.card_lt (fun k hk => absurd (congrFun hnil k) hk) hself hnone
    obtain ⟨members, hadd, hmems, hupdate, hne⟩ : ∃ members', memberAdd created member = .ok members' ∧
        members'.Valid maxSessions ∧ members'.find = update created.find sessionId (some member) ∧
        members'.entries ≠ [] :=
      hmk.add hnone (Nat.lt_of_lt_of_le hcard hroom)
    rw [hinit]
    dsimp only
    rw [hadd]
    refine ⟨_, rfl, .of_each (fun hget' => ?_) ?_, ?_⟩
    · rcases get_insert_eq_some _ hget' with ⟨-, rfl⟩ | hold
      · exact ⟨⟨hmems, hne, rfl⟩, hfil, rfl⟩
      · exact ⟨h.entry hold, h.filter hold, h.unbound hold⟩
    · show staged.free.dropLast = []
      rw [h.full]
      rfl
    · rw [stagedView, view_insert, View.put, stagedView, view_of_none hvl, hupdate, hnil]
      rfl

/-- A session is staged after those before it. -/
theorem rebuildSession_spec (h : Staged maxSessions staged) {before : Ledger}
    {owner : Owner} (hview : stagedView staged = held before) (hnew : owner.config.sessionId ∉ before.sessionIds)
    (hsubs : Subscriptions owner.config.maxSubscriptions owner.subscriptions)
    (hroom : before.length + 1 ≤ maxSessions) :
    ∃ staged', rebuildSession old maxSessions staged owner = .ok staged' ∧ Staged maxSessions staged' ∧
      stagedView staged' = held (before ++ [(owner.config, owner.subscriptions)]) := by
  have hinit : Staged maxSessions staged ∧ stagedView staged = held (before ++ [(owner.config, [])]) := by
    refine ⟨h, ?_⟩
    funext filter k
    rw [hview, held_append hnew]
    split
    · rename_i hk
      rw [hk, held_of_not_mem hnew]
      rfl
    · rfl
  refine Run.foldlM_invariant
    (I := fun passed staged => Staged maxSessions staged ∧ stagedView staged = held (before ++ [(owner.config, passed)]))
    hinit ?_
  rintro passed subscription rest state hspl ⟨hstg, hst⟩
  have hdist := hsubs.distinct
  rw [hspl, map_append, map_cons, nodup_append] at hdist
  have hfr : subscription.filter ∉ passed.map (·.filter) :=
    fun hmem => hdist.2.2 _ hmem _ mem_cons_self rfl
  have hfil := (hsubs.valid subscription (by rw [hspl]; simp)).filter
  have hnone : stagedView state subscription.filter owner.config.sessionId = none := by
    rw [hst, held_append hnew, if_pos rfl, subscribed_eq_none hfr]
    rfl
  -- the sessions seen so far bound the members of every entry
  have hkn : ∀ k, stagedView state subscription.filter k ≠ none →
      k ∈ (before.sessionIds ++ [owner.config.sessionId]).toFinset := by
    intro k hk
    rw [hst] at hk
    rw [mem_toFinset]
    simpa [Ledger.sessionIds] using mem_of_held hk
  have hcard : (before.sessionIds ++ [owner.config.sessionId]).toFinset.card ≤ maxSessions := by
    refine (toFinset_card_le _).trans ?_
    simpa [Ledger.sessionIds] using hroom
  obtain ⟨state', hok, hstg', hst'⟩ := rebuildMember_spec hstg hfil hnone hkn (by simp) hcard
  refine ⟨state', hok, hstg', ?_⟩
  funext filter k
  rw [hst', View.put_apply, hst, held_append hnew, held_append hnew, subscribed_append hfr, update_apply]
  by_cases hk : k = owner.config.sessionId
  · by_cases hf : filter = subscription.filter
    · simp [hk, hf, memberOf]
    · simp [hk, hf]
  · simp [hk, memberOf]

/-- The second loop: the entries in the slots passed are bound. -/
structure Binding (maxSessions size : Nat) (view : View) (passed : List Nat) (state : Selector) : Prop where
  entry : ∀ {slot entry}, state.entries.get slot = some entry → entry.Valid maxSessions
  filter : ∀ {slot entry}, state.entries.get slot = some entry → topicFilterValidate entry.filter = true
  active : ∀ slot, (state.entries.get slot).isSome = true ↔ slot < size
  bound : ∀ {slot entry}, state.entries.get slot = some entry → (entry.topicBinding.isSome = true ↔ slot ∈ passed)
  topics : state.table.Valid
  holds : state.view = view

theorem Binding.step {size : Nat} {view : View} {passed : List Nat} {state : Selector}
    (h : Binding maxSessions size view passed state) {slot : Nat} (hslot : slot < size) (hnew : slot ∉ passed) :
    ∃ state', rebuildBind state slot = .ok state' ∧ Binding maxSessions size view (passed ++ [slot]) state' := by
  obtain ⟨entry, hget⟩ := Option.isSome_iff_exists.1 ((h.active slot).2 hslot)
  have hunbound : entry.topicBinding = none := by
    rw [← Option.not_isSome_iff_eq_none, h.bound hget]
    exact hnew
  have hent := h.entry hget
  have hfil := h.filter hget
  have hfree : state.table.bound slot = none := by simp [table, hget, hunbound]
  obtain ⟨topics, binding, hins, -⟩ := topicIndexInsertBound_spec hfil state.topics slot
  have hslots : (setBinding state.entries slot binding).get =
      update state.entries.get slot (some (entry.withBinding binding)) := by
    rw [setBinding, get_modifyAt, hget]
    rfl
  refine ⟨⟨setBinding state.entries slot binding, topics⟩, ?_, ?_⟩
  · rw [rebuildBind, hget]
    dsimp only
    rw [hins]
  · refine ⟨?_, ?_, ?_, ?_, ?_, ?_⟩
    · intro other entry' hget'
      rcases get_modifyAt_eq_some withBinding_filter hget hget' with ⟨-, rfl⟩ | ⟨-, hold⟩
      · exact ⟨hent.members, hent.nonempty, hent.shared⟩
      · exact h.entry hold
    · intro other entry' hget'
      rcases get_modifyAt_eq_some withBinding_filter hget hget' with ⟨-, rfl⟩ | ⟨-, hold⟩
      · exact hfil
      · exact h.filter hold
    · intro other
      rw [hslots, update_apply]
      split
      · rename_i hoth
        simp [hoth, hslot]
      · exact h.active other
    · intro other entry' hget'
      rcases get_modifyAt_eq_some withBinding_filter hget hget' with ⟨rfl, rfl⟩ | ⟨hne, hold⟩
      · simp [withBinding]
      · rw [h.bound hold]
        simp [hne]
    · obtain ⟨table', hok, hval, -⟩ := h.topics.insert hfil hfree
      have htopics : topicIndexInsertBound state.table.root entry.filter slot = .ok (topics, binding) := hins
      rw [TopicTable.insert, htopics] at hok
      have htable : table ⟨setBinding state.entries slot binding, topics⟩ = table' := by
        rw [← Except.ok.inj hok, table, hslots]
        congr 1
        funext other
        rw [update_apply, update_apply]
        split
        · simp [withBinding]
        · rfl
      rw [htable]
      exact hval
    · have hvl : (setBinding state.entries slot binding).value =
          update state.entries.value entry.filter (some (entry.withBinding binding)) :=
        value_modifyAt hget withBinding_filter
      rw [view_eq_update state ⟨setBinding state.entries slot binding, topics⟩ hvl, ← h.holds, update_eq_self_iff,
        view_of_value (state.entries.value_eq_some_iff.2 ⟨slot, hget, rfl⟩)]
      rfl

/-- A rebuild succeeds and holds what the sessions hold. -/
theorem indexRebuild_spec {owners : List Owner} (hids : (ledger owners).sessionIds.Nodup)
    (hsubs : ∀ owner ∈ owners, Subscriptions owner.config.maxSubscriptions owner.subscriptions)
    (hroom : owners.length ≤ maxSessions) :
    ∃ selector, indexRebuild old maxSessions owners = .ok selector ∧ selector.Valid maxSessions ∧
      selector.view = held (ledger owners) := by
  have hnil : Staged maxSessions empty ∧ stagedView .empty = held [] :=
    ⟨⟨fun h => (nomatch h), fun h => (nomatch h), fun h => (nomatch h), rfl⟩, rfl⟩
  obtain ⟨staged, hstage, hstg, hview⟩ : ∃ staged, owners.foldlM (rebuildSession old maxSessions) .empty =
      .ok staged ∧ Staged maxSessions staged ∧ stagedView staged = held (ledger owners) := by
    refine Run.foldlM_invariant
      (I := fun passed staged => Staged maxSessions staged ∧ stagedView staged = held (ledger passed)) hnil ?_
    rintro passed owner rest state hspl ⟨hstg, hst⟩
    have hlen : owners.length = passed.length + (rest.length + 1) := by rw [hspl]; simp
    rw [hspl, ledger, Ledger.sessionIds, map_map, map_append, map_cons, nodup_append] at hids
    have hnew : owner.config.sessionId ∉ (ledger passed).sessionIds := by
      rw [ledger, Ledger.sessionIds, map_map]
      exact fun hmem => hids.2.2 _ hmem _ mem_cons_self rfl
    have hroom' : (ledger passed).length + 1 ≤ maxSessions := by
      rw [ledger, length_map]
      omega
    rw [ledger, map_append]
    exact rebuildSession_spec hstg hst hnew (hsubs owner (by rw [hspl]; simp)) hroom'
  have hact : ∀ slot, (staged.get slot).isSome = true ↔ slot < staged.slots.length := by
    intro slot
    constructor
    · intro hsome
      obtain ⟨entry, hget⟩ := Option.isSome_iff_exists.1 hsome
      exact lt_of_get hget
    · intro hlt
      have hfree : staged.slots[slot]? ≠ some none := by
        rw [Ne, ← staged.freed, hstg.full]
        simp
      rw [SlotMap.get]
      rw [List.getElem?_eq_getElem hlt] at hfree ⊢
      cases hcell : staged.slots[slot] with
      | none => exact absurd (congrArg some hcell) hfree
      | some entry => rfl
  have hinit : Binding maxSessions staged.slots.length (held (ledger owners)) [] ⟨staged, .empty⟩ := by
    refine ⟨hstg.entry, hstg.filter, hact, ?_, ?_, hview⟩
    · intro slot entry hget
      simp [hstg.unbound hget]
    have htable : table ⟨staged, .empty⟩ = TopicTable.init := by
      rw [table, TopicTable.init]
      congr 1
      funext slot
      cases hget : staged.get slot with
      | none => rfl
      | some entry => simp [hstg.unbound hget]
    rw [htable]
    exact TopicTable.valid_init
  obtain ⟨selector, hbind, hbnd⟩ : ∃ selector, (List.range staged.slots.length).foldlM rebuildBind ⟨staged, .empty⟩ =
      .ok selector ∧ Binding maxSessions staged.slots.length (held (ledger owners)) (List.range staged.slots.length) selector := by
    refine Run.foldlM_invariant hinit ?_
    intro passed slot rest state hspl hst
    have hslot : slot ∈ List.range staged.slots.length := by rw [hspl]; simp
    have hnd := nodup_range (n := staged.slots.length)
    rw [hspl, nodup_append] at hnd
    exact hst.step (List.mem_range.1 hslot) fun hmem => hnd.2.2 _ hmem _ mem_cons_self rfl
  refine ⟨selector, by rw [indexRebuild, hstage]; exact hbind, ⟨hbnd.entry, ?_, hbnd.topics⟩, hbnd.holds⟩
  intro slot entry hget
  rw [hbnd.bound hget, mem_range, ← hbnd.active, hget]
  rfl

end

end Flowie.Endpoint
