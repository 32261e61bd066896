import Flowie.Endpoint.Selector
import Flowie.TopicIndex.Table

/-!
# What the selector holds

The abstract selector is a map from filters and sessions to members. On a selector whose indices
are in step, an upsert is an update of this map and a removal takes the pair out of it
(`memberUpsert_spec`, `memberRemove_spec`, `sessionRemove_spec`); both keep the indices in step.
-/

namespace Flowie.Endpoint

open Function (update update_apply update_eq_self_iff)
open AssocList List Option SlotMap Mqtt Session

/-- The members by filter and session. -/
abbrev View := Bytes → UInt64 → Option Member

namespace View

variable (view : View) (filter : Bytes)

def put (member : Member) : View :=
  Function.update view filter (Function.update (view filter) member.sessionId (some member))

def drop (sessionId : UInt64) : View :=
  Function.update view filter (Function.update (view filter) sessionId none)

theorem put_apply (member : Member) (f : Bytes) (k : UInt64) :
    view.put filter member f k = if f = filter ∧ k = member.sessionId then some member else view f k := by
  rw [put, update_apply]
  by_cases hf : f = filter
  · by_cases hk : k = member.sessionId
    · simp [hf, hk]
    · simp [hf, hk]
  · simp [hf]

theorem drop_apply (sessionId : UInt64) (f : Bytes) (k : UInt64) :
    view.drop filter sessionId f k = if f = filter ∧ k = sessionId then none else view f k := by
  rw [drop, update_apply]
  by_cases hf : f = filter
  · by_cases hk : k = sessionId
    · simp [hf, hk]
    · simp [hf, hk]
  · simp [hf]

theorem drop_of_none {view : View} {filter : Bytes} {sessionId : UInt64} (h : view filter sessionId = none) :
    view.drop filter sessionId = view := by
  rw [drop, update_eq_self_iff, update_eq_self_iff, h]

end View

namespace Members

def find (members : Members) (sessionId : UInt64) : Option Member :=
  (members.index.lookup sessionId).bind (members.entries[·]?)

/-- The three member structures are in step. -/
structure Valid (maxSessions : Nat) (members : Members) : Prop where
  synced : ∀ k i, members.index.lookup k = some i ↔ ∃ a, members.entries[i]? = some a ∧ a.sessionId = k
  sessions : ∀ k, k ∈ members.sessionIds.members ↔ ∃ a ∈ members.entries, a.sessionId = k
  capacity : members.sessionIds.maxMembers = maxSessions

variable {members members' : Members} {maxSessions : Nat} {member : Member}

def Valid.vec (h : members.Valid maxSessions) : IndexedVec Member.sessionId :=
  ⟨members.entries, members.index, h.synced⟩

variable {k : UInt64}

section
variable (h : members.Valid maxSessions)
include h

theorem Valid.find_eq_some_iff {a : Member} : members.find k = some a ↔ a ∈ members.entries ∧ a.sessionId = k := by
  rw [find, bind_eq_some_iff, mem_iff_getElem?]
  constructor
  · rintro ⟨i, hi, ha⟩
    obtain ⟨b, hb, hkey⟩ := (h.synced k i).1 hi
    obtain rfl := Option.mem_unique hb ha
    exact ⟨⟨i, ha⟩, hkey⟩
  · rintro ⟨⟨i, ha⟩, hkey⟩
    exact ⟨i, (h.synced k i).2 ⟨a, ha, hkey⟩, ha⟩

theorem Valid.find_eq_none_iff : members.find k = none ↔ members.index.lookup k = none := by
  rw [find]
  cases hk : members.index.lookup k with
  | none => simp
  | some i =>
    obtain ⟨a, ha, -⟩ := (h.synced k i).1 hk
    simp [ha]

theorem Valid.mem_sessionIds : k ∈ members.sessionIds.members ↔ members.find k ≠ none := by
  rw [h.sessions, ne_none_iff_exists']
  simp only [h.find_eq_some_iff]

/-- A member structure is the map of its entries. -/
theorem Valid.find_eq_update (h' : members'.Valid maxSessions) {value : Option Member}
    (hkey : ∀ a, value = some a → a.sessionId = k)
    (hents : ∀ a, a ∈ members'.entries ↔ value = some a ∨ a ∈ members.entries ∧ a.sessionId ≠ k) :
    members'.find = update members.find k value := by
  funext j
  apply Option.ext
  intro a
  rw [h'.find_eq_some_iff, hents, update_apply]
  split
  · rename_i hj
    subst hj
    constructor
    · rintro ⟨ha | ha, hsess⟩
      · exact ha
      · exact absurd hsess ha.2
    · intro ha
      exact ⟨.inl ha, hkey a ha⟩
  · rename_i hj
    rw [h.find_eq_some_iff]
    constructor
    · rintro ⟨ha | ha, hsess⟩
      · exact absurd (hsess.symm.trans (hkey a ha)) hj
      · exact ⟨ha.1, hsess⟩
    · rintro ⟨ha, hsess⟩
      exact ⟨.inr ⟨ha, fun hk => hj (hsess.symm.trans hk)⟩, hsess⟩

end

theorem init_valid (hmax : maxSessions ≠ 0) :
    ∃ members, membersInit maxSessions = .ok members ∧ members.Valid maxSessions ∧ members.find = fun _ => none := by
  refine ⟨⟨[], [], ∅, maxSessions⟩, ?_, ⟨by simp, by simp, rfl⟩, rfl⟩
  rw [membersInit, bitmapIndexCreate, if_neg hmax]

/-- A session that is not a member yet is added while there is room for it. -/
theorem Valid.add (h : members.Valid maxSessions) (hnew : members.find member.sessionId = none)
    (hroom : members.sessionIds.members.card < maxSessions) :
    ∃ members', memberAdd members member = .ok members' ∧ members'.Valid maxSessions ∧
      members'.find = update members.find member.sessionId (some member) ∧ members'.entries ≠ [] := by
  have hlook := h.find_eq_none_iff.1 hnew
  have hfr : member.sessionId ∉ members.sessionIds.members := by
    rw [h.mem_sessionIds]
    exact fun hne => hne hnew
  have hadd : bitmapIndexAdd members.sessionIds member.sessionId =
      .ok { members.sessionIds with members := insert member.sessionId members.sessionIds.members } := by
    rw [bitmapIndexAdd, if_neg hfr, if_neg (by rw [h.capacity]; omega)]
  have hval : Valid maxSessions ⟨members.entries ++ [member],
      put member.sessionId members.entries.length members.index,
      { members.sessionIds with members := insert member.sessionId members.sessionIds.members }⟩ := by
    refine ⟨(h.vec.append member hlook).synced, ?_, h.capacity⟩
    intro k
    simp only [Finset.mem_insert, h.sessions, mem_append, mem_singleton]
    constructor
    · rintro (rfl | ⟨a, ha, rfl⟩)
      · exact ⟨member, .inr rfl, rfl⟩
      · exact ⟨a, .inl ha, rfl⟩
    · rintro ⟨a, ha | rfl, rfl⟩
      · exact .inr ⟨a, ha, rfl⟩
      · exact .inl rfl
  refine ⟨_, by rw [memberAdd, hadd], hval, h.find_eq_update hval ?_ ?_, by simp⟩
  · rintro a ⟨⟩
    rfl
  intro a
  have hoth : a ∈ members.entries → a.sessionId ≠ member.sessionId := by
    intro ha hk
    rw [h.find_eq_some_iff.2 ⟨ha, hk⟩] at hnew
    cases hnew
  simp only [mem_append, mem_singleton, Option.some.injEq]
  constructor
  · rintro (ha | rfl)
    · exact .inr ⟨ha, hoth ha⟩
    · exact .inl rfl
  · rintro (rfl | ⟨ha, -⟩)
    · exact .inr rfl
    · exact .inl ha

variable {position : Nat} (h : members.Valid maxSessions)
include h

/-- A session that is a member already gets its member replaced. -/
theorem Valid.replace (hlook : members.index.lookup member.sessionId = some position) :
    ∃ members', memberReplace members member position = .ok members' ∧ members'.Valid maxSessions ∧
      members'.find = update members.find member.sessionId (some member) ∧ members'.entries ≠ [] := by
  obtain ⟨stored, hsto, hkey⟩ := (h.synced _ _).1 hlook
  have hlt := (List.getElem?_eq_some_iff.1 hsto).1
  have hget : ∀ i, (members.entries.set position member)[i]? =
      if position = i then some member else members.entries[i]? := by
    intro i
    by_cases hi : position = i
    · simp [← hi, hlt]
    · simp [hi]
  have hmem : ∀ a, a ∈ members.entries.set position member ↔
      some member = some a ∨ a ∈ members.entries ∧ a.sessionId ≠ member.sessionId := by
    intro a
    simp only [mem_iff_getElem?, hget]
    constructor
    · rintro ⟨i, hi⟩
      split at hi
      · exact .inl hi
      rename_i hne
      refine .inr ⟨⟨i, hi⟩, ?_⟩
      intro hsess
      exact hne (h.vec.key_injective hsto hi (hkey.trans hsess.symm))
    · rintro (ha | ⟨⟨i, hi⟩, hne⟩)
      · exact ⟨position, by rw [if_pos rfl, ha]⟩
      refine ⟨i, ?_⟩
      rw [if_neg, hi]
      rintro rfl
      rw [hsto] at hi
      exact hne (Option.some.inj hi ▸ hkey)
  have hval : Valid maxSessions { members with entries := members.entries.set position member } := by
    refine ⟨?_, ?_, h.capacity⟩
    · intro k i
      rw [h.synced]
      simp only [hget]
      by_cases hi : position = i
      · subst hi
        simp [hsto, hkey]
      · simp [hi]
    · intro k
      rw [h.sessions]
      simp only [hmem]
      constructor
      · rintro ⟨a, ha, rfl⟩
        by_cases hsess : a.sessionId = member.sessionId
        · exact ⟨member, .inl rfl, hsess.symm⟩
        · exact ⟨a, .inr ⟨ha, hsess⟩, rfl⟩
      · rintro ⟨a, ha | ha, rfl⟩
        · exact ⟨stored, mem_of_getElem? hsto, by rw [hkey, Option.some.inj ha]⟩
        · exact ⟨a, ha.1, rfl⟩
  refine ⟨_, ?_, hval, h.find_eq_update hval ?_ hmem, ?_⟩
  · rw [memberReplace, hsto]
    exact if_neg fun hne => hne hkey
  · rintro a ⟨⟩
    rfl
  · exact ne_nil_of_mem ((hmem member).2 (.inl rfl))

theorem Valid.store (hroom : members.find member.sessionId = none → members.sessionIds.members.card < maxSessions) :
    ∃ members', memberStore members member = .ok members' ∧ members'.Valid maxSessions ∧
      members'.find = update members.find member.sessionId (some member) ∧ members'.entries ≠ [] := by
  unfold memberStore
  cases hlook : members.index.lookup member.sessionId with
  | some position => exact h.replace hlook
  | none =>
    have hnew := h.find_eq_none_iff.2 hlook
    exact h.add hnew (hroom hnew)

/-- One of several members is taken out. -/
theorem Valid.take {sessionId : UInt64}
    (hlook : members.index.lookup sessionId = some position) (hmany : 1 < members.entries.length) :
    ∃ members', memberTake members sessionId position = .ok members' ∧ members'.Valid maxSessions ∧
      members'.find = update members.find sessionId none ∧ members'.entries ≠ [] := by
  obtain ⟨removed, hrm, rfl⟩ := (h.synced _ _).1 hlook
  have hlt := (List.getElem?_eq_some_iff.1 hrm).1
  obtain ⟨last, hlast⟩ : ∃ last, members.entries.getLast? = some last := by
    rw [← ne_none_iff_exists', Ne, List.getLast?_eq_none_iff]
    exact ne_nil_of_length_pos (by omega)
  have hmem : ∀ a, a ∈ members.entries.swapRemove position ↔ a ∈ members.entries ∧ a.sessionId ≠ removed.sessionId :=
    fun a => mem_swapRemove_iff h.vec.keys_nodup hrm
  have hlen := length_swapRemove hlt
  -- the result is the vector with its index after the removal
  obtain ⟨after, haft⟩ : ∃ after : Members, after = ⟨members.entries.swapRemove position,
    (h.vec.removeAt position removed last hrm hlast).index,
    bitmapIndexRemove members.sessionIds removed.sessionId⟩ := ⟨_, rfl⟩
  have htake : memberTake members removed.sessionId position = .ok after := by
    have hix : (h.vec.removeAt position removed last hrm hlast).index =
        if position + 1 < members.entries.length then
          put last.sessionId position (remove removed.sessionId members.index)
        else remove removed.sessionId members.index := rfl
    rw [memberTake, haft, hix, List.getElem?_swapRemove hlt, if_pos rfl]
    by_cases hend : position + 1 < members.entries.length
    · have hplc : members.entries[members.entries.length - 1]? = some last := by
        rw [← List.getLast?_eq_getElem?, hlast]
      have hne : last.sessionId ≠ removed.sessionId := by
        intro heq
        have hsame := h.vec.key_injective hplc hrm heq
        omega
      rw [if_pos hend, hlast, if_pos hend]
      dsimp only
      rw [lookup_remove_ne hne, (h.synced _ _).2 ⟨last, hplc, rfl⟩]
    · rw [if_neg hend, if_neg hend]
  have hval : after.Valid maxSessions := by
    subst haft
    refine ⟨(h.vec.removeAt position removed last hrm hlast).synced, ?_, h.capacity⟩
    intro k
    simp only [bitmapIndexRemove, Finset.mem_erase, h.sessions, hmem]
    constructor
    · rintro ⟨hk, a, ha, rfl⟩
      exact ⟨a, ⟨ha, hk⟩, rfl⟩
    · rintro ⟨a, ⟨ha, hk⟩, rfl⟩
      exact ⟨hk, a, ha, rfl⟩
  refine ⟨_, htake, hval, h.find_eq_update hval (fun a ha => nomatch ha) ?_, ?_⟩ <;> subst haft
  · intro a
    simp only [reduceCtorEq, false_or]
    exact hmem a
  · exact ne_nil_of_length_pos (by dsimp only; omega)

/-- Among sessions that are not all members there is room for another one. -/
theorem Valid.card_lt {sessions : Finset UInt64}
    (hkn : ∀ j, members.find j ≠ none → j ∈ sessions) (hk : k ∈ sessions) (hnew : members.find k = none) :
    members.sessionIds.members.card < sessions.card := by
  refine Finset.card_lt_card ⟨fun j hj => hkn j (h.mem_sessionIds.1 hj), ?_⟩
  intro hsub
  exact h.mem_sessionIds.1 (hsub hk) hnew

end Members

structure Entry.Valid (maxSessions : Nat) (entry : Entry) : Prop where
  members : entry.members.Valid maxSessions
  nonempty : entry.members.entries ≠ []
  shared : entry.shared = subscriptionIsShared entry.filter

namespace Selector

/-- The topic index with the filters and bindings of the entries. -/
def table (selector : Selector) : TopicTable :=
  ⟨selector.topics, fun slot =>
    (selector.entries.get slot).bind fun entry => entry.topicBinding.map (entry.filter, ·)⟩

def view (selector : Selector) : View := fun filter sessionId =>
  (selector.entries.value filter).bind (·.members.find sessionId)

/-- No entry came or changed its slot. -/
def Shrinks (selector selector' : Selector) : Prop :=
  ∀ slot entry', selector'.entries.get slot = some entry' →
    ∃ entry, selector.entries.get slot = some entry ∧ entry.filter = entry'.filter

/-- The indices of the selector are in step. -/
structure Valid [Vstr] (maxSessions : Nat) (selector : Selector) : Prop where
  entry : ∀ {slot entry}, selector.entries.get slot = some entry → entry.Valid maxSessions
  bound : ∀ {slot entry}, selector.entries.get slot = some entry → entry.topicBinding.isSome = true
  topics : selector.table.Valid

variable {selector : Selector} {filter : Bytes} {entry : Entry}

theorem view_of_value (h : selector.entries.value filter = some entry) : selector.view filter = entry.members.find := by
  funext sessionId
  rw [view, h]
  rfl

theorem view_of_none (h : selector.entries.value filter = none) : selector.view filter = fun _ => none := by
  funext sessionId
  rw [view, h]
  rfl

theorem view_eq_some_iff {k : UInt64} {member : Member} :
    selector.view filter k = some member ↔
      ∃ slot entry, selector.entries.get slot = some entry ∧ entry.filter = filter ∧ entry.members.find k = some member := by
  rw [view, bind_eq_some_iff]
  simp only [value_eq_some_iff]
  constructor
  · rintro ⟨entry, ⟨slot, hget, hfil⟩, hfind⟩
    exact ⟨slot, entry, hget, hfil, hfind⟩
  · rintro ⟨slot, entry, hget, hfil, hfind⟩
    exact ⟨entry, ⟨slot, hget, hfil⟩, hfind⟩

/-- What one changed entry does to the abstract selector. -/
theorem view_eq_update (selector selector' : Selector) {value : Option Entry}
    (h : selector'.entries.value = update selector.entries.value filter value) :
    selector'.view = update selector.view filter fun sessionId => value.bind (·.members.find sessionId) := by
  funext f sessionId
  rw [view, h, update_apply, update_apply]
  split <;> rfl

variable [Vstr] {selector : Selector} {maxSessions : Nat}

theorem valid_empty : empty.Valid maxSessions where
  entry h := nomatch h
  bound h := nomatch h
  topics := TopicTable.valid_init

variable {slot : Nat} {members : Members} {entries : SlotMap Entry.filter}

omit [Vstr] in
theorem get_setMembers (hget : entries.get slot = some entry) :
    (setMembers entries slot members).get = update entries.get slot (some (entry.withMembers members)) := by
  rw [setMembers, get_modifyAt, hget]
  rfl

variable {topics : TopicNode}

omit [Vstr] in
theorem view_setMembers (hget : entries.get slot = some entry) :
    view ⟨setMembers entries slot members, topics⟩ = update (view ⟨entries, topics⟩) entry.filter members.find := by
  have hvl : (setMembers entries slot members).value =
      update entries.value entry.filter (some (entry.withMembers members)) :=
    value_modifyAt hget (Entry.withMembers_filter members)
  exact view_eq_update ⟨entries, topics⟩ ⟨setMembers entries slot members, topics⟩ hvl

/-- New members in a slot leave the topic index alone. -/
theorem Valid.setMembers (h : selector.Valid maxSessions)
    (hget : selector.entries.get slot = some entry) (hmems : members.Valid maxSessions) (hne : members.entries ≠ []) :
    Valid maxSessions { selector with entries := Endpoint.setMembers selector.entries slot members } ∧
      selector.Shrinks { selector with entries := Endpoint.setMembers selector.entries slot members } := by
  have hbd := h.bound hget
  refine ⟨⟨?_, ?_, ?_⟩, ?_⟩
  · intro other entry' hget'
    rcases get_modifyAt_eq_some (Entry.withMembers_filter members) hget hget' with ⟨-, rfl⟩ | ⟨-, hold⟩
    · exact ⟨hmems, hne, (h.entry hget).shared⟩
    · exact h.entry hold
  · intro other entry' hget'
    rcases get_modifyAt_eq_some (Entry.withMembers_filter members) hget hget' with ⟨-, rfl⟩ | ⟨-, hold⟩
    · exact hbd
    · exact h.bound hold
  · have htable : table { selector with entries := Endpoint.setMembers selector.entries slot members } =
        selector.table := by
      rw [table, table, get_setMembers hget]
      congr 1
      funext other
      rw [update_apply]
      split
      · rename_i hoth
        rw [hoth, hget]
        rfl
      · rfl
    rw [htable]
    exact h.topics
  · intro other entry' hget'
    rcases get_modifyAt_eq_some (Entry.withMembers_filter members) hget hget' with ⟨rfl, rfl⟩ | ⟨-, hold⟩
    · exact ⟨entry, hget, rfl⟩
    · exact ⟨entry', hold, rfl⟩

omit [Vstr] in
theorem view_insert (hnew : entries.index.lookup entry.filter = none) :
    view ⟨entries.insert entry hnew, topics⟩ = update (view ⟨entries, topics⟩) entry.filter entry.members.find := by
  have hvl : (entries.insert entry hnew).value = update entries.value entry.filter (some entry) :=
    value_insert ..
  exact view_eq_update ⟨entries, topics⟩ ⟨entries.insert entry hnew, topics⟩ hvl

omit [Vstr] in
theorem get_rebindMoved (moved : Option Nat) (position : Nat) :
    (rebindMoved moved position entries).get slot =
      if moved = some slot then (entries.get slot).map (Entry.rebound position) else entries.get slot := by
  cases moved with
  | none => rfl
  | some other =>
    rw [rebindMoved, get_modifyAt, update_apply]
    simp only [Option.some.injEq, eq_comm]
    split
    · rename_i h
      rw [h]
    · rfl

omit [Vstr] in
/-- A new binding changes no member. -/
theorem view_rebindMoved (moved : Option Nat) (position : Nat)
    : view ⟨rebindMoved moved position entries, topics⟩ = view ⟨entries, topics⟩ := by
  cases moved with
  | none => rfl
  | some other =>
    cases hget : entries.get other with
    | none =>
      have hsame : (rebindMoved (some other) position entries).get = entries.get := by
        funext slot
        rw [get_rebindMoved]
        split
        · rename_i hslot
          rw [← Option.some.inj hslot, hget]
          rfl
        · rfl
      funext filter sessionId
      rw [view, view, SlotMap.value_congr hsame]
    | some entry =>
      have hvl : (rebindMoved (some other) position entries).value =
          Function.update entries.value entry.filter (some (entry.rebound position)) :=
        SlotMap.value_modifyAt hget Entry.rebound_filter
      rw [view_eq_update ⟨entries, topics⟩ ⟨rebindMoved (some other) position entries, topics⟩ hvl,
        Function.update_eq_self_iff, view_of_value (entries.value_eq_some_iff.2 ⟨other, hget, rfl⟩)]
      rfl

variable {binding : TopicBinding} (h : selector.Valid maxSessions)
include h

/-- A new entry goes into the next slot and is bound there. -/
theorem Valid.insert
    (hnew : selector.entries.index.lookup entry.filter = none) (hfil : topicFilterValidate entry.filter = true)
    (hins : topicIndexInsertBound selector.topics entry.filter selector.entries.nextSlot = .ok (topics, binding))
    (hbnd : entry.topicBinding = some binding) (hent : entry.Valid maxSessions) :
    Valid maxSessions ⟨selector.entries.insert entry hnew, topics⟩ := by
  refine ⟨?_, ?_, ?_⟩
  · intro slot entry' hget
    rcases get_insert_eq_some hnew hget with ⟨-, rfl⟩ | hold
    · exact hent
    · exact h.entry hold
  · intro slot entry' hget
    rcases get_insert_eq_some hnew hget with ⟨-, rfl⟩ | hold
    · rw [hbnd]
      rfl
    · exact h.bound hold
  · have hfree : selector.table.bound selector.entries.nextSlot = none := by
      simp [table, selector.entries.get_nextSlot]
    obtain ⟨table', hok, hval, -⟩ := h.topics.insert hfil hfree
    have htopics : topicIndexInsertBound selector.table.root entry.filter selector.entries.nextSlot =
      .ok (topics, binding) := hins
    rw [TopicTable.insert, htopics] at hok
    have htable : table ⟨selector.entries.insert entry hnew, topics⟩ = table' := by
      rw [← Except.ok.inj hok, table, get_insert]
      congr 1
      funext slot
      rw [update_apply, update_apply]
      split
      · simp [hbnd]
      · rfl
    rw [htable]
    exact hval

/-- An entry goes out of its slot and of the topic index, and the entry that moved there into its
    place is bound again. -/
theorem Valid.remove (hget : selector.entries.get slot = some entry) (hbnd : entry.topicBinding = some binding) :
    ∃ topics moved after, topicIndexRemove selector.topics binding slot = .ok (topics, moved) ∧
      (∀ other, moved = some other → (selector.entries.get other).isSome = true) ∧
      after = rebindMoved moved binding.position (selector.entries.removeAt slot entry hget) ∧
      Valid maxSessions ⟨after, topics⟩ ∧ view ⟨after, topics⟩ = update selector.view entry.filter (fun _ => none) ∧
      selector.Shrinks ⟨after, topics⟩ := by
  have hbd : selector.table.bound slot = some (entry.filter, binding) := by simp [table, hget, hbnd]
  obtain ⟨table', hok, hval, -⟩ := h.topics.remove hbd
  rw [TopicTable.remove, hbd] at hok
  dsimp only at hok
  cases hrem : topicIndexRemove selector.table.root binding slot with
  | error e =>
    rw [hrem] at hok
    cases hok
  | ok result =>
    obtain ⟨topics, moved⟩ := result
    rw [hrem] at hok
    obtain ⟨after, haft⟩ : ∃ after, after = rebindMoved moved binding.position
      (selector.entries.removeAt slot entry hget) := ⟨_, rfl⟩
    have hslots : ∀ other, after.get other = _ := fun other => by rw [haft, get_rebindMoved, get_removeAt]
    have hkept : ∀ {other entry'}, after.get other = some entry' → ∃ old, selector.entries.get other = some old ∧ (entry' = old ∨ entry' = old.rebound binding.position) := by
      intro other entry' hget'
      rw [hslots, update_apply] at hget'
      by_cases hoth : other = slot
      · simp [hoth] at hget'
      rw [if_neg hoth] at hget'
      split at hget'
      · obtain ⟨old, hold, rfl⟩ := Option.map_eq_some_iff.1 hget'
        exact ⟨old, hold, .inr rfl⟩
      · exact ⟨entry', hget', .inl rfl⟩
    refine ⟨topics, moved, after, hrem, ?_, haft, ⟨?_, ?_, ?_⟩, ?_, ?_⟩
    · rintro other rfl
      obtain ⟨-, hoth⟩ := h.topics.moved hbd hrem
      by_contra hnone
      rw [not_isSome_iff_eq_none] at hnone
      exact hoth (by simp [table, hnone])
    · intro other entry' hget'
      obtain ⟨old, hold, rfl | rfl⟩ := hkept hget'
      · exact h.entry hold
      · exact ⟨(h.entry hold).members, (h.entry hold).nonempty, (h.entry hold).shared⟩
    · intro other entry' hget'
      obtain ⟨old, hold, rfl | rfl⟩ := hkept hget'
      · exact h.bound hold
      · simpa [Entry.rebound] using h.bound hold
    · have htable : table ⟨after, topics⟩ = table' := by
        rw [← Except.ok.inj hok, table]
        congr 1
        funext other
        rw [hslots, update_apply, update_apply]
        by_cases hoth : other = slot
        · simp [hoth]
        rw [if_neg hoth, if_neg hoth]
        split
        · rw [table, map_bind, bind_map]
          congr 1
          funext old
          cases hold : old.topicBinding <;> simp [Entry.rebound, hold]
        · rfl
      rw [htable]
      exact hval
    · rw [haft, view_rebindMoved]
      have hvl : (selector.entries.removeAt slot entry hget).value =
          update selector.entries.value entry.filter none := value_removeAt ..
      exact view_eq_update selector ⟨selector.entries.removeAt slot entry hget, topics⟩ hvl
    · intro other entry' hget'
      obtain ⟨old, hold, rfl | rfl⟩ := hkept hget'
      · exact ⟨entry', hold, rfl⟩
      · exact ⟨old, hold, rfl⟩

end Selector

open Selector

section

variable [Vstr] {selector : Selector} {maxSessions : Nat} {filter : Bytes}

/-- An upsert is an update of the abstract selector. There is room for the member when all members
    of the filter and the new one are among the sessions. -/
theorem memberUpsert_spec (h : selector.Valid maxSessions) {member : Member}
    (hfil : topicFilterValidate filter = true) {sessions : Finset UInt64}
    (hkn : ∀ k, selector.view filter k ≠ none → k ∈ sessions) (hself : member.sessionId ∈ sessions)
    (hroom : sessions.card ≤ maxSessions) :
    ∃ selector', memberUpsert maxSessions selector filter member = .ok selector' ∧ selector'.Valid maxSessions ∧
      selector'.view = selector.view.put filter member := by
  unfold memberUpsert
  split
  next slot entry hfind =>
    obtain ⟨hget, rfl⟩ := selector.entries.find_eq_some_iff.1 hfind
    have hview := view_of_value (selector.entries.value_of_find hfind)
    have hmems := (h.entry hget).members
    rw [hview] at hkn
    obtain ⟨members, hstore, hval, hupdate, hne⟩ :=
      hmems.store fun hnew => Nat.lt_of_lt_of_le (hmems.card_lt hkn hself hnew) hroom
    refine ⟨_, by rw [hstore], (h.setMembers hget hval hne).1, ?_⟩
    rw [view_setMembers hget, View.put, hview, hupdate]
  next hfind =>
    have hvl : selector.entries.value filter = none := by rw [value, hfind]; rfl
    have hmax : maxSessions ≠ 0 := by
      have hpos := Finset.card_pos.2 ⟨_, hself⟩
      omega
    obtain ⟨created, hinit, hmk, hnil⟩ := Members.init_valid hmax
    have hnone : created.find member.sessionId = none := by rw [hnil]
    have hcard : created.sessionIds.members.card < sessions.card :=
      hmk.card_lt (fun k hk => absurd (congrFun hnil k) hk) hself hnone
    obtain ⟨members, hadd, hmems, hupdate, hne⟩ := hmk.add hnone (Nat.lt_of_lt_of_le hcard hroom)
    obtain ⟨topics, binding, hins, -⟩ :=
      topicIndexInsertBound_spec hfil selector.topics selector.entries.nextSlot
    have hent : Entry.Valid maxSessions ⟨filter, members, 0, some binding, subscriptionIsShared filter⟩ :=
      ⟨hmems, hne, rfl⟩
    refine ⟨_, ?_, h.insert (selector.entries.lookup_of_find hfind) hfil hins rfl hent, ?_⟩
    · rw [if_neg (by simpa using (topicFilterValidate_iff.1 hfil).1), hinit]
      dsimp only
      rw [hadd]
      rw [hins]
    · have hview : view ⟨selector.entries, topics⟩ = selector.view := rfl
      rw [view_insert, hview, View.put, view_of_none hvl, hupdate, hnil]

variable {sessionId : UInt64}

/-- A removal takes the pair out of the abstract selector; the entry goes with its last member. -/
theorem memberRemove_spec (h : selector.Valid maxSessions) :
    ∃ selector', memberRemove selector sessionId filter = .ok selector' ∧ selector'.Valid maxSessions ∧
      selector'.view = selector.view.drop filter sessionId ∧ selector.Shrinks selector' := by
  have hsame : selector.Shrinks selector := fun _ entry hget => ⟨entry, hget, rfl⟩
  unfold memberRemove
  split
  next hfind =>
    have hvl : selector.entries.value filter = none := by rw [value, hfind]; rfl
    refine ⟨selector, rfl, h, (View.drop_of_none ?_).symm, hsame⟩
    rw [view_of_none hvl]
  next slot entry hfind =>
    obtain ⟨hget, rfl⟩ := selector.entries.find_eq_some_iff.1 hfind
    have hview := view_of_value (selector.entries.value_of_find hfind)
    have hent := h.entry hget
    cases hlook : entry.members.index.lookup sessionId with
    | none =>
      refine ⟨selector, rfl, h, (View.drop_of_none ?_).symm, hsame⟩
      rw [hview, hent.members.find_eq_none_iff.2 hlook]
    | some position =>
      dsimp only
      split
      next hmany =>
        obtain ⟨members, htake, hval, hupdate, hne⟩ := hent.members.take hlook hmany
        obtain ⟨hval', hshrinks⟩ := h.setMembers hget hval hne
        refine ⟨_, by rw [htake], hval', ?_, hshrinks⟩
        rw [view_setMembers hget, View.drop, hview, hupdate]
      next hlast =>
        obtain ⟨binding, hbnd⟩ := Option.isSome_iff_exists.1 (h.bound hget)
        obtain ⟨topics, moved, _, hrem, hmvd, rfl, hval, hview', hshrinks⟩ := h.remove hget hbnd
        refine ⟨_, ?_, hval, ?_, hshrinks⟩
        · rw [hbnd]
          dsimp only
          rw [hrem]
          refine if_neg ?_
          rw [Bool.not_eq_true, Option.any_eq_false]
          intro other hoth
          simp [hmvd other hoth]
        · -- the session's member is the only one
          rw [hview', View.drop, hview]
          congr 1
          funext k
          rw [update_apply]
          split
          · rfl
          rename_i hk
          symm
          rw [eq_none_iff_forall_ne_some]
          intro a ha
          obtain ⟨hmem, hsess⟩ := hent.members.find_eq_some_iff.1 ha
          obtain ⟨b, hb, hself⟩ := (hent.members.synced _ _).1 hlook
          obtain ⟨m, hm⟩ := List.length_eq_one_iff.1
            (Nat.le_antisymm (Nat.le_of_not_lt hlast) (length_pos_of_mem hmem))
          have hbm := mem_of_getElem? hb
          rw [hm, mem_singleton] at hmem hbm
          exact hk (by rw [← hsess, ← hself, hmem, hbm])

/-- The loop over the slots: those it has passed hold the session no more. -/
structure Cleared (selector : Selector) (maxSessions : Nat) (sessionId : UInt64) (passed : List Nat)
    (state : Selector) : Prop where
  valid : state.Valid maxSessions
  shrinks : selector.Shrinks state
  others : ∀ filter k, k ≠ sessionId → state.view filter k = selector.view filter k
  gone : ∀ slot ∈ passed, ∀ entry, state.entries.get slot = some entry → state.view entry.filter sessionId = none

theorem Cleared.step {state : Selector} {passed : List Nat}
    (h : Cleared selector maxSessions sessionId passed state) (slot : Nat) :
    ∃ state', slotRemove sessionId state slot = .ok state' ∧
      Cleared selector maxSessions sessionId (passed ++ [slot]) state' := by
  have hkeep : (∀ entry, state.entries.get slot = some entry → state.view entry.filter sessionId = none) →
      Cleared selector maxSessions sessionId (passed ++ [slot]) state := by
    intro hnone
    refine ⟨h.valid, h.shrinks, h.others, ?_⟩
    intro other hoth entry hget
    rcases List.mem_append.1 hoth with hoth | hoth
    · exact h.gone other hoth entry hget
    · rw [List.mem_singleton.1 hoth] at hget
      exact hnone entry hget
  unfold slotRemove
  cases hget : state.entries.get slot with
  | none =>
    refine ⟨state, rfl, hkeep fun entry hent => ?_⟩
    rw [hget] at hent
    cases hent
  | some entry =>
    dsimp only
    split
    next hnone =>
      refine ⟨state, rfl, hkeep fun entry' hent' => ?_⟩
      obtain rfl := Option.mem_unique hget hent'
      rw [view_of_value (state.entries.value_eq_some_iff.2 ⟨slot, hget, rfl⟩)]
      exact (h.valid.entry hget).members.find_eq_none_iff.2 (Option.isNone_iff_eq_none.1 hnone)
    next =>
      obtain ⟨state', hrem, hval, hview, hshrinks⟩ := memberRemove_spec h.valid
      refine ⟨state', hrem, hval, ?_, ?_, ?_⟩
      · intro other entry' hget'
        obtain ⟨middle, hmiddle, hfil⟩ := hshrinks other entry' hget'
        obtain ⟨old, hold, hfil'⟩ := h.shrinks other middle hmiddle
        exact ⟨old, hold, hfil'.trans hfil⟩
      · intro filter k hk
        rw [hview, View.drop_apply, if_neg fun hpair => hk hpair.2]
        exact h.others filter k hk
      · intro other hoth entry' hget'
        rw [hview, View.drop_apply]
        split
        · rfl
        rename_i hpair
        obtain ⟨old, hold, hfil⟩ := hshrinks other entry' hget'
        rcases List.mem_append.1 hoth with hoth | hoth
        · rw [← hfil]
          exact h.gone other hoth old hold
        rw [List.mem_singleton.1 hoth] at hold
        obtain rfl := Option.mem_unique hget hold
        exact absurd ⟨hfil.symm, rfl⟩ hpair

theorem sessionRemove_spec (h : selector.Valid maxSessions) :
    ∃ selector', sessionRemove selector sessionId = .ok selector' ∧ selector'.Valid maxSessions ∧
      selector'.view = fun filter k => if k = sessionId then none else selector.view filter k := by
  have hinit : Cleared selector maxSessions sessionId [] selector :=
    ⟨h, fun _ entry hget => ⟨entry, hget, rfl⟩, fun _ _ _ => rfl, fun slot hslot => nomatch hslot⟩
  obtain ⟨selector', hloop, hcleared⟩ : ∃ selector', sessionRemove selector sessionId = .ok selector' ∧
      Cleared selector maxSessions sessionId (List.range selector.entries.slots.length) selector' :=
    Run.foldlM_invariant hinit fun _ slot _ _ _ hst => hst.step slot
  refine ⟨selector', hloop, hcleared.valid, ?_⟩
  funext filter k
  split
  · rename_i hk
    subst hk
    cases hvl : selector'.entries.value filter with
    | none => rw [view_of_none hvl]
    | some entry =>
      obtain ⟨slot, hget, rfl⟩ := selector'.entries.value_eq_some_iff.1 hvl
      obtain ⟨old, hold, -⟩ := hcleared.shrinks slot entry hget
      exact hcleared.gone slot (List.mem_range.2 (lt_of_get hold)) entry hget
  · rename_i hk
    exact hcleared.others filter k hk

end

end Flowie.Endpoint
