import Flowie.BitmapIndex
import Flowie.Lib.SlotMap
import Flowie.Session.Owner
import Flowie.TopicIndex

/-!
# The subscription selector

The derived index of `flowie_endpoint.c` over the subscriptions of all sessions. There is an entry
for every filter, with a member for every session that subscribes to it, and the entries are bound
in the topic index. The vector of entries, the free slots and the index by filter are one `SlotMap`.

A session is named by its identifier, which is also what a member's session pointer stands for.
An operation that fails leaves the selector to be rebuilt by its caller, so what it had changed by
then is not kept. Allocation succeeds.
-/

namespace Flowie.Endpoint

open Mqtt Session

/-- `flowie_subscription_member_t`. -/
structure Member where
  sessionId : UInt64
  qos : UInt8
  noLocal : Bool
  retainAsPublished : Bool
  subscriptionIdentifier : UInt32
deriving DecidableEq, Repr

def memberOf (sessionId : UInt64) (subscription : Subscription) : Member :=
  ⟨sessionId, subscription.qos, subscription.noLocal, subscription.retainAsPublished,
    subscription.subscriptionIdentifier⟩

/-- The members of an entry, the place of every session among them, and the set of the sessions. -/
structure Members where
  entries : List Member
  index : List (UInt64 × Nat)
  sessionIds : BitmapIndex

/-- `flowie_subscription_entry_t`; a slot that is not active has no entry. -/
structure Entry where
  filter : Bytes
  members : Members
  cursor : UInt64
  topicBinding : Option TopicBinding
  shared : Bool

/-- `subscription_index`, `subscription_free_slots` and `subscription_filter_index` with the topic
    index over the entries. -/
structure Selector where
  entries : SlotMap Entry.filter
  topics : TopicNode

def Selector.empty : Selector := ⟨.empty, .empty⟩

/-- `flowie_subscription_is_shared`. -/
def subscriptionIsShared (filter : Bytes) : Bool :=
  decide (sharePrefix.length < filter.length) && sharePrefix.isPrefixOf filter

def membersInit (maxMembers : Nat) : Except Errno Members :=
  match bitmapIndexCreate maxMembers with
  | .error e => .error e
  | .ok sessionIds => .ok ⟨[], [], sessionIds⟩

variable (members : Members)

/-- `flowie_subscription_member_add`: the member is taken back when the bitmap has no room. -/
def memberAdd (member : Member) : Except Errno Members :=
  match bitmapIndexAdd members.sessionIds member.sessionId with
  | .error e => .error e
  | .ok sessionIds =>
    .ok ⟨members.entries ++ [member], AssocList.put member.sessionId members.entries.length members.index, sessionIds⟩

def memberReplace (member : Member) (position : Nat) : Except Errno Members :=
  match members.entries[position]? with
  | none => .error .eproto
  | some stored =>
    if stored.sessionId ≠ member.sessionId then .error .eproto
    else .ok { members with entries := members.entries.set position member }

/-- `flowie_subscription_member_upsert` in an entry that is there. -/
def memberStore (member : Member) : Except Errno Members :=
  match members.index.lookup member.sessionId with
  | some position => memberReplace members member position
  | none => memberAdd members member

/-- The part of `flowie_subscription_member_remove` that takes one of several members out: the last
    one moves into the gap and its index entry follows. -/
def memberTake (sessionId : UInt64) (position : Nat) : Except Errno Members :=
  let entries := members.entries.swapRemove position
  let index := AssocList.remove sessionId members.index
  let sessionIds := bitmapIndexRemove members.sessionIds sessionId
  match entries[position]? with
  | none => .ok ⟨entries, index, sessionIds⟩
  | some moved =>
    match index.lookup moved.sessionId with
    | none => .error .eproto
    | some _ => .ok ⟨entries, AssocList.put moved.sessionId position index, sessionIds⟩

def Entry.withMembers (entry : Entry) : Entry := { entry with members := members }

theorem Entry.withMembers_filter (entry : Entry) : (entry.withMembers members).filter = entry.filter := rfl

def setMembers (entries : SlotMap Entry.filter) (slot : Nat) (members : Members) : SlotMap Entry.filter :=
  entries.modifyAt slot (Entry.withMembers members) (Entry.withMembers_filter members)

/-- `flowie_subscription_member_upsert` on a valid index. -/
def memberUpsert (maxSessions : Nat) (selector : Selector) (filter : Bytes) (member : Member) :
    Except Errno Selector :=
  match hfind : selector.entries.find filter with
  | some (slot, entry) =>
    match memberStore entry.members member with
    | .error e => .error e
    | .ok members => .ok { selector with entries := setMembers selector.entries slot members }
  | none =>
    if filter.isEmpty then .error .einval
    else
      match membersInit maxSessions with
      | .error e => .error e
      | .ok created =>
        match memberAdd created member with
        | .error e => .error e
        | .ok members =>
          match topicIndexInsertBound selector.topics filter selector.entries.nextSlot with
          | .error e => .error e
          | .ok (topics, binding) =>
            let entry : Entry := ⟨filter, members, 0, some binding, subscriptionIsShared filter⟩
            .ok ⟨selector.entries.insert entry (selector.entries.lookup_of_find hfind), topics⟩

def Entry.rebound (position : Nat) (entry : Entry) : Entry :=
  { entry with topicBinding := entry.topicBinding.map fun binding => { binding with position := position } }

theorem Entry.rebound_filter {position : Nat} (entry : Entry) : (entry.rebound position).filter = entry.filter := rfl

/-- The entry that moved into the position of a removed one is bound there. -/
def rebindMoved (moved : Option Nat) (position : Nat) (entries : SlotMap Entry.filter) : SlotMap Entry.filter :=
  match moved with
  | none => entries
  | some other => entries.modifyAt other (Entry.rebound position) Entry.rebound_filter

/-- `flowie_subscription_member_remove` on a valid index: the entry goes with its last member. -/
def memberRemove (selector : Selector) (sessionId : UInt64) (filter : Bytes) : Except Errno Selector :=
  match hfind : selector.entries.find filter with
  | none => .ok selector
  | some (slot, entry) =>
    match entry.members.index.lookup sessionId with
    | none => .ok selector
    | some position =>
      if 1 < entry.members.entries.length then
        match memberTake entry.members sessionId position with
        | .error e => .error e
        | .ok members => .ok { selector with entries := setMembers selector.entries slot members }
      else
        match entry.topicBinding with
        | none => .error .einval
        | some binding =>
          match topicIndexRemove selector.topics binding slot with
          | .error e => .error e
          | .ok (topics, moved) =>
            if moved.any fun other => (selector.entries.get other).isNone then .error .eproto
            else
              let left := selector.entries.removeAt slot entry (selector.entries.find_eq_some_iff.1 hfind).1
              .ok ⟨rebindMoved moved binding.position left, topics⟩

/-- One slot in the loop of `flowie_subscription_session_remove`. -/
def slotRemove (sessionId : UInt64) (selector : Selector) (slot : Nat) : Except Errno Selector :=
  match selector.entries.get slot with
  | none => .ok selector
  | some entry =>
    if (entry.members.index.lookup sessionId).isNone then .ok selector
    else memberRemove selector sessionId entry.filter

/-- `flowie_subscription_session_remove` on a valid index. -/
def sessionRemove (selector : Selector) (sessionId : UInt64) : Except Errno Selector :=
  (List.range selector.entries.slots.length).foldlM (slotRemove sessionId) selector

/-- The inner loop of `flowie_subscription_index_rebuild`: a new entry takes the cursor of the old
    entry of its filter and is bound later. -/
def rebuildMember (old : Selector) (maxSessions : Nat) (sessionId : UInt64) (staged : SlotMap Entry.filter)
    (subscription : Subscription) : Except Errno (SlotMap Entry.filter) :=
  match hfind : staged.find subscription.filter with
  | some (slot, entry) =>
    match memberAdd entry.members (memberOf sessionId subscription) with
    | .error e => .error e
    | .ok members => .ok (setMembers staged slot members)
  | none =>
    match membersInit maxSessions with
    | .error e => .error e
    | .ok created =>
      match memberAdd created (memberOf sessionId subscription) with
      | .error e => .error e
      | .ok members =>
        let cursor := (old.entries.find subscription.filter).elim 0 (·.2.cursor)
        let entry : Entry :=
          ⟨subscription.filter, members, cursor, none, subscriptionIsShared subscription.filter⟩
        .ok (staged.insert entry (staged.lookup_of_find hfind))

/-- The outer loop of `flowie_subscription_index_rebuild`. -/
def rebuildSession (old : Selector) (maxSessions : Nat) (staged : SlotMap Entry.filter) (owner : Owner) :
    Except Errno (SlotMap Entry.filter) :=
  owner.subscriptions.foldlM (rebuildMember old maxSessions owner.config.sessionId) staged

def Entry.withBinding (binding : TopicBinding) (entry : Entry) : Entry := { entry with topicBinding := some binding }

theorem Entry.withBinding_filter {binding : TopicBinding} (entry : Entry) :
    (entry.withBinding binding).filter = entry.filter := rfl

def setBinding (entries : SlotMap Entry.filter) (slot : Nat) (binding : TopicBinding) : SlotMap Entry.filter :=
  entries.modifyAt slot (Entry.withBinding binding) Entry.withBinding_filter

/-- One entry in the last loop of `flowie_subscription_index_rebuild`. -/
def rebuildBind (staged : Selector) (slot : Nat) : Except Errno Selector :=
  match staged.entries.get slot with
  | none => .error .eproto
  | some entry =>
    match topicIndexInsertBound staged.topics entry.filter slot with
    | .error e => .error e
    | .ok (topics, binding) =>
      .ok ⟨setBinding staged.entries slot binding, topics⟩

/-- `flowie_subscription_index_rebuild` from the sessions in their order. -/
def indexRebuild (old : Selector) (maxSessions : Nat) (owners : List Owner) : Except Errno Selector :=
  match owners.foldlM (rebuildSession old maxSessions) .empty with
  | .error e => .error e
  | .ok staged => (List.range staged.slots.length).foldlM rebuildBind ⟨staged, .empty⟩

end Flowie.Endpoint
