import Flowie.Endpoint.Selector
import Flowie.Mqtt.TopicMatch

/-!
# Fan-out selection

`flowie_fanout_select` finds the sessions a PUBLISH goes to. The members of the matching ordinary
entries are merged into one target for each session; of a matching shared entry one member is
taken, in turn. The functions return the selector with its cursors moved on.
-/

namespace Flowie.Endpoint

open Mqtt Session

/-- `flowie_pattern_selection_t`. -/
inductive Selection where
  | fanOut | roundRobin
deriving DecidableEq, Repr

/-- `flowie_pattern_selection_iterator_t`. -/
structure SelectionIterator where
  candidateCount : Nat
  nextOffset : Nat
  remaining : Nat
deriving DecidableEq, Repr

/-- `flowie_pattern_selection_begin` on the cursor of a selector: the cursor after it and the
    iterator. -/
def patternSelectionBegin (cursor : UInt64) (selection : Selection) (candidateCount : Nat) :
    Except Errno (UInt64 × SelectionIterator) :=
  if candidateCount = 0 then .error .enoent
  else
    match selection with
    | .fanOut => .ok (cursor, ⟨candidateCount, 0, candidateCount⟩)
    | .roundRobin => .ok (cursor + 1, ⟨candidateCount, cursor.toNat % candidateCount, candidateCount⟩)

/-- `flowie_pattern_selection_next`. -/
def patternSelectionNext (iterator : SelectionIterator) : Except Errno (Nat × SelectionIterator) :=
  if iterator.candidateCount = 0 ∨ iterator.remaining > iterator.candidateCount ∨
      iterator.nextOffset ≥ iterator.candidateCount then .error .einval
  else if iterator.remaining = 0 then .error .enoent
  else
    let next := if iterator.nextOffset + 1 = iterator.candidateCount then 0 else iterator.nextOffset + 1
    .ok (iterator.nextOffset, { iterator with nextOffset := next, remaining := iterator.remaining - 1 })

/-- The candidates the iterator hands out, at most `fuel` of them. -/
def SelectionIterator.handsOut : Nat → SelectionIterator → List Nat
  | 0, _ => []
  | fuel + 1, iterator =>
    match patternSelectionNext iterator with
    | .error _ => []
    | .ok (candidate, iterator) => candidate :: handsOut fuel iterator

def SelectionIterator.candidates (iterator : SelectionIterator) : List Nat :=
  iterator.handsOut iterator.remaining

/-- `flowie_fanout_target_t`. -/
structure Target where
  sessionId : UInt64
  qos : UInt8
  retainAsPublished : Bool
  subscriptionIdentifiers : List UInt32
deriving DecidableEq, Repr

/-- `flowie_fanout_target_identifier_add`. -/
def identifierAdd (identifiers : List UInt32) (identifier : UInt32) : List UInt32 :=
  if identifier = 0 then identifiers
  else if identifiers.contains identifier then identifiers
  else identifiers ++ [identifier]

def targetOf (member : Member) : Target :=
  ⟨member.sessionId, member.qos, member.retainAsPublished, identifierAdd [] member.subscriptionIdentifier⟩

def Target.merge (target : Target) (member : Member) : Target :=
  { target with
    qos := if member.qos > target.qos then member.qos else target.qos
    retainAsPublished := if member.retainAsPublished then true else target.retainAsPublished
    subscriptionIdentifiers := identifierAdd target.subscriptionIdentifiers member.subscriptionIdentifier }

/-- The targets with `normal_selected` and `target_index`, which know the merged ones. -/
structure FanOut where
  targets : List Target
  selected : BitmapIndex
  targetIndex : List (UInt64 × Nat)

/-- `flowie_fanout_target_add` with `merge`: a new target is taken back when the bitmap has no
    room. -/
def targetMerge (state : FanOut) (member : Member) : Except Errno FanOut :=
  if bitmapIndexContains state.selected member.sessionId then
    match state.targetIndex.lookup member.sessionId with
    | none => .error .eproto
    | some place =>
      match state.targets[place]? with
      | none => .error .eproto
      | some existing =>
        if existing.sessionId ≠ member.sessionId then .error .eproto
        else .ok { state with targets := state.targets.set place (existing.merge member) }
  else
    match bitmapIndexAdd state.selected member.sessionId with
    | .error e => .error e
    | .ok selected =>
      .ok
        { targets := state.targets ++ [targetOf member]
          selected := selected
          targetIndex := AssocList.put member.sessionId state.targets.length state.targetIndex }

/-- `flowie_fanout_target_add` without `merge`. -/
def targetPush (state : FanOut) (member : Member) : FanOut :=
  { state with targets := state.targets ++ [targetOf member] }

/-- A member that does not get what its own session publishes. -/
def Member.excluded (member : Member) (publisherSessionId : UInt64) : Bool :=
  member.noLocal && member.sessionId == publisherSessionId

/-- One member in the loop over an ordinary entry. -/
def selectMember (members : Members) (publisherSessionId : UInt64) (state : FanOut) (place : Nat) :
    Except Errno FanOut :=
  match members.entries[place]? with
  | none => .error .eproto
  | some member =>
    if !bitmapIndexContains members.sessionIds member.sessionId then .error .eproto
    else if member.excluded publisherSessionId then .ok state
    else targetMerge state member

def selectOrdinary (entry : Entry) (publisherSessionId : UInt64) (state : FanOut) : Except Errno FanOut :=
  match patternSelectionBegin entry.cursor .fanOut entry.members.entries.length with
  | .error .enoent => .ok state
  | .error e => .error e
  | .ok (_, iterator) => iterator.candidates.foldlM (selectMember entry.members publisherSessionId) state

/-- `flowie_session_owner_route` of the session of a member. -/
def sessionRoute (owners : List Owner) (sessionId : UInt64) : Except Errno Route :=
  match owners.find? (·.config.sessionId == sessionId) with
  | none => .error .einval
  | some owner => ownerRoute owner

/-- The loop over a shared entry: the first candidate in rank order that is not excluded and whose
    session is active. -/
def sharedCandidate (owners : List Owner) (members : Members) (publisherSessionId : UInt64) :
    List Nat → Except Errno (Option Member)
  | [] => .ok none
  | rank :: rest =>
    match bitmapIndexSelect members.sessionIds rank with
    | .error _ => .error .eproto
    | .ok sessionId =>
      match (members.index.lookup sessionId).bind (members.entries[·]?) with
      | none => .error .eproto
      | some member =>
        if member.sessionId ≠ sessionId then .error .eproto
        else if member.excluded publisherSessionId then sharedCandidate owners members publisherSessionId rest
        else
          match sessionRoute owners member.sessionId with
          | .error _ => sharedCandidate owners members publisherSessionId rest
          | .ok _ => .ok (some member)

/-- A member of a matching shared entry, with the cursor of the entry after it. -/
def selectShared (owners : List Owner) (entry : Entry) (publisherSessionId : UInt64) (state : FanOut) :
    Except Errno (UInt64 × FanOut) :=
  if bitmapIndexCount entry.members.sessionIds = 0 then .ok (entry.cursor, state)
  else
    match patternSelectionBegin entry.cursor .roundRobin (bitmapIndexCount entry.members.sessionIds) with
    | .error e => .error e
    | .ok (cursor, iterator) =>
      match sharedCandidate owners entry.members publisherSessionId iterator.candidates with
      | .error e => .error e
      | .ok none => .ok (cursor, state)
      | .ok (some member) => .ok (cursor, targetPush state member)

def Entry.withCursor (cursor : UInt64) (entry : Entry) : Entry := { entry with cursor := cursor }

theorem Entry.withCursor_filter (cursor : UInt64) (entry : Entry) : (entry.withCursor cursor).filter = entry.filter := rfl

def setCursor (entries : SlotMap Entry.filter) (slot : Nat) (cursor : UInt64) : SlotMap Entry.filter :=
  entries.modifyAt slot (Entry.withCursor cursor) (Entry.withCursor_filter cursor)

section

variable [Vstr]

/-- One matched entry in the loop of `flowie_fanout_select`. -/
def selectEntry (owners : List Owner) (publisherSessionId : UInt64) (topic : Bytes) (acc : Selector × FanOut)
    (slot : Nat) : Except Errno (Selector × FanOut) :=
  match acc.1.entries.get slot with
  | none => .error .eproto
  | some entry =>
    match topicMatches entry.filter topic with
    | .error _ => .error .eproto
    | .ok false => .ok acc
    | .ok true =>
      if !entry.shared then
        match selectOrdinary entry publisherSessionId acc.2 with
        | .error e => .error e
        | .ok state => .ok (acc.1, state)
      else
        match selectShared owners entry publisherSessionId acc.2 with
        | .error e => .error e
        | .ok (cursor, state) => .ok ({ acc.1 with entries := setCursor acc.1.entries slot cursor }, state)

/-- `flowie_fanout_select` on a valid index. -/
def fanoutSelect (owners : List Owner) (maxSessions : Nat) (selector : Selector) (publisherSessionId : UInt64)
    (topic : Bytes) : Except Errno (Selector × List Target) :=
  if topic.isEmpty then .error .einval
  else
    match bitmapIndexCreate maxSessions with
    | .error e => .error e
    | .ok selected =>
      match topicIndexMatch selector.topics topic with
      | .error e => .error e
      | .ok matched =>
        match matched.foldlM (selectEntry owners publisherSessionId topic) (selector, ⟨[], selected, []⟩) with
        | .error e => .error e
        | .ok (selector, state) =>
          if bitmapIndexCount state.selected ≠ state.targetIndex.length then .error .eproto
          else .ok (selector, state.targets)

end

end Flowie.Endpoint
