import Flowie.Lib.AssocList
import Flowie.Lib.SwapRemove
import Flowie.Mqtt.Topic

/-!
# The topic index

The trie of `flowie_topic_index.c`. A node keeps its exact children by token, one child for
`+`, the entries of the filters that end in it and those of the filters that end in `#` below
it. A node is addressed by the edges that lead to it from the root, so the vector of nodes,
the parent pointers and the slots of the source, which only serve allocation, are left out.
The hash map of children is an association list.

The functions scan a filter or a topic level by level; here they recurse on its `levels`.
A visitor is called on the entries in the order of the lists returned here.
-/

namespace Flowie

open Mqtt

structure TopicNode where
  exactChildren : List (Bytes × TopicNode)
  plusChild : Option TopicNode
  terminalEntries : List Nat
  hashEntries : List Nat

inductive TopicBucket where
  | terminal | hash
deriving DecidableEq, Repr

/-- `flowie_topic_index_binding_t`: where an entry is stored. `node` lists the edges from the
    root, `none` for the `+` edge; an unbound entry has no binding. -/
structure TopicBinding where
  node : List (Option Bytes)
  position : Nat
  bucket : TopicBucket
deriving DecidableEq, Repr

namespace TopicNode

/-- A node as `flowie_topic_node_create` makes it; also the root of an initialised index. -/
def empty : TopicNode := ⟨[], none, [], []⟩

def child (node : TopicNode) : Option Bytes → Option TopicNode
  | none => node.plusChild
  | some token => node.exactChildren.lookup token

/-- Attach `next` along an edge. -/
def setChild (node : TopicNode) (edge : Option Bytes) (next : TopicNode) : TopicNode :=
  match edge with
  | none => { node with plusChild := some next }
  | some token => { node with exactChildren := AssocList.put token next node.exactChildren }

def dropChild (node : TopicNode) (edge : Option Bytes) : TopicNode :=
  match edge with
  | none => { node with plusChild := none }
  | some token => { node with exactChildren := AssocList.remove token node.exactChildren }

/-- `flowie_topic_node_empty`. -/
def isEmpty (node : TopicNode) : Bool :=
  node.plusChild.isNone && node.exactChildren.isEmpty && node.terminalEntries.isEmpty &&
    node.hashEntries.isEmpty

def entries (node : TopicNode) : TopicBucket → List Nat
  | .terminal => node.terminalEntries
  | .hash => node.hashEntries

def setEntries (node : TopicNode) (bucket : TopicBucket) (es : List Nat) : TopicNode :=
  match bucket with
  | .terminal => { node with terminalEntries := es }
  | .hash => { node with hashEntries := es }

end TopicNode

/-- `flowie_topic_filter_inner`: the part of a filter behind `$share/<group>/`. -/
def topicFilterInner (filter : Bytes) : Bytes :=
  if filter.length ≤ sharePrefix.length || !sharePrefix.isPrefixOf filter then filter
  else ((filter.drop sharePrefix.length).dropWhile (· != slash)).tail

def tokenEdge (token : Bytes) : Option Bytes := if token = [plus] then none else some token

namespace TopicNode

/-- The loop of `flowie_topic_index_insert_bound`. -/
def insertLevels : TopicNode → List Bytes → Nat → Except Errno (TopicNode × TopicBinding)
  | _, [], _ => .error .eproto
  | node, token :: rest, entryIndex =>
    if token = [hash] then
      if rest.isEmpty then
        .ok (node.setEntries .hash (node.hashEntries ++ [entryIndex]), ⟨[], node.hashEntries.length, .hash⟩)
      else .error .eproto
    else
      let next := (node.child (tokenEdge token)).getD empty
      if rest.isEmpty then
        .ok (node.setChild (tokenEdge token) (next.setEntries .terminal (next.terminalEntries ++ [entryIndex])),
          ⟨[tokenEdge token], next.terminalEntries.length, .terminal⟩)
      else
        match insertLevels next rest entryIndex with
        | .error e => .error e
        | .ok (next', binding) =>
          .ok (node.setChild (tokenEdge token) next', { binding with node := tokenEdge token :: binding.node })

/-- `flowie_topic_index_remove` below a node: the edges left to the node of the binding, and the
    entry that moved into the gap. On the way back `flowie_topic_index_prune` drops the child that
    became empty. A binding names a node that exists. -/
def removeAt (entryIndex position : Nat) (bucket : TopicBucket) :
    TopicNode → List (Option Bytes) → Except Errno (TopicNode × Option Nat)
  | node, [] =>
    let stored := node.entries bucket
    if stored[position]? ≠ some entryIndex then .error .eproto
    else
      .ok (node.setEntries bucket (stored.swapRemove position),
        stored.swapMoved position)
  | node, edge :: path =>
    match node.child edge with
    | none => .error .eproto
    | some next =>
      match removeAt entryIndex position bucket next path with
      | .error e => .error e
      | .ok (next', moved) =>
        .ok (if next'.isEmpty then node.dropChild edge else node.setChild edge next', moved)

/-- `flowie_topic_node_visit_end`. -/
def visitEnd (node : TopicNode) : List Nat := node.terminalEntries ++ node.hashEntries

/-- Go on below a child: `visitEnd` after the last level, else `visit`. -/
def descend (rest : List Bytes) (visit : TopicNode → List Nat) : Option TopicNode → List Nat
  | none => []
  | some next => if rest.isEmpty then next.visitEnd else visit next

/-- `flowie_topic_index_visit_topic_node`; `system` is its test on the first level. -/
def visitTopicNode : TopicNode → Bool → List Bytes → List Nat
  | _, _, [] => []
  | node, system, token :: rest =>
    (if system then [] else node.hashEntries) ++
      (descend rest (fun next => visitTopicNode next false rest) (node.exactChildren.lookup token) ++
      (if system then [] else descend rest (fun next => visitTopicNode next false rest) node.plusChild))

/-- The loop of `flowie_topic_index_match` over the levels: the nodes reached so far take the
    next level together. -/
def matchNodes : List TopicNode → Bool → List Bytes → List Nat
  | _, _, [] => []
  | active, system, token :: rest =>
    let next := active.flatMap fun node =>
      (if system then [] else node.plusChild.toList) ++ (node.exactChildren.lookup token).toList
    (active.flatMap fun node => if system then [] else node.hashEntries) ++
      if rest.isEmpty then next.flatMap visitEnd
      else if next.isEmpty then []
      else matchNodes next false rest

/-- `flowie_topic_index_visit_containing_node`. -/
def visitContainingNode : TopicNode → Bool → List Bytes → List Nat
  | _, _, [] => []
  | node, firstLevel, token :: rest =>
    let requestedSystem := firstLevel && sysLevel token
    (if requestedSystem then [] else node.hashEntries) ++
      if token = [hash] then []
      else
        (if token = [plus] then []
          else descend rest (fun next => visitContainingNode next false rest) (node.exactChildren.lookup token)) ++
        (if requestedSystem then []
          else descend rest (fun next => visitContainingNode next false rest) node.plusChild)

end TopicNode

/-- `flowie_topic_index_insert_bound` on the root of the index. -/
def topicIndexInsertBound (root : TopicNode) (filter : Bytes) (entryIndex : Nat) :
    Except Errno (TopicNode × TopicBinding) :=
  if filter.isEmpty then .error .einval
  else if (topicFilterInner filter).isEmpty then .error .eproto
  else root.insertLevels (levels (topicFilterInner filter)) entryIndex

/-- `flowie_topic_index_remove` on the root of the index; an unbound entry has no binding to call
    it with. -/
def topicIndexRemove (root : TopicNode) (binding : TopicBinding) (entryIndex : Nat) :
    Except Errno (TopicNode × Option Nat) :=
  root.removeAt entryIndex binding.position binding.bucket binding.node

/-- `flowie_topic_index_match`. -/
def topicIndexMatch (root : TopicNode) (topic : Bytes) : Except Errno (List Nat) :=
  if topic.isEmpty then .error .einval
  else .ok (TopicNode.matchNodes [root] (topic.head? == some dollar) (levels topic))

/-- `flowie_topic_index_visit_validated_topic`. -/
def topicIndexVisitValidatedTopic (root : TopicNode) (topic : Bytes) : Except Errno (List Nat) :=
  if topic.isEmpty then .error .einval
  else .ok (root.visitTopicNode (topic.head? == some dollar) (levels topic))

section

variable [Vstr]

/-- `flowie_topic_index_visit_topic`. -/
def topicIndexVisitTopic (root : TopicNode) (topic : Bytes) : Except Errno (List Nat) :=
  if !topicNameValidate topic then .error .einval else topicIndexVisitValidatedTopic root topic

end

/-- `flowie_topic_index_visit_validated_containing_filters`. -/
def topicIndexVisitValidatedContainingFilters (root : TopicNode) (requestedFilter : Bytes) :
    Except Errno (List Nat) :=
  if requestedFilter.isEmpty || (topicFilterInner requestedFilter).isEmpty then .error .einval
  else .ok (root.visitContainingNode true (levels (topicFilterInner requestedFilter)))

section

variable [Vstr]

/-- `flowie_topic_index_visit_containing_filters`. -/
def topicIndexVisitContainingFilters (root : TopicNode) (requestedFilter : Bytes) : Except Errno (List Nat) :=
  if !topicFilterValidate requestedFilter then .error .einval
  else topicIndexVisitValidatedContainingFilters root requestedFilter

end

end Flowie
