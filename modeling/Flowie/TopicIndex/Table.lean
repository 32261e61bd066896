import Flowie.Lib.Run
import Flowie.Mqtt.TopicMatch
import Flowie.TopicIndex.Match

/-!
# The topic index as a table of filters

A caller of the topic index keeps for every entry its filter and its binding. `TopicTable` is the
index together with what the caller keeps, `Call` a call of the caller. The abstract table is the
map from entries to filters. The index refines it: the queries find the entries whose filter
matches, each once, and a containing query only entries whose filter matches whatever the request
matches.

Entries are named by their index, also in the report of the entry that moved, so an index is
inserted only while it is free. `FLOWIE_TOPIC_INDEX_NO_ENTRY` is `none`, not an entry.
-/

namespace Flowie

open Function (update update_eq_self_iff update_of_ne update_self)
open Mqtt

/-- The index and the caller's filter and binding of every entry. -/
structure TopicTable where
  root : TopicNode
  bound : Nat → Option (Bytes × TopicBinding)

inductive TopicTable.Call where
  | insert (filter : Bytes) (entryIndex : Nat)
  | remove (entryIndex : Nat)

namespace TopicTable

def init : TopicTable := ⟨.empty, fun _ => none⟩

variable (table : TopicTable)

def bindings (i : Nat) : Option TopicBinding := (table.bound i).map (·.2)

def filters (i : Nat) : Option Bytes := (table.bound i).map (·.1)

/-- `flowie_topic_index_insert_bound`, with the binding kept. -/
def insert (filter : Bytes) (entryIndex : Nat) : Except Errno TopicTable :=
  match topicIndexInsertBound table.root filter entryIndex with
  | .error e => .error e
  | .ok (root, binding) => .ok ⟨root, Function.update table.bound entryIndex (some (filter, binding))⟩

/-- `flowie_topic_index_remove`, which clears the binding of the entry, and the caller's correction
    of the entry that moved into its position. An entry that is not bound is refused. -/
def remove (entryIndex : Nat) : Except Errno TopicTable :=
  match table.bound entryIndex with
  | none => .error .einval
  | some (_, binding) =>
    match topicIndexRemove table.root binding entryIndex with
    | .error e => .error e
    | .ok (root, moved) =>
      .ok ⟨root, fun i =>
        if moved = some i then
          (Function.update table.bound entryIndex none i).map fun (f, b) => (f, { b with position := binding.position })
        else Function.update table.bound entryIndex none i⟩

def perform : Call → Except Errno TopicTable
  | .insert filter i => table.insert filter i
  | .remove i => table.remove i

def step (call : Call) : TopicTable :=
  match table.perform call with
  | .ok table' => table'
  | .error _ => table

def Call.apply (filters : Nat → Option Bytes) : Call → Nat → Option Bytes
  | .insert filter i => Function.update filters i (some filter)
  | .remove i => Function.update filters i none

/-- A call inserts valid filters only, under a free index. -/
def Call.Admissible [Vstr] (filters : Nat → Option Bytes) : Call → Prop
  | .insert filter i => topicFilterValidate filter = true ∧ filters i = none
  | .remove _ => True

section

variable [Vstr]

/-- The index of a table: its entries are placed where the caller has them, under their filters. -/
structure Valid (table : TopicTable) : Prop where
  placed : Placed table.root table.bindings
  filter : ∀ {i f b}, table.bound i = some (f, b) →
    topicFilterValidate f = true ∧ b.address = parseLevels (innerLevels (levels f))

theorem valid_init : init.Valid where
  placed := Placed.empty
  filter := by
    intro i f b h
    cases h

variable {table : TopicTable} {i : Nat}

theorem Valid.insert (hv : table.Valid) {filter : Bytes} (hf : topicFilterValidate filter = true) (hfree : table.bound i = none) :
    ∃ table', table.insert filter i = .ok table' ∧ table'.Valid ∧
      table'.filters = update table.filters i (some filter) := by
  obtain ⟨root', b, hins, hents, haddr, hposition⟩ := topicIndexInsertBound_spec hf table.root i
  refine ⟨⟨root', update table.bound i (some (filter, b))⟩, ?_, ?_, ?_⟩
  · rw [TopicTable.insert, hins]
  · refine ⟨?_, ?_⟩
    · have hbindings : bindings ⟨root', update table.bound i (some (filter, b))⟩ =
          update table.bindings i (some b) := by
        funext j
        by_cases hj : j = i
        · simp [bindings, hj]
        · simp [bindings, hj]
      rw [hbindings]
      exact hv.placed.append (by simp [bindings, hfree]) hents hposition
    · intro j f c hbd
      dsimp only at hbd
      by_cases hj : j = i
      · rw [hj, update_self] at hbd
        obtain ⟨rfl, rfl⟩ := Prod.mk.inj (Option.some.inj hbd)
        exact ⟨hf, haddr⟩
      · rw [update_of_ne hj] at hbd
        exact hv.filter hbd
  · funext j
    by_cases hj : j = i
    · simp [filters, hj]
    · simp [filters, hj]

variable {f : Bytes} {b : TopicBinding}

section
variable (hv : table.Valid)
include hv

theorem Valid.remove (hbd : table.bound i = some (f, b)) :
    ∃ table', table.remove i = .ok table' ∧ table'.Valid ∧ table'.filters = update table.filters i none := by
  have hb : table.bindings i = some b := by simp [bindings, hbd]
  obtain ⟨root', hrem, hents⟩ := TopicNode.removeAt_spec (hv.placed.stored hb)
  rw [← TopicBinding.address] at hrem
  have hres : table.remove i = .ok ⟨root', fun j =>
      if (table.root.entriesAt b.address).swapMoved b.position = some j then
        (update table.bound i none j).map fun (f, c) => (f, { c with position := b.position })
      else update table.bound i none j⟩ := by
    rw [TopicTable.remove, hbd]
    dsimp only
    rw [topicIndexRemove, hrem]
  refine ⟨_, hres, ⟨?_, ?_⟩, ?_⟩
  · have hplaced := hv.placed.swapRemove hb hents
    refine (congrArg (Placed root') (funext fun j => ?_)).mp hplaced
    by_cases hj : j = i
    · simp [rebind, bindings, hj]
    · simp only [rebind, bindings, update_of_ne hj, apply_ite (Option.map Prod.snd), Option.map_map]
      rfl
  · intro j g c hc
    dsimp only at hc
    by_cases hj : j = i
    · simp [hj] at hc
    rw [update_of_ne hj] at hc
    split at hc
    · obtain ⟨⟨g', c'⟩, hc', heq⟩ := Option.map_eq_some_iff.1 hc
      obtain ⟨rfl, rfl⟩ := Prod.mk.inj heq
      exact ⟨(hv.filter hc').1, (hv.filter hc').2⟩
    · exact hv.filter hc
  · funext j
    by_cases hj : j = i
    · simp [filters, hj]
    · simp only [filters, update_of_ne hj, apply_ite (Option.map Prod.fst), Option.map_map]
      exact ite_self _

/-- The entry that moves into the gap is another bound one. -/
theorem Valid.moved {other : Nat} {root : TopicNode}
    (hbd : table.bound i = some (f, b)) (hrem : topicIndexRemove table.root b i = .ok (root, some other)) :
    other ≠ i ∧ table.bound other ≠ none := by
  have hb : table.bindings i = some b := by simp [bindings, hbd]
  obtain ⟨root', hrem', -⟩ := TopicNode.removeAt_spec (hv.placed.stored hb)
  rw [← TopicBinding.address] at hrem'
  have hmvd := (Prod.mk.inj (Except.ok.inj (hrem'.symm.trans hrem))).2
  obtain ⟨hne, hmem⟩ := hv.placed.moved hb hmvd
  obtain ⟨c, hc, -⟩ := hv.placed.mem_iff.1 hmem
  refine ⟨hne, ?_⟩
  intro hnone
  rw [bindings, hnone] at hc
  cases hc

/-- One call keeps the index valid and does to the filters what it does to the abstract table. -/
theorem Valid.step {call : Call} (hcall : call.Admissible table.filters) :
    (table.step call).Valid ∧ (table.step call).filters = call.apply table.filters := by
  cases call with
  | insert filter i =>
    obtain ⟨hf, hfree⟩ := hcall
    obtain ⟨table', hins, hval, hfils⟩ := hv.insert hf (Option.map_eq_none_iff.1 hfree)
    simp only [TopicTable.step, perform, hins]
    exact ⟨hval, hfils⟩
  | remove i =>
    cases hbd : table.bound i with
    | none =>
      have hgone : update table.filters i none = table.filters :=
        update_eq_self_iff.2 (by simp [filters, hbd])
      simp only [TopicTable.step, perform, TopicTable.remove, hbd]
      exact ⟨hv, hgone.symm⟩
    | some kept =>
      obtain ⟨table', hrem, hval, hfils⟩ := hv.remove hbd
      simp only [TopicTable.step, perform, hrem]
      exact ⟨hval, hfils⟩

/-- Along admissible calls the filters are those of the abstract table. -/
theorem Valid.run {calls : List Call} (hcalls : Run.Along Call.apply Call.Admissible table.filters calls) :
    (calls.foldl TopicTable.step table).Valid ∧
      (calls.foldl TopicTable.step table).filters = calls.foldl Call.apply table.filters := by
  induction calls generalizing table with
  | nil => exact ⟨hv, rfl⟩
  | cons call calls ih =>
    obtain ⟨hcall, hrest⟩ := hcalls
    obtain ⟨hval, hfils⟩ := hv.step hcall
    rw [← hfils] at hrest
    obtain ⟨hend, hsame⟩ := ih hval hrest
    refine ⟨hend, ?_⟩
    rw [List.foldl_cons, hsame, hfils, List.foldl_cons]

/-- The entries stored under a filter are the bound ones with this filter. -/
theorem Valid.mem_entriesAt {g : LevelFilter Bytes} :
    i ∈ table.root.entriesAt g ↔
      ∃ f, table.filters i = some f ∧ topicFilterValidate f = true ∧ parseLevels (innerLevels (levels f)) = g := by
  rw [hv.placed.mem_iff]
  constructor
  · rintro ⟨b, hb, rfl⟩
    obtain ⟨⟨f, c⟩, hbd, rfl⟩ := Option.map_eq_some_iff.1 hb
    obtain ⟨hf, haddr⟩ := hv.filter hbd
    exact ⟨f, by simp [filters, hbd], hf, haddr.symm⟩
  · rintro ⟨f, hf, -, rfl⟩
    obtain ⟨⟨f', b⟩, hbd, rfl⟩ := Option.map_eq_some_iff.1 hf
    exact ⟨b, by simp [bindings, hbd], (hv.filter hbd).2⟩

end

variable {topic : Bytes}

/-- The recursive visit of a topic finds the entries whose filter matches it. -/
theorem Valid.mem_visit (hv : table.Valid) (ht : topicNameValidate topic = true) :
    i ∈ table.root.visitContainingNode true (levels topic) ↔
      ∃ f, table.filters i = some f ∧ topicMatches f topic = .ok true := by
  obtain ⟨-, -, -, hp, hh⟩ := topicNameValidate_iff.1 ht
  have hliteral : ∀ l ∈ levels topic, l ≠ [plus] ∧ l ≠ [hash] := fun l hl => topic_levels_literal hp hh hl
  have hlevels : levelsValid (levels topic) := levelsValid_literal fun l hl =>
    ⟨fun h => hp (mem_of_mem_levels hl h), fun h => hh (mem_of_mem_levels hl h)⟩
  rw [TopicNode.mem_visitContainingNode (levels_ne_nil topic) hlevels, parseLevels_literal hliteral]
  constructor
  · rintro ⟨g, hg, hcov⟩
    obtain ⟨f, hf, hval, rfl⟩ := hv.mem_entriesAt.1 hg
    refine ⟨f, hf, ?_⟩
    rw [topicMatches_eq hval ht, filterAccepts, ← LevelFilter.covers_literal, hcov]
  · rintro ⟨f, hf, hmt⟩
    obtain ⟨⟨f', b⟩, hbd, rfl⟩ := Option.map_eq_some_iff.1 hf
    obtain ⟨hval, -⟩ := hv.filter hbd
    rw [topicMatches_eq hval ht, filterAccepts, ← LevelFilter.covers_literal] at hmt
    exact ⟨_, hv.mem_entriesAt.2 ⟨f', hf, hval, rfl⟩, Except.ok.inj hmt⟩

/-- The result of `flowie_topic_index_match` is a reordering of the recursive visit. -/
theorem topicIndexMatch_perm (root : TopicNode) (ht : topicNameValidate topic = true) :
    ∃ matched, topicIndexMatch root topic = .ok matched ∧
      matched.Perm (root.visitContainingNode true (levels topic)) := by
  obtain ⟨hne, -⟩ := topicNameValidate_iff.1 ht
  have hvisit := visitValidatedTopic_eq root ht
  rw [topicIndexVisitValidatedTopic, if_neg (by simpa using hne)] at hvisit
  refine ⟨_, by rw [topicIndexMatch, if_neg (by simpa using hne)], ?_⟩
  refine (TopicNode.matchNodes_perm _ _ _).trans ?_
  rw [List.flatMap_singleton, Except.ok.inj hvisit]

/-- After any calls that insert valid filters under free indices, both queries of a topic find the
    entries whose filter matches it, each once. -/
theorem topic_queries_find_matching_entries {calls : List Call}
    (hcalls : Run.Along Call.apply Call.Admissible (fun _ => none) calls) {topic : Bytes}
    (ht : topicNameValidate topic = true) :
    ∃ matched visited,
      topicIndexMatch (calls.foldl TopicTable.step init).root topic = .ok matched ∧
      topicIndexVisitTopic (calls.foldl TopicTable.step init).root topic = .ok visited ∧
      matched.Nodup ∧ visited.Nodup ∧ matched.Perm visited ∧
      ∀ i, i ∈ matched ↔ ∃ f, calls.foldl Call.apply (fun _ => none) i = some f ∧ topicMatches f topic = .ok true := by
  obtain ⟨hv, hfils⟩ := valid_init.run hcalls
  obtain ⟨matched, hmt, hperm⟩ := topicIndexMatch_perm (calls.foldl TopicTable.step init).root ht
  have hnd := TopicNode.visitContainingNode_nodup hv.placed.separated true (levels topic)
  refine ⟨matched, _, hmt, ?_, hperm.nodup_iff.2 hnd, hnd, hperm, ?_⟩
  · rw [topicIndexVisitTopic, ht]
    exact visitValidatedTopic_eq _ ht
  intro i
  rw [hperm.mem_iff, hv.mem_visit ht, hfils]
  rfl

variable {request : Bytes}

/-- A containing visit finds the entries whose filter covers the request. -/
theorem Valid.mem_visitContaining (hv : table.Valid) (hr : topicFilterValidate request = true) :
    i ∈ table.root.visitContainingNode true (innerLevels (levels request)) ↔
      ∃ f, table.filters i = some f ∧ topicFilterValidate f = true ∧
        (parseLevels (innerLevels (levels f))).covers sysLevel (parseLevels (innerLevels (levels request))) = true := by
  obtain ⟨-, -, hlev, hlevels⟩ := levels_topicFilterInner hr
  rw [TopicNode.mem_visitContainingNode (hlev ▸ levels_ne_nil _) hlevels]
  constructor
  · rintro ⟨g, hg, hcov⟩
    obtain ⟨f, hf, hval, rfl⟩ := hv.mem_entriesAt.1 hg
    exact ⟨f, hf, hval, hcov⟩
  · rintro ⟨f, hf, hval, hcov⟩
    exact ⟨_, hv.mem_entriesAt.2 ⟨f, hf, hval, rfl⟩, hcov⟩

/-- Without wildcards the filter behind the share prefix is a topic name. -/
theorem topicNameValidate_of_sharedFilter (hr : topicFilterValidate request = true)
    (hshared : sharedFilter request = some topic) (hp : plus ∉ request) (hh : hash ∉ request) :
    topicNameValidate topic = true := by
  obtain ⟨hne, hsize, hutf8, -⟩ := topicFilterValidate_iff.1 hr
  obtain ⟨tne, tsize, tutf8⟩ := sharedFilter_bounds hshared hne hsize hutf8
  have hsub : ∀ ch ∈ topic, ch ∈ request := by
    intro ch hch
    rcases sharedFilter_some hshared with ⟨rfl, -⟩ | ⟨group, rfl, -⟩
    · exact hch
    · simp [hch]
  exact topicNameValidate_iff.2 ⟨tne, tsize, tutf8, fun h => hp (hsub _ h), fun h => hh (hsub _ h)⟩

/-- After any calls that insert valid filters under free indices, a containing query finds only
    entries whose filter matches every topic the request matches. A request without wildcards
    finds all entries whose filter matches it as a topic. -/
theorem containing_query_is_sound {calls : List Call}
    (hcalls : Run.Along Call.apply Call.Admissible (fun _ => none) calls) {request : Bytes}
    (hr : topicFilterValidate request = true) :
    ∃ visited, topicIndexVisitContainingFilters (calls.foldl TopicTable.step init).root request = .ok visited ∧
      (∀ i ∈ visited, ∃ f, calls.foldl Call.apply (fun _ => none) i = some f ∧
        ∀ topic, topicNameValidate topic = true → topicMatches request topic = .ok true →
          topicMatches f topic = .ok true) ∧
      (plus ∉ request → hash ∉ request → ∃ topic, sharedFilter request = some topic ∧
        topicNameValidate topic = true ∧
        ∀ i, i ∈ visited ↔
          ∃ f, calls.foldl Call.apply (fun _ => none) i = some f ∧ topicMatches f topic = .ok true) := by
  obtain ⟨hv, hfils⟩ := valid_init.run hcalls
  have hsame : ∀ i, calls.foldl Call.apply (fun _ => none) i = (calls.foldl TopicTable.step init).filters i :=
    fun i => (congrFun hfils i).symm
  refine ⟨(calls.foldl TopicTable.step init).root.visitContainingNode true (innerLevels (levels request)), ?_, ?_, ?_⟩
  · rw [topicIndexVisitContainingFilters, hr]
    exact visitValidatedContaining_eq _ hr
  · intro i hi
    obtain ⟨f, hf, hval, hcov⟩ := (hv.mem_visitContaining hr).1 hi
    refine ⟨f, (hsame i).trans hf, ?_⟩
    intro topic ht hmt
    rw [topicMatches_eq hr ht, filterAccepts] at hmt
    rw [topicMatches_eq hval ht, filterAccepts, LevelFilter.accepts_of_covers hcov (Except.ok.inj hmt)]
  · intro hp hh
    obtain ⟨-, -, -, topic, hshared, -⟩ := topicFilterValidate_iff.1 hr
    have ht := topicNameValidate_of_sharedFilter hr hshared hp hh
    refine ⟨topic, hshared, ht, ?_⟩
    intro i
    rw [← levels_sharedFilter hshared, hv.mem_visit ht, hsame]

/-- A stored filter with a level that is neither empty nor a wildcard is found by exactly the requests whose topics it
    all matches. -/
theorem containing_query_is_exact {calls : List Call}
    (hcalls : Run.Along Call.apply Call.Admissible (fun _ => none) calls) (hr : topicFilterValidate request = true)
    (hf : calls.foldl Call.apply (fun _ => none) i = some f)
    (hlevel : ∃ level ≠ [], some level ∈ (parseLevels (innerLevels (levels f))).path) :
    (∃ visited, topicIndexVisitContainingFilters (calls.foldl TopicTable.step init).root request = .ok visited ∧ i ∈ visited) ↔
      ∀ topic, topicNameValidate topic = true → topicMatches request topic = .ok true → topicMatches f topic = .ok true := by
  obtain ⟨level, hne, hmem⟩ := hlevel
  obtain ⟨hv, hfils⟩ := valid_init.run hcalls
  obtain ⟨-, -, -, inner, hinner, -⟩ := topicFilterValidate_iff.1 hr
  have hsto : (calls.foldl TopicTable.step init).filters i = some f := (congrFun hfils i).trans hf
  obtain ⟨⟨f, b⟩, hbd, rfl⟩ := Option.map_eq_some_iff.1 hsto
  have hval := (hv.filter hbd).1
  have hcov := covers_iff_topics hr hinner hne hmem
  rw [levelFilter, levels_sharedFilter hinner] at hcov
  simp only [topicIndexVisitContainingFilters, hr, Bool.not_true, Bool.false_eq_true, if_false, visitValidatedContaining_eq _ hr,
    Except.ok.injEq, exists_eq_left', hv.mem_visitContaining hr, hsto, Option.some.injEq, hval, true_and, hcov]
  refine forall₂_congr fun topic ht => ?_
  rw [topicMatches_eq hr ht, topicMatches_eq hval ht, Except.ok.injEq, Except.ok.injEq]
  rfl

end

section

attribute [local instance] asciiVstr

def shareCalls : List Call :=
  [.insert (text "a/+") 0, .insert (text "a/#") 1, .insert (text "$share/g/a/b") 2, .remove 0]

theorem topic_queries_find_matching_entries_shared :
    Run.Along Call.apply Call.Admissible (fun _ => none) shareCalls ∧
    ∃ matched visited,
      topicIndexMatch (shareCalls.foldl TopicTable.step init).root (text "a/b") = .ok matched ∧
      topicIndexVisitTopic (shareCalls.foldl TopicTable.step init).root (text "a/b") = .ok visited ∧
      matched.Nodup ∧ visited.Nodup ∧ matched.Perm visited ∧
      ∀ i, i ∈ matched ↔
        ∃ f, shareCalls.foldl Call.apply (fun _ => none) i = some f ∧ topicMatches f (text "a/b") = .ok true := by
  have hcalls : Run.Along Call.apply Call.Admissible (fun _ => none) shareCalls :=
    ⟨⟨by decide, rfl⟩, ⟨by decide, rfl⟩, ⟨by decide, rfl⟩, trivial, trivial⟩
  exact ⟨hcalls, topic_queries_find_matching_entries hcalls (by decide)⟩

theorem containing_query_is_sound_shared :
    Run.Along Call.apply Call.Admissible (fun _ => none) shareCalls ∧
    ∃ visited, topicIndexVisitContainingFilters (shareCalls.foldl TopicTable.step init).root (text "a/b") = .ok visited ∧
      (∀ i ∈ visited, ∃ f, shareCalls.foldl Call.apply (fun _ => none) i = some f ∧
        ∀ topic, topicNameValidate topic = true → topicMatches (text "a/b") topic = .ok true →
          topicMatches f topic = .ok true) ∧
      (plus ∉ text "a/b" → hash ∉ text "a/b" → ∃ topic, sharedFilter (text "a/b") = some topic ∧
        topicNameValidate topic = true ∧
        ∀ i, i ∈ visited ↔
          ∃ f, shareCalls.foldl Call.apply (fun _ => none) i = some f ∧ topicMatches f topic = .ok true) := by
  have hcalls : Run.Along Call.apply Call.Admissible (fun _ => none) shareCalls :=
    ⟨⟨by decide, rfl⟩, ⟨by decide, rfl⟩, ⟨by decide, rfl⟩, trivial, trivial⟩
  exact ⟨hcalls, containing_query_is_sound hcalls (by decide)⟩

theorem containing_query_is_exact_wild :
    (∃ visited, topicIndexVisitContainingFilters (shareCalls.foldl TopicTable.step init).root (text "a/b/+") = .ok visited ∧
      1 ∈ visited) ↔ ∀ topic, topicNameValidate topic = true → topicMatches (text "a/b/+") topic = .ok true →
        topicMatches (text "a/#") topic = .ok true :=
  @containing_query_is_exact _ 1 _ _ shareCalls ⟨⟨by decide, rfl⟩, ⟨by decide, rfl⟩, ⟨by decide, rfl⟩, trivial, trivial⟩
    (by decide) rfl ⟨text "a", by decide, by decide⟩

example : topicIndexMatch (shareCalls.foldl TopicTable.step init).root (text "a/b") = .ok [1, 2] := by decide

end

end TopicTable

end Flowie
