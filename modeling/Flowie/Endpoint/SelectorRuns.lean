import Flowie.Endpoint.MirrorConnect
import Flowie.Endpoint.MirrorEvents

/-!
# The selector along the runs of an endpoint

In a run from the start or from restored sessions the selector agrees with the sessions exactly as
long as no event strands members in it (`strands`). The agreement is stated on the members one by
one (`Exact`): the selector has one for every subscription of every session and no other.
-/

namespace Flowie.Endpoint

open List Mqtt Session

def Selector.contents (selector : Selector) : List (Bytes × Member) :=
  selector.entries.elements.flatMap fun entry => entry.members.entries.map fun member => (entry.filter, member)

/-- The members that the subscriptions of the sessions make, with their filters. -/
def Ledger.contents (ledger : Ledger) : List (Bytes × Member) :=
  ledger.flatMap fun session => session.2.map fun subscription =>
    (subscription.filter, memberOf session.1.sessionId subscription)

section

variable [Vstr] {maxSessions : Nat} {issued : UInt64} {selector : Selector} {ledger : Ledger}
  {filter : Bytes} {member : Member}

theorem Selector.Valid.mem_contents (h : selector.Valid maxSessions) :
    (filter, member) ∈ selector.contents ↔ selector.view filter member.sessionId = some member := by
  simp only [Selector.contents, mem_flatMap, mem_map, Prod.mk.injEq, SlotMap.mem_elements, Selector.view_eq_some_iff]
  constructor
  · rintro ⟨entry, ⟨slot, hget⟩, other, hmem, hfil, rfl⟩
    exact ⟨slot, entry, hget, hfil, (h.entry hget).members.find_eq_some_iff.2 ⟨hmem, rfl⟩⟩
  · rintro ⟨slot, entry, hget, hfil, hfind⟩
    exact ⟨entry, ⟨slot, hget⟩, member, ((h.entry hget).members.find_eq_some_iff.1 hfind).1, hfil, rfl⟩

theorem Selector.Valid.contents_nodup (h : selector.Valid maxSessions) : selector.contents.Nodup := by
  refine KeyedList.nodup_flatMap selector.entries.keys_nodup fun entry hent => ?_
  obtain ⟨slot, hget⟩ := SlotMap.mem_elements.1 hent
  exact ((h.entry hget).members.vec.keys_nodup).of_map

theorem Ledger.Sound.mem_contents (h : ledger.Sound maxSessions issued) :
    (filter, member) ∈ ledger.contents ↔ held ledger filter member.sessionId = some member := by
  rw [Ledger.held_eq_some_iff h.distinct h.filters]
  simp only [Ledger.contents, mem_flatMap, mem_map, Prod.mk.injEq]
  constructor
  · rintro ⟨session, hmem, subscription, hsub, hfil, rfl⟩
    exact ⟨session, hmem, rfl, subscription, hsub, hfil, rfl⟩
  · rintro ⟨session, hmem, hid, subscription, hsub, hfil, hmbr⟩
    exact ⟨session, hmem, subscription, hsub, hfil, hid ▸ hmbr⟩

theorem Ledger.Sound.contents_nodup (h : ledger.Sound maxSessions issued) : ledger.contents.Nodup := by
  have hpairs : (ledger.contents.map fun held => (held.2.sessionId, held.1)).Nodup := by
    have hnd := KeyedList.nodup_flatMap h.distinct h.filters
    rw [Ledger.contents, map_flatMap]
    simpa only [map_map, Function.comp_def, memberOf] using hnd
  exact hpairs.of_map

variable {k : UInt64}

omit [Vstr] in
theorem held_sessionId (h : held ledger filter k = some member) : member.sessionId = k := by
  obtain ⟨session, -, hmbr⟩ := Option.bind_eq_some_iff.1 h
  obtain ⟨subscription, -, rfl⟩ := Option.map_eq_some_iff.1 hmbr
  rfl

variable (h : selector.Valid maxSessions)
include h

theorem Selector.Valid.view_sessionId (hview : selector.view filter k = some member) : member.sessionId = k := by
  obtain ⟨slot, entry, hget, -, hfind⟩ := Selector.view_eq_some_iff.1 hview
  exact ((h.entry hget).members.find_eq_some_iff.1 hfind).2

/-- Member by member, the selector holds what the sessions hold. -/
theorem contents_perm_iff (hsnd : ledger.Sound maxSessions issued) :
    selector.contents.Perm ledger.contents ↔ selector.view = held ledger := by
  rw [perm_ext_iff_of_nodup h.contents_nodup hsnd.contents_nodup]
  constructor
  · intro hmem
    funext filter k
    apply Option.ext
    intro member
    have hiff := hmem (filter, member)
    rw [h.mem_contents, hsnd.mem_contents] at hiff
    constructor
    · intro hview
      obtain rfl := h.view_sessionId hview
      exact hiff.1 hview
    · intro hheld
      obtain rfl := held_sessionId hheld
      exact hiff.2 hheld
  · rintro hview ⟨filter, member⟩
    rw [h.mem_contents, hsnd.mem_contents, hview]

end

namespace State

section

variable [Vstr] {endpoint endpoint' : State}

/-- The events that strand members in the selector: a session that stays loses its subscriptions while
    the index stays in use. -/
def strands (endpoint : State) : EndpointEvent → Bool
  | .connect connection view answer =>
    match endpoint.sessionFind view.clientId with
    | none => false
    | some session =>
      endpoint.subscriptionIndexValid && !session.owner.subscriptions.isEmpty &&
        connectStrands endpoint.persistenceEnabled session.owner view (session.connection.any (· != connection)) answer
  | .release sessionId connection sessionTakeover answer =>
    match endpoint.session sessionId with
    | none => false
    | some session =>
      decide (session.connection = some connection) && !sessionTakeover && endpoint.subscriptionIndexValid &&
        !session.owner.subscriptions.isEmpty && closeStrands endpoint.persistenceEnabled session.owner answer
  | _ => false

section
variable (hsnd : endpoint.Sound)
include hsnd

variable (hmir : endpoint.Mirrors)
include hmir

/-- A connection that goes leaves its session closed, unless another one has taken it over. -/
theorem connectionRelease_kept (sessionId : UInt64) (connection : Nat) (sessionTakeover : Bool) (answer : CloseAnswer) :
    (endpoint.connectionRelease sessionId connection sessionTakeover answer).Sound ∧
      ((endpoint.connectionRelease sessionId connection sessionTakeover answer).Mirrors ↔
        endpoint.strands (.release sessionId connection sessionTakeover answer) = false) := by
  dsimp only [connectionRelease, strands]
  cases hsess : endpoint.session sessionId with
  | none => simp [hsnd, hmir]
  | some session =>
    obtain ⟨hmem, rfl⟩ := mem_of_session hsess
    dsimp only
    split
    · rename_i hoth
      simp [hsnd, hmir, hoth]
    rename_i hsame
    have hled : (endpoint.setConnection session.sessionId none).ledger = endpoint.ledger :=
      ledger_modify_of_same (fun _ => rfl) (fun _ => rfl)
    have hsnd' : (endpoint.setConnection session.sessionId none).Sound :=
      hsnd.of_ledger hled rfl (UInt64.le_refl _)
    have hmir' : (endpoint.setConnection session.sessionId none).Mirrors := hmir.of_ledger hled rfl rfl rfl
    split
    · rename_i htakeover
      simp [hsnd', hmir', htakeover]
    rename_i htakeover
    have hmem' : { session with connection := none } ∈ (endpoint.setConnection session.sessionId none).sessions :=
      List.mem_map.2 ⟨session, hmem, if_pos rfl⟩
    obtain ⟨hsnd'', hiff⟩ := sessionCloseSchedule_kept hsnd' hmir' hmem' answer
    refine ⟨hsnd'', hiff.trans ?_⟩
    have hconnection : session.connection = some connection := not_not.1 hsame
    simp [hconnection, htakeover, setConnection, modify]

theorem connect_kept (connection : Nat) (view : ConnectView) (answer : ConnectAnswer) :
    (endpoint.connect connection view answer).1.Sound ∧
      ((endpoint.connect connection view answer).1.Mirrors ↔
        endpoint.strands (.connect connection view answer) = false) := by
  cases hfind : endpoint.sessionFind view.clientId with
  | none =>
    obtain ⟨hsnd', hmir'⟩ := connect_new hsnd hmir connection answer hfind
    simp [strands, hfind, hsnd', hmir']
  | some session =>
    have hmem : session ∈ endpoint.sessions := mem_of_find?_eq_some hfind
    have houtcome := connect_existing hsnd connection answer hfind
    refine ⟨houtcome.sound hsnd hmem, (houtcome.mirrors_iff hsnd hmem hmir).trans ?_⟩
    simp [strands, hfind]

/-- Every event keeps the sessions sound, and the selector in agreement with them unless it strands
    members. -/
theorem step_kept (event : EndpointEvent) :
    (endpoint.step event).Sound ∧ ((endpoint.step event).Mirrors ↔ endpoint.strands event = false) := by
  have hkept : ∀ {next : State}, next.Kept → next.Sound ∧ (next.Mirrors ↔ false = false) :=
    fun h => ⟨h.1, iff_of_true h.2 rfl⟩
  cases event with
  | connect connection view answer => exact connect_kept hsnd hmir connection view answer
  | release sessionId connection sessionTakeover answer =>
    exact connectionRelease_kept hsnd hmir sessionId connection sessionTakeover answer
  | clientAdd => exact hkept (clientAdd_kept hsnd hmir)
  | subscribe sessionId packet view saved => exact hkept (prepareSubscribe_kept hsnd hmir sessionId saved)
  | unsubscribe sessionId packet view saved =>
    exact hkept (prepareUnsubscribe_kept hsnd hmir sessionId view saved)
  | operate sessionId op => exact hkept (operate_kept hsnd hmir sessionId op)
  | expire sessionId deleted => exact hkept (sessionExpire_kept hsnd hmir sessionId deleted)
  | select publisherSessionId topic => exact hkept (select_kept hsnd hmir publisherSessionId topic)
  | rebuild => exact hkept (rebuild_kept hsnd)

end

/-- Rows of different sessions, with valid subscriptions each. -/
structure Stored (rows : List (SessionRow × UInt64)) : Prop where
  distinct : (rows.map (·.1.sessionId)).Nodup
  subscriptions : ∀ stored ∈ rows, Subscriptions stored.1.subscriptions.length stored.1.subscriptions

variable {now : UInt64}

theorem restoreSessionRow_kept {stored : SessionRow × UInt64} (hsnd : endpoint.Sound)
    (hnew : stored.1.sessionId ∉ endpoint.ledger.sessionIds)
    (hsto : Subscriptions stored.1.subscriptions.length stored.1.subscriptions)
    (h : restoreSessionRow now endpoint stored = .ok endpoint') :
    endpoint'.Sound ∧ ∀ k ∈ endpoint'.ledger.sessionIds, k ∈ endpoint.ledger.sessionIds ∨ k = stored.1.sessionId := by
  unfold restoreSessionRow at h
  dsimp only at h
  split at h
  · cases h
  rename_i owner hrest
  obtain ⟨hcfg, hsubs, hcap, -⟩ := repositoryRestore_eq_ok hrest
  split at h
  · cases h
    exact ⟨hsnd, fun k hk => .inl hk⟩
  split at h
  · cases h
  rename_i hroom
  split at h
  · cases h
  cases h
  have hled : State.ledger
      { endpoint with
        sessions := endpoint.sessions ++ [⟨stored.1.clientId, owner, none⟩]
        nextRouteId :=
          if owner.config.sessionId > endpoint.nextRouteId then owner.config.sessionId
          else endpoint.nextRouteId } =
      endpoint.ledger ++ [(owner.config, owner.subscriptions)] := by
    rw [ledger_eq, ledger_eq, map_append]
    rfl
  have hid : owner.config.sessionId = stored.1.sessionId := by rw [hcfg]
  have hlen : endpoint.ledger.length < endpoint.maxSessions := by
    rw [ledger_eq, length_map]
    exact Nat.lt_of_not_le hroom
  have hval : Subscriptions owner.config.maxSubscriptions owner.subscriptions := by
    rw [hsubs, hcfg]
    exact ⟨hsto.distinct, hsto.valid, hcap⟩
  constructor
  · rw [Sound, hled]
    refine Ledger.Sound.append hsnd (hid ▸ hnew) ?_ ?_ hlen hval
    · dsimp only
      split
      · rename_i hlt
        exact UInt64.le_of_lt hlt
      · exact UInt64.le_refl _
    · dsimp only
      split
      · exact UInt64.le_refl _
      · rename_i hle
        exact UInt64.not_lt.1 hle
  · intro k hk
    rw [hled, Ledger.sessionIds, map_append, mem_append] at hk
    rcases hk with hk | hk
    · exact .inl hk
    · exact .inr (by simpa [hid] using hk)

theorem restoreRows_sound {rows : List (SessionRow × UInt64)} (hsnd : endpoint.Sound)
    (hnew : ∀ stored ∈ rows, stored.1.sessionId ∉ endpoint.ledger.sessionIds) (hsto : Stored rows)
    (h : rows.foldlM (restoreSessionRow now) endpoint = .ok endpoint') : endpoint'.Sound := by
  induction rows generalizing endpoint with
  | nil =>
    cases h
    exact hsnd
  | cons stored rest ih =>
    rw [foldlM_cons] at h
    cases hrow : restoreSessionRow now endpoint stored with
    | error e =>
      rw [hrow] at h
      cases h
    | ok next =>
      rw [hrow] at h
      obtain ⟨hdist, hsubs⟩ := hsto
      rw [map_cons, nodup_cons] at hdist
      obtain ⟨hsnd', hids⟩ :=
        restoreSessionRow_kept hsnd (hnew stored mem_cons_self) (hsubs stored mem_cons_self) hrow
      refine ih hsnd' (fun other hoth hmem => ?_)
        ⟨hdist.2, fun other hoth => hsubs other (mem_cons_of_mem _ hoth)⟩ h
      rcases hids _ hmem with hold | hsame
      · exact hnew other (mem_cons_of_mem _ hoth) hold
      · exact hdist.1 (List.mem_map.2 ⟨other, hoth, hsame⟩)

/-- How an endpoint starts: without sessions, or with those of the repository. -/
inductive Started : State → Prop
  | created (instanceId : UInt64) (maxSessions maxSubscriptions maxInflight : Nat) (settlement : SettlementPolicy)
      (persistence : Bool) :
      Started (create instanceId maxSessions maxSubscriptions maxInflight settlement persistence)
  | restored (instanceId : UInt64) (maxSessions maxSubscriptions maxInflight : Nat) (settlement : SettlementPolicy)
      (now : UInt64) (rows : List (SessionRow × UInt64)) (endpoint : State) (hsto : Stored rows)
      (h : restoreSessions now (create instanceId maxSessions maxSubscriptions maxInflight settlement true) rows =
        .ok endpoint) : Started endpoint

theorem create_kept (instanceId : UInt64) (maxSessions maxSubscriptions maxInflight : Nat) (settlement : SettlementPolicy)
    (persistence : Bool) : (create instanceId maxSessions maxSubscriptions maxInflight settlement persistence).Kept := by
  constructor
  · exact ⟨nodup_nil, fun k hk => (nomatch hk), fun session hmem => (nomatch hmem), Nat.zero_le _⟩
  · intro _
    exact ⟨Selector.valid_empty, rfl⟩

theorem Started.kept (h : Started endpoint) : endpoint.Kept := by
  cases h with
  | created => exact create_kept _ _ _ _ _ _
  | restored instanceId maxSessions maxSubscriptions maxInflight settlement now rows _ hsto h =>
    unfold restoreSessions at h
    split at h
    · cases h
    rename_i loaded hload
    have hloaded := restoreRows_sound (create_kept _ _ _ _ _ _).1 (fun _ _ hmem => (nomatch hmem)) hsto hload
    have hrebuilt := rebuild_kept hloaded
    split at h
    · cases h
    rename_i rebuilt hrebuild
    cases h
    rw [hrebuild] at hrebuilt
    exact hrebuilt

/-- A selector in use has one member for every subscription of every session, with its options, and no
    other, and its indices are in step. -/
def Exact (endpoint : State) : Prop :=
  endpoint.subscriptionIndexValid = true →
    endpoint.selector.Valid endpoint.maxSessions ∧ endpoint.selector.contents.Perm endpoint.ledger.contents

theorem Sound.exact_iff (hsnd : endpoint.Sound) : endpoint.Exact ↔ endpoint.Mirrors := by
  refine forall_congr' fun _ => and_congr_right fun hval => ?_
  exact contents_perm_iff hval hsnd

/-- The selector is exact throughout a run if and only if no event of the run strands members. -/
theorem selector_exact_iff (hstart : Started endpoint) (events : List EndpointEvent) :
    (∀ before, before <+: events → (endpoint.run before).Exact) ↔
      Run.Along step (fun endpoint event => endpoint.strands event = false) endpoint events := by
  obtain ⟨hsnd, hmir⟩ := hstart.kept
  refine Run.Along.iff_prefix_of_kept (S := Sound) (I := Exact) ?_ ?_ hsnd (hsnd.exact_iff.2 hmir) events
  · intro state event hsnd hexact
    exact (step_kept hsnd (hsnd.exact_iff.1 hexact) event).1
  intro state event hsnd hexact
  obtain ⟨hsnd', hiff⟩ := step_kept hsnd (hsnd.exact_iff.1 hexact) event
  rw [hsnd'.exact_iff, hiff]

end

section Example

attribute [local instance] asciiVstr

def smallEndpoint : State := create 1 4 4 4 ⟨.accepted, .accepted, .accepted⟩ false

/-- A session that ends with its connection and has a Will. -/
def willConnect : ConnectView := { persistentConnect with cleanStart := true, willTopic := text "gone" }

/-- It connects and subscribes to `a`. -/
def subscribedRun : List EndpointEvent :=
  [.connect 7 willConnect ⟨1, .ok (), .ok (), .ok ()⟩,
    .subscribe 1 ⟨.v311, .subscribe, 2, []⟩ ⟨1, [], [0, 1, 97, 1], 1⟩ (.ok ())]

def connectionLost : EndpointEvent := .release 1 7 false ⟨1, .ok (), .ok ()⟩

theorem started_smallEndpoint : Started smallEndpoint := .created 1 4 4 4 ⟨.accepted, .accepted, .accepted⟩ false

/-- After a DISCONNECT there is no Will to keep the session for. -/
theorem selector_exact_disconnected :
    Started smallEndpoint ∧
      ∀ before, before <+: subscribedRun ++ [.operate 1 (.disconnect ⟨.v311, .disconnect, false, 0, 0, [], []⟩), connectionLost] →
        (smallEndpoint.run before).Exact :=
  ⟨started_smallEndpoint,
    (selector_exact_iff started_smallEndpoint _).2 ⟨by decide, by decide, by decide, by decide, trivial⟩⟩

/-- The session that is kept for its Will has no subscription, and the selector in use still has a
    member for it. -/
theorem selector_stranded :
    Started smallEndpoint ∧ ¬(smallEndpoint.run (subscribedRun ++ [connectionLost])).Exact ∧
      (smallEndpoint.run (subscribedRun ++ [connectionLost])).subscriptionIndexValid = true ∧
      (smallEndpoint.run (subscribedRun ++ [connectionLost])).sessions.length = 1 ∧
      (smallEndpoint.run (subscribedRun ++ [connectionLost])).ledger.contents = [] ∧
      (smallEndpoint.run (subscribedRun ++ [connectionLost])).selector.contents = [(text "a", ⟨1, 1, false, false, 0⟩)] := by
  refine ⟨started_smallEndpoint, fun hexact => ?_, by decide, by decide, by decide, by decide⟩
  obtain ⟨-, hperm⟩ := hexact (by decide)
  exact absurd hperm.length_eq (by decide)

end Example

end State

end Flowie.Endpoint
