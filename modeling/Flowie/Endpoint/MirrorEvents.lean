import Flowie.Endpoint.Mirror

/-!
# The other events

A SUBSCRIBE and an UNSUBSCRIBE change the owner and the selector in step. A removed session goes from
both. The close of a session that is kept for its Will goes wrong (`closeStrands`).
-/

namespace Flowie.Endpoint

open Mqtt Session List

section Close

/-- The close of an active session with expiry interval zero that is kept for its Will: the owner loses
    its subscriptions, with persistence once that is saved. -/
def closeStrands (persistenceEnabled : Bool) (owner : Owner) (answer : CloseAnswer) : Bool :=
  owner.active && owner.sessionExpiryInterval == 0 && owner.will.isSome &&
    owner.resourceGeneration != uint64Max &&
    (!persistenceEnabled || (ownerClone owner).isSome && answer.now != 0 && answer.saved.isOk)

variable {persistenceEnabled : Bool} {owner : Owner} {closing : Owner} {staged : Owner}

/-- What the close of the owner or of its copy leaves. -/
theorem ownerClose_staged (hstg : (if persistenceEnabled then ownerClone owner else some owner) = some staged)
    (hcl : ownerClose staged = .ok closing) :
    closing.config = owner.config ∧
      closing.subscriptions = (if owner.sessionExpiryInterval = 0 then [] else owner.subscriptions) ∧
      closing.sessionExpiryInterval = owner.sessionExpiryInterval ∧
      closing.will.any (·.pending) = owner.will.isSome := by
  obtain ⟨deliveries, rfl⟩ := staged_eq hstg
  obtain ⟨-, -, rfl⟩ := ownerClose_eq_ok hcl
  have hwill : (owner.will.map Will.armed).any (·.pending) = owner.will.isSome := by
    cases owner.will with
    | none => rfl
    | some will => rfl
  unfold closed Owner.advanced
  split <;> exact ⟨rfl, rfl, rfl, hwill⟩

variable {answer : CloseAnswer}

theorem closeStrands_of_none (h : (if persistenceEnabled then ownerClone owner else some owner) = none) :
    closeStrands persistenceEnabled owner answer = false := by
  cases persistenceEnabled with
  | false => cases h
  | true =>
    rw [if_pos rfl] at h
    simp [closeStrands, h]

variable (hstg : (if persistenceEnabled then ownerClone owner else some owner) = some staged)
include hstg

theorem closeStrands_of_error {e : Errno}
    (hcl : ownerClose staged = .error e) : closeStrands persistenceEnabled owner answer = false := by
  obtain ⟨deliveries, hcopy⟩ := staged_eq hstg
  by_contra hstr
  have hopen : staged.active = true ∧ staged.resourceGeneration ≠ uint64Max := by
    simp only [closeStrands, Bool.not_eq_false, Bool.and_eq_true, bne_iff_ne] at hstr
    rw [hcopy]
    exact ⟨hstr.1.1.1.1, hstr.1.2⟩
  rw [ownerClose_of_active hopen.1 hopen.2] at hcl
  cases hcl

theorem closeStrands_eq (hcl : ownerClose staged = .ok closing) :
    closeStrands persistenceEnabled owner answer =
      (owner.sessionExpiryInterval == 0 && owner.will.isSome &&
        (!persistenceEnabled || answer.now != 0 && answer.saved.isOk)) := by
  have hclo : persistenceEnabled = true → (ownerClone owner).isSome = true := by
    rintro rfl
    rw [if_pos rfl] at hstg
    rw [hstg]
    rfl
  obtain ⟨deliveries, rfl⟩ := staged_eq hstg
  obtain ⟨hact, hgen, -⟩ := ownerClose_eq_ok hcl
  have hact : owner.active = true := hact
  have hgen : (owner.resourceGeneration != uint64Max) = true := bne_iff_ne.2 hgen
  cases persistenceEnabled with
  | false => simp [closeStrands, hact, hgen]
  | true => simp [closeStrands, hact, hgen, hclo rfl]

end Close

namespace State

section

variable [Vstr] {endpoint : State} {session : EndpointSession}

/-- The members of a session are those of its subscriptions. -/
theorem assign_self (hsnd : endpoint.Sound) (hmem : session ∈ endpoint.sessions) :
    (held endpoint.ledger).assign session.sessionId session.owner.subscriptions = held endpoint.ledger := by
  rw [← held_resubscribe_eq_assign (mem_sessionIds hmem)]
  exact congrArg held (Ledger.resubscribe_self hsnd.distinct (mem_ledger hmem))

variable {owner : Owner}

/-- A commit of new subscriptions with the selector that follows them. -/
theorem reindex_kept (hsnd : endpoint.Sound) (hmem : session ∈ endpoint.sessions)
    (hcfg : owner.config = session.owner.config)
    (hsubs : Subscriptions session.owner.config.maxSubscriptions owner.subscriptions)
    {result : Except Errno Selector} (hres : endpoint.subscriptionIndexValid = true → ∃ selector, result = .ok selector ∧
      selector.Valid endpoint.maxSessions ∧
      selector.view = (held endpoint.ledger).assign session.sessionId owner.subscriptions) :
    let committed := endpoint.setOwner session.sessionId owner
    let next := if committed.subscriptionIndexValid then committed.reindex result else committed
    next.Kept := by
  intro committed next
  have htch : Touched endpoint committed session owner.subscriptions endpoint.subscriptionIndexValid :=
    Touched.modify hsnd hmem hcfg
  have hcomm := htch.sound hsnd hmem hsubs
  have hflag : committed.subscriptionIndexValid = endpoint.subscriptionIndexValid := rfl
  simp only [next, hflag]
  cases hval : endpoint.subscriptionIndexValid with
  | false => exact ⟨hcomm, mirrors_of_invalid hval⟩
  | true =>
    obtain ⟨selector, rfl, hsel, hview⟩ := hres hval
    refine ⟨hcomm.of_ledger rfl rfl (UInt64.le_refl _), fun _ => ⟨hsel, ?_⟩⟩
    rw [← held_resubscribe_eq_assign (mem_sessionIds hmem), ← htch.ledger] at hview
    exact hview

omit [Vstr] in
/-- A commit that the repository may refuse. -/
theorem sessionCommitStaged_cases {sessionId : UInt64} {saved : Except Errno Unit} :
    (∃ e, endpoint.sessionCommitStaged sessionId owner saved = .error e) ∨
      endpoint.sessionCommitStaged sessionId owner saved = .ok (endpoint.setOwner sessionId owner) := by
  unfold sessionCommitStaged
  cases if endpoint.persistenceEnabled then saved else .ok () with
  | error e => exact .inl ⟨e, rfl⟩
  | ok => exact .inr rfl

variable {packet : PacketView} {view : SubscribeView} {identifier : UInt32}

theorem entries_valid (hidn : subscribeIdentifier packet.version view.properties = .ok identifier) :
    ∀ entry ∈ (subscriptions packet.version view.entries).1, (subscriptionOf entry identifier).Valid :=
  Reader.forall_mem_all
    (fun _ _ _ hnext => subscriptionIteratorNext_valid hnext (subscribeIdentifier_le hidn)) view.entries

variable {changed : Bool} (hsnd : endpoint.Sound)

include hsnd

variable {staged : List Subscription}

section
variable (hmem : session ∈ endpoint.sessions)
  (hidn : subscribeIdentifier packet.version view.properties = .ok identifier)
  (hloop : subscribeLoop session.owner.config.maxSubscriptions identifier (subscriptions packet.version view.entries).1
    session.owner.subscriptions false = .ok (staged, changed))
include hmem hidn hloop

theorem subscribe_valid : Subscriptions session.owner.config.maxSubscriptions staged :=
  (hsnd.subscriptions _ (mem_ledger hmem)).subscribe (entries_valid hidn) hloop

/-- The selector follows a SUBSCRIBE that the owner accepted. -/
theorem applySubscribe_spec
    (hmir : endpoint.selector.Valid endpoint.maxSessions ∧ endpoint.selector.view = held endpoint.ledger)
    (hread : (subscriptions packet.version view.entries).2 = .needMore)
    (hcnt : (subscriptions packet.version view.entries).1.length = view.entryCount) :
    ∃ selector, endpoint.applySubscribe session.sessionId packet view = .ok selector ∧
      selector.Valid endpoint.maxSessions ∧
      selector.view = (held endpoint.ledger).assign session.sessionId staged := by
  obtain ⟨hsel, hview⟩ := hmir
  rw [← assign_self hsnd hmem] at hview
  obtain ⟨selector, hupserts, hspec⟩ := upserts_spec (List.mem_toFinset.2 (mem_sessionIds hmem))
    hsnd.card_sessionIds (fun _ _ hk => List.mem_toFinset.2 (mem_of_held hk))
    (hsnd.subscriptions _ (mem_ledger hmem)) (entries_valid hidn) hloop hsel hview
  refine ⟨selector, ?_, hspec⟩
  rw [applySubscribe, hidn]
  dsimp only
  rw [hupserts, hread, hcnt]
  simp

end

theorem prepareSubscribe_kept (hmir : endpoint.Mirrors) (sessionId : UInt64) (saved : Except Errno Unit) :
    (endpoint.prepareSubscribe sessionId packet view saved).1.Kept := by
  have hkept : endpoint.Kept := ⟨hsnd, hmir⟩
  unfold prepareSubscribe
  split
  · exact hkept
  rename_i session hsess
  obtain ⟨hmem, rfl⟩ := mem_of_session hsess
  split
  · exact hkept
  rename_i staged hclo
  obtain ⟨deliveries, rfl, -⟩ := ownerClone_eq_some hclo
  split
  · exact hkept
  rename_i owner result hsub
  split
  · exact hkept
  rename_i hchg
  rcases sessionCommitStaged_cases with ⟨e, hcm⟩ | hcm
  · rw [hcm]
    exact hkept
  rw [hcm]
  rcases ownerSubscribe_eq_ok hsub with
    ⟨-, -, -, -, hread, hcnt, identifier, next, hidn, hloop, hown⟩ | ⟨hsame, -⟩
  · obtain ⟨hcfg, rfl⟩ : owner.config = session.owner.config ∧ owner.subscriptions = next := by
      rw [hown]
      exact ⟨rfl, rfl⟩
    rw [apply_ite Prod.fst]
    exact reindex_kept hsnd hmem hcfg (subscribe_valid hsnd hmem hidn hloop) fun hval =>
      applySubscribe_spec hsnd hmem hidn hloop (hmir hval) hread hcnt
  · rw [hsame] at hchg
    exact absurd rfl hchg

/-- The selector follows an UNSUBSCRIBE that the owner accepted. -/
theorem applyUnsubscribe_spec (hmem : session ∈ endpoint.sessions)
    (hmir : endpoint.selector.Valid endpoint.maxSessions ∧ endpoint.selector.view = held endpoint.ledger)
    {view : UnsubscribeView} (hread : (topicFilters view.filters).2 = .needMore)
    (hcnt : (topicFilters view.filters).1.length = view.filterCount) :
    ∃ selector, endpoint.applyUnsubscribe session.sessionId view = .ok selector ∧
      selector.Valid endpoint.maxSessions ∧
      selector.view = (held endpoint.ledger).assign session.sessionId
        (unsubscribeLoop (topicFilters view.filters).1 session.owner.subscriptions).1 := by
  obtain ⟨hsel, hview⟩ := hmir
  rw [← assign_self hsnd hmem] at hview
  obtain ⟨selector, hremovals, hspec⟩ := removals_spec (hsnd.filters _ (mem_ledger hmem)) hsel hview
  refine ⟨selector, ?_, hspec⟩
  rw [applyUnsubscribe, hremovals, hread, hcnt]
  simp

theorem prepareUnsubscribe_kept (hmir : endpoint.Mirrors) (sessionId : UInt64)
    (view : UnsubscribeView) (saved : Except Errno Unit) :
    (endpoint.prepareUnsubscribe sessionId packet view saved).1.Kept := by
  have hkept : endpoint.Kept := ⟨hsnd, hmir⟩
  unfold prepareUnsubscribe
  split
  · exact hkept
  rename_i session hsess
  obtain ⟨hmem, rfl⟩ := mem_of_session hsess
  split
  · exact hkept
  rename_i staged hclo
  obtain ⟨deliveries, rfl, -⟩ := ownerClone_eq_some hclo
  dsimp only
  split
  · exact hkept
  rename_i owner result huns
  split
  · exact hkept
  rename_i hchg
  rcases sessionCommitStaged_cases with ⟨e, hcm⟩ | hcm
  · rw [hcm]
    exact hkept
  rw [hcm]
  rcases ownerUnsubscribe_eq_ok huns with ⟨-, -, hread, hcnt, hown⟩ | ⟨hsame, -⟩
  · obtain ⟨hcfg, hsubs⟩ : owner.config = session.owner.config ∧ owner.subscriptions =
        (unsubscribeLoop (topicFilters view.filters).1 session.owner.subscriptions).1 := by
      rw [hown]
      exact ⟨rfl, rfl⟩
    rw [apply_ite Prod.fst]
    refine reindex_kept hsnd hmem hcfg ?_ fun hval => ?_
    · rw [hsubs]
      exact (hsnd.subscriptions _ (mem_ledger hmem)).of_subperm (unsubscribeLoop_subperm _ _)
    · rw [hsubs]
      exact applyUnsubscribe_spec hsnd hmem (hmir hval) hread hcnt
  · exact absurd hsame hchg

/-- A removed session is gone from the selector too, whatever the selector held for it. -/
theorem sessionRemoveOwned_kept (sessionId : UInt64)
    (hoths : endpoint.subscriptionIndexValid = true → endpoint.selector.Valid endpoint.maxSessions ∧
      ∀ filter k, k ≠ sessionId → endpoint.selector.view filter k = held endpoint.ledger filter k) :
    (endpoint.sessionRemoveOwned sessionId).Kept := by
  -- the selector first, then the sessions
  obtain ⟨removed, hrm, hsessions, hmax, hroute, hsel⟩ : ∃ removed : State,
      (if endpoint.subscriptionIndexValid then endpoint.reindex (sessionRemove endpoint.selector sessionId)
        else endpoint) = removed ∧ removed.sessions = endpoint.sessions ∧
      removed.maxSessions = endpoint.maxSessions ∧ removed.nextRouteId = endpoint.nextRouteId ∧
      (removed.subscriptionIndexValid = true → removed.selector.Valid endpoint.maxSessions ∧
        removed.selector.view = fun filter k => if k = sessionId then none else held endpoint.ledger filter k) := by
    refine ⟨_, rfl, ?_⟩
    cases hval : endpoint.subscriptionIndexValid with
    | false =>
      refine ⟨rfl, rfl, rfl, fun h => ?_⟩
      rw [if_neg Bool.false_ne_true, hval] at h
      cases h
    | true =>
      obtain ⟨hold, hview⟩ := hoths hval
      obtain ⟨selector, hok, hnew, hview'⟩ := sessionRemove_spec hold
      rw [hok]
      refine ⟨rfl, rfl, rfl, fun _ => ⟨hnew, hview'.trans ?_⟩⟩
      funext filter k
      split
      · rfl
      · rename_i hk
        exact hview filter k hk
  rw [sessionRemoveOwned, hrm, hsessions]
  cases hfind : endpoint.sessions.findIdx? (·.sessionId == sessionId) with
  | none =>
    have hled : removed.ledger = endpoint.ledger := by rw [ledger_eq, ledger_eq, hsessions]
    refine ⟨hsnd.of_ledger hled hmax (UInt64.le_of_eq hroute.symm), fun hval => ?_⟩
    rw [hmax, hled]
    refine ⟨(hsel hval).1, (hsel hval).2.trans ?_⟩
    have hnot : sessionId ∉ endpoint.ledger.sessionIds := by
      rw [sessionIds_ledger, mem_map]
      rintro ⟨session, hmem, hid⟩
      simpa [hid] using List.findIdx?_eq_none_iff.1 hfind session hmem
    funext filter k
    split
    · rename_i hk
      rw [hk, held_of_not_mem hnot]
    · rfl
  | some i =>
    obtain ⟨hlt, hkey, -⟩ := List.findIdx?_eq_some_iff_getElem.1 hfind
    have hkey : endpoint.sessions[i].sessionId = sessionId := beq_iff_eq.1 hkey
    have hget : endpoint.ledger[i]? =
        some (endpoint.sessions[i].owner.config, endpoint.sessions[i].owner.subscriptions) := by
      rw [ledger_eq, List.getElem?_map, List.getElem?_eq_getElem hlt]
      rfl
    have hled : State.ledger { removed with sessions := endpoint.sessions.swapRemove i } = endpoint.ledger.swapRemove i := by
      rw [ledger_eq, ledger_eq, map_swapRemove]
    refine ⟨?_, fun hval => ?_⟩
    · rw [Sound, hled]
      rw [hmax, hroute]
      exact Ledger.Sound.swapRemove hsnd hget
    · rw [hled]
      rw [hmax]
      refine ⟨(hsel hval).1, (hsel hval).2.trans ?_⟩
      funext filter k
      rw [Ledger.Sound.held_swapRemove hsnd hget, ← hkey]
      rfl

omit hsnd

theorem Mirrors.others (h : endpoint.Mirrors) (sessionId : UInt64) :
    endpoint.subscriptionIndexValid = true → endpoint.selector.Valid endpoint.maxSessions ∧
      ∀ filter k, k ≠ sessionId → endpoint.selector.view filter k = held endpoint.ledger filter k := by
  intro hval
  obtain ⟨hsel, hview⟩ := h hval
  exact ⟨hsel, fun filter k _ => by rw [hview]⟩

/-- Whatever happened to one session, the selector holds what the others hold. -/
theorem Touched.others {endpoint' : State} {subscriptions : List Subscription}
    (h : Touched endpoint endpoint' session subscriptions endpoint.subscriptionIndexValid)
    (hmir : endpoint.Mirrors) (hmem : session ∈ endpoint.sessions) :
    endpoint'.subscriptionIndexValid = true → endpoint'.selector.Valid endpoint'.maxSessions ∧
      ∀ filter k, k ≠ session.sessionId → endpoint'.selector.view filter k = held endpoint'.ledger filter k := by
  intro hval
  rw [h.valid] at hval
  obtain ⟨hsel, hview⟩ := hmir hval
  rw [h.selector, h.maxSessions, h.ledger]
  refine ⟨hsel, fun filter k hk => ?_⟩
  rw [hview, Ledger.held_resubscribe (mem_sessionIds hmem), if_neg hk]

/-- Sound behind the close of a session, and in agreement unless the close strands what the selector holds. -/
abbrev KeptUnless (endpoint closed : State) (session : EndpointSession) (strands : Bool) : Prop :=
  closed.Sound ∧
    (closed.Mirrors ↔ ¬(endpoint.subscriptionIndexValid = true ∧ session.owner.subscriptions ≠ [] ∧ strands = true))

theorem Kept.unless {closed : State} (h : closed.Kept) : endpoint.KeptUnless closed session false :=
  ⟨h.1, iff_of_true h.2 (by simp)⟩

variable (hsnd : endpoint.Sound)

include hsnd

theorem sessionCloseSchedule_kept (hmir : endpoint.Mirrors) (hmem : session ∈ endpoint.sessions) (answer : CloseAnswer) :
    endpoint.KeptUnless (endpoint.sessionCloseSchedule session answer).1 session
      (closeStrands endpoint.persistenceEnabled session.owner answer) := by
  generalize hdef : closeStrands endpoint.persistenceEnabled session.owner answer = strands
  have hkept : strands = false → endpoint.KeptUnless endpoint session strands := by
    intro hstr
    rw [hstr]
    exact Kept.unless ⟨hsnd, hmir⟩
  unfold sessionCloseSchedule
  cases hstg : if endpoint.persistenceEnabled then ownerClone session.owner else some session.owner with
  | none => exact hkept (hdef.symm.trans (closeStrands_of_none hstg))
  | some staged =>
    dsimp only
    cases hcl : ownerClose staged with
    | error e => exact hkept (hdef.symm.trans (closeStrands_of_error hstg hcl))
    | ok closing =>
      obtain ⟨hcfg, hsubs, hexp, hwill⟩ := ownerClose_staged hstg hcl
      have hstr := hdef.symm.trans (closeStrands_eq hstg hcl)
      -- a session that gets the closed owner loses its subscriptions when its expiry interval is zero
      have hclsd : strands = decide (session.owner.sessionExpiryInterval = 0) →
          endpoint.KeptUnless (endpoint.setOwner session.sessionId closing) session strands := by
        intro hzero
        have houtcome : Outcome endpoint (endpoint.setOwner session.sessionId closing) session strands := by
          refine Outcome.modify hsnd hmem hcfg (hsubs.trans ?_)
          simp [hzero]
        exact ⟨houtcome.sound hsnd hmem, houtcome.mirrors_iff hsnd hmem hmir⟩
      dsimp only
      rw [hexp, hwill]
      split
      · rename_i hended
        have hno : strands = false := by
          have hwillNone : session.owner.will.isSome = false := by simpa using hended.2
          rw [hstr, hwillNone, Bool.and_false, Bool.false_and]
        cases hpst : endpoint.persistenceEnabled with
        | true =>
          cases answer.deleted with
          | error e => exact hkept hno
          | ok =>
            have hrm := sessionRemoveOwned_kept hsnd session.sessionId (hmir.others _)
            rw [hno]
            exact hrm.unless
        | false =>
          rw [hno]
          have htch : Touched endpoint (endpoint.setOwner session.sessionId closing) session closing.subscriptions
              endpoint.subscriptionIndexValid := Touched.modify hsnd hmem hcfg
          have hnil : closing.subscriptions = [] := hsubs.trans (if_pos hended.1)
          have hsnd' := htch.sound hsnd hmem (hnil ▸ ⟨nodup_nil, by simp, Nat.zero_le _⟩)
          exact (sessionRemoveOwned_kept hsnd' session.sessionId (htch.others hmir hmem)).unless
      · rename_i hended
        have hpend : session.owner.sessionExpiryInterval = 0 → session.owner.will.isSome = true := by
          intro hzero
          simpa [hzero, Option.isSome_iff_ne_none] using hended
        split
        · rename_i hclock
          cases hpst : endpoint.persistenceEnabled with
          | true =>
            rw [hpst] at hstr
            refine hkept (hstr.trans ?_)
            simp [hclock.2]
          | false =>
            rw [hpst] at hstr
            refine hclsd (hstr.trans ?_)
            by_cases hzero : session.owner.sessionExpiryInterval = 0
            · simp [hzero, hpend hzero]
            · simp [hzero]
        · rename_i hclock
          have hnow : session.owner.sessionExpiryInterval = 0 → answer.now ≠ 0 :=
            fun hzero hnow => hclock ⟨.inr (hpend hzero), hnow⟩
          unfold sessionCommitStaged
          cases hsaved : if endpoint.persistenceEnabled then answer.saved else .ok () with
          | error e =>
            refine hkept (hstr.trans ?_)
            split at hsaved
            · rename_i hpst
              simp [hpst, hsaved, Except.isOk, Except.toBool]
            · cases hsaved
          | ok =>
            refine hclsd (hstr.trans ?_)
            have hdurable : endpoint.persistenceEnabled = true → answer.saved.isOk = true := by
              intro hpst
              rw [if_pos hpst] at hsaved
              rw [hsaved]
              rfl
            by_cases hzero : session.owner.sessionExpiryInterval = 0
            · have hsome := hpend hzero
              have hclockOk := hnow hzero
              cases hpst : endpoint.persistenceEnabled with
              | true => simp [hzero, hsome, hclockOk, hdurable hpst]
              | false => simp [hzero, hsome]
            · simp [hzero]

/-- A rebuild from the sessions does not fail. -/
theorem rebuild_eq :
    ∃ selector, endpoint.rebuild = ({ endpoint with selector := selector, subscriptionIndexValid := true }, .ok ()) ∧
      selector.Valid endpoint.maxSessions ∧ selector.view = held endpoint.ledger := by
  have howners : ∀ owner ∈ endpoint.owners, Subscriptions owner.config.maxSubscriptions owner.subscriptions := by
    intro owner hown
    obtain ⟨session, hmem, rfl⟩ := List.mem_map.1 hown
    exact hsnd.subscriptions _ (mem_ledger hmem)
  have hroom : endpoint.owners.length ≤ endpoint.maxSessions := by
    have hlen := hsnd.room
    rw [ledger_eq, length_map] at hlen
    rw [owners, length_map]
    exact hlen
  obtain ⟨selector, hok, hspec⟩ := indexRebuild_spec hsnd.distinct howners hroom
  exact ⟨selector, by rw [rebuild, hok], hspec⟩

theorem rebuild_kept : endpoint.rebuild.1.Kept := by
  obtain ⟨selector, hrebuild, hspec⟩ := rebuild_eq hsnd
  rw [hrebuild]
  exact ⟨hsnd.of_ledger rfl rfl (UInt64.le_refl _), fun _ => hspec⟩

variable (hmir : endpoint.Mirrors)

include hmir

/-- A fan-out finds a selector that agrees, or makes one, and moves its cursors. -/
theorem select_kept (publisherSessionId : UInt64) (topic : Bytes) : (endpoint.select publisherSessionId topic).1.Kept := by
  obtain ⟨ready, hrdy, hsnd', hmir'⟩ : ∃ ready : State,
      (if endpoint.subscriptionIndexValid then (endpoint, .ok ()) else endpoint.rebuild) = (ready, .ok ()) ∧
        ready.Kept := by
    cases endpoint.subscriptionIndexValid with
    | true => exact ⟨endpoint, rfl, hsnd, hmir⟩
    | false =>
      obtain ⟨selector, hrebuild, -⟩ := rebuild_eq hsnd
      have hkept := rebuild_kept hsnd
      rw [hrebuild] at hkept
      exact ⟨_, hrebuild, hkept⟩
  unfold select
  rw [hrdy]
  dsimp only
  cases hselect : fanoutSelect ready.owners ready.maxSessions ready.selector publisherSessionId topic with
  | error e => exact ⟨hsnd', hmir'⟩
  | ok result =>
    have hrotated := fanoutSelect_rotated hselect
    refine ⟨hsnd'.of_ledger rfl rfl (UInt64.le_refl _), fun hval => ?_⟩
    obtain ⟨hsel, hview⟩ := hmir' hval
    exact ⟨hrotated.valid hsel, hrotated.view.trans hview⟩

/-- A session that expires is removed, unless it is active again or stays in the repository. -/
theorem sessionExpire_kept (sessionId : UInt64) (deleted : Except Errno Unit) :
    (endpoint.sessionExpire sessionId deleted).Kept := by
  unfold sessionExpire
  split
  · exact ⟨hsnd, hmir⟩
  split
  · exact ⟨hsnd, hmir⟩
  split
  · exact ⟨hsnd, hmir⟩
  · exact sessionRemoveOwned_kept hsnd sessionId (hmir.others sessionId)

theorem operate_kept (sessionId : UInt64) (op : Op) : (endpoint.operate sessionId op).Kept := by
  unfold operate
  split
  · rename_i hpln
    have hled : (endpoint.modify sessionId fun session => { session with owner := next session.owner op }).ledger =
        endpoint.ledger :=
      ledger_modify_of_same (fun _ => (next_of_plain hpln).1) (fun _ => (next_of_plain hpln).2)
    exact ⟨hsnd.of_ledger hled rfl (UInt64.le_refl _), hmir.of_ledger hled rfl rfl rfl⟩
  · exact ⟨hsnd, hmir⟩

theorem clientAdd_kept : endpoint.clientAdd.Kept := by
  unfold clientAdd
  split
  · exact ⟨hsnd, hmir⟩
  · rename_i hroute
    exact ⟨hsnd.of_ledger rfl rfl (UInt64.le_of_lt (generation_lt_succ hroute)), hmir.of_ledger rfl rfl rfl rfl⟩

omit hmir

omit hsnd

end

end State

end Flowie.Endpoint
