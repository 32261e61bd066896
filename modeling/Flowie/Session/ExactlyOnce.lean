import Flowie.Session.InboundInvariant

/-!
# Retransmitted publishes

A PUBLISH that is sent again must not be lost and, at QoS 2, must not be admitted twice. A released
packet identifier answers every retransmission with PUBREC until the exchange ends or the session
is discarded. An identifier that still waits for its settlement answers nothing; a close forgets it,
but a takeover of the active session does not.
-/

namespace Flowie.Session

open Mqtt List

variable {owner : Owner}

/-- An acceptable QoS 1 or 2 PUBLISH of a live session is mapped to a message. -/
theorem publishMessageMap_live (hi : Inbound owner) (hact : owner.active = true)
    {publish : PublishView} (hqos : publish.qos = 1 ∨ publish.qos = 2) (hid : publish.packetId ≠ 0) :
    ∃ message, publishMessageMap publish owner.version owner.config.ownerInstanceId owner.config.sessionId
      owner.sessionGeneration = .ok message := by
  obtain ⟨hsupp, hgen⟩ := hi.live hact
  have hcfg := hi.config
  simp only [configValid, Bool.and_eq_true, bne_iff_ne] at hcfg
  obtain ⟨⟨⟨⟨⟨⟨⟨⟨⟨-, hinstance⟩, hsess⟩, -⟩, -⟩, -⟩, -⟩, -⟩, -⟩, -⟩ := hcfg
  have hid32 : publish.packetId.toUInt32 ≠ 0 := by
    intro h
    refine hid (UInt16.toNat_inj.1 ?_)
    rw [← UInt16.toNat_toUInt32, h]
    rfl
  have hpositive : publish.qos.toUInt32 ≠ 0 ∧ ¬publish.qos.toUInt32 > 2 ∧ ¬publish.qos > 2 := by
    cases hqos with
    | inl h => rw [h]; decide
    | inr h => rw [h]; decide
  unfold publishMessageMap
  rw [if_neg (by simp [hinstance, hsess, hgen, hsupp, hpositive.2.2])]
  have hver : owner.version.toByte.toUInt32 ≠ 0 ∧ ¬(owner.version.toByte.toUInt32 ≠ 3 ∧
      owner.version.toByte.toUInt32 ≠ 4 ∧ owner.version.toByte.toUInt32 ≠ 5) := by
    cases hv : owner.version with
    | unspecified =>
      rw [hv] at hsupp
      cases hsupp
    | v31 => decide
    | v311 => decide
    | v5 => decide
  have hflag : ∀ flag : Bool, ¬flag.toUInt8 > 1 := by decide
  have hval : messageValidate
      { headerValid := true
        protocolMqtt := true
        protocolVersion := owner.version.toByte.toUInt32
        kind := .data
        qos := publish.qos.toUInt32
        packetId := publish.packetId.toUInt32
        sessionGeneration := owner.sessionGeneration
        duplicate := publish.duplicate.toUInt8
        retain := publish.retain.toUInt8 } = .ok () := by
    unfold messageValidate
    rw [if_neg (by simp [hver.1, hflag, hgen]), if_neg]
    intro h
    rcases h with h | h | h | h
    · exact hver.2 h
    · exact hpositive.2.1 h
    · exact hpositive.1 h.1
    · exact hid32 h.2
  dsimp only
  rw [hval]
  exact ⟨_, rfl⟩

/-- A live session finds the one record of a packet identifier. -/
theorem inflightFind_of_mem (hi : Inbound owner) {entry : Inflight} (hent : entry ∈ owner.inflight) :
    ∃ index, inflightFind owner entry.packetId = some (entry, index) := by
  cases hfind : inflightFind owner entry.packetId with
  | none => exact absurd rfl (inflightFind_eq_none.1 hfind entry hent)
  | some found =>
    obtain ⟨e, index⟩ := found
    obtain ⟨hget, hid⟩ := inflightFind_eq_some hfind
    exact ⟨index, by rw [hi.eq_of_packetId (mem_of_getElem? hget) hent hid]⟩

/-- The packet identifier was answered with PUBREC and not yet released. -/
def Released (packetId : UInt16) (owner : Owner) : Prop :=
  ∃ entry ∈ owner.inflight, entry.packetId = packetId ∧ entry.qos = 2 ∧ entry.state = .qos2Release

/-- All that a QoS 2 PUBLISH needs beside a packet identifier that is not recorded. -/
def Admissible (owner : Owner) (publish : PublishView) : Prop :=
  owner.active = true ∧
    (∃ message, publishMessageMap publish owner.version owner.config.ownerInstanceId owner.config.sessionId
      owner.sessionGeneration = .ok message) ∧
    owner.inflight.length < owner.config.maxInflight ∧ owner.resourceGeneration ≠ uint64Max

section

variable [Vstr]

/-- The operation ends the QoS 2 exchange of the packet identifier, or discards the session. -/
def ends (packetId : UInt16) (owner : Owner) (op : Op) : Bool :=
  match op, step owner op with
  | .qos2Release _ id, .ok _ => id == packetId
  | .connect view _, .ok (_, .connected result) => view.cleanStart && result.accepted
  | .close, .ok _ => owner.sessionExpiryInterval == 0
  | _, _ => false

/-- No operation of the run ends the exchange of the packet identifier. -/
def Undisturbed (packetId : UInt16) (owner : Owner) (ops : List Op) : Prop :=
  Along (fun owner op => ends packetId owner op = false) owner ops

variable {owner owner' : Owner} {packetId : UInt16}

omit [Vstr] in
/-- A record that stays keeps its identifier released. -/
theorem Released.of_mem (h : Released packetId owner)
    (hkeep : ∀ entry ∈ owner.inflight, entry.packetId = packetId → entry.state = .qos2Release →
      entry ∈ owner'.inflight) : Released packetId owner' := by
  obtain ⟨entry, hmem, hid, hqos, hst⟩ := h
  exact ⟨entry, hkeep entry hmem hid hst, hid, hqos, hst⟩

omit [Vstr] in
/-- A removal takes out only the record it is made for. -/
theorem mem_swapRemove_of_ne {inflight : List Inflight} {index : Nat} {removed entry : Inflight}
    (hrm : inflight[index]? = some removed) (hmem : entry ∈ inflight) (hne : entry ≠ removed) :
    entry ∈ inflight.swapRemove index :=
  (List.mem_cons.1 ((List.cons_swapRemove_perm hrm).mem_iff.2 hmem)).resolve_left hne

variable {op : Op} {reply : Reply}

/-- A step that does not end the exchange keeps the identifier released. -/
theorem Released.step (hreleased : Released packetId owner)
    (h : Session.step owner op = .ok (owner', reply)) (hends : ends packetId owner op = false) :
    Released packetId owner' := by
  cases step_transition h with
  | opened view takeover expiry will result hchk hexp hwill hacc =>
    have hcln : view.cleanStart = false := by simpa [ends, h, hacc] using hends
    refine hreleased.of_mem fun entry hmem _ _ => ?_
    show entry ∈ (if view.cleanStart then inflightClear false owner.inflight else owner.inflight)
    rw [hcln]
    exact hmem
  | closed hact =>
    have hexp : owner.sessionExpiryInterval ≠ 0 := by simpa [ends, h] using hends
    refine hreleased.of_mem fun entry hmem _ hst => ?_
    unfold Session.closed
    rw [if_neg (show ¬owner.advanced.sessionExpiryInterval = 0 from hexp)]
    exact mem_inflightClear.2 ⟨hmem, rfl, hst⟩
  | begun => exact hreleased.of_mem fun entry hmem _ _ => mem_append_left _ hmem
  | puback route request entry index hent hst =>
    refine hreleased.of_mem fun e hmem _ hrel => mem_swapRemove_of_ne hent hmem ?_
    intro heq
    rw [heq, hst] at hrel
    cases hrel
  | pubrec route request entry index hact hent hst =>
    refine hreleased.of_mem fun e hmem _ hrel => ?_
    obtain ⟨j, hj⟩ := List.getElem?_of_mem hmem
    have hne : index ≠ j := by
      intro heq
      rw [heq, hj] at hent
      rw [Option.some.inj hent, hst] at hrel
      cases hrel
    exact mem_of_getElem? (i := j) (by rw [List.getElem?_set_ne hne, hj])
  | pubcomp route entry index hent hst =>
    have hne : entry.packetId ≠ packetId := by simpa [ends, h] using hends
    refine hreleased.of_mem fun e hmem hid _ => mem_swapRemove_of_ne hent hmem ?_
    intro heq
    exact hne (heq ▸ hid)
  | _ => exact hreleased

variable {ops : List Op}

theorem Released.run (hrel : Released packetId owner) (h : Undisturbed packetId owner ops) :
    Released packetId (Session.run owner ops) := by
  induction ops generalizing owner with
  | nil => exact hrel
  | cons op ops ih =>
    refine ih ?_ h.2
    unfold next
    split
    · rename_i o reply hstep
      exact hrel.step hstep h.1
    · exact hrel

omit [Vstr] in
theorem released_of_settle (hi : Inbound owner) {route : Route} {request : SettlementRequest}
    (h : publishSettle owner route request = .ok (owner', ⟨.pubrec, packetId⟩)) : Released packetId owner' := by
  obtain ⟨-, -, entry, index, hent, -, hcase⟩ := publishSettle_eq_ok h
  rcases hcase with ⟨-, hintent, -⟩ | ⟨hqos, hintent, rfl⟩
  · cases hintent
  cases hintent
  have hqos2 := (hi.entry entry (mem_of_getElem? hent)).2.1.resolve_left hqos
  have hlt := (List.getElem?_eq_some_iff.1 hent).1
  exact ⟨_, mem_set hlt _, rfl, hqos2, rfl⟩

variable {publish : PublishView}

omit [Vstr] in
/-- What a QoS 2 PUBLISH of a released identifier gets. -/
theorem publishBegin_released (hi : Inbound owner) (hrel : Released packetId owner)
    (hqos : publish.qos = 2) (hid : publish.packetId = packetId) :
    if owner.active then
      if publish.duplicate then
        ∃ message, publishBegin owner publish = .ok (owner, ⟨false, message, some ⟨.pubrec, packetId⟩⟩)
      else publishBegin owner publish = .error .eproto
    else publishBegin owner publish = .error .ebusy := by
  obtain ⟨entry, hmem, rfl, hentryQos, hst⟩ := hrel
  split
  · rename_i hact
    have hne : publish.packetId ≠ 0 := hid ▸ (hi.entry entry hmem).1
    obtain ⟨message, hmap⟩ := publishMessageMap_live hi hact (.inr hqos) hne
    obtain ⟨index, hfind⟩ := inflightFind_of_mem hi hmem
    have hqos0 : publish.qos ≠ 0 := by rw [hqos]; decide
    simp only [publishBegin, hact, hmap, hid, hfind, hqos, hentryQos, hst]
    split
    · rename_i hdup
      exact ⟨message, by simp [hdup]⟩
    · rename_i hdup
      simp [hdup]
  · rename_i hact
    simp [publishBegin, hact]

/-- Exactly once: after `publish_settle` has answered a packet identifier with PUBREC, no run that
    does not end its exchange leads to a state that admits a QoS 2 PUBLISH of it. On the connection
    every retransmission is answered with PUBREC and changes nothing, and a PUBLISH on a closed
    session is refused. -/
theorem publish_admitted_once {config : SessionConfig} {created settled : Owner} {before after : List Op}
    {route : Route} {request : SettlementRequest} {packetId : UInt16} (hcr : ownerCreate config = some created)
    (hsettle : publishSettle (Session.run created before) route request = .ok (settled, ⟨.pubrec, packetId⟩))
    (hkeep : Undisturbed packetId settled after) (publish : PublishView) (hqos : publish.qos = 2)
    (hid : publish.packetId = packetId) :
    (∀ owner' result, publishBegin (Session.run settled after) publish = .ok (owner', result) →
      result.admitApplication = false) ∧
    (publish.duplicate = true →
      ((Session.run settled after).active = true → ∃ message, publishBegin (Session.run settled after) publish =
        .ok (Session.run settled after, ⟨false, message, some ⟨.pubrec, packetId⟩⟩)) ∧
      ((Session.run settled after).active = false →
        publishBegin (Session.run settled after) publish = .error .ebusy)) := by
  have hbef : Inbound (Session.run created before) := (Inbound.create hcr).run
  have hsettled : Inbound settled := hbef.transition (publishSettle_transition hsettle)
  have hrel : Released packetId (Session.run settled after) := (released_of_settle hbef hsettle).run hkeep
  have hbeg := publishBegin_released hsettled.run hrel hqos hid
  refine ⟨?_, ?_⟩
  · intro owner' result hok
    split at hbeg
    · split at hbeg
      · obtain ⟨message, hbeg⟩ := hbeg
        rw [hbeg] at hok
        cases hok
        rfl
      · rw [hbeg] at hok
        cases hok
    · rw [hbeg] at hok
      cases hok
  · intro hdup
    refine ⟨?_, ?_⟩
    · intro hact
      rw [if_pos hact, if_pos hdup] at hbeg
      exact hbeg
    · intro hidle
      rw [if_neg (by simp [hidle])] at hbeg
      exact hbeg

/-- What a new connection owes to the publishes of the one before that got no acknowledgement: none
    of them is waited for any more, so that the retransmission of one is admitted again while there
    is room for it. -/
structure Forgotten (owner : Owner) : Prop where
  unsettled : ∀ entry ∈ owner.inflight, entry.state ≠ .settlement
  readmitted : ∀ publish : PublishView, publish.duplicate = true → publish.qos = 1 ∨ publish.qos = 2 →
    publish.packetId ≠ 0 → ¬Released publish.packetId owner → owner.inflight.length < owner.config.maxInflight →
    owner.resourceGeneration ≠ uint64Max →
    ∃ owner' result, publishBegin owner publish = .ok (owner', result) ∧ result.admitApplication = true

omit [Vstr] in
theorem forgotten_of_unsettled (hi : Inbound owner) (hact : owner.active = true)
    (h : ∀ entry ∈ owner.inflight, entry.state ≠ .settlement) : Forgotten owner := by
  refine ⟨h, ?_⟩
  intro publish hdup hqos hid hnotReleased hsp hgen
  obtain ⟨message, hmap⟩ := publishMessageMap_live hi hact hqos hid
  have hqos0 : publish.qos ≠ 0 := by
    cases hqos with
    | inl h1 => rw [h1]; decide
    | inr h2 => rw [h2]; decide
  have hfind : inflightFind owner publish.packetId = none := by
    rw [inflightFind_eq_none]
    intro entry hmem hsame
    have hst : entry.state = .qos2Release := by
      cases hs : entry.state with
      | settlement => exact absurd hs (h entry hmem)
      | qos2Release => rfl
    exact hnotReleased ⟨entry, hmem, hsame, (hi.entry entry hmem).2.2 hst, hst⟩
  have hfull : ¬owner.inflight.length ≥ owner.config.maxInflight := by omega
  simp only [publishBegin, hact, hmap, hfind, if_neg hqos0, if_neg hfull, if_neg hgen]
  exact ⟨_, _, rfl, rfl⟩

/-- An accepted CONNECT forgets the unacknowledged publishes exactly when it starts clean, or finds
    the session without a connection, or finds no publish that waits for its settlement. A takeover
    that keeps the session keeps them. -/
theorem connect_forgets_iff {config : SessionConfig} {created : Owner} (hcr : ownerCreate config = some created)
    (ops : List Op) (view : ConnectView) (takeover : Bool) {result : ConnectResult}
    (hconn : ownerConnect (Session.run created ops) view takeover = .ok (owner', result))
    (hacc : result.accepted = true) :
    Forgotten owner' ↔ view.cleanStart = true ∨ (Session.run created ops).active = false ∨
      ∀ entry ∈ (Session.run created ops).inflight, entry.state ≠ .settlement := by
  have hi : Inbound (Session.run created ops) := (Inbound.create hcr).run
  have hi' : Inbound owner' := hi.transition (ownerConnect_transition hconn)
  rcases ownerConnect_eq_ok hconn with ⟨-, -, expiry, will, -, -, -, rfl⟩ | ⟨href, -⟩
  · constructor
    · intro hforgotten
      cases hcln : view.cleanStart with
      | true => exact .inl rfl
      | false =>
        refine .inr (.inr fun entry hmem => hforgotten.unsettled entry ?_)
        show entry ∈ (if view.cleanStart then _ else _)
        rw [hcln]
        exact hmem
    · intro hcondition
      refine forgotten_of_unsettled hi' rfl fun entry hmem => ?_
      have hmem : entry ∈ (if view.cleanStart then inflightClear false (Session.run created ops).inflight
        else (Session.run created ops).inflight) := hmem
      split at hmem
      · rw [inflightClear_false] at hmem
        cases hmem
      rename_i hcln
      rcases hcondition with hyes | hidle | hnone
      · exact absurd hyes hcln
      · rw [hi.idle hidle entry hmem]
        decide
      · exact hnone entry hmem
  · rw [hacc] at href
    cases href

omit [Vstr] in
/-- A QoS 2 PUBLISH is admitted exactly when its packet identifier is not recorded, and there is room. -/
theorem publishBegin_admits_iff (hqos : publish.qos = 2) :
    (∃ owner' result, publishBegin owner publish = .ok (owner', result) ∧ result.admitApplication = true) ↔
      inflightFind owner publish.packetId = none ∧ Admissible owner publish := by
  have hqos0 : publish.qos ≠ 0 := by rw [hqos]; decide
  unfold publishBegin Admissible
  constructor
  · rintro ⟨owner', result, h, hadmit⟩
    split at h
    · cases h
    rename_i hact
    split at h
    · cases h
    rename_i message hmap
    split at h
    · split at h
      · cases h
      split at h
      · cases h
        cases hadmit
      · cases h
        cases hadmit
    · rename_i hfind
      split_ifs at h
      · exact ⟨hfind, by simpa using hact, ⟨message, hmap⟩, by omega, ‹_›⟩
  · rintro ⟨hfind, hact, ⟨message, hmap⟩, hroom, hgen⟩
    rw [if_neg (by simp [hact]), hmap]
    dsimp only
    rw [if_neg hqos0, hfind]
    rw [if_neg (by omega), if_neg hgen]
    exact ⟨_, _, rfl, rfl⟩

/-- A packet identifier is only recorded by the PUBLISH that has it. -/
theorem Transition.unrecorded (h : Transition owner op owner' reply) (hfree : inflightFind owner packetId = none)
    (hop : ∀ publish, op = .publishBegin publish → publish.packetId ≠ packetId) : inflightFind owner' packetId = none := by
  rw [inflightFind_eq_none] at hfree ⊢
  cases h with
  | opened view takeover expiry will result hchk hexp hwill hacc =>
    intro entry hmem
    have hmem : entry ∈ (if view.cleanStart then inflightClear false owner.inflight else owner.inflight) := hmem
    split at hmem
    · exact hfree entry (mem_inflightClear.1 hmem).1
    · exact hfree entry hmem
  | closed hact =>
    intro entry hmem
    unfold Session.closed at hmem
    split at hmem <;> exact hfree entry (mem_inflightClear.1 hmem).1
  | begun publish =>
    intro entry hmem
    rcases List.mem_append.1 hmem with hold | hnew
    · exact hfree entry hold
    · rw [List.mem_singleton.1 hnew]
      exact hop publish rfl
  | puback route request entry index hent =>
    intro e hmem
    exact hfree e ((cons_swapRemove_perm hent).mem_iff.1 (mem_cons_of_mem _ hmem))
  | pubrec route request entry index hact hent =>
    intro e hmem
    rcases mem_or_eq_of_mem_set hmem with hold | rfl
    · exact hfree e hold
    · exact hfree entry (mem_of_getElem? hent)
  | pubcomp route entry index hent =>
    intro e hmem
    exact hfree e ((cons_swapRemove_perm hent).mem_iff.1 (mem_cons_of_mem _ hmem))
  | _ => exact hfree

theorem unrecorded_run (hfree : inflightFind owner packetId = none)
    (hops : ∀ publish, .publishBegin publish ∈ ops → publish.packetId ≠ packetId) :
    inflightFind (Session.run owner ops) packetId = none :=
  run_induction (P := fun owner => inflightFind owner packetId = none) ops hfree
    fun _ _ _ _ hmem h htrans => htrans.unrecorded h fun publish heq => hops publish (heq ▸ hmem)

end

section Example

attribute [local instance] asciiVstr

/-- A QoS 2 PUBLISH that was settled before the connection was lost is answered again on the next
    connection. -/
theorem publish_admitted_once_resumed :
    ∃ settled, publishSettle (run smallOwner [.connect persistentConnect false, .publishBegin (samplePublish 2 5 false)])
        ⟨true, true, 1, 7, 1⟩ (sampleRequest 5) = .ok (settled, ⟨.pubrec, 5⟩) ∧
      Undisturbed 5 settled [.close, .connect persistentConnect false] ∧
      ∃ message, publishBegin (run settled [.close, .connect persistentConnect false]) (samplePublish 2 5 true) =
        .ok (run settled [.close, .connect persistentConnect false], ⟨false, message, some ⟨.pubrec, 5⟩⟩) := by
  refine ⟨_, rfl, ⟨rfl, rfl, trivial⟩, ?_⟩
  have honce := publish_admitted_once ownerCreate_smallConfig
    (show publishSettle (run smallOwner [.connect persistentConnect false, .publishBegin (samplePublish 2 5 false)])
      ⟨true, true, 1, 7, 1⟩ (sampleRequest 5) = .ok (_, ⟨.pubrec, 5⟩) from rfl)
    (show Undisturbed 5 _ [.close, .connect persistentConnect false] from ⟨rfl, rfl, trivial⟩)
    (samplePublish 2 5 true) rfl rfl
  exact (honce.2 rfl).1 rfl

/-- A session whose connection was lost forgets what was not acknowledged. -/
theorem connect_forgets_after_close :
    ∃ owner result,
      ownerConnect (run smallOwner [.connect persistentConnect false, .publishBegin (samplePublish 1 5 false), .close])
        persistentConnect false = .ok (owner, result) ∧ result.accepted = true ∧ Forgotten owner :=
  ⟨_, _, rfl, rfl, (connect_forgets_iff ownerCreate_smallConfig
    [.connect persistentConnect false, .publishBegin (samplePublish 1 5 false), .close] persistentConnect false
    rfl rfl).2 (.inr (.inl rfl))⟩

def takenOver : Owner :=
  run smallOwner [.connect persistentConnect false, .publishBegin (samplePublish 1 5 false)]

/-- After the takeover the identifier still waits for its settlement, and the retransmission is
    neither admitted nor acknowledged; its settlement for the first connection is refused. -/
theorem takeover_swallows_retransmission :
    ∃ owner result, ownerConnect takenOver persistentConnect true = .ok (owner, result) ∧ result.accepted = true ∧
      owner.inflight = [⟨5, 1, .settlement⟩] ∧
      (publishBegin owner (samplePublish 1 5 true)).map (fun r => (r.2.admitApplication, r.2.ack)) =
        .ok (false, none) ∧
      (ownerRoute takenOver).map (routeCheck owner) = .ok (.error .ebusy) ∧ ¬Forgotten owner := by
  refine ⟨_, _, rfl, rfl, rfl, rfl, rfl, ?_⟩
  intro hforgotten
  exact hforgotten.unsettled _ (List.mem_singleton.2 rfl) rfl

end Example

end Flowie.Session
