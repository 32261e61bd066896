import Flowie.Mqtt.ClientRoundTrip
import Flowie.Session.DeliveryPackets
import Flowie.Session.InboundInvariant

/-!
# What a session keeps durably

The subscriptions, the Will and the deliveries of a session in every run whose CONNECT packets were
parsed and whose deliveries are committed with the PUBLISH that was encoded for them.
-/

namespace Flowie.Session

open Mqtt List

section Subscriptions

variable [Vstr]

structure Subscription.Valid (subscription : Subscription) : Prop where
  filter : topicFilterValidate subscription.filter = true
  qos : subscription.qos ≤ 2
  retainHandling : subscription.retainHandling ≤ 2
  identifier : subscription.subscriptionIdentifier.toNat ≤ maxRemainingLength

/-- The subscriptions of a session with room for `capacity` of them. -/
structure Subscriptions (capacity : Nat) (subscriptions : List Subscription) : Prop where
  distinct : (subscriptions.map (·.filter)).Nodup
  valid : ∀ subscription ∈ subscriptions, subscription.Valid
  room : subscriptions.length ≤ capacity

variable {entry : SubscriptionView} {identifier : UInt32} {version : Version} {bytes rest : Bytes}

theorem subscriptionIteratorNext_valid
    (h : subscriptionIteratorNext version bytes = .ok (entry, rest)) (hidn : identifier.toNat ≤ maxRemainingLength) :
    (subscriptionOf entry identifier).Valid := by
  obtain ⟨-, hfil, hqos, hhnd, -⟩ :=
    subscriptionCheck_eq_ok.1 ((agrees_subscriptionIteratorNext version _ _ _).1 h).1
  exact ⟨hfil, hqos, hhnd, hidn⟩

/-- A subscription identifier is a variable byte integer. -/
theorem propertyIteratorNext_identifier {property : Property}
    (h : propertyIteratorNext bytes = .ok (property, rest)) (hid : property.identifier = .subscriptionIdentifier) :
    property.integer ≤ maxRemainingLength := by
  obtain ⟨-, -, tail, -, -, -, -, hvl, -, -⟩ := propertyIteratorNext_eq_ok h
  rw [hid] at hvl
  unfold propertyValue at hvl
  dsimp only [propertyType] at hvl
  split at hvl
  · cases hvl
  rename_i integer after hvbi
  cases hvl
  exact ((agrees_vbi _ _ _).1 hvbi).1

theorem subscribeIdentifier_le {values : Bytes} (h : subscribeIdentifier version values = .ok identifier) :
    identifier.toNat ≤ maxRemainingLength := by
  unfold subscribeIdentifier at h
  split at h
  · split at h
    · obtain rfl := Except.ok.inj h
      cases hlast : ((properties values).1.filter (·.identifier == .subscriptionIdentifier)).getLast? with
      | none => exact Nat.zero_le _
      | some property =>
        have hmem := mem_of_getLast? hlast
        rw [mem_filter] at hmem
        have hall : ∀ p ∈ (properties values).1, p.identifier = .subscriptionIdentifier →
            p.integer ≤ maxRemainingLength :=
          Reader.forall_mem_all (fun _ _ _ hnext => propertyIteratorNext_identifier hnext) values
        have hle := hall property hmem.1 (by simpa using hmem.2)
        show (UInt32.ofNat property.integer).toNat ≤ maxRemainingLength
        rw [UInt32.toNat_ofNat']
        exact Nat.le_trans (Nat.mod_le _ _) hle
    · cases h
  · cases h
    exact Nat.zero_le _

variable {capacity : Nat} {staged : List Subscription} {changed changed' : Bool} {subscriptions : List Subscription}

section
variable (h : subscriptionApply capacity entry identifier subscriptions changed = .ok (staged, changed'))
include h
omit [Vstr]

/-- An entry takes the place of the subscription to its filter, or is added where there is room for it. -/
theorem subscriptionApply_eq_ok :
    (∃ i old, subscriptions[i]? = some old ∧ old.filter = entry.filter ∧
        staged = subscriptions.set i (subscriptionOf entry identifier)) ∨
      (∀ old ∈ subscriptions, old.filter ≠ entry.filter) ∧ subscriptions.length < capacity ∧
        staged = subscriptions ++ [subscriptionOf entry identifier] := by
  unfold subscriptionApply at h
  split at h
  · rename_i i hfind
    obtain ⟨hlt, hkey, -⟩ := List.findIdx?_eq_some_iff_getElem.1 hfind
    refine .inl ⟨i, _, List.getElem?_eq_getElem hlt, beq_iff_eq.1 hkey, ?_⟩
    split at h
    · rename_i hsame
      cases h
      obtain ⟨_, hsame⟩ := List.getElem?_eq_some_iff.1 hsame
      rw [← hsame, List.set_getElem_self]
    · cases h
      rfl
  · rename_i hfind
    split_ifs at h
    cases h
    rw [List.findIdx?_eq_none_iff] at hfind
    exact .inr ⟨fun old hmem => by simpa using hfind old hmem, by omega, rfl⟩

theorem subscriptionApply_room (hroom : subscriptions.length ≤ capacity) : staged.length ≤ capacity := by
  rcases subscriptionApply_eq_ok h with ⟨i, old, -, -, rfl⟩ | ⟨-, hsp, rfl⟩
  · rw [List.length_set]
    exact hroom
  · rw [List.length_append]
    exact hsp

end

variable {entries : List SubscriptionView}

omit [Vstr] in
theorem subscribeLoop_room (hroom : subscriptions.length ≤ capacity)
    (h : subscribeLoop capacity identifier entries subscriptions changed = .ok (staged, changed')) :
    staged.length ≤ capacity := by
  induction entries generalizing subscriptions changed with
  | nil =>
    cases h
    exact hroom
  | cons entry rest ih =>
    unfold subscribeLoop at h
    split at h
    · cases h
    · rename_i happ
      exact ih (subscriptionApply_room happ hroom) h

section
variable (hs : Subscriptions capacity subscriptions)
include hs

/-- One entry of a SUBSCRIBE replaces the subscription of its filter or is new. -/
theorem Subscriptions.apply (hent : (subscriptionOf entry identifier).Valid)
    (h : subscriptionApply capacity entry identifier subscriptions changed = .ok (staged, changed')) :
    Subscriptions capacity staged := by
  have hroom := subscriptionApply_room h hs.room
  rcases subscriptionApply_eq_ok h with ⟨i, old, hold, hkey, rfl⟩ | ⟨hnew, -, rfl⟩
  · constructor
    · rw [KeyedList.map_set_of_key hold (show (subscriptionOf entry identifier).filter = old.filter from hkey.symm)]
      exact hs.distinct
    · intro subscription hmem
      rcases mem_or_eq_of_mem_set hmem with hold | rfl
      · exact hs.valid subscription hold
      · exact hent
    · exact hroom
  · constructor
    · exact KeyedList.nodup_append hs.distinct hnew
    · intro subscription hmem
      rcases List.mem_append.1 hmem with hold | hnew
      · exact hs.valid subscription hold
      · rw [List.mem_singleton.1 hnew]
        exact hent
    · exact hroom

theorem Subscriptions.subscribe (hents : ∀ entry ∈ entries, (subscriptionOf entry identifier).Valid)
    (h : subscribeLoop capacity identifier entries subscriptions changed = .ok (staged, changed')) :
    Subscriptions capacity staged := by
  induction entries generalizing subscriptions changed with
  | nil =>
    cases h
    exact hs
  | cons entry rest ih =>
    unfold subscribeLoop at h
    split at h
    · cases h
    rename_i next _ happ
    have hnext := hs.apply (hents entry mem_cons_self) happ
    exact ih hnext (fun e he => hents e (mem_cons_of_mem _ he)) h

theorem Subscriptions.of_subperm {kept : List Subscription}
    (hsub : kept.Subperm subscriptions) : Subscriptions capacity kept :=
  ⟨KeyedList.nodup_of_subperm hs.distinct hsub, fun s hmem => hs.valid s (hsub.subset hmem),
    Nat.le_trans hsub.length_le hs.room⟩

end

omit [Vstr] in
theorem unsubscribeLoop_subperm (filters : List Bytes) (subscriptions : List Subscription) :
    (unsubscribeLoop filters subscriptions).1.Subperm subscriptions := by
  induction filters generalizing subscriptions with
  | nil => exact List.Subperm.refl _
  | cons filter rest ih =>
    have hfst : (subscriptionRemove subscriptions filter).1.Subperm subscriptions := by
      unfold subscriptionRemove
      split
      · rename_i i hfind
        obtain ⟨hlt, -, -⟩ := List.findIdx?_eq_some_iff_getElem.1 hfind
        exact swapRemove_subperm (List.getElem?_eq_getElem hlt)
      · exact List.Subperm.refl _
    exact (ih _).trans hfst

end Subscriptions

section Connect

variable [Vstr]

structure Will.Valid (will : Will) : Prop where
  topic : topicNameValidate will.topic = true
  qos : will.qos ≤ 2
  properties : will.properties.length ≤ maxRemainingLength
  payload : will.payload.length ≤ 65535

variable {version : Version} {bytes values rest : Bytes}

theorem versionedProperties_length {allowed repeatable present : List PropertyId}
    (h : versionedProperties version allowed repeatable bytes = .ok (values, present, rest)) :
    values.length ≤ maxRemainingLength := by
  unfold versionedProperties at h
  split at h
  · split at h
    · cases h
    rename_i vs after htyped
    split at h
    · cases h
    cases h
    obtain ⟨head, rfl, hrd⟩ := typedPropertyBlock_eq_ok htyped
    exact ((agrees_vbi _ _ _).1 (hrd [])).1
  · cases h
    exact Nat.zero_le _

theorem willParse_eq_ok {topic payload : Bytes} (h : willParse version bytes = .ok (values, topic, payload, rest)) :
    topicNameValidate topic = true ∧ values.length ≤ maxRemainingLength ∧ payload.length ≤ 65535 := by
  unfold willParse at h
  split at h
  · cases h
  rename_i vs present after hprp
  split at h
  · cases h
  split at h
  · cases h
  rename_i htop
  split at h
  · cases h
  rename_i value tail hpay
  cases h
  have hspan := lengthSpanInputValidate_iff.1 ((agrees_lengthSpan _ _ _ _).1 hpay).1
  exact ⟨by simpa using htop, versionedProperties_length hprp, hspan.1⟩

variable {packet : PacketView} {view : ConnectView}

theorem connectParse_will (h : connectParse packet = .ok view) :
    view.willQos ≤ 2 ∧ (view.willTopic ≠ [] → topicNameValidate view.willTopic = true) ∧
      view.willProperties.length ≤ maxRemainingLength ∧ view.willPayload.length ≤ 65535 := by
  obtain ⟨-, hqos, ⟨bytes, rest, hwill⟩ | hnone⟩ := connectParse_eq_ok h
  · obtain ⟨htop, hvls, hpay⟩ := willParse_eq_ok hwill
    exact ⟨hqos, fun _ => htop, hvls, hpay⟩
  · simp [hqos, hnone]

theorem connectWill_valid {will : Option Will}
    (hpar : connectParse packet = .ok view) (h : connectWill view = .ok will) : ∀ w, will = some w → w.Valid := by
  obtain ⟨hqos, htop, hprp, hpay⟩ := connectParse_will hpar
  unfold connectWill at h
  split at h
  · cases h
    intro w hw
    cases hw
  · rename_i hpres
    split at h
    · cases h
    cases h
    intro w hw
    cases hw
    exact ⟨htop (by simpa using hpres), hqos, hprp, hpay⟩

end Connect

section

variable [Vstr]

structure Delivery.Stands (version : Version) (delivery : Delivery) : Prop where
  packetId : delivery.packetId ≠ 0
  qos : delivery.qos = 1 ∨ delivery.qos = 2
  packet : delivery.state ≠ .reserved → delivery.Sound version

/-- The durable part of a session that runs can reach. -/
structure Durable (owner : Owner) : Prop where
  generation : owner.resourceGeneration ≠ 0
  client : owner.initialized = true → ∃ clientId, owner.clientId = some clientId ∧ clientId ≠ [] ∧
    clientId.length ≤ uint16Max.toNat ∧ utf8Validate clientId = true
  session : owner.initialized = true → owner.version.supported = true ∧ owner.sessionGeneration ≠ 0
  active : owner.active = true → owner.initialized = true
  fresh : owner.initialized = false → owner.deliveries.entries = []
  subscriptions : Subscriptions owner.config.maxSubscriptions owner.subscriptions
  deliveries : ∀ delivery ∈ owner.deliveries.entries, delivery.Stands owner.version
  will : ∀ will, owner.will = some will → will.Valid

/-- How the operations are called: a CONNECT was parsed, and a delivery is committed with the PUBLISH that
    was encoded for it. -/
def Op.WellFormed (owner : Owner) : Op → Prop
  | .connect view _ => ∃ packet, connectParse packet = .ok view
  | .commit packetId bytes _ _ =>
    ∀ delivery index, deliveryLookup owner packetId = .ok (delivery, index) →
      ∃ publish capacity, publishPacketEncode publish capacity = .ok bytes ∧ publish.version = owner.version ∧
        publish.packetId = packetId ∧ publish.qos = delivery.qos
  | _ => True

namespace Durable

variable {owner owner' : Owner}

theorem create {config : SessionConfig} (h : ownerCreate config = some owner) : Durable owner := by
  unfold ownerCreate at h
  split at h
  · cases h
    exact
      { generation := show (1 : UInt64) ≠ 0 by decide
        client := Bool.noConfusion
        session := Bool.noConfusion
        active := Bool.noConfusion
        fresh := fun _ => rfl
        subscriptions := ⟨nodup_nil, by simp, Nat.zero_le _⟩
        deliveries := by simp [IndexedVec.empty]
        will := by simp }
  · cases h

section
variable (h : Durable owner)
include h

theorem advanced (hgen : owner.resourceGeneration ≠ uint64Max) : Durable owner.advanced :=
  { h with generation := generation_succ_ne_zero hgen }

variable {deliveries : IndexedVec Delivery.packetId}

/-- Another delivery table, of deliveries that stand. -/
theorem withDeliveries (hfr : owner.initialized = false → deliveries.entries = [])
    (hstand : ∀ delivery ∈ deliveries.entries, delivery.Stands owner.version) :
    Durable { owner with deliveries := deliveries } :=
  { h with fresh := hfr, deliveries := hstand }

/-- A part of the deliveries stays. -/
theorem keepDeliveries
    (hsub : deliveries.entries ⊆ owner.deliveries.entries) : Durable { owner with deliveries := deliveries } := by
  apply h.withDeliveries
  · intro hinit
    rw [h.fresh hinit] at hsub
    exact List.subset_nil.1 hsub
  · exact fun delivery hmem => h.deliveries delivery (hsub hmem)

/-- The delivery at a place is exchanged for one that stands. -/
theorem modifyDelivery {index : Nat} {f : Delivery → Delivery}
    {hf : ∀ delivery, (f delivery).packetId = delivery.packetId} {delivery : Delivery}
    (hent : owner.deliveries.entries[index]? = some delivery) (hstand : (f delivery).Stands owner.version) :
    Durable (deliveryModifyAt owner index f hf) := by
  apply h.withDeliveries
  · intro hinit
    rw [h.fresh hinit] at hent
    cases hent
  · intro d hmem
    rcases IndexedVec.mem_modifyAt hmem with hold | ⟨old, hold, rfl⟩
    · exact h.deliveries d hold
    · obtain rfl : delivery = old := Option.mem_unique hent hold
      exact hstand

theorem opened {view : ConnectView} {takeover : Bool} {expiry : UInt32} {will : Option Will}
    (hopen : Openable owner view takeover) (hwill : ∀ w, will = some w → w.Valid) :
    Durable (Session.opened owner view expiry will) := by
  constructor
  · exact generation_succ_ne_zero hopen.resourceGeneration
  · intro _
    refine ⟨view.clientId, ?_, hopen.nonempty, hopen.length, hopen.utf8⟩
    show (if owner.initialized = true then owner.clientId else some view.clientId) = some view.clientId
    split
    · rename_i hinit
      exact hopen.sameClient hinit
    · rfl
  · exact fun _ => ⟨hopen.supported, generation_succ_ne_zero hopen.sessionGeneration⟩
  · exact fun _ => rfl
  · exact fun hinit => Bool.noConfusion hinit
  · show Subscriptions _ (if view.cleanStart = true then [] else owner.subscriptions)
    split
    · exact h.subscriptions.of_subperm nil_subperm
    · exact h.subscriptions
  · show ∀ delivery ∈ (if view.cleanStart = true then .empty else owner.deliveries : IndexedVec _).entries,
      delivery.Stands view.version
    split
    · simp [IndexedVec.empty]
    rename_i hcln
    cases hinit : owner.initialized with
    | false =>
      rw [h.fresh hinit]
      simp
    | true =>
      rw [← hopen.sameVersion hinit (by simpa using hcln)]
      exact h.deliveries
  · exact hwill

end

omit [Vstr] in
theorem armed_eq_some {will : Option Will} {w : Will} (h : will.map Will.armed = some w) :
    ∃ w', will = some w' ∧ w = w'.armed := by
  obtain ⟨w', hw', rfl⟩ := Option.map_eq_some_iff.1 h
  exact ⟨w', hw', rfl⟩

variable (h : Durable owner)
include h

theorem closed : Durable (Session.closed owner) := by
  have hwill : ∀ w, owner.will.map Will.armed = some w → w.Valid := by
    intro w hw
    obtain ⟨w', hw', rfl⟩ := armed_eq_some hw
    exact { h.will w' hw' with }
  unfold Session.closed
  split
  · exact
      { h with
        active := Bool.noConfusion
        fresh := fun _ => rfl
        subscriptions := h.subscriptions.of_subperm nil_subperm
        deliveries := by simp [IndexedVec.empty]
        will := hwill }
  · exact { h with active := Bool.noConfusion, will := hwill }

theorem transition {op : Op} {reply : Reply} (hop : op.WellFormed owner)
    (ht : Transition owner op owner' reply) : Durable owner' := by
  cases ht with
  | unchanged => exact h
  | advanced _ _ _ hgen => exact h.advanced hgen
  | opened view takeover expiry will result hchk _ hwill =>
    obtain ⟨packet, hpar⟩ := hop
    exact h.opened (openable_of_openCheck hchk) (connectWill_valid hpar hwill)
  | closed _ hgen => exact (h.advanced hgen).closed
  | disconnected view expiry will _ hwill hgen =>
    refine { h.advanced hgen with will := fun w hw => ?_ }
    rcases hwill with rfl | rfl
    · exact h.will w hw
    · cases hw
  | willCompleted hgen => exact { h.advanced hgen with will := fun w hw => by cases hw }
  | subscribed packet view identifier staged changed result _ _ hidn hloop hgen =>
    refine { h.advanced hgen with subscriptions := h.subscriptions.subscribe ?_ hloop }
    exact Reader.forall_mem_all
      (fun _ _ _ hnext => subscriptionIteratorNext_valid hnext (subscribeIdentifier_le hidn)) view.entries
  | unsubscribed packet view capacity result hgen =>
    exact { h.advanced hgen with subscriptions := h.subscriptions.of_subperm (unsubscribeLoop_subperm _ _) }
  | reserved qos candidate hqos hopen _ hid hfr =>
    have hinit : owner.initialized = true := hopen.elim h.active And.left
    refine { h.withDeliveries ?_ ?_ with }
    · intro hnot
      rw [hinit] at hnot
      cases hnot
    · intro delivery hmem
      rcases List.mem_append.1 hmem with hold | hnew
      · exact h.deliveries delivery hold
      · rw [List.mem_singleton.1 hnew]
        exact ⟨hid, hqos, fun hst => absurd rfl hst⟩
  | committed packetId packet expiry queued delivery index hlook hst hexp hgen =>
    obtain ⟨hid, hent, rfl⟩ := deliveryLookup_eq_ok.1 hlook
    have hold := h.deliveries delivery (mem_of_getElem? hent)
    refine Durable.advanced (h.modifyDelivery hent ⟨hold.packetId, hold.qos, fun _ => ?_⟩) hgen
    by_cases hzero : expiry = 0
    · obtain ⟨publish, capacity, henc, hver, hpid, hqos⟩ := hop delivery index hlook
      rw [hzero, ← hver]
      exact Delivery.sound_committed henc hpid hqos hold.qos
    · exact recordDeliveryValidate_eq_ok.1 (hexp hzero)
  | removed _ index removed deliveries generation _ _ hent _ _ hents hgen =>
    have hsub : deliveries.entries ⊆ owner.deliveries.entries := by
      rw [hents]
      exact (swapRemove_subperm hent).subset
    refine { h.keepDeliveries hsub with generation := ?_ }
    rcases hgen with ⟨-, rfl⟩ | ⟨hgen, rfl⟩
    · exact h.generation
    · exact generation_succ_ne_zero hgen
  | expired now count deliveries hents hgen =>
    refine (h.advanced hgen).keepDeliveries ?_
    rw [hents]
    exact fun delivery hmem => (List.mem_filter.1 ((retainSwap_all_perm _ _).subset hmem)).1
  | replayed index now delivery stored packet hent hsto hst hpkt =>
    have hold := h.deliveries delivery (mem_of_getElem? hent)
    refine h.modifyDelivery hent ⟨?_, ?_, fun _ => ?_⟩
    · rw [Delivery.replayed_packetId]
      exact hold.packetId
    · rw [Delivery.replayed_qos]
      exact hold.qos
    · exact (hold.packet hst).replayed hold.qos hsto hpkt
  | released view packetId delivery index pubrel _ hlook hst hqos henc hgen =>
    obtain ⟨hid, hent, rfl⟩ := deliveryLookup_eq_ok.1 hlook
    have hold := h.deliveries delivery (mem_of_getElem? hent)
    exact Durable.advanced
      (h.modifyDelivery hent ⟨hold.packetId, hold.qos, fun _ => Delivery.sound_released henc hqos⟩) hgen
  | begun _ _ _ _ _ _ _ hgen => exact { h.advanced hgen with }
  | puback _ _ _ _ _ _ _ hgen => exact { h.advanced hgen with }
  | pubrec _ _ _ _ _ _ _ _ hgen => exact { h.advanced hgen with }
  | pubcomp _ _ _ _ _ hgen => exact { h.advanced hgen with }
  | cloned deliveries hents => exact h.keepDeliveries (by rw [hents]; exact List.Subset.refl _)

/-- Every well-formed run keeps the durable part. -/
theorem run {ops : List Op} (hops : Along (fun o op => op.WellFormed o) owner ops) : Durable (Session.run owner ops) := by
  induction ops generalizing owner with
  | nil => exact h
  | cons op ops ih =>
    refine ih ?_ hops.2
    unfold next
    split
    · rename_i owner' reply hstep
      exact h.transition hops.1 (step_transition hstep)
    · exact h

end Durable

section
variable {config : SessionConfig} {created owner : Owner} {ops : List Op} (hcr : ownerCreate config = some created)
  (hops : Along (fun o op => op.WellFormed o) created ops)
include hcr hops

/-- What every run keeps of a session. -/
theorem session_state_kept : Durable (run created ops) ∧ Inbound (run created ops) :=
  ⟨(Durable.create hcr).run hops, (Inbound.create hcr).run⟩

/-- What is handed out to be sent is one whole packet of the session's version: the PUBREL of its packet identifier, or
    a PUBLISH with its packet identifier and QoS. -/
theorem handed_out_packets_parse {index : Nat} {now : UInt64} {delivery : Delivery}
    (h : deliveryPendingAtEx (run created ops) index now = .ok (owner, delivery)) :
    delivery.Sound (run created ops).version := by
  obtain ⟨entry, stored, packet, hent, hsto, hst, hpend, -, rfl⟩ := deliveryPendingAtEx_eq_ok h
  have hstands := ((Durable.create hcr).run hops).deliveries entry (mem_of_getElem? hent)
  exact (hstands.packet hst).replayed hstands.qos hsto hpend

end

end

end Flowie.Session
