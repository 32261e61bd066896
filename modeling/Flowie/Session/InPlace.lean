import Flowie.Session.Durable

/-!
# What an operation leaves behind when it fails

`step` takes a failed operation to leave the owner as it was. Most operations make all their checks
before the first write. A CONNECT, a commit, a replay, an expiry and a PUBREC write into the owner and
can fail afterwards. Here they are modelled with the owner that is in memory when they return. All but
the commit agree with `step`; a commit that fails leaves the reservation it found.
-/

namespace Flowie.Session

open Mqtt Reader List BigEndian

/-- An operation that makes its checks before it writes. -/
def checked {α : Type} (owner : Owner) (result : Except Errno (Owner × α)) : Owner × Except Errno α :=
  match result with
  | .ok (owner', a) => (owner', .ok a)
  | .error e => (owner, .error e)

/-- The result of an operation as a reply. -/
def answered {α : Type} (reply : α → Reply) (outcome : Owner × Except Errno α) : Owner × Except Errno Reply :=
  (outcome.1, outcome.2.map reply)

theorem answered_checked {α : Type} (reply : α → Reply) (owner : Owner) (result : Except Errno (Owner × α)) :
    answered reply (checked owner result) = checked owner (replied reply result) := by
  cases result with
  | error e => rfl
  | ok r => rfl

section Connect

variable [Vstr]

/-- `flowie_session_owner_connect_impl`: once the session is open it stays open, whatever is returned. -/
def ownerConnectInPlace (owner : Owner) (connect : ConnectView) (allowActive : Bool) :
    Owner × Except Errno ConnectResult :=
  match ownerOpen owner connect allowActive with
  | .ok owner' => (owner', (ownerConnect owner connect allowActive).map (·.2))
  | .error _ => checked owner (ownerConnect owner connect allowActive)

/-- The route of an open session is always made. -/
theorem ownerRoute_of_open {owner owner' : Owner} {connect : ConnectView} {allowActive : Bool}
    (h : ownerOpen owner connect allowActive = .ok owner') : ∃ route, ownerRoute owner' = .ok route := by
  obtain ⟨expiry, will, hchk, -, -, rfl⟩ := ownerOpen_eq_ok h
  have hgen := generation_succ_ne_zero (openable_of_openCheck hchk).sessionGeneration
  unfold ownerRoute
  rw [if_neg (by simpa [opened] using hgen)]
  exact ⟨_, rfl⟩

theorem ownerConnectInPlace_eq (owner : Owner) (connect : ConnectView) (allowActive : Bool) :
    ownerConnectInPlace owner connect allowActive = checked owner (ownerConnect owner connect allowActive) := by
  unfold ownerConnectInPlace
  cases hopen : ownerOpen owner connect allowActive with
  | error e => rfl
  | ok owner' =>
    obtain ⟨route, hroute⟩ := ownerRoute_of_open hopen
    unfold ownerConnect
    rw [hopen]
    dsimp only
    rw [hroute]
    rfl

end Connect

section Expire

/-- The removal loop of `flowie_session_owner_delivery_expire`; a removal that fails leaves the ones before
    it done. -/
def expireLoopInPlace (now : UInt64) : Nat → Nat → Owner → Owner × Except Errno Unit
  | 0, _, owner => (owner, .ok ())
  | fuel + 1, index, owner =>
    match owner.deliveries.entries[index]? with
    | none => (owner, .ok ())
    | some delivery =>
      if !delivery.expired now then expireLoopInPlace now fuel (index + 1) owner
      else
        match deliveryRemoveAt owner index with
        | .error e => (owner, .error e)
        | .ok (owner, _) => expireLoopInPlace now fuel index owner

/-- `flowie_session_owner_delivery_expire`. -/
def deliveryExpireInPlace (owner : Owner) (now : UInt64) : Owner × Except Errno Nat :=
  if now = 0 then (owner, .error .einval)
  else
    let count := owner.deliveries.entries.countP (·.expired now)
    if count = 0 then (owner, .ok 0)
    else if owner.resourceGeneration = uint64Max then (owner, .error .erange)
    else
      match expireLoopInPlace now owner.deliveries.entries.length 0 owner with
      | (owner, .error e) => (owner, .error e)
      | (owner, .ok _) => (owner.advanced, .ok count)

theorem expireLoopInPlace_eq {now : UInt64} {fuel index : Nat} {owner owner' : Owner}
    (h : expireLoop now fuel index owner = .ok owner') : expireLoopInPlace now fuel index owner = (owner', .ok ()) := by
  induction fuel generalizing index owner with
  | zero =>
    cases h
    rfl
  | succ fuel ih =>
    rw [expireLoop] at h
    rw [expireLoopInPlace]
    cases hent : owner.deliveries.entries[index]? with
    | none =>
      rw [hent] at h
      cases h
      rfl
    | some delivery =>
      rw [hent] at h
      dsimp only at h ⊢
      split at h
      · rename_i hkeep
        rw [if_pos hkeep]
        exact ih h
      · rename_i hkeep
        rw [if_neg hkeep]
        cases hrem : deliveryRemoveAt owner index with
        | error e =>
          rw [hrem] at h
          cases h
        | ok r =>
          rw [hrem] at h
          exact ih h

theorem deliveryExpireInPlace_eq (owner : Owner) (now : UInt64) :
    deliveryExpireInPlace owner now = checked owner (deliveryExpire owner now) := by
  obtain ⟨deliveries, hloop, -⟩ := expireLoop_eq_ok now owner.deliveries.entries.length 0 owner
  unfold deliveryExpireInPlace deliveryExpire
  rw [hloop, expireLoopInPlace_eq hloop]
  split
  · rfl
  dsimp only
  split
  · rfl
  · split <;> rfl

end Expire

section Replay

variable [Vstr]

/-- The loop of `flowie_session_delivery_packet_expiry_refresh`: the values as they stand in the packet when
    the loop ends, and how it ends. -/
def expiryRefreshInPlace (interval : Nat) : Nat → Bool → Bytes → Bytes × Except Errno Bool
  | 0, found, values => (values, if values.isEmpty then .ok found else .error .eproto)
  | fuel + 1, found, values =>
    match propertyIteratorNext values with
    | .error e => (values, if e = .needMore then .ok found else .error .eproto)
    | .ok (property, rest) =>
      let size := values.length - rest.length
      if property.identifier = .messageExpiryInterval then
        if found ∨ size < 4 then (values, .error .eproto)
        else
          let after := expiryRefreshInPlace interval fuel true rest
          (values.take (size - 4) ++ write 4 interval ++ after.1, after.2)
      else
        let after := expiryRefreshInPlace interval fuel found rest
        (values.take size ++ after.1, after.2)

/-- `flowie_session_delivery_packet_expiry_refresh`: the packet when it returns. -/
def packetExpiryRefreshInPlace (version : Version) (packet : Bytes) (expiry now : UInt64) : Bytes × Except Errno Unit :=
  if packet.isEmpty || expiry == 0 || now == 0 || decide (expiry ≤ now) || version != .v5 then (packet, .error .einval)
  else
    match packetParse packet version packet.length with
    | .error _ => (packet, .error .eproto)
    | .ok (view, consumed) =>
      if consumed ≠ packet.length then (packet, .error .eproto)
      else
        match publishParse view with
        | .error _ => (packet, .error .eproto)
        | .ok publish =>
          let interval := min (expiry - now).toNat uint32Max.toNat
          let refreshed := expiryRefreshInPlace interval publish.properties.length false publish.properties
          let before := packet.length - publish.payload.length - publish.properties.length
          (packet.take before ++ refreshed.1 ++ publish.payload,
            match refreshed.2 with
            | .error e => .error e
            | .ok found => if found then .ok () else .error .eproto)

variable {interval fuel : Nat} {found : Bool} {values : Bytes}

/-- A loop that succeeds has written what it returns. -/
theorem expiryRefreshInPlace_eq {found' : Bool} {values' : Bytes}
    (h : expiryRefreshLoop interval fuel found values = .ok (values', found')) :
    expiryRefreshInPlace interval fuel found values = (values', .ok found') := by
  induction fuel generalizing found found' values values' with
  | zero =>
    unfold expiryRefreshLoop at h
    unfold expiryRefreshInPlace
    split at h
    · rename_i hnil
      cases h
      rw [if_pos hnil, List.isEmpty_iff.1 hnil]
    · cases h
  | succ fuel ih =>
    rw [expiryRefreshLoop] at h
    rw [expiryRefreshInPlace]
    cases hnext : propertyIteratorNext values with
    | error e =>
      rw [hnext] at h
      dsimp only at h ⊢
      split at h
      · rename_i hmore
        cases h
        rw [if_pos hmore]
      · cases h
    | ok r =>
      rw [hnext] at h
      dsimp only at h ⊢
      split at h
      · rename_i hid
        rw [if_pos hid]
        split_ifs at h with hfst
        rw [if_neg hfst]
        split at h
        · cases h
        rename_i rest' found'' hrest
        cases h
        rw [ih hrest]
      · rename_i hid
        rw [if_neg hid]
        split at h
        · cases h
        rename_i rest' found'' hrest
        cases h
        rw [ih hrest]

/-- The values of a PUBLISH that was parsed hold at most one Message Expiry Interval, so the loop over them
    does not fail, and it has written nothing when it has found none. The induction carries the
    identifiers the check has passed, the interval among them once it is found. -/
theorem expiryRefreshLoop_of_check {allowed present after : List PropertyId} (hfuel : values.length ≤ fuel)
    (hend : (properties values).2 = .needMore)
    (hchk : propertiesCheck allowed publishPropertiesRepeatable present (properties values).1 = some after)
    (hfnd : found = true → present.contains .messageExpiryInterval = true) :
    ∃ values' found', expiryRefreshLoop interval fuel found values = .ok (values', found') ∧
      (found' = false → found = false ∧ values' = values ∧
        ∀ property ∈ (properties values).1, property.identifier ≠ .messageExpiryInterval) := by
  induction fuel generalizing found values present with
  | zero =>
    have hnil : values = [] := List.length_eq_zero_iff.1 (Nat.le_zero.1 hfuel)
    subst hnil
    exact ⟨[], found, rfl, fun h => ⟨h, rfl, nofun⟩⟩
  | succ fuel ih =>
    unfold expiryRefreshLoop
    cases hnext : propertyIteratorNext values with
    | error e =>
      have hall : properties values = ([], e) := all_of_error hnext
      rw [hall] at hend
      have hend : e = .needMore := hend
      exact ⟨values, found, by simp [hend], fun h => ⟨h, rfl, by simp [hall]⟩⟩
    | ok r =>
      obtain ⟨property, rest⟩ := r
      have hall : properties values = (property :: (properties rest).1, (properties rest).2) :=
        all_of_ok prefixed_propertyIteratorNext hnext
      obtain ⟨used, hne, hbs, -⟩ := prefixed_propertyIteratorNext _ _ _ hnext
      have hpos : 0 < used.length := List.length_pos_iff.2 hne
      have hsize : values.length - rest.length = used.length := by
        rw [hbs, length_append, Nat.add_sub_cancel]
      have hrestfuel : rest.length ≤ fuel := by
        rw [hbs, length_append] at hfuel
        omega
      rw [hall] at hend hchk
      unfold propertiesCheck at hchk
      split_ifs at hchk with hpassed
      dsimp only
      rw [hsize]
      by_cases hid : property.identifier = .messageExpiryInterval
      · -- the interval cannot have been found before
        have hnot : found = false := by
          cases hf : found with
          | false => rfl
          | true =>
            refine absurd ?_ hpassed
            rw [hid, hfnd hf]
            simp [publishPropertiesRepeatable]
        obtain ⟨idBytes, a, b, c, d, hused, -⟩ := reads_messageExpiry hnext hid
        have hfour : ¬used.length < 4 := by
          rw [hbs] at hused
          rw [append_cancel_right hused]
          simp
        have hseen : true = true → (property.identifier :: present).contains .messageExpiryInterval = true := by
          simp [hid]
        obtain ⟨values', found', hloop, hnone⟩ := ih hrestfuel hend hchk hseen
        refine ⟨values.take (used.length - 4) ++ write 4 interval ++ values', found', ?_, ?_⟩
        · rw [if_pos hid, if_neg (by simp [hnot, hfour]), hloop]
        · intro hfls
          exact absurd (hnone hfls).1 (by simp)
      · have hseen : found = true → (property.identifier :: present).contains .messageExpiryInterval = true := by
          intro hf
          rw [contains_cons, hfnd hf, Bool.or_true]
        obtain ⟨values', found', hloop, hnone⟩ := ih hrestfuel hend hchk hseen
        refine ⟨used ++ values', found', ?_, ?_⟩
        · rw [if_neg hid, hloop, hbs, take_left]
        intro hfls
        obtain ⟨hf, rfl, hoths⟩ := hnone hfls
        rw [hall]
        exact ⟨hf, hbs.symm, List.forall_mem_cons.2 ⟨hid, hoths⟩⟩

variable {publish : PublishView} {view : PacketView}

theorem publish_split {version : Version} {bytes : Bytes}
    (hpkt : packetParse bytes version bytes.length = .ok (view, bytes.length))
    (hpub : publishParse view = .ok publish) :
    bytes.take (bytes.length - publish.payload.length - publish.properties.length) ++ publish.properties ++
      publish.payload = bytes := by
  obtain ⟨rfl, first, lenBytes, layout⟩ := packetLayout_of_parse hpkt
  obtain ⟨topicBytes, idBytes, blockHead, present, body⟩ := publishLayout_of_parse hpub
  obtain ⟨hbs, htake⟩ := publish_front layout body
  rw [htake, append_assoc, ← hbs]

/-- The loop over the properties of a PUBLISH that was parsed. -/
theorem expiryRefreshLoop_of_parse (hv : view.version = .v5) (hpub : publishParse view = .ok publish) :
    ∃ values found, expiryRefreshLoop interval publish.properties.length false publish.properties = .ok (values, found) ∧
      (found = false → values = publish.properties ∧
        ∀ property ∈ (properties publish.properties).1, property.identifier ≠ .messageExpiryInterval) := by
  obtain ⟨topicBytes, idBytes, blockHead, present, body⟩ := publishLayout_of_parse hpub
  have hblk := body.block
  rw [if_pos hv] at hblk
  have hval := hblk.2
  unfold propertiesValidate at hval
  split at hval
  · cases hval
  rename_i after hchk
  split at hval
  · rename_i hend
    obtain ⟨values, found, hloop, hnone⟩ := expiryRefreshLoop_of_check (Nat.le_refl _) hend hchk
      (fun h : false = true => nomatch h)
    exact ⟨values, found, hloop, fun h => (hnone h).2⟩
  · cases hval

/-- A refresh that fails has written nothing. -/
theorem packetExpiryRefreshInPlace_eq (version : Version) (packet : Bytes) (expiry now : UInt64) :
    packetExpiryRefreshInPlace version packet expiry now =
      match packetExpiryRefresh version packet expiry now with
      | .ok packet' => (packet', .ok ())
      | .error e => (packet, .error e) := by
  unfold packetExpiryRefreshInPlace packetExpiryRefresh
  split
  · rfl
  rename_i hargs
  have hver : version = .v5 := by
    by_contra hne
    exact hargs (by simp [hne])
  cases hpkt : packetParse packet version packet.length with
  | error e => rfl
  | ok r =>
    obtain ⟨view, consumed⟩ := r
    dsimp only
    split
    · rfl
    rename_i hconsumed
    rw [not_not] at hconsumed
    rw [hconsumed] at hpkt
    cases hpub : publishParse view with
    | error e => rfl
    | ok publish =>
      dsimp only
      obtain ⟨hview, -⟩ := packetLayout_of_parse hpkt
      obtain ⟨values, found, hloop, hnone⟩ := expiryRefreshLoop_of_parse (hview.trans hver) hpub
      rw [hloop, expiryRefreshInPlace_eq hloop]
      cases found with
      | true => rfl
      | false =>
        rw [(hnone rfl).1, publish_split hpkt hpub]
        rfl

/-- The seconds left, as far as four bytes go. -/
def secondsLeft (expiry now : UInt64) : Nat := min (expiry.toNat - now.toNat) (2 ^ 32 - 1)

/-- A refresh writes the seconds left over the four bytes of the Message Expiry Interval, and the PUBLISH is read back with
    nothing else changed. A refresh that fails has written nothing. -/
theorem expiry_refresh_frame :
    (∀ packet publish (expiry now : UInt64), CarriesPublish .v5 packet publish →
      (∃ property ∈ (properties publish.properties).1, property.identifier = .messageExpiryInterval) → 0 < now → now < expiry →
      ∃ front four back before property after values, packet = front ++ (four ++ back) ∧ four.length = 4 ∧
        packetExpiryRefreshInPlace .v5 packet expiry now =
          (front ++ (BigEndian.write 4 (secondsLeft expiry now) ++ back), .ok ()) ∧
        (properties publish.properties).1 = before ++ property :: after ∧ property.identifier = .messageExpiryInterval ∧
        property.integer = BigEndian.read four ∧
        CarriesPublish .v5 (front ++ (BigEndian.write 4 (secondsLeft expiry now) ++ back)) { publish with properties := values } ∧
        (properties values).1 = before ++ { property with integer := secondsLeft expiry now } :: after) ∧
    ∀ version packet expiry now e, (packetExpiryRefreshInPlace version packet expiry now).2 = .error e →
      (packetExpiryRefreshInPlace version packet expiry now).1 = packet := by
  refine ⟨?_, ?_⟩
  · rintro packet publish expiry now ⟨view, hpkt, hpub⟩ ⟨property, hmem, hid⟩ hnow hlat
    obtain ⟨hview, first, lenBytes, layout⟩ := packetLayout_of_parse hpkt
    have hleft : min (expiry - now).toNat uint32Max.toNat = secondsLeft expiry now := by
      rw [UInt64.toNat_sub_of_le _ _ (UInt64.le_of_lt hlat)]
      rfl
    obtain ⟨values, found, hloop, hnone⟩ := expiryRefreshLoop_of_parse hview hpub
    have hfnd : found = true := by
      by_contra hnot
      exact (hnone (Bool.eq_false_iff.2 hnot)).2 property hmem hid
    subst hfnd
    have hpar := exchange_parse hpkt hpub (expiryRefreshLoop_shape hloop)
    have hargs : ¬(packet.isEmpty || expiry == 0 || now == 0 || decide (expiry ≤ now) || Version.v5 != .v5) = true := by
      have hsome : packet.isEmpty = false := by rw [layout.split]; rfl
      simp only [hsome]
      grind
    have hrfr : packetExpiryRefresh .v5 packet expiry now = .ok
        (packet.take (packet.length - publish.payload.length - publish.properties.length) ++ values ++ publish.payload) := by
      unfold packetExpiryRefresh
      rw [if_neg hargs, hpkt]
      dsimp only
      rw [if_neg (not_not.2 rfl), hpub]
      dsimp only
      rw [hleft, hloop]
      rfl
    have hspl := publish_split hpkt hpub
    have hbd : secondsLeft expiry now < 2 ^ 32 := Nat.lt_of_le_of_lt (Nat.min_le_right _ _) (by decide)
    obtain ⟨front, four, back, before, p, after, ending, hold, hfour, rfl, hread, hp, hinteger, hnew⟩ :=
      expiryRefreshLoop_writes hloop
    rw [read_write hbd] at hnew
    generalize packet.take (packet.length - publish.payload.length - publish.properties.length) = head at *
    rw [packetExpiryRefreshInPlace_eq, hrfr]
    refine ⟨head ++ front, four, back ++ publish.payload, before, p, after, _, ?_, hfour, by simp, by rw [hread],
      by simpa using find?_some hp, hinteger, ?_, by rw [hnew]⟩
    · rw [← hspl, hold]
      simp
    · simpa using hpar
  · intro version packet expiry now e h
    rw [packetExpiryRefreshInPlace_eq] at h ⊢
    split at h
    · cases h
    · rfl

/-- The packet of a delivery when its expiry has been checked and refreshed. -/
def pendingPacketInPlace (version : Version) (delivery : Delivery) (packet : Bytes) (now : UInt64) :
    Bytes × Except Errno Unit :=
  if delivery.expiryAtEpochSeconds = 0 then (packet, .ok ())
  else if now = 0 ∨ delivery.expiryAtEpochSeconds ≤ now then (packet, .error .ebusy)
  else if version = .v5 then packetExpiryRefreshInPlace version packet delivery.expiryAtEpochSeconds now
  else if !version.is3x then (packet, .error .eproto)
  else (packet, .ok ())

omit [Vstr] in
theorem packetId_withPacket (packet : Bytes) (delivery : Delivery) :
    { delivery with packet := some packet }.packetId = delivery.packetId := rfl

omit [Vstr] in
theorem packetId_committed (bytes : Bytes) (expiry : UInt64) (queued : Bool) (delivery : Delivery) :
    (delivery.committed bytes expiry queued).packetId = delivery.packetId := rfl

omit [Vstr] in
theorem packetId_released (pubrel : Bytes) (delivery : Delivery) :
    (delivery.released pubrel).packetId = delivery.packetId := rfl

variable (owner : Owner) (index : Nat)

/-- `flowie_session_owner_delivery_pending_at_ex`. -/
def deliveryPendingAtExInPlace (now : UInt64) : Owner × Except Errno Delivery :=
  match owner.deliveries.entries[index]? with
  | none => (owner, .error .enoent)
  | some delivery =>
    match delivery.packet with
    | none => (owner, .error .enoent)
    | some packet =>
      if delivery.state = .reserved then (owner, .error .enoent)
      else
        match pendingPacketInPlace owner.version delivery packet now with
        | (packet, .error e) =>
          (deliveryModifyAt owner index (fun d => { d with packet := some packet }) (packetId_withPacket packet), .error e)
        | (packet, .ok _) =>
          (deliveryModifyAt owner index (·.replayed packet) (Delivery.replayed_packetId packet),
            .ok (delivery.replayed packet))

theorem pendingPacketInPlace_eq (version : Version) (delivery : Delivery) (packet : Bytes) (now : UInt64) :
    pendingPacketInPlace version delivery packet now =
      match pendingPacket version delivery packet now with
      | .ok packet' => (packet', .ok ())
      | .error e => (packet, .error e) := by
  unfold pendingPacketInPlace pendingPacket
  split
  · rfl
  split
  · rfl
  split
  · exact packetExpiryRefreshInPlace_eq _ _ _ _
  · split <;> rfl

omit [Vstr] in
theorem deliveryModifyAt_self {owner : Owner} {index : Nat} {delivery : Delivery} {f : Delivery → Delivery}
    (hf : ∀ delivery, (f delivery).packetId = delivery.packetId)
    (hent : owner.deliveries.entries[index]? = some delivery) (hsame : f delivery = delivery) :
    deliveryModifyAt owner index f hf = owner := by
  unfold deliveryModifyAt
  rw [IndexedVec.modifyAt_self hf hent hsame]

theorem deliveryPendingAtExInPlace_eq (now : UInt64) :
    deliveryPendingAtExInPlace owner index now = checked owner (deliveryPendingAtEx owner index now) := by
  unfold deliveryPendingAtExInPlace deliveryPendingAtEx
  cases hent : owner.deliveries.entries[index]? with
  | none => rfl
  | some delivery =>
    cases hsto : delivery.packet with
    | none => simp only [hsto, checked]
    | some packet =>
      simp only [hsto]
      split
      · rfl
      rw [pendingPacketInPlace_eq]
      cases pendingPacket owner.version delivery packet now with
      | error e =>
        show (deliveryModifyAt owner index _ _, _) = (owner, _)
        rw [deliveryModifyAt_self _ hent]
        rw [← hsto]
      | ok packet' => rfl

/-- `flowie_session_owner_delivery_pending_at`. -/
def deliveryPendingAt : Owner × Except Errno Delivery :=
  match owner.deliveries.entries[index]? with
  | none => (owner, .error .enoent)
  | some delivery =>
    if delivery.expiryAtEpochSeconds ≠ 0 then (owner, .error .ebusy) else deliveryPendingAtExInPlace owner index 0

/-- A delivery that expires is not pending at the time zero. -/
theorem deliveryPendingAt_eq :
    deliveryPendingAt owner index = checked owner (deliveryPendingAtEx owner index 0) ∨
      ∃ e, deliveryPendingAt owner index = (owner, .error e) := by
  unfold deliveryPendingAt
  split
  · exact .inr ⟨_, rfl⟩
  split
  · exact .inr ⟨_, rfl⟩
  · exact .inl (deliveryPendingAtExInPlace_eq owner index 0)

end Replay

section

attribute [local instance] asciiVstr

/-- Three of ten seconds are left. -/
theorem expiry_refresh_frame_three :
    ∃ publish, CarriesPublish .v5 [0x30, 0x0a, 0, 1, 0x61, 5, 2, 0, 0, 0, 0x0a, 0x78] publish ∧
      ∃ front four back, [0x30, 0x0a, 0, 1, 0x61, 5, 2, 0, 0, 0, 0x0a, 0x78] = front ++ (four ++ back) ∧
        packetExpiryRefreshInPlace .v5 [0x30, 0x0a, 0, 1, 0x61, 5, 2, 0, 0, 0, 0x0a, 0x78] 13 10 =
          (front ++ (BigEndian.write 4 3 ++ back), .ok ()) := by
  have h : CarriesPublish .v5 [0x30, 0x0a, 0, 1, 0x61, 5, 2, 0, 0, 0, 0x0a, 0x78]
      ⟨0, false, false, 0, [0x61], [2, 0, 0, 0, 0x0a], [0x78]⟩ :=
    ⟨⟨.v5, .publish, 0, [0, 1, 0x61, 5, 2, 0, 0, 0, 0x0a, 0x78]⟩, by decide +kernel, by decide +kernel⟩
  obtain ⟨front, four, back, -, -, -, -, hpkt, -, hrfr, -⟩ :=
    expiry_refresh_frame.1 _ _ 13 10 h (by decide +kernel) (by decide) (by decide)
  exact ⟨_, h, front, four, back, hpkt, hrfr⟩

end

section Commit

/-- A delivery that a failed commit has emptied again. -/
def Delivery.rolledBack (delivery : Delivery) : Delivery :=
  { delivery with packet := none, expiryAtEpochSeconds := 0, state := .reserved }

theorem packetId_rolledBack (delivery : Delivery) : delivery.rolledBack.packetId = delivery.packetId := rfl

variable {owner : Owner}

theorem deliveryModifyAt_modifyAt {index : Nat} {f g : Delivery → Delivery}
    (hf : ∀ delivery, (f delivery).packetId = delivery.packetId)
    (hg : ∀ delivery, (g delivery).packetId = delivery.packetId) :
    deliveryModifyAt (deliveryModifyAt owner index f hf) index g hg =
      deliveryModifyAt owner index (g ∘ f) fun delivery => (hg (f delivery)).trans (hf delivery) :=
  congrArg (fun deliveries => { owner with deliveries := deliveries }) (owner.deliveries.modifyAt_modifyAt hf hg)

variable [Vstr]

/-- `flowie_session_owner_delivery_commit_state`: the delivery is filled first and emptied again on a failure. -/
def deliveryCommitInPlace (owner : Owner) (packetId : UInt16) (bytes : Bytes) (expiry : UInt64) (queued : Bool) :
    Owner × Except Errno Unit :=
  if bytes.isEmpty then (owner, .error .einval)
  else
    match deliveryLookup owner packetId with
    | .error e => (owner, .error e)
    | .ok (delivery, index) =>
      if delivery.state ≠ .reserved ∨ delivery.packet.isSome then (owner, .error .ealready)
      else
        let filled := deliveryModifyAt owner index (·.committed bytes expiry queued) (packetId_committed bytes expiry queued)
        let emptied := deliveryModifyAt filled index Delivery.rolledBack packetId_rolledBack
        if expiry ≠ 0 ∧ recordDeliveryValidate owner.version (delivery.committed bytes expiry queued) ≠ .ok () then
          (emptied, .error .eproto)
        else if owner.resourceGeneration = uint64Max then (emptied, .error .erange)
        else (filled.advanced, .ok ())

/-- A commit that fails leaves the owner, or a reservation without a packet in the place of the one it found. -/
theorem deliveryCommitInPlace_cases {packetId : UInt16} {bytes : Bytes} {expiry : UInt64} {queued : Bool} :
    (∃ owner', deliveryCommit owner packetId bytes expiry queued = .ok owner' ∧
      deliveryCommitInPlace owner packetId bytes expiry queued = (owner', .ok ())) ∨
    (∃ e, deliveryCommit owner packetId bytes expiry queued = .error e ∧
      (deliveryCommitInPlace owner packetId bytes expiry queued = (owner, .error e) ∨
        ∃ delivery index, owner.deliveries.entries[index]? = some delivery ∧ delivery.state = .reserved ∧
          deliveryCommitInPlace owner packetId bytes expiry queued =
            (deliveryModifyAt owner index Delivery.rolledBack fun _ => rfl, .error e))) := by
  unfold deliveryCommit deliveryCommitInPlace
  by_cases hnil : bytes.isEmpty = true
  · rw [if_pos hnil, if_pos hnil]
    exact .inr ⟨_, rfl, .inl rfl⟩
  rw [if_neg hnil, if_neg hnil]
  cases hlook : deliveryLookup owner packetId with
  | error e => exact .inr ⟨e, rfl, .inl rfl⟩
  | ok r =>
    obtain ⟨delivery, index⟩ := r
    have hent := (deliveryLookup_eq_ok.1 hlook).2.1
    dsimp only
    by_cases hused : delivery.state ≠ .reserved ∨ delivery.packet.isSome = true
    · rw [if_pos hused, if_pos hused]
      exact .inr ⟨_, rfl, .inl rfl⟩
    rw [if_neg hused, if_neg hused]
    rw [not_or, not_not] at hused
    split
    · exact .inr ⟨_, rfl, .inr ⟨delivery, index, hent, hused.1, Prod.ext (deliveryModifyAt_modifyAt _ _) rfl⟩⟩
    split
    · exact .inr ⟨_, rfl, .inr ⟨delivery, index, hent, hused.1, Prod.ext (deliveryModifyAt_modifyAt _ _) rfl⟩⟩
    · exact .inl ⟨_, rfl, rfl⟩

end Commit

section Ack

variable [Vstr]

/-- `flowie_session_owner_delivery_ack`: the generation is checked before the packet of a delivery is exchanged
    for its PUBREL, and again afterwards. -/
def deliveryAckInPlace (owner : Owner) (packet : PacketView) : Owner × Except Errno (Option AckIntent) :=
  if !owner.active || packet.version != owner.version then (owner, .error .ebusy)
  else if packet.type ≠ .puback ∧ packet.type ≠ .pubrec ∧ packet.type ≠ .pubcomp then (owner, .error .eproto)
  else
    match controlPacketParse packet with
    | .error _ => (owner, .error .eproto)
    | .ok control =>
      match deliveryLookup owner control.packetId with
      | .error e => (owner, .error e)
      | .ok (delivery, index) =>
        if delivery.state = .reserved then (owner, .error .enoent)
        else if !ackExpected packet.type delivery then (owner, .error .eproto)
        else if packet.type = .pubrec ∧ control.reasonCode < 0x80 then
          let reply : AckIntent := ⟨.pubrel, control.packetId⟩
          if delivery.state = .waitPubrec then
            if owner.resourceGeneration = uint64Max then (owner, .error .erange)
            else
              match controlPacketEncode (pubrelPacket owner.version control.packetId) 32 with
              | .error _ => (owner, .error .eproto)
              | .ok pubrel =>
                let exchanged := deliveryModifyAt owner index (·.released pubrel) (packetId_released pubrel)
                if exchanged.resourceGeneration = uint64Max then (exchanged, .error .erange)
                else (exchanged.advanced, .ok (some reply))
          else if owner.resourceGeneration = uint64Max then (owner, .error .erange)
          else (owner.advanced, .ok (some reply))
        else if owner.resourceGeneration = uint64Max then (owner, .error .erange)
        else
          match deliveryRemoveAt owner index with
          | .error e => (owner, .error e)
          | .ok (owner, _) => (owner.advanced, .ok none)

theorem deliveryAckInPlace_eq (owner : Owner) (packet : PacketView) :
    deliveryAckInPlace owner packet = checked owner (deliveryAck owner packet) := by
  unfold deliveryAckInPlace deliveryAck
  split
  · rfl
  split
  · rfl
  cases controlPacketParse packet with
  | error e => rfl
  | ok control =>
    dsimp only
    cases deliveryLookup owner control.packetId with
    | error e => rfl
    | ok r =>
      obtain ⟨delivery, index⟩ := r
      dsimp only
      split
      · rfl
      split
      · rfl
      by_cases hgen : owner.resourceGeneration = uint64Max
      · rw [if_pos hgen, if_pos hgen, if_pos hgen]
        split
        · split <;> rfl
        · rfl
      · rw [if_neg hgen, if_neg hgen, if_neg hgen]
        split
        · split
          · cases controlPacketEncode (pubrelPacket owner.version control.packetId) 32 with
            | error e => rfl
            | ok pubrel => exact if_neg hgen
          · rfl
        · cases deliveryRemoveAt owner index with
          | error e => rfl
          | ok removed => rfl

end Ack

section

variable [Vstr]

/-- The calls on an owner that can write to it: the operations, `flowie_session_owner_open` and
    `flowie_session_owner_delivery_pending_at`. -/
inductive Call where
  | op (op : Op)
  | openSession (view : ConnectView)
  | pendingAt (index : Nat)
deriving DecidableEq, Repr

/-- The owner a call leaves in memory, whether or not it succeeds, and what it returns. -/
def inPlace (owner : Owner) : Call → Owner × Except Errno Reply
  | .op (.connect view takeover) => answered .connected (ownerConnectInPlace owner view takeover)
  | .op (.commit packetId packet expiry queued) =>
    answered (fun _ => .done) (deliveryCommitInPlace owner packetId packet expiry queued)
  | .op (.expire now) => answered .removed (deliveryExpireInPlace owner now)
  | .op (.pendingAt index now) => answered .pending (deliveryPendingAtExInPlace owner index now)
  | .op (.ack packet) => answered .acked (deliveryAckInPlace owner packet)
  | .op op => checked owner (step owner op)
  | .openSession view => checked owner (done (ownerOpen owner view false))
  | .pendingAt index => answered .pending (deliveryPendingAt owner index)

variable {owner : Owner} {op : Op}

/-- Every operation but a commit leaves what `step` says. -/
theorem inPlace_op (hop : ∀ packetId packet expiry queued, op ≠ .commit packetId packet expiry queued) :
    inPlace owner (.op op) = checked owner (step owner op) := by
  cases op with
  | connect view takeover =>
    show answered _ (ownerConnectInPlace owner view takeover) = _
    rw [ownerConnectInPlace_eq, answered_checked]
    rfl
  | commit packetId packet expiry queued => exact absurd rfl (hop packetId packet expiry queued)
  | expire now =>
    show answered _ (deliveryExpireInPlace owner now) = _
    rw [deliveryExpireInPlace_eq, answered_checked]
    rfl
  | pendingAt index now =>
    show answered _ (deliveryPendingAtExInPlace owner index now) = _
    rw [deliveryPendingAtExInPlace_eq, answered_checked]
    rfl
  | ack packet =>
    show answered _ (deliveryAckInPlace owner packet) = _
    rw [deliveryAckInPlace_eq, answered_checked]
    rfl
  | _ => rfl

variable {owner' : Owner} {reply : Reply}

/-- The operations succeed in memory exactly as `step` says. -/
theorem inPlace_op_eq_ok : inPlace owner (.op op) = (owner', .ok reply) ↔ step owner op = .ok (owner', reply) := by
  by_cases hop : ∃ packetId packet expiry queued, op = .commit packetId packet expiry queued
  · obtain ⟨packetId, packet, expiry, queued, rfl⟩ := hop
    show answered _ (deliveryCommitInPlace owner packetId packet expiry queued) = _ ↔
      done (deliveryCommit owner packetId packet expiry queued) = _
    rcases deliveryCommitInPlace_cases with
      ⟨filled, hcm, hplc⟩ | ⟨e, hcm, hplc⟩
    · rw [hcm, hplc]
      simp [answered, done, Except.map]
    · rw [hcm]
      rcases hplc with hplc | ⟨delivery, index, -, -, hplc⟩ <;> rw [hplc] <;> simp [answered, done, Except.map]
  · rw [inPlace_op (fun packetId packet expiry queued h => hop ⟨packetId, packet, expiry, queued, h⟩)]
    cases step owner op with
    | error e => simp [checked]
    | ok r => simp [checked, Prod.ext_iff]

variable {call : Call}

/-- A call that fails leaves the owner, or a reservation without a packet in the place of another. -/
theorem inPlace_eq_error {e : Errno} (h : inPlace owner call = (owner', .error e)) :
    owner' = owner ∨ ∃ delivery index, owner.deliveries.entries[index]? = some delivery ∧ delivery.state = .reserved ∧
      owner' = deliveryModifyAt owner index Delivery.rolledBack fun _ => rfl := by
  have hchecked : ∀ {α : Type} {result : Except Errno (Owner × α)}, checked owner result = (owner', .error e) →
      owner' = owner := by
    intro α result hres
    cases result with
    | error e' => exact (congrArg Prod.fst hres).symm
    | ok r => cases hres
  cases call with
  | op op =>
    by_cases hop : ∃ packetId packet expiry queued, op = .commit packetId packet expiry queued
    · obtain ⟨packetId, packet, expiry, queued, rfl⟩ := hop
      have h : answered _ (deliveryCommitInPlace owner packetId packet expiry queued) = _ := h
      rcases deliveryCommitInPlace_cases with
        ⟨filled, -, hplc⟩ | ⟨e', -, hplc | ⟨delivery, index, hent, hst, hplc⟩⟩
      · rw [hplc] at h
        cases h
      · rw [hplc] at h
        exact .inl (congrArg Prod.fst h).symm
      · rw [hplc] at h
        exact .inr ⟨delivery, index, hent, hst, (congrArg Prod.fst h).symm⟩
    · rw [inPlace_op (fun packetId packet expiry queued h => hop ⟨packetId, packet, expiry, queued, h⟩)] at h
      exact .inl (hchecked h)
  | openSession view => exact .inl (hchecked h)
  | pendingAt index =>
    have h : answered _ (deliveryPendingAt owner index) = _ := h
    rcases deliveryPendingAt_eq owner index with heq | ⟨e', heq⟩
    · rw [heq, answered_checked] at h
      exact .inl (hchecked h)
    · rw [heq] at h
      exact .inl (congrArg Prod.fst h).symm

def Call.asOp : Call → Op
  | .op operation => operation
  | .openSession view => .connect view false
  | .pendingAt index => .pendingAt index 0

/-- A call that succeeds makes the transition of its operation. -/
theorem inPlace_transition
    (h : inPlace owner call = (owner', .ok reply)) : ∃ reply', Transition owner call.asOp owner' reply' := by
  have hchecked : ∀ {result : Except Errno (Owner × Reply)}, checked owner result = (owner', .ok reply) →
      result = .ok (owner', reply) := by
    intro result hres
    cases result with
    | error e => cases hres
    | ok r =>
      cases hres
      rfl
  cases call with
  | op op => exact ⟨reply, step_transition (inPlace_op_eq_ok.1 h)⟩
  | openSession view =>
    obtain ⟨hopen, -⟩ := done_eq_ok (hchecked h)
    obtain ⟨expiry, will, hchk, hexp, hwill, rfl⟩ := ownerOpen_eq_ok hopen
    exact ⟨_, .opened view false expiry will ⟨true, false, false, false, 0, none⟩ hchk hexp hwill rfl⟩
  | pendingAt index =>
    have h : answered .pending (deliveryPendingAt owner index) = _ := h
    rcases deliveryPendingAt_eq owner index with heq | ⟨e, heq⟩
    · rw [heq, answered_checked] at h
      obtain ⟨delivery, hpend, rfl⟩ := replied_eq_ok (hchecked h)
      exact ⟨_, deliveryPendingAtEx_transition hpend⟩
    · rw [heq] at h
      cases h

end

end Flowie.Session
