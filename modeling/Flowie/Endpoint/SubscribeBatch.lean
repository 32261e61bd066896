import Flowie.Mqtt.Canonical
import Flowie.Session.Durable

/-!
# A SUBSCRIBE with several filters

`handleSubscribe` is the handling of one SUBSCRIBE: which entries existed and which are authorized is
found before the first one is applied, and lack of room refuses all of them. `handleEach` handles one
packet after the other. The two agree on the subscriptions, the reason codes and the retained replays
exactly in the cases of `subscribe_batch_iff`.
-/

namespace Flowie.Endpoint

open List BigEndian
open Checks (bind_eq_ok)
open Mqtt Session

/-- The result of `flowie_security_authorize_span`; `EPERM` is a denial. -/
inductive Authorization where
  | allowed | denied
  | failed (e : Errno)
deriving DecidableEq, Repr

/-- What the first loop of `flowie_endpoint_prepare_subscribe` finds out about an entry. -/
structure Mark where
  entry : SubscriptionView
  authorized : Bool
  existed : Bool
deriving DecidableEq, Repr

/-- `flowie_session_subscription_exists`. -/
def subscriptionExists (subscriptions : List Subscription) (filter : Bytes) : Bool :=
  subscriptions.any (·.filter == filter)

/-- The first loop, with the authorization results in the order of the entries. -/
def authorizeLoop (version : Version) (subscriptions : List Subscription) :
    (Nat → Authorization) → List SubscriptionView → Except Errno (List Mark)
  | _, [] => .ok []
  | authorize, entry :: rest =>
    match authorize 0 with
    | .failed e => .error e
    | .denied =>
      if version = .v31 then .error .eperm
      else (authorizeLoop version subscriptions (fun i => authorize (i + 1)) rest).map (⟨entry, false, false⟩ :: ·)
    | .allowed =>
      (authorizeLoop version subscriptions (fun i => authorize (i + 1)) rest).map
        (⟨entry, true, subscriptionExists subscriptions entry.filter⟩ :: ·)

/-- The authorization result closes the connection. -/
def Fatal (version : Version) : Authorization → Prop
  | .allowed => False
  | .denied => version = .v31
  | .failed _ => True

def authorizedEntries (marks : List Mark) : List SubscriptionView := (marks.filter (·.authorized)).map Mark.entry

def deniedReason (version : Version) : UInt8 := if version = .v5 then 0x87 else 0x80
def noRoomReason (version : Version) : UInt8 := if version = .v5 then 0x97 else 0x80

/-- `flowie_retained_replay_subscription` goes on to the retained messages. -/
def replayStarts (entry : SubscriptionView) (existed : Bool) : Bool :=
  !sharePrefix.isPrefixOf entry.filter && !(entry.retainHandling == 2 || (entry.retainHandling == 1 && existed))

/-- The owner, the reason codes of the SUBACK, the entries whose retained replay is started, and the error
    that is returned. -/
structure SubscribeOutcome where
  owner : Owner
  reasons : List UInt8
  replays : List SubscriptionView
  error : Option Errno

def SubscribeOutcome.failed (owner : Owner) (e : Errno) : SubscribeOutcome := ⟨owner, [], [], some e⟩

section

variable [Vstr]

/-- The packet with the authorized entries, written into a buffer of the size of the packet. -/
def effectivePacket (packet : PacketView) (subscribe : SubscribeView) (authorized : List SubscriptionView) :
    Except Errno (PacketView × SubscribeView) :=
  if authorized.length = subscribe.entryCount then .ok (packet, subscribe)
  else
    let capacity := 1 + vbiSize packet.body.length + packet.body.length
    match subscribePacketEncode ⟨packet.version, subscribe.packetId, subscribe.properties, authorized⟩ capacity with
    | .error _ => .error .eproto
    | .ok bytes =>
      match packetParse bytes packet.version maxWirePacketSize with
      | .error _ => .error .eproto
      | .ok (filtered, _) =>
        match subscribeParse filtered with
        | .error _ => .error .eproto
        | .ok subscribe => .ok (filtered, subscribe)

/-- The SUBACK and the replays after the authorized entries were applied. -/
def granted (owner : Owner) (version : Version) (marks : List Mark) : SubscribeOutcome :=
  { owner := owner
    reasons := marks.map fun mark => if mark.authorized then mark.entry.qos else deniedReason version
    replays := (marks.filter fun mark => mark.authorized && replayStarts mark.entry mark.existed).map Mark.entry
    error := none }

/-- The SUBACK when there is no room for the authorized entries. -/
def refused (owner : Owner) (version : Version) (marks : List Mark) : SubscribeOutcome :=
  { owner := owner
    reasons := marks.map fun mark => if mark.authorized then noRoomReason version else deniedReason version
    replays := []
    error := none }

/-- `flowie_endpoint_prepare_subscribe` on the session of the connection: the authorization result of each
    entry and the result of the session store are given, and the replies are taken by the send queue. -/
def handleSubscribe (authorize : Nat → Authorization) (saved : Except Errno Unit) (owner : Owner) (packet : PacketView) :
    SubscribeOutcome :=
  match subscribeParse packet with
  | .error _ => .failed owner .eproto
  | .ok subscribe =>
    match subscribeIdentifier packet.version subscribe.properties with
    | .error e => .failed owner e
    | .ok _ =>
      let entries := subscriptions packet.version subscribe.entries
      match authorizeLoop packet.version owner.subscriptions authorize entries.1 with
      | .error e => .failed owner e
      | .ok marks =>
        if entries.2 ≠ .needMore ∨ marks.length ≠ subscribe.entryCount then .failed owner .eproto
        else if (authorizedEntries marks).isEmpty then granted owner packet.version marks
        else
          match effectivePacket packet subscribe (authorizedEntries marks) with
          | .error e => .failed owner e
          | .ok (effective, effectiveSubscribe) =>
            match ownerClone owner with
            | none => .failed owner .enomem
            | some staged =>
              match ownerSubscribe staged effective effectiveSubscribe with
              | .ok (staged, result) =>
                if result.changed then
                  match saved with
                  | .error e => .failed owner e
                  | .ok _ => granted staged packet.version marks
                else granted owner packet.version marks
              | .error .enospc =>
                if packet.version = .v31 then .failed owner .enospc else refused owner packet.version marks
              | .error e => .failed owner e

/-- One packet after the other; an error closes the connection. -/
def handleEach (saved : Except Errno Unit) : (Nat → Authorization) → Owner → List PacketView → SubscribeOutcome
  | _, owner, [] => ⟨owner, [], [], none⟩
  | authorize, owner, packet :: rest =>
    let first := handleSubscribe (fun _ => authorize 0) saved owner packet
    if first.error.isSome then first
    else
      let others := handleEach saved (fun i => authorize (i + 1)) first.owner rest
      ⟨others.owner, first.reasons ++ others.reasons, first.replays ++ others.replays, others.error⟩

omit [Vstr] in
theorem vbiSize_mono {m n : Nat} (h : m ≤ n) : vbiSize m ≤ vbiSize n := by
  suffices hloop : ∀ fuel m n, m ≤ n → vbiSizeLoop fuel m ≤ vbiSizeLoop fuel n from hloop 5 m n h
  intro fuel
  induction fuel with
  | zero => exact fun _ _ _ => Nat.le_refl _
  | succ fuel ih =>
    intro m n h
    have hnext := ih (m / 128) (n / 128) (Nat.div_le_div_right h)
    unfold vbiSizeLoop
    split_ifs <;> omega

variable {entries : List SubscriptionView} {authorized : List SubscriptionView}

omit [Vstr] in
theorem length_flatMap_le (h : authorized.Sublist entries) :
    (authorized.flatMap subscriptionWrite).length ≤ (entries.flatMap subscriptionWrite).length := by
  induction h with
  | slnil => exact Nat.le_refl _
  | cons entry _ ih =>
    rw [flatMap_cons, length_append]
    omega
  | cons_cons entry _ ih =>
    rw [flatMap_cons, flatMap_cons, length_append, length_append]
    omega

variable {packet : PacketView} {subscribe : SubscribeView}

/-- The packet that is applied has the authorized entries. -/
theorem effectivePacket_spec (hpar : subscribeParse packet = .ok subscribe)
    (hents : subscriptions packet.version subscribe.entries = (entries, .needMore))
    (hbody : packet.body.length ≤ maxRemainingLength) (hsub : authorized.Sublist entries) (hne : authorized ≠ []) :
    ∃ effective effectiveSubscribe, effectivePacket packet subscribe authorized = .ok (effective, effectiveSubscribe) ∧
      effective.type = .subscribe ∧ effective.version = packet.version ∧ effectiveSubscribe.packetId ≠ 0 ∧
      effectiveSubscribe.properties = subscribe.properties ∧
      subscriptions packet.version effectiveSubscribe.entries = (authorized, .needMore) ∧
      effectiveSubscribe.entryCount = authorized.length := by
  obtain ⟨htype, hv, hid, ⟨present, hval⟩, hlayout, -, entries', hents', hcnt⟩ := subscribeParse_iff.1 hpar
  obtain rfl : entries = entries' := congrArg Prod.fst (hents.symm.trans hents')
  obtain ⟨hchecks, hbs⟩ := subscriptions_iff.1 hents
  unfold effectivePacket
  by_cases hlength : authorized.length = subscribe.entryCount
  · rw [if_pos hlength]
    obtain rfl : authorized = entries := hsub.eq_of_length (hlength.trans hcnt)
    exact ⟨packet, subscribe, rfl, htype, rfl, hid, rfl, hents, hcnt⟩
  · rw [if_neg hlength]
    -- the body with fewer entries is shorter, so it is encoded into the buffer
    have hshorter := length_flatMap_le hsub
    have hsize : packet.body.length = 2 + (versionedPropertiesWrite packet.version subscribe.properties).length +
        (entries.flatMap subscriptionWrite).length := by
      rw [hlayout, hbs, length_append, length_append, length_write]
      omega
    obtain ⟨bytes, hbs'⟩ : ∃ bytes, encodePacket .subscribe 2 (write 2 subscribe.packetId.toNat ++
        versionedPropertiesWrite packet.version subscribe.properties ++ authorized.flatMap subscriptionWrite)
        (1 + vbiSize packet.body.length + packet.body.length) = .ok bytes := by
      have hsmall : (write 2 subscribe.packetId.toNat ++
          versionedPropertiesWrite packet.version subscribe.properties ++ authorized.flatMap subscriptionWrite).length ≤
          packet.body.length := by
        rw [length_append, length_append, length_write]
        omega
      have hvbi := vbiSize_mono hsmall
      unfold encodePacket
      rw [if_neg (by omega), if_neg (by omega)]
      exact ⟨_, rfl⟩
    have henc : subscribePacketEncode ⟨packet.version, subscribe.packetId, subscribe.properties, authorized⟩
        (1 + vbiSize packet.body.length + packet.body.length) = .ok bytes := by
      rw [subscribePacketEncode_eq, ListCodec.encode_iff]
      exact ⟨hv, hid, hne, ⟨present, hval⟩, fun entry hmem => hchecks entry (hsub.subset hmem), hbs'⟩
    have hadm : Admits maxWirePacketSize bytes.length := ⟨Nat.le_refl _, (length_encodePacket hbs').2⟩
    obtain ⟨filtered, sub, hpkt, hsubscribe, hpid, hprp, hlist, hlen⟩ :=
      subscribePacketEncode_parse henc hadm
    obtain ⟨hfiltered, -⟩ := subscribeParse_iff.1 hsubscribe
    obtain ⟨_, _, _, hfrm, -⟩ := framed_of_parse hpkt
    dsimp only
    rw [henc]
    dsimp only
    rw [hpkt]
    dsimp only
    rw [hsubscribe]
    refine ⟨filtered, sub, rfl, hfiltered, hfrm.parsedAs, ?_, hprp, hlist, hlen⟩
    rw [hpid]
    exact hid

def allowedEntries : (Nat → Authorization) → List SubscriptionView → List SubscriptionView
  | _, [] => []
  | authorize, entry :: rest =>
    match authorize 0 with
    | .allowed => entry :: allowedEntries (fun i => authorize (i + 1)) rest
    | _ => allowedEntries (fun i => authorize (i + 1)) rest

omit [Vstr] in
theorem allowedEntries_sublist (authorize : Nat → Authorization) : (allowedEntries authorize entries).Sublist entries := by
  induction entries generalizing authorize with
  | nil => exact List.Sublist.slnil
  | cons entry rest ih =>
    unfold allowedEntries
    split
    · exact (ih _).cons_cons entry
    · exact (ih _).cons entry

/-- A reason code for each entry: a given one for those that are allowed. -/
def reasonsWith (code : SubscriptionView → UInt8) (version : Version) :
    (Nat → Authorization) → List SubscriptionView → List UInt8
  | _, [] => []
  | authorize, entry :: rest =>
    (match authorize 0 with
      | .allowed => code entry
      | _ => deniedReason version) :: reasonsWith code version (fun i => authorize (i + 1)) rest

omit [Vstr] in
theorem length_reasonsWith (code : SubscriptionView → UInt8) (version : Version) (authorize : Nat → Authorization)
    : (reasonsWith code version authorize entries).length = entries.length := by
  induction entries generalizing authorize with
  | nil => rfl
  | cons entry rest ih => exact congrArg (· + 1) (ih _)

omit [Vstr] in
theorem lawful_cons {version : Version} {authorize : Nat → Authorization} {n : Nat} (hhead : ¬Fatal version (authorize 0))
    (hrest : ∀ i < n, ¬Fatal version (authorize (i + 1))) : ∀ i < n + 1, ¬Fatal version (authorize i)
  | 0, _ => hhead
  | i + 1, hi => hrest i (Nat.lt_of_succ_lt_succ hi)

/-- The marks of the entries, in terms of the authorization results. -/
structure Marked (version : Version) (subs : List Subscription) (authorize : Nat → Authorization)
    (entries : List SubscriptionView) (marks : List Mark) : Prop where
  length : marks.length = entries.length
  lawful : ∀ i < entries.length, ¬Fatal version (authorize i)
  authorized : authorizedEntries marks = allowedEntries authorize entries
  reasons : ∀ code : SubscriptionView → UInt8,
    (marks.map fun mark => if mark.authorized then code mark.entry else deniedReason version) =
      reasonsWith code version authorize entries
  replays : (marks.filter fun mark => mark.authorized && replayStarts mark.entry mark.existed).map Mark.entry =
    (allowedEntries authorize entries).filter fun entry => replayStarts entry (subscriptionExists subs entry.filter)

variable {version : Version} {subs : List Subscription} {authorize : Nat → Authorization}

omit [Vstr] in
theorem authorizeLoop_eq_ok {marks : List Mark} (h : authorizeLoop version subs authorize entries = .ok marks) :
    Marked version subs authorize entries marks := by
  induction entries generalizing authorize marks with
  | nil =>
    cases h
    exact ⟨rfl, nofun, rfl, fun _ => rfl, rfl⟩
  | cons entry rest ih =>
    unfold authorizeLoop at h
    cases hauth : authorize 0 with
    | failed e =>
      rw [hauth] at h
      cases h
    | denied =>
      rw [hauth] at h
      split_ifs at h with hv
      obtain ⟨others, hrest, rfl⟩ := except_map_eq_ok h
      have hoths := ih hrest
      refine ⟨congrArg (· + 1) hoths.length, lawful_cons (hauth ▸ hv) hoths.lawful, ?_, fun code => ?_, ?_⟩
      · rw [allowedEntries, hauth]
        exact hoths.authorized
      · rw [reasonsWith, hauth]
        exact congrArg (deniedReason version :: ·) (hoths.reasons code)
      · rw [allowedEntries, hauth]
        exact hoths.replays
    | allowed =>
      rw [hauth] at h
      obtain ⟨others, hrest, rfl⟩ := except_map_eq_ok h
      have hoths := ih hrest
      refine ⟨congrArg (· + 1) hoths.length, lawful_cons (hauth ▸ id) hoths.lawful, ?_, fun code => ?_, ?_⟩
      · rw [allowedEntries, hauth]
        exact congrArg (entry :: ·) hoths.authorized
      · rw [reasonsWith, hauth]
        exact congrArg (code entry :: ·) (hoths.reasons code)
      rw [allowedEntries, hauth, filter_cons, filter_cons, ← hoths.replays]
      simp only [Bool.true_and]
      split <;> rfl

omit [Vstr] in
theorem authorizeLoop_eq_error {e : Errno} (h : authorizeLoop version subs authorize entries = .error e) :
    ∃ i < entries.length, Fatal version (authorize i) := by
  induction entries generalizing authorize with
  | nil => cases h
  | cons entry rest ih =>
    have hrest : ∀ f : List Mark → List Mark, (authorizeLoop version subs (fun i => authorize (i + 1)) rest).map f = .error e →
        ∃ i < (entry :: rest).length, Fatal version (authorize i) := by
      intro f h
      cases hloop : authorizeLoop version subs (fun i => authorize (i + 1)) rest with
      | ok marks => simp [hloop, Except.map] at h
      | error e' =>
        rw [hloop] at h
        cases h
        obtain ⟨i, hi, hfatal⟩ := ih hloop
        exact ⟨i + 1, Nat.succ_lt_succ hi, hfatal⟩
    unfold authorizeLoop at h
    cases hauth : authorize 0 with
    | failed e' => exact ⟨0, Nat.succ_pos _, hauth ▸ trivial⟩
    | denied =>
      rw [hauth] at h
      split_ifs at h with hv
      · exact ⟨0, Nat.succ_pos _, hauth ▸ hv⟩
      · exact hrest _ h
    | allowed =>
      rw [hauth] at h
      exact hrest _ h

variable {capacity : Nat} {identifier : UInt32} {changed : Bool} {applied : List Subscription}

/-- There is no room for a new subscription and the entry does not replace one. -/
def NoRoom (capacity : Nat) (subs : List Subscription) (entry : SubscriptionView) : Prop :=
  capacity ≤ subs.length ∧ subscriptionExists subs entry.filter = false

variable {entry : SubscriptionView}

omit [Vstr] in
theorem subscriptionApply_error {e : Errno}
    (h : subscriptionApply capacity entry identifier subs changed = .error e) : e = .enospc ∧ NoRoom capacity subs entry := by
  unfold subscriptionApply at h
  split at h
  · split at h <;> cases h
  · rename_i hfind
    split at h
    · rename_i hfull
      cases h
      exact ⟨rfl, hfull, by simpa [subscriptionExists] using hfind⟩
    · cases h

/-- The number of different filters among the entries that are not known. -/
def newCount : (Bytes → Bool) → List SubscriptionView → Nat
  | _, [] => 0
  | known, entry :: rest =>
    (if known entry.filter then 0 else 1) + newCount (fun filter => known filter || filter == entry.filter) rest

/-- The entries have room together. -/
def Fits (capacity : Nat) (subs : List Subscription) (entries : List SubscriptionView) : Prop :=
  newCount (subscriptionExists subs) entries = 0 ∨ subs.length + newCount (subscriptionExists subs) entries ≤ capacity

omit [Vstr] in
/-- An entry has no room, or its filter is subscribed afterwards. -/
theorem subscriptionApply_cases :
    (subscriptionApply capacity entry identifier subs changed = .error .enospc ∧ NoRoom capacity subs entry) ∨
      ∃ applied changed', subscriptionApply capacity entry identifier subs changed = .ok (applied, changed') ∧
        ¬NoRoom capacity subs entry ∧
        (∀ filter, subscriptionExists applied filter = (subscriptionExists subs filter || filter == entry.filter)) ∧
        applied.length = subs.length + (if subscriptionExists subs entry.filter then 0 else 1) := by
  cases happ : subscriptionApply capacity entry identifier subs changed with
  | error e =>
    obtain ⟨rfl, hfull⟩ := subscriptionApply_error happ
    exact .inl ⟨rfl, hfull⟩
  | ok result =>
    refine .inr ⟨result.1, result.2, rfl, ?_⟩
    have hany : ∀ (l : List Subscription) filter, subscriptionExists l filter = decide (filter ∈ l.map Subscription.filter) := by
      intro l filter
      rw [Bool.eq_iff_iff]
      simp [subscriptionExists]
    unfold NoRoom
    simp only [hany]
    rcases subscriptionApply_eq_ok happ with ⟨i, old, hold, hkey, happlied⟩ | ⟨hnew, hsp, happlied⟩
    · have hmem : entry.filter ∈ subs.map Subscription.filter := mem_map.2 ⟨old, mem_of_getElem? hold, hkey⟩
      refine ⟨by simp [hmem], fun filter => ?_, by simp [happlied, hmem]⟩
      rw [happlied, KeyedList.map_set_of_key hold (show (subscriptionOf entry identifier).filter = old.filter from hkey.symm)]
      by_cases hfil : filter = entry.filter
      · simp [hfil, hmem]
      · simp [hfil]
    · have hmem : entry.filter ∉ subs.map Subscription.filter := by
        simpa using hnew
      refine ⟨fun hfull => absurd hsp (Nat.not_lt.2 hfull.1), fun filter => ?_, by simp [happlied, hmem]⟩
      rw [happlied, Bool.eq_iff_iff]
      simp [subscriptionOf]

omit [Vstr] in
theorem not_fits_cons {rest : List SubscriptionView} (h : NoRoom capacity subs entry) : ¬Fits capacity subs (entry :: rest) := by
  have hfull := h.1
  simp [Fits, newCount, h.2]
  omega

omit [Vstr] in
/-- Behind an entry that is applied the others need room. -/
theorem fits_cons {rest : List SubscriptionView} {changed' : Bool}
    (happ : subscriptionApply capacity entry identifier subs changed = .ok (applied, changed')) :
    Fits capacity subs (entry :: rest) ↔ Fits capacity applied rest := by
  unfold Fits
  rw [newCount]
  obtain ⟨hfull, -⟩ | ⟨_, _, happ', hroom, hexists, hlen⟩ :=
    @subscriptionApply_cases subs capacity identifier changed entry
  · cases happ.symm.trans hfull
  cases happ.symm.trans happ'
  rw [← funext hexists, hlen]
  by_cases hkn : subscriptionExists subs entry.filter = true
  · simp [hkn]
  · have hsp : ¬capacity ≤ subs.length := fun hfull => hroom ⟨hfull, by simpa using hkn⟩
    simp [hkn]
    omega

omit [Vstr] in
/-- The entries are applied exactly when they have room together. -/
theorem subscribeLoop_spec :
    match subscribeLoop capacity identifier entries subs changed with
    | .error e => e = .enospc ∧ ¬Fits capacity subs entries
    | .ok (applied, changed') => Fits capacity subs entries ∧ (changed' = false → applied = subs ∧ changed = false) := by
  induction entries generalizing subs changed with
  | nil => exact ⟨.inl rfl, fun h => ⟨rfl, h⟩⟩
  | cons entry rest ih =>
    unfold subscribeLoop
    obtain ⟨happ, hfull⟩ | ⟨after, changed₁, happ, -⟩ := @subscriptionApply_cases subs capacity identifier changed entry
    · rw [happ]
      exact ⟨rfl, not_fits_cons hfull⟩
    have hrest := @ih after changed₁
    rw [happ, fits_cons happ]
    dsimp only
    cases hloop : subscribeLoop capacity identifier rest after changed₁ with
    | error e =>
      rw [hloop] at hrest
      exact hrest
    | ok result =>
      rw [hloop] at hrest
      refine ⟨hrest.1, fun hfls => ?_⟩
      obtain ⟨hkept, rfl⟩ := hrest.2 hfls
      rw [hkept]
      unfold subscriptionApply at happ
      split at happ
      · split at happ
        · cases happ
          exact ⟨rfl, rfl⟩
        · cases happ
      · split at happ <;> cases happ

variable {owner : Owner}

/-- The entries of a SUBSCRIBE that was read are applied one after the other. -/
theorem ownerSubscribe_of_list (htype : packet.type = .subscribe) (hv : packet.version.supported = true)
    (hid : subscribe.packetId ≠ 0) (hcnt : subscribe.entryCount = entries.length) (hne : entries ≠ [])
    (hidn : subscribeIdentifier packet.version subscribe.properties = .ok identifier)
    (hlist : subscriptions packet.version subscribe.entries = (entries, .needMore)) :
    ownerSubscribe owner packet subscribe =
      if !owner.active then .error .ebusy
      else if packet.version ≠ owner.version then .error .eproto
      else
        match subscribeLoop owner.config.maxSubscriptions identifier entries owner.subscriptions false with
        | .error e => .error e
        | .ok (applied, changed) =>
          if changed then
            if owner.resourceGeneration = uint64Max then .error .erange
            else .ok ({ owner.advanced with subscriptions := applied }, ⟨subscribe.packetId, entries.length, changed⟩)
          else .ok (owner, ⟨subscribe.packetId, entries.length, changed⟩) := by
  have hlen : entries.length ≠ 0 := by simpa using hne
  unfold ownerSubscribe
  split
  · rfl
  by_cases hsame : packet.version = owner.version
  · rw [if_neg (show ¬(packet.type ≠ .subscribe ∨ packet.version ≠ owner.version ∨ subscribe.packetId = 0 ∨
      subscribe.entryCount = 0) by simp [htype, hsame, hid, hcnt, hlen]), if_neg (by simp [hv]),
      if_neg (not_not.2 hsame), hidn, hlist]
    dsimp only
    cases subscribeLoop owner.config.maxSubscriptions identifier entries owner.subscriptions false with
    | error e => rfl
    | ok result =>
      obtain ⟨applied, changed⟩ := result
      dsimp only
      rw [if_neg (by simp [hcnt])]
      unfold generationAdvance
      by_cases hgen : owner.resourceGeneration = uint64Max
      · rw [if_pos hgen, if_pos hgen]
      · rw [if_neg hgen, if_neg hgen]
  · rw [if_pos (.inr (.inl hsame)), if_pos hsame]

variable {saved : Except Errno Unit}

/-- What the handling shows: the subscriptions, the reason codes and the replays. -/
def SubscribeOutcome.result (outcome : SubscribeOutcome) : List Subscription × List UInt8 × List SubscriptionView :=
  (outcome.owner.subscriptions, outcome.reasons, outcome.replays)

/-- The result of a SUBSCRIBE that does not fail. -/
def batchResult (capacity : Nat) (version : Version) (identifier : UInt32) (authorize : Nat → Authorization)
    (subs : List Subscription) (entries : List SubscriptionView) :
    List Subscription × List UInt8 × List SubscriptionView :=
  match subscribeLoop capacity identifier (allowedEntries authorize entries) subs false with
  | .error _ => (subs, reasonsWith (fun _ => noRoomReason version) version authorize entries, [])
  | .ok (applied, _) =>
    (applied, reasonsWith SubscriptionView.qos version authorize entries,
      (allowedEntries authorize entries).filter fun entry => replayStarts entry (subscriptionExists subs entry.filter))

/-- The session is connected with the version, can be copied, and takes some more changes. -/
structure Ready (owner : Owner) (version : Version) (changes : Nat) : Prop where
  active : owner.active = true
  version : version = owner.version
  copied : (ownerClone owner).isSome = true
  generation : owner.resourceGeneration.toNat + changes ≤ uint64Max.toNat

/-- The SUBSCRIBE closes the connection: for an authorization result, or for lack of room in MQTT 3.1. -/
def SubscribeFails (authorize : Nat → Authorization) (owner : Owner) (version : Version)
    (entries : List SubscriptionView) : Prop :=
  (∃ i < entries.length, Fatal version (authorize i)) ∨
    version = .v31 ∧ ¬Fits owner.config.maxSubscriptions owner.subscriptions (allowedEntries authorize entries)

variable {changes : Nat}

omit [Vstr] in
theorem Ready.mono {fewer : Nat} (h : Ready owner version changes) (hle : fewer ≤ changes) : Ready owner version fewer :=
  ⟨h.active, h.version, h.copied, Nat.le_trans (Nat.add_le_add_left hle _) h.generation⟩

omit [Vstr] in
theorem Ready.advanced {staged : Owner} (h : Ready owner version (changes + 1)) (hclo : ownerClone owner = some staged)
    (applied : List Subscription) : Ready { staged.advanced with subscriptions := applied } version changes := by
  obtain ⟨deliveries, rfl, hsame⟩ := ownerClone_eq_some hclo
  have hgen := h.generation
  refine ⟨h.active, h.version, Eq.trans ?_ h.copied, ?_⟩
  · unfold ownerClone
    simp only [Owner.advanced, hsame]
    split
    · rfl
    · split <;> rfl
  · have hle : (owner.resourceGeneration + 1).toNat ≤ owner.resourceGeneration.toNat + 1 := by
      rw [UInt64.toNat_add]
      exact Nat.mod_le _ _
    simp only [Owner.advanced]
    omega

/-- A SUBSCRIBE that was read fails without effect, or has the result of the batch and leaves the session ready. -/
theorem handleSubscribe_spec (authorize : Nat → Authorization) (hpar : subscribeParse packet = .ok subscribe)
    (hidn : subscribeIdentifier packet.version subscribe.properties = .ok identifier)
    (hents : subscriptions packet.version subscribe.entries = (entries, .needMore))
    (hbody : packet.body.length ≤ maxRemainingLength) (hrdy : Ready owner packet.version (changes + 1)) :
    (SubscribeFails authorize owner packet.version entries ∧
      ∃ e, handleSubscribe authorize (.ok ()) owner packet = .failed owner e) ∨
    ¬SubscribeFails authorize owner packet.version entries ∧
      ∃ after, Ready after packet.version changes ∧ after.config = owner.config ∧ ∃ reasons replays,
        handleSubscribe authorize (.ok ()) owner packet = ⟨after, reasons, replays, none⟩ ∧
        (after.subscriptions, reasons, replays) =
          batchResult owner.config.maxSubscriptions packet.version identifier authorize owner.subscriptions entries := by
  obtain ⟨-, hv, -, -, -, -, entries', hents', hcnt⟩ := subscribeParse_iff.1 hpar
  obtain rfl : entries = entries' := congrArg Prod.fst (hents.symm.trans hents')
  unfold handleSubscribe SubscribeFails
  rw [hpar]
  dsimp only
  rw [hidn]
  rw [hents]
  cases hmarks : authorizeLoop packet.version owner.subscriptions authorize entries with
  | error e => exact .inl ⟨.inl (authorizeLoop_eq_error hmarks), e, rfl⟩
  | ok marks =>
    have hmarked := authorizeLoop_eq_ok hmarks
    have hlawful : ¬∃ i < entries.length, Fatal packet.version (authorize i) :=
      fun ⟨i, hi, hfatal⟩ => hmarked.lawful i hi hfatal
    have hstays := hrdy.mono (Nat.le_succ changes)
    -- with the entries applied, the outcome of `granted` is that of the batch
    have hgranted : ∀ (after : Owner) changed,
        subscribeLoop owner.config.maxSubscriptions identifier (allowedEntries authorize entries) owner.subscriptions
          false = .ok (after.subscriptions, changed) →
        ∃ reasons replays, granted after packet.version marks = ⟨after, reasons, replays, none⟩ ∧
          (after.subscriptions, reasons, replays) = batchResult owner.config.maxSubscriptions packet.version identifier
            authorize owner.subscriptions entries := by
      intro after changed hloop
      unfold batchResult
      rw [hloop]
      dsimp only
      rw [← hmarked.replays, ← hmarked.reasons]
      exact ⟨_, _, rfl, rfl⟩
    dsimp only
    rw [if_neg (by simp [hmarked.length, hcnt]), hmarked.authorized]
    simp only [hlawful, false_or]
    by_cases hnone : allowedEntries authorize entries = []
    · rw [if_pos (by simp [hnone]), hnone]
      exact .inr ⟨fun h => h.2 (.inl rfl), owner, hstays, rfl, hgranted owner false (by rw [hnone]; rfl)⟩
    rw [if_neg (by simpa using hnone)]
    obtain ⟨effective, sub, heffective, htype, hver, hid, hprp, hlist, hlen⟩ :=
      effectivePacket_spec hpar hents hbody (allowedEntries_sublist authorize) hnone
    obtain ⟨staged, hclo⟩ := Option.isSome_iff_exists.1 hrdy.copied
    have hadvanced := hrdy.advanced hclo
    obtain ⟨deliveries, rfl, -⟩ := ownerClone_eq_some hclo
    have hgen : owner.resourceGeneration ≠ uint64Max := by
      have := hrdy.generation
      intro hmax
      rw [hmax] at this
      omega
    rw [heffective, hclo]
    dsimp only
    rw [ownerSubscribe_of_list htype (hver ▸ hv) hid hlen hnone (by rw [hver, hprp, hidn])
      (by rw [hver, hlist]), hver, if_neg (by simp [hrdy.active]), if_neg (not_not.2 hrdy.version)]
    have hspec := @subscribeLoop_spec (allowedEntries authorize entries) owner.subscriptions
      owner.config.maxSubscriptions identifier false
    cases hloop : subscribeLoop owner.config.maxSubscriptions identifier (allowedEntries authorize entries)
      owner.subscriptions false with
    | error e =>
      rw [hloop] at hspec
      obtain ⟨rfl, hfits⟩ := hspec
      by_cases h31 : packet.version = .v31
      · exact .inl ⟨⟨h31, hfits⟩, _, if_pos h31⟩
      · refine .inr ⟨fun h => h31 h.1, owner, hstays, rfl, _, _, if_neg h31, ?_⟩
        unfold batchResult
        rw [hloop, ← hmarked.reasons]
    | ok result =>
      obtain ⟨applied, changed⟩ := result
      rw [hloop] at hspec
      refine .inr ⟨fun h => h.2 hspec.1, ?_⟩
      cases changed with
      | false =>
        cases (hspec.2 rfl).1
        exact ⟨owner, hstays, rfl, hgranted owner false hloop⟩
      | true =>
        dsimp only
        rw [if_pos rfl, if_neg hgen]
        exact ⟨_, hadvanced applied, rfl, hgranted _ true hloop⟩

/-- The result of the packets one after the other when none of them fails: an entry without room is skipped. -/
def oneByOne (capacity : Nat) (version : Version) (identifier : UInt32) :
    (Nat → Authorization) → List Subscription → List SubscriptionView →
      List Subscription × List UInt8 × List SubscriptionView
  | _, subs, [] => (subs, [], [])
  | authorize, subs, entry :: rest =>
    let first := batchResult capacity version identifier (fun _ => authorize 0) subs [entry]
    let others := oneByOne capacity version identifier (fun i => authorize (i + 1)) first.1 rest
    (others.1, first.2.1 ++ others.2.1, first.2.2 ++ others.2.2)

omit [Vstr] in
theorem length_batchResult (capacity : Nat) (version : Version) (identifier : UInt32) (authorize : Nat → Authorization)
    (subs : List Subscription) (entries : List SubscriptionView) :
    (batchResult capacity version identifier authorize subs entries).2.1.length = entries.length := by
  unfold batchResult
  split <;> exact length_reasonsWith _ _ _

/-- The SUBSCRIBE packets with one entry each and the properties of a given one. -/
def Singles (version : Version) (properties : Bytes) : List SubscriptionView → List PacketView → Prop :=
  List.Forall₂ fun entry packet => packet.version = version ∧ packet.body.length ≤ maxRemainingLength ∧
    ∃ subscribe, subscribeParse packet = .ok subscribe ∧ subscribe.properties = properties ∧
      subscriptions version subscribe.entries = ([entry], .needMore)

/-- The identifier of a SUBSCRIBE that was read is read again. -/
theorem subscribeIdentifier_of_parse (h : subscribeParse packet = .ok subscribe) :
    ∃ identifier, subscribeIdentifier packet.version subscribe.properties = .ok identifier := by
  obtain ⟨-, hv, -, ⟨present, hval⟩, -⟩ := subscribeParse_iff.1 h
  unfold subscribeIdentifier
  split
  · rename_i h5
    have hprp := (propertyValuesValidate_eq_ok hval hv).2.1 h5.1
    unfold propertiesValidate at hprp
    split at hprp
    · cases hprp
    split at hprp
    · rename_i hend
      rw [if_pos hend]
      exact ⟨_, rfl⟩
    · cases hprp
  · exact ⟨_, rfl⟩

section

omit [Vstr]

variable {entry : SubscriptionView}

theorem allowedEntries_allowed {rest : List SubscriptionView} (hallow : authorize 0 = .allowed) :
    allowedEntries authorize (entry :: rest) = entry :: allowedEntries (fun i => authorize (i + 1)) rest := by
  rw [allowedEntries, hallow]

theorem allowedEntries_other {rest : List SubscriptionView} (hoth : authorize 0 ≠ .allowed) :
    allowedEntries authorize (entry :: rest) = allowedEntries (fun i => authorize (i + 1)) rest := by
  rw [allowedEntries]
  split
  · exact absurd ‹_› hoth
  · rfl

theorem batchResult_allowed (hallow : authorize 0 = .allowed) :
    batchResult capacity version identifier (fun _ => authorize 0) subs [entry] =
      match subscriptionApply capacity entry identifier subs false with
      | .error _ => (subs, [noRoomReason version], [])
      | .ok (applied, _) =>
        (applied, [entry.qos], if replayStarts entry (subscriptionExists subs entry.filter) then [entry] else []) := by
  have hents : allowedEntries (fun _ => authorize 0) [entry] = [entry] := by
    unfold allowedEntries
    rw [hallow]
    rfl
  unfold batchResult
  rw [hents]
  unfold subscribeLoop
  cases subscriptionApply capacity entry identifier subs false with
  | error e => simp [reasonsWith, hallow]
  | ok result => simp [reasonsWith, hallow, subscribeLoop, filter_cons]

theorem batchResult_other (hoth : authorize 0 ≠ .allowed) :
    batchResult capacity version identifier (fun _ => authorize 0) subs [entry] = (subs, [deniedReason version], []) := by
  unfold batchResult
  cases hauth : authorize 0 with
  | allowed => exact absurd hauth hoth
  | denied => simp [reasonsWith, allowedEntries, subscribeLoop]
  | failed e => simp [reasonsWith, allowedEntries, subscribeLoop]

/-- Whether something has changed before does not matter for the subscriptions. -/
theorem subscriptionApply_changed {changed' : Bool}
    (h : subscriptionApply capacity entry identifier subs changed = .ok (applied, changed')) (before : Bool) :
    ∃ after, subscriptionApply capacity entry identifier subs before = .ok (applied, after) := by
  unfold subscriptionApply at h ⊢
  split at h
  · split at h
    · cases h
      rename_i hsame
      exact ⟨_, if_pos hsame⟩
    · cases h
      rename_i hsame
      exact ⟨_, if_neg hsame⟩
  · split_ifs at h
    cases h
    rename_i hroom
    exact ⟨_, if_neg hroom⟩

end

/-- The retained messages are only replayed for a subscription that is new. -/
def SubscriptionView.ReplayedOnce (entry : SubscriptionView) : Prop :=
  sharePrefix.isPrefixOf entry.filter = false ∧ entry.retainHandling = 1

omit [Vstr] in
theorem replayStarts_eq_iff (entry : SubscriptionView) {existed existed' : Bool} (h : existed = true → existed' = true) :
    (replayStarts entry existed' = replayStarts entry existed ↔
      (existed' = true → existed = true ∨ ¬SubscriptionView.ReplayedOnce entry)) ∧
      (replayStarts entry existed' = true → replayStarts entry existed = true) := by
  unfold replayStarts SubscriptionView.ReplayedOnce
  cases existed with
  | true => simp [h rfl]
  | false =>
    cases existed' with
    | false => simp
    | true =>
      by_cases hone : entry.retainHandling = 1
      · simp [hone]
      · simp [hone, beq_eq_false_iff_ne.2 hone]

/-- The replays when each entry is known from then on. -/
def freshReplays : (Bytes → Bool) → List SubscriptionView → List SubscriptionView
  | _, [] => []
  | known, entry :: rest =>
    (if replayStarts entry (known entry.filter) then [entry] else []) ++
      freshReplays (fun filter => known filter || filter == entry.filter) rest

section

omit [Vstr]

variable {known later : Bytes → Bool}

section
variable (hlat : ∀ filter, known filter = true → later filter = true)
include hlat

theorem length_freshReplays_le (entries : List SubscriptionView) :
    (freshReplays later entries).length ≤
      (entries.filter fun entry => replayStarts entry (known entry.filter)).length := by
  induction entries generalizing later with
  | nil => exact Nat.le_refl _
  | cons entry rest ih =>
    have hrest := ih fun filter hkn => show (later filter || filter == entry.filter) = true by rw [hlat _ hkn]; rfl
    have hhead := (replayStarts_eq_iff entry (hlat entry.filter)).2
    rw [freshReplays, filter_cons, length_append]
    split
    · rename_i hstarts
      rw [if_pos (hhead hstarts), length_singleton, length_cons]
      omega
    · split
      · rw [length_cons, length_nil]
        omega
      · rw [length_nil, Nat.zero_add]
        exact hrest

/-- The replays agree with those of the subscriptions before the batch unless an entry that is replayed once
    was known by then only. -/
theorem freshReplays_eq_iff :
    freshReplays later entries = entries.filter (fun entry => replayStarts entry (known entry.filter)) ↔
      (∀ entry ∈ entries, later entry.filter = true →
        known entry.filter = true ∨ ¬SubscriptionView.ReplayedOnce entry) ∧
      entries.Pairwise fun earlier entry => entry.filter = earlier.filter →
        known entry.filter = true ∨ ¬SubscriptionView.ReplayedOnce entry := by
  induction entries generalizing later with
  | nil => simp [freshReplays]
  | cons entry rest ih =>
    have hgrown : ∀ filter, known filter = true → (later filter || filter == entry.filter) = true :=
      fun filter hkn => by rw [hlat _ hkn]; rfl
    have hrest := ih hgrown
    -- the conditions on the rest, with what the head adds to the known filters set apart
    have hspl : (∀ e ∈ rest, (later e.filter || e.filter == entry.filter) = true →
          known e.filter = true ∨ ¬SubscriptionView.ReplayedOnce e) ↔
        (∀ e ∈ rest, later e.filter = true → known e.filter = true ∨ ¬SubscriptionView.ReplayedOnce e) ∧
          ∀ e ∈ rest, e.filter = entry.filter → known e.filter = true ∨ ¬SubscriptionView.ReplayedOnce e := by
      simp only [Bool.or_eq_true, beq_iff_eq]
      exact ⟨fun h => ⟨fun e hmem hl => h e hmem (.inl hl), fun e hmem he => h e hmem (.inr he)⟩,
        fun h e hmem hor => hor.elim (h.1 e hmem) (h.2 e hmem)⟩
    rw [hspl] at hrest
    obtain ⟨hsame, himp⟩ := replayStarts_eq_iff entry (hlat entry.filter)
    rw [freshReplays, filter_cons, forall_mem_cons, pairwise_cons, ← hsame]
    have hlen := length_freshReplays_le hgrown rest
    cases hbef : replayStarts entry (known entry.filter) with
    | true =>
      cases hstarts : replayStarts entry (later entry.filter) with
      | true =>
        rw [if_pos rfl, if_pos rfl, singleton_append, List.cons.injEq, hrest]
        tauto
      | false =>
        rw [if_neg (by decide), if_pos rfl, nil_append]
        constructor
        · intro heq
          rw [heq, length_cons] at hlen
          omega
        · intro h
          exact absurd h.1.1 (by decide)
    | false =>
      have hnot : replayStarts entry (later entry.filter) = false := by
        by_contra hstarts
        rw [himp (by simpa using hstarts)] at hbef
        cases hbef
      rw [hnot, if_neg (by decide), if_neg (by decide), nil_append, hrest]
      tauto

end

/-- With room for all of them, the entries one after the other give the subscriptions and the reason codes of
    the batch. -/
theorem oneByOne_of_room {changed' : Bool}
    (h : subscribeLoop capacity identifier (allowedEntries authorize entries) subs changed = .ok (applied, changed')) :
    oneByOne capacity version identifier authorize subs entries =
      (applied, reasonsWith SubscriptionView.qos version authorize entries,
        freshReplays (subscriptionExists subs) (allowedEntries authorize entries)) := by
  induction entries generalizing authorize subs changed with
  | nil =>
    cases h
    rfl
  | cons entry rest ih =>
    unfold oneByOne
    by_cases hallow : authorize 0 = .allowed
    · rw [batchResult_allowed hallow]
      rw [allowedEntries_allowed hallow] at h ⊢
      unfold subscribeLoop at h
      obtain ⟨hfull, -⟩ | ⟨after, changed₁, happ, -, hexists, -⟩ := subscriptionApply_cases
      · rw [hfull] at h
        cases h
      · rw [happ] at h
        obtain ⟨changed₂, hfr⟩ := subscriptionApply_changed happ false
        rw [hfr]
        dsimp only
        rw [ih h, freshReplays, reasonsWith, hallow]
        simp only [singleton_append]
        rw [funext hexists]
    · rw [allowedEntries_other hallow] at h ⊢
      rw [batchResult_other hallow]
      dsimp only
      rw [ih h, reasonsWith]
      cases hauth : authorize 0 with
      | allowed => exact absurd hauth hallow
      | denied => rfl
      | failed e => rfl

/-- The entries one after the other are all refused exactly when none of them has room. -/
theorem oneByOne_refused_iff (hqos : ∀ entry ∈ entries, entry.qos ≤ 2) :
    oneByOne capacity version identifier authorize subs entries =
        (subs, reasonsWith (fun _ => noRoomReason version) version authorize entries, []) ↔
      ∀ entry ∈ allowedEntries authorize entries, NoRoom capacity subs entry := by
  induction entries generalizing authorize with
  | nil => simp [oneByOne, reasonsWith, allowedEntries]
  | cons entry rest ih =>
    have hrest := @ih (fun i => authorize (i + 1)) (fun e hmem => hqos e (mem_cons_of_mem _ hmem))
    unfold oneByOne
    by_cases hallow : authorize 0 = .allowed
    · rw [batchResult_allowed hallow, allowedEntries, hallow, reasonsWith, hallow]
      rw [forall_mem_cons, ← hrest]
      obtain ⟨hfull, hno⟩ | ⟨after, changed, happ, hroom, -⟩ :=
        subscriptionApply_cases
      · rw [hfull]
        simp [hno, Prod.ext_iff]
      · rw [happ]
        have hne : entry.qos ≠ noRoomReason version := by
          intro heq
          have hle := hqos entry (mem_cons_self ..)
          rw [heq] at hle
          unfold noRoomReason at hle
          split at hle <;> exact absurd hle (by decide)
        simp [hroom, hne, Prod.ext_iff]
    · rw [allowedEntries_other hallow, batchResult_other hallow, ← hrest, reasonsWith]
      cases hauth : authorize 0 with
      | allowed => exact absurd hauth hallow
      | denied => simp [Prod.ext_iff]
      | failed e => simp [Prod.ext_iff]

end

omit [Vstr] in
theorem allowedEntries_single (authorize : Nat → Authorization) (entry : SubscriptionView) :
    allowedEntries (fun _ => authorize 0) [entry] = if authorize 0 = .allowed then [entry] else [] := by
  unfold allowedEntries
  cases authorize 0 <;> rfl

/-- No packet with a single entry fails: all of them fit, or none has room. -/
structure Calm (authorize : Nat → Authorization) (owner : Owner) (version : Version) (entries : List SubscriptionView) :
    Prop where
  lawful : ∀ i < entries.length, ¬Fatal version (authorize i)
  room : Fits owner.config.maxSubscriptions owner.subscriptions (allowedEntries authorize entries) ∨
    version ≠ .v31 ∧ ∀ entry ∈ allowedEntries authorize entries, NoRoom owner.config.maxSubscriptions owner.subscriptions entry

section

variable {rest : List SubscriptionView} {authorize : Nat → Authorization} (h : Calm authorize owner version (entry :: rest))
include h

omit [Vstr] in
theorem Calm.head : ¬SubscribeFails (fun _ => authorize 0) owner version [entry] := by
  rintro (⟨_, -, hfatal⟩ | ⟨h31, hfull⟩)
  · exact h.lawful 0 (Nat.succ_pos _) hfatal
  have hroom := h.room.resolve_right fun hnone => hnone.1 h31
  rw [allowedEntries_single] at hfull
  by_cases hallow : authorize 0 = .allowed
  · rw [allowedEntries_allowed hallow] at hroom
    rw [if_pos hallow] at hfull
    obtain ⟨-, hnone⟩ | ⟨_, _, happ, -⟩ := @subscriptionApply_cases owner.subscriptions
      owner.config.maxSubscriptions 0 false entry
    · exact not_fits_cons hnone hroom
    · exact hfull ((fits_cons happ).2 (.inl rfl))
  · rw [if_neg hallow] at hfull
    exact hfull (.inl rfl)

omit [Vstr] in
theorem Calm.tail {after : Owner} (hcfg : after.config = owner.config)
    (haft : after.subscriptions =
      (batchResult owner.config.maxSubscriptions version identifier (fun _ => authorize 0) owner.subscriptions [entry]).1) :
    Calm (fun i => authorize (i + 1)) after version rest := by
  obtain ⟨hlawful, hroom⟩ := h
  refine ⟨fun i hi => hlawful (i + 1) (Nat.succ_lt_succ hi), ?_⟩
  rw [hcfg]
  by_cases hallow : authorize 0 = .allowed
  swap
  · rw [allowedEntries_other hallow] at hroom
    rw [batchResult_other hallow] at haft
    rwa [haft]
  rw [allowedEntries_allowed hallow] at hroom
  rw [batchResult_allowed hallow] at haft
  obtain ⟨happ, hnone⟩ | ⟨applied, changed, happ, hsp, -⟩ := @subscriptionApply_cases
    owner.subscriptions owner.config.maxSubscriptions identifier false entry
  all_goals
    rw [happ] at haft
    rw [show after.subscriptions = _ from haft]
  · obtain ⟨hv, hfull⟩ := hroom.resolve_left (not_fits_cons hnone)
    exact .inr ⟨hv, fun e hmem => hfull e (mem_cons_of_mem _ hmem)⟩
  · exact .inl ((fits_cons happ).1 (hroom.resolve_right fun hfull => hsp (hfull.2 _ (mem_cons_self ..))))

end

section

variable {properties : Bytes} {packets : List PacketView}
  (hidn : subscribeIdentifier version properties = .ok identifier)
  (hpkts : Singles version properties entries packets)
include hidn hpkts

/-- The packets one after the other, up to the first that fails. -/
theorem handleEach_spec (authorize : Nat → Authorization) (hrdy : Ready owner version entries.length) :
    ((handleEach (.ok ()) authorize owner packets).error ≠ none →
      (handleEach (.ok ()) authorize owner packets).reasons.length < entries.length) ∧
    ((handleEach (.ok ()) authorize owner packets).error = none → (handleEach (.ok ()) authorize owner packets).result =
      oneByOne owner.config.maxSubscriptions version identifier authorize owner.subscriptions entries) ∧
    (Calm authorize owner version entries → (handleEach (.ok ()) authorize owner packets).error = none) := by
  induction hpkts generalizing authorize owner with
  | nil => exact ⟨fun h => absurd rfl h, fun _ => rfl, fun _ => rfl⟩
  | @cons entry packet rest packets hpkt _ ih =>
    obtain ⟨rfl, hbody, subscribe, hpar, rfl, hents⟩ := hpkt
    unfold handleEach oneByOne
    dsimp only
    obtain ⟨hfails, e, hfst⟩ | ⟨-, after, haft, hcfg, reasons, replays, hfst, hres⟩ :=
      handleSubscribe_spec (fun _ => authorize 0) hpar hidn hents hbody hrdy
    · rw [hfst]
      exact ⟨fun _ => Nat.succ_pos _, nofun, fun hcalm => absurd hfails hcalm.head⟩
    obtain ⟨hsht, hoths, hcalms⟩ := ih (fun i => authorize (i + 1)) haft
    have hone := length_batchResult owner.config.maxSubscriptions packet.version identifier (fun _ => authorize 0)
      owner.subscriptions [entry]
    rw [← hres] at hone
    rw [hfst, ← hres]
    refine ⟨fun hsome => ?_, fun hnone => ?_, fun hcalm => ?_⟩
    · have := hsht hsome
      show (reasons ++ (handleEach (.ok ()) (fun i => authorize (i + 1)) after packets).reasons).length < _
      rw [length_append, show reasons.length = 1 from hone, length_cons]
      omega
    · rw [← hcfg]
      exact congrArg (fun r : List Subscription × List UInt8 × List SubscriptionView =>
        (r.1, reasons ++ r.2.1, replays ++ r.2.2)) (hoths hnone)
    · exact hcalms (hcalm.tail hcfg (congrArg Prod.fst hres))

/-- The packets have no effect and no answer exactly when the first fails. -/
theorem handleEach_first (authorize : Nat → Authorization) (hne : entries ≠ []) (hrdy : Ready owner version 1) :
    (owner.subscriptions, [], []) = (handleEach (.ok ()) authorize owner packets).result ↔
      SubscribeFails (fun _ => authorize 0) owner version (entries.take 1) := by
  cases hpkts with
  | nil => exact absurd rfl hne
  | @cons entry packet rest packets hpkt _ =>
    obtain ⟨rfl, hbody, subscribe, hpar, rfl, hents⟩ := hpkt
    rw [take_succ_cons, take_zero]
    unfold handleEach
    obtain ⟨hfails, e, hfst⟩ | ⟨hokay, after, -, -, reasons, replays, hfst, hres⟩ :=
      handleSubscribe_spec (fun _ => authorize 0) hpar hidn hents hbody hrdy
    · rw [hfst]
      exact iff_of_true rfl hfails
    · have hone := length_batchResult owner.config.maxSubscriptions packet.version identifier (fun _ => authorize 0)
        owner.subscriptions [entry]
      rw [← hres] at hone
      rw [hfst]
      refine iff_of_false (fun heq => ?_) hokay
      cases (append_eq_nil_iff.1 (congrArg (·.2.1) heq).symm).1
      cases hone

/-- The result of the batch is that of the packets when the allowed entries have room together and none that is
    replayed once repeats the new filter of an earlier one, or when none of them has room. -/
theorem batchResult_eq_iff (hrdy : Ready owner version entries.length) (hqos : ∀ entry ∈ entries, entry.qos ≤ 2)
    (hokay : ¬SubscribeFails authorize owner version entries) :
    batchResult owner.config.maxSubscriptions version identifier authorize owner.subscriptions entries =
        (handleEach (.ok ()) authorize owner packets).result ↔
      Fits owner.config.maxSubscriptions owner.subscriptions (allowedEntries authorize entries) ∧
          (allowedEntries authorize entries).Pairwise (fun earlier entry => entry.filter = earlier.filter →
            subscriptionExists owner.subscriptions entry.filter = true ∨ ¬SubscriptionView.ReplayedOnce entry) ∨
        ∀ entry ∈ allowedEntries authorize entries, NoRoom owner.config.maxSubscriptions owner.subscriptions entry := by
  obtain ⟨hsht, hoths, hcalm⟩ := handleEach_spec hidn hpkts authorize hrdy
  have hlawful : ∀ i < entries.length, ¬Fatal version (authorize i) := fun i hi hfatal => hokay (.inl ⟨i, hi, hfatal⟩)
  cases herr : (handleEach (.ok ()) authorize owner packets).error with
  | some e =>
    have hlt := hsht (by simp [herr])
    refine iff_of_false (fun heq => ?_) fun h => ?_
    · have hlen := length_batchResult owner.config.maxSubscriptions version identifier authorize owner.subscriptions
        entries
      rw [heq] at hlen
      exact absurd hlen (Nat.ne_of_lt hlt)
    · have hroom : Calm authorize owner version entries := by
        refine ⟨hlawful, Classical.or_iff_not_imp_left.2 fun hfits => ⟨fun h31 => hokay (.inr ⟨h31, hfits⟩), ?_⟩⟩
        exact h.resolve_left fun hboth => hfits hboth.1
      rw [hcalm hroom] at herr
      cases herr
  | none =>
    have hspec := @subscribeLoop_spec (allowedEntries authorize entries) owner.subscriptions
      owner.config.maxSubscriptions identifier false
    rw [hoths herr]
    unfold batchResult
    cases hloop : subscribeLoop owner.config.maxSubscriptions identifier (allowedEntries authorize entries)
      owner.subscriptions false with
    | error e =>
      rw [hloop] at hspec
      rw [eq_comm, oneByOne_refused_iff hqos]
      simp [hspec.2]
    | ok loopResult =>
      obtain ⟨applied, changed⟩ := loopResult
      rw [hloop] at hspec
      rw [oneByOne_of_room hloop, Prod.mk.injEq, Prod.mk.injEq, eq_comm (b := freshReplays _ _),
        freshReplays_eq_iff (fun _ h => h)]
      constructor
      · rintro ⟨-, -, -, hpairwise⟩
        exact .inl ⟨hspec.1, hpairwise⟩
      · refine fun h => ⟨rfl, rfl, fun _ _ hkn => .inl hkn, ?_⟩
        rcases h with ⟨-, hpairwise⟩ | hnone
        · exact hpairwise
        -- entries that have room together and none of which has room are none
        generalize allowedEntries authorize entries = allowed at hspec hnone ⊢
        cases allowed with
        | nil => exact .nil
        | cons entry rest => exact absurd hspec.1 (not_fits_cons (hnone entry (mem_cons_self ..)))

end

/-- A SUBSCRIBE that fails agrees with its single packets when the first of them fails as well. Another one agrees when
    the allowed entries have room together and none that is replayed once repeats the new filter of an earlier one, or
    when none of them has room. -/
def BatchAgrees (authorize : Nat → Authorization) (owner : Owner) (version : Version) (entries : List SubscriptionView) : Prop :=
  SubscribeFails authorize owner version entries ∧ SubscribeFails (fun _ => authorize 0) owner version (entries.take 1) ∨
    ¬SubscribeFails authorize owner version entries ∧
      (Fits owner.config.maxSubscriptions owner.subscriptions (allowedEntries authorize entries) ∧
          (allowedEntries authorize entries).Pairwise (fun earlier entry => entry.filter = earlier.filter →
            subscriptionExists owner.subscriptions entry.filter = true ∨ ¬SubscriptionView.ReplayedOnce entry) ∨
        ∀ entry ∈ allowedEntries authorize entries, NoRoom owner.config.maxSubscriptions owner.subscriptions entry)

end

def subscribePacket (entries : List SubscriptionView) : PacketView :=
  ⟨.v5, .subscribe, 2, [0, 1, 0] ++ entries.flatMap subscriptionWrite⟩

def subscribeView (entries : List SubscriptionView) : SubscribeView :=
  ⟨1, [], entries.flatMap subscriptionWrite, entries.length⟩

/-- The entries are valid and one packet holds them. -/
def Readable [Vstr] (entries : List SubscriptionView) : Prop :=
  (∀ entry ∈ entries, subscriptionCheck .v5 entry = .ok ()) ∧ (subscribePacket entries).body.length ≤ maxRemainingLength

variable {entries : List SubscriptionView}

theorem Readable.subscriptions [Vstr] (h : Readable entries) :
    Mqtt.subscriptions .v5 (subscribeView entries).entries = (entries, .needMore) :=
  subscriptions_iff.2 ⟨h.1, rfl⟩

theorem Readable.parse [Vstr] (h : Readable entries) (hne : entries ≠ []) :
    subscribeParse (subscribePacket entries) = .ok (subscribeView entries) := by
  have hid : (1 : UInt16) ≠ 0 := by decide
  have hhead : [0, 1, 0] = write 2 1 ++ versionedPropertiesWrite .v5 [] := by decide
  have hlayout : (subscribePacket entries).body = write 2 1 ++
      (versionedPropertiesWrite .v5 [] ++ entries.flatMap subscriptionWrite) := by
    rw [← append_assoc, ← hhead]
    rfl
  refine subscribeParse_iff.2 ⟨rfl, rfl, hid, ⟨[], rfl⟩, hlayout, ?_, entries, h.subscriptions, rfl⟩
  obtain ⟨entry, rest, rfl⟩ := exists_cons_of_ne_nil hne
  exact fun hnil => subscriptionWrite_ne_nil entry (List.append_eq_nil_iff.1 hnil).1

theorem Readable.singles [Vstr] (h : Readable entries) :
    Singles .v5 [] entries (entries.map fun entry => subscribePacket [entry]) := by
  refine List.forall₂_map_right_iff.2 (List.forall₂_same.2 fun entry hmem => ?_)
  have hone : Readable [entry] := by
    refine ⟨fun e he => h.1 e (List.mem_singleton.1 he ▸ hmem), Nat.le_trans ?_ h.2⟩
    have hle := length_flatMap_le (List.singleton_sublist.2 hmem)
    simp only [subscribePacket, length_append]
    omega
  exact ⟨rfl, hone.2, _, hone.parse (by simp), rfl, hone.subscriptions⟩

section

attribute [local instance] asciiVstr

def sampleEntry (filter : String) (retainHandling : UInt8) : SubscriptionView :=
  ⟨text filter, 0, false, false, retainHandling⟩

def connectedOwner : Owner := run smallOwner [.connect { persistentConnect with version := .v5 } false]

def newFilters : List SubscriptionView := [sampleEntry "a" 1, sampleEntry "b" 0]

theorem readable_newFilters : Readable newFilters := ⟨by decide, by decide⟩

end

end Flowie.Endpoint
