import Mathlib.Data.List.Forall2
import Flowie.Mqtt.RoundTrip

/-!
# Exchanging parts of a packet

A packet with the DUP flag set, with another body of the same size or with other property values of
the same shape is parsed as before apart from the part that was exchanged.
-/

namespace Flowie.Mqtt

open Reader List

variable {first : UInt8} {version : Version} {flags : Nat}

theorem fixedHeader_eq_publish :
    fixedHeader first version = some (.publish, flags) ↔
      first.toNat / 16 = 3 ∧ flags = first.toNat % 16 ∧ flags / 2 % 4 ≠ 3 ∧
        ¬(flags / 2 % 4 = 0 ∧ flags / 8 % 2 = 1) := by
  constructor
  · intro h
    obtain ⟨rfl, hfl, hpub, -⟩ := fixedHeader_eq_some h
    have hfst : (UInt8.ofNat (PacketType.publish.toNibble * 16 + flags)).toNat = 48 + flags := by
      rw [UInt8.toNat_ofNat']
      exact Nat.mod_eq_of_lt (show 48 + flags < 256 by omega)
    exact ⟨by omega, by omega, hpub rfl⟩
  · intro ⟨hfst, hfl, hqos, hdup⟩
    unfold fixedHeader
    rw [hfst, ← hfl]
    exact if_pos ⟨hqos, hdup⟩

/-- The DUP flag can be set in the first byte of a PUBLISH above QoS 0. -/
theorem fixedHeader_duplicate (h : fixedHeader first version = some (.publish, flags)) (hqos : flags / 2 % 4 ≠ 0) :
    first.toNat / 16 = 3 ∧ ∃ flags', fixedHeader (first ||| 0x08) version = some (.publish, flags') ∧
      flags' / 2 % 4 = flags / 2 % 4 ∧ flags' % 2 = flags % 2 ∧ flags' / 8 % 2 = 1 := by
  obtain ⟨hfst, rfl, hthree, -⟩ := fixedHeader_eq_publish.1 h
  have hall : ∀ n < 16, (UInt8.ofNat (48 + n) ||| 0x08).toNat / 16 = 3 ∧
      (UInt8.ofNat (48 + n) ||| 0x08).toNat % 16 / 2 % 4 = n / 2 % 4 ∧
      (UInt8.ofNat (48 + n) ||| 0x08).toNat % 16 % 2 = n % 2 ∧
      (UInt8.ofNat (48 + n) ||| 0x08).toNat % 16 / 8 % 2 = 1 := by decide
  have hbits := hall (first.toNat % 16) (by omega)
  rw [show 48 + first.toNat % 16 = first.toNat by omega, UInt8.ofNat_toNat] at hbits
  obtain ⟨hnibble, hq, hret, hdup⟩ := hbits
  refine ⟨hfst, _, fixedHeader_eq_publish.2 ⟨hnibble, rfl, ?_, ?_⟩, hq, hret, hdup⟩
  · rw [hq]
    exact hthree
  · rw [hq]
    exact fun hboth => hqos hboth.1

section

variable [Vstr]

/-- The values hold properties of the same identifiers in the same order. -/
structure SameShape (values' values : Bytes) : Prop where
  length : values'.length = values.length
  identifiers : (properties values').1.map (·.identifier) = (properties values).1.map (·.identifier)
  ending : (properties values').2 = (properties values).2

omit [Vstr] in
theorem propertiesCheck_congr {allowed repeatable : List PropertyId} {ps' ps : List Property}
    (h : ps'.map (·.identifier) = ps.map (·.identifier)) (present : List PropertyId) :
    propertiesCheck allowed repeatable present ps' = propertiesCheck allowed repeatable present ps := by
  rw [← forall₂_eq_eq_eq, forall₂_map_left_iff, forall₂_map_right_iff] at h
  induction h generalizing present with
  | nil => rfl
  | cons hid _ ih => rw [propertiesCheck, propertiesCheck, hid, ih]

variable {values : Bytes}

theorem SameShape.validate {values' : Bytes} (h : SameShape values' values) (allowed repeatable : List PropertyId) :
    propertiesValidate values' allowed repeatable = propertiesValidate values allowed repeatable := by
  unfold propertiesValidate
  rw [propertiesCheck_congr h.identifiers, h.ending]

variable {rest bytes : Bytes}

/-- The value of a Message Expiry Interval can be exchanged. -/
theorem reads_messageExpiry {property : Property}
    (h : propertyIteratorNext bytes = .ok (property, rest)) (hid : property.identifier = .messageExpiryInterval) :
    ∃ idBytes a b c d, bytes = (idBytes ++ [a, b, c, d]) ++ rest ∧
      Reads propertyIteratorNext (idBytes ++ [a, b, c, d]) property ∧
      property.integer = BigEndian.read [a, b, c, d] ∧
      ∀ w, w.length = 4 → Reads propertyIteratorNext (idBytes ++ w) { property with integer := BigEndian.read w } := by
  obtain ⟨id, idBytes, tail, hne, rfl, hrd, hwire, hvl, htop, hscalar⟩ := propertyIteratorNext_eq_ok h
  rw [hid] at hwire hvl htop hscalar
  have hread : ∀ a b c d after, propertyValue .messageExpiryInterval (a :: b :: c :: d :: after) =
      .ok (⟨.messageExpiryInterval, BigEndian.read [a, b, c, d], [], []⟩, after) := fun _ _ _ _ _ => rfl
  obtain ⟨a, b, c, d, rfl⟩ : ∃ a b c d, tail = a :: b :: c :: d :: rest := by
    unfold propertyValue at hvl
    dsimp only [propertyType] at hvl
    split at hvl
    · cases hvl
      exact ⟨_, _, _, _, rfl⟩
    · cases hvl
  rw [hread] at hvl
  obtain ⟨rfl, -⟩ := Prod.mk.inj (Except.ok.inj hvl)
  refine ⟨idBytes, a, b, c, d, by simp, ?_, rfl, ?_⟩
  · intro after
    rw [append_assoc]
    exact propertyIteratorNext_of_parts hne hrd hwire (hread a b c d after) htop hscalar
  · intro w hw
    obtain ⟨w0, w1, w2, w3, rfl⟩ : ∃ w0 w1 w2 w3, w = [w0, w1, w2, w3] := by
      match w, hw with
      | [w0, w1, w2, w3], _ => exact ⟨w0, w1, w2, w3, rfl⟩
    intro after
    rw [append_assoc]
    exact propertyIteratorNext_of_parts hne hrd hwire (hread w0 w1 w2 w3 after) (by simp) rfl

omit [Vstr] in
/-- Another body of the same size. -/
theorem PacketLayout.exchange {body : Bytes} {view : PacketView}
    {lenBytes : Bytes} (h : PacketLayout bytes view first lenBytes) (hlen : body.length = view.body.length) :
    PacketLayout (first :: (lenBytes ++ body)) { view with body := body } first lenBytes := by
  have hsize := h.size
  rw [h.split, List.length_cons, List.length_append, ← hlen, ← List.length_append, ← List.length_cons (a := first)]
    at hsize
  refine ⟨rfl, h.header, ?_, hsize, ?_⟩
  · show Reads vbi lenBytes body.length
    rw [hlen]
    exact h.remaining
  · show ¬((view.type = .pingreq ∨ view.type = .pingresp) ∧ body.length ≠ 0)
    rw [hlen]
    exact h.ping

/-- Other property values of the same shape. -/
theorem PublishLayout.exchange {packet : PacketView} {publish : PublishView} {topicBytes idBytes blockHead : Bytes}
    {present : List PropertyId} (h : PublishLayout packet publish topicBytes idBytes blockHead present)
    (hshape : SameShape values publish.properties) :
    PublishLayout { packet with body := topicBytes ++ (idBytes ++ (blockHead ++ (values ++ publish.payload))) }
      { publish with properties := values } topicBytes idBytes blockHead present := by
  refine { h with body := rfl, block := ?_ }
  have hblk := h.block
  split at hblk
  · rename_i h5
    rw [if_pos h5]
    rw [hshape.length, hshape.validate]
    exact hblk
  · rename_i h5
    rw [if_neg h5]
    refine ⟨hblk.1, ?_⟩
    have hlen := hshape.length
    rw [hblk.2] at hlen
    exact List.length_eq_zero_iff.1 hlen

end

end Flowie.Mqtt
