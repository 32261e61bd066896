import Flowie.Mqtt.Encode

/-!
# What the readers take

Every reader of the wire format takes a prefix of its input and does not look at what follows, and
reads back what the writers write.
-/

namespace Flowie.Mqtt

open List BigEndian Reader

variable {offset multiplier result value : Nat} {fuel : Nat}

/-- What is left of a number has a digit less. -/
theorem div_lt_pow {k : Nat} (hvl : value < 128 ^ (k + 1)) (hmore : value / 128 ≠ 0) : 0 < k ∧ value / 128 < 128 ^ k := by
  have hdiv : value / 128 < 128 ^ k := Nat.div_lt_of_lt_mul (by rwa [← Nat.pow_succ'])
  refine ⟨Nat.pos_of_ne_zero ?_, hdiv⟩
  rintro rfl
  exact hmore (Nat.lt_one_iff.1 hdiv)

theorem vbiLoop_writeLoop {k : Nat} (hk : 0 < k) (hfuel : k ≤ fuel) (hoffset : offset + k ≤ 4) (hvl : value < 128 ^ k)
    (hlead : offset = 0 ∨ value ≠ 0) (rest : Bytes) :
    vbiLoop offset multiplier result (vbiWriteLoop fuel value ++ rest) = .ok (result + value * multiplier, rest) := by
  induction k generalizing fuel offset multiplier result value with
  | zero => omega
  | succ k ih =>
    obtain ⟨fuel, rfl⟩ : ∃ n, fuel = n + 1 := ⟨fuel - 1, by omega⟩
    unfold vbiWriteLoop
    by_cases hmore : value / 128 ≠ 0
    · rw [if_pos hmore, cons_append, vbiLoop, if_neg (by omega)]
      have hbyte : (UInt8.ofNat (value % 128 + 128)).toNat = value % 128 + 128 := by
        rw [UInt8.toNat_ofNat']
        omega
      obtain ⟨hk0, hdiv⟩ := div_lt_pow hvl hmore
      rw [if_pos (by omega), hbyte, ih hk0 (by omega) (by omega) hdiv (.inr hmore)]
      have hmod : (value % 128 + 128) % 128 = value % 128 := by omega
      have hspl : value = value % 128 + value / 128 * 128 := by omega
      rw [hmod]
      congr 2
      calc result + value % 128 * multiplier + value / 128 * (multiplier * 128)
          = result + (value % 128 + value / 128 * 128) * multiplier := by
            rw [Nat.add_mul, Nat.mul_comm multiplier 128, ← Nat.mul_assoc, Nat.add_assoc]
        _ = result + value * multiplier := by rw [← hspl]
    · have hsmall : value < 128 := by omega
      have hbyte : (UInt8.ofNat (value % 128)).toNat = value := by
        rw [UInt8.toNat_ofNat']
        omega
      rw [if_neg hmore, singleton_append, vbiLoop, if_neg (by omega)]
      rw [hbyte, if_neg (by omega), if_neg, Nat.mod_eq_of_lt hsmall]
      rintro ⟨hlate, hzero⟩
      have hz : value = 0 := by
        rw [← hbyte, hzero]
        rfl
      omega

theorem reads_vbi (h : value ≤ maxRemainingLength) : Reads vbi (vbiWrite value) value := by
  intro rest
  have hlt : value < 128 ^ 4 := by
    unfold maxRemainingLength at h
    omega
  have hread : vbiLoop 0 1 0 (vbiWriteLoop 5 value ++ rest) = .ok (0 + value * 1, rest) :=
    vbiLoop_writeLoop (k := 4) (by omega) (by omega) (by omega) hlt (.inl rfl) rest
  rw [vbi, vbiWrite, hread, Nat.zero_add, Nat.mul_one]

theorem length_vbiWriteLoop (fuel value : Nat) : (vbiWriteLoop fuel value).length = vbiSizeLoop fuel value := by
  induction fuel generalizing value with
  | zero => rfl
  | succ fuel ih =>
    unfold vbiWriteLoop vbiSizeLoop
    by_cases h : value / 128 ≠ 0
    · rw [if_pos h, if_pos (by omega), length_cons, ih]
    · rw [if_neg h, if_neg (by omega)]
      rfl

theorem length_vbiWrite (value : Nat) : (vbiWrite value).length = vbiSize value := length_vbiWriteLoop 5 value

variable {bytes rest : Bytes}

/-- What is read from a variable byte integer after `offset` bytes is what is written of its
    remaining digits: no other spelling of the number is accepted. -/
theorem vbiLoop_canonical (h : vbiLoop offset multiplier result bytes = .ok (value, rest)) (hoffset : offset ≤ 4)
    (hfuel : 4 ≤ fuel + offset) :
    ∃ digits, value = result + digits * multiplier ∧ (offset ≠ 0 → digits ≠ 0) ∧ digits < 128 ^ (4 - offset) ∧
      bytes = vbiWriteLoop fuel digits ++ rest := by
  induction bytes generalizing offset multiplier result fuel with
  | nil => cases h
  | cons byte tail ih =>
    unfold vbiLoop at h
    split at h
    · cases h
    rename_i hlate
    obtain ⟨fuel, rfl⟩ : ∃ n, fuel = n + 1 := ⟨fuel - 1, by omega⟩
    have hbyte := byte.toNat_lt
    have hpow : 128 ^ (4 - offset) = 128 ^ (4 - (offset + 1)) * 128 := by
      rw [← Nat.pow_succ]
      congr 1
      omega
    split at h
    · rename_i hmore
      obtain ⟨digits, rfl, hlead, hlt, rfl⟩ := ih h (by omega) (show 4 ≤ fuel + (offset + 1) by omega)
      have hdigits : digits ≠ 0 := hlead (by omega)
      refine ⟨byte.toNat % 128 + digits * 128, ?_, fun _ => by omega, by omega, ?_⟩
      · rw [Nat.add_mul, Nat.mul_assoc, Nat.mul_comm 128 multiplier, Nat.add_assoc]
      have hbyteEq : UInt8.ofNat ((byte.toNat % 128 + digits * 128) % 128 + 128) = byte := by
        rw [← UInt8.toNat_inj, UInt8.toNat_ofNat']
        omega
      rw [vbiWriteLoop, show (byte.toNat % 128 + digits * 128) / 128 = digits by omega, if_pos hdigits, hbyteEq,
        cons_append]
    · rename_i hlast
      split_ifs at h with hminimal
      cases h
      have hpos : 0 < 128 ^ (4 - (offset + 1)) := Nat.pow_pos (by omega)
      refine ⟨byte.toNat % 128, rfl, ?_, by omega, ?_⟩
      · intro hnonzero hzero
        refine hminimal ⟨by omega, ?_⟩
        rw [← UInt8.toNat_inj]
        show byte.toNat = 0
        omega
      · have hbyteEq : UInt8.ofNat (byte.toNat % 128 % 128) = byte := by
          rw [← UInt8.toNat_inj, UInt8.toNat_ofNat']
          omega
        rw [vbiWriteLoop, if_neg (by omega), hbyteEq, singleton_append]

theorem agrees_vbi : Agrees vbi (· ≤ maxRemainingLength) vbiWrite := by
  intro bytes value rest
  refine ⟨fun h => ?_, fun h => by rw [h.2, reads_vbi h.1]⟩
  obtain ⟨digits, hvl, -, hlt, hbs⟩ := vbiLoop_canonical h (by omega) (show 4 ≤ 5 + 0 by omega)
  obtain rfl : value = digits := by omega
  exact ⟨by unfold maxRemainingLength; omega, hbs⟩

theorem prefixed_vbi : Prefixed vbi := by
  refine agrees_vbi.prefixed fun value => ?_
  unfold vbiWrite vbiWriteLoop
  split <;> simp

section

variable [Vstr] {value : Bytes} {utf8 : Bool}

theorem lengthSpanInputValidate_iff :
    lengthSpanInputValidate value utf8 = .ok () ↔
      value.length ≤ 65535 ∧ (utf8 = true → utf8Validate value = true) := by
  unfold lengthSpanInputValidate maxUtf8Size
  split
  · rename_i hlen
    exact ⟨fun h => (nomatch h), fun h => absurd h.1 (by omega)⟩
  · rename_i hlen
    cases utf8 <;> cases hval : utf8Validate value <;> simp <;> omega

theorem reads_lengthSpan (hlen : value.length ≤ 65535) (hutf8 : utf8 = true → utf8Validate value = true) :
    Reads (lengthSpan utf8) (lengthSpanWrite value) value := by
  intro rest
  have hwrite : write 2 value.length =
      [UInt8.ofNat (value.length / 256), UInt8.ofNat value.length] := rfl
  have hread : BigEndian.read (write 2 value.length) = value.length := read_write (by omega)
  rw [hwrite] at hread
  rw [lengthSpanWrite, hwrite]
  show lengthSpan utf8 (_ :: _ :: (value ++ rest)) = _
  unfold lengthSpan
  dsimp only
  rw [hread, if_neg (by simp), take_left, drop_left, if_neg]
  intro hbad
  cases utf8 with
  | false => simp at hbad
  | true => simp [hutf8 rfl] at hbad

theorem agrees_lengthSpan (utf8 : Bool) :
    Agrees (lengthSpan utf8) (fun value => lengthSpanInputValidate value utf8 = .ok ()) lengthSpanWrite := by
  intro bytes value rest
  dsimp only
  rw [lengthSpanInputValidate_iff]
  refine ⟨fun h => ?_, fun h => ?_⟩
  · unfold lengthSpan at h
    split at h
    · rename_i hi lo tail
      dsimp only at h
      split_ifs at h with hlen hutf8
      cases h
      have hlength : (tail.take (BigEndian.read [hi, lo])).length = BigEndian.read [hi, lo] := by
        rw [length_take]
        omega
      have hlt : BigEndian.read [hi, lo] < 256 ^ 2 := read_lt [hi, lo]
      have hwrite : write 2 (BigEndian.read [hi, lo]) = [hi, lo] := write_read [hi, lo]
      refine ⟨⟨by omega, fun htext => by simpa [htext] using hutf8⟩, ?_⟩
      rw [lengthSpanWrite, hlength, hwrite]
      simp
    · cases h
  · rw [h.2, reads_lengthSpan h.1.1 h.1.2]

omit [Vstr] in
theorem lengthSpanWrite_ne_nil (value : Bytes) : lengthSpanWrite value ≠ [] := by
  simp [lengthSpanWrite, write]

theorem prefixed_lengthSpan (utf8 : Bool) : Prefixed (lengthSpan utf8) :=
  (agrees_lengthSpan utf8).prefixed lengthSpanWrite_ne_nil

section

omit [Vstr]

theorem reads_packetIdentifier {packetId : UInt16} (h : packetId ≠ 0) :
    Reads packetIdentifier (write 2 packetId.toNat) packetId := by
  intro rest
  have hread : BigEndian.read (write 2 packetId.toNat) = packetId.toNat :=
    read_write (by have := packetId.toNat_lt; omega)
  show packetIdentifier (_ :: _ :: rest) = _
  unfold packetIdentifier
  dsimp only
  rw [show BigEndian.read [UInt8.ofNat (packetId.toNat / 256), UInt8.ofNat packetId.toNat] = packetId.toNat from hread,
    UInt16.ofNat_toNat, if_neg h]

theorem agrees_packetIdentifier : Agrees packetIdentifier (· ≠ 0) fun packetId => write 2 packetId.toNat := by
  intro bytes packetId rest
  refine ⟨fun h => ?_, fun h => by rw [h.2, reads_packetIdentifier h.1]⟩
  unfold packetIdentifier at h
  split at h
  · rename_i hi lo tail
    dsimp only at h
    split_ifs at h with hid
    cases h
    have hlt : BigEndian.read [hi, lo] < 256 ^ 2 := read_lt [hi, lo]
    have hwrite : write 2 (BigEndian.read [hi, lo]) = [hi, lo] := write_read [hi, lo]
    refine ⟨hid, ?_⟩
    dsimp only
    rw [UInt16.toNat_ofNat', Nat.mod_eq_of_lt (by omega), hwrite]
    rfl
  · cases h

theorem prefixed_packetIdentifier : Prefixed packetIdentifier :=
  agrees_packetIdentifier.prefixed fun _ => by simp [write]

end

variable {property : Property} {identifier : PropertyId}

theorem propertyValue_identifier (h : propertyValue identifier bytes = .ok (property, rest)) :
    property.identifier = identifier := by
  unfold propertyValue at h
  split at h <;> try (split at h <;> cases h; rfl)
  split at h
  · cases h
  · split at h <;> cases h
    rfl

theorem prefixed_propertyValue (identifier : PropertyId) : Prefixed (propertyValue identifier) := by
  intro bytes property rest h
  unfold propertyValue at h
  cases htype : propertyType identifier <;> rw [htype] at h <;> dsimp only at h
  case byte =>
    split at h <;> cases h
    exact ⟨[_], by simp, rfl, fun after => by simp only [propertyValue, htype, singleton_append]⟩
  case uint16 =>
    split at h <;> cases h
    exact ⟨[_, _], by simp, rfl, fun after => by simp only [propertyValue, htype, cons_append, nil_append]⟩
  case uint32 =>
    split at h <;> cases h
    exact ⟨[_, _, _, _], by simp, rfl, fun after => by simp only [propertyValue, htype, cons_append, nil_append]⟩
  case variableInteger =>
    split at h <;> cases h
    obtain ⟨used, hne, hbs, hused⟩ := prefixed_vbi _ _ _ ‹_›
    exact ⟨used, hne, hbs, fun after => by simp only [propertyValue, htype, hused after]⟩
  case utf8 | binary =>
    split at h <;> cases h
    obtain ⟨used, hne, hbs, hused⟩ := prefixed_lengthSpan _ _ _ _ ‹_›
    exact ⟨used, hne, hbs, fun after => by simp only [propertyValue, htype, hused after]⟩
  case utf8Pair =>
    split at h
    · cases h
    rename_i hread
    split at h
    · cases h
    rename_i hread2
    cases h
    obtain ⟨used, hne, rfl, hused⟩ := prefixed_lengthSpan true _ _ _ hread
    obtain ⟨used2, -, rfl, hused2⟩ := prefixed_lengthSpan true _ _ _ hread2
    refine ⟨used ++ used2, by simp [hne], by simp, fun after => ?_⟩
    rw [append_assoc]
    simp only [propertyValue, htype, hused (used2 ++ after), hused2 after]

/-- The parts of a property: its identifier, then its value. -/
theorem propertyIteratorNext_eq_ok (h : propertyIteratorNext bytes = .ok (property, rest)) :
    ∃ id idBytes tail, idBytes ≠ [] ∧ bytes = idBytes ++ tail ∧ Reads vbi idBytes id ∧
      PropertyId.ofWire id = some property.identifier ∧ propertyValue property.identifier tail = .ok (property, rest) ∧
      ¬(property.identifier = .responseTopic ∧ (!topicNameValidate property.value) = true) ∧
      propertyScalarValid property.identifier property.integer = true := by
  unfold propertyIteratorNext at h
  split_ifs at h
  split at h
  · cases h
  rename_i id tail hread
  split at h
  · cases h
  rename_i identifier hid
  split at h
  · cases h
  rename_i p after hvl
  split_ifs at h with htop hscalar
  cases h
  obtain ⟨idBytes, hne, rfl, hrd⟩ := prefixed_vbi _ _ _ hread
  have hidn := propertyValue_identifier hvl
  subst hidn
  exact ⟨id, idBytes, tail, hne, rfl, hrd, hid, hvl, htop, by simpa using hscalar⟩

/-- A property is read from its identifier and its value. -/
theorem propertyIteratorNext_of_parts {id : Nat} {idBytes : Bytes} (hne : idBytes ≠ [])
    (hrd : Reads vbi idBytes id) (hid : PropertyId.ofWire id = some identifier) {tail : Bytes}
    (hvl : propertyValue identifier tail = .ok (property, rest))
    (htop : ¬(identifier = .responseTopic ∧ (!topicNameValidate property.value) = true))
    (hscalar : propertyScalarValid identifier property.integer = true) :
    propertyIteratorNext (idBytes ++ tail) = .ok (property, rest) := by
  unfold propertyIteratorNext
  rw [if_neg (by simp [hne]), hrd tail]
  dsimp only
  rw [hid]
  dsimp only
  rw [hvl]
  dsimp only
  rw [if_neg htop, if_neg (by simp [hscalar])]

theorem prefixed_propertyIteratorNext : Prefixed propertyIteratorNext := by
  intro bytes property rest h
  obtain ⟨id, idBytes, tail, hne, rfl, hrd, hid, hvl, htop, hscalar⟩ := propertyIteratorNext_eq_ok h
  obtain ⟨used, -, rfl, hused⟩ := prefixed_propertyValue _ _ _ _ hvl
  refine ⟨idBytes ++ used, by simp [hne], by simp, fun after => ?_⟩
  rw [append_assoc]
  exact propertyIteratorNext_of_parts hne hrd hid (hused after) htop hscalar

end

end Flowie.Mqtt
