import Flowie.Mqtt.Readers

/-!
# Framing is stable under more bytes

The first packet of a stream is found from its own bytes alone: bytes behind it play no part, a
part of it asks for more, and what was refused stays refused (`framing_is_prefix_stable`). The
reassembly of a stream from chunks rests on this. `vbi_codec` is about the variable byte integers of their lengths.
-/

namespace Flowie.Mqtt

open List Reader

variable {offset multiplier result : Nat} {bytes : Bytes} {e : ParseError}

theorem vbiLoop_malformed (h : vbiLoop offset multiplier result bytes = .error e) (he : e ≠ .needMore)
    (more : Bytes) : vbiLoop offset multiplier result (bytes ++ more) = .error e := by
  induction bytes generalizing offset multiplier result with
  | nil => exact absurd (Except.error.inj h).symm he
  | cons byte rest ih =>
    rw [cons_append]
    rw [vbiLoop] at h ⊢
    split at h
    next hlate => rw [if_pos hlate, ← h]
    next hlate =>
      rw [if_neg hlate]
      split at h
      next hmore =>
        rw [if_pos hmore]
        exact ih h
      next hlast =>
        rw [if_neg hlast]
        split at h
        next hminimal => rw [if_pos hminimal, ← h]
        next hminimal => cases h

variable {k : Nat} {value : Nat}

theorem vbiLoop_needMore {used : Bytes} (h : vbiLoop offset multiplier result used = .ok (value, []))
    (hk : k < used.length) : vbiLoop offset multiplier result (used.take k) = .error .needMore := by
  induction used generalizing offset multiplier result k with
  | nil => cases h
  | cons byte rest ih =>
    cases k with
    | zero => rfl
    | succ k =>
      rw [length_cons] at hk
      rw [take_succ_cons]
      rw [vbiLoop] at h ⊢
      split at h
      next => cases h
      next hlate =>
        rw [if_neg hlate]
        split at h
        next hmore =>
          rw [if_pos hmore]
          exact ih h (by omega)
        next hlast =>
          -- the last byte, so nothing was cut off
          split at h
          next => cases h
          next =>
            obtain ⟨-, rfl⟩ := Prod.mk.inj (Except.ok.inj h)
            simp at hk

def packetLimit (maxPacketSize : Nat) : Nat := if maxPacketSize = 0 then maxWirePacketSize else maxPacketSize

theorem packetLimit_def (maxPacketSize : Nat) :
    (if maxPacketSize = 0 then maxWirePacketSize else maxPacketSize) = packetLimit maxPacketSize := rfl

/-- How the first packet stands in a stream. -/
structure Framed (bytes : Bytes) (version : Version) (maxPacketSize : Nat) (view : PacketView) (first : UInt8)
    (lenBytes rest : Bytes) : Prop where
  limit : packetLimit maxPacketSize ≤ maxWirePacketSize
  parsedAs : view.version = version
  split : bytes = first :: (lenBytes ++ (view.body ++ rest))
  header : fixedHeader first version = some (view.type, view.flags)
  remaining : Reads vbi lenBytes view.body.length
  size : 1 + lenBytes.length + view.body.length ≤ packetLimit maxPacketSize
  ping : ¬((view.type = .pingreq ∨ view.type = .pingresp) ∧ view.body.length ≠ 0)

variable {version : Version} {maxPacketSize : Nat} {view : PacketView}

theorem Framed.parse {first : UInt8} {lenBytes rest : Bytes} (h : Framed bytes version maxPacketSize view first lenBytes rest) :
    packetParse bytes version maxPacketSize = .ok (view, 1 + lenBytes.length + view.body.length) := by
  have hlim := h.limit
  have hsize := h.size
  unfold packetParse
  rw [packetLimit_def, if_neg (by omega), h.split]
  dsimp only
  rw [h.header]
  rw [h.remaining (view.body ++ rest)]
  dsimp only
  have hhdr : 1 + ((lenBytes ++ (view.body ++ rest)).length - (view.body ++ rest).length) = 1 + lenBytes.length := by
    rw [length_append]
    omega
  rw [hhdr, if_neg (by omega), if_neg (by rw [length_append]; omega), if_neg h.ping, take_left, ← h.parsedAs]

variable {n : Nat}

theorem framed_of_parse (h : packetParse bytes version maxPacketSize = .ok (view, n)) :
    ∃ first lenBytes rest, Framed bytes version maxPacketSize view first lenBytes rest ∧
      n = 1 + lenBytes.length + view.body.length := by
  unfold packetParse at h
  dsimp only at h
  rw [packetLimit_def] at h
  split_ifs at h with hlim
  split at h
  · cases h
  rename_i first tail
  split at h
  · cases h
  rename_i type flags hhdr
  split at h
  · cases h
  rename_i remaining after hread
  obtain ⟨lenBytes, -, rfl, hrd⟩ := prefixed_vbi _ _ _ hread
  split_ifs at h with hsize henough hping
  obtain ⟨rfl, hn⟩ := Prod.mk.inj (Except.ok.inj h)
  have hbody : (after.take remaining).length = remaining := by
    rw [length_take]
    omega
  have hlen : (lenBytes ++ after).length - after.length = lenBytes.length := by
    rw [length_append]
    omega
  rw [hlen] at hsize hn
  refine ⟨first, lenBytes, after.drop remaining, ?_, by rw [hbody]; exact hn.symm⟩
  refine ⟨Nat.le_of_not_lt hlim, rfl, by rw [take_append_drop], hhdr, ?_, ?_, ?_⟩
  · rw [hbody]
    exact hrd
  · rw [hbody]
    exact Nat.le_of_not_lt hsize
  · rw [hbody]
    exact hping

theorem length_vbiWriteLoop_le {fuel : Nat} (hk : 0 < k) (hvl : value < 128 ^ k) :
    (vbiWriteLoop fuel value).length ≤ k := by
  induction k generalizing fuel value with
  | zero => omega
  | succ k ih =>
    cases fuel with
    | zero => exact Nat.zero_le _
    | succ fuel =>
      unfold vbiWriteLoop
      split
      · rename_i hmore
        obtain ⟨hk0, hdiv⟩ := div_lt_pow hvl hmore
        rw [length_cons]
        exact Nat.succ_le_succ (ih hk0 hdiv)
      · simp

/-- The remaining length as `flowie_mqtt_lexer_next` reads it after `count` bytes: its value and its bytes. -/
def lexRemainingLength (count : Nat) (multiplier value : UInt32) : Bytes → Except ParseError (UInt32 × Nat)
  | [] => .error .needMore
  | byte :: rest =>
    if count = 4 then .error .malformed
    else
      let value := value + UInt32.ofNat (byte.toNat % 128) * multiplier
      if byte.toNat ≥ 128 then lexRemainingLength (count + 1) (multiplier * 128) value rest
      else if count + 1 > 1 ∧ byte = 0 then .error .malformed
      else .ok (value, count + 1)

/-- Four digits do not overflow, so the lexer reads what `flowie_mqtt_vbi` reads. -/
theorem lexRemainingLength_eq {count : Nat} {multiplier value : UInt32} {bytes : Bytes} (hcnt : count ≤ 4)
    (hmultiplier : multiplier.toNat = 128 ^ count) (hvl : value.toNat < 128 ^ count) :
    lexRemainingLength count multiplier value bytes = (vbiLoop count multiplier.toNat value.toNat bytes).map
      fun read => (UInt32.ofNat read.1, count + (bytes.length - read.2.length)) := by
  induction bytes generalizing count multiplier value with
  | nil => rfl
  | cons byte rest ih =>
    unfold lexRemainingLength vbiLoop
    split
    · rfl
    rename_i hlate
    have hpow : 128 ^ count ≤ 128 ^ 3 := Nat.pow_le_pow_right (by decide) (by omega)
    have hdigit : (UInt32.ofNat (byte.toNat % 128)).toNat = byte.toNat % 128 :=
      UInt32.toNat_ofNat_of_lt' (by show _ < 2 ^ 32; omega)
    have hproduct : byte.toNat % 128 * 128 ^ count ≤ 127 * 128 ^ count := Nat.mul_le_mul_right _ (by omega)
    have hsum : (value + UInt32.ofNat (byte.toNat % 128) * multiplier).toNat =
        value.toNat + byte.toNat % 128 * multiplier.toNat := by
      rw [UInt32.toNat_add, UInt32.toNat_mul, hdigit, hmultiplier, Nat.mod_eq_of_lt (a := _ * _) (by omega),
        Nat.mod_eq_of_lt (by omega)]
    have hnext : (multiplier * 128).toNat = multiplier.toNat * 128 := by
      rw [UInt32.toNat_mul, hmultiplier]
      exact Nat.mod_eq_of_lt (by show _ * 128 < _; omega)
    split
    · rw [ih (by omega) (by rw [hnext, hmultiplier, Nat.pow_succ]) (by rw [hsum, hmultiplier, Nat.pow_succ]; omega), hsum, hnext]
      cases hread : vbiLoop (count + 1) (multiplier.toNat * 128) (value.toNat + byte.toNat % 128 * multiplier.toNat) rest with
      | error e => rfl
      | ok read =>
        obtain ⟨digits, tail⟩ := read
        obtain ⟨_, -, -, -, rfl⟩ := vbiLoop_canonical hread (by omega) (show 4 ≤ 4 + (count + 1) by omega)
        simp only [Except.map, length_cons, length_append]
        congr 2
        omega
    split
    · rfl
    · rw [Except.map, ← hsum, UInt32.ofNat_toNat, length_cons, Nat.add_sub_cancel_left]

/-- A variable byte integer is read back with its bytes whatever follows, only the bytes that are written for it are
    accepted, and the lexer accepts the same ones. -/
theorem vbi_codec :
    (∀ value ≤ maxRemainingLength, ∀ rest, vbi (vbiWrite value ++ rest) = .ok (value, rest)) ∧
    (∀ bytes value rest, vbi bytes = .ok (value, rest) →
      value ≤ maxRemainingLength ∧ bytes = vbiWrite value ++ rest ∧ (vbiWrite value).length ≤ 4) ∧
    ∀ bytes, lexRemainingLength 0 1 0 bytes =
      (vbi bytes).map fun read => (UInt32.ofNat read.1, bytes.length - read.2.length) := by
  refine ⟨fun value hvl rest => reads_vbi hvl rest, fun bytes value rest h => ?_, fun bytes => ?_⟩
  · obtain ⟨hvl, hbs⟩ := (agrees_vbi bytes value rest).1 h
    exact ⟨hvl, hbs, length_vbiWriteLoop_le (by decide) (Nat.lt_succ_of_le hvl)⟩
  · rw [lexRemainingLength_eq (by decide) rfl (by decide)]
    simp [vbi]

/-- The options let a packet of this size through. -/
def Admits (maxPacketSize size : Nat) : Prop :=
  packetLimit maxPacketSize ≤ maxWirePacketSize ∧ size ≤ packetLimit maxPacketSize

variable {type : PacketType} {flags capacity : Nat} {body : Bytes}

section
variable (h : encodePacket type flags body capacity = .ok bytes)
include h

theorem packetParse_encodePacket
    (hhdr : fixedHeader (UInt8.ofNat (type.toNibble * 16 + flags)) version = some (type, flags))
    (hping : type = .pingreq ∨ type = .pingresp → body = []) (hadm : Admits maxPacketSize bytes.length) :
    packetParse bytes version maxPacketSize = .ok (⟨version, type, flags, body⟩, bytes.length) := by
  unfold encodePacket at h
  split_ifs at h with hbody
  cases h
  have hlen : (UInt8.ofNat (type.toNibble * 16 + flags) :: (vbiWrite body.length ++ body)).length =
      1 + (vbiWrite body.length).length + body.length := by
    rw [length_cons, length_append]
    omega
  have hfrm : Framed (UInt8.ofNat (type.toNibble * 16 + flags) :: (vbiWrite body.length ++ body)) version
      maxPacketSize ⟨version, type, flags, body⟩ (UInt8.ofNat (type.toNibble * 16 + flags))
      (vbiWrite body.length) [] :=
    { limit := hadm.1
      parsedAs := rfl
      split := by rw [append_nil]
      header := hhdr
      remaining := reads_vbi (Nat.le_of_not_lt hbody)
      size := by rw [← hlen]; exact hadm.2
      ping := fun hp => hp.2 (by rw [hping hp.1]; rfl) }
  rw [hfrm.parse, hlen]

/-- An encoded packet fits the largest limit, and the limit of its own size. -/
theorem length_encodePacket : 0 < bytes.length ∧ bytes.length ≤ maxWirePacketSize := by
  unfold encodePacket at h
  split_ifs at h with hbody
  cases h
  have hvbi : (vbiWrite body.length).length ≤ 4 :=
    length_vbiWriteLoop_le (by omega) (by unfold maxRemainingLength at hbody; omega)
  unfold maxWirePacketSize
  rw [length_cons, length_append]
  omega

theorem length_encodePacket_le : bytes.length ≤ capacity := by
  unfold encodePacket at h
  split_ifs at h
  cases h
  rw [length_cons, length_append, length_vbiWrite]
  omega

theorem admits_length : Admits bytes.length bytes.length := by
  obtain ⟨hpos, hle⟩ := length_encodePacket h
  rw [Admits, packetLimit, if_neg (by omega)]
  exact ⟨hle, Nat.le_refl _⟩

end

section
variable (h : packetParse bytes version maxPacketSize = .ok (view, n))
include h

theorem packetParse_append (more : Bytes) : packetParse (bytes ++ more) version maxPacketSize = .ok (view, n) := by
  obtain ⟨first, lenBytes, rest, hfrm, rfl⟩ := framed_of_parse h
  have hspl : bytes ++ more = first :: (lenBytes ++ (view.body ++ (rest ++ more))) := by simp [hfrm.split]
  exact { hfrm with split := hspl : Framed (bytes ++ more) version maxPacketSize view first lenBytes (rest ++ more) }.parse

/-- The packet alone is parsed alike. -/
theorem packetParse_take : n ≤ bytes.length ∧ packetParse (bytes.take n) version maxPacketSize = .ok (view, n) := by
  obtain ⟨first, lenBytes, rest, hfrm, rfl⟩ := framed_of_parse h
  have hbs : bytes = (first :: (lenBytes ++ view.body)) ++ rest := by simp [hfrm.split]
  have hlen : (first :: (lenBytes ++ view.body)).length = 1 + lenBytes.length + view.body.length := by
    rw [length_cons, length_append]
    omega
  have htake : bytes.take (1 + lenBytes.length + view.body.length) = first :: (lenBytes ++ (view.body ++ [])) := by
    rw [hbs, take_left' hlen, append_nil]
  refine ⟨?_, ?_⟩
  · rw [hbs, length_append, hlen]
    exact Nat.le_add_right _ _
  · exact { hfrm with split := htake : Framed _ version maxPacketSize view first lenBytes [] }.parse

theorem packetParse_part (hk : k < n) : packetParse (bytes.take k) version maxPacketSize = .error .needMore := by
  obtain ⟨first, lenBytes, rest, hfrm, rfl⟩ := framed_of_parse h
  have hlim := hfrm.limit
  have hsize := hfrm.size
  unfold packetParse
  rw [packetLimit_def, if_neg (by omega), hfrm.split]
  cases k with
  | zero => rfl
  | succ k =>
    rw [take_succ_cons]
    dsimp only
    rw [hfrm.header]
    by_cases hlen : k < lenBytes.length
    · -- cut within the remaining length
      have hread : vbi lenBytes = .ok (view.body.length, []) := by simpa using hfrm.remaining []
      rw [take_append_of_le_length (Nat.le_of_lt hlen), vbi, vbiLoop_needMore hread hlen]
    · -- cut within the body
      obtain ⟨j, rfl⟩ : ∃ j, k = lenBytes.length + j := ⟨k - lenBytes.length, by omega⟩
      have hj : j < view.body.length := by omega
      rw [take_length_add_append, hfrm.remaining]
      dsimp only
      have hhdr : 1 + ((lenBytes ++ (view.body ++ rest).take j).length - ((view.body ++ rest).take j).length) =
          1 + lenBytes.length := by
        rw [length_append]
        omega
      rw [hhdr, if_neg (by omega), if_pos]
      rw [length_take]
      omega

end

/-- What was refused stays refused, for the same reason. -/
theorem packetParse_refused (h : packetParse bytes version maxPacketSize = .error e) (he : e ≠ .needMore)
    {more : Bytes} : packetParse (bytes ++ more) version maxPacketSize = .error e := by
  unfold packetParse at h ⊢
  dsimp only at h ⊢
  rw [packetLimit_def] at h ⊢
  split at h
  · rename_i hlim
    rw [if_pos hlim, ← h]
  rename_i hlim
  rw [if_neg hlim]
  split at h
  · exact absurd (Except.error.inj h).symm he
  rename_i first tail
  rw [cons_append]
  dsimp only
  cases hhdr : fixedHeader first version with
  | none =>
    rw [hhdr] at h
    exact h
  | some header =>
    obtain ⟨type, flags⟩ := header
    rw [hhdr] at h
    cases hread : vbi tail with
    | error e' =>
      rw [hread] at h
      obtain rfl := Except.error.inj h
      rw [vbi] at hread ⊢
      rw [vbiLoop_malformed hread he]
    | ok r =>
      obtain ⟨remaining, after⟩ := r
      rw [hread] at h
      obtain ⟨lenBytes, -, rfl, hrd⟩ := prefixed_vbi _ _ _ hread
      have hbef : (lenBytes ++ after).length - after.length = lenBytes.length := by
        rw [length_append]
        omega
      have haft : (lenBytes ++ (after ++ more)).length - (after ++ more).length = lenBytes.length := by
        rw [length_append]
        omega
      rw [append_assoc, hrd (after ++ more)]
      dsimp only at h ⊢
      rw [hbef] at h
      rw [haft]
      split at h
      · rename_i hlarge
        rw [if_pos hlarge, ← h]
      rename_i hlarge
      rw [if_neg hlarge]
      split at h
      · exact absurd (Except.error.inj h).symm he
      rename_i henough
      rw [if_neg (by rw [length_append]; omega)]
      split at h
      · rename_i hping
        rw [if_pos hping, ← h]
      · cases h

/-- A packet that is not complete is shorter than the limit, unless its length is not complete. -/
theorem length_of_packetParse_needMore (h : packetParse bytes version maxPacketSize = .error .needMore) :
    bytes.length < packetLimit maxPacketSize ∨ bytes.length ≤ 5 := by
  unfold packetParse at h
  dsimp only at h
  rw [packetLimit_def] at h
  split at h
  · cases h
  split at h
  · exact .inr (Nat.zero_le _)
  rename_i first rest
  split at h
  · cases h
  split at h
  · rename_i e hread
    obtain rfl := Except.error.inj h
    have hlen := ((vbiLoop_needMore_iff (Nat.zero_le 4)).1 hread).1
    right
    rw [length_cons]
    omega
  · rename_i remaining tail hread
    obtain ⟨lenBytes, -, rfl, -⟩ := prefixed_vbi _ _ _ hread
    split at h
    · cases h
    rename_i hsize
    split at h
    · left
      rw [length_append] at hsize
      rw [length_cons, length_append]
      omega
    · split at h <;> cases h

/-- The first packet of a stream is found from its own bytes alone, and a stream that is refused
    stays refused. -/
theorem framing_is_prefix_stable (bytes : Bytes) (version : Version) (maxPacketSize : Nat) :
    (∀ view n, packetParse bytes version maxPacketSize = .ok (view, n) →
      n ≤ bytes.length ∧
      (∀ more, packetParse (bytes ++ more) version maxPacketSize = .ok (view, n)) ∧
      packetParse (bytes.take n) version maxPacketSize = .ok (view, n) ∧
      ∀ k, k < n → packetParse (bytes.take k) version maxPacketSize = .error .needMore) ∧
    (∀ e, packetParse bytes version maxPacketSize = .error e → e ≠ .needMore →
      ∀ more, ∃ e', packetParse (bytes ++ more) version maxPacketSize = .error e' ∧ e' ≠ .needMore) := by
  refine ⟨?_, ?_⟩
  · intro view n h
    obtain ⟨hle, htake⟩ := packetParse_take h
    exact ⟨hle, packetParse_append h, htake, fun k hk => packetParse_part h hk⟩
  · intro e h he more
    exact ⟨e, packetParse_refused h he, he⟩

/-- A PINGREQ and one byte of the next packet. -/
theorem framing_is_prefix_stable_ping :
    packetParse [0xc0, 0x00, 0x30] .v5 0 = .ok (⟨.v5, .pingreq, 0, []⟩, 2) ∧
    packetParse ([0xc0, 0x00, 0x30].take 1) .v5 0 = .error .needMore :=
  ⟨rfl, ((framing_is_prefix_stable [0xc0, 0x00, 0x30] .v5 0).1 _ 2 rfl).2.2.2 1 (by decide)⟩

/-! ## Typed parsers of a whole packet -/

variable [Vstr]

/-- The typed parsers of a whole packet fail for the packet's own sake, but for a control packet with a property block
    that is cut short. -/
theorem typed_parsers_definite_iff (packet : PacketView) :
    Definite (connectParse packet) ∧ Definite (publishParse packet) ∧ Definite (subscribeParse packet) ∧
      Definite (unsubscribeParse packet) ∧ (Definite (controlPacketParse packet) ↔ ¬BlockCut packet) := by
  exact ⟨definite_connectParse, definite_publishParse, definite_subscribeParse, definite_unsubscribeParse,
    definite_controlPacketParse_iff⟩

omit [Vstr] in
/-- The typed parser asks for more behind a complete CONNACK, which ends before its property block. -/
theorem controlPacketParse_cut :
    packetParse [0x20, 0x02, 0x00, 0x00] .v5 0 = .ok (⟨.v5, .connack, 0, [0, 0]⟩, 4) ∧
    @controlPacketParse asciiVstr ⟨.v5, .connack, 0, [0, 0]⟩ = .error .needMore := by
  decide +kernel

end Flowie.Mqtt
