import Flowie.Basic
import Flowie.Lib.LevelFilter

/-!
# Topic names and topic filters

The validators and the matcher of `flowie_mqtt_lexer.re`. A span is the list of its bytes; a
null span and an empty one are refused alike by every function here. The text decoder
`vstr_utf8_next` belongs to an external string library, so it is the class `Vstr`, with the
documented behaviour of a UTF-8 reader as its laws.

The scanners advance a byte offset to the next `/`; `levels` is that scan over the whole span,
and `levelFilter` reads the levels of a filter as a `LevelFilter`.
-/

namespace Flowie.Mqtt

open List

def slash : UInt8 := '/'.toUInt8
def plus : UInt8 := '+'.toUInt8
def hash : UInt8 := '#'.toUInt8
def dollar : UInt8 := '$'.toUInt8
def percent : UInt8 := '%'.toUInt8

/-- The external UTF-8 reader: `utf8Next` decodes the first code point of a nonempty span and
    returns it with the rest. An encoding is one byte below `0x80` or several bytes from
    `0x80` on, and is decoded whatever follows it. -/
class Vstr where
  utf8Next : Bytes → Option (Nat × Bytes)
  utf8Next_ascii : ∀ (b : UInt8) (rest : Bytes), b ≠ 0 → b < 0x80 →
    utf8Next (b :: rest) = some (b.toNat, rest)
  utf8Next_encoding : ∀ (s : Bytes) (c : Nat) (rest : Bytes), utf8Next s = some (c, rest) →
    ∃ seq : Bytes, seq ≠ [] ∧ s = seq ++ rest ∧ (seq.length = 1 ∨ ∀ b ∈ seq, 0x80 ≤ b) ∧
      ∀ other, utf8Next (seq ++ other) = some (c, other)

/-- The reader of plain ASCII text. -/
@[reducible] def asciiVstr : Vstr where
  utf8Next
    | [] => none
    | b :: rest => if b < 0x80 then some (b.toNat, rest) else none
  utf8Next_ascii := by
    intro b rest _ hb
    simp [hb]
  utf8Next_encoding := by
    intro s c rest h
    cases s with
    | nil => cases h
    | cons b s =>
      by_cases hb : b < 0x80
      · simp only [hb, if_true, Option.some.injEq, Prod.mk.injEq] at h
        obtain ⟨rfl, rfl⟩ := h
        exact ⟨[b], by simp, rfl, .inl rfl, fun other => by simp [hb]⟩
      · simp [hb] at h

section Validate

variable [Vstr]

/-- `FLOWIE_MQTT_MAX_UTF8_SIZE`. -/
def maxUtf8Size : Nat := 65535

def noncharacter (codepoint : Nat) : Bool :=
  (decide (0xfdd0 ≤ codepoint) && decide (codepoint ≤ 0xfdef)) ||
    codepoint &&& 0xfffe == 0xfffe

/-- The loop of `flowie_mqtt_utf8_validate`; every step consumes a byte, so the length of the
    span bounds the number of steps. -/
def utf8Loop : Nat → Bytes → Bool
  | _, [] => true
  | 0, _ :: _ => false
  | n + 1, b :: s =>
    match Vstr.utf8Next (b :: s) with
    | none => false
    | some (codepoint, rest) => codepoint != 0 && !noncharacter codepoint && utf8Loop n rest

/-- `flowie_mqtt_utf8_validate`. -/
def utf8Validate (value : Bytes) : Bool := utf8Loop value.length value

/-- `flowie_mqtt_topic_name_validate`. -/
def topicNameValidate (topic : Bytes) : Bool :=
  !topic.isEmpty && decide (topic.length ≤ maxUtf8Size) && utf8Validate topic &&
    topic.all fun ch => ch != plus && ch != hash

/-- `$share/`, the prefix of a shared filter. -/
def sharePrefix : Bytes := text "$share/"

/-- `flowie_mqtt_shared_filter`: the filter behind `$share/<group>/`, the filter itself when
    it is not shared, or `none` when the share group is malformed. -/
def sharedFilter (filter : Bytes) : Option Bytes :=
  if !sharePrefix.isPrefixOf filter then some filter
  else
    let tail := filter.drop sharePrefix.length
    let group := tail.takeWhile (· != slash)
    let rest := tail.dropWhile (· != slash)
    if group.any fun ch => ch == plus || ch == hash then none
    else if group.isEmpty || rest.isEmpty || rest.tail.isEmpty then none
    else some rest.tail

/-- The wildcard scan of `flowie_mqtt_topic_filter_validate`; `levelStart` says that the
    current byte opens its level. -/
def wildcardsValid : Bool → Bytes → Bool
  | _, [] => true
  | levelStart, ch :: rest =>
    if ch = slash then wildcardsValid true rest
    else if ch = hash then levelStart && rest.isEmpty
    else if ch = plus then
      levelStart && (rest.isEmpty || rest.head? == some slash) && wildcardsValid false rest
    else wildcardsValid false rest

/-- `flowie_mqtt_topic_filter_validate`. -/
def topicFilterValidate (filter : Bytes) : Bool :=
  !filter.isEmpty && decide (filter.length ≤ maxUtf8Size) && utf8Validate filter &&
    match sharedFilter filter with
    | none => false
    | some effective => wildcardsValid true effective

end Validate

/-- The levels of a span, cut at every `/`. -/
def levels (value : Bytes) : List Bytes := value.splitOn slash

/-- The levels joined by `/`. -/
def joinLevels (ls : List Bytes) : Bytes := [slash].intercalate ls

/-- A first level that starts with `$` is reserved. -/
def sysLevel (level : Bytes) : Bool := level.head? == some dollar

/-- The levels of a filter as a path and a trailing multi-level wildcard. -/
def parseLevels : List Bytes → LevelFilter Bytes
  | [] => ⟨[], false⟩
  | level :: rest =>
    if level = [hash] ∧ rest = [] then ⟨[], true⟩
    else ⟨(if level = [plus] then none else some level) :: (parseLevels rest).path, (parseLevels rest).multi⟩

def shareLevel : Bytes := text "$share"

/-- The levels behind a `$share` level and its group level. -/
def innerLevels : List Bytes → List Bytes
  | l :: g :: rest => if l = shareLevel then rest else l :: g :: rest
  | ls => ls

/-- A filter without share prefix, read level by level. -/
def levelFilter (filter : Bytes) : LevelFilter Bytes := parseLevels (levels filter)

section Utf8
variable [Vstr] {s : Bytes}

theorem utf8Next_length {r : Nat × Bytes} (h : Vstr.utf8Next s = some r) : r.2.length < s.length := by
  obtain ⟨seq, hne, hs, -, -⟩ := Vstr.utf8Next_encoding s r.1 r.2 h
  have := List.length_pos_iff.2 hne
  rw [hs, length_append]
  omega

/-- Fuel beyond the length of the span is not used. -/
theorem utf8Loop_eq {n : Nat} (hn : s.length ≤ n) : utf8Loop n s = utf8Validate s := by
  suffices h : ∀ (k : Nat) (s : Bytes) (n m : Nat), s.length ≤ k → s.length ≤ n → s.length ≤ m →
      utf8Loop n s = utf8Loop m s from h _ s n _ (Nat.le_refl _) hn (Nat.le_refl _)
  intro k
  induction k with
  | zero =>
    intro s n m hk _ _
    obtain rfl : s = [] := List.length_eq_zero_iff.1 (by omega)
    cases n <;> cases m <;> rfl
  | succ k ih =>
    intro s n m hk hn hm
    match s, n, m with
    | [], n, m => cases n <;> cases m <;> rfl
    | b :: s, n + 1, m + 1 =>
      simp only [utf8Loop]
      cases hd : Vstr.utf8Next (b :: s) with
      | none => rfl
      | some r =>
        have hlt := utf8Next_length hd
        simp only [length_cons] at hlt hk hn hm
        simp only [ih r.2 n m (by omega) (by omega) (by omega)]

/-- One step of the validation loop. -/
theorem utf8Validate_cons (b : UInt8) :
    utf8Validate (b :: s) = match Vstr.utf8Next (b :: s) with
      | none => false
      | some (c, rest) => c != 0 && !noncharacter c && utf8Validate rest := by
  rw [utf8Validate, length_cons, utf8Loop]
  cases hd : Vstr.utf8Next (b :: s) with
  | none => rfl
  | some r =>
    have hlt := utf8Next_length hd
    simp only [length_cons] at hlt
    simp only [utf8Loop_eq (show r.2.length ≤ s.length by omega)]

variable {b : UInt8}

omit [Vstr] in
theorem noncharacter_ascii (hb : b < 0x80) : noncharacter b.toNat = false := by
  have h : ∀ n < 128, noncharacter n = false := by decide
  exact h _ (UInt8.lt_iff_toNat_lt.1 hb)

theorem utf8Validate_ascii (h0 : b ≠ 0) (hb : b < 0x80) : utf8Validate (b :: s) = utf8Validate s := by
  have hn : (b.toNat != 0) = true := by
    simpa [bne_iff_ne] using fun h => h0 (UInt8.toNat_inj.1 h)
  rw [utf8Validate_cons, Vstr.utf8Next_ascii b s h0 hb]
  simp only [hn, noncharacter_ascii hb, Bool.not_false, Bool.true_and]

theorem utf8Validate_of_ascii (h : s.all (fun b => b != 0 && decide (b < 0x80)) = true) : utf8Validate s = true := by
  induction s with
  | nil => rfl
  | cons b s ih =>
    simp only [all_cons, Bool.and_eq_true, bne_iff_ne, decide_eq_true_eq] at h
    rw [utf8Validate_ascii h.1.1 h.1.2, ih h.2]

/-- An ASCII byte ends every encoding before it, so validation splits there. -/
theorem utf8Validate_append_ascii (h0 : b ≠ 0) (hb : b < 0x80) (a c : Bytes) :
    utf8Validate (a ++ b :: c) = (utf8Validate a && utf8Validate c) := by
  induction hk : a.length using Nat.strongRecOn generalizing a with
  | _ k ih =>
    subst hk
    cases a with
    | nil => simp [utf8Validate_ascii h0 hb, show utf8Validate [] = true from rfl]
    | cons x a =>
      rw [cons_append, utf8Validate_cons, utf8Validate_cons]
      cases hd : Vstr.utf8Next (x :: a) with
      | some r =>
        -- the first encoding lies inside `a`, and is read the same with more behind it
        obtain ⟨seq, hne, hs, -, hany⟩ := Vstr.utf8Next_encoding _ r.1 r.2 hd
        have hlt := utf8Next_length hd
        rw [← cons_append, hs, append_assoc, hany]
        simp only [ih r.2.length hlt r.2 rfl, Bool.and_assoc]
      | none =>
        cases hd' : Vstr.utf8Next (x :: (a ++ b :: c)) with
        | none => rfl
        | some r =>
          obtain ⟨seq, hne, hs, hbs, hany⟩ := Vstr.utf8Next_encoding _ r.1 r.2 hd'
          rw [← cons_append] at hs
          rcases List.append_eq_append_iff.1 hs with ⟨u, hu, hr⟩ | ⟨u, hu, hr⟩
          · -- the encoding would reach past `a` and hold the ASCII byte `b`
            exfalso
            cases u with
            | nil =>
              rw [append_nil] at hu
              rw [← append_nil (x :: a), ← hu, hany] at hd
              cases hd
            | cons z u =>
              have hz : z = b := by simpa using (List.cons.inj hr).1.symm
              rcases hbs with h1 | h1
              · rw [hu] at h1
                simp at h1
              · have := h1 b (by rw [hu, hz]; simp)
                exact absurd hb (by simpa using this)
          · rw [hu, hany] at hd
            cases hd
end Utf8

theorem levels_ne_nil (v : Bytes) : levels v ≠ [] := splitOn_ne_nil _ _

theorem levels_cons (ch : UInt8) (v : Bytes) :
    levels (ch :: v) = if ch = slash then [] :: levels v else (levels v).modifyHead (ch :: ·) := by
  rw [levels, splitOn_cons_eq_if_modifyHead]
  simp only [beq_iff_eq]
  rfl

/-- Wildcards stand alone in their level, and `#` only in the last one. -/
def levelsValid : List Bytes → Prop
  | [] => True
  | level :: rest =>
    (level = [hash] ∧ rest = []) ∨ (level = [plus] ∨ (plus ∉ level ∧ hash ∉ level)) ∧ levelsValid rest

variable {v l : Bytes} {ls : List Bytes}

theorem levels_first_nil (h : levels v = l :: ls) : (l = [] ↔ v = [] ∨ v.head? = some slash) ∧ (l = [] ∧ ls = [] ↔ v = []) := by
  cases v with
  | nil =>
    obtain ⟨rfl, rfl⟩ := List.cons.inj (show [[]] = l :: ls from h)
    simp
  | cons ch v =>
    obtain ⟨k, ks, hk⟩ := exists_cons_of_ne_nil (levels_ne_nil v)
    rw [levels_cons, hk] at h
    split at h
    next hc =>
      obtain ⟨rfl, rfl⟩ := List.cons.inj h
      simp [hc]
    next hc =>
      obtain ⟨rfl, rfl⟩ := List.cons.inj h
      simp [hc]

variable {b : UInt8}

/-- A span and its first level start with the same byte, if it is not a separator. -/
theorem head?_first_level (h : levels v = l :: ls) (hb : b ≠ slash) : v.head? = some b ↔ l.head? = some b := by
  cases v with
  | nil =>
    obtain ⟨rfl, -⟩ := List.cons.inj (show [[]] = l :: ls from h)
    rfl
  | cons ch v =>
    obtain ⟨k, ks, hk⟩ := exists_cons_of_ne_nil (levels_ne_nil v)
    rw [levels_cons, hk] at h
    split at h
    next hc =>
      obtain ⟨rfl, -⟩ := List.cons.inj h
      simp [hc, hb.symm]
    next hc =>
      obtain ⟨rfl, -⟩ := List.cons.inj h
      simp

/-- The wildcard scan decides `levelsValid`; inside a level no further wildcard is valid. -/
theorem wildcardsValid_iff :
    (wildcardsValid true v = true ↔ levelsValid (levels v)) ∧
    (wildcardsValid false v = true ↔ ∃ l ls, levels v = l :: ls ∧ plus ∉ l ∧ hash ∉ l ∧ levelsValid ls) := by
  induction v with
  | nil => simp [wildcardsValid, levels, levelsValid]
  | cons ch v ih =>
    obtain ⟨l, ls, hl⟩ := exists_cons_of_ne_nil (levels_ne_nil v)
    obtain ⟨hfst, honly⟩ := levels_first_nil hl
    rw [levels_cons, hl]
    rw [hl] at ih
    have ihf : wildcardsValid false v = true ↔ plus ∉ l ∧ hash ∉ l ∧ levelsValid ls := by
      rw [ih.2]
      constructor
      · rintro ⟨l', ls', h, hp⟩
        obtain ⟨rfl, rfl⟩ := List.cons.inj h
        exact hp
      · exact fun h => ⟨l, ls, rfl, h⟩
    have hph : plus ≠ hash := by decide
    have hps : plus ≠ slash := by decide
    have hhs : hash ≠ slash := by decide
    by_cases hs : ch = slash
    · simp [wildcardsValid, hs, ih.1, levelsValid]
    by_cases hh : ch = hash
    · subst hh
      simp [wildcardsValid, hs, levelsValid, hph.symm, ← honly]
    by_cases hp : ch = plus
    · subst hp
      simp [wildcardsValid, hph, hs, levelsValid, ihf]
      grind
    · simp [wildcardsValid, hs, hh, hp, ihf, levelsValid]
      grind

theorem joinLevels_levels (v : Bytes) : joinLevels (levels v) = v := intercalate_splitOn _

theorem levels_joinLevels (hne : ls ≠ []) (h : ∀ l ∈ ls, slash ∉ l) :
    levels (joinLevels ls) = ls := splitOn_intercalate _ h hne

theorem levels_append (a b : Bytes) : levels (a ++ slash :: b) = levels a ++ levels b :=
  splitOn_append_cons_self _ _

theorem levels_of_not_mem (h : slash ∉ v) : levels v = [v] := splitOn_eq_singleton h

section
variable (hl : l ∈ levels v)
include hl

theorem levels_spec : slash ∉ l ∧ l ⊆ v := by
  induction v generalizing l with
  | nil => simp_all [levels]
  | cons ch v ih =>
    obtain ⟨k, ks, hk⟩ := exists_cons_of_ne_nil (levels_ne_nil v)
    rw [levels_cons, hk] at hl
    rw [hk] at ih
    split at hl
    next hc =>
      rcases List.mem_cons.1 hl with rfl | hl
      · simp
      · exact ⟨(ih hl).1, subset_cons_of_subset _ (ih hl).2⟩
    next hc =>
      rcases List.mem_cons.1 hl with rfl | hl
      · obtain ⟨hslash, hsubset⟩ := ih (mem_cons_self ..)
        exact ⟨by simpa [Ne.symm hc] using hslash, cons_subset_cons _ hsubset⟩
      · obtain ⟨hslash, hsubset⟩ := ih (mem_cons_of_mem _ hl)
        exact ⟨hslash, subset_cons_of_subset _ hsubset⟩

theorem slash_not_mem_levels : slash ∉ l := (levels_spec hl).1

theorem mem_of_mem_levels (hb : b ∈ l) : b ∈ v := (levels_spec hl).2 hb

end

theorem sharePrefix_eq : sharePrefix = shareLevel ++ [slash] := by decide

theorem levels_shared (tail : Bytes) (h : v = sharePrefix ++ tail) : levels v = shareLevel :: levels tail := by
  rw [h, sharePrefix_eq, append_assoc, singleton_append, levels_append, levels_of_not_mem (by decide), singleton_append]

variable {g : Bytes}

theorem sharePrefix_of_levels {rest : List Bytes} (h : levels v = shareLevel :: g :: rest) : sharePrefix.isPrefixOf v = true := by
  rw [List.isPrefixOf_iff_prefix, ← joinLevels_levels v, h, joinLevels, sharePrefix_eq]
  simp [List.intercalate, List.intersperse]

/-- The scan to the next `/` cuts the span there. -/
theorem scan_slash (h : v.dropWhile (· != slash) ≠ []) :
    slash ∉ v.takeWhile (· != slash) ∧
      v = v.takeWhile (· != slash) ++ slash :: (v.dropWhile (· != slash)).tail := by
  induction v with
  | nil => simp at h
  | cons ch v ih =>
    by_cases hc : ch = slash
    · simp [hc]
    have hb : (ch != slash) = true := by simpa using hc
    simp only [dropWhile_cons, takeWhile_cons, hb, if_true] at h ⊢
    obtain ⟨hnot, hcut⟩ := ih h
    exact ⟨by simpa [Ne.symm hc] using hnot, congrArg (ch :: ·) hcut⟩

variable {f : Bytes} (h : sharedFilter f = some g)
include h

/-- A filter without share prefix is its own effective filter; a shared one splits into the
    prefix, a group and the effective filter. -/
theorem sharedFilter_some :
    (g = f ∧ sharePrefix.isPrefixOf f = false) ∨
    ∃ group, f = sharePrefix ++ (group ++ slash :: g) ∧ group ≠ [] ∧ g ≠ [] ∧ slash ∉ group ∧ plus ∉ group ∧
      hash ∉ group := by
  rw [sharedFilter] at h
  split at h
  next hp => exact .inl ⟨(Option.some.inj h).symm, by simpa using hp⟩
  next hp =>
    simp only [Bool.not_eq_true', Bool.not_eq_false, List.isPrefixOf_iff_prefix] at hp
    obtain ⟨tail, rfl⟩ := hp
    rw [drop_left] at h
    dsimp only at h
    split at h
    next => cases h
    next hgroup =>
      split at h
      next => cases h
      next hnil =>
        obtain rfl := Option.some.inj h
        simp only [Bool.or_eq_true, List.isEmpty_iff, not_or] at hnil
        obtain ⟨hnot, hcut⟩ := scan_slash hnil.1.2
        simp only [any_eq_true, Bool.or_eq_true, beq_iff_eq, not_exists, not_and, not_or] at hgroup
        exact .inr ⟨tail.takeWhile (· != slash), by rw [← hcut], hnil.1.1, hnil.2, hnot,
          fun hm => (hgroup _ hm).1 rfl, fun hm => (hgroup _ hm).2 rfl⟩

/-- The filter behind a well-formed share prefix has the inner levels. -/
theorem levels_sharedFilter : levels g = innerLevels (levels f) := by
  rcases sharedFilter_some h with ⟨rfl, hp⟩ | ⟨group, rfl, -, -, hnot, -, -⟩
  · match hl : levels g with
    | [] => rfl
    | [l] => rfl
    | l :: k :: rest =>
      rw [innerLevels, if_neg]
      rintro rfl
      rw [sharePrefix_of_levels hl] at hp
      cases hp
  · rw [levels_shared _ rfl, levels_append, levels_of_not_mem hnot]
    simp [innerLevels]

end Flowie.Mqtt
