import Flowie.Mqtt.Topic

/-!
# The topic language of a filter

What the validators guarantee about the levels of a topic name and of a topic filter, and the
meaning of `covers` on them: a filter with a nonempty literal level covers a valid requested
filter exactly when it accepts every topic name the requested filter accepts
(`covers_iff_topics`). The topics that decide it are the requested filter with its wildcards
filled by one-byte levels, so they are valid and not longer than the request.
-/

namespace Flowie.Mqtt

open List LevelFilter

/-- The topic is in the language of the filter, whose share prefix plays no part in matching. -/
def filterAccepts (filter topic : Bytes) : Bool :=
  (parseLevels (innerLevels (levels filter))).accepts sysLevel (levels topic)

section

variable [Vstr]

theorem topicNameValidate_iff {t : Bytes} :
    topicNameValidate t = true ↔
      t ≠ [] ∧ t.length ≤ maxUtf8Size ∧ utf8Validate t = true ∧ plus ∉ t ∧ hash ∉ t := by
  simp only [topicNameValidate, Bool.and_eq_true, Bool.not_eq_true', isEmpty_eq_false_iff, decide_eq_true_eq,
    all_eq_true, bne_iff_ne]
  constructor
  · rintro ⟨⟨⟨h1, h2⟩, h3⟩, h4⟩
    exact ⟨h1, h2, h3, fun h => (h4 _ h).1 rfl, fun h => (h4 _ h).2 rfl⟩
  · rintro ⟨h1, h2, h3, hp, hh⟩
    exact ⟨⟨⟨h1, h2⟩, h3⟩, fun ch hch => ⟨fun h => hp (h ▸ hch), fun h => hh (h ▸ hch)⟩⟩

/-- A valid filter has an effective filter, whose wildcards are well placed. -/
theorem topicFilterValidate_iff {f : Bytes} :
    topicFilterValidate f = true ↔
      f ≠ [] ∧ f.length ≤ maxUtf8Size ∧ utf8Validate f = true ∧
        ∃ g, sharedFilter f = some g ∧ levelsValid (levels g) := by
  simp only [topicFilterValidate, Bool.and_eq_true, Bool.not_eq_true', isEmpty_eq_false_iff, decide_eq_true_eq, and_assoc]
  refine and_congr_right fun _ => and_congr_right fun _ => and_congr_right fun _ => ?_
  cases h : sharedFilter f with
  | none => simp
  | some g => simp [(wildcardsValid_iff).1]

end

variable {l : Bytes}

theorem topic_levels_literal {t : Bytes} (hp : plus ∉ t) (hh : hash ∉ t) (hl : l ∈ levels t) : l ≠ [plus] ∧ l ≠ [hash] := by
  constructor
  · rintro rfl
    exact hp (mem_of_mem_levels hl (by simp))
  · rintro rfl
    exact hh (mem_of_mem_levels hl (by simp))

variable {ls : List Bytes}

theorem parseLevels_literal (h : ∀ l ∈ ls, l ≠ [plus] ∧ l ≠ [hash]) : parseLevels ls = literal ls := by
  induction ls with
  | nil => rfl
  | cons l ls ih =>
    obtain ⟨hp, hh⟩ := h l (by simp)
    rw [parseLevels, if_neg (fun hc => hh hc.1), if_neg hp, ih fun k hk => h k (by simp [hk])]
    rfl

theorem levelsValid_literal (h : ∀ l ∈ ls, plus ∉ l ∧ hash ∉ l) : levelsValid ls := by
  induction ls with
  | nil => trivial
  | cons l ls ih => exact .inr ⟨.inr (h l (by simp)), ih fun k hk => h k (by simp [hk])⟩

variable {x : Bytes}

/-- A filled level is the filler or a literal level of the filter. -/
theorem mem_fill_parseLevels (hv : levelsValid ls) (hl : l ∈ (parseLevels ls).fill x) :
    l = x ∨ (l ∈ ls ∧ plus ∉ l ∧ hash ∉ l) := by
  induction ls with
  | nil => simp [parseLevels, fill] at hl
  | cons k ls ih =>
    rw [parseLevels] at hl
    split at hl
    next => simp [fill] at hl
    next hnot =>
      rcases hv with hc | ⟨hk, hv⟩
      · exact absurd hc hnot
      simp only [fill, map_cons, mem_cons] at hl
      rcases hl with hl | hl
      · rcases hk with rfl | hk
        · left
          simpa using hl
        have hp : k ≠ [plus] := by rintro rfl; simp at hk
        rw [if_neg hp, Option.getD_some] at hl
        subst hl
        exact .inr ⟨by simp, hk⟩
      · rcases ih hv hl with h | ⟨h1, h2⟩
        · exact .inl h
        · exact .inr ⟨by simp [h1], h2⟩

def levelBytes (ls : List Bytes) : Nat := (ls.map (·.length + 1)).sum

@[simp] theorem levelBytes_nil : levelBytes [] = 0 := rfl

@[simp] theorem levelBytes_cons : levelBytes (l :: ls) = l.length + 1 + levelBytes ls := by
  simp [levelBytes]

theorem levelBytes_append (a b : List Bytes) : levelBytes (a ++ b) = levelBytes a + levelBytes b := by
  simp [levelBytes]

theorem length_joinLevels (hne : ls ≠ []) : (joinLevels ls).length + 1 = levelBytes ls := by
  induction ls with
  | nil => exact absurd rfl hne
  | cons l ls ih =>
    cases ls with
    | nil => simp [joinLevels, levelBytes, List.intercalate]
    | cons k ls =>
      have := ih (by simp)
      rw [joinLevels] at this ⊢
      rw [intercalate_cons_cons]
      simp only [levelBytes, map_cons, sum_cons, length_append, length_singleton] at this ⊢
      omega

/-- Filling with a one-byte level keeps the size; the dropped `#` level frees two bytes. -/
theorem levelBytes_fill (hx : x.length = 1) (ls : List Bytes) :
    levelBytes ((parseLevels ls).fill x) + (if (parseLevels ls).multi then 2 else 0) = levelBytes ls := by
  induction ls with
  | nil => rfl
  | cons k ls ih =>
    rw [parseLevels]
    split
    next h =>
      rw [h.1, h.2]
      rfl
    next h =>
      have hk : ((if k = [plus] then none else some k).getD x).length = k.length := by
        split
        next hp => rw [hp, Option.getD_none, hx]; rfl
        next hp => rfl
      simp only [fill, levelBytes, map_cons, sum_cons] at ih ⊢
      omega

section

variable [Vstr]

theorem utf8Validate_levels {v : Bytes} : utf8Validate v = true ↔ ∀ l ∈ levels v, utf8Validate l = true := by
  have key : ∀ ls : List Bytes, ls ≠ [] →
      (utf8Validate (joinLevels ls) = true ↔ ∀ l ∈ ls, utf8Validate l = true) := by
    intro ls hne
    induction ls with
    | nil => exact absurd rfl hne
    | cons l ls ih =>
      cases ls with
      | nil => simp [joinLevels, List.intercalate]
      | cons k ls =>
        have ih' := ih (by simp)
        rw [joinLevels] at ih' ⊢
        rw [intercalate_cons_cons, append_assoc, singleton_append,
          utf8Validate_append_ascii (by decide) (by decide), Bool.and_eq_true, ih']
        simp
  rw [← key (levels v) (levels_ne_nil v), joinLevels_levels]

variable {ls : List Bytes}

omit [Vstr] in
theorem mem_joinLevels {ch : UInt8} (h : ch ∈ joinLevels ls) : ch = slash ∨ ∃ l ∈ ls, ch ∈ l := by
  induction ls with
  | nil => simp [joinLevels] at h
  | cons l ls ih =>
    cases ls with
    | nil => exact .inr ⟨l, by simp, by simpa [joinLevels] using h⟩
    | cons k ls =>
      rw [joinLevels, intercalate_cons_cons, append_assoc, mem_append, mem_append, mem_singleton] at h
      rcases h with h | h | h
      · exact .inr ⟨l, by simp, h⟩
      · exact .inl h
      rcases ih h with h | ⟨m, hm, hc⟩
      · exact .inl h
      · exact .inr ⟨m, by simp [hm], hc⟩

theorem topicNameValidate_joinLevels (hne : joinLevels ls ≠ []) (hsize : levelBytes ls ≤ maxUtf8Size + 1)
    (hls : ∀ l ∈ ls, utf8Validate l = true ∧ slash ∉ l ∧ plus ∉ l ∧ hash ∉ l) :
    topicNameValidate (joinLevels ls) = true ∧ levels (joinLevels ls) = ls := by
  have hls0 : ls ≠ [] := by
    rintro rfl
    exact hne rfl
  have hlev := levels_joinLevels hls0 fun l hl => (hls l hl).2.1
  refine ⟨topicNameValidate_iff.2 ⟨hne, ?_, ?_, ?_, ?_⟩, hlev⟩
  · have := length_joinLevels hls0
    omega
  · rw [utf8Validate_levels, hlev]
    exact fun l hl => (hls l hl).1
  · intro h
    rcases mem_joinLevels h with h | ⟨l, hl, h⟩
    · exact absurd h (by decide)
    · exact (hls l hl).2.2.1 h
  · intro h
    rcases mem_joinLevels h with h | ⟨l, hl, h⟩
    · exact absurd h (by decide)
    · exact (hls l hl).2.2.2 h

omit [Vstr] in
theorem joinLevels_ne_nil_iff : joinLevels ls ≠ [] ↔ 1 < levelBytes ls := by
  by_cases hne : ls = []
  · simp [hne, joinLevels]
  have := length_joinLevels hne
  rw [← length_pos_iff]
  omega

omit [Vstr] in
theorem eq_nil_or_of_levelBytes_le_one (h : levelBytes ls ≤ 1) : ls = [] ∨ ls = [[]] := by
  match ls with
  | [] => exact .inl rfl
  | [l] =>
    rw [levelBytes_cons, levelBytes_nil] at h
    rw [List.length_eq_zero_iff.1 (show l.length = 0 by omega)]
    exact .inr rfl
  | l :: k :: ls =>
    rw [levelBytes_cons, levelBytes_cons] at h
    omega

variable {g : Bytes} {f : Bytes}

/-- The size and the text of a valid filter bound those of its effective filter. -/
theorem sharedFilter_bounds (h : sharedFilter f = some g) (hne : f ≠ []) (hsize : f.length ≤ maxUtf8Size)
    (hutf8 : utf8Validate f = true) : g ≠ [] ∧ g.length ≤ maxUtf8Size ∧ utf8Validate g = true := by
  rcases sharedFilter_some h with ⟨rfl, -⟩ | ⟨group, rfl, -, hg, -⟩
  · exact ⟨hne, hsize, hutf8⟩
  refine ⟨hg, ?_, ?_⟩
  · simp only [length_append, length_cons] at hsize
    omega
  · rw [← append_assoc, utf8Validate_append_ascii (by decide) (by decide), Bool.and_eq_true] at hutf8
    exact hutf8.2

structure LetterLevel (x : Bytes) : Prop where
  utf8 : utf8Validate x = true
  size : x.length = 1
  plain : slash ∉ x ∧ plus ∉ x ∧ hash ∉ x
  unreserved : sysLevel x = false

theorem letterLevel {b : UInt8} (h0 : b ≠ 0) (hb : b < 0x80)
    (h : b ≠ slash ∧ b ≠ plus ∧ b ≠ hash ∧ b ≠ dollar) : LetterLevel [b] where
  utf8 := by
    rw [utf8Validate_ascii h0 hb]
    rfl
  size := rfl
  plain := by simp [Ne.symm h.1, Ne.symm h.2.1, Ne.symm h.2.2.1]
  unreserved := by simp [sysLevel, h.2.2.2]

/-- The request with its wildcards filled by letters is a topic name; under the multi-level
    wildcard one more letter fits. -/
theorem topicNameValidate_fill (hsize : g.length ≤ maxUtf8Size) (hutf8 : utf8Validate g = true) (hv : levelsValid (levels g))
    {y : Bytes} (hx : LetterLevel x) (hy : LetterLevel y) {more : List Bytes}
    (hmore : more = [] ∨ (levelFilter g).multi = true ∧ more = [y]) (hne : joinLevels ((levelFilter g).fill x ++ more) ≠ []) :
    topicNameValidate (joinLevels ((levelFilter g).fill x ++ more)) = true ∧
      levels (joinLevels ((levelFilter g).fill x ++ more)) = (levelFilter g).fill x ++ more := by
  have hbs := length_joinLevels (levels_ne_nil g)
  rw [joinLevels_levels] at hbs
  have hfill := levelBytes_fill hx.size (levels g)
  apply topicNameValidate_joinLevels hne
  · rw [levelBytes_append, levelFilter]
    rcases hmore with rfl | ⟨hm, rfl⟩
    · rw [levelBytes_nil]
      omega
    have hm' : (parseLevels (levels g)).multi = true := hm
    rw [if_pos hm'] at hfill
    rw [levelBytes_cons, levelBytes_nil, hy.size]
    omega
  · intro l hl
    rcases List.mem_append.1 hl with hl | hl
    · rcases mem_fill_parseLevels hv hl with rfl | ⟨hmem, hw⟩
      · exact ⟨hx.utf8, hx.plain⟩
      · exact ⟨utf8Validate_levels.1 hutf8 l hmem, slash_not_mem_levels hmem, hw⟩
    · rcases hmore with rfl | ⟨-, rfl⟩
      · simp at hl
      · rw [List.mem_singleton.1 hl]
        exact ⟨hy.utf8, hy.plain⟩

/-- A filter with a nonempty literal level covers a valid request exactly when it accepts
    every topic name the request accepts. -/
theorem covers_iff_topics (hf : topicFilterValidate f = true) (hg : sharedFilter f = some g) {F : LevelFilter Bytes}
    {a : Bytes} (ha : a ≠ []) (hlit : some a ∈ F.path) :
    F.covers sysLevel (levelFilter g) = true ↔
      ∀ t, topicNameValidate t = true → (levelFilter g).accepts sysLevel (levels t) = true →
        F.accepts sysLevel (levels t) = true := by
  refine ⟨fun hc t _ ht => accepts_of_covers hc ht, fun hall => ?_⟩
  obtain ⟨hne, hsize, hutf8, g', hg', hv⟩ := topicFilterValidate_iff.1 hf
  obtain rfl : g' = g := Option.mem_unique hg' hg
  obtain ⟨gne, gsize, gutf8⟩ := sharedFilter_bounds hg hne hsize hutf8
  have hx : LetterLevel (text "x") := letterLevel (by decide) (by decide) (by decide)
  have hy : LetterLevel (text "y") := letterLevel (by decide) (by decide) (by decide)
  have htest : ∀ {x y : Bytes} {more : List Bytes}, LetterLevel x → LetterLevel y →
      (more = [] ∨ (levelFilter g').multi = true ∧ more = [y]) →
      joinLevels ((levelFilter g').fill x ++ more) ≠ [] →
      F.accepts sysLevel ((levelFilter g').fill x ++ more) = true := by
    intro x y more hx hy hmore hj
    obtain ⟨hname, hlev⟩ := topicNameValidate_fill gsize gutf8 hv hx hy hmore hj
    have hacc := hall _ hname
    rw [hlev] at hacc
    apply hacc
    rcases hmore with rfl | ⟨hm, rfl⟩
    · rw [append_nil]
      exact accepts_fill hx.unreserved
    · exact accepts_fill_append hx.unreserved hy.unreserved hm
  have hbs := length_joinLevels (levels_ne_nil g')
  rw [joinLevels_levels] at hbs
  have hfillx := levelBytes_fill hx.size (levels g')
  have hfilly := levelBytes_fill hy.size (levels g')
  rw [← levelFilter] at hfillx hfilly
  have hpos := List.length_pos_iff.2 gne
  by_cases hj : 1 < levelBytes ((levelFilter g').fill (text "x"))
  · apply covers_of_accepts_fill (x := text "x") (y := text "y") (by decide) hx.unreserved
    · rw [← append_nil ((levelFilter g').fill _)]
      exact htest hx hx (.inl rfl) (joinLevels_ne_nil_iff.2 (by rwa [append_nil]))
    · rw [← append_nil ((levelFilter g').fill _)]
      exact htest hy hy (.inl rfl) (joinLevels_ne_nil_iff.2 (by rw [append_nil]; omega))
    · intro hm
      exact htest hx hx (.inr ⟨hm, rfl⟩) (joinLevels_ne_nil_iff.2 (by rw [levelBytes_append]; omega))
  · -- the request is `#` or `/#`: a covering filter has no literal level but the empty one
    exfalso
    have hm : (levelFilter g').multi = true := by
      by_contra hm
      rw [if_neg hm] at hfillx
      omega
    have hmore : ∀ y : Bytes, LetterLevel y → F.accepts sysLevel ((levelFilter g').fill (text "x") ++ [y]) = true :=
      fun y hy => htest hx hy (.inr ⟨hm, rfl⟩) (joinLevels_ne_nil_iff.2 (by
        rw [levelBytes_append, levelBytes_cons, levelBytes_nil, hy.size]
        omega))
    have h1 := hmore _ hx
    have h2 := hmore _ hy
    simp only [accepts, Bool.and_eq_true] at h1 h2
    have hmem : a ∈ (levelFilter g').fill (text "x") := literals_of_pathAccepts (by decide) h1.1 h2.1 hlit
    rcases eq_nil_or_of_levelBytes_le_one (Nat.not_lt.1 hj) with h | h
    · rw [h] at hmem
      cases hmem
    · rw [h, mem_singleton] at hmem
      exact ha hmem

end

end Flowie.Mqtt
