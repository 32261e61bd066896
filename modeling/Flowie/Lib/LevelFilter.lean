import Mathlib.Data.List.Basic

/-!
# Level filters: matching, containment and overlap

A topic is a nonempty list of levels. A `LevelFilter` is a path of levels, each a literal or
the single-level wildcard (`none`), optionally closed by the multi-level wildcard, which also
accepts the parent level. A topic whose first level is reserved (`sys`) is accepted only by a
filter whose first level is a literal.

`covers` compares two filters level by level; it implies inclusion of the accepted topics
(`accepts_of_covers`), and a few filled topics decide it (`covers_of_accepts_fill`).
`overlaps` holds of every two filters with a common topic (`overlaps_of_accepts`).
-/

/-- A path of literal (`some`) and single-level wildcard (`none`) levels, closed by the
    multi-level wildcard when `multi` is set. -/
@[ext] structure LevelFilter (τ : Type*) where
  path : List (Option τ)
  multi : Bool
deriving DecidableEq, Repr

namespace LevelFilter

open List

variable {τ : Type*} [DecidableEq τ]

/-- Level-wise acceptance, without the rule on reserved first levels. -/
def pathAccepts : List (Option τ) → Bool → List τ → Bool
  | [], multi, t => multi || t.isEmpty
  | _ :: _, _, [] => false
  | none :: p, multi, _ :: t => pathAccepts p multi t
  | some a :: p, multi, b :: t => a == b && pathAccepts p multi t

/-- Level-wise containment of one path in another. -/
def pathCovers : List (Option τ) → Bool → List (Option τ) → Bool → Bool
  | [], true, _, _ => true
  | [], false, q, m => q.isEmpty && !m
  | _ :: _, _, [], _ => false
  | none :: p, n, _ :: q, m => pathCovers p n q m
  | some _ :: _, _, none :: _, _ => false
  | some a :: p, n, some b :: q, m => a == b && pathCovers p n q m

/-- Level-wise compatibility of two paths. -/
def pathOverlaps : List (Option τ) → Bool → List (Option τ) → Bool → Bool
  | [], _, [], _ => true
  | [], n, _ :: _, _ => n
  | _ :: _, _, [], m => m
  | none :: p, n, _ :: q, m => pathOverlaps p n q m
  | some _ :: p, n, none :: q, m => pathOverlaps p n q m
  | some a :: p, n, some b :: q, m => a == b && pathOverlaps p n q m

def wildFirst (f : LevelFilter τ) : Bool :=
  match f.path with
  | some _ :: _ => false
  | _ => true

variable (sys : τ → Bool)

/-- The first level of a topic is reserved. -/
def sysTopic : List τ → Bool
  | [] => false
  | a :: _ => sys a

def sysFirst (f : LevelFilter τ) : Bool :=
  match f.path with
  | some a :: _ => sys a
  | _ => false

/-- `f` accepts the topic `t`. -/
def accepts (f : LevelFilter τ) (t : List τ) : Bool :=
  pathAccepts f.path f.multi t && !(sysTopic sys t && f.wildFirst)

/-- `f` contains `r`, level by level. -/
def covers (f r : LevelFilter τ) : Bool :=
  pathCovers f.path f.multi r.path r.multi && !(sysFirst sys r && f.wildFirst)

/-- Some topic is accepted by both filters, level by level. -/
def overlaps (f r : LevelFilter τ) : Bool :=
  pathOverlaps f.path f.multi r.path r.multi && !(sysFirst sys r && f.wildFirst) &&
    !(sysFirst sys f && r.wildFirst)

/-- The path with every wildcard level replaced by `x`. -/
def fill (x : τ) (f : LevelFilter τ) : List τ := f.path.map (·.getD x)

/-- The filter accepting exactly the topic `t`. -/
def literal (t : List τ) : LevelFilter τ := ⟨t.map some, false⟩

variable {p q : List (Option τ)} {n m : Bool} {t : List τ}

theorem pathAccepts_of_pathCovers (hc : pathCovers p n q m = true) (ht : pathAccepts q m t = true) :
    pathAccepts p n t = true := by
  induction p generalizing q t with
  | nil =>
    cases n with
    | true => simp [pathAccepts]
    | false =>
      simp only [pathCovers, Bool.and_eq_true, List.isEmpty_iff, Bool.not_eq_true'] at hc
      obtain ⟨rfl, rfl⟩ := hc
      exact ht
  | cons a p ih =>
    cases q with
    | nil => cases a <;> simp [pathCovers] at hc
    | cons b q =>
      cases t with
      | nil => cases b <;> simp [pathAccepts] at ht
      | cons c t =>
        cases a with
        | none =>
          cases b with
          | none => exact ih hc ht
          | some b =>
            simp only [pathAccepts, Bool.and_eq_true] at ht
            exact ih hc ht.2
        | some a =>
          cases b with
          | none => simp [pathCovers] at hc
          | some b =>
            simp only [pathCovers, pathAccepts, Bool.and_eq_true, beq_iff_eq] at hc ht ⊢
            exact ⟨hc.1.trans ht.1, ih hc.2 ht.2⟩

variable {sys : τ → Bool} {f : LevelFilter τ}

/-- A reserved topic is accepted only by a filter whose first level is a reserved literal. -/
theorem sysTopic_of_accepts (h : f.accepts sys t = true) (hs : sysTopic sys t = true) : sysFirst sys f = true := by
  obtain ⟨path, multi⟩ := f
  simp only [accepts, hs, Bool.true_and, Bool.and_eq_true, Bool.not_eq_true'] at h
  cases t with
  | nil => simp [sysTopic] at hs
  | cons c t =>
    match path, h with
    | some a :: p, h =>
      simp only [pathAccepts, Bool.and_eq_true, beq_iff_eq] at h
      simpa [sysFirst, sysTopic, h.1.1] using hs
    | none :: p, h => simp [wildFirst] at h
    | [], h => simp [wildFirst] at h

variable {r : LevelFilter τ}

/-- A covering filter accepts every topic of the covered one. -/
theorem accepts_of_covers (hc : f.covers sys r = true) (ht : r.accepts sys t = true) : f.accepts sys t = true := by
  have hsys := sysTopic_of_accepts ht
  simp only [covers, accepts, Bool.and_eq_true, Bool.not_eq_true', Bool.and_eq_false_iff] at hc ht ⊢
  refine ⟨pathAccepts_of_pathCovers hc.1 ht.1, ?_⟩
  rcases hc.2 with h | h
  · left
    by_contra hne
    rw [hsys (by simpa using hne)] at h
    cases h
  · exact .inr h

theorem pathAccepts_fill (x : τ) : pathAccepts q m (q.map (·.getD x)) = true := by
  induction q with
  | nil => simp [pathAccepts]
  | cons a q ih => cases a <;> simp [pathAccepts, ih]

variable {x y : τ}

/-- Two different fillings of `q` reach every level of `q`, so a path accepting both covers
    it; one level more tells whether it ends in the multi-level wildcard. -/
theorem pathCovers_of_fill (hxy : x ≠ y) (hx : pathAccepts p n (q.map (·.getD x)) = true)
    (hy : pathAccepts p n (q.map (·.getD y)) = true) (hm : m = true → pathAccepts p n (q.map (·.getD x) ++ [x]) = true) :
    pathCovers p n q m = true := by
  induction p generalizing q with
  | nil =>
    cases n with
    | true => rfl
    | false =>
      obtain rfl : q = [] := by simpa [pathAccepts] using hx
      cases m with
      | false => rfl
      | true => simp [pathAccepts] at hm
  | cons a p ih =>
    cases q with
    | nil => cases a <;> simp [pathAccepts] at hx
    | cons b q =>
      cases a with
      | none => exact ih hx hy hm
      | some a =>
        simp only [map_cons, cons_append, pathAccepts, Bool.and_eq_true, beq_iff_eq] at hx hy hm
        cases b with
        | none => exact absurd (hx.1.symm.trans hy.1) hxy
        | some b =>
          simp only [pathCovers, Bool.and_eq_true, beq_iff_eq]
          exact ⟨hx.1, ih hx.2 hy.2 fun h => (hm h).2⟩

omit [DecidableEq τ] in
theorem sysTopic_fill (hx : sys x = false) (f : LevelFilter τ) : sysTopic sys (f.fill x) = sysFirst sys f := by
  obtain ⟨path, multi⟩ := f
  match path with
  | [] => rfl
  | none :: p => simpa [fill, sysTopic, sysFirst] using hx
  | some a :: p => rfl

omit [DecidableEq τ] in
theorem not_sys_and_wild : (!(sysFirst sys f && f.wildFirst)) = true := by
  obtain ⟨path, multi⟩ := f
  match path with
  | [] => rfl
  | none :: p => rfl
  | some a :: p => simp [wildFirst]

theorem accepts_fill (hx : sys x = false) : f.accepts sys (f.fill x) = true := by
  rw [accepts, sysTopic_fill hx, fill, pathAccepts_fill, Bool.true_and]
  exact not_sys_and_wild

/-- Containment from acceptance of two fillings and, under the multi-level wildcard, of one
    level more. -/
theorem covers_of_accepts_fill (hxy : x ≠ y) (hx : sys x = false) (h1 : f.accepts sys (r.fill x) = true)
    (h2 : f.accepts sys (r.fill y) = true) (h3 : r.multi = true → f.accepts sys (r.fill x ++ [x]) = true) :
    f.covers sys r = true := by
  simp only [accepts, covers, Bool.and_eq_true, fill] at h1 h2 h3 ⊢
  refine ⟨pathCovers_of_fill hxy h1.1 h2.1 fun h => (h3 h).1, ?_⟩
  have hs := sysTopic_fill hx r
  rw [fill] at hs
  rw [← hs]
  exact h1.2

/-- A path that accepts `t` with each of two last levels has its literals among the levels
    of `t`. -/
theorem literals_of_pathAccepts (hxy : x ≠ y) (h1 : pathAccepts p n (t ++ [x]) = true) (h2 : pathAccepts p n (t ++ [y]) = true)
    {a : τ} (ha : some a ∈ p) : a ∈ t := by
  induction p generalizing t with
  | nil => simp at ha
  | cons e p ih =>
    cases t with
    | nil =>
      exfalso
      have hp : p = [] := by
        cases p with
        | nil => rfl
        | cons e' p => cases e <;> cases e' <;> simp [pathAccepts] at h1
      cases e with
      | none => simp [hp] at ha
      | some b =>
        simp only [nil_append, pathAccepts, Bool.and_eq_true, beq_iff_eq] at h1 h2
        exact hxy (h1.1.symm.trans h2.1)
    | cons c t =>
      cases e with
      | none =>
        have ha' : some a ∈ p := by simpa using ha
        exact mem_cons_of_mem _ (ih h1 h2 ha')
      | some b =>
        simp only [cons_append, pathAccepts, Bool.and_eq_true, beq_iff_eq] at h1 h2
        rcases List.mem_cons.1 ha with h | ha'
        · rw [Option.some.inj h, h1.1]
          exact mem_cons_self ..
        · exact mem_cons_of_mem _ (ih h1.2 h2.2 ha')

theorem pathAccepts_fill_append : pathAccepts q true (q.map (·.getD x) ++ t) = true := by
  induction q with
  | nil => simp [pathAccepts]
  | cons a q ih => cases a <;> simp [pathAccepts, ih]

/-- Under the multi-level wildcard a filter accepts its fillings with one level more. -/
theorem accepts_fill_append (hx : sys x = false) (hy : sys y = false) (hm : f.multi = true) :
    f.accepts sys (f.fill x ++ [y]) = true := by
  have hs : sysTopic sys (f.fill x ++ [y]) = sysFirst sys f := by
    obtain ⟨path, multi⟩ := f
    match path with
    | [] => exact hy
    | none :: p => exact hx
    | some a :: p => rfl
  rw [accepts, hs, hm, fill, pathAccepts_fill_append, Bool.true_and]
  exact not_sys_and_wild

omit [DecidableEq τ] in
theorem sysFirst_literal : sysFirst sys (literal t) = sysTopic sys t := by
  cases t <;> rfl

theorem pathCovers_literal : pathCovers p n (t.map some) false = pathAccepts p n t := by
  induction p generalizing t with
  | nil => cases n <;> cases t <;> rfl
  | cons e p ih => cases e <;> cases t <;> simp [pathCovers, pathAccepts, ih]

theorem covers_literal : f.covers sys (literal t) = f.accepts sys t := by
  rw [covers, accepts, sysFirst_literal]
  exact congrArg (· && _) (pathCovers_literal ..)

theorem pathOverlaps_of_accepts (hp : pathAccepts p n t = true) (hq : pathAccepts q m t = true) :
    pathOverlaps p n q m = true := by
  induction p generalizing q t with
  | nil =>
    cases q with
    | nil => rfl
    | cons b q =>
      cases t with
      | nil => cases b <;> simp [pathAccepts] at hq
      | cons c t => simpa [pathAccepts, pathOverlaps] using hp
  | cons a p ih =>
    cases t with
    | nil => cases a <;> simp [pathAccepts] at hp
    | cons c t =>
      cases q with
      | nil => cases a <;> simpa [pathAccepts, pathOverlaps] using hq
      | cons b q =>
        cases a with
        | none =>
          cases b with
          | none => exact ih hp hq
          | some b => exact ih hp (by simpa [pathAccepts] using (Bool.and_eq_true_iff.1 hq).2)
        | some a =>
          simp only [pathAccepts, Bool.and_eq_true, beq_iff_eq] at hp
          cases b with
          | none => exact ih hp.2 hq
          | some b =>
            simp only [pathAccepts, pathOverlaps, Bool.and_eq_true, beq_iff_eq] at hq ⊢
            exact ⟨hp.1.trans hq.1.symm, ih hp.2 hq.2⟩

theorem overlaps_of_accepts (hf : f.accepts sys t = true) (hr : r.accepts sys t = true) (hne : t ≠ []) :
    f.overlaps sys r = true := by
  obtain ⟨c, t, rfl⟩ := exists_cons_of_ne_nil hne
  have key : ∀ {f r : LevelFilter τ}, f.accepts sys (c :: t) = true → r.accepts sys (c :: t) = true →
      (!(sysFirst sys r && f.wildFirst)) = true := by
    intro f r hf hr
    by_contra hno
    simp only [Bool.not_eq_true', Bool.not_eq_false, Bool.and_eq_true] at hno
    obtain ⟨path, multi⟩ := r
    match path, hno.1, hr with
    | some a :: p, hs, hr =>
      simp only [accepts, pathAccepts, Bool.and_eq_true, beq_iff_eq] at hr
      have hsys : sysTopic sys (c :: t) = true := by
        rw [sysTopic, ← hr.1.1]
        exact hs
      simp [accepts, hsys, hno.2] at hf
  have hpaths : pathOverlaps f.path f.multi r.path r.multi = true := by
    simp only [accepts, Bool.and_eq_true] at hf hr
    exact pathOverlaps_of_accepts hf.1 hr.1
  simp only [overlaps, hpaths, key hf hr, key hr hf, Bool.and_self]

end LevelFilter
