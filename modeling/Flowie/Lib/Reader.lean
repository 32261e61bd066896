import Mathlib.Data.List.Basic

/-!
# Readers of a prefix

A reader takes a value from the front of its input and returns what is left. `Reads p used a`
says that `p` reads `a` from exactly the elements `used`, whatever follows them; a reader is
`Prefixed` when every success is of this kind and takes at least one element. Round trips compose
along `Reads`. A reader `Agrees` with a writer when it reads exactly what the writer writes; both round trips follow, for
one value and for a sequence.
-/

namespace Reader

variable {β ε α : Type*} (p : List β → Except ε (α × List β))

/-- `p` reads `a` from `used`, whatever follows. -/
def Reads (used : List β) (a : α) : Prop :=
  ∀ rest, p (used ++ rest) = .ok (a, rest)

/-- Every success of `p` reads a nonempty prefix of the input. -/
def Prefixed : Prop :=
  ∀ bytes a rest, p bytes = .ok (a, rest) → ∃ used, used ≠ [] ∧ bytes = used ++ rest ∧ Reads p used a

/-- The values read one after the other and the error that ends the sequence, with fuel for the
    number of values. -/
def exhaust (stuck : ε) (next : List β → Except ε (α × List β)) : Nat → List β → List α × ε
  | 0, _ => ([], stuck)
  | fuel + 1, bytes =>
    match next bytes with
    | .error e => ([], e)
    | .ok (a, rest) => (a :: (exhaust stuck next fuel rest).1, (exhaust stuck next fuel rest).2)

/-- The whole sequence: no value is read from nothing, so this much fuel lasts. -/
def all (stuck : ε) (next : List β → Except ε (α × List β)) (bytes : List β) : List α × ε :=
  exhaust stuck next (bytes.length + 1) bytes

variable {stuck : ε} {next : List β → Except ε (α × List β)} {bytes : List β}

theorem exhaust_fuel (hp : Prefixed next) {n m : Nat} (hn : bytes.length < n)
    (hm : bytes.length < m) : exhaust stuck next n bytes = exhaust stuck next m bytes := by
  induction n generalizing m bytes with
  | zero => omega
  | succ n ih =>
    cases m with
    | zero => omega
    | succ m =>
      rw [exhaust, exhaust]
      cases hnext : next bytes with
      | error e => rfl
      | ok r =>
        obtain ⟨a, rest⟩ := r
        obtain ⟨used, hne, rfl, -⟩ := hp _ _ _ hnext
        have hpos : 0 < used.length := List.length_pos_iff.2 hne
        rw [List.length_append] at hn hm
        dsimp only
        rw [ih (by omega) (show rest.length < m by omega)]

theorem all_of_error {e : ε} (h : next bytes = .error e) : all stuck next bytes = ([], e) := by
  rw [all, exhaust, h]

variable {a : α}

theorem all_of_ok (hp : Prefixed next) {rest : List β} (h : next bytes = .ok (a, rest)) :
    all stuck next bytes = (a :: (all stuck next rest).1, (all stuck next rest).2) := by
  obtain ⟨used, hne, rfl, -⟩ := hp _ _ _ h
  have hpos : 0 < used.length := List.length_pos_iff.2 hne
  rw [all, exhaust, h]
  dsimp only
  rw [exhaust_fuel hp (show rest.length < (used ++ rest).length by rw [List.length_append]; omega)
    (Nat.lt_succ_self _)]
  rfl

variable {used : List β}

theorem all_of_reads (hp : Prefixed next) (hr : Reads next used a) (rest : List β) :
    all stuck next (used ++ rest) = (a :: (all stuck next rest).1, (all stuck next rest).2) :=
  all_of_ok hp (hr rest)

/-- What holds of every value the reader reads holds of the whole sequence. -/
theorem forall_mem_all {P : α → Prop} (h : ∀ bytes a rest, next bytes = .ok (a, rest) → P a) (bytes : List β) :
    ∀ a ∈ (all stuck next bytes).1, P a := by
  unfold all
  generalize bytes.length + 1 = fuel
  induction fuel generalizing bytes with
  | zero =>
    intro a ha
    cases ha
  | succ fuel ih =>
    intro a ha
    unfold exhaust at ha
    split at ha
    · cases ha
    rename_i b rest hnext
    rcases List.mem_cons.1 ha with rfl | htail
    · exact h _ _ _ hnext
    · exact ih rest a htail

/-- What holds of every error of the reader holds of the one that ends the sequence. -/
theorem all_error {P : ε → Prop} (hstuck : P stuck) (h : ∀ bytes e, next bytes = .error e → P e) (bytes : List β) :
    P (all stuck next bytes).2 := by
  unfold all
  generalize bytes.length + 1 = fuel
  induction fuel generalizing bytes with
  | zero => exact hstuck
  | succ fuel ih =>
    unfold exhaust
    split
    · exact h _ _ ‹_›
    · exact ih _

/-- `p` reads exactly what `write` writes of the values that are `ok`. -/
def Agrees (ok : α → Prop) (write : α → List β) : Prop :=
  ∀ bytes a rest, p bytes = .ok (a, rest) ↔ ok a ∧ bytes = write a ++ rest

namespace Agrees

variable {p : List β → Except ε (α × List β)} {ok : α → Prop} {write : α → List β} {a : α}

section
variable (h : Agrees p ok write)
include h

theorem reads (ha : ok a) : Reads p (write a) a :=
  fun _ => (h _ _ _).2 ⟨ha, rfl⟩

/-- Nothing else is read as the value. -/
theorem eq_write (hr : Reads p used a) : ok a ∧ used = write a := by
  simpa using (h _ _ _).1 (hr [])

theorem prefixed (hne : ∀ a, write a ≠ []) : Prefixed p := by
  intro bytes a rest hp
  obtain ⟨ha, hbs⟩ := (h _ _ _).1 hp
  exact ⟨write a, hne a, hbs, h.reads ha⟩

end

variable {e : ε} {as : List α}

/-- What is written one after the other is read one after the other. -/
theorem all_flatMap (h : Agrees p ok write) (hne : ∀ a, write a ≠ []) (hnil : p [] = .error e)
    (has : ∀ a ∈ as, ok a) : all stuck p (as.flatMap write) = (as, e) := by
  induction as with
  | nil => exact all_of_error hnil
  | cons a as ih =>
    obtain ⟨ha, has⟩ := List.forall_mem_cons.1 has
    rw [List.flatMap_cons, all_of_reads (h.prefixed hne) (h.reads ha), ih has]

variable {bytes : List β}

/-- A sequence that is read to its end is what is written of its values. -/
theorem eq_flatMap (h : Agrees p ok write) (hstuck : stuck ≠ e)
    (hend : ∀ bytes, p bytes = .error e → bytes = []) (hall : (all stuck p bytes).2 = e) :
    (∀ a ∈ (all stuck p bytes).1, ok a) ∧ bytes = (all stuck p bytes).1.flatMap write := by
  refine ⟨forall_mem_all (fun _ _ _ hp => ((h _ _ _).1 hp).1) bytes, ?_⟩
  unfold all at hall ⊢
  generalize bytes.length + 1 = fuel at hall ⊢
  induction fuel generalizing bytes with
  | zero => exact absurd hall hstuck
  | succ fuel ih =>
    unfold exhaust at hall ⊢
    cases hp : p bytes with
    | error e' =>
      rw [hp] at hall
      obtain rfl : e' = e := hall
      exact hend bytes hp
    | ok r =>
      obtain ⟨a, rest⟩ := r
      rw [hp] at hall
      rw [List.flatMap_cons, ← ih hall]
      exact ((h _ _ _).1 hp).2

/-- A sequence is read to its end as `as` exactly when it is what is written of them. -/
theorem all_iff (h : Agrees p ok write) (hne : ∀ a, write a ≠ []) (hstuck : stuck ≠ e)
    (hend : ∀ bytes, p bytes = .error e ↔ bytes = []) :
    all stuck p bytes = (as, e) ↔ (∀ a ∈ as, ok a) ∧ bytes = as.flatMap write := by
  constructor
  · intro hall
    have heq := h.eq_flatMap hstuck (fun _ => (hend _).1) (congrArg Prod.snd hall)
    rwa [hall] at heq
  · rintro ⟨has, rfl⟩
    exact h.all_flatMap hne ((hend []).2 rfl) has

end Agrees

end Reader
