import Mathlib.Data.List.Basic

/-! # Positional numerals

Texts that write a natural number in a base, the most significant digit first, with
single separators allowed between the digits. The grammar grows on the right, as
the number does; the reader goes from the left, and accepts what the grammar
describes. Digits as `Nat.toDigits` writes them are such a text, and so is one
with zeros in front. -/

namespace Numerals

universe u

/-- Which symbols are digits of a base, and which may stand between two digits. -/
structure Alphabet (σ : Type u) where
  base : Nat
  digit : σ → Option Nat
  separates : σ → Bool
  not_both : ∀ c, separates c = true → digit c = none

namespace Alphabet

variable {σ : Type u} (A : Alphabet σ)

/-- The text writes the number. -/
inductive Writes : List σ → Nat → Prop
  | single {c : σ} {d : Nat} (h : A.digit c = some d) : Writes [c] d
  | digit {cs : List σ} {n : Nat} {c : σ} {d : Nat} (hcs : Writes cs n) (h : A.digit c = some d) :
      Writes (cs ++ [c]) (n * A.base + d)
  | separated {cs : List σ} {n : Nat} {s c : σ} {d : Nat} (hcs : Writes cs n)
      (hs : A.separates s = true) (h : A.digit c = some d) :
      Writes (cs ++ [s, c]) (n * A.base + d)

/-- Reads on from a number; `after` says that the symbol before was a digit. -/
def readFrom : Bool → Nat → List σ → Option Nat
  | after, n, [] => if after then some n else none
  | after, n, c :: cs =>
    if A.separates c then if after then readFrom false n cs else none
    else match A.digit c with
      | some d => readFrom true (n * A.base + d) cs
      | none => none

def read (cs : List σ) : Option Nat := A.readFrom false 0 cs

variable {A}

theorem readFrom_digit {after : Bool} {n d : Nat} {c : σ} {cs : List σ} (h : A.digit c = some d) :
    A.readFrom after n (c :: cs) = A.readFrom true (n * A.base + d) cs := by
  have hs : A.separates c = false := by
    rw [Bool.eq_false_iff]
    intro hs
    rw [A.not_both c hs] at h
    cases h
  simp [readFrom, hs, h]

theorem readFrom_separator {n : Nat} {s : σ} {cs : List σ} (h : A.separates s = true) :
    A.readFrom true n (s :: cs) = A.readFrom false n cs := by
  simp [readFrom, h]

/-- The reader goes through what the grammar describes, whatever follows. -/
theorem Writes.readFrom {cs : List σ} {n : Nat} (h : A.Writes cs n) (rest : List σ) :
    A.readFrom false 0 (cs ++ rest) = A.readFrom true n rest := by
  induction h generalizing rest with
  | single h =>
    rw [List.singleton_append, readFrom_digit h, Nat.zero_mul, Nat.zero_add]
  | digit hcs h ih => rw [List.append_assoc, ih, List.singleton_append, readFrom_digit h]
  | separated hcs hs h ih =>
    rw [List.append_assoc, ih, List.cons_append, readFrom_separator hs, List.singleton_append,
      readFrom_digit h]

/-- What the reader has gone through: digits last, or nothing or a separator last. -/
inductive Passed (A : Alphabet σ) : Bool → Nat → List σ → Prop
  | start : Passed A false 0 []
  | digit {cs : List σ} {n : Nat} (h : A.Writes cs n) : Passed A true n cs
  | separator {cs : List σ} {n : Nat} {s : σ} (h : A.Writes cs n) (hs : A.separates s = true) :
      Passed A false n (cs ++ [s])

theorem Passed.next {after : Bool} {n d : Nat} {cs : List σ} {c : σ} (h : Passed A after n cs)
    (hd : A.digit c = some d) : A.Writes (cs ++ [c]) (n * A.base + d) := by
  cases h with
  | start =>
    rw [List.nil_append, Nat.zero_mul, Nat.zero_add]
    exact .single hd
  | digit h => exact .digit h hd
  | separator h hs =>
    rw [List.append_assoc]
    exact .separated h hs hd

theorem Passed.writes {after : Bool} {n m : Nat} {cs rest : List σ} (h : Passed A after n cs)
    (hread : A.readFrom after n rest = some m) : A.Writes (cs ++ rest) m := by
  induction rest generalizing after n cs with
  | nil =>
    cases h with
    | start => cases hread
    | digit h =>
      rw [List.append_nil]
      exact Option.some.inj hread ▸ h
    | separator h hs => cases hread
  | cons c rest ih =>
    rw [← List.singleton_append, ← List.append_assoc]
    cases hs : A.separates c with
    | true =>
      cases h with
      | start => simp [Alphabet.readFrom, hs] at hread
      | separator h hs' => simp [Alphabet.readFrom, hs] at hread
      | digit h => exact ih (.separator h hs) ((readFrom_separator hs).symm.trans hread)
    | false =>
      cases hd : A.digit c with
      | none => simp [Alphabet.readFrom, hs, hd] at hread
      | some d => exact ih (.digit (h.next hd)) ((readFrom_digit hd).symm.trans hread)

/-- **The reader accepts what the grammar describes.** -/
theorem read_iff {cs : List σ} {n : Nat} : A.read cs = some n ↔ A.Writes cs n := by
  constructor
  · exact fun h => Passed.start.writes h
  · intro h
    have hall := h.readFrom []
    rwa [List.append_nil] at hall

/-! ## The shape of a numeral -/

theorem Writes.exists_cons {cs : List σ} {n : Nat} (h : A.Writes cs n) :
    ∃ c d rest, cs = c :: rest ∧ A.digit c = some d := by
  induction h with
  | single h => exact ⟨_, _, _, rfl, h⟩
  | digit hcs h ih | separated hcs hs h ih =>
    obtain ⟨c, d, rest, rfl, hd⟩ := ih
    exact ⟨c, d, _, rfl, hd⟩

theorem Writes.exists_last {cs : List σ} {n : Nat} (h : A.Writes cs n) :
    ∃ c d rest, cs = rest ++ [c] ∧ A.digit c = some d := by
  cases h with
  | single h => exact ⟨_, _, [], rfl, h⟩
  | digit hcs h => exact ⟨_, _, _, rfl, h⟩
  | @separated cs _ s c d hcs hs h => exact ⟨c, d, cs ++ [s], by simp, h⟩

/-- A numeral is made of digits and separators. -/
theorem Writes.symbols {cs : List σ} {n : Nat} (h : A.Writes cs n) :
    ∀ c ∈ cs, (∃ d, A.digit c = some d) ∨ A.separates c = true := by
  induction h with
  | single h => simp [h]
  | digit hcs h ih =>
    intro c hc
    rcases List.mem_append.mp hc with hc | hc
    · exact ih c hc
    · exact Or.inl ⟨_, List.mem_singleton.mp hc ▸ h⟩
  | separated hcs hs h ih =>
    intro c hc
    rcases List.mem_append.mp hc with hc | hc
    · exact ih c hc
    · rcases List.mem_cons.mp hc with rfl | hc
      · exact Or.inr hs
      · exact Or.inl ⟨_, List.mem_singleton.mp hc ▸ h⟩

/-! ## Written digits -/

/-- A zero in front changes nothing. -/
theorem Writes.zero_cons {cs : List σ} {n : Nat} {z : σ} (hz : A.digit z = some 0)
    (h : A.Writes cs n) : A.Writes (z :: cs) n := by
  induction h with
  | @single c d h => simpa using Writes.digit (.single hz) h
  | digit hcs h ih => exact .digit ih h
  | separated hcs hs h ih => exact .separated ih hs h

theorem Writes.leftpad {cs : List σ} {n : Nat} {z : σ} (hz : A.digit z = some 0)
    (h : A.Writes cs n) (width : Nat) : A.Writes (cs.leftpad width z) n := by
  unfold List.leftpad
  generalize width - cs.length = k
  induction k with
  | zero => exact h
  | succ k ih => exact ih.zero_cons hz

theorem writes_toDigits {A : Alphabet Char} (hbase : 1 < A.base)
    (hdigit : ∀ d < A.base, A.digit d.digitChar = some d) (n : Nat) :
    A.Writes (Nat.toDigits A.base n) n := by
  induction n using Nat.strongRecOn with
  | ind n ih =>
    rw [Nat.toDigits_eq_if hbase]
    split
    · rename_i hlt
      exact .single (hdigit n hlt)
    · rename_i hge
      have hwritten := (ih (n / A.base) (Nat.div_lt_self (by omega) hbase)).digit
        (hdigit (n % A.base) (Nat.mod_lt n (by omega)))
      rwa [Nat.div_add_mod'] at hwritten

end Alphabet

end Numerals
