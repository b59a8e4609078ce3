import KvServer.Number.Decimal
import Mathlib.Data.Nat.Digits.Defs

/-!
# Numerals

`Numeral` says which number a text stands for, by its digits and their weights.  The reader of
unsigned numbers accepts exactly the numerals of the numbers below its bound
(`unsigned?_eq_some_iff`).
-/

namespace KvServer.Number

def digitValue (c : Char) : Nat := c.toNat - '0'.toNat

/-- A text of ASCII digits, any number of zeros in front, with one plus sign at most. -/
def Numeral (cs : List Char) (n : Nat) : Prop :=
  ∃ ds : List Char, (cs = ds ∨ cs = '+' :: ds) ∧ ds ≠ [] ∧ (∀ d ∈ ds, d.isDigit = true) ∧
    Nat.ofDigits 10 (ds.map digitValue).reverse = n

theorem isDigit_iff {c : Char} : c.isDigit = true ↔ '0' ≤ c ∧ c ≤ '9' := by
  rw [Char.isDigit, Bool.and_eq_true, decide_eq_true_eq, decide_eq_true_eq]
  exact Iff.rfl

theorem digit?_eq (c : Char) : digit? c = if c.isDigit then some (digitValue c) else none := by
  simp only [isDigit_iff]
  rfl

theorem mapM_digit?_eq_some_iff {cs : List Char} {ns : List Nat} :
    cs.mapM digit? = some ns ↔ (∀ c ∈ cs, c.isDigit = true) ∧ cs.map digitValue = ns := by
  induction cs generalizing ns with
  | nil => simp
  | cons c cs ih =>
      rw [List.mapM_cons, digit?_eq]
      cases hc : c.isDigit with
      | false => simp [hc]
      | true => simp [Option.bind_eq_some_iff, ih, hc, and_assoc]

theorem ofDigits_eq (n : Nat) (ns : List Nat) :
    ofDigits n ns = n * 10 ^ ns.length + Nat.ofDigits 10 ns.reverse := by
  induction ns generalizing n with
  | nil => simp [ofDigits]
  | cons d ns ih =>
      rw [ofDigits, List.foldl_cons, ← ofDigits, ih, List.reverse_cons, Nat.ofDigits_append]
      simp only [Nat.ofDigits_singleton, List.length_reverse, List.length_cons]
      ring

theorem decimal?_eq_some_iff {cs : List Char} {n : Nat} :
    decimal? cs = some n ↔ cs ≠ [] ∧ (∀ c ∈ cs, c.isDigit = true) ∧
      Nat.ofDigits 10 (cs.map digitValue).reverse = n := by
  unfold decimal?
  cases cs with
  | nil => simp
  | cons c cs =>
      simp [-List.mapM_cons, mapM_digit?_eq_some_iff, ofDigits_eq]

/-- The numerals are what the reader of unsigned numbers accepts, below its bound. -/
theorem unsigned?_eq_some_iff {bound : Nat} {cs : List Char} {n : Nat} :
    unsigned? bound cs = some n ↔ Numeral cs n ∧ n < bound := by
  unfold unsigned?
  simp only [Option.filter_eq_some_iff, decide_eq_true_eq]
  refine and_congr_left fun _ ↦ ?_
  split
  · rename_i ds
    rw [decimal?_eq_some_iff]
    constructor
    · intro h
      exact ⟨ds, Or.inr rfl, h⟩
    · rintro ⟨own, rfl | hds, h⟩
      · -- a plus sign is no digit
        simp [Char.isDigit] at h
      · rwa [(List.cons.inj hds).2]
  · rename_i hplus
    rw [decimal?_eq_some_iff]
    constructor
    · intro h
      exact ⟨cs, Or.inl rfl, h⟩
    · rintro ⟨ds, rfl | rfl, h⟩
      · exact h
      · exact absurd rfl (hplus ds)

end KvServer.Number
