/-!
# Decimal text

* `Decimal.digits`, `Decimal.width`: a number without leading zeros, and how many digits that takes;
* `Decimal.padded`: the digits behind leading zeros, at least `w` characters;
* `Decimal.read?`: the value of a nonempty run of ASCII digits, leading zeros allowed;
* **`Decimal.read?_padded`**: padding reads back.
-/

namespace Docket

namespace Decimal

/-- The digits of `n`, most significant first, without leading zeros. -/
def digits (n : Nat) : List Char := Nat.toDigits 10 n

/-- How many digits `n` takes. -/
def width (n : Nat) : Nat := (digits n).length

/-- The digits of `n` behind leading zeros, at least `w` characters. -/
def padded (w n : Nat) : List Char := (digits n).leftpad w '0'

/-- The digits of `n` as a string. -/
def text (n : Nat) : String := String.ofList (digits n)

/-- The value of a nonempty run of ASCII digits. -/
def read? (cs : List Char) : Option Nat :=
  if cs.isEmpty || !cs.all Char.isDigit then none else some (Nat.ofDigitChars 10 cs 0)

/-! ## Reading back -/

theorem isDigit_of_mem_digits {n : Nat} {c : Char} (h : c ∈ digits n) : c.isDigit = true :=
  Nat.isDigit_of_mem_toDigits (by decide) (by decide) h

theorem width_pos (n : Nat) : 0 < width n := Nat.length_toDigits_pos

theorem padded_eq (w n : Nat) : padded w n = List.replicate (w - width n) '0' ++ digits n := rfl

@[simp] theorem length_padded (w n : Nat) : (padded w n).length = max w (width n) := by
  simp [padded_eq, width]; omega

theorem isDigit_of_mem_padded {w n : Nat} {c : Char} (h : c ∈ padded w n) : c.isDigit = true := by
  rw [padded_eq, List.mem_append] at h
  rcases h with h | h
  · rw [(List.mem_replicate.1 h).2]; decide
  · exact isDigit_of_mem_digits h

/-- A run of digits ends where a text goes on with something else. -/
theorem takeWhile_isDigit_append {cs rest : List Char} (all : ∀ c ∈ cs, c.isDigit = true)
    (stops : ∀ c, rest.head? = some c → c.isDigit = false) :
    (cs ++ rest).takeWhile Char.isDigit = cs := by
  rw [List.takeWhile_append_of_pos all]
  cases rest with
  | nil => simp
  | cons c r => simp [stops c rfl]

theorem dropWhile_isDigit_append {cs rest : List Char} (all : ∀ c ∈ cs, c.isDigit = true)
    (stops : ∀ c, rest.head? = some c → c.isDigit = false) :
    (cs ++ rest).dropWhile Char.isDigit = rest := by
  rw [List.dropWhile_append_of_pos all]
  cases rest with
  | nil => rfl
  | cons c r => simp [stops c rfl]

theorem ofDigitChars_zeros (k : Nat) (cs : List Char) :
    Nat.ofDigitChars 10 (List.replicate k '0' ++ cs) 0 = Nat.ofDigitChars 10 cs 0 := by
  induction k with
  | zero => rfl
  | succ k ih => simpa [List.replicate_succ, Nat.ofDigitChars] using ih

theorem ofDigitChars_padded (w n : Nat) : Nat.ofDigitChars 10 (padded w n) 0 = n := by
  rw [padded_eq, ofDigitChars_zeros]
  exact Nat.ofDigitChars_toDigits (by decide) (by decide)

/-- **Padding reads back.** -/
theorem read?_padded (w n : Nat) : read? (padded w n) = some n := by
  have hne : (padded w n).isEmpty = false := by
    have := width_pos n
    rw [List.isEmpty_eq_false_iff, ← List.length_pos_iff, length_padded]; omega
  have hall : (padded w n).all Char.isDigit = true :=
    List.all_eq_true.2 fun _ => isDigit_of_mem_padded
  simp only [read?, hne, hall, Bool.not_true, Bool.or_self, Bool.false_eq_true, if_false,
    ofDigitChars_padded]

end Decimal

end Docket
