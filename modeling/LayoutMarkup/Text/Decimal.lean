/-!
# Decimal numerals

Natural numbers that fit into 32 bits, written with decimal digits. Zeros in front are allowed and
do not count.

## Main definitions

* `Decimal.value` — the number that a run of digits denotes
* `Decimal.read?` — the 32-bit number that a text of digits denotes
* `Decimal.readSigned?` — the same with an optional plus sign in front
* `Decimal.write` — the numeral of a number, without zeros in front

## Main results

* `Decimal.read?_write`, `Decimal.readSigned?_write` — a written 32-bit number reads back
-/

namespace LayoutMarkup.Text.Decimal

/-- The number that a run of decimal digits denotes. -/
def value (digits : List Char) : Nat := Nat.ofDigitChars 10 digits 0

/-- The numeral of a number. -/
def write (n : Nat) : List Char := Nat.toDigits 10 n

/-- The number that a text denotes: one digit or more and nothing else, below `2 ^ 32`. -/
def read? (text : List Char) : Option UInt32 :=
  if text ≠ [] ∧ text.all Char.isDigit = true ∧ value text < UInt32.size then
    some (UInt32.ofNat (value text))
  else none

/-- The number that a text denotes, with or without a plus sign in front. -/
def readSigned? : List Char → Option UInt32
  | '+' :: digits => read? digits
  | digits => read? digits

@[simp] theorem value_write (n : Nat) : value (write n) = n :=
  Nat.ofDigitChars_ten_toDigits

theorem write_ne_nil (n : Nat) : write n ≠ [] := Nat.toDigits_ne_nil

theorem isDigit_of_mem_write {n : Nat} {c : Char} (h : c ∈ write n) : c.isDigit = true :=
  Nat.isDigit_of_mem_toDigits (by decide) (by decide) h

theorem read?_write (n : UInt32) : read? (write n.toNat) = some n := by
  have hall : (write n.toNat).all Char.isDigit = true :=
    List.all_eq_true.mpr fun _ h => isDigit_of_mem_write h
  have hlt : n.toNat < UInt32.size := n.toNat_lt
  simp [read?, write_ne_nil, hall, hlt]

/-- A numeral has no sign. -/
theorem readSigned?_write (n : UInt32) : readSigned? (write n.toNat) = some n := by
  unfold readSigned?
  split
  · rename_i digits hplus
    have hdigit : '+'.isDigit = true :=
      isDigit_of_mem_write (by rw [hplus]; exact List.mem_cons_self)
    exact absurd hdigit (by decide)
  · exact read?_write n

end LayoutMarkup.Text.Decimal
