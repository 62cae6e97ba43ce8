import Mathlib.Data.List.TakeWhile
import ProxyServer.Util.Bytes

/-!
# Printed numbers

`std::to_string` of an `int` and `std::stoi`. `stoi_intToString` shows that the
second reads what the first prints.
-/

namespace ProxyServer

/-- The digits of `std::to_string`. -/
def digitsOf (n : Nat) : Bytes := (Nat.toDigits 10 n).map (fun c => c.toUInt8)

def digitByte (d : Nat) : UInt8 := (Nat.digitChar d).toUInt8

theorem digitByte_spec {d : Nat} (small : d < 10) :
    isDigit (digitByte d) = true ∧ digitValue (digitByte d) = d := by
  have code : (digitByte d).toNat = 48 + d := by
    show (Nat.digitChar d).val.toUInt8.toNat = 48 + d
    have char : (Nat.digitChar d).val.toNat = 48 + d := Nat.toNat_digitChar_of_lt_ten small
    rw [UInt32.toNat_toUInt8, char]
    omega
  constructor
  · rw [isDigit_iff, code]
    omega
  · unfold digitValue
    rw [code]
    omega

theorem digitsOf_small {n : Nat} (small : n < 10) : digitsOf n = [digitByte n] := by
  unfold digitsOf
  rw [Nat.toDigits_of_lt_base small]
  rfl

theorem digitsOf_large {n : Nat} (large : 10 ≤ n) :
    digitsOf n = digitsOf (n / 10) ++ [digitByte (n % 10)] := by
  unfold digitsOf
  rw [Nat.toDigits_of_base_le (by decide) large, List.map_append]
  rfl

theorem decimal_append (s : Bytes) (b : UInt8) : decimal (s ++ [b]) = 10 * decimal s + digitValue b := by
  simp [decimal]

theorem digitsOf_spec (n : Nat) :
    digitsOf n ≠ [] ∧ (digitsOf n).all isDigit = true ∧ decimal (digitsOf n) = n := by
  induction n using Nat.strong_induction_on with
  | _ n ih =>
    by_cases small : n < 10
    · obtain ⟨digit, value⟩ := digitByte_spec small
      rw [digitsOf_small small]
      exact ⟨by simp, by simp [digit], by simpa [decimal] using value⟩
    · obtain ⟨-, digits, value⟩ := ih (n / 10) (by omega)
      obtain ⟨digit, last⟩ := digitByte_spec (Nat.mod_lt n (show 10 > 0 by decide))
      rw [digitsOf_large (by omega)]
      refine ⟨by simp, by simp [digits, digit], ?_⟩
      rw [decimal_append, value, last]
      omega

theorem stoi_minus {s : Bytes} (digits : s.all isDigit = true) (present : s ≠ []) (small : decimal s ≤ 2 ^ 31) :
    stoi (45 :: s) = .ok (-(decimal s : Int)) := by
  have taken : s.takeWhile isDigit = s := by
    rw [List.takeWhile_eq_self_iff]
    simpa using digits
  have sign : takeSign ((45 :: s).dropWhile isSpace) = (-1, s) := rfl
  simp only [stoi, sign, taken]
  rw [if_neg present, if_neg (by omega), Int.neg_one_mul]

/-- Printing a number and reading it gives it back. -/
theorem stoi_intToString {n : Int} (low : -2 ^ 31 ≤ n) (high : n < 2 ^ 31) : stoi (intToString n) = .ok n := by
  obtain ⟨present, digits, value⟩ := digitsOf_spec n.natAbs
  by_cases negative : n < 0
  · have printed : intToString n = 45 :: digitsOf n.natAbs := if_pos negative
    rw [printed, stoi_minus digits present (by omega), value]
    congr 1
    omega
  · have printed : intToString n = digitsOf n.natAbs := if_neg negative
    rw [printed, stoi_digits digits present, value, if_pos (by omega)]
    congr 1
    omega

theorem intToString_clear {n : Int} {b : UInt8} (other : isDigit b = false) (notMinus : b ≠ 45) : b ∉ intToString n := by
  obtain ⟨-, digits, -⟩ := digitsOf_spec n.natAbs
  have clear : b ∉ digitsOf n.natAbs := by
    intro member
    rw [List.all_eq_true.mp digits b member] at other
    cases other
  unfold intToString
  dsimp only
  split
  · exact List.not_mem_cons_of_ne_of_not_mem notMinus clear
  · exact clear

/-! ### Texts that are numbers -/

/-- The whole text is the decimal number `n`. -/
def Denotes (value : Bytes) (n : Nat) : Prop := value ≠ [] ∧ value.all isDigit = true ∧ decimal value = n

instance (value : Bytes) (n : Nat) : Decidable (Denotes value n) := inferInstanceAs (Decidable (_ ∧ _))

theorem Denotes.stoi {value : Bytes} {n : Nat} (denotes : Denotes value n) (small : n < 2 ^ 31) :
    stoi value = .ok (n : Int) := by
  obtain ⟨present, digits, same⟩ := denotes
  rw [stoi_digits digits present, same, if_pos small]

/-- What `stoi` reads of a number is the number. -/
theorem Denotes.read {value : Bytes} {n : Nat} {v : Int} (denotes : Denotes value n)
    (read : ProxyServer.stoi value = .ok v) : v = n ∧ n < 2 ^ 31 := by
  obtain ⟨present, digits, same⟩ := denotes
  rw [stoi_digits digits present, same] at read
  split at read
  · rename_i small
    exact ⟨(Except.ok.inj read).symm, small⟩
  · cases read

end ProxyServer
