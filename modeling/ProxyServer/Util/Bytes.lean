import Mathlib.Data.Nat.Digits.Defs
import ProxyServer.Foundation.Search

/-!
# `std::string` and `size_t`

Byte strings with the operations the proxy uses. Positions are `size_t` values:
`npos` is the largest of them, and sums and differences wrap.
-/

namespace ProxyServer

abbrev Bytes := List UInt8

/-- The bytes of a literal of the source. -/
def lit (s : String) : Bytes := s.toList.map (fun c => c.toUInt8)

def CR : UInt8 := 13
def LF : UInt8 := 10
def SPACE : UInt8 := 32
def COLON : UInt8 := 58
def SLASH : UInt8 := 47

def crlf : Bytes := [CR, LF]

@[simp] theorem length_crlf : crlf.length = 2 := rfl

/-- What the standard library and the proxy throw. -/
inductive CppError where
  | annotated (message : Bytes)
  | outOfRange
  | invalidArgument
  deriving DecidableEq, Repr

/-! ### `size_t` -/

def SIZE_RANGE : Nat := 2 ^ 64

def npos : Nat := SIZE_RANGE - 1

def addSize (a b : Nat) : Nat := (a + b) % SIZE_RANGE

def subSize (a b : Nat) : Nat := (a + (SIZE_RANGE - b % SIZE_RANGE)) % SIZE_RANGE

/-- The conversion of an `int` to `size_t`. -/
def toSize (n : Int) : Nat := (n % SIZE_RANGE).toNat

theorem npos_lt {n : Nat} (h : n < npos) : n + 1 < SIZE_RANGE := by
  unfold npos SIZE_RANGE at *
  omega

theorem addSize_eq {a b : Nat} (h : a + b < SIZE_RANGE) : addSize a b = a + b := Nat.mod_eq_of_lt h

theorem subSize_eq {a b : Nat} (le : b ≤ a) (h : a < SIZE_RANGE) : subSize a b = a - b := by
  unfold subSize SIZE_RANGE at *
  omega

theorem toSize_ofNat {n : Nat} (h : n < SIZE_RANGE) : toSize (n : Int) = n := by
  unfold toSize SIZE_RANGE at *
  omega

/-! ### Strings -/

/-- `s.find(c, pos)` -/
def find (s : Bytes) (c : UInt8) (pos : Nat) : Nat := (Search.findElem s c pos).getD npos

/-- `s.find(pat)` -/
def findText (s pat : Bytes) : Nat := (Search.firstMatch pat s).getD npos

/-- `s.substr(pos, len)` -/
def substr (s : Bytes) (pos len : Nat) : Except CppError Bytes :=
  if s.length < pos then .error .outOfRange else .ok ((s.drop pos).take len)

/-- `s.substr(pos)` -/
def substrFrom (s : Bytes) (pos : Nat) : Except CppError Bytes :=
  if s.length < pos then .error .outOfRange else .ok (s.drop pos)

/-- `s[i]`, which is the null byte at the end of the string. -/
def charAt (s : Bytes) (i : Nat) : UInt8 := s.getD i 0

/-- `tolower` in the C locale. -/
def toLowerByte (b : UInt8) : UInt8 := if 65 ≤ b ∧ b ≤ 90 then b + 32 else b

/-- `to_lower` -/
def toLower (s : Bytes) : Bytes := s.map toLowerByte

/-- `value.find(pat) != std::string::npos` -/
def contains (s pat : Bytes) : Bool := findText s pat ≠ npos

theorem find_append {p l r : Bytes} {c : UInt8} (absent : c ∉ l) :
    find (p ++ (l ++ c :: r)) c p.length = p.length + l.length := by
  simp [find, Search.findElem_append p l r c absent]

/-! ### Numbers -/

def isSpace (b : UInt8) : Bool := b = 32 ∨ (9 ≤ b ∧ b ≤ 13)

def isDigit (b : UInt8) : Bool := 48 ≤ b ∧ b ≤ 57

def digitValue (b : UInt8) : Nat := b.toNat - 48

/-- The number that a run of digits denotes. -/
def decimal (s : Bytes) : Nat := s.foldl (fun n b => 10 * n + digitValue b) 0

/-- An optional sign and what follows it. -/
def takeSign (s : Bytes) : Int × Bytes :=
  if s.head? = some 45 then (-1, s.tail) else if s.head? = some 43 then (1, s.tail) else (1, s)

/-- `std::stoi`: blanks, a sign, and the longest run of digits, as a 32-bit `int`. -/
def stoi (s : Bytes) : Except CppError Int :=
  let (sign, s) := takeSign (s.dropWhile isSpace)
  let digits := s.takeWhile isDigit
  if digits = [] then .error .invalidArgument
  else
    let n := sign * decimal digits
    if n < -2 ^ 31 ∨ 2 ^ 31 ≤ n then .error .outOfRange else .ok n

/-- `std::to_string` of an `int`. -/
def intToString (n : Int) : Bytes :=
  let digits := (Nat.toDigits 10 n.natAbs).map (fun c => c.toUInt8)
  if n < 0 then 45 :: digits else digits

theorem isDigit_iff (b : UInt8) : isDigit b = true ↔ 48 ≤ b.toNat ∧ b.toNat ≤ 57 := by
  simp [isDigit, UInt8.le_iff_toNat_le]

theorem digit_notSpace {b : UInt8} (digit : isDigit b = true) : isSpace b = false := by
  have range := (isDigit_iff b).mp digit
  simp only [isSpace, decide_eq_false_iff_not, UInt8.le_iff_toNat_le, ← UInt8.toNat_inj,
    UInt8.toNat_ofNat]
  omega

theorem takeSign_digit {b : UInt8} {rest : Bytes} (digit : isDigit b = true) :
    takeSign (b :: rest) = (1, b :: rest) := by
  have notSign : b ≠ 45 ∧ b ≠ 43 := by
    constructor <;> (rintro rfl; exact absurd digit (by decide))
  simp [takeSign, notSign.1, notSign.2]

theorem stoi_bounds {s : Bytes} {v : Int} (h : stoi s = .ok v) : -2 ^ 31 ≤ v ∧ v < 2 ^ 31 := by
  simp only [stoi] at h
  split at h
  · cases h
  · split at h
    · cases h
    · cases h
      omega

theorem stoi_digits {s : Bytes} (digits : s.all isDigit = true) (present : s ≠ []) :
    stoi s = if decimal s < 2 ^ 31 then .ok (decimal s : Int) else .error .outOfRange := by
  obtain ⟨b, rest, rfl⟩ := List.exists_cons_of_ne_nil present
  have first : isDigit b = true := by simp_all
  have dropped : (b :: rest).dropWhile isSpace = b :: rest := by
    simp [List.dropWhile, digit_notSpace first]
  have taken : (b :: rest).takeWhile isDigit = b :: rest := by
    have run : (b :: rest ++ []).takeWhile isDigit = b :: rest ++ [].takeWhile isDigit :=
      List.takeWhile_append_of_pos (by simpa using digits)
    simpa using run
  simp only [stoi, dropped, takeSign_digit first, taken, List.cons_ne_nil, if_false, one_mul]
  by_cases small : decimal (b :: rest) < 2 ^ 31
  · rw [if_pos small, if_neg (by omega)]
  · rw [if_neg small, if_pos (by omega)]

end ProxyServer
