import Mathlib.Data.Fin.Basic
import Mathlib.Data.List.Basic

/-!
# Byte strings and the C locale

A `std::string` is a list of bytes here. `ascii` spells a literal, and the `is…` predicates are
`<cctype>`'s in the C locale, false on every byte of `0x80` and above. Nothing in this file names
a program.

`forall_byte` is the proof rule: a decidable fact about one byte is 256 evaluations, which the
kernel does.
-/

set_option autoImplicit false

namespace Http2Comm.Lib

abbrev Bytes := List UInt8

/-- The bytes of a literal. -/
def ascii (s : String) : Bytes := s.toList.map Char.toUInt8

/-- `isdigit` in the C locale. -/
def isDigit (c : UInt8) : Bool := '0'.toUInt8 ≤ c && c ≤ '9'.toUInt8

/-- `isalnum` in the C locale. -/
def isAlnum (c : UInt8) : Bool :=
  isDigit c || ('A'.toUInt8 ≤ c && c ≤ 'Z'.toUInt8) || ('a'.toUInt8 ≤ c && c ≤ 'z'.toUInt8)

/-- `isxdigit` in the C locale. -/
def isXdigit (c : UInt8) : Bool :=
  isDigit c || ('A'.toUInt8 ≤ c && c ≤ 'F'.toUInt8) || ('a'.toUInt8 ≤ c && c ≤ 'f'.toUInt8)

/-- The value of a hexadecimal digit of either case. -/
def xdigitValue (c : UInt8) : Nat :=
  if isDigit c then c.toNat - '0'.toNat
  else if c ≤ 'F'.toUInt8 then c.toNat - 'A'.toNat + 10
  else c.toNat - 'a'.toNat + 10

/-- `strtol(s, nullptr, 16)` on a string of hexadecimal digits. -/
def strtol16 (s : Bytes) : Nat := s.foldl (fun value c => 16 * value + xdigitValue c) 0

/-- `std::to_string` of an unsigned number. -/
def toDecimal (n : Nat) : Bytes := (Nat.toDigits 10 n).map Char.toUInt8

/-- The number that decimal digits stand for. -/
def decimalValue (s : Bytes) : Nat :=
  s.foldl (fun value c => 10 * value + (c.toNat - '0'.toNat)) 0

/-- A property of one byte is a property of 256 numbers. -/
theorem forall_byte {p : UInt8 → Prop} (h : ∀ n : Fin 256, p (UInt8.ofFin n)) (c : UInt8) : p c :=
  h c.toFin

theorem digitChar_toUInt8 : ∀ d : Fin 10, isDigit (Nat.digitChar d).toUInt8 = true ∧
    (Nat.digitChar d).toUInt8.toNat - '0'.toNat = d := by
  decide +kernel

/-- **A number is read back from its decimal digits.** -/
theorem decimalValue_toDecimal (n : Nat) :
    (∀ c ∈ toDecimal n, isDigit c = true) ∧ decimalValue (toDecimal n) = n := by
  induction n using Nat.strongRecOn with
  | ind n ih =>
    rw [toDecimal, Nat.toDigits_eq_if (by decide)]
    split
    · next h =>
      obtain ⟨hdigit, hvalue⟩ := digitChar_toUInt8 ⟨n, h⟩
      simpa [decimalValue] using ⟨hdigit, hvalue⟩
    · obtain ⟨hdigits, hvalue⟩ := ih (n / 10) (by omega)
      obtain ⟨hlast, hlastValue⟩ := digitChar_toUInt8 ⟨n % 10, by omega⟩
      rw [toDecimal] at hdigits hvalue
      rw [decimalValue] at hvalue
      constructor
      · intro c hc
        rw [List.map_append, List.mem_append] at hc
        rcases hc with hc | hc
        · exact hdigits c hc
        · obtain rfl := List.mem_singleton.mp hc
          exact hlast
      · rw [decimalValue, List.map_append, List.foldl_append, hvalue, List.map_singleton,
          List.foldl_cons, List.foldl_nil, hlastValue]
        simp only
        omega

end Http2Comm.Lib
