import Http2Comm.URLFunctions

/-!
# The escape grammar that `decode` reads

A string is read as tokens from left to right: an escape is `%` with two hexadecimal digits, and
every other byte stands for itself, `+` apart. `Splits` is that reading as a relation. It gives
every string one split (`splits_iff`), which covers the string without a gap or an overlap, and
`decode` is what the tokens of the split stand for.

Whether a `%` starts an escape depends on the two bytes that follow it and on nothing else. So a
rejected look-ahead costs one byte, and the bytes looked at are read again.
-/

set_option autoImplicit false

namespace Http2Comm.URLFunctions

open Lib

/-! ## The grammar -/

inductive Token where
  | escape (high low : UInt8)
  | byte (c : UInt8)
  deriving DecidableEq, Repr

def Token.bytes : Token → Bytes
  | .escape high low => ['%'.toUInt8, high, low]
  | .byte c => [c]

/-- What the token stands for. -/
def Token.value : Token → UInt8
  | .escape high low => UInt8.ofNat (16 * xdigitValue high + xdigitValue low)
  | .byte c => if c = '+'.toUInt8 then ' '.toUInt8 else c

/-- `%` with two hexadecimal digits is at the front. -/
def StartsEscape (t : Bytes) : Prop :=
  ∃ high low rest, t = '%'.toUInt8 :: high :: low :: rest ∧ isXdigit high = true ∧
    isXdigit low = true

/-- The split of a string into tokens, from left to right. -/
inductive Splits : Bytes → List Token → Prop
  | nil : Splits [] []
  | escape {high low : UInt8} {rest : Bytes} {ts : List Token} :
      isXdigit high = true → isXdigit low = true → Splits rest ts →
        Splits ('%'.toUInt8 :: high :: low :: rest) (.escape high low :: ts)
  | byte {c : UInt8} {rest : Bytes} {ts : List Token} :
      ¬StartsEscape (c :: rest) → Splits rest ts → Splits (c :: rest) (.byte c :: ts)

/-- The split, computed. -/
def tokens : Bytes → List Token
  | [] => []
  | [c] => [.byte c]
  | [c, d] => .byte c :: tokens [d]
  | c :: high :: low :: rest =>
    if c = '%'.toUInt8 ∧ isXdigit high ∧ isXdigit low then .escape high low :: tokens rest
    else .byte c :: tokens (high :: low :: rest)

section splits

variable {t rest : Bytes} {c : UInt8} {ts : List Token}

theorem startsEscape_cons {high low : UInt8} :
    StartsEscape (c :: high :: low :: rest) ↔
      c = '%'.toUInt8 ∧ isXdigit high = true ∧ isXdigit low = true := by
  constructor
  · rintro ⟨_, _, _, heq, hhigh, hlow⟩
    obtain ⟨rfl, rfl, rfl, rfl⟩ := by simpa using heq
    exact ⟨rfl, hhigh, hlow⟩
  · rintro ⟨rfl, hhigh, hlow⟩
    exact ⟨high, low, rest, rfl, hhigh, hlow⟩

theorem not_startsEscape_of_short (h : t.length ≤ 2) : ¬StartsEscape t := by
  rintro ⟨_, _, rest, rfl, -⟩
  simp at h

theorem splits_tokens (t : Bytes) : Splits t (tokens t) := by
  fun_induction tokens t with
  | case1 => exact .nil
  | case2 c => exact .byte (not_startsEscape_of_short (by simp)) .nil
  | case3 c d ih => exact .byte (not_startsEscape_of_short (by simp)) ih
  | case4 c high low rest h ih =>
    obtain ⟨rfl, hhigh, hlow⟩ := h
    exact .escape hhigh hlow ih
  | case5 c high low rest h ih => exact .byte (fun hstarts => h (startsEscape_cons.mp hstarts)) ih

/-- **A string has one split.** -/
theorem splits_iff : Splits t ts ↔ ts = tokens t := by
  refine ⟨fun h => ?_, fun h => h ▸ splits_tokens t⟩
  induction h with
  | nil => rfl
  | escape hhigh hlow _ ih => rw [tokens, if_pos ⟨rfl, hhigh, hlow⟩, ih]
  | @byte c rest ts hc _ ih =>
    match rest with
    | [] =>
      rw [ih]
      rfl
    | [d] =>
      rw [ih]
      rfl
    | high :: low :: rest => rw [ih, tokens, if_neg fun h => hc (startsEscape_cons.mpr h)]

/-- The split covers the string, each byte once. -/
theorem Splits.bytes_eq (h : Splits t ts) : ts.flatMap Token.bytes = t := by
  induction h with
  | nil => rfl
  | escape _ _ _ ih => simp [Token.bytes, ih]
  | byte _ _ ih => simp [Token.bytes, ih]

theorem strtol16_pair (high low : UInt8) :
    strtol16 [high, low] = 16 * xdigitValue high + xdigitValue low := by
  simp [strtol16]

theorem decodeTail_eq_tokens (t : Bytes) : decodeTail t = (tokens t).map Token.value := by
  fun_induction tokens t with
  | case1 => rfl
  | case2 c => rfl
  | case3 c d ih =>
    rw [decodeTail, ih]
    rfl
  | case4 c high low rest h ih =>
    rw [decodeTail, if_pos h, ih, strtol16_pair]
    rfl
  | case5 c high low rest h ih =>
    rw [decodeTail, if_neg h, ih]
    rfl

end splits

/-- **`decode` reads exactly the escape grammar.** -/
theorem decode_reads_grammar (t : Bytes) :
    ∃ ts, (∀ ts', Splits t ts' ↔ ts' = ts) ∧ ts.flatMap Token.bytes = t ∧
      decode t = ts.map Token.value := by
  refine ⟨tokens t, fun _ => splits_iff, (splits_tokens t).bytes_eq, ?_⟩
  rw [decode_eq, decodeTail_eq_tokens]

example : tokens (ascii "%%41%4") =
    [.byte '%'.toUInt8, .escape '4'.toUInt8 '1'.toUInt8, .byte '%'.toUInt8, .byte '4'.toUInt8] := by
  decide +kernel

end Http2Comm.URLFunctions
