import Http2Comm.Lib.Json
import Http2Comm.Server.Http2Server

/-!
# The error cause cannot escape its JSON string

`receiveError` builds its body by concatenation: a prefix, the escaped cause, a suffix. The
question is whether a cause can be chosen that ends the string early or adds a member, and the
answer goes byte by byte. `causeChr c` is the one string character that `escapeByte c` spells,
`strChar_escapeByte` says it is read back off the text *whatever follows*, and
`unescape_causeChr` says that it stands for `c` again. The two inductions over the cause are
immediate from these, and `Lib.Json.text_object_iff` does the rest.
-/

set_option autoImplicit false

namespace Http2Comm.Server

open Lib Lib.Json

/-- The character of a JSON string that `escapeByte c` spells. -/
def causeChr (c : UInt8) : Chr :=
  if c = '"'.toUInt8 then .escape '"'.toUInt8
  else if c = '\\'.toUInt8 then .escape '\\'.toUInt8
  else if c = '\n'.toUInt8 then .escape 'n'.toUInt8
  else if c = '\r'.toUInt8 then .escape 'r'.toUInt8
  else if c = '\t'.toUInt8 then .escape 't'.toUInt8
  else if c = 0x08 then .escape 'b'.toUInt8
  else if c = 0x0C then .escape 'f'.toUInt8
  else if c < 0x20 then
    .unicode (strtol16 [0x30, 0x30, lowerXdigits.getD ((c >>> 4) &&& 0x0F).toNat 0,
      lowerXdigits.getD (c &&& 0x0F).toNat 0])
  else .unescaped c

theorem isXdigit_lowerXdigits : ∀ c : UInt8,
    isXdigit (lowerXdigits.getD ((c >>> 4) &&& 0x0F).toNat 0) = true ∧
      isXdigit (lowerXdigits.getD (c &&& 0x0F).toNat 0) = true := by
  refine forall_byte ?_
  decide +kernel

/-- A control byte's `\u00XX` is that byte again: the code unit is the byte, below the
surrogates and one byte long in UTF-8. -/
theorem unicode_lowerXdigits : ∀ c : UInt8, c < 0x20 →
    let unit := strtol16 [0x30, 0x30, lowerXdigits.getD ((c >>> 4) &&& 0x0F).toNat 0,
      lowerXdigits.getD (c &&& 0x0F).toNat 0]
    isHighSurrogate unit = false ∧ isLowSurrogate unit = false ∧
      String.utf8EncodeChar (Char.ofNat unit) = [c] := by
  refine forall_byte ?_
  decide +kernel

/-- What the escaper writes for a byte is one character of a string, whatever follows it. -/
theorem strChar_escapeByte (c : UInt8) (t : Bytes) :
    StrChar (escapeByte c ++ t) (causeChr c) t := by
  unfold escapeByte causeChr
  split_ifs with h₁ h₂ h₃ h₄ h₅ h₆ h₇ h₈
  · exact .escape (by decide)
  · exact .escape (by decide)
  · exact .escape (by decide)
  · exact .escape (by decide)
  · exact .escape (by decide)
  · exact .escape (by decide)
  · exact .escape (by decide)
  · obtain ⟨hhi, hlo⟩ := isXdigit_lowerXdigits c
    exact .unicode (by decide) (by decide) hhi hlo
  · exact .unescaped (UInt8.not_lt.mp h₈) h₁ h₂

/-- The character stands for the byte it was written for. -/
theorem unescape_causeChr (c : UInt8) (cs : List Chr) :
    unescape (causeChr c :: cs) = (unescape cs).map (c :: ·) := by
  unfold causeChr
  split_ifs with h₁ h₂ h₃ h₄ h₅ h₆ h₇ h₈
  · subst h₁; rfl
  · subst h₂; rfl
  · subst h₃; rfl
  · subst h₄; rfl
  · subst h₅; rfl
  · subst h₆; rfl
  · subst h₇; rfl
  · obtain ⟨hhigh, hlow, hutf8⟩ := unicode_lowerXdigits c h₈
    rw [unescape_unicode hhigh hlow, hutf8]
    rfl
  · rfl

theorem chars_escapeCause (cause t : Bytes) :
    Chars (escapeCause cause ++ t) (cause.map causeChr) t := by
  induction cause with
  | nil => exact .nil
  | cons c cause ih =>
    have hsplit : escapeCause (c :: cause) ++ t = escapeByte c ++ (escapeCause cause ++ t) := by
      simp [escapeCause]
    rw [hsplit]
    exact .cons (strChar_escapeByte c _) ih

theorem unescape_map_causeChr (cause : Bytes) :
    unescape (cause.map causeChr) = some cause := by
  induction cause with
  | nil => rfl
  | cons c cause ih => rw [List.map_cons, unescape_causeChr, ih]; rfl

/-- The member name of the error body, read as a string. -/
theorem str_cause (t : Bytes) :
    Str (ascii "\"cause\"" ++ t) ((ascii "cause").map causeChr) t := by
  have h := chars_escapeCause (ascii "cause") ('"'.toUInt8 :: t)
  rw [show escapeCause (ascii "cause") = ascii "cause" by decide] at h
  exact .mk h

/-- **No JSON injection through the error cause.** The body for a non-empty description is one
JSON text and denotes one value: the object whose only member is `cause`, and whose string
value stands for the description byte for byte. -/
theorem receiveError_cause (server : Http2Server) (req : Request) (code : Int) (c : Bytes)
    (location : Bytes) (allowedMethods : List Bytes) (hc : c ≠ []) :
    ∃ name value,
      (∀ v, Text (server.receiveError req (code, c) location allowedMethods).response.body v ↔
        v = .object [(name, .string value)]) ∧
      unescape name = some (ascii "cause") ∧ unescape value = some c := by
  refine ⟨(ascii "cause").map causeChr, c.map causeChr, ?_, unescape_map_causeChr _,
    unescape_map_causeChr c⟩
  intro v
  have hvalue : Str ('"'.toUInt8 :: (escapeCause c ++ ascii "\"\x7d")) (c.map causeChr)
      ['}'.toUInt8] := .mk (chars_escapeCause c _)
  have hbody : (server.receiveError req (code, c) location allowedMethods).response.body
      = '{'.toUInt8 :: (ascii "\"cause\"" ++
          ':'.toUInt8 :: '"'.toUInt8 :: (escapeCause c ++ ascii "\"\x7d")) := by
    simp only [Http2Server.receiveError, errorBody, if_pos hc]
    rfl
  rw [hbody]
  exact text_object_iff (str_cause _) hvalue v

/-- A description made of the two bytes that could end the string. -/
theorem receiveError_cause_quote :
    ∃ name value,
      (∀ v, Text (({} : Http2Server).receiveError {} (badRequest, ascii "\"\\") [] []).response.body
        v ↔ v = .object [(name, .string value)]) ∧
      unescape name = some (ascii "cause") ∧ unescape value = some (ascii "\"\\") :=
  receiveError_cause {} {} badRequest (ascii "\"\\") [] [] (by decide)

end Http2Comm.Server
