import Http2Comm.Lib.Uri
import Http2Comm.URLFunctions

/-!
# Canonical encodings

`decode` accepts many spellings of one string, and `encode` writes one of them. That one is the
canonical encoding: unreserved bytes as they are, and every other byte as an escape with
upper-case digits. `Canonical` says so piece by piece, and is the image of `encode`; a spelling
survives `decode` and `encode` exactly if it is canonical.

The bytes that need no escape are those of RFC 3986, on which `encode`'s own test agrees with the
grammar (`isUnreserved_eq`).
-/

set_option autoImplicit false

namespace Http2Comm.URLFunctions

open Lib

/-- `0-9A-F`. -/
def isUpperXdigit (c : UInt8) : Bool := isDigit c || ('A'.toUInt8 ≤ c && c ≤ 'F'.toUInt8)

/-- The encoding of one byte: an unreserved byte, or the escape of another one. -/
def CanonicalPiece (piece : Bytes) : Prop :=
  (∃ c, Uri.isUnreserved c = true ∧ piece = [c]) ∨
    ∃ high low, isUpperXdigit high = true ∧ isUpperXdigit low = true ∧
      Uri.isUnreserved (UInt8.ofNat (16 * xdigitValue high + xdigitValue low)) = false ∧
      piece = ['%'.toUInt8, high, low]

def Canonical (t : Bytes) : Prop :=
  ∃ pieces : List Bytes, (∀ p ∈ pieces, CanonicalPiece p) ∧ t = pieces.flatten

/-! ## Bytes -/

theorem isUnreserved_eq : ∀ c : UInt8, isUnreserved c = Uri.isUnreserved c := by
  refine forall_byte ?_
  decide +kernel

theorem isUpperXdigit_upperXdigits : ∀ c : UInt8,
    isUpperXdigit (upperXdigits.getD (c >>> 4).toNat 0) = true ∧
      isUpperXdigit (upperXdigits.getD (c &&& 0x0F).toNat 0) = true := by
  refine forall_byte ?_
  decide +kernel

/-- An upper-case digit is the one of its value. -/
theorem upperXdigits_of_isUpperXdigit : ∀ c : UInt8, isUpperXdigit c = true →
    xdigitValue c < 16 ∧ upperXdigits.getD (xdigitValue c) 0 = c := by
  refine forall_byte ?_
  decide +kernel

/-- A byte is cut into its digits again. -/
theorem digits_ofNat : ∀ high low : Fin 16,
    (UInt8.ofNat (16 * high + low) >>> 4).toNat = high ∧
      (UInt8.ofNat (16 * high + low) &&& 0x0F).toNat = low := by
  decide +kernel

section canonical

variable {s t : Bytes}

/-- What `encode` writes for one byte is a piece. -/
theorem canonicalPiece_encodeByte (c : UInt8) : CanonicalPiece (encodeByte c) := by
  unfold encodeByte
  cases hc : isUnreserved c with
  | true => exact Or.inl ⟨c, isUnreserved_eq c ▸ hc, rfl⟩
  | false =>
    obtain ⟨hhigh, hlow⟩ := isUpperXdigit_upperXdigits c
    have hvalue := strtol16_upperXdigits c
    simp only [strtol16, List.foldl_cons, List.foldl_nil, Nat.mul_zero, Nat.zero_add] at hvalue
    refine Or.inr ⟨_, _, hhigh, hlow, ?_, rfl⟩
    rw [hvalue, ← isUnreserved_eq]
    exact hc

/-- Every piece is what `encode` writes for a byte. -/
theorem CanonicalPiece.encodeByte {piece : Bytes} (h : CanonicalPiece piece) :
    ∃ c, encodeByte c = piece := by
  rcases h with ⟨c, hc, rfl⟩ | ⟨high, low, hhigh, hlow, hreserved, rfl⟩
  · exact ⟨c, if_pos ((isUnreserved_eq c).trans hc)⟩
  · obtain ⟨hh, hhigh⟩ := upperXdigits_of_isUpperXdigit high hhigh
    obtain ⟨hl, hlow⟩ := upperXdigits_of_isUpperXdigit low hlow
    obtain ⟨hdigit, hdigit'⟩ := digits_ofNat ⟨_, hh⟩ ⟨_, hl⟩
    refine ⟨UInt8.ofNat (16 * xdigitValue high + xdigitValue low), ?_⟩
    rw [URLFunctions.encodeByte, isUnreserved_eq, hreserved, hdigit, hdigit', hhigh, hlow]
    rfl

/-- **The canonical strings are the image of `encode`.** -/
theorem canonical_iff_encode : Canonical t ↔ ∃ s, encode s = t := by
  constructor
  · rintro ⟨pieces, hpieces, rfl⟩
    induction pieces with
    | nil => exact ⟨[], rfl⟩
    | cons piece pieces ih =>
      obtain ⟨hpiece, hrest⟩ := List.forall_mem_cons.mp hpieces
      obtain ⟨s, hs⟩ := ih hrest
      obtain ⟨c, rfl⟩ := hpiece.encodeByte
      exact ⟨c :: s, by simp [encode, ← hs]⟩
  · rintro ⟨s, rfl⟩
    refine ⟨s.map encodeByte, ?_, List.flatMap_def⟩
    intro piece hpiece
    obtain ⟨c, -, rfl⟩ := List.mem_map.mp hpiece
    exact canonicalPiece_encodeByte c

end canonical

/-- **A string survives `decode` and `encode` exactly if it is canonical**, and the canonical
strings are those that `encode` writes. -/
theorem encode_decode_iff_canonical :
    (∀ t : Bytes, encode (decode t) = t ↔ Canonical t) ∧
      {t | Canonical t} = Set.range encode := by
  constructor
  · intro t
    constructor
    · intro h
      exact canonical_iff_encode.mpr ⟨decode t, h⟩
    · intro h
      obtain ⟨s, rfl⟩ := canonical_iff_encode.mp h
      rw [decode_encode_append.2.1]
  · ext t
    exact canonical_iff_encode

end Http2Comm.URLFunctions
