import Http2Comm.Lib.Bytes

/-!
# `URLFunctions` — percent-coding and path prefixes

`encode`, `decode` and `matchPrefix` of `src/URLFunctions.cpp`, on byte strings.

`decode` is written as the source writes it: a loop over an **index**, which looks ahead with
`substr` and jumps by hand. That shape is what has to be checked against the source and it is
not a shape to prove things about, so `decodeFrom_eq` removes it once: the loop at index `i`
appends what `decodeTail` reads off the rest of the string. Everything below that line is about
`decodeTail`, which recurses on the string itself.

## The one subtle test

`i + 2 <= size` admits a `%` with a *single* byte after it. `substr(i + 1, 2)` is then one byte
long, `hex[1]` is the terminating NUL, and NUL is no hexadecimal digit — so the look-ahead
behaves as if it asked for two bytes. `hexAt` models exactly that read.
-/

set_option autoImplicit false

namespace Http2Comm.URLFunctions

open Http2Comm.Lib

/-! ## The functions -/

/-- `UPPER_XDIGITS`. -/
def upperXdigits : Bytes := ascii "0123456789ABCDEF"

/-- The bytes `encode` leaves alone: unreserved in RFC 3986. -/
def isUnreserved (c : UInt8) : Bool :=
  isAlnum c || c == '-'.toUInt8 || c == '_'.toUInt8 || c == '.'.toUInt8 || c == '~'.toUInt8

/-- What one byte of the input appends to the result of `encode`. -/
def encodeByte (c : UInt8) : Bytes :=
  if isUnreserved c then [c]
  else ['%'.toUInt8, upperXdigits.getD (c >>> 4).toNat 0, upperXdigits.getD (c &&& 0x0F).toNat 0]

def encode (decodedUrl : Bytes) : Bytes := decodedUrl.flatMap encodeByte

/-- `s[k]` of a `std::string`: NUL at index `size()`. -/
def charAt (s : Bytes) (k : Nat) : UInt8 := s.getD k 0

/-- The loop of `decode`, from index `i` on. -/
def decodeFrom (encodedUrl : Bytes) (i : Nat) (result : Bytes) : Bytes :=
  if i < encodedUrl.length then
    let ch := charAt encodedUrl i
    if ch = '%'.toUInt8 ∧ i + 2 ≤ encodedUrl.length then
      let hex := (encodedUrl.drop (i + 1)).take 2  -- substr(i + 1, 2)
      if isXdigit (charAt hex 0) ∧ isXdigit (charAt hex 1) then
        -- `i += 2`, and the loop's own `++i`
        decodeFrom encodedUrl (i + 2 + 1) (result ++ [UInt8.ofNat (strtol16 hex)])
      else
        decodeFrom encodedUrl (i + 1) (result ++ [ch])
    else if ch = '+'.toUInt8 then
      decodeFrom encodedUrl (i + 1) (result ++ [' '.toUInt8])
    else
      decodeFrom encodedUrl (i + 1) (result ++ [ch])
  else
    result
termination_by encodedUrl.length - i

def decode (encodedUrl : Bytes) : Bytes := decodeFrom encodedUrl 0 []

/-- `s.find(p)`: the first position at which `p` occurs in `s`, `none` for `npos`. -/
def find (s p : Bytes) : Option Nat :=
  (List.range (s.length + 1)).find? fun i => p.isPrefixOf (s.drop i)

/-- The slashes both arguments of `matchPrefix` get; an empty string gets none. -/
def normalize (path : Bytes) : Bytes :=
  let withFront :=
    if path ≠ [] ∧ path.head? ≠ some '/'.toUInt8 then '/'.toUInt8 :: path else path
  if path ≠ [] ∧ path.getLast? ≠ some '/'.toUInt8 then withFront ++ ['/'.toUInt8] else withFront

def matchPrefix (urlPath pathPrefix : Bytes) : Bool :=
  find (normalize urlPath) (normalize pathPrefix) == some 0

/-! ## `decode` without the index -/

/-- What a byte that starts no escape decodes to. -/
def plain (c : UInt8) : UInt8 := if c = '+'.toUInt8 then ' '.toUInt8 else c

/-- `decode`, read off the string itself. -/
def decodeTail : Bytes → Bytes
  | [] => []
  | [c] => [plain c]
  | [c, d] => plain c :: decodeTail [d]
  | c :: h :: l :: rest =>
    if c = '%'.toUInt8 ∧ isXdigit h ∧ isXdigit l then
      UInt8.ofNat (strtol16 [h, l]) :: decodeTail rest
    else
      plain c :: decodeTail (h :: l :: rest)

theorem plain_percent : plain '%'.toUInt8 = '%'.toUInt8 := by decide

theorem not_isXdigit_nul : isXdigit 0 = false := by decide

/-- The tail from an index inside the string starts with the byte there. -/
theorem drop_eq_charAt_cons {s : Bytes} {i : Nat} (h : i < s.length) :
    s.drop i = charAt s i :: s.drop (i + 1) := by
  rw [List.drop_eq_getElem_cons h]
  simp [charAt, h]

/-- A byte that starts no escape is read alone. -/
theorem decodeTail_plain {c : UInt8} (hc : c ≠ '%'.toUInt8) (rest : Bytes) :
    decodeTail (c :: rest) = plain c :: decodeTail rest := by
  match rest with
  | [] => rfl
  | [_] => rfl
  | _ :: _ :: _ => rw [decodeTail, if_neg (fun h => hc h.1)]

/-- An escape is read whole, whatever follows it. -/
theorem decodeTail_escape {h l : UInt8} (hh : isXdigit h = true) (hl : isXdigit l = true)
    (rest : Bytes) :
    decodeTail ('%'.toUInt8 :: h :: l :: rest)
      = UInt8.ofNat (strtol16 [h, l]) :: decodeTail rest := by
  rw [decodeTail, if_pos ⟨rfl, hh, hl⟩]

/-- A `%` whose look-ahead is rejected is read alone. -/
theorem decodeTail_reject {rest : Bytes}
    (hr : ¬(isXdigit (charAt (rest.take 2) 0) ∧ isXdigit (charAt (rest.take 2) 1))) :
    decodeTail ('%'.toUInt8 :: rest) = '%'.toUInt8 :: decodeTail rest := by
  match rest with
  | [] => rfl
  | [_] => rfl
  | h :: l :: rest =>
    rw [decodeTail, if_neg (fun hx => hr ⟨hx.2.1, hx.2.2⟩), plain_percent]

/-- **The loop appends what `decodeTail` reads off the rest of the string.** -/
theorem decodeFrom_eq (s : Bytes) (i : Nat) (result : Bytes) :
    decodeFrom s i result = result ++ decodeTail (s.drop i) := by
  fun_induction decodeFrom s i result with
  | case1 i result hi ch hch hex hx ih =>
    -- the look-ahead saw two digits, so two bytes are there
    obtain ⟨h, l, rest, hr⟩ : ∃ h l rest, s.drop (i + 1) = h :: l :: rest := by
      match hd : s.drop (i + 1) with
      | [] => simp [hex, hd, charAt, not_isXdigit_nul] at hx
      | [_] => simp [hex, hd, charAt, not_isXdigit_nul] at hx
      | h :: l :: rest => exact ⟨h, l, rest, rfl⟩
    have hdrop : s.drop (i + 2 + 1) = rest := by
      rw [show i + 2 + 1 = (i + 1) + 2 by omega, ← List.drop_drop, hr]; rfl
    have hhex : hex = [h, l] := by simp [hex, hr]
    have hx' : isXdigit h = true ∧ isXdigit l = true := by simpa [hhex, charAt] using hx
    rw [ih, hdrop, drop_eq_charAt_cons hi, hr, show charAt s i = '%'.toUInt8 from hch.1,
      decodeTail_escape hx'.1 hx'.2, hhex]
    simp
  | case2 i result hi ch hch hex hx ih =>
    rw [ih, drop_eq_charAt_cons hi, show charAt s i = '%'.toUInt8 from hch.1,
      decodeTail_reject hx, show ch = '%'.toUInt8 from hch.1]
    simp
  | case3 i result hi ch hch hplus ih =>
    rw [ih, drop_eq_charAt_cons hi, show charAt s i = '+'.toUInt8 from hplus,
      decodeTail_plain (by decide)]
    simp [plain]
  | case4 i result hi ch hch hplus ih =>
    rw [ih, drop_eq_charAt_cons hi]
    by_cases hp : ch = '%'.toUInt8
    · -- a `%` that is last: nothing follows it
      have hlast : s.drop (i + 1) = [] := by
        refine List.drop_eq_nil_of_le ?_
        have := not_and.mp hch hp
        omega
      rw [hlast, show charAt s i = '%'.toUInt8 from hp, hp]
      simp [decodeTail, plain_percent]
    · rw [decodeTail_plain hp, plain, if_neg hplus]
      simp [ch]
  | case5 i result hi =>
    rw [List.drop_eq_nil_of_le (by omega)]
    simp [decodeTail]

theorem decode_eq (s : Bytes) : decode s = decodeTail s := by
  simp [decode, decodeFrom_eq]

/-! ## The round trip -/

theorem isXdigit_upperXdigits : ∀ c : UInt8,
    isXdigit (upperXdigits.getD (c >>> 4).toNat 0) = true ∧
      isXdigit (upperXdigits.getD (c &&& 0x0F).toNat 0) = true := by
  refine forall_byte ?_
  decide +kernel

theorem strtol16_upperXdigits : ∀ c : UInt8,
    UInt8.ofNat (strtol16 [upperXdigits.getD (c >>> 4).toNat 0,
      upperXdigits.getD (c &&& 0x0F).toNat 0]) = c := by
  refine forall_byte ?_
  decide +kernel

/-- An unreserved byte is neither the escape character nor `decode`'s other space. -/
theorem ne_of_isUnreserved {c : UInt8} (h : isUnreserved c = true) :
    c ≠ '%'.toUInt8 ∧ c ≠ '+'.toUInt8 := by
  constructor <;> rintro rfl <;> exact absurd h (by decide)

/-- No byte's encoding is read together with what follows it. -/
theorem decodeTail_encodeByte (c : UInt8) (t : Bytes) :
    decodeTail (encodeByte c ++ t) = c :: decodeTail t := by
  unfold encodeByte
  split
  · next hc =>
    obtain ⟨hpercent, hplus⟩ := ne_of_isUnreserved hc
    rw [List.singleton_append, decodeTail_plain hpercent, plain, if_neg hplus]
  · obtain ⟨hh, hl⟩ := isXdigit_upperXdigits c
    simp only [List.cons_append, List.nil_append]
    rw [decodeTail_escape hh hl, strtol16_upperXdigits]

theorem decodeTail_encode (s t : Bytes) : decodeTail (encode s ++ t) = s ++ decodeTail t := by
  induction s with
  | nil => rfl
  | cons c s ih =>
    have hsplit : encode (c :: s) ++ t = encodeByte c ++ (encode s ++ t) := by simp [encode]
    rw [hsplit, decodeTail_encodeByte, ih, List.cons_append]

/-- **Percent-coding round trip under concatenation**, with the two facts it is used for. -/
theorem decode_encode_append :
    (∀ s t : Bytes, decode (encode s ++ t) = s ++ decode t) ∧
      (∀ s : Bytes, decode (encode s) = s) ∧ Function.Injective encode := by
  have happ : ∀ s t : Bytes, decode (encode s ++ t) = s ++ decode t := by
    intro s t
    rw [decode_eq, decode_eq, decodeTail_encode]
  have hid : ∀ s : Bytes, decode (encode s) = s := by
    intro s
    simpa [decode_eq, decodeTail] using happ s []
  exact ⟨happ, hid, Function.LeftInverse.injective hid⟩

example : decode (ascii "a%2Fb+%4%zz%") = ascii "a/b %4%zz%" := by decide +kernel

end Http2Comm.URLFunctions
