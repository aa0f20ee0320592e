import Http2Comm.URLFunctions

/-!
# The arguments `decode` passes to `isxdigit`

`std::isxdigit` takes an `int` that is `EOF` or the value of an `unsigned char`, and anything else
is undefined. `decode` passes it a `char`, which is signed here, so the bytes from `0x80` on
arrive as negative numbers. `encode` walks over the same kind of string with an `unsigned char`.

`decodeCallsFrom` is the loop of `decode` with the calls it makes written down; its result is that
of the loop (`decodeCallsFrom_fst`). Which bytes are looked at depends on the `%`s alone, since no
`%` is ever inside an escape: each is followed by one byte that is looked at, and by a second one
if the first is a digit. The byte `0xFF` becomes `-1`, which is `EOF`.
-/

set_option autoImplicit false

namespace Http2Comm.URLFunctions

open Lib

/-! ## The loop with its calls -/

/-- The `int` that a signed `char` is converted to. -/
def signedChar (c : UInt8) : Int := c.toInt8.toInt

def eof : Int := -1

/-- What the C library requires of an argument of `isxdigit`. -/
def InXdigitDomain (arg : Int) : Prop := arg = eof ∨ (0 ≤ arg ∧ arg ≤ 255)

instance (arg : Int) : Decidable (InXdigitDomain arg) := inferInstanceAs (Decidable (_ ∨ _))

/-- The loop of `decode`, from index `i` on, and the arguments of its calls of `isxdigit`. -/
def decodeCallsFrom (encodedUrl : Bytes) (i : Nat) (result : Bytes) (calls : List Int) :
    Bytes × List Int :=
  if i < encodedUrl.length then
    let ch := charAt encodedUrl i
    if ch = '%'.toUInt8 ∧ i + 2 ≤ encodedUrl.length then
      let hex := (encodedUrl.drop (i + 1)).take 2
      let first := signedChar (charAt hex 0)
      let second := signedChar (charAt hex 1)
      if isXdigit (charAt hex 0) then
        -- only now is the second byte asked for
        if isXdigit (charAt hex 1) then
          decodeCallsFrom encodedUrl (i + 2 + 1) (result ++ [UInt8.ofNat (strtol16 hex)])
            (calls ++ [first, second])
        else
          decodeCallsFrom encodedUrl (i + 1) (result ++ [ch]) (calls ++ [first, second])
      else
        decodeCallsFrom encodedUrl (i + 1) (result ++ [ch]) (calls ++ [first])
    else if ch = '+'.toUInt8 then
      decodeCallsFrom encodedUrl (i + 1) (result ++ [' '.toUInt8]) calls
    else
      decodeCallsFrom encodedUrl (i + 1) (result ++ [ch]) calls
  else
    (result, calls)
termination_by encodedUrl.length - i

/-- The arguments of the calls of `isxdigit` in `decode`. -/
def isxdigitArguments (encodedUrl : Bytes) : List Int := (decodeCallsFrom encodedUrl 0 [] []).2

/-- **Writing the calls down changes nothing.** -/
theorem decodeCallsFrom_fst (s : Bytes) (i : Nat) (result : Bytes) (calls : List Int) :
    (decodeCallsFrom s i result calls).1 = decodeFrom s i result := by
  fun_induction decodeCallsFrom s i result calls with
  | case1 i result calls hi ch hch hex first second hx hx' ih =>
    rw [ih, eq_comm, decodeFrom, if_pos hi]
    exact (if_pos hch).trans (if_pos ⟨hx, hx'⟩)
  | case2 i result calls hi ch hch hex first second hx hx' ih =>
    rw [ih, eq_comm, decodeFrom, if_pos hi]
    exact (if_pos hch).trans (if_neg fun h => hx' h.2)
  | case3 i result calls hi ch hch hex first hx ih =>
    rw [ih, eq_comm, decodeFrom, if_pos hi]
    exact (if_pos hch).trans (if_neg fun h => hx h.1)
  | case4 i result calls hi ch hch hplus ih =>
    rw [ih, eq_comm, decodeFrom, if_pos hi]
    exact (if_neg hch).trans (if_pos hplus)
  | case5 i result calls hi ch hch hplus ih =>
    rw [ih, eq_comm, decodeFrom, if_pos hi]
    exact (if_neg hch).trans (if_neg hplus)
  | case6 i result calls hi => rw [eq_comm, decodeFrom, if_neg hi]

/-! ## What is looked at -/

/-- Below `0x80`, or the byte that becomes `EOF`. -/
def Safe (c : UInt8) : Prop := c < 0x80 ∨ c = 0xFF

instance (c : UInt8) : Decidable (Safe c) := inferInstanceAs (Decidable (_ ∨ _))

/-- The bytes that are looked at after a `%`, of what follows it. -/
def SafeAfterPercent : Bytes → Prop
  | [] => True
  | [c] => Safe c
  | c :: d :: _ => Safe c ∧ (isXdigit c = true → Safe d)

/-- No `%` is followed by an unsafe byte, directly or after one hexadecimal digit. -/
def SafeLookAhead (t : Bytes) : Prop :=
  ∀ before rest, t = before ++ '%'.toUInt8 :: rest → SafeAfterPercent rest

theorem inXdigitDomain_signedChar : ∀ c : UInt8, InXdigitDomain (signedChar c) ↔ Safe c := by
  refine forall_byte ?_
  decide +kernel

theorem xdigit_safe : ∀ c : UInt8, isXdigit c = true → Safe c ∧ c ≠ '%'.toUInt8 := by
  refine forall_byte ?_
  decide +kernel

section calls

variable {c : UInt8} {t : Bytes}

theorem safeLookAhead_nil : SafeLookAhead [] := by
  intro before rest h
  simp at h

theorem safeLookAhead_cons :
    SafeLookAhead (c :: t) ↔ (c = '%'.toUInt8 → SafeAfterPercent t) ∧ SafeLookAhead t := by
  constructor
  · intro h
    refine ⟨fun hc => h [] t (by rw [hc]; rfl), fun before rest ht => ?_⟩
    exact h (c :: before) rest (by rw [ht]; rfl)
  · rintro ⟨hfirst, hrest⟩ before rest ht
    cases before with
    | nil =>
      obtain ⟨hc, rfl⟩ := List.cons.inj ht
      exact hfirst hc
    | cons b before => exact hrest before rest (List.cons.inj ht).2

/-- The look-ahead of the loop, on `substr(i + 1, 2)`. A byte that is not there reads as NUL. -/
theorem safeAfterPercent_iff (h : t ≠ []) :
    SafeAfterPercent t ↔ Safe (charAt (t.take 2) 0) ∧
      (isXdigit (charAt (t.take 2) 0) = true → Safe (charAt (t.take 2) 1)) := by
  have hnul : Safe 0 := by decide
  match t with
  | [] => exact absurd rfl h
  | [c] => simp [SafeAfterPercent, charAt, hnul]
  | c :: d :: rest => simp [SafeAfterPercent, charAt]

/-- **The calls of the loop are in the domain exactly if what it looks at is safe.** -/
theorem decodeCallsFrom_snd (s : Bytes) (i : Nat) (result : Bytes) (calls : List Int) :
    (∀ arg ∈ (decodeCallsFrom s i result calls).2, InXdigitDomain arg) ↔
      (∀ arg ∈ calls, InXdigitDomain arg) ∧ SafeLookAhead (s.drop i) := by
  fun_induction decodeCallsFrom s i result calls with
  | case1 i result calls hi ch hch hex first second hx hx' ih =>
    -- an escape, whose digits are safe
    obtain ⟨high, low, rest, hr⟩ : ∃ high low rest, s.drop (i + 1) = high :: low :: rest := by
      match hd : s.drop (i + 1) with
      | [] => simp [hex, hd, charAt, not_isXdigit_nul] at hx
      | [_] => simp [hex, hd, charAt, not_isXdigit_nul] at hx'
      | high :: low :: rest => exact ⟨high, low, rest, rfl⟩
    have hhigh : isXdigit high = true := by simpa [hex, hr, charAt] using hx
    have hlow : isXdigit low = true := by simpa [hex, hr, charAt] using hx'
    have hdrop : s.drop (i + 2 + 1) = rest := by
      rw [show i + 2 + 1 = (i + 1) + 2 by omega, ← List.drop_drop, hr]
      rfl
    have hfirst : first = signedChar high := by simp [first, hex, hr, charAt]
    have hsecond : second = signedChar low := by simp [second, hex, hr, charAt]
    rw [ih, hdrop, drop_eq_charAt_cons hi, hr]
    simp [safeLookAhead_cons, SafeAfterPercent, xdigit_safe _ hhigh, xdigit_safe _ hlow, or_imp,
      forall_and, hfirst, hsecond, inXdigitDomain_signedChar]
  | case2 i result calls hi ch hch hex first second hx hx' ih =>
    have hne : s.drop (i + 1) ≠ [] := by
      simpa using show i + 1 < s.length by omega
    have hpercent : charAt s i = '%'.toUInt8 := hch.1
    rw [ih, drop_eq_charAt_cons hi, safeLookAhead_cons, safeAfterPercent_iff hne]
    simp [hpercent, show isXdigit (charAt ((s.drop (i + 1)).take 2) 0) = true from hx, or_imp,
      forall_and, and_assoc, first, second, hex, inXdigitDomain_signedChar]
  | case3 i result calls hi ch hch hex first hx ih =>
    have hne : s.drop (i + 1) ≠ [] := by
      simpa using show i + 1 < s.length by omega
    have hpercent : charAt s i = '%'.toUInt8 := hch.1
    rw [ih, drop_eq_charAt_cons hi, safeLookAhead_cons, safeAfterPercent_iff hne]
    simp [hpercent, show ¬isXdigit (charAt ((s.drop (i + 1)).take 2) 0) = true from hx, or_imp,
      forall_and, and_assoc, first, hex, inXdigitDomain_signedChar]
  | case4 i result calls hi ch hch hplus ih =>
    have hno : charAt s i ≠ '%'.toUInt8 := by
      rw [show charAt s i = '+'.toUInt8 from hplus]
      decide
    rw [ih, drop_eq_charAt_cons hi, safeLookAhead_cons]
    simp [hno]
  | case5 i result calls hi ch hch hplus ih =>
    have hsafe : charAt s i = '%'.toUInt8 → SafeAfterPercent (s.drop (i + 1)) := by
      intro hpercent
      -- a `%` that is last
      have hlen := not_and.mp hch hpercent
      rw [List.drop_eq_nil_of_le (by omega)]
      trivial
    rw [ih, drop_eq_charAt_cons hi, safeLookAhead_cons]
    exact and_congr_right fun _ => (and_iff_right hsafe).symm
  | case6 i result calls hi =>
    rw [List.drop_eq_nil_of_le (by omega)]
    simp [safeLookAhead_nil]

end calls

/-- **`decode` keeps to the domain of `isxdigit` exactly if every look-ahead is safe.** -/
theorem isxdigit_defined_iff (t : Bytes) :
    (∀ arg ∈ isxdigitArguments t, InXdigitDomain arg) ↔ SafeLookAhead t := by
  rw [isxdigitArguments, decodeCallsFrom_snd]
  simp

/-- **`decode` leaves the domain** at a `%` before a byte that is not ASCII. -/
theorem percent_before_0x80 :
    ¬∀ t : Bytes, ∀ arg ∈ isxdigitArguments t, InXdigitDomain arg := by
  intro h
  have hargs : isxdigitArguments ['%'.toUInt8, 0x80] = [-128] := by decide +kernel
  exact absurd (h ['%'.toUInt8, 0x80] (-128) (by simp [hargs])) (by decide)

end Http2Comm.URLFunctions
