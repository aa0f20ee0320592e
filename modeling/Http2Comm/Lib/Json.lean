import Http2Comm.Lib.Bytes

/-!
# RFC 8259 at byte level

The JSON grammar as relations between a text, what it denotes, and **the rest of the text**:
`Derives t v r` says that a prefix of `t` is a value `v` and `r` is what follows it. Bytes of
`0x80` and above are allowed as string content, so the grammar reads UTF-8 text without decoding
it. Nothing in this file names a program.

A string is kept as the list of its characters *as written* (`Chr`), so that an object's member
list records exactly what was parsed; `unescape` gives the bytes such a list stands for.

What the rest of the development uses is the last section. `Str.unique` says that a string
literal can be read in one way only, and `text_object_iff` lifts that to a whole text: an object
of one string member, written without whitespace, derives that object **and nothing else**. The
"nothing else" is the half that matters where a text is built by concatenation.
-/

set_option autoImplicit false

namespace Http2Comm.Lib.Json

/-! ## Strings -/

/-- A character of a string literal, as written. -/
inductive Chr where
  | unescaped (c : UInt8)
  | escape (c : UInt8)
  | unicode (unit : Nat)
  deriving DecidableEq, Repr

/-- One character of a string literal at the front of a text. -/
inductive StrChar : Bytes → Chr → Bytes → Prop
  | unescaped {c : UInt8} {t : Bytes} :
      0x20 ≤ c → c ≠ '"'.toUInt8 → c ≠ '\\'.toUInt8 → StrChar (c :: t) (.unescaped c) t
  | escape {c : UInt8} {t : Bytes} :
      c ∈ ascii "\"\\/bfnrt" → StrChar ('\\'.toUInt8 :: c :: t) (.escape c) t
  | unicode {a b c d : UInt8} {t : Bytes} :
      isXdigit a = true → isXdigit b = true → isXdigit c = true → isXdigit d = true →
      StrChar ('\\'.toUInt8 :: 'u'.toUInt8 :: a :: b :: c :: d :: t)
        (.unicode (strtol16 [a, b, c, d])) t

/-- Any number of characters of a string literal at the front of a text. -/
inductive Chars : Bytes → List Chr → Bytes → Prop
  | nil {t : Bytes} : Chars t [] t
  | cons {t u r : Bytes} {c : Chr} {cs : List Chr} :
      StrChar t c u → Chars u cs r → Chars t (c :: cs) r

/-- A string literal at the front of a text, quotes included. -/
inductive Str : Bytes → List Chr → Bytes → Prop
  | mk {t r : Bytes} {cs : List Chr} :
      Chars t cs ('"'.toUInt8 :: r) → Str ('"'.toUInt8 :: t) cs r

/-- The byte a two-character escape stands for. -/
def escapeValue (c : UInt8) : UInt8 :=
  if c = 'b'.toUInt8 then 0x08
  else if c = 'f'.toUInt8 then 0x0C
  else if c = 'n'.toUInt8 then 0x0A
  else if c = 'r'.toUInt8 then 0x0D
  else if c = 't'.toUInt8 then 0x09
  else c

def isHighSurrogate (unit : Nat) : Bool := 0xD800 ≤ unit && unit < 0xDC00

def isLowSurrogate (unit : Nat) : Bool := 0xDC00 ≤ unit && unit < 0xE000

/-- The bytes the characters of a literal stand for: a `\u` escape is the UTF-8 encoding of its
code point, two of them when they are a surrogate pair. An unpaired surrogate has no value. -/
def unescape : List Chr → Option Bytes
  | [] => some []
  | .unescaped c :: cs => (unescape cs).map (c :: ·)
  | .escape c :: cs => (unescape cs).map (escapeValue c :: ·)
  | .unicode high :: .unicode low :: cs =>
    if isHighSurrogate high && isLowSurrogate low then
      let point := 0x10000 + (high - 0xD800) * 0x400 + (low - 0xDC00)
      (unescape cs).map (String.utf8EncodeChar (Char.ofNat point) ++ ·)
    else if isHighSurrogate high || isLowSurrogate high then none
    else (unescape (.unicode low :: cs)).map (String.utf8EncodeChar (Char.ofNat high) ++ ·)
  | .unicode unit :: cs =>
    if isHighSurrogate unit || isLowSurrogate unit then none
    else (unescape cs).map (String.utf8EncodeChar (Char.ofNat unit) ++ ·)

/-- A code unit outside the surrogates stands for itself, whatever follows it. -/
theorem unescape_unicode {unit : Nat} (hhigh : isHighSurrogate unit = false)
    (hlow : isLowSurrogate unit = false) (cs : List Chr) :
    unescape (.unicode unit :: cs)
      = (unescape cs).map (String.utf8EncodeChar (Char.ofNat unit) ++ ·) := by
  cases cs with
  | nil => simp [unescape, hhigh, hlow]
  | cons c cs => cases c <;> simp [unescape, hhigh, hlow]

/-! ## Numbers and whitespace -/

def Digits (ds : Bytes) : Prop := ds ≠ [] ∧ ∀ d ∈ ds, isDigit d = true

/-- `int`: zero, or digits that do not start with zero. -/
def IsInt (ds : Bytes) : Prop :=
  ds = ['0'.toUInt8] ∨ (Digits ds ∧ ds.head? ≠ some '0'.toUInt8)

def IsFrac (ds : Bytes) : Prop := ds = [] ∨ ∃ fs, Digits fs ∧ ds = '.'.toUInt8 :: fs

def IsExp (ds : Bytes) : Prop :=
  ds = [] ∨ ∃ e sign es, e ∈ ascii "eE" ∧ (sign = [] ∨ sign = ascii "+" ∨ sign = ascii "-") ∧
    Digits es ∧ ds = e :: sign ++ es

/-- A number at the front of a text. -/
inductive Number : Bytes → Bytes → Bytes → Prop
  | mk {int frac exp r : Bytes} : IsInt int → IsFrac frac → IsExp exp →
      Number (int ++ frac ++ exp ++ r) (int ++ frac ++ exp) r
  | minus {int frac exp r : Bytes} : IsInt int → IsFrac frac → IsExp exp →
      Number ('-'.toUInt8 :: (int ++ frac ++ exp) ++ r) ('-'.toUInt8 :: (int ++ frac ++ exp)) r

def isWs (c : UInt8) : Bool := c ∈ ascii " \t\n\r"

/-- Whitespace at the front of a text. -/
inductive Ws : Bytes → Bytes → Prop
  | nil {t : Bytes} : Ws t t
  | cons {c : UInt8} {t r : Bytes} : isWs c = true → Ws t r → Ws (c :: t) r

/-! ## Values -/

inductive Value where
  | null
  | bool (b : Bool)
  | number (text : Bytes)
  | string (cs : List Chr)
  | array (vs : List Value)
  | object (members : List (List Chr × Value))

mutual

/-- A value at the front of a text. -/
inductive Derives : Bytes → Value → Bytes → Prop
  | null {r : Bytes} : Derives (ascii "null" ++ r) .null r
  | true {r : Bytes} : Derives (ascii "true" ++ r) (.bool true) r
  | false {r : Bytes} : Derives (ascii "false" ++ r) (.bool false) r
  | number {t n r : Bytes} : Number t n r → Derives t (.number n) r
  | string {t r : Bytes} {cs : List Chr} : Str t cs r → Derives t (.string cs) r
  | emptyArray {t r : Bytes} : Ws t (']'.toUInt8 :: r) → Derives ('['.toUInt8 :: t) (.array []) r
  | array {t r : Bytes} {vs : List Value} :
      Elements t vs r → Derives ('['.toUInt8 :: t) (.array vs) r
  | emptyObject {t r : Bytes} :
      Ws t ('}'.toUInt8 :: r) → Derives ('{'.toUInt8 :: t) (.object []) r
  | object {t r : Bytes} {ms : List (List Chr × Value)} :
      Members t ms r → Derives ('{'.toUInt8 :: t) (.object ms) r

/-- The elements of an array, up to and including the closing bracket. -/
inductive Elements : Bytes → List Value → Bytes → Prop
  | last {t t₁ t₂ r : Bytes} {v : Value} :
      Ws t t₁ → Derives t₁ v t₂ → Ws t₂ (']'.toUInt8 :: r) → Elements t [v] r
  | cons {t t₁ t₂ t₃ r : Bytes} {v : Value} {vs : List Value} :
      Ws t t₁ → Derives t₁ v t₂ → Ws t₂ (','.toUInt8 :: t₃) → Elements t₃ vs r →
      Elements t (v :: vs) r

/-- The members of an object, up to and including the closing brace. -/
inductive Members : Bytes → List (List Chr × Value) → Bytes → Prop
  | last {t t₁ t₂ t₃ t₄ t₅ r : Bytes} {k : List Chr} {v : Value} :
      Ws t t₁ → Str t₁ k t₂ → Ws t₂ (':'.toUInt8 :: t₃) → Ws t₃ t₄ → Derives t₄ v t₅ →
      Ws t₅ ('}'.toUInt8 :: r) → Members t [(k, v)] r
  | cons {t t₁ t₂ t₃ t₄ t₅ t₆ r : Bytes} {k : List Chr} {v : Value}
      {ms : List (List Chr × Value)} :
      Ws t t₁ → Str t₁ k t₂ → Ws t₂ (':'.toUInt8 :: t₃) → Ws t₃ t₄ → Derives t₄ v t₅ →
      Ws t₅ (','.toUInt8 :: t₆) → Members t₆ ms r → Members t ((k, v) :: ms) r

end

/-- A JSON text: a value with whitespace around it, and nothing more. -/
def Text (t : Bytes) (v : Value) : Prop := ∃ t₁ t₂, Ws t t₁ ∧ Derives t₁ v t₂ ∧ Ws t₂ []

/-! ## A string literal is read in one way -/

/-- The quote starts no character of a string. -/
theorem not_strChar_quote {t r : Bytes} {c : Chr} (h : StrChar ('"'.toUInt8 :: t) c r) :
    False := by
  cases h
  contradiction

theorem StrChar.unique {t r r' : Bytes} {c c' : Chr} (h : StrChar t c r)
    (h' : StrChar t c' r') : c = c' ∧ r = r' := by
  cases h with
  | unescaped hlo hquote hback =>
    cases h' with
    | unescaped => exact ⟨rfl, rfl⟩
    | escape => contradiction
    | unicode => contradiction
  | escape hc =>
    cases h' with
    | unescaped => contradiction
    | escape => exact ⟨rfl, rfl⟩
    | unicode => exact absurd hc (by decide)
  | unicode ha hb hc hd =>
    cases h' with
    | unescaped => contradiction
    | escape hc' => exact absurd hc' (by decide)
    | unicode => exact ⟨rfl, rfl⟩

/-- The characters up to a quote are determined, and so is where that quote stands. -/
theorem Chars.unique {t r u : Bytes} {cs : List Chr} (h : Chars t cs u)
    (hu : u = '"'.toUInt8 :: r) :
    ∀ {cs' : List Chr} {r' : Bytes}, Chars t cs' ('"'.toUInt8 :: r') → cs = cs' ∧ r = r' := by
  induction h with
  | nil =>
    subst hu
    intro cs' r' h'
    cases h' with
    | nil => exact ⟨rfl, rfl⟩
    | cons hc _ => exact (not_strChar_quote hc).elim
  | cons hc _ ih =>
    intro cs' r' h'
    cases h' with
    | nil => exact (not_strChar_quote hc).elim
    | cons hc' hcs' =>
      obtain ⟨rfl, rfl⟩ := hc.unique hc'
      obtain ⟨rfl, rfl⟩ := ih hu hcs'
      exact ⟨rfl, rfl⟩

theorem Str.unique {t r r' : Bytes} {cs cs' : List Chr} (h : Str t cs r) (h' : Str t cs' r') :
    cs = cs' ∧ r = r' := by
  cases h with
  | mk hcs =>
    cases h' with
    | mk hcs' => exact hcs.unique rfl hcs'

/-! ## Reading a value off its first byte -/

/-- Whitespace stops at the first byte that is none. -/
theorem Ws.eq_of_head {c : UInt8} {t r : Bytes} (h : Ws (c :: t) r) (hc : isWs c = false) :
    r = c :: t := by
  cases h with
  | nil => rfl
  | cons hws _ => rw [hc] at hws; contradiction

theorem IsInt.head {ds r : Bytes} (h : IsInt ds) :
    ∃ d t, ds ++ r = d :: t ∧ isDigit d = true := by
  rcases h with rfl | ⟨⟨hne, hall⟩, _⟩
  · exact ⟨_, _, rfl, by decide⟩
  · obtain ⟨d, t, rfl⟩ := List.exists_cons_of_ne_nil hne
    exact ⟨d, t ++ r, rfl, hall d (by simp)⟩

/-- A number starts with a digit or a minus sign. -/
theorem Number.head {t n r : Bytes} (h : Number t n r) :
    ∃ d u, t = d :: u ∧ (isDigit d = true ∨ d = '-'.toUInt8) := by
  cases h with
  | @mk int frac exp r hint _ _ =>
    obtain ⟨d, u, heq, hd⟩ := hint.head (r := frac ++ exp ++ r)
    exact ⟨d, u, by simpa using heq, Or.inl hd⟩
  | minus => exact ⟨_, _, rfl, Or.inr rfl⟩

/-- A value that starts with a quote is a string. -/
theorem Derives.of_quote {t r : Bytes} {v : Value} (h : Derives ('"'.toUInt8 :: t) v r) :
    ∃ cs, v = .string cs ∧ Str ('"'.toUInt8 :: t) cs r := by
  generalize hu : '"'.toUInt8 :: t = u at h
  cases h with
  | string hs => exact ⟨_, rfl, hs⟩
  | number hn =>
    obtain ⟨d, u', rfl, hd⟩ := hn.head
    obtain ⟨rfl, -⟩ := List.cons.inj hu
    exact absurd hd (by decide)
  | null => exact absurd (List.cons.inj hu).1 (by decide)
  | true => exact absurd (List.cons.inj hu).1 (by decide)
  | false => exact absurd (List.cons.inj hu).1 (by decide)
  | emptyArray => exact absurd (List.cons.inj hu).1 (by decide)
  | array => exact absurd (List.cons.inj hu).1 (by decide)
  | emptyObject => exact absurd (List.cons.inj hu).1 (by decide)
  | object => exact absurd (List.cons.inj hu).1 (by decide)

/-- A value that starts with an opening brace is an object. -/
theorem Derives.of_brace {t r : Bytes} {v : Value} (h : Derives ('{'.toUInt8 :: t) v r) :
    (v = .object [] ∧ Ws t ('}'.toUInt8 :: r)) ∨ ∃ ms, v = .object ms ∧ Members t ms r := by
  generalize hu : '{'.toUInt8 :: t = u at h
  cases h with
  | emptyObject hws =>
    obtain ⟨-, rfl⟩ := List.cons.inj hu
    exact Or.inl ⟨rfl, hws⟩
  | object hms =>
    obtain ⟨-, rfl⟩ := List.cons.inj hu
    exact Or.inr ⟨_, rfl, hms⟩
  | number hn =>
    obtain ⟨d, u', rfl, hd⟩ := hn.head
    obtain ⟨rfl, -⟩ := List.cons.inj hu
    exact absurd hd (by decide)
  | string hs => cases hs; exact absurd (List.cons.inj hu).1 (by decide)
  | null => exact absurd (List.cons.inj hu).1 (by decide)
  | true => exact absurd (List.cons.inj hu).1 (by decide)
  | false => exact absurd (List.cons.inj hu).1 (by decide)
  | emptyArray => exact absurd (List.cons.inj hu).1 (by decide)
  | array => exact absurd (List.cons.inj hu).1 (by decide)

/-! ## An object of one string member -/

/-- The front of a member, up to its value, when key and value are strings written without
whitespace around them. -/
theorem member_front {t u r t₁ t₂ t₃ t₄ t₅ : Bytes} {k cs k' : List Chr} {v : Value}
    (hk : Str t k (':'.toUInt8 :: u)) (hv : Str u cs r) (h₁ : Ws t t₁) (h₂ : Str t₁ k' t₂)
    (h₃ : Ws t₂ (':'.toUInt8 :: t₃)) (h₄ : Ws t₃ t₄) (h₅ : Derives t₄ v t₅) :
    k' = k ∧ v = .string cs ∧ t₅ = r := by
  have ht : t₁ = t := by
    cases hk
    exact h₁.eq_of_head (by decide)
  rw [ht] at h₂
  obtain ⟨hkk, htu⟩ := h₂.unique hk
  rw [htu] at h₃
  have hu : t₃ = u := (List.cons.inj (h₃.eq_of_head (by decide))).2
  rw [hu] at h₄
  have hu' : t₄ = u := by
    cases hv
    exact h₄.eq_of_head (by decide)
  rw [hu'] at h₅
  have hstr : ∃ cs', v = .string cs' ∧ Str u cs' t₅ := by
    cases hv
    exact h₅.of_quote
  obtain ⟨cs', rfl, hs⟩ := hstr
  obtain ⟨rfl, rfl⟩ := hs.unique hv
  exact ⟨hkk, rfl, rfl⟩

/-- **A text that is an object of one string member denotes that object and nothing else.** -/
theorem text_object_iff {t u : Bytes} {k cs : List Chr} (hk : Str t k (':'.toUInt8 :: u))
    (hv : Str u cs ['}'.toUInt8]) (v : Value) :
    Text ('{'.toUInt8 :: t) v ↔ v = .object [(k, .string cs)] := by
  constructor
  · rintro ⟨t₁, t₂, hws, hval, -⟩
    rw [hws.eq_of_head (by decide)] at hval
    rcases hval.of_brace with ⟨-, hws⟩ | ⟨ms, rfl, hms⟩
    · cases hk
      exact absurd (List.cons.inj (hws.eq_of_head (by decide))).1 (by decide)
    · cases hms with
      | last h₁ h₂ h₃ h₄ h₅ _ =>
        obtain ⟨rfl, rfl, -⟩ := member_front hk hv h₁ h₂ h₃ h₄ h₅
        rfl
      | cons h₁ h₂ h₃ h₄ h₅ h₆ _ =>
        obtain ⟨-, -, rfl⟩ := member_front hk hv h₁ h₂ h₃ h₄ h₅
        exact absurd (List.cons.inj (h₆.eq_of_head (by decide))).1 (by decide)
  · rintro rfl
    exact ⟨_, _, .nil, .object (.last .nil hk .nil .nil (.string hv) .nil), .nil⟩

end Http2Comm.Lib.Json
