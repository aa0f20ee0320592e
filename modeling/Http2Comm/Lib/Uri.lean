import Http2Comm.Lib.Bytes

/-!
# RFC 3986 at byte level

The generic syntax of a URI: the components, what each may be made of, and the text they make.
The grammar is read as a predicate on the components (`Valid`) and a function that writes them
(`text`), so that splitting a text is finding valid components that write it
(`Splits`). Nothing in this file names a program.

A delimiter is a byte that the component before it cannot contain, and that is the whole of the
syntax: `front_unique` cuts a text at the first byte outside a class, and `Splits.unique` applies
it component by component. So a text splits in at most one way, and whoever writes a text of
valid components knows what every parser reads.

The `IPv4address` of the RFC is left out of `IsHost`, since it is a `reg-name` as text
(`IsIpv4Address.isRegName`).
-/

set_option autoImplicit false

namespace Http2Comm.Lib.Uri

/-! ## Characters -/

def isAlpha (c : UInt8) : Bool := isAlnum c && !isDigit c

def isUnreserved (c : UInt8) : Bool := isAlnum c || c ∈ ascii "-._~"

def isSubDelim (c : UInt8) : Bool := c ∈ ascii "!$&'()*+,;="

def isSchemeChar (c : UInt8) : Bool := isAlnum c || c ∈ ascii "+-."

def isRegNameChar (c : UInt8) : Bool := isUnreserved c || isSubDelim c

def isUserinfoChar (c : UInt8) : Bool := isRegNameChar c || c == ':'.toUInt8

def isPchar (c : UInt8) : Bool := isUserinfoChar c || c == '@'.toUInt8

def isPathChar (c : UInt8) : Bool := isPchar c || c == '/'.toUInt8

def isQueryChar (c : UInt8) : Bool := isPathChar c || c == '?'.toUInt8

/-- Any number of characters, percent-encoded octets among them. -/
inductive Encoded (p : UInt8 → Bool) : Bytes → Prop
  | nil : Encoded p []
  | plain {c : UInt8} {cs : Bytes} : p c = true → Encoded p cs → Encoded p (c :: cs)
  | escape {h l : UInt8} {cs : Bytes} :
      isXdigit h = true → isXdigit l = true → Encoded p cs → Encoded p ('%'.toUInt8 :: h :: l :: cs)

/-! ## Addresses -/

def IsDecOctet : Bytes → Prop
  | [a] => isDigit a = true
  | [a, b] => isDigit a = true ∧ a ≠ '0'.toUInt8 ∧ isDigit b = true
  | [a, b, c] =>
    (a = '1'.toUInt8 ∧ isDigit b = true ∧ isDigit c = true) ∨
      (a = '2'.toUInt8 ∧ b ∈ ascii "01234" ∧ isDigit c = true) ∨
      (a = '2'.toUInt8 ∧ b = '5'.toUInt8 ∧ c ∈ ascii "012345")
  | _ => False

def IsIpv4Address (t : Bytes) : Prop :=
  ∃ a b c d, IsDecOctet a ∧ IsDecOctet b ∧ IsDecOctet c ∧ IsDecOctet d ∧
    t = a ++ '.'.toUInt8 :: b ++ '.'.toUInt8 :: c ++ '.'.toUInt8 :: d

/-- `h16`: one to four hexadecimal digits. -/
def IsH16 (t : Bytes) : Prop := t ≠ [] ∧ t.length ≤ 4 ∧ ∀ c ∈ t, isXdigit c = true

/-- `ls32`: the last 32 bits of an address. -/
def IsLs32 (t : Bytes) : Prop :=
  IsIpv4Address t ∨ ∃ g h, IsH16 g ∧ IsH16 h ∧ t = g ++ ':'.toUInt8 :: h

/-- Groups, each with the colon that follows it. -/
def colons (groups : List Bytes) : Bytes := (groups.map (· ++ [':'.toUInt8])).flatten

/-- An address is eight groups, the last two of which may be written as an IPv4 address, or it is
abbreviated by `::` to at most seven groups. -/
def IsIpv6Address (t : Bytes) : Prop :=
  (∃ groups last, groups.length = 6 ∧ (∀ g ∈ groups, IsH16 g) ∧ IsLs32 last ∧
    t = colons groups ++ last) ∨
  ∃ left right, (∀ g ∈ left, IsH16 g) ∧
    t = [':'.toUInt8].intercalate left ++ ':'.toUInt8 :: ':'.toUInt8 :: right ∧
    ((∃ groups last, (∀ g ∈ groups, IsH16 g) ∧ IsLs32 last ∧
        left.length + groups.length ≤ 5 ∧ right = colons groups ++ last) ∨
      (IsH16 right ∧ left.length ≤ 6) ∨ (right = [] ∧ left.length ≤ 7))

def IsIpvFuture (t : Bytes) : Prop :=
  ∃ v version rest, v ∈ ascii "vV" ∧ version ≠ [] ∧ (∀ c ∈ version, isXdigit c = true) ∧
    rest ≠ [] ∧ (∀ c ∈ rest, isUserinfoChar c = true) ∧ t = v :: version ++ '.'.toUInt8 :: rest

def IsIpLiteral (t : Bytes) : Prop :=
  ∃ address, (IsIpv6Address address ∨ IsIpvFuture address) ∧
    t = '['.toUInt8 :: address ++ [']'.toUInt8]

/-! ## Components -/

def IsScheme : Bytes → Prop
  | [] => False
  | c :: cs => isAlpha c = true ∧ ∀ b ∈ cs, isSchemeChar b = true

def IsRegName (t : Bytes) : Prop := Encoded isRegNameChar t

def IsHost (t : Bytes) : Prop := IsIpLiteral t ∨ IsRegName t

def IsPort (t : Bytes) : Prop := ∀ c ∈ t, isDigit c = true

structure Authority where
  userinfo : Option Bytes := none
  host : Bytes
  port : Option Bytes := none
  deriving DecidableEq, Repr

structure Components where
  scheme : Bytes
  authority : Option Authority := none
  path : Bytes := []
  query : Option Bytes := none
  fragment : Option Bytes := none
  deriving DecidableEq, Repr

/-- A component that may be missing, with the delimiter before it. -/
def after (delimiter : UInt8) : Option Bytes → Bytes
  | none => []
  | some t => delimiter :: t

/-- A component that may be missing, with the delimiter behind it. -/
def upTo (delimiter : UInt8) : Option Bytes → Bytes
  | none => []
  | some t => t ++ [delimiter]

def Authority.text (a : Authority) : Bytes :=
  upTo '@'.toUInt8 a.userinfo ++ (a.host ++ after ':'.toUInt8 a.port)

structure Authority.Valid (a : Authority) : Prop where
  userinfo : ∀ t ∈ a.userinfo, Encoded isUserinfoChar t
  host : IsHost a.host
  port : ∀ t ∈ a.port, IsPort t

/-- The path with the query. -/
def Components.pathQuery (u : Components) : Bytes := u.path ++ after '?'.toUInt8 u.query

/-- What follows the colon of the scheme. -/
def Components.hierText (u : Components) : Bytes :=
  (match u.authority with
    | none => []
    | some a => '/'.toUInt8 :: '/'.toUInt8 :: a.text) ++
    (u.pathQuery ++ after '#'.toUInt8 u.fragment)

def Components.text (u : Components) : Bytes := u.scheme ++ ':'.toUInt8 :: u.hierText

/-- The components are what the grammar says: a path after an authority is `path-abempty`, any
other is `path-absolute`, `path-rootless` or `path-empty`. -/
structure Components.Valid (u : Components) : Prop where
  scheme : IsScheme u.scheme
  authority : ∀ a ∈ u.authority, a.Valid
  path : Encoded isPathChar u.path
  abempty : u.authority.isSome → u.path = [] ∨ u.path.head? = some '/'.toUInt8
  noAuthority : u.authority = none → ¬['/'.toUInt8, '/'.toUInt8] <+: u.path
  query : ∀ t ∈ u.query, Encoded isQueryChar t
  fragment : ∀ t ∈ u.fragment, Encoded isQueryChar t

/-- The text splits into these components. -/
def Splits (t : Bytes) (u : Components) : Prop := u.Valid ∧ u.text = t

/-! ## What a component cannot contain -/

/-- A text is cut at the first byte outside a class in one way. -/
theorem front_unique {α : Type*} {p : α → Bool} {xs ys xs' ys' : List α}
    (hxs : ∀ a ∈ xs, p a = true) (hxs' : ∀ a ∈ xs', p a = true)
    (hys : ∀ a ∈ ys.head?, p a = false) (hys' : ∀ a ∈ ys'.head?, p a = false)
    (h : xs ++ ys = xs' ++ ys') : xs = xs' ∧ ys = ys' := by
  induction xs generalizing xs' with
  | nil =>
    cases xs' with
    | nil => exact ⟨rfl, h⟩
    | cons a xs' =>
      have hin := hxs' a (List.mem_cons_self ..)
      rw [hys a (by rw [show ys = a :: (xs' ++ ys') from h]; rfl)] at hin
      cases hin
  | cons a xs ih =>
    have hin := hxs a (List.mem_cons_self ..)
    cases xs' with
    | nil =>
      rw [hys' a (by rw [show ys' = a :: (xs ++ ys) from h.symm]; rfl)] at hin
      cases hin
    | cons b xs' =>
      obtain ⟨rfl, htail⟩ := List.cons.inj h
      obtain ⟨rfl, hrest⟩ := ih (fun c hc => hxs c (List.mem_cons_of_mem _ hc))
        (fun c hc => hxs' c (List.mem_cons_of_mem _ hc)) htail
      exact ⟨rfl, hrest⟩

/-- The same for a delimiter that neither front contains. -/
theorem cut_unique {d : UInt8} {xs ys xs' ys' : Bytes} (hxs : d ∉ xs) (hxs' : d ∉ xs')
    (hys : ∀ a ∈ ys.head?, a = d) (hys' : ∀ a ∈ ys'.head?, a = d)
    (h : xs ++ ys = xs' ++ ys') : xs = xs' ∧ ys = ys' := by
  refine front_unique (p := (· != d)) ?_ ?_ ?_ ?_ h
  · intro a ha
    exact bne_iff_ne.mpr fun heq => hxs (heq ▸ ha)
  · intro a ha
    exact bne_iff_ne.mpr fun heq => hxs' (heq ▸ ha)
  · intro a ha
    simp [hys a ha]
  · intro a ha
    simp [hys' a ha]

theorem head_after {d a : UInt8} {o : Option Bytes} (h : a ∈ (after d o).head?) : a = d := by
  cases o with
  | none => cases h
  | some t => exact (Option.some.inj h).symm

theorem after_injective {d : UInt8} {o o' : Option Bytes} (h : after d o = after d o') :
    o = o' := by
  cases o <;> cases o' <;> simp_all [after]

/-- The bytes of a component: its characters, and those of percent-encoded octets. -/
def occurs (p : UInt8 → Bool) (c : UInt8) : Bool := p c || c == '%'.toUInt8 || isXdigit c

theorem Encoded.occurs {p : UInt8 → Bool} {t : Bytes} (h : Encoded p t) {c : UInt8} (hc : c ∈ t) :
    Uri.occurs p c = true := by
  induction h with
  | nil => cases hc
  | plain hp _ ih =>
    rcases List.mem_cons.mp hc with rfl | hc
    · simp [Uri.occurs, hp]
    · exact ih hc
  | escape hh hl _ ih =>
    rcases List.mem_cons.mp hc with rfl | hc
    · simp [Uri.occurs]
    · rcases List.mem_cons.mp hc with rfl | hc
      · simp [Uri.occurs, hh]
      · rcases List.mem_cons.mp hc with rfl | hc
        · simp [Uri.occurs, hl]
        · exact ih hc

theorem Encoded.not_mem {p : UInt8 → Bool} {t : Bytes} (h : Encoded p t) {d : UInt8}
    (hd : Uri.occurs p d = false) : d ∉ t := by
  intro hin
  rw [h.occurs hin] at hd
  cases hd

theorem encoded_of_forall {p : UInt8 → Bool} {t : Bytes} (h : ∀ c ∈ t, p c = true) :
    Encoded p t := by
  induction t with
  | nil => exact .nil
  | cons c t ih =>
    exact .plain (h c (List.mem_cons_self ..)) (ih fun b hb => h b (List.mem_cons_of_mem _ hb))

theorem isUserinfoChar_of_isXdigit {c : UInt8} (h : isXdigit c = true) :
    isUserinfoChar c = true := by
  have hc : isAlnum c = true := by
    simp only [isXdigit, isAlnum, Bool.or_eq_true, Bool.and_eq_true, decide_eq_true_eq] at h ⊢
    rcases h with (hdigit | ⟨hlow, hhigh⟩) | ⟨hlow, hhigh⟩
    · exact Or.inl (Or.inl hdigit)
    · exact Or.inl (Or.inr ⟨hlow, UInt8.le_trans hhigh (by decide)⟩)
    · exact Or.inr ⟨hlow, UInt8.le_trans hhigh (by decide)⟩
  simp [isUserinfoChar, isRegNameChar, isUnreserved, hc]

theorem isRegNameChar_of_isDigit {c : UInt8} (h : isDigit c = true) : isRegNameChar c = true := by
  simp [isRegNameChar, isUnreserved, isAlnum, h]

theorem isUserinfoChar_of_isRegNameChar {c : UInt8} (h : isRegNameChar c = true) :
    isUserinfoChar c = true := by
  simp [isUserinfoChar, h]

/-! ## Hosts -/

theorem IsDecOctet.isDigit {t : Bytes} (h : IsDecOctet t) : ∀ c ∈ t, Lib.isDigit c = true := by
  have hone : Lib.isDigit '1'.toUInt8 = true := by decide
  have htwo : Lib.isDigit '2'.toUInt8 = true := by decide
  have hfive : Lib.isDigit '5'.toUInt8 = true := by decide
  have hsmall : ∀ b ∈ ascii "012345", Lib.isDigit b = true := List.all_eq_true.mp (by decide)
  have hsmaller : ∀ b ∈ ascii "01234", Lib.isDigit b = true := List.all_eq_true.mp (by decide)
  match t, h with
  | [a], h => simpa [IsDecOctet] using h
  | [a, b], ⟨ha, _, hb⟩ => simp [ha, hb]
  | [a, b, c], h =>
    rcases h with ⟨rfl, hb, hc⟩ | ⟨rfl, hb, hc⟩ | ⟨rfl, rfl, hc⟩
    · simp [hone, hb, hc]
    · simp [htwo, hsmaller b hb, hc]
    · simp [htwo, hfive, hsmall c hc]

theorem IsIpv4Address.isRegNameChar {t : Bytes} (h : IsIpv4Address t) :
    ∀ c ∈ t, isRegNameChar c = true := by
  obtain ⟨a, b, c, d, ha, hb, hc, hd, rfl⟩ := h
  have hdot : Uri.isRegNameChar '.'.toUInt8 = true := by decide
  have hoctet {t : Bytes} (ht : IsDecOctet t) (x : UInt8) (hx : x ∈ t) :
      Uri.isRegNameChar x = true := isRegNameChar_of_isDigit (ht.isDigit x hx)
  intro x hx
  simp only [List.append_assoc, List.cons_append, List.mem_append, List.mem_cons] at hx
  rcases hx with hx | rfl | hx | rfl | hx | rfl | hx
  · exact hoctet ha x hx
  · exact hdot
  · exact hoctet hb x hx
  · exact hdot
  · exact hoctet hc x hx
  · exact hdot
  · exact hoctet hd x hx

/-- A dotted address is a `reg-name` as text. -/
theorem IsIpv4Address.isRegName {t : Bytes} (h : IsIpv4Address t) : IsRegName t :=
  encoded_of_forall h.isRegNameChar

theorem IsH16.isUserinfoChar {t : Bytes} (h : IsH16 t) : ∀ c ∈ t, isUserinfoChar c = true :=
  fun c hc => isUserinfoChar_of_isXdigit (h.2.2 c hc)

theorem isUserinfoChar_colon : isUserinfoChar ':'.toUInt8 = true := by decide

theorem IsLs32.isUserinfoChar {t : Bytes} (h : IsLs32 t) : ∀ c ∈ t, isUserinfoChar c = true := by
  rcases h with hv4 | ⟨g, h, hg, hh, rfl⟩
  · exact fun c hc => isUserinfoChar_of_isRegNameChar (hv4.isRegNameChar c hc)
  · intro c hc
    rcases List.mem_append.mp hc with hc | hc
    · exact hg.isUserinfoChar c hc
    · rcases List.mem_cons.mp hc with rfl | hc
      · exact isUserinfoChar_colon
      · exact hh.isUserinfoChar c hc

theorem colons_isUserinfoChar {groups : List Bytes} (h : ∀ g ∈ groups, IsH16 g) :
    ∀ c ∈ colons groups, isUserinfoChar c = true := by
  intro c hc
  obtain ⟨t, ht, hct⟩ := List.mem_flatten.mp hc
  obtain ⟨g, hg, rfl⟩ := List.mem_map.mp ht
  rcases List.mem_append.mp hct with hc | hc
  · exact (h g hg).isUserinfoChar c hc
  · rw [List.mem_singleton.mp hc]
    exact isUserinfoChar_colon

theorem intercalate_isUserinfoChar {groups : List Bytes} (h : ∀ g ∈ groups, IsH16 g) :
    ∀ c ∈ [':'.toUInt8].intercalate groups, isUserinfoChar c = true := by
  induction groups with
  | nil => simp
  | cons g groups ih =>
    have hg := (h g (List.mem_cons_self ..)).isUserinfoChar
    have hgroups := ih fun g' hg' => h g' (List.mem_cons_of_mem _ hg')
    cases groups with
    | nil => simpa using hg
    | cons g' groups =>
      intro c hc
      rw [List.intercalate_cons_cons] at hc
      rcases List.mem_append.mp hc with hc | hc
      · rcases List.mem_append.mp hc with hc | hc
        · exact hg c hc
        · rw [List.mem_singleton.mp hc]
          exact isUserinfoChar_colon
      · exact hgroups c hc

theorem IsIpv6Address.isUserinfoChar {t : Bytes} (h : IsIpv6Address t) :
    ∀ c ∈ t, isUserinfoChar c = true := by
  have happend {xs ys : Bytes} (hxs : ∀ c ∈ xs, Uri.isUserinfoChar c = true)
      (hys : ∀ c ∈ ys, Uri.isUserinfoChar c = true) :
      ∀ c ∈ xs ++ ys, Uri.isUserinfoChar c = true := by
    intro c hc
    rcases List.mem_append.mp hc with hc | hc
    · exact hxs c hc
    · exact hys c hc
  rcases h with ⟨groups, last, -, hgroups, hlast, rfl⟩ | ⟨left, right, hleft, rfl, hright⟩
  · exact happend (colons_isUserinfoChar hgroups) hlast.isUserinfoChar
  · have hr : ∀ c ∈ right, Uri.isUserinfoChar c = true := by
      rcases hright with ⟨groups, last, hgroups, hlast, -, rfl⟩ | ⟨hgroup, -⟩ | ⟨rfl, -⟩
      · exact happend (colons_isUserinfoChar hgroups) hlast.isUserinfoChar
      · exact hgroup.isUserinfoChar
      · simp
    refine happend (intercalate_isUserinfoChar hleft) ?_
    intro c hc
    rcases List.mem_cons.mp hc with rfl | hc
    · exact isUserinfoChar_colon
    · rcases List.mem_cons.mp hc with rfl | hc
      · exact isUserinfoChar_colon
      · exact hr c hc

/-- Every IPv6 address has a colon. -/
theorem IsIpv6Address.colon_mem {t : Bytes} (h : IsIpv6Address t) : ':'.toUInt8 ∈ t := by
  rcases h with ⟨groups, last, hlength, -, -, rfl⟩ | ⟨left, right, -, rfl, -⟩
  · cases groups with
    | nil => cases hlength
    | cons g groups => simp [colons]
  · simp

theorem IsIpvFuture.isUserinfoChar {t : Bytes} (h : IsIpvFuture t) :
    ∀ c ∈ t, isUserinfoChar c = true := by
  obtain ⟨v, version, rest, hv, -, hversion, -, hrest, rfl⟩ := h
  have hletter : ∀ v ∈ ascii "vV", Uri.isUserinfoChar v = true :=
    List.all_eq_true.mp (by decide)
  intro c hc
  simp only [List.cons_append, List.mem_cons, List.mem_append] at hc
  rcases hc with rfl | hc | rfl | hc
  · exact hletter _ hv
  · exact isUserinfoChar_of_isXdigit (hversion c hc)
  · decide
  · exact hrest c hc

/-- What an `IP-literal` has between its brackets. -/
theorem IsIpLiteral.brackets {t : Bytes} (h : IsIpLiteral t) :
    ∃ address, (∀ c ∈ address, isUserinfoChar c = true) ∧
      t = '['.toUInt8 :: address ++ [']'.toUInt8] := by
  obtain ⟨address, haddress, rfl⟩ := h
  rcases haddress with h6 | hfuture
  · exact ⟨address, h6.isUserinfoChar, rfl⟩
  · exact ⟨address, hfuture.isUserinfoChar, rfl⟩

/-- A bracket starts an `IP-literal` and no `reg-name`. -/
theorem IsRegName.head_ne {t rest : Bytes} (h : IsRegName t) : t ≠ '['.toUInt8 :: rest := by
  rintro rfl
  exact h.not_mem (by decide) (List.mem_cons_self ..)

/-- **A host ends where its port begins.** -/
theorem host_unique {host host' : Bytes} {port port' : Option Bytes} (h : IsHost host)
    (h' : IsHost host')
    (heq : host ++ after ':'.toUInt8 port = host' ++ after ':'.toUInt8 port') :
    host = host' ∧ port = port' := by
  have hbracket : isUserinfoChar ']'.toUInt8 = false := by decide
  -- an `IP-literal` and a `reg-name` begin differently
  have hmixed {host host' : Bytes} {port port' : Option Bytes} (h : IsIpLiteral host)
      (h' : IsRegName host')
      (heq : host ++ after ':'.toUInt8 port = host' ++ after ':'.toUInt8 port') : False := by
    obtain ⟨address, -, rfl⟩ := h.brackets
    cases host' with
    | nil =>
      have hhead := head_after (d := ':'.toUInt8) (o := port') (a := '['.toUInt8)
        (by rw [show after ':'.toUInt8 port' = _ from heq.symm]; rfl)
      exact absurd hhead (by decide)
    | cons c t =>
      obtain ⟨rfl, -⟩ := List.cons.inj heq
      exact h'.head_ne rfl
  rcases h with hlit | hname
  · rcases h' with hlit' | hname'
    · obtain ⟨address, hin, rfl⟩ := hlit.brackets
      obtain ⟨address', hin', rfl⟩ := hlit'.brackets
      have hcut {address : Bytes} (hin : ∀ c ∈ address, isUserinfoChar c = true) :
          ']'.toUInt8 ∉ address := by
        intro hmem
        rw [hin _ hmem] at hbracket
        cases hbracket
      have hinner : address ++ ']'.toUInt8 :: after ':'.toUInt8 port
          = address' ++ ']'.toUInt8 :: after ':'.toUInt8 port' := by simpa using heq
      obtain ⟨rfl, hrest⟩ := cut_unique (hcut hin) (hcut hin') (by simp) (by simp) hinner
      exact ⟨rfl, after_injective (List.cons.inj hrest).2⟩
    · exact (hmixed hlit hname' heq).elim
  · rcases h' with hlit' | hname'
    · exact (hmixed hlit' hname heq.symm).elim
    · obtain ⟨rfl, hport⟩ := cut_unique (hname.not_mem (by decide)) (hname'.not_mem (by decide))
        (fun _ => head_after) (fun _ => head_after) heq
      exact ⟨rfl, after_injective hport⟩

/-! ## Authorities -/

/-- What a host and a port are made of. -/
theorem hostPort_bytes {host : Bytes} {port : Option Bytes} (hhost : IsHost host)
    (hport : ∀ t ∈ port, IsPort t) {d : UInt8} (hd : occurs isUserinfoChar d = false)
    (hleft : d ≠ '['.toUInt8) (hright : d ≠ ']'.toUInt8) :
    d ∉ host ++ after ':'.toUInt8 port := by
  have hchar : isUserinfoChar d = false := by
    simp only [occurs, Bool.or_eq_false_iff] at hd
    exact hd.1.1
  have hcolon : d ≠ ':'.toUInt8 := by
    rintro rfl
    rw [isUserinfoChar_colon] at hchar
    cases hchar
  intro hmem
  rcases List.mem_append.mp hmem with hmem | hmem
  · rcases hhost with hlit | hname
    · obtain ⟨address, hin, rfl⟩ := hlit.brackets
      have hnot : d ∉ address := by
        intro ha
        rw [hin d ha] at hchar
        cases hchar
      simp [hleft, hright, hnot] at hmem
    · refine hname.not_mem ?_ hmem
      simp only [occurs, isUserinfoChar, Bool.or_eq_false_iff] at hd ⊢
      exact ⟨⟨hd.1.1.1, hd.1.2⟩, hd.2⟩
  · cases port with
    | none => cases hmem
    | some t =>
      rcases List.mem_cons.mp hmem with heq | hmem
      · exact hcolon heq
      · have hdigit := isUserinfoChar_of_isRegNameChar
          (isRegNameChar_of_isDigit (hport t rfl d hmem))
        rw [hdigit] at hchar
        cases hchar

/-- **An authority is read in one way**: the user information ends at the only `@`. -/
theorem Authority.text_injective {a a' : Authority} (h : a.Valid) (h' : a'.Valid)
    (heq : a.text = a'.text) : a = a' := by
  obtain ⟨userinfo, host, port⟩ := a
  obtain ⟨userinfo', host', port'⟩ := a'
  have hat {host : Bytes} {port : Option Bytes} (hhost : IsHost host)
      (hport : ∀ t ∈ port, IsPort t) : '@'.toUInt8 ∉ host ++ after ':'.toUInt8 port :=
    hostPort_bytes hhost hport (by decide) (by decide) (by decide)
  have hsame (hrest : host ++ after ':'.toUInt8 port = host' ++ after ':'.toUInt8 port') :
      host = host' ∧ port = port' := host_unique h.host h'.host hrest
  cases userinfo with
  | none =>
    cases userinfo' with
    | none =>
      obtain ⟨rfl, rfl⟩ := hsame heq
      rfl
    | some t' =>
      have hmem : '@'.toUInt8 ∈ host ++ after ':'.toUInt8 port := by
        rw [show host ++ after ':'.toUInt8 port = _ from heq]
        simp [Authority.text, upTo]
      exact absurd hmem (hat h.host h.port)
  | some t =>
    cases userinfo' with
    | none =>
      have hmem : '@'.toUInt8 ∈ host' ++ after ':'.toUInt8 port' := by
        rw [show host' ++ after ':'.toUInt8 port' = _ from heq.symm]
        simp [Authority.text, upTo]
      exact absurd hmem (hat h'.host h'.port)
    | some t' =>
      have hcut : t ++ '@'.toUInt8 :: (host ++ after ':'.toUInt8 port)
          = t' ++ '@'.toUInt8 :: (host' ++ after ':'.toUInt8 port') := by
        simpa [Authority.text, upTo] using heq
      have huser {t : Bytes} (ht : Encoded isUserinfoChar t) : '@'.toUInt8 ∉ t :=
        ht.not_mem (by decide)
      obtain ⟨rfl, hrest⟩ := cut_unique (huser (h.userinfo t rfl)) (huser (h'.userinfo t' rfl))
        (by simp) (by simp) hcut
      obtain ⟨rfl, rfl⟩ := hsame (List.cons.inj hrest).2
      rfl

/-- No byte that may follow an authority is in it. -/
theorem Authority.Valid.not_mem {a : Authority} (h : a.Valid) {d : UInt8}
    (hd : d ∈ ascii "/?#") : d ∉ a.text := by
  have hfacts : occurs isUserinfoChar d = false ∧ d ≠ '['.toUInt8 ∧ d ≠ ']'.toUInt8 ∧
      d ≠ '@'.toUInt8 := by
    have hlist : ascii "/?#" = ['/'.toUInt8, '?'.toUInt8, '#'.toUInt8] := rfl
    rw [hlist, List.mem_cons, List.mem_cons, List.mem_singleton] at hd
    rcases hd with rfl | rfl | rfl
    · decide
    · decide
    · decide
  obtain ⟨hoccurs, hleft, hright, hat⟩ := hfacts
  have hrest := hostPort_bytes h.host h.port hoccurs hleft hright
  intro hmem
  rcases List.mem_append.mp hmem with hmem | hmem
  · cases huser : a.userinfo with
    | none => simp [huser, upTo] at hmem
    | some t =>
      have ht := (h.userinfo t huser).not_mem hoccurs
      simp [huser, upTo, ht, hat] at hmem
  · exact hrest hmem

/-! ## Whole texts -/

theorem IsScheme.colon_not_mem {t : Bytes} (h : IsScheme t) : ':'.toUInt8 ∉ t := by
  cases t with
  | nil => exact h.elim
  | cons c cs =>
    obtain ⟨hc, hcs⟩ := h
    have hfacts : isAlpha ':'.toUInt8 = false ∧ isSchemeChar ':'.toUInt8 = false := by decide
    intro hmem
    rcases List.mem_cons.mp hmem with rfl | hmem
    · rw [hfacts.1] at hc
      cases hc
    · have hin := hcs _ hmem
      rw [hfacts.2] at hin
      cases hin

/-- What begins with two slashes has an authority. -/
theorem Components.Valid.authority_isSome {u : Components} (h : u.Valid)
    (hslashes : ['/'.toUInt8, '/'.toUInt8] <+: u.hierText) : u.authority.isSome := by
  by_contra hnone
  have hauthority : u.authority = none := by simpa using hnone
  have hpath := h.noAuthority hauthority
  obtain ⟨rest, hrest⟩ := hslashes
  simp only [Components.hierText, hauthority, List.nil_append, Components.pathQuery] at hrest
  have hafter {d : UInt8} {o : Option Bytes} {t : Bytes} (hd : d ≠ '/'.toUInt8)
      (heq : '/'.toUInt8 :: t = after d o) : False := by
    refine hd (head_after (d := d) (o := o) ?_).symm
    rw [← heq]
    rfl
  have htail {t : Bytes} (heq : '/'.toUInt8 :: t
      = after '?'.toUInt8 u.query ++ after '#'.toUInt8 u.fragment) : False := by
    cases hq : u.query with
    | none =>
      rw [hq] at heq
      exact hafter (by decide) heq
    | some q =>
      rw [hq] at heq
      exact absurd (List.cons.inj heq).1 (by decide)
  cases hp : u.path with
  | nil =>
    rw [hp] at hrest
    exact htail (by simpa using hrest)
  | cons c path =>
    rw [hp] at hrest
    have hcons : '/'.toUInt8 :: '/'.toUInt8 :: rest
        = c :: (path ++ (after '?'.toUInt8 u.query ++ after '#'.toUInt8 u.fragment)) := by
      simpa using hrest
    obtain ⟨rfl, hsecond⟩ := List.cons.inj hcons
    cases path with
    | nil => exact htail hsecond
    | cons c' path =>
      obtain ⟨rfl, -⟩ := List.cons.inj hsecond
      exact hpath ⟨path, hp.symm⟩

/-- The path begins with a slash, if anything follows an authority. -/
theorem Components.Valid.head_tail {u : Components} (h : u.Valid) (hauthority : u.authority.isSome)
    {c : UInt8} (hc : c ∈ (u.pathQuery ++ after '#'.toUInt8 u.fragment).head?) :
    c ∈ ascii "/?#" := by
  have hfacts : '/'.toUInt8 ∈ ascii "/?#" ∧ '?'.toUInt8 ∈ ascii "/?#" ∧
      '#'.toUInt8 ∈ ascii "/?#" := by decide
  rcases h.abempty hauthority with hempty | hslash
  · cases hq : u.query with
    | none =>
      rw [Components.pathQuery, hempty, hq] at hc
      rw [head_after (d := '#'.toUInt8) hc]
      exact hfacts.2.2
    | some q =>
      rw [Components.pathQuery, hempty, hq] at hc
      rw [← Option.some.inj hc]
      exact hfacts.2.1
  · obtain ⟨path, hpath⟩ : ∃ path, u.path = '/'.toUInt8 :: path := by
      cases hp : u.path with
      | nil => simp [hp] at hslash
      | cons c' path =>
        rw [hp] at hslash
        exact ⟨path, by rw [Option.some.inj hslash]⟩
    rw [Components.pathQuery, hpath] at hc
    rw [← Option.some.inj hc]
    exact hfacts.1

theorem Components.Valid.pathQuery_bytes {u : Components} (h : u.Valid) :
    '#'.toUInt8 ∉ u.pathQuery := by
  have hpath : '#'.toUInt8 ∉ u.path := h.path.not_mem (by decide)
  intro hmem
  rcases List.mem_append.mp hmem with hmem | hmem
  · exact hpath hmem
  · cases hq : u.query with
    | none => simp [hq, after] at hmem
    | some q =>
      have hquery : '#'.toUInt8 ∉ q := (h.query q hq).not_mem (by decide)
      rw [hq] at hmem
      rcases List.mem_cons.mp hmem with heq | hmem
      · exact absurd heq (by decide)
      · exact hquery hmem

/-- **A text splits in at most one way.** -/
theorem Splits.unique {t : Bytes} {u v : Components} (hu : Splits t u) (hv : Splits t v) :
    u = v := by
  obtain ⟨hu, rfl⟩ := hu
  obtain ⟨hv, htext⟩ := hv
  obtain ⟨hscheme, hhier⟩ := cut_unique hv.scheme.colon_not_mem hu.scheme.colon_not_mem
    (by simp) (by simp) htext
  have hhier := (List.cons.inj hhier).2
  -- the authority is there in both, and ends where a delimiter begins
  have hrest : v.authority = u.authority ∧ v.pathQuery ++ after '#'.toUInt8 v.fragment
      = u.pathQuery ++ after '#'.toUInt8 u.fragment := by
    cases hau : u.authority with
    | none =>
      have hav : v.authority = none := by
        by_contra hsome
        obtain ⟨a, ha⟩ := Option.ne_none_iff_exists'.mp hsome
        have hslashes := hu.authority_isSome
          (by rw [← hhier]; simp [Components.hierText, ha])
        simp [hau] at hslashes
      exact ⟨hav, by simpa [Components.hierText, hau, hav] using hhier⟩
    | some a =>
      obtain ⟨a', ha'⟩ := Option.isSome_iff_exists.mp (hv.authority_isSome
        (by rw [hhier]; simp [Components.hierText, hau]))
      have hboth : a'.text ++ (v.pathQuery ++ after '#'.toUInt8 v.fragment)
          = a.text ++ (u.pathQuery ++ after '#'.toUInt8 u.fragment) := by
        simpa [Components.hierText, hau, ha'] using hhier
      have hin {a : Authority} (ha : a.Valid) (c : UInt8) (hc : c ∈ a.text) :
          (!decide (c ∈ ascii "/?#")) = true := by
        simpa using fun hd => ha.not_mem hd hc
      obtain ⟨htexts, htails⟩ := front_unique (p := fun c => !decide (c ∈ ascii "/?#"))
        (hin (hv.authority a' ha')) (hin (hu.authority a hau))
        (fun c hc => by simpa using hv.head_tail (by simp [ha']) hc)
        (fun c hc => by simpa using hu.head_tail (by simp [hau]) hc) hboth
      have hsame := Authority.text_injective (hv.authority a' ha') (hu.authority a hau) htexts
      exact ⟨by rw [ha', hsame], htails⟩
  obtain ⟨hpathQuery, hfragment⟩ := cut_unique hv.pathQuery_bytes hu.pathQuery_bytes
    (fun _ => head_after) (fun _ => head_after) hrest.2
  have hmark {u : Components} (h : u.Valid) : '?'.toUInt8 ∉ u.path := h.path.not_mem (by decide)
  obtain ⟨hpath, hquery⟩ := cut_unique (hmark hv) (hmark hu)
    (fun _ => head_after) (fun _ => head_after) hpathQuery
  obtain ⟨scheme, authority, path, query, fragment⟩ := u
  obtain ⟨scheme', authority', path', query', fragment'⟩ := v
  obtain rfl : scheme' = scheme := hscheme
  obtain rfl : authority' = authority := hrest.1
  obtain rfl : path' = path := hpath
  obtain rfl : query' = query := after_injective hquery
  obtain rfl : fragment' = fragment := after_injective hfragment
  rfl

/-- Path and query characters are a path and perhaps a query. -/
theorem Encoded.pathQuery {t : Bytes} (h : Encoded isQueryChar t) :
    ∃ path query, Encoded isPathChar path ∧ (∀ q ∈ query, Encoded isQueryChar q) ∧
      t = path ++ after '?'.toUInt8 query := by
  induction h with
  | nil => exact ⟨[], none, .nil, by simp, rfl⟩
  | @plain c cs hc hcs ih =>
    obtain ⟨path, query, hpath, hquery, rfl⟩ := ih
    by_cases hmark : c = '?'.toUInt8
    · refine ⟨[], some (path ++ after '?'.toUInt8 query), .nil, ?_, by rw [hmark]; rfl⟩
      intro q hq
      rw [← Option.some.inj hq]
      exact hcs
    · have hc' : isPathChar c = true := by simpa [isQueryChar, hmark] using hc
      exact ⟨c :: path, query, .plain hc' hpath, hquery, rfl⟩
  | @escape h l cs hh hl _ ih =>
    obtain ⟨path, query, hpath, hquery, rfl⟩ := ih
    exact ⟨'%'.toUInt8 :: h :: l :: path, query, .escape hh hl hpath, hquery, rfl⟩

end Http2Comm.Lib.Uri
