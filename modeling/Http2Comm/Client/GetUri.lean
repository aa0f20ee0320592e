import Http2Comm.Client.Request
import Http2Comm.Lib.Uri

/-!
# What `getUri` writes

`getUri` joins a scheme, the host, the port and the path by their delimiters, and nghttp2 splits
the result again. The host is the one the connection resolves, and a resolver takes an IPv6
address as it is, whereas in a URI its colons would end the host, so that it has to stand in
brackets. `getUri` adds none (`ipv6_host_not_split`). Every other host, every port and every path
come back (`uri_parses_back_iff`).
-/

set_option autoImplicit false

namespace Http2Comm.Client

open Lib

/-- The hosts a connection can be given: a registered name, an IPv4 address, or an IPv6 address as
the resolver takes it, without brackets and perhaps with a zone. -/
def IsConnectionHost (host : Bytes) : Prop :=
  Uri.IsRegName host ∨ Uri.IsIpv4Address host ∨
    ∃ address zone, Uri.IsIpv6Address address ∧ (zone = [] ∨ zone.head? = some '%'.toUInt8) ∧
      host = address ++ zone

/-- The path with one slash in front, if there is a path. -/
def slashed (path : Bytes) : Bytes :=
  if path ≠ [] ∧ path.head? ≠ some '/'.toUInt8 then '/'.toUInt8 :: path else path

/-- The scheme for `secure`. -/
def Http2Client.scheme (client : Http2Client) : Bytes :=
  if client.secure then ascii "https" else ascii "http"

/-- The URL for a path splits, and gives back what it was made of. -/
def ParsesBack (client : Http2Client) (path : Bytes) : Prop :=
  (∃ u, Uri.Splits (client.getUri path []) u) ∧
    ∀ u, Uri.Splits (client.getUri path []) u →
      u.scheme = client.scheme ∧
      u.authority = some { host := client.host, port := some client.port } ∧
      u.pathQuery = slashed path ∧ u.fragment = none

section getUri

variable {client : Http2Client} {path : Bytes}

theorem getUri_eq (client : Http2Client) (path : Bytes) :
    client.getUri path [] = client.scheme ++ ':'.toUInt8 :: '/'.toUInt8 :: '/'.toUInt8 ::
      (client.host ++ ':'.toUInt8 :: client.port ++ slashed path) := by
  have hscheme : ascii "http" ++ (if client.secure then ascii "s" else []) = client.scheme := by
    unfold Http2Client.scheme
    split <;> rfl
  have hslashes : ascii "://" = [':'.toUInt8, '/'.toUInt8, '/'.toUInt8] := rfl
  have hslash : ascii "/" = ['/'.toUInt8] := rfl
  have hcolon : ascii ":" = [':'.toUInt8] := rfl
  cases path with
  | nil => simp [Http2Client.getUri, hscheme, hslashes, hcolon, slashed]
  | cons first rest =>
    by_cases hfirst : first = '/'.toUInt8
    · simp [Http2Client.getUri, hscheme, hslashes, hcolon, slashed, hfirst]
    · simp [Http2Client.getUri, hscheme, hslashes, hslash, hcolon, slashed, hfirst]

/-- The slash makes a path that may follow an authority. -/
theorem slashed_pathQuery (hpath : Uri.Encoded Uri.isQueryChar path) :
    ∃ segments query, Uri.Encoded Uri.isPathChar segments ∧
      (∀ q ∈ query, Uri.Encoded Uri.isQueryChar q) ∧
      (segments = [] ∨ segments.head? = some '/'.toUInt8) ∧
      slashed path = segments ++ Uri.after '?'.toUInt8 query := by
  have hslashed : Uri.Encoded Uri.isQueryChar (slashed path) := by
    unfold slashed
    split
    · exact .plain (by decide) hpath
    · exact hpath
  have hhead : slashed path = [] ∨ (slashed path).head? = some '/'.toUInt8 := by
    unfold slashed
    split
    · exact Or.inr rfl
    · next h =>
      by_cases hempty : path = []
      · exact Or.inl hempty
      · exact Or.inr (by simpa [hempty] using h)
  obtain ⟨segments, query, hsegments, hquery, heq⟩ := hslashed.pathQuery
  refine ⟨segments, query, hsegments, hquery, ?_, heq⟩
  cases segments with
  | nil => exact Or.inl rfl
  | cons c segments =>
    rw [heq] at hhead
    exact Or.inr (by simpa using hhead)

theorem isScheme_scheme (client : Http2Client) : Uri.IsScheme client.scheme := by
  have hhttps : ascii "https" = 'h'.toUInt8 :: ascii "ttps" := by decide
  have hhttp : ascii "http" = 'h'.toUInt8 :: ascii "ttp" := by decide
  unfold Http2Client.scheme
  split
  · rw [hhttps]
    exact ⟨by decide, List.all_eq_true.mp (by decide)⟩
  · rw [hhttp]
    exact ⟨by decide, List.all_eq_true.mp (by decide)⟩

/-- With a host that a URI can have, the URL is a URI. -/
theorem getUri_splits (hhost : Uri.IsHost client.host) (hport : Uri.IsPort client.port)
    (hpath : Uri.Encoded Uri.isQueryChar path) :
    ∃ u : Uri.Components, Uri.Splits (client.getUri path []) u ∧ u.scheme = client.scheme ∧
      u.authority = some { host := client.host, port := some client.port } ∧
      u.pathQuery = slashed path ∧ u.fragment = none := by
  obtain ⟨segments, query, hsegments, hquery, hrooted, heq⟩ := slashed_pathQuery hpath
  refine ⟨{ scheme := client.scheme
            authority := some { host := client.host, port := some client.port }
            path := segments
            query := query }, ⟨?_, ?_⟩, rfl, rfl, heq.symm, rfl⟩
  · refine ⟨?_, ?_, hsegments, fun _ => hrooted, by simp, hquery, by simp⟩
    · exact isScheme_scheme client
    · intro a ha
      rw [← Option.some.inj ha]
      refine ⟨by simp, hhost, ?_⟩
      intro t ht
      rw [← Option.some.inj ht]
      exact hport
  · rw [getUri_eq, heq]
    simp [Uri.Components.text, Uri.Components.hierText, Uri.Components.pathQuery,
      Uri.Authority.text, Uri.upTo, Uri.after]

/-- The host that comes back is one that a URI can have. -/
theorem ParsesBack.isHost (h : ParsesBack client path) : Uri.IsHost client.host := by
  obtain ⟨⟨u, hu⟩, hback⟩ := h
  obtain ⟨-, hauthority, -⟩ := hback u hu
  exact (hu.1.authority _ hauthority).host

theorem parsesBack_iff_isHost (hport : Uri.IsPort client.port)
    (hpath : Uri.Encoded Uri.isQueryChar path) :
    ParsesBack client path ↔ Uri.IsHost client.host := by
  constructor
  · exact ParsesBack.isHost
  · intro hhost
    obtain ⟨u, hu, hback⟩ := getUri_splits hhost hport hpath
    refine ⟨⟨u, hu⟩, ?_⟩
    intro v hv
    rw [hv.unique hu]
    exact hback

/-- Of the hosts of a connection, those without a colon can stand in a URI. -/
theorem IsConnectionHost.isHost_iff (h : IsConnectionHost client.host) :
    Uri.IsHost client.host ↔ ':'.toUInt8 ∉ client.host := by
  have hname {host : Bytes} (hreg : Uri.IsRegName host) : ':'.toUInt8 ∉ host :=
    hreg.not_mem (by decide)
  rcases h with hreg | hv4 | ⟨address, zone, hv6, -, heq⟩
  · exact iff_of_true (Or.inr hreg) (hname hreg)
  · exact iff_of_true (Or.inr hv4.isRegName) (hname hv4.isRegName)
  · have hcolon : ':'.toUInt8 ∈ client.host := by
      rw [heq]
      exact List.mem_append_left _ hv6.colon_mem
    refine iff_of_false ?_ (not_not_intro hcolon)
    rintro (hlit | hreg)
    · -- an address does not begin with a bracket
      obtain ⟨inner, -, hbrackets⟩ := hlit.brackets
      rw [heq] at hbrackets
      cases address with
      | nil => exact absurd hv6.colon_mem List.not_mem_nil
      | cons c address =>
        obtain ⟨rfl, -⟩ := List.cons.inj hbrackets
        exact absurd (hv6.isUserinfoChar _ (List.mem_cons_self ..)) (by decide)
    · exact hname hreg hcolon

end getUri

/-- **The URL of a request parses back exactly if its host has no colon.** -/
theorem uri_parses_back_iff (client : Http2Client) (path : Bytes)
    (hhost : IsConnectionHost client.host) (hport : client.port ≠ [] ∧ Uri.IsPort client.port)
    (hpath : Uri.Encoded Uri.isQueryChar path) :
    ParsesBack client path ↔ ':'.toUInt8 ∉ client.host := by
  rw [parsesBack_iff_isHost hport.2 hpath]
  exact hhost.isHost_iff

theorem uri_parses_back_name :
    ParsesBack { host := ascii "localhost", port := ascii "8080" } (ascii "a/b?c=1") :=
  (uri_parses_back_iff _ _ (Or.inl (Uri.encoded_of_forall (List.all_eq_true.mp (by decide))))
    ⟨by decide, List.all_eq_true.mp (by decide)⟩
    (Uri.encoded_of_forall (List.all_eq_true.mp (by decide)))).mpr (by decide)

/-- **An IPv6 host does not come back.** -/
theorem ipv6_host_not_split :
    ¬∀ (client : Http2Client) (path : Bytes), IsConnectionHost client.host →
      client.port ≠ [] ∧ Uri.IsPort client.port → Uri.Encoded Uri.isQueryChar path →
      ParsesBack client path := by
  intro h
  have haddress : Uri.IsIpv6Address (ascii "::1") := by
    refine Or.inr ⟨[], ascii "1", by simp, rfl, Or.inr (Or.inl ⟨⟨?_, ?_, ?_⟩, by simp⟩)⟩
    · decide
    · decide
    · exact List.all_eq_true.mp (by decide)
  have hhost : IsConnectionHost (ascii "::1") :=
    Or.inr (Or.inr ⟨_, [], haddress, Or.inl rfl, by simp⟩)
  let client : Http2Client := { host := ascii "::1", port := ascii "8080" }
  have hparses := h client (ascii "/") hhost ⟨by decide, List.all_eq_true.mp (by decide)⟩
    (Uri.encoded_of_forall (List.all_eq_true.mp (by decide)))
  have hcolon : ':'.toUInt8 ∉ client.host :=
    (IsConnectionHost.isHost_iff hhost).mp hparses.isHost
  exact absurd hcolon (by decide)

end Http2Comm.Client
