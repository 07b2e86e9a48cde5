import ZsecShield.Lib.Number
import ZsecShield.Lib.Pattern

/-!
# URLs

A URL in the form in which the engine hands it on: a scheme, an authority with the default port
left out, and the rest.  `Url.Canonical` is what the engine's parser guarantees about the parts,
and `Url.text` puts them together.  Behind it stand the string functions of the browser's own
code.
-/

namespace ZsecShield.Browser

open Text (Str str CodePoint)

/-! ## Strings -/

def slash : CodePoint := Text.ofChar '/'
def colon : CodePoint := Text.ofChar ':'
def atSign : CodePoint := Text.ofChar '@'
def dot : CodePoint := Text.ofChar '.'
def bracket : CodePoint := Text.ofChar '['

theorem val_slash : slash.val = 0x2F := rfl
theorem val_colon : colon.val = 0x3A := rfl
theorem val_atSign : atSign.val = 0x40 := rfl
theorem val_dot : dot.val = 0x2E := rfl
theorem val_bracket : bracket.val = 0x5B := rfl

/-- `Char.IsWhiteSpace`. -/
def isWhiteSpace (c : CodePoint) : Bool :=
  decide (9 ≤ c.val ∧ c.val ≤ 13 ∨ c.val = 0x20 ∨ c.val = 0x85 ∨ c.val = 0xA0 ∨ c.val = 0x1680 ∨
    0x2000 ≤ c.val ∧ c.val ≤ 0x200A ∨ c.val = 0x2028 ∨ c.val = 0x2029 ∨ c.val = 0x202F ∨
    c.val = 0x205F ∨ c.val = 0x3000)

/-- `Char.IsControl`. -/
def isControl (c : CodePoint) : Bool := decide (c.val < 0x20 ∨ 0x7F ≤ c.val ∧ c.val ≤ 0x9F)

/-- `value.Length`, in UTF-16 units. -/
def length16 (s : Str) : Nat := (s.map fun c => if c.val < 0x10000 then 1 else 2).sum

/-- The text without the characters `p` at its end. -/
def trimEndOf (p : CodePoint → Bool) (s : Str) : Str := (s.reverse.dropWhile p).reverse

/-- The text without the characters `p` at both ends. -/
def trimOf (p : CodePoint → Bool) (s : Str) : Str := trimEndOf p (s.dropWhile p)

/-- `value.ToLowerInvariant()` of a text in ASCII. -/
def toLower (s : Str) : Str :=
  s.map fun c => if 65 ≤ c.val ∧ c.val ≤ 90 then Fin.ofNat _ (c.val + 32) else c

/-- `String.IsNullOrWhiteSpace`. -/
def isBlank (s : Str) : Bool := s.all isWhiteSpace

/-- Characters of a URL: printable ASCII without the blank. -/
def Printable (s : Str) : Prop := ∀ c ∈ s, 0x21 ≤ c.val ∧ c.val ≤ 0x7E

theorem trimEndOf_eq {p : CodePoint → Bool} {s : Str} (h : ∀ c ∈ s.getLast?, p c = false) :
    trimEndOf p s = s := by
  rcases List.eq_nil_or_concat s with rfl | ⟨front, last, rfl⟩
  · rfl
  · rw [trimEndOf, List.concat_eq_append, List.reverse_append, List.reverse_singleton,
      List.singleton_append, List.dropWhile_cons_of_neg (by simpa using h), List.reverse_cons,
      List.reverse_reverse]

theorem trimOf_eq {p : CodePoint → Bool} {s : Str} (hhead : ∀ c ∈ s.head?, p c = false)
    (hlast : ∀ c ∈ s.getLast?, p c = false) : trimOf p s = s := by
  have hdrop : s.dropWhile p = s := by
    cases s with
    | nil => rfl
    | cons c s => exact List.dropWhile_cons_of_neg (by simpa using hhead)
  rw [trimOf, hdrop, trimEndOf_eq hlast]

/-- A text that loses nothing at its end does not end in such a character. -/
theorem not_of_trimEndOf {p : CodePoint → Bool} {s : Str} {c : CodePoint}
    (h : c ∈ (trimEndOf p s).getLast?) : p c = false := by
  rw [trimEndOf, List.getLast?_reverse] at h
  cases hdrop : s.reverse.dropWhile p with
  | nil =>
      rw [hdrop] at h
      cases h
  | cons a rest =>
      rw [hdrop] at h
      cases h
      have hhead := List.head_dropWhile_not p (l := s.reverse) (by rw [hdrop]; simp)
      simpa [hdrop] using hhead

theorem not_isWhiteSpace {c : CodePoint} (h : 0x21 ≤ c.val ∧ c.val ≤ 0x7E) :
    isWhiteSpace c = false := by
  simp only [isWhiteSpace, decide_eq_false_iff_not]
  omega

theorem not_isControl {c : CodePoint} (h : 0x21 ≤ c.val ∧ c.val ≤ 0x7E) : isControl c = false := by
  simp only [isControl, decide_eq_false_iff_not]
  omega

theorem trim_printable {s : Str} (h : Printable s) : trimOf isWhiteSpace s = s :=
  trimOf_eq (fun _ hc => not_isWhiteSpace (h _ (List.mem_of_mem_head? hc)))
    fun _ hc => not_isWhiteSpace (h _ (List.mem_of_mem_getLast? hc))

theorem toLower_eq {s : Str} (h : ∀ c ∈ s, ¬ (65 ≤ c.val ∧ c.val ≤ 90)) : toLower s = s := by
  rw [toLower]
  conv_rhs => rw [← List.map_id s]
  exact List.map_congr_left fun c hc => if_neg (h c hc)

/-! ## The parts of a URL -/

/-- What stands between `//` and the path; the port is left out where it is the default one. -/
structure Authority where
  userInfo : Str
  host : Str
  explicitPort : Option Nat

structure Url where
  scheme : Str
  authority : Option Authority
  /-- The path with what follows it. -/
  rest : Str

namespace Authority

def text (a : Authority) : Str :=
  (if a.userInfo = [] then [] else a.userInfo ++ [atSign]) ++ a.host ++
    match a.explicitPort with
    | none => []
    | some n => colon :: Text.digits n

end Authority

namespace Url

/-- The URL as a text. -/
def text (u : Url) : Str :=
  u.scheme ++ colon :: (match u.authority with
    | none => u.rest
    | some a => slash :: slash :: (a.text ++ u.rest))

def userInfo (u : Url) : Str := (u.authority.map Authority.userInfo).getD []

def host (u : Url) : Str := (u.authority.map Authority.host).getD []

/-- The default port of a scheme. -/
def defaultPort (scheme : Str) : Int :=
  if scheme = str "https" ∨ scheme = str "wss" then 443
  else if scheme = str "http" ∨ scheme = str "ws" then 80
  else if scheme = str "ftp" then 21
  else -1

/-- `uri.Port`. -/
def port (u : Url) : Int :=
  match u.authority.bind Authority.explicitPort with
  | some n => n
  | none => defaultPort u.scheme

/-- What the parser of the engine guarantees. -/
structure Canonical (u : Url) : Prop where
  printable : Printable u.scheme ∧ Printable u.userInfo ∧ Printable u.host ∧ Printable u.rest
  scheme : colon ∉ u.scheme
  userInfo : slash ∉ u.userInfo
  host : slash ∉ u.host ∧ atSign ∉ u.host ∧ ∀ c ∈ u.host, ¬ (65 ≤ c.val ∧ c.val ≤ 90)
  /-- Only an address in brackets holds colons. -/
  address : colon ∈ u.host → bracket ∈ u.host
  /-- A secure URL has a host and a path, and the default port is left out. -/
  secure : u.scheme = str "https" → ∃ a path, u.authority = some a ∧ a.host ≠ [] ∧
    a.explicitPort ≠ some 443 ∧ u.rest = slash :: path

theorem printable_digits (n : Nat) : Printable (Text.digits n) := by
  intro c hc
  have h := Text.isDigit_of_mem_digits hc
  simp only [Text.isDigit, Bool.and_eq_true, decide_eq_true_eq] at h
  omega

theorem printable_text {u : Url} (h : u.Canonical) : Printable u.text := by
  obtain ⟨hscheme, huser, hhost, hrest⟩ := h.printable
  have hcolon : 0x21 ≤ colon.val ∧ colon.val ≤ 0x7E := by simp [val_colon]
  have hslash : 0x21 ≤ slash.val ∧ slash.val ≤ 0x7E := by simp [val_slash]
  have hat : 0x21 ≤ atSign.val ∧ atSign.val ≤ 0x7E := by simp [val_atSign]
  have hauthority : ∀ a, u.authority = some a → Printable a.text := by
    intro a ha
    simp only [userInfo, Url.host, ha, Option.map_some, Option.getD_some] at huser hhost
    have hports : Printable (match a.explicitPort with
        | none => []
        | some n => colon :: Text.digits n) := by
      cases a.explicitPort with
      | none => exact List.forall_mem_nil _
      | some n => exact List.forall_mem_cons.2 ⟨hcolon, printable_digits n⟩
    intro c hc
    rw [Authority.text, List.mem_append, List.mem_append] at hc
    rcases hc with (hc | hc) | hc
    · split at hc
      · cases hc
      · rcases List.mem_append.1 hc with hc | hc
        · exact huser c hc
        · rw [List.mem_singleton.1 hc]
          exact hat
    · exact hhost c hc
    · exact hports c hc
  intro c hc
  rw [text, List.mem_append, List.mem_cons] at hc
  rcases hc with hc | rfl | hc
  · exact hscheme c hc
  · exact hcolon
  · split at hc
    · exact hrest c hc
    · rename_i a ha
      rw [List.mem_cons, List.mem_cons, List.mem_append] at hc
      rcases hc with rfl | rfl | hc | hc
      · exact hslash
      · exact hslash
      · exact hauthority a ha c hc
      · exact hrest c hc

end Url

end ZsecShield.Browser
