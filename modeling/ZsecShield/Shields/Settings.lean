import ZsecShield.Lib.Json.Value
import ZsecShield.Browser.Url

/-!
# Settings of the extension

`normalizeDomain` and `normalizeSettings` of `policy.js`.  Whatever is stored or sent, the
settings that come out of `normalizeSettings` are normalized: at most 200 different sites, in
order, each of them a domain.  Normalized settings come back unchanged from the values they are
stored as, so reading what was written gives what was written.
-/

namespace ZsecShield.Shields

open Text (Str str CodePoint)
open Browser (dot length16 trimOf trimEndOf)

/-! ## Texts -/

/-- `[a-z0-9.-]`. -/
def isDomainChar (c : CodePoint) : Bool :=
  decide (0x61 ≤ c.val ∧ c.val ≤ 0x7A ∨ 0x30 ≤ c.val ∧ c.val ≤ 0x39 ∨ c.val = 0x2E ∨ c.val = 0x2D)

/-- What `trim` takes off: white space and line ends of the script language. -/
def isTrimmed (c : CodePoint) : Bool :=
  decide (9 ≤ c.val ∧ c.val ≤ 13 ∨ c.val = 0x20 ∨ c.val = 0xA0 ∨ c.val = 0x1680 ∨
    0x2000 ≤ c.val ∧ c.val ≤ 0x200A ∨ c.val = 0x2028 ∨ c.val = 0x2029 ∨ c.val = 0x202F ∨
    c.val = 0x205F ∨ c.val = 0x3000 ∨ c.val = 0xFEFF)

/-- The functions of the script engine that rest on tables of Unicode or on the grammar of URLs. -/
structure Script where
  toLowerCase : Str → Str
  toLowerCase_eq : ∀ s : Str, s.all isDomainChar = true → toLowerCase s = s
  /-- `left.localeCompare(right) <= 0`. -/
  localeLe : Str → Str → Bool
  /-- The protocol and the host name of `new URL(raw)`. -/
  parseUrl : Json → Option (Str × Str)

variable (script : Script)

def hyphen : CodePoint := Text.ofChar '-'

/-- `!label || label.length > 63 || label.startsWith("-") || label.endsWith("-")`. -/
def isBadLabel (label : Str) : Bool :=
  decide (label = [] ∨ 63 < length16 label ∨ label.head? = some hyphen ∨
    label.getLast? = some hyphen)

/-- The checks of `normalizeDomain` on the trimmed text. -/
def checkDomain (trimmed : Str) : Option Str :=
  if trimmed = [] ∨ 253 < length16 trimmed ∨ trimmed = str "localhost" then none
  else if trimmed.all isDomainChar = false ∨ [dot, dot] <:+: trimmed then none
  else
    let labels := trimmed.splitOn dot
    if labels.length < 2 ∨ labels.any isBadLabel = true then none else some trimmed

/-- `normalizeDomain`. -/
def normalizeDomain : Json → Option Str
  | .str value => checkDomain (trimOf (· = dot) (script.toLowerCase (trimOf isTrimmed value)))
  | _ => none

theorem checkDomain_eq_some {trimmed d : Str} (h : checkDomain trimmed = some d) :
    trimmed = d ∧ d ≠ [] ∧ d.all isDomainChar = true := by
  rw [checkDomain] at h
  split at h
  · cases h
  · rename_i hsize
    split at h
    · cases h
    · rename_i hchars
      dsimp only at h
      split at h
      · cases h
      · cases h
        rw [not_or, Bool.not_eq_false] at hchars
        exact ⟨rfl, fun hnil => hsize (.inl hnil), hchars.1⟩

theorem head?_trimOf {p : CodePoint → Bool} {s : Str} {c : CodePoint}
    (h : c ∈ (trimOf p s).head?) : p c = false := by
  have hprefix : trimOf p s <+: s.dropWhile p := by
    rw [trimOf, trimEndOf, ← List.reverse_suffix, List.reverse_reverse]
    exact List.dropWhile_suffix _
  have hhead : (s.dropWhile p).head? = some c := by
    obtain ⟨rest, hrest⟩ := hprefix
    rw [← hrest, List.head?_append, Option.mem_def.1 h]
    rfl
  cases hdrop : s.dropWhile p with
  | nil =>
      rw [hdrop] at hhead
      cases hhead
  | cons a rest =>
      rw [hdrop] at hhead
      cases hhead
      have hnot := List.head_dropWhile_not p (l := s) (by rw [hdrop]; simp)
      simpa [hdrop] using hnot

theorem trimOf_trimOf (p : CodePoint → Bool) (s : Str) : trimOf p (trimOf p s) = trimOf p s :=
  Browser.trimOf_eq (fun _ hc => head?_trimOf hc) fun _ hc => Browser.not_of_trimEndOf hc

theorem not_isTrimmed {c : CodePoint} (h : isDomainChar c = true) : isTrimmed c = false := by
  simp only [isDomainChar, decide_eq_true_eq] at h
  simp only [isTrimmed, decide_eq_false_iff_not]
  omega

/-- A domain is its own normal form. -/
theorem normalizeDomain_str {value : Json} {d : Str} (h : normalizeDomain script value = some d) :
    normalizeDomain script (.str d) = some d := by
  cases value with
  | str s =>
      rw [normalizeDomain] at h
      obtain ⟨htrimmed, -, hchars⟩ := checkDomain_eq_some h
      have hspace : trimOf isTrimmed d = d := by
        rw [List.all_eq_true] at hchars
        exact Browser.trimOf_eq
          (fun c hc => not_isTrimmed (hchars c (List.mem_of_mem_head? hc)))
          fun c hc => not_isTrimmed (hchars c (List.mem_of_mem_getLast? hc))
      have hdots : trimOf (· = dot) d = d := by
        rw [← htrimmed]
        exact trimOf_trimOf _ _
      rw [normalizeDomain, hspace, script.toLowerCase_eq d hchars, hdots]
      rwa [htrimmed] at h
  | _ => cases h

/-- `domainFromUrl`. -/
def domainFromUrl (rawUrl : Json) : Option Str :=
  match script.parseUrl rawUrl with
  | none => none
  | some (protocol, hostname) =>
      if protocol ≠ str "http:" ∧ protocol ≠ str "https:" then none
      else normalizeDomain script (.str hostname)

/-! ## Values -/

/-- `value[key]`; no test below tells a missing member from `null`. -/
def member (key : String) : Json → Json
  | .obj members => (Json.lookup (str key) members).getD .null
  | _ => .null

/-- `value === true`. -/
def isTrue : Json → Bool
  | .bool b => b
  | _ => false

/-- `value === false`. -/
def isFalse : Json → Bool
  | .bool b => !b
  | _ => false

structure Settings where
  protectionEnabled : Bool
  highRiskMode : Bool
  youtubeCleanup : Bool
  pausedSites : List Str
deriving DecidableEq

/-- `DEFAULT_SETTINGS`. -/
def defaultSettings : Settings where
  protectionEnabled := true
  highRiskMode := false
  youtubeCleanup := true
  pausedSites := []

/-- The members of a settings object. -/
def Settings.items (s : Settings) : List (Str × Json) :=
  [ (str "protectionEnabled", .bool s.protectionEnabled),
    (str "highRiskMode", .bool s.highRiskMode),
    (str "youtubeCleanup", .bool s.youtubeCleanup),
    (str "pausedSites", .arr (s.pausedSites.map .str))]

/-- `[...new Set(values.map(normalizeDomain).filter(Boolean))].sort()`. -/
def sortedDomains (values : List Json) : List Str :=
  (values.filterMap (normalizeDomain script)).eraseDups.insertionSort (· ≤ ·)

/-- `normalizeSettings`; a value that is no object has none of the members. -/
def normalizeSettings (value : Json) : Settings :=
  let pausedSites := ((member "pausedSites" value).arrOf.map (sortedDomains script)).getD []
  { protectionEnabled := !isFalse (member "protectionEnabled" value)
    highRiskMode := isTrue (member "highRiskMode" value)
    youtubeCleanup := !isFalse (member "youtubeCleanup" value)
    pausedSites := pausedSites.take 200 }

/-- What `normalizeSettings` establishes. -/
structure Normalized (s : Settings) : Prop where
  domains : ∀ d ∈ s.pausedSites, normalizeDomain script (.str d) = some d
  ordered : s.pausedSites.Pairwise (· < ·)
  short : s.pausedSites.length ≤ 200

theorem nodup_eraseDups {α : Type} [BEq α] [LawfulBEq α] : ∀ l : List α, l.eraseDups.Nodup
  | [] => List.nodup_nil
  | a :: l => by
      rw [List.eraseDups_cons, List.nodup_cons, List.mem_eraseDups]
      exact ⟨by simp, nodup_eraseDups _⟩
termination_by l => l.length
decreasing_by exact Nat.lt_succ_of_le (List.length_filter_le _ _)

theorem eraseDups_of_nodup {α : Type} [BEq α] [LawfulBEq α] {l : List α} (h : l.Nodup) :
    l.eraseDups = l := by
  induction l with
  | nil => rfl
  | cons a l ih =>
      rw [List.nodup_cons] at h
      have hrest : l.filter (fun b => !(b == a)) = l := by
        rw [List.filter_eq_self]
        intro b hb
        have hne : b ≠ a := fun heq => h.1 (heq ▸ hb)
        simpa using hne
      rw [List.eraseDups_cons, hrest, ih h.2]

variable {script}

theorem mem_sortedDomains {values : List Json} {d : Str} :
    d ∈ sortedDomains script values ↔ ∃ v ∈ values, normalizeDomain script v = some d := by
  rw [sortedDomains, List.mem_insertionSort, List.mem_eraseDups, List.mem_filterMap]

theorem ordered_sortedDomains (values : List Json) :
    (sortedDomains script values).Pairwise (· < ·) := by
  have hsorted : (sortedDomains script values).Pairwise (· ≤ ·) :=
    List.pairwise_insertionSort (· ≤ ·) _
  have hnodup : (sortedDomains script values).Nodup :=
    (List.perm_insertionSort _ _).nodup_iff.2 (nodup_eraseDups _)
  exact hsorted.imp₂ (fun _ _ hle hne => lt_of_le_of_ne hle hne) hnodup

/-- Domains in order are what sorting and checking them again gives. -/
theorem sortedDomains_eq {ds : List Str} (hordered : ds.Pairwise (· < ·))
    (hdomains : ∀ d ∈ ds, normalizeDomain script (.str d) = some d) :
    sortedDomains script (ds.map .str) = ds := by
  have hread : (ds.map Json.str).filterMap (normalizeDomain script) = ds := by
    rw [List.filterMap_map]
    calc ds.filterMap (normalizeDomain script ∘ Json.str) = ds.filterMap some :=
          List.filterMap_congr hdomains
      _ = ds := List.filterMap_some
  have hnodup : ds.Nodup := hordered.imp fun hlt => ne_of_lt hlt
  rw [sortedDomains, hread, eraseDups_of_nodup hnodup]
  exact (hordered.imp fun hlt => le_of_lt hlt).insertionSort_eq

theorem normalizeSettings_normalized (value : Json) :
    Normalized script (normalizeSettings script value) := by
  have hsub : ∀ {ds : List Str}, (∀ d ∈ ds, normalizeDomain script (.str d) = some d) →
      ds.Pairwise (· < ·) →
      (∀ d ∈ ds.take 200, normalizeDomain script (.str d) = some d) ∧
        (ds.take 200).Pairwise (· < ·) := fun hd ho =>
    ⟨fun d h => hd d (List.mem_of_mem_take h), ho.sublist (List.take_sublist _ _)⟩
  have hparts : (∀ d ∈ (normalizeSettings script value).pausedSites,
      normalizeDomain script (.str d) = some d) ∧
        (normalizeSettings script value).pausedSites.Pairwise (· < ·) := by
    rw [normalizeSettings]
    refine hsub ?_ ?_
    · cases hsites : (member "pausedSites" value).arrOf with
      | none => exact List.forall_mem_nil _
      | some values =>
          intro d hd
          obtain ⟨v, -, hv⟩ := mem_sortedDomains.1 hd
          exact normalizeDomain_str script hv
    · cases hsites : (member "pausedSites" value).arrOf with
      | none => exact List.Pairwise.nil
      | some values => exact ordered_sortedDomains values
  exact {
    domains := hparts.1
    ordered := hparts.2
    short := List.length_take_le 200 _ }

/-- Settings that are read from members like their own. -/
theorem normalizeSettings_of_members {s : Settings} (hs : Normalized script s) {value : Json}
    (hprotection : member "protectionEnabled" value = .bool s.protectionEnabled)
    (hrisk : member "highRiskMode" value = .bool s.highRiskMode)
    (hyoutube : member "youtubeCleanup" value = .bool s.youtubeCleanup)
    (hsites : member "pausedSites" value = .arr (s.pausedSites.map .str)) :
    normalizeSettings script value = s := by
  have hpaused : (((Json.arr (s.pausedSites.map .str)).arrOf.map (sortedDomains script)).getD
      []).take 200 = s.pausedSites := by
    rw [Json.arrOf, Option.map_some, Option.getD_some, sortedDomains_eq hs.ordered hs.domains,
      List.take_of_length_le hs.short]
  simp only [normalizeSettings, hprotection, hrisk, hyoutube, hsites, hpaused, isTrue, isFalse,
    Bool.not_not]

/-- Normalized settings stay as they are. -/
theorem normalizeSettings_items {s : Settings} (hs : Normalized script s) :
    normalizeSettings script (.obj s.items) = s := by
  have hmember : ∀ {key : String} {v : Json}, (str key, v) ∈ s.items →
      member key (.obj s.items) = v := by
    intro key v hmem
    have hkeys : (s.items.map Prod.fst).Nodup := by
      simp [Settings.items, Text.str_injective]
    rw [member, Json.lookup_eq_some_of_mem hkeys hmem]
    rfl
  refine normalizeSettings_of_members hs (hmember ?_) (hmember ?_) (hmember ?_) (hmember ?_) <;>
    simp [Settings.items]

end ZsecShield.Shields
