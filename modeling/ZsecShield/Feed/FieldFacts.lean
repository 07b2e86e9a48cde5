import ZsecShield.Feed.Fields

/-!
# What the field checks accept

One lemma for each check: the values it accepts, that sorting the keys of a value makes no
difference to it, and that it refuses with a `FeedError`.
-/

namespace ZsecShield.Feed

open Text (Str str)
open Checks

/-! ## Accepted values -/

theorem expectExactKeys_eq_ok {value : List (Str × Json)} {expected : List Str} {context : Str}
    {u : Unit} :
    expectExactKeys value expected context = .ok u ↔ Json.keysAre value expected = true :=
  require_eq_ok

/-- A bounded text without control characters. -/
def Bounded (text : Str) (minimum maximum : Nat) : Prop :=
  (minimum ≤ text.length ∧ text.length ≤ maximum) ∧ ∀ c ∈ text, 32 ≤ c.val ∨ c.val = 9

/-- `Bounded` as it is computed. -/
theorem bounded_of_all {text : Str} {minimum maximum : Nat}
    (hlen : minimum ≤ text.length ∧ text.length ≤ maximum)
    (hall : text.all (fun c => decide (32 ≤ c.val ∨ c.val = 9)) = true) :
    Bounded text minimum maximum := by
  refine ⟨hlen, ?_⟩
  intro c hc
  exact of_decide_eq_true (List.all_eq_true.1 hall c hc)

theorem boundedString_eq_ok {value : Json} {name : Str} {minimum maximum : Nat} {text : Str} :
    boundedString value name minimum maximum = .ok text ↔
      value = .str text ∧ Bounded text minimum maximum := by
  simp only [boundedString, bind_eq_ok, fromOption_eq_ok, Json.strOf_eq_some, require_eq_ok,
    List.all_eq_true, decide_eq_true_eq]
  constructor
  · rintro ⟨_, rfl, _, hlen, _, hctl, h⟩
    cases h
    exact ⟨rfl, hlen, hctl⟩
  · rintro ⟨rfl, hlen, hctl⟩
    exact ⟨text, rfl, (), hlen, (), hctl, rfl⟩

theorem timestamp_eq_ok {value : Json} {name : Str} {d : DateTime} :
    timestamp value name = .ok d ↔
      ∃ text, value = .str text ∧ Bounded text 20 35 ∧
        text.getLast? = some (Text.ofChar 'Z') ∧
        DateTime.fromIsoFormat (text.dropLast ++ str "+00:00") = some ⟨d, some 0⟩ := by
  simp only [timestamp, bind_eq_ok, boundedString_eq_ok, fromOption_eq_ok, require_eq_ok]
  constructor
  · rintro ⟨text, ⟨rfl, hbounded⟩, _, hlast, ⟨parsed, offset⟩, hparsed, _, hoffset, h⟩
    cases h
    cases hoffset
    exact ⟨text, rfl, hbounded, hlast, hparsed⟩
  · rintro ⟨text, rfl, hbounded, hlast, hparsed⟩
    exact ⟨text, ⟨rfl, hbounded⟩, (), hlast, _, hparsed, (), rfl, rfl⟩

theorem decodeBase64_eq_ok {value : Json} {name : Str} {expected : Option Nat} {data : Bytes} :
    decodeBase64 value name expected = .ok data ↔
      value = .str (Base64.encode data) ∧ Bounded (Base64.encode data) 4 8192 ∧
        ∀ n ∈ expected, data.length = n := by
  simp only [decodeBase64, bind_eq_ok, boundedString_eq_ok, fromOption_eq_ok, require_eq_ok]
  constructor
  · rintro ⟨text, ⟨rfl, hbounded⟩, decoded, -, _, rfl, _, hlen, h⟩
    cases h
    exact ⟨rfl, hbounded, hlen⟩
  · rintro ⟨rfl, hbounded, hlen⟩
    exact ⟨_, ⟨rfl, hbounded⟩, data, Base64.decode_encode data, (), rfl, (), hlen, rfl⟩

theorem memberOf_eq_true {value : Json} {texts : List Str} (h : memberOf value texts = .ok true) :
    ∃ s ∈ texts, value = .str s := by
  cases value with
  | str s =>
      simp only [memberOf, Except.ok.injEq, decide_eq_true_eq] at h
      exact ⟨s, h, rfl⟩
  | _ => simp [memberOf] at h

theorem encodable_of_isRuleId {s : Str} (h : isRuleId s = true) : Text.Encodable s := by
  have hpoint : ∀ c : Text.CodePoint, isIdPoint c = true → ¬ Text.IsSurrogate c := by
    intro c hc hs
    have hlow : 0xD800 ≤ c.val := hs.1
    simp only [isIdPoint, isLower, Text.isDigit, Bool.or_eq_true, Bool.and_eq_true,
      decide_eq_true_eq] at hc
    obtain ((((hc | hc) | rfl) | rfl) | rfl) | rfl := hc
    · omega
    · omega
    all_goals exact absurd hlow (by decide)
  cases s with
  | nil => cases h
  | cons c rest =>
      simp only [isRuleId, Bool.and_eq_true, List.all_eq_true] at h
      obtain ⟨⟨hhead, -⟩, hrest⟩ := h
      refine (Text.encodable_cons c rest).2 ⟨hpoint c ?_, fun x hx => hpoint x (hrest x hx)⟩
      simp only [isIdPoint, Bool.or_eq_true] at hhead ⊢
      obtain hhead | hhead := hhead
      · simp [hhead]
      · simp [hhead]

/-- A base64 text is ASCII. -/
theorem encodable_encode (data : Bytes) : Text.Encodable (Base64.encode data) := by
  intro c hc hs
  have hlow : 0xD800 ≤ c.val := hs.1
  obtain ⟨n, hn, rfl⟩ | rfl := Base64.isDigit_of_mem_encode hc
  · have hdigit : ∀ n < 64, (Base64.digit n).val < 0xD800 := by decide
    exact absurd hlow (Nat.not_le_of_lt (hdigit n hn))
  · exact absurd hlow (by decide)

/-! ## Written values -/

theorem val_lastDigit (n : Nat) : 32 ≤ (DateTime.lastDigit n).val := by
  simp only [DateTime.lastDigit]
  omega

theorem bounded_formatUtc (d : DateTime) : Bounded (Util.formatUtc d) 20 35 := by
  have hlen : (Util.formatUtc d).length = 20 := rfl
  refine ⟨by omega, fun c hc => .inl ?_⟩
  simp only [Util.formatUtc, DateTime.isoSecond, DateTime.fourDigits, DateTime.twoDigits,
    List.cons_append, List.nil_append, List.mem_cons] at hc
  rcases hc with rfl | rfl | rfl | rfl | rfl | rfl | rfl | rfl | rfl | rfl | rfl | rfl | rfl |
    rfl | rfl | rfl | rfl | rfl | rfl | hc
  all_goals first | exact val_lastDigit _ | decide | skip
  rw [List.mem_singleton.1 hc]
  decide

/-- A written time is read back to the second. -/
theorem timestamp_formatUtc (d : DateTime) (name : Str) :
    timestamp (.str (Util.formatUtc d)) name = .ok d.wholeSecond := by
  refine timestamp_eq_ok.2 ⟨_, rfl, bounded_formatUtc d, ?_, ?_⟩
  · exact List.getLast?_append_cons _ _ _
  · have hdrop : (Util.formatUtc d).dropLast = d.isoSecond := List.dropLast_concat
    rw [hdrop]
    exact DateTime.fromIsoFormat_isoSecond d

theorem isSha256_hexText {data : Bytes} (h : data.length = 32) : isSha256 (hexText data) = true := by
  simp only [isSha256, Bool.and_eq_true, decide_eq_true_eq, List.all_eq_true]
  refine ⟨by rw [length_hexText, h], fun c hc => ?_⟩
  simp only [hexText, List.mem_flatMap, List.mem_cons, List.not_mem_nil, or_false] at hc
  obtain ⟨b, -, rfl | rfl⟩ := hc
  · rw [Json.hexDigit_hexChar _ (by have := b.toNat_lt; omega)]
    rfl
  · rw [Json.hexDigit_hexChar _ (Nat.mod_lt _ (by omega))]
    rfl

theorem isSha256_hexdigest (crypto : Crypto) (data : Bytes) :
    isSha256 (crypto.hexdigest data) = true := isSha256_hexText (crypto.length_sha256 data)

theorem encodable_of_isSha256 {s : Str} (h : isSha256 s = true) : Text.Encodable s := by
  simp only [isSha256, Bool.and_eq_true, List.all_eq_true] at h
  intro c hc hs
  have hlow : 0xD800 ≤ c.val := hs.1
  have hhex := h.2 c hc
  have hdigit : Text.isDigit c = false := by
    rw [Text.isDigit, Bool.and_eq_false_iff, decide_eq_false_iff_not, decide_eq_false_iff_not]
    omega
  have hsmall : ¬ (97 ≤ c.val ∧ c.val ≤ 102) := by omega
  have hlarge : ¬ (65 ≤ c.val ∧ c.val ≤ 70) := by omega
  simp only [Json.hexDigit, hdigit, hsmall, hlarge, ↓reduceIte, Bool.false_eq_true] at hhex
  cases hhex

/-! ## Sorted keys -/

theorem field_sortKeys {members : List (Str × Json)} (h : (members.map Prod.fst).Nodup)
    (key : String) :
    field (Json.sortMembers (Json.sortValues members)) key = (field members key).sortKeys := by
  unfold field
  rw [Json.lookup_sortMembers h]
  cases Json.lookup (str key) members <;> rfl

@[simp] theorem isText_sortKeys (value : Json) (text : Str) :
    isText value.sortKeys text = isText value text := by
  cases value <;> rfl

@[simp] theorem boundedString_sortKeys (value : Json) (name : Str) (minimum maximum : Nat) :
    boundedString value.sortKeys name minimum maximum =
      boundedString value name minimum maximum := by
  cases value <;> rfl

@[simp] theorem timestamp_sortKeys (value : Json) (name : Str) :
    timestamp value.sortKeys name = timestamp value name := by
  simp only [timestamp, boundedString_sortKeys]

@[simp] theorem decodeBase64_sortKeys (value : Json) (name : Str) (expected : Option Nat) :
    decodeBase64 value.sortKeys name expected = decodeBase64 value name expected := by
  simp only [decodeBase64, boundedString_sortKeys]

@[simp] theorem memberOf_sortKeys (value : Json) (texts : List Str) :
    memberOf value.sortKeys texts = memberOf value texts := by
  cases value <;> rfl

end ZsecShield.Feed
