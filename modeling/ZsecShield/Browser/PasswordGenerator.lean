import ZsecShield.Lib.Number
import Mathlib.Data.Int.CardIntervalMod

/-!
# Generated passwords

`GeneratePassword` draws from a stream of random bytes, four for each attempt of `NextInt`.  A
generated password has the length that was asked for and a character of every selected group, and
no other character (`generatePassword_spec`).  `NextInt` accepts as many words for one result as for
another (`card_accepted`).
-/

namespace ZsecShield.Browser.PasswordGenerator

open Text (Str CodePoint str)

/-! ## Options -/

/-- `BrowserPasswordGenerationOptions`. -/
structure GenerationOptions where
  length : Int
  includeUppercase : Bool
  includeLowercase : Bool
  includeDigits : Bool
  includeSymbols : Bool

def minimumGeneratedPasswordLength : Int := 12
def maximumGeneratedPasswordLength : Int := 128

/-- `ValidateGenerationOptions`. -/
def validateGenerationOptions : Option GenerationOptions → Option Str
  | none => some (str "Password generation options are required.")
  | some options =>
      if options.length < minimumGeneratedPasswordLength ∨
          maximumGeneratedPasswordLength < options.length then
        some (str "Password length must be between " ++ Text.intText minimumGeneratedPasswordLength ++
          str " and " ++ Text.intText maximumGeneratedPasswordLength ++ str " characters.")
      else if options.includeUppercase = false ∧ options.includeLowercase = false ∧
          options.includeDigits = false ∧ options.includeSymbols = false then
        some (str "Select at least one character group.")
      else none

def uppercase : Str := str "ABCDEFGHJKLMNPQRSTUVWXYZ"
def lowercase : Str := str "abcdefghijkmnopqrstuvwxyz"
def digits : Str := str "23456789"
def symbols : Str := str "!@#$%^&*()-_=+[]\x7b\x7d:,.?"

/-- `groups`. -/
def GenerationOptions.groups (options : GenerationOptions) : List Str :=
  (if options.includeUppercase then [uppercase] else []) ++
  (if options.includeLowercase then [lowercase] else []) ++
  (if options.includeDigits then [digits] else []) ++
  (if options.includeSymbols then [symbols] else [])

/-! ## Random numbers -/

/-- What ends a call without a password. -/
inductive Stop where
  | argument (text : Str)
  | argumentOutOfRange
  | indexOutOfRange
  /-- The stream has no further bytes: the loop of `NextInt` goes on. -/
  | waiting
deriving DecidableEq

/-- A program that draws from a stream of random bytes. -/
abbrev Draw (α : Type) := StateT (List UInt8) (Except Stop) α

/-- `range`. -/
def range : Nat := 2 ^ 32

/-- `limit`. -/
def limit (upperExclusive : Nat) : Nat := range - range % upperExclusive

/-- What a turn of the loop does with a word: it returns a number or tries again. -/
def accept (upperExclusive word : Nat) : Option Nat :=
  if limit upperExclusive ≤ word then none else some (word % upperExclusive)

/-- `BitConverter.ToUInt32(bytes, 0)`. -/
def toUInt32 (a b c d : UInt8) : Nat :=
  a.toNat + 256 * (b.toNat + 256 * (c.toNat + 256 * d.toNat))

/-- The loop of `NextInt`. -/
def drawBelow (upperExclusive : Nat) : List UInt8 → Except Stop (Nat × List UInt8)
  | a :: b :: c :: d :: stream =>
      match accept upperExclusive (toUInt32 a b c d) with
      | none => drawBelow upperExclusive stream
      | some n => .ok (n, stream)
  | _ => .error .waiting

/-- `NextInt`. -/
def nextInt (upperExclusive : Int) : Draw Nat := fun stream =>
  if upperExclusive ≤ 0 then .error .argumentOutOfRange
  else drawBelow upperExclusive.toNat stream

/-! ## Passwords -/

/-- `chars[index]`. -/
def get (chars : List CodePoint) (index : Nat) : Draw CodePoint := fun stream =>
  match chars[index]? with
  | none => .error .indexOutOfRange
  | some c => .ok (c, stream)

/-- `chars[index] = c`. -/
def put (chars : List CodePoint) (index : Nat) (c : CodePoint) : Draw (List CodePoint) :=
  fun stream =>
    if index < chars.length then .ok (chars.set index c, stream) else .error .indexOutOfRange

/-- `result[position] = group[NextInt(group.Length)]`. -/
def putRandom (group : Str) (result : List CodePoint) (position : Nat) : Draw (List CodePoint) := do
  let index ← nextInt group.length
  let c ← get group index
  put result position c

/-- The loop that puts one character of each group. -/
def putGroups : List Str → List CodePoint → Nat → Draw (List CodePoint × Nat)
  | [], result, position => return (result, position)
  | group :: groups, result, position => do
      let result ← putRandom group result position
      putGroups groups result (position + 1)

/-- The loop that fills the result; the number counts what is left of it. -/
def fill (all : Str) : Nat → List CodePoint → Nat → Draw (List CodePoint)
  | 0, result, _ => return result
  | remaining + 1, result, position => do
      let result ← putRandom all result position
      fill all remaining result (position + 1)

/-- The loop that shuffles the result, from `index` on down. -/
def shuffle : Nat → List CodePoint → Draw (List CodePoint)
  | 0, result => return result
  | index + 1, result => do
      let swap ← nextInt (index + 1 + 1 : Nat)
      let temporary ← get result (index + 1)
      let c ← get result swap
      let result ← put result (index + 1) c
      let result ← put result swap temporary
      shuffle index result

/-- `GeneratePassword` behind its check. -/
def generate (options : GenerationOptions) : Draw Str := do
  let all := options.groups.flatten
  let (result, position) ← putGroups options.groups (List.replicate options.length.toNat 0) 0
  let result ← fill all (result.length - position) result position
  shuffle (result.length - 1) result

/-- `GeneratePassword`. -/
def generatePassword : Option GenerationOptions → Draw Str
  | none => fun _ => .error (.argument ((validateGenerationOptions none).getD []))
  | some options =>
      match validateGenerationOptions (some options) with
      | some error => fun _ => .error (.argument error)
      | none => generate options

/-! ## No index leaves its array -/

/-- A program that returns a value with `post`, or waits for more bytes. -/
def Returns {α : Type} (m : Draw α) (post : α → Prop) : Prop :=
  ∀ stream, (∃ a rest, m stream = .ok (a, rest) ∧ post a) ∨ m stream = .error .waiting

variable {α β : Type}

theorem Returns.pure {a : α} {post : α → Prop} (h : post a) : Returns (pure a : Draw α) post :=
  fun stream => .inl ⟨a, stream, rfl, h⟩

theorem Returns.mono {m : Draw α} {post post' : α → Prop} (h : Returns m post)
    (himp : ∀ a, post a → post' a) : Returns m post' := by
  intro stream
  rcases h stream with ⟨a, rest, hok, hpost⟩ | hwait
  · exact .inl ⟨a, rest, hok, himp a hpost⟩
  · exact .inr hwait

theorem Returns.bind {m : Draw α} {f : α → Draw β} {mid : α → Prop} {post : β → Prop}
    (hm : Returns m mid) (hf : ∀ a, mid a → Returns (f a) post) : Returns (m >>= f) post := by
  intro stream
  have heq : (m >>= f) stream = (m stream).bind fun r => f r.1 r.2 := rfl
  rw [heq]
  rcases hm stream with ⟨a, rest, hok, hmid⟩ | hwait
  · rw [hok]
    exact hf a hmid rest
  · rw [hwait]
    exact .inr rfl

theorem limit_le (n : Nat) : limit n ≤ range := Nat.sub_le _ _

/-- The loop returns a number below the bound. -/
theorem returns_drawBelow {n : Nat} (h : 0 < n) :
    Returns (drawBelow n : Draw Nat) fun r => r < n := by
  intro stream
  induction stream using drawBelow.induct n with
  | case1 a b c d stream haccept ih =>
      rw [drawBelow, haccept]
      exact ih
  | case2 a b c d stream r haccept =>
      rw [drawBelow, haccept]
      refine .inl ⟨r, stream, rfl, ?_⟩
      unfold accept at haccept
      split at haccept
      · cases haccept
      · cases haccept
        exact Nat.mod_lt _ h
  | case3 stream hshort =>
      rw [drawBelow]
      · exact .inr rfl
      · exact hshort

theorem returns_nextInt {n : Nat} (h : 0 < n) : Returns (nextInt n) fun r => r < n := by
  intro stream
  have hpos : ¬ (n : Int) ≤ 0 := by omega
  simp only [nextInt, if_neg hpos, Int.toNat_natCast]
  exact returns_drawBelow h stream

theorem returns_get {chars : List CodePoint} {index : Nat} (h : index < chars.length) :
    Returns (get chars index) fun c => chars[index]? = some c := by
  intro stream
  refine .inl ⟨chars[index], stream, ?_, List.getElem?_eq_getElem h⟩
  simp only [get, List.getElem?_eq_getElem h]

theorem returns_put {chars : List CodePoint} {index : Nat} (c : CodePoint)
    (h : index < chars.length) :
    Returns (put chars index c) fun result => result = chars.set index c := by
  intro stream
  exact .inl ⟨_, stream, if_pos h, rfl⟩

theorem returns_putRandom {group : Str} {result : List CodePoint} {position : Nat}
    (hgroup : group ≠ []) (hposition : position < result.length) :
    Returns (putRandom group result position) fun result' =>
      ∃ c ∈ group, result' = result.set position c := by
  refine (returns_nextInt (List.length_pos_iff.mpr hgroup)).bind fun index hindex => ?_
  refine (returns_get hindex).bind fun c hc => ?_
  intro stream
  rcases returns_put c hposition stream with ⟨result', rest, hok, heq⟩ | hwait
  · exact .inl ⟨result', rest, hok, c, List.mem_of_getElem? hc, heq⟩
  · exact .inr hwait

/-! ## What is put where -/

theorem take_set {chars : List CodePoint} {position : Nat} (c : CodePoint)
    (h : position < chars.length) :
    (chars.set position c).take (position + 1) = chars.take position ++ [c] := by
  have hlength : (chars.take position).length = position := List.length_take_of_le h.le
  rw [List.set_eq_take_append_cons_drop, if_pos h, List.take_append, hlength,
    List.take_of_length_le (by omega), Nat.add_sub_cancel_left, List.take_succ_cons, List.take_zero]

/-- One character of each group comes next. -/
theorem returns_putGroups {groups : List Str} (hgroups : ∀ group ∈ groups, group ≠ []) :
    ∀ (result : List CodePoint) (position : Nat), position + groups.length ≤ result.length →
      Returns (putGroups groups result position) fun r =>
        r.1.length = result.length ∧ r.2 = position + groups.length ∧
          ∃ chars : List CodePoint, r.1.take r.2 = result.take position ++ chars ∧
            List.Forall₂ (fun c group => c ∈ group) chars groups := by
  induction groups with
  | nil =>
      intro result position _
      exact .pure ⟨rfl, rfl, [], (List.append_nil _).symm, .nil⟩
  | cons group groups ih =>
      intro result position hlength
      rw [List.length_cons] at hlength
      have hposition : position < result.length := by omega
      refine (returns_putRandom (hgroups group List.mem_cons_self) hposition).bind ?_
      rintro result' ⟨c, hc, rfl⟩
      have hrest := ih (fun g hg => hgroups g (List.mem_cons_of_mem _ hg))
        (result.set position c) (position + 1) (by rw [List.length_set]; omega)
      refine hrest.mono fun r hr => ?_
      obtain ⟨hsize, hnext, chars, htake, hforall⟩ := hr
      refine ⟨by rw [hsize, List.length_set], by rw [hnext, List.length_cons]; omega,
        c :: chars, ?_, .cons hc hforall⟩
      rw [htake, take_set c hposition, List.append_assoc, List.singleton_append]

/-- What is left is filled from all groups. -/
theorem returns_fill {all : Str} (hall : all ≠ []) :
    ∀ (remaining : Nat) (result : List CodePoint) (position : Nat),
      position + remaining = result.length →
        Returns (fill all remaining result position) fun r =>
          r.length = result.length ∧
            ∃ chars : List CodePoint, r = result.take position ++ chars ∧ ∀ c ∈ chars, c ∈ all := by
  intro remaining
  induction remaining with
  | zero =>
      intro result position hlength
      refine .pure ⟨rfl, [], ?_, fun _ hc => absurd hc List.not_mem_nil⟩
      rw [List.append_nil, List.take_of_length_le (by omega)]
  | succ remaining ih =>
      intro result position hlength
      have hposition : position < result.length := by omega
      refine (returns_putRandom hall hposition).bind ?_
      rintro result' ⟨c, hc, rfl⟩
      have hrest := ih (result.set position c) (position + 1) (by rw [List.length_set]; omega)
      refine hrest.mono fun r hr => ?_
      obtain ⟨hsize, chars, heq, hchars⟩ := hr
      refine ⟨by rw [hsize, List.length_set], c :: chars, ?_, ?_⟩
      · rw [heq, take_set c hposition, List.append_assoc, List.singleton_append]
      · intro x hx
        rcases List.mem_cons.mp hx with rfl | hx
        · exact hc
        · exact hchars x hx

/-! ## The shuffle is a permutation -/

/-- Two characters change places. -/
theorem perm_swap {chars : List CodePoint} {i j : Nat} {c d : CodePoint} (hi : chars[i]? = some c)
    (hj : chars[j]? = some d) : ((chars.set i d).set j c).Perm chars := by
  obtain ⟨hlti, rfl⟩ := List.getElem?_eq_some_iff.mp hi
  obtain ⟨hltj, rfl⟩ := List.getElem?_eq_some_iff.mp hj
  exact List.set_set_perm hlti hltj

theorem returns_shuffle : ∀ (index : Nat) (result : List CodePoint), index < result.length →
    Returns (shuffle index result) fun r => r.Perm result := by
  intro index
  induction index with
  | zero => exact fun _ _ => .pure (List.Perm.refl _)
  | succ index ih =>
      intro result hindex
      refine (returns_nextInt (Nat.succ_pos _)).bind fun swap hswap => ?_
      refine (returns_get hindex).bind fun temporary htemporary => ?_
      refine (returns_get (by omega)).bind fun c hc => ?_
      refine (returns_put c hindex).bind ?_
      rintro result' rfl
      refine (returns_put temporary (by rw [List.length_set]; omega)).bind ?_
      rintro result' rfl
      have hperm := perm_swap htemporary hc
      refine (ih _ (by rw [hperm.length_eq]; omega)).mono fun r hr => hr.trans hperm

/-! ## Generated passwords -/

theorem groups_ne_nil (options : GenerationOptions) : ∀ group ∈ options.groups, group ≠ [] := by
  have hall : ∀ group ∈ [uppercase, lowercase, digits, symbols], group ≠ [] := by decide
  intro group hgroup
  refine hall group ?_
  simp only [GenerationOptions.groups, List.mem_append, List.mem_ite_nil_right,
    List.mem_singleton] at hgroup
  simp only [List.mem_cons, List.not_mem_nil, or_false]
  tauto

theorem length_groups_le (options : GenerationOptions) : options.groups.length ≤ 4 := by
  have hone : ∀ (c : Bool) (group : Str), (if c then [group] else []).length ≤ 1 := by
    intro c group
    cases c <;> simp
  have hupper := hone options.includeUppercase uppercase
  have hlower := hone options.includeLowercase lowercase
  have hdigits := hone options.includeDigits digits
  have hsymbols := hone options.includeSymbols symbols
  simp only [GenerationOptions.groups, List.length_append]
  omega

/-- What the check leaves: a length in its bounds and a group. -/
theorem of_validateGenerationOptions {options : GenerationOptions}
    (h : validateGenerationOptions (some options) = none) :
    12 ≤ options.length ∧ options.groups ≠ [] := by
  rw [validateGenerationOptions] at h
  by_cases hlength : options.length < minimumGeneratedPasswordLength ∨
      maximumGeneratedPasswordLength < options.length
  · rw [if_pos hlength] at h
    cases h
  · rw [if_neg hlength] at h
    rw [not_or, Int.not_lt, Int.not_lt] at hlength
    refine ⟨hlength.1, fun hnil => ?_⟩
    rw [if_pos (by simpa [GenerationOptions.groups, and_assoc] using hnil)] at h
    cases h

/-- The characters of a password: as many as were asked for, from the groups that were selected,
and one at least from each of them. -/
structure Meets (options : GenerationOptions) (password : Str) : Prop where
  length : (password.length : Int) = options.length
  selected : ∀ c ∈ password, ∃ group ∈ options.groups, c ∈ group
  covered : ∀ group ∈ options.groups, ∃ c ∈ password, c ∈ group

theorem exists_of_forall₂ {R : α → β → Prop} {xs : List α} {ys : List β}
    (h : List.Forall₂ R xs ys) :
    (∀ x ∈ xs, ∃ y ∈ ys, R x y) ∧ ∀ y ∈ ys, ∃ x ∈ xs, R x y := by
  induction h with
  | nil => simp
  | cons hxy _ ih =>
      refine ⟨List.forall_mem_cons.mpr ⟨⟨_, List.mem_cons_self, hxy⟩, fun x hx => ?_⟩,
        List.forall_mem_cons.mpr ⟨⟨_, List.mem_cons_self, hxy⟩, fun y hy => ?_⟩⟩
      · obtain ⟨y, hy, hR⟩ := ih.1 x hx
        exact ⟨y, List.mem_cons_of_mem _ hy, hR⟩
      · obtain ⟨x, hx, hR⟩ := ih.2 y hy
        exact ⟨x, List.mem_cons_of_mem _ hx, hR⟩

theorem generatePassword_returns {options : GenerationOptions}
    (h : validateGenerationOptions (some options) = none) :
    Returns (generatePassword (some options)) (Meets options) := by
  obtain ⟨hminimum, hselected⟩ := of_validateGenerationOptions h
  have hfour := length_groups_le options
  have hne := groups_ne_nil options
  have hall : options.groups.flatten ≠ [] := by
    obtain ⟨group, hgroup⟩ := List.exists_mem_of_ne_nil _ hselected
    exact fun hnil => hne group hgroup (List.flatten_eq_nil_iff.mp hnil group hgroup)
  have hbody : Returns (generate options) (Meets options) := by
    refine (returns_putGroups hne _ _ (by rw [List.length_replicate]; omega)).bind ?_
    rintro ⟨result, position⟩ ⟨hsize, hposition, chars, htake, hforall⟩
    rw [List.length_replicate] at hsize
    rw [Nat.zero_add] at hposition
    rw [List.take_zero, List.nil_append] at htake
    dsimp only at hsize hposition htake ⊢
    refine (returns_fill hall _ _ _ (by omega)).bind ?_
    rintro filled ⟨hfilled, rest, heq, hrest⟩
    refine (returns_shuffle _ _ (by omega)).mono fun password hperm => ?_
    rw [htake] at heq
    refine ⟨?_, fun c hc => ?_, fun group hgroup => ?_⟩
    · rw [hperm.length_eq, hfilled, hsize]
      omega
    · rw [hperm.mem_iff, heq, List.mem_append] at hc
      rcases hc with hc | hc
      · exact (exists_of_forall₂ hforall).1 c hc
      · exact List.mem_flatten.mp (hrest c hc)
    · obtain ⟨c, hc, hmem⟩ := (exists_of_forall₂ hforall).2 group hgroup
      exact ⟨c, hperm.mem_iff.mpr (heq ▸ List.mem_append_left rest hc), hmem⟩
  intro stream
  rw [generatePassword, h]
  exact hbody stream

/-! ## No result is favoured -/

/-- The bytes of a word. -/
def wordBytes (word : Nat) : List UInt8 :=
  [UInt8.ofNat word, UInt8.ofNat (word / 256), UInt8.ofNat (word / 65536),
    UInt8.ofNat (word / 16777216)]

theorem toUInt32_wordBytes {word : Nat} (h : word < range) :
    toUInt32 (UInt8.ofNat word) (UInt8.ofNat (word / 256)) (UInt8.ofNat (word / 65536))
      (UInt8.ofNat (word / 16777216)) = word := by
  simp only [toUInt32, UInt8.toNat_ofNat']
  unfold range at h
  omega

/-- `NextInt` returns what a turn of its loop returns, and waits otherwise. -/
theorem nextInt_wordBytes {upperExclusive word : Nat} (hpos : 0 < upperExclusive)
    (hword : word < range) :
    nextInt upperExclusive (wordBytes word) =
      match accept upperExclusive word with
      | none => .error .waiting
      | some n => .ok (n, []) := by
  have hint : ¬ (upperExclusive : Int) ≤ 0 := by omega
  simp only [nextInt, if_neg hint, Int.toNat_natCast, wordBytes, drawBelow,
    toUInt32_wordBytes hword]

/-- The words for which `NextInt` returns a number. -/
def accepted (upperExclusive n : Nat) : Finset Nat :=
  (Finset.range range).filter fun word => nextInt upperExclusive (wordBytes word) = .ok (n, [])

theorem mem_accepted {upperExclusive n word : Nat} (hpos : 0 < upperExclusive) :
    word ∈ accepted upperExclusive n ↔ word < limit upperExclusive ∧ word % upperExclusive = n := by
  have hle := limit_le upperExclusive
  rw [accepted, Finset.mem_filter, Finset.mem_range]
  constructor
  · rintro ⟨hword, hreturn⟩
    rw [nextInt_wordBytes hpos hword, accept] at hreturn
    by_cases hlimit : limit upperExclusive ≤ word
    · rw [if_pos hlimit] at hreturn
      cases hreturn
    · rw [if_neg hlimit] at hreturn
      cases hreturn
      exact ⟨by omega, rfl⟩
  · rintro ⟨hlimit, rfl⟩
    have hword : word < range := by omega
    rw [nextInt_wordBytes hpos hword, accept, if_neg (by omega)]
    exact ⟨hword, rfl⟩

theorem card_accepted {upperExclusive n : Nat} (h : n < upperExclusive) :
    (accepted upperExclusive n).card = range / upperExclusive := by
  have hpos : 0 < upperExclusive := Nat.zero_lt_of_lt h
  have hlimit : limit upperExclusive = upperExclusive * (range / upperExclusive) := by
    have := Nat.div_add_mod range upperExclusive
    unfold limit
    omega
  have heq : accepted upperExclusive n =
      (Finset.range (limit upperExclusive)).filter (· ≡ n [MOD upperExclusive]) := by
    ext word
    rw [mem_accepted hpos, Finset.mem_filter, Finset.mem_range, Nat.ModEq, Nat.mod_eq_of_lt h]
  rw [heq, ← Nat.count_eq_card_filter_range, Nat.count_modEq_card _ hpos, hlimit,
    Nat.mul_mod_right, if_neg (Nat.not_lt_zero _), Nat.mul_div_cancel_left _ hpos, Nat.add_zero]

/-- For options that pass the check and any stream, a password meets its options unless the stream
ends too early; and every result of `NextInt` is returned for as many words as any other. -/
theorem generatePassword_spec :
    (∀ options : Option GenerationOptions, validateGenerationOptions options = none →
      ∃ selected : GenerationOptions, options = some selected ∧
        Returns (generatePassword options) (Meets selected)) ∧
    ∀ upperExclusive : Nat, 1 ≤ upperExclusive → upperExclusive ≤ 2 ^ 31 - 1 →
      ∀ n < upperExclusive, (accepted upperExclusive n).card = 2 ^ 32 / upperExclusive := by
  refine ⟨fun options h => ?_, fun upperExclusive _ _ n hn => card_accepted hn⟩
  cases options with
  | none => cases h
  | some selected => exact ⟨selected, rfl, generatePassword_returns h⟩

end ZsecShield.Browser.PasswordGenerator
