import ZsecShield.Lib.Json.Value

/-!
# Reading JSON

The scanner of `json.loads`.  It descends through containers as deep as the
interpreter lets it, and reads an integer only up to the interpreter's digit limit.
A reader may refuse a key that occurs twice and
the constants that stand for non-finite numbers.  The loops over elements and members take fuel.  Each round
consumes input, so the length of the input is enough (`elements_fuel`,
`members_fuel`), and running out is an unreachable fault.
-/

namespace Json

open Text

/-- What the interpreter and the caller allow. -/
structure Reader where
  depth : Nat
  digits : Nat
  unique : Bool
  finite : Bool

/-- Why a text was refused. -/
inductive DecodeFault where
  | malformed
  | digits
  | recursion
  | duplicateKey (key : Str)
  | constant (name : Str)
deriving DecidableEq

/-- A scanned value and the text after it. -/
abbrev Scan (α : Type) := Except DecodeFault (α × Str)

/-- Change the value of a scan. -/
def Scan.map {α β : Type} (f : α → β) (r : Scan α) : Scan β :=
  match r with
  | .ok (a, rest) => .ok (f a, rest)
  | .error fault => .error fault

def isSpace (c : CodePoint) : Bool :=
  c = ofChar ' ' || c = ofChar '\t' || c = ofChar '\n' || c = ofChar '\r'

def skipSpace (s : Str) : Str := s.dropWhile isSpace

/-! ## Strings -/

def hexDigit (c : CodePoint) : Option Nat :=
  if isDigit c then some (c.val - 48)
  else if 97 ≤ c.val ∧ c.val ≤ 102 then some (c.val - 87)
  else if 65 ≤ c.val ∧ c.val ≤ 70 then some (c.val - 55)
  else none

/-- The code point that four hexadecimal digits name. -/
def hexPoint (a b c d : CodePoint) : Option CodePoint :=
  (hexDigit a).bind fun x => (hexDigit b).bind fun y => (hexDigit c).bind fun z =>
    (hexDigit d).bind fun w =>
      if h : 4096 * x + 256 * y + 16 * z + w < 0x110000 then
        some ⟨4096 * x + 256 * y + 16 * z + w, h⟩
      else none

/-- The character a short escape stands for. -/
def shortEscape (c : CodePoint) : Option CodePoint :=
  if c = ofChar '"' || c = ofChar '\\' || c = ofChar '/' then some c
  else if c = ofChar 'b' then some 8
  else if c = ofChar 'f' then some 12
  else if c = ofChar 'n' then some 10
  else if c = ofChar 'r' then some 13
  else if c = ofChar 't' then some 9
  else none

/-- A code point of a string, and whether it was written as `\uXXXX`. -/
abbrev Point := Bool × CodePoint

/-- The points up to the closing quote. -/
def scanPoints : Str → Scan (List Point)
  | [] => .error .malformed
  | c :: s =>
      if c = ofChar '"' then .ok ([], s)
      else if c.val < 32 then .error .malformed
      else if c = ofChar '\\' then
        match s with
        | [] => .error .malformed
        | e :: s =>
            if e = ofChar 'u' then
              match s with
              | h₁ :: h₂ :: h₃ :: h₄ :: s =>
                  match hexPoint h₁ h₂ h₃ h₄ with
                  | some x => (scanPoints s).map ((true, x) :: ·)
                  | none => .error .malformed
              | _ => .error .malformed
            else
              match shortEscape e with
              | some x => (scanPoints s).map ((false, x) :: ·)
              | none => .error .malformed
      else (scanPoints s).map ((false, c) :: ·)

def isHigh (c : CodePoint) : Bool := decide (0xD800 ≤ c.val) && decide (c.val ≤ 0xDBFF)

def isLow (c : CodePoint) : Bool := decide (0xDC00 ≤ c.val) && decide (c.val ≤ 0xDFFF)

/-- The character a surrogate pair stands for. -/
def joinSurrogates (high low : CodePoint) : CodePoint :=
  ⟨0x10000 + (high.val - 0xD800) % 1024 * 1024 + (low.val - 0xDC00) % 1024, by omega⟩

/-- The string of the points: a pair of escaped surrogates is one character. -/
def joinPoints : List Point → Str
  | [] => []
  | [(_, c)] => [c]
  | (escaped, c) :: (escaped', c') :: points =>
      if escaped && escaped' && isHigh c && isLow c' then joinSurrogates c c' :: joinPoints points
      else c :: joinPoints ((escaped', c') :: points)

/-- A string, from behind its opening quote. -/
def scanString (s : Str) : Scan Str := (scanPoints s).map joinPoints

/-! ## Numbers -/

/-- `-?`: whether there is a minus sign, and what follows. -/
def scanSign (s : Str) : Bool × Str :=
  match s with
  | [] => (false, [])
  | c :: rest => if c = ofChar '-' then (true, rest) else (false, c :: rest)

/-- `0|[1-9][0-9]*`: the digits and the rest. -/
def scanWhole (s : Str) : Option (Str × Str) :=
  match s with
  | [] => none
  | c :: rest =>
      if c = ofChar '0' then some ([c], rest)
      else if isDigit c then some ((c :: rest).takeWhile isDigit, (c :: rest).dropWhile isDigit)
      else none

/-- `(\.[0-9]+)?`: the digits and the rest. -/
def scanFraction (s : Str) : Option (Str × Str) :=
  match s with
  | point :: c :: rest =>
      if point = ofChar '.' && isDigit c then
        some ((c :: rest).takeWhile isDigit, (c :: rest).dropWhile isDigit)
      else none
  | _ => none

/-- `[-+]?`: whether there is a minus sign, and what follows. -/
def scanPower (s : Str) : Bool × Str :=
  match s with
  | [] => (false, [])
  | c :: rest => if c = ofChar '+' then (false, rest) else scanSign (c :: rest)

/-- `([eE][-+]?[0-9]+)?`: the exponent and the rest. -/
def scanExponent (s : Str) : Option (Int × Str) :=
  match s with
  | [] => none
  | e :: rest =>
      if e = ofChar 'e' || e = ofChar 'E' then
        let (negative, rest) := scanPower rest
        let digits := rest.takeWhile isDigit
        if digits = [] then none
        else some (if negative then -(ofDigits digits : Int) else ofDigits digits,
          rest.dropWhile isDigit)
      else none

def scanNumber (r : Reader) (s : Str) : Scan Json :=
  let (negative, s) := scanSign s
  match scanWhole s with
  | none => .error .malformed
  | some (whole, rest) =>
      match scanFraction rest, scanExponent ((scanFraction rest).elim rest Prod.snd) with
      | none, none =>
          if whole.length ≤ r.digits then
            .ok (.int (if negative then -(ofDigits whole : Int) else ofDigits whole), rest)
          else .error .digits
      | fraction, power =>
          let places := fraction.elim [] Prod.fst
          let exponent := power.elim 0 Prod.fst - (places.length : Int)
          .ok (.float (decimalFloat negative (ofDigits (whole ++ places)) exponent),
            power.elim (fraction.elim rest Prod.snd) Prod.snd)

/-! ## Constants and containers -/

/-- A constant that stands for a non-finite number. -/
def constant (r : Reader) (name : Str) (x : Float) (rest : Str) : Scan Json :=
  if r.finite then .error (.constant name) else .ok (.float x, rest)

/-- A dictionary of the scanned members. -/
def makeObject (r : Reader) (members : List (Str × Json)) : Except DecodeFault Json :=
  if r.unique then go [] members
  else .ok (.obj (members.foldl (fun result m => insertMember result m.1 m.2) []))
where
  /-- The members so far are in `result`, in reverse order. -/
  go (result : List (Str × Json)) : List (Str × Json) → Except DecodeFault Json
    | [] => .ok (.obj result.reverse)
    | (k, v) :: members =>
        if k ∈ result.map Prod.fst then .error (.duplicateKey k) else go ((k, v) :: result) members

/-- The elements from the first one on, up to the closing bracket. -/
def elements (item : Str → Scan Json) : Nat → Str → Scan (List Json)
  | 0, _ => .error .malformed
  | fuel + 1, s =>
      match item s with
      | .error fault => .error fault
      | .ok (v, s) =>
          match skipSpace s with
          | [] => .error .malformed
          | c :: s =>
              if c = ofChar ']' then .ok ([v], s)
              else if c = ofChar ',' then (elements item fuel (skipSpace s)).map (v :: ·)
              else .error .malformed

/-- A key, its colon and its value. -/
def member (item : Str → Scan Json) (s : Str) : Scan (Str × Json) :=
  match s with
  | [] => .error .malformed
  | c :: s =>
      if c = ofChar '"' then
        match scanString s with
        | .error fault => .error fault
        | .ok (key, s) =>
            match skipSpace s with
            | [] => .error .malformed
            | c :: s =>
                if c = ofChar ':' then (item (skipSpace s)).map fun v => (key, v)
                else .error .malformed
      else .error .malformed

/-- The members from the first one on, up to the closing brace. -/
def members (item : Str → Scan Json) : Nat → Str → Scan (List (Str × Json))
  | 0, _ => .error .malformed
  | fuel + 1, s =>
      match member item s with
      | .error fault => .error fault
      | .ok (m, s) =>
          match skipSpace s with
          | [] => .error .malformed
          | c :: s =>
              if c = ofChar '}' then .ok ([m], s)
              else if c = ofChar ',' then (members item fuel (skipSpace s)).map (m :: ·)
              else .error .malformed

/-- An array, from behind its opening bracket. -/
def scanArray (item : Str → Scan Json) (s : Str) : Scan Json :=
  match skipSpace s with
  | [] => .error .malformed
  | c :: rest =>
      if c = ofChar ']' then .ok (.arr [], rest)
      else (elements item (rest.length + 2) (c :: rest)).map .arr

/-- An object, from behind its opening brace. -/
def scanObject (r : Reader) (item : Str → Scan Json) (s : Str) : Scan Json :=
  match skipSpace s with
  | [] => .error .malformed
  | c :: rest =>
      if c = ofChar '}' then (makeObject r []).map fun v => (v, rest)
      else
        match members item (rest.length + 2) (c :: rest) with
        | .error fault => .error fault
        | .ok (ms, rest) => (makeObject r ms).map fun v => (v, rest)

/-- One value at the head of the text.  `nested` reads what stands in a container, or is
`none` where no further container may be opened. -/
def scanHead (r : Reader) (nested : Option (Str → Scan Json)) (s : Str) : Scan Json :=
  match s with
  | [] => .error .malformed
  | c :: rest =>
      if c = ofChar '"' then (scanString rest).map .str
      else if c = ofChar '{' then
        match nested with
        | none => .error .recursion
        | some item => scanObject r item rest
      else if c = ofChar '[' then
        match nested with
        | none => .error .recursion
        | some item => scanArray item rest
      else if (Text.str "null").isPrefixOf s then .ok (.null, s.drop 4)
      else if (Text.str "true").isPrefixOf s then .ok (.bool true, s.drop 4)
      else if (Text.str "false").isPrefixOf s then .ok (.bool false, s.drop 5)
      else if (Text.str "NaN").isPrefixOf s then constant r (Text.str "NaN") nan (s.drop 3)
      else if (Text.str "Infinity").isPrefixOf s then constant r (Text.str "Infinity") infinity (s.drop 8)
      else if (Text.str "-Infinity").isPrefixOf s then
        constant r (Text.str "-Infinity") (-infinity) (s.drop 9)
      else scanNumber r s

/-- One value in which at most `depth` containers are open at once. -/
def scanValue (r : Reader) : (depth : Nat) → Str → Scan Json
  | 0, s => scanHead r none s
  | depth + 1, s => scanHead r (some (scanValue r depth)) s

/-- `json.loads`. -/
def loads (r : Reader) (s : Str) : Except DecodeFault Json :=
  match scanValue r r.depth (skipSpace s) with
  | .error fault => .error fault
  | .ok (v, rest) => if skipSpace rest = [] then .ok v else .error .malformed

/-! ## A scan consumes its input -/

theorem length_skipSpace_le (s : Str) : (skipSpace s).length ≤ s.length :=
  (List.dropWhile_sublist _).length_le

theorem Scan.map_eq_ok {α β : Type} {f : α → β} {r : Scan α} {b : β} {rest : Str}
    (h : r.map f = .ok (b, rest)) : ∃ a, r = .ok (a, rest) ∧ f a = b := by
  cases r with
  | error fault => cases h
  | ok p =>
      cases h
      exact ⟨p.1, rfl, rfl⟩

theorem scanPoints_shorter {s : Str} {points : List Point} {rest : Str}
    (h : scanPoints s = .ok (points, rest)) : rest.length < s.length := by
  fun_induction scanPoints s generalizing points with
  | case1 | case3 | case4 | case6 | case7 | case9 => cases h
  | case2 =>
      cases h
      simp
  | case5 | case8 | case10 =>
      rename_i ih
      obtain ⟨points', h, -⟩ := Scan.map_eq_ok h
      have := ih h
      simp only [List.length_cons]
      omega

theorem scanString_shorter {s t rest : Str} (h : scanString s = .ok (t, rest)) :
    rest.length < s.length := by
  obtain ⟨points, h, -⟩ := Scan.map_eq_ok h
  exact scanPoints_shorter h

theorem length_dropWhile_le (p : CodePoint → Bool) (s : Str) : (s.dropWhile p).length ≤ s.length :=
  (List.dropWhile_sublist p).length_le

theorem length_scanSign_le (s : Str) : (scanSign s).2.length ≤ s.length := by
  unfold scanSign
  cases s with
  | nil => simp
  | cons c s =>
      simp only
      split <;> simp

theorem length_scanPower_le (s : Str) : (scanPower s).2.length ≤ s.length := by
  unfold scanPower
  cases s with
  | nil => simp
  | cons c s =>
      simp only
      split
      · simp
      · exact length_scanSign_le _

theorem scanWhole_shorter {s whole rest : Str} (h : scanWhole s = some (whole, rest)) :
    rest.length < s.length := by
  cases s with
  | nil => cases h
  | cons c s =>
      simp only [scanWhole] at h
      split at h
      · cases h
        simp
      · split at h
        · rename_i hdigit
          cases h
          rw [List.dropWhile_cons_of_pos hdigit, List.length_cons]
          have := length_dropWhile_le isDigit s
          omega
        · cases h

theorem scanFraction_le {s places rest : Str} (h : scanFraction s = some (places, rest)) :
    rest.length ≤ s.length := by
  match s, h with
  | point :: c :: s, h =>
      simp only [scanFraction] at h
      split at h
      · cases h
        have := length_dropWhile_le isDigit (c :: s)
        simp only [List.length_cons] at this ⊢
        omega
      · cases h

theorem scanExponent_le {s rest : Str} {n : Int} (h : scanExponent s = some (n, rest)) :
    rest.length ≤ s.length := by
  cases s with
  | nil => cases h
  | cons e s =>
      simp only [scanExponent] at h
      split at h
      · split at h
        · cases h
        · cases h
          have := length_dropWhile_le isDigit (scanPower s).2
          have := length_scanPower_le s
          simp only [List.length_cons]
          omega
      · cases h

theorem scanNumber_shorter {r : Reader} {s rest : Str} {v : Json}
    (h : scanNumber r s = .ok (v, rest)) : rest.length < s.length := by
  simp only [scanNumber] at h
  have hsign := length_scanSign_le s
  split at h
  · cases h
  · rename_i whole rest' hwhole
    have hshort := scanWhole_shorter hwhole
    split at h
    · split at h
      · cases h
        omega
      · cases h
    · cases h
      cases hf : scanFraction rest' with
      | none =>
          cases hp : scanExponent rest' with
          | none => simp [hp]; omega
          | some p =>
              have := scanExponent_le hp
              simp [hp]
              omega
      | some f =>
          have := scanFraction_le hf
          cases hp : scanExponent f.2 with
          | none => simp [hp]; omega
          | some p =>
              have := scanExponent_le hp
              simp [hp]
              omega

/-! ## The loops -/

/-- Whatever an item reader returns is shorter than its input and satisfies `P`. -/
def Reads (P : Json → Prop) (item : Str → Scan Json) : Prop :=
  ∀ s v rest, item s = .ok (v, rest) → rest.length < s.length ∧ P v

section Loops

variable {P : Json → Prop} {item : Str → Scan Json}

theorem Reads.elements (hitem : Reads P item) {fuel : Nat} {s rest : Str} {vs : List Json}
    (h : elements item fuel s = .ok (vs, rest)) :
    rest.length < s.length ∧ ∀ v ∈ vs, P v := by
  induction fuel generalizing s vs with
  | zero => cases h
  | succ fuel ih =>
      rw [Json.elements] at h
      split at h
      · cases h
      · rename_i v s' hv
        obtain ⟨hshort, hP⟩ := hitem _ _ _ hv
        have hskip := length_skipSpace_le s'
        split at h
        · cases h
        · rename_i c t ht
          rw [ht, List.length_cons] at hskip
          split at h
          · cases h
            exact ⟨by omega, by simpa using hP⟩
          · split at h
            · obtain ⟨vs', h', rfl⟩ := Scan.map_eq_ok h
              obtain ⟨hrest, hall⟩ := ih h'
              have hspace := length_skipSpace_le t
              exact ⟨by omega, by simpa [hP] using hall⟩
            · cases h

theorem Reads.member (hitem : Reads P item) {s rest : Str} {m : Str × Json}
    (h : member item s = .ok (m, rest)) : rest.length < s.length ∧ P m.2 := by
  cases s with
  | nil => cases h
  | cons c s =>
      rw [Json.member] at h
      split at h
      · split at h
        · cases h
        · rename_i key s' hkey
          have hshort := scanString_shorter hkey
          have hskip := length_skipSpace_le s'
          split at h
          · cases h
          · rename_i c' t ht
            rw [ht, List.length_cons] at hskip
            split at h
            · obtain ⟨v, h', rfl⟩ := Scan.map_eq_ok h
              obtain ⟨hrest, hP⟩ := hitem _ _ _ h'
              have hspace := length_skipSpace_le t
              exact ⟨by rw [List.length_cons]; omega, hP⟩
            · cases h
      · cases h

theorem Reads.members (hitem : Reads P item) {fuel : Nat} {s rest : Str}
    {ms : List (Str × Json)} (h : members item fuel s = .ok (ms, rest)) :
    rest.length < s.length ∧ ∀ m ∈ ms, P m.2 := by
  induction fuel generalizing s ms with
  | zero => cases h
  | succ fuel ih =>
      rw [Json.members] at h
      split at h
      · cases h
      · rename_i m s' hm
        obtain ⟨hshort, hP⟩ := hitem.member hm
        have hskip := length_skipSpace_le s'
        split at h
        · cases h
        · rename_i c t ht
          rw [ht, List.length_cons] at hskip
          split at h
          · cases h
            exact ⟨by omega, by simpa using hP⟩
          · split at h
            · obtain ⟨ms', h', rfl⟩ := Scan.map_eq_ok h
              obtain ⟨hrest, hall⟩ := ih h'
              have hspace := length_skipSpace_le t
              refine ⟨by omega, fun m' hm' => ?_⟩
              cases hm' with
              | head => exact hP
              | tail _ hm' => exact hall m' hm'
            · cases h

/-- More fuel than there is input makes no difference. -/
theorem elements_fuel (hitem : Reads P item) {n m : Nat} {s : Str} (hn : s.length < n)
    (hm : s.length < m) : elements item n s = elements item m s := by
  induction n generalizing m s with
  | zero => omega
  | succ n ih =>
      cases m with
      | zero => omega
      | succ m =>
          rw [Json.elements, Json.elements]
          cases hv : item s with
          | error fault => rfl
          | ok p =>
              obtain ⟨v, s'⟩ := p
              have hshort := (hitem _ _ _ hv).1
              have hskip := length_skipSpace_le s'
              cases ht : skipSpace s' with
              | nil => simp only [ht]
              | cons c t =>
                  rw [ht, List.length_cons] at hskip
                  have hspace := length_skipSpace_le t
                  simp only [ht]
                  rw [ih (m := m) (s := skipSpace t) (by omega) (by omega)]

theorem members_fuel (hitem : Reads P item) {n m : Nat} {s : Str} (hn : s.length < n)
    (hm : s.length < m) : members item n s = members item m s := by
  induction n generalizing m s with
  | zero => omega
  | succ n ih =>
      cases m with
      | zero => omega
      | succ m =>
          rw [Json.members, Json.members]
          cases hv : member item s with
          | error fault => rfl
          | ok p =>
              obtain ⟨v, s'⟩ := p
              have hshort := (hitem.member hv).1
              have hskip := length_skipSpace_le s'
              cases ht : skipSpace s' with
              | nil => simp only [ht]
              | cons c t =>
                  rw [ht, List.length_cons] at hskip
                  have hspace := length_skipSpace_le t
                  simp only [ht]
                  rw [ih (m := m) (s := skipSpace t) (by omega) (by omega)]

end Loops

/-! ## Repeated keys -/

theorem makeObject_go {result members : List (Str × Json)} {v : Json}
    (h : makeObject.go result members = .ok v) :
    v = .obj (result.reverse ++ members) ∧
      ((result.map Prod.fst).Nodup → ((result.reverse ++ members).map Prod.fst).Nodup) := by
  induction members generalizing result with
  | nil =>
      cases h
      exact ⟨by simp, by simp⟩
  | cons m members ih =>
      obtain ⟨k, w⟩ := m
      rw [makeObject.go] at h
      split at h
      · cases h
      · rename_i hk
        obtain ⟨hv, hnodup⟩ := ih h
        refine ⟨by simpa using hv, fun hresult => ?_⟩
        have := hnodup (by
          rw [List.map_cons, List.nodup_cons]
          exact ⟨hk, hresult⟩)
        simpa using this

theorem makeObject_unique {r : Reader} (hr : r.unique = true) {members : List (Str × Json)} {v : Json}
    (h : makeObject r members = .ok v) :
    v = .obj members ∧ (members.map Prod.fst).Nodup := by
  rw [makeObject, if_pos hr] at h
  obtain ⟨hv, hnodup⟩ := makeObject_go h
  exact ⟨hv, hnodup List.nodup_nil⟩

theorem makeObject_of_nodup {r : Reader} (hr : r.unique = true) {members : List (Str × Json)}
    (h : (members.map Prod.fst).Nodup) : makeObject r members = .ok (.obj members) := by
  have hgo : ∀ (result : List (Str × Json)), ((result.reverse ++ members).map Prod.fst).Nodup →
      makeObject.go result members = .ok (.obj (result.reverse ++ members)) := by
    clear h
    induction members with
    | nil => simp [makeObject.go]
    | cons m members ih =>
        intro result hnodup
        obtain ⟨k, w⟩ := m
        have hk : k ∉ result.map Prod.fst := by
          simp only [List.map_append, List.map_reverse, List.map_cons, List.nodup_append,
            List.nodup_cons] at hnodup
          intro hmem
          exact hnodup.2.2 k (List.mem_reverse.2 hmem) k List.mem_cons_self rfl
        rw [makeObject.go, if_neg hk, ih ((k, w) :: result) (by simpa using hnodup)]
        simp
  rw [makeObject, if_pos hr]
  exact hgo [] h

theorem makeObject_nil {r : Reader} (hr : r.unique = true) : makeObject r [] = .ok (.obj []) :=
  makeObject_of_nodup hr List.nodup_nil

theorem scanNumber_cases {r : Reader} {s rest : Str} {v : Json}
    (h : scanNumber r s = .ok (v, rest)) : (∃ n, v = .int n) ∨ ∃ x, v = .float x := by
  simp only [scanNumber] at h
  split at h
  · cases h
  · split at h
    · split at h
      · cases h
        exact .inl ⟨_, rfl⟩
      · cases h
    · cases h
      exact .inr ⟨_, rfl⟩

theorem constant_eq_ok {r : Reader} {name rest rest' : Str} {x : Float} {v : Json}
    (h : constant r name x rest = .ok (v, rest')) : v = .float x ∧ rest' = rest := by
  unfold constant at h
  split at h
  · cases h
  · cases h
    exact ⟨rfl, rfl⟩

/-- The head reader reads distinct values from a shorter rest if the nested reader does. -/
theorem scanHead_reads {r : Reader} (hr : r.unique = true) {nested : Option (Str → Scan Json)}
    (hnested : ∀ item, nested = some item → Reads Distinct item) :
    Reads Distinct (scanHead r nested) := by
  intro s v rest h
  cases s with
  | nil => cases h
  | cons c s =>
      have hdrop : ∀ n, 0 < n → ((c :: s).drop n).length < (c :: s).length := by
        intro n hn
        simp only [List.length_drop, List.length_cons]
        omega
      simp only [scanHead] at h
      split at h
      · obtain ⟨t, h', rfl⟩ := Scan.map_eq_ok h
        have := scanString_shorter h'
        exact ⟨by rw [List.length_cons]; omega, .str t⟩
      · split at h
        · cases nested with
          | none => cases h
          | some item =>
              simp only [scanObject] at h
              have hskip := length_skipSpace_le s
              split at h
              · cases h
              · rename_i c' t ht
                rw [ht, List.length_cons] at hskip
                split at h
                · rw [makeObject_nil hr] at h
                  cases h
                  exact ⟨by rw [List.length_cons]; omega, .obj _ List.nodup_nil (by simp)⟩
                · split at h
                  · cases h
                  · rename_i ms rest' hms
                    obtain ⟨hshort, hall⟩ := (hnested item rfl).members hms
                    rw [List.length_cons] at hshort
                    cases ho : makeObject r ms with
                    | error fault =>
                        rw [ho] at h
                        cases h
                    | ok w =>
                        rw [ho] at h
                        cases h
                        obtain ⟨rfl, hnodup⟩ := makeObject_unique hr ho
                        exact ⟨by rw [List.length_cons]; omega, .obj _ hnodup hall⟩
        · split at h
          · cases nested with
            | none => cases h
            | some item =>
                simp only [scanArray] at h
                have hskip := length_skipSpace_le s
                split at h
                · cases h
                · rename_i c' t ht
                  rw [ht, List.length_cons] at hskip
                  split at h
                  · cases h
                    exact ⟨by rw [List.length_cons]; omega, .arr _ (by simp)⟩
                  · obtain ⟨vs, h', rfl⟩ := Scan.map_eq_ok h
                    obtain ⟨hshort, hall⟩ := (hnested item rfl).elements h'
                    rw [List.length_cons] at hshort
                    exact ⟨by rw [List.length_cons]; omega, .arr _ hall⟩
          · split at h
            · cases h
              exact ⟨hdrop 4 (by omega), .null⟩
            · split at h
              · cases h
                exact ⟨hdrop 4 (by omega), .bool true⟩
              · split at h
                · cases h
                  exact ⟨hdrop 5 (by omega), .bool false⟩
                · split at h
                  · obtain ⟨rfl, rfl⟩ := constant_eq_ok h
                    exact ⟨hdrop 3 (by omega), .float _⟩
                  · split at h
                    · obtain ⟨rfl, rfl⟩ := constant_eq_ok h
                      exact ⟨hdrop 8 (by omega), .float _⟩
                    · split at h
                      · obtain ⟨rfl, rfl⟩ := constant_eq_ok h
                        exact ⟨hdrop 9 (by omega), .float _⟩
                      · have hshort := scanNumber_shorter h
                        obtain ⟨n, rfl⟩ | ⟨x, rfl⟩ := scanNumber_cases h
                        · exact ⟨hshort, .int n⟩
                        · exact ⟨hshort, .float x⟩

theorem scanValue_reads {r : Reader} (hr : r.unique = true) (depth : Nat) :
    Reads Distinct (scanValue r depth) := by
  induction depth with
  | zero => exact scanHead_reads hr (by simp)
  | succ depth ih =>
      refine scanHead_reads hr fun item h => ?_
      cases h
      exact ih

/-- A reader that refuses repeated keys accepts none. -/
theorem distinct_of_loads {r : Reader} (hr : r.unique = true) {s : Str} {v : Json}
    (h : loads r s = .ok v) : Distinct v := by
  unfold loads at h
  split at h
  · cases h
  · rename_i w rest hw
    split at h
    · cases h
      exact (scanValue_reads hr _ _ _ _ hw).2
    · cases h

end Json
