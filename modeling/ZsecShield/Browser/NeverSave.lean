import ZsecShield.Browser.PromptSession
import Mathlib.Data.List.Sort

/-!
# The never-save list

`SetNeverSaveOrigin` keeps the sites for which no password is saved as a list in the settings.  Every
call normalizes the list again, cuts it, drops what is there twice and sorts it.  Of a list that calls
have built nothing is lost by that (`normalizeNeverSaveOrigins_eq`), so that the list is a set
(`setNeverSaveOrigin_semantics`).
-/

namespace ZsecShield.Browser

open Text (Str str CodePoint)
open Checks

/-! ## The list -/

/-- `MaximumNeverSaveOrigins`. -/
def maximumNeverSaveOrigins : Nat := 500

/-- `OrderBy(item => item, StringComparer.Ordinal)`. -/
def orderOrdinal (values : List Str) : List Str :=
  values.insertionSort fun a b => units a ≤ units b

/-- A turn of the loop of `NormalizeNeverSaveOrigins` that is not the last.  An `ArgumentException`
passes over the value. -/
def addNormalized (W : WorkflowPlatform) (normalized : List Str) (value : Str) :
    Except WorkflowError (List Str) :=
  match normalizeSecureOriginText W (some value) with
  | .ok origin => .ok (if origin ∈ normalized then normalized else normalized ++ [origin])
  | .error (.vault (.argument _)) => .ok normalized
  | .error e => .error e

/-- The loop of `NormalizeNeverSaveOrigins`. -/
def collectNormalized (W : WorkflowPlatform) (normalized : List Str) :
    List Str → Except WorkflowError (List Str)
  | [] => .ok normalized
  | value :: values =>
      if maximumNeverSaveOrigins ≤ normalized.length then .ok normalized
      else do
        let normalized ← addNormalized W normalized value
        collectNormalized W normalized values

/-- `NormalizeNeverSaveOrigins`. -/
def normalizeNeverSaveOrigins (W : WorkflowPlatform) (values : Option (List Str)) :
    Except WorkflowError (List Str) :=
  match values with
  | none => .ok []
  | some values => do
      let normalized ← collectNormalized W [] (values.take (maximumNeverSaveOrigins + 1))
      pure (orderOrdinal normalized)

def limitReached : WorkflowError :=
  .vault (.invalidOperation (str "Never-save site limit reached."))

/-- What `SetNeverSaveOrigin` returns and the list that it stores. -/
def changeNeverSaveOrigins (W : WorkflowPlatform) (stored : Option (List Str))
    (origin : Option Str) (excluded : Bool) : Except WorkflowError (Bool × List Str) := do
  let normalized ← normalizeSecureOriginText W origin
  let values ← normalizeNeverSaveOrigins W stored
  if excluded then
    if normalized ∈ values then pure (false, orderOrdinal values)
    else do
      require (values.length < maximumNeverSaveOrigins) limitReached
      pure (true, orderOrdinal (values ++ [normalized]))
  else
    let rest := values.filter fun item => item ≠ normalized
    pure (decide (rest.length < values.length), orderOrdinal rest)

/-- `SetNeverSaveOrigin`: its result and the settings that it leaves. -/
def setNeverSaveOrigin (W : WorkflowPlatform) (settings : BrowserSettings) (origin : Option Str)
    (excluded : Bool) : Except WorkflowError Bool × BrowserSettings :=
  match changeNeverSaveOrigins W settings.passwordNeverSaveOrigins origin excluded with
  | .error e => (.error e, settings)
  | .ok (changed, values) =>
      (.ok changed, { settings with passwordNeverSaveOrigins := some values })

/-- The settings after some calls, whether they succeed or not. -/
def setNeverSaveOrigins (W : WorkflowPlatform) (settings : BrowserSettings)
    (calls : List (Option Str × Bool)) : BrowserSettings :=
  calls.foldl (fun settings call => (setNeverSaveOrigin W settings call.1 call.2).2) settings

/-- The sites of the list. -/
def BrowserSettings.neverSave (settings : BrowserSettings) : List Str :=
  settings.passwordNeverSaveOrigins.getD []

/-! ## Ordinal order -/

theorem perm_orderOrdinal (values : List Str) : (orderOrdinal values).Perm values :=
  List.perm_insertionSort _ _

theorem pairwise_orderOrdinal (values : List Str) :
    (orderOrdinal values).Pairwise fun a b => units a ≤ units b := by
  have : Std.Total fun a b : Str => units a ≤ units b := ⟨fun a b => le_total (units a) (units b)⟩
  have : IsTrans Str fun a b => units a ≤ units b := ⟨fun _ _ _ => le_trans⟩
  exact List.pairwise_insertionSort _ values

theorem units_eq_cons (c : CodePoint) (s : Str) :
    units (c :: s) = if c.val < 0x10000 then c.val :: units s
      else (0xD800 + (c.val - 0x10000) / 0x400) :: (0xDC00 + (c.val - 0x10000) % 0x400) ::
        units s := by
  rw [units, List.flatMap_cons]
  split <;> rfl

/-- Texts without surrogates differ in their units. -/
theorem units_injective : ∀ {s t : Str}, Text.Encodable s → Text.Encodable t →
    units s = units t → s = t := by
  intro s
  induction s with
  | nil =>
      intro t _ _ h
      cases t with
      | nil => rfl
      | cons d t =>
          rw [units_eq_cons] at h
          split at h <;> cases h
  | cons c s ih =>
      intro t hs ht h
      cases t with
      | nil =>
          rw [units_eq_cons] at h
          split at h <;> cases h
      | cons d t =>
          rw [Text.encodable_cons] at hs ht
          have hc := hs.1
          have hd := ht.1
          unfold Text.IsSurrogate at hc hd
          have hcd : c = d ∧ units s = units t := by
            rw [units_eq_cons, units_eq_cons] at h
            have hcmax := c.isLt
            have hdmax := d.isLt
            split at h
            · split at h
              · obtain ⟨hhead, htail⟩ := List.cons.inj h
                exact ⟨Fin.ext hhead, htail⟩
              · have hhead := (List.cons.inj h).1
                omega
            · split at h
              · have hhead := (List.cons.inj h).1
                omega
              · obtain ⟨hhigh, hrest⟩ := List.cons.inj h
                obtain ⟨hlow, htail⟩ := List.cons.inj hrest
                exact ⟨Fin.ext (by omega), htail⟩
          obtain ⟨rfl, htail⟩ := hcd
          rw [ih hs.2 ht.2 htail]

/-! ## NeverSaveList lists -/

/-- What calls leave in the settings: normal forms in strict order, at most as many as fit. -/
structure NeverSaveList (W : WorkflowPlatform) (values : List Str) : Prop where
  normal : ∀ o ∈ values, normalizeSecureOriginText W (some o) = .ok o
  sorted : values.Pairwise fun a b => units a < units b
  length : values.length ≤ maximumNeverSaveOrigins

variable {W : WorkflowPlatform} {values : List Str}

theorem NeverSaveList.nodup (h : NeverSaveList W values) : values.Nodup :=
  h.sorted.imp fun hlt heq => absurd (heq ▸ hlt) (lt_irrefl _)

/-- A list in order stays as it is. -/
theorem NeverSaveList.orderOrdinal_eq (h : NeverSaveList W values) : orderOrdinal values = values :=
  (h.sorted.imp fun hlt => hlt.le).insertionSort_eq

/-- The loop adds the values of a list of normal forms that differ. -/
theorem collectNormalized_eq {values : List Str} :
    ∀ {normalized : List Str}, (∀ o ∈ values, normalizeSecureOriginText W (some o) = .ok o) →
      (normalized ++ values).Nodup →
      normalized.length + values.length ≤ maximumNeverSaveOrigins →
        collectNormalized W normalized values = .ok (normalized ++ values) := by
  induction values with
  | nil =>
      intro normalized _ _ _
      rw [collectNormalized, List.append_nil]
  | cons value values ih =>
      intro normalized hnormal hnodup hlength
      rw [List.length_cons] at hlength
      have hfresh : value ∉ normalized := fun hmem =>
        (List.nodup_append.mp hnodup).2.2 value hmem value List.mem_cons_self rfl
      have hadd : addNormalized W normalized value = .ok (normalized ++ [value]) := by
        rw [addNormalized, hnormal value List.mem_cons_self]
        exact congrArg Except.ok (if_neg hfresh)
      have hsplit : normalized ++ value :: values = (normalized ++ [value]) ++ values := by
        rw [List.append_assoc, List.singleton_append]
      rw [collectNormalized, if_neg (by omega), hadd, bind_ok, hsplit]
      refine ih (fun o ho => hnormal o (List.mem_cons_of_mem _ ho)) (hsplit ▸ hnodup) ?_
      rw [List.length_append, List.length_singleton]
      omega

/-- Nothing of a stored list is lost when it is normalized again. -/
theorem normalizeNeverSaveOrigins_eq (h : NeverSaveList W values) :
    normalizeNeverSaveOrigins W (some values) = .ok values := by
  have htake : values.take (maximumNeverSaveOrigins + 1) = values :=
    List.take_of_length_le (h.length.trans (Nat.le_succ _))
  have hcollect : collectNormalized W [] values = .ok values := by
    refine (collectNormalized_eq h.normal ?_ ?_).trans (by rw [List.nil_append])
    · rw [List.nil_append]
      exact h.nodup
    · rw [List.length_nil, Nat.zero_add]
      exact h.length
  rw [normalizeNeverSaveOrigins, htake]
  simp only [hcollect, bind_ok]
  rw [h.orderOrdinal_eq]
  rfl

theorem neverSaveList_nil : NeverSaveList W [] :=
  ⟨List.forall_mem_nil _, List.Pairwise.nil, Nat.zero_le _⟩

/-! ## Normal forms are texts without surrogates -/

theorem forall_toLower {p : CodePoint → Prop}
    (hletter : ∀ c : CodePoint, 97 ≤ c.val ∧ c.val ≤ 122 → p c) {s : Str} (h : ∀ c ∈ s, p c) :
    ∀ c ∈ toLower s, p c := by
  intro c hc
  obtain ⟨d, hd, rfl⟩ := List.mem_map.mp hc
  split
  · next hupper =>
      refine hletter _ ?_
      rw [val_toLowerPoint hupper]
      omega
  · exact h d hd

theorem trimEndOf_subset (p : CodePoint → Bool) (s : Str) : trimEndOf p s ⊆ s := by
  intro c hc
  rw [trimEndOf, List.mem_reverse] at hc
  exact List.mem_reverse.mp ((List.dropWhile_suffix p).subset hc)

/-- An origin consists of the characters of its URL, in lower case. -/
theorem forall_originText {p : CodePoint → Prop}
    (hletter : ∀ c : CodePoint, 97 ≤ c.val ∧ c.val ≤ 122 → p c) (hcolon : p colon)
    (hslash : p slash) {u : Url} (h : ∀ c ∈ u.text, p c) : ∀ c ∈ originText u, p c := by
  refine forall_toLower hletter fun c hc => ?_
  have hleft := trimEndOf_subset _ _ hc
  simp only [leftPart, List.mem_append, List.mem_cons] at hleft
  rcases hleft with hscheme | rfl | rfl | rfl | hauthority
  · exact h c (List.mem_append_left _ hscheme)
  · exact hcolon
  · exact hslash
  · exact hslash
  · cases ha : u.authority with
    | none =>
        rw [ha] at hauthority
        cases hauthority
    | some a =>
        rw [ha] at hauthority
        refine h c (List.mem_append_right _ (List.mem_cons_of_mem _ ?_))
        rw [ha]
        exact List.mem_cons_of_mem _ (List.mem_cons_of_mem _ (List.mem_append_left _ hauthority))

theorem encodable_originText {u : Url} (h : Text.Encodable u.text) :
    Text.Encodable (originText u) := by
  refine forall_originText (fun c hc => ?_) ?_ ?_ h
  · unfold Text.IsSurrogate
    omega
  · unfold Text.IsSurrogate
    rw [val_colon]
    omega
  · unfold Text.IsSurrogate
    rw [val_slash]
    omega

/-- What the list relies on: the text of a parsed URI has no surrogates, and a normal form is its
own. -/
structure WorkflowPlatform.Normalizes (W : WorkflowPlatform) : Prop where
  encodes : ∀ s u, W.tryCreate s = some u → Text.Encodable u.text
  idempotent : ∀ (value : Option Str) (o : Str), normalizeSecureOriginText W value = .ok o →
    normalizeSecureOriginText W (some o) = .ok o

theorem WorkflowPlatform.Normalizes.encodable (hW : W.Normalizes) {value : Option Str} {o : Str}
    (h : normalizeSecureOriginText W value = .ok o) : Text.Encodable o := by
  obtain ⟨s, uri, -, -, -, -, huri⟩ := normalizeSecureOriginText_eq_ok.mp h
  obtain ⟨-, root, hroot, rfl⟩ := normalizeSecureOrigin_eq_ok.mp huri
  exact encodable_originText (hW.encodes _ root hroot)

/-! ## One call -/

/-- Different normal forms in any order make a list once they are sorted. -/
theorem neverSaveList_orderOrdinal (hW : W.Normalizes) {values : List Str}
    (hnormal : ∀ o ∈ values, normalizeSecureOriginText W (some o) = .ok o) (hnodup : values.Nodup)
    (hlength : values.length ≤ maximumNeverSaveOrigins) : NeverSaveList W (orderOrdinal values) := by
  have hperm := perm_orderOrdinal values
  have hnormal' : ∀ o ∈ orderOrdinal values, normalizeSecureOriginText W (some o) = .ok o :=
    fun o ho => hnormal o (hperm.mem_iff.mp ho)
  refine ⟨hnormal', ?_, by rwa [hperm.length_eq]⟩
  have hne : (orderOrdinal values).Pairwise (· ≠ ·) := hperm.nodup_iff.mpr hnodup
  refine ((pairwise_orderOrdinal values).and hne).imp_of_mem fun {a b} ha hb hab => ?_
  refine lt_of_le_of_ne hab.1 fun heq => hab.2 ?_
  exact units_injective (hW.encodable (hnormal' a ha)) (hW.encodable (hnormal' b hb)) heq

/-- What a call does to a list for an origin in its normal form. -/
inductive Changes (W : WorkflowPlatform) (values : List Str) (normalized : Str) (excluded : Bool) :
    Except WorkflowError (Bool × List Str) → Prop
  | full (hexcluded : excluded = true) (hnew : normalized ∉ values)
      (hlength : values.length = maximumNeverSaveOrigins) :
      Changes W values normalized excluded (.error limitReached)
  | changed {values' : List Str} {changed : Bool} (hlist : NeverSaveList W values')
      (hroom : excluded = true → normalized ∉ values → values.length < maximumNeverSaveOrigins)
      (hmem : ∀ o, o ∈ values' ↔ if o = normalized then excluded = true else o ∈ values)
      (hchanged : changed = true ↔ ¬ (normalized ∈ values ↔ excluded = true)) :
      Changes W values normalized excluded (.ok (changed, values'))

theorem changes_changeNeverSaveOrigins (hW : W.Normalizes) {values : List Str}
    (h : NeverSaveList W values) {stored : Option (List Str)} (hstored : stored.getD [] = values)
    {origin : Option Str} {normalized : Str}
    (horigin : normalizeSecureOriginText W origin = .ok normalized) (excluded : Bool) :
    Changes W values normalized excluded (changeNeverSaveOrigins W stored origin excluded) := by
  have hread : normalizeNeverSaveOrigins W stored = .ok values := by
    cases stored with
    | none =>
        obtain rfl : [] = values := hstored
        rfl
    | some stored =>
        obtain rfl : stored = values := hstored
        exact normalizeNeverSaveOrigins_eq h
  have hself := hW.idempotent origin normalized horigin
  simp only [changeNeverSaveOrigins, horigin, hread, bind_ok]
  cases excluded with
  | true =>
      rw [if_pos rfl]
      by_cases hmem : normalized ∈ values
      · rw [if_pos hmem, h.orderOrdinal_eq]
        refine .changed h (fun _ hnew => absurd hmem hnew) (fun o => ?_) (by simp [hmem])
        by_cases ho : o = normalized
        · simp [ho, hmem]
        · simp [ho]
      · rw [if_neg hmem]
        by_cases hroom : values.length < maximumNeverSaveOrigins
        · rw [require_pos hroom, bind_ok]
          refine .changed (neverSaveList_orderOrdinal hW ?_ ?_ ?_) (fun _ _ => hroom) (fun o => ?_)
            (by simp [hmem])
          · intro o ho
            rcases List.mem_append.mp ho with ho | ho
            · exact h.normal o ho
            · rw [List.mem_singleton.mp ho]
              exact hself
          · refine List.nodup_append.mpr ⟨h.nodup, List.nodup_singleton _, ?_⟩
            rintro a ha b hb rfl
            exact hmem (List.mem_singleton.mp hb ▸ ha)
          · rw [List.length_append, List.length_singleton]
            omega
          · rw [(perm_orderOrdinal _).mem_iff, List.mem_append, List.mem_singleton]
            by_cases ho : o = normalized
            · simp [ho]
            · simp [ho]
        · rw [require_neg hroom]
          exact .full rfl hmem (le_antisymm h.length (Nat.not_lt.mp hroom))
  | false =>
      rw [if_neg Bool.false_ne_true]
      have hrest : NeverSaveList W (values.filter fun item => item ≠ normalized) :=
        ⟨fun o ho => h.normal o (List.mem_of_mem_filter ho), h.sorted.filter _,
          (List.length_filter_le _ _).trans h.length⟩
      rw [hrest.orderOrdinal_eq]
      refine .changed hrest (fun hfalse => by cases hfalse) (fun o => ?_) ?_
      · by_cases ho : o = normalized
        · simp [ho]
        · simp [ho]
      · rw [decide_eq_true_eq, List.length_filter_lt_length_iff_exists]
        simp

/-- A call for an origin in no normal form changes nothing. -/
theorem setNeverSaveOrigin_refused {settings : BrowserSettings} {origin : Option Str}
    {excluded : Bool} {e : WorkflowError} (h : normalizeSecureOriginText W origin = .error e) :
    setNeverSaveOrigin W settings origin excluded = (.error e, settings) := by
  have hchange : changeNeverSaveOrigins W settings.passwordNeverSaveOrigins origin excluded =
      .error e := by
    rw [changeNeverSaveOrigins, h]
    rfl
  rw [setNeverSaveOrigin, hchange]

/-! ## Runs -/

/-- What a call answers and leaves behind. -/
structure Answers (W : WorkflowPlatform) (settings : BrowserSettings) (origin : Option Str)
    (excluded : Bool) (answer : Except WorkflowError Bool × BrowserSettings) : Prop where
  /-- A call that throws leaves the settings as they are. -/
  unchanged : ∀ e, answer.1 = .error e → answer.2 = settings
  refused : ∀ e, normalizeSecureOriginText W origin = .error e → answer.1 = .error e
  full : ∀ normalized, normalizeSecureOriginText W origin = .ok normalized → excluded = true →
    normalized ∉ settings.neverSave → settings.neverSave.length = maximumNeverSaveOrigins →
      answer.1 = .error limitReached
  succeeds : ∀ normalized, normalizeSecureOriginText W origin = .ok normalized →
    (excluded = true → normalized ∉ settings.neverSave →
      settings.neverSave.length < maximumNeverSaveOrigins) → ∃ changed, answer.1 = .ok changed
  /-- A call that succeeds changes the origin that it names and no other. -/
  changes : ∀ changed, answer.1 = .ok changed → ∃ normalized,
    normalizeSecureOriginText W origin = .ok normalized ∧
      (∀ o, o ∈ answer.2.neverSave ↔
        if o = normalized then excluded = true else o ∈ settings.neverSave) ∧
      (changed = true ↔ ¬ (normalized ∈ settings.neverSave ↔ excluded = true)) ∧
      ∀ asked o, normalizeSecureOriginText W (some asked) = .ok o →
        isNeverSaveOrigin W answer.2 asked = .ok (decide
          (if o = normalized then excluded = true else o ∈ settings.neverSave))

theorem answers_setNeverSaveOrigin (hW : W.Normalizes) {settings : BrowserSettings}
    (h : NeverSaveList W settings.neverSave) (origin : Option Str) (excluded : Bool) :
    Answers W settings origin excluded (setNeverSaveOrigin W settings origin excluded) ∧
      NeverSaveList W (setNeverSaveOrigin W settings origin excluded).2.neverSave := by
  cases horigin : normalizeSecureOriginText W origin with
  | error e =>
      rw [setNeverSaveOrigin_refused horigin]
      refine ⟨⟨fun _ _ => rfl, ?_, ?_, ?_, ?_⟩, h⟩
      · intro e' he
        rw [horigin] at he
        exact congrArg Except.error (Except.error.inj he)
      · intro n hn
        rw [horigin] at hn
        cases hn
      · intro n hn
        rw [horigin] at hn
        cases hn
      · intro changed hchanged
        cases hchanged
  | ok normalized =>
      have hchanges := changes_changeNeverSaveOrigins hW h rfl horigin excluded
      unfold setNeverSaveOrigin
      generalize changeNeverSaveOrigins W settings.passwordNeverSaveOrigins origin excluded =
        result at hchanges
      have hname : ∀ n, normalizeSecureOriginText W origin = .ok n → normalized = n :=
        fun n hn => Except.ok.inj (horigin.symm.trans hn)
      cases hchanges with
      | full hexcluded hnew hlength =>
          refine ⟨⟨fun _ _ => rfl, ?_, fun _ _ _ _ _ => rfl, ?_, ?_⟩, h⟩
          · intro e he
            rw [horigin] at he
            cases he
          · intro n hn hroom
            obtain rfl := hname n hn
            exact absurd (hroom hexcluded hnew) (by omega)
          · intro changed hchanged
            cases hchanged
      | @changed values' changed hlist hroom hmem hchanged =>
          refine ⟨⟨?_, ?_, ?_, fun _ _ _ => ⟨changed, rfl⟩, ?_⟩, hlist⟩
          · intro e he
            cases he
          · intro e he
            rw [horigin] at he
            cases he
          · intro n hn hexcluded hnew hlength
            obtain rfl := hname n hn
            exact absurd (hroom hexcluded hnew) (by omega)
          · intro changed' heq
            obtain rfl := Except.ok.inj heq
            refine ⟨normalized, horigin, hmem, hchanged, fun asked o ho => ?_⟩
            rw [isNeverSaveOrigin, ho, bind_ok]
            refine congrArg Except.ok (decide_eq_decide.mpr ?_)
            exact hmem o

theorem neverSaveList_setNeverSaveOrigins (hW : W.Normalizes) (calls : List (Option Str × Bool)) :
    ∀ {settings : BrowserSettings}, NeverSaveList W settings.neverSave →
      NeverSaveList W (setNeverSaveOrigins W settings calls).neverSave := by
  induction calls with
  | nil => exact fun h => h
  | cons call calls ih =>
      intro settings h
      exact ih (answers_setNeverSaveOrigin hW h call.1 call.2).2

/-- After any calls on an empty list: the list is in strict order, without repetition and within the
bound, and the next call changes the origin that it names and no other, or throws and changes
nothing. -/
theorem setNeverSaveOrigin_semantics (hW : W.Normalizes) {settings : BrowserSettings}
    (hempty : settings.neverSave = []) (calls : List (Option Str × Bool)) (origin : Option Str)
    (excluded : Bool) :
    let reached := setNeverSaveOrigins W settings calls
    (reached.neverSave.Pairwise fun a b => units a < units b) ∧ reached.neverSave.Nodup ∧
      reached.neverSave.length ≤ 500 ∧
        Answers W reached origin excluded (setNeverSaveOrigin W reached origin excluded) := by
  have hstart : NeverSaveList W settings.neverSave := hempty ▸ neverSaveList_nil
  have hlist := neverSaveList_setNeverSaveOrigins hW calls hstart
  exact ⟨hlist.sorted, hlist.nodup, hlist.length, (answers_setNeverSaveOrigin hW hlist _ _).1⟩

namespace Sample

theorem normalizes_user : (workflow userPrompt).Normalizes where
  encodes s u hs := by
    rw [tryCreate_eq_some savesCandidate_user.url hs]
    exact savesCandidate_user.url ▸ userPrompt.encodable
  idempotent value o ho := by
    have hsession := savesCandidate_user
    obtain ⟨s, uri, -, -, -, huri, hnormal⟩ := normalizeSecureOriginText_eq_ok.mp ho
    rw [tryCreate_eq_some hsession.url huri, normalizeSecureOrigin_site hsession.url] at hnormal
    obtain rfl := Except.ok.inj hnormal
    refine normalizeSecureOriginText_eq_ok.mpr ⟨_, site, rfl, by decide, by decide, ?_, ?_⟩
    · exact tryCreate_siteText hsession.given hsession.url
    · exact normalizeSecureOrigin_site hsession.url

end Sample

/-- A site is excluded and allowed again. -/
theorem setNeverSaveOrigin_semantics_site :
    Answers (Sample.workflow Sample.userPrompt)
      (setNeverSaveOrigins (Sample.workflow Sample.userPrompt) Sample.settings
        [(some Sample.siteText, true)]) (some Sample.siteText) false
      (setNeverSaveOrigin (Sample.workflow Sample.userPrompt)
        (setNeverSaveOrigins (Sample.workflow Sample.userPrompt) Sample.settings
          [(some Sample.siteText, true)]) (some Sample.siteText) false) :=
  (setNeverSaveOrigin_semantics Sample.normalizes_user rfl [(some Sample.siteText, true)]
    (some Sample.siteText) false).2.2.2

end ZsecShield.Browser
