import ZsecShield.Browser.StateSession

/-!
# The history over many visits

`AddHistory` takes the entry of a URL out of the history, puts a new one in front with the count of
typed visits, and cuts the list; `Save` normalizes all of it.  Seen from outside an entry is a URL
with a count.  The URLs are the ones visited last, the latest first, and the count of a URL is that
of its typed visits since it was last absent (`addHistory_invariants`).
-/

namespace ZsecShield.Browser

open Text (Str str CodePoint)
open Checks
open Recency

/-! ## Visits -/

/-- A call of `AddHistory`, and its time. -/
structure Visit where
  now : Str
  title : Option Str
  url : Option Str
  typed : Bool

/-- A visit whose `Save` succeeds. -/
def visit (P : StatePlatform) (d : ProductData) (v : Visit) : Option ProductData :=
  match addHistory P v.now d v.title v.url v.typed with
  | .ok ⟨_, d', none⟩ => some d'
  | .ok ⟨_, d', some (.ok _)⟩ => some d'
  | _ => none

/-- The data after visits that start from the default data, each with a `Save` that succeeds. -/
def browse (P : StatePlatform) (visits : List Visit) : Option ProductData :=
  visits.foldlM (visit P) (createDefault P)

/-- The URL of a visit in its normal form. -/
def Visit.address (P : StatePlatform) (v : Visit) : Option Str :=
  (tryNormalizeWebUrl P v.url).map Url.text

/-- The addresses of visits, the latest first. -/
def addresses (P : StatePlatform) (visits : List Visit) : List Str :=
  (visits.filterMap fun v => v.address P).reverse

/-- No entry of the history has the URL, whatever the case of its letters. -/
def Absent (d : ProductData) (url : Str) : Prop := ∀ e ∈ d.history, toLower e.url ≠ toLower url

/-- The visit is a typed one of the URL. -/
def Visit.typedTo (P : StatePlatform) (url : Str) (v : Visit) : Bool :=
  v.typed && (v.address P).any fun address => decide (toLower address = toLower url)

/-- The visits since the URL was last absent from the history. -/
def SinceAbsent (P : StatePlatform) (visits : List Visit) (url : Str) (since : List Visit) : Prop :=
  ∃ before, visits = before ++ since ∧ (∃ d, browse P before = some d ∧ Absent d url) ∧
    ∀ mid rest d, since = mid ++ rest → mid ≠ [] → browse P (before ++ mid) = some d →
      ¬ Absent d url

/-! ## One visit -/

/-- What an entry is about: its URL and its count. -/
def HistoryEntry.counted (e : HistoryEntry) : Str × Int := (e.url, e.typedCount)

/-- The history as URLs with counts. -/
def entries (d : ProductData) : List (Str × Int) := d.history.map HistoryEntry.counted

/-- A URL without the case of its letters. -/
def site (p : Str × Int) : Str := toLower p.1

/-- The count of a URL. -/
def countOf (url : Str) (entries : List (Str × Int)) : Int :=
  ((entries.find? fun p => decide (site p = toLower url)).map Prod.snd).getD 0

/-- A canonical URL within the bound, with a count. -/
def IsCounted (P : StatePlatform) (p : Str × Int) : Prop :=
  (∃ u, IsWebUrl P p.1 u) ∧ length16 p.1 ≤ 4096 ∧ 0 ≤ p.2

/-- The entries after a visit of a URL. -/
def visited (url : Str) (typed : Bool) (entries : List (Str × Int)) : List (Str × Int) :=
  (front site (url, max 0 (wrap32 ((if typed then 1 else 0) + countOf url entries))) entries).take
    maximumHistoryEntries

variable {P : StatePlatform}

theorem eraseP_congr {α : Type} {p q : α → Bool} {l : List α} (h : ∀ a ∈ l, p a = q a) :
    l.eraseP p = l.eraseP q := by
  induction l with
  | nil => rfl
  | cons a l ih =>
      obtain ⟨ha, hl⟩ := List.forall_mem_cons.1 h
      rw [List.eraseP, List.eraseP, ha, ih hl]

theorem find?_congr {α : Type} {p q : α → Bool} {l : List α} (h : ∀ a ∈ l, p a = q a) :
    l.find? p = l.find? q := by
  induction l with
  | nil => rfl
  | cons a l ih =>
      obtain ⟨ha, hl⟩ := List.forall_mem_cons.1 h
      rw [List.find?, List.find?, ha, ih hl]

/-- `Normalize` keeps canonical URLs, and no count is negative behind it. -/
theorem counted_keptHistory {now : Str} {history : List HistoryEntry}
    (hweb : ∀ e ∈ history, e.IsWeb P ∧ length16 e.url ≤ 4096)
    (hlength : history.length ≤ maximumHistoryEntries) :
    (keptHistory P now (history.map fun e => some e.raw)).map HistoryEntry.counted =
      history.map fun e => (e.url, max 0 e.typedCount) := by
  have hall : ∀ e ∈ history, ∃ e', normalizeHistory P now e.raw = some e' ∧
      e'.counted = (e.url, max 0 e.typedCount) := by
    intro e he
    obtain ⟨hisWeb, hbounded⟩ := hweb e he
    rcases hisWeb.normalize with ⟨-, e', he', hurl, hcount⟩ | ⟨hlong, -⟩
    · exact ⟨e', he', by rw [HistoryEntry.counted, hurl, hcount]⟩
    · exact absurd hbounded hlong
  rw [keptHistory, List.map_take, List.filterMap_map]
  refine (congrArg _ (map_filterMap_eq hall)).trans (List.take_of_length_le ?_)
  rwa [List.length_map]

section Visit

variable {d d' : ProductData} {v : Visit}

/-- The entry that a visit adds, before it is normalized. -/
theorem isSame_iff (hP : P.Assumed) (hentries : ∀ p ∈ entries d, IsCounted P p) {u : Url}
    (hu : IsWebUrl P u.text u) : ∀ e ∈ d.history,
      decide (ignoreCase P e.url = ignoreCase P u.text) =
        ((fun p => decide (site p = toLower u.text)) ∘ HistoryEntry.counted) e := by
  intro e he
  obtain ⟨⟨w, hw⟩, -⟩ := hentries e.counted (List.mem_map_of_mem he)
  exact decide_eq_decide.2 (ignoreCase_iff hP hw.printable hu.printable)

theorem existing_eq (hP : P.Assumed) (hentries : ∀ p ∈ entries d, IsCounted P p) {u : Url}
    (hu : IsWebUrl P u.text u) (typed : Bool) :
    max 0 (match d.history.find? fun e => decide (ignoreCase P e.url = ignoreCase P u.text) with
      | none => (if typed then 1 else 0 : Int)
      | some existing => wrap32 ((if typed then 1 else 0) + max 0 existing.typedCount)) =
      max 0 (wrap32 ((if typed then 1 else 0) + countOf u.text (entries d))) := by
  rw [countOf, entries, List.find?_map, find?_congr (isSame_iff hP hentries hu)]
  cases hfound : d.history.find?
      ((fun p => decide (site p = toLower u.text)) ∘ HistoryEntry.counted) with
  | none =>
      cases typed <;> rfl
  | some existing =>
      have hmem := List.mem_of_find?_eq_some hfound
      have hcount : 0 ≤ existing.typedCount := (hentries _ (List.mem_map_of_mem hmem)).2.2
      rw [Option.map_some, Option.map_some, Option.getD_some]
      dsimp only
      rw [max_eq_right hcount]
      rfl

/-- The history with the entry of a visit in front, before it is normalized. -/
def withVisit (P : StatePlatform) (now : Str) (d : ProductData) (title : Option Str) (u : Url)
    (typed : Bool) : List HistoryEntry :=
  let isSame (e : HistoryEntry) : Bool := decide (ignoreCase P e.url = ignoreCase P u.text)
  (⟨normalizeTitle title u.host, u.text, now, match d.history.find? isSame with
    | none => if typed then 1 else 0
    | some existing => wrap32 ((if typed then 1 else 0) + max 0 existing.typedCount)⟩ ::
      d.history.eraseP isSame).take maximumHistoryEntries

theorem addHistory_of_read (hrecords : d.settings.recordHistory = true) {now : Str}
    {title url : Option Str} {u : Url} (hread : tryNormalizeWebUrl P url = some u) (typed : Bool) :
    addHistory P now d title url typed =
      saveState P now { d with history := withVisit P now d title u typed }.raw () := by
  have hpass : ¬ d.settings.recordHistory = false := by
    rw [hrecords]
    nofun
  rw [addHistory, if_neg hpass, hread]
  rfl

theorem addHistory_of_none {now : Str} {title url : Option Str}
    (hread : tryNormalizeWebUrl P url = none) (typed : Bool) :
    addHistory P now d title url typed = .ok ⟨(), d, none⟩ := by
  rw [addHistory, hread]
  exact ite_self _

/-- Behind `Normalize` the new entry is in front of the others. -/
theorem counted_withVisit (hP : P.Assumed) (hentries : ∀ p ∈ entries d, IsCounted P p) {u : Url}
    (hu : IsWebUrl P u.text u) (now : Str) (title : Option Str) (typed : Bool) :
    (withVisit P now d title u typed).map (fun e => (e.url, max 0 e.typedCount)) =
      visited u.text typed (entries d) := by
  have hrest : (d.history.eraseP fun e =>
        decide (ignoreCase P e.url = ignoreCase P u.text)).map
          (fun e => (e.url, max 0 e.typedCount)) =
      (entries d).eraseP fun p => decide (site p = toLower u.text) := by
    rw [eraseP_congr (isSame_iff hP hentries hu), entries, List.eraseP_map]
    refine List.map_congr_left fun e he => ?_
    have hcount : 0 ≤ e.typedCount :=
      (hentries _ (List.mem_map_of_mem (List.mem_of_mem_eraseP he))).2.2
    rw [max_eq_right hcount]
    rfl
  rw [withVisit, visited, front, List.map_take, List.map_cons, hrest,
    ← existing_eq hP hentries hu typed]
  rfl

theorem isWeb_withVisit (hentries : ∀ p ∈ entries d, IsCounted P p) {u : Url}
    (hu : IsWebUrl P u.text u) (hlength : length16 u.text ≤ 4096) {now : Str} {title : Option Str}
    {typed : Bool} :
    ∀ e ∈ withVisit P now d title u typed, e.IsWeb P ∧ length16 e.url ≤ 4096 := by
  intro e he
  rcases List.mem_cons.1 (List.mem_of_mem_take he) with rfl | he
  · exact ⟨⟨u, hu⟩, hlength⟩
  · obtain ⟨hisWeb, hbounded, -⟩ := hentries _ (List.mem_map_of_mem (List.mem_of_mem_eraseP he))
    exact ⟨hisWeb, hbounded⟩

/-- What `AddHistory` leaves in memory, whether or not the file can be written. -/
theorem entries_addHistory (hP : P.Assumed) (hrecords : d.settings.recordHistory = true)
    (hentries : ∀ p ∈ entries d, IsCounted P p) {now : Str} {title url : Option Str} {u : Url}
    (hread : tryNormalizeWebUrl P url = some u) (hlength : length16 u.text ≤ 4096) {typed : Bool}
    {o : Outcome Unit} (h : addHistory P now d title url typed = .ok o) :
    o.data.settings.recordHistory = true ∧ entries o.data = visited u.text typed (entries d) := by
  have hu := isWebUrl_of_read hP hread
  rw [addHistory_of_read hrecords hread] at h
  obtain ⟨saved, hsaved, rfl⟩ := saveState_eq_ok.1 h
  obtain ⟨settings, hsettings, rfl⟩ := normalizeData_raw_eq_ok.1 hsaved
  constructor
  · dsimp only
    rw [recordHistory_of_normalizeSettings hsettings, recordHistory_legacySettings]
    exact hrecords
  · refine Eq.trans ?_ (counted_withVisit hP hentries hu now title typed)
    exact counted_keptHistory (isWeb_withVisit hentries hu hlength) (List.length_take_le _ _)

/-- A visit whose `Save` succeeds is a call of `AddHistory`. -/
theorem addHistory_of_visit (h : visit P d v = some d') :
    ∃ o, addHistory P v.now d v.title v.url v.typed = .ok o ∧ o.data = d' := by
  unfold visit at h
  split at h
  · rename_i hadd
    exact ⟨_, hadd, Option.some.inj h⟩
  · rename_i hadd
    exact ⟨_, hadd, Option.some.inj h⟩
  · cases h

/-- A visit whose `Save` succeeds: nothing changes, or the URL is put in front. -/
theorem visit_eq_some (hP : P.Assumed) (hrecords : d.settings.recordHistory = true)
    (hentries : ∀ p ∈ entries d, IsCounted P p)
    (hbound : ∀ u, tryNormalizeWebUrl P v.url = some u → length16 u.text ≤ 4096)
    (h : visit P d v = some d') :
    (v.address P = none ∧ d' = d) ∨
      ∃ u, tryNormalizeWebUrl P v.url = some u ∧ d'.settings.recordHistory = true ∧
        entries d' = visited u.text v.typed (entries d) := by
  obtain ⟨o, hadd, rfl⟩ := addHistory_of_visit h
  cases hread : tryNormalizeWebUrl P v.url with
  | none =>
      rw [addHistory_of_none hread] at hadd
      obtain rfl := Except.ok.inj hadd
      exact .inl ⟨by rw [Visit.address, hread]; rfl, rfl⟩
  | some u =>
      exact .inr ⟨u, rfl, entries_addHistory hP hrecords hentries hread (hbound u hread) hadd⟩

end Visit

/-! ## Counts -/

theorem find?_eraseP {α : Type} {p q : α → Bool} {l : List α} (h : ∀ a, p a = true → q a = false) :
    (l.eraseP q).find? p = l.find? p := by
  induction l with
  | nil => rfl
  | cons a l ih =>
      cases hq : q a with
      | true =>
          have hp : p a = false := by
            cases hp : p a with
            | false => rfl
            | true => rw [h a hp] at hq; cases hq
          rw [List.eraseP_cons_of_pos hq, List.find?_cons_of_neg (by simp [hp])]
      | false =>
          rw [List.eraseP_cons_of_neg (by simp [hq]), List.find?_cons, List.find?_cons, ih]

theorem absent_iff {d : ProductData} {url : Str} :
    Absent d url ↔ (entries d).find? (fun p => decide (site p = toLower url)) = none := by
  rw [List.find?_eq_none, entries, List.forall_mem_map]
  exact forall₂_congr fun e _ => (not_congr decide_eq_true_iff).symm

theorem countOf_absent {d : ProductData} {url : Str} (h : Absent d url) :
    countOf url (entries d) = 0 := by
  rw [countOf, absent_iff.1 h]
  rfl

/-- The count of the URL that is visited. -/
theorem countOf_visited_self {url address : Str} (h : toLower url = toLower address) (typed : Bool)
    (entries : List (Str × Int)) : countOf url (visited address typed entries) =
      max 0 (wrap32 ((if typed then 1 else 0) + countOf url entries)) := by
  have hpos : maximumHistoryEntries = 4999 + 1 := rfl
  have hcount : countOf url entries = countOf address entries := by
    rw [countOf, countOf, h]
  rw [countOf, visited, front, hpos, List.take_succ_cons, List.find?_cons_of_pos (by simp [site, h]),
    hcount]
  rfl

/-- The count of another URL that is still there. -/
theorem countOf_visited_other {url address : Str} (h : toLower url ≠ toLower address)
    {typed : Bool} {entries : List (Str × Int)}
    (hthere : (visited address typed entries).find?
      (fun p => decide (site p = toLower url)) ≠ none) :
    countOf url (visited address typed entries) = countOf url entries := by
  obtain ⟨p, hp⟩ := Option.ne_none_iff_exists'.1 hthere
  have hfound : entries.find? (fun p => decide (site p = toLower url)) = some p := by
    have hall := (List.take_prefix maximumHistoryEntries _).find?_eq_some hp
    rw [front, List.find?_cons_of_neg (by simp [site, Ne.symm h]), find?_eraseP] at hall
    · exact hall
    · intro a ha
      have hsite : site a = toLower url := of_decide_eq_true ha
      exact decide_eq_false fun hsame => h (hsite.symm.trans hsame)
  rw [countOf, countOf, hp, hfound]

theorem wrap32_of_lt {n : Int} (hpos : 0 ≤ n) (hlt : n < 2 ^ 31) : wrap32 n = n := by
  rw [wrap32, Int.bmod_def]
  omega

/-! ## Since a URL was absent -/

theorem SinceAbsent.nil {visits : List Visit} {d : ProductData} {url : Str}
    (h : browse P visits = some d) (habsent : Absent d url) : SinceAbsent P visits url [] := by
  refine ⟨visits, (List.append_nil visits).symm, ⟨d, h, habsent⟩, ?_⟩
  intro mid rest _ hsplit hne
  exact absurd (List.append_eq_nil_iff.1 hsplit.symm).1 hne

/-- A visit after which the URL is there. -/
theorem SinceAbsent.snoc {visits : List Visit} {url : Str} {since : List Visit}
    (h : SinceAbsent P visits url since) {v : Visit} {d : ProductData}
    (hrun : browse P (visits ++ [v]) = some d) (hthere : ¬ Absent d url) :
    SinceAbsent P (visits ++ [v]) url (since ++ [v]) := by
  obtain ⟨before, rfl, hstart, hsince⟩ := h
  refine ⟨before, List.append_assoc _ _ _, hstart, fun mid rest d' hsplit hne hd' => ?_⟩
  rcases List.eq_nil_or_concat rest with rfl | ⟨rest, w, rfl⟩
  · rw [List.append_nil] at hsplit
    rw [← hsplit, ← List.append_assoc, hrun] at hd'
    rwa [← Option.some.inj hd']
  · rw [List.concat_eq_append, ← List.append_assoc] at hsplit
    exact hsince mid rest d' (List.append_inj_left' hsplit rfl) hne hd'

/-! ## Runs -/

/-- What the history holds after visits. -/
structure Recorded (P : StatePlatform) (visits : List Visit) (d : ProductData) : Prop where
  records : d.settings.recordHistory = true
  counted : ∀ p ∈ entries d, IsCounted P p
  urls : (entries d).map Prod.fst =
    (firstOfEach toLower (addresses P visits)).take maximumHistoryEntries
  since : ∀ url, ∃ since, SinceAbsent P visits url since ∧
    (since.countP (Visit.typedTo P url) < 2 ^ 31 →
      countOf url (entries d) = since.countP (Visit.typedTo P url))

theorem addresses_snoc (visits : List Visit) (v : Visit) :
    addresses P (visits ++ [v]) = (v.address P).toList ++ addresses P visits := by
  rw [addresses, List.filterMap_append, List.reverse_append]
  cases h : v.address P with
  | none => simp [h, addresses]
  | some url => simp [h, addresses]

theorem map_front (p : Str × Int) (entries : List (Str × Int)) :
    (front site p entries).map Prod.fst = front toLower p.1 (entries.map Prod.fst) := by
  rw [front, front, List.map_cons, List.eraseP_map]
  rfl

theorem isCounted_visited {url : Str} (hurl : ∃ u, IsWebUrl P url u) (hlength : length16 url ≤ 4096)
    {entries : List (Str × Int)} (h : ∀ p ∈ entries, IsCounted P p) {typed : Bool} :
    ∀ p ∈ visited url typed entries, IsCounted P p := by
  intro p hp
  rcases List.mem_cons.1 (List.mem_of_mem_take hp) with rfl | hp
  · exact ⟨hurl, hlength, le_max_left _ _⟩
  · exact h p (List.mem_of_mem_eraseP hp)

theorem typedTo_of_none {v : Visit} (h : v.address P = none) (url : Str) :
    v.typedTo P url = false := by
  rw [Visit.typedTo, h]
  exact Bool.and_false _

theorem typedTo_of_some {v : Visit} {address : Str} (h : v.address P = some address) (url : Str) :
    v.typedTo P url = (v.typed && decide (toLower address = toLower url)) := by
  rw [Visit.typedTo, h]
  rfl

/-- The count goes on where the URL was visited, and stays where another one was. -/
theorem countOf_visited {url address : Str} {v : Visit} {d d' : ProductData} {n : Nat}
    (haddress : v.address P = some address)
    (hentries : entries d' = visited address v.typed (entries d)) (hthere : ¬ Absent d' url)
    (hcount : countOf url (entries d) = n) (hlt : n + (if v.typedTo P url then 1 else 0) < 2 ^ 31) :
    countOf url (entries d') = (n + (if v.typedTo P url then 1 else 0) : Nat) := by
  rw [typedTo_of_some haddress] at hlt ⊢
  rw [hentries]
  by_cases hsame : toLower url = toLower address
  · rw [countOf_visited_self hsame, hcount]
    rw [decide_eq_true hsame.symm, Bool.and_true] at hlt ⊢
    have hsum : (if v.typed then 1 else 0 : Int) + n = (n + (if v.typed then 1 else 0) : Nat) := by
      cases v.typed
      · simp
      · simp [Int.add_comm]
    rw [hsum, wrap32_of_lt (Int.natCast_nonneg _) (by exact_mod_cast hlt),
      max_eq_right (Int.natCast_nonneg _)]
  · rw [absent_iff, hentries] at hthere
    rw [countOf_visited_other hsame hthere, hcount, decide_eq_false (Ne.symm hsame), Bool.and_false]
    rfl

/-- Visits whose `Save` succeeds, of URLs within the bound. -/
theorem recorded_browse (hP : P.Assumed) (visits : List Visit) :
    ∀ {d : ProductData}, browse P visits = some d →
      (∀ v ∈ visits, ∀ u, tryNormalizeWebUrl P v.url = some u → length16 u.text ≤ 4096) →
        Recorded P visits d := by
  induction visits using List.reverseRecOn with
  | nil =>
      intro d hrun _
      obtain rfl : createDefault P = d := Option.some.inj hrun
      refine ⟨rfl, List.forall_mem_nil _, rfl, fun url => ⟨[], .nil hrun ?_, fun _ => rfl⟩⟩
      exact List.forall_mem_nil _
  | append_singleton visits v ih =>
      intro d' hrun hbound
      have hsplit : browse P (visits ++ [v]) = browse P visits >>= fun d => visit P d v := by
        simp only [browse, List.foldlM_append, List.foldlM_cons, List.foldlM_nil, bind_pure]
      obtain ⟨d, hd, hvisit⟩ := Option.bind_eq_some_iff.1 (hsplit.symm.trans hrun)
      have h := ih hd fun w hw => hbound w (List.mem_append_left _ hw)
      have hlast := hbound v (List.mem_append_right _ List.mem_cons_self)
      -- a URL that is absent starts anew, and the visits of any other go on
      have hsince (hcount : ∀ url n, ¬ Absent d' url → countOf url (entries d) = (n : Nat) →
          n + (if v.typedTo P url then 1 else 0) < 2 ^ 31 →
            countOf url (entries d') = (n + (if v.typedTo P url then 1 else 0) : Nat)) :
          ∀ url, ∃ since, SinceAbsent P (visits ++ [v]) url since ∧
            (since.countP (Visit.typedTo P url) < 2 ^ 31 →
              countOf url (entries d') = since.countP (Visit.typedTo P url)) := by
        intro url
        by_cases habsent : Absent d' url
        · exact ⟨[], .nil hrun habsent, fun _ => countOf_absent habsent⟩
        · obtain ⟨since, hperiod, hold⟩ := h.since url
          refine ⟨since ++ [v], hperiod.snoc hrun habsent, fun hlt => ?_⟩
          rw [List.countP_append, List.countP_singleton] at hlt ⊢
          exact hcount url _ habsent (hold (by omega)) hlt
      rcases visit_eq_some hP h.records h.counted hlast hvisit with
        ⟨hnone, rfl⟩ | ⟨u, hread, hrecords, hentries⟩
      · refine ⟨h.records, h.counted, ?_, hsince fun url n _ hn _ => ?_⟩
        · rw [addresses_snoc, hnone]
          exact h.urls
        · rw [typedTo_of_none hnone]
          exact hn
      · have haddress : v.address P = some u.text := by
          rw [Visit.address, hread]
          rfl
        refine ⟨hrecords, ?_, ?_, hsince fun url n hthere hn hlt =>
          countOf_visited haddress hentries hthere hn hlt⟩
        · rw [hentries]
          exact isCounted_visited ⟨u, isWebUrl_of_read hP hread⟩ (hlast u hread) h.counted
        · rw [hentries, visited, List.map_take, map_front, h.urls, addresses_snoc, haddress]
          exact take_firstOfEach_cons _ _ _

/-- The count of an entry is that of its URL. -/
theorem countOf_entry {d : ProductData} (h : Distinct site (entries d)) {e : HistoryEntry}
    (he : e ∈ d.history) : countOf e.url (entries d) = e.typedCount := by
  have hmem : e.counted ∈ entries d := List.mem_map_of_mem he
  cases hfound : (entries d).find? fun p => decide (site p = toLower e.url) with
  | none =>
      have hnot := List.find?_eq_none.1 hfound e.counted hmem
      exact absurd (decide_eq_true rfl) hnot
  | some p =>
      have hholds := List.find?_some hfound
      have hsite : site p = site e.counted := of_decide_eq_true hholds
      have hsame : p = e.counted := h.eq_of_key (List.mem_of_find?_eq_some hfound) hmem hsite
      rw [countOf, hfound, hsame]
      rfl

/-- The history after visits from the default data, each with a `Save` that succeeds and of a URL
within the bound: at most 5000 entries of different URLs, the latest first, each with the number of
its typed visits since it was last absent. -/
theorem addHistory_invariants (hP : P.Assumed) {visits : List Visit} {d : ProductData}
    (hrun : browse P visits = some d)
    (hbound : ∀ v ∈ visits, ∀ u, tryNormalizeWebUrl P v.url = some u → length16 u.text ≤ 4096) :
    d.history.length ≤ 5000 ∧
    (d.history.Pairwise fun a b => toLower a.url ≠ toLower b.url) ∧
    d.history.map HistoryEntry.url = (firstOfEach toLower (addresses P visits)).take 5000 ∧
    ∀ e ∈ d.history, ∃ since, SinceAbsent P visits e.url since ∧
      (since.countP (Visit.typedTo P e.url) < 2 ^ 31 →
        e.typedCount = since.countP (Visit.typedTo P e.url)) := by
  have h := recorded_browse hP visits hrun hbound
  have hurls : d.history.map HistoryEntry.url =
      (firstOfEach toLower (addresses P visits)).take 5000 := by
    refine Eq.trans ?_ h.urls
    rw [entries, List.map_map]
    rfl
  have hdifferent : (d.history.map HistoryEntry.url).Pairwise fun a b => toLower a ≠ toLower b := by
    rw [hurls]
    exact (distinct_firstOfEach _).sublist (List.take_sublist _ _)
  rw [List.pairwise_map] at hdifferent
  refine ⟨?_, hdifferent, hurls, fun e he => ?_⟩
  · rw [← List.length_map HistoryEntry.url, hurls]
    exact List.length_take_le _ _
  · obtain ⟨since, hsince, hcount⟩ := h.since e.url
    refine ⟨since, hsince, fun hlt => ?_⟩
    rw [← countOf_entry (List.pairwise_map.2 hdifferent) he]
    exact hcount hlt

namespace Sample

/-- A page of `example.com`. -/
def page (path : String) : Option Str := some (str "https://example.com/" ++ str path)

/-- Two typed visits of a page, whose letters differ in their case, and one of another page between
them. -/
def visits : List Visit :=
  [⟨visitedAt, some (str "A page"), page "a", true⟩, ⟨visitedAt, none, page "b", false⟩,
    ⟨visitedAt, some (str "A page"), page "A", true⟩]

end Sample

theorem addHistory_invariants_of_visits : ∃ d, browse Sample.browser Sample.visits = some d ∧
    d.history.map HistoryEntry.counted =
      [(str "https://example.com/A", 2), (str "https://example.com/b", 0)] ∧
    d.history.length ≤ 5000 ∧
    (d.history.Pairwise fun a b => toLower a.url ≠ toLower b.url) ∧
    d.history.map HistoryEntry.url =
      (firstOfEach toLower (addresses Sample.browser Sample.visits)).take 5000 ∧
    ∀ e ∈ d.history, ∃ since, SinceAbsent Sample.browser Sample.visits e.url since ∧
      (since.countP (Visit.typedTo Sample.browser e.url) < 2 ^ 31 →
        e.typedCount = since.countP (Visit.typedTo Sample.browser e.url)) := by
  have hcounted : (browse Sample.browser Sample.visits).map
      (fun d => d.history.map HistoryEntry.counted) =
        some [(str "https://example.com/A", 2), (str "https://example.com/b", 0)] := by
    decide +kernel
  obtain ⟨d, hd, hhistory⟩ := Option.map_eq_some_iff.1 hcounted
  have hbound : Sample.visits.all (fun v => (tryNormalizeWebUrl Sample.browser v.url).all
      fun u => decide (length16 u.text ≤ 4096)) = true := by
    decide +kernel
  refine ⟨d, hd, hhistory, addHistory_invariants Sample.assumed_browser hd fun v hv u hu => ?_⟩
  have hall := List.all_eq_true.1 hbound v hv
  rw [hu] at hall
  exact of_decide_eq_true hall

end ZsecShield.Browser
