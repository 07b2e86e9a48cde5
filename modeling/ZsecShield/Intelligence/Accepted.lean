import ZsecShield.Feed.Rollback
import ZsecShield.Intelligence.Catalog
import ZsecShield.Lib.Json.Shape

/-!
# What an accepted catalog looks like

Every field of an accepted catalog has the type that the validator asks for, so a catalog
is a value with at most four levels (`shaped_of_validateCatalog`).  The numbers of the policy
are the only ones that may have a fraction, as `1.0` equals `True`.
-/

namespace ZsecShield.Intelligence

open Text (Str str)
open Checks
open Feed (field isText isText_iff members_of_fields distinct_field memberOf_eq_true)
open Json (Shaped)

/-- The floating point numbers that equal a truth value. -/
def TruthFloat (x : Float) : Prop := (x == 1.0) = true ∨ (x == 0.0) = true

theorem exactKeys_eq_ok {value : Members} {expected : List Str} {context : Str} {u : Unit} :
    exactKeys value expected context = .ok u ↔ Json.keysAre value expected = true := by
  unfold exactKeys
  simp only [require_eq_ok]

/-! ## Single fields -/

theorem textOf_eq_ok {value : Json} {name : Str} {minimum maximum : Nat} {t : Str}
    (h : textOf value name minimum maximum = .ok t) : ∃ s, value = .str s ∧ normalize s = t := by
  simp only [textOf, bind_eq_ok, fromOption_eq_ok, Json.strOf_eq_some] at h
  obtain ⟨s, hs, _, -, _, -, h⟩ := h
  cases h
  exact ⟨s, hs, rfl⟩

theorem str_of_parseTime {lib : Library} {value : Json} {name : Str} {d : DateTime}
    (h : parseTime lib value name = .ok d) : ∃ s, value = .str s := by
  obtain ⟨_, htext, -⟩ := bind_eq_ok.1 h
  obtain ⟨s, hs, -⟩ := textOf_eq_ok htext
  exact ⟨s, hs⟩

theorem str_of_timeOf {lib : Library} {value : Json} {name t : Str}
    (h : timeOf lib value name = .ok t) : ∃ s, value = .str s := by
  obtain ⟨_, hparsed, -⟩ := bind_eq_ok.1 h
  exact str_of_parseTime hparsed

theorem str_of_httpsUrl {lib : Library} {value : Json} {name t : Str}
    (h : httpsUrl lib value name = .ok t) : ∃ s, value = .str s := by
  obtain ⟨_, htext, -⟩ := bind_eq_ok.1 h
  obtain ⟨s, hs, -⟩ := textOf_eq_ok htext
  exact ⟨s, hs⟩

theorem str_of_isDigest {value : Json} (h : isDigest value = true) : ∃ s, value = .str s := by
  cases value with
  | str s => exact ⟨s, rfl⟩
  | _ => cases h

theorem str_of_any {value : Json} {p : Str → Bool} (h : value.strOf.any p = true) :
    ∃ s, value = .str s := by
  cases value with
  | str s => exact ⟨s, rfl⟩
  | _ => cases h

/-- What a field holds that was checked for a type without levels. -/
def Scalar (v : Json) : Prop := ∀ levels, Shaped TruthFloat levels v

theorem scalar_of_str {v : Json} (h : ∃ s, v = .str s) : Scalar v := by
  obtain ⟨s, rfl⟩ := h
  exact fun levels => .str levels s

theorem scalar_of_isText {v : Json} {t : Str} (h : isText v t = true) : Scalar v :=
  scalar_of_str ⟨t, isText_iff.1 h⟩

theorem scalar_of_isFlag {v : Json} (h : isFlag v = true) : Scalar v := by
  cases v with
  | null => exact fun levels => .null levels
  | bool b => exact fun levels => .bool levels b
  | _ => cases h

theorem scalar_of_equalsBool {v : Json} {b : Bool} (h : equalsBool v b = true) : Scalar v := by
  cases v with
  | null => exact fun levels => .null levels
  | bool b => exact fun levels => .bool levels b
  | int n => exact fun levels => .int levels n
  | str s => exact fun levels => .str levels s
  | float x =>
      refine fun levels => .float levels x ?_
      cases b with
      | true => exact .inl h
      | false => exact .inr h
  | arr _ => cases h
  | obj _ => cases h

/-- A list of texts. -/
theorem shaped_texts {elements : List Json} {p : Str → Bool}
    (h : ∀ e ∈ elements, e.strOf.any p = true) : Shaped TruthFloat 1 (.arr elements) :=
  .arr 0 _ fun e he => scalar_of_str (str_of_any (h e he)) 0

/-- A dictionary whose fields hold no further level. -/
theorem shaped_record {members : Members} {expected : List Str}
    (hd : Json.Distinct (.obj members)) (hkeys : Json.keysAre members expected = true)
    (h : ∀ k ∈ expected, Scalar ((Json.lookup k members).getD .null)) :
    Shaped TruthFloat 1 (.obj members) := by
  cases hd with
  | obj _ hnodup _ =>
      exact .obj 0 _ hnodup (members_of_fields (P := Shaped TruthFloat 0) hkeys hnodup
        fun k hk => h k hk 0)

theorem shaped_policy {v : Json} {expected : List (Str × Bool)} (hd : Json.Distinct v)
    (h : isPolicy v expected = true) : Shaped TruthFloat 1 v := by
  cases v with
  | obj members =>
      simp only [isPolicy, Bool.and_eq_true, List.all_eq_true] at h
      refine shaped_record hd h.1 ?_
      intro k hk
      obtain ⟨e, he, rfl⟩ := List.mem_map.1 hk
      exact scalar_of_equalsBool (h.2 e he)
  | _ => cases h

/-! ## Sources -/

theorem shaped_of_checkSource {lib : Library} {known : SourceMap} {source : Json} {index : Nat}
    {r : Str × Members × Str} (hd : Json.Distinct source)
    (h : checkSource lib known source index = .ok r) : Shaped TruthFloat 1 source := by
  simp only [checkSource, bind_eq_ok, fromOption_eq_ok, Json.objOf_eq_some, exactKeys_eq_ok,
    require_eq_ok] at h
  obtain ⟨members, rfl, _, hkeys, sourceId, hid, _, -, _, hauthority, _, hurl, _, -, _, -, _,
    hversion, _, hbody, _, hcontribution, _, hsemantic, _, hcount, _, hparser, -⟩ := h
  refine shaped_record hd hkeys fun k hk => ?_
  obtain ⟨count, hcount'⟩ : ∃ n, field members "advisory_count" = .int n := by
    cases hint : (field members "advisory_count").intOf with
    | some n => exact ⟨n, Json.intOf_eq_some.1 hint⟩
    | none =>
        rw [hint] at hcount
        cases hcount
  simp only [sourceFields, List.mem_cons, List.not_mem_nil, or_false] at hk
  rcases hk with rfl | rfl | rfl | rfl | rfl | rfl | rfl | rfl | rfl
  · obtain ⟨s, hs, -⟩ := textOf_eq_ok hid
    exact scalar_of_str ⟨s, hs⟩
  · obtain ⟨s, hs, -⟩ := textOf_eq_ok hauthority
    exact scalar_of_str ⟨s, hs⟩
  · exact scalar_of_str (str_of_httpsUrl hurl)
  · exact scalar_of_str (str_of_timeOf hversion)
  · exact scalar_of_str (str_of_isDigest hbody)
  · exact scalar_of_str (str_of_isDigest hcontribution)
  · exact scalar_of_str (str_of_isDigest hsemantic)
  · intro levels
    have hfield : (Json.lookup (str "advisory_count") members).getD .null = .int count := hcount'
    rw [hfield]
    exact .int levels count
  · obtain ⟨s, hs, -⟩ := textOf_eq_ok hparser
    exact scalar_of_str ⟨s, hs⟩

/-- The sources read so far have URLs. -/
def Located (sources : SourceMap) : Prop := ∀ s ∈ sources, ∃ url, field s.2 "url" = .str url

theorem url_of_checkSource {lib : Library} {known : SourceMap} {source : Json} {index : Nat}
    {r : Str × Members × Str} (h : checkSource lib known source index = .ok r) :
    ∃ url, field r.2.1 "url" = .str url := by
  simp only [checkSource, bind_eq_ok] at h
  obtain ⟨members, -, _, -, _, -, _, -, _, -, url, hurl, _, -, _, -, _, -, _, -, _, -, _, -, _, -, _,
    -, h⟩ := h
  cases h
  exact str_of_httpsUrl hurl

theorem located_of_checkSources {lib : Library} {sources : List Json} :
    ∀ {known : SourceMap} {versions : List Str} {index : Nat} {r : SourceMap × List Str},
      Located known → checkSources lib known versions index sources = .ok r → Located r.1 := by
  induction sources with
  | nil =>
      intro known versions index r hknown h
      cases h
      exact hknown
  | cons source sources ih =>
      intro known versions index r hknown h
      obtain ⟨⟨sourceId, members, version⟩, hsource, hrest⟩ := bind_eq_ok.1 h
      refine ih ?_ hrest
      intro s hs
      rcases List.mem_append.1 hs with hs | hs
      · exact hknown s hs
      · rw [List.mem_singleton.1 hs]
        exact url_of_checkSource hsource

theorem shaped_of_checkSources {lib : Library} {sources : List Json} :
    ∀ {known : SourceMap} {versions : List Str} {index : Nat} {r : SourceMap × List Str},
      (∀ s ∈ sources, Json.Distinct s) → checkSources lib known versions index sources = .ok r →
      ∀ s ∈ sources, Shaped TruthFloat 1 s := by
  induction sources with
  | nil => exact fun _ _ s hs => nomatch hs
  | cons source sources ih =>
      intro known versions index r hd h
      obtain ⟨_, hsource, hrest⟩ := bind_eq_ok.1 h
      have hhead := shaped_of_checkSource (hd source List.mem_cons_self) hsource
      have htail := ih (fun s hs => hd s (List.mem_cons_of_mem _ hs)) hrest
      exact List.forall_mem_cons.2 ⟨hhead, htail⟩

/-! ## Advisories -/

theorem shaped_of_checkPlatforms {v : Json} {name : Str} {u : Unit}
    (h : checkPlatforms v name = .ok u) : Shaped TruthFloat 1 v := by
  simp only [checkPlatforms, bind_eq_ok, fromOption_eq_ok, Json.arrOf_eq_some, require_eq_ok] at h
  obtain ⟨elements, rfl, _, -, _, -, -, hall⟩ := h
  exact shaped_texts hall

theorem shaped_of_checkCves {v : Json} {name : Str} {u : Unit} (h : checkCves v name = .ok u) :
    Shaped TruthFloat 1 v := by
  simp only [checkCves, bind_eq_ok, fromOption_eq_ok, Json.arrOf_eq_some, require_eq_ok] at h
  obtain ⟨elements, rfl, _, -, _, -, -, hall⟩ := h
  exact shaped_texts hall

theorem str_of_checkProducts {name : Str} {products : List Json} {u : Unit}
    (h : checkProducts name products = .ok u) : ∀ p ∈ products, ∃ s, p = .str s := by
  induction products with
  | nil => exact fun p hp => nomatch hp
  | cons product products ih =>
      obtain ⟨_, hproduct, hrest⟩ := bind_eq_ok.1 h
      obtain ⟨s, hs, -⟩ := textOf_eq_ok hproduct
      exact List.forall_mem_cons.2 ⟨⟨s, hs⟩, ih hrest⟩

theorem shaped_of_checkProductList {v : Json} {name : Str} {u : Unit}
    (h : checkProductList v name = .ok u) : Shaped TruthFloat 1 v := by
  simp only [checkProductList, bind_eq_ok, fromOption_eq_ok, Json.arrOf_eq_some] at h
  obtain ⟨elements, rfl, _, -, _, -, _, -, hproducts⟩ := h
  exact .arr 0 _ fun e he => scalar_of_str (str_of_checkProducts hproducts e he) 0

theorem shaped_of_checkProvenance {v : Json} {source : Members} {name : Str} {u : Unit}
    (hd : Json.Distinct v) (h : checkProvenance v source name = .ok u) : Shaped TruthFloat 1 v := by
  simp only [checkProvenance, bind_eq_ok, fromOption_eq_ok, Json.objOf_eq_some, exactKeys_eq_ok,
    require_eq_ok] at h
  obtain ⟨members, rfl, _, hkeys, _, ⟨hdigest, -⟩, _, hrecord, _, hparser, -⟩ := h
  refine shaped_record hd hkeys fun k hk => ?_
  simp only [provenanceFields, List.mem_cons, List.not_mem_nil, or_false] at hk
  rcases hk with rfl | rfl | rfl
  · exact scalar_of_str (str_of_isDigest hdigest)
  · obtain ⟨s, hs, -⟩ := textOf_eq_ok hrecord
    exact scalar_of_str ⟨s, hs⟩
  · obtain ⟨s, hs, -⟩ := textOf_eq_ok hparser
    exact scalar_of_str ⟨s, hs⟩

theorem shaped_of_checkZba {rt : Runtime} {crypto : Crypto} {advisory : Members} {name : Str}
    {u : Unit} (hd : Json.Distinct (field advisory "zba"))
    (h : checkZba rt crypto advisory name = .ok u) : Shaped TruthFloat 1 (field advisory "zba") := by
  simp only [checkZba, bind_eq_ok, fromOption_eq_ok, Json.objOf_eq_some, exactKeys_eq_ok,
    require_eq_ok] at h
  obtain ⟨members, hmembers, _, hkeys, _, ⟨hspec, hphase, hevidence, hcommitment⟩, -⟩ := h
  rw [hmembers] at hd ⊢
  refine shaped_record hd hkeys fun k hk => ?_
  simp only [zbaFields, List.mem_cons, List.not_mem_nil, or_false] at hk
  rcases hk with rfl | rfl | rfl | rfl
  · exact scalar_of_isText hspec
  · exact scalar_of_isText hphase
  · exact scalar_of_isText hevidence
  · exact scalar_of_str (str_of_isDigest hcommitment)

theorem shaped_of_checkAdvisory {rt : Runtime} {crypto : Crypto} {lib : Library}
    {sources : SourceMap} {identifiers : List Str} {advisory : Json} {index : Nat}
    {r : Str × Str × Members} (hd : Json.Distinct advisory) (hsources : Located sources)
    (h : checkAdvisory rt crypto lib sources identifiers advisory index = .ok r) :
    Shaped TruthFloat 2 advisory := by
  simp only [checkAdvisory, bind_eq_ok, fromOption_eq_ok, Json.objOf_eq_some, exactKeys_eq_ok,
    checkContent, checkTimes, require_eq_ok] at h
  obtain ⟨members, rfl, _, hkeys, identifier, hid, _, -, sourceId, hsource, source, hlookup, _,
    ⟨_, hsourceUrl, _, hrecord, _, htitle, _, hsummary, _, ⟨_, hpublished, _, hmodified, -⟩, _,
      hplatforms, _, hcves, _, hknown, _, hseverity, _, hexploited, _, hransomware, _, haction,
      hproducts⟩, _, hprovenance, _, hzba, -⟩ := h
  subst hseverity
  obtain ⟨severity, -, hseverity⟩ := memberOf_eq_true hknown
  have hnodup : (members.map Prod.fst).Nodup := by
    cases hd with
    | obj _ hnodup _ => exact hnodup
  have hurl : Scalar (field members "source_url") := by
    obtain ⟨url, hurl⟩ := hsources _ (Json.mem_of_lookup hlookup)
    rw [hurl] at hsourceUrl
    exact scalar_of_str ⟨url, Json.strOf_eq_some.1 hsourceUrl⟩
  refine .obj 1 _ hnodup (members_of_fields (P := Shaped TruthFloat 1) hkeys hnodup fun k hk => ?_)
  simp only [advisoryFields, List.mem_cons, List.not_mem_nil, or_false] at hk
  rcases hk with rfl | rfl | rfl | rfl | rfl | rfl | rfl | rfl | rfl | rfl | rfl | rfl | rfl |
    rfl | rfl | rfl | rfl
  · obtain ⟨s, hs, -⟩ := textOf_eq_ok hid
    exact scalar_of_str ⟨s, hs⟩ 1
  · obtain ⟨s, hs, -⟩ := textOf_eq_ok hsource
    exact scalar_of_str ⟨s, hs⟩ 1
  · exact hurl 1
  · exact scalar_of_str (str_of_httpsUrl hrecord) 1
  · obtain ⟨s, hs, -⟩ := textOf_eq_ok htitle
    exact scalar_of_str ⟨s, hs⟩ 1
  · obtain ⟨s, hs, -⟩ := textOf_eq_ok hsummary
    exact scalar_of_str ⟨s, hs⟩ 1
  · exact scalar_of_str (str_of_parseTime hpublished) 1
  · exact scalar_of_str (str_of_parseTime hmodified) 1
  · exact shaped_of_checkPlatforms hplatforms
  · exact shaped_of_checkCves hcves
  · exact scalar_of_str ⟨severity, hseverity⟩ 1
  · exact scalar_of_isFlag hexploited 1
  · exact scalar_of_isFlag hransomware 1
  · obtain ⟨s, hs, -⟩ := textOf_eq_ok haction
    exact scalar_of_str ⟨s, hs⟩ 1
  · exact shaped_of_checkProductList hproducts
  · exact shaped_of_checkProvenance (distinct_field hd "provenance") hprovenance
  · exact shaped_of_checkZba (distinct_field hd "zba") hzba

theorem shaped_of_checkAdvisories {rt : Runtime} {crypto : Crypto} {lib : Library}
    {sources : SourceMap} (hsources : Located sources) {advisories : List Json} :
    ∀ {identifiers : List Str} {contributions result : Contributions} {index : Nat},
      (∀ a ∈ advisories, Json.Distinct a) →
      checkAdvisories rt crypto lib sources identifiers contributions index advisories = .ok result →
      ∀ a ∈ advisories, Shaped TruthFloat 2 a := by
  induction advisories with
  | nil => exact fun _ _ a ha => nomatch ha
  | cons advisory advisories ih =>
      intro identifiers contributions result index hd h
      obtain ⟨_, hadvisory, hrest⟩ := bind_eq_ok.1 h
      have hhead := shaped_of_checkAdvisory (hd advisory List.mem_cons_self) hsources hadvisory
      have htail := ih (fun a ha => hd a (List.mem_cons_of_mem _ ha)) hrest
      exact List.forall_mem_cons.2 ⟨hhead, htail⟩

/-! ## The catalog -/

theorem distinct_of_arr {elements : List Json} (h : Json.Distinct (.arr elements)) :
    ∀ e ∈ elements, Json.Distinct e := by
  cases h with
  | arr _ h => exact h

/-- An accepted catalog has at most four levels. -/
theorem shaped_of_validateCatalog {rt : Runtime} {crypto : Crypto} {lib : Library} {catalog : Json}
    {sources : SourceMap} (hd : Json.Distinct catalog)
    (h : validateCatalog rt crypto lib catalog = .ok sources) : Shaped TruthFloat 4 catalog := by
  simp only [validateCatalog, bind_eq_ok, fromOption_eq_ok, Json.objOf_eq_some, exactKeys_eq_ok,
    Json.arrOf_eq_some, require_eq_ok] at h
  obtain ⟨members, rfl, _, hkeys, _, hschema, generated, hgenerated, _, -, _, hpolicy, records,
    hrecords, _, -, advisories, hadvisories, _, -, ⟨sourceMap, versions⟩, hsources, _, -,
    contributions, hcontributions, -⟩ := h
  have hnodup : (members.map Prod.fst).Nodup := by
    cases hd with
    | obj _ hnodup _ => exact hnodup
  have hdrecords := distinct_field hd "sources"
  have hdadvisories := distinct_field hd "advisories"
  rw [hrecords] at hdrecords
  rw [hadvisories] at hdadvisories
  have hnone : Located [] := fun _ hs => by cases hs
  have hlocated := located_of_checkSources hnone hsources
  have hfirst := shaped_of_checkSources (distinct_of_arr hdrecords) hsources
  have hsecond := shaped_of_checkAdvisories hlocated (distinct_of_arr hdadvisories) hcontributions
  refine .obj 3 _ hnodup (members_of_fields (P := Shaped TruthFloat 3) hkeys hnodup fun k hk => ?_)
  simp only [catalogFields, List.mem_cons, List.not_mem_nil, or_false] at hk
  rcases hk with rfl | rfl | rfl | rfl | rfl
  · exact scalar_of_isText hschema 3
  · exact scalar_of_str (str_of_timeOf hgenerated) 3
  · exact (shaped_policy (distinct_field hd "policy") hpolicy).mono (by omega)
  · have hfield : (Json.lookup (str "sources") members).getD .null = .arr records := hrecords
    rw [hfield]
    exact (Shaped.arr 1 _ hfirst).mono (by omega)
  · have hfield : (Json.lookup (str "advisories") members).getD .null = .arr advisories := hadvisories
    rw [hfield]
    exact .arr 2 _ hsecond

/-! ### A catalog with one advisory -/

namespace Sample

/-- `urlsplit` of the two URLs of the catalog; any other text is taken for a path. -/
def library : Library where
  urlsplit := fun text =>
    if text = cisaKevUrl then
      .ok ⟨str "https", str "www.cisa.gov",
        str "/sites/default/files/feeds/known_exploited_vulnerabilities.json", [], [], none, none,
        some (str "www.cisa.gov")⟩
    else if text = str "https://nvd.nist.gov/vuln/detail/CVE-2026-0001" then
      .ok ⟨str "https", str "nvd.nist.gov", str "/vuln/detail/CVE-2026-0001", [], [], none, none,
        some (str "nvd.nist.gov")⟩
    else .ok ⟨[], [], text, [], [], none, none, none⟩
  parsedate := fun _ => .error (.valueError (str "Invalid date value or format"))
  strptime := fun _ => none

def body : Str := List.replicate 64 (Text.ofChar 'a')

def day : Json := .str (str "2026-01-01T00:00:00Z")

/-! The digests of the parts of the catalog, and of the catalog. -/

def commitment : Bytes :=
  [37, 85, 14, 172, 208, 23, 15, 250, 166, 231, 196, 254, 243, 13, 221, 201, 0, 47, 10, 159, 224, 217,
    222, 141, 96, 165, 243, 207, 124, 52, 172, 143]

def contribution : Bytes :=
  [230, 16, 126, 57, 89, 225, 64, 151, 240, 78, 210, 160, 51, 203, 148, 169, 113, 35, 183, 195, 58,
    184, 40, 29, 251, 59, 254, 54, 137, 179, 47, 115]

def semanticDigest : Bytes :=
  [15, 149, 137, 241, 14, 79, 166, 132, 139, 141, 5, 63, 84, 184, 202, 226, 74, 25, 221, 219, 15, 121,
    153, 189, 237, 77, 57, 229, 164, 16, 141, 179]

def catalogDigest : Bytes :=
  [111, 98, 74, 68, 92, 204, 41, 157, 34, 112, 194, 95, 191, 55, 37, 203, 184, 241, 169, 92, 215, 113,
    63, 3, 45, 161, 186, 211, 69, 64, 167, 44]

def zba : Json :=
  .obj [(str "commitment", .str (hexText commitment)),
    (str "evidence", .str (str "authoritative-advisory")), (str "phase", .str (str "observed")),
    (str "spec", .str zbaIntelligenceSpec)]

def provenance : Members :=
  [(str "parser", .str (str "kev-v1")), (str "source_body_sha256", .str body),
    (str "source_record_id", .str (str "CVE-2026-0001"))]

def advisory : Members :=
  [(str "action", .str (str "Update")), (str "cve_ids", .arr [.str (str "CVE-2026-0001")]),
    (str "exploited", .bool true), (str "id", .str (str "CVE-2026-0001")), (str "modified_at", day),
    (str "platforms", .arr [.str (str "windows")]),
    (str "products", .arr [.str (str "A product")]), (str "provenance", .obj provenance),
    (str "published_at", day), (str "ransomware", .null),
    (str "record_url", .str (str "https://nvd.nist.gov/vuln/detail/CVE-2026-0001")),
    (str "severity", .str (str "high")), (str "source_id", .str (str "cisa-kev")),
    (str "source_url", .str cisaKevUrl), (str "summary", .str (str "A summary")),
    (str "title", .str (str "A title")), (str "zba", zba)]

def source : Members :=
  [(str "advisory_count", .int 1), (str "authority", .str (str "CISA")),
    (str "body_sha256", .str body), (str "contribution_sha256", .str (hexText contribution)),
    (str "parser", .str (str "kev-v1")), (str "semantic_sha256", .str (hexText semanticDigest)),
    (str "source_id", .str (str "cisa-kev")), (str "url", .str cisaKevUrl), (str "version", day)]

def policy : Json := .obj (dataOnlyPolicy.map fun e => (e.1, .bool e.2))

def catalog : Members :=
  [(str "advisories", .arr [.obj advisory]), (str "generated_at", day), (str "policy", policy),
    (str "schema", .str catalogSchema), (str "sources", .arr [.obj source])]

/-- The canonical bytes of a value. -/
def canonical (value : Json) : Bytes :=
  (Util.canonicalJsonBytes Feed.Sample.runtime value).toOption.getD []

/-- The digests of the catalog and of its parts. -/
def digest (data : Bytes) : Bytes :=
  if data = zbaDomain ++ canonical (.obj (projection advisory)) then commitment
  else if data = canonical (.arr [.obj advisory]) then contribution
  else if data = canonical (.arr [.obj (semantic advisory)]) then semanticDigest
  else if data = canonical (.obj catalog) ++ [10] then catalogDigest
  else List.replicate 32 0

/-- The digests, and one key that has signed some messages. -/
def crypto (signed : List (Bytes × Bytes)) : Crypto where
  sha256 := digest
  length_sha256 := by
    intro data
    unfold digest
    repeat' split
    all_goals rfl
  ed25519 := fun key signature data =>
    decide (key = Feed.Sample.publicKey ∧ (signature, data) ∈ signed)

theorem hexdigest_crypto (signed : List (Bytes × Bytes)) (data : Bytes) :
    (crypto signed).hexdigest data = hexText (digest data) := rfl

theorem writable_of_isPlain {value : Json}
    (h : Json.isPlain Feed.Sample.runtime.intDigits value = true) (hdepth : value.depth ≤ 64) :
    Util.Writable Feed.Sample.runtime value :=
  ⟨(Json.isPlain_iff.1 h).1, hdepth, (Json.isPlain_iff.1 h).2⟩

theorem canonical_eq {value : Json} (h : Util.Writable Feed.Sample.runtime value) :
    Util.canonicalJsonBytes Feed.Sample.runtime value = .ok (canonical value) := by
  obtain ⟨data, hdata⟩ := h.encodeJson (σ := .canonical) (Text.encodable_str _)
  have heq : Util.canonicalJsonBytes Feed.Sample.runtime value = .ok data := hdata
  rw [canonical, heq]
  rfl

/-- Different values have different bytes. -/
theorem canonical_ne {a b : Json} (ha : Util.Writable Feed.Sample.runtime a)
    (hb : Util.Writable Feed.Sample.runtime b) (hne : a.sortKeys ≠ b.sortKeys) {s t : Bytes}
    (hs : s = [] ∨ s = [10]) (ht : t = [] ∨ t = [10]) : canonical a ++ s ≠ canonical b ++ t := by
  intro heq
  have hread := ha.strictJsonLoads Json.separates_canonical rfl (canonical_eq ha) hs
  rw [heq, hb.strictJsonLoads Json.separates_canonical rfl (canonical_eq hb) ht] at hread
  exact hne (Except.ok.inj hread).symm

theorem encodable_digests : Text.Encodable (hexText commitment) ∧
    Text.Encodable (hexText contribution) ∧ Text.Encodable (hexText semanticDigest) := by
  have h : ∀ {data : Bytes}, data.length = 32 → Text.Encodable (hexText data) :=
    fun hlength => Feed.encodable_of_isSha256 (Feed.isSha256_hexText hlength)
  exact ⟨h rfl, h rfl, h rfl⟩

theorem encodable_body : Text.Encodable body := by
  intro c hc
  rw [List.eq_of_mem_replicate hc]
  decide

/-- The members stand in the order of their keys. -/
instance ordered : Fact (
    (∀ members ∈ zba.objOf, Json.Ordered members) ∧ Json.Ordered provenance ∧
    Json.Ordered advisory ∧ Json.Ordered source ∧ (∀ members ∈ policy.objOf, Json.Ordered members) ∧
    Json.Ordered catalog) :=
  ⟨by decide +kernel⟩

/-- What is evaluated of the commitment and of the semantic record. -/
instance evaluated : Fact (
    (Json.obj (projection advisory)).depth ≤ 63 ∧
    (Json.obj (semantic advisory)).depth ≤ 63 ∧ (semantic advisory).length ≠ advisory.length ∧
    (∀ members ∈ zba.objOf, Json.keysAre members zbaFields = true ∧
      (isText (field members "spec") zbaIntelligenceSpec = true ∧
        isText (field members "phase") (str "observed") = true ∧
        isText (field members "evidence") (str "authoritative-advisory") = true ∧
        isDigest (field members "commitment") = true) ∧
      isText (field members "commitment") (hexText commitment) = true)) :=
  ⟨by decide +kernel⟩

theorem plain_zba : Json.isPlain Feed.Sample.runtime.intDigits zba = true := by
  refine (Json.isPlain_obj _ _).2 ⟨(ordered.out.1 _ rfl).nodup, ?_, ?_⟩
  · simp [Text.encodable_str]
  · simp [zbaIntelligenceSpec, Text.encodable_str, encodable_digests]

theorem plain_provenance : Json.isPlain Feed.Sample.runtime.intDigits (.obj provenance) = true := by
  refine (Json.isPlain_obj _ _).2 ⟨ordered.out.2.1.nodup, ?_, ?_⟩
  · simp [provenance, Text.encodable_str]
  · simp [provenance, encodable_body, Text.encodable_str]

theorem plain_advisory : Json.isPlain Feed.Sample.runtime.intDigits (.obj advisory) = true := by
  refine (Json.isPlain_obj _ _).2 ⟨ordered.out.2.2.1.nodup, ?_, ?_⟩
  · simp only [advisory, List.forall_mem_cons, Text.encodable_str, true_and]
    simp
  · simp only [advisory, List.forall_mem_cons, day, plain_zba, plain_provenance, cisaKevUrl,
      Json.isPlain_null, Json.isPlain_bool, Json.isPlain_str, Json.isPlain_arr, Text.encodable_str,
      decide_true, true_and]
    simp

theorem plain_semantic :
    Json.isPlain Feed.Sample.runtime.intDigits (.obj (semantic advisory)) = true := by
  have hkept := (Json.isPlain_obj _ _).1 (Json.isPlain_filter plain_advisory
    fun m => decide (m.1 ≠ str "provenance" ∧ m.1 ≠ str "zba"))
  refine (Json.isPlain_obj _ _).2 ⟨?_, ?_, ?_⟩
  · rw [semantic, List.map_append, List.nodup_append]
    refine ⟨hkept.1, by simp, ?_⟩
    intro k hk k' hk'
    obtain ⟨m, hm, rfl⟩ := List.mem_map.1 hk
    have hne := (of_decide_eq_true (List.mem_filter.1 hm).2).1
    rw [List.map_singleton, List.mem_singleton] at hk'
    exact hk' ▸ hne
  · exact List.forall_mem_append.2 ⟨hkept.2.1, by simp [Text.encodable_str]⟩
  · refine List.forall_mem_append.2 ⟨hkept.2.2, ?_⟩
    have hfields : field provenance "source_record_id" = .str (str "CVE-2026-0001") ∧
        field provenance "parser" = .str (str "kev-v1") := ⟨rfl, rfl⟩
    have hfound : ((field advisory "provenance").objOf).getD [] = provenance := rfl
    rw [hfound, hfields.1, hfields.2, List.forall_mem_singleton, Json.isPlain_obj]
    have hne : str "source_record_id" ≠ str "parser" := by decide
    exact ⟨by simp [hne], by simp [Text.encodable_str], by simp [Text.encodable_str]⟩

theorem plain_source : Json.isPlain Feed.Sample.runtime.intDigits (.obj source) = true := by
  refine (Json.isPlain_obj _ _).2 ⟨ordered.out.2.2.2.1.nodup, ?_, ?_⟩
  · simp only [source, List.forall_mem_cons, Text.encodable_str, true_and]
    simp
  · have hone : Json.isPlain Feed.Sample.runtime.intDigits (.int 1) = true := by decide
    simp only [source, List.forall_mem_cons, day, hone, encodable_body, cisaKevUrl, Json.isPlain_str,
      Text.encodable_str, encodable_digests, decide_true, true_and]
    simp

theorem plain_policy : Json.isPlain Feed.Sample.runtime.intDigits policy = true := by
  refine (Json.isPlain_obj _ _).2 ⟨(ordered.out.2.2.2.2.1 _ rfl).nodup, ?_, ?_⟩
  · simp [dataOnlyPolicy, Text.encodable_str]
  · simp [dataOnlyPolicy]

theorem plain_catalog : Json.isPlain Feed.Sample.runtime.intDigits (.obj catalog) = true := by
  refine (Json.isPlain_obj _ _).2 ⟨ordered.out.2.2.2.2.2.nodup, ?_, ?_⟩
  · simp [catalog, Text.encodable_str]
  · simp [catalog, day, plain_advisory, plain_source, plain_policy, catalogSchema,
      Text.encodable_str]

theorem sorted_zba : zba.sortKeys = zba :=
  Json.sortKeys_obj_of_ordered (ordered.out.1 _ rfl) (by simp [Json.sortKeys])

theorem sorted_provenance : (Json.obj provenance).sortKeys = .obj provenance :=
  Json.sortKeys_obj_of_ordered ordered.out.2.1 (by simp [provenance, Json.sortKeys])

theorem sorted_advisory : (Json.obj advisory).sortKeys = .obj advisory := by
  refine Json.sortKeys_obj_of_ordered ordered.out.2.2.1 ?_
  simp only [advisory, List.forall_mem_cons, sorted_zba, day, Json.sortKeys, Json.sortElements,
    true_and]
  rw [← Json.sortKeys, sorted_provenance]
  simp

theorem sorted_source : (Json.obj source).sortKeys = .obj source := by
  refine Json.sortKeys_obj_of_ordered ordered.out.2.2.2.1 ?_
  simp only [source, List.forall_mem_cons, day, Json.sortKeys, true_and]
  simp

theorem sorted_policy : policy.sortKeys = policy :=
  Json.sortKeys_obj_of_ordered (ordered.out.2.2.2.2.1 _ rfl) (by simp [dataOnlyPolicy, Json.sortKeys])

theorem sorted_catalog : (Json.obj catalog).sortKeys = .obj catalog := by
  refine Json.sortKeys_obj_of_ordered ordered.out.2.2.2.2.2 ?_
  simp only [catalog, List.forall_mem_cons, day, sorted_policy, Json.sortKeys, Json.sortElements,
    true_and]
  rw [← Json.sortKeys, sorted_advisory, ← Json.sortKeys, sorted_source]
  simp

/-! The digests. -/

theorem writable_arr {value : Json}
    (h : Json.isPlain Feed.Sample.runtime.intDigits value = true) (hdepth : value.depth ≤ 63) :
    Util.Writable Feed.Sample.runtime (.arr [value]) := by
  refine writable_of_isPlain ?_ ?_
  · rw [Json.isPlain_arr]
    simpa using h
  · simp only [Json.depth, Json.depthElements]
    omega

/-- The bytes of a dictionary or a list do not start like a domain. -/
theorem domain_ne {value : Json} (h : Util.Writable Feed.Sample.runtime value) {c : Char}
    {rest : Str} (htext : Json.text .canonical value = Text.ofChar c :: rest)
    (hc : c = '[' ∨ c = '{') (s t : Bytes) : canonical value ++ s ≠ zbaDomain ++ t := by
  intro heq
  have hencoded := Util.encodeJson_eq_ok (canonical_eq h)
  rw [htext] at hencoded
  obtain ⟨tail, htail⟩ := Text.encodeUtf8_ofChar hencoded
  have hhead := congrArg List.head? heq
  have hdomain : (zbaDomain ++ t).head? = some 90 := rfl
  rw [hdomain, htail, List.append_assoc] at hhead
  rcases hc with rfl | rfl
  · have hne : some (91 : UInt8) ≠ some 90 := by decide
    exact hne hhead
  · have hne : some (123 : UInt8) ≠ some 90 := by decide
    exact hne hhead

theorem digest_projection : digest (zbaDomain ++ canonical (.obj (projection advisory))) = commitment :=
  if_pos rfl

theorem writable_catalog : Util.Writable Feed.Sample.runtime (.obj catalog) :=
  writable_of_isPlain plain_catalog (by decide)

theorem writable_contribution : Util.Writable Feed.Sample.runtime (.arr [.obj advisory]) :=
  writable_arr plain_advisory (by decide)

theorem writable_semantic : Util.Writable Feed.Sample.runtime (.arr [.obj (semantic advisory)]) :=
  writable_arr plain_semantic evaluated.out.2.1

theorem digest_contribution : digest (canonical (.arr [.obj advisory])) = contribution := by
  have hdomain := domain_ne writable_contribution rfl (.inl rfl) []
    (canonical (.obj (projection advisory)))
  rw [List.append_nil] at hdomain
  rw [digest, if_neg hdomain, if_pos rfl]

theorem digest_semantic : digest (canonical (.arr [.obj (semantic advisory)])) =
    semanticDigest := by
  have hdomain := domain_ne writable_semantic rfl (.inl rfl) []
    (canonical (.obj (projection advisory)))
  -- The provenance is shorter and the commitment is missing.
  have hne : (Json.arr [.obj (semantic advisory)]).sortKeys ≠ (Json.arr [.obj advisory]).sortKeys := by
    intro heq
    simp only [Json.sortKeys, Json.sortElements, Json.arr.injEq, List.cons.injEq, Json.obj.injEq] at heq
    have hlength := congrArg List.length heq.1
    rw [(Json.perm_sortMembers _).length_eq, (Json.perm_sortMembers _).length_eq,
      Json.sortValues_eq_map, Json.sortValues_eq_map, List.length_map, List.length_map] at hlength
    exact evaluated.out.2.2.1 hlength
  have hcontribution := canonical_ne (s := []) (t := []) writable_semantic writable_contribution
    hne (.inl rfl) (.inl rfl)
  rw [List.append_nil] at hdomain
  rw [List.append_nil, List.append_nil] at hcontribution
  rw [digest, if_neg hdomain, if_neg hcontribution, if_pos rfl]

theorem digest_catalog : digest (canonical (.obj catalog) ++ [10]) = catalogDigest := by
  have hdomain := domain_ne writable_catalog rfl (.inr rfl) [10]
    (canonical (.obj (projection advisory)))
  have hcontribution := canonical_ne (s := [10]) (t := []) writable_catalog writable_contribution
    (by rw [sorted_catalog, Json.sortKeys]; simp) (.inr rfl) (.inl rfl)
  have hsemantic := canonical_ne (s := [10]) (t := []) writable_catalog writable_semantic
    (by rw [sorted_catalog, Json.sortKeys]; simp) (.inr rfl) (.inl rfl)
  rw [List.append_nil] at hcontribution hsemantic
  rw [digest, if_neg hdomain, if_neg hcontribution, if_neg hsemantic, if_pos rfl]

instance source_values : Fact (
    Json.keysAre source sourceFields = true ∧
    textOf (field source "source_id") (str "source " ++ Feed.natText 0 ++ str " id") 3 64 =
      .ok (str "cisa-kev") ∧ str "cisa-kev" ∈ sourceIds ∧
    textOf (field source "authority") (str "source " ++ str "cisa-kev" ++ str " authority") 3 200 =
      .ok (str "CISA") ∧
    httpsUrl library (field source "url") (str "source " ++ str "cisa-kev" ++ str " URL") =
      .ok cisaKevUrl ∧
    sourceUrlAllowed library (str "cisa-kev") cisaKevUrl = .ok true ∧
    timeOf library (field source "version") (str "source " ++ str "cisa-kev" ++ str " version") =
      .ok (str "2026-01-01T00:00:00Z") ∧
    isDigest (field source "body_sha256") = true ∧
    isDigest (field source "contribution_sha256") = true ∧
    isDigest (field source "semantic_sha256") = true ∧
    (field source "advisory_count").intOf.any (0 ≤ ·) = true ∧
    textOf (field source "parser") (str "source " ++ str "cisa-kev" ++ str " parser") 3 80 =
      .ok (str "kev-v1")) :=
  ⟨by decide +kernel⟩

/-- The source is read. -/
theorem checkSources_source : checkSources library [] [] 0 [.obj source] =
    .ok ([(str "cisa-kev", source)], [str "2026-01-01T00:00:00Z"]) := by
  obtain ⟨hkeys, hid, hknown, hauthority, hurl, hallowed, hversion, hbody, hcontribution, hsemantic,
    hcount, hparser⟩ := source_values.out
  have hsource : checkSource library [] (.obj source) 0 =
      .ok (str "cisa-kev", source, str "2026-01-01T00:00:00Z") := by
    simp only [checkSource, bind_eq_ok, fromOption_eq_ok, exactKeys_eq_ok, require_eq_ok]
    exact ⟨source, rfl, (), hkeys, _, hid, (), ⟨hknown, by simp⟩, _, hauthority, _, hurl, _, hallowed,
      (), rfl, _, hversion, (), hbody, (), hcontribution, (), hsemantic, (), hcount, _, hparser, rfl⟩
  exact bind_eq_ok.2 ⟨_, hsource, rfl⟩

instance advisory_texts : Fact (
    Json.keysAre advisory advisoryFields = true ∧
    textOf (field advisory "id") (str "advisory " ++ Feed.natText 0 ++ str " id") 3 160 =
      .ok (str "CVE-2026-0001") ∧
    textOf (field advisory "source_id") (str "advisory " ++ str "CVE-2026-0001" ++ str " source") 3 64 =
      .ok (str "cisa-kev") ∧
    (field advisory "source_url").strOf = (field source "url").strOf ∧
    httpsUrl library (field advisory "record_url")
        (str "advisory " ++ str "CVE-2026-0001" ++ str " record URL") =
      .ok (str "https://nvd.nist.gov/vuln/detail/CVE-2026-0001") ∧
    textOf (field advisory "title") (str "advisory " ++ str "CVE-2026-0001" ++ str " title") 1 300 =
      .ok (str "A title") ∧
    textOf (field advisory "summary") (str "advisory " ++ str "CVE-2026-0001" ++ str " summary") 1
      maxText = .ok (str "A summary")) :=
  ⟨by decide +kernel⟩

instance advisory_values : Fact (
    checkTimes library advisory (str "advisory " ++ str "CVE-2026-0001") = .ok () ∧
    checkPlatforms (field advisory "platforms") (str "advisory " ++ str "CVE-2026-0001") = .ok () ∧
    checkCves (field advisory "cve_ids") (str "advisory " ++ str "CVE-2026-0001") = .ok () ∧
    Feed.memberOf (field advisory "severity") severities = .ok true ∧
    textOf (field advisory "action") (str "advisory " ++ str "CVE-2026-0001" ++ str " action") 1 500 =
      .ok (str "Update") ∧
    checkProductList (field advisory "products") (str "advisory " ++ str "CVE-2026-0001") = .ok () ∧
    checkProvenance (field advisory "provenance") source (str "advisory " ++ str "CVE-2026-0001") =
      .ok ()) :=
  ⟨by decide +kernel⟩

/-- The advisory is accepted with any key. -/
theorem checkAdvisories_advisory (signed : List (Bytes × Bytes)) :
    checkAdvisories Feed.Sample.runtime (crypto signed) library [(str "cisa-kev", source)] [] [] 0
      [.obj advisory] = .ok [(str "cisa-kev", advisory)] := by
  have hzba : checkZba Feed.Sample.runtime (crypto signed) advisory
      (str "advisory " ++ str "CVE-2026-0001") = .ok () := by
    obtain ⟨hdepth, -, -, hfields⟩ := evaluated.out
    obtain ⟨hkeys, hnames, hcommitment⟩ := hfields _ rfl
    have hplain : Json.isPlain Feed.Sample.runtime.intDigits (.obj (projection advisory)) = true :=
      Json.isPlain_filter plain_advisory _
    have hcanonical := canonical_eq (writable_of_isPlain hplain (hdepth.trans (by decide)))
    simp only [checkZba, bind_eq_ok, fromOption_eq_ok, exactKeys_eq_ok, require_eq_ok]
    refine ⟨_, rfl, (), hkeys, (), hnames, _, hcanonical, ?_⟩
    rw [hexdigest_crypto, digest_projection]
    exact hcommitment
  have hadvisory : checkAdvisory Feed.Sample.runtime (crypto signed) library
      [(str "cisa-kev", source)] [] (.obj advisory) 0 =
        .ok (str "CVE-2026-0001", str "cisa-kev", advisory) := by
    obtain ⟨hkeys, hid, hsource, hurl, hrecord, htitle, hsummary⟩ := advisory_texts.out
    obtain ⟨htimes, hplatforms, hcves, hseverity, haction, hproducts, hprovenance⟩ := advisory_values.out
    have hcontent : checkContent library advisory source (str "advisory " ++ str "CVE-2026-0001") =
        .ok () := by
      simp only [checkContent, bind_eq_ok, require_eq_ok]
      exact ⟨(), hurl, _, hrecord, _, htitle, _, hsummary, (), htimes, (), hplatforms, (), hcves, true,
        hseverity, (), rfl, (), rfl, (), rfl, _, haction, hproducts⟩
    simp only [checkAdvisory, bind_eq_ok, fromOption_eq_ok, exactKeys_eq_ok, require_eq_ok]
    exact ⟨advisory, rfl, (), hkeys, _, hid, (), by simp, _, hsource, source, rfl, (), hcontent, (),
      hprovenance, (), hzba, rfl⟩
  exact bind_eq_ok.2 ⟨_, hadvisory, rfl⟩

instance source_digests : Fact (
    (field source "advisory_count").intOf = some 1 ∧
    isText (field source "contribution_sha256") (hexText contribution) = true ∧
    isText (field source "semantic_sha256") (hexText semanticDigest) = true) :=
  ⟨by decide +kernel⟩

/-- What the source names is what the advisory gives. -/
theorem checkDigests_source (signed : List (Bytes × Bytes)) :
    checkAllDigests Feed.Sample.runtime (crypto signed) [(str "cisa-kev", advisory)]
      [(str "cisa-kev", source)] = .ok () := by
  obtain ⟨hcount, hcontribution, hsemantic⟩ := source_digests.out
  have hordered : contributionOf [(str "cisa-kev", advisory)] (str "cisa-kev") = [advisory] := by
    simp [contributionOf]
  have hdigests : checkDigests Feed.Sample.runtime (crypto signed) [(str "cisa-kev", advisory)]
      (str "cisa-kev", source) = .ok () := by
    simp only [checkDigests, bind_eq_ok, require_eq_ok, hordered]
    refine ⟨(), hcount, _, canonical_eq writable_contribution, (), ?_, _,
      canonical_eq writable_semantic, ?_⟩
    · rw [List.map_singleton, hexdigest_crypto, digest_contribution]
      exact hcontribution
    · rw [List.map_singleton, hexdigest_crypto, digest_semantic]
      exact hsemantic
  exact bind_eq_ok.2 ⟨(), hdigests, rfl⟩

instance catalog_values : Fact (
    Json.keysAre catalog catalogFields = true ∧
    isText (field catalog "schema") catalogSchema = true ∧
    timeOf library (field catalog "generated_at") (str "catalog generated_at") =
      .ok (str "2026-01-01T00:00:00Z") ∧
    isPolicy (field catalog "policy") dataOnlyPolicy = true ∧
    [str "2026-01-01T00:00:00Z"].max? = some (str "2026-01-01T00:00:00Z")) :=
  ⟨by decide +kernel⟩

/-- The catalog is valid, whichever messages are signed. -/
theorem catalog_valid (signed : List (Bytes × Bytes)) :
    validateCatalog Feed.Sample.runtime (crypto signed) library (.obj catalog) =
      .ok [(str "cisa-kev", source)] := by
  obtain ⟨hkeys, hschema, hgenerated, hpolicy, hnewest⟩ := catalog_values.out
  have hsources : sourceIds.length = 4 := rfl
  simp only [validateCatalog, bind_eq_ok, fromOption_eq_ok, exactKeys_eq_ok, require_eq_ok]
  exact ⟨catalog, rfl, (), hkeys, (), hschema, _, hgenerated, _, rfl, (), hpolicy, [.obj source], rfl,
    (), ⟨by simp, by simp [hsources]⟩, [.obj advisory], rfl, (), by simp [maxAdvisories], _,
    checkSources_source, (), hnewest, _, checkAdvisories_advisory signed, (),
    checkDigests_source signed, rfl⟩

end Sample

end ZsecShield.Intelligence
