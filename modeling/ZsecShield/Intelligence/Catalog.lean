import ZsecShield.Intelligence.Fields

/-!
# The catalog validator

`validate_catalog`: the sources, every advisory with the commitment to its content, and
the digests of what each source contributes.
-/

namespace ZsecShield.Intelligence

open Text (Str str)
open Checks
open Feed (field isText natText)

def catalogSchema : Str := str "zsec.desktop-intelligence.v1"
def zbaIntelligenceSpec : Str := str "zsec.zba.intelligence.v1"
def maxCatalogBytes : Nat := 8 * 1024 * 1024
def maxAdvisories : Nat := 4096

/-- `b"ZSEC/ZBA/DESKTOP-INTELLIGENCE/V1\x00"`. -/
def zbaDomain : Bytes :=
  (str "ZSEC/ZBA/DESKTOP-INTELLIGENCE/V1").map (fun c => UInt8.ofNat c.val) ++ [0]

def catalogFields : List Str :=
  [str "schema", str "generated_at", str "policy", str "sources", str "advisories"]

def sourceFields : List Str :=
  [str "source_id", str "authority", str "url", str "version", str "body_sha256",
    str "contribution_sha256", str "semantic_sha256", str "advisory_count", str "parser"]

def advisoryFields : List Str :=
  [str "id", str "source_id", str "source_url", str "record_url", str "title", str "summary",
    str "published_at", str "modified_at", str "platforms", str "cve_ids", str "severity",
    str "exploited", str "ransomware", str "action", str "products", str "provenance", str "zba"]

def provenanceFields : List Str :=
  [str "source_body_sha256", str "source_record_id", str "parser"]

def zbaFields : List Str := [str "spec", str "phase", str "evidence", str "commitment"]

/-- `isinstance(value, str) and SHA256_PATTERN.fullmatch(value)`. -/
def isDigest (value : Json) : Bool := value.strOf.any Feed.isSha256

/-- `isinstance(value, bool) or value is None`. -/
def isFlag : Json → Bool
  | .bool _ | .null => true
  | _ => false

/-- The sources read so far: each identifier with its record. -/
abbrev SourceMap := List (Str × Members)

/-- One entry of `sources`: its identifier, its record and its version. -/
def checkSource (lib : Library) (known : SourceMap) (source : Json) (index : Nat) :
    Except PyError (Str × Members × Str) := do
  let members ← fromOption source.objOf
    (intelligenceError (str "catalog source " ++ natText index ++ str " must be an object"))
  exactKeys members sourceFields (str "catalog source " ++ natText index)
  let sourceId ← textOf (field members "source_id")
    (str "source " ++ natText index ++ str " id") 3 64
  require (sourceId ∈ sourceIds ∧ sourceId ∉ known.map Prod.fst)
    (intelligenceError (str "catalog source ID is unsupported/duplicate: " ++ sourceId))
  let _ ← textOf (field members "authority") (str "source " ++ sourceId ++ str " authority") 3 200
  let url ← httpsUrl lib (field members "url") (str "source " ++ sourceId ++ str " URL")
  let allowed ← sourceUrlAllowed lib sourceId url
  require (allowed = true)
    (intelligenceError (str "catalog source URL is not allowlisted: " ++ sourceId))
  let version ← timeOf lib (field members "version") (str "source " ++ sourceId ++ str " version")
  let digest (name : String) : Except PyError Unit :=
    require (isDigest (field members name) = true)
      (intelligenceError (str "source " ++ sourceId ++ str " " ++ str name ++ str " is invalid"))
  digest "body_sha256"
  digest "contribution_sha256"
  digest "semantic_sha256"
  require ((field members "advisory_count").intOf.any (0 ≤ ·) = true)
    (intelligenceError (str "source " ++ sourceId ++ str " advisory_count is invalid"))
  let _ ← textOf (field members "parser") (str "source " ++ sourceId ++ str " parser") 3 80
  pure (sourceId, members, version)

/-- The entries from the one at `index` on, with the versions in the order of the entries. -/
def checkSources (lib : Library) (known : SourceMap) (versions : List Str) :
    (index : Nat) → List Json → Except PyError (SourceMap × List Str)
  | _, [] => .ok (known, versions)
  | index, source :: sources => do
      let (sourceId, members, version) ← checkSource lib known source index
      checkSources lib (known ++ [(sourceId, members)]) (versions ++ [version]) (index + 1) sources

/-- The record without its own commitment. -/
def projection (advisory : Members) : Members := advisory.filter fun m => m.1 ≠ str "zba"

def checkProvenance (provenance : Json) (source : Members) (name : Str) : Except PyError Unit := do
  let members ← fromOption provenance.objOf (intelligenceError (name ++ str " provenance is invalid"))
  exactKeys members provenanceFields (name ++ str " provenance")
  require (isDigest (field members "source_body_sha256") = true ∧
      (field members "source_body_sha256").strOf = (field source "body_sha256").strOf)
    (intelligenceError (name ++ str " provenance digest is invalid"))
  let _ ← textOf (field members "source_record_id") (name ++ str " record id") 1 160
  let _ ← textOf (field members "parser") (name ++ str " parser") 3 80
  pure ()

def checkZba (rt : Runtime) (crypto : Crypto) (advisory : Members) (name : Str) :
    Except PyError Unit := do
  let members ← fromOption (field advisory "zba").objOf
    (intelligenceError (name ++ str " ZBA record is invalid"))
  exactKeys members zbaFields (name ++ str " ZBA")
  require (isText (field members "spec") zbaIntelligenceSpec = true ∧
      isText (field members "phase") (str "observed") = true ∧
      isText (field members "evidence") (str "authoritative-advisory") = true ∧
      isDigest (field members "commitment") = true)
    (intelligenceError (name ++ str " ZBA fields are invalid"))
  let canonical ← Util.canonicalJsonBytes rt (.obj (projection advisory))
  require (isText (field members "commitment") (crypto.hexdigest (zbaDomain ++ canonical)) = true)
    (intelligenceError (name ++ str " ZBA commitment mismatch"))

/-- The elements of `products` are texts. -/
def checkProducts (name : Str) : List Json → Except PyError Unit
  | [] => .ok ()
  | product :: products => do
      let _ ← textOf product (name ++ str " product") 1 300
      checkProducts name products

/-- The lists of an advisory: platforms, CVE identifiers and products. -/
def checkPlatforms (value : Json) (name : Str) : Except PyError Unit := do
  let refusal := intelligenceError (name ++ str " platforms are invalid")
  let elements ← fromOption value.arrOf refusal
  require (elements ≠ []) refusal
  let sorted ← isSortedSet elements
  require (sorted = true ∧ ∀ e ∈ elements, e.strOf.any (· ∈ platforms) = true) refusal

def checkCves (value : Json) (name : Str) : Except PyError Unit := do
  let refusal := intelligenceError (name ++ str " CVE list is invalid")
  let elements ← fromOption value.arrOf refusal
  require (elements.length ≤ 256) refusal
  let sorted ← isSortedSet elements
  require (sorted = true ∧ ∀ e ∈ elements, e.strOf.any isCve = true) refusal

def checkProductList (value : Json) (name : Str) : Except PyError Unit := do
  let refusal := intelligenceError (name ++ str " products are invalid")
  let elements ← fromOption value.arrOf refusal
  require (elements ≠ [] ∧ elements.length ≤ 32) refusal
  let sorted ← isSortedSet elements
  require (sorted = true) refusal
  checkProducts name elements

/-- The times of an advisory. -/
def checkTimes (lib : Library) (members : Members) (name : Str) : Except PyError Unit := do
  let published ← parseTime lib (field members "published_at") (name ++ str " published_at")
  let modified ← parseTime lib (field members "modified_at") (name ++ str " modified_at")
  require (published.instant ≤ modified.instant)
    (intelligenceError (name ++ str " modified_at predates published_at"))

/-- The fields of an advisory behind its source. -/
def checkContent (lib : Library) (members source : Members) (name : Str) : Except PyError Unit := do
  require ((field members "source_url").strOf = (field source "url").strOf)
    (intelligenceError (name ++ str " source URL mismatch"))
  let _ ← httpsUrl lib (field members "record_url") (name ++ str " record URL")
  let _ ← textOf (field members "title") (name ++ str " title") 1 300
  let _ ← textOf (field members "summary") (name ++ str " summary") 1 maxText
  checkTimes lib members name
  checkPlatforms (field members "platforms") name
  checkCves (field members "cve_ids") name
  let known ← Feed.memberOf (field members "severity") severities
  require (known = true) (intelligenceError (name ++ str " severity is invalid"))
  require (isFlag (field members "exploited") = true)
    (intelligenceError (name ++ str " exploited must be boolean/null"))
  require (isFlag (field members "ransomware") = true)
    (intelligenceError (name ++ str " ransomware must be boolean/null"))
  let _ ← textOf (field members "action") (name ++ str " action") 1 500
  checkProductList (field members "products") name

/-- One advisory: its identifier, the identifier of its source and its record. -/
def checkAdvisory (rt : Runtime) (crypto : Crypto) (lib : Library) (sources : SourceMap)
    (identifiers : List Str) (advisory : Json) (index : Nat) :
    Except PyError (Str × Str × Members) := do
  let members ← fromOption advisory.objOf
    (intelligenceError (str "catalog advisory " ++ natText index ++ str " must be an object"))
  exactKeys members advisoryFields (str "catalog advisory " ++ natText index)
  let identifier ← textOf (field members "id")
    (str "advisory " ++ natText index ++ str " id") 3 160
  require (identifier ∉ identifiers)
    (intelligenceError (str "duplicate advisory ID: " ++ identifier))
  let name := str "advisory " ++ identifier
  let sourceId ← textOf (field members "source_id") (name ++ str " source") 3 64
  let source ← fromOption (Json.lookup sourceId sources)
    (intelligenceError (name ++ str " uses an unknown source"))
  checkContent lib members source name
  checkProvenance (field members "provenance") source name
  checkZba rt crypto members name
  pure (identifier, sourceId, members)

/-- The records of all advisories, each with the identifier of its source. -/
abbrev Contributions := List (Str × Members)

/-- The advisories from the one at `index` on. -/
def checkAdvisories (rt : Runtime) (crypto : Crypto) (lib : Library) (sources : SourceMap)
    (identifiers : List Str) (contributions : Contributions) :
    (index : Nat) → List Json → Except PyError Contributions
  | _, [] => .ok contributions
  | index, advisory :: advisories => do
      let (identifier, sourceId, members) ←
        checkAdvisory rt crypto lib sources identifiers advisory index
      checkAdvisories rt crypto lib sources (identifiers ++ [identifier])
        (contributions ++ [(sourceId, members)]) (index + 1) advisories

/-- The text under a key, by which records are sorted. -/
def sortText (key : String) (members : Members) : Str := (field members key).strOf.getD []

/-- What a source contributed, in the order of the identifiers. -/
def contributionOf (contributions : Contributions) (sourceId : Str) : List Members :=
  ((contributions.filter fun c => c.1 = sourceId).map Prod.snd).insertionSort
    fun a b => sortText "id" a ≤ sortText "id" b

/-- A record as the semantic digest sees it: without the digest of the document it was
read from. -/
def semantic (advisory : Members) : Members :=
  let provenance := ((field advisory "provenance").objOf).getD []
  (advisory.filter fun m => m.1 ≠ str "provenance" ∧ m.1 ≠ str "zba") ++
    [(str "provenance", .obj [(str "source_record_id", field provenance "source_record_id"),
      (str "parser", field provenance "parser")])]

/-- The count and the digests of one source. -/
def checkDigests (rt : Runtime) (crypto : Crypto) (contributions : Contributions)
    (source : Str × Members) : Except PyError Unit := do
  let ordered := contributionOf contributions source.1
  require ((field source.2 "advisory_count").intOf = some (ordered.length : Int))
    (intelligenceError (str "source " ++ source.1 ++ str " advisory count mismatch"))
  let contribution ← Util.canonicalJsonBytes rt (.arr (ordered.map .obj))
  require (isText (field source.2 "contribution_sha256") (crypto.hexdigest contribution) = true)
    (intelligenceError (str "source " ++ source.1 ++ str " contribution digest mismatch"))
  let semanticBytes ← Util.canonicalJsonBytes rt (.arr (ordered.map fun a => .obj (semantic a)))
  require (isText (field source.2 "semantic_sha256") (crypto.hexdigest semanticBytes) = true)
    (intelligenceError (str "source " ++ source.1 ++ str " semantic digest mismatch"))

def checkAllDigests (rt : Runtime) (crypto : Crypto) (contributions : Contributions) :
    SourceMap → Except PyError Unit
  | [] => .ok ()
  | source :: sources => do
      checkDigests rt crypto contributions source
      checkAllDigests rt crypto contributions sources

/-- `validate_catalog(catalog)`, which returns the sources it has read. -/
def validateCatalog (rt : Runtime) (crypto : Crypto) (lib : Library) (catalog : Json) :
    Except PyError SourceMap := do
  let members ← fromOption catalog.objOf
    (intelligenceError (str "desktop intelligence catalog must be an object"))
  exactKeys members catalogFields (str "catalog")
  require (isText (field members "schema") catalogSchema = true)
    (intelligenceError (str "desktop intelligence catalog schema is unsupported"))
  let generated ← timeOf lib (field members "generated_at") (str "catalog generated_at")
  let _ ← fromOption (field members "policy").objOf
    (intelligenceError (str "catalog policy must be an object"))
  require (isPolicy (field members "policy") dataOnlyPolicy = true)
    (intelligenceError (str "catalog policy violates the data-only safety contract"))
  let noSources := intelligenceError (str "catalog sources array is invalid")
  let sources ← fromOption (field members "sources").arrOf noSources
  require (sources ≠ [] ∧ sources.length ≤ sourceIds.length) noSources
  let noAdvisories := intelligenceError (str "catalog advisories array is invalid")
  let advisories ← fromOption (field members "advisories").arrOf noAdvisories
  require (1 ≤ advisories.length ∧ advisories.length ≤ maxAdvisories) noAdvisories
  let (sourceMap, versions) ← checkSources lib [] [] 0 sources
  require (versions.max? = some generated) (intelligenceError
    (str "catalog generated_at does not equal the newest source version"))
  let contributions ← checkAdvisories rt crypto lib sourceMap [] [] 0 advisories
  checkAllDigests rt crypto contributions sourceMap
  pure sourceMap

/-- `catalog_bytes(catalog)`. -/
def catalogBytes (rt : Runtime) (crypto : Crypto) (lib : Library) (catalog : Json) :
    Except PyError Bytes := do
  let _ ← validateCatalog rt crypto lib catalog
  let encoded ← Util.encodeJson rt .pretty catalog
  accept (encoded.length + 1 ≤ maxCatalogBytes)
    (intelligenceError (str "desktop intelligence catalog exceeds the size limit"))
    (encoded ++ [10])

end ZsecShield.Intelligence
