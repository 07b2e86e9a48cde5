import ZsecShield.Scan.Content
import Mathlib.Data.List.Dedup

/-!
# Content inspection

The inspectors of `content_inspection.py`: portable executables, scripts and ZIP archives.  The ZIP
parser, the lower case of a text and the entropy of a sample come from the interpreter.
-/

namespace ZsecShield.Scan

open Text (Str CodePoint str ofChar)

/-! ## Observations -/

inductive EvidenceValue where
  | text (s : Str)
  | number (n : Int)
  | flag (b : Bool)
deriving DecidableEq

def EvidenceValue.toJson : EvidenceValue → Json
  | .text s => .str s
  | .number n => .int n
  | .flag b => .bool b

structure Observation where
  provider : Str
  category : Str
  severity : Severity
  summary : Str
  evidence : List (Str × EvidenceValue)
deriving DecidableEq

def severityText : Severity → Str
  | .info => str "info"
  | .low => str "low"
  | .medium => str "medium"
  | .high => str "high"
  | .critical => str "critical"

/-- `_observation`. -/
def observation (provider category : String) (severity : Severity) (summary : String)
    (evidence : List (Str × EvidenceValue)) : Observation :=
  ⟨str provider, str category, severity, (str summary).take 300, evidence⟩

/-- The dictionary that the worker sends. -/
def Observation.members (o : Observation) : List (Str × Json) :=
  [(str "provider", .str o.provider), (str "category", .str o.category),
    (str "severity", .str (severityText o.severity)), (str "summary", .str o.summary),
    (str "evidence", .obj (o.evidence.map fun m => (m.1, m.2.toJson))),
    (str "quarantine_eligible", .bool false)]

def Observation.toJson (o : Observation) : Json := .obj o.members

structure ZipInfo where
  filename : Str
  fileSize : Int
  compressSize : Int
  flagBits : Nat

/-- The functions of the interpreter that the inspectors call. -/
structure Inspectors where
  /-- `_entropy(sample) >= 7.6`. -/
  highEntropy : Bytes → Bool
  /-- `str.lower`. -/
  lower : Str → Str
  /-- `zipfile.ZipFile(io.BytesIO(value), "r").infolist()`, or the name of the class of an exception
  that `inspect_zip` handles. -/
  zipEntries : Bytes → Except Str (List ZipInfo)

/-- A bytes literal. -/
def bytes (s : String) : Bytes := s.toList.map fun c => UInt8.ofNat c.toNat

/-! ## Portable executables -/

def littleEndian : Bytes → Nat
  | [] => 0
  | b :: rest => b.toNat + 256 * littleEndian rest

/-- One number of `struct.unpack_from`.  A `struct.error` is `none`. -/
def unpackFrom (width : Nat) (value : Bytes) (offset : Nat) : Option Nat :=
  let field := (value.drop offset).take width
  if field.length = width then some (littleEndian field) else none

structure PeHeader where
  machine : Nat
  sectionCount : Nat
  timestamp : Nat
  optionalSize : Nat
  characteristics : Nat

/-- `struct.unpack_from("<HHIIIHH", value, offset)`. -/
def PeHeader.unpack (value : Bytes) (offset : Nat) : Option PeHeader := do
  let machine ← unpackFrom 2 value offset
  let sectionCount ← unpackFrom 2 value (offset + 2)
  let timestamp ← unpackFrom 4 value (offset + 4)
  let optionalSize ← unpackFrom 2 value (offset + 16)
  let characteristics ← unpackFrom 2 value (offset + 18)
  return ⟨machine, sectionCount, timestamp, optionalSize, characteristics⟩

/-- `certificate_present`. -/
def certificatePresent (value : Bytes) (declaredSize : Int) (optional optionalSize : Nat) :
    Option Bool := do
  let magic ← if 2 ≤ optionalSize then unpackFrom 2 value optional else some 0
  let isPe32Plus : Bool := magic = 0x20b
  let directoryCountOffset := optional + if isPe32Plus then 108 else 92
  let directoryOffset := optional + if isPe32Plus then 112 else 96
  let minimumOptional := if isPe32Plus then 128 else 112
  if minimumOptional ≤ optionalSize ∧ directoryCountOffset + 4 ≤ value.length then
    let directoryCount ← unpackFrom 4 value directoryCountOffset
    let securityEntry := directoryOffset + 4 * 8
    if 4 < directoryCount ∧ securityEntry + 8 ≤ optional + optionalSize then
      let certificateOffset ← unpackFrom 4 value securityEntry
      let certificateSize ← unpackFrom 4 value (securityEntry + 4)
      return decide (0 < certificateOffset ∧ 8 ≤ certificateSize ∧
        (certificateOffset + certificateSize : Nat) ≤ declaredSize)
    else return false
  else return false

/-- `raw.decode("ascii", errors="replace")`. -/
def decodeAscii (raw : Bytes) : Str :=
  raw.map fun b => if b.toNat < 128 then Fin.ofNat _ b.toNat else 0xFFFD

def sectionName (value : Bytes) (offset index : Nat) : Str :=
  let rawName := ((value.drop offset).take 8).takeWhile fun b => b ≠ 0
  let name := (decodeAscii rawName).take 16
  if name = [] then str "section-" ++ Text.digits index else name

/-- `wx_sections` and `high_entropy_sections`. -/
structure SectionNames where
  wx : List Str := []
  highEntropy : List Str := []

/-- A section that is writable and executable. -/
def SectionNames.addWx (names : SectionNames) (name : Str) (flags : Nat) : SectionNames :=
  if flags &&& 0x20000000 ≠ 0 ∧ flags &&& 0x80000000 ≠ 0 then
    { names with wx := names.wx ++ [name] }
  else names

/-- A turn of the loop over the sections. -/
def SectionNames.turn (ins : Inspectors) (value : Bytes) (sectionTable : Nat) (names : SectionNames)
    (index : Nat) : Option SectionNames := do
  let offset := sectionTable + index * 40
  let name := sectionName value offset index
  let rawSize ← unpackFrom 4 value (offset + 16)
  let rawOffset ← unpackFrom 4 value (offset + 20)
  let flags ← unpackFrom 4 value (offset + 36)
  let names := names.addWx name flags
  let sample := (value.drop rawOffset).take rawSize
  if rawSize ≠ 0 ∧ rawOffset < value.length ∧ 4096 ≤ sample.length ∧ ins.highEntropy sample = true
  then return { names with highEntropy := names.highEntropy ++ [name] }
  else return names

/-- `f"0x{n:04x}"` for a number of two bytes. -/
def hexWord (n : Nat) : Str :=
  str "0x" ++ [Json.hexChar (n / 4096 % 16), Json.hexChar (n / 256 % 16),
    Json.hexChar (n / 16 % 16), Json.hexChar (n % 16)]

/-- `",".join(names[:8])`. -/
def joinNames (names : List Str) : Str := (str ",").intercalate (names.take 8)

/-- What `inspect_pe` reports behind the first sixty-four bytes. -/
def peObservations (ins : Inspectors) (value : Bytes) (declaredSize : Int) :
    Option (List Observation) := do
  let peOffset ← unpackFrom 4 value 0x3C
  if value.length < peOffset + 24 ∨ (value.drop peOffset).take 4 ≠ bytes "PE" ++ [0, 0] then
    return [observation "pe" "malformed_pe" .medium "Malformed PE header" []]
  else
    let header ← PeHeader.unpack value (peOffset + 4)
    if header.sectionCount < 1 ∨ 96 < header.sectionCount then
      return [observation "pe" "malformed_pe" .medium
        "PE section count is outside the bounded policy"
        [(str "section_count", .number header.sectionCount)]]
    else
      let optional := peOffset + 24
      let sectionTable := optional + header.optionalSize
      if value.length < sectionTable + header.sectionCount * 40 then
        return [observation "pe" "analysis_limited" .info
          "PE metadata extends beyond the bounded inspection window" []]
      else
        let certificate ← certificatePresent value declaredSize optional header.optionalSize
        let names ← (List.range header.sectionCount).foldlM
          (SectionNames.turn ins value sectionTable) {}
        return [observation "pe" "metadata" .info "Portable Executable metadata inspected"
            [(str "machine", .text (hexWord header.machine)),
              (str "sections", .number header.sectionCount),
              (str "timestamp", .number header.timestamp),
              (str "characteristics", .text (hexWord header.characteristics)),
              (str "certificate_table_present", .flag certificate)]] ++
          (if names.wx = [] then [] else
            [observation "pe" "writable_executable_sections" .medium
              "PE contains writable and executable sections"
              [(str "sections", .text (joinNames names.wx))]]) ++
          (if names.highEntropy = [] then [] else
            [observation "pe" "high_entropy_sections" .low
              "PE contains high-entropy section data; packed or compressed content is possible"
              [(str "sections", .text (joinNames names.highEntropy))]])

/-- `inspect_pe`. -/
def inspectPe (ins : Inspectors) (value : Bytes) (declaredSize : Int) : List Observation :=
  if value.length < 64 ∨ value.take 2 ≠ bytes "MZ" then []
  else (peObservations ins value declaredSize).getD
    [observation "pe" "malformed_pe" .medium "Malformed PE metadata" []]

/-! ## Scripts

The patterns ignore the case of ASCII letters, so they are looked for in the lowered sample. -/

/-- `bytes.lower()`. -/
def lowerBytes (value : Bytes) : Bytes :=
  value.map fun b => if 65 ≤ b.toNat ∧ b.toNat ≤ 90 then b + 32 else b

/-- `\w` in lower case. -/
def isWord (b : UInt8) : Bool :=
  decide (97 ≤ b.toNat ∧ b.toNat ≤ 122) || decide (48 ≤ b.toNat ∧ b.toNat ≤ 57) ||
    decide (b.toNat = 95)

/-- `\b` between two bytes. -/
def boundary (before after : Option UInt8) : Bool := before.any isWord != after.any isWord

/-- Whether a pattern matches somewhere, given the byte before the text. -/
def search (matchesAt : Option UInt8 → Bytes → Bool) : Option UInt8 → Bytes → Bool
  | before, [] => matchesAt before []
  | before, b :: rest => matchesAt before (b :: rest) || search matchesAt (some b) rest

def startsWithAny (words : List Bytes) (text : Bytes) : Bool :=
  words.any fun word => word.isPrefixOf text

/-- `_DOWNLOAD`. -/
def download (_ : Option UInt8) (text : Bytes) : Bool :=
  startsWithAny [bytes "downloadstring", bytes "downloadfile", bytes "invoke-webrequest",
    bytes "start-bitstransfer", bytes "urlmon", bytes "http://", bytes "https://"] text

/-- `_EXECUTE`. -/
def execute (before : Option UInt8) (text : Bytes) : Bool :=
  startsWithAny [bytes "invoke-expression", bytes "start-process", bytes "wscript.shell",
    bytes "shell.application", bytes "rundll32", bytes "regsvr32"] text ||
  (boundary before text.head? && (bytes "iex").isPrefixOf text &&
    boundary (some 120) (text.drop 3).head?)

/-- `_ENCODED`. -/
def encoded (_ : Option UInt8) (text : Bytes) : Bool :=
  [bytes "-encodedcommand", bytes "-enc"].any (fun word =>
    word.isPrefixOf text && boundary word.getLast? (text.drop word.length).head?) ||
  (bytes "frombase64string").isPrefixOf text

/-- The alternatives of `_INJECTION`, in the order in which they are tried. -/
def injection : List Bytes :=
  [bytes "virtualallocex", bytes "virtualalloc", bytes "writeprocessmemory",
    bytes "createremotethread", bytes "ntunmapviewofsection"]

/-- `finditer`: the matches from the left, without overlaps.  The number counts the bytes that still
belong to the last match. -/
def findAll (words : List Bytes) : Nat → Bytes → List Bytes
  | _, [] => []
  | skip + 1, _ :: rest => findAll words skip rest
  | 0, b :: rest =>
      match words.find? fun word => word.isPrefixOf (b :: rest) with
      | some word => word :: findAll words (word.length - 1) rest
      | none => findAll words 0 rest

/-- `inspect_script`. -/
def inspectScript (value : Bytes) : List Observation :=
  let sample := value.take (1024 * 1024)
  if 0 ∈ sample.take 4096 ∧ ¬ ([0xff, 0xfe] <+: sample ∨ [0xfe, 0xff] <+: sample) then []
  else
    let lowered := lowerBytes sample
    if ∀ marker ∈ [bytes "powershell", bytes "param(", bytes "#!/bin/", bytes "function ",
      bytes "createobject("], ¬ marker <:+: lowered then []
    else
      let injectionHits := (findAll injection 0 lowered).dedup
      (if search download none lowered && search execute none lowered then
        [observation "script" "download_execute_chain" .high
          "Script combines network retrieval with an execution primitive" []] else []) ++
      (if search encoded none lowered = true ∧
          (bytes "powershell" <:+: lowered ∨ bytes "frombase64string" <:+: lowered) then
        [observation "script" "encoded_execution" .medium
          "Script contains encoded-command or Base64 execution indicators" []] else []) ++
      (if 2 ≤ injectionHits.length then
        [observation "script" "process_injection_primitives" .high
          "Script references multiple process-injection primitives"
          [(str "primitive_count", .number injectionHits.length)]] else [])

/-! ## ZIP archives -/

def maxArchiveEntries : Nat := 4096
def maxArchiveUncompressedBytes : Int := 4 * 1024 * 1024 * 1024
def maxArchiveEntryBytes : Int := 1024 * 1024 * 1024
def maxArchiveRatio : Int := 1000

namespace ZipInfo

/-- `normalized`. -/
def normalized (entry : ZipInfo) : Str :=
  entry.filename.map fun c => if c = ofChar '\\' then ofChar '/' else c

def isTraversal (entry : ZipInfo) : Bool :=
  let parts := (entry.normalized.splitOn (ofChar '/')).filter fun part =>
    decide (part ≠ [] ∧ part ≠ str ".")
  decide (str "/" <+: entry.normalized) || decide (str "\\" <+: entry.normalized) ||
    decide (entry.normalized[1]? = some (ofChar ':')) || parts.any fun part => part = str ".."

def isNested (ins : Inspectors) (entry : ZipInfo) : Bool :=
  [str ".zip", str ".jar", str ".docx", str ".xlsx", str ".pptx"].any fun suffix =>
    suffix.isSuffixOf (ins.lower entry.normalized)

def isEncrypted (entry : ZipInfo) : Bool := entry.flagBits % 2 = 1

def isExtreme (entry : ZipInfo) : Bool := maxArchiveEntryBytes < entry.fileSize

/-- `entry.file_size >= 10 * 1024 * 1024 and ratio > MAX_ARCHIVE_RATIO`.  The ratio is rounded to a
double, and the doubles next to a thousand are 2^-43 apart. -/
def isExtremeRatio (entry : ZipInfo) : Bool :=
  decide (10 * 1024 * 1024 ≤ entry.fileSize) &&
    decide ((maxArchiveRatio * 2 ^ 44 + 1) * max 1 entry.compressSize < 2 ^ 44 * entry.fileSize)

end ZipInfo

/-- What `inspect_zip` reports of the entries of an archive. -/
def zipObservations (ins : Inspectors) (entries : List ZipInfo) : List Observation :=
  let totalUncompressed := (entries.map fun entry => max 0 entry.fileSize).sum
  let totalCompressed := (entries.map fun entry => max 0 entry.compressSize).sum
  let encrypted := entries.countP ZipInfo.isEncrypted
  let traversal := entries.countP ZipInfo.isTraversal
  let nested := entries.countP (ZipInfo.isNested ins)
  let extremeEntry := entries.countP ZipInfo.isExtreme
  let extremeRatio := entries.countP ZipInfo.isExtremeRatio
  [observation "archive" "metadata" .info
    "ZIP central-directory metadata inspected without extraction"
    [(str "entries", .number entries.length), (str "total_compressed", .number totalCompressed),
      (str "total_uncompressed", .number totalUncompressed),
      (str "encrypted_entries", .number encrypted), (str "nested_archives", .number nested)]] ++
  (if traversal = 0 then [] else
    [observation "archive" "path_traversal" .high
      "Archive contains absolute or parent-traversal paths"
      [(str "affected_entries", .number traversal)]]) ++
  (if maxArchiveEntries < entries.length ∨ maxArchiveUncompressedBytes < totalUncompressed ∨
      extremeEntry ≠ 0 ∨ extremeRatio ≠ 0 then
    [observation "archive" "expansion_risk" .high
      "Archive metadata exceeds bounded extraction-safety thresholds"
      [(str "entries", .number entries.length), (str "extreme_entries", .number extremeEntry),
        (str "extreme_ratios", .number extremeRatio),
        (str "total_uncompressed", .number totalUncompressed)]] else []) ++
  (if encrypted = 0 then [] else
    [observation "archive" "encrypted_entries" .low
      "Archive contains encrypted entries that were not content-inspected"
      [(str "encrypted_entries", .number encrypted)]])

/-- `inspect_zip`. -/
def inspectZip (ins : Inspectors) (value : Bytes) (declaredSize : Int) : List Observation :=
  if ¬ (bytes "PK" ++ [3, 4] <+: value ∨ bytes "PK" ++ [5, 6] <+: value ∨
      bytes "PK" ++ [7, 8] <+: value) then []
  else if maxInspectionBytes < declaredSize then
    [observation "archive" "analysis_limited" .info
      "ZIP exceeds the bounded in-memory metadata inspection limit"
      [(str "declared_size", .number declaredSize),
        (str "inspection_limit", .number maxInspectionBytes)]]
  else
    match ins.zipEntries value with
    | .error name =>
        [observation "archive" "malformed_archive" .medium
          "ZIP metadata could not be parsed safely" [(str "error", .text name)]]
    | .ok entries => zipObservations ins entries

def maxObservations : Nat := 32

/-- `inspect_content`. -/
def inspectContent (ins : Inspectors) (value : Bytes) (declaredSize : Int) : List Observation :=
  (inspectPe ins value declaredSize ++ inspectScript value ++
    inspectZip ins value declaredSize).take maxObservations

end ZsecShield.Scan
