import ZsecShield.Models
import ZsecShield.Lib.Base64
import ZsecShield.Lib.Json.Encode
import Mathlib.Data.List.DropRight
import Mathlib.Data.List.Infix
import Mathlib.Data.List.Sort
import Mathlib.Data.Rat.Defs
import Mathlib.Algebra.Order.Field.Rat

/-!
# Content scanning

The constructor of `Scanner`, the part of `_scan_file` that reads an opened file in the
process of the scanner, and `_scan_stream` of the content worker.  The file and the
connection are the chunks they deliver.
-/

namespace ZsecShield.Scan

open Text (Str str)

/-! ## The scanner -/

structure ScannerConfig where
  maxFileBytes : Int := 64 * 1024 * 1024
  chunkBytes : Int := 1024 * 1024
  crossFilesystems : Bool := false
  excludedPaths : List Path := []
  workerIsolation : Bool := false
  workerTimeoutSeconds : ℚ := 45
  workerMaxRequests : Int := 512
deriving DecidableEq

/-- The bounds on the configuration, in the order of the checks. -/
def ScannerConfig.fault (config : ScannerConfig) : Option Str :=
  if ¬ (1 ≤ config.maxFileBytes ∧ config.maxFileBytes ≤ 16 * 1024 * 1024 * 1024) then
    some (str "max_file_bytes must be between 1 and 16 GiB")
  else if ¬ (4096 ≤ config.chunkBytes ∧ config.chunkBytes ≤ 16 * 1024 * 1024) then
    some (str "chunk_bytes must be between 4096 and 16 MiB")
  else if ¬ (1 ≤ config.workerTimeoutSeconds ∧ config.workerTimeoutSeconds ≤ 600) then
    some (str "worker_timeout_seconds must be between 1 and 600")
  else if ¬ (1 ≤ config.workerMaxRequests ∧ config.workerMaxRequests ≤ 100000) then
    some (str "worker_max_requests must be between 1 and 100000")
  else none

/-- The defaults pass the checks. -/
theorem ScannerConfig.fault_default : ScannerConfig.fault {} = none := by decide +kernel

/-- `rule.literal or b""`. -/
def pattern (rule : Rule) : Bytes := rule.literal.getD []

/-- What the constructor has against a rule. -/
def ruleFault (rule : Rule) : Option Str :=
  if rule.kind = .sha256 ∧ rule.digest = none then
    some (str "SHA-256 rule has no digest: " ++ rule.ruleId)
  else if rule.kind = .literal ∧ pattern rule = [] then
    some (str "literal rule has no pattern: " ++ rule.ruleId)
  else none

/-- The key function of `sorted(rules, key=lambda rule: rule.rule_id)`. -/
def byRuleId (a b : Rule) : Prop := a.ruleId ≤ b.ruleId

instance : DecidableRel byRuleId := fun a b => inferInstanceAs (Decidable (a.ruleId ≤ b.ruleId))

/-- A scanner with what its constructor has checked. -/
structure Scanner where
  rules : List Rule
  config : ScannerConfig
  excluded : List Str
  bounded : config.fault = none
  unique : (rules.map Rule.ruleId).Nodup
  faultless : ∀ rule ∈ rules, ruleFault rule = none

/-- `Scanner.__init__`. -/
def Scanner.new (pathKey : Path → Str) (rules : List Rule) (config : ScannerConfig) :
    Except PyError Scanner :=
  let rules := rules.insertionSort byRuleId
  let raise (text : Str) : Except PyError Scanner :=
    .error (.shield (.scanConfigurationError text))
  match hconfig : config.fault with
  | some text => raise text
  | none =>
      if hunique : (rules.map Rule.ruleId).Nodup then
        match hfault : rules.findSome? ruleFault with
        | some text => raise text
        | none => .ok {
            rules := rules
            config := config
            excluded := config.excludedPaths.map pathKey
            bounded := hconfig
            unique := hunique
            faultless := List.findSome?_eq_none_iff.1 hfault }
      else raise (str "rule IDs must be unique")

namespace Scanner

def literalRules (s : Scanner) : List Rule := s.rules.filter fun rule => rule.kind = .literal

def digestRules (s : Scanner) : List Rule := s.rules.filter fun rule => rule.kind = .sha256

end Scanner

/-! ## The matching loop -/

/-- The literals a loop looks for, by identifier. -/
abbrev Literals := List (Str × Bytes)

def Scanner.literals (s : Scanner) : Literals :=
  s.literalRules.map fun rule => (rule.ruleId, pattern rule)

/-- `max(len(literal) …, default=0)`. -/
def maximumLiteral (literals : Literals) : Nat :=
  ((literals.map fun literal => literal.2.length).max?).getD 0

/-- The local variables of a loop. -/
structure Matching where
  /-- What `digest.update` has got. -/
  digested : Bytes
  literalMatches : List Str
  tail : Bytes
  bytesRead : Nat
deriving DecidableEq

def Matching.start : Matching := ⟨[], [], [], 0⟩

/-- Add the identifiers of the literals in a window. -/
def addMatches (literals : Literals) (window : Bytes) (literalMatches : List Str) : List Str :=
  literals.foldl (fun found literal =>
    if literal.1 ∉ found ∧ literal.2 <:+: window then found ++ [literal.1] else found) literalMatches

/-- The part of a turn behind the checks. -/
def Matching.feed (literals : Literals) (m : Matching) (chunk : Bytes) : Matching :=
  let window := m.tail ++ chunk
  { digested := m.digested ++ chunk
    literalMatches := addMatches literals window m.literalMatches
    -- `window[-(maximum_literal - 1) :]`
    tail := if 1 < maximumLiteral literals then window.rtake (maximumLiteral literals - 1)
      else m.tail
    bytesRead := m.bytesRead + chunk.length }

/-! ## In the process of the scanner -/

/-- The loop of `_scan_file`.  An empty read is the end of the file. -/
def Scanner.readContent (s : Scanner) : Matching → List Bytes → Option Matching
  | m, [] => some m
  | m, chunk :: chunks =>
      if chunk = [] then some m
      else if s.config.maxFileBytes < (m.bytesRead + chunk.length : Nat) then none
      else readContent s (m.feed s.literals chunk) chunks

/-- What `os.fstat` says of the opened file. -/
structure Opened where
  size : Int
  mtimeNs : Int
deriving DecidableEq

/-- The functions of the interpreter that the scan calls. -/
structure ContentRuntime where
  /-- The hexadecimal SHA-256 digest. -/
  sha256 : Bytes → Str
  absolute : Path → Path
  /-- `format_utc` of the modification time. -/
  modifiedAt : Int → Str
  inspectContent : Bytes → Int → List Json

def severityRank : Severity → Nat
  | .info => 0
  | .low => 1
  | .medium => 2
  | .high => 3
  | .critical => 4

/-- `highest_severity`. -/
def highestSeverity (severities : List Severity) : Severity :=
  severities.foldl (fun best s => if severityRank best < severityRank s then s else best) .info

def fromRule (rule : Rule) : RuleMatch :=
  ⟨rule.ruleId, rule.name, rule.kind, rule.severity, rule.description, rule.source⟩

/-- `Scanner._scan_file` behind `os.open` and the first checks, without a worker: the finding, the
statistics and the new issues. -/
def Scanner.scanOpened (s : Scanner) (rt : ContentRuntime) (path : Path) (opened after : Opened)
    (chunks : List Bytes) (stats : ScanStats) : Option FileFinding × ScanStats × List ScanIssue :=
  match s.readContent .start chunks with
  | none => (none, { stats with skippedTooLarge := stats.skippedTooLarge + 1 }, [])
  | some m =>
      if after.size ≠ opened.size ∨ after.mtimeNs ≠ opened.mtimeNs ∨ (m.bytesRead : Int) ≠ opened.size
      then
        (none, stats, [⟨rt.absolute path, .fileChangedDuringScan,
          str "file changed while hashing"⟩])
      else
        let hexDigest := rt.sha256 m.digested
        let matchedRules := s.literalRules.filter (fun rule => rule.ruleId ∈ m.literalMatches) ++
          s.digestRules.filter fun rule => rule.digest = some hexDigest
        let stats := { stats with
          filesHashed := stats.filesHashed + 1
          bytesHashed := stats.bytesHashed + m.bytesRead }
        if matchedRules = [] then (none, stats, [])
        else
          let ruleMatches := (matchedRules.insertionSort byRuleId).map fromRule
          (some {
            path := rt.absolute path
            sha256 := hexDigest
            size := m.bytesRead
            modifiedAt := rt.modifiedAt opened.mtimeNs
            severity := highestSeverity (ruleMatches.map RuleMatch.severity)
            ruleMatches := ruleMatches }, stats, [])

/-! ## In the content worker -/

/-- A `ScanWorkerError`. -/
def workerError (text : String) : PyError := .shield (.scanWorkerError (str text))

/-- `_rules_payload`: the identifier and the encoded literal of every literal rule. -/
def rulesPayload (rules : List Rule) : List (Str × Str) :=
  (rules.filter fun rule => rule.kind = .literal).map fun rule =>
    (rule.ruleId, Base64.encode (pattern rule))

/-- The literals `_worker_main` decodes from its configuration. -/
def decodeLiterals : List (Str × Str) → Except PyError Literals
  | [] => .ok []
  | (identifier, value) :: payload =>
      match Base64.decode value with
      | none => .error (workerError "worker literal is not valid base64")
      | some [] => .error (workerError "worker literal may not be empty")
      | some decoded => do
          let literals ← decodeLiterals payload
          .ok ((identifier, decoded) :: literals)

/-- `MAX_INSPECTION_BYTES`. -/
def maxInspectionBytes : Nat := 16 * 1024 * 1024

/-- What `_scan_stream` answers. -/
structure StreamScan where
  sha256 : Str
  bytesRead : Nat
  literalRuleIds : List Str
  observations : List Json

/-- A turn of the loop of `_scan_stream` with the frame that was received, and with the bytes kept
for inspection. -/
def streamTurn (literals : Literals) (expectedSize chunkBytes maxFileBytes : Int)
    (m : Matching) (inspection chunk : Bytes) : Except PyError (Matching × Bytes) :=
  if chunk = [] ∨ chunkBytes < chunk.length then
    .error (workerError "content stream frame is empty or oversized")
  else if expectedSize < (m.bytesRead + chunk.length : Nat) ∨
      maxFileBytes < (m.bytesRead + chunk.length : Nat) then
    .error (workerError "file grew beyond the content worker size policy")
  else .ok (m.feed literals chunk,
    if inspection.length < maxInspectionBytes then
      inspection ++ chunk.take (maxInspectionBytes - inspection.length)
    else inspection)

/-- The loop of `_scan_stream`.  `recv_bytes` raises at the end of the stream and for a frame that
is longer than its bound. -/
def streamLoop (literals : Literals) (expectedSize chunkBytes maxFileBytes : Int) :
    Matching → Bytes → List Bytes → Except PyError (Matching × Bytes)
  | m, inspection, [] =>
      if (m.bytesRead : Int) < expectedSize then
        .error (workerError "content stream ended before its declared length")
      else .ok (m, inspection)
  | m, inspection, chunk :: chunks =>
      if (m.bytesRead : Int) < expectedSize then
        if chunkBytes < chunk.length then
          .error (workerError "content stream ended before its declared length")
        else
          match streamTurn literals expectedSize chunkBytes maxFileBytes m inspection chunk with
          | .error e => .error e
          | .ok (m, inspection) =>
              streamLoop literals expectedSize chunkBytes maxFileBytes m inspection chunks
      else .ok (m, inspection)

/-- `_scan_stream`.  A size that is no integer is `none`. -/
def scanStream (rt : ContentRuntime) (size : Option Int) (literals : Literals)
    (chunkBytes maxFileBytes : Int) (frames : List Bytes) : Except PyError StreamScan :=
  match size with
  | none => .error (workerError "worker request has invalid file metadata")
  | some expectedSize =>
      if maxFileBytes < expectedSize then
        .error (workerError "file exceeds the content worker size policy")
      else do
        let (m, inspection) ←
          streamLoop literals expectedSize chunkBytes maxFileBytes .start [] frames
        .ok {
          sha256 := rt.sha256 m.digested
          bytesRead := m.bytesRead
          literalRuleIds := m.literalMatches.insertionSort (· ≤ ·)
          observations := rt.inspectContent inspection expectedSize }

end ZsecShield.Scan
