import ZsecShield.Errors

/-!
# Scanner models

The data a scan returns (`models.py`).  An issue code is one of the codes the
scanner gives, and a severity and a rule kind are one of their literals.
-/

namespace ZsecShield

open Text (Str str)

inductive Severity where
  | info
  | low
  | medium
  | high
  | critical
deriving DecidableEq, Repr

inductive RuleKind where
  | sha256
  | literal
deriving DecidableEq, Repr

/-- A detection rule: the digest of a whole file or a literal to look for. -/
structure Rule where
  ruleId : Str
  name : Str
  kind : RuleKind
  severity : Severity
  description : Str
  source : Str
  digest : Option Str
  literal : Option Bytes
deriving DecidableEq

/-- A rule that matched, as a finding records it. -/
structure RuleMatch where
  ruleId : Str
  name : Str
  kind : RuleKind
  severity : Severity
  description : Str
  source : Str
deriving DecidableEq, Repr

structure FileFinding where
  path : Path
  sha256 : Str
  size : Nat
  modifiedAt : Str
  severity : Severity
  ruleMatches : List RuleMatch
deriving DecidableEq, Repr

/-- The codes of a `ScanIssue`. -/
inductive ScanCode where
  | rootUnreadable
  | directoryUnreadable
  | entryUnreadable
  | fileFilterFailed
  | fileObserverFailed
  | fileOpenFailed
  | fileChangedBeforeScan
  | contentWorkerFailed
  | fileChangedDuringScan
  | fileReadFailed
deriving DecidableEq, Repr

def ScanCode.text : ScanCode → Str
  | .rootUnreadable => str "root_unreadable"
  | .directoryUnreadable => str "directory_unreadable"
  | .entryUnreadable => str "entry_unreadable"
  | .fileFilterFailed => str "file_filter_failed"
  | .fileObserverFailed => str "file_observer_failed"
  | .fileOpenFailed => str "file_open_failed"
  | .fileChangedBeforeScan => str "file_changed_before_scan"
  | .contentWorkerFailed => str "content_worker_failed"
  | .fileChangedDuringScan => str "file_changed_during_scan"
  | .fileReadFailed => str "file_read_failed"

structure ScanIssue where
  path : Path
  code : ScanCode
  message : Str
deriving DecidableEq, Repr

/-- A review-only signal.  The evidence is what the provider attached to it. -/
structure ScanObservation where
  path : Path
  provider : Str
  category : Str
  severity : Severity
  summary : Str
  evidence : List (Str × Str)
  quarantineEligible : Bool := false
deriving DecidableEq, Repr

structure ScanStats where
  rootsRequested : Nat := 0
  filesHashed : Nat := 0
  bytesHashed : Nat := 0
  findings : Nat := 0
  errors : Nat := 0
  observations : Nat := 0
  skippedSymlinks : Nat := 0
  skippedSpecial : Nat := 0
  skippedTooLarge : Nat := 0
  skippedFilesystems : Nat := 0
  skippedExcluded : Nat := 0
deriving DecidableEq, Repr

structure ScanResult where
  startedAt : Str
  completedAt : Str
  roots : List Path
  findings : List FileFinding := []
  observations : List ScanObservation := []
  issues : List ScanIssue := []
  stats : ScanStats := {}
deriving DecidableEq, Repr

end ZsecShield
