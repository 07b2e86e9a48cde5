import ZsecShield.Models
import ZsecShield.Watch.Queue

/-!
# Watch records and the evidence sink

The records a watch session emits, and `WatchEvidenceSink` of
`watch_evidence.py`, which reads them.  A record is a value of `WatchEvent`, so
the type tests the sink makes on a payload hold by construction.  `absorb` is
the part of `WatchEvidenceSink.record` that runs between the append to the event
log and the write of the health file.
-/

namespace ZsecShield.Watch

open Text (Str)

/-- What made a scan start. -/
inductive Trigger where
  | event (eventType : EventType)
  | initialMetadataInventory
  | periodicFullRescan
  | periodicReconciliation
deriving DecidableEq, Repr

inductive Outcome where
  | incomplete
  | metadataInventoryComplete
  | noMetadataChanges
  | configuredRuleMatchesDetected
  | reviewObservations
  | noConfiguredRuleMatches
  | interrupted
deriving DecidableEq, Repr

/-- The codes of `_health_issue`. -/
inductive HealthCode where
  | watchEventIngestStopped
  | watchEventQueueOverflow
  | watchPathUnreadable
  | watchCrossFilesystemSkipped
  | scanScopeIncomplete
  | watchBackendStopped
  | watchRootUnavailable
  | watchRootIdentityChanged
  | watchTrustStateChanged
  | watchEventBacklogUnprocessed
deriving DecidableEq, Repr

/-- The issues a whole-root reconciliation can recover from. -/
def HealthCode.recoverable : HealthCode → Bool
  | .watchPathUnreadable | .scanScopeIncomplete => true
  | _ => false

/-- The event name of a scan record. -/
inductive ScanEvent where
  | scanCompleted
  | reconciliationCompleted
  | metadataInventoryCompleted
deriving DecidableEq, Repr

/-- The backend that was asked for. -/
inductive WatchBackend where
  | auto
  | native
  | polling
deriving DecidableEq, Repr

/-- The backend that runs. -/
inductive ActiveBackend where
  | notStarted
  | native
  | polling
deriving DecidableEq, Repr

/-- What became of one finding under `--quarantine`. -/
inductive QuarantineRecord where
  | completed (id state originalPath sha256 : Str)
  | copyOnly (id error : Str)
  | failed (path : Path) (error : Str)
deriving DecidableEq, Repr

structure WatchStats where
  eventsReceived : Nat := 0
  eventsDebounced : Nat := 0
  eventsExcluded : Nat := 0
  eventsOutsideScope : Nat := 0
  eventsCrossFilesystem : Nat := 0
  eventsSuperseded : Nat := 0
  eventsDropped : Nat := 0
  scanBatches : Nat := 0
  filesHashed : Nat := 0
  bytesHashed : Nat := 0
  findings : Nat := 0
  observations : Nat := 0
  issues : Nat := 0
  quarantineCompleted : Nat := 0
  quarantinePartial : Nat := 0
  quarantineFailed : Nat := 0
  reconciliations : Nat := 0
  fullReconciliations : Nat := 0
  metadataFilesObserved : Nat := 0
  metadataFilesUnchanged : Nat := 0
  unresolvedFiles : Nat := 0
  pendingHighWater : Nat := 0
  oldestPendingMilliseconds : Nat := 0
  eventQueueCapacity : Nat := 0
  eventQueueRawDepth : Nat := 0
  eventQueuePendingPaths : Nat := 0
  eventQueueTotalDepth : Nat := 0
deriving DecidableEq, Repr

/-- The counters a progress heartbeat adds. -/
structure ReconciliationProgress where
  filesObserved : Nat
  filesUnchanged : Nat
  filesHashed : Nat
  bytesHashed : Nat
  unresolvedFiles : Nat
  elapsedMilliseconds : Nat
deriving DecidableEq, Repr

structure HealthIssue where
  code : HealthCode
  message : Str
deriving DecidableEq, Repr

structure WatchSummary where
  startedAt : Str
  completedAt : Str
  backendRequested : WatchBackend
  backendActive : ActiveBackend
  fallbackReason : Option Str
  roots : List Path
  interrupted : Bool
  operationalIncomplete : Bool
  stats : WatchStats
  healthIssues : List HealthIssue
  quarantineRequested : Bool
deriving DecidableEq, Repr

def WatchSummary.outcome (s : WatchSummary) : Outcome :=
  if s.interrupted then .interrupted
  else if s.operationalIncomplete then .incomplete
  else if s.stats.findings ≠ 0 then .configuredRuleMatchesDetected
  else if s.stats.observations ≠ 0 then .reviewObservations
  else .noConfiguredRuleMatches

/-- The records of a session. -/
inductive WatchEvent where
  | backendFallback (reason : Option Str)
  | sessionStarted (backendRequested : WatchBackend) (backendActive : ActiveBackend)
      (fallbackReason : Option Str) (roots : List Path) (quarantineRequested : Bool)
  | healthIssue (issue : HealthIssue)
  | eventSuperseded (path : Path) (triggers : List Trigger) (reason : Str)
  | eventsSuperseded (count : Nat) (samplePaths : List Path) (samplePathsOmitted : Nat)
      (triggers : List Trigger) (reason : Str)
  | scan (event : ScanEvent) (triggers : List Trigger) (outcome : Outcome) (result : ScanResult)
      (quarantine : List QuarantineRecord)
  | healthHeartbeat (backendActive : ActiveBackend) (roots : List Path)
      (operationalIncomplete inventoryComplete : Bool) (reconciliationPhase : Option Trigger)
      (stats : WatchStats) (progress : Option ReconciliationProgress) (quarantineRequested : Bool)
  | sessionCompleted (summary : WatchSummary)
deriving DecidableEq, Repr

/-- The operational state of the health file. -/
inductive OperationalState where
  | starting
  | inventoryingMetadata
  | healthy
  | degraded
  | stopped
deriving DecidableEq, Repr

/-- The counters of the health file: those of the last scan or of the watcher. -/
inductive Counters where
  | none
  | scan (stats : ScanStats)
  | watch (stats : WatchStats) (progress : Option ReconciliationProgress)
deriving DecidableEq, Repr

/-- The fields of the health file that change while a session runs. -/
structure Health where
  operationalState : OperationalState
  backendActive : Option ActiveBackend
  roots : List Path
  lastOutcome : Option Outcome
  counters : Counters
  policy : Option Bool
deriving DecidableEq, Repr

structure WatchEvidenceSink where
  /-- `health_file is not None`. -/
  healthFile : Bool
  /-- `event_log is not None`. -/
  eventLog : Bool
  backendActive : Option ActiveBackend := none
  roots : List Path := []
  policy : Option Bool := none
  operationalState : OperationalState := .starting
  lastOutcome : Option Outcome := none
  counters : Counters := .none
  /-- The health file as last written. -/
  persisted : Option Health := none
deriving DecidableEq, Repr

namespace WatchEvidenceSink

/-- The records that leave health alone. -/
def ignores : WatchEvent → Bool
  | .eventSuperseded .. | .eventsSuperseded .. => true
  | _ => false

/-- How `record` updates the sink for a record it does not ignore. -/
def absorb (sink : WatchEvidenceSink) : WatchEvent → WatchEvidenceSink
  | .sessionStarted _ backendActive _ roots quarantineRequested =>
      { sink with
        backendActive := some backendActive
        roots := roots
        policy := some quarantineRequested
        operationalState := .inventoryingMetadata }
  | .healthIssue _ => { sink with operationalState := .degraded }
  | .scan .metadataInventoryCompleted _ outcome result _ =>
      { sink with
        lastOutcome := some outcome
        counters := .scan result.stats
        operationalState :=
          if outcome = .metadataInventoryComplete then
            if sink.operationalState ≠ .degraded then .healthy else sink.operationalState
          else .degraded }
  | .scan _ _ outcome result _ =>
      { sink with
        lastOutcome := some outcome
        counters := .scan result.stats
        operationalState := if outcome = .incomplete then .degraded else sink.operationalState }
  | .healthHeartbeat backendActive _ operationalIncomplete inventoryComplete _ stats progress _ =>
      { sink with
        backendActive := some backendActive
        counters := .watch stats progress
        operationalState :=
          if operationalIncomplete then .degraded
          else if inventoryComplete then .healthy
          else sink.operationalState }
  | .sessionCompleted summary =>
      { sink with
        operationalState := .stopped
        lastOutcome := some summary.outcome
        counters := .watch summary.stats none }
  | .backendFallback _ | .eventSuperseded .. | .eventsSuperseded .. => sink

/-- The health file `record` writes. -/
def health (sink : WatchEvidenceSink) : Health where
  operationalState := sink.operationalState
  backendActive := sink.backendActive
  roots := sink.roots
  lastOutcome := sink.lastOutcome
  counters := sink.counters
  policy := sink.policy

/-- The health file replaced by the current state. -/
def persist (sink : WatchEvidenceSink) : WatchEvidenceSink :=
  { sink with persisted := some sink.health }

@[simp] theorem persist_operationalState (sink : WatchEvidenceSink) :
    sink.persist.operationalState = sink.operationalState := rfl

end WatchEvidenceSink

end ZsecShield.Watch
