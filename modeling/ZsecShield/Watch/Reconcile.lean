import ZsecShield.Watch.Scan

/-!
# Reconciliations

`_reconcile`, with its nested functions as definitions of their own.  The file
filter and the file observer may drain the live event queue, and a drained path
is scanned at once, inside the walk.  `previous` is the dictionary
`_reconciliation_snapshot` itself, so a nested scan evicts from `previous`.
-/

namespace ZsecShield.Watch

open Text (Str str)
open Effect (Prog)

/-- Change the local variables of the reconciliation. -/
def Watcher.onReconciliation (f : Reconciliation → Reconciliation) (s : Watcher) : Watcher :=
  { s with reconciliation := f s.reconciliation }

/-- Change counters and deadlines of the reconciliation. -/
def progress (f : Reconciliation → Reconciliation) : WatchM Unit :=
  Prog.update (Watcher.onReconciliation f)

/-! ## Heartbeats -/

/-- `_stats_snapshot`, at the clock reading `now`. -/
def Watcher.statsSnapshot (now : ℚ) (s : Watcher) : WatchStats :=
  { s.stats with
    eventsReceived := s.events.eventsReceived
    eventsDebounced := s.events.eventsDebounced
    eventsExcluded := s.events.eventsExcluded
    eventsDropped := s.stats.eventsDropped + s.events.eventsDropped
    pendingHighWater := max s.stats.pendingHighWater s.events.pendingHighWater
    oldestPendingMilliseconds := s.events.oldestPendingMilliseconds now
    eventQueueCapacity := s.events.maxEvents
    eventQueueRawDepth := s.events.queue.length
    eventQueuePendingPaths := s.events.pending.length
    eventQueueTotalDepth := s.events.totalDepth }

/-- `_stats_snapshot`. -/
def statsSnapshot : WatchM WatchStats := do
  let now ← clock
  Prog.gets (Watcher.statsSnapshot now)

/-- The counters a progress heartbeat adds, at the clock reading `now`. -/
def Reconciliation.progress (now : ℚ) (r : Reconciliation) : ReconciliationProgress where
  filesObserved := r.observed
  filesUnchanged := r.unchanged
  filesHashed := r.hashedInProgress
  bytesHashed := r.bytesHashed
  unresolvedFiles := r.unresolvedInProgress
  elapsedMilliseconds := (max 0 (now - r.reconciliationStarted) * 1000).floor.toNat

/-- Emit `health_heartbeat`. -/
def emitHeartbeat (operationalIncomplete inventoryComplete : Bool)
    (reconciliationPhase : Option Trigger) (stats : WatchStats)
    (progress : Option ReconciliationProgress) : WatchM Unit := do
  let w ← Prog.ask id
  let activeBackend ← Prog.gets Watcher.activeBackend
  emit (.healthHeartbeat activeBackend (w.roots.map WatchRoot.path) operationalIncomplete
    inventoryComplete reconciliationPhase stats progress w.config.quarantine)

/-- `emit_progress_heartbeat`. -/
def emitProgressHeartbeat : WatchM Unit := do
  let now ← clock
  let r ← Prog.gets Watcher.reconciliation
  if now < r.nextProgressHeartbeat then pure ()
  else
    let stats ← statsSnapshot
    let operationalIncomplete ← Prog.gets fun s =>
      s.operationalIncomplete || s.events.overflowed || s.eventIngestFailure.isSome
    emitHeartbeat operationalIncomplete false (some r.trigger) stats (some (r.progress now))
    let config ← Prog.ask World.config
    progress fun r => { r with nextProgressHeartbeat := now + config.heartbeatSeconds }

/-! ## Draining inside the walk -/

/-- Ghost: the walk reads the file after the event, in this pass. -/
def Watcher.covers (key : Bytes) (submitted : Nat) (s : Watcher) : Bool :=
  (s.ghost.inFilter && !s.reconciliation.metadataOnly) ||
    s.ghost.passOpened.any fun o => decide (o.1 = key ∧ submitted < o.2)

/-- One turn of the loop of `drain_priority_events`. -/
def drainOne (currentKey : Bytes) (pending : PendingPath) : WatchM Unit := do
  let key ← snapshotPathKey pending.path
  if key ≠ currentKey then scanPending pending
  else
    Prog.update fun s =>
      s.log (.skipped key pending.lastSubmitted (s.covers key pending.lastSubmitted))

/-- `drain_priority_events`. -/
def drainPriorityEvents (currentKey : Bytes) : WatchM Unit := do
  let now ← clock
  let r ← Prog.gets Watcher.reconciliation
  if now < r.nextPriorityDrain then pure ()
  else
    let config ← Prog.ask World.config
    progress fun r => { r with nextPriorityDrain := now + min (1 / 10) config.debounceSeconds }
    let paths ← due (some 32)
    Prog.forEach (drainOne currentKey) paths

/-! ## The callbacks -/

/-- Ghost: the walk turns to a file. -/
def Watcher.beginVisit (key : Bytes) (s : Watcher) : Watcher :=
  { s with ghost := { s.ghost with
      inFilter := true
      passOpened := []
      visited := key :: s.ghost.visited } }.log .passBegan

/-- Ghost: the walk leaves a file. -/
def Watcher.endVisit (s : Watcher) : Watcher := s.log .passEnded

/-- `current[key] = fingerprint`. -/
def Watcher.setCurrent (key : Bytes) (fingerprint : Fingerprint) (s : Watcher) : Watcher :=
  s.onReconciliation fun r => { r with current := r.current.set key fingerprint }

/-- `current[key] = fingerprint` in the metadata-only inventory. -/
def Watcher.inventory (key : Bytes) (fingerprint : Fingerprint) (s : Watcher) : Watcher :=
  (s.setCurrent key fingerprint).log (.inventoried key (s.ghost.lastAttempt key))

/-- `unchanged += 1; current[key] = fingerprint`. -/
def Watcher.passOver (key : Bytes) (fingerprint : Fingerprint) (s : Watcher) : Watcher :=
  ((s.onReconciliation fun r => { r with unchanged := r.unchanged + 1 }).setCurrent key
    fingerprint).log (.unchanged key (s.ghost.lastAttempt key))

/-- The filter for a file whose metadata cannot be packed. -/
def filterUnrepresentable (key : Bytes) (error : PyError) : WatchM Bool := do
  let r ← Prog.gets Watcher.reconciliation
  if r.metadataOnly then Prog.raise error
  else
    emitProgressHeartbeat
    drainPriorityEvents key
    pure true

/-- The filter of the metadata-only inventory. -/
def filterInventory (key : Bytes) (fingerprint : Fingerprint) : WatchM Bool := do
  Prog.update (Watcher.inventory key fingerprint)
  emitProgressHeartbeat
  drainPriorityEvents key
  Prog.update Watcher.endVisit
  pure false

/-- The filter of a reconciliation that inspects content. -/
def filterChanged (key : Bytes) (previousFingerprint : Option Fingerprint)
    (fingerprint : Fingerprint) : WatchM Bool := do
  let r ← Prog.gets Watcher.reconciliation
  if r.full = true ∨ previousFingerprint ≠ some fingerprint then
    emitProgressHeartbeat
    pure true
  else
    Prog.update (Watcher.passOver key fingerprint)
    emitProgressHeartbeat
    Prog.update Watcher.endVisit
    pure false

/-- `changed_since_last_reconciliation`. -/
def changedSinceLastReconciliation : FileFilter := fun path metadata => do
  let key ← snapshotPathKey path
  Prog.update (Watcher.beginVisit key)
  progress fun r => { r with observed := r.observed + 1 }
  match fileFingerprint metadata with
  | .error e => filterUnrepresentable key e
  | .ok fingerprint =>
      let previousFingerprint ← Prog.gets fun s => s.reconciliationSnapshot key
      evict key
      let r ← Prog.gets Watcher.reconciliation
      if r.metadataOnly then filterInventory key fingerprint
      else filterChanged key previousFingerprint fingerprint

/-- The bookkeeping of `record_successful_hash`. -/
def recordHashed (key : Bytes) (metadata : Stat) (wasHashed : Bool) : WatchM Unit :=
  if wasHashed then do
    progress fun r => { r with
      hashedInProgress := r.hashedInProgress + 1
      bytesHashed := r.bytesHashed + metadata.size.toNat }
    let fingerprint ← Prog.liftExcept (fileFingerprint metadata)
    Prog.update (Watcher.setCurrent key fingerprint)
  else
    progress fun r => { r with
      unresolvedInProgress := r.unresolvedInProgress + 1
      unresolved := if key ∈ r.unresolved then r.unresolved else key :: r.unresolved }

/-- `record_successful_hash`. -/
def recordSuccessfulHash : FileObserver := fun path metadata wasHashed => do
  let key ← snapshotPathKey path
  Prog.update fun s => { s with ghost := { s.ghost with inFilter := false } }
  recordHashed key metadata wasHashed
  emitProgressHeartbeat
  drainPriorityEvents key
  Prog.update Watcher.endVisit

/-! ## The reconciliation -/

/-- The locals of `_reconcile` as it starts. -/
def Reconciliation.start (trigger : Trigger) (full metadataOnly : Bool)
    (reconciliationStarted : ℚ) (incompleteGeneration : Nat)
    (nextProgressHeartbeat nextPriorityDrain : ℚ) : Reconciliation where
  trigger := trigger
  full := full
  metadataOnly := metadataOnly
  reconciliationStarted := reconciliationStarted
  incompleteGeneration := incompleteGeneration
  nextProgressHeartbeat := nextProgressHeartbeat
  nextPriorityDrain := nextPriorityDrain

/-- `_reconcile` reads the generation, and the history marks its beginning. -/
def Watcher.beginReconcile (trigger : Trigger) (full metadataOnly : Bool) (started : ℚ)
    (s : Watcher) : Watcher :=
  { s with
    reconciliation :=
      Reconciliation.start trigger full metadataOnly started s.incompleteGeneration 0 0
    ghost := { s.ghost with walking := true, visited := [] } }.log (.reconcileBegan metadataOnly)

/-- `_reconcile` up to its scan. -/
def openReconciliation (trigger : Trigger) (full metadataOnly : Bool) : WatchM Unit := do
  count fun st => { st with
    reconciliations := st.reconciliations + 1
    fullReconciliations :=
      if full then st.fullReconciliations + 1 else st.fullReconciliations }
  let started ← clock
  Prog.update (Watcher.beginReconcile trigger full metadataOnly started)
  let nextHeartbeat ← clock
  let config ← Prog.ask World.config
  progress fun r => { r with nextProgressHeartbeat := nextHeartbeat + config.heartbeatSeconds }
  let nextDrain ← clock
  progress fun r => { r with nextPriorityDrain := nextDrain }

/-- The scan of a reconciliation. -/
def reconcileCall (roots : List WatchRoot) (trigger : Trigger) (full metadataOnly : Bool) :
    ScanCall where
  paths := roots.map WatchRoot.path
  triggers := [trigger]
  event :=
    if metadataOnly then .metadataInventoryCompleted
    else if full then .scanCompleted
    else .reconciliationCompleted
  noHashOutcome :=
    if metadataOnly then some .metadataInventoryComplete
    else if full then none
    else some .noMetadataChanges

/-- `_reconciliation_snapshot = current`, with the counters. -/
def Watcher.endReconcile (s : Watcher) : Watcher :=
  { s with
    reconciliationSnapshot := s.reconciliation.current
    stats := { s.stats with
      metadataFilesObserved := s.stats.metadataFilesObserved + s.reconciliation.observed
      metadataFilesUnchanged := s.stats.metadataFilesUnchanged + s.reconciliation.unchanged
      unresolvedFiles := s.reconciliation.unresolved.length }
    ghost := { s.ghost with walking := false } }.log
      (.reconcileEnded s.reconciliation.current s.ghost.lastAttempt)

/-- The guard of the recovery. -/
def Watcher.mayRecover (result : ScanResult) (s : Watcher) : Bool :=
  !s.reconciliation.metadataOnly && result.issues.isEmpty &&
    result.stats.skippedSpecial = 0 && result.stats.skippedTooLarge = 0 &&
    s.reconciliation.unresolved.isEmpty && !s.events.overflowed &&
    s.eventIngestFailure.isNone && !s.persistentOperationalIncomplete &&
    s.incompleteGeneration = s.reconciliation.incompleteGeneration && s.operationalIncomplete

/-- `_operational_incomplete = False`. -/
def Watcher.recover (s : Watcher) : Watcher :=
  { s with operationalIncomplete := false }.log (.recovered s.ghost.visited s.ghost.lastAttempt)

/-- `_reconcile` after its scan. -/
def closeReconciliation (result : ScanResult) : WatchM Unit := do
  Prog.update Watcher.endReconcile
  if ← Prog.gets (Watcher.mayRecover result) then
    Prog.update Watcher.recover
    let stats ← statsSnapshot
    emitHeartbeat false true none stats none
  else pure ()

/-- `_reconcile`. -/
def reconcile (trigger : Trigger) (full metadataOnly : Bool) : WatchM Unit :=
  if metadataOnly = true ∧ full = true then
    Prog.raise (.shield (.watchError
      (str "a metadata-only inventory cannot be a full-content rescan")))
  else do
    openReconciliation trigger full metadataOnly
    let roots ← Prog.ask World.roots
    let result ← scanPaths (reconcileCall roots trigger full metadataOnly)
      (some changedSinceLastReconciliation)
      (if metadataOnly then none else some recordSuccessfulHash)
    closeReconciliation result

end ZsecShield.Watch
