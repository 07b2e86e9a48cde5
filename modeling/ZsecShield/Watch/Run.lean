import ZsecShield.Watch.Reconcile

/-!
# The watch session

`run`, with the checks of its main loop and its shutdown.  A loop of the source
without a bound takes as many turns as the environment follows it for.
-/

namespace ZsecShield.Watch

open Text (Str str)
open Effect (Prog)

/-! ## Health checks -/

/-- `_event_pipeline_is_healthy`. -/
def eventPipelineIsHealthy : WatchM Bool := do
  match ← Prog.gets Watcher.eventIngestFailure with
  | some reason =>
      healthIssue .watchEventIngestStopped
        (str "event ingestion stopped unexpectedly: " ++ reason)
      pure false
  | none =>
      point
      if ← Prog.gets fun s => s.events.overflowed then
        let dropped ← Prog.gets fun s => s.events.eventsDropped
        Prog.update fun s => { s with events := s.events.clearOverflow.2 }
        count fun st => { st with eventsDropped := st.eventsDropped + dropped }
        healthIssue .watchEventQueueOverflow
          (str "lost " ++ decimal dropped ++
            str " queued filesystem event(s); coverage is unknown")
        pure false
      else pure true

/-- The name of a backend. -/
def ActiveBackend.text : ActiveBackend → Str
  | .notStarted => str "not-started"
  | .native => str "native"
  | .polling => str "polling"

/-- `_backend_is_healthy`. -/
def backendIsHealthy : WatchM Bool := do
  if ← call World.observerAlive then pure true
  else
    let activeBackend ← Prog.gets Watcher.activeBackend
    healthIssue .watchBackendStopped
      (activeBackend.text ++ str " watch backend stopped unexpectedly; coverage is unknown")
    pure false

/-- The root is another object than at the start of the session. -/
def WatchRoot.identityChanged (root : WatchRoot) (m : Stat) : Bool :=
  (root.device ≠ 0 && m.dev ≠ 0 && root.device ≠ m.dev) ||
    (root.inode ≠ 0 && m.ino ≠ 0 && root.inode ≠ m.ino)

/-- The loop of `_roots_are_healthy`. -/
def checkRoots : List WatchRoot → WatchM Bool
  | [] => pure true
  | root :: rest => do
      match ← lstat root.path with
      | .error e =>
          let host ← Prog.ask World.host
          healthIssue .watchRootUnavailable
            (str "watch root failed: " ++ root.path ++ str ": " ++ host.text (.os e))
          pure false
      | .ok m =>
          if m.isDirectory = false ∨ m.isLinkOrReparse = true then
            healthIssue .watchRootIdentityChanged
              (str "watch root is no longer the original regular directory: " ++ root.path)
            pure false
          else if root.identityChanged m then
            healthIssue .watchRootIdentityChanged
              (str "watch root device/inode changed: " ++ root.path)
            pure false
          else checkRoots rest

/-- `_roots_are_healthy`. -/
def rootsAreHealthy : WatchM Bool := do checkRoots (← Prog.ask World.roots)

/-! ## The observer -/

/-- `_new_observer`.  The result is the type and the text of its exception. -/
def newObserver (backend : ActiveBackend) : WatchM (Option (Str × Str)) := do
  Prog.update fun s => { s with observerAttached := true }
  match ← call fun w t => w.observerFails t backend with
  | none => pure none
  | some reason =>
      let outlives ← answer World.observerOutlivesJoin
      Prog.update fun s => { s with observerAttached := outlives }
      pure (some reason)

/-- The polling backend is started, or `WatchError`. -/
def startPolling (message : Str) : WatchM Unit := do
  match ← newObserver .polling with
  | none => Prog.update fun s => { s with activeBackend := .polling }
  | some reason => Prog.raise (.shield (.watchError (message ++ reason.2)))

/-- `_start_observer`. -/
def startObserver : WatchM Unit := do
  let config ← Prog.ask World.config
  if config.backend = .polling then startPolling (str "polling watch backend failed to start: ")
  else
    match ← newObserver .native with
    | none => Prog.update fun s => { s with activeBackend := .native }
    | some reason =>
        if config.backend = .native then
          Prog.raise (.shield (.watchError
            (str "native watch backend failed to start: " ++ reason.2)))
        else
          let fallback := str "native backend unavailable: " ++ reason.1 ++ str ": " ++ reason.2
          Prog.update fun s => { s with fallbackReason := some fallback }
          startPolling (str "native backend failed and polling fallback failed to start: ")
          emit (.backendFallback (some fallback))

/-- `_stop_observer`. -/
def stopObserver : WatchM Unit := do
  let outlives ← call World.observerOutlivesJoin
  Prog.update fun s => { s with observerAttached := outlives }

/-! ## The main loop -/

structure Deadlines where
  nextReconcile : ℚ
  nextFullRescan : ℚ
  nextHealthCheck : ℚ
  nextHeartbeat : ℚ

/-- Ghost: the main loop turns to the due events. -/
def Watcher.beginDrain (s : Watcher) : Watcher :=
  { s with ghost := { s.ghost with inFilter := false, passOpened := [] } }.log .passBegan

/-- The main loop scans the due events. -/
def drainDue : WatchM Unit := do
  Prog.update Watcher.beginDrain
  let paths ← due none
  Prog.forEach scanPending paths
  Prog.update Watcher.endVisit

/-- The trust check of the main loop.  The result is the new deadline, or `none`
to leave the loop. -/
def checkTrust (now : ℚ) (nextHealthCheck : ℚ) : WatchM (Option ℚ) := do
  if nextHealthCheck ≤ now then
    match ← Prog.liftExcept (← call World.healthCheck) with
    | some healthError =>
        healthIssue .watchTrustStateChanged healthError
        pure none
    | none =>
        let config ← Prog.ask World.config
        pure (some (now + min 5 config.reconcileSeconds))
  else pure (some nextHealthCheck)

/-- The heartbeat of the main loop. -/
def heartbeat : WatchM Unit := do
  let operationalIncomplete ← Prog.gets Watcher.operationalIncomplete
  let stats ← statsSnapshot
  emitHeartbeat operationalIncomplete false none stats none

/-- The heartbeat, once its deadline has passed. -/
def heartbeatDue (now : ℚ) (d : Deadlines) : WatchM Deadlines :=
  if d.nextHeartbeat ≤ now then do
    heartbeat
    let config ← Prog.ask World.config
    pure { d with nextHeartbeat := now + config.heartbeatSeconds }
  else pure d

/-- The full rescan or the reconciliation, once its deadline has passed. -/
def reconcileDue (now : ℚ) (d : Deadlines) : WatchM Deadlines :=
  if d.nextFullRescan ≤ now then do
    reconcile .periodicFullRescan true false
    let config ← Prog.ask World.config
    pure { d with
      nextFullRescan := now + config.fullRescanSeconds
      nextReconcile := now + config.reconcileSeconds }
  else if d.nextReconcile ≤ now then do
    reconcile .periodicReconciliation false false
    let config ← Prog.ask World.config
    pure { d with nextReconcile := now + config.reconcileSeconds }
  else pure d

/-- The part of a turn of the main loop after its checks. -/
def work (d : Deadlines) : WatchM Deadlines := do
  drainDue
  let now ← clock
  let d ← heartbeatDue now d
  let d ← reconcileDue now d
  point
  pure d

/-- `duration_seconds` has passed. -/
def durationPassed (duration : Option ℚ) (elapsed : ℚ) : Bool :=
  match duration with
  | none => false
  | some d => d ≤ elapsed

/-- The checks of a turn of the main loop.  The result is the new deadline of the
trust check, or `none` to leave the loop. -/
def checks (duration : Option ℚ) (monitoringStarted : ℚ) (d : Deadlines) :
    WatchM (Option ℚ) := do
  if ← eventPipelineIsHealthy then
    let now ← clock
    if durationPassed duration (now - monitoringStarted) then pure none
    else if ← backendIsHealthy then
      if ← rootsAreHealthy then checkTrust now d.nextHealthCheck else pure none
    else pure none
  else pure none

/-- The main loop, for as many turns as the run is followed. -/
def mainLoop (duration : Option ℚ) (monitoringStarted : ℚ) : Nat → Deadlines → WatchM Unit
  | 0, _ => Prog.halt
  | n + 1, d => do
      match ← checks duration monitoringStarted d with
      | none => pure ()
      | some nextHealthCheck =>
          let d ← work { d with nextHealthCheck := nextHealthCheck }
          mainLoop duration monitoringStarted n d

/-! ## Shutdown -/

/-- `ingest_thread.join(timeout=5)` and what follows from it. -/
def joinIngest : WatchM Unit := do
  if ← Prog.gets Watcher.ingestStarted then
    let outlives ← call World.ingestOutlivesJoin
    if ← Prog.gets fun s => s.ingestAlive && outlives then
      healthIssue .watchEventIngestStopped
        (str "event ingestion worker did not stop within its bounded deadline")
    else Prog.update fun s => { s with ingestAlive := false }
  else pure ()

/-- Events that were not scanned are a health issue. -/
def reportBacklog (telemetry : DebouncedPathQueue) : WatchM Unit :=
  if telemetry.totalDepth ≠ 0 then
    healthIssue .watchEventBacklogUnprocessed
      (str "observer stopped with " ++ decimal telemetry.totalDepth ++
        str " queued path(s) not scanned; coverage is unknown")
  else pure ()

/-- The `finally` block of `run`. -/
def shutdown : WatchM Unit := do
  stopObserver
  joinIngest
  ingest
  let _ ← eventPipelineIsHealthy
  let now ← clock
  let telemetry ← Prog.gets Watcher.events
  reportBacklog telemetry
  Prog.update fun s => { s with stats := { s with events := telemetry }.statsSnapshot now }

/-! ## The session -/

/-- `ingest_thread.start()`. -/
def startIngest : WatchM Unit := do
  if ← call World.ingestThreadStarts then
    Prog.update fun s => { s with ingestStarted := true, ingestAlive := true }
  else Prog.raise (.shield (.watchError (str "event ingestion worker failed to start")))

/-- The body of the `try` block of `run`. -/
def watch (duration : Option ℚ) (d : Deadlines) : WatchM Unit := do
  startIngest
  reconcile .initialMetadataInventory false true
  let monitoringStarted ← clock
  let config ← Prog.ask World.config
  let turns ← answer World.turns
  mainLoop duration monitoringStarted turns { d with
    nextReconcile := monitoringStarted + config.reconcileSeconds
    nextFullRescan := monitoringStarted + config.fullRescanSeconds }

/-- The deadlines before the inventory. -/
def firstDeadlines : WatchM Deadlines := do
  let config ← Prog.ask World.config
  let nextReconcile ← clock
  let nextFullRescan ← clock
  let nextHealthCheck ← clock
  let nextHeartbeat ← clock
  pure {
    nextReconcile := nextReconcile + config.reconcileSeconds
    nextFullRescan := nextFullRescan + config.fullRescanSeconds
    nextHealthCheck := nextHealthCheck + min 5 config.reconcileSeconds
    nextHeartbeat := nextHeartbeat + config.heartbeatSeconds }

/-- The summary of a session. -/
def Watcher.summary (w : World) (startedAt completedAt : Str) (interrupted : Bool) (s : Watcher) :
    WatchSummary where
  startedAt := startedAt
  completedAt := completedAt
  backendRequested := w.config.backend
  backendActive := s.activeBackend
  fallbackReason := s.fallbackReason
  roots := w.roots.map WatchRoot.path
  interrupted := interrupted
  operationalIncomplete := s.operationalIncomplete || s.historicalOperationalIncomplete
  stats := s.stats
  healthIssues := s.healthIssues
  quarantineRequested := w.config.quarantine

/-- The first record of a session. -/
def emitSessionStarted : WatchM Unit := do
  let w ← Prog.ask id
  let s ← Prog.state
  emit (.sessionStarted w.config.backend s.activeBackend s.fallbackReason
    (w.roots.map WatchRoot.path) w.config.quarantine)

/-- `duration_seconds` is out of its range. -/
def durationRefused : Option ℚ → Bool
  | none => false
  | some d => !(1 / 10 ≤ d && d ≤ 7 * 24 * 60 * 60)

/-- The main part of `run`, with its handler and its `finally` block.  The result
tells whether the session was interrupted. -/
def session (duration : Option ℚ) (d : Deadlines) : WatchM Bool :=
  Prog.tryFinally
    (Prog.tryExcept (do watch duration d; pure false) (fun e => !e.isException)
      fun _ => pure true)
    shutdown

/-- `run` up to its first record. -/
def openSession : WatchM Str := do
  let startedAt ← formatUtc
  startObserver
  emitSessionStarted
  pure startedAt

/-- `run` after its `finally` block. -/
def closeSession (startedAt : Str) (interrupted : Bool) : WatchM WatchSummary := do
  let completedAt ← formatUtc
  let w ← Prog.ask id
  let summary ← Prog.gets (Watcher.summary w startedAt completedAt interrupted)
  emit (.sessionCompleted summary)
  pure summary

/-- `run`. -/
def run (duration : Option ℚ) : WatchM WatchSummary :=
  if durationRefused duration then
    Prog.raise (.shield (.watchError
      (str "duration_seconds must be between 0.1 and 604800")))
  else do
    let startedAt ← openSession
    let d ← firstDeadlines
    let interrupted ← session duration d
    closeSession startedAt interrupted

/-- The watcher as its constructor leaves it. -/
def Watcher.new (excluded : List Str) (config : WatchConfig) (sink : WatchEvidenceSink) :
    Watcher where
  events := DebouncedPathQueue.new excluded config.debounceSeconds config.eventQueueSize
  sink := sink

/-! ## A calm world -/

/-- A POSIX host whose digest keeps the low byte of every code point. -/
def Host.posix : Host where
  pathKey path := path
  isWithin key parent := decide (key = parent) || (parent ++ str "/").isPrefixOf key
  digest key := key.map fun c => UInt8.ofNat c.val
  normcase path := path
  casefold text := text
  text _ := str "error"

/-- A regular file. -/
def Stat.regular : Stat where
  dev := 1
  ino := 2
  size := 3
  mtimeNs := 4
  ctimeNs := 5
  fileAttributes := 0
  isDirectory := false
  isLinkOrReparse := false

/-- A world in which nothing happens: one root, an empty walk, calls that succeed, a
clock that moves by a millisecond a call, and a run that is followed for three turns
of the main loop. -/
def World.calm : World where
  host := Host.posix
  config := {
    stateDir := str "/state"
    backend := .polling
    debounceSeconds := 3 / 4
    reconcileSeconds := 60
    fullRescanSeconds := 86400
    crossFilesystems := false
    quarantine := false
    eventQueueSize := 4096
    heartbeatSeconds := 30 }
  roots := [⟨str "/r", str "/r", 1, 1⟩]
  threads _ := []
  control _ := .goOn
  clock tick := tick / 1000
  formatUtc _ := str "2026-01-01T00:00:00Z"
  lstat _ path :=
    .ok (if path = str "/r" then { Stat.regular with ino := 1, isDirectory := true }
      else Stat.regular)
  walk _ paths := if paths = [str "/r"] then [] else paths.map fun path => .file path Stat.regular
  scanFile _ _ _ := .hashed 3 none []
  quarantineFinding _ _ := .error (.shield (.quarantineError (str "disk full")))
  appendFails _ := none
  persistFails _ := none
  observerFails _ _ := none
  observerAlive _ := true
  observerOutlivesJoin _ := false
  ingestThreadStarts _ := true
  ingestOutlivesJoin _ := false
  healthCheck _ := .ok none
  turns _ := 3

/-- The finding of the example runs. -/
def FileFinding.sample (path : Path) : FileFinding where
  path := path
  sha256 := List.replicate 64 48
  size := 3
  modifiedAt := str "2026-01-01T00:00:00Z"
  severity := .high
  ruleMatches := []

end ZsecShield.Watch
