import ZsecShield.Watch.Session

/-!
# Scanning and settling

`Scanner.scan` as far as it calls the watcher back, and `_scan_paths`, which is
cut into the scan and `settle`, and `settle` into its paragraphs.

A reconciliation passes the scanner two callbacks.  An exception a callback
raises is caught by the scanner, which records an issue and walks on.
-/

namespace ZsecShield.Watch

open Text (Str str)
open Effect (Prog)

/-- A number as text. -/
def decimal (n : Nat) : Str := str (toString n)

/-! ## Scanning -/

/-- The issues `_scan_paths` may put down to a path that vanished. -/
def ScanCode.vanishable : ScanCode → Bool
  | .directoryUnreadable | .entryUnreadable | .fileOpenFailed | .fileReadFailed
  | .rootUnreadable => true
  | _ => false

/-- Change the local variables of the innermost scan. -/
def Watcher.onScan (f : ScanInProgress → ScanInProgress) (s : Watcher) : Watcher :=
  { s with scans := s.scans.modifyHead f }

/-- `Scanner._issue`. -/
def issue (path : Path) (code : ScanCode) (message : Str) : WatchM Unit := do
  Prog.update fun s => s.onScan fun a =>
    { a with issues := a.issues ++ [⟨path, code, sanitize message⟩] }
  note (.issueFound (ScanCode.vanishable code))

/-- Change the statistics of the innermost scan. -/
def countScan (f : ScanStats → ScanStats) : WatchM Unit :=
  Prog.update fun s => s.onScan fun a => { a with stats := f a.stats }

/-- A gap in the coverage of the innermost scan. -/
def countGap (f : ScanStats → ScanStats) : WatchM Unit := do
  countScan f
  note .gapFound

/-- Ghost: a file is opened. -/
def Watcher.openFile (key : Bytes) (s : Watcher) : Watcher :=
  { s with ghost := { s.ghost with passOpened := (key, s.tick) :: s.ghost.passOpened } }.log
    (.opened key s.tick)

/-- Ghost: a content inspection ended. -/
def Watcher.inspect (key : Bytes) (inspection : Inspection) (s : Watcher) : Watcher :=
  { s with ghost := { s.ghost with
      lastAttempt := fun k => if k = key then some inspection else s.ghost.lastAttempt k } }.log
    (.inspected key inspection s.ghost.walking (s.reconciliation.current key).isSome)

/-- Ghost: a content inspection ended by an exception. -/
def noteEscape (key : Bytes) (error : PyError) : WatchM Unit :=
  if error.isException then Prog.update (Watcher.inspect key .escaped) else pure ()

/-- A file is counted as hashed. -/
def ScanInProgress.hashed (bytesRead : Nat) (observations : List ScanObservation)
    (a : ScanInProgress) : ScanInProgress :=
  { a with
    stats := { a.stats with
      filesHashed := a.stats.filesHashed + 1
      bytesHashed := a.stats.bytesHashed + bytesRead }
    observations := a.observations ++ observations }

/-- What `Scanner._scan_file` leaves behind, however it ends. -/
def concludeScan (key : Bytes) (path : Path) : FileScan → WatchM (Bool × Option FileFinding)
  | .hashed bytesRead finding observations => do
      Prog.update (Watcher.inspect key .succeeded)
      Prog.update (Watcher.onScan (ScanInProgress.hashed bytesRead observations))
      pure (true, finding)
  | .failed code message => do
      Prog.update (Watcher.inspect key .failed)
      issue path code message
      pure (false, none)
  | .tooLarge => do
      Prog.update (Watcher.inspect key .failed)
      countGap fun st => { st with skippedTooLarge := st.skippedTooLarge + 1 }
      pure (false, none)
  | .hashedThenFailed bytesRead observations message => do
      Prog.update (Watcher.inspect key .hashedThenFailed)
      Prog.update (Watcher.onScan (ScanInProgress.hashed bytesRead observations))
      issue path .fileReadFailed message
      pure (true, none)
  | .escaped error => do
      noteEscape key error
      Prog.raise error

/-- `Scanner._scan_file`.  The result says whether the file was counted as hashed
and which finding it gave. -/
def scanFile (path : Path) (stat : Stat) : WatchM (Bool × Option FileFinding) := do
  let key ← snapshotPathKey path
  point
  Prog.update (Watcher.openFile key)
  let scan ← call fun w t => w.scanFile t path stat
  concludeScan key path scan

/-- A callback of the scanner that decides whether a file is scanned. -/
abbrev FileFilter := Path → Stat → WatchM Bool

/-- A callback of the scanner that is told how a file was scanned. -/
abbrev FileObserver := Path → Stat → Bool → WatchM Unit

/-- `except Exception as exc: self._issue(issues, path, code, exc)`. -/
def swallow (path : Path) (code : ScanCode) (error : PyError) : WatchM Unit := do
  Prog.update fun s => s.log (.swallowed s.sink.operationalState)
  let message ← Prog.ask fun w => w.host.text error
  issue path code message

/-- The file filter, with the exceptions the scanner catches. -/
def applyFilter (filter : Option FileFilter) (path : Path) (stat : Stat) : WatchM Bool :=
  match filter with
  | none => pure true
  | some f => Prog.tryExcept (f path stat) PyError.isException fun e => do
      swallow path .fileFilterFailed e
      pure false

/-- The file observer, with the exceptions the scanner catches. -/
def applyObserver (observer : FileObserver) (path : Path) (stat : Stat) (hashed : Bool) :
    WatchM Unit :=
  Prog.tryExcept (observer path stat hashed) PyError.isException fun e =>
    swallow path .fileObserverFailed e

/-- Keep a finding. -/
def keepFinding : Option FileFinding → WatchM Unit
  | none => pure ()
  | some finding =>
      Prog.update fun s => s.onScan fun a => { a with findings := a.findings ++ [finding] }

/-- Scan a file the filter let through. -/
def inspectFile (observer : FileObserver) (path : Path) (stat : Stat) : WatchM Unit := do
  let (hashed, finding) ← scanFile path stat
  applyObserver observer path stat hashed
  keepFinding finding

/-- The body of the loop of `Scanner.scan` for one regular file. -/
def visitFile (filter : Option FileFilter) (observer : FileObserver) (path : Path) (stat : Stat) :
    WatchM Unit := do
  let wanted ← applyFilter filter path stat
  if wanted then inspectFile observer path stat else pure ()

/-- The body of the loops of `Scanner.scan` and `_iter_regular_files`. -/
def walkItem (filter : Option FileFilter) (observer : FileObserver) : WalkItem → WatchM Unit
  | .file path stat => visitFile filter observer path stat
  | .unreadable path what message => issue path what.code message
  | .symlink => countScan fun st => { st with skippedSymlinks := st.skippedSymlinks + 1 }
  | .special => countGap fun st => { st with skippedSpecial := st.skippedSpecial + 1 }
  | .otherFilesystem =>
      countScan fun st => { st with skippedFilesystems := st.skippedFilesystems + 1 }
  | .excluded => countScan fun st => { st with skippedExcluded := st.skippedExcluded + 1 }

/-- The result of a scan from its local variables.  A tuple key is a list of texts,
in lexicographic order. -/
def ScanInProgress.result (host : Host) (completedAt : Str) (a : ScanInProgress) :
    ScanResult where
  startedAt := a.startedAt
  completedAt := completedAt
  roots := a.roots
  findings := a.findings.insertionSort fun x y => host.normcase x.path ≤ host.normcase y.path
  observations := a.observations.insertionSort fun x y =>
    [host.normcase x.path, x.provider, x.category] ≤ [host.normcase y.path, y.provider, y.category]
  issues := a.issues.insertionSort fun x y =>
    [host.normcase x.path, x.code.text] ≤ [host.normcase y.path, y.code.text]
  stats := { a.stats with
    findings := a.findings.length
    observations := a.observations.length
    errors := a.issues.length }

/-- The local variables a scan starts with. -/
def ScanInProgress.start (startedAt : Str) (paths : List Path) : ScanInProgress where
  startedAt := startedAt
  roots := paths
  stats := { rootsRequested := paths.length }

/-- A scan begins. -/
def Watcher.openScan (startedAt : Str) (paths : List Path) (s : Watcher) : Watcher :=
  { s with scans := ScanInProgress.start startedAt paths :: s.scans }

/-- A scan is left. -/
def Watcher.closeScan (s : Watcher) : Watcher := { s with scans := s.scans.tail }

/-- `Scanner.scan` before its walk. -/
def beginScan (paths : List Path) : WatchM Unit := do
  let startedAt ← formatUtc
  Prog.update (Watcher.openScan startedAt paths)

/-- The walk of `Scanner.scan`, and its result. -/
def walkRoots (paths : List Path) (filter : Option FileFilter) (observer : FileObserver) :
    WatchM ScanResult := do
  let items ← call fun w t => w.walk t paths
  Prog.forEach (walkItem filter observer) items
  let completedAt ← formatUtc
  let host ← Prog.ask World.host
  Prog.gets fun s => (s.scans.headD (ScanInProgress.start [] paths)).result host completedAt

/-- A file that was not hashed leaves the snapshot. -/
def evictUnhashed (path : Path) (wasHashed : Bool) : WatchM Unit :=
  if wasHashed then pure () else do evict (← snapshotPathKey path)

/-- `record_inspection`. -/
def recordInspection (fileObserver : Option FileObserver) : FileObserver :=
  fun path stat wasHashed => do
    evictUnhashed path wasHashed
    match fileObserver with
    | none => pure ()
    | some f => f path stat wasHashed

/-! ## Settling a scan -/

/-- `_path_is_confirmed_absent`. -/
def pathIsConfirmedAbsent (path : Path) : WatchM Bool := do
  match ← lstat path with
  | .ok _ => pure false
  | .error e =>
      -- `FileNotFoundError` is the `OSError` of `ENOENT`.
      pure (decide (e.winerror = some 2 ∨ e.winerror = some 3 ∨ e.errno = 2 ∨ e.errno = 20))

/-- `_issue_reports_missing_path`. -/
def issueReportsMissingPath (host : Host) (issue : ScanIssue) : Bool :=
  [str "no such file or directory", str "[errno 2]", str "[errno 20]", str "winerror 2",
    str "winerror 3"].any fun marker =>
      decide (marker <:+: host.casefold issue.message)

/-- The test for a path that vanished during the scan. -/
def isVanished (allowVanishedRoot : Bool) (issue : ScanIssue) : WatchM Bool := do
  let host ← Prog.ask World.host
  if (issue.code ∈ [.directoryUnreadable, .entryUnreadable, .fileOpenFailed, .fileReadFailed] ∨
        (allowVanishedRoot = true ∧ issue.code = .rootUnreadable)) ∧
      issueReportsMissingPath host issue = true then
    pathIsConfirmedAbsent issue.path
  else pure false

/-- What the loop over the issues of a scan collects. -/
structure SortedIssues where
  retained : List ScanIssue := []
  vanishedCount : Nat := 0
  vanishedSamples : List Path := []

def maxSupersededPathSamples : Nat := 8

/-- One turn of the loop over the issues of a scan. -/
def sortIssue (allowVanishedRoot : Bool) (acc : SortedIssues) (issue : ScanIssue) :
    WatchM SortedIssues := do
  if ← isVanished allowVanishedRoot issue then
    evict (← snapshotPathKey issue.path)
    pure { acc with
      vanishedCount := acc.vanishedCount + 1
      vanishedSamples :=
        if acc.vanishedSamples.length < maxSupersededPathSamples then
          acc.vanishedSamples ++ [issue.path]
        else acc.vanishedSamples }
  else pure { acc with retained := acc.retained ++ [issue] }

/-- The record about vanished paths. -/
def reportVanished (triggers : List Trigger) (acc : SortedIssues) : WatchM Unit :=
  if acc.vanishedCount = 1 then
    emit (.eventSuperseded (acc.vanishedSamples.headD []) triggers
      (str "path_vanished_during_scan"))
  else if 1 < acc.vanishedCount then
    emit (.eventsSuperseded acc.vanishedCount acc.vanishedSamples
      (acc.vanishedCount - acc.vanishedSamples.length) triggers
      (str "paths_vanished_during_scan"))
  else pure ()

/-- The result without the issues that were put down to vanished paths. -/
def ScanResult.retain (retained : List ScanIssue) (result : ScanResult) : ScanResult :=
  if retained.length ≠ result.issues.length then
    { result with
      issues := retained
      stats := { result.stats with errors := retained.length } }
  else result

/-- The vanished paths are reported and their issues dropped. -/
def sortOutVanished (triggers : List Trigger) (allowVanishedRoot : Bool) (result : ScanResult) :
    WatchM ScanResult := do
  let acc ← Prog.foldEach (sortIssue allowVanishedRoot) {} result.issues
  count fun st => { st with eventsSuperseded := st.eventsSuperseded + acc.vanishedCount }
  reportVanished triggers acc
  pure (ScanResult.retain acc.retained result)

/-- The batch counters. -/
def countBatch (result : ScanResult) : WatchM Unit :=
  count fun st => { st with
    scanBatches := st.scanBatches + 1
    filesHashed := st.filesHashed + result.stats.filesHashed
    bytesHashed := st.bytesHashed + result.stats.bytesHashed
    findings := st.findings + result.findings.length
    observations := st.observations + result.observations.length }

/-- `_scan_issue_keys` with the keys of new issues, and how many are new. -/
def addIssueKeys (keys : List (Path × ScanCode × Str)) (issues : List ScanIssue) :
    List (Path × ScanCode × Str) × Nat :=
  issues.foldl (fun acc i =>
    let key := (i.path, i.code, i.message)
    if key ∈ acc.1 then acc else (key :: acc.1, acc.2 + 1)) (keys, 0)

/-- The issues of a scan that are new are counted. -/
def Watcher.countIssues (issues : List ScanIssue) (s : Watcher) : Watcher :=
  let (keys, new) := addIssueKeys s.scanIssueKeys issues
  { s with scanIssueKeys := keys, stats := { s.stats with issues := s.stats.issues + new } }

/-- The retained issues of a scan raise the flags. -/
def Watcher.retainIssues (s : Watcher) : Watcher :=
  { s with
    operationalIncomplete := true
    historicalOperationalIncomplete := true
    incompleteGeneration := s.incompleteGeneration + 1 }.log .issueRetained

/-- The retained issues raise the flags and evict their files. -/
def recordScanIssues (result : ScanResult) : WatchM Unit := do
  Prog.update (Watcher.countIssues result.issues)
  if result.issues ≠ [] then
    Prog.update Watcher.retainIssues
    Prog.forEach (fun i => do evict (← snapshotPathKey i.path)) result.issues
  else pure ()

/-- `any(coverage_gaps.values())`. -/
def coverageGap (stats : ScanStats) : Bool := stats.skippedSpecial ≠ 0 || stats.skippedTooLarge ≠ 0

/-- The message of `scan_scope_incomplete`. -/
def coverageGapMessage (stats : ScanStats) : Str :=
  let special := if stats.skippedSpecial ≠ 0 then
    [str "special_files=" ++ decimal stats.skippedSpecial] else []
  let tooLarge := if stats.skippedTooLarge ≠ 0 then
    [str "files_above_size_limit=" ++ decimal stats.skippedTooLarge] else []
  str "one or more observed paths were not inspected: " ++
    (str ", ").intercalate (special ++ tooLarge)

/-- A coverage gap is a health issue. -/
def reportCoverageGap (result : ScanResult) : WatchM Unit :=
  if coverageGap result.stats = true then
    healthIssue .scanScopeIncomplete (coverageGapMessage result.stats)
  else pure ()

/-- A failed quarantine raises the three flags. -/
def Watcher.quarantineFailure (f : WatchStats → WatchStats) (s : Watcher) : Watcher :=
  { s with
    stats := { f s.stats with issues := s.stats.issues + 1 }
    operationalIncomplete := true
    historicalOperationalIncomplete := true
    persistentOperationalIncomplete := true }.log
      (.quarantineFailed (!s.operationalIncomplete))

/-- One turn of the quarantine loop. -/
def quarantineOne (records : List QuarantineRecord) (finding : FileFinding) :
    WatchM (List QuarantineRecord) := do
  let host ← Prog.ask World.host
  match ← call fun w t => w.quarantineFinding t finding with
  | .ok entry =>
      count fun st => { st with quarantineCompleted := st.quarantineCompleted + 1 }
      pure (records ++ [.completed entry.id entry.state entry.originalPath entry.sha256])
  | .error (.shield (.quarantinePartialError text entryId)) =>
      Prog.update (Watcher.quarantineFailure fun st =>
        { st with quarantinePartial := st.quarantinePartial + 1 })
      pure (records ++ [.copyOnly entryId
        (host.text (.shield (.quarantinePartialError text entryId)))])
  | .error (.shield e) =>
      Prog.update (Watcher.quarantineFailure fun st =>
        { st with quarantineFailed := st.quarantineFailed + 1 })
      pure (records ++ [.failed finding.path (host.text (.shield e))])
  | .error e => Prog.raise e

/-- The quarantine loop. -/
def quarantineFindings (findings : List FileFinding) : WatchM (List QuarantineRecord) := do
  let config ← Prog.ask World.config
  if config.quarantine then Prog.foldEach quarantineOne [] findings else pure []

/-- `_scan_outcome`. -/
def scanOutcome (result : ScanResult) : Outcome :=
  if result.issues ≠ [] then .incomplete
  else if result.findings ≠ [] then .configuredRuleMatchesDetected
  else if result.observations ≠ [] then .reviewObservations
  else .noConfiguredRuleMatches

/-- The outcome of a scan record. -/
def recordOutcome (noHashOutcome : Option Outcome) (result : ScanResult) : Outcome :=
  if coverageGap result.stats = true ∨ result.issues ≠ [] then .incomplete
  else
    match noHashOutcome with
    | some outcome => if result.stats.filesHashed = 0 then outcome else scanOutcome result
    | none => scanOutcome result

/-- The arguments of `_scan_paths` that are not callbacks. -/
structure ScanCall where
  paths : List Path
  triggers : List Trigger
  event : ScanEvent := .scanCompleted
  noHashOutcome : Option Outcome := none
  allowVanishedRoot : Bool := false

/-- The issues of a scan are sorted out, recorded and reported. -/
def settleIssues (c : ScanCall) (result : ScanResult) : WatchM ScanResult := do
  let result ← sortOutVanished c.triggers c.allowVanishedRoot result
  countBatch result
  recordScanIssues result
  reportCoverageGap result
  pure result

/-- `_scan_paths` after the scan has returned. -/
def settle (c : ScanCall) (result : ScanResult) : WatchM ScanResult := do
  let result ← settleIssues c result
  let quarantine ← quarantineFindings result.findings
  emit (.scan c.event c.triggers (recordOutcome c.noHashOutcome result) result quarantine)
  pure result

/-- `_scan_paths`.  The local variables of the scan stay in the state until it is
left. -/
def scanPaths (c : ScanCall) (filter : Option FileFilter) (observer : Option FileObserver) :
    WatchM ScanResult := do
  beginScan c.paths
  Prog.tryFinally (do
    let result ← walkRoots c.paths filter (recordInspection observer)
    settle c result)
    (Prog.update Watcher.closeScan)

/-! ## Draining the queue -/

/-- `_scope_for`. -/
def scopeFor (w : World) (path : Path) : Option WatchRoot :=
  w.roots.find? fun root => w.host.isWithin (w.host.pathKey path) root.key

/-- The event crossed a filesystem boundary. -/
def crossesFilesystem (config : WatchConfig) (scope : WatchRoot) (metadata : Stat) : Bool :=
  !config.crossFilesystems && scope.device ≠ 0 && metadata.dev ≠ 0 && metadata.dev ≠ scope.device

/-- `_scan_pending`, for a path with this snapshot key. -/
def scanKey (key : Bytes) (pending : PendingPath) : WatchM Unit := do
  let triggers := (EventType.sorted pending.eventTypes).map Trigger.event
  match ← Prog.ask fun w => scopeFor w pending.path with
  | none => count fun st => { st with eventsOutsideScope := st.eventsOutsideScope + 1 }
  | some scope =>
      match ← lstat pending.path with
      | .error e =>
          if e.errno = 2 then
            count fun st => { st with eventsSuperseded := st.eventsSuperseded + 1 }
            evict key
            emit (.eventSuperseded pending.path triggers (str "path_vanished_before_scan"))
          else
            evict key
            let host ← Prog.ask World.host
            healthIssue .watchPathUnreadable
              (str "cannot inspect " ++ pending.path ++ str ": " ++ host.text (.os e))
      | .ok metadata =>
          let config ← Prog.ask World.config
          if crossesFilesystem config scope metadata then
            count fun st => { st with eventsCrossFilesystem := st.eventsCrossFilesystem + 1 }
            healthIssue .watchCrossFilesystemSkipped
              (str "event crossed the configured filesystem boundary: " ++ pending.path)
          else
            let _ ← scanPaths
              { paths := [pending.path], triggers := triggers, allowVanishedRoot := true }
              none none
            pure ()

/-- `_scan_pending`. -/
def scanPending (pending : PendingPath) : WatchM Unit := do
  let key ← snapshotPathKey pending.path
  note (.scanPending key pending.lastSubmitted)
  scanKey key pending

/-- The loop of `ingest`, for as many turns as the run is followed. -/
def ingestTurns : Nat → WatchM Unit
  | 0 => Prog.halt
  | n + 1 => do
      point
      let host ← Prog.ask World.host
      match ← Prog.gets (Watcher.ingestStep host) with
      | none => pure ()
      | some s =>
          Prog.update fun _ => s
          ingestTurns n

/-- `ingest`, called by the main thread. -/
def ingest : WatchM Unit := do ingestTurns (← answer World.turns)

/-- The locked part of `due`. -/
def Watcher.takeDue (now : ℚ) (maximum : Option Nat) (s : Watcher) : Watcher :=
  { s with events := (s.events.takeDue now maximum).2 }

/-- Ghost: paths were removed from the queue. -/
def Watcher.drained (host : Host) (paths : List PendingPath) (s : Watcher) : Watcher :=
  paths.foldl (fun s p => s.log (.drained (host.snapshotPathKey p.path) p.lastSubmitted)) s

/-- `due`. -/
def due (maximum : Option Nat) : WatchM (List PendingPath) := do
  if maximum = some 0 then Prog.raise (.valueError (str "maximum must be positive"))
  else
    ingest
    let now ← clock
    let host ← Prog.ask World.host
    let paths ← Prog.gets fun s => (s.events.takeDue now maximum).1
    Prog.update fun s => (s.takeDue now maximum).drained host paths
    pure paths

end ZsecShield.Watch
