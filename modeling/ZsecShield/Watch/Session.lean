import ZsecShield.Lib.Effect
import ZsecShield.Watch.Evidence

/-!
# The watch session: state and environment

The state is the fields of `ForegroundProtectionWatcher` and of the objects it
owns: the event queue, the evidence sink, the local variables of the
reconciliation under way and those of the scans under way, innermost first.

The environment decides what the watcher does not.  It answers every call by the
current `tick`, and each call moves the tick on, so no two answers are related.
At each `point` of the main thread it also lets the observer thread and the
ingest thread act, and it decides whether the main thread goes on, is
interrupted by `KeyboardInterrupt` or is looked at: a program that stops at a
point leaves the state of that moment, so a statement about every final state is
a statement about every reachable one.

The fields of `Ghost` are not in the source.  They record the history the
properties speak about, and no decision of the program reads them.
-/

namespace ZsecShield.Watch

open Text (Str str)
open Effect (Prog)

/-- The metadata the watcher reads. -/
structure Stat where
  dev : Int
  ino : Int
  size : Int
  mtimeNs : Int
  ctimeNs : Int
  fileAttributes : Int
  isDirectory : Bool
  isLinkOrReparse : Bool
deriving DecidableEq, Repr

/-- The packed fields of `_file_fingerprint`. -/
structure Fingerprint where
  dev : Int
  ino : Int
  size : Int
  mtimeNs : Int
  ctimeNs : Int
  fileAttributes : Int
deriving DecidableEq, Repr

/-- `_file_fingerprint`: the format `<QQQqqI` refuses a field out of its range. -/
def fileFingerprint (m : Stat) : Except PyError Fingerprint :=
  if (0 ≤ m.dev ∧ m.dev < 2 ^ 64) ∧ (0 ≤ m.ino ∧ m.ino < 2 ^ 64) ∧
      (0 ≤ m.size ∧ m.size < 2 ^ 64) ∧ (-2 ^ 63 ≤ m.mtimeNs ∧ m.mtimeNs < 2 ^ 63) ∧
      (-2 ^ 63 ≤ m.ctimeNs ∧ m.ctimeNs < 2 ^ 63) ∧
      (0 ≤ m.fileAttributes ∧ m.fileAttributes < 2 ^ 32) then
    .ok ⟨m.dev, m.ino, m.size, m.mtimeNs, m.ctimeNs, m.fileAttributes⟩
  else .error .structError

/-- The reconciliation cache, by snapshot key. -/
abbrev Snapshot := Bytes → Option Fingerprint

/-- `snapshot.pop(key, None)`. -/
def Snapshot.pop (snapshot : Snapshot) (key : Bytes) : Snapshot :=
  fun k => if k = key then none else snapshot k

/-- `snapshot[key] = fingerprint`. -/
def Snapshot.set (snapshot : Snapshot) (key : Bytes) (fingerprint : Fingerprint) : Snapshot :=
  fun k => if k = key then some fingerprint else snapshot k

@[simp] theorem Snapshot.pop_self (snapshot : Snapshot) (key : Bytes) :
    snapshot.pop key key = none := by simp [Snapshot.pop]

theorem Snapshot.pop_some {snapshot : Snapshot} {key k : Bytes} {f : Fingerprint} :
    snapshot.pop key k = some f ↔ k ≠ key ∧ snapshot k = some f := by
  by_cases h : k = key <;> simp [Snapshot.pop, h]

theorem Snapshot.set_some {snapshot : Snapshot} {key k : Bytes} {f g : Fingerprint} :
    snapshot.set key g k = some f ↔ (k = key ∧ g = f) ∨ (k ≠ key ∧ snapshot k = some f) := by
  by_cases h : k = key <;> simp [Snapshot.set, h]

structure WatchRoot where
  path : Path
  key : Str
  device : Int
  inode : Int
deriving DecidableEq, Repr

structure WatchConfig where
  stateDir : Path
  backend : WatchBackend
  debounceSeconds : ℚ
  reconcileSeconds : ℚ
  fullRescanSeconds : ℚ
  crossFilesystems : Bool
  quarantine : Bool
  eventQueueSize : Nat
  heartbeatSeconds : ℚ

/-- What the directory walk of the scanner cannot read. -/
inductive Unreadable where
  | root
  | directory
  | entry
deriving DecidableEq, Repr

def Unreadable.code : Unreadable → ScanCode
  | .root => .rootUnreadable
  | .directory => .directoryUnreadable
  | .entry => .entryUnreadable

/-- What the directory walk of the scanner meets. -/
inductive WalkItem where
  | file (path : Path) (stat : Stat)
  | unreadable (path : Path) (what : Unreadable) (message : Str)
  | symlink
  | special
  | otherFilesystem
  | excluded

/-- How `_scan_file` ends. -/
inductive FileScan where
  | hashed (bytesRead : Nat) (finding : Option FileFinding) (observations : List ScanObservation)
  | failed (code : ScanCode) (message : Str)
  | tooLarge
  /-- An `OSError` after the file was counted as hashed. -/
  | hashedThenFailed (bytesRead : Nat) (observations : List ScanObservation) (message : Str)
  /-- An exception `_scan_file` does not catch. -/
  | escaped (error : PyError)

/-- The fields of the entry `quarantine_finding` returns that the watcher reads. -/
structure QuarantineEntry where
  id : Str
  state : Str
  originalPath : Str
  sha256 : Str
deriving DecidableEq, Repr

/-- What the other threads do between two calls of the main thread. -/
inductive ThreadAction where
  | submit (now : ℚ) (path : Path) (eventType : EventType) (isDirectory : Bool)
  | ingest
  | ingestFails (reason : Str)

/-- What becomes of the main thread at a point. -/
inductive Control where
  | goOn
  | interrupt
  | stop
deriving DecidableEq

structure World where
  host : Host
  config : WatchConfig
  roots : List WatchRoot
  threads : Nat → List ThreadAction
  control : Nat → Control
  clock : Nat → ℚ
  formatUtc : Nat → Str
  lstat : Nat → Path → Except OsError Stat
  walk : Nat → List Path → List WalkItem
  scanFile : Nat → Path → Stat → FileScan
  quarantineFinding : Nat → FileFinding → Except PyError QuarantineEntry
  /-- The event log refuses the record. -/
  appendFails : Nat → Option PyError
  /-- The health file cannot be written, or a later part of the callback fails. -/
  persistFails : Nat → Option PyError
  /-- The type and the text of the exception with which an observer of this backend
  does not start. -/
  observerFails : Nat → ActiveBackend → Option (Str × Str)
  observerAlive : Nat → Bool
  /-- The observer submits events after `stop` and `join(timeout=10)`. -/
  observerOutlivesJoin : Nat → Bool
  ingestThreadStarts : Nat → Bool
  /-- The ingest thread outlives `join(timeout=5)`. -/
  ingestOutlivesJoin : Nat → Bool
  healthCheck : Nat → Except PyError (Option Str)
  /-- How many turns a loop of the main thread takes before it is looked at. -/
  turns : Nat → Nat

/-- The local variables of `Scanner.scan`. -/
structure ScanInProgress where
  startedAt : Str
  roots : List Path
  stats : ScanStats
  issues : List ScanIssue := []
  findings : List FileFinding := []
  observations : List ScanObservation := []

/-- The local variables of `_reconcile` that its callbacks share. -/
structure Reconciliation where
  trigger : Trigger := .initialMetadataInventory
  full : Bool := false
  metadataOnly : Bool := false
  current : Snapshot := fun _ => none
  unresolved : List Bytes := []
  observed : Nat := 0
  unchanged : Nat := 0
  hashedInProgress : Nat := 0
  bytesHashed : Nat := 0
  unresolvedInProgress : Nat := 0
  reconciliationStarted : ℚ := 0
  incompleteGeneration : Nat := 0
  nextProgressHeartbeat : ℚ := 0
  nextPriorityDrain : ℚ := 0

/-- How a content inspection ended.  After `hashedThenFailed` the scanner has an
issue and still counts the file as hashed, and `escaped` is an exception that
`_scan_file` does not catch. -/
inductive Inspection where
  | succeeded
  | failed
  | hashedThenFailed
  | escaped
deriving DecidableEq, Repr

/-- A moment of the history. -/
inductive Moment where
  | started
  | overflow
  | ingestFailed
  /-- A pass over due events or over one walked file begins. -/
  | passBegan
  /-- `due` removed a pending path. -/
  | drained (key : Bytes) (lastSubmitted : Nat)
  | scanPending (key : Bytes) (lastSubmitted : Nat)
  /-- A drain left a path alone.  `covered`: the walk opened the file after the
  last event in this pass, or is about to open it. -/
  | skipped (key : Bytes) (lastSubmitted : Nat) (covered : Bool)
  | opened (key : Bytes) (tick : Nat)
  | passEnded
  /-- A content inspection ended so, inside a reconciliation or not.  `tracked`: the
  walk had already put the file into its snapshot. -/
  | inspected (key : Bytes) (inspection : Inspection) (walking tracked : Bool)
  /-- The metadata-only inventory recorded a file, whose last inspection ended so. -/
  | inventoried (key : Bytes) (lastAttempt : Option Inspection)
  /-- A reconciliation passed a file over as unchanged. -/
  | unchanged (key : Bytes) (lastAttempt : Option Inspection)
  /-- The scanner recorded an issue.  `vanishable`: the watcher may still put it
  down to a path that vanished. -/
  | issueFound (vanishable : Bool)
  | issueRetained
  | gapFound
  | quarantineFailed (flagWasDown : Bool)
  | healthIssue (code : HealthCode) (announced flagWasDown : Bool)
  | reconcileBegan (metadataOnly : Bool)
  | reconcileEnded (snapshot : Snapshot) (lastAttempt : Bytes → Option Inspection)
  | recovered (visited : List Bytes) (lastAttempt : Bytes → Option Inspection)
  /-- The sink processed a record and is in this state. -/
  | recorded (state : OperationalState)
  /-- The scanner caught an exception of a callback. -/
  | swallowed (state : OperationalState)

/-- A moment, with the operational flag after it. -/
structure LogEntry where
  moment : Moment
  operationalIncomplete : Bool

structure Ghost where
  /-- The history, newest first. -/
  log : List LogEntry := [⟨.started, false⟩]
  /-- How the most recent content inspection of a file ended. -/
  lastAttempt : Bytes → Option Inspection := fun _ => none
  /-- A reconciliation is under way. -/
  walking : Bool := false
  /-- The walk is between its filter and its observer callback for a file. -/
  inFilter : Bool := false
  /-- The files opened in the current pass. -/
  passOpened : List (Bytes × Nat) := []
  /-- The files the reconciliation has visited. -/
  visited : List Bytes := []

structure Watcher where
  tick : Nat := 0
  events : DebouncedPathQueue
  activeBackend : ActiveBackend := .notStarted
  fallbackReason : Option Str := none
  stats : WatchStats := {}
  healthIssues : List HealthIssue := []
  healthIssueKeys : List (HealthCode × Str) := []
  scanIssueKeys : List (Path × ScanCode × Str) := []
  operationalIncomplete : Bool := false
  historicalOperationalIncomplete : Bool := false
  persistentOperationalIncomplete : Bool := false
  incompleteGeneration : Nat := 0
  reconciliationSnapshot : Snapshot := fun _ => none
  eventIngestFailure : Option Str := none
  recordSequence : Nat := 0
  sink : WatchEvidenceSink
  /-- The observer is attached and may submit events. -/
  observerAttached : Bool := false
  /-- `ingest_started`. -/
  ingestStarted : Bool := false
  /-- The ingest thread runs. -/
  ingestAlive : Bool := false
  reconciliation : Reconciliation := {}
  scans : List ScanInProgress := []
  ghost : Ghost := {}

/-- A program of the main thread. -/
abbrev WatchM := Prog World Watcher PyError

/-- Extend the history. -/
def Watcher.log (m : Moment) (s : Watcher) : Watcher :=
  { s with ghost := { s.ghost with log := ⟨m, s.operationalIncomplete⟩ :: s.ghost.log } }

/-- Extend the history from a program. -/
def note (m : Moment) : WatchM Unit := Prog.update (Watcher.log m)

/-- The queue after one of its operations.  A dropped event enters the history. -/
def Watcher.withEvents (s : Watcher) (events : DebouncedPathQueue) : Watcher :=
  let s' := { s with events := events }
  if s.events.eventsDropped < events.eventsDropped then s'.log .overflow else s'

/-- One turn of `ingest`, or nothing when the raw queue is empty. -/
def Watcher.ingestStep (host : Host) (s : Watcher) : Option Watcher :=
  (s.events.ingestOne host).map s.withEvents

/-- One action of the observer thread or of the ingest thread. -/
def Watcher.act (host : Host) (s : Watcher) : ThreadAction → Watcher
  | .submit now path eventType isDirectory =>
      if s.observerAttached then
        s.withEvents (s.events.submit host now s.tick path eventType isDirectory)
      else s
  | .ingest => if s.ingestAlive then (s.ingestStep host).getD s else s
  | .ingestFails reason =>
      if s.ingestAlive then
        { s with eventIngestFailure := some reason, ingestAlive := false }.log .ingestFailed
      else s

/-- What one action of another thread can do: nothing, change the queue, or stop the
ingest thread with a failure. -/
theorem Watcher.act_cases (host : Host) (s : Watcher) (a : ThreadAction) :
    s.act host a = s ∨
      (∃ events, s.events.Grows events ∧ s.act host a = s.withEvents events) ∨
      (s.ingestAlive = true ∧ ∃ reason, s.act host a =
        { s with eventIngestFailure := some reason, ingestAlive := false }.log .ingestFailed) := by
  cases a with
  | submit now path eventType isDirectory =>
      by_cases h : s.observerAttached = true
      · refine .inr (.inl ⟨_, DebouncedPathQueue.grows_submit host now s.tick path eventType
          isDirectory s.events, ?_⟩)
        exact if_pos h
      · exact .inl (if_neg h)
  | ingest =>
      by_cases h : s.ingestAlive = true
      · cases hstep : s.events.ingestOne host with
        | none => exact .inl (by simp [act, h, ingestStep, hstep])
        | some events =>
            refine .inr (.inl ⟨events, DebouncedPathQueue.grows_ingestOne hstep, ?_⟩)
            simp [act, h, ingestStep, hstep]
      · exact .inl (if_neg h)
  | ingestFails reason =>
      by_cases h : s.ingestAlive = true
      · exact .inr (.inr ⟨h, reason, if_pos h⟩)
      · exact .inl (if_neg h)

/-- One turn of `ingest` changes the queue alone. -/
theorem Watcher.ingestStep_cases {host : Host} {s s' : Watcher}
    (h : s.ingestStep host = some s') :
    ∃ events, s.events.Grows events ∧ s' = s.withEvents events := by
  simp only [ingestStep, Option.map_eq_some_iff] at h
  obtain ⟨events, hstep, rfl⟩ := h
  exact ⟨events, DebouncedPathQueue.grows_ingestOne hstep, rfl⟩

/-- A change of the queue enters the history when it drops an event. -/
theorem Watcher.withEvents_cases {s : Watcher} {events : DebouncedPathQueue}
    (h : s.events.Grows events) :
    (events.overflowed = s.events.overflowed ∧
        s.withEvents events = { s with events := events }) ∨
      (events.overflowed = true ∧
        s.withEvents events = { s with events := events }.log .overflow) := by
  obtain ⟨hd, ho⟩ | ⟨hd, ho⟩ := h
  · exact .inl ⟨ho, if_neg (by omega)⟩
  · exact .inr ⟨ho, if_pos (by omega)⟩

@[simp] theorem Watcher.act_tick (host : Host) (s : Watcher) (a : ThreadAction) :
    (s.act host a).tick = s.tick := by
  obtain h | ⟨events, hg, h⟩ | ⟨-, reason, h⟩ := s.act_cases host a
  · rw [h]
  · rw [h]
    obtain ⟨-, h⟩ | ⟨-, h⟩ := withEvents_cases hg <;> rw [h] <;> rfl
  · rw [h]
    rfl

/-- A point of the main thread: the other threads act, then the main thread goes
on, is interrupted or is looked at. -/
def point : WatchM Unit := fun w s =>
  let s' := { (w.threads s.tick).foldl (Watcher.act w.host) s with tick := s.tick + 1 }
  match w.control s.tick with
  | .goOn => (.ok (), s')
  | .interrupt => (.raised .keyboardInterrupt, s')
  | .stop => (.halted, s')

/-- An answer of the environment at the current tick. -/
def answer {α : Type} (f : World → Nat → α) : WatchM α := fun w s => (.ok (f w s.tick), s)

/-- A call: a point, then the answer. -/
def call {α : Type} (f : World → Nat → α) : WatchM α := do
  point
  answer f

/-- The clock. -/
def clock : WatchM ℚ := call World.clock

/-- `format_utc()`. -/
def formatUtc : WatchM Str := call World.formatUtc

/-- `path.lstat()`. -/
def lstat (path : Path) : WatchM (Except OsError Stat) := call fun w t => w.lstat t path

/-- `_snapshot_path_key`. -/
def snapshotPathKey (path : Path) : WatchM Bytes := Prog.ask fun w => w.host.snapshotPathKey path

/-- Change the counters. -/
def count (f : WatchStats → WatchStats) : WatchM Unit :=
  Prog.update fun s => { s with stats := f s.stats }

/-- The fail-open part of a callback: an exception raised by the environment. -/
def raiseIf (f : World → Nat → Option PyError) : WatchM Unit := do
  match ← answer f with
  | none => pure ()
  | some e => Prog.raise e

/-- The event log gets the record. -/
def appendRecord (sink : WatchEvidenceSink) : WatchM Unit :=
  if sink.eventLog then raiseIf World.appendFails else pure ()

/-- The health file follows the record. -/
def updateHealth (sink : WatchEvidenceSink) (event : WatchEvent) : WatchM Unit :=
  if sink.healthFile = false ∨ WatchEvidenceSink.ignores event = true then pure ()
  else do
    Prog.update fun s => { s with sink := s.sink.absorb event }
    raiseIf World.persistFails
    Prog.update fun s => { s with sink := s.sink.persist }

/-- `WatchEvidenceSink.record`, called with every record. -/
def record (event : WatchEvent) : WatchM Unit := do
  let sink ← Prog.gets Watcher.sink
  appendRecord sink
  updateHealth sink event
  Prog.update fun s => s.log (.recorded s.sink.operationalState)

/-- `_emit`. -/
def emit (event : WatchEvent) : WatchM Unit := do
  Prog.update fun s => { s with recordSequence := s.recordSequence + 1 }
  point
  record event

/-- `self._reconciliation_snapshot.pop(key, None)`. -/
def evict (key : Bytes) : WatchM Unit :=
  Prog.update fun s => { s with reconciliationSnapshot := s.reconciliationSnapshot.pop key }

/-- `_health_issue` raises the flags. -/
def Watcher.raiseFlags (code : HealthCode) (s : Watcher) : Watcher :=
  { s with
    operationalIncomplete := true
    historicalOperationalIncomplete := true
    incompleteGeneration := s.incompleteGeneration + 1
    persistentOperationalIncomplete :=
      if code.recoverable then s.persistentOperationalIncomplete else true }

/-- `_health_issue` keeps a new issue. -/
def Watcher.keepIssue (issue : HealthIssue) (s : Watcher) : Watcher :=
  { s with
    healthIssueKeys := (issue.code, issue.message) :: s.healthIssueKeys
    healthIssues := s.healthIssues ++ [issue]
    stats := { s.stats with issues := s.stats.issues + 1 } }

/-- Line ends become spaces, and at most 500 characters are kept. -/
def sanitize (message : Str) : Str :=
  (message.map fun c => if c = 13 ∨ c = 10 then 32 else c).take 500

/-- `_health_issue`. -/
def healthIssue (code : HealthCode) (message : Str) : WatchM Unit := do
  let issue : HealthIssue := ⟨code, sanitize message⟩
  let s ← Prog.state
  let known := decide ((code, issue.message) ∈ s.healthIssueKeys)
  Prog.update fun s => (s.raiseFlags code).log
    (.healthIssue code (!known) (!s.operationalIncomplete))
  if known then pure ()
  else
    Prog.update (Watcher.keepIssue issue)
    emit (.healthIssue issue)

end ZsecShield.Watch
