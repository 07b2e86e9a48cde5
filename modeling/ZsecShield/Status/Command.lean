import ZsecShield.Status.LastScan

/-!
# The check command and the status command

`cli.py`: what `_command_check` makes of a scan, and the payload `_command_status` prints.  The scan
and the quarantine of one finding are arbitrary programs here: whatever they return, the saved
counters agree with the saved outcome (`wp_commandCheck`).
-/

namespace ZsecShield.Status

open Text (Str str)
open Effect
open Feed (FeedStatus FeedHealth)

/-! ## The check command -/

/-- The codes of an issue in the report of a check. -/
inductive IssueCode where
  | scan (code : ScanCode)
  | quarantinePartial
  | quarantineFailed
  | statusSummaryFailed
deriving DecidableEq

def IssueCode.text : IssueCode → Str
  | .scan code => code.text
  | .quarantinePartial => str "quarantine_partial"
  | .quarantineFailed => str "quarantine_failed"
  | .statusSummaryFailed => str "status_summary_failed"

structure CheckIssue where
  path : Path
  code : IssueCode
  message : Str

/-- An issue of the scan. -/
def CheckIssue.ofScan (issue : ScanIssue) : CheckIssue :=
  ⟨issue.path, .scan issue.code, issue.message⟩

/-- What the scanner returns: it takes the time of its end from `format_utc`. -/
structure Scanned where
  result : ScanResult
  completedAt : DateTime
  completedAt_eq : result.completedAt = Util.formatUtc completedAt

/-- The fields of a quarantine record that the report repeats. -/
structure QuarantineRecord where
  id : Str
  state : Str
  originalPath : Path
  sha256 : Str

/-- An entry of `quarantine_results`. -/
inductive QuarantineResult where
  | recorded (record : QuarantineRecord)
  | copyOnly (id error : Str)
  | failed (path : Path) (error : Str)

/-- The report of a check, with the exit code of the command. -/
structure CheckReport where
  outcome : Outcome
  feed : FeedStatus
  findings : List FileFinding
  observations : List ScanObservation
  issues : List CheckIssue
  stats : ScanStats
  quarantine : List QuarantineResult
  incomplete : Bool

def exitOk : Nat := 0

def exitFindings : Nat := 1

def exitIncomplete : Nat := 2

/-- What the check command returns. -/
def CheckReport.exitCode (report : CheckReport) : Nat :=
  if report.incomplete then exitIncomplete
  else if report.findings ≠ [] ∨ report.observations ≠ [] then exitFindings
  else exitOk

/-- `incomplete`, before the summary is saved. -/
def isIncomplete (issues : List CheckIssue) (feed : FeedStatus) : Bool :=
  !issues.isEmpty || decide (feed.state = .invalid)

/-- The outcome, before the summary is saved. -/
def chooseOutcome (findings : List FileFinding) (observations : List ScanObservation)
    (issues : List CheckIssue) (feed : FeedStatus) : Outcome :=
  if isIncomplete issues feed then .incomplete
  else if findings ≠ [] then .configuredRuleMatchesDetected
  else if observations ≠ [] then .reviewObservations
  else .noConfiguredRuleMatches

/-- The body of the loop over the findings. -/
def quarantineOne (quarantine : FileFinding → Util.Io QuarantineRecord)
    (acc : List QuarantineResult × List CheckIssue) (finding : FileFinding) :
    Util.Io (List QuarantineResult × List CheckIssue) :=
  Prog.tryExcept
    (do
      let record ← quarantine finding
      pure (acc.1 ++ [.recorded record], acc.2))
    PyError.isShield
    fun e => match e with
      | .shield (.quarantinePartialError text id) =>
          pure (acc.1 ++ [.copyOnly id text],
            acc.2 ++ [⟨finding.path, .quarantinePartial, text⟩])
      | e =>
          pure (acc.1 ++ [.failed finding.path e.text],
            acc.2 ++ [⟨finding.path, .quarantineFailed, e.text⟩])

/-- The findings in quarantine, if that was asked for: the results and all issues so far. -/
def quarantineAll (quarantineRequested : Bool) (quarantine : FileFinding → Util.Io QuarantineRecord)
    (findings : List FileFinding) (issues : List CheckIssue) :
    Util.Io (List QuarantineResult × List CheckIssue) :=
  if quarantineRequested then Prog.foldEach (quarantineOne quarantine) ([], issues) findings
  else pure ([], issues)

/-- The report of a check before the summary is saved. -/
def reportOf (quarantineRequested : Bool) (feed : FeedStatus) (result : ScanResult)
    (results : List QuarantineResult) (issues : List CheckIssue) : CheckReport where
  outcome := chooseOutcome result.findings result.observations issues feed
  feed := feed
  findings := result.findings
  observations := result.observations
  issues := issues
  stats := if quarantineRequested then { result.stats with errors := issues.length }
    else result.stats
  quarantine := results
  incomplete := isIncomplete issues feed

/-- The part of `_command_check` before the summary is saved, with the scan of the built-in rules
and those of the feed. -/
def checked (rt : Runtime) (crypto : Crypto) (stateDir keyringPath : Path) (current : DateTime)
    (scan : List Rule → Util.Io Scanned) (quarantineRequested : Bool)
    (quarantine : FileFinding → Util.Io QuarantineRecord) : Util.Io (Scanned × CheckReport) := do
  let (feed, feedRules) ← Feed.inspectFeed rt crypto stateDir keyringPath current
  let scanned ← scan feedRules
  let (results, issues) ← quarantineAll quarantineRequested quarantine scanned.result.findings
    (scanned.result.issues.map CheckIssue.ofScan)
  pure (scanned, reportOf quarantineRequested feed scanned.result results issues)

/-- The summary a check saves. -/
def CheckReport.summary (report : CheckReport) (completedAt : Str) : Summary where
  completedAt := completedAt
  findings := report.findings.length
  issues := report.issues.length
  filesHashed := report.stats.filesHashed
  bytesHashed := report.stats.bytesHashed
  observations := report.observations.length
  outcome := report.outcome

/-- The report of a check whose summary could not be saved. -/
def CheckReport.unsaved (report : CheckReport) (stateDir : Path) (e : PyError) : CheckReport :=
  let issues := report.issues ++ [⟨stateDir, .statusSummaryFailed, e.text⟩]
  { report with
    outcome := .incomplete
    issues := issues
    stats := { report.stats with errors := issues.length }
    incomplete := true }

/-- `_command_check(args)`. -/
def commandCheck (rt : Runtime) (crypto : Crypto) (stateDir keyringPath : Path) (current : DateTime)
    (scan : List Rule → Util.Io Scanned) (quarantineRequested : Bool)
    (quarantine : FileFinding → Util.Io QuarantineRecord) : Util.Io CheckReport := do
  let (scanned, report) ← checked rt crypto stateDir keyringPath current scan quarantineRequested
    quarantine
  Prog.tryExcept
    (do
      saveLastScan rt stateDir (report.summary scanned.result.completedAt)
      pure report)
    PyError.isOs
    fun e => pure (report.unsaved stateDir e)

/-! ## What a check leaves behind -/

theorem isIncomplete_eq_false {issues : List CheckIssue} {feed : FeedStatus} :
    isIncomplete issues feed = false ↔ issues = [] ∧ feed.state ≠ .invalid := by
  simp [isIncomplete]

theorem chooseOutcome_eq_clean {findings : List FileFinding} {observations : List ScanObservation}
    {issues : List CheckIssue} {feed : FeedStatus} :
    chooseOutcome findings observations issues feed = .noConfiguredRuleMatches ↔
      findings = [] ∧ observations = [] ∧ issues = [] ∧ feed.state ≠ .invalid := by
  rw [← isIncomplete_eq_false]
  unfold chooseOutcome
  cases isIncomplete issues feed with
  | true => simp
  | false =>
      by_cases hfindings : findings = [] <;> by_cases hobservations : observations = [] <;>
        simp [hfindings, hobservations]

/-- The outcome of a report is the one its lists and its feed call for. -/
def CheckReport.Chosen (report : CheckReport) : Prop :=
  report.outcome = chooseOutcome report.findings report.observations report.issues report.feed

/-- The counters of the saved summary agree with its outcome. -/
theorem CheckReport.Chosen.consistent {report : CheckReport} (h : report.Chosen)
    (completedAt : Str) : (report.summary completedAt).Consistent := by
  have hcases : report.outcome =
      if isIncomplete report.issues report.feed then .incomplete
      else if report.findings ≠ [] then .configuredRuleMatchesDetected
      else if report.observations ≠ [] then .reviewObservations
      else .noConfiguredRuleMatches := h
  change Summary.Consistent ⟨completedAt, report.findings.length, report.issues.length,
    report.stats.filesHashed, report.stats.bytesHashed, report.observations.length, report.outcome⟩
  cases hincomplete : isIncomplete report.issues report.feed with
  | true =>
      rw [hincomplete, if_pos rfl] at hcases
      rw [hcases]
      exact ⟨nofun, nofun, nofun⟩
  | false =>
      have hissues : report.issues = [] := (isIncomplete_eq_false.1 hincomplete).1
      rw [hincomplete, if_neg Bool.false_ne_true] at hcases
      rw [hissues]
      by_cases hfindings : report.findings = []
      · rw [if_neg (not_not.2 hfindings)] at hcases
        by_cases hobservations : report.observations = []
        · rw [if_neg (not_not.2 hobservations)] at hcases
          rw [hcases, hfindings, hobservations]
          exact ⟨fun _ => ⟨rfl, rfl, rfl⟩, nofun, nofun⟩
        · rw [if_pos hobservations] at hcases
          rw [hcases, hfindings]
          exact ⟨nofun, nofun, fun _ => ⟨rfl, rfl, by simpa using hobservations⟩⟩
      · rw [if_pos hfindings] at hcases
        rw [hcases]
        exact ⟨nofun, fun _ => ⟨by simpa using hfindings, rfl⟩, nofun⟩

section Check

variable {rt : Runtime} {crypto : Crypto} {env : Util.Os} {stateDir keyringPath : Path}
  {current : DateTime} {scan : List Rule → Util.Io Scanned} {quarantineRequested : Bool}
  {quarantine : FileFinding → Util.Io QuarantineRecord}

theorem wp_checked (m : Disk.Machine) :
    wp env (checked rt crypto stateDir keyringPath current scan quarantineRequested quarantine)
      ⟨fun r _ => r.2.Chosen, fun _ _ => True, fun _ => True⟩ m := by
  have hany : ∀ {α : Type} (p : Util.Io α) (m : Disk.Machine),
      wp env p ⟨fun _ _ => True, fun _ _ => True, fun _ => True⟩ m := fun p m =>
    wp.trivial (fun _ _ => trivial) (fun _ _ => trivial) fun _ => trivial
  unfold checked
  refine wp.bind (hany _ m) ?_ (fun _ _ h => h) fun _ h => h
  rintro ⟨feed, feedRules⟩ m₁ -
  refine wp.bind (hany _ m₁) ?_ (fun _ _ h => h) fun _ h => h
  rintro scanned m₂ -
  refine wp.bind (hany _ m₂) ?_ (fun _ _ h => h) fun _ h => h
  rintro ⟨results, issues⟩ m₃ -
  exact rfl

/-- A check that returns has saved a summary with the outcome its lists call for, or it reports
that it could not. -/
theorem wp_commandCheck (h : Undisturbed env stateDir) (m : Disk.Machine) :
    wp env (commandCheck rt crypto stateDir keyringPath current scan quarantineRequested quarantine)
      ⟨fun report m' => (∃ issue ∈ report.issues, issue.code = .statusSummaryFailed) ∨
          report.Chosen ∧ ∃ d, Saved rt stateDir (report.summary (Util.formatUtc d)) m'.nodes,
        fun _ _ => True, fun _ => True⟩ m := by
  unfold commandCheck
  refine wp.bind (wp_checked m) ?_ (fun _ _ h => h) fun _ h => h
  rintro ⟨scanned, report⟩ m₁ hchosen
  rw [wp_tryExcept]
  refine wp.bind (wp_saveLastScan h) ?_ ?_ fun _ h => h
  · intro _ m₂ hsaved
    rw [scanned.completedAt_eq] at hsaved
    exact .inr ⟨hchosen, scanned.completedAt, hsaved⟩
  · intro e m₂ _
    refine ⟨fun _ => .inl ⟨_, List.mem_append_right _ (List.mem_singleton_self _), rfl⟩,
      fun _ => trivial⟩

/-- In a calm environment a check saves its summary, if nothing stands in its way. -/
theorem calm_commandCheck (hcalm : Disk.Calm env) (h : Undisturbed env stateDir)
    {P : CheckReport → Prop} {m : Disk.Machine}
    (hchecked : wp env
      (checked rt crypto stateDir keyringPath current scan quarantineRequested quarantine)
      ⟨fun r m' => P r.2 ∧ (∀ p, m'.nodes p = none) ∧
        ∀ n ∈ (r.2.summary r.1.result.completedAt).counters,
          (Text.digits n).length ≤ rt.intDigits, fun _ _ => False, fun _ => False⟩ m) :
    wp env (commandCheck rt crypto stateDir keyringPath current scan quarantineRequested quarantine)
      ⟨fun report _ => P report, fun _ _ => False, fun _ => False⟩ m := by
  unfold commandCheck
  refine wp.bind hchecked ?_ (fun _ _ h => h) fun _ h => h
  rintro ⟨scanned, report⟩ m₁ ⟨hP, hfree, hdigits⟩
  have hcompleted : Text.Encodable (report.summary scanned.result.completedAt).completedAt := by
    change Text.Encodable scanned.result.completedAt
    rw [scanned.completedAt_eq]
    exact Feed.encodable_formatUtc _
  rw [wp_tryExcept]
  refine wp.bind (calm_saveLastScan hcalm h hdigits hcompleted hfree) ?_ (fun _ _ => False.elim)
    fun _ => False.elim
  intro _ m₂ _
  exact hP

end Check

end ZsecShield.Status
