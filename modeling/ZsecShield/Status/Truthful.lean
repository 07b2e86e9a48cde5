import ZsecShield.Desktop.Status
import ZsecShield.Feed.Rollback
import ZsecShield.Status.Command
import ZsecShield.Status.Payload

/-!
# The status chain is truthful

From the check that was made to what the desktop shows of it: the saved summary is loaded as it
was, the payload made of it is accepted, and the state without a match is shown for a check that
had nothing to report and for no other (`truthful`).
-/

namespace ZsecShield.Status

open Text (Str str)
open Effect
open Checks
open Feed (field isText)

/-! ## The payload is accepted -/

/-- The other components are in order: the platform has a name, and the update status is one the
updater writes for the catalog of the release. -/
structure Healthy (parts : StatusParts) : Prop where
  platform : parts.platform ≠ [] ∧ parts.platform.length ≤ 80
  lastCheckedAt : ∀ t ∈ parts.update.lastCheckedAt, ∃ d, t = Util.formatUtc d
  lastSuccessAt : ∀ t ∈ parts.update.lastSuccessAt, ∃ d, t = Util.formatUtc d
  nextCheckAt : ∃ d, parts.update.nextCheckAt = Util.formatUtc d
  feedExpiresAt : ∀ t ∈ parts.update.feedExpiresAt, ∃ d, t = Util.formatUtc d
  feedSequence : ∀ n ∈ parts.update.feedSequence, 1 ≤ n
  source : parts.update.source = str Desktop.releaseSource
  error : ∀ e ∈ parts.update.error, e ≠ [] ∧ e.length ≤ 500

theorem optionalUtcTimestamp_formatUtc (d : DateTime) (name : Str) :
    Desktop.optionalUtcTimestamp (.str (Util.formatUtc d)) name =
      .ok (some (Util.formatUtc d)) := by
  have hstring : Desktop.string (.str (Util.formatUtc d)) name 80 = .ok (Util.formatUtc d) := by
    rw [Desktop.string_eq_ok]
    exact ⟨rfl, List.cons_ne_nil _ _, Nat.le_of_ble_eq_true rfl⟩
  have hlast : (Util.formatUtc d).getLast? = some (Text.ofChar 'Z') :=
    List.getLast?_append_cons _ _ _
  have hdrop : (Util.formatUtc d).dropLast = d.isoSecond := List.dropLast_concat
  simp only [Desktop.optionalUtcTimestamp, Desktop.optionalString, hstring, Except.map, bind_ok,
    require_pos hlast, hdrop, DateTime.fromIsoFormat_isoSecond, fromOption]
  rfl

theorem optionalUtcTimestamp_ofText {text : Option Str}
    (h : ∀ t ∈ text, ∃ d, t = Util.formatUtc d) (name : Str) :
    Desktop.optionalUtcTimestamp (ofText text) name = .ok text := by
  cases text with
  | none => rfl
  | some t =>
      obtain ⟨d, rfl⟩ := h t rfl
      exact optionalUtcTimestamp_formatUtc d name

section Payload

variable {parts : StatusParts} {s : Summary}

theorem checkUpdateStatus_members (h : Healthy parts) :
    Desktop.checkUpdateStatus (.obj parts.update.members) = .ok () := by
  obtain ⟨d, hnext⟩ := h.nextCheckAt
  have hstate : ∀ text, Desktop.known (.str (str parts.update.state.name))
      ["never_checked", "current", "updated", "error"] text = .ok () := by
    intro text
    rw [Desktop.known_eq_ok]
    refine ⟨parts.update.state.name, ?_, rfl⟩
    cases parts.update.state <;> simp [UpdateState.name]
  have herror : ∀ name, Desktop.optionalString (ofText parts.update.error) name 500 =
      .ok parts.update.error := by
    intro name
    cases herror : parts.update.error with
    | none => rfl
    | some e =>
        have hstring : Desktop.string (.str e) name 500 = .ok e :=
          Desktop.string_eq_ok.2 ⟨rfl, h.error e herror⟩
        simp only [ofText, Option.elim, Desktop.optionalString, hstring, Except.map]
  have hsource : ∀ name, Desktop.string (.str parts.update.source) name 2048 =
      .ok parts.update.source := by
    intro name
    rw [Desktop.string_eq_ok, h.source]
    exact ⟨rfl, by decide, by decide⟩
  have hobject : Desktop.object (.obj parts.update.members) (str "update_status") =
      .ok parts.update.members := Desktop.object_eq_ok.2 rfl
  have hchecked := optionalUtcTimestamp_ofText h.lastCheckedAt
  have hsuccess := optionalUtcTimestamp_ofText h.lastSuccessAt
  have hexpires := optionalUtcTimestamp_ofText h.feedExpiresAt
  have hnext' := optionalUtcTimestamp_formatUtc d
  have hsequence : Desktop.unlessNull (fun sequence => do
      let n ← Desktop.integer sequence (str "update_status.feed_sequence") 0
      require (1 ≤ n) (.contractError (str "update_status.feed_sequence is invalid")))
      (ofInt parts.update.feedSequence) = .ok () := by
    cases hn : parts.update.feedSequence with
    | none => rfl
    | some n =>
        have hle := h.feedSequence n hn
        have hinteger : Desktop.integer (.int n) (str "update_status.feed_sequence") 0 = .ok n :=
          Desktop.integer_eq_ok.2 ⟨rfl, by omega⟩
        simp only [ofInt, Option.elim, Desktop.unlessNull, hinteger, bind_ok, require_pos hle,
          Except.map]
  have hfield : field parts.update.members "state" = .str (str parts.update.state.name) ∧
      field parts.update.members "last_checked_at" = ofText parts.update.lastCheckedAt ∧
      field parts.update.members "last_success_at" = ofText parts.update.lastSuccessAt ∧
      field parts.update.members "feed_expires_at" = ofText parts.update.feedExpiresAt ∧
      field parts.update.members "error" = ofText parts.update.error ∧
      field parts.update.members "next_check_at" = .str parts.update.nextCheckAt ∧
      field parts.update.members "source" = .str parts.update.source ∧
      field parts.update.members "feed_sequence" = ofInt parts.update.feedSequence := by
    simp [field, AutomaticUpdateStatus.members, Json.lookup, Text.str_injective]
  obtain ⟨h1, h2, h3, h4, h5, h6, h7, h8⟩ := hfield
  simp only [Desktop.checkUpdateStatus, hobject, bind_ok, h1, hstate, Desktop.forEach, h2, hchecked,
    h3, hsuccess, h4, hexpires, h5, herror, h6, hnext, hnext', h7, hsource, require_pos h.source,
    h8, Except.map]
  exact hsequence

variable (parts s) in
/-- The members of the payload of a loaded summary that the desktop reads. -/
theorem field_statusMembers :
    let members := statusMembers parts (some s.loaded, none)
    field members "findings" = .int s.findings ∧ field members "observations" = .int s.observations ∧
      field members "last_scan_errors" = .int s.issues ∧
      field members "last_scan" = .str s.completedAt ∧
      field members "last_scan_outcome" = .str (str s.outcome.name) ∧
      field members "last_scan_diagnostic" =
        .obj [(str "available", .bool true), (str "error", .null)] := by
  simp [statusMembers, ofLastScan, ofText, Desktop.field_cons]

variable (parts) in
theorem checkLastScanStatus_loaded (h : s.Consistent)
    (hcompleted : s.completedAt ≠ [] ∧ s.completedAt.length ≤ 20) :
    Desktop.checkLastScanStatus (statusMembers parts (some s.loaded, none)) = .ok () := by
  obtain ⟨hfindings, hobservations, herrors, hlast, houtcome, hdiagnostic⟩ :=
    field_statusMembers parts s
  have hinteger : ∀ (n : Nat) (name : Str), Desktop.integer (.int n) name 0 = .ok (n : Int) :=
    fun n name => Desktop.integer_eq_ok.2 ⟨rfl, Int.natCast_nonneg n⟩
  have hstring : ∀ name, Desktop.string (.str s.completedAt) name 80 = .ok s.completedAt :=
    fun name => Desktop.string_eq_ok.2 ⟨rfl, hcompleted.1, by omega⟩
  have hknown : ∀ text, Desktop.known (.str (str s.outcome.name)) ["no_configured_rule_matches",
      "configured_rule_matches_detected", "review_observations", "incomplete"] text = .ok () := by
    intro text
    rw [Desktop.known_eq_ok]
    refine ⟨s.outcome.name, ?_, rfl⟩
    cases s.outcome <;> simp [Outcome.name]
  have htext : ∀ o : Outcome, isText (.str (str s.outcome.name)) (str o.name) = true →
      s.outcome = o := fun o heq =>
    Outcome.name_inj.1 (Text.str_injective.1 (Json.str.inj (Feed.isText_iff.1 heq)))
  have hclean : ¬ (isText (.str (str s.outcome.name)) (str "no_configured_rule_matches") = true ∧
      ((s.findings : Int) ≠ 0 ∨ (s.observations : Int) ≠ 0 ∨ (s.issues : Int) ≠ 0)) := by
    rintro ⟨heq, hcounter⟩
    obtain ⟨hf, hi, ho⟩ := h.clean (htext .noConfiguredRuleMatches heq)
    omega
  have hmatched : ¬ (isText (.str (str s.outcome.name))
      (str "configured_rule_matches_detected") = true ∧ (s.findings : Int) = 0) := by
    rintro ⟨heq, hcounter⟩
    obtain ⟨hf, -⟩ := h.matched (htext .configuredRuleMatchesDetected heq)
    omega
  have hreview : ¬ (isText (.str (str s.outcome.name)) (str "review_observations") = true ∧
      ((s.observations : Int) = 0 ∨ (s.findings : Int) ≠ 0 ∨ (s.issues : Int) ≠ 0)) := by
    rintro ⟨heq, hcounter⟩
    obtain ⟨hf, hi, ho⟩ := h.review (htext .reviewObservations heq)
    omega
  have hobject : ∀ members name, Desktop.object (.obj members) name = .ok members :=
    fun _ _ => Desktop.object_eq_ok.2 rfl
  have havailable : field [(str "available", .bool true), (str "error", .null)] "available" =
      .bool true := rfl
  have herror : field [(str "available", .bool true), (str "error", .null)] "error" = .null := rfl
  simp only [Desktop.checkLastScanStatus, hfindings, hobservations, herrors, hlast, houtcome,
    hdiagnostic, hinteger, hobject, bind_ok, havailable, herror, Desktop.boolean,
    Desktop.optionalString, Desktop.unlessNull, hstring, hknown, Except.map, require_pos hclean,
    require_pos hmatched, require_pos hreview]
  rfl

theorem validateStatus_loaded (h : Healthy parts) (hs : s.Consistent)
    (hcompleted : s.completedAt ≠ [] ∧ s.completedAt.length ≤ 20) :
    Desktop.validateStatus (.obj (statusMembers parts (some s.loaded, none))) =
      .ok (statusMembers parts (some s.loaded, none)) := by
  have hlast := checkLastScanStatus_loaded parts hs hcompleted
  have hupdate := checkUpdateStatus_members h
  have hworker : Desktop.checkContentWorker (statusMembers parts (some s.loaded, none)) =
      .ok () := by
    have hfield : field (statusMembers parts (some s.loaded, none)) "content_worker" = .obj [
        (str "mode", .str (str "bounded_out_of_process_rules_and_review_providers")),
        (str "path_disclosure", .bool false), (str "broker_digest_verification", .bool true),
        (str "reduced_privilege", .bool false),
        (str "hostile_format_parser_gate_met", .bool false)] := by
      simp [statusMembers, Desktop.field_cons]
    simp [Desktop.checkContentWorker, hfield, Desktop.object, Json.objOf, fromOption, bind_ok,
      Desktop.field_cons, Desktop.mustBeFalse, Desktop.mustBeTrue, Desktop.boolean, require, isText]
  have hquarantine : Desktop.checkQuarantineStatus (statusMembers parts (some s.loaded, none)) =
      .ok () := by
    have hcount : field (statusMembers parts (some s.loaded, none)) "quarantine_count" =
        .int parts.entryStates.length := by
      simp [statusMembers, Desktop.field_cons]
    have hfield : field (statusMembers parts (some s.loaded, none)) "quarantine" =
        .obj [(str "entries", .int parts.entryStates.length),
          (str "states", .obj ((countStates parts.entryStates).map fun m => (m.1, .int m.2))),
          (str "metadata_errors", .arr parts.metadataErrors)] := by
      simp [statusMembers, Desktop.field_cons]
    simp [Desktop.checkQuarantineStatus, hcount, hfield, Desktop.object, Desktop.integer,
      Desktop.list, Json.objOf, Json.intOf, Json.arrOf, fromOption, bind_ok, Desktop.field_cons,
      require]
  have hfeed : ∀ text, Desktop.known (field (feedMembers parts.feed) "state")
      ["absent", "valid", "invalid"] text = .ok () := by
    intro text
    rw [Desktop.known_eq_ok]
    refine ⟨feedHealthName parts.feed.state, ?_, rfl⟩
    cases parts.feed.state <;> simp [feedHealthName]
  have hupdate' : Desktop.unlessNull Desktop.checkUpdateStatus (.obj parts.update.members) =
      .ok () := by
    simp only [Desktop.unlessNull, hupdate, Except.map]
  have hfields : let members := statusMembers parts (some s.loaded, none)
      field members "schema" = .str (str "zsec.shield.status.v2") ∧
      field members "contract_version" = .int 2 ∧ field members "version" = .str (str version) ∧
      field members "generated_at" = .str (Util.formatUtc parts.generatedAt) ∧
      field members "platform" = .str parts.platform ∧
      field members "scanner_mode" = .str (str "on-demand") ∧
      field members "real_time_protection" = .bool false ∧
      field members "feed" = .obj (feedMembers parts.feed) ∧
      field members "update_status" = .obj parts.update.members := by
    simp [statusMembers, Desktop.field_cons]
  obtain ⟨h1, h2, h3, h4, h5, h6, h7, h8, h9⟩ := hfields
  simp only [Desktop.validateStatus, bind_eq_ok, Desktop.schema_eq_ok, Desktop.string_eq_ok,
    require_eq_ok, Desktop.mustBeFalse_eq_ok, Desktop.object_eq_ok, Feed.isText_iff]
  exact ⟨_, ⟨rfl, h1⟩, (), by rw [h2]; rfl, str version, ⟨h3, by decide, by decide⟩,
    Util.formatUtc parts.generatedAt, ⟨h4, List.cons_ne_nil _ _, Nat.le_of_ble_eq_true rfl⟩,
    parts.platform, ⟨h5, h.platform⟩, (), h6, (), hworker, (), h7, (), hlast,
    feedMembers parts.feed, h8, (), hfeed _, (), h9 ▸ hupdate', (), hquarantine, rfl⟩

/-! ## What is shown -/

variable (parts s) in
/-- The presentation of an accepted payload follows the outcome of the summary. -/
theorem statusPresentation_loaded (py : Desktop.Interpreter) :
    ∃ p, Desktop.statusPresentation py (statusMembers parts (some s.loaded, none)) = .ok p ∧
      (p.state = .noMatches ↔ s.outcome = .noConfiguredRuleMatches) := by
  obtain ⟨hfindings, hobservations, herrors, hlast, houtcome, hdiagnostic⟩ :=
    field_statusMembers parts s
  have hitem : ∀ {key v}, field (statusMembers parts (some s.loaded, none)) key = v → v ≠ .null →
      Desktop.item (.obj (statusMembers parts (some s.loaded, none))) key = .ok v :=
    fun h => Desktop.item_of_field h
  have herror : Desktop.item (.obj [(str "available", .bool true), (str "error", .null)]) "error" =
      .ok .null := by
    simp [Desktop.item, Json.lookup, Text.str_injective, fromOption]
  have havailable : Desktop.item (.obj [(str "available", .bool true), (str "error", .null)])
      "available" = .ok (.bool true) := by
    simp [Desktop.item, Json.lookup, fromOption]
  have hscan : Desktop.withoutScan (statusMembers parts (some s.loaded, none))
      (.obj [(str "available", .bool true), (str "error", .null)]) = .ok false := by
    simp only [Desktop.withoutScan, havailable, bind_ok, Desktop.truthy, ↓reduceIte,
      hitem hlast (by rintro ⟨⟩), Except.map, Desktop.isNull]
  have houtcome' : Desktop.statusPresentation py (statusMembers parts (some s.loaded, none)) =
      Desktop.outcomePresentation py (statusMembers parts (some s.loaded, none))
        (.str (str s.outcome.name)) := by
    simp only [Desktop.statusPresentation, hitem hdiagnostic (by rintro ⟨⟩),
      hitem houtcome (by rintro ⟨⟩), herror, bind_ok, Desktop.isNull, ↓reduceIte, hscan,
      Bool.false_eq_true]
  have htext : ∀ (o : Outcome) (name : String), o.name = name →
      isText (.str (str s.outcome.name)) (str name) = decide (s.outcome = o) := by
    rintro o _ rfl
    simp only [isText, Text.str_injective, Outcome.name_inj]
  rw [houtcome', Desktop.outcomePresentation, htext .incomplete "incomplete" rfl,
    htext .configuredRuleMatchesDetected "configured_rule_matches_detected" rfl,
    htext .reviewObservations "review_observations" rfl,
    htext .noConfiguredRuleMatches "no_configured_rule_matches" rfl,
    hitem herrors (by rintro ⟨⟩), hitem hfindings (by rintro ⟨⟩),
    hitem hobservations (by rintro ⟨⟩)]
  cases s.outcome with
  | incomplete => exact ⟨_, rfl, by simp⟩
  | configuredRuleMatchesDetected => exact ⟨_, rfl, by simp⟩
  | reviewObservations => exact ⟨_, rfl, by simp⟩
  | noConfiguredRuleMatches => exact ⟨_, rfl, by simp⟩

end Payload

/-! ## The chain -/

/-- A loaded summary holds the counters and the outcome of a report. -/
structure Reflects (lastScan : List (Str × Json)) (report : CheckReport) : Prop where
  findings : field lastScan "findings" = .int report.findings.length
  issues : field lastScan "issues" = .int report.issues.length
  filesHashed : field lastScan "files_hashed" = .int report.stats.filesHashed
  bytesHashed : field lastScan "bytes_hashed" = .int report.stats.bytesHashed
  observations : field lastScan "observations" = .int report.observations.length
  outcome : field lastScan "outcome" = .str (str report.outcome.name)

theorem reflects_loaded (report : CheckReport) (completedAt : Str) :
    Reflects (report.summary completedAt).loaded report :=
  ⟨Summary.findings_loaded _, Summary.issues_loaded _, Summary.filesHashed_loaded _,
    Summary.bytesHashed_loaded _, Summary.observations_loaded _, Summary.outcome_loaded _⟩

/-- A check that returned and reports no failure to save its summary: a load of the summary from a
disk where that file is as the check left it returns the counters and the outcome of its report,
the status payload made of them is accepted, and the desktop shows the state without a match
exactly if the check had no finding, no observation and no issue and its feed was not invalid. -/
theorem truthful {rt : Runtime} (hlimit : rt.intDigits ≤ 4300) {crypto : Crypto} {env : Util.Os}
    {stateDir keyringPath : Path} (henv : Undisturbed env stateDir) {current : DateTime}
    {scan : List Rule → Util.Io Scanned} {quarantineRequested : Bool}
    {quarantine : FileFinding → Util.Io QuarantineRecord} {m m' : Disk.Machine}
    {report : CheckReport}
    (hrun : commandCheck rt crypto stateDir keyringPath current scan quarantineRequested quarantine
      env m = (.ok report, m'))
    (hsaved : ∀ issue ∈ report.issues, issue.code ≠ .statusSummaryFailed) :
    ∃ lastScan, Reflects lastScan report ∧
      (∀ (env' : Util.Os) (m₁ : Disk.Machine), Disk.Calm env' →
        m₁.nodes (lastScanPath stateDir) = m'.nodes (lastScanPath stateDir) →
        ∃ m₂, loadLastScan rt stateDir env' m₁ = (.ok (some lastScan, none), m₂)) ∧
      ∀ parts, Healthy parts →
        let payload := statusMembers parts (some lastScan, none)
        Desktop.validateStatus (.obj payload) = .ok payload ∧
        ∀ py, ∃ p, Desktop.statusPresentation py payload = .ok p ∧
          (p.state = .noMatches ↔ report.findings = [] ∧ report.observations = [] ∧
            report.issues = [] ∧ report.feed.state ≠ .invalid) := by
  have hcheck := (wp_commandCheck henv m).of_ok hrun
  rcases hcheck with ⟨issue, hissue, hcode⟩ | ⟨hchosen, d, hdisk⟩
  · exact absurd hcode (hsaved issue hissue)
  have hconsistent := hchosen.consistent (Util.formatUtc d)
  have hcompleted : Util.formatUtc d ≠ [] ∧ (Util.formatUtc d).length ≤ 20 :=
    ⟨List.cons_ne_nil _ _, Nat.le_of_ble_eq_true rfl⟩
  refine ⟨(report.summary (Util.formatUtc d)).loaded, reflects_loaded _ _, ?_, ?_⟩
  · intro env' m₁ hcalm hsame
    have hdisk' : Saved rt stateDir (report.summary (Util.formatUtc d)) m₁.nodes := by
      obtain ⟨data, hdata, hcontent⟩ := hdisk
      refine ⟨data, hdata, ?_⟩
      rw [← hcontent, Disk.content, Disk.content, hsame]
    obtain ⟨_, m₂, hload, rfl, -⟩ := (calm_loadLastScan hcalm hlimit hconsistent
      ⟨Feed.encodable_formatUtc d, hcompleted⟩ hdisk').returns
    exact ⟨m₂, hload⟩
  · intro parts hparts
    refine ⟨validateStatus_loaded hparts hconsistent hcompleted, fun py => ?_⟩
    obtain ⟨p, hp, hstate⟩ :=
      statusPresentation_loaded parts (report.summary (Util.formatUtc d)) py
    refine ⟨p, hp, hstate.trans ?_⟩
    rw [← chooseOutcome_eq_clean, ← hchosen]
    rfl

namespace Sample

def completedAt : DateTime := ⟨2026, 1, 10, 0, 0, 0, 0, Feed.Sample.current.date, Feed.Sample.current.time⟩

def finding : FileFinding := ⟨str "/home/a", str "00", 3, Util.formatUtc completedAt, .high, []⟩

/-- A scan with one finding. -/
def scanned : Scanned where
  result := {
    startedAt := Util.formatUtc completedAt
    completedAt := Util.formatUtc completedAt
    roots := [str "/home"]
    findings := [finding]
    stats := { filesHashed := 1, bytesHashed := 3 } }
  completedAt := completedAt
  completedAt_eq := rfl

def partialError : PyError := .shield (.quarantinePartialError (str "kept") (str "entry"))

/-- The quarantine that copies the file and cannot remove it. -/
def quarantine (_ : FileFinding) : Util.Io QuarantineRecord := Prog.raise partialError

/-- The issue of that quarantine. -/
def kept : CheckIssue := ⟨finding.path, .quarantinePartial, str "kept"⟩

section

variable {rt : Runtime} {crypto : Crypto} {env : Util.Os} (hcalm : Disk.Calm env)
  {stateDir keyringPath : Path} {current : DateTime} {m : Disk.Machine}
  (hfree : ∀ p, m.nodes p = none)

include hcalm hfree

/-- On an empty disk there is no feed. -/
theorem calm_inspectFeed : wp env (Feed.inspectFeed rt crypto stateDir keyringPath current)
    ⟨fun _ m' => m'.nodes = m.nodes, fun _ _ => False, fun _ => False⟩ m := by
  have hstored : wp env (Feed.anyStored stateDir)
      ⟨fun r m' => r = false ∧ m'.nodes = m.nodes, fun _ _ => False, fun _ => False⟩ m := by
    unfold Feed.anyStored
    rw [wp_bind]
    refine hcalm.wp_existsAt ?_
    rw [hfree]
    refine hcalm.wp_existsAt ?_
    exact ⟨by rw [hfree]; rfl, rfl⟩
  unfold Feed.inspectFeed
  refine wp.bind hstored ?_ (fun _ _ => False.elim) fun _ => False.elim
  rintro _ m' ⟨rfl, hm'⟩
  exact hm'

theorem calm_checked :
    wp env (checked rt crypto stateDir keyringPath current (fun _ => pure scanned) true quarantine)
      ⟨fun r m' => r.2.issues = [kept] ∧ (∀ p, m'.nodes p = none) ∧
        ∀ n ∈ (r.2.summary r.1.result.completedAt).counters,
          (Text.digits n).length ≤ rt.intDigits, fun _ _ => False, fun _ => False⟩ m := by
  unfold checked
  refine wp.bind (calm_inspectFeed hcalm hfree) ?_ (fun _ _ => False.elim) fun _ => False.elim
  rintro ⟨feed, feedRules⟩ m₁ hm₁
  have hquarantine : wp env (quarantineAll true quarantine scanned.result.findings
      (scanned.result.issues.map CheckIssue.ofScan))
      ⟨fun r m => r.2 = [kept] ∧ m = m₁, fun _ _ => False, fun _ => False⟩ m₁ := ⟨rfl, rfl⟩
  rw [wp_bind, wp_pure, Post.withOk_ok]
  refine wp.bind hquarantine ?_ (fun _ _ => False.elim) fun _ => False.elim
  rintro ⟨results, _⟩ m₂ ⟨rfl, rfl⟩
  refine ⟨rfl, fun p => by rw [hm₁, hfree], fun n hn => ?_⟩
  have hsmall : ∀ n ∈ [1, 1, 1, 3, 0], (Text.digits n).length ≤ 640 := by decide
  exact (hsmall n hn).trans rt.intDigits_ge

variable (rt crypto keyringPath current m) in
/-- The check returns, and reports the issue of its quarantine. -/
theorem checks (hothers : Undisturbed env stateDir) :
    ∃ report m', commandCheck rt crypto stateDir keyringPath current (fun _ => pure scanned) true
      quarantine env m = (.ok report, m') ∧ report.issues = [kept] :=
  wp.returns (calm_commandCheck (P := fun report => report.issues = [kept]) hcalm hothers
    (calm_checked hcalm hfree))

end

end Sample

/-- A finding whose file could not be removed: the summary is loaded, and the desktop does not show
the state without a match. -/
theorem truthful_quarantine_partial : ∃ lastScan report, Reflects lastScan report ∧
    report.issues = [Sample.kept] ∧ ∀ parts, Healthy parts →
      let payload := statusMembers parts (some lastScan, none)
      Desktop.validateStatus (.obj payload) = .ok payload ∧
      ∀ py, ∃ p, Desktop.statusPresentation py payload = .ok p ∧ p.state ≠ .noMatches := by
  have hothers : Undisturbed (Feed.Sample.env .done) Feed.Sample.stateDir :=
    ⟨fun _ _ => rfl, fun _ _ _ => rfl⟩
  obtain ⟨report, m', hrun, hissues⟩ := Sample.checks Feed.Sample.runtime
    Feed.Sample.crypto Feed.Sample.calm Feed.Sample.keyringPath Feed.Sample.current
    ⟨fun _ => none, 0⟩ (fun _ => rfl) hothers
  have hsaved : ∀ issue ∈ report.issues, issue.code ≠ .statusSummaryFailed := by
    rw [hissues]
    simp [Sample.kept]
  obtain ⟨lastScan, hreflects, -, haccepted⟩ := truthful (le_refl 4300) hothers hrun hsaved
  refine ⟨lastScan, report, hreflects, hissues, fun parts hparts => ?_⟩
  obtain ⟨hvalid, hshown⟩ := haccepted parts hparts
  refine ⟨hvalid, fun py => ?_⟩
  obtain ⟨p, hp, hstate⟩ := hshown py
  refine ⟨p, hp, fun hclean => ?_⟩
  have hnone := (hstate.1 hclean).2.2.1
  rw [hissues] at hnone
  cases hnone

end ZsecShield.Status
