import ZsecShield.Models
import ZsecShield.Feed.Inspect

/-!
# The last-scan summary

`status_store.py`: the summary a check leaves behind, and its strict reader.  What was saved is
read back as it was, if the reader finds its counters consistent with its outcome
(`calm_loadLastScan`).
-/

namespace ZsecShield.Status

open Text (Str str)
open Effect
open Checks
open Feed (field isText)

/-- The outcome of a check. -/
inductive Outcome where
  | noConfiguredRuleMatches
  | configuredRuleMatchesDetected
  | reviewObservations
  | incomplete
deriving DecidableEq

def Outcome.name : Outcome → String
  | .noConfiguredRuleMatches => "no_configured_rule_matches"
  | .configuredRuleMatchesDetected => "configured_rule_matches_detected"
  | .reviewObservations => "review_observations"
  | .incomplete => "incomplete"

theorem Outcome.name_inj {o o' : Outcome} : o.name = o'.name ↔ o = o' := by
  cases o <;> cases o' <;> simp [Outcome.name]

/-- The outcomes a summary may have. -/
def outcomeNames : List String :=
  ["no_configured_rule_matches", "configured_rule_matches_detected", "review_observations",
    "incomplete"]

def lastScanSchema : String := "zsec.shield.last-scan.v3"

def v2LastScanSchema : String := "zsec.shield.last-scan.v2"

def legacyLastScanSchema : String := "zsec.shield.last-scan.v1"

/-- `last_scan_path(state_dir)`. -/
def lastScanPath (stateDir : Path) : Path :=
  Disk.join (Disk.join stateDir (str "status")) (str "last-scan.json")

/-- The arguments of `save_last_scan`. -/
structure Summary where
  completedAt : Str
  findings : Nat
  issues : Nat
  filesHashed : Nat
  bytesHashed : Nat
  observations : Nat
  outcome : Outcome

def Summary.members (s : Summary) : List (Str × Json) :=
  [(str "schema", .str (str lastScanSchema)), (str "completed_at", .str s.completedAt),
    (str "findings", .int s.findings), (str "issues", .int s.issues),
    (str "files_hashed", .int s.filesHashed), (str "bytes_hashed", .int s.bytesHashed),
    (str "observations", .int s.observations), (str "outcome", .str (str s.outcome.name))]

/-- `save_last_scan(state_dir, …)`. -/
def saveLastScan (rt : Runtime) (stateDir : Path) (s : Summary) : Util.Io Unit :=
  Util.atomicWriteJson rt (lastScanPath stateDir) (.obj s.members) 0o600

/-- `isinstance(counter, int) and not isinstance(counter, bool) and counter >= 0`. -/
def isCounter : Json → Bool
  | .int n => decide (0 ≤ n)
  | _ => false

/-- `value == n` for a number. -/
def isNumber (value : Json) (n : Int) : Bool :=
  match value with
  | .int m => decide (m = n)
  | _ => false

/-- The fields of a summary in its three versions. -/
def expectedFields (value : List (Str × Json)) : Option (List String) :=
  let schema := field value "schema"
  if isText schema (str legacyLastScanSchema) then
    some ["schema", "completed_at", "findings", "issues", "outcome"]
  else if isText schema (str v2LastScanSchema) then
    some ["schema", "completed_at", "findings", "issues", "files_hashed", "bytes_hashed", "outcome"]
  else if isText schema (str lastScanSchema) then
    some ["schema", "completed_at", "findings", "issues", "files_hashed", "bytes_hashed",
      "observations", "outcome"]
  else none

/-- The counters of a summary in its three versions. -/
def countersOf (value : List (Str × Json)) : List Json :=
  let schema := field value "schema"
  [field value "findings", field value "issues"] ++
    (if isText schema (str v2LastScanSchema) || isText schema (str lastScanSchema) then
      [field value "files_hashed", field value "bytes_hashed"] else []) ++
    (if isText schema (str lastScanSchema) then [field value "observations"] else [])

/-- The part of `load_last_scan` after the file was read: the summary, or why it is refused. -/
def checkLastScan (value : Json) : Except Str (List (Str × Json)) := do
  let value ← Checks.fromOption value.objOf (str "last-scan summary is not an object")
  let schema := field value "schema"
  let current := isText schema (str lastScanSchema)
  let expected ← Checks.fromOption (expectedFields value) (str "last-scan summary schema is invalid")
  Checks.require (Json.keysAre value (expected.map str) = true)
    (str "last-scan summary fields are invalid")
  let findings := field value "findings"
  let issues := field value "issues"
  let observations := field value "observations"
  Checks.require ((countersOf value).all isCounter = true)
    (str "last-scan summary counters are invalid")
  let completedAt ← Checks.fromOption (field value "completed_at").strOf
    (str "last-scan summary text fields are invalid")
  Checks.require (completedAt ≠ []) (str "last-scan summary text fields are invalid")
  let outcome ← Checks.fromOption (field value "outcome").strOf
    (str "last-scan summary outcome is invalid")
  Checks.require (outcome ∈ outcomeNames.map str) (str "last-scan summary outcome is invalid")
  Checks.require (¬ (outcome = str "no_configured_rule_matches" ∧
      (isNumber findings 0 = false ∨ isNumber issues 0 = false ∨
        current = true ∧ isNumber observations 0 = false)))
    (str "last-scan summary clean outcome is inconsistent")
  Checks.require (¬ (outcome = str "configured_rule_matches_detected" ∧
      (isNumber findings 0 = true ∨ isNumber issues 0 = false)))
    (str "last-scan summary finding outcome is inconsistent")
  Checks.require (¬ (outcome = str "review_observations" ∧
      (current = false ∨ isNumber findings 0 = false ∨ isNumber issues 0 = false ∨
        isNumber observations 0 = true)))
    (str "last-scan summary observation outcome is inconsistent")
  pure (if isText schema (str legacyLastScanSchema) then
      value ++ [(str "files_hashed", .null), (str "bytes_hashed", .null), (str "observations", .int 0)]
    else if isText schema (str v2LastScanSchema) then value ++ [(str "observations", .int 0)]
    else value)

/-- `load_last_scan(state_dir)`: the summary, or why there is none. -/
def loadLastScan (rt : Runtime) (stateDir : Path) :
    Util.Io (Option (List (Str × Json)) × Option Str) := do
  let path := lastScanPath stateDir
  let there ← Util.sys (Disk.Action.existsAt path)
  if there then do
    let read : Except Str Json ← Prog.tryExcept
      (do
        let size ← Util.sys (Disk.Action.size path)
        if 32 * 1024 < size then pure (.error (str "last-scan summary is unexpectedly large"))
        else do
          let data ← Util.sys (Disk.Action.read path)
          let value ← Prog.liftExcept (Util.strictJsonLoads rt data)
          pure (.ok value))
      (fun e => e.isOs || e.isFeed)
      fun e => pure (.error (str "cannot read last-scan summary: " ++ e.text))
    match read >>= checkLastScan with
    | .ok value => pure (some value, none)
    | .error text => pure (none, some text)
  else pure (none, none)

/-! ## What was saved is loaded -/

/-- The counters of a summary agree with its outcome. -/
structure Summary.Consistent (s : Summary) : Prop where
  clean : s.outcome = .noConfiguredRuleMatches →
    s.findings = 0 ∧ s.issues = 0 ∧ s.observations = 0
  matched : s.outcome = .configuredRuleMatchesDetected → s.findings ≠ 0 ∧ s.issues = 0
  review : s.outcome = .reviewObservations → s.findings = 0 ∧ s.issues = 0 ∧ s.observations ≠ 0

namespace Summary

variable {s : Summary} {rt : Runtime} {data : Bytes}

theorem nodup_members (s : Summary) : (s.members.map Prod.fst).Nodup := by
  change ((["schema", "completed_at", "findings", "issues", "files_hashed", "bytes_hashed",
    "observations", "outcome"] : List String).map str).Nodup
  decide

/-- The counters that are written. -/
def counters (s : Summary) : List Nat :=
  [s.findings, s.issues, s.filesHashed, s.bytesHashed, s.observations]

/-- The counters of a summary that was written have no more digits than the interpreter writes. -/
theorem length_digits (h : Util.encodeJson rt .pretty (.obj s.members) = .ok data) {n : Nat}
    (hn : n ∈ s.counters) : (Text.digits n).length ≤ rt.intDigits := by
  have hfault := Util.fault_of_encodeJson h
  rw [Json.sortKeys] at hfault
  have hmember : ∃ key, (key, Json.int n) ∈ s.members := by
    simp only [counters, List.mem_cons, List.not_mem_nil, or_false] at hn
    rcases hn with rfl | rfl | rfl | rfl | rfl
    · exact ⟨str "findings", by simp [members]⟩
    · exact ⟨str "issues", by simp [members]⟩
    · exact ⟨str "files_hashed", by simp [members]⟩
    · exact ⟨str "bytes_hashed", by simp [members]⟩
    · exact ⟨str "observations", by simp [members]⟩
  obtain ⟨key, hkey⟩ := hmember
  have hsorted : (key, Json.int n) ∈ Json.sortMembers (Json.sortValues s.members) := by
    rw [(Json.perm_sortMembers _).mem_iff, Json.sortValues_eq_map]
    exact List.mem_map_of_mem (f := fun m => (m.1, m.2.sortKeys)) hkey
  exact Json.length_digits_of_fault hfault hsorted

theorem writable_of (hdigits : ∀ n ∈ s.counters, (Text.digits n).length ≤ rt.intDigits)
    (hcompleted : Text.Encodable s.completedAt) : Util.Writable rt (.obj s.members) := by
  have hint : ∀ n ∈ s.counters, Json.Plain rt.intDigits (.int n) :=
    fun n hn => .int _ (hdigits n hn)
  simp only [counters, List.forall_mem_cons, List.not_mem_nil, false_imp_iff, implies_true,
    and_true] at hint
  obtain ⟨hfindings, hissues, hfiles, hbytes, hobservations⟩ := hint
  refine ⟨.obj _ s.nodup_members ?_, Nat.le_of_ble_eq_true rfl, .obj _ ?_ ?_⟩
  · simp only [members, List.forall_mem_cons, List.not_mem_nil, false_imp_iff, implies_true,
      and_true]
    exact ⟨.str _, .str _, hfindings, hissues, hfiles, hbytes, hobservations, .str _⟩
  · simp only [members, List.forall_mem_cons, Text.encodable_str, true_and]
    simp
  · simp only [members, List.forall_mem_cons, List.not_mem_nil, false_imp_iff, implies_true,
      and_true]
    exact ⟨.str _ (Text.encodable_str _), .str _ hcompleted, .int _, .int _, .int _, .int _, .int _,
      .str _ (Text.encodable_str _)⟩

/-- The written summary is below the limit of the reader. -/
theorem length_lt (h : Util.encodeJson rt .pretty (.obj s.members) = .ok data)
    (hlimit : rt.intDigits ≤ 4300) (hcompleted : s.completedAt.length ≤ 20) :
    data.length + 1 ≤ 32 * 1024 := by
  have hlen := Text.length_encodeUtf8 (Util.encodeJson_eq_ok h)
  rw [Json.text, Json.utf8Size_sortKeys] at hlen
  have hint : ∀ n ∈ s.counters, Text.utf8Size (Text.intText n) ≤ 4300 := by
    intro n hn
    change Text.utf8Size (Text.digits n) ≤ 4300
    rw [(Json.ascii_digits n).utf8Size]
    exact (length_digits h hn).trans hlimit
  simp only [counters, List.forall_mem_cons, List.not_mem_nil, false_imp_iff, implies_true,
    and_true] at hint
  have houtcome : (str s.outcome.name).length ≤ 32 := by
    cases s.outcome <;> decide
  have hsep : Text.utf8Size Json.Style.pretty.keySeparator = 2 := rfl
  have hbreak : ∀ level, Json.breakSize .pretty level = 2 * level + 1 := fun _ => rfl
  have hweight := Json.utf8Size_layout_le .pretty (.obj s.members) 0
  have hkeys : (str "schema").length = 6 ∧ (str "completed_at").length = 12 ∧
      (str "findings").length = 8 ∧ (str "issues").length = 6 ∧ (str "files_hashed").length = 12 ∧
      (str "bytes_hashed").length = 12 ∧ (str "observations").length = 12 ∧
      (str "outcome").length = 7 ∧ (str lastScanSchema).length = 24 := by decide
  have hle := hlen.trans_le hweight
  simp only [members, Json.weight, Json.membersWeight, hsep, hbreak] at hle
  omega

/-- What `load_last_scan` returns for a summary. -/
def loaded (s : Summary) : List (Str × Json) := Json.sortMembers (Json.sortValues s.members)

theorem field_loaded (s : Summary) (key : String) :
    field s.loaded key = (field s.members key).sortKeys :=
  Feed.field_sortKeys s.nodup_members key

@[simp] theorem schema_loaded (s : Summary) :
    field s.loaded "schema" = .str (str lastScanSchema) := s.field_loaded _

@[simp] theorem completedAt_loaded (s : Summary) :
    field s.loaded "completed_at" = .str s.completedAt := s.field_loaded _

@[simp] theorem findings_loaded (s : Summary) : field s.loaded "findings" = .int s.findings :=
  s.field_loaded _

@[simp] theorem issues_loaded (s : Summary) : field s.loaded "issues" = .int s.issues :=
  s.field_loaded _

@[simp] theorem filesHashed_loaded (s : Summary) :
    field s.loaded "files_hashed" = .int s.filesHashed := s.field_loaded _

@[simp] theorem bytesHashed_loaded (s : Summary) :
    field s.loaded "bytes_hashed" = .int s.bytesHashed := s.field_loaded _

@[simp] theorem observations_loaded (s : Summary) :
    field s.loaded "observations" = .int s.observations := s.field_loaded _

@[simp] theorem outcome_loaded (s : Summary) :
    field s.loaded "outcome" = .str (str s.outcome.name) := s.field_loaded _

theorem isText_schema : isText (.str (str lastScanSchema)) (str legacyLastScanSchema) = false ∧
    isText (.str (str lastScanSchema)) (str v2LastScanSchema) = false ∧
    isText (.str (str lastScanSchema)) (str lastScanSchema) = true := by decide

theorem isCounter_natCast (n : Nat) : isCounter (.int n) = true := decide_eq_true (Int.natCast_nonneg n)

/-- The reader finds a consistent summary to be in order. -/
theorem checkLastScan_loaded (h : s.Consistent) (hcompleted : s.completedAt ≠ []) :
    checkLastScan (.obj s.loaded) = .ok s.loaded := by
  obtain ⟨hlegacy, hv2, hcurrent⟩ := isText_schema
  have hkeys : Json.keysAre s.loaded (["schema", "completed_at", "findings", "issues",
      "files_hashed", "bytes_hashed", "observations", "outcome"].map str) = true := by
    rw [loaded, Json.keysAre_sortMembers]
    exact Json.keysAre_self s.members
  have hexpected : expectedFields s.loaded = some ["schema", "completed_at", "findings", "issues",
      "files_hashed", "bytes_hashed", "observations", "outcome"] := by
    simp only [expectedFields, schema_loaded, hlegacy, hv2, hcurrent, Bool.false_eq_true,
      ↓reduceIte]
  have hcounters : (countersOf s.loaded).all isCounter = true := by
    simp only [countersOf, schema_loaded, hv2, hcurrent, Bool.or_true, ↓reduceIte, findings_loaded,
      issues_loaded, filesHashed_loaded, bytesHashed_loaded, observations_loaded, List.cons_append,
      List.nil_append, List.all_cons, List.all_nil, isCounter_natCast, Bool.and_true]
  have hname : str s.outcome.name ∈ outcomeNames.map str := by
    refine List.mem_map_of_mem ?_
    cases s.outcome <;> simp [Outcome.name, outcomeNames]
  have houtcome : ∀ o : Outcome, str s.outcome.name = str o.name → s.outcome = o :=
    fun o heq => Outcome.name_inj.1 (Text.str_injective.1 heq)
  have hclean : ¬ (str s.outcome.name = str "no_configured_rule_matches" ∧
      (isNumber (field s.loaded "findings") 0 = false ∨ isNumber (field s.loaded "issues") 0 = false ∨
        isText (field s.loaded "schema") (str lastScanSchema) = true ∧
          isNumber (field s.loaded "observations") 0 = false)) := by
    rintro ⟨heq, hcounter⟩
    obtain ⟨hf, hi, ho⟩ := h.clean (houtcome .noConfiguredRuleMatches heq)
    simp [isNumber, hf, hi, ho] at hcounter
  have hmatched : ¬ (str s.outcome.name = str "configured_rule_matches_detected" ∧
      (isNumber (field s.loaded "findings") 0 = true ∨
        isNumber (field s.loaded "issues") 0 = false)) := by
    rintro ⟨heq, hcounter⟩
    obtain ⟨hf, hi⟩ := h.matched (houtcome .configuredRuleMatchesDetected heq)
    simp [isNumber, hf, hi] at hcounter
  have hreview : ¬ (str s.outcome.name = str "review_observations" ∧
      (isText (field s.loaded "schema") (str lastScanSchema) = false ∨
        isNumber (field s.loaded "findings") 0 = false ∨
        isNumber (field s.loaded "issues") 0 = false ∨
        isNumber (field s.loaded "observations") 0 = true)) := by
    rintro ⟨heq, hcounter⟩
    obtain ⟨hf, hi, ho⟩ := h.review (houtcome .reviewObservations heq)
    simp [isNumber, isText, hf, hi, ho] at hcounter
  have hresult : (if isText (field s.loaded "schema") (str legacyLastScanSchema) then
      s.loaded ++ [(str "files_hashed", .null), (str "bytes_hashed", .null),
        (str "observations", .int 0)]
      else if isText (field s.loaded "schema") (str v2LastScanSchema) then
        s.loaded ++ [(str "observations", .int 0)]
      else s.loaded) = s.loaded := by
    rw [schema_loaded, hlegacy, hv2, if_neg Bool.false_ne_true, if_neg Bool.false_ne_true]
  simp only [checkLastScan, bind_eq_ok, fromOption_eq_ok, require_eq_ok]
  exact ⟨s.loaded, rfl, _, hexpected, (), hkeys, (), hcounters, s.completedAt,
    by rw [completedAt_loaded]; rfl, (), hcompleted, str s.outcome.name,
    by rw [outcome_loaded]; rfl, (), hname, (), hclean, (), hmatched, (), hreview,
    congrArg Except.ok hresult⟩

end Summary

/-- Nobody else touches the summary or its temporary files. -/
structure Undisturbed (env : Util.Os) (stateDir : Path) : Prop where
  summary : ∀ t nodes, env.others t nodes (lastScanPath stateDir) = nodes (lastScanPath stateDir)
  temporary : ∀ t nodes s, env.others t nodes (Disk.join (Disk.parent (lastScanPath stateDir))
    (Util.temporaryPrefix (lastScanPath stateDir) ++ s)) =
      nodes (Disk.join (Disk.parent (lastScanPath stateDir))
        (Util.temporaryPrefix (lastScanPath stateDir) ++ s))

section Files

variable {rt : Runtime} {env : Util.Os} {stateDir : Path} {s : Summary} {m : Disk.Machine}

theorem tracked_lastScanPath (h : Undisturbed env stateDir) :
    Util.Tracked env (lastScanPath stateDir) fun p => p = lastScanPath stateDir := by
  have hslash : Text.ofChar '/' ∉ str "last-scan.json" := by decide
  have hparent : Disk.parent (lastScanPath stateDir) = Disk.join stateDir (str "status") :=
    Disk.parent_join hslash
  have hname : Disk.name (lastScanPath stateDir) = str "last-scan.json" := Disk.name_join hslash
  refine ⟨?_, h.temporary, ?_, ?_⟩
  · rintro t nodes _ rfl
    exact h.summary t nodes
  · rintro _ rfl
    rw [hparent]
    exact Disk.isParent_join _ _
  · intro s heq
    rw [hparent, Util.temporaryPrefix, hname] at heq
    have hhead := (List.cons.inj (Disk.join_inj heq)).1
    exact absurd hhead (by decide)

/-- The summary is on the disk. -/
def Saved (rt : Runtime) (stateDir : Path) (s : Summary) (nodes : Disk.Nodes) : Prop :=
  ∃ data, Util.encodeJson rt .pretty (.obj s.members) = .ok data ∧
    Disk.content nodes (lastScanPath stateDir) = some (data ++ [10])

/-- A save that returns has put the summary on the disk. -/
theorem wp_saveLastScan (h : Undisturbed env stateDir) :
    wp env (saveLastScan rt stateDir s)
      ⟨fun _ m' => Saved rt stateDir s m'.nodes, fun _ _ => True, fun _ => True⟩ m := by
  unfold saveLastScan Util.atomicWriteJson
  rw [wp_bind, wp_liftExcept]
  refine ⟨fun data hdata => ?_, fun _ _ => trivial⟩
  refine (Util.wp_atomicWriteBytes (tracked_lastScanPath h) (data ++ [10]) 0o600 m).mono
    ⟨fun _ m' hm' => ?_, fun _ _ _ => trivial, fun _ _ => trivial⟩
  exact ⟨data, hdata, hm'.content rfl⟩

/-- In a calm environment a summary is saved, if nothing stands in its way. -/
theorem calm_saveLastScan (h : Disk.Calm env) (hothers : Undisturbed env stateDir)
    (hdigits : ∀ n ∈ s.counters, (Text.digits n).length ≤ rt.intDigits)
    (hcompleted : Text.Encodable s.completedAt) (hfree : ∀ p, m.nodes p = none) :
    wp env (saveLastScan rt stateDir s) ⟨fun _ _ => True, fun _ _ => False, fun _ => False⟩ m := by
  have htracked := tracked_lastScanPath hothers
  have hslash : Text.ofChar '/' ∉ str "last-scan.json" := by decide
  have hparent : Disk.parent (lastScanPath stateDir) = Disk.join stateDir (str "status") :=
    Disk.parent_join hslash
  obtain ⟨data, hdata⟩ := (Summary.writable_of hdigits hcompleted).encodeJson (σ := .pretty)
    (Text.encodable_str _)
  unfold saveLastScan Util.atomicWriteJson
  rw [wp_bind, hdata, wp_liftExcept_ok]
  refine (Util.calm_atomicWriteBytes h (data ++ [10]) 0o600 m (htracked.notParent _ rfl) ?_
    (fun _ => hfree _) (fun s heq => htracked.notTemporary s heq.symm) ?_).mono
    ⟨fun _ _ _ => trivial, fun _ _ => False.elim, fun _ => False.elim⟩
  · intro _
    rw [hparent]
    exact Disk.isParent_join _ _
  · rw [hfree]
    nofun

/-- A summary on the disk that is consistent is loaded. -/
theorem calm_loadLastScan (h : Disk.Calm env) (hlimit : rt.intDigits ≤ 4300)
    (hconsistent : s.Consistent)
    (hcompleted : Text.Encodable s.completedAt ∧ s.completedAt ≠ [] ∧ s.completedAt.length ≤ 20)
    (hsaved : Saved rt stateDir s m.nodes) :
    wp env (loadLastScan rt stateDir)
      ⟨fun r m' => r = (some s.loaded, none) ∧ m'.nodes = m.nodes, fun _ _ => False,
        fun _ => False⟩ m := by
  obtain ⟨data, hdata, hcontent⟩ := hsaved
  have hthere : (m.nodes (lastScanPath stateDir)).isSome = true := by
    unfold Disk.content at hcontent
    split at hcontent
    · rename_i hfile
      rw [hfile]
      rfl
    · cases hcontent
  have hsize : ¬ 32 * 1024 < (data ++ [10]).length := by
    have := Summary.length_lt hdata hlimit hcompleted.2.2
    rw [List.length_append, List.length_singleton]
    omega
  have hwritable := Summary.writable_of (fun _ => Summary.length_digits hdata) hcompleted.1
  have hread := hwritable.strictJsonLoads Json.separates_pretty rfl hdata (.inr rfl)
  have hchecked := Summary.checkLastScan_loaded hconsistent hcompleted.2.1
  unfold loadLastScan
  dsimp only
  rw [wp_bind]
  refine h.wp_existsAt ?_
  rw [hthere, Post.withOk_ok, if_pos rfl]
  refine wp.bind (R := ⟨fun r m' => r = .ok (.obj s.loaded) ∧ m'.nodes = m.nodes,
    fun _ _ => False, fun _ => False⟩) ?_ ?_ (fun _ _ => False.elim) fun _ => False.elim
  · rw [wp_tryExcept, wp_bind]
    refine h.wp_size hcontent ?_
    rw [Post.withOk_ok, if_neg hsize, wp_bind]
    refine h.wp_read hcontent ?_
    rw [Post.withOk_ok, hread, wp_bind, wp_liftExcept_ok]
    exact ⟨rfl, rfl⟩
  · rintro _ m' ⟨rfl, hnodes⟩
    rw [bind_ok, hchecked]
    exact ⟨rfl, hnodes⟩

end Files

end ZsecShield.Status
