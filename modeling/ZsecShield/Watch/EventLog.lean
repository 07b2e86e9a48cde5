import ZsecShield.Lib.Journal
import ZsecShield.Util

/-!
# The event log of a watch session

`RotatingNdjsonLog` of `watch_evidence.py` appends every record as one line to a file and moves the
file away before it would outgrow its bound.  Its paths are regular files below the state directory
here, so that `_validate_evidence_path` accepts them, and `os.fsync` succeeds.

Without failed writes the files hold a suffix of the appended records, wherever a rotation was
interrupted (`run_suffix`).  A write that fails after some bytes leaves a torn line at the end of
the file, which nothing removes: the next record that is written behind it ends that line
(`run_onlyComplete_iff`).
-/

namespace ZsecShield.Watch

open Text (Str str)
open Journal (Files)

namespace EventLog

def minEventLogBytes : Nat := 64 * 1024
def maxEventLogBytes : Nat := 64 * 1024 * 1024
def minEventLogBackups : Nat := 1
def maxEventLogBackups : Nat := 10

def lineFeed : UInt8 := 10

/-- What `RotatingNdjsonLog.__init__` keeps of its arguments. -/
structure RotatingNdjsonLog where
  maxBytes : Nat
  backups : Nat
  maxBytes_range : minEventLogBytes ≤ maxBytes ∧ maxBytes ≤ maxEventLogBytes
  backups_range : minEventLogBackups ≤ backups ∧ backups ≤ maxEventLogBackups

/-- The current file is number 0, the backup `name.index` has its index. -/
abbrev LogFiles := Files Bytes

/-! ## Appending -/

/-- `json.dumps(record, sort_keys=True, ensure_ascii=False, separators=(",", ":"))`. -/
def recordStyle : Json.Style := ⟨false, true, false, str ":"⟩

/-- The line of a record. -/
def recordLine (rt : Runtime) (record : Json) : Except PyError Bytes :=
  Util.encodeJson rt recordStyle record

/-- What `append` does before it looks at the file. -/
def encodeRecord (rt : Runtime) (log : RotatingNdjsonLog) (record : Json) : Except PyError Bytes :=
  match recordLine rt record with
  | .error exc => .error exc
  | .ok line =>
      let encoded := line ++ [lineFeed]
      if log.maxBytes < encoded.length then
        .error (.shield (.watchError
          (str "one watch event is larger than the configured event-log bound")))
      else .ok encoded

/-- What one `os.write` does: it takes some of the bytes, or raises. -/
inductive WriteResult where
  | wrote (count : Nat)
  | failed (exc : Str)
deriving DecidableEq

/-- The loop `while view:` of `_append_bytes`, with the bytes that reach the file.  Where the script
of the writes ends, a write takes all that is left. -/
def writeAll : Bytes → List WriteResult → Bytes × Except PyError Unit
  | [], _ => ([], .ok ())
  | view, [] => (view, .ok ())
  | _, .failed exc :: _ =>
      ([], .error (.shield (.watchError (str "cannot append watch event log: " ++ exc))))
  | _, .wrote 0 :: _ =>
      ([], .error (.shield (.watchError (str "watch event log append made no progress"))))
  | view, .wrote (count + 1) :: writes =>
      let (written, result) := writeAll (view.drop (count + 1)) writes
      (view.take (count + 1) ++ written, result)

/-- `_append_bytes(encoded)`: opens the file for appending, or creates it. -/
def appendBytes (files : LogFiles) (encoded : Bytes) (writes : List WriteResult) :
    LogFiles × Except PyError Unit :=
  let (written, result) := writeAll encoded writes
  (files.write 0 ((files 0).getD [] ++ written), result)

/-- The file operations of `_rotate`. -/
def rotateSteps (log : RotatingNdjsonLog) : List (LogFiles → LogFiles) :=
  (fun files => files.unlink log.backups) ::
    ((List.range' 1 (log.backups - 1)).reverse.map fun index files =>
      files.replace index (index + 1)) ++
    [fun files => files.replace 0 1]

/-- `_rotate()`. -/
def rotate (log : RotatingNdjsonLog) (files : LogFiles) : LogFiles :=
  Journal.perform (rotateSteps log) files

/-- `current_size and current_size + len(encoded) > self.max_bytes`. -/
def NeedsRotation (log : RotatingNdjsonLog) (files : LogFiles) (encoded : Bytes) : Prop :=
  ((files 0).getD []).length ≠ 0 ∧
    log.maxBytes < ((files 0).getD []).length + encoded.length

instance (log : RotatingNdjsonLog) (files : LogFiles) (encoded : Bytes) :
    Decidable (NeedsRotation log files encoded) :=
  inferInstanceAs (Decidable (_ ∧ _))

/-- `append(record)`. -/
def append (rt : Runtime) (log : RotatingNdjsonLog) (files : LogFiles) (record : Json)
    (writes : List WriteResult) : LogFiles × Except PyError Unit :=
  match encodeRecord rt log record with
  | .error exc => (files, .error exc)
  | .ok encoded =>
      appendBytes (if NeedsRotation log files encoded then rotate log files else files) encoded
        writes

/-- A call of `append` that ends within `_rotate`: after some of its file operations the process
stops or an operation fails. -/
def interrupted (rt : Runtime) (log : RotatingNdjsonLog) (files : LogFiles) (record : Json)
    (operations : Nat) : LogFiles :=
  match encodeRecord rt log record with
  | .error _ => files
  | .ok encoded =>
      if NeedsRotation log files encoded then
        Journal.perform ((rotateSteps log).take operations) files
      else files

/-! ## Runs -/

inductive Call where
  | append (record : Json) (writes : List WriteResult)
  | crash (record : Json) (operations : Nat)

/-- The files, and the lines of the records that were appended so far. -/
structure LogState where
  files : LogFiles
  lines : List Bytes

def LogState.init : LogState := ⟨fun _ => none, []⟩

def step (rt : Runtime) (log : RotatingNdjsonLog) (st : LogState) : Call → LogState
  | .append record writes =>
      match append rt log st.files record writes with
      | (files, .ok ()) => ⟨files, st.lines ++ (recordLine rt record).toOption.toList⟩
      | (files, .error _) => ⟨files, st.lines⟩
  | .crash record operations => ⟨interrupted rt log st.files record operations, st.lines⟩

def run (rt : Runtime) (log : RotatingNdjsonLog) (calls : List Call) : LogState :=
  calls.foldl (step rt log) .init

/-- The files, from the oldest backup to the current one. -/
def LogState.reading (log : RotatingNdjsonLog) (st : LogState) : List Bytes :=
  st.files.contents (log.backups + 1)

/-! ## What an append writes -/

/-- No write fails or takes nothing before `size` bytes are written. -/
def completes : Nat → List WriteResult → Bool
  | 0, _ => true
  | _ + 1, [] => true
  | _ + 1, .failed _ :: _ => false
  | _ + 1, .wrote 0 :: _ => false
  | size + 1, .wrote (count + 1) :: writes => completes (size - count) writes

/-- The loop ends without an error exactly if the writes complete, and then all is written. -/
theorem writeAll_of_completes {view : Bytes} {writes : List WriteResult}
    (h : completes view.length writes = true) : writeAll view writes = (view, .ok ()) := by
  fun_induction writeAll view writes with
  | case1 => rfl
  | case2 => rfl
  | case3 view exc rest hview =>
      cases view with
      | nil => exact absurd rfl hview
      | cons => cases h
  | case4 view rest hview =>
      cases view with
      | nil => exact absurd rfl hview
      | cons => cases h
  | case5 view count rest hview written result hrec ih =>
      cases view with
      | nil => exact absurd rfl hview
      | cons byte view =>
          have hrest := ih (by simpa [completes] using h)
          rw [hrec] at hrest
          cases hrest
          simp

theorem writeAll_of_not_completes {view : Bytes} {writes : List WriteResult}
    (h : completes view.length writes = false) :
    ∃ rest exc, rest ≠ [] ∧ (writeAll view writes).1 ++ rest = view ∧
      (writeAll view writes).2 = .error exc := by
  fun_induction writeAll view writes with
  | case1 => simp [completes] at h
  | case2 view hview =>
      cases view with
      | nil => exact absurd rfl hview
      | cons => cases h
  | case3 view exc rest hview => exact ⟨view, _, hview, rfl, rfl⟩
  | case4 view rest hview => exact ⟨view, _, hview, rfl, rfl⟩
  | case5 view count rest hview written result hrec ih =>
      cases view with
      | nil => exact absurd rfl hview
      | cons byte view =>
          obtain ⟨left, exc, hleft, hsplit, hresult⟩ := ih (by simpa [completes] using h)
          rw [hrec] at hsplit hresult
          refine ⟨left, exc, hleft, ?_, hresult⟩
          show List.take (count + 1) (byte :: view) ++ written ++ left = byte :: view
          rw [List.append_assoc, hsplit, List.take_append_drop]

/-- `os.write` always takes some bytes and never fails. -/
def Whole (writes : List WriteResult) : Prop :=
  ∀ write ∈ writes, ∃ count, write = .wrote (count + 1)

theorem Whole.completes {writes : List WriteResult} (h : Whole writes) (size : Nat) :
    completes size writes = true := by
  induction writes generalizing size with
  | nil => cases size <;> rfl
  | cons write writes ih =>
      obtain ⟨count, rfl⟩ := h write List.mem_cons_self
      cases size with
      | zero => rfl
      | succ size => exact ih (fun w hw => h w (List.mem_cons_of_mem _ hw)) _

/-- A record is one line. -/
theorem lineFeed_not_mem_recordLine {rt : Runtime} {record : Json} {line : Bytes}
    (h : recordLine rt record = .ok line) : lineFeed ∉ line := by
  intro hmem
  obtain ⟨c, hc, hval⟩ := Text.mem_encodeUtf8 (Util.encodeJson_eq_ok h) (by decide) hmem
  have hsep : Json.AllOf (fun c => c.val ≠ 10) recordStyle.keySeparator :=
    .literal (fun c hc _ => by omega) (by decide)
  have hline := Json.oneLine_layout (σ := recordStyle) rfl hsep record.sortKeys 0
  exact hline c hc hval

theorem encodeRecord_eq_ok {rt : Runtime} {log : RotatingNdjsonLog} {record : Json}
    {encoded : Bytes} (h : encodeRecord rt log record = .ok encoded) :
    ∃ line, recordLine rt record = .ok line ∧ encoded = line ++ [lineFeed] ∧
      encoded.length ≤ log.maxBytes := by
  cases hline : recordLine rt record with
  | error exc => simp [encodeRecord, hline] at h
  | ok line =>
      simp only [encodeRecord, hline] at h
      split at h
      · cases h
      · cases h
        exact ⟨line, rfl, rfl, by omega⟩

/-- The rotation of `_rotate` is the general one. -/
theorem rotateSteps_eq (log : RotatingNdjsonLog) :
    rotateSteps log = Journal.rotation log.backups := by
  have hshifts (n : Nat) : Journal.shifts (n + 1) =
      ((List.range' 1 n).reverse.map fun index (files : LogFiles) =>
        files.replace index (index + 1)) ++ [fun files => files.replace 0 1] := by
    induction n with
    | zero => rfl
    | succ n ih =>
        rw [Journal.shifts, ih, List.range'_concat]
        simp [Nat.add_comm]
  obtain ⟨n, hn⟩ : ∃ n, log.backups = n + 1 := ⟨log.backups - 1, by
    have := log.backups_range.1
    unfold minEventLogBackups at this
    omega⟩
  rw [rotateSteps, Journal.rotation, hn, hshifts]
  rfl

/-! ## The lines of the files -/

/-- The current file, empty if it is missing. -/
def current (files : LogFiles) : Bytes := (files 0).getD []

/-- What stands behind the last line end of the current file. -/
def tornTail (files : LogFiles) : Bytes := (Journal.read lineFeed (current files)).torn

/-- The ended lines of some files. -/
def endedLines (contents : List Bytes) : List Bytes :=
  contents.flatMap fun data => (Journal.read lineFeed data).lines

@[simp] theorem endedLines_append (contents contents' : List Bytes) :
    endedLines (contents ++ contents') = endedLines contents ++ endedLines contents' :=
  List.flatMap_append

@[simp] theorem endedLines_singleton (data : Bytes) :
    endedLines [data] = (Journal.read lineFeed data).lines := by
  simp [endedLines]

theorem endedLines_suffix {contents contents' : List Bytes} (h : contents <:+ contents') :
    endedLines contents <:+ endedLines contents' := by
  obtain ⟨dropped, rfl⟩ := h
  rw [endedLines_append]
  exact List.suffix_append _ _

theorem endedLines_current (files : LogFiles) (n : Nat) :
    endedLines (files.contents (n + 1)) =
      endedLines (Files.contents (fun i => files (i + 1)) n) ++
        (Journal.read lineFeed (current files)).lines := by
  rw [Files.contents_succ, endedLines_append]
  cases hfile : files 0 with
  | none => simp [current, hfile, endedLines]
  | some data => simp [current, hfile]

/-- What is written without a line end adds no line. -/
theorem endedLines_write_torn (files : LogFiles) (n : Nat) {p : Bytes} (h : lineFeed ∉ p) :
    endedLines ((files.write 0 (current files ++ p)).contents (n + 1)) =
      endedLines (files.contents (n + 1)) := by
  rw [Files.contents_write_zero, endedLines_append, endedLines_singleton, endedLines_current,
    Journal.read_append_torn h]

/-- A line that is written joins what was torn. -/
theorem endedLines_write_line (files : LogFiles) (n : Nat) {line : Bytes} (h : lineFeed ∉ line) :
    endedLines ((files.write 0 (current files ++ (line ++ [lineFeed]))).contents (n + 1)) =
      endedLines (files.contents (n + 1)) ++ [tornTail files ++ line] := by
  rw [Files.contents_write_zero, endedLines_append, endedLines_singleton, endedLines_current,
    Journal.read_append_line h, List.append_assoc]
  rfl

section Steps

variable (rt : Runtime) (log : RotatingNdjsonLog)

/-- The files that an append writes to. -/
def prepared (files : LogFiles) (encoded : Bytes) : LogFiles :=
  if NeedsRotation log files encoded then rotate log files else files

variable {rt log}

theorem contents_interrupted (files : LogFiles) (record : Json) (operations : Nat) :
    (interrupted rt log files record operations).contents (log.backups + 1) <:+
      files.contents (log.backups + 1) := by
  unfold interrupted
  split
  · exact List.suffix_refl _
  · split
    · rw [rotateSteps_eq]
      exact Journal.contents_interrupted files log.backups operations
    · exact List.suffix_refl _

theorem contents_prepared (files : LogFiles) (encoded : Bytes) :
    (prepared log files encoded).contents (log.backups + 1) <:+
      files.contents (log.backups + 1) := by
  unfold prepared
  split
  · have h := Journal.contents_interrupted files log.backups (rotateSteps log).length
    rw [← rotateSteps_eq, List.take_length] at h
    exact h
  · exact List.suffix_refl _

/-- After a rotation nothing is torn. -/
theorem tornTail_prepared (files : LogFiles) (encoded : Bytes) :
    tornTail (prepared log files encoded) =
      if NeedsRotation log files encoded then [] else tornTail files := by
  unfold prepared
  split
  · have hfree : rotate log files 0 = none := by
      rw [rotate, rotateSteps_eq]
      exact Journal.rotation_zero files log.backups
    simp [tornTail, current, hfree]
  · rfl

/-- What an append does: it fails before the file is touched, or all of the line is written, or a
part of it that has no line end. -/
inductive Appends (rt : Runtime) (log : RotatingNdjsonLog) (st : LogState) (record : Json)
    (writes : List WriteResult) : LogState → Prop
  | refused {exc : PyError} (hrecord : encodeRecord rt log record = .error exc) :
      Appends rt log st record writes st
  | whole {line : Bytes} (hline : recordLine rt record = .ok line)
      (hrecord : encodeRecord rt log record = .ok (line ++ [lineFeed]))
      (hwrites : completes (line ++ [lineFeed]).length writes = true) :
      Appends rt log st record writes
        ⟨(prepared log st.files (line ++ [lineFeed])).write 0
          (current (prepared log st.files (line ++ [lineFeed])) ++ (line ++ [lineFeed])),
          st.lines ++ [line]⟩
  | torn {line p rest : Bytes} (hline : recordLine rt record = .ok line)
      (hrecord : encodeRecord rt log record = .ok (line ++ [lineFeed]))
      (hwrites : completes (line ++ [lineFeed]).length writes = false)
      (hp : p ++ rest = line) :
      Appends rt log st record writes
        ⟨(prepared log st.files (line ++ [lineFeed])).write 0
          (current (prepared log st.files (line ++ [lineFeed])) ++ p), st.lines⟩

variable (rt log) in
theorem step_append (st : LogState) (record : Json) (writes : List WriteResult) :
    Appends rt log st record writes (step rt log st (.append record writes)) := by
  cases hrecord : encodeRecord rt log record with
  | error exc =>
      have hstep : step rt log st (.append record writes) = st := by
        simp only [step, append, hrecord]
      rw [hstep]
      exact .refused hrecord
  | ok encoded =>
      obtain ⟨line, hline, rfl, hsize⟩ := encodeRecord_eq_ok hrecord
      cases hwrites : completes (line ++ [lineFeed]).length writes with
      | true =>
          have hstep : step rt log st (.append record writes) =
              ⟨(prepared log st.files (line ++ [lineFeed])).write 0
                (current (prepared log st.files (line ++ [lineFeed])) ++ (line ++ [lineFeed])),
                st.lines ++ [line]⟩ := by
            simp only [step, append, hrecord, appendBytes, writeAll_of_completes hwrites, hline]
            rfl
          rw [hstep]
          exact .whole hline hrecord hwrites
      | false =>
          obtain ⟨rest, exc, hrest, hsplit, hresult⟩ := writeAll_of_not_completes hwrites
          have hstep : step rt log st (.append record writes) =
              ⟨(prepared log st.files (line ++ [lineFeed])).write 0
                (current (prepared log st.files (line ++ [lineFeed])) ++
                  (writeAll (line ++ [lineFeed]) writes).1), st.lines⟩ := by
            simp only [step, append, hrecord, appendBytes, hresult]
            rfl
          rw [hstep]
          -- the line end is the last byte, so what was written has none
          obtain ⟨front, last, rfl⟩ : ∃ front last, rest = front ++ [last] :=
            ⟨_, _, (List.dropLast_append_getLast hrest).symm⟩
          rw [← List.append_assoc] at hsplit
          exact .torn hline hrecord hwrites (List.append_inj_left' hsplit rfl)

/-! ## Bounds -/

/-- No file is larger than the bound, and there are no more backups than configured. -/
structure Bounded (log : RotatingNdjsonLog) (files : LogFiles) : Prop where
  size : ∀ i data, files i = some data → data.length ≤ log.maxBytes
  within : ∀ i, log.backups < i → files i = none

/-- Some of the contents, in files that are as few. -/
theorem Bounded.of_suffix {files files' : LogFiles} (h : Bounded log files)
    (hcontents : files'.contents (log.backups + 1) <:+ files.contents (log.backups + 1))
    (hwithin : ∀ i, log.backups < i → files' i = files i) : Bounded log files' where
  size i data hfile := by
    have hi : i < log.backups + 1 := by
      by_contra hlarge
      rw [hwithin i (by omega), h.within i (by omega)] at hfile
      cases hfile
    obtain ⟨j, -, hj⟩ := Files.mem_contents.1
      (hcontents.mem (Files.mem_contents.2 ⟨i, hi, hfile⟩))
    exact h.size j data hj
  within i hi := by rw [hwithin i hi, h.within i hi]

theorem Bounded.interrupted {files : LogFiles} (h : Bounded log files) (record : Json)
    (operations : Nat) : Bounded log (interrupted rt log files record operations) := by
  refine h.of_suffix (contents_interrupted files record operations) fun i hi => ?_
  cases hrecord : encodeRecord rt log record with
  | error exc => simp only [EventLog.interrupted, hrecord]
  | ok encoded =>
      simp only [EventLog.interrupted, hrecord]
      split
      · rw [rotateSteps_eq, Journal.interrupted_of_lt hi]
      · rfl

theorem Bounded.prepared {files : LogFiles} (h : Bounded log files) (encoded : Bytes) :
    Bounded log (prepared log files encoded) := by
  refine h.of_suffix (contents_prepared files encoded) fun i hi => ?_
  unfold EventLog.prepared
  split
  · have hsame := Journal.interrupted_of_lt hi files (rotateSteps log).length
    rw [← rotateSteps_eq, List.take_length] at hsame
    exact hsame
  · rfl

/-- There is room for the record in the file that was prepared for it. -/
theorem length_prepared (files : LogFiles) {encoded : Bytes}
    (hsize : encoded.length ≤ log.maxBytes) :
    (current (prepared log files encoded)).length + encoded.length ≤ log.maxBytes := by
  by_cases hrotate : NeedsRotation log files encoded
  · have hfree : rotate log files 0 = none := by
      rw [rotate, rotateSteps_eq]
      exact Journal.rotation_zero files log.backups
    simpa [EventLog.prepared, hrotate, current, hfree] using hsize
  · simp only [EventLog.prepared, hrotate, if_false]
    unfold NeedsRotation at hrotate
    unfold current
    omega

theorem Bounded.write {files : LogFiles} (h : Bounded log files) {data : Bytes}
    (hdata : data.length ≤ log.maxBytes) : Bounded log (files.write 0 data) where
  size i data' hfile := by
    by_cases hi : i = 0
    · rw [hi, Files.write_self] at hfile
      cases hfile
      exact hdata
    · rw [Files.write_of_ne files hi] at hfile
      exact h.size i data' hfile
  within i hi := by rw [Files.write_of_ne files (by omega), h.within i hi]

theorem Bounded.step {st : LogState} (h : Bounded log st.files) (call : Call) :
    Bounded log (step rt log st call).files := by
  cases call with
  | crash record operations => exact h.interrupted record operations
  | append record writes =>
      have happends := step_append rt log st record writes
      generalize EventLog.step rt log st (.append record writes) = st' at happends ⊢
      cases happends with
      | refused => exact h
      | @whole line _ hrecord _ =>
          obtain ⟨-, -, -, hsize⟩ := encodeRecord_eq_ok hrecord
          refine (h.prepared _).write ?_
          rw [List.length_append]
          exact length_prepared st.files hsize
      | @torn line p rest _ hrecord _ hp =>
          obtain ⟨-, -, -, hsize⟩ := encodeRecord_eq_ok hrecord
          refine (h.prepared _).write ?_
          have hroom := length_prepared st.files hsize
          rw [List.length_append]
          simp only [← hp, List.length_append] at hroom ⊢
          omega

/-! ## Only complete records -/

variable (rt log) in
/-- The ended lines of the files are the last ones that were appended, in their order. -/
def OnlyComplete (st : LogState) : Prop := endedLines (st.reading log) <:+ st.lines

variable (rt log) in
/-- The call writes a whole record behind a torn line. -/
def EndsTorn (st : LogState) : Call → Prop
  | .append record writes => ∃ encoded, encodeRecord rt log record = .ok encoded ∧
      completes encoded.length writes = true ∧ ¬ NeedsRotation log st.files encoded ∧
      tornTail st.files ≠ []
  | .crash _ _ => False

theorem OnlyComplete.of_suffix {st : LogState} (h : OnlyComplete log st) {files : LogFiles}
    (hfiles : files.contents (log.backups + 1) <:+ st.files.contents (log.backups + 1)) :
    endedLines (files.contents (log.backups + 1)) <:+ st.lines :=
  (endedLines_suffix hfiles).trans h

theorem suffix_concat_concat {α : Type} {l m : List α} {a b : α} :
    l ++ [a] <:+ m ++ [b] ↔ a = b ∧ l <:+ m := by
  rw [List.suffix_concat_iff]
  constructor
  · rintro (h | ⟨t, h, ht⟩)
    · simp at h
    · obtain ⟨rfl, hab⟩ := List.append_inj' h rfl
      exact ⟨List.singleton_inj.1 hab, ht⟩
  · rintro ⟨rfl, h⟩
    exact Or.inr ⟨l, rfl, h⟩

/-- A step keeps the lines complete exactly if it does not end a torn one. -/
theorem OnlyComplete.step_iff {st : LogState} (h : OnlyComplete log st) (call : Call) :
    OnlyComplete log (step rt log st call) ↔ ¬ EndsTorn rt log st call := by
  cases call with
  | crash record operations =>
      exact ⟨fun _ hends => hends, fun _ => h.of_suffix (contents_interrupted _ record operations)⟩
  | append record writes =>
      have happends := step_append rt log st record writes
      generalize EventLog.step rt log st (.append record writes) = st' at happends ⊢
      cases happends with
      | refused hrecord =>
          refine ⟨fun _ ⟨encoded, hencoded, _⟩ => ?_, fun _ => h⟩
          rw [hrecord] at hencoded
          cases hencoded
      | @torn line p rest hline hrecord hwrites hp =>
          have hfree : lineFeed ∉ p := fun hmem =>
            lineFeed_not_mem_recordLine hline (hp ▸ List.mem_append_left rest hmem)
          constructor
          · rintro - ⟨encoded, hencoded, hcomplete, -⟩
            rw [hrecord] at hencoded
            cases hencoded
            rw [hwrites] at hcomplete
            cases hcomplete
          · intro _
            unfold OnlyComplete LogState.reading
            rw [endedLines_write_torn _ _ hfree]
            exact h.of_suffix (contents_prepared _ _)
      | @whole line hline hrecord hwrites =>
          unfold OnlyComplete LogState.reading
          rw [endedLines_write_line _ _ (lineFeed_not_mem_recordLine hline), suffix_concat_concat,
            tornTail_prepared]
          constructor
          · rintro ⟨htorn, -⟩ ⟨encoded, hencoded, -, hrotate, htail⟩
            rw [hrecord] at hencoded
            cases hencoded
            rw [if_neg hrotate] at htorn
            exact htail (by simpa using htorn)
          · intro hends
            refine ⟨?_, h.of_suffix (contents_prepared _ _)⟩
            split
            · rfl
            · rename_i hrotate
              by_cases htail : tornTail st.files = []
              · rw [htail, List.nil_append]
              · exact absurd ⟨_, hrecord, hwrites, hrotate, htail⟩ hends

/-! ## Whole runs -/

variable (rt log)

theorem run_bounded (calls : List Call) : Bounded log (run rt log calls).files := by
  induction calls using List.reverseRecOn with
  | nil => exact ⟨nofun, fun _ _ => rfl⟩
  | append_singleton calls call ih =>
      rw [run, List.foldl_append]
      exact ih.step call

variable {rt log}

/-- No write of the call fails. -/
def Call.Whole : Call → Prop
  | .append _ writes => EventLog.Whole writes
  | .crash _ _ => True

variable (log) in
/-- Nothing is torn. -/
def AllWhole (st : LogState) : Prop :=
  ∀ data ∈ st.reading log, (Journal.read lineFeed data).torn = []

theorem AllWhole.tornTail {st : LogState} (h : AllWhole log st) : tornTail st.files = [] := by
  cases hfile : st.files 0 with
  | none => simp [EventLog.tornTail, current, hfile]
  | some data =>
      have hdata := h data (Files.mem_contents.2 ⟨0, by omega, hfile⟩)
      simpa [EventLog.tornTail, current, hfile] using hdata

theorem AllWhole.step {st : LogState} (h : AllWhole log st) {call : Call} (hcall : call.Whole) :
    AllWhole log (step rt log st call) := by
  cases call with
  | crash record operations =>
      exact fun data hdata => h data ((contents_interrupted _ record operations).mem hdata)
  | append record writes =>
      have happends := step_append rt log st record writes
      generalize EventLog.step rt log st (.append record writes) = st' at happends ⊢
      cases happends with
      | refused => exact h
      | torn _ _ hwrites =>
          rw [Whole.completes hcall] at hwrites
          cases hwrites
      | @whole line hline _ _ =>
          intro data hdata
          unfold LogState.reading at hdata
          rw [Files.contents_write_zero] at hdata
          rcases List.mem_append.1 hdata with hold | hnew
          · refine h data ((contents_prepared st.files (line ++ [lineFeed])).mem ?_)
            rw [Files.contents_succ]
            exact List.mem_append_left _ hold
          · rw [List.mem_singleton.1 hnew,
              Journal.read_append_line (lineFeed_not_mem_recordLine hline)]

theorem run_allWhole {calls : List Call} (h : ∀ call ∈ calls, call.Whole) :
    AllWhole log (run rt log calls) ∧ OnlyComplete log (run rt log calls) := by
  induction calls using List.reverseRecOn with
  | nil =>
      have hempty : (run rt log []).reading log = [] := by
        refine List.eq_nil_iff_forall_not_mem.2 fun data hdata => ?_
        obtain ⟨i, -, hfile⟩ := Files.mem_contents.1 hdata
        cases hfile
      unfold AllWhole OnlyComplete
      rw [hempty]
      exact ⟨nofun, List.suffix_refl _⟩
  | append_singleton calls call ih =>
      obtain ⟨hwhole, hcomplete⟩ := ih fun c hc => h c (List.mem_append_left _ hc)
      have hcall : call.Whole := h call (List.mem_append_right _ List.mem_cons_self)
      rw [run, List.foldl_append]
      refine ⟨hwhole.step hcall, (hcomplete.step_iff call).2 fun hends => ?_⟩
      cases call with
      | crash => exact hends
      | append record writes =>
          obtain ⟨-, -, -, -, htail⟩ := hends
          exact htail hwhole.tornTail

variable (rt log)

/-- While no write fails, the files stay within their bounds and hold, from the oldest backup to
the current file, a suffix of the appended records, wherever a rotation was interrupted. -/
theorem run_suffix (calls : List Call) (h : ∀ call ∈ calls, call.Whole) :
    (∀ i data, (run rt log calls).files i = some data → data.length ≤ log.maxBytes) ∧
      (∀ i, log.backups < i → (run rt log calls).files i = none) ∧
      ∃ groups : List (List Bytes),
        (run rt log calls).reading log = groups.map (Journal.unlines lineFeed) ∧
          groups.flatten <:+ (run rt log calls).lines := by
  obtain ⟨hwhole, hcomplete⟩ := run_allWhole h
  have hbounded := run_bounded rt log calls
  refine ⟨hbounded.size, hbounded.within,
    ((run rt log calls).reading log).map fun data => (Journal.read lineFeed data).lines, ?_, ?_⟩
  · rw [List.map_map]
    refine (List.map_id _).symm.trans (List.map_congr_left fun data hdata => ?_)
    have hdata' := Journal.unlines_read (e := lineFeed) data
    rw [hwhole data hdata, List.append_nil] at hdata'
    exact hdata'.symm
  · exact hcomplete

/-- If a step keeps an invariant exactly under a condition, then all states of a run have it exactly
if all its steps meet the condition. -/
theorem foldl_forall_iff {σ α : Type} {next : σ → α → σ} {P : σ → Prop} {C : σ → α → Prop}
    (hnext : ∀ s a, P s → (P (next s a) ↔ C s a)) {s : σ} (hs : P s) (as : List α) :
    (∀ before, before <+: as → P (before.foldl next s)) ↔
      ∀ before a after, as = before ++ a :: after → C (before.foldl next s) a := by
  induction as generalizing s with
  | nil =>
      constructor
      · rintro - before a after h
        simp at h
      · intro _ before hbefore
        rw [List.prefix_nil.1 hbefore]
        exact hs
  | cons a as ih =>
      constructor
      · intro hall before b after h
        have hfirst : P (next s a) := hall [a] ⟨as, rfl⟩
        cases before with
        | nil =>
            cases h
            exact (hnext s a hs).1 hfirst
        | cons _ before =>
            cases h
            exact (ih hfirst).1 (fun front hfront =>
              hall (a :: front) ((List.prefix_cons_inj a).2 hfront)) before b after rfl
      · intro hall before hbefore
        have hfirst : P (next s a) := (hnext s a hs).2 (hall [] a as rfl)
        cases before with
        | nil => exact hs
        | cons b before =>
            obtain ⟨rfl, hrest⟩ := List.cons_prefix_cons.1 hbefore
            exact (ih hfirst).2 (fun front c after h => hall (b :: front) c after (by rw [h]; rfl))
              before hrest

/-- After every call the ended lines of the files are the appended records exactly if no record is
written whole behind a line that an earlier failure tore. -/
theorem run_onlyComplete_iff (calls : List Call) :
    (∀ before, before <+: calls → OnlyComplete log (run rt log before)) ↔
      ∀ before call after, calls = before ++ call :: after →
        ¬ EndsTorn rt log (run rt log before) call := by
  have hinit : OnlyComplete log (run rt log []) := (run_allWhole fun call h => by cases h).2
  exact foldl_forall_iff (fun st call h => h.step_iff call) hinit calls

end Steps

/-! ### A log of empty records -/

namespace Sample

def log : RotatingNdjsonLog := ⟨64 * 1024, 2, by decide, by decide⟩

/-- A record in two writes, and one with a crash before it. -/
def wholeCalls : List Call :=
  [.append (.obj []) [.wrote 1, .wrote 2], .crash (.obj []) 1, .append (.obj []) []]

/-- The record is torn after its first byte, and then written. -/
def tornCalls : List Call :=
  [.append (.obj []) [.wrote 1, .failed (str "[Errno 28] No space left on device")],
    .append (.obj []) []]

theorem whole_wholeCalls : ∀ call ∈ wholeCalls, call.Whole := by
  intro call hcall
  simp only [wholeCalls, List.mem_cons, List.not_mem_nil, or_false] at hcall
  rcases hcall with rfl | rfl | rfl
  · intro write hwrite
    simp only [List.mem_cons, List.not_mem_nil, or_false] at hwrite
    rcases hwrite with rfl | rfl
    · exact ⟨0, rfl⟩
    · exact ⟨1, rfl⟩
  · trivial
  · exact nofun

theorem endedLines_tornCalls :
    endedLines ((run usualRuntime log tornCalls).reading log) = [[123, 123, 125]] ∧
      (run usualRuntime log tornCalls).lines = [[123, 125]] := by
  decide +kernel

end Sample

theorem run_suffix_wholeCalls : (run usualRuntime Sample.log Sample.wholeCalls).lines.length = 2 ∧
    (∀ i data, (run usualRuntime Sample.log Sample.wholeCalls).files i = some data →
      data.length ≤ Sample.log.maxBytes) ∧
    (∀ i, Sample.log.backups < i → (run usualRuntime Sample.log Sample.wholeCalls).files i = none) ∧
    ∃ groups : List (List Bytes),
      (run usualRuntime Sample.log Sample.wholeCalls).reading Sample.log =
          groups.map (Journal.unlines lineFeed) ∧
        groups.flatten <:+ (run usualRuntime Sample.log Sample.wholeCalls).lines :=
  ⟨by decide +kernel, run_suffix usualRuntime Sample.log Sample.wholeCalls Sample.whole_wholeCalls⟩

/-- A record that was torn stands in front of the next one, and no record has that line. -/
theorem endedLines_not_appended : ¬ ∀ (rt : Runtime) (log : RotatingNdjsonLog) (calls : List Call),
    ∀ line ∈ endedLines ((run rt log calls).reading log), line ∈ (run rt log calls).lines := by
  intro hall
  have hline := hall usualRuntime Sample.log Sample.tornCalls [123, 123, 125]
  rw [Sample.endedLines_tornCalls.1, Sample.endedLines_tornCalls.2] at hline
  exact absurd (hline List.mem_cons_self) (by decide)

end EventLog

end ZsecShield.Watch
