import ZsecShield.Desktop.Fields
import ZsecShield.Platform

/-!
# The stream of a watch session

`WatchSession._run` reads the output of the watch process in chunks and hands every line, as an
event that `validate_watch_event` has accepted, to the window.  The bound of a line is checked on
the bytes that wait for a line end and again on a line that is there, but not on a blank line.  So a
blank line somewhat above the bound is refused if it comes in small reads, and skipped if its end
comes with the read that crosses the bound.  Reads make no difference otherwise
(`readLoop_chunking_iff`).
-/

namespace ZsecShield.Desktop

open Text (Str str)
open Feed (field isText)
open Checks

/-! ## Events -/

def watchEvents : List String :=
  ["session_started", "backend_fallback", "scan_completed", "reconciliation_completed",
    "metadata_inventory_completed", "event_superseded", "events_superseded", "health_issue",
    "health_heartbeat", "session_completed"]

/-- `if condition: check`. -/
def ifSo (condition : Bool) (check : Except Failure Unit) : Except Failure Unit :=
  if condition then check else .ok ()

/-- What a metadata inventory may report. -/
def checkMetadataInventory (root : List (Str × Json)) : Except Failure Unit := do
  known (field root "outcome") ["metadata_inventory_complete", "incomplete"]
    (str "watch metadata inventory outcome is unsupported")
  let scan ← object (field root "scan") (str "scan")
  let findings ← list (field scan "findings") (str "scan.findings")
  let observations ← list (field scan "observations") (str "scan.observations")
  let issues ← list (field scan "issues") (str "scan.issues")
  let stats ← object (field scan "stats") (str "scan.stats")
  let filesHashed ← integer (field stats "files_hashed") (str "scan.stats.files_hashed") 0
  let errors ← integer (field stats "errors") (str "scan.stats.errors") 0
  require (filesHashed = 0 ∧ findings = [] ∧ observations = [])
    (.contractError (str "metadata inventory unexpectedly claims content inspection"))
  require (isText (field root "outcome") (str "metadata_inventory_complete") = true →
    errors = 0 ∧ issues = [])
    (.contractError (str "metadata inventory completion has inconsistent issues"))
  let quarantine ← list (field root "quarantine") (str "quarantine")
  require (quarantine = [])
    (.contractError (str "metadata inventory cannot authorize quarantine"))

/-- One event that was superseded. -/
def checkEventSuperseded (root : List (Str × Json)) : Except Failure Unit := do
  let _ ← string (field root "path") (str "path") 32768
  known (field root "reason") ["path_vanished_before_scan", "path_vanished_during_scan"]
    (str "superseded event reason is unsupported")

/-- Some events that were superseded, with a sample of their paths. -/
def checkEventsSuperseded (root : List (Str × Json)) : Except Failure Unit := do
  let count ← integer (field root "count") (str "count") 2
  let omitted ← integer (field root "sample_paths_omitted") (str "sample_paths_omitted") 0
  let paths ← list (field root "sample_paths") (str "sample_paths")
  require (1 ≤ paths.length ∧ paths.length ≤ 8 ∧ count = paths.length + omitted)
    (.contractError (str "superseded event sample counters are inconsistent"))
  paths.forM fun path => (string path (str "sample path") 32768).map fun _ => ()
  require (isText (field root "reason") (str "paths_vanished_during_scan") = true)
    (.contractError (str "superseded events reason is unsupported"))

/-- The triggers of superseded events. -/
def checkTriggers (root : List (Str × Json)) : Except Failure Unit := do
  let triggers ← list (field root "triggers") (str "triggers")
  require (triggers.length ≤ 32)
    (.contractError (str "superseded event trigger count exceeds its bound"))
  triggers.forM fun trigger => (string trigger (str "trigger") 80).map fun _ => ()

/-- The checks of superseded events. -/
def checkSuperseded (root : List (Str × Json)) : Except Failure Unit := do
  checkTriggers root
  if isText (field root "event") (str "event_superseded") then checkEventSuperseded root
  else checkEventsSuperseded root

/-- What a heartbeat may report. -/
def checkHeartbeat (root : List (Str × Json)) : Except Failure Unit := do
  known (field root "backend_active") ["native", "polling"]
    (str "watch heartbeat backend is unsupported")
  let incomplete ← boolean (field root "operational_incomplete") (str "operational_incomplete")
  match Json.lookup (str "inventory_complete") root with
  | none => .ok ()
  | some value => do
      let complete ← boolean value (str "inventory_complete")
      require (¬ (complete = true ∧ incomplete = true))
        (.contractError (str "inventory recovery heartbeat reports incomplete operation"))

/-- No event may claim more protection than there is. -/
def checkPolicy (policy : Json) : Except Failure Unit := do
  let members ← object policy (str "policy")
  mustBeFalse (field members "real_time_protection") (str "policy.real_time_protection")
    (str "watch event unexpectedly asserts real-time protection")
  mustBeFalse (field members "pre_access_enforcement") (str "policy.pre_access_enforcement")
    (str "watch event unexpectedly asserts pre-access enforcement")

/-- `validate_watch_event`. -/
def validateWatchEvent (payload : Json) : Except Failure (List (Str × Json)) := do
  let root ← schema payload "zsec.shield.watch-event.v1"
  let event := field root "event"
  known event watchEvents (str "watch event is unknown")
  let _ ← string (field root "session_id") (str "session_id") 80
  let _ ← integer (field root "sequence") (str "sequence") 1
  let generatedAt ← string (field root "generated_at") (str "generated_at") 80
  require (generatedAt.getLast? = some (Text.ofChar 'Z') ∧ Text.ofChar 'T' ∈ generatedAt)
    (.contractError (str "watch event generated_at must be a UTC timestamp"))
  ifSo (isText event (str "metadata_inventory_completed")) (checkMetadataInventory root)
  ifSo (isText event (str "event_superseded") || isText event (str "events_superseded"))
    (checkSuperseded root)
  ifSo (isText event (str "health_heartbeat")) (checkHeartbeat root)
  unlessNull checkPolicy (field root "policy")
  pure root

/-! ## The read loop -/

def maxWatchLineBytes : Nat := 4 * 1024 * 1024

/-- The bytes a read may give, `stdout.read1(65536)`. -/
def readBytes : Nat := 65536

def lineFeed : UInt8 := 10

/-- `not raw.strip()`. -/
def isBlankLine (raw : Bytes) : Bool :=
  raw.all fun b => decide (b = 32 ∨ 9 ≤ b ∧ b ≤ 13)

/-- Why a line is no event. -/
inductive LineFault where
  /-- The bytes are no UTF-8. -/
  | undecodable
  /-- The text of a `BridgeError`. -/
  | json (text : Str)
  /-- The text of a `ContractError`. -/
  | event (text : Str)
  /-- A `TypeError` or a `KeyError`, which the loop does not catch. -/
  | escaped (failure : Failure)
  /-- The `ValueError` of an integer with too many digits, which it does not catch either. -/
  | digits

/-- What ends the loop early. -/
inductive Stop where
  /-- `BridgeError("watch event exceeded its line-size bound")`. -/
  | lineBound
  /-- `BridgeError(f"unsafe watch event: {exc}")`, or what is not caught. -/
  | unsafeLine (fault : LineFault)

/-- How the loop ends. -/
inductive Outcome where
  | ended
  /-- `BridgeError("watch stream ended with an incomplete JSON record")`. -/
  | incomplete
  | stopped (stop : Stop)

abbrev WatchEvent := List (Str × Json)

/-- `_json_object`. -/
def jsonObject (rt : Runtime) (text : Str) : Except LineFault (List (Str × Json)) :=
  match Json.loads ⟨rt.scanDepth, rt.intDigits, false, false⟩ text with
  | .error .digits => .error .digits
  | .error _ => .error (.json (str "ZSEC returned invalid JSON"))
  | .ok value => fromOption value.objOf (.json (str "ZSEC JSON response must be an object"))

/-- The event of a line. -/
def readEvent (rt : Runtime) (raw : Bytes) : Except LineFault WatchEvent := do
  let text ← fromOption (Text.decodeUtf8 raw) .undecodable
  let value ← jsonObject rt text
  match validateWatchEvent (.obj value) with
  | .error (.contractError text) => .error (.event text)
  | .error failure => .error (.escaped failure)
  | .ok event => .ok event

/-- The line before the first line end, and what is behind it. -/
def partitionLine (pending : Bytes) : Bytes × Bytes :=
  (pending.takeWhile fun b => decide (b ≠ lineFeed),
    (pending.dropWhile fun b => decide (b ≠ lineFeed)).drop 1)

theorem partitionLine_line {l q : Bytes} (h : lineFeed ∉ l) :
    partitionLine (l ++ lineFeed :: q) = (l, q) := by
  have hline : ∀ b ∈ l, decide (b ≠ lineFeed) = true := fun b hb =>
    decide_eq_true fun heq => h (heq ▸ hb)
  rw [partitionLine, List.takeWhile_append_of_pos hline, List.dropWhile_append_of_pos hline]
  simp

theorem length_partitionLine {pending : Bytes} (h : lineFeed ∈ pending) :
    (partitionLine pending).2.length < pending.length := by
  obtain ⟨l, q, rfl, hl⟩ := List.eq_append_cons_of_mem h
  rw [partitionLine_line hl, List.length_append, List.length_cons]
  dsimp only
  omega

/-- The lines that are there: what `on_event` is called with, and the bytes that still wait for a
line end. -/
def drain (rt : Runtime) (pending : Bytes) : List WatchEvent × Except Stop Bytes :=
  if h : lineFeed ∈ pending then
    let raw := (partitionLine pending).1
    let remainder := (partitionLine pending).2
    have : remainder.length < pending.length := length_partitionLine h
    if isBlankLine raw then drain rt remainder
    else if maxWatchLineBytes < raw.length then ([], .error .lineBound)
    else
      match readEvent rt raw with
      | .error fault => ([], .error (.unsafeLine fault))
      | .ok event =>
          let rest := drain rt remainder
          (event :: rest.1, rest.2)
  else ([], .ok pending)
termination_by pending.length

/-- The loop over the reads: what `on_event` is called with, and how it ends. -/
def readLoop (rt : Runtime) (pending : Bytes) : List Bytes → List WatchEvent × Outcome
  | [] => ([], if isBlankLine pending then .ended else .incomplete)
  | chunk :: reads =>
      let pending := pending ++ chunk
      if maxWatchLineBytes < pending.length ∧ lineFeed ∉ pending then ([], .stopped .lineBound)
      else
        match drain rt pending with
        | (events, .error stop) => (events, .stopped stop)
        | (events, .ok pending) =>
            let rest := readLoop rt pending reads
            (events ++ rest.1, rest.2)

/-- Ways in which a stream may be read. -/
structure Splits (stream : Bytes) (reads : List Bytes) : Prop where
  flatten : reads.flatten = stream
  bounded : ∀ chunk ∈ reads, chunk ≠ [] ∧ chunk.length ≤ readBytes

/-! ## Delivered events -/

/-- The event claims neither real-time protection nor enforcement before access. -/
def Modest (event : WatchEvent) : Prop :=
  field event "policy" = .null ∨ ∃ policy, field event "policy" = .obj policy ∧
    field policy "real_time_protection" = .bool false ∧
    field policy "pre_access_enforcement" = .bool false

theorem modest_of_validateWatchEvent {payload : Json} {event : WatchEvent}
    (h : validateWatchEvent payload = .ok event) : Modest event := by
  simp only [validateWatchEvent, bind_eq_ok] at h
  obtain ⟨root, -, _, -, _, -, _, -, _, -, _, -, _, -, _, -, _, -, _, hpolicy, h⟩ := h
  cases h
  rcases unlessNull_eq_ok.1 hpolicy with hnull | ⟨_, hpolicy⟩
  · exact .inl hnull
  · simp only [checkPolicy, bind_eq_ok, object_eq_ok, mustBeFalse_eq_ok] at hpolicy
    obtain ⟨policy, hmembers, -, hprotection, haccess⟩ := hpolicy
    exact .inr ⟨policy, hmembers, hprotection, haccess⟩

theorem modest_of_readEvent {rt : Runtime} {raw : Bytes} {event : WatchEvent}
    (h : readEvent rt raw = .ok event) : Modest event := by
  obtain ⟨_, -, h⟩ := bind_eq_ok.1 h
  obtain ⟨value, -, h⟩ := bind_eq_ok.1 h
  split at h
  · cases h
  · cases h
  · rename_i hvalid
    cases h
    exact modest_of_validateWatchEvent hvalid

theorem modest_drain (rt : Runtime) (pending : Bytes) :
    ∀ event ∈ (drain rt pending).1, Modest event := by
  fun_induction drain rt pending with
  | case1 pending h raw remainder hless hblank ih => exact ih
  | case2 pending h raw remainder hless hblank hlong => exact List.forall_mem_nil _
  | case3 pending h raw remainder hless hblank hlong fault hread => exact List.forall_mem_nil _
  | case4 pending h raw remainder hless hblank hlong event hread rest ih =>
      exact List.forall_mem_cons.2 ⟨modest_of_readEvent hread, ih⟩
  | case5 pending h => exact List.forall_mem_nil _

/-- No event that is delivered claims more protection than there is. -/
theorem modest_readLoop (rt : Runtime) (reads : List Bytes) :
    ∀ pending, ∀ event ∈ (readLoop rt pending reads).1, Modest event := by
  induction reads with
  | nil => exact fun _ => List.forall_mem_nil _
  | cons chunk reads ih =>
      intro pending
      unfold readLoop
      have hdrain := modest_drain rt (pending ++ chunk)
      dsimp only
      split
      · exact List.forall_mem_nil _
      · split
        · rename_i hevents
          rw [hevents] at hdrain
          exact hdrain
        · rename_i hevents
          rw [hevents] at hdrain
          exact List.forall_mem_append.2 ⟨hdrain, ih _⟩

/-! ## When reads make no difference -/

/-- The length from which a blank line is refused whatever the reads are. -/
def blankBound : Nat := maxWatchLineBytes + readBytes

/-- No event comes of the lines, and a line or the unfinished end exceeds the bound however it is
read. -/
def EndsAtBound : List Bytes → Prop
  | [] => False
  | [last] => maxWatchLineBytes < last.length
  | line :: next :: rest =>
      if isBlankLine line then blankBound ≤ line.length ∨ EndsAtBound (next :: rest)
      else maxWatchLineBytes < line.length

/-- Every blank line between the bounds that is reached has nothing to deliver behind it. -/
def Settled (rt : Runtime) : List Bytes → Prop
  | [] => True
  | [_] => True
  | line :: next :: rest =>
      if isBlankLine line then
        if line.length ≤ maxWatchLineBytes then Settled rt (next :: rest)
        else line.length < blankBound → EndsAtBound (next :: rest)
      else line.length ≤ maxWatchLineBytes → (∃ event, readEvent rt line = .ok event) →
        Settled rt (next :: rest)

/-- What the loop does if every blank line above the bound is refused. -/
def expected (rt : Runtime) : List Bytes → List WatchEvent × Outcome
  | [] => ([], .ended)
  | [last] =>
      if maxWatchLineBytes < last.length then ([], .stopped .lineBound)
      else ([], if isBlankLine last then .ended else .incomplete)
  | line :: next :: rest =>
      if maxWatchLineBytes < line.length then ([], .stopped .lineBound)
      else if isBlankLine line then expected rt (next :: rest)
      else
        match readEvent rt line with
        | .error fault => ([], .stopped (.unsafeLine fault))
        | .ok event =>
            let behind := expected rt (next :: rest)
            (event :: behind.1, behind.2)

/-! ## Lines -/

section Lines

variable {rt : Runtime} {l q p s : Bytes} {reads : List Bytes}

/-- A stream has a first line, or what is unfinished. -/
theorem exists_splitOn (s : Bytes) : ∃ next rest, s.splitOn lineFeed = next :: rest :=
  List.exists_cons_of_ne_nil (List.splitOn_ne_nil lineFeed s)

/-- Bytes without a line end begin the first line. -/
theorem splitOn_front (h : lineFeed ∉ p) (s : Bytes) :
    ∃ next rest, (p ++ s).splitOn lineFeed = (p ++ next) :: rest := by
  by_cases hs : lineFeed ∈ s
  · obtain ⟨l, q, rfl, hl⟩ := List.eq_append_cons_of_mem hs
    have hboth : lineFeed ∉ p ++ l := fun hmem => (List.mem_append.1 hmem).elim h hl
    refine ⟨l, q.splitOn lineFeed, ?_⟩
    rw [← List.append_assoc, List.splitOn_append_cons_self_of_not_mem hboth]
  · have hboth : lineFeed ∉ p ++ s := fun hmem => (List.mem_append.1 hmem).elim h hs
    exact ⟨s, [], List.splitOn_eq_singleton hboth⟩

theorem expected_long {line : Bytes} (h : maxWatchLineBytes < line.length) (rest : List Bytes) :
    expected rt (line :: rest) = ([], .stopped .lineBound) := by
  cases rest with
  | nil => rw [expected, if_pos h]
  | cons next rest => rw [expected, if_pos h]

/-- The loop behind a read. -/
def resume (rt : Runtime) (pending : Bytes) (reads : List Bytes) : List WatchEvent × Outcome :=
  match drain rt pending with
  | (events, .error stop) => (events, .stopped stop)
  | (events, .ok pending) =>
      (events ++ (readLoop rt pending reads).1, (readLoop rt pending reads).2)

theorem readLoop_cons (pending chunk : Bytes) (reads : List Bytes) :
    readLoop rt pending (chunk :: reads) =
      if maxWatchLineBytes < (pending ++ chunk).length ∧ lineFeed ∉ pending ++ chunk then
        ([], .stopped .lineBound)
      else resume rt (pending ++ chunk) reads := rfl

theorem drain_line (h : lineFeed ∉ l) (q : Bytes) : drain rt (l ++ lineFeed :: q) =
    if isBlankLine l then drain rt q
    else if maxWatchLineBytes < l.length then ([], .error .lineBound)
    else
      match readEvent rt l with
      | .error fault => ([], .error (.unsafeLine fault))
      | .ok event => (event :: (drain rt q).1, (drain rt q).2) := by
  have hmem : lineFeed ∈ l ++ lineFeed :: q := List.mem_append_right _ List.mem_cons_self
  rw [drain, dif_pos hmem]
  simp only [partitionLine_line h]

theorem resume_unfinished (h : lineFeed ∉ p) (reads : List Bytes) :
    resume rt p reads = readLoop rt p reads := by
  rw [resume, drain, dif_neg h]
  rfl

theorem resume_blank (h : lineFeed ∉ l) (hblank : isBlankLine l = true) (q : Bytes)
    (reads : List Bytes) : resume rt (l ++ lineFeed :: q) reads = resume rt q reads := by
  rw [resume, drain_line h, if_pos hblank]
  rfl

theorem resume_long (h : lineFeed ∉ l) (hblank : ¬ isBlankLine l = true)
    (hlong : maxWatchLineBytes < l.length) (q : Bytes) (reads : List Bytes) :
    resume rt (l ++ lineFeed :: q) reads = ([], .stopped .lineBound) := by
  rw [resume, drain_line h, if_neg hblank, if_pos hlong]

theorem resume_fault (h : lineFeed ∉ l) (hblank : ¬ isBlankLine l = true)
    (hshort : ¬ maxWatchLineBytes < l.length) {fault : LineFault}
    (hread : readEvent rt l = .error fault) (q : Bytes) (reads : List Bytes) :
    resume rt (l ++ lineFeed :: q) reads = ([], .stopped (.unsafeLine fault)) := by
  rw [resume, drain_line h, if_neg hblank, if_neg hshort, hread]

theorem resume_event (h : lineFeed ∉ l) (hblank : ¬ isBlankLine l = true)
    (hshort : ¬ maxWatchLineBytes < l.length) {event : WatchEvent}
    (hread : readEvent rt l = .ok event) (q : Bytes) (reads : List Bytes) :
    resume rt (l ++ lineFeed :: q) reads =
      (event :: (resume rt q reads).1, (resume rt q reads).2) := by
  rw [resume, drain_line h, if_neg hblank, if_neg hshort, hread, resume]
  dsimp only
  cases drain rt q with
  | mk events result => cases result <;> rfl

/-! ## Reads that make no difference -/

theorem settled_of_endsAtBound {pieces : List Bytes} (h : EndsAtBound pieces) :
    Settled rt pieces := by
  fun_induction EndsAtBound pieces with
  | case1 => trivial
  | case2 last => trivial
  | case3 line next rest hblank ih =>
      rw [Settled, if_pos hblank]
      split
      · rename_i hshort
        refine ih (h.resolve_left ?_)
        rw [blankBound, readBytes]
        omega
      · exact fun hbound => h.resolve_left (by omega)
  | case4 line next rest hblank =>
      rw [Settled, if_neg hblank]
      exact fun hshort => absurd h (by omega)

theorem expected_of_endsAtBound {pieces : List Bytes} (h : EndsAtBound pieces) :
    expected rt pieces = ([], .stopped .lineBound) := by
  fun_induction EndsAtBound pieces with
  | case1 => cases h
  | case2 last => exact expected_long h []
  | case3 line next rest hblank ih =>
      by_cases hlong : maxWatchLineBytes < line.length
      · exact expected_long hlong _
      · rw [expected, if_neg hlong, if_pos hblank]
        refine ih (h.resolve_left ?_)
        rw [blankBound, readBytes]
        omega
  | case4 line next rest hblank => exact expected_long h _

/-- The lines that come with a read.  The read is `b`, behind the bytes `a` that have waited; the
induction is on what is left of it behind each line. -/
theorem resume_settled {s : Bytes} {reads : List Bytes}
    (hreads : ∀ p, lineFeed ∉ p → p.length ≤ maxWatchLineBytes →
      Settled rt ((p ++ s).splitOn lineFeed) →
      readLoop rt p reads = expected rt ((p ++ s).splitOn lineFeed)) (a b : Bytes)
    (hread : b.length ≤ readBytes) (ha : lineFeed ∉ a) (hwaited : a.length ≤ maxWatchLineBytes)
    (hline : lineFeed ∈ b ∨ (a ++ b).length ≤ maxWatchLineBytes)
    (h : Settled rt ((a ++ b ++ s).splitOn lineFeed)) :
    resume rt (a ++ b) reads = expected rt ((a ++ b ++ s).splitOn lineFeed) := by
  induction hn : b.length using Nat.strongRecOn generalizing a b with
  | ind n ih =>
      by_cases hb : lineFeed ∈ b
      · obtain ⟨l, q, rfl, hl⟩ := List.eq_append_cons_of_mem hb
        have hfree : lineFeed ∉ a ++ l := fun hmem => (List.mem_append.1 hmem).elim ha hl
        have hsplit : a ++ (l ++ lineFeed :: q) ++ s = (a ++ l) ++ lineFeed :: (q ++ s) := by simp
        have hresume : a ++ (l ++ lineFeed :: q) = (a ++ l) ++ lineFeed :: q := by simp
        rw [List.length_append, List.length_cons] at hread hn
        have hbound : (a ++ l).length < blankBound := by
          rw [List.length_append, blankBound]
          omega
        obtain ⟨next, rest, hpieces⟩ := exists_splitOn (q ++ s)
        rw [hsplit, List.splitOn_append_cons_self_of_not_mem hfree, hpieces] at h ⊢
        rw [hresume]
        have hbehind (hsettled : Settled rt (next :: rest)) :
            resume rt q reads = expected rt (next :: rest) := by
          have hq := ih q.length (by omega) [] q (by omega) List.not_mem_nil (by simp)
            (.inr (by rw [List.nil_append, maxWatchLineBytes]; rw [readBytes] at hread; omega))
          rw [List.nil_append, hpieces] at hq
          exact hq hsettled rfl
        by_cases hblank : isBlankLine (a ++ l) = true
        · rw [resume_blank hfree hblank]
          rw [Settled, if_pos hblank] at h
          by_cases hshort : (a ++ l).length ≤ maxWatchLineBytes
          · rw [if_pos hshort] at h
            rw [hbehind h, expected, if_neg (Nat.not_lt.2 hshort), if_pos hblank]
          · rw [if_neg hshort] at h
            have hends := h hbound
            rw [hbehind (settled_of_endsAtBound hends), expected_of_endsAtBound hends,
              expected_long (Nat.lt_of_not_le hshort)]
        · by_cases hlong : maxWatchLineBytes < (a ++ l).length
          · rw [resume_long hfree hblank hlong, expected_long hlong]
          · rw [Settled, if_neg hblank] at h
            rw [expected, if_neg hlong, if_neg hblank]
            cases hevent : readEvent rt (a ++ l) with
            | error fault => rw [resume_fault hfree hblank hlong hevent]
            | ok event =>
                rw [resume_event hfree hblank hlong hevent,
                  hbehind (h (Nat.le_of_not_lt hlong) ⟨event, hevent⟩)]
      · have hfree : lineFeed ∉ a ++ b := fun hmem => (List.mem_append.1 hmem).elim ha hb
        rw [resume_unfinished hfree]
        exact hreads (a ++ b) hfree (hline.resolve_left hb) h

/-- The loop does what is expected, whatever the reads are. -/
theorem readLoop_settled {reads : List Bytes} (hreads : ∀ chunk ∈ reads, chunk.length ≤ readBytes) :
    ∀ p, lineFeed ∉ p → p.length ≤ maxWatchLineBytes →
      Settled rt ((p ++ reads.flatten).splitOn lineFeed) →
      readLoop rt p reads = expected rt ((p ++ reads.flatten).splitOn lineFeed) := by
  induction reads with
  | nil =>
      intro p hp hlength _
      rw [List.flatten_nil, List.append_nil, List.splitOn_eq_singleton hp, expected,
        if_neg (Nat.not_lt.2 hlength)]
      rfl
  | cons chunk reads ih =>
      intro p hp hlength h
      obtain ⟨hchunk, hreads⟩ := List.forall_mem_cons.1 hreads
      rw [List.flatten_cons, ← List.append_assoc] at h ⊢
      rw [readLoop_cons]
      split
      · rename_i hlong
        obtain ⟨next, rest, hpieces⟩ := splitOn_front hlong.2 reads.flatten
        rw [hpieces, expected_long]
        rw [List.length_append]
        omega
      · rename_i hshort
        refine resume_settled (ih hreads) p chunk hchunk hp hlength ?_ h
        by_contra hnone
        rw [not_or] at hnone
        refine hshort ⟨Nat.lt_of_not_le hnone.2, fun hmem => ?_⟩
        exact (List.mem_append.1 hmem).elim hp hnone.1

theorem readLoop_of_splits (hreads : Splits s reads) (h : Settled rt (s.splitOn lineFeed)) :
    readLoop rt [] reads = expected rt (s.splitOn lineFeed) := by
  obtain ⟨rfl, hbounded⟩ := hreads
  exact readLoop_settled (fun chunk hchunk => (hbounded chunk hchunk).2) [] List.not_mem_nil
    (Nat.zero_le _) h

/-! ## Reads that make a difference -/

/-- Reads without a line end within the bound are collected. -/
theorem readLoop_waiting {waiting : List Bytes} : ∀ {p : Bytes},
    lineFeed ∉ p ++ waiting.flatten → (p ++ waiting.flatten).length ≤ maxWatchLineBytes →
    ∀ reads, readLoop rt p (waiting ++ reads) = readLoop rt (p ++ waiting.flatten) reads := by
  induction waiting with
  | nil =>
      intro p _ _ reads
      rw [List.nil_append, List.flatten_nil, List.append_nil]
  | cons chunk waiting ih =>
      intro p hfree hlength reads
      rw [List.flatten_cons, ← List.append_assoc] at hfree hlength ⊢
      have hchunk : lineFeed ∉ p ++ chunk := fun hmem => hfree (List.mem_append_left _ hmem)
      have hshort : ¬ maxWatchLineBytes < (p ++ chunk).length := by
        rw [List.length_append] at hlength
        omega
      rw [List.cons_append, readLoop_cons, if_neg fun hlong => hshort hlong.1,
        resume_unfinished hchunk]
      exact ih hfree hlength reads

/-- Reads of one byte. -/
def bytewise (s : Bytes) : List Bytes := s.map fun b => [b]

theorem flatten_bytewise (s : Bytes) : (bytewise s).flatten = s := by
  rw [bytewise, ← List.flatMap_def, List.flatMap_singleton']

theorem splits_bytewise (s : Bytes) : Splits s (bytewise s) := by
  refine ⟨flatten_bytewise s, fun chunk hchunk => ?_⟩
  obtain ⟨b, -, rfl⟩ := List.mem_map.1 hchunk
  exact ⟨List.cons_ne_nil b [], by rw [List.length_singleton, readBytes]; omega⟩

/-- A line that is read byte by byte as far as the bound, and then to its end. -/
def lineReads (l : Bytes) : List Bytes :=
  bytewise (l.take maxWatchLineBytes) ++ [l.drop maxWatchLineBytes ++ [lineFeed]]

theorem splits_lineReads (hl : l.length < blankBound) {reads : List Bytes} (h : Splits q reads) :
    Splits (l ++ lineFeed :: q) (lineReads l ++ reads) := by
  constructor
  · rw [lineReads, List.flatten_append, List.flatten_append, flatten_bytewise, h.flatten,
      List.flatten_singleton, ← List.append_assoc, List.take_append_drop, List.append_assoc]
    rfl
  · intro chunk hchunk
    rcases List.mem_append.1 hchunk with hchunk | hchunk
    · rcases List.mem_append.1 hchunk with hchunk | hchunk
      · exact (splits_bytewise _).bounded chunk hchunk
      · cases List.mem_singleton.1 hchunk
        refine ⟨by simp, ?_⟩
        rw [List.length_append, List.length_drop, List.length_singleton]
        rw [blankBound, readBytes] at hl
        rw [readBytes]
        omega
    · exact h.bounded chunk hchunk

/-- The line is there at once behind its last read. -/
theorem readLoop_lineReads (hl : lineFeed ∉ l) (reads : List Bytes) :
    readLoop rt [] (lineReads l ++ reads) = resume rt (l ++ lineFeed :: []) reads := by
  have hfree : lineFeed ∉ [] ++ (bytewise (l.take maxWatchLineBytes)).flatten := by
    rw [List.nil_append, flatten_bytewise]
    exact fun hmem => hl (List.mem_of_mem_take hmem)
  have hlength :
      ([] ++ (bytewise (l.take maxWatchLineBytes)).flatten).length ≤ maxWatchLineBytes := by
    rw [List.nil_append, flatten_bytewise]
    exact List.length_take_le _ _
  have hall : l.take maxWatchLineBytes ++ (l.drop maxWatchLineBytes ++ [lineFeed]) =
      l ++ [lineFeed] := by
    rw [← List.append_assoc, List.take_append_drop]
  rw [lineReads, List.append_assoc, readLoop_waiting hfree hlength, List.nil_append,
    flatten_bytewise, List.singleton_append, readLoop_cons, hall, if_neg]
  exact fun hlong => hlong.2 (List.mem_append_right _ List.mem_cons_self)

/-- A long line is refused if it is read byte by byte. -/
theorem readLoop_bytewise_long (hl : lineFeed ∉ l) (hlong : maxWatchLineBytes < l.length)
    (s : Bytes) : readLoop rt [] (bytewise (l ++ s)) = ([], .stopped .lineBound) := by
  have hsplit : l ++ s = l.take maxWatchLineBytes ++
      l[maxWatchLineBytes] :: (l.drop (maxWatchLineBytes + 1) ++ s) := by
    rw [← List.cons_append, List.getElem_cons_drop, ← List.append_assoc, List.take_append_drop]
  have hfree : lineFeed ∉ [] ++ (bytewise (l.take maxWatchLineBytes)).flatten := by
    rw [List.nil_append, flatten_bytewise]
    exact fun hmem => hl (List.mem_of_mem_take hmem)
  have hlength :
      ([] ++ (bytewise (l.take maxWatchLineBytes)).flatten).length = maxWatchLineBytes := by
    rw [List.nil_append, flatten_bytewise, List.length_take]
    omega
  have hreads : bytewise (l ++ s) = bytewise (l.take maxWatchLineBytes) ++
      [l[maxWatchLineBytes]] :: bytewise (l.drop (maxWatchLineBytes + 1) ++ s) := by
    rw [hsplit, bytewise, List.map_append, List.map_cons]
    rfl
  rw [hreads, readLoop_waiting hfree hlength.le, readLoop_cons, if_pos]
  refine ⟨?_, ?_⟩
  · rw [List.length_append, hlength, List.length_singleton]
    omega
  · rw [List.nil_append, flatten_bytewise]
    intro hmem
    rcases List.mem_append.1 hmem with hmem | hmem
    · exact hl (List.mem_of_mem_take hmem)
    · exact hl (List.mem_singleton.1 hmem ▸ List.getElem_mem hlong)

/-- A stream that does not end at the bound is read to another end. -/
theorem exists_reads_of_not_endsAtBound (s : Bytes) :
    ¬ EndsAtBound (s.splitOn lineFeed) →
      ∃ reads, Splits s reads ∧ readLoop rt [] reads ≠ ([], .stopped .lineBound) := by
  induction hn : s.length using Nat.strongRecOn generalizing s with
  | ind n ih =>
      intro h
      by_cases hs : lineFeed ∈ s
      · obtain ⟨l, q, rfl, hl⟩ := List.eq_append_cons_of_mem hs
        obtain ⟨next, rest, hpieces⟩ := exists_splitOn q
        rw [List.splitOn_append_cons_self_of_not_mem hl, hpieces, EndsAtBound] at h
        rw [List.length_append, List.length_cons] at hn
        by_cases hblank : isBlankLine l = true
        · rw [if_pos hblank, not_or, ← hpieces] at h
          obtain ⟨reads, hreads, hother⟩ := ih q.length (by omega) q rfl h.2
          refine ⟨lineReads l ++ reads, splits_lineReads (by omega) hreads, ?_⟩
          rw [readLoop_lineReads hl, resume_blank hl hblank, resume_unfinished List.not_mem_nil]
          exact hother
        · rw [if_neg hblank] at h
          have hshort : l.length < blankBound := by
            rw [blankBound, readBytes]
            omega
          refine ⟨lineReads l ++ bytewise q, splits_lineReads hshort (splits_bytewise q), ?_⟩
          rw [readLoop_lineReads hl]
          cases hevent : readEvent rt l with
          | error fault =>
              rw [resume_fault hl hblank h hevent]
              nofun
          | ok event =>
              rw [resume_event hl hblank h hevent]
              nofun
      · rw [List.splitOn_eq_singleton hs, EndsAtBound] at h
        refine ⟨bytewise s, splits_bytewise s, ?_⟩
        rw [readLoop_of_splits (splits_bytewise s) (by rw [List.splitOn_eq_singleton hs]; trivial),
          List.splitOn_eq_singleton hs, expected, if_neg h]
        split <;> nofun

/-- Two ways of reading that come to different ends. -/
def Diverges (rt : Runtime) (s : Bytes) : Prop :=
  ∃ reads reads', Splits s reads ∧ Splits s reads' ∧ readLoop rt [] reads ≠ readLoop rt [] reads'

theorem diverges_of_not_settled (s : Bytes) :
    ¬ Settled rt (s.splitOn lineFeed) → Diverges rt s := by
  induction hn : s.length using Nat.strongRecOn generalizing s with
  | ind n ih =>
      intro h
      by_cases hs : lineFeed ∈ s
      · obtain ⟨l, q, rfl, hl⟩ := List.eq_append_cons_of_mem hs
        obtain ⟨next, rest, hpieces⟩ := exists_splitOn q
        have hsplit := List.splitOn_append_cons_self_of_not_mem hl q
        rw [hsplit, hpieces, Settled] at h
        rw [List.length_append, List.length_cons] at hn
        by_cases hblank : isBlankLine l = true
        · rw [if_pos hblank] at h
          by_cases hshort : l.length ≤ maxWatchLineBytes
          · rw [if_pos hshort, ← hpieces] at h
            obtain ⟨reads, reads', hreads, hreads', hother⟩ := ih q.length (by omega) q rfl h
            have hbound : l.length < blankBound := by
              rw [blankBound, readBytes]
              omega
            refine ⟨lineReads l ++ reads, lineReads l ++ reads', splits_lineReads hbound hreads,
              splits_lineReads hbound hreads', ?_⟩
            rw [readLoop_lineReads hl, readLoop_lineReads hl, resume_blank hl hblank,
              resume_blank hl hblank, resume_unfinished List.not_mem_nil,
              resume_unfinished List.not_mem_nil]
            exact hother
          · rw [if_neg hshort, Classical.not_imp] at h
            have hends : ¬ EndsAtBound ((l ++ lineFeed :: q).splitOn lineFeed) := by
              rw [hsplit, hpieces, EndsAtBound, if_pos hblank, not_or]
              exact ⟨Nat.not_le.2 h.1, h.2⟩
            obtain ⟨reads, hreads, hother⟩ := exists_reads_of_not_endsAtBound _ hends
            refine ⟨reads, bytewise (l ++ lineFeed :: q), hreads, splits_bytewise _, ?_⟩
            rw [readLoop_bytewise_long hl (Nat.lt_of_not_le hshort)]
            exact hother
        · rw [if_neg hblank, Classical.not_imp, Classical.not_imp, ← hpieces] at h
          obtain ⟨hshort, ⟨event, hevent⟩, hnot⟩ := h
          obtain ⟨reads, reads', hreads, hreads', hother⟩ := ih q.length (by omega) q rfl hnot
          have hbound : l.length < blankBound := by
            rw [blankBound, readBytes]
            omega
          refine ⟨lineReads l ++ reads, lineReads l ++ reads', splits_lineReads hbound hreads,
            splits_lineReads hbound hreads', ?_⟩
          rw [readLoop_lineReads hl, readLoop_lineReads hl,
            resume_event hl hblank (Nat.not_lt.2 hshort) hevent,
            resume_event hl hblank (Nat.not_lt.2 hshort) hevent, resume_unfinished List.not_mem_nil,
            resume_unfinished List.not_mem_nil]
          intro heq
          refine hother (Prod.ext ?_ ?_)
          · exact (List.cons.inj (Prod.mk.inj heq).1).2
          · exact (Prod.mk.inj heq).2
      · rw [List.splitOn_eq_singleton hs] at h
        exact absurd trivial h

end Lines

/-- All ways of reading a stream come to the same events and the same end exactly if no blank line
between the bounds is reached that has something to deliver behind it. -/
theorem readLoop_chunking_iff (rt : Runtime) (stream : Bytes) :
    (∀ reads reads', Splits stream reads → Splits stream reads' →
      readLoop rt [] reads = readLoop rt [] reads') ↔ Settled rt (stream.splitOn lineFeed) := by
  constructor
  · intro hsame
    by_contra hnot
    obtain ⟨reads, reads', hreads, hreads', hother⟩ := diverges_of_not_settled stream hnot
    exact hother (hsame reads reads' hreads hreads')
  · intro h reads reads' hreads hreads'
    rw [readLoop_of_splits hreads h, readLoop_of_splits hreads' h]

/-- Sixty-four whole reads of spaces. -/
def spaceReads : List Bytes := List.replicate 64 (List.replicate readBytes 32)

/-- A line of one space more than the bound is skipped if the last space comes with the line end,
and refused if it does not. -/
theorem readLoop_spaces (rt : Runtime) :
    Splits (List.replicate 4194305 32 ++ [lineFeed]) (spaceReads ++ [[32, lineFeed]]) ∧
      Splits (List.replicate 4194305 32 ++ [lineFeed]) (spaceReads ++ [[32], [lineFeed]]) ∧
      readLoop rt [] (spaceReads ++ [[32, lineFeed]]) = ([], .ended) ∧
      readLoop rt [] (spaceReads ++ [[32], [lineFeed]]) = ([], .stopped .lineBound) := by
  have hflatten : spaceReads.flatten = List.replicate 4194304 32 := by
    rw [spaceReads, List.flatten_replicate_replicate, readBytes]
  have hspaces (n : Nat) : lineFeed ∉ List.replicate n (32 : UInt8) := by
    intro hmem
    exact absurd (List.eq_of_mem_replicate hmem) (by decide)
  have hbounded : ∀ chunk ∈ spaceReads, chunk ≠ [] ∧ chunk.length ≤ readBytes := by
    intro chunk hchunk
    rw [List.eq_of_mem_replicate hchunk, List.length_replicate]
    refine ⟨fun hnil => ?_, le_rfl⟩
    have hlength := congrArg List.length hnil
    rw [List.length_replicate, readBytes] at hlength
    cases hlength
  have hline : List.replicate 4194304 (32 : UInt8) ++ [32] = List.replicate 4194305 32 :=
    List.replicate_succ'.symm
  have hblank : isBlankLine (List.replicate 4194305 32) = true := by
    rw [isBlankLine, List.all_replicate]
    decide
  have hwaiting (reads : List Bytes) : readLoop rt [] (spaceReads ++ reads) =
      readLoop rt (List.replicate 4194304 32) reads := by
    rw [readLoop_waiting, List.nil_append, hflatten]
    · rw [List.nil_append, hflatten]
      exact hspaces _
    · rw [List.nil_append, hflatten, List.length_replicate, maxWatchLineBytes]
  refine ⟨⟨?_, ?_⟩, ⟨?_, ?_⟩, ?_, ?_⟩
  · rw [List.flatten_append, hflatten, ← hline, List.append_assoc]
    rfl
  · intro chunk hchunk
    rcases List.mem_append.1 hchunk with hchunk | hchunk
    · exact hbounded chunk hchunk
    · cases List.mem_singleton.1 hchunk
      exact ⟨nofun, by decide⟩
  · rw [List.flatten_append, hflatten, ← hline, List.append_assoc]
    rfl
  · intro chunk hchunk
    rcases List.mem_append.1 hchunk with hchunk | hchunk
    · exact hbounded chunk hchunk
    · rcases List.mem_cons.1 hchunk with rfl | hchunk
      · exact ⟨nofun, by decide⟩
      · cases List.mem_singleton.1 hchunk
        exact ⟨nofun, by decide⟩
  · have hread : List.replicate 4194304 (32 : UInt8) ++ [32, lineFeed] =
        List.replicate 4194305 32 ++ lineFeed :: [] := by
      rw [← hline, List.append_assoc]
      rfl
    have hend : lineFeed ∈ List.replicate 4194305 (32 : UInt8) ++ lineFeed :: [] :=
      List.mem_append_right _ List.mem_cons_self
    rw [hwaiting, readLoop_cons, hread, if_neg fun hlong => hlong.2 hend,
      resume_blank (hspaces _) hblank, resume_unfinished List.not_mem_nil]
    rfl
  · rw [hwaiting, readLoop_cons, hline, if_pos]
    refine ⟨?_, hspaces _⟩
    rw [List.length_replicate, maxWatchLineBytes]
    omega

/-- The reads make a difference on a line of 4194305 spaces. -/
theorem readLoop_depends_on_reads : ¬ ∀ (rt : Runtime) (stream : Bytes) (reads reads' : List Bytes),
    Splits stream reads → Splits stream reads' → readLoop rt [] reads = readLoop rt [] reads' := by
  intro hsame
  obtain ⟨hreads, hreads', hended, hstopped⟩ := readLoop_spaces usualRuntime
  have heq := hsame usualRuntime _ _ _ hreads hreads'
  rw [hended, hstopped] at heq
  cases heq

end ZsecShield.Desktop
