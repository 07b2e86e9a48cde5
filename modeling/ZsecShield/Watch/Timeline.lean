import ZsecShield.Watch.Conservation
import Mathlib.Order.Monotone.Basic
import Mathlib.Logic.Function.Basic

/-!
# The event queue over time

A timeline says what the threads do with the queue at each moment and what the clock
reads there.  `Turn` lists everything one moment can do to the raw events and to the
pending paths; what holds over a whole run is read off it.
-/

namespace ZsecShield.Watch

open Text (Str)

/-- What a thread does at one moment, while it holds the lock. -/
inductive QueueAction where
  | submit (path : Path) (eventType : EventType) (isDirectory : Bool)
  | ingest
  | due (maximum : Option Nat)
  | clearOverflow

/-- The step at a moment with its clock reading. -/
def QueueAction.at (now : ℚ) (moment : Nat) : QueueAction → QueueStep
  | .submit path eventType isDirectory => .submit now moment path eventType isDirectory
  | .ingest => .ingest
  | .due maximum => .due now maximum
  | .clearOverflow => .clearOverflow

/-- A run of the queue: its constructor's arguments, its clock, and the turns of the
threads. -/
structure Timeline where
  host : Host
  excluded : List Str
  debounceSeconds : ℚ
  maxEvents : Nat
  clock : Nat → ℚ
  monotone : Monotone clock
  action : Nat → QueueAction

namespace DebouncedPathQueue

/-! ## Lookups after an update of the map -/

theorem find_replace {q : DebouncedPathQueue} {key : Str} {p₀ : PendingPath}
    (h : q.find key = some p₀) (p : PendingPath) :
    (q.replace key p).find = Function.update q.find key (some p) := by
  have hall : ∀ entries : List (Str × PendingPath), ∀ k,
      (entries.map fun e => if e.1 = key then (key, p) else e).lookup k =
        if k = key then (entries.lookup key).map fun _ => p else entries.lookup k := by
    intro entries k
    induction entries with
    | nil => simp
    | cons e entries ih =>
        obtain ⟨k', p'⟩ := e
        by_cases hk' : k' = key
        · subst hk'
          by_cases hk : k = k'
          · simp [hk]
          · simp [List.lookup_cons, hk, ih, beq_eq_false_iff_ne.2 hk]
        · by_cases hk : k = key
          · subst hk
            simp [List.lookup_cons, hk', ih, beq_eq_false_iff_ne.2 (Ne.symm hk')]
          · simp only [List.map_cons, hk', if_false, List.lookup_cons, ih, hk]
  funext k
  have hk := hall q.pending k
  change (q.pending.map fun e => if e.1 = key then (key, p) else e).lookup k = _
  rw [hk]
  by_cases hkey : k = key
  · subst hkey
    change q.pending.lookup k = some p₀ at h
    simp [h]
  · simp [hkey, find]

theorem find_enter {q q' : DebouncedPathQueue} {key : Str} {p : PendingPath}
    (h : q.find key = none) (hq : q'.pending = q.pending ++ [(key, p)]) :
    q'.find = Function.update q.find key (some p) := by
  funext k
  change q.pending.lookup key = none at h
  simp only [find, hq, List.lookup_append]
  by_cases hk : k = key
  · subst hk
    simp [h]
  · simp [hk, find, List.lookup_cons, beq_eq_false_iff_ne.2 hk]

theorem find_takeDue (now : ℚ) (maximum : Option Nat) (q : DebouncedPathQueue) (key : Str) :
    (q.takeDue now maximum).2.find key =
      if key ∈ q.dueKeys now maximum then none else q.find key := by
  have hall : ∀ entries : List (Str × PendingPath),
      (entries.filter fun e => e.1 ∉ q.dueKeys now maximum).lookup key =
        if key ∈ q.dueKeys now maximum then none else entries.lookup key := by
    intro entries
    induction entries with
    | nil => simp
    | cons e entries ih =>
        obtain ⟨k, p⟩ := e
        by_cases hk : k ∈ q.dueKeys now maximum
        · have hkeep : decide (k ∉ q.dueKeys now maximum) = false := by simpa using hk
          rw [List.filter_cons_of_neg (by simpa using hk), ih]
          by_cases heq : key = k
          · subst heq
            simp [hk]
          · simp [List.lookup_cons, beq_eq_false_iff_ne.2 heq]
        · rw [List.filter_cons_of_pos (by simpa using hk)]
          by_cases heq : key = k
          · subst heq
            simp [hk]
          · simp only [List.lookup_cons, beq_eq_false_iff_ne.2 heq, ih]
  exact hall q.pending

/-- `due` selects a pending path when its time has come. -/
theorem mem_dueKeys {q : DebouncedPathQueue} {key : Str} {p : PendingPath} {now : ℚ}
    (h : q.find key = some p) (hdue : p.dueAt ≤ now) : key ∈ q.dueKeys now none := by
  simp only [dueKeys, List.mem_insertionSort]
  exact List.mem_map.2 ⟨(key, p), List.mem_filter.2 ⟨mem_of_find h, by simpa using hdue⟩, rfl⟩

theorem find_of_mem_pending {q : DebouncedPathQueue} (h : q.keys.Nodup) {key : Str}
    {p : PendingPath} (hmem : (key, p) ∈ q.pending) : q.find key = some p := by
  have hkey : key ∈ q.keys := List.mem_map_of_mem hmem
  obtain ⟨p', hp'⟩ := find_of_mem hkey
  have heq : ((key, p') : Str × PendingPath) = (key, p) :=
    List.inj_on_of_nodup_map h (mem_of_find hp') hmem rfl
  cases heq
  exact hp'

/-- The time of a selected path has come. -/
theorem find_of_mem_dueKeys {q : DebouncedPathQueue} (h : q.keys.Nodup) {now : ℚ}
    {maximum : Option Nat} {key : Str} (hdue : key ∈ q.dueKeys now maximum) :
    ∃ p, q.find key = some p ∧ p.dueAt ≤ now := by
  have hall : key ∈ q.dueKeys now none := by
    cases maximum with
    | none => exact hdue
    | some m => exact List.mem_of_mem_take hdue
  simp only [dueKeys, List.mem_insertionSort] at hall
  obtain ⟨e, he, rfl⟩ := List.mem_map.1 hall
  obtain ⟨hmem, hnow⟩ := List.mem_filter.1 he
  exact ⟨e.2, find_of_mem_pending h hmem, by simpa using hnow⟩

theorem mem_taken {q : DebouncedPathQueue} {now : ℚ} {maximum : Option Nat} {key : Str}
    {p : PendingPath} :
    (key, p) ∈ q.taken now maximum ↔ key ∈ q.dueKeys now maximum ∧ q.find key = some p := by
  simp only [taken, List.mem_filterMap, Option.map_eq_some_iff, Prod.mk.injEq]
  constructor
  · rintro ⟨key', hkey', p', hp', rfl, rfl⟩
    exact ⟨hkey', hp'⟩
  · rintro ⟨hkey, hp⟩
    exact ⟨key, hkey, p, hp, rfl, rfl⟩

end DebouncedPathQueue

namespace Timeline

open DebouncedPathQueue QueueRun

variable (τ : Timeline)

/-- The run before moment `n`. -/
def run : Nat → QueueRun
  | 0 => .start τ.excluded τ.debounceSeconds τ.maxEvents
  | n + 1 => (run n).step τ.host ((τ.action n).at (τ.clock n) n)

/-- The queue at moment `n`. -/
def queue (n : Nat) : DebouncedPathQueue := (τ.run n).queue

theorem sound (n : Nat) : (τ.run n).Sound := by
  induction n with
  | zero => exact sound_start _ _ _
  | succ n ih => exact sound_step ih τ.host _

theorem maxEvents_queue (n : Nat) : (τ.queue n).maxEvents = τ.maxEvents := by
  induction n with
  | zero => rfl
  | succ n ih => exact (maxEvents_step τ.host _).trans ih

/-- What the constructor fixed. -/
structure Settings (q : DebouncedPathQueue) : Prop where
  excluded : q.excluded = τ.excluded
  debounceSeconds : q.debounceSeconds = τ.debounceSeconds
  maxCoalesceSeconds : q.maxCoalesceSeconds = max 2 τ.debounceSeconds

theorem settings (n : Nat) : τ.Settings (τ.queue n) := by
  induction n with
  | zero => exact ⟨rfl, rfl, rfl⟩
  | succ n ih =>
      simp only [queue, run]
      obtain ⟨hexcluded, hdebounce, hcoalesce⟩ := ih
      cases haction : τ.action n with
      | submit path eventType isDirectory =>
          simp only [QueueAction.at, step, moved]
          rcases submit_cases τ.host (τ.clock n) n path eventType isDirectory (τ.run n).queue with
            heq | ⟨key, p, heq⟩ | heq | ⟨event, -, heq⟩ <;> rw [heq] <;>
            exact ⟨hexcluded, hdebounce, hcoalesce⟩
      | ingest =>
          simp only [QueueAction.at, step]
          split
          · exact ⟨hexcluded, hdebounce, hcoalesce⟩
          · rename_i q hq
            obtain ⟨event, rest, -, ⟨-, rfl⟩ | ⟨key, p, -, rfl⟩ | ⟨key, p, rfl⟩⟩ :=
              ingestOne_cases hq <;> exact ⟨hexcluded, hdebounce, hcoalesce⟩
      | due maximum => exact ⟨hexcluded, hdebounce, hcoalesce⟩
      | clearOverflow => exact ⟨hexcluded, hdebounce, hcoalesce⟩

/-- A path under none of the excluded ones. -/
def Watched (key : Str) : Prop := τ.excluded.any (τ.host.isWithin key) = false

/-- The pending path of a key after an event that was observed at moment `i`. -/
def merge (eventType : EventType) (observedAt : ℚ) (i : Nat) (p : PendingPath) : PendingPath :=
  { p with
    eventTypes := if eventType ∈ p.eventTypes then p.eventTypes else p.eventTypes ++ [eventType]
    dueAt := if eventType.immediate then observedAt
      else min (observedAt + τ.debounceSeconds) (p.firstSeenAt + max 2 τ.debounceSeconds)
    lastSubmitted := max p.lastSubmitted i }

theorem coalesce_eq (n : Nat) (eventType : EventType) (now : ℚ) (i : Nat) (p : PendingPath) :
    (τ.queue n).coalesce eventType now i p = τ.merge eventType now i p := by
  obtain ⟨-, hdebounce, hcoalesce⟩ := τ.settings n
  simp only [coalesce, dueAfter, merge, hdebounce, hcoalesce]

/-- Everything that can happen at moment `n` to the raw events and the pending paths. -/
inductive Turn (n : Nat) : Prop where
  | idle
      (haction : ∀ path eventType isDirectory, τ.action n = .submit path eventType isDirectory →
        ¬ τ.Watched (τ.host.pathKey path))
      (hdue : ∀ maximum, τ.action n ≠ .due maximum)
      (hqueue : (τ.queue (n + 1)).queue = (τ.queue n).queue)
      (hfind : (τ.queue (n + 1)).find = (τ.queue n).find)
  | coalesced (path : Path) (eventType : EventType) (isDirectory : Bool) (p : PendingPath)
      (haction : τ.action n = .submit path eventType isDirectory)
      (hwatched : τ.Watched (τ.host.pathKey path))
      (hp : (τ.queue n).find (τ.host.pathKey path) = some p)
      (hqueue : (τ.queue (n + 1)).queue = (τ.queue n).queue)
      (hfind : (τ.queue (n + 1)).find = Function.update (τ.queue n).find (τ.host.pathKey path)
        (some (τ.merge eventType (τ.clock n) n p)))
  | dropped (path : Path) (eventType : EventType) (isDirectory : Bool)
      (haction : τ.action n = .submit path eventType isDirectory)
      (hwatched : τ.Watched (τ.host.pathKey path))
      (hnone : (τ.queue n).find (τ.host.pathKey path) = none)
      (hfull : τ.maxEvents ≤ (τ.queue n).pending.length + (τ.queue n).queue.length)
      (hqueue : (τ.queue (n + 1)).queue = (τ.queue n).queue)
      (hfind : (τ.queue (n + 1)).find = (τ.queue n).find)
  | queued (path : Path) (eventType : EventType) (isDirectory : Bool)
      (haction : τ.action n = .submit path eventType isDirectory)
      (hwatched : τ.Watched (τ.host.pathKey path))
      (hnone : (τ.queue n).find (τ.host.pathKey path) = none)
      (hqueue : (τ.queue (n + 1)).queue =
        (τ.queue n).queue ++ [⟨path, eventType, isDirectory, τ.clock n, n⟩])
      (hfind : (τ.queue (n + 1)).find = (τ.queue n).find)
  | entered (event : QueuedPathEvent) (rest : List QueuedPathEvent)
      (haction : τ.action n = .ingest)
      (hevent : (τ.queue n).queue = event :: rest)
      (hnone : (τ.queue n).find (τ.host.pathKey event.path) = none)
      (hqueue : (τ.queue (n + 1)).queue = rest)
      (hfind : (τ.queue (n + 1)).find = Function.update (τ.queue n).find
        (τ.host.pathKey event.path) (some (τ.merge event.eventType event.observedAt event.stamp
          ⟨event.path, [], event.observedAt, 0, event.stamp⟩)))
  | merged (event : QueuedPathEvent) (rest : List QueuedPathEvent) (p : PendingPath)
      (haction : τ.action n = .ingest)
      (hevent : (τ.queue n).queue = event :: rest)
      (hp : (τ.queue n).find (τ.host.pathKey event.path) = some p)
      (hqueue : (τ.queue (n + 1)).queue = rest)
      (hfind : (τ.queue (n + 1)).find = Function.update (τ.queue n).find
        (τ.host.pathKey event.path)
          (some (τ.merge event.eventType event.observedAt event.stamp p)))
  | taken (maximum : Option Nat)
      (haction : τ.action n = .due maximum)
      (hqueue : (τ.queue (n + 1)).queue = (τ.queue n).queue)
      (hfind : ∀ key, (τ.queue (n + 1)).find key =
        if key ∈ (τ.queue n).dueKeys (τ.clock n) maximum then none else (τ.queue n).find key)

theorem turn_submit {n : Nat} {path : Path} {eventType : EventType} {isDirectory : Bool}
    (haction : τ.action n = .submit path eventType isDirectory) : τ.Turn n := by
  have hnext : τ.queue (n + 1) =
      (τ.queue n).submit τ.host (τ.clock n) n path eventType isDirectory := by
    simp only [queue, run, haction, QueueAction.at, step, moved]
  have hexcluded : (τ.queue n).excluded = τ.excluded := (τ.settings n).excluded
  have hmax : (τ.queue n).maxEvents = τ.maxEvents := τ.maxEvents_queue n
  unfold submit at hnext
  simp only [hexcluded, hmax] at hnext
  split at hnext
  · rename_i hout
    refine .idle (fun path' eventType' isDirectory' haction' hwatched => ?_)
      (fun maximum hdue => ?_) ?_ ?_
    · cases haction.symm.trans haction'
      rw [Watched, hout] at hwatched
      cases hwatched
    · cases haction.symm.trans hdue
    · rw [hnext]
    · rw [hnext]
      rfl
  · rename_i hin
    have hwatched : τ.Watched (τ.host.pathKey path) := Bool.eq_false_of_not_eq_true hin
    split at hnext
    · rename_i p hp
      refine .coalesced path eventType isDirectory p haction hwatched hp ?_ ?_
      · rw [hnext]
        rfl
      · rw [hnext, ← τ.coalesce_eq n]
        exact find_replace hp _
    · rename_i hnone
      split at hnext
      · rename_i hfull
        refine .dropped path eventType isDirectory haction hwatched hnone hfull ?_ ?_
        · rw [hnext]
          rfl
        · rw [hnext]
          rfl
      · rename_i hroom
        split at hnext
        · rename_i hfull
          exact absurd (hfull.trans (Nat.le_add_left _ _)) hroom
        · refine .queued path eventType isDirectory haction hwatched hnone ?_ ?_
          · rw [hnext]
          · rw [hnext]
            rfl

theorem turn_ingest {n : Nat} (haction : τ.action n = .ingest) : τ.Turn n := by
  have hnext : τ.queue (n + 1) = ((τ.queue n).ingestOne τ.host).getD (τ.queue n) := by
    simp only [queue, run, haction, QueueAction.at, step]
    split
    · rename_i hq
      rw [hq]
      rfl
    · rename_i q hq
      rw [hq]
      rfl
  cases hevent : (τ.queue n).queue with
  | nil =>
      have hnone : (τ.queue n).ingestOne τ.host = none := by
        unfold ingestOne
        rw [hevent]
      rw [hnone, Option.getD_none] at hnext
      refine .idle (fun path eventType isDirectory h => ?_) (fun maximum hdue => ?_) ?_ ?_
      · cases haction.symm.trans h
      · cases haction.symm.trans hdue
      · rw [hnext]
      · rw [hnext]
  | cons event rest =>
      have hroom : (τ.queue n).pending.length + rest.length < (τ.queue n).maxEvents :=
        room_of_sound (τ.sound n) hevent
      unfold ingestOne at hnext
      rw [hevent] at hnext
      simp only at hnext
      split at hnext
      · rename_i hnone
        rw [if_neg (Nat.not_le.2 hroom), Option.getD_some] at hnext
        refine .entered event rest haction hevent hnone ?_ ?_
        · rw [hnext]
        · rw [← τ.coalesce_eq n]
          refine find_enter hnone ?_
          rw [hnext]
          rfl
      · rename_i p hp
        rw [Option.getD_some] at hnext
        refine .merged event rest p haction hevent hp ?_ ?_
        · rw [hnext]
          rfl
        · rw [hnext, ← τ.coalesce_eq n]
          exact find_replace (q := { τ.queue n with
            queue := rest
            eventsDebounced := (τ.queue n).eventsDebounced + 1 }) hp _

theorem turn (n : Nat) : τ.Turn n := by
  cases haction : τ.action n with
  | submit path eventType isDirectory => exact τ.turn_submit haction
  | ingest => exact τ.turn_ingest haction
  | due maximum =>
      have hnext : τ.queue (n + 1) = ((τ.queue n).takeDue (τ.clock n) maximum).2 := by
        simp only [queue, run, haction, QueueAction.at, step]
      refine .taken maximum haction ?_ fun key => ?_
      · rw [hnext]
        rfl
      · rw [hnext]
        exact find_takeDue _ _ _ _
  | clearOverflow =>
      have hnext : τ.queue (n + 1) = (τ.queue n).clearOverflow.2 := by
        simp only [queue, run, haction, QueueAction.at, step]
      refine .idle (fun path eventType isDirectory h => ?_) (fun maximum hdue => ?_) ?_ ?_
      · cases haction.symm.trans h
      · cases haction.symm.trans hdue
      · rw [hnext]
        rfl
      · rw [hnext]
        rfl

end Timeline

end ZsecShield.Watch
