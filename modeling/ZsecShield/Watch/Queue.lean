import ZsecShield.Errors
import Mathlib.Algebra.Order.Field.Rat
import Mathlib.Data.List.Sort

/-!
# The debounced path queue

`DebouncedPathQueue` of `watcher.py`.  The observer thread submits filesystem
events, which enter a bounded raw queue or are coalesced into a path that is
already pending.  `ingest` moves raw events into the map of pending paths, and
`due` takes the paths whose quiet period has passed.

Time is a rational number of seconds.  The field `stamp` of a raw event and the
field `lastSubmitted` of a pending path are ghost data: the moment of the run
at which the event, and the last event coalesced into the path, was submitted.
-/

namespace ZsecShield.Watch

open Text (Str)

/-- The names the event handler gives to filesystem events. -/
inductive EventType where
  | closedAfterWrite
  | created
  | deleted
  | modified
  | movedFrom
  | movedTo
deriving DecidableEq, Repr

/-- The events that make a path due at once. -/
def EventType.immediate : EventType → Bool
  | .closedAfterWrite | .movedTo | .movedFrom | .deleted => true
  | .created | .modified => false

/-- `sorted(event_types)`: the names in text order. -/
def EventType.sorted (types : List EventType) : List EventType :=
  [.closedAfterWrite, .created, .deleted, .modified, .movedFrom, .movedTo].filter (· ∈ types)

/-- An event in the raw queue. -/
structure QueuedPathEvent where
  path : Path
  eventType : EventType
  isDirectory : Bool
  observedAt : ℚ
  stamp : Nat
deriving DecidableEq

/-- A path with the events coalesced into it. -/
structure PendingPath where
  path : Path
  eventTypes : List EventType
  firstSeenAt : ℚ
  dueAt : ℚ
  lastSubmitted : Nat
deriving DecidableEq

/-- What the path functions of the operating system compute. -/
structure Host where
  /-- `_path_key`. -/
  pathKey : Path → Str
  /-- `_is_within` on two keys. -/
  isWithin : Str → Str → Bool
  /-- SHA-256 of the encoded key, in `_snapshot_path_key`. -/
  digest : Str → Bytes
  /-- `os.path.normcase`. -/
  normcase : Path → Str
  /-- `str.casefold`. -/
  casefold : Str → Str
  /-- `str` of an exception. -/
  text : PyError → Str

/-- `_snapshot_path_key`. -/
def Host.snapshotPathKey (host : Host) (path : Path) : Bytes := host.digest (host.pathKey path)

structure DebouncedPathQueue where
  excluded : List Str
  debounceSeconds : ℚ
  maxCoalesceSeconds : ℚ
  maxEvents : Nat
  queue : List QueuedPathEvent
  pending : List (Str × PendingPath)
  overflowed : Bool
  eventsReceived : Nat
  eventsExcluded : Nat
  eventsDropped : Nat
  eventsDebounced : Nat
  pendingHighWater : Nat

namespace DebouncedPathQueue

/-- The constructor. -/
def new (excluded : List Str) (debounceSeconds : ℚ) (maxEvents : Nat) : DebouncedPathQueue where
  excluded := excluded
  debounceSeconds := debounceSeconds
  maxCoalesceSeconds := max 2 debounceSeconds
  maxEvents := maxEvents
  queue := []
  pending := []
  overflowed := false
  eventsReceived := 0
  eventsExcluded := 0
  eventsDropped := 0
  eventsDebounced := 0
  pendingHighWater := 0

/-- `self._pending.get(key)`. -/
def find (q : DebouncedPathQueue) (key : Str) : Option PendingPath := q.pending.lookup key

/-- The due time of a path after an event at `now`. -/
def dueAfter (q : DebouncedPathQueue) (eventType : EventType) (now firstSeenAt : ℚ) : ℚ :=
  if eventType.immediate then now
  else min (now + q.debounceSeconds) (firstSeenAt + q.maxCoalesceSeconds)

/-- Coalesce an event into a pending path. -/
def coalesce (q : DebouncedPathQueue) (eventType : EventType) (now : ℚ) (stamp : Nat)
    (p : PendingPath) : PendingPath :=
  { p with
    eventTypes := if eventType ∈ p.eventTypes then p.eventTypes else p.eventTypes ++ [eventType]
    dueAt := q.dueAfter eventType now p.firstSeenAt
    lastSubmitted := max p.lastSubmitted stamp }

/-- Replace the pending path of a key. -/
def replace (q : DebouncedPathQueue) (key : Str) (p : PendingPath) : DebouncedPathQueue :=
  { q with pending := q.pending.map fun e => if e.1 = key then (key, p) else e }

/-- Count a dropped event and raise the overflow flag. -/
def drop (q : DebouncedPathQueue) : DebouncedPathQueue :=
  { q with eventsDropped := q.eventsDropped + 1, overflowed := true }

/-- `submit`, at the clock reading `now`. -/
def submit (host : Host) (now : ℚ) (stamp : Nat) (path : Path) (eventType : EventType)
    (isDirectory : Bool) (q : DebouncedPathQueue) : DebouncedPathQueue :=
  let key := host.pathKey path
  if q.excluded.any (host.isWithin key) then
    { q with eventsExcluded := q.eventsExcluded + 1 }
  else
    let q := { q with eventsReceived := q.eventsReceived + 1 }
    match q.find key with
    | some p =>
        { q with eventsDebounced := q.eventsDebounced + 1 }.replace key
          (q.coalesce eventType now stamp p)
    | none =>
        if q.pending.length + q.queue.length ≥ q.maxEvents then q.drop
        -- `put_nowait` raises `queue.Full` on a queue at its own size limit.
        else if q.queue.length ≥ q.maxEvents then q.drop
        else { q with queue := q.queue ++ [⟨path, eventType, isDirectory, now, stamp⟩] }

/-- One turn of the loop of `ingest`: the oldest raw event leaves the queue. -/
def ingestOne (host : Host) (q : DebouncedPathQueue) : Option DebouncedPathQueue :=
  match q.queue with
  | [] => none
  | event :: rest =>
      let q := { q with queue := rest }
      let key := host.pathKey event.path
      match q.find key with
      | none =>
          if q.pending.length + q.queue.length ≥ q.maxEvents then some q.drop
          else
            let p := q.coalesce event.eventType event.observedAt event.stamp
              ⟨event.path, [], event.observedAt, 0, event.stamp⟩
            let pending := q.pending ++ [(key, p)]
            some { q with
              pending := pending
              pendingHighWater := max q.pendingHighWater pending.length }
      | some p =>
          some ({ q with eventsDebounced := q.eventsDebounced + 1 }.replace key
            (q.coalesce event.eventType event.observedAt event.stamp p))

/-- The keys `due` selects, in order. -/
def dueKeys (now : ℚ) (maximum : Option Nat) (q : DebouncedPathQueue) : List Str :=
  let due := (q.pending.filter fun e => decide (e.2.dueAt ≤ now)).map Prod.fst
  let keys := due.insertionSort (· ≤ ·)
  match maximum with
  | none => keys
  | some m => keys.take m

/-- The locked part of `due`: the selected paths leave the map. -/
def takeDue (now : ℚ) (maximum : Option Nat) (q : DebouncedPathQueue) :
    List PendingPath × DebouncedPathQueue :=
  let keys := q.dueKeys now maximum
  (keys.filterMap q.find, { q with pending := q.pending.filter fun e => e.1 ∉ keys })

/-- `clear_overflow`. -/
def clearOverflow (q : DebouncedPathQueue) : Nat × DebouncedPathQueue :=
  (q.eventsDropped, { q with eventsDropped := 0, overflowed := false })

/-- The number of events and paths that wait. -/
def totalDepth (q : DebouncedPathQueue) : Nat := q.queue.length + q.pending.length

/-- The age of the oldest pending path, in milliseconds. -/
def oldestPendingMilliseconds (now : ℚ) (q : DebouncedPathQueue) : Nat :=
  match (q.pending.map fun e => e.2.firstSeenAt).min? with
  | none => 0
  | some oldest => (max 0 (now - oldest) * 1000).floor.toNat

/-! ## The overflow flag -/

@[simp] theorem replace_overflowed (q : DebouncedPathQueue) (key : Str) (p : PendingPath) :
    (q.replace key p).overflowed = q.overflowed := rfl

@[simp] theorem replace_eventsDropped (q : DebouncedPathQueue) (key : Str) (p : PendingPath) :
    (q.replace key p).eventsDropped = q.eventsDropped := rfl

@[simp] theorem drop_overflowed (q : DebouncedPathQueue) : q.drop.overflowed = true := rfl

@[simp] theorem drop_eventsDropped (q : DebouncedPathQueue) :
    q.drop.eventsDropped = q.eventsDropped + 1 := rfl

/-- One step of the queue: either nothing is dropped, or one event is dropped and the
overflow flag is up. -/
def Grows (q q' : DebouncedPathQueue) : Prop :=
  (q'.eventsDropped = q.eventsDropped ∧ q'.overflowed = q.overflowed) ∨
    (q'.eventsDropped = q.eventsDropped + 1 ∧ q'.overflowed = true)

theorem grows_submit (host : Host) (now : ℚ) (stamp : Nat) (path : Path) (eventType : EventType)
    (isDirectory : Bool) (q : DebouncedPathQueue) :
    q.Grows (q.submit host now stamp path eventType isDirectory) := by
  unfold submit
  simp only
  split
  · exact .inl ⟨rfl, rfl⟩
  · split
    · exact .inl ⟨rfl, rfl⟩
    · split
      · exact .inr ⟨rfl, rfl⟩
      · split
        · exact .inr ⟨rfl, rfl⟩
        · exact .inl ⟨rfl, rfl⟩

theorem grows_ingestOne {host : Host} {q q' : DebouncedPathQueue}
    (h : q.ingestOne host = some q') : q.Grows q' := by
  unfold ingestOne at h
  split at h
  · cases h
  · simp only at h
    split at h
    · split at h
      · cases h
        exact .inr ⟨rfl, rfl⟩
      · cases h
        exact .inl ⟨rfl, rfl⟩
    · cases h
      exact .inl ⟨rfl, rfl⟩

@[simp] theorem takeDue_overflowed (now : ℚ) (maximum : Option Nat) (q : DebouncedPathQueue) :
    (q.takeDue now maximum).2.overflowed = q.overflowed := rfl

/-! ## Stamps -/

/-- No event in the queue was submitted after the moment `n`. -/
def StampedBy (n : Nat) (q : DebouncedPathQueue) : Prop :=
  (∀ event ∈ q.queue, event.stamp ≤ n) ∧ ∀ e ∈ q.pending, e.2.lastSubmitted ≤ n

theorem StampedBy.mono {n n' : Nat} {q : DebouncedPathQueue} (h : q.StampedBy n) (hn : n ≤ n') :
    q.StampedBy n' :=
  ⟨fun event he => (h.1 event he).trans hn, fun e he => (h.2 e he).trans hn⟩

theorem mem_of_find {q : DebouncedPathQueue} {key : Str} {p : PendingPath}
    (h : q.find key = some p) : (key, p) ∈ q.pending := by
  rw [find, List.lookup_eq_some_iff] at h
  obtain ⟨before, after, heq, -⟩ := h
  rw [heq]
  exact List.mem_append_right _ List.mem_cons_self

theorem stampedBy_replace {n : Nat} {q : DebouncedPathQueue} (h : q.StampedBy n) (key : Str)
    {p : PendingPath} (hp : p.lastSubmitted ≤ n) : (q.replace key p).StampedBy n := by
  refine ⟨h.1, fun e he => ?_⟩
  obtain ⟨e', he', rfl⟩ := List.mem_map.1 he
  by_cases hk : e'.1 = key
  · rw [if_pos hk]
    exact hp
  · rw [if_neg hk]
    exact h.2 e' he'

theorem stampedBy_submit {n stamp : Nat} {q : DebouncedPathQueue} (h : q.StampedBy n)
    (hstamp : stamp ≤ n) (host : Host) (now : ℚ) (path : Path) (eventType : EventType)
    (isDirectory : Bool) : (q.submit host now stamp path eventType isDirectory).StampedBy n := by
  unfold submit
  simp only
  split
  · exact h
  · split
    · rename_i p hp
      have hold : p.lastSubmitted ≤ n := h.2 _ (mem_of_find hp)
      exact stampedBy_replace h _ (max_le hold hstamp)
    · split
      · exact h
      · split
        · exact h
        · refine ⟨fun event he => ?_, h.2⟩
          obtain he | he := List.mem_append.1 he
          · exact h.1 event he
          · obtain rfl := List.mem_singleton.1 he
            exact hstamp

theorem stampedBy_ingestOne {n : Nat} {host : Host} {q q' : DebouncedPathQueue}
    (h : q.StampedBy n) (hq : q.ingestOne host = some q') : q'.StampedBy n := by
  unfold ingestOne at hq
  split at hq
  · cases hq
  · rename_i event rest hqueue
    have hevent : event.stamp ≤ n := h.1 event (by rw [hqueue]; exact List.mem_cons_self)
    have hrest : ({ q with queue := rest } : DebouncedPathQueue).StampedBy n :=
      ⟨fun e he => h.1 e (by rw [hqueue]; exact List.mem_cons_of_mem _ he), h.2⟩
    simp only at hq
    split at hq
    · split at hq
      · cases hq
        exact hrest
      · cases hq
        refine ⟨hrest.1, fun e he => ?_⟩
        obtain he | he := List.mem_append.1 he
        · exact h.2 e he
        · obtain rfl := List.mem_singleton.1 he
          exact max_le hevent hevent
    · rename_i p hp
      cases hq
      have hold : p.lastSubmitted ≤ n := h.2 _ (mem_of_find hp)
      exact stampedBy_replace hrest _ (max_le hold hevent)

theorem stampedBy_takeDue {n : Nat} {q : DebouncedPathQueue} (h : q.StampedBy n) (now : ℚ)
    (maximum : Option Nat) :
    (∀ p ∈ (q.takeDue now maximum).1, p.lastSubmitted ≤ n) ∧
      (q.takeDue now maximum).2.StampedBy n := by
  constructor
  · intro p hp
    obtain ⟨key, -, hfind⟩ := List.mem_filterMap.1 hp
    exact h.2 _ (mem_of_find hfind)
  · exact ⟨h.1, fun e he => h.2 e (List.mem_of_mem_filter he)⟩

end DebouncedPathQueue

end ZsecShield.Watch
