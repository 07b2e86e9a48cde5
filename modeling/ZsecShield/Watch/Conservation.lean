import ZsecShield.Watch.Queue

/-!
# Conservation in the event queue

The observer, the ingest thread and the watch loop take turns at the lock of the queue.
Whatever the order of their turns, the raw events and the pending paths stay within the
bound, every received event is accounted for, and a path leaves the map once for every
time it entered.
-/

namespace ZsecShield.Watch

open Text (Str)

/-- What a thread does while it holds the lock.  `ingest` gives the lock back between two
raw events, and `due` takes it once more behind its `ingest`. -/
inductive QueueStep where
  | submit (now : ℚ) (stamp : Nat) (path : Path) (eventType : EventType) (isDirectory : Bool)
  | ingest
  | due (now : ℚ) (maximum : Option Nat)
  | clearOverflow

/-- The queue and the account of its run. -/
structure QueueRun where
  queue : DebouncedPathQueue
  /-- The drops that `clear_overflow` has returned. -/
  cleared : Nat
  /-- An event was dropped behind the last `clear_overflow`. -/
  dropped : Bool
  /-- The keys in the order in which they entered the map. -/
  entered : List Str
  /-- The paths that `due` has returned, with their keys. -/
  returned : List (Str × PendingPath)

namespace DebouncedPathQueue

/-- The keys of the pending paths. -/
def keys (q : DebouncedPathQueue) : List Str := q.pending.map Prod.fst

/-- What `due` takes off the map. -/
def taken (now : ℚ) (maximum : Option Nat) (q : DebouncedPathQueue) : List (Str × PendingPath) :=
  (q.dueKeys now maximum).filterMap fun key => (q.find key).map fun p => (key, p)

theorem takeDue_fst (now : ℚ) (maximum : Option Nat) (q : DebouncedPathQueue) :
    (q.takeDue now maximum).1 = (q.taken now maximum).map Prod.snd := by
  simp only [takeDue, taken, List.map_filterMap, Option.map_map]
  congr 1
  funext key
  cases q.find key <;> rfl

@[simp] theorem keys_replace (q : DebouncedPathQueue) (key : Str) (p : PendingPath) :
    (q.replace key p).keys = q.keys := by
  simp only [keys, replace, List.map_map]
  refine List.map_congr_left fun e _ => ?_
  by_cases h : e.1 = key <;> simp [h]

@[simp] theorem length_pending_replace (q : DebouncedPathQueue) (key : Str) (p : PendingPath) :
    (q.replace key p).pending.length = q.pending.length := by
  simp [replace]

theorem not_mem_keys {q : DebouncedPathQueue} {key : Str} (h : q.find key = none) :
    key ∉ q.keys := by
  intro hmem
  obtain ⟨e, he, rfl⟩ := List.mem_map.1 hmem
  rw [find, List.lookup_eq_none_iff] at h
  have hne := h e he
  simp at hne

theorem find_of_mem {q : DebouncedPathQueue} {key : Str} (h : key ∈ q.keys) :
    ∃ p, q.find key = some p := by
  cases hfind : q.find key with
  | none => exact absurd h (not_mem_keys hfind)
  | some p => exact ⟨p, rfl⟩

theorem mem_keys_of_dueKeys {now : ℚ} {maximum : Option Nat} {q : DebouncedPathQueue} {key : Str}
    (h : key ∈ q.dueKeys now maximum) : key ∈ q.keys := by
  have hsorted : key ∈ ((q.pending.filter fun e => decide (e.2.dueAt ≤ now)).map
      Prod.fst).insertionSort (· ≤ ·) := by
    cases maximum with
    | none => exact h
    | some m => exact List.mem_of_mem_take h
  rw [List.mem_insertionSort] at hsorted
  obtain ⟨e, he, rfl⟩ := List.mem_map.1 hsorted
  exact List.mem_map_of_mem (List.mem_of_mem_filter he)

theorem nodup_dueKeys {q : DebouncedPathQueue} (h : q.keys.Nodup) (now : ℚ)
    (maximum : Option Nat) : (q.dueKeys now maximum).Nodup := by
  have hdue : ((q.pending.filter fun e => decide (e.2.dueAt ≤ now)).map Prod.fst).Nodup :=
    h.sublist (List.filter_sublist.map Prod.fst)
  have hsorted := (List.perm_insertionSort (· ≤ ·) _).nodup_iff.2 hdue
  cases maximum with
  | none => exact hsorted
  | some m => exact hsorted.sublist (List.take_sublist m _)

/-- Every selected key is found. -/
theorem map_fst_taken (now : ℚ) (maximum : Option Nat) (q : DebouncedPathQueue) :
    (q.taken now maximum).map Prod.fst = q.dueKeys now maximum := by
  have hall : ∀ keys : List Str, (∀ key ∈ keys, key ∈ q.keys) →
      (keys.filterMap fun key => (q.find key).map fun p => (key, p)).map Prod.fst = keys := by
    intro keys
    induction keys with
    | nil => exact fun _ => rfl
    | cons key keys ih =>
        intro hkeys
        obtain ⟨p, hp⟩ := find_of_mem (hkeys key List.mem_cons_self)
        have hrest := ih fun k hk => hkeys k (List.mem_cons_of_mem key hk)
        simp only [List.filterMap_cons, hp, Option.map_some, List.map_cons, hrest]
  exact hall _ fun key hkey => mem_keys_of_dueKeys hkey

theorem keys_takeDue (now : ℚ) (maximum : Option Nat) (q : DebouncedPathQueue) :
    (q.takeDue now maximum).2.keys = q.keys.filter fun key => key ∉ q.dueKeys now maximum := by
  simp only [takeDue, keys, List.filter_map]
  rfl

/-- What stays in the map and what is taken off it were in the map. -/
theorem count_takeDue {q : DebouncedPathQueue} (h : q.keys.Nodup) (now : ℚ) (maximum : Option Nat)
    (key : Str) : q.keys.count key = ((q.taken now maximum).map Prod.fst).count key +
      (q.takeDue now maximum).2.keys.count key := by
  rw [map_fst_taken, keys_takeDue]
  by_cases hdue : key ∈ q.dueKeys now maximum
  · have hgone : key ∉ q.keys.filter fun key => key ∉ q.dueKeys now maximum := by
      simp [hdue]
    rw [List.count_eq_one_of_mem h (mem_keys_of_dueKeys hdue),
      List.count_eq_one_of_mem (nodup_dueKeys h now maximum) hdue, List.count_eq_zero_of_not_mem hgone]
  · rw [List.count_eq_zero_of_not_mem hdue, List.count_filter (by simpa using hdue), Nat.zero_add]

theorem length_takeDue {q : DebouncedPathQueue} (h : q.keys.Nodup) (now : ℚ)
    (maximum : Option Nat) : q.pending.length = (q.taken now maximum).length +
      (q.takeDue now maximum).2.pending.length := by
  have hperm : q.keys.Perm ((q.taken now maximum).map Prod.fst ++ (q.takeDue now maximum).2.keys) :=
    List.perm_iff_count.2 fun key => by rw [List.count_append, count_takeDue h now maximum key]
  have hlength := hperm.length_eq
  simpa [keys] using hlength

end DebouncedPathQueue

namespace QueueRun

open DebouncedPathQueue

/-- The run before the first step. -/
def start (excluded : List Str) (debounceSeconds : ℚ) (maxEvents : Nat) : QueueRun :=
  ⟨.new excluded debounceSeconds maxEvents, 0, false, [], []⟩

/-- The account of a step that may drop an event or put a path into the map. -/
def moved (r : QueueRun) (q : DebouncedPathQueue) : QueueRun :=
  { r with
    queue := q
    dropped := r.dropped || decide (r.queue.eventsDropped < q.eventsDropped)
    entered := r.entered ++ q.keys.drop r.queue.pending.length }

/-- A step and its account. -/
def step (host : Host) (r : QueueRun) : QueueStep → QueueRun
  | .submit now stamp path eventType isDirectory =>
      r.moved (r.queue.submit host now stamp path eventType isDirectory)
  | .ingest =>
      match r.queue.ingestOne host with
      | none => r
      | some q => r.moved q
  | .due now maximum =>
      { r with
        queue := (r.queue.takeDue now maximum).2
        returned := r.returned ++ r.queue.taken now maximum }
  | .clearOverflow =>
      { r with
        queue := r.queue.clearOverflow.2
        cleared := r.cleared + r.queue.clearOverflow.1
        dropped := false }

/-- What holds between two steps. -/
structure Sound (r : QueueRun) : Prop where
  bounded : r.queue.queue.length + r.queue.pending.length ≤ r.queue.maxEvents
  nodup : r.queue.keys.Nodup
  conserved : r.queue.eventsReceived = r.queue.eventsDebounced +
    (r.cleared + r.queue.eventsDropped) + r.queue.queue.length + r.queue.pending.length +
      r.returned.length
  once : ∀ key, r.entered.count key =
    (r.returned.map Prod.fst).count key + r.queue.keys.count key
  flag : r.queue.overflowed = r.dropped
  counted : r.dropped = decide (0 < r.queue.eventsDropped)

theorem sound_start (excluded : List Str) (debounceSeconds : ℚ) (maxEvents : Nat) :
    (start excluded debounceSeconds maxEvents).Sound where
  bounded := Nat.zero_le _
  nodup := List.nodup_nil
  conserved := rfl
  once _ := rfl
  flag := rfl
  counted := rfl

section Steps

variable {r : QueueRun} {q : DebouncedPathQueue}

/-- A step that leaves the keys of the map alone puts nothing into it. -/
theorem moved_entered (h : q.keys = r.queue.keys) : (r.moved q).entered = r.entered := by
  have hnone : q.keys.drop r.queue.pending.length = [] := by
    rw [h, List.drop_eq_nil_iff]
    simp [keys]
  simp [moved, hnone]

/-- The flag and the count after a step. -/
theorem moved_flag (h : r.Sound) (hgrows : r.queue.Grows q) :
    q.overflowed = (r.moved q).dropped ∧
      (r.moved q).dropped = decide (0 < q.eventsDropped) := by
  have hflag := h.flag
  have hcounted := h.counted
  rcases hgrows with ⟨hdropped, hoverflowed⟩ | ⟨hdropped, hoverflowed⟩
  · simp [moved, hdropped, hoverflowed, hflag, hcounted]
  · simp [moved, hdropped, hoverflowed]

/-- A step that keeps the keys of the map. -/
theorem sound_moved (h : r.Sound) (hgrows : r.queue.Grows q) (hkeys : q.keys = r.queue.keys)
    (hmax : q.maxEvents = r.queue.maxEvents)
    (hbounded : q.queue.length + q.pending.length ≤ q.maxEvents)
    (hconserved : q.eventsReceived + r.queue.eventsDebounced + r.queue.eventsDropped +
        r.queue.queue.length = r.queue.eventsReceived + q.eventsDebounced + q.eventsDropped +
          q.queue.length) : (r.moved q).Sound where
  bounded := hbounded
  nodup := by
    change q.keys.Nodup
    rw [hkeys]
    exact h.nodup
  conserved := by
    have hlength : q.pending.length = r.queue.pending.length := by
      simpa [keys] using congrArg List.length hkeys
    have hbefore := h.conserved
    change q.eventsReceived = q.eventsDebounced + (r.cleared + q.eventsDropped) + q.queue.length +
      q.pending.length + r.returned.length
    omega
  once key := by
    rw [moved_entered hkeys, h.once key]
    change _ = (r.returned.map Prod.fst).count key + q.keys.count key
    rw [hkeys]
  flag := (moved_flag h hgrows).1
  counted := (moved_flag h hgrows).2

/-- Everything `submit` can do. -/
theorem submit_cases (host : Host) (now : ℚ) (stamp : Nat) (path : Path) (eventType : EventType)
    (isDirectory : Bool) (q : DebouncedPathQueue) :
    (q.submit host now stamp path eventType isDirectory =
        { q with eventsExcluded := q.eventsExcluded + 1 }) ∨
      (∃ key p, q.submit host now stamp path eventType isDirectory =
        { q with
          eventsReceived := q.eventsReceived + 1
          eventsDebounced := q.eventsDebounced + 1 }.replace key p) ∨
      (q.submit host now stamp path eventType isDirectory =
        { q with eventsReceived := q.eventsReceived + 1 }.drop) ∨
      ∃ event, q.pending.length + q.queue.length < q.maxEvents ∧
        q.submit host now stamp path eventType isDirectory =
          { q with eventsReceived := q.eventsReceived + 1, queue := q.queue ++ [event] } := by
  unfold submit
  simp only
  split
  · exact .inl rfl
  · split
    · exact .inr (.inl ⟨_, _, rfl⟩)
    · split
      · exact .inr (.inr (.inl rfl))
      · rename_i hroom
        split
        · exact .inr (.inr (.inl rfl))
        · exact .inr (.inr (.inr ⟨_, Nat.not_le.1 hroom, rfl⟩))

/-- Everything one turn of `ingest` can do. -/
theorem ingestOne_cases {host : Host} {q q' : DebouncedPathQueue} (h : q.ingestOne host = some q') :
    ∃ event rest, q.queue = event :: rest ∧
      ((q.pending.length + rest.length ≥ q.maxEvents ∧ q' = { q with queue := rest }.drop) ∨
        (∃ key p, key ∉ q.keys ∧ q' = { q with
          queue := rest
          pending := q.pending ++ [(key, p)]
          pendingHighWater := max q.pendingHighWater (q.pending ++ [(key, p)]).length }) ∨
        ∃ key p, q' = { q with
          queue := rest
          eventsDebounced := q.eventsDebounced + 1 }.replace key p) := by
  unfold ingestOne at h
  split at h
  · cases h
  · rename_i event rest hqueue
    refine ⟨event, rest, hqueue, ?_⟩
    simp only at h
    split at h
    · rename_i hfind
      split at h
      · rename_i hfull
        cases h
        exact .inl ⟨hfull, rfl⟩
      · cases h
        exact .inr (.inl ⟨_, _, not_mem_keys (q := { q with queue := rest }) hfind, rfl⟩)
    · cases h
      exact .inr (.inr ⟨_, _, rfl⟩)

theorem sound_submit (h : r.Sound) (host : Host) (now : ℚ) (stamp : Nat) (path : Path)
    (eventType : EventType) (isDirectory : Bool) :
    (r.moved (r.queue.submit host now stamp path eventType isDirectory)).Sound := by
  have hgrows := grows_submit host now stamp path eventType isDirectory r.queue
  have hbounded := h.bounded
  rcases submit_cases host now stamp path eventType isDirectory r.queue with
    heq | ⟨key, p, heq⟩ | heq | ⟨event, hroom, heq⟩
  · rw [heq] at hgrows ⊢
    exact sound_moved h hgrows rfl rfl hbounded rfl
  · rw [heq] at hgrows ⊢
    refine sound_moved h hgrows (keys_replace _ _ _) rfl ?_ ?_
    · simpa [DebouncedPathQueue.replace] using hbounded
    · simp only [DebouncedPathQueue.replace]
      omega
  · rw [heq] at hgrows ⊢
    refine sound_moved h hgrows rfl rfl hbounded ?_
    simp only [DebouncedPathQueue.drop]
    omega
  · rw [heq] at hgrows ⊢
    refine sound_moved h hgrows rfl rfl ?_ ?_
    · simp only [List.length_append, List.length_singleton]
      omega
    · simp only [List.length_append, List.length_singleton]
      omega

/-- Taking a raw event leaves room for it in the map. -/
theorem room_of_sound (h : r.Sound) {event : QueuedPathEvent} {rest : List QueuedPathEvent}
    (hqueue : r.queue.queue = event :: rest) :
    r.queue.pending.length + rest.length < r.queue.maxEvents := by
  have hbounded := h.bounded
  rw [hqueue, List.length_cons] at hbounded
  omega

theorem sound_ingestOne (h : r.Sound) {host : Host} (hq : r.queue.ingestOne host = some q) :
    (r.moved q).Sound := by
  have hgrows := grows_ingestOne hq
  have hbounded := h.bounded
  obtain ⟨event, rest, hqueue, hcases⟩ := ingestOne_cases hq
  have hlength : r.queue.queue.length = rest.length + 1 := by rw [hqueue, List.length_cons]
  rcases hcases with ⟨hfull, -⟩ | ⟨key, p, hnew, rfl⟩ | ⟨key, p, rfl⟩
  · exact absurd hfull (Nat.not_le.2 (room_of_sound h hqueue))
  · -- The path enters the map behind the others.
    have hkeys : ({ r.queue with
        queue := rest
        pending := r.queue.pending ++ [(key, p)]
        pendingHighWater := max r.queue.pendingHighWater (r.queue.pending ++ [(key, p)]).length } :
          DebouncedPathQueue).keys = r.queue.keys ++ [key] := by
      simp [keys]
    refine ⟨?_, ?_, ?_, ?_, (moved_flag h hgrows).1, (moved_flag h hgrows).2⟩
    · change rest.length + (r.queue.pending ++ [(key, p)]).length ≤ r.queue.maxEvents
      rw [List.length_append, List.length_singleton]
      omega
    · rw [moved, hkeys]
      exact List.nodup_append_comm.1 (List.nodup_cons.2 ⟨hnew, h.nodup⟩)
    · have hconserved := h.conserved
      change r.queue.eventsReceived = r.queue.eventsDebounced +
        (r.cleared + r.queue.eventsDropped) + rest.length +
          (r.queue.pending ++ [(key, p)]).length + r.returned.length
      rw [List.length_append, List.length_singleton]
      omega
    · intro k
      have hdrop : (r.queue.keys ++ [key]).drop r.queue.pending.length = [key] := by
        rw [List.drop_append_of_le_length (by simp [keys])]
        simp [keys]
      have hentered := h.once k
      simp only [moved, hkeys, hdrop, List.count_append]
      omega
  · refine sound_moved h hgrows (keys_replace _ _ _) rfl ?_ ?_
    · simp only [DebouncedPathQueue.replace, List.length_map]
      omega
    · simp only [DebouncedPathQueue.replace]
      omega

theorem sound_due (h : r.Sound) (host : Host) (now : ℚ) (maximum : Option Nat) :
    (r.step host (.due now maximum)).Sound := by
  have hlength := length_takeDue h.nodup now maximum
  have hbounded := h.bounded
  have hconserved := h.conserved
  refine ⟨?_, ?_, ?_, ?_, h.flag, h.counted⟩
  · change r.queue.queue.length + (r.queue.takeDue now maximum).2.pending.length ≤ r.queue.maxEvents
    omega
  · change (r.queue.takeDue now maximum).2.keys.Nodup
    rw [keys_takeDue]
    exact h.nodup.filter _
  · change r.queue.eventsReceived = r.queue.eventsDebounced + (r.cleared + r.queue.eventsDropped) +
      r.queue.queue.length + (r.queue.takeDue now maximum).2.pending.length +
        (r.returned ++ r.queue.taken now maximum).length
    rw [List.length_append]
    omega
  · intro key
    have hcount := count_takeDue h.nodup now maximum key
    have honce := h.once key
    simp only [step, List.map_append, List.count_append]
    omega

theorem sound_clearOverflow (h : r.Sound) (host : Host) : (r.step host .clearOverflow).Sound where
  bounded := h.bounded
  nodup := h.nodup
  conserved := by
    have hconserved := h.conserved
    change r.queue.eventsReceived = r.queue.eventsDebounced +
      (r.cleared + r.queue.eventsDropped + 0) + r.queue.queue.length + r.queue.pending.length +
        r.returned.length
    omega
  once := h.once
  flag := rfl
  counted := rfl

theorem sound_step (h : r.Sound) (host : Host) (s : QueueStep) : (r.step host s).Sound := by
  cases s with
  | submit now stamp path eventType isDirectory =>
      exact sound_submit h host now stamp path eventType isDirectory
  | ingest =>
      simp only [step]
      split
      · exact h
      · rename_i q hq
        exact sound_ingestOne h hq
  | due now maximum => exact sound_due h host now maximum
  | clearOverflow => exact sound_clearOverflow h host

theorem sound_steps (h : r.Sound) (host : Host) (steps : List QueueStep) :
    (steps.foldl (step host) r).Sound := by
  induction steps generalizing r with
  | nil => exact h
  | cons s steps ih => exact ih (sound_step h host s)

/-- No step changes the bound. -/
theorem maxEvents_step (host : Host) (s : QueueStep) :
    (r.step host s).queue.maxEvents = r.queue.maxEvents := by
  cases s with
  | submit now stamp path eventType isDirectory =>
      simp only [step, moved]
      rcases submit_cases host now stamp path eventType isDirectory r.queue with
        heq | ⟨key, p, heq⟩ | heq | ⟨event, -, heq⟩ <;> rw [heq] <;> rfl
  | ingest =>
      simp only [step]
      split
      · rfl
      · rename_i q hq
        obtain ⟨event, rest, -, ⟨-, rfl⟩ | ⟨key, p, -, rfl⟩ | ⟨key, p, rfl⟩⟩ := ingestOne_cases hq <;>
          rfl
  | due now maximum => rfl
  | clearOverflow => rfl

theorem maxEvents_steps (host : Host) (steps : List QueueStep) :
    (steps.foldl (step host) r).queue.maxEvents = r.queue.maxEvents := by
  induction steps generalizing r with
  | nil => rfl
  | cons s steps ih => exact ih.trans (maxEvents_step host s)

end Steps

end QueueRun

open QueueRun in
/-- Whatever the threads do in whatever order: the raw events and the pending paths stay within
the bound, so `ingest` always finds room in the map; a received event was coalesced, dropped,
still waits, or its path was returned; a path was returned once for every time it entered the
map, unless it is still there; and the flag is up when an event was dropped behind the last
`clear_overflow`. -/
theorem queue_conserves (host : Host) (excluded : List Str) (debounceSeconds : ℚ) (maxEvents : Nat)
    (steps : List QueueStep) :
    let r := steps.foldl (step host) (start excluded debounceSeconds maxEvents)
    (r.queue.queue.length + r.queue.pending.length ≤ maxEvents ∧
      ∀ event rest, r.queue.queue = event :: rest →
        ¬ r.queue.pending.length + rest.length ≥ r.queue.maxEvents) ∧
    r.queue.eventsReceived = r.queue.eventsDebounced + (r.cleared + r.queue.eventsDropped) +
      r.queue.queue.length + r.queue.pending.length + r.returned.length ∧
    (∀ key, (r.returned.map Prod.fst).count key + r.queue.keys.count key = r.entered.count key) ∧
    r.queue.overflowed = r.dropped := by
  intro r
  have hsound : r.Sound := sound_steps (sound_start excluded debounceSeconds maxEvents) host steps
  have hmax : r.queue.maxEvents = maxEvents := maxEvents_steps host steps
  refine ⟨⟨hmax ▸ hsound.bounded, ?_⟩, hsound.conserved, fun key => (hsound.once key).symm,
    hsound.flag⟩
  intro event rest hqueue
  exact Nat.not_le.2 (room_of_sound hsound hqueue)

end ZsecShield.Watch
