import ZsecShield.Watch.QuietPeriod
import Mathlib.Data.Nat.Count

/-!
# Bounded drains

During a long inventory the watcher calls `due` with a maximum only.  The batch is the head
of the due keys in their order, so paths that keep arriving with smaller keys overtake a due
path for ever.  With too few of them to fill the calls, and with no event that moves its due
time ahead, the path is returned within as many calls as the pending paths fill.
-/

namespace ZsecShield.Watch

open DebouncedPathQueue
open Text (Str str)

/-- The head of a sorted list that stops before one of its elements. -/
theorem take_of_not_mem {keys : List Str} (hsorted : keys.Pairwise (· ≤ ·)) {key : Str} {m : Nat}
    (hkey : key ∈ keys) (htake : key ∉ keys.take m) :
    (keys.take m).length = m ∧ ∀ k ∈ keys.take m, k < key := by
  have hsplit : keys.take m ++ keys.drop m = keys := List.take_append_drop m keys
  have hdrop : key ∈ keys.drop m := by
    rw [← hsplit] at hkey
    exact (List.mem_append.1 hkey).resolve_left htake
  rw [← hsplit] at hsorted
  constructor
  · have hpos : 0 < (keys.drop m).length := List.length_pos_of_mem hdrop
    rw [List.length_drop] at hpos
    rw [List.length_take]
    omega
  · intro k hk
    have hle : k ≤ key := (List.pairwise_append.1 hsorted).2.2 k hk key hdrop
    exact lt_of_le_of_ne hle fun heq => htake (heq ▸ hk)

namespace Timeline

variable (τ : Timeline)

/-- Moment `i` is a call of `due`. -/
def isCall (i : Nat) : Bool :=
  match τ.action i with
  | .due _ => true
  | _ => false

/-- At moment `i` a path with a smaller key enters the map. -/
def overtakes (key : Str) (i : Nat) : Bool :=
  match τ.action i, (τ.queue i).queue with
  | .ingest, event :: _ =>
      ((τ.queue i).find (τ.host.pathKey event.path)).isNone &&
        decide (τ.host.pathKey event.path < key)
  | _, _ => false

/-- No event that moves the due time ahead is coalesced into the path at moment `i`. -/
def Undelayed (key : Str) (i : Nat) : Prop :=
  match τ.action i with
  | .submit path eventType _ => τ.host.pathKey path = key → eventType.immediate = true
  | .ingest => ∀ event rest, (τ.queue i).queue = event :: rest →
      τ.host.pathKey event.path = key → event.eventType.immediate = true
  | _ => True

/-- The call at moment `i` returns the path. -/
def Returns (key : Str) (i : Nat) : Prop :=
  ∃ maximum, τ.action i = .due maximum ∧
    ∃ p, (key, p) ∈ (τ.queue i).taken (τ.clock i) maximum

/-- The pending paths with a smaller key. -/
def smaller (key : Str) (i : Nat) : Nat := (τ.queue i).keys.countP (· < key)

/-- A path that is due at the moment `start`, and the `length` moments up to the last of the
`⌈k/m⌉` next calls, `k` being the number of pending paths and `m` the maximum of every call. -/
structure Drain where
  maximum : Nat
  start : Nat
  length : Nat
  key : Str
  path : PendingPath
  positive : 0 < maximum
  bounded : ∀ i m, start ≤ i → τ.action i = .due m → m = some maximum
  pending : (τ.queue start).find key = some path
  due : path.dueAt ≤ τ.clock start
  complete : Nat.count (fun j => τ.isCall (start + j)) length =
    ((τ.queue start).pending.length + maximum - 1) / maximum

/-- One of the calls returns the path. -/
def Drain.Served {τ : Timeline} (d : τ.Drain) : Prop :=
  ∃ j < d.length, τ.Returns d.key (d.start + j)

/-- The run of the drain leaves the due time of the path alone, and the smaller keys, those
that are pending at the start and those that enter, do not fill the calls. -/
structure Drain.Calm {τ : Timeline} (d : τ.Drain) : Prop where
  undelayed : ∀ j < d.length, τ.Undelayed d.key (d.start + j)
  few : τ.smaller d.key d.start + Nat.count (fun j => τ.overtakes d.key (d.start + j)) d.length <
    d.maximum * (((τ.queue d.start).pending.length + d.maximum - 1) / d.maximum)

/-! ## One moment -/

theorem mem_keys_iff {q : DebouncedPathQueue} {key : Str} :
    key ∈ q.keys ↔ ∃ p, q.find key = some p := by
  constructor
  · exact find_of_mem
  · rintro ⟨p, hp⟩
    exact List.mem_map_of_mem (mem_of_find hp)

/-- No turn but an entry puts a key into the map. -/
theorem smaller_le {i : Nat} (key : Str) (h : ∀ k ∈ (τ.queue (i + 1)).keys, k ∈ (τ.queue i).keys) :
    τ.smaller key (i + 1) ≤ τ.smaller key i :=
  ((τ.sound (i + 1)).nodup.subperm h).countP_le _

theorem smaller_of_find {i : Nat} (key : Str) (h : (τ.queue (i + 1)).find = (τ.queue i).find) :
    τ.smaller key (i + 1) ≤ τ.smaller key i := by
  refine τ.smaller_le key fun k hk => ?_
  rw [mem_keys_iff, h] at hk
  exact mem_keys_iff.2 hk

theorem smaller_of_update {i : Nat} (key : Str) {k₀ : Str} {p p' : PendingPath}
    (hp : (τ.queue i).find k₀ = some p)
    (h : (τ.queue (i + 1)).find = Function.update (τ.queue i).find k₀ (some p')) :
    τ.smaller key (i + 1) ≤ τ.smaller key i := by
  refine τ.smaller_le key fun k hk => ?_
  rw [mem_keys_iff, h] at hk
  by_cases hk₀ : k = k₀
  · exact mem_keys_iff.2 ⟨p, hk₀ ▸ hp⟩
  · rw [Function.update_of_ne hk₀] at hk
    exact mem_keys_iff.2 hk

theorem smaller_of_entry {i : Nat} (key : Str) {k₀ : Str} {p' : PendingPath}
    (h : (τ.queue (i + 1)).find = Function.update (τ.queue i).find k₀ (some p')) :
    τ.smaller key (i + 1) ≤ τ.smaller key i + if k₀ < key then 1 else 0 := by
  have hsubset : (τ.queue (i + 1)).keys ⊆ k₀ :: (τ.queue i).keys := by
    intro k hk
    rw [mem_keys_iff, h] at hk
    by_cases hk₀ : k = k₀
    · exact hk₀ ▸ List.mem_cons_self
    · rw [Function.update_of_ne hk₀] at hk
      exact List.mem_cons_of_mem _ (mem_keys_iff.2 hk)
  have hcount : τ.smaller key (i + 1) ≤ (k₀ :: (τ.queue i).keys).countP (· < key) :=
    ((τ.sound (i + 1)).nodup.subperm hsubset).countP_le _
  rw [List.countP_cons] at hcount
  simp only [decide_eq_true_eq] at hcount
  exact hcount

/-- A call that does not return the due path returns as many smaller keys as it may. -/
theorem smaller_of_taken {i m : Nat} {key : Str} {p : PendingPath}
    (hp : (τ.queue i).find key = some p) (hdue : p.dueAt ≤ τ.clock i)
    (hfind : ∀ k, (τ.queue (i + 1)).find k =
      if k ∈ (τ.queue i).dueKeys (τ.clock i) (some m) then none else (τ.queue i).find k)
    (hnot : key ∉ (τ.queue i).dueKeys (τ.clock i) (some m)) :
    τ.smaller key (i + 1) + m ≤ τ.smaller key i := by
  have hmem : key ∈ (τ.queue i).dueKeys (τ.clock i) none := mem_dueKeys hp hdue
  have hsorted : ((τ.queue i).dueKeys (τ.clock i) none).Pairwise (· ≤ ·) :=
    List.pairwise_insertionSort (· ≤ ·) _
  obtain ⟨hlength, hlt⟩ := take_of_not_mem hsorted hmem (m := m) hnot
  have hall : ((τ.queue i).dueKeys (τ.clock i) (some m)).countP (· < key) = m := by
    refine Eq.trans (List.countP_eq_length.2 fun k hk => ?_) hlength
    exact decide_eq_true (hlt k hk)
  have hnodup : ((τ.queue (i + 1)).keys ++
      (τ.queue i).dueKeys (τ.clock i) (some m)).Nodup := by
    refine List.Nodup.append (τ.sound (i + 1)).nodup (nodup_dueKeys (τ.sound i).nodup _ _) ?_
    intro k hk hk'
    obtain ⟨p', hp'⟩ := mem_keys_iff.1 hk
    rw [hfind k, if_pos hk'] at hp'
    cases hp'
  have hsubset : (τ.queue (i + 1)).keys ++ (τ.queue i).dueKeys (τ.clock i) (some m) ⊆
      (τ.queue i).keys := by
    intro k hk
    obtain hk | hk := List.mem_append.1 hk
    · obtain ⟨p', hp'⟩ := mem_keys_iff.1 hk
      rw [hfind k] at hp'
      split at hp'
      · cases hp'
      · exact mem_keys_iff.2 ⟨p', hp'⟩
    · exact mem_keys_of_dueKeys hk
  have hcount := (hnodup.subperm hsubset).countP_le (fun k => decide (k < key))
  rw [List.countP_append, hall] at hcount
  exact hcount

/-- What one moment does to a due path that it does not return: the path stays due, and its
smaller keys become fewer by a whole call, or more by at most one entry. -/
theorem drain_step {i m : Nat} {key : Str} {p : PendingPath}
    (hp : (τ.queue i).find key = some p) (hdue : p.dueAt ≤ τ.clock i)
    (hbounded : ∀ maximum, τ.action i = .due maximum → maximum = some m)
    (hundelayed : τ.Undelayed key i) (hnot : ¬ τ.Returns key i) :
    (∃ p', (τ.queue (i + 1)).find key = some p' ∧ p'.dueAt ≤ τ.clock (i + 1)) ∧
      τ.smaller key (i + 1) + m * (if τ.isCall i then 1 else 0) ≤
        τ.smaller key i + (if τ.overtakes key i then 1 else 0) := by
  have hlater : p.dueAt ≤ τ.clock (i + 1) := hdue.trans (τ.monotone i.le_succ)
  have hstill : (τ.queue (i + 1)).find = (τ.queue i).find →
      ∃ p', (τ.queue (i + 1)).find key = some p' ∧ p'.dueAt ≤ τ.clock (i + 1) :=
    fun h => ⟨p, h ▸ hp, hlater⟩
  -- A path that an immediate event rewrites is due at the reading of that event.
  have hwritten : ∀ k₀ eventType observedAt stamp p₀, observedAt ≤ τ.clock i →
      (k₀ = key → eventType.immediate = true) →
      (τ.queue (i + 1)).find = Function.update (τ.queue i).find k₀
        (some (τ.merge eventType observedAt stamp p₀)) →
      ∃ p', (τ.queue (i + 1)).find key = some p' ∧ p'.dueAt ≤ τ.clock (i + 1) := by
    intro k₀ eventType observedAt stamp p₀ hobserved himmediate hfind
    by_cases hk : key = k₀
    · refine ⟨τ.merge eventType observedAt stamp p₀, by rw [hfind, hk, Function.update_self], ?_⟩
      simp only [merge, himmediate hk.symm, if_true]
      exact hobserved.trans (τ.monotone i.le_succ)
    · exact ⟨p, by rw [hfind, Function.update_of_ne hk, hp], hlater⟩
  cases τ.turn i with
  | idle _ hnodue _ hfind =>
      refine ⟨hstill hfind, ?_⟩
      have hcall : τ.isCall i = false := by
        unfold isCall
        split
        · exact absurd ‹_› (hnodue _)
        · rfl
      have hle := τ.smaller_of_find key hfind
      simp only [hcall, Bool.false_eq_true, if_false]
      omega
  | coalesced path eventType isDirectory p₀ haction _ hp₀ _ hfind =>
      rw [Undelayed, haction] at hundelayed
      refine ⟨hwritten _ _ _ _ _ le_rfl hundelayed hfind, ?_⟩
      have hle := τ.smaller_of_update key hp₀ hfind
      simp only [isCall, haction, Bool.false_eq_true, if_false]
      omega
  | dropped path eventType isDirectory haction _ _ _ _ hfind =>
      refine ⟨hstill hfind, ?_⟩
      have hle := τ.smaller_of_find key hfind
      simp only [isCall, haction, Bool.false_eq_true, if_false]
      omega
  | queued path eventType isDirectory haction _ _ _ hfind =>
      refine ⟨hstill hfind, ?_⟩
      have hle := τ.smaller_of_find key hfind
      simp only [isCall, haction, Bool.false_eq_true, if_false]
      omega
  | entered event rest haction hevent hnone _ hfind =>
      have hobserved : event.observedAt ≤ τ.clock i :=
        (τ.timely i).observed event (hevent ▸ List.mem_cons_self)
      have hother : key ≠ τ.host.pathKey event.path := by
        rintro rfl
        cases hp.symm.trans hnone
      refine ⟨⟨p, by rw [hfind, Function.update_of_ne hother, hp], hlater⟩, ?_⟩
      have hle := τ.smaller_of_entry key hfind
      simp only [isCall, overtakes, haction, hevent, hnone, Option.isNone_none, Bool.true_and,
        decide_eq_true_eq, Bool.false_eq_true, if_false]
      omega
  | merged event rest p₀ haction hevent hp₀ _ hfind =>
      have hobserved : event.observedAt ≤ τ.clock i :=
        (τ.timely i).observed event (hevent ▸ List.mem_cons_self)
      rw [Undelayed, haction] at hundelayed
      refine ⟨hwritten _ _ _ _ _ hobserved (hundelayed event rest hevent) hfind, ?_⟩
      have hle := τ.smaller_of_update key hp₀ hfind
      simp only [isCall, haction, Bool.false_eq_true, if_false]
      omega
  | taken maximum haction _ hfind =>
      obtain rfl := hbounded maximum haction
      have hunselected : key ∉ (τ.queue i).dueKeys (τ.clock i) (some m) := fun hselected =>
        hnot ⟨some m, haction, p, mem_taken.2 ⟨hselected, hp⟩⟩
      refine ⟨⟨p, by rw [hfind key, if_neg hunselected, hp], hlater⟩, ?_⟩
      have hle := τ.smaller_of_taken hp hdue hfind hunselected
      simp only [isCall, haction, if_true]
      omega

/-! ## A run -/

variable {τ}

/-- Until a call returns the path, it is due, and every call has returned a whole batch of smaller
keys. -/
theorem drain_run (d : τ.Drain) (hundelayed : ∀ j < d.length, τ.Undelayed d.key (d.start + j))
    {n : Nat} (hn : n ≤ d.length) (hnot : ∀ j < n, ¬ τ.Returns d.key (d.start + j)) :
    (∃ p, (τ.queue (d.start + n)).find d.key = some p ∧ p.dueAt ≤ τ.clock (d.start + n)) ∧
      τ.smaller d.key (d.start + n) +
          d.maximum * Nat.count (fun j => τ.isCall (d.start + j)) n ≤
        τ.smaller d.key d.start + Nat.count (fun j => τ.overtakes d.key (d.start + j)) n := by
  induction n with
  | zero => exact ⟨⟨d.path, d.pending, d.due⟩, by simp⟩
  | succ n ih =>
      obtain ⟨⟨p, hp, hdue⟩, hcount⟩ :=
        ih (Nat.le_of_succ_le hn) fun j hj => hnot j (hj.trans n.lt_succ_self)
      obtain ⟨hnext, hstep⟩ := τ.drain_step hp hdue
        (fun maximum => d.bounded _ maximum (Nat.le_add_right _ _)) (hundelayed n hn)
        (hnot n n.lt_succ_self)
      refine ⟨hnext, ?_⟩
      rw [Nat.count_succ, Nat.count_succ, Nat.mul_add, ← Nat.add_assoc d.start n 1]
      omega

/-- Within a calm drain, one of the calls returns the path. -/
theorem fair_drain (d : τ.Drain) (hcalm : d.Calm) : d.Served := by
  by_contra hserved
  have hnot : ∀ j < d.length, ¬ τ.Returns d.key (d.start + j) := fun j hj hreturns =>
    hserved ⟨j, hj, hreturns⟩
  have hcount := (drain_run d hcalm.undelayed le_rfl hnot).2
  have hfew := hcalm.few
  rw [d.complete] at hcount
  omega

/-! ## Starvation -/

/-- A deleted file is due.  From then on another file with a smaller key is deleted before every
call. -/
def starved : Timeline where
  host := plainHost
  excluded := []
  debounceSeconds := 1
  maxEvents := 10
  clock _ := 0
  monotone := monotone_const
  action
    | 0 => .submit (str "/w/z") .deleted false
    | 1 => .ingest
    | n + 2 =>
        match n % 3 with
        | 0 => .submit (str "/w/a") .deleted false
        | 1 => .ingest
        | _ => .due (some 1)

def starvedPath : PendingPath := ⟨str "/w/z", [.deleted], 0, 0, 0⟩

/-- The queue before a round of deletion, ingest and call. -/
structure StarvedAt (q : DebouncedPathQueue) : Prop where
  excluded : q.excluded = []
  maxEvents : q.maxEvents = 10
  queue : q.queue = []
  pending : q.pending = [(str "/w/z", starvedPath)]

theorem starved_round {q : DebouncedPathQueue} (h : StarvedAt q) (n : Nat) :
    let q₁ := q.submit plainHost 0 n (str "/w/a") .deleted false
    ∃ q₂, q₁.ingestOne plainHost = some q₂ ∧
      str "/w/z" ∈ q₁.keys ∧ str "/w/z" ∈ q₂.keys ∧
      (q₂.taken 0 (some 1)).map Prod.fst = [str "/w/a"] ∧ StarvedAt (q₂.takeDue 0 (some 1)).2 := by
  obtain ⟨excluded, d, cap, maxEvents, queue, pending, overflowed, received, out, dropped,
    debounced, highWater⟩ := q
  obtain ⟨h₁, h₂, h₃, h₄⟩ := h
  simp only at h₁ h₂ h₃ h₄
  subst h₁ h₂ h₃ h₄
  refine ⟨_, rfl, ?_, ?_, ?_, ?_⟩
  · exact List.mem_cons_self
  · exact List.mem_cons_self
  · rfl
  · exact ⟨rfl, rfl, rfl, rfl⟩

theorem starved_actions (j : Nat) :
    starved.action (3 * j + 2) = .submit (str "/w/a") .deleted false ∧
      starved.action (3 * j + 3) = .ingest ∧ starved.action (3 * j + 4) = .due (some 1) := by
  have h₀ : 3 * j % 3 = 0 := Nat.mul_mod_right 3 j
  have h₁ : (3 * j + 1) % 3 = 1 := by omega
  have h₂ : (3 * j + 2) % 3 = 2 := by omega
  refine ⟨?_, ?_, ?_⟩ <;> simp only [starved, h₀, h₁, h₂]

/-- A round of the starved run, from its beginning. -/
theorem starved_step {j : Nat} (h : StarvedAt (starved.queue (3 * j + 2))) :
    str "/w/z" ∈ (starved.queue (3 * j + 3)).keys ∧ str "/w/z" ∈ (starved.queue (3 * j + 4)).keys ∧
      ((starved.queue (3 * j + 4)).taken 0 (some 1)).map Prod.fst = [str "/w/a"] ∧
        StarvedAt (starved.queue (3 * (j + 1) + 2)) := by
  obtain ⟨hsubmit, hingest, hdue⟩ := starved_actions j
  obtain ⟨q₂, hq₂, hz₁, hz₂, htaken, hnext⟩ := starved_round h (3 * j + 2)
  have hqueue₁ : starved.queue (3 * j + 3) = (starved.queue (3 * j + 2)).submit plainHost 0
      (3 * j + 2) (str "/w/a") .deleted false := by
    change ((starved.run (3 * j + 2)).step _ _).queue = _
    rw [hsubmit]
    rfl
  have hqueue₂ : starved.queue (3 * j + 4) = q₂ := by
    change ((starved.run (3 * j + 3)).step _ _).queue = _
    rw [hingest]
    have hingested : (starved.run (3 * j + 3)).queue.ingestOne plainHost = some q₂ := by
      rw [← hq₂, ← hqueue₁]
      rfl
    change (QueueRun.step plainHost (starved.run (3 * j + 3)) .ingest).queue = _
    simp only [QueueRun.step, hingested]
    rfl
  have hqueue₃ : starved.queue (3 * (j + 1) + 2) = (q₂.takeDue 0 (some 1)).2 := by
    rw [show 3 * (j + 1) + 2 = 3 * j + 4 + 1 by omega]
    change ((starved.run (3 * j + 4)).step _ _).queue = _
    rw [hdue, ← hqueue₂]
    rfl
  rw [hqueue₁, hqueue₂, hqueue₃]
  exact ⟨hz₁, hz₂, htaken, hnext⟩

theorem starvedAt (j : Nat) : StarvedAt (starved.queue (3 * j + 2)) := by
  induction j with
  | zero => exact ⟨rfl, rfl, rfl, rfl⟩
  | succ j ih => exact (starved_step ih).2.2.2

/-- The file with the larger key is never returned. -/
theorem starved_pending (n : Nat) : str "/w/z" ∈ (starved.queue (n + 2)).keys := by
  obtain ⟨hz₁, hz₂, -, -⟩ := starved_step (starvedAt (n / 3))
  have hpending : str "/w/z" ∈ (starved.queue (3 * (n / 3) + 2)).keys := by
    rw [DebouncedPathQueue.keys, (starvedAt (n / 3)).pending]
    exact List.mem_cons_self
  have hcases : n + 2 = 3 * (n / 3) + 2 ∨ n + 2 = 3 * (n / 3) + 3 ∨ n + 2 = 3 * (n / 3) + 4 := by
    omega
  rcases hcases with h | h | h
  · rwa [h]
  · rwa [h]
  · rwa [h]

/-- The first round of the starved run. -/
def starvedDrain : starved.Drain where
  maximum := 1
  start := 2
  length := 3
  key := str "/w/z"
  path := starvedPath
  positive := Nat.one_pos
  bounded i m hi haction := by
    obtain ⟨n, rfl⟩ := Nat.exists_eq_add_of_le' hi
    simp only [starved] at haction
    split at haction
    · cases haction
    · cases haction
    · cases haction
      rfl
  pending := rfl
  due := le_rfl
  complete := by decide

/-- Later paths overtake a due path, in the first round and for ever. -/
theorem not_fair_drain : (¬ ∀ (τ : Timeline) (d : τ.Drain), d.Served) ∧
    ∀ n, str "/w/z" ∈ (starved.queue (n + 2)).keys := by
  refine ⟨fun h => ?_, starved_pending⟩
  obtain ⟨j, hj, maximum, haction, p, hp⟩ := h starved starvedDrain
  have hlength : j < 3 := hj
  match j, hlength with
  | 0, _ => cases haction
  | 1, _ => cases haction
  | 2, _ =>
      have hmaximum : some 1 = maximum := QueueAction.due.inj haction
      subst hmaximum
      have hkey : str "/w/z" ∈ ((starved.queue 4).taken 0 (some 1)).map Prod.fst :=
        List.mem_map_of_mem hp
      rw [(starved_step (starvedAt 0)).2.2.1] at hkey
      exact absurd hkey (by decide)

/-- The deleted file of the starved run without the other one. -/
def served : Timeline where
  host := plainHost
  excluded := []
  debounceSeconds := 1
  maxEvents := 10
  clock _ := 0
  monotone := monotone_const
  action
    | 0 => .submit (str "/w/z") .deleted false
    | 1 => .ingest
    | _ => .due (some 1)

def servedDrain : served.Drain where
  maximum := 1
  start := 2
  length := 1
  key := str "/w/z"
  path := starvedPath
  positive := Nat.one_pos
  bounded i m hi haction := by
    obtain ⟨n, rfl⟩ := Nat.exists_eq_add_of_le' hi
    cases haction
    rfl
  pending := rfl
  due := le_rfl
  complete := by decide

theorem servedDrain_calm : servedDrain.Calm where
  undelayed j hj := by
    obtain rfl : j = 0 := Nat.lt_one_iff.1 hj
    trivial
  few := by decide

theorem fair_drain_served : servedDrain.Served := fair_drain servedDrain servedDrain_calm

end Timeline

end ZsecShield.Watch
