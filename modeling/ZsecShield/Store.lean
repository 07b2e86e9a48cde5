import ZsecShield.Util

/-!
# The files of a store

A store is a directory in which files are replaced one after the other under a lock.
`Wrote` says which of them hold new bytes, `Partly` that a sequence of replacements was
cut, and `wp_write` adds one replacement to a sequence.  `calm_write` is the replacement
that nothing stands in the way of.
-/

namespace ZsecShield

open Text (Str str)
open Effect

namespace Util

/-! ## Paths of a directory -/

/-- Other processes leave the entries of a directory alone. -/
def Quiet (env : Os) (dir : Path) : Prop :=
  ∀ t nodes name, env.others t nodes (Disk.join dir name) = nodes (Disk.join dir name)

/-- The name of the lock file. -/
def lockName : Str := str ".update.lock"

/-- A name that is neither that of a lock nor that of a temporary file, also not behind a dot. -/
structure Ordinary (name : Str) : Prop where
  flat : Text.ofChar '/' ∉ name
  visible : name.head? ≠ some (Text.ofChar '.')
  noLock : name.head? ≠ some (Text.ofChar 'u')

instance (name : Str) : Decidable (Ordinary name) :=
  decidable_of_iff (_ ∧ _ ∧ _) ⟨fun h => ⟨h.1, h.2.1, h.2.2⟩, fun h => ⟨h.flat, h.visible, h.noLock⟩⟩

/-- The entries of a directory that are neither locks nor temporary files. -/
def Entries (dir p : Path) : Prop :=
  ∃ name, p = Disk.join dir name ∧ name.head? ≠ some (Text.ofChar '.')

theorem Ordinary.entry {name : Str} (h : Ordinary name) (dir : Path) :
    Entries dir (Disk.join dir name) := ⟨name, rfl, h.visible⟩

theorem Ordinary.parent {name : Str} (h : Ordinary name) (dir : Path) :
    Disk.parent (Disk.join dir name) = dir := Disk.parent_join h.flat

theorem Ordinary.temporaryPrefix {name : Str} (h : Ordinary name) (dir : Path) :
    temporaryPrefix (Disk.join dir name) = str "." ++ name ++ str "." := by
  rw [Util.temporaryPrefix, Disk.name_join h.flat]

theorem parent_lockName (dir : Path) : Disk.parent (Disk.join dir lockName) = dir :=
  Disk.parent_join (by decide)

/-- A name with a dot in front is no entry. -/
theorem not_entries_dot (dir s : Str) : ¬ Entries dir (Disk.join dir (str "." ++ s)) := by
  rintro ⟨name, heq, hname⟩
  rw [← Disk.join_inj heq] at hname
  exact hname rfl

theorem Entries.isParent {dir p : Path} (h : Entries dir p) : Disk.Action.isParent p dir = false := by
  obtain ⟨name, rfl, -⟩ := h
  exact Disk.isParent_join dir name

section Quiet

variable {env : Os} {dir : Path} {T : Path → Prop}

/-- A set of paths that other processes leave alone, and that of the directory holds entries
only, is tracked by the replacement of an entry. -/
theorem Quiet.tracked_of (h : Quiet env dir) {name : Str} (hname : Ordinary name)
    (hothers : ∀ t nodes, Disk.Same T nodes (env.others t nodes))
    (hparent : ∀ p, T p → Disk.Action.isParent p dir = false)
    (hinside : ∀ s, ¬ T (Disk.join dir (str "." ++ s))) :
    Tracked env (Disk.join dir name) T := by
  refine ⟨hothers, ?_, ?_, ?_⟩
  · intro t nodes s
    rw [hname.parent]
    exact h t nodes _
  · rw [hname.parent]
    exact hparent
  · intro s
    rw [hname.parent, hname.temporaryPrefix, List.append_assoc, List.append_assoc]
    exact hinside _

theorem Quiet.locked_of (hothers : ∀ t nodes, Disk.Same T nodes (env.others t nodes))
    (hparent : ∀ p, T p → Disk.Action.isParent p dir = false)
    (hinside : ∀ s, ¬ T (Disk.join dir (str "." ++ s))) :
    Locked env (Disk.join dir lockName) T := by
  refine ⟨hothers, ?_, hinside (str "update.lock")⟩
  rw [parent_lockName]
  exact hparent

theorem Quiet.others (h : Quiet env dir) (t : Nat) (nodes : Disk.Nodes) :
    Disk.Same (Entries dir) nodes (env.others t nodes) := by
  rintro p ⟨name, rfl, -⟩
  exact h t nodes name

theorem Quiet.tracked (h : Quiet env dir) {name : Str} (hname : Ordinary name) :
    Tracked env (Disk.join dir name) (Entries dir) :=
  h.tracked_of hname h.others (fun _ => Entries.isParent) fun s => not_entries_dot dir s

theorem Quiet.locked (h : Quiet env dir) : Locked env (Disk.join dir lockName) (Entries dir) :=
  locked_of h.others (fun _ => Entries.isParent) fun s => not_entries_dot dir s

end Quiet

/-! ## Sequences of replacements -/

/-- The files that were replaced, the last replacement first. -/
abbrev Writes := List (Path × Bytes)

theorem lookup_join (dir a b : Str) (data : Bytes) (writes : Writes) :
    Json.lookup (Disk.join dir a) ((Disk.join dir b, data) :: writes) =
      if b = a then some data else Json.lookup (Disk.join dir a) writes := by
  rw [Json.lookup]
  by_cases h : b = a
  · rw [h, if_pos rfl, if_pos rfl]
  · rw [if_neg h, if_neg fun heq => h (Disk.join_inj heq)]

/-- The disk after a sequence of replacements, on the paths of a set. -/
def Wrote (T : Path → Prop) (writes : Writes) (nodes nodes' : Disk.Nodes) : Prop :=
  ∀ p, T p → match Json.lookup p writes with
    | some data => Disk.content nodes' p = some data
    | none => nodes' p = nodes p

/-- The disk after a sequence of replacements that may have been cut. -/
def Partly (T : Path → Prop) (writes : Writes) (nodes nodes' : Disk.Nodes) : Prop :=
  ∃ done, done <:+ writes ∧ Wrote T done nodes nodes'

section Wrote

variable {T : Path → Prop} {writes : Writes} {nodes nodes' nodes'' : Disk.Nodes} {p : Path}
  {data : Bytes}

theorem wrote_nil : Wrote T [] nodes nodes' ↔ Disk.Same T nodes nodes' := Iff.rfl

theorem Wrote.content (h : Wrote T writes nodes nodes') (hp : T p)
    (hdata : Json.lookup p writes = some data) : Disk.content nodes' p = some data := by
  have := h p hp
  rw [hdata] at this
  exact this

theorem Wrote.other (h : Wrote T writes nodes nodes') (hp : T p)
    (hnone : Json.lookup p writes = none) : nodes' p = nodes p := by
  have := h p hp
  rw [hnone] at this
  exact this

theorem Wrote.trans (h : Wrote T writes nodes nodes') (h' : Disk.Same T nodes' nodes'') :
    Wrote T writes nodes nodes'' := by
  intro p hp
  have := h p hp
  cases hl : Json.lookup p writes with
  | some data =>
      rw [hl] at this
      change Disk.content nodes'' p = some data
      rw [Disk.content, h' p hp]
      exact this
  | none =>
      rw [hl] at this
      exact (h' p hp).trans this

theorem Wrote.of_same (h : Disk.Same T nodes nodes') (h' : Wrote T writes nodes' nodes'') :
    Wrote T writes nodes nodes'' := by
  intro p hp
  have := h' p hp
  cases hl : Json.lookup p writes with
  | some data =>
      rw [hl] at this
      exact this
  | none =>
      rw [hl] at this
      exact this.trans (h p hp)

/-- One more file holds new bytes. -/
theorem Wrote.cons {path : Path} (h : Wrote T writes nodes nodes')
    (hpath : Disk.content nodes'' path = some data)
    (hother : ∀ p, T p → p ≠ path → nodes'' p = nodes' p) :
    Wrote T ((path, data) :: writes) nodes nodes'' := by
  intro p hp
  by_cases heq : path = p
  · subst heq
    rw [Json.lookup, if_pos rfl]
    exact hpath
  · have hsame := hother p hp (Ne.symm heq)
    have := h p hp
    rw [Json.lookup, if_neg heq]
    cases hl : Json.lookup p writes with
    | some data =>
        rw [hl] at this
        change Disk.content nodes'' p = some data
        rw [Disk.content, hsame]
        exact this
    | none =>
        rw [hl] at this
        exact hsame.trans this

theorem Wrote.mono {S : Path → Prop} (h : Wrote T writes nodes nodes') (hS : ∀ p, S p → T p) :
    Wrote S writes nodes nodes' := fun p hp => h p (hS p hp)

theorem Wrote.partly (h : Wrote T writes nodes nodes') : Partly T writes nodes nodes' :=
  ⟨writes, List.suffix_refl writes, h⟩

theorem Partly.of_suffix {writes' : Writes} (h : Partly T writes nodes nodes')
    (hs : writes <:+ writes') : Partly T writes' nodes nodes' := by
  obtain ⟨done, hdone, hwrote⟩ := h
  exact ⟨done, hdone.trans hs, hwrote⟩

theorem Partly.trans (h : Partly T writes nodes nodes') (h' : Disk.Same T nodes' nodes'') :
    Partly T writes nodes nodes'' := by
  obtain ⟨done, hdone, hwrote⟩ := h
  exact ⟨done, hdone, hwrote.trans h'⟩

theorem partly_of_same (h : Disk.Same T nodes nodes') (writes : Writes) :
    Partly T writes nodes nodes' := ⟨[], List.nil_suffix, h⟩

/-- A path that the sequence does not name is as before. -/
theorem Partly.other (h : Partly T writes nodes nodes') (hp : T p)
    (hnone : Json.lookup p writes = none) : nodes' p = nodes p := by
  obtain ⟨done, hdone, hwrote⟩ := h
  refine hwrote.other hp ?_
  rw [Json.lookup_eq_none] at hnone ⊢
  exact fun hmem => hnone ((hdone.map Prod.fst).subset hmem)

/-- A replacement behind a sequence of replacements. -/
theorem wp_write {env : Os} {path : Path} {m : Disk.Machine} (h : Tracked env path T) (mode : Nat)
    (hm : Wrote T writes nodes m.nodes) :
    wp env (atomicWriteBytes path data mode)
      ⟨fun _ m' => Wrote T ((path, data) :: writes) nodes m'.nodes,
        fun _ m' => Partly T ((path, data) :: writes) nodes m'.nodes,
        fun m' => Partly T ((path, data) :: writes) nodes m'.nodes⟩ m := by
  have hdone : ∀ m' : Disk.Machine, Replaced T path data m.nodes m' →
      Wrote T ((path, data) :: writes) nodes m'.nodes := by
    rintro m' ⟨f, hf, hsame⟩ p hp
    have hnow := hsame p hp
    by_cases heq : path = p
    · subst heq
      rw [Disk.put_self] at hnow
      rw [Json.lookup, if_pos rfl]
      simp only [Disk.content, hnow, hf]
    · rw [Disk.put_other (Ne.symm heq)] at hnow
      have hbefore := hm p hp
      rw [Json.lookup, if_neg heq]
      cases hl : Json.lookup p writes with
      | some data =>
          rw [hl] at hbefore
          change Disk.content m'.nodes p = some data
          rw [Disk.content, hnow]
          exact hbefore
      | none =>
          rw [hl] at hbefore
          exact hnow.trans hbefore
  have hcut : ∀ m' : Disk.Machine, Before T m.nodes m' ∨ Replaced T path data m.nodes m' →
      Partly T ((path, data) :: writes) nodes m'.nodes := by
    intro m' hm'
    rcases hm' with hm' | hm'
    · exact (hm.trans hm').partly.of_suffix (List.suffix_cons _ _)
    · exact (hdone m' hm').partly
  exact (wp_atomicWriteBytes h data mode m).mono ⟨fun _ => hdone, fun _ => hcut, hcut⟩

/-- The same with a JSON value. -/
theorem wp_writeJson {env : Os} {rt : Runtime} {path : Path} {value : Json} {m : Disk.Machine}
    (h : Tracked env path T) (mode : Nat) (hm : Wrote T writes nodes m.nodes) :
    wp env (atomicWriteJson rt path value mode)
      ⟨fun _ m' => ∃ data, encodeJson rt .pretty value = .ok data ∧
          Wrote T ((path, data ++ [10]) :: writes) nodes m'.nodes,
        fun _ m' => (∃ e, encodeJson rt .pretty value = .error e ∧
            Wrote T writes nodes m'.nodes) ∨ ∃ data, encodeJson rt .pretty value = .ok data ∧
            Partly T ((path, data ++ [10]) :: writes) nodes m'.nodes,
        fun m' => ∃ data, encodeJson rt .pretty value = .ok data ∧
          Partly T ((path, data ++ [10]) :: writes) nodes m'.nodes⟩ m := by
  unfold atomicWriteJson
  rw [wp_bind, wp_liftExcept]
  refine ⟨?_, fun e he => .inl ⟨e, he, hm⟩⟩
  intro data hdata
  exact (wp_write h mode hm).mono ⟨fun _ _ hw => ⟨data, hdata, hw⟩,
    fun _ _ hw => .inr ⟨data, hdata, hw⟩, fun _ hw => ⟨data, hdata, hw⟩⟩

end Wrote

/-! ## Replacements in a calm environment -/

/-- The paths above which a directory lies stay out of sight, and so does its lock. -/
def Beside (dir p : Path) : Prop :=
  Disk.Action.isParent p dir = false ∧ p ≠ Disk.join dir lockName

theorem beside_join {dir name : Str} (h : name ≠ lockName) : Beside dir (Disk.join dir name) :=
  ⟨Disk.isParent_join dir name, fun heq => h (Disk.join_inj heq)⟩

theorem Ordinary.ne_lockName {name : Str} (h : Ordinary name) : name ≠ lockName := by
  rintro rfl
  exact h.visible rfl

/-- A temporary name is not the name of the lock. -/
theorem Ordinary.temporary_ne_lockName {name : Str} (h : Ordinary name) (s : Str) :
    str "." ++ name ++ str "." ++ s ≠ lockName := by
  intro heq
  cases name with
  | nil =>
      have hsecond := congrArg (fun n : Str => n[1]?) heq
      have hne : some (Text.ofChar '.') ≠ some (Text.ofChar 'u') := by decide
      exact hne hsecond
  | cons c name =>
      have hsecond := congrArg (fun n : Str => n[1]?) heq
      exact h.noLock hsecond

/-- The files of the store can be written: no directory is in the place of one, and the names
of the temporary files are free. -/
structure Clear (env : Os) (dir : Path) (names : List Str) (nodes : Disk.Nodes) : Prop where
  file : ∀ name ∈ names, nodes (Disk.join dir name) ≠ some .directory
  free : ∀ name ∈ names, ∀ t,
    nodes (Disk.join dir (str "." ++ name ++ str "." ++ env.fresh t)) = none

section Calm

variable {env : Os} {dir : Path} {names : List Str} {nodes : Disk.Nodes} {m : Disk.Machine}

theorem Clear.of_same {nodes' : Disk.Nodes} (h : Clear env dir names nodes)
    (hnames : ∀ name ∈ names, Ordinary name) (hsame : Disk.Same (Beside dir) nodes nodes') :
    Clear env dir names nodes' := by
  refine ⟨?_, ?_⟩
  · intro name hname
    rw [hsame _ (beside_join (hnames name hname).ne_lockName)]
    exact h.file name hname
  · intro name hname t
    rw [hsame _ (beside_join ((hnames name hname).temporary_ne_lockName _))]
    exact h.free name hname t

theorem isFile_of_content {nodes : Disk.Nodes} {path : Path} {data : Bytes}
    (h : Disk.content nodes path = some data) : ∃ f, nodes path = some (.file f) ∧ f.content = data := by
  unfold Disk.content at h
  split at h
  · rename_i f hf
    cases h
    exact ⟨f, hf, rfl⟩
  · cases h

/-- A replacement behind a sequence of replacements, with nothing in the way. -/
theorem calm_write (h : Disk.Calm env) (hnames : ∀ name ∈ names, Ordinary name) {name : Str}
    (hname : name ∈ names) (data : Bytes) (mode : Nat) {writes : Writes}
    (hm : Wrote (Beside dir) writes nodes m.nodes) (hclear : Clear env dir names m.nodes) :
    wp env (atomicWriteBytes (Disk.join dir name) data mode)
      ⟨fun _ m' => Wrote (Beside dir) ((Disk.join dir name, data) :: writes) nodes m'.nodes ∧
          Clear env dir names m'.nodes,
        fun _ _ => False, fun _ => False⟩ m := by
  have hord := hnames name hname
  have htemporary : ∀ n ∈ names, ∀ s, Disk.join dir name ≠
      Disk.join dir (str "." ++ n ++ str "." ++ s) := by
    intro n _ s heq
    have hhead := congrArg List.head? (Disk.join_inj heq)
    exact hord.visible hhead
  refine (calm_atomicWriteBytes h data mode m ?_ ?_ ?_ ?_ ?_).mono
    ⟨?_, fun _ _ => False.elim, fun _ => False.elim⟩
  · rw [hord.parent]
    exact Disk.isParent_join dir name
  · intro s
    rw [hord.parent]
    exact Disk.isParent_join dir _
  · intro t
    rw [hord.parent, hord.temporaryPrefix]
    exact hclear.free name hname t
  · intro s
    rw [hord.parent, hord.temporaryPrefix]
    exact htemporary name hname s
  · exact hclear.file name hname
  · rintro _ m' ⟨f, hf, hput⟩
    rw [hord.parent] at hput
    have hself : m'.nodes (Disk.join dir name) = some (.file f) := by
      rw [hput _ (Disk.isParent_join dir name), Disk.put_self]
    refine ⟨hm.cons ?_ ?_, ?_, ?_⟩
    · simp only [Disk.content, hself, hf]
    · intro p hp hne
      rw [hput p hp.1, Disk.put_other hne]
    · intro n hn
      rw [hput _ (Disk.isParent_join dir n)]
      by_cases heq : Disk.join dir n = Disk.join dir name
      · rw [heq, Disk.put_self]
        simp
      · rw [Disk.put_other heq]
        exact hclear.file n hn
    · intro n hn t
      rw [hput _ (Disk.isParent_join dir _), Disk.put_other (htemporary n hn _).symm]
      exact hclear.free n hn t

theorem calm_writeJson (h : Disk.Calm env) (hnames : ∀ name ∈ names, Ordinary name) {name : Str}
    (hname : name ∈ names) {rt : Runtime} {value : Json} {data : Bytes}
    (hdata : encodeJson rt .pretty value = .ok data) (mode : Nat) {writes : Writes}
    (hm : Wrote (Beside dir) writes nodes m.nodes) (hclear : Clear env dir names m.nodes) :
    wp env (atomicWriteJson rt (Disk.join dir name) value mode)
      ⟨fun _ m' => Wrote (Beside dir) ((Disk.join dir name, data ++ [10]) :: writes) nodes m'.nodes ∧
          Clear env dir names m'.nodes,
        fun _ _ => False, fun _ => False⟩ m := by
  unfold atomicWriteJson
  rw [wp_bind, hdata, wp_liftExcept_ok, Post.withOk_ok]
  exact calm_write h hnames hname _ mode hm hclear

/-- The lock is taken and the body runs on the files as they were. -/
theorem calm_lock {α : Type} (h : Disk.Calm env) (hnames : ∀ name ∈ names, Ordinary name)
    (hclear : Clear env dir names m.nodes)
    (hlock : m.nodes (Disk.join dir lockName) ≠ some .directory)
    {body : Io α} {ok : α → Disk.Nodes → Prop}
    (hbody : ∀ m', Disk.Same (Beside dir) m.nodes m'.nodes → Clear env dir names m'.nodes →
      wp env body ⟨fun a m' => ok a m'.nodes, fun _ _ => False, fun _ => False⟩ m') :
    wp env (updateLock (Disk.join dir lockName) body)
      ⟨fun a m' => ok a m'.nodes, fun _ _ => False, fun _ => False⟩ m := by
  refine calm_updateLock h ?_ hlock ?_
  · rw [parent_lockName]
    exact Disk.isParent_join dir _
  · intro m' hm'
    rw [parent_lockName] at hm'
    have hsame : Disk.Same (Beside dir) m.nodes m'.nodes := fun p hp => hm' p hp.2 hp.1
    exact hbody m' hsame (hclear.of_same hnames hsame)

end Calm

/-! ## Directories -/

/-- No entry of a directory is itself a directory. -/
def Plain (dir : Path) (nodes : Disk.Nodes) : Prop :=
  ∀ name, nodes (Disk.join dir name) ≠ some .directory

section Plain

variable {env : Os} {dir : Path} {nodes nodes' : Disk.Nodes}

theorem Plain.of_same {T : Path → Prop} (h : Plain dir nodes) (hT : ∀ name, T (Disk.join dir name))
    (hsame : Disk.Same T nodes nodes') : Plain dir nodes' := by
  intro name
  rw [hsame _ (hT name)]
  exact h name

theorem Plain.others (h : Plain dir nodes) (hquiet : Quiet env dir) (t : Nat) :
    Plain dir (env.others t nodes) := by
  intro name
  rw [hquiet t nodes name]
  exact h name

theorem Plain.put (h : Plain dir nodes) (path : Path) {node : Option Disk.Node}
    (hnode : node ≠ some .directory) : Plain dir (Disk.put nodes path node) := by
  intro name
  by_cases heq : Disk.join dir name = path
  · rw [heq, Disk.put_self]
    exact hnode
  · rw [Disk.put_other heq]
    exact h name

theorem Plain.mkdir (h : Plain dir nodes) {t : Nat} {u : Unit}
    (ha : Disk.Action.mkdir dir env t nodes = some (u, nodes')) : Plain dir nodes' :=
  h.of_same (T := fun p => ∃ name, p = Disk.join dir name) (fun name => ⟨name, rfl⟩)
    (same_mkdir (by rintro p ⟨name, rfl⟩; exact Disk.isParent_join dir name) ha)

/-- A call whose action keeps the directory plain. -/
theorem keeps_plain {α : Type} (hquiet : Quiet env dir) {action : Disk.Action OsError α}
    (haction : ∀ t nodes a nodes', Plain dir nodes → action env t nodes = some (a, nodes') →
      Plain dir nodes') : Keeps env (Assertion.always fun m => Plain dir m.nodes) (sys action) :=
  Disk.keeps_sys (fun t _ hn => hn.others hquiet t) haction

theorem keeps_plain_look {α : Type} (hquiet : Quiet env dir) (f : Disk.Nodes → Option α) :
    Keeps env (Assertion.always fun m => Plain dir m.nodes) (sys (Disk.Action.look f)) :=
  keeps_plain hquiet fun _ _ _ _ hn ha => Disk.look_keeps hn ha

theorem keeps_plain_write (hquiet : Quiet env dir) {name : Str} (hname : Ordinary name)
    (data : Bytes) (mode : Nat) : Keeps env (Assertion.always fun m => Plain dir m.nodes)
      (atomicWriteBytes (Disk.join dir name) data mode) := by
  have hsuppress : ∀ {action : Disk.Action OsError Unit}, Keeps env
      (Assertion.always fun m => Plain dir m.nodes) (sys action) →
      Keeps env (Assertion.always fun m => Plain dir m.nodes)
        (Prog.suppress PyError.isOs (sys action)) :=
    fun h => Keeps.tryExcept h fun _ _ _ hm => hm
  have hfill : ∀ temporary, Keeps env (Assertion.always fun m => Plain dir m.nodes)
      (fillAndReplace temporary (Disk.join dir name) data mode) := by
    intro temporary
    refine Keeps.bind (keeps_plain hquiet ?_) fun _ => ?_
    · intro t n a n' hn ha
      unfold Disk.Action.write at ha
      split at ha
      · cases ha
        exact hn.put _ (by simp)
      · cases ha
        exact hn
    refine Keeps.bind (keeps_plain_look hquiet _) fun _ => ?_
    refine Keeps.bind (hsuppress (keeps_plain hquiet ?_)) fun _ => ?_
    · intro t n a n' hn ha
      unfold Disk.Action.chmod at ha
      split at ha
      · cases ha
        exact hn.put _ (by simp)
      · cases ha
        exact hn
    refine Keeps.bind (keeps_plain hquiet ?_) fun _ =>
      keeps_fsyncDirectory fun t n hn => hn.others hquiet t
    intro t n a n' hn ha
    obtain ⟨f, -, hput⟩ := Disk.Action.replace_some ha
    rw [hput]
    exact (hn.put _ (by simp)).put _ (by simp)
  unfold atomicWriteBytes
  rw [hname.parent]
  refine Keeps.bind (keeps_plain hquiet fun _ _ _ _ hn ha => hn.mkdir ha) fun _ => ?_
  refine Keeps.bind (keeps_plain hquiet ?_) fun temporary => ?_
  · intro t n a n' hn ha
    obtain ⟨-, -, hput⟩ := Disk.Action.mkstemp_some ha
    rw [hput]
    exact hn.put _ (by simp)
  refine Keeps.tryExcept (hfill temporary) fun e _ => ?_
  refine Keeps.bind (hsuppress (keeps_plain hquiet ?_)) fun _ => Keeps.raise fun _ hs => hs
  intro t n a n' hn ha
  rw [(Disk.Action.unlink_some ha).2]
  exact hn.put _ (by simp)

theorem keeps_plain_writeJson (hquiet : Quiet env dir) {name : Str} (hname : Ordinary name)
    (rt : Runtime) (value : Json) (mode : Nat) :
    Keeps env (Assertion.always fun m => Plain dir m.nodes)
      (atomicWriteJson rt (Disk.join dir name) value mode) :=
  Keeps.bind (Keeps.liftExcept fun _ _ _ hs => hs) fun _ => keeps_plain_write hquiet hname _ mode

theorem keeps_plain_lock {α : Type} (hquiet : Quiet env dir) {lock : Str}
    (hlock : Text.ofChar '/' ∉ lock) {body : Io α}
    (hbody : Keeps env (Assertion.always fun m => Plain dir m.nodes) body) :
    Keeps env (Assertion.always fun m => Plain dir m.nodes)
      (updateLock (Disk.join dir lock) body) := by
  have htouch := keeps_plain_look (α := Unit) hquiet fun _ => some ()
  unfold updateLock
  rw [Disk.parent_join hlock]
  refine Keeps.bind (keeps_plain hquiet fun _ _ _ _ hn ha => hn.mkdir ha) fun _ => ?_
  refine Keeps.bind (keeps_plain hquiet ?_) fun _ => ?_
  · intro t n a n' hn ha
    unfold Disk.Action.append at ha
    split at ha
    · cases ha
      exact hn.put _ (by simp)
    · cases ha
    · cases ha
      exact hn
  have hguard : Keeps env (Assertion.always fun m => Plain dir m.nodes)
      (Prog.tryExcept (sys Disk.Action.touch) PyError.isOs fun _ =>
        (Prog.raise (.shield (.feedError (str "another feed update is already in progress"))) :
          Io Unit)) := Keeps.tryExcept htouch fun _ _ _ hs => hs
  have hrelease : Keeps env (Assertion.always fun m => Plain dir m.nodes)
      (Prog.suppress PyError.isOs (sys Disk.Action.touch)) :=
    Keeps.tryExcept htouch fun _ _ _ hs => hs
  intro m hm
  rw [wp_tryFinally]
  refine (Keeps.bind hguard fun _ => hbody) m hm |>.mono ⟨?_, ?_, fun _ hs => hs⟩
  · exact fun _ m' hm' => (hrelease m' hm').mono ⟨fun _ _ hs => hs, fun _ _ hs => hs, fun _ hs => hs⟩
  · exact fun _ m' hm' => (hrelease m' hm').mono ⟨fun _ _ hs => hs, fun _ _ hs => hs, fun _ hs => hs⟩

end Plain

/-! ## What a file holds -/

/-- A file holds a value that `parse` reads, or there is none. -/
def Holds {α : Type} (parse : Bytes → Except PyError α) (nodes : Disk.Nodes) (path : Path) :
    Option α → Prop
  | none => nodes path = none
  | some a => ∃ raw, Disk.content nodes path = some raw ∧ parse raw = .ok a

section Holds

variable {α : Type} {parse : Bytes → Except PyError α} {nodes nodes' : Disk.Nodes} {path : Path}

theorem Holds.unique {a b : Option α} (ha : Holds parse nodes path a)
    (hb : Holds parse nodes path b) : a = b := by
  cases a with
  | none =>
      cases b with
      | none => rfl
      | some _ =>
          obtain ⟨raw, hraw, -⟩ := hb
          rw [Holds] at ha
          rw [Disk.content, ha] at hraw
          cases hraw
  | some _ =>
      obtain ⟨raw, hraw, hparse⟩ := ha
      cases b with
      | none =>
          rw [Holds] at hb
          rw [Disk.content, hb] at hraw
          cases hraw
      | some _ =>
          obtain ⟨raw', hraw', hparse'⟩ := hb
          rw [hraw] at hraw'
          cases hraw'
          rw [hparse] at hparse'
          cases hparse'
          rfl

theorem Holds.of_eq {a : Option α} (h : Holds parse nodes path a) (heq : nodes' path = nodes path) :
    Holds parse nodes' path a := by
  cases a with
  | none => exact heq.trans h
  | some _ =>
      obtain ⟨raw, hraw, hparse⟩ := h
      refine ⟨raw, ?_, hparse⟩
      rw [← hraw, Disk.content, Disk.content, heq]

end Holds

end Util

end ZsecShield
