import ZsecShield.Lib.Disk

/-!
# Directories and open files

The system calls on whole directories, on hard links and on descriptors, and the two that draw
from the environment: random bytes and the clock.  A descriptor stands for the file that was
opened: the file under the path, as long as it is still the same one, and its last bytes after
that.
-/

namespace Disk

open Text (Str)
open Effect

variable {κ ε α : Type}

namespace Action

/-- `tempfile.mkdtemp(prefix=…, dir=…)`: a new directory under a name nobody has. -/
def mkdtemp (directory namePrefix : Str) : Action κ Str := fun env t nodes =>
  let path := join directory (namePrefix ++ env.fresh t)
  if nodes path = none then some (path, put nodes path (some .directory)) else none

/-- The nodes after a directory was moved. -/
def moved (source target : Str) (nodes : Nodes) : Nodes := fun p =>
  if isParent target p then nodes (source ++ p.drop target.length)
  else if isParent source p then none else nodes p

/-- `source.rename(target)` of a directory to a name that is free. -/
def renameTree (source target : Str) : Action κ Unit := fun _ _ nodes =>
  if nodes source = some .directory ∧ nodes target = none then
    some ((), moved source target nodes)
  else none

/-- `shutil.rmtree(path)`. -/
def rmtree (path : Str) : Action κ Unit := fun _ _ nodes =>
  if nodes path = some .directory then
    some ((), fun p => if isParent path p then none else nodes p)
  else none

/-- `os.link(source, target)`: refused if the target is there. -/
def link (source target : Str) : Action κ Unit := fun _ _ nodes =>
  match nodes source, nodes target with
  | some (.file f), none => some ((), put nodes target (some (.file f)))
  | _, _ => none

/-- `os.utime(path, ns=(ns, ns))`. -/
def utime (path : Str) (ns : Int) : Action κ Unit := fun _ _ nodes =>
  match nodes path with
  | some (.file f) => some ((), put nodes path (some (.file { f with modifiedNs := ns })))
  | some _ => some ((), nodes)
  | none => none

/-- `path.open("xb")`: a new file. -/
def createNew (path : Str) : Action κ Unit := fun env t nodes =>
  if nodes path = none then
    some ((), put nodes path (some (.file { env.created t with content := [] })))
  else none

/-- Write at the end of an open file. -/
def extend (path : Str) (data : Bytes) : Action κ Unit := fun _ _ nodes =>
  match nodes path with
  | some (.file f) => some ((), put nodes path (some (.file { f with content := f.content ++ data })))
  | _ => some ((), nodes)

/-- `os.open(path, O_RDONLY | O_NOFOLLOW)`: what was opened. -/
def openRead (path : Str) : Action κ Node := look fun nodes =>
  match nodes path with
  | none | some .link => none
  | some node => some node

/-- `path.open("rb")`: the file that was opened. -/
def openFile (path : Str) : Action κ File := look fun nodes =>
  match nodes path with
  | some (.file f) => some f
  | _ => none

/-- `path.is_symlink()`. -/
def isLink (path : Str) : Action κ Bool := look fun nodes => some (decide (nodes path = some .link))

/-- The file behind a descriptor. -/
def opened (path : Str) (f : File) (nodes : Nodes) : File :=
  match nodes path with
  | some (.file g) => if g.device = f.device ∧ g.inode = f.inode then g else f
  | _ => f

/-- `os.fstat(descriptor)` of a regular file. -/
def fstat (path : Str) (f : File) : Action κ File := look fun nodes => some (opened path f nodes)

/-- `os.read(descriptor, count)` with the file position at `offset`. -/
def readAt (path : Str) (f : File) (offset count : Nat) : Action κ Bytes :=
  look fun nodes => some (((opened path f nodes).content.drop offset).take count)

/-- `os.urandom(n)`. -/
def urandom (n : Nat) : Action κ Bytes := fun env t nodes => some (env.random t n, nodes)

/-- `datetime.now(UTC)`. -/
def now : Action κ DateTime := fun env t nodes => some (env.clock t, nodes)

variable {env : Env κ} {t : Nat} {nodes nodes' : Nodes}

theorem look_some {f : Nodes → Option α} {a : α}
    (h : (look f : Action κ α) env t nodes = some (a, nodes')) : f nodes = some a ∧ nodes' = nodes := by
  obtain ⟨b, hb, heq⟩ := Option.map_eq_some_iff.1 h
  cases heq
  exact ⟨hb, rfl⟩

theorem mkdtemp_some {directory namePrefix path : Str}
    (h : mkdtemp directory namePrefix env t nodes = some (path, nodes')) :
    path = join directory (namePrefix ++ env.fresh t) ∧ nodes path = none ∧
      nodes' = put nodes path (some .directory) := by
  simp only [mkdtemp] at h
  split at h
  · rename_i hnone
    cases h
    exact ⟨rfl, hnone, rfl⟩
  · cases h

theorem renameTree_some {source target : Str} {u : Unit}
    (h : renameTree source target env t nodes = some (u, nodes')) :
    nodes source = some .directory ∧ nodes target = none ∧ nodes' = moved source target nodes := by
  unfold renameTree at h
  split at h
  · rename_i hnodes
    cases h
    exact ⟨hnodes.1, hnodes.2, rfl⟩
  · cases h

theorem rmtree_some {path : Str} {u : Unit} (h : rmtree path env t nodes = some (u, nodes')) :
    nodes' = fun p => if isParent path p then none else nodes p := by
  unfold rmtree at h
  split at h
  · cases h
    rfl
  · cases h

theorem link_some {source target : Str} {u : Unit}
    (h : link source target env t nodes = some (u, nodes')) :
    ∃ f, nodes source = some (.file f) ∧ nodes target = none ∧
      nodes' = put nodes target (some (.file f)) := by
  simp only [link] at h
  split at h
  · rename_i hsource htarget
    cases h
    exact ⟨_, hsource, htarget, rfl⟩
  · cases h

theorem utime_some {path : Str} {ns : Int} {u : Unit}
    (h : utime path ns env t nodes = some (u, nodes')) :
    (∃ f, nodes path = some (.file f) ∧
      nodes' = put nodes path (some (.file { f with modifiedNs := ns }))) ∨ nodes' = nodes := by
  simp only [utime] at h
  split at h
  · rename_i f hf
    cases h
    exact .inl ⟨f, hf, rfl⟩
  · cases h
    exact .inr rfl
  · cases h

theorem createNew_some {path : Str} {u : Unit} (h : createNew path env t nodes = some (u, nodes')) :
    nodes path = none ∧ nodes' = put nodes path (some (.file { env.created t with content := [] })) := by
  unfold createNew at h
  split at h
  · rename_i hnone
    cases h
    exact ⟨hnone, rfl⟩
  · cases h

theorem extend_some {path : Str} {data : Bytes} {f : File} {u : Unit}
    (hf : nodes path = some (.file f)) (h : extend path data env t nodes = some (u, nodes')) :
    nodes' = put nodes path (some (.file { f with content := f.content ++ data })) := by
  simp only [extend, hf] at h
  cases h
  rfl

end Action

/-! ## Paths below a path -/

/-- `p` is `directory` or lies below it. -/
abbrev Below (directory p : Str) : Prop := Action.isParent directory p = true

theorem below_iff {directory p : Str} :
    Below directory p ↔ p = directory ∨ ∃ rest, p = join directory rest := by
  unfold Below Action.isParent
  rw [List.isPrefixOf_iff_prefix]
  constructor
  · rintro ⟨rest, hrest⟩
    obtain hnil | ⟨rest', c, rfl⟩ := List.eq_nil_or_concat rest
    · rw [hnil, List.append_nil] at hrest
      exact .inl (List.append_cancel_right hrest).symm
    · rw [List.concat_eq_append, ← List.append_assoc] at hrest
      have hp : directory ++ [Text.ofChar '/'] ++ rest' = p := (List.append_inj' hrest rfl).1
      exact .inr ⟨rest', by rw [← hp, join, List.append_assoc]; rfl⟩
  · rintro (rfl | ⟨rest, rfl⟩)
    · exact List.prefix_refl _
    · exact ⟨rest ++ [Text.ofChar '/'], by simp [join]⟩

theorem below_refl (p : Str) : Below p p := below_iff.2 (.inl rfl)

theorem below_join (directory rest : Str) : Below directory (join directory rest) :=
  below_iff.2 (.inr ⟨rest, rfl⟩)

theorem below_trans {a b c : Str} (h : Below a b) (h' : Below b c) : Below a c := by
  unfold Below Action.isParent at *
  rw [List.isPrefixOf_iff_prefix] at *
  exact h.trans h'

theorem Below.length_le {a b : Str} (h : Below a b) : a.length ≤ b.length := isParent_length h

/-- Of two paths above one path, one lies above the other. -/
theorem below_total {a b p : Str} (ha : Below a p) (hb : Below b p) : Below a b ∨ Below b a := by
  unfold Below Action.isParent at *
  simp only [List.isPrefixOf_iff_prefix] at *
  exact List.prefix_or_prefix_of_prefix ha hb

/-- Two entries of a directory do not lie one below the other. -/
theorem not_below_entries {directory a b : Str} (hb : Text.ofChar '/' ∉ b) (h : a ≠ b) :
    ¬ Below (join directory a) (join directory b) := by
  intro hbelow
  obtain heq | ⟨rest, heq⟩ := below_iff.1 hbelow
  · exact h (join_inj heq).symm
  · have hsplit : join directory b = join directory (join a rest) := by
      rw [heq]
      simp [join]
    exact hb (by rw [join_inj hsplit]; simp [join])

/-- Names of which one lies below the other start alike. -/
theorem head_of_below {directory a b : Str} {x y : Text.CodePoint}
    (h : Below (join directory (x :: a)) (join directory (y :: b))) : x = y := by
  unfold Below Action.isParent at h
  rw [List.isPrefixOf_iff_prefix, join, join, List.append_assoc, List.append_assoc,
    List.prefix_append_right_inj] at h
  exact (List.cons_prefix_cons.1 (List.cons_prefix_cons.1 h).2).1

section Moved

variable {source target : Str} {nodes : Nodes}

theorem moved_join (rest : Str) :
    Action.moved source target nodes (join target rest) = nodes (join source rest) := by
  have hbelow : Action.isParent target (join target rest) = true := below_join target rest
  simp only [Action.moved, hbelow, ↓reduceIte]
  congr 1
  simp [join]

theorem moved_self : Action.moved source target nodes target = nodes source := by
  have hbelow : Action.isParent target target = true := below_refl target
  simp [Action.moved, hbelow]

theorem moved_other {p : Str} (hs : ¬ Below source p) (ht : ¬ Below target p) :
    Action.moved source target nodes p = nodes p := by
  simp only [Action.moved, Bool.not_eq_true] at *
  simp [hs, ht]

end Moved

/-- The file behind a descriptor whose path still has it. -/
theorem opened_of_file {path : Str} {f g : File} {nodes : Nodes} (h : nodes path = some (.file g))
    (hdevice : g.device = f.device) (hinode : g.inode = f.inode) :
    Action.opened path f nodes = g := by
  simp only [Action.opened, h]
  exact if_pos ⟨hdevice, hinode⟩

end Disk
