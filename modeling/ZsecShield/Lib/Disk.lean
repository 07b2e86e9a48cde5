import ZsecShield.Lib.DateTime
import ZsecShield.Lib.Effect

/-!
# Programs on a disk

A disk maps paths to nodes.  A program changes it through system calls, and the
environment decides the fate of each one: it is done, it fails, or the process stops
in front of it.  Before every call other processes may have changed the disk
(`Env.others`).  A call that is done may still be refused, because there is no such
file, and then it fails like any other.

What a call does is a partial function on disks (`Effect`), so the rule for a call
(`wp_sys`) speaks about that function alone.
-/

namespace Disk

open Text (Str)
open Effect

/-- A regular file with the fields of its `stat` record. -/
structure File where
  content : Bytes
  device : Nat
  inode : Nat
  modifiedNs : Int
  mode : Nat
deriving DecidableEq

inductive Node where
  | file (file : File)
  | directory
  | link
  | special
deriving DecidableEq

/-- What stands under each path. -/
abbrev Nodes := Str → Option Node

/-- The bytes of the regular file under a path. -/
def content (nodes : Nodes) (path : Str) : Option Bytes :=
  match nodes path with
  | some (.file f) => some f.content
  | _ => none

/-- `directory / name`. -/
def join (directory name : Str) : Str := directory ++ (Text.ofChar '/' :: name)

theorem join_inj {directory a b : Str} (h : join directory a = join directory b) : a = b := by
  have h := List.append_cancel_left h
  exact (List.cons.inj h).2

/-- `path.name`. -/
def name (path : Str) : Str := (path.reverse.takeWhile fun c => c ≠ Text.ofChar '/').reverse

/-- `path.parent`. -/
def parent (path : Str) : Str := path.take (path.length - (name path).length - 1)

theorem name_join {directory n : Str} (h : Text.ofChar '/' ∉ n) : name (join directory n) = n := by
  have hall : ∀ c ∈ n.reverse, (decide (c ≠ Text.ofChar '/')) = true := by
    intro c hc
    rw [decide_eq_true_eq]
    intro heq
    exact h (heq ▸ List.mem_reverse.1 hc)
  simp only [name, join, List.reverse_append, List.reverse_cons, List.append_assoc]
  rw [List.takeWhile_append_of_pos hall]
  simp

theorem parent_join {directory n : Str} (h : Text.ofChar '/' ∉ n) :
    parent (join directory n) = directory := by
  have hlen : (join directory n).length - n.length - 1 = directory.length := by
    simp only [join, List.length_append, List.length_cons]
    omega
  rw [parent, name_join h, hlen, join, List.take_left]

def put (nodes : Nodes) (path : Str) (node : Option Node) : Nodes :=
  fun p => if p = path then node else nodes p

@[simp] theorem put_self (nodes : Nodes) (path : Str) (node : Option Node) :
    put nodes path node path = node := if_pos rfl

theorem put_other {nodes : Nodes} {path p : Str} (h : p ≠ path) (node : Option Node) :
    put nodes path node p = nodes p := if_neg h

@[simp] theorem put_put (nodes : Nodes) (path : Str) (a b : Option Node) :
    put (put nodes path a) path b = put nodes path b := by
  funext p
  simp only [put]
  split <;> rfl

/-! ## System calls -/

/-- What becomes of a system call. -/
inductive Fate where
  | done
  | fails
  | stops
deriving DecidableEq

/-- What the environment decides, call by call. -/
structure Env (κ : Type) where
  fate : Nat → Fate
  error : Nat → κ
  others : Nat → Nodes → Nodes
  /-- The random part of a name. -/
  fresh : Nat → Str
  /-- `os.urandom`. -/
  random : Nat → Nat → Bytes
  length_random : ∀ t n, (random t n).length = n
  clock : Nat → DateTime
  /-- The `stat` fields of a file created by a call. -/
  created : Nat → File

/-- The disk and the number of calls made so far. -/
structure Machine where
  nodes : Nodes
  tick : Nat

variable {κ ε α : Type}

/-- The effect of a call that is done: nothing if the file system refuses it. -/
abbrev Action (κ α : Type) := Env κ → Nat → Nodes → Option (α × Nodes)

/-- The machine when a call takes place. -/
def Machine.next (env : Env κ) (m : Machine) : Machine :=
  ⟨env.others m.tick m.nodes, m.tick + 1⟩

/-- A system call. -/
def sys (wrap : κ → ε) (action : Action κ α) : Prog (Env κ) Machine ε α := fun env m =>
  match env.fate m.tick with
  | .stops => (.halted, m.next env)
  | .fails => (.raised (wrap (env.error m.tick)), m.next env)
  | .done =>
      match action env m.tick (m.next env).nodes with
      | none => (.raised (wrap (env.error m.tick)), m.next env)
      | some (a, nodes) => (.ok a, ⟨nodes, m.tick + 1⟩)

theorem wp_sys {env : Env κ} {wrap : κ → ε} {action : Action κ α} {Q : Post Machine ε α}
    {m : Machine} (hhalted : Q.halted (m.next env))
    (hraised : ∀ e, Q.raised (wrap e) (m.next env))
    (hok : ∀ a nodes, env.fate m.tick = .done →
      action env m.tick (m.next env).nodes = some (a, nodes) → Q.ok a ⟨nodes, m.tick + 1⟩) :
    wp env (sys wrap action) Q m := by
  unfold wp sys
  cases hfate : env.fate m.tick with
  | stops => exact hhalted
  | fails => exact hraised _
  | done =>
      cases haction : action env m.tick (m.next env).nodes with
      | none => exact hraised _
      | some p => exact hok p.1 p.2 hfate haction

/-- A call that is done and not refused returns. -/
theorem sys_done {env : Env κ} {wrap : κ → ε} {action : Action κ α} {m : Machine} {a : α}
    {nodes : Nodes} (hfate : env.fate m.tick = .done)
    (haction : action env m.tick (m.next env).nodes = some (a, nodes)) :
    sys wrap action env m = (.ok a, ⟨nodes, m.tick + 1⟩) := by
  simp only [sys, hfate, haction]

/-! ## Actions -/

namespace Action

/-- A call that only looks. -/
def look (f : Nodes → Option α) : Action κ α := fun _ _ nodes => (f nodes).map fun a => (a, nodes)

/-- `path.exists()`. -/
def existsAt (path : Str) : Action κ Bool := look fun nodes => some (nodes path).isSome

/-- `path.is_file()`. -/
def isFile (path : Str) : Action κ Bool := look fun nodes =>
  match nodes path with
  | some (.file _) => some true
  | _ => some false

/-- `path.lstat()`. -/
def lstat (path : Str) : Action κ Node := look fun nodes => nodes path

/-- `path.stat().st_size` of a regular file. -/
def size (path : Str) : Action κ Nat := look fun nodes => (content nodes path).map List.length

/-- `path.read_bytes()`. -/
def read (path : Str) : Action κ Bytes := look fun nodes => content nodes path

/-- A path is another one or one of its parents. -/
def isParent (p path : Str) : Bool := (p ++ [Text.ofChar '/']).isPrefixOf (path ++ [Text.ofChar '/'])

/-- `path.mkdir(parents=True, exist_ok=True)`. -/
def mkdir (path : Str) : Action κ Unit := fun _ _ nodes =>
  some ((), fun p => if isParent p path && (nodes p).isNone then some .directory else nodes p)

/-- `tempfile.mkstemp(prefix=…, dir=…)`: a new file under a name nobody has. -/
def mkstemp (directory namePrefix : Str) : Action κ Str := fun env t nodes =>
  let path := join directory (namePrefix ++ env.fresh t)
  if nodes path = none then
    some (path, put nodes path (some (.file { env.created t with content := [] })))
  else none

/-- Write the bytes of an open file. -/
def write (path : Str) (data : Bytes) : Action κ Unit := fun _ _ nodes =>
  match nodes path with
  | some (.file f) => some ((), put nodes path (some (.file { f with content := data })))
  | _ => some ((), nodes)

/-- `os.chmod`. -/
def chmod (path : Str) (mode : Nat) : Action κ Unit := fun _ _ nodes =>
  match nodes path with
  | some (.file f) => some ((), put nodes path (some (.file { f with mode := mode })))
  | _ => some ((), nodes)

/-- A call without an effect on the nodes: `flush`, `fsync`, `open`, `close`. -/
def touch : Action κ Unit := look fun _ => some ()

/-- Open a file for appending, creating it if there is none. -/
def append (path : Str) : Action κ Unit := fun env t nodes =>
  match nodes path with
  | none => some ((), put nodes path (some (.file { env.created t with content := [] })))
  | some .directory => none
  | some _ => some ((), nodes)

/-- `os.replace(source, target)` of a regular file. -/
def replace (source target : Str) : Action κ Unit := fun _ _ nodes =>
  match nodes source, nodes target with
  | some (.file _), some .directory => none
  | some (.file f), _ => some ((), put (put nodes source none) target (some (.file f)))
  | _, _ => none

/-- `path.unlink()`. -/
def unlink (path : Str) : Action κ Unit := fun _ _ nodes =>
  match nodes path with
  | none | some .directory => none
  | some _ => some ((), put nodes path none)

variable {env : Env κ} {t : Nat} {nodes nodes' : Nodes}

theorem mkstemp_some {directory namePrefix path : Str}
    (h : mkstemp directory namePrefix env t nodes = some (path, nodes')) :
    path = join directory (namePrefix ++ env.fresh t) ∧ nodes path = none ∧
      nodes' = put nodes path (some (.file { env.created t with content := [] })) := by
  simp only [mkstemp] at h
  split at h
  · rename_i hnone
    cases h
    exact ⟨rfl, hnone, rfl⟩
  · cases h

theorem write_some {path : Str} {data : Bytes} {f : File} {a : Unit}
    (hf : nodes path = some (.file f)) (h : write path data env t nodes = some (a, nodes')) :
    nodes' = put nodes path (some (.file { f with content := data })) := by
  simp only [write, hf] at h
  cases h
  rfl

theorem chmod_some {path : Str} {mode : Nat} {f : File} {a : Unit}
    (hf : nodes path = some (.file f)) (h : chmod path mode env t nodes = some (a, nodes')) :
    nodes' = put nodes path (some (.file { f with mode := mode })) := by
  simp only [chmod, hf] at h
  cases h
  rfl

theorem replace_some {source target : Str} {a : Unit}
    (h : replace source target env t nodes = some (a, nodes')) :
    ∃ f, nodes source = some (.file f) ∧
      nodes' = put (put nodes source none) target (some (.file f)) := by
  simp only [replace] at h
  split at h
  · cases h
  · rename_i hf _
    cases h
    exact ⟨_, hf, rfl⟩
  · cases h

theorem replace_eq {source target : Str} {f : File} (hf : nodes source = some (.file f))
    (htarget : nodes target ≠ some .directory) :
    replace source target env t nodes =
      some ((), put (put nodes source none) target (some (.file f))) := by
  unfold replace
  rw [hf]
  cases htarget' : nodes target with
  | none => rfl
  | some node =>
      cases node with
      | directory => exact absurd htarget' htarget
      | file _ => rfl
      | link => rfl
      | special => rfl

theorem unlink_some {path : Str} {a : Unit} (h : unlink path env t nodes = some (a, nodes')) :
    nodes path ≠ none ∧ nodes' = put nodes path none := by
  simp only [unlink] at h
  split at h
  · cases h
  · cases h
  · rename_i node _ hnode
    cases h
    exact ⟨by simp [hnode], rfl⟩

end Action

/-! ## What an action keeps -/

theorem isParent_length {p path : Str} (h : Action.isParent p path = true) :
    p.length ≤ path.length := by
  have hprefix := List.isPrefixOf_iff_prefix.1 h
  have := hprefix.length_le
  simp only [List.length_append, List.length_singleton] at this
  omega

theorem isParent_join (directory n : Str) : Action.isParent (join directory n) directory = false := by
  cases h : Action.isParent (join directory n) directory with
  | false => rfl
  | true =>
      have hlen := isParent_length h
      simp only [join, List.length_append, List.length_cons] at hlen
      omega

section Frames

variable {env : Env κ} {wrap : κ → ε} {I J : Nodes → Prop}

/-- Two disks agree on the paths of a set. -/
def Same (T : Str → Prop) (nodes nodes' : Nodes) : Prop := ∀ p, T p → nodes' p = nodes p

theorem Same.refl (T : Str → Prop) (nodes : Nodes) : Same T nodes nodes := fun _ _ => rfl

theorem Same.trans {T : Str → Prop} {a b c : Nodes} (h : Same T a b) (h' : Same T b c) :
    Same T a c := fun p hp => (h' p hp).trans (h p hp)

theorem same_put {T : Str → Prop} {path : Str} (h : ¬ T path) (nodes : Nodes)
    (node : Option Node) : Same T nodes (put nodes path node) := by
  intro p hp
  refine put_other ?_ node
  rintro rfl
  exact h hp

theorem Same.put {T : Str → Prop} {a b : Nodes} (h : Same T a b) (path : Str)
    (node : Option Node) : Same T (Disk.put a path node) (Disk.put b path node) := by
  intro p hp
  by_cases hpath : p = path
  · rw [hpath, put_self, put_self]
  · rw [put_other hpath, put_other hpath, h p hp]

/-- A call that takes `I` to `J`, if other processes keep `I`. -/
theorem wp_sys_of {action : Action κ α} {Q : Post Machine ε α} {m : Machine}
    (hothers : ∀ t nodes, I nodes → I (env.others t nodes)) (hm : I m.nodes)
    (hhalted : ∀ m, I m.nodes → Q.halted m) (hraised : ∀ e m, I m.nodes → Q.raised (wrap e) m)
    (hok : ∀ t nodes a nodes', I nodes → action env t nodes = some (a, nodes') →
      ∀ tick, Q.ok a ⟨nodes', tick⟩) :
    wp env (sys wrap action) Q m := by
  have hnext : I (m.next env).nodes := hothers m.tick m.nodes hm
  exact wp_sys (hhalted _ hnext) (fun e => hraised e _ hnext)
    fun a nodes _ haction => hok _ _ a nodes hnext haction _

/-- A call whose action keeps `I` keeps it at every exit. -/
theorem keeps_sys {action : Action κ α} (hothers : ∀ t nodes, I nodes → I (env.others t nodes))
    (haction : ∀ t nodes a nodes', I nodes → action env t nodes = some (a, nodes') → I nodes') :
    Keeps env (Assertion.always fun m => I m.nodes) (sys wrap action) := by
  intro m hm
  exact wp_sys_of hothers hm (fun _ h => h) (fun _ _ h => h)
    fun t nodes a nodes' h ha _ => haction t nodes a nodes' h ha

theorem look_keeps {f : Nodes → Option α} {t : Nat} {nodes nodes' : Nodes} {a : α}
    (h : I nodes) (ha : (Action.look f : Action κ α) env t nodes = some (a, nodes')) : I nodes' := by
  unfold Action.look at ha
  obtain ⟨b, -, heq⟩ := Option.map_eq_some_iff.1 ha
  cases heq
  exact h

/-- What a look returns, it saw. -/
theorem wp_look {f : Nodes → Option α} {T : Str → Prop} {nodes : Nodes} {m : Machine}
    (hothers : ∀ t n, Same T n (env.others t n)) (hm : Same T nodes m.nodes) :
    wp env (sys wrap (Action.look f))
      ⟨fun a m' => f m'.nodes = some a ∧ Same T nodes m'.nodes, fun _ m' => Same T nodes m'.nodes,
        fun m' => Same T nodes m'.nodes⟩ m := by
  refine wp_sys_of (I := Same T nodes) (fun t n hn => hn.trans (hothers t n)) hm (fun _ h => h)
    (fun _ _ h => h) ?_
  intro t n a n' hn ha tick
  unfold Action.look at ha
  obtain ⟨b, hb, heq⟩ := Option.map_eq_some_iff.1 ha
  cases heq
  exact ⟨hb, hn⟩

end Frames

/-! ## A calm environment -/

/-- Every call is done and nobody else is at work. -/
structure Calm (env : Env κ) : Prop where
  done : ∀ t, env.fate t = .done
  alone : ∀ t nodes, env.others t nodes = nodes

/-- In a calm environment a call that is not refused returns. -/
theorem Calm.wp_sys {env : Env κ} (h : Calm env) {wrap : κ → ε} {action : Action κ α}
    {Q : Post Machine ε α} {m : Machine} {a : α} {nodes : Nodes}
    (haction : action env m.tick m.nodes = some (a, nodes)) (hok : Q.ok a ⟨nodes, m.tick + 1⟩) :
    wp env (sys wrap action) Q m := by
  have hnext : (m.next env).nodes = m.nodes := h.alone m.tick m.nodes
  unfold wp
  rw [sys_done (h.done m.tick) (by rw [hnext]; exact haction)]
  exact hok

theorem Calm.wp_look {env : Env κ} (h : Calm env) {wrap : κ → ε} {f : Nodes → Option α}
    {Q : Post Machine ε α} {m : Machine} {a : α} (hf : f m.nodes = some a)
    (hok : Q.ok a ⟨m.nodes, m.tick + 1⟩) : wp env (sys wrap (Action.look f)) Q m := by
  refine h.wp_sys ?_ hok
  rw [Action.look, hf]
  rfl

theorem Calm.wp_existsAt {env : Env κ} (h : Calm env) {wrap : κ → ε} {path : Str}
    {Q : Post Machine ε Bool} {m : Machine}
    (hok : Q.ok (m.nodes path).isSome ⟨m.nodes, m.tick + 1⟩) :
    wp env (sys wrap (Action.existsAt path)) Q m :=
  h.wp_look rfl hok

theorem Calm.wp_isFile {env : Env κ} (h : Calm env) {wrap : κ → ε} {path : Str}
    {Q : Post Machine ε Bool} {m : Machine} {f : File} (hf : m.nodes path = some (.file f))
    (hok : Q.ok true ⟨m.nodes, m.tick + 1⟩) : wp env (sys wrap (Action.isFile path)) Q m := by
  refine h.wp_sys ?_ hok
  simp only [Action.isFile, Action.look, hf, Option.map_some]

theorem Calm.wp_size {env : Env κ} (h : Calm env) {wrap : κ → ε} {path : Str}
    {Q : Post Machine ε Nat} {m : Machine} {data : Bytes} (hdata : content m.nodes path = some data)
    (hok : Q.ok data.length ⟨m.nodes, m.tick + 1⟩) : wp env (sys wrap (Action.size path)) Q m := by
  refine h.wp_sys ?_ hok
  simp only [Action.size, Action.look, hdata, Option.map_some]

theorem Calm.wp_read {env : Env κ} (h : Calm env) {wrap : κ → ε} {path : Str}
    {Q : Post Machine ε Bytes} {m : Machine} {data : Bytes}
    (hdata : content m.nodes path = some data) (hok : Q.ok data ⟨m.nodes, m.tick + 1⟩) :
    wp env (sys wrap (Action.read path)) Q m := by
  refine h.wp_sys ?_ hok
  simp only [Action.read, Action.look, hdata, Option.map_some]

end Disk
