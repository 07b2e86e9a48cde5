import ZsecShield.Platform
import ZsecShield.Lib.Json.Shape

/-!
# Shared helpers

`util.py`: strict and canonical JSON, UTC timestamps, atomic file replacement and the
update lock.  A file is replaced through a temporary one in the same directory, so at
every point of `atomicWriteBytes` the file holds its old bytes or all of its new ones
(`wp_atomicWriteBytes`).
-/

namespace ZsecShield

open Text (Str str)
open Effect

namespace Util

/-! ## Text -/

/-- `format_utc(value)`. -/
def formatUtc (value : DateTime) : Str := value.isoSecond ++ str "Z"

/-- The reader behind `strict_json_loads`. -/
def strictReader (rt : Runtime) : Json.Reader := ⟨rt.scanDepth, rt.intDigits, true, true⟩

/-- `strict_json_loads(raw)`. -/
def strictJsonLoads (rt : Runtime) (raw : Bytes) : Except PyError Json :=
  match Text.decodeUtf8 raw with
  | none => .error (.shield (.feedError (str "JSON must be valid UTF-8")))
  | some text =>
      match Json.loads (strictReader rt) text with
      | .ok value => .ok value
      | .error (.duplicateKey key) =>
          .error (.shield (.feedError (str "duplicate JSON key rejected: " ++ key)))
      | .error (.constant value) =>
          .error (.shield (.feedError (str "non-finite JSON number rejected: " ++ value)))
      | .error .malformed | .error .digits =>
          .error (.shield (.feedError (str "invalid JSON: " ++ rt.decodeText text)))
      | .error .recursion => .error .recursionError

/-- `json.dumps(value, sort_keys=True, …).encode("utf-8")`. -/
def encodeJson (rt : Runtime) (σ : Json.Style) (value : Json) : Except PyError Bytes :=
  match Json.dumps ⟨rt.dumpDepth σ.indented, rt.intDigits⟩ σ value with
  | .error .nonFinite =>
      .error (.valueError (str "Out of range float values are not JSON compliant"))
  | .error .digits => .error (.valueError (str "Exceeds the limit for integer string conversion"))
  | .error .recursion => .error .recursionError
  | .ok text =>
      match Text.encodeUtf8 text with
      | none => .error (.unicodeEncodeError (str "surrogates not allowed"))
      | some data => .ok data

/-- `canonical_json_bytes(value)`. -/
def canonicalJsonBytes (rt : Runtime) (value : Json) : Except PyError Bytes :=
  encodeJson rt .canonical value

/-- A value that `json.dumps` writes and UTF-8 encodes: no floating point, no surrogate,
no deep nesting, no repeated key. -/
structure Writable (rt : Runtime) (value : Json) : Prop where
  plain : Json.Plain rt.intDigits value
  depth : value.depth ≤ 64
  encodable : Json.Strings Text.Encodable value

theorem encodeJson_eq_ok {rt : Runtime} {σ : Json.Style} {value : Json} {data : Bytes}
    (h : encodeJson rt σ value = .ok data) : Text.encodeUtf8 (Json.text σ value) = some data := by
  unfold encodeJson at h
  split at h
  · cases h
  · cases h
  · cases h
  · rename_i text htext
    have hdumps : text = Json.text σ value := by
      unfold Json.dumps at htext
      split at htext
      · cases htext
      · cases htext
        rfl
    subst hdumps
    split at h
    · cases h
    · rename_i data' hdata
      cases h
      exact hdata

/-- What was encoded without `ensure_ascii` has no surrogate. -/
theorem encodable_of_encodeJson {rt : Runtime} {σ : Json.Style} (hσ : σ.ensureAscii = false)
    {value : Json} {data : Bytes} (h : encodeJson rt σ value = .ok data) :
    Json.Strings Text.Encodable value := by
  have hsome : (Text.encodeUtf8 (Json.text σ value)).isSome := by
    rw [encodeJson_eq_ok h]
    rfl
  exact (Json.strings_of_encodable hσ 0 ((Text.encodeUtf8_isSome _).1 hsome)).of_sortKeys

/-- The encoder found no fault in what was encoded. -/
theorem fault_of_encodeJson {rt : Runtime} {σ : Json.Style} {value : Json} {data : Bytes}
    (h : encodeJson rt σ value = .ok data) :
    Json.fault ⟨rt.dumpDepth σ.indented, rt.intDigits⟩ σ.allowNan (rt.dumpDepth σ.indented)
      value.sortKeys = none := by
  cases hf : Json.fault ⟨rt.dumpDepth σ.indented, rt.intDigits⟩ σ.allowNan (rt.dumpDepth σ.indented)
      value.sortKeys with
  | none => rfl
  | some fault =>
      simp only [encodeJson, Json.dumps, hf] at h
      cases fault <;> cases h

theorem dumpable_of_encodeJson {rt : Runtime} {σ : Json.Style} (hσ : σ.allowNan = false)
    {value : Json} {data : Bytes} (h : encodeJson rt σ value = .ok data) :
    Json.Dumpable rt.intDigits value.sortKeys := by
  have hfault := fault_of_encodeJson h
  rw [hσ] at hfault
  exact Json.dumpable_of_fault hfault

@[simp] theorem encodeJson_sortKeys (rt : Runtime) (σ : Json.Style) (value : Json) :
    encodeJson rt σ value.sortKeys = encodeJson rt σ value := by
  simp only [encodeJson, Json.dumps, Json.text, Json.sortKeys_sortKeys]

/-- A value that is not deep is written in every style that leaves characters as they are. -/
theorem encodeJson_of_dumpable {rt : Runtime} {σ : Json.Style} {value : Json}
    (hsep : Text.Encodable σ.keySeparator) (h : Json.Dumpable rt.intDigits value.sortKeys)
    (hdepth : value.depth ≤ 64) (hstrings : Json.Strings Text.Encodable value) :
    ∃ data, encodeJson rt σ value = .ok data := by
  have hle : value.sortKeys.depth ≤ rt.dumpDepth σ.indented := by
    rw [Json.depth_sortKeys]
    exact hdepth.trans (rt.dumpDepth_ge _)
  obtain ⟨data, hdata⟩ := Text.encodeUtf8_of_encodable
    (Json.encodable_layout σ hsep hstrings.sortKeys 0)
  refine ⟨data, ?_⟩
  simp only [encodeJson, Json.dumps, h.fault hle, Json.text, hdata]

theorem Writable.encodeJson {rt : Runtime} {value : Json} (h : Writable rt value) {σ : Json.Style}
    (hsep : Text.Encodable σ.keySeparator) : ∃ data, encodeJson rt σ value = .ok data := by
  have hdumps := Json.dumps_plain (w := ⟨rt.dumpDepth σ.indented, rt.intDigits⟩) (σ := σ) h.plain
    (h.depth.trans (rt.dumpDepth_ge _))
  obtain ⟨data, hdata⟩ := Text.encodeUtf8_of_encodable
    (Json.encodable_layout σ hsep h.encodable.sortKeys 0)
  refine ⟨data, ?_⟩
  unfold Util.encodeJson
  rw [hdumps]
  simp only [Json.text, hdata]

/-- What was written is read back with its keys sorted, with or without a final line break. -/
theorem Writable.strictJsonLoads {rt : Runtime} {value : Json} (h : Writable rt value)
    {σ : Json.Style} (hσ : σ.Separates) (hascii : σ.ensureAscii = false) {data : Bytes}
    (hdata : Util.encodeJson rt σ value = .ok data) {tail : Bytes} (htail : tail = [] ∨ tail = [10]) :
    Util.strictJsonLoads rt (data ++ tail) = .ok value.sortKeys := by
  obtain ⟨text, htext, hlines⟩ : ∃ text, Text.encodeUtf8 text = some tail ∧
      (text = [] ∨ text = [Text.ofChar '\n']) := by
    obtain rfl | rfl := htail
    · exact ⟨[], rfl, .inl rfl⟩
    · exact ⟨_, rfl, .inr rfl⟩
  have hdecode := Text.decodeUtf8_encodeUtf8
    (Text.encodeUtf8_append (encodeJson_eq_ok hdata) htext)
  have hloads := Json.loads_text (r := strictReader rt) rfl hσ h.plain
    (h.depth.trans rt.scanDepth_ge) (by rw [hascii]; nofun) hlines
  unfold Util.strictJsonLoads
  simp only [hdecode, hloads]

theorem distinct_of_strictJsonLoads {rt : Runtime} {raw : Bytes} {value : Json}
    (h : strictJsonLoads rt raw = .ok value) : Json.Distinct value := by
  unfold strictJsonLoads at h
  split at h
  · cases h
  · split at h
    · rename_i hloads
      cases h
      exact Json.distinct_of_loads rfl hloads
    all_goals cases h

/-! ## Files -/

abbrev Os := Disk.Env OsError

abbrev Io := Prog Os Disk.Machine PyError

/-- A system call: a failure is an `OSError`. -/
def sys {α : Type} (action : Disk.Action OsError α) : Io α := Disk.sys PyError.os action

/-- `_fsync_directory(path)`: a directory that cannot be opened is passed over. -/
def fsyncDirectory : Io Unit := do
  let opened ← Prog.tryExcept (sys Disk.Action.touch >>= fun _ => pure true) PyError.isOs
    fun _ => pure false
  if opened then sys Disk.Action.touch else pure ()

/-- The name of the temporary file: `mkstemp(prefix=f".{path.name}.")`. -/
def temporaryPrefix (path : Path) : Str := str "." ++ Disk.name path ++ str "."

/-- The guarded part of `atomic_write_bytes`. -/
def fillAndReplace (temporary path : Path) (data : Bytes) (mode : Nat) : Io Unit := do
  sys (Disk.Action.write temporary data)
  sys Disk.Action.touch
  Prog.suppress PyError.isOs (sys (Disk.Action.chmod temporary mode))
  sys (Disk.Action.replace temporary path)
  fsyncDirectory

/-- `atomic_write_bytes(path, data, mode)`. -/
def atomicWriteBytes (path : Path) (data : Bytes) (mode : Nat) : Io Unit := do
  sys (Disk.Action.mkdir (Disk.parent path))
  let temporary ← sys (Disk.Action.mkstemp (Disk.parent path) (temporaryPrefix path))
  Prog.tryExcept (fillAndReplace temporary path data mode) (fun _ => true) fun e => do
    Prog.suppress PyError.isOs (sys (Disk.Action.unlink temporary))
    Prog.raise e

/-- `atomic_write_json(path, value, mode)`. -/
def atomicWriteJson (rt : Runtime) (path : Path) (value : Json) (mode : Nat) : Io Unit := do
  let data ← Prog.liftExcept (encodeJson rt .pretty value)
  atomicWriteBytes path (data ++ [10]) mode

/-- `with update_lock(path): body`. -/
def updateLock {α : Type} (path : Path) (body : Io α) : Io α := do
  sys (Disk.Action.mkdir (Disk.parent path))
  sys (Disk.Action.append path)
  Prog.tryFinally
    (do
      Prog.tryExcept (sys Disk.Action.touch) PyError.isOs fun _ =>
        Prog.raise (.shield (.feedError (str "another feed update is already in progress")))
      body)
    (Prog.suppress PyError.isOs (sys Disk.Action.touch))

/-! ## What a replacement leaves behind -/

section Replacement

variable {env : Os} {path : Path} {T : Path → Prop}

/-- The paths of `T` are left alone by other processes and are not used by a replacement
of `path`; nobody else touches its temporary files. -/
structure Tracked (env : Os) (path : Path) (T : Path → Prop) : Prop where
  others : ∀ t nodes, Disk.Same T nodes (env.others t nodes)
  temporary : ∀ t nodes s, env.others t nodes
    (Disk.join (Disk.parent path) (temporaryPrefix path ++ s)) =
      nodes (Disk.join (Disk.parent path) (temporaryPrefix path ++ s))
  notParent : ∀ p, T p → Disk.Action.isParent p (Disk.parent path) = false
  notTemporary : ∀ s, ¬ T (Disk.join (Disk.parent path) (temporaryPrefix path ++ s))

/-- The tracked paths are as before. -/
def Before (T : Path → Prop) (nodes : Disk.Nodes) (m : Disk.Machine) : Prop :=
  Disk.Same T nodes m.nodes

/-- The tracked paths are as before, but for the file of the new bytes. -/
def Replaced (T : Path → Prop) (path : Path) (data : Bytes) (nodes : Disk.Nodes)
    (m : Disk.Machine) : Prop :=
  ∃ f : Disk.File, f.content = data ∧
    Disk.Same T (Disk.put nodes path (some (.file f))) m.nodes

theorem Before.trans {nodes : Disk.Nodes} {m m' : Disk.Machine} (h : Before T nodes m)
    (h' : Disk.Same T m.nodes m'.nodes) : Before T nodes m' := Disk.Same.trans h h'

theorem Replaced.trans {data : Bytes} {nodes : Disk.Nodes} {m m' : Disk.Machine}
    (h : Replaced T path data nodes m) (h' : Disk.Same T m.nodes m'.nodes) :
    Replaced T path data nodes m' := by
  obtain ⟨f, hdata, hsame⟩ := h
  exact ⟨f, hdata, hsame.trans h'⟩

theorem Replaced.of_before {data : Bytes} {nodes : Disk.Nodes} {m m' : Disk.Machine}
    (h : Before T nodes m) (h' : Replaced T path data m.nodes m') :
    Replaced T path data nodes m' := by
  obtain ⟨f, hdata, hsame⟩ := h'
  exact ⟨f, hdata, (Disk.Same.put h path _).trans hsame⟩

/-- The file holds the new bytes. -/
theorem Replaced.content {data : Bytes} {nodes : Disk.Nodes} {m : Disk.Machine}
    (h : Replaced T path data nodes m) (hpath : T path) :
    Disk.content m.nodes path = some data := by
  obtain ⟨f, hdata, hsame⟩ := h
  simp only [Disk.content, hsame path hpath, Disk.put_self, hdata]

/-- The other tracked paths are as before. -/
theorem Replaced.other {data : Bytes} {nodes : Disk.Nodes} {m : Disk.Machine} {p : Path}
    (h : Replaced T path data nodes m) (hp : T p) (hne : p ≠ path) : m.nodes p = nodes p := by
  obtain ⟨f, -, hsame⟩ := h
  rw [hsame p hp, Disk.put_other hne]

theorem isOs_os (e : OsError) : (PyError.os e).isOs = true := rfl

theorem keeps_fsyncDirectory {I : Disk.Nodes → Prop}
    (hothers : ∀ t nodes, I nodes → I (env.others t nodes)) :
    Keeps env (Assertion.always fun m => I m.nodes) fsyncDirectory := by
  have htouch : Keeps env (Assertion.always fun m => I m.nodes) (sys Disk.Action.touch) :=
    Disk.keeps_sys hothers fun _ _ _ _ h ha => Disk.look_keeps h ha
  refine Keeps.bind (Keeps.tryExcept (Keeps.bind htouch fun _ => Keeps.pure true)
    fun e _ m hm => ?_) fun opened => ?_
  · exact hm
  · exact Keeps.ite (fun _ => htouch) fun _ => Keeps.pure ()

/-- The temporary file is filled and then takes the place of the file. -/
theorem wp_fillAndReplace (h : Tracked env path T) {temporary : Path} {s : Str}
    (hname : temporary = Disk.join (Disk.parent path) (temporaryPrefix path ++ s)) (data : Bytes)
    (mode : Nat) {nodes : Disk.Nodes} {m : Disk.Machine} (hm : Before T nodes m)
    (hfile : ∃ f, m.nodes temporary = some (.file f)) :
    wp env (fillAndReplace temporary path data mode)
      ⟨fun _ => Replaced T path data nodes,
        fun _ m' => Before T nodes m' ∨ Replaced T path data nodes m',
        fun m' => Before T nodes m' ∨ Replaced T path data nodes m'⟩ m := by
  have hfresh : ¬ T temporary := hname ▸ h.notTemporary s
  have hkept : ∀ t n, env.others t n temporary = n temporary := fun t n => hname ▸ h.temporary t n s
  -- The tracked paths are as before, and the temporary file is there.
  let Open (n : Disk.Nodes) : Prop := Disk.Same T nodes n ∧ ∃ f, n temporary = some (.file f)
  -- Its bytes are the new ones.
  let Filled (n : Disk.Nodes) : Prop :=
    Disk.Same T nodes n ∧ ∃ f : Disk.File, n temporary = some (.file f) ∧ f.content = data
  have hopen : ∀ t n, Open n → Open (env.others t n) := by
    rintro t n ⟨hs, f, hf⟩
    exact ⟨hs.trans (h.others t n), f, (hkept t n).trans hf⟩
  have hfilled : ∀ t n, Filled n → Filled (env.others t n) := by
    rintro t n ⟨hs, f, hf, hdata⟩
    exact ⟨hs.trans (h.others t n), f, (hkept t n).trans hf, hdata⟩
  have hdone : ∀ t n, (∃ f : Disk.File, f.content = data ∧
      Disk.Same T (Disk.put nodes path (some (.file f))) n) → ∃ f : Disk.File, f.content = data ∧
        Disk.Same T (Disk.put nodes path (some (.file f))) (env.others t n) := by
    rintro t n ⟨f, hdata, hs⟩
    exact ⟨f, hdata, hs.trans (h.others t n)⟩
  have htouch : Keeps env (Assertion.always fun m => Filled m.nodes) (sys Disk.Action.touch) :=
    Disk.keeps_sys hfilled fun _ _ _ _ hn ha => Disk.look_keeps hn ha
  have hchmod : Keeps env (Assertion.always fun m => Filled m.nodes)
      (Prog.suppress PyError.isOs (sys (Disk.Action.chmod temporary mode))) := by
    refine Keeps.tryExcept (Disk.keeps_sys hfilled ?_) fun e _ m hm => hm
    rintro t n a n' ⟨hs, f, hf, hdata⟩ ha
    rw [Disk.Action.chmod_some hf ha]
    exact ⟨hs.trans (Disk.same_put hfresh n _), _, Disk.put_self _ _ _, hdata⟩
  unfold fillAndReplace
  rw [wp_bind]
  refine Disk.wp_sys_of hopen ⟨hm, hfile⟩ (fun _ hn => .inl hn.1) (fun _ _ hn => .inl hn.1) ?_
  rintro t n _ n' ⟨hs, f, hf⟩ hwrite tick
  have hnow : Filled n' := by
    rw [Disk.Action.write_some hf hwrite]
    exact ⟨hs.trans (Disk.same_put hfresh n _), _, Disk.put_self _ _ _, rfl⟩
  rw [Post.withOk_ok]
  refine wp.bind (htouch _ hnow) (fun _ m' hm' => ?_) (fun _ _ hn => .inl hn.1) fun _ hn => .inl hn.1
  refine wp.bind (hchmod _ hm') (fun _ m' hm' => ?_) (fun _ _ hn => .inl hn.1) fun _ hn => .inl hn.1
  rw [wp_bind]
  refine Disk.wp_sys_of hfilled hm' (fun _ hn => .inl hn.1) (fun _ _ hn => .inl hn.1) ?_
  rintro t n _ n' ⟨hs, f, hf, hdata⟩ hreplace tick
  obtain ⟨f', hf', hput⟩ := Disk.Action.replace_some hreplace
  rw [hf, Option.some.injEq, Disk.Node.file.injEq] at hf'
  subst hf'
  have hend : ∃ f : Disk.File, f.content = data ∧
      Disk.Same T (Disk.put nodes path (some (.file f))) n' :=
    ⟨f, hdata, hput ▸ (hs.trans (Disk.same_put hfresh n none)).put path _⟩
  exact (keeps_fsyncDirectory hdone ⟨n', tick⟩ hend).mono
    ⟨fun _ _ hn => hn, fun _ _ hn => .inr hn, fun _ hn => .inr hn⟩

/-- A replacement that returns has replaced the file; one that fails or is cut has replaced
it or left everything as it was. -/
theorem wp_atomicWriteBytes (h : Tracked env path T) (data : Bytes) (mode : Nat)
    (m : Disk.Machine) :
    wp env (atomicWriteBytes path data mode)
      ⟨fun _ => Replaced T path data m.nodes,
        fun _ m' => Before T m.nodes m' ∨ Replaced T path data m.nodes m',
        fun m' => Before T m.nodes m' ∨ Replaced T path data m.nodes m'⟩ m := by
  have hothers : ∀ t nodes, Disk.Same T m.nodes nodes → Disk.Same T m.nodes (env.others t nodes) :=
    fun t nodes hs => hs.trans (h.others t nodes)
  unfold atomicWriteBytes
  rw [wp_bind]
  refine Disk.wp_sys_of hothers (Disk.Same.refl T m.nodes) (fun _ => .inl) (fun _ _ => .inl) ?_
  intro t nodes _ nodes' hs hmkdir tick
  have hs' : Disk.Same T m.nodes nodes' := by
    cases hmkdir
    intro p hp
    simp only [h.notParent p hp, Bool.false_and, Bool.false_eq_true, ↓reduceIte]
    exact hs p hp
  rw [Post.withOk_ok, wp_bind]
  refine Disk.wp_sys_of hothers hs' (fun _ => .inl) (fun _ _ => .inl) ?_
  intro t nodes temporary nodes'' hs hmkstemp tick
  obtain ⟨hname, -, rfl⟩ := Disk.Action.mkstemp_some hmkstemp
  rw [Post.withOk_ok, wp_tryExcept]
  have hfresh : ¬ T temporary := hname ▸ h.notTemporary _
  refine (wp_fillAndReplace h hname data mode (hs.trans (Disk.same_put hfresh nodes _))
    ⟨_, Disk.put_self _ _ _⟩).mono ⟨fun _ _ hn => hn, fun e m' hm' => ⟨fun _ => ?_, nofun⟩,
      fun _ hn => hn⟩
  -- The handler removes the temporary file, which is not tracked.
  let Kept (n : Disk.Nodes) : Prop := Before T m.nodes ⟨n, 0⟩ ∨ Replaced T path data m.nodes ⟨n, 0⟩
  have hkept : ∀ n n', Disk.Same T n n' → Kept n → Kept n' := by
    rintro n n' hsame (hn | ⟨f, hdata, hn⟩)
    · exact .inl (hn.trans hsame)
    · exact .inr ⟨f, hdata, hn.trans hsame⟩
  have hunlink : Keeps env (Assertion.always fun m => Kept m.nodes)
      (Prog.suppress PyError.isOs (sys (Disk.Action.unlink temporary))) := by
    refine Keeps.tryExcept (Disk.keeps_sys (fun t n => hkept _ _ (h.others t n)) ?_)
      fun e _ m hm => hm
    intro t' n a n' hn ha
    rw [(Disk.Action.unlink_some ha).2]
    exact hkept _ _ (Disk.same_put hfresh n none) hn
  exact wp.bind (hunlink _ hm') (fun _ _ hn => hn) (fun _ _ hn => hn) fun _ hn => hn

end Replacement

/-! ## What the lock leaves alone -/

section Lock

variable {env : Os} {path : Path} {T : Path → Prop} {α : Type}

/-- The paths of `T` are left alone by other processes and by the lock file `path`. -/
structure Locked (env : Os) (path : Path) (T : Path → Prop) : Prop where
  others : ∀ t nodes, Disk.Same T nodes (env.others t nodes)
  notParent : ∀ p, T p → Disk.Action.isParent p (Disk.parent path) = false
  notLock : ¬ T path

theorem same_mkdir {nodes nodes' : Disk.Nodes} {t : Nat} {u : Unit}
    (hparent : ∀ p, T p → Disk.Action.isParent p path = false)
    (h : Disk.Action.mkdir path env t nodes = some (u, nodes')) : Disk.Same T nodes nodes' := by
  cases h
  intro p hp
  simp only [hparent p hp, Bool.false_and, Bool.false_eq_true, ↓reduceIte]

theorem same_append {nodes nodes' : Disk.Nodes} {t : Nat} {u : Unit} (hpath : ¬ T path)
    (h : Disk.Action.append path env t nodes = some (u, nodes')) : Disk.Same T nodes nodes' := by
  unfold Disk.Action.append at h
  split at h
  · cases h
    exact Disk.same_put hpath nodes _
  · cases h
  · cases h
    exact Disk.Same.refl T nodes

/-- The body runs on the tracked paths as they were, and they stay as it leaves them. -/
theorem wp_updateLock (h : Locked env path T) {body : Io α} {ok : α → Disk.Nodes → Prop}
    {partly : Disk.Nodes → Prop} {m : Disk.Machine}
    (hok : ∀ a n n', Disk.Same T n n' → ok a n → ok a n')
    (hpartly : ∀ n n', Disk.Same T n n' → partly n → partly n')
    (hbefore : ∀ n, Disk.Same T m.nodes n → partly n) (himp : ∀ a n, ok a n → partly n)
    (hbody : ∀ m', Disk.Same T m.nodes m'.nodes →
      wp env body ⟨fun a m => ok a m.nodes, fun _ m => partly m.nodes, fun m => partly m.nodes⟩ m') :
    wp env (updateLock path body)
      ⟨fun a m => ok a m.nodes, fun _ m => partly m.nodes, fun m => partly m.nodes⟩ m := by
  have hothers : ∀ t n, Disk.Same T m.nodes n → Disk.Same T m.nodes (env.others t n) :=
    fun t n hs => hs.trans (h.others t n)
  have hstart : ∀ m', Disk.Same T m.nodes m'.nodes → wp env
      (Prog.tryExcept (sys Disk.Action.touch) PyError.isOs fun _ =>
        Prog.raise (.shield (.feedError (str "another feed update is already in progress"))))
      ⟨fun _ m' => Disk.Same T m.nodes m'.nodes, fun _ m' => Disk.Same T m.nodes m'.nodes,
        fun m' => Disk.Same T m.nodes m'.nodes⟩ m' := by
    intro m' hm'
    rw [wp_tryExcept]
    exact (Disk.wp_look h.others hm').mono ⟨fun _ _ hs => hs.2, fun _ _ hs => ⟨fun _ => hs, fun _ => hs⟩,
      fun _ hs => hs⟩
  -- Giving the lock back changes nothing.
  have hrelease : ∀ (P : Disk.Nodes → Prop), (∀ n n', Disk.Same T n n' → P n → P n') →
      Keeps env (Assertion.always fun m => P m.nodes)
        (Prog.suppress PyError.isOs (sys Disk.Action.touch)) := by
    intro P hP
    refine Keeps.tryExcept (Disk.keeps_sys (fun t n => hP n _ (h.others t n)) ?_) fun e _ m hm => hm
    intro t n a n' hn ha
    exact Disk.look_keeps hn ha
  unfold updateLock
  rw [wp_bind]
  refine Disk.wp_sys_of hothers (Disk.Same.refl T m.nodes) (fun m' => hbefore m'.nodes)
    (fun _ m' => hbefore m'.nodes) ?_
  intro t n _ n' hs hmkdir tick
  rw [Post.withOk_ok, wp_bind]
  refine Disk.wp_sys_of hothers (hs.trans (same_mkdir h.notParent hmkdir))
    (fun m' => hbefore m'.nodes) (fun _ m' => hbefore m'.nodes) ?_
  intro t n _ n' hs happend tick
  rw [Post.withOk_ok, wp_tryFinally]
  refine wp.bind (hstart _ (hs.trans (same_append h.notLock happend))) ?_ ?_
    fun m' => hbefore m'.nodes
  · intro _ m' hm'
    refine (hbody m' hm').mono ⟨?_, ?_, fun _ hn => hn⟩
    · intro a m'' hm''
      exact (hrelease (ok a) (hok a) m'' hm'').mono
        ⟨fun _ _ hn => hn, fun _ _ hn => himp a _ hn, fun _ hn => himp a _ hn⟩
    · intro e m'' hm''
      exact hrelease partly hpartly m'' hm''
  · intro e m' hm'
    exact hrelease partly hpartly m' (hbefore m'.nodes hm')

end Lock

/-! ## In a calm environment -/

section Calm

variable {env : Os} (h : Disk.Calm env)

include h

theorem calm_fsyncDirectory (m : Disk.Machine) :
    wp env fsyncDirectory ⟨fun _ m' => m'.nodes = m.nodes, fun _ _ => False, fun _ => False⟩ m := by
  unfold fsyncDirectory
  rw [wp_bind, wp_tryExcept, wp_bind]
  refine h.wp_look rfl ?_
  change wp env (sys Disk.Action.touch) _ _
  refine h.wp_look rfl ?_
  rfl

/-- A replacement returns, if its temporary name is free and the file is no directory. -/
theorem calm_atomicWriteBytes {path : Path} (data : Bytes) (mode : Nat) (m : Disk.Machine)
    (hpath : Disk.Action.isParent path (Disk.parent path) = false)
    (htemporary : ∀ s, Disk.Action.isParent
      (Disk.join (Disk.parent path) (temporaryPrefix path ++ s)) (Disk.parent path) = false)
    (hfree : ∀ t, m.nodes (Disk.join (Disk.parent path) (temporaryPrefix path ++ env.fresh t)) =
      none)
    (hne : ∀ s, path ≠ Disk.join (Disk.parent path) (temporaryPrefix path ++ s))
    (htarget : m.nodes path ≠ some .directory) :
    wp env (atomicWriteBytes path data mode)
      ⟨fun _ m' => ∃ f : Disk.File, f.content = data ∧
          ∀ p, Disk.Action.isParent p (Disk.parent path) = false →
            m'.nodes p = Disk.put m.nodes path (some (.file f)) p,
        fun _ _ => False, fun _ => False⟩ m := by
  -- Making the directory does not touch other paths.
  let made : Disk.Nodes := fun p =>
    if Disk.Action.isParent p (Disk.parent path) && (m.nodes p).isNone then some .directory
    else m.nodes p
  have hmade : ∀ p, Disk.Action.isParent p (Disk.parent path) = false → made p = m.nodes p := by
    intro p hp
    simp only [made, hp, Bool.false_and, Bool.false_eq_true, ↓reduceIte]
  have hmkdir : ∀ t, Disk.Action.mkdir (Disk.parent path) env t m.nodes = some ((), made) :=
    fun _ => rfl
  unfold atomicWriteBytes
  rw [wp_bind]
  refine h.wp_sys (hmkdir _) ?_
  rw [Post.withOk_ok, wp_bind]
  let temporary := Disk.join (Disk.parent path) (temporaryPrefix path ++ env.fresh (m.tick + 1))
  have hnone : made temporary = none := (hmade _ (htemporary _)).trans (hfree _)
  have hmkstemp : Disk.Action.mkstemp (Disk.parent path) (temporaryPrefix path) env (m.tick + 1)
      made = some (temporary, Disk.put made temporary
        (some (.file { env.created (m.tick + 1) with content := [] }))) := if_pos hnone
  refine h.wp_sys hmkstemp ?_
  rw [Post.withOk_ok, wp_tryExcept]
  unfold fillAndReplace
  rw [wp_bind]
  let f : Disk.File := { env.created (m.tick + 1) with content := data }
  have hwrite : ∀ t, Disk.Action.write temporary data env t (Disk.put made temporary
      (some (.file { env.created (m.tick + 1) with content := [] }))) =
        some ((), Disk.put made temporary (some (.file f))) := by
    intro t
    simp only [Disk.Action.write, Disk.put_self, Disk.put_put, f]
  refine h.wp_sys (hwrite _) ?_
  rw [Post.withOk_ok, wp_bind]
  refine h.wp_look rfl ?_
  rw [Post.withOk_ok, wp_bind, wp_suppress]
  have hchmod : ∀ t, Disk.Action.chmod temporary mode env t
      (Disk.put made temporary (some (.file f))) =
        some ((), Disk.put made temporary (some (.file { f with mode := mode }))) := by
    intro t
    simp only [Disk.Action.chmod, Disk.put_self, Disk.put_put]
  refine h.wp_sys (hchmod _) ?_
  rw [Post.withOk_ok, wp_bind]
  have htarget' : Disk.put made temporary (some (.file { f with mode := mode })) path ≠
      some .directory := by
    rw [Disk.put_other (hne _), hmade path hpath]
    exact htarget
  have hreplace : ∀ t, Disk.Action.replace temporary path env t
      (Disk.put made temporary (some (.file { f with mode := mode }))) =
        some ((), Disk.put (Disk.put made temporary none) path
          (some (.file { f with mode := mode }))) := by
    intro t
    rw [Disk.Action.replace_eq (Disk.put_self _ _ _) htarget', Disk.put_put]
  refine h.wp_sys (hreplace _) ?_
  refine (calm_fsyncDirectory h _).mono ⟨?_, fun _ _ => False.elim, fun _ => False.elim⟩
  intro _ m' (hm' : m'.nodes = Disk.put (Disk.put made temporary none) path
    (some (.file { f with mode := mode })))
  refine ⟨{ f with mode := mode }, rfl, ?_⟩
  intro p hp
  rw [hm']
  by_cases hpath' : p = path
  · rw [hpath', Disk.put_self, Disk.put_self]
  · rw [Disk.put_other hpath', Disk.put_other hpath']
    by_cases htemp : p = temporary
    · rw [htemp, Disk.put_self]
      exact (hfree _).symm
    · rw [Disk.put_other htemp, hmade p hp]

/-- The lock is taken, if its file is no directory, and the body runs. -/
theorem calm_updateLock {α : Type} {path : Path} {body : Io α} {ok : α → Disk.Nodes → Prop}
    {m : Disk.Machine} (hpath : Disk.Action.isParent path (Disk.parent path) = false)
    (hlock : m.nodes path ≠ some .directory)
    (hbody : ∀ m', (∀ p, p ≠ path → Disk.Action.isParent p (Disk.parent path) = false →
        m'.nodes p = m.nodes p) →
      wp env body ⟨fun a m' => ok a m'.nodes, fun _ _ => False, fun _ => False⟩ m') :
    wp env (updateLock path body)
      ⟨fun a m' => ok a m'.nodes, fun _ _ => False, fun _ => False⟩ m := by
  let made : Disk.Nodes := fun p =>
    if Disk.Action.isParent p (Disk.parent path) && (m.nodes p).isNone then some .directory
    else m.nodes p
  have hmade : ∀ p, Disk.Action.isParent p (Disk.parent path) = false → made p = m.nodes p := by
    intro p hp
    simp only [made, hp, Bool.false_and, Bool.false_eq_true, ↓reduceIte]
  have hmkdir : ∀ t, Disk.Action.mkdir (Disk.parent path) env t m.nodes = some ((), made) :=
    fun _ => rfl
  -- The lock file is opened, and created if there is none.
  have happend : ∀ t, ∃ n, Disk.Action.append path env t made = some ((), n) ∧
      ∀ p, p ≠ path → n p = made p := by
    intro t
    cases hold : made path with
    | none =>
        refine ⟨Disk.put made path (some (.file { env.created t with content := [] })), ?_, ?_⟩
        · simp only [Disk.Action.append, hold]
        intro p hp
        exact Disk.put_other hp _
    | some node =>
        cases node with
        | directory => exact absurd ((hmade path hpath).symm.trans hold) hlock
        | file _ => exact ⟨made, by simp only [Disk.Action.append, hold], fun _ _ => rfl⟩
        | link => exact ⟨made, by simp only [Disk.Action.append, hold], fun _ _ => rfl⟩
        | special => exact ⟨made, by simp only [Disk.Action.append, hold], fun _ _ => rfl⟩
  unfold updateLock
  rw [wp_bind]
  refine h.wp_sys (hmkdir _) ?_
  obtain ⟨n, hn, hsame⟩ := happend (m.tick + 1)
  rw [Post.withOk_ok, wp_bind]
  refine h.wp_sys hn ?_
  rw [Post.withOk_ok, wp_tryFinally, wp_bind, wp_tryExcept]
  refine h.wp_look rfl ?_
  refine (hbody _ ?_).mono ⟨?_, fun _ _ => False.elim, fun _ => False.elim⟩
  · intro p hp hparent
    exact (hsame p hp).trans (hmade p hparent)
  · intro a m' hm'
    change wp env (Prog.suppress PyError.isOs (sys Disk.Action.touch)) _ m'
    rw [wp_suppress]
    exact h.wp_look rfl hm'

end Calm

end Util

end ZsecShield
