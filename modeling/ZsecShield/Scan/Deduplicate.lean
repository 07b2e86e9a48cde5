import ZsecShield.Scan.Walk
import ZsecShield.Watch.Roots
import ZsecShield.Watch.Run

/-!
# Scans without deduplication

`Scanner.scan` on a directory tree that does not change.  The watcher turns off the set of seen
paths, as its roots are not nested.  In a forest the walks of such roots meet every file once, so
the set makes no difference (`scan_watchRoots`).
-/

namespace ZsecShield.Scan

open Text (Str str)
open Posix (Key Plain joinPath slash)
open Watch (WalkItem FileScan PosixSystem WatchRoot)

/-! ## The scan -/

/-- A POSIX system whose directories do not change. -/
structure Tree where
  cwd : Str
  cwd_absolute : [slash] <+: cwd
  /-- The home directory that a first component such as `~` stands for. -/
  home : Str → Except PyError Str
  casefold : Str → Str
  stat : Path → Except OsError Metadata
  entries : Path → Except OsError (List Str)
  plain : ∀ directory names, entries directory = .ok names → ∀ name ∈ names, Plain name

namespace Tree

/-- The system as `normalize_watch_roots` sees it. -/
def system (tree : Tree) : PosixSystem where
  cwd := tree.cwd
  cwd_absolute := tree.cwd_absolute
  home := tree.home
  lstat path := match tree.stat path with
    | .ok m => .ok m.toStat
    | .error exc => .error (.os exc)

/-- `_path_key`.  The scan asks for the keys of absolute paths, which all have one. -/
def pathKey (tree : Tree) (path : Path) : Str :=
  match tree.system.pathKey path with
  | .ok key => key
  | .error _ => path

/-- The system as the walk sees it. -/
def fileSystem (tree : Tree) : FileSystem where
  pathKey := tree.pathKey
  casefold := tree.casefold
  lstat _ := tree.stat
  scandir _ := tree.entries

end Tree

/-- What a scan calls: the callbacks, which share a state, and `_scan_file`. -/
structure Callbacks (σ : Type) where
  host : Watch.Host
  fileFilter : Option (Path → Watch.Stat → σ → Except PyError Bool × σ)
  fileObserver : Option (Path → Watch.Stat → Bool → σ → Except PyError Unit × σ)
  scanFile : Path → Watch.Stat → FileScan

/-- The local variables of `scan`, the state of its callbacks and the paths that the loop has handed
to the file filter. -/
structure ScanLocals (σ : Type) where
  stats : ScanStats
  issues : List ScanIssue := []
  findings : List FileFinding := []
  observations : List ScanObservation := []
  state : σ
  offered : List Path := []

section Loop

variable {σ : Type}

/-- `_issue` for an absolute path. -/
def ScanLocals.issue (l : ScanLocals σ) (path : Path) (code : ScanCode) (message : Str) :
    ScanLocals σ :=
  { l with issues := l.issues ++ [⟨path, code, Watch.sanitize message⟩] }

def ScanLocals.hashed (l : ScanLocals σ) (bytesRead : Nat) (observations : List ScanObservation) :
    ScanLocals σ :=
  { l with
    stats := { l.stats with
      filesHashed := l.stats.filesHashed + 1
      bytesHashed := l.stats.bytesHashed + bytesRead }
    observations := l.observations ++ observations }

/-- What the walk counts and reports. -/
def ScanLocals.note (l : ScanLocals σ) : WalkItem → ScanLocals σ
  | .file _ _ => l
  | .unreadable path what message => l.issue path what.code message
  | .symlink => { l with stats := { l.stats with skippedSymlinks := l.stats.skippedSymlinks + 1 } }
  | .special => { l with stats := { l.stats with skippedSpecial := l.stats.skippedSpecial + 1 } }
  | .otherFilesystem =>
      { l with stats := { l.stats with skippedFilesystems := l.stats.skippedFilesystems + 1 } }
  | .excluded => { l with stats := { l.stats with skippedExcluded := l.stats.skippedExcluded + 1 } }

/-- An `Exception` of a callback is an issue. -/
def Callbacks.swallow (c : Callbacks σ) (l : ScanLocals σ) (path : Path) (code : ScanCode)
    (exc : PyError) : Except PyError (ScanLocals σ) :=
  if exc.isException then .ok (l.issue path code (c.host.text exc)) else .error exc

def Callbacks.observe (c : Callbacks σ) (l : ScanLocals σ) (path : Path) (metadata : Watch.Stat)
    (hashed : Bool) : Except PyError (ScanLocals σ) :=
  match c.fileObserver with
  | none => .ok l
  | some fileObserver =>
      match fileObserver path metadata hashed l.state with
      | (.ok (), state) => .ok { l with state := state }
      | (.error exc, state) => c.swallow { l with state := state } path .fileObserverFailed exc

/-- A file that the filter lets through. -/
def Callbacks.inspect (c : Callbacks σ) (l : ScanLocals σ) (path : Path) (metadata : Watch.Stat) :
    Except PyError (ScanLocals σ) :=
  match c.scanFile path metadata with
  | .hashed bytesRead finding observations => do
      let l ← c.observe (l.hashed bytesRead observations) path metadata true
      .ok { l with findings := l.findings ++ finding.toList }
  | .failed code message => c.observe (l.issue path code message) path metadata false
  | .tooLarge =>
      let stats := { l.stats with skippedTooLarge := l.stats.skippedTooLarge + 1 }
      c.observe { l with stats := stats } path metadata false
  | .hashedThenFailed bytesRead observations message =>
      c.observe ((l.hashed bytesRead observations).issue path .fileReadFailed message) path metadata
        true
  | .escaped exc => .error exc

/-- The body of the loop of `scan` behind the test for a seen path. -/
def Callbacks.visit (c : Callbacks σ) (l : ScanLocals σ) (path : Path) (metadata : Watch.Stat) :
    Except PyError (ScanLocals σ) :=
  let l := { l with offered := l.offered ++ [path] }
  match c.fileFilter with
  | none => c.inspect l path metadata
  | some fileFilter =>
      match fileFilter path metadata l.state with
      | (.ok true, state) => c.inspect { l with state := state } path metadata
      | (.ok false, state) => .ok { l with state := state }
      | (.error exc, state) => c.swallow { l with state := state } path .fileFilterFailed exc

/-- The loops of `scan` over what the walks of the roots give. -/
def Callbacks.loop (c : Callbacks σ) (pathKey : Path → Str) (deduplicatePaths : Bool) :
    List Str → List WalkItem → ScanLocals σ → Except PyError (ScanLocals σ)
  | _, [], l => .ok l
  | seenPaths, .file path metadata :: items, l =>
      if deduplicatePaths = true ∧ pathKey path ∈ seenPaths then
        c.loop pathKey deduplicatePaths seenPaths items l
      else do
        let l ← c.visit l path metadata
        c.loop pathKey deduplicatePaths
          (if deduplicatePaths then pathKey path :: seenPaths else seenPaths) items l
  | seenPaths, item :: items, l => c.loop pathKey deduplicatePaths seenPaths items (l.note item)

/-- The result of a scan from its local variables. -/
def ScanLocals.result (l : ScanLocals σ) (host : Watch.Host) (startedAt completedAt : Str)
    (absoluteRoots : List Path) : ScanResult :=
  ({ startedAt := startedAt, roots := absoluteRoots, stats := l.stats, issues := l.issues
     findings := l.findings, observations := l.observations } : Watch.ScanInProgress).result host
    completedAt

/-- The key function of `sorted(absolute_roots, key=_path_key)`. -/
def byPathKey (pathKey : Path → Str) (a b : Path) : Prop := pathKey a ≤ pathKey b

instance (pathKey : Path → Str) : DecidableRel (byPathKey pathKey) := fun a b =>
  inferInstanceAs (Decidable (pathKey a ≤ pathKey b))

/-- How a scan that returns ends. -/
structure Scanned (σ : Type) where
  result : ScanResult
  state : σ
  offered : List Path

/-- `scan` behind the sorting of its roots, given what their walks yield. -/
def Callbacks.scanItems (c : Callbacks σ) (pathKey : Path → Str) (deduplicatePaths : Bool)
    (startedAt completedAt : Str) (absoluteRoots : List Path) (state : σ) (items : List WalkItem) :
    Except PyError (Scanned σ) := do
  let l ← c.loop pathKey deduplicatePaths [] items
    { stats := { rootsRequested := absoluteRoots.length }, state := state }
  .ok ⟨l.result c.host startedAt completedAt absoluteRoots, l.state, l.offered⟩

/-- `scan(roots, file_filter=…, file_observer=…, deduplicate_paths=…)`, if the walks of the roots
end within some turns. -/
def Scanner.scan (s : Scanner) (tree : Tree) (c : Callbacks σ) (fuel : Nat)
    (deduplicatePaths : Bool) (startedAt completedAt : Str) (roots : List Path) (state : σ) :
    Option (Except PyError (Scanned σ)) :=
  if roots = [] then
    some (.error (.shield (.scanConfigurationError (str "at least one scan path is required"))))
  else
    match roots.mapM tree.system.absolute with
    | .error exc => some (.error exc)
    | .ok absoluteRoots =>
        match (absoluteRoots.insertionSort (byPathKey tree.pathKey)).mapM
            (s.iterRegularFiles tree.fileSystem fuel) with
        | none => none
        | some walks =>
            some (c.scanItems tree.pathKey deduplicatePaths startedAt completedAt absoluteRoots
              state walks.flatten)

end Loop

/-! ## The loop -/

section Loop

variable {σ : Type} {c : Callbacks σ} {pathKey : Path → Str}

/-- The keys of the files that a walk yields. -/
def yieldedKeys (pathKey : Path → Str) (items : List WalkItem) : List Str :=
  (yielded items).map fun file => pathKey file.1

theorem loop_new {path : Path} {seenPaths : List Str} (h : pathKey path ∉ seenPaths)
    (metadata : Watch.Stat) (items : List WalkItem) (l : ScanLocals σ) :
    c.loop pathKey true seenPaths (.file path metadata :: items) l =
      c.visit l path metadata >>= c.loop pathKey true (pathKey path :: seenPaths) items := by
  simp [Callbacks.loop, h]

theorem loop_file (path : Path) (metadata : Watch.Stat) (items : List WalkItem)
    (l : ScanLocals σ) :
    c.loop pathKey false [] (.file path metadata :: items) l =
      c.visit l path metadata >>= c.loop pathKey false [] items := by
  simp [Callbacks.loop]

/-- If the keys of the files are distinct, the set of seen paths makes no difference. -/
theorem loop_deduplicate {items : List WalkItem} (hdistinct : (yieldedKeys pathKey items).Nodup)
    {seenPaths : List Str} (hfresh : ∀ key ∈ yieldedKeys pathKey items, key ∉ seenPaths)
    (l : ScanLocals σ) :
    c.loop pathKey true seenPaths items l = c.loop pathKey false [] items l := by
  induction items generalizing seenPaths l with
  | nil => rfl
  | cons item items ih =>
      cases item with
      | file path metadata =>
          obtain ⟨hnew, hrest⟩ := List.nodup_cons.1 hdistinct
          rw [loop_new (hfresh _ List.mem_cons_self), loop_file]
          refine congrArg (c.visit l path metadata >>= ·) (funext fun l => ?_)
          refine ih hrest (fun key hkey hmem => ?_) l
          rcases List.mem_cons.1 hmem with rfl | hmem
          · exact hnew hkey
          · exact hfresh key (List.mem_cons_of_mem _ hkey) hmem
      | unreadable => exact ih hdistinct hfresh _
      | symlink => exact ih hdistinct hfresh _
      | special => exact ih hdistinct hfresh _
      | otherFilesystem => exact ih hdistinct hfresh _
      | excluded => exact ih hdistinct hfresh _

theorem swallow_offered {l l' : ScanLocals σ} {path : Path} {code : ScanCode} {exc : PyError}
    (h : c.swallow l path code exc = .ok l') : l'.offered = l.offered := by
  unfold Callbacks.swallow at h
  split at h
  · cases h
    rfl
  · cases h

theorem observe_offered {l l' : ScanLocals σ} {path : Path} {metadata : Watch.Stat} {hashed : Bool}
    (h : c.observe l path metadata hashed = .ok l') : l'.offered = l.offered := by
  unfold Callbacks.observe at h
  split at h
  · cases h
    rfl
  · split at h
    · cases h
      rfl
    · have hsame := swallow_offered h
      exact hsame

theorem inspect_offered {l l' : ScanLocals σ} {path : Path} {metadata : Watch.Stat}
    (h : c.inspect l path metadata = .ok l') : l'.offered = l.offered := by
  unfold Callbacks.inspect at h
  split at h
  · obtain ⟨observed, hobserved, h⟩ := Checks.bind_eq_ok.1 h
    cases h
    have hsame := observe_offered hobserved
    exact hsame
  · have hsame := observe_offered h
    exact hsame
  · have hsame := observe_offered h
    exact hsame
  · have hsame := observe_offered h
    exact hsame
  · cases h

theorem visit_offered {l l' : ScanLocals σ} {path : Path} {metadata : Watch.Stat}
    (h : c.visit l path metadata = .ok l') : l'.offered = l.offered ++ [path] := by
  unfold Callbacks.visit at h
  dsimp only at h
  split at h
  · exact inspect_offered h
  · split at h
    · have hsame := inspect_offered h
      exact hsame
    · cases h
      rfl
    · have hsame := swallow_offered h
      exact hsame

theorem note_offered (l : ScanLocals σ) (item : WalkItem) : (l.note item).offered = l.offered := by
  cases item <;> rfl

/-- Without the set of seen paths, the loop hands every file that is yielded to the filter. -/
theorem loop_offered {items : List WalkItem} {l l' : ScanLocals σ}
    (h : c.loop pathKey false [] items l = .ok l') :
    l'.offered = l.offered ++ (yielded items).map Prod.fst := by
  induction items generalizing l with
  | nil =>
      cases h
      exact (List.append_nil _).symm
  | cons item items ih =>
      cases item with
      | file path metadata =>
          rw [loop_file] at h
          obtain ⟨visited, hvisited, h⟩ := Checks.bind_eq_ok.1 h
          rw [ih h, visit_offered hvisited, List.append_assoc]
          rfl
      | unreadable => exact (ih h).trans (by rw [note_offered]; rfl)
      | symlink => exact (ih h).trans (by rw [note_offered]; rfl)
      | special => exact (ih h).trans (by rw [note_offered]; rfl)
      | otherFilesystem => exact (ih h).trans (by rw [note_offered]; rfl)
      | excluded => exact (ih h).trans (by rw [note_offered]; rfl)

end Loop

/-! ## The forest below a root -/

section Below

variable (s : Scanner) (tree : Tree)

def rootDevice (root : Path) : Int := (s.startWalk tree.fileSystem root).rootDevice

/-- The directories below a root that the walk looks for: not excluded, no links, and on no other
device unless the configuration allows it. -/
inductive Below (root : Path) : Path → Prop
  | root {m : Metadata} (hexcluded : s.isExcluded tree.fileSystem root = false)
      (hstat : tree.stat root = .ok m) (hdirectory : m.isDirectory = true)
      (hlink : m.isLinkOrReparse = false) : Below root root
  | entry {directory : Path} {names : List Str} {name : Str} {m : Metadata}
      (h : Below root directory) (hentries : tree.entries directory = .ok names)
      (hname : name ∈ names)
      (hexcluded : s.isExcluded tree.fileSystem (joinPath directory name) = false)
      (hstat : tree.stat (joinPath directory name) = .ok m) (hdirectory : m.isDirectory = true)
      (hlink : m.isLinkOrReparse = false)
      (hdevice : s.crosses (rootDevice s tree root) m = false) :
      Below root (joinPath directory name)

/-- The regular files below a root. -/
inductive FileBelow (root : Path) : Path → Prop
  | root {m : Metadata} (hexcluded : s.isExcluded tree.fileSystem root = false)
      (hstat : tree.stat root = .ok m) (hregular : m.isRegular = true)
      (hlink : m.isLinkOrReparse = false) : FileBelow root root
  | entry {directory : Path} {names : List Str} {name : Str} {m : Metadata}
      (h : Below s tree root directory) (hentries : tree.entries directory = .ok names)
      (hname : name ∈ names)
      (hexcluded : s.isExcluded tree.fileSystem (joinPath directory name) = false)
      (hstat : tree.stat (joinPath directory name) = .ok m) (hregular : m.isRegular = true)
      (hlink : m.isLinkOrReparse = false) : FileBelow root (joinPath directory name)

/-- The directories below a root are finitely many, and none is another one. -/
structure IsForest (root : Path) : Prop where
  finite : {directory | Below s tree root directory}.Finite
  apart : ∀ a b m m', Below s tree root a → Below s tree root b → tree.stat a = .ok m →
    tree.stat b = .ok m' → m.ino ≠ 0 → m.identity = m'.identity → a = b

/-- The names within a directory are distinct under path-key normalisation. -/
def DistinctNames (tree : Tree) : Prop :=
  ∀ directory names, tree.entries directory = .ok names →
    (names.map fun name => tree.pathKey (joinPath directory name)).Nodup

/-- The key `k` is `r` or lies below it. -/
structure Under (r k : Key) : Prop where
  double : k.double = r.double
  names : r.names <+: k.names

variable {s tree}

theorem Under.refl (k : Key) : Under k k := ⟨rfl, List.prefix_refl _⟩

theorem Under.child {r k : Key} (h : Under r k) {name : Str} (hname : Plain name) :
    Under r (k.child name hname) :=
  ⟨h.double, h.names.trans (List.prefix_append _ _)⟩

/-- Of two keys above a key, one is above the other. -/
theorem Under.total {r r' k : Key} (h : Under r k) (h' : Under r' k) : Under r r' ∨ Under r' r := by
  rcases List.prefix_or_prefix_of_prefix h.names h'.names with hnames | hnames
  · exact .inl ⟨h'.double.symm.trans h.double, hnames⟩
  · exact .inr ⟨h.double.symm.trans h'.double, hnames⟩

/-- An entry tells its directory and its name. -/
theorem child_inj {k k' : Key} {name name' : Str} (hname : Plain name) (hname' : Plain name')
    (h : joinPath k.text name = joinPath k'.text name') : k = k' ∧ name = name' := by
  rw [← k.text_child hname, ← k'.text_child hname'] at h
  have hkey := Posix.Key.text_inj h
  have hdouble := congrArg Key.double hkey
  obtain ⟨hnames, hlast⟩ := List.append_inj' (congrArg Key.names hkey) rfl
  refine ⟨?_, List.singleton_inj.1 hlast⟩
  cases k
  cases k'
  cases hnames
  cases (hdouble : _ = _)
  rfl

theorem below_key {r : Key} {directory : Path} (h : Below s tree r.text directory) :
    ∃ k, directory = k.text ∧ Under r k := by
  induction h with
  | root => exact ⟨r, rfl, .refl r⟩
  | entry _ hentries hname _ _ _ _ _ ih =>
      obtain ⟨k, rfl, hunder⟩ := ih
      have hplain := tree.plain _ _ hentries _ hname
      exact ⟨k.child _ hplain, (k.text_child hplain).symm, hunder.child hplain⟩

theorem fileBelow_key {r : Key} {path : Path} (h : FileBelow s tree r.text path) :
    ∃ k, path = k.text ∧ Under r k := by
  cases h with
  | root => exact ⟨r, rfl, .refl r⟩
  | entry h hentries hname =>
      obtain ⟨k, rfl, hunder⟩ := below_key h
      have hplain := tree.plain _ _ hentries _ hname
      exact ⟨k.child _ hplain, (k.text_child hplain).symm, hunder.child hplain⟩

theorem below_stat {root directory : Path} (h : Below s tree root directory) :
    ∃ m, tree.stat directory = .ok m := by
  cases h with
  | root _ hstat => exact ⟨_, hstat⟩
  | entry _ _ _ _ hstat => exact ⟨_, hstat⟩

/-- An entry that is a directory to enter. -/
theorem entryFound_directory {device : Int} {directory : Path} {name : Str} {m : Metadata}
    (hexcluded : s.isExcluded tree.fileSystem (joinPath directory name) = false)
    (hstat : tree.stat (joinPath directory name) = .ok m) (hdirectory : m.isDirectory = true)
    (hlink : m.isLinkOrReparse = false) (hdevice : s.crosses device m = false) :
    (entryFound s tree.fileSystem device directory name).2 = [joinPath directory name] := by
  have hanswer : tree.fileSystem.lstat 0 (joinPath directory name) = .ok m := hstat
  rw [entryFound, if_neg (by rw [hexcluded]; exact Bool.false_ne_true), hanswer]
  simp [Scanner.classify, hlink, hdirectory, hdevice]

theorem child_iff {device : Int} {directory c : Path} :
    Search.Child (directories s tree.fileSystem device) directory c ↔
      (∃ m, tree.stat directory = .ok m) ∧ ∃ names name m, tree.entries directory = .ok names ∧
        name ∈ names ∧ c = joinPath directory name ∧ s.isExcluded tree.fileSystem c = false ∧
        tree.stat c = .ok m ∧ m.isDirectory = true ∧ m.isLinkOrReparse = false ∧
        s.crosses device m = false := by
  constructor
  · rintro ⟨i, children, hlook, hc⟩
    cases hstat : tree.stat directory with
    | error exc =>
        have hanswer : tree.fileSystem.lstat 0 directory = .error exc := hstat
        simp only [directories, hanswer] at hlook
        cases hlook
    | ok m =>
        have hanswer : tree.fileSystem.lstat 0 directory = .ok m := hstat
        simp only [directories, hanswer] at hlook
        have hchildren := (Prod.mk.inj (Option.some.inj hlook)).2
        obtain ⟨names, name, hentries, hname, hentry⟩ := mem_childDirectoriesOf hchildren hc
        obtain ⟨hpath, hexcluded, m', hm', hdirectory, hlink, hdevice⟩ := child_of_entryFound hentry
        exact ⟨⟨m, rfl⟩, names, name, m', hentries, hname, hpath, hexcluded, hm', hdirectory, hlink,
          hdevice⟩
  · rintro ⟨⟨m, hstat⟩, names, name, m', hentries, hname, rfl, hexcluded, hstat', hdirectory, hlink,
      hdevice⟩
    have hanswer : tree.fileSystem.lstat 0 directory = .ok m := hstat
    have hlisting : tree.fileSystem.scandir 0 directory = .ok names := hentries
    refine ⟨m.identity, (names.insertionSort (byEntryName tree.fileSystem.casefold)).flatMap
      fun name => (entryFound s tree.fileSystem device directory name).2, ?_, ?_⟩
    · simp only [directories, hanswer, childDirectoriesOf, hlisting]
    · refine List.mem_flatMap.2 ⟨name, (List.mem_insertionSort _).2 hname, ?_⟩
      rw [entryFound_directory hexcluded hstat' hdirectory hlink hdevice]
      exact List.mem_cons_self

/-- What the search reaches is what lies below the root. -/
theorem reached_iff {root : Path} (hroot : Below s tree root root) {directory : Path} :
    Search.Reached (directories s tree.fileSystem (rootDevice s tree root)) root directory ↔
      Below s tree root directory := by
  constructor
  · intro h
    induction h with
    | root => exact hroot
    | child _ hc ih =>
        obtain ⟨-, names, name, m, hentries, hname, rfl, hexcluded, hstat, hdirectory, hlink,
          hdevice⟩ := child_iff.1 hc
        exact ih.entry hentries hname hexcluded hstat hdirectory hlink hdevice
  · intro h
    induction h with
    | root => exact .root
    | entry h hentries hname hexcluded hstat hdirectory hlink hdevice ih =>
        exact ih.child (child_iff.2 ⟨below_stat h, _, _, _, hentries, hname, rfl, hexcluded, hstat,
          hdirectory, hlink, hdevice⟩)

theorem sublist_flatMap {α β : Type} {f : α → List β} {g : α → β} {l : List α}
    (h : ∀ a ∈ l, (f a).Sublist [g a]) : (l.flatMap f).Sublist (l.map g) := by
  induction l with
  | nil => exact List.Sublist.slnil
  | cons a l ih =>
      rw [List.flatMap_cons, List.map_cons, ← List.singleton_append]
      exact (h a List.mem_cons_self).append (ih fun b hb => h b (List.mem_cons_of_mem _ hb))

/-- An entry gives one directory or file at most. -/
theorem entryFound_sublist (device : Int) (directory : Path) (name : Str) :
    (entryFound s tree.fileSystem device directory name).2.Sublist [joinPath directory name] ∧
      ((yielded (entryFound s tree.fileSystem device directory name).1).map Prod.fst).Sublist
        [joinPath directory name] := by
  unfold entryFound
  split
  · exact ⟨List.nil_sublist _, List.nil_sublist _⟩
  · cases tree.fileSystem.lstat 0 (joinPath directory name) with
    | error exc => exact ⟨List.nil_sublist _, List.nil_sublist _⟩
    | ok m =>
        simp only [Scanner.classify]
        split
        · exact ⟨List.nil_sublist _, List.nil_sublist _⟩
        · split
          · split
            · exact ⟨List.nil_sublist _, List.nil_sublist _⟩
            · exact ⟨List.Sublist.refl _, List.nil_sublist _⟩
          · split
            · exact ⟨List.nil_sublist _, List.Sublist.refl _⟩
            · exact ⟨List.nil_sublist _, List.nil_sublist _⟩

theorem nodup_entries (hnames : DistinctNames tree) {directory : Path} {names : List Str}
    (hentries : tree.entries directory = .ok names) :
    ((names.insertionSort (byEntryName tree.casefold)).map (joinPath directory)).Nodup := by
  have hdistinct := hnames directory names hentries
  have hmap : names.map (fun name => tree.pathKey (joinPath directory name)) =
      (names.map (joinPath directory)).map tree.pathKey := by
    rw [List.map_map]
    rfl
  rw [hmap] at hdistinct
  exact (((List.perm_insertionSort _ names).map _).nodup_iff).2 hdistinct.of_map

theorem nodup_childDirectoriesOf (hnames : DistinctNames tree) {device : Int} {directory : Path}
    {children : List Path}
    (h : childDirectoriesOf s tree.fileSystem device directory = some children) :
    children.Nodup := by
  unfold childDirectoriesOf at h
  cases hentries : tree.entries directory with
  | error exc =>
      have hlisting : tree.fileSystem.scandir 0 directory = .error exc := hentries
      rw [hlisting] at h
      cases h
  | ok names =>
      have hlisting : tree.fileSystem.scandir 0 directory = .ok names := hentries
      rw [hlisting] at h
      cases h
      exact (nodup_entries hnames hentries).sublist
        (sublist_flatMap fun name _ => (entryFound_sublist device directory name).1)

/-- The files of a directory are distinct entries of it. -/
theorem nodup_yielded_itemsOf (hnames : DistinctNames tree) (device : Int) (directory : Path) :
    ((yielded (itemsOf s tree.fileSystem device directory)).map Prod.fst).Nodup := by
  unfold itemsOf
  cases hentries : tree.entries directory with
  | error exc =>
      have hlisting : tree.fileSystem.scandir 0 directory = .error exc := hentries
      rw [hlisting]
      exact List.nodup_nil
  | ok names =>
      have hlisting : tree.fileSystem.scandir 0 directory = .ok names := hentries
      rw [hlisting]
      have hyielded (l : List Str) :
          (yielded (l.flatMap fun name =>
              (entryFound s tree.fileSystem device directory name).1)).map Prod.fst =
            l.flatMap fun name =>
              (yielded (entryFound s tree.fileSystem device directory name).1).map Prod.fst := by
        induction l with
        | nil => rfl
        | cons name l ih =>
            rw [List.flatMap_cons, List.flatMap_cons, yielded_append, List.map_append, ih]
      rw [hyielded]
      exact (nodup_entries hnames hentries).sublist
        (sublist_flatMap fun name _ => (entryFound_sublist device directory name).2)

/-- The directories below a root are a forest for the search. -/
theorem forest_directories (hnames : DistinctNames tree) {r : Key}
    (hroot : Below s tree r.text r.text) (hforest : IsForest s tree r.text) :
    Search.Forest (directories s tree.fileSystem (rootDevice s tree r.text)) r.text where
  nodup node i children _ hlook := by
    have hchildren : childDirectoriesOf s tree.fileSystem (rootDevice s tree r.text) node =
        some children := by
      simp only [directories] at hlook
      split at hlook
      · cases hlook
      · exact (Prod.mk.inj (Option.some.inj hlook)).2
    exact nodup_childDirectoriesOf hnames hchildren
  parent a b c ha hb hac hbc := by
    obtain ⟨k, rfl, -⟩ := below_key ((reached_iff hroot).1 ha)
    obtain ⟨k', rfl, -⟩ := below_key ((reached_iff hroot).1 hb)
    obtain ⟨-, names, name, -, hentries, hname, rfl, -⟩ := child_iff.1 hac
    obtain ⟨-, names', name', -, hentries', hname', hpath, -⟩ := child_iff.1 hbc
    rw [(child_inj (tree.plain _ _ hentries _ hname) (tree.plain _ _ hentries' _ hname') hpath).1]
  top node hnode hchild := by
    obtain ⟨k, rfl, hunder⟩ := below_key ((reached_iff hroot).1 hnode)
    obtain ⟨-, names, name, -, hentries, hname, hpath, -⟩ := child_iff.1 hchild
    have hplain := tree.plain _ _ hentries _ hname
    rw [← k.text_child hplain] at hpath
    have hkey : r.names = k.names ++ [name] := congrArg Key.names (Posix.Key.text_inj hpath)
    have hlength := hunder.names.length_le
    rw [hkey, List.length_append, List.length_singleton] at hlength
    omega
  apart a b i c c' ha hb hknown hlook hlook' := by
    have hidentity {d : Path} {c : Option (List Path)}
        (h : (directories s tree.fileSystem (rootDevice s tree r.text)).look d = some (i, c)) :
        ∃ m, tree.stat d = .ok m ∧ m.identity = i := by
      cases hstat : tree.stat d with
      | error exc =>
          have hanswer : tree.fileSystem.lstat 0 d = .error exc := hstat
          simp only [directories, hanswer] at h
          cases h
      | ok m =>
          have hanswer : tree.fileSystem.lstat 0 d = .ok m := hstat
          simp only [directories, hanswer] at h
          exact ⟨m, rfl, (Prod.mk.inj (Option.some.inj h)).1⟩
    obtain ⟨m, hm, hi⟩ := hidentity hlook
    obtain ⟨m', hm', hi'⟩ := hidentity hlook'
    refine hforest.apart a b m m' ((reached_iff hroot).1 ha) ((reached_iff hroot).1 hb) hm hm' ?_
      (hi.trans hi'.symm)
    have hino := of_decide_eq_true hknown
    rw [← hi] at hino
    exact hino

theorem static_fileSystem (tree : Tree) : tree.fileSystem.Static := ⟨fun _ _ => rfl, fun _ _ => rfl⟩

/-- A walk that has ended stays as it is. -/
theorem iterRegularFiles_of_le {root : Path} {fuel fuel' : Nat}
    (h : (s.walkTurns tree.fileSystem fuel (s.startWalk tree.fileSystem root)).stack = [])
    (hle : fuel ≤ fuel') :
    s.iterRegularFiles tree.fileSystem fuel' root =
      some (s.walkTurns tree.fileSystem fuel (s.startWalk tree.fileSystem root)).items := by
  have hsame : s.walkTurns tree.fileSystem fuel' (s.startWalk tree.fileSystem root) =
      s.walkTurns tree.fileSystem fuel (s.startWalk tree.fileSystem root) := by
    induction hle with
    | refl => rfl
    | step _ ih =>
        rw [Scanner.walkTurns, Function.iterate_succ_apply', ← Scanner.walkTurns, ih,
          walkTurn_nil h]
  simp only [Scanner.iterRegularFiles, hsame, h, if_true]

/-- Below a root that is no directory to enter there is nothing. -/
theorem below_start {root directory : Path} (h : Below s tree root directory) :
    s.isExcluded tree.fileSystem root = false ∧
      ∃ m, tree.stat root = .ok m ∧ m.isDirectory = true ∧ m.isLinkOrReparse = false := by
  induction h with
  | root hexcluded hstat hdirectory hlink => exact ⟨hexcluded, _, hstat, hdirectory, hlink⟩
  | entry _ _ _ _ _ _ _ _ ih => exact ih

theorem below_self {root directory : Path} (h : Below s tree root directory) :
    Below s tree root root := by
  obtain ⟨hexcluded, m, hstat, hdirectory, hlink⟩ := below_start h
  exact .root hexcluded hstat hdirectory hlink

theorem not_regular {m : Metadata} (h : m.isDirectory = true) : m.isRegular = false :=
  Bool.eq_false_of_not_eq_true fun hregular =>
    Bool.noConfusion (h.symm.trans (m.exclusive hregular))

/-- A walk that has a directory to enter starts with it. -/
theorem startWalk_below {root : Path} (h : Below s tree root root) :
    Follows s tree.fileSystem (s.startWalk tree.fileSystem root) (Search.start [root]) := by
  obtain ⟨hexcluded, m, hstat, hdirectory, hlink⟩ := below_start h
  have hanswer : tree.fileSystem.lstat 0 root = .ok m := hstat
  have hstart : s.startWalk tree.fileSystem root =
      ⟨m.dev, [root], [], [], [.lstat root (.ok m)]⟩ := by
    simp [Scanner.startWalk, hexcluded, hanswer, hlink, not_regular hdirectory, hdirectory]
  rw [hstart]
  exact ⟨rfl, rfl, rfl, by simp, rfl⟩

/-- The walk of another root ends at once, and yields the root if it is a file. -/
theorem startWalk_not_below {root : Path} (h : ¬ Below s tree root root) :
    (s.startWalk tree.fileSystem root).stack = [] ∧
      ((yielded (s.startWalk tree.fileSystem root).items).map Prod.fst).Nodup ∧
        ∀ path, path ∈ (yielded (s.startWalk tree.fileSystem root).items).map Prod.fst ↔
          FileBelow s tree root path := by
  have hfile (path : Path) : FileBelow s tree root path ↔ path = root ∧
      s.isExcluded tree.fileSystem root = false ∧
        ∃ m, tree.stat root = .ok m ∧ m.isRegular = true ∧ m.isLinkOrReparse = false := by
    constructor
    · intro hpath
      cases hpath with
      | root hexcluded hstat hregular hlink => exact ⟨rfl, hexcluded, _, hstat, hregular, hlink⟩
      | entry hbelow => exact absurd (below_self hbelow) h
    · rintro ⟨rfl, hexcluded, m, hstat, hregular, hlink⟩
      exact .root hexcluded hstat hregular hlink
  simp only [hfile]
  cases hexcluded : s.isExcluded tree.fileSystem root with
  | true => simp [Scanner.startWalk, hexcluded, yielded]
  | false =>
      cases hstat : tree.stat root with
      | error exc =>
          have hanswer : tree.fileSystem.lstat 0 root = .error exc := hstat
          simp [Scanner.startWalk, hexcluded, hanswer, yielded]
      | ok m =>
          have hanswer : tree.fileSystem.lstat 0 root = .ok m := hstat
          cases hlink : m.isLinkOrReparse with
          | true => simp [Scanner.startWalk, hexcluded, hanswer, hlink, yielded]
          | false =>
              cases hregular : m.isRegular with
              | true => simp [Scanner.startWalk, hexcluded, hanswer, hlink, hregular, yielded]
              | false =>
                  have hdirectory : m.isDirectory = false := by
                    cases hdirectory : m.isDirectory with
                    | false => rfl
                    | true => exact absurd (.root hexcluded hstat hdirectory hlink) h
                  simp [Scanner.startWalk, hexcluded, hanswer, hlink, hregular, hdirectory, yielded]

/-- The walk of a root ends, and yields every regular file below the root once. -/
theorem walk_forest (hnames : DistinctNames tree) {r : Key} (hforest : IsForest s tree r.text) :
    ∃ fuel items, (∀ fuel' ≥ fuel, s.iterRegularFiles tree.fileSystem fuel' r.text = some items) ∧
      ((yielded items).map Prod.fst).Nodup ∧
      ∀ path, path ∈ (yielded items).map Prod.fst ↔ FileBelow s tree r.text path := by
  by_cases hroot : Below s tree r.text r.text
  · have hsearch := forest_directories hnames hroot hforest
    have hfinite : {d | Search.Reached (directories s tree.fileSystem (rootDevice s tree r.text))
        r.text d}.Finite := hforest.finite.subset fun d hd => (reached_iff hroot).1 hd
    obtain ⟨fuel, hdone⟩ := hsearch.exists_finished hfinite
    have hfollows := startWalk_below hroot
    obtain ⟨hdevice, hlast⟩ := follows_turns (static_fileSystem tree) hfollows fuel
    have hgrowing := Search.turns_invariant (fun _ h => h.turn hsearch)
      (Search.growing_start r.text) fuel
    obtain ⟨honce, hreached, hopened⟩ := hgrowing.finished hdone
    have hpath {d path : Path} (hmem : path ∈
        (yielded (itemsOf s tree.fileSystem (rootDevice s tree r.text) d)).map Prod.fst) :
        ∃ names name m, tree.entries d = .ok names ∧ name ∈ names ∧ path = joinPath d name ∧
          s.isExcluded tree.fileSystem path = false ∧ tree.stat path = .ok m ∧
          m.isRegular = true ∧ m.isLinkOrReparse = false := by
      obtain ⟨⟨path, metadata⟩, hfile, rfl⟩ := List.mem_map.1 hmem
      exact exists_of_file_mem_itemsOf (mem_yielded.1 hfile)
    have hfiles : (yielded (s.walkTurns tree.fileSystem fuel
          (s.startWalk tree.fileSystem r.text)).items).map Prod.fst =
        (Search.turns (directories s tree.fileSystem (rootDevice s tree r.text)) fuel
          (Search.start [r.text])).opened.flatMap fun d =>
            (yielded (itemsOf s tree.fileSystem (rootDevice s tree r.text) d)).map Prod.fst := by
      rw [hlast.files, hdevice, List.map_flatMap]
      rfl
    refine ⟨fuel, _, fun fuel' hle => iterRegularFiles_of_le (hlast.stack.trans hdone) hle, ?_, ?_⟩
    · rw [hfiles]
      refine List.nodup_flatMap.2 ⟨fun d _ => nodup_yielded_itemsOf hnames _ d, ?_⟩
      refine honce.imp_of_mem fun {d d'} hd hd' hne path hmem hmem' => ?_
      obtain ⟨k, rfl, -⟩ := below_key ((reached_iff hroot).1 (hreached d hd))
      obtain ⟨k', rfl, -⟩ := below_key ((reached_iff hroot).1 (hreached d' hd'))
      obtain ⟨names, name, -, hentries, hname, rfl, -⟩ := hpath hmem
      obtain ⟨names', name', -, hentries', hname', hsame, -⟩ := hpath hmem'
      exact hne (congrArg Key.text (child_inj (tree.plain _ _ hentries _ hname)
        (tree.plain _ _ hentries' _ hname') hsame).1)
    · intro path
      rw [hfiles]
      constructor
      · intro hmem
        obtain ⟨d, hd, hmem⟩ := List.mem_flatMap.1 hmem
        obtain ⟨names, name, m, hentries, hname, rfl, hexcluded, hstat, hregular, hlink⟩ :=
          hpath hmem
        exact .entry ((reached_iff hroot).1 (hreached d hd)) hentries hname hexcluded hstat hregular
          hlink
      · intro hfile
        cases hfile with
        | root _ hstat hregular _ =>
            obtain ⟨-, m, hm, hdirectory, -⟩ := below_start hroot
            cases hstat.symm.trans hm
            exact absurd hregular (by rw [not_regular hdirectory]; exact Bool.false_ne_true)
        | @entry d names name m hbelow hentries hname hexcluded hstat hregular hlink =>
            obtain ⟨md, hd⟩ := below_stat hbelow
            have hanswer : tree.fileSystem.lstat 0 d = .ok md := hd
            have hlisting : tree.fileSystem.scandir 0 d = .ok names := hentries
            have hopens : Search.Opens
                (directories s tree.fileSystem (rootDevice s tree r.text)) d := by
              refine ⟨md.identity, (names.insertionSort (byEntryName tree.casefold)).flatMap
                fun name => (entryFound s tree.fileSystem (rootDevice s tree r.text) d name).2, ?_⟩
              simp only [directories, hanswer, childDirectoriesOf, hlisting]
              rfl
            refine List.mem_flatMap.2 ⟨d, hopened d ((reached_iff hroot).2 hbelow) hopens, ?_⟩
            have hitem : WalkItem.file (joinPath d name) m.toStat ∈
                itemsOf s tree.fileSystem (rootDevice s tree r.text) d :=
              file_mem_itemsOf hlisting hname hexcluded hstat hregular hlink
            exact List.mem_map.2 ⟨_, mem_yielded.2 hitem, rfl⟩
  · obtain ⟨hdone, hdistinct, hfiles⟩ := startWalk_not_below hroot
    have hturns : (s.walkTurns tree.fileSystem 0
        (s.startWalk tree.fileSystem r.text)).stack = [] := hdone
    exact ⟨0, _, fun fuel' hle => iterRegularFiles_of_le hturns hle, hdistinct, hfiles⟩

end Below

/-! ## Roots that are not nested -/

/-- A key is that of a root or of something below it. -/
def Nested (key root : Str) : Prop := ∃ k r : Key, key = k.text ∧ root = r.text ∧ Under r k

section Roots

variable {s : Scanner} {tree : Tree}

theorem mapM_mono {α β : Type} {f g : α → Option β} {l : List α} {bs : List β}
    (hfg : ∀ a b, f a = some b → g a = some b) (h : l.mapM f = some bs) : l.mapM g = some bs := by
  induction l generalizing bs with
  | nil => exact h
  | cons a l ih =>
      rw [List.mapM_cons] at h ⊢
      obtain ⟨b, hb, h⟩ := Option.bind_eq_some_iff.1 h
      obtain ⟨rest, hrest, h⟩ := Option.bind_eq_some_iff.1 h
      rw [hfg a b hb, ih hrest]
      exact h

theorem iterRegularFiles_mono {fuel fuel' : Nat} (hle : fuel ≤ fuel') {root : Path}
    {items : List WalkItem} (h : s.iterRegularFiles tree.fileSystem fuel root = some items) :
    s.iterRegularFiles tree.fileSystem fuel' root = some items := by
  simp only [Scanner.iterRegularFiles] at h
  split at h
  · rename_i hdone
    cases h
    exact iterRegularFiles_of_le hdone hle
  · cases h

/-- The walks of roots that are not nested yield every regular file below them once. -/
theorem walks_forest (hnames : DistinctNames tree) {rs : List Key}
    (hapart : rs.Pairwise fun a b => ¬ Under a b ∧ ¬ Under b a)
    (hforest : ∀ r ∈ rs, IsForest s tree r.text) :
    ∃ fuel walks,
      (∀ fuel' ≥ fuel,
        (rs.map Key.text).mapM (s.iterRegularFiles tree.fileSystem fuel') = some walks) ∧
      ((yielded walks.flatten).map Prod.fst).Nodup ∧
      ∀ path, path ∈ (yielded walks.flatten).map Prod.fst ↔
        ∃ r ∈ rs, FileBelow s tree r.text path := by
  induction rs with
  | nil => exact ⟨0, [], fun _ _ => rfl, List.nodup_nil, fun path => by simp [yielded]⟩
  | cons r rs ih =>
      obtain ⟨hfirst, hrest⟩ := List.pairwise_cons.1 hapart
      obtain ⟨fuel, walks, hwalks, hdistinct, hfiles⟩ :=
        ih hrest fun r' hr' => hforest r' (List.mem_cons_of_mem _ hr')
      obtain ⟨fuel₀, items, hwalk, hdistinct₀, hfiles₀⟩ :=
        walk_forest hnames (hforest r List.mem_cons_self)
      refine ⟨max fuel₀ fuel, items :: walks, fun fuel' hle => ?_, ?_, fun path => ?_⟩
      · rw [List.map_cons, List.mapM_cons, hwalk fuel' ((le_max_left _ _).trans hle),
          hwalks fuel' ((le_max_right _ _).trans hle)]
        rfl
      · rw [List.flatten_cons, yielded_append, List.map_append]
        refine List.nodup_append.2 ⟨hdistinct₀, hdistinct, ?_⟩
        rintro path hpath path' hpath' rfl
        -- a file below two roots would make them nested
        obtain ⟨r', hr', hbelow'⟩ := (hfiles path).1 hpath'
        obtain ⟨k, rfl, hunder⟩ := fileBelow_key ((hfiles₀ path).1 hpath)
        obtain ⟨k', hk', hunder'⟩ := fileBelow_key hbelow'
        rw [← Posix.Key.text_inj hk'] at hunder'
        rcases hunder.total hunder' with hnested | hnested
        · exact (hfirst r' hr').1 hnested
        · exact (hfirst r' hr').2 hnested
      · rw [List.flatten_cons, yielded_append, List.map_append, List.mem_append, hfiles₀, hfiles,
          List.exists_mem_cons_iff]

theorem pathKey_text (k : Key) : tree.pathKey k.text = k.text := by
  rw [Tree.pathKey, PosixSystem.pathKey_key]

/-- Files below keys are their own keys. -/
theorem yieldedKeys_eq {items : List WalkItem} {rs : List Key}
    (h : ∀ path, path ∈ (yielded items).map Prod.fst → ∃ r ∈ rs, FileBelow s tree r.text path) :
    yieldedKeys tree.pathKey items = (yielded items).map Prod.fst := by
  refine List.map_congr_left fun file hfile => ?_
  obtain ⟨r, -, hbelow⟩ := h file.1 (List.mem_map_of_mem hfile)
  obtain ⟨k, hk, -⟩ := fileBelow_key hbelow
  rw [hk, pathKey_text]

theorem mapM_absolute (rs : List Key) :
    (rs.map Key.text).mapM tree.system.absolute = .ok (rs.map Key.text) := by
  induction rs with
  | nil => rfl
  | cons r rs ih =>
      rw [List.map_cons, List.mapM_cons, PosixSystem.absolute_key, ih]
      rfl

/-- The keys in the order of the scan. -/
def sortedKeys (rs : List Key) : List Key := rs.insertionSort fun a b => a.text ≤ b.text

theorem sorted_roots (rs : List Key) :
    (rs.map Key.text).insertionSort (byPathKey tree.pathKey) = (sortedKeys rs).map Key.text := by
  refine (List.map_insertionSort _ _ Key.text rs fun a _ b _ => ?_).symm
  rw [byPathKey, pathKey_text, pathKey_text]

theorem sortedKeys_perm {rs rs' : List Key} (h : rs'.Perm rs) : sortedKeys rs' = sortedKeys rs := by
  have hperm : (sortedKeys rs').Perm (sortedKeys rs) :=
    (List.perm_insertionSort _ rs').trans (h.trans (List.perm_insertionSort _ rs).symm)
  have htotal : Std.Total fun a b : Key => a.text ≤ b.text := ⟨fun a b => le_total a.text b.text⟩
  have htrans : IsTrans Key fun a b => a.text ≤ b.text := ⟨fun a b c => le_trans⟩
  refine hperm.eq_of_pairwise (fun a b _ _ hab hba => Posix.Key.text_inj (le_antisymm hab hba))
    (List.pairwise_insertionSort _ rs') (List.pairwise_insertionSort _ rs)

/-- A scan of keys. -/
theorem scan_keys {σ : Type} (c : Callbacks σ) (fuel : Nat) (deduplicatePaths : Bool)
    (startedAt completedAt : Str) {rs : List Key} (hne : rs ≠ []) (state : σ) :
    s.scan tree c fuel deduplicatePaths startedAt completedAt (rs.map Key.text) state =
      (((sortedKeys rs).map Key.text).mapM (s.iterRegularFiles tree.fileSystem fuel)).map
        fun walks => c.scanItems tree.pathKey deduplicatePaths startedAt completedAt
          (rs.map Key.text) state walks.flatten := by
  have hnonempty : rs.map Key.text ≠ [] := fun h => hne (List.map_eq_nil_iff.1 h)
  unfold Scanner.scan
  rw [if_neg hnonempty, mapM_absolute]
  dsimp only
  rw [sorted_roots]
  cases ((sortedKeys rs).map Key.text).mapM (s.iterRegularFiles tree.fileSystem fuel) with
  | none => rfl
  | some walks => rfl

/-- The roots of a watcher are keys. -/
theorem exists_keys {requested : List Path} {stateDir : Path} {unique : List WatchRoot}
    (h : tree.system.normalizeWatchRoots requested stateDir = .ok unique) :
    ∃ rs : List Key, unique.map WatchRoot.path = rs.map Key.text ∧
      unique.map WatchRoot.key = rs.map Key.text ∧ rs ≠ [] := by
  obtain ⟨stateKey, cs, -, hcs, hunique, hne⟩ := Watch.normalize_spec h
  have hkeys : ∀ root ∈ unique, ∃ k : Key, root.path = k.text ∧ root.key = k.text := by
    intro root hroot
    rw [hunique] at hroot
    obtain ⟨p, hp⟩ := Watch.accepted_sort hcs root ((Antichain.prune_sublist _).subset hroot)
    obtain ⟨k, m, -, -, -, rfl⟩ := PosixSystem.candidate_spec hp
    exact ⟨k, rfl, rfl⟩
  have hlist : ∀ l : List WatchRoot,
      (∀ root ∈ l, ∃ k : Key, root.path = k.text ∧ root.key = k.text) →
      ∃ rs : List Key, l.map WatchRoot.path = rs.map Key.text ∧
        l.map WatchRoot.key = rs.map Key.text := by
    intro l hl
    induction l with
    | nil => exact ⟨[], rfl, rfl⟩
    | cons root l ih =>
        obtain ⟨k, hpath, hkey⟩ := hl root List.mem_cons_self
        obtain ⟨rs, hpaths, hkeys⟩ := ih fun root hroot => hl root (List.mem_cons_of_mem _ hroot)
        exact ⟨k :: rs, by rw [List.map_cons, List.map_cons, hpath, hpaths],
          by rw [List.map_cons, List.map_cons, hkey, hkeys]⟩
  obtain ⟨rs, hpaths, hkeys'⟩ := hlist unique hkeys
  refine ⟨rs, hpaths, hkeys', fun hnil => hne ?_⟩
  rw [hnil] at hpaths
  exact List.map_eq_nil_iff.1 hpaths

theorem nested_text {k r : Key} : Nested k.text r.text ↔ Under r k := by
  constructor
  · rintro ⟨k', r', hk, hr, hunder⟩
    rwa [Posix.Key.text_inj hk, Posix.Key.text_inj hr]
  · intro hunder
    exact ⟨k, r, rfl, rfl, hunder⟩

section Scan

variable {σ : Type} {rs : List Key}

/-- The walks of the sorted roots. -/
theorem walks_sorted (hnames : DistinctNames tree)
    (hapart : rs.Pairwise fun a b => ¬ Under a b ∧ ¬ Under b a)
    (hforest : ∀ r ∈ rs, IsForest s tree r.text) :
    ∃ fuel walks,
      (∀ fuel' ≥ fuel, ((sortedKeys rs).map Key.text).mapM
        (s.iterRegularFiles tree.fileSystem fuel') = some walks) ∧
      ((yielded walks.flatten).map Prod.fst).Nodup ∧
      ∀ path, path ∈ (yielded walks.flatten).map Prod.fst ↔
        ∃ r ∈ rs, FileBelow s tree r.text path := by
  have hperm : (sortedKeys rs).Perm rs := List.perm_insertionSort _ rs
  have hsorted := (hperm.pairwise_iff fun h => h.symm).2 hapart
  obtain ⟨fuel, walks, hwalks, hdistinct, hfiles⟩ :=
    walks_forest hnames hsorted fun r hr => hforest r (hperm.mem_iff.1 hr)
  refine ⟨fuel, walks, hwalks, hdistinct, fun path => (hfiles path).trans ?_⟩
  exact exists_congr fun r => and_congr_left fun _ => hperm.mem_iff

/-- The set of seen paths makes no difference. -/
theorem scan_deduplicate (hnames : DistinctNames tree) (hne : rs ≠ [])
    (hapart : rs.Pairwise fun a b => ¬ Under a b ∧ ¬ Under b a)
    (hforest : ∀ r ∈ rs, IsForest s tree r.text) (c : Callbacks σ) (startedAt completedAt : Str)
    (state : σ) (fuel : Nat) :
    s.scan tree c fuel true startedAt completedAt (rs.map Key.text) state =
      s.scan tree c fuel false startedAt completedAt (rs.map Key.text) state := by
  rw [scan_keys c fuel _ startedAt completedAt hne, scan_keys c fuel _ startedAt completedAt hne]
  cases hwalks : ((sortedKeys rs).map Key.text).mapM (s.iterRegularFiles tree.fileSystem fuel) with
  | none => rfl
  | some walks =>
      obtain ⟨fuel₀, walks₀, hwalks₀, hdistinct, hfiles⟩ := walks_sorted hnames hapart hforest
      -- the walks of a longer run are these
      have hlong := mapM_mono
        (fun root items => iterRegularFiles_mono (le_max_right fuel₀ fuel)) hwalks
      rw [hwalks₀ _ (le_max_left fuel₀ fuel)] at hlong
      cases hlong
      have hkeys := yieldedKeys_eq fun path hpath => (hfiles path).1 hpath
      simp only [Option.map_some, Callbacks.scanItems]
      rw [loop_deduplicate (hkeys ▸ hdistinct) fun _ _ => List.not_mem_nil]

/-- Every regular file is handed to the filter once. -/
theorem scan_offered (hnames : DistinctNames tree) (hne : rs ≠ [])
    (hapart : rs.Pairwise fun a b => ¬ Under a b ∧ ¬ Under b a)
    (hforest : ∀ r ∈ rs, IsForest s tree r.text) (c : Callbacks σ) (startedAt completedAt : Str)
    (state : σ) :
    ∃ fuel, ∀ fuel' ≥ fuel, ∃ outcome,
      s.scan tree c fuel' false startedAt completedAt (rs.map Key.text) state = some outcome ∧
        ∀ scanned, outcome = .ok scanned → scanned.offered.Nodup ∧
          ∀ path, path ∈ scanned.offered ↔ ∃ r ∈ rs, FileBelow s tree r.text path := by
  obtain ⟨fuel, walks, hwalks, hdistinct, hfiles⟩ := walks_sorted hnames hapart hforest
  refine ⟨fuel, fun fuel' hle => ⟨c.scanItems tree.pathKey false startedAt completedAt
    (rs.map Key.text) state walks.flatten, ?_, fun scanned hscanned => ?_⟩⟩
  · rw [scan_keys c fuel' _ startedAt completedAt hne, hwalks fuel' hle]
    rfl
  · obtain ⟨l, hloop, hresult⟩ := Checks.bind_eq_ok.1 hscanned
    cases hresult
    rw [loop_offered hloop, List.nil_append]
    exact ⟨hdistinct, hfiles⟩

/-- The order of the roots shows in the list of the roots only. -/
theorem scan_perm (c : Callbacks σ) (startedAt completedAt : Str) (state : σ) (fuel : Nat)
    (deduplicatePaths : Bool) (hne : rs ≠ []) {roots : List Path}
    (hperm : roots.Perm (rs.map Key.text)) :
    s.scan tree c fuel deduplicatePaths startedAt completedAt roots state =
      (s.scan tree c fuel deduplicatePaths startedAt completedAt (rs.map Key.text) state).map
        (Except.map fun scanned =>
          { scanned with result := { scanned.result with roots := roots } }) := by
  obtain ⟨rs', rfl⟩ : roots ∈ Set.range (List.map Key.text) := by
    rw [Set.range_list_map]
    intro root hroot
    obtain ⟨r, -, hr⟩ := List.mem_map.1 (hperm.mem_iff.1 hroot)
    exact ⟨r, hr⟩
  have hrs : rs'.Perm rs := (List.map_perm_map_iff fun _ _ => Posix.Key.text_inj).1 hperm
  have hne' : rs' ≠ [] := fun hnil => hne (List.nil_perm.1 (hnil ▸ hrs))
  have hlength : (rs'.map Key.text).length = (rs.map Key.text).length := hperm.length_eq
  rw [scan_keys c fuel _ startedAt completedAt hne, scan_keys c fuel _ startedAt completedAt hne',
    sortedKeys_perm hrs, Option.map_map]
  congr 1
  funext walks
  simp only [Function.comp_apply, Callbacks.scanItems, hlength]
  cases c.loop tree.pathKey deduplicatePaths [] walks.flatten
    { stats := { rootsRequested := (rs.map Key.text).length }, state := state } with
  | error exc => rfl
  | ok l => rfl

end Scan

end Roots

/-- A scan of watched roots needs no deduplication: it returns the same with it, it hands every
regular file to the filter once, and the order of the roots shows in their list only. -/
theorem scan_watchRoots {σ : Type} (s : Scanner) (tree : Tree) {requested : List Path}
    {stateDir : Path} {unique : List WatchRoot}
    (hnormal : tree.system.normalizeWatchRoots requested stateDir = .ok unique)
    (hnested : unique.Pairwise fun a b => ¬ Nested a.key b.key ∧ ¬ Nested b.key a.key)
    (hnames : DistinctNames tree) (hforest : ∀ root ∈ unique, IsForest s tree root.path)
    (c : Callbacks σ) (startedAt completedAt : Str) (state : σ) :
    (∀ fuel,
      s.scan tree c fuel false startedAt completedAt (unique.map WatchRoot.path) state =
        s.scan tree c fuel true startedAt completedAt (unique.map WatchRoot.path) state) ∧
    (∃ fuel, ∀ fuel' ≥ fuel, ∃ outcome,
      s.scan tree c fuel' false startedAt completedAt (unique.map WatchRoot.path) state =
          some outcome ∧
        ∀ scanned, outcome = .ok scanned → scanned.offered.Nodup ∧
          ∀ path, path ∈ scanned.offered ↔ ∃ root ∈ unique, FileBelow s tree root.path path) ∧
    ∀ roots : List Path, roots.Perm (unique.map WatchRoot.path) → ∀ fuel,
      s.scan tree c fuel false startedAt completedAt roots state =
        (s.scan tree c fuel false startedAt completedAt (unique.map WatchRoot.path) state).map
          (Except.map fun scanned =>
            { scanned with result := { scanned.result with roots := roots } }) := by
  obtain ⟨rs, hpaths, hkeys, hne⟩ := exists_keys hnormal
  have hapart : rs.Pairwise fun a b => ¬ Under a b ∧ ¬ Under b a := by
    have hpairs : (unique.map WatchRoot.key).Pairwise fun a b => ¬ Nested a b ∧ ¬ Nested b a :=
      List.pairwise_map.2 hnested
    rw [hkeys] at hpairs
    refine (List.pairwise_map.1 hpairs).imp fun {a b} hab => ?_
    exact ⟨fun h => hab.2 (nested_text.2 h), fun h => hab.1 (nested_text.2 h)⟩
  have hfiles (path : Path) : (∃ root ∈ unique, FileBelow s tree root.path path) ↔
      ∃ r ∈ rs, FileBelow s tree r.text path := by
    have hmem : (∃ root ∈ unique.map WatchRoot.path, FileBelow s tree root path) ↔
        ∃ root ∈ rs.map Key.text, FileBelow s tree root path := by rw [hpaths]
    simpa using hmem
  have hforests : ∀ r ∈ rs, IsForest s tree r.text := by
    intro r hr
    have hmem : r.text ∈ unique.map WatchRoot.path := hpaths ▸ List.mem_map_of_mem hr
    obtain ⟨root, hroot, hpath⟩ := List.mem_map.1 hmem
    exact hpath ▸ hforest root hroot
  rw [hpaths]
  refine ⟨fun fuel => ?_, ?_, fun roots hperm fuel => ?_⟩
  · exact (scan_deduplicate hnames hne hapart hforests c startedAt completedAt state fuel).symm
  · simp only [hfiles]
    exact scan_offered hnames hne hapart hforests c startedAt completedAt state
  · exact scan_perm c startedAt completedAt state fuel false hne hperm

namespace Sample

/-- A tree whose directories hold a file each. -/
def shallow : Tree where
  cwd := str "/"
  cwd_absolute := Watch.directories.cwd_absolute
  home := .ok
  casefold := id
  stat path := .ok (if path.getLast? = some (Text.ofChar 'f') then file else directory 2)
  entries _ := .ok [str "f"]
  plain _ names h name hname := by
    cases h
    obtain rfl := List.mem_singleton.1 hname
    exact ⟨by decide, by decide, by decide, by decide⟩

theorem stat_entry (directory : Path) :
    shallow.stat (joinPath directory (str "f")) = .ok file := by
  have hlast : (joinPath directory (str "f")).getLast? = some (Text.ofChar 'f') := by
    have hname : str "f" = [Text.ofChar 'f'] := rfl
    unfold joinPath
    split
    · rfl
    · split <;> simp [hname]
  exact congrArg Except.ok (if_pos hlast)

theorem below_shallow {root path : Path} (h : Below scanner shallow root path) : path = root := by
  cases h with
  | root => rfl
  | entry h hentries hname hexcluded hstat hdirectory =>
      cases hentries
      obtain rfl := List.mem_singleton.1 hname
      cases (stat_entry _).symm.trans hstat
      cases hdirectory

theorem forest_shallow (root : Path) : IsForest scanner shallow root where
  finite := (Set.finite_singleton root).subset fun _ h => below_shallow h
  apart _ _ _ _ ha hb _ _ _ _ := (below_shallow ha).trans (below_shallow hb).symm

def keyOf (name : Str) (h : Plain name) : Key := ⟨false, [name], by simpa using h⟩

theorem not_nested {name name' : Str} (h : Plain name) (h' : Plain name') (hne : name ≠ name') :
    ¬ Nested (keyOf name h).text (keyOf name' h').text := by
  intro hnested
  have hnames : [name'] <+: [name] := (nested_text.1 hnested).names
  exact hne (List.singleton_inj.1 (List.IsPrefix.eq_of_length hnames rfl)).symm

/-- Callbacks that take no part in a scan of files that are all too large. -/
def callbacks : Callbacks Unit where
  host := Watch.Host.posix
  fileFilter := none
  fileObserver := none
  scanFile _ _ := .tooLarge

theorem plain_a : Plain (str "a") := ⟨by decide, by decide, by decide, by decide⟩

theorem plain_b : Plain (str "b") := ⟨by decide, by decide, by decide, by decide⟩

theorem normalize_shallow :
    shallow.system.normalizeWatchRoots [str "/b", str "/a"] (str "/s") =
      .ok [⟨str "/a", str "/a", 1, 2⟩, ⟨str "/b", str "/b", 1, 2⟩] := rfl

theorem distinctNames_shallow : DistinctNames shallow := by
  intro directory names h
  cases h
  exact List.nodup_singleton _

end Sample

theorem scan_watchRoots_shallow :
    Sample.scanner.scan Sample.shallow Sample.callbacks 9 false [] [] [str "/a", str "/b"] () =
      Sample.scanner.scan Sample.shallow Sample.callbacks 9 true [] [] [str "/a", str "/b"] () :=
  (scan_watchRoots Sample.scanner Sample.shallow Sample.normalize_shallow
    (List.pairwise_pair.2 ⟨Sample.not_nested Sample.plain_a Sample.plain_b (by decide),
      Sample.not_nested Sample.plain_b Sample.plain_a (by decide)⟩)
    Sample.distinctNames_shallow (fun _ _ => Sample.forest_shallow _) Sample.callbacks [] [] ()).1 9

end ZsecShield.Scan
