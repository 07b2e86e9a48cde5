import ZsecShield.Lib.Posix
import ZsecShield.Lib.Search
import ZsecShield.Scan.Content
import ZsecShield.Watch.Session

/-!
# The directory walk

`Scanner._iter_regular_files` on POSIX paths.  The file system answers every call of the walk by
the number of the call, so it may change between any two of them.  A directory is looked at twice:
as an entry of its parent, where links, special files and other devices are left out, and when its
turn comes, where only its identity is read.

If the file system does not change, the walk is a depth-first search, which ends and lists every
identity once (`walk_terminates`).
-/

namespace ZsecShield.Scan

open Text (Str str)
open Watch (WalkItem)

/-! ## The file system -/

/-- What `lstat` tells of a path.  The flag `isLinkOrReparse` stands beside the other two, as a
reparse point has the mode of a file or a directory. -/
structure Metadata extends Watch.Stat where
  isRegular : Bool
  exclusive : isRegular = true → isDirectory = false
deriving DecidableEq

/-- `(st_dev, st_ino)`. -/
def Metadata.identity (m : Metadata) : Int × Int := (m.dev, m.ino)

/-- The answers to the calls of a walk, and the functions of paths it uses. -/
structure FileSystem where
  /-- `_path_key`. -/
  pathKey : Path → Str
  /-- `str.casefold`. -/
  casefold : Str → Str
  lstat : Nat → Path → Except OsError Metadata
  scandir : Nat → Path → Except OsError (List Str)

/-- A call and its answer. -/
inductive WalkCall where
  | lstat (path : Path) (answer : Except OsError Metadata)
  | scandir (path : Path) (answer : Except OsError (List Str))

def windowsTransientPathCodes : List Nat := [2, 3]

/-- The length of `TRANSIENT_DIRECTORY_RETRY_DELAYS_SECONDS`. -/
def transientDirectoryRetries : Nat := 3

def OsError.isTransient (exc : OsError) : Bool :=
  exc.winerror.any fun code => code ∈ windowsTransientPathCodes

/-- The key function `(entry.name.casefold(), entry.name)`. -/
def byEntryName (casefold : Str → Str) (a b : Str) : Prop :=
  casefold a < casefold b ∨ (casefold a = casefold b ∧ a ≤ b)

instance (casefold : Str → Str) : DecidableRel (byEntryName casefold) := fun a b =>
  inferInstanceAs (Decidable (casefold a < casefold b ∨ (casefold a = casefold b ∧ a ≤ b)))

/-- `_sorted_directory_entries(directory)` with the retries that are left. -/
def FileSystem.sortedDirectoryEntries (fs : FileSystem) (directory : Path) :
    Nat → List WalkCall → Except OsError (List Str) × List WalkCall
  | retries, calls =>
      match fs.scandir calls.length directory with
      | .ok names =>
          (.ok (names.insertionSort (byEntryName fs.casefold)),
            calls ++ [.scandir directory (.ok names)])
      | .error exc =>
          let calls := calls ++ [.scandir directory (.error exc)]
          match retries with
          | 0 => (.error exc, calls)
          | retries + 1 =>
              if OsError.isTransient exc = true then
                sortedDirectoryEntries fs directory retries calls
              else (.error exc, calls)

/-! ## One directory -/

/-- `_is_excluded(path)`. -/
def Scanner.isExcluded (s : Scanner) (fs : FileSystem) (path : Path) : Bool :=
  s.excluded.any fun excluded => Posix.isWithin (fs.pathKey path) excluded

/-- The child is known to be on another device than the root. -/
def Scanner.crosses (s : Scanner) (rootDevice : Int) (m : Metadata) : Bool :=
  !s.config.crossFilesystems && rootDevice ≠ 0 && m.dev ≠ 0 && m.dev ≠ rootDevice

/-- What becomes of an entry that is not excluded: what the walk reports of it, and the directories
it adds. -/
def Scanner.classify (s : Scanner) (rootDevice : Int) (path : Path) :
    Except OsError Metadata → List WalkItem × List Path
  | .error exc => ([.unreadable path .entry exc.text], [])
  | .ok metadata =>
      if metadata.isLinkOrReparse then ([.symlink], [])
      else if metadata.isDirectory then
        if s.crosses rootDevice metadata then ([.otherFilesystem], []) else ([], [path])
      else if metadata.isRegular then ([.file path metadata.toStat], [])
      else ([.special], [])

/-- What the entries of a directory give. -/
structure Examined where
  items : List WalkItem
  childDirectories : List Path
  calls : List WalkCall

/-- The loop over the entries of a directory. -/
def Scanner.examine (s : Scanner) (fs : FileSystem) (rootDevice : Int) (directory : Path) :
    List Str → List WalkCall → Examined
  | [], calls => ⟨[], [], calls⟩
  | name :: names, calls =>
      let path := Posix.joinPath directory name
      if s.isExcluded fs path then
        let rest := s.examine fs rootDevice directory names calls
        { rest with items := .excluded :: rest.items }
      else
        let answer := fs.lstat calls.length path
        let (items, directories) := s.classify rootDevice path answer
        let rest := s.examine fs rootDevice directory names (calls ++ [.lstat path answer])
        ⟨items ++ rest.items, directories ++ rest.childDirectories, rest.calls⟩

/-! ## The walk -/

/-- The local variables of `_iter_regular_files`, what it has reported and the calls it has made. -/
structure WalkState where
  rootDevice : Int
  /-- The last one put there comes first. -/
  stack : List Path
  visited : List (Int × Int)
  items : List WalkItem
  calls : List WalkCall

/-- `_iter_regular_files(root)` in front of its loop. -/
def Scanner.startWalk (s : Scanner) (fs : FileSystem) (root : Path) : WalkState :=
  if s.isExcluded fs root then ⟨0, [], [], [.excluded], []⟩
  else
    let answer := fs.lstat 0 root
    let stopped (item : WalkItem) : WalkState := ⟨0, [], [], [item], [.lstat root answer]⟩
    match answer with
    | .error exc => stopped (.unreadable root .root exc.text)
    | .ok metadata =>
        if metadata.isLinkOrReparse then stopped .symlink
        else if metadata.isRegular then stopped (.file root metadata.toStat)
        else if metadata.isDirectory then
          ⟨metadata.dev, [root], [], [], [.lstat root answer]⟩
        else stopped .special

/-- `identity[1] and identity in visited`. -/
def WalkState.HasVisited (st : WalkState) (m : Metadata) : Prop :=
  m.ino ≠ 0 ∧ m.identity ∈ st.visited

instance (st : WalkState) (m : Metadata) : Decidable (st.HasVisited m) :=
  inferInstanceAs (Decidable (_ ∧ _))

/-- A turn of `while stack:`. -/
def Scanner.walkTurn (s : Scanner) (fs : FileSystem) (st : WalkState) : WalkState :=
  match st.stack with
  | [] => st
  | directory :: stack =>
      let answer := fs.lstat st.calls.length directory
      let calls := st.calls ++ [.lstat directory answer]
      match answer with
      | .error exc =>
          { st with
            stack := stack, calls := calls
            items := st.items ++ [.unreadable directory .directory exc.text] }
      | .ok metadata =>
          if st.HasVisited metadata then
            { st with stack := stack, calls := calls, items := st.items ++ [.symlink] }
          else
            let visited := metadata.identity :: st.visited
            match fs.sortedDirectoryEntries directory transientDirectoryRetries calls with
            | (.error exc, calls) =>
                { st with
                  stack := stack, visited := visited, calls := calls
                  items := st.items ++ [.unreadable directory .directory exc.text] }
            | (.ok names, calls) =>
                let found := s.examine fs st.rootDevice directory names calls
                { st with
                  stack := found.childDirectories ++ stack, visited := visited
                  calls := found.calls, items := st.items ++ found.items }

def Scanner.walkTurns (s : Scanner) (fs : FileSystem) (n : Nat) (st : WalkState) : WalkState :=
  (s.walkTurn fs)^[n] st

/-- `_iter_regular_files(root)`, if it ends within some turns. -/
def Scanner.iterRegularFiles (s : Scanner) (fs : FileSystem) (fuel : Nat) (root : Path) :
    Option (List WalkItem) :=
  let st := s.walkTurns fs fuel (s.startWalk fs root)
  if st.stack = [] then some st.items else none

/-- The regular files that the walk yields. -/
def yielded (items : List WalkItem) : List (Path × Watch.Stat) :=
  items.filterMap fun
    | .file path metadata => some (path, metadata)
    | _ => none

/-- The directories whose entries the walk has listed. -/
def listed (calls : List WalkCall) : List Path :=
  calls.filterMap fun
    | .scandir path (.ok _) => some path
    | _ => none

/-- What the walk may list. -/
structure IsRealDirectory (s : Scanner) (rootDevice : Int) (m : Metadata) : Prop where
  directory : m.isDirectory = true
  noLink : m.isLinkOrReparse = false
  device : s.config.crossFilesystems = true ∨ m.dev = rootDevice

/-! ## What the calls are -/

section Calls

variable {s : Scanner} {fs : FileSystem}

@[simp] theorem listed_append (calls calls' : List WalkCall) :
    listed (calls ++ calls') = listed calls ++ listed calls' :=
  List.filterMap_append

@[simp] theorem yielded_append (items items' : List WalkItem) :
    yielded (items ++ items') = yielded items ++ yielded items' :=
  List.filterMap_append

theorem mem_yielded {items : List WalkItem} {path : Path} {metadata : Watch.Stat} :
    (path, metadata) ∈ yielded items ↔ WalkItem.file path metadata ∈ items := by
  simp only [yielded, List.mem_filterMap]
  constructor
  · rintro ⟨item, hitem, heq⟩
    split at heq
    · cases heq
      exact hitem
    · cases heq
  · exact fun hmem => ⟨_, hmem, rfl⟩

theorem mem_listed {calls : List WalkCall} {path : Path} :
    path ∈ listed calls ↔ ∃ names, WalkCall.scandir path (.ok names) ∈ calls := by
  simp only [listed, List.mem_filterMap]
  constructor
  · rintro ⟨call, hcall, heq⟩
    split at heq
    · cases heq
      exact ⟨_, hcall⟩
    · cases heq
  · rintro ⟨names, hmem⟩
    exact ⟨_, hmem, rfl⟩

theorem sortedDirectoryEntries_ok {directory : Path} {calls : List WalkCall} {names : List Str}
    (h : fs.scandir calls.length directory = .ok names) (retries : Nat) :
    fs.sortedDirectoryEntries directory retries calls =
      (.ok (names.insertionSort (byEntryName fs.casefold)),
        calls ++ [.scandir directory (.ok names)]) := by
  rw [FileSystem.sortedDirectoryEntries]
  simp only [h]

theorem sortedDirectoryEntries_zero {directory : Path} {calls : List WalkCall} {exc : OsError}
    (h : fs.scandir calls.length directory = .error exc) :
    fs.sortedDirectoryEntries directory 0 calls =
      (.error exc, calls ++ [.scandir directory (.error exc)]) := by
  rw [FileSystem.sortedDirectoryEntries]
  simp only [h]

theorem sortedDirectoryEntries_succ {directory : Path} {calls : List WalkCall} {exc : OsError}
    (h : fs.scandir calls.length directory = .error exc) (retries : Nat) :
    fs.sortedDirectoryEntries directory (retries + 1) calls =
      if OsError.isTransient exc = true then
        fs.sortedDirectoryEntries directory retries (calls ++ [.scandir directory (.error exc)])
      else (.error exc, calls ++ [.scandir directory (.error exc)]) := by
  rw [FileSystem.sortedDirectoryEntries]
  simp only [h]

variable (fs) in
/-- A listing is some failed calls and at most one that succeeds, the last. -/
theorem sortedDirectoryEntries_calls (directory : Path) (retries : Nat) (calls : List WalkCall) :
    ∃ failed : List WalkCall, (∀ call ∈ failed, ∃ exc, call = .scandir directory (.error exc)) ∧
      ((∃ exc, fs.sortedDirectoryEntries directory retries calls = (.error exc, calls ++ failed)) ∨
        ∃ names, fs.sortedDirectoryEntries directory retries calls =
          (.ok (names.insertionSort (byEntryName fs.casefold)),
            calls ++ (failed ++ [.scandir directory (.ok names)]))) := by
  induction retries generalizing calls with
  | zero =>
      cases hanswer : fs.scandir calls.length directory with
      | ok names => exact ⟨[], nofun, .inr ⟨names, sortedDirectoryEntries_ok hanswer 0⟩⟩
      | error exc =>
          exact ⟨[.scandir directory (.error exc)],
            fun call hcall => ⟨exc, List.mem_singleton.1 hcall⟩,
            .inl ⟨exc, sortedDirectoryEntries_zero hanswer⟩⟩
  | succ retries ih =>
      cases hanswer : fs.scandir calls.length directory with
      | ok names => exact ⟨[], nofun, .inr ⟨names, sortedDirectoryEntries_ok hanswer _⟩⟩
      | error exc =>
          rw [sortedDirectoryEntries_succ hanswer]
          split
          · obtain ⟨failed, hfailed, hresult⟩ := ih (calls ++ [.scandir directory (.error exc)])
            refine ⟨.scandir directory (.error exc) :: failed, ?_, by simpa using hresult⟩
            intro call hcall
            rcases List.mem_cons.1 hcall with rfl | hcall
            · exact ⟨exc, rfl⟩
            · exact hfailed call hcall
          · exact ⟨[.scandir directory (.error exc)],
              fun call hcall => ⟨exc, List.mem_singleton.1 hcall⟩, .inl ⟨exc, rfl⟩⟩

theorem examine_excluded {directory : Path} {name : Str}
    (h : s.isExcluded fs (Posix.joinPath directory name) = true) (rootDevice : Int)
    (names : List Str) (calls : List WalkCall) :
    s.examine fs rootDevice directory (name :: names) calls =
      { s.examine fs rootDevice directory names calls with
        items := .excluded :: (s.examine fs rootDevice directory names calls).items } := by
  simp only [Scanner.examine, h, if_true]

theorem examine_looked {directory path : Path} {name : Str}
    (hpath : path = Posix.joinPath directory name) (h : ¬ s.isExcluded fs path = true)
    (rootDevice : Int) (names : List Str) {calls : List WalkCall} {answer : Except OsError Metadata}
    (hanswer : fs.lstat calls.length path = answer) {rest : Examined}
    (hrest : s.examine fs rootDevice directory names (calls ++ [.lstat path answer]) = rest) :
    s.examine fs rootDevice directory (name :: names) calls =
      ⟨(s.classify rootDevice path answer).1 ++ rest.items,
        (s.classify rootDevice path answer).2 ++ rest.childDirectories, rest.calls⟩ := by
  subst hpath hanswer hrest
  simp only [Scanner.examine, h]
  rfl

variable (s fs) in
/-- The loop over the entries looks at paths below the directory only. -/
theorem examine_calls (rootDevice : Int) (directory : Path) (names : List Str)
    (calls : List WalkCall) : ∃ looks : List WalkCall,
      (s.examine fs rootDevice directory names calls).calls = calls ++ looks ∧
        ∀ call ∈ looks, ∃ path answer, call = .lstat path answer := by
  induction names generalizing calls with
  | nil => exact ⟨[], (List.append_nil calls).symm, nofun⟩
  | cons name names ih =>
      by_cases hexcluded : s.isExcluded fs (Posix.joinPath directory name) = true
      · rw [examine_excluded hexcluded]
        exact ih calls
      · obtain ⟨looks, hcalls, hlooks⟩ := ih (calls ++ [.lstat (Posix.joinPath directory name)
          (fs.lstat calls.length (Posix.joinPath directory name))])
        rw [examine_looked rfl hexcluded rootDevice names rfl rfl]
        refine ⟨.lstat (Posix.joinPath directory name)
          (fs.lstat calls.length (Posix.joinPath directory name)) :: looks, by simp [hcalls], ?_⟩
        intro call hcall
        rcases List.mem_cons.1 hcall with rfl | hcall
        · exact ⟨_, _, rfl⟩
        · exact hlooks call hcall

theorem listed_of_lstat {looks : List WalkCall}
    (h : ∀ call ∈ looks, ∃ path answer, call = .lstat path answer) : listed looks = [] := by
  refine List.filterMap_eq_nil_iff.2 fun call hcall => ?_
  obtain ⟨path, answer, rfl⟩ := h call hcall
  rfl

theorem listed_of_failed {directory : Path} {failed : List WalkCall}
    (h : ∀ call ∈ failed, ∃ exc, call = .scandir directory (.error exc)) : listed failed = [] := by
  refine List.filterMap_eq_nil_iff.2 fun call hcall => ?_
  obtain ⟨exc, rfl⟩ := h call hcall
  rfl

/-- What a turn of the walk with a directory on the stack does. -/
inductive WalkTurn (s : Scanner) (fs : FileSystem) (st : WalkState) (directory : Path)
    (stack : List Path) : WalkState → Prop
  | unreadable {exc : OsError} (hanswer : fs.lstat st.calls.length directory = .error exc) :
      WalkTurn s fs st directory stack
        { st with
          stack := stack, calls := st.calls ++ [.lstat directory (.error exc)]
          items := st.items ++ [.unreadable directory .directory exc.text] }
  | again {m : Metadata} (hanswer : fs.lstat st.calls.length directory = .ok m)
      (hvisited : st.HasVisited m) :
      WalkTurn s fs st directory stack
        { st with
          stack := stack, calls := st.calls ++ [.lstat directory (.ok m)]
          items := st.items ++ [.symlink] }
  | unlisted {m : Metadata} {exc : OsError} {failed : List WalkCall}
      (hanswer : fs.lstat st.calls.length directory = .ok m) (hvisited : ¬ st.HasVisited m)
      (hlisting : fs.sortedDirectoryEntries directory transientDirectoryRetries
        (st.calls ++ [.lstat directory (.ok m)]) =
          (.error exc, st.calls ++ [.lstat directory (.ok m)] ++ failed))
      (hfailed : ∀ call ∈ failed, ∃ exc, call = .scandir directory (.error exc)) :
      WalkTurn s fs st directory stack
        { st with
          stack := stack, visited := m.identity :: st.visited
          calls := st.calls ++ [.lstat directory (.ok m)] ++ failed
          items := st.items ++ [.unreadable directory .directory exc.text] }
  | listed {m : Metadata} {names : List Str} {failed : List WalkCall}
      (hanswer : fs.lstat st.calls.length directory = .ok m) (hvisited : ¬ st.HasVisited m)
      (hlisting : fs.sortedDirectoryEntries directory transientDirectoryRetries
        (st.calls ++ [.lstat directory (.ok m)]) =
          (.ok (names.insertionSort (byEntryName fs.casefold)),
            st.calls ++ [.lstat directory (.ok m)] ++
              (failed ++ [.scandir directory (.ok names)])))
      (hfailed : ∀ call ∈ failed, ∃ exc, call = .scandir directory (.error exc))
      {found : Examined}
      (hfound : found = s.examine fs st.rootDevice directory
        (names.insertionSort (byEntryName fs.casefold))
        (st.calls ++ [.lstat directory (.ok m)] ++ (failed ++ [.scandir directory (.ok names)]))) :
      WalkTurn s fs st directory stack
        { st with
          stack := found.childDirectories ++ stack, visited := m.identity :: st.visited
          calls := found.calls, items := st.items ++ found.items }

variable (s fs) in
theorem walkTurn_cons {st : WalkState} {directory : Path} {stack : List Path}
    (h : st.stack = directory :: stack) :
    WalkTurn s fs st directory stack (s.walkTurn fs st) := by
  cases hanswer : fs.lstat st.calls.length directory with
  | error exc =>
      simp only [Scanner.walkTurn, h, hanswer]
      exact .unreadable hanswer
  | ok m =>
      by_cases hvisited : st.HasVisited m
      · simp only [Scanner.walkTurn, h, hanswer, if_pos hvisited]
        exact .again hanswer hvisited
      · obtain ⟨failed, hfailed, ⟨exc, hlisting⟩ | ⟨names, hlisting⟩⟩ :=
          sortedDirectoryEntries_calls fs directory transientDirectoryRetries
            (st.calls ++ [.lstat directory (.ok m)])
        · simp only [Scanner.walkTurn, h, hanswer, if_neg hvisited, hlisting]
          exact .unlisted hanswer hvisited hlisting hfailed
        · simp only [Scanner.walkTurn, h, hanswer, if_neg hvisited, hlisting]
          exact .listed hanswer hvisited hlisting hfailed rfl

theorem walkTurn_nil {st : WalkState} (h : st.stack = []) : s.walkTurn fs st = st := by
  simp only [Scanner.walkTurn, h]

end Calls

/-! ## A file system that does not change -/

/-- Every call has the answer of the first one. -/
structure FileSystem.Static (fs : FileSystem) : Prop where
  lstat : ∀ n path, fs.lstat n path = fs.lstat 0 path
  scandir : ∀ n path, fs.scandir n path = fs.scandir 0 path

section Static

variable (s : Scanner) (fs : FileSystem) (rootDevice : Int)

/-- What becomes of an entry. -/
def entryFound (directory : Path) (name : Str) : List WalkItem × List Path :=
  if s.isExcluded fs (Posix.joinPath directory name) then ([.excluded], [])
  else s.classify rootDevice (Posix.joinPath directory name)
    (fs.lstat 0 (Posix.joinPath directory name))

/-- What the walk reports of the entries of a directory. -/
def itemsOf (directory : Path) : List WalkItem :=
  match fs.scandir 0 directory with
  | .error _ => []
  | .ok names => (names.insertionSort (byEntryName fs.casefold)).flatMap fun name =>
      (entryFound s fs rootDevice directory name).1

/-- The directories that the entries of a directory add. -/
def childDirectoriesOf (directory : Path) : Option (List Path) :=
  match fs.scandir 0 directory with
  | .error _ => none
  | .ok names => some ((names.insertionSort (byEntryName fs.casefold)).flatMap fun name =>
      (entryFound s fs rootDevice directory name).2)

/-- The directories as the nodes of a search. -/
def directories : Search.Space Path (Int × Int) where
  look directory := match fs.lstat 0 directory with
    | .error _ => none
    | .ok m => some (m.identity, childDirectoriesOf s fs rootDevice directory)
  known identity := decide (identity.2 ≠ 0)

variable {s fs rootDevice}

variable (s rootDevice) in
theorem examine_static (hstatic : fs.Static) (directory : Path) (names : List Str)
    (calls : List WalkCall) :
    (s.examine fs rootDevice directory names calls).items =
        names.flatMap (fun name => (entryFound s fs rootDevice directory name).1) ∧
      (s.examine fs rootDevice directory names calls).childDirectories =
        names.flatMap (fun name => (entryFound s fs rootDevice directory name).2) := by
  induction names generalizing calls with
  | nil => exact ⟨rfl, rfl⟩
  | cons name names ih =>
      rw [List.flatMap_cons, List.flatMap_cons]
      by_cases hexcluded : s.isExcluded fs (Posix.joinPath directory name) = true
      · rw [examine_excluded hexcluded, entryFound, if_pos hexcluded]
        obtain ⟨hitems, hchildren⟩ := ih calls
        exact ⟨congrArg (WalkItem.excluded :: ·) hitems, hchildren⟩
      · rw [examine_looked rfl hexcluded rootDevice names (hstatic.lstat _ _) rfl, entryFound,
          if_neg hexcluded]
        obtain ⟨hitems, hchildren⟩ := ih (calls ++ [.lstat (Posix.joinPath directory name)
          (fs.lstat 0 (Posix.joinPath directory name))])
        rw [hitems, hchildren]
        exact ⟨rfl, rfl⟩

theorem sortedDirectoryEntries_static (hstatic : fs.Static) (directory : Path) (retries : Nat)
    (calls : List WalkCall) :
    (fs.sortedDirectoryEntries directory retries calls).1 =
      match fs.scandir 0 directory with
      | .error exc => .error exc
      | .ok names => .ok (names.insertionSort (byEntryName fs.casefold)) := by
  cases hanswer : fs.scandir 0 directory with
  | ok names => rw [sortedDirectoryEntries_ok ((hstatic.scandir _ _).trans hanswer)]
  | error exc =>
      induction retries generalizing calls with
      | zero => rw [sortedDirectoryEntries_zero ((hstatic.scandir _ _).trans hanswer)]
      | succ retries ih =>
          rw [sortedDirectoryEntries_succ ((hstatic.scandir _ _).trans hanswer)]
          split
          · exact ih _
          · rfl

/-- The walk in a state is the search in a state. -/
structure Follows (s : Scanner) (fs : FileSystem) (st : WalkState)
    (found : Search.State Path (Int × Int)) : Prop where
  stack : st.stack = found.stack
  visited : st.visited = found.seen
  opened : listed st.calls = found.opened
  scanned : ∀ path answer, WalkCall.scandir path answer ∈ st.calls → path ∈ found.taken
  files : yielded st.items =
    found.opened.flatMap fun directory => yielded (itemsOf s fs st.rootDevice directory)

/-- A directory that is not listed. -/
theorem Follows.left {st : WalkState} {found : Search.State Path (Int × Int)}
    (h : Follows s fs st found) (directory : Path) (stack : List Path) (visited : List (Int × Int))
    {calls : List WalkCall} (hlisted : listed calls = [])
    (hscanned : ∀ path answer, WalkCall.scandir path answer ∈ calls → path = directory)
    {items : List WalkItem} (hitems : yielded items = []) :
    Follows s fs
      { st with
        stack := stack, visited := visited, calls := st.calls ++ calls, items := st.items ++ items }
      { found with stack := stack, seen := visited, taken := found.taken ++ [directory] } where
  stack := rfl
  visited := rfl
  opened := by rw [listed_append, hlisted, List.append_nil, h.opened]
  scanned path answer hmem := by
    rcases List.mem_append.1 hmem with hmem | hmem
    · exact List.mem_append_left _ (h.scanned path answer hmem)
    · exact List.mem_append_right _ (List.mem_singleton.2 (hscanned path answer hmem))
  files := by rw [yielded_append, hitems, List.append_nil, h.files]

/-- A turn of the walk is a turn of the search. -/
theorem Follows.turn (hstatic : fs.Static) {st : WalkState}
    {found : Search.State Path (Int × Int)} (h : Follows s fs st found) :
    (s.walkTurn fs st).rootDevice = st.rootDevice ∧
      Follows s fs (s.walkTurn fs st) (Search.turn (directories s fs st.rootDevice) found) := by
  cases hstack : st.stack with
  | nil =>
      rw [walkTurn_nil hstack, Search.turn_nil (h.stack.symm.trans hstack)]
      exact ⟨rfl, h⟩
  | cons directory stack =>
      have hfound : found.stack = directory :: stack := h.stack.symm.trans hstack
      have hlook {m : Metadata} (hanswer : fs.lstat st.calls.length directory = .ok m) :
          (directories s fs st.rootDevice).look directory =
            some (m.identity, childDirectoriesOf s fs st.rootDevice directory) := by
        rw [hstatic.lstat] at hanswer
        simp only [directories, hanswer]
      have hagain (m : Metadata) : ((directories s fs st.rootDevice).known m.identity = true ∧
          m.identity ∈ found.seen) ↔ st.HasVisited m := by
        rw [← h.visited, WalkState.HasVisited, directories, decide_eq_true_eq]
        rfl
      have hlstat (answer : Except OsError Metadata) (path : Path)
          (answer' : Except OsError (List Str))
          (hmem : WalkCall.scandir path answer' ∈ [WalkCall.lstat directory answer]) :
          path = directory := by
        cases List.mem_singleton.1 hmem
      have hturn := walkTurn_cons s fs hstack
      generalize s.walkTurn fs st = st' at hturn ⊢
      cases hturn with
      | @unreadable exc hanswer =>
          have hblind : (directories s fs st.rootDevice).look directory = none := by
            rw [hstatic.lstat] at hanswer
            simp only [directories, hanswer]
          simp only [Search.turn, hfound, hblind]
          rw [← h.visited]
          exact ⟨trivial, h.left directory stack st.visited rfl (hlstat _) rfl⟩
      | @again m hanswer hvisited =>
          simp only [Search.turn, hfound, hlook hanswer, if_pos ((hagain m).2 hvisited)]
          rw [← h.visited]
          exact ⟨trivial, h.left directory stack st.visited rfl (hlstat _) rfl⟩
      | @unlisted m exc failed hanswer hvisited hlisting hfailed =>
          have hshut : childDirectoriesOf s fs st.rootDevice directory = none := by
            have hresult := sortedDirectoryEntries_static hstatic directory
              transientDirectoryRetries (st.calls ++ [.lstat directory (.ok m)])
            rw [hlisting] at hresult
            unfold childDirectoriesOf
            cases hscandir : fs.scandir 0 directory with
            | error => rfl
            | ok =>
                rw [hscandir] at hresult
                cases hresult
          simp only [Search.turn, hfound, hlook hanswer, hshut,
            if_neg (fun hseen => hvisited ((hagain m).1 hseen))]
          rw [← h.visited, List.append_assoc]
          refine ⟨trivial, h.left directory stack _ ?_ ?_ rfl⟩
          · rw [listed_append, listed_of_failed hfailed]
            rfl
          · intro path answer hmem
            rcases List.mem_append.1 hmem with hmem | hmem
            · exact hlstat _ path answer hmem
            · obtain ⟨exc', heq⟩ := hfailed _ hmem
              cases heq
              rfl
      | @listed m names failed hanswer hvisited hlisting hfailed examined hexamined =>
          obtain ⟨names', hscandir, hsorted⟩ : ∃ names', fs.scandir 0 directory = .ok names' ∧
              names.insertionSort (byEntryName fs.casefold) =
                names'.insertionSort (byEntryName fs.casefold) := by
            have hresult := sortedDirectoryEntries_static hstatic directory
              transientDirectoryRetries (st.calls ++ [.lstat directory (.ok m)])
            rw [hlisting] at hresult
            cases hscandir : fs.scandir 0 directory with
            | error =>
                rw [hscandir] at hresult
                cases hresult
            | ok names' =>
                rw [hscandir] at hresult
                exact ⟨names', rfl, Except.ok.inj hresult⟩
          obtain ⟨hitems, hchildren⟩ := examine_static s st.rootDevice hstatic directory
            (names'.insertionSort (byEntryName fs.casefold))
            (st.calls ++ [.lstat directory (.ok m)] ++ (failed ++ [.scandir directory (.ok names)]))
          obtain ⟨looks, hcalls, hlooks⟩ := examine_calls s fs st.rootDevice directory
            (names'.insertionSort (byEntryName fs.casefold))
            (st.calls ++ [.lstat directory (.ok m)] ++ (failed ++ [.scandir directory (.ok names)]))
          rw [hsorted] at hexamined
          rw [← hexamined] at hitems hchildren hcalls
          have hopened : childDirectoriesOf s fs st.rootDevice directory =
              some examined.childDirectories := by
            rw [childDirectoriesOf, hscandir, hchildren]
          simp only [Search.turn, hfound, hlook hanswer, hopened,
            if_neg (fun hseen => hvisited ((hagain m).1 hseen))]
          rw [← h.visited]
          refine ⟨trivial, rfl, rfl, ?_, ?_, ?_⟩
          · rw [hcalls]
            simp only [listed_append, listed_of_lstat hlooks, listed_of_failed hfailed, h.opened]
            simp [listed]
          · intro path answer hmem
            rw [hcalls] at hmem
            simp only [List.mem_append] at hmem
            rcases hmem with ((hmem | hmem) | (hmem | hmem)) | hmem
            · exact List.mem_append_left _ (h.scanned path answer hmem)
            · cases List.mem_singleton.1 hmem
            · obtain ⟨exc, heq⟩ := hfailed _ hmem
              cases heq
              exact List.mem_append_right _ List.mem_cons_self
            · cases List.mem_singleton.1 hmem
              exact List.mem_append_right _ List.mem_cons_self
            · obtain ⟨path', answer', heq⟩ := hlooks _ hmem
              cases heq
          · rw [yielded_append, List.flatMap_append, List.flatMap_singleton, h.files, hitems, itemsOf,
              hscandir]

variable (s fs) in
/-- How the walk starts. -/
theorem startWalk_cases (root : Path) :
    ((s.startWalk fs root).stack = [] ∧
        ∀ path answer, WalkCall.scandir path answer ∉ (s.startWalk fs root).calls) ∨
      ∃ m, s.isExcluded fs root = false ∧ fs.lstat 0 root = .ok m ∧ m.isDirectory = true ∧
        m.isLinkOrReparse = false ∧
        s.startWalk fs root = ⟨m.dev, [root], [], [], [.lstat root (.ok m)]⟩ := by
  unfold Scanner.startWalk
  by_cases hexcluded : s.isExcluded fs root = true
  · rw [if_pos hexcluded]
    exact .inl ⟨rfl, nofun⟩
  · rw [if_neg hexcluded]
    cases hanswer : fs.lstat 0 root with
    | error exc => exact .inl ⟨rfl, by simp⟩
    | ok m =>
        dsimp only
        by_cases hlink : m.isLinkOrReparse = true
        · rw [if_pos hlink]
          exact .inl ⟨rfl, by simp⟩
        · rw [if_neg hlink]
          by_cases hregular : m.isRegular = true
          · rw [if_pos hregular]
            exact .inl ⟨rfl, by simp⟩
          · rw [if_neg hregular]
            by_cases hdirectory : m.isDirectory = true
            · rw [if_pos hdirectory]
              exact .inr ⟨m, Bool.eq_false_of_not_eq_true hexcluded, rfl, hdirectory,
                Bool.eq_false_of_not_eq_true hlink, rfl⟩
            · rw [if_neg hdirectory]
              exact .inl ⟨rfl, by simp⟩

/-- A directory that an entry adds. -/
theorem child_of_entryFound {directory : Path} {name : Str} {c : Path}
    (h : c ∈ (entryFound s fs rootDevice directory name).2) :
    c = Posix.joinPath directory name ∧ s.isExcluded fs c = false ∧ ∃ m, fs.lstat 0 c = .ok m ∧
      m.isDirectory = true ∧ m.isLinkOrReparse = false ∧ s.crosses rootDevice m = false := by
  unfold entryFound at h
  split at h
  · cases h
  · rename_i hexcluded
    cases hanswer : fs.lstat 0 (Posix.joinPath directory name) with
    | error exc =>
        rw [hanswer] at h
        cases h
    | ok m =>
        rw [hanswer] at h
        simp only [Scanner.classify] at h
        split at h
        · cases h
        · rename_i hlink
          split at h
          · rename_i hdirectory
            split at h
            · cases h
            · rename_i hcrosses
              obtain rfl := List.mem_singleton.1 h
              exact ⟨rfl, Bool.eq_false_of_not_eq_true hexcluded, m, hanswer, hdirectory,
                Bool.eq_false_of_not_eq_true hlink, Bool.eq_false_of_not_eq_true hcrosses⟩
          · split at h <;> cases h

theorem mem_childDirectoriesOf {directory : Path} {children : List Path} {c : Path}
    (h : childDirectoriesOf s fs rootDevice directory = some children) (hc : c ∈ children) :
    ∃ names name, fs.scandir 0 directory = .ok names ∧ name ∈ names ∧
      c ∈ (entryFound s fs rootDevice directory name).2 := by
  unfold childDirectoriesOf at h
  cases hscandir : fs.scandir 0 directory with
  | error exc =>
      rw [hscandir] at h
      cases h
  | ok names =>
      rw [hscandir] at h
      cases h
      obtain ⟨name, hname, hc⟩ := List.mem_flatMap.1 hc
      exact ⟨names, name, rfl, (List.mem_insertionSort _).1 hname, hc⟩

/-- A regular file in a directory that is listed is reported. -/
theorem file_mem_itemsOf {directory : Path} {names : List Str} {name : Str} {m : Metadata}
    (hscandir : fs.scandir 0 directory = .ok names) (hname : name ∈ names)
    (hexcluded : s.isExcluded fs (Posix.joinPath directory name) = false)
    (hanswer : fs.lstat 0 (Posix.joinPath directory name) = .ok m) (hregular : m.isRegular = true)
    (hlink : m.isLinkOrReparse = false) :
    WalkItem.file (Posix.joinPath directory name) m.toStat ∈ itemsOf s fs rootDevice directory := by
  rw [itemsOf, hscandir]
  refine List.mem_flatMap.2 ⟨name, (List.mem_insertionSort _).2 hname, ?_⟩
  rw [entryFound, if_neg (by rw [hexcluded]; exact Bool.false_ne_true), hanswer]
  simp [Scanner.classify, hlink, m.exclusive hregular, hregular]

/-- A file that is reported for a directory. -/
theorem exists_of_file_mem_itemsOf {directory path : Path} {metadata : Watch.Stat}
    (h : WalkItem.file path metadata ∈ itemsOf s fs rootDevice directory) :
    ∃ names name m, fs.scandir 0 directory = .ok names ∧ name ∈ names ∧
      path = Posix.joinPath directory name ∧ s.isExcluded fs path = false ∧
      fs.lstat 0 path = .ok m ∧ m.isRegular = true ∧ m.isLinkOrReparse = false := by
  unfold itemsOf at h
  cases hscandir : fs.scandir 0 directory with
  | error exc =>
      rw [hscandir] at h
      cases h
  | ok names =>
      rw [hscandir] at h
      obtain ⟨name, hname, h⟩ := List.mem_flatMap.1 h
      refine ⟨names, name, ?_⟩
      unfold entryFound at h
      split at h
      · cases List.mem_singleton.1 h
      · rename_i hexcluded
        cases hanswer : fs.lstat 0 (Posix.joinPath directory name) with
        | error exc =>
            rw [hanswer] at h
            cases List.mem_singleton.1 h
        | ok m =>
            rw [hanswer] at h
            simp only [Scanner.classify] at h
            split at h
            · cases List.mem_singleton.1 h
            · rename_i hlink
              split at h
              · split at h
                · cases List.mem_singleton.1 h
                · cases h
              · split at h
                · rename_i hregular
                  cases List.mem_singleton.1 h
                  exact ⟨m, rfl, (List.mem_insertionSort _).1 hname, rfl,
                    Bool.eq_false_of_not_eq_true hexcluded, hanswer, hregular,
                    Bool.eq_false_of_not_eq_true hlink⟩
                · cases List.mem_singleton.1 h

/-- The walk may list the directory. -/
def Enterable (s : Scanner) (fs : FileSystem) (rootDevice : Int) (path : Path) : Prop :=
  s.isExcluded fs path = false ∧ ∃ m, fs.lstat 0 path = .ok m ∧ IsRealDirectory s rootDevice m

/-- What the walk finds below a directory it may list, it may list. -/
theorem hereditary_enterable
    (hdevice : ∀ path m, fs.lstat 0 path = .ok m → m.isDirectory = true → m.dev ≠ 0)
    (hroot : rootDevice ≠ 0) :
    Search.Hereditary (directories s fs rootDevice) (Enterable s fs rootDevice) := by
  intro directory i children _ hlook c hc
  have hchildren : childDirectoriesOf s fs rootDevice directory = some children := by
    simp only [directories] at hlook
    split at hlook
    · cases hlook
    · exact (Prod.mk.inj (Option.some.inj hlook)).2
  obtain ⟨names, name, -, -, hentry⟩ := mem_childDirectoriesOf hchildren hc
  obtain ⟨-, hexcluded, m, hanswer, hdirectory, hlink, hcrosses⟩ := child_of_entryFound hentry
  refine ⟨hexcluded, m, hanswer, hdirectory, hlink, ?_⟩
  have hdev := hdevice c m hanswer hdirectory
  by_cases hcross : s.config.crossFilesystems = true
  · exact .inl hcross
  · simpa [Scanner.crosses, hcross, hroot, hdev] using hcrosses

/-- The walk follows the search. -/
theorem follows_turns (hstatic : fs.Static) {st : WalkState}
    {found : Search.State Path (Int × Int)} (h : Follows s fs st found) (n : Nat) :
    (s.walkTurns fs n st).rootDevice = st.rootDevice ∧
      Follows s fs (s.walkTurns fs n st)
        (Search.turns (directories s fs st.rootDevice) n found) := by
  induction n generalizing st found with
  | zero => exact ⟨rfl, h⟩
  | succ n ih =>
      obtain ⟨hdevice, hnext⟩ := h.turn hstatic
      obtain ⟨hdevices, hlast⟩ := ih hnext
      rw [hdevice] at hdevices hlast
      exact ⟨hdevices, hlast⟩

/-- What a walk has done that is at its end. -/
structure WalkDone (s : Scanner) (fs : FileSystem) (st : WalkState) : Prop where
  finished : st.stack = []
  once : (listed st.calls).Pairwise fun a b => ∀ m m', fs.lstat 0 a = .ok m →
    fs.lstat 0 b = .ok m' → m.identity ≠ m'.identity
  safe : ∀ path answer, WalkCall.scandir path answer ∈ st.calls →
    Enterable s fs st.rootDevice path
  complete : ∀ directory ∈ listed st.calls, ∀ names, fs.scandir 0 directory = .ok names →
    ∀ name ∈ names, s.isExcluded fs (Posix.joinPath directory name) = false →
      ∀ m, fs.lstat 0 (Posix.joinPath directory name) = .ok m → m.isRegular = true →
        m.isLinkOrReparse = false →
          WalkItem.file (Posix.joinPath directory name) m.toStat ∈ st.items

variable (s fs) in
/-- On a file system that does not change and has finitely many directories, the walk ends. -/
theorem walk_terminates (hstatic : fs.Static)
    (hfinite : {i | ∃ path m, fs.lstat 0 path = .ok m ∧ m.isDirectory = true ∧
      m.identity = i}.Finite)
    (hidentity : ∀ path m, fs.lstat 0 path = .ok m → m.isDirectory = true →
      m.dev ≠ 0 ∧ m.ino ≠ 0) (root : Path) :
    ∃ fuel, WalkDone s fs (s.walkTurns fs fuel (s.startWalk fs root)) := by
  obtain ⟨hstack, hcalls⟩ | ⟨m, hexcluded, hanswer, hdirectory, hlink, hstart⟩ :=
    startWalk_cases s fs root
  · have hnone : listed (s.startWalk fs root).calls = [] :=
      List.eq_nil_iff_forall_not_mem.2 fun path hpath => by
        obtain ⟨names, hmem⟩ := mem_listed.1 hpath
        exact hcalls path (.ok names) hmem
    refine ⟨0, hstack, ?_, fun path answer hmem => absurd hmem (hcalls path answer), ?_⟩
    · exact hnone ▸ List.Pairwise.nil
    · intro directory hmem
      exact absurd (hnone ▸ hmem) List.not_mem_nil
  · have hroot : Enterable s fs m.dev root := ⟨hexcluded, m, hanswer, hdirectory, hlink, .inr rfl⟩
    have hhereditary := hereditary_enterable (s := s) (fun path m h hd => (hidentity path m h hd).1)
      (hidentity root m hanswer hdirectory).1
    have hsound : Search.Sound (directories s fs m.dev) (Enterable s fs m.dev)
        (Search.start [root]) :=
      Search.sound_start fun path hpath => by rwa [List.mem_singleton.1 hpath]
    obtain ⟨fuel, hdone⟩ := Search.exists_finished hhereditary hfinite.toFinset
      (fun path i children henter hlook => by
        obtain ⟨-, m', hm', hreal⟩ := henter
        simp only [directories, hm'] at hlook
        obtain ⟨rfl, -⟩ := Prod.mk.inj (Option.some.inj hlook)
        exact ⟨decide_eq_true (hidentity path m' hm' hreal.directory).2,
          hfinite.mem_toFinset.2 ⟨path, m', hm', hreal.directory, rfl⟩⟩)
      _ hsound
    have hfollows : Follows s fs (s.startWalk fs root) (Search.start [root]) := by
      rw [hstart]
      exact ⟨rfl, rfl, rfl, by simp, rfl⟩
    obtain ⟨hdevice, hlast⟩ := follows_turns hstatic hfollows fuel
    have hrootDevice : (s.startWalk fs root).rootDevice = m.dev := by rw [hstart]
    rw [hrootDevice] at hdevice hlast
    have hsounds := Search.turns_invariant (fun _ h => h.turn hhereditary) hsound fuel
    have honce := Search.turns_invariant (fun _ h => h.turn)
      (Search.once_start (directories s fs m.dev) [root]) fuel
    refine ⟨fuel, hlast.stack.trans hdone, ?_, ?_, ?_⟩
    · rw [hlast.opened]
      refine honce.apart.imp_of_mem fun {a b} ha _ hab m₁ m₂ h₁ h₂ heq => ?_
      obtain ⟨-, m', hm', hreal⟩ := hsounds.taken a (hsounds.opened a ha).1
      cases h₁.symm.trans hm'
      have hlook₁ : (directories s fs m.dev).look a =
          some (m₁.identity, childDirectoriesOf s fs m.dev a) := by simp only [directories, h₁]
      have hlook₂ : (directories s fs m.dev).look b =
          some (m₁.identity, childDirectoriesOf s fs m.dev b) := by
        simp only [directories, h₂, heq]
      have hunknown := of_decide_eq_false (hab _ _ _ hlook₁ hlook₂)
      exact hunknown (hidentity a m₁ h₁ hreal.directory).2
    · intro path answer hmem
      rw [hdevice]
      exact hsounds.taken path (hlast.scanned path answer hmem)
    · intro directory hmem names hscandir name hname hexcluded' m' hm' hregular hlink'
      rw [← mem_yielded, hlast.files]
      refine List.mem_flatMap.2 ⟨directory, hlast.opened ▸ hmem, mem_yielded.2 ?_⟩
      exact file_mem_itemsOf hscandir hname hexcluded' hm' hregular hlink'

end Static

/-! ### A directory that contains itself -/

namespace Sample

/-- A scanner without rules. -/
def scanner : Scanner where
  rules := []
  config := {}
  excluded := []
  bounded := ScannerConfig.fault_default
  unique := List.nodup_nil
  faultless := nofun

def directory (ino : Int) : Metadata := ⟨⟨1, ino, 4096, 0, 0, 0, true, false⟩, false, nofun⟩

def file : Metadata := ⟨⟨1, 9, 10, 0, 0, 0, false, false⟩, true, fun _ => rfl⟩

/-- Every directory is one directory, with a file and itself in it. -/
def loop : FileSystem where
  pathKey := id
  casefold := id
  lstat _ path := .ok (if path.getLast? = some (Text.ofChar 'f') then file else directory 2)
  scandir _ _ := .ok [str "f", str "d"]

theorem identity_loop {path : Path} {m : Metadata} (h : loop.lstat 0 path = .ok m)
    (hdirectory : m.isDirectory = true) : m.identity = (1, 2) := by
  simp only [loop] at h
  split at h
  · cases h
    cases hdirectory
  · cases h
    rfl

end Sample

theorem walk_terminates_loop : ∃ fuel, WalkDone Sample.scanner Sample.loop
    (Sample.scanner.walkTurns Sample.loop fuel
      (Sample.scanner.startWalk Sample.loop (str "/r"))) := by
  refine walk_terminates Sample.scanner Sample.loop ⟨fun _ _ => rfl, fun _ _ => rfl⟩ ?_ ?_
    (str "/r")
  · refine Set.Finite.subset (Set.finite_singleton ((1 : Int), (2 : Int))) ?_
    rintro i ⟨path, m, hm, hdirectory, rfl⟩
    exact Sample.identity_loop hm hdirectory
  · intro path m hm hdirectory
    have hidentity := Sample.identity_loop hm hdirectory
    obtain ⟨hdev, hino⟩ := Prod.mk.inj hidentity
    constructor
    · rw [hdev]
      decide
    · rw [hino]
      decide

end ZsecShield.Scan
