import ZsecShield.Watch.Session
import ZsecShield.Lib.Antichain
import ZsecShield.Lib.Checks
import ZsecShield.Lib.Posix

/-!
# Watch roots

`normalize_watch_roots` on a POSIX system whose file system does not change meanwhile, and
`_scope_for` on what it returns.
-/

namespace ZsecShield.Watch

open Text (Str str)
open Posix (slash isWithin Key)
open Checks (bind_eq_ok)

/-- What `os.path` and `os.lstat` ask of the system. -/
structure PosixSystem where
  /-- `os.getcwd()`. -/
  cwd : Str
  cwd_absolute : [slash] <+: cwd
  /-- The home directory that a first component such as `~` stands for. -/
  home : Str → Except PyError Str
  lstat : Path → Except PyError Stat

namespace PosixSystem

/-- `Path.expanduser`. -/
def expanduser (sys : PosixSystem) (path : Path) : Except PyError Path :=
  match Posix.split path with
  | [] => .ok path
  | first :: rest =>
      if first.head? = some (Text.ofChar '~') then do
        let home ← sys.home first
        .ok (if rest = [] then home else Posix.joinPath home (Posix.join rest))
      else .ok path

/-- `_absolute`. -/
def absolute (sys : PosixSystem) (path : Path) : Except PyError Path := do
  let path ← sys.expanduser path
  .ok (Posix.abspath sys.cwd path)

/-- `_path_key`.  `normcase` leaves a POSIX path alone. -/
def pathKey (sys : PosixSystem) (path : Path) : Except PyError Str := do
  let path ← sys.absolute path
  .ok (Posix.normpath path)

end PosixSystem

/-- A `WatchError` about a path. -/
def rootError (text : String) (path : Path) : PyError := .shield (.watchError (str text ++ path))

/-- The turn of `normalize_watch_roots` for a requested root. -/
def PosixSystem.candidate (sys : PosixSystem) (stateKey : Str) (requested : Path) :
    Except PyError WatchRoot := do
  let path ← sys.absolute requested
  let key ← sys.pathKey path
  if isWithin key stateKey then
    .error (rootError "watch root is inside the excluded state directory: " path)
  else
    match sys.lstat path with
    | .error (.os e) => .error (rootError "watch root is not accessible: "
        (path ++ str ": " ++ e.text))
    | .error e => .error e
    | .ok metadata =>
        if metadata.isLinkOrReparse then
          .error (rootError "watch root must not be a symlink or reparse point: " path)
        else if metadata.isDirectory then .ok ⟨path, key, metadata.dev, metadata.ino⟩
        else .error (rootError "watch root must be an existing directory: " path)

def PosixSystem.candidates (sys : PosixSystem) (stateKey : Str) :
    List Path → Except PyError (List WatchRoot)
  | [] => .ok []
  | requested :: roots => do
      let root ← sys.candidate stateKey requested
      let others ← sys.candidates stateKey roots
      .ok (root :: others)

/-- The key function `(len(item.key), item.key)` of the sort. -/
def byKey (a b : WatchRoot) : Prop :=
  a.key.length < b.key.length ∨ (a.key.length = b.key.length ∧ a.key ≤ b.key)

instance : DecidableRel byKey := fun a b =>
  inferInstanceAs (Decidable (a.key.length < b.key.length ∨
    (a.key.length = b.key.length ∧ a.key ≤ b.key)))

/-- The test that leaves a candidate out. -/
def Redundant (candidate root : WatchRoot) : Prop :=
  candidate.key = root.key ∨ isWithin candidate.key root.key = true

instance : DecidableRel Redundant := fun a b =>
  inferInstanceAs (Decidable (a.key = b.key ∨ isWithin a.key b.key = true))

/-- `normalize_watch_roots`. -/
def PosixSystem.normalizeWatchRoots (sys : PosixSystem) (roots : List Path) (stateDir : Path) :
    Except PyError (List WatchRoot) := do
  let stateKey ← sys.pathKey stateDir
  let candidates ← sys.candidates stateKey roots
  let unique := Antichain.prune Redundant (candidates.insertionSort byKey)
  if unique = [] then
    .error (.shield (.watchError (str "no distinct watch directory remains after normalization")))
  else .ok unique

/-- The root whose subtree a path is in, as `_scope_for` finds it for the key of the path. -/
def scopeOf (roots : List WatchRoot) (key : Str) : Option WatchRoot :=
  roots.find? fun root => isWithin key root.key

/-! ## Keys -/

namespace PosixSystem

variable {sys : PosixSystem}

theorem expanduser_key (k : Key) : sys.expanduser k.text = .ok k.text := by
  have hhead : ∃ rest, Posix.split k.text = [] :: rest := by
    rw [Key.split_text]
    cases hdouble : k.double <;> simp [Key.slashes, hdouble, List.replicate]
  obtain ⟨rest, hrest⟩ := hhead
  simp [expanduser, hrest]

theorem absolute_key (k : Key) : sys.absolute k.text = .ok k.text := by
  simp only [absolute, expanduser_key, bind, Except.bind, Posix.abspath, if_pos k.slash_prefix,
    k.normpath_text]

theorem pathKey_key (k : Key) : sys.pathKey k.text = .ok k.text := by
  simp only [pathKey, absolute_key, bind, Except.bind, k.normpath_text]

theorem abspath_isPrefix (path : Path) :
    [slash] <+: (if [slash] <+: path then path else Posix.joinPath sys.cwd path) := by
  split
  · assumption
  · rename_i hrelative
    obtain ⟨rest, hcwd⟩ := sys.cwd_absolute
    rw [Posix.joinPath, if_neg hrelative]
    split
    · exact ⟨rest ++ path, by rw [← List.append_assoc, hcwd]⟩
    · exact ⟨rest ++ slash :: path, by rw [← List.append_assoc, hcwd]⟩

/-- The absolute path of a path is a key, and it is the path's key. -/
theorem exists_key {path a : Path} (h : sys.absolute path = .ok a) :
    ∃ k : Key, a = k.text ∧ sys.pathKey path = .ok k.text := by
  have hkey : ∃ k : Key, a = k.text := by
    simp only [absolute, bind, Except.bind] at h
    split at h
    · cases h
    · cases h
      exact Posix.exists_key (abspath_isPrefix _)
  obtain ⟨k, rfl⟩ := hkey
  exact ⟨k, rfl, by simp only [pathKey, h, bind, Except.bind, k.normpath_text]⟩

theorem exists_key_of_pathKey {path : Path} {key : Str} (h : sys.pathKey path = .ok key) :
    ∃ k : Key, key = k.text := by
  simp only [pathKey, bind, Except.bind] at h
  split at h
  · cases h
  · rename_i a ha
    cases h
    obtain ⟨k, rfl, -⟩ := exists_key ha
    exact ⟨k, k.normpath_text⟩

end PosixSystem

/-! ## Candidates -/

namespace PosixSystem

variable {sys : PosixSystem} {stateKey : Str}

/-- What an accepted candidate is. -/
theorem candidate_spec {requested : Path} {root : WatchRoot}
    (h : sys.candidate stateKey requested = .ok root) :
    ∃ (k : Key) (m : Stat), sys.pathKey requested = .ok k.text ∧
      isWithin k.text stateKey = false ∧ sys.lstat k.text = .ok m ∧
      root = ⟨k.text, k.text, m.dev, m.ino⟩ := by
  obtain ⟨path, hpath, h⟩ := bind_eq_ok.1 h
  obtain ⟨k, rfl, hkey⟩ := exists_key hpath
  obtain ⟨key, hkey', h⟩ := bind_eq_ok.1 h
  rw [pathKey_key] at hkey'
  cases hkey'
  split at h
  · cases h
  · rename_i houtside
    split at h
    · cases h
    · cases h
    · rename_i m hm
      split at h
      · cases h
      · split at h
        · cases h
          exact ⟨k, m, hkey, Bool.eq_false_of_not_eq_true houtside, hm, rfl⟩
        · cases h

/-- The key of a candidate decides the candidate. -/
theorem candidate_unique {p p' : Path} {root root' : WatchRoot}
    (h : sys.candidate stateKey p = .ok root) (h' : sys.candidate stateKey p' = .ok root')
    (hkey : root.key = root'.key) : root = root' := by
  obtain ⟨k, m, -, -, hm, rfl⟩ := candidate_spec h
  obtain ⟨k', m', -, -, hm', rfl⟩ := candidate_spec h'
  obtain rfl := Key.text_inj hkey
  cases hm.symm.trans hm'
  rfl

theorem candidates_spec {roots : List Path} {cs : List WatchRoot}
    (h : sys.candidates stateKey roots = .ok cs) :
    (∀ p ∈ roots, ∃ c ∈ cs, sys.candidate stateKey p = .ok c) ∧
      ∀ c ∈ cs, ∃ p ∈ roots, sys.candidate stateKey p = .ok c := by
  induction roots generalizing cs with
  | nil =>
      cases h
      exact ⟨by simp, by simp⟩
  | cons p roots ih =>
      obtain ⟨c, hc, h⟩ := bind_eq_ok.1 h
      obtain ⟨others, hothers, h⟩ := bind_eq_ok.1 h
      cases h
      obtain ⟨hroots, hcs⟩ := ih hothers
      constructor
      · intro p' hp'
        obtain rfl | hp' := List.mem_cons.1 hp'
        · exact ⟨c, List.mem_cons_self, hc⟩
        · obtain ⟨c', hc', hok⟩ := hroots p' hp'
          exact ⟨c', List.mem_cons_of_mem _ hc', hok⟩
      · intro c' hc'
        obtain rfl | hc' := List.mem_cons.1 hc'
        · exact ⟨p, List.mem_cons_self, hc⟩
        · obtain ⟨p', hp', hok⟩ := hcs c' hc'
          exact ⟨p', List.mem_cons_of_mem _ hp', hok⟩

theorem candidates_ok {roots : List Path}
    (h : ∀ p ∈ roots, ∃ c, sys.candidate stateKey p = .ok c) :
    ∃ cs, sys.candidates stateKey roots = .ok cs := by
  induction roots with
  | nil => exact ⟨[], rfl⟩
  | cons p roots ih =>
      obtain ⟨c, hc⟩ := h p List.mem_cons_self
      obtain ⟨cs, hcs⟩ := ih fun p' hp' => h p' (List.mem_cons_of_mem p hp')
      exact ⟨c :: cs, by simp only [candidates, hc, hcs, bind, Except.bind]⟩

/-- Roots that were accepted as candidates. -/
def Accepted (sys : PosixSystem) (stateKey : Str) (cs : List WatchRoot) : Prop :=
  ∀ c ∈ cs, ∃ p, sys.candidate stateKey p = .ok c

theorem Accepted.key {cs : List WatchRoot} (h : sys.Accepted stateKey cs) {c : WatchRoot}
    (hc : c ∈ cs) : ∃ k : Key, c.key = k.text ∧ isWithin k.text stateKey = false := by
  obtain ⟨p, hp⟩ := h c hc
  obtain ⟨k, m, -, houtside, -, rfl⟩ := candidate_spec hp
  exact ⟨k, rfl, houtside⟩

theorem Accepted.eq_of_key {cs : List WatchRoot} (h : sys.Accepted stateKey cs) {a b : WatchRoot}
    (ha : a ∈ cs) (hb : b ∈ cs) (hkey : a.key = b.key) : a = b := by
  obtain ⟨p, hp⟩ := h a ha
  obtain ⟨p', hp'⟩ := h b hb
  exact candidate_unique hp hp' hkey

/-- Redundancy orders the candidates. -/
theorem Accepted.orderedOn {cs : List WatchRoot} (h : sys.Accepted stateKey cs) :
    Antichain.OrderedOn Redundant cs where
  refl _ _ := .inl rfl
  trans a ha b hb c hc hab hbc := by
    obtain ⟨ka, hka, -⟩ := h.key ha
    obtain ⟨kb, hkb, -⟩ := h.key hb
    obtain ⟨kc, hkc, -⟩ := h.key hc
    rw [Redundant, hka, hkb] at hab
    rw [Redundant, hkb, hkc] at hbc
    rw [Redundant, hka, hkc]
    rcases hab with hab | hab
    · rwa [hab]
    · rcases hbc with hbc | hbc
      · exact .inr (hbc ▸ hab)
      · exact .inr (Posix.isWithin_trans hab hbc)
  antisymm a ha b hb hab hba := by
    refine h.eq_of_key ha hb ?_
    obtain ⟨ka, hka, -⟩ := h.key ha
    obtain ⟨kb, hkb, -⟩ := h.key hb
    rw [Redundant, hka, hkb] at hab
    rw [Redundant, hka, hkb] at hba
    rw [hka, hkb]
    by_contra hne
    have hkeys : ka ≠ kb := fun heq => hne (congrArg Key.text heq)
    have hlt := Posix.length_lt_of_isWithin (hab.resolve_left hne) hkeys
    have hgt := Posix.length_lt_of_isWithin (hba.resolve_left (Ne.symm hne)) hkeys.symm
    omega

end PosixSystem

theorem byKey_total (a b : WatchRoot) : byKey a b ∨ byKey b a := by
  unfold byKey
  rcases lt_trichotomy a.key.length b.key.length with h | h | h
  · exact .inl (.inl h)
  · rcases le_total a.key b.key with h' | h'
    · exact .inl (.inr ⟨h, h'⟩)
    · exact .inr (.inr ⟨h.symm, h'⟩)
  · exact .inr (.inl h)

theorem byKey_trans {a b c : WatchRoot} (h : byKey a b) (h' : byKey b c) : byKey a c := by
  unfold byKey at h h' ⊢
  rcases h with h | ⟨h, hle⟩ <;> rcases h' with h' | ⟨h', hle'⟩
  · exact .inl (h.trans h')
  · exact .inl (h' ▸ h)
  · exact .inl (h ▸ h')
  · exact .inr ⟨h.trans h', hle.trans hle'⟩

theorem byKey_antisymm {a b : WatchRoot} (h : byKey a b) (h' : byKey b a) : a.key = b.key := by
  unfold byKey at h h'
  rcases h with h | ⟨h, hle⟩ <;> rcases h' with h' | ⟨h', hle'⟩
  · omega
  · omega
  · omega
  · exact le_antisymm hle hle'

theorem sorted_byKey (cs : List WatchRoot) : (cs.insertionSort byKey).Pairwise byKey := by
  have htotal : Std.Total byKey := ⟨byKey_total⟩
  have htrans : IsTrans WatchRoot byKey := ⟨fun _ _ _ => byKey_trans⟩
  exact List.pairwise_insertionSort byKey cs

/-- The sort puts a root before the roots that lie within it. -/
theorem descending_sort {sys : PosixSystem} {stateKey : Str} {cs : List WatchRoot}
    (h : sys.Accepted stateKey cs) : Antichain.Descending Redundant (cs.insertionSort byKey) := by
  refine (sorted_byKey cs).imp_of_mem fun {a b} ha hb hle hab => ?_
  rw [List.mem_insertionSort] at ha hb
  obtain ⟨ka, hka, -⟩ := h.key ha
  obtain ⟨kb, hkb, -⟩ := h.key hb
  rcases hab with hab | hab
  · exact .inl hab.symm
  · rw [hka, hkb] at hab
    by_cases hkeys : ka = kb
    · exact .inl (by rw [hka, hkb, hkeys])
    · have hlt := Posix.length_lt_of_isWithin hab hkeys
      unfold byKey at hle
      rw [hka, hkb] at hle
      omega

/-! ## The normalised roots -/

/-- Canonical watch roots for a request. -/
structure Canonical (sys : PosixSystem) (roots : List Path) (stateDir : Path)
    (unique : List WatchRoot) : Prop where
  antichain : unique.Pairwise fun a b =>
    isWithin a.key b.key = false ∧ isWithin b.key a.key = false
  covered : ∀ p ∈ roots, ∀ key, sys.pathKey p = .ok key →
    ∃! root, root ∈ unique ∧ isWithin key root.key = true
  outside : ∀ stateKey, sys.pathKey stateDir = .ok stateKey →
    ∀ root ∈ unique, isWithin root.key stateKey = false
  independent : ∀ roots', (∀ p, p ∈ roots' ↔ p ∈ roots) →
    sys.normalizeWatchRoots roots' stateDir = .ok unique
  scope : ∀ p key, sys.pathKey p = .ok key →
    (unique.filter fun root => isWithin key root.key).length ≤ 1 ∧
      ∀ root ∈ unique, isWithin key root.key = true → scopeOf unique key = some root

/-- Every requested directory whose key begins with two slashes lies within a requested one. -/
def SlashesCovered (sys : PosixSystem) (roots : List Path) : Prop :=
  ∀ p ∈ roots, ∀ key, sys.pathKey p = .ok key → [slash, slash] <+: key →
    ∃ p' ∈ roots, ∃ key', sys.pathKey p' = .ok key' ∧ isWithin key key' = true

section Normalized

variable {sys : PosixSystem} {roots : List Path} {stateDir : Path} {unique : List WatchRoot}

/-- What stands behind an accepted request. -/
theorem normalize_spec (h : sys.normalizeWatchRoots roots stateDir = .ok unique) :
    ∃ stateKey cs, sys.pathKey stateDir = .ok stateKey ∧ sys.candidates stateKey roots = .ok cs ∧
      unique = Antichain.prune Redundant (cs.insertionSort byKey) ∧ unique ≠ [] := by
  obtain ⟨stateKey, hstate, h⟩ := bind_eq_ok.1 h
  obtain ⟨cs, hcs, h⟩ := bind_eq_ok.1 h
  dsimp only at h
  split at h
  · cases h
  · rename_i hne
    cases h
    exact ⟨stateKey, cs, hstate, hcs, rfl, hne⟩

theorem accepted_sort {stateKey : Str} {cs : List WatchRoot}
    (h : sys.candidates stateKey roots = .ok cs) :
    sys.Accepted stateKey (cs.insertionSort byKey) := by
  intro c hc
  rw [List.mem_insertionSort] at hc
  obtain ⟨p, -, hp⟩ := (PosixSystem.candidates_spec h).2 c hc
  exact ⟨p, hp⟩

theorem accepted {stateKey : Str} {cs : List WatchRoot}
    (h : sys.candidates stateKey roots = .ok cs) : sys.Accepted stateKey cs := by
  intro c hc
  obtain ⟨p, -, hp⟩ := (PosixSystem.candidates_spec h).2 c hc
  exact ⟨p, hp⟩

theorem apart_unique (h : sys.normalizeWatchRoots roots stateDir = .ok unique) :
    Antichain.Apart Redundant unique := by
  obtain ⟨stateKey, cs, -, hcs, rfl, -⟩ := normalize_spec h
  exact Antichain.apart_prune (descending_sort (accepted hcs))

theorem key_of_mem (h : sys.normalizeWatchRoots roots stateDir = .ok unique) {root : WatchRoot}
    (hroot : root ∈ unique) : ∃ k : Key, root.key = k.text := by
  obtain ⟨stateKey, cs, -, hcs, rfl, -⟩ := normalize_spec h
  obtain ⟨k, hk, -⟩ := (accepted_sort hcs).key ((Antichain.prune_sublist _).subset hroot)
  exact ⟨k, hk⟩

/-- The roots that a path lies within are one root. -/
theorem root_unique (h : sys.normalizeWatchRoots roots stateDir = .ok unique) {k : Key}
    {a b : WatchRoot} (ha : a ∈ unique) (hb : b ∈ unique) (hka : isWithin k.text a.key = true)
    (hkb : isWithin k.text b.key = true) : a = b := by
  obtain ⟨ka, hkeya⟩ := key_of_mem h ha
  obtain ⟨kb, hkeyb⟩ := key_of_mem h hb
  rw [hkeya] at hka
  rw [hkeyb] at hkb
  rcases Posix.isWithin_total hka hkb with hab | hba
  · exact (apart_unique h).eq_of_below ha hb (.inr (by rw [hkeya, hkeyb, hab]))
  · exact ((apart_unique h).eq_of_below hb ha (.inr (by rw [hkeya, hkeyb, hba]))).symm

/-- A requested directory has the key of a returned root or lies within one. -/
theorem exists_root (h : sys.normalizeWatchRoots roots stateDir = .ok unique) {p : Path}
    (hp : p ∈ roots) {key : Str} (hkey : sys.pathKey p = .ok key) :
    ∃ root ∈ unique, key = root.key ∨ isWithin key root.key = true := by
  obtain ⟨stateKey, cs, -, hcs, rfl, -⟩ := normalize_spec h
  obtain ⟨c, hc, hok⟩ := (PosixSystem.candidates_spec hcs).1 p hp
  obtain ⟨k, m, hk, -, -, rfl⟩ := PosixSystem.candidate_spec hok
  cases hkey.symm.trans hk
  have hmem := (List.mem_insertionSort byKey).2 hc
  exact Antichain.covered [] (accepted_sort hcs).orderedOn.refl hmem

/-- A returned root was requested. -/
theorem requested_of_mem (h : sys.normalizeWatchRoots roots stateDir = .ok unique)
    {root : WatchRoot} (hroot : root ∈ unique) : ∃ p ∈ roots, sys.pathKey p = .ok root.key := by
  obtain ⟨stateKey, cs, -, hcs, rfl, -⟩ := normalize_spec h
  have hmem := (Antichain.prune_sublist _).subset hroot
  rw [List.mem_insertionSort] at hmem
  obtain ⟨p, hp, hok⟩ := (PosixSystem.candidates_spec hcs).2 root hmem
  obtain ⟨k, m, hk, -, -, rfl⟩ := PosixSystem.candidate_spec hok
  exact ⟨p, hp, hk⟩

theorem outside_state (h : sys.normalizeWatchRoots roots stateDir = .ok unique) (stateKey : Str)
    (hstate : sys.pathKey stateDir = .ok stateKey) (root : WatchRoot) (hroot : root ∈ unique) :
    isWithin root.key stateKey = false := by
  obtain ⟨stateKey', cs, hstate', hcs, rfl, -⟩ := normalize_spec h
  cases hstate.symm.trans hstate'
  obtain ⟨k, hk, hout⟩ := (accepted_sort hcs).key ((Antichain.prune_sublist _).subset hroot)
  rw [hk]
  exact hout

theorem prune_pairwise {stateKey : Str} {cs : List WatchRoot}
    (h : sys.candidates stateKey roots = .ok cs) :
    (Antichain.prune Redundant (cs.insertionSort byKey)).Pairwise byKey ∧
      (Antichain.prune Redundant (cs.insertionSort byKey)).Nodup := by
  refine ⟨(sorted_byKey cs).sublist (Antichain.prune_sublist _), ?_⟩
  refine (Antichain.apart_prune (descending_sort (accepted h))).imp fun hab heq => ?_
  exact hab.1 (.inl (congrArg WatchRoot.key heq))

/-- The result depends on the set of the requested directories only. -/
theorem normalize_congr (h : sys.normalizeWatchRoots roots stateDir = .ok unique)
    {roots' : List Path} (hsame : ∀ p, p ∈ roots' ↔ p ∈ roots) :
    sys.normalizeWatchRoots roots' stateDir = .ok unique := by
  obtain ⟨stateKey, cs, hstate, hcs, rfl, hne⟩ := normalize_spec h
  obtain ⟨hroots, hmembers⟩ := PosixSystem.candidates_spec hcs
  obtain ⟨cs', hcs'⟩ : ∃ cs', sys.candidates stateKey roots' = .ok cs' := by
    refine PosixSystem.candidates_ok fun p hp => ?_
    obtain ⟨c, -, hc⟩ := hroots p ((hsame p).1 hp)
    exact ⟨c, hc⟩
  obtain ⟨hroots', hmembers'⟩ := PosixSystem.candidates_spec hcs'
  have hmem : ∀ c, c ∈ cs'.insertionSort byKey ↔ c ∈ cs.insertionSort byKey := by
    intro c
    rw [List.mem_insertionSort, List.mem_insertionSort]
    constructor
    · intro hc
      obtain ⟨p, hp, hok⟩ := hmembers' c hc
      obtain ⟨c', hc', hok'⟩ := hroots p ((hsame p).1 hp)
      cases hok.symm.trans hok'
      exact hc'
    · intro hc
      obtain ⟨p, hp, hok⟩ := hmembers c hc
      obtain ⟨c', hc', hok'⟩ := hroots' p ((hsame p).2 hp)
      cases hok.symm.trans hok'
      exact hc'
  -- The same greatest candidates, in the order of their keys.
  have hkept : ∀ r, r ∈ Antichain.prune Redundant (cs'.insertionSort byKey) ↔
      r ∈ Antichain.prune Redundant (cs.insertionSort byKey) := by
    intro r
    rw [Antichain.mem_prune (accepted_sort hcs').orderedOn (descending_sort (accepted hcs')),
      Antichain.mem_prune (accepted_sort hcs).orderedOn (descending_sort (accepted hcs))]
    simp only [hmem]
  obtain ⟨hsorted, hnodup⟩ := prune_pairwise hcs
  obtain ⟨hsorted', hnodup'⟩ := prune_pairwise hcs'
  have heq : Antichain.prune Redundant (cs'.insertionSort byKey) =
      Antichain.prune Redundant (cs.insertionSort byKey) := by
    refine List.Perm.eq_of_pairwise (fun a b ha hb hab hba => ?_) hsorted' hsorted
      ((List.perm_ext_iff_of_nodup hnodup' hnodup).2 hkept)
    have ha' := (Antichain.prune_sublist _).subset ((hkept a).1 ha)
    exact (accepted_sort hcs).eq_of_key ha' ((Antichain.prune_sublist _).subset hb)
      (byKey_antisymm hab hba)
  simp only [PosixSystem.normalizeWatchRoots, hstate, hcs', heq, bind, Except.bind]
  exact if_neg hne

theorem scope_unique (h : sys.normalizeWatchRoots roots stateDir = .ok unique) (p : Path)
    (key : Str) (hkey : sys.pathKey p = .ok key) :
    (unique.filter fun root => isWithin key root.key).length ≤ 1 := by
  obtain ⟨k, rfl⟩ := PosixSystem.exists_key_of_pathKey hkey
  have hapart := (apart_unique h).sublist
    (List.filter_sublist (p := fun root => isWithin k.text root.key))
  have hmem : ∀ root ∈ unique.filter (fun root => isWithin k.text root.key),
      root ∈ unique ∧ isWithin k.text root.key = true := fun root => List.mem_filter.1
  generalize unique.filter (fun root => isWithin k.text root.key) = found at hapart hmem ⊢
  match found with
  | [] => exact Nat.zero_le 1
  | [_] => exact le_rfl
  | a :: b :: rest =>
      obtain ⟨ha, hka⟩ := hmem a List.mem_cons_self
      obtain ⟨hb, hkb⟩ := hmem b (List.mem_cons_of_mem _ List.mem_cons_self)
      have heq : a = b := root_unique h ha hb hka hkb
      have hnot := (List.rel_of_pairwise_cons hapart List.mem_cons_self).1
      exact absurd (.inl (congrArg WatchRoot.key heq)) hnot

theorem scopeOf_eq (h : sys.normalizeWatchRoots roots stateDir = .ok unique) (p : Path)
    (key : Str) (hkey : sys.pathKey p = .ok key) (root : WatchRoot) (hroot : root ∈ unique)
    (hwithin : isWithin key root.key = true) : scopeOf unique key = some root := by
  obtain ⟨k, rfl⟩ := PosixSystem.exists_key_of_pathKey hkey
  cases hscope : scopeOf unique k.text with
  | none => exact absurd hwithin (List.find?_eq_none.1 hscope root hroot)
  | some found =>
      have hfound : isWithin k.text found.key = true := by
        have hsome := List.find?_some hscope
        exact hsome
      rw [root_unique h (List.mem_of_find?_eq_some hscope) hroot hfound hwithin]

end Normalized

/-- The roots a request normalises to are canonical just when every requested directory with two
initial slashes lies within a requested one: no path lies within a root of that form, not even
the root itself. -/
theorem canonical_iff {sys : PosixSystem} {roots : List Path} {stateDir : Path}
    {unique : List WatchRoot} (h : sys.normalizeWatchRoots roots stateDir = .ok unique) :
    Canonical sys roots stateDir unique ↔ SlashesCovered sys roots := by
  constructor
  · intro hcanonical p hp key hkey _
    obtain ⟨root, ⟨hroot, hwithin⟩, -⟩ := hcanonical.covered p hp key hkey
    obtain ⟨p', hp', hkey'⟩ := requested_of_mem h hroot
    exact ⟨p', hp', root.key, hkey', hwithin⟩
  · intro hslashes
    refine ⟨?_, ?_, outside_state h, fun roots' => normalize_congr h,
      fun p key hkey => ⟨scope_unique h p key hkey, scopeOf_eq h p key hkey⟩⟩
    · refine (apart_unique h).imp fun hab => ?_
      exact ⟨Bool.eq_false_of_not_eq_true fun hwithin => hab.1 (.inr hwithin),
        Bool.eq_false_of_not_eq_true fun hwithin => hab.2 (.inr hwithin)⟩
    · intro p hp key hkey
      obtain ⟨k, rfl⟩ := PosixSystem.exists_key_of_pathKey hkey
      suffices hexists : ∃ root ∈ unique, isWithin k.text root.key = true by
        obtain ⟨root, hroot, hwithin⟩ := hexists
        exact ⟨root, ⟨hroot, hwithin⟩, fun other hother =>
          root_unique h hother.1 hroot hother.2 hwithin⟩
      obtain ⟨root, hroot, heq | hwithin⟩ := exists_root h hp hkey
      · cases hdouble : k.double with
        | false => exact ⟨root, hroot, heq ▸ (Posix.isWithin_self k).2 hdouble⟩
        | true =>
            have hprefix : [slash, slash] <+: k.text := by
              rw [Key.text, Key.slashes, hdouble]
              exact ⟨Posix.join k.names, rfl⟩
            obtain ⟨p', hp', key', hkey', hin⟩ := hslashes p hp k.text hkey hprefix
            obtain ⟨k', rfl⟩ := PosixSystem.exists_key_of_pathKey hkey'
            obtain ⟨other, hother, heq' | hwithin'⟩ := exists_root h hp' hkey'
            · exact ⟨other, hother, heq' ▸ hin⟩
            · obtain ⟨k'', hk''⟩ := key_of_mem h hother
              rw [hk''] at hwithin'
              exact ⟨other, hother, hk'' ▸ Posix.isWithin_trans hin hwithin'⟩
      · exact ⟨root, hroot, hwithin⟩

/-! ## Two initial slashes -/

/-- A system on which every path is a directory. -/
def directories : PosixSystem where
  cwd := str "/"
  cwd_absolute := ⟨[], rfl⟩
  home := .ok
  lstat _ := .ok ⟨1, 2, 4096, 0, 0, 0, true, false⟩

theorem normalize_double :
    directories.normalizeWatchRoots [str "//a/b", str "//a"] (str "/s") =
      .ok [⟨str "//a", str "//a", 1, 2⟩, ⟨str "//a/b", str "//a/b", 1, 2⟩] := rfl

theorem normalize_single : directories.normalizeWatchRoots [str "/a/b", str "/a"] (str "/s") =
    .ok [⟨str "/a", str "/a", 1, 2⟩] := rfl

/-- Both of two nested directories stay, and no path is within either of them. -/
theorem not_canonical : ¬ ∀ (sys : PosixSystem) (roots : List Path) (stateDir : Path)
    (unique : List WatchRoot), sys.normalizeWatchRoots roots stateDir = .ok unique →
      Canonical sys roots stateDir unique := by
  intro h
  have hcanonical := h _ _ _ _ normalize_double
  obtain ⟨root, ⟨hroot, hwithin⟩, -⟩ :=
    hcanonical.covered (str "//a") (by decide) (str "//a") rfl
  obtain rfl | hroot := List.mem_cons.1 hroot
  · exact absurd hwithin (by decide)
  · obtain rfl := List.mem_singleton.1 hroot
    exact absurd hwithin (by decide)

theorem canonical_iff_single :
    Canonical directories [str "/a/b", str "/a"] (str "/s") [⟨str "/a", str "/a", 1, 2⟩] := by
  refine (canonical_iff normalize_single).2 fun p hp key hkey hslashes => ?_
  have hkeys : directories.pathKey (str "/a/b") = .ok (str "/a/b") ∧
      directories.pathKey (str "/a") = .ok (str "/a") := ⟨rfl, rfl⟩
  obtain rfl | hp := List.mem_cons.1 hp
  · cases hkeys.1.symm.trans hkey
    exact absurd hslashes (by decide)
  · obtain rfl := List.mem_singleton.1 hp
    cases hkeys.2.symm.trans hkey
    exact absurd hslashes (by decide)

end ZsecShield.Watch
