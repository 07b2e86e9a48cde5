import ZsecShield.Scan.Walk

/-!
# The second look of the directory walk

When its turn comes, a directory is looked at again, but only its identity is read: the checks
that leave out links and other devices are not made again.  So a directory that was replaced since
it was found is listed whatever stands there now.  The walk lists real directories only if the
second look, too, shows one (`walk_listsReal_iff`).
-/

namespace ZsecShield.Scan

open Text (Str str)

/-- The last answer to a look at a path. -/
def lastLstat (path : Path) (calls : List WalkCall) : Option (Except OsError Metadata) :=
  calls.reverse.findSome? fun
    | .lstat path' answer => if path' = path then some answer else none
    | .scandir _ _ => none

/-- Every directory was a real one when it was last looked at before its entries were listed. -/
def ListsReal (s : Scanner) (rootDevice : Int) (calls : List WalkCall) : Prop :=
  ∀ before path names, before ++ [.scandir path (.ok names)] <+: calls →
    ∃ m, lastLstat path before = some (.ok m) ∧ IsRealDirectory s rootDevice m

/-- If the directory whose turn it is can be looked at again, was not visited and can be listed,
it is still a real one. -/
def StaysReal (s : Scanner) (fs : FileSystem) (st : WalkState) : Prop :=
  ∀ directory stack m names, st.stack = directory :: stack →
    fs.lstat st.calls.length directory = .ok m → ¬ st.HasVisited m →
    (fs.sortedDirectoryEntries directory transientDirectoryRetries
      (st.calls ++ [.lstat directory (.ok m)])).1 = .ok names →
    IsRealDirectory s st.rootDevice m

section Calls

variable {s : Scanner} {rootDevice : Int}

theorem lastLstat_failed (directory : Path) (answer : Except OsError Metadata)
    (calls : List WalkCall) {failed : List WalkCall}
    (h : ∀ call ∈ failed, ∃ exc, call = .scandir directory (.error exc)) :
    lastLstat directory (calls ++ [.lstat directory answer] ++ failed) = some answer := by
  have hnone : (failed.reverse.findSome? fun
      | .lstat path' answer => if path' = directory then some answer else none
      | .scandir _ _ => none) = none := by
    refine List.findSome?_eq_none_iff.2 fun call hcall => ?_
    obtain ⟨exc, rfl⟩ := h call (List.mem_reverse.1 hcall)
    rfl
  rw [lastLstat, List.reverse_append, List.findSome?_append, hnone, Option.none_or,
    List.reverse_append]
  simp

theorem listsReal_nil : ListsReal s rootDevice [] := by
  intro before path names h
  simp at h

theorem listsReal_concat (calls : List WalkCall) (call : WalkCall) :
    ListsReal s rootDevice (calls ++ [call]) ↔ ListsReal s rootDevice calls ∧
      ∀ path names, call = .scandir path (.ok names) →
        ∃ m, lastLstat path calls = some (.ok m) ∧ IsRealDirectory s rootDevice m := by
  constructor
  · intro h
    refine ⟨fun before path names hfront => h before path names
      (hfront.trans (List.prefix_append _ _)), ?_⟩
    rintro path names rfl
    exact h calls path names (List.prefix_refl _)
  · rintro ⟨hcalls, hcall⟩ before path names hfront
    rcases List.prefix_concat_iff.1 hfront with heq | hfront
    · obtain ⟨rfl, hlast⟩ := List.append_inj' heq rfl
      exact hcall path names (List.singleton_inj.1 hlast).symm
    · exact hcalls before path names hfront

/-- Calls that list nothing do not matter. -/
theorem listsReal_append {calls calls' : List WalkCall} (h : listed calls' = []) :
    ListsReal s rootDevice (calls ++ calls') ↔ ListsReal s rootDevice calls := by
  induction calls' using List.reverseRecOn with
  | nil => rw [List.append_nil]
  | append_singleton calls' call ih =>
      rw [listed_append] at h
      obtain ⟨hcalls, hcall⟩ := List.append_eq_nil_iff.1 h
      rw [← List.append_assoc, listsReal_concat, ih hcalls, and_iff_left]
      rintro path names rfl
      cases hcall

end Calls

section Turns

variable {s : Scanner} {fs : FileSystem}

variable (s fs) in
/-- A turn keeps to real directories exactly if the second look shows one. -/
theorem walkTurn_listsReal_iff (st : WalkState) :
    (s.walkTurn fs st).rootDevice = st.rootDevice ∧
      (ListsReal s st.rootDevice (s.walkTurn fs st).calls ↔
        ListsReal s st.rootDevice st.calls ∧ StaysReal s fs st) := by
  cases hstack : st.stack with
  | nil =>
      rw [walkTurn_nil hstack, iff_self_and]
      refine ⟨rfl, fun _ directory stack m names h => ?_⟩
      rw [hstack] at h
      cases h
  | cons directory stack =>
      have hstays : StaysReal s fs st ↔ ∀ m names,
          fs.lstat st.calls.length directory = .ok m → ¬ st.HasVisited m →
          (fs.sortedDirectoryEntries directory transientDirectoryRetries
            (st.calls ++ [.lstat directory (.ok m)])).1 = .ok names →
          IsRealDirectory s st.rootDevice m := by
        constructor
        · exact fun h m names => h directory stack m names hstack
        · intro h directory' stack' m names hstack'
          obtain ⟨rfl, rfl⟩ := List.cons.inj (hstack.symm.trans hstack')
          exact h m names
      rw [hstays]
      have hturn := walkTurn_cons s fs hstack
      generalize s.walkTurn fs st = st' at hturn ⊢
      cases hturn with
      | unreadable hanswer =>
          refine ⟨rfl, (listsReal_append rfl).trans (iff_self_and.2 fun _ m names hm => ?_)⟩
          rw [hanswer] at hm
          cases hm
      | again hanswer hvisited =>
          refine ⟨rfl, (listsReal_append rfl).trans (iff_self_and.2 fun _ m names hm hfresh => ?_)⟩
          cases hanswer.symm.trans hm
          exact absurd hvisited hfresh
      | @unlisted m exc failed hanswer hvisited hlisting hfailed =>
          have hnone : listed ([.lstat directory (.ok m)] ++ failed) = [] := by
            rw [listed_append, listed_of_failed hfailed]
            rfl
          rw [List.append_assoc]
          refine ⟨rfl, (listsReal_append hnone).trans (iff_self_and.2 fun _ m' names hm _ h => ?_)⟩
          cases hanswer.symm.trans hm
          rw [hlisting] at h
          cases h
      | @listed m names failed hanswer hvisited hlisting hfailed found hfound =>
          obtain ⟨looks, hcalls, hlooks⟩ := examine_calls s fs st.rootDevice directory
            (names.insertionSort (byEntryName fs.casefold))
            (st.calls ++ [.lstat directory (.ok m)] ++ (failed ++ [.scandir directory (.ok names)]))
          rw [← hfound] at hcalls
          have hlast := lastLstat_failed directory (.ok m) st.calls hfailed
          have hnone : listed ([.lstat directory (.ok m)] ++ failed) = [] := by
            rw [listed_append, listed_of_failed hfailed]
            rfl
          refine ⟨rfl, ?_⟩
          rw [hcalls, listsReal_append (listed_of_lstat hlooks), ← List.append_assoc,
            listsReal_concat, List.append_assoc, listsReal_append hnone, ← List.append_assoc]
          refine and_congr_right fun _ =>
            ⟨fun h m' names' hm' _ _ => ?_, fun h path names' heq => ?_⟩
          · cases hanswer.symm.trans hm'
            obtain ⟨m', hm', hreal⟩ := h directory names rfl
            rw [hlast] at hm'
            cases hm'
            exact hreal
          · cases heq
            exact ⟨m, hlast, h m _ hanswer hvisited (by rw [hlisting])⟩

variable (s fs) in
/-- Throughout a walk the scanner lists real directories only, exactly if every directory that is
listed is still a real one when its turn comes. -/
theorem walk_listsReal_iff (root : Path) :
    (∀ n, ListsReal s (s.startWalk fs root).rootDevice
        (s.walkTurns fs n (s.startWalk fs root)).calls) ↔
      ∀ n, StaysReal s fs (s.walkTurns fs n (s.startWalk fs root)) := by
  have hsucc (n : Nat) : s.walkTurns fs (n + 1) (s.startWalk fs root) =
      s.walkTurn fs (s.walkTurns fs n (s.startWalk fs root)) :=
    Function.iterate_succ_apply' _ _ _
  have hdevice (n : Nat) : (s.walkTurns fs n (s.startWalk fs root)).rootDevice =
      (s.startWalk fs root).rootDevice := by
    induction n with
    | zero => rfl
    | succ n ih => rw [hsucc, (walkTurn_listsReal_iff s fs _).1, ih]
  have hturn (n : Nat) := (walkTurn_listsReal_iff s fs
    (s.walkTurns fs n (s.startWalk fs root))).2
  have hstart : ListsReal s (s.startWalk fs root).rootDevice (s.startWalk fs root).calls := by
    rw [← List.nil_append (s.startWalk fs root).calls, listsReal_append ?_]
    · exact listsReal_nil
    · refine List.eq_nil_iff_forall_not_mem.2 fun path hpath => ?_
      obtain ⟨names, hmem⟩ := mem_listed.1 hpath
      obtain ⟨-, hcalls⟩ | ⟨m, -, -, -, -, heq⟩ := startWalk_cases s fs root
      · exact hcalls path _ hmem
      · rw [heq] at hmem
        cases List.mem_singleton.1 hmem
  constructor
  · intro h n
    have hnext := h (n + 1)
    rw [hsucc, ← hdevice n] at hnext
    exact ((hturn n).1 hnext).2
  · intro h n
    induction n with
    | zero => exact hstart
    | succ n ih =>
        rw [hsucc, ← hdevice n]
        exact (hturn n).2 ⟨(hdevice n).symm ▸ ih, h n⟩

end Turns

/-! ### A directory that becomes a link -/

namespace Sample

def link : Metadata := ⟨⟨1, 3, 9, 0, 0, 0, false, true⟩, false, nofun⟩

/-- The directory `/r/d` is replaced by a link after the fourth call. -/
def swapped : FileSystem where
  pathKey := id
  casefold := id
  lstat n path := .ok (if n < 4 then directory path.length else link)
  scandir n _ := .ok (if n = 2 then [str "d"] else [])

/-- The calls until the link is listed. -/
def beforeListing : List WalkCall :=
  [.lstat (str "/r") (.ok (directory 2)), .lstat (str "/r") (.ok (directory 2)),
    .scandir (str "/r") (.ok [str "d"]), .lstat (str "/r/d") (.ok (directory 4)),
    .lstat (str "/r/d") (.ok link)]

theorem calls_swapped :
    (scanner.walkTurns swapped 2 (scanner.startWalk swapped (str "/r"))).calls =
      beforeListing ++ [.scandir (str "/r/d") (.ok [])] := rfl

theorem lastLstat_swapped : lastLstat (str "/r/d") beforeListing = some (.ok link) := rfl

end Sample

/-- The walk lists a directory that it has just seen to be a link. -/
theorem not_listsReal : ¬ ∀ (s : Scanner) (fs : FileSystem) (root : Path) (n : Nat),
    ListsReal s (s.startWalk fs root).rootDevice
      (s.walkTurns fs n (s.startWalk fs root)).calls := by
  intro h
  have hfront : Sample.beforeListing ++ [.scandir (str "/r/d") (.ok [])] <+:
      (Sample.scanner.walkTurns Sample.swapped 2
        (Sample.scanner.startWalk Sample.swapped (str "/r"))).calls := by
    rw [Sample.calls_swapped]
  obtain ⟨m, hm, hreal⟩ := h Sample.scanner Sample.swapped (str "/r") 2 _ _ _ hfront
  rw [Sample.lastLstat_swapped] at hm
  cases hm
  cases hreal.noLink

end ZsecShield.Scan
