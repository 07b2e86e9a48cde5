import ZsecShield.Browser.StateSession

/-!
# Loading what was saved

`Save` leaves normalized data in memory and writes them; `Load` normalizes what it reads again.  The
second normalization finds a title that the cut at 240 characters has left with white space at its end,
and a startup URL that is beyond the bound in its canonical form; and a pair of surrogates that was cut
in two does not come back from the file.  Everything else is as it was (`load_after_save_iff`).
-/

namespace ZsecShield.Browser

open Text (Str str CodePoint)
open Checks

namespace Sample

/-- Data with a visit of a page. -/
def recorded (title : Str) : RawData :=
  { createDefault browser with
    history := [⟨title, str "https://example.com/a", visitedAt, 1⟩] }.raw

/-- A title whose 240th character is the first half of a pair. -/
def cutTitle : Str := List.replicate 239 (Text.ofChar 'a') ++ [0x1F600]

/-- The title as `Save` leaves it. -/
def leftTitle : Str := List.replicate 239 (Text.ofChar 'a') ++ [0xD83D]

/-- The titles of the history that `Save` leaves, if the file was written. -/
def savedTitles (data : RawData) : Option (List Str) :=
  match saveState browser visitedAt data () with
  | .ok ⟨_, d, some (.ok _)⟩ => some (d.history.map HistoryEntry.title)
  | _ => none

theorem save_of_savedTitles {data : RawData} {titles : List Str} (h : savedTitles data = some titles) :
    ∃ o bytes, saveState browser visitedAt data () = .ok o ∧ o.written = some (.ok bytes) ∧
      o.data.history.map HistoryEntry.title = titles := by
  unfold savedTitles at h
  split at h
  · rename_i _ d bytes hsave
    exact ⟨_, bytes, hsave, rfl, Option.some.inj h⟩
  · cases h

end Sample

end ZsecShield.Browser
