import Mathlib.Data.List.Induction
import Mathlib.Logic.Function.Basic

/-!
# Journals

A journal is a sequence of lines over several numbered files: the file that grows is number 0, and
the higher the number, the older the file.

*Lines.*  `read` takes a file apart into the lines that are ended and the torn rest behind them.
To write a line behind a torn rest makes the two one line (`read_append_line`).

*Rotation.*  Every file moves up by one, the oldest first, so that each one moves to a free number.
Wherever that is interrupted, the journal has lost at most its oldest file
(`contents_interrupted`).
-/

namespace Journal

variable {α β : Type}

/-! ## Lines -/

/-- The ended lines of a text, and what stands behind the last line end. -/
structure Reading (α : Type) where
  lines : List (List α)
  torn : List α
deriving DecidableEq

section Lines

variable [DecidableEq α] (e : α)

def Reading.next (r : Reading α) (a : α) : Reading α :=
  if a = e then ⟨r.lines ++ [r.torn], []⟩ else ⟨r.lines, r.torn ++ [a]⟩

/-- Reads a text whose lines end with `e`. -/
def read (data : List α) : Reading α := data.foldl (Reading.next e) ⟨[], []⟩

/-- The text of some lines. -/
def unlines (lines : List (List α)) : List α := lines.flatMap (· ++ [e])

variable {e}

theorem foldl_next_of_not_mem {p : List α} (h : e ∉ p) (r : Reading α) :
    p.foldl (Reading.next e) r = ⟨r.lines, r.torn ++ p⟩ := by
  induction p generalizing r with
  | nil => simp
  | cons a p ih =>
      have ha : a ≠ e := fun heq => h (heq ▸ List.mem_cons_self)
      have hp : e ∉ p := fun hmem => h (List.mem_cons_of_mem a hmem)
      rw [List.foldl_cons, ih hp]
      simp [Reading.next, ha]

@[simp] theorem read_nil : read e [] = ⟨[], []⟩ := rfl

theorem read_append_torn {p : List α} (h : e ∉ p) (data : List α) :
    read e (data ++ p) = ⟨(read e data).lines, (read e data).torn ++ p⟩ := by
  unfold read
  rw [List.foldl_append, foldl_next_of_not_mem h]

theorem read_append_line {l : List α} (h : e ∉ l) (data : List α) :
    read e (data ++ (l ++ [e])) = ⟨(read e data).lines ++ [(read e data).torn ++ l], []⟩ := by
  rw [← List.append_assoc, read, List.foldl_append, ← read, read_append_torn h]
  simp [Reading.next]

/-- A text is its lines and the torn rest. -/
theorem unlines_read (data : List α) :
    unlines e (read e data).lines ++ (read e data).torn = data := by
  induction data using List.reverseRecOn with
  | nil => rfl
  | append_singleton data a ih =>
      rw [read, List.foldl_append, ← read]
      by_cases ha : a = e
      · simp only [List.foldl_cons, List.foldl_nil, Reading.next, ha, if_true, unlines,
          List.flatMap_append, List.append_nil, List.flatMap_singleton]
        rw [← List.append_assoc, ← unlines, ih]
      · simp only [List.foldl_cons, List.foldl_nil, Reading.next, ha, if_false]
        rw [← List.append_assoc, ih]

end Lines

/-! ## Files -/

/-- The files of a journal. -/
abbrev Files (β : Type) := Nat → Option β

namespace Files

def unlink (files : Files β) (i : Nat) : Files β := Function.update files i none

def write (files : Files β) (i : Nat) (data : β) : Files β := Function.update files i (some data)

/-- A rename to a number that may be taken; nothing happens if the source is missing. -/
def replace (files : Files β) (source target : Nat) : Files β :=
  match files source with
  | none => files
  | some data => (files.unlink source).write target data

/-- What the files below `n` hold, the oldest first. -/
def contents (files : Files β) : Nat → List β
  | 0 => []
  | n + 1 => (files n).toList ++ contents files n

@[simp] theorem unlink_self (files : Files β) (i : Nat) : files.unlink i i = none := by
  simp [unlink]

theorem unlink_of_ne (files : Files β) {i j : Nat} (h : j ≠ i) : files.unlink i j = files j := by
  simp [unlink, h]

@[simp] theorem write_self (files : Files β) (i : Nat) (data : β) :
    files.write i data i = some data := by
  simp [write]

theorem write_of_ne (files : Files β) {i j : Nat} (h : j ≠ i) (data : β) :
    files.write i data j = files j := by
  simp [write, h]

theorem replace_source (files : Files β) {source target : Nat} (h : source ≠ target) :
    files.replace source target source = none := by
  cases hsource : files source with
  | none => simp only [replace, hsource]
  | some data =>
      simp only [replace, hsource]
      rw [write_of_ne _ h, unlink_self]

theorem replace_of_ne (files : Files β) {source target j : Nat} (hs : j ≠ source)
    (ht : j ≠ target) : files.replace source target j = files j := by
  cases hsource : files source with
  | none => simp only [replace, hsource]
  | some data =>
      simp only [replace, hsource]
      rw [write_of_ne _ ht, unlink_of_ne _ hs]

theorem mem_contents {files : Files β} {n : Nat} {data : β} :
    data ∈ files.contents n ↔ ∃ i < n, files i = some data := by
  induction n with
  | zero => simp [contents]
  | succ n ih =>
      simp only [contents, List.mem_append, Option.mem_toList, ih]
      constructor
      · rintro (h | ⟨i, hi, h⟩)
        · exact ⟨n, by omega, h⟩
        · exact ⟨i, by omega, h⟩
      · rintro ⟨i, hi, h⟩
        rcases Nat.lt_succ_iff_lt_or_eq.1 hi with hlt | rfl
        · exact Or.inr ⟨i, hlt, h⟩
        · exact Or.inl h

theorem contents_congr {files files' : Files β} {n : Nat} (h : ∀ i < n, files i = files' i) :
    files.contents n = files'.contents n := by
  induction n with
  | zero => rfl
  | succ n ih =>
      rw [contents, contents, h n (by omega), ih fun i hi => h i (by omega)]

/-- The file that grows is the last one read. -/
theorem contents_succ (files : Files β) (n : Nat) :
    files.contents (n + 1) = contents (fun i => files (i + 1)) n ++ (files 0).toList := by
  induction n with
  | zero => simp [contents]
  | succ n ih => rw [contents, ih, contents, List.append_assoc]

theorem contents_write_zero (files : Files β) (n : Nat) (data : β) :
    (files.write 0 data).contents (n + 1) = contents (fun i => files (i + 1)) n ++ [data] := by
  have hback : (fun i => files.write 0 data (i + 1)) = fun i => files (i + 1) :=
    funext fun i => write_of_ne files (Nat.succ_ne_zero i) data
  rw [contents_succ, hback, write_self]
  rfl

/-- To remove the oldest file takes at most the first of the contents. -/
theorem contents_unlink (files : Files β) (n : Nat) :
    files.contents (n + 1) = (files n).toList ++ (files.unlink n).contents (n + 1) := by
  have hbelow : (files.unlink n).contents n = files.contents n :=
    contents_congr fun i hi => unlink_of_ne files (by omega)
  rw [contents, contents, unlink_self, hbelow]
  rfl

/-- A file that moves up to a free number keeps its place. -/
theorem contents_replace {files : Files β} {i n : Nat} (hfree : files (i + 1) = none)
    (hi : i + 1 < n) : (files.replace i (i + 1)).contents n = files.contents n := by
  induction n with
  | zero => rfl
  | succ n ih =>
      rcases Nat.lt_succ_iff_lt_or_eq.1 hi with hlt | rfl
      · rw [contents, contents, ih hlt, replace_of_ne files (by omega) (by omega)]
      · have hbelow : (files.replace i (i + 1)).contents i = files.contents i :=
          contents_congr fun j hj => replace_of_ne files (by omega) (by omega)
        rw [contents, contents, contents, contents, hbelow, hfree,
          replace_source files (by omega)]
        cases hfile : files i with
        | none => simp [replace, hfile, hfree]
        | some data => simp [replace, hfile]

end Files

/-! ## Rotation -/

open Files

/-- The renames of a rotation: the files below `n` move up, the oldest first. -/
def shifts : Nat → List (Files β → Files β)
  | 0 => []
  | n + 1 => (fun files => files.replace n (n + 1)) :: shifts n

/-- A rotation of the files up to `n`: the oldest is removed and the others move up. -/
def rotation (n : Nat) : List (Files β → Files β) :=
  (fun files => files.unlink n) :: shifts n

/-- Runs some file operations. -/
def perform (operations : List (Files β → Files β)) (files : Files β) : Files β :=
  operations.foldl (fun files operation => operation files) files

@[simp] theorem perform_nil (files : Files β) : perform [] files = files := rfl

@[simp] theorem perform_cons (operation : Files β → Files β) (operations) (files : Files β) :
    perform (operation :: operations) files = perform operations (operation files) := rfl

/-- Interrupted renames keep the contents, as the place above them is free. -/
theorem contents_shifts {n m : Nat} {files : Files β} (hfree : files m = none) (hm : m < n)
    (k : Nat) : (perform ((shifts m).take k) files).contents n = files.contents n := by
  induction m generalizing files k with
  | zero => simp [shifts]
  | succ m ih =>
      cases k with
      | zero => simp
      | succ k =>
          rw [shifts, List.take_succ_cons, perform_cons, ih (replace_source files (by omega))
            (by omega), contents_replace hfree hm]

theorem shifts_of_lt {m i : Nat} (hi : m < i) (files : Files β) (k : Nat) :
    perform ((shifts m).take k) files i = files i := by
  induction m generalizing files k with
  | zero => simp [shifts]
  | succ m ih =>
      cases k with
      | zero => simp
      | succ k =>
          rw [shifts, List.take_succ_cons, perform_cons, ih (by omega),
            replace_of_ne files (by omega) (by omega)]

theorem shifts_zero {m : Nat} {files : Files β} (hfree : files m = none) :
    perform (shifts m) files 0 = none := by
  induction m generalizing files with
  | zero => exact hfree
  | succ m ih =>
      rw [shifts, perform_cons]
      exact ih (replace_source files (by omega))

/-- Wherever a rotation is interrupted, the journal has lost at most its oldest file. -/
theorem contents_interrupted (files : Files β) (n k : Nat) :
    (perform ((rotation n).take k) files).contents (n + 1) <:+ files.contents (n + 1) := by
  cases k with
  | zero => exact List.suffix_refl _
  | succ k =>
      rw [rotation, List.take_succ_cons, perform_cons, contents_shifts (unlink_self files n)
        (by omega), contents_unlink files n]
      exact List.suffix_append _ _

theorem interrupted_of_lt {n i : Nat} (hi : n < i) (files : Files β) (k : Nat) :
    perform ((rotation n).take k) files i = files i := by
  cases k with
  | zero => rfl
  | succ k =>
      rw [rotation, List.take_succ_cons, perform_cons, shifts_of_lt hi,
        unlink_of_ne files (by omega)]

/-- After a whole rotation there is room for a new file. -/
theorem rotation_zero (files : Files β) (n : Nat) : perform (rotation n) files 0 = none := by
  rw [rotation, perform_cons]
  exact shifts_zero (unlink_self files n)

end Journal
