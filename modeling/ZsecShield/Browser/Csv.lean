import ZsecShield.Browser.Vault

/-!
# The reader of credential exports

`ParseCsv` reads the text of an export character by character.  It undoes the encoding of a
table (`parseCsv_encodes`).  Behind a closing quote it goes on as in a field without quotes, so
a text it accepts has whole quoted fields exactly when every second quote of it ends a field
or is doubled (`parseCsv_strict_iff`).
-/

namespace ZsecShield.Browser

open Text (Str str CodePoint)
open Checks

namespace Csv

def quote : CodePoint := Text.ofChar '"'
def comma : CodePoint := Text.ofChar ','
def cr : CodePoint := Text.ofChar '\r'
def lf : CodePoint := Text.ofChar '\n'

def maximumRows : Nat := 1000
def maximumColumns : Nat := 12

/-- `BrowserVaultUiPolicy.MaximumPasswordLength * 2`. -/
def maximumFieldLength : Nat := 4096 * 2

/-- The local variables of `ParseCsv`. -/
structure Reader where
  rows : List (List Str)
  row : List Str
  field : Str
  quoted : Bool

/-- `InvalidDataException`. -/
def invalid (text : String) : VaultError := .invalidData (str text)

/-- `AddField`. -/
def Reader.addField (r : Reader) : Except VaultError Reader := do
  require (r.row.length < maximumColumns) (invalid "CSV column limit exceeded.")
  pure { r with row := r.row ++ [r.field], field := [] }

/-- `AddRow`, and a new row. -/
def Reader.addRow (r : Reader) : Except VaultError Reader :=
  if r.row = [[]] ∧ r.rows ≠ [] then .ok { r with row := [] }
  else do
    require (r.rows.length < maximumRows + 1) (invalid "CSV record limit exceeded.")
    pure { r with rows := r.rows ++ [r.row], row := [] }

def Reader.append (r : Reader) (value : CodePoint) : Reader :=
  { r with field := r.field ++ [value] }

/-- One character with the one behind it, and whether that one is skipped. -/
def Reader.step (r : Reader) (value : CodePoint) (next : Option CodePoint) :
    Except VaultError (Reader × Bool) :=
  if r.quoted then
    if value = quote then
      if next = some quote then .ok (r.append quote, true) else .ok ({ r with quoted := false }, false)
    else .ok (r.append value, false)
  else if value = quote then do
    require (r.field = []) (invalid "CSV quoting is invalid.")
    pure ({ r with quoted := true }, false)
  else if value = comma then do
    let r ← r.addField
    pure (r, false)
  else if value = cr ∨ value = lf then do
    let r ← r.addField
    let r ← r.addRow
    pure (r, decide (value = cr ∧ next = some lf))
  else .ok (r.append value, false)

/-- The loop of `ParseCsv`. -/
def Reader.read : (skip : Bool) → Str → Reader → Except VaultError Reader
  | _, [], r => .ok r
  | true, _ :: rest, r => Reader.read false rest r
  | false, value :: rest, r => do
      let (r, skip) ← r.step value rest.head?
      require (length16 r.field ≤ maximumFieldLength) (invalid "A CSV field exceeds its parsing bound.")
      Reader.read skip rest r

/-- What `ParseCsv` does at the end of the text. -/
def Reader.finish (r : Reader) : Except VaultError (List (List Str)) := do
  require (r.quoted = false) (invalid "CSV quoted field is incomplete.")
  if r.field ≠ [] ∨ r.row ≠ [] then do
    let r ← r.addField
    let r ← r.addRow
    pure r.rows
  else pure r.rows

/-- `ParseCsv`. -/
def parseCsv (text : Str) : Except VaultError (List (List Str)) := do
  let r ← Reader.read false text ⟨[], [], [], false⟩
  r.finish

/-! ## Encodings -/

/-- A character that ends a field without quotes. -/
def Separates (c : CodePoint) : Prop := c = comma ∨ c = cr ∨ c = lf

/-- A character that a field without quotes may hold. -/
def Plain (c : CodePoint) : Prop := c ≠ quote ∧ ¬ Separates c

instance (c : CodePoint) : Decidable (Separates c) := inferInstanceAs (Decidable (_ ∨ _))

instance (c : CodePoint) : Decidable (Plain c) := inferInstanceAs (Decidable (_ ∧ _))

/-- The field with its quotes doubled. -/
def doubled (field : Str) : Str := field.flatMap fun c => if c = quote then [quote, quote] else [c]

/-- A field as it is, if it holds plain characters only, or in quotes. -/
inductive EncodesField : Str → Str → Prop
  | plain {field : Str} (h : ∀ c ∈ field, Plain c) : EncodesField field field
  | quoted (field : Str) : EncodesField field (quote :: doubled field ++ [quote])

/-- The fields of a row with commas between them. -/
inductive EncodesRow : List Str → Str → Prop
  | last {field text : Str} (h : EncodesField field text) : EncodesRow [field] text
  | cons {field text : Str} {fields : List Str} {rest : Str} (h : EncodesField field text)
      (hrest : EncodesRow fields rest) : EncodesRow (field :: fields) (text ++ comma :: rest)

/-- The end of a row. -/
inductive LineEnd : Str → Prop
  | lf : LineEnd [lf]
  | crlf : LineEnd [cr, lf]

/-- The rows of a table, each with an end that the last one may lack. -/
inductive EncodesTable : List (List Str) → Str → Prop
  | last {row : List Str} {text : Str} (h : EncodesRow row text) : EncodesTable [row] text
  | ended {row : List Str} {text lineEnd : Str} (h : EncodesRow row text) (hend : LineEnd lineEnd) :
      EncodesTable [row] (text ++ lineEnd)
  | cons {row : List Str} {text lineEnd : Str} {rows : List (List Str)} {rest : Str}
      (h : EncodesRow row text) (hend : LineEnd lineEnd) (hrest : EncodesTable rows rest) :
      EncodesTable (row :: rows) (text ++ lineEnd ++ rest)

/-! ## Reading an encoding -/

theorem length16_append (a b : Str) : length16 (a ++ b) = length16 a + length16 b := by
  simp [length16]

theorem read_cons {r r' : Reader} {value : CodePoint} {rest : Str} {skip : Bool}
    (hstep : r.step value rest.head? = .ok (r', skip)) (hfield : length16 r'.field ≤ maximumFieldLength) :
    Reader.read false (value :: rest) r = Reader.read skip rest r' := by
  have hbound : require (length16 r'.field ≤ maximumFieldLength)
      (invalid "A CSV field exceeds its parsing bound.") = .ok () := require_eq_ok.2 hfield
  rw [Reader.read, hstep, bind_ok]
  dsimp only
  rw [hbound, bind_ok]

theorem read_skip {r : Reader} (value : CodePoint) (rest : Str) :
    Reader.read true (value :: rest) r = Reader.read false rest r := rfl

theorem step_plain {r : Reader} {value : CodePoint} {next : Option CodePoint} (hquoted : r.quoted = false)
    (h : Plain value) : r.step value next = .ok (r.append value, false) := by
  have hcomma : value ≠ comma := fun heq => h.2 (.inl heq)
  have hend : ¬ (value = cr ∨ value = lf) := fun heq => h.2 (.inr heq)
  simp [Reader.step, hquoted, h.1, hcomma, hend]

/-- A field of plain characters. -/
theorem read_plain {field : Str} (h : ∀ c ∈ field, Plain c) (rest : Str) :
    ∀ r : Reader, r.quoted = false → length16 (r.field ++ field) ≤ maximumFieldLength →
      Reader.read false (field ++ rest) r =
        Reader.read false rest { r with field := r.field ++ field } := by
  induction field with
  | nil =>
      intro r _ _
      rw [List.append_nil]
      rfl
  | cons c field ih =>
      intro r hquoted hlength
      have hc := h c List.mem_cons_self
      have hsplit : r.field ++ c :: field = (r.append c).field ++ field := by
        simp [Reader.append]
      rw [hsplit] at hlength ⊢
      have hfirst : length16 (r.append c).field ≤ maximumFieldLength := by
        rw [length16_append] at hlength
        omega
      rw [List.cons_append, read_cons (step_plain hquoted hc) hfirst,
        ih (fun c hc => h c (List.mem_cons_of_mem _ hc)) (r.append c) hquoted hlength]
      rfl

/-- A field in quotes behind its opening quote. -/
theorem read_quoted {rest : Str} (hrest : rest.head? ≠ some quote) (field : Str) :
    ∀ r : Reader, r.quoted = true → length16 (r.field ++ field) ≤ maximumFieldLength →
      Reader.read false (doubled field ++ quote :: rest) r =
        Reader.read false rest { r with field := r.field ++ field, quoted := false } := by
  induction field with
  | nil =>
      intro r hquoted hlength
      rw [List.append_nil] at hlength ⊢
      have hstep : r.step quote rest.head? = .ok ({ r with quoted := false }, false) := by
        simp [Reader.step, hquoted, hrest]
      exact read_cons hstep hlength
  | cons c field ih =>
      intro r hquoted hlength
      have hsplit : r.field ++ c :: field = (r.append c).field ++ field := by
        simp [Reader.append]
      rw [hsplit] at hlength ⊢
      have hfirst : length16 (r.append c).field ≤ maximumFieldLength := by
        rw [length16_append] at hlength
        omega
      have hrestOf := ih (r.append c) hquoted hlength
      by_cases hc : c = quote
      · subst hc
        have htext : doubled (quote :: field) = quote :: quote :: doubled field := by
          simp [doubled]
        have hstep : r.step quote (quote :: (doubled field ++ quote :: rest)).head? =
            .ok (r.append quote, true) := by
          simp [Reader.step, hquoted]
        rw [htext, List.cons_append, List.cons_append, read_cons hstep hfirst, read_skip, hrestOf]
        rfl
      · have htext : doubled (c :: field) = c :: doubled field := by
          simp [doubled, hc]
        have hstep : r.step c (doubled field ++ quote :: rest).head? = .ok (r.append c, false) := by
          simp [Reader.step, hquoted, hc]
        rw [htext, List.cons_append, read_cons hstep hfirst, hrestOf]
        rfl

/-- A field in front of something that is no quote. -/
theorem read_field {field text rest : Str} (h : EncodesField field text)
    (hlength : length16 field ≤ maximumFieldLength) (hrest : rest.head? ≠ some quote)
    (rows : List (List Str)) (row : List Str) :
    Reader.read false (text ++ rest) ⟨rows, row, [], false⟩ =
      Reader.read false rest ⟨rows, row, field, false⟩ := by
  cases h with
  | plain h => exact read_plain h rest ⟨rows, row, [], false⟩ rfl hlength
  | quoted =>
      have hopen : (⟨rows, row, [], false⟩ : Reader).step quote
          ((doubled field ++ [quote] ++ rest).head?) = .ok (⟨rows, row, [], true⟩, false) := rfl
      rw [List.cons_append, List.cons_append, read_cons hopen (Nat.zero_le _), List.append_assoc]
      exact read_quoted hrest field ⟨rows, row, [], true⟩ rfl hlength

/-- A row up to its last field. -/
theorem read_row {fields : List Str} {text : Str} (h : EncodesRow fields text)
    (hlength : ∀ field ∈ fields, length16 field ≤ maximumFieldLength) (rows : List (List Str)) :
    ∀ done : List Str, done.length + fields.length ≤ maximumColumns →
      ∃ row last, done ++ fields = row ++ [last] ∧ ∀ rest : Str, rest.head? ≠ some quote →
        Reader.read false (text ++ rest) ⟨rows, done, [], false⟩ =
          Reader.read false rest ⟨rows, row, last, false⟩ := by
  induction h with
  | @last field text h =>
      intro done _
      exact ⟨done, field, rfl, fun rest hrest =>
        read_field h (hlength field List.mem_cons_self) hrest rows done⟩
  | @cons field text fields tail h _ ih =>
      intro done hcolumns
      rw [List.length_cons] at hcolumns
      obtain ⟨row, last, heq, hread⟩ :=
        ih (fun f hf => hlength f (List.mem_cons_of_mem _ hf)) (done ++ [field])
          (by rw [List.length_append, List.length_singleton]; omega)
      refine ⟨row, last, ?_, ?_⟩
      · rw [← heq, List.append_assoc]
        rfl
      · intro rest hrest
        have hroom : done.length < maximumColumns := by omega
        have hadd : (⟨rows, done, field, false⟩ : Reader).addField =
            .ok ⟨rows, done ++ [field], [], false⟩ :=
          bind_eq_ok.2 ⟨(), require_eq_ok.2 hroom, rfl⟩
        have hstep : (⟨rows, done, field, false⟩ : Reader).step comma (tail ++ rest).head? =
            .ok (⟨rows, done ++ [field], [], false⟩, false) :=
          bind_eq_ok.2 ⟨_, hadd, rfl⟩
        have hcomma : (comma :: (tail ++ rest)).head? ≠ some quote := by
          rw [List.head?_cons]
          decide
        rw [List.append_assoc, List.cons_append,
          read_field h (hlength field List.mem_cons_self) hcomma rows done,
          read_cons hstep (Nat.zero_le _), hread rest hrest]

/-! ## Reading a table -/

/-- A table within the limits of the reader. -/
structure Bounded (table : List (List Str)) : Prop where
  rows : 1 ≤ table.length ∧ table.length ≤ 1001
  columns : ∀ row ∈ table, 2 ≤ row.length ∧ row.length ≤ 12
  fields : ∀ row ∈ table, ∀ field ∈ row, length16 field ≤ 8192

theorem addField_row {rows : List (List Str)} {row : List Str} {last : Str}
    (hcolumns : row.length < maximumColumns) : (⟨rows, row, last, false⟩ : Reader).addField =
      .ok ⟨rows, row ++ [last], [], false⟩ := bind_eq_ok.2 ⟨(), require_eq_ok.2 hcolumns, rfl⟩

theorem addRow_row {rows : List (List Str)} {row : List Str} {last : Str} (hrow : row ≠ [])
    (hrows : rows.length < maximumRows + 1) :
    (⟨rows, row ++ [last], [], false⟩ : Reader).addRow =
      .ok ⟨rows ++ [row ++ [last]], [], [], false⟩ := by
  have hne : ¬ (row ++ [last] = [[]] ∧ rows ≠ []) := by
    rintro ⟨heq, -⟩
    cases row with
    | nil => exact hrow rfl
    | cons _ row => cases row <;> cases heq
  rw [Reader.addRow, if_neg hne]
  exact bind_eq_ok.2 ⟨(), require_eq_ok.2 hrows, rfl⟩

/-- The end of a row behind its last field. -/
theorem read_lineEnd {lineEnd : Str} (h : LineEnd lineEnd) {rows : List (List Str)} {row : List Str}
    {last : Str} (hrow : row ≠ []) (hcolumns : row.length < maximumColumns)
    (hrows : rows.length < maximumRows + 1) (rest : Str) :
    Reader.read false (lineEnd ++ rest) ⟨rows, row, last, false⟩ =
      Reader.read false rest ⟨rows ++ [row ++ [last]], [], [], false⟩ := by
  have hfield : (⟨rows, row, last, false⟩ : Reader).addField = _ := addField_row hcolumns
  have hadd : (⟨rows, row ++ [last], [], false⟩ : Reader).addRow = _ := addRow_row hrow hrows
  cases h with
  | lf =>
      have hstep : (⟨rows, row, last, false⟩ : Reader).step lf rest.head? =
          .ok (⟨rows ++ [row ++ [last]], [], [], false⟩, false) :=
        bind_eq_ok.2 ⟨_, hfield, bind_eq_ok.2 ⟨_, hadd, rfl⟩⟩
      exact read_cons hstep (Nat.zero_le _)
  | crlf =>
      have hstep : (⟨rows, row, last, false⟩ : Reader).step cr ([lf] ++ rest).head? =
          .ok (⟨rows ++ [row ++ [last]], [], [], false⟩, true) :=
        bind_eq_ok.2 ⟨_, hfield, bind_eq_ok.2 ⟨_, hadd, rfl⟩⟩
      exact read_cons hstep (Nat.zero_le _)

theorem finish_row {rows : List (List Str)} {row : List Str} {last : Str} (hrow : row ≠ [])
    (hcolumns : row.length < maximumColumns) (hrows : rows.length < maximumRows + 1) :
    (⟨rows, row, last, false⟩ : Reader).finish = .ok (rows ++ [row ++ [last]]) := by
  rw [Reader.finish, require_pos rfl, bind_ok, if_pos (.inr hrow), addField_row hcolumns, bind_ok,
    addRow_row hrow hrows]
  rfl

/-- A row of a bounded table in front of the rest of the text. -/
theorem read_bounded_row {fields : List Str} {text : Str} (h : EncodesRow fields text)
    (hcolumns : 2 ≤ fields.length ∧ fields.length ≤ 12) (hfields : ∀ f ∈ fields, length16 f ≤ 8192)
    (rows : List (List Str)) :
    ∃ row last, fields = row ++ [last] ∧ row ≠ [] ∧ row.length < maximumColumns ∧
      ∀ rest : Str, rest.head? ≠ some quote →
        Reader.read false (text ++ rest) ⟨rows, [], [], false⟩ =
          Reader.read false rest ⟨rows, row, last, false⟩ := by
  obtain ⟨row, last, heq, hread⟩ := read_row h hfields rows [] (by simpa [maximumColumns] using hcolumns.2)
  rw [List.nil_append] at heq
  subst heq
  rw [List.length_append, List.length_singleton] at hcolumns
  refine ⟨row, last, rfl, ?_, by rw [maximumColumns]; omega, hread⟩
  rintro rfl
  simp at hcolumns

theorem head?_lineEnd {lineEnd : Str} (h : LineEnd lineEnd) (rest : Str) :
    (lineEnd ++ rest).head? ≠ some quote := by
  have hlf : lf ≠ quote := by decide
  have hcr : cr ≠ quote := by decide
  cases h with
  | lf => exact fun heq => hlf (Option.some.inj heq)
  | crlf => exact fun heq => hcr (Option.some.inj heq)

/-- The text of a table behind some rows. -/
theorem read_table {table : List (List Str)} {text : Str} (h : EncodesTable table text)
    (hcolumns : ∀ row ∈ table, 2 ≤ row.length ∧ row.length ≤ 12)
    (hfields : ∀ row ∈ table, ∀ field ∈ row, length16 field ≤ 8192) :
    ∀ rows : List (List Str), rows.length + table.length ≤ 1001 →
      (Reader.read false text ⟨rows, [], [], false⟩ >>= Reader.finish) = .ok (rows ++ table) := by
  induction h with
  | @last row text h =>
      intro rows hrows
      rw [List.length_singleton] at hrows
      obtain ⟨init, last, rfl, hinit, hroom, hread⟩ := read_bounded_row h
        (hcolumns row List.mem_cons_self) (hfields row List.mem_cons_self) rows
      have hend := hread [] nofun
      rw [List.append_nil] at hend
      rw [hend, Reader.read, bind_ok]
      exact finish_row hinit hroom (by rw [maximumRows]; omega)
  | @ended row text lineEnd h hend =>
      intro rows hrows
      rw [List.length_singleton] at hrows
      obtain ⟨init, last, rfl, hinit, hroom, hread⟩ := read_bounded_row h
        (hcolumns row List.mem_cons_self) (hfields row List.mem_cons_self) rows
      have hline : Reader.read false (lineEnd ++ []) ⟨rows, init, last, false⟩ = _ :=
        read_lineEnd hend hinit hroom (by rw [maximumRows]; omega) []
      have hall := hread (lineEnd ++ []) (head?_lineEnd hend [])
      rw [hline, List.append_nil] at hall
      rw [hall]
      rfl
  | @cons row text lineEnd rest tail h hend _ ih =>
      intro rows hrows
      rw [List.length_cons] at hrows
      obtain ⟨init, last, rfl, hinit, hroom, hread⟩ := read_bounded_row h
        (hcolumns row List.mem_cons_self) (hfields row List.mem_cons_self) rows
      have hline : Reader.read false (lineEnd ++ tail) ⟨rows, init, last, false⟩ = _ :=
        read_lineEnd hend hinit hroom (by rw [maximumRows]; omega) tail
      rw [List.append_assoc, hread _ (head?_lineEnd hend tail), hline,
        ih (fun r hr => hcolumns r (List.mem_cons_of_mem _ hr))
          (fun r hr => hfields r (List.mem_cons_of_mem _ hr)) (rows ++ [init ++ [last]])
          (by rw [List.length_append, List.length_singleton]; omega), List.append_assoc]
      rfl

end Csv

open Csv in
/-- Reading an encoding of a table gives the table. -/
theorem parseCsv_encodes {table : List (List Str)} {text : Str} (hbounded : Csv.Bounded table)
    (h : EncodesTable table text) : parseCsv text = .ok table :=
  read_table h hbounded.columns hbounded.fields [] (by simpa using hbounded.rows.2)

open Csv in
/-- Two rows with a quoted and with plain fields. -/
theorem parseCsv_encodes_pair :
    parseCsv (str "\"a\"\"b\",c" ++ [cr, lf] ++ str "\"d,e\",") =
      .ok [[str "a\"b", str "c"], [str "d,e", []]] := by
  have hplain : ∀ c ∈ str "c", Csv.Plain c := by
    intro c hc
    rw [List.mem_singleton.1 hc]
    decide
  have hfirst : EncodesRow [str "a\"b", str "c"] (str "\"a\"\"b\",c") :=
    .cons (.quoted (str "a\"b")) (.last (.plain hplain))
  have hsecond : EncodesRow [str "d,e", []] (str "\"d,e\",") :=
    .cons (.quoted (str "d,e")) (.last (.plain nofun))
  have hbounded : Csv.Bounded [[str "a\"b", str "c"], [str "d,e", []]] :=
    ⟨by simp, by simp, by decide +kernel⟩
  exact parseCsv_encodes hbounded (.cons hfirst .crlf (.last hsecond))

namespace Csv

/-! ## Strict texts -/

/-- What stands between two fields. -/
inductive Separator : Str → Prop
  | comma : Separator [comma]
  | cr : Separator [cr]
  | lineEnd {text : Str} (h : LineEnd text) : Separator text

/-- Every field is one quoted section or has no quotes, up to a separator or the end. -/
inductive WellFormed : Str → Prop
  | last {field text : Str} (h : EncodesField field text) : WellFormed text
  | cons {field text separator rest : Str} (h : EncodesField field text)
      (hseparator : Separator separator) (hrest : WellFormed rest) :
      WellFormed (text ++ separator ++ rest)

/-- Behind the second, the fourth and every further second quote the text ends, or a quote, a
comma or a line end follows. -/
def QuotesEnd (text : Str) : Prop :=
  ∀ before after, text = before ++ quote :: after → before.count quote % 2 = 1 →
    ∀ c ∈ after.head?, c = quote ∨ Separates c

/-- The same of a text that begins inside or outside quotes. -/
def Tidy : (inside : Bool) → Str → Prop
  | _, [] => True
  | inside, c :: rest =>
      if c = quote then
        (inside = true → ∀ next ∈ rest.head?, next = quote ∨ Separates next) ∧ Tidy (!inside) rest
      else Tidy inside rest

theorem tidy_iff (text : Str) : ∀ inside : Bool, Tidy inside text ↔
    ∀ before after, text = before ++ quote :: after →
      (inside.toNat + 1 + before.count quote) % 2 = 0 →
        ∀ c ∈ after.head?, c = quote ∨ Separates c := by
  induction text with
  | nil =>
      intro inside
      refine ⟨fun _ before after heq => ?_, fun _ => trivial⟩
      cases before <;> cases heq
  | cons c text ih =>
      intro inside
      rw [Tidy]
      by_cases hc : c = quote
      · subst hc
        rw [if_pos rfl, ih]
        constructor
        · rintro ⟨hhead, hrest⟩ before after heq hcount
          cases before with
          | nil =>
              cases heq
              refine hhead ?_
              cases inside with
              | true => rfl
              | false => simp at hcount
          | cons b before =>
              cases heq
              refine hrest before after rfl ?_
              rw [List.count_cons_self] at hcount
              cases inside with
              | true => simp only [Bool.toNat_true, Bool.not_true, Bool.toNat_false] at hcount ⊢; omega
              | false => simp only [Bool.toNat_false, Bool.not_false, Bool.toNat_true] at hcount ⊢; omega
        · intro h
          refine ⟨?_, fun before after heq hcount => ?_⟩
          · rintro rfl
            exact h [] text rfl rfl
          · refine h (quote :: before) after (by rw [heq]; rfl) ?_
            rw [List.count_cons_self]
            cases inside with
            | true => simp only [Bool.toNat_true, Bool.not_true, Bool.toNat_false] at hcount ⊢; omega
            | false => simp only [Bool.toNat_false, Bool.not_false, Bool.toNat_true] at hcount ⊢; omega
      · rw [if_neg hc, ih]
        constructor
        · intro h before after heq hcount
          cases before with
          | nil =>
              cases heq
              exact absurd rfl hc
          | cons b before =>
              cases heq
              rw [List.count_cons_of_ne hc] at hcount
              exact h before after rfl hcount
        · intro h before after heq hcount
          refine h (c :: before) after (by rw [heq]; rfl) ?_
          rw [List.count_cons_of_ne hc]
          exact hcount

theorem tidy_text (text : Str) : Tidy false text ↔ QuotesEnd text := by
  rw [tidy_iff]
  refine forall_congr' fun before => forall_congr' fun after => imp_congr_right fun _ => ?_
  refine imp_congr ?_ Iff.rfl
  simp only [Bool.toNat_false]
  omega

theorem tidy_plain {field rest : Str} {inside : Bool} (h : ∀ c ∈ field, c ≠ quote)
    (hrest : Tidy inside rest) : Tidy inside (field ++ rest) := by
  induction field with
  | nil => exact hrest
  | cons c field ih =>
      rw [List.cons_append, Tidy, if_neg (h c List.mem_cons_self)]
      exact ih fun c hc => h c (List.mem_cons_of_mem _ hc)

theorem tidy_doubled {rest : Str} (hhead : ∀ c ∈ rest.head?, Separates c) (hrest : Tidy false rest)
    (field : Str) : Tidy true (doubled field ++ quote :: rest) := by
  induction field with
  | nil => exact ⟨fun _ c hc => .inr (hhead c hc), hrest⟩
  | cons c field ih =>
      by_cases hc : c = quote
      · subst hc
        have htext : doubled (quote :: field) = quote :: quote :: doubled field := by
          simp [doubled]
        rw [htext, List.cons_append, List.cons_append, Tidy, if_pos rfl, Tidy, if_pos rfl]
        refine ⟨fun _ next hnext => .inl ?_, nofun, ih⟩
        exact (Option.some.inj hnext).symm
      · have htext : doubled (c :: field) = c :: doubled field := by
          simp [doubled, hc]
        rw [htext, List.cons_append, Tidy, if_neg hc]
        exact ih

theorem tidy_field {field text rest : Str} (h : EncodesField field text)
    (hhead : ∀ c ∈ rest.head?, Separates c) (hrest : Tidy false rest) : Tidy false (text ++ rest) := by
  cases h with
  | plain h => exact tidy_plain (fun c hc => (h c hc).1) hrest
  | quoted =>
      rw [List.append_assoc]
      exact ⟨nofun, tidy_doubled hhead hrest field⟩

theorem ne_quote_of_separates {c : CodePoint} (h : Separates c) : c ≠ quote := by
  rcases h with rfl | rfl | rfl <;> decide

/-- A separator consists of characters that separate. -/
theorem Separator.spec {separator : Str} (h : Separator separator) :
    (∀ c ∈ separator, Separates c) ∧ separator ≠ [] := by
  cases h with
  | comma => exact ⟨fun c hc => .inl (List.mem_singleton.1 hc), nofun⟩
  | cr => exact ⟨fun c hc => .inr (.inl (List.mem_singleton.1 hc)), nofun⟩
  | lineEnd h =>
      cases h with
      | lf => exact ⟨fun c hc => .inr (.inr (List.mem_singleton.1 hc)), nofun⟩
      | crlf => exact ⟨by simp [Separates], nofun⟩

theorem WellFormed.tidy {text : Str} (h : WellFormed text) : Tidy false text := by
  induction h with
  | last h =>
      have hfield : Tidy false (_ ++ []) := tidy_field h nofun trivial
      rwa [List.append_nil] at hfield
  | @cons field text separator rest h hseparator _ ih =>
      obtain ⟨hall, hne⟩ := hseparator.spec
      rw [List.append_assoc]
      refine tidy_field h ?_ (tidy_plain (fun c hc => ne_quote_of_separates (hall c hc)) ih)
      cases separator with
      | nil => exact absurd rfl hne
      | cons c separator =>
          intro next hnext
          cases hnext
          exact hall c List.mem_cons_self

/-- Nothing, or a separator and fields behind it. -/
def Ends (text : Str) : Prop :=
  text = [] ∨ ∃ separator rest, Separator separator ∧ text = separator ++ rest ∧ WellFormed rest

theorem wellFormed_of_ends {field text tail : Str} (h : EncodesField field text) (htail : Ends tail) :
    WellFormed (text ++ tail) := by
  rcases htail with rfl | ⟨separator, rest, hseparator, rfl, hrest⟩
  · rw [List.append_nil]
    exact .last h
  · rw [← List.append_assoc]
    exact .cons h hseparator hrest

/-- What one character does to a reader that goes on. -/
theorem read_cons_ok {r r' : Reader} {c : CodePoint} {rest : Str}
    (h : Reader.read false (c :: rest) r = .ok r') :
    ∃ r₁ skip, r.step c rest.head? = .ok (r₁, skip) ∧ Reader.read skip rest r₁ = .ok r' := by
  rw [Reader.read] at h
  obtain ⟨⟨r₁, skip⟩, hstep, h⟩ := bind_eq_ok.1 h
  obtain ⟨_, -, h⟩ := bind_eq_ok.1 h
  exact ⟨r₁, skip, hstep, h⟩

theorem addField_eq_ok {r r' : Reader} (h : r.addField = .ok r') :
    r' = { r with row := r.row ++ [r.field], field := [] } := by
  obtain ⟨_, -, h⟩ := bind_eq_ok.1 h
  exact (Except.ok.inj h).symm

theorem addRow_eq_ok {r r' : Reader} (h : r.addRow = .ok r') :
    r'.field = r.field ∧ r'.quoted = r.quoted := by
  unfold Reader.addRow at h
  split at h
  · cases h
    exact ⟨rfl, rfl⟩
  · obtain ⟨_, -, h⟩ := bind_eq_ok.1 h
    cases h
    exact ⟨rfl, rfl⟩

/-- A separator outside quotes ends the field. -/
theorem step_separates {r r₁ : Reader} {c : CodePoint} {next : Option CodePoint} {skip : Bool}
    (hquoted : r.quoted = false) (hc : Separates c) (h : r.step c next = .ok (r₁, skip)) :
    r₁.field = [] ∧ r₁.quoted = false ∧ (skip = true → c = cr ∧ next = some lf) := by
  have hquote := ne_quote_of_separates hc
  unfold Reader.step at h
  rw [if_neg (by rw [hquoted]; simp), if_neg hquote] at h
  by_cases hcomma : c = comma
  · rw [if_pos hcomma] at h
    obtain ⟨r₂, hfield, h⟩ := bind_eq_ok.1 h
    cases h
    rw [addField_eq_ok hfield]
    exact ⟨rfl, hquoted, nofun⟩
  · have hend : c = cr ∨ c = lf := hc.resolve_left hcomma
    rw [if_neg hcomma, if_pos hend] at h
    obtain ⟨r₂, hfield, h⟩ := bind_eq_ok.1 h
    obtain ⟨r₃, hrow, h⟩ := bind_eq_ok.1 h
    cases h
    obtain ⟨hfield', hquoted'⟩ := addRow_eq_ok hrow
    rw [addField_eq_ok hfield] at hfield' hquoted'
    exact ⟨hfield', hquoted'.trans hquoted, fun hskip => of_decide_eq_true hskip⟩

/-- What a reader has accepted behind the start of a field, inside a field without quotes, and
inside quotes. -/
structure Accepts (text : Str) : Prop where
  start : ∀ r r' : Reader, Reader.read false text r = .ok r' → r'.quoted = false →
    r.quoted = false → r.field = [] → Tidy false text → WellFormed text
  plain : ∀ r r' : Reader, Reader.read false text r = .ok r' → r'.quoted = false →
    r.quoted = false → r.field ≠ [] → Tidy false text →
      ∃ field tail, text = field ++ tail ∧ (∀ c ∈ field, Plain c) ∧ Ends tail
  quoted : ∀ r r' : Reader, Reader.read false text r = .ok r' → r'.quoted = false →
    r.quoted = true → Tidy true text →
      ∃ field tail, text = doubled field ++ quote :: tail ∧ Ends tail

theorem accepts_nil : Accepts [] := by
  refine ⟨?_, ?_, ?_⟩
  · intro r r' _ _ _ _ _
    exact .last (.plain nofun)
  · intro r r' _ _ _ _ _
    exact ⟨[], [], rfl, nofun, .inl rfl⟩
  · intro r r' h hend hquoted _
    cases h
    rw [hquoted] at hend
    cases hend

/-- Behind a separator a field starts. -/
theorem ends_of_separates {c : CodePoint} {rest : Str} (hc : Separates c)
    (ih : ∀ text : Str, text.length ≤ rest.length → Accepts text) {r r' : Reader}
    (h : Reader.read false (c :: rest) r = .ok r') (hend : r'.quoted = false)
    (hquoted : r.quoted = false) (htidy : Tidy false (c :: rest)) : Ends (c :: rest) := by
  rw [Tidy, if_neg (ne_quote_of_separates hc)] at htidy
  obtain ⟨r₁, skip, hstep, hread⟩ := read_cons_ok h
  obtain ⟨hfield, hquoted', hskip⟩ := step_separates hquoted hc hstep
  cases skip with
  | false =>
      have hrest := (ih rest le_rfl).start r₁ r' hread hend hquoted' hfield htidy
      rcases hc with rfl | rfl | rfl
      · exact .inr ⟨_, rest, .comma, rfl, hrest⟩
      · exact .inr ⟨_, rest, .cr, rfl, hrest⟩
      · exact .inr ⟨_, rest, .lineEnd .lf, rfl, hrest⟩
  | true =>
      obtain ⟨rfl, hnext⟩ := hskip rfl
      cases rest with
      | nil => cases hnext
      | cons next rest' =>
          cases hnext
          rw [Tidy, if_neg (by decide)] at htidy
          exact .inr ⟨_, rest', .lineEnd .crlf, rfl,
            (ih rest' (Nat.le_succ _)).start r₁ r' hread hend hquoted' hfield htidy⟩

theorem accepts_cons {c : CodePoint} {rest : Str}
    (ih : ∀ text : Str, text.length ≤ rest.length → Accepts text) : Accepts (c :: rest) := by
  have hends : ∀ {r r' : Reader}, Separates c → Reader.read false (c :: rest) r = .ok r' →
      r'.quoted = false → r.quoted = false → Tidy false (c :: rest) → Ends (c :: rest) :=
    fun hc h hend hquoted htidy => ends_of_separates hc ih h hend hquoted htidy
  have hplain : ∀ {r r' : Reader}, Plain c → Reader.read false (c :: rest) r = .ok r' →
      r'.quoted = false → r.quoted = false → Tidy false (c :: rest) →
      ∃ field tail, c :: rest = field ++ tail ∧ field ≠ [] ∧ (∀ c ∈ field, Plain c) ∧ Ends tail := by
    intro r r' hc h hend hquoted htidy
    rw [Tidy, if_neg hc.1] at htidy
    obtain ⟨r₁, skip, hstep, h⟩ := read_cons_ok h
    cases (step_plain hquoted hc).symm.trans hstep
    obtain ⟨field, tail, heq, hall, htail⟩ :=
      (ih rest le_rfl).plain _ r' h hend hquoted (by simp [Reader.append]) htidy
    refine ⟨c :: field, tail, by rw [heq]; rfl, nofun, ?_, htail⟩
    exact List.forall_mem_cons.2 ⟨hc, hall⟩
  refine ⟨?_, ?_, ?_⟩
  · intro r r' h hend hquoted hfield htidy
    by_cases hquote : c = quote
    · subst hquote
      obtain ⟨r₁, skip, hstep, h⟩ := read_cons_ok h
      have hopen : r.step quote rest.head? = .ok ({ r with quoted := true }, false) := by
        unfold Reader.step
        rw [if_neg (by rw [hquoted]; simp), if_pos rfl, require_pos hfield]
        rfl
      cases hopen.symm.trans hstep
      rw [Tidy, if_pos rfl] at htidy
      obtain ⟨field, tail, rfl, htail⟩ := (ih rest le_rfl).quoted _ r' h hend rfl htidy.2
      have hwhole := wellFormed_of_ends (.quoted field) htail
      rw [List.append_assoc] at hwhole
      exact hwhole
    · by_cases hc : Separates c
      · have hempty : EncodesField [] [] := .plain nofun
        exact wellFormed_of_ends hempty (hends hc h hend hquoted htidy)
      · obtain ⟨field, tail, heq, -, hall, htail⟩ := hplain ⟨hquote, hc⟩ h hend hquoted htidy
        rw [heq]
        exact wellFormed_of_ends (.plain hall) htail
  · intro r r' h hend hquoted hfield htidy
    by_cases hquote : c = quote
    · -- Text in front of an opening quote is refused.
      subst hquote
      obtain ⟨r₁, skip, hstep, -⟩ := read_cons_ok h
      unfold Reader.step at hstep
      rw [if_neg (by rw [hquoted]; simp), if_pos rfl, require_neg hfield] at hstep
      cases hstep
    · by_cases hc : Separates c
      · exact ⟨[], _, rfl, nofun, hends hc h hend hquoted htidy⟩
      · obtain ⟨field, tail, heq, -, hall, htail⟩ := hplain ⟨hquote, hc⟩ h hend hquoted htidy
        exact ⟨field, tail, heq, hall, htail⟩
  · intro r r' h hend hquoted htidy
    obtain ⟨r₁, skip, hstep, h⟩ := read_cons_ok h
    unfold Reader.step at hstep
    rw [if_pos hquoted] at hstep
    by_cases hquote : c = quote
    · subst hquote
      rw [if_pos rfl] at hstep
      rw [Tidy, if_pos rfl] at htidy
      by_cases hnext : rest.head? = some quote
      · rw [if_pos hnext] at hstep
        cases hstep
        cases rest with
        | nil => cases hnext
        | cons next rest' =>
            cases hnext
            obtain ⟨-, htidy⟩ := htidy
            rw [Tidy, if_pos rfl] at htidy
            obtain ⟨field, tail, heq, htail⟩ :=
              (ih rest' (Nat.le_succ _)).quoted _ r' h hend hquoted htidy.2
            exact ⟨quote :: field, tail, by rw [heq]; simp [doubled], htail⟩
      · rw [if_neg hnext] at hstep
        cases hstep
        refine ⟨[], rest, rfl, ?_⟩
        cases rest with
        | nil => exact .inl rfl
        | cons next rest' =>
            have hsep : Separates next := (htidy.1 rfl next rfl).resolve_left
              fun heq => hnext (congrArg some heq)
            refine ends_of_separates hsep (fun text hlength => ih text ?_) h hend rfl htidy.2
            exact hlength.trans (Nat.le_succ _)
    · rw [if_neg hquote] at hstep
      cases hstep
      rw [Tidy, if_neg hquote] at htidy
      obtain ⟨field, tail, heq, htail⟩ := (ih rest le_rfl).quoted _ r' h hend hquoted htidy
      exact ⟨c :: field, tail, by rw [heq]; simp [doubled, hquote], htail⟩

theorem accepts (text : Str) : Accepts text := by
  have hall : ∀ n, ∀ text : Str, text.length ≤ n → Accepts text := by
    intro n
    induction n with
    | zero =>
        intro text hlength
        rw [List.length_eq_zero_iff.1 (Nat.le_zero.1 hlength)]
        exact accepts_nil
    | succ n ih =>
        intro text hlength
        cases text with
        | nil => exact accepts_nil
        | cons c rest =>
            rw [List.length_cons] at hlength
            exact accepts_cons fun text htext => ih text (by omega)
  exact hall text.length text le_rfl

/-! ## Refusals -/

/-- A step that fails with `InvalidDataException` only. -/
def Refuses {α : Type} (x : Except VaultError α) : Prop :=
  ∀ e, x = .error e → ∃ text, e = .invalidData text

section Refusals

variable {α β : Type} {x : Except VaultError α} {f : α → Except VaultError β}

theorem refuses_ok (a : α) : Refuses (.ok a) := nofun

theorem refuses_require (c : Prop) [Decidable c] (text : String) : Refuses (require c (invalid text)) :=
  fun _ h => ⟨str text, (require_eq_error.1 h).2.symm⟩

theorem Refuses.bind (hx : Refuses x) (hf : ∀ a, Refuses (f a)) : Refuses (x >>= f) := by
  intro e h
  rcases bind_eq_error.1 h with h | ⟨a, -, h⟩
  · exact hx e h
  · exact hf a e h

theorem Refuses.ite {c : Prop} [Decidable c] {y : Except VaultError α} (hx : Refuses x)
    (hy : Refuses y) : Refuses (if c then x else y) := by
  by_cases h : c
  · rw [if_pos h]
    exact hx
  · rw [if_neg h]
    exact hy

theorem refuses_addField (r : Reader) : Refuses r.addField :=
  (refuses_require _ _).bind fun _ => refuses_ok _

theorem refuses_addRow (r : Reader) : Refuses r.addRow :=
  (refuses_ok _).ite ((refuses_require _ _).bind fun _ => refuses_ok _)

theorem refuses_step (r : Reader) (value : CodePoint) (next : Option CodePoint) :
    Refuses (r.step value next) := by
  unfold Reader.step
  refine Refuses.ite ?_ (Refuses.ite ?_ (Refuses.ite ?_ (Refuses.ite ?_ (refuses_ok _))))
  · exact ((refuses_ok _).ite (refuses_ok _)).ite (refuses_ok _)
  · exact (refuses_require _ _).bind fun _ => refuses_ok _
  · exact (refuses_addField r).bind fun _ => refuses_ok _
  · exact (refuses_addField r).bind fun r => (refuses_addRow r).bind fun _ => refuses_ok _

theorem refuses_read (text : Str) : ∀ (skip : Bool) (r : Reader), Refuses (Reader.read skip text r) := by
  induction text with
  | nil =>
      intro skip r
      rw [Reader.read]
      exact refuses_ok r
  | cons value rest ih =>
      intro skip r
      cases skip with
      | true => exact ih false r
      | false =>
          rw [Reader.read]
          exact (refuses_step r value rest.head?).bind fun p =>
            (refuses_require _ _).bind fun _ => ih p.2 p.1

theorem refuses_finish (r : Reader) : Refuses r.finish :=
  (refuses_require _ _).bind fun _ => Refuses.ite
    ((refuses_addField r).bind fun r => (refuses_addRow r).bind fun _ => refuses_ok _) (refuses_ok _)

theorem refuses_parseCsv (text : Str) : Refuses (parseCsv text) :=
  (refuses_read text false _).bind refuses_finish

end Refusals

end Csv

open Csv in
/-- What the reader refuses it refuses with `InvalidDataException`, and of what it accepts it has
read whole fields exactly when every second quote ends a field or is doubled. -/
theorem parseCsv_strict_iff (text : Str) :
    match parseCsv text with
    | .ok _ => WellFormed text ↔ QuotesEnd text
    | .error e => ∃ message, e = .invalidData message := by
  cases h : parseCsv text with
  | error e => exact refuses_parseCsv text e h
  | ok rows =>
      dsimp only
      rw [← tidy_text]
      refine ⟨WellFormed.tidy, fun htidy => ?_⟩
      obtain ⟨r, hread, hfinish⟩ := bind_eq_ok.1 h
      obtain ⟨_, hquoted, -⟩ := bind_eq_ok.1 hfinish
      exact (accepts text).start _ r hread (require_eq_ok.1 hquoted) rfl rfl htidy

open Csv in
/-- Text behind a closing quote becomes part of the password. -/
theorem parseCsv_not_strict :
    parseCsv (str "url,password\nhttps://a.b,\"secret\"tail") =
      .ok [[str "url", str "password"], [str "https://a.b", str "secrettail"]] ∧
    ¬ WellFormed (str "url,password\nhttps://a.b,\"secret\"tail") := by
  refine ⟨rfl, fun h => ?_⟩
  have hends := (tidy_text _).1 h.tidy (str "url,password\nhttps://a.b,\"secret") (str "tail") rfl
    (by decide) (Text.ofChar 't') rfl
  revert hends
  decide

end ZsecShield.Browser
