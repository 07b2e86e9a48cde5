import ZsecShield.Browser.Csv
import ZsecShield.Browser.SaveDecision

/-!
# Importing credentials

`ParseExport` makes a plan of a browser's password export, and `ImportNoOverwrite` saves what the
vault does not have yet.  If a save fails it deletes what it has saved.
-/

namespace ZsecShield.Browser

open Text (Str str CodePoint)
open Checks

/-! ## Plans -/

/-- `BrowserCredentialImportPlan`. -/
structure ImportPlan where
  sourceFormat : Str
  dataRows : Nat
  invalidRows : Nat
  duplicateRows : Nat
  candidates : List VaultEntry
  sourceLength : Nat
  sourceSha256 : Str

/-- What `ParseExport` finds of a file. -/
structure ExportFile where
  /-- It exists and is no reparse point. -/
  regular : Bool
  /-- Its extension is `.csv`, whatever the case. -/
  csv : Bool
  length : Nat
  raw : Bytes

/-- What the import takes from .NET. -/
structure ImportPlatform extends WorkflowPlatform where
  /-- `value.ToLowerInvariant()`. -/
  toLowerInvariant : Str → Str

def maximumExportBytes : Nat := 2 * 1024 * 1024

def chromiumHeaders : List Str :=
  [str "name", str "url", str "username", str "password", str "note"]

def chromiumHeadersWithoutNote : List Str :=
  [str "name", str "url", str "username", str "password"]

def firefoxHeaders : List Str :=
  [str "url", str "username", str "password", str "httprealm", str "formactionorigin", str "guid",
    str "timecreated", str "timelastused", str "timepasswordchanged"]

/-- The name of the format of an accepted header. -/
def formatOf (header : List Str) : Option Str :=
  if header = chromiumHeaders ∨ header = chromiumHeadersWithoutNote then
    some (str "Chrome, Edge or Brave password CSV")
  else if header = firefoxHeaders then some (str "Firefox password CSV")
  else none

/-- `row[header.IndexOf(name)]`, and the empty text where the header has no such name. -/
def cell (header row : List Str) (name : String) : Str :=
  ((header.idxOf? (str name)).bind fun index => row[index]?).getD []

/-- The entry of a row. -/
def rowEntry (header row : List Str) (origin : Str) : VaultEntry :=
  ⟨none, some (cell header row "name"), some origin, some (cell header row "username"),
    some (cell header row "password"), some (cell header row "note"), none⟩

/-- The local variables of the loop of `ParseExport`. -/
structure ExportRows where
  candidates : List VaultEntry
  identities : List Str
  invalid : Nat
  duplicate : Nat

/-- One row of the export. -/
def ExportRows.read (W : WorkflowPlatform) (header : List Str) (rows : ExportRows) (row : List Str) :
    Except WorkflowError ExportRows :=
  if row.all (· = []) then .ok rows
  else if row.length ≠ header.length then .ok { rows with invalid := rows.invalid + 1 }
  else
    match normalizeSecureOriginText W (some (cell header row "url")) with
    | .error (.vault (.argument _)) => .ok { rows with invalid := rows.invalid + 1 }
    | .error e => .error e
    | .ok origin =>
        let entry := rowEntry header row origin
        if (validateEntry W.toVaultPlatform entry).isSome then
          .ok { rows with invalid := rows.invalid + 1 }
        else
          let identity := origin ++ 0 :: cell header row "username"
          if identity ∈ rows.identities then .ok { rows with duplicate := rows.duplicate + 1 }
          else .ok { rows with
            candidates := rows.candidates ++ [entry], identities := identity :: rows.identities }

/-- The data rows of the export. -/
def ExportRows.readAll (W : WorkflowPlatform) (header : List Str) :
    List (List Str) → ExportRows → Except WorkflowError ExportRows
  | [], rows => .ok rows
  | row :: rest, rows => do
      let rows ← rows.read W header row
      ExportRows.readAll W header rest rows

/-- `BitConverter.ToString(value).Replace("-", "")`. -/
def upperHex (data : Bytes) : Str :=
  (hexText data).map fun c => if 97 ≤ c.val then Fin.ofNat _ (c.val - 32) else c

/-- The text of an export. -/
def exportText (path : Option Str) (file : ExportFile) : Except WorkflowError Str := do
  let invalid (text : String) : WorkflowError := .vault (.invalidData (str text))
  require (isBlank (path.getD []) = false) (.vault (.argument (str "Choose a CSV export.")))
  require (file.regular = true) (invalid "The credential export must be a regular file.")
  require (file.csv = true) (invalid "The credential export must be a .csv file.")
  require (0 < file.length ∧ file.length ≤ maximumExportBytes)
    (invalid "The credential export size is outside policy.")
  let text ← fromOption (Text.decodeUtf8 file.raw)
    (invalid "The credential export must be strict UTF-8.")
  require (0 ∉ text) (invalid "The credential export contains a null character.")
  pure text

/-- `ParseExport`. -/
def parseExport (I : ImportPlatform) (path : Option Str) (file : ExportFile) :
    Except WorkflowError ImportPlan := do
  let text ← exportText path file
  let rows ← (Csv.parseCsv text).mapError .vault
  match rows with
  | first :: second :: rest => do
      let header := first.map fun value => I.toLowerInvariant (trimOf isWhiteSpace value)
      let format ← fromOption (formatOf header) (.vault (.invalidData
        (str "CSV headers are not an accepted browser password export.")))
      let read ← ExportRows.readAll I.toWorkflowPlatform header (second :: rest) ⟨[], [], 0, 0⟩
      pure ⟨format, rows.length - 1, read.invalid, read.duplicate, read.candidates, file.raw.length,
        upperHex (I.sha256 file.raw)⟩
  | _ => .error (.vault (.invalidData (str "The credential export has no data rows.")))

/-! ## Imports -/

/-- `BrowserCredentialImportResult`. -/
structure ImportResult where
  imported : Nat
  existingSkipped : Nat

/-- `Identity`. -/
def identity (W : WorkflowPlatform) (entry : VaultEntry) : Except WorkflowError Str := do
  let origin ← normalizeSecureOriginText W entry.url
  pure (origin ++ 0 :: entry.username.getD [])

/-- What the calls of the vault meet: what each save draws from the machine, and the calls that
fail and store nothing. -/
structure VaultCalls where
  fresh : Nat → Fresh
  saveFault : Nat → Option VaultError
  deleteFault : Str → Option VaultError

/-- `vault.Save(entry)`, the n-th one. -/
def VaultCalls.save (calls : VaultCalls) (P : VaultPlatform) (n : Nat) (v : Vault) (entry : VaultEntry) :
    Except VaultError (VaultEntry × Vault) :=
  match calls.saveFault n with
  | some e => .error e
  | none => Browser.save P v entry (calls.fresh n)

/-- `try { vault.Delete(id); } catch (Exception) { }`. -/
def VaultCalls.delete (calls : VaultCalls) (v : Vault) (id : Str) : Vault :=
  match calls.deleteFault id with
  | some _ => v
  | none =>
      match Browser.delete v id with
      | .ok (_, v') => v'
      | .error _ => v

/-- The local variables of `ImportNoOverwrite`, and the vault. -/
structure ImportState where
  existing : List Str
  created : List Str
  skipped : Nat
  vault : Vault

/-- One candidate, and the exception it raises. -/
def ImportState.candidate (W : WorkflowPlatform) (calls : VaultCalls) (st : ImportState)
    (candidate : VaultEntry) : Option WorkflowError × ImportState :=
  match identity W candidate with
  | .error e => (some e, st)
  | .ok name =>
      if name ∈ st.existing then (none, { st with skipped := st.skipped + 1 })
      else
        match calls.save W.toVaultPlatform st.created.length st.vault candidate with
        | .error e => (some (.vault e), st)
        | .ok (saved, v) =>
            if isBlank (saved.id.getD []) then
              (some (.vault (.invalidOperation
                (str "The vault did not confirm an imported credential."))), { st with vault := v })
            else (none, { st with
              existing := name :: st.existing, created := st.created ++ [saved.id.getD []], vault := v })

/-- The loop over the candidates. -/
def ImportState.loop (W : WorkflowPlatform) (calls : VaultCalls) :
    List VaultEntry → ImportState → Option WorkflowError × ImportState
  | [], st => (none, st)
  | c :: rest, st =>
      match st.candidate W calls c with
      | (some e, st) => (some e, st)
      | (none, st) => ImportState.loop W calls rest st

/-- The identities that are in the vault before an import. -/
def existingIdentities (W : WorkflowPlatform) (v : Vault) : Except WorkflowError (List Str) := do
  let status ← (getStatus W.toVaultPlatform v).mapError .vault
  require (status.isAvailable = true ∧ status.isUnlocked = true)
    (.vault (.invalidOperation (str "Unlock the ZSEC password vault before importing.")))
  let entries ← (search W.toVaultPlatform v (some [])).mapError .vault
  entries.mapM (identity W)

/-- `ImportNoOverwrite`. -/
def importNoOverwrite (W : WorkflowPlatform) (calls : VaultCalls) (v : Vault) (plan : ImportPlan) :
    Except WorkflowError ImportResult × Vault :=
  match existingIdentities W v with
  | .error e => (.error e, v)
  | .ok existing =>
      match ImportState.loop W calls plan.candidates ⟨existing, [], 0, v⟩ with
      | (some e, st) => (.error e, st.created.reverse.foldl calls.delete st.vault)
      | (none, st) => (.ok ⟨st.created.length, st.skipped⟩, st.vault)

end ZsecShield.Browser
