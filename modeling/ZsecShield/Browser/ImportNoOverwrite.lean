import ZsecShield.Browser.CredentialImport
import ZsecShield.Lib.Pattern

/-!
# Imports are all or nothing

The candidates of an export have an origin in normal form and a username without NUL, and no two of
them have both in common (`ofExport_of_parseExport`).  So the identities of an import stand for the
pairs of origin and username.  The files an import has added so far are those of the candidates it
has read that the vault did not have (`Midway`), and deleting them gives the vault back.
-/

namespace ZsecShield.Browser

open Text (Str str CodePoint)
open Checks

/-! ## Characters of an export -/

namespace Csv

/-- Every field of the table consists of characters of a kind. -/
def Consists (p : CodePoint → Prop) (table : List (List Str)) : Prop :=
  ∀ row ∈ table, ∀ field ∈ row, ∀ c ∈ field, p c

/-- Every text of a reader consists of characters of a kind. -/
structure Reader.Consists (p : CodePoint → Prop) (r : Reader) : Prop where
  rows : Csv.Consists p r.rows
  row : Csv.Consists p [r.row]
  field : ∀ c ∈ r.field, p c

variable {p : CodePoint → Prop}

theorem Consists.append {table table' : List (List Str)} (h : Consists p table)
    (h' : Consists p table') : Consists p (table ++ table') := by
  intro row hrow
  rcases List.mem_append.1 hrow with hrow | hrow
  · exact h row hrow
  · exact h' row hrow

theorem consists_nil_row : Consists p [[]] := by
  intro row hrow field hfield
  cases List.mem_singleton.1 hrow
  exact absurd hfield List.not_mem_nil

theorem Consists.snoc {row : List Str} {field : Str} (hrow : Consists p [row])
    (hfield : ∀ c ∈ field, p c) : Consists p [row ++ [field]] := by
  intro row' hrow' f hf
  cases List.mem_singleton.1 hrow'
  rcases List.mem_append.1 hf with hf | hf
  · exact hrow row List.mem_cons_self f hf
  · cases List.mem_singleton.1 hf
    exact hfield

theorem Reader.Consists.addField {r r' : Reader} (h : r.Consists p) (hadd : r.addField = .ok r') :
    r'.Consists p := by
  rw [addField_eq_ok hadd]
  exact ⟨h.rows, h.row.snoc h.field, List.forall_mem_nil _⟩

theorem Reader.Consists.addRow {r r' : Reader} (h : r.Consists p) (hadd : r.addRow = .ok r') :
    r'.Consists p := by
  unfold Reader.addRow at hadd
  split at hadd
  · cases hadd
    exact ⟨h.rows, consists_nil_row, h.field⟩
  · obtain ⟨-, -, hadd⟩ := bind_eq_ok.1 hadd
    cases hadd
    exact ⟨h.rows.append h.row, consists_nil_row, h.field⟩

theorem Reader.Consists.append {r : Reader} (h : r.Consists p) {c : CodePoint} (hc : p c) :
    (r.append c).Consists p := by
  refine ⟨h.rows, h.row, fun d hd => ?_⟩
  rcases List.mem_append.1 hd with hd | hd
  · exact h.field d hd
  · cases List.mem_singleton.1 hd
    exact hc

theorem Reader.Consists.step {r r' : Reader} (h : r.Consists p) {c : CodePoint} (hc : p c)
    {next : Option CodePoint} {skip : Bool} (hstep : r.step c next = .ok (r', skip)) :
    r'.Consists p := by
  have hquoted (b : Bool) : Reader.Consists p { r with quoted := b } := ⟨h.rows, h.row, h.field⟩
  unfold Reader.step at hstep
  split at hstep
  · split at hstep
    · rename_i hquote
      split at hstep
      · cases hstep
        exact h.append (hquote ▸ hc)
      · cases hstep
        exact hquoted false
    · cases hstep
      exact h.append hc
  · split at hstep
    · obtain ⟨-, -, hstep⟩ := bind_eq_ok.1 hstep
      cases hstep
      exact hquoted true
    · split at hstep
      · obtain ⟨r₁, hfield, hstep⟩ := bind_eq_ok.1 hstep
        cases hstep
        exact h.addField hfield
      · split at hstep
        · obtain ⟨r₁, hfield, hstep⟩ := bind_eq_ok.1 hstep
          obtain ⟨r₂, hrow, hstep⟩ := bind_eq_ok.1 hstep
          cases hstep
          exact (h.addField hfield).addRow hrow
        · cases hstep
          exact h.append hc

theorem Reader.Consists.read {text : Str} (htext : ∀ c ∈ text, p c) : ∀ {skip : Bool} {r r' : Reader},
    r.Consists p → Reader.read skip text r = .ok r' → r'.Consists p := by
  induction text with
  | nil =>
      intro skip r r' h hread
      cases skip <;> (cases hread; exact h)
  | cons c rest ih =>
      intro skip r r' h hread
      rw [List.forall_mem_cons] at htext
      cases skip with
      | true => exact ih htext.2 h hread
      | false =>
          obtain ⟨⟨r₁, skip⟩, hstep, hread⟩ := bind_eq_ok.1 hread
          obtain ⟨-, -, hread⟩ := bind_eq_ok.1 hread
          exact ih htext.2 (h.step htext.1 hstep) hread

/-- The fields of an export hold nothing but characters of its text. -/
theorem consists_parseCsv {text : Str} (htext : ∀ c ∈ text, p c) {rows : List (List Str)}
    (h : parseCsv text = .ok rows) : Consists p rows := by
  obtain ⟨r, hread, h⟩ := bind_eq_ok.1 h
  have hnone : Consists p [] := List.forall_mem_nil _
  have hstart : Reader.Consists p ⟨[], [], [], false⟩ :=
    ⟨hnone, consists_nil_row, List.forall_mem_nil _⟩
  have hend := hstart.read htext hread
  obtain ⟨-, -, h⟩ := bind_eq_ok.1 h
  split at h
  · obtain ⟨r₁, hfield, h⟩ := bind_eq_ok.1 h
    obtain ⟨r₂, hrow, h⟩ := bind_eq_ok.1 h
    cases h
    exact ((hend.addField hfield).addRow hrow).rows
  · cases h
    exact hend.rows

end Csv

/-! ## The candidates of an export -/

/-- A character of an export: no NUL, and no half of a pair. -/
def InExport (c : CodePoint) : Prop := c ≠ 0 ∧ ¬ Text.IsSurrogate c

/-- An entry as a row of an export makes it. -/
structure Exported (W : WorkflowPlatform) (entry : VaultEntry) (origin username : Str) : Prop where
  id : entry.id = none
  normal : IsOrigin W origin
  inUsername : ∀ c ∈ username, InExport c
  url : entry.url = some origin
  username : entry.username = some username
  displayName : Text.Encodable (entry.displayName.getD [])
  password : Text.Encodable (entry.password.getD [])
  notes : Text.Encodable (entry.notes.getD [])

/-- The text that stands for an origin and a username. -/
def identityText (origin username : Str) : Str := origin ++ 0 :: username

/-- Usernames without NUL are told apart by the identities, and so are their origins. -/
theorem identityText_inj {origin origin' username username' : Str} (h : 0 ∉ username)
    (h' : 0 ∉ username') (heq : identityText origin username = identityText origin' username') :
    origin = origin' ∧ username = username' := by
  have hturned : username.reverse ++ 0 :: origin.reverse =
      username'.reverse ++ 0 :: origin'.reverse := by
    have hreverse := congrArg List.reverse heq
    simpa [identityText] using hreverse
  obtain ⟨husername, horigin⟩ := (Pattern.append_cons_inj
    (fun hmem => h (List.mem_reverse.1 hmem)) (fun hmem => h' (List.mem_reverse.1 hmem))).1 hturned
  exact ⟨List.reverse_injective horigin, List.reverse_injective husername⟩

/-- Candidates of an export: no two have the same origin and the same username. -/
structure OfExport (W : WorkflowPlatform) (candidates : List VaultEntry) : Prop where
  exported : ∀ entry ∈ candidates, ∃ origin username, Exported W entry origin username
  distinct : candidates.Pairwise fun a b => ¬ (a.url = b.url ∧ a.username = b.username)

variable {W : WorkflowPlatform}

/-- The rows read so far, with the identities of their candidates. -/
structure ExportRows.Reads (W : WorkflowPlatform) (rows : ExportRows) : Prop where
  ofExport : OfExport W rows.candidates
  identities : ∀ entry ∈ rows.candidates, ∀ origin username, Exported W entry origin username →
    identityText origin username ∈ rows.identities

theorem inExport_cell {header row : List Str} (hrow : ∀ field ∈ row, ∀ c ∈ field, InExport c)
    (name : String) : ∀ c ∈ cell header row name, InExport c := by
  intro c hc
  unfold cell at hc
  cases hfield : (header.idxOf? (str name)).bind fun index => row[index]? with
  | none =>
      rw [hfield] at hc
      cases hc
  | some field =>
      rw [hfield] at hc
      obtain ⟨index, -, hindex⟩ := Option.bind_eq_some_iff.1 hfield
      exact hrow field (List.mem_of_getElem? hindex) c hc

theorem encodable_of_inExport {s : Str} (h : ∀ c ∈ s, InExport c) : Text.Encodable s :=
  fun c hc => (h c hc).2

theorem nul_notin_of_inExport {s : Str} (h : ∀ c ∈ s, InExport c) : 0 ∉ s :=
  fun hmem => (h 0 hmem).1 rfl

theorem exported_rowEntry {header row : List Str} (hrow : ∀ field ∈ row, ∀ c ∈ field, InExport c)
    {origin : Str} (hnormal : IsOrigin W origin) :
    Exported W (rowEntry header row origin) origin (cell header row "username") where
  id := rfl
  url := rfl
  username := rfl
  normal := hnormal
  inUsername := inExport_cell hrow "username"
  displayName := encodable_of_inExport (inExport_cell hrow "name")
  password := encodable_of_inExport (inExport_cell hrow "password")
  notes := encodable_of_inExport (inExport_cell hrow "note")

/-- One more candidate of another identity. -/
theorem ExportRows.Reads.snoc {rows : ExportRows} (h : rows.Reads W) {entry : VaultEntry}
    {origin username : Str} (hentry : Exported W entry origin username)
    (hnew : identityText origin username ∉ rows.identities) :
    ExportRows.Reads W { rows with
      candidates := rows.candidates ++ [entry]
      identities := identityText origin username :: rows.identities } := by
  have hsame (o u : Str) (ho : Exported W entry o u) :
      identityText o u = identityText origin username := by
    have horigin : o = origin := Option.some.inj (ho.url.symm.trans hentry.url)
    have husername : u = username := Option.some.inj (ho.username.symm.trans hentry.username)
    rw [horigin, husername]
  refine ⟨⟨?_, ?_⟩, ?_⟩
  · intro e he
    rcases List.mem_append.1 he with he | he
    · exact h.ofExport.exported e he
    · cases List.mem_singleton.1 he
      exact ⟨origin, username, hentry⟩
  · refine List.pairwise_append.2 ⟨h.ofExport.distinct, List.pairwise_singleton _ _, ?_⟩
    rintro a ha b hb ⟨hurl, husername⟩
    cases List.mem_singleton.1 hb
    obtain ⟨o, u, hexported⟩ := h.ofExport.exported a ha
    have ho : o = origin :=
      Option.some.inj (hexported.url.symm.trans (hurl.trans hentry.url))
    have hu : u = username :=
      Option.some.inj (hexported.username.symm.trans (husername.trans hentry.username))
    subst ho hu
    exact hnew (h.identities a ha o u hexported)
  · intro e he o u ho
    rcases List.mem_append.1 he with he | he
    · exact List.mem_cons_of_mem _ (h.identities e he o u ho)
    · cases List.mem_singleton.1 he
      rw [hsame o u ho]
      exact List.mem_cons_self

theorem ExportRows.Reads.read (hW : W.Assumed) {header row : List Str} {rows rows' : ExportRows}
    (h : rows.Reads W) (hrow : ∀ field ∈ row, ∀ c ∈ field, InExport c)
    (hread : rows.read W header row = .ok rows') : rows'.Reads W := by
  have hother (rows' : ExportRows) (hcandidates : rows'.candidates = rows.candidates)
      (hidentities : rows'.identities = rows.identities) : rows'.Reads W := by
    refine ⟨?_, ?_⟩
    · rw [hcandidates]
      exact h.ofExport
    · rw [hcandidates, hidentities]
      exact h.identities
  unfold ExportRows.read at hread
  split at hread
  · cases hread
    exact h
  · split at hread
    · cases hread
      exact hother _ rfl rfl
    · split at hread
      · cases hread
        exact hother _ rfl rfl
      · cases hread
      · rename_i origin horigin
        dsimp only at hread
        split at hread
        · cases hread
          exact hother _ rfl rfl
        · split at hread
          · cases hread
            exact hother _ rfl rfl
          · rename_i hnew
            cases hread
            obtain ⟨s, uri, -, -, -, huri, hnormal⟩ := normalizeSecureOriginText_eq_ok.1 horigin
            exact h.snoc (exported_rowEntry hrow (isOrigin_of_normalize hW huri hnormal)) hnew

theorem ExportRows.Reads.readAll (hW : W.Assumed) {header : List Str} {data : List (List Str)}
    (hdata : Csv.Consists InExport data) : ∀ {rows rows' : ExportRows}, rows.Reads W →
    ExportRows.readAll W header data rows = .ok rows' → rows'.Reads W := by
  induction data with
  | nil =>
      intro rows rows' h hread
      cases hread
      exact h
  | cons row rest ih =>
      intro rows rows' h hread
      obtain ⟨hrow, hrest⟩ := List.forall_mem_cons.1 hdata
      obtain ⟨rows₁, hread₁, hread⟩ := bind_eq_ok.1 hread
      exact ih hrest (h.read hW hrow hread₁) hread

/-- What is decoded has an encoding. -/
theorem encodable_of_decodeUtf8 {raw : Bytes} {text : Str} (h : Text.decodeUtf8 raw = some text) :
    Text.Encodable text := by
  obtain ⟨chars, -, rfl⟩ := Option.map_eq_some_iff.1 h
  intro c hc hsurrogate
  obtain ⟨x, -, rfl⟩ := List.mem_map.1 hc
  rw [← Text.toChar_eq_none, Text.toChar_ofChar] at hsurrogate
  cases hsurrogate

/-- The candidates of a plan. -/
theorem ofExport_of_parseExport {I : ImportPlatform} (hW : I.toWorkflowPlatform.Assumed)
    {path : Option Str} {file : ExportFile} {plan : ImportPlan}
    (h : parseExport I path file = .ok plan) :
    OfExport I.toWorkflowPlatform plan.candidates := by
  obtain ⟨text, htext, h⟩ := bind_eq_ok.1 h
  obtain ⟨rows, hrows, h⟩ := bind_eq_ok.1 h
  simp only [exportText, bind_eq_ok, fromOption_eq_ok, require_eq_ok] at htext
  obtain ⟨-, -, -, -, -, -, -, -, text', hdecoded, -, hnul, htext⟩ := htext
  cases htext
  have hin : ∀ c ∈ text, InExport c := by
    intro c hc
    refine ⟨fun hzero => hnul (hzero ▸ hc), encodable_of_decodeUtf8 hdecoded c hc⟩
  have hall := Csv.consists_parseCsv hin (mapError_eq_ok.1 hrows)
  split at h
  · rename_i first second rest
    obtain ⟨format, -, h⟩ := bind_eq_ok.1 h
    obtain ⟨read, hread, h⟩ := bind_eq_ok.1 h
    cases h
    have hstart : ExportRows.Reads I.toWorkflowPlatform ⟨[], [], 0, 0⟩ :=
      ⟨⟨List.forall_mem_nil _, .nil⟩, List.forall_mem_nil _⟩
    exact (hstart.readAll hW (List.forall_mem_cons.1 hall).2 hread).ofExport
  · cases h

/-! ## What an import has stored -/

/-- The vault has an entry with the origin and the username. -/
def Present (W : WorkflowPlatform) (v : Vault) (entry : VaultEntry) : Prop :=
  ∃ c origin, retrieve W.toVaultPlatform v c.id = .ok c ∧
    normalizeSecureOriginText W (some c.url) = .ok origin ∧ entry.url = some origin ∧
    entry.username = some c.username

/-- A record with the texts of an entry and the address of its origin. -/
structure RecordOf (W : WorkflowPlatform) (entry : VaultEntry) (c : Credential) : Prop where
  displayName : c.displayName = entry.displayName.getD []
  username : some c.username = entry.username
  password : some c.password = entry.password
  notes : c.notes = entry.notes.getD []
  address : ∃ origin uri, entry.url = some origin ∧ W.tryCreate origin = some uri ∧
    normalizeSecureOrigin W uri = .ok origin ∧ c.url = uri.text

/-- The entry is stored under the id. -/
def Kept (W : WorkflowPlatform) (v : Vault) (id : Str) (entry : VaultEntry) : Prop :=
  ∃ c : Credential, c.id = id ∧ RecordOf W entry c ∧
    retrieve W.toVaultPlatform v id = if length16 c.url ≤ 2048 then .ok c
      else .error (.argument (str "Credential URL must be a bounded HTTP(S) URL."))

/-- What an import of entries has made of a vault: new files behind the old ones, one for each entry
that was not present. -/
structure Imports (W : WorkflowPlatform) (calls : VaultCalls) (v v' : Vault)
    (entries : List VaultEntry) (new : List (Str × VaultEntry)) : Prop where
  files : ∃ added, v' = { v with records := v.records ++ added } ∧
    added.map Prod.fst = new.map Prod.fst
  fresh : ∀ x ∈ new, IsId x.1 ∧ x.1 ∉ v.records.map Prod.fst
  nodup : (new.map Prod.fst).Nodup
  untouched : ∀ id c, retrieve W.toVaultPlatform v id = .ok c →
    retrieve W.toVaultPlatform v' id = .ok c
  kept : ∀ x ∈ new, Kept W v' x.1 x.2
  once : (new.map Prod.snd).Sublist entries
  exactly : ∀ entry ∈ entries, entry ∈ new.map Prod.snd ↔ ¬ Present W v entry
  /-- No save failed. -/
  saves : ∀ n < new.length, calls.saveFault n = none

theorem insertMember_of_notin {members : List (Str × Bytes)} {key : Str} {data : Bytes}
    (h : key ∉ members.map Prod.fst) :
    Json.insertMember members key data = members ++ [(key, data)] := by
  induction members with
  | nil => rfl
  | cons m members ih =>
      obtain ⟨k, value⟩ := m
      rw [List.map_cons, List.mem_cons, not_or] at h
      rw [Json.insertMember, if_neg (Ne.symm h.1), ih h.2, List.cons_append]

theorem not_isBlank_of_isId {id : Str} (h : IsId id) : ¬ isBlank id = true := by
  intro hblank
  obtain ⟨hlength, hdigits⟩ := h
  obtain ⟨c, rest, rfl⟩ : ∃ c rest, id = c :: rest := by
    cases id with
    | nil => cases hlength
    | cons c rest => exact ⟨c, rest, rfl⟩
  have hdigit := hdigits c List.mem_cons_self
  have hspace : isWhiteSpace c = true := List.all_eq_true.1 hblank c List.mem_cons_self
  rw [not_isWhiteSpace (by omega)] at hspace
  cases hspace

/-- The save of a candidate: one new file, which keeps it. -/
theorem save_exported (hW : W.Assumed) {calls : VaultCalls} {n : Nat} {v v' : Vault}
    {entry saved : VaultEntry} {origin username : Str} (hentry : Exported W entry origin username)
    (h : calls.save W.toVaultPlatform n v entry = .ok (saved, v')) :
    calls.saveFault n = none ∧ ∃ id data, saved.id = some id ∧ IsId id ∧
      id ∉ v.records.map Prod.fst ∧ v' = { v with records := v.records ++ [(id, data)] } ∧
      (∀ stem, validateId stem ≠ .ok id →
        retrieve W.toVaultPlatform v' stem = retrieve W.toVaultPlatform v stem) ∧
      Kept W v' id entry := by
  unfold VaultCalls.save at h
  split at h
  · cases h
  · rename_i hfault
    refine ⟨hfault, ?_⟩
    obtain ⟨c, hsave, rfl, hname, husername, hpassword, hnotes, url, uri, hurl, huri, htext⟩ :=
      save_eq_ok h
    obtain ⟨_, _, _, _, _, _, _, _, _, _, hwrite⟩ := saveCredential_eq_ok hsave
    obtain ⟨text, _, _, _, _, hv'⟩ := writeJsonAtomic_eq_ok hwrite
    obtain ⟨creating, hidentify, hnew⟩ := created_saved hsave
    have hid := isId_of_identify hidentify
    rw [hentry.id] at hidentify
    have hfresh := hnew (identify_none hidentify)
    rw [insertMember_of_notin hfresh] at hv'
    refine ⟨c.id, getBytes text, rfl, hid, hfresh, hv', fun stem => retrieve_other hsave, ?_⟩
    rw [hentry.url] at hurl
    cases hurl
    have hwritten : c.written.url = c.url :=
      sanitize_eq_iff.2 (htext ▸ hW.vault.encodes _ _ huri)
    have husernameText : c.username = username := by
      rw [husername, hentry.username]
      rfl
    refine ⟨c.written, sanitize_eq_iff.2 hid.ascii.encodable, ⟨?_, ?_, ?_, ?_, ?_⟩, ?_⟩
    · rw [← hname]
      exact sanitize_eq_iff.2 (hname ▸ hentry.displayName)
    · rw [hentry.username, ← husernameText]
      exact congrArg some (sanitize_eq_iff.2
        (encodable_of_inExport (husernameText ▸ hentry.inUsername)))
    · have hencodable := hentry.password
      rw [hpassword] at hencodable ⊢
      exact congrArg some (sanitize_eq_iff.2 hencodable)
    · rw [← hnotes]
      exact sanitize_eq_iff.2 (hnotes ▸ hentry.notes)
    · obtain ⟨-, root, hroot, hnormal⟩ := hentry.normal
      rw [huri] at hroot
      cases hroot
      exact ⟨origin, uri, hentry.url, huri, hnormal, hwritten.trans htext⟩
    · rw [hwritten]
      exact retrieve_saved hW.vault hsave

/-- The deletion of the last file. -/
theorem delete_last {calls : VaultCalls} (hdelete : ∀ id, calls.deleteFault id = none) {v : Vault}
    {masterKey : Bytes} (hkey : requireUnlocked v = .ok masterKey) {records : List (Str × Bytes)}
    {id : Str} (hid : IsId id) (hnew : id ∉ records.map Prod.fst) (data : Bytes) :
    calls.delete { v with records := records ++ [(id, data)] } id =
      { v with records := records } := by
  have hunlocked : requireUnlocked { v with records := records ++ [(id, data)] } = .ok masterKey :=
    hkey
  have hfound : (Json.lookup id (records ++ [(id, data)])).isSome = true := by
    rw [← insertMember_of_notin hnew, Json.lookup_insertMember, if_pos rfl]
    rfl
  have hrest : (records ++ [(id, data)]).filter (fun m => decide (m.1 ≠ id)) = records := by
    rw [List.filter_append, List.filter_eq_self.2, List.filter_singleton]
    · simp
    · intro m hm
      refine decide_eq_true fun heq => hnew ?_
      rw [← heq]
      exact List.mem_map_of_mem hm
  rw [VaultCalls.delete, hdelete]
  dsimp only
  simp only [Browser.delete, hunlocked, bind_ok, validateId_of_isId hid, if_pos hfound, hrest]
  rfl

section Imports

variable {calls : VaultCalls} {v v' v'' : Vault} {entries : List VaultEntry}
  {new : List (Str × VaultEntry)} {entry : VaultEntry}

theorem Imports.nothing (W : WorkflowPlatform) (calls : VaultCalls) (v : Vault) :
    Imports W calls v v [] [] where
  files := ⟨[], by rw [List.append_nil], rfl⟩
  fresh := List.forall_mem_nil _
  nodup := List.nodup_nil
  untouched _ _ h := h
  kept := List.forall_mem_nil _
  once := List.Sublist.refl []
  exactly := List.forall_mem_nil _
  saves := nofun

/-- An entry that is present is skipped. -/
theorem Imports.skip (h : Imports W calls v v' entries new) (hpresent : Present W v entry) :
    Imports W calls v v' (entries ++ [entry]) new := by
  refine { h with once := h.once.trans (List.sublist_append_left _ _), exactly := fun e he => ?_ }
  rcases List.mem_append.1 he with he | he
  · exact h.exactly e he
  · cases List.mem_singleton.1 he
    refine iff_of_false (fun hmem => ?_) (not_not_intro hpresent)
    exact (h.exactly entry (h.once.subset hmem)).1 hmem hpresent

/-- An entry that is not present is stored in a new file. -/
theorem Imports.add (h : Imports W calls v v' entries new) (habsent : ¬ Present W v entry)
    (hfault : calls.saveFault new.length = none) {id : Str} {data : Bytes} (hid : IsId id)
    (hfresh : id ∉ v'.records.map Prod.fst)
    (hfile : v'' = { v' with records := v'.records ++ [(id, data)] })
    (hothers : ∀ stem, validateId stem ≠ .ok id →
      retrieve W.toVaultPlatform v'' stem = retrieve W.toVaultPlatform v' stem)
    (hkept : Kept W v'' id entry) :
    Imports W calls v v'' (entries ++ [entry]) (new ++ [(id, entry)]) := by
  obtain ⟨added, hvault, hadded⟩ := h.files
  have hkeys : v'.records.map Prod.fst = v.records.map Prod.fst ++ new.map Prod.fst := by
    rw [hvault, List.map_append, hadded]
  rw [hkeys, List.mem_append, not_or] at hfresh
  refine ⟨⟨added ++ [(id, data)], ?_, ?_⟩, ?_, ?_, ?_, ?_, ?_, ?_, ?_⟩
  · rw [hfile, hvault, List.append_assoc]
  · rw [List.map_append, List.map_append, hadded]
    rfl
  · intro x hx
    rcases List.mem_append.1 hx with hx | hx
    · exact h.fresh x hx
    · cases List.mem_singleton.1 hx
      exact ⟨hid, hfresh.1⟩
  · rw [List.map_append, List.nodup_append]
    refine ⟨h.nodup, List.nodup_singleton id, ?_⟩
    rintro a ha b hb rfl
    cases List.mem_singleton.1 hb
    exact hfresh.2 ha
  · intro stem c hread
    rw [hothers stem, h.untouched stem c hread]
    rw [retrieve_id hread]
    intro hsame
    cases hsame
    exact hfresh.1 (file_of_retrieve hread)
  · intro x hx
    rcases List.mem_append.1 hx with hold | hlast
    · obtain ⟨c, hc, hrecord, hread⟩ := h.kept x hold
      refine ⟨c, hc, hrecord, ?_⟩
      rw [← hread]
      refine hothers x.1 fun hsame => ?_
      rw [validateId_of_isId (h.fresh x hold).1] at hsame
      exact hfresh.2 (Except.ok.inj hsame ▸ List.mem_map_of_mem hold)
    · cases List.mem_singleton.1 hlast
      exact hkept
  · rw [List.map_append]
    exact h.once.append_right [entry]
  · intro e he
    rw [List.map_append, List.mem_append, List.map_singleton, List.mem_singleton]
    rcases List.mem_append.1 he with he | he
    · rw [h.exactly e he]
      refine ⟨?_, .inl⟩
      rintro (hnot | rfl)
      · exact hnot
      · exact habsent
    · cases List.mem_singleton.1 he
      exact iff_of_true (.inr rfl) habsent
  · intro n hn
    rw [List.length_append, List.length_singleton] at hn
    rcases Nat.lt_succ_iff_lt_or_eq.1 hn with hn | rfl
    · exact h.saves n hn
    · exact hfault

/-- Deleting the new files, the last one first, gives the vault back. -/
theorem rollback_added {calls : VaultCalls} (hdelete : ∀ id, calls.deleteFault id = none) {v : Vault}
    {masterKey : Bytes} (hkey : requireUnlocked v = .ok masterKey) (added : List (Str × Bytes)) :
    (∀ m ∈ added, IsId m.1 ∧ m.1 ∉ v.records.map Prod.fst) → (added.map Prod.fst).Nodup →
    (added.map Prod.fst).reverse.foldl calls.delete { v with records := v.records ++ added } = v := by
  induction added using List.reverseRecOn with
  | nil =>
      intro _ _
      rw [List.append_nil]
      rfl
  | append_singleton added m ih =>
      intro hfresh hnodup
      obtain ⟨id, data⟩ := m
      rw [List.map_append, List.nodup_append] at hnodup
      obtain ⟨hid, hnew⟩ := hfresh (id, data) (List.mem_append_right _ List.mem_cons_self)
      have hkeys : id ∉ (v.records ++ added).map Prod.fst := by
        rw [List.map_append, List.mem_append]
        rintro (hmem | hmem)
        · exact hnew hmem
        · exact hnodup.2.2 id hmem id List.mem_cons_self rfl
      have hlast : calls.delete { v with records := v.records ++ (added ++ [(id, data)]) } id =
          { v with records := v.records ++ added } := by
        rw [← List.append_assoc]
        exact delete_last hdelete hkey hid hkeys data
      rw [List.map_append, List.map_singleton, List.reverse_append, List.reverse_singleton,
        List.singleton_append, List.foldl_cons, hlast]
      exact ih (fun m hm => hfresh m (List.mem_append_left _ hm)) hnodup.1

end Imports

/-! ## Identities -/

theorem mem_of_mapM {α β ε : Type} {f : α → Except ε β} {as : List α} {bs : List β}
    (h : as.mapM f = .ok bs) (b : β) : b ∈ bs ↔ ∃ a ∈ as, f a = .ok b := by
  induction as generalizing bs with
  | nil =>
      cases h
      simp
  | cons a as ih =>
      rw [List.mapM_cons] at h
      obtain ⟨b', hb', h⟩ := bind_eq_ok.1 h
      obtain ⟨bs', hbs', h⟩ := bind_eq_ok.1 h
      cases h
      rw [List.mem_cons, ih hbs', List.exists_mem_cons_iff, hb', Except.ok.injEq]
      exact or_congr eq_comm Iff.rfl

theorem identity_eq_ok {entry : VaultEntry} {name : Str} : identity W entry = .ok name ↔
    ∃ origin, normalizeSecureOriginText W entry.url = .ok origin ∧
      name = identityText origin (entry.username.getD []) := by
  unfold identity
  rw [bind_eq_ok]
  refine exists_congr fun origin => and_congr_right fun _ => ?_
  exact ⟨fun h => (Except.ok.inj h).symm, fun h => congrArg Except.ok h.symm⟩

/-- The identity of a candidate. -/
theorem Exported.identity_eq {entry : VaultEntry} {origin username name : Str}
    (h : Exported W entry origin username) (hname : identity W entry = .ok name) :
    name = identityText origin username := by
  obtain ⟨origin', hnormal, rfl⟩ := identity_eq_ok.1 hname
  rw [h.url] at hnormal
  rw [h.normal.eq_of_normalize hnormal, h.username]
  rfl

/-- No username of a vault holds a NUL. -/
theorem nul_notin_username {P : VaultPlatform} {v : Vault} {id : Str} {c : Credential}
    (h : retrieve P v id = .ok c) : 0 ∉ c.username := by
  obtain ⟨masterKey, safeId, members, plaintext, -, -, -, -, hc⟩ := retrieve_eq_ok.1 h
  simp only [readCredential, bind_eq_ok] at hc
  obtain ⟨_, _, raw, _, _, _, url, _, name, _, username, husername, _, _, _, _, hc⟩ := hc
  cases hc
  exact (boundedText_eq_ok.1 husername).2.2

/-- The identities that an import starts with, of an unlocked vault, are those of its entries. -/
theorem existingIdentities_eq_ok {v : Vault} {existing : List Str}
    (h : existingIdentities W v = .ok existing) :
    (∃ masterKey, requireUnlocked v = .ok masterKey) ∧
      ∀ entry origin username, Exported W entry origin username →
        (identityText origin username ∈ existing ↔ Present W v entry) := by
  simp only [existingIdentities, bind_eq_ok, mapError_eq_ok] at h
  obtain ⟨status, -, -, -, entries, hsearch, h⟩ := h
  constructor
  · obtain ⟨items, hitems, -⟩ := bind_eq_ok.1 hsearch
    obtain ⟨masterKey, hkey, -⟩ := bind_eq_ok.1 hitems
    exact ⟨masterKey, hkey⟩
  · intro entry origin username hentry
    rw [mem_of_mapM h]
    constructor
    · rintro ⟨e, he, hname⟩
      obtain ⟨⟨c, hread, rfl⟩, -⟩ := (mem_search hsearch e).1 he
      obtain ⟨o, ho, hname⟩ := identity_eq_ok.1 hname
      obtain ⟨rfl, husername⟩ := identityText_inj (nul_notin_of_inExport hentry.inUsername)
        (nul_notin_username hread) hname
      refine ⟨c, origin, hread, ho, hentry.url, ?_⟩
      rw [hentry.username, husername]
    · rintro ⟨c, o, hread, ho, hurl, husername⟩
      have hsame : o = origin := Option.some.inj (hurl.symm.trans hentry.url)
      subst hsame
      have huser : username = c.username :=
        Option.some.inj (hentry.username.symm.trans husername)
      refine ⟨{ toEntry c with password := none }, (mem_search hsearch _).2 ⟨⟨c, hread, rfl⟩, ?_⟩,
        identity_eq_ok.2 ⟨o, ho, ?_⟩⟩
      · rfl
      · rw [huser]
        rfl

/-! ## The loop -/

/-- An import that has read some of the candidates. -/
structure Midway (W : WorkflowPlatform) (calls : VaultCalls) (v : Vault) (existing : List Str)
    (read : List VaultEntry) (st : ImportState) (new : List (Str × VaultEntry)) : Prop where
  imports : Imports W calls v st.vault read new
  created : st.created = new.map Prod.fst
  names : ∀ name, name ∈ st.existing ↔
    name ∈ existing ∨ ∃ entry ∈ new.map Prod.snd, identity W entry = .ok name
  counts : new.length + st.skipped = read.length

section Loop

variable {calls : VaultCalls} {v : Vault} {existing : List Str} {read : List VaultEntry}
  {st st' : ImportState} {new : List (Str × VaultEntry)} {entry : VaultEntry}

/-- One candidate: it is skipped or stored, or nothing changes. -/
theorem Midway.candidate (hW : W.Assumed) (h : Midway W calls v existing read st new)
    (hexisting : ∀ entry origin username, Exported W entry origin username →
      (identityText origin username ∈ existing ↔ Present W v entry))
    (hcandidates : OfExport W (read ++ [entry])) {error : Option WorkflowError}
    (hstep : st.candidate W calls entry = (error, st')) :
    (error.isSome = true ∧ st' = st) ∨
      (error = none ∧ ∃ new', Midway W calls v existing (read ++ [entry]) st' new') := by
  obtain ⟨origin, username, hentry⟩ :=
    hcandidates.exported entry (List.mem_append_right _ List.mem_cons_self)
  have hdistinct := (List.pairwise_append.1 hcandidates.distinct).2.2
  unfold ImportState.candidate at hstep
  split at hstep
  · cases hstep
    exact .inl ⟨rfl, rfl⟩
  · rename_i name hname
    have htext := hentry.identity_eq hname
    split at hstep
    · rename_i hmem
      cases hstep
      have hpresent : Present W v entry := by
        rcases (h.names name).1 hmem with hold | ⟨e, he, hsame⟩
        · exact (hexisting entry origin username hentry).1 (htext ▸ hold)
        · -- another candidate has the identity, so the same origin and username
          have hread : e ∈ read := h.imports.once.subset he
          obtain ⟨o, u, hexported⟩ := hcandidates.exported e (List.mem_append_left _ hread)
          obtain ⟨ho, hu⟩ := identityText_inj (nul_notin_of_inExport hexported.inUsername)
            (nul_notin_of_inExport hentry.inUsername)
            ((hexported.identity_eq hsame).symm.trans htext)
          refine absurd ⟨?_, ?_⟩ (hdistinct e hread entry List.mem_cons_self)
          · rw [hexported.url, hentry.url, ho]
          · rw [hexported.username, hentry.username, hu]
      refine .inr ⟨rfl, new, h.imports.skip hpresent, h.created, h.names, ?_⟩
      have hcounts := h.counts
      rw [List.length_append, List.length_singleton]
      dsimp only
      omega
    · rename_i hnew
      have habsent : ¬ Present W v entry := fun hpresent =>
        hnew ((h.names name).2 (.inl (htext ▸ (hexisting entry origin username hentry).2 hpresent)))
      split at hstep
      · cases hstep
        exact .inl ⟨rfl, rfl⟩
      · rename_i saved w hsave
        obtain ⟨hfault, id, data, hid, hisId, hfresh, hfile, hothers, hkept⟩ :=
          save_exported hW hentry hsave
        have hlength : st.created.length = new.length := by rw [h.created, List.length_map]
        rw [hid, Option.getD_some, if_neg (not_isBlank_of_isId hisId)] at hstep
        cases hstep
        refine .inr ⟨rfl, new ++ [(id, entry)], ?_, ?_, ?_, ?_⟩
        · exact h.imports.add habsent (hlength ▸ hfault) hisId hfresh hfile hothers hkept
        · rw [h.created, List.map_append]
          rfl
        · intro other
          rw [List.mem_cons, h.names, List.map_append]
          simp only [List.mem_append, List.map_singleton, List.mem_singleton, or_and_right,
            exists_or, exists_eq_left, hname, Except.ok.injEq]
          rw [eq_comm]
          exact or_left_comm.trans (or_congr Iff.rfl or_comm)
        · have hcounts := h.counts
          rw [List.length_append, List.length_append, List.length_singleton, List.length_singleton]
          dsimp only
          omega

/-- The loop stops with nothing but the new files of the candidates it has read. -/
theorem Midway.loop (hW : W.Assumed)
    (hexisting : ∀ entry origin username, Exported W entry origin username →
      (identityText origin username ∈ existing ↔ Present W v entry))
    {rest : List VaultEntry} : ∀ {read : List VaultEntry} {st st' : ImportState}
      {new : List (Str × VaultEntry)} {error : Option WorkflowError},
      OfExport W (read ++ rest) → Midway W calls v existing read st new →
      ImportState.loop W calls rest st = (error, st') →
      ∃ read' new', Midway W calls v existing read' st' new' ∧
        (error = none → read' = read ++ rest) := by
  induction rest with
  | nil =>
      intro read st st' new error _ h hloop
      cases hloop
      exact ⟨read, new, h, fun _ => (List.append_nil read).symm⟩
  | cons entry rest ih =>
      intro read st st' new error hcandidates h hloop
      have hall : OfExport W ((read ++ [entry]) ++ rest) := by
        rw [List.append_assoc]
        exact hcandidates
      have hread : OfExport W (read ++ [entry]) :=
        ⟨fun e he => hall.exported e (List.mem_append_left _ he),
          (List.pairwise_append.1 hall.distinct).1⟩
      unfold ImportState.loop at hloop
      cases hstep : st.candidate W calls entry with
      | mk failed st₁ =>
          rw [hstep] at hloop
          rcases h.candidate hW hexisting hread hstep with ⟨hsome, rfl⟩ | ⟨rfl, new₁, h₁⟩
          · obtain ⟨e, rfl⟩ := Option.isSome_iff_exists.1 hsome
            cases hloop
            exact ⟨read, new, h, nofun⟩
          · obtain ⟨read', new', h', hend⟩ := ih hall h₁ hloop
            refine ⟨read', new', h', fun hnone => ?_⟩
            rw [hend hnone, List.append_assoc]
            rfl

end Loop

/-! ## The promise -/

/-- An import of an export gives the vault back as it was, if it fails, and otherwise has stored
every candidate that was not present. -/
theorem importNoOverwrite_allOrNothing {I : ImportPlatform} (hI : I.toWorkflowPlatform.Assumed)
    {path : Option Str} {file : ExportFile} {plan : ImportPlan}
    (hplan : parseExport I path file = .ok plan) (calls : VaultCalls)
    (hdelete : ∀ id, calls.deleteFault id = none) (v : Vault) :
    match importNoOverwrite I.toWorkflowPlatform calls v plan with
    | (.error _, v') => v' = v
    | (.ok result, v') => ∃ new, Imports I.toWorkflowPlatform calls v v' plan.candidates new ∧
        plan.candidates.Nodup ∧ result.imported = new.length ∧
        result.imported + result.existingSkipped = plan.candidates.length := by
  have hcandidates := ofExport_of_parseExport hI hplan
  have hnodup : plan.candidates.Nodup := by
    refine hcandidates.distinct.imp ?_
    rintro a b hdistinct rfl
    exact hdistinct ⟨rfl, rfl⟩
  unfold importNoOverwrite
  cases hexisting : existingIdentities I.toWorkflowPlatform v with
  | error e => rfl
  | ok existing =>
      obtain ⟨⟨masterKey, hkey⟩, hnames⟩ := existingIdentities_eq_ok hexisting
      have hstart : Midway I.toWorkflowPlatform calls v existing [] ⟨existing, [], 0, v⟩ [] :=
        ⟨Imports.nothing _ calls v, rfl, by simp, rfl⟩
      dsimp only
      cases hloop : ImportState.loop I.toWorkflowPlatform calls plan.candidates
          ⟨existing, [], 0, v⟩ with
      | mk error st =>
          have hall : OfExport I.toWorkflowPlatform ([] ++ plan.candidates) := hcandidates
          obtain ⟨read, new, h, hend⟩ := hstart.loop hI hnames hall hloop
          cases error with
          | some e =>
              obtain ⟨added, hvault, hadded⟩ := h.imports.files
              have hfresh : ∀ m ∈ added, IsId m.1 ∧ m.1 ∉ v.records.map Prod.fst := by
                intro m hm
                have hmem : m.1 ∈ new.map Prod.fst := hadded ▸ List.mem_map_of_mem hm
                obtain ⟨x, hx, hsame⟩ := List.mem_map.1 hmem
                rw [← hsame]
                exact h.imports.fresh x hx
              show st.created.reverse.foldl calls.delete st.vault = v
              rw [h.created, hvault, ← hadded]
              exact rollback_added hdelete hkey added hfresh (hadded ▸ h.imports.nodup)
          | none =>
              have hread : read = plan.candidates := hend rfl
              subst hread
              have hcounts := h.counts
              have hlength : st.created.length = new.length := by rw [h.created, List.length_map]
              refine ⟨new, h.imports, hnodup, hlength, ?_⟩
              dsimp only
              omega

/-! ## An export with one row -/

namespace Sample

def importHeader : List Str := [str "name", str "url", str "username", str "password"]

def importRow : List Str := [[], siteText, user, secret]

def importText : Str := str "name,url,username,password\n,https://example.com,user,secret\n"

def importFile : ExportFile := ⟨true, true, 60, (Text.encodeUtf8 importText).getD []⟩

def importPlatform : ImportPlatform := ⟨workflow userPrompt, toLower⟩

def imported : VaultEntry := ⟨none, some [], some siteText, some user, some secret, some [], none⟩

/-- No call of the vault fails. -/
def importCalls : VaultCalls := ⟨fun _ => fresh, fun _ => none, fun _ => none⟩

/-- A text without NUL is read from its file. -/
theorem exportText_file {text : Str} (hencodable : Text.Encodable text) (hnul : 0 ∉ text)
    {length : Nat} (hsize : 0 < length ∧ length ≤ maximumExportBytes) :
    exportText (some (str "export.csv")) ⟨true, true, length, (Text.encodeUtf8 text).getD []⟩ =
      .ok text := by
  obtain ⟨raw, hraw⟩ := Text.encodeUtf8_of_encodable hencodable
  have hpath : isBlank ((some (str "export.csv")).getD []) = false := by decide
  have hdecoded : Text.decodeUtf8 ((Text.encodeUtf8 text).getD []) = some text := by
    rw [hraw]
    exact Text.decodeUtf8_encodeUtf8 hraw
  rw [exportText]
  simp only [require_pos hpath, require_pos, require_pos hsize, bind_ok, hdecoded]
  dsimp only [fromOption]
  rw [bind_ok, require_pos hnul, bind_ok]
  rfl

theorem exportText_import : exportText (some (str "export.csv")) importFile = .ok importText :=
  exportText_file (Text.encodable_str _) (by decide +kernel) (by decide)

theorem parseCsv_import : Csv.parseCsv importText = .ok [importHeader, importRow] := by
  have hread : (Csv.parseCsv importText).toOption = some [importHeader, importRow] := by
    decide +kernel
  cases hparse : Csv.parseCsv importText with
  | error e =>
      rw [hparse] at hread
      cases hread
  | ok rows =>
      rw [hparse] at hread
      exact congrArg Except.ok (Option.some.inj hread)

theorem rowEntry_import : rowEntry importHeader importRow siteText = imported := by
  have hcells : cell importHeader importRow "name" = [] ∧
      cell importHeader importRow "username" = user ∧
      cell importHeader importRow "password" = secret ∧
      cell importHeader importRow "note" = [] := by
    decide +kernel
  rw [rowEntry, hcells.1, hcells.2.1, hcells.2.2.1, hcells.2.2.2]
  rfl

theorem normalize_siteText :
    normalizeSecureOriginText (workflow userPrompt) (some siteText) = .ok siteText := by
  have hsession := savesCandidate_user
  have hnormal : IsOrigin (workflow userPrompt) siteText :=
    ⟨by decide, site, tryCreate_siteText hsession.given hsession.url,
      normalizeSecureOrigin_site hsession.url⟩
  exact hnormal.again (by decide)

/-- The one candidate of the plan. -/
theorem parseExport_import : ∃ plan,
    parseExport importPlatform (some (str "export.csv")) importFile = .ok plan ∧
      plan.candidates = [imported] := by
  have hsession := savesCandidate_user
  have hheader : importHeader.map (fun value => importPlatform.toLowerInvariant
      (trimOf isWhiteSpace value)) = importHeader := by decide +kernel
  have hformat : formatOf importHeader = some (str "Chrome, Edge or Brave password CSV") := by
    decide +kernel
  have hurl : cell importHeader importRow "url" = siteText := by decide +kernel
  have hfilled : ¬ (importRow.all fun field => decide (field = [])) = true := by decide
  have hvalid : validateEntry (workflow userPrompt).toVaultPlatform imported = none :=
    validateEntry_candidate hsession.given hsession.url (by decide)
  have hobjections :
      ¬ (validateEntry (workflow userPrompt).toVaultPlatform imported).isSome = true := by
    rw [hvalid]
    decide
  have hrow : ExportRows.read (workflow userPrompt) importHeader ⟨[], [], 0, 0⟩ importRow =
      .ok ⟨[imported], [siteText ++ 0 :: cell importHeader importRow "username"], 0, 0⟩ := by
    rw [ExportRows.read, if_neg hfilled, if_neg (by decide), hurl, normalize_siteText]
    dsimp only
    rw [rowEntry_import, if_neg hobjections, if_neg List.not_mem_nil]
    rfl
  refine ⟨⟨str "Chrome, Edge or Brave password CSV", 1, 0, 0, [imported], importFile.raw.length,
    upperHex (importPlatform.sha256 importFile.raw)⟩, ?_, rfl⟩
  rw [parseExport, exportText_import, bind_ok, parseCsv_import, Except.mapError, bind_ok]
  dsimp only
  rw [hheader, hformat]
  dsimp only [fromOption]
  rw [bind_ok, ExportRows.readAll]
  have hplatform : importPlatform.toWorkflowPlatform = workflow userPrompt := rfl
  rw [hplatform, hrow, bind_ok]
  rfl

/-- It is saved into the empty vault. -/
theorem importNoOverwrite_import {plan : ImportPlan} (hplan : plan.candidates = [imported]) :
    ∃ v', importNoOverwrite (workflow userPrompt) importCalls vault plan = (.ok ⟨1, 0⟩, v') := by
  obtain ⟨v', hsave⟩ := save_candidate savesCandidate_user (by decide) (by decide)
  have hsaved : importCalls.save userPrompt.platform 0 vault imported =
      .ok (toEntry (siteRecord user), v') := hsave
  have hlist : list userPrompt.platform vault = .ok [] := congrArg Except.ok List.mergeSort_nil
  have hexisting : existingIdentities (workflow userPrompt) vault = .ok [] := by
    have hstatus : getStatus userPrompt.platform vault =
        .ok ⟨true, true, 0, str "Vault unlocked for this Windows session."⟩ := by
      rw [getStatus, if_pos (by rfl), hlist]
      rfl
    have hsearch : search userPrompt.platform vault (some []) = .ok [] := by
      rw [search, hlist]
      rfl
    have hplatform : (workflow userPrompt).toVaultPlatform = userPrompt.platform := rfl
    rw [existingIdentities, hplatform, hstatus, hsearch]
    rfl
  have hidentity : identity (workflow userPrompt) imported = .ok (siteText ++ 0 :: user) := by
    rw [identity]
    show (normalizeSecureOriginText (workflow userPrompt) (some siteText) >>= _) = _
    rw [normalize_siteText]
    rfl
  refine ⟨v', ?_⟩
  rw [importNoOverwrite, hexisting, hplan]
  dsimp only
  rw [ImportState.loop, ImportState.candidate, hidentity]
  dsimp only
  rw [if_neg List.not_mem_nil]
  have hplatform : (workflow userPrompt).toVaultPlatform = userPrompt.platform := rfl
  rw [hplatform, List.length_nil, hsaved]
  dsimp only
  rw [if_neg (by decide)]
  rfl

end Sample

/-- One credential is imported into an empty vault. -/
theorem importNoOverwrite_allOrNothing_site : ∃ plan v' new,
    parseExport Sample.importPlatform (some (str "export.csv")) Sample.importFile = .ok plan ∧
      importNoOverwrite (Sample.workflow Sample.userPrompt) Sample.importCalls Sample.vault plan =
        (.ok ⟨1, 0⟩, v') ∧
      Imports (Sample.workflow Sample.userPrompt) Sample.importCalls Sample.vault v' plan.candidates
        new ∧ new.map Prod.snd = [Sample.imported] := by
  have hsession := Sample.savesCandidate_user
  have hassumed : Sample.importPlatform.toWorkflowPlatform.Assumed :=
    Sample.assumed_workflow hsession.given hsession.url
  obtain ⟨plan, hplan, hcandidates⟩ := Sample.parseExport_import
  obtain ⟨v', himport⟩ := Sample.importNoOverwrite_import hcandidates
  have hall := importNoOverwrite_allOrNothing hassumed hplan Sample.importCalls (fun _ => rfl)
    Sample.vault
  have hrun : importNoOverwrite Sample.importPlatform.toWorkflowPlatform Sample.importCalls
      Sample.vault plan = (.ok ⟨1, 0⟩, v') := himport
  rw [hrun] at hall
  obtain ⟨new, himports, -, hlength, -⟩ := hall
  refine ⟨plan, v', new, hplan, himport, himports, ?_⟩
  have hsub : (new.map Prod.snd).Sublist [Sample.imported] := hcandidates ▸ himports.once
  refine hsub.eq_of_length ?_
  rw [List.length_map, ← hlength]
  rfl

end ZsecShield.Browser
