import ZsecShield.Browser.VaultRoundTrip
import Mathlib.Logic.Function.Basic

/-!
# Vaults filled through the service

What a vault holds after any run of saves and deletions: the file of every entry that was saved and
not deleted, and no other (`Stored.held`).
-/

namespace ZsecShield.Browser

open Text (Str str CodePoint)
open Checks

/-- `Delete` of a record: whether there was one. -/
def delete (v : Vault) (id : Str) : Except VaultError (Bool × Vault) := do
  let _ ← requireUnlocked v
  let safeId ← validateId id
  if (Json.lookup safeId v.records).isSome then
    pure (true, { v with records := v.records.filter fun m => decide (m.1 ≠ safeId) })
  else pure (false, v)

/-- The vaults that saves and deletions lead to, with what each save in force gave back. -/
inductive Stored (P : VaultPlatform) : Vault → (Str → Option VaultEntry) → Prop
  | empty {v : Vault} : v.records = [] → Stored P v fun _ => none
  | save {v v' : Vault} {kept : Str → Option VaultEntry} {entry saved : VaultEntry} {fresh : Fresh}
      {id : Str} : Stored P v kept → Browser.save P v entry fresh = .ok (saved, v') →
      saved.id = some id → Stored P v' (Function.update kept id (some saved))
  | delete {v v' : Vault} {kept : Str → Option VaultEntry} {id safeId : Str} {found : Bool} :
      Stored P v kept → Browser.delete v id = .ok (found, v') → validateId id = .ok safeId →
      Stored P v' (Function.update kept safeId none)

/-- A saved entry, as `Retrieve` gives it. -/
def Readback (P : VaultPlatform) (v : Vault) (id : Str) (saved : VaultEntry) : Prop :=
  ∃ c, saved = toEntry c ∧ c.id = id ∧
    retrieve P v id = if length16 c.url ≤ 2048 then .ok c.written
      else .error (.argument (str "Credential URL must be a bounded HTTP(S) URL."))

/-- What the files of a vault hold. -/
structure Held (P : VaultPlatform) (v : Vault) (kept : Str → Option VaultEntry) : Prop where
  room : v.records.length ≤ maximumRecords
  file : ∀ id, id ∈ v.records.map Prod.fst ↔ (kept id).isSome
  isId : ∀ id saved, kept id = some saved → IsId id
  read : ∀ id saved, kept id = some saved → Readback P v id saved

variable {P : VaultPlatform}

theorem lookup_filter (records : List (Str × Bytes)) (id k : Str) :
    Json.lookup k (records.filter fun m => decide (m.1 ≠ id)) =
      if k = id then none else Json.lookup k records := by
  induction records with
  | nil => simp [Json.lookup]
  | cons m records ih =>
      obtain ⟨stem, data⟩ := m
      by_cases hstem : stem = id
      · subst hstem
        rw [List.filter_cons_of_neg (by simp), ih, Json.lookup]
        by_cases hk : k = stem
        · rw [if_pos hk, if_pos hk]
        · rw [if_neg hk, if_neg hk, if_neg (Ne.symm hk)]
      · rw [List.filter_cons_of_pos (by simp [hstem]), Json.lookup, Json.lookup, ih]
        by_cases hk : stem = k
        · subst hk
          rw [if_pos rfl, if_pos rfl, if_neg hstem]
        · rw [if_neg hk, if_neg hk]

theorem Held.empty {v : Vault} (h : v.records = []) : Held P v fun _ => none := by
  constructor
  · rw [h]
    exact Nat.zero_le _
  · intro id
    simp [h]
  · exact fun _ _ hkept => nomatch hkept
  · exact fun _ _ hkept => nomatch hkept

/-- A save puts its entry into the file of its id and leaves the others. -/
theorem Held.save (hP : P.Assumed) {v v' : Vault} {kept : Str → Option VaultEntry}
    {entry saved : VaultEntry} {fresh : Fresh} {id : Str} (h : Held P v kept)
    (hsave : Browser.save P v entry fresh = .ok (saved, v')) (hid : saved.id = some id) :
    Held P v' (Function.update kept id (some saved)) := by
  obtain ⟨c, hrecord, rfl, -⟩ := save_eq_ok hsave
  obtain rfl : c.id = id := Option.some.inj hid
  obtain ⟨_, _, _, _, _, _, _, hidentify, _⟩ := saveCredential_eq_ok hrecord
  obtain ⟨hstems, hroom⟩ := records_saved hrecord
  have hisId : IsId c.id := isId_of_identify hidentify
  constructor
  · exact hroom h.room
  · intro stem
    rw [hstems, h.file]
    by_cases hstem : stem = c.id
    · simp [hstem]
    · simp [hstem]
  · intro stem other hother
    by_cases hstem : stem = c.id
    · rw [hstem]
      exact hisId
    · rw [Function.update_of_ne hstem] at hother
      exact h.isId stem other hother
  · intro stem other hother
    by_cases hstem : stem = c.id
    · subst hstem
      rw [Function.update_self] at hother
      cases hother
      exact ⟨c, rfl, rfl, retrieve_saved hP hrecord⟩
    · rw [Function.update_of_ne hstem] at hother
      obtain ⟨d, hd, hdid, hread⟩ := h.read stem other hother
      refine ⟨d, hd, hdid, ?_⟩
      rw [retrieve_other hrecord, hread]
      rw [validateId_of_isId (h.isId stem other hother), ne_eq, Except.ok.injEq]
      exact hstem

/-- A deletion takes the file of its id away. -/
theorem Held.delete {v v' : Vault} {kept : Str → Option VaultEntry} {id safeId : Str} {found : Bool}
    (h : Held P v kept) (hdelete : Browser.delete v id = .ok (found, v'))
    (hid : validateId id = .ok safeId) : Held P v' (Function.update kept safeId none) := by
  simp only [Browser.delete, bind_eq_ok] at hdelete
  obtain ⟨-, -, safe, hsafe, hdelete⟩ := hdelete
  obtain rfl : safe = safeId := Except.ok.inj (hsafe.symm.trans hid)
  split at hdelete
  · cases hdelete
    have hfiles (stem : Str) : stem ∈ (v.records.filter fun m => decide (m.1 ≠ safe)).map Prod.fst ↔
        stem ∈ v.records.map Prod.fst ∧ stem ≠ safe := by
      simp only [List.mem_map, List.mem_filter, decide_eq_true_eq]
      constructor
      · rintro ⟨m, ⟨hm, hne⟩, rfl⟩
        exact ⟨⟨m, hm, rfl⟩, hne⟩
      · rintro ⟨⟨m, hm, rfl⟩, hne⟩
        exact ⟨m, ⟨hm, hne⟩, rfl⟩
    constructor
    · exact (List.length_filter_le _ _).trans h.room
    · intro stem
      rw [hfiles, h.file]
      by_cases hstem : stem = safe
      · simp [hstem]
      · simp [hstem]
    · intro stem other hother
      by_cases hstem : stem = safe
      · rw [hstem, Function.update_self] at hother
        cases hother
      · rw [Function.update_of_ne hstem] at hother
        exact h.isId stem other hother
    · intro stem other hother
      by_cases hstem : stem = safe
      · rw [hstem, Function.update_self] at hother
        cases hother
      · rw [Function.update_of_ne hstem] at hother
        obtain ⟨d, hd, hdid, hread⟩ := h.read stem other hother
        refine ⟨d, hd, hdid, ?_⟩
        rw [← hread]
        refine retrieve_congr ?_ ?_ ?_
        · rfl
        · rfl
        intro stem' hstem'
        rw [validateId_of_isId (h.isId stem other hother)] at hstem'
        cases hstem'
        rw [lookup_filter, if_neg hstem]
  · rename_i habsent
    cases hdelete
    have hnone : kept safe = none := by
      rw [← Option.not_isSome_iff_eq_none, ← h.file safe, ← Json.lookup_eq_none,
        ← Option.not_isSome_iff_eq_none]
      exact habsent
    rw [← hnone, Function.update_eq_self]
    exact h

/-- What is held after any run of saves and deletions. -/
theorem Stored.held (hP : P.Assumed) {v : Vault} {kept : Str → Option VaultEntry}
    (h : Stored P v kept) : Held P v kept := by
  induction h with
  | empty hnone => exact .empty hnone
  | save _ hsave hid ih => exact ih.save hP hsave hid
  | delete _ hdelete hid ih => exact ih.delete hdelete hid

/-! ## What is read from such a vault -/

theorem sanitize_sanitize (s : Str) : sanitize (sanitize s) = sanitize s :=
  sanitize_eq_iff.2 (encodable_sanitize s)

theorem Credential.written_written (c : Credential) : c.written.written = c.written := by
  simp only [Credential.written, sanitize_sanitize]

/-- A record that can be read has its file. -/
theorem file_of_retrieve {v : Vault} {id : Str} {c : Credential} (h : retrieve P v id = .ok c) :
    c.id ∈ v.records.map Prod.fst := by
  by_contra hnone
  obtain ⟨_, _, _, _, _, hid, hdocument, _, _⟩ := retrieve_eq_ok.1 (retrieve_own h)
  rw [retrieve_id (retrieve_own h)] at hid
  cases hid
  simp [readEnvelope, readObject, Json.lookup_eq_none.2 hnone, fromOption, bind_eq_ok] at hdocument

/-- A record that can be read is that of a kept entry, as its bytes hold it. -/
theorem Held.of_retrieve {v : Vault} {kept : Str → Option VaultEntry} (h : Held P v kept)
    {id : Str} {c : Credential} (hread : retrieve P v id = .ok c) :
    ∃ d, kept c.id = some (toEntry d) ∧ c = d.written ∧ length16 d.url ≤ 2048 := by
  obtain ⟨saved, hsaved⟩ := Option.isSome_iff_exists.1 ((h.file c.id).1 (file_of_retrieve hread))
  obtain ⟨d, rfl, hid, hd⟩ := h.read _ _ hsaved
  rw [retrieve_own hread] at hd
  split at hd
  · exact ⟨d, hsaved, Except.ok.inj hd, ‹_›⟩
  · cases hd

theorem Held.written {v : Vault} {kept : Str → Option VaultEntry} (h : Held P v kept)
    {id : Str} {c : Credential} (hread : retrieve P v id = .ok c) : c.written = c := by
  obtain ⟨d, -, rfl, -⟩ := h.of_retrieve hread
  exact d.written_written

/-- Every kept entry is listed exactly if each URL, as it was stored, is within the bound. -/
theorem Held.list_eq_ok {v : Vault} {kept : Str → Option VaultEntry} (h : Held P v kept)
    {masterKey : Bytes} (hkey : requireUnlocked v = .ok masterKey) :
    (∃ items, list P v = .ok items) ↔
      ∀ id saved, kept id = some saved → length16 (saved.url.getD []) ≤ 2048 := by
  rw [Browser.list_eq_ok]
  constructor
  · rintro ⟨-, -, hall⟩ id saved hsaved
    obtain ⟨c, hc⟩ := hall id ((h.file id).2 (by rw [hsaved]; rfl))
    obtain ⟨d, rfl, -, hd⟩ := h.read id saved hsaved
    rw [hc] at hd
    split at hd
    · assumption
    · cases hd
  · intro hall
    refine ⟨⟨masterKey, hkey⟩, h.room, fun stem hstem => ?_⟩
    obtain ⟨saved, hsaved⟩ := Option.isSome_iff_exists.1 ((h.file stem).1 hstem)
    have hbound := hall stem saved hsaved
    obtain ⟨d, rfl, -, hd⟩ := h.read stem saved hsaved
    exact ⟨d.written, hd.trans (if_pos hbound)⟩

end ZsecShield.Browser
