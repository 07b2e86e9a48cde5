import ZsecShield.Browser.VaultRoundTrip

/-!
# Records and their identity

Whoever holds no key may rearrange the files of a vault, cut envelopes apart and compute every
commitment anew.  What stays out of reach is a MAC that no save has computed (`Unforged`).  The
authenticated bytes hold the id of the record, the salt, the IV and the ciphertext without a
separator, but all of these except the last have one length, so the bytes can be cut in one way
only.
-/

namespace ZsecShield.Browser

open Text (Str str)
open Checks

variable {P : VaultPlatform}

/-- The bytes whose MAC stands in an envelope of a record. -/
def message (id : Str) (e : Envelope) : Bytes :=
  authenticated (getBytes (recordContext id)) e.salt e.iv e.ciphertext

/-- The key of that MAC. -/
def messageKey (P : VaultPlatform) (masterKey : Bytes) (id : Str) (e : Envelope) : Bytes :=
  macKey P masterKey e.salt (getBytes (recordContext id))

/-- A record with the envelope in which a save under the key has left it. -/
structure Write (P : VaultPlatform) (masterKey : Bytes) where
  record : Credential
  envelope : Envelope
  saved : ∃ v v' id displayName url username password notes fresh,
    requireUnlocked v = .ok masterKey ∧
    saveCredential P v id displayName url username password notes fresh = .ok (record, v') ∧
    readEnvelope P v' record.id = .ok envelope.members

/-- No MAC in the files of a vault verifies unless a save of the log has computed it, with the
same key and for the same bytes. -/
def Unforged (P : VaultPlatform) (masterKey : Bytes) (log : List (Write P masterKey)) (v : Vault) :
    Prop :=
  ∀ id members e, readEnvelope P v id = .ok members → openEnvelope members = .ok e →
    e.mac = P.hmac (messageKey P masterKey id e) (message id e) →
    ∃ w ∈ log, messageKey P masterKey id e = messageKey P masterKey w.record.id w.envelope ∧
      message id e = message w.record.id w.envelope

/-! ## One way to cut the bytes -/

theorem getBytes_injective {s t : Str} (hs : Text.Encodable s) (ht : Text.Encodable t)
    (h : getBytes s = getBytes t) : s = t := by
  obtain ⟨b, hb⟩ := Text.encodeUtf8_of_encodable hs
  obtain ⟨b', hb'⟩ := Text.encodeUtf8_of_encodable ht
  rw [getBytes, getBytes, sanitize_eq_iff.2 hs, sanitize_eq_iff.2 ht, hb, hb', Option.getD_some,
    Option.getD_some] at h
  rw [← h] at hb'
  exact Text.encodeUtf8_injective hb hb'

theorem recordContext_injective {id id' : Str} (h : recordContext id = recordContext id') :
    id = id' := List.append_cancel_left h

theorem decodeBounded_length {value : Json} {n : Nat} {name : String} {data : Bytes}
    (h : decodeBounded value n n name = .ok data) : data.length = n := by
  simp only [decodeBounded, bind_eq_ok, require_eq_ok] at h
  obtain ⟨_, _, _, _, _, _, _, ⟨hmin, hmax, _⟩, h⟩ := h
  cases h
  omega

theorem openEnvelope_lengths {members : List (Str × Json)} {e : Envelope}
    (h : openEnvelope members = .ok e) : e.salt.length = 32 ∧ e.iv.length = 16 := by
  simp only [openEnvelope, bind_eq_ok] at h
  obtain ⟨_, _, _, _, _, _, _, _, salt, hsalt, _, _, iv, hiv, _, _, _, _, _, _, _, _, h⟩ := h
  cases h
  exact ⟨decodeBounded_length hsalt, decodeBounded_length hiv⟩

/-- The authenticated bytes give the id and every part of the envelope. -/
theorem message_injective {id id' : Str} {e e' : Envelope} (hid : IsId id) (hid' : IsId id')
    (hsalt : e.salt.length = e'.salt.length) (hiv : e.iv.length = e'.iv.length)
    (h : message id e = message id' e') :
    id = id' ∧ e.salt = e'.salt ∧ e.iv = e'.iv ∧ e.ciphertext = e'.ciphertext := by
  have hcontext : (getBytes (recordContext id)).length = (getBytes (recordContext id')).length := by
    rw [length_getBytes (ascii_recordContext hid), length_getBytes (ascii_recordContext hid'),
      length_recordContext hid, length_recordContext hid']
  simp only [message, authenticated, List.append_assoc] at h
  obtain ⟨hinfo, h⟩ := List.append_inj h hcontext
  obtain ⟨hsalt, h⟩ := List.append_inj h hsalt
  obtain ⟨hiv, hciphertext⟩ := List.append_inj h hiv
  exact ⟨recordContext_injective
    (getBytes_injective (ascii_recordContext hid).encodable (ascii_recordContext hid').encodable
      hinfo),
    hsalt, hiv, hciphertext⟩

/-! ## What was written -/

theorem members_injective {e e' : Envelope} (h : e.members = e'.members) : e = e' := by
  obtain ⟨-, -, hsalt, hiv, hciphertext, hmac⟩ := lookup_members e
  obtain ⟨-, -, hsalt', hiv', hciphertext', hmac'⟩ := lookup_members e'
  rw [h] at hsalt hiv hciphertext hmac
  have hsame {data data' : Bytes}
      (h : some (Json.str (Base64.encode data)) = some (Json.str (Base64.encode data'))) :
      data = data' := Base64.encode_injective (Json.str.inj (Option.some.inj h))
  cases e
  cases e'
  congr
  · exact hsame (hsalt.symm.trans hsalt')
  · exact hsame (hiv.symm.trans hiv')
  · exact hsame (hciphertext.symm.trans hciphertext')
  · exact hsame (hmac.symm.trans hmac')

/-- The envelope of a write is that of its record, under the key. -/
theorem Write.spec (hP : P.Assumed) {masterKey : Bytes} (w : Write P masterKey) :
    IsId w.record.id ∧ Checked P w.record ∧ w.envelope.Bounded ∧
      ∃ text, P.serializeCredential w.record = some text ∧
        w.envelope = encryptEnvelope P (getBytes text) masterKey (recordContext w.record.id)
          w.envelope.salt w.envelope.iv := by
  obtain ⟨v, v', id, displayName, url, username, password, notes, fresh, hkey, hsave, hread⟩ :=
    w.saved
  obtain ⟨masterKey', text, d, created, creating, hkey', hcheck, hidentify, htext, hseal, hwrite⟩ :=
    saveCredential_eq_ok hsave
  rw [hkey] at hkey'
  cases hkey'
  have hid := isId_of_identify hidentify
  obtain ⟨hbounded, hread'⟩ := readEnvelope_written hP hid hseal hwrite
  obtain ⟨-, henvelope, -⟩ := sealRecord_eq_ok hseal
  have hsame : d.envelope = w.envelope :=
    members_injective (Except.ok.inj (hread'.symm.trans hread))
  rw [hsame] at hbounded henvelope
  refine ⟨hid, ⟨_, _, _, _, _, hcheck⟩, hbounded, text, htext, ?_⟩
  rw [henvelope]
  rfl

/-- Whatever was done to the files, what is read under an id is what a save has written under
that id. -/
theorem written_of_retrieve (hP : P.Assumed) {masterKey : Bytes} {log : List (Write P masterKey)}
    {v : Vault} (hkey : v.masterKey = some masterKey) (hunforged : Unforged P masterKey log v)
    {id : Str} {c : Credential} (h : retrieve P v id = .ok c) :
    ∃ w ∈ log, validateId id = .ok w.record.id ∧ c = w.record.written := by
  obtain ⟨masterKey', safeId, members, plaintext, hkey', hid, hread, hdecrypt, hc⟩ :=
    retrieve_eq_ok.1 h
  have hsameKey : masterKey' = masterKey := by
    unfold requireUnlocked at hkey'
    split at hkey'
    · cases hkey'
    · rw [hkey] at hkey'
      cases hkey'
      rfl
  subst hsameKey
  obtain ⟨e, hopen, hmac, hplaintext⟩ := decryptEnvelope_eq_ok.1 hdecrypt
  obtain ⟨w, hw, -, hmessage⟩ := hunforged safeId members e hread hopen hmac
  obtain ⟨hwid, hchecked, hbounded, text, htext, henvelope⟩ := w.spec hP
  obtain ⟨hsaltLength, hivLength⟩ := openEnvelope_lengths hopen
  obtain ⟨hsameId, hsalt, hiv, hciphertext⟩ := message_injective (isId_of_validateId hid)
    hwid (hsaltLength.trans hbounded.salt.symm) (hivLength.trans hbounded.iv.symm) hmessage
  subst hsameId
  have hdecrypted : plaintext = getBytes text := by
    have hown := decryptEnvelope_encryptEnvelope hP (henvelope ▸ hbounded)
    obtain ⟨e', hopen', -, hplaintext'⟩ := decryptEnvelope_eq_ok.1 hown
    rw [openEnvelope_members (henvelope ▸ hbounded)] at hopen'
    cases hopen'
    rw [← henvelope, ← hsalt, ← hiv, ← hciphertext, hplaintext] at hplaintext'
    exact Option.some.inj hplaintext'
  rw [hdecrypted, readCredential_written hP hwid hchecked htext] at hc
  split at hc
  · cases hc
    exact ⟨w, hw, hid, rfl⟩
  · cases hc

/-! ## The first save of a vault -/

/-- Nobody has touched a vault that holds its first record only. -/
theorem unforged_of_first (hP : P.Assumed) {v v' : Vault} {masterKey : Bytes}
    {id displayName url username password notes : Option Str} {fresh : Fresh} {c : Credential}
    (hkey : requireUnlocked v = .ok masterKey) (hempty : v.records = [])
    (h : saveCredential P v id displayName url username password notes fresh = .ok (c, v')) :
    ∃ w : Write P masterKey, w.record = c ∧ Unforged P masterKey [w] v' := by
  obtain ⟨masterKey', text, d, created, creating, hkey', hcheck, hidentify, htext, hseal, hwrite⟩ :=
    saveCredential_eq_ok h
  rw [hkey] at hkey'
  cases hkey'
  obtain ⟨hbounded, hread⟩ := readEnvelope_written hP (isId_of_identify hidentify) hseal hwrite
  refine ⟨⟨c, d.envelope, v, v', id, displayName, url, username, password, notes, fresh, hkey, h,
    hread⟩, rfl, ?_⟩
  intro id' members e hread' hopen _
  have hid : id' = c.id := by
    obtain ⟨data, _, _, _, _, hv'⟩ := writeJsonAtomic_eq_ok hwrite
    by_contra hne
    have hnone : Json.lookup id' v'.records = none := by
      rw [hv', hempty]
      exact (Json.lookup_insertMember _ _ _ _).trans (if_neg fun h => hne h.symm)
    simp [readEnvelope, readObject, hnone, fromOption, bind_eq_ok] at hread'
  subst hid
  rw [hread] at hread'
  cases hread'
  rw [openEnvelope_members hbounded] at hopen
  cases hopen
  exact ⟨_, List.mem_singleton_self _, rfl, rfl⟩

/-- The record of a form is read as it was written. -/
theorem written_of_retrieve_form : ∃ (v' : Vault)
    (w : Write Sample.form.platform Sample.form.masterKey.data) (c : Credential),
    retrieve Sample.form.platform v' Sample.id = .ok c ∧
      Unforged Sample.form.platform Sample.form.masterKey.data [w] v' ∧
      ∃ w' ∈ [w], validateId Sample.id = .ok w'.record.id ∧ c = w'.record.written := by
  obtain ⟨v', hv'⟩ := Sample.saves_form
  obtain ⟨c, hsave, hsaved, -⟩ := save_eq_ok hv'
  obtain ⟨w, hw, hunforged⟩ := unforged_of_first Sample.form.assumed rfl rfl hsave
  have hid : c.id = Sample.id := (Option.some.inj (congrArg VaultEntry.id hsaved)).symm
  have hurl : length16 c.url ≤ 2048 := by
    have hsame : some (Sample.record Sample.formPath).url = some c.url :=
      congrArg VaultEntry.url hsaved
    rw [← Option.some.inj hsame]
    decide
  have hread := retrieve_saved Sample.form.assumed hsave
  rw [if_pos hurl, hid] at hread
  have hkey : v'.masterKey = some Sample.form.masterKey.data := by
    obtain ⟨_, _, _, _, _, _, _, _, _, _, hwrite⟩ := saveCredential_eq_ok hsave
    obtain ⟨_, _, _, _, _, hv'⟩ := writeJsonAtomic_eq_ok hwrite
    rw [hv']
    rfl
  exact ⟨v', w, _, hread, hunforged, written_of_retrieve Sample.form.assumed hkey hunforged hread⟩

end ZsecShield.Browser
