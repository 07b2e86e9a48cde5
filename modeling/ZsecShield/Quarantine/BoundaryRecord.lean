import ZsecShield.Lib.Json.Dictionary
import ZsecShield.Quarantine.Metadata

/-!
# Boundary records that were made

The record that `create_quarantine_record` makes is valid for the entry and the digest it was made
of, also after it was written and read back (`validateQuarantineRecord_of_agree`).  Before that,
hexadecimal text and the fields of dictionaries that agree.
-/

namespace ZsecShield.Quarantine

open Text (Str str)
open Feed (field isText memberOf)
open Checks
open Json (Agree)

/-! ## Hexadecimal text -/

theorem hexChar_spec : ∀ n < 16, isAsciiSpace (Json.hexChar n) = false ∧
    Json.hexDigit (Json.hexChar n) = some n ∧ (Json.hexChar n).val < 128 ∧
    ¬ (65 ≤ (Json.hexChar n).val ∧ (Json.hexChar n).val ≤ 90) ∧
    isLowerHex (Json.hexChar n) = true := by decide

theorem mem_hexText {data : Bytes} {c : Text.CodePoint} (h : c ∈ hexText data) :
    ∃ n < 16, c = Json.hexChar n := by
  simp only [hexText, List.mem_flatMap, List.mem_cons, List.not_mem_nil, or_false] at h
  obtain ⟨b, -, rfl | rfl⟩ := h
  · exact ⟨_, by have := b.toNat_lt; omega, rfl⟩
  · exact ⟨_, Nat.mod_lt _ (by omega), rfl⟩

/-- The bytes are read back from their text. -/
theorem fromHex_hexText (data : Bytes) : fromHex (hexText data) = some data := by
  induction data with
  | nil => rfl
  | cons b data ih =>
      have hb := b.toNat_lt
      obtain ⟨hspace, hhigh, -⟩ := hexChar_spec (b.toNat / 16) (by omega)
      obtain ⟨-, hlow, -⟩ := hexChar_spec (b.toNat % 16) (Nat.mod_lt _ (by omega))
      have hcons : hexText (b :: data) =
          Json.hexChar (b.toNat / 16) :: Json.hexChar (b.toNat % 16) :: hexText data := rfl
      have hbyte : UInt8.ofNat (16 * (b.toNat / 16) + b.toNat % 16) = b := by
        rw [show 16 * (b.toNat / 16) + b.toNat % 16 = b.toNat by omega]
        exact UInt8.ofNat_toNat
      rw [hcons, fromHex, hspace]
      simp only [Bool.false_eq_true, ↓reduceIte, hhigh, hlow, ih, Option.map_some, hbyte]

theorem ascii_hexText {data : Bytes} : ∀ c ∈ hexText data, c.val < 128 := by
  intro c hc
  obtain ⟨n, hn, rfl⟩ := mem_hexText hc
  exact (hexChar_spec n hn).2.2.1

theorem lower_hexText (data : Bytes) : Feed.lower (hexText data) = hexText data := by
  have hsame : ∀ c ∈ hexText data,
      (if 65 ≤ c.val ∧ c.val ≤ 90 then Fin.ofNat _ (c.val + 32) else c) = c := by
    intro c hc
    obtain ⟨n, hn, rfl⟩ := mem_hexText hc
    exact if_neg (hexChar_spec n hn).2.2.2.1
  exact (List.map_congr_left hsame).trans (List.map_id _)

theorem isDigest_hexText {data : Bytes} (h : data.length = 32) : isDigest (hexText data) = true := by
  simp only [isDigest, length_hexText, h, fromHex_hexText, lower_hexText, Option.isSome_some,
    decide_true, Bool.and_self]

theorem isDigest_hexdigest (S : System) (data : Bytes) : isDigest (S.hexdigest data) = true :=
  isDigest_hexText (S.length_sha256 data)

theorem compareDigest_hexText (data : Bytes) :
    compareDigest (hexText data) (hexText data) = .ok true := by
  unfold compareDigest
  rw [accept_eq_ok]
  exact ⟨⟨isAscii_iff.2 ascii_hexText, isAscii_iff.2 ascii_hexText⟩, decide_eq_true rfl⟩

/-! ## Fields of dictionaries that agree -/

section Fields

variable {a b : List (Str × Json)}

theorem field_agree (h : Agree a b) (name : String) :
    (field a name).sortKeys = (field b name).sortKeys := by
  have hsame := h.same (str name)
  unfold field
  cases ha : Json.lookup (str name) a with
  | none =>
      rw [ha] at hsame
      rw [Option.map_eq_none_iff.1 hsame.symm]
  | some v =>
      rw [ha] at hsame
      obtain ⟨w, hw, heq⟩ := Option.map_eq_some_iff.1 hsame.symm
      rw [hw]
      exact heq.symm

theorem field_str (h : Agree a b) {name : String} {s : Str} (hb : field b name = .str s) :
    field a name = .str s := by
  have hsort := field_agree h name
  rw [hb] at hsort
  cases hv : field a name <;> rw [hv] at hsort <;> cases hsort
  rfl

theorem field_int (h : Agree a b) {name : String} {n : Int} (hb : field b name = .int n) :
    field a name = .int n := by
  have hsort := field_agree h name
  rw [hb] at hsort
  cases hv : field a name <;> rw [hv] at hsort <;> cases hsort
  rfl

theorem field_arr (h : Agree a b) {name : String} {vs : List Json} (hb : field b name = .arr vs) :
    ∃ us, field a name = .arr us ∧ us.map Json.sortKeys = vs.map Json.sortKeys := by
  have hsort := field_agree h name
  rw [hb] at hsort
  cases hv : field a name with
  | arr us =>
      rw [hv, Json.sortKeys, Json.sortKeys, Json.sortElements_eq_map, Json.sortElements_eq_map] at hsort
      exact ⟨us, rfl, by injection hsort⟩
  | _ => rw [hv] at hsort; cases hsort

theorem field_obj (h : Agree a b) {name : String} {ms : List (Str × Json)}
    (hb : field b name = .obj ms) (hms : (ms.map Prod.fst).Nodup) :
    ∃ us, field a name = .obj us ∧ Agree us ms := by
  have hsort := field_agree h name
  rw [hb] at hsort
  cases hv : field a name with
  | obj us =>
      rw [hv] at hsort
      exact ⟨us, rfl, Json.agree_of_sortKeys hsort hms⟩
  | _ => rw [hv] at hsort; cases hsort

end Fields

theorem field_of_mem {members : List (Str × Json)} (h : (members.map Prod.fst).Nodup)
    {name : String} {value : Json} (hmem : (str name, value) ∈ members) :
    field members name = value := by
  rw [field, Json.lookup_eq_some_of_mem h hmem, Option.getD_some]

/-! ## Boundary records -/

section Record

variable {S : System} {entryId payload createdAt : Str} {zba record : List (Str × Json)}

def recordFields : List Str := (uncommitted [] [] []).map Prod.fst

theorem keys_uncommitted (entryId payload createdAt : Str) :
    (uncommitted entryId payload createdAt).map Prod.fst = recordFields := rfl

theorem nodup_uncommitted (entryId payload createdAt : Str) :
    ((uncommitted entryId payload createdAt).map Prod.fst).Nodup := by
  rw [keys_uncommitted]
  decide

theorem commitment_notMem : str "commitment" ∉ recordFields := by decide

theorem projection_uncommitted (entryId payload createdAt : Str) :
    projection (uncommitted entryId payload createdAt) = uncommitted entryId payload createdAt := by
  refine List.filter_eq_self.2 fun m hm => decide_eq_true ?_
  rintro heq
  refine commitment_notMem ?_
  rw [← heq, ← keys_uncommitted entryId payload createdAt]
  exact List.mem_map_of_mem hm

theorem field_uncommitted {constant : String × Json}
    (h : constant ∈ recordConstants entryId payload) (createdAt : Str) :
    field (uncommitted entryId payload createdAt) constant.1 = constant.2 := by
  refine field_of_mem (nodup_uncommitted entryId payload createdAt) ?_
  exact List.mem_append_left _ (List.mem_map_of_mem h)

theorem previous_mem (entryId payload : Str) :
    ("previous_commitment", Json.str zeroCommitment) ∈ recordConstants entryId payload := by
  simp [recordConstants]

theorem fromHex_zeroCommitment : fromHex zeroCommitment = some (List.replicate 32 0) := by
  decide +kernel

theorem isDigest_zeroCommitment : isDigest zeroCommitment = true := by decide +kernel

/-- The commitment of a record whose other fields have the canonical bytes `data`. -/
def committed (S : System) (data : Bytes) : Str :=
  S.hexdigest (ascii "ZERO-SECURITY/ZBA-QUARANTINE/V1" ++ [0] ++ List.replicate 32 0 ++ data)

theorem commitment_eq {data : Bytes}
    (hprevious : field (projection record) "previous_commitment" = .str zeroCommitment)
    (hdata : Util.canonicalJsonBytes S.runtime (.obj (projection record)) = .ok data) :
    commitment S record = .ok (committed S data) := by
  simp only [commitment, hprevious, Json.strOf, fromOption, require_pos isDigest_zeroCommitment,
    fromHex_zeroCommitment, hdata, bind_ok]
  rfl

/-- A record that was made: the commitment behind the other fields. -/
theorem createQuarantineRecord_eq_ok
    (h : createQuarantineRecord S entryId payload createdAt = .ok zba) :
    ∃ data, Util.canonicalJsonBytes S.runtime (.obj (uncommitted entryId payload createdAt)) =
        .ok data ∧
      zba = uncommitted entryId payload createdAt ++
        [(str "commitment", .str (committed S data))] := by
  have hprojection := projection_uncommitted entryId payload createdAt
  have hprevious : field (projection (uncommitted entryId payload createdAt))
      "previous_commitment" = .str zeroCommitment := by
    rw [hprojection]
    exact field_uncommitted (previous_mem entryId payload) createdAt
  obtain ⟨c, hc, heq⟩ := bind_eq_ok.1 h
  have hcanonical := hc
  simp only [commitment, bind_eq_ok] at hcanonical
  obtain ⟨-, -, -, -, -, -, data, hdata, -⟩ := hcanonical
  rw [commitment_eq hprevious hdata] at hc
  cases hc
  cases heq
  exact ⟨data, hprojection ▸ hdata, rfl⟩

theorem keys_record (h : createQuarantineRecord S entryId payload createdAt = .ok zba) :
    zba.map Prod.fst = recordFields ++ [str "commitment"] := by
  obtain ⟨data, -, rfl⟩ := createQuarantineRecord_eq_ok h
  rfl

theorem nodup_record (h : createQuarantineRecord S entryId payload createdAt = .ok zba) :
    (zba.map Prod.fst).Nodup := by
  rw [keys_record h]
  decide

/-- A record is valid for what it was made of, also after it was written and read back. -/
theorem validateQuarantineRecord_of_agree
    (h : createQuarantineRecord S entryId payload createdAt = .ok zba) (hagree : Agree record zba)
    (htime : createdAt.getLast? = some (Text.ofChar 'Z')) :
    validateQuarantineRecord S (.obj record) entryId payload = .ok () := by
  obtain ⟨data, hdata, hzba⟩ := createQuarantineRecord_eq_ok h
  have hnodup := nodup_record h
  have hkeys : Json.keysAre record ((uncommitted entryId payload []).map Prod.fst ++
      [str "commitment"]) = true := by
    rw [hagree.keysAre, keys_uncommitted, ← keys_record h]
    exact Json.keysAre_self _
  have herase : Agree (projection record) (uncommitted entryId payload createdAt) := by
    have hprojection : projection zba = uncommitted entryId payload createdAt := by
      have hout : [(str "commitment", Json.str (committed S data))].filter
          (fun m => m.1 ≠ str "commitment") = [] := List.filter_cons_of_neg (by simp)
      rw [hzba, projection, List.filter_append, hout, List.append_nil]
      exact projection_uncommitted entryId payload createdAt
    rw [← hprojection]
    exact hagree.erase (str "commitment")
  have hcanonical : Util.canonicalJsonBytes S.runtime (.obj (projection record)) = .ok data := by
    rw [← hdata, Util.canonicalJsonBytes, Util.canonicalJsonBytes, ← Util.encodeJson_sortKeys,
      herase.sortKeys, Util.encodeJson_sortKeys]
  have hcommitment := commitment_eq (field_str herase
    (field_uncommitted (previous_mem entryId payload) createdAt)) hcanonical
  have hvalue : ∀ {name : String} {value : Json}, (str name, value) ∈ zba →
      field zba name = value := fun hmem => field_of_mem hnodup hmem
  have hconstants : (recordConstants entryId payload).forM (fun constant =>
      require (equals (field record constant.1) constant.2 = true)
        (quarantineError (str "ZBA record field is invalid: " ++ str constant.1))) = .ok () := by
    refine forM_eq_ok.2 fun constant hconstant => require_pos ?_ _
    have hfield : field zba constant.1 = constant.2 := by
      refine hvalue ?_
      rw [hzba]
      exact List.mem_append_left _ (List.mem_append_left _ (List.mem_map_of_mem hconstant))
    have hkind : (∃ s, constant.2 = .str s) ∨ ∃ n, constant.2 = .int n := by
      simp only [recordConstants, List.mem_cons, List.not_mem_nil, or_false] at hconstant
      rcases hconstant with rfl | rfl | rfl | rfl | rfl | rfl | rfl | rfl | rfl | rfl | rfl | rfl |
        rfl | rfl <;> simp
    obtain ⟨s, hs⟩ | ⟨n, hn⟩ := hkind
    · rw [hs, field_str hagree (hfield.trans hs)]
      exact Feed.isText_iff.2 rfl
    · rw [hn, field_int hagree (hfield.trans hn)]
      exact decide_eq_true rfl
  have hevent : field record "event_time" = .str createdAt :=
    field_str hagree (hvalue (hzba ▸ List.mem_append_left _ (List.mem_append_right _
      (List.mem_singleton_self _))))
  have hcommitted : field record "commitment" = .str (committed S data) :=
    field_str hagree (hvalue (hzba ▸ List.mem_append_right _ (List.mem_singleton_self _)))
  have hsame : compareDigest (committed S data) (committed S data) = .ok true :=
    compareDigest_hexText _
  have hdigest : isDigest (committed S data) = true := isDigest_hexdigest S _
  simp only [validateQuarantineRecord, bind_eq_ok, fromOption_eq_ok, require_eq_ok]
  exact ⟨record, rfl, (), hkeys, (), hconstants, createdAt, by rw [hevent]; rfl, (), htime,
    committed S data, by rw [hcommitted]; rfl, (), hdigest, committed S data, hcommitment, true,
    hsame, rfl⟩

end Record

end ZsecShield.Quarantine
