import ZsecShield.Lib.Json.Shape

/-!
# Dictionaries up to the order of their members

Two lists of members stand for one dictionary when they hold the same value under each key.  Such
lists are written alike (`Agree.sortKeys`), what was written and read back agrees with what it was
(`agree_sortMembers`), and the operations on dictionaries keep agreement.
-/

namespace Json

open Text (Str)

theorem mem_iff_lookup {α : Type} {members : List (Str × α)} (h : (members.map Prod.fst).Nodup)
    {m : Str × α} : m ∈ members ↔ lookup m.1 members = some m.2 :=
  ⟨fun hm => lookup_eq_some_of_mem h hm, mem_of_lookup⟩

/-- The keys of a list of members after sorting its values. -/
theorem keys_sortValues (members : List (Str × Json)) :
    (sortValues members).map Prod.fst = members.map Prod.fst := by
  rw [sortValues_eq_map, List.map_map]
  rfl

theorem lookup_sortValues (members : List (Str × Json)) (key : Str) :
    lookup key (sortValues members) = (lookup key members).map sortKeys := by
  rw [sortValues_eq_map, lookup_map]

/-- Two dictionaries with different keys in each and the same values under them. -/
structure Agree (a b : List (Str × Json)) : Prop where
  left : (a.map Prod.fst).Nodup
  right : (b.map Prod.fst).Nodup
  same : ∀ key, (lookup key a).map Json.sortKeys = (lookup key b).map Json.sortKeys

namespace Agree

variable {a b c : List (Str × Json)}

theorem refl (h : (a.map Prod.fst).Nodup) : Agree a a := ⟨h, h, fun _ => rfl⟩

theorem symm (h : Agree a b) : Agree b a := ⟨h.right, h.left, fun key => (h.same key).symm⟩

theorem trans (h : Agree a b) (h' : Agree b c) : Agree a c :=
  ⟨h.left, h'.right, fun key => (h.same key).trans (h'.same key)⟩

/-- Dictionaries that agree are written alike. -/
theorem sortKeys (h : Agree a b) : (obj a).sortKeys = (obj b).sortKeys := by
  have ha : ((sortValues a).map Prod.fst).Nodup := by
    rw [keys_sortValues]
    exact h.left
  have hb : ((sortValues b).map Prod.fst).Nodup := by
    rw [keys_sortValues]
    exact h.right
  have hperm : (sortValues a).Perm (sortValues b) := by
    rw [List.perm_ext_iff_of_nodup ha.of_map hb.of_map]
    intro m
    rw [mem_iff_lookup ha, mem_iff_lookup hb, lookup_sortValues, lookup_sortValues, h.same]
  rw [Json.sortKeys, Json.sortKeys, sortMembers_eq_of_perm hperm ha]

theorem keysAre (h : Agree a b) (expected : List Str) :
    Json.keysAre a expected = Json.keysAre b expected := by
  have heq := h.sortKeys
  rw [Json.sortKeys, Json.sortKeys] at heq
  have hmembers : sortMembers (sortValues a) = sortMembers (sortValues b) := by injection heq
  rw [← keysAre_sortMembers a, hmembers, keysAre_sortMembers]

/-- Setting one key in both. -/
theorem insert (h : Agree a b) (key : Str) {v w : Json} (hv : v.sortKeys = w.sortKeys) :
    Agree (insertMember a key v) (insertMember b key w) := by
  have hnodup : ∀ (ms : List (Str × Json)) (u : Json), (ms.map Prod.fst).Nodup →
      ((insertMember ms key u).map Prod.fst).Nodup := by
    intro ms u hms
    rw [keys_insertMember]
    split
    · exact hms
    · rename_i hmem
      exact List.Nodup.append hms (List.nodup_singleton key) (List.disjoint_singleton.2 hmem)
  refine ⟨hnodup a v h.left, hnodup b w h.right, fun k => ?_⟩
  rw [lookup_insertMember, lookup_insertMember]
  split
  · exact congrArg some hv
  · exact h.same k

end Agree

theorem lookup_append {α : Type} (a b : List (Str × α)) (key : Str) :
    lookup key (a ++ b) = (lookup key a).or (lookup key b) := by
  induction a with
  | nil => rfl
  | cons m a ih =>
      rw [List.cons_append, lookup, lookup, ih]
      split <;> rfl

theorem lookup_filter_key {α : Type} (members : List (Str × α)) (out key : Str) :
    lookup key (members.filter fun m => m.1 ≠ out) =
      if key = out then none else lookup key members := by
  induction members with
  | nil => simp [lookup]
  | cons m members ih =>
      obtain ⟨k, v⟩ := m
      by_cases hk : k = out
      · rw [List.filter_cons_of_neg (by simpa using hk), ih, lookup]
        by_cases hkey : key = out
        · rw [if_pos hkey, if_pos hkey]
        · rw [if_neg hkey, if_neg hkey, if_neg fun h => hkey (h.symm.trans hk)]
      · rw [List.filter_cons_of_pos (by simpa using hk), lookup, lookup, ih]
        by_cases hkey : k = key
        · rw [if_pos hkey, if_pos hkey, if_neg fun h => hk (hkey.trans h)]
        · rw [if_neg hkey, if_neg hkey]

theorem nodup_filter_keys {α : Type} {members : List (Str × α)} (h : (members.map Prod.fst).Nodup)
    (p : Str × α → Bool) : ((members.filter p).map Prod.fst).Nodup :=
  h.sublist (List.filter_sublist.map Prod.fst)

/-- Leaving one key out of both. -/
theorem Agree.erase {a b : List (Str × Json)} (h : Agree a b) (out : Str) :
    Agree (a.filter fun m => m.1 ≠ out) (b.filter fun m => m.1 ≠ out) := by
  refine ⟨nodup_filter_keys h.left _, nodup_filter_keys h.right _, fun key => ?_⟩
  rw [lookup_filter_key, lookup_filter_key]
  split
  · rfl
  · exact h.same key

/-- A member with a new key at the end. -/
theorem insertMember_of_notMem {α : Type} {members : List (Str × α)} {key : Str}
    (h : key ∉ members.map Prod.fst) (value : α) :
    insertMember members key value = members ++ [(key, value)] := by
  induction members with
  | nil => rfl
  | cons m members ih =>
      obtain ⟨k, v⟩ := m
      rw [List.map_cons, List.mem_cons, not_or] at h
      rw [insertMember, if_neg fun heq => h.1 heq.symm, ih h.2]
      rfl

theorem Agree.snoc {a b : List (Str × Json)} (h : Agree a b) {key : Str}
    (ha : key ∉ a.map Prod.fst) (hb : key ∉ b.map Prod.fst) (v : Json) :
    Agree (a ++ [(key, v)]) (b ++ [(key, v)]) := by
  rw [← insertMember_of_notMem ha, ← insertMember_of_notMem hb]
  exact h.insert key rfl

/-- What is read back of a dictionary agrees with it. -/
theorem agree_sortMembers {members : List (Str × Json)} (h : (members.map Prod.fst).Nodup) :
    Agree (sortMembers (sortValues members)) members := by
  refine ⟨(perm_keys_sortMembers members).nodup_iff.2 h, h, fun key => ?_⟩
  rw [lookup_sortMembers h, Option.map_map]
  cases lookup key members with
  | none => rfl
  | some v => exact congrArg some (sortKeys_sortKeys v)

theorem nodup_of_sortKeys {a b : List (Str × Json)} (h : (obj a).sortKeys = (obj b).sortKeys)
    (hb : (b.map Prod.fst).Nodup) : (a.map Prod.fst).Nodup := by
  rw [Json.sortKeys, Json.sortKeys] at h
  have hmembers : sortMembers (sortValues a) = sortMembers (sortValues b) := by injection h
  rw [← (perm_keys_sortMembers a).nodup_iff, hmembers]
  exact (perm_keys_sortMembers b).nodup_iff.2 hb

/-- Dictionaries that are written alike agree. -/
theorem agree_of_sortKeys {a b : List (Str × Json)} (h : (obj a).sortKeys = (obj b).sortKeys)
    (hb : (b.map Prod.fst).Nodup) : Agree a b := by
  have ha := nodup_of_sortKeys h hb
  rw [Json.sortKeys, Json.sortKeys] at h
  have hmembers : sortMembers (sortValues a) = sortMembers (sortValues b) := by injection h
  refine ⟨ha, hb, fun key => ?_⟩
  rw [← lookup_sortMembers ha, hmembers, lookup_sortMembers hb]

/-- A value without floating point keeps to the limit of an encoder that wrote it. -/
theorem plain_of_shaped {w : Writer} {allowNan : Bool} {levels : Nat} {v : Json}
    (h : Shaped (fun _ => False) levels v) :
    ∀ {d : Nat}, fault w allowNan d v.sortKeys = none → Plain w.digits v := by
  induction h with
  | null _ => exact fun _ => .null
  | bool _ b => exact fun _ => .bool b
  | str _ s => exact fun _ => .str s
  | float _ x hx => exact hx.elim
  | int _ n =>
      intro d hd
      refine .int n ?_
      by_contra hlong
      rw [Json.sortKeys, fault, if_neg hlong] at hd
      cases hd
  | arr _ elements _ ih =>
      intro d hd
      cases d with
      | zero => cases hd
      | succ d =>
          rw [Json.sortKeys, fault, faultElements_eq_none, sortElements_eq_map,
            List.forall_mem_map] at hd
          exact .arr _ fun e he => ih e he (hd e he)
  | obj _ members hkeys _ ih =>
      intro d hd
      cases d with
      | zero => cases hd
      | succ d =>
          rw [Json.sortKeys, fault, faultMembers_eq_none] at hd
          refine .obj _ hkeys fun m hm => ih m hm (hd (m.1, m.2.sortKeys) ?_)
          rw [(perm_sortMembers _).mem_iff, sortValues_eq_map]
          exact List.mem_map_of_mem hm

/-- Leaving a key out of a dictionary in which another key was set. -/
theorem agree_filter_insertMember {members : List (Str × Json)} (h : (members.map Prod.fst).Nodup)
    {key out : Str} (hne : key ≠ out) (value : Json) :
    Agree ((insertMember members key value).filter fun m => m.1 ≠ out)
      (insertMember (members.filter fun m => m.1 ≠ out) key value) := by
  have hfilter := nodup_filter_keys h fun m => decide (m.1 ≠ out)
  refine ⟨nodup_filter_keys ((Agree.refl h).insert key (v := value) rfl).left _,
    ((Agree.refl hfilter).insert key (v := value) rfl).left, fun k => ?_⟩
  rw [lookup_filter_key, lookup_insertMember, lookup_insertMember, lookup_filter_key]
  by_cases hk : k = out
  · rw [if_pos hk, if_neg (by rintro rfl; exact hne hk), if_pos hk]
  · rw [if_neg hk, if_neg hk]

end Json
