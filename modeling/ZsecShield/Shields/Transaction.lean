import ZsecShield.Shields.ServiceWorker

/-!
# Settings transactions

`writeSettings` is all or nothing.  It touches the storage only in `persist`, after the verifier
has returned, and the one write of `persist` holds the settings together with their record.  So a
call that is rejected has not reached that write (`wp_attempt`), and what the way back and the
report of the failure write leaves the settings as they were read (`Kept`).
-/

namespace ZsecShield.Shields

open Text (Str str)
open Browser (texts)
open Effect

/-! ## The storage -/

theorem lookup_store (key : Str) {items : List (Str × Json)} (hkeys : (items.map Prod.fst).Nodup)
    (storage : List (Str × Json)) :
    Json.lookup key (store storage items) =
      (Json.lookup key items).or (Json.lookup key storage) := by
  induction items generalizing storage with
  | nil => rfl
  | cons m items ih =>
      obtain ⟨k, v⟩ := m
      rw [List.map_cons, List.nodup_cons] at hkeys
      have hrest := ih hkeys.2 (Json.insertMember storage k v)
      rw [Json.lookup_insertMember] at hrest
      rw [store, List.foldl_cons]
      refine hrest.trans ?_
      rw [Json.lookup]
      by_cases hk : k = key
      · have hnone : Json.lookup key items = none := Json.lookup_eq_none.2 (hk ▸ hkeys.1)
        rw [if_pos hk, if_pos hk, hnone]
        rfl
      · rw [if_neg hk, if_neg hk]

/-- The keys under which settings and their record are stored. -/
def storedKeys : List Str :=
  texts ["protectionEnabled", "highRiskMode", "youtubeCleanup", "pausedSites", "runtimeHealth"]

theorem nodup_storedKeys : storedKeys.Nodup := by
  simp [storedKeys, texts, Text.str_injective]

theorem keys_items (settings : Settings) (record : Json) :
    (settings.items ++ [(healthKey, record)]).map Prod.fst = storedKeys := rfl

theorem nodup_items (settings : Settings) : (settings.items.map Prod.fst).Nodup := by
  have hnodup := nodup_storedKeys
  rw [← keys_items settings .null, List.map_append] at hnodup
  exact (List.nodup_append.1 hnodup).1

theorem healthKey_not_mem_items (settings : Settings) :
    healthKey ∉ settings.items.map Prod.fst := by
  have hnodup := nodup_storedKeys
  rw [← keys_items settings .null, List.map_append] at hnodup
  intro hmem
  exact (List.nodup_append.1 hnodup).2.2 _ hmem _ (List.mem_singleton.2 rfl) rfl

theorem member_storage (storage : List (Str × Json)) {key : String} (d : Json)
    (hmem : (str key, d) ∈ defaultSettings.items) :
    member key (.obj (defaultSettings.items.map fun m =>
      (m.1, (Json.lookup m.1 storage).getD m.2))) = (Json.lookup (str key) storage).getD d := by
  have hkeys : ((defaultSettings.items.map fun m =>
      (m.1, (Json.lookup m.1 storage).getD m.2)).map Prod.fst).Nodup := by
    rw [List.map_map]
    exact nodup_items defaultSettings
  rw [member, Json.lookup_eq_some_of_mem hkeys (List.mem_map.2 ⟨_, hmem, rfl⟩)]
  rfl

/-- A storage that holds the items of normalized settings holds the settings. -/
theorem storedSettings_eq {script : Script} {settings : Settings} (h : Normalized script settings)
    {storage : List (Str × Json)}
    (hitems : ∀ m ∈ settings.items, Json.lookup m.1 storage = some m.2) :
    storedSettings script storage = settings := by
  simp only [Settings.items, List.forall_mem_cons] at hitems
  obtain ⟨hprotection, hrisk, hyoutube, hsites, -⟩ := hitems
  refine normalizeSettings_of_members h ?_ ?_ ?_ ?_
  · rw [member_storage storage (.bool true) (by simp [Settings.items, defaultSettings]),
      hprotection]
    rfl
  · rw [member_storage storage (.bool false) (by simp [Settings.items, defaultSettings]), hrisk]
    rfl
  · rw [member_storage storage (.bool true) (by simp [Settings.items, defaultSettings]),
      hyoutube]
    rfl
  · rw [member_storage storage (.arr []) (by simp [Settings.items, defaultSettings]), hsites]
    rfl

theorem lookup_store_items (settings : Settings) (storage : List (Str × Json)) {m : Str × Json}
    (hmem : m ∈ settings.items) :
    Json.lookup m.1 (store storage settings.items) = some m.2 := by
  rw [lookup_store _ (nodup_items settings),
    Json.lookup_eq_some_of_mem (nodup_items settings) hmem]
  rfl

theorem lookup_store_record (settings : Settings) (record : Json) (storage : List (Str × Json))
    {m : Str × Json} (hmem : m ∈ settings.items ++ [(healthKey, record)]) :
    Json.lookup m.1 (store storage (settings.items ++ [(healthKey, record)])) = some m.2 := by
  have hkeys : ((settings.items ++ [(healthKey, record)]).map Prod.fst).Nodup := by
    rw [keys_items]
    exact nodup_storedKeys
  rw [lookup_store _ hkeys, Json.lookup_eq_some_of_mem hkeys hmem]
  rfl

/-- A write that leaves the keys of the settings alone leaves the settings alone. -/
theorem storedSettings_store_record (script : Script) (storage : List (Str × Json))
    (record : Json) :
    storedSettings script (store storage [(healthKey, record)]) =
      storedSettings script storage := by
  rw [storedSettings, storedSettings]
  congr 2
  refine List.map_congr_left fun m hm => ?_
  have hne : healthKey ≠ m.1 := fun heq =>
    healthKey_not_mem_items defaultSettings (heq ▸ List.mem_map_of_mem hm)
  have hkeys : (([(healthKey, record)] : List (Str × Json)).map Prod.fst).Nodup :=
    List.nodup_singleton healthKey
  rw [lookup_store _ hkeys, Json.lookup, if_neg hne, Json.lookup, Option.none_or]

/-! ## What a call that fails leaves -/

theorem isTrue_ok (health : RuntimeHealth) : isTrue (member "ok" health.toJson) = health.ok := by
  rw [RuntimeHealth.toJson, member, Json.lookup, if_pos rfl]
  rfl

/-- No write brings a record that says ok. -/
def NoOkHealth (writes : List (List (Str × Json))) : Prop :=
  ∀ items ∈ writes, ∀ record, Json.lookup healthKey items = some record →
    isTrue (member "ok" record) = false

/-- The settings are stored as before, no write has brought a record that says ok, and no failure
has been reported. -/
structure Kept (script : Script) (s s' : Runtime) : Prop where
  settings : storedSettings script s'.storage = storedSettings script s.storage
  written : ∃ writes, s'.written = s.written ++ writes ∧ NoOkHealth writes
  reported : s'.reported = s.reported

namespace Kept

variable {script : Script} {s s' s'' : Runtime}

theorem refl (s : Runtime) : Kept script s s :=
  ⟨rfl, ⟨[], (List.append_nil _).symm, List.forall_mem_nil _⟩, rfl⟩

theorem trans (h : Kept script s s') (h' : Kept script s' s'') : Kept script s s'' := by
  obtain ⟨writes, hwritten, hok⟩ := h.written
  obtain ⟨writes', hwritten', hok'⟩ := h'.written
  refine ⟨h'.settings.trans h.settings, ⟨writes ++ writes', ?_, ?_⟩,
    h'.reported.trans h.reported⟩
  · rw [hwritten', hwritten, List.append_assoc]
  · exact List.forall_mem_append.2 ⟨hok, hok'⟩

theorem of_network {n : Nat} {network : Network} :
    Kept script s { s with calls := n, network } := 
  ⟨rfl, ⟨[], (List.append_nil _).symm, List.forall_mem_nil _⟩, rfl⟩

theorem of_quiet (h : Quiet s s') : Kept script s s' := by
  rw [Quiet] at h
  rw [h]
  exact of_network

end Kept

section Calls

variable {chrome : Chrome} {s : Runtime}

theorem wp_nextCall {Q : Post Runtime JsError Nat} :
    wp chrome nextCall Q s ↔ Q.ok s.calls { s with calls := s.calls + 1 } := Iff.rfl

theorem wp_failWith {f : Option JsError} {Q : Post Runtime JsError Unit} (hok : Q.ok () s)
    (hraised : ∀ e, Q.raised e s) : wp chrome (failWith f) Q s := by
  cases f with
  | none => exact hok
  | some e => exact hraised e

theorem wp_setStorage (items : List (Str × Json)) :
    wp chrome (setStorage items)
      ⟨fun _ s' => s' = { s with
          calls := s'.calls
          storage := store s.storage items
          written := s.written ++ [items] },
        fun _ s' => Quiet s s', fun _ => False⟩ s := by
  simp only [setStorage, wp_bind, wp_nextCall, wp_ask, wp_update, Post.withOk_ok]
  exact wp_failWith rfl fun _ => rfl

theorem wp_buildRuntimeHealth {ok : Bool} {settings : Settings} {error : Option JsError}
    {details : Option Details} {state : Option Str} {Q : Post Runtime JsError RuntimeHealth}
    (h : ∀ health : RuntimeHealth, health.ok = ok →
      health.settingsRevision = settingsRevision settings → Q.ok health s) :
    wp chrome (buildRuntimeHealth ok settings error details state) Q s :=
  h _ rfl rfl

theorem wp_readSettings :
    wp chrome readSettings
      ⟨fun settings s' => Quiet s s' ∧ settings = storedSettings chrome.script s.storage,
        fun _ s' => Quiet s s', fun _ => False⟩ s := by
  simp only [readSettings, wp_bind, wp_nextCall, wp_ask, wp_gets, Post.withOk_ok]
  exact wp_failWith ⟨rfl, rfl⟩ fun _ => rfl

theorem wp_updateNetwork (change : Chrome → Nat → Network → Network × Option JsError) :
    wp chrome (updateNetwork change)
      ⟨fun _ s' => Kept chrome.script s s', fun _ s' => Kept chrome.script s s',
        fun _ => False⟩ s := by
  simp only [updateNetwork, wp_bind, wp_nextCall, wp_ask, wp_gets, wp_update, Post.withOk_ok]
  exact wp_failWith Kept.of_network fun _ => Kept.of_network

theorem wp_applyNetworkSettings (settings : Settings) :
    wp chrome (applyNetworkSettings settings)
      ⟨fun _ s' => Kept chrome.script s s', fun _ s' => Kept chrome.script s s',
        fun _ => False⟩ s := by
  rw [applyNetworkSettings]
  refine wp.bind (wp_updateNetwork _) (fun _ s' hkept => ?_) (fun _ _ h => h) fun _ h => h
  exact (wp_updateNetwork _).mono
    ⟨fun _ _ h => hkept.trans h, fun _ _ h => hkept.trans h, fun _ h => h⟩

theorem wp_verifyNetworkSettings (settings : Settings) :
    wp chrome (verifyNetworkSettings settings)
      ⟨fun _ s' => Quiet s s' ∧ Verified chrome s'.network settings, fun _ s' => Quiet s s',
        fun _ => False⟩ s := by
  refine wp.mono (passes_verifyNetworkSettings settings) ⟨?_, fun _ _ h => h.1, fun _ h => h⟩
  rintro _ s' ⟨hquiet, hverified⟩
  rw [← hquiet.network] at hverified
  exact ⟨hquiet, hverified⟩

end Calls

/-! ## The transaction -/

/-- The network rules satisfy the verifier for the settings, and the storage holds the settings
and a record for them that says ok. -/
structure Committed (chrome : Chrome) (desired : Settings) (health : Option RuntimeHealth)
    (s : Runtime) : Prop where
  verified : Verified chrome s.network desired
  settings : storedSettings chrome.script s.storage = desired
  items : ∀ m ∈ desired.items, Json.lookup m.1 s.storage = some m.2
  health : ∃ record, health = some record ∧
    Json.lookup healthKey s.storage = some record.toJson ∧ record.ok = true ∧
    record.settingsRevision = settingsRevision desired

/-- The settings are stored as before, no write has brought a record that says ok, and where the
way back was reported as verified, the network rules satisfy the verifier for the settings that
were stored before. -/
structure Reverted (chrome : Chrome) (s s' : Runtime) : Prop where
  settings : storedSettings chrome.script s'.storage = storedSettings chrome.script s.storage
  written : ∃ writes, s'.written = s.written ++ writes ∧ NoOkHealth writes
  rollback : ∃ reports, s'.reported = s.reported ++ reports ∧
    ∀ report ∈ reports, report.rollbackVerified = true →
      Verified chrome s'.network (storedSettings chrome.script s.storage)

theorem Reverted.of_kept {chrome : Chrome} {s s' : Runtime} (h : Kept chrome.script s s') :
    Reverted chrome s s' where
  settings := h.settings
  written := h.written
  rollback := ⟨[], by rw [h.reported, List.append_nil], List.forall_mem_nil _⟩

section Transaction

variable {chrome : Chrome} {s : Runtime}

/-- The attempt commits the settings, or leaves those that were stored. -/
theorem wp_attempt {desired : Settings} (hdesired : Normalized chrome.script desired) :
    wp chrome (attempt desired applyNetworkSettings verifyNetworkSettings persistSettings)
      ⟨fun result s' => result.settings = desired ∧
          Committed chrome desired result.committed s',
        fun _ s' => Kept chrome.script s s', fun _ => False⟩ s := by
  rw [attempt]
  refine wp.bind (wp_applyNetworkSettings desired) (fun _ s₁ h₁ => ?_) (fun _ _ h => h)
    fun _ h => h
  refine wp.bind (wp_verifyNetworkSettings desired) ?_ (fun _ _ h => h₁.trans (.of_quiet h))
    fun _ h => h
  rintro details s₂ ⟨h₂, hverified⟩
  have hkept : Kept chrome.script s s₂ := h₁.trans (.of_quiet h₂)
  rw [persistSettings, if_neg Bool.false_ne_true, wp_bind, wp_bind]
  refine wp_buildRuntimeHealth fun health hok hrevision => ?_
  refine wp.bind (wp_setStorage _) (fun _ s₃ h₃ => ?_) (fun _ _ h => hkept.trans (.of_quiet h))
    fun _ h => h
  -- One write brings the settings and their record.
  have hstored : ∀ m ∈ desired.items ++ [(healthKey, health.toJson)],
      Json.lookup m.1 s₃.storage = some m.2 := by
    rw [h₃]
    exact fun m hm => lookup_store_record desired health.toJson s₂.storage hm
  have hnetwork : s₃.network = s₂.network := by rw [h₃]
  have hitems : ∀ m ∈ desired.items, Json.lookup m.1 s₃.storage = some m.2 := fun m hm =>
    hstored m (List.mem_append_left _ hm)
  exact ⟨rfl, {
    verified := hnetwork ▸ hverified
    settings := storedSettings_eq hdesired hitems
    items := hitems
    health := ⟨health, rfl, hstored (healthKey, health.toJson)
      (List.mem_append_right _ (List.mem_singleton.2 rfl)), hok, hrevision⟩ }⟩

/-- The write of the way back. -/
theorem kept_store {s' : Runtime} (hs : s' = { s with
      calls := s'.calls
      storage := store s.storage (storedSettings chrome.script s.storage).items
      written := s.written ++ [(storedSettings chrome.script s.storage).items] }) :
    Kept chrome.script s s' := by
  have hnormalized : Normalized chrome.script (storedSettings chrome.script s.storage) :=
    normalizeSettings_normalized _
  rw [hs]
  refine ⟨storedSettings_eq hnormalized fun m hm => lookup_store_items _ _ hm, ⟨_, rfl, ?_⟩, rfl⟩
  intro items hmem record hrecord
  obtain rfl := List.mem_singleton.1 hmem
  exact absurd (List.mem_map_of_mem (Json.mem_of_lookup hrecord)) (healthKey_not_mem_items _)

/-- The way back never fails, and says truthfully whether it was verified. -/
theorem wp_restore {s₀ : Runtime} (error : JsError) (h : Kept chrome.script s₀ s) :
    wp chrome (restore error (storedSettings chrome.script s₀.storage) applyNetworkSettings
        verifyNetworkSettings persistSettings)
      ⟨fun report s' => Kept chrome.script s₀ s' ∧ (report.rollbackVerified = true →
          Verified chrome s'.network (storedSettings chrome.script s₀.storage)),
        fun _ _ => False, fun _ => False⟩ s := by
  have hcaught : ∀ {s' : Runtime} {caught : JsError}, Kept chrome.script s₀ s' →
      wp chrome (pure ⟨error, false, some caught⟩ : Task FailureReport)
        ⟨fun report s' => Kept chrome.script s₀ s' ∧ (report.rollbackVerified = true →
            Verified chrome s'.network (storedSettings chrome.script s₀.storage)),
          fun _ _ => False, fun _ => False⟩ s' := fun hkept => ⟨hkept, nofun⟩
  rw [restore, wp_tryExcept]
  refine wp.bind (wp_applyNetworkSettings _) (fun _ s₁ h₁ => ?_)
    (fun _ _ hkept => ⟨fun _ => hcaught (h.trans hkept), nofun⟩) fun _ hf => hf
  have h₁ : Kept chrome.script s₀ s₁ := h.trans h₁
  refine wp.bind (wp_verifyNetworkSettings _) ?_
    (fun _ _ hquiet => ⟨fun _ => hcaught (h₁.trans (.of_quiet hquiet)), nofun⟩) fun _ hf => hf
  rintro details s₂ ⟨h₂, hverified⟩
  have h₂ : Kept chrome.script s₀ s₂ := h₁.trans (.of_quiet h₂)
  rw [persistSettings, if_pos rfl, wp_bind]
  refine wp.bind (wp_setStorage _) (fun _ s₃ h₃ => ?_)
    (fun _ _ hquiet => ⟨fun _ => hcaught (h₂.trans (.of_quiet hquiet)), nofun⟩) fun _ hf => hf
  have hnetwork : s₃.network = s₂.network := by rw [h₃]
  rw [← h₂.settings] at h₃
  exact ⟨h₂.trans (kept_store h₃), fun _ => hnetwork ▸ hverified⟩

/-- The report of a failure leaves the settings alone. -/
theorem wp_recordFailure {s₀ : Runtime} {previous : Settings} {report : FailureReport}
    (h : Kept chrome.script s₀ s) (hreport : report.rollbackVerified = true →
      Verified chrome s.network (storedSettings chrome.script s₀.storage)) :
    wp chrome (recordFailure previous report)
      ⟨fun _ s' => Reverted chrome s₀ s', fun _ s' => Reverted chrome s₀ s', fun _ => False⟩
      s := by
  have hrollback : ∀ report' ∈ [report], report'.rollbackVerified = true →
      Verified chrome s.network (storedSettings chrome.script s₀.storage) := by
    rintro report' hmem
    obtain rfl := List.mem_singleton.1 hmem
    exact hreport
  rw [recordFailure, wp_bind, wp_update, Post.withOk_ok, wp_bind]
  refine wp_buildRuntimeHealth fun health hok _ => ?_
  rw [Post.withOk_ok, wp_bind, recordRuntimeHealth, wp_bind]
  refine (wp_setStorage _).mono ⟨fun _ s' hs' => ?_, fun _ s' hquiet => ?_, fun _ hf => hf⟩
  · have hwrite : NoOkHealth [[(healthKey, health.toJson)]] := by
      intro items hmem record hrecord
      obtain rfl := List.mem_singleton.1 hmem
      rw [Json.lookup, if_pos rfl] at hrecord
      cases hrecord
      rw [isTrue_ok, hok]
    obtain ⟨writes, hwritten, hok'⟩ := h.written
    change Reverted chrome s₀ s'
    rw [hs']
    refine ⟨?_, ⟨writes ++ [[(healthKey, health.toJson)]], ?_, ?_⟩, [report], ?_, hrollback⟩
    · exact (storedSettings_store_record _ _ _).trans h.settings
    · rw [hwritten, List.append_assoc]
    · exact List.forall_mem_append.2 ⟨hok', hwrite⟩
    · rw [h.reported]
  · change Reverted chrome s₀ s'
    rw [hquiet]
    refine ⟨h.settings, h.written, [report], ?_, hrollback⟩
    rw [h.reported]

/-- How a call of `writeSettings` ends. -/
theorem wp_writeSettings (settings : Json) :
    wp chrome (writeSettings settings)
      ⟨fun result s' => result.1 = normalizeSettings chrome.script settings ∧
          Committed chrome (normalizeSettings chrome.script settings) result.2 s',
        fun _ s' => Reverted chrome s s', fun _ => False⟩ s := by
  rw [writeSettings, wp_bind, wp_ask]
  refine wp.bind wp_readSettings ?_ (fun _ _ hquiet => .of_kept (.of_quiet hquiet)) fun _ hf => hf
  rintro previous s₁ ⟨hquiet, rfl⟩
  have h₁ : Kept chrome.script s s₁ := .of_quiet hquiet
  rw [wp_bind, applyVerifiedSettings, wp_tryExcept]
  refine (wp_attempt (normalizeSettings_normalized settings)).mono
    ⟨fun _ _ hcommitted => hcommitted, fun error s₂ h₂ => ⟨fun _ => ?_, nofun⟩, fun _ hf => hf⟩
  rw [wp_bind]
  refine (wp_restore error (h₁.trans h₂)).mono ⟨?_, nofun, nofun⟩
  rintro report s₃ ⟨h₃, hreport⟩
  rw [Post.withOk_ok, wp_bind]
  exact (wp_recordFailure h₃ hreport).mono
    ⟨fun _ _ hreverted => hreverted, fun _ _ hreverted => hreverted, fun _ hf => hf⟩

end Transaction

end ZsecShield.Shields
