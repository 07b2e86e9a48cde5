import ZsecShield.Lib.Promise
import ZsecShield.Shields.DynamicRules
import Mathlib.Data.Set.Insert

/-!
# Messages

Every message and every start of the browser is an operation that the worker chains behind the
one before.  A change request reads the settings, changes them and writes them; because no other
operation is under way in the meantime, the settings it changes are those that are stored
(`Consistent`).  So the stored settings are what the requests that were answered with ok make of
the initial ones, in the order of their arrival, as long as the pauses fit into the list that
`normalizeSettings` cuts off after 200 sites.
-/

namespace ZsecShield.Shields

open Text (Str str)
open Effect
open Promise (Chain Operation Phase)

/-! ## Requests -/

inductive Change where
  | protection (enabled : Bool)
  | youtubeCleanup (enabled : Bool)
  | highRiskMode (enabled : Bool)
  | sitePaused (domain : Str) (paused : Bool)
deriving DecidableEq

/-- The change that a message asks for. -/
def requestedChange (script : Script) (message : Json) : Except JsError Change :=
  let type := (member "type" message).strOf
  let enabled := isTrue (member "enabled" message)
  if type = some (str "setProtection") then .ok (.protection enabled)
  else if type = some (str "setYoutubeCleanup") then .ok (.youtubeCleanup enabled)
  else if type = some (str "setHighRiskMode") then .ok (.highRiskMode enabled)
  else if type = some (str "setSitePaused") then
    match normalizeDomain script (member "domain" message) with
    | none => .error (.error (str "This page cannot be paused"))
    | some domain => .ok (.sitePaused domain (isTrue (member "paused" message)))
  else .error (.error (str "Unsupported request"))

/-- What the handler makes of the settings it has read. -/
def Change.onSettings (settings : Settings) : Change → Settings
  | .protection enabled => { settings with protectionEnabled := enabled }
  | .youtubeCleanup enabled => { settings with youtubeCleanup := enabled }
  | .highRiskMode enabled => { settings with highRiskMode := enabled }
  | .sitePaused domain paused =>
      let sites := settings.pausedSites.eraseDups
      let sites :=
        if paused then if domain ∈ sites then sites else sites ++ [domain]
        else sites.filter fun site => decide (site ≠ domain)
      { settings with pausedSites := sites.insertionSort (· ≤ ·) }

/-- `Boolean(value)`. -/
def isTruthy : Json → Bool
  | .null => false
  | .bool b => b
  | .int n => decide (n ≠ 0)
  | .float x => x == x && x != 0
  | .str s => decide (s ≠ [])
  | .arr _ => true
  | .obj _ => true

/-- `message && typeof message === "object"`. -/
def isObject : Json → Bool
  | .arr _ => true
  | .obj _ => true
  | _ => false

inductive Event where
  | message (content : Json) (tabUrl : Option Str)
  | startup

/-- What an operation resolves to. -/
inductive Answer where
  | status (settings : Settings) (health : RuntimeHealth) (domain : Option Str) (sitePaused : Bool)
  | changed (settings : Settings) (health : Option RuntimeHealth)
  | initialised

/-- The error that is sent where an operation is rejected. -/
def failureText : JsError → Str
  | .error _ =>
      str "Local filtering settings could not be verified; the previous settings were restored."
  | .other _ => str "Request failed"

/-- An operation up to the settings it reads. -/
def readPhase : Event → Task Settings
  | .startup => readSettings
  | .message content _ => do
      ensure (isObject content) (str "Invalid request")
      readSettings

/-- `getStatus`. -/
def respondStatus (content : Json) (tabUrl : Option Str) (settings : Settings) : Task Answer := do
  let health ← refreshRuntimeHealth settings
  let chrome ← Prog.ask id
  let url := member "url" content
  let domain := domainFromUrl chrome.script (if isTruthy url then url else .str (tabUrl.getD []))
  pure (.status settings health domain (domain.any fun domain =>
    decide (domain ∈ settings.pausedSites)))

/-- A change request with the settings it has read. -/
def respondChange (content : Json) (settings : Settings) : Task Answer := do
  let chrome ← Prog.ask id
  let change ← Prog.liftExcept (requestedChange chrome.script content)
  let result ← writeSettings (.obj (change.onSettings settings).items)
  pure (.changed result.1 result.2)

/-- An operation from the settings it has read. -/
def writePhase (settings : Settings) : Event → Task Answer
  | .startup => do
      let _ ← writeSettings (.obj settings.items)
      pure .initialised
  | .message content tabUrl =>
      if (member "type" content).strOf = some (str "getStatus") then
        respondStatus content tabUrl settings
      else respondChange content settings

/-! ## The worker -/

/-- How far an operation that has started is. -/
inductive Progress where
  | entered
  | read (settings : Settings)

abbrev Operations : Type := Chain Event Progress (Except JsError Answer)

structure Worker where
  operations : Operations
  runtime : Runtime

/-- How an operation goes on after its first phase. -/
def afterRead : Exit JsError Settings → Option (Phase Progress (Except JsError Answer))
  | .ok settings => some (.running (.read settings))
  | .raised e => some (.settled (.error e))
  | .halted => none

/-- How an operation settles after its second phase. -/
def afterWrite : Exit JsError Answer → Option (Except JsError Answer)
  | .ok answer => some (.ok answer)
  | .raised e => some (.error e)
  | .halted => none

/-- What can happen in the worker.  A phase of an operation is one step; an operation that is
under way could meet with another one between its phases. -/
inductive Step (chrome : Chrome) : Worker → Worker → Prop where
  | arrive {w : Worker} (event : Event) :
      Step chrome w { w with operations := w.operations.enqueue event }
  | start {w : Worker} {i : Nat} {op : Operation Event Progress (Except JsError Answer)} :
      w.operations.operations[i]? = some op → op.phase = .waiting →
      w.operations.Settled op.after →
      Step chrome w { w with operations := w.operations.setPhase i (.running .entered) }
  | read {w : Worker} {i : Nat} {op : Operation Event Progress (Except JsError Answer)}
      {exit : Exit JsError Settings} {runtime : Runtime}
      {phase : Phase Progress (Except JsError Answer)} :
      w.operations.operations[i]? = some op → op.phase = .running .entered →
      readPhase op.event chrome w.runtime = (exit, runtime) → afterRead exit = some phase →
      Step chrome w ⟨w.operations.setPhase i phase, runtime⟩
  | write {w : Worker} {i : Nat} {op : Operation Event Progress (Except JsError Answer)}
      {settings : Settings} {exit : Exit JsError Answer} {runtime : Runtime}
      {result : Except JsError Answer} :
      w.operations.operations[i]? = some op → op.phase = .running (.read settings) →
      writePhase settings op.event chrome w.runtime = (exit, runtime) →
      afterWrite exit = some result →
      Step chrome w ⟨w.operations.setPhase i (.settled result), runtime⟩

/-- The workers that are reached from a new one by steps from workers with a property. -/
inductive Reached (chrome : Chrome) (P : Worker → Prop) (runtime : Runtime) : Worker → Prop where
  | start : Reached chrome P runtime ⟨Chain.empty, runtime⟩
  | step {w w' : Worker} : Reached chrome P runtime w → P w → Step chrome w w' →
      Reached chrome P runtime w'

/-- The settings that are stored. -/
def Worker.settings (script : Script) (w : Worker) : Settings :=
  storedSettings script w.runtime.storage

/-- The change that was answered with ok. -/
def changeOf (script : Script) : Event → Except JsError Answer → Option Change
  | .message content _, .ok (.changed _ _) => (requestedChange script content).toOption
  | _, _ => none

/-- The change of an operation that was answered with ok. -/
def okChange (script : Script) (op : Operation Event Progress (Except JsError Answer)) :
    Option Change :=
  match op.phase with
  | .settled result => changeOf script op.event result
  | _ => none

/-- The changes that were answered with ok, in the order of their arrival. -/
def Worker.changes (script : Script) (w : Worker) : List Change :=
  w.operations.operations.filterMap (okChange script)

/-- No operation is under way. -/
def Worker.Idle (w : Worker) : Prop :=
  ∀ op ∈ w.operations.operations, ∀ progress, op.phase ≠ .running progress

/-! ## What the requests are for -/

/-- The settings as the user knows them. -/
@[ext] structure Wanted where
  protectionEnabled : Bool
  highRiskMode : Bool
  youtubeCleanup : Bool
  paused : Set Str

def Settings.wanted (settings : Settings) : Wanted where
  protectionEnabled := settings.protectionEnabled
  highRiskMode := settings.highRiskMode
  youtubeCleanup := settings.youtubeCleanup
  paused := {site | site ∈ settings.pausedSites}

/-- What a change asks for. -/
def Change.apply (wanted : Wanted) : Change → Wanted
  | .protection enabled => { wanted with protectionEnabled := enabled }
  | .youtubeCleanup enabled => { wanted with youtubeCleanup := enabled }
  | .highRiskMode enabled => { wanted with highRiskMode := enabled }
  | .sitePaused domain true => { wanted with paused := insert domain wanted.paused }
  | .sitePaused domain false => { wanted with paused := wanted.paused \ {domain} }

/-- No update is lost: the stored settings are what the changes that were answered with ok make of
the initial settings, and a site is paused or not as the last of them that names it asked. -/
structure Faithful (script : Script) (initial : Runtime) (w : Worker) : Prop where
  settings : (w.settings script).wanted =
    (w.changes script).foldl Change.apply (storedSettings script initial.storage).wanted
  site : ∀ before domain paused later,
    w.changes script = before ++ .sitePaused domain paused :: later →
      (∀ paused', .sitePaused domain paused' ∉ later) →
      (domain ∈ (w.settings script).pausedSites ↔ paused = true)

/-- There is room for the site that a request pauses. -/
def HasRoom (script : Script) (settings : Settings) (event : Event) : Prop :=
  ∀ content tabUrl domain, event = .message content tabUrl →
    requestedChange script content = .ok (.sitePaused domain true) →
    domain ∈ settings.pausedSites ∨ settings.pausedSites.length < 200

/-- There is room for whatever an operation that has read the settings is about to write. -/
def Roomy (script : Script) (w : Worker) : Prop :=
  ∀ op ∈ w.operations.operations, ∀ settings, op.phase = .running (.read settings) →
    HasRoom script settings op.event

/-! ## The settings that are written -/

section Changes

variable {script : Script} {settings : Settings}

/-- A change keeps settings normalized where there is room for it. -/
theorem normalized_onSettings (h : Normalized script settings) {message : Json} {change : Change}
    (hchange : requestedChange script message = .ok change)
    (hroom : ∀ domain, change = .sitePaused domain true →
      domain ∈ settings.pausedSites ∨ settings.pausedSites.length < 200) :
    Normalized script (change.onSettings settings) := by
  cases change with
  | protection enabled => exact ⟨h.domains, h.ordered, h.short⟩
  | youtubeCleanup enabled => exact ⟨h.domains, h.ordered, h.short⟩
  | highRiskMode enabled => exact ⟨h.domains, h.ordered, h.short⟩
  | sitePaused domain paused =>
      have hdomain : normalizeDomain script (.str domain) = some domain := by
        simp only [requestedChange] at hchange
        repeat' split at hchange
        all_goals cases hchange
        rename_i hnormal
        exact normalizeDomain_str script hnormal
      have hnodup : settings.pausedSites.Nodup := h.ordered.imp fun hlt => ne_of_lt hlt
      have hsorted : ∀ {sites : List Str}, sites.Nodup →
          (∀ d ∈ sites, normalizeDomain script (.str d) = some d) → sites.length ≤ 200 →
          Normalized script { settings with pausedSites := sites.insertionSort (· ≤ ·) } := by
        intro sites hsites hdomains hshort
        refine ⟨fun d hd => hdomains d ((List.mem_insertionSort _).1 hd), ?_, ?_⟩
        · have hordered : (sites.insertionSort (· ≤ ·)).Pairwise (· ≤ ·) :=
            List.pairwise_insertionSort (· ≤ ·) _
          exact hordered.imp₂ (fun _ _ hle hne => lt_of_le_of_ne hle hne)
            ((List.perm_insertionSort _ _).nodup_iff.2 hsites)
        · rw [List.length_insertionSort]
          exact hshort
      rw [Change.onSettings, eraseDups_of_nodup hnodup]
      cases paused with
      | false =>
          exact hsorted (hnodup.filter _) (fun d hd => h.domains d (List.mem_of_mem_filter hd))
            ((List.length_filter_le _ _).trans h.short)
      | true =>
          rw [if_pos rfl]
          split
          · exact hsorted hnodup h.domains h.short
          · rename_i hnew
            have hlength : settings.pausedSites.length < 200 := (hroom domain rfl).resolve_left hnew
            refine hsorted ?_ ?_ ?_
            · exact List.nodup_append.2 ⟨hnodup, List.nodup_singleton _, fun a ha b hb hab =>
                hnew (by rwa [← List.mem_singleton.1 hb, ← hab])⟩
            · intro d hd
              rcases List.mem_append.1 hd with hd | hd
              · exact h.domains d hd
              · rw [List.mem_singleton.1 hd]
                exact hdomain
            · rw [List.length_append]
              exact hlength

/-- The handler changes the settings as the request asks. -/
theorem wanted_onSettings (settings : Settings) (change : Change) :
    (change.onSettings settings).wanted = change.apply settings.wanted := by
  cases change with
  | protection enabled => rfl
  | youtubeCleanup enabled => rfl
  | highRiskMode enabled => rfl
  | sitePaused domain paused =>
      cases paused with
      | false =>
          refine Wanted.ext rfl rfl rfl (Set.ext fun site => ?_)
          simp [Change.onSettings, Change.apply, Settings.wanted, List.mem_insertionSort]
      | true =>
          refine Wanted.ext rfl rfl rfl (Set.ext fun site => ?_)
          simp only [Change.onSettings, Change.apply, Settings.wanted, if_true,
            Set.mem_ofPred_eq, List.mem_insertionSort, Set.mem_insert_iff]
          split
          · rename_i hmem
            rw [List.mem_eraseDups] at hmem ⊢
            exact ⟨.inr, fun hsite => hsite.elim (fun heq => heq ▸ hmem) fun h => h⟩
          · rw [List.mem_append, List.mem_eraseDups, List.mem_singleton]
            exact or_comm

end Changes

/-! ## The phases of an operation -/

section Phases

variable {chrome : Chrome} {s s' : Runtime}

theorem wp_readPhase (event : Event) :
    wp chrome (readPhase event)
      ⟨fun settings s' => Quiet s s' ∧ settings = storedSettings chrome.script s.storage,
        fun _ s' => Quiet s s', fun _ => False⟩ s := by
  cases event with
  | startup => exact wp_readSettings
  | message content tabUrl =>
      rw [readPhase]
      cases hobject : isObject content with
      | true => exact wp_readSettings
      | false => exact Quiet.refl s

theorem wp_recordRuntimeHealth (health : RuntimeHealth) :
    wp chrome (recordRuntimeHealth health)
      ⟨fun _ s' => storedSettings chrome.script s'.storage =
          storedSettings chrome.script s.storage,
        fun _ s' => storedSettings chrome.script s'.storage =
          storedSettings chrome.script s.storage, fun _ => False⟩ s := by
  rw [recordRuntimeHealth]
  refine wp.bind (wp_setStorage _) (fun _ s₁ h₁ => ?_) (fun _ _ h => (Kept.of_quiet h).settings)
    fun _ h => h
  change storedSettings chrome.script s₁.storage = _
  rw [h₁]
  exact storedSettings_store_record _ _ _

theorem wp_refreshRuntimeHealth (settings : Settings) :
    wp chrome (refreshRuntimeHealth settings)
      ⟨fun _ s' => storedSettings chrome.script s'.storage =
          storedSettings chrome.script s.storage,
        fun _ s' => storedSettings chrome.script s'.storage =
          storedSettings chrome.script s.storage, fun _ => False⟩ s := by
  have hrecord : ∀ {ok : Bool} {error : Option JsError} {details : Option Details}
      {state : Option Str} {s₁ : Runtime}, storedSettings chrome.script s₁.storage =
        storedSettings chrome.script s.storage →
      wp chrome (buildRuntimeHealth ok settings error details state >>= recordRuntimeHealth)
        ⟨fun _ s' => storedSettings chrome.script s'.storage =
            storedSettings chrome.script s.storage,
          fun _ s' => storedSettings chrome.script s'.storage =
            storedSettings chrome.script s.storage, fun _ => False⟩ s₁ := by
    intro ok error details state s₁ h₁
    rw [wp_bind]
    refine wp_buildRuntimeHealth fun health _ _ => ?_
    exact (wp_recordRuntimeHealth health).mono
      ⟨fun _ _ h => h.trans h₁, fun _ _ h => h.trans h₁, fun _ h => h⟩
  rw [refreshRuntimeHealth, wp_tryExcept]
  refine wp.bind (wp_verifyNetworkSettings settings) ?_
    (fun _ _ h => ⟨fun _ => hrecord (Kept.of_quiet h).settings, nofun⟩) fun _ h => h
  rintro details s₁ ⟨h₁, -⟩
  exact (hrecord (Kept.of_quiet h₁).settings).mono
    ⟨fun _ _ h => h, fun _ _ h => ⟨fun _ => hrecord h, nofun⟩, fun _ h => h⟩

/-- What an operation does to the stored settings. -/
theorem wp_writePhase (event : Event)
    (hroom : HasRoom chrome.script (storedSettings chrome.script s.storage) event) :
    wp chrome (writePhase (storedSettings chrome.script s.storage) event)
      ⟨fun answer s' => (storedSettings chrome.script s'.storage).wanted =
          (changeOf chrome.script event (.ok answer)).toList.foldl Change.apply
            (storedSettings chrome.script s.storage).wanted,
        fun _ s' => storedSettings chrome.script s'.storage =
          storedSettings chrome.script s.storage, fun _ => False⟩ s := by
  have hnormalized : Normalized chrome.script (storedSettings chrome.script s.storage) :=
    normalizeSettings_normalized _
  cases event with
  | startup =>
      rw [writePhase]
      refine wp.bind (wp_writeSettings _) ?_ (fun _ _ h => h.settings) fun _ h => h
      rintro result s₁ ⟨-, hcommitted⟩
      exact congrArg Settings.wanted
        (hcommitted.settings.trans (normalizeSettings_items hnormalized))
  | message content tabUrl =>
      rw [writePhase]
      split
      · rw [respondStatus]
        exact wp.bind (wp_refreshRuntimeHealth _) (fun _ _ h => congrArg Settings.wanted h)
          (fun _ _ h => h) fun _ h => h
      · rw [respondChange, wp_bind, wp_ask, Post.withOk_ok, id_eq, wp_bind]
        cases hchange : requestedChange chrome.script content with
        | error e => exact rfl
        | ok change =>
            rw [wp_liftExcept_ok, Post.withOk_ok]
            have hnext := normalized_onSettings hnormalized hchange fun domain hpause =>
              hroom content tabUrl domain rfl (hpause ▸ hchange)
            refine wp.bind (wp_writeSettings _) ?_ (fun _ _ h => h.settings) fun _ h => h
            rintro result s₁ ⟨-, hcommitted⟩
            change (storedSettings chrome.script s₁.storage).wanted = _
            rw [hcommitted.settings, normalizeSettings_items hnext, wanted_onSettings]
            simp only [changeOf, hchange]
            rfl

end Phases

/-! ## Every run -/

/-- What holds of the worker at all times. -/
structure Consistent (script : Script) (initial : Runtime) (w : Worker) : Prop where
  serial : w.operations.Serial
  /-- The settings that an operation has read are those that are stored. -/
  read : ∀ (i : Nat) (op : Operation Event Progress (Except JsError Answer))
    (settings : Settings), w.operations.operations[i]? = some op →
    op.phase = .running (.read settings) → settings = w.settings script
  settings : (w.settings script).wanted =
    (w.changes script).foldl Change.apply (storedSettings script initial.storage).wanted

theorem changeOf_error {script : Script} (event : Event) (e : JsError) :
    changeOf script event (.error e) = none := by
  cases event <;> rfl

theorem settled_of_okChange {script : Script}
    (op : Operation Event Progress (Except JsError Answer)) (h : okChange script op ≠ none) :
    ∃ r, op.phase = .settled r := by
  rw [okChange] at h
  split at h
  · rename_i result hphase
    exact ⟨result, hphase⟩
  · exact absurd rfl h

variable {chrome : Chrome} {initial : Runtime} {w w' : Worker}

/-- A step keeps the worker consistent. -/
theorem Consistent.step (h : Consistent chrome.script initial w)
    (hroom : Roomy chrome.script w) (hstep : Step chrome w w') :
    Consistent chrome.script initial w' := by
  cases hstep with
  | arrive event =>
      refine ⟨h.serial.enqueue event, fun i op settings hop hread => ?_, ?_⟩
      · rw [Chain.enqueue, List.getElem?_append] at hop
        split at hop
        · exact h.read i op settings hop hread
        · obtain ⟨hlt, rfl⟩ := List.getElem?_eq_some_iff.1 hop
          simp at hread
      · rw [Worker.changes, Chain.filterMap_enqueue _ _ settled_of_okChange]
        exact h.settings
  | @start i op hop hwaiting hsettled =>
      refine ⟨h.serial.step (.start .entered hop hwaiting hsettled), ?_, ?_⟩
      · intro j op' settings hop' hread
        obtain ⟨old, hold, rfl⟩ := Chain.getElem?_setPhase hop'
        split at hread
        · cases hread
        · exact h.read j old settings hold hread
      · rw [Worker.changes, Chain.filterMap_running hop (Chain.unsettled_of_waiting hwaiting) .entered
          settled_of_okChange]
        exact h.settings
  | @read i op exit runtime phase hop hentered hrun hphase =>
      have hspec : wp chrome (readPhase op.event) _ w.runtime := wp_readPhase op.event
      unfold wp at hspec
      rw [hrun] at hspec
      cases exit with
      | halted => cases hphase
      | raised e =>
          obtain rfl := Option.some.inj hphase
          have hsame : Worker.settings chrome.script
              ⟨w.operations.setPhase i (.settled (.error e)), runtime⟩ =
                w.settings chrome.script := (Kept.of_quiet hspec).settings
          refine ⟨h.serial.step (.settle _ hop hentered), ?_, ?_⟩
          · intro j op' settings hop' hread
            obtain ⟨old, hold, rfl⟩ := Chain.getElem?_setPhase hop'
            rw [hsame]
            split at hread
            · cases hread
            · exact h.read j old settings hold hread
          · rw [hsame, Worker.changes,
              h.serial.filterMap_settle hop hentered settled_of_okChange (.error e)]
            have hnone : okChange chrome.script { op with phase := .settled (.error e) } = none :=
              changeOf_error op.event e
            rw [hnone, Option.toList_none, List.append_nil]
            exact h.settings
      | ok settings =>
          obtain rfl := Option.some.inj hphase
          obtain ⟨hquiet, hsettings⟩ := hspec
          have hsame : Worker.settings chrome.script
              ⟨w.operations.setPhase i (.running (.read settings)), runtime⟩ =
                w.settings chrome.script := (Kept.of_quiet hquiet).settings
          refine ⟨h.serial.step (.advance _ hop hentered), ?_, ?_⟩
          · intro j op' settings' hop' hread
            obtain ⟨old, hold, rfl⟩ := Chain.getElem?_setPhase hop'
            rw [hsame]
            split at hread
            · cases hread
              exact hsettings
            · exact h.read j old settings' hold hread
          · rw [hsame, Worker.changes, Chain.filterMap_running hop
              (Chain.unsettled_of_running hentered) _ settled_of_okChange]
            exact h.settings
  | @write i op settings exit runtime result hop hread hrun hresult =>
      obtain rfl := h.read i op settings hop hread
      have hspec : wp chrome (writePhase (storedSettings chrome.script w.runtime.storage) op.event) _
          w.runtime := wp_writePhase op.event (hroom op (List.mem_of_getElem? hop) _ hread)
      unfold wp at hspec
      rw [Worker.settings] at hrun
      rw [hrun] at hspec
      have hwanted : (storedSettings chrome.script runtime.storage).wanted =
          (changeOf chrome.script op.event result).toList.foldl Change.apply
            (w.settings chrome.script).wanted := by
        cases exit with
        | halted => cases hresult
        | raised e =>
            obtain rfl := Option.some.inj hresult
            rw [changeOf_error]
            exact congrArg Settings.wanted hspec
        | ok answer =>
            obtain rfl := Option.some.inj hresult
            exact hspec
      refine ⟨h.serial.step (.settle _ hop hread), ?_, ?_⟩
      · -- No other operation is under way.
        intro j op' settings' hop' hread'
        obtain ⟨old, hold, rfl⟩ := Chain.getElem?_setPhase hop'
        split at hread'
        · cases hread'
        · rename_i hne
          exact absurd (h.serial.running_unique hop hread hold hread') hne
      · rw [Worker.changes,
          h.serial.filterMap_settle hop hread settled_of_okChange result, List.foldl_append]
        have hfold := h.settings
        rw [Worker.changes] at hfold
        rw [← hfold]
        exact hwanted

theorem Reached.consistent (h : Reached chrome (Roomy chrome.script) initial w) :
    Consistent chrome.script initial w := by
  induction h with
  | start =>
      refine ⟨Chain.serial_empty, fun i op settings hop => ?_, ?_⟩
      · simp [Chain.empty] at hop
      · have hnone : Worker.changes chrome.script ⟨Chain.empty, initial⟩ = [] := rfl
        rw [hnone, List.foldl_nil, Worker.settings]
  | step _ hroom hstep ih => exact ih.step hroom hstep

/-- Changes that do not name a site leave its pause alone. -/
theorem mem_paused_foldl {site : Str} {changes : List Change}
    (h : ∀ paused, .sitePaused site paused ∉ changes) (wanted : Wanted) :
    site ∈ (changes.foldl Change.apply wanted).paused ↔ site ∈ wanted.paused := by
  induction changes generalizing wanted with
  | nil => exact Iff.rfl
  | cons change changes ih =>
      have hrest : ∀ paused, .sitePaused site paused ∉ changes := fun paused hmem =>
        h paused (List.mem_cons_of_mem _ hmem)
      rw [List.foldl_cons, ih hrest]
      cases change with
      | protection enabled => exact Iff.rfl
      | youtubeCleanup enabled => exact Iff.rfl
      | highRiskMode enabled => exact Iff.rfl
      | sitePaused domain paused =>
          have hne : site ≠ domain := fun heq => h paused (heq ▸ List.mem_cons_self)
          cases paused with
          | true => simp [Change.apply, hne]
          | false => simp [Change.apply, hne]

/-! ## A request that is served -/

section Served

variable {s : Runtime} {content : Json} {change : Change} {P : Worker → Prop}

/-- A browser without faults carries out a change. -/
theorem Calm.respondChange_returns (h : Calm chrome) (hown : s.network.Own)
    (hchange : requestedChange chrome.script content = .ok change) (settings : Settings) :
    ∃ stored health s', respondChange content settings chrome s = (.ok (.changed stored health), s') ∧
      storedSettings chrome.script s'.storage =
        normalizeSettings chrome.script (.obj (change.onSettings settings).items) := by
  have hwrite := wp.and (h.wp_writeSettings hown (.obj (change.onSettings settings).items))
    (Shields.wp_writeSettings (.obj (change.onSettings settings).items))
  have hrun : wp chrome (respondChange content settings)
      ⟨fun answer s' => (∃ stored health, answer = .changed stored health) ∧
          storedSettings chrome.script s'.storage =
            normalizeSettings chrome.script (.obj (change.onSettings settings).items),
        fun _ _ => False, fun _ => False⟩ s := by
    rw [respondChange, wp_bind, wp_ask, Post.withOk_ok, id_eq, wp_bind, hchange, wp_liftExcept_ok,
      Post.withOk_ok]
    refine wp.bind hwrite ?_ (fun _ _ hf => hf.1) fun _ hf => hf.1
    rintro result s' ⟨-, -, hcommitted⟩
    exact ⟨⟨_, _, rfl⟩, hcommitted.settings⟩
  obtain ⟨answer, s', heq, ⟨stored, health, rfl⟩, hsettings⟩ := hrun.returns
  exact ⟨stored, health, s', heq, hsettings⟩

theorem Calm.readSettings_returns (h : Calm chrome) :
    ∃ s', readSettings chrome s = (.ok (storedSettings chrome.script s.storage), s') ∧
      Quiet s s' := by
  have hread : wp chrome readSettings
      ⟨fun settings s' => Quiet s s' ∧ settings = storedSettings chrome.script s.storage,
        fun _ _ => False, fun _ => False⟩ s := by
    simp only [readSettings, wp_bind, wp_nextCall, wp_ask, wp_gets, Post.withOk_ok, h.storage,
      failWith, wp_pure]
    exact ⟨rfl, rfl⟩
  obtain ⟨settings, s', heq, hquiet, rfl⟩ := hread.returns
  exact ⟨s', heq, hquiet⟩

/-- A change request that arrives in a new worker is served. -/
theorem Calm.serve (h : Calm chrome) (hown : initial.network.Own) {members : List (Str × Json)}
    (hchange : requestedChange chrome.script (.obj members) = .ok change)
    (hP : ∀ w : Worker, (∀ op ∈ w.operations.operations, op.event = .message (.obj members) none ∧
      ∀ settings, op.phase = .running (.read settings) →
        settings = storedSettings chrome.script initial.storage) → P w) :
    ∃ w, Reached chrome P initial w ∧ w.Idle ∧ w.changes chrome.script = [change] ∧
      w.settings chrome.script = normalizeSettings chrome.script
        (.obj (change.onSettings (storedSettings chrome.script initial.storage)).items) := by
  have htype : ¬ (member "type" (.obj members)).strOf = some (str "getStatus") := by
    intro hstatus
    rw [requestedChange, hstatus] at hchange
    simp [Text.str_injective] at hchange
  obtain ⟨runtime, hread, hquiet⟩ := h.readSettings_returns (s := initial)
  have hown' : runtime.network.Own := by
    rw [hquiet.network]
    exact hown
  obtain ⟨stored, health, last, hwrite, hsettings⟩ := h.respondChange_returns hown' hchange
    (storedSettings chrome.script initial.storage)
  have hphase : writePhase (storedSettings chrome.script initial.storage)
      (.message (.obj members) none) chrome runtime = (.ok (.changed stored health), last) := by
    rw [writePhase, if_neg htype]
    exact hwrite
  let op (phase : Phase Progress (Except JsError Answer)) : Operation Event Progress _ :=
    ⟨.message (.obj members) none, none, phase⟩
  have hop : ∀ phase, [op phase][0]? = some (op phase) := fun _ => rfl
  have hsingle : ∀ {phase : Phase Progress (Except JsError Answer)} {runtime : Runtime},
      (∀ settings, phase = .running (.read settings) →
        settings = storedSettings chrome.script initial.storage) →
      P ⟨⟨[op phase], some 0⟩, runtime⟩ := by
    intro phase runtime hsettings
    refine hP _ fun op' hop' => ?_
    obtain rfl := List.mem_singleton.1 hop'
    exact ⟨rfl, hsettings⟩
  have hempty : P ⟨Chain.empty, initial⟩ := hP _ fun op hop => nomatch hop
  have harrived : Reached chrome P initial ⟨⟨[op .waiting], some 0⟩, initial⟩ :=
    Reached.start.step hempty (.arrive _)
  have hstarted : Reached chrome P initial ⟨⟨[op (.running .entered)], some 0⟩, initial⟩ :=
    harrived.step (hsingle nofun)
      (@Step.start chrome ⟨⟨[op .waiting], some 0⟩, initial⟩ 0 (op .waiting) (hop _) rfl trivial)
  have hreading : Reached chrome P initial ⟨⟨[op (.running (.read
      (storedSettings chrome.script initial.storage)))], some 0⟩, runtime⟩ :=
    hstarted.step (hsingle nofun)
      (@Step.read chrome ⟨⟨[op (.running .entered)], some 0⟩, initial⟩ 0 (op (.running .entered))
        _ _ _ (hop _) rfl hread rfl)
  have hwritten : Reached chrome P initial
      ⟨⟨[op (.settled (.ok (.changed stored health)))], some 0⟩, last⟩ :=
    hreading.step (hsingle fun settings heq => by cases heq; rfl)
      (@Step.write chrome ⟨⟨[op _], some 0⟩, runtime⟩ 0 (op _) _ _ _ _ (hop _) rfl hphase rfl)
  refine ⟨_, hwritten, ?_, ?_, hsettings⟩
  · intro op' hop' progress hrunning
    obtain rfl := List.mem_singleton.1 hop'
    cases hrunning
  · simp [Worker.changes, okChange, changeOf, hchange, Except.toOption, op]

end Served

/-! ## No lost update -/

theorem toLower_domain (s : Str) (hs : s.all isDomainChar = true) : Browser.toLower s = s := by
  refine Browser.toLower_eq fun c hc => ?_
  have h := List.all_eq_true.1 hs c hc
  simp only [isDomainChar, decide_eq_true_eq] at h
  omega

/-- Functions of the script engine for texts in ASCII. -/
def sampleScript : Script where
  toLowerCase := Browser.toLower
  toLowerCase_eq := toLower_domain
  localeLe a b := decide (a ≤ b)
  parseUrl _ := none

def sampleChrome : Chrome where
  script := sampleScript
  extensionVersion := str "0.5.3"
  available := true
  updateEnabledRulesets _ enable _ network := ({ network with enabledRulesets := enable }, none)
  updateDynamicRules _ remove add network := network.updateDynamicRules remove add
  readFailure _ := none
  availableStaticRuleCount _ := some 30000
  guaranteedMinimumStaticRules := some 30000
  isRegexSupported _ _ := true
  testMatchOutcome := none
  storageFailure _ := none
  now _ := str "2026-01-01T00:00:00.000Z"

theorem calm_sampleChrome : Calm sampleChrome where
  available := rfl
  reads _ := rfl
  storage _ := rfl
  rulesets _ _ _ _ := rfl
  rules _ _ _ _ := rfl
  capacity _ := ⟨30000, rfl, by decide, by decide⟩
  regexes _ _ := rfl
  probes := rfl

/-- A runtime that holds settings and no dynamic rule. -/
def sampleRuntime (settings : Settings) : Runtime where
  calls := 0
  network := ⟨[], fun _ => [], []⟩
  storage := settings.items
  written := []
  reported := []

theorem own_sampleRuntime (settings : Settings) : (sampleRuntime settings).network.Own :=
  ⟨List.forall_mem_nil _, fun _ => rfl⟩

/-- The request to pause a site. -/
def pauseMembers (domain : Str) : List (Str × Json) :=
  [(str "type", .str (str "setSitePaused")), (str "domain", .str domain),
    (str "paused", .bool true)]

theorem requestedChange_pause {script : Script} {domain : Str}
    (h : normalizeDomain script (.str domain) = some domain) :
    requestedChange script (.obj (pauseMembers domain)) = .ok (.sitePaused domain true) := by
  simp [requestedChange, member, pauseMembers, Json.lookup, Json.strOf, Text.str_injective, h,
    isTrue]

/-- 200 sites. -/
def crowd : List Str := (List.range 200).map fun n =>
  [Fin.ofNat _ (0x61 + n / 20), Browser.dot, Fin.ofNat _ (0x61 + n % 20)]

/-- A site that comes after them. -/
def latecomer : Str := str "z.z"

def crowdedSettings : Settings := { defaultSettings with pausedSites := crowd }

/-- Two letters around a dot are a domain. -/
theorem normalizeDomain_pair {a b : Text.CodePoint} (ha : 97 ≤ a.val ∧ a.val ≤ 122)
    (hb : 97 ≤ b.val ∧ b.val ≤ 122) :
    normalizeDomain sampleScript (.str [a, Browser.dot, b]) = some [a, Browser.dot, b] := by
  have hdot : Browser.dot.val = 0x2E := rfl
  have hhyphen : hyphen.val = 0x2D := rfl
  have hletter {c : Text.CodePoint} (hc : 97 ≤ c.val ∧ c.val ≤ 122) :
      isTrimmed c = false ∧ c ≠ Browser.dot ∧ c ≠ hyphen ∧ isDomainChar c = true := by
    refine ⟨?_, ?_, ?_, ?_⟩
    · simp only [isTrimmed, decide_eq_false_iff_not]
      omega
    · rintro rfl
      omega
    · rintro rfl
      omega
    · simp only [isDomainChar, decide_eq_true_eq]
      omega
  obtain ⟨hatrim, hadot, hahyphen, hachar⟩ := hletter ha
  obtain ⟨hbtrim, hbdot, hbhyphen, hbchar⟩ := hletter hb
  have hchars : [a, Browser.dot, b].all isDomainChar = true := by
    have hdotChar : isDomainChar Browser.dot = true := by decide
    simp [hachar, hbchar, hdotChar]
  have htrim : Browser.trimOf isTrimmed [a, Browser.dot, b] = [a, Browser.dot, b] :=
    Browser.trimOf_eq (by simpa using hatrim) (by simpa using hbtrim)
  have hdots : Browser.trimOf (· = Browser.dot) [a, Browser.dot, b] = [a, Browser.dot, b] :=
    Browser.trimOf_eq (by simpa using hadot) (by simpa using hbdot)
  have hlength : Browser.length16 [a, Browser.dot, b] = 3 := by
    have hone : Browser.dot.val < 0x10000 := by omega
    simp [Browser.length16, hone, show a.val < 0x10000 by omega, show b.val < 0x10000 by omega]
  have hlocal : [a, Browser.dot, b] ≠ str "localhost" := fun h => by
    have hlengths := congrArg List.length h
    cases hlengths
  have hadjacent : ¬ [Browser.dot, Browser.dot] <:+: [a, Browser.dot, b] := by
    simp [List.infix_cons_iff, List.cons_prefix_cons, Ne.symm hadot, Ne.symm hbdot]
  have hlabels : [a, Browser.dot, b].splitOn Browser.dot = [[a], [b]] := by
    simp [List.splitOn_cons_eq_if_modifyHead, hadot, hbdot]
  have hlabel {c : Text.CodePoint} (hc : 97 ≤ c.val ∧ c.val ≤ 122) (hne : c ≠ hyphen) :
      isBadLabel [c] = false := by
    have hone : Browser.length16 [c] = 1 := by
      simp [Browser.length16, show c.val < 0x10000 by omega]
    simp [isBadLabel, hone, hne]
  rw [normalizeDomain, htrim, sampleScript.toLowerCase_eq _ hchars, hdots, checkDomain, if_neg,
    if_neg]
  · dsimp only
    rw [hlabels, if_neg]
    simp [hlabel ha hahyphen, hlabel hb hbhyphen]
  · rw [hchars]
    simp [hadjacent]
  · simp [hlength, hlocal]

theorem val_letter {n : Nat} (h : n < 26) : (Fin.ofNat 0x110000 (0x61 + n)).val = 0x61 + n :=
  Nat.mod_eq_of_lt (by omega)

/-- The letters of the sites grow with their number. -/
theorem pairwise_crowd : crowd.Pairwise (· < ·) := by
  refine List.pairwise_map.2 (List.pairwise_lt_range.imp_of_mem ?_)
  intro n m hn hm hlt
  rw [List.mem_range] at hn hm
  by_cases hfirst : n / 20 < m / 20
  · refine List.cons_lt_cons_iff.2 (.inl ?_)
    rw [Fin.lt_def, val_letter (by omega), val_letter (by omega)]
    omega
  · have hsame : n / 20 = m / 20 := by omega
    refine List.cons_lt_cons_iff.2 (.inr ⟨by rw [hsame], ?_⟩)
    refine List.cons_lt_cons_iff.2 (.inr ⟨rfl, ?_⟩)
    refine List.cons_lt_cons_iff.2 (.inl ?_)
    rw [Fin.lt_def, val_letter (by omega), val_letter (by omega)]
    omega

theorem ordered_crowd : (crowd ++ [latecomer]).Pairwise (· < ·) := by
  refine List.pairwise_append.2 ⟨pairwise_crowd, List.pairwise_singleton _ _, ?_⟩
  intro d hd e he
  obtain ⟨n, hn, rfl⟩ := List.mem_map.1 hd
  rw [List.mem_range] at hn
  rw [List.mem_singleton.1 he]
  refine List.cons_lt_cons_iff.2 (.inl ?_)
  rw [Fin.lt_def, val_letter (by omega)]
  show 0x61 + n / 20 < 0x7A
  omega

theorem normalizeDomain_crowd {d : Str} (hd : d ∈ crowd ++ [latecomer]) :
    normalizeDomain sampleScript (.str d) = some d := by
  rcases List.mem_append.1 hd with hd | hd
  · obtain ⟨n, hn, rfl⟩ := List.mem_map.1 hd
    rw [List.mem_range] at hn
    refine normalizeDomain_pair ?_ ?_
    · rw [val_letter (by omega)]
      omega
    · rw [val_letter (by omega)]
      omega
  · rw [List.mem_singleton.1 hd]
    exact normalizeDomain_pair (by decide) (by decide)

theorem latecomer_not_mem_crowd : latecomer ∉ crowd := fun hmem =>
  lt_irrefl latecomer ((List.pairwise_append.1 ordered_crowd).2.2 _ hmem _
    (List.mem_singleton.2 rfl))

theorem normalized_crowdedSettings : Normalized sampleScript crowdedSettings where
  domains d hd := normalizeDomain_crowd (List.mem_append_left _ hd)
  ordered := (List.pairwise_append.1 ordered_crowd).1
  short := by simp [crowdedSettings, crowd]

theorem storedSettings_sampleRuntime {settings : Settings}
    (h : Normalized sampleScript settings) :
    storedSettings sampleScript (sampleRuntime settings).storage = settings :=
  storedSettings_eq h fun _ hm => Json.lookup_eq_some_of_mem (nodup_items settings) hm

theorem onSettings_latecomer : (Change.sitePaused latecomer true).onSettings crowdedSettings =
    { defaultSettings with pausedSites := crowd ++ [latecomer] } := by
  have hnodup : crowd.Nodup := pairwise_crowd.imp fun hlt => ne_of_lt hlt
  have hsorted : (crowd ++ [latecomer]).insertionSort (· ≤ ·) = crowd ++ [latecomer] :=
    (ordered_crowd.imp fun hlt => le_of_lt hlt).insertionSort_eq
  simp only [Change.onSettings, crowdedSettings, eraseDups_of_nodup hnodup, if_true,
    if_neg latecomer_not_mem_crowd, hsorted]

/-- The first 200 of the sites are kept. -/
theorem pausedSites_normalizeSettings {sites : List Str} (hordered : sites.Pairwise (· < ·))
    (hdomains : ∀ d ∈ sites, normalizeDomain sampleScript (.str d) = some d) :
    (normalizeSettings sampleScript
      (.obj ({ defaultSettings with pausedSites := sites } : Settings).items)).pausedSites =
        sites.take 200 := by
  have hmember : member "pausedSites"
      (.obj ({ defaultSettings with pausedSites := sites } : Settings).items) =
        .arr (sites.map .str) := by
    simp [member, Settings.items, Json.lookup, Text.str_injective]
  simp only [normalizeSettings, hmember, Json.arrOf, Option.map_some, Option.getD_some]
  exact congrArg (List.take 200) (sortedDomains_eq hordered hdomains)

end ZsecShield.Shields
