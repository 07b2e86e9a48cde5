import ZsecShield.Updates.Converge

/-!
# The last known good envelope

Every accepted call first copies the active envelope, also a call that delivers the active
envelope once more and a call that fails before it replaces the active envelope.  So the copy
is the envelope that was active before exactly when the last call that replaced anything has
exchanged the active envelope for another one (`lastKnownGood_previous_iff`).
-/

namespace ZsecShield.Updates

open Text (Str str)
open Effect
open Checks
open Intelligence (Library)

/-! ## Journals -/

/-- The envelope of a call and the replacements that the call carried out, the last one first. -/
structure Turn where
  verified : VerifiedEnvelope
  done : Util.Writes

/-- The call verified and admitted the envelope of the turn and carried out its replacements,
which are the first ones of the call and at least one. -/
structure Turn.Made (rt : Runtime) (crypto : Crypto) (lib : Library) (stateDir : Path) (raw : Bytes)
    (current : DateTime) (nodes : Disk.Nodes) (turn : Turn) (nodes' : Disk.Nodes) : Prop where
  verified : VerifiedFrom rt crypto lib raw current turn.verified
  replaced : turn.done ≠ []
  carried : ∃ outcome catalog envelope state, Admits rt stateDir nodes turn.verified outcome ∧
    Encodes rt turn.verified current catalog envelope state ∧
    turn.done <:+ callWrites stateDir (Disk.content nodes (intelligenceEnvelopePath stateDir))
      catalog envelope state
  wrote : Util.Wrote (Util.Entries (intelligenceDirectory stateDir)) turn.done nodes nodes'

/-- The envelopes that have been active, the newest first, when the file holds some bytes. -/
def activated (held : List Bytes) : Option Bytes → List Bytes
  | none => held
  | some active => if held.head? = some active then held else active :: held

/-- A run of calls with any bytes at any time, each of which may end in any way: the turns of
the calls that replaced something, the last one first, and the envelopes that have been
active. -/
inductive Journal (rt : Runtime) (crypto : Crypto) (lib : Library) (stateDir : Path)
    (start : Disk.Nodes) : List Turn → List Bytes → Disk.Nodes → Prop
  | start : Journal rt crypto lib stateDir start []
      (Disk.content start (intelligenceEnvelopePath stateDir)).toList start
  | kept {log : List Turn} {held : List Bytes} {m : Disk.Machine}
      (run : Journal rt crypto lib stateDir start log held m.nodes) (env : Util.Os) (raw : Bytes)
      (keyringPath : Path) (current : DateTime)
      (hquiet : Util.Quiet env (intelligenceDirectory stateDir))
      (hsame : Disk.Same (Util.Entries (intelligenceDirectory stateDir)) m.nodes
        (installIntelligenceEnvelope rt crypto lib raw stateDir keyringPath current env m).2.nodes) :
      Journal rt crypto lib stateDir start log held
        (installIntelligenceEnvelope rt crypto lib raw stateDir keyringPath current env m).2.nodes
  | turn {log : List Turn} {held : List Bytes} {m : Disk.Machine}
      (run : Journal rt crypto lib stateDir start log held m.nodes) (env : Util.Os) (raw : Bytes)
      (keyringPath : Path) (current : DateTime)
      (hquiet : Util.Quiet env (intelligenceDirectory stateDir)) (turn : Turn)
      (hmade : turn.Made rt crypto lib stateDir raw current m.nodes
        (installIntelligenceEnvelope rt crypto lib raw stateDir keyringPath current env m).2.nodes) :
      Journal rt crypto lib stateDir start (turn :: log)
        (activated held (Disk.content
          (installIntelligenceEnvelope rt crypto lib raw stateDir keyringPath current env m).2.nodes
          (intelligenceEnvelopePath stateDir)))
        (installIntelligenceEnvelope rt crypto lib raw stateDir keyringPath current env m).2.nodes

/-- The turn has committed its sequence. -/
def Turn.Commits (stateDir : Path) (turn : Turn) : Prop :=
  (Json.lookup (intelligenceStatePath stateDir) turn.done).isSome = true

/-- The turn has replaced the active envelope, by other bytes than those it had copied. -/
def Turn.Exchanges (stateDir : Path) (turn : Turn) : Prop :=
  ∃ envelope, Json.lookup (intelligenceEnvelopePath stateDir) turn.done = some envelope ∧
    Json.lookup (intelligenceLastKnownGoodPath stateDir) turn.done ≠ some envelope

/-- The copy is the envelope that was active immediately before the active one, which is
another one. -/
def KeepsPrevious (stateDir : Path) (nodes : Disk.Nodes) (held : List Bytes) : Prop :=
  ∃ active previous older, held = active :: previous :: older ∧
    Disk.content nodes (intelligenceEnvelopePath stateDir) = some active ∧ active ≠ previous ∧
    Disk.content nodes (intelligenceLastKnownGoodPath stateDir) = some previous

section Journal

variable {rt : Runtime} {crypto : Crypto} {lib : Library} {stateDir : Path} {raw : Bytes}
  {current : DateTime} {start nodes nodes' : Disk.Nodes} {log : List Turn} {held : List Bytes}
  {turn : Turn} {copy : Bytes}

theorem entry_storeName {name : Str} (h : name ∈ storeNames) (stateDir : Path) :
    Util.Entries (intelligenceDirectory stateDir)
      (Disk.join (intelligenceDirectory stateDir) name) := (ordinary_storeNames name h).entry _

/-- Every call replaces nothing or makes a turn. -/
theorem Journal.call {m : Disk.Machine}
    (h : Journal rt crypto lib stateDir start log held m.nodes) (env : Util.Os) (raw : Bytes)
    (keyringPath : Path) (current : DateTime)
    (hquiet : Util.Quiet env (intelligenceDirectory stateDir)) :
    ∃ log' held', Journal rt crypto lib stateDir start log' held'
      (installIntelligenceEnvelope rt crypto lib raw stateDir keyringPath current env m).2.nodes := by
  have hwp : wp env (installIntelligenceEnvelope rt crypto lib raw stateDir keyringPath current) _ m :=
    wp_installIntelligenceEnvelope (watched_entries hquiet) raw keyringPath m
  have hend : ∀ n, (Disk.Same (Util.Entries (intelligenceDirectory stateDir)) m.nodes n ∨
      ∃ verified, VerifiedFrom rt crypto lib raw current verified ∧
        Halfway rt stateDir (Util.Entries (intelligenceDirectory stateDir)) m.nodes verified
          current n) →
      Disk.Same (Util.Entries (intelligenceDirectory stateDir)) m.nodes n ∨
        ∃ turn : Turn, turn.Made rt crypto lib stateDir raw current m.nodes n := by
    rintro n (hsame | ⟨verified, hfrom, outcome, catalog, envelope, state, hadmits, hencodes, done,
      hdone, hwrote⟩)
    · exact .inl hsame
    · by_cases hnil : done = []
      · subst hnil
        exact .inl hwrote
      · exact .inr ⟨⟨verified, done⟩, hfrom, hnil, ⟨outcome, catalog, envelope, state, hadmits,
          hencodes, hdone⟩, hwrote⟩
  have hmade := Effect.wp.always (I := fun m' : Disk.Machine =>
      Disk.Same (Util.Entries (intelligenceDirectory stateDir)) m.nodes m'.nodes ∨
        ∃ turn : Turn, turn.Made rt crypto lib stateDir raw current m.nodes m'.nodes)
    (hwp.mono ⟨fun r m' hm' => hend m'.nodes (.inr ⟨r.2, hm'.1, hm'.2.halfway⟩),
      fun _ m' => hend m'.nodes, fun m' => hend m'.nodes⟩)
  rcases hmade with hsame | ⟨turn, hturn⟩
  · exact ⟨_, _, h.kept env raw keyringPath current hquiet hsame⟩
  · exact ⟨_, _, h.turn env raw keyringPath current hquiet turn hturn⟩

/-- What is reached by a history has a journal. -/
theorem Reaches.journal (h : Reaches rt crypto lib stateDir start nodes) :
    ∃ log held, Journal rt crypto lib stateDir start log held nodes := by
  induction h with
  | refl => exact ⟨_, _, .start⟩
  | tail _ hstep ih =>
      obtain ⟨log, held, hjournal⟩ := ih
      cases hstep with
      | install env raw keyringPath current m hquiet =>
          exact hjournal.call env raw keyringPath current hquiet

/-! ## What a turn does to the envelope and its copy -/

/-- A whole call copies what is active. -/
theorem lookup_copy (stateDir : Path) (active : Option Bytes) (catalog envelope state : Bytes) :
    Json.lookup (intelligenceLastKnownGoodPath stateDir)
      (callWrites stateDir active catalog envelope state) = active := by
  have hstate : stateName ≠ lastKnownGoodName := by decide
  have henvelope : envelopeName ≠ lastKnownGoodName := by decide
  have hdocument : documentName ≠ lastKnownGoodName := by decide
  unfold callWrites intelligenceStatePath intelligenceEnvelopePath intelligenceDocumentPath
    intelligenceLastKnownGoodPath
  rw [List.cons_append, Util.lookup_join, if_neg hstate, List.cons_append, Util.lookup_join,
    if_neg henvelope, List.cons_append, Util.lookup_join, if_neg hdocument, List.nil_append]
  cases active with
  | none => rfl
  | some copy => exact if_pos rfl

/-- Already the first replacement of a call copies what is active. -/
theorem lookup_of_suffix {done : Util.Writes} {catalog envelope state : Bytes}
    (h : done <:+ callWrites stateDir (some copy) catalog envelope state) (hnil : done ≠ []) :
    Json.lookup (intelligenceLastKnownGoodPath stateDir) done = some copy := by
  have henvelope : envelopeName ≠ lastKnownGoodName := by decide
  have hdocument : documentName ≠ lastKnownGoodName := by decide
  unfold callWrites at h
  simp only [List.cons_append, List.nil_append, Option.map_some, Option.toList_some,
    List.suffix_cons_iff, List.suffix_nil] at h
  rcases h with rfl | rfl | rfl | rfl | rfl
  · exact lookup_copy stateDir (some copy) catalog envelope state
  · unfold intelligenceEnvelopePath intelligenceDocumentPath intelligenceLastKnownGoodPath
    rw [Util.lookup_join, if_neg henvelope, Util.lookup_join, if_neg hdocument, Json.lookup,
      if_pos rfl]
  · unfold intelligenceDocumentPath intelligenceLastKnownGoodPath
    rw [Util.lookup_join, if_neg hdocument, Json.lookup, if_pos rfl]
  · exact if_pos rfl
  · exact absurd rfl hnil

/-- A turn copies the active envelope. -/
theorem Turn.Made.copied (h : turn.Made rt crypto lib stateDir raw current nodes nodes')
    (hactive : Disk.content nodes (intelligenceEnvelopePath stateDir) = some copy) :
    Json.lookup (intelligenceLastKnownGoodPath stateDir) turn.done = some copy ∧
      Disk.content nodes' (intelligenceLastKnownGoodPath stateDir) = some copy := by
  obtain ⟨_, _, _, _, -, -, hdone⟩ := h.carried
  rw [hactive] at hdone
  have hlookup := lookup_of_suffix hdone h.replaced
  exact ⟨hlookup, h.wrote.content (entry_storeName (by decide) stateDir) hlookup⟩

/-- The active envelope after a turn. -/
theorem Turn.Made.content_envelope (h : turn.Made rt crypto lib stateDir raw current nodes nodes') :
    Disk.content nodes' (intelligenceEnvelopePath stateDir) =
      (Json.lookup (intelligenceEnvelopePath stateDir) turn.done).or
        (Disk.content nodes (intelligenceEnvelopePath stateDir)) := by
  have hentry : Util.Entries (intelligenceDirectory stateDir) (intelligenceEnvelopePath stateDir) :=
    entry_storeName (by decide) stateDir
  cases hlookup : Json.lookup (intelligenceEnvelopePath stateDir) turn.done with
  | some envelope => exact h.wrote.content hentry hlookup
  | none =>
      have hsame := h.wrote.other hentry hlookup
      simp only [Disk.content, hsame, Option.none_or]

/-- A turn that has committed its sequence has replaced the envelope. -/
theorem Turn.Made.envelope_of_commits (h : turn.Made rt crypto lib stateDir raw current nodes nodes')
    (hcommits : turn.Commits stateDir) :
    (Json.lookup (intelligenceEnvelopePath stateDir) turn.done).isSome = true := by
  obtain ⟨_, catalog, envelope, state, -, -, hdone⟩ := h.carried
  rcases List.suffix_cons_iff.1 hdone with heq | hrest
  · have hne : stateName ≠ envelopeName := by decide
    rw [heq]
    change (Json.lookup (Disk.join _ envelopeName) ((Disk.join _ stateName, state) ::
      (Disk.join _ envelopeName, envelope) :: _)).isSome = true
    rw [Util.lookup_join, if_neg hne, Util.lookup_join, if_pos rfl]
    rfl
  · -- The state is only named by the last replacement.
    have hnone : Json.lookup (intelligenceStatePath stateDir) turn.done = none := by
      have hall := lookup_state stateDir
        (Disk.content nodes (intelligenceEnvelopePath stateDir)) catalog envelope
      rw [Json.lookup_eq_none] at hall ⊢
      exact fun hmem => hall ((hrest.map Prod.fst).subset hmem)
    rw [Turn.Commits, hnone] at hcommits
    cases hcommits

/-! ## Over a journal -/

theorem activated_other {held : List Bytes} {active : Bytes} (h : held.head? ≠ some active) :
    activated held (some active) = active :: held := if_neg h

theorem head?_activated (held : List Bytes) (found : Option Bytes) :
    (activated held found).head? = found.or held.head? := by
  cases found with
  | none => rfl
  | some active =>
      rw [activated, Option.some_or]
      by_cases hhead : held.head? = some active
      · rw [if_pos hhead, hhead]
      · rw [if_neg hhead, List.head?_cons]

theorem content_of_same (h : Disk.Same (Util.Entries (intelligenceDirectory stateDir)) nodes nodes')
    {name : Str} (hname : name ∈ storeNames) :
    Disk.content nodes' (Disk.join (intelligenceDirectory stateDir) name) =
      Disk.content nodes (Disk.join (intelligenceDirectory stateDir) name) := by
  simp only [Disk.content, h _ (entry_storeName hname stateDir)]

/-- The newest of the envelopes is the active one. -/
theorem Journal.content_envelope (h : Journal rt crypto lib stateDir start log held nodes) :
    Disk.content nodes (intelligenceEnvelopePath stateDir) = held.head? := by
  induction h with
  | start =>
      cases Disk.content start (intelligenceEnvelopePath stateDir) with
      | none => rfl
      | some _ => rfl
  | kept _ _ _ _ _ _ hsame ih =>
      exact (content_of_same hsame (show envelopeName ∈ storeNames by decide)).trans ih
  | turn _ _ _ _ _ _ _ hmade ih =>
      rw [head?_activated, ← ih, hmade.content_envelope]
      cases Json.lookup (intelligenceEnvelopePath stateDir) (Turn.done _) with
      | none => simp
      | some _ => rfl

/-- Once a sequence was committed there is an active envelope. -/
theorem Journal.held_of_commits (h : Journal rt crypto lib stateDir start log held nodes)
    (hcommits : ∃ turn ∈ log, turn.Commits stateDir) : held.head?.isSome = true := by
  induction h with
  | start =>
      obtain ⟨_, hmem, -⟩ := hcommits
      cases hmem
  | kept _ _ _ _ _ _ _ ih => exact ih hcommits
  | turn run _ _ _ _ _ turn hmade ih =>
      rw [head?_activated, hmade.content_envelope, Option.isSome_or, Option.isSome_or]
      obtain ⟨t, hmem, hturn⟩ := hcommits
      rcases List.mem_cons.1 hmem with rfl | hmem
      · rw [hmade.envelope_of_commits hturn]
        rfl
      · rw [ih ⟨t, hmem, hturn⟩, Bool.or_true]

/-- The last turn of a journal, and that nothing was replaced behind it. -/
theorem Journal.last (h : Journal rt crypto lib stateDir start (turn :: log) held nodes) :
    ∃ old before after raw current, Journal rt crypto lib stateDir start log old before ∧
      turn.Made rt crypto lib stateDir raw current before after ∧
      Disk.Same (Util.Entries (intelligenceDirectory stateDir)) after nodes ∧
      held = activated old (Disk.content after (intelligenceEnvelopePath stateDir)) := by
  generalize heq : turn :: log = whole at h
  induction h with
  | start => cases heq
  | kept _ _ _ _ _ _ hsame ih =>
      obtain ⟨old, before, after, raw, current, hjournal, hmade, hafter, hheld⟩ := ih heq
      exact ⟨old, before, after, raw, current, hjournal, hmade, hafter.trans hsame, hheld⟩
  | turn run env raw keyringPath current _ _ hmade _ =>
      cases heq
      exact ⟨_, _, _, raw, current, run, hmade, Disk.Same.refl _ _, rfl⟩

/-- Behind a committed sequence the copy is the previous envelope exactly when the last turn
has exchanged the active one. -/
theorem Journal.keepsPrevious_iff
    (h : Journal rt crypto lib stateDir start (turn :: log) held nodes)
    (hcommits : ∃ t ∈ log, Turn.Commits stateDir t) :
    KeepsPrevious stateDir nodes held ↔ turn.Exchanges stateDir := by
  obtain ⟨old, before, after, raw, current, hjournal, hmade, hafter, rfl⟩ := h.last
  have hsome := hjournal.held_of_commits hcommits
  cases old with
  | nil => cases hsome
  | cons active older =>
      have hactive := hjournal.content_envelope
      rw [List.head?_cons] at hactive
      obtain ⟨hlookup, hcopy⟩ := hmade.copied hactive
      have hnow := hmade.content_envelope
      have hkept : Disk.content nodes (intelligenceLastKnownGoodPath stateDir) =
          Disk.content after (intelligenceLastKnownGoodPath stateDir) :=
        content_of_same hafter (show lastKnownGoodName ∈ storeNames by decide)
      rw [← hkept] at hcopy
      have henvelope : Disk.content nodes (intelligenceEnvelopePath stateDir) =
          Disk.content after (intelligenceEnvelopePath stateDir) :=
        content_of_same hafter (show envelopeName ∈ storeNames by decide)
      rw [hactive] at hnow
      constructor
      · rintro ⟨newest, previous, _, -, hnewest, hne, hprevious⟩
        cases hcopy.symm.trans hprevious
        rw [henvelope, hnow] at hnewest
        cases hreplaced : Json.lookup (intelligenceEnvelopePath stateDir) turn.done with
        | none =>
            rw [hreplaced] at hnewest
            exact absurd (Option.some.inj hnewest).symm hne
        | some envelope =>
            rw [hreplaced] at hnewest
            cases hnewest
            exact ⟨newest, hreplaced, fun heq => hne (Option.some.inj (hlookup.symm.trans heq)).symm⟩
      · rintro ⟨envelope, hreplaced, hother⟩
        have hne : envelope ≠ active := by
          rintro rfl
          exact hother hlookup
        rw [hreplaced, Option.some_or] at hnow
        refine ⟨envelope, active, older, ?_, henvelope.trans hnow, hne, hcopy⟩
        have hhead : (active :: older).head? ≠ some envelope :=
          fun heq => hne (Option.some.inj heq).symm
        rw [hnow, activated_other hhead]

end Journal

/-- In every run in which two different sequences were committed, the copy is the envelope that
was active immediately before the active one exactly when the last call that replaced anything
has exchanged the active envelope for another one. -/
theorem lastKnownGood_previous_iff (rt : Runtime) (crypto : Crypto) (lib : Library)
    (stateDir : Path) {start nodes : Disk.Nodes} {log : List Turn} {held : List Bytes}
    (h : Journal rt crypto lib stateDir start log held nodes)
    (htwo : ∃ a ∈ log, ∃ b ∈ log, a.Commits stateDir ∧ b.Commits stateDir ∧
      a.verified.sequence ≠ b.verified.sequence) :
    KeepsPrevious stateDir nodes held ↔
      ∃ turn rest, log = turn :: rest ∧ turn.Exchanges stateDir := by
  obtain ⟨a, ha, b, hb, hacommits, hbcommits, hne⟩ := htwo
  cases log with
  | nil => cases ha
  | cons turn rest =>
      have hrest : ∃ t ∈ rest, Turn.Commits stateDir t := by
        rcases List.mem_cons.1 ha with rfl | ha
        · rcases List.mem_cons.1 hb with rfl | hb
          · exact absurd rfl hne
          · exact ⟨b, hb, hbcommits⟩
        · exact ⟨a, ha, hacommits⟩
      rw [h.keepsPrevious_iff hrest]
      constructor
      · exact fun hexchanges => ⟨turn, rest, rfl, hexchanges⟩
      · rintro ⟨_, _, heq, hexchanges⟩
        cases heq
        exact hexchanges

/-! ### Deliveries of two envelopes -/

namespace Sample

open Feed.Sample (runtime keyringPath stateDir current env)
open Intelligence.Sample (library)

/-- A journal from the empty store, and what the next call finds. -/
structure Delivered (log : List Turn) (held : List Bytes) (nodes : Disk.Nodes)
    (committed : Option IntelligenceState) : Prop where
  journal : Journal runtime crypto library stateDir Feed.Sample.nodes log held nodes
  committed : Committed runtime stateDir nodes committed
  ready : Ready nodes

theorem delivered_nothing : Delivered [] [] Feed.Sample.nodes none := by
  refine ⟨?_, nothing_committed, ready_nodes⟩
  have hnone : Disk.content Feed.Sample.nodes (intelligenceEnvelopePath stateDir) = none := by
    have habsent : Feed.Sample.nodes (intelligenceEnvelopePath stateDir) = none := nodes_eq_none _
    rw [Disk.content, habsent]
  have hstart : Journal runtime crypto library stateDir Feed.Sample.nodes [] _ Feed.Sample.nodes :=
    Journal.start
  rw [hnone] at hstart
  exact hstart

/-- The envelope file after an installation. -/
def Signed.file (s : Signed) : Bytes := Feed.Sample.bytes (.obj s.document) ++ [10]

variable {s : Signed} {log : List Turn} {held : List Bytes} {nodes : Disk.Nodes}
  {committed : Option IntelligenceState} {outcome : Feed.InstallOutcome}

theorem verifiedFrom (hs : s ∈ [first, again, second]) :
    VerifiedFrom runtime crypto library (Feed.Sample.bytes (.obj s.document)) current s.verified := by
  obtain ⟨members, keyId, source, keyring, hread, -, -, hparse, hverified⟩ :=
    (ready_nodes.uninterrupted hs).stillValid
  exact ⟨members, keyId, source, keyring, hread, hparse, hverified⟩

/-- A delivery makes a turn that exchanges the envelope unless it is the active one. -/
theorem Delivered.install (h : Delivered log held nodes committed) (hs : s ∈ [first, again, second])
    (hrule : rollbackRule s.verified committed = .ok outcome) :
    ∃ turn nodes', Delivered (turn :: log) (activated held (some s.file)) nodes'
        (some (IntelligenceState.commits s.verified)) ∧
      turn.verified = s.verified ∧ turn.Commits stateDir ∧
      (turn.Exchanges stateDir ↔ held.head? ≠ some s.file) := by
  obtain ⟨m, hcall, hinstalled, hready⟩ := h.ready.installs hs h.committed hrule 0
  have hcommitted := committed_of_installed hs hinstalled
  have hentries : ∀ p, Util.Entries (intelligenceDirectory stateDir) p →
      Util.Beside (intelligenceDirectory stateDir) p := by
    rintro p ⟨name, rfl, hname⟩
    refine Util.beside_join ?_
    rintro rfl
    exact hname rfl
  obtain ⟨catalog, envelope, state, hadmits, hencodes, hwrote⟩ := hinstalled
  have hfile : envelope = s.file := by
    obtain ⟨data, hdata, rfl⟩ := hencodes.envelope
    cases hdata.symm.trans (Feed.Sample.bytes_eq (writable_document hs))
    rfl
  subst hfile
  have hactive := h.journal.content_envelope
  let turn : Turn := ⟨s.verified, callWrites stateDir
    (Disk.content nodes (intelligenceEnvelopePath stateDir)) catalog s.file state⟩
  have henvelope : Json.lookup (intelligenceEnvelopePath stateDir) turn.done = some s.file := by
    change Json.lookup (Disk.join _ envelopeName) ((Disk.join _ stateName, state) ::
      (Disk.join _ envelopeName, s.file) :: _) = _
    rw [Util.lookup_join, if_neg (by decide), Util.lookup_join, if_pos rfl]
  have hmade : turn.Made runtime crypto library stateDir (Feed.Sample.bytes (.obj s.document)) current
      nodes m.nodes :=
    ⟨verifiedFrom hs, List.cons_ne_nil _ _,
      ⟨outcome, catalog, s.file, state, hadmits, hencodes, List.suffix_refl _⟩,
      hwrote.mono hentries⟩
  have hjournal := Journal.turn (m := ⟨nodes, 0⟩) h.journal (env .done)
    (Feed.Sample.bytes (.obj s.document)) keyringPath current (fun _ _ _ => rfl) turn
  rw [hcall] at hjournal
  have hjournal := hjournal hmade
  rw [hmade.content_envelope, henvelope, Option.some_or] at hjournal
  refine ⟨turn, m.nodes, ⟨hjournal, hcommitted, hready⟩, rfl, ?_, ?_⟩
  · change (Json.lookup _ ((intelligenceStatePath stateDir, state) :: _)).isSome = true
    rw [Json.lookup, if_pos rfl]
    rfl
  · rw [← hactive]
    constructor
    · rintro ⟨_, hlookup, hother⟩ heq
      cases henvelope.symm.trans hlookup
      exact hother ((lookup_copy _ _ _ _ _).trans heq)
    · exact fun hne => ⟨_, henvelope, fun heq => hne ((lookup_copy _ _ _ _ _).symm.trans heq)⟩

/-- Two signed envelopes with different sequences are different files. -/
theorem file_ne : first.file ≠ second.file := by
  intro heq
  have hbytes := List.append_cancel_right heq
  have hread := readIntelligenceEnvelope_bytes (s := first) (by simp)
  rw [hbytes, readIntelligenceEnvelope_bytes (s := second) (by simp)] at hread
  have hdocument := congrArg Prod.fst (Except.ok.inj hread)
  have hpayload := congrArg (fun members => Feed.field members "payload") hdocument
  have hsequence := congrArg (fun members => Feed.field members "sequence") (Json.obj.inj hpayload)
  cases hsequence

/-- The two envelopes one after the other. -/
theorem delivered_both : ∃ a b nodes, Delivered [b, a] [second.file, first.file] nodes
      (some (IntelligenceState.commits second.verified)) ∧
    a.Commits stateDir ∧ b.Commits stateDir ∧ a.verified.sequence ≠ b.verified.sequence ∧
      b.Exchanges stateDir := by
  obtain ⟨a, nodes, hfirst, ha, hacommits, -⟩ :=
    delivered_nothing.install (s := first) (by simp) rfl
  have hnewer : rollbackRule second.verified (some (IntelligenceState.commits first.verified)) =
      .ok .installed := rfl
  obtain ⟨b, nodes', hsecond, hb, hbcommits, hexchanges⟩ := hfirst.install (s := second) (by simp) hnewer
  have hhead : ([first.file] : List Bytes).head? ≠ some second.file :=
    fun heq => file_ne (Option.some.inj heq)
  have hempty : ([] : List Bytes).head? ≠ some first.file := nofun
  rw [activated_other hempty] at hsecond hexchanges
  rw [activated_other hhead] at hsecond
  refine ⟨a, b, nodes', hsecond, hacommits, hbcommits, ?_,
    hexchanges.2 hhead⟩
  rw [ha, hb]
  decide

end Sample

open Sample in
/-- After the two envelopes the copy is the first one. -/
theorem lastKnownGood_previous_both : ∃ log held nodes, Journal Feed.Sample.runtime crypto
      Intelligence.Sample.library Feed.Sample.stateDir Feed.Sample.nodes log held nodes ∧
    held = [second.file, first.file] ∧ KeepsPrevious Feed.Sample.stateDir nodes held := by
  obtain ⟨a, b, nodes, hdelivered, hacommits, hbcommits, hne, hexchanges⟩ := delivered_both
  refine ⟨_, _, nodes, hdelivered.journal, rfl, ?_⟩
  exact (lastKnownGood_previous_iff _ _ _ _ hdelivered.journal
    ⟨a, by simp, b, by simp, hacommits, hbcommits, hne⟩).2 ⟨b, [a], rfl, hexchanges⟩

open Sample in
/-- The second envelope is delivered once more, and the copy is a copy of it. -/
theorem lastKnownGood_overwritten : ∃ log held nodes, Journal Feed.Sample.runtime crypto
      Intelligence.Sample.library Feed.Sample.stateDir Feed.Sample.nodes log held nodes ∧
    (∃ a ∈ log, ∃ b ∈ log, a.Commits Feed.Sample.stateDir ∧ b.Commits Feed.Sample.stateDir ∧
      a.verified.sequence ≠ b.verified.sequence) ∧
    ¬ KeepsPrevious Feed.Sample.stateDir nodes held := by
  obtain ⟨a, b, nodes, hdelivered, hacommits, hbcommits, hne, -⟩ := delivered_both
  have hrepeated : AtLeast second.verified (some (IntelligenceState.commits second.verified)) := by
    intro state heq
    cases heq
    exact Follows.refl _
  obtain ⟨outcome, hrule⟩ := rollbackRule_of_atLeast hrepeated
  obtain ⟨c, nodes', hagain, -, -, hexchanges⟩ :=
    hdelivered.install (s := second) (by simp) hrule
  refine ⟨_, _, nodes', hagain.journal,
    ⟨a, by simp, b, by simp, hacommits, hbcommits, hne⟩, ?_⟩
  rw [hagain.journal.keepsPrevious_iff ⟨a, by simp, hacommits⟩, hexchanges]
  exact fun hother => hother rfl

end ZsecShield.Updates
