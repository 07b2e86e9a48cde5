import ZsecShield.Watch.FlagDiscipline

/-!
# The summary of a session

After the main loop the watcher detaches its observer, joins the ingest thread and
looks at the event pipeline once more.  `Closing` says how far it is, and `Closed`
that no other thread can produce a failure unless the historical flag is up already.
So the flag that the summary reports is up exactly when a failure occurred.
-/

namespace ZsecShield.Watch

open Text (Str str)
open Effect

variable {w : World}

namespace FlagState

/-! ## Closing a session -/

/-- The end of a session.  `settled`: no failure waits in a scan, `detached`: the observer
submits nothing, `joined`: the ingest thread has ended or is reported. -/
structure Closing (settled detached joined : Bool) (v : FlagState) : Prop extends Base v where
  found : settled = true → (∃ e ∈ v.log, e.moment.found = true) → v.historical = true
  detached : detached = true → v.attached = false
  joined : joined = true → v.ingestAlive = true → v.historical = true

/-- The end of a session once the pipeline was looked at.  `checked`: also its overflow. -/
structure Closed (settled checked : Bool) (v : FlagState) : Prop
    extends Closing settled true true v where
  calm : v.historical = true ∨ v.ingestAlive = false ∧ v.ingestFailed = false ∧
    (checked = true → v.overflowed = false)

/-- An assertion for the returning exit alone. -/
def returning (P : FlagState → Prop) : Assertion Watcher PyError where
  inside s := P s.flags
  raised _ _ := True
  halted _ := True

/-- The flags went up, so the session is as good as closed. -/
theorem Core.raise_closed {v : FlagState} (h : Core v) (hdetached : v.attached = false)
    (settled checked : Bool) {moment : Moment} (hm : moment.reported = true) (persistent : Bool)
    (generation : Nat) :
    Closed settled checked ((v.raise persistent generation).note moment) :=
  ⟨⟨h.raise hm persistent generation, fun _ _ => rfl, fun _ => hdetached, fun _ _ => rfl⟩,
    .inl rfl⟩

theorem Closing.note {settled detached joined : Bool} {v : FlagState}
    (h : Closing settled detached joined v) {m : Moment} (hfail : m.failure = false) :
    Closing settled detached joined (v.note m) := by
  have hno : ∀ {p : Moment → Bool}, (p m = true → m.failure = true) → p m = false := by
    intro p hp
    cases hpm : p m with
    | false => rfl
    | true => exact absurd (hfail.symm.trans (hp hpm)) Bool.false_ne_true
  refine ⟨h.toBase.note_other (hno Moment.failure_of_reported) ?_ ?_, ?_, h.detached, h.joined⟩
  · rintro rfl
    cases hfail
  · rintro rfl
    cases hfail
  · rintro hset ⟨e, he, hf⟩
    cases he with
    | head =>
        refine absurd ((hno (p := Moment.found) fun hm => ?_).symm.trans hf) (by rintro ⟨⟩)
        cases m <;> first | exact hm | cases hm
    | tail _ hmem => exact h.found hset ⟨e, hmem, hf⟩

theorem Closing.quiet {settled detached joined : Bool} {v : FlagState}
    (h : Closing settled detached joined v) {log : List LogEntry}
    (hq : QuietLog v.operational v.log log) :
    Closing settled detached joined { v with log := log } := by
  obtain ⟨moments, hall, rfl⟩ := hq
  induction moments with
  | nil => exact h
  | cons m rest ih =>
      exact (ih fun m' hm' => hall m' (List.mem_cons_of_mem _ hm')).note
        (Moment.not_failure_of_quiet (hall m List.mem_cons_self))

theorem Closing.overflow {settled detached joined : Bool} {v : FlagState}
    (h : Closing settled detached joined v) :
    Closing settled detached joined (FlagState.note { v with overflowed := true } .overflow) := by
  refine ⟨h.toBase.overflow, ?_, h.detached, h.joined⟩
  rintro hset ⟨e, he, hf⟩
  cases he with
  | head => cases hf
  | tail _ hmem => exact h.found hset ⟨e, hmem, hf⟩

theorem Closing.ingestFails {settled detached joined : Bool} {v : FlagState}
    (h : Closing settled detached joined v) :
    Closing settled detached joined
      (FlagState.note { v with ingestFailed := true, ingestAlive := false } .ingestFailed) := by
  refine ⟨h.toBase.ingestFails, ?_, h.detached, nofun⟩
  rintro hset ⟨e, he, hf⟩
  cases he with
  | head => cases hf
  | tail _ hmem => exact h.found hset ⟨e, hmem, hf⟩

theorem flags_overflow (s : Watcher) {events : DebouncedPathQueue}
    (ho : events.overflowed = true) :
    (Watcher.log .overflow { s with events := events }).flags =
      FlagState.note { s.flags with overflowed := true } .overflow := by
  rw [← ho]
  rfl

theorem closing_steady (settled detached joined : Bool) :
    Steady (returning (Closing settled detached joined)) where
  quiet hq hs := by
    show Closing _ _ _ _
    rw [flags_quiet hq]
    exact hs.quiet hq.log
  overflow {s} events ho hs := by
    show Closing _ _ _ _
    rw [flags_overflow s ho]
    exact Closing.overflow hs
  ingestFails _ hs := Closing.ingestFails hs
  raise _ _ := trivial
  stop _ := trivial

theorem closing_onFlags (settled detached joined : Bool) :
    OnFlags w (returning (Closing settled detached joined)) := by
  refine .of_steady (closing_steady _ _ _) (fun _ hflags hs => ?_) fun _ hs =>
    Closing.note hs rfl
  show Closing _ _ _ _
  rw [hflags]
  exact hs

/-- Once the observer is detached and the ingest thread has ended, nothing acts. -/
theorem act_of_detached {host : Host} {s : Watcher} (hobserver : s.observerAttached = false)
    (hingest : s.ingestAlive = false) (a : ThreadAction) : s.act host a = s := by
  cases a with
  | submit => exact if_neg (ne_true_of_eq_false hobserver)
  | ingest => exact if_neg (ne_true_of_eq_false hingest)
  | ingestFails => exact if_neg (ne_true_of_eq_false hingest)

/-- A closed session stays closed, whatever the other threads do. -/
theorem Closed.act {settled checked : Bool} {s : Watcher} (hs : Closed settled checked s.flags)
    (host : Host) (a : ThreadAction) :
    Closed settled checked (s.act host a).flags ∧
      (s.act host a).flags.historical = s.flags.historical := by
  obtain hhist | ⟨halive, -, -⟩ := hs.calm
  · have hact := (closing_steady settled true true).act (w := { World.calm with host := host }) s a
      hs.toClosing
    have hsame : (s.act host a).flags.historical = s.flags.historical := by
      obtain heq | ⟨events, hg, heq⟩ | ⟨-, reason, heq⟩ := s.act_cases host a
      · rw [heq]
      · rw [heq]
        obtain ⟨-, heq⟩ | ⟨-, heq⟩ := Watcher.withEvents_cases hg <;> rw [heq] <;> rfl
      · rw [heq]
        rfl
    exact ⟨⟨hact, .inl (hsame.trans hhist)⟩, hsame⟩
  · rw [act_of_detached (hs.detached rfl) halive a]
    exact ⟨hs, rfl⟩

theorem Closed.note {settled checked : Bool} {v : FlagState} (h : Closed settled checked v)
    {m : Moment} (hfail : m.failure = false) : Closed settled checked (v.note m) :=
  ⟨h.toClosing.note hfail, h.calm⟩

/-- A closed session with this historical flag. -/
def ClosedAs (settled checked historical : Bool) (v : FlagState) : Prop :=
  Closed settled checked v ∧ v.historical = historical

theorem closedAs_onFlags (settled checked historical : Bool) :
    OnFlags w (returning (ClosedAs settled checked historical)) where
  raise _ _ := trivial
  stop _ := trivial
  point := keeps_point (fun s a hs =>
      ⟨(Closed.act hs.1 w.host a).1, (Closed.act hs.1 w.host a).2.trans hs.2⟩)
    (fun _ hs => hs) (fun _ _ => trivial) fun _ _ => trivial
  congr _ hflags hs := by
    show ClosedAs _ _ _ _
    rw [hflags]
    exact hs
  recorded _ hs := ⟨hs.1.note rfl, hs.2⟩

theorem closed_onFlags (settled checked : Bool) :
    OnFlags w (returning (Closed settled checked)) where
  raise _ _ := trivial
  stop _ := trivial
  point := keeps_point (fun s a hs => (Closed.act hs w.host a).1) (fun _ hs => hs)
    (fun _ _ => trivial) fun _ _ => trivial
  congr _ hflags hs := by
    show Closed _ _ _
    rw [hflags]
    exact hs
  recorded _ hs := Closed.note hs rfl

/-! ## Shutdown -/

/-- The rule for a sequence, for assertions about the returning exit. -/
theorem returning_bind {P P' : FlagState → Prop} {α β : Type} {p : WatchM α} {f : α → WatchM β}
    {s : Watcher} (hp : wp w p (returning P).post s)
    (hf : ∀ a s', P s'.flags → wp w (f a) (returning P').post s') :
    wp w (p >>= f) (returning P').post s :=
  hp.bind hf (fun _ _ hr => hr) fun _ hc => hc

/-- The observer is detached. -/
theorem stopObserver_closing {settled : Bool} (hjoin : ∀ t, w.observerOutlivesJoin t = false)
    {s : Watcher} (hs : Closing settled false false s.flags) :
    wp w stopObserver (returning (Closing settled true false)).post s := by
  have hpoint := (closing_onFlags (w := w) settled false false).point
  show wp w ((point >>= fun _ => answer World.observerOutlivesJoin) >>= _) _ s
  rw [wp_bind]
  refine (hpoint s hs).bind (fun _ s hs => ?_) (fun _ _ hr => hr) fun _ hc => hc
  show Closing settled true false { s.flags with attached := w.observerOutlivesJoin s.tick }
  have hbase : Base { s.flags with attached := w.observerOutlivesJoin s.tick } :=
    ⟨⟨hs.disciplined, hs.ingest, hs.started⟩, hs.persistent, hs.operational, hs.caused, hs.newest,
      hs.reported, hs.dropped⟩
  exact ⟨hbase, hs.found, fun _ => hjoin s.tick, nofun⟩

/-- The ingest thread has ended, or an issue reports that it has not. -/
theorem joinIngest_closing {settled : Bool} {s : Watcher}
    (hs : Closing settled true false s.flags) :
    wp w joinIngest (returning (Closing settled true true)).post s := by
  show wp w (Prog.gets Watcher.ingestStarted >>= _) _ s
  rw [wp_bind, wp_gets, Post.withOk_ok]
  refine (wp_ite _ _ _ _).2 ⟨fun _ => ?_, fun hstarted => ?_⟩
  · have hpoint := (closing_onFlags (w := w) settled true false).point
    refine Keeps.wp_bind (A := returning (Closing settled true false))
      (Keeps.bind hpoint fun _ _ hs => hs) hs fun outlives s hs => ?_
    rw [wp_bind, wp_gets, Post.withOk_ok]
    refine (wp_ite _ _ _ _).2 ⟨fun _ => ?_, fun _ => ?_⟩
    · refine (closing_onFlags settled true true).healthIssue _ _ fun _ _ => ?_
      have hraised : ∀ {v}, Closed settled true v → Closing settled true true v :=
        fun hclosed => hclosed.toClosing
      exact hraised (hs.toCore.raise_closed (hs.detached rfl) settled true rfl _ _)
    · show Closing settled true true { s.flags with ingestAlive := false }
      have hbase : Base { s.flags with ingestAlive := false } :=
        ⟨⟨hs.disciplined, hs.ingest, nofun⟩, hs.persistent, hs.operational, hs.caused, hs.newest,
          hs.reported, hs.dropped⟩
      exact ⟨hbase, hs.found, hs.detached, nofun⟩
  · exact ⟨hs.toBase, hs.found, hs.detached, fun _ halive => absurd (hs.started halive) hstarted⟩

/-- The events the ingest thread has left are taken in. -/
theorem ingest_closing (settled : Bool) :
    Keeps w (returning (Closing settled true true)) ingest :=
  (closing_steady settled true true).ingest

/-- The pipeline is looked at one last time. -/
theorem pipeline_closes {settled : Bool} {s : Watcher} (hs : Closing settled true true s.flags) :
    wp w eventPipelineIsHealthy (returning (Closed settled true)).post s := by
  have hissue : ∀ (code : HealthCode) (message : Str) (s : Watcher), Core s.flags →
      s.flags.attached = false →
      wp w (healthIssue code message) (returning (Closed settled true)).post s :=
    fun code message s hcore hdetached =>
      (closed_onFlags settled true).healthIssue code message fun _ _ =>
        hcore.raise_closed hdetached settled true rfl _ _
  show wp w (Prog.gets Watcher.eventIngestFailure >>= _) _ s
  rw [wp_bind, wp_gets, Post.withOk_ok]
  cases hfailure : s.eventIngestFailure with
  | some reason =>
      exact returning_bind (hissue _ _ s hs.toCore (hs.detached rfl)) fun _ _ hs => hs
  | none =>
      have hcalm : Closed settled false s.flags := by
        refine ⟨hs, ?_⟩
        cases halive : s.ingestAlive with
        | true => exact .inl (hs.joined rfl halive)
        | false =>
            have hnone : s.flags.ingestFailed = false := by
              show s.eventIngestFailure.isSome = false
              rw [hfailure]
              rfl
            exact .inr ⟨halive, hnone, by rintro ⟨⟩⟩
      refine returning_bind ((closed_onFlags settled false).point s hcalm) fun _ s hs => ?_
      rw [wp_bind, wp_gets, Post.withOk_ok]
      refine (wp_ite _ _ _ _).2 ⟨fun _ => ?_, fun hover => ?_⟩
      · simp only [wp_bind, wp_gets, wp_update, wp_count, Post.withOk_ok]
        exact hissue _ _ { s with events := s.events.clearOverflow.2, stats := _ }
          (Core.cleared hs.toCore) (hs.detached rfl)
      · have hcalm : s.flags.historical = true ∨ s.flags.ingestAlive = false ∧
            s.flags.ingestFailed = false ∧ (true = true → s.flags.overflowed = false) :=
          hs.calm.imp_right fun h => ⟨h.1, h.2.1, fun _ => Bool.eq_false_iff.2 hover⟩
        exact ⟨hs.toClosing, hcalm⟩

/-- The shutdown closes a session. -/
theorem shutdown_closes {settled : Bool} (hjoin : ∀ t, w.observerOutlivesJoin t = false)
    {s : Watcher} (hs : Closing settled false false s.flags) :
    wp w shutdown (returning (Closed settled true)).post s := by
  have hclosed := closed_onFlags (w := w) settled true
  refine returning_bind (stopObserver_closing hjoin hs) fun _ s hs => ?_
  refine returning_bind (joinIngest_closing hs) fun _ s hs => ?_
  refine returning_bind (ingest_closing settled s hs) fun _ s hs => ?_
  refine returning_bind (pipeline_closes hs) fun _ s hs => ?_
  refine Keeps.wp_bind (A := returning (Closed settled true))
    (Keeps.bind hclosed.point fun _ _ hs => hs) hs fun now s hs => ?_
  rw [wp_bind, wp_gets, Post.withOk_ok]
  have hbacklog : wp w (reportBacklog s.events) (returning (Closed settled true)).post s := by
    refine (wp_ite _ _ _ _).2 ⟨fun _ => ?_, fun _ => hs⟩
    exact hclosed.healthIssue _ _ fun _ _ =>
      hs.toCore.raise_closed (hs.detached rfl) settled true rfl _ _
  exact returning_bind hbacklog fun _ _ hs => hs

/-! ## The summary -/

/-- The summary shows the historical flag of a closed session. -/
theorem closeSession_shows {settled : Bool} {s : Watcher} (hs : Closed settled true s.flags)
    (startedAt : Str) (interrupted : Bool) :
    wp w (closeSession startedAt interrupted)
      ⟨fun summary s' => summary.interrupted = interrupted ∧
          summary.operationalIncomplete = s'.flags.historical ∧ Closed settled true s'.flags,
        fun _ _ => True, fun _ => True⟩ s := by
  have hclosed := closed_onFlags (w := w) settled true
  refine (Keeps.bind hclosed.point (fun _ _ hs => hs : ∀ _, Keeps w _ (answer _)) s hs).bind
    (fun completedAt s hs => ?_) (fun _ _ _ => trivial) fun _ _ => trivial
  rw [wp_bind, wp_ask, Post.withOk_ok, wp_bind, wp_gets, Post.withOk_ok]
  have hshown : (s.operationalIncomplete || s.historicalOperationalIncomplete) =
      s.historicalOperationalIncomplete := by
    cases hop : s.operationalIncomplete with
    | false => rfl
    | true => exact (hs.operational hop).symm
  refine ((closedAs_onFlags settled true s.flags.historical).emit _ s ⟨hs, rfl⟩).bind
    (fun _ s' hs' => ?_) (fun _ _ _ => trivial) fun _ _ => trivial
  exact ⟨rfl, hshown.trans hs'.2.symm, hs'.1⟩

/-- The session ends with every failure shown, save those of a scan that was cut short. -/
theorem session_closes (hjoin : ∀ t, w.observerOutlivesJoin t = false) (duration : Option ℚ)
    (d : Deadlines) {s : Watcher} (hs : (scheme none).inside [] s) :
    wp w (session duration d) ⟨fun interrupted s' => Closed (!interrupted) true s'.flags,
      fun _ _ => True, fun _ => True⟩ s := by
  unfold Watch.session
  rw [wp_tryFinally, wp_tryExcept]
  have finish : ∀ (settled : Bool) (s : Watcher), Closing settled false false s.flags →
      wp w shutdown ((returning (Closed settled true)).post : Post Watcher PyError Unit) s :=
    fun settled s hs => shutdown_closes hjoin hs
  have hwatch : wp w (do watch duration d; pure false)
      (((scheme none).on []).postWith fun interrupted s' =>
        interrupted = false ∧ (scheme none).inside [] s') s :=
    (runRules.toWatchRules.watch duration d s hs).bind (fun _ _ hs => ⟨rfl, hs⟩)
      (fun _ _ hr => hr) fun _ hc => hc
  refine hwatch.mono ⟨?_, fun e s' hr => ⟨fun he => ?_, fun _ => ?_⟩, fun _ _ => trivial⟩
  · rintro interrupted s' ⟨rfl, hs'⟩
    have hclosing : Closing true false false s'.flags := by
      refine ⟨hs'.2.toBase, fun _ hex => ?_, by rintro ⟨⟩, by rintro ⟨⟩⟩
      obtain hhist | ⟨x, hx, -⟩ := hs'.2.found hex
      · exact hhist
      · cases hx
    exact (finish true s' hclosing).mono ⟨fun _ _ hs => hs, fun _ _ hr => hr, fun _ hc => hc⟩
  · -- A scan that was cut short may hold failures that nobody has taken notice of.
    have hr : ite _ _ _ := hr
    rw [Bool.not_eq_true'] at he
    rw [if_neg (ne_true_of_eq_false he)] at hr
    have hclosing : Closing false false false s'.flags :=
      ⟨hr, by rintro ⟨⟩, by rintro ⟨⟩, by rintro ⟨⟩⟩
    exact (finish false s' hclosing).mono ⟨fun _ _ hs => hs, fun _ _ hr => hr, fun _ hc => hc⟩
  · exact wp.trivial (fun _ _ => trivial) (fun _ _ => trivial) fun _ => trivial

/-- A new watcher at the start of a session. -/
theorem new_inside (excluded : List Str) (config : WatchConfig) (sink : WatchEvidenceSink) :
    (holding none [] []).inside (Watcher.new excluded config sink) := by
  have hstarted : ∀ {p : Moment → Prop}, ¬ p .started →
      ¬ ∃ e ∈ (Watcher.new excluded config sink).flags.log, p e.moment := by
    rintro p hp ⟨e, he, hm⟩
    cases he with
    | head => exact hp hm
    | tail _ hmem => cases hmem
  have hdisciplined : Disciplined (Watcher.new excluded config sink).flags.log := by
    intro later e₂ e₁ earlier heq
    cases later with
    | nil => cases heq
    | cons e later =>
        injection heq with _ hrest
        cases later <;> cases hrest
  have hbase : Base (Watcher.new excluded config sink).flags := by
    have hingest := hstarted (p := (· = .ingestFailed)) (by nofun)
    have hreported := hstarted (p := (·.reported = true)) (by nofun)
    have hdropped := hstarted (p := (· = .overflow)) (by nofun)
    refine ⟨⟨hdisciplined, fun h => absurd h hingest, nofun⟩, nofun, nofun, nofun, ?_,
      fun e he hr => absurd ⟨e, he, hr⟩ hreported, fun h => absurd h hdropped⟩
    rintro e he hup
    obtain rfl := Option.mem_some_iff.1 he
    cases hup
  have hfound := hstarted (p := (·.found = true)) (by nofun)
  exact ⟨rfl, hbase, fun h => absurd h hfound, nofun⟩

/-- The summary of a run shows the historical flag, and the session is closed. -/
theorem run_shows (hjoin : ∀ t, w.observerOutlivesJoin t = false) (excluded : List Str)
    (sink : WatchEvidenceSink) (duration : Option ℚ) :
    wp w (run duration) ⟨fun summary s => summary.operationalIncomplete = s.flags.historical ∧
        Closed (!summary.interrupted) true s.flags, fun _ _ => True, fun _ => True⟩
      (Watcher.new excluded w.config sink) := by
  refine (wp_ite _ _ _ _).2 ⟨fun _ => trivial, fun _ => ?_⟩
  have hopen := runRules.openSession (w := w) (new_inside excluded w.config sink)
  refine hopen.bind (fun startedAt s hs => ?_) (fun _ _ _ => trivial) fun _ _ => trivial
  have hsteady := holding_steady none [] []
  have hdeadlines : Keeps w (holding none [] []) firstDeadlines := by
    refine Keeps.bind (Keeps.ask _) fun config => ?_
    refine Keeps.bind (hsteady.call _) fun _ => Keeps.bind (hsteady.call _) fun _ => ?_
    exact Keeps.bind (hsteady.call _) fun _ => Keeps.bind (hsteady.call _) fun _ => Keeps.pure _
  refine (hdeadlines s hs).bind (fun d s hs => ?_) (fun _ _ _ => trivial) fun _ _ => trivial
  refine (session_closes hjoin duration d hs).bind (fun interrupted s hs => ?_)
    (fun _ _ _ => trivial) fun _ _ => trivial
  refine (closeSession_shows hs startedAt interrupted).mono
    ⟨?_, fun _ _ _ => trivial, fun _ _ => trivial⟩
  rintro summary s' ⟨rfl, hshown, hs'⟩
  exact ⟨hshown, hs'⟩

/-- A failure other than one that a scan has only found. -/
theorem Closed.historical_iff {settled : Bool} {v : FlagState} (h : Closed settled true v) :
    v.historical = true ↔ ∃ e ∈ v.log, e.moment.failure = true ∧
      (settled = true ∨ e.moment.found = false) := by
  constructor
  · intro hist
    obtain ⟨e, he, hr⟩ := h.caused hist
    have hfound : e.moment.found = false := by
      cases hm : e.moment <;> first | rfl | (rw [hm] at hr; cases hr)
    exact ⟨e, he, Moment.failure_of_reported hr, .inr hfound⟩
  · rintro ⟨e, he, hf, hcount⟩
    obtain hr | hf | hm | hm := Moment.failure_cases hf
    · exact h.reported e he hr
    · obtain hset | hnot := hcount
      · exact h.found hset ⟨e, he, hf⟩
      · exact absurd (hnot.symm.trans hf) Bool.false_ne_true
    · obtain hhist | hover := h.dropped ⟨e, he, hm⟩
      · exact hhist
      · obtain hhist | ⟨-, -, hclear⟩ := h.calm
        · exact hhist
        · exact absurd ((hclear rfl).symm.trans hover) Bool.false_ne_true
    · have hfailed := h.ingest ⟨e, he, hm⟩
      obtain hhist | ⟨-, hnone, -⟩ := h.calm
      · exact hhist
      · exact absurd (hnone.symm.trans hfailed) Bool.false_ne_true

end FlagState

/-- The flags of the watcher a run ends in, and their history, are in order. -/
structure FlagsInOrder (s : Watcher) : Prop where
  persistent : s.persistentOperationalIncomplete = true → s.operationalIncomplete = true
  operational : s.operationalIncomplete = true → s.historicalOperationalIncomplete = true
  newest : ∀ e ∈ s.ghost.log.head?, e.operationalIncomplete = true → s.operationalIncomplete = true
  disciplined : Disciplined s.ghost.log

/-- The summary a run returns reports `operational_incomplete` if and only if one of
these moments occurred in the run. -/
def SummaryTells (counts : WatchSummary → Moment → Bool) :
    Exit PyError WatchSummary × Watcher → Prop
  | (.ok summary, s) =>
      summary.operationalIncomplete = true ↔ ∃ e ∈ s.ghost.log, counts summary e.moment = true
  | _ => True

instance (counts : WatchSummary → Moment → Bool) :
    (r : Exit PyError WatchSummary × Watcher) → Decidable (SummaryTells counts r)
  | (.ok _, _) => inferInstanceAs (Decidable (_ ↔ _))
  | (.raised _, _) => isTrue trivial
  | (.halted, _) => isTrue trivial

/-- A failure, and in an interrupted run not one that a scan has only found. -/
def WatchSummary.counts (summary : WatchSummary) (m : Moment) : Bool :=
  m.failure && (!summary.interrupted || !m.found)

/-- The flags are in order wherever a run ends or is looked at, and when the observer
stops within its deadline the summary tells of every failure. -/
theorem flags_in_order (w : World) (excluded : List Str) (sink : WatchEvidenceSink)
    (duration : Option ℚ) :
    FlagsInOrder (run duration w (Watcher.new excluded w.config sink)).2 ∧
      ((∀ t, w.observerOutlivesJoin t = false) → SummaryTells WatchSummary.counts
        (run duration w (Watcher.new excluded w.config sink))) := by
  constructor
  · have hbase : FlagState.Base (run duration w (Watcher.new excluded w.config sink)).2.flags :=
      (FlagState.runRules (w := w)).run duration (FlagState.new_inside excluded w.config sink)
    exact ⟨hbase.persistent, hbase.operational, hbase.newest, hbase.disciplined⟩
  · intro hjoin
    have hshows := FlagState.run_shows hjoin excluded sink duration
    unfold wp at hshows
    rcases hrun : run duration w (Watcher.new excluded w.config sink) with ⟨exit, s⟩
    rw [hrun] at hshows
    cases exit with
    | ok summary =>
        obtain ⟨hshown, hclosed⟩ := hshows
        show _ = true ↔ _
        rw [hshown, hclosed.historical_iff]
        simp [WatchSummary.counts]
        rfl
    | raised e => trivial
    | halted => trivial

/-- A world in which the walk meets a special file and is interrupted at the next file. -/
def World.interruptedWalk : World :=
  { World.calm with
    walk := fun _ _ => [.special, .file (str "/r/a") Stat.regular]
    control := fun tick => if tick = 14 then .interrupt else .goOn }

/-- A world in which the observer outlives its deadline and overflows the queue once
the session is closed. -/
def World.lingeringObserver : World :=
  { World.calm with
    config := { World.calm.config with eventQueueSize := 1 }
    clock := fun tick => tick
    observerOutlivesJoin := fun _ => true
    threads := fun tick =>
      if tick = 24 then
        [.submit 0 (str "/r/a") .closedAfterWrite false,
          .submit 0 (str "/r/b") .closedAfterWrite false]
      else [] }

/-- The summaries of their sessions do not tell of a failure. -/
instance interruptedWalk_silent :
    Fact (¬ SummaryTells (fun _ => Moment.failure) (run none World.interruptedWalk
        (Watcher.new [] World.interruptedWalk.config { healthFile := false, eventLog := false })) ∧
      ¬ SummaryTells (fun _ => Moment.failure) (run (some 1) World.lingeringObserver
        (Watcher.new [] World.lingeringObserver.config
          { healthFile := false, eventLog := false }))) :=
  ⟨by decide +kernel⟩

/-- A summary that does not tell of a failure: in a scan that was interrupted, and with
an observer that outlives its deadline. -/
theorem summary_misses_failure :
    ¬ SummaryTells (fun _ => Moment.failure) (run none World.interruptedWalk
        (Watcher.new [] World.interruptedWalk.config { healthFile := false, eventLog := false })) ∧
      ¬ SummaryTells (fun _ => Moment.failure) (run (some 1) World.lingeringObserver
        (Watcher.new [] World.lingeringObserver.config
          { healthFile := false, eventLog := false })) :=
  interruptedWalk_silent.out

/-- A run with an observer that stops in time. -/
theorem flags_in_order_calm :
    SummaryTells WatchSummary.counts (run (some 1) { World.calm with clock := fun tick => tick }
      (Watcher.new [] World.calm.config { healthFile := false, eventLog := false })) :=
  (flags_in_order { World.calm with clock := fun tick => tick } []
    { healthFile := false, eventLog := false } (some 1)).2 fun _ => rfl

end ZsecShield.Watch
