import ZsecShield.Lib.Folder

/-!
# Properties beside a program

A `Bystander` is a property of the nodes under some paths that are there while it holds, and that
other processes keep.  A program keeps it when it changes other paths only, and whatever it makes
under a name that was free is such a path (`Bystander.free`).  An action says which paths it
changes (`Changes`), and the rule for a call (`Bystander.keeps`) asks for nothing else.
-/

namespace Disk

open Text (Str)
open Effect

variable {κ ε α β : Type}

/-- A property `J` of the nodes under the paths of `F`. -/
structure Bystander (env : Env κ) (F : Str → Prop) (J : Nodes → Prop) : Prop where
  others : ∀ t nodes, J nodes → J (env.others t nodes)
  present : ∀ nodes, J nodes → ∀ p, F p → nodes p ≠ none
  blind : ∀ nodes nodes', Same F nodes nodes' → J nodes → J nodes'

/-- An action changes paths of `T` only, apart from what it makes under names that are free. -/
def Changes (T : Str → Prop) (action : Action κ α) : Prop :=
  ∀ env t nodes a nodes', action env t nodes = some (a, nodes') →
    ∀ p, ¬ T p → nodes p ≠ none → nodes' p = nodes p

theorem Changes.mono {T T' : Str → Prop} {action : Action κ α} (h : Changes T action)
    (himp : ∀ p, T p → T' p) : Changes T' action :=
  fun env t nodes a nodes' ha p hp => h env t nodes a nodes' ha p fun hT => hp (himp p hT)

theorem put_of_ne {nodes : Nodes} {path p : Str} {node : Option Node} (h : ¬ p = path) :
    put nodes path node p = nodes p := put_other h node

/-! ## What the actions change -/

section Actions

theorem changes_look (f : Nodes → Option α) : Changes (κ := κ) (fun _ => False) (Action.look f) := by
  intro env t nodes a nodes' ha p _ _
  exact look_keeps (I := fun n => n p = nodes p) rfl ha

theorem changes_mkdir (path : Str) : Changes (κ := κ) (fun _ => False) (Action.mkdir path) := by
  intro env t nodes a nodes' ha p _ hsome
  cases ha
  have hnone : (nodes p).isNone = false := by
    cases hp : nodes p with
    | none => exact absurd hp hsome
    | some node => rfl
  simp only [hnone, Bool.and_false, Bool.false_eq_true, ↓reduceIte]

theorem changes_mkstemp (directory namePrefix : Str) :
    Changes (κ := κ) (fun _ => False) (Action.mkstemp directory namePrefix) := by
  intro env t nodes a nodes' ha p _ hsome
  obtain ⟨-, hnone, rfl⟩ := Action.mkstemp_some ha
  exact put_of_ne fun heq => hsome (heq ▸ hnone)

theorem changes_mkdtemp (directory namePrefix : Str) :
    Changes (κ := κ) (fun _ => False) (Action.mkdtemp directory namePrefix) := by
  intro env t nodes a nodes' ha p _ hsome
  obtain ⟨-, hnone, rfl⟩ := Action.mkdtemp_some ha
  exact put_of_ne fun heq => hsome (heq ▸ hnone)

theorem changes_createNew (path : Str) :
    Changes (κ := κ) (fun _ => False) (Action.createNew path) := by
  intro env t nodes a nodes' ha p _ hsome
  obtain ⟨hnone, rfl⟩ := Action.createNew_some ha
  exact put_of_ne fun heq => hsome (heq ▸ hnone)

theorem changes_link (source target : Str) :
    Changes (κ := κ) (fun _ => False) (Action.link source target) := by
  intro env t nodes a nodes' ha p _ hsome
  obtain ⟨f, -, hnone, rfl⟩ := Action.link_some ha
  exact put_of_ne fun heq => hsome (heq ▸ hnone)

theorem changes_urandom (n : Nat) : Changes (κ := κ) (fun _ => False) (Action.urandom n) := by
  intro env t nodes a nodes' ha p _ _
  cases ha
  rfl

theorem changes_now : Changes (κ := κ) (fun _ => False) Action.now := by
  intro env t nodes a nodes' ha p _ _
  cases ha
  rfl

theorem changes_write (path : Str) (data : Bytes) :
    Changes (κ := κ) (· = path) (Action.write path data) := by
  intro env t nodes a nodes' ha p hp _
  unfold Action.write at ha
  split at ha <;> cases ha
  · exact put_of_ne hp
  · rfl

theorem changes_extend (path : Str) (data : Bytes) :
    Changes (κ := κ) (· = path) (Action.extend path data) := by
  intro env t nodes a nodes' ha p hp _
  unfold Action.extend at ha
  split at ha <;> cases ha
  · exact put_of_ne hp
  · rfl

theorem changes_chmod (path : Str) (mode : Nat) :
    Changes (κ := κ) (· = path) (Action.chmod path mode) := by
  intro env t nodes a nodes' ha p hp _
  unfold Action.chmod at ha
  split at ha <;> cases ha
  · exact put_of_ne hp
  · rfl

theorem changes_utime (path : Str) (ns : Int) :
    Changes (κ := κ) (· = path) (Action.utime path ns) := by
  intro env t nodes a nodes' ha p hp _
  obtain ⟨f, -, rfl⟩ | rfl := Action.utime_some ha
  · exact put_of_ne hp
  · rfl

theorem changes_unlink (path : Str) : Changes (κ := κ) (· = path) (Action.unlink path) := by
  intro env t nodes a nodes' ha p hp _
  rw [(Action.unlink_some ha).2]
  exact put_of_ne hp

theorem changes_replace (source target : Str) :
    Changes (κ := κ) (fun p => p = source ∨ p = target) (Action.replace source target) := by
  intro env t nodes a nodes' ha p hp _
  rw [not_or] at hp
  obtain ⟨f, -, rfl⟩ := Action.replace_some ha
  rw [put_of_ne hp.2, put_of_ne hp.1]

theorem changes_rmtree (path : Str) : Changes (κ := κ) (Below path) (Action.rmtree path) := by
  intro env t nodes a nodes' ha p hp _
  rw [Action.rmtree_some ha]
  exact if_neg hp

theorem changes_renameTree (source target : Str) :
    Changes (κ := κ) (fun p => Below source p ∨ Below target p) (Action.renameTree source target) := by
  intro env t nodes a nodes' ha p hp _
  rw [not_or] at hp
  obtain ⟨-, -, rfl⟩ := Action.renameTree_some ha
  exact moved_other hp.1 hp.2

end Actions

/-! ## What a program keeps -/

/-- The program keeps a property of the disk, however it ends. -/
abbrev Kept (env : Env κ) (J : Nodes → Prop) (p : Prog (Env κ) Machine ε α) : Prop :=
  Keeps env (Assertion.always fun m => J m.nodes) p

namespace Kept

variable {env : Env κ} {J : Nodes → Prop}

theorem raise (e : ε) : Kept env J (Prog.raise e : Prog (Env κ) Machine ε α) :=
  Keeps.raise fun _ hJ => hJ

theorem halt : Kept env J (Prog.halt : Prog (Env κ) Machine ε α) := Keeps.halt fun _ hJ => hJ

theorem liftExcept (r : Except ε α) :
    Kept env J (Prog.liftExcept r : Prog (Env κ) Machine ε α) :=
  Keeps.liftExcept fun _ _ _ hJ => hJ

theorem tryExcept {body : Prog (Env κ) Machine ε α} (hbody : Kept env J body) (caught : ε → Bool)
    {handler : ε → Prog (Env κ) Machine ε α} (hhandler : ∀ e, Kept env J (handler e)) :
    Kept env J (Prog.tryExcept body caught handler) :=
  Keeps.tryExcept hbody fun e _ m hJ => hhandler e m hJ

theorem suppress {body : Prog (Env κ) Machine ε Unit} (hbody : Kept env J body)
    (caught : ε → Bool) : Kept env J (Prog.suppress caught body) :=
  Keeps.tryExcept hbody fun _ _ _ hJ => hJ

theorem tryFinally {body : Prog (Env κ) Machine ε α} (hbody : Kept env J body)
    {cleanup : Prog (Env κ) Machine ε Unit} (hcleanup : Kept env J cleanup) :
    Kept env J (Prog.tryFinally body cleanup) := by
  intro m hJ
  rw [wp_tryFinally]
  refine (hbody m hJ).mono ⟨?_, ?_, fun _ hJ => hJ⟩
  · exact fun _ m' hJ => (hcleanup m' hJ).mono ⟨fun _ _ h => h, fun _ _ h => h, fun _ h => h⟩
  · exact fun _ m' hJ => (hcleanup m' hJ).mono ⟨fun _ _ h => h, fun _ _ h => h, fun _ h => h⟩

/-- A look keeps what other processes keep. -/
theorem look {wrap : κ → ε} (hothers : ∀ t nodes, J nodes → J (env.others t nodes))
    (f : Nodes → Option α) : Kept env J (sys wrap (Action.look f)) :=
  keeps_sys hothers fun _ _ _ _ hJ ha => look_keeps hJ ha

/-- The rule for a `try` that also speaks about the result. -/
theorem wp_tryExcept {body : Prog (Env κ) Machine ε α} {caught : ε → Bool}
    {handler : ε → Prog (Env κ) Machine ε α} {ok : α → Machine → Prop} {m : Machine}
    (hbody : wp env body ((Assertion.always fun m => J m.nodes).postWith ok) m)
    (hhandler : ∀ e m, J m.nodes →
      wp env (handler e) ((Assertion.always fun m => J m.nodes).postWith ok) m) :
    wp env (Prog.tryExcept body caught handler)
      ((Assertion.always fun m => J m.nodes).postWith ok) m := by
  rw [Effect.wp_tryExcept]
  exact hbody.mono ⟨fun _ _ h => h, fun e m hJ => ⟨fun _ => hhandler e m hJ, fun _ => hJ⟩,
    fun _ h => h⟩

/-- The rule for a result or an exception that is decided beforehand. -/
theorem wp_liftExcept {r : Except ε α} {ok : α → Machine → Prop} {m : Machine} (hJ : J m.nodes)
    (hok : ∀ a, r = .ok a → ok a m) :
    wp env (Prog.liftExcept r : Prog (Env κ) Machine ε α)
      ((Assertion.always fun m => J m.nodes).postWith ok) m :=
  (Effect.wp_liftExcept _ _).2 ⟨hok, fun _ _ => hJ⟩

theorem wp_tryFinally {K : α → Nodes → Prop} {body : Prog (Env κ) Machine ε α}
    {cleanup : Prog (Env κ) Machine ε Unit} {m : Machine}
    (hbody : wp env body ((Assertion.always fun m => J m.nodes).postWith fun a m => K a m.nodes) m)
    (himp : ∀ a nodes, K a nodes → J nodes) (hK : ∀ a, Kept env (K a) cleanup)
    (hJ : Kept env J cleanup) :
    wp env (Prog.tryFinally body cleanup)
      ((Assertion.always fun m => J m.nodes).postWith fun a m => K a m.nodes) m := by
  rw [Effect.wp_tryFinally]
  refine hbody.mono ⟨fun a m ha => ?_, fun e m he => ?_, fun _ h => h⟩
  · exact (hK a m ha).mono
      ⟨fun _ _ h => h, fun _ m h => himp a m.nodes h, fun m h => himp a m.nodes h⟩
  · exact (hJ m he).mono ⟨fun _ _ h => h, fun _ _ h => h, fun _ h => h⟩

theorem wp_lift_bind {r : Except ε α} {f : α → Prog (Env κ) Machine ε β} {ok : β → Machine → Prop}
    {m : Machine} (hJ : J m.nodes)
    (hf : ∀ a, r = .ok a → wp env (f a) ((Assertion.always fun m => J m.nodes).postWith ok) m) :
    wp env (Prog.liftExcept r >>= f) ((Assertion.always fun m => J m.nodes).postWith ok) m := by
  rw [wp_bind]
  exact wp_liftExcept hJ hf

/-- A step that keeps more than what is promised at the end. -/
theorem wp_bind_of {K : Nodes → Prop} {p : Prog (Env κ) Machine ε α}
    {f : α → Prog (Env κ) Machine ε β} {ok : β → Machine → Prop} {m : Machine}
    (himp : ∀ nodes, K nodes → J nodes) (hp : Kept env K p) (hK : K m.nodes)
    (hf : ∀ a m, K m.nodes → wp env (f a) ((Assertion.always fun m => J m.nodes).postWith ok) m) :
    wp env (p >>= f) ((Assertion.always fun m => J m.nodes).postWith ok) m := by
  rw [wp_bind]
  exact (hp m hK).mono ⟨hf, fun _ m hK => himp m.nodes hK, fun m hK => himp m.nodes hK⟩

/-- A kept property beside any other postcondition. -/
theorem both {p : Prog (Env κ) Machine ε α} (hp : Kept env J p) {Q : Post Machine ε α} {m : Machine}
    (hJ : J m.nodes) (hQ : wp env p Q m) :
    wp env p ⟨fun a m => Q.ok a m ∧ J m.nodes, fun e m => Q.raised e m ∧ J m.nodes,
      fun m => Q.halted m ∧ J m.nodes⟩ m := wp.and hQ (hp m hJ)

end Kept

namespace Bystander

variable {env : Env κ} {wrap : κ → ε} {F : Str → Prop} {J : Nodes → Prop} {nodes nodes' : Nodes}

/-- A free name is none of the paths. -/
theorem free (h : Bystander env F J) (hJ : J nodes) {p : Str} (hp : nodes p = none) : ¬ F p :=
  fun hF => h.present nodes hJ p hF hp

/-- An action that changes none of the paths. -/
theorem step (h : Bystander env F J) {T : Str → Prop} {action : Action κ α}
    (hchanges : Changes T action) (hT : ∀ p, F p → ¬ T p) {t : Nat} {a : α} (hJ : J nodes)
    (ha : action env t nodes = some (a, nodes')) : J nodes' :=
  h.blind nodes nodes' (fun p hp => hchanges env t nodes a nodes' ha p (hT p hp)
    (h.present nodes hJ p hp)) hJ

/-- The rule for a call. -/
theorem keeps (h : Bystander env F J) {T : Str → Prop} {action : Action κ α}
    (hchanges : Changes T action) (hT : ∀ p, F p → ¬ T p) :
    Kept env J (sys wrap action) :=
  keeps_sys h.others fun _ _ _ _ hJ ha => h.step hchanges hT hJ ha

/-- The rule for a call that changes no path that is there. -/
theorem keeps_free (h : Bystander env F J) {action : Action κ α}
    (hchanges : Changes (fun _ => False) action) :
    Kept env J (sys wrap action) :=
  h.keeps hchanges fun _ _ => not_false

/-- The rule for a call that changes one path. -/
theorem keeps_at (h : Bystander env F J) {path : Str} {action : Action κ α}
    (hchanges : Changes (· = path) action) (hpath : ¬ F path) :
    Kept env J (sys wrap action) :=
  h.keeps hchanges fun _ hp heq => hpath (heq ▸ hp)

/-- The rule for a call whose result says that a name was free. -/
theorem wp_fresh (h : Bystander env F J) {action : Action κ Str}
    (hchanges : Changes (fun _ => False) action)
    (hfresh : ∀ t nodes path nodes', action env t nodes = some (path, nodes') → nodes path = none)
    {m : Machine} (hm : J m.nodes) :
    wp env (sys wrap action)
      ((Assertion.always fun m => J m.nodes).postWith fun path m' => ¬ F path ∧ J m'.nodes) m :=
  wp_sys_of h.others hm (fun _ hJ => hJ) (fun _ _ hJ => hJ) fun t n path n' hJ ha _ =>
    ⟨h.free hJ (hfresh t n path n' ha), h.step hchanges (fun _ _ => not_false) hJ ha⟩

/-- The rule for a call and what follows it, with more than what is promised at the end. -/
theorem wp_call_of {K : Nodes → Prop} (h : Bystander env F K) (himp : ∀ nodes, K nodes → J nodes)
    {action : Action κ α} {f : α → Prog (Env κ) Machine ε β} {ok : β → Machine → Prop} {m : Machine}
    (hK : K m.nodes)
    (hf : ∀ t n a n' tick, K n → action env t n = some (a, n') →
      wp env (f a) ((Assertion.always fun m => J m.nodes).postWith ok) ⟨n', tick⟩) :
    wp env (sys wrap action >>= f) ((Assertion.always fun m => J m.nodes).postWith ok) m := by
  rw [wp_bind]
  exact wp_sys_of h.others hK (fun m hK => himp m.nodes hK) (fun _ m hK => himp m.nodes hK)
    fun t n a n' hK ha tick => hf t n a n' tick hK ha

/-- The rule for a call and what follows it. -/
theorem wp_call (h : Bystander env F J) {action : Action κ α} {f : α → Prog (Env κ) Machine ε β}
    {ok : β → Machine → Prop} {m : Machine} (hJ : J m.nodes)
    (hf : ∀ t n a n' tick, J n → action env t n = some (a, n') →
      wp env (f a) ((Assertion.always fun m => J m.nodes).postWith ok) ⟨n', tick⟩) :
    wp env (sys wrap action >>= f) ((Assertion.always fun m => J m.nodes).postWith ok) m :=
  h.wp_call_of (fun _ hJ => hJ) hJ hf

/-- Two properties at once. -/
theorem and {F' : Str → Prop} {J' : Nodes → Prop} (h : Bystander env F J)
    (h' : Bystander env F' J') :
    Bystander env (fun p => F p ∨ F' p) fun nodes => J nodes ∧ J' nodes where
  others t nodes hJ := ⟨h.others t nodes hJ.1, h'.others t nodes hJ.2⟩
  present nodes hJ := by
    rintro p (hp | hp)
    · exact h.present nodes hJ.1 p hp
    · exact h'.present nodes hJ.2 p hp
  blind nodes nodes' hsame hJ :=
    ⟨h.blind nodes nodes' (fun p hp => hsame p (.inl hp)) hJ.1,
      h'.blind nodes nodes' (fun p hp => hsame p (.inr hp)) hJ.2⟩

end Bystander

/-! ## Properties aside from a path -/

/-- An action changes one path at most. -/
def Only (path : Str) (action : Action κ α) : Prop :=
  ∀ env t nodes a nodes', action env t nodes = some (a, nodes') →
    ∃ node, nodes' = put nodes path node

theorem put_same (nodes : Nodes) (path : Str) : put nodes path (nodes path) = nodes := by
  funext p
  by_cases h : p = path
  · rw [h, put_self]
  · rw [put_other h]

theorem only_extend (path : Str) (data : Bytes) : Only (κ := κ) path (Action.extend path data) := by
  intro env t nodes a nodes' ha
  unfold Action.extend at ha
  split at ha <;> cases ha
  · exact ⟨_, rfl⟩
  · exact ⟨nodes path, (put_same nodes path).symm⟩

theorem only_chmod (path : Str) (mode : Nat) : Only (κ := κ) path (Action.chmod path mode) := by
  intro env t nodes a nodes' ha
  unfold Action.chmod at ha
  split at ha <;> cases ha
  · exact ⟨_, rfl⟩
  · exact ⟨nodes path, (put_same nodes path).symm⟩

theorem only_unlink (path : Str) : Only (κ := κ) path (Action.unlink path) := by
  intro env t nodes a nodes' ha
  exact ⟨none, (Action.unlink_some ha).2⟩

/-- A property that other processes keep and that does not depend on the node under a path. -/
structure Aside (env : Env κ) (path : Str) (J : Nodes → Prop) : Prop where
  others : ∀ t nodes, J nodes → J (env.others t nodes)
  blind : ∀ nodes node, J nodes → J (put nodes path node)

namespace Aside

variable {env : Env κ} {wrap : κ → ε} {path : Str} {J : Nodes → Prop}

theorem step (h : Aside env path J) {action : Action κ α} (honly : Only path action) {t : Nat}
    {nodes nodes' : Nodes} {a : α} (hJ : J nodes) (ha : action env t nodes = some (a, nodes')) :
    J nodes' := by
  obtain ⟨node, rfl⟩ := honly env t nodes a nodes' ha
  exact h.blind nodes node hJ

theorem keeps (h : Aside env path J) {action : Action κ α} (honly : Only path action) :
    Kept env J (sys wrap action) :=
  keeps_sys h.others fun _ _ _ _ hJ ha => h.step honly hJ ha

end Aside

end Disk
