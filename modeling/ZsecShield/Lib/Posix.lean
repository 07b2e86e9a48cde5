import ZsecShield.Lib.Text
import Mathlib.Data.List.Infix

/-!
# POSIX path names

The functions of `posixpath` on texts.  A normalised absolute path is the text of a `Key`:
one or two initial slashes, and names.  `isWithin` on keys is the prefix relation on their
names, except that nothing is within a key with two initial slashes, because `commonpath`
never gives more than one.
-/

namespace Posix

open Text (Str CodePoint ofChar)

def slash : CodePoint := ofChar '/'

def dot : CodePoint := ofChar '.'

/-- `path.split("/")`. -/
def split (path : Str) : List Str := path.splitOn slash

/-- `"/".join(names)`. -/
def join (names : List Str) : Str := [slash].intercalate names

/-- The initial slashes `normpath` keeps: two stay two, and three or more become one. -/
def initialSlashes (path : Str) : Nat :=
  if [slash, slash] <+: path ∧ ¬ [slash, slash, slash] <+: path then 2
  else if [slash] <+: path then 1
  else 0

/-- A turn of the loop of `normpath`. -/
def normStep (rooted : Bool) (names : List Str) (comp : Str) : List Str :=
  if comp = [] ∨ comp = [dot] then names
  else if comp ≠ [dot, dot] ∨ (rooted = false ∧ names = []) ∨ names.getLast? = some [dot, dot] then
    names ++ [comp]
  else names.dropLast

def normpath (path : Str) : Str :=
  let slashes := initialSlashes path
  let names := (split path).foldl (normStep (decide (slashes ≠ 0))) []
  let path := List.replicate slashes slash ++ join names
  if path = [] then [dot] else path

/-- `posixpath.join` of two paths. -/
def joinPath (base path : Str) : Str :=
  if [slash] <+: path then path
  else if base = [] ∨ base.getLast? = some slash then base ++ path
  else base ++ slash :: path

def abspath (cwd path : Str) : Str :=
  normpath (if [slash] <+: path then path else joinPath cwd path)

/-- The components `commonpath` compares. -/
def components (path : Str) : List Str := (split path).filter fun c => c ≠ [] ∧ c ≠ [dot]

/-- The loop of `commonpath` over the least and the greatest list of components. -/
def commonNames : List Str → List Str → List Str
  | a :: as, b :: bs => if a = b then a :: commonNames as bs else []
  | _, _ => []

/-- `commonpath` of two paths: `none` is its `ValueError`. -/
def commonpath (a b : Str) : Option Str :=
  if ([slash] <+: a ↔ [slash] <+: b) then
    some ((if [slash] <+: a then [slash] else []) ++
      join (commonNames (min (components a) (components b)) (max (components a) (components b))))
  else none

/-! ## Keys -/

/-- A name that `normpath` leaves alone. -/
structure Plain (name : Str) : Prop where
  ne_nil : name ≠ []
  ne_dot : name ≠ [dot]
  ne_dots : name ≠ [dot, dot]
  slash_notin : slash ∉ name

/-- A normalised absolute path. -/
structure Key where
  double : Bool
  names : List Str
  plain : ∀ name ∈ names, Plain name

/-- The initial slashes of a key. -/
def Key.slashes (k : Key) : Nat := if k.double then 2 else 1

def Key.text (k : Key) : Str := List.replicate k.slashes slash ++ join k.names

theorem split_slash (path : Str) : split (slash :: path) = [] :: split path := by
  simp [split, List.splitOn_cons_eq_if_modifyHead]

theorem split_replicate (n : Nat) (path : Str) :
    split (List.replicate n slash ++ path) = List.replicate n [] ++ split path := by
  induction n with
  | zero => rfl
  | succ n ih => rw [List.replicate_succ, List.cons_append, split_slash, ih]; rfl

theorem split_join {names : List Str} (h : ∀ name ∈ names, Plain name) :
    split (join names) = if names = [] then [[]] else names := by
  by_cases hnames : names = []
  · rw [if_pos hnames, hnames]
    rfl
  · rw [if_neg hnames]
    exact List.splitOn_intercalate slash (fun name hname => (h name hname).slash_notin) hnames

theorem slash_notin_of_mem_split {path name : Str} (h : name ∈ split path) : slash ∉ name := by
  induction path generalizing name with
  | nil =>
      obtain rfl := List.mem_singleton.1 h
      exact List.not_mem_nil
  | cons c path ih =>
      rw [split, List.splitOn_cons_eq_if_modifyHead] at h
      by_cases hc : c = slash
      · rw [if_pos (by simpa using hc)] at h
        obtain rfl | h := List.mem_cons.1 h
        · exact List.not_mem_nil
        · exact ih h
      · rw [if_neg (by simpa using hc)] at h
        cases hsplit : path.splitOn slash with
        | nil => exact absurd hsplit (List.splitOn_ne_nil _ _)
        | cons first rest =>
            rw [hsplit, List.modifyHead_cons] at h
            obtain rfl | h := List.mem_cons.1 h
            · intro hmem
              obtain heq | hmem := List.mem_cons.1 hmem
              · exact hc heq.symm
              · exact ih (by rw [split, hsplit]; exact List.mem_cons_self) hmem
            · exact ih (by rw [split, hsplit]; exact List.mem_cons_of_mem _ h)

/-! ## Normalisation -/

theorem normStep_plain {names : List Str} {comp : Str} (h : ∀ name ∈ names, Plain name)
    (hcomp : slash ∉ comp) : ∀ name ∈ normStep true names comp, Plain name := by
  unfold normStep
  split
  · exact h
  · rename_i hskip
    have hne : comp ≠ [] ∧ comp ≠ [dot] := not_or.1 hskip
    split
    · rename_i hkeep
      have hdots : comp ≠ [dot, dot] := by
        rcases hkeep with h' | ⟨h', -⟩ | hlast
        · exact h'
        · cases h'
        · exact absurd rfl (h _ (List.mem_of_getLast? hlast)).ne_dots
      intro name hname
      obtain hname | hname := List.mem_append.1 hname
      · exact h name hname
      · obtain rfl := List.mem_singleton.1 hname
        exact ⟨hne.1, hne.2, hdots, hcomp⟩
    · exact fun name hname => h name (List.mem_of_mem_dropLast hname)

theorem foldl_normStep_plain {comps names : List Str} (hnames : ∀ name ∈ names, Plain name)
    (hcomps : ∀ comp ∈ comps, slash ∉ comp) :
    ∀ name ∈ comps.foldl (normStep true) names, Plain name := by
  induction comps generalizing names with
  | nil => exact hnames
  | cons comp comps ih =>
      exact ih (normStep_plain hnames (hcomps comp List.mem_cons_self))
        fun c hc => hcomps c (List.mem_cons_of_mem comp hc)

theorem foldl_normStep_names {rooted : Bool} {comps : List Str} (h : ∀ comp ∈ comps, Plain comp)
    (names : List Str) : comps.foldl (normStep rooted) names = names ++ comps := by
  induction comps generalizing names with
  | nil => simp
  | cons comp comps ih =>
      have hplain := h comp List.mem_cons_self
      have hstep : normStep rooted names comp = names ++ [comp] := by
        rw [normStep, if_neg (not_or.2 ⟨hplain.ne_nil, hplain.ne_dot⟩), if_pos (.inl hplain.ne_dots)]
      rw [List.foldl_cons, hstep, ih fun c hc => h c (List.mem_cons_of_mem comp hc),
        List.append_assoc]
      rfl

theorem foldl_normStep_nils {rooted : Bool} (n : Nat) (names : List Str) :
    (List.replicate n []).foldl (normStep rooted) names = names := by
  induction n with
  | zero => rfl
  | succ n ih =>
      rw [List.replicate_succ, List.foldl_cons, normStep, if_pos (.inl rfl), ih]

/-- An absolute path normalises to a key. -/
theorem exists_key {path : Str} (h : [slash] <+: path) : ∃ k : Key, normpath path = k.text := by
  have hslashes : initialSlashes path = 2 ∨ initialSlashes path = 1 := by
    unfold initialSlashes
    rw [if_pos h]
    split
    · exact .inl rfl
    · exact .inr rfl
  have hrooted : decide (initialSlashes path ≠ 0) = true := by
    rcases hslashes with hs | hs <;> simp [hs]
  have hplain : ∀ name ∈ (split path).foldl (normStep true) [], Plain name :=
    foldl_normStep_plain (fun _ h => absurd h List.not_mem_nil) fun _ => slash_notin_of_mem_split
  have hnorm : ∀ k : Key, k.slashes = initialSlashes path →
      k.names = (split path).foldl (normStep true) [] → normpath path = k.text := by
    intro k hk hnames
    have hne : k.text ≠ [] := by
      rw [Key.text, hk]
      rcases hslashes with hs | hs <;> simp [hs, List.replicate]
    simp only [normpath, hrooted]
    rw [← hk, ← hnames]
    exact if_neg hne
  rcases hslashes with hs | hs
  · exact ⟨⟨true, _, hplain⟩, hnorm _ hs.symm rfl⟩
  · exact ⟨⟨false, _, hplain⟩, hnorm _ hs.symm rfl⟩

/-! ## The text of a key -/

namespace Key

variable (k r : Key)

theorem slash_prefix : [slash] <+: k.text := by
  rw [text, slashes]
  split
  · exact ⟨[slash] ++ join k.names, rfl⟩
  · exact ⟨join k.names, rfl⟩

theorem not_slash_prefix_join : ¬ [slash] <+: join k.names := by
  rintro ⟨rest, hrest⟩
  cases hnames : k.names with
  | nil =>
      rw [hnames] at hrest
      cases hrest
  | cons name names =>
      have hplain := k.plain name (by rw [hnames]; exact List.mem_cons_self)
      have hsplit := split_join k.plain
      rw [← hrest, if_neg (by rw [hnames]; exact List.cons_ne_nil _ _), hnames] at hsplit
      have hhead := (split_slash rest).symm.trans hsplit
      exact hplain.ne_nil (List.cons.inj hhead).1.symm

theorem initialSlashes_text : initialSlashes k.text = k.slashes := by
  have hjoin := k.not_slash_prefix_join
  unfold initialSlashes
  rw [if_pos k.slash_prefix]
  cases hdouble : k.double with
  | true =>
      have htext : k.text = slash :: slash :: join k.names := by
        simp [text, slashes, hdouble, List.replicate]
      have htwo : [slash, slash] <+: k.text := by
        rw [htext]
        exact ⟨join k.names, rfl⟩
      have hthree : ¬ [slash, slash, slash] <+: k.text := by
        rw [htext, List.cons_prefix_cons, List.cons_prefix_cons]
        exact fun h => hjoin h.2.2
      rw [if_pos ⟨htwo, hthree⟩, slashes, hdouble]
      rfl
  | false =>
      have htext : k.text = slash :: join k.names := by
        simp [text, slashes, hdouble]
      have htwo : ¬ [slash, slash] <+: k.text := by
        rw [htext, List.cons_prefix_cons]
        exact fun h => hjoin h.2
      rw [if_neg fun h => htwo h.1, slashes, hdouble]
      rfl

theorem split_text :
    split k.text = List.replicate k.slashes [] ++ if k.names = [] then [[]] else k.names := by
  rw [text, split_replicate, split_join k.plain]

/-- A key is normalised. -/
theorem normpath_text : normpath k.text = k.text := by
  have hnames : (split k.text).foldl (normStep (decide (initialSlashes k.text ≠ 0))) [] =
      k.names := by
    rw [split_text, List.foldl_append, foldl_normStep_nils]
    split
    · rename_i hnil
      rw [hnil, List.foldl_cons, normStep, if_pos (.inl rfl)]
      rfl
    · exact foldl_normStep_names k.plain []
  have hne : k.text ≠ [] := by
    intro hnil
    have hprefix := k.slash_prefix
    rw [hnil] at hprefix
    cases List.prefix_nil.1 hprefix
  simp only [normpath]
  rw [hnames, initialSlashes_text]
  exact if_neg hne

theorem components_text : components k.text = k.names := by
  have hkeep : k.names.filter (fun c => c ≠ [] ∧ c ≠ [dot]) = k.names := by
    refine List.filter_eq_self.2 fun name hname => decide_eq_true ?_
    exact ⟨(k.plain name hname).ne_nil, (k.plain name hname).ne_dot⟩
  have hdrop : ∀ n, (List.replicate n ([] : Str)).filter (fun c => c ≠ [] ∧ c ≠ [dot]) = [] :=
    fun n => by simp
  rw [components, split_text, List.filter_append, hdrop, List.nil_append]
  split
  · rename_i hnil
    rw [hnil]
    rfl
  · exact hkeep

/-- A key is its text. -/
theorem text_inj {k r : Key} (h : k.text = r.text) : k = r := by
  have hnames : k.names = r.names := by
    rw [← components_text k, ← components_text r, h]
  have hslashes : k.slashes = r.slashes := by
    rw [← initialSlashes_text k, ← initialSlashes_text r, h]
  have hdouble : k.double = r.double := by
    cases hk : k.double <;> cases hr : r.double <;> simp [slashes, hk, hr] at hslashes <;> rfl
  cases k
  cases r
  cases hnames
  cases hdouble
  rfl

end Key

/-! ## Entries -/

theorem join_concat {names : List Str} (h : names ≠ []) (name : Str) :
    join (names ++ [name]) = join names ++ slash :: name := by
  induction names with
  | nil => exact absurd rfl h
  | cons first names ih =>
      cases names with
      | nil => simp [join, List.intercalate_cons_cons]
      | cons second names =>
          have hrest := ih (List.cons_ne_nil _ _)
          simp only [join, List.cons_append, List.intercalate_cons_cons] at hrest ⊢
          rw [hrest]
          simp

namespace Key

/-- The key of an entry of a directory. -/
def child (k : Key) (name : Str) (h : Plain name) : Key where
  double := k.double
  names := k.names ++ [name]
  plain n hn := by
    rcases List.mem_append.1 hn with hn | hn
    · exact k.plain n hn
    · rw [List.mem_singleton.1 hn]
      exact h

theorem getLast?_text (k : Key) : k.text.getLast? = some slash ↔ k.names = [] := by
  constructor
  · intro h
    by_contra hnames
    obtain ⟨front, last, hlast⟩ : ∃ front last, k.names = front ++ [last] :=
      ⟨_, _, (List.dropLast_append_getLast hnames).symm⟩
    have hplain := k.plain last (by rw [hlast]; exact List.mem_append_right _ List.mem_cons_self)
    obtain ⟨rest, hrest⟩ : ∃ rest, k.text = rest ++ last := by
      by_cases hfront : front = []
      · exact ⟨List.replicate k.slashes slash, by simp [text, hlast, hfront, join]⟩
      · exact ⟨List.replicate k.slashes slash ++ join front ++ [slash], by
          simp [text, hlast, join_concat hfront]⟩
    rw [hrest, List.getLast?_append_of_ne_nil _ hplain.ne_nil] at h
    exact hplain.slash_notin (List.mem_of_getLast? h)
  · intro hnames
    cases hdouble : k.double <;> simp [text, slashes, hnames, hdouble, join]

theorem text_child (k : Key) {name : Str} (h : Plain name) :
    (k.child name h).text = joinPath k.text name := by
  have hrelative : ¬ [slash] <+: name := by
    rintro ⟨rest, rfl⟩
    exact h.slash_notin List.mem_cons_self
  have hne : k.text ≠ [] := fun hnil => by
    have hslash := k.slash_prefix
    rw [hnil] at hslash
    cases List.prefix_nil.1 hslash
  rw [joinPath, if_neg hrelative]
  by_cases hnames : k.names = []
  · rw [if_pos (.inr (k.getLast?_text.2 hnames))]
    simp [text, child, slashes, hnames, join]
  · rw [if_neg (by rw [k.getLast?_text]; exact fun h => h.elim hne hnames)]
    have hslashes : (k.child name h).slashes = k.slashes := rfl
    rw [text, hslashes, child, join_concat hnames, text, List.append_assoc]

end Key

/-! ## Containment -/

theorem commonNames_comm (a b : List Str) : commonNames a b = commonNames b a := by
  induction a generalizing b with
  | nil => cases b <;> rfl
  | cons x a ih =>
      cases b with
      | nil => rfl
      | cons y b =>
          rw [commonNames, commonNames]
          by_cases hxy : x = y
          · rw [if_pos hxy, if_pos hxy.symm, hxy, ih]
          · rw [if_neg hxy, if_neg (Ne.symm hxy)]

theorem commonNames_min_max (a b : List Str) : commonNames (min a b) (max a b) = commonNames a b := by
  rcases le_total a b with h | h
  · rw [min_eq_left h, max_eq_right h]
  · rw [min_eq_right h, max_eq_left h, commonNames_comm]

theorem commonNames_isPrefix (a b : List Str) : commonNames a b <+: a := by
  induction a generalizing b with
  | nil => cases b <;> exact List.nil_prefix
  | cons x a ih =>
      cases b with
      | nil => exact List.nil_prefix
      | cons y b =>
          rw [commonNames]
          split
          · exact List.cons_prefix_cons.2 ⟨rfl, ih b⟩
          · exact List.nil_prefix

theorem commonNames_eq_right (a b : List Str) : commonNames a b = b ↔ b <+: a := by
  induction b generalizing a with
  | nil => cases a <;> simp [commonNames]
  | cons y b ih =>
      cases a with
      | nil => simp [commonNames]
      | cons x a =>
          rw [commonNames, List.cons_prefix_cons, ← ih a]
          by_cases hxy : x = y
          · simp [hxy]
          · simp [hxy, Ne.symm hxy]

/-- `os.path.commonpath((path, parent)) == parent`, a `ValueError` being no. -/
def isWithin (path parent : Str) : Bool := commonpath path parent = some parent

/-- A key is within another when its names go on from those of the other, which has one initial
slash. -/
theorem isWithin_text (k r : Key) :
    isWithin k.text r.text = true ↔ r.double = false ∧ r.names <+: k.names := by
  have hplain : ∀ name ∈ commonNames k.names r.names, Plain name := fun name hname =>
    k.plain name ((commonNames_isPrefix k.names r.names).subset hname)
  have hcommon : commonpath k.text r.text = some (Key.text ⟨false, _, hplain⟩) := by
    rw [commonpath, if_pos (iff_of_true k.slash_prefix r.slash_prefix), if_pos k.slash_prefix,
      Key.components_text, Key.components_text, commonNames_min_max]
    rfl
  rw [isWithin, decide_eq_true_eq, hcommon, Option.some.injEq, ← commonNames_eq_right]
  constructor
  · intro h
    have heq := Key.text_inj h
    exact ⟨(congrArg Key.double heq).symm, congrArg Key.names heq⟩
  · rintro ⟨hdouble, hnames⟩
    have hslashes : r.slashes = 1 := by
      rw [Key.slashes, hdouble]
      rfl
    change List.replicate 1 slash ++ join (commonNames k.names r.names) = _
    rw [Key.text, hslashes, hnames]

theorem isWithin_self (k : Key) : isWithin k.text k.text = true ↔ k.double = false := by
  rw [isWithin_text, and_iff_left List.prefix_rfl]

theorem isWithin_trans {k r t : Key} (h : isWithin k.text r.text = true)
    (h' : isWithin r.text t.text = true) : isWithin k.text t.text = true := by
  rw [isWithin_text] at h h' ⊢
  exact ⟨h'.1, h'.2.trans h.2⟩

/-- Of two keys that a path is within, one is within the other. -/
theorem isWithin_total {k r t : Key} (h : isWithin k.text r.text = true)
    (h' : isWithin k.text t.text = true) :
    isWithin r.text t.text = true ∨ isWithin t.text r.text = true := by
  rw [isWithin_text] at h h' ⊢
  rw [isWithin_text]
  rcases List.prefix_or_prefix_of_prefix h.2 h'.2 with hprefix | hprefix
  · exact .inr ⟨h.1, hprefix⟩
  · exact .inl ⟨h'.1, hprefix⟩

theorem length_join_lt (names : List Str) {name : Str} (rest : List Str) (h : name ≠ []) :
    (join names).length < (join (names ++ name :: rest)).length := by
  induction names with
  | nil =>
      have hpos : 0 < name.length := List.length_pos_iff.2 h
      cases rest with
      | nil => simpa [join] using hpos
      | cons next rest =>
          simp only [join, List.nil_append, List.intercalate_cons_cons, List.length_append,
            List.intercalate_nil, List.length_nil]
          omega
  | cons first names ih =>
      cases names with
      | nil => simp [join, List.intercalate_cons_cons]
      | cons second names =>
          simp only [join, List.cons_append, List.intercalate_cons_cons, List.length_append] at ih ⊢
          omega

/-- A key is longer than another key that it is within. -/
theorem length_lt_of_isWithin {k r : Key} (h : isWithin k.text r.text = true) (hne : k ≠ r) :
    r.text.length < k.text.length := by
  obtain ⟨hdouble, rest, hnames⟩ := (isWithin_text k r).1 h
  have hr : r.text.length = 1 + (join r.names).length := by
    simp [Key.text, Key.slashes, hdouble, Nat.add_comm]
  have hk : k.text.length = k.slashes + (join k.names).length := by
    simp [Key.text]
  cases rest with
  | nil =>
      rw [List.append_nil] at hnames
      cases hk' : k.double with
      | true =>
          have hslashes : k.slashes = 2 := by
            rw [Key.slashes, hk']
            rfl
          rw [hr, hk, hslashes, hnames]
          omega
      | false =>
          refine absurd (Key.text_inj ?_) hne
          rw [Key.text, Key.text, Key.slashes, Key.slashes, hk', hdouble, hnames]
  | cons name rest =>
      have hname : name ∈ k.names := hnames ▸ List.mem_append_right _ List.mem_cons_self
      have hlt := length_join_lt r.names rest (k.plain name hname).ne_nil
      have hslashes : 1 ≤ k.slashes := by
        rw [Key.slashes]
        split <;> omega
      rw [hr, hk, ← hnames]
      omega

end Posix
