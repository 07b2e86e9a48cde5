import ZsecShield.Scan.Inspection
import ZsecShield.Lib.Json.Shape

/-!
# What the inspectors report

Whatever the content of a file, the inspectors report few observations, all of them `Short`
(`reports_inspectContent`).  The fields that come from the file are numbers of a few bytes, names of
sections and counts of entries.
-/

namespace ZsecShield.Scan

open Text (Str str Encodable)

/-! ## Short observations -/

/-- A value that a frame has room for. -/
def EvidenceValue.Short : EvidenceValue → Prop
  | .text s => s.length ≤ 136 ∧ Encodable s
  | .number n => n.natAbs < 10 ^ 40
  | .flag _ => True

structure ShortEvidence (evidence : List (Str × EvidenceValue)) : Prop where
  count : evidence.length ≤ 5
  nodup : (evidence.map Prod.fst).Nodup
  keys : ∀ m ∈ evidence, (1 ≤ m.1.length ∧ m.1.length ≤ 30) ∧ Encodable m.1
  values : ∀ m ∈ evidence, m.2.Short

/-- An observation that the broker accepts and that a frame has room for. -/
structure Observation.Short (o : Observation) : Prop where
  provider : (1 ≤ o.provider.length ∧ o.provider.length ≤ 40) ∧ Encodable o.provider
  category : (1 ≤ o.category.length ∧ o.category.length ≤ 80) ∧ Encodable o.category
  summary : (1 ≤ o.summary.length ∧ o.summary.length ≤ 100) ∧ Encodable o.summary
  evidence : ShortEvidence o.evidence

theorem length_str (s : String) : (str s).length = s.length := by
  rw [str, List.length_map, String.length_toList]

theorem shortEvidence_nil : ShortEvidence [] := ⟨Nat.zero_le _, List.nodup_nil, nofun, nofun⟩

/-- Evidence under literal keys. -/
theorem shortEvidence_of_keys {evidence : List (Str × EvidenceValue)} (keys : List String)
    (hkeys : evidence.map Prod.fst = keys.map str) (hnodup : keys.Nodup)
    (hlength : keys.length ≤ 5 ∧ ∀ key ∈ keys, 1 ≤ key.length ∧ key.length ≤ 30)
    (hvalues : ∀ m ∈ evidence, m.2.Short) : ShortEvidence evidence where
  count := by
    have hcount := congrArg List.length hkeys
    rw [List.length_map, List.length_map] at hcount
    exact hcount ▸ hlength.1
  nodup := hkeys ▸ hnodup.map fun _ _ h => Text.str_injective.1 h
  keys m hm := by
    obtain ⟨key, hkey, heq⟩ := List.mem_map.1 (hkeys ▸ List.mem_map_of_mem (f := Prod.fst) hm)
    rw [← heq, length_str]
    exact ⟨hlength.2 key hkey, Text.encodable_str key⟩
  values := hvalues

/-- An observation with literal texts. -/
theorem short_observation {provider category summary : String} {severity : Severity}
    {evidence : List (Str × EvidenceValue)}
    (hprovider : 1 ≤ provider.length ∧ provider.length ≤ 40)
    (hcategory : 1 ≤ category.length ∧ category.length ≤ 80)
    (hsummary : 1 ≤ summary.length ∧ summary.length ≤ 100) (hevidence : ShortEvidence evidence) :
    (observation provider category severity summary evidence).Short := by
  have htake : (str summary).take 300 = str summary :=
    List.take_of_length_le (by rw [length_str]; omega)
  refine ⟨?_, ?_, ?_, hevidence⟩
  · simp only [observation, length_str]
    exact ⟨hprovider, Text.encodable_str provider⟩
  · simp only [observation, length_str]
    exact ⟨hcategory, Text.encodable_str category⟩
  · simp only [observation, htake, length_str]
    exact ⟨hsummary, Text.encodable_str summary⟩

/-- At most so many observations, all of them short. -/
structure Reports (n : Nat) (observations : List Observation) : Prop where
  length : observations.length ≤ n
  short : ∀ o ∈ observations, o.Short

namespace Reports

theorem nil : Reports 0 [] := ⟨Nat.le_refl 0, nofun⟩

theorem single {o : Observation} (h : o.Short) : Reports 1 [o] :=
  ⟨Nat.le_refl 1, List.forall_mem_singleton.2 h⟩

theorem append {n m : Nat} {l l' : List Observation} (h : Reports n l) (h' : Reports m l') :
    Reports (n + m) (l ++ l') := by
  refine ⟨?_, List.forall_mem_append.2 ⟨h.short, h'.short⟩⟩
  rw [List.length_append]
  exact Nat.add_le_add h.length h'.length

theorem mono {n m : Nat} {l : List Observation} (h : Reports n l) (hle : n ≤ m) : Reports m l :=
  ⟨h.length.trans hle, h.short⟩

theorem ite {n : Nat} {c : Prop} [Decidable c] {l l' : List Observation} (h : c → Reports n l)
    (h' : ¬ c → Reports n l') : Reports n (if c then l else l') := by
  split
  · rename_i hc
    exact h hc
  · rename_i hc
    exact h' hc

end Reports

/-! ## Portable executables -/

theorem littleEndian_lt (field : Bytes) : littleEndian field < 256 ^ field.length := by
  induction field with
  | nil => exact Nat.one_pos
  | cons b rest ih =>
      have hb : b.toNat < 256 := b.toNat_lt
      rw [littleEndian, List.length_cons, Nat.pow_succ]
      omega

theorem unpackFrom_lt {width offset n : Nat} {value : Bytes}
    (h : unpackFrom width value offset = some n) : n < 256 ^ width := by
  unfold unpackFrom at h
  dsimp only at h
  split at h
  · rename_i hlength
    cases h
    have hlt := littleEndian_lt ((value.drop offset).take width)
    rwa [hlength] at hlt
  · cases h

/-- A name that `inspect_pe` gives to a section. -/
def IsSectionName (name : Str) : Prop := name.length ≤ 16 ∧ Encodable name

theorem encodable_decodeAscii (raw : Bytes) : Encodable (decodeAscii raw) := by
  intro c hc hsurrogate
  obtain ⟨b, -, rfl⟩ := List.mem_map.1 hc
  obtain ⟨hlow, hhigh⟩ := hsurrogate
  split at hlow
  · rename_i hascii
    have hval : (Fin.ofNat 0x110000 b.toNat).val = b.toNat := Nat.mod_eq_of_lt (by omega)
    rw [hval] at hlow
    omega
  · rename_i hascii
    rw [if_neg hascii] at hhigh
    exact absurd hhigh (by decide)

theorem isSectionName_sectionName (value : Bytes) (offset : Nat) {index : Nat} (h : index < 96) :
    IsSectionName (sectionName value offset index) := by
  unfold sectionName
  dsimp only
  split
  · have hdigits : (Text.digits index).length ≤ 2 :=
      (Text.length_digits_le_iff (by decide)).2 (by omega)
    refine ⟨?_, Text.encodable_append _ _ |>.2 ⟨Text.encodable_str _, ?_⟩⟩
    · rw [List.length_append, length_str]
      have hword : "section-".length = 8 := rfl
      omega
    · exact (Json.ascii_digits index).encodable
  · refine ⟨List.length_take_le _ _, fun c hc => ?_⟩
    exact encodable_decodeAscii _ c (List.mem_of_mem_take hc)

/-- The collected names are section names. -/
def SectionNames.Valid (names : SectionNames) : Prop :=
  (∀ name ∈ names.wx, IsSectionName name) ∧ ∀ name ∈ names.highEntropy, IsSectionName name

theorem forall_mem_snoc {p : Str → Prop} {l : List Str} {name : Str} (hl : ∀ s ∈ l, p s)
    (hname : p name) : ∀ s ∈ l ++ [name], p s :=
  List.forall_mem_append.2 ⟨hl, List.forall_mem_singleton.2 hname⟩

theorem SectionNames.Valid.addWx {names : SectionNames} {name : Str} (hvalid : names.Valid)
    (hname : IsSectionName name) (flags : Nat) : (SectionNames.addWx names name flags).Valid := by
  unfold SectionNames.addWx
  split
  · exact ⟨forall_mem_snoc hvalid.1 hname, hvalid.2⟩
  · exact hvalid

theorem SectionNames.Valid.turn {ins : Inspectors} {value : Bytes} {sectionTable index : Nat}
    {names names' : SectionNames} (hindex : index < 96) (hvalid : names.Valid)
    (h : SectionNames.turn ins value sectionTable names index = some names') : names'.Valid := by
  have hname := isSectionName_sectionName value (sectionTable + index * 40) hindex
  simp only [SectionNames.turn, Option.bind_eq_bind, Option.bind_eq_some_iff] at h
  obtain ⟨rawSize, -, rawOffset, -, flags, -, h⟩ := h
  have hadded := hvalid.addWx hname flags
  split at h
  · cases h
    exact ⟨hadded.1, forall_mem_snoc hadded.2 hname⟩
  · cases h
    exact hadded

/-- What a step preserves, a loop preserves. -/
theorem foldlM_invariant {α β : Type} {P : β → Prop} {f : β → α → Option β} {l : List α}
    (hf : ∀ a ∈ l, ∀ b b', P b → f b a = some b' → P b') {b b' : β} (hb : P b)
    (h : l.foldlM f b = some b') : P b' := by
  induction l generalizing b with
  | nil =>
      cases h
      exact hb
  | cons a l ih =>
      rw [List.foldlM_cons] at h
      obtain ⟨next, hnext, h⟩ := Option.bind_eq_some_iff.1 h
      exact ih (fun x hx => hf x (List.mem_cons_of_mem a hx))
        (hf a List.mem_cons_self b next hb hnext) h

theorem mem_intercalate {sep : Str} {c : Text.CodePoint} {l : List Str}
    (h : c ∈ sep.intercalate l) : c ∈ sep ∨ ∃ s ∈ l, c ∈ s := by
  induction l with
  | nil => exact absurd (show c ∈ ([] : Str) from h) List.not_mem_nil
  | cons s l ih =>
      cases l with
      | nil =>
          rw [List.intercalate_singleton] at h
          exact .inr ⟨s, List.mem_cons_self, h⟩
      | cons s' l =>
          rw [List.intercalate_cons_cons, List.mem_append, List.mem_append] at h
          rcases h with (h | h) | h
          · exact .inr ⟨s, List.mem_cons_self, h⟩
          · exact .inl h
          · refine (ih h).imp_right fun ⟨t, ht, hc⟩ => ⟨t, List.mem_cons_of_mem s ht, hc⟩

theorem length_intercalate_le {sep : Str} {k : Nat} {l : List Str} (h : ∀ s ∈ l, s.length ≤ k) :
    (sep.intercalate l).length ≤ l.length * (k + sep.length) := by
  induction l with
  | nil => exact Nat.zero_le _
  | cons s l ih =>
      have hs := h s List.mem_cons_self
      have hrest := ih fun t ht => h t (List.mem_cons_of_mem s ht)
      cases l with
      | nil =>
          rw [List.intercalate_singleton, List.length_singleton]
          omega
      | cons s' l =>
          rw [List.intercalate_cons_cons, List.length_append, List.length_append,
            List.length_cons, Nat.succ_mul]
          omega

/-- The names of eight sections are a short text. -/
theorem short_joinNames {names : List Str} (h : ∀ name ∈ names, IsSectionName name) :
    (EvidenceValue.text (joinNames names)).Short := by
  have htake : ∀ name ∈ names.take 8, IsSectionName name :=
    fun name hname => h name (List.mem_of_mem_take hname)
  constructor
  · have hlength : (joinNames names).length ≤ (names.take 8).length * (16 + (str ",").length) :=
      length_intercalate_le fun name hname => (htake name hname).1
    have hcount : (names.take 8).length ≤ 8 := List.length_take_le _ _
    have hcomma : (str ",").length = 1 := rfl
    rw [hcomma] at hlength
    omega
  · intro c hc
    rcases mem_intercalate hc with hc | ⟨name, hname, hc⟩
    · exact Text.encodable_str _ c hc
    · exact (htake name hname).2 c hc

theorem short_hexWord (n : Nat) : (EvidenceValue.text (hexWord n)).Short := by
  have hhex : ∀ k < 16, ¬ Text.IsSurrogate (Json.hexChar k) := by decide
  have hdigit (k : Nat) : ¬ Text.IsSurrogate (Json.hexChar (k % 16)) :=
    hhex _ (Nat.mod_lt k (by decide))
  have hlength : (hexWord n).length = 6 := rfl
  refine ⟨by omega, (Text.encodable_append _ _).2 ⟨Text.encodable_str _, ?_⟩⟩
  simp only [Text.encodable_cons, hdigit, not_false_eq_true, true_and, Text.encodable_nil]

theorem PeHeader.unpack_lt {value : Bytes} {offset : Nat} {header : PeHeader}
    (h : PeHeader.unpack value offset = some header) :
    header.sectionCount < 256 ^ 2 ∧ header.timestamp < 256 ^ 4 := by
  simp only [PeHeader.unpack, Option.bind_eq_bind, Option.bind_eq_some_iff] at h
  obtain ⟨machine, -, sectionCount, hcount, timestamp, htime, size, -, flags, -, h⟩ := h
  cases h
  exact ⟨unpackFrom_lt hcount, unpackFrom_lt htime⟩

theorem short_nat {n : Nat} (h : n < 10 ^ 40) : (EvidenceValue.number n).Short := by
  rw [EvidenceValue.Short, Int.natAbs_natCast]
  exact h

theorem shortEvidence_sections {names : List Str} (h : ∀ name ∈ names, IsSectionName name) :
    ShortEvidence [(str "sections", .text (joinNames names))] :=
  shortEvidence_of_keys ["sections"] rfl (by decide) (by decide)
    (List.forall_mem_singleton.2 (short_joinNames h))

theorem shortEvidence_metadata {header : PeHeader} (hcount : header.sectionCount < 256 ^ 2)
    (htime : header.timestamp < 256 ^ 4) (certificate : Bool) :
    ShortEvidence [(str "machine", .text (hexWord header.machine)),
      (str "sections", .number header.sectionCount), (str "timestamp", .number header.timestamp),
      (str "characteristics", .text (hexWord header.characteristics)),
      (str "certificate_table_present", .flag certificate)] := by
  refine shortEvidence_of_keys ["machine", "sections", "timestamp", "characteristics",
    "certificate_table_present"] rfl (by decide) (by decide) ?_
  simp only [List.forall_mem_cons]
  exact ⟨short_hexWord _, short_nat (by omega), short_nat (by omega), short_hexWord _, trivial,
    nofun⟩

/-- Behind the first bytes, `inspect_pe` reports at most three short observations. -/
theorem reports_peObservations {ins : Inspectors} {value : Bytes} {declaredSize : Int}
    {observations : List Observation}
    (h : peObservations ins value declaredSize = some observations) : Reports 3 observations := by
  simp only [peObservations, Option.bind_eq_bind, Option.bind_eq_some_iff] at h
  obtain ⟨peOffset, -, h⟩ := h
  split at h
  · cases h
    exact (Reports.single (short_observation (by decide) (by decide) (by decide)
      shortEvidence_nil)).mono (by decide)
  · obtain ⟨header, hheader, h⟩ := Option.bind_eq_some_iff.1 h
    obtain ⟨hcount, htime⟩ := PeHeader.unpack_lt hheader
    split at h
    · cases h
      have hevidence : ShortEvidence [(str "section_count", .number header.sectionCount)] :=
        shortEvidence_of_keys ["section_count"] rfl (by decide) (by decide)
          (List.forall_mem_singleton.2 (short_nat (by omega)))
      exact (Reports.single (short_observation (by decide) (by decide) (by decide)
        hevidence)).mono (by decide)
    · rename_i hsections
      split at h
      · cases h
        exact (Reports.single (short_observation (by decide) (by decide) (by decide)
          shortEvidence_nil)).mono (by decide)
      · obtain ⟨certificate, -, h⟩ := Option.bind_eq_some_iff.1 h
        obtain ⟨names, hnames, h⟩ := Option.bind_eq_some_iff.1 h
        cases h
        have hvalid : names.Valid := by
          refine foldlM_invariant (P := SectionNames.Valid) (fun index hindex _ _ hb hturn => ?_)
            ⟨List.forall_mem_nil _, List.forall_mem_nil _⟩ hnames
          have hlt := List.mem_range.1 hindex
          exact hb.turn (by omega) hturn
        have hmetadata := shortEvidence_metadata hcount htime certificate
        refine .append (n := 2) (m := 1) (.append (n := 1) (m := 1) (.single ?_)
          (.ite (fun _ => Reports.nil.mono (by decide)) fun _ => ?_))
          (.ite (fun _ => Reports.nil.mono (by decide)) fun _ => ?_)
        · exact short_observation (by decide) (by decide) (by decide) hmetadata
        · exact .single (short_observation (by decide) (by decide) (by decide)
            (shortEvidence_sections hvalid.1))
        · exact .single (short_observation (by decide) (by decide) (by decide)
            (shortEvidence_sections hvalid.2))

theorem reports_inspectPe (ins : Inspectors) (value : Bytes) (declaredSize : Int) :
    Reports 3 (inspectPe ins value declaredSize) := by
  unfold inspectPe
  refine .ite (fun _ => Reports.nil.mono (by decide)) fun _ => ?_
  cases h : peObservations ins value declaredSize with
  | none =>
      exact (Reports.single (short_observation (by decide) (by decide) (by decide)
        shortEvidence_nil)).mono (by decide)
  | some observations => exact reports_peObservations h

/-! ## Scripts -/

theorem mem_of_mem_findAll {words : List Bytes} {skip : Nat} {text word : Bytes}
    (h : word ∈ findAll words skip text) : word ∈ words := by
  induction text generalizing skip with
  | nil =>
      rw [findAll] at h
      cases h
  | cons b rest ih =>
      cases skip with
      | succ skip =>
          rw [findAll] at h
          exact ih h
      | zero =>
          rw [findAll] at h
          split at h
          · rename_i found hfound
            rcases List.mem_cons.1 h with rfl | h
            · exact List.mem_of_find?_eq_some hfound
            · exact ih h
          · exact ih h

theorem length_dedup_findAll_le (words : List Bytes) (text : Bytes) :
    (findAll words 0 text).dedup.length ≤ words.length :=
  (List.subperm_of_subset (List.nodup_dedup _) fun _ hword =>
    mem_of_mem_findAll (List.mem_dedup.1 hword)).length_le

theorem reports_inspectScript (value : Bytes) : Reports 3 (inspectScript value) := by
  unfold inspectScript
  dsimp only
  refine .ite (fun _ => Reports.nil.mono (by decide)) fun _ => ?_
  refine .ite (fun _ => Reports.nil.mono (by decide)) fun _ => ?_
  refine .append (n := 2) (m := 1) (.append (n := 1) (m := 1)
    (.ite (fun _ => .single ?_) fun _ => Reports.nil.mono (by decide))
    (.ite (fun _ => .single ?_) fun _ => Reports.nil.mono (by decide)))
    (.ite (fun _ => .single ?_) fun _ => Reports.nil.mono (by decide))
  · exact short_observation (by decide) (by decide) (by decide) shortEvidence_nil
  · exact short_observation (by decide) (by decide) (by decide) shortEvidence_nil
  · have hcount := length_dedup_findAll_le injection
      (lowerBytes (value.take (1024 * 1024)))
    have hwords : injection.length = 5 := rfl
    exact short_observation (by decide) (by decide) (by decide)
      (shortEvidence_of_keys ["primitive_count"] rfl (by decide) (by decide)
        (List.forall_mem_singleton.2 (short_nat (by omega))))

/-! ## ZIP archives -/

/-- The classes of the standard library that `inspect_zip` handles, with their subclasses. -/
def handledExceptions : List String :=
  ["BadZipFile", "NotImplementedError", "OSError", "BlockingIOError", "ChildProcessError",
    "ConnectionError", "BrokenPipeError", "ConnectionAbortedError", "ConnectionRefusedError",
    "ConnectionResetError", "FileExistsError", "FileNotFoundError", "InterruptedError",
    "IsADirectoryError", "NotADirectoryError", "PermissionError", "ProcessLookupError",
    "TimeoutError", "UnsupportedOperation", "ValueError", "UnicodeError", "UnicodeDecodeError",
    "UnicodeEncodeError", "UnicodeTranslateError"]

/-- What is known of the ZIP parser: it raises exceptions of these classes only, the sizes of an
entry are numbers of at most eight bytes, and an entry takes room in the archive. -/
structure ReadsZip (ins : Inspectors) : Prop where
  raised : ∀ value name, ins.zipEntries value = .error name → ∃ s ∈ handledExceptions, name = str s
  sizes : ∀ value entries, ins.zipEntries value = .ok entries → ∀ entry ∈ entries,
    entry.fileSize < 2 ^ 64 ∧ entry.compressSize < 2 ^ 64
  count : ∀ value entries, ins.zipEntries value = .ok entries → entries.length ≤ value.length

theorem short_total {α : Type} {f : α → Int} {l : List α} (h : ∀ a ∈ l, f a < 2 ^ 64)
    (hcount : l.length ≤ maxInspectionBytes) :
    (EvidenceValue.number (l.map fun a => max 0 (f a)).sum).Short := by
  have hsum : 0 ≤ (l.map fun a => max 0 (f a)).sum ∧
      (l.map fun a => max 0 (f a)).sum ≤ l.length * 2 ^ 64 := by
    clear hcount
    induction l with
    | nil => simp
    | cons a l ih =>
        obtain ⟨hlow, hhigh⟩ := ih fun b hb => h b (List.mem_cons_of_mem a hb)
        have ha := h a List.mem_cons_self
        rw [List.map_cons, List.sum_cons, List.length_cons]
        push_cast
        omega
  have hmax : maxInspectionBytes = 16777216 := rfl
  unfold EvidenceValue.Short
  omega

theorem shortEvidence_count {key : String} {n : Nat} (hkey : 1 ≤ key.length ∧ key.length ≤ 30)
    (hn : n ≤ maxInspectionBytes) : ShortEvidence [(str key, .number n)] := by
  have hmax : maxInspectionBytes = 16777216 := rfl
  exact shortEvidence_of_keys [key] rfl (List.nodup_singleton key)
    ⟨(by decide : 1 ≤ 5), List.forall_mem_singleton.2 hkey⟩
    (List.forall_mem_singleton.2 (short_nat (by omega)))

theorem reports_zipObservations (ins : Inspectors) {entries : List ZipInfo}
    (hsizes : ∀ entry ∈ entries, entry.fileSize < 2 ^ 64 ∧ entry.compressSize < 2 ^ 64)
    (hcount : entries.length ≤ maxInspectionBytes) : Reports 4 (zipObservations ins entries) := by
  have hmax : maxInspectionBytes = 16777216 := rfl
  have hcountP (p : ZipInfo → Bool) : entries.countP p ≤ maxInspectionBytes :=
    List.countP_le_length.trans hcount
  have hnumber (p : ZipInfo → Bool) : (EvidenceValue.number (entries.countP p)).Short :=
    short_nat (by have := hcountP p; omega)
  have hlength : (EvidenceValue.number entries.length).Short := short_nat (by omega)
  have hfile := short_total (fun entry hentry => (hsizes entry hentry).1) hcount
  have hcompress := short_total (fun entry hentry => (hsizes entry hentry).2) hcount
  unfold zipObservations
  dsimp only
  refine .append (n := 3) (m := 1) (.append (n := 2) (m := 1) (.append (n := 1) (m := 1)
    (.single ?_) (.ite (fun _ => Reports.nil.mono (by decide)) fun _ => .single ?_))
    (.ite (fun _ => .single ?_) fun _ => Reports.nil.mono (by decide)))
    (.ite (fun _ => Reports.nil.mono (by decide)) fun _ => .single ?_)
  · refine short_observation (by decide) (by decide) (by decide) (shortEvidence_of_keys
      ["entries", "total_compressed", "total_uncompressed", "encrypted_entries",
        "nested_archives"] rfl (by decide) (by decide) ?_)
    simp only [List.forall_mem_cons]
    exact ⟨hlength, hcompress, hfile, hnumber _, hnumber _, nofun⟩
  · exact short_observation (by decide) (by decide) (by decide)
      (shortEvidence_count (by decide) (hcountP _))
  · refine short_observation (by decide) (by decide) (by decide) (shortEvidence_of_keys
      ["entries", "extreme_entries", "extreme_ratios", "total_uncompressed"] rfl (by decide)
      (by decide) ?_)
    simp only [List.forall_mem_cons]
    exact ⟨hlength, hnumber _, hnumber _, hfile, nofun⟩
  · exact short_observation (by decide) (by decide) (by decide)
      (shortEvidence_count (by decide) (hcountP _))

theorem reports_inspectZip {ins : Inspectors} (hzip : ReadsZip ins) {value : Bytes}
    (hvalue : value.length ≤ maxInspectionBytes) {declaredSize : Int}
    (hsize : declaredSize.natAbs < 10 ^ 40) : Reports 4 (inspectZip ins value declaredSize) := by
  unfold inspectZip
  refine .ite (fun _ => Reports.nil.mono (by decide)) fun _ => ?_
  refine .ite (fun _ => ?_) fun _ => ?_
  · have hevidence : ShortEvidence [(str "declared_size", .number declaredSize),
        (str "inspection_limit", .number maxInspectionBytes)] := by
      refine shortEvidence_of_keys ["declared_size", "inspection_limit"] rfl (by decide)
        (by decide) ?_
      simp only [List.forall_mem_cons]
      exact ⟨hsize, short_nat (by decide), nofun⟩
    exact (Reports.single (short_observation (by decide) (by decide) (by decide)
      hevidence)).mono (by decide)
  · cases hentries : ins.zipEntries value with
    | error name =>
        obtain ⟨s, hs, rfl⟩ := hzip.raised value name hentries
        have hnames : ∀ s ∈ handledExceptions, s.length ≤ 136 := by decide
        have hevidence : ShortEvidence [(str "error", .text (str s))] := by
          refine shortEvidence_of_keys ["error"] rfl (by decide) (by decide)
            (List.forall_mem_singleton.2 ⟨?_, Text.encodable_str s⟩)
          rw [length_str]
          exact hnames s hs
        exact (Reports.single (short_observation (by decide) (by decide) (by decide)
          hevidence)).mono (by decide)
    | ok entries =>
        exact reports_zipObservations ins (hzip.sizes value entries hentries)
          ((hzip.count value entries hentries).trans hvalue)

/-- The inspectors report at most ten short observations. -/
theorem reports_inspectContent {ins : Inspectors} (hzip : ReadsZip ins) {value : Bytes}
    (hvalue : value.length ≤ maxInspectionBytes) {declaredSize : Int}
    (hsize : declaredSize.natAbs < 10 ^ 40) :
    Reports 10 (inspectContent ins value declaredSize) := by
  have hall := ((reports_inspectPe ins value declaredSize).append
    (reports_inspectScript value)).append (reports_inspectZip hzip hvalue hsize)
  exact ⟨(List.length_take_le' _ _).trans hall.length,
    fun o ho => hall.short o (List.mem_of_mem_take ho)⟩

end ZsecShield.Scan
