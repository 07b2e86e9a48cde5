import ZsecShield.Scan.Content
import ZsecShield.Lib.Window

/-!
# Literal matching is exact

Both loops search a window of the tail and the chunk, and the tail is as long as the longest
literal but one byte.  So what they have found after any number of chunks is what the bytes
read so far contain.
-/

namespace ZsecShield.Scan

open Text (Str str)
open Window (windows)

/-! ## One window -/

theorem mem_addMatches {literals : Literals} {window : Bytes} {found : List Str} {identifier : Str} :
    identifier ∈ addMatches literals window found ↔ identifier ∈ found ∨
      ∃ literal ∈ literals, literal.1 = identifier ∧ literal.2 <:+: window := by
  unfold addMatches
  induction literals generalizing found with
  | nil => simp
  | cons literal literals ih =>
      rw [List.foldl_cons, ih]
      simp only [List.mem_cons, exists_eq_or_imp]
      by_cases hmem : literal.1 ∈ found
      · rw [if_neg fun h => h.1 hmem]
        constructor
        · rintro (h | h)
          · exact .inl h
          · exact .inr (.inr h)
        · rintro (h | ⟨rfl, -⟩ | h)
          · exact .inl h
          · exact .inl hmem
          · exact .inr h
      · by_cases hwindow : literal.2 <:+: window
        · rw [if_pos ⟨hmem, hwindow⟩, List.mem_append, List.mem_singleton]
          constructor
          · rintro ((h | rfl) | h)
            · exact .inl h
            · exact .inr (.inl ⟨rfl, hwindow⟩)
            · exact .inr (.inr h)
          · rintro (h | ⟨rfl, -⟩ | h)
            · exact .inl (.inl h)
            · exact .inl (.inr rfl)
            · exact .inr h
        · rw [if_neg fun h => hwindow h.2]
          constructor
          · rintro (h | h)
            · exact .inl h
            · exact .inr (.inr h)
          · rintro (h | ⟨-, h⟩ | h)
            · exact .inl h
            · exact absurd h hwindow
            · exact .inr h

theorem length_le_maximumLiteral {literals : Literals} {literal : Str × Bytes}
    (h : literal ∈ literals) : literal.2.length ≤ maximumLiteral literals := by
  have hmem : literal.2.length ∈ literals.map fun literal => literal.2.length :=
    List.mem_map_of_mem h
  obtain ⟨maximum, hmaximum⟩ := Option.isSome_iff_exists.1 (List.isSome_max?_of_mem hmem)
  rw [maximumLiteral, hmaximum, Option.getD_some]
  exact (List.max?_le_iff hmaximum).1 le_rfl _ hmem

/-! ## The state of a loop -/

/-- The state behind the chunks. -/
def Matching.feedAll (literals : Literals) (m : Matching) (chunks : List Bytes) : Matching :=
  chunks.foldl (Matching.feed literals) m

/-- The tail is no longer than the loop keeps it. -/
def Matching.Fits (literals : Literals) (m : Matching) : Prop :=
  m.tail.length ≤ maximumLiteral literals - 1

variable {literals : Literals} {m : Matching}

theorem fits_start : Matching.start.Fits literals := Nat.zero_le _

/-- The tail behind a chunk is the end of the window. -/
theorem feed_tail (h : m.Fits literals) (chunk : Bytes) :
    (m.feed literals chunk).tail = (m.tail ++ chunk).rtake (maximumLiteral literals - 1) := by
  simp only [Matching.feed]
  split
  · rfl
  · rename_i hshort
    have hzero : maximumLiteral literals - 1 = 0 := by omega
    have hnil : m.tail = [] := by
      rw [Matching.Fits, hzero] at h
      exact List.length_eq_zero_iff.1 (Nat.le_zero.1 h)
    rw [hzero, List.rtake_zero, hnil]

theorem fits_feed (h : m.Fits literals) (chunk : Bytes) : (m.feed literals chunk).Fits literals := by
  rw [Matching.Fits, feed_tail h, List.rtake, List.length_drop]
  omega

theorem feedAll_digested (m : Matching) (chunks : List Bytes) :
    (m.feedAll literals chunks).digested = m.digested ++ chunks.flatten := by
  induction chunks generalizing m with
  | nil => simp [Matching.feedAll]
  | cons chunk chunks ih =>
      refine (ih (m.feed literals chunk)).trans ?_
      simp [Matching.feed]

theorem feedAll_bytesRead (m : Matching) (chunks : List Bytes) :
    (m.feedAll literals chunks).bytesRead = m.bytesRead + chunks.flatten.length := by
  induction chunks generalizing m with
  | nil => simp [Matching.feedAll]
  | cons chunk chunks ih =>
      refine (ih (m.feed literals chunk)).trans ?_
      simp [Matching.feed, Nat.add_assoc]

/-- A loop adds what is in one of its windows. -/
theorem mem_feedAll (h : m.Fits literals) {identifier : Str} (chunks : List Bytes) :
    identifier ∈ (m.feedAll literals chunks).literalMatches ↔ identifier ∈ m.literalMatches ∨
      ∃ w ∈ windows (maximumLiteral literals - 1) m.tail chunks,
        ∃ literal ∈ literals, literal.1 = identifier ∧ literal.2 <:+: w := by
  induction chunks generalizing m with
  | nil => simp [Matching.feedAll, windows]
  | cons chunk chunks ih =>
      refine (ih (fits_feed h chunk)).trans ?_
      rw [feed_tail h, windows]
      have hmatches : identifier ∈ (m.feed literals chunk).literalMatches ↔
          identifier ∈ m.literalMatches ∨
            ∃ literal ∈ literals, literal.1 = identifier ∧ literal.2 <:+: m.tail ++ chunk :=
        mem_addMatches
      rw [hmatches, or_assoc]
      simp only [List.mem_cons, exists_eq_or_imp]

/-- What a loop has found behind the chunks is what they contain. -/
theorem mem_feedAll_start (hnonempty : ∀ literal ∈ literals, literal.2 ≠ []) {identifier : Str}
    (chunks : List Bytes) :
    identifier ∈ (Matching.start.feedAll literals chunks).literalMatches ↔
      ∃ literal ∈ literals, literal.1 = identifier ∧ literal.2 <:+: chunks.flatten := by
  rw [mem_feedAll fits_start]
  have hstart : identifier ∉ Matching.start.literalMatches := List.not_mem_nil
  rw [or_iff_right hstart]
  have hiff : ∀ literal ∈ literals, literal.2 <:+: chunks.flatten ↔
      ∃ w ∈ windows (maximumLiteral literals - 1) Matching.start.tail chunks, literal.2 <:+: w := by
    intro literal hliteral
    have hlength := length_le_maximumLiteral hliteral
    exact Window.infix_flatten_iff (hnonempty literal hliteral) (by omega) chunks
  constructor
  · rintro ⟨w, hw, literal, hliteral, hidentifier, hinfix⟩
    exact ⟨literal, hliteral, hidentifier, (hiff literal hliteral).2 ⟨w, hw, hinfix⟩⟩
  · rintro ⟨literal, hliteral, hidentifier, hinfix⟩
    obtain ⟨w, hw, hinfix⟩ := (hiff literal hliteral).1 hinfix
    exact ⟨w, hw, literal, hliteral, hidentifier, hinfix⟩

/-! ## The loop of the scanner -/

/-- Non-empty reads are all fed to the matching, unless they exceed the bound. -/
theorem readContent_eq (s : Scanner) {m : Matching} {chunks : List Bytes}
    (hchunks : ∀ chunk ∈ chunks, chunk ≠ []) (hm : (m.bytesRead : Int) ≤ s.config.maxFileBytes) :
    s.readContent m chunks =
      if ((m.bytesRead + chunks.flatten.length : Nat) : Int) ≤ s.config.maxFileBytes then
        some (m.feedAll s.literals chunks)
      else none := by
  induction chunks generalizing m with
  | nil =>
      rw [Scanner.readContent, List.flatten_nil, List.length_nil, Nat.add_zero, if_pos hm]
      rfl
  | cons chunk chunks ih =>
      rw [Scanner.readContent, if_neg (hchunks chunk List.mem_cons_self), List.flatten_cons,
        List.length_append]
      by_cases hbound : s.config.maxFileBytes < (m.bytesRead + chunk.length : Nat)
      · rw [if_pos hbound, if_neg (by omega)]
      · rw [if_neg hbound]
        have hfeed : ((m.feed s.literals chunk).bytesRead : Int) ≤ s.config.maxFileBytes :=
          not_lt.1 hbound
        rw [ih (fun c hc => hchunks c (List.mem_cons_of_mem chunk hc)) hfeed]
        have hbytes : (m.feed s.literals chunk).bytesRead = m.bytesRead + chunk.length := rfl
        rw [hbytes, Nat.add_assoc]
        rfl

/-- The constructor keeps the rules it is given, in the order of their identifiers. -/
theorem new_rules {pathKey : Path → Str} {rules : List Rule} {config : ScannerConfig} {s : Scanner}
    (h : Scanner.new pathKey rules config = .ok s) :
    s.rules = rules.insertionSort byRuleId ∧ s.config = config := by
  unfold Scanner.new at h
  dsimp only at h
  split at h
  · cases h
  · split at h
    · split at h
      · cases h
      · cases h
        exact ⟨rfl, rfl⟩
    · cases h

theorem mem_literalRules {pathKey : Path → Str} {rules : List Rule} {config : ScannerConfig}
    {s : Scanner} (h : Scanner.new pathKey rules config = .ok s) (rule : Rule) :
    rule ∈ s.literalRules ↔ rule ∈ rules ∧ rule.kind = .literal := by
  simp [Scanner.literalRules, (new_rules h).1, List.mem_insertionSort]

theorem bounds (s : Scanner) : 1 ≤ s.config.maxFileBytes ∧ 4096 ≤ s.config.chunkBytes := by
  have hbounded := s.bounded
  unfold ScannerConfig.fault at hbounded
  split at hbounded
  · cases hbounded
  · rename_i hmax
    split at hbounded
    · cases hbounded
    · rename_i hchunk
      exact ⟨(not_not.1 hmax).1, (not_not.1 hchunk).1⟩

theorem readContent_start (s : Scanner) {chunks : List Bytes}
    (hchunks : ∀ chunk ∈ chunks, chunk ≠ []) :
    s.readContent .start chunks =
      if (chunks.flatten.length : Int) ≤ s.config.maxFileBytes then
        some (Matching.start.feedAll s.literals chunks)
      else none := by
  have hbounds : (Matching.start.bytesRead : Int) ≤ s.config.maxFileBytes := by
    have hone := (bounds s).1
    simp only [Matching.start]
    omega
  have hbytes : Matching.start.bytesRead + chunks.flatten.length = chunks.flatten.length :=
    Nat.zero_add _
  rw [readContent_eq s hchunks hbounds, hbytes]

/-- The constructor leaves no literal rule without a pattern. -/
theorem pattern_ne_nil (s : Scanner) {rule : Rule} (h : rule ∈ s.literalRules) :
    pattern rule ≠ [] := by
  obtain ⟨hrule, hkind⟩ := List.mem_filter.1 h
  have hfault := s.faultless rule hrule
  unfold ruleFault at hfault
  split at hfault
  · cases hfault
  · split at hfault
    · cases hfault
    · rename_i hliteral
      exact fun hpattern => hliteral ⟨by simpa using hkind, hpattern⟩

theorem literals_nonempty (s : Scanner) : ∀ literal ∈ s.literals, literal.2 ≠ [] := by
  intro literal hliteral
  obtain ⟨rule, hrule, rfl⟩ := List.mem_map.1 hliteral
  exact pattern_ne_nil s hrule

/-- Two literal rules of a scanner with one identifier are one rule. -/
theorem literalRule_unique (s : Scanner) {rule rule' : Rule} (h : rule ∈ s.literalRules)
    (h' : rule' ∈ s.literalRules) (hid : rule'.ruleId = rule.ruleId) : rule' = rule :=
  List.inj_on_of_nodup_map s.unique (List.mem_of_mem_filter h') (List.mem_of_mem_filter h) hid

/-- The identifier of a literal rule is found when its pattern is in the content. -/
theorem mem_feedAll_rule (s : Scanner) {rule : Rule} (h : rule ∈ s.literalRules)
    (chunks : List Bytes) :
    rule.ruleId ∈ (Matching.start.feedAll s.literals chunks).literalMatches ↔
      pattern rule <:+: chunks.flatten := by
  rw [mem_feedAll_start (literals_nonempty s)]
  constructor
  · rintro ⟨literal, hliteral, hid, hinfix⟩
    obtain ⟨rule', hrule', rfl⟩ := List.mem_map.1 hliteral
    obtain rfl := literalRule_unique s h hrule' hid
    exact hinfix
  · exact fun hinfix => ⟨_, List.mem_map_of_mem h, rfl, hinfix⟩

/-! ## The loop of the worker -/

/-- What the worker keeps for inspection is the beginning of the content. -/
theorem streamLoop_eq (literals : Literals) {expectedSize chunkBytes maxFileBytes : Int} (inspection : Bytes)
    {chunks : List Bytes} (hchunks : ∀ chunk ∈ chunks, chunk ≠ [])
    (hframes : ∀ chunk ∈ chunks, (chunk.length : Int) ≤ chunkBytes)
    (hsize : expectedSize = (m.bytesRead + chunks.flatten.length : Nat))
    (hmax : expectedSize ≤ maxFileBytes) (hinspection : inspection.length ≤ maxInspectionBytes) :
    streamLoop literals expectedSize chunkBytes maxFileBytes m inspection chunks =
      .ok (m.feedAll literals chunks,
        inspection ++ chunks.flatten.take (maxInspectionBytes - inspection.length)) := by
  induction chunks generalizing m inspection with
  | nil =>
      rw [streamLoop, if_neg (by simp [hsize])]
      simp [Matching.feedAll]
  | cons chunk chunks ih =>
      have hne : chunk ≠ [] := hchunks chunk List.mem_cons_self
      have hlength : 0 < chunk.length := List.length_pos_iff.2 hne
      have hframe : ¬ chunkBytes < chunk.length := not_lt.2 (hframes chunk List.mem_cons_self)
      rw [List.flatten_cons, List.length_append] at hsize
      have hturn : streamTurn literals expectedSize chunkBytes maxFileBytes m inspection chunk =
          .ok (m.feed literals chunk,
            inspection ++ chunk.take (maxInspectionBytes - inspection.length)) := by
        rw [streamTurn, if_neg (by simp [hne, hframe]), if_neg (by omega)]
        by_cases hroom : inspection.length < maxInspectionBytes
        · rw [if_pos hroom]
        · rw [if_neg hroom, Nat.sub_eq_zero_of_le (not_lt.1 hroom), List.take_zero,
            List.append_nil]
      rw [streamLoop, if_pos (by omega), if_neg hframe, hturn]
      have hkept : (inspection ++ chunk.take (maxInspectionBytes - inspection.length)).length ≤
          maxInspectionBytes := by
        rw [List.length_append, List.length_take]
        omega
      have hrest := ih (m := m.feed literals chunk)
        (inspection ++ chunk.take (maxInspectionBytes - inspection.length))
        (fun c hc => hchunks c (List.mem_cons_of_mem chunk hc))
        (fun c hc => hframes c (List.mem_cons_of_mem chunk hc))
        (by rw [hsize]; simp only [Matching.feed]; omega) hkept
      refine hrest.trans ?_
      rw [List.flatten_cons, List.take_append, List.append_assoc, List.length_append,
        List.length_take]
      have hroom : maxInspectionBytes -
          (inspection.length + min (maxInspectionBytes - inspection.length) chunk.length) =
            maxInspectionBytes - inspection.length - chunk.length := by omega
      rw [hroom]
      rfl

/-- The worker gets the literals of the scanner. -/
theorem decodeLiterals_payload (s : Scanner) :
    decodeLiterals (rulesPayload s.rules) = .ok s.literals := by
  have hall : ∀ rules : List Rule, (∀ rule ∈ rules, pattern rule ≠ []) →
      decodeLiterals (rules.map fun rule => (rule.ruleId, Base64.encode (pattern rule))) =
        .ok (rules.map fun rule => (rule.ruleId, pattern rule)) := by
    intro rules hrules
    induction rules with
    | nil => rfl
    | cons rule rules ih =>
        have hrest := ih fun r hr => hrules r (List.mem_cons_of_mem rule hr)
        have hne : pattern rule ≠ [] := hrules rule List.mem_cons_self
        rw [List.map_cons, decodeLiterals, Base64.decode_encode]
        cases hpattern : pattern rule with
        | nil => exact absurd hpattern hne
        | cons byte bytes =>
            simp only [hrest, List.map_cons, hpattern]
            rfl
  exact hall s.literalRules fun rule => pattern_ne_nil s

theorem scanStream_eq (rt : ContentRuntime) {chunkBytes maxFileBytes : Int} {chunks : List Bytes}
    (hchunks : ∀ chunk ∈ chunks, chunk ≠ [])
    (hframes : ∀ chunk ∈ chunks, (chunk.length : Int) ≤ chunkBytes)
    (hmax : (chunks.flatten.length : Int) ≤ maxFileBytes) :
    scanStream rt (some chunks.flatten.length) literals chunkBytes maxFileBytes chunks =
      .ok {
        sha256 := rt.sha256 chunks.flatten
        bytesRead := chunks.flatten.length
        literalRuleIds :=
          (Matching.start.feedAll literals chunks).literalMatches.insertionSort (· ≤ ·)
        observations := rt.inspectContent (chunks.flatten.take maxInspectionBytes)
          chunks.flatten.length } := by
  have hloop := streamLoop_eq literals [] (m := .start) hchunks hframes
    (by simp [Matching.start]) hmax (Nat.zero_le _)
  have hdigested : (Matching.start.feedAll literals chunks).digested = chunks.flatten :=
    feedAll_digested _ _
  have hbytes : (Matching.start.feedAll literals chunks).bytesRead = chunks.flatten.length :=
    (feedAll_bytesRead _ _).trans (Nat.zero_add _)
  simp only [scanStream, if_neg (not_lt.2 hmax), hloop, bind, Except.bind, hdigested, hbytes,
    List.nil_append, List.length_nil, Nat.sub_zero]

/-! ## Both loops -/

/-- However the content arrives, in non-empty chunks: the loop in the process of the scanner gives
up content above the size policy and finds in other content just the literal rules whose pattern
occurs in it, and so does the worker, which gets the rules from the scanner. -/
theorem literal_matching_exact (s : Scanner) (rt : ContentRuntime) (chunks : List Bytes)
    (hchunks : ∀ chunk ∈ chunks, chunk ≠ []) :
    (if (chunks.flatten.length : Int) ≤ s.config.maxFileBytes then
      ∃ m, s.readContent .start chunks = some m ∧ m.digested = chunks.flatten ∧
        ∀ rule ∈ s.literalRules,
          rule.ruleId ∈ m.literalMatches ↔ pattern rule <:+: chunks.flatten
    else s.readContent .start chunks = none) ∧
    ((∀ chunk ∈ chunks, (chunk.length : Int) ≤ s.config.chunkBytes) →
      (chunks.flatten.length : Int) ≤ s.config.maxFileBytes →
      ∃ literals result, decodeLiterals (rulesPayload s.rules) = .ok literals ∧
        scanStream rt (some chunks.flatten.length) literals s.config.chunkBytes
          s.config.maxFileBytes chunks = .ok result ∧
        ∀ rule ∈ s.literalRules,
          rule.ruleId ∈ result.literalRuleIds ↔ pattern rule <:+: chunks.flatten) := by
  constructor
  · rw [readContent_start s hchunks]
    split
    · exact ⟨_, rfl, feedAll_digested _ _, fun rule hrule => mem_feedAll_rule s hrule chunks⟩
    · rfl
  · intro hframes hmax
    refine ⟨s.literals, _, decodeLiterals_payload s, scanStream_eq rt hchunks hframes hmax, ?_⟩
    intro rule hrule
    rw [List.mem_insertionSort]
    exact mem_feedAll_rule s hrule chunks

/-- A scanner with one literal of two bytes. -/
def pairScanner : Scanner where
  rules := [⟨str "pair", str "pair", .literal, .high, str "two bytes", str "sample", none,
    some [1, 2]⟩]
  config := {}
  excluded := []
  bounded := ScannerConfig.fault_default
  unique := List.nodup_singleton _
  faultless rule hrule := by
    obtain rfl := List.mem_singleton.1 hrule
    rfl

def plainRuntime : ContentRuntime where
  sha256 _ := []
  absolute := id
  modifiedAt _ := []
  inspectContent _ _ := []

/-- The literal across two chunks is found. -/
theorem literal_matching_exact_pair :
    (∃ m, pairScanner.readContent .start [[1], [2]] = some m ∧ str "pair" ∈ m.literalMatches) ∧
      ∃ literals result, decodeLiterals (rulesPayload pairScanner.rules) = .ok literals ∧
        scanStream plainRuntime (some 2) literals pairScanner.config.chunkBytes
          pairScanner.config.maxFileBytes [[1], [2]] = .ok result ∧
        str "pair" ∈ result.literalRuleIds := by
  obtain ⟨hprocess, hworker⟩ :=
    literal_matching_exact pairScanner plainRuntime [[1], [2]] (by decide)
  have hrule : ∃ rule ∈ pairScanner.literalRules, rule.ruleId = str "pair" ∧
      pattern rule <:+: [[1], [2]].flatten := ⟨_, List.mem_cons_self, rfl, List.infix_rfl⟩
  obtain ⟨rule, hrule, hid, hpattern⟩ := hrule
  rw [if_pos (by decide)] at hprocess
  obtain ⟨m, hm, -, hfound⟩ := hprocess
  obtain ⟨literals, result, hliterals, hresult, hids⟩ := hworker (by decide) (by decide)
  exact ⟨⟨m, hm, hid ▸ (hfound rule hrule).2 hpattern⟩, literals, result, hliterals, hresult,
    hid ▸ (hids rule hrule).2 hpattern⟩

/-- The rules a finding is made of. -/
def Scanner.matchedRules (s : Scanner) (rt : ContentRuntime) (m : Matching) : List Rule :=
  s.literalRules.filter (fun rule => rule.ruleId ∈ m.literalMatches) ++
    s.digestRules.filter fun rule => rule.digest = some (rt.sha256 m.digested)

theorem mem_matchedRules (s : Scanner) (rt : ContentRuntime) (m : Matching) {rule : Rule}
    (hrule : rule ∈ s.literalRules) :
    fromRule rule ∈ ((s.matchedRules rt m).insertionSort byRuleId).map fromRule ↔
      rule.ruleId ∈ m.literalMatches := by
  have hkind : rule.kind = .literal := by simpa using (List.mem_filter.1 hrule).2
  constructor
  · intro hmem
    obtain ⟨rule', hrule', heq⟩ := List.mem_map.1 hmem
    rw [List.mem_insertionSort] at hrule'
    have hid : rule'.ruleId = rule.ruleId := congrArg RuleMatch.ruleId heq
    obtain hliteral | hdigest := List.mem_append.1 hrule'
    · have hfound := (List.mem_filter.1 hliteral).2
      rw [hid] at hfound
      exact of_decide_eq_true hfound
    · -- A digest rule keeps its kind in the finding.
      have hkind' : rule'.kind = .literal := (congrArg RuleMatch.kind heq).trans hkind
      have hsha : rule'.kind = .sha256 := by
        simpa using (List.mem_filter.1 (List.mem_of_mem_filter hdigest)).2
      cases hkind'.symm.trans hsha
  · intro hfound
    refine List.mem_map_of_mem ?_
    rw [List.mem_insertionSort]
    exact List.mem_append_left _ (List.mem_filter.2 ⟨hrule, decide_eq_true hfound⟩)

/-- The finding of a file that did not change under the scan names just the literal rules whose
pattern occurs in it. -/
theorem scanOpened_reports (s : Scanner) (rt : ContentRuntime) (path : Path) (opened : Opened)
    (chunks : List Bytes) (stats : ScanStats) (hchunks : ∀ chunk ∈ chunks, chunk ≠ [])
    (hsize : opened.size = chunks.flatten.length)
    (hmax : (chunks.flatten.length : Int) ≤ s.config.maxFileBytes) {rule : Rule}
    (hrule : rule ∈ s.literalRules) :
    (∃ finding, (s.scanOpened rt path opened opened chunks stats).1 = some finding ∧
      fromRule rule ∈ finding.ruleMatches) ↔ pattern rule <:+: chunks.flatten := by
  have hbytes : (Matching.start.feedAll s.literals chunks).bytesRead = chunks.flatten.length :=
    (feedAll_bytesRead _ _).trans (Nat.zero_add _)
  have hread : s.readContent .start chunks = some (Matching.start.feedAll s.literals chunks) := by
    rw [readContent_start s hchunks, if_pos hmax]
  have hstable : ¬ (opened.size ≠ opened.size ∨ opened.mtimeNs ≠ opened.mtimeNs ∨
      ((Matching.start.feedAll s.literals chunks).bytesRead : Int) ≠ opened.size) := by
    simp [hbytes, hsize]
  rw [← mem_feedAll_rule s hrule chunks, ← mem_matchedRules s rt _ hrule, Scanner.scanOpened, hread]
  simp only [if_neg hstable]
  change (∃ finding, (if s.matchedRules rt _ = [] then _ else _ :
    Option FileFinding × ScanStats × List ScanIssue).1 = some finding ∧ _) ↔ _
  by_cases hnone : s.matchedRules rt (Matching.start.feedAll s.literals chunks) = []
  · rw [if_pos hnone, hnone]
    simp
  · rw [if_neg hnone]
    simp only [Option.some.injEq, exists_eq_left']
    rfl

end ZsecShield.Scan
