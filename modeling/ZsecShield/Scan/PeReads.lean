import ZsecShield.Lib.Reads
import ZsecShield.Scan.Inspection

/-!
# The reads of the PE inspector

`inspect_pe` once more, with every `struct.unpack_from` and every slice of the buffer kept.  An
exception of the interpreter has no result, so that it would reach the handler.
-/

namespace ZsecShield.Scan

open Text (Str str)

/-! ## Fields -/

/-- `struct.unpack_from` with one number in its format. -/
def readNumber (width : Nat) (value : Bytes) (offset : Nat) : Reads Nat := do
  let field ← Reads.field value offset width
  return littleEndian field

/-- `struct.unpack_from("<II", value, offset)`. -/
def readPair (value : Bytes) (offset : Nat) : Reads (Nat × Nat) := do
  let field ← Reads.field value offset 8
  return (littleEndian (field.take 4), littleEndian ((field.drop 4).take 4))

/-- `struct.unpack_from("<HHIIIHH", value, offset)`. -/
def PeHeader.read (value : Bytes) (offset : Nat) : Reads PeHeader := do
  let field ← Reads.field value offset 20
  return ⟨littleEndian (field.take 2), littleEndian ((field.drop 2).take 2),
    littleEndian ((field.drop 4).take 4), littleEndian ((field.drop 16).take 2),
    littleEndian ((field.drop 18).take 2)⟩

theorem unpackFrom_eq_some {width offset : Nat} {value : Bytes} (h : offset + width ≤ value.length) :
    unpackFrom width value offset = some (littleEndian ((value.drop offset).take width)) := by
  have hlength : ((value.drop offset).take width).length = width := by
    simp only [List.length_take, List.length_drop]
    omega
  simp only [unpackFrom, hlength, if_true]

theorem readNumber_ensures {width offset : Nat} {value : Bytes} (h : offset + width ≤ value.length) :
    (readNumber width value offset).Ensures value.length fun n =>
      unpackFrom width value offset = some n := by
  refine (Reads.Ensures.field h).bind fun field hfield => Reads.Ensures.pure ?_
  rw [hfield]
  exact unpackFrom_eq_some h

/-- A number inside a field is the number at its own offset. -/
theorem unpackFrom_inside {width size start offset : Nat} {value : Bytes}
    (hinside : start + width ≤ size) (h : offset + size ≤ value.length) :
    unpackFrom width value (offset + start) =
      some (littleEndian ((((value.drop offset).take size).drop start).take width)) := by
  rw [unpackFrom_eq_some (by omega), List.drop_take, List.take_take, List.drop_drop,
    Nat.min_eq_left (by omega)]

theorem readPair_ensures {offset : Nat} {value : Bytes} (h : offset + 8 ≤ value.length) :
    (readPair value offset).Ensures value.length fun pair =>
      unpackFrom 4 value offset = some pair.1 ∧ unpackFrom 4 value (offset + 4) = some pair.2 := by
  refine (Reads.Ensures.field h).bind fun field hfield => Reads.Ensures.pure ?_
  rw [hfield]
  exact ⟨unpackFrom_inside (by decide : 0 + 4 ≤ 8) h, unpackFrom_inside (by decide : 4 + 4 ≤ 8) h⟩

theorem PeHeader.read_ensures {offset : Nat} {value : Bytes} (h : offset + 20 ≤ value.length) :
    (PeHeader.read value offset).Ensures value.length fun header =>
      PeHeader.unpack value offset = some header := by
  refine (Reads.Ensures.field h).bind fun field hfield => Reads.Ensures.pure ?_
  rw [hfield]
  have hmachine : unpackFrom 2 value offset = _ :=
    unpackFrom_inside (by decide : 0 + 2 ≤ 20) h
  simp only [PeHeader.unpack, hmachine, unpackFrom_inside (by decide : 2 + 2 ≤ 20) h,
    unpackFrom_inside (by decide : 4 + 4 ≤ 20) h, unpackFrom_inside (by decide : 16 + 2 ≤ 20) h,
    unpackFrom_inside (by decide : 18 + 2 ≤ 20) h, Option.bind_eq_bind, Option.bind_some,
    List.drop_zero]
  rfl

/-! ## The parts of the inspector -/

/-- `magic`. -/
def readMagic (value : Bytes) (optional optionalSize : Nat) : Reads Nat :=
  if 2 ≤ optionalSize then readNumber 2 value optional else pure 0

/-- `certificate_present`. -/
def readCertificatePresent (value : Bytes) (declaredSize : Int) (optional optionalSize : Nat) :
    Reads Bool := do
  let magic ← readMagic value optional optionalSize
  let isPe32Plus : Bool := magic = 0x20b
  let directoryCountOffset := optional + if isPe32Plus then 108 else 92
  let directoryOffset := optional + if isPe32Plus then 112 else 96
  let minimumOptional := if isPe32Plus then 128 else 112
  if minimumOptional ≤ optionalSize ∧ directoryCountOffset + 4 ≤ value.length then
    let directoryCount ← readNumber 4 value directoryCountOffset
    let securityEntry := directoryOffset + 4 * 8
    if 4 < directoryCount ∧ securityEntry + 8 ≤ optional + optionalSize then
      let certificate ← readPair value securityEntry
      return decide (0 < certificate.1 ∧ 8 ≤ certificate.2 ∧
        (certificate.1 + certificate.2 : Nat) ≤ declaredSize)
    else return false
  else return false

/-- `name`. -/
def readSectionName (value : Bytes) (offset index : Nat) : Reads Str := do
  let field ← Reads.slice value offset (offset + 8)
  let rawName := field.takeWhile fun b => b ≠ 0
  let name := (decodeAscii rawName).take 16
  return if name = [] then str "section-" ++ Text.digits index else name

/-- The counts and the length whose ratios `_entropy` takes the logarithm of. -/
def logarithmArguments (sample : Bytes) : List (Nat × Nat) :=
  sample.dedup.map fun b => (sample.count b, sample.length)

/-- `_entropy(sample) >= 7.6`.  `math.log2` raises a `ValueError` outside of its domain. -/
def entropyAtLeast (ins : Inspectors) (sample : Bytes) : Reads Bool :=
  if ∀ ratio ∈ logarithmArguments sample, 0 < ratio.1 ∧ 0 < ratio.2 then
    pure (ins.highEntropy sample)
  else Reads.raise

/-- Whether the sample of a section counts as high entropy. -/
def readHigh (ins : Inspectors) (value : Bytes) (rawSize rawOffset : Nat) : Reads Bool := do
  if rawSize ≠ 0 ∧ rawOffset < value.length then
    let sample ← Reads.slice value rawOffset (min (rawOffset + rawSize) value.length)
    if 4096 ≤ sample.length then entropyAtLeast ins sample else return false
  else return false

/-- A turn of the loop over the sections. -/
def SectionNames.readTurn (ins : Inspectors) (value : Bytes) (sectionTable : Nat)
    (names : SectionNames) (index : Nat) : Reads SectionNames := do
  let offset := sectionTable + index * 40
  let name ← readSectionName value offset index
  let raw ← readPair value (offset + 16)
  let flags ← readNumber 4 value (offset + 36)
  let names := names.addWx name flags
  let high ← readHigh ins value raw.1 raw.2
  return if high then { names with highEntropy := names.highEntropy ++ [name] } else names

/-- What `inspect_pe` reports of a file whose header it has read. -/
def peReport (header : PeHeader) (certificate : Bool) (names : SectionNames) : List Observation :=
  [observation "pe" "metadata" .info "Portable Executable metadata inspected"
    [(str "machine", .text (hexWord header.machine)),
      (str "sections", .number header.sectionCount),
      (str "timestamp", .number header.timestamp),
      (str "characteristics", .text (hexWord header.characteristics)),
      (str "certificate_table_present", .flag certificate)]] ++
  (if names.wx = [] then [] else
    [observation "pe" "writable_executable_sections" .medium
      "PE contains writable and executable sections"
      [(str "sections", .text (joinNames names.wx))]]) ++
  (if names.highEntropy = [] then [] else
    [observation "pe" "high_entropy_sections" .low
      "PE contains high-entropy section data; packed or compressed content is possible"
      [(str "sections", .text (joinNames names.highEntropy))]])

/-- Whether the header lies outside of the buffer or does not have its signature. -/
def readMalformed (value : Bytes) (peOffset : Nat) : Reads Bool := do
  if value.length < peOffset + 24 then return true
  else
    let signature ← Reads.slice value peOffset (peOffset + 4)
    return signature ≠ bytes "PE" ++ [0, 0]

/-- The body of `inspect_pe` inside of `try`. -/
def readPeObservations (ins : Inspectors) (value : Bytes) (declaredSize : Int) :
    Reads (List Observation) := do
  let peOffset ← readNumber 4 value 0x3C
  let malformed ← readMalformed value peOffset
  if malformed then
    return [observation "pe" "malformed_pe" .medium "Malformed PE header" []]
  else
    let header ← PeHeader.read value (peOffset + 4)
    if header.sectionCount < 1 ∨ 96 < header.sectionCount then
      return [observation "pe" "malformed_pe" .medium
        "PE section count is outside the bounded policy"
        [(str "section_count", .number header.sectionCount)]]
    else
      let optional := peOffset + 24
      let sectionTable := optional + header.optionalSize
      if value.length < sectionTable + header.sectionCount * 40 then
        return [observation "pe" "analysis_limited" .info
          "PE metadata extends beyond the bounded inspection window" []]
      else
        let certificate ← readCertificatePresent value declaredSize optional header.optionalSize
        let names ← (List.range header.sectionCount).foldlM
          (SectionNames.readTurn ins value sectionTable) {}
        return peReport header certificate names

/-- `inspect_pe` without its handler. -/
def readPe (ins : Inspectors) (value : Bytes) (declaredSize : Int) : Reads (List Observation) :=
  if value.length < 64 then pure []
  else do
    let magic ← Reads.slice value 0 2
    if magic ≠ bytes "MZ" then return [] else readPeObservations ins value declaredSize

/-! ## Every read is inside the buffer -/

theorem readMagic_ensures {value : Bytes} {optional optionalSize : Nat}
    (h : optional + optionalSize ≤ value.length) :
    (readMagic value optional optionalSize).Ensures value.length fun magic =>
      (if 2 ≤ optionalSize then unpackFrom 2 value optional else some 0) = some magic := by
  unfold readMagic
  by_cases hsize : 2 ≤ optionalSize
  · simp only [if_pos hsize]
    exact readNumber_ensures (by omega)
  · simp only [if_neg hsize]
    exact Reads.Ensures.pure rfl

/-- What `certificate_present` is once the magic is known. -/
theorem certificatePresent_eq {value : Bytes} {declaredSize : Int} {optional optionalSize : Nat}
    {magic : Nat}
    (h : (if 2 ≤ optionalSize then unpackFrom 2 value optional else some 0) = some magic) :
    certificatePresent value declaredSize optional optionalSize =
      if (if magic = 0x20b then 128 else 112) ≤ optionalSize ∧
          (optional + if magic = 0x20b then 108 else 92) + 4 ≤ value.length then
        (unpackFrom 4 value (optional + if magic = 0x20b then 108 else 92)).bind
          fun directoryCount =>
            let securityEntry := (optional + if magic = 0x20b then 112 else 96) + 4 * 8
            if 4 < directoryCount ∧ securityEntry + 8 ≤ optional + optionalSize then
              (unpackFrom 4 value securityEntry).bind fun certificateOffset =>
                (unpackFrom 4 value (securityEntry + 4)).bind fun certificateSize =>
                  some (decide (0 < certificateOffset ∧ 8 ≤ certificateSize ∧
                    (certificateOffset + certificateSize : Nat) ≤ declaredSize))
            else some false
      else some false := by
  by_cases hsize : 2 ≤ optionalSize
  · rw [if_pos hsize] at h
    simp only [certificatePresent, if_pos hsize, h, Option.bind_eq_bind, Option.bind_some,
      decide_eq_true_eq, Option.pure_def]
  · rw [if_neg hsize] at h
    obtain rfl := Option.some.inj h
    simp only [certificatePresent, if_neg hsize, Option.bind_eq_bind, Option.bind_some,
      decide_eq_true_eq, Option.pure_def]

theorem readCertificatePresent_ensures {value : Bytes} {declaredSize : Int}
    {optional optionalSize : Nat} (h : optional + optionalSize ≤ value.length) :
    (readCertificatePresent value declaredSize optional optionalSize).Ensures value.length
      fun certificate =>
        certificatePresent value declaredSize optional optionalSize = some certificate := by
  refine (readMagic_ensures h).bind fun magic hmagic => ?_
  simp only [certificatePresent_eq hmagic, decide_eq_true_eq]
  -- The layout of the two formats plays no part: the guards are about the offsets.
  generalize optional + (if magic = 0x20b then 108 else 92) = directoryCountOffset
  generalize optional + (if magic = 0x20b then 112 else 96) = directoryOffset
  generalize (if magic = 0x20b then 128 else 112) = minimumOptional
  split
  · next hdirectory =>
      refine (readNumber_ensures hdirectory.2).bind fun directoryCount hcount => ?_
      simp only [hcount, Option.bind_some]
      split
      · next hentry =>
          refine (readPair_ensures (hentry.2.trans h)).bind fun certificate hpair => ?_
          refine Reads.Ensures.pure ?_
          simp only [hpair.1, hpair.2, Option.bind_some]
      · exact Reads.Ensures.pure rfl
  · exact Reads.Ensures.pure rfl

theorem readSectionName_ensures {value : Bytes} {offset : Nat} (index : Nat)
    (h : offset + 8 ≤ value.length) :
    (readSectionName value offset index).Ensures value.length fun name =>
      sectionName value offset index = name := by
  refine (Reads.Ensures.slice (Nat.le_add_right _ _) h).bind fun field hfield => ?_
  refine Reads.Ensures.pure ?_
  rw [hfield, Nat.add_sub_cancel_left]
  rfl

/-- Every byte of the sample occurs in it, so that no ratio is zero. -/
theorem entropyAtLeast_eq (ins : Inspectors) (sample : Bytes) :
    entropyAtLeast ins sample = pure (ins.highEntropy sample) := by
  refine if_pos fun ratio hratio => ?_
  obtain ⟨b, hb, rfl⟩ := List.mem_map.mp hratio
  have hmem : b ∈ sample := List.mem_dedup.mp hb
  exact ⟨List.count_pos_iff.mpr hmem, List.length_pos_of_mem hmem⟩

theorem readHigh_ensures (ins : Inspectors) (value : Bytes) (rawSize rawOffset : Nat) :
    (readHigh ins value rawSize rawOffset).Ensures value.length fun high =>
      high = true ↔ rawSize ≠ 0 ∧ rawOffset < value.length ∧
        4096 ≤ ((value.drop rawOffset).take rawSize).length ∧
        ins.highEntropy ((value.drop rawOffset).take rawSize) = true := by
  unfold readHigh
  by_cases hraw : rawSize ≠ 0 ∧ rawOffset < value.length
  · rw [if_pos hraw]
    refine (Reads.Ensures.slice (by omega) (Nat.min_le_right _ _)).bind fun sample heq => ?_
    have hcut : sample = (value.drop rawOffset).take rawSize := by
      rw [heq, List.take_eq_take_iff, List.length_drop]
      omega
    rw [← hcut, entropyAtLeast_eq]
    by_cases hlong : 4096 ≤ sample.length
    · rw [if_pos hlong]
      exact Reads.Ensures.pure (by simp only [hraw, hlong, true_and, ne_eq, not_false_eq_true])
    · rw [if_neg hlong]
      exact Reads.Ensures.pure (by simp only [hlong, false_and, and_false, Bool.false_eq_true])
  · rw [if_neg hraw]
    refine Reads.Ensures.pure ?_
    simp only [Bool.false_eq_true, false_iff]
    exact fun hall => hraw ⟨hall.1, hall.2.1⟩

theorem SectionNames.readTurn_ensures (ins : Inspectors) {value : Bytes} {sectionTable index : Nat}
    (names : SectionNames) (h : sectionTable + index * 40 + 40 ≤ value.length) :
    (names.readTurn ins value sectionTable index).Ensures value.length fun names' =>
      names.turn ins value sectionTable index = some names' := by
  refine (readSectionName_ensures index (by omega)).bind fun name hname => ?_
  refine (readPair_ensures (by omega)).bind fun raw hraw => ?_
  refine (readNumber_ensures (by omega)).bind fun flags hflags => ?_
  refine (readHigh_ensures ins value raw.1 raw.2).bind fun high hhigh => ?_
  rw [Nat.add_assoc _ 16 4] at hraw
  refine Reads.Ensures.pure ?_
  simp only [SectionNames.turn, hname, hraw.1, hraw.2, hflags, Option.bind_eq_bind,
    Option.bind_some]
  simp only [← hhigh]
  cases high <;> rfl

theorem readMalformed_ensures (value : Bytes) (peOffset : Nat) :
    (readMalformed value peOffset).Ensures value.length fun malformed =>
      malformed = true ↔ value.length < peOffset + 24 ∨
        (value.drop peOffset).take 4 ≠ bytes "PE" ++ [0, 0] := by
  unfold readMalformed
  by_cases hshort : value.length < peOffset + 24
  · rw [if_pos hshort]
    exact Reads.Ensures.pure (by simp only [hshort, true_or])
  · rw [if_neg hshort]
    refine (Reads.Ensures.slice (by omega) (by omega)).bind fun signature heq => ?_
    refine Reads.Ensures.pure ?_
    rw [heq, Nat.add_sub_cancel_left]
    simp only [hshort, false_or, decide_eq_true_eq]

theorem readPeObservations_ensures (ins : Inspectors) {value : Bytes} (declaredSize : Int)
    (h : 64 ≤ value.length) :
    (readPeObservations ins value declaredSize).Ensures value.length fun observations =>
      peObservations ins value declaredSize = some observations := by
  refine (readNumber_ensures (by omega)).bind fun peOffset hoffset => ?_
  refine (readMalformed_ensures value peOffset).bind fun malformed hmalformed => ?_
  simp only [peObservations, hoffset, Option.bind_eq_bind, Option.bind_some]
  simp only [← hmalformed]
  split
  · exact Reads.Ensures.pure rfl
  · next hwell =>
      rw [hmalformed, not_or, Nat.not_lt] at hwell
      refine (PeHeader.read_ensures (by omega)).bind fun header hheader => ?_
      simp only [hheader, Option.bind_some]
      split
      · exact Reads.Ensures.pure rfl
      · split
        · exact Reads.Ensures.pure rfl
        · next hsections =>
            refine (readCertificatePresent_ensures (by omega)).bind fun certificate hcert => ?_
            simp only [hcert, Option.bind_some]
            have hturn : ∀ index ∈ List.range header.sectionCount, ∀ names : SectionNames,
                (names.readTurn ins value (peOffset + 24 + header.optionalSize) index).Ensures
                  value.length fun names' =>
                    names.turn ins value (peOffset + 24 + header.optionalSize) index =
                      some names' := by
              intro index hindex names
              have hlt := List.mem_range.mp hindex
              exact names.readTurn_ensures ins (by omega)
            refine (Reads.Ensures.foldlM hturn {}).bind fun names hnames => ?_
            refine Reads.Ensures.pure ?_
            simp only [hnames, Option.bind_some]
            rfl

/-- Whatever the bytes and the declared size are: every `struct.unpack_from` and every slice of
`inspect_pe` lies in the buffer, nothing reaches its handler, and it returns what the model says. -/
theorem readPe_inRange (ins : Inspectors) (value : Bytes) (declaredSize : Int) :
    (readPe ins value declaredSize).Ensures value.length fun observations =>
      inspectPe ins value declaredSize = observations := by
  unfold readPe inspectPe
  by_cases hshort : value.length < 64
  · rw [if_pos hshort, if_pos (Or.inl hshort)]
    exact Reads.Ensures.pure rfl
  · rw [if_neg hshort]
    refine (Reads.Ensures.slice (by omega) (by omega)).bind fun magic heq => ?_
    simp only [hshort, false_or]
    rw [heq, List.drop_zero]
    split
    · exact Reads.Ensures.pure rfl
    · refine (readPeObservations_ensures ins declaredSize (by omega)).mono fun observations h => ?_
      rw [h, Option.getD_some]

end ZsecShield.Scan
