import ZsecShield.Feed.Rollback

/-!
# Inspecting what was installed

An installation writes the document again, with indentation and sorted keys.  The
inspection accepts what was written if it is within the size limit of a feed, and only
then (`valid_of_size`, `size_of_valid`).
-/

namespace ZsecShield.Feed

open Text (Str str)
open Effect
open Checks

/-- The size of the document as `install_feed` writes it. -/
def indentedSize (root : Json) : Nat := Text.utf8Size (Json.layout .pretty 0 root) + 1

/-- The inspection answers `valid` with the sequence, the digest and the rules of the feed. -/
def InspectsAs (rt : Runtime) (crypto : Crypto) (env : Util.Os) (stateDir keyringPath : Path)
    (current : DateTime) (m : Disk.Machine) (verified : VerifiedFeed) : Prop :=
  ∃ status rules m', inspectFeed rt crypto stateDir keyringPath current env m =
      (.ok (status, rules), m') ∧
    status.state = .valid ∧ status.sequence = some verified.sequence ∧
    status.payloadSha256 = some verified.payloadSha256 ∧ rules = verified.rules

section Installed

variable {rt : Runtime} {crypto : Crypto} {env env' : Util.Os} {stateDir keyringPath : Path}
  {current : DateTime} {raw : Bytes} {verified : VerifiedFeed} {m m' : Disk.Machine}
  {outcome : InstallOutcome} {root : Json}

theorem length_document {document : Bytes}
    (h : Util.encodeJson rt .pretty root = .ok document) :
    (document ++ [10]).length = indentedSize root := by
  rw [List.length_append, List.length_singleton,
    Text.length_encodeUtf8 (Util.encodeJson_eq_ok h), Json.text, Json.utf8Size_sortKeys]
  rfl

/-- The document is on the disk when both files are replaced. -/
theorem Installed.document {T : Path → Prop} {nodes : Disk.Nodes}
    (h : Installed rt stateDir T nodes verified current outcome m) (hT : T (feedDocumentPath stateDir)) :
    ∃ document, Util.encodeJson rt .pretty verified.document = .ok document ∧
      Disk.content m.nodes (feedDocumentPath stateDir) = some (document ++ [10]) := by
  obtain ⟨document, state, hadmits, mid, hdocument, hstate⟩ := h
  refine ⟨document, hadmits.document, ?_⟩
  rw [Disk.content, hstate.other hT (document_ne_state stateDir)]
  exact hdocument.content hT

/-- An installation that returned: the feed is verified with the keyring of the file, the
document stands written and the state names it. -/
theorem of_installFeed (h : Undisturbed env stateDir)
    (hkept : ∀ t n, env.others t n keyringPath = n keyringPath)
    (hrun : installFeed rt crypto raw stateDir keyringPath current env m =
      (.ok (outcome, verified), m')) :
    (∃ source keyring, parseKeyring rt source = .ok keyring ∧
      Disk.content m.nodes keyringPath = some source ∧ source.length ≤ maxKeyringBytes ∧
      verifyFeedDocument rt crypto raw keyring current = .ok verified) ∧
    (∃ document, Util.encodeJson rt .pretty verified.document = .ok document ∧
      Disk.content m'.nodes (feedDocumentPath stateDir) = some (document ++ [10])) ∧
    Committed rt stateDir m'.nodes (some (FeedState.commits verified current)) := by
  have hothers : ∀ t n, Disk.Same (fun p => p = keyringPath) n (env.others t n) := by
    intro t n p hp
    rw [hp]
    exact hkept t n
  obtain ⟨hfrom, hinstalled⟩ := (wp_installFeed h.watched hothers raw keyringPath m).of_ok hrun
  refine ⟨?_, hinstalled.document (.inl rfl), hinstalled.stateIn hfrom.valid (.inr rfl)⟩
  obtain ⟨source, keyring, hsource, hcontent, hverified⟩ := hfrom
  exact ⟨source, keyring, hsource, (hcontent rfl).1, (hcontent rfl).2, hverified⟩

/-- The document of a verified feed is the decoded one. -/
theorem document_eq {keyring : Keyring} (hroot : Util.strictJsonLoads rt raw = .ok root)
    (h : verifyFeedDocument rt crypto raw keyring current = .ok verified) :
    verifyRoot rt crypto root keyring current = .ok verified ∧ verified.document = root := by
  obtain ⟨_, -, hparsed⟩ := bind_eq_ok.1 h
  obtain ⟨root', hloads, hverified⟩ := bind_eq_ok.1 hparsed
  rw [hroot] at hloads
  cases hloads
  refine ⟨hverified, ?_⟩
  obtain ⟨_, -, _, _, _, -, _, _, _, _, -, rfl⟩ := verifyRoot_eq_ok.1 hverified
  rfl

/-- A valid answer has read a document within the limit. -/
theorem size_of_valid (h : Undisturbed env stateDir)
    (hkept : ∀ t n, env.others t n keyringPath = n keyringPath)
    (hrun : installFeed rt crypto raw stateDir keyringPath current env m =
      (.ok (outcome, verified), m'))
    (hroot : Util.strictJsonLoads rt raw = .ok root) (hcalm : Disk.Calm env') {tick : Nat}
    (hvalid : InspectsAs rt crypto env' stateDir keyringPath current ⟨m'.nodes, tick⟩ verified) :
    indentedSize root ≤ maxFeedBytes := by
  obtain ⟨⟨_, _, -, -, -, hverified⟩, ⟨document, hencode, hcontent⟩, -⟩ :=
    of_installFeed h hkept hrun
  rw [(document_eq hroot hverified).2] at hencode
  obtain ⟨status, rules, m'', hinspect, hstatus, -⟩ := hvalid
  have hothers : ∀ t n, Disk.Same (Stored stateDir) n (env'.others t n) := by
    intro t n p _
    rw [hcalm.alone]
  obtain ⟨_, hnamed, -⟩ := (wp_inspectFeed hothers (.inl rfl) (.inr rfl)
    ⟨m'.nodes, tick⟩).of_ok hinspect hstatus
  obtain ⟨raw', keyring', hraw', haccepted⟩ := hnamed.document
  rw [hcontent] at hraw'
  cases hraw'
  obtain ⟨_, hsize, -⟩ := bind_eq_ok.1 haccepted
  rw [require_eq_ok, length_document hencode] at hsize
  exact hsize

/-- A document within the limit is inspected as it was verified. -/
theorem valid_of_size (h : Undisturbed env stateDir)
    (hkept : ∀ t n, env.others t n keyringPath = n keyringPath)
    (hrun : installFeed rt crypto raw stateDir keyringPath current env m =
      (.ok (outcome, verified), m'))
    (hroot : Util.strictJsonLoads rt raw = .ok root) (hcalm : Disk.Calm env') {tick : Nat}
    (hkeyring : Disk.content m'.nodes keyringPath = Disk.content m.nodes keyringPath)
    (hsize : indentedSize root ≤ maxFeedBytes) :
    InspectsAs rt crypto env' stateDir keyringPath current ⟨m'.nodes, tick⟩ verified := by
  obtain ⟨⟨source, keyring, hsource, hsourceContent, hsourceSize, hverified⟩,
    ⟨document, hencode, hcontent⟩, hcommitted⟩ := of_installFeed h hkept hrun
  obtain ⟨haccepted, hdocument⟩ := document_eq hroot hverified
  rw [hdocument] at hencode
  have hdistinct := Util.distinct_of_strictJsonLoads hroot
  have hwritable := writable_of_verifyRoot (identified_of_parseKeyring hsource) hdistinct haccepted
  have hlength := length_document hencode
  have hloads := hwritable.strictJsonLoads Json.separates_pretty rfl hencode (.inr rfl)
  have hagain : verifyFeedDocument rt crypto (document ++ [10]) keyring current =
      .ok { verified with document := root.sortKeys } :=
    bind_eq_ok.2 ⟨(), require_eq_ok.2 (by rw [hlength]; exact hsize), bind_eq_ok.2
      ⟨_, hloads, verifyRoot_sortKeys hdistinct haccepted⟩⟩
  have hstore : Consistent rt crypto stateDir keyringPath current m'.nodes (document ++ [10])
      { verified with document := root.sortKeys } := by
    refine ⟨hcontent, by rw [hlength]; exact hsize, ?_, ⟨_, hcommitted, rfl, rfl⟩⟩
    exact ⟨source, keyring, hkeyring.trans hsourceContent, hsourceSize, hsource, hagain⟩
  obtain ⟨r, m'', hreturned, -, heq⟩ := (calm_inspectFeed (m := ⟨m'.nodes, tick⟩) hcalm hstore).returns
  subst heq
  exact ⟨_, _, m'', hreturned, rfl, rfl, rfl, rfl⟩

/-- **What installs inspects as it was verified exactly when the indented document is within
the limit.** -/
theorem installed_feed_inspects (h : Undisturbed env stateDir)
    (hkept : ∀ t n, env.others t n keyringPath = n keyringPath)
    (hrun : installFeed rt crypto raw stateDir keyringPath current env m =
      (.ok (outcome, verified), m'))
    (hroot : Util.strictJsonLoads rt raw = .ok root) (hcalm : Disk.Calm env') {tick : Nat}
    (hkeyring : Disk.content m'.nodes keyringPath = Disk.content m.nodes keyringPath) :
    InspectsAs rt crypto env' stateDir keyringPath current ⟨m'.nodes, tick⟩ verified ↔
      indentedSize root ≤ maxFeedBytes :=
  ⟨fun hvalid => size_of_valid h hkept hrun hroot hcalm hvalid,
    fun hsize => valid_of_size h hkept hrun hroot hcalm hkeyring hsize⟩

end Installed

/-! ### A feed that is inspected -/

open Sample in
instance document_small : Fact (indentedSize document.sortKeys ≤ maxFeedBytes) :=
  ⟨by decide +kernel⟩

open Sample in
theorem installed_feed_inspects_sample : ∃ outcome verified m,
    installFeed runtime crypto (bytes document) stateDir keyringPath current (env .done)
      ⟨nodes, 0⟩ = (.ok (outcome, verified), m) ∧
    InspectsAs runtime crypto (env .done) stateDir keyringPath current ⟨m.nodes, 0⟩ verified := by
  obtain ⟨verified, -, hverified⟩ := verified_document
  obtain ⟨outcome, m, hrun, hkeyring⟩ := installs hverified
  refine ⟨outcome, verified, m, hrun, ?_⟩
  have hroot := loads_bytes writable_document
  exact (installed_feed_inspects (undisturbed .done) (fun _ _ => rfl) hrun hroot calm hkeyring).2
    document_small.out

/-! ### A feed that is too large once it is indented -/

namespace Large

open Sample (runtime current keyring keyringPath stateDir nodes env)

def ruleId (i : Nat) : Str := str "r-" ++ Text.digits (1000 + i)

/-- A rule whose texts are close to their limits. -/
def ruleMembers (i : Nat) : List (Str × Json) :=
  [(str "id", .str (ruleId i)), (str "name", .str (str "n")), (str "kind", .str (str "sha256")),
    (str "severity", .str (str "low")),
    (str "description", .str (List.replicate 500 (Text.ofChar 'd'))),
    (str "source", .str (List.replicate 300 (Text.ofChar 's'))),
    (str "value", .str (List.replicate 64 (Text.ofChar '0')))]

def rules : List Json := (List.range 2048).map fun i => .obj (ruleMembers i)

def payload : List (Str × Json) :=
  [(str "schema", .str (str "zsec.shield.rules.v1")), (str "sequence", .int 8),
    (str "generated_at", .str (str "2026-01-01T00:00:00Z")),
    (str "expires_at", .str (str "2026-02-01T00:00:00Z")), (str "rules", .arr rules)]

def signature : Bytes := List.replicate 64 7

def document : List (Str × Json) :=
  [(str "schema", .str (str "zsec.shield.feed.v1")), (str "algorithm", .str (str "ed25519")),
    (str "key_id", .str (str "key-1")), (str "payload", .obj payload),
    (str "signature", .str (Base64.encode signature))]

/-- The key has signed the payload. -/
def crypto : Crypto where
  sha256 := fun _ => List.replicate 32 0
  length_sha256 := by simp
  ed25519 := fun key sig data => key = Sample.publicKey && sig = signature &&
    Util.canonicalJsonBytes runtime (.obj payload) = .ok data

/-! #### The rules are valid -/

theorem isDigit_isIdPoint {c : Text.CodePoint} (h : Text.isDigit c = true) : isIdPoint c = true := by
  simp [isIdPoint, h]

theorem length_digits {i : Nat} (h : i < 2048) : (Text.digits (1000 + i)).length = 4 := by
  have hle := (Text.length_digits_le_iff (n := 1000 + i) (k := 4) (by omega)).2 (by omega)
  have hlt := (Text.length_digits_le_iff (n := 1000 + i) (k := 3) (by omega)).not.2 (by omega)
  omega

theorem length_ruleId {i : Nat} (h : i < 2048) : (ruleId i).length = 6 := by
  rw [ruleId, List.length_append, length_digits h]
  rfl

theorem isRuleId_ruleId {i : Nat} (h : i < 2048) : isRuleId (ruleId i) = true := by
  have hlen := length_digits h
  have hhead : (isLower (Text.ofChar 'r') || Text.isDigit (Text.ofChar 'r')) = true := by decide
  have hdash : isIdPoint (Text.ofChar '-') = true := by decide
  have hall : (Text.digits (1000 + i)).all isIdPoint = true :=
    List.all_eq_true.2 fun c hc => isDigit_isIdPoint (Text.isDigit_of_mem_digits hc)
  change ((isLower (Text.ofChar 'r') || Text.isDigit (Text.ofChar 'r')) &&
    decide (2 ≤ (Text.ofChar '-' :: Text.digits (1000 + i)).length ∧
      (Text.ofChar '-' :: Text.digits (1000 + i)).length ≤ 127) &&
    (Text.ofChar '-' :: Text.digits (1000 + i)).all isIdPoint) = true
  rw [List.length_cons, hlen, hhead, List.all_cons, hdash, hall]
  rfl

theorem bounded_replicate (c : Text.CodePoint) (hc : 32 ≤ c.val) {n minimum maximum : Nat}
    (hmin : minimum ≤ n) (hmax : n ≤ maximum) : Bounded (List.replicate n c) minimum maximum := by
  refine ⟨by simp [hmin, hmax], ?_⟩
  intro x hx
  rw [List.eq_of_mem_replicate hx]
  exact .inl hc

theorem bounded_ruleId {i : Nat} (h : i < 2048) : Bounded (ruleId i) 3 128 := by
  refine ⟨by rw [length_ruleId h]; omega, ?_⟩
  intro c hc
  rcases List.mem_append.1 hc with hc | hc
  · have hall : ∀ x ∈ [Text.ofChar 'r', Text.ofChar '-'], 32 ≤ x.val := by simp; decide
    exact .inl (hall c hc)
  · have hdigit := Text.isDigit_of_mem_digits hc
    rw [Text.isDigit, Bool.and_eq_true, decide_eq_true_eq] at hdigit
    omega

instance digest_valid : Fact (isSha256 (lower (List.replicate 64 (Text.ofChar '0'))) = true) :=
  ⟨by decide +kernel⟩

/-- The rule that the record stands for. -/
def rule (i : Nat) : Rule :=
  ⟨ruleId i, str "n", .sha256, .low, List.replicate 500 (Text.ofChar 'd'),
    List.replicate 300 (Text.ofChar 's'), some (lower (List.replicate 64 (Text.ofChar '0'))), none⟩

theorem validateRule_ruleMembers {i : Nat} (h : i < 2048) (index : Nat) :
    validateRule (.obj (ruleMembers i)) index = .ok (rule i) := by
  have hprefix : ¬ (str "builtin:").isPrefixOf (ruleId i) = true := by
    intro hpre
    have hhead := (List.isPrefixOf_iff_prefix.1 hpre).head (by decide)
    have hne : Text.ofChar 'b' ≠ Text.ofChar 'r' := by decide
    exact hne hhead
  have hname : Bounded (str "n") 1 160 := bounded_of_all (by decide) (by decide)
  refine bind_eq_ok.2 ⟨ruleMembers i, rfl, bind_eq_ok.2
    ⟨(), expectExactKeys_eq_ok.2 (Json.keysAre_self (ruleMembers i)), ?_⟩⟩
  refine bind_eq_ok.2 ⟨_, boundedString_eq_ok.2 ⟨rfl, bounded_ruleId h⟩, ?_⟩
  refine bind_eq_ok.2 ⟨(), require_eq_ok.2 ⟨isRuleId_ruleId h, hprefix⟩, ?_⟩
  refine bind_eq_ok.2 ⟨_, boundedString_eq_ok.2 ⟨rfl, hname⟩, ?_⟩
  refine bind_eq_ok.2 ⟨_, boundedString_eq_ok.2 ⟨rfl, bounded_replicate _ (by decide) (n := 500)
    (by decide) (by decide)⟩, ?_⟩
  refine bind_eq_ok.2 ⟨_, boundedString_eq_ok.2 ⟨rfl, bounded_replicate _ (by decide) (n := 300)
    (by decide) (by decide)⟩, ?_⟩
  refine bind_eq_ok.2 ⟨true, rfl, bind_eq_ok.2 ⟨(), require_eq_ok.2 rfl, ?_⟩⟩
  refine bind_eq_ok.2 ⟨true, rfl, bind_eq_ok.2 ⟨(), require_eq_ok.2 rfl, ?_⟩⟩
  have hkind : isText (field (ruleMembers i) "kind") (str "sha256") = true := rfl
  rw [if_pos hkind]
  refine bind_eq_ok.2 ⟨_, boundedString_eq_ok.2 ⟨rfl, bounded_replicate _ (by decide) (n := 64)
    (by decide) (by decide)⟩, ?_⟩
  exact bind_eq_ok.2 ⟨(), require_eq_ok.2 digest_valid.out, rfl⟩

theorem nodup_rules : (((List.range 2048).map rule).map Rule.ruleId).Nodup := by
  rw [List.map_map]
  refine List.nodup_range.map ?_
  intro i j heq
  have hdigits : Text.digits (1000 + i) = Text.digits (1000 + j) := List.append_cancel_left heq
  have hnum := congrArg Text.ofDigits hdigits
  rw [Text.ofDigits_digits, Text.ofDigits_digits] at hnum
  omega

theorem verifyRules_payload : verifyRules payload = .ok ((List.range 2048).map rule) := by
  have hmap : ∀ (l : List Nat) (index : Nat), (∀ i ∈ l, i < 2048) →
      mapIdx validateRule index (l.map fun i => .obj (ruleMembers i)) = .ok (l.map rule) := by
    intro l
    induction l with
    | nil => exact fun _ _ => rfl
    | cons i l ih =>
        intro index hl
        have hi := validateRule_ruleMembers (hl i List.mem_cons_self) index
        have hrest := ih (index + 1) fun j hj => hl j (List.mem_cons_of_mem _ hj)
        exact bind_eq_ok.2 ⟨_, hi, bind_eq_ok.2 ⟨_, hrest, rfl⟩⟩
  simp only [verifyRules, bind_eq_ok, fromOption_eq_ok, require_eq_ok]
  refine ⟨rules, rfl, (), ?_, _, hmap _ 0 (by simp), (), nodup_rules, rfl⟩
  simp [rules, maxRules]

/-! #### The document is accepted -/

instance window_valid : Fact ((validityWindow payload current).isOk = true) := ⟨by decide +kernel⟩

instance key_trusted : Fact ((trustedKey keyring (str "key-1") current).map TrustedKey.publicKey =
    .ok Sample.publicKey) := ⟨by decide +kernel⟩

instance signature_encoded :
    Fact (decodeBase64 (field document "signature") (str "signature") (some 64) = .ok signature) :=
  ⟨by decide +kernel⟩

theorem distinct_rules : ∀ r ∈ rules, Json.Distinct r := by
  intro r hr
  obtain ⟨i, -, rfl⟩ := List.mem_map.1 hr
  refine .obj _ ?_ ?_
  · change ruleFields.Nodup
    decide
  · simp only [ruleMembers, List.forall_mem_cons]
    exact ⟨.str _, .str _, .str _, .str _, .str _, .str _, .str _, by simp⟩

theorem distinct_payload : Json.Distinct (.obj payload) := by
  refine .obj _ ?_ ?_
  · change payloadFields.Nodup
    decide
  · simp only [payload, List.forall_mem_cons]
    exact ⟨.str _, .int _, .str _, .str _, .arr _ distinct_rules, by simp⟩

theorem distinct_document : Json.Distinct (.obj document) := by
  refine .obj _ ?_ ?_
  · change envelopeFields.Nodup
    decide
  · simp only [document, List.forall_mem_cons]
    exact ⟨.str _, .str _, .str _, distinct_payload, .str _, by simp⟩

theorem verifyPayload_payload : ∃ window,
    verifyPayload runtime payload current = .ok (8, window, (List.range 2048).map rule) := by
  cases hwindow : validityWindow payload current with
  | error e =>
      have hok := window_valid.out
      rw [hwindow] at hok
      cases hok
  | ok window =>
      refine ⟨window, bind_eq_ok.2 ⟨(), expectExactKeys_eq_ok.2 (Json.keysAre_self payload), ?_⟩⟩
      have hschema : isText (field payload "schema") (str "zsec.shield.rules.v1") = true := rfl
      rw [if_pos hschema]
      have hsequence : sequenceOf (field payload "sequence") = .ok 8 := rfl
      exact bind_eq_ok.2 ⟨8, hsequence, bind_eq_ok.2 ⟨window, hwindow, bind_eq_ok.2
        ⟨_, verifyRules_payload, rfl⟩⟩⟩

theorem encodable_replicate (c : Text.CodePoint) (hc : ¬ Text.IsSurrogate c) (n : Nat) :
    Text.Encodable (List.replicate n c) := by
  intro x hx
  rw [List.eq_of_mem_replicate hx]
  exact hc

theorem strings_payload : Json.Strings Text.Encodable (.obj payload) := by
  have hrules : ∀ r ∈ rules, Json.Strings Text.Encodable r := by
    intro r hr
    obtain ⟨i, hi, rfl⟩ := List.mem_map.1 hr
    have hid := encodable_of_isRuleId (isRuleId_ruleId (List.mem_range.1 hi))
    refine .obj _ ?_ ?_
    · simp only [ruleMembers, List.forall_mem_cons, Text.encodable_str, true_and]
      simp
    · simp only [ruleMembers, List.forall_mem_cons]
      exact ⟨.str _ hid, .str _ (Text.encodable_str _), .str _ (Text.encodable_str _),
        .str _ (Text.encodable_str _), .str _ (encodable_replicate _ (by decide) _),
        .str _ (encodable_replicate _ (by decide) _), .str _ (encodable_replicate _ (by decide) _),
        by simp⟩
  refine .obj _ ?_ ?_
  · simp only [payload, List.forall_mem_cons, Text.encodable_str, true_and]
    simp
  · simp only [payload, List.forall_mem_cons]
    exact ⟨.str _ (Text.encodable_str _), .int _, .str _ (Text.encodable_str _),
      .str _ (Text.encodable_str _), .arr _ hrules, by simp⟩

theorem verifyRoot_document : ∃ verified,
    verifyRoot runtime crypto (.obj document) keyring current = .ok verified := by
  obtain ⟨window, hpayload⟩ := verifyPayload_payload
  have hflat := flat_of_verifyPayload distinct_payload hpayload
  have hwritable : Util.Writable runtime (.obj payload) :=
    ⟨hflat.1, hflat.2.trans (by decide), strings_payload⟩
  obtain ⟨canonical, hcanonical⟩ := hwritable.encodeJson (σ := .canonical) (Text.encodable_str _)
  cases htrusted : trustedKey keyring (str "key-1") current with
  | error e =>
      have hok := key_trusted.out
      rw [htrusted] at hok
      cases hok
  | ok trusted =>
      have hkey : trusted.publicKey = Sample.publicKey := by
        have hok := key_trusted.out
        rw [htrusted] at hok
        exact Except.ok.inj hok
      have hid : Bounded (str "key-1") 3 128 := bounded_of_all (by decide) (by decide)
      refine ⟨_, verifyRoot_eq_ok.2 ⟨document, rfl, str "key-1", payload, canonical,
        verifySignature_eq_ok.2 ⟨Json.keysAre_self document, ⟨rfl, rfl⟩, ⟨rfl, hid⟩, rfl,
          hcanonical, trusted, htrusted, signature, signature_encoded.out, ?_⟩, 8, window.1, window.2,
        _, hpayload, rfl⟩⟩
      have hsame : Util.canonicalJsonBytes runtime (.obj payload) = .ok canonical := hcanonical
      simp only [crypto, hkey, hsame, decide_true, Bool.and_self]

/-! #### Its size -/

theorem literal_replicate (c : Text.CodePoint) (hc : Json.Literal c) (n : Nat) :
    ∀ x ∈ List.replicate n c, Json.Literal x := by
  intro x hx
  rw [List.eq_of_mem_replicate hx]
  exact hc

theorem literal_ruleId (i : Nat) : ∀ c ∈ ruleId i, Json.Literal c := by
  intro c hc
  rcases List.mem_append.1 hc with hc | hc
  · have hall : (str "r-").all (fun c => decide (Json.Literal c)) = true := by decide
    exact of_decide_eq_true (List.all_eq_true.1 hall c hc)
  · have hdigit := Text.isDigit_of_mem_digits hc
    rw [Text.isDigit, Bool.and_eq_true, decide_eq_true_eq, decide_eq_true_eq] at hdigit
    refine ⟨by omega, by omega, ?_, ?_⟩
    · rintro rfl
      revert hdigit
      decide
    · rintro rfl
      revert hdigit
      decide

theorem literal_str {s : String} (h : (str s).all (fun c => decide (Json.Literal c)) = true) :
    ∀ c ∈ str s, Json.Literal c := fun c hc => of_decide_eq_true (List.all_eq_true.1 h c hc)

/-- The size of one rule. -/
theorem utf8Size_rule (σ : Json.Style) (level : Nat) {i : Nat} (h : i < 2048) :
    Text.utf8Size (Json.layout σ level (.obj (ruleMembers i))) =
      956 + 7 * Text.utf8Size σ.keySeparator + 7 * Json.breakSize σ (level + 1) +
        Json.breakSize σ level := by
  have hmember : ∀ (key : String) (s : Str),
      (str key).all (fun c => decide (Json.Literal c)) = true → (∀ c ∈ s, Json.Literal c) →
      Text.utf8Size (Json.layoutMember σ (level + 1) (str key, .str s)) =
        (str key).length + s.length + (Text.utf8Size σ.keySeparator + 4) :=
    fun key s hkey hs => Json.utf8Size_member_literal σ (level + 1) (literal_str hkey) hs
  rw [Json.utf8Size_obj]
  simp only [ruleMembers, List.map_cons, List.map_nil,
    hmember "id" _ (by decide) (literal_ruleId i),
    hmember "name" _ (by decide) (literal_str (s := "n") (by decide)),
    hmember "kind" _ (by decide) (literal_str (s := "sha256") (by decide)),
    hmember "severity" _ (by decide) (literal_str (s := "low") (by decide)),
    hmember "description" _ (by decide) (literal_replicate (Text.ofChar 'd') (by decide) 500),
    hmember "source" _ (by decide) (literal_replicate (Text.ofChar 's') (by decide) 300),
    hmember "value" _ (by decide) (literal_replicate (Text.ofChar '0') (by decide) 64), length_ruleId h,
    List.length_replicate, Json.blockSize, Json.itemsSize, List.sum_cons, List.sum_nil,
    List.cons_ne_nil, ↓reduceIte]
  have hlen : (str "id").length = 2 ∧ (str "name").length = 4 ∧ (str "kind").length = 4 ∧
      (str "severity").length = 8 ∧ (str "description").length = 11 ∧ (str "source").length = 6 ∧
      (str "value").length = 5 ∧ (str "n").length = 1 ∧ (str "sha256").length = 6 ∧
      (str "low").length = 3 := by decide
  omega

/-- The size of all rules. -/
theorem utf8Size_rules (σ : Json.Style) (level : Nat) :
    Text.utf8Size (Json.layout σ level (.arr rules)) =
      1 + 2048 * (956 + 7 * Text.utf8Size σ.keySeparator + 7 * Json.breakSize σ (level + 2) +
        2 * Json.breakSize σ (level + 1) + 1) + Json.breakSize σ level := by
  have hsizes : rules.map (fun e => Text.utf8Size (Json.layout σ (level + 1) e)) =
      List.replicate 2048 (956 + 7 * Text.utf8Size σ.keySeparator +
        7 * Json.breakSize σ (level + 2) + Json.breakSize σ (level + 1)) := by
    rw [List.eq_replicate_iff]
    refine ⟨by simp [rules], ?_⟩
    intro n hn
    obtain ⟨r, hr, rfl⟩ := List.mem_map.1 hn
    obtain ⟨i, hi, rfl⟩ := List.mem_map.1 hr
    exact utf8Size_rule σ (level + 1) (List.mem_range.1 hi)
  rw [Json.utf8Size_arr, hsizes, Json.blockSize, if_neg (by simp), Json.itemsSize,
    List.map_replicate, List.sum_replicate_nat]
  omega

instance signature_literal : Fact ((Base64.encode signature).length = 88 ∧
    (Base64.encode signature).all (fun c => decide (Json.Literal c)) = true) := ⟨by decide +kernel⟩

/-- The size of the payload, whose members stand at the second level. -/
theorem utf8Size_payload (σ : Json.Style) :
    Text.utf8Size (Json.layout σ 1 (.obj payload)) =
      2048 * (957 + 7 * Text.utf8Size σ.keySeparator + 7 * Json.breakSize σ 4 +
        2 * Json.breakSize σ 3) + 125 + 5 * Text.utf8Size σ.keySeparator +
        6 * Json.breakSize σ 2 + Json.breakSize σ 1 := by
  have hmember : ∀ (key s : String),
      (str key).all (fun c => decide (Json.Literal c)) = true →
      (str s).all (fun c => decide (Json.Literal c)) = true →
      Text.utf8Size (Json.layoutMember σ 2 (str key, .str (str s))) =
        (str key).length + (str s).length + (Text.utf8Size σ.keySeparator + 4) :=
    fun key s hkey hs => Json.utf8Size_member_literal σ 2 (literal_str hkey) (literal_str hs)
  have hrules : Text.utf8Size (Json.layoutMember σ 2 (str "rules", .arr rules)) =
      5 + 2 + Text.utf8Size σ.keySeparator + Text.utf8Size (Json.layout σ 2 (.arr rules)) :=
    Json.utf8Size_member σ 2 (literal_str (s := "rules") (by decide)) (.arr rules)
  have hsequence : Text.utf8Size (Json.layoutMember σ 2 (str "sequence", .int 8)) =
      8 + 2 + Text.utf8Size σ.keySeparator + 1 :=
    Json.utf8Size_member σ 2 (literal_str (s := "sequence") (by decide)) (.int 8)
  rw [Json.utf8Size_obj]
  simp only [payload, List.map_cons, List.map_nil, hmember "schema" "zsec.shield.rules.v1" (by decide) (by decide),
    hmember "generated_at" "2026-01-01T00:00:00Z" (by decide) (by decide),
    hmember "expires_at" "2026-02-01T00:00:00Z" (by decide) (by decide), hsequence, hrules,
    utf8Size_rules, Nat.reduceAdd, Json.blockSize, Json.itemsSize, List.sum_cons, List.sum_nil, List.cons_ne_nil, ↓reduceIte]
  have hlen : (str "schema").length = 6 ∧ (str "zsec.shield.rules.v1").length = 20 ∧
      (str "generated_at").length = 12 ∧ (str "2026-01-01T00:00:00Z").length = 20 ∧
      (str "expires_at").length = 10 ∧ (str "2026-02-01T00:00:00Z").length = 20 := by decide
  omega

/-- The size of the document. -/
theorem utf8Size_document (σ : Json.Style) :
    Text.utf8Size (Json.layout σ 0 (.obj document)) =
      2048 * (957 + 7 * Text.utf8Size σ.keySeparator + 7 * Json.breakSize σ 4 +
        2 * Json.breakSize σ 3) + 305 + 10 * Text.utf8Size σ.keySeparator +
        6 * Json.breakSize σ 2 + 6 * Json.breakSize σ 1 + Json.breakSize σ 0 := by
  have hmember : ∀ (key : String) (s : Str),
      (str key).all (fun c => decide (Json.Literal c)) = true → (∀ c ∈ s, Json.Literal c) →
      Text.utf8Size (Json.layoutMember σ 1 (str key, .str s)) =
        (str key).length + s.length + (Text.utf8Size σ.keySeparator + 4) :=
    fun key s hkey hs => Json.utf8Size_member_literal σ 1 (literal_str hkey) hs
  have hpayload : Text.utf8Size (Json.layoutMember σ 1 (str "payload", .obj payload)) =
      7 + 2 + Text.utf8Size σ.keySeparator + Text.utf8Size (Json.layout σ 1 (.obj payload)) :=
    Json.utf8Size_member σ 1 (literal_str (s := "payload") (by decide)) (.obj payload)
  have hsignature : ∀ c ∈ Base64.encode signature, Json.Literal c := fun c hc =>
    of_decide_eq_true (List.all_eq_true.1 signature_literal.out.2 c hc)
  rw [Json.utf8Size_obj]
  simp only [document, List.map_cons, List.map_nil,
    hmember "schema" _ (by decide) (literal_str (s := "zsec.shield.feed.v1") (by decide)),
    hmember "algorithm" _ (by decide) (literal_str (s := "ed25519") (by decide)),
    hmember "key_id" _ (by decide) (literal_str (s := "key-1") (by decide)),
    hmember "signature" _ (by decide) hsignature, hpayload, utf8Size_payload,
    Nat.reduceAdd, Json.blockSize, Json.itemsSize, List.sum_cons, List.sum_nil, List.cons_ne_nil, ↓reduceIte,
    signature_literal.out.1]
  have hlen : (str "schema").length = 6 ∧ (str "zsec.shield.feed.v1").length = 19 ∧
      (str "algorithm").length = 9 ∧ (str "ed25519").length = 7 ∧ (str "key_id").length = 6 ∧
      (str "key-1").length = 5 ∧ (str "signature").length = 9 := by decide
  omega

instance document_sizes :
    Fact (Text.utf8Size (Json.layout .canonical 0 (.obj document)) ≤ maxFeedBytes ∧
      maxFeedBytes < indentedSize (.obj document)) := by
  have hcanonical : Text.utf8Size Json.Style.canonical.keySeparator = 1 := rfl
  have hpretty : Text.utf8Size Json.Style.pretty.keySeparator = 2 := rfl
  have hlimit : maxFeedBytes = 2097152 := rfl
  constructor
  rw [indentedSize, utf8Size_document, utf8Size_document, hcanonical, hpretty, hlimit]
  simp only [Json.breakSize, Json.Style.canonical, Json.Style.pretty, Bool.false_eq_true,
    ↓reduceIte]
  omega

/-- The bytes that are sent: the document without indentation. -/
def bytes : Bytes := (Util.encodeJson runtime .canonical (.obj document)).toOption.getD []

/-- The document is accepted as it is sent. -/
theorem verified_bytes : ∃ verified, Util.strictJsonLoads runtime bytes =
      .ok (.obj document : Json).sortKeys ∧
    verifyFeedDocument runtime crypto bytes keyring current = .ok verified := by
  obtain ⟨verified, hroot⟩ := verifyRoot_document
  have hwritable := writable_of_verifyRoot (identified_of_parseKeyring Sample.parsed_keyring)
    distinct_document hroot
  obtain ⟨data, hdata⟩ := hwritable.encodeJson (σ := .canonical) (Text.encodable_str _)
  have hbytes : bytes = data := by
    rw [bytes, hdata]
    rfl
  have hloads := hwritable.strictJsonLoads Json.separates_canonical rfl hdata (.inl rfl)
  rw [List.append_nil] at hloads
  have hsize := document_sizes.out.1
  rw [← Json.utf8Size_sortKeys] at hsize
  have hlength : data.length ≤ maxFeedBytes := by
    rw [Text.length_encodeUtf8 (Util.encodeJson_eq_ok hdata)]
    exact hsize
  have hagain := verifyRoot_sortKeys distinct_document hroot
  rw [hbytes]
  exact ⟨_, hloads, bind_eq_ok.2 ⟨(), require_eq_ok.2 hlength, bind_eq_ok.2 ⟨_, hloads, hagain⟩⟩⟩

end Large

open Large in
/-- The feed of 2048 rules installs, and the inspection after it does not find it valid. -/
theorem installed_feed_too_large : ∃ outcome verified m,
    installFeed Sample.runtime crypto bytes Sample.stateDir Sample.keyringPath Sample.current
      (Sample.env .done) ⟨Sample.nodes, 0⟩ = (.ok (outcome, verified), m) ∧
    ¬ InspectsAs Sample.runtime crypto (Sample.env .done) Sample.stateDir Sample.keyringPath
      Sample.current ⟨m.nodes, 0⟩ verified := by
  obtain ⟨verified, hroot, hverified⟩ := verified_bytes
  obtain ⟨outcome, m, hrun, -⟩ := Sample.installs hverified
  refine ⟨outcome, verified, m, hrun, ?_⟩
  intro hvalid
  have hsize := size_of_valid (Sample.undisturbed .done) (fun _ _ => rfl) hrun hroot Sample.calm
    hvalid
  have hlarge := document_sizes.out.2
  rw [indentedSize, Json.utf8Size_sortKeys] at hsize
  rw [indentedSize] at hlarge
  omega

end ZsecShield.Feed
