import ZsecShield.Browser.LoginCompatibility

/-!
# Parity of the two login policies

Both policies are reduced to the parts of the two URLs.  The native one reads the page and the
request as secure URLs of bounded length and ignores a dot behind a host; the extension looks at
the host of the page alone, and its pattern wants a request host made of plain labels.
`login_compatibility_parity` says exactly on which pairs they agree.
-/

namespace ZsecShield.Browser

open Text (Str str CodePoint)
open Pattern

/-! ## Letters and names -/

theorem mem_letters {c : CodePoint} (h : c ∈ letters) :
    c.val = 0x2D ∨ 0x30 ≤ c.val ∧ c.val ≤ 0x39 ∨ 0x61 ≤ c.val ∧ c.val ≤ 0x7A := by
  obtain ⟨n, hn, rfl⟩ := List.mem_map.1 h
  simp only [List.mem_append, List.mem_range'_1, List.mem_singleton] at hn
  have hval : (Fin.ofNat 0x110000 n).val = n := Nat.mod_eq_of_lt (by omega)
  rw [hval]
  omega

theorem letters_of_val {c : CodePoint}
    (h : c.val = 0x2D ∨ 0x30 ≤ c.val ∧ c.val ≤ 0x39 ∨ 0x61 ≤ c.val ∧ c.val ≤ 0x7A) :
    c ∈ letters := by
  refine List.mem_map.2 ⟨c.val, ?_, Fin.ext (Nat.mod_eq_of_lt c.isLt)⟩
  simp only [List.mem_append, List.mem_range'_1, List.mem_singleton]
  omega

theorem dot_notMem_letters : dot ∉ letters := by
  intro h
  have := mem_letters h
  rw [val_dot] at this
  omega

/-- A name under which hosts are listed. -/
abbrev IsHostName (name : Str) : Prop := IsName letters dot name

/-- Every character of a name is a letter, a digit, a hyphen or a dot. -/
theorem IsHostName.val {name : Str} (h : IsHostName name) {c : CodePoint} (hc : c ∈ name) :
    c.val = 0x2D ∨ c.val = 0x2E ∨ 0x30 ≤ c.val ∧ c.val ≤ 0x39 ∨
      0x61 ≤ c.val ∧ c.val ≤ 0x7A := by
  rcases h.mem hc with hc | rfl
  · have := mem_letters hc
    omega
  · exact .inr (.inl rfl)

theorem IsHostName.printable {name : Str} (h : IsHostName name) : Printable name := by
  intro c hc
  have := h.val hc
  omega

theorem IsHostName.toLower {name : Str} (h : IsHostName name) : toLower name = name := by
  apply toLower_eq
  intro c hc
  have := h.val hc
  omega

theorem IsHostName.getLast_ne {name : Str} (h : IsHostName name) : name.getLast? ≠ some dot :=
  fun hlast => dot_notMem_letters (h.getLast hlast)

theorem IsHostName.notMem {name : Str} (h : IsHostName name) {c : CodePoint}
    (hc : c = slash ∨ c = colon ∨ c = atSign ∨ c = bracket) : c ∉ name := by
  intro hmem
  have := h.val hmem
  rcases hc with rfl | rfl | rfl | rfl
  · rw [val_slash] at this
    omega
  · rw [val_colon] at this
    omega
  · rw [val_atSign] at this
    omega
  · rw [val_bracket] at this
    omega

/-! ## The native side -/

theorem hostMatchesDomain_iff {host domain : Str} (hprintable : Printable host)
    (hlower : ∀ c ∈ host, ¬ (65 ≤ c.val ∧ c.val ≤ 90)) (hdomain : IsHostName domain) :
    hostMatchesDomain host domain = true ↔ Under dot (trimEndOf (· = dot) host) domain := by
  have hends {c : CodePoint} (hc : c ∈ letters) : decide (c = dot) = false := by
    apply decide_eq_false
    rintro rfl
    exact dot_notMem_letters hc
  have htrimmed : toLower (trimEndOf (· = dot) host) = trimEndOf (· = dot) host := by
    apply toLower_eq
    intro c hc
    rw [trimEndOf, List.mem_reverse] at hc
    exact hlower c (List.mem_reverse.1 (List.dropWhile_subset _ hc))
  have hsame : toLower (trimOf (· = dot) (trimOf isWhiteSpace domain)) = domain := by
    rw [trim_printable hdomain.printable, trimOf_eq (fun c hc => hends (hdomain.head hc))
      fun c hc => hends (hdomain.getLast hc), hdomain.toLower]
  rw [hostMatchesDomain, trim_printable hprintable, htrimmed, hsame, Under]
  split
  · rename_i hempty
    rw [List.length_eq_zero_iff, List.length_eq_zero_iff] at hempty
    rcases hempty with hempty | hempty
    · rw [hempty]
      simp [hdomain.ne_nil.symm]
    · exact absurd hempty hdomain.ne_nil
  · simp

/-- A URL the native policy takes: secure, without user information, and of bounded length. -/
def Url.Secure (u : Url) : Prop :=
  u.scheme = str "https" ∧ u.userInfo = [] ∧ u.port = 443 ∧
    length16 u.text ≤ maximumOriginInputLength

theorem isBlank_eq_false {s : Str} (h : Printable s) (hne : s ≠ []) : isBlank s = false := by
  obtain ⟨c, hc⟩ := List.exists_mem_of_ne_nil s hne
  rw [isBlank, ← Bool.not_eq_true, List.all_eq_true]
  intro hall
  have hblank := hall c hc
  rw [not_isWhiteSpace (h c hc)] at hblank
  cases hblank

theorem trySecureUri_text {tryCreate : Str → Option Url} {u v : Url} (h : u.Canonical)
    (hread : length16 u.text ≤ maximumOriginInputLength → tryCreate u.text = some u) :
    trySecureUri tryCreate u.text = some v ↔ u.Secure ∧ v = u := by
  have hprintable := Url.printable_text h
  have hblank : isBlank u.text = false := isBlank_eq_false hprintable (by simp [Url.text])
  have hcontrol : u.text.any isControl = false :=
    List.any_eq_false.2 fun c hc => by simp [not_isControl (hprintable c hc)]
  have htrim : decide (u.text ≠ trimOf isWhiteSpace u.text) = false := by
    simp [trim_printable hprintable]
  by_cases hlong : maximumOriginInputLength < length16 u.text
  · have hnot : ¬ u.Secure := fun hsecure => absurd hsecure.2.2.2 (Nat.not_le_of_lt hlong)
    simp [trySecureUri, tryNormalizeOrigin, hlong, hnot]
  · have hcreate := hread (Nat.le_of_not_lt hlong)
    have hshort : length16 u.text ≤ maximumOriginInputLength := Nat.le_of_not_lt hlong
    simp only [trySecureUri, tryNormalizeOrigin, hblank, hlong, htrim, hcontrol, hcreate,
      decide_false, Bool.or_self, Bool.false_eq_true, ↓reduceIte]
    by_cases hhttps : u.scheme = str "https"
    · obtain ⟨a, path, hauthority, hhost, -, -⟩ := h.secure hhttps
      have hhost : u.host ≠ [] := by simpa [Url.host, hauthority] using hhost
      rw [isBlank_eq_false h.printable.2.2.1 hhost]
      by_cases huser : u.userInfo = []
      · by_cases hport : u.port = 443
        · simp [Url.Secure, hhttps, huser, hport, hshort, eq_comm]
        · simp [Url.Secure, hhttps, huser, hport]
      · simp [Url.Secure, hhttps, huser]
    · simp [Url.Secure, hhttps]

/-- The pair is named by a group: a site of the page, and a host or a content network of the
request. -/
def Named (group : Group) (page request : Str) : Prop :=
  (∃ site ∈ group.sites, Under dot (trimEndOf (· = dot) page) site) ∧
    (request ∈ group.hosts ∨
      ∃ cdn ∈ group.cdnDomains, Under dot (trimEndOf (· = dot) request) cdn)

/-! ## The tables -/

/-- A name, as it is computed. -/
def nameCheck (s : Str) : Bool :=
  (s.splitOn dot).all fun label => !label.isEmpty && label.all fun c =>
    decide (c.val = 0x2D ∨ 0x30 ≤ c.val ∧ c.val ≤ 0x39 ∨ 0x61 ≤ c.val ∧ c.val ≤ 0x7A)

theorem isHostName_of_nameCheck {s : Str} (h : nameCheck s = true) : IsHostName s := by
  apply isName_of_splitOn
  intro label hlabel
  simp only [nameCheck, List.all_eq_true, Bool.and_eq_true, Bool.not_eq_true',
    List.isEmpty_eq_false_iff, decide_eq_true_eq] at h
  exact ⟨(h label hlabel).1, fun c hc => letters_of_val ((h label hlabel).2 c hc)⟩

/-- The domains of the sites that are left out. -/
def excluded : List Str := texts ["youtube.com", "youtube-nocookie.com"]

/-- Every entry of the tables is a name, and no site is part of one that is left out. -/
instance tables : Fact ((∀ g ∈ groups, ∀ s ∈ g.sites ++ g.hosts ++ g.cdnDomains ++ excluded,
    nameCheck s = true) ∧ ∀ g ∈ groups, ∀ s ∈ g.sites, ∀ y ∈ excluded,
      s.isSuffixOf y = false ∧ y.isSuffixOf s = false) :=
  ⟨by decide +kernel⟩

section Tables

variable {group : Group} {domain : Str}

theorem isHostName_of_mem (hgroup : group ∈ groups)
    (h : domain ∈ group.sites ++ group.hosts ++ group.cdnDomains ++ excluded) :
    IsHostName domain := isHostName_of_nameCheck (tables.out.1 group hgroup domain h)

theorem isHostName_site (hgroup : group ∈ groups) (h : domain ∈ group.sites) :
    IsHostName domain := isHostName_of_mem hgroup (by simp [h])

theorem isHostName_host (hgroup : group ∈ groups) (h : domain ∈ group.hosts) :
    IsHostName domain := isHostName_of_mem hgroup (by simp [h])

theorem isHostName_cdn (hgroup : group ∈ groups) (h : domain ∈ group.cdnDomains) :
    IsHostName domain := isHostName_of_mem hgroup (by simp [h])

theorem isHostName_excluded (hgroup : group ∈ groups) (h : domain ∈ excluded) :
    IsHostName domain := isHostName_of_mem hgroup (by simp [h])

/-- No host lies under a site and under a domain that is left out. -/
theorem not_under_excluded {host site : Str} (hgroup : group ∈ groups) (hsite : site ∈ group.sites)
    (h : Under dot host site) (hdomain : domain ∈ excluded) : ¬ Under dot host domain := by
  intro hunder
  have suffix {d : Str} (h : Under dot host d) : d <:+ host := by
    rcases h with rfl | h
    · exact List.suffix_rfl
    · exact (List.suffix_cons _ _).trans h
  obtain ⟨hleft, hright⟩ := tables.out.2 group hgroup site hsite domain hdomain
  rcases List.suffix_or_suffix_of_suffix (suffix h) (suffix hunder) with hs | hs
  · rw [List.isSuffixOf_iff_suffix.2 hs] at hleft
    cases hleft
  · rw [List.isSuffixOf_iff_suffix.2 hs] at hright
    cases hright

end Tables

theorem containsIgnoreCase_iff {values : List Str} {value : Str}
    (hvalues : ∀ v ∈ values, toLower v = v) (hvalue : toLower value = value) :
    containsIgnoreCase values value = true ↔ value ∈ values := by
  simp only [containsIgnoreCase, List.any_eq_true, decide_eq_true_eq, hvalue]
  constructor
  · rintro ⟨v, hv, heq⟩
    rw [← heq, hvalues v hv]
    exact hv
  · intro hmem
    exact ⟨value, hmem, hvalue⟩

/-- The native policy, in terms of the parts of the URLs. -/
theorem isFunctionalResource_iff {tryCreate : Str → Option Url} {top request : Url}
    (htop : top.Canonical) (hrequest : request.Canonical)
    (hreadTop : length16 top.text ≤ maximumOriginInputLength → tryCreate top.text = some top)
    (hreadRequest : length16 request.text ≤ maximumOriginInputLength →
      tryCreate request.text = some request) :
    isFunctionalResource tryCreate top.text request.text = true ↔
      top.Secure ∧ request.Secure ∧ ∃ group ∈ groups, Named group top.host request.host := by
  have onTop {d : Str} (hd : IsHostName d) : hostMatchesDomain top.host d = true ↔
      Under dot (trimEndOf (· = dot) top.host) d :=
    hostMatchesDomain_iff htop.printable.2.2.1 htop.host.2.2 hd
  have onRequest {d : Str} (hd : IsHostName d) : hostMatchesDomain request.host d = true ↔
      Under dot (trimEndOf (· = dot) request.host) d :=
    hostMatchesDomain_iff hrequest.printable.2.2.1 hrequest.host.2.2 hd
  have hnamed : ∀ group ∈ groups, ((group.sites.any (hostMatchesDomain top.host) &&
      (containsIgnoreCase group.hosts request.host ||
        group.cdnDomains.any (hostMatchesDomain request.host))) = true ↔
      Named group top.host request.host) := by
    intro group hgroup
    rw [Bool.and_eq_true, Bool.or_eq_true, containsIgnoreCase_iff
      (fun v hv => (isHostName_host hgroup hv).toLower) (toLower_eq hrequest.host.2.2), Named]
    simp only [List.any_eq_true]
    refine and_congr ?_ (or_congr_right ?_)
    · exact exists_congr fun site => and_congr_right fun hs => onTop (isHostName_site hgroup hs)
    · exact exists_congr fun cdn => and_congr_right fun hs => onRequest (isHostName_cdn hgroup hs)
  have hyoutube : ∀ group ∈ groups, Named group top.host request.host →
      isYoutubeSite top.host = false := by
    rintro group hgroup ⟨⟨site, hsite, hunder⟩, -⟩
    have hnot {d : Str} (hd : d ∈ excluded) : hostMatchesDomain top.host d = false := by
      rw [← Bool.not_eq_true, onTop (isHostName_excluded hgroup hd)]
      exact not_under_excluded hgroup hsite hunder hd
    rw [isYoutubeSite, hnot (by simp [excluded, texts]), hnot (by simp [excluded, texts]),
      Bool.or_self]
  have none_of {u : Url} (hu : u.Canonical) (hread : length16 u.text ≤ maximumOriginInputLength →
      tryCreate u.text = some u) (hnot : ¬ u.Secure) : trySecureUri tryCreate u.text = none :=
    Option.eq_none_iff_forall_ne_some.2 fun v hv => hnot ((trySecureUri_text hu hread).1 hv).1
  rw [isFunctionalResource]
  by_cases hsecureTop : top.Secure
  · rw [(trySecureUri_text htop hreadTop).2 ⟨hsecureTop, rfl⟩]
    by_cases hsecure : request.Secure
    · rw [(trySecureUri_text hrequest hreadRequest).2 ⟨hsecure, rfl⟩]
      simp only [hsecureTop, hsecure, true_and, Bool.and_eq_true, Bool.not_eq_true',
        List.any_eq_true]
      constructor
      · rintro ⟨-, group, hgroup, hmatch⟩
        exact ⟨group, hgroup, (hnamed group hgroup).1 (by simpa using hmatch)⟩
      · rintro ⟨group, hgroup, hmatch⟩
        exact ⟨hyoutube group hgroup hmatch, group, hgroup, by
          simpa using (hnamed group hgroup).2 hmatch⟩
    · rw [none_of hrequest hreadRequest hsecure]
      simp [hsecure]
  · rw [none_of htop hreadTop hsecureTop]
    simp [hsecureTop]

/-! ## The side of the extension -/

theorem str_scheme : str "https://" = str "https" ++ [colon, slash, slash] := rfl

theorem str_port : str ":443" = colon :: str "443" := rfl

theorem notMem_port {c : CodePoint} (hc : c = slash ∨ c = atSign ∨ c = bracket) :
    c ∉ str ":443" := by
  rcases hc with rfl | rfl | rfl <;> decide

/-- An authority that reads as a name, with or without the port, is that name alone. -/
theorem authority_text_eq {a : Authority} {w : Str} (hw : IsHostName w)
    (haddress : colon ∈ a.host → bracket ∈ a.host) (hport : a.explicitPort ≠ some 443) :
    (a.text = w ∨ a.text = w ++ str ":443") ↔
      a.userInfo = [] ∧ a.explicitPort = none ∧ a.host = w := by
  obtain ⟨userInfo, host, explicitPort⟩ := a
  constructor
  · intro h
    -- What the authority holds stands in the name or in the port.
    have hmem {c : CodePoint} (hc : c = slash ∨ c = atSign ∨ c = bracket) :
        c ∉ (⟨userInfo, host, explicitPort⟩ : Authority).text := by
      have hname : c ∉ w := hw.notMem (by
        rcases hc with rfl | rfl | rfl
        · exact .inl rfl
        · exact .inr (.inr (.inl rfl))
        · exact .inr (.inr (.inr rfl)))
      rcases h with h | h
      · rw [h]
        exact hname
      · rw [h, List.mem_append, not_or]
        exact ⟨hname, notMem_port hc⟩
    have huser : userInfo = [] := by
      by_contra hne
      exact hmem (.inr (.inl rfl)) (by simp [Authority.text, hne])
    have hcolon : colon ∉ host := fun hcolon =>
      hmem (.inr (.inr rfl)) (by simp [Authority.text, haddress hcolon])
    have hname : colon ∉ w := hw.notMem (.inr (.inl rfl))
    cases explicitPort with
    | none =>
        rcases h with h | h
        · exact ⟨huser, rfl, by simpa [Authority.text, huser] using h⟩
        · have h : host = w ++ str ":443" := by simpa [Authority.text, huser] using h
          rw [h, str_port] at hcolon
          exact absurd (by simp) hcolon
    | some n =>
        rcases h with h | h
        · have h : host ++ colon :: Text.digits n = w := by simpa [Authority.text, huser] using h
          rw [← h] at hname
          exact absurd (by simp) hname
        · have h : host ++ colon :: Text.digits n = w ++ colon :: str "443" := by
            simpa [Authority.text, huser, str_port] using h
          have hdigits := congrArg Text.ofDigits ((append_cons_inj hcolon hname).1 h).2
          rw [Text.ofDigits_digits, show Text.ofDigits (str "443") = 443 by decide] at hdigits
          exact absurd (congrArg some hdigits) hport
  · rintro ⟨rfl, rfl, rfl⟩
    exact .inl (by simp [Authority.text])

theorem slash_notMem_authority {a : Authority} (huser : slash ∉ a.userInfo) (hhost : slash ∉ a.host) :
    slash ∉ a.text := by
  have hdigits (n : Nat) : slash ∉ Text.digits n := by
    intro h
    have h := Text.isDigit_of_mem_digits h
    simp [Text.isDigit, val_slash] at h
  rw [Authority.text, List.mem_append, List.mem_append, not_or, not_or]
  refine ⟨⟨?_, hhost⟩, ?_⟩
  · split
    · exact List.not_mem_nil
    · simp [huser, show slash ≠ atSign by decide]
  · cases a.explicitPort with
    | none => exact List.not_mem_nil
    | some n => simp [hdigits n, show slash ≠ colon by decide]

/-- A pattern for secure URLs finds its names in the host alone. -/
theorem matchesStart_httpsPattern {P : RegularExpression CodePoint} {u : Url} (h : u.Canonical)
    (hP : ∀ w ∈ P.matches', IsHostName w) :
    matchesStart (httpsPattern P) u.text = true ↔
      u.scheme = str "https" ∧ u.userInfo = [] ∧ u.port = 443 ∧ u.host ∈ P.matches' := by
  have hport : colon ∉ str "https" := by decide
  by_cases hhttps : u.scheme = str "https"
  · obtain ⟨a, path, hauthority, -, hexplicit, hrest⟩ := h.secure hhttps
    have huser : slash ∉ a.userInfo := by simpa [Url.userInfo, hauthority] using h.userInfo
    have hhost : slash ∉ a.host := by simpa [Url.host, hauthority] using h.host.1
    have haddress : colon ∈ a.host → bracket ∈ a.host := by
      simpa [Url.host, hauthority] using h.address
    have htext : u.text = str "https://" ++ a.text ++ slash :: path := by
      rw [Url.text, hauthority, hhttps, hrest, str_scheme]
      simp
    have hdelimited : ∀ w ∈ (P * optional (literal (str ":443"))).matches', slash ∉ w := by
      intro w hw
      obtain ⟨x, hx, y, hy, rfl⟩ := mem_mul.1 hw
      rw [List.mem_append, not_or]
      refine ⟨(hP x hx).notMem (.inl rfl), ?_⟩
      rcases mem_optional.1 hy with rfl | hy
      · exact List.not_mem_nil
      · rw [mem_literal.1 hy]
        exact notMem_port (.inl rfl)
    have hparts : a.text ∈ (P * optional (literal (str ":443"))).matches' ↔
        ∃ w ∈ P.matches', a.text = w ∨ a.text = w ++ str ":443" := by
      rw [mem_mul]
      refine exists_congr fun w => and_congr_right fun hw => ?_
      constructor
      · rintro ⟨y, hy, heq⟩
        rcases mem_optional.1 hy with rfl | hy
        · exact .inl (by rw [← heq, List.append_nil])
        · exact .inr (by rw [← heq, mem_literal.1 hy])
      · rintro (heq | heq)
        · exact ⟨[], mem_optional.2 (.inl rfl), by rw [heq, List.append_nil]⟩
        · exact ⟨_, mem_optional.2 (.inr (mem_literal.2 rfl)), heq.symm⟩
    have hnumber : u.port = 443 ↔ a.explicitPort = none := by
      rw [Url.port, hauthority, Option.bind_some]
      cases hn : a.explicitPort with
      | none => simp [Url.defaultPort, hhttps]
      | some n =>
          rw [hn] at hexplicit
          simp only [reduceCtorEq, iff_false]
          intro heq
          exact hexplicit (congrArg some (Int.ofNat.inj heq))
    rw [htext, httpsPattern, matchesStart_delimited hdelimited (slash_notMem_authority huser hhost),
      hparts, hnumber]
    have huserInfo : u.userInfo = a.userInfo := by simp [Url.userInfo, hauthority]
    have hhostName : u.host = a.host := by simp [Url.host, hauthority]
    rw [huserInfo, hhostName]
    constructor
    · rintro ⟨w, hw, heq⟩
      obtain ⟨hempty, hnone, rfl⟩ := (authority_text_eq (hP w hw) haddress hexplicit).1 heq
      exact ⟨hhttps, hempty, hnone, hw⟩
    · rintro ⟨-, hempty, hnone, hw⟩
      exact ⟨a.host, hw, (authority_text_eq (hP _ hw) haddress hexplicit).2 ⟨hempty, hnone, rfl⟩⟩
  · simp only [hhttps, false_and, iff_false]
    intro hmatch
    obtain ⟨w, hw, rest, htext⟩ := matchesStart_iff.1 hmatch
    obtain ⟨x, hx, y, -, rfl⟩ := mem_mul.1 hw
    rw [mem_literal.1 hx, str_scheme, Url.text, List.append_assoc, List.append_assoc,
      List.cons_append] at htext
    exact hhttps ((append_cons_inj h.scheme hport).1 htext).1

/-- A host without a dot at its end. -/
def Dotless (host : Str) : Prop := host.getLast? ≠ some dot

theorem trimEndOf_dotless {host : Str} (h : Dotless host) : trimEndOf (· = dot) host = host := by
  apply trimEndOf_eq
  intro c hc
  apply decide_eq_false
  rintro rfl
  exact h hc

theorem under_iff {host domain : Str} (hdomain : IsHostName domain) :
    Under dot host domain ↔ Under dot (trimEndOf (· = dot) host) domain ∧ Dotless host := by
  constructor
  · intro h
    have hlast : host.getLast? = domain.getLast? := by
      rcases h with rfl | ⟨front, rfl⟩
      · rfl
      · rw [List.getLast?_append_of_ne_nil _ (by simp), List.getLast?_cons_of_ne_nil hdomain.ne_nil]
    have hdotless : Dotless host := by
      rw [Dotless, hlast]
      exact hdomain.getLast_ne
    rw [trimEndOf_dotless hdotless]
    exact ⟨h, hdotless⟩
  · rintro ⟨h, hdotless⟩
    rwa [trimEndOf_dotless hdotless] at h

theorem domainMatches_iff {host domain : Str} :
    domainMatches host domain = true ↔ Under dot host domain := by
  simp [domainMatches, Under]

theorem tables_agree : loginCompatibilityGroups = groups := rfl

/-- A request in the form the patterns ask for. -/
def Plain (request : Url) : Prop :=
  request.scheme = str "https" ∧ request.userInfo = [] ∧ request.port = 443

section Rules

variable {group : Group} {top request : Url} {type : ResourceType}

/-- The page of a group whose rules are met. -/
theorem initiator_iff (hgroup : group ∈ groups) :
    (group.sites.any (domainMatches top.host) = true ∧
      (!excludedInitiators.any (domainMatches top.host)) = true) ↔
    (∃ site ∈ group.sites, Under dot (trimEndOf (· = dot) top.host) site) ∧ Dotless top.host := by
  simp only [List.any_eq_true, domainMatches_iff, Bool.not_eq_true', List.any_eq_false]
  constructor
  · rintro ⟨⟨site, hsite, hunder⟩, -⟩
    have h := (under_iff (isHostName_site hgroup hsite)).1 hunder
    exact ⟨⟨site, hsite, h.1⟩, h.2⟩
  · rintro ⟨⟨site, hsite, hunder⟩, hdotless⟩
    have h := (under_iff (isHostName_site hgroup hsite)).2 ⟨hunder, hdotless⟩
    exact ⟨⟨site, hsite, h⟩, fun d hd => not_under_excluded hgroup hsite h hd⟩

theorem hostCondition_isMet {host : Str} (hgroup : group ∈ groups) (hhost : host ∈ group.hosts)
    (hrequest : request.Canonical) (htype : type ∈ resourceTypes) :
    (hostCondition group host).isMet top request type = true ↔
      (Plain request ∧ request.host = host) ∧
        (∃ site ∈ group.sites, Under dot (trimEndOf (· = dot) top.host) site) ∧
          Dotless top.host := by
  have hP : ∀ w ∈ (literal host).matches', IsHostName w := by
    intro w hw
    rw [mem_literal.1 hw]
    exact isHostName_host hgroup hhost
  rw [← initiator_iff hgroup, Condition.isMet]
  simp only [hostCondition, exactHttpsHostPattern, htype, decide_true, Bool.true_and, Option.all_none,
    Bool.and_true, Option.all_some, Bool.and_eq_true, matchesStart_httpsPattern hrequest hP,
    mem_literal, Plain, and_assoc]

theorem cdnCondition_isMet (hgroup : group ∈ groups) (hrequest : request.Canonical)
    (htype : type ∈ resourceTypes) :
    (cdnCondition group).isMet top request type = true ↔
      (Plain request ∧ IsHostName request.host ∧
        ∃ cdn ∈ group.cdnDomains, Under dot request.host cdn) ∧
        (∃ site ∈ group.sites, Under dot (trimEndOf (· = dot) top.host) site) ∧
          Dotless top.host := by
  have hdomains : ∀ d ∈ group.cdnDomains, IsHostName d := fun d hd => isHostName_cdn hgroup hd
  have hP : ∀ w ∈ (labels letters dot * choice group.cdnDomains).matches', IsHostName w :=
    fun w hw => ((mem_labels_iff dot_notMem_letters hdomains).1 hw).1
  rw [← initiator_iff hgroup, Condition.isMet]
  simp only [cdnCondition, secureCdnHostPattern, htype, decide_true, Bool.true_and, Option.all_some,
    Bool.and_eq_true, matchesStart_httpsPattern hrequest hP, mem_labels_iff dot_notMem_letters hdomains,
    Plain, List.any_eq_true, domainMatches_iff]
  tauto

theorem mem_rules {condition : Condition} :
    (∃ rule ∈ buildLoginCompatibilityRules true, rule.condition = condition) ↔
      condition ∈ navigableHosts.map navigationCondition ++ groups.flatMap groupConditions := by
  rw [buildLoginCompatibilityRules, if_neg (by decide), tables_agree]
  constructor
  · rintro ⟨rule, hrule, rfl⟩
    obtain ⟨i, hi, rfl⟩ := List.mem_mapIdx.1 hrule
    exact List.getElem_mem hi
  · intro hmem
    obtain ⟨i, hi, rfl⟩ := List.getElem_of_mem hmem
    exact ⟨_, List.mem_mapIdx.2 ⟨i, hi, rfl⟩, rfl⟩

/-- A request both policies may speak about: a group names it together with the page. -/
def Covered (top request : Url) : Prop :=
  Plain request ∧ ∃ group ∈ groups, Named group top.host request.host

/-- The rules of the extension, in terms of the parts of the URLs. -/
theorem rules_iff (hrequest : request.Canonical) (htype : type ∈ resourceTypes) :
    (∃ rule ∈ buildLoginCompatibilityRules true,
      .mainFrame ∉ rule.condition.resourceTypes ∧ rule.condition.isMet top request type = true) ↔
    Covered top request ∧ Dotless top.host ∧ IsHostName request.host := by
  constructor
  · rintro ⟨rule, hrule, hmain, hmet⟩
    have hcondition := mem_rules.1 ⟨rule, hrule, rfl⟩
    rcases List.mem_append.1 hcondition with hnavigation | hgroups
    · obtain ⟨host, -, heq⟩ := List.mem_map.1 hnavigation
      rw [← heq] at hmain
      exact absurd List.mem_cons_self hmain
    · obtain ⟨group, hgroup, hmem⟩ := List.mem_flatMap.1 hgroups
      rcases List.mem_append.1 hmem with hhosts | hcdn
      · obtain ⟨host, hhost, heq⟩ := List.mem_map.1 hhosts
        rw [← heq, hostCondition_isMet hgroup hhost hrequest htype] at hmet
        obtain ⟨⟨hplain, rfl⟩, hsite, hdotless⟩ := hmet
        exact ⟨⟨hplain, group, hgroup, hsite, .inl hhost⟩, hdotless, isHostName_host hgroup hhost⟩
      · split at hcdn
        · cases hcdn
        · rw [List.mem_singleton.1 hcdn, cdnCondition_isMet hgroup hrequest htype] at hmet
          obtain ⟨⟨hplain, hname, cdn, hmem, hunder⟩, hsite, hdotless⟩ := hmet
          have hunder := ((under_iff (isHostName_cdn hgroup hmem)).1 hunder).1
          exact ⟨⟨hplain, group, hgroup, hsite, .inr ⟨cdn, hmem, hunder⟩⟩, hdotless, hname⟩
  · rintro ⟨⟨hplain, group, hgroup, hsite, hnamed⟩, hdotless, hname⟩
    have give {condition : Condition} (hmem : condition ∈ groupConditions group)
        (hmain : .mainFrame ∉ condition.resourceTypes)
        (hmet : condition.isMet top request type = true) :
        ∃ rule ∈ buildLoginCompatibilityRules true, .mainFrame ∉ rule.condition.resourceTypes ∧
          rule.condition.isMet top request type = true := by
      obtain ⟨rule, hrule, rfl⟩ := mem_rules.2
        (List.mem_append_right _ (List.mem_flatMap.2 ⟨group, hgroup, hmem⟩))
      exact ⟨rule, hrule, hmain, hmet⟩
    have hmain : ResourceType.mainFrame ∉ resourceTypes := by decide
    rcases hnamed with hhost | ⟨cdn, hcdn, hunder⟩
    · exact give (List.mem_append_left _ (List.mem_map_of_mem hhost)) hmain
        ((hostCondition_isMet hgroup hhost hrequest htype).2 ⟨⟨hplain, rfl⟩, hsite, hdotless⟩)
    · have hne : group.cdnDomains ≠ [] := List.ne_nil_of_mem hcdn
      rw [trimEndOf_dotless hname.getLast_ne] at hunder
      refine give (List.mem_append_right _ ?_) hmain
        ((cdnCondition_isMet hgroup hrequest htype).2
          ⟨⟨hplain, hname, cdn, hcdn, hunder⟩, hsite, hdotless⟩)
      rw [if_neg hne]
      exact List.mem_cons_self

end Rules

/-! ## Parity -/

theorem functional_iff_covered {tryCreate : Str → Option Url} {top request : Url}
    (htop : top.Canonical) (hrequest : request.Canonical)
    (hreadTop : length16 top.text ≤ maximumOriginInputLength → tryCreate top.text = some top)
    (hreadRequest : length16 request.text ≤ maximumOriginInputLength →
      tryCreate request.text = some request) :
    isFunctionalResource tryCreate top.text request.text = true ↔
      Covered top request ∧ top.Secure ∧ length16 request.text ≤ maximumOriginInputLength := by
  rw [isFunctionalResource_iff htop hrequest hreadTop hreadRequest]
  simp only [Covered, Plain, Url.Secure]
  tauto

/-- The two policies agree on a pair of URLs exactly if no group names the pair, or both
policies take it: the native one a secure page and a request of bounded length, the extension a
page without a dot behind its host and a request host made of plain labels. -/
theorem login_compatibility_parity {tryCreate : Str → Option Url} {top request : Url}
    {type : ResourceType} (htop : top.Canonical) (hrequest : request.Canonical)
    (hreadTop : length16 top.text ≤ maximumOriginInputLength → tryCreate top.text = some top)
    (hreadRequest : length16 request.text ≤ maximumOriginInputLength →
      tryCreate request.text = some request) (htype : type ∈ resourceTypes) :
    (isFunctionalResource tryCreate top.text request.text = true ↔
      ∃ rule ∈ buildLoginCompatibilityRules true, .mainFrame ∉ rule.condition.resourceTypes ∧
        rule.condition.isMet top request type = true) ↔
    (Covered top request →
      (top.Secure ∧ length16 request.text ≤ maximumOriginInputLength ↔
        Dotless top.host ∧ IsHostName request.host)) := by
  rw [functional_iff_covered htop hrequest hreadTop hreadRequest, rules_iff hrequest htype,
    and_congr_right_iff]

/-- A URL without port and user information, of a host and its root. -/
def rootUrl (scheme host : String) : Url where
  scheme := str scheme
  authority := some ⟨[], str host, none⟩
  rest := [slash]

/-- A parser that knows two URLs. -/
def reads (first second : Url) (candidate : Str) : Option Url :=
  if candidate = first.text then some first
  else if candidate = second.text then some second
  else none

theorem reads_second {first second : Url} (h : first.text ≠ second.text) :
    reads first second second.text = some second := by
  rw [reads, if_neg h.symm, if_pos rfl]

theorem canonical_rootUrl {scheme host : String} (hname : IsHostName (str host))
    (hscheme : Printable (str scheme) ∧ colon ∉ str scheme) :
    (rootUrl scheme host).Canonical where
  printable := ⟨hscheme.1, by simp [Url.userInfo, rootUrl, Printable], hname.printable, by
    simp [rootUrl, Printable, val_slash]⟩
  scheme := hscheme.2
  userInfo := by simp [Url.userInfo, rootUrl]
  host := ⟨hname.notMem (.inl rfl), hname.notMem (.inr (.inr (.inl rfl))), fun c hc => by
    have := hname.val hc
    omega⟩
  address := fun hcolon => absurd hcolon (hname.notMem (.inr (.inl rfl)))
  secure := fun _ => ⟨_, [], rfl, hname.ne_nil, nofun, rfl⟩

/-- Facts about the names of two URLs. -/
instance names : Fact ((nameCheck (str "google.com") = true ∧
    nameCheck (str "www.gstatic.com") = true) ∧
    (str "https" ++ str "http").all (fun c => decide (0x21 ≤ c.val ∧ c.val ≤ 0x7E)) = true ∧
    colon ∉ str "https" ∧ colon ∉ str "http") := ⟨by decide +kernel⟩

theorem isHostName_google : IsHostName (str "google.com") := isHostName_of_nameCheck names.out.1.1

theorem isHostName_gstatic : IsHostName (str "www.gstatic.com") :=
  isHostName_of_nameCheck names.out.1.2

theorem printable_schemes : ∀ c ∈ str "https" ++ str "http", 0x21 ≤ c.val ∧ c.val ≤ 0x7E :=
  fun c hc => of_decide_eq_true (List.all_eq_true.1 names.out.2.1 c hc)

theorem canonical_https {host : String} (h : IsHostName (str host)) :
    (rootUrl "https" host).Canonical :=
  canonical_rootUrl h ⟨fun c hc => printable_schemes c (List.mem_append_left _ hc), names.out.2.2.1⟩

theorem canonical_http {host : String} (h : IsHostName (str host)) :
    (rootUrl "http" host).Canonical :=
  canonical_rootUrl h ⟨fun c hc => printable_schemes c (List.mem_append_right _ hc), names.out.2.2.2⟩

theorem covered_gstatic (scheme : String) :
    Covered (rootUrl scheme "google.com") (rootUrl "https" "www.gstatic.com") := by
  refine ⟨⟨rfl, rfl, rfl⟩, _, List.mem_cons_self, ⟨str "google.com", List.mem_cons_self, ?_⟩,
    .inl ?_⟩
  · exact .inl (trimEndOf_dotless isHostName_google.getLast_ne)
  · simp [texts, Url.host, rootUrl]

/-- A script of a content host on a secure page is taken by both. -/
theorem login_compatibility_parity_gstatic :
    isFunctionalResource (reads (rootUrl "https" "google.com") (rootUrl "https" "www.gstatic.com"))
        (rootUrl "https" "google.com").text (rootUrl "https" "www.gstatic.com").text = true ↔
      ∃ rule ∈ buildLoginCompatibilityRules true, .mainFrame ∉ rule.condition.resourceTypes ∧
        rule.condition.isMet (rootUrl "https" "google.com") (rootUrl "https" "www.gstatic.com")
          .script = true := by
  have hne : (rootUrl "https" "google.com").text ≠ (rootUrl "https" "www.gstatic.com").text := by
    decide +kernel
  refine (login_compatibility_parity (canonical_https isHostName_google)
    (canonical_https isHostName_gstatic) (fun _ => if_pos rfl) (fun _ => reads_second hne)
    (by decide)).2 fun _ => ⟨fun _ => ?_, fun _ => ?_⟩
  · exact ⟨isHostName_google.getLast_ne, isHostName_gstatic⟩
  · exact ⟨⟨rfl, rfl, rfl, by decide +kernel⟩, by decide +kernel⟩

/-- On a page that is not secure the extension allows what the native policy does not. -/
theorem login_compatibility_disparity :
    isFunctionalResource (reads (rootUrl "http" "google.com") (rootUrl "https" "www.gstatic.com"))
        (rootUrl "http" "google.com").text (rootUrl "https" "www.gstatic.com").text = false ∧
      ∃ rule ∈ buildLoginCompatibilityRules true, .mainFrame ∉ rule.condition.resourceTypes ∧
        rule.condition.isMet (rootUrl "http" "google.com") (rootUrl "https" "www.gstatic.com")
          .script = true := by
  have hne : (rootUrl "http" "google.com").text ≠ (rootUrl "https" "www.gstatic.com").text := by
    decide +kernel
  constructor
  · rw [← Bool.not_eq_true, functional_iff_covered (canonical_http isHostName_google)
      (canonical_https isHostName_gstatic) (fun _ => if_pos rfl) (fun _ => reads_second hne)]
    rintro ⟨-, ⟨hscheme, -⟩, -⟩
    exact absurd hscheme (by decide +kernel)
  · exact (rules_iff (canonical_https isHostName_gstatic) (by decide)).2
      ⟨covered_gstatic "http", isHostName_google.getLast_ne, isHostName_gstatic⟩

end ZsecShield.Browser
