import ZsecShield.Feed.Fields

/-!
# Field checks of advisory catalogs

The helpers of `intelligence.py` that read one field: normalised text, timestamps in
several grammars, HTTPS URLs and the patterns of identifiers.  The grammars that the
standard library reads by itself (`Library`) are left open.
-/

namespace ZsecShield.Intelligence

open Text (Str str CodePoint)
open Checks
open Feed (field isText natText)

def intelligenceError (text : Str) : PyError := .shield (.intelligenceError text)

/-- The members of a dictionary. -/
abbrev Members := List (Str × Json)

/-- What `urllib.parse.urlsplit` gives. -/
structure SplitUrl where
  scheme : Str
  netloc : Str
  path : Str
  query : Str
  fragment : Str
  username : Option Str
  password : Option Str
  hostname : Option Str
deriving DecidableEq

/-- The parsers of the standard library. -/
structure Library where
  /-- `urllib.parse.urlsplit`. -/
  urlsplit : Str → Except PyError SplitUrl
  /-- `email.utils.parsedate_to_datetime`. -/
  parsedate : Str → Except PyError DateTime.Parsed
  /-- `datetime.strptime(text, "%d %b %Y")`, without the text of its `ValueError`. -/
  strptime : Str → Option DateTime

def sourceIds : List Str :=
  [str "cisa-kev", str "microsoft-msrc", str "ubuntu-usn", str "apple-security"]

def platforms : List Str :=
  [str "windows", str "macos", str "linux", str "browser", str "cross-platform"]

def severities : List Str :=
  [str "critical", str "high", str "medium", str "low", str "info", str "unknown"]

def maxText : Nat := 700

/-- `_exact_keys(value, expected, context)`. -/
def exactKeys (value : Members) (expected : List Str) (context : Str) : Except PyError Unit :=
  let present := value.map Prod.fst
  let missing := (expected.filter fun k => k ∉ present).insertionSort (· ≤ ·)
  let unexpected := (present.filter fun k => k ∉ expected).insertionSort (· ≤ ·)
  let joined (names : List Str) : Str := (str ",").intercalate names
  let details := (if missing = [] then [] else [str "missing=" ++ joined missing]) ++
    (if unexpected = [] then [] else [str "unexpected=" ++ joined unexpected])
  require (Json.keysAre value expected = true) (intelligenceError (str "invalid " ++ context ++
    str " fields (" ++ (str "; ").intercalate details ++ str ")"))

/-! ## Text -/

/-- The characters `str.split()` splits at. -/
def isSpace (c : CodePoint) : Bool :=
  decide (9 ≤ c.val ∧ c.val ≤ 13) || decide (28 ≤ c.val ∧ c.val ≤ 32) || decide (c.val = 0x85) ||
    decide (c.val = 0xA0) || decide (c.val = 0x1680) || decide (0x2000 ≤ c.val ∧ c.val ≤ 0x200A) ||
    decide (c.val = 0x2028) || decide (c.val = 0x2029) || decide (c.val = 0x202F) ||
    decide (c.val = 0x205F) || decide (c.val = 0x3000)

/-- `s.split()`: the words of a text, with the word that is being read. -/
def words (word : Str) : Str → List Str
  | [] => if word = [] then [] else [word]
  | c :: s =>
      if isSpace c then (if word = [] then words [] s else word :: words [] s)
      else words (word ++ [c]) s

/-- `" ".join(value.replace("\x00", " ").split())`. -/
def normalize (value : Str) : Str :=
  (str " ").intercalate (words [] (value.map fun c => if c.val = 0 then Text.ofChar ' ' else c))

/-- `_text(value, field, minimum, maximum)`. -/
def textOf (value : Json) (field : Str) (minimum maximum : Nat) : Except PyError Str := do
  let text ← fromOption value.strOf (intelligenceError (field ++ str " must be a string"))
  let normalized := normalize text
  require (minimum ≤ normalized.length ∧ normalized.length ≤ maximum)
    (intelligenceError (field ++ str " must contain " ++ natText minimum ++ str ".." ++
      natText maximum ++ str " normalized characters"))
  require (normalized.all (fun c => decide (32 ≤ c.val)) = true)
    (intelligenceError (field ++ str " contains a control character"))
  pure normalized

/-! ## Timestamps -/

/-- `value.astimezone(UTC)` of a time with its offset from UTC. -/
def astimezone (value : DateTime) (offset : Int) : Except PyError DateTime :=
  let shifted : Int := value.instant - offset
  if offset = 0 then .ok value
  else if 0 ≤ shifted then fromOption (DateTime.ofInstant shifted.toNat) .overflowError
  else .error .overflowError

/-- The characters stand in the classes of a pattern. -/
def matchesEach : List (CodePoint → Bool) → Str → Bool
  | [], s => s = []
  | _ :: _, [] => false
  | p :: ps, c :: s => p c && matchesEach ps s

def isDash (c : CodePoint) : Bool := c = Text.ofChar '-'

/-- `[0-9]{4}-[0-9]{2}-[0-9]{2}`. -/
def isDate (s : Str) : Bool :=
  matchesEach [Text.isDigit, Text.isDigit, Text.isDigit, Text.isDigit, isDash, Text.isDigit,
    Text.isDigit, isDash, Text.isDigit, Text.isDigit] s

/-- The exceptions that are suppressed around `parsedate_to_datetime`. -/
def isDateFault : PyError → Bool
  | .typeError _ | .overflowError => true
  | e => e.isValue

/-- The time a text stands for, in the first grammar that reads it. -/
def readTime (lib : Library) (text : Str) : Except PyError (Option DateTime.Parsed) :=
  let candidate := if text.getLast? = some (Text.ofChar 'Z') then text.dropLast ++ str "+00:00"
    else text
  let iso := if isDate text then
      (DateTime.fromIsoFormat text).map fun parsed => ⟨parsed.value, some 0⟩
    else DateTime.fromIsoFormat candidate
  match iso with
  | some parsed => .ok (some parsed)
  | none =>
      match lib.parsedate text with
      | .ok parsed => .ok (some parsed)
      | .error e =>
          if isDateFault e then
            .ok ((lib.strptime text).map fun value => ⟨value, some 0⟩)
          else .error e

/-- `_parse_time(value, field)`. -/
def parseTime (lib : Library) (value : Json) (field : Str) : Except PyError DateTime := do
  let text ← textOf value field 8 80
  let read ← readTime lib text
  let parsed ← fromOption read (intelligenceError (field ++ str " is not a supported timestamp"))
  astimezone parsed.value (parsed.offset.getD 0)

/-- `_time(value, field)`. -/
def timeOf (lib : Library) (value : Json) (field : Str) : Except PyError Str := do
  let parsed ← parseTime lib value field
  pure (Util.formatUtc parsed)

/-! ## URLs -/

/-- An optional text that is there and not empty. -/
def present (value : Option Str) : Bool := decide (value.getD [] ≠ [])

/-- `_https_url(value, field)`. -/
def httpsUrl (lib : Library) (value : Json) (field : Str) : Except PyError Str := do
  let text ← textOf value field 12 1000
  let parsed ← lib.urlsplit text
  require (parsed.scheme = str "https" ∧ present parsed.hostname = true ∧
      present parsed.username = false ∧ present parsed.password = false ∧ parsed.fragment = [])
    (intelligenceError (field ++ str " must be a credential-free HTTPS URL"))
  pure text

def cisaKevUrl : Str :=
  str "https://www.cisa.gov/sites/default/files/feeds/known_exploited_vulnerabilities.json"

def msrcUpdatesUrl : Str := str "https://api.msrc.microsoft.com/cvrf/v3.0/updates"

def msrcCvrfPrefix : Str := str "https://api.msrc.microsoft.com/cvrf/v3.0/cvrf/"

def ubuntuUsnUrl : Str := str "https://ubuntu.com/security/notices/rss.xml"

def appleSecurityUrl : Str := str "https://support.apple.com/en-us/100100"

def isUpper (c : CodePoint) : Bool := decide (65 ≤ c.val) && decide (c.val ≤ 90)

/-- `MSRC_DOCUMENT_PATTERN.fullmatch`. -/
def isMsrcDocument (s : Str) : Bool :=
  matchesEach [Text.isDigit, Text.isDigit, Text.isDigit, Text.isDigit, isDash, isUpper, Feed.isLower,
    Feed.isLower] s

/-- `urlunsplit` of a scheme, a host and a path. -/
def urlunsplit (scheme netloc path : Str) : Str :=
  let slashed := if path ≠ [] ∧ path.head? ≠ some (Text.ofChar '/') then Text.ofChar '/' :: path
    else path
  scheme ++ str "://" ++ netloc ++ slashed

/-- `_source_url_allowed(source_id, url)`. -/
def sourceUrlAllowed (lib : Library) (sourceId url : Str) : Except PyError Bool :=
  match lib.urlsplit url with
  | .error e => if e.isValue then .ok false else .error e
  | .ok parsed =>
      if parsed.scheme = str "https" ∧ present parsed.hostname = true ∧
          present parsed.username = false ∧ present parsed.password = false ∧
          parsed.fragment = [] ∧ parsed.query = [] then
        let normalized := urlunsplit parsed.scheme (Feed.lower parsed.netloc) parsed.path
        if sourceId = str "cisa-kev" then .ok (normalized = cisaKevUrl)
        else if sourceId = str "ubuntu-usn" then .ok (normalized = ubuntuUsnUrl)
        else if sourceId = str "apple-security" then .ok (normalized = appleSecurityUrl)
        else if sourceId = str "microsoft-msrc" then
          .ok (normalized = msrcUpdatesUrl || (msrcCvrfPrefix.isPrefixOf normalized &&
            isMsrcDocument (normalized.drop msrcCvrfPrefix.length)))
        else .ok false
      else .ok false

/-! ## Values -/

/-- `value == True` and `value == False`. -/
def equalsBool (value : Json) (b : Bool) : Bool :=
  match value with
  | .bool b' => b' = b
  | .int n => n = (if b then 1 else 0)
  | .float x => x == (if b then 1.0 else 0.0)
  | _ => false

/-- `value == expected` for a dictionary of truth values. -/
def isPolicy (value : Json) (expected : List (Str × Bool)) : Bool :=
  match value with
  | .obj members => Json.keysAre members (expected.map Prod.fst) &&
      expected.all fun e => equalsBool ((Json.lookup e.1 members).getD .null) e.2
  | _ => false

def dataOnlyPolicy : List (Str × Bool) :=
  [(str "auto_remediation_allowed", false), (str "data_only", true),
    (str "detection_rules_derived", false), (str "malware_samples_allowed", false),
    (str "remote_commands_allowed", false)]

/-- `CVE_PATTERN.fullmatch`. -/
def isCve (s : Str) : Bool :=
  (str "CVE-").isPrefixOf s && matchesEach [Text.isDigit, Text.isDigit, Text.isDigit, Text.isDigit,
    isDash, Text.isDigit, Text.isDigit, Text.isDigit, Text.isDigit] ((s.drop 4).take 9) &&
    (s.drop 13).all Text.isDigit

/-- What a number is compared by: infinities first and last, and in between multiples of the
smallest binary fraction. -/
def numberKey : Json → Option (List Int)
  | .bool b => some [0, if b then 2 ^ 1074 else 0]
  | .int n => some [0, n * 2 ^ 1074]
  | .float x =>
      match Text.floatParts x with
      | some parts =>
          let scaled : Int := parts.mantissa * 2 ^ (parts.exponent + 1074).toNat
          some [0, if parts.negative then -scaled else scaled]
      | none => if x == Text.infinity then some [1] else some [-1]
  | _ => none

/-- The elements of a set: a list or a dictionary has no hash. -/
def hashable : Json → Except PyError Unit
  | .arr _ => .error (.typeError (str "unhashable type: 'list'"))
  | .obj _ => .error (.typeError (str "unhashable type: 'dict'"))
  | _ => .ok ()

def hashableAll : List Json → Except PyError Unit
  | [] => .ok ()
  | e :: elements => do
      hashable e
      hashableAll elements

/-- The images of all elements, if each has one. -/
def collect {α β : Type} (f : α → Option β) : List α → Option (List β)
  | [] => some []
  | a :: as => (f a).bind fun b => (collect f as).map fun bs => b :: bs

/-- `elements == sorted(set(elements))`: the elements are strictly increasing.  Texts and
numbers are ordered among themselves, and sorting anything else fails if there are two. -/
def isSortedSet (elements : List Json) : Except PyError Bool := do
  hashableAll elements
  match collect Json.strOf elements, collect numberKey elements with
  | some texts, _ => .ok (decide (texts.Pairwise (· < ·)))
  | none, some keys => .ok (decide (keys.Pairwise (· < ·)))
  | none, none =>
      if ∀ e ∈ elements, e.strOf = none ∧ numberKey e = none then .ok (decide (elements.length ≤ 1))
      else .error (.typeError (str "'<' not supported between instances of different types"))

end ZsecShield.Intelligence
