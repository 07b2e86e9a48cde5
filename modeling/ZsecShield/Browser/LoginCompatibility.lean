import ZsecShield.Browser.Url

/-!
# Login compatibility, natively and in the extension

`BrowserLoginCompatibility` decides about a pair of URLs that .NET has parsed;
`buildLoginCompatibilityRules` of `login-compatibility.js` states the same policy as rules that
the engine matches against the text of the request and the host of the initiator.
-/

namespace ZsecShield.Browser

open Text (Str str CodePoint)
open Pattern

def texts (values : List String) : List Str := values.map str

structure Group where
  sites : List Str
  hosts : List Str
  cdnDomains : List Str

/-! ## The native policy -/

/-- `Groups` of `BrowserLoginCompatibility`. -/
def groups : List Group :=
  [ { sites := texts ["google.com"]
      hosts :=
        texts ["google.com", "www.google.com", "accounts.google.com", "mail.google.com",
          "drive.google.com", "docs.google.com", "gemini.google.com", "myaccount.google.com",
          "apis.google.com", "www.googleapis.com", "oauth2.googleapis.com",
          "accounts.gstatic.com", "www.gstatic.com", "ssl.gstatic.com", "fonts.gstatic.com",
          "fonts.googleapis.com", "lh3.googleusercontent.com"]
      cdnDomains := texts [] },
    { sites := texts ["chatgpt.com", "openai.com", "chat.openai.com"]
      hosts :=
        texts ["chatgpt.com", "www.chatgpt.com", "chat.openai.com", "openai.com",
          "www.openai.com", "auth.openai.com", "auth0.openai.com", "platform.openai.com",
          "cdn.oaistatic.com", "challenges.cloudflare.com", "accounts.google.com",
          "appleid.apple.com", "login.live.com", "login.microsoftonline.com"]
      cdnDomains := texts ["oaistatic.com", "oaiusercontent.com"] },
    { sites := texts ["facebook.com", "instagram.com", "messenger.com"]
      hosts :=
        texts ["facebook.com", "www.facebook.com", "m.facebook.com", "web.facebook.com",
          "www.messenger.com", "messenger.com", "instagram.com", "www.instagram.com",
          "graph.facebook.com", "connect.facebook.net"]
      cdnDomains := texts ["fbcdn.net", "cdninstagram.com"] },
    { sites :=
        texts ["microsoft.com", "live.com", "office.com", "outlook.com", "microsoftonline.com"]
      hosts :=
        texts ["www.microsoft.com", "account.microsoft.com", "login.microsoftonline.com",
          "login.live.com", "account.live.com", "outlook.live.com", "outlook.office.com",
          "www.office.com", "office.com", "aadcdn.msauth.net", "aadcdn.msftauth.net",
          "logincdn.msauth.net"]
      cdnDomains := texts [] },
    { sites := texts ["github.com"]
      hosts :=
        texts ["github.com", "www.github.com", "api.github.com", "github.githubassets.com",
          "avatars.githubusercontent.com", "challenges.cloudflare.com"]
      cdnDomains := texts [] },
    { sites := texts ["apple.com", "icloud.com"]
      hosts :=
        texts ["appleid.apple.com", "account.apple.com", "www.apple.com", "www.icloud.com",
          "icloud.com", "idmsa.apple.com", "appleid.cdn-apple.com"]
      cdnDomains := texts [] }]

/-- `MaximumOriginInputLength`. -/
def maximumOriginInputLength : Nat := 32768

section Native

-- `Uri.TryCreate(candidate, UriKind.Absolute, out parsed)`.
variable (tryCreate : Str → Option Url)

/-- `BrowserPopupPolicy.TryNormalizeOrigin`. -/
def tryNormalizeOrigin (candidate : Str) : Option Str :=
  if isBlank candidate || decide (maximumOriginInputLength < length16 candidate) ||
      decide (candidate ≠ trimOf isWhiteSpace candidate) || candidate.any isControl then none
  else
    match tryCreate candidate with
    | none => none
    | some parsed =>
        if parsed.scheme ≠ str "https" ∨ isBlank parsed.host = true ∨ parsed.userInfo ≠ [] then
          none
        else some (parsed.scheme ++ str "://" ++ (parsed.authority.map Authority.text).getD [])

/-- `TrySecureUri`. -/
def trySecureUri (candidate : Str) : Option Url :=
  match tryNormalizeOrigin tryCreate candidate, tryCreate candidate with
  | some _, some parsed => if parsed.port = 443 then some parsed else none
  | _, _ => none

/-- `BrowserRequestPolicy.HostMatchesDomain`. -/
def hostMatchesDomain (host domain : Str) : Bool :=
  let normalizedHost := toLower (trimEndOf (· = dot) (trimOf isWhiteSpace host))
  let normalizedDomain := toLower (trimOf (· = dot) (trimOf isWhiteSpace domain))
  if normalizedHost.length = 0 ∨ normalizedDomain.length = 0 then false
  else decide (normalizedHost = normalizedDomain) ||
    (dot :: normalizedDomain).isSuffixOf normalizedHost

/-- `BrowserRequestPolicy.IsYoutubeSite`. -/
def isYoutubeSite (host : Str) : Bool :=
  hostMatchesDomain host (str "youtube.com") || hostMatchesDomain host (str "youtube-nocookie.com")

/-- `values.Contains(value, StringComparer.OrdinalIgnoreCase)`. -/
def containsIgnoreCase (values : List Str) (value : Str) : Bool :=
  values.any fun v => decide (toLower v = toLower value)

/-- `IsFunctionalResource`. -/
def isFunctionalResource (topLevelUrl requestUrl : Str) : Bool :=
  match trySecureUri tryCreate topLevelUrl, trySecureUri tryCreate requestUrl with
  | some top, some request =>
      !isYoutubeSite top.host && groups.any fun group =>
        group.sites.any (hostMatchesDomain top.host) &&
          (containsIgnoreCase group.hosts request.host ||
            group.cdnDomains.any (hostMatchesDomain request.host))
  | _, _ => false

end Native

/-! ## The rules of the extension -/

inductive ResourceType where
  | mainFrame
  | script
  | image
  | stylesheet
  | font
  | xmlhttprequest
  | websocket
  | subFrame
  | media
  | other
  deriving DecidableEq

/-- `RESOURCE_TYPES`. -/
def resourceTypes : List ResourceType :=
  [.script, .image, .stylesheet, .font, .xmlhttprequest, .websocket, .subFrame, .media, .other]

/-- `EXCLUDED_INITIATORS`. -/
def excludedInitiators : List Str := texts ["youtube.com", "youtube-nocookie.com"]

/-- `LOGIN_COMPATIBILITY_GROUPS`. -/
def loginCompatibilityGroups : List Group :=
  [ { sites := texts ["google.com"]
      hosts :=
        texts ["google.com", "www.google.com", "accounts.google.com", "mail.google.com",
          "drive.google.com", "docs.google.com", "gemini.google.com", "myaccount.google.com",
          "apis.google.com", "www.googleapis.com", "oauth2.googleapis.com",
          "accounts.gstatic.com", "www.gstatic.com", "ssl.gstatic.com", "fonts.gstatic.com",
          "fonts.googleapis.com", "lh3.googleusercontent.com"]
      cdnDomains := texts [] },
    { sites := texts ["chatgpt.com", "openai.com", "chat.openai.com"]
      hosts :=
        texts ["chatgpt.com", "www.chatgpt.com", "chat.openai.com", "openai.com",
          "www.openai.com", "auth.openai.com", "auth0.openai.com", "platform.openai.com",
          "cdn.oaistatic.com", "challenges.cloudflare.com", "accounts.google.com",
          "appleid.apple.com", "login.live.com", "login.microsoftonline.com"]
      cdnDomains := texts ["oaistatic.com", "oaiusercontent.com"] },
    { sites := texts ["facebook.com", "instagram.com", "messenger.com"]
      hosts :=
        texts ["facebook.com", "www.facebook.com", "m.facebook.com", "web.facebook.com",
          "www.messenger.com", "messenger.com", "instagram.com", "www.instagram.com",
          "graph.facebook.com", "connect.facebook.net"]
      cdnDomains := texts ["fbcdn.net", "cdninstagram.com"] },
    { sites :=
        texts ["microsoft.com", "live.com", "office.com", "outlook.com", "microsoftonline.com"]
      hosts :=
        texts ["www.microsoft.com", "account.microsoft.com", "login.microsoftonline.com",
          "login.live.com", "account.live.com", "outlook.live.com", "outlook.office.com",
          "www.office.com", "office.com", "aadcdn.msauth.net", "aadcdn.msftauth.net",
          "logincdn.msauth.net"]
      cdnDomains := texts [] },
    { sites := texts ["github.com"]
      hosts :=
        texts ["github.com", "www.github.com", "api.github.com", "github.githubassets.com",
          "avatars.githubusercontent.com", "challenges.cloudflare.com"]
      cdnDomains := texts [] },
    { sites := texts ["apple.com", "icloud.com"]
      hosts :=
        texts ["appleid.apple.com", "account.apple.com", "www.apple.com", "www.icloud.com",
          "icloud.com", "idmsa.apple.com", "appleid.cdn-apple.com"]
      cdnDomains := texts [] }]

/-- The letters `[a-z0-9-]` of a label. -/
def letters : List CodePoint :=
  (List.range' 0x61 26 ++ List.range' 0x30 10 ++ [0x2D]).map (Fin.ofNat _)

/-- `"^https:\\/\\/" + P + "(?::443)?\\/"`. -/
def httpsPattern (P : RegularExpression CodePoint) : RegularExpression CodePoint :=
  literal (str "https://") * (P * optional (literal (str ":443")) * .char slash)

/-- `exactHttpsHostPattern`. -/
def exactHttpsHostPattern (host : Str) : RegularExpression CodePoint := httpsPattern (literal host)

/-- `secureCdnHostPattern`. -/
def secureCdnHostPattern (domains : List Str) : RegularExpression CodePoint :=
  httpsPattern (labels letters dot * choice domains)

/-- The condition of a rule; a list that is not given does not restrict it. -/
structure Condition where
  regexFilter : RegularExpression CodePoint
  requestDomains : Option (List Str)
  initiatorDomains : Option (List Str)
  excludedInitiatorDomains : Option (List Str)
  resourceTypes : List ResourceType

inductive Action where
  | allow

structure Rule where
  id : Nat
  priority : Nat
  action : Action
  condition : Condition

/-- `LOGIN_COMPATIBILITY_PRIORITY`. -/
def loginCompatibilityPriority : Nat := 60

/-- `RULE_BASE`. -/
def ruleBase : Nat := 210000

/-- The hosts of a group that lie under one of its sites. -/
def ownHosts (group : Group) : List Str :=
  group.hosts.filter fun host => group.sites.any fun site =>
    decide (host = site) || (dot :: site).isSuffixOf host

/-- `navigableHosts`. -/
def navigableHosts : List Str := (loginCompatibilityGroups.flatMap ownHosts).eraseDups

/-- The condition for navigation to a host. -/
def navigationCondition (host : Str) : Condition where
  regexFilter := exactHttpsHostPattern host
  requestDomains := none
  initiatorDomains := none
  excludedInitiatorDomains := none
  resourceTypes := [.mainFrame]

/-- The condition for a resource from a host of the group. -/
def hostCondition (group : Group) (host : Str) : Condition where
  regexFilter := exactHttpsHostPattern host
  requestDomains := none
  initiatorDomains := some group.sites
  excludedInitiatorDomains := some excludedInitiators
  resourceTypes := resourceTypes

/-- The condition for a resource from a content network of the group. -/
def cdnCondition (group : Group) : Condition where
  regexFilter := secureCdnHostPattern group.cdnDomains
  requestDomains := some group.cdnDomains
  initiatorDomains := some group.sites
  excludedInitiatorDomains := some excludedInitiators
  resourceTypes := resourceTypes

/-- The conditions of a group. -/
def groupConditions (group : Group) : List Condition :=
  group.hosts.map (hostCondition group) ++
    if group.cdnDomains = [] then [] else [cdnCondition group]

/-- `buildLoginCompatibilityRules`. -/
def buildLoginCompatibilityRules (enabled : Bool) : List Rule :=
  if enabled = false then []
  else
    (navigableHosts.map navigationCondition ++
        loginCompatibilityGroups.flatMap groupConditions).mapIdx fun index condition =>
      { id := ruleBase + index
        priority := loginCompatibilityPriority
        action := .allow
        condition }

/-- A host is the domain or lies under it. -/
def domainMatches (host domain : Str) : Bool :=
  decide (host = domain) || (dot :: domain).isSuffixOf host

/-- The engine's test of a request of a type, made by a page, against a condition. -/
def Condition.isMet (condition : Condition) (initiator request : Url) (type : ResourceType) :
    Bool :=
  decide (type ∈ condition.resourceTypes) &&
    matchesStart condition.regexFilter request.text &&
    condition.requestDomains.all (fun domains => domains.any (domainMatches request.host)) &&
    condition.initiatorDomains.all (fun domains => domains.any (domainMatches initiator.host)) &&
    condition.excludedInitiatorDomains.all fun domains =>
      !domains.any (domainMatches initiator.host)

end ZsecShield.Browser
