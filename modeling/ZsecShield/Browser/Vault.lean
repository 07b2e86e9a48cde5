import ZsecShield.Browser.Url
import ZsecShield.Lib.Base64
import ZsecShield.Lib.Checks
import ZsecShield.Lib.Json.Value

/-!
# The password vault

`BrowserPasswordVault` and `BrowserVaultService` over the files of the record directory.  A string
is its code points, where an unpaired surrogate is a point of its own.  What the code takes from
.NET is a parameter, `VaultPlatform`: the URI parser, the JSON serializer, AES-CBC, HMAC-SHA256,
SHA-256 and the decoding of invalid UTF-8.  The framing around them, the derivation of keys, the
commitment and every check of a record is the code's own.
-/

namespace ZsecShield.Browser

open Text (Str str CodePoint)
open Checks

/-- The exceptions of the vault. -/
inductive VaultError where
  | argument (text : Str)
  | invalidData (text : Str)
  | invalidOperation (text : Str)
  | cryptographic (text : Str)
  | io (text : Str)
  | keyNotFound
  | objectDisposed
  /-- Raised by the serializer. -/
  | serializer

/-! ## Records -/

/-- `BrowserVaultCredential`. -/
structure Credential where
  id : Str
  displayName : Str
  url : Str
  username : Str
  password : Str
  notes : Str
  createdAtUtc : Str
  updatedAtUtc : Str
  deriving DecidableEq

/-- A credential as it is read, in which every text may be null. -/
structure RawCredential where
  id : Option Str
  displayName : Option Str
  url : Option Str
  username : Option Str
  password : Option Str
  notes : Option Str
  createdAtUtc : Option Str
  updatedAtUtc : Option Str

def Credential.raw (c : Credential) : RawCredential :=
  ⟨some c.id, some c.displayName, some c.url, some c.username, some c.password, some c.notes,
    some c.createdAtUtc, some c.updatedAtUtc⟩

/-- `BrowserVaultCredentialSummary`. -/
structure CredentialSummary where
  id : Str
  displayName : Str
  url : Str
  username : Str
  updatedAtUtc : Str

/-- What the vault takes from .NET. -/
structure VaultPlatform where
  /-- `Uri.TryCreate(value, UriKind.Absolute, out uri)`. -/
  tryCreate : Str → Option Url
  /-- `serializer.Serialize` of a dictionary; nothing beyond `MaxJsonLength`. -/
  serialize : Json → Option Str
  /-- `serializer.DeserializeObject`. -/
  deserializeObject : Str → Option Json
  /-- `serializer.Serialize` of a credential. -/
  serializeCredential : Credential → Option Str
  /-- `serializer.Deserialize<BrowserVaultCredential>`, which may give null. -/
  deserializeCredential : Str → Option (Option RawCredential)
  /-- The text of bytes that are not UTF-8. -/
  replaced : Bytes → Str
  /-- `value.ToString()` of a value that is no text. -/
  toText : Json → Str
  /-- `HMACSHA256`. -/
  hmac : (key data : Bytes) → Bytes
  length_hmac : ∀ key data, (hmac key data).length = 32
  /-- `SHA256`. -/
  sha256 : Bytes → Bytes
  length_sha256 : ∀ data, (sha256 data).length = 32
  /-- AES-256-CBC with PKCS7 padding. -/
  aesEncrypt : (key iv plaintext : Bytes) → Bytes
  aesDecrypt : (key iv ciphertext : Bytes) → Option Bytes
  /-- `IndexOf(…, StringComparison.OrdinalIgnoreCase) >= 0`. -/
  containsIgnoreCase : Str → Str → Bool

/-! ## Text as bytes -/

/-- `U+FFFD` in place of what UTF-8 has no encoding for. -/
def replacePoint (c : CodePoint) : CodePoint :=
  if Text.IsSurrogate c then Fin.ofNat _ 0xFFFD else c

/-- A text with its unpaired surrogates replaced. -/
def sanitize (s : Str) : Str := s.map replacePoint

/-- `Encoding.UTF8.GetBytes`. -/
def getBytes (s : Str) : Bytes := (Text.encodeUtf8 (sanitize s)).getD []

/-- `Encoding.UTF8.GetString`. -/
def getString (P : VaultPlatform) (data : Bytes) : Str :=
  (Text.decodeUtf8 data).getD (P.replaced data)

/-- `File.ReadAllText(path, Encoding.UTF8)`: a byte order mark is left out. -/
def readAllText (P : VaultPlatform) (data : Bytes) : Str :=
  match getString P data with
  | [] => []
  | c :: s => if c.val = 0xFEFF then s else c :: s

/-- The digits of a byte, as `BitConverter.ToString(…)` has them in lower case. -/
def hexByte (b : UInt8) : Str :=
  [Text.ofChar (Nat.digitChar (b.toNat / 16)), Text.ofChar (Nat.digitChar (b.toNat % 16))]

def hexText (data : Bytes) : Str := data.flatMap hexByte

/-! ## Checks of the vault -/

def maximumRecords : Nat := 5000

def maximumFileBytes : Nat := 1024 * 1024

def recordSchema : Str := str "zsec.browser.password-record.v1"

/-- A text whose NUL is written as an escape in the source. -/
def nulTerminated (s : String) : Str := str s ++ [0]

/-- `RequireExactKeys`. -/
def requireExactKeys (members : List (Str × Json)) (keys : List String) : Except VaultError Unit :=
  require (members.length = keys.length ∧ ∀ k ∈ keys, str k ∈ members.map Prod.fst)
    (.invalidData (str "Vault document fields are invalid."))

/-- `value[key]`. -/
def indexed (members : List (Str × Json)) (key : String) : Except VaultError Json :=
  fromOption (Json.lookup (str key) members) .keyNotFound

/-- `AsObject`. -/
def asObject (value : Json) (name : String) : Except VaultError (List (Str × Json)) :=
  fromOption value.objOf (.invalidData (str name ++ str " must be an object."))

/-- `RequireText`. -/
def requireText (members : List (Str × Json)) (key : String) (expected : Str) (maximum : Nat) :
    Except VaultError Unit := do
  let value ← indexed members key
  let refusal := VaultError.invalidData (str "Vault " ++ str key ++ str " is invalid.")
  let text ← fromOption value.strOf refusal
  require (length16 text ≤ maximum ∧ text = expected) refusal

/-- `DecodeBounded`: base64 in its canonical form. -/
def decodeBounded (value : Json) (minimum maximum : Nat) (name : String) :
    Except VaultError Bytes := do
  let refusal := VaultError.invalidData (str name ++ str " is invalid.")
  let text ← fromOption value.strOf refusal
  require (isBlank text = false ∧ length16 text ≤ maximum * 2) refusal
  let result ← fromOption (Base64.decode text) refusal
  require (minimum ≤ result.length ∧ result.length ≤ maximum ∧ Base64.encode result = text)
    refusal
  pure result

/-- A hexadecimal digit, in lower case. -/
def hexLower (c : CodePoint) : Option CodePoint :=
  if 48 ≤ c.val ∧ c.val ≤ 57 ∨ 97 ≤ c.val ∧ c.val ≤ 102 then some c
  else if 65 ≤ c.val ∧ c.val ≤ 70 then some (Fin.ofNat _ (c.val + 32))
  else none

/-- `ValidateId`. -/
def validateId (id : Str) : Except VaultError Str :=
  if id.length = 32 then
    fromOption (id.mapM hexLower) (.argument (str "Password record ID is invalid."))
  else .error (.argument (str "Password record ID is invalid."))

/-- `NormalizeUrl`. -/
def normalizeUrl (P : VaultPlatform) (value : Option Str) : Except VaultError Str := do
  let refusal := VaultError.argument (str "Credential URL must be a bounded HTTP(S) URL.")
  let value ← fromOption value refusal
  let uri ← fromOption (P.tryCreate value) refusal
  require ((uri.scheme = str "https" ∨ uri.scheme = str "http") ∧ isBlank uri.host = false ∧
    uri.userInfo = [] ∧ length16 value ≤ 2048) refusal
  pure uri.text

/-- `BoundedText`. -/
def boundedText (value : Option Str) (name : String) (maximum : Nat) : Except VaultError Str := do
  let refusal := VaultError.argument (str name ++ str " is invalid.")
  let value ← fromOption value refusal
  require (length16 value ≤ maximum ∧ 0 ∉ value) refusal
  pure value

/-! ## Envelopes -/

/-- The blocks of `HkdfSha256` from a counter on. -/
def hkdfBlocks (P : VaultPlatform) (prk info : Bytes) :
    (count counter : Nat) → (previous : Bytes) → Bytes
  | 0, _, _ => []
  | count + 1, counter, previous =>
      let block := P.hmac prk (previous ++ info ++ [UInt8.ofNat counter])
      block ++ hkdfBlocks P prk info count (counter + 1) block

/-- `HkdfSha256`. -/
def hkdfSha256 (P : VaultPlatform) (input salt info : Bytes) (length : Nat) : Bytes :=
  let prk := P.hmac salt input
  (hkdfBlocks P prk info ((length + 31) / 32) 1 []).take length

/-- What an envelope holds. -/
structure Envelope where
  salt : Bytes
  iv : Bytes
  ciphertext : Bytes
  mac : Bytes

def Envelope.members (e : Envelope) : List (Str × Json) :=
  [(str "cipher", .str (str "AES-256-CBC-HMAC-SHA256")), (str "kdf", .str (str "HKDF-SHA256")),
    (str "salt", .str (Base64.encode e.salt)), (str "iv", .str (Base64.encode e.iv)),
    (str "ciphertext", .str (Base64.encode e.ciphertext)), (str "mac", .str (Base64.encode e.mac))]

/-- The two keys of an envelope: the first half encrypts, the second authenticates. -/
def material (P : VaultPlatform) (rootKey salt context : Bytes) : Bytes :=
  hkdfSha256 P rootKey salt context 64

def encryptionKey (P : VaultPlatform) (rootKey salt context : Bytes) : Bytes :=
  (material P rootKey salt context).take 32

def macKey (P : VaultPlatform) (rootKey salt context : Bytes) : Bytes :=
  ((material P rootKey salt context).drop 32).take 32

/-- The bytes the MAC is about. -/
def authenticated (context salt iv ciphertext : Bytes) : Bytes :=
  context ++ salt ++ iv ++ ciphertext

/-- `EncryptEnvelope` with the random bytes it draws. -/
def encryptEnvelope (P : VaultPlatform) (plaintext rootKey : Bytes) (context : Str)
    (salt iv : Bytes) : Envelope :=
  let info := getBytes context
  let ciphertext := P.aesEncrypt (encryptionKey P rootKey salt info) iv plaintext
  { salt
    iv
    ciphertext
    mac := P.hmac (macKey P rootKey salt info) (authenticated info salt iv ciphertext) }

/-- The fields of an envelope. -/
def openEnvelope (members : List (Str × Json)) : Except VaultError Envelope := do
  requireExactKeys members ["cipher", "kdf", "salt", "iv", "ciphertext", "mac"]
  requireText members "cipher" (str "AES-256-CBC-HMAC-SHA256") 80
  requireText members "kdf" (str "HKDF-SHA256") 80
  let salt ← indexed members "salt"
  let salt ← decodeBounded salt 32 32 "salt"
  let iv ← indexed members "iv"
  let iv ← decodeBounded iv 16 16 "IV"
  let ciphertext ← indexed members "ciphertext"
  let ciphertext ← decodeBounded ciphertext 16 maximumFileBytes "ciphertext"
  let mac ← indexed members "mac"
  let mac ← decodeBounded mac 32 32 "MAC"
  pure ⟨salt, iv, ciphertext, mac⟩

/-- `DecryptEnvelope`. -/
def decryptEnvelope (P : VaultPlatform) (members : List (Str × Json)) (rootKey : Bytes)
    (context : Str) : Except VaultError Bytes := do
  let e ← openEnvelope members
  let info := getBytes context
  require (e.mac = P.hmac (macKey P rootKey e.salt info)
      (authenticated info e.salt e.iv e.ciphertext))
    (.cryptographic (str "Password vault authentication failed."))
  fromOption (P.aesDecrypt (encryptionKey P rootKey e.salt info) e.iv e.ciphertext)
    (.cryptographic (str "Padding is invalid and cannot be removed."))

/-- The text of a member of the envelope, as string concatenation takes it. -/
def memberText (P : VaultPlatform) (members : List (Str × Json)) (key : String) :
    Except VaultError Str := do
  let value ← indexed members key
  pure (value.strOf.getD (P.toText value))

/-- `Commitment`. -/
def commitment (P : VaultPlatform) (id : Str) (envelope : List (Str × Json)) :
    Except VaultError Str := do
  let salt ← memberText P envelope "salt"
  let iv ← memberText P envelope "iv"
  let ciphertext ← memberText P envelope "ciphertext"
  let mac ← memberText P envelope "mac"
  let projection := id ++ [0] ++ salt ++ [0] ++ iv ++ [0] ++ ciphertext ++ [0] ++ mac
  pure (hexText (P.sha256 (getBytes
    (nulTerminated "ZSEC-ZMATH-BOUNDARY-COMMITMENT-V1" ++ projection))))

/-- The context of a record. -/
def recordContext (id : Str) : Str := nulTerminated "ZSEC-BROWSER-PASSWORD-RECORD-V1" ++ id

/-! ## The vault -/

/-- A vault: its key while it is unlocked, and the files `<stem>.json` of its records, whose names
are taken in lower case as the file system compares them. -/
structure Vault where
  disposed : Bool
  masterKey : Option Bytes
  records : List (Str × Bytes)

/-- `RequireUnlocked`. -/
def requireUnlocked (v : Vault) : Except VaultError Bytes :=
  if v.disposed then .error .objectDisposed
  else fromOption v.masterKey (.invalidOperation (str "Password vault is locked."))

/-- `ReadObject` of a record. -/
def readObject (P : VaultPlatform) (v : Vault) (stem : Str) :
    Except VaultError (List (Str × Json)) := do
  let data ← fromOption (Json.lookup stem v.records)
    (.invalidData (str "Vault file is absent or a reparse point."))
  require (0 < data.length ∧ data.length ≤ maximumFileBytes)
    (.invalidData (str "Vault file size is invalid."))
  let value ← fromOption (P.deserializeObject (readAllText P data)) .serializer
  asObject value "vault document"

/-- The envelope of a record, whose commitment is the one of its fields. -/
def readEnvelope (P : VaultPlatform) (v : Vault) (safeId : Str) :
    Except VaultError (List (Str × Json)) := do
  let document ← readObject P v safeId
  requireExactKeys document ["schema", "id", "envelope", "zmath_commitment"]
  requireText document "schema" recordSchema 80
  requireText document "id" safeId 64
  let value ← indexed document "envelope"
  let envelope ← asObject value "record envelope"
  let expectedCommitment ← commitment P safeId envelope
  requireText document "zmath_commitment" expectedCommitment 64
  pure envelope

/-- The credential of a plaintext. -/
def readCredential (P : VaultPlatform) (safeId : Str) (plaintext : Bytes) :
    Except VaultError Credential := do
  let read ← fromOption (P.deserializeCredential (getString P plaintext)) .serializer
  let refusal := VaultError.invalidData (str "Password record identity is invalid.")
  let raw ← fromOption read refusal
  require (raw.id = some safeId) refusal
  let url ← normalizeUrl P raw.url
  let displayName ← boundedText (some (raw.displayName.getD [])) "display name" 256
  let username ← boundedText raw.username "username" 512
  let password ← boundedText raw.password "password" 8192
  let notes ← boundedText (some (raw.notes.getD [])) "notes" 8192
  pure ⟨safeId, displayName, url, username, password, notes, raw.createdAtUtc.getD [],
    raw.updatedAtUtc.getD []⟩

/-- `Retrieve`. -/
def retrieve (P : VaultPlatform) (v : Vault) (id : Str) : Except VaultError Credential := do
  let masterKey ← requireUnlocked v
  let safeId ← validateId id
  let envelope ← readEnvelope P v safeId
  let plaintext ← decryptEnvelope P envelope masterKey (recordContext safeId)
  readCredential P safeId plaintext

/-- What one call of `SaveCredential` draws from the machine. -/
structure Fresh where
  /-- `Guid.NewGuid().ToString("N")`. -/
  guid : Str
  /-- `UtcNow()`. -/
  now : Str
  salt : Bytes
  iv : Bytes
  guid_valid : validateId guid = .ok guid
  length_salt : salt.length = 32
  length_iv : iv.length = 16

/-- The document of a record. -/
structure RecordDocument where
  id : Str
  envelope : Envelope
  commitment : Str

def RecordDocument.toJson (d : RecordDocument) : Json :=
  .obj [(str "schema", .str recordSchema), (str "id", .str d.id),
    (str "envelope", .obj d.envelope.members), (str "zmath_commitment", .str d.commitment)]

/-- `WriteJsonAtomic` of a record. -/
def writeJsonAtomic (P : VaultPlatform) (v : Vault) (stem : Str) (value : Json) (newOnly : Bool) :
    Except VaultError Vault := do
  let text ← fromOption (P.serialize value) .serializer
  let data := getBytes text
  require (0 < data.length ∧ data.length ≤ maximumFileBytes)
    (.invalidData (str "Vault document exceeds its size bound."))
  require (¬ (newOnly = true ∧ (Json.lookup stem v.records).isSome))
    (.io (str "Vault record already exists."))
  pure { v with records := Json.insertMember v.records stem data }

/-- The texts of a record, checked. -/
def checkRecord (P : VaultPlatform) (displayName url username password notes : Option Str) :
    Except VaultError (Str × Str × Str × Str × Str) := do
  let normalizedUrl ← normalizeUrl P url
  let displayName ← boundedText (some (displayName.getD [])) "display name" 256
  let username ← boundedText username "username" 512
  let password ← boundedText password "password" 8192
  let notes ← boundedText (some (notes.getD [])) "notes" 8192
  pure (displayName, normalizedUrl, username, password, notes)

/-- The document of a record, under the keys of the vault. -/
def sealRecord (P : VaultPlatform) (masterKey plaintext : Bytes) (safeId : Str) (fresh : Fresh) :
    Except VaultError RecordDocument := do
  let envelope := encryptEnvelope P plaintext masterKey (recordContext safeId) fresh.salt fresh.iv
  let bound ← commitment P safeId envelope.members
  pure ⟨safeId, envelope, bound⟩

/-- The id of the record and the time of its creation. -/
def identify (P : VaultPlatform) (v : Vault) (id : Option Str) (fresh : Fresh) :
    Except VaultError (Str × Str × Bool) := do
  let creating := isBlank (id.getD [])
  require (¬ (creating = true ∧ maximumRecords ≤ v.records.length))
    (.invalidOperation (str "Password vault record limit reached."))
  if creating then
    pure (fresh.guid, fresh.now, true)
  else do
    let safeId ← validateId (id.getD [])
    let previous ← retrieve P v safeId
    pure (safeId, previous.createdAtUtc, false)

/-- `SaveCredential`. -/
def saveCredential (P : VaultPlatform) (v : Vault)
    (id displayName url username password notes : Option Str) (fresh : Fresh) :
    Except VaultError (Credential × Vault) := do
  let masterKey ← requireUnlocked v
  let (displayName, url, username, password, notes) ←
    checkRecord P displayName url username password notes
  let (safeId, created, creating) ← identify P v id fresh
  let record : Credential :=
    ⟨safeId, displayName, url, username, password, notes, created, fresh.now⟩
  let text ← fromOption (P.serializeCredential record) .serializer
  let document ← sealRecord P masterKey (getBytes text) safeId fresh
  let v ← writeJsonAtomic P v safeId document.toJson creating
  pure (record, v)

/-- The order of strings by their UTF-16 units, `StringComparer.Ordinal`. -/
def units (s : Str) : List Nat :=
  s.flatMap fun c =>
    if c.val < 0x10000 then [c.val]
    else [0xD800 + (c.val - 0x10000) / 0x400, 0xDC00 + (c.val - 0x10000) % 0x400]

/-- `OrderBy(item => item.Url).ThenBy(item => item.Username)`. -/
def ordered (items : List CredentialSummary) : List CredentialSummary :=
  items.mergeSort fun a b =>
    decide (units a.url < units b.url ∨
      units a.url = units b.url ∧ units a.username ≤ units b.username)

/-- The records of the files from a number on. -/
def listFrom (P : VaultPlatform) (v : Vault) (count : Nat) :
    List Str → Except VaultError (List CredentialSummary)
  | [] => .ok []
  | stem :: stems => do
      require (count < maximumRecords) (.invalidData (str "Password record limit exceeded."))
      let item ← retrieve P v stem
      let items ← listFrom P v (count + 1) stems
      pure (⟨item.id, item.displayName, item.url, item.username, item.updatedAtUtc⟩ :: items)

/-- `List`. -/
def list (P : VaultPlatform) (v : Vault) : Except VaultError (List CredentialSummary) := do
  let _ ← requireUnlocked v
  let items ← listFrom P v 0 (v.records.map Prod.fst)
  pure (ordered items)

/-! ## The service -/

/-- `BrowserVaultEntry`, in which every text may be null. -/
structure VaultEntry where
  id : Option Str
  displayName : Option Str
  url : Option Str
  username : Option Str
  password : Option Str
  notes : Option Str
  updatedAtUtc : Option Str

/-- `BrowserVaultStatus`. -/
structure VaultStatus where
  isAvailable : Bool
  isUnlocked : Bool
  entryCount : Nat
  message : Str

/-- `ToEntry`. -/
def toEntry (c : Credential) : VaultEntry :=
  ⟨some c.id, some c.displayName, some c.url, some c.username, some c.password, some c.notes,
    some c.updatedAtUtc⟩

/-- `ValidateEntry`: the first objection. -/
def validateEntry (P : VaultPlatform) (entry : VaultEntry) : Option Str :=
  let url := trimOf isWhiteSpace (entry.url.getD [])
  let acceptable := (P.tryCreate url).any fun parsed =>
    decide (parsed.scheme = str "https" ∨ parsed.scheme = str "http")
  let passwordLength := length16 (entry.password.getD [])
  if length16 url = 0 then some (str "Enter the website address.")
  else if 2048 < length16 url then some (str "The website address is too long.")
  else if 256 < length16 (entry.displayName.getD []) then some (str "The display name is too long.")
  else if acceptable = false then
    some (str "The website address must begin with https:// or http://.")
  else if 320 < length16 (entry.username.getD []) then some (str "The username is too long.")
  else if passwordLength = 0 then some (str "Enter or generate a password.")
  else if 4096 < passwordLength then some (str "The password is too long.")
  else if 4096 < length16 (entry.notes.getD []) then some (str "The notes are too long.")
  else none

/-- The start of a text, counted in UTF-16 units. -/
def take16 : Nat → Str → Str
  | 0, _ => []
  | _ + 1, [] => []
  | n + 1, c :: s =>
      if c.val < 0x10000 then c :: take16 n s
      else match n with
        | 0 => [Fin.ofNat _ (0xD800 + (c.val - 0x10000) / 0x400)]
        | n + 1 => c :: take16 n s

/-- `NormalizeSearch`. -/
def normalizeSearch (query : Option Str) : Str := take16 256 (trimOf isWhiteSpace (query.getD []))

/-- The terms of a query. -/
def searchTerms (query : Str) : List Str :=
  (query.splitOnP fun c => decide (c.val = 32 ∨ c.val = 9 ∨ c.val = 13 ∨ c.val = 10)).filter
    (· ≠ [])

/-- `DisplaySite`. -/
def displaySite (P : VaultPlatform) (url : Option Str) : Str :=
  match url.bind P.tryCreate with
  | some parsed => if isBlank parsed.host then url.getD [] else parsed.host
  | none => url.getD []

/-- `Matches`. -/
def matchesQuery (P : VaultPlatform) (entry : VaultEntry) (query : Str) : Bool :=
  let has (value term : Str) : Bool := P.containsIgnoreCase value term
  (searchTerms (normalizeSearch (some query))).all fun term =>
    has (entry.displayName.getD []) term || has (entry.url.getD []) term ||
      has (displaySite P entry.url) term || has (entry.username.getD []) term ||
      has (entry.notes.getD []) term

/-- `BrowserVaultService.GetStatus`. -/
def getStatus (P : VaultPlatform) (v : Vault) : Except VaultError VaultStatus :=
  if v.masterKey.isSome then do
    let items ← list P v
    pure ⟨true, true, items.length, str "Vault unlocked for this Windows session."⟩
  else
    pure ⟨true, false, 0, str "Vault locked; Windows DPAPI is required to unlock it."⟩

/-- The entries of listed records, without their passwords. -/
def entriesOf (P : VaultPlatform) (v : Vault) :
    List CredentialSummary → Except VaultError (List VaultEntry)
  | [] => .ok []
  | item :: items => do
      let record ← retrieve P v item.id
      let entries ← entriesOf P v items
      pure ({ toEntry record with password := none } :: entries)

/-- `BrowserVaultService.Search`. -/
def search (P : VaultPlatform) (v : Vault) (query : Option Str) :
    Except VaultError (List VaultEntry) := do
  let items ← list P v
  let entries ← entriesOf P v items
  pure (entries.filter fun entry => matchesQuery P entry (normalizeSearch query))

/-- `BrowserVaultService.Get`. -/
def get (P : VaultPlatform) (v : Vault) (id : Str) : Except VaultError VaultEntry := do
  let record ← retrieve P v id
  pure (toEntry record)

/-- `BrowserVaultService.Save`. -/
def save (P : VaultPlatform) (v : Vault) (entry : VaultEntry) (fresh : Fresh) :
    Except VaultError (VaultEntry × Vault) := do
  match validateEntry P entry with
  | some text => .error (.argument text)
  | none => do
      let (saved, v) ← saveCredential P v entry.id (some (entry.displayName.getD [])) entry.url
        (some (entry.username.getD [])) entry.password (some (entry.notes.getD [])) fresh
      pure (toEntry saved, v)

end ZsecShield.Browser
