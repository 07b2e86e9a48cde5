import ZsecShield.Feed.Fields
import ZsecShield.Lib.Aead
import ZsecShield.Lib.Folder

/-!
# Device keys and envelopes

`crypto_vault.py`: the device root key and its record, the envelope that wraps a content key, and
the MAC of the metadata.  What the code takes from `cryptography`, from the Windows data
protection and from the interpreter is a parameter, `System`.
-/

namespace ZsecShield.Quarantine

open Text (Str str)
open Feed (field isText memberOf)
open Effect
open Checks

/-- What the quarantine takes from outside the repository. -/
structure System extends Crypto where
  runtime : Runtime
  /-- AES-256-GCM. -/
  aead : Aead
  /-- `HKDF(SHA256, 32, salt, info).derive(root)`. -/
  hkdf : (root : Bytes) → (salt : Option Bytes) → (info : Bytes) → Bytes
  length_hkdf : ∀ root salt info, (hkdf root salt info).length = 32
  /-- `hmac.new(key, data, sha256).digest()`. -/
  hmac : (key data : Bytes) → Bytes
  length_hmac : ∀ key data, (hmac key data).length = 32
  /-- `os.name == "nt"`. -/
  windows : Bool
  /-- `CryptProtectData` and `CryptUnprotectData`, or the Windows error. -/
  protectData : Bytes → Except Nat Bytes
  unprotectData : Bytes → Except Nat Bytes
  /-- How many bytes a call of `os.read` gives at most. -/
  readSize : Nat → Nat
  readSize_pos : ∀ t, 0 < readSize t
  /-- `str(Path(text))`. -/
  pathText : Str → Path
  /-- `Path(text).is_absolute()`. -/
  isAbsolute : Path → Bool
  /-- `path.expanduser().absolute()`. -/
  expand : Path → Except PyError Path
  /-- `uuid.UUID(text)` does not raise. -/
  isUuid : Str → Bool

def quarantineError (text : Str) : PyError := .shield (.quarantineError text)

/-- The bytes of an ASCII literal. -/
def ascii (s : String) : Bytes := (str s).map fun c => UInt8.ofNat c.val

/-- `text.isascii()`. -/
def isAscii (s : Str) : Bool := s.all fun c => decide (c.val < 128)

theorem isAscii_iff {s : Str} : isAscii s = true ↔ ∀ c ∈ s, c.val < 128 := by
  simp [isAscii]

/-- `text.encode("ascii")`. -/
def encodeAscii (s : Str) : Except PyError Bytes :=
  accept (isAscii s = true) (.unicodeEncodeError (str "ordinal not in range(128)"))
    (s.map fun c => UInt8.ofNat c.val)

/-! ## The device root -/

structure DeviceRoot where
  key : Bytes
  protection : Str

def deviceKeySchema : Str := str "zero.security.device-root.v1"

def keyBytes : Nat := 32
def nonceBytes : Nat := 12
def saltBytes : Nat := 32

def keyDirectory (stateDir : Path) : Path :=
  Disk.join (Disk.join stateDir (str "vault")) (str "keys")

def deviceKeyPath (stateDir : Path) : Path :=
  Disk.join (keyDirectory stateDir) (str "device-root.json")

def windowsProtection : Str := str "windows-dpapi-current-user"

def previewProtection : Str := str "filesystem-0600-preview"

/-- `_decode_variable(value, label)`. -/
def decodeVariable (value : Json) (label : Str) : Except PyError Bytes := do
  let text ← fromOption value.strOf (quarantineError (label ++ str " must be base64 text"))
  fromOption (Base64.decode text) (quarantineError (label ++ str " is invalid base64"))

/-- `_decode(value, expected_length, label)`. -/
def decode (value : Json) (expectedLength : Nat) (label : Str) : Except PyError Bytes := do
  let decoded ← decodeVariable value label
  require (decoded.length = expectedLength) (quarantineError (label ++ str " length is invalid"))
  pure decoded

/-- The way a new key is protected, with the protected key. -/
def sealKey (S : System) (key : Bytes) : Except PyError (Str × Bytes) :=
  if S.windows then
    match S.protectData key with
    | .ok sealed => .ok (windowsProtection, sealed)
    | .error code => .error (quarantineError
        (str "DPAPI protection failed with Windows error " ++ Text.digits code))
  else .ok (previewProtection, key)

/-- The record of a new key, protected as the platform does it. -/
def protectKey (S : System) (key : Bytes) : Except PyError Json := do
  let sealed ← sealKey S key
  pure (.obj [(str "schema", .str deviceKeySchema), (str "protection", .str sealed.1),
    (str "protected_key", .str (Base64.encode sealed.2))])

def deviceKeyFields : List Str := [str "schema", str "protection", str "protected_key"]

/-- The key of a record, which opens on the platform that protected it. -/
def unsealKey (S : System) (protection : Str) (protectedKey : Bytes) : Except PyError Bytes :=
  if protection = windowsProtection then
    if S.windows then
      match S.unprotectData protectedKey with
      | .ok key => .ok key
      | .error code => .error (quarantineError
          (str "DPAPI unseal failed with Windows error " ++ Text.digits code))
    else .error (quarantineError
      (str "Windows DPAPI device root cannot be opened on this platform"))
  else if protection = previewProtection then
    if S.windows then
      .error (quarantineError (str "unsealed preview device root is refused on Windows"))
    else .ok protectedKey
  else .error (quarantineError (str "unsupported device root protection"))

/-- The key in its decoded record. -/
def openDeviceRoot (S : System) (value : Json) : Except PyError DeviceRoot := do
  let members ← fromOption value.objOf (quarantineError (str "device root key record is invalid"))
  require (Json.keysAre members deviceKeyFields = true)
    (quarantineError (str "device root key record is invalid"))
  require (isText (field members "schema") deviceKeySchema = true)
    (quarantineError (str "unsupported device root key schema"))
  let protection ← fromOption (field members "protection").strOf
    (quarantineError (str "device root protection must be text"))
  let protectedKey ← decodeVariable (field members "protected_key") (str "protected device root")
  let key ← unsealKey S protection protectedKey
  require (key.length = keyBytes) (quarantineError (str "device root key length is invalid"))
  pure ⟨key, protection⟩

/-- The key in the bytes of its file. -/
def parseDeviceRoot (S : System) (raw : Bytes) : Except PyError DeviceRoot :=
  Util.strictJsonLoads S.runtime raw >>= openDeviceRoot S

/-- Make the key and its record. -/
def createDeviceRoot (S : System) (stateDir : Path) : Util.Io Unit := do
  Util.sys (Disk.Action.mkdir (keyDirectory stateDir))
  Prog.suppress PyError.isOs (Util.sys (Disk.Action.chmod (keyDirectory stateDir) 0o700))
  let key ← Util.sys (Disk.Action.urandom keyBytes)
  let record ← Prog.liftExcept (protectKey S key)
  Util.atomicWriteJson S.runtime (deviceKeyPath stateDir) record 0o600

/-- The key of the file, which has to be there. -/
def readDeviceRoot (S : System) (stateDir : Path) : Util.Io DeviceRoot := do
  let value ← Prog.tryExcept
    (do
      let raw ← Util.sys (Disk.Action.read (deviceKeyPath stateDir))
      Prog.liftExcept (Util.strictJsonLoads S.runtime raw))
    (fun e => e.isOs || e.isFeed)
    fun e => Prog.raise (quarantineError (str "cannot read device root key: " ++ e.text))
  Prog.liftExcept (openDeviceRoot S value)

/-- Make the key if there is none and `create` allows it. -/
def ensureDeviceRoot (S : System) (stateDir : Path) (create : Bool) : Util.Io Unit := do
  let there ← Util.sys (Disk.Action.existsAt (deviceKeyPath stateDir))
  if there then pure ()
  else if create then createDeviceRoot S stateDir
  else Prog.raise (quarantineError (str "device root key is unavailable"))

/-- `load_device_root(state_dir, create)`. -/
def loadDeviceRoot (S : System) (stateDir : Path) (create : Bool) : Util.Io DeviceRoot := do
  ensureDeviceRoot S stateDir create
  readDeviceRoot S stateDir

/-! ## Envelopes -/

structure VaultEnvelope where
  salt : Bytes
  wrapNonce : Bytes
  wrappedKey : Bytes
  contentNonce : Bytes

/-- The fields of an envelope with one value, in the order in which they are checked. -/
def envelopeConstants : List (String × Str) :=
  [("format", str "ZSV2"), ("profile", str "zero-security-quarantine-aes256gcm-v1"),
    ("cipher", str "AES-256-GCM"), ("key_derivation", str "HKDF-SHA-256")]

/-- `envelope.to_dict(protection)`. -/
def VaultEnvelope.toDict (envelope : VaultEnvelope) (protection : Str) : List (Str × Json) :=
  envelopeConstants.map (fun constant => (str constant.1, Json.str constant.2)) ++
    [(str "device_key_protection", .str protection),
      (str "salt", .str (Base64.encode envelope.salt)),
      (str "wrap_nonce", .str (Base64.encode envelope.wrapNonce)),
      (str "wrapped_key", .str (Base64.encode envelope.wrappedKey)),
      (str "content_nonce", .str (Base64.encode envelope.contentNonce))]

def envelopeFields : List Str :=
  [str "format", str "profile", str "cipher", str "key_derivation", str "device_key_protection",
    str "salt", str "wrap_nonce", str "wrapped_key", str "content_nonce"]

/-- `VaultEnvelope.from_dict(value)`. -/
def VaultEnvelope.fromDict (value : Json) : Except PyError VaultEnvelope := do
  let members ← fromOption value.objOf (quarantineError (str "vault envelope must be an object"))
  require (Json.keysAre members envelopeFields = true)
    (quarantineError (str "vault envelope fields are invalid"))
  envelopeConstants.forM fun constant =>
    require (isText (field members constant.1) constant.2 = true)
      (quarantineError (str "unsupported vault envelope field: " ++ str constant.1))
  let supported ← memberOf (field members "device_key_protection")
    [windowsProtection, previewProtection]
  require (supported = true) (quarantineError (str "unsupported device-key protection"))
  let salt ← decode (field members "salt") saltBytes (str "vault salt")
  let wrapNonce ← decode (field members "wrap_nonce") nonceBytes (str "key-wrap nonce")
  let wrappedKey ← decode (field members "wrapped_key") (keyBytes + 16) (str "wrapped key")
  let contentNonce ← decode (field members "content_nonce") nonceBytes (str "content nonce")
  pure ⟨salt, wrapNonce, wrappedKey, contentNonce⟩

/-- The key that wraps the content key of an entry. -/
def wrapKey (S : System) (device : DeviceRoot) (salt entryId : Bytes) : Bytes :=
  S.hkdf device.key (some salt) (ascii "ZERO-SECURITY/ZSV2/KEY-WRAP/V1" ++ [0] ++ entryId)

/-- `create_envelope(device, entry_id, aad)`. -/
def createEnvelope (S : System) (device : DeviceRoot) (entryId : Str) (aad : Bytes) :
    Util.Io (VaultEnvelope × Bytes) := do
  let contentKey ← Util.sys (Disk.Action.urandom keyBytes)
  let salt ← Util.sys (Disk.Action.urandom saltBytes)
  let wrapNonce ← Util.sys (Disk.Action.urandom nonceBytes)
  let contentNonce ← Util.sys (Disk.Action.urandom nonceBytes)
  let name ← Prog.liftExcept (encodeAscii entryId)
  let wrappedKey := S.aead.encrypt (wrapKey S device salt name) wrapNonce aad contentKey
  pure (⟨salt, wrapNonce, wrappedKey, contentNonce⟩, contentKey)

/-- `unwrap_content_key(device, entry_id, envelope, aad)`. -/
def unwrapContentKey (S : System) (device : DeviceRoot) (entryId : Str) (envelope : VaultEnvelope)
    (aad : Bytes) : Except PyError Bytes := do
  let name ← encodeAscii entryId
  let key ← fromOption (S.aead.decrypt (wrapKey S device envelope.salt name) envelope.wrapNonce aad
      envelope.wrappedKey)
    (quarantineError (str "vault content-key authentication failed"))
  require (key.length = keyBytes) (quarantineError (str "unwrapped content key length is invalid"))
  pure key

/-! ## The MAC of the metadata -/

/-- The members that are signed. -/
def unsigned (metadata : List (Str × Json)) : List (Str × Json) :=
  metadata.filter fun m => m.1 ≠ str "metadata_mac"

/-- The MAC of canonical bytes. -/
def macOf (S : System) (device : DeviceRoot) (data : Bytes) : Str :=
  hexText (S.hmac (S.hkdf device.key none (ascii "ZERO-SECURITY/ZSV2/METADATA-MAC/V1" ++ [0])) data)

/-- `sign_metadata(device, metadata)`. -/
def signMetadata (S : System) (device : DeviceRoot) (metadata : List (Str × Json)) :
    Except PyError (List (Str × Json)) := do
  let data ← Util.canonicalJsonBytes S.runtime (.obj (unsigned metadata))
  pure (unsigned metadata ++ [(str "metadata_mac", .str (macOf S device data))])

/-- `hmac.compare_digest(a, b)` of two texts. -/
def compareDigest (a b : Str) : Except PyError Bool :=
  accept (isAscii a = true ∧ isAscii b = true)
    (.typeError (str "comparing strings with non-ASCII characters is not supported"))
    (decide (a = b))

/-- `verify_metadata(device, metadata)`. -/
def verifyMetadata (S : System) (device : DeviceRoot) (metadata : List (Str × Json)) :
    Except PyError Unit := do
  let supplied ← fromOption (field metadata "metadata_mac").strOf
    (quarantineError (str "vault metadata MAC is invalid"))
  require (supplied.length = 64) (quarantineError (str "vault metadata MAC is invalid"))
  let data ← Util.canonicalJsonBytes S.runtime (.obj (unsigned metadata))
  let same ← compareDigest supplied (macOf S device data)
  require (same = true) (quarantineError (str "vault metadata authentication failed"))

end ZsecShield.Quarantine
