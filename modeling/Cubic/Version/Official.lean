import Cubic.Codec.VarInt
import Cubic.Version.Identifier

/-!
# Official metadata (`official.rs`, `identity.rs`)

The manifest of all versions and the metadata of one, converted from their JSON. What the
JSON, URL and time crates make of a text is a parameter.
-/

namespace Cubic.Version

set_option autoImplicit false

def maxVersionIdBytes : Nat := 128
def maxIdBytes : Nat := 128
def maxUrlBytes : Nat := 2048
def maxTimestampBytes : Nat := 64

/-- The `VersionError`s of these two files. -/
inductive MetadataError where
  | invalidOfficialMetadata (reason : String)
  | invalidVersionId (reason : String)
  | malformedJson (line column : Nat)
  deriving DecidableEq

/-- A `serde_json::Error` and its text. -/
structure JsonError where
  line : Nat
  column : Nat
  text : String
  deriving DecidableEq

/-! ### Version ids -/

def isWindowsDeviceName (value : String) : Bool :=
  let stem := value.toList.takeWhile (· ≠ '.')
  let upper := stem.map Char.toUpper
  ["CON", "PRN", "AUX", "NUL"].any (fun name => upper = name.toList) ||
    ["COM", "LPT"].any fun port => "123456789".toList.any fun digit => upper = port.toList ++ [digit]

def validateVersionId (value : String) : Except MetadataError Unit :=
  if value.isEmpty then .error (.invalidVersionId "the value is empty")
  else if value.utf8ByteSize > maxVersionIdBytes then
    .error (.invalidVersionId "the value exceeds 128 UTF-8 bytes")
  else if value = "." ∨ value = ".." then
    .error (.invalidVersionId "dot path components are forbidden")
  else if value.toList.any isControl then
    .error (.invalidVersionId "control characters are forbidden")
  else if value.toList.any ['/', '\\'].contains then
    .error (.invalidVersionId "path separators are forbidden")
  else if value.toList.any ['<', '>', ':', '"', '|', '?', '*'].contains then
    .error (.invalidVersionId "filesystem-reserved characters are forbidden")
  else if value.toList.getLast?.any [' ', '.'].contains then
    .error (.invalidVersionId "trailing spaces and dots are forbidden")
  else if isWindowsDeviceName value then
    .error (.invalidVersionId "reserved Windows device names are forbidden")
  else .ok ()

structure MinecraftVersionId where
  text : String
  valid : validateVersionId text = .ok ()
  deriving DecidableEq

def MinecraftVersionId.new (value : String) : Except MetadataError MinecraftVersionId :=
  match h : validateVersionId value with
  | .ok () => .ok ⟨value, h⟩
  | .error e => .error e

/-! ### Digests, URLs and times -/

structure Sha1Digest where
  bytes : Vector UInt8 20
  deriving DecidableEq

def hexDigit (c : Char) : Nat :=
  if isAsciiDigit c then c.toNat - '0'.toNat else c.toLower.toNat - 'a'.toNat + 10

def Sha1Digest.fromStr (value : String) : Except MetadataError Sha1Digest :=
  if value.utf8ByteSize ≠ 40 ∨ ¬ value.toList.all isAsciiHexdigit then
    .error (.invalidOfficialMetadata "SHA-1 must contain exactly 40 hexadecimal characters")
  else
    let digits := value.toList.map hexDigit
    .ok ⟨Vector.ofFn fun index : Fin 20 =>
      UInt8.ofNat (16 * digits.getD (2 * index) 0 + digits.getD (2 * index + 1) 0)⟩

/-- What is read of a `url::Url`. -/
structure Url where
  scheme : String
  username : String
  password : Option String
  hostStr : Option String
  port : Option UInt16
  path : String
  queryAndFragment : String
  deriving DecidableEq

structure OffsetDateTime where
  unixNanoseconds : Int
  offsetSeconds : Int
  deriving DecidableEq

/-! ### The wire types -/

structure LatestWire where
  release : String
  snapshot : String

structure VersionWire where
  id : String
  kind : String
  url : String
  sha1 : String
  releaseTime : String
  time : String
  complianceLevel : Option UInt32

structure ManifestWire where
  latest : LatestWire
  versions : List VersionWire

structure AssetIndexDescriptorWire where
  id : String
  url : String
  sha1 : String
  size : UInt64
  totalSize : Option UInt64

structure DownloadWire where
  url : String
  sha1 : String
  size : UInt64

structure MetadataWire where
  id : String
  kind : String
  assetIndex : AssetIndexDescriptorWire
  /-- `downloads.client` -/
  client : DownloadWire
  /-- `java_version.major_version` -/
  javaMajorVersion : Option UInt32
  mainClass : Option String
  inheritsFrom : Option String

/-- What the crates `serde_json`, `url` and `time` make of a text. -/
structure Readers where
  manifestWire : Bytes → Except JsonError ManifestWire
  metadataWire : Bytes → Except JsonError MetadataWire
  parseUrl : String → Option Url
  parseRfc3339 : String → Option OffsetDateTime

/-! ### The converted types -/

inductive OfficialVersionKind where
  | release
  | snapshot
  | other (value : String)
  deriving DecidableEq

structure OfficialVersionEntry where
  id : MinecraftVersionId
  kind : OfficialVersionKind
  metadataUrl : Url
  metadataSha1 : Sha1Digest
  releasedAt : OffsetDateTime
  updatedAt : OffsetDateTime
  complianceLevel : Option UInt32
  deriving DecidableEq

structure OfficialVersionManifest where
  latestReleaseId : MinecraftVersionId
  latestSnapshotId : MinecraftVersionId
  versions : List OfficialVersionEntry
  deriving DecidableEq

namespace OfficialVersionManifest

def find (manifest : OfficialVersionManifest) (id : MinecraftVersionId) :
    Option OfficialVersionEntry :=
  manifest.versions.find? fun entry => entry.id = id

def latestRelease (manifest : OfficialVersionManifest) : Option OfficialVersionEntry :=
  manifest.find manifest.latestReleaseId

def latestSnapshot (manifest : OfficialVersionManifest) : Option OfficialVersionEntry :=
  manifest.find manifest.latestSnapshotId

end OfficialVersionManifest

structure AssetIndexDescriptor where
  id : String
  url : Url
  sha1 : Sha1Digest
  size : UInt64
  totalSize : Option UInt64
  deriving DecidableEq

structure ClientDownloadDescriptor where
  url : Url
  sha1 : Sha1Digest
  size : UInt64
  deriving DecidableEq

structure SelectedVersionMetadata where
  id : MinecraftVersionId
  kind : OfficialVersionKind
  assetIndex : AssetIndexDescriptor
  client : ClientDownloadDescriptor
  javaMajorVersion : Option UInt32
  mainClass : Option String
  inheritsFrom : Option MinecraftVersionId
  deriving DecidableEq

/-! ### The conversions -/

def validateShort (value field : String) (max : Nat) : Except MetadataError Unit :=
  if value.isEmpty ∨ value.utf8ByteSize > max ∨ value.toList.any isControl then
    .error (.invalidOfficialMetadata
      (field ++ " is empty, overlong, or contains control characters"))
  else .ok ()

def kind (value : String) : Except MetadataError OfficialVersionKind := do
  validateShort value "version type" 64
  pure (if value = "release" then .release
    else if value = "snapshot" then .snapshot
    else .other value)

variable (readers : Readers)

def timestamp (value : String) : Except MetadataError OffsetDateTime := do
  validateShort value "timestamp" maxTimestampBytes
  match readers.parseRfc3339 value with
  | some time => pure time
  | none => .error (.invalidOfficialMetadata "timestamp is not valid RFC 3339")

def httpsUrl (value : String) : Except MetadataError Url := do
  validateShort value "URL" maxUrlBytes
  match readers.parseUrl value with
  | none => .error (.invalidOfficialMetadata "invalid official metadata URL")
  | some url =>
    if url.scheme ≠ "https" ∨ url.hostStr.isNone ∨ url.username ≠ "" ∨ url.password.isSome then
      .error (.invalidOfficialMetadata
        "official metadata URL must be an absolute credential-free HTTPS URL")
    else pure url

def convertEntry (wire : VersionWire) : Except MetadataError OfficialVersionEntry := do
  let id ← MinecraftVersionId.new wire.id
  let entryKind ← kind wire.kind
  let metadataUrl ← httpsUrl readers wire.url
  let metadataSha1 ← Sha1Digest.fromStr wire.sha1
  let releasedAt ← timestamp readers wire.releaseTime
  let updatedAt ← timestamp readers wire.time
  pure ⟨id, entryKind, metadataUrl, metadataSha1, releasedAt, updatedAt, wire.complianceLevel⟩

def malformed {α : Type} (result : Except JsonError α) : Except MetadataError α :=
  result.mapError fun error => .malformedJson error.line error.column

def parseOfficialManifest (bytes : Bytes) : Except MetadataError OfficialVersionManifest := do
  let wire ← malformed (readers.manifestWire bytes)
  let versions ← wire.versions.mapM (convertEntry readers)
  let latestReleaseId ← MinecraftVersionId.new wire.latest.release
  let latestSnapshotId ← MinecraftVersionId.new wire.latest.snapshot
  let manifest : OfficialVersionManifest := ⟨latestReleaseId, latestSnapshotId, versions⟩
  if manifest.latestRelease.isNone ∨ manifest.latestSnapshot.isNone then
    .error (.invalidOfficialMetadata
      "latest version identifiers are absent from the manifest entries")
  else pure manifest

def parseSelectedVersionMetadata (bytes : Bytes) :
    Except MetadataError SelectedVersionMetadata := do
  let wire ← malformed (readers.metadataWire bytes)
  validateShort wire.assetIndex.id "asset-index ID" maxIdBytes
  match wire.mainClass with
  | some mainClass => validateShort mainClass "main class" 512
  | none => pure ()
  let id ← MinecraftVersionId.new wire.id
  let versionKind ← kind wire.kind
  let assetUrl ← httpsUrl readers wire.assetIndex.url
  let assetSha1 ← Sha1Digest.fromStr wire.assetIndex.sha1
  let clientUrl ← httpsUrl readers wire.client.url
  let clientSha1 ← Sha1Digest.fromStr wire.client.sha1
  let inheritsFrom ← wire.inheritsFrom.mapM MinecraftVersionId.new
  pure
    { id
      kind := versionKind
      assetIndex :=
        ⟨wire.assetIndex.id, assetUrl, assetSha1, wire.assetIndex.size, wire.assetIndex.totalSize⟩
      client := ⟨clientUrl, clientSha1, wire.client.size⟩
      javaMajorVersion := wire.javaMajorVersion
      mainClass := wire.mainClass
      inheritsFrom }

end Cubic.Version
