import Cubic.Resources.Cache

/-!
# The bootstrap of an official version (`OfficialVersionBootstrap::bootstrap`)
-/

namespace Cubic.Resources

set_option autoImplicit false

open Version Mut

structure AssetObjectDescriptor where
  logicalName : String
  sha1 : Sha1Digest
  size : UInt64
  deriving DecidableEq

/-- `VerifiedAssetIndex`, by logical name -/
abbrev VerifiedAssetIndex := OrderedMap String AssetObjectDescriptor

inductive BootstrapSource where
  | network
  | cache
  | mixed
  deriving DecidableEq

structure BootstrapResult where
  metadata : SelectedVersionMetadata
  assets : VerifiedAssetIndex
  source : BootstrapSource
  clientJarCached : Bool
  deriving DecidableEq

/-! ### The asset index -/

def maxAssets : Nat := 200000

def assetDescriptor (logicalName : String) (value : AssetWire) :
    Except ResourceError AssetObjectDescriptor :=
  if logicalName.isEmpty ∨ logicalName.utf8ByteSize > 1024 ∨ logicalName.toList.any isControl then
    .error (.invalidAssetIndex "logical asset name is empty, overlong, or contains controls")
  else do
    let sha1 ← (Sha1Digest.fromStr value.hash).mapError .version
    pure ⟨logicalName, sha1, value.size⟩

def insertAssets :
    VerifiedAssetIndex → List (String × AssetWire) → Except ResourceError VerifiedAssetIndex
  | objects, [] => .ok objects
  | objects, (logicalName, value) :: rest => do
    let descriptor ← assetDescriptor logicalName value
    insertAssets (objects.insert logicalName descriptor) rest

section
variable (env : Environment)

def parseAssetIndex (bytes : Bytes) : Except ResourceError VerifiedAssetIndex := do
  let objects ← (env.assetIndexWire bytes).mapError fun error => .invalidAssetIndex error.text
  if objects.size > maxAssets then .error (.invalidAssetIndex "asset count exceeds 200000")
  else insertAssets OrderedMap.empty objects.entries

/-! ### The bootstrap -/

def officialManifestUrl : Url where
  scheme := "https"
  username := ""
  password := none
  hostStr := some "piston-meta.mojang.com"
  port := none
  path := "/mc/game/version_manifest_v2.json"
  queryAndFragment := ""

/-- The manifest and whether it comes from the network. -/
def loadManifest : CacheM (OfficialVersionManifest × Bool) := do
  let disk ← get
  let cached := do
    let bytes ← readBounded disk .manifest maxManifestBytes
    (parseOfficialManifest env.toReaders bytes).mapError .version
  match cached with
  | .ok manifest => pure (manifest, false)
  | .error _ => do
    let bytes ← ofExcept
      ((fetchBytes env officialManifestUrl maxManifestBytes "version manifest fetch").mapError
        fun error => .offlineUnavailable "version manifest" error.toString)
    let manifest ← ofExcept ((parseOfficialManifest env.toReaders bytes).mapError .version)
    atomicWrite env .manifest bytes
    pure (manifest, true)

/-- The entry of the version, at an address that is trusted. -/
def selectEntry (manifest : OfficialVersionManifest) (requested : MinecraftVersionId) :
    Except ResourceError OfficialVersionEntry :=
  match manifest.find requested with
  | none => .error (.versionNotFound requested.text)
  | some entry => do
    (validateUrl entry.metadataUrl .metadata).mapError .fetch
    pure entry

/-- The metadata, of the version and with what it points at trusted and within bounds. -/
def selectMetadata (bytes : Bytes) (requested : MinecraftVersionId) :
    Except ResourceError SelectedVersionMetadata := do
  let metadata ← (parseSelectedVersionMetadata env.toReaders bytes).mapError .version
  if metadata.id ≠ requested then
    .error (.invalidAssetIndex "selected metadata version ID does not match the request")
  else do
    (validateUrl metadata.assetIndex.url .metadata).mapError .fetch
    (validateUrl metadata.client.url .artifact).mapError .fetch
    if metadata.client.size.toNat > maxClientJarBytes then
      .error (.fetch (.oversized "client JAR" maxClientJarBytes))
    else pure metadata

def BootstrapSource.ofCount : Nat → BootstrapSource
  | 0 => cache
  | 3 => network
  | _ => mixed

def bootstrap (requested : MinecraftVersionId) : CacheM BootstrapResult := do
  ensureLayout
  let (manifest, manifestNetwork) ← loadManifest env
  let entry ← ofExcept (selectEntry manifest requested)
  createDirAll "create version cache directory" (.versionDir requested)
  let (metadataBytes, metadataNetwork) ← loadOrFetchBytes env (.metadata requested)
    entry.metadataUrl maxVersionMetadataBytes (some entry.metadataSha1) none "version metadata"
  let metadata ← ofExcept (selectMetadata env metadataBytes requested)
  let (assetBytes, assetNetwork) ← loadOrFetchBytes env (.assetIndex requested)
    metadata.assetIndex.url maxAssetIndexBytes (some metadata.assetIndex.sha1)
    (some metadata.assetIndex.size.toNat) "asset index"
  let assets ← ofExcept (parseAssetIndex env assetBytes)
  let disk ← get
  let clientJarCached :=
    match verifyFile env disk (.clientJar requested) metadata.client.size.toNat
      metadata.client.sha1 with
    | .ok cached => cached
    | .error _ => false
  let networkCount := manifestNetwork.toNat + metadataNetwork.toNat + assetNetwork.toNat
  pure ⟨metadata, assets, .ofCount networkCount, clientJarCached⟩

end

end Cubic.Resources
