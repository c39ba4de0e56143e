import Cubic.Lib.Mut
import Cubic.Lib.OrderedMap
import Cubic.Version.Official
import Mathlib.Logic.Function.Basic

/-!
# The cache directory (`cubic-resources`, `lib.rs`)

What the reads and writes of the cache do to its directory. An operation of the file system
fails only because of what stands at the path it is given.
-/

namespace Cubic.Resources

set_option autoImplicit false

open Version Mut

def maxManifestBytes : Nat := 2 * 1024 * 1024
def maxVersionMetadataBytes : Nat := 4 * 1024 * 1024
def maxAssetIndexBytes : Nat := 16 * 1024 * 1024
def maxClientJarBytes : Nat := 1024 * 1024 * 1024

/-- The paths below the root of the cache that a bootstrap visits. -/
inductive CachePath where
  | manifests
  | versions
  | objects
  | versionDir (id : MinecraftVersionId)
  | manifest
  | metadata (id : MinecraftVersionId)
  | assetIndex (id : MinecraftVersionId)
  | clientJar (id : MinecraftVersionId)
  | part (target : CachePath) (processId sequence : Nat)
  deriving DecidableEq

inductive LinkTarget where
  | missing
  | file
  | directory
  deriving DecidableEq

inductive Node where
  | file (bytes : Bytes)
  | directory
  | symlink (target : LinkTarget)
  deriving DecidableEq

/-- The cache directory and the counter `TEMP_SEQUENCE`. -/
structure Disk where
  nodes : CachePath → Option Node
  sequence : Nat

inductive IoErrorKind where
  | notFound
  | alreadyExists
  | isADirectory
  deriving DecidableEq

/-- The `ResourceError`s a fetch ends with. -/
inductive FetchError where
  | untrustedUrl (url : String)
  | http (operation source : String)
  | httpStatus (operation : String) (status : Nat)
  | oversized (context : String) (maximum : Nat)
  deriving DecidableEq

namespace FetchError

def toString : FetchError → String
  | untrustedUrl url => "untrusted official-resource URL: " ++ url
  | http operation source => "HTTP transport failed during " ++ operation ++ ": " ++ source
  | httpStatus operation status =>
    "official service returned HTTP " ++ status.repr ++ " during " ++ operation
  | oversized context maximum =>
    context ++ " exceeds the " ++ maximum.repr ++ "-byte limit"

end FetchError

inductive ResourceError where
  | fetch (error : FetchError)
  | version (error : MetadataError)
  | versionNotFound (version : String)
  | sizeMismatch (context : String) (declared actual : Nat)
  | hashMismatch (context : String)
  | invalidAssetIndex (reason : String)
  | io (operation : String) (path : CachePath) (source : IoErrorKind)
  | cacheSymlink (path : CachePath)
  | offlineUnavailable (artifact reason : String)
  deriving DecidableEq

abbrev CacheM := Mut Disk ResourceError

/-! ### The file system -/

namespace Disk

def put (disk : Disk) (path : CachePath) (node : Option Node) : Disk :=
  { disk with nodes := Function.update disk.nodes path node }

@[simp] theorem put_nodes_self (disk : Disk) (path : CachePath) (node : Option Node) :
    (disk.put path node).nodes path = node :=
  Function.update_self ..

theorem put_nodes_of_ne {disk : Disk} {path other : CachePath} {node : Option Node}
    (h : other ≠ path) : (disk.put path node).nodes other = disk.nodes other :=
  Function.update_of_ne h ..

@[simp] theorem put_sequence (disk : Disk) (path : CachePath) (node : Option Node) :
    (disk.put path node).sequence = disk.sequence := rfl

/-- `Path::exists`, which follows a link -/
def pathExists (disk : Disk) (path : CachePath) : Bool :=
  match disk.nodes path with
  | none => false
  | some (.symlink .missing) => false
  | some _ => true

end Disk

/-- `fs::create_dir_all` below a directory that is there -/
def createDirAll (operation : String) (path : CachePath) : CacheM Unit := do
  let disk ← get
  match disk.nodes path with
  | none => set (disk.put path (some .directory))
  | some .directory => pure ()
  | some (.symlink .directory) => pure ()
  | some _ => fail (.io operation path .alreadyExists)

/-- `fs::remove_file` -/
def removeFile (operation : String) (path : CachePath) : CacheM Unit := do
  let disk ← get
  match disk.nodes path with
  | none => fail (.io operation path .notFound)
  | some .directory => fail (.io operation path .isADirectory)
  | some _ => set (disk.put path none)

/-- `create_new` and the bytes written after it -/
def writeNew (path : CachePath) (bytes : Bytes) : CacheM Unit := do
  let disk ← get
  match disk.nodes path with
  | none => set (disk.put path (some (.file bytes)))
  | some _ => fail (.io "create temporary cache file" path .alreadyExists)

/-- `fs::rename` of a file; if it fails the file is removed. -/
def promote (temporary path : CachePath) : CacheM Unit := do
  let disk ← get
  match disk.nodes path with
  | some .directory => do
    set (disk.put temporary none)
    fail (.io "promote cached metadata" path .isADirectory)
  | _ => set ((disk.put path (disk.nodes temporary)).put temporary none)

def readBounded (disk : Disk) (path : CachePath) (maximum : Nat) : Except ResourceError Bytes :=
  match disk.nodes path with
  | none => .error (.io "inspect cached metadata" path .notFound)
  | some (.symlink _) => .error (.cacheSymlink path)
  | some .directory => .error (.io "read cached metadata" path .isADirectory)
  | some (.file bytes) =>
    if bytes.length > maximum then .error (.fetch (.oversized "cached metadata" maximum))
    else .ok bytes

def CachePath.parent : CachePath → Option CachePath
  | .manifest => some .manifests
  | .metadata id => some (.versionDir id)
  | .assetIndex id => some (.versionDir id)
  | .clientJar id => some (.versionDir id)
  | .versionDir _ => some .versions
  | .part target _ _ => target.parent
  | .manifests => none
  | .versions => none
  | .objects => none

def ensureLayout : CacheM Unit := do
  createDirAll "create cache directory" .manifests
  createDirAll "create cache directory" .versions
  createDirAll "create cache directory" .objects

/-! ### The documents -/

/-- What a server answers: a status, the declared length, and the body up to where the
transfer ends or breaks off. -/
inductive Response where
  | unreachable (source : String)
  | answered (status : Nat) (contentLength : Option Nat) (body : Bytes) (broken : Option String)

structure AssetWire where
  hash : String
  size : UInt64

/-- What a bootstrap runs with. -/
structure Environment extends Readers where
  assetIndexWire : Bytes → Except JsonError (OrderedMap String AssetWire)
  sha1 : Bytes → Sha1Digest
  server : Url → Response
  processId : Nat

inductive ResourceKind where
  | metadata
  | artifact
  deriving DecidableEq

def ResourceKind.allowed : ResourceKind → List String
  | metadata => ["piston-meta.mojang.com", "launchermeta.mojang.com"]
  | artifact =>
    ["piston-data.mojang.com", "launcher.mojang.com", "resources.download.minecraft.net"]

def sanitizedUrl (url : Url) : String :=
  url.scheme ++ "://" ++ url.hostStr.getD "<missing>" ++ url.path

def validateUrl (url : Url) (resourceKind : ResourceKind) : Except FetchError Unit :=
  if url.scheme ≠ "https" ∨ url.port.isSome ∨ url.username ≠ "" ∨ url.password.isSome ∨
      ¬ url.hostStr.any resourceKind.allowed.contains then
    .error (.untrustedUrl (sanitizedUrl url))
  else .ok ()

section
variable (env : Environment)

/-- `Fetcher::bytes` -/
def fetchBytes (url : Url) (limit : Nat) (operation : String) : Except FetchError Bytes := do
  validateUrl url .metadata
  match env.server url with
  | .unreachable source => .error (.http operation source)
  | .answered status contentLength body broken =>
    if ¬ (200 ≤ status ∧ status < 300) then .error (.httpStatus operation status)
    else if contentLength.any (limit < ·) then .error (.oversized operation limit)
    else if limit < body.length then .error (.oversized operation limit)
    else match broken with
      | some source => .error (.http operation source)
      | none => .ok body

def verifyBytes (bytes : Bytes) (size : Option Nat) (sha1 : Option Sha1Digest)
    (context : String) : Except ResourceError Unit :=
  match size.filter (· ≠ bytes.length) with
  | some declared => .error (.sizeMismatch context declared bytes.length)
  | none =>
    if sha1.any (env.sha1 bytes ≠ ·) then .error (.hashMismatch context) else .ok ()

def verifyFile (disk : Disk) (path : CachePath) (size : Nat) (sha1 : Sha1Digest) :
    Except ResourceError Bool :=
  match disk.nodes path with
  | some (.symlink .missing) => .ok false
  | some (.symlink _) => .error (.cacheSymlink path)
  | some (.file bytes) => .ok (bytes.length = size ∧ env.sha1 bytes = sha1)
  | some .directory => .ok false
  | none => .ok false

def temporaryPath (path : CachePath) : CacheM CachePath := do
  let disk ← get
  set { disk with sequence := disk.sequence + 1 }
  pure (.part path env.processId disk.sequence)

def atomicWrite (path : CachePath) (bytes : Bytes) : CacheM Unit := do
  match path.parent with
  | some parent => createDirAll "create metadata directory" parent
  | none => pure ()
  let temporary ← temporaryPath env path
  writeNew temporary bytes
  let disk ← get
  if disk.pathExists path then removeFile "replace cached metadata" path else pure ()
  promote temporary path

/-- The bytes and whether they come from the network. -/
def loadOrFetchBytes (path : CachePath) (url : Url) (limit : Nat) (sha1 : Option Sha1Digest)
    (size : Option Nat) (context : String) : CacheM (Bytes × Bool) := do
  let disk ← get
  let cached := do
    let bytes ← readBounded disk path limit
    verifyBytes env bytes size sha1 context
    pure bytes
  match cached with
  | .ok bytes => pure (bytes, false)
  | .error _ => do
    let bytes ← ofExcept ((fetchBytes env url limit context).mapError .fetch)
    ofExcept (verifyBytes env bytes size sha1 context)
    atomicWrite env path bytes
    pure (bytes, true)

end

end Cubic.Resources
