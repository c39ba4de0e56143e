import Cubic.Resources.Served
import Mathlib.Data.List.Nodup

/-!
# The cache does not change what a bootstrap returns

A bootstrap computes what is served whatever the cache holds, except that a manifest once
cached stands for the served one.
-/

namespace Cubic.Resources

set_option autoImplicit false

open Version Mut

section
variable {env : Environment} {requested : MinecraftVersionId} {disk : Disk}

/-! ### Fetched and cached bytes -/

theorem served_of_fetchBytes {url : Url} {limit : Nat} {operation : String} {bytes : Bytes}
    (h : fetchBytes env url limit operation = .ok bytes) : Served env bytes := by
  obtain ⟨⟨⟩, -, h⟩ := except_bind_eq_ok.mp h
  cases hanswer : env.server url with
  | unreachable source =>
    rw [hanswer] at h
    cases h
  | answered status contentLength body broken =>
    rw [hanswer] at h
    dsimp only at h
    split at h
    · cases h
    · split at h
      · cases h
      · split at h
        · cases h
        · cases broken with
          | some source => cases h
          | none =>
            cases h
            exact ⟨url, status, contentLength, none, hanswer⟩

/-- A whole document within the limit is what the fetch returns. -/
theorem fetchBytes_of_answered {url : Url} {limit status : Nat} {contentLength : Option Nat}
    {body : Bytes} (operation : String) (htrusted : validateUrl url .metadata = .ok ())
    (hanswer : env.server url = .answered status contentLength body none)
    (hlow : 200 ≤ status) (hhigh : status < 300) (hdeclared : ∀ n ∈ contentLength, n = body.length)
    (hlimit : body.length ≤ limit) : fetchBytes env url limit operation = .ok body := by
  have hlength : ¬ contentLength.any (limit < ·) = true := by
    intro h
    obtain ⟨n, hn, hlt⟩ := (Option.any_eq_true ..).mp h
    have heq := hdeclared n hn
    have hbelow := of_decide_eq_true hlt
    omega
  refine except_bind_eq_ok.mpr ⟨(), htrusted, ?_⟩
  rw [hanswer]
  dsimp only
  rw [if_neg (not_not.mpr ⟨hlow, hhigh⟩), if_neg hlength, if_neg (Nat.not_lt.mpr hlimit)]

theorem readBounded_eq_ok {path : CachePath} {maximum : Nat} {bytes : Bytes}
    (h : readBounded disk path maximum = .ok bytes) :
    disk.nodes path = some (.file bytes) ∧ bytes.length ≤ maximum := by
  unfold readBounded at h
  split at h
  · cases h
  · cases h
  · cases h
  · rename_i content hfile
    split at h
    · cases h
    · rename_i hsize
      cases h
      exact ⟨hfile, Nat.le_of_not_lt hsize⟩

theorem sha1_of_verifyBytes {bytes : Bytes} {size : Option Nat} {sha1 : Sha1Digest}
    {context : String} (h : verifyBytes env bytes size (some sha1) context = .ok ()) :
    env.sha1 bytes = sha1 := by
  unfold verifyBytes at h
  split at h
  · cases h
  · split at h
    · cases h
    · rename_i hsame
      simpa using hsame

/-- What the cache holds under a digest is what the server sends. -/
theorem fetchVerified_of_cached {path : CachePath} {url : Url} {limit : Nat} {sha1 : Sha1Digest}
    {size : Option Nat} {context : String} {bytes : Bytes} (hfree : CollisionFree env disk)
    (htrusted : validateUrl url .metadata = .ok ()) (hserves : Serves env url sha1)
    (hread : readBounded disk path limit = .ok bytes)
    (hverified : verifyBytes env bytes size (some sha1) context = .ok ()) :
    fetchVerified env url limit sha1 size context = .ok bytes := by
  obtain ⟨hfile, hsize⟩ := readBounded_eq_ok hread
  obtain ⟨status, contentLength, body, hanswer, hlow, hhigh, hdeclared, hdigest⟩ :=
    hserves htrusted
  have hsame : bytes = body := hfree bytes body (.inl ⟨path, hfile⟩)
    (.inr ⟨url, status, contentLength, none, hanswer⟩)
    ((sha1_of_verifyBytes hverified).trans hdigest.symm)
  subst hsame
  have hfetched := fetchBytes_of_answered context htrusted hanswer hlow hhigh hdeclared hsize
  unfold fetchVerified
  rw [hfetched]
  refine except_bind_eq_ok.mpr ⟨bytes, rfl, ?_⟩
  rw [hverified]
  rfl

/-! ### The bootstrap computes what is served -/

theorem fetched_simulates {url : Url} {limit : Nat} {operation : String}
    (wrap : FetchError → ResourceError) (h : Sound env requested disk) :
    wp (ofExcept ((fetchBytes env url limit operation).mapError wrap))
      (Post.simulates ((fetchBytes env url limit operation).mapError wrap)
        (fun bytes content => bytes = content ∧ Served env content) (Sound env requested)) disk := by
  refine wp_simulates_ofExcept h ?_ fun _ => id
  exact fun bytes hbytes => ⟨bytes, hbytes, rfl, served_of_fetchBytes (mapError_eq_ok.mp hbytes)⟩

theorem loadOrFetchBytes_simulates {path : CachePath} {url : Url} {limit : Nat}
    {sha1 : Sha1Digest} {size : Option Nat} {context : String} (h : Sound env requested disk)
    (hpath : path ∈ cacheFiles requested) (htrusted : validateUrl url .metadata = .ok ())
    (hserves : Serves env url sha1) :
    wp (loadOrFetchBytes env path url limit (some sha1) size context)
      (Post.simulates (fetchVerified env url limit sha1 size context)
        (fun loaded bytes => loaded.1 = bytes) (Sound env requested)) disk := by
  unfold loadOrFetchBytes
  rw [wp_bind, wp_get]
  dsimp only
  split
  · rename_i bytes hcached
    obtain ⟨content, hread, hcached⟩ := except_bind_eq_ok.mp hcached
    obtain ⟨⟨⟩, hverified, hcontent⟩ := except_bind_eq_ok.mp hcached
    cases hcontent
    exact ⟨⟨bytes, fetchVerified_of_cached h.collisionFree htrusted hserves hread hverified, rfl⟩, h⟩
  · unfold fetchVerified
    refine wp_simulates_bind (fetched_simulates .fetch h) ?_
    rintro bytes _ t - ⟨rfl, hserved⟩ ht
    refine wp_simulates_bind (R := fun _ _ => True) (I := Sound env requested) ?_ ?_
    · exact wp_simulates_ofExcept ht (fun u hu => ⟨u, hu, trivial⟩) fun _ => id
    · rintro - - u - - hu
      refine wp_surely_bind (atomicWrite_surely hu hpath hserved) ?_
      exact fun _ v hv => ⟨⟨bytes, rfl, rfl⟩, hv⟩

theorem loadManifest_simulates (h : Sound env requested disk) (hupdated : UpToDate env requested disk) :
    wp (loadManifest env) (Post.simulates (fetchManifest env)
      (fun loaded manifest => AgreeOn requested loaded.1 manifest) (Sound env requested)) disk := by
  have hmember : CachePath.manifest ∈ cacheFiles requested := by simp [cacheFiles]
  unfold loadManifest
  rw [wp_bind, wp_get]
  dsimp only
  split
  · rename_i manifest hcached
    obtain ⟨current, hcurrent, hagree⟩ := hupdated manifest hcached
    exact ⟨⟨current, hcurrent, hagree⟩, h⟩
  · unfold fetchManifest
    refine wp_simulates_bind (fetched_simulates _ h) ?_
    rintro bytes _ t - ⟨rfl, hserved⟩ ht
    cases hparse : parseOfficialManifest env.toReaders bytes with
    | error e => exact rfl
    | ok manifest =>
      change wp (atomicWrite env .manifest bytes >>= fun _ => pure (manifest, true)) _ t
      refine wp_surely_bind (atomicWrite_surely ht hmember hserved) ?_
      exact fun _ v hv => ⟨⟨manifest, rfl, rfl⟩, hv⟩

theorem ensureLayout_surely (h : Sound env requested disk) :
    wp ensureLayout (Post.surely fun t => Sound env requested t ∧
      t.nodes .manifest = disk.nodes .manifest) disk := by
  have hmanifest : CachePath.manifest ∉ directories requested := by simp [directories]
  unfold ensureLayout
  refine wp_surely_bind (createDirAll_surely _ h (by simp [directories])) ?_
  intro _ t ht
  refine wp_surely_bind (createDirAll_surely _ ht.1 (by simp [directories])) ?_
  intro _ u hu
  refine wp_mono (createDirAll_surely _ hu.1 (by simp [directories])) ?_ (fun _ _ => id) id
  intro _ v hv
  exact ⟨hv.1, (hv.2 _ hmanifest).trans ((hu.2 _ hmanifest).trans (ht.2 _ hmanifest))⟩

theorem cachedManifest_congr {disk' : Disk}
    (hmanifest : disk'.nodes .manifest = disk.nodes .manifest) :
    cachedManifest env disk' = cachedManifest env disk := by
  unfold cachedManifest readBounded
  rw [hmanifest]

theorem UpToDate.congr {disk' : Disk} (h : UpToDate env requested disk)
    (hmanifest : disk'.nodes .manifest = disk.nodes .manifest) : UpToDate env requested disk' :=
  fun manifest hcached => h manifest ((cachedManifest_congr hmanifest).symm.trans hcached)

theorem loadManifest_of_cached {manifest : OfficialVersionManifest}
    (h : cachedManifest env disk = .ok manifest) :
    loadManifest env disk = .ok (manifest, false) disk := by
  unfold cachedManifest at h
  unfold loadManifest
  rw [get_bind]
  simp only [h]
  rfl

/-- Manifests that agree on a version select the same document, or fail alike. -/
theorem selectEntry_simulates {manifest current : OfficialVersionManifest}
    (hagree : AgreeOn requested manifest current) (h : Sound env requested disk) :
    wp (ofExcept (selectEntry manifest requested))
      (Post.simulates (selectEntry current requested) (fun entry entry' =>
        OfficialVersionEntry.source entry = OfficialVersionEntry.source entry' ∧
          entry' ∈ current.versions ∧ validateUrl entry'.metadataUrl .metadata = .ok ())
        (Sound env requested)) disk := by
  unfold AgreeOn at hagree
  unfold selectEntry
  cases hfound : current.find requested with
  | none =>
    rw [hfound, Option.map_none, Option.map_eq_none_iff] at hagree
    rw [hagree]
    exact rfl
  | some entry' =>
    rw [hfound, Option.map_some, Option.map_eq_some_iff] at hagree
    obtain ⟨entry, hentry, hsource⟩ := hagree
    have hurl : entry.metadataUrl = entry'.metadataUrl := congrArg Prod.fst hsource
    rw [hentry]
    dsimp only
    rw [hurl]
    cases htrusted : validateUrl entry'.metadataUrl .metadata with
    | error e => exact rfl
    | ok u => exact ⟨⟨entry', rfl, hsource, List.mem_of_find?_eq_some hfound, htrusted⟩, h⟩

/-- The metadata selected was parsed from the bytes, and points to a trusted asset index. -/
theorem selectMetadata_eq_ok {bytes : Bytes} {metadata : SelectedVersionMetadata}
    (h : selectMetadata env bytes requested = .ok metadata) :
    parseSelectedVersionMetadata env.toReaders bytes = .ok metadata ∧
      validateUrl metadata.assetIndex.url .metadata = .ok () := by
  obtain ⟨parsed, hparsed, h⟩ := except_bind_eq_ok.mp h
  split at h
  · cases h
  · obtain ⟨⟨⟩, htrusted, h⟩ := except_bind_eq_ok.mp h
    obtain ⟨⟨⟩, -, h⟩ := except_bind_eq_ok.mp h
    split at h
    · cases h
    · cases h
      exact ⟨mapError_eq_ok.mp hparsed, mapError_eq_ok.mp htrusted⟩

/-- The documents of a bootstrap. -/
def BootstrapResult.documents (result : BootstrapResult) :
    SelectedVersionMetadata × VerifiedAssetIndex := (result.metadata, result.assets)

theorem bootstrap_simulates (hconsistent : Consistent env) (h : Sound env requested disk)
    (hupdated : UpToDate env requested disk) :
    wp (bootstrap env requested) (Post.simulates (served env requested)
      (fun result documents => result.documents = documents) (fun _ => True)) disk := by
  unfold bootstrap served
  refine wp_surely_bind (ensureLayout_surely h) ?_
  rintro - t ⟨ht, hmanifest⟩
  refine wp_simulates_bind (loadManifest_simulates ht (hupdated.congr hmanifest)) ?_
  rintro ⟨manifest, manifestNetwork⟩ current u hcurrent hagree hu
  refine wp_simulates_bind (selectEntry_simulates hagree hu) ?_
  rintro entry entry' v - ⟨hsource, hentry, htrusted⟩ hv
  have hurl : entry.metadataUrl = entry'.metadataUrl := congrArg Prod.fst hsource
  have hsha1 : entry.metadataSha1 = entry'.metadataSha1 := congrArg Prod.snd hsource
  rw [hurl, hsha1]
  refine wp_surely_bind (createDirAll_surely _ hv (by simp [directories])) ?_
  rintro - w ⟨hw, -⟩
  refine wp_simulates_bind (loadOrFetchBytes_simulates hw (by simp [cacheFiles]) htrusted
    (hconsistent.metadata hcurrent hentry)) ?_
  rintro ⟨metadataBytes, metadataNetwork⟩ _ x hbytes rfl hx
  refine wp_simulates_bind (R := Eq) (wp_simulates_ofExcept hx
    (fun metadata hmetadata => ⟨metadata, hmetadata, rfl⟩) fun _ => id) ?_
  rintro metadata _ y hmetadata rfl hy
  obtain ⟨hparsed, hassets⟩ := selectMetadata_eq_ok hmetadata
  refine wp_simulates_bind (loadOrFetchBytes_simulates hy (by simp [cacheFiles]) hassets
    (hconsistent.assetIndex hcurrent hentry hbytes hparsed)) ?_
  rintro ⟨assetBytes, assetNetwork⟩ _ z - rfl hz
  refine wp_simulates_bind (R := Eq) (I := fun _ => True) (wp_simulates_ofExcept trivial
    (fun assets hassets => ⟨assets, hassets, rfl⟩) fun _ => id) ?_
  rintro assets _ final - rfl -
  exact ⟨⟨_, rfl, rfl⟩, trivial⟩

/-! ### Transparency -/

/-- What a caller sees of the documents. -/
def returned (outcome : Outcome ResourceError Disk BootstrapResult) :
    Option (Except ResourceError (SelectedVersionMetadata × VerifiedAssetIndex)) :=
  outcome.result?.map (Except.map BootstrapResult.documents)

def Disk.emptied (disk : Disk) : Disk := { disk with nodes := fun _ => none }

theorem returned_eq_served (hconsistent : Consistent env) (h : Sound env requested disk)
    (hupdated : UpToDate env requested disk) :
    returned (bootstrap env requested disk) = some (served env requested) := by
  have hrun := bootstrap_simulates hconsistent h hupdated
  unfold wp at hrun
  cases hend : bootstrap env requested disk with
  | ok result t =>
    rw [hend] at hrun
    obtain ⟨⟨documents, hserved, hsame⟩, -⟩ := hrun
    rw [hserved, ← hsame]
    rfl
  | err e t =>
    rw [hend] at hrun
    have hserved : served env requested = .error e := hrun
    rw [hserved]
    rfl
  | panic =>
    rw [hend] at hrun
    exact hrun.elim

theorem Sound.emptied (h : Sound env requested disk) : Sound env requested disk.emptied := by
  refine ⟨⟨fun _ _ => List.mem_cons_self, ?_, fun _ _ _ => rfl⟩, ?_⟩
  · intro path _ hdirectory
    cases hdirectory
  · have hless : ∀ bytes, Known env disk.emptied bytes → Known env disk bytes := by
      rintro bytes (⟨path, hfile⟩ | hserved)
      · cases hfile
      · exact .inr hserved
    exact fun a b ha hb => h.collisionFree a b (hless a ha) (hless b hb)

theorem upToDate_emptied (disk : Disk) : UpToDate env requested disk.emptied := by
  intro manifest hcached
  cases hcached

/-- A version the cached manifest does not list is not found, whatever is served. -/
theorem returned_of_missing {manifest : OfficialVersionManifest} (h : Sound env requested disk)
    (hcached : cachedManifest env disk = .ok manifest) (hmissing : manifest.find requested = none) :
    returned (bootstrap env requested disk) = some (.error (.versionNotFound requested.text)) := by
  have hrun : wp (bootstrap env requested)
      ⟨fun _ _ => False, fun e _ => e = .versionNotFound requested.text, False⟩ disk := by
    unfold bootstrap
    refine wp_surely_bind (ensureLayout_surely h) ?_
    rintro - t ⟨-, hmanifest⟩
    unfold wp
    rw [bind_of_ok (loadManifest_of_cached ((cachedManifest_congr hmanifest).trans hcached))]
    have hfails : selectEntry manifest requested = .error (.versionNotFound requested.text) := by
      unfold selectEntry
      rw [hmissing]
    dsimp only
    rw [hfails]
    exact rfl
  unfold wp at hrun
  cases hend : bootstrap env requested disk with
  | ok result t =>
    rw [hend] at hrun
    exact hrun.elim
  | err e t =>
    rw [hend] at hrun
    have heq : e = .versionNotFound requested.text := hrun
    rw [heq]
    rfl
  | panic =>
    rw [hend] at hrun
    exact hrun.elim

end

/-! ### A release after the manifest was cached -/

namespace Release

@[irreducible] def utf8 (text : String) : Bytes := text.toUTF8.data.toList

def quoted (text : String) : Bytes := utf8 "\"" ++ (utf8 text ++ utf8 "\"")

def field (name : String) (value : Bytes) : Bytes := quoted name ++ (utf8 ":" ++ value)

def separated : List Bytes → Bytes
  | [] => []
  | [value] => value
  | value :: rest => value ++ (utf8 "," ++ separated rest)

def object (fields : List Bytes) : Bytes := utf8 "\x7b" ++ (separated fields ++ utf8 "\x7d")

def time : String := "2024-01-01T00:00:00Z"

def released : OffsetDateTime := ⟨1704067200000000000, 0⟩

def clientSha1 : String := "d2a04d71301a8915217dd5faf81d12cffd6cd958"
def assetsSha1 : String := "62ea787c1f800c091b98678b050453a5ae59d7bc"

def metadataSha1 (id : String) : String :=
  if id = "1" then "cf1e5524508f8acfd479edd711603ee43751fbe1"
  else "d5fbd18aa1c27584f8ae319fa04f204f63c39102"

def metaPath (name : String) : String := "https://piston-meta.mojang.com/" ++ name

def metaUrl (name : String) : Url where
  scheme := "https"
  username := ""
  password := none
  hostStr := some "piston-meta.mojang.com"
  port := none
  path := "/" ++ name
  queryAndFragment := ""

def clientPath : String := "https://piston-data.mojang.com/client.jar"

def clientUrl : Url := { metaUrl "client.jar" with hostStr := some "piston-data.mojang.com" }

def entryText (id : String) : Bytes :=
  object [field "id" (quoted id), field "type" (quoted "release"),
    field "url" (quoted (metaPath (id ++ ".json"))), field "sha1" (quoted (metadataSha1 id)),
    field "time" (quoted time), field "releaseTime" (quoted time)]

def manifestText (latest : String) (ids : List String) : Bytes :=
  object [field "latest" (object [field "release" (quoted latest), field "snapshot" (quoted latest)]),
    field "versions" (utf8 "[" ++ (separated (ids.map entryText) ++ utf8 "]"))]

def metadataText (id : String) : Bytes :=
  object [field "id" (quoted id), field "type" (quoted "release"),
    field "assetIndex" (object [field "id" (quoted id), field "url" (quoted (metaPath "assets.json")),
      field "sha1" (quoted assetsSha1), field "size" (utf8 "14")]),
    field "downloads" (object [field "client" (object [field "url" (quoted clientPath),
      field "sha1" (quoted clientSha1), field "size" (utf8 "6")])])]

def assetsText : Bytes := object [field "objects" (object [])]

def manifestWire (latest : String) (ids : List String) : ManifestWire :=
  ⟨⟨latest, latest⟩, ids.map fun id =>
    ⟨id, "release", metaPath (id ++ ".json"), metadataSha1 id, time, time, none⟩⟩

def metadataWire (id : String) : MetadataWire where
  id
  kind := "release"
  assetIndex := ⟨id, metaPath "assets.json", assetsSha1, 14, none⟩
  client := ⟨clientPath, clientSha1, 6⟩
  javaMajorVersion := none
  mainClass := none
  inheritsFrom := none

def digest (hex : String) : Sha1Digest := (Sha1Digest.fromStr hex).toOption.getD ⟨.replicate 20 0⟩

theorem fromStr_digest {hex : String} (hsize : hex.utf8ByteSize = 40)
    (hdigits : hex.toList.all isAsciiHexdigit = true) : Sha1Digest.fromStr hex = .ok (digest hex) := by
  have hvalid : ¬ (hex.utf8ByteSize ≠ 40 ∨ ¬ hex.toList.all isAsciiHexdigit = true) := by
    simp only [hsize, hdigits, ne_eq, not_true_eq_false, or_self, not_false_eq_true]
  unfold digest Sha1Digest.fromStr
  rw [if_neg hvalid]
  rfl

theorem fromStr_metadataSha1 {id : String} (h : id ∈ ["2", "1"]) :
    Sha1Digest.fromStr (metadataSha1 id) = .ok (digest (metadataSha1 id)) := by
  simp only [List.mem_cons, List.not_mem_nil, or_false] at h
  rcases h with rfl | rfl
  all_goals exact fromStr_digest (by decide) (by decide)

def bodies : List (Url × Bytes) :=
  [(officialManifestUrl, manifestText "2" ["2", "1"]), (metaUrl "1.json", metadataText "1"),
    (metaUrl "2.json", metadataText "2"), (metaUrl "assets.json", assetsText)]

def digests : List (Bytes × String) :=
  [([], "da39a3ee5e6b4b0d3255bfef95601890afd80709"), (assetsText, assetsSha1),
    (metadataText "1", metadataSha1 "1"), (metadataText "2", metadataSha1 "2"),
    (manifestText "1" ["1"], "fe157c66dbdeb887c9e275950ef8337936173544"),
    (manifestText "2" ["2", "1"], "9aa1ee9e5a2ffe0a5831a91619570d696b5000c3")]

def lookup {α : Type} (rows : List (Bytes × α)) (bytes : Bytes) : Except JsonError α :=
  match rows.find? fun row => row.1 = bytes with
  | some row => .ok row.2
  | none => .error ⟨1, 1, "expected value at line 1 column 1"⟩

def manifests : List (Bytes × ManifestWire) :=
  [(manifestText "1" ["1"], manifestWire "1" ["1"]),
    (manifestText "2" ["2", "1"], manifestWire "2" ["2", "1"])]

def selected : List (Bytes × MetadataWire) :=
  [(metadataText "2", metadataWire "2"), (metadataText "1", metadataWire "1")]

/-- No row hides a later one, no two of the digests start with the same byte, and the bodies are
short ones from trusted hosts. -/
theorem rows_checked : ((bodies.map Prod.fst).Nodup ∧ (digests.map Prod.fst).Nodup ∧
    (manifests.map Prod.fst).Nodup ∧ (selected.map Prod.fst).Nodup ∧
      (digests.map fun row => (digest row.2).bytes[0]).Nodup) ∧
    ∀ body ∈ bodies, validateUrl body.1 .metadata = .ok () ∧ body.2.length ≤ 512 := by
  decide +kernel

def environment : Environment where
  manifestWire := lookup manifests
  metadataWire := lookup selected
  assetIndexWire := lookup [(assetsText, OrderedMap.empty)]
  parseUrl text := if text = clientPath then some clientUrl
    else (["1.json", "2.json", "assets.json"].find? fun name => metaPath name = text).map metaUrl
  parseRfc3339 text := if text = time then some released else none
  sha1 bytes := (lookup digests bytes).toOption.elim ⟨.replicate 20 0⟩ digest
  server url := match bodies.find? fun body => body.1 = url with
    | some body => .answered 200 (some body.2.length) body.2 none
    | none => .answered 404 none [] none
  processId := 1

/-- The texts of the documents pass their checks. -/
theorem texts_checked :
    (∀ name ∈ ["1.json", "2.json", "assets.json"],
      httpsUrl environment.toReaders (metaPath name) = .ok (metaUrl name)) ∧
    httpsUrl environment.toReaders clientPath = .ok clientUrl ∧
    validateShort "release" "version type" 64 = .ok () ∧
    validateShort time "timestamp" maxTimestampBytes = .ok () ∧
    (∀ id ∈ ["2", "1"], validateShort id "asset-index ID" maxIdBytes = .ok ()) ∧
    (manifestText "1" ["1"]).length ≤ maxManifestBytes ∧ assetsText.length = 14 ∧
    parseAssetIndex environment assetsText = .ok OrderedMap.empty := by
  decide +kernel

theorem kind_release : kind "release" = .ok .release := by
  obtain ⟨-, -, hkind, -⟩ := texts_checked
  exact except_bind_eq_ok.mpr ⟨(), hkind, congrArg Except.ok (if_pos rfl)⟩

/-- The first manifest, cached before the second version came out. -/
def cache : Disk :=
  { nodes := fun path => if path = .manifest then some (.file (manifestText "1" ["1"]))
      else none
    sequence := 0 }

def one : MinecraftVersionId := ⟨"1", by decide +kernel⟩
def two : MinecraftVersionId := ⟨"2", by decide +kernel⟩

def entry (id : MinecraftVersionId) : OfficialVersionEntry where
  id
  kind := .release
  metadataUrl := metaUrl (id.text ++ ".json")
  metadataSha1 := digest (metadataSha1 id.text)
  releasedAt := released
  updatedAt := released
  complianceLevel := none

def metadata (id : MinecraftVersionId) : SelectedVersionMetadata where
  id
  kind := .release
  assetIndex := ⟨id.text, metaUrl "assets.json", digest assetsSha1, 14, none⟩
  client := ⟨clientUrl, digest clientSha1, 6⟩
  javaMajorVersion := none
  mainClass := none
  inheritsFrom := none

/-! #### What the environment answers -/

theorem lookup_of_mem {α : Type} {rows : List (Bytes × α)} {bytes : Bytes} {value : α}
    (hdistinct : (rows.map Prod.fst).Nodup) (h : (bytes, value) ∈ rows) :
    lookup rows bytes = .ok value := by
  unfold lookup
  cases hfind : rows.find? fun row => row.1 = bytes with
  | none => exact absurd (decide_eq_true rfl) (List.find?_eq_none.mp hfind _ h)
  | some row =>
    have hkey : row.1 = bytes := by simpa using List.find?_some hfind
    have hrow := List.inj_on_of_nodup_map hdistinct (List.mem_of_find?_eq_some hfind) h hkey
    rw [hrow]

theorem sha1_environment : ∀ row ∈ digests, environment.sha1 row.1 = digest row.2 := by
  intro row hrow
  unfold environment
  dsimp only
  rw [lookup_of_mem rows_checked.1.2.1 hrow]
  rfl

theorem server_environment : ∀ body ∈ bodies,
    environment.server body.1 = .answered 200 (some body.2.length) body.2 none := by
  intro body hbody
  unfold environment
  dsimp only
  split
  · rename_i other hfind
    have hkey : other.1 = body.1 := by simpa using List.find?_some hfind
    rw [List.inj_on_of_nodup_map rows_checked.1.1 (List.mem_of_find?_eq_some hfind) hbody hkey]
  · rename_i hfind
    exact absurd (decide_eq_true rfl) (List.find?_eq_none.mp hfind _ hbody)

theorem fetchBytes_environment {body : Url × Bytes} {limit : Nat} (operation : String)
    (h : body ∈ bodies) (hlimit : 512 ≤ limit) :
    fetchBytes environment body.1 limit operation = .ok body.2 :=
  fetchBytes_of_answered operation (rows_checked.2 body h).1 (server_environment body h) le_rfl
    (by decide) (fun _ hn => (Option.some.inj hn).symm) ((rows_checked.2 body h).2.trans hlimit)

theorem fetchVerified_environment {body : Url × Bytes} {limit : Nat} {size : Option Nat}
    {hex : String} (context : String) (h : body ∈ bodies) (hlimit : 512 ≤ limit)
    (hsize : ∀ n ∈ size, n = body.2.length) (hdigest : (body.2, hex) ∈ digests) :
    fetchVerified environment body.1 limit (digest hex) size context = .ok body.2 := by
  have hverified : verifyBytes environment body.2 size (some (digest hex)) context = .ok () := by
    have hnone : size.filter (· ≠ body.2.length) = none := by
      cases size with
      | none => rfl
      | some n => simpa using hsize n rfl
    have hsame : (some (digest hex)).any (environment.sha1 body.2 ≠ ·) = false := by
      rw [sha1_environment _ hdigest]
      simp
    unfold verifyBytes
    rw [hnone, hsame]
    rfl
  unfold fetchVerified
  rw [fetchBytes_environment context h hlimit]
  exact except_bind_eq_ok.mpr ⟨_, rfl, except_bind_eq_ok.mpr ⟨(), hverified, rfl⟩⟩

theorem serves_environment {body : Url × Bytes} {hex : String} (h : body ∈ bodies)
    (hdigest : (body.2, hex) ∈ digests) : Serves environment body.1 (digest hex) :=
  fun _ => ⟨200, some body.2.length, body.2, server_environment body h, le_rfl, by decide,
    fun _ hn => (Option.some.inj hn).symm, sha1_environment _ hdigest⟩

theorem new_text (id : MinecraftVersionId) : MinecraftVersionId.new id.text = .ok id := by
  unfold MinecraftVersionId.new
  split
  · rfl
  · rename_i e herror
    cases id.valid.symm.trans herror

theorem convertEntry_environment {id : MinecraftVersionId} (h : id ∈ [two, one]) :
    convertEntry environment.toReaders ⟨id.text, "release", metaPath (id.text ++ ".json"),
      metadataSha1 id.text, time, time, none⟩ = .ok (entry id) := by
  obtain ⟨hurl, -, -, hstamp, -⟩ := texts_checked
  have htime : timestamp environment.toReaders time = .ok released :=
    except_bind_eq_ok.mpr ⟨(), hstamp, rfl⟩
  have htext : id.text ∈ ["2", "1"] := List.mem_map_of_mem h
  have hnew : MinecraftVersionId.new id.text = .ok id := new_text id
  have hname : id.text ++ ".json" ∈ ["1.json", "2.json", "assets.json"] := by
    simp only [List.mem_cons, List.not_mem_nil, or_false] at h
    rcases h with rfl | rfl <;> simp [one, two]
  refine except_bind_eq_ok.mpr ⟨id, hnew, except_bind_eq_ok.mpr ⟨_, kind_release, ?_⟩⟩
  refine except_bind_eq_ok.mpr ⟨_, hurl _ hname, ?_⟩
  refine except_bind_eq_ok.mpr ⟨_, fromStr_metadataSha1 htext, ?_⟩
  refine except_bind_eq_ok.mpr ⟨_, htime, ?_⟩
  exact except_bind_eq_ok.mpr ⟨_, htime, rfl⟩

theorem parseManifest_environment :
    parseOfficialManifest environment.toReaders (manifestText "1" ["1"]) =
        .ok ⟨one, one, [entry one]⟩ ∧
      parseOfficialManifest environment.toReaders (manifestText "2" ["2", "1"]) =
        .ok ⟨two, two, [entry two, entry one]⟩ := by
  have hfirst : environment.manifestWire (manifestText "1" ["1"]) = .ok (manifestWire "1" ["1"]) :=
    lookup_of_mem rows_checked.1.2.2.1 List.mem_cons_self
  have hsecond : environment.manifestWire (manifestText "2" ["2", "1"]) =
      .ok (manifestWire "2" ["2", "1"]) :=
    lookup_of_mem rows_checked.1.2.2.1 (List.mem_cons_of_mem _ List.mem_cons_self)
  have htwo := @convertEntry_environment two List.mem_cons_self
  have hone := @convertEntry_environment one (List.mem_cons_of_mem _ List.mem_cons_self)
  constructor
  · refine except_bind_eq_ok.mpr ⟨_, mapError_eq_ok.mpr hfirst, ?_⟩
    have hversions : (manifestWire "1" ["1"]).versions.mapM (convertEntry environment.toReaders) =
        .ok [entry one] := by
      change [_].mapM _ = _
      rw [List.mapM_cons]
      exact except_bind_eq_ok.mpr ⟨_, hone, rfl⟩
    refine except_bind_eq_ok.mpr ⟨_, hversions, ?_⟩
    exact except_bind_eq_ok.mpr ⟨one, new_text one, except_bind_eq_ok.mpr ⟨one, new_text one, rfl⟩⟩
  · refine except_bind_eq_ok.mpr ⟨_, mapError_eq_ok.mpr hsecond, ?_⟩
    have hversions : (manifestWire "2" ["2", "1"]).versions.mapM
        (convertEntry environment.toReaders) = .ok [entry two, entry one] := by
      change [_, _].mapM _ = _
      rw [List.mapM_cons]
      refine except_bind_eq_ok.mpr ⟨_, htwo, ?_⟩
      rw [List.mapM_cons]
      exact except_bind_eq_ok.mpr ⟨_, except_bind_eq_ok.mpr ⟨_, hone, rfl⟩, rfl⟩
    refine except_bind_eq_ok.mpr ⟨_, hversions, ?_⟩
    exact except_bind_eq_ok.mpr ⟨two, new_text two, except_bind_eq_ok.mpr ⟨two, new_text two, rfl⟩⟩

theorem parseMetadata_environment {id : MinecraftVersionId} (h : id ∈ [two, one]) :
    parseSelectedVersionMetadata environment.toReaders (metadataText id.text) =
      .ok (metadata id) := by
  have hsecond : environment.metadataWire (metadataText "2") = .ok (metadataWire "2") :=
    lookup_of_mem rows_checked.1.2.2.2.1 List.mem_cons_self
  have hfirst : environment.metadataWire (metadataText "1") = .ok (metadataWire "1") :=
    lookup_of_mem rows_checked.1.2.2.2.1 (List.mem_cons_of_mem _ List.mem_cons_self)
  have htext : id.text ∈ ["2", "1"] := List.mem_map_of_mem h
  have hwire : environment.metadataWire (metadataText id.text) = .ok (metadataWire id.text) := by
    simp only [List.mem_cons, List.not_mem_nil, or_false] at h
    rcases h with rfl | rfl
    · exact hsecond
    · exact hfirst
  obtain ⟨hurl, hclient, -, -, hids, -⟩ := texts_checked
  have hassets := hurl "assets.json" (by simp)
  refine except_bind_eq_ok.mpr ⟨_, mapError_eq_ok.mpr hwire, ?_⟩
  refine except_bind_eq_ok.mpr ⟨(), hids _ htext, ?_⟩
  refine except_bind_eq_ok.mpr ⟨id, new_text id, except_bind_eq_ok.mpr ⟨_, kind_release, ?_⟩⟩
  refine except_bind_eq_ok.mpr ⟨_, hassets, ?_⟩
  refine except_bind_eq_ok.mpr ⟨_, @fromStr_digest assetsSha1 (by decide) (by decide), ?_⟩
  refine except_bind_eq_ok.mpr ⟨_, hclient, ?_⟩
  refine except_bind_eq_ok.mpr ⟨_, @fromStr_digest clientSha1 (by decide) (by decide), ?_⟩
  exact except_bind_eq_ok.mpr ⟨none, rfl, rfl⟩

theorem fetchManifest_environment :
    fetchManifest environment = .ok ⟨two, two, [entry two, entry one]⟩ := by
  have hfetched := @fetchBytes_environment (officialManifestUrl, _) maxManifestBytes
    "version manifest fetch" List.mem_cons_self (by decide)
  refine except_bind_eq_ok.mpr ⟨_, mapError_eq_ok.mpr hfetched, ?_⟩
  exact mapError_eq_ok.mpr parseManifest_environment.2

theorem cachedManifest_cache : cachedManifest environment cache = .ok ⟨one, one, [entry one]⟩ := by
  have hread : readBounded cache .manifest maxManifestBytes = .ok (manifestText "1" ["1"]) := by
    obtain ⟨-, -, -, -, -, hsize, -⟩ := texts_checked
    unfold readBounded cache
    dsimp only
    rw [if_pos rfl]
    exact if_neg hsize.not_gt
  exact except_bind_eq_ok.mpr ⟨_, hread, mapError_eq_ok.mpr parseManifest_environment.1⟩

theorem body_of_entry {id : MinecraftVersionId} (h : id ∈ [two, one]) :
    ((entry id).metadataUrl, metadataText id.text) ∈ bodies ∧
      (metadataText id.text, metadataSha1 id.text) ∈ digests := by
  simp only [List.mem_cons, List.not_mem_nil, or_false] at h
  rcases h with rfl | rfl <;> simp [bodies, digests, entry, one, two]

theorem body_of_assets : (metaUrl "assets.json", assetsText) ∈ bodies ∧
    (assetsText, assetsSha1) ∈ digests := by
  simp [bodies, digests]

theorem fetchMetadata_environment {id : MinecraftVersionId} (h : id ∈ [two, one]) :
    fetchVerified environment (entry id).metadataUrl maxVersionMetadataBytes
      (entry id).metadataSha1 none "version metadata" = .ok (metadataText id.text) :=
  fetchVerified_environment _ (body_of_entry h).1 (by decide) nofun (body_of_entry h).2

theorem consistent_environment : Consistent environment := by
  have hlisted : ∀ {manifest listed}, fetchManifest environment = .ok manifest →
      listed ∈ manifest.versions → ∃ id ∈ [two, one], listed = entry id := by
    intro manifest listed hmanifest hlisted
    cases fetchManifest_environment.symm.trans hmanifest
    have hentries : listed ∈ [two, one].map entry := hlisted
    obtain ⟨id, hid, hentry⟩ := List.mem_map.mp hentries
    exact ⟨id, hid, hentry.symm⟩
  constructor
  · intro manifest listed hmanifest hmember
    obtain ⟨id, hid, rfl⟩ := hlisted hmanifest hmember
    exact serves_environment (body_of_entry hid).1 (body_of_entry hid).2
  · intro manifest listed bytes parsed hmanifest hmember hfetched hparsed
    obtain ⟨id, hid, rfl⟩ := hlisted hmanifest hmember
    cases (fetchMetadata_environment hid).symm.trans hfetched
    cases (parseMetadata_environment hid).symm.trans hparsed
    exact serves_environment body_of_assets.1 body_of_assets.2

theorem served_two : served environment two = .ok (metadata two, OrderedMap.empty) := by
  obtain ⟨-, -, -, -, -, -, hlength, hparsed⟩ := texts_checked
  have hmember : two ∈ [two, one] := List.mem_cons_self
  have htrusted := (rows_checked.2 _ (body_of_entry hmember).1).1
  have hentry : selectEntry ⟨two, two, [entry two, entry one]⟩ two = .ok (entry two) := by
    have hfound : OfficialVersionManifest.find ⟨two, two, [entry two, entry one]⟩ two =
        some (entry two) := List.find?_cons_of_pos (decide_eq_true rfl)
    unfold selectEntry
    rw [hfound]
    dsimp only
    rw [htrusted]
    rfl
  have hselected : selectMetadata environment (metadataText two.text) two = .ok (metadata two) := by
    refine except_bind_eq_ok.mpr ⟨metadata two, ?_, rfl⟩
    exact mapError_eq_ok.mpr (parseMetadata_environment hmember)
  have hassets : fetchVerified environment (metaUrl "assets.json") maxAssetIndexBytes
      (digest assetsSha1) (some 14) "asset index" = .ok assetsText :=
    fetchVerified_environment _ body_of_assets.1 (by decide)
      (fun _ hn => (Option.some.inj hn).symm.trans hlength.symm) body_of_assets.2
  refine except_bind_eq_ok.mpr ⟨_, fetchManifest_environment, ?_⟩
  refine except_bind_eq_ok.mpr ⟨_, hentry, ?_⟩
  refine except_bind_eq_ok.mpr ⟨_, fetchMetadata_environment hmember, ?_⟩
  refine except_bind_eq_ok.mpr ⟨_, hselected, ?_⟩
  refine except_bind_eq_ok.mpr ⟨_, hassets, ?_⟩
  exact except_bind_eq_ok.mpr ⟨_, hparsed, rfl⟩

theorem mem_digests_of_known {bytes : Bytes} (h : Known environment cache bytes) :
    bytes ∈ digests.map Prod.fst := by
  obtain ⟨path, hfile⟩ | ⟨url, status, length, broken, hanswer⟩ := h
  · unfold cache at hfile
    dsimp only at hfile
    split at hfile
    · cases hfile
      simp [digests]
    · cases hfile
  · unfold environment at hanswer
    dsimp only at hanswer
    split at hanswer
    · rename_i body hfind
      cases hanswer
      have hall : ∀ body ∈ bodies, body.2 ∈ digests.map Prod.fst := by
        simp [bodies, digests]
      exact hall body (List.mem_of_find?_eq_some hfind)
    · cases hanswer
      simp [digests]

theorem sound_cache (requested : MinecraftVersionId) : Sound environment requested cache := by
  have hempty : ∀ path, path ≠ .manifest → cache.nodes path = none := fun _ hne => if_neg hne
  refine ⟨⟨?_, ?_, ?_⟩, ?_⟩
  · intro path hpath
    have hmanifest : CachePath.manifest ∉ directories requested := by simp [directories]
    unfold Disk.Opens
    rw [hempty path (ne_of_mem_of_not_mem hpath hmanifest)]
    exact List.mem_cons_self
  · intro path _ hdirectory
    unfold cache at hdirectory
    dsimp only at hdirectory
    split at hdirectory <;> cases hdirectory
  · exact fun target sequence _ => hempty _ (fun heq => by cases heq)
  · intro _ _ hknown hknown' hsame
    obtain ⟨a, ha, rfl⟩ := List.mem_map.mp (mem_digests_of_known hknown)
    obtain ⟨b, hb, rfl⟩ := List.mem_map.mp (mem_digests_of_known hknown')
    have hdigest := (sha1_environment a ha).symm.trans (hsame.trans (sha1_environment b hb))
    have hbyte := congrArg (fun sha1 : Sha1Digest => sha1.bytes[0]) hdigest
    rw [List.inj_on_of_nodup_map rows_checked.1.2.2.2.2 ha hb hbyte]

end Release

/-- A bootstrap returns the documents it returns on an empty cache, unless the cache holds a
valid manifest that differs from the served one on the version. -/
theorem bootstrap_transparent {env : Environment} {requested : MinecraftVersionId} {disk : Disk}
    (hconsistent : Consistent env) (h : Sound env requested disk)
    (hupdated : UpToDate env requested disk) :
    returned (bootstrap env requested disk) = returned (bootstrap env requested disk.emptied) :=
  (returned_eq_served hconsistent h hupdated).trans
    (returned_eq_served hconsistent h.emptied (upToDate_emptied disk)).symm

open Release in
/-- The version the cached manifest knows is bootstrapped as on an empty cache. -/
theorem bootstrap_transparent_known :
    returned (bootstrap environment one cache) =
      returned (bootstrap environment one cache.emptied) := by
  refine bootstrap_transparent consistent_environment (sound_cache one) ?_
  intro manifest hcached
  cases cachedManifest_cache.symm.trans hcached
  exact ⟨_, fetchManifest_environment, rfl⟩

open Release in
/-- The version that came out later is not found. -/
theorem bootstrap_misses_release : ¬ ∀ env requested disk, Consistent env →
    Sound env requested disk → (∃ manifest, fetchManifest env = .ok manifest) →
    returned (bootstrap env requested disk) = returned (bootstrap env requested disk.emptied) := by
  intro h
  have hsame := h environment two cache consistent_environment (sound_cache two)
    ⟨_, fetchManifest_environment⟩
  have hmissing := @returned_of_missing environment two cache _ (sound_cache two)
    cachedManifest_cache (by decide +kernel)
  have hfound := returned_eq_served consistent_environment (sound_cache two).emptied
    (upToDate_emptied cache)
  rw [hmissing, hfound, served_two] at hsame
  cases hsame

end Cubic.Resources
