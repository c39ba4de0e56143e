import Cubic.Resources.Bootstrap

/-!
# What is served, and what is asked of the cache

`served` is what the documents on the servers say of a version. A cache is `Sound` if the
writes of a bootstrap succeed on it; they keep it so.
-/

namespace Cubic.Resources

set_option autoImplicit false

open Version Mut

variable (env : Environment)

/-! ### The documents on the servers -/

def fetchManifest : Except ResourceError OfficialVersionManifest := do
  let bytes ← (fetchBytes env officialManifestUrl maxManifestBytes
    "version manifest fetch").mapError
      fun error => .offlineUnavailable "version manifest" error.toString
  (parseOfficialManifest env.toReaders bytes).mapError .version

def fetchVerified (url : Url) (limit : Nat) (sha1 : Sha1Digest) (size : Option Nat)
    (context : String) : Except ResourceError Bytes := do
  let bytes ← (fetchBytes env url limit context).mapError .fetch
  verifyBytes env bytes size (some sha1) context
  pure bytes

def served (requested : MinecraftVersionId) :
    Except ResourceError (SelectedVersionMetadata × VerifiedAssetIndex) := do
  let manifest ← fetchManifest env
  let entry ← selectEntry manifest requested
  let metadataBytes ← fetchVerified env entry.metadataUrl maxVersionMetadataBytes
    entry.metadataSha1 none "version metadata"
  let metadata ← selectMetadata env metadataBytes requested
  let assetBytes ← fetchVerified env metadata.assetIndex.url maxAssetIndexBytes
    metadata.assetIndex.sha1 (some metadata.assetIndex.size.toNat) "asset index"
  let assets ← parseAssetIndex env assetBytes
  pure (metadata, assets)

/-- A trusted address serves a whole document with the digest. -/
def Serves (url : Url) (sha1 : Sha1Digest) : Prop :=
  validateUrl url .metadata = .ok () → ∃ status length body,
    env.server url = .answered status length body none ∧ 200 ≤ status ∧ status < 300 ∧
    (∀ n ∈ length, n = body.length) ∧ env.sha1 body = sha1

/-- Each document is served at the address and with the digest that the one before it gives. -/
structure Consistent : Prop where
  metadata : ∀ {manifest entry}, fetchManifest env = .ok manifest → entry ∈ manifest.versions →
    Serves env entry.metadataUrl entry.metadataSha1
  assetIndex : ∀ {manifest entry bytes metadata}, fetchManifest env = .ok manifest →
    entry ∈ manifest.versions →
    fetchVerified env entry.metadataUrl maxVersionMetadataBytes entry.metadataSha1 none
      "version metadata" = .ok bytes →
    parseSelectedVersionMetadata env.toReaders bytes = .ok metadata →
    Serves env metadata.assetIndex.url metadata.assetIndex.sha1

/-! ### What is asked of the cache -/

/-- The bytes are in a file of the cache, or on a server. -/
def Known (disk : Disk) (bytes : Bytes) : Prop :=
  (∃ path, disk.nodes path = some (.file bytes)) ∨
    ∃ url status length broken, env.server url = .answered status length bytes broken

def CollisionFree (disk : Disk) : Prop :=
  ∀ a b, Known env disk a → Known env disk b → env.sha1 a = env.sha1 b → a = b

/-- A directory can be opened or created there. -/
def Disk.Opens (disk : Disk) (path : CachePath) : Prop :=
  disk.nodes path ∈ [none, some .directory, some (.symlink .directory)]

def directories (requested : MinecraftVersionId) : List CachePath :=
  [.manifests, .versions, .objects, .versionDir requested]

def cacheFiles (requested : MinecraftVersionId) : List CachePath :=
  [.manifest, .metadata requested, .assetIndex requested]

/-- Every write of the bootstrap succeeds: its directories can be opened, no directory is in the
place of a file, and the names of its temporary files are free. -/
structure Writable (requested : MinecraftVersionId) (disk : Disk) : Prop where
  opens : ∀ path ∈ directories requested, disk.Opens path
  files : ∀ path ∈ cacheFiles requested, disk.nodes path ≠ some .directory
  parts : ∀ target sequence, disk.sequence ≤ sequence →
    disk.nodes (.part target env.processId sequence) = none

def OfficialVersionEntry.source (entry : OfficialVersionEntry) : Url × Sha1Digest :=
  (entry.metadataUrl, entry.metadataSha1)

/-- Two manifests point at the same metadata of a version, or neither knows it. -/
def AgreeOn (requested : MinecraftVersionId) (a b : OfficialVersionManifest) : Prop :=
  (a.find requested).map OfficialVersionEntry.source =
    (b.find requested).map OfficialVersionEntry.source

def cachedManifest (disk : Disk) : Except ResourceError OfficialVersionManifest := do
  let bytes ← readBounded disk .manifest maxManifestBytes
  (parseOfficialManifest env.toReaders bytes).mapError .version

/-- If the cache holds a valid manifest, the servers do too and the two agree on the version. -/
def UpToDate (requested : MinecraftVersionId) (disk : Disk) : Prop :=
  ∀ manifest, cachedManifest env disk = .ok manifest →
    ∃ current, fetchManifest env = .ok current ∧ AgreeOn requested manifest current

/-! ### The file operations keep the cache writable -/

section
variable {env} {requested : MinecraftVersionId} {disk : Disk}

structure Sound (env : Environment) (requested : MinecraftVersionId) (disk : Disk) : Prop where
  writable : Writable env requested disk
  collisionFree : CollisionFree env disk

theorem CollisionFree.put (h : CollisionFree env disk) {path : CachePath} {node : Option Node}
    (hknown : ∀ bytes, node = some (.file bytes) → Known env disk bytes) :
    CollisionFree env (disk.put path node) := by
  have hless : ∀ bytes, Known env (disk.put path node) bytes → Known env disk bytes := by
    rintro bytes (⟨other, hfile⟩ | hserved)
    · by_cases hother : other = path
      · subst other
        exact hknown bytes ((disk.put_nodes_self path node).symm.trans hfile)
      · exact .inl ⟨other, (Disk.put_nodes_of_ne hother).symm.trans hfile⟩
    · exact .inr hserved
  exact fun a b ha hb => h a b (hless a ha) (hless b hb)

theorem Sound.put (h : Sound env requested disk) {path : CachePath} {node : Option Node}
    (hopens : path ∈ directories requested → node ∈ [none, some .directory, some (.symlink .directory)])
    (hfiles : path ∈ cacheFiles requested → node ≠ some .directory)
    (hparts : ∀ target sequence, path = .part target env.processId sequence →
      disk.sequence ≤ sequence → node = none)
    (hknown : ∀ bytes, node = some (.file bytes) → Known env disk bytes) :
    Sound env requested (disk.put path node) := by
  refine ⟨⟨?_, ?_, ?_⟩, h.collisionFree.put hknown⟩
  · intro other hother
    unfold Disk.Opens
    by_cases heq : other = path
    · subst other
      rw [Disk.put_nodes_self]
      exact hopens hother
    · rw [Disk.put_nodes_of_ne heq]
      exact h.writable.opens other hother
  · intro other hother
    by_cases heq : other = path
    · subst other
      rw [Disk.put_nodes_self]
      exact hfiles hother
    · rw [Disk.put_nodes_of_ne heq]
      exact h.writable.files other hother
  · intro target sequence hsequence
    by_cases heq : CachePath.part target env.processId sequence = path
    · rw [heq, Disk.put_nodes_self]
      exact hparts target sequence heq.symm hsequence
    · rw [Disk.put_nodes_of_ne heq]
      exact h.writable.parts target sequence hsequence

/-! ### Writing a document -/

theorem Sound.nextSequence (h : Sound env requested disk) :
    Sound env requested { disk with sequence := disk.sequence + 1 } := by
  refine ⟨⟨h.writable.opens, h.writable.files, ?_⟩, h.collisionFree⟩
  intro target sequence hsequence
  exact h.writable.parts target sequence (Nat.le_of_succ_le hsequence)

theorem not_mem_directories_of_cacheFile {path : CachePath} (h : path ∈ cacheFiles requested) :
    path ∉ directories requested := by
  simp only [cacheFiles, List.mem_cons, List.not_mem_nil, or_false] at h
  rcases h with rfl | rfl | rfl <;> simp [directories]

theorem part_not_mem_cacheFiles (target : CachePath) (processId sequence : Nat) :
    .part target processId sequence ∉ cacheFiles requested := by
  simp [cacheFiles]

theorem part_not_mem_directories (target : CachePath) (processId sequence : Nat) :
    .part target processId sequence ∉ directories requested := by
  simp [directories]

theorem ne_part_of_cacheFile {path target : CachePath} {processId sequence : Nat}
    (h : path ∈ cacheFiles requested) : path ≠ .part target processId sequence := by
  rintro rfl
  exact part_not_mem_cacheFiles target processId sequence h

theorem exists_parent_of_cacheFile {path : CachePath} (h : path ∈ cacheFiles requested) :
    ∃ parent, path.parent = some parent ∧ parent ∈ directories requested := by
  simp only [cacheFiles, List.mem_cons, List.not_mem_nil, or_false] at h
  rcases h with rfl | rfl | rfl
  · exact ⟨.manifests, rfl, by simp [directories]⟩
  · exact ⟨.versionDir requested, rfl, by simp [directories]⟩
  · exact ⟨.versionDir requested, rfl, by simp [directories]⟩

/-- A directory is opened or created, and nothing happens at other paths. -/
theorem createDirAll_surely {path : CachePath} (operation : String)
    (h : Sound env requested disk) (hpath : path ∈ directories requested) :
    wp (createDirAll operation path) (Post.surely fun t => Sound env requested t ∧
      ∀ other ∉ directories requested, t.nodes other = disk.nodes other) disk := by
  have hopens := h.writable.opens path hpath
  unfold Disk.Opens at hopens
  simp only [List.mem_cons, List.not_mem_nil, or_false] at hopens
  unfold createDirAll
  rw [wp_bind, wp_get]
  dsimp only
  rcases hopens with hnode | hnode | hnode
  · rw [hnode]
    refine ⟨h.put ?_ ?_ ?_ ?_, ?_⟩
    · exact fun _ => by simp
    · intro hfile
      exact absurd hpath (not_mem_directories_of_cacheFile hfile)
    · rintro target sequence rfl
      exact absurd hpath (part_not_mem_directories _ _ _)
    · intro bytes hbytes
      cases hbytes
    · intro other hother
      exact Disk.put_nodes_of_ne (ne_of_mem_of_not_mem hpath hother).symm
  · rw [hnode]
    exact ⟨h, fun _ _ => rfl⟩
  · rw [hnode]
    exact ⟨h, fun _ _ => rfl⟩

/-- The bytes are the body of an answer. -/
def Served (env : Environment) (bytes : Bytes) : Prop :=
  ∃ url status length broken, env.server url = .answered status length bytes broken

/-- A temporary file of this process holds the bytes. -/
structure Staged (env : Environment) (requested : MinecraftVersionId) (temporary : CachePath)
    (bytes : Bytes) (disk : Disk) : Prop where
  sound : Sound env requested disk
  used : ∃ target sequence, temporary = .part target env.processId sequence ∧
    sequence < disk.sequence
  file : disk.nodes temporary = some (.file bytes)

theorem Staged.put {temporary path : CachePath} {bytes : Bytes} {node : Option Node}
    (h : Staged env requested temporary bytes disk) (hpath : path ∈ cacheFiles requested)
    (hnode : node = none ∨ node = some (.file bytes)) :
    Staged env requested temporary bytes (disk.put path node) := by
  obtain ⟨target, sequence, rfl, hused⟩ := h.used
  refine ⟨h.sound.put ?_ ?_ ?_ ?_, ⟨target, sequence, rfl, hused⟩, ?_⟩
  · intro hdirectory
    exact absurd hdirectory (not_mem_directories_of_cacheFile hpath)
  · rcases hnode with rfl | rfl <;> exact fun _ => by simp
  · intro other n heq
    exact absurd heq (ne_part_of_cacheFile hpath)
  · intro content hcontent
    rcases hnode with rfl | rfl
    · cases hcontent
    · cases hcontent
      exact .inl ⟨_, h.file⟩
  · rw [Disk.put_nodes_of_ne (ne_part_of_cacheFile hpath).symm]
    exact h.file

theorem Staged.discard {temporary : CachePath} {bytes : Bytes}
    (h : Staged env requested temporary bytes disk) :
    Sound env requested (disk.put temporary none) := by
  obtain ⟨target, sequence, rfl, hused⟩ := h.used
  refine h.sound.put ?_ ?_ ?_ ?_
  · exact fun hdirectory => absurd hdirectory (part_not_mem_directories _ _ _)
  · exact fun hfile => absurd hfile (part_not_mem_cacheFiles _ _ _)
  · exact fun _ _ _ _ => rfl
  · intro content hcontent
    cases hcontent

theorem writeNew_surely {target : CachePath} {sequence : Nat} {bytes : Bytes}
    (h : Sound env requested disk) (hused : sequence < disk.sequence)
    (hfree : disk.nodes (.part target env.processId sequence) = none)
    (hserved : Served env bytes) :
    wp (writeNew (.part target env.processId sequence) bytes)
      (Post.surely (Staged env requested (.part target env.processId sequence) bytes)) disk := by
  unfold writeNew
  rw [wp_bind, wp_get]
  dsimp only
  rw [hfree]
  refine ⟨h.put ?_ ?_ ?_ ?_, ⟨target, sequence, rfl, hused⟩, disk.put_nodes_self _ _⟩
  · exact fun hdirectory => absurd hdirectory (part_not_mem_directories _ _ _)
  · exact fun hfile => absurd hfile (part_not_mem_cacheFiles _ _ _)
  · intro other n heq hn
    cases heq
    omega
  · intro content hcontent
    cases hcontent
    exact .inr hserved

/-- The old file goes, also where a link stands in its place. -/
theorem removeFile_surely {temporary path : CachePath} {bytes : Bytes} (operation : String)
    (h : Staged env requested temporary bytes disk) (hpath : path ∈ cacheFiles requested)
    (hexists : disk.pathExists path) :
    wp (removeFile operation path) (Post.surely (Staged env requested temporary bytes)) disk := by
  have hfile := h.sound.writable.files path hpath
  unfold Disk.pathExists at hexists
  unfold removeFile
  rw [wp_bind, wp_get]
  dsimp only
  cases hnode : disk.nodes path with
  | none =>
    rw [hnode] at hexists
    cases hexists
  | some node =>
    cases node with
    | directory => exact absurd hnode hfile
    | file content => exact h.put hpath (.inl rfl)
    | symlink target => exact h.put hpath (.inl rfl)

theorem promote_surely {temporary path : CachePath} {bytes : Bytes}
    (h : Staged env requested temporary bytes disk) (hpath : path ∈ cacheFiles requested) :
    wp (promote temporary path) (Post.surely (Sound env requested)) disk := by
  have hfile := h.sound.writable.files path hpath
  have hmoved : Sound env requested ((disk.put path (disk.nodes temporary)).put temporary none) :=
    (h.put hpath (.inr h.file)).discard
  unfold promote
  rw [wp_bind, wp_get]
  dsimp only
  split
  · rename_i hdirectory
    exact absurd hdirectory hfile
  · exact hmoved

theorem atomicWrite_surely {path : CachePath} {bytes : Bytes} (h : Sound env requested disk)
    (hpath : path ∈ cacheFiles requested) (hserved : Served env bytes) :
    wp (atomicWrite env path bytes) (Post.surely (Sound env requested)) disk := by
  obtain ⟨parent, hparent, hdirectory⟩ := exists_parent_of_cacheFile hpath
  unfold atomicWrite
  rw [hparent]
  refine wp_surely_bind (createDirAll_surely _ h hdirectory) ?_
  rintro - t ⟨ht, -⟩
  change wp (_ >>= _) _ { t with sequence := t.sequence + 1 }
  refine wp_surely_bind (writeNew_surely ht.nextSequence (Nat.lt_succ_self _)
    (ht.writable.parts path t.sequence le_rfl) hserved) ?_
  intro _ u hu
  rw [wp_bind, wp_get]
  dsimp only
  split
  · rename_i hexists
    refine wp_surely_bind (removeFile_surely _ hu hpath hexists) ?_
    exact fun _ v hv => promote_surely hv hpath
  · exact promote_surely hu hpath

end

end Cubic.Resources
