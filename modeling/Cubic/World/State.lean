import Cubic.Lib.Mut
import Cubic.World.EntityStore
import Cubic.World.Model

/-!
# The authoritative world state (`state.rs`)

Relative updates take the sums of floating-point numbers from a parameter.
-/

namespace Cubic.World

set_option autoImplicit false

def maxKnownDimensions : Nat := 1024
def maxRuntimeRegistries : Nat := 512
def maxRuntimeRegistryEntries : Nat := 1048576
def maxWorldClocks : Nat := 64
def maxBlockUpdatesPerEvent : Nat := 4096

structure FloatSums where
  f32 : F32 → F32 → F32
  f64 : F64 → F64 → F64

structure BlockUpdateResult where
  revision : UInt64
  changedChunks : List ChunkCoordinate
  ignoredUnloadedOrOutOfBounds : Nat
  deriving DecidableEq

inductive WorldLifecycle where
  | disconnected
  | configuring
  | active
  deriving DecidableEq

inductive ResetScope where
  | none
  | worldContents
  | connection
  deriving DecidableEq

structure WorldTransition where
  revision : UInt64
  reset : ResetScope
  dimensionChanged : Bool
  deriving DecidableEq

structure WorldState (Rest : Type) where
  lifecycle : WorldLifecycle
  revision : UInt64
  registries : RuntimeRegistrySnapshot
  dimensionTypes : List RuntimeDimensionType
  biomes : List RuntimeBiome
  session : Option WorldSession
  chunks : LoadedChunks
  entities : EntityStore Rest
  deriving DecidableEq

inductive WorldError where
  | invalidLifecycle (event : String) (lifecycle : WorldLifecycle)
  | tooManyDimensions (count max : Nat)
  | duplicateDimension
  | currentDimensionUnknown
  | tooManyRegistries (count max : Nat)
  | tooManyRegistryEntries (registry : String) (count max : Nat)
  | duplicateRegistry
  | duplicateWorldClock
  | revisionOverflow
  | tooManyBlockUpdates (count max : Nat)
  | invalidNumber (field : String)
  | missingDimensionGeometry (rawId : UInt32)
  | invalidDimensionGeometry (minY : Int32) (height : UInt32)
  | duplicateDimensionType
  | duplicateBiome
  | invalidBiome
  | negativeTeleportId (value : Int32)
  | staleTeleport (current received : Int32)
  | relativeWithoutBaseline (field : String)
  | chunkStore (e : ChunkStoreError)
  deriving DecidableEq

/-! ### Checks of what arrives -/

def validateDimensionGeometry (geometry : DimensionGeometry) : Except WorldError Unit :=
  if geometry.height < 16 ∨ 4064 < geometry.height ∨ geometry.height % 16 ≠ 0 ∨
      remEuclid geometry.minY 16 ≠ 0 ∨ geometry.minY < -2032 ∨
      2032 < geometry.minY.toInt + geometry.height.toNat then
    .error (.invalidDimensionGeometry geometry.minY geometry.height)
  else .ok ()

def validateEnterWorld (enter : EnterWorld) : Except WorldError Unit :=
  if maxKnownDimensions < enter.knownDimensions.length then
    .error (.tooManyDimensions enter.knownDimensions.length maxKnownDimensions)
  else
    let unique : OrderedSet MinecraftIdentifier :=
      .ofList (enter.knownDimensions.map fun dimension => (dimension, ()))
    if unique.size ≠ enter.knownDimensions.length then .error .duplicateDimension
    else if (unique.lookup enter.spawn.dimension).isNone then .error .currentDimensionUnknown
    else .ok ()

/-- `unique` holds the identifiers before. -/
def validateRegistrySummaries (unique : OrderedSet MinecraftIdentifier) :
    List RuntimeRegistrySummary → Except WorldError Unit
  | [] => .ok ()
  | registry :: rest =>
    if (unique.lookup registry.registry).isSome then .error .duplicateRegistry
    else if maxRuntimeRegistryEntries < registry.entryCount then
      .error (.tooManyRegistryEntries registry.registry.text registry.entryCount
        maxRuntimeRegistryEntries)
    else validateRegistrySummaries (unique.insert registry.registry ()) rest

def validateRegistries (registries : RuntimeRegistrySnapshot) : Except WorldError Unit :=
  if maxRuntimeRegistries < registries.registries.length then
    .error (.tooManyRegistries registries.registries.length maxRuntimeRegistries)
  else validateRegistrySummaries OrderedMap.empty registries.registries

/-- The first field that is not finite is named. -/
def requireFinite : List (String × Bool) → Except WorldError Unit
  | [] => .ok ()
  | (field, finite) :: rest => if finite then requireFinite rest else .error (.invalidNumber field)

def validateRotation (rotation : AuthoritativeRotation) : Except WorldError Unit :=
  requireFinite [("yaw", rotation.yaw.isFinite), ("pitch", rotation.pitch.isFinite)]

def validateSpawn (spawn : SpawnPoint) : Except WorldError Unit :=
  requireFinite [("spawn yaw", spawn.yaw.isFinite), ("spawn pitch", spawn.pitch.isFinite)]

/-- `clockIds` holds the identifiers before. -/
def validateClocks (clockIds : OrderedSet UInt32) : List ClockState → Except WorldError Unit
  | [] => .ok ()
  | clock :: rest =>
    if (clockIds.lookup clock.clockTypeRawId).isSome then .error .duplicateWorldClock
    else do
      requireFinite [("clock partial tick", clock.partialTick.isFinite),
        ("clock rate", clock.rate.isFinite)]
      validateClocks (clockIds.insert clock.clockTypeRawId ()) rest

def validateTime (time : WorldTime) : Except WorldError Unit :=
  if maxWorldClocks < time.clocks.length then
    .error (.tooManyRegistryEntries "minecraft:world_clock" time.clocks.length maxWorldClocks)
  else validateClocks OrderedMap.empty time.clocks

def F32.inUnitInterval (a : F32) : Bool := F32.zero.le a && a.le F32.one

def validateLevel (level : F32) (field : String) : Except WorldError Unit :=
  requireFinite [(field, level.isFinite && level.inUnitInterval)]

def validateBorder (border : WorldBorder) : Except WorldError Unit :=
  let diameter (value : F64) : Bool := value.isFinite && !value.lt F64.zero
  requireFinite [("border center x", border.centerX.isFinite),
    ("border center z", border.centerZ.isFinite),
    ("border old diameter", diameter border.oldDiameter),
    ("border new diameter", diameter border.newDiameter)]

/-- `windows(2)` of the identifiers, compared. -/
def anyEqualNeighbours : List UInt32 → Bool
  | a :: b :: rest => decide (a = b) || anyEqualNeighbours (b :: rest)
  | _ => false

def validateDimensions (dimensions : List RuntimeDimensionType) : Except WorldError Unit := do
  dimensions.forM fun dimension => validateDimensionGeometry dimension.geometry
  if anyEqualNeighbours (dimensions.map (·.rawId)) then .error .duplicateDimensionType
  else .ok ()

def validateBiomes (biomes : List RuntimeBiome) : Except WorldError Unit :=
  if anyEqualNeighbours (biomes.map (·.rawId)) then .error .duplicateBiome
  else if biomes.any fun biome =>
      !biome.temperature.isFinite || !biome.downfall.isFinite || !biome.downfall.inUnitInterval then
    .error .invalidBiome
  else .ok ()

/-! ### The player's transform -/

/-- A coordinate as sent, or on top of the one before. -/
def resolve {F : Type} (add : F → F → F) (value : F) (relative : Bool) (prior : Option F)
    (field : String) : Except WorldError F :=
  if relative then
    match prior with
    | some base => .ok (add base value)
    | none => .error (.relativeWithoutBaseline field)
  else .ok value

def checkTeleport (lastTeleportId : Option Int32) (teleportId : Int32) : Except WorldError Unit :=
  if teleportId < 0 then .error (.negativeTeleportId teleportId)
  else match lastTeleportId with
    | none => .ok ()
    | some current =>
      if teleportId ≤ current then .error (.staleTeleport current teleportId) else .ok ()

def AuthoritativeTransform.isFinite (t : AuthoritativeTransform) : Bool :=
  t.x.isFinite && t.y.isFinite && t.z.isFinite && t.yaw.isFinite && t.pitch.isFinite

def applyPosition (sums : FloatSums) (current : Option AuthoritativeTransform)
    (rotation : Option AuthoritativeRotation) (lastTeleportId : Option Int32)
    (update : PlayerPositionUpdate) : Except WorldError AuthoritativeTransform := do
  checkTeleport lastTeleportId update.teleportId
  requireFinite [("x", update.x.isFinite), ("y", update.y.isFinite), ("z", update.z.isFinite),
    ("yaw", update.yaw.isFinite), ("pitch", update.pitch.isFinite)]
  let x ← resolve sums.f64 update.x update.relative.x (current.map (·.x)) "x"
  let y ← resolve sums.f64 update.y update.relative.y (current.map (·.y)) "y"
  let z ← resolve sums.f64 update.z update.relative.z (current.map (·.z)) "z"
  let yaw ← resolve sums.f32 update.yaw update.relative.yaw (rotation.map (·.yaw)) "yaw"
  let pitch ← resolve sums.f32 update.pitch update.relative.pitch (rotation.map (·.pitch)) "pitch"
  let result : AuthoritativeTransform := ⟨x, y, z, yaw, pitch, update.teleportId⟩
  if result.isFinite then .ok result
  else .error (.invalidNumber "resolved player transform")

def applyRotation (sums : FloatSums) (rotation : Option AuthoritativeRotation)
    (update : PlayerRotationUpdate) : Except WorldError AuthoritativeRotation := do
  let previous : AuthoritativeRotation ←
    match rotation with
    | some rotation => .ok rotation
    | none =>
      if update.relativeYaw || update.relativePitch then .error (.relativeWithoutBaseline "rotation")
      else .ok ⟨F32.zero, F32.zero⟩
  let yaw := if update.relativeYaw then sums.f32 previous.yaw update.yaw else update.yaw
  let pitch :=
    (if update.relativePitch then sums.f32 previous.pitch update.pitch else update.pitch).clamp
      F32.minusNinety F32.ninety
  validateRotation ⟨yaw, pitch⟩
  .ok ⟨yaw, pitch⟩

def sessionFromEnter (enter : EnterWorld) (dimensionGeometry : DimensionGeometry) : WorldSession where
  playerEntityId := enter.playerEntityId
  hardcore := enter.hardcore
  knownDimensions := enter.knownDimensions.mergeSort (· ≤ ·)
  maxPlayers := enter.maxPlayers
  viewDistance := enter.viewDistance
  simulationDistance := enter.simulationDistance
  reducedDebugInfo := enter.reducedDebugInfo
  showDeathScreen := enter.showDeathScreen
  limitedCrafting := enter.limitedCrafting
  secureChatEnforced := enter.secureChatEnforced
  spawnContext := enter.spawn
  dimensionGeometry := dimensionGeometry
  position := none
  rotation := none
  lastTeleportId := none
  spawnPoint := none
  time := none
  difficulty := none
  weather := WeatherState.default
  border := none

/-- What a respawn leaves of the session. -/
def respawned (session : WorldSession) (respawn : Respawn) (geometry : DimensionGeometry) :
    WorldSession :=
  let moved : WorldSession := { session with
    spawnContext := respawn.spawn
    dimensionGeometry := geometry
    position := none
    rotation := match respawn.rotation with
      | .reset rotation => some rotation
      | .preserve => session.rotation }
  if session.spawnContext.dimension ≠ respawn.spawn.dimension then
    { moved with spawnPoint := none, time := none, weather := WeatherState.default, border := none }
  else moved

/-! ### Events -/

variable {Rest : Type}

abbrev WorldM (Rest : Type) := Mut (WorldState Rest) WorldError

namespace WorldState

def new : WorldState Rest where
  lifecycle := .disconnected
  revision := 0
  registries := ⟨[]⟩
  dimensionTypes := []
  biomes := []
  session := none
  chunks := OrderedMap.empty
  entities := EntityStore.empty

def require (lifecycle : WorldLifecycle) (event : String) : WorldM Rest Unit := do
  let s ← Mut.get
  if s.lifecycle ≠ lifecycle then Mut.fail (.invalidLifecycle event s.lifecycle) else pure ()

def activeMut (event : String) : WorldM Rest WorldSession := do
  let s ← Mut.get
  if s.lifecycle ≠ .active then Mut.fail (.invalidLifecycle event s.lifecycle)
  else Mut.okOr s.session (.invalidLifecycle event s.lifecycle)

def geometry (rawId : UInt32) : WorldM Rest DimensionGeometry := do
  let s ← Mut.get
  Mut.okOr ((s.dimensionTypes.find? fun dimension => dimension.rawId = rawId).map (·.geometry))
    (.missingDimensionGeometry rawId)

/-- Write to the session through the reference that `active_mut` hands out. -/
def editSession (event : String) (f : WorldSession → WorldSession) : WorldM Rest Unit := do
  let session ← activeMut event
  Mut.modify fun s => { s with session := some (f session) }

def clearContents (s : WorldState Rest) : WorldState Rest :=
  { s with chunks := OrderedMap.empty, entities := s.entities.clear }

/-- The connection's data goes, and the session with it. -/
def clearConnection (lifecycle : WorldLifecycle) (s : WorldState Rest) : WorldState Rest :=
  clearContents { s with
    lifecycle := lifecycle
    registries := ⟨[]⟩
    dimensionTypes := []
    biomes := []
    session := none }

/-- The arms of `apply`. -/
def handle (sums : FloatSums) : WorldEvent → WorldM Rest (ResetScope × Bool)
  | .beginConfiguration => do
    Mut.modify (clearConnection .configuring)
    pure (.connection, false)
  | .runtimeRegistries registries => do
    require .configuring "RuntimeRegistries"
    Mut.ofExcept (validateRegistries registries)
    Mut.modify fun s => { s with
      registries := ⟨registries.registries.mergeSort (·.registry ≤ ·.registry)⟩ }
    pure (.none, false)
  | .runtimeDimensionTypes dimensions => do
    require .configuring "RuntimeDimensionTypes"
    let dimensions := dimensions.mergeSort (·.rawId ≤ ·.rawId)
    Mut.ofExcept (validateDimensions dimensions)
    Mut.modify fun s => { s with dimensionTypes := dimensions }
    pure (.none, false)
  | .runtimeBiomes biomes => do
    require .configuring "RuntimeBiomes"
    let biomes := biomes.mergeSort (·.rawId ≤ ·.rawId)
    Mut.ofExcept (validateBiomes biomes)
    Mut.modify fun s => { s with biomes := biomes }
    pure (.none, false)
  | .enterWorld enter => do
    require .configuring "EnterWorld"
    Mut.ofExcept (validateEnterWorld enter)
    let geometry ← geometry enter.spawn.dimensionType.rawId
    Mut.modify fun s => clearContents { s with
      session := some (sessionFromEnter enter geometry)
      lifecycle := .active }
    pure (.worldContents, true)
  | .respawn respawn => do
    Mut.ofExcept <| match respawn.rotation with
      | .reset rotation => validateRotation rotation
      | .preserve => .ok ()
    let geometry ← geometry respawn.spawn.dimensionType.rawId
    let session ← activeMut "Respawn"
    Mut.modify fun s => clearContents { s with
      session := some (respawned session respawn geometry) }
    pure (.worldContents, decide (session.spawnContext.dimension ≠ respawn.spawn.dimension))
  | .synchronizePlayerPosition update => do
    let session ← activeMut "SynchronizePlayerPosition"
    let position ← Mut.ofExcept <|
      applyPosition sums session.position session.rotation session.lastTeleportId update
    Mut.modify fun s => { s with session := some { session with
      rotation := some ⟨position.yaw, position.pitch⟩
      lastTeleportId := some position.teleportId
      position := some position } }
    pure (.none, false)
  | .synchronizePlayerRotation update => do
    let session ← activeMut "SynchronizePlayerRotation"
    let rotation ← Mut.ofExcept (applyRotation sums session.rotation update)
    Mut.modify fun s => { s with session := some { session with
      rotation := some rotation
      position := session.position.map fun position =>
        { position with yaw := rotation.yaw, pitch := rotation.pitch } } }
    pure (.none, false)
  | .setSpawn spawn => do
    Mut.ofExcept (validateSpawn spawn)
    editSession "SetSpawn" ({ · with spawnPoint := some spawn })
    pure (.none, false)
  | .setTime time => do
    Mut.ofExcept (validateTime time)
    editSession "SetTime" ({ · with time := some time })
    pure (.none, false)
  | .setDifficulty difficulty locked => do
    editSession "SetDifficulty" ({ · with difficulty := some (difficulty, locked) })
    pure (.none, false)
  | .setRaining raining => do
    editSession "SetRaining" fun session =>
      { session with weather := { session.weather with raining := raining } }
    pure (.none, false)
  | .setRainLevel level => do
    Mut.ofExcept (validateLevel level "rain level")
    editSession "SetRainLevel" fun session =>
      { session with weather := { session.weather with rainLevel := level } }
    pure (.none, false)
  | .setThunderLevel level => do
    Mut.ofExcept (validateLevel level "thunder level")
    editSession "SetThunderLevel" fun session =>
      { session with weather := { session.weather with thunderLevel := level } }
    pure (.none, false)
  | .setGameMode mode => do
    editSession "SetGameMode" fun session =>
      { session with spawnContext := { session.spawnContext with gameMode := mode } }
    pure (.none, false)
  | .setWorldBorder border => do
    Mut.ofExcept (validateBorder border)
    editSession "SetWorldBorder" ({ · with border := some border })
    pure (.none, false)
  | .loadChunk chunk => do
    require .active "LoadChunk"
    let s ← Mut.get
    let chunks ← Mut.mapErr .chunkStore (Mut.ofExcept (s.chunks.insert chunk))
    Mut.modify fun s => { s with chunks := chunks }
    pure (.none, false)
  | .unloadChunk coordinate => do
    require .active "UnloadChunk"
    Mut.modify fun s => { s with chunks := OrderedMap.remove s.chunks coordinate }
    pure (.none, false)
  | .updateChunkLight coordinate light => do
    require .active "UpdateChunkLight"
    Mut.modify fun s => { s with chunks := s.chunks.updateLight coordinate light }
    pure (.none, false)
  | .disconnect => do
    Mut.modify (clearConnection .disconnected)
    pure (.connection, false)

def apply (sums : FloatSums) (event : WorldEvent) : WorldM Rest WorldTransition := do
  let s ← Mut.get
  let nextRevision ← Mut.okOr (checkedAddU64 s.revision 1) .revisionOverflow
  let (reset, dimensionChanged) ← handle sums event
  Mut.modify fun s => { s with revision := nextRevision }
  pure ⟨nextRevision, reset, dimensionChanged⟩

end WorldState

end Cubic.World
