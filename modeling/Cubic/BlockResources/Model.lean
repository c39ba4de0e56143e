import Cubic.BlockResources.Error
import Cubic.Codec.VarInt
import Cubic.Lib.OrderedMap
import Cubic.Version.Identifier

/-!
# Model inheritance (`block_resources.rs`)

A resource source gives the same answer to the same question. Elements and transforms are passed on
as they are, so their types are parameters.
-/

namespace Cubic.BlockResources

set_option autoImplicit false

def maxJsonBytes : Nat := 1024 * 1024

def maxModelDepth : Nat := 32

def maxElements : Nat := 256

/-- What reading a resource fails with; the other errors of the crate are `ε`. -/
inductive ResourceError (ε : Type) where
  | invalidResourcePath (path : String)
  | other (error : ε)
  deriving DecidableEq

/-! ### Paths -/

def isResourcePath (path : String) : Bool :=
  let chars := path.toList
  !chars.isEmpty && path.utf8ByteSize ≤ 512 && chars.head? ≠ some '/' && chars.head? ≠ some '\\' &&
    !chars.contains '\\' && !chars.contains ':' && !chars.any isControl &&
      (chars.splitOn '/').all fun component =>
        !component.isEmpty && component ≠ ['.'] && component ≠ ['.', '.']

structure VanillaResourcePath where
  text : String
  valid : isResourcePath text = true
  deriving DecidableEq

section
variable {ε : Type}

def VanillaResourcePath.new (path : String) : Except (ResourceError ε) VanillaResourcePath :=
  if h : isResourcePath path then .ok ⟨path, h⟩ else .error (.invalidResourcePath path)

def parseIdentifier (value : String) :
    Except (BlockResourceError (ResourceError ε)) MinecraftIdentifier :=
  let value := if value.toList.contains ':' then value else "minecraft:" ++ value
  (MinecraftIdentifier.new value).mapError fun _ => .identifier value

def resourcePath (identifier : MinecraftIdentifier) (directory suffix : String) :
    Except (BlockResourceError (ResourceError ε)) VanillaResourcePath :=
  match splitOnce ':' identifier.text.toList with
  | none => .error (.identifier identifier.text)
  | some (ns, path) =>
    (VanillaResourcePath.new ("assets/" ++ String.ofList ns ++ "/" ++ directory ++ "/" ++
      String.ofList path ++ "." ++ suffix)).mapError .source

end

/-! ### Models -/

inductive TextureWire where
  | simple (sprite : String)
  | extended (sprite : String) (forceTranslucent : Bool)
  deriving DecidableEq

def TextureWire.intoSprite : TextureWire → String
  | simple sprite => sprite
  | extended sprite _ => sprite

structure ModelWire (Element Transform : Type) where
  parent : Option String
  textures : OrderedMap String TextureWire
  elements : Option (List Element)
  ambientocclusion : Option Bool
  display : OrderedMap String Transform
  guiLight : Option String
  deriving DecidableEq

structure ResolvedModel (Element Transform : Type) where
  textures : OrderedMap String String
  elements : List Element
  ambientOcclusion : Bool
  guiTransform : Option Transform
  guiLightSide : Bool

/-- The source of a loader, and what `serde_json` reads from a text. -/
structure Resources (ε Element Transform : Type) where
  readResource : VanillaResourcePath → Nat → Except (ResourceError ε) (Option Bytes)
  fromSlice : Bytes → Except String (ModelWire Element Transform)

section
variable {ε Element Transform : Type}

abbrev ResolvedModels (Element Transform : Type) :=
  OrderedMap MinecraftIdentifier (ResolvedModel Element Transform)

/-- A call on the models of a loader. -/
abbrev Loading (ε Element Transform : Type) :=
  Mut (ResolvedModels Element Transform) (BlockResourceError (ResourceError ε))

/-- A model that nothing is said of. -/
def bareModel (guiLightSide : Bool) : ResolvedModel Element Transform where
  textures := .empty
  elements := []
  ambientOcclusion := true
  guiTransform := none
  guiLightSide := guiLightSide

def isBuiltin (identifier : MinecraftIdentifier) : Bool :=
  identifier.text = "minecraft:builtin/generated" || identifier.text = "minecraft:builtin/entity"

def readModel (resources : Resources ε Element Transform) (identifier : MinecraftIdentifier) :
    Except (BlockResourceError (ResourceError ε)) (ModelWire Element Transform) := do
  let path ← resourcePath identifier "models" "json"
  let bytes ← (resources.readResource path maxJsonBytes).mapError BlockResourceError.source
  match bytes with
  | none => .error (malformed "model" identifier.text "resource is missing")
  | some bytes => (resources.fromSlice bytes).mapError (malformed "model" identifier.text)

/-- What a model changes of its parent. -/
def ModelWire.over (wire : ModelWire Element Transform) (identifier : MinecraftIdentifier)
    (inherited : ResolvedModel Element Transform) :
    Except (BlockResourceError (ResourceError ε)) (ResolvedModel Element Transform) :=
  let resolved : ResolvedModel Element Transform :=
    { inherited with
      ambientOcclusion := wire.ambientocclusion.getD inherited.ambientOcclusion
      guiTransform := (wire.display.lookup "gui").or inherited.guiTransform
      guiLightSide := (wire.guiLight.map fun light => light != "front").getD inherited.guiLightSide
      textures := (wire.textures.entries.map fun e => (e.1, e.2.intoSprite)).foldl
        (fun textures e => textures.insert e.1 e.2) inherited.textures }
  match wire.elements with
  | some elements =>
    if maxElements < elements.length then
      .error (malformed "model" identifier.text "too many elements")
    else .ok { resolved with elements := elements }
  | none => .ok resolved

/-- The model that a wire goes on from. -/
def inheritFrom (wire : ModelWire Element Transform)
    (resolveParent : MinecraftIdentifier → Loading ε Element Transform (ResolvedModel Element Transform)) :
    Loading ε Element Transform (ResolvedModel Element Transform) :=
  match wire.parent with
  | some parent => do
    let parent ← Mut.ofExcept (parseIdentifier parent)
    resolveParent parent
  | none => pure (bareModel true)

/-- A stack of its own does for the shared one: on success each call leaves it as it was, and
after an error nothing looks at it. -/
def resolveModel (resources : Resources ε Element Transform) (identifier : MinecraftIdentifier)
    (stack : List MinecraftIdentifier) :
    Loading ε Element Transform (ResolvedModel Element Transform) := do
  let models ← Mut.get
  match models.lookup identifier with
  | some model => pure model
  | none =>
    if isBuiltin identifier then do
      let model := bareModel (identifier.text = "minecraft:builtin/entity")
      Mut.modify fun models => models.insert identifier model
      pure model
    else if h : maxModelDepth ≤ stack.length ∨ identifier ∈ stack then
      Mut.fail (malformed "model" identifier.text "parent cycle or depth limit")
    else do
      let wire ← Mut.ofExcept (readModel resources identifier)
      let inherited ← inheritFrom wire fun parent =>
        resolveModel resources parent (stack ++ [identifier])
      let resolved ← Mut.ofExcept (wire.over identifier inherited)
      Mut.modify fun models => models.insert identifier resolved
      pure resolved
termination_by maxModelDepth - stack.length
decreasing_by
  rw [List.length_append, List.length_singleton]
  exact Nat.sub_lt_sub_left (not_le.mp (not_or.mp h).1) (Nat.lt_succ_self _)

end

end Cubic.BlockResources
