import Cubic.Lib.Machine

/-!
# Namespaced identifiers

`game_data.rs`: an identifier value exists only if `validate_identifier` accepts
its text, so the check is a field of the type.
-/

namespace Cubic

set_option autoImplicit false

/-! ### Text predicates of the Rust standard library -/

def endsWith (text suffix : String) : Bool := suffix.toList.isSuffixOf text.toList

def containsText (text part : String) : Bool := text.toList.tails.any part.toList.isPrefixOf

/-- `char::is_control`: the Unicode category `Cc`. -/
def isControl (c : Char) : Bool := c.toNat < 0x20 || (0x7f ≤ c.toNat && c.toNat < 0xa0)

def isAsciiLowercase (c : Char) : Bool := 'a' ≤ c && c ≤ 'z'

def isAsciiDigit (c : Char) : Bool := '0' ≤ c && c ≤ '9'

def isAsciiHexdigit (c : Char) : Bool :=
  isAsciiDigit c || ('a' ≤ c && c ≤ 'f') || ('A' ≤ c && c ≤ 'F')

/-- `str::split_once` -/
def splitOnce (separator : Char) : List Char → Option (List Char × List Char)
  | [] => none
  | c :: rest =>
    if c = separator then some ([], rest)
    else (splitOnce separator rest).map fun parts => (c :: parts.1, parts.2)

/-! ### `MinecraftIdentifier` -/

def maxIdentifierBytes : Nat := 256

structure VersionError where
  invalidGameData ::
  reason : String
  deriving DecidableEq

def VersionError.message (e : VersionError) : String :=
  "invalid generated Minecraft game data: " ++ e.reason

def validateIdentifier (value : String) : Except VersionError Unit :=
  if value.isEmpty || value.utf8ByteSize > maxIdentifierBytes || value.toList.any isControl then
    .error ⟨"Minecraft identifier is empty, overlong, or contains controls"⟩
  else match splitOnce ':' value.toList with
    | none => .error ⟨"Minecraft identifier must contain an explicit namespace"⟩
    | some (ns, path) =>
      if ns.isEmpty || path.isEmpty ||
          (path.splitOn '/').any (fun part => part.isEmpty || part = ['.'] || part = ['.', '.'])
      then .error ⟨"Minecraft identifier has an invalid namespace or path"⟩
      else if !ns.all (fun c => isAsciiLowercase c || isAsciiDigit c || ['.', '_', '-'].contains c)
          || !path.all (fun c => isAsciiLowercase c || isAsciiDigit c ||
            ['/', '.', '_', '-'].contains c)
      then .error ⟨"Minecraft identifier contains unsupported characters"⟩
      else .ok ()

structure MinecraftIdentifier where
  text : String
  valid : validateIdentifier text = .ok ()
  deriving DecidableEq

namespace MinecraftIdentifier

@[ext] theorem ext {a b : MinecraftIdentifier} (h : a.text = b.text) : a = b := by
  cases a
  cases b
  cases h
  rfl

def new (value : String) : Except VersionError MinecraftIdentifier :=
  match h : validateIdentifier value with
  | .ok () => .ok ⟨value, h⟩
  | .error e => .error e

/-- The derived order is the order of the texts. -/
instance : LinearOrder MinecraftIdentifier :=
  LinearOrder.lift' text fun _ _ h => ext h

end MinecraftIdentifier

end Cubic
