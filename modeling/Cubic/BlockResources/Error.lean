import Cubic.Lib.Mut

/-!
# Errors of the block resources (`block_resources.rs`)
-/

namespace Cubic.BlockResources

set_option autoImplicit false

inductive BlockResourceError (ResourceError : Type) where
  | source (error : ResourceError)
  | identifier (value : String)
  | malformed (kind identifier reason : String)
  | atlasTooLarge (maximum : Nat)
  deriving DecidableEq

variable {ResourceError : Type}

def malformed (kind identifier reason : String) : BlockResourceError ResourceError :=
  .malformed kind identifier reason

end Cubic.BlockResources
