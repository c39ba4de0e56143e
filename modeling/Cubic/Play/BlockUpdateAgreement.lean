import Cubic.Play.BlockUpdate

/-! # A section update and the single updates for its entries tell the world the same -/

namespace Cubic

set_option autoImplicit false

open BitField

/-! ### Conversions -/

/-- The local offsets of an entry are below 16. -/
def SectionBlockUpdate.Local (entry : SectionBlockUpdate) : Prop :=
  entry.localX.toNat < 16 ∧ entry.localY.toNat < 16 ∧ entry.localZ.toNat < 16

/-- The block an entry means. -/
def SectionBlocksUpdate.target (blocks : SectionBlocksUpdate) (entry : SectionBlockUpdate) :
    BlockStateUpdate where
  position := {
    x := .ofInt (blocks.sectionX.toInt * 16 + entry.localX.toNat)
    y := .ofInt (blocks.sectionY.toInt * 16 + entry.localY.toNat)
    z := .ofInt (blocks.sectionZ.toInt * 16 + entry.localZ.toNat) }
  state := ⟨entry.stateId⟩

end Cubic
