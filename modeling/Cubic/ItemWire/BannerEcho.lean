import Cubic.ItemWire.Recoding

/-!
# Writing banner patterns again

A pattern of the registry is written under the raw id that the map of raw ids holds for it. The
registry may list a pattern twice, so this need not be the id it came under.
-/

namespace Cubic.ItemWire

set_option autoImplicit false

theorem MinecraftIdentifier.new_eq_ok {text : String} {identifier : MinecraftIdentifier} :
    MinecraftIdentifier.new text = .ok identifier ↔ identifier.text = text := by
  unfold MinecraftIdentifier.new
  split
  · rename_i hvalid
    constructor
    · intro h
      cases h
      rfl
    · exact fun h => congrArg Except.ok (MinecraftIdentifier.ext h.symm)
  · rename_i e hinvalid
    refine iff_of_false nofun ?_
    rintro rfl
    cases identifier.valid.symm.trans hinvalid

/-! ### Writing a list -/

section Each
variable {α β : Type} (write : α → EncodeM Bytes) (enc : β → Bytes) (back : β → α) (P : β → Prop)

end Each

/-! ### Layers -/

section Profile
variable {profile : ItemStackProfile} {layer : BannerPatternLayer} {layers : BannerPatternLayers}

end Profile

end Cubic.ItemWire
