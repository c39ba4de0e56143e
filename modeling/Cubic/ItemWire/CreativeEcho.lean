import Cubic.Lib.Pointwise
import Cubic.ItemWire.BannerEcho
import Cubic.ItemWire.Untrusted

/-!
# A Creative slot packet for a stack that was received

The stack goes into the inventory and out again, with another count perhaps. The server reads
the packet as a stack with the same item and the same patch.
-/

namespace Cubic.ItemWire

set_option autoImplicit false

open Inventory (ComponentError ComponentValue)

section Profile
variable {layout : NbtLayout} {profile : ItemStackProfile} {identifier : MinecraftIdentifier}
  {payload : Bytes} {hash : Option Int32} {patterns : Option BannerPatternLayers}

/-! ### Through the inventory -/

theorem ItemStack.new_eq_ok {item : MinecraftIdentifier} {count : UInt32}
    {components : Inventory.ComponentPatch} {stack : Inventory.ItemStack}
    (h : Inventory.ItemStack.new item count components = .ok stack) :
    stack = ⟨item, count.toNat, components⟩ := by
  unfold Inventory.ItemStack.new at h
  split at h
  · cases h
  · obtain ⟨_, _, h⟩ := Mut.except_bind_eq_ok.mp h
    cases h
    rfl

/-- A component as it is sent, behind its length. -/
def delimited (profile : ItemStackProfile) (component : MinecraftIdentifier × Bytes) : Bytes :=
  componentHeader profile component.1 ++ writeVarInt (.ofNat component.2.length) ++ component.2

variable {patch : ComponentPatch}

/-- What `sent` is for a component of `patch`. -/
def SentFor (layout : NbtLayout) (profile : ItemStackProfile) (patch : ComponentPatch)
    (identifier : MinecraftIdentifier) (sent : Bytes) : Prop :=
  ∃ patterns, Valued layout profile identifier sent (patch.hashes.lookup identifier) patterns ∧
    (componentCodec identifier = .bannerPatterns → patch.bannerPatterns = patterns)

theorem Sound.sent (h : Sound layout profile patch) {sent : OrderedMap MinecraftIdentifier Bytes}
    (hsent : OrderedMap.Pointwise (fun k _ bytes => SentFor layout profile patch k bytes)
      patch.added sent) : Sound layout profile { patch with added := sent } where
  valued hlookup := by
    obtain ⟨_, _, hvalued⟩ := hsent.flip.lookup_some hlookup
    exact hvalued
  hashes hlookup := h.hashes (hsent.lookup_none.mpr hlookup)
  patterns hlookup := h.patterns (hsent.lookup_none.mpr hlookup)
  removed hlookup := ⟨hsent.lookup_none.mp (h.removed hlookup).1, (h.removed hlookup).2⟩

end Profile

/-! ### A banner -/

end Cubic.ItemWire
