import Mathlib.Algebra.Order.Ring.Nat
import Mathlib.Tactic.Linarith
import Mathlib.Tactic.Ring

/-!
# Compositing (`block_resources.rs`)

No sum or product of `composite_rgba` leaves the range of `u32`.
-/

namespace Cubic.BlockResources

set_option autoImplicit false

/-- Four bytes of a buffer. -/
structure Rgba where
  red : UInt8
  green : UInt8
  blue : UInt8
  alpha : UInt8
  deriving DecidableEq

inductive Channel where
  | red
  | green
  | blue
  deriving DecidableEq

def Rgba.colour (pixel : Rgba) : Channel → Nat
  | .red => pixel.red.toNat
  | .green => pixel.green.toNat
  | .blue => pixel.blue.toNat

section
variable (target source : Rgba)

def outputAlpha : Nat :=
  source.alpha.toNat + target.alpha.toNat * (255 - source.alpha.toNat) / 255

def premultiplied (channel : Channel) : Nat :=
  source.colour channel * source.alpha.toNat +
    target.colour channel * target.alpha.toNat * (255 - source.alpha.toNat) / 255

/-- The colour before the cast. Division by zero is zero here as it is there. -/
def outputColour (channel : Channel) : Nat :=
  premultiplied target source channel / outputAlpha target source

def compositePixel : Rgba where
  red := .ofNat (outputColour target source .red)
  green := .ofNat (outputColour target source .green)
  blue := .ofNat (outputColour target source .blue)
  alpha := .ofNat (outputAlpha target source)

end

/-- The pixels of a buffer; bytes that make up no pixel are left out. -/
def asChunks : List UInt8 → List Rgba
  | red :: green :: blue :: alpha :: rest => ⟨red, green, blue, alpha⟩ :: asChunks rest
  | _ => []

def Rgba.bytes (pixel : Rgba) : List UInt8 := [pixel.red, pixel.green, pixel.blue, pixel.alpha]

def compositeRgba : List UInt8 → List UInt8 → List UInt8
  | red :: green :: blue :: alpha :: target, red' :: green' :: blue' :: alpha' :: source =>
    (compositePixel ⟨red, green, blue, alpha⟩ ⟨red', green', blue', alpha'⟩).bytes ++
      compositeRgba target source
  | target, _ => target

/-! ### What is asked of a pixel -/

/-- The colour of a channel is a byte, and one of the two colours or between them but for one. -/
structure Blends (target source : Rgba) (channel : Channel) : Prop where
  byte : outputColour target source channel ≤ 255
  low : min (source.colour channel) (target.colour channel) ≤ outputColour target source channel + 1
  high : outputColour target source channel ≤
    max (source.colour channel) (target.colour channel) + 1

structure Composited (target source result : Rgba) : Prop where
  blends : outputAlpha target source ≠ 0 → ∀ channel, Blends target source channel
  blank : outputAlpha target source = 0 → ∀ channel, outputColour target source channel = 0
  alpha : result.alpha.toNat = outputAlpha target source
  covers : max source.alpha.toNat target.alpha.toNat ≤ result.alpha.toNat + 1
  opaqueSource : source.alpha = 255 → result = source
  clearSource : source.alpha = 0 → target.alpha ≠ 0 → result = target

/-- The target's alpha under the source, in units of `1 / 255 ^ 2`. -/
def alphaUnder (target source : Rgba) : Nat :=
  target.alpha.toNat * (255 - source.alpha.toNat)

/-- The colour of what the division drops from the target's alpha is less than what the division of
the colours leaves room for: the way of both colours to the larger one, and two steps beyond that,
or one if it is the last. -/
def DropsLittle (target source : Rgba) (channel : Channel) : Prop :=
  let kept := alphaUnder target source / 255
  let dropped := alphaUnder target source % 255
  let larger := max (source.colour channel) (target.colour channel)
  target.colour channel * dropped / 255 <
    (larger - source.colour channel) * source.alpha.toNat +
      (larger - target.colour channel) * kept + min 2 (256 - larger) * (source.alpha.toNat + kept)

section
variable {target source : Rgba} {channel : Channel}

theorem Rgba.colour_le (pixel : Rgba) (channel : Channel) : pixel.colour channel ≤ 255 := by
  cases channel
  · exact Nat.le_of_lt_succ pixel.red.toNat_lt
  · exact Nat.le_of_lt_succ pixel.green.toNat_lt
  · exact Nat.le_of_lt_succ pixel.blue.toNat_lt

theorem Rgba.alpha_le (pixel : Rgba) : pixel.alpha.toNat ≤ 255 :=
  Nat.le_of_lt_succ pixel.alpha.toNat_lt

/-! ### The alpha -/

theorem outputAlpha_eq :
    outputAlpha target source = source.alpha.toNat + alphaUnder target source / 255 := rfl

theorem outputAlpha_le : outputAlpha target source ≤ 255 := by
  have hsource := source.alpha_le
  have hunder : alphaUnder target source ≤ 255 * (255 - source.alpha.toNat) :=
    Nat.mul_le_mul_right _ target.alpha_le
  rw [outputAlpha_eq]
  omega

theorem le_outputAlpha : target.alpha.toNat ≤ outputAlpha target source := by
  have hsource := source.alpha_le
  have htarget := target.alpha_le
  have hunder : 255 * target.alpha.toNat ≤ alphaUnder target source + 255 * source.alpha.toNat := by
    calc
      255 * target.alpha.toNat
        = target.alpha.toNat * (255 - source.alpha.toNat + source.alpha.toNat) := by
          rw [Nat.sub_add_cancel hsource, Nat.mul_comm]
      _ = alphaUnder target source + target.alpha.toNat * source.alpha.toNat := Nat.mul_add _ _ _
      _ ≤ _ := Nat.add_le_add_left (Nat.mul_le_mul_right _ htarget) _
  rw [outputAlpha_eq]
  omega

theorem outputAlpha_eq_zero :
    outputAlpha target source = 0 ↔ source.alpha = 0 ∧ target.alpha = 0 := by
  constructor
  · intro h
    have htarget : target.alpha.toNat ≤ 0 := h ▸ le_outputAlpha
    have hsource : source.alpha.toNat = 0 := by
      rw [outputAlpha_eq] at h
      omega
    exact ⟨UInt8.toNat_inj.mp hsource, UInt8.toNat_inj.mp (Nat.le_zero.mp htarget)⟩
  · rintro ⟨hsource, htarget⟩
    simp [outputAlpha, hsource, htarget]

/-! ### The colours -/

/-- The two parts of the target's alpha, each with the target's colour. -/
theorem premultiplied_eq : premultiplied target source channel =
    source.colour channel * source.alpha.toNat +
      target.colour channel * (alphaUnder target source / 255) +
        target.colour channel * (alphaUnder target source % 255) / 255 := by
  have hsplit : target.colour channel * target.alpha.toNat * (255 - source.alpha.toNat) =
      255 * (target.colour channel * (alphaUnder target source / 255)) +
        target.colour channel * (alphaUnder target source % 255) := by
    calc
      _ = target.colour channel *
          (255 * (alphaUnder target source / 255) + alphaUnder target source % 255) := by
        rw [Nat.div_add_mod, alphaUnder, Nat.mul_assoc]
      _ = _ := by
        ring
  rw [premultiplied, hsplit, Nat.mul_add_div (by decide), Nat.add_assoc]

theorem premultiplied_ge :
    min (source.colour channel) (target.colour channel) * outputAlpha target source ≤
      premultiplied target source channel := by
  rw [premultiplied_eq, outputAlpha_eq, Nat.mul_add]
  apply Nat.le_add_right_of_le
  exact Nat.add_le_add (Nat.mul_le_mul_right _ (Nat.min_le_left _ _))
    (Nat.mul_le_mul_right _ (Nat.min_le_right _ _))

theorem outputColour_ge (halpha : outputAlpha target source ≠ 0) :
    min (source.colour channel) (target.colour channel) ≤ outputColour target source channel :=
  (Nat.le_div_iff_mul_le (Nat.pos_of_ne_zero halpha)).mpr premultiplied_ge

theorem sub_mul_add {m a b : Nat} (h : a ≤ m) : (m - a) * b + a * b = m * b := by
  rw [← Nat.add_mul, Nat.sub_add_cancel h]

theorem dropsLittle_iff : DropsLittle target source channel ↔
    premultiplied target source channel <
      (max (source.colour channel) (target.colour channel) +
        min 2 (256 - max (source.colour channel) (target.colour channel))) *
          outputAlpha target source := by
  have hsource := sub_mul_add (b := source.alpha.toNat)
    (Nat.le_max_left (source.colour channel) (target.colour channel))
  have htarget := sub_mul_add (b := alphaUnder target source / 255)
    (Nat.le_max_right (source.colour channel) (target.colour channel))
  rw [premultiplied_eq, outputAlpha_eq, Nat.add_mul, Nat.mul_add, ← hsource, ← htarget]
  unfold DropsLittle
  dsimp only
  omega

/-- A colour blends exactly when the division of the alpha drops little. -/
theorem blends_iff (halpha : outputAlpha target source ≠ 0) :
    Blends target source channel ↔ DropsLittle target source channel := by
  have hsource := source.colour_le channel
  have htarget := target.colour_le channel
  have hlow : min (source.colour channel) (target.colour channel) ≤
      outputColour target source channel := outputColour_ge halpha
  rw [dropsLittle_iff, ← Nat.div_lt_iff_lt_mul (Nat.pos_of_ne_zero halpha)]
  constructor
  · intro h
    have hbyte := h.byte
    have hhigh := h.high
    unfold outputColour at hbyte hhigh
    omega
  · intro h
    unfold outputColour at hlow
    refine ⟨?_, ?_, ?_⟩ <;> unfold outputColour <;> omega

/-! ### Whole pixels -/

@[simp] theorem compositePixel_alpha :
    (compositePixel target source).alpha.toNat = outputAlpha target source := by
  simp only [compositePixel, UInt8.toNat_ofNat']
  exact Nat.mod_eq_of_lt (Nat.lt_succ_of_le outputAlpha_le)

theorem eq_compositePixel {pixel : Rgba}
    (hcolour : ∀ channel, outputColour target source channel = pixel.colour channel)
    (halpha : outputAlpha target source = pixel.alpha.toNat) :
    compositePixel target source = pixel := by
  unfold compositePixel
  rw [hcolour .red, hcolour .green, hcolour .blue, halpha]
  simp only [Rgba.colour, UInt8.ofNat_toNat]

theorem compositePixel_opaque (h : source.alpha = 255) : compositePixel target source = source := by
  have halpha : outputAlpha target source = 255 := by
    simp [outputAlpha, h]
  apply eq_compositePixel
  · intro channel
    rw [outputColour, halpha, premultiplied, h]
    simp
  · rw [halpha, h]
    rfl

theorem compositePixel_clear (h : source.alpha = 0) (htarget : target.alpha ≠ 0) :
    compositePixel target source = target := by
  have halpha : outputAlpha target source = target.alpha.toNat := by
    simp [outputAlpha, h]
  have hpos : 0 < target.alpha.toNat :=
    Nat.pos_of_ne_zero fun h => htarget (UInt8.toNat_inj.mp h)
  apply eq_compositePixel
  · intro channel
    rw [outputColour, halpha, premultiplied, h]
    simp [Nat.mul_div_cancel _ hpos]
  · exact halpha

theorem composited_iff : Composited target source (compositePixel target source) ↔
    source.alpha = 0 ∧ target.alpha = 0 ∨ ∀ channel, DropsLittle target source channel := by
  constructor
  · intro h
    by_cases halpha : outputAlpha target source = 0
    · exact Or.inl (outputAlpha_eq_zero.mp halpha)
    · exact Or.inr fun channel => (blends_iff halpha).mp (h.blends halpha channel)
  · intro h
    have hcovers : max source.alpha.toNat target.alpha.toNat ≤ outputAlpha target source :=
      max_le (Nat.le_add_right _ _) le_outputAlpha
    refine ⟨fun halpha channel => ?_, fun halpha channel => ?_, compositePixel_alpha,
      compositePixel_alpha ▸ Nat.le_succ_of_le hcovers, compositePixel_opaque,
      compositePixel_clear⟩
    · rcases h with hclear | h
      · exact absurd (outputAlpha_eq_zero.mpr hclear) halpha
      · exact (blends_iff halpha).mpr (h channel)
    · rw [outputColour, halpha, Nat.div_zero]

end

/-! ### Buffers -/

theorem compositeRgba_chunk (target source : List UInt8) (i : Nat) {t s : Rgba}
    (ht : (asChunks target)[i]? = some t) (hs : (asChunks source)[i]? = some s) :
    (asChunks (compositeRgba target source))[i]? = some (compositePixel t s) := by
  fun_induction compositeRgba target source generalizing i with
  | case1 red green blue alpha target red' green' blue' alpha' source ih =>
    cases i with
    | zero =>
      cases ht
      cases hs
      rfl
    | succ i => exact ih i ht hs
  | case2 target source hshort =>
    cases source using asChunks.fun_cases with
    | case1 red' green' blue' alpha' source =>
      cases target using asChunks.fun_cases with
      | case1 red green blue alpha target => exact absurd rfl (hshort _ _ _ _ _ _ _ _ _ _ rfl)
      | case2 target hempty =>
        rw [asChunks] at ht
        · cases ht
        · exact hempty
    | case2 source hempty =>
      rw [asChunks] at hs
      · cases hs
      · exact hempty

/-- Compositing keeps every pixel in range exactly when no division of an alpha drops too much. -/
theorem compositeRgba_composited_iff (target source : List UInt8) :
    (∀ (i : Nat) (t s : Rgba), (asChunks target)[i]? = some t → (asChunks source)[i]? = some s →
        ∃ r : Rgba, (asChunks (compositeRgba target source))[i]? = some r ∧ Composited t s r) ↔
      ∀ (i : Nat) (t s : Rgba), (asChunks target)[i]? = some t → (asChunks source)[i]? = some s →
        s.alpha = 0 ∧ t.alpha = 0 ∨ ∀ channel, DropsLittle t s channel := by
  constructor
  · intro h i t s ht hs
    obtain ⟨r, hr, hcomposited⟩ := h i t s ht hs
    cases (compositeRgba_chunk target source i ht hs).symm.trans hr
    exact composited_iff.mp hcomposited
  · intro h i t s ht hs
    exact ⟨_, compositeRgba_chunk target source i ht hs, composited_iff.mpr (h i t s ht hs)⟩

/-- White that can hardly be seen over the same white comes out darker. -/
theorem compositeRgba_wraps :
    compositeRgba [255, 255, 255, 1] [255, 255, 255, 1] = [253, 253, 253, 1] ∧
      outputColour ⟨255, 255, 255, 1⟩ ⟨255, 255, 255, 1⟩ .red = 509 ∧
      ¬ ∀ (i : Nat) (t s : Rgba), (asChunks [255, 255, 255, 1])[i]? = some t →
        (asChunks [255, 255, 255, 1])[i]? = some s →
          ∃ r : Rgba, (asChunks (compositeRgba [255, 255, 255, 1] [255, 255, 255, 1]))[i]? =
            some r ∧ Composited t s r := by
  refine ⟨by decide, by decide, fun h => ?_⟩
  obtain ⟨r, -, hcomposited⟩ := h 0 _ _ rfl rfl
  have hbyte := (hcomposited.blends (by decide) .red).byte
  exact absurd hbyte (by decide)

end Cubic.BlockResources
