import Mathlib.Algebra.BigOperators.Group.List.Basic
import Mathlib.Algebra.Order.Ring.Nat
import Mathlib.Data.List.Pairwise

/-!
# Packing boxes on shelves

Boxes are set side by side on a shelf; one that would not fit goes on a new shelf above the highest
box of the last. Around each box a margin is kept free.
-/

namespace Cubic.Packing

set_option autoImplicit false

structure Box where
  x : Nat
  y : Nat
  width : Nat
  height : Nat

/-- Where the next box goes, and how high the boxes of its shelf are. -/
structure Shelf where
  x : Nat
  y : Nat
  row : Nat

variable {width margin : Nat}

/-- The boxes with their margins do not overlap. -/
def Box.Apart (margin : Nat) (a b : Box) : Prop :=
  a.x + a.width + 2 * margin ≤ b.x ∨ b.x + b.width + 2 * margin ≤ a.x ∨
    a.y + a.height + 2 * margin ≤ b.y ∨ b.y + b.height + 2 * margin ≤ a.y

theorem Box.Apart.symm {a b : Box} (h : a.Apart margin b) : b.Apart margin a := by
  rcases h with h | h | h | h
  · exact Or.inr (Or.inl h)
  · exact Or.inl h
  · exact Or.inr (Or.inr (Or.inr h))
  · exact Or.inr (Or.inr (Or.inl h))

/-- The shelf a box of this width goes on. -/
def Shelf.turn (width margin : Nat) (s : Shelf) (w : Nat) : Shelf :=
  if width < s.x + w + margin then ⟨margin, s.y + (s.row + 2 * margin), 0⟩ else s

def Shelf.after (margin : Nat) (s : Shelf) (w h : Nat) : Shelf :=
  ⟨s.x + (w + 2 * margin), s.y, max s.row h⟩

def layout (width margin : Nat) : List (Nat × Nat) → Shelf → List Box × Shelf
  | [], s => ([], s)
  | (w, h) :: rest, s =>
    let s := s.turn width margin w
    let (boxes, last) := layout width margin rest (s.after margin w h)
    (⟨s.x, s.y, w, h⟩ :: boxes, last)

/-- A box lies within the width, and below the shelf or before the next box on it. -/
structure Box.Behind (width margin : Nat) (s : Shelf) (b : Box) : Prop where
  left : margin ≤ b.x
  right : b.x + b.width + margin ≤ width
  bottom : margin ≤ b.y
  behind : b.y + b.height + 2 * margin ≤ s.y ∨
    b.y = s.y ∧ b.x + b.width + 2 * margin ≤ s.x ∧ b.height ≤ s.row

structure Shelf.Holds (width margin : Nat) (s : Shelf) (placed : List Box) : Prop where
  left : margin ≤ s.x
  bottom : margin ≤ s.y
  behind : ∀ b ∈ placed, b.Behind width margin s
  apart : placed.Pairwise (Box.Apart margin)

theorem Shelf.holds_nil : Shelf.Holds width margin ⟨margin, margin, 0⟩ [] :=
  ⟨le_rfl, le_rfl, fun _ h => absurd h List.not_mem_nil, .nil⟩

section
variable {s : Shelf} {placed : List Box} {w h : Nat}

theorem Shelf.Holds.turn (hs : s.Holds width margin placed) (w : Nat) :
    (s.turn width margin w).Holds width margin placed := by
  unfold Shelf.turn
  split
  · refine ⟨le_rfl, Nat.le_add_right_of_le hs.bottom, fun b hb => ?_, hs.apart⟩
    obtain ⟨hleft, hright, hbottom, hbehind⟩ := hs.behind b hb
    refine ⟨hleft, hright, hbottom, Or.inl ?_⟩
    rcases hbehind with hbelow | ⟨hrow, -, hheight⟩
    · exact Nat.le_add_right_of_le hbelow
    · simp only
      omega
  · exact hs

theorem Shelf.turn_fits (hw : w + 2 * margin ≤ width) :
    (s.turn width margin w).x + w + margin ≤ width := by
  unfold Shelf.turn
  split
  · simp only
    omega
  · omega

/-- What lies behind the shelf is apart from the box that comes next. -/
theorem Box.Behind.apart {b : Box} (hb : b.Behind width margin s) :
    b.Apart margin ⟨s.x, s.y, w, h⟩ := by
  rcases hb.behind with hbelow | ⟨-, hbefore, -⟩
  · exact Or.inr (Or.inr (Or.inl hbelow))
  · exact Or.inl hbefore

theorem Shelf.Holds.after (hs : s.Holds width margin placed) (hw : s.x + w + margin ≤ width)
    (h : Nat) :
    (s.after margin w h).Holds width margin (placed ++ [⟨s.x, s.y, w, h⟩]) := by
  refine ⟨Nat.le_add_right_of_le hs.left, hs.bottom, fun b hb => ?_, ?_⟩
  · rcases List.mem_append.mp hb with hb | hb
    · obtain ⟨hleft, hright, hbottom, hbehind⟩ := hs.behind b hb
      refine ⟨hleft, hright, hbottom, ?_⟩
      rcases hbehind with hbelow | ⟨hrow, hbefore, hheight⟩
      · exact Or.inl hbelow
      · exact Or.inr ⟨hrow, Nat.le_add_right_of_le hbefore, le_max_of_le_left hheight⟩
    · rw [List.mem_singleton.mp hb]
      refine ⟨hs.left, hw, hs.bottom, Or.inr ⟨rfl, ?_, le_max_right _ _⟩⟩
      exact Nat.le_of_eq (Nat.add_assoc _ _ _)
  · refine List.pairwise_append.mpr ⟨hs.apart, List.pairwise_singleton _ _, ?_⟩
    intro a ha b hb
    rw [List.mem_singleton.mp hb]
    exact (hs.behind a ha).apart

end

/-- The boxes of a layout join those that are placed. -/
theorem layout_holds (sizes : List (Nat × Nat)) (hsizes : ∀ size ∈ sizes, size.1 + 2 * margin ≤ width) :
    ∀ {s : Shelf} {placed : List Box}, s.Holds width margin placed →
      (layout width margin sizes s).2.Holds width margin
        (placed ++ (layout width margin sizes s).1) := by
  induction sizes with
  | nil =>
    intro s placed hs
    rw [layout, List.append_nil]
    exact hs
  | cons size rest ih =>
    obtain ⟨w, h⟩ := size
    intro s placed hs
    obtain ⟨hw, hrest⟩ := List.forall_mem_cons.mp hsizes
    have hnext := (hs.turn w).after (Shelf.turn_fits hw) h
    have hthen := ih hrest hnext
    rw [List.append_assoc] at hthen
    exact hthen

/-- The boxes have the sizes asked for, in their order. -/
theorem layout_sizes (sizes : List (Nat × Nat)) : ∀ s : Shelf,
    (layout width margin sizes s).1.map (fun b => (b.width, b.height)) = sizes := by
  induction sizes with
  | nil => exact fun _ => rfl
  | cons size rest ih =>
    obtain ⟨w, h⟩ := size
    exact fun s => congrArg (List.cons (w, h)) (ih _)

/-- The shelves rise by no more than all the boxes one on the other. -/
theorem layout_height (sizes : List (Nat × Nat)) : ∀ s : Shelf,
    (layout width margin sizes s).2.y + (layout width margin sizes s).2.row ≤
      s.y + s.row + (sizes.map fun size => size.2 + 2 * margin).sum := by
  induction sizes with
  | nil => exact fun _ => le_rfl
  | cons size rest ih =>
    obtain ⟨w, h⟩ := size
    intro s
    have hrest := ih ((s.turn width margin w).after margin w h)
    have hturn : (s.turn width margin w).y + max (s.turn width margin w).row h ≤
        s.y + s.row + (h + 2 * margin) := by
      unfold Shelf.turn
      split
      · simp only
        omega
      · omega
    rw [List.map_cons, List.sum_cons]
    change (layout width margin rest _).2.y + (layout width margin rest _).2.row ≤ _
    simp only [Shelf.after] at hrest
    unfold Shelf.after
    omega

/-- The shelves do not come down. -/
theorem le_layout_height (sizes : List (Nat × Nat)) : ∀ s : Shelf,
    s.y + s.row ≤ (layout width margin sizes s).2.y + (layout width margin sizes s).2.row := by
  induction sizes with
  | nil => exact fun _ => le_rfl
  | cons size rest ih =>
    obtain ⟨w, h⟩ := size
    intro s
    have hrest := ih ((s.turn width margin w).after margin w h)
    have hturn : s.y + s.row ≤ (s.turn width margin w).y + max (s.turn width margin w).row h := by
      unfold Shelf.turn
      split
      · simp only
        omega
      · omega
    exact hturn.trans hrest

end Cubic.Packing
