import Mathlib.Algebra.Order.Field.Basic
import Mathlib.Tactic.Linarith
import Mathlib.Tactic.Ring

/-!
# Moving a span along a line until it touches

A span moves by a displacement that each obstacle on its way cuts down. An obstacle is met when
it is entered by more than `ε`, so that one entered by less still stops the span.
-/

namespace Cubic.Clip

set_option autoImplicit false

structure Span (K : Type) where
  lo : K
  hi : K

variable {K : Type} [Field K]

def Span.extent (s : Span K) : K := s.hi - s.lo

def Span.shift (s : Span K) (d : K) : Span K := ⟨s.lo + d, s.hi + d⟩

/-- The span as seen in a mirror at the origin. -/
def Span.mirror (s : Span K) : Span K := ⟨-s.hi, -s.lo⟩

@[simp] theorem Span.extent_mirror (s : Span K) : s.mirror.extent = s.extent := by
  simp only [Span.mirror, Span.extent]
  ring

theorem Span.mirror_shift (s : Span K) (d : K) : (s.shift d).mirror = s.mirror.shift (-d) := by
  simp only [Span.mirror, Span.shift, neg_add]

variable [LinearOrder K]

def Span.Meets (ε : K) (s o : Span K) : Prop := o.lo + ε < s.hi ∧ s.lo < o.hi - ε

def clipStep (ε : K) (s : Span K) (delta : K) (o : Span K) : K :=
  if 0 < delta ∧ s.lo < o.lo ∧ s.hi ≤ o.lo + ε then min delta (o.lo - s.hi)
  else if delta < 0 ∧ o.hi < s.hi ∧ o.hi - ε ≤ s.lo then max delta (o.hi - s.lo)
  else delta

def clip (ε : K) (s : Span K) (delta : K) (obstacles : List (Span K)) : K :=
  obstacles.foldl (clipStep ε s) delta

/-- `d` goes the way of `delta` and no farther, or at most `ε` back. -/
structure Within (ε delta d : K) : Prop where
  forward : 0 ≤ delta → -ε ≤ d ∧ d ≤ delta
  backward : delta ≤ 0 → delta ≤ d ∧ d ≤ ε

/-- The span is longer than the tolerance, and no gap between two obstacles is shorter than it by
no more than twice the tolerance. -/
structure Fits (ε : K) (s : Span K) (obstacles : List (Span K)) : Prop where
  tolerance : 0 < ε
  wide : ε < s.extent
  gaps : ∀ o ∈ obstacles, ∀ f ∈ obstacles,
    ¬ (s.extent - 2 * ε ≤ f.lo - o.hi ∧ f.lo - o.hi < s.extent)

def Clear (ε : K) (s : Span K) (obstacles : List (Span K)) : Prop :=
  ∀ o ∈ obstacles, ¬ s.Meets ε o

/-! ### The mirror -/

variable [IsStrictOrderedRing K]

theorem Span.meets_mirror {ε : K} {s o : Span K} :
    s.mirror.Meets ε o.mirror ↔ s.Meets ε o := by
  simp only [Span.mirror, Span.Meets]
  constructor
  · rintro ⟨hlo, hhi⟩
    constructor <;> linarith
  · rintro ⟨hlo, hhi⟩
    constructor <;> linarith

theorem Fits.mirror {ε : K} {s : Span K} {obstacles : List (Span K)} (h : Fits ε s obstacles) :
    Fits ε s.mirror (obstacles.map Span.mirror) := by
  refine ⟨h.tolerance, by rw [Span.extent_mirror]; exact h.wide, ?_⟩
  intro o' ho' f' hf'
  obtain ⟨o, ho, rfl⟩ := List.mem_map.mp ho'
  obtain ⟨f, hf, rfl⟩ := List.mem_map.mp hf'
  -- what lay ahead now lies behind
  have hgap := h.gaps f hf o ho
  rw [Span.extent_mirror]
  rintro ⟨hlow, hhigh⟩
  simp only [Span.mirror] at hlow hhigh
  exact hgap ⟨by linarith, by linarith⟩

theorem Clear.mirror {ε : K} {s : Span K} {obstacles : List (Span K)} (h : Clear ε s obstacles) :
    Clear ε s.mirror (obstacles.map Span.mirror) := by
  intro o' ho'
  obtain ⟨o, ho, rfl⟩ := List.mem_map.mp ho'
  exact fun hmeets => h o ho (Span.meets_mirror.mp hmeets)

theorem clipStep_mirror (ε : K) (s : Span K) (delta : K) (o : Span K) :
    clipStep ε s.mirror (-delta) o.mirror = -clipStep ε s delta o := by
  have hahead : (-delta < 0 ∧ o.mirror.hi < s.mirror.hi ∧ o.mirror.hi - ε ≤ s.mirror.lo) ↔
      (0 < delta ∧ s.lo < o.lo ∧ s.hi ≤ o.lo + ε) := by
    have hle : -o.lo - ε ≤ -s.hi ↔ s.hi ≤ o.lo + ε := by
      constructor <;> intro h <;> linarith
    simp only [Span.mirror, neg_lt_zero, neg_lt_neg_iff, hle]
  have hbehind : (0 < -delta ∧ s.mirror.lo < o.mirror.lo ∧ s.mirror.hi ≤ o.mirror.lo + ε) ↔
      (delta < 0 ∧ o.hi < s.hi ∧ o.hi - ε ≤ s.lo) := by
    have hle : -s.lo ≤ -o.hi + ε ↔ o.hi - ε ≤ s.lo := by
      constructor <;> intro h <;> linarith
    simp only [Span.mirror, neg_pos, neg_lt_neg_iff, hle]
  unfold clipStep
  rw [if_congr hbehind rfl (if_congr hahead rfl rfl)]
  by_cases h : 0 < delta ∧ s.lo < o.lo ∧ s.hi ≤ o.lo + ε
  · rw [if_neg (fun h' => absurd h.1 (not_lt.mpr h'.1.le)), if_pos h, if_pos h]
    simp only [Span.mirror, min_def, max_def]
    split <;> split <;> linarith
  · rw [if_neg h, if_neg h]
    split
    · simp only [Span.mirror, min_def, max_def]
      split <;> split <;> linarith
    · rfl

theorem clip_mirror (ε : K) (s : Span K) (delta : K) (obstacles : List (Span K)) :
    clip ε s.mirror (-delta) (obstacles.map Span.mirror) = -clip ε s delta obstacles := by
  unfold clip
  rw [List.foldl_map]
  induction obstacles generalizing delta with
  | nil => rfl
  | cons o rest ih =>
    rw [List.foldl_cons, List.foldl_cons, clipStep_mirror]
    exact ih _

/-! ### Moving forward -/

/-- What a forward displacement has become after some obstacles: not longer, and backward only
to leave one of all the obstacles that the span had entered. -/
structure Advance (ε : K) (s : Span K) (all : List (Span K)) (delta d : K) : Prop where
  le : d ≤ delta
  leaves : 0 ≤ d ∨ ∃ f ∈ all, d = f.lo - s.hi ∧ s.hi ≤ f.lo + ε

section Forward
variable {ε delta d : K} {s o : Span K} {all : List (Span K)}

theorem Advance.ge (h : Advance ε s all delta d) (hε : 0 < ε) : -ε ≤ d := by
  rcases h.leaves with hd | ⟨f, _, rfl, hf⟩
  · linarith
  · linarith

/-- A span sent back out of an obstacle does not enter those behind it. -/
theorem Advance.behind (h : Advance ε s all delta d) (hfits : Fits ε s all) (ho : o ∈ all)
    (hd : d < 0) (hbehind : o.hi - ε ≤ s.lo) : o.hi - s.lo ≤ d := by
  rcases h.leaves with hnonneg | ⟨f, hf, rfl, hle⟩
  · exact absurd hd (not_lt.mpr hnonneg)
  · have hgap := hfits.gaps o ho f hf
    simp only [Span.extent] at hgap
    by_contra hlt
    exact hgap ⟨by linarith, by linarith⟩

theorem Advance.step (h : Advance ε s all delta d) (hfits : Fits ε s all) (ho : o ∈ all) :
    Advance ε s all delta (clipStep ε s d o) ∧ clipStep ε s d o ≤ d := by
  unfold clipStep
  split
  next hahead =>
    obtain ⟨-, -, hnear⟩ := hahead
    rcases le_total d (o.lo - s.hi) with hle | hle
    · rw [min_eq_left hle]
      exact ⟨h, le_rfl⟩
    · rw [min_eq_right hle]
      exact ⟨⟨hle.trans h.le, Or.inr ⟨o, ho, rfl, hnear⟩⟩, hle⟩
  next =>
    split
    next hback =>
      rw [max_eq_left (h.behind hfits ho hback.1 hback.2.2)]
      exact ⟨h, le_rfl⟩
    next => exact ⟨h, le_rfl⟩

/-- After its own step an obstacle ahead is not entered. -/
theorem Advance.ahead (h : Advance ε s all delta d) (hfits : Fits ε s all) (ho : o ∈ all)
    (hlo : s.lo < o.lo) (hhi : s.hi ≤ o.lo + ε) : s.hi + clipStep ε s d o ≤ o.lo + ε := by
  rcases lt_or_ge 0 d with hd | hd
  · have hmin : min d (o.lo - s.hi) ≤ o.lo - s.hi := min_le_right _ _
    have hε := hfits.tolerance
    unfold clipStep
    rw [if_pos ⟨hd, hlo, hhi⟩]
    linarith
  · have hle := (h.step hfits ho).2
    linarith

theorem Advance.clip (h : Advance ε s all delta d) (hfits : Fits ε s all)
    (rest : List (Span K)) (hrest : ∀ o ∈ rest, o ∈ all) :
    Advance ε s all delta (clip ε s d rest) ∧ clip ε s d rest ≤ d ∧
      ∀ o ∈ rest, s.lo < o.lo → s.hi ≤ o.lo + ε → s.hi + Clip.clip ε s d rest ≤ o.lo + ε := by
  induction rest generalizing d with
  | nil => exact ⟨h, le_rfl, fun o ho => absurd ho List.not_mem_nil⟩
  | cons first rest ih =>
    have hfirst := hrest first List.mem_cons_self
    obtain ⟨hstep, hle⟩ := h.step hfits hfirst
    obtain ⟨hfinal, hlater, hothers⟩ := ih hstep fun o ho => hrest o (List.mem_cons_of_mem _ ho)
    refine ⟨hfinal, hlater.trans hle, ?_⟩
    intro o ho hlo hhi
    rcases List.mem_cons.mp ho with rfl | ho
    · have hnear := h.ahead hfits hfirst hlo hhi
      change s.hi + Clip.clip ε s (clipStep ε s d o) rest ≤ _
      linarith
    · exact hothers o ho hlo hhi

theorem clip_forward (hfits : Fits ε s all) (hclear : Clear ε s all) (hdelta : 0 ≤ delta) :
    (-ε ≤ clip ε s delta all ∧ clip ε s delta all ≤ delta) ∧
      Clear ε (s.shift (clip ε s delta all)) all := by
  have hstart : Advance ε s all delta delta := ⟨le_rfl, Or.inl hdelta⟩
  obtain ⟨hend, -, hahead⟩ := hstart.clip hfits all fun _ => id
  refine ⟨⟨hend.ge hfits.tolerance, hend.le⟩, ?_⟩
  intro o ho hmeets
  obtain ⟨henter, hleave⟩ := hmeets
  simp only [Span.shift] at henter hleave
  have hwide := hfits.wide
  simp only [Span.extent] at hwide
  rcases not_and_or.mp (hclear o ho) with hfront | hback
  · have hhi : s.hi ≤ o.lo + ε := not_lt.mp hfront
    have := hahead o ho (by linarith) hhi
    linarith
  · have hbehind : o.hi - ε ≤ s.lo := not_lt.mp hback
    rcases lt_or_ge (clip ε s delta all) 0 with hneg | hnonneg
    · have := hend.behind hfits ho hneg hbehind
      have hε := hfits.tolerance
      linarith
    · linarith

end Forward

/-! ### Moving either way -/

theorem Span.clear_mirror {ε : K} {s : Span K} {obstacles : List (Span K)}
    (h : Clear ε s.mirror (obstacles.map Span.mirror)) : Clear ε s obstacles :=
  fun o ho hmeets =>
    h o.mirror (List.mem_map_of_mem ho) (Span.meets_mirror.mpr hmeets)

theorem clip_backward {ε delta : K} {s : Span K} {obstacles : List (Span K)}
    (hfits : Fits ε s obstacles) (hclear : Clear ε s obstacles) (hdelta : delta ≤ 0) :
    (delta ≤ clip ε s delta obstacles ∧ clip ε s delta obstacles ≤ ε) ∧
      Clear ε (s.shift (clip ε s delta obstacles)) obstacles := by
  obtain ⟨⟨hlow, hhigh⟩, hfree⟩ :=
    clip_forward hfits.mirror hclear.mirror (neg_nonneg.mpr hdelta)
  rw [clip_mirror] at hlow hhigh hfree
  rw [← Span.mirror_shift] at hfree
  exact ⟨⟨neg_le_neg_iff.mp hhigh, neg_le_neg_iff.mp hlow⟩, Span.clear_mirror hfree⟩

/-- A clear span moves to a clear place, and not beyond what was asked. -/
theorem clip_clear {ε : K} (delta : K) {s : Span K} {obstacles : List (Span K)}
    (hfits : Fits ε s obstacles) (hclear : Clear ε s obstacles) :
    Within ε delta (clip ε s delta obstacles) ∧
      Clear ε (s.shift (clip ε s delta obstacles)) obstacles := by
  refine ⟨⟨fun h => (clip_forward hfits hclear h).1, fun h => (clip_backward hfits hclear h).1⟩, ?_⟩
  rcases le_total 0 delta with hdelta | hdelta
  · exact (clip_forward hfits hclear hdelta).2
  · exact (clip_backward hfits hclear hdelta).2

end Cubic.Clip
