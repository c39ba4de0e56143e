import Cubic.Lib.Mut

/-!
# Runs of a machine

`Run step s inputs t`: the inputs lead from `s` to `t`, one step each. Every beginning
of a run is a run, so what holds of the state a run ends in holds of every state on it.
-/

namespace Cubic

set_option autoImplicit false

inductive Run {σ ι : Type} (step : σ → ι → σ → Prop) : σ → List ι → σ → Prop where
  | nil (s : σ) : Run step s [] s
  | cons {s t u : σ} {i : ι} {rest : List ι} :
    step s i t → Run step t rest u → Run step s (i :: rest) u

namespace Run
variable {σ ι : Type} {step step' : σ → ι → σ → Prop} {s t u : σ} {inputs more : List ι}

theorem single {i : ι} (h : step s i t) : Run step s [i] t := .cons h (.nil t)

theorem trans (hst : Run step s inputs t) (htu : Run step t more u) :
    Run step s (inputs ++ more) u := by
  induction hst with
  | nil => exact htu
  | cons h _ ih => exact .cons h (ih htu)

theorem mono (hstep : ∀ s i t, step s i t → step' s i t) (h : Run step s inputs t) :
    Run step' s inputs t := by
  induction h with
  | nil s => exact .nil s
  | cons h _ ih => exact .cons (hstep _ _ _ h) ih

/-- What is known of the inputs is known at each step. -/
theorem of_forall {p : ι → Prop} (h : Run step s inputs t) (hp : ∀ i ∈ inputs, p i) :
    Run (fun s i t => step s i t ∧ p i) s inputs t := by
  induction h with
  | nil s => exact .nil s
  | cons h _ ih =>
    obtain ⟨hi, hrest⟩ := List.forall_mem_cons.mp hp
    exact .cons ⟨h, hi⟩ (ih hrest)

theorem append_iff : Run step s (inputs ++ more) u ↔ ∃ t, Run step s inputs t ∧ Run step t more u := by
  constructor
  · intro h
    induction inputs generalizing s with
    | nil => exact ⟨s, .nil s, h⟩
    | cons i rest ih =>
      cases h with
      | cons hstep hrest =>
        obtain ⟨t, hbefore, hafter⟩ := ih hrest
        exact ⟨t, .cons hstep hbefore, hafter⟩
  · rintro ⟨t, hbefore, hafter⟩
    exact hbefore.trans hafter

/-- Every beginning of a run is a run. -/
theorem of_prefix {before : List ι} (h : Run step s inputs t) (hbefore : before <+: inputs) :
    ∃ m, Run step s before m := by
  obtain ⟨rest, rfl⟩ := hbefore
  obtain ⟨m, hm, -⟩ := append_iff.mp h
  exact ⟨m, hm⟩

theorem invariant {I : σ → Prop} (hstep : ∀ s i t, I s → step s i t → I t)
    (h : Run step s inputs t) (hs : I s) : I t := by
  induction h with
  | nil => exact hs
  | cons h _ ih => exact ih (hstep _ _ _ hs h)

/-- `P` holds all along a run exactly when every step of it meets `c`, if `I` says `P`, the
steps that meet `c` keep `I`, and a step from a state with `I` has to meet `c` for `P`. -/
theorem forall_iff_of_keeps {I P : σ → Prop} {c : σ → ι → Prop}
    (hdet : ∀ s i t t', step s i t → step s i t' → t = t') (hI : ∀ s, I s → P s)
    (hkeep : ∀ s i t, I s → step s i t → c s i → I t)
    (hneed : ∀ s i t, I s → step s i t → P t → c s i)
    (hrun : Run step s inputs t) (hs : I s) :
    (∀ before m, before <+: inputs → Run step s before m → P m) ↔
      Run (fun s i t => step s i t ∧ c s i) s inputs t := by
  induction hrun with
  | nil s =>
    constructor
    · exact fun _ => .nil s
    · intro _ before m hbefore hm
      obtain rfl := List.prefix_nil.mp hbefore
      cases hm
      exact hI s hs
  | @cons s t u i rest h _ ih =>
    constructor
    · intro hall
      have hc : c s i := hneed s i t hs h (hall [i] t ⟨rest, rfl⟩ (single h))
      refine .cons ⟨h, hc⟩ ((ih (hkeep s i t hs h hc)).mp ?_)
      intro before m hbefore hm
      exact hall (i :: before) m (List.cons_prefix_cons.mpr ⟨rfl, hbefore⟩) (.cons h hm)
    · intro hmet before m hbefore hm
      cases hmet with
      | @cons _ t' _ _ _ hi hmet =>
        obtain rfl := hdet s i t t' h hi.1
        cases hm with
        | nil => exact hI s hs
        | @cons _ t' _ j before' hj hm =>
          obtain ⟨rfl, hrest⟩ := List.cons_prefix_cons.mp hbefore
          obtain rfl := hdet s j t t' h hj
          exact (ih (hkeep s j t hs h hi.2)).mpr hmet before' m hrest hm

/-- The same when the invariant is kept whether or not the steps meet `c`. -/
theorem forall_iff {I P : σ → Prop} {c : σ → ι → Prop}
    (hdet : ∀ s i t t', step s i t → step s i t' → t = t')
    (hkeep : ∀ s i t, I s → step s i t → I t)
    (hstep : ∀ s i t, I s → P s → step s i t → (P t ↔ c s i))
    (hrun : Run step s inputs t) (hI : I s) (hP : P s) :
    (∀ before m, before <+: inputs → Run step s before m → P m) ↔
      Run (fun s i t => step s i t ∧ c s i) s inputs t :=
  forall_iff_of_keeps (I := fun s => I s ∧ P s) hdet (fun _ h => h.2)
    (fun s i t h hi hc => ⟨hkeep s i t h.1 hi, (hstep s i t h.1 h.2 hi).mpr hc⟩)
    (fun s i t h hi => (hstep s i t h.1 h.2 hi).mp) hrun ⟨hI, hP⟩

/-- The run of a step function. -/
theorem iff_foldlM {f : σ → ι → Option σ} :
    Run (fun s i t => f s i = some t) s inputs t ↔ inputs.foldlM f s = some t := by
  constructor
  · intro h
    induction h with
    | nil s => rfl
    | @cons s u t i rest h _ ih =>
      rw [List.foldlM_cons, h]
      exact ih
  · intro h
    induction inputs generalizing s with
    | nil =>
      cases h
      exact .nil _
    | cons i rest ih =>
      rw [List.foldlM_cons] at h
      obtain ⟨u, hu, hrest⟩ := Option.bind_eq_some_iff.mp h
      exact .cons hu (ih hrest)

theorem foldl (f : σ → ι → σ) (s : σ) (inputs : List ι) :
    Run (fun s i t => f s i = t) s inputs (inputs.foldl f s) := by
  induction inputs generalizing s with
  | nil => exact .nil s
  | cons i rest ih => exact .cons rfl (ih (f s i))

/-- A run is found by running the step function. -/
theorem exists_of_foldlM {f : σ → ι → Option σ} {P : σ → Prop} [DecidablePred P]
    (h : (inputs.foldlM f s).any (fun t => decide (P t)) = true) :
    ∃ t, Run (fun s i t => f s i = some t) s inputs t ∧ P t := by
  cases hrun : inputs.foldlM f s with
  | none =>
    rw [hrun] at h
    cases h
  | some t =>
    rw [hrun] at h
    exact ⟨t, iff_foldlM.mpr hrun, of_decide_eq_true h⟩

/-- A run whose steps meet a condition is found by testing it at each step. -/
theorem exists_of_foldlM_guard {f : σ → ι → Option σ} {c : σ → ι → Prop}
    [∀ s i, Decidable (c s i)] {P : σ → Prop} [DecidablePred P]
    (h : (inputs.foldlM (fun s i => if c s i then f s i else none) s).any
      (fun t => decide (P t)) = true) :
    ∃ t, Run (fun s i t => f s i = some t ∧ c s i) s inputs t ∧ P t := by
  obtain ⟨t, hrun, hP⟩ := exists_of_foldlM h
  refine ⟨t, hrun.mono ?_, hP⟩
  intro s i t hstep
  split at hstep
  · rename_i hc
    exact ⟨hstep, hc⟩
  · cases hstep

end Run

/-! ### Runs of calls -/

/-- A state, with what the calls so far have put out. -/
structure Logged (σ ω : Type) where
  state : σ
  log : List ω

/-- One call, which may fail. It puts something out only when it succeeds; after a panic
there is no state to go on with. -/
def Logged.next {σ ε ω : Type} (s : Logged σ ω) (call : Mut σ ε (List ω)) :
    Option (Logged σ ω) :=
  match call s.state with
  | .ok out t => some ⟨t, s.log ++ out⟩
  | .err _ t => some ⟨t, s.log⟩
  | .panic => none

theorem Logged.next_cases {σ ε ω : Type} {call : Mut σ ε (List ω)} {s t : Logged σ ω}
    (h : s.next call = some t) :
    (∃ out, call s.state = .ok out t.state ∧ t.log = s.log ++ out) ∨
      (∃ e, call s.state = .err e t.state) ∧ t.log = s.log := by
  unfold Logged.next at h
  cases hcall : call s.state with
  | ok out u =>
    rw [hcall] at h
    cases h
    exact .inl ⟨out, rfl, rfl⟩
  | err e u =>
    rw [hcall] at h
    cases h
    exact .inr ⟨⟨e, rfl⟩, rfl⟩
  | panic =>
    rw [hcall] at h
    cases h

end Cubic
