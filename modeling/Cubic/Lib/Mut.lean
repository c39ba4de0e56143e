import Cubic.Lib.Machine

/-!
# Computations that mutate a state, may fail, and may panic

`Mut σ ε α` is a call with exclusive access to a state `σ`. An error keeps every
mutation made before it was raised; a panic ends the program. Machine arithmetic
and indexing panic outside their range, so "no panic" is a statement about both.
-/

namespace Cubic

set_option autoImplicit false

/-- What a call leaves behind. -/
inductive Outcome (ε σ α : Type) where
  | ok (value : α) (state : σ)
  | err (error : ε) (state : σ)
  | panic
  deriving DecidableEq

/-- What is asked of the three ways a call can end. -/
structure Post (ε σ α : Type) where
  ok : α → σ → Prop
  err : ε → σ → Prop
  panic : Prop

def Mut (σ ε α : Type) : Type := σ → Outcome ε σ α

namespace Outcome
variable {ε σ α : Type}

def Holds (Q : Post ε σ α) : Outcome ε σ α → Prop
  | ok a s => Q.ok a s
  | err e s => Q.err e s
  | panic => Q.panic

def value? : Outcome ε σ α → Option α
  | ok a _ => some a
  | _ => none

theorem exists_of_value? {o : Outcome ε σ α} (h : o.value?.isSome) : ∃ a s, o = ok a s := by
  cases o with
  | ok a s => exact ⟨a, s, rfl⟩
  | err e s => cases h
  | panic => cases h

/-- The result a caller sees once the state is dropped; a panic has none. -/
def result? : Outcome ε σ α → Option (Except ε α)
  | ok a _ => some (.ok a)
  | err e _ => some (.error e)
  | panic => none

/-- The state a caller goes on with, whether the call succeeded or not. -/
def state? : Outcome ε σ α → Option σ
  | ok _ s => some s
  | err _ s => some s
  | panic => none

end Outcome

namespace Mut
variable {σ τ ε ε' α β : Type}

def ret (a : α) : Mut σ ε α := fun s => .ok a s

def andThen (m : Mut σ ε α) (f : α → Mut σ ε β) : Mut σ ε β := fun s =>
  match m s with
  | .ok a s' => f a s'
  | .err e s' => .err e s'
  | .panic => .panic

instance : Monad (Mut σ ε) where
  pure := ret
  bind := andThen

def get : Mut σ ε σ := fun s => .ok s s

def set (s : σ) : Mut σ ε Unit := fun _ => .ok () s

def modify (f : σ → σ) : Mut σ ε Unit := fun s => .ok () (f s)

/-- Return an error to the caller. -/
def fail (e : ε) : Mut σ ε α := fun s => .err e s

/-- Stop the program: an overflow, an index out of bounds, an unreachable arm. -/
def fault : Mut σ ε α := fun _ => .panic

/-- Run a call on one part of the state. -/
def zoom (view : σ → τ) (put : τ → σ → σ) (m : Mut τ ε α) : Mut σ ε α := fun s =>
  match m (view s) with
  | .ok a t => .ok a (put t s)
  | .err e t => .err e (put t s)
  | .panic => .panic

def mapErr (f : ε → ε') (m : Mut σ ε α) : Mut σ ε' α := fun s =>
  match m s with
  | .ok a s' => .ok a s'
  | .err e s' => .err (f e) s'
  | .panic => .panic

/-- A call whose `Result` is kept as a value. -/
def attempt (m : Mut σ ε α) : Mut σ ε' (Except ε α) := fun s =>
  match m s with
  | .ok a s' => .ok (.ok a) s'
  | .err e s' => .ok (.error e) s'
  | .panic => .panic

/-- Return the value together with a fact proved of every value returned. -/
def certify (P : α → Prop) (m : Mut σ ε α) (h : ∀ s a s', m s = .ok a s' → P a) :
    Mut σ ε {a // P a} := fun s =>
  match hm : m s with
  | .ok a s' => .ok ⟨a, h s a s' hm⟩ s'
  | .err e s' => .err e s'
  | .panic => .panic

/-- A `Result` computed without touching the state. -/
def ofExcept : Except ε α → Mut σ ε α
  | .ok a => ret a
  | .error e => fail e

/-- A value that is there unless the program stops. -/
def ofOption : Option α → Mut σ ε α
  | some a => ret a
  | none => fault

/-- `Option::ok_or` and the `?` after it. -/
def okOr (o : Option α) (e : ε) : Mut σ ε α :=
  match o with
  | some a => ret a
  | none => fail e

/-- `n` calls in a row, with their values in order. -/
def repeatCall (m : Mut σ ε α) : Nat → Mut σ ε (List α)
  | 0 => pure []
  | n + 1 => do
    let a ← m
    let rest ← repeatCall m n
    pure (a :: rest)

/-! ### Arithmetic and indexing that panic outside their range -/

def addU32 (a b : Nat) : Mut σ ε Nat := if a + b < 2 ^ 32 then ret (a + b) else fault

def subU32 (a b : Nat) : Mut σ ε Nat := if b ≤ a then ret (a - b) else fault

def divU32 (a b : Nat) : Mut σ ε Nat := if b ≠ 0 then ret (a / b) else fault

def index (xs : List α) (i : Nat) : Mut σ ε α :=
  match xs[i]? with
  | some a => ret a
  | none => fault

/-! ### Running a call -/

theorem ret_apply (a : α) (s : σ) : (pure a : Mut σ ε α) s = .ok a s := rfl

theorem bind_of_ok {m : Mut σ ε α} {f : α → Mut σ ε β} {s s' : σ} {a : α}
    (h : m s = .ok a s') : (m >>= f) s = f a s' := by
  change andThen m f s = _
  simp only [andThen, h]

theorem bind_of_err {m : Mut σ ε α} {f : α → Mut σ ε β} {s s' : σ} {e : ε}
    (h : m s = .err e s') : (m >>= f) s = .err e s' := by
  change andThen m f s = _
  simp only [andThen, h]

theorem bind_assoc (m : Mut σ ε α) (f : α → Mut σ ε β) {γ : Type} (g : β → Mut σ ε γ) :
    (m >>= f) >>= g = m >>= fun a => f a >>= g := by
  funext s
  change andThen (andThen m f) g s = andThen m (fun a => andThen (f a) g) s
  unfold andThen
  cases m s <;> rfl

theorem id_map (m : Mut σ ε α) : id <$> m = m := by
  funext s
  change andThen m ret s = m s
  unfold andThen
  cases m s <;> rfl

instance : LawfulMonad (Mut σ ε) :=
  LawfulMonad.mk' (Mut σ ε) id_map (fun _ _ => rfl) fun m f g => bind_assoc m f g

@[simp] theorem get_bind (f : σ → Mut σ ε β) (s : σ) : (get >>= f) s = f s s := rfl

@[simp] theorem set_bind (t : σ) (f : Unit → Mut σ ε β) (s : σ) :
    (set t >>= f) s = f () t := rfl

@[simp] theorem modify_bind (g : σ → σ) (f : Unit → Mut σ ε β) (s : σ) :
    (modify g >>= f) s = f () (g s) := rfl

/-- A sequence succeeds exactly when both of its parts do. -/
theorem bind_eq_ok {m : Mut σ ε α} {f : α → Mut σ ε β} {s s'' : σ} {b : β} :
    (m >>= f) s = .ok b s'' ↔ ∃ a s', m s = .ok a s' ∧ f a s' = .ok b s'' := by
  change andThen m f s = _ ↔ _
  unfold andThen
  cases h : m s with
  | ok a s' =>
    constructor
    · exact fun hf => ⟨a, s', rfl, hf⟩
    · rintro ⟨a', t, heq, hf⟩
      cases heq
      exact hf
  | err e s' => simp
  | panic => simp

/-- What is done with the value at the end does not fail. -/
theorem bind_pure_eq_err {m : Mut σ ε α} {g : α → β} {s t : σ} {e : ε} :
    (m >>= fun a => pure (g a)) s = .err e t ↔ m s = .err e t := by
  change andThen m _ s = _ ↔ _
  unfold andThen
  cases m s with
  | ok a s' => exact iff_of_false nofun nofun
  | err e' s' =>
    constructor
    · intro h
      cases h
      rfl
    · intro h
      cases h
      rfl
  | panic => exact iff_of_false nofun nofun

theorem except_bind_eq_ok {r : Except ε α} {f : α → Except ε β} {b : β} :
    (r >>= f) = .ok b ↔ ∃ a, r = .ok a ∧ f a = .ok b := by
  cases r with
  | error e =>
    change Except.error e = _ ↔ _
    simp
  | ok a =>
    change f a = _ ↔ _
    simp

theorem mapError_eq_ok {r : Except ε α} {f : ε → ε'} {a : α} :
    r.mapError f = .ok a ↔ r = .ok a := by
  cases r with
  | error e =>
    change Except.error (f e) = _ ↔ _
    simp
  | ok b =>
    change Except.ok b = _ ↔ _
    simp

theorem ofExcept_eq_ok {r : Except ε α} {s s' : σ} {a : α} :
    ofExcept r s = .ok a s' ↔ r = .ok a ∧ s' = s := by
  cases r with
  | ok b =>
    change Outcome.ok b s = _ ↔ _
    simp [eq_comm]
  | error e =>
    change Outcome.err e s = _ ↔ _
    simp

theorem zoom_eq_ok {view : σ → τ} {put : τ → σ → σ} {m : Mut τ ε α} {s s' : σ} {a : α} :
    zoom view put m s = .ok a s' ↔ ∃ t, m (view s) = .ok a t ∧ s' = put t s := by
  unfold zoom
  cases m (view s) <;> simp [eq_comm]

theorem ofOption_eq_ok {o : Option α} {s s' : σ} {a : α} :
    (ofOption o : Mut σ ε α) s = .ok a s' ↔ o = some a ∧ s' = s := by
  cases o with
  | some b =>
    change Outcome.ok b s = _ ↔ _
    simp [eq_comm]
  | none =>
    change Outcome.panic = _ ↔ _
    simp

theorem okOr_eq_ok {o : Option α} {e : ε} {s s' : σ} {a : α} :
    okOr o e s = .ok a s' ↔ o = some a ∧ s' = s := by
  cases o with
  | some b =>
    change Outcome.ok b s = _ ↔ _
    simp [eq_comm]
  | none =>
    change Outcome.err e s = _ ↔ _
    simp

theorem addU32_eq_ok {a b n : Nat} {s s' : σ} :
    (addU32 a b : Mut σ ε Nat) s = .ok n s' ↔ a + b < 2 ^ 32 ∧ n = a + b ∧ s' = s := by
  unfold addU32
  split
  · rename_i h
    change Outcome.ok (a + b) s = _ ↔ _
    rw [Outcome.ok.injEq, eq_comm, @eq_comm _ s, and_iff_right h]
  · rename_i h
    exact iff_of_false nofun fun hab => h hab.1

theorem subU32_eq_ok {a b n : Nat} {s s' : σ} :
    (subU32 a b : Mut σ ε Nat) s = .ok n s' ↔ b ≤ a ∧ n = a - b ∧ s' = s := by
  unfold subU32
  split
  · rename_i h
    change Outcome.ok (a - b) s = _ ↔ _
    rw [Outcome.ok.injEq, eq_comm, @eq_comm _ s, and_iff_right h]
  · rename_i h
    exact iff_of_false nofun fun hab => h hab.1

theorem mapM_eq_some {f : α → Option β} {as : List α} {bs : List β} :
    as.mapM f = some bs ↔ List.Forall₂ (fun a b => f a = some b) as bs := by
  induction as generalizing bs with
  | nil =>
    rw [List.mapM_nil, List.forall₂_nil_left_iff]
    exact ⟨fun h => (Option.some.inj h).symm, fun h => congrArg some h.symm⟩
  | cons a as ih =>
    rw [List.mapM_cons, List.forall₂_cons_left_iff]
    constructor
    · intro h
      obtain ⟨b, hb, h⟩ := Option.bind_eq_some_iff.mp h
      obtain ⟨rest, hrest, h⟩ := Option.bind_eq_some_iff.mp h
      exact ⟨b, rest, hb, ih.mp hrest, (Option.some.inj h).symm⟩
    · intro h
      obtain ⟨b, rest, hb, hrest, rfl⟩ := h
      rw [hb, ih.mpr hrest]
      rfl

/-- What every call establishes of its value holds of all the values of a repetition. -/
theorem repeatCall_forall {m : Mut σ ε α} {P : α → Prop} (hm : ∀ s a s', m s = .ok a s' → P a)
    (n : Nat) : ∀ {s s' : σ} {as : List α}, repeatCall m n s = .ok as s' → ∀ a ∈ as, P a := by
  induction n with
  | zero =>
    intro s s' as h
    cases h
    exact fun _ hmem => absurd hmem List.not_mem_nil
  | succ n ih =>
    intro s s' as h
    obtain ⟨a, t, ha, h⟩ := bind_eq_ok.mp h
    obtain ⟨rest, t', hrest, h⟩ := bind_eq_ok.mp h
    cases h
    exact List.forall_mem_cons.mpr ⟨hm _ _ _ ha, ih hrest⟩

theorem repeatCall_length {m : Mut σ ε α} (n : Nat) :
    ∀ {s s' : σ} {as : List α}, repeatCall m n s = .ok as s' → as.length = n := by
  induction n with
  | zero =>
    intro s s' as h
    cases h
    rfl
  | succ n ih =>
    intro s s' as h
    obtain ⟨a, t, _, h⟩ := bind_eq_ok.mp h
    obtain ⟨rest, t', hrest, h⟩ := bind_eq_ok.mp h
    cases h
    exact congrArg Nat.succ (ih hrest)

@[simp] theorem mapErr_eq_ok {g : ε → ε'} {m : Mut σ ε α} {s s' : σ} {a : α} :
    mapErr g m s = .ok a s' ↔ m s = .ok a s' := by
  unfold mapErr
  cases m s <;> simp

theorem certify_eq_ok {P : α → Prop} {m : Mut σ ε α}
    {h : ∀ s a s', m s = .ok a s' → P a} {s s' : σ} {a : {a // P a}} :
    certify P m h s = .ok a s' ↔ m s = .ok a.val s' := by
  unfold certify
  split
  · rename_i b t hm
    simp only [hm, Outcome.ok.injEq, Subtype.ext_iff]
  · rename_i e t hm
    simp [hm]
  · rename_i hm
    simp [hm]

/-! ### Weakest preconditions -/

/-- `Q` describes how `m` ends when it is called on `s`. -/
def wp (m : Mut σ ε α) (Q : Post ε σ α) (s : σ) : Prop := (m s).Holds Q

variable {Q : Post ε σ α} {s : σ}

@[simp] theorem wp_ret (a : α) : wp (ret a) Q s ↔ Q.ok a s := Iff.rfl

@[simp] theorem wp_pure (a : α) : wp (pure a) Q s ↔ Q.ok a s := Iff.rfl

@[simp] theorem wp_fail (e : ε) : wp (fail e) Q s ↔ Q.err e s := Iff.rfl

@[simp] theorem wp_fault : wp (fault : Mut σ ε α) Q s ↔ Q.panic := Iff.rfl

@[simp] theorem wp_get {Q : Post ε σ σ} : wp get Q s ↔ Q.ok s s := Iff.rfl

@[simp] theorem wp_set {Q : Post ε σ Unit} (t : σ) : wp (set t) Q s ↔ Q.ok () t := Iff.rfl

@[simp] theorem wp_modify {Q : Post ε σ Unit} (f : σ → σ) :
    wp (modify f) Q s ↔ Q.ok () (f s) := Iff.rfl

@[simp] theorem wp_bind {Q : Post ε σ β} (m : Mut σ ε α) (f : α → Mut σ ε β) :
    wp (m >>= f) Q s ↔ wp m ⟨fun a => wp (f a) Q, Q.err, Q.panic⟩ s := by
  change (andThen m f s).Holds Q ↔ _
  unfold andThen wp
  cases m s <;> exact Iff.rfl

@[simp] theorem wp_zoom (view : σ → τ) (put : τ → σ → σ) (m : Mut τ ε α) :
    wp (zoom view put m) Q s ↔
      wp m ⟨fun a t => Q.ok a (put t s), fun e t => Q.err e (put t s), Q.panic⟩ (view s) := by
  unfold wp
  simp only [zoom]
  cases m (view s) <;> exact Iff.rfl

@[simp] theorem wp_mapErr {Q : Post ε' σ α} (f : ε → ε') (m : Mut σ ε α) :
    wp (mapErr f m) Q s ↔ wp m ⟨Q.ok, fun e => Q.err (f e), Q.panic⟩ s := by
  unfold wp mapErr
  cases m s <;> exact Iff.rfl

@[simp] theorem wp_attempt {Q : Post ε' σ (Except ε α)} (m : Mut σ ε α) :
    wp (attempt m) Q s ↔
      wp m ⟨fun a => Q.ok (.ok a), fun e => Q.ok (.error e), Q.panic⟩ s := by
  unfold wp attempt
  cases m s <;> exact Iff.rfl

@[simp] theorem wp_addU32 {Q : Post ε σ Nat} (a b : Nat) :
    wp (addU32 a b) Q s ↔ if a + b < 2 ^ 32 then Q.ok (a + b) s else Q.panic := by
  unfold addU32
  split <;> exact Iff.rfl

@[simp] theorem wp_subU32 {Q : Post ε σ Nat} (a b : Nat) :
    wp (subU32 a b) Q s ↔ if b ≤ a then Q.ok (a - b) s else Q.panic := by
  unfold subU32
  split <;> exact Iff.rfl

@[simp] theorem wp_divU32 {Q : Post ε σ Nat} (a b : Nat) :
    wp (divU32 a b) Q s ↔ if b ≠ 0 then Q.ok (a / b) s else Q.panic := by
  unfold divU32
  split <;> exact Iff.rfl

theorem wp_index {xs : List α} {i : Nat} {a : α} (h : xs[i]? = some a) :
    wp (index xs i) Q s ↔ Q.ok a s := by
  unfold index
  rw [h]
  exact Iff.rfl

@[simp] theorem wp_ofExcept (r : Except ε α) :
    wp (ofExcept r) Q s ↔ match r with
      | .ok a => Q.ok a s
      | .error e => Q.err e s := by
  cases r <;> exact Iff.rfl

theorem wp_ite (c : Prop) [Decidable c] (m n : Mut σ ε α) :
    wp (if c then m else n) Q s ↔ if c then wp m Q s else wp n Q s := by
  split <;> exact Iff.rfl

/-- Consequence. -/
theorem wp_mono {m : Mut σ ε α} {Q Q' : Post ε σ α} {s : σ} (h : wp m Q s)
    (hok : ∀ a t, Q.ok a t → Q'.ok a t) (herr : ∀ e t, Q.err e t → Q'.err e t)
    (hpanic : Q.panic → Q'.panic) : wp m Q' s := by
  unfold wp at h ⊢
  cases hm : m s with
  | ok a t => rw [hm] at h; exact hok a t h
  | err e t => rw [hm] at h; exact herr e t h
  | panic => rw [hm] at h; exact hpanic h

/-- Sequencing through what is known of the first call. -/
theorem wp_seq {m : Mut σ ε α} {f : α → Mut σ ε β} {R : Post ε σ α} {Q : Post ε σ β} {s : σ}
    (h : wp m R s) (hok : ∀ a t, R.ok a t → wp (f a) Q t) (herr : ∀ e t, R.err e t → Q.err e t)
    (hpanic : R.panic → Q.panic) : wp (m >>= f) Q s :=
  (wp_bind m f).mpr (wp_mono h hok herr hpanic)

theorem wp_and {m : Mut σ ε α} {Q Q' : Post ε σ α} {s : σ} (h : wp m Q s) (h' : wp m Q' s) :
    wp m ⟨fun a t => Q.ok a t ∧ Q'.ok a t, fun e t => Q.err e t ∧ Q'.err e t,
      Q.panic ∧ Q'.panic⟩ s := by
  unfold wp at *
  cases hm : m s <;> rw [hm] at h h' <;> exact ⟨h, h'⟩

theorem wp_of_ok {m : Mut σ ε α} {s t : σ} {a : α} (h : m s = .ok a t) : wp m Q s ↔ Q.ok a t := by
  unfold wp
  rw [h]
  exact Iff.rfl

theorem wp_of_err {m : Mut σ ε α} {s t : σ} {e : ε} (h : m s = .err e t) : wp m Q s ↔ Q.err e t := by
  unfold wp
  rw [h]
  exact Iff.rfl

theorem wp_of_panic {m : Mut σ ε α} {s : σ} (h : m s = .panic) : wp m Q s ↔ Q.panic := by
  unfold wp
  rw [h]
  exact Iff.rfl

/-- What a caller that drops the state can ask of a call. -/
theorem result_iff_wp {m : Mut σ ε α} {s : σ} {P : α → Prop} :
    (∃ r, (m s).result? = some r ∧ ∀ a, r = .ok a → P a) ↔
      wp m ⟨fun a _ => P a, fun _ _ => True, False⟩ s := by
  unfold wp
  cases m s with
  | ok a t =>
    constructor
    · intro h
      obtain ⟨r, hr, hP⟩ := h
      exact hP a (Option.some.inj hr).symm
    · intro h
      refine ⟨.ok a, rfl, ?_⟩
      intro b hb
      cases hb
      exact h
  | err e t =>
    refine ⟨fun _ => trivial, fun _ => ⟨.error e, rfl, ?_⟩⟩
    intro a ha
    cases ha
  | panic =>
    refine ⟨fun h => ?_, False.elim⟩
    obtain ⟨r, hr, -⟩ := h
    cases hr

theorem ok_of_wp {m : Mut σ ε α} {s t : σ} {a : α} (h : wp m Q s) (hm : m s = .ok a t) :
    Q.ok a t := by
  unfold wp at h
  rw [hm] at h
  exact h

theorem err_of_wp {m : Mut σ ε α} {s t : σ} {e : ε} (h : wp m Q s) (hm : m s = .err e t) :
    Q.err e t := by
  unfold wp at h
  rw [hm] at h
  exact h

end Mut

namespace Post
variable {ε σ α : Type}

/-- However the call ends it does not panic, and the state it leaves satisfies `I`. -/
def keeps (I : σ → Prop) : Post ε σ α := ⟨fun _ => I, fun _ => I, False⟩

/-- On success the value and the state satisfy `R`; nothing is asked otherwise. -/
def onOk (R : α → σ → Prop) : Post ε σ α := ⟨R, fun _ _ => True, True⟩

/-- On an error the state satisfies `R`; nothing is asked otherwise. -/
def onErr (R : ε → σ → Prop) : Post ε σ α := ⟨fun _ _ => True, R, True⟩

/-- The call succeeds, and the state it leaves satisfies `I`. -/
def surely (I : σ → Prop) : Post ε σ α := ⟨fun _ => I, fun _ _ => False, False⟩

/-- The call succeeds, and its value and the state it leaves satisfy `R`. -/
def yields (R : α → σ → Prop) : Post ε σ α := ⟨R, fun _ _ => False, False⟩

/-- The call ends as the computation `x` does, with a related value on success, and the state
it leaves on success satisfies `I`. -/
def simulates {β : Type} (x : Except ε β) (R : α → β → Prop) (I : σ → Prop) : Post ε σ α :=
  ⟨fun a s => (∃ b, x = .ok b ∧ R a b) ∧ I s, fun e _ => x = .error e, False⟩

@[simp] theorem keeps_ok (I : σ → Prop) (a : α) (s : σ) :
    (keeps I : Post ε σ α).ok a s ↔ I s := Iff.rfl

@[simp] theorem keeps_err (I : σ → Prop) (e : ε) (s : σ) :
    (keeps I : Post ε σ α).err e s ↔ I s := Iff.rfl

@[simp] theorem keeps_panic (I : σ → Prop) : (keeps I : Post ε σ α).panic ↔ False := Iff.rfl

@[simp] theorem onOk_ok (R : α → σ → Prop) (a : α) (s : σ) :
    (onOk R : Post ε σ α).ok a s ↔ R a s := Iff.rfl

@[simp] theorem onOk_err (R : α → σ → Prop) (e : ε) (s : σ) :
    (onOk R : Post ε σ α).err e s ↔ True := Iff.rfl

@[simp] theorem onOk_panic (R : α → σ → Prop) : (onOk R : Post ε σ α).panic ↔ True := Iff.rfl

@[simp] theorem onErr_ok (R : ε → σ → Prop) (a : α) (s : σ) :
    (onErr R : Post ε σ α).ok a s ↔ True := Iff.rfl

@[simp] theorem onErr_err (R : ε → σ → Prop) (e : ε) (s : σ) :
    (onErr R : Post ε σ α).err e s ↔ R e s := Iff.rfl

@[simp] theorem onErr_panic (R : ε → σ → Prop) : (onErr R : Post ε σ α).panic ↔ True := Iff.rfl

end Post

namespace Mut
variable {σ ε α β γ δ : Type} {s : σ}

/-- Sequences of calls simulate sequences of computations. -/
theorem wp_simulates_bind {m : Mut σ ε α} {k : α → Mut σ ε γ} {x : Except ε β}
    {y : β → Except ε δ} {R : α → β → Prop} {R' : γ → δ → Prop} {I J : σ → Prop}
    (hm : wp m (Post.simulates x R I) s)
    (hk : ∀ a b t, x = .ok b → R a b → I t → wp (k a) (Post.simulates (y b) R' J) t) :
    wp (m >>= k) (Post.simulates (x >>= y) R' J) s := by
  refine wp_seq hm ?_ ?_ id
  · rintro a t ⟨⟨b, hx, hR⟩, hI⟩
    rw [hx]
    exact hk a b t hx hR hI
  · intro e t hx
    change x = .error e at hx
    change (x >>= y) = .error e
    rw [hx]
    rfl

theorem wp_surely_bind {m : Mut σ ε α} {k : α → Mut σ ε γ} {I : σ → Prop} {Q : Post ε σ γ}
    (hm : wp m (Post.surely I) s) (hk : ∀ a t, I t → wp (k a) Q t) : wp (m >>= k) Q s :=
  wp_seq hm hk (fun _ _ => False.elim) False.elim

theorem exists_of_wp_yields {m : Mut σ ε α} {R : α → σ → Prop} (h : wp m (Post.yields R) s) :
    ∃ a t, m s = .ok a t ∧ R a t := by
  unfold wp at h
  cases hm : m s with
  | ok a t =>
    rw [hm] at h
    exact ⟨a, t, rfl, h⟩
  | err e t =>
    rw [hm] at h
    exact h.elim
  | panic =>
    rw [hm] at h
    exact h.elim

theorem wp_yields_bind {m : Mut σ ε α} {k : α → Mut σ ε γ} {R : α → σ → Prop} {Q : Post ε σ γ}
    (hm : wp m (Post.yields R) s) (hk : ∀ a t, R a t → wp (k a) Q t) : wp (m >>= k) Q s :=
  wp_seq hm hk (fun _ _ => False.elim) False.elim

/-- What each turn of a loop passes on to the next. -/
theorem wp_yields_foldlM {f : β → α → Mut σ ε β} {R : β → σ → Prop}
    (hf : ∀ b a t, R b t → wp (f b a) (Post.yields R) t) (xs : List α) {b : β} (h : R b s) :
    wp (xs.foldlM f b) (Post.yields R) s := by
  induction xs generalizing b s with
  | nil => exact h
  | cons x xs ih =>
    rw [List.foldlM_cons]
    exact wp_yields_bind (hf b x s h) fun b t => ih

theorem wp_simulates_ofExcept {x : Except ε α} {x' : Except ε β} {R : α → β → Prop}
    {I : σ → Prop} (hI : I s) (hok : ∀ a, x = .ok a → ∃ b, x' = .ok b ∧ R a b)
    (herr : ∀ e, x = .error e → x' = .error e) :
    wp (ofExcept x) (Post.simulates x' R I) s := by
  rw [wp_ofExcept]
  cases x with
  | ok a => exact ⟨hok a rfl, hI⟩
  | error e => exact herr e rfl

end Mut

end Cubic
