import Mathlib.Tactic.Common

/-!
# Computations that look things up

A computation asks questions and goes on with the answers, so which questions it asks may
depend on what it was told. Two tables that agree on what is asked lead to one result.
-/

namespace Cubic

set_option autoImplicit false

inductive Query {Q : Type} (A : Q → Type) (α : Type) : Type where
  | done (a : α)
  | ask (q : Q) (next : A q → Query A α)

namespace Query
variable {Q α β ε : Type} {A : Q → Type}

def lookup (q : Q) : Query A (A q) := .ask q .done

protected def bind : Query A α → (α → Query A β) → Query A β
  | done a, f => f a
  | ask q next, f => .ask q fun answer => (next answer).bind f

instance : Monad (Query A) where
  pure := .done
  bind := Query.bind

/-- The result, given the answers. -/
def run (table : (q : Q) → A q) : Query A α → α
  | done a => a
  | ask q next => (next (table q)).run table

/-- The questions asked, in order. -/
def asked (table : (q : Q) → A q) : Query A α → List Q
  | done _ => []
  | ask q next => q :: (next (table q)).asked table

/-- Whatever the answers, only questions with `P` are asked. -/
def Asks (P : Q → Prop) : Query A α → Prop
  | done _ => True
  | ask q next => P q ∧ ∀ answer, (next answer).Asks P

variable {table table' : (q : Q) → A q} {P R : Q → Prop}

/-- Tables that agree on the questions asked give the same result. -/
theorem run_congr {m : Query A α} (h : ∀ q ∈ m.asked table, table q = table' q) :
    m.run table = m.run table' := by
  induction m with
  | done a => rfl
  | ask q next ih =>
    have hq : table q = table' q := h q List.mem_cons_self
    unfold run
    rw [← hq]
    apply ih
    exact fun q' hq' => h q' (List.mem_cons_of_mem q hq')

theorem Asks.of_asked {m : Query A α} (h : m.Asks P) : ∀ q ∈ m.asked table, P q := by
  induction m with
  | done a => exact nofun
  | ask q next ih =>
    intro q' hq'
    rcases List.mem_cons.mp hq' with rfl | hq'
    · exact h.1
    · exact ih _ (h.2 _) q' hq'

theorem Asks.mono (hPR : ∀ q, P q → R q) {m : Query A α} (h : m.Asks P) : m.Asks R := by
  induction m with
  | done a => trivial
  | ask q next ih => exact ⟨hPR q h.1, fun answer => ih answer (h.2 answer)⟩

theorem run_bind (m : Query A α) (f : α → Query A β) :
    (m >>= f).run table = (f (m.run table)).run table := by
  induction m with
  | done a => rfl
  | ask q next ih => exact ih _

theorem mem_asked_bind {m : Query A α} {f : α → Query A β} {q : Q} (h : q ∈ m.asked table) :
    q ∈ (m >>= f).asked table := by
  induction m with
  | done a => exact absurd h List.not_mem_nil
  | ask q' next ih =>
    rcases List.mem_cons.mp h with rfl | h
    · exact List.mem_cons_self
    · exact List.mem_cons_of_mem q' (ih _ h)

theorem mem_asked_bind_right {m : Query A α} {f : α → Query A β} {q : Q}
    (h : q ∈ (f (m.run table)).asked table) : q ∈ (m >>= f).asked table := by
  induction m with
  | done a => exact h
  | ask q' next ih => exact List.mem_cons_of_mem q' (ih _ h)

theorem asks_lookup {q : Q} (h : P q) : (lookup q : Query A (A q)).Asks P :=
  ⟨h, fun _ => trivial⟩

theorem asks_pure (a : α) : (pure a : Query A α).Asks P := trivial

theorem Asks.bind {m : Query A α} {f : α → Query A β} (hm : m.Asks P)
    (hf : ∀ a, (f a).Asks P) : (m >>= f).Asks P := by
  induction m with
  | done a => exact hf a
  | ask q next ih => exact ⟨hm.1, fun answer => ih answer (hm.2 answer)⟩

theorem Asks.map {m : Query A α} (f : α → β) (hm : m.Asks P) : (f <$> m).Asks P :=
  hm.bind fun _ => trivial

theorem bind_assoc {γ : Type} (m : Query A α) (f : α → Query A β) (g : β → Query A γ) :
    m >>= f >>= g = m >>= fun a => f a >>= g := by
  induction m with
  | done a => rfl
  | ask q next ih => exact congrArg (ask q) (funext ih)

theorem id_map (m : Query A α) : id <$> m = m := by
  induction m with
  | done a => rfl
  | ask q next ih => exact congrArg (ask q) (funext ih)

instance : LawfulMonad (Query A) := LawfulMonad.mk' (Query A) id_map (fun _ _ => rfl) bind_assoc

theorem asks_mapM {f : α → Query A β} {xs : List α} (h : ∀ x ∈ xs, (f x).Asks P) :
    (xs.mapM f).Asks P := by
  induction xs with
  | nil => exact asks_pure []
  | cons x rest ih =>
    obtain ⟨hx, hrest⟩ := List.forall_mem_cons.mp h
    rw [List.mapM_cons]
    exact hx.bind fun y => (ih hrest).bind fun ys => asks_pure _

theorem mem_asked_mapM {f : α → Query A β} {xs : List α} {x : α} (hx : x ∈ xs) {q : Q}
    (h : q ∈ (f x).asked table) : q ∈ (xs.mapM f).asked table := by
  induction xs with
  | nil => exact absurd hx List.not_mem_nil
  | cons y rest ih =>
    rw [List.mapM_cons]
    rcases List.mem_cons.mp hx with rfl | hx
    · exact mem_asked_bind h
    · exact mem_asked_bind_right (mem_asked_bind (ih hx))

/-! ### Computations that may fail -/

/-- A computation that may fail asks what it asks before it does. -/
theorem Asks.bindE {m : ExceptT ε (Query A) α} {f : α → ExceptT ε (Query A) β}
    (hm : Asks P m.run) (hf : ∀ a, Asks P (f a).run) : Asks P (m >>= f).run := by
  refine Asks.bind (f := ExceptT.bindCont f) hm ?_
  intro result
  cases result with
  | error e => trivial
  | ok a => exact hf a

theorem asks_lift {m : Query A α} (hm : m.Asks P) :
    Asks P (ExceptT.lift m : ExceptT ε (Query A) α).run := hm.map _

theorem asks_foldlM {f : β → α → ExceptT ε (Query A) β} {xs : List α}
    (h : ∀ x ∈ xs, ∀ b, Asks P (f b x).run) (b : β) : Asks P (xs.foldlM f b).run := by
  induction xs generalizing b with
  | nil => trivial
  | cons x rest ih =>
    obtain ⟨hx, hrest⟩ := List.forall_mem_cons.mp h
    rw [List.foldlM_cons]
    exact (hx b).bindE fun b' => ih hrest b'

end Query

end Cubic
