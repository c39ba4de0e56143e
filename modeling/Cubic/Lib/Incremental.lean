import Cubic.Lib.Machine

/-!
# Parsing a stream that arrives in pieces

A step looks at the pending input and asks for more, cuts off an item, or rejects. If
items and rejections do not depend on what follows, the way the stream was cut does not
show in the result.
-/

namespace Cubic.Incremental

set_option autoImplicit false

variable {α φ ε : Type}

inductive Step (φ ε : Type) where
  | need
  | item (value : φ) (used : Nat)
  | error (e : ε)

/-- The items found, the rejection that ended the search if there was one, and the input
that is still pending. -/
structure Parsed (α φ ε : Type) where
  items : List φ
  error : Option ε
  rest : List α

/-- Items use up input, and neither they nor rejections depend on what follows. -/
structure Stable (step : List α → Step φ ε) : Prop where
  item_used : ∀ {xs f k}, step xs = .item f k → 0 < k ∧ k ≤ xs.length
  item_append : ∀ {xs f k} (ys : List α), step xs = .item f k → step (xs ++ ys) = .item f k
  error_append : ∀ {xs e} (ys : List α), step xs = .error e → step (xs ++ ys) = .error e

/-- At most `fuel` items. -/
def parseUpTo (step : List α → Step φ ε) : Nat → List α → Parsed α φ ε
  | 0, xs => ⟨[], none, xs⟩
  | fuel + 1, xs =>
    match step xs with
    | .need => ⟨[], none, xs⟩
    | .error e => ⟨[], some e, xs⟩
    | .item f k =>
      let later := parseUpTo step fuel (xs.drop k)
      { later with items := f :: later.items }

theorem parseUpTo_succ (step : List α → Step φ ε) (fuel : Nat) (xs : List α) :
    parseUpTo step (fuel + 1) xs =
      match step xs with
      | .need => ⟨[], none, xs⟩
      | .error e => ⟨[], some e, xs⟩
      | .item f k =>
        let later := parseUpTo step fuel (xs.drop k)
        { later with items := f :: later.items } := rfl

/-- All items; each uses up input, so there are at most as many as input units. -/
def parse (step : List α → Step φ ε) (xs : List α) : Parsed α φ ε :=
  parseUpTo step (xs.length + 1) xs

def Parsed.after (found : List φ) (p : Parsed α φ ε) : Parsed α φ ε :=
  { p with items := found ++ p.items }

/-- Parse what is pending after each piece. -/
def feed (step : List α → Step φ ε) : List (List α) → Parsed α φ ε → Parsed α φ ε
  | [], p => p
  | piece :: pieces, p => feed step pieces ((parse step (p.rest ++ piece)).after p.items)

variable {step : List α → Step φ ε}

theorem parseUpTo_fuel (h : Stable step) (n : Nat) :
    ∀ {m : Nat} {xs : List α}, xs.length < n → xs.length < m →
      parseUpTo step n xs = parseUpTo step m xs := by
  induction n with
  | zero =>
    intro m xs hn _
    exact (Nat.not_lt_zero _ hn).elim
  | succ n ih =>
    intro m xs hn hm
    cases m with
    | zero => exact (Nat.not_lt_zero _ hm).elim
    | succ m =>
      rw [parseUpTo_succ, parseUpTo_succ]
      cases hs : step xs with
      | need => rfl
      | error e => rfl
      | item f k =>
        have hk := h.item_used hs
        have hlen : (xs.drop k).length < xs.length := by
          rw [List.length_drop]
          omega
        have hrest : (xs.drop k).length < m := by omega
        simp only [ih (hlen.trans_le (by omega)) hrest]

theorem parse_item (h : Stable step) {xs : List α} {f : φ} {k : Nat} (hs : step xs = .item f k) :
    parse step xs = (parse step (xs.drop k)).after [f] := by
  have hk := h.item_used hs
  have hlen : (xs.drop k).length < xs.length := by
    rw [List.length_drop]
    omega
  rw [parse, parseUpTo_succ, hs]
  simp only [parseUpTo_fuel h xs.length (m := (xs.drop k).length + 1) hlen (Nat.lt_succ_self _)]
  rfl

theorem parse_need {xs : List α} (hs : step xs = .need) : parse step xs = ⟨[], none, xs⟩ := by
  rw [parse, parseUpTo_succ, hs]

theorem parse_error {xs : List α} {e : ε} (hs : step xs = .error e) :
    parse step xs = ⟨[], some e, xs⟩ := by
  rw [parse, parseUpTo_succ, hs]

/-- Parsing a first piece, and then what is left of it with the rest, finds what parsing
the whole finds. -/
theorem parse_append (h : Stable step) (n : Nat) :
    ∀ {xs : List α} (ys : List α), xs.length < n →
      parse step (xs ++ ys) = (parse step ((parse step xs).rest ++ ys)).after (parse step xs).items := by
  induction n with
  | zero =>
    intro xs ys hn
    exact (Nat.not_lt_zero _ hn).elim
  | succ n ih =>
    intro xs ys hn
    cases hs : step xs with
    | need =>
      rw [parse_need hs]
      rfl
    | error e =>
      rw [parse_error hs]
      rfl
    | item f k =>
      have hk := h.item_used hs
      have hlen : (xs.drop k).length < n := by
        rw [List.length_drop]
        omega
      rw [parse_item h (h.item_append ys hs), parse_item h hs, List.drop_append_of_le_length hk.2,
        ih ys hlen]
      rfl

theorem after_after (found found' : List φ) (p : Parsed α φ ε) :
    (p.after found').after found = p.after (found ++ found') := by
  simp only [Parsed.after, List.append_assoc]

/-- The result of feeding depends on the pieces through their concatenation only. -/
theorem feed_eq (h : Stable step) (pieces : List (List α)) :
    ∀ (found : List φ) (seen : List α), feed step pieces ((parse step seen).after found) =
      (parse step (seen ++ pieces.flatten)).after found := by
  induction pieces with
  | nil =>
    intro found seen
    rw [List.flatten_nil, List.append_nil]
    rfl
  | cons piece pieces ih =>
    intro found seen
    have hpiece : (parse step (((parse step seen).after found).rest ++ piece)).after
        ((parse step seen).after found).items = (parse step (seen ++ piece)).after found := by
      rw [parse_append h _ piece (Nat.lt_succ_self seen.length), after_after]
      rfl
    rw [feed, hpiece, ih, List.flatten_cons, List.append_assoc]

/-- A stream that is a sequence of whole items. -/
theorem parse_items (h : Stable step) {items : List φ} {encodings : List (List α)}
    (henc : List.Forall₂ (fun f xs => ∀ rest, step (xs ++ rest) = .item f xs.length) items encodings)
    (hnil : step [] = .need) : parse step encodings.flatten = ⟨items, none, []⟩ := by
  induction henc with
  | nil => exact parse_need hnil
  | cons hf _ ih =>
    rw [List.flatten_cons, parse_item h (hf _), List.drop_left, ih]
    rfl

end Cubic.Incremental
