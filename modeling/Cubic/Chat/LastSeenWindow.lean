import Cubic.Chat.Acknowledgement

/-!
# The window of signatures last seen

What the window holds after any calls of the tracker, and what an update says of it.
-/

namespace Cubic.Chat

set_option autoImplicit false

inductive TrackerCall where
  | add (signature : MessageSignature) (displayed : Bool)
  | generateUpdate
  | takeOffset

section Calls
variable (AuthError : Type)

/-- The tracker after a call, whether it succeeds or fails; none if it stops the program. -/
def TrackerCall.after (tracker : LastSeenTracker) : TrackerCall → Option LastSeenTracker
  | add signature displayed => ((LastSeenTracker.add signature displayed :
      Mut LastSeenTracker (SecureChatError AuthError) _) tracker).state?
  | generateUpdate => ((LastSeenTracker.generateUpdate :
      Mut LastSeenTracker (SecureChatError AuthError) _) tracker).state?
  | takeOffset => ((LastSeenTracker.takeOffset :
      Mut LastSeenTracker (SecureChatError AuthError) _) tracker).state?

def TrackerCall.afterAll (calls : List TrackerCall) (tracker : LastSeenTracker) :
    Option LastSeenTracker := calls.foldlM (after AuthError) tracker

end Calls

/-! ### What the window should hold -/

def TrackerCall.added? : TrackerCall → Option (MessageSignature × Bool)
  | add signature displayed => some (signature, displayed)
  | _ => none

/-- An entry for each signature that differs from the one added just before; `last` stands
before the first. -/
def newEntries : Option MessageSignature → List (MessageSignature × Bool) →
    List (Option MessageSignature)
  | _, [] => []
  | last, (signature, displayed) :: rest =>
    (if last = some signature then [] else [if displayed then some signature else none]) ++
      newEntries (some signature) rest

/-- The last twenty, with empty ones before the first. -/
def lastTwenty (entries : List (Option MessageSignature)) : List (Option MessageSignature) :=
  (List.replicate 20 none ++ entries).drop entries.length

def ChatLastSeenUpdate.isAcknowledged (update : ChatLastSeenUpdate) (i : Nat) : Bool :=
  (update.acknowledged.toList.getD (i / 8) 0).toNat.testBit (i % 8)

theorem length_lastTwenty (entries : List (Option MessageSignature)) :
    (lastTwenty entries).length = 20 := by
  unfold lastTwenty
  rw [List.length_drop, List.length_append, List.length_replicate, Nat.add_sub_cancel]

theorem lastTwenty_snoc (entries : List (Option MessageSignature)) (entry : Option MessageSignature) :
    lastTwenty (entries ++ [entry]) = (lastTwenty entries).tail ++ [entry] := by
  unfold lastTwenty
  rw [List.length_append, List.length_singleton, ← List.append_assoc,
    List.drop_append_of_le_length (by simp), List.tail_drop]

theorem newEntries_snoc (added : List (MessageSignature × Bool)) (signature : MessageSignature)
    (displayed : Bool) : ∀ last : Option MessageSignature,
    newEntries last (added ++ [(signature, displayed)]) =
      newEntries last added ++
        if ((added.getLast?.map Prod.fst).or last) = some signature then []
        else [if displayed then some signature else none] := by
  induction added with
  | nil =>
    intro last
    change _ ++ [] = [] ++ _
    rw [List.append_nil]
    rfl
  | cons first rest ih =>
    intro last
    rw [List.cons_append, newEntries, newEntries, ih, List.append_assoc]
    cases rest with
    | nil => rfl
    | cons second rest => simp [List.getLast?_cons]

/-! ### The bits -/

theorem testBit_or_shift (byte : UInt8) {bit k : Nat} (hbit : bit < 8) (hk : k < 8) :
    (byte ||| 1 <<< UInt8.ofNat bit).toNat.testBit k = (byte.toNat.testBit k || k == bit) := by
  have hshift : ∀ bit < 8, ∀ k < 8,
      ((1 : UInt8) <<< UInt8.ofNat bit).toNat.testBit k = (k == bit) := by decide
  rw [UInt8.toNat_or, Nat.testBit_or, hshift bit hbit k hk]

/-- Bit `i` of the acknowledgement. -/
def seenBit (acknowledged : Vector UInt8 3) (i : Nat) : Bool :=
  (acknowledged.toList.getD (i / 8) 0).toNat.testBit (i % 8)

theorem seenBit_set (acknowledged : Vector UInt8 3) {index : Nat} (hindex : index < 24) (i : Nat) :
    seenBit (acknowledged.mapIdx fun k byte =>
        if k = index / 8 then byte ||| 1 <<< UInt8.ofNat (index % 8) else byte) i =
      (seenBit acknowledged i || i == index) := by
  unfold seenBit
  rw [Vector.toList_mapIdx, List.getD_eq_getElem?_getD, List.getD_eq_getElem?_getD,
    List.getElem?_mapIdx]
  cases hbyte : acknowledged.toList[i / 8]? with
  | none =>
    have hout : 3 ≤ i / 8 := by simpa using hbyte
    have hne : (i == index) = false := beq_false_of_ne (by omega)
    rw [hne, Bool.or_false]
    rfl
  | some byte =>
    rw [Option.map_some, Option.getD_some, Option.getD_some]
    by_cases hword : i / 8 = index / 8
    · have hbit : (i == index) = (i % 8 == index % 8) := by
        rw [Bool.eq_iff_iff, beq_iff_eq, beq_iff_eq]
        omega
      rw [if_pos hword, hbit]
      exact testBit_or_shift byte (Nat.mod_lt _ (by decide)) (Nat.mod_lt _ (by decide))
    · have hne : (i == index) = false := beq_false_of_ne fun heq => hword (by rw [heq])
      rw [if_neg hword, hne, Bool.or_false]

/-- A collected entry sets its own bit, and its signature follows those before it. -/
theorem collectSeen_eq (entries : List (Option MessageSignature)) :
    ∀ {index : Nat} (acknowledged : Vector UInt8 3) (signatures : List MessageSignature),
      index + entries.length ≤ 20 →
      (collectSeen index entries acknowledged signatures).2 =
          signatures ++ entries.filterMap id ∧
        ∀ i, seenBit (collectSeen index entries acknowledged signatures).1 i =
          (seenBit acknowledged i ||
            decide (index ≤ i) && (entries[i - index]?).join.isSome) := by
  induction entries with
  | nil =>
    intro index acknowledged signatures _
    refine ⟨(List.append_nil _).symm, fun i => ?_⟩
    simp [collectSeen]
  | cons entry rest ih =>
    intro index acknowledged signatures hlength
    rw [List.length_cons] at hlength
    have hentry : ∀ i, (decide (index ≤ i) && ((entry :: rest)[i - index]?).join.isSome) =
        (i == index && entry.isSome ||
          decide (index + 1 ≤ i) && (rest[i - (index + 1)]?).join.isSome) := by
      intro i
      rcases Nat.lt_trichotomy i index with hi | rfl | hi
      · simp [Nat.not_le.mpr hi, Nat.not_le.mpr (Nat.lt_succ_of_lt hi), hi.ne]
      · simp
      · have hsucc : i - index = i - (index + 1) + 1 := by omega
        simp [hsucc, hi.le, Nat.succ_le_of_lt hi, hi.ne']
    cases entry with
    | none =>
      obtain ⟨hsignatures, hbits⟩ := @ih (index + 1) acknowledged signatures (by omega)
      refine ⟨hsignatures, fun i => ?_⟩
      rw [hentry, collectSeen, hbits]
      simp
    | some signature =>
      obtain ⟨hsignatures, hbits⟩ := @ih (index + 1)
        (acknowledged.mapIdx fun k byte =>
          if k = index / 8 then byte ||| 1 <<< UInt8.ofNat (index % 8) else byte)
        (signatures ++ [signature]) (by omega)
      refine ⟨?_, fun i => ?_⟩
      · rw [collectSeen, hsignatures]
        simp
      · rw [hentry, collectSeen, hbits, seenBit_set acknowledged (by omega)]
        simp [Bool.or_assoc]

/-! ### What the calls keep -/

/-- The tracker after the signatures `added`. -/
structure Holds (added : List (MessageSignature × Bool)) (tracker : LastSeenTracker) : Prop where
  entries : tracker.entries = lastTwenty (newEntries none added)
  lastAdded : tracker.lastAdded = added.getLast?.map Prod.fst
  offset : 0 ≤ tracker.offset.toInt

theorem holds_new : Holds [] (LastSeenTracker.new 20) := ⟨rfl, rfl, le_rfl⟩

variable {AuthError : Type} {added : List (MessageSignature × Bool)} {tracker : LastSeenTracker}

theorem Holds.length (h : Holds added tracker) : tracker.entries.length = 20 := by
  rw [h.entries]
  exact length_lastTwenty _

/-- An addition is remembered also where the count is exhausted and the call fails. -/
theorem Holds.add (h : Holds added tracker) (signature : MessageSignature) (displayed : Bool) :
    ∃ tracker', TrackerCall.after AuthError tracker (.add signature displayed) = some tracker' ∧
      Holds (added ++ [(signature, displayed)]) tracker' := by
  have hlast : (added ++ [(signature, displayed)]).getLast?.map Prod.fst = some signature := by
    rw [List.getLast?_concat]
    rfl
  have hwindow := newEntries_snoc added signature displayed none
  rw [Option.or_none, ← h.lastAdded] at hwindow
  unfold TrackerCall.after
  dsimp only
  unfold LastSeenTracker.add
  rw [Mut.get_bind]
  by_cases hsame : tracker.lastAdded = some signature
  · rw [if_pos hsame] at hwindow ⊢
    rw [List.append_nil] at hwindow
    exact ⟨tracker, rfl, by rw [hwindow, h.entries], by rw [hsame, hlast], h.offset⟩
  · rw [if_neg hsame] at hwindow ⊢
    rw [Mut.set_bind]
    have hentries : tracker.entries.tail ++ [if displayed then some signature else none] =
        lastTwenty (newEntries none (added ++ [(signature, displayed)])) := by
      rw [hwindow, lastTwenty_snoc, h.entries]
    cases hnext : checkedAddI32 tracker.offset 1 with
    | none => exact ⟨_, rfl, hentries, hlast.symm, h.offset⟩
    | some next =>
      have hone := checkedAddI32_eq_some.mp hnext
      have hoffset := h.offset
      refine ⟨_, rfl, hentries, hlast.symm, ?_⟩
      change _ = _ + 1 at hone
      change 0 ≤ next.toInt
      omega

theorem Holds.emptied (h : Holds added tracker) : Holds added { tracker with offset := 0 } :=
  ⟨h.entries, h.lastAdded, le_rfl⟩

theorem Holds.after (h : Holds added tracker) (call : TrackerCall) :
    ∃ tracker', TrackerCall.after AuthError tracker call = some tracker' ∧
      Holds (added ++ call.added?.toList) tracker' := by
  cases call with
  | add signature displayed => exact h.add signature displayed
  | generateUpdate =>
    refine ⟨_, congrArg Outcome.state? (generateUpdate_full h.length h.offset), ?_⟩
    change Holds (added ++ []) _
    rw [List.append_nil]
    exact h.emptied
  | takeOffset =>
    refine ⟨_, rfl, ?_⟩
    change Holds (added ++ []) _
    rw [List.append_nil]
    exact h.emptied

theorem Holds.afterAll (calls : List TrackerCall) :
    ∀ {added : List (MessageSignature × Bool)} {tracker : LastSeenTracker}, Holds added tracker →
    ∃ tracker', TrackerCall.afterAll AuthError calls tracker = some tracker' ∧
      Holds (added ++ calls.filterMap TrackerCall.added?) tracker' := by
  induction calls with
  | nil =>
    intro added tracker h
    refine ⟨tracker, rfl, ?_⟩
    rw [List.filterMap_nil, List.append_nil]
    exact h
  | cons call rest ih =>
    intro added tracker h
    obtain ⟨tracker', hcall, h'⟩ := @Holds.after AuthError _ _ h call
    obtain ⟨final, hrest, hfinal⟩ := ih h'
    refine ⟨final, ?_, ?_⟩
    · unfold TrackerCall.afterAll at hrest ⊢
      rw [List.foldlM_cons, hcall]
      exact hrest
    · rw [List.filterMap_cons]
      cases hadded : call.added? <;> simpa [hadded] using hfinal

/-- The update of a full window acknowledges what the window holds. -/
theorem Holds.update (h : Holds added tracker) :
    ∃ update tracker', (LastSeenTracker.generateUpdate :
        Mut LastSeenTracker (SecureChatError AuthError) _) tracker =
          .ok (update, tracker.entries.filterMap id) tracker' ∧
      (∀ i, update.isAcknowledged i = (tracker.entries[i]?).join.isSome) ∧
      update.acknowledged.get 2 &&& 0xf0 = 0 ∧ 0 ≤ update.offset.toInt := by
  have hlength := h.length
  obtain ⟨hsignatures, hbits⟩ := @collectSeen_eq tracker.entries 0
    (Vector.replicate 3 0) [] (by omega)
  have hmask := @collectSeen_mask tracker.entries 0
    (Vector.replicate 3 0) [] (by omega) rfl
  have hrun := @generateUpdate_full AuthError _ hlength h.offset
  have hseen : tracker.seen.2 = tracker.entries.filterMap id := hsignatures
  rw [hseen] at hrun
  refine ⟨_, _, hrun, fun i => ?_, hmask, h.offset⟩
  have hzero : seenBit (Vector.replicate 3 0) i = false := by
    unfold seenBit
    have hbyte : ∀ k < 3, (Vector.replicate 3 (0 : UInt8)).toList.getD k 0 = 0 := by decide
    rcases Nat.lt_or_ge (i / 8) 3 with hi | hi
    · rw [hbyte _ hi]
      simp
    · rw [List.getD_eq_getElem?_getD, List.getElem?_eq_none (by simpa using hi)]
      simp
  refine (hbits i).trans ?_
  rw [hzero]
  simp

/-- After any calls the window holds the last twenty new signatures, and the update it gives
acknowledges exactly those that were displayed. -/
theorem lastSeenTracker_window (AuthError : Type) (calls : List TrackerCall) :
    ∃ tracker, TrackerCall.afterAll AuthError calls (LastSeenTracker.new 20) = some tracker ∧
      tracker.entries.length = 20 ∧
      tracker.entries = lastTwenty (newEntries none (calls.filterMap TrackerCall.added?)) ∧
      ∃ update tracker', (LastSeenTracker.generateUpdate :
          Mut LastSeenTracker (SecureChatError AuthError) _) tracker =
            .ok (update, tracker.entries.filterMap id) tracker' ∧
        (∀ i, update.isAcknowledged i = (tracker.entries[i]?).join.isSome) ∧
        update.acknowledged.get 2 &&& 0xf0 = 0 ∧ 0 ≤ update.offset.toInt := by
  obtain ⟨tracker, hrun, h⟩ := @Holds.afterAll AuthError calls _ _ holds_new
  exact ⟨tracker, hrun, h.length, h.entries, h.update⟩

end Cubic.Chat
