import Cubic.Chat.SecureChat

/-!
# The bytes that are signed

The fields of the input have no delimiters. All but two have a fixed width, and each of the
two comes after its length, so the input can be split in one way only.
-/

namespace Cubic.Chat

set_option autoImplicit false

/-- What a signature speaks for. -/
structure SignedContent where
  chainVersion : Int32
  sender : ProtocolUuid
  session : ProtocolUuid
  messageIndex : Int32
  salt : Int64
  timestampSeconds : Int
  message : String
  lastSeen : List MessageSignature

def SigningContext.content (context : SigningContext) : SignedContent where
  chainVersion := context.rules.chainVersion
  sender := context.sender
  session := context.session
  messageIndex := context.messageIndex
  salt := context.salt
  timestampSeconds := context.timestampMillis.toInt.tdiv 1000
  message := context.message
  lastSeen := context.lastSeen

/-! ### The fields -/

theorem i32Bytes_inj {a b : Int32} (h : i32Bytes a = i32Bytes b) : a = b := by
  have hnat := toBigEndian_inj a.toUInt32.toNat_lt b.toUInt32.toNat_lt h
  exact Int32.toBitVec_inj.mp (congrArg UInt32.toBitVec (UInt32.toNat_inj.mp hnat))

theorem i64Bytes_inj {a b : Int64} (h : i64Bytes a = i64Bytes b) : a = b := by
  have hnat := toBigEndian_inj a.toUInt64.toNat_lt b.toUInt64.toNat_lt h
  exact Int64.toBitVec_inj.mp (congrArg UInt64.toBitVec (UInt64.toNat_inj.mp hnat))

theorem utf8Bytes_inj {a b : String} (h : utf8Bytes a = utf8Bytes b) : a = b := by
  unfold utf8Bytes at h
  exact String.toByteArray_inj.mp (ByteArray.ext (Array.toList_inj.mp h))

/-- Blocks of one length are read back from their concatenation. -/
theorem flatMap_toList_inj {n : Nat} {a b : List (Vector UInt8 n)} (hlength : a.length = b.length)
    (h : a.flatMap Vector.toList = b.flatMap Vector.toList) : a = b := by
  induction a generalizing b with
  | nil => exact (List.length_eq_zero_iff.mp hlength.symm).symm
  | cons x xs ih =>
    cases b with
    | nil => cases hlength
    | cons y ys =>
      rw [List.flatMap_cons, List.flatMap_cons] at h
      obtain ⟨hhead, htail⟩ := List.append_inj h (by simp)
      rw [Vector.toList_inj.mp hhead, ih (Nat.succ.inj hlength) htail]

theorem toInt_div_thousand (millis : Int64) : (millis / 1000).toInt = millis.toInt.tdiv 1000 :=
  Int64.toInt_div_of_ne_right _ _ (by decide)

theorem i32Length_eq_ok {AuthError : Type} {length : Nat} {value : Int32}
    (h : (i32Length length : Except (SecureChatError AuthError) Int32) = .ok value) : value.toInt = length := by
  unfold i32Length i32Max at h
  split at h
  · rename_i hle
    cases h
    rw [Int32.toInt_ofNat_of_lt]
    omega
  · cases h

theorem i32Length_of_le {AuthError : Type} {length : Nat} (h : length ≤ i32Max) :
    (i32Length length : Except (SecureChatError AuthError) Int32) = .ok (.ofNat length) := if_pos h

/-! ### The whole input -/

section
variable {AuthError : Type} {a b : SigningContext} {input : Bytes}

/-- The lengths that were written are the lengths of the parts that follow them. -/
theorem buildSigningInput_eq_ok
    (h : (buildSigningInput a : Except (SecureChatError AuthError) Bytes) = .ok input) :
    ∃ messageLength lastSeenLength : Int32,
      messageLength.toInt = (utf8Bytes a.message).length ∧
      lastSeenLength.toInt = a.lastSeen.length ∧
      input = i32Bytes a.rules.chainVersion ++ a.sender.toList ++ a.session.toList ++
        i32Bytes a.messageIndex ++ i64Bytes a.salt ++ i64Bytes (a.timestampMillis / 1000) ++
        i32Bytes messageLength ++ utf8Bytes a.message ++ i32Bytes lastSeenLength ++
        a.lastSeen.flatMap Vector.toList := by
  obtain ⟨messageLength, hmessage, h⟩ := Mut.except_bind_eq_ok.mp h
  obtain ⟨lastSeenLength, hlastSeen, h⟩ := Mut.except_bind_eq_ok.mp h
  cases h
  exact ⟨messageLength, lastSeenLength, i32Length_eq_ok hmessage, i32Length_eq_ok hlastSeen, rfl⟩

theorem content_eq_of_buildSigningInput
    (ha : (buildSigningInput a : Except (SecureChatError AuthError) Bytes) = .ok input)
    (hb : (buildSigningInput b : Except (SecureChatError AuthError) Bytes) = .ok input) :
    a.content = b.content := by
  obtain ⟨length, count, hlength, hcount, rfl⟩ := buildSigningInput_eq_ok ha
  obtain ⟨length', count', hlength', hcount', heq⟩ := buildSigningInput_eq_ok hb
  simp only [List.append_assoc] at heq
  -- The fields of fixed width, from the front.
  obtain ⟨hversion, heq⟩ := List.append_inj heq (by simp [i32Bytes])
  obtain ⟨hsender, heq⟩ := List.append_inj heq (by simp)
  obtain ⟨hsession, heq⟩ := List.append_inj heq (by simp)
  obtain ⟨hindex, heq⟩ := List.append_inj heq (by simp [i32Bytes])
  obtain ⟨hsalt, heq⟩ := List.append_inj heq (by simp [i64Bytes])
  obtain ⟨hseconds, heq⟩ := List.append_inj heq (by simp [i64Bytes])
  -- The message has the length written before it, and so has the list.
  obtain ⟨hlengths, heq⟩ := List.append_inj heq (by simp [i32Bytes])
  rw [← i32Bytes_inj hlengths] at hlength'
  obtain ⟨hmessage, heq⟩ := List.append_inj heq (by omega)
  obtain ⟨hcounts, hsignatures⟩ := List.append_inj heq (by simp [i32Bytes])
  rw [← i32Bytes_inj hcounts] at hcount'
  have hlist := flatMap_toList_inj (by omega) hsignatures
  unfold SigningContext.content
  rw [i32Bytes_inj hversion, Vector.toList_inj.mp hsender, Vector.toList_inj.mp hsession,
    i32Bytes_inj hindex, i64Bytes_inj hsalt, ← toInt_div_thousand, i64Bytes_inj hseconds,
    toInt_div_thousand, utf8Bytes_inj hmessage, hlist]

theorem exists_buildSigningInput (hmessage : (utf8Bytes a.message).length ≤ i32Max)
    (hlastSeen : a.lastSeen.length ≤ i32Max) :
    ∃ input, (buildSigningInput a : Except (SecureChatError AuthError) Bytes) = .ok input := by
  unfold buildSigningInput
  rw [i32Length_of_le hmessage, i32Length_of_le hlastSeen]
  exact ⟨_, rfl⟩

end

/-- One input speaks for one content, and only lengths beyond an `i32` are refused. -/
theorem buildSigningInput_unambiguous (AuthError : Type) :
    (∀ (a b : SigningContext) (input : Bytes),
      (buildSigningInput a : Except (SecureChatError AuthError) Bytes) = .ok input →
      (buildSigningInput b : Except (SecureChatError AuthError) Bytes) = .ok input →
      a.content = b.content) ∧
    ∀ a : SigningContext, (utf8Bytes a.message).length ≤ i32Max → a.lastSeen.length ≤ i32Max →
      ∃ input, (buildSigningInput a : Except (SecureChatError AuthError) Bytes) = .ok input :=
  ⟨fun _ _ _ => content_eq_of_buildSigningInput, fun _ => exists_buildSigningInput⟩

def greeting (timestampMillis : Int64) : SigningContext where
  rules := ⟨1, 20, 64⟩
  sender := .replicate 16 1
  session := .replicate 16 2
  messageIndex := 0
  message := "hi"
  timestampMillis
  salt := 7
  lastSeen := [.replicate 256 3]

/-- Within one second the same message gives the same input. -/
theorem buildSigningInput_unambiguous_greeting :
    (∃ input, (buildSigningInput (greeting 1000) : Except (SecureChatError Unit) Bytes) =
      .ok input) ∧ (greeting 1000).content = (greeting 1999).content :=
  ⟨(buildSigningInput_unambiguous Unit).2 _ (by decide +kernel) (by decide),
    (buildSigningInput_unambiguous Unit).1 _ _ _ rfl rfl⟩

end Cubic.Chat
