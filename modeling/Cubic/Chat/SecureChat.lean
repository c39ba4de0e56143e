import Cubic.Lib.BigEndian
import Cubic.Lib.Run
import Cubic.Play.Protocol

/-!
# Signed chat and its acknowledgements (`secure_chat.rs`)

The window of signatures last seen, the count of those not acknowledged yet, and the two
message numberings of a session.
-/

namespace Cubic.Chat

set_option autoImplicit false

abbrev ProtocolUuid := Vector UInt8 16

abbrev MessageSignature := Vector UInt8 256

structure SecureChatRules where
  chainVersion : Int32
  lastSeenCapacity : Nat
  standaloneAcknowledgementThreshold : Int32

/-- Nanoseconds since the Unix epoch. -/
abbrev SystemTime := Int

/-- What the player's certificate answers; `AuthError` is the error of the signer. -/
structure ChatCertificate (AuthError : Type) where
  isExpired : SystemTime → Bool
  signChat : Bytes → Except AuthError MessageSignature

inductive SecureChatError (AuthError : Type) where
  | authentication (e : AuthError)
  | expiredCertificate
  | incomingSequence (expected received : Int32)
  | numericRange
  | incompatibleAcknowledgementWindow

structure ChatLastSeenUpdate where
  offset : Int32
  acknowledged : Vector UInt8 3
  checksum : UInt8

def ChatLastSeenUpdate.new (offset : Int32) (acknowledged : Vector UInt8 3) (checksum : UInt8) :
    Except BootstrapProtocolError ChatLastSeenUpdate :=
  if offset < 0 then .error (.negativeCount "Chat Message last-seen offset" offset)
  else if acknowledged[2] &&& 0xf0 ≠ 0 then
    .error (.codec (.valueOutOfRange "Chat Message fixed 20-bit acknowledgement"
      acknowledged[2].toNat 0 0x0f))
  else .ok ⟨offset, acknowledged, checksum⟩

structure LastSeenTracker where
  entries : List (Option MessageSignature)
  lastAdded : Option MessageSignature
  offset : Int32

structure SecureChatSequence where
  session : ProtocolUuid
  nextOutgoingIndex : Int32
  nextIncomingIndex : Int32
  lastSeen : LastSeenTracker

structure SecureChatSession where
  rules : SecureChatRules
  sender : ProtocolUuid
  sequence : SecureChatSequence

structure PreparedSignedMessage where
  signature : MessageSignature
  lastSeenUpdate : ChatLastSeenUpdate

/-! ### The window -/

def LastSeenTracker.new (capacity : Nat) : LastSeenTracker :=
  ⟨List.replicate capacity none, none, 0⟩

section Tracker
variable {AuthError : Type}

def LastSeenTracker.add (signature : MessageSignature) (displayed : Bool) :
    Mut LastSeenTracker (SecureChatError AuthError) Unit := do
  let tracker ← Mut.get
  if tracker.lastAdded = some signature then pure ()
  else do
    Mut.set { tracker with
      lastAdded := some signature
      entries := tracker.entries.tail ++ [if displayed then some signature else none] }
    let offset ← Mut.okOr (checkedAddI32 tracker.offset 1) .numericRange
    Mut.modify fun tracker => { tracker with offset := offset }

def LastSeenTracker.takeOffset : Mut LastSeenTracker (SecureChatError AuthError) Int32 := do
  let tracker ← Mut.get
  Mut.set { tracker with offset := 0 }
  pure tracker.offset

/-- The bits and the signatures of the entries from `index` on, added to those before. -/
def collectSeen : Nat → List (Option MessageSignature) → Vector UInt8 3 →
    List MessageSignature → Vector UInt8 3 × List MessageSignature
  | _, [], acknowledged, signatures => (acknowledged, signatures)
  | index, none :: rest, acknowledged, signatures =>
    collectSeen (index + 1) rest acknowledged signatures
  | index, some signature :: rest, acknowledged, signatures =>
    collectSeen (index + 1) rest
      (acknowledged.mapIdx fun i byte =>
        if i = index / 8 then byte ||| 1 <<< UInt8.ofNat (index % 8) else byte)
      (signatures ++ [signature])

/-- The bits of the window, and its signatures. -/
def LastSeenTracker.seen (tracker : LastSeenTracker) : Vector UInt8 3 × List MessageSignature :=
  collectSeen 0 tracker.entries (Vector.replicate 3 0) []

def signatureHash (signature : MessageSignature) : Int32 :=
  signature.toList.foldl (fun hash byte => hash * 31 + byte.toInt8.toInt32) 1

def acknowledgementChecksum (signatures : List MessageSignature) : UInt8 :=
  let listHash : Int32 :=
    signatures.foldl (fun hash signature => hash * 31 + signatureHash signature) 1
  let checksum := listHash.toUInt32.toUInt8
  if checksum = 0 then 1 else checksum

def LastSeenTracker.generateUpdate :
    Mut LastSeenTracker (SecureChatError AuthError)
      (ChatLastSeenUpdate × List MessageSignature) := do
  let tracker ← Mut.get
  if tracker.entries.length ≠ 20 then Mut.fail .incompatibleAcknowledgementWindow
  else do
    let checksum := acknowledgementChecksum tracker.seen.2
    let offset ← takeOffset
    let update ← Mut.ofExcept
      ((ChatLastSeenUpdate.new offset tracker.seen.1 checksum).mapError fun _ => .numericRange)
    pure (update, tracker.seen.2)

/-! ### What is signed -/

structure SigningContext where
  rules : SecureChatRules
  sender : ProtocolUuid
  session : ProtocolUuid
  messageIndex : Int32
  message : String
  timestampMillis : Int64
  salt : Int64
  lastSeen : List MessageSignature

def i32Bytes (n : Int32) : Bytes := toBigEndian 4 n.toUInt32.toNat

def i64Bytes (n : Int64) : Bytes := toBigEndian 8 n.toUInt64.toNat

def i32Length (length : Nat) : Except (SecureChatError AuthError) Int32 :=
  if length ≤ i32Max then .ok (.ofNat length) else .error .numericRange

def buildSigningInput (context : SigningContext) : Except (SecureChatError AuthError) Bytes := do
  let messageLength ← i32Length (utf8Bytes context.message).length
  let lastSeenLength ← i32Length context.lastSeen.length
  pure (i32Bytes context.rules.chainVersion ++ context.sender.toList ++ context.session.toList ++
    i32Bytes context.messageIndex ++ i64Bytes context.salt ++
    i64Bytes (context.timestampMillis / 1000) ++ i32Bytes messageLength ++
    utf8Bytes context.message ++ i32Bytes lastSeenLength ++
    context.lastSeen.flatMap Vector.toList)

end Tracker

/-! ### The session -/

def SecureChatSequence.new (session : ProtocolUuid) (capacity : Nat) : SecureChatSequence :=
  ⟨session, 0, 0, LastSeenTracker.new capacity⟩

namespace SecureChatSession

def new (rules : SecureChatRules) (sender session : ProtocolUuid) : SecureChatSession :=
  ⟨rules, sender, SecureChatSequence.new session rules.lastSeenCapacity⟩

def reset (s : SecureChatSession) (session : ProtocolUuid) : SecureChatSession :=
  { s with sequence := SecureChatSequence.new session s.rules.lastSeenCapacity }

def setLastSeen (tracker : LastSeenTracker) (s : SecureChatSession) : SecureChatSession :=
  { s with sequence := { s.sequence with lastSeen := tracker } }

variable {AuthError : Type}

def onLastSeen {α : Type} (m : Mut LastSeenTracker (SecureChatError AuthError) α) :
    Mut SecureChatSession (SecureChatError AuthError) α :=
  Mut.zoom (fun s => s.sequence.lastSeen) setLastSeen m

def advanceIncomingIndex (received : Int32) : Mut Int32 (SecureChatError AuthError) Unit := do
  let expected ← Mut.get
  if received ≠ expected then Mut.fail (.incomingSequence expected received)
  else do
    let next ← Mut.okOr (checkedAddI32 expected 1) .numericRange
    Mut.set next

/-- `display` is what the event queue answers; it is asked once the index has advanced. -/
def acceptIncoming (globalIndex : Int32) (signature : Option MessageSignature) (display : Bool) :
    Mut SecureChatSession (SecureChatError AuthError) Unit := do
  Mut.zoom (fun s => s.sequence.nextIncomingIndex)
    (fun next s => { s with sequence := { s.sequence with nextIncomingIndex := next } })
    (advanceIncomingIndex globalIndex)
  match signature with
  | some signature => onLastSeen (LastSeenTracker.add signature display)
  | none => pure ()

def standaloneAcknowledgement :
    Mut SecureChatSession (SecureChatError AuthError) (Option Int32) := do
  let s ← Mut.get
  if s.rules.standaloneAcknowledgementThreshold < s.sequence.lastSeen.offset then do
    let offset ← onLastSeen LastSeenTracker.takeOffset
    pure (some offset)
  else pure none

def signingContext (s : SecureChatSession) (message : String) (timestampMillis salt : Int64)
    (lastSeen : List MessageSignature) : SigningContext :=
  { rules := s.rules, sender := s.sender, session := s.sequence.session,
    messageIndex := s.sequence.nextOutgoingIndex, message := message,
    timestampMillis := timestampMillis, salt := salt, lastSeen := lastSeen }

/-- The rest of `prepare_outgoing` once the last-seen update is generated. -/
def signOutgoing (certificate : ChatCertificate AuthError) (message : String)
    (timestampMillis salt : Int64) (lastSeenUpdate : ChatLastSeenUpdate)
    (lastSeenSignatures : List MessageSignature) :
    Mut SecureChatSession (SecureChatError AuthError) PreparedSignedMessage := do
  let s ← Mut.get
  let input ← Mut.ofExcept
    (buildSigningInput (s.signingContext message timestampMillis salt lastSeenSignatures))
  let signature ← Mut.ofExcept ((certificate.signChat input).mapError .authentication)
  let next ← Mut.okOr (checkedAddI32 s.sequence.nextOutgoingIndex 1) .numericRange
  Mut.set { s with sequence := { s.sequence with nextOutgoingIndex := next } }
  pure ⟨signature, lastSeenUpdate⟩

def prepareOutgoing (certificate : ChatCertificate AuthError) (now : SystemTime)
    (message : String) (timestampMillis salt : Int64) :
    Mut SecureChatSession (SecureChatError AuthError) PreparedSignedMessage := do
  if certificate.isExpired now then Mut.fail .expiredCertificate
  else do
    let generated ← onLastSeen LastSeenTracker.generateUpdate
    signOutgoing certificate message timestampMillis salt generated.1 generated.2

end SecureChatSession

end Cubic.Chat
