import Cubic.Codec.Frame
import Cubic.Lib.Transducer
import Cubic.Lib.Mut

/-!
# Compression and encryption on the wire (`transforms.rs`, `connection.rs`)

The AES-CFB8 stream cipher and zlib are parameters. A secret has sixteen bytes, so that it is never
refused. What the reads from the socket give is a list that is used up from the front; timeouts and
the socket's own errors are left out.
-/

namespace Cubic.Network

set_option autoImplicit false

abbrev Secret := Vector UInt8 16

/-- The crates `cfb8` and `flate2`. `inflate` reads to the end of the data, or of so many bytes. -/
structure TransportCrates (κ κ' ε : Type) where
  newEncryptor : Secret → κ
  encryptor : Transducer κ UInt8
  newDecryptor : Secret → κ'
  decryptor : Transducer κ' UInt8
  deflate : Bytes → Except ε Bytes
  inflate : Bytes → Nat → Except ε Bytes

inductive TransformError (ε : Type) where
  | invalidOutboundFrame
  | invalidCompressionThreshold (threshold : Int32)
  | negativeDecompressedLength (declared : Int32)
  | decompressedTooLarge (declared max : Nat)
  | decompressedLengthMismatch (declared actual : Nat)
  | compressedBelowThreshold (declared threshold : Nat)
  | compression (error : ε)
  | framing (error : CodecError)
  deriving DecidableEq

structure WireTransforms (κ κ' : Type) where
  encryptor : Option κ
  decryptor : Option κ'
  compressionThreshold : Option Nat
  frameLimits : FrameLimits

section
variable {κ κ' ε : Type}

def extractSingleFrame (bytes : Bytes) (limits : FrameLimits) : Except (TransformError ε) Bytes :=
  match (FrameDecoder.new limits).push bytes with
  | (.error e, _) => .error (.framing e)
  | (.ok (), decoder) =>
    match decoder.nextFrame with
    | (.error e, _) => .error (.framing e)
    | (.ok none, _) => .error .invalidOutboundFrame
    | (.ok (some frame), decoder) =>
      if decoder.pendingLen ≠ 0 then .error .invalidOutboundFrame else .ok frame

def encodeCompressed (crates : TransportCrates κ κ' ε) (body : Bytes) (threshold max : Nat) :
    Except (TransformError ε) Bytes := do
  let payload ←
    if threshold ≤ body.length then
      if body.length ≤ i32Max then do
        let compressed ← (crates.deflate body).mapError TransformError.compression
        pure (writeVarInt (.ofNat body.length) ++ compressed)
      else .error (.decompressedTooLarge body.length max)
    else pure (writeVarInt 0 ++ body)
  (encodeFrame payload max).mapError TransformError.framing

/-- `decode_compressed` on a reader of the payload -/
def readCompressed (crates : TransportCrates κ κ' ε) (threshold max : Nat) :
    Mut CodecReader (TransformError ε) Bytes := do
  let declared ← Mut.mapErr TransformError.framing readVarInt
  if declared.toInt < 0 then Mut.fail (.negativeDecompressedLength declared)
  else do
    let compressed ← Mut.mapErr TransformError.framing readRemaining
    if declared.toInt = 0 then
      if threshold ≤ compressed.length then
        Mut.fail (.decompressedLengthMismatch 0 compressed.length)
      else pure compressed
    else
      let declared := declared.toInt.toNat
      if max < declared then Mut.fail (.decompressedTooLarge declared max)
      else if declared < threshold then Mut.fail (.compressedBelowThreshold declared threshold)
      else do
        let output ← Mut.ofExcept
          ((crates.inflate compressed (min (max + 1) usizeMax)).mapError TransformError.compression)
        if output.length ≠ declared then
          Mut.fail (.decompressedLengthMismatch declared output.length)
        else pure output

def decodeCompressed (crates : TransportCrates κ κ' ε) (payload : Bytes) (threshold max : Nat) :
    Except (TransformError ε) Bytes :=
  match readCompressed crates threshold max (.new payload) with
  | .ok body _ => .ok body
  | .err e _ => .error e
  | .panic => .error (.framing .malformedVarInt)

namespace WireTransforms

def new (frameLimits : FrameLimits) : WireTransforms κ κ' := ⟨none, none, none, frameLimits⟩

def enableEncryption (crates : TransportCrates κ κ' ε) (transforms : WireTransforms κ κ')
    (secret : Secret) : WireTransforms κ κ' :=
  { transforms with
    encryptor := some (crates.newEncryptor secret)
    decryptor := some (crates.newDecryptor secret) }

def enableCompression (transforms : WireTransforms κ κ') (threshold : Int32) :
    Except (TransformError ε) (WireTransforms κ κ') :=
  if threshold.toInt < 0 then .error (.invalidCompressionThreshold threshold)
  else .ok { transforms with compressionThreshold := some threshold.toInt.toNat }

def decryptInPlace (crates : TransportCrates κ κ' ε) (transforms : WireTransforms κ κ')
    (bytes : Bytes) : Bytes × WireTransforms κ κ' :=
  match transforms.decryptor with
  | some state =>
    let decrypted := crates.decryptor.run state bytes
    (decrypted.1, { transforms with decryptor := some decrypted.2 })
  | none => (bytes, transforms)

/-- `encode_outbound` before its bytes are encrypted -/
def compressOutbound (crates : TransportCrates κ κ' ε) (transforms : WireTransforms κ κ')
    (framed : Bytes) : Except (TransformError ε) Bytes := do
  let body ← extractSingleFrame framed transforms.frameLimits
  match transforms.compressionThreshold with
  | some threshold => encodeCompressed crates body threshold transforms.frameLimits.maxFrameSize
  | none => pure framed

def encryptInPlace (crates : TransportCrates κ κ' ε) (transforms : WireTransforms κ κ')
    (bytes : Bytes) : Bytes × WireTransforms κ κ' :=
  match transforms.encryptor with
  | some state =>
    let encrypted := crates.encryptor.run state bytes
    (encrypted.1, { transforms with encryptor := some encrypted.2 })
  | none => (bytes, transforms)

def encodeOutbound (crates : TransportCrates κ κ' ε) (framed : Bytes) :
    Mut (WireTransforms κ κ') (TransformError ε) Bytes := do
  let transforms ← Mut.get
  let output ← Mut.ofExcept (transforms.compressOutbound crates framed)
  let encrypted := transforms.encryptInPlace crates output
  Mut.set encrypted.2
  pure encrypted.1

def decodeFrameBody (crates : TransportCrates κ κ' ε) (transforms : WireTransforms κ κ')
    (body : Bytes) : Except (TransformError ε) Bytes :=
  match transforms.compressionThreshold with
  | none => .ok body
  | some threshold =>
    decodeCompressed crates body threshold transforms.frameLimits.maxFrameSize

end WireTransforms

/-! ### The connection -/

inductive ConnectionError (ε : Type) where
  | framing (error : CodecError)
  | transform (error : TransformError ε)
  | prematureDisconnect (phase : String) (bufferedBytes : Nat)
  deriving DecidableEq

structure Connection (κ κ' : Type) where
  decoder : FrameDecoder
  transforms : WireTransforms κ κ'

abbrev ConnectionM (κ κ' ε : Type) := Mut (Connection κ κ') (ConnectionError ε)

namespace Connection

def new (limits : FrameLimits) : Connection κ κ' := ⟨.new limits, .new limits⟩

def nextFrame : ConnectionM κ κ' ε (Option Bytes) := do
  let connection ← Mut.get
  let next := connection.decoder.nextFrame
  Mut.set { connection with decoder := next.2 }
  Mut.ofExcept (next.1.mapError ConnectionError.framing)

/-- What is done with the bytes of a read. -/
def pushRead (crates : TransportCrates κ κ' ε) (bytes : Bytes) : ConnectionM κ κ' ε Unit := do
  let connection ← Mut.get
  let decrypted := connection.transforms.decryptInPlace crates bytes
  let pushed := connection.decoder.push decrypted.1
  Mut.set ⟨pushed.2, decrypted.2⟩
  Mut.ofExcept (pushed.1.mapError ConnectionError.framing)

/-- The body of the next frame that is there. -/
def decodedFrame (crates : TransportCrates κ κ' ε) : ConnectionM κ κ' ε (Option Bytes) := do
  match ← nextFrame with
  | none => pure none
  | some frame => do
    let connection ← Mut.get
    let body ← Mut.ofExcept
      ((connection.transforms.decodeFrameBody crates frame).mapError ConnectionError.transform)
    pure (some body)

def disconnected {α : Type} (phase : String) : ConnectionM κ κ' ε α := do
  let connection ← Mut.get
  Mut.fail (.prematureDisconnect phase connection.decoder.pendingLen)

/-- The next body, and the reads that are left. A read of no bytes is the end of the stream. -/
def readNextFrame (crates : TransportCrates κ κ' ε) (phase : String) :
    List Bytes → ConnectionM κ κ' ε (Bytes × List Bytes)
  | [] => do
    match ← decodedFrame crates with
    | some body => pure (body, [])
    | none => disconnected phase
  | bytes :: reads => do
    match ← decodedFrame crates with
    | some body => pure (body, bytes :: reads)
    | none =>
      if bytes = [] then disconnected phase
      else do
        pushRead crates bytes
        readNextFrame crates phase reads

def enableEncryption (crates : TransportCrates κ κ' ε) (secret : Secret) : ConnectionM κ κ' ε Unit :=
  Mut.modify fun connection =>
    { connection with transforms := connection.transforms.enableEncryption crates secret }

def enableCompression (threshold : Int32) : ConnectionM κ κ' ε Unit := do
  let connection ← Mut.get
  let transforms ← Mut.ofExcept
    ((connection.transforms.enableCompression threshold).mapError ConnectionError.transform)
  Mut.set { connection with transforms := transforms }

end Connection

end

end Cubic.Network
