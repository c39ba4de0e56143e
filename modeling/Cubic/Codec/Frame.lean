import Cubic.Codec.Writer
import Cubic.Lib.Incremental

/-!
# Frames (`frame.rs`)

The decoder keeps the bytes it has not used behind a read offset and compacts its buffer
now and then. What it returns depends on the pending bytes alone: `frameStep` is one call
of `next_frame` in those terms.
-/

namespace Cubic

set_option autoImplicit false

open VarLength Incremental

def minecraftMaxFrameSize : Nat := 2 ^ 21 - 1
def maxFrameLengthPrefixBytes : Nat := 3

structure FrameLimits where
  maxFrameSize : Nat
  maxBufferedBytes : Nat
  frame_le : maxFrameSize ≤ minecraftMaxFrameSize
  buffer_ge : maxFrameSize + maxFrameLengthPrefixBytes ≤ maxBufferedBytes
  deriving DecidableEq

def FrameLimits.new (maxFrameSize maxBufferedBytes : Nat) : Except CodecError FrameLimits :=
  if hframe : maxFrameSize ≤ minecraftMaxFrameSize then
    if hbuffer : maxFrameSize + maxFrameLengthPrefixBytes ≤ maxBufferedBytes then
      .ok ⟨maxFrameSize, maxBufferedBytes, hframe, hbuffer⟩
    else .error (.valueOutOfRange "maximum buffered frame bytes" maxBufferedBytes
      (maxFrameSize + maxFrameLengthPrefixBytes : Nat) usizeMax)
  else .error (.frameTooLong maxFrameSize minecraftMaxFrameSize)

structure FrameDecoder where
  limits : FrameLimits
  buffer : Bytes
  readOffset : Nat
  offset_le : readOffset ≤ buffer.length
  deriving DecidableEq

namespace FrameDecoder

def new (limits : FrameLimits) : FrameDecoder := ⟨limits, [], 0, Nat.le_refl 0⟩

def pending (d : FrameDecoder) : Bytes := d.buffer.drop d.readOffset

def pendingLen (d : FrameDecoder) : Nat := d.buffer.length - d.readOffset

/-- `buffer.copy_within(offset.., 0)`: the bytes from `offset` on overwrite the first ones. -/
def copyWithin (buffer : Bytes) (offset : Nat) : Bytes :=
  buffer.drop offset ++ buffer.drop (buffer.length - offset)

def compactIfUseful (d : FrameDecoder) : FrameDecoder :=
  if d.readOffset = 0 then d
  else if d.readOffset ≥ 4096 ∨ d.readOffset ≥ d.pendingLen then
    ⟨d.limits, (copyWithin d.buffer d.readOffset).take d.pendingLen, 0, Nat.zero_le _⟩
  else d

def push (d : FrameDecoder) (bytes : Bytes) : Except CodecError Unit × FrameDecoder :=
  let d := d.compactIfUseful
  match checkedAdd d.pendingLen bytes.length with
  | none => (.error (.frameBufferTooLong usizeMax d.limits.maxBufferedBytes), d)
  | some buffered =>
    if buffered > d.limits.maxBufferedBytes then
      (.error (.frameBufferTooLong buffered d.limits.maxBufferedBytes), d)
    else
      (.ok (), ⟨d.limits, d.buffer ++ bytes, d.readOffset, by
        rw [List.length_append]
        exact le_trans d.offset_le (Nat.le_add_right _ _)⟩)

theorem length_pending (d : FrameDecoder) : d.pending.length = d.pendingLen := List.length_drop

/-- `total` more bytes are used; a buffer that is used up is cleared. -/
def consume (d : FrameDecoder) (total : Nat) (h : total ≤ d.pending.length) : FrameDecoder :=
  if d.readOffset + total = d.buffer.length then ⟨d.limits, [], 0, Nat.le_refl 0⟩
  else ⟨d.limits, d.buffer, d.readOffset + total, by
    have hle := d.offset_le
    rw [length_pending, pendingLen] at h
    omega⟩

def nextFrame (d : FrameDecoder) : Except CodecError (Option Bytes) × FrameDecoder :=
  match decodePartialVarInt d.pending with
  | .needMore => (.ok none, d)
  | .malformed => (.error (.malformedLengthPrefix .frame), d)
  | .complete value prefixBytes =>
    if value.toInt < 0 then (.error (.negativeLength .frame (.ofBitVec value)), d)
    else if prefixBytes > maxFrameLengthPrefixBytes then
      (.error (.malformedLengthPrefix .frame), d)
    else
      let frameLength := value.toInt.toNat
      if frameLength > d.limits.maxFrameSize then
        (.error (.frameTooLong frameLength d.limits.maxFrameSize), d)
      else match checkedAdd prefixBytes frameLength with
        | none => (.error (.valueOutOfRange "complete frame length" frameLength 0 usizeMax), d)
        | some totalLength =>
          if h : d.pending.length < totalLength then (.ok none, d)
          else
            (.ok (some ((d.pending.take totalLength).drop prefixBytes)),
              d.consume totalLength (Nat.not_lt.mp h))

end FrameDecoder

/-- What was found so far, and the decoder. -/
structure Fed where
  frames : List Bytes
  error : Option CodecError
  decoder : FrameDecoder
  deriving DecidableEq

/-- Call `next_frame` until it returns no frame or an error. -/
def drainUpTo : Nat → FrameDecoder → Fed
  | 0, d => ⟨[], none, d⟩
  | fuel + 1, d =>
    match d.nextFrame with
    | (.ok none, d') => ⟨[], none, d'⟩
    | (.error e, d') => ⟨[], some e, d'⟩
    | (.ok (some body), d') =>
      let later := drainUpTo fuel d'
      { later with frames := body :: later.frames }

/-- Every frame uses up at least a byte. -/
def drain (d : FrameDecoder) : Fed := drainUpTo (d.pendingLen + 1) d

/-- Push the fragments, draining after each; none when a push fails. -/
def feedFragments : List Bytes → Fed → Option Fed
  | [], fed => some fed
  | fragment :: fragments, fed =>
    match fed.decoder.push fragment with
    | (.error _, _) => none
    | (.ok _, d) =>
      let drained := drain d
      feedFragments fragments { drained with frames := fed.frames ++ drained.frames }

def decodeFragments (limits : FrameLimits) (fragments : List Bytes) : Option Fed :=
  feedFragments fragments ⟨[], none, .new limits⟩

def encodeFrame (body : Bytes) (maxFrameSize : Nat) : Except CodecError Bytes :=
  let effectiveMax := min maxFrameSize minecraftMaxFrameSize
  if body.length > effectiveMax then .error (.frameTooLong body.length effectiveMax)
  else do
    let header ← writeLength body.length "frame length"
    pure (header ++ body)

structure RawPacket where
  id : Int32
  payload : Bytes
  deriving DecidableEq

def splitRawPacket (frame : Bytes) : Except CodecError RawPacket :=
  match readVarInt (.new frame) with
  | .ok id r => .ok ⟨id, r.rest⟩
  | .err e _ => .error e
  | .panic => .error .malformedVarInt

end Cubic
