import Cubic.Codec.FrameStream
import Cubic.Network.Transforms

/-!
# Two ends of a connection

What one end sends, and the switches of its pipeline, come out at the other end, if it makes the
same switches between the same frames and no read goes on from before a switch of the cipher to
after it.
-/

namespace Cubic.Network

set_option autoImplicit false

open Incremental

/-- A packet, or a switch between two frames. -/
inductive PipelineStep where
  | packet (body : Bytes)
  | compression (threshold : Int32)
  | encryption (secret : Secret)

def packetBody : PipelineStep → Option Bytes
  | .packet body => some body
  | _ => none

section
variable {κ κ' ε : Type}

/-- Put bytes before those up to the next switch of the cipher. -/
def prependBytes (bytes : Bytes) : List Bytes → List Bytes
  | [] => [bytes]
  | stretch :: later => (bytes ++ stretch) :: later

/-- What is written before, between and after the switches of the cipher. -/
def sendSteps (crates : TransportCrates κ κ' ε) :
    List PipelineStep → Mut (WireTransforms κ κ') (TransformError ε) (List Bytes)
  | [] => pure [[]]
  | .packet body :: steps => do
    let transforms ← Mut.get
    let framed ← Mut.ofExcept
      ((encodeFrame body transforms.frameLimits.maxFrameSize).mapError TransformError.framing)
    let bytes ← WireTransforms.encodeOutbound crates framed
    let later ← sendSteps crates steps
    pure (prependBytes bytes later)
  | .compression threshold :: steps => do
    let transforms ← Mut.get
    let transforms ← Mut.ofExcept (transforms.enableCompression threshold)
    Mut.set transforms
    sendSteps crates steps
  | .encryption secret :: steps => do
    Mut.modify fun transforms => transforms.enableEncryption crates secret
    let later ← sendSteps crates steps
    pure ([] :: later)

/-- The bodies that arrive, and the reads that are left. -/
def receiveSteps (crates : TransportCrates κ κ' ε) (phase : String) :
    List PipelineStep → List Bytes → ConnectionM κ κ' ε (List Bytes × List Bytes)
  | [], reads => pure ([], reads)
  | .packet _ :: steps, reads => do
    let next ← Connection.readNextFrame crates phase reads
    let later ← receiveSteps crates phase steps next.2
    pure (next.1 :: later.1, later.2)
  | .compression threshold :: steps, reads => do
    Connection.enableCompression threshold
    receiveSteps crates phase steps reads
  | .encryption secret :: steps, reads => do
    Connection.enableEncryption crates secret
    receiveSteps crates phase steps reads

/-! ### The crates -/

/-- The decryptor takes back what the encryptor does, and zlib loses nothing. -/
structure TransportCrates.Lossless (crates : TransportCrates κ κ' ε) : Prop where
  cipher : ∀ secret bytes, (crates.decryptor.run (crates.newDecryptor secret)
    (crates.encryptor.run (crates.newEncryptor secret) bytes).1).1 = bytes
  zlib : ∀ body compressed limit, crates.deflate body = .ok compressed →
    crates.inflate compressed limit = .ok (body.take limit)

variable {crates : TransportCrates κ κ' ε} {limits : FrameLimits}
  {transforms : WireTransforms κ κ'} {body framed : Bytes}

/-! ### Encryption -/

/-- The state of the encryptor decides. -/
theorem encryptInPlace_congr {transforms' : WireTransforms κ κ'}
    (h : transforms.encryptor = transforms'.encryptor) (bytes : Bytes) :
    (transforms.encryptInPlace crates bytes).1 = (transforms'.encryptInPlace crates bytes).1 := by
  unfold WireTransforms.encryptInPlace
  rw [h]
  cases transforms'.encryptor with
  | none => rfl
  | some state => rfl

theorem encryptInPlace_append (xs ys : Bytes) : (transforms.encryptInPlace crates (xs ++ ys)).1 =
    (transforms.encryptInPlace crates xs).1 ++
      ((transforms.encryptInPlace crates xs).2.encryptInPlace crates ys).1 := by
  unfold WireTransforms.encryptInPlace
  cases hencryptor : transforms.encryptor with
  | none => rw [hencryptor]
  | some state =>
    dsimp only
    rw [Transducer.run_append]

theorem encryptInPlace_nil : (transforms.encryptInPlace crates []).1 = [] := by
  unfold WireTransforms.encryptInPlace
  cases transforms.encryptor with
  | none => rfl
  | some state => rfl

variable (crates transforms) in
/-- Encrypting changes nothing but the state of the encryptor. -/
theorem encryptInPlace_keeps (bytes : Bytes) :
    (transforms.encryptInPlace crates bytes).2.compressionThreshold =
        transforms.compressionThreshold ∧
      (transforms.encryptInPlace crates bytes).2.frameLimits = transforms.frameLimits := by
  unfold WireTransforms.encryptInPlace
  cases transforms.encryptor with
  | none => exact ⟨rfl, rfl⟩
  | some state => exact ⟨rfl, rfl⟩

variable (crates transforms) in
/-- What the receiver makes of bytes that are still to be read. -/
def opened (bytes : Bytes) : Bytes := (transforms.decryptInPlace crates bytes).1

/-- The state of the decryptor decides. -/
theorem opened_congr {transforms' : WireTransforms κ κ'}
    (h : transforms.decryptor = transforms'.decryptor) (bytes : Bytes) :
    opened crates transforms bytes = opened crates transforms' bytes := by
  unfold opened WireTransforms.decryptInPlace
  rw [h]
  cases transforms'.decryptor with
  | none => rfl
  | some state => rfl

theorem opened_append (xs ys : Bytes) : opened crates transforms (xs ++ ys) =
    opened crates transforms xs ++ opened crates (transforms.decryptInPlace crates xs).2 ys := by
  unfold opened WireTransforms.decryptInPlace
  cases hdecryptor : transforms.decryptor with
  | none => rw [hdecryptor]
  | some state =>
    dsimp only
    rw [Transducer.run_append]

theorem opened_nil : opened crates transforms [] = [] := by
  unfold opened WireTransforms.decryptInPlace
  cases transforms.decryptor with
  | none => rfl
  | some state => rfl

variable (crates transforms) in
theorem length_opened (bytes : Bytes) : (opened crates transforms bytes).length = bytes.length := by
  unfold opened WireTransforms.decryptInPlace
  cases transforms.decryptor with
  | none => rfl
  | some state => exact crates.decryptor.length_run bytes state

variable (crates transforms) in
/-- Decrypting changes nothing but the state of the decryptor. -/
theorem decryptInPlace_keeps (bytes : Bytes) :
    (transforms.decryptInPlace crates bytes).2.compressionThreshold =
        transforms.compressionThreshold ∧
      (transforms.decryptInPlace crates bytes).2.frameLimits = transforms.frameLimits := by
  unfold WireTransforms.decryptInPlace
  cases transforms.decryptor with
  | none => exact ⟨rfl, rfl⟩
  | some state => exact ⟨rfl, rfl⟩

/-! ### Frames -/

theorem encodeFrame_length {max : Nat} (h : encodeFrame body max = .ok framed) :
    body.length ≤ max := by
  unfold encodeFrame at h
  dsimp only at h
  split at h
  · cases h
  · rename_i hle
    exact (not_lt.mp hle).trans (min_le_left _ _)

theorem encoded_length_le (h : encodeFrame body limits.maxFrameSize = .ok framed) :
    framed.length ≤ limits.maxFrameSize + maxFrameLengthPrefixBytes := by
  have hstep := frameStep_encoded h []
  obtain ⟨value, prefixBytes, -, -, hstart, hvalue, -, -, hused⟩ := frameStep_eq_item.mp hstep
  omega

/-- A part of a frame asks for more. -/
theorem frameStep_part {pending more : Bytes}
    (h : encodeFrame body limits.maxFrameSize = .ok (pending ++ more)) (hmore : more ≠ []) :
    frameStep limits pending = .need := by
  have hwhole := frameStep_encoded h []
  rw [List.append_nil] at hwhole
  cases hstep : frameStep limits pending with
  | need => rfl
  | error e =>
    rw [(frameStep_stable limits).error_append more hstep] at hwhole
    cases hwhole
  | item value used =>
    have hused := ((frameStep_stable limits).item_used hstep).2
    rw [(frameStep_stable limits).item_append more hstep] at hwhole
    cases hwhole
    have hpos := List.length_pos_of_ne_nil hmore
    rw [List.length_append] at hused
    omega

theorem push_of_le {decoder : FrameDecoder} {bytes : Bytes}
    (h : decoder.pending.length + bytes.length ≤ min decoder.limits.maxBufferedBytes usizeMax) :
    ∃ decoder', decoder.push bytes = (.ok (), decoder') := by
  rw [Nat.le_min] at h
  unfold FrameDecoder.push
  dsimp only
  rw [← FrameDecoder.length_pending, FrameDecoder.pending_compact, FrameDecoder.limits_compact,
    checkedAdd, if_pos h.2]
  dsimp only
  rw [if_neg (not_lt.mpr h.1)]
  exact ⟨_, rfl⟩

/-- A push fails for the size of the buffer alone. -/
theorem push_eq_error {decoder decoder' : FrameDecoder} {bytes : Bytes} {e : CodecError}
    (h : decoder.push bytes = (.error e, decoder')) :
    (∃ buffered, e = .frameBufferTooLong buffered decoder.limits.maxBufferedBytes) ∧
      min decoder.limits.maxBufferedBytes usizeMax < decoder.pending.length + bytes.length := by
  refine ⟨?_, ?_⟩
  · unfold FrameDecoder.push at h
    dsimp only at h
    rw [FrameDecoder.limits_compact] at h
    split at h
    · cases h
      exact ⟨usizeMax, rfl⟩
    · rename_i buffered _
      split at h
      · cases h
        exact ⟨buffered, rfl⟩
      · cases h
  · by_contra hle
    obtain ⟨_, hpush⟩ := push_of_le (not_lt.mp hle)
    rw [hpush] at h
    cases h

theorem extractSingleFrame_encoded (h : encodeFrame body limits.maxFrameSize = .ok framed) :
    extractSingleFrame (ε := ε) framed limits = .ok body := by
  have hlength := encoded_length_le h
  have hbuffer := limits.buffer_ge
  have hframe := limits.frame_le
  have hfits : (FrameDecoder.new limits).pending.length + framed.length ≤
      min (FrameDecoder.new limits).limits.maxBufferedBytes usizeMax := by
    apply Nat.le_min.mpr
    constructor
    · rw [FrameDecoder.pending_new, List.length_nil, Nat.zero_add]
      exact hlength.trans hbuffer
    · rw [FrameDecoder.pending_new, List.length_nil, Nat.zero_add]
      unfold minecraftMaxFrameSize at hframe
      unfold maxFrameLengthPrefixBytes at hlength
      unfold usizeMax
      omega
  obtain ⟨decoder, hpush⟩ := push_of_le hfits
  obtain ⟨hpending, hlimits⟩ := FrameDecoder.push_ok hpush
  rw [FrameDecoder.pending_new, List.nil_append] at hpending
  have hstep := frameStep_encoded h []
  rw [List.append_nil] at hstep
  have hnext := decoder.nextFrame_spec
  rw [hlimits, hpending, show (FrameDecoder.new limits).limits = limits from rfl, hstep] at hnext
  obtain ⟨rest, hnext, hrest, -⟩ := hnext
  rw [List.drop_length] at hrest
  have hnone : rest.pendingLen = 0 := by
    rw [← FrameDecoder.length_pending, hrest]
    rfl
  unfold extractSingleFrame
  rw [hpush]
  dsimp only
  rw [hnext]
  dsimp only
  rw [if_neg (not_not_intro hnone)]

/-! ### Compression -/

theorem readCompressed_stored {threshold max : Nat} (h : body.length < threshold) :
    decodeCompressed crates (writeVarInt 0 ++ body) threshold max = .ok body := by
  have hdeclared := (reads_varInt 0).mapErr (TransformError.framing (ε := ε)) [] body
  have hrest : Mut.mapErr (TransformError.framing (ε := ε)) readRemaining
      ⟨[] ++ writeVarInt 0, body⟩ = .ok body ⟨[] ++ writeVarInt 0 ++ body, []⟩ :=
    Mut.mapErr_eq_ok.mpr (reads_readRemaining _ _)
  have hread : readCompressed crates threshold max (.new (writeVarInt 0 ++ body)) =
      .ok body ⟨[] ++ writeVarInt 0 ++ body, []⟩ := by
    unfold readCompressed
    refine (Mut.bind_of_ok hdeclared).trans ?_
    rw [if_neg (by decide), Mut.bind_of_ok hrest, if_pos (by decide), if_neg (not_le.mpr h)]
    rfl
  unfold decodeCompressed
  rw [hread]

theorem readCompressed_deflated {threshold max : Nat} {compressed : Bytes}
    (hcrates : crates.Lossless) (hdeflate : crates.deflate body = .ok compressed)
    (hmin : threshold ≤ body.length) (hpos : 0 < body.length) (hmax : body.length ≤ max)
    (hsize : body.length ≤ i32Max) :
    decodeCompressed crates (writeVarInt (.ofNat body.length) ++ compressed) threshold max =
      .ok body := by
  have hdeclared := (reads_varInt (.ofNat body.length)).mapErr (TransformError.framing (ε := ε)) []
    compressed
  have hrest : Mut.mapErr (TransformError.framing (ε := ε)) readRemaining
      ⟨[] ++ writeVarInt (.ofNat body.length), compressed⟩ =
        .ok compressed ⟨[] ++ writeVarInt (.ofNat body.length) ++ compressed, []⟩ :=
    Mut.mapErr_eq_ok.mpr (reads_readRemaining _ _)
  have hint := toInt_ofNat_i32 hsize
  have hlimit : body.length ≤ min (max + 1) usizeMax := by
    unfold i32Max at hsize
    unfold usizeMax
    omega
  have hinflate := hcrates.zlib body compressed (min (max + 1) usizeMax) hdeflate
  rw [List.take_of_length_le hlimit] at hinflate
  have hread : readCompressed crates threshold max
      (.new (writeVarInt (.ofNat body.length) ++ compressed)) =
        .ok body ⟨[] ++ writeVarInt (.ofNat body.length) ++ compressed, []⟩ := by
    unfold readCompressed
    refine (Mut.bind_of_ok hdeclared).trans ?_
    rw [hint, if_neg (by omega), Mut.bind_of_ok hrest, if_neg (by omega), Int.toNat_natCast]
    rw [if_neg (not_lt.mpr hmax), if_neg (not_lt.mpr hmin), hinflate]
    refine (Mut.bind_of_ok (Mut.ofExcept_eq_ok.mpr ⟨rfl, rfl⟩)).trans ?_
    rw [if_neg (not_not_intro rfl)]
    rfl
  unfold decodeCompressed
  rw [hread]

/-- The frame that is sent, and what is in it. -/
theorem encodeCompressed_decodes {threshold max : Nat} {out : Bytes} (hcrates : crates.Lossless)
    (hmax : body.length ≤ max) (hbody : body = [] → threshold ≠ 0)
    (h : encodeCompressed crates body threshold max = .ok out) :
    ∃ inner, encodeFrame inner max = .ok out ∧
      decodeCompressed crates inner threshold max = .ok body := by
  unfold encodeCompressed at h
  dsimp only at h
  split at h
  · rename_i hmin
    split at h
    · rename_i hsize
      obtain ⟨compressed, hcompressed, h⟩ := Mut.except_bind_eq_ok.mp h
      have hpos : 0 < body.length := by
        apply Nat.pos_of_ne_zero
        intro hzero
        have hthreshold := hbody (List.length_eq_zero_iff.mp hzero)
        omega
      exact ⟨_, Mut.mapError_eq_ok.mp h, readCompressed_deflated hcrates
        (Mut.mapError_eq_ok.mp hcompressed) hmin hpos hmax hsize⟩
    · cases h
  · rename_i hmin
    exact ⟨_, Mut.mapError_eq_ok.mp h, readCompressed_stored (not_le.mp hmin)⟩

/-- The other end of the connection decodes what is in the frame. -/
theorem compressOutbound_decodes {out : Bytes} (hcrates : crates.Lossless)
    (hbody : body = [] → transforms.compressionThreshold ≠ some 0)
    (hframed : encodeFrame body transforms.frameLimits.maxFrameSize = .ok framed)
    (h : transforms.compressOutbound crates framed = .ok out) :
    ∃ inner, encodeFrame inner transforms.frameLimits.maxFrameSize = .ok out ∧
      ∀ receiver : WireTransforms κ κ',
        receiver.compressionThreshold = transforms.compressionThreshold →
        receiver.frameLimits = transforms.frameLimits →
        receiver.decodeFrameBody crates inner = .ok body := by
  unfold WireTransforms.compressOutbound at h
  obtain ⟨_, hextract, h⟩ := Mut.except_bind_eq_ok.mp h
  rw [extractSingleFrame_encoded hframed] at hextract
  cases hextract
  unfold WireTransforms.decodeFrameBody
  cases hcase : transforms.compressionThreshold with
  | none =>
    rw [hcase] at h
    cases h
    refine ⟨body, hframed, ?_⟩
    intro receiver hthreshold _
    rw [hthreshold]
  | some threshold =>
    rw [hcase] at h
    have hmin : body = [] → threshold ≠ 0 := by
      intro hnil hzero
      exact hbody hnil (hcase.trans (congrArg some hzero))
    obtain ⟨inner, hinner, hdecode⟩ :=
      encodeCompressed_decodes hcrates (encodeFrame_length hframed) hmin h
    refine ⟨inner, hinner, ?_⟩
    intro receiver hthreshold hlimits
    rw [hthreshold, hlimits]
    exact hdecode

/-! ### Receiving -/

/-- The connection has the limits and the compression of the other end. -/
structure Mirrors (limits : FrameLimits) (threshold : Option Nat) (connection : Connection κ κ') :
    Prop where
  decoder : connection.decoder.limits = limits
  limits : connection.transforms.frameLimits = limits
  threshold : connection.transforms.compressionThreshold = threshold

variable (crates) in
/-- What the frame decoder holds and what it is still to be given. -/
def toCome (connection : Connection κ κ') (reads : List Bytes) : Bytes :=
  connection.decoder.pending ++ opened crates connection.transforms reads.flatten

/-- A read has no room beside the longest part of a frame. -/
def Refused (limits : FrameLimits) (reads : List Bytes) (e : ConnectionError ε) : Prop :=
  (∃ buffered, e = .framing (.frameBufferTooLong buffered limits.maxBufferedBytes)) ∧
    ∃ bytes ∈ reads, min limits.maxBufferedBytes usizeMax <
      limits.maxFrameSize + (maxFrameLengthPrefixBytes - 1) + bytes.length

theorem Refused.mono {reads reads' : List Bytes} {e : ConnectionError ε} (hsubset : reads' ⊆ reads)
    (h : Refused limits reads' e) : Refused limits reads e := by
  obtain ⟨herror, bytes, hmem, hlarge⟩ := h
  exact ⟨herror, bytes, hsubset hmem, hlarge⟩

variable {threshold : Option Nat} {connection : Connection κ κ'} {phase : String}
  {inner frame rest : Bytes} {reads : List Bytes}

variable (phase reads) in
/-- The frame is there. -/
theorem readNextFrame_whole {after : Bytes} (hconnection : Mirrors limits threshold connection)
    (hframe : encodeFrame inner limits.maxFrameSize = .ok frame)
    (hdecode : connection.transforms.decodeFrameBody crates inner = .ok body)
    (hpending : connection.decoder.pending = frame ++ after) :
    ∃ decoder, Connection.readNextFrame crates phase reads connection =
        .ok (body, reads) ⟨decoder, connection.transforms⟩ ∧
      decoder.pending = after ∧ decoder.limits = limits := by
  have hnext := connection.decoder.nextFrame_spec
  rw [hconnection.decoder, hpending, frameStep_encoded hframe after] at hnext
  obtain ⟨decoder, hnext, hafter, hlimits⟩ := hnext
  rw [List.drop_left] at hafter
  refine ⟨decoder, ?_, hafter, hlimits⟩
  have hfirst : Connection.nextFrame (ε := ε) connection =
      .ok (some inner) ⟨decoder, connection.transforms⟩ := by
    unfold Connection.nextFrame
    rw [Mut.get_bind, hnext]
    rfl
  have hdecoded : Connection.decodedFrame crates connection =
      .ok (some body) ⟨decoder, connection.transforms⟩ := by
    unfold Connection.decodedFrame
    rw [Mut.bind_of_ok hfirst]
    dsimp only
    rw [Mut.get_bind, hdecode]
    rfl
  cases reads with
  | nil =>
    unfold Connection.readNextFrame
    rw [Mut.bind_of_ok hdecoded]
    rfl
  | cons bytes reads =>
    unfold Connection.readNextFrame
    rw [Mut.bind_of_ok hdecoded]
    rfl

/-- A part of the frame is there, and the next read is taken. -/
theorem readNextFrame_part {more bytes : Bytes} (hconnection : Mirrors limits threshold connection)
    (hframe : encodeFrame inner limits.maxFrameSize = .ok (connection.decoder.pending ++ more))
    (hmore : more ≠ []) (hbytes : bytes ≠ []) :
    Connection.readNextFrame (ε := ε) crates phase (bytes :: reads) connection =
      (Connection.pushRead crates bytes >>= fun _ =>
        Connection.readNextFrame crates phase reads) connection := by
  have hnext := connection.decoder.nextFrame_spec
  rw [hconnection.decoder, frameStep_part hframe hmore] at hnext
  have hfirst : Connection.nextFrame (ε := ε) connection = .ok none connection := by
    unfold Connection.nextFrame
    rw [Mut.get_bind, hnext]
    rfl
  have hdecoded : Connection.decodedFrame crates connection = .ok none connection := by
    unfold Connection.decodedFrame
    rw [Mut.bind_of_ok hfirst]
    rfl
  conv_lhs => unfold Connection.readNextFrame
  rw [Mut.bind_of_ok hdecoded]
  dsimp only
  rw [if_neg hbytes]

/-- A read is taken, or is too large. -/
theorem wp_pushRead (bytes : Bytes) (reads : List Bytes)
    (hconnection : Mirrors limits threshold connection)
    (hroom : connection.decoder.pending.length ≤
      limits.maxFrameSize + (maxFrameLengthPrefixBytes - 1)) :
    Mut.wp (Connection.pushRead (ε := ε) crates bytes)
      ⟨fun _ connection' => Mirrors limits threshold connection' ∧
          toCome crates connection' reads = toCome crates connection (bytes :: reads),
        fun e _ => Refused limits (bytes :: reads) e, False⟩ connection := by
  have hlength : (connection.transforms.decryptInPlace crates bytes).1.length = bytes.length :=
    length_opened crates connection.transforms bytes
  obtain ⟨hthreshold, hlimits⟩ := decryptInPlace_keeps crates connection.transforms bytes
  cases hpush : connection.decoder.push (connection.transforms.decryptInPlace crates bytes).1 with
  | mk result decoder =>
    cases result with
    | error e =>
      obtain ⟨⟨buffered, herror⟩, hlarge⟩ := push_eq_error hpush
      rw [hconnection.decoder] at herror hlarge
      rw [hlength] at hlarge
      have hpushed : Connection.pushRead (ε := ε) crates bytes connection = .err (.framing e)
          ⟨decoder, (connection.transforms.decryptInPlace crates bytes).2⟩ := by
        unfold Connection.pushRead
        rw [Mut.get_bind, hpush]
        rfl
      unfold Mut.wp
      rw [hpushed]
      refine ⟨⟨buffered, congrArg ConnectionError.framing herror⟩, bytes, List.mem_cons_self, ?_⟩
      omega
    | ok _ =>
      obtain ⟨hpending, hdecoder⟩ := FrameDecoder.push_ok hpush
      have hpushed : Connection.pushRead (ε := ε) crates bytes connection = .ok ()
          ⟨decoder, (connection.transforms.decryptInPlace crates bytes).2⟩ := by
        unfold Connection.pushRead
        rw [Mut.get_bind, hpush]
        rfl
      unfold Mut.wp
      rw [hpushed]
      refine ⟨⟨hdecoder.trans hconnection.decoder, hlimits.trans hconnection.limits,
        hthreshold.trans hconnection.threshold⟩, ?_⟩
      unfold toCome
      dsimp only
      rw [hpending, List.flatten_cons, opened_append, List.append_assoc]
      rfl

/-- The reads up to the end of a frame are taken, and its body is delivered. -/
theorem readNextFrame_sent (later : List Bytes)
    (hframe : encodeFrame inner limits.maxFrameSize = .ok frame)
    (hdecode : ∀ receiver : WireTransforms κ κ', receiver.compressionThreshold = threshold →
      receiver.frameLimits = limits → receiver.decodeFrameBody crates inner = .ok body)
    (hreads : ∀ bytes ∈ reads, bytes ≠ []) (hconnection : Mirrors limits threshold connection)
    (hcome : toCome crates connection reads = frame ++ rest) :
    Mut.wp (Connection.readNextFrame crates phase (reads ++ later))
      ⟨fun next connection' => next.1 = body ∧ ∃ left, next.2 = left ++ later ∧ left ⊆ reads ∧
          Mirrors limits threshold connection' ∧ toCome crates connection' left = rest,
        fun e _ => Refused limits reads e, False⟩ connection := by
  induction reads generalizing connection with
  | nil =>
    have hpending : connection.decoder.pending = frame ++ rest := by
      rw [← hcome, toCome, List.flatten_nil, opened_nil, List.append_nil]
    obtain ⟨decoder, hread, hafter, hlimits⟩ := readNextFrame_whole phase
      ([] ++ later) hconnection hframe (hdecode _ hconnection.threshold hconnection.limits) hpending
    unfold Mut.wp
    rw [hread]
    refine ⟨rfl, [], rfl, List.Subset.refl _,
      ⟨hlimits, hconnection.limits, hconnection.threshold⟩, ?_⟩
    rw [toCome, List.flatten_nil, opened_nil, List.append_nil]
    exact hafter
  | cons bytes reads ih =>
    obtain ⟨hbytes, hreads⟩ := List.forall_mem_cons.mp hreads
    by_cases hwhole : frame <+: connection.decoder.pending
    · obtain ⟨after, hpending⟩ := hwhole
      obtain ⟨decoder, hread, hafter, hlimits⟩ := readNextFrame_whole phase
        (bytes :: reads ++ later) hconnection hframe (hdecode _ hconnection.threshold hconnection.limits) hpending.symm
      unfold Mut.wp
      rw [hread]
      refine ⟨rfl, bytes :: reads, rfl, List.Subset.refl _,
        ⟨hlimits, hconnection.limits, hconnection.threshold⟩, ?_⟩
      rw [toCome, ← hpending, List.append_assoc] at hcome
      rw [toCome, hafter]
      exact List.append_cancel_left hcome
    · -- the frame goes on in the reads
      rcases List.append_eq_append_iff.mp hcome with ⟨more, hmore, -⟩ | ⟨after, hafter, -⟩
      · have hne : more ≠ [] := by
          rintro rfl
          apply hwhole
          exact ⟨[], by rw [hmore, List.append_nil, List.append_nil]⟩
        have hlength := encoded_length_le hframe
        have hpos := List.length_pos_of_ne_nil hne
        rw [hmore] at hframe
        rw [hmore, List.length_append] at hlength
        have hroom : connection.decoder.pending.length ≤
            limits.maxFrameSize + (maxFrameLengthPrefixBytes - 1) := by
          unfold maxFrameLengthPrefixBytes at hlength ⊢
          omega
        rw [Mut.wp, List.cons_append, readNextFrame_part hconnection hframe hne hbytes]
        refine (Mut.wp_bind _ _).mpr ?_
        apply Mut.wp_mono (wp_pushRead bytes reads hconnection hroom)
        · intro _ connection' ⟨hconnection', hcome'⟩
          apply Mut.wp_mono (ih hreads hconnection' (hcome'.trans hcome))
          · intro next connection'' ⟨hbody, left, hleft, hsubset, hlater⟩
            exact ⟨hbody, left, hleft, List.subset_cons_of_subset _ hsubset, hlater⟩
          · exact fun e _ hrefused => hrefused.mono (List.subset_cons_self _ _)
          · exact id
        · exact fun e _ hrefused => hrefused
        · exact id
      · exact absurd ⟨after, hafter.symm⟩ hwhole

/-! ### Steps on both sides -/

/-- An empty body is never compressed. -/
def EmptyStored : Option Nat → List PipelineStep → Prop
  | _, [] => True
  | threshold, .packet body :: steps =>
    (body = [] → threshold ≠ some 0) ∧ EmptyStored threshold steps
  | _, .compression threshold :: steps => EmptyStored (some threshold.toInt.toNat) steps
  | threshold, .encryption _ :: steps => EmptyStored threshold steps

/-- The reads on either side of each switch of the cipher. -/
abbrev Fragments (groups : List (List Bytes)) (stretches : List Bytes) : Prop :=
  List.Forall₂ (fun reads stretch => reads.flatten = stretch) groups stretches

/-- The bodies arrive and nothing is left, unless a read is refused. -/
def delivery (limits : FrameLimits) (steps : List PipelineStep) (reads : List Bytes) :
    Post (ConnectionError ε) (Connection κ κ') (List Bytes × List Bytes) where
  ok got connection := got = (steps.filterMap packetBody, []) ∧ connection.decoder.pending = []
  err e _ := Refused limits reads e
  panic := False

variable (crates limits phase) in
/-- However they are cut, these bytes up to the next switch and those after it are received. -/
def Arrives (threshold : Option Nat) (steps : List PipelineStep) (plain : Bytes)
    (later : List Bytes) : Prop :=
  ∀ (connection : Connection κ κ') (reads : List Bytes) (groups : List (List Bytes)),
    Mirrors limits threshold connection → toCome crates connection reads = plain →
    Fragments groups later → (∀ bytes ∈ reads ++ groups.flatten, bytes ≠ []) →
    Mut.wp (receiveSteps crates phase steps (reads ++ groups.flatten))
      (delivery limits steps (reads ++ groups.flatten)) connection

variable {steps : List PipelineStep} {plain : Bytes} {later : List Bytes}

theorem toCome_eq_nil (hreads : ∀ bytes ∈ reads, bytes ≠ [])
    (h : toCome crates connection reads = []) : connection.decoder.pending = [] ∧ reads = [] := by
  obtain ⟨hpending, hopened⟩ := List.append_eq_nil_iff.mp h
  refine ⟨hpending, ?_⟩
  have hflatten : reads.flatten = [] := by
    apply List.length_eq_zero_iff.mp
    rw [← length_opened crates connection.transforms, hopened]
    rfl
  cases reads with
  | nil => rfl
  | cons bytes reads =>
    have hbytes := hreads bytes List.mem_cons_self
    exact absurd (List.append_eq_nil_iff.mp hflatten).1 hbytes

theorem arrives_nil : Arrives crates limits phase threshold [] [] [] := by
  intro connection reads groups hconnection hcome hgroups hreads
  cases hgroups
  rw [List.flatten_nil, List.append_nil] at hreads ⊢
  obtain ⟨hpending, rfl⟩ := toCome_eq_nil hreads hcome
  exact ⟨rfl, hpending⟩

theorem arrives_packet (hframe : encodeFrame inner limits.maxFrameSize = .ok frame)
    (hdecode : ∀ receiver : WireTransforms κ κ', receiver.compressionThreshold = threshold →
      receiver.frameLimits = limits → receiver.decodeFrameBody crates inner = .ok body)
    (h : Arrives crates limits phase threshold steps plain later) :
    Arrives crates limits phase threshold (.packet body :: steps) (frame ++ plain) later := by
  intro connection reads groups hconnection hcome hgroups hreads
  obtain ⟨hhead, hlater⟩ := List.forall_mem_append.mp hreads
  refine (Mut.wp_bind _ _).mpr ?_
  apply Mut.wp_mono (readNextFrame_sent groups.flatten hframe hdecode hhead hconnection hcome)
  · intro next connection' ⟨hbody, left, hleft, hsubset, hconnection', hcome'⟩
    have hmem : left ++ groups.flatten ⊆ reads ++ groups.flatten :=
      List.append_subset.mpr ⟨List.subset_append_of_subset_left _ hsubset,
        List.subset_append_right _ _⟩
    have hrest := h connection' left groups hconnection' hcome' hgroups
      fun bytes hbytes => hreads bytes (hmem hbytes)
    refine (Mut.wp_bind _ _).mpr ?_
    rw [hleft]
    apply Mut.wp_mono hrest
    · intro got connection'' ⟨hgot, hpending⟩
      refine ⟨?_, hpending⟩
      rw [hbody, hgot]
      rfl
    · exact fun e _ hrefused => hrefused.mono hmem
    · exact id
  · exact fun e _ hrefused => hrefused.mono (List.subset_append_left _ _)
  · exact id

theorem arrives_compression {declared : Int32} (hdeclared : 0 ≤ declared.toInt)
    (h : Arrives crates limits phase (some declared.toInt.toNat) steps plain later) :
    Arrives crates limits phase threshold (.compression declared :: steps) plain later := by
  intro connection reads groups hconnection hcome hgroups hreads
  let enabled : Connection κ κ' :=
    { connection with transforms :=
      { connection.transforms with compressionThreshold := some declared.toInt.toNat } }
  have henabled : Connection.enableCompression (ε := ε) declared connection = .ok () enabled := by
    unfold Connection.enableCompression WireTransforms.enableCompression
    rw [Mut.get_bind, if_neg (not_lt.mpr hdeclared)]
    rfl
  have hdecryptor : enabled.transforms.decryptor = connection.transforms.decryptor := rfl
  have hsame : toCome crates enabled reads = plain := by
    rw [← hcome]
    exact congrArg (connection.decoder.pending ++ ·) (opened_congr hdecryptor reads.flatten)
  have hrest := h enabled reads groups ⟨hconnection.decoder, hconnection.limits, rfl⟩ hsame hgroups
    hreads
  unfold Mut.wp receiveSteps
  rw [Mut.bind_of_ok henabled]
  exact hrest

/-- After a switch of the cipher both ends start from the same secret. -/
theorem arrives_encryption (secret : Secret) (hcrates : crates.Lossless)
    (h : Arrives crates limits phase threshold steps plain later) :
    Arrives crates limits phase threshold (.encryption secret :: steps) []
      ((crates.encryptor.run (crates.newEncryptor secret) plain).1 :: later) := by
  intro connection reads groups hconnection hcome hgroups hreads
  obtain ⟨hhead, hlater⟩ := List.forall_mem_append.mp hreads
  obtain ⟨hpending, rfl⟩ := toCome_eq_nil hhead hcome
  rw [List.nil_append] at hreads ⊢
  cases hgroups with
  | cons hgroup hgroups =>
    rename_i group groups
    have hopened : toCome crates
        { connection with transforms := connection.transforms.enableEncryption crates secret }
        group = plain := by
      unfold toCome
      dsimp only
      rw [hpending, hgroup, List.nil_append]
      exact hcrates.cipher secret plain
    exact h _ group groups ⟨hconnection.decoder, hconnection.limits, hconnection.threshold⟩ hopened
      hgroups hreads

/-- A packet is framed, compressed and encrypted. -/
theorem sendSteps_packet {stretches : List Bytes} {transforms' : WireTransforms κ κ'}
    (h : sendSteps crates (.packet body :: steps) transforms = .ok stretches transforms') :
    ∃ framed out rest, encodeFrame body transforms.frameLimits.maxFrameSize = .ok framed ∧
      transforms.compressOutbound crates framed = .ok out ∧
      sendSteps crates steps (transforms.encryptInPlace crates out).2 = .ok rest transforms' ∧
      stretches = prependBytes (transforms.encryptInPlace crates out).1 rest := by
  unfold sendSteps at h
  rw [Mut.get_bind] at h
  obtain ⟨framed, s, hframed, hwritten⟩ := Mut.bind_eq_ok.mp h
  obtain ⟨hframed, rfl⟩ := Mut.ofExcept_eq_ok.mp hframed
  obtain ⟨bytes, s', hbytes, hlater⟩ := Mut.bind_eq_ok.mp hwritten
  unfold WireTransforms.encodeOutbound at hbytes
  rw [Mut.get_bind] at hbytes
  obtain ⟨out, s'', hout, hset⟩ := Mut.bind_eq_ok.mp hbytes
  obtain ⟨hout, rfl⟩ := Mut.ofExcept_eq_ok.mp hout
  cases hset
  obtain ⟨rest, s', hrest, hstretches⟩ := Mut.bind_eq_ok.mp hlater
  cases hstretches
  exact ⟨framed, out, rest, Mut.mapError_eq_ok.mp hframed, hout, hrest, rfl⟩

theorem sendSteps_compression {declared : Int32} {stretches : List Bytes}
    {transforms' : WireTransforms κ κ'}
    (h : sendSteps crates (.compression declared :: steps) transforms = .ok stretches transforms') :
    0 ≤ declared.toInt ∧ sendSteps crates steps
      { transforms with compressionThreshold := some declared.toInt.toNat } =
        .ok stretches transforms' := by
  unfold sendSteps at h
  rw [Mut.get_bind] at h
  obtain ⟨enabled, s, henabled, hrest⟩ := Mut.bind_eq_ok.mp h
  obtain ⟨henabled, rfl⟩ := Mut.ofExcept_eq_ok.mp henabled
  unfold WireTransforms.enableCompression at henabled
  split at henabled
  · cases henabled
  · rename_i hdeclared
    cases henabled
    exact ⟨not_lt.mp hdeclared, hrest⟩

/-- What was sent arrives. -/
theorem sendSteps_arrives (hcrates : crates.Lossless) (phase : String) {stretches : List Bytes}
    {transforms' : WireTransforms κ κ'}
    (hsend : sendSteps crates steps transforms = .ok stretches transforms')
    (hempty : EmptyStored transforms.compressionThreshold steps) :
    ∃ plain later, stretches = (transforms.encryptInPlace crates plain).1 :: later ∧
      Arrives crates transforms.frameLimits phase transforms.compressionThreshold steps plain
        later := by
  induction steps generalizing transforms stretches with
  | nil =>
    cases hsend
    exact ⟨[], [], congrArg (· :: []) encryptInPlace_nil.symm, arrives_nil⟩
  | cons step steps ih =>
    cases step with
    | packet body =>
      obtain ⟨hbody, hempty⟩ := hempty
      obtain ⟨framed, out, rest, hframed, hout, hrest, rfl⟩ := sendSteps_packet hsend
      obtain ⟨inner, hinner, hdecode⟩ := compressOutbound_decodes hcrates hbody hframed hout
      obtain ⟨hthreshold, hlimits⟩ := encryptInPlace_keeps crates transforms out
      rw [← hthreshold] at hempty
      obtain ⟨plain, later, rfl, harrives⟩ := ih hrest hempty
      rw [hthreshold, hlimits] at harrives
      refine ⟨out ++ plain, later, ?_, arrives_packet hinner hdecode harrives⟩
      rw [encryptInPlace_append]
      rfl
    | compression declared =>
      obtain ⟨hdeclared, hrest⟩ := sendSteps_compression hsend
      obtain ⟨plain, later, rfl, harrives⟩ := ih hrest hempty
      refine ⟨plain, later, ?_, arrives_compression hdeclared harrives⟩
      apply congrArg (· :: later)
      apply encryptInPlace_congr
      rfl
    | encryption secret =>
      unfold sendSteps at hsend
      rw [Mut.modify_bind] at hsend
      obtain ⟨rest, s, hrest, hstretches⟩ := Mut.bind_eq_ok.mp hsend
      cases hstretches
      obtain ⟨plain, later, rfl, harrives⟩ := ih hrest hempty
      exact ⟨[], _, congrArg (· :: _) encryptInPlace_nil.symm,
        arrives_encryption secret hcrates harrives⟩

/-- However the bytes between two switches of the cipher are cut, all bodies arrive. -/
theorem pipeline_round_trip (hcrates : crates.Lossless) (limits : FrameLimits) (phase : String)
    (steps : List PipelineStep) (stretches : List Bytes) (transforms : WireTransforms κ κ')
    (groups : List (List Bytes))
    (hsend : sendSteps crates steps (.new limits) = .ok stretches transforms)
    (hempty : EmptyStored none steps) (hgroups : Fragments groups stretches)
    (hreads : ∀ bytes ∈ groups.flatten, bytes ≠ []) :
    Mut.wp (receiveSteps crates phase steps groups.flatten)
      (delivery limits steps groups.flatten) (.new limits) := by
  obtain ⟨plain, later, rfl, harrives⟩ := sendSteps_arrives hcrates phase hsend hempty
  cases hgroups with
  | cons hgroup hgroups =>
    rename_i reads groups
    exact harrives (.new limits) reads groups ⟨rfl, rfl, rfl⟩ hgroup hgroups hreads

end

/-! ### A run with a key of zeros -/

def xorPerm (mask : UInt8) : Equiv.Perm UInt8 where
  toFun byte := byte ^^^ mask
  invFun byte := byte ^^^ mask
  left_inv byte := by
    change byte ^^^ mask ^^^ mask = byte
    rw [UInt8.xor_assoc, UInt8.xor_self, UInt8.xor_zero]
  right_inv byte := by
    change byte ^^^ mask ^^^ mask = byte
    rw [UInt8.xor_assoc, UInt8.xor_self, UInt8.xor_zero]

/-- The first byte of the AES block of a register, for the registers of the runs below. -/
def zeroKeyMask (register : Bytes) : UInt8 :=
  if register = List.replicate 16 0 then 102
  else if register = List.replicate 15 0 ++ [100] then 40
  else if register = List.replicate 14 0 ++ [100, 40] then 30
  else if register = List.replicate 15 0 ++ [103] then 119
  else 0

def sevens : Bytes := List.replicate 8 7

def sampleDeflate (body : Bytes) : Bytes :=
  if body = [] then [120, 156, 3, 0, 0, 0, 0, 1]
  else if body = sevens then [120, 156, 99, 103, 135, 0, 0, 1, 4, 0, 57]
  else 0 :: body

def sampleInflate (compressed : Bytes) : Bytes :=
  if compressed = [120, 156, 3, 0, 0, 0, 0, 1] then []
  else if compressed = [120, 156, 99, 103, 135, 0, 0, 1, 4, 0, 57] then sevens
  else compressed.tail

def sampleCrates : TransportCrates Bytes Bytes Unit where
  newEncryptor secret := secret.toList
  encryptor := .feedbackEncryptor (fun register => xorPerm (zeroKeyMask register))
    (fun register byte => register.tail ++ [byte])
  newDecryptor secret := secret.toList
  decryptor := .feedbackDecryptor (fun register => xorPerm (zeroKeyMask register))
    (fun register byte => register.tail ++ [byte])
  deflate body := .ok (sampleDeflate body)
  inflate compressed limit := .ok ((sampleInflate compressed).take limit)

theorem sampleInflate_deflate (body : Bytes) : sampleInflate (sampleDeflate body) = body := by
  unfold sampleDeflate
  split
  · rename_i hbody
    rw [hbody]
    rfl
  · split
    · rename_i hbody
      rw [hbody]
      rfl
    · unfold sampleInflate
      rw [if_neg, if_neg]
      · rfl
      · intro h
        cases h
      · intro h
        cases h

theorem sampleCrates_lossless : sampleCrates.Lossless where
  cipher secret bytes := congrArg Prod.fst (Transducer.feedbackDecryptor_run _ _ bytes secret.toList)
  zlib body compressed limit h := by
    cases h
    exact congrArg (fun out => Except.ok (out.take limit)) (sampleInflate_deflate body)

def sampleLimits : FrameLimits := ⟨16, 19, by decide, by decide⟩

/-- What is sent and what is received at last. -/
def sampleRun (steps : List PipelineStep) (reads : List Bytes) :
    Option (List Bytes) × Option (Except (ConnectionError Unit) (List Bytes × List Bytes)) :=
  ((sendSteps sampleCrates steps (.new sampleLimits)).value?,
    (receiveSteps sampleCrates "play" steps reads (.new sampleLimits)).result?)

def sampleSteps : List PipelineStep :=
  [.packet [], .compression 8, .packet sevens, .encryption (.replicate 16 0), .packet [5]]

def sampleGroups : List (List Bytes) :=
  [[[0, 12, 8], [120, 156, 99, 103, 135, 0, 0, 1, 4, 0, 57]], [[100, 40], [27]]]

theorem pipeline_round_trip_cut : ∃ connection,
    receiveSteps sampleCrates "play" sampleSteps sampleGroups.flatten (.new sampleLimits) =
        .ok ([[], sevens, [5]], []) connection ∧
      connection.decoder.pending = [] := by
  have hsent : (sendSteps sampleCrates sampleSteps (.new sampleLimits)).value? =
      some [[0, 12, 8, 120, 156, 99, 103, 135, 0, 0, 1, 4, 0, 57], [100, 40, 27]] := by
    decide +kernel
  have hreceived : (receiveSteps sampleCrates "play" sampleSteps sampleGroups.flatten
      (.new sampleLimits)).value?.isSome := by
    decide +kernel
  obtain ⟨stretches, transforms, hsend⟩ := Outcome.exists_of_value? (Option.isSome_of_eq_some hsent)
  rw [hsend] at hsent
  cases hsent
  obtain ⟨got, connection, hreceive⟩ := Outcome.exists_of_value? hreceived
  have hempty : EmptyStored none sampleSteps := by
    refine ⟨fun _ => nofun, ?_⟩
    exact ⟨nofun, nofun, trivial⟩
  have htrip := pipeline_round_trip sampleCrates_lossless sampleLimits "play" sampleSteps _ transforms
    sampleGroups hsend hempty (.cons rfl (.cons rfl .nil)) (by decide)
  rw [Mut.wp_of_ok hreceive] at htrip
  obtain ⟨rfl, hpending⟩ := htrip
  exact ⟨connection, hreceive, hpending⟩

/-- A read that goes on into encrypted bytes, a read that is larger than the buffer, and an empty
body that is compressed. -/
theorem pipeline_loses_bodies : sampleCrates.Lossless ∧
    sampleRun [.packet [1], .encryption (.replicate 16 0), .packet [2]] [[1, 1, 103, 117]] =
      (some [[1, 1], [103, 117]], some (.error (.framing (.frameTooLong 103 16)))) ∧
    sampleRun [.packet (List.replicate 9 1), .packet (List.replicate 9 2)]
        [9 :: List.replicate 9 1 ++ 9 :: List.replicate 9 2] =
      (some [9 :: List.replicate 9 1 ++ 9 :: List.replicate 9 2],
        some (.error (.framing (.frameBufferTooLong 20 19)))) ∧
    sampleRun [.compression 0, .packet []] [[9, 0, 120, 156, 3, 0, 0, 0, 0, 1]] =
      (some [[9, 0, 120, 156, 3, 0, 0, 0, 0, 1]],
        some (.error (.transform (.decompressedLengthMismatch 0 8)))) := by
  refine ⟨sampleCrates_lossless, ?_, ?_, ?_⟩
  · decide +kernel
  · decide +kernel
  · decide +kernel

end Cubic.Network
