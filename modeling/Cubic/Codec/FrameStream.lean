import Cubic.Codec.Frame

/-!
# The frame decoder refines a parser of the pending bytes

The read offset, the compactions and the order of the pushes do not show: draining is
`parse` of the pending bytes and feeding fragments is `feed`.
-/

namespace Cubic

set_option autoImplicit false

open VarLength Incremental

/-- `next_frame` in terms of the pending bytes. -/
def frameStep (limits : FrameLimits) (pending : Bytes) : Step Bytes CodecError :=
  match decodePartialVarInt pending with
  | .needMore => .need
  | .malformed => .error (.malformedLengthPrefix .frame)
  | .complete value prefixBytes =>
    if value.toInt < 0 then .error (.negativeLength .frame (.ofBitVec value))
    else if prefixBytes > maxFrameLengthPrefixBytes then
      .error (.malformedLengthPrefix .frame)
    else if value.toInt.toNat > limits.maxFrameSize then
      .error (.frameTooLong value.toInt.toNat limits.maxFrameSize)
    else if pending.length < prefixBytes + value.toInt.toNat then .need
    else .item ((pending.take (prefixBytes + value.toInt.toNat)).drop prefixBytes)
      (prefixBytes + value.toInt.toNat)

/-- The conditions under which a frame is cut off. -/
theorem frameStep_eq_item {limits : FrameLimits} {pending body : Bytes} {used : Nat} :
    frameStep limits pending = .item body used ↔
      ∃ value prefixBytes, decodePartialVarInt pending = .complete value prefixBytes ∧
        0 ≤ value.toInt ∧ prefixBytes ≤ maxFrameLengthPrefixBytes ∧
        value.toInt.toNat ≤ limits.maxFrameSize ∧
        prefixBytes + value.toInt.toNat ≤ pending.length ∧
        body = (pending.take (prefixBytes + value.toInt.toNat)).drop prefixBytes ∧
        used = prefixBytes + value.toInt.toNat := by
  unfold frameStep
  cases hscan : decodePartialVarInt pending with
  | needMore => simp
  | malformed => simp
  | complete value prefixBytes =>
    simp only [Scan.complete.injEq]
    constructor
    · intro h
      split at h
      · cases h
      split at h
      · cases h
      split at h
      · cases h
      split at h
      · cases h
      cases h
      exact ⟨value, prefixBytes, ⟨rfl, rfl⟩, by omega, by omega, by omega, by omega, rfl, rfl⟩
    · intro h
      obtain ⟨v, k, ⟨rfl, rfl⟩, hneg, hheader, hframe, hlen, rfl, rfl⟩ := h
      rw [if_neg (by omega), if_neg (by omega), if_neg (by omega), if_neg (by omega)]

theorem frameStep_stable (limits : FrameLimits) : Stable (frameStep limits) where
  item_used := by
    intro xs f k h
    obtain ⟨value, prefixBytes, hscan, _, _, _, hlen, _, rfl⟩ := frameStep_eq_item.mp h
    have hbytes := scan_bytes hscan
    omega
  item_append := by
    intro xs f k ys h
    obtain ⟨value, prefixBytes, hscan, hneg, hheader, hframe, hlen, rfl, rfl⟩ :=
      frameStep_eq_item.mp h
    refine frameStep_eq_item.mpr ⟨value, prefixBytes, scan_append_complete ys hscan, hneg, hheader,
      hframe, ?_, ?_, rfl⟩
    · rw [List.length_append]
      omega
    · rw [List.take_append_of_le_length hlen]
  error_append := by
    intro xs e ys h
    unfold frameStep at h ⊢
    cases hscan : decodePartialVarInt xs with
    | needMore =>
      rw [hscan] at h
      cases h
    | malformed =>
      rw [hscan] at h
      have happ : decodePartialVarInt (xs ++ ys) = .malformed := scan_append_malformed ys hscan
      rw [happ]
      exact h
    | complete value prefixBytes =>
      rw [hscan] at h
      have happ : decodePartialVarInt (xs ++ ys) = .complete value prefixBytes :=
        scan_append_complete ys hscan
      rw [happ]
      -- every check that can reject looks at the length prefix alone
      simp only at h ⊢
      split at h
      · rename_i hneg
        rw [if_pos hneg]
        exact h
      rename_i hneg
      split at h
      · rename_i hheader
        rw [if_neg hneg, if_pos hheader]
        exact h
      rename_i hheader
      split at h
      · rename_i hframe
        rw [if_neg hneg, if_neg hheader, if_pos hframe]
        exact h
      split at h
      · cases h
      · cases h

namespace FrameDecoder

/-! ### One call of each operation -/

theorem pending_new (limits : FrameLimits) : (new limits).pending = [] := rfl

theorem take_copyWithin (d : FrameDecoder) :
    (copyWithin d.buffer d.readOffset).take d.pendingLen = d.pending := by
  have hlen := length_pending d
  change (d.pending ++ _).take d.pendingLen = d.pending
  rw [← hlen]
  exact List.take_left

theorem pending_compact (d : FrameDecoder) : d.compactIfUseful.pending = d.pending := by
  unfold compactIfUseful
  split
  · rfl
  split
  · exact take_copyWithin d
  · rfl

theorem limits_compact (d : FrameDecoder) : d.compactIfUseful.limits = d.limits := by
  unfold compactIfUseful
  split
  · rfl
  split
  · rfl
  · rfl

theorem push_ok {d d' : FrameDecoder} {bytes : Bytes} (h : d.push bytes = (.ok (), d')) :
    d'.pending = d.pending ++ bytes ∧ d'.limits = d.limits := by
  simp only [push] at h
  split at h
  · cases h
  split at h
  · cases h
  · cases h
    constructor
    · rw [← pending_compact d]
      exact List.drop_append_of_le_length d.compactIfUseful.offset_le
    · exact limits_compact d

/-- A push that fails keeps the pending bytes. -/
theorem push_error {d d' : FrameDecoder} {bytes : Bytes} {e : CodecError}
    (h : d.push bytes = (.error e, d')) : d'.pending = d.pending ∧ d'.limits = d.limits := by
  simp only [push] at h
  split at h
  · cases h
    exact ⟨pending_compact d, limits_compact d⟩
  split at h
  · cases h
    exact ⟨pending_compact d, limits_compact d⟩
  · cases h

theorem pending_consume (d : FrameDecoder) (total : Nat) (h : total ≤ d.pending.length) :
    (d.consume total h).pending = d.pending.drop total ∧ (d.consume total h).limits = d.limits := by
  unfold consume
  split
  · rename_i hall
    refine ⟨?_, rfl⟩
    rw [pending, pending, List.drop_drop, hall, List.drop_length]
    rfl
  · refine ⟨?_, rfl⟩
    rw [pending, pending, List.drop_drop]

/-- The sum of the prefix and the frame length does not overflow. -/
theorem checkedAdd_frame {limits : FrameLimits} {prefixBytes length : Nat}
    (hheader : ¬ prefixBytes > maxFrameLengthPrefixBytes) (hlength : ¬ length > limits.maxFrameSize) :
    checkedAdd prefixBytes length = some (prefixBytes + length) := by
  have hmax := limits.frame_le
  refine checkedAdd_eq_some.mpr ⟨?_, rfl⟩
  unfold minecraftMaxFrameSize at hmax
  unfold maxFrameLengthPrefixBytes at hheader
  unfold usizeMax
  omega

theorem nextFrame_spec (d : FrameDecoder) :
    match frameStep d.limits d.pending with
    | .need => d.nextFrame = (.ok none, d)
    | .error e => d.nextFrame = (.error e, d)
    | .item body used => ∃ d', d.nextFrame = (.ok (some body), d') ∧
        d'.pending = d.pending.drop used ∧ d'.limits = d.limits := by
  unfold frameStep nextFrame
  cases decodePartialVarInt d.pending with
  | needMore => rfl
  | malformed => rfl
  | complete value prefixBytes =>
    simp only
    by_cases hneg : value.toInt < 0
    · simp only [if_pos hneg]
    by_cases hheader : prefixBytes > maxFrameLengthPrefixBytes
    · simp only [if_neg hneg, if_pos hheader]
    by_cases hframe : value.toInt.toNat > d.limits.maxFrameSize
    · simp only [if_neg hneg, if_neg hheader, if_pos hframe]
    simp only [if_neg hneg, if_neg hheader, if_neg hframe, checkedAdd_frame hheader hframe]
    by_cases hlen : d.pending.length < prefixBytes + value.toInt.toNat
    · simp only [if_pos hlen, dif_pos hlen]
    · simp only [if_neg hlen, dif_neg hlen]
      exact ⟨_, rfl, pending_consume d _ _⟩

end FrameDecoder

/-! ### Draining and feeding -/

def Fed.parsed (fed : Fed) : Parsed UInt8 Bytes CodecError :=
  ⟨fed.frames, fed.error, fed.decoder.pending⟩

theorem drainUpTo_parsed (fuel : Nat) : ∀ d : FrameDecoder,
    (drainUpTo fuel d).parsed = parseUpTo (frameStep d.limits) fuel d.pending ∧
      (drainUpTo fuel d).decoder.limits = d.limits := by
  induction fuel with
  | zero => exact fun _ => ⟨rfl, rfl⟩
  | succ fuel ih =>
    intro d
    have hnext := d.nextFrame_spec
    unfold drainUpTo parseUpTo
    cases hstep : frameStep d.limits d.pending with
    | need =>
      rw [hstep] at hnext
      rw [hnext]
      exact ⟨rfl, rfl⟩
    | error e =>
      rw [hstep] at hnext
      rw [hnext]
      exact ⟨rfl, rfl⟩
    | item body used =>
      rw [hstep] at hnext
      obtain ⟨d', heq, hpending, hlimits⟩ := hnext
      obtain ⟨hparsed, hlater⟩ := ih d'
      rw [hpending, hlimits] at hparsed
      rw [heq]
      refine ⟨?_, hlater.trans hlimits⟩
      simp only [← hparsed]
      rfl

theorem drain_parsed (d : FrameDecoder) :
    (drain d).parsed = parse (frameStep d.limits) d.pending ∧ (drain d).decoder.limits = d.limits := by
  rw [drain, parse, FrameDecoder.length_pending]
  exact drainUpTo_parsed _ d

theorem feedFragments_parsed (fragments : List Bytes) : ∀ {fed result : Fed},
    feedFragments fragments fed = some result →
    result.parsed = feed (frameStep fed.decoder.limits) fragments fed.parsed := by
  induction fragments with
  | nil =>
    intro fed result h
    cases h
    rfl
  | cons fragment fragments ih =>
    intro fed result h
    simp only [feedFragments] at h
    split at h
    · cases h
    · rename_i d hpush
      obtain ⟨hpending, hlimits⟩ := FrameDecoder.push_ok hpush
      obtain ⟨hparsed, hdrained⟩ := drain_parsed d
      have hresult := ih h
      rw [hpending, hlimits] at hparsed
      simp only [hdrained, hlimits] at hresult
      rw [hresult, feed]
      have hnext : ({ drain d with frames := fed.frames ++ (drain d).frames } : Fed).parsed =
          (drain d).parsed.after fed.frames := rfl
      rw [hnext, hparsed]
      rfl

/-- What a fed decoder holds is what one parse of the whole stream finds. -/
theorem decodeFragments_parsed {limits : FrameLimits} {fragments : List Bytes} {fed : Fed}
    (h : decodeFragments limits fragments = some fed) :
    fed.parsed = parse (frameStep limits) fragments.flatten := by
  have hfeed := feedFragments_parsed fragments h
  have hwhole := feed_eq (frameStep_stable limits) fragments [] []
  rw [List.nil_append, parse_need (show frameStep limits [] = .need from rfl)] at hwhole
  exact hfeed.trans hwhole

/-! ### Encoded frames -/

theorem frameStep_encoded {limits : FrameLimits} {body bytes : Bytes}
    (h : encodeFrame body limits.maxFrameSize = .ok bytes) (rest : Bytes) :
    frameStep limits (bytes ++ rest) = .item body bytes.length := by
  have hmax := limits.frame_le
  simp only [encodeFrame, Nat.min_eq_left hmax] at h
  split at h
  · cases h
  rename_i hbody
  have hsmall : body.length < 2 ^ (7 * (2 + 1)) := by
    unfold minecraftMaxFrameSize at hmax
    omega
  have hle : body.length ≤ i32Max := by
    unfold i32Max
    omega
  rw [writeLength, if_pos hle] at h
  cases h
  have hint := toInt_ofNat_i32 hle
  have hvalue : (Int32.ofNat body.length).toBitVec.toInt = body.length := hint
  have hnat : (Int32.ofNat body.length).toBitVec.toNat = body.length := by
    change body.length % 2 ^ 32 = _
    omega
  have hheader : (writeVarInt (.ofNat body.length)).length ≤ maxFrameLengthPrefixBytes :=
    length_encode_le (by rw [hnat]; exact hsmall)
  refine frameStep_eq_item.mpr ⟨(Int32.ofNat body.length).toBitVec, _, ?_, ?_, hheader, ?_, ?_, ?_, ?_⟩
  · rw [List.append_assoc]
    exact decodePartialVarInt_write _ _
  · rw [hvalue]
    omega
  · rw [hvalue]
    omega
  · rw [hvalue, Int.toNat_natCast, List.length_append, List.length_append]
    omega
  · rw [hvalue, Int.toNat_natCast, ← List.length_append, List.take_left, List.drop_left]
  · rw [hvalue, Int.toNat_natCast, List.length_append]

/-- How the stream is cut does not show in what is found. -/
theorem decodeFragments_flatten {limits : FrameLimits} {fragments fragments' : List Bytes}
    {fed fed' : Fed} (hflatten : fragments.flatten = fragments'.flatten)
    (h : decodeFragments limits fragments = some fed)
    (h' : decodeFragments limits fragments' = some fed') :
    fed.frames = fed'.frames ∧ fed.error = fed'.error ∧
      fed.decoder.pending = fed'.decoder.pending := by
  have heq : fed.parsed = fed'.parsed := by
    rw [decodeFragments_parsed h, decodeFragments_parsed h', hflatten]
  exact ⟨congrArg Parsed.items heq, congrArg Parsed.error heq, congrArg Parsed.rest heq⟩

theorem decodeFragments_encoded {limits : FrameLimits} {bodies encodings fragments : List Bytes}
    {fed : Fed}
    (hencode : List.Forall₂ (fun body bytes => encodeFrame body limits.maxFrameSize = .ok bytes)
      bodies encodings)
    (hflatten : fragments.flatten = encodings.flatten)
    (h : decodeFragments limits fragments = some fed) :
    fed.frames = bodies ∧ fed.error = none ∧ fed.decoder.pending = [] := by
  have hitems := parse_items (frameStep_stable limits)
    (hencode.imp fun _ _ hbody => frameStep_encoded hbody) rfl
  have heq := decodeFragments_parsed h
  rw [hflatten, hitems] at heq
  exact ⟨congrArg Parsed.items heq, congrArg Parsed.error heq, congrArg Parsed.rest heq⟩

/-- Frame decoding does not depend on fragmentation. -/
theorem frame_decoding_fragmentation (limits : FrameLimits) :
    (∀ (fragments fragments' : List Bytes) (fed fed' : Fed),
      fragments.flatten = fragments'.flatten → decodeFragments limits fragments = some fed →
      decodeFragments limits fragments' = some fed' →
      fed.frames = fed'.frames ∧ fed.error = fed'.error ∧
        fed.decoder.pending = fed'.decoder.pending) ∧
    (∀ (bodies encodings fragments : List Bytes) (fed : Fed),
      List.Forall₂ (fun body bytes => encodeFrame body limits.maxFrameSize = .ok bytes)
        bodies encodings →
      fragments.flatten = encodings.flatten → decodeFragments limits fragments = some fed →
      fed.frames = bodies ∧ fed.error = none ∧ fed.decoder.pending = []) := by
  constructor
  · intro fragments fragments' fed fed' hflatten h h'
    exact decodeFragments_flatten hflatten h h'
  · intro bodies encodings fragments fed hencode hflatten h
    exact decodeFragments_encoded hencode hflatten h

/-- Two bodies cut in three pieces or not at all, and a malformed prefix cut in the middle. -/
theorem frame_decoding_fragmentation_two :
    let limits : FrameLimits := ⟨20, 30, by decide, by decide⟩
    (∃ fed fed', decodeFragments limits [[2, 5], [6, 1], [7]] = some fed ∧
      decodeFragments limits [[2, 5, 6, 1, 7]] = some fed' ∧ fed.frames = fed'.frames ∧
      fed.frames = [[5, 6], [7]] ∧ fed.error = none ∧ fed.decoder.pending = []) ∧
    ∃ fed fed', decodeFragments limits [[1, 9, 128], [128, 128, 128, 128, 1], []] = some fed ∧
      decodeFragments limits [[1, 9, 128, 128, 128, 128], [128, 1]] = some fed' ∧
      fed.error = fed'.error ∧ fed.decoder.pending = [128, 128, 128, 128, 128, 1] := by
  intro limits
  have hcut : (decodeFragments limits [[2, 5], [6, 1], [7]]).isSome := by decide +kernel
  have hwhole : (decodeFragments limits [[2, 5, 6, 1, 7]]).isSome := by decide +kernel
  have hbad : (decodeFragments limits [[1, 9, 128], [128, 128, 128, 128, 1], []]).map
      (fun fed => fed.decoder.pending) = some [128, 128, 128, 128, 128, 1] := by decide +kernel
  have hbad' : (decodeFragments limits [[1, 9, 128, 128, 128, 128], [128, 1]]).isSome := by
    decide +kernel
  obtain ⟨cut, hcut⟩ := Option.isSome_iff_exists.mp hcut
  obtain ⟨whole, hwhole⟩ := Option.isSome_iff_exists.mp hwhole
  obtain ⟨bad, hbad, hpending⟩ := Option.map_eq_some_iff.mp hbad
  obtain ⟨bad', hbad'⟩ := Option.isSome_iff_exists.mp hbad'
  obtain ⟨hfragments, hencoded⟩ := frame_decoding_fragmentation limits
  have hsame := hfragments _ _ cut whole (by rfl) hcut hwhole
  have hbodies := hencoded [[5, 6], [7]] [[2, 5, 6], [1, 7]] _ cut
    (.cons (by decide +kernel) (.cons (by decide +kernel) .nil)) (by rfl) hcut
  have hmalformed := hfragments _ _ bad bad' (by rfl) hbad hbad'
  exact ⟨⟨cut, whole, hcut, hwhole, hsame.1, hbodies⟩, bad, bad', hbad, hbad', hmalformed.2.1,
    hpending⟩

end Cubic
