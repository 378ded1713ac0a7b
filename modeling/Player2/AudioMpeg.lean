import Player2.Pes
import Player2.AudioElementary

/-! # The MPEG audio sub-class

`Collator_PesAudioMpeg_c` looks for eleven set bits on a byte boundary and takes the length of a
frame from its header (`ParseFrameHeader`); at the end of a frame it also accepts an extension
header, which carries a length of its own (`ParseExtensionHeader`).  A frame header gives a length
of at least 24 bytes, an extension header any length below 2048, zero included. -/

namespace Player2.Audio

/-! ### The headers -/

/-- `Mpeg1BitRateLookup`, in kbit/s. -/
def mpeg1BitRateLookup : List (List ℕ) :=
  [[0, 32, 64, 96, 128, 160, 192, 224, 256, 288, 320, 352, 384, 416, 448, 0],
   [0, 32, 48, 56, 64, 80, 96, 112, 128, 160, 192, 224, 256, 320, 384, 0],
   [0, 32, 40, 48, 56, 64, 80, 96, 112, 128, 160, 192, 224, 256, 320, 0]]

def mpeg2BitRateLookup : List (List ℕ) :=
  [[0, 32, 48, 56, 64, 80, 96, 112, 128, 144, 160, 176, 192, 224, 256, 0],
   [0, 8, 16, 24, 32, 40, 48, 56, 64, 80, 96, 112, 128, 144, 160, 0],
   [0, 8, 16, 24, 32, 40, 48, 56, 64, 80, 96, 112, 128, 144, 160, 0]]

/-- `SamplingFrequencyLookup`, in Hz. -/
def samplingFrequencyLookup : List (List ℕ) :=
  [[44100, 48000, 32000, 0], [22050, 24000, 16000, 0], [11025, 12000, 8000, 0]]

/-- The layer index of a frame header word. -/
def layerIndex (frameHeader : ℕ) : Option ℕ :=
  if frameHeader &&& 0x00060000 = 0x00060000 then some 0
  else if frameHeader &&& 0x00060000 = 0x00040000 then some 1
  else if frameHeader &&& 0x00060000 = 0x00020000 then some 2
  else none

/-- The index of the MPEG standard of a frame header word. -/
def mpegIndex (frameHeader : ℕ) : Option ℕ :=
  if frameHeader &&& 0x00180000 = 0x00180000 then some 0
  else if frameHeader &&& 0x00180000 = 0x00100000 then some 1
  else if frameHeader &&& 0x00180000 = 0x00000000 then some 2
  else none

/-- The size of a frame, from the fields of its header. -/
def frameSize (layer mpeg bitRateIndex frequencyIndex padding : ℕ) : Option ℕ :=
  let bitRate :=
    ((if mpeg = 0 then mpeg1BitRateLookup else mpeg2BitRateLookup).getD layer []).getD bitRateIndex 0
  let frequency := (samplingFrequencyLookup.getD mpeg []).getD frequencyIndex 0
  if bitRate = 0 then none
  else if frequency = 0 then none
  else if layer = 0 then some (4 * (12000 * bitRate / frequency + padding))
  else if layer = 2 ∧ (mpeg = 1 ∨ mpeg = 2) then some (72000 * bitRate / frequency + padding)
  else some (144000 * bitRate / frequency + padding)

/-- `ParseFrameHeader`, as far as the collator uses it: the length of the frame. -/
def parseFrameHeader (header : List UInt8) : Option ℕ := do
  let frameHeader := (header.getD 0 0).toNat <<< 24 ||| (header.getD 1 0).toNat <<< 16 |||
    (header.getD 2 0).toNat <<< 8 ||| (header.getD 3 0).toNat
  if frameHeader &&& 0xffe00000 ≠ 0xffe00000 then none
  else
    let layer ← layerIndex frameHeader
    let mpeg ← mpegIndex frameHeader
    frameSize layer mpeg ((frameHeader &&& 0x0000f000) >>> 12) ((frameHeader &&& 0x00000c00) >>> 10)
      ((frameHeader &&& 0x00000200) >>> 9)

/-- The fields of an extension header: sync, CRC, length in bytes, reserved bit. -/
def readExtensionFields : Bits ℕ := do
  let frameSync ← Bits.get 12
  if frameSync ≠ 0x7ff then failure
  let _crc ← Bits.get 16
  let lengthInBytes ← Bits.get 11
  let id ← Bits.get 1
  if id ≠ 0 then failure
  return lengthInBytes

/-- `ParseExtensionHeader`: the length of the extension. -/
def parseExtensionHeader (header : List UInt8) : Option ℕ :=
  (readExtensionFields (bitsOf header)).map Prod.fst

/-! ### The sub-class -/

/-- The first synchronization word in the remaining data. -/
def findSync : List UInt8 → Option ℕ
  | a :: b :: bytes =>
    if a = 0xff ∧ b &&& 0xe0 = 0xe0 then some 0 else (findSync (b :: bytes)).map (· + 1)
  | _ => none

/-- `Collator_PesAudioMpeg_c::FindNextSyncWord`. -/
def mpegFindNextSyncWord (potential remaining : List UInt8) : Option ℤ :=
  if potential.getLast? = some 0xff ∧ remaining.getD 0 0 &&& 0xe0 = 0xe0 then some (-1)
  else (findSync remaining).map (fun i : ℕ => (i : ℤ))

/-- `Collator_PesAudioMpeg_c::DecideCollatorNextStateAndGetLength` on an ordinary header. -/
def mpegDecideFrame (state : CollatorState) (header : List UInt8) : Option (CollatorState × ℕ) :=
  (parseFrameHeader header).map (fun length =>
    (if state = .seekingFrameEnd then .gotCompleteFrame else .readSubFrame, length))

/-- `Collator_PesAudioMpeg_c::DecideCollatorNextStateAndGetLength`. -/
def mpegDecideNextState (state : CollatorState) (header : List UInt8) :
    Option (CollatorState × ℕ) :=
  if state = .seekingFrameEnd then
    match parseExtensionHeader header with
    | some length => some (.readSubFrame, length)
    | none => mpegDecideFrame state header
  else mpegDecideFrame state header

/-- The MPEG audio collator. -/
def mpeg (maximumCodedFrameSize : ℕ) : Setting where
  frameHeaderLength := 5
  reprocess := true
  findNextSyncWord := mpegFindNextSyncWord
  decideNextState := mpegDecideNextState
  maximumCodedFrameSize := maximumCodedFrameSize

/-! ### Lengths -/

theorem frameSize_ge : ∀ layer < 3, ∀ mpeg < 3, ∀ bitRate < 16, ∀ frequency < 4, ∀ padding < 2,
    ∀ size ∈ frameSize layer mpeg bitRate frequency padding, 24 ≤ size := by
  decide +kernel

theorem layerIndex_lt {h i : ℕ} (hi : layerIndex h = some i) : i < 3 := by
  unfold layerIndex at hi
  split_ifs at hi <;> simp_all <;> omega

theorem mpegIndex_lt {h i : ℕ} (hi : mpegIndex h = some i) : i < 3 := by
  unfold mpegIndex at hi
  split_ifs at hi <;> simp_all <;> omega

theorem and_shiftRight_le (h mask n : ℕ) : (h &&& mask) >>> n ≤ mask >>> n := by
  rw [Nat.shiftRight_eq_div_pow, Nat.shiftRight_eq_div_pow]
  exact Nat.div_le_div_right Nat.and_le_right

theorem parseFrameHeader_ge {header : List UInt8} {length : ℕ}
    (h : parseFrameHeader header = some length) : 24 ≤ length := by
  simp only [parseFrameHeader] at h
  split at h
  · exact absurd h (by simp)
  · simp only [Option.bind_eq_bind, Option.bind_eq_some_iff] at h
    obtain ⟨layer, hlayer, mpeg, hmpeg, hsize⟩ := h
    refine frameSize_ge layer (layerIndex_lt hlayer) mpeg (mpegIndex_lt hmpeg) _ ?_ _ ?_ _ ?_
      length hsize
    · exact Nat.lt_succ_of_le (and_shiftRight_le _ 0x0000f000 12)
    · exact Nat.lt_succ_of_le (and_shiftRight_le _ 0x00000c00 10)
    · exact Nat.lt_succ_of_le (and_shiftRight_le _ 0x00000200 9)

/-- An accepted header leads to a frame to be read, and has length zero only if it is an empty
extension header found at the end of a frame. -/
theorem mpegDecideNextState_cases {state next : CollatorState} {header : List UInt8} {length : ℕ}
    (h : mpegDecideNextState state header = some (next, length)) :
    (next = .readSubFrame ∨ next = .gotCompleteFrame) ∧
      (length = 0 → state = .seekingFrameEnd ∧ parseExtensionHeader header = some 0) := by
  have hframe : mpegDecideFrame state header = some (next, length) →
      (next = .readSubFrame ∨ next = .gotCompleteFrame) ∧ length ≠ 0 := by
    intro hf
    simp only [mpegDecideFrame, Option.map_eq_some_iff] at hf
    obtain ⟨l, hl, heq⟩ := hf
    have hge := parseFrameHeader_ge hl
    obtain ⟨hnext, rfl⟩ := Prod.mk.inj heq
    refine ⟨?_, by omega⟩
    rw [← hnext]
    split <;> simp
  unfold mpegDecideNextState at h
  split at h
  next hstate =>
    split at h
    next l hext =>
      obtain ⟨hnext, rfl⟩ := Prod.mk.inj (Option.some.inj h)
      exact ⟨.inl hnext.symm, fun hzero => ⟨hstate, hzero ▸ hext⟩⟩
    next =>
      obtain ⟨hnext, hne⟩ := hframe h
      exact ⟨hnext, fun hzero => absurd hzero hne⟩
  next =>
    obtain ⟨hnext, hne⟩ := hframe h
    exact ⟨hnext, fun hzero => absurd hzero hne⟩

end Player2.Audio
