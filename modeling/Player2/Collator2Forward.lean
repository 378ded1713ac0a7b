import Player2.Collator2Base

/-! # `ProcessInputForward`

The forward half of `Collator2_PesVideo_c`.  The input is scanned for start codes; what lies
between them is accumulated in the current partition.  A start code and the bytes after it that its
kind asks for are accumulated as well, and then looked at: the header of a PES packet or of padding
is taken off again, and a generic start code is shown to the frame parser, which says whether a new
frame begins there.  A start code may begin in the partition and end in the input, which is what the
spanning words are for.

One round of the loop is `round`; `none` stands for a round in which the source reads outside the
partition or the input. -/

namespace Player2.Collator2

open Bits

/-! ### `ReadPesHeader` -/

/-- The 33 bits of a time; the marker bits are not looked at. -/
def readTime : Bits ℕ := do
  let high ← get 3
  flushUnseen 1
  let middle ← get 15
  flushUnseen 1
  let low ← get 15
  flushUnseen 1
  return high * 2 ^ 30 + middle * 2 ^ 15 + low

/-- The times in the header of a packet. -/
def readPesTimes (flags : UInt8) : Bits PesTimes := do
  let mut playbackTime := none
  let mut decodeTime := none
  if flags &&& 0x80 = 0x80 then
    flushUnseen 4
    playbackTime := some (← readTime)
  if flags &&& 0xC0 = 0xC0 then
    flushUnseen 4
    decodeTime := some (← readTime)
  return ⟨playbackTime, decodeTime⟩

/-- The times in a system stream header. -/
def readSystemTimes : Bits PesTimes := do
  if look 2 (← MonadState.get) = 1 then flushUnseen 16
  let flags ← get 4
  let mut playbackTime := none
  let mut decodeTime := none
  if flags = 2 ∨ flags = 3 then playbackTime := some (← readTime)
  if flags = 3 then
    flushUnseen 4
    decodeTime := some (← readTime)
  return ⟨playbackTime, decodeTime⟩

/-- What `ReadPesHeader` reads in the memory from the first byte of a header on: the times, and
whether the packet is wanted. -/
def readHeader (header : List UInt8) (mask code : ℕ) : PesTimes × Bool :=
  if header.getD 6 0 &&& 0xc0 = 0x80 then
    match (readPesTimes (header.getD 7 0)).run (bitsOf (header.drop 9)) with
    | none => (⟨none, none⟩, false)
    | some (times, bits) =>
      if isPesStartCodeExtendedStreamId (header.getD 3 0) then
        (times, ((checkSubStream (header.getD 7 0) mask code).run bits).isSome)
      else (times, true)
  else
    match readSystemTimes.run (bitsOf ((header.drop 6).dropWhile (· = 0xff))) with
    | none => (⟨none, none⟩, false)
    | some (times, _) => (times, true)

namespace Collator

variable {σ : Type} (env : Setting σ)

def readPesHeader (s : Collator σ) (header : List UInt8) : CollatorStatus × Collator σ :=
  let (times, wanted) := readHeader (header ++ env.memory s.pesHeadersRead)
    env.configuration.subStreamIdentifierMask env.configuration.subStreamIdentifierCode
  (if wanted then .noError else .error,
    { s with
      pesHeadersRead := s.pesHeadersRead + 1
      spanningPlaybackTime := s.playbackTime
      spanningDecodeTime := s.decodeTime
      useSpanningTime := true
      playbackTime := times.playbackTime
      decodeTime := times.decodeTime })

/-! ### Extended headers -/

/-- How a part of a round ends: the loop is left, the next round follows, or the round goes on. -/
inductive Part (σ : Type)
  | leave (status : CollatorStatus) (s : Collator σ) (rest : List UInt8)
  | loop (s : Collator σ) (rest : List UInt8)
  | proceed (s : Collator σ) (rest : List UInt8)

/-- The last bytes of the current partition, if there are so many. -/
def lastOfPartition (s : Collator σ) (n : ℕ) : Option (List UInt8) :=
  if n ≤ s.nextPartition.data.length then
    some (s.nextPartition.data.drop (s.nextPartition.data.length - n))
  else none

/-- The times of the packet go to the current partition, if it is empty. -/
def takeTimes (s : Collator σ) : Collator σ :=
  if s.nextPartition.data = [] ∧ s.playbackTime.isSome then
    { s with
      nextPartition := { s.nextPartition with
        codedFrameParameters := { s.nextPartition.codedFrameParameters with
          playbackTime := s.playbackTime
          decodeTime := s.decodeTime } }
      playbackTime := none
      decodeTime := none }
  else s

/-- A generic start code that begins a new frame. -/
def blockTerminate (s : Collator σ) (header : List UInt8) : Option (Collator σ) := do
  let s ← s.windBack s.gotPartialCurrentSize
  let t := ((s.accumulateOnePartition env).accumulateData env header).2
  return { t with
    partitionPointSafeToOutputCount := t.partitionPoints.length
    discardingData := false }

/-- A generic start code. -/
def genericHeader (s : Collator σ) (header rest : List UInt8) : Option (Part σ) := do
  let code := header.getD 3 0
  let (flags, parser) := env.frameParser.presentCollatedHeader s.parser code (header.drop 4)
  let s := { s with
    parser := parser
    gotPartialHeader := false
    nextPartition := { s.nextPartition with frameFlags := s.nextPartition.frameFlags.union flags } }
  let t ← if flags.partitionPoint then s.blockTerminate env header else some s
  let offset := (t.nextPartition.data.length + 2 ^ 32 - t.gotPartialCurrentSize) % 2 ^ 32
  let (status, u) := t.accumulateStartCode env (offset, code)
  if status ≠ .noError then
    return .leave status u.emptyCurrentPartition.initializePartition rest
  else if flags.partitionPoint ∧
      u.codedFrameBufferFreeSpace < u.largestFrameSeen + minimumAccumulationHeadroom then
    let (status, v) := u.partitionOutput env
    if status ≠ .noError then return .leave status v rest else return .proceed v rest
  else return .proceed u rest

/-- A header as long as it was asked for. -/
def completeHeader (s : Collator σ) (rest : List UInt8) : Option (Part σ) := do
  let header ← s.lastOfPartition s.gotPartialCurrentSize
  match s.gotPartialType with
  | .zeroStartCode =>
    if header.getD 4 0 = 0 ∧ header.getD 5 0 = 1 then
      let padding := header.getD 6 0 = pesPaddingStartCode
      return .loop { s with
        gotPartialType := if padding then .paddingStartCode else .pesStartCode
        gotPartialDesiredSize :=
          if padding then pesPaddingInitialHeaderSize else pesInitialHeaderSize
        gotPartialCurrentSize := 4 } rest
    else
      return .loop { s with
        gotPartialDesiredSize := 4 + env.frameParser.requiredPresentationLength 0
        gotPartialType := .genericStartCode } rest
  | .pesStartCode =>
    let desired :=
      if s.gotPartialCurrentSize ≥ pesInitialHeaderSize then pesHeaderSize header
      else s.gotPartialDesiredSize
    let s := { s with gotPartialDesiredSize := desired }
    if s.gotPartialCurrentSize < desired then return .loop s rest
    else
      let s ← { s with discardingData := false, gotPartialHeader := false }.windBack
        s.gotPartialCurrentSize
      let (status, t) := s.readPesHeader env header
      if status ≠ .noError then return .leave status t rest else return .proceed t.takeTimes rest
  | .paddingStartCode =>
    let t ← { s with skipping := pesPaddingSkip header, gotPartialHeader := false }.windBack
      s.gotPartialCurrentSize
    return .proceed t rest
  | .genericStartCode => s.genericHeader env header rest

/-- The part of a round that accumulates an extended header. -/
def extendHeader (s : Collator σ) (rest : List UInt8) : Option (Part σ) :=
  if s.gotPartialCurrentSize < s.gotPartialDesiredSize then
    let transfer := min rest.length (s.gotPartialDesiredSize - s.gotPartialCurrentSize)
    let (status, t) := s.accumulateData env (rest.take transfer)
    if status ≠ .noError then
      some (.leave status { t.emptyCurrentPartition.initializePartition with
        gotPartialHeader := false, discardingData := false } rest)
    else
      let t := { t with gotPartialCurrentSize := s.gotPartialCurrentSize + transfer }
      if t.gotPartialCurrentSize ≥ t.gotPartialDesiredSize then
        t.completeHeader env (rest.drop transfer)
      else some (.proceed t (rest.drop transfer))
  else s.completeHeader env rest

/-! ### Start codes -/

/-- The `i`-th byte from the end of the partition, from 1 on, as in the spanning word. -/
def spanningByte (s : Collator σ) (i : ℕ) : UInt8 :=
  if i ≤ s.nextPartition.data.length then
    s.nextPartition.data.getD (s.nextPartition.data.length - i) 0
  else 0xff

/-- The `i`-th byte of the input, from 0 on, as in the starting word. -/
def startingByte (rest : List UInt8) (i : ℕ) : UInt8 := if i < rest.length then rest.getD i 0 else 0xff

/-- `SpanningCount`, before the code itself is looked at. -/
def spanningCount (s : Collator σ) (rest : List UInt8) : ℕ :=
  if s.spanningByte 3 = 0 ∧ s.spanningByte 2 = 0 ∧ s.spanningByte 1 = 1 then 1
  else if s.spanningByte 2 = 0 ∧ s.spanningByte 1 = 0 ∧ startingByte rest 0 = 1 then 2
  else if s.spanningByte 1 = 0 ∧ startingByte rest 0 = 0 ∧ startingByte rest 1 = 1 then 3
  else if startingByte rest 0 = 0 ∧ startingByte rest 1 = 0 ∧ startingByte rest 2 = 1 ∧
    4 ≤ rest.length then 4
  else 0

/-- The spanning times are not wanted any more. -/
def dropSpanningTimes (s : Collator σ) : Collator σ :=
  { s with useSpanningTime := false, spanningPlaybackTime := none, spanningDecodeTime := none }

/-- The part of a round that processes a start code at the end of the partition. -/
def processCode (s : Collator σ) (rest : List UInt8) : Option (Part σ) := do
  let header ← s.lastOfPartition 4
  let code := header.getD 3 0
  let s := { s with gotPartialHeader := true, gotPartialCurrentSize := 4 }
  if code = 0 then
    return .loop { s with
      gotPartialType := .zeroStartCode, gotPartialDesiredSize := zeroStartCodeHeaderSize } rest
  else if isPesStartCodeVideo code then
    if code &&& env.configuration.streamIdentifierMask = env.configuration.streamIdentifierCode then
      return .loop { s with
        gotPartialType := .pesStartCode, gotPartialDesiredSize := pesInitialHeaderSize } rest
    else return .loop { s with gotPartialHeader := false, discardingData := true } rest
  else if code = pesPaddingStartCode then
    return .loop { s with
      gotPartialType := .paddingStartCode
      gotPartialDesiredSize := pesPaddingInitialHeaderSize } rest
  else if s.discardingData then
    return .loop { s with gotPartialHeader := false }.emptyCurrentPartition rest
  else
    return .loop { s with
      gotPartialType := .genericStartCode
      gotPartialDesiredSize := 4 + env.frameParser.requiredPresentationLength code } rest

/-- The part of a round that looks for a start code in the input. -/
def searchCode (s : Collator σ) (rest : List UInt8) : Option (Part σ) :=
  let s :=
    if s.playbackTime.isNone && s.spanningPlaybackTime.isSome then
      { s with
        playbackTime := s.spanningPlaybackTime
        decodeTime := s.spanningDecodeTime
        useSpanningTime := false
        spanningPlaybackTime := none
        spanningDecodeTime := none }
    else s
  let s := if rest.length < 4 then s else s.dropSpanningTimes
  match findNextStartCode env.configuration.ignored rest with
  | none =>
    let (status, t) := s.accumulateData env rest
    let failed := status ≠ .noError ∧ status ≠ .wouldBlock
    some (.leave status (if failed then { t with discardingData := true } else t)
      (if status = .wouldBlock then rest else []))
  | some codeOffset =>
    let (status, t) := s.accumulateData env (rest.take (codeOffset + 4))
    if status ≠ .noError then
      some (.leave status
        (if status ≠ .wouldBlock then { t with discardingData := true } else t) rest)
    else t.processCode env (rest.drop (codeOffset + 4))

/-- The part of a round after the headers: padding, a spanning start code, or a search. -/
def scan (s : Collator σ) (rest : List UInt8) : Option (Part σ) :=
  let skip := min s.skipping rest.length
  let s := { s with skipping := s.skipping - skip }
  let rest := rest.drop skip
  if rest = [] then some (.leave .noError s [])
  else
    let count := s.spanningCount rest
    let s := if count = 4 then s.dropSpanningTimes else s
    if count > rest.length then none
    else if count ≠ 0 ∧ env.configuration.ignored (rest.getD (count - 1) 0) = false then
      (s.accumulateData env (rest.take count)).2.processCode env (rest.drop count)
    else s.searchCode env rest

/-! ### The loop -/

/-- There is not enough room, in the buffer or in the table, to go on. -/
def short (s : Collator σ) : Bool :=
  let minimumHeadroom :=
    if s.gotPartialHeader then max minimumAccumulationHeadroom s.gotPartialDesiredSize
    else minimumAccumulationHeadroom
  s.codedFrameBufferFreeSpace < minimumHeadroom ||
    s.partitionPoints.length ≥ maximumPartitionPoints - 1

/-- The beginning of a round: make room. -/
def ensureRoom (s : Collator σ) : CollatorStatus × Collator σ :=
  if s.short then
    let (status, t) := s.partitionOutput env
    if status ≠ .noError then (status, t)
    else if t.short then (.wouldBlock, t)
    else (.noError, t)
  else (.noError, s)

/-- One round of the loop. -/
def round (s : Collator σ) (rest : List UInt8) : Option (Part σ) :=
  let (status, t) := s.ensureRoom env
  if status ≠ .noError then some (.leave status t rest)
  else if t.gotPartialHeader then
    match t.extendHeader env rest with
    | some (.proceed u rest) =>
      if rest = [] then some (.leave .noError u []) else u.scan env rest
    | o => o
  else t.scan env rest

/-- `ProcessInputForward`, for at most so many rounds. -/
def processInputForward : ℕ → Collator σ → List UInt8 →
    Option (CollatorStatus × Collator σ × List UInt8)
  | 0, _, _ => none
  | rounds + 1, s, rest =>
    if rest = [] then some (.noError, s, [])
    else
      match s.round env rest with
      | none => none
      | some (.leave status t rest) => some (status, t, rest)
      | some (.loop t rest) | some (.proceed t rest) => processInputForward rounds t rest

def inputEntry (s : Collator σ) (descriptor : PesTimes) (nonBlocking : Bool) :
    CollatorStatus × Collator σ :=
  let parameters := s.nextPartition.codedFrameParameters
  let s := { s with
    nonBlockingInput := nonBlocking
    nextPartition := { s.nextPartition with
      codedFrameParameters := { parameters with
        playbackTime := parameters.playbackTime.or descriptor.playbackTime
        decodeTime := parameters.decodeTime.or descriptor.decodeTime } } }
  if s.extendCodedFrameBufferAtEarliestOpportunity then s.partitionOutput env else (.noError, s)

/-- `Input` in forward play, after forward play: the status, the state and the data that is left. -/
def input (rounds : ℕ) (s : Collator σ) (descriptor : PesTimes) (nonBlocking : Bool)
    (data : List UInt8) : Option (CollatorStatus × Collator σ × List UInt8) :=
  let (status, s) := s.inputEntry env descriptor nonBlocking
  if status ≠ .noError then some (status, s, data)
  else
    match processInputForward env rounds s data with
    | none => none
    | some (status, t, rest) =>
      if status = .noError ∧ t.partitionPointSafeToOutputCount ≠ 0 then
        let (status, u) := t.partitionOutput env
        some (status, u, rest)
      else some (status, t, rest)

/-- The state after `Reset` and `RegisterOutputBufferRing`, with an operating buffer of some size. -/
def start (parser : σ) (bufferSize : ℕ) : Collator σ where
  nonBlockingInput := false
  extendCodedFrameBufferAtEarliestOpportunity := false
  discardingData := true
  codedFrameBufferSize := bufferSize
  codedFrameBufferFreeSpace := bufferSize
  codedFrameBufferUsedSpace := 0
  largestFrameSeen := 0
  startCodes := []
  nextReadInStartCodeList := 0
  partitionPoints := []
  nextPartition := ⟨[], false, .clear, 0, 0, .none⟩
  partitionPointMarkerCount := 0
  partitionPointSafeToOutputCount := 0
  gotPartialHeader := false
  gotPartialType := .genericStartCode
  gotPartialCurrentSize := 0
  gotPartialDesiredSize := 0
  skipping := 0
  playbackTime := none
  decodeTime := none
  useSpanningTime := false
  spanningPlaybackTime := none
  spanningDecodeTime := none
  parser := parser
  outputRing := []
  poolRequests := 0
  pesHeadersRead := 0

end Collator

end Player2.Collator2
