import Player2.AudioMpeg
import Player2.Run

/-! # The PES machine of the audio collators

`Collator_PesAudio_c::Input` looks for a PES start code (`SearchForPesHeader`), accumulates the
header behind it (`ReadPartialPesHeader`) and hands the payload to the elementary stream machine
(`ReadPesPacket`), after which the next header is expected.  A start code cut by the end of a call
is remembered in `TrailingStartCodeBytes`.

The header is accumulated in the coded frame buffer, behind the part of the frame that is there
already, and taken off again.  The elementary stream machine shares `DiscardAccumulatedData` with
this one, and with it the two flags that say what `Input` does next.

This is the machine for the sub-classes without PES private data, such as the MPEG one. -/

namespace Player2.Audio

/-! ### The state -/

/-- The sub-class, the codes it ignores, its sub stream, and the bytes that lie behind the
headers in the coded frame buffers: `ReadPesHeader` reads past a header that is too short. -/
structure PesSetting extends Setting where
  ignoreCodesRangeStart : UInt8
  ignoreCodesRangeEnd : UInt8
  subStreamIdentifierMask : ℕ
  subStreamIdentifierCode : ℕ
  memory : ℕ → List UInt8

/-- Start codes that are not looked at. -/
def PesSetting.ignored (e : PesSetting) (code : UInt8) : Bool :=
  inrange code e.ignoreCodesRangeStart e.ignoreCodesRangeEnd

/-- The MPEG audio collator. -/
def mpegPes (maximumCodedFrameSize : ℕ) (memory : ℕ → List UInt8) : PesSetting where
  toSetting := mpeg maximumCodedFrameSize
  ignoreCodesRangeStart := 0x01
  ignoreCodesRangeEnd := 0xbf
  subStreamIdentifierMask := 0
  subStreamIdentifierCode := 0
  memory := memory

/-- The members of the PES machine beside those of the elementary stream machine.  `times` are the
times of the packet that is being read, and `passed` is the history of what has been passed to
`HandleElementaryStream`. -/
structure PesCollator extends Collator where
  trailingStartCodeBytes : ℕ
  gotPartialPesHeaderBytes : ℕ
  pesPayloadRemaining : ℕ
  pesHeadersRead : ℕ
  times : PesTimes
  passed : List (PesTimes × List UInt8)
deriving DecidableEq

/-- The state after `Reset`. -/
def PesCollator.start : PesCollator where
  toCollator := Collator.start
  trailingStartCodeBytes := 0
  gotPartialPesHeaderBytes := 0
  pesPayloadRemaining := 0
  pesHeadersRead := 0
  times := ⟨none, none⟩
  passed := []

/-- How a pass of the loop of `Input` ends. -/
inductive PesOutcome
  | more (s : PesCollator) (remaining : List UInt8)
  | fail (s : PesCollator)

/-! ### Start codes -/

/-- What the loop over the trailing bytes of a start code comes to. -/
inductive Trailing
  | found (code : UInt8) (remaining : List UInt8)
  | scan (remaining : List UInt8)
  | exhausted (trailingStartCodeBytes : ℕ)
  | illegal
deriving DecidableEq, Repr

/-- The first loop of `SearchForPesHeader`.  One trailing zero and one more stay one. -/
def handleTrailing (ignored : UInt8 → Bool) : ℕ → List UInt8 → Trailing
  | 0, data => .scan data
  | t + 1, [] => .exhausted (t + 1)
  | 1, b :: data => if b = 0 then handleTrailing ignored 1 data else .scan (b :: data)
  | 2, b :: data =>
    if b = 1 then handleTrailing ignored 3 data
    else if b = 0 then handleTrailing ignored 2 data
    else .scan (b :: data)
  | 3, b :: data => if ignored b then .scan (b :: data) else .found b data
  | _ + 4, _ :: _ => .illegal

/-- The trailing start code bytes at the end of a chunk that has been scanned. -/
def trailingBytes (data : List UInt8) : ℕ :=
  let n := data.length
  let lastBytes0 := if 3 ≤ n then data.getD (n - 3) 0 else 0xff
  let lastBytes1 := if 2 ≤ n then data.getD (n - 2) 0 else 0xff
  let lastBytes2 := data.getD (n - 1) 0
  if lastBytes2 < 1 then
    if lastBytes0 = 0 ∧ lastBytes1 = 0 ∧ lastBytes2 = 1 then 3
    else if lastBytes1 = 0 ∧ lastBytes2 = 0 then 2
    else if lastBytes2 = 0 then 1
    else 0
  else 0

/-- `PesPayloadLength`, of a header without private data. -/
def pesPayloadLength (header : List UInt8) : ℕ :=
  let pesPacketLength := (header.getD 4 0).toNat * 256 + (header.getD 5 0).toNat
  if pesPacketLength = 0 then 0
  else (pesPacketLength + 2 ^ 32 - (header.getD 8 0).toNat - 3) % 2 ^ 32

namespace PesCollator

variable (e : PesSetting)

def searchForPesHeader (s : PesCollator) (remaining : List UInt8) : PesOutcome :=
  match handleTrailing e.ignored s.trailingStartCodeBytes remaining with
  | .found code rest =>
    let t := { s with
      seekingPesHeader := false
      gotPartialPesHeader := true
      gotPartialPesHeaderBytes := 4
      trailingStartCodeBytes := 0 }
    match t.toCollator.accumulateData e.toSetting [0, 0, 1, code] with
    | some c => .more { t with toCollator := c } rest
    | none => .fail t
  | .exhausted n => .more { s with trailingStartCodeBytes := n } []
  | .illegal => .fail { s with trailingStartCodeBytes := 0 }
  | .scan rest =>
    if rest = [] then .more { s with trailingStartCodeBytes := 0 } []
    else
      match findNextStartCode e.ignored rest with
      | some codeOffset =>
        .more { s with
          seekingPesHeader := false
          gotPartialPesHeader := true
          gotPartialPesHeaderBytes := 0
          trailingStartCodeBytes := 0 } (rest.drop codeOffset)
      | none => .more { s with trailingStartCodeBytes := trailingBytes rest } []

/-! ### Headers and payloads -/

/-- `StoredPesHeader`, as far as it has been accumulated. -/
def storedPesHeader (s : PesCollator) : List UInt8 :=
  Collator.lastBytes s.gotPartialPesHeaderBytes s.accumulated

/-- The part of `ReadPartialPesHeader` after the whole header has been accumulated. -/
def acceptPesHeader (s : PesCollator) : PesCollator :=
  let header := s.storedPesHeader
  let times := readPesTimes (header ++ e.memory s.pesHeadersRead) e.subStreamIdentifierMask
    e.subStreamIdentifierCode
  let t := { s with pesHeadersRead := s.pesHeadersRead + 1 }
  if header.getD 0 0 ≠ 0 ∨ header.getD 1 0 ≠ 0 ∨ header.getD 2 0 ≠ 1 then
    { s with toCollator := s.toCollator.discardAccumulatedData }
  else
    match times with
    | none => { t with toCollator := s.toCollator.discardAccumulatedData }
    | some times =>
      { t with
        accumulated := s.accumulated.take (s.accumulated.length - pesHeaderSize header)
        pesPayloadRemaining := pesPayloadLength header
        gotPartialPesHeader := false
        times := times }

def readPartialPesHeader (s : PesCollator) (remaining : List UInt8) : PesOutcome :=
  let initial := s.gotPartialPesHeaderBytes < pesInitialHeaderSize
  let bytesNeeded :=
    (if initial then pesInitialHeaderSize else pesHeaderSize s.storedPesHeader)
      - s.gotPartialPesHeaderBytes
  let bytesToRead := min remaining.length bytesNeeded
  match s.toCollator.accumulateData e.toSetting (remaining.take bytesToRead) with
  | none => .fail s
  | some c =>
    let t := { s with
      toCollator := c
      gotPartialPesHeaderBytes := s.gotPartialPesHeaderBytes + bytesToRead }
    .more (if ¬ initial ∧ bytesNeeded = bytesToRead then t.acceptPesHeader e else t)
      (remaining.drop bytesToRead)

/-- `ReadPesPacket`, given what `HandleElementaryStream` made of the bytes and with which
status.  After an error nothing is consumed. -/
def readPesPacket (s : PesCollator) (remaining : List UInt8) (status : Status) (c : Collator) :
    PesOutcome :=
  let bytesToRead := min s.pesPayloadRemaining remaining.length
  let t := { s with toCollator := c, passed := s.passed ++ [(s.times, remaining.take bytesToRead)] }
  if status = .noError then
    .more { t with
      gotPartialPesHeader := if bytesToRead = s.pesPayloadRemaining then true else c.gotPartialPesHeader
      gotPartialPesHeaderBytes :=
        if bytesToRead = s.pesPayloadRemaining then 0 else s.gotPartialPesHeaderBytes
      pesPayloadRemaining := s.pesPayloadRemaining - bytesToRead } (remaining.drop bytesToRead)
  else .more t remaining

end PesCollator

/-! ### `Input` -/

/-- One pass of the loop of `Input`, with a number of steps for the elementary stream machine;
`none` if they do not suffice for it to come back. -/
def PesCollator.pass (e : PesSetting) (steps : ℕ) (s : PesCollator) (remaining : List UInt8) :
    Option PesOutcome :=
  if s.seekingPesHeader then some (s.searchForPesHeader e remaining)
  else if s.gotPartialPesHeader then some (s.readPartialPesHeader e remaining)
  else
    match run e.toSetting steps
      ⟨s.toCollator, remaining.take (min s.pesPayloadRemaining remaining.length), none⟩ with
    | .done status c => some (s.readPesPacket remaining status c)
    | .config _ => none

/-- A state of a sequence of calls: the data that the current call has left, and the data of the
calls to come. -/
structure Session where
  collator : PesCollator
  remaining : List UInt8
  chunks : List (List UInt8)
deriving DecidableEq

/-- The next pass, or the next call.  After an error the collator discards what it has accumulated
and looks for a new header, and the call comes back. -/
def Session.step (e : PesSetting) (x : Session) (steps : ℕ) : Option Session :=
  if x.remaining = [] then
    match x.chunks with
    | [] => none
    | chunk :: chunks => some ⟨x.collator, chunk, chunks⟩
  else
    (x.collator.pass e steps x.remaining).map (fun o =>
      match o with
      | .more t rest => ⟨t, rest, x.chunks⟩
      | .fail t => ⟨{ t with toCollator := t.toCollator.discardAccumulatedData }, [], x.chunks⟩)

end Player2.Audio
