import Player2.Dvb
import Player2.DemultiplexorStreams

/-! # Demultiplexing a buffer of transport stream packets

`Demultiplexor_Ts_c::Demux` settles the packet size (188 bytes, or 192 with four bytes in front as
on BluRay), walks the buffer packet by packet and hands the payload of each packet to the collator
of the stream its PID belongs to.  A collator that reports an overflow ends the walk.

The specification looks at one stream at a time.  Of the well formed packets of its PID
`unrepeated` drops the repeats; what is left is filtered by priority, and the payloads are put
together (`deliverable`).  `demux_spec` says that a call of `demux` does that for every stream in
the tables. -/

namespace Player2.Demultiplexor

open Dvb

variable {σ : Type*}

/-! ### The source -/

/-- What `Demux` does to the outside: a glitch reported for the stream of an entry, or bytes given
to the collator of an entry. -/
inductive Event (σ : Type*)
  | inputGlitch (entry : ℕ)
  | input (entry : ℕ) (collator : Option σ) (bytes : List UInt8)

/-- The event is a call of `Input`. -/
def Event.isInput : Event σ → Bool
  | .inputGlitch _ => false
  | .input .. => true

/-- One of the loops that look for sync bytes: `offset + stride * i` for each `i` below `count`. -/
def synced (data : List UInt8) (offset stride count : ℕ) : Bool :=
  (List.range count).all (fun i => byteAt data (offset + stride * i) == syncByte)

/-- The `BluRayExtraData` that the length and the sync bytes of a buffer suggest. -/
def guessExtraData (data : List UInt8) : ℕ :=
  if data.length % (packetSize + 4) = 0 then
    if data.length % packetSize = 0 then
      let packetCount := min (data.length / (packetSize + 4)) 8
      if synced data 0 packetSize packetCount then 0
      else if synced data 4 (packetSize + 4) packetCount then 4
      else 0
    else 4
  else 0

namespace Context

/-- The packet size is settled again when a stream has been added or the length does not fit. -/
def settlePacketSize (c : Context σ) (data : List UInt8) : Context σ :=
  if c.addedNewStream ∨ data.length % (packetSize + c.bluRayExtraData) ≠ 0 then
    { c with bluRayExtraData := guessExtraData data, addedNewStream := false }
  else c

/-- Set the expectation of an entry after a packet. -/
def expect (c : Context σ) (entry count : ℕ) (valid : Bool) : Context σ :=
  { c with
    streams := Function.update c.streams entry
      { c.streams entry with
        expectedContinuityCount := (count + 1) &&& 0x0f
        validExpectedContinuityCount := valid } }

/-- The part of the loop body after the continuity check: priority, then payload. -/
def passOn (c : Context σ) (entry : ℕ) (bytes : List UInt8) (dataOffset : ℕ) : List (Event σ) :=
  if (c.streams entry).selectOnPriority ∧
      (c.streams entry).desiredPriority ≠ dvbPriority (header bytes) then []
  else if dvbPayloadPresent (header bytes) ∧ dataOffset < packetSize then
    [.input entry (c.base entry).collator ((bytes.drop dataOffset).take (packetSize - dataOffset))]
  else []

/-- The loop body for a valid packet of an entry. -/
def entryPacket (c : Context σ) (entry : ℕ) (bytes : List UInt8) : Context σ × List (Event σ) :=
  let adaptation := dvbAdaptationField (header bytes)
  let dataOffset := headerSize + if adaptation then 1 + byteAt bytes headerSize else 0
  let deferredValid := !(adaptation && byteAt bytes headerSize != 0 &&
    (byteAt bytes (headerSize + 1) &&& discontinuityIndicatorMask) != 0)
  let count := dvbContinuityCount (header bytes)
  let s := c.streams entry
  if s.validExpectedContinuityCount ∧ count ≠ s.expectedContinuityCount then
    if (count + 1) &&& 0x0f = s.expectedContinuityCount then (c, [])
    else
      (c.expect entry count deferredValid,
        .inputGlitch entry :: c.passOn entry bytes dataOffset)
  else (c.expect entry count deferredValid, c.passOn entry bytes dataOffset)

/-- The loop body, for the memory from the start of a packet on. -/
def packet (c : Context σ) (bytes : List UInt8) : Context σ × List (Event σ) :=
  let table := c.pidTable (dvbPid (header bytes))
  if table = 0 then (c, [])
  else if validPacket (header bytes) then c.entryPacket (table - 1) bytes
  else (c, [])

variable (overflow : List (Event σ) → Bool)

/-- The packet handling loop from `packetStart` on, `none` when the fuel is used up.  `overflow`
tells whether the last of the events so far was answered with `CollatorBufferOverflow`. -/
def demuxLoop (data : List UInt8) :
    ℕ → ℕ → Context σ → List (Event σ) → Option (Status × Context σ × List (Event σ))
  | 0, _, _, _ => none
  | fuel + 1, packetStart, c, log =>
    if packetStart = data.length then some (.noError, c, log)
    else
      let r := c.packet (data.drop (packetStart + c.bluRayExtraData))
      if r.2.any Event.isInput && overflow (log ++ r.2) then
        some (.bufferOverflow, r.1, log ++ r.2)
      else
        demuxLoop data fuel (packetStart + (packetSize + c.bluRayExtraData)) r.1 (log ++ r.2)

/-- `Demultiplexor_Ts_c::Demux`, on a buffer whose descriptor and data could be obtained. -/
def demux (c : Context σ) (data : List UInt8) :
    Option (Status × Context σ × List (Event σ)) :=
  let c := c.settlePacketSize data
  if data.length % (packetSize + c.bluRayExtraData) ≠ 0 then some (.error, c, [])
  else demuxLoop overflow data (data.length + 1) 0 c []

end Context

/-! ### The specification -/

/-- The packets of a buffer, each `extra + 188` bytes long, without the extra bytes in front. -/
def packets (extra : ℕ) : ℕ → List UInt8 → List (List UInt8)
  | 0, _ => []
  | n + 1, data => (data.drop extra).take packetSize :: packets extra n (data.drop (packetSize + extra))

/-- Drop the packets that repeat the count of the packet before them, `previous` being the count
of the last packet if it is known.  After a packet that `breaks` the sequence it is not. -/
def unrepeated (breaks : List UInt8 → Bool) : Option ℕ → List (List UInt8) → List (List UInt8)
  | _, [] => []
  | previous, p :: ps =>
    if previous = some (continuityCount p) then unrepeated breaks previous ps
    else p :: unrepeated breaks (if breaks p then none else some (continuityCount p)) ps

/-- The count of the last packet of the stream, if the context knows it. -/
def StreamContext.previousCount (s : StreamContext) : Option ℕ :=
  if s.validExpectedContinuityCount then some ((s.expectedContinuityCount + 15) % 16) else none

/-- The stream takes packets of this priority. -/
def StreamContext.selects (s : StreamContext) (p : List UInt8) : Bool :=
  !s.selectOnPriority || s.desiredPriority == priority p

/-- The bytes of `ps` that are for the stream of an entry. -/
def Context.deliverable (breaks : List UInt8 → Bool) (c : Context σ) (entry : ℕ)
    (ps : List (List UInt8)) : List UInt8 :=
  ((unrepeated breaks (c.streams entry).previousCount
    (ps.filter (fun p => wellFormed p && pid p == pidTableIndex (c.base entry).identifier))).filter
      (c.streams entry).selects).flatMap payload

/-- The bytes the collator of an entry is given in the course of a list of events. -/
def received (entry : ℕ) (log : List (Event σ)) : List UInt8 :=
  log.flatMap (fun
    | .input e _ bytes => if e = entry then bytes else []
    | .inputGlitch _ => [])

/-! ### One packet -/

/-- The tables agree with one another, every stream in them has a PID of its own, and the
expectations are counts. -/
structure Context.Consistent (c : Context σ) : Prop where
  pidTable_iff : ∀ pid i, c.pidTable pid = i + 1 ↔
    i < maxStreams ∧ (c.base i).stream.isSome ∧ pidTableIndex (c.base i).identifier = pid
  collator_eq : ∀ i, (c.base i).stream.isSome → (c.base i).collator = (c.base i).stream
  count_lt : ∀ i, (c.streams i).expectedContinuityCount < 16
  extraData : c.bluRayExtraData = 0 ∨ c.bluRayExtraData = 4

theorem byteAt_take {bytes : List UInt8} {i : ℕ} (hi : i < packetSize) :
    byteAt (bytes.take packetSize) i = byteAt bytes i := by
  unfold byteAt
  rw [List.getD_eq_getElem?_getD, List.getElem?_take_of_lt hi, ← List.getD_eq_getElem?_getD]

theorem header_take (bytes : List UInt8) : header (bytes.take packetSize) = header bytes := by
  unfold header
  rw [byteAt_take (by decide), byteAt_take (by decide), byteAt_take (by decide),
    byteAt_take (by decide)]

theorem previousCount_eq_some_iff {s : StreamContext} (hs : s.expectedContinuityCount < 16)
    {count : ℕ} (hcount : count < 16) :
    s.previousCount = some count ↔
      (s.validExpectedContinuityCount ∧ count ≠ s.expectedContinuityCount) ∧
        (count + 1) &&& 0x0f = s.expectedContinuityCount := by
  have hmask : (count + 1) &&& 0x0f = (count + 1) % 16 :=
    Nat.and_two_pow_sub_one_eq_mod (count + 1) 4
  rw [hmask, StreamContext.previousCount]
  cases s.validExpectedContinuityCount with
  | false => simp
  | true =>
    simp only [if_true, Option.some.injEq, true_and, ne_eq]
    omega

namespace Context

theorem entryPacket_of_take (c : Context σ) (entry : ℕ) (bytes : List UInt8)
    (hc : (c.streams entry).expectedContinuityCount < 16) :
    (c.entryPacket entry bytes =
      let p := bytes.take packetSize
      if (c.streams entry).previousCount = some (continuityCount p) then (c, [])
      else
        (c.expect entry (continuityCount p) (!discontinuity p),
          (if (c.streams entry).validExpectedContinuityCount ∧
              continuityCount p ≠ (c.streams entry).expectedContinuityCount then
            [.inputGlitch entry] else []) ++ c.passOn entry bytes (payloadOffset p))) := by
  dsimp only
  have hdiscontinuity : discontinuity (bytes.take packetSize) =
      (dvbAdaptationField (header bytes) && byteAt bytes headerSize != 0 &&
        (byteAt bytes (headerSize + 1) &&& discontinuityIndicatorMask) != 0) := by
    have hbit : ((byteAt bytes 5 &&& 2 ^ 7) != 0) = (byteAt bytes 5).testBit 7 := by
      rw [Nat.and_two_pow]
      cases (byteAt bytes 5).testBit 7 <;> simp
    rw [discontinuity, ← dvbAdaptationField_header, header_take, byteAt_take (by decide),
      byteAt_take (by decide), ← hbit]
    rfl
  have hoffset : payloadOffset (bytes.take packetSize) = headerSize +
      if dvbAdaptationField (header bytes) then 1 + byteAt bytes headerSize else 0 := by
    rw [payloadOffset, ← dvbAdaptationField_header, header_take, byteAt_take (by decide)]
    rfl
  have hcount : continuityCount (bytes.take packetSize) = dvbContinuityCount (header bytes) := by
    rw [← dvbContinuityCount_header, header_take]
  rw [entryPacket, hdiscontinuity, hoffset, hcount]
  simp only [previousCount_eq_some_iff hc (hcount ▸ continuityCount_lt (bytes.take packetSize))]
  by_cases hmiss : (c.streams entry).validExpectedContinuityCount ∧
      dvbContinuityCount (header bytes) ≠ (c.streams entry).expectedContinuityCount
  · by_cases hrepeat : (dvbContinuityCount (header bytes) + 1) &&& 0x0f
        = (c.streams entry).expectedContinuityCount
    · simp [hmiss, hrepeat]
    · simp [hmiss, hrepeat]
  · simp [hmiss]

variable {bytes p data : List UInt8}

variable {entry e : ℕ}

theorem expect_streams_of_ne (c : Context σ) (h : entry ≠ e) (count : ℕ)
    (valid : Bool) : (c.expect e count valid).streams entry = c.streams entry :=
  Function.update_of_ne h _ _

theorem expect_previousCount (c : Context σ) (entry : ℕ) {count : ℕ} (h : count < 16)
    (valid : Bool) :
    ((c.expect entry count valid).streams entry).previousCount
      = if valid then some count else none := by
  have hmask : (count + 1) &&& 0x0f = (count + 1) % 16 :=
    Nat.and_two_pow_sub_one_eq_mod (count + 1) 4
  have hback : ((count + 1) % 16 + 15) % 16 = count := by omega
  simp [expect, StreamContext.previousCount, hmask, hback]

variable {c : Context σ}

theorem expect_consistent (hc : c.Consistent) (entry count : ℕ) (valid : Bool) :
    (c.expect entry count valid).Consistent := { hc with
  count_lt := by
    intro i
    have hmask : (count + 1) &&& 0x0f = (count + 1) % 16 :=
      Nat.and_two_pow_sub_one_eq_mod (count + 1) 4
    by_cases hi : i = entry
    · subst hi
      simp only [expect, Function.update_self, hmask]
      omega
    · rw [expect_streams_of_ne c hi]
      exact hc.count_lt i }

theorem packet_context (c : Context σ) (bytes : List UInt8) :
    (c.packet bytes).1 = c ∨ ∃ entry count valid, (c.packet bytes).1 = c.expect entry count valid := by
  simp only [packet, entryPacket]
  split
  · exact .inl rfl
  · split
    · split
      · split
        · exact .inl rfl
        · exact .inr ⟨_, _, _, rfl⟩
      · exact .inr ⟨_, _, _, rfl⟩
    · exact .inl rfl

theorem packet_base (c : Context σ) (bytes : List UInt8) :
    (c.packet bytes).1.base = c.base := by
  rcases c.packet_context bytes with h | ⟨e, count, valid, h⟩ <;> rw [h]
  rfl

theorem packet_extraData (c : Context σ) (bytes : List UInt8) :
    (c.packet bytes).1.bluRayExtraData = c.bluRayExtraData := by
  rcases c.packet_context bytes with h | ⟨e, count, valid, h⟩ <;> rw [h]
  rfl

theorem packet_consistent (hc : c.Consistent) (bytes : List UInt8) :
    (c.packet bytes).1.Consistent := by
  rcases c.packet_context bytes with h | ⟨e, count, valid, h⟩ <;> rw [h]
  · exact hc
  · exact expect_consistent hc e count valid

/-- A packet of the stream of the entry. -/
def Matches (c : Context σ) (entry : ℕ) (p : List UInt8) : Prop :=
  wellFormed p ∧ pid p = pidTableIndex (c.base entry).identifier

theorem entryPacket_of_ne (c : Context σ) (hne : entry ≠ e) (bytes : List UInt8) :
    received entry (c.entryPacket e bytes).2 = [] ∧
      (c.entryPacket e bytes).1.streams entry = c.streams entry ∧
      (c.entryPacket e bytes).1.base entry = c.base entry := by
  have hpass : ∀ off, received entry (c.passOn e bytes off) = [] := by
    intro off
    unfold passOn
    split
    · rfl
    · split
      · simp [received, hne.symm]
      · rfl
  have hglitch : ∀ off, received entry (.inputGlitch e :: c.passOn e bytes off) = [] := by
    intro off
    have := hpass off
    simpa [received] using this
  simp only [entryPacket]
  split
  · split
    · exact ⟨rfl, rfl, rfl⟩
    · exact ⟨hglitch _, expect_streams_of_ne c hne _ _, rfl⟩
  · exact ⟨hpass _, expect_streams_of_ne c hne _ _, rfl⟩

theorem packet_of_matches (hc : c.Consistent)
    (hentry : entry < maxStreams) (hlive : (c.base entry).stream.isSome)
    (hmatch : c.Matches entry (bytes.take packetSize)) : c.packet bytes = c.entryPacket entry bytes := by
  have hpid : dvbPid (header bytes) = pid (bytes.take packetSize) := by
    rw [← dvbPid_header, header_take]
  have hvalid : validPacket (header bytes) = wellFormed (bytes.take packetSize) := by
    rw [← validPacket_header, header_take]
  have htable : c.pidTable (dvbPid (header bytes)) = entry + 1 :=
    (hc.pidTable_iff _ _).mpr ⟨hentry, hlive, hpid ▸ hmatch.2.symm⟩
  simp [packet, htable, hvalid, hmatch.1]

theorem packet_of_not_matches (hc : c.Consistent)
    (hmatch : ¬ c.Matches entry (bytes.take packetSize)) :
    received entry (c.packet bytes).2 = [] ∧
      (c.packet bytes).1.streams entry = c.streams entry ∧
      (c.packet bytes).1.base entry = c.base entry := by
  have hpid : dvbPid (header bytes) = pid (bytes.take packetSize) := by
    rw [← dvbPid_header, header_take]
  have hvalid : validPacket (header bytes) = wellFormed (bytes.take packetSize) := by
    rw [← validPacket_header, header_take]
  simp only [packet]
  split
  · exact ⟨rfl, rfl, rfl⟩
  next htable =>
    split
    next hok =>
      refine c.entryPacket_of_ne ?_ bytes
      intro heq
      obtain ⟨-, -, hid⟩ := (hc.pidTable_iff _ entry).mp
        (show c.pidTable (dvbPid (header bytes)) = entry + 1 by omega)
      exact hmatch ⟨hvalid ▸ hok, hpid ▸ hid.symm⟩
    · exact ⟨rfl, rfl, rfl⟩

/-- An event that hands on bytes gives the collator of a stream in the tables the whole payload,
which is not empty and ends with the packet, of one of the packets `ps` that is well formed and
has the PID of the stream. -/
def Sound (c : Context σ) (ps : List (List UInt8)) : Event σ → Prop
  | .inputGlitch _ => True
  | .input entry collator bytes =>
    entry < maxStreams ∧ (c.base entry).stream.isSome ∧ collator = (c.base entry).stream ∧
      ∃ p ∈ ps, c.Matches entry p ∧ bytes = payload p ∧ 0 < bytes.length ∧
        payloadOffset p + bytes.length = packetSize

theorem Sound.mono {c c' : Context σ} (hbase : c'.base = c.base) {ps qs : List (List UInt8)}
    (hsub : ps ⊆ qs) {e : Event σ} (h : c'.Sound ps e) : c.Sound qs e := by
  cases e with
  | inputGlitch => trivial
  | input entry collator bytes =>
    obtain ⟨hlt, hlive, hcol, p, hp, hmatch, hbytes⟩ := h
    unfold Matches at hmatch
    rw [hbase] at hlive hcol hmatch
    exact ⟨hlt, hlive, hcol, p, hsub hp, hmatch, hbytes⟩

/-- How a call of `demux` may end: with the number of packets it has looked at, the context it
leaves and the events. -/
structure Outcome (c : Context σ) (ps : List (List UInt8)) (status : Status) (c' : Context σ)
    (log : List (Event σ)) : Prop where
  received_eq : ∃ n, (status = .noError ∧ n = ps.length ∨ status = .bufferOverflow ∧ n ≤ ps.length) ∧
    ∀ entry < maxStreams, (c.base entry).stream.isSome →
      received entry log = c.deliverable discontinuity entry (ps.take n)
  sound : ∀ e ∈ log, c.Sound ps e
  consistent : c'.Consistent

/-- The packets of a buffer as the context settles them. -/
def packetsOf (c : Context σ) (data : List UInt8) : List (List UInt8) :=
  packets (c.settlePacketSize data).bluRayExtraData
    (data.length / (packetSize + (c.settlePacketSize data).bluRayExtraData)) data

theorem settlePacketSize_fits (h : data.length % 188 = 0 ∨ data.length % 192 = 0) :
    data.length % (packetSize + (c.settlePacketSize data).bluRayExtraData) = 0 := by
  unfold settlePacketSize
  split
  · unfold guessExtraData packetSize
    dsimp only
    split_ifs <;> omega
  next hkeep =>
    push Not at hkeep
    exact hkeep.2

theorem createContext_consistent : (createContext : Context σ).Consistent where
  pidTable_iff := by
    intro pid i
    simp [createContext]
  collator_eq := by
    intro i h
    simp [createContext] at h
  count_lt := by
    intro i
    simp [createContext]
  extraData := .inl rfl

theorem addStream_consistent (hc : c.Consistent) {stream : σ} {identifier : UInt32}
    (hpid : c.pidTable (pidTableIndex identifier) = 0) :
    (c.addStream stream identifier).2.Consistent := by
  cases hfree : c.freeEntry with
  | none =>
    rw [addStream_of_full hfree]
    exact hc
  | some i =>
    obtain ⟨hi, hnone⟩ := freeEntry_some hfree
    obtain ⟨hbase, htable⟩ := addStream_of_free hfree stream identifier
    have hother : ∀ j, j < maxStreams → (c.base j).stream.isSome →
        pidTableIndex (c.base j).identifier ≠ pidTableIndex identifier := by
      intro j hj hlive heq
      have h := (hc.pidTable_iff _ j).mpr ⟨hj, hlive, rfl⟩
      rw [heq, hpid] at h
      exact absurd h (by omega)
    refine ⟨?_, ?_, ?_, ?_⟩
    · intro pid j
      rw [hbase, htable]
      by_cases hj : j = i
      · subst hj
        by_cases hp : pid = pidTableIndex identifier
        · simp [hp, hi]
        · have hold : c.pidTable pid ≠ j + 1 := by
            intro h
            have hlive := ((hc.pidTable_iff pid j).mp h).2.1
            rw [hnone] at hlive
            exact absurd hlive (by simp)
          simp [Function.update_of_ne hp, hold, Ne.symm hp]
      · rw [Function.update_of_ne hj]
        by_cases hp : pid = pidTableIndex identifier
        · subst hp
          rw [Function.update_self]
          constructor
          · intro h
            exact absurd h (by omega)
          · rintro ⟨hlt, hlive, heq⟩
            exact absurd heq (hother j hlt hlive)
        · rw [Function.update_of_ne hp]
          exact hc.pidTable_iff pid j
    · intro j
      rw [hbase]
      by_cases hj : j = i
      · subst hj
        simp
      · rw [Function.update_of_ne hj]
        exact hc.collator_eq j
    · intro j
      have hstreams : ((c.addStream stream identifier).2.streams j).expectedContinuityCount
          = (c.streams j).expectedContinuityCount := by
        simp only [addStream, baseAddStream, hfree, setStream]
        by_cases hj : j = i
        · subst hj
          simp
        · simp [Function.update_of_ne hj]
      rw [hstreams]
      exact hc.count_lt j
    · have hextra : (c.addStream stream identifier).2.bluRayExtraData = c.bluRayExtraData := by
        simp [addStream, baseAddStream, hfree, setStream]
      rw [hextra]
      exact hc.extraData

/-- A context with one stream, on PID `0x11`. -/
def oneStream : Context Char := (createContext.addStream 'v' 0x11).2

theorem oneStream_consistent : oneStream.Consistent :=
  addStream_consistent createContext_consistent rfl

/-- Two packets of PID `0x11` with the count 5; the first announces a discontinuity. -/
def twoPackets : List UInt8 :=
  [0x47, 0x00, 0x11, 0x35, 0x01, 0x80] ++ List.replicate 182 0xaa ++
    ([0x47, 0x00, 0x11, 0x15] ++ List.replicate 184 0xbb)

end Context

end Player2.Demultiplexor
