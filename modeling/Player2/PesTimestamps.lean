import Player2.Alignment
import Player2.BitStream
import Player2.Pes

/-! # Time stamps in PES headers

`Collator_Pes_c::ReadPesHeader` reads the presentation and the decoding time out of a stored header, by the
syntax of PES packets or by that of system streams, with the bit stream and with all that it leaves in the
collator: the times, the ones from the packet before (the spanning times), which are popped back when the
header is rejected, and the parameters of the coded frame, which take the times over when nothing has been
accumulated.

`Reaches` follows a program along bits that are known, `Guarded` says what a program does to the times
whatever the bits are. -/

namespace Player2

open BitField

namespace PesTimestamps

/-! ### The collator -/

/-- The times of a packet or of a coded frame. -/
structure Times where
  playbackTimeValid : Bool
  playbackTime : ℕ
  decodeTimeValid : Bool
  decodeTime : ℕ
deriving DecidableEq, Repr

/-- What `ReadPesHeader` reads and writes of the collator; `spanning` holds the fields `Spanning…`. -/
structure Fields where
  times : Times
  spanning : Times
  useSpanningTime : Bool
  pesPacketLength : ℕ
  pesPayloadLength : ℕ
  accumulatedDataSize : ℕ
  codedFrameParameters : Times
deriving DecidableEq, Repr

/-- The collator, with its bit stream. -/
structure State where
  fields : Fields
  bits : BitStream
deriving DecidableEq, Repr

/-- What does not change: the memory, the address of the stored header and the configuration. -/
structure Setting where
  mem : ℕ → UInt8
  storedPesHeader : ℕ
  extendedHeaderLength : ℕ
  subStreamIdentifierMask : ℕ
  subStreamIdentifierCode : ℕ

/-- How `ReadPesHeader` ends early: with `CollatorError`, or not at all, when the stuffing does not end. -/
inductive Exit
  | collatorError
  | endless
deriving DecidableEq, Repr

/-- Statements of `ReadPesHeader`. -/
abbrev Program := EStateM Exit State

/-- The two times. -/
inductive Stamp
  | playback
  | decode
deriving DecidableEq, Repr

namespace Times

/-- Neither of the times is valid. -/
def invalid (t : Times) : Times := { t with playbackTimeValid := false, decodeTimeValid := false }

/-- Write a time. -/
def write (t : Times) (f : ℕ → ℕ) : Stamp → Times
  | .playback => { t with playbackTime := f t.playbackTime }
  | .decode => { t with decodeTime := f t.decodeTime }

/-- A time is valid. -/
def validate (t : Times) : Stamp → Times
  | .playback => { t with playbackTimeValid := true }
  | .decode => { t with decodeTimeValid := true }

end Times

namespace Fields

/-- The old times become the spanning ones. -/
def span (f : Fields) : Fields :=
  { f with times := f.times.invalid, spanning := f.times, useSpanningTime := true }

/-- The spanning times are popped back. -/
def pop (f : Fields) : Fields := { f with times := f.spanning, spanning := f.spanning.invalid }

/-- The times are saved for the next buffer, or used immediately. -/
def settle (f : Fields) : Fields :=
  if f.accumulatedDataSize = 0 then { f with codedFrameParameters := f.times, times := f.times.invalid }
  else f

end Fields

/-! ### `ReadPesHeader` -/

section
variable (env : Setting)

/-- `StoredPesHeader[i]`. -/
def Setting.header (i : ℕ) : UInt8 := env.mem (env.storedPesHeader + i)

/-- Change the fields. -/
def change (f : Fields → Fields) : Program Unit := modify fun s => { s with fields := f s.fields }

/-- `Bits.SetPointer`. -/
def setPointer (pointer : ℕ) : Program Unit := modify fun s => { s with bits := .setPointer env.mem pointer }

/-- `Bits.Get`. -/
def get (n : ℕ) : Program ℕ :=
  modifyGet fun s =>
    let r := s.bits.get env.mem (UInt32.ofNat n)
    (r.1.toNat, { s with bits := r.2 })

/-- `Bits.Show`. -/
def look (n : ℕ) : Program ℕ :=
  modifyGet fun s =>
    let r := s.bits.show' env.mem (UInt32.ofNat n)
    (r.1.toNat, { s with bits := r.2 })

/-- `Bits.Flush`. -/
def flush (n : ℕ) : Program Unit := modify fun s => { s with bits := s.bits.flush (UInt32.ofNat n) }

/-- `Bits.FlushUnseen`. -/
def flushUnseen (n : ℕ) : Program Unit := modify fun s => { s with bits := s.bits.flushUnseen env.mem n }

/-- Pop the spanning values back and leave. -/
def reject : Program Unit := do
  change Fields.pop
  throw .collatorError

def markerBits (n v : ℕ) : Program Unit := do
  if (← get env n) ≠ v then reject

/-- Read a time: three parts with a marker bit after each. -/
def readTime (stamp : Stamp) : Program Unit := do
  let high ← get env 3
  change fun f => { f with times := f.times.write (fun _ => high <<< 30) stamp }
  markerBits env 1 1
  let middle ← get env 15
  change fun f => { f with times := f.times.write (· ||| middle <<< 15) stamp }
  markerBits env 1 1
  let low ← get env 15
  change fun f => { f with times := f.times.write (· ||| low) stamp }
  markerBits env 1 1
  change fun f => { f with times := f.times.validate stamp }

/-- Skip an optional field that is there when its flag is set. -/
def skipOptional (flag : UInt8) (n : ℕ) : Program Unit := do
  if env.header 7 &&& flag = flag then flushUnseen env n

/-- The sub stream check on packets with an extended stream id. -/
def checkSubStream : Program Unit := do
  skipOptional env 0x20 48
  skipOptional env 0x10 24
  skipOptional env 0x08 8
  skipOptional env 0x04 8
  skipOptional env 0x02 16
  if env.header 7 &&& 0x01 = 0x01 then
    let pesPrivateFlag ← get env 1
    let packHeaderFieldFlag ← get env 1
    let prgCounterFlag ← get env 1
    let pstdFlag ← get env 1
    flushUnseen env 3
    let pesExtensionFlag2 ← get env 1
    flushUnseen env ((if pesPrivateFlag ≠ 0 then 128 else 0) + (if packHeaderFieldFlag ≠ 0 then 8 else 0) +
      (if prgCounterFlag ≠ 0 then 16 else 0) + (if pstdFlag ≠ 0 then 16 else 0))
    if pesExtensionFlag2 ≠ 0 then
      flushUnseen env 8
      let streamIdExtFlag ← get env 1
      if streamIdExtFlag = 0 then
        let subStreamId ← get env 7
        if subStreamId &&& env.subStreamIdentifierMask ≠ env.subStreamIdentifierCode then reject

/-- A packet that is flagged as scrambled is rejected. -/
def checkScrambled : Program Unit := do
  if env.header 6 &&& 0x20 = 0x20 then reject

/-- The presentation time of a PES header; its first four bits are not checked. -/
def readPesPlayback : Program Unit := do
  if env.header 7 &&& 0x80 = 0x80 then
    flushUnseen env 4
    readTime env .playback

/-- The decoding time of a PES header. -/
def readPesDecode : Program Unit := do
  if env.header 7 &&& 0xc0 = 0xc0 then
    markerBits env 4 1
    readTime env .decode

/-- The optional fields of a PES header. -/
def readPesFields : Program Unit := do
  setPointer env (env.storedPesHeader + 9)
  checkScrambled env
  readPesPlayback env
  readPesDecode env
  if isPesStartCodeExtendedStreamId (env.header 3) then checkSubStream env

/-- The stuffing of a system stream header. -/
def skipStuffing : ℕ → Program Unit
  | 0 => throw .endless
  | rounds + 1 => do
      if (← look env 8) = 0xff then
        flush 8
        skipStuffing rounds

/-- The scale and the size of the buffer in a system stream header. -/
def skipBufferSize : Program Unit := do
  if (← look env 2) = 0x01 then
    flush 2
    flushUnseen env 1
    flushUnseen env 13

/-- The presentation time of a system stream header. -/
def readSystemPlayback (flags : ℕ) : Program Unit := do
  if flags = 0x02 ∨ flags = 0x03 then readTime env .playback

/-- The decoding time of a system stream header. -/
def readSystemDecode (flags : ℕ) : Program Unit := do
  if flags = 0x03 then
    markerBits env 4 1
    readTime env .decode

/-- The fields of a system stream header. -/
def readSystemFields (rounds : ℕ) : Program Unit := do
  setPointer env (env.storedPesHeader + 6)
  skipStuffing env rounds
  skipBufferSize env
  let flags ← get env 4
  readSystemPlayback env flags
  readSystemDecode env flags

/-- The fields of either header: the upper bits of the seventh byte tell them apart. -/
def readFields (rounds : ℕ) : Program Unit :=
  if env.header 6 &&& 0xc0 = 0x80 then readPesFields env else readSystemFields env rounds

/-- `PesPacketLength` and `PesPayloadLength`, in `unsigned int` arithmetic. -/
def lengths (f : Fields) : Fields :=
  let packetLength := (env.header 4).toNat <<< 8 + (env.header 5).toNat
  { f with
    pesPacketLength := packetLength
    pesPayloadLength :=
      if packetLength ≠ 0 then
        (packetLength + 2 ^ 33 - (env.header 8).toNat - 3 - env.extendedHeaderLength % 2 ^ 32) % 2 ^ 32
      else 0 }

/-- `ReadPesHeader`; at most `rounds` stuffing bytes are looked at. -/
def readPesHeader (rounds : ℕ) : Program Unit := do
  change Fields.span
  change (lengths env)
  readFields env rounds
  change Fields.settle

end

/-! ### Following a program -/

section
variable {α β : Type}

/-- The result of a program, with the state it leaves. -/
def result (s : State) : Except Exit α → EStateM.Result Exit State α
  | .ok a => .ok a s
  | .error e => .error e s

/-- From the fields `f` and any bit stream at the position `p`, the program ends with the result `r`, the
fields `f'` and a bit stream at `p'`. -/
def Reaches (mem : ℕ → UInt8) (x : Program α) (f : Fields) (p : ℕ) (r : Except Exit α) (f' : Fields)
    (p' : ℕ) : Prop :=
  ∀ b, BitStream.At mem b p → ∃ b', BitStream.At mem b' p' ∧ x ⟨f, b⟩ = result ⟨f', b'⟩ r

variable {mem : ℕ → UInt8} {x : Program α} {g : α → Program β} {f f₁ f₂ : Fields} {p p₁ p₂ n v : ℕ}
  {a : α} {r : Except Exit β} {e : Exit}

theorem Reaches.bind (hx : Reaches mem x f p (.ok a) f₁ p₁) (hg : Reaches mem (g a) f₁ p₁ r f₂ p₂) :
    Reaches mem (x >>= g) f p r f₂ p₂ := by
  intro b hb
  obtain ⟨b₁, hb₁, hx⟩ := hx b hb
  obtain ⟨b₂, hb₂, hg⟩ := hg b₁ hb₁
  refine ⟨b₂, hb₂, ?_⟩
  show EStateM.bind x g ⟨f, b⟩ = _
  unfold EStateM.bind
  rw [hx]
  exact hg

variable {y z : Program β}

theorem Reaches.then_branch {c : Prop} [Decidable c] (hc : c)
    (h : Reaches mem y f p r f₁ p₁) : Reaches mem (if c then y else z) f p r f₁ p₁ := by
  rwa [if_pos hc]

theorem Reaches.else_branch {c : Prop} [Decidable c] (hc : ¬ c)
    (h : Reaches mem z f p r f₁ p₁) : Reaches mem (if c then y else z) f p r f₁ p₁ := by
  rwa [if_neg hc]

theorem reaches_pure (a : α) : Reaches mem (pure a) f p (.ok a) f p := fun b hb => ⟨b, hb, rfl⟩

theorem reaches_change (h : Fields → Fields) : Reaches mem (change h) f p (.ok ()) (h f) p :=
  fun b hb => ⟨b, hb, rfl⟩

theorem reaches_reject : Reaches mem reject f p (.error .collatorError) f.pop p :=
  Reaches.bind (reaches_change Fields.pop) fun b hb => ⟨b, hb, rfl⟩

variable {env : Setting}

theorem toNat_ofNat (hn : n ≤ 32) : (UInt32.ofNat n).toNat = n := by
  rw [UInt32.toNat_ofNat', Nat.mod_eq_of_lt (by omega)]

theorem reaches_get (hn : n ≤ 32) :
    Reaches env.mem (get env n) f p (.ok (field (BitStream.bits env.mem) p n)) f (p + n) := by
  intro b hb
  obtain ⟨hvalue, hat⟩ := BitStream.follows_stream env.mem b p n n hb hn le_rfl
  refine ⟨_, hat, ?_⟩
  rw [← hvalue]
  rfl

theorem reaches_flushUnseen (n : ℕ) : Reaches env.mem (flushUnseen env n) f p (.ok ()) f (p + n) :=
  fun _ hb => ⟨_, hb.flushUnseen n, rfl⟩

theorem reaches_look {hit miss : Program β} (hn : n ≤ 32)
    (hhit : field (BitStream.bits env.mem) p n = v → Reaches env.mem hit f (p + n) r f₂ p₂)
    (hmiss : field (BitStream.bits env.mem) p n ≠ v → Reaches env.mem miss f p r f₂ p₂) :
    Reaches env.mem (look env n >>= fun w => if w = v then flush n >>= fun _ => hit else miss) f p r f₂ p₂ := by
  intro b hb
  obtain ⟨hvalue, hat⟩ := BitStream.follows_stream env.mem b p n n hb hn le_rfl
  have hlook : (look env n >>= fun w => if w = v then flush n >>= fun _ => hit else miss) ⟨f, b⟩ =
      (if field (BitStream.bits env.mem) p n = v then flush n >>= fun _ => hit else miss)
        ⟨f, ((BitStream.stream env.mem).show' n b).2⟩ := by
    rw [← hvalue]
    rfl
  rw [hlook]
  by_cases hv : field (BitStream.bits env.mem) p n = v
  · rw [if_pos hv]
    exact hhit hv _ hat
  · rw [if_neg hv]
    refine hmiss hv _ (hb.ensure ?_).1
    rw [toNat_ofNat hn]
    exact hn

theorem reaches_markerBits (hn : n ≤ 32) (h : field (BitStream.bits env.mem) p n = v) :
    Reaches env.mem (markerBits env n v) f p (.ok ()) f (p + n) := by
  refine Reaches.bind (reaches_get hn) ?_
  rw [if_neg (not_not_intro h)]
  exact reaches_pure ()

/-! ### What the headers say -/

/-- The 33 bits of a time, in three parts with marker bits. -/
def timeFields (t : ℕ) : List (ℕ × ℕ) :=
  [(3, t / 2 ^ 30), (1, 1), (15, t / 2 ^ 15), (1, 1), (15, t), (1, 1)]

theorem Times.write_write (t : Times) (h h' : ℕ → ℕ) (stamp : Stamp) :
    (t.write h stamp).write h' stamp = t.write (fun v => h' (h v)) stamp := by
  cases stamp <;> rfl

theorem time_parts {t : ℕ} (ht : t < 2 ^ 33) :
    (t / 2 ^ 30 % 2 ^ 3) <<< 30 ||| (t / 2 ^ 15 % 2 ^ 15) <<< 15 ||| t % 2 ^ 15 = t := by
  have hlow : t % 2 ^ 15 < 2 ^ 15 := Nat.mod_lt _ (by decide)
  have hmiddle : (t / 2 ^ 15 % 2 ^ 15) <<< 15 ||| t % 2 ^ 15 = t % 2 ^ 30 := by
    rw [← Nat.shiftLeft_add_eq_or_of_lt hlow, Nat.shiftLeft_eq]
    omega
  rw [Nat.or_assoc, hmiddle, ← Nat.shiftLeft_add_eq_or_of_lt (Nat.mod_lt _ (by decide)), Nat.shiftLeft_eq]
  omega

variable {l : List (ℕ × ℕ)}

theorem reaches_readTime (stamp : Stamp) {t : ℕ} (ht : t < 2 ^ 33)
    (h : Spells (BitStream.bits env.mem) p (spell (timeFields t ++ l))) :
    Reaches env.mem (readTime env stamp) f p (.ok ())
      { f with times := (f.times.write (fun _ => t) stamp).validate stamp } (p + 36) ∧
    Spells (BitStream.bits env.mem) (p + 36) (spell l) := by
  obtain ⟨hhigh, h⟩ := field_of_spell h
  obtain ⟨hmark, h⟩ := field_of_spell h
  obtain ⟨hmiddle, h⟩ := field_of_spell h
  obtain ⟨hmark', h⟩ := field_of_spell h
  obtain ⟨hlow, h⟩ := field_of_spell h
  obtain ⟨hmark'', h⟩ := field_of_spell h
  refine ⟨?_, h⟩
  refine Reaches.bind (reaches_get (by decide)) ?_
  refine Reaches.bind (reaches_change _) ?_
  refine Reaches.bind (reaches_markerBits (by decide) hmark) ?_
  refine Reaches.bind (reaches_get (by decide)) ?_
  refine Reaches.bind (reaches_change _) ?_
  refine Reaches.bind (reaches_markerBits (by decide) hmark') ?_
  refine Reaches.bind (reaches_get (by decide)) ?_
  refine Reaches.bind (reaches_change _) ?_
  refine Reaches.bind (reaches_markerBits (by decide) hmark'') ?_
  rw [hhigh, hmiddle, hlow]
  have hend : ∀ T, T = f.times.write (fun _ => t) stamp →
      Reaches env.mem (change fun f => { f with times := f.times.validate stamp }) { f with times := T }
        (p + 36) (.ok ()) { f with times := (f.times.write (fun _ => t) stamp).validate stamp } (p + 36) := by
    rintro T rfl
    exact reaches_change _
  refine hend (((f.times.write (fun _ => (t / 2 ^ 30 % 2 ^ 3) <<< 30) stamp).write
    (· ||| (t / 2 ^ 15 % 2 ^ 15) <<< 15) stamp).write (· ||| t % 2 ^ 15) stamp) ?_
  rw [Times.write_write, Times.write_write]
  exact congrArg (fun v => f.times.write (fun _ => v) stamp) (time_parts ht)

/-- The times that a header has. -/
inductive Stamps
  | neither
  | playback (pts : ℕ)
  | both (pts dts : ℕ)
deriving DecidableEq, Repr

namespace Stamps

/-- Times have 33 bits. -/
def WellFormed : Stamps → Prop
  | neither => True
  | playback pts => pts < 2 ^ 33
  | both pts dts => pts < 2 ^ 33 ∧ dts < 2 ^ 33

/-- `PTS_DTS_flags`. -/
def flags : Stamps → UInt8
  | neither => 0
  | playback _ => 0x80
  | both _ _ => 0xc0

/-- The optional fields of a PES header, the first four bits of which are left open. -/
def pesFields (first : ℕ) : Stamps → List (ℕ × ℕ)
  | neither => []
  | playback pts => (4, first) :: timeFields pts
  | both pts dts => (4, first) :: timeFields pts ++ (4, 1) :: timeFields dts

/-- The last fields of a system stream header. -/
def systemFields : Stamps → List (ℕ × ℕ)
  | neither => [(8, 0x0f)]
  | playback pts => (4, 2) :: timeFields pts
  | both pts dts => (4, 3) :: timeFields pts ++ (4, 1) :: timeFields dts

/-- The times after a header. -/
def store (t : Times) : Stamps → Times
  | neither => t.invalid
  | playback pts => ⟨true, pts, false, t.decodeTime⟩
  | both pts dts => ⟨true, pts, true, dts⟩

end Stamps

/-- The stored header is one of a PES packet that is not scrambled. -/
structure PesLayout (env : Setting) (stamps : Stamps) : Prop where
  packet : env.header 6 &&& 0xe0 = 0x80
  flags : env.header 7 &&& 0xc0 = stamps.flags
  fields : ∃ first, Spells (BitStream.bits env.mem) (8 * (env.storedPesHeader + 9)) (spell (stamps.pesFields first))

/-- The scale and the size of the buffer, which a system stream header may have. -/
def bufferFields : Option ℕ → List (ℕ × ℕ)
  | none => []
  | some size => [(2, 1), (14, size)]

/-- The stored header is one of a system stream, with `stuffing` stuffing bytes and possibly with the scale and
the size of the buffer. -/
def SystemLayout (env : Setting) (stuffing : ℕ) (stamps : Stamps) : Prop :=
  ∃ bufferSize : Option ℕ, Spells (BitStream.bits env.mem) (8 * (env.storedPesHeader + 6))
    (spell (List.replicate stuffing (8, 0xff) ++ (bufferFields bufferSize ++ stamps.systemFields)))

/-! ### Sub streams -/

/-- The bits of an optional field. -/
def optionalBits (env : Setting) (flag : UInt8) (n : ℕ) : ℕ := if env.header 7 &&& flag = flag then n else 0

/-- Where the extension of a PES header begins, from the end of its times. -/
def extensionAt (env : Setting) (p : ℕ) : ℕ :=
  p + optionalBits env 0x20 48 + optionalBits env 0x10 24 + optionalBits env 0x08 8 + optionalBits env 0x04 8 +
    optionalBits env 0x02 16

/-- The length in bytes of the pack header in an extension at `e`, where there is one. -/
def packFieldLength (b : ℕ → Bool) (e : ℕ) : ℕ :=
  if field b (e + 1) 1 ≠ 0 then field b (e + 8 + if field b e 1 ≠ 0 then 128 else 0) 8 else 0

/-- The length of the fields between the flags of an extension at `e` and its second part. -/
def extensionFields (b : ℕ → Bool) (e : ℕ) : ℕ :=
  (if field b e 1 ≠ 0 then 128 else 0) +
    ((if field b (e + 1) 1 ≠ 0 then 8 else 0) + 8 * packFieldLength b e) +
    (if field b (e + 2) 1 ≠ 0 then 16 else 0) + (if field b (e + 3) 1 ≠ 0 then 16 else 0)

/-- The extension of a PES header, whose times end at `p`, has a pack header.  The source takes the byte with
the length of a pack header for the whole field. -/
def HasPackHeader (env : Setting) (p : ℕ) : Prop :=
  isPesStartCodeExtendedStreamId (env.header 3) = true ∧ env.header 7 &&& 0x01 = 0x01 ∧
    packFieldLength (BitStream.bits env.mem) (extensionAt env p) ≠ 0

/-- The extension of a PES header, whose times end at `p`, names another sub stream than the configured one. -/
def OtherSubStream (env : Setting) (p : ℕ) : Prop :=
  let b := BitStream.bits env.mem
  let e := extensionAt env p
  let second := e + 8 + extensionFields b e + 8
  isPesStartCodeExtendedStreamId (env.header 3) = true ∧ env.header 7 &&& 0x01 = 0x01 ∧
    field b (e + 7) 1 ≠ 0 ∧ field b second 1 = 0 ∧
      field b (second + 1) 7 &&& env.subStreamIdentifierMask ≠ env.subStreamIdentifierCode

theorem reaches_skipOptional (flag : UInt8) (n : ℕ) :
    Reaches env.mem (skipOptional env flag n) f p (.ok ()) f (p + optionalBits env flag n) := by
  unfold skipOptional optionalBits
  split
  · exact reaches_flushUnseen n
  · exact reaches_pure ()

/-- The program rejects the packet if `other` holds, and leaves the fields `f'` otherwise. -/
def Judges (mem : ℕ → UInt8) (x : Program Unit) (f : Fields) (p : ℕ) (other : Prop) (f' : Fields) : Prop :=
  ∃ p', (other → Reaches mem x f p (.error .collatorError) f.pop p') ∧ (¬ other → Reaches mem x f p (.ok ()) f' p')

theorem Judges.bind {other : Prop} {y : Program α} {g : α → Program Unit} (hy : Reaches mem y f p (.ok a) f₁ p₁)
    (hpop : f₁.pop = f.pop) (hg : Judges mem (g a) f₁ p₁ other f₂) : Judges mem (y >>= g) f p other f₂ := by
  obtain ⟨p', herror, hok⟩ := hg
  exact ⟨p', fun h => hy.bind (hpop ▸ herror h), fun h => hy.bind (hok h)⟩

theorem judges_pass {other : Prop} (h : ¬ other) : Judges mem (pure ()) f p other f :=
  ⟨p, fun h' => absurd h' h, fun _ => reaches_pure ()⟩

theorem Judges.ite {other c : Prop} [Decidable c] {y y' : Program Unit} (h : c → Judges mem y f p other f₂)
    (h' : ¬ c → Judges mem y' f p other f₂) : Judges mem (if c then y else y') f p other f₂ := by
  split
  next hc => exact h hc
  next hc => exact h' hc

theorem judges_checkSubStream (hid : isPesStartCodeExtendedStreamId (env.header 3) = true)
    (hpack : ¬ HasPackHeader env p) : Judges env.mem (checkSubStream env) f p
      (OtherSubStream env p) f := by
  refine Judges.bind (reaches_skipOptional 0x20 48) rfl ?_
  refine Judges.bind (reaches_skipOptional 0x10 24) rfl ?_
  refine Judges.bind (reaches_skipOptional 0x08 8) rfl ?_
  refine Judges.bind (reaches_skipOptional 0x04 8) rfl ?_
  refine Judges.bind (reaches_skipOptional 0x02 16) rfl ?_
  refine Judges.ite (fun hextension => ?_) fun hextension =>
    judges_pass fun h : OtherSubStream env p => hextension h.2.1
  have hempty : packFieldLength (BitStream.bits env.mem) (extensionAt env p) = 0 := by
    by_contra hne
    exact hpack ⟨hid, hextension, hne⟩
  have hflush : Reaches env.mem (flushUnseen env (
      (if field (BitStream.bits env.mem) (extensionAt env p) 1 ≠ 0 then 128 else 0) +
      (if field (BitStream.bits env.mem) (extensionAt env p + 1) 1 ≠ 0 then 8 else 0) +
      (if field (BitStream.bits env.mem) (extensionAt env p + 2) 1 ≠ 0 then 16 else 0) +
      (if field (BitStream.bits env.mem) (extensionAt env p + 3) 1 ≠ 0 then 16 else 0))) f
      (extensionAt env p + 8) (.ok ()) f
      (extensionAt env p + 8 + extensionFields (BitStream.bits env.mem) (extensionAt env p)) := by
    rw [extensionFields, hempty, Nat.mul_zero, Nat.add_zero]
    exact reaches_flushUnseen _
  refine Judges.bind (reaches_get (by decide)) rfl ?_
  refine Judges.bind (reaches_get (by decide)) rfl ?_
  refine Judges.bind (reaches_get (by decide)) rfl ?_
  refine Judges.bind (reaches_get (by decide)) rfl ?_
  refine Judges.bind (reaches_flushUnseen 3) rfl ?_
  refine Judges.bind (reaches_get (by decide)) rfl ?_
  refine Judges.bind hflush rfl ?_
  refine Judges.ite (fun hsecond => ?_) fun hsecond =>
    judges_pass fun h : OtherSubStream env p => hsecond h.2.2.1
  refine Judges.bind (reaches_flushUnseen 8) rfl ?_
  refine Judges.bind (reaches_get (by decide)) rfl ?_
  refine Judges.ite (fun hflag => ?_) fun hflag =>
    judges_pass fun h : OtherSubStream env p => hflag h.2.2.2.1
  refine Judges.bind (reaches_get (by decide)) rfl ?_
  refine Judges.ite (fun hcode => ?_) fun hcode =>
    judges_pass fun h : OtherSubStream env p => hcode h.2.2.2.2
  exact ⟨_, fun _ => reaches_reject, fun h => absurd ⟨hid, hextension, hsecond, hflag, hcode⟩ h⟩

/-! ### PES headers -/

/-- The length of the times in a PES header. -/
def Stamps.pesLength : Stamps → ℕ
  | neither => 0
  | playback _ => 40
  | both _ _ => 80

variable {stamps : Stamps} {t : Times}

theorem reaches_pesTimes (hflags : env.header 7 &&& 0xc0 = stamps.flags) (hw : stamps.WellFormed)
    (hf : f.times = t.invalid) {first : ℕ}
    (h : Spells (BitStream.bits env.mem) p (spell (stamps.pesFields first))) :
    ∃ f₁ p₁, f₁.pop = f.pop ∧ Reaches env.mem (readPesPlayback env) f p (.ok ()) f₁ p₁ ∧
      Reaches env.mem (readPesDecode env) f₁ p₁ (.ok ()) { f with times := stamps.store t }
        (p + stamps.pesLength) := by
  have hhigh : env.header 7 &&& 0x80 = stamps.flags &&& 0x80 := by
    rw [← hflags, UInt8.and_assoc]
    rfl
  unfold readPesPlayback readPesDecode
  rw [hhigh, hflags]
  cases stamps with
  | neither =>
    have hstore : { f with times := Stamps.neither.store t } = f := by
      rw [show Stamps.neither.store t = f.times from hf.symm]
    rw [hstore]
    exact ⟨f, p, rfl, Reaches.else_branch (show ¬ (0 : UInt8) &&& 0x80 = 0x80 by decide) (reaches_pure ()),
      Reaches.else_branch (show ¬ (0 : UInt8) = 0xc0 by decide) (reaches_pure ())⟩
  | playback pts =>
    have hstore : { f with times := (f.times.write (fun _ => pts) .playback).validate .playback } =
        { f with times := (Stamps.playback pts).store t } := by
      rw [hf]
      rfl
    obtain ⟨hread, -⟩ := reaches_readTime (f := f) .playback hw (field_of_spell h).2
    rw [hstore] at hread
    have hdecode : Reaches env.mem (if (Stamps.playback pts).flags = 0xc0 then
        markerBits env 4 1 >>= fun _ => readTime env .decode else pure ())
        { f with times := (Stamps.playback pts).store t } (p + 4 + 36) (.ok ())
        { f with times := (Stamps.playback pts).store t } (p + 4 + 36) :=
      Reaches.else_branch (show ¬ (0x80 : UInt8) = 0xc0 by decide) (reaches_pure ())
    exact ⟨{ f with times := (Stamps.playback pts).store t }, p + 4 + 36, rfl,
      Reaches.then_branch (show (0x80 : UInt8) &&& 0x80 = 0x80 by decide)
        (Reaches.bind (reaches_flushUnseen 4) hread), hdecode⟩
  | both pts dts =>
    have hstore : ∀ f' : Fields, f' = { f with times := (f.times.write (fun _ => pts) .playback).validate .playback } →
        { f' with times := (f'.times.write (fun _ => dts) .decode).validate .decode } =
        { f with times := (Stamps.both pts dts).store t } := by
      rintro f' rfl
      rfl
    obtain ⟨hread, h⟩ := reaches_readTime (f := f) .playback hw.1 (field_of_spell h).2
    obtain ⟨hmark, h⟩ := field_of_spell h
    obtain ⟨hread', -⟩ := reaches_readTime
      (f := { f with times := (f.times.write (fun _ => pts) .playback).validate .playback }) .decode hw.2 h
    exact ⟨{ f with times := (f.times.write (fun _ => pts) .playback).validate .playback }, p + 4 + 36, rfl,
      Reaches.then_branch (show (0xc0 : UInt8) &&& 0x80 = 0x80 by decide)
        (Reaches.bind (reaches_flushUnseen 4) hread),
      Reaches.then_branch (show (0xc0 : UInt8) = 0xc0 from rfl)
        (Reaches.bind (reaches_markerBits (by decide) hmark) hread')⟩

theorem readPesFields_spec (h : PesLayout env stamps) (hw : stamps.WellFormed) (hf : f.times = t.invalid)
    (hpack : ¬ HasPackHeader env (8 * (env.storedPesHeader + 9) + stamps.pesLength)) (b : BitStream) :
    ∃ b', (OtherSubStream env (8 * (env.storedPesHeader + 9) + stamps.pesLength) →
        readPesFields env ⟨f, b⟩ = .error .collatorError ⟨f.pop, b'⟩) ∧
      (¬ OtherSubStream env (8 * (env.storedPesHeader + 9) + stamps.pesLength) →
        readPesFields env ⟨f, b⟩ = .ok () ⟨{ f with times := stamps.store t }, b'⟩) := by
  obtain ⟨hpacket, hflags, first, hfields⟩ := h
  have hscrambled : env.header 6 &&& 0x20 ≠ 0x20 := by
    intro hbit
    have h20 : env.header 6 &&& 0xe0 &&& 0x20 = 0x20 := by
      rw [UInt8.and_assoc]
      exact hbit
    rw [hpacket] at h20
    exact absurd h20 (by decide)
  obtain ⟨f₁, p₁, hpop, hplayback, hdecode⟩ := reaches_pesTimes (f := f) hflags hw hf hfields
  have hcheck : Judges env.mem
      (if isPesStartCodeExtendedStreamId (env.header 3) then checkSubStream env else pure ())
      { f with times := stamps.store t } (8 * (env.storedPesHeader + 9) + stamps.pesLength)
      (OtherSubStream env (8 * (env.storedPesHeader + 9) + stamps.pesLength)) { f with times := stamps.store t } :=
    Judges.ite (judges_checkSubStream · hpack) fun hid =>
      judges_pass fun h : OtherSubStream env (8 * (env.storedPesHeader + 9) + stamps.pesLength) => hid h.1
  have hscrambled' : Reaches env.mem (checkScrambled env) f (8 * (env.storedPesHeader + 9)) (.ok ()) f
      (8 * (env.storedPesHeader + 9)) := by
    unfold checkScrambled
    rw [if_neg hscrambled]
    exact reaches_pure ()
  have hall : Judges env.mem (checkScrambled env >>= fun _ => readPesPlayback env >>= fun _ => readPesDecode env >>=
      fun _ => if isPesStartCodeExtendedStreamId (env.header 3) then checkSubStream env else pure ()) f
      (8 * (env.storedPesHeader + 9)) (OtherSubStream env (8 * (env.storedPesHeader + 9) + stamps.pesLength))
      { f with times := stamps.store t } :=
    Judges.bind hscrambled' rfl (Judges.bind hplayback hpop (Judges.bind hdecode hpop.symm hcheck))
  obtain ⟨p', herror, hok⟩ := hall
  have hstart : BitStream.At env.mem _ _ := BitStream.at_setPointer (env.storedPesHeader + 9)
  by_cases hother : OtherSubStream env (8 * (env.storedPesHeader + 9) + stamps.pesLength)
  · obtain ⟨b', -, heq⟩ := herror hother _ hstart
    exact ⟨b', fun _ => heq, fun h => absurd hother h⟩
  · obtain ⟨b', -, heq⟩ := hok hother _ hstart
    exact ⟨b', fun h => absurd h hother, fun _ => heq⟩

/-! ### System stream headers -/

variable {b : ℕ → Bool}

theorem field_ne_stuffing (h : field b p 2 ≠ 3) : field b p 8 ≠ 0xff := by
  intro heq
  have := field_div b p 2 6
  rw [show 2 + 6 = 8 from rfl, heq] at this
  exact h this.symm

theorem length_spell_replicate {stuffing : ℕ} :
    (spell (List.replicate stuffing (8, 0xff))).length = 8 * stuffing := by
  induction stuffing with
  | zero => rfl
  | succ stuffing ih =>
    rw [List.replicate_succ, spell, List.length_append, length_bitsOf, ih]
    ring

theorem reaches_skipStuffing :
    ∀ stuffing rounds p, Spells (BitStream.bits env.mem) p (spell (List.replicate stuffing (8, 0xff) ++ l)) →
      field (BitStream.bits env.mem) (p + 8 * stuffing) 8 ≠ 0xff → stuffing < rounds →
      Reaches env.mem (skipStuffing env rounds) f p (.ok ()) f (p + 8 * stuffing) ∧
        Spells (BitStream.bits env.mem) (p + 8 * stuffing) (spell l) := by
  intro stuffing
  induction stuffing with
  | zero =>
    intro rounds p h hnext hrounds
    obtain ⟨rounds, rfl⟩ : ∃ m, rounds = m + 1 := ⟨rounds - 1, by omega⟩
    exact ⟨reaches_look (by decide) (fun hv => absurd hv hnext) fun _ => reaches_pure (), h⟩
  | succ stuffing ih =>
    intro rounds p h hnext hrounds
    obtain ⟨rounds, rfl⟩ : ∃ m, rounds = m + 1 := ⟨rounds - 1, by omega⟩
    obtain ⟨hbyte, h⟩ := field_of_spell h
    have hend : p + 8 * (stuffing + 1) = p + 8 + 8 * stuffing := by ring
    rw [hend] at hnext ⊢
    obtain ⟨hskip, hrest⟩ := ih rounds (p + 8) h hnext (by omega)
    exact ⟨reaches_look (by decide) (fun _ => hskip) fun hne => absurd hbyte hne, hrest⟩

theorem field_systemFields (h : Spells b p (spell stamps.systemFields)) : field b p 2 = 0 := by
  have h4 : field b p 4 < 4 := by
    cases stamps with
    | neither =>
      have h8 := (field_of_spell h).1
      have := field_div b p 4 4
      rw [show 4 + 4 = 8 from rfl, h8] at this
      rw [← this]
      decide
    | playback pts =>
      rw [(field_of_spell h).1]
      decide
    | both pts dts =>
      rw [(field_of_spell h).1]
      decide
  have := field_div b p 2 2
  rw [show 2 + 2 = 4 from rfl] at this
  omega

theorem reaches_systemTimes (hw : stamps.WellFormed) (hf : f.times = t.invalid)
    (h : Spells (BitStream.bits env.mem) p (spell stamps.systemFields)) :
    ∃ p', Reaches env.mem (get env 4 >>= fun flags => readSystemPlayback env flags >>= fun _ =>
      readSystemDecode env flags) f p (.ok ()) { f with times := stamps.store t } p' := by
  cases stamps with
  | neither =>
    have hflags : field (BitStream.bits env.mem) p 4 = 0 := by
      have h8 := (field_of_spell h).1
      have := field_div (BitStream.bits env.mem) p 4 4
      rw [show 4 + 4 = 8 from rfl, h8] at this
      exact this.symm
    have hstore : { f with times := Stamps.neither.store t } = f := by
      rw [show Stamps.neither.store t = f.times from hf.symm]
    rw [hstore]
    refine ⟨p + 4, Reaches.bind (reaches_get (by decide)) ?_⟩
    rw [hflags]
    exact Reaches.bind (reaches_pure ()) (reaches_pure ())
  | playback pts =>
    have hstore : { f with times := (f.times.write (fun _ => pts) .playback).validate .playback } =
        { f with times := (Stamps.playback pts).store t } := by
      rw [hf]
      rfl
    obtain ⟨hflags, h⟩ := field_of_spell h
    obtain ⟨hread, -⟩ := reaches_readTime (f := f) .playback hw h
    rw [hstore] at hread
    refine ⟨p + 4 + 36, Reaches.bind (reaches_get (by decide)) ?_⟩
    rw [hflags]
    exact Reaches.bind hread (reaches_pure ())
  | both pts dts =>
    have hstore : ∀ f' : Fields, f' = { f with times := (f.times.write (fun _ => pts) .playback).validate .playback } →
        { f' with times := (f'.times.write (fun _ => dts) .decode).validate .decode } =
        { f with times := (Stamps.both pts dts).store t } := by
      rintro f' rfl
      rfl
    obtain ⟨hflags, h⟩ := field_of_spell h
    obtain ⟨hread, h⟩ := reaches_readTime (f := f) .playback hw.1 h
    obtain ⟨hmark, h⟩ := field_of_spell h
    obtain ⟨hread', -⟩ := reaches_readTime
      (f := { f with times := (f.times.write (fun _ => pts) .playback).validate .playback }) .decode hw.2 h
    refine ⟨p + 4 + 36 + 4 + 36, Reaches.bind (reaches_get (by decide)) ?_⟩
    rw [hflags]
    exact Reaches.bind hread (Reaches.bind (reaches_markerBits (by decide) hmark) hread')

theorem readSystemFields_spec {stuffing rounds : ℕ} (h : SystemLayout env stuffing stamps) (hw : stamps.WellFormed)
    (hf : f.times = t.invalid) (hrounds : stuffing < rounds) (b : BitStream) :
    ∃ b', readSystemFields env rounds ⟨f, b⟩ = .ok () ⟨{ f with times := stamps.store t }, b'⟩ := by
  obtain ⟨bufferSize, h⟩ := h
  have hstart : BitStream.At env.mem _ _ := BitStream.at_setPointer (env.storedPesHeader + 6)
  obtain ⟨-, hrest⟩ := spells_append.mp (spell_append (List.replicate stuffing (8, 0xff)) _ ▸ h)
  have hlength : (spell (List.replicate stuffing (8, 0xff))).length = 8 * stuffing := length_spell_replicate
  rw [hlength] at hrest
  have hbuffer : field (BitStream.bits env.mem) (8 * (env.storedPesHeader + 6) + 8 * stuffing) 2 ≠ 3 ∧
      ∃ p', Reaches env.mem (skipBufferSize env) f (8 * (env.storedPesHeader + 6) + 8 * stuffing) (.ok ()) f p' ∧
        Spells (BitStream.bits env.mem) p' (spell stamps.systemFields) := by
    cases bufferSize with
    | none =>
      have hzero := field_systemFields hrest
      rw [hzero]
      exact ⟨by decide, _, reaches_look (by decide) (fun hv => by omega) fun _ => reaches_pure (), hrest⟩
    | some size =>
      obtain ⟨hone, hrest⟩ := field_of_spell hrest
      obtain ⟨-, hrest⟩ := field_of_spell hrest
      rw [hone]
      exact ⟨by decide, _, reaches_look (by decide)
        (fun _ => Reaches.bind (reaches_flushUnseen 1) (reaches_flushUnseen 13)) fun hne => absurd hone hne, hrest⟩
  obtain ⟨hnext, p', hskipBuffer, hrest⟩ := hbuffer
  obtain ⟨hskip, -⟩ := reaches_skipStuffing (f := f) stuffing rounds _ h (field_ne_stuffing hnext) hrounds
  obtain ⟨p'', htimes⟩ := reaches_systemTimes (f := f) hw hf hrest
  have hall : Reaches env.mem (skipStuffing env rounds >>= fun _ => skipBufferSize env >>= fun _ => get env 4 >>=
      fun flags => readSystemPlayback env flags >>= fun _ => readSystemDecode env flags) f
      (8 * (env.storedPesHeader + 6)) (.ok ()) { f with times := stamps.store t } p'' :=
    Reaches.bind hskip (Reaches.bind hskipBuffer htimes)
  obtain ⟨b', -, heq⟩ := hall _ hstart
  exact ⟨b', heq⟩

end

/-! ### Rejected headers -/

section
variable {α β : Type} {x : Program α} {g : α → Program β} {env : Setting}

/-- What a part of `ReadPesHeader` does, whatever the bits are: it keeps the spanning times and the parameters of
the coded frame, and when it rejects the header, the times are the spanning ones. -/
def Guarded (x : Program α) : Prop :=
  ∀ s, match x s with
    | .ok _ s' => s'.fields.spanning = s.fields.spanning ∧
        s'.fields.codedFrameParameters = s.fields.codedFrameParameters
    | .error e s' => e = .collatorError → s'.fields.times = s.fields.spanning ∧
        s'.fields.codedFrameParameters = s.fields.codedFrameParameters

theorem Guarded.bind (hx : Guarded x) (hg : ∀ a, Guarded (g a)) : Guarded (x >>= g) := by
  intro s
  have hx := hx s
  show match EStateM.bind x g s with
    | .ok _ s' => s'.fields.spanning = s.fields.spanning ∧
        s'.fields.codedFrameParameters = s.fields.codedFrameParameters
    | .error e s' => e = .collatorError → s'.fields.times = s.fields.spanning ∧
        s'.fields.codedFrameParameters = s.fields.codedFrameParameters
  unfold EStateM.bind
  cases hrun : x s with
  | error e s' =>
    rw [hrun] at hx
    exact hx
  | ok a s' =>
    rw [hrun] at hx
    have hg := hg a s'
    rw [hx.1, hx.2] at hg
    exact hg

theorem guarded_pure (a : α) : Guarded (pure a : Program α) := fun _ => ⟨rfl, rfl⟩

theorem guarded_change {h : Fields → Fields} (hspan : ∀ f, (h f).spanning = f.spanning)
    (hcoded : ∀ f, (h f).codedFrameParameters = f.codedFrameParameters) : Guarded (change h) :=
  fun s => ⟨hspan s.fields, hcoded s.fields⟩

theorem guarded_get (n : ℕ) : Guarded (get env n) := fun _ => ⟨rfl, rfl⟩

theorem guarded_look (n : ℕ) : Guarded (look env n) := fun _ => ⟨rfl, rfl⟩

theorem guarded_flush (n : ℕ) : Guarded (flush n) := fun _ => ⟨rfl, rfl⟩

theorem guarded_flushUnseen (n : ℕ) : Guarded (flushUnseen env n) := fun _ => ⟨rfl, rfl⟩

theorem guarded_setPointer (pointer : ℕ) : Guarded (setPointer env pointer) := fun _ => ⟨rfl, rfl⟩

theorem guarded_reject : Guarded reject := fun _ _ => ⟨rfl, rfl⟩

theorem Guarded.ite {c : Prop} [Decidable c] {y : Program α} (h : Guarded x) (h' : Guarded y) :
    Guarded (if c then x else y) := by
  split
  · exact h
  · exact h'

theorem guarded_markerBits (n v : ℕ) : Guarded (markerBits env n v) :=
  (guarded_get n).bind fun _ => guarded_reject.ite (guarded_pure ())

theorem guarded_readTime (stamp : Stamp) : Guarded (readTime env stamp) := by
  refine Guarded.bind (guarded_get 3) fun _ => ?_
  refine Guarded.bind (guarded_change (fun _ => rfl) fun _ => rfl) fun _ => ?_
  refine Guarded.bind (guarded_markerBits 1 1) fun _ => ?_
  refine Guarded.bind (guarded_get 15) fun _ => ?_
  refine Guarded.bind (guarded_change (fun _ => rfl) fun _ => rfl) fun _ => ?_
  refine Guarded.bind (guarded_markerBits 1 1) fun _ => ?_
  refine Guarded.bind (guarded_get 15) fun _ => ?_
  refine Guarded.bind (guarded_change (fun _ => rfl) fun _ => rfl) fun _ => ?_
  refine Guarded.bind (guarded_markerBits 1 1) fun _ => ?_
  exact guarded_change (fun _ => rfl) fun _ => rfl

theorem guarded_skipOptional (flag : UInt8) (n : ℕ) : Guarded (skipOptional env flag n) :=
  (guarded_flushUnseen n).ite (guarded_pure ())

theorem guarded_checkSubStream : Guarded (checkSubStream env) := by
  refine (guarded_skipOptional _ _).bind fun _ => (guarded_skipOptional _ _).bind fun _ => ?_
  refine (guarded_skipOptional _ _).bind fun _ => (guarded_skipOptional _ _).bind fun _ => ?_
  refine (guarded_skipOptional _ _).bind fun _ => Guarded.ite ?_ (guarded_pure ())
  refine (guarded_get 1).bind fun _ => (guarded_get 1).bind fun _ => (guarded_get 1).bind fun _ => ?_
  refine (guarded_get 1).bind fun _ => (guarded_flushUnseen 3).bind fun _ => (guarded_get 1).bind fun _ => ?_
  refine (guarded_flushUnseen _).bind fun _ => Guarded.ite ?_ (guarded_pure ())
  refine (guarded_flushUnseen 8).bind fun _ => (guarded_get 1).bind fun _ => Guarded.ite ?_ (guarded_pure ())
  exact (guarded_get 7).bind fun _ => guarded_reject.ite (guarded_pure ())

theorem guarded_readPesFields : Guarded (readPesFields env) := by
  refine (guarded_setPointer _).bind fun _ => (guarded_reject.ite (guarded_pure ())).bind fun _ => ?_
  refine Guarded.bind (((guarded_flushUnseen 4).bind fun _ => guarded_readTime _).ite (guarded_pure ())) fun _ => ?_
  refine Guarded.bind (((guarded_markerBits 4 1).bind fun _ => guarded_readTime _).ite (guarded_pure ())) fun _ => ?_
  exact guarded_checkSubStream.ite (guarded_pure ())

theorem guarded_skipStuffing (rounds : ℕ) : Guarded (skipStuffing env rounds) := by
  induction rounds with
  | zero => exact fun _ h => (by cases h)
  | succ rounds ih =>
    exact (guarded_look 8).bind fun _ => ((guarded_flush 8).bind fun _ => ih).ite (guarded_pure ())

theorem guarded_skipBufferSize : Guarded (skipBufferSize env) :=
  (guarded_look 2).bind fun _ => ((guarded_flush 2).bind fun _ => (guarded_flushUnseen 1).bind fun _ =>
    guarded_flushUnseen 13).ite (guarded_pure ())

theorem guarded_readSystemFields (rounds : ℕ) : Guarded (readSystemFields env rounds) := by
  refine (guarded_setPointer _).bind fun _ => (guarded_skipStuffing rounds).bind fun _ => ?_
  refine guarded_skipBufferSize.bind fun _ => (guarded_get 4).bind fun _ => ?_
  refine Guarded.bind ((guarded_readTime _).ite (guarded_pure ())) fun _ => ?_
  exact ((guarded_markerBits 4 1).bind fun _ => guarded_readTime _).ite (guarded_pure ())

theorem guarded_readFields (rounds : ℕ) : Guarded (readFields env rounds) :=
  guarded_readPesFields.ite (guarded_readSystemFields rounds)

theorem readPesHeader_rejected {rounds : ℕ} {s s' : State}
    (h : readPesHeader env rounds s = .error .collatorError s') :
    s'.fields.times = s.fields.times ∧ s'.fields.codedFrameParameters = s.fields.codedFrameParameters := by
  have hread := (guarded_readFields rounds : Guarded (readFields env rounds)) ⟨lengths env s.fields.span, s.bits⟩
  have hrun : readPesHeader env rounds s = EStateM.bind (readFields env rounds) (fun _ => change Fields.settle)
      ⟨lengths env s.fields.span, s.bits⟩ := rfl
  rw [hrun] at h
  unfold EStateM.bind at h
  cases hfields : readFields env rounds ⟨lengths env s.fields.span, s.bits⟩ with
  | ok a s₁ =>
    rw [hfields] at h
    cases h
  | error e s₁ =>
    rw [hfields] at h hread
    obtain ⟨rfl, rfl⟩ := EStateM.Result.error.inj h
    exact hread rfl

/-! ### The header as a whole -/

variable {stamps : Stamps} {rounds : ℕ}

/-- The stored header has the syntax of a PES packet, or that of a system stream. -/
def Layout (env : Setting) (rounds : ℕ) (stamps : Stamps) : Prop :=
  PesLayout env stamps ∨ ∃ stuffing < rounds, SystemLayout env stuffing stamps

/-- The header is one of a PES packet that belongs to another sub stream. -/
def Foreign (env : Setting) (stamps : Stamps) : Prop :=
  env.header 6 &&& 0xc0 = 0x80 ∧ OtherSubStream env (8 * (env.storedPesHeader + 9) + stamps.pesLength)

/-- The header is one of a PES packet with a pack header in its extension. -/
def Packed (env : Setting) (stamps : Stamps) : Prop :=
  env.header 6 &&& 0xc0 = 0x80 ∧ HasPackHeader env (8 * (env.storedPesHeader + 9) + stamps.pesLength)

/-- The header has been accepted: its times are in the collator, or, when nothing has been accumulated, in
the parameters of the coded frame. -/
def Accepted (stamps : Stamps) (old new : Fields) : Prop :=
  new.spanning = old.times ∧
    if old.accumulatedDataSize = 0 then
      new.codedFrameParameters = stamps.store old.times ∧ new.times = (stamps.store old.times).invalid
    else new.times = stamps.store old.times ∧ new.codedFrameParameters = old.codedFrameParameters

theorem field_of_packet (h : env.header 6 &&& 0xc0 = 0x80) :
    field (BitStream.bits env.mem) (8 * (env.storedPesHeader + 6)) 2 = 2 := by
  have hbyte : field (BitStream.bits env.mem) (8 * (env.storedPesHeader + 6)) 8 = (env.header 6).toNat :=
    BitStream.field_byte env.mem _
  have hmask := congrArg UInt8.toNat h
  rw [UInt8.toNat_and, show (0xc0 : UInt8).toNat = (2 ^ 2 - 1) <<< 6 from rfl, Alignment.and_shiftLeft_mask,
    Nat.shiftRight_eq_div_pow, Nat.shiftLeft_eq, show (0x80 : UInt8).toNat = 128 from rfl, ← hbyte] at hmask
  have hlt := field_lt (BitStream.bits env.mem) (8 * (env.storedPesHeader + 6)) 8
  rw [← field_div (BitStream.bits env.mem) _ 2 6]
  rw [show 2 + 6 = 8 from rfl]
  omega

theorem SystemLayout.not_packet {stuffing : ℕ} (h : SystemLayout env stuffing stamps) :
    ¬ env.header 6 &&& 0xc0 = 0x80 := by
  intro hpacket
  have htwo := field_of_packet hpacket
  obtain ⟨bufferSize, h⟩ := h
  cases stuffing with
  | zero =>
    cases bufferSize with
    | none =>
      rw [field_systemFields h] at htwo
      cases htwo
    | some size =>
      rw [(field_of_spell h).1] at htwo
      cases htwo
  | succ stuffing =>
    have hdiv := field_div (BitStream.bits env.mem) (8 * (env.storedPesHeader + 6)) 2 6
    rw [show 2 + 6 = 8 from rfl, (field_of_spell h).1, htwo] at hdiv
    cases hdiv

theorem PesLayout.is_packet (h : PesLayout env stamps) : env.header 6 &&& 0xc0 = 0x80 := by
  have hand : env.header 6 &&& 0xe0 &&& 0xc0 = 0x80 &&& 0xc0 := congrArg (· &&& 0xc0) h.packet
  rw [UInt8.and_assoc] at hand
  exact hand

theorem accepted_of_readFields {s : State} {b : BitStream}
    (h : readFields env rounds ⟨lengths env s.fields.span, s.bits⟩ =
      .ok () ⟨{ lengths env s.fields.span with times := stamps.store s.fields.times }, b⟩) :
    ∃ s', readPesHeader env rounds s = .ok () s' ∧ Accepted stamps s.fields s'.fields := by
  refine ⟨⟨Fields.settle { lengths env s.fields.span with times := stamps.store s.fields.times }, b⟩, ?_, ?_⟩
  · show EStateM.bind (readFields env rounds) (fun _ => change Fields.settle)
      ⟨lengths env s.fields.span, s.bits⟩ = _
    unfold EStateM.bind
    rw [h]
    rfl
  · have haccumulated : (lengths env s.fields.span).accumulatedDataSize = s.fields.accumulatedDataSize := rfl
    unfold Accepted Fields.settle
    rw [haccumulated]
    split
    · exact ⟨rfl, rfl, rfl⟩
    · exact ⟨rfl, rfl, rfl⟩

/-- **Time stamps are read faithfully or not at all**: a header that has either syntax, without a pack header
where that is passed over, and does not belong to another sub stream is accepted with exactly its times, valid as its flags say, in the collator or, when
nothing has been accumulated, in the parameters of the coded frame; one that belongs to another sub stream is
rejected; and whatever a rejected header holds, the times and the parameters stay as they were. -/
theorem readPesHeader_faithful (env : Setting) (rounds : ℕ) (s : State) :
    (∀ stamps : Stamps, stamps.WellFormed → Layout env rounds stamps → ¬ Packed env stamps →
      (¬ Foreign env stamps → ∃ s', readPesHeader env rounds s = .ok () s' ∧ Accepted stamps s.fields s'.fields) ∧
      (Foreign env stamps → ∃ s', readPesHeader env rounds s = .error .collatorError s')) ∧
    ∀ s', readPesHeader env rounds s = .error .collatorError s' →
      s'.fields.times = s.fields.times ∧ s'.fields.codedFrameParameters = s.fields.codedFrameParameters := by
  refine ⟨fun stamps hw hlayout hpacked => ?_, fun s' h => readPesHeader_rejected h⟩
  have hf : (lengths env s.fields.span).times = s.fields.times.invalid := rfl
  rcases hlayout with hpes | ⟨stuffing, hrounds, hsystem⟩
  · have hfields : readFields env rounds = readPesFields env := if_pos hpes.is_packet
    obtain ⟨b, herror, hok⟩ := readPesFields_spec hpes hw hf (fun h => hpacked ⟨hpes.is_packet, h⟩) s.bits
    constructor
    · intro hnot
      refine accepted_of_readFields (b := b) ?_
      rw [hfields]
      exact hok fun h => hnot ⟨hpes.is_packet, h⟩
    · rintro ⟨-, hother⟩
      refine ⟨⟨(lengths env s.fields.span).pop, b⟩, ?_⟩
      show EStateM.bind (readFields env rounds) (fun _ => change Fields.settle)
        ⟨lengths env s.fields.span, s.bits⟩ = _
      unfold EStateM.bind
      rw [hfields, herror hother]
  · have hfields : readFields env rounds = readSystemFields env rounds := if_neg hsystem.not_packet
    obtain ⟨b, hok⟩ := readSystemFields_spec hsystem hw hf hrounds s.bits
    refine ⟨fun _ => accepted_of_readFields (b := b) ?_, fun h => absurd h.1 hsystem.not_packet⟩
    rw [hfields]
    exact hok

/-- A stored header of a PES packet with the presentation time 90000, at an aligned address. -/
def storedHeader : Setting where
  mem a := [0, 0, 1, 0xe0, 0, 0, 0x80, 0x80, 5, 0x21, 0, 5, 0xbf, 0x21].getD (a - 64) 0
  storedPesHeader := 64
  extendedHeaderLength := 0
  subStreamIdentifierMask := 0
  subStreamIdentifierCode := 0

/-- A collator that has accumulated nothing. -/
def emptyCollator : State where
  fields := ⟨⟨false, 0, false, 0⟩, ⟨false, 0, false, 0⟩, false, 0, 0, 0, ⟨false, 0, false, 0⟩⟩
  bits := ⟨0, 0, 0⟩

theorem layout_storedHeader : PesLayout storedHeader (.playback 90000) :=
  ⟨by decide, by decide, 2, by decide +kernel⟩

theorem readPesHeader_faithful_storedHeader :
    ∃ s', readPesHeader storedHeader 1 emptyCollator = .ok () s' ∧
      Accepted (.playback 90000) emptyCollator.fields s'.fields :=
  ((readPesHeader_faithful storedHeader 1 emptyCollator).1 (.playback 90000)
    (show 90000 < 2 ^ 33 by decide) (Or.inl layout_storedHeader) fun h => absurd h.2.1 (by decide)).1
    fun h => absurd h.2.1 (by decide)

theorem not_readPesHeader_times :
    ¬ ∀ (env : Setting) (rounds : ℕ) (s : State) (stamps : Stamps), stamps.WellFormed → Layout env rounds stamps →
      ∃ s', readPesHeader env rounds s = .ok () s' ∧ s'.fields.times = stamps.store s.fields.times := by
  intro hall
  obtain ⟨s', hrun, htimes⟩ := hall storedHeader 1 emptyCollator (.playback 90000)
    (show 90000 < 2 ^ 33 by decide) (Or.inl layout_storedHeader)
  -- the time has been used immediately
  have hused : (match readPesHeader storedHeader 1 emptyCollator with
      | .ok _ s' => s'.fields.times.playbackTimeValid
      | .error _ _ => false) = false := by decide +kernel
  rw [hrun] at hused
  dsimp only at hused
  rw [htimes] at hused
  cases hused

end

end PesTimestamps

end Player2
