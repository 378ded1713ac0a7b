import Player2.StartCode

/-! # PES headers

The video collators look for start codes in the data they are given (`FindNextStartCode`) and read
the presentation and decoding times out of the headers of PES packets (`ReadPesHeader`).  Both are
here as functions of the bytes they look at.

`FindNextStartCode` looks at every third byte and decides from it and its neighbours; it finds the
first start code that is not to be ignored (`findNextStartCode_some`, `findNextStartCode_none`). -/

namespace Player2

open StartCode

def inrange (value lower upper : UInt8) : Bool := decide (lower ≤ value) && decide (value ≤ upper)

/-! ### Header macros -/

def isPesStartCodeVideo (code : UInt8) : Bool := code &&& 0xf0 == 0xe0 || code == 0xfd

def isPesStartCodeExtendedStreamId (code : UInt8) : Bool := code == 0xfd

def pesPaddingStartCode : UInt8 := 0xbe

def pesPaddingInitialHeaderSize : ℕ := 6

def pesInitialHeaderSize : ℕ := 9

def zeroStartCodeHeaderSize : ℕ := 7

def pesPaddingSkip (header : List UInt8) : ℕ := (header.getD 4 0).toNat * 256 + (header.getD 5 0).toNat

def pesHeaderSize (header : List UInt8) : ℕ := 9 + (header.getD 8 0).toNat

/-! ### `FindNextStartCode` -/

section
variable (ignored : UInt8 → Bool) (data : List UInt8)

/-- What the loop of `FindNextStartCode` decides at byte `i`. -/
def examine (i : ℕ) : Option ℕ :=
  let d := fun k => data.getD k 0
  if d i ≤ 1 then
    if d (i - 1) = 0 ∧ d (i - 2) = 0 ∧ d i = 1 then
      if ignored (d (i + 1)) then none else some (i - 2)
    else if d (i - 1) = 0 ∧ d (i + 1) = 1 ∧ d i = 0 then
      if ignored (d (i + 2)) then none else some (i - 1)
    else if d (i + 1) = 0 ∧ d (i + 2) = 1 ∧ d i = 0 then
      if ignored (d (i + 3)) then none else some i
    else none
  else none

/-- The loop over the body, `i` going up by three; at most `rounds` of it. -/
def searchBody : ℕ → ℕ → Option ℕ
  | 0, _ => none
  | rounds + 1, i =>
    if i < data.length - 3 then (examine ignored data i).or (searchBody rounds (i + 3)) else none

/-- The trailing conditions. -/
def searchTail : Option ℕ :=
  let n := data.length
  let d := fun k => data.getD k 0
  if d (n - 4) = 0 then
    if d (n - 3) = 0 ∧ d (n - 2) = 1 then
      if ignored (d (n - 1)) then none else some (n - 4)
    else if 5 ≤ n ∧ d (n - 5) = 0 ∧ d (n - 3) = 1 then
      if ignored (d (n - 2)) then none else some (n - 5)
    else none
  else none

/-- `FindNextStartCode`: the offset of the code. -/
def findNextStartCode : Option ℕ :=
  if data.length < 4 then none
  else (searchBody ignored data data.length 2).or (searchTail ignored data)

end

section
variable {ignored : UInt8 → Bool} {data : List UInt8} {i p : ℕ}

theorem examine_some (hi : 2 ≤ i) (hlen : i + 3 < data.length) (h : examine ignored data i = some p) :
    CodeAt ignored data p ∧ i - 2 ≤ p ∧ p ≤ i := by
  have e1 : i - 2 + 1 = i - 1 := by omega
  have e2 : i - 2 + 2 = i := by omega
  have e3 : i - 2 + 3 = i + 1 := by omega
  have e4 : i - 1 + 1 = i := by omega
  have e5 : i - 1 + 2 = i + 1 := by omega
  have e6 : i - 1 + 3 = i + 2 := by omega
  unfold examine at h
  simp only [] at h
  split at h
  · split at h
    · rename_i hc
      split at h
      · cases h
      · rename_i hx
        obtain rfl := Option.some.inj h
        refine ⟨⟨by omega, hc.2.1, ?_, ?_, ?_⟩, by omega, by omega⟩
        · rw [e1]; exact hc.1
        · rw [e2]; exact hc.2.2
        · rw [e3]; simpa using hx
    · split at h
      · rename_i hc
        split at h
        · cases h
        · rename_i hx
          obtain rfl := Option.some.inj h
          refine ⟨⟨by omega, hc.1, ?_, ?_, ?_⟩, by omega, by omega⟩
          · rw [e4]; exact hc.2.2
          · rw [e5]; exact hc.2.1
          · rw [e6]; simpa using hx
      · split at h
        · rename_i hc
          split at h
          · cases h
          · rename_i hx
            obtain rfl := Option.some.inj h
            exact ⟨⟨hlen, hc.2.2, hc.1, hc.2.1, by simpa using hx⟩, by omega, le_rfl⟩
        · cases h
  · cases h

theorem examine_codeAt (hi : 2 ≤ i) (hlo : i - 2 ≤ p) (hhi : p ≤ i) (h : CodeAt ignored data p) :
    examine ignored data i = some p := by
  obtain ⟨-, h0, h1, h2, hx⟩ := h
  have h01 : ((0 : UInt8) = 1) = False := by decide
  have hcase : p = i - 2 ∨ p = i - 1 ∨ p = i := by omega
  have hle0 : (0 : UInt8) ≤ 1 := by decide
  unfold examine
  rcases hcase with rfl | rfl | rfl
  · have e1 : i - 2 + 1 = i - 1 := by omega
    have e2 : i - 2 + 2 = i := by omega
    have e3 : i - 2 + 3 = i + 1 := by omega
    rw [e1] at h1
    rw [e2] at h2
    rw [e3] at hx
    simp only [h0, h1, h2, hx, UInt8.le_refl, and_self, if_true, Bool.false_eq_true, if_false]
  · have e1 : i - 1 + 1 = i := by omega
    have e2 : i - 1 + 2 = i + 1 := by omega
    have e3 : i - 1 + 3 = i + 2 := by omega
    rw [e1] at h1
    rw [e2] at h2
    rw [e3] at hx
    simp only [h0, h1, h2, hx, hle0, h01, and_self, and_false, if_true, Bool.false_eq_true, if_false]
  · simp only [h0, h1, h2, hx, hle0, h01, and_self, and_false, false_and, if_true, Bool.false_eq_true,
      if_false]

theorem searchBody_spec (ignored : UInt8 → Bool) (data : List UInt8) : ∀ (rounds i : ℕ), 2 ≤ i → data.length ≤ i + 3 * rounds →
    (∀ q, q < i - 2 → ¬ CodeAt ignored data q) →
    (∀ p, searchBody ignored data rounds i = some p →
      CodeAt ignored data p ∧ ∀ q < p, ¬ CodeAt ignored data q) ∧
    (searchBody ignored data rounds i = none → ∀ q, q + 5 < data.length → ¬ CodeAt ignored data q)
  | 0, i, hi, hlen, hno => by
      exact ⟨fun p hp => (by cases hp), fun _ q hq => hno q (by omega)⟩
  | rounds + 1, i, hi, hlen, hno => by
      rw [searchBody]
      split
      · cases he : examine ignored data i with
        | some p =>
          obtain ⟨hcode, hlo, hhi⟩ := examine_some hi (by omega) he
          refine ⟨fun p' hp => ?_, fun hnone => by cases hnone⟩
          obtain rfl : p = p' := Option.some.inj hp
          refine ⟨hcode, fun q hq hcq => ?_⟩
          by_cases hq2 : q < i - 2
          · exact hno q hq2 hcq
          · have := examine_codeAt hi (by omega) (by omega) hcq
            rw [he] at this
            have := Option.some.inj this
            omega
        | none =>
          refine searchBody_spec ignored data rounds (i + 3) (by omega) (by omega) fun q hq hcq => ?_
          by_cases hq2 : q < i - 2
          · exact hno q hq2 hcq
          · have := examine_codeAt hi (by omega) (by omega) hcq
            rw [he] at this
            cases this
      · exact ⟨fun p hp => (by cases hp), fun _ q hq => hno q (by omega)⟩

/-- The trailing conditions decide the last two positions. -/
theorem searchTail_spec (hlen : 4 ≤ data.length)
    (hno : ∀ q, q + 5 < data.length → ¬ CodeAt ignored data q) :
    (∀ p, searchTail ignored data = some p → CodeAt ignored data p ∧ ∀ q < p, ¬ CodeAt ignored data q) ∧
    (searchTail ignored data = none → ∀ q, ¬ CodeAt ignored data q) := by
  have hone : (1 : UInt8) ≠ 0 := by decide
  have e1 : data.length - 4 + 1 = data.length - 3 := by omega
  have e2 : data.length - 4 + 2 = data.length - 2 := by omega
  have e3 : data.length - 4 + 3 = data.length - 1 := by omega
  -- the two positions exclude each other
  have hlast : CodeAt ignored data (data.length - 4) ↔ data.getD (data.length - 4) 0 = 0 ∧
      data.getD (data.length - 3) 0 = 0 ∧ data.getD (data.length - 2) 0 = 1 ∧
      ignored (data.getD (data.length - 1) 0) = false := by
    unfold CodeAt
    rw [e1, e2, e3]
    exact ⟨fun h => h.2, fun h => ⟨by omega, h⟩⟩
  have hprev : 5 ≤ data.length → (CodeAt ignored data (data.length - 5) ↔
      data.getD (data.length - 5) 0 = 0 ∧ data.getD (data.length - 4) 0 = 0 ∧
      data.getD (data.length - 3) 0 = 1 ∧ ignored (data.getD (data.length - 2) 0) = false) := by
    intro h5
    have f1 : data.length - 5 + 1 = data.length - 4 := by omega
    have f2 : data.length - 5 + 2 = data.length - 3 := by omega
    have f3 : data.length - 5 + 3 = data.length - 2 := by omega
    unfold CodeAt
    rw [f1, f2, f3]
    exact ⟨fun h => h.2, fun h => ⟨by omega, h⟩⟩
  have hcover : ∀ q, CodeAt ignored data q → q = data.length - 4 ∨ (5 ≤ data.length ∧ q = data.length - 5) := by
    intro q hq
    have h1 := hq.1
    by_cases h2 : q + 5 < data.length
    · exact absurd hq (hno q h2)
    · omega
  unfold searchTail
  simp only []
  split
  · rename_i hz
    split
    · rename_i hc
      have hnot : 5 ≤ data.length → ¬ CodeAt ignored data (data.length - 5) := fun h5 hcq => by
        have := ((hprev h5).mp hcq).2.2.1
        rw [hc.1] at this
        exact hone this.symm
      split
      · rename_i hx
        refine ⟨fun p hp => (by cases hp), fun _ q hq => ?_⟩
        rcases hcover q hq with rfl | ⟨h5, rfl⟩
        · rw [hlast.mp hq |>.2.2.2] at hx
          cases hx
        · exact hnot h5 hq
      · rename_i hx
        refine ⟨fun p hp => ?_, fun h => by cases h⟩
        obtain rfl := Option.some.inj hp
        refine ⟨hlast.mpr ⟨hz, hc.1, hc.2, by simpa using hx⟩, fun q hq hcq => ?_⟩
        rcases hcover q hcq with rfl | ⟨h5, rfl⟩
        · exact absurd hq (Nat.lt_irrefl _)
        · exact hnot h5 hcq
    · rename_i hc
      have hnot : ¬ CodeAt ignored data (data.length - 4) := fun hcq =>
        hc ⟨(hlast.mp hcq).2.1, (hlast.mp hcq).2.2.1⟩
      split
      · rename_i hc5
        split
        · rename_i hx
          refine ⟨fun p hp => (by cases hp), fun _ q hq => ?_⟩
          rcases hcover q hq with rfl | ⟨h5, rfl⟩
          · exact hnot hq
          · rw [((hprev h5).mp hq).2.2.2] at hx
            cases hx
        · rename_i hx
          refine ⟨fun p hp => ?_, fun h => by cases h⟩
          obtain rfl := Option.some.inj hp
          refine ⟨(hprev hc5.1).mpr ⟨hc5.2.1, hz, hc5.2.2, by simpa using hx⟩, fun q hq hcq => ?_⟩
          rcases hcover q hcq with rfl | ⟨h5, rfl⟩
          · omega
          · exact absurd hq (Nat.lt_irrefl _)
      · rename_i hc5
        refine ⟨fun p hp => (by cases hp), fun _ q hq => ?_⟩
        rcases hcover q hq with rfl | ⟨h5, rfl⟩
        · exact hnot hq
        · exact hc5 ⟨h5, ((hprev h5).mp hq).1, ((hprev h5).mp hq).2.2.1⟩
  · rename_i hz
    refine ⟨fun p hp => (by cases hp), fun _ q hq => ?_⟩
    rcases hcover q hq with rfl | ⟨h5, rfl⟩
    · exact hz (hlast.mp hq).1
    · exact hz ((hprev h5).mp hq).2.1

theorem findNextStartCode_some (h : findNextStartCode ignored data = some p) :
    CodeAt ignored data p ∧ ∀ q < p, ¬ CodeAt ignored data q := by
  unfold findNextStartCode at h
  split at h
  · cases h
  obtain ⟨hsome, hnone⟩ := searchBody_spec ignored data data.length 2 le_rfl
    (by omega) (fun q hq => absurd hq (by omega))
  cases hb : searchBody ignored data data.length 2 with
  | some p' =>
    rw [hb] at h
    obtain rfl : p' = p := Option.some.inj h
    exact hsome p' hb
  | none =>
    rw [hb, Option.none_or] at h
    exact (searchTail_spec (by omega) (hnone hb)).1 p h

theorem findNextStartCode_none (h : findNextStartCode ignored data = none) (q : ℕ) :
    ¬ CodeAt ignored data q := by
  unfold findNextStartCode at h
  split at h
  · exact fun hq => absurd hq.1 (by omega)
  obtain ⟨-, hnone⟩ := searchBody_spec ignored data data.length 2 le_rfl
    (by omega) (fun q hq => absurd hq (by omega))
  rw [Option.or_eq_none_iff] at h
  exact (searchTail_spec (by omega) (hnone h.1)).2 h.2 q

end

/-! ### `ReadPesHeader` -/

/-- The bits of a byte string, the most significant bit of each byte first. -/
def bitsOf (bytes : List UInt8) : List Bool :=
  bytes.flatMap fun b => (List.range 8).map fun i => b.toNat.testBit (7 - i)

/-- `BitStreamClass_c` as a reader of a bit string; past the end it reads zeros. -/
abbrev Bits := StateT (List Bool) Option

namespace Bits

/-- `Show`. -/
def look (n : ℕ) (bits : List Bool) : ℕ :=
  (List.range n).foldl (fun value i => 2 * value + (bits.getD i false).toNat) 0

def get (n : ℕ) : Bits ℕ := fun bits => some (look n bits, bits.drop n)

def flushUnseen (n : ℕ) : Bits Unit := fun bits => some ((), bits.drop n)

/-- `MarkerBits`: the header is rejected when they have another value. -/
def markerBits (n v : ℕ) : Bits Unit := do
  if (← get n) ≠ v then failure

/-- The 33 bits of a time, with a marker bit after each of its three parts. -/
def readTime : Bits ℕ := do
  let high ← get 3
  markerBits 1 1
  let middle ← get 15
  markerBits 1 1
  let low ← get 15
  markerBits 1 1
  return high * 2 ^ 30 + middle * 2 ^ 15 + low

end Bits

/-- What a PES header says about the times of its packet. -/
structure PesTimes where
  playbackTime : Option ℕ
  decodeTime : Option ℕ
deriving DecidableEq, Repr

open Bits

/-- The sub stream check on a packet with an extended stream id: skip the other optional fields
and read the sub stream id out of the extension. -/
def checkSubStream (flags : UInt8) (mask code : ℕ) : Bits Unit := do
  if flags &&& 0x20 = 0x20 then flushUnseen 48
  if flags &&& 0x10 = 0x10 then flushUnseen 24
  if flags &&& 0x08 = 0x08 then flushUnseen 8
  if flags &&& 0x04 = 0x04 then flushUnseen 8
  if flags &&& 0x02 = 0x02 then flushUnseen 16
  if flags &&& 0x01 = 0x01 then
    let pesPrivateFlag ← get 1
    let packHeaderFieldFlag ← get 1
    let prgCounterFlag ← get 1
    let pstdFlag ← get 1
    flushUnseen 3
    let pesExtensionFlag2 ← get 1
    flushUnseen ((if pesPrivateFlag ≠ 0 then 128 else 0) + (if packHeaderFieldFlag ≠ 0 then 8 else 0) +
      (if prgCounterFlag ≠ 0 then 16 else 0) + (if pstdFlag ≠ 0 then 16 else 0))
    if pesExtensionFlag2 ≠ 0 then
      flushUnseen 8
      let streamIdExtFlag ← get 1
      if streamIdExtFlag = 0 then
        let subStreamId ← get 7
        if subStreamId &&& mask ≠ code then failure

/-- The fields of a PES header. -/
def readPesFields (header : List UInt8) (mask code : ℕ) : Bits PesTimes := do
  let flags := header.getD 7 0
  let mut playbackTime := none
  let mut decodeTime := none
  if flags &&& 0x80 = 0x80 then
    flushUnseen 4
    playbackTime := some (← readTime)
  if flags &&& 0xC0 = 0xC0 then
    markerBits 4 1
    decodeTime := some (← readTime)
  if isPesStartCodeExtendedStreamId (header.getD 3 0) then checkSubStream flags mask code
  return ⟨playbackTime, decodeTime⟩

/-- The fields of a system stream header, after its stuffing. -/
def readSystemFields : Bits PesTimes := do
  if look 2 (← MonadState.get) = 1 then flushUnseen 16
  let flags ← get 4
  let mut playbackTime := none
  let mut decodeTime := none
  if flags = 2 ∨ flags = 3 then playbackTime := some (← readTime)
  if flags = 3 then
    markerBits 4 1
    decodeTime := some (← readTime)
  return ⟨playbackTime, decodeTime⟩

/-- The part of `ReadPesHeader` that reads the header, given the memory from its first byte on;
`none` when it is rejected. -/
def readPesTimes (header : List UInt8) (mask code : ℕ) : Option PesTimes :=
  if header.getD 6 0 &&& 0xc0 = 0x80 then
    if header.getD 6 0 &&& 0x20 = 0x20 then none
    else ((readPesFields header mask code).run (bitsOf (header.drop 9))).map Prod.fst
  else (readSystemFields.run (bitsOf ((header.drop 6).dropWhile (· = 0xff)))).map Prod.fst

end Player2
