import Player2.BitStream
import Player2.EmulationPrevention

/-! # The anti-emulation buffer

The video frame parsers read headers out of a small buffer, into which `CheckAntiEmulationBuffer` copies the
source without its emulation prevention bytes, as far as it is asked to.  What has not been read is kept
between two calls, either where it is or shuffled down to the beginning of the buffer.

A write past the end of the buffer is no result (`none`).  The loop counts one byte for a code but copies
two, so that a source with many codes is copied beyond the end, however much room the request seems to
leave; `Fits` says when it is not.  As long as every request fits, the reads give what they give on the
source after one pass (`perform_follows`). -/

namespace Player2

open BitField

namespace AntiEmulation

def antiEmulationBufferSize : ℕ := 1024

/-- What the functions read and write of the parser: the memory around the buffer, the number of bytes in it,
the position in the source and the bit stream. -/
structure Parser where
  mem : ℕ → UInt8
  antiEmulationContent : ℕ
  antiEmulationSource : ℕ
  bits : BitStream

namespace Parser

variable (src : ℕ → UInt8) (base : ℕ)

/-! ### The functions -/

/-- `LoadAntiEmulationBuffer`, with the buffer at the address `base`. -/
def loadAntiEmulationBuffer (mem : ℕ → UInt8) : Parser where
  mem := mem
  antiEmulationContent := 0
  antiEmulationSource := 0
  bits := .setPointer mem base

/-- `Pointer - AntiEmulationBuffer`, as an `unsigned int`: the bytes before the one with the next bit. -/
def bytesBefore (s : Parser) : ℕ :=
  (((s.bits.bitsData : ℤ) - ((s.bits.bitsAvailable + 7).toNat / 8 : ℕ) - base) % 2 ^ 32).toNat

/-- `BitsInByte != 8`. -/
def inByte (s : Parser) : ℕ := if s.bits.getPosition.2 ≠ 8 then 1 else 0

def testAntiEmulationBuffer (s : Parser) : Bool :=
  let bytesUsed := (s.bytesBefore base + s.inByte) % 2 ^ 32
  !(bytesUsed ≠ 0 && decide (s.antiEmulationContent < bytesUsed))

def untouchedBytesInBuffer (s : Parser) : ℕ :=
  if s.antiEmulationContent ≠ 0 then
    (((s.antiEmulationContent : ℤ) - s.bytesBefore base - s.inByte) % 2 ^ 32).toNat
  else 0

/-- Copy `n` bytes of the source to the end of the content, and go on in the source by `m`. -/
def append (n m : ℕ) (s : Parser) : Option Parser :=
  let start := base + s.antiEmulationContent
  if s.antiEmulationContent + n ≤ antiEmulationBufferSize then
    some { s with
      mem := fun a => if start ≤ a ∧ a < start + n then src (s.antiEmulationSource + (a - start)) else s.mem a
      antiEmulationContent := s.antiEmulationContent + n
      antiEmulationSource := s.antiEmulationSource + m }
  else none

/-- The loop over the source, with `j` bytes that have not been copied yet. -/
def refill : ℕ → ℕ → Parser → Option (ℕ × Parser)
  | 0, j, s => some (j, s)
  | rounds + 1, j, s =>
    if EmulationPrevention.CodeAt src (s.antiEmulationSource + j) then
      (s.append src base (j + 2) (j + 3)).bind (refill rounds 0)
    else refill rounds (j + 1) s

/-- The loop that shuffles down the bytes from `pointer` on. -/
def shuffle (pointer : ℕ) : ℕ → (ℕ → UInt8) → ℕ → UInt8
  | 0, mem => mem
  | n + 1, mem =>
    let mem := shuffle pointer n mem
    Function.update mem (base + n) (mem (pointer + n))

/-- Copy what the loop has left. -/
def appendRest (j : ℕ) (s : Parser) : Option Parser := if j ≠ 0 then s.append src base j j else some s

/-- The rest of `CheckAntiEmulationBuffer`: fill the buffer, and set the bit stream. -/
def fill (untouched size newBase bitsInByte : ℕ) (s : Parser) : Option Parser :=
  (s.refill src base (size + 3 - untouched) 0).bind fun r =>
    (r.2.appendRest src base r.1).map fun s =>
      { s with bits := (BitStream.setPointer s.mem newBase).flushUnseen s.mem (8 - bitsInByte) }

def checkAntiEmulationBuffer (size : ℕ) (s : Parser) : Option Parser :=
  if antiEmulationBufferSize - 16 < size then some s
  else if s.antiEmulationContent ≠ 0 then
    if s.testAntiEmulationBuffer base = false then some s
    else
      let untouched := s.untouchedBytesInBuffer base
      let pointer := s.bits.getPosition.1
      let bitsInByte := s.bits.getPosition.2
      if size ≤ untouched then some s
      else if antiEmulationBufferSize < (s.bytesBefore base + size + 16) % 2 ^ 32 then
        let content := untouched + s.inByte
        { s with antiEmulationContent := content, mem := shuffle base pointer content s.mem }.fill src base
          untouched size base bitsInByte
      else s.fill src base untouched size pointer bitsInByte
  else s.fill src base 0 size base 8

/-- A read of bits. -/
def read (x : BitProgram ℕ) (s : Parser) : ℕ × Parser :=
  let r := x.runOn (BitStream.stream s.mem) s.bits
  (r.1, { s with bits := r.2 })

/-! ### Filling the buffer -/

open EmulationPrevention

section
variable {src : ℕ → UInt8} {base dropped j k n m size newBase : ℕ} {s : Parser}

/-- The content is a part of the result of the one pass, from the byte number `dropped` on. -/
def Holds (src : ℕ → UInt8) (base dropped : ℕ) (s : Parser) : Prop :=
  ∀ x < s.antiEmulationContent, s.mem (base + x) = removed src (dropped + x)

/-- What the loop keeps: the `j` bytes ahead belong to the result, too. -/
structure Walks (src : ℕ → UInt8) (base dropped j : ℕ) (s : Parser) : Prop where
  holds : Holds src base dropped s
  ahead : ∀ x < j, removed src (dropped + s.antiEmulationContent + x) = src (s.antiEmulationSource + x)
  loaded : Loaded src (dropped + s.antiEmulationContent + j) (s.antiEmulationSource + j)

theorem append_spec (hholds : Holds src base dropped s)
    (hahead : ∀ x < n, removed src (dropped + s.antiEmulationContent + x) = src (s.antiEmulationSource + x))
    (hroom : s.antiEmulationContent + n ≤ antiEmulationBufferSize) :
    ∃ s', s.append src base n m = some s' ∧ Holds src base dropped s' ∧ s'.bits = s.bits ∧
      s'.antiEmulationContent = s.antiEmulationContent + n ∧
      s'.antiEmulationSource = s.antiEmulationSource + m := by
  refine ⟨_, if_pos hroom, fun x hx => ?_, rfl, rfl, rfl⟩
  dsimp only at hx ⊢
  split
  next hin =>
    rw [show base + x - (base + s.antiEmulationContent) = x - s.antiEmulationContent by omega,
      ← hahead _ (by omega)]
    exact congrArg (removed src) (by omega)
  next hout => exact hholds x (by omega)

/-- The loop stays within the buffer when the bytes that it counts and the codes that it meets do. -/
theorem refill_spec :
    ∀ rounds j s, Walks src base dropped j s →
      s.antiEmulationContent + j + rounds + codes src rounds (s.antiEmulationSource + j) ≤ antiEmulationBufferSize →
      ∃ j' s', s.refill src base rounds j = some (j', s') ∧ Walks src base dropped j' s' ∧ s'.bits = s.bits ∧
        s'.antiEmulationContent + j' =
          s.antiEmulationContent + j + rounds + codes src rounds (s.antiEmulationSource + j) := by
  intro rounds
  induction rounds with
  | zero => exact fun j s hw hroom => ⟨j, s, rfl, hw, rfl, rfl⟩
  | succ rounds ih =>
    intro j s hw hroom
    rw [codes] at hroom
    rw [refill, codes]
    split at hroom
    next hcode =>
      rw [if_pos hcode, if_pos hcode]
      obtain ⟨hsecond, hloaded⟩ := hw.loaded.remove hcode
      have hahead : ∀ x < j + 2, removed src (dropped + s.antiEmulationContent + x) =
          src (s.antiEmulationSource + x) := by
        intro x hx
        rcases Nat.lt_trichotomy x j with h | rfl | h
        · exact hw.ahead x h
        · exact hw.loaded.removed_eq
        · obtain rfl : x = j + 1 := by omega
          exact hsecond
      obtain ⟨s', happend, hholds, hbits, hcontent, hsource⟩ :=
        append_spec (m := j + 3) hw.holds hahead (by omega)
      have hw' : Walks src base dropped 0 s' := by
        refine ⟨hholds, fun x hx => by omega, ?_⟩
        rw [hcontent, hsource, show dropped + (s.antiEmulationContent + (j + 2)) + 0 =
          dropped + s.antiEmulationContent + j + 2 by omega]
        exact hloaded
      have hstart : s'.antiEmulationSource + 0 = s.antiEmulationSource + j + 3 := by omega
      rw [← hstart] at hroom ⊢
      obtain ⟨j', s'', hrefill, hw'', hbits', hend⟩ := ih 0 s' hw' (by omega)
      refine ⟨j', s'', ?_, hw'', hbits'.trans hbits, by omega⟩
      rw [happend]
      exact hrefill
    next hcode =>
      rw [if_neg hcode, if_neg hcode]
      rw [Nat.add_assoc s.antiEmulationSource] at hroom ⊢
      have hw' : Walks src base dropped (j + 1) s := by
        refine ⟨hw.holds, fun x hx => ?_, hw.loaded.copy hcode⟩
        rcases Nat.lt_succ_iff_lt_or_eq.mp hx with h | rfl
        · exact hw.ahead x h
        · exact hw.loaded.removed_eq
      obtain ⟨j', s', hrefill, hw'', hbits, hend⟩ := ih (j + 1) s hw' (by omega)
      exact ⟨j', s', hrefill, hw'', hbits, by omega⟩

/-- Where a read is: the content and the source belong together, and the bit stream is at the bit number
`position` of the result of the one pass. -/
structure Follows (src : ℕ → UInt8) (base dropped position : ℕ) (s : Parser) : Prop where
  holds : Holds src base dropped s
  loaded : Loaded src (dropped + s.antiEmulationContent) s.antiEmulationSource
  at_position : BitStream.At s.mem s.bits (8 * base + (position - 8 * dropped))
  dropped_le : 8 * dropped ≤ position
  le_loaded : position ≤ 8 * (dropped + s.antiEmulationContent)
  content_le : s.antiEmulationContent ≤ antiEmulationBufferSize

/-- Filling the buffer sets the bit stream to the bit it was at. -/
theorem fill_spec (newBase untouched : ℕ) {position : ℕ} (hholds : Holds src base dropped s)
    (hloaded : Loaded src (dropped + s.antiEmulationContent) s.antiEmulationSource)
    (hnew : 8 * newBase + position % 8 = 8 * base + (position - 8 * dropped))
    (hdropped : 8 * dropped ≤ position) (hle : position ≤ 8 * (dropped + s.antiEmulationContent))
    (hroom : s.antiEmulationContent + (size + 3 - untouched) +
      codes src (size + 3 - untouched) s.antiEmulationSource ≤ antiEmulationBufferSize) :
    ∃ s', s.fill src base untouched size newBase (8 - position % 8) = some s' ∧ Follows src base dropped position s' ∧
      s.antiEmulationContent + (size + 3 - untouched) ≤ s'.antiEmulationContent := by
  have hw : Walks src base dropped 0 s := ⟨hholds, fun x hx => by omega, hloaded⟩
  obtain ⟨j, s', hrefill, hw', hbits, hend⟩ := refill_spec (size + 3 - untouched) 0 s hw hroom
  simp only [Nat.add_zero] at hend
  have hrest : ∃ s'', s'.appendRest src base j = some s'' ∧ Holds src base dropped s'' ∧
      s''.antiEmulationContent = s'.antiEmulationContent + j ∧
      s''.antiEmulationSource = s'.antiEmulationSource + j := by
    unfold appendRest
    by_cases hj : j = 0
    · rw [if_neg (not_not_intro hj), hj]
      exact ⟨s', rfl, hw'.holds, rfl, rfl⟩
    · rw [if_pos hj]
      obtain ⟨s'', happend, hholds', -, hcontent, hsource⟩ :=
        append_spec (m := j) hw'.holds hw'.ahead (by omega)
      exact ⟨s'', happend, hholds', hcontent, hsource⟩
  obtain ⟨s'', happend, hholds', hcontent, hsource⟩ := hrest
  have hflush : 8 - (8 - position % 8) = position % 8 := by omega
  refine ⟨{ s'' with bits := (BitStream.setPointer s''.mem newBase).flushUnseen s''.mem (position % 8) }, ?_,
    ⟨hholds', ?_, ?_, hdropped, ?_, ?_⟩, ?_⟩
  · unfold fill
    rw [hrefill, Option.bind_some, happend, hflush]
    rfl
  · rw [hcontent, hsource, ← Nat.add_assoc]
    exact hw'.loaded
  · rw [← hnew]
    exact (BitStream.at_setPointer newBase).flushUnseen _
  · dsimp only
    omega
  · dsimp only
    omega
  · dsimp only
    omega

/-! ### A request -/

/-- The bytes that a request keeps in the buffer. -/
def kept (base size : ℕ) (s : Parser) : ℕ :=
  if antiEmulationBufferSize < (s.bytesBefore base + size + 16) % 2 ^ 32 then
    s.untouchedBytesInBuffer base + s.inByte
  else s.antiEmulationContent

/-- A request is supported, and what it copies fits into the buffer behind what it keeps: as many bytes as the
loop counts, and one more for each code that it meets. -/
def Fits (src : ℕ → UInt8) (base size : ℕ) (s : Parser) : Prop :=
  let count := size + 3 - s.untouchedBytesInBuffer base
  size ≤ antiEmulationBufferSize - 16 ∧
    (size ≤ s.untouchedBytesInBuffer base ∨
      s.kept base size + count + codes src count s.antiEmulationSource ≤ antiEmulationBufferSize)

instance (src : ℕ → UInt8) (base size : ℕ) (s : Parser) : Decidable (Fits src base size s) := by
  unfold Fits; infer_instance

theorem shuffle_apply {mem : ℕ → UInt8} {pointer : ℕ} (hle : base ≤ pointer) (n a : ℕ) :
    shuffle base pointer n mem a = if base ≤ a ∧ a < base + n then mem (pointer + (a - base)) else mem a := by
  induction n generalizing a with
  | zero => exact (if_neg (by omega)).symm
  | succ n ih =>
    rw [shuffle]
    by_cases ha : a = base + n
    · subst ha
      rw [Function.update_self, if_pos (by omega), ih]
      -- what is read has not been written before
      rw [show base + n - base = n by omega]
      split
      next hin => omega
      next => rfl
    · rw [Function.update_of_ne ha, ih]
      by_cases hin : base ≤ a ∧ a < base + n
      · rw [if_pos hin, if_pos (by omega)]
      · rw [if_neg hin, if_neg (by omega)]

variable {position : ℕ}

theorem Follows.getPosition (h : Follows src base dropped position s) :
    s.bits.getPosition = (base + (position - 8 * dropped) / 8, 8 - position % 8) := by
  have hle := h.dropped_le
  rw [h.at_position.getPosition]
  refine Prod.ext ?_ ?_
  · omega
  · omega

theorem Follows.bytesBefore (h : Follows src base dropped position s) :
    s.bytesBefore base = (position - 8 * dropped) / 8 := by
  have hround := h.at_position.toNat_add_seven
  have hplace := h.at_position.position
  have hdropped := h.dropped_le
  have hle := h.le_loaded
  have hcontent := h.content_le
  have hbuffer : antiEmulationBufferSize = 1024 := rfl
  unfold Parser.bytesBefore
  omega

theorem Follows.inByte (h : Follows src base dropped position s) :
    s.inByte = if position % 8 = 0 then 0 else 1 := by
  unfold Parser.inByte
  rw [h.getPosition]
  split <;> split <;> omega

theorem Follows.bytesUsed (h : Follows src base dropped position s) :
    dropped + s.bytesBefore base + s.inByte = (position + 7) / 8 := by
  have hle := h.dropped_le
  rw [h.bytesBefore, h.inByte]
  split <;> omega

theorem Follows.untouched (h : Follows src base dropped position s) :
    s.untouchedBytesInBuffer base + (position + 7) / 8 = dropped + s.antiEmulationContent := by
  have hused := h.bytesUsed
  have hle := h.le_loaded
  have hcontent := h.content_le
  have hbuffer : antiEmulationBufferSize = 1024 := rfl
  unfold Parser.untouchedBytesInBuffer
  split
  next => omega
  next hzero => omega

theorem Follows.sum_eq (h : Follows src base dropped position s) (hsize : size ≤ antiEmulationBufferSize - 16) :
    (s.bytesBefore base + size + 16) % 2 ^ 32 = s.bytesBefore base + size + 16 := by
  have hused := h.bytesUsed
  have hle := h.le_loaded
  have hcontent := h.content_le
  have hbuffer : antiEmulationBufferSize = 1024 := rfl
  exact Nat.mod_eq_of_lt (by omega)

theorem Follows.test (h : Follows src base dropped position s) : s.testAntiEmulationBuffer base = true := by
  have hused := h.bytesUsed
  have hle := h.le_loaded
  unfold Parser.testAntiEmulationBuffer
  have hnot : ¬ s.antiEmulationContent < (s.bytesBefore base + s.inByte) % 2 ^ 32 := by omega
  simp only [hnot, decide_false, Bool.and_false, Bool.not_false]

/-- A request that fits loads what it asks for, and does not move the position. -/
theorem check_spec (h : Follows src base dropped position s) (hfits : Fits src base size s) :
    ∃ dropped' s', s.checkAntiEmulationBuffer src base size = some s' ∧ Follows src base dropped' position s' ∧
      position + 8 * size ≤ 8 * (dropped' + s'.antiEmulationContent) := by
  obtain ⟨hsupported, hroom⟩ := hfits
  have hused := h.bytesUsed
  have huntouched := h.untouched
  have hdropped := h.dropped_le
  have hle := h.le_loaded
  have hbefore := h.bytesBefore
  have hsize : antiEmulationBufferSize = 1024 := rfl
  have hcodes := codes_le src (size + 3) s.antiEmulationSource
  unfold checkAntiEmulationBuffer
  rw [if_neg (by omega)]
  by_cases hempty : s.antiEmulationContent = 0
  · -- the first request
    rw [if_neg (not_not_intro hempty)]
    have hposition : position % 8 = 0 := by omega
    have hzero : s.untouchedBytesInBuffer base = 0 := if_neg (not_not_intro hempty)
    have hkept : s.kept base size = 0 := by
      unfold kept
      rw [h.sum_eq hsupported, if_neg (by omega)]
      exact hempty
    have hroom' : s.antiEmulationContent + (size + 3 - 0) + codes src (size + 3 - 0) s.antiEmulationSource ≤
        antiEmulationBufferSize := by
      rw [Nat.sub_zero]
      rw [hzero, hkept, Nat.sub_zero] at hroom
      omega
    obtain ⟨s', hfill, hfollows, hcontent⟩ := fill_spec base 0 h.holds h.loaded (by omega) hdropped hle hroom'
    rw [hposition] at hfill
    exact ⟨dropped, s', hfill, hfollows, by omega⟩
  rw [if_pos hempty, if_neg (by rw [h.test]; decide)]
  by_cases henough : size ≤ s.untouchedBytesInBuffer base
  · rw [if_pos henough]
    exact ⟨dropped, s, rfl, h, by omega⟩
  rw [if_neg henough]
  have hroom := hroom.resolve_left henough
  unfold kept at hroom
  rw [h.sum_eq hsupported] at hroom ⊢
  rw [h.getPosition]
  by_cases hshuffle : antiEmulationBufferSize < s.bytesBefore base + size + 16
  · rw [if_pos hshuffle]
    rw [if_pos hshuffle] at hroom
    have hend : dropped + (position - 8 * dropped) / 8 + (s.untouchedBytesInBuffer base + s.inByte) =
        dropped + s.antiEmulationContent := by omega
    have hholds : Holds src base (dropped + (position - 8 * dropped) / 8) { s with
        antiEmulationContent := s.untouchedBytesInBuffer base + s.inByte
        mem := shuffle base (base + (position - 8 * dropped) / 8) (s.untouchedBytesInBuffer base + s.inByte)
          s.mem } := by
      intro x hx
      dsimp only at hx ⊢
      rw [shuffle_apply (Nat.le_add_right _ _), if_pos (by omega), Nat.add_sub_cancel_left, Nat.add_assoc,
        h.holds _ (by omega), Nat.add_assoc]
    obtain ⟨s', hfill, hfollows, hcontent⟩ := fill_spec base (s.untouchedBytesInBuffer base) hholds
      (hend ▸ h.loaded) (by omega) (by omega) (hend ▸ hle) hroom
    exact ⟨_, s', hfill, hfollows, by dsimp only at hcontent; omega⟩
  · rw [if_neg hshuffle]
    rw [if_neg hshuffle] at hroom
    obtain ⟨s', hfill, hfollows, hcontent⟩ := fill_spec (base + (position - 8 * dropped) / 8)
      (s.untouchedBytesInBuffer base) h.holds h.loaded (by omega) hdropped hle hroom
    exact ⟨dropped, s', hfill, hfollows, by omega⟩

/-! ### Reads -/

theorem Follows.bits_eq (h : Follows src base dropped position s) {i : ℕ}
    (hi : position + i < 8 * (dropped + s.antiEmulationContent)) :
    BitStream.bits (removed src) (position + i) = BitStream.bits s.mem (8 * base + (position - 8 * dropped) + i) := by
  have hdropped := h.dropped_le
  have hbyte : s.mem ((8 * base + (position - 8 * dropped) + i) / 8) = removed src ((position + i) / 8) := by
    rw [show (8 * base + (position - 8 * dropped) + i) / 8 = base + (position - 8 * dropped + i) / 8 by omega,
      h.holds _ (by omega)]
    exact congrArg (removed src) (by omega)
  unfold BitStream.bits
  rw [hbyte, show (8 * base + (position - 8 * dropped) + i) % 8 = (position + i) % 8 by omega]

theorem read_spec (h : Follows src base dropped position s) {x : BitProgram ℕ} {limit : ℕ}
    (hfits : x.Fits 32 (BitStream.bits (removed src)) position)
    (hwithin : x.Within limit (BitStream.bits (removed src)) position)
    (hlimit : limit ≤ 8 * (dropped + s.antiEmulationContent)) :
    (s.read x).1 = (x.run (BitStream.bits (removed src)) position).1 ∧
      Follows src base dropped (x.run (BitStream.bits (removed src)) position).2 (s.read x).2 := by
  have hdropped := h.dropped_le
  have hbits : ∀ i, position + i < limit → BitStream.bits (removed src) (position + i) =
      BitStream.bits s.mem (8 * base + (position - 8 * dropped) + i) := fun i hi => h.bits_eq (by omega)
  obtain ⟨hvalue, hend, hfits'⟩ : _ ∧ _ ∧ (x.Fits 32 _ _ → x.Fits 32 _ _) :=
    BitProgram.run_congr x hwithin hbits
  obtain ⟨hvalue', hat⟩ := BitStream.runOn_stream x h.at_position (hfits' hfits)
  have hle := BitProgram.Within.run_le x hwithin
  have hge := BitProgram.Within.le_run x hwithin
  refine ⟨hvalue'.trans hvalue, h.holds, h.loaded, ?_, by omega, ?_, h.content_le⟩
  · rw [show 8 * base + ((x.run (BitStream.bits (removed src)) position).2 - 8 * dropped) =
      (x.run (BitStream.bits s.mem) (8 * base + (position - 8 * dropped))).2 by omega]
    exact hat
  · exact hle.trans hlimit

end

/-! ### Runs -/

/-- A request, or a read of bits. -/
inductive Call
  | check (size : ℕ)
  | read (x : BitProgram ℕ)

/-- The calls after the buffer has been loaded: the values that are read, and the parser after it. -/
def perform (src : ℕ → UInt8) (base : ℕ) : List Call → Parser → Option (List ℕ × Parser)
  | [], s => some ([], s)
  | .check size :: calls, s => (s.checkAntiEmulationBuffer src base size).bind (perform src base calls)
  | .read x :: calls, s =>
    (perform src base calls (s.read x).2).map fun r => ((s.read x).1 :: r.1, r.2)

/-- The same reads on the result of the one pass: the values, and the position after them. -/
def onePass (src : ℕ → UInt8) : List Call → ℕ → List ℕ × ℕ
  | [], p => ([], p)
  | .check _ :: calls, p => onePass src calls p
  | .read x :: calls, p =>
    let r := x.run (BitStream.bits (removed src)) p
    let rest := onePass src calls r.2
    (r.1 :: rest.1, rest.2)

/-- After a request for `n` bytes, bits are read up to `n` bytes further on, at most 32 at a time. -/
def Modest (src : ℕ → UInt8) : List Call → ℕ → ℕ → Prop
  | [], _, _ => True
  | .check size :: calls, p, _ => Modest src calls p (p + 8 * size)
  | .read x :: calls, p, limit =>
    x.Fits 32 (BitStream.bits (removed src)) p ∧ x.Within limit (BitStream.bits (removed src)) p ∧
      Modest src calls (x.run (BitStream.bits (removed src)) p).2 limit

/-- Every request of the run fits. -/
def AllFit (src : ℕ → UInt8) (base : ℕ) : List Call → Parser → Prop
  | [], _ => True
  | .check size :: calls, s =>
    Fits src base size s ∧ ∀ s', s.checkAntiEmulationBuffer src base size = some s' → AllFit src base calls s'
  | .read x :: calls, s => AllFit src base calls (s.read x).2

/-- What `GetPosition` reports fits the source: what has been consumed of it are the bytes up to the current one,
and those that have not been touched; and in the current byte as many bits are left as are to be. -/
def Accounts (src : ℕ → UInt8) (base position : ℕ) (s : Parser) : Prop :=
  s.antiEmulationSource = sourceLength src ((position + 7) / 8 + s.untouchedBytesInBuffer base) ∧
    s.bits.getPosition.2 = 8 - position % 8

section
variable {src : ℕ → UInt8} {base dropped position : ℕ} {s : Parser}

theorem Follows.accounts (h : Follows src base dropped position s) : Accounts src base position s := by
  constructor
  · rw [Nat.add_comm, h.untouched]
    exact h.loaded.sourceLength_eq.symm
  · rw [h.getPosition]

theorem follows_load (src : ℕ → UInt8) (base : ℕ) (mem : ℕ → UInt8) :
    Follows src base 0 0 (loadAntiEmulationBuffer base mem) where
  holds x hx := absurd hx (Nat.not_lt_zero x)
  loaded := loaded_zero
  at_position := BitStream.at_setPointer base
  dropped_le := le_rfl
  le_loaded := le_rfl
  content_le := Nat.zero_le _

theorem perform_follows (calls : List Call) {limit : ℕ} (h : Follows src base dropped position s)
    (hlimit : limit ≤ 8 * (dropped + s.antiEmulationContent)) (hmodest : Modest src calls position limit)
    (hfit : AllFit src base calls s) :
    ∃ dropped' s', perform src base calls s = some ((onePass src calls position).1, s') ∧
      Follows src base dropped' (onePass src calls position).2 s' := by
  induction calls generalizing dropped position s limit with
  | nil => exact ⟨dropped, s, rfl, h⟩
  | cons call calls ih =>
    cases call with
    | check size =>
      obtain ⟨dropped', s', hcheck, hfollows, hloaded⟩ := check_spec h hfit.1
      obtain ⟨dropped'', s'', hperform, hfollows'⟩ := ih hfollows hloaded hmodest (hfit.2 s' hcheck)
      refine ⟨dropped'', s'', ?_, hfollows'⟩
      rw [perform, hcheck]
      exact hperform
    | read x =>
      obtain ⟨hfits, hwithin, hrest⟩ := hmodest
      obtain ⟨hvalue, hfollows⟩ := read_spec h hfits hwithin hlimit
      obtain ⟨dropped', s', hperform, hfollows'⟩ := ih hfollows hlimit hrest hfit
      refine ⟨dropped', s', ?_, hfollows'⟩
      rw [perform, hperform, hvalue]
      rfl

/-- **Incremental removal equals removal in one pass, as long as every request fits**: the bits that are read
out of the buffer are those of the source without its emulation prevention bytes, and the positions account
for the source that has been consumed. -/
theorem perform_onePass (src : ℕ → UInt8) (base : ℕ) (mem : ℕ → UInt8) (calls : List Call)
    (hmodest : Modest src calls 0 0) (hfit : AllFit src base calls (loadAntiEmulationBuffer base mem)) :
    ∃ s', perform src base calls (loadAntiEmulationBuffer base mem) = some ((onePass src calls 0).1, s') ∧
      Accounts src base (onePass src calls 0).2 s' := by
  obtain ⟨dropped, s', hperform, hfollows⟩ := perform_follows calls (follows_load src base mem) le_rfl hmodest hfit
  exact ⟨s', hperform, hfollows.accounts⟩

/-- A source of nothing but codes. -/
def codesOnly (m : ℕ) : UInt8 := if m % 3 = 2 then 3 else 0

/-- The first request reads up to the zeros of a code, the second one the rest of it. -/
def codeAcross (m : ℕ) : UInt8 := [0x12, 0x34, 0x56, 0, 0, 3, 1, 0x78].getD m 0xff

theorem perform_onePass_codeAcross :
    ∃ s', perform codeAcross 64 [.check 2, .read (BitProgram.get 16), .check 5, .read (BitProgram.get 32)]
      (loadAntiEmulationBuffer 64 fun _ => 0xff) = some ([0x1234, 0x56000001], s') ∧
        Accounts codeAcross 64 48 s' := by
  have hsecond : ∀ s ∈ (loadAntiEmulationBuffer 64 fun _ => 0xff).checkAntiEmulationBuffer codeAcross 64 2,
      Fits codeAcross 64 5 (s.read (BitProgram.get 16)).2 := by decide +kernel
  exact perform_onePass codeAcross 64 (fun _ => 0xff)
    [.check 2, .read (BitProgram.get 16), .check 5, .read (BitProgram.get 32)]
    ⟨⟨by decide, by decide, trivial⟩, ⟨by decide, by decide, Nat.le_refl 16⟩,
      ⟨by decide, by decide, trivial⟩, ⟨by decide, by decide, (by decide : 48 ≤ 56)⟩, trivial⟩
    ⟨by decide +kernel, fun s hs => ⟨hsecond s hs, fun _ _ => trivial⟩⟩

theorem not_perform_onePass :
    ¬ ∀ (src : ℕ → UInt8) (base : ℕ) (mem : ℕ → UInt8) (calls : List Call), Modest src calls 0 0 →
      ∃ s', perform src base calls (loadAntiEmulationBuffer base mem) = some ((onePass src calls 0).1, s') ∧
        Accounts src base (onePass src calls 0).2 s' := by
  intro hall
  obtain ⟨s', hrun, -⟩ := hall codesOnly 64 (fun _ => 0) [.check 510] trivial
  have hnone : (perform codesOnly 64 [.check 510] (loadAntiEmulationBuffer 64 fun _ => 0)).isNone = true := by
    decide +kernel
  rw [hrun] at hnone
  cases hnone

end

end Parser

end AntiEmulation

end Player2
