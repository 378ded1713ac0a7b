import Mathlib.Data.List.Basic
import Mathlib.Data.Nat.Bitwise
import Mathlib.Tactic.IntervalCases

/-! # Transport stream packets

The packet header of `dvb.h`.  The demultiplexor assembles the first four bytes of a packet into
one little endian word and picks its fields out with masks.  A packet is read here from its first
byte on: `bytes` is the memory from the start of the packet.

The second half of the module says where in the packet each field lies, byte by byte, as the
transport stream format has it (`wellFormed`, `pid`, `payload`, …), and proves that the masks read
just these fields. -/

namespace Player2.Dvb

/-! ### The macros of the source -/

/-- `DVB_PACKET_SIZE`. -/
def packetSize : ℕ := 188
/-- `DVB_HEADER_SIZE`. -/
def headerSize : ℕ := 4
/-- `DVB_SYNC_BYTE`. -/
def syncByte : ℕ := 0x47

/-- The byte at offset `i`. -/
def byteAt (bytes : List UInt8) (i : ℕ) : ℕ := (bytes.getD i 0).toNat

/-- The header word. -/
def header (bytes : List UInt8) : ℕ :=
  byteAt bytes 0 ||| byteAt bytes 1 <<< 8 ||| byteAt bytes 2 <<< 16 ||| byteAt bytes 3 <<< 24

/-- `DVB_VALID_PACKET`. -/
def validPacket (h : ℕ) : Bool := (h &&& 0x000000ff) == syncByte && (h &&& 0x00008000) == 0
def dvbPid (h : ℕ) : ℕ := (h &&& 0x00001f00) ||| ((h &&& 0x00ff0000) >>> 16)
def dvbPriority (h : ℕ) : Bool := (h &&& 0x00002000) != 0
def dvbAdaptationField (h : ℕ) : Bool := (h &&& 0x20000000) != 0
def dvbPayloadPresent (h : ℕ) : Bool := (h &&& 0x10000000) != 0
def dvbContinuityCount (h : ℕ) : ℕ := (h &&& 0x0f000000) >>> 24
/-- `DVB_DISCONTINUITY_INDICATOR_MASK`. -/
def discontinuityIndicatorMask : ℕ := 0x80

/-! ### The fields of a packet -/

/-- The packet has the sync byte and no transport error. -/
def wellFormed (p : List UInt8) : Bool := byteAt p 0 == syncByte && !(byteAt p 1).testBit 7
/-- The 13 bit packet identifier. -/
def pid (p : List UInt8) : ℕ := byteAt p 1 % 32 * 256 + byteAt p 2
/-- The transport priority. -/
def priority (p : List UInt8) : Bool := (byteAt p 1).testBit 5
/-- There is an adaptation field. -/
def hasAdaptationField (p : List UInt8) : Bool := (byteAt p 3).testBit 5
/-- There is a payload. -/
def hasPayload (p : List UInt8) : Bool := (byteAt p 3).testBit 4
/-- The continuity counter. -/
def continuityCount (p : List UInt8) : ℕ := byteAt p 3 % 16
/-- The adaptation field is there, is not empty and has its discontinuity indicator set. -/
def discontinuity (p : List UInt8) : Bool :=
  hasAdaptationField p && byteAt p 4 != 0 && (byteAt p 5).testBit 7
/-- Where the payload starts: after the header and the adaptation field with its length byte. -/
def payloadOffset (p : List UInt8) : ℕ :=
  headerSize + if hasAdaptationField p then 1 + byteAt p 4 else 0
/-- The payload of a packet. -/
def payload (p : List UInt8) : List UInt8 := if hasPayload p then p.drop (payloadOffset p) else []

/-! ### The macros read the fields -/

theorem byteAt_lt (bytes : List UInt8) (i : ℕ) : byteAt bytes i < 2 ^ 8 :=
  UInt8.toNat_lt (bytes.getD i 0)

theorem byteAt_testBit_of_le (bytes : List UInt8) (i : ℕ) {k : ℕ} (hk : 8 ≤ k) :
    (byteAt bytes i).testBit k = false :=
  Nat.testBit_lt_two_pow ((byteAt_lt bytes i).trans_le (Nat.pow_le_pow_right (by omega) hk))

theorem header_testBit (bytes : List UInt8) {j k : ℕ} (hj : j < 4) (hk : k < 8) :
    (header bytes).testBit (8 * j + k) = (byteAt bytes j).testBit k := by
  have h := fun i (m : ℕ) (hm : 8 ≤ m) => byteAt_testBit_of_le bytes i hm
  simp only [header, Nat.testBit_or, Nat.testBit_shiftLeft]
  interval_cases j
  · simp [show ¬ 8 ≤ k by omega, show ¬ 16 ≤ k by omega, show ¬ 24 ≤ k by omega]
  · rw [h 0 _ (by omega)]
    simp [show ¬ 16 ≤ 8 + k by omega, show ¬ 24 ≤ 8 + k by omega]
  · rw [h 0 _ (by omega), h 1 _ (by omega)]
    simp [show 8 ≤ 16 + k by omega, show ¬ 24 ≤ 16 + k by omega]
  · rw [h 0 _ (by omega), h 1 _ (by omega), h 2 _ (by omega)]
    simp

theorem header_and_two_pow_ne_zero (bytes : List UInt8) {j k : ℕ} (hj : j < 4) (hk : k < 8) :
    ((header bytes &&& 2 ^ (8 * j + k)) != 0) = (byteAt bytes j).testBit k := by
  rw [Nat.and_two_pow, header_testBit bytes hj hk]
  cases (byteAt bytes j).testBit k <;> simp

theorem header_and_shiftRight (bytes : List UInt8) {j n : ℕ} (hj : j < 4) (hn : n ≤ 8) :
    (header bytes &&& (2 ^ n - 1) <<< (8 * j)) >>> (8 * j) = byteAt bytes j % 2 ^ n := by
  refine Nat.eq_of_testBit_eq fun i => ?_
  simp only [Nat.testBit_shiftRight, Nat.testBit_and, Nat.testBit_shiftLeft,
    Nat.testBit_two_pow_sub_one, Nat.testBit_mod_two_pow]
  by_cases hi : i < n
  · rw [header_testBit bytes hj (by omega)]
    simp [hi]
  · simp [hi]

theorem validPacket_header (p : List UInt8) : validPacket (header p) = wellFormed p := by
  have hsync : header p &&& 0x000000ff = byteAt p 0 := by
    have h := header_and_shiftRight p (j := 0) (n := 8) (by omega) (by omega)
    rw [Nat.mod_eq_of_lt (byteAt_lt p 0)] at h
    exact h
  have herror : ((header p &&& 0x00008000) != 0) = (byteAt p 1).testBit 7 :=
    header_and_two_pow_ne_zero p (j := 1) (k := 7) (by omega) (by omega)
  have hnot : ((header p &&& 0x00008000) == 0) = !((header p &&& 0x00008000) != 0) := by
    simp [bne]
  rw [validPacket, wellFormed, hsync, hnot, herror]

theorem dvbPid_header (p : List UInt8) : dvbPid (header p) = pid p := by
  have hhigh : header p &&& 0x00001f00 = (byteAt p 1 % 32) <<< 8 := by
    have h := header_and_shiftRight p (j := 1) (n := 5) (by omega) (by omega)
    refine Nat.eq_of_testBit_eq fun i => ?_
    have hmask : (0x00001f00 : ℕ) = (2 ^ 5 - 1) <<< 8 := rfl
    rw [show (32 : ℕ) = 2 ^ 5 from rfl, ← h]
    simp only [hmask, Nat.testBit_shiftLeft, Nat.testBit_shiftRight, Nat.testBit_and,
      Nat.testBit_two_pow_sub_one, Nat.mul_one]
    by_cases hi : 8 ≤ i
    · simp [hi, Nat.add_sub_cancel' hi]
    · simp [hi]
  have hlow : (header p &&& 0x00ff0000) >>> 16 = byteAt p 2 := by
    have h := header_and_shiftRight p (j := 2) (n := 8) (by omega) (by omega)
    rw [Nat.mod_eq_of_lt (byteAt_lt p 2)] at h
    exact h
  rw [dvbPid, pid, hhigh, hlow, ← Nat.shiftLeft_add_eq_or_of_lt (byteAt_lt p 2), Nat.shiftLeft_eq]

theorem dvbAdaptationField_header (p : List UInt8) :
    dvbAdaptationField (header p) = hasAdaptationField p :=
  header_and_two_pow_ne_zero p (j := 3) (k := 5) (by omega) (by omega)

theorem dvbContinuityCount_header (p : List UInt8) :
    dvbContinuityCount (header p) = continuityCount p :=
  header_and_shiftRight p (j := 3) (n := 4) (by omega) (by omega)

theorem continuityCount_lt (p : List UInt8) : continuityCount p < 16 := Nat.mod_lt _ (by omega)

end Player2.Dvb
