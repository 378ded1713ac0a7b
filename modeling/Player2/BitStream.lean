import Player2.BitProgram

/-! # The bit stream

`BitStreamClass_c` reads bits from memory through a 64-bit word, which is filled by 32 bits at a time from an
aligned pointer.  It is a reader of the bits of the memory (`follows_stream`): `Show` shows the bits at its
position and `Flush` moves on.  So what a program of reads does with it is what the program does to these
bits, and `Get` and `GetUe` are such programs. -/

namespace Player2

open BitField

/-- `BitStreamClass_c`.  `bitsData` is an address. -/
structure BitStream where
  bitsAvailable : UInt32
  bitsWord : UInt64
  bitsData : ℕ
deriving DecidableEq, Repr

namespace BitStream

variable (mem : ℕ → UInt8)

/-! ### Operations -/

/-- `__swapbw` of the 32-bit word at an address, on a little-endian machine. -/
def load (a : ℕ) : UInt64 :=
  (((mem a).toUInt64 * 256 + (mem (a + 1)).toUInt64) * 256 + (mem (a + 2)).toUInt64) * 256 +
    (mem (a + 3)).toUInt64

def setPointer (pointer : ℕ) : BitStream where
  bitsData := pointer / 4 * 4 + 4
  bitsAvailable := 32 - UInt32.ofNat (pointer % 4) * 8
  bitsWord := load mem (pointer / 4 * 4)

/-- Ensure that there is enough data. -/
def ensure (n : UInt32) (s : BitStream) : BitStream :=
  if s.bitsAvailable < n then
    { bitsWord := (s.bitsWord <<< 32) ||| load mem s.bitsData
      bitsData := s.bitsData + 4
      bitsAvailable := s.bitsAvailable + 32 }
  else s

/-- The `n` bits above the last `rest` ones of the word. -/
def slice (s : BitStream) (n rest : UInt32) : UInt32 :=
  ((s.bitsWord >>> rest.toUInt64) &&& ((1 <<< n.toUInt64) - 1)).toUInt32

def get (n : UInt32) (s : BitStream) : UInt32 × BitStream :=
  let s := s.ensure mem n
  let s := { s with bitsAvailable := s.bitsAvailable - n }
  (s.slice n s.bitsAvailable, s)

/-- `Show`. -/
def show' (n : UInt32) (s : BitStream) : UInt32 × BitStream :=
  let s := s.ensure mem n
  (s.slice n (s.bitsAvailable - n), s)

def flush (n : UInt32) (s : BitStream) : BitStream := { s with bitsAvailable := s.bitsAvailable - n }

/-- A word more, without looking at how many bits there are. -/
def loadWord (s : BitStream) : BitStream :=
  { s with
    bitsWord := (s.bitsWord <<< 32) ||| load mem s.bitsData
    bitsData := s.bitsData + 4 }

/-- The loop of `FlushUnseen`: what is left to flush. -/
def flushWords : ℕ → ℕ → BitStream → ℕ × BitStream
  | 0, n, s => (n, s)
  | rounds + 1, n, s => if 32 < n then flushWords rounds (n - 32) (s.loadWord mem) else (n, s)

def flushUnseen (n : ℕ) (s : BitStream) : BitStream :=
  let p := flushWords mem n n s
  let rest := UInt32.ofNat p.1
  (p.2.ensure mem rest).flush rest

def lzcntw (v : UInt32) : UInt32 := UInt32.ofNat (if v = 0 then 32 else 31 - Nat.log2 v.toNat)

def getUe (s : BitStream) : UInt32 × BitStream :=
  let p := s.show' mem 32
  let leadingZeros := lzcntw p.1
  let s := p.2.flush (leadingZeros + 1)
  if leadingZeros ≠ 0 then
    let q := s.get mem leadingZeros
    ((1 <<< leadingZeros) - 1 + q.1, q.2)
  else (0, s)

/-- `GetUe`, as a program. -/
def ue : BitProgram ℕ :=
  let leadingZeros (v : ℕ) : ℕ := (lzcntw (UInt32.ofNat v)).toNat
  .read 32 (fun v => leadingZeros v + 1) fun v =>
    if leadingZeros v ≠ 0 then do
      let rest ← BitProgram.get (leadingZeros v)
      pure (2 ^ leadingZeros v - 1 + rest)
    else pure 0

/-- `GetPosition`: the byte with the next bit, and how many bits of it are left. -/
def getPosition (s : BitStream) : ℕ × ℕ :=
  let available := s.bitsAvailable.toNat
  (s.bitsData - (s.bitsAvailable + 7).toNat / 8, if available &&& 7 ≠ 0 then available &&& 7 else 8)

/-! ### Memory as bits -/

/-- The bits of the memory, the most significant bit of a byte first. -/
def bits (i : ℕ) : Bool := (mem (i / 8)).toNat.testBit (7 - i % 8)

theorem field_byte (a : ℕ) : field (bits mem) (8 * a) 8 = (mem a).toNat := by
  refine field_of_spells ?_ (mem a).toNat_lt
  have h : ∀ i < 8, bits mem (8 * a + i) = (mem a).toNat.testBit (7 - i) := by
    intro i hi
    unfold bits
    have e1 : (8 * a + i) / 8 = a := by omega
    have e2 : (8 * a + i) % 8 = i := by omega
    rw [e1, e2]
  exact ⟨h 0 (by decide), h 1 (by decide), h 2 (by decide), h 3 (by decide), h 4 (by decide),
    h 5 (by decide), h 6 (by decide), h 7 (by decide), trivial⟩

theorem toNat_load (a : ℕ) : (load mem a).toNat = field (bits mem) (8 * a) 32 := by
  have e : field (bits mem) (8 * a) (8 + 8 + 8 + 8) = (((mem a).toNat * 2 ^ 8 + (mem (a + 1)).toNat) * 2 ^ 8 +
      (mem (a + 2)).toNat) * 2 ^ 8 + (mem (a + 3)).toNat := by
    rw [field_add, field_add, field_add, field_byte, ← field_byte mem (a + 1), ← field_byte mem (a + 2),
      ← field_byte mem (a + 3)]
    rfl
  have h0 := (mem a).toNat_lt
  have h1 := (mem (a + 1)).toNat_lt
  have h2 := (mem (a + 2)).toNat_lt
  have h3 := (mem (a + 3)).toNat_lt
  have e256 : (256 : UInt64).toNat = 256 := rfl
  rw [show (32 : ℕ) = 8 + 8 + 8 + 8 from rfl, e]
  unfold load
  rw [UInt64.toNat_add, UInt64.toNat_mul, UInt64.toNat_add, UInt64.toNat_mul, UInt64.toNat_add,
    UInt64.toNat_mul, e256, UInt8.toNat_toUInt64, UInt8.toNat_toUInt64, UInt8.toNat_toUInt64,
    UInt8.toNat_toUInt64]
  omega

/-! ### The position -/

/-- The word holds the bits from a position on. -/
structure At (s : BitStream) (p : ℕ) : Prop where
  available : s.bitsAvailable.toNat ≤ 63
  position : p + s.bitsAvailable.toNat = 8 * s.bitsData
  word : s.bitsWord.toNat % 2 ^ s.bitsAvailable.toNat = field (bits mem) p s.bitsAvailable.toNat

variable {mem} {s : BitStream} {p : ℕ}

theorem at_setPointer (pointer : ℕ) : At mem (setPointer mem pointer) (8 * pointer) := by
  have hm := Nat.mod_lt pointer (show 0 < 4 by decide)
  have havail : (setPointer mem pointer).bitsAvailable.toNat = 32 - pointer % 4 * 8 := by
    have hcases : pointer % 4 = 0 ∨ pointer % 4 = 1 ∨ pointer % 4 = 2 ∨ pointer % 4 = 3 := by omega
    unfold setPointer
    rcases hcases with e | e | e | e <;> rw [e] <;> rfl
  have hpos : 8 * pointer = 8 * (pointer / 4 * 4) + pointer % 4 * 8 := by omega
  refine ⟨?_, ?_, ?_⟩
  · omega
  · rw [havail]
    unfold setPointer
    dsimp only
    omega
  · have hsum : 32 = pointer % 4 * 8 + (32 - pointer % 4 * 8) := by omega
    have hword : (setPointer mem pointer).bitsWord.toNat = field (bits mem) (8 * (pointer / 4 * 4)) 32 :=
      toNat_load mem _
    rw [hword, havail, hpos]
    generalize pointer % 4 * 8 = low at hsum
    generalize 32 - low = high at hsum
    rw [hsum, field_mod]

theorem toNat_append (w l : UInt64) (hl : l.toNat < 2 ^ 32) :
    ((w <<< 32) ||| l).toNat = 2 ^ 32 * (w.toNat % 2 ^ 32) + l.toNat := by
  have h32 : (32 : UInt64).toNat % 64 = 32 := rfl
  rw [UInt64.toNat_or, UInt64.toNat_shiftLeft, h32, Nat.shiftLeft_eq]
  have e : w.toNat * 2 ^ 32 % 2 ^ 64 = 2 ^ 32 * (w.toNat % 2 ^ 32) := by omega
  rw [e, ← Nat.two_pow_add_eq_or_of_lt hl]

theorem At.ensure (h : At mem s p) {n : UInt32} (hn : n.toNat ≤ 32) :
    At mem (s.ensure mem n) p ∧ n.toNat ≤ (s.ensure mem n).bitsAvailable.toNat := by
  unfold BitStream.ensure
  split
  next hlt =>
    have hlt' : s.bitsAvailable.toNat < n.toNat := UInt32.lt_iff_toNat_lt.mp hlt
    have h32 : (32 : UInt32).toNat = 32 := rfl
    have havail : (s.bitsAvailable + 32).toNat = s.bitsAvailable.toNat + 32 := by
      rw [UInt32.toNat_add, h32]
      omega
    have hpos := h.position
    have hload := toNat_load mem s.bitsData
    have hl : (load mem s.bitsData).toNat < 2 ^ 32 := by
      rw [hload]
      exact field_lt _ _ _
    refine ⟨⟨?_, ?_, ?_⟩, ?_⟩
    · dsimp only
      omega
    · dsimp only
      omega
    · rw [havail, field_add, ← h.word, hpos, ← hload, toNat_append _ _ hl, Nat.pow_add]
      -- fewer than 32 bits are there, so none is lost
      have hmod : s.bitsWord.toNat % 2 ^ 32 % 2 ^ s.bitsAvailable.toNat =
          s.bitsWord.toNat % 2 ^ s.bitsAvailable.toNat :=
        Nat.mod_mod_of_dvd _ (Nat.pow_dvd_pow 2 (by omega))
      rw [← hmod]
      generalize s.bitsWord.toNat % 2 ^ 32 = w
      rw [Nat.mul_comm (2 ^ s.bitsAvailable.toNat), Nat.mod_mul, Nat.mul_add_div (by decide),
        Nat.div_eq_of_lt hl, Nat.mul_add_mod, Nat.mod_eq_of_lt hl, Nat.add_zero]
      ring
    · dsimp only
      omega
  next hge =>
    have hge' : n.toNat ≤ s.bitsAvailable.toNat := by
      rw [UInt32.lt_iff_toNat_lt] at hge
      omega
    exact ⟨h, hge'⟩

theorem At.slice (h : At mem s p) {n : UInt32} (hn : n.toNat ≤ 32) (hle : n.toNat ≤ s.bitsAvailable.toNat) :
    (s.slice n (s.bitsAvailable - n)).toNat = field (bits mem) p n.toNat := by
  have hrest : (s.bitsAvailable - n).toNat = s.bitsAvailable.toNat - n.toNat :=
    UInt32.toNat_sub_of_le _ _ (UInt32.le_iff_toNat_le.mpr hle)
  have havail := h.available
  have hsum : s.bitsAvailable.toNat = n.toNat + (s.bitsAvailable - n).toNat := by omega
  have hmask : ((1 <<< n.toUInt64) - 1 : UInt64).toNat = 2 ^ n.toNat - 1 := by
    have h1 : ((1 : UInt64) <<< n.toUInt64).toNat = 2 ^ n.toNat := by
      have e1 : (1 : UInt64).toNat = 1 := rfl
      rw [UInt64.toNat_shiftLeft, UInt32.toNat_toUInt64, Nat.mod_eq_of_lt (show n.toNat < 64 by omega), e1,
        Nat.shiftLeft_eq, Nat.one_mul]
      exact Nat.mod_eq_of_lt (Nat.pow_lt_pow_right (by decide) (by omega))
    have hpos := Nat.two_pow_pos n.toNat
    have e1 : (1 : UInt64).toNat = 1 := rfl
    rw [UInt64.toNat_sub_of_le _ _ (UInt64.le_iff_toNat_le.mpr (by rw [h1, e1]; omega)), h1, e1]
  have hval : (s.bitsWord.toNat / 2 ^ (s.bitsAvailable - n).toNat) % 2 ^ n.toNat =
      field (bits mem) p n.toNat := by
    have hw := h.word
    rw [hsum] at hw
    rw [← field_div (bits mem) p n.toNat (s.bitsAvailable - n).toNat, ← hw, Nat.pow_add,
      Nat.mul_comm (2 ^ n.toNat), Nat.mod_mul_right_div_self]
  have hlt : field (bits mem) p n.toNat < 2 ^ 32 :=
    Nat.lt_of_lt_of_le (field_lt _ _ _) (Nat.pow_le_pow_right (by decide) hn)
  unfold BitStream.slice
  rw [UInt64.toNat_toUInt32, UInt64.toNat_and, UInt64.toNat_shiftRight, hmask, UInt32.toNat_toUInt64,
    Nat.mod_eq_of_lt (show (s.bitsAvailable - n).toNat < 64 by omega), Nat.shiftRight_eq_div_pow,
    Nat.and_two_pow_sub_one_eq_mod, hval, Nat.mod_eq_of_lt hlt]

theorem At.flush (h : At mem s p) {m : UInt32} (hle : m.toNat ≤ s.bitsAvailable.toNat) :
    At mem (s.flush m) (p + m.toNat) := by
  have hrest : (s.bitsAvailable - m).toNat = s.bitsAvailable.toNat - m.toNat :=
    UInt32.toNat_sub_of_le _ _ (UInt32.le_iff_toNat_le.mpr hle)
  have hsum : s.bitsAvailable.toNat = m.toNat + (s.bitsAvailable - m).toNat := by omega
  have havail := h.available
  have hpos := h.position
  unfold BitStream.flush
  refine ⟨?_, ?_, ?_⟩
  · dsimp only
    omega
  · dsimp only
    omega
  · dsimp only
    have hw := h.word
    rw [hsum] at hw
    rw [← field_mod (bits mem) p m.toNat (s.bitsAvailable - m).toNat, ← hw]
    exact (Nat.mod_mod_of_dvd _ (Nat.pow_dvd_pow 2 (by omega))).symm

theorem At.loadWord (h : At mem s p) : At mem (s.loadWord mem) (p + 32) := by
  have havail := h.available
  have hpos := h.position
  have hload := toNat_load mem s.bitsData
  have hl : (load mem s.bitsData).toNat < 2 ^ 32 := by
    rw [hload]
    exact field_lt _ _ _
  unfold BitStream.loadWord
  refine ⟨havail, by dsimp only; omega, ?_⟩
  rw [toNat_append _ _ hl]
  rcases Nat.le_total s.bitsAvailable.toNat 32 with hle | hge
  · -- the bits are the last ones of the new word
    have hsum : 32 = (32 - s.bitsAvailable.toNat) + s.bitsAvailable.toNat := by omega
    have hstart : p + 32 = 8 * s.bitsData + (32 - s.bitsAvailable.toNat) := by omega
    have hdvd : 2 ^ s.bitsAvailable.toNat ∣ 2 ^ 32 * (s.bitsWord.toNat % 2 ^ 32) :=
      Dvd.dvd.mul_right (Nat.pow_dvd_pow 2 hle) _
    rw [Nat.add_mod, Nat.mod_eq_zero_of_dvd hdvd, Nat.zero_add, Nat.mod_mod, hload, hstart]
    generalize s.bitsAvailable.toNat = n at hsum hle
    generalize 32 - n = m at hsum
    rw [hsum]
    exact field_mod _ _ _ _
  · -- some of them were there before
    have hsum : s.bitsAvailable.toNat = 32 + (s.bitsAvailable.toNat - 32) := by omega
    have hsum' : s.bitsAvailable.toNat = (s.bitsAvailable.toNat - 32) + 32 := by omega
    have hw := h.word
    rw [hsum] at hw
    have hold : s.bitsWord.toNat % 2 ^ (s.bitsAvailable.toNat - 32) =
        field (bits mem) (p + 32) (s.bitsAvailable.toNat - 32) := by
      rw [← field_mod (bits mem) p 32 (s.bitsAvailable.toNat - 32), ← hw]
      exact (Nat.mod_mod_of_dvd _ (Nat.pow_dvd_pow 2 (by omega))).symm
    have hend : p + 32 + (s.bitsAvailable.toNat - 32) = 8 * s.bitsData := by omega
    rw [hsum', field_add, hend, ← hload, ← hold]
    have hsmall : s.bitsWord.toNat % 2 ^ 32 % 2 ^ (s.bitsAvailable.toNat - 32) =
        s.bitsWord.toNat % 2 ^ (s.bitsAvailable.toNat - 32) :=
      Nat.mod_mod_of_dvd _ (Nat.pow_dvd_pow 2 (by omega))
    rw [← hsmall]
    generalize s.bitsWord.toNat % 2 ^ 32 = w
    rw [Nat.pow_add, Nat.mul_comm (2 ^ (s.bitsAvailable.toNat - 32)), Nat.mod_mul, Nat.mul_add_div (by decide),
      Nat.div_eq_of_lt hl, Nat.mul_add_mod, Nat.mod_eq_of_lt hl, Nat.add_zero]
    ring

theorem At.flushWords (rounds : ℕ) {n : ℕ} (h : At mem s p) (hn : n ≤ 32 * (rounds + 1)) :
    ∃ m, (BitStream.flushWords mem rounds n s).1 + 32 * m = n ∧ (BitStream.flushWords mem rounds n s).1 ≤ 32 ∧
      At mem (BitStream.flushWords mem rounds n s).2 (p + 32 * m) := by
  induction rounds generalizing n s p with
  | zero => exact ⟨0, rfl, hn, h⟩
  | succ rounds ih =>
    rw [BitStream.flushWords]
    split
    next hlt =>
      obtain ⟨m, hsum, hle, hat⟩ := ih (n := n - 32) h.loadWord (by omega)
      refine ⟨m + 1, by omega, hle, ?_⟩
      rw [show p + 32 * (m + 1) = p + 32 + 32 * m by ring]
      exact hat
    next hle => exact ⟨0, rfl, by omega, h⟩

theorem At.flushUnseen (h : At mem s p) (n : ℕ) : At mem (s.flushUnseen mem n) (p + n) := by
  obtain ⟨m, hsum, hle, hat⟩ := h.flushWords n (n := n) (by omega)
  unfold BitStream.flushUnseen
  generalize BitStream.flushWords mem n n s = q at hsum hle hat
  have hrest : (UInt32.ofNat q.1).toNat = q.1 := by
    rw [UInt32.toNat_ofNat', Nat.mod_eq_of_lt (by omega)]
  obtain ⟨he, hshown⟩ := hat.ensure (n := UInt32.ofNat q.1) (by omega)
  have hflush := he.flush hshown
  rw [hrest] at hflush
  rwa [show p + n = p + 32 * m + q.1 by omega]

theorem At.toNat_add_seven (h : At mem s p) : (s.bitsAvailable + 7).toNat = s.bitsAvailable.toNat + 7 := by
  have havail := h.available
  have h7 : (7 : UInt32).toNat = 7 := rfl
  rw [UInt32.toNat_add, h7]
  exact Nat.mod_eq_of_lt (by omega)

theorem At.getPosition (h : At mem s p) : s.getPosition = (p / 8, 8 - p % 8) := by
  have hpos := h.position
  have hround := h.toNat_add_seven
  unfold BitStream.getPosition
  dsimp only
  rw [show s.bitsAvailable.toNat &&& 7 = s.bitsAvailable.toNat % 8 from Nat.and_two_pow_sub_one_eq_mod _ 3]
  refine Prod.ext ?_ ?_
  · omega
  · split <;> omega

/-! ### Reading -/

/-- The bit stream as a reader. -/
def stream (mem : ℕ → UInt8) : BitProgram.Reader BitStream where
  show' n s := ((s.show' mem (UInt32.ofNat n)).1.toNat, (s.show' mem (UInt32.ofNat n)).2)
  flush m s := s.flush (UInt32.ofNat m)

theorem follows_stream (mem : ℕ → UInt8) : (stream mem).Follows 32 (bits mem) (At mem) := by
  intro s p n m hs hn hm
  have en : (UInt32.ofNat n).toNat = n := by
    rw [UInt32.toNat_ofNat', Nat.mod_eq_of_lt (by omega)]
  have em : (UInt32.ofNat m).toNat = m := by
    rw [UInt32.toNat_ofNat', Nat.mod_eq_of_lt (by omega)]
  obtain ⟨he, hle⟩ := hs.ensure (n := UInt32.ofNat n) (by rw [en]; exact hn)
  constructor
  · have h := he.slice (by rw [en]; exact hn) hle
    rw [en] at h
    exact h
  · have h := he.flush (m := UInt32.ofNat m) (by omega)
    rw [em] at h
    exact h

theorem runOn_stream {α : Type} (x : BitProgram α) (hs : At mem s p) (hx : x.Fits 32 (bits mem) p) :
    (x.runOn (stream mem) s).1 = (x.run (bits mem) p).1 ∧
      At mem (x.runOn (stream mem) s).2 (x.run (bits mem) p).2 :=
  BitProgram.runOn_eq (follows_stream mem) x hs hx

end BitStream

end Player2
