import Player2.ExpGolomb

/-! # Calls of the bit stream

Between `SetPointer` and the end of the data the methods of `BitStreamClass_c` may be called in any order.  What
they answer is the bits at a position that moves on by what is consumed (`answers_performAll`), and `GetPosition`
gives that position.

`Flush` is the exception: it takes bits from the word without loading more, so it is for bits that were shown
before.  A bit more, and the count of the bits in the word goes below zero (`not_answers_performAll`).

`SignedGet` takes fields of 2 bits and more for two's complement; a single bit has no sign.

A code that stands at the position is what `GetUe` and `GetSe` read, and no more than it (`getUe_of_spells`,
`getSe_of_spells`). -/

namespace Player2.BitStream

open BitField

variable (mem : ℕ → UInt8)

/-! ### The other methods -/

/-- The sign that `SignedGet` and `SignedShow` extend. -/
def signExtended (n value : UInt32) : Int32 :=
  (if 2 ≤ n ∧ n ≤ 31 ∧ value ≥ 1 <<< (n - 1) then value ||| (0xffffffff <<< (n - 1)) else value).toInt32

def signedGet (n : UInt32) (s : BitStream) : Int32 × BitStream :=
  let p := s.get mem n
  (signExtended n p.1, p.2)

def signedShow (n : UInt32) (s : BitStream) : Int32 × BitStream :=
  let p := s.show' mem n
  (signExtended n p.1, p.2)

def getSe (s : BitStream) : Int32 × BitStream :=
  let p := s.getUe mem
  let code := p.1
  ((if code &&& 1 ≠ 0 then (code >>> 1) + 1 else -(code >>> 1)).toInt32, p.2)

/-! ### Signs -/

/-- A field of `n` bits with a sign. -/
def twosComplement (n v : ℕ) : ℤ := if 2 ≤ n ∧ 2 ^ (n - 1) ≤ v then v - 2 ^ n else v

theorem or_of_odd {a k low : ℕ} (hlow : low < 2 ^ k) : 2 ^ k * (2 * a + 1) ||| (2 ^ k + low) = 2 ^ k * (2 * a + 1) + low := by
  have hone : (2 * a + 1) ||| 1 = 2 * a + 1 := by
    have h := Nat.two_pow_add_eq_or_of_lt (i := 1) (b := 1) (by decide) a
    rw [h, Nat.or_assoc, Nat.or_self]
  have hsecond : 2 ^ k + low = 2 ^ k * 1 ||| low := by
    rw [← Nat.two_pow_add_eq_or_of_lt hlow, Nat.mul_one]
  rw [hsecond, ← Nat.or_assoc, Nat.two_pow_add_eq_or_of_lt hlow]
  congr 1
  rw [Nat.mul_comm _ (2 * a + 1), Nat.mul_comm _ 1, ← Nat.shiftLeft_eq, ← Nat.shiftLeft_eq, ← Nat.shiftLeft_or_distrib,
    hone]

theorem toInt_toInt32 (v : UInt32) : v.toInt32.toInt = if v.toNat < 2 ^ 31 then (v.toNat : ℤ) else v.toNat - 2 ^ 32 := by
  have h : v.toInt32.toInt = v.toBitVec.toInt := rfl
  rw [h, BitVec.toInt_eq_toNat_cond]
  have e : v.toBitVec.toNat = v.toNat := rfl
  split <;> split <;> omega

theorem toNat_bit {k : UInt32} (hk : k.toNat < 32) : ((1 : UInt32) <<< k).toNat = 2 ^ k.toNat := by
  have hone : (1 : UInt32).toNat = 1 := rfl
  rw [UInt32.toNat_shiftLeft, Nat.mod_eq_of_lt hk, hone, Nat.shiftLeft_eq, Nat.one_mul]
  exact Nat.mod_eq_of_lt (Nat.pow_lt_pow_right (by decide) hk)

theorem toNat_ones {k : UInt32} (hk : k.toNat < 32) : ((0xffffffff : UInt32) <<< k).toNat = 2 ^ 32 - 2 ^ k.toNat := by
  have hones : (0xffffffff : UInt32).toNat = 2 ^ 32 - 1 := rfl
  have hpos := Nat.two_pow_pos k.toNat
  have hle : 2 ^ k.toNat < 2 ^ 32 := Nat.pow_lt_pow_right (by decide) hk
  rw [UInt32.toNat_shiftLeft, Nat.mod_eq_of_lt hk, hones, Nat.shiftLeft_eq]
  omega

theorem toNat_or_ones {k : UInt32} (value : UInt32) (hk : k.toNat < 32) (hlow : 2 ^ k.toNat ≤ value.toNat)
    (hhigh : value.toNat < 2 * 2 ^ k.toNat) :
    (value ||| (0xffffffff <<< k)).toNat = 2 ^ 32 - 2 * 2 ^ k.toNat + value.toNat := by
  have hpow : 2 ^ 32 = 2 ^ k.toNat * (2 * 2 ^ (31 - k.toNat)) := by
    rw [← Nat.pow_succ', ← Nat.pow_add]
    congr 1
    omega
  have hodd : 2 ^ 32 - 2 ^ k.toNat = 2 ^ k.toNat * (2 * (2 ^ (31 - k.toNat) - 1) + 1) := by
    have hone : 1 ≤ 2 ^ (31 - k.toNat) := Nat.one_le_two_pow
    rw [show 2 * (2 ^ (31 - k.toNat) - 1) + 1 = 2 * 2 ^ (31 - k.toNat) - 1 by omega, Nat.mul_sub_one, ← hpow]
  have hle : 2 ^ k.toNat ≤ 2 ^ 31 := Nat.pow_le_pow_right (by decide) (by omega)
  have hsplit : value.toNat = 2 ^ k.toNat + (value.toNat - 2 ^ k.toNat) := by omega
  rw [UInt32.toNat_or, toNat_ones hk, Nat.or_comm, hsplit, hodd, or_of_odd (by omega), ← hodd]
  omega

theorem toInt_signExtended {n value : UInt32} (hn : n.toNat ≤ 32) (hvalue : value.toNat < 2 ^ n.toNat) :
    (signExtended n value).toInt = twosComplement n.toNat value.toNat := by
  have hone : (1 : UInt32).toNat = 1 := rfl
  have htwo : (2 : UInt32).toNat = 2 := rfl
  have h31 : (31 : UInt32).toNat = 31 := rfl
  unfold signExtended twosComplement
  rw [toInt_toInt32]
  by_cases h2 : 2 ≤ n.toNat
  · have hsub : (n - 1).toNat = n.toNat - 1 := UInt32.toNat_sub_of_le _ _ (UInt32.le_iff_toNat_le.mpr (by omega))
    have hbit := toNat_bit (k := n - 1) (by omega)
    have hones := toNat_or_ones (k := n - 1) value (by omega)
    rw [hsub] at hbit hones
    have hpow : 2 ^ n.toNat = 2 * 2 ^ (n.toNat - 1) := by
      rw [← Nat.pow_succ']
      congr 1
      omega
    have hcond : 2 ≤ n ∧ n ≤ 31 ∧ value ≥ 1 <<< (n - 1) ↔ n.toNat ≤ 31 ∧ 2 ^ (n.toNat - 1) ≤ value.toNat := by
      rw [ge_iff_le, UInt32.le_iff_toNat_le, UInt32.le_iff_toNat_le, UInt32.le_iff_toNat_le, hbit, htwo, h31]
      exact and_iff_right h2
    by_cases hsign : 2 ^ (n.toNat - 1) ≤ value.toNat
    · rw [if_pos (show 2 ≤ n.toNat ∧ 2 ^ (n.toNat - 1) ≤ value.toNat from ⟨h2, hsign⟩)]
      rcases hn.lt_or_eq with hlt | heq
      · have hle31 : 2 ^ n.toNat ≤ 2 ^ 31 := Nat.pow_le_pow_right (by decide) (by omega)
        have hcast : (2 : ℤ) ^ n.toNat = ((2 ^ n.toNat : ℕ) : ℤ) := by push_cast; rfl
        rw [if_pos (hcond.mpr ⟨by omega, hsign⟩), hones hsign (by omega), if_neg (by omega), hcast, hpow]
        omega
      · have hnot : ¬ (2 ≤ n ∧ n ≤ 31 ∧ value ≥ 1 <<< (n - 1)) := fun h => by
          have hle := (hcond.mp h).1
          omega
        rw [heq] at hsign
        rw [if_neg hnot, if_neg (by omega), heq]
    · have hnot : ¬ (2 ≤ n ∧ n ≤ 31 ∧ value ≥ 1 <<< (n - 1)) := fun h => hsign (hcond.mp h).2
      rw [if_neg (show ¬ (2 ≤ n.toNat ∧ 2 ^ (n.toNat - 1) ≤ value.toNat) from fun h => hsign h.2), if_neg hnot]
      have hle : 2 ^ (n.toNat - 1) ≤ 2 ^ 31 := Nat.pow_le_pow_right (by decide) (by omega)
      exact if_pos (by omega)
  · have hcond : ¬ (2 ≤ n ∧ n ≤ 31 ∧ value ≥ 1 <<< (n - 1)) := by
      rintro ⟨hle, -, -⟩
      rw [UInt32.le_iff_toNat_le] at hle
      omega
    have hsmall : 2 ^ n.toNat ≤ 2 ^ 1 := Nat.pow_le_pow_right (by decide) (by omega)
    rw [if_neg hcond, if_neg (show ¬ (2 ≤ n.toNat ∧ 2 ^ (n.toNat - 1) ≤ value.toNat) from fun h => h2 h.1)]
    exact if_pos (by omega)

/-! ### Calls -/

/-- The calls of the reader. -/
inductive Call
  | get (n : UInt32)
  | signedGet (n : UInt32)
  | show' (n : UInt32)
  | signedShow (n : UInt32)
  | flush (n : UInt32)
  | flushUnseen (n : UInt32)
  | getPosition
deriving DecidableEq, Repr

/-- What a call answers. -/
inductive Answer
  | bits (v : ℕ)
  | number (z : ℤ)
  | position (byte left : ℕ)
  | nothing
deriving DecidableEq, Repr

/-- A call. -/
def perform : Call → BitStream → Answer × BitStream
  | .get n, s => (.bits (s.get mem n).1.toNat, (s.get mem n).2)
  | .signedGet n, s => (.number (s.signedGet mem n).1.toInt, (s.signedGet mem n).2)
  | .show' n, s => (.bits (s.show' mem n).1.toNat, (s.show' mem n).2)
  | .signedShow n, s => (.number (s.signedShow mem n).1.toInt, (s.signedShow mem n).2)
  | .flush n, s => (.nothing, s.flush n)
  | .flushUnseen n, s => (.nothing, s.flushUnseen mem n.toNat)
  | .getPosition, s => (.position s.getPosition.1 s.getPosition.2, s)

/-- One call after the other. -/
def performAll : List Call → BitStream → List Answer × BitStream
  | [], s => ([], s)
  | c :: calls, s =>
    let p := perform mem c s
    let q := performAll calls p.2
    (p.1 :: q.1, q.2)

/-- What a call is to answer at a position. -/
def Call.expected (b : ℕ → Bool) (p : ℕ) : Call → Answer
  | .get n => .bits (field b p n.toNat)
  | .signedGet n => .number (twosComplement n.toNat (field b p n.toNat))
  | .show' n => .bits (field b p n.toNat)
  | .signedShow n => .number (twosComplement n.toNat (field b p n.toNat))
  | .flush _ => .nothing
  | .flushUnseen _ => .nothing
  | .getPosition => .position (p / 8) (8 - p % 8)

/-- How many bits a call consumes. -/
def Call.consumed : Call → ℕ
  | .get n => n.toNat
  | .signedGet n => n.toNat
  | .show' _ => 0
  | .signedShow _ => 0
  | .flush n => n.toNat
  | .flushUnseen n => n.toNat
  | .getPosition => 0

/-- How many bits a call makes sure of. -/
def Call.shown : Call → ℕ
  | .get n => n.toNat
  | .signedGet n => n.toNat
  | .show' n => n.toNat
  | .signedShow n => n.toNat
  | .flush _ => 0
  | .flushUnseen n => n.toNat
  | .getPosition => 0

/-- A call is for at most 32 bits, and `Flush` for bits that were shown: those before the position `limit`. -/
def Call.Allowed (p limit : ℕ) : Call → Prop
  | .get n => n.toNat ≤ 32
  | .signedGet n => n.toNat ≤ 32
  | .show' n => n.toNat ≤ 32
  | .signedShow n => n.toNat ≤ 32
  | .flush n => n.toNat ≤ 32 ∧ p + n.toNat ≤ limit
  | .flushUnseen n => n.toNat ≤ 32
  | .getPosition => True

def expectedAll (b : ℕ → Bool) : ℕ → List Call → List Answer
  | _, [] => []
  | p, c :: calls => c.expected b p :: expectedAll b (p + c.consumed) calls

def consumedAll (calls : List Call) : ℕ := (calls.map Call.consumed).sum

def AllowedAll : ℕ → ℕ → List Call → Prop
  | _, _, [] => True
  | p, limit, c :: calls => c.Allowed p limit ∧ AllowedAll (p + c.consumed) (max limit (p + c.shown)) calls

section
variable {mem} {s : BitStream} {p limit : ℕ}

/-- The stream is at a position, and the bits before another one are in its word. -/
structure Ready (mem : ℕ → UInt8) (s : BitStream) (p limit : ℕ) : Prop where
  at' : At mem s p
  limit : limit ≤ p + s.bitsAvailable.toNat

theorem Ready.ensure (h : Ready mem s p limit) {n : UInt32} (hn : n.toNat ≤ 32) :
    Ready mem (s.ensure mem n) p (max limit (p + n.toNat)) := by
  obtain ⟨hat, hlimit⟩ := h
  obtain ⟨he, hle⟩ := hat.ensure hn
  refine ⟨he, ?_⟩
  have hmore : s.bitsAvailable.toNat ≤ (s.ensure mem n).bitsAvailable.toNat := by
    have h1 := hat.position
    have h2 := he.position
    unfold BitStream.ensure at h2 ⊢
    split
    next hlt =>
      rw [if_pos hlt] at h2
      dsimp only at h2 ⊢
      omega
    next => exact Nat.le_refl _
  omega

theorem Ready.flush (h : Ready mem s p limit) {n : UInt32} (hn : p + n.toNat ≤ limit) :
    Ready mem (s.flush n) (p + n.toNat) limit := by
  obtain ⟨hat, hlimit⟩ := h
  have hflush := hat.flush (m := n) (by omega)
  refine ⟨hflush, ?_⟩
  have h1 := hat.position
  have h2 := hflush.position
  have hsame : (s.flush n).bitsData = s.bitsData := rfl
  omega

theorem flushUnseen_of_le {n : UInt32} (hn : n.toNat ≤ 32) (s : BitStream) :
    s.flushUnseen mem n.toNat = (s.ensure mem n).flush n := by
  have hwords : BitStream.flushWords mem n.toNat n.toNat s = (n.toNat, s) := by
    generalize n.toNat = k at hn
    cases k with
    | zero => rfl
    | succ k => exact if_neg (by omega)
  unfold BitStream.flushUnseen
  rw [hwords]
  dsimp only
  rw [UInt32.ofNat_toNat]

theorem Ready.show' (h : Ready mem s p limit) {n : UInt32} (hn : n.toNat ≤ 32) :
    (s.show' mem n).1.toNat = field (bits mem) p n.toNat := by
  obtain ⟨he, hle⟩ := h.at'.ensure hn
  exact he.slice hn hle

theorem Ready.signedShow (h : Ready mem s p limit) {n : UInt32} (hn : n.toNat ≤ 32) :
    (signExtended n (s.show' mem n).1).toInt = twosComplement n.toNat (field (bits mem) p n.toNat) := by
  have hshow := h.show' hn
  rw [← hshow]
  refine toInt_signExtended hn ?_
  rw [hshow]
  exact field_lt _ _ _

theorem Ready.perform (h : Ready mem s p limit) {c : Call} (hc : c.Allowed p limit) :
    (perform mem c s).1 = c.expected (bits mem) p ∧
      Ready mem (perform mem c s).2 (p + c.consumed) (max limit (p + c.shown)) := by
  cases c with
  | get n =>
    have hn : n.toNat ≤ 32 := hc
    exact ⟨congrArg Answer.bits (h.show' hn), (h.ensure hn).flush (Nat.le_max_right _ _)⟩
  | signedGet n =>
    have hn : n.toNat ≤ 32 := hc
    exact ⟨congrArg Answer.number (h.signedShow hn), (h.ensure hn).flush (Nat.le_max_right _ _)⟩
  | show' n =>
    have hn : n.toNat ≤ 32 := hc
    exact ⟨congrArg Answer.bits (h.show' hn), h.ensure hn⟩
  | signedShow n =>
    have hn : n.toNat ≤ 32 := hc
    exact ⟨congrArg Answer.number (h.signedShow hn), h.ensure hn⟩
  | flush n =>
    obtain ⟨-, hn⟩ : n.toNat ≤ 32 ∧ p + n.toNat ≤ limit := hc
    have hmax : max limit (p + Call.shown (.flush n)) = limit := max_eq_left (by
      show p + 0 ≤ limit
      omega)
    rw [hmax]
    exact ⟨rfl, h.flush hn⟩
  | flushUnseen n =>
    have hn : n.toNat ≤ 32 := hc
    refine ⟨rfl, ?_⟩
    show Ready mem (s.flushUnseen mem n.toNat) _ _
    rw [flushUnseen_of_le hn]
    exact (h.ensure hn).flush (Nat.le_max_right _ _)
  | getPosition =>
    have hmax : max limit (p + Call.shown .getPosition) ≤ p + s.bitsAvailable.toNat := by
      have hlimit := h.limit
      show max limit (p + 0) ≤ _
      omega
    refine ⟨?_, h.at', hmax⟩
    show Answer.position s.getPosition.1 s.getPosition.2 = _
    rw [h.at'.getPosition]
    rfl

theorem Ready.performAll (h : Ready mem s p limit) (calls : List Call) (hcalls : AllowedAll p limit calls) :
    (performAll mem calls s).1 = expectedAll (bits mem) p calls ∧
      At mem (performAll mem calls s).2 (p + consumedAll calls) := by
  induction calls generalizing s p limit with
  | nil => exact ⟨rfl, h.at'⟩
  | cons c calls ih =>
    obtain ⟨hanswer, hready⟩ := h.perform hcalls.1
    obtain ⟨hrest, hat⟩ := ih hready hcalls.2
    have hsum : p + consumedAll (c :: calls) = p + c.consumed + consumedAll calls := by
      unfold consumedAll
      rw [List.map_cons, List.sum_cons]
      omega
    rw [hsum]
    exact ⟨congrArg₂ List.cons hanswer hrest, hat⟩

/-! ### Codes -/

theorem toNat_lzcntw_le (v : UInt32) : (lzcntw v).toNat ≤ 32 := by
  unfold lzcntw
  rw [UInt32.toNat_ofNat']
  split <;> omega

/-- `GetUe` is the program, unless it shows nothing but zeros. -/
theorem getUe_eq (mem : ℕ → UInt8) (s : BitStream) :
    (s.getUe mem).2 = (ue.runOn (stream mem) s).2 ∧
      ((ue.runOn (stream mem) s).1 < 2 ^ 32 - 1 → (s.getUe mem).1.toNat = (ue.runOn (stream mem) s).1) := by
  have hle := toNat_lzcntw_le (s.show' mem 32).1
  have hrun : ue.runOn (stream mem) s =
      (if (lzcntw (s.show' mem 32).1).toNat ≠ 0 then do
        let rest ← BitProgram.get (lzcntw (s.show' mem 32).1).toNat
        pure (2 ^ (lzcntw (s.show' mem 32).1).toNat - 1 + rest)
      else pure 0 : BitProgram ℕ).runOn (stream mem)
        ((s.show' mem 32).2.flush (lzcntw (s.show' mem 32).1 + 1)) := by
    have hword : UInt32.ofNat (s.show' mem 32).1.toNat = (s.show' mem 32).1 := UInt32.ofNat_toNat
    have hflush : UInt32.ofNat ((lzcntw (s.show' mem 32).1).toNat + 1) = lzcntw (s.show' mem 32).1 + 1 := by
      rfl
    conv_rhs => rw [← hword]
    rfl
  rw [hrun]
  unfold getUe
  dsimp only
  generalize lzcntw (s.show' mem 32).1 = zeros at hle ⊢
  generalize (s.show' mem 32).2.flush (zeros + 1) = s'
  by_cases hzero : zeros = 0
  · subst hzero
    exact ⟨rfl, fun _ => rfl⟩
  · have hne : zeros.toNat ≠ 0 := fun h => hzero (UInt32.toNat_inj.mp h)
    rw [if_pos hzero, if_pos hne]
    have hget : (do
        let rest ← BitProgram.get zeros.toNat
        pure (2 ^ zeros.toNat - 1 + rest) : BitProgram ℕ).runOn (stream mem) s' =
        (2 ^ zeros.toNat - 1 + (s'.get mem zeros).1.toNat, (s'.get mem zeros).2) := by
      have hzeros : UInt32.ofNat zeros.toNat = zeros := UInt32.ofNat_toNat
      show (2 ^ zeros.toNat - 1 + (s'.get mem (UInt32.ofNat zeros.toNat)).1.toNat,
        (s'.get mem (UInt32.ofNat zeros.toNat)).2) = _
      rw [hzeros]
    rw [hget]
    refine ⟨rfl, fun hlt => ?_⟩
    have hlt32 : zeros.toNat < 32 := by
      by_contra hge
      have h32 : zeros.toNat = 32 := by omega
      rw [h32] at hlt
      omega
    have hone : (1 : UInt32).toNat = 1 := rfl
    have hpos := Nat.two_pow_pos zeros.toNat
    have hsub : ((1 : UInt32) <<< zeros - 1).toNat = 2 ^ zeros.toNat - 1 := by
      rw [UInt32.toNat_sub_of_le _ _ (UInt32.le_iff_toNat_le.mpr (by rw [toNat_bit hlt32, hone]; omega)),
        toNat_bit hlt32, hone]
    rw [UInt32.toNat_add, hsub]
    exact Nat.mod_eq_of_lt (by omega)

theorem getUe_of_spells {v : ℕ} (hat : At mem s p) (hv : v ≤ 2 ^ 32 - 2)
    (h : Spells (bits mem) p (spell (ueFields v))) :
    (s.getUe mem).1.toNat = v ∧ At mem (s.getUe mem).2 (p + (spell (ueFields v)).length) := by
  obtain ⟨hrun, hfits⟩ := reads_ue (v := v) (by omega) (bits mem) p h
  obtain ⟨hvalue, hat'⟩ := runOn_stream ue hat hfits
  rw [hrun] at hvalue hat'
  obtain ⟨hstate, hword⟩ := getUe_eq mem s
  rw [hstate]
  exact ⟨(hword (by omega)).trans hvalue, hat'⟩

theorem toInt_toInt32_neg {k : UInt32} (h : k.toNat < 2 ^ 31) : (-k).toInt32.toInt = -(k.toNat : ℤ) := by
  have hneg : (-k).toNat = (2 ^ 32 - k.toNat) % 2 ^ 32 := UInt32.toNat_neg k
  rw [toInt_toInt32, hneg]
  split <;> omega

theorem getSe_of_spells {v : ℤ} (hat : At mem s p) (hv : seCode v ≤ 2 ^ 32 - 2)
    (h : Spells (bits mem) p (spell (seFields v))) :
    (s.getSe mem).1.toInt = v ∧ At mem (s.getSe mem).2 (p + (spell (seFields v)).length) := by
  obtain ⟨hcode, hat'⟩ := getUe_of_spells hat hv h
  refine ⟨?_, hat'⟩
  unfold getSe
  dsimp only
  generalize (s.getUe mem).1 = code at hcode
  have hone : (1 : UInt32).toNat = 1 := rfl
  have hodd : code &&& 1 ≠ 0 ↔ code.toNat % 2 = 1 := by
    rw [Ne, ← UInt32.toNat_inj, UInt32.toNat_and, hone, Nat.and_one_is_mod]
    show ¬ code.toNat % 2 = 0 ↔ _
    omega
  have hhalf : (code >>> 1).toNat = code.toNat / 2 := by
    exact Nat.shiftRight_eq_div_pow _ 1
  have hbound : code.toNat ≤ 2 ^ 32 - 2 := by omega
  unfold seCode at hcode
  split
  next hbit =>
    rw [hodd] at hbit
    have hsum : (code >>> 1 + 1).toNat = code.toNat / 2 + 1 := by
      rw [UInt32.toNat_add, hhalf, hone]
      exact Nat.mod_eq_of_lt (by omega)
    rw [toInt_toInt32, hsum]
    split at hcode <;> split <;> omega
  next hbit =>
    rw [hodd] at hbit
    rw [toInt_toInt32_neg (by rw [hhalf]; split at hcode <;> omega), hhalf]
    split at hcode <;> omega

/-- **The reader**: from any alignment, any sequence of calls for up to 32 bits each, with `Flush` for bits that were
shown, gets the next bits in their order and ends at the position after those that were consumed.  A code that stands
there is read back, and nothing more. -/
theorem answers_performAll (mem : ℕ → UInt8) (pointer : ℕ) (calls : List Call)
    (h : AllowedAll (8 * pointer) (8 * pointer) calls) :
    let p := 8 * pointer + consumedAll calls
    let r := performAll mem calls (setPointer mem pointer)
    r.1 = expectedAll (bits mem) (8 * pointer) calls ∧ r.2.getPosition = (p / 8, 8 - p % 8) ∧
      (∀ v ≤ 2 ^ 32 - 2, Spells (bits mem) p (spell (ueFields v)) →
        let p' := p + (spell (ueFields v)).length
        (r.2.getUe mem).1.toNat = v ∧ (r.2.getUe mem).2.getPosition = (p' / 8, 8 - p' % 8)) ∧
      ∀ v : ℤ, seCode v ≤ 2 ^ 32 - 2 → Spells (bits mem) p (spell (seFields v)) →
        let p' := p + (spell (seFields v)).length
        (r.2.getSe mem).1.toInt = v ∧ (r.2.getSe mem).2.getPosition = (p' / 8, 8 - p' % 8) := by
  intro p r
  have hstart : Ready mem (setPointer mem pointer) (8 * pointer) (8 * pointer) :=
    ⟨at_setPointer pointer, Nat.le_add_right _ _⟩
  obtain ⟨hanswers, hat⟩ := hstart.performAll calls h
  refine ⟨hanswers, hat.getPosition, fun v hv hspells => ?_, fun v hv hspells => ?_⟩
  · obtain ⟨hvalue, hafter⟩ := getUe_of_spells hat hv hspells
    exact ⟨hvalue, hafter.getPosition⟩
  · obtain ⟨hvalue, hafter⟩ := getSe_of_spells hat hv hspells
    exact ⟨hvalue, hafter.getPosition⟩

/-- Shown and flushed bits, and a read across a word. -/
theorem answers_performAll_across :
    let calls : List Call := [.show' 8, .flush 8, .get 32, .signedGet 3]
    let p := 8 * 3 + consumedAll calls
    let r := performAll UInt8.ofNat calls (setPointer UInt8.ofNat 3)
    r.1 = expectedAll (bits UInt8.ofNat) (8 * 3) calls ∧ r.2.getPosition = (p / 8, 8 - p % 8) ∧
      (∀ v ≤ 2 ^ 32 - 2, Spells (bits UInt8.ofNat) p (spell (ueFields v)) →
        let p' := p + (spell (ueFields v)).length
        (r.2.getUe UInt8.ofNat).1.toNat = v ∧ (r.2.getUe UInt8.ofNat).2.getPosition = (p' / 8, 8 - p' % 8)) ∧
      ∀ v : ℤ, seCode v ≤ 2 ^ 32 - 2 → Spells (bits UInt8.ofNat) p (spell (seFields v)) →
        let p' := p + (spell (seFields v)).length
        (r.2.getSe UInt8.ofNat).1.toInt = v ∧
          (r.2.getSe UInt8.ofNat).2.getPosition = (p' / 8, 8 - p' % 8) :=
  answers_performAll UInt8.ofNat 3 [.show' 8, .flush 8, .get 32, .signedGet 3]
    ⟨show 8 ≤ 32 by decide, ⟨by decide, by decide⟩, show 32 ≤ 32 by decide, show 3 ≤ 32 by decide, trivial⟩

/-- Bits that were not shown are not there to be flushed. -/
theorem not_answers_performAll : ¬ ∀ (mem : ℕ → UInt8) (pointer : ℕ) (calls : List Call),
    (∀ c ∈ calls, c.consumed ≤ 32 ∧ c.shown ≤ 32) →
    (performAll mem calls (setPointer mem pointer)).1 = expectedAll (bits mem) (8 * pointer) calls := by
  intro h
  have hflush := h (fun _ => 0) 0 [.flush 32, .flush 8, .getPosition] (by decide)
  revert hflush
  decide

end

end Player2.BitStream
