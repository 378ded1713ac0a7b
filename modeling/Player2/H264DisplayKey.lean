import Player2.H264PicOrder

/-! # Display keys

`ExtendedPicOrderCnt` is the key that frames are put into display order with: the signed order count of
a picture, added to `PicOrderCntOffset`, which moves by 2^32 from one coded video sequence to the next,
upwards in forward play and downwards in backward play.  The offset moves before the key of an IDR
picture is formed and after that of a picture with an operation 5; an input jump may set it again, and
the first picture after a jump is taken for an IDR picture.

Frames are ordered by their counts throughout; the fallback from the display order of the picture
timing messages is not compiled where `__TDT__` is defined, as in the makefiles of the player. -/

namespace Player2.H264

/-! ### The source -/

/-- The first `ReadHeaders` after an input jump. -/
def OrderState.inputJump (backward : Bool) (s : OrderState) : OrderState :=
  if backward then
    { s with
      picOrderCntOffset :=
        if s.picOrderCntOffset ≤ 0x7fffffffffffffff then 0xffffffff00000000 else s.picOrderCntOffset
      picOrderCntOffsetAdjust := 0xffffffff00000000 }
  else
    { s with
      picOrderCntOffset :=
        if s.picOrderCntOffset ≤ 0x7fffffffffffffff then s.picOrderCntOffset else 0x100000000
      picOrderCntOffsetAdjust := 0x100000000 }

/-- `ReadNalSliceHeader` for the first picture after a jump, when it is no IDR picture. -/
def OrderState.pretendIdr (s : OrderState) (h : SliceHeader) : OrderState :=
  { s with
    prevPicOrderCntLsb := (h.picOrderCntLsb : Word) - 1
    prevPicOrderCntMsb := 0
    picOrderCntOffset := s.picOrderCntOffset + s.picOrderCntOffsetAdjust }

/-- A picture with the coded video sequence that it is in. -/
structure KeyedPicture where
  sequence : ℕ
  picOrderCnt : Word
  extendedPicOrderCnt : BitVec 64
deriving DecidableEq

/-- The variables of the frame parser, the number of coded video sequences that have been begun, and the
pictures so far. -/
structure KeyRun where
  order : OrderState
  behaveAsIfSeenAnIDR : Bool
  sequence : ℕ
  pictures : List KeyedPicture

/-- What happens to the variables. -/
inductive KeyEvent
  | jump
  | header (h : SliceHeader)
  | picture (h : SliceHeader) (dpbOutputDelay : Word)
  | processDecodeStacks

namespace KeyRun

/-- Read the slice header of a picture. -/
def readHeader (r : KeyRun) (h : SliceHeader) : KeyRun :=
  if h.idr then { r with behaveAsIfSeenAnIDR := true }
  else if r.behaveAsIfSeenAnIDR then r
  else
    { r with
      order := r.order.pretendIdr h
      behaveAsIfSeenAnIDR := true
      sequence := r.sequence + 1 }

/-- Calculate the order counts of a picture; it is marked before the next one. -/
def calculate (r : KeyRun) (h : SliceHeader) (dpbOutputDelay : Word) : KeyRun :=
  let result := h.calculatePicOrderCnts dpbOutputDelay r.order
  let sequence := if h.idr then r.sequence + 1 else r.sequence
  { r with
    order := h.resetFrameNum result.1
    sequence := if h.memoryControlClearSeen then sequence + 1 else sequence
    pictures := r.pictures ++ [⟨sequence, result.2.picOrderCnt, result.2.extendedPicOrderCnt⟩] }

/-- `RevPlayProcessDecodeStacks`. -/
def processDecodeStacks (r : KeyRun) : KeyRun :=
  { r with
    order :=
      { r.order with
        prevPicOrderCntMsb := 0
        prevPicOrderCntLsb := 0
        prevFrameNum := 0
        prevFrameNumOffset := 0 }
    behaveAsIfSeenAnIDR := false }

/-- Perform an event. -/
def perform (backward : Bool) (r : KeyRun) : KeyEvent → KeyRun
  | .jump => { r with order := r.order.inputJump backward, behaveAsIfSeenAnIDR := false }
  | .header h => r.readHeader h
  | .picture h dpbOutputDelay => r.calculate h dpbOutputDelay
  | .processDecodeStacks => r.processDecodeStacks

/-- Events never fail. -/
def step (backward : Bool) (r : KeyRun) (event : KeyEvent) : Option KeyRun :=
  some (r.perform backward event)

/-- Play begins with a jump. -/
def start (backward : Bool) (s : OrderState) : KeyRun := ⟨s.inputJump backward, false, 0, []⟩

end KeyRun

/-! ### The order of the keys -/

/-- The picture is displayed before another one: it is in an earlier sequence (a later one in backward
play), or it has a smaller count in the same sequence. -/
def KeyedPicture.Before (backward : Bool) (p q : KeyedPicture) : Prop :=
  (if backward then q.sequence < p.sequence else p.sequence < q.sequence) ∨
    p.sequence = q.sequence ∧ p.picOrderCnt.toInt < q.picOrderCnt.toInt

/-- The offset of a sequence, as an integer. -/
def offsetOf (backward : Bool) (sequence : ℕ) : ℤ :=
  if backward then 2 ^ 64 - (sequence + 1) * 2 ^ 32 else (sequence + 1) * 2 ^ 32

/-- The key of a picture, as an integer. -/
def KeyedPicture.key (backward : Bool) (p : KeyedPicture) : ℤ :=
  offsetOf backward p.sequence + p.picOrderCnt.toInt

/-- The adjustment, as an integer. -/
def adjustOf (backward : Bool) : ℤ := if backward then -2 ^ 32 else 2 ^ 32

/-- The offset before play in a direction begins: the initial one, or one from play in the other
direction. -/
def OrderState.Fresh (backward : Bool) (s : OrderState) : Prop :=
  if backward then s.picOrderCntOffset ≤ 0x7fffffffffffffff ∨ s.picOrderCntOffset = 0xffffffff00000000
  else 0x7fffffffffffffff < s.picOrderCntOffset ∨ s.picOrderCntOffset = 0x100000000

/-- A jump meets an offset that is still on its side of 2^63. -/
def RoomForJump (backward : Bool) (r : KeyRun) : KeyEvent → Prop
  | .jump => if backward then r.sequence ≤ 2 ^ 31 - 1 else r.sequence ≤ 2 ^ 31 - 2
  | .header _ => True
  | .picture _ _ => True
  | .processDecodeStacks => True

instance (backward : Bool) (r : KeyRun) : DecidablePred (RoomForJump backward r)
  | .jump =>
    inferInstanceAs (Decidable (if backward then r.sequence ≤ 2 ^ 31 - 1 else r.sequence ≤ 2 ^ 31 - 2))
  | .header _ | .picture _ _ | .processDecodeStacks => isTrue trivial

theorem KeyedPicture.key_lt_iff (backward : Bool) (p q : KeyedPicture) :
    p.key backward < q.key backward ↔ p.Before backward q := by
  have hp := p.picOrderCnt.toInt_lt
  have hp' := p.picOrderCnt.le_toInt
  have hq := q.picOrderCnt.toInt_lt
  have hq' := q.picOrderCnt.le_toInt
  unfold KeyedPicture.key KeyedPicture.Before offsetOf
  cases backward <;> simp only [if_true, Bool.false_eq_true, if_false] <;> omega

/-! ### The offset of a sequence -/

theorem derive_offset (h : SliceHeader) (s : OrderState) :
    (h.derive s).1.picOrderCntOffset = s.picOrderCntOffset ∧
      (h.derive s).1.picOrderCntOffsetAdjust = s.picOrderCntOffsetAdjust ∧
      (h.derive s).1.displayOrderByDpbValues = s.displayOrderByDpbValues := by
  unfold SliceHeader.derive
  split
  next =>
    unfold SliceHeader.type0
    dsimp only
    split
    next => split <;> exact ⟨rfl, rfl, rfl⟩
    next => exact ⟨rfl, rfl, rfl⟩
  next => exact ⟨rfl, rfl, rfl⟩
  next => exact ⟨rfl, rfl, rfl⟩
  next => exact ⟨rfl, rfl, rfl⟩

theorem calculatePicOrderCnts_offset (h : SliceHeader) (dpbOutputDelay : Word) {s : OrderState}
    (hcounts : s.displayOrderByDpbValues = false) :
    (h.calculatePicOrderCnts dpbOutputDelay s).2.extendedPicOrderCnt =
        s.picOrderCntOffset + (if h.idr then s.picOrderCntOffsetAdjust else 0) +
          (h.calculatePicOrderCnts dpbOutputDelay s).2.picOrderCnt.signExtend 64 ∧
      (h.calculatePicOrderCnts dpbOutputDelay s).1.picOrderCntOffset =
        s.picOrderCntOffset + (if h.idr then s.picOrderCntOffsetAdjust else 0) +
          (if h.memoryControlClearSeen then s.picOrderCntOffsetAdjust else 0) ∧
      (h.calculatePicOrderCnts dpbOutputDelay s).1.picOrderCntOffsetAdjust =
        s.picOrderCntOffsetAdjust ∧
      (h.calculatePicOrderCnts dpbOutputDelay s).1.displayOrderByDpbValues = false := by
  obtain ⟨hoffset, hadjust, hdisplay⟩ := derive_offset h s
  rw [hcounts] at hdisplay
  unfold SliceHeader.calculatePicOrderCnts
  cases h.idr <;> cases h.memoryControlClearSeen <;> simp [hoffset, hadjust, hdisplay]

theorem offsetOf_succ (backward : Bool) (n : ℕ) :
    offsetOf backward (n + 1) = offsetOf backward n + adjustOf backward := by
  unfold offsetOf adjustOf
  cases backward <;> simp only [if_true, Bool.false_eq_true, if_false] <;> omega

theorem toNat_intCast_doubleWord (z : ℤ) : ((z : BitVec 64).toNat : ℤ) = z % 2 ^ 64 := by
  have h : (z : BitVec 64).toNat = (z % 2 ^ 64).toNat := BitVec.toNat_ofInt z
  omega

theorem offsetOf_side {backward : Bool} {n : ℕ}
    (hn : if backward then n ≤ 2 ^ 31 - 1 else n ≤ 2 ^ 31 - 2) :
    (offsetOf backward n : BitVec 64) ≤ 0x7fffffffffffffff ↔ backward = false := by
  have hnat := toNat_intCast_doubleWord (offsetOf backward n)
  change (offsetOf backward n : BitVec 64).toNat ≤ 0x7fffffffffffffff ↔ _
  unfold offsetOf at hnat ⊢
  cases backward <;> simp only [if_true, Bool.false_eq_true, if_false] at hn hnat ⊢ <;>
    simp only [iff_true, reduceCtorEq, iff_false] <;> omega

/-! ### Runs -/

namespace KeyRun

/-- The offset is that of the sequence, and so are the keys. -/
structure Keyed (backward : Bool) (r : KeyRun) : Prop where
  offset : r.order.picOrderCntOffset = (offsetOf backward r.sequence : BitVec 64)
  adjust : r.order.picOrderCntOffsetAdjust = (adjustOf backward : BitVec 64)
  byCounts : r.order.displayOrderByDpbValues = false
  keys : ∀ p ∈ r.pictures, p.extendedPicOrderCnt = (p.key backward : BitVec 64)
  begun : ∀ p ∈ r.pictures, p.sequence ≤ r.sequence

section events
variable {backward : Bool} {r : KeyRun}

theorem Keyed.next (h : Keyed backward r) :
    r.order.picOrderCntOffset + r.order.picOrderCntOffsetAdjust =
      (offsetOf backward (r.sequence + 1) : BitVec 64) := by
  rw [h.offset, h.adjust, offsetOf_succ, Int.cast_add]

theorem Keyed.jump (h : Keyed backward r)
    (hroom : if backward then r.sequence ≤ 2 ^ 31 - 1 else r.sequence ≤ 2 ^ 31 - 2) :
    Keyed backward (r.perform backward .jump) := by
  have hside := offsetOf_side hroom
  rw [← h.offset] at hside
  refine ⟨?_, ?_, ?_, h.keys, h.begun⟩
  · refine Eq.trans ?_ h.offset
    change (r.order.inputJump backward).picOrderCntOffset = _
    cases backward with
    | true => exact if_neg (hside.not.mpr nofun)
    | false => exact if_pos (hside.mpr rfl)
  · cases backward <;> rfl
  · rw [← h.byCounts]
    cases backward <;> rfl

theorem Keyed.readHeader (h : Keyed backward r) (header : SliceHeader) :
    Keyed backward (r.readHeader header) := by
  unfold KeyRun.readHeader
  split
  next => exact ⟨h.offset, h.adjust, h.byCounts, h.keys, h.begun⟩
  next =>
    split
    next => exact h
    next =>
      exact ⟨h.next, h.adjust, h.byCounts, h.keys, fun p hp => (h.begun p hp).trans (Nat.le_succ _)⟩

/-- A picture is in the sequence that it begins if it is an IDR picture, and ends it with an operation
5. -/
theorem Keyed.calculate (h : Keyed backward r) (header : SliceHeader) (dpbOutputDelay : Word) :
    Keyed backward (r.calculate header dpbOutputDelay) := by
  obtain ⟨hkey, hoffset, hadjust, hcounts⟩ :=
    calculatePicOrderCnts_offset header dpbOutputDelay h.byCounts
  have hreset : ∀ s : OrderState, (header.resetFrameNum s).picOrderCntOffset = s.picOrderCntOffset ∧
      (header.resetFrameNum s).picOrderCntOffsetAdjust = s.picOrderCntOffsetAdjust ∧
      (header.resetFrameNum s).displayOrderByDpbValues = s.displayOrderByDpbValues := by
    intro s
    unfold SliceHeader.resetFrameNum
    split <;> exact ⟨rfl, rfl, rfl⟩
  obtain ⟨hoffset', hadjust', hcounts'⟩ := hreset (header.calculatePicOrderCnts dpbOutputDelay r.order).1
  have hbefore : r.order.picOrderCntOffset +
      (if header.idr then r.order.picOrderCntOffsetAdjust else 0) =
        (offsetOf backward (if header.idr then r.sequence + 1 else r.sequence) : BitVec 64) := by
    split
    next => exact h.next
    next => rw [h.offset, add_zero]
  rw [hbefore] at hkey hoffset
  refine ⟨?_, ?_, ?_, ?_, ?_⟩
  · refine hoffset'.trans (hoffset.trans ?_)
    unfold KeyRun.calculate
    dsimp only
    cases header.memoryControlClearSeen with
    | true => rw [if_pos rfl, if_pos rfl, offsetOf_succ, Int.cast_add, h.adjust]
    | false => rw [if_neg Bool.false_ne_true, if_neg Bool.false_ne_true, add_zero]
  · exact hadjust'.trans (hadjust.trans h.adjust)
  · exact hcounts'.trans hcounts
  · intro p hp
    rcases List.mem_append.mp hp with hold | hnew
    · exact h.keys p hold
    · rw [List.mem_singleton.mp hnew]
      refine hkey.trans ?_
      unfold KeyedPicture.key
      rw [Int.cast_add]
      rfl
  · intro p hp
    have hle : r.sequence ≤ (r.calculate header dpbOutputDelay).sequence ∧
        (if header.idr then r.sequence + 1 else r.sequence) ≤
          (r.calculate header dpbOutputDelay).sequence := by
      unfold KeyRun.calculate
      dsimp only
      split <;> split <;> omega
    rcases List.mem_append.mp hp with hold | hnew
    · exact (h.begun p hold).trans hle.1
    · rw [List.mem_singleton.mp hnew]
      exact hle.2

theorem Keyed.perform (h : Keyed backward r) {event : KeyEvent} (hroom : RoomForJump backward r event) :
    Keyed backward (r.perform backward event) := by
  cases event with
  | jump => exact h.jump hroom
  | header header => exact h.readHeader header
  | picture header dpbOutputDelay => exact h.calculate header dpbOutputDelay
  | processDecodeStacks => exact ⟨h.offset, h.adjust, h.byCounts, h.keys, h.begun⟩

end events

theorem inputJump_offset {backward : Bool} {s : OrderState} (hfresh : s.Fresh backward) :
    (s.inputJump backward).picOrderCntOffset = (offsetOf backward 0 : BitVec 64) := by
  unfold OrderState.Fresh at hfresh
  unfold OrderState.inputJump
  cases backward with
  | true =>
    have hbase : (offsetOf true 0 : BitVec 64) = 0xffffffff00000000 := by decide
    rw [if_pos rfl] at hfresh ⊢
    split
    next => rfl
    next hhigh => exact hfresh.resolve_left hhigh
  | false =>
    have hbase : (offsetOf false 0 : BitVec 64) = 0x100000000 := by decide
    rw [if_neg Bool.false_ne_true] at hfresh ⊢
    split
    next hlow => exact hfresh.resolve_left (BitVec.not_lt.mpr hlow)
    next => rfl

theorem start_keyed {backward : Bool} {s : OrderState} (hfresh : s.Fresh backward)
    (hcounts : s.displayOrderByDpbValues = false) : Keyed backward (start backward s) := by
  refine ⟨inputJump_offset hfresh, ?_, ?_, fun p hp => absurd hp List.not_mem_nil,
    fun p hp => absurd hp List.not_mem_nil⟩
  · cases backward <;> rfl
  · rw [← hcounts]
    cases backward <;> rfl

theorem Keyed.exact {backward : Bool} {r : KeyRun} (h : Keyed backward r)
    (hroom : r.sequence ≤ 2 ^ 32 - 2) {p : KeyedPicture} (hp : p ∈ r.pictures) :
    (p.extendedPicOrderCnt.toNat : ℤ) = p.key backward := by
  have hkey := toNat_intCast_doubleWord (p.key backward)
  have hlt := p.picOrderCnt.toInt_lt
  have hle := p.picOrderCnt.le_toInt
  have hbegun := (h.begun p hp).trans hroom
  rw [h.keys p hp, hkey]
  unfold KeyedPicture.key offsetOf
  cases backward <;> simp only [if_true, Bool.false_eq_true, if_false] <;> omega

/-- **The display key is lexicographic** and never wraps, in a run of no more than 2^32 - 2 coded video
sequences whose jumps come in the first half of them. -/
theorem run_lexicographic {backward : Bool} {s : OrderState} {events : List KeyEvent} {r : KeyRun}
    (hfresh : s.Fresh backward) (hcounts : s.displayOrderByDpbValues = false)
    (hjumps : Lts.Along (step backward) (RoomForJump backward) (start backward s) events)
    (h : Lts.run (step backward) (start backward s) events = some r)
    (hroom : r.sequence ≤ 2 ^ 32 - 2) :
    (∀ p ∈ r.pictures, (p.extendedPicOrderCnt.toNat : ℤ) = p.key backward) ∧
      ∀ p ∈ r.pictures, ∀ q ∈ r.pictures,
        p.extendedPicOrderCnt < q.extendedPicOrderCnt ↔ p.Before backward q := by
  have hkeyed : Keyed backward r :=
    Lts.run_invariant_along (fun _ _ _ ht hevent hstep => Option.some.inj hstep ▸ ht.perform hevent)
      (start_keyed hfresh hcounts) hjumps h
  refine ⟨fun p hp => hkeyed.exact hroom hp, fun p hp q hq => ?_⟩
  rw [← KeyedPicture.key_lt_iff, ← hkeyed.exact hroom hp, ← hkeyed.exact hroom hq, Int.ofNat_lt]
  exact BitVec.lt_def

/-- A long run of IDR pictures. -/
def idrPictures : ℕ → List KeyEvent
  | 0 => []
  | n + 1 =>
    .header (shortPicture true 0 0 []) :: .picture (shortPicture true 0 0 []) 0 :: idrPictures n

theorem run_idrPictures (n : ℕ) {r : KeyRun} (h : Keyed false r) :
    ∃ r', Lts.run (step false) r (idrPictures n) = some r' ∧ Keyed false r' ∧
      (∀ p ∈ r.pictures, p ∈ r'.pictures) ∧
      ∀ k < n, ∃ p ∈ r'.pictures, p.sequence = r.sequence + k + 1 ∧ p.picOrderCnt = 0 := by
  induction n generalizing r with
  | zero => exact ⟨r, rfl, h, fun p hp => hp, fun k hk => absurd hk (Nat.not_lt_zero k)⟩
  | succ n ih =>
    have hread := h.readHeader (shortPicture true 0 0 [])
    have hnext := hread.calculate (shortPicture true 0 0 []) 0
    obtain ⟨r', hrun, hkeyed, hkept, hnew⟩ := ih hnext
    have hfirst : ∃ p ∈ r'.pictures, p.sequence = r.sequence + 1 ∧ p.picOrderCnt = 0 := by
      refine ⟨_, hkept _ (List.mem_append.mpr (.inr (List.mem_singleton.mpr rfl))), rfl, ?_⟩
      rfl
    refine ⟨r', hrun, hkeyed, fun p hp => hkept p (List.mem_append.mpr (.inl hp)), fun k hk => ?_⟩
    cases k with
    | zero => exact hfirst
    | succ k =>
      obtain ⟨p, hp, hsequence, hcount⟩ := hnew k (Nat.lt_of_succ_lt_succ hk)
      refine ⟨p, hp, hsequence.trans ?_, hcount⟩
      change r.sequence + 1 + k + 1 = r.sequence + (k + 1) + 1
      omega

/-- After 2^32 - 1 sequences the offset is 0 again. -/
theorem not_run_lexicographic_wrapped :
    ¬ ∀ (backward : Bool) (s : OrderState) (events : List KeyEvent) (r : KeyRun),
        s.Fresh backward → s.displayOrderByDpbValues = false →
        Lts.run (step backward) (start backward s) events = some r →
          ∀ p ∈ r.pictures, ∀ q ∈ r.pictures,
            p.extendedPicOrderCnt < q.extendedPicOrderCnt ↔ p.Before backward q := by
  intro h
  have hfresh : OrderState.initial.Fresh false := .inr rfl
  have hstart : Keyed false (start false OrderState.initial) := start_keyed hfresh rfl
  obtain ⟨r, hrun, hkeyed, -, hpictures⟩ := run_idrPictures (2 ^ 32 - 1) hstart
  obtain ⟨p, hp, hpsequence, hpcount⟩ := hpictures 0 (by decide)
  obtain ⟨q, hq, hqsequence, hqcount⟩ := hpictures (2 ^ 32 - 2) (by decide)
  have hiff := h false _ _ r hfresh rfl hrun p hp q hq
  have hbefore : p.Before false q := by
    left
    rw [hpsequence, hqsequence]
    have hlt : 0 + 0 + 1 < 0 + (2 ^ 32 - 2) + 1 := by decide
    exact hlt
  have hkeys := hiff.mpr hbefore
  rw [hkeyed.keys p hp, hkeyed.keys q hq] at hkeys
  unfold KeyedPicture.key at hkeys
  rw [hpsequence, hqsequence, hpcount, hqcount] at hkeys
  revert hkeys
  decide +kernel

/-- An IDR picture, a picture after it, and after a jump a picture with an operation 5 and one more. -/
def jumpingPictures : List KeyEvent :=
  [.header (shortPicture true 0 0 []), .picture (shortPicture true 0 0 []) 0,
    .header (shortPicture false 1 8 []), .picture (shortPicture false 1 8 []) 0, .jump,
    .header (shortPicture false 3 4 [.clear]), .picture (shortPicture false 3 4 [.clear]) 0,
    .header (shortPicture false 1 2 []), .picture (shortPicture false 1 2 []) 0]

theorem run_lexicographic_jump :
    ∃ r, Lts.run (step false) (start false OrderState.initial) jumpingPictures = some r ∧
      (∀ p ∈ r.pictures, (p.extendedPicOrderCnt.toNat : ℤ) = p.key false) ∧
      ∀ p ∈ r.pictures, ∀ q ∈ r.pictures,
        p.extendedPicOrderCnt < q.extendedPicOrderCnt ↔ p.Before false q := by
  have hfresh : OrderState.initial.Fresh false := .inr rfl
  have hjumps : Lts.Along (step false) (RoomForJump false) (start false OrderState.initial)
      jumpingPictures := by
    decide +kernel
  have hroom : (jumpingPictures.foldl (perform false) (start false OrderState.initial)).sequence ≤
      2 ^ 32 - 2 := by
    decide +kernel
  have hrun := Lts.run_total (perform false) (start false OrderState.initial) jumpingPictures
  exact ⟨_, hrun, run_lexicographic hfresh rfl hjumps hrun hroom⟩

end KeyRun

end Player2.H264
