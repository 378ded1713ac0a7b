import Mathlib

/-! # The entries for a frame in the display queue

`Manifestor_VideoStmfb_c::QueueBuffer` splits the time for which a frame is displayed into queue entries:
at the end of the first field, and, when pan-scan vectors are used for each entry, at the end of each
pan-scan interval.

`Partition` says what the entries are to be.  The loop clips an entry against the whole length of an
interval, not against what is left of it, and goes on to the next field or interval when a boundary is met
exactly; `partitioned_iff` says for which frames that is right.  A frame that is queued as one entry never
gets its `PSIndex`. -/

namespace Player2.QueueRecords

/-! ### The source -/

def maxPanScanValues : ℕ := 3

/-- The value of an `unsigned int`. -/
def word (n : ℕ) : ℕ := n % 2 ^ 32

/-- `PanScan_t`; the array has `MAX_PAN_SCAN_VALUES` elements. -/
structure PanScan where
  count : ℕ
  displayCount : ℕ → ℕ
  count_le : count ≤ maxPanScanValues
  displayCount_lt : ∀ i, displayCount i < 2 ^ 32

/-- The output timing of a frame, and what else decides about its entries: the policies, the speed, the
scan type of the display and the flags for the colour matrix. -/
structure Frame where
  interlaced : Bool
  topFieldFirst : Bool
  displayCount0 : ℕ
  displayCount1 : ℕ
  panScan : PanScan
  panScanPolicy : Bool
  policy4x3 : Bool
  speed : Rat
  progressive : Bool
  colourMatrixFlags : ℕ
  displayCount0_lt : displayCount0 < 2 ^ 32
  displayCount1_lt : displayCount1 < 2 ^ 32

/-- The flags of an entry. -/
structure Flags where
  colourMatrixFlags : ℕ
  interlaced : Bool
  interpolateFields : Bool
  bottomFieldFirst : Bool
  topFieldOnly : Bool
  bottomFieldOnly : Bool
deriving DecidableEq

/-- `QueueRecord_s`; a `PSIndex` that has not been written is `none`. -/
structure QueueRecord where
  flags : Flags
  count : ℕ
  psIndex : Option ℤ
deriving DecidableEq

/-- The variables of the loop. -/
structure LoopState where
  count : ℕ
  dCount : ℕ
  pCount : ℕ
  psIndex : ℕ
  fieldFlags : Flags

namespace Frame

/-- The pan-scan information is looked at. -/
def checksPanScan (f : Frame) : Bool := f.panScanPolicy && f.policy4x3 && decide (0 < f.panScan.count)

def usePanScan (f : Frame) : Bool := f.checksPanScan && decide (f.panScan.count ≠ 1)

/-- `i` after the pan-scan counts have been added up. -/
def leftover (f : Frame) : ℕ := if f.checksPanScan then f.panScan.count else 0

/-- The flags of both fields. -/
def commonFlags (f : Frame) : Flags where
  colourMatrixFlags := f.colourMatrixFlags
  interlaced := f.interlaced
  interpolateFields := f.speed < 1
  bottomFieldFirst := false
  topFieldOnly := false
  bottomFieldOnly := false

/-- `FirstFieldFlags` for the loop. -/
def firstFieldFlags (f : Frame) : Flags :=
  if 0 < f.displayCount1 then
    if f.topFieldFirst then { f.commonFlags with topFieldOnly := true }
    else { f.commonFlags with bottomFieldOnly := true }
  else f.commonFlags

def secondFieldFlags (f : Frame) : Flags :=
  if 0 < f.displayCount1 then
    if f.topFieldFirst then { f.commonFlags with bottomFieldOnly := true }
    else { f.commonFlags with topFieldOnly := true }
  else f.commonFlags

/-- An interlaced frame that is repeated on an interlaced display is queued as one entry. -/
def special (f : Frame) : Bool :=
  decide (1 < f.displayCount0) && decide (f.speed = 1) && f.interlaced && !f.progressive

/-- The entry for that; its `PSIndex` is written to where `i` was left. -/
def specialRecord (f : Frame) : QueueRecord where
  flags := if f.topFieldFirst then f.commonFlags else { f.commonFlags with bottomFieldFirst := true }
  count := word (f.displayCount0 + f.displayCount1)
  psIndex := if f.leftover = 0 then some 0 else none

def fieldCount (f : Frame) (s : LoopState) : ℕ :=
  let fieldCount := word (s.dCount + (2 ^ 32 - s.count))
  if f.usePanScan && decide (f.panScan.displayCount s.psIndex < fieldCount) then
    f.panScan.displayCount s.psIndex
  else fieldCount

/-- The entry that is written in a round of the loop. -/
def record (f : Frame) (s : LoopState) : QueueRecord where
  flags := s.fieldFlags
  count := f.fieldCount s
  psIndex := some (if f.usePanScan then s.psIndex else -1)

/-- `PSIndex` after the end of an interval. -/
def nextPSIndex (f : Frame) (s : LoopState) : ℕ :=
  if s.psIndex < f.panScan.count - 1 then s.psIndex + 1 else s.psIndex

/-- The variables after a round of the loop. -/
def next (f : Frame) (s : LoopState) : LoopState :=
  let count := word (s.count + f.fieldCount s)
  let fieldEnds := decide (count = s.dCount)
  let intervalEnds := f.usePanScan && decide (count = s.pCount)
  { count := count
    dCount := if fieldEnds then word (s.dCount + f.displayCount1) else s.dCount
    pCount :=
      if intervalEnds then word (s.pCount + f.panScan.displayCount (f.nextPSIndex s)) else s.pCount
    psIndex := if intervalEnds then f.nextPSIndex s else s.psIndex
    fieldFlags := if fieldEnds then f.secondFieldFlags else s.fieldFlags }

/-- The loop, with room for as many more entries in `QueueRecord`; it fails when it writes an entry for
which there is no room, which it does if it does not end. -/
def loop (f : Frame) : ℕ → LoopState → Option (List QueueRecord)
  | 0, s => if s.count < word (f.displayCount0 + f.displayCount1) then none else some []
  | room + 1, s =>
    if s.count < word (f.displayCount0 + f.displayCount1) then
      (f.loop room (f.next s)).map fun rest => f.record s :: rest
    else some []

/-- The variables before the loop. -/
def initial (f : Frame) : LoopState where
  count := 0
  dCount := f.displayCount0
  pCount := f.panScan.displayCount 0
  psIndex := 0
  fieldFlags := f.firstFieldFlags

/-- The queue records that `QueueBuffer` makes. -/
def queueRecords (f : Frame) : Option (List QueueRecord) :=
  if f.special then some [f.specialRecord] else f.loop (2 * maxPanScanValues) f.initial

/-! ### The specification -/

/-- The time for which the frame is displayed. -/
def total (f : Frame) : ℕ := f.displayCount0 + f.displayCount1

/-- Where a pan-scan interval starts. -/
def intervalStart (f : Frame) : ℕ → ℕ
  | 0 => 0
  | k + 1 => f.intervalStart k + f.panScan.displayCount k

/-- The pan-scan intervals, where they are looked at, fill the time. -/
def Matched (f : Frame) : Prop := f.checksPanScan = true → f.intervalStart f.panScan.count = f.total

/-- An entry that begins at `start` is in one field and in one pan-scan interval, and says so. -/
structure Fits (f : Frame) (start : ℕ) (e : QueueRecord) : Prop where
  positive : 0 < e.count
  field : (start + e.count ≤ f.displayCount0 ∧ e.flags = f.firstFieldFlags) ∨
    (f.displayCount0 ≤ start ∧ e.flags = f.secondFieldFlags)
  psIndex : ∃ i, e.psIndex = some i ∧ (i < 0 ↔ f.usePanScan = false) ∧
    (f.usePanScan = true → ∃ k < f.panScan.count, i = k ∧ f.intervalStart k ≤ start ∧
      start + e.count ≤ f.intervalStart (k + 1))

/-- The entries fill what is left of the time after `start`, one after the other. -/
def Partition (f : Frame) : ℕ → List QueueRecord → Prop
  | start, [] => start = f.total
  | start, e :: rest => f.Fits start e ∧ f.Partition (start + e.count) rest

/-- The entries are written inside `QueueRecord` and fill the time. -/
def Partitioned (f : Frame) : Prop := ∃ rs, f.queueRecords = some rs ∧ f.Partition 0 rs

/-- The condition on an interval: it is not empty while there is time left, and the first field does not
end inside it unless the frame ends with it. -/
def IntervalFine (f : Frame) (k : ℕ) : Prop :=
  (f.panScan.displayCount k = 0 → f.total ≤ f.intervalStart k) ∧
    (f.intervalStart k < f.displayCount0 → f.displayCount0 < f.intervalStart (k + 1) →
      f.intervalStart (k + 1) = f.total)

/-- The condition on a frame. -/
structure Fine (f : Frame) : Prop where
  ordinary : f.special = false
  total_lt : f.total < 2 ^ 32
  first : 0 < f.total → 0 < f.displayCount0
  intervals : f.usePanScan = true → ∀ k < f.panScan.count, f.IntervalFine k

/-! ### One round of the loop -/

theorem word_of_lt {n : ℕ} (h : n < 2 ^ 32) : word n = n := Nat.mod_eq_of_lt h

theorem word_sub {a b : ℕ} (hab : a ≤ b) (hb : b < 2 ^ 32) : word (b + (2 ^ 32 - a)) = b - a := by
  unfold word
  omega

section

variable {f : Frame}

theorem intervalStart_mono (f : Frame) : Monotone f.intervalStart :=
  monotone_nat_of_le_succ fun _ => Nat.le_add_right _ _

theorem loop_done {s : LoopState} (h : ¬ s.count < word f.total) (room : ℕ) :
    f.loop room s = some [] := by
  cases room <;> exact if_neg h

theorem exists_loop_iff {s : LoopState} (h : s.count < word f.total) (room start : ℕ) :
    (∃ rs, f.loop (room + 1) s = some rs ∧ f.Partition start rs) ↔
      f.Fits start (f.record s) ∧
        ∃ rs, f.loop room (f.next s) = some rs ∧ f.Partition (start + f.fieldCount s) rs := by
  have hloop : f.loop (room + 1) s = (f.loop room (f.next s)).map fun rest => f.record s :: rest :=
    if_pos h
  rw [hloop]
  constructor
  · rintro ⟨rs, hrs, hpartition⟩
    obtain ⟨rest, hrest, rfl⟩ := Option.map_eq_some_iff.mp hrs
    exact ⟨hpartition.1, rest, hrest, hpartition.2⟩
  · rintro ⟨hfits, rest, hrest, hpartition⟩
    exact ⟨_, Option.map_eq_some_iff.mpr ⟨rest, hrest, rfl⟩, hfits, hpartition⟩

end

/-! ### Pan-scan intervals -/

section

variable {f : Frame} {k : ℕ}

/-- The variables at the start of an interval. -/
def boundary (f : Frame) (k : ℕ) : LoopState where
  count := f.intervalStart k
  dCount := if f.intervalStart k < f.displayCount0 then f.displayCount0 else f.total
  pCount := f.intervalStart (k + 1)
  psIndex := k
  fieldFlags := if f.intervalStart k < f.displayCount0 then f.firstFieldFlags else f.secondFieldFlags

/-- The intervals fill the time, which is representable. -/
structure Filled (f : Frame) : Prop where
  usePanScan : f.usePanScan = true
  total_lt : f.total < 2 ^ 32
  filled : f.intervalStart f.panScan.count = f.total

theorem Filled.le_total (h : f.Filled) (hk : k ≤ f.panScan.count) : f.intervalStart k ≤ f.total :=
  h.filled ▸ f.intervalStart_mono hk

theorem Filled.fieldCount (h : f.Filled) {s : LoopState} (hle : s.count ≤ s.dCount)
    (hd : s.dCount ≤ f.total) :
    f.fieldCount s = min (s.dCount - s.count) (f.panScan.displayCount s.psIndex) := by
  have hlt := h.total_lt
  rw [Frame.fieldCount, word_sub hle (by omega), h.usePanScan]
  simp only [Bool.true_and, decide_eq_true_eq]
  split <;> omega

theorem Filled.fieldCount_boundary (h : f.Filled) (hk : k < f.panScan.count)
    (hwhole : f.intervalStart k < f.displayCount0 → f.intervalStart (k + 1) ≤ f.displayCount0) :
    f.fieldCount (f.boundary k) = f.panScan.displayCount k := by
  have hle : f.intervalStart (k + 1) ≤ f.total := h.le_total hk
  have hstep : f.intervalStart (k + 1) = f.intervalStart k + f.panScan.displayCount k := rfl
  have htotal : f.total = f.displayCount0 + f.displayCount1 := rfl
  rw [h.fieldCount]
  · dsimp only [boundary]
    split <;> omega
  · dsimp only [boundary]
    split <;> omega
  · dsimp only [boundary]
    split <;> omega

/-- The round after that starts with the next interval, or the time is filled. -/
theorem Filled.loop_next (h : f.Filled) (hk : k < f.panScan.count) (hpos : 0 < f.panScan.displayCount k)
    (hwhole : f.intervalStart k < f.displayCount0 → f.intervalStart (k + 1) ≤ f.displayCount0)
    (room : ℕ) : f.loop room (f.next (f.boundary k)) = f.loop room (f.boundary (k + 1)) := by
  have hle : f.intervalStart (k + 1) ≤ f.total := h.le_total hk
  have hlt := h.total_lt
  have hstep : f.intervalStart (k + 1) = f.intervalStart k + f.panScan.displayCount k := rfl
  have htotal : f.total = f.displayCount0 + f.displayCount1 := rfl
  have hcount : (f.next (f.boundary k)).count = f.intervalStart (k + 1) := by
    dsimp only [Frame.next]
    rw [h.fieldCount_boundary hk hwhole, word_of_lt]
    · rfl
    · dsimp only [boundary]
      omega
  rcases Nat.lt_or_eq_of_le hle with hmore | hfull
  · -- there is another interval
    have hnext : k + 1 < f.panScan.count := by
      refine Nat.lt_of_le_of_ne hk fun heq => ?_
      rw [heq, h.filled] at hmore
      omega
    have hps : f.nextPSIndex (f.boundary k) = k + 1 := if_pos (show k < f.panScan.count - 1 by omega)
    have hle' : f.intervalStart (k + 1 + 1) ≤ f.total := h.le_total hnext
    have hstep' : f.intervalStart (k + 1 + 1) =
        f.intervalStart (k + 1) + f.panScan.displayCount (k + 1) := rfl
    have hwordcount : word (f.intervalStart k + f.fieldCount (f.boundary k)) = f.intervalStart (k + 1) :=
      hcount
    congr 1
    simp only [Frame.next, h.usePanScan, hps]
    simp only [boundary] at hwordcount ⊢
    simp only [hwordcount, decide_true, Bool.and_true, if_true, LoopState.mk.injEq, true_and,
      decide_eq_true_eq]
    refine ⟨?_, ?_, ?_⟩
    · by_cases hfirst : f.intervalStart k < f.displayCount0
      · rw [if_pos hfirst]
        by_cases hend : f.intervalStart (k + 1) = f.displayCount0
        · rw [if_pos hend, if_neg (by omega), ← htotal, word_of_lt hlt]
        · have := hwhole hfirst
          rw [if_neg hend, if_pos (by omega)]
      · rw [if_neg hfirst, if_neg (by omega), if_neg (by omega)]
    · rw [word_of_lt (by omega), hstep']
    · by_cases hfirst : f.intervalStart k < f.displayCount0
      · rw [if_pos hfirst, if_pos hfirst]
        by_cases hend : f.intervalStart (k + 1) = f.displayCount0
        · rw [if_pos hend, if_neg (by omega)]
        · have := hwhole hfirst
          rw [if_neg hend, if_pos (by omega)]
      · rw [if_neg hfirst, if_neg hfirst, if_neg (by omega), if_neg (by omega)]
  · rw [loop_done, loop_done]
    · dsimp only [boundary]
      rw [word_of_lt hlt]
      omega
    · rw [hcount, word_of_lt hlt]
      omega

theorem Filled.record_psIndex (h : f.Filled) (s : LoopState) :
    (f.record s).psIndex = some (s.psIndex : ℤ) := by
  dsimp only [Frame.record]
  rw [h.usePanScan]
  rfl

theorem Filled.fits_record (h : f.Filled) {s : LoopState} {start : ℕ}
    (hk : s.psIndex < f.panScan.count) (hpos : 0 < f.fieldCount s)
    (hfield : (start + f.fieldCount s ≤ f.displayCount0 ∧ s.fieldFlags = f.firstFieldFlags) ∨
      (f.displayCount0 ≤ start ∧ s.fieldFlags = f.secondFieldFlags))
    (hstart : f.intervalStart s.psIndex ≤ start)
    (hend : start + f.fieldCount s ≤ f.intervalStart (s.psIndex + 1)) : f.Fits start (f.record s) := by
  refine ⟨hpos, hfield, s.psIndex, h.record_psIndex s, ?_, fun _ => ⟨s.psIndex, hk, rfl, hstart, hend⟩⟩
  rw [h.usePanScan]
  exact iff_of_false (by omega) nofun

theorem Filled.fits_boundary (h : f.Filled) (hk : k < f.panScan.count)
    (hpos : 0 < f.panScan.displayCount k)
    (hwhole : f.intervalStart k < f.displayCount0 → f.intervalStart (k + 1) ≤ f.displayCount0) :
    f.Fits (f.intervalStart k) (f.record (f.boundary k)) := by
  have hcount := h.fieldCount_boundary hk hwhole
  refine h.fits_record hk (by omega) ?_ (Nat.le_refl _) ?_
  · rw [hcount]
    by_cases hfirst : f.intervalStart k < f.displayCount0
    · exact .inl ⟨hwhole hfirst, if_pos hfirst⟩
    · exact .inr ⟨by omega, if_neg hfirst⟩
  · rw [hcount]
    exact Nat.le_refl _

/-- Where the first field ends inside an interval, the next entry is clipped against the whole interval:
it fits only if the frame ends with the interval. -/
theorem Filled.exists_loop_crossing (h : f.Filled) (hk : k < f.panScan.count)
    (hfirst : f.intervalStart k < f.displayCount0) (hend : f.displayCount0 < f.intervalStart (k + 1))
    (room : ℕ) :
    (∃ rs, f.loop (room + 2) (f.boundary k) = some rs ∧ f.Partition (f.intervalStart k) rs) ↔
      f.intervalStart (k + 1) = f.total := by
  have hle : f.intervalStart (k + 1) ≤ f.total := h.le_total hk
  have hlt := h.total_lt
  have hstep : f.intervalStart (k + 1) = f.intervalStart k + f.panScan.displayCount k := rfl
  have htotal : f.total = f.displayCount0 + f.displayCount1 := rfl
  have hwork : (f.boundary k).count < word f.total := by
    rw [word_of_lt hlt]
    dsimp only [boundary]
    omega
  have hcount : f.fieldCount (f.boundary k) = f.displayCount0 - f.intervalStart k := by
    rw [h.fieldCount] <;> dsimp only [boundary] <;> rw [if_pos hfirst] <;> omega
  have hword : word (f.intervalStart k + (f.displayCount0 - f.intervalStart k)) = f.displayCount0 := by
    rw [word_of_lt] <;> omega
  have hnext : f.next (f.boundary k) =
      ⟨f.displayCount0, f.total, f.intervalStart (k + 1), k, f.secondFieldFlags⟩ := by
    have hne : f.displayCount0 ≠ f.intervalStart (k + 1) := by omega
    have hall : word (f.displayCount0 + f.displayCount1) = f.total := word_of_lt hlt
    simp only [Frame.next, hcount, h.usePanScan]
    simp [boundary, hfirst, hword, hne, hall]
  have hfits : f.Fits (f.intervalStart k) (f.record (f.boundary k)) := by
    refine h.fits_record hk (by omega) (.inl ⟨by omega, if_pos hfirst⟩) (Nat.le_refl _) ?_
    rw [hcount]
    dsimp only [boundary]
    omega
  have hstart : f.intervalStart k + f.fieldCount (f.boundary k) = f.displayCount0 := by omega
  rw [exists_loop_iff hwork, and_iff_right hfits, hstart, hnext]
  generalize hs : LoopState.mk f.displayCount0 f.total (f.intervalStart (k + 1)) k f.secondFieldFlags = s
  have hscount : s.count = f.displayCount0 := hs ▸ rfl
  have hsd : s.dCount = f.total := hs ▸ rfl
  have hsps : s.psIndex = k := hs ▸ rfl
  have hsflags : s.fieldFlags = f.secondFieldFlags := hs ▸ rfl
  have hwork' : s.count < word f.total := by
    rw [word_of_lt hlt]
    omega
  have hcount' : f.fieldCount s = min f.displayCount1 (f.panScan.displayCount k) := by
    rw [h.fieldCount (by omega) (by omega), hsps]
    omega
  rw [exists_loop_iff hwork']
  constructor
  · rintro ⟨hfits', -⟩
    obtain ⟨i, hi, -, hinterval⟩ := hfits'.psIndex
    obtain ⟨j, -, rfl, -, hin⟩ := hinterval h.usePanScan
    obtain rfl : k = j := by
      rw [h.record_psIndex, hsps] at hi
      exact Int.ofNat.inj (Option.some.inj hi)
    dsimp only [Frame.record] at hin
    omega
  · intro hlast
    have hall : f.fieldCount s = f.displayCount1 := by omega
    refine ⟨h.fits_record (by omega) (by omega) (.inr ⟨Nat.le_refl _, hsflags⟩) ?_ ?_, [], ?_, ?_⟩
    · rw [hsps]
      omega
    · rw [hsps]
      omega
    · refine loop_done ?_ room
      dsimp only [Frame.next]
      rw [hall, hscount, ← htotal, word_of_lt hlt]
      exact Nat.lt_irrefl _
    · change _ = f.total
      omega

/-- From the start of an interval on, the entries are right exactly if the intervals meet the condition. -/
theorem Filled.exists_loop_boundary (h : f.Filled) {k : ℕ} (room : ℕ) (hk : k ≤ f.panScan.count)
    (hroom : 2 * (f.panScan.count - k) ≤ room) :
    (∃ rs, f.loop room (f.boundary k) = some rs ∧ f.Partition (f.intervalStart k) rs) ↔
      ∀ j, k ≤ j → j < f.panScan.count → f.IntervalFine j := by
  by_cases hfull : f.intervalStart k = f.total
  · refine iff_of_true ⟨[], loop_done ?_ room, hfull⟩ ?_
    · rw [word_of_lt h.total_lt]
      dsimp only [boundary]
      omega
    · intro j hkj hj
      have hstart : f.total ≤ f.intervalStart j := hfull ▸ f.intervalStart_mono hkj
      have hle : f.intervalStart (j + 1) ≤ f.total := h.le_total hj
      refine ⟨fun _ => hstart, fun _ hend => ?_⟩
      have hmono := f.intervalStart_mono (Nat.le_succ j)
      omega
  · have hlt : k < f.panScan.count := by
      refine Nat.lt_of_le_of_ne hk ?_
      rintro rfl
      exact hfull h.filled
    have hmore : f.intervalStart k < f.total := Nat.lt_of_le_of_ne (h.le_total hk) hfull
    obtain ⟨room, rfl⟩ : ∃ r, room = r + 2 := ⟨room - 2, by omega⟩
    have hsplit : (∀ j, k ≤ j → j < f.panScan.count → f.IntervalFine j) ↔
        f.IntervalFine k ∧ ∀ j, k + 1 ≤ j → j < f.panScan.count → f.IntervalFine j := by
      constructor
      · exact fun hall => ⟨hall k (Nat.le_refl k) hlt, fun j hj => hall j (by omega)⟩
      · rintro ⟨hhere, hrest⟩ j hkj hj
        rcases Nat.eq_or_lt_of_le hkj with rfl | hlater
        · exact hhere
        · exact hrest j hlater hj
    by_cases hcross : f.intervalStart k < f.displayCount0 ∧ f.displayCount0 < f.intervalStart (k + 1)
    · rw [h.exists_loop_crossing hlt hcross.1 hcross.2]
      constructor
      · intro hlast j hkj hj
        rcases Nat.eq_or_lt_of_le hkj with rfl | hlater
        · refine ⟨fun hzero => ?_, fun _ _ => hlast⟩
          have hstep : f.intervalStart (k + 1) = f.intervalStart k + f.panScan.displayCount k := rfl
          omega
        · have hstart : f.total ≤ f.intervalStart j := hlast ▸ f.intervalStart_mono hlater
          have htotal : f.total = f.displayCount0 + f.displayCount1 := rfl
          exact ⟨fun _ => hstart, fun hj0 => by omega⟩
      · exact fun hall => (hall k (Nat.le_refl k) hlt).2 hcross.1 hcross.2
    · have hwhole : f.intervalStart k < f.displayCount0 → f.intervalStart (k + 1) ≤ f.displayCount0 := by
        intro hfirst
        have := not_and.mp hcross hfirst
        omega
      have hwork : (f.boundary k).count < word f.total := by
        rw [word_of_lt h.total_lt]
        exact hmore
      have hcount := h.fieldCount_boundary hlt hwhole
      rw [exists_loop_iff hwork, hsplit]
      by_cases hpos : 0 < f.panScan.displayCount k
      · rw [and_iff_right (h.fits_boundary hlt hpos hwhole), h.loop_next hlt hpos hwhole, hcount]
        have hfine : f.IntervalFine k := ⟨fun hzero => by omega, fun hfirst hend => by
          have := hwhole hfirst
          omega⟩
        rw [and_iff_right hfine]
        exact h.exists_loop_boundary _ hlt (by omega)
      · refine iff_of_false ?_ ?_
        · rintro ⟨hfits, -⟩
          have hfitspos := hfits.positive
          dsimp only [Frame.record] at hfitspos
          omega
        · rintro ⟨hfine, -⟩
          have := hfine.1 (by omega)
          omega
termination_by f.panScan.count - k

end

/-! ### Frames -/

section

variable {f : Frame}

theorem not_partitioned_of_special (h : f.special = true) : ¬ f.Partitioned := by
  rintro ⟨rs, hrs, hpartition⟩
  obtain rfl : [f.specialRecord] = rs := by
    rw [queueRecords, if_pos h] at hrs
    exact Option.some.inj hrs
  obtain ⟨i, hi, hneg, -⟩ := hpartition.1.psIndex
  dsimp only [specialRecord] at hi
  by_cases hleft : f.leftover = 0
  · rw [if_pos hleft] at hi
    obtain rfl := Option.some.inj hi
    have hchecks : f.checksPanScan = false := by
      rw [Bool.eq_false_iff]
      intro hchecks
      rw [leftover, if_pos hchecks] at hleft
      rw [checksPanScan, hleft] at hchecks
      simp at hchecks
    have hlt : (0 : ℤ) < 0 := hneg.mpr (by rw [usePanScan, hchecks, Bool.false_and])
    omega
  · rw [if_neg hleft] at hi
    cases hi

theorem Partition.sum {start : ℕ} {rs : List QueueRecord} (h : f.Partition start rs) :
    start + (rs.map QueueRecord.count).sum = f.total := by
  induction rs generalizing start with
  | nil => exact h
  | cons e rest ih =>
    have hrest := ih h.2
    rw [List.map_cons, List.sum_cons]
    omega

theorem loop_sum_le (hwrap : word f.total ≤ f.displayCount0) {room : ℕ} {s : LoopState}
    {rs : List QueueRecord} (hle : s.count ≤ f.displayCount0)
    (hfirst : s.count < f.displayCount0 → s.dCount = f.displayCount0) (h : f.loop room s = some rs) :
    s.count + (rs.map QueueRecord.count).sum ≤ f.displayCount0 := by
  induction room generalizing s rs with
  | zero =>
    unfold loop at h
    split at h
    · cases h
    · obtain rfl := Option.some.inj h
      exact hle
  | succ room ih =>
    by_cases hwork : s.count < word f.total
    · have hloop : (f.loop room (f.next s)).map (fun rest => f.record s :: rest) = some rs :=
        (if_pos hwork).symm.trans h
      obtain ⟨rest, hrest, rfl⟩ := Option.map_eq_some_iff.mp hloop
      have hd : s.dCount = f.displayCount0 := hfirst (by omega)
      have hlt := f.displayCount0_lt
      have hfield : f.fieldCount s ≤ f.displayCount0 - s.count := by
        rw [fieldCount, hd, word_sub hle hlt]
        split
        next hclip =>
          rw [Bool.and_eq_true, decide_eq_true_eq] at hclip
          omega
        next => exact Nat.le_refl _
      have hcount : (f.next s).count = s.count + f.fieldCount s := word_of_lt (by omega)
      have hnext : (f.next s).count < f.displayCount0 → (f.next s).dCount = f.displayCount0 := by
        intro hmore
        have hne : word (s.count + f.fieldCount s) ≠ s.dCount := by
          change (f.next s).count ≠ s.dCount
          omega
        dsimp only [next]
        rw [if_neg (by simpa using hne), hd]
      have hsum := ih (by omega) hnext hrest
      rw [List.map_cons, List.sum_cons]
      change s.count + (f.fieldCount s + _) ≤ _
      omega
    · rw [loop_done hwork] at h
      obtain rfl := Option.some.inj h
      exact hle

theorem not_partitioned_of_le (hspecial : f.special = false) (h : 2 ^ 32 ≤ f.total) :
    ¬ f.Partitioned := by
  rintro ⟨rs, hrs, hpartition⟩
  have hlt0 := f.displayCount0_lt
  have hlt1 := f.displayCount1_lt
  have htotal : f.total = f.displayCount0 + f.displayCount1 := rfl
  have hwrap : word f.total ≤ f.displayCount0 := by
    unfold word
    omega
  have hloop : f.loop (2 * maxPanScanValues) f.initial = some rs := by
    rw [queueRecords, hspecial] at hrs
    exact hrs
  have hsum := loop_sum_le hwrap (Nat.zero_le _) (fun _ => rfl) hloop
  have hall := Partition.sum hpartition
  omega

theorem not_partitioned_of_zero (hspecial : f.special = false) (hlt : f.total < 2 ^ 32)
    (hpos : 0 < f.total) (h : f.displayCount0 = 0) : ¬ f.Partitioned := by
  rintro ⟨rs, hrs, hpartition⟩
  have hloop : f.loop (5 + 1) f.initial = some rs := by
    rw [queueRecords, hspecial] at hrs
    exact hrs
  have hwork : f.initial.count < word f.total := by
    rw [word_of_lt hlt]
    exact hpos
  obtain ⟨hfits, -⟩ := (exists_loop_iff hwork 5 0).mp ⟨rs, hloop, hpartition⟩
  have hfield : f.fieldCount f.initial = 0 := by
    rw [fieldCount, initial, h, word_sub (Nat.le_refl 0) (by omega)]
    simp
  have hzero := hfits.positive
  change 0 < f.fieldCount f.initial at hzero
  omega

/-- Without vectors for each entry there is one entry for each field. -/
theorem partitioned_of_fields (hspecial : f.special = false) (hlt : f.total < 2 ^ 32)
    (hfirst : 0 < f.displayCount0) (huse : f.usePanScan = false) : f.Partitioned := by
  have htotal : f.total = f.displayCount0 + f.displayCount1 := rfl
  have hfield (s : LoopState) (hle : s.count ≤ s.dCount) (hd : s.dCount < 2 ^ 32) :
      f.fieldCount s = s.dCount - s.count := by
    rw [fieldCount, huse, word_sub hle hd]
    rfl
  have hps (s : LoopState) : (f.record s).psIndex = some (-1) := by
    dsimp only [Frame.record]
    rw [huse]
    rfl
  have hnone : (-1 : ℤ) < 0 ↔ f.usePanScan = false := by
    rw [huse]
    exact iff_of_true (by omega) rfl
  have hnouse {p : Prop} : f.usePanScan = true → p := fun h => absurd (huse.symm.trans h) nofun
  have hcount := hfield f.initial (Nat.zero_le _) f.displayCount0_lt
  change _ = f.displayCount0 at hcount
  have hnext : f.next f.initial =
      ⟨f.displayCount0, f.total, f.panScan.displayCount 0, 0, f.secondFieldFlags⟩ := by
    have hall : word (f.displayCount0 + f.displayCount1) = f.total := word_of_lt hlt
    have hone : word f.displayCount0 = f.displayCount0 := word_of_lt f.displayCount0_lt
    simp only [Frame.next, hcount, huse]
    simp [initial, hone, hall]
  unfold Partitioned
  rw [queueRecords, hspecial]
  have hwork : f.initial.count < word f.total := by
    rw [word_of_lt hlt]
    change 0 < _
    omega
  refine (exists_loop_iff hwork 5 0).mpr ⟨⟨?_, .inl ⟨?_, rfl⟩, -1, hps _, hnone, hnouse⟩, ?_⟩
  · change 0 < f.fieldCount f.initial
    omega
  · change 0 + f.fieldCount f.initial ≤ _
    omega
  · rw [hnext, hcount, Nat.zero_add]
    by_cases hsecond : f.displayCount1 = 0
    · refine ⟨[], loop_done ?_ 5, ?_⟩
      · rw [word_of_lt hlt]
        dsimp only
        omega
      · change _ = f.total
        omega
    · generalize hs : LoopState.mk f.displayCount0 f.total (f.panScan.displayCount 0) 0
        f.secondFieldFlags = s
      have hscount : s.count = f.displayCount0 := hs ▸ rfl
      have hsd : s.dCount = f.total := hs ▸ rfl
      have hsflags : s.fieldFlags = f.secondFieldFlags := hs ▸ rfl
      have hwork' : s.count < word f.total := by
        rw [word_of_lt hlt]
        omega
      have hcount' := hfield s (by omega) (by omega)
      refine (exists_loop_iff hwork' 4 _).mpr
        ⟨⟨?_, .inr ⟨Nat.le_refl _, hsflags⟩, -1, hps s, hnone, hnouse⟩, [], loop_done ?_ 4, ?_⟩
      · change 0 < f.fieldCount s
        omega
      · dsimp only [next]
        rw [hcount', word_of_lt (by omega), word_of_lt hlt]
        omega
      · change _ = f.total
        omega

end

/-- **The entries for a frame**: they fill the time for which the frame is displayed, and say in which
field and interval they are, exactly if the frame meets the condition. -/
theorem partitioned_iff {f : Frame} (h : f.Matched) : f.Partitioned ↔ f.Fine := by
  by_cases hspecial : f.special = true
  · refine iff_of_false (not_partitioned_of_special hspecial) fun hfine => ?_
    rw [hfine.ordinary] at hspecial
    cases hspecial
  rw [Bool.not_eq_true] at hspecial
  by_cases hlt : f.total < 2 ^ 32
  · by_cases hzero : f.total = 0
    · -- nothing is displayed, and there is no entry
      refine iff_of_true ⟨[], ?_, hzero.symm⟩ ⟨hspecial, hlt, fun hpos => by omega, fun _ k _ => ?_⟩
      · rw [queueRecords, hspecial]
        refine loop_done ?_ _
        rw [hzero]
        exact Nat.lt_irrefl _
      · have htotal : f.total = f.displayCount0 + f.displayCount1 := rfl
        exact ⟨fun _ => by omega, fun hfirst => by omega⟩
    by_cases hfirst : 0 < f.displayCount0
    · by_cases huse : f.usePanScan = true
      · have hchecks : f.checksPanScan = true := (Bool.and_eq_true _ _ ▸ huse).1
        have hfilled : f.Filled := ⟨huse, hlt, h hchecks⟩
        have hinitial : f.initial = f.boundary 0 := by
          have hstart : f.intervalStart 0 < f.displayCount0 := hfirst
          have hend : f.intervalStart (0 + 1) = f.panScan.displayCount 0 := Nat.zero_add _
          rw [initial, boundary, if_pos hstart, if_pos hstart, hend]
          rfl
        have hloop := hfilled.exists_loop_boundary (k := 0) (2 * maxPanScanValues)
          (Nat.zero_le _) (Nat.mul_le_mul_left 2 f.panScan.count_le)
        rw [Partitioned, queueRecords, hspecial, hinitial]
        refine hloop.trans ⟨fun hall => ⟨hspecial, hlt, fun _ => hfirst, fun _ k => ?_⟩, ?_⟩
        · exact hall k (Nat.zero_le k)
        · exact fun hfine j _ hj => hfine.intervals huse j hj
      · rw [Bool.not_eq_true] at huse
        refine iff_of_true (partitioned_of_fields hspecial hlt hfirst huse)
          ⟨hspecial, hlt, fun _ => hfirst, fun h => ?_⟩
        rw [huse] at h
        cases h
    · have hpos : 0 < f.total := Nat.pos_of_ne_zero hzero
      refine iff_of_false (not_partitioned_of_zero hspecial hlt hpos (by omega)) fun hfine => ?_
      exact hfirst (hfine.first hpos)
  · exact iff_of_false (not_partitioned_of_le hspecial (by omega)) fun hfine => hlt hfine.total_lt

/-- A frame with both fields displayed once, and a pan-scan value for each of them. -/
def panScanned : Frame where
  interlaced := true
  topFieldFirst := true
  displayCount0 := 1
  displayCount1 := 1
  panScan := ⟨2, fun _ => 1, by decide, fun _ => by decide⟩
  panScanPolicy := true
  policy4x3 := true
  speed := 1
  progressive := false
  colourMatrixFlags := 0
  displayCount0_lt := by decide
  displayCount1_lt := by decide

/-- It is queued as two entries, each with its pan-scan value. -/
theorem partitioned_panScanned : panScanned.usePanScan = true ∧ panScanned.Partitioned :=
  ⟨rfl, (partitioned_iff fun _ => rfl).mpr
    ⟨by decide +kernel, by decide, by decide, fun _ => by unfold IntervalFine; decide⟩⟩

/-- A frame whose first field is repeated, with one pan-scan interval for all of it. -/
def repeated : Frame :=
  { panScanned with
    panScanPolicy := false
    displayCount0 := 2
    panScan := ⟨1, fun _ => 3, by decide, fun _ => by decide⟩
    displayCount0_lt := by decide }

/-- It is queued as one entry, with the offset of a pan-scan vector that is not to be used. -/
theorem not_partitioned :
    repeated.intervalStart repeated.panScan.count = repeated.total ∧ ¬ repeated.Partitioned := by
  refine ⟨rfl, ?_⟩
  rintro ⟨rs, hrs, hpartition⟩
  obtain rfl := Option.some.inj ((show repeated.queueRecords = some [repeated.specialRecord] by
    decide +kernel).symm.trans hrs)
  obtain ⟨i, hi, hneg, -⟩ := hpartition.1.psIndex
  obtain rfl : (0 : ℤ) = i := Option.some.inj hi
  have hlt : (0 : ℤ) < 0 := hneg.mpr rfl
  omega

end Frame

end Player2.QueueRecords
