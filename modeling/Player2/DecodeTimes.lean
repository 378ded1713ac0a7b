import Player2.NativeTime
import Player2.Run
import Player2.SlidingWindow
import Mathlib.Data.List.DropRight

/-! # The times that decodes take

`Codec_MmeBase_c::CalculateMaximumFrameRate` adds the time of a completed decode to two totals, over a short and
a long integration period, and takes the times off that leave them.  Both find these in one circular table of as
many slots as the long period has decodes.  The rates that are computed from the totals are left out.

`Follows` says that the totals are the sums over the last decodes; `follows` proves it of every run, as far as
the totals hold the sums and the index of the short period does not leave 32 bits.  The sums themselves are the
library's `SlidingWindow`. -/

namespace Player2.DecodeTimes

open Lts

/-! ### The source -/

/-- What the function uses of `Codec_MmeBase_c`. -/
structure Codec where
  decodeTimeShortIntegrationPeriod : UInt32
  decodeTimeLongIntegrationPeriod : UInt32
  nextDecodeTime : UInt32
  lastDecodeCompletionTime : UInt64
  decodeTimes : List UInt64
  shortTotalDecodeTime : UInt64
  longTotalDecodeTime : UInt64
deriving DecidableEq

/-- A codec without a decode, with the periods. -/
def start (tableSize : ℕ) (short long : UInt32) : Codec where
  decodeTimeShortIntegrationPeriod := short
  decodeTimeLongIntegrationPeriod := long
  nextDecodeTime := 0
  lastDecodeCompletionTime := NativeTime.invalidTime
  decodeTimes := List.replicate tableSize 0
  shortTotalDecodeTime := 0
  longTotalDecodeTime := 0

/-- `Reset`; the table has `16 * MAX_DECODE_BUFFERS` slots. -/
def reset (tableSize : ℕ) : Codec := start tableSize 0 0

/-- A decode that is complete: `Now`, what its context and its buffer record of it, and what the manifestor
answers to `GetDecodeBufferCount`. -/
structure Completion where
  now : UInt64
  decodeCommenceTime : UInt64
  fieldDecode : Bool
  decodeBufferCount : UInt32

namespace Codec

def decodeTime (c : Codec) (e : Completion) : UInt64 :=
  let time := min (e.now - e.decodeCommenceTime) (e.now - c.lastDecodeCompletionTime)
  if e.fieldDecode then time * 2 else time

/-- The first decode settles the periods. -/
def settlePeriods (c : Codec) (e : Completion) : Codec :=
  if c.decodeTimeShortIntegrationPeriod = 0 then
    { c with
      decodeTimeLongIntegrationPeriod := if e.fieldDecode then e.decodeBufferCount * 2 else e.decodeBufferCount
      decodeTimeShortIntegrationPeriod := if e.fieldDecode then 8 else 4 }
  else c

/-- The slot of the time that leaves the short total. -/
def shortIndex (c : Codec) : ℕ :=
  ((c.nextDecodeTime + c.decodeTimeLongIntegrationPeriod - c.decodeTimeShortIntegrationPeriod) %
    c.decodeTimeLongIntegrationPeriod).toNat

/-- The slot of the time that leaves the long total, which the new one goes into. -/
def longIndex (c : Codec) : ℕ := (c.nextDecodeTime % c.decodeTimeLongIntegrationPeriod).toNat

/-- The end of `CalculateMaximumFrameRate`; a division by zero and an index behind the table are `none`. -/
def record (c : Codec) (now decodeTime : UInt64) : Option Codec :=
  if c.decodeTimeLongIntegrationPeriod = 0 then none
  else
    match c.decodeTimes[c.shortIndex]?, c.decodeTimes[c.longIndex]? with
    | some leavesShort, some leavesLong => some { c with
        shortTotalDecodeTime := c.shortTotalDecodeTime - leavesShort + decodeTime
        longTotalDecodeTime := c.longTotalDecodeTime - leavesLong + decodeTime
        decodeTimes := c.decodeTimes.set c.longIndex decodeTime
        nextDecodeTime := c.nextDecodeTime + 1
        lastDecodeCompletionTime := now }
    | _, _ => none

def calculateMaximumFrameRate (c : Codec) (e : Completion) : Option Codec :=
  (c.settlePeriods e).record e.now (c.decodeTime e)

end Codec

/-! ### The sums -/

/-- A decode, whose time is put on record. -/
def step (s : Codec × List UInt64) (e : Completion) : Option (Codec × List UInt64) :=
  (s.1.calculateMaximumFrameRate e).map fun c => (c, s.2 ++ [s.1.decodeTime e])

/-- The sum of the last times. -/
def lastSum (period : UInt32) (times : List UInt64) : ℕ := ((times.rtake period.toNat).map UInt64.toNat).sum

/-- In the next call no subtraction from the short total wraps. -/
def ShortInRange (c : Codec) (e : Completion) : Prop :=
  (c.settlePeriods e).decodeTimes.getD (c.settlePeriods e).shortIndex 0 ≤ c.shortTotalDecodeTime

/-- In the next call no subtraction from the long total wraps. -/
def LongInRange (c : Codec) (e : Completion) : Prop :=
  (c.settlePeriods e).decodeTimes.getD (c.settlePeriods e).longIndex 0 ≤ c.longTotalDecodeTime

/-- No decode has been recorded, and the first one leaves the codec with these periods. -/
def Opens (tableSize : ℕ) (short long : UInt32) (c : Codec) (first : Completion) : Prop :=
  c.settlePeriods first = start tableSize short long

/-- **The totals are the sums of the last times**, and no subtraction wraps. -/
def SlidingSums (short long : UInt32) (c : Codec) (calls : List Completion) : Prop :=
  ∃ s, run step (c, []) calls = some s ∧
    s.1.shortTotalDecodeTime.toNat = lastSum short s.2 ∧ s.1.longTotalDecodeTime.toNat = lastSum long s.2 ∧
    Along step (fun s e => ShortInRange s.1 e ∧ LongInRange s.1 e) (c, []) calls

/-- The index of the short period stays in 32 bits, or is the same modulo the long period if it does not. -/
def IndexFits (short long : UInt32) (count : ℕ) : Prop :=
  long.toNat ∣ 2 ^ 32 ∨ count + (long.toNat - short.toNat) ≤ 2 ^ 32

/-- The times on record, the newest first. -/
def latest (times : List UInt64) : List ℕ := (times.map UInt64.toNat).reverse

theorem lastSum_eq (period : UInt32) (times : List UInt64) :
    lastSum period times = ((latest times).take period.toNat).sum := by
  rw [lastSum, latest, List.rtake_eq_reverse_take_reverse, List.map_reverse, List.sum_reverse, List.map_take,
    List.map_reverse]

theorem latest_concat (times : List UInt64) (time : UInt64) :
    latest (times ++ [time]) = time.toNat :: latest times := by
  simp [latest]

/-! ### One decode -/

/-- The table and the counter, with the periods. -/
structure Recorded (tableSize : ℕ) (short long : UInt32) (s : Codec × List UInt64) : Prop where
  shortPeriod : s.1.decodeTimeShortIntegrationPeriod = short
  longPeriod : s.1.decodeTimeLongIntegrationPeriod = long
  size : s.1.decodeTimes.length = tableSize
  count : s.1.nextDecodeTime.toNat = s.2.length
  table : SlidingWindow.Holds long.toNat s.2.length (fun i => (s.1.decodeTimes.getD i 0).toNat) (latest s.2)

theorem total_step {period : UInt32} (hpos : 0 < period.toNat) {total leaves : UInt64} {times : List UInt64}
    (htotal : total.toNat = lastSum period times % 2 ^ 64)
    (hleaves : leaves.toNat = (latest times).getD (period.toNat - 1) 0) (time : UInt64) :
    (total - leaves + time).toNat = lastSum period (times ++ [time]) % 2 ^ 64 ∧
      (lastSum period times < 2 ^ 64 → leaves ≤ total) := by
  obtain ⟨hold, hnew⟩ := SlidingWindow.sum_window (latest times) time.toNat hpos
  rw [← hleaves, ← lastSum_eq] at hold
  rw [← latest_concat, ← lastSum_eq] at hnew
  have hlt := leaves.toNat_lt
  constructor
  · rw [UInt64.toNat_add, UInt64.toNat_sub, htotal]
    omega
  · intro hfits
    rw [UInt64.le_iff_toNat_le, htotal, Nat.mod_eq_of_lt hfits]
    omega

section step
variable {tableSize : ℕ} {short long : UInt32} {s : Codec × List UInt64}

theorem Recorded.settled (h : Recorded tableSize short long s) (hpos : 0 < short.toNat) (e : Completion) :
    s.1.settlePeriods e = s.1 := by
  rw [Codec.settlePeriods, h.shortPeriod, if_neg]
  rintro rfl
  exact absurd hpos (lt_irrefl _)

theorem Recorded.longIndex_eq (h : Recorded tableSize short long s) :
    s.1.longIndex = s.2.length % long.toNat := by
  rw [Codec.longIndex, h.longPeriod, UInt32.toNat_mod, h.count]

theorem Recorded.shortIndex_eq (h : Recorded tableSize short long s) (hle : short ≤ long)
    (hfits : IndexFits short long (s.2.length + 1)) :
    s.1.shortIndex = (s.2.length + (long.toNat - short.toNat)) % long.toNat := by
  have hlt := long.toNat_lt
  have hle' : short.toNat ≤ long.toNat := UInt32.le_iff_toNat_le.mp hle
  have hindex : (s.1.nextDecodeTime + long - short).toNat =
      (s.2.length + (long.toNat - short.toNat)) % 2 ^ 32 := by
    rw [UInt32.toNat_sub, UInt32.toNat_add, h.count]
    omega
  rw [Codec.shortIndex, h.shortPeriod, h.longPeriod, UInt32.toNat_mod, hindex]
  cases hfits with
  | inl hdvd => exact Nat.mod_mod_of_dvd _ hdvd
  | inr hfew => rw [Nat.mod_eq_of_lt (a := s.2.length + _) (by omega)]

/-- **One decode**: the counter and the table go on, and each total follows its window. -/
theorem Recorded.step (h : Recorded tableSize short long s) (hpos : 0 < short.toNat) (hle : short ≤ long)
    (hsize : long.toNat ≤ tableSize) (hcount : s.2.length + 1 < 2 ^ 32) (e : Completion) :
    ∃ s', step s e = some s' ∧ Recorded tableSize short long s' ∧ s'.2 = s.2 ++ [s.1.decodeTime e] ∧
      s'.1.lastDecodeCompletionTime = e.now ∧
      s'.1.shortTotalDecodeTime =
        s.1.shortTotalDecodeTime - s.1.decodeTimes.getD s.1.shortIndex 0 + s.1.decodeTime e ∧
      s'.1.longTotalDecodeTime =
        s.1.longTotalDecodeTime - s.1.decodeTimes.getD s.1.longIndex 0 + s.1.decodeTime e := by
  have hle' : short.toNat ≤ long.toNat := UInt32.le_iff_toNat_le.mp hle
  have hlong : s.1.decodeTimeLongIntegrationPeriod ≠ 0 := by
    rw [h.longPeriod]
    rintro rfl
    exact absurd (hpos.trans_le hle') (lt_irrefl _)
  have hshortIndex : s.1.shortIndex < s.1.decodeTimes.length := by
    rw [Codec.shortIndex, UInt32.toNat_mod, h.longPeriod, h.size]
    exact (Nat.mod_lt _ (by omega)).trans_le hsize
  have hlongIndex : s.1.longIndex < s.1.decodeTimes.length := by
    rw [h.longIndex_eq, h.size]
    exact (Nat.mod_lt _ (by omega)).trans_le hsize
  have hnext : (s.1.nextDecodeTime + 1).toNat = s.2.length + 1 := by
    rw [UInt32.toNat_add, h.count]
    change (s.2.length + 1) % 2 ^ 32 = _
    omega
  have htable : (fun i => ((s.1.decodeTimes.set s.1.longIndex (s.1.decodeTime e)).getD i 0).toNat) =
      Function.update (fun i => (s.1.decodeTimes.getD i 0).toNat) (s.2.length % long.toNat)
        (s.1.decodeTime e).toNat := by
    funext i
    rw [Function.update_apply, ← h.longIndex_eq]
    by_cases hi : i = s.1.longIndex
    · simp [hi, hlongIndex]
    · simp [hi, Ne.symm hi]
  refine ⟨({ s.1 with
    shortTotalDecodeTime :=
      s.1.shortTotalDecodeTime - s.1.decodeTimes.getD s.1.shortIndex 0 + s.1.decodeTime e
    longTotalDecodeTime := s.1.longTotalDecodeTime - s.1.decodeTimes.getD s.1.longIndex 0 + s.1.decodeTime e
    decodeTimes := s.1.decodeTimes.set s.1.longIndex (s.1.decodeTime e)
    nextDecodeTime := s.1.nextDecodeTime + 1
    lastDecodeCompletionTime := e.now }, s.2 ++ [s.1.decodeTime e]), ?_, ⟨h.shortPeriod, h.longPeriod, ?_, ?_, ?_⟩, rfl, rfl, rfl, rfl⟩
  · rw [DecodeTimes.step, Codec.calculateMaximumFrameRate, h.settled hpos, Codec.record, if_neg hlong,
      List.getElem?_eq_getElem hshortIndex, List.getElem?_eq_getElem hlongIndex]
    simp [List.getD_eq_getElem?_getD, hshortIndex, hlongIndex]
  · exact (List.length_set ..).trans h.size
  · rw [List.length_append, List.length_singleton]
    exact hnext
  · rw [latest_concat, List.length_append, List.length_singleton]
    rw [htable]
    exact h.table.push _

theorem Recorded.short_leaves (h : Recorded tableSize short long s) (hpos : 0 < short.toNat)
    (hle : short ≤ long) (hfits : IndexFits short long (s.2.length + 1)) :
    (s.1.decodeTimes.getD s.1.shortIndex 0).toNat = (latest s.2).getD (short.toNat - 1) 0 := by
  rw [h.shortIndex_eq hle hfits]
  exact h.table.leaving hpos (UInt32.le_iff_toNat_le.mp hle)

theorem Recorded.long_leaves (h : Recorded tableSize short long s) (hpos : 0 < long.toNat) :
    (s.1.decodeTimes.getD s.1.longIndex 0).toNat = (latest s.2).getD (long.toNat - 1) 0 := by
  rw [h.longIndex_eq]
  simpa using h.table.leaving hpos le_rfl

end step

/-! ### Runs -/

theorem IndexFits.mono {short long : UInt32} {m n : ℕ} (h : IndexFits short long n) (hmn : m ≤ n) :
    IndexFits short long m :=
  h.imp_right fun hfew => by omega

/-- A run of decodes, from a codec that has some on record. -/
theorem Recorded.run {tableSize : ℕ} {short long : UInt32} {s : Codec × List UInt64}
    (h : Recorded tableSize short long s) (hpos : 0 < short.toNat) (hle : short ≤ long)
    (hsize : long.toNat ≤ tableSize) {calls : List Completion} (hcount : s.2.length + calls.length < 2 ^ 32)
    (hlong : s.1.longTotalDecodeTime.toNat = lastSum long s.2 % 2 ^ 64) :
    ∃ s', Lts.run DecodeTimes.step s calls = some s' ∧ Recorded tableSize short long s' ∧
      s'.1.longTotalDecodeTime.toNat = lastSum long s'.2 % 2 ^ 64 ∧
      Along DecodeTimes.step (fun s e => lastSum long s.2 < 2 ^ 64 → LongInRange s.1 e) s calls ∧
      (IndexFits short long (s.2.length + calls.length) →
        s.1.shortTotalDecodeTime.toNat = lastSum short s.2 % 2 ^ 64 →
        s'.1.shortTotalDecodeTime.toNat = lastSum short s'.2 % 2 ^ 64 ∧
        Along DecodeTimes.step (fun s e => lastSum short s.2 < 2 ^ 64 → ShortInRange s.1 e) s calls) := by
  have hlongPos : 0 < long.toNat := hpos.trans_le (UInt32.le_iff_toNat_le.mp hle)
  induction calls generalizing s with
  | nil => exact ⟨s, rfl, h, hlong, trivial, fun _ hshort => ⟨hshort, trivial⟩⟩
  | cons e calls ih =>
    rw [List.length_cons] at hcount ⊢
    obtain ⟨t, ht, hrecorded, htimes, -, hshortTotal, hlongTotal⟩ := h.step hpos hle hsize (by omega) e
    have hlength : t.2.length = s.2.length + 1 := by rw [htimes, List.length_append, List.length_singleton]
    obtain ⟨hlong', hlongRange⟩ := total_step hlongPos hlong (h.long_leaves hlongPos) (s.1.decodeTime e)
    rw [← hlongTotal, ← htimes] at hlong'
    obtain ⟨s', hrun, hrecorded', hlong'', halong, hrest⟩ := ih hrecorded (by omega) hlong'
    refine ⟨s', run_cons.mpr ⟨t, ht, hrun⟩, hrecorded', hlong'', ⟨?_, ?_⟩, ?_⟩
    · intro hfit
      unfold LongInRange
      rw [h.settled hpos]
      exact hlongRange hfit
    · intro t' ht'
      obtain rfl : t = t' := Option.some.inj (ht.symm.trans ht')
      exact halong
    · intro hfits hshort
      have hleaves := h.short_leaves hpos hle (hfits.mono (by omega))
      obtain ⟨hshort', hshortRange⟩ := total_step hpos hshort hleaves (s.1.decodeTime e)
      rw [← hshortTotal, ← htimes] at hshort'
      obtain ⟨hshort'', halong'⟩ := hrest (hfits.mono (by omega)) hshort'
      refine ⟨hshort'', ?_, ?_⟩
      · intro hfit
        unfold ShortInRange
        rw [h.settled hpos]
        exact hshortRange hfit
      · intro t' ht'
        obtain rfl : t = t' := Option.some.inj (ht.symm.trans ht')
        exact halong'

theorem start_getD (tableSize : ℕ) (short long : UInt32) (i : ℕ) :
    (start tableSize short long).decodeTimes.getD i 0 = 0 := by
  simp only [start, List.getD_eq_getElem?_getD, List.getElem?_replicate]
  split <;> rfl

theorem start_recorded (tableSize : ℕ) (short long : UInt32) :
    Recorded tableSize short long (start tableSize short long, []) := by
  refine ⟨rfl, rfl, List.length_replicate, rfl, ?_⟩
  intro k _
  exact congrArg UInt64.toNat (start_getD tableSize short long _)

section first
variable (c : Codec) (first : Completion)

theorem settlePeriods_short_ne_zero : (c.settlePeriods first).decodeTimeShortIntegrationPeriod ≠ 0 := by
  unfold Codec.settlePeriods
  by_cases h : c.decodeTimeShortIntegrationPeriod = 0
  · rw [if_pos h]
    cases first.fieldDecode <;> simp
  · rwa [if_neg h]

@[simp] theorem settlePeriods_settlePeriods :
    (c.settlePeriods first).settlePeriods first = c.settlePeriods first := by
  rw [Codec.settlePeriods, if_neg (settlePeriods_short_ne_zero c first)]

theorem step_settlePeriods (times : List UInt64) :
    step (c, times) first = step (c.settlePeriods first, times) first := by
  have htime : (c.settlePeriods first).decodeTime first = c.decodeTime first := by
    unfold Codec.settlePeriods
    split <;> rfl
  simp [step, Codec.calculateMaximumFrameRate, htime]

end first

theorem reset_opens (tableSize : ℕ) (first : Completion) :
    Opens tableSize (if first.fieldDecode then 8 else 4)
      (if first.fieldDecode then first.decodeBufferCount * 2 else first.decodeBufferCount) (reset tableSize) first := by
  exact if_pos rfl

/-- **The totals of every run**: each is the sum of the last times modulo 2⁶⁴, so the sum itself where 64 bits
hold it, and then no subtraction from it wraps.  For the short total the index has to fit. -/
theorem totals_follow {tableSize : ℕ} {short long : UInt32} {c : Codec} {first : Completion}
    {rest : List Completion} (hopens : Opens tableSize short long c first) (hle : short ≤ long)
    (hsize : long.toNat ≤ tableSize) (hcount : rest.length + 1 < 2 ^ 32) :
    ∃ s, run step (c, []) (first :: rest) = some s ∧
      (s.1.longTotalDecodeTime.toNat = lastSum long s.2 % 2 ^ 64 ∧
        Along step (fun s e => lastSum long s.2 < 2 ^ 64 → LongInRange s.1 e) (c, []) (first :: rest)) ∧
      (IndexFits short long (rest.length + 1) →
        s.1.shortTotalDecodeTime.toNat = lastSum short s.2 % 2 ^ 64 ∧
        Along step (fun s e => lastSum short s.2 < 2 ^ 64 → ShortInRange s.1 e) (c, []) (first :: rest)) := by
  have hpos : 0 < short.toNat := by
    refine Nat.pos_of_ne_zero fun h0 => settlePeriods_short_ne_zero c first ?_
    rw [hopens]
    exact UInt32.toNat_inj.mp h0
  have hstep := step_settlePeriods c first []
  rw [hopens] at hstep
  have hzero (period : UInt32) : (0 : UInt64).toNat = lastSum period [] % 2 ^ 64 := by
    simp [lastSum]
  have hlength : ([] : List UInt64).length + (first :: rest).length < 2 ^ 32 := by simpa using hcount
  obtain ⟨s, hrun, -, hlong, halong, hrest⟩ :=
    (start_recorded tableSize short long).run hpos hle hsize hlength (hzero long)
  rw [List.length_nil, Nat.zero_add, List.length_cons] at hrest
  have hinRange (i : ℕ) (total : UInt64) : (c.settlePeriods first).decodeTimes.getD i 0 ≤ total := by
    rw [hopens, start_getD]
    exact UInt64.le_iff_toNat_le.mpr (Nat.zero_le _)
  refine ⟨s, ?_, ⟨hlong, fun _ => hinRange _ _, ?_⟩, fun hfits => ?_⟩
  · unfold Lts.run at hrun ⊢
    rwa [hstep]
  · rw [hstep]
    exact halong.2
  · obtain ⟨hshort, halong'⟩ := hrest hfits (hzero short)
    refine ⟨hshort, fun _ => hinRange _ _, ?_⟩
    rw [hstep]
    exact halong'.2

/-- Six decodes with a manifestor that has five buffers. -/
def sixDecodes : List Completion :=
  [⟨20, 10, false, 5⟩, ⟨27, 21, false, 5⟩, ⟨40, 30, false, 5⟩, ⟨44, 42, false, 5⟩, ⟨55, 50, false, 5⟩,
    ⟨63, 60, false, 5⟩]

/-- A codec that has been reset: the windows of four and five decodes slide. -/
theorem totals_follow_reset : ∃ s, run step (reset 1024, []) sixDecodes = some s ∧
    (s.1.longTotalDecodeTime.toNat = lastSum 5 s.2 % 2 ^ 64 ∧
      Along step (fun s e => lastSum 5 s.2 < 2 ^ 64 → LongInRange s.1 e) (reset 1024, []) sixDecodes) ∧
    (IndexFits 4 5 6 →
      s.1.shortTotalDecodeTime.toNat = lastSum 4 s.2 % 2 ^ 64 ∧
      Along step (fun s e => lastSum 4 s.2 < 2 ^ 64 → ShortInRange s.1 e) (reset 1024, []) sixDecodes) :=
  totals_follow (reset_opens 1024 ⟨20, 10, false, 5⟩) (by decide) (by decide) (by decide)

/-! ### Beyond the limits -/

/-- After decodes that take no time, of which the counter counts all but two, one takes a microsecond and one
takes none.  The short total, over one decode of three, keeps the former. -/
theorem late_run {m k : ℕ} (hk : m + k = 2 ^ 32 - 3) (hm : 0 < m) {s : Codec × List UInt64}
    (h : Recorded 3 1 3 s) (htimes : s.2 = List.replicate m 0) (hlast : s.1.lastDecodeCompletionTime = 0)
    (htotal : s.1.shortTotalDecodeTime.toNat = lastSum 1 s.2 % 2 ^ 64) :
    ∃ s', run step s (List.replicate k ⟨0, 0, false, 3⟩ ++ [⟨1, 0, false, 3⟩, ⟨1, 1, false, 3⟩]) = some s' ∧
      s'.2 = List.replicate (m + k) 0 ++ [1, 0] ∧ s'.1.shortTotalDecodeTime = 1 := by
  have hlength : s.2.length = m := by rw [htimes, List.length_replicate]
  induction k generalizing m s with
  | zero =>
    obtain ⟨t, ht, hrecorded, htimes₁, hlast₁, htotal₁, -⟩ :=
      h.step (by decide) (by decide) (by decide) (by omega) ⟨1, 0, false, 3⟩
    obtain ⟨s', hs', -, htimes₂, -, htotal₂, -⟩ :=
      hrecorded.step (by decide) (by decide) (by decide) (by simp [htimes₁, hlength]; omega) ⟨1, 1, false, 3⟩
    have hone : s.1.decodeTime ⟨1, 0, false, 3⟩ = 1 := by
      unfold Codec.decodeTime
      rw [hlast]
      decide
    have hnone : t.1.decodeTime ⟨1, 1, false, 3⟩ = 0 := by
      unfold Codec.decodeTime
      rw [hlast₁]
      decide
    have hleaves := h.short_leaves (by decide) (by decide) (.inr (by rw [hlength]; simp; omega))
    obtain ⟨hfollows, -⟩ := total_step (by decide) htotal hleaves 1
    rw [hone] at htotal₁ htimes₁
    rw [hnone, htotal₁] at htotal₂
    rw [hnone, htimes₁, htimes, List.append_assoc] at htimes₂
    have hcount : t.2.length = 2 ^ 32 - 2 := by
      rw [htimes₁, List.length_append, List.length_singleton]
      omega
    -- the index of the short period has left 32 bits, and is not the one of the last decode
    have hnext : t.1.nextDecodeTime = 0xfffffffe := UInt32.toNat_inj.mp (hrecorded.count.trans hcount)
    have hindex : t.1.shortIndex = 0 := by
      rw [Codec.shortIndex, hrecorded.shortPeriod, hrecorded.longPeriod, hnext]
      decide
    have hslot : t.1.decodeTimes.getD t.1.shortIndex 0 = 0 := by
      have htable := hrecorded.table 1 (by decide)
      rw [hcount, htimes₁, htimes, latest_concat, List.getD_cons_succ] at htable
      rw [hindex]
      exact UInt64.toNat_inj.mp (htable.trans (by simp [latest]))
    refine ⟨s', ?_, htimes₂, ?_⟩
    · exact run_cons.mpr ⟨t, ht, run_cons.mpr ⟨s', hs', rfl⟩⟩
    · have hlastSum : lastSum 1 (s.2 ++ [1]) % 2 ^ 64 = (1 : UInt64).toNat := by
        simp [lastSum_eq, latest_concat]
      rw [htotal₂, hslot, UInt64.toNat_inj.mp (hfollows.trans hlastSum)]
      decide
  | succ k ih =>
    obtain ⟨t, ht, hrecorded, htimes', hlast', htotal', -⟩ :=
      h.step (by decide) (by decide) (by decide) (by omega) ⟨0, 0, false, 3⟩
    have hnone : s.1.decodeTime ⟨0, 0, false, 3⟩ = 0 := by
      unfold Codec.decodeTime
      rw [hlast]
      decide
    have hleaves := h.short_leaves (by decide) (by decide) (.inr (by rw [hlength]; simp; omega))
    obtain ⟨hfollows, -⟩ := total_step (by decide) htotal hleaves 0
    rw [hnone] at htotal' htimes'
    rw [← htotal', ← htimes'] at hfollows
    have htimes₁ : t.2 = List.replicate (m + 1) 0 := by
      rw [htimes', htimes, List.replicate_succ']
    obtain ⟨s', hrun, hs', htotal₁⟩ := ih (m := m + 1) (by omega) (by omega) hrecorded htimes₁ hlast' hfollows
      (by rw [htimes₁, List.length_replicate])
    refine ⟨s', run_cons.mpr ⟨t, ht, hrun⟩, ?_, htotal₁⟩
    rw [hs', show m + 1 + k = m + (k + 1) by omega]

/-- The totals are not the sums where the sums do not fit (here the clock has been set back by a microsecond),
and the short total is not where its index does not, although the times are small. -/
theorem not_slidingSums :
    (¬ ∀ (tableSize : ℕ) (short long : UInt32) (c : Codec) (first : Completion) (rest : List Completion),
      Opens tableSize short long c first → short ≤ long → long.toNat ≤ tableSize →
      rest.length + 1 < 2 ^ 32 → IndexFits short long (rest.length + 1) →
      SlidingSums short long c (first :: rest)) ∧
    ¬ ∀ (tableSize : ℕ) (short long : UInt32) (c : Codec) (first : Completion) (rest : List Completion),
      Opens tableSize short long c first → short ≤ long → long.toNat ≤ tableSize →
      rest.length + 1 < 2 ^ 32 →
      (∀ s, run step (c, []) (first :: rest) = some s → (s.2.map UInt64.toNat).sum < 2 ^ 64) →
      SlidingSums short long c (first :: rest) := by
  constructor
  · intro h
    obtain ⟨s, hrun, -, hlong, -⟩ := h 1024 4 8 (reset 1024) ⟨5, 0, false, 8⟩ [⟨4, 5, false, 8⟩]
      (reset_opens 1024 ⟨5, 0, false, 8⟩) (by decide) (by decide) (by decide) (.inl (by decide))
    have hend : (run step (reset 1024, []) [⟨5, 0, false, 8⟩, ⟨4, 5, false, 8⟩]).map
        (fun s => (s.1.longTotalDecodeTime, s.2)) = some (4, [5, 0xffffffffffffffff]) := by decide +kernel
    rw [hrun] at hend
    obtain ⟨htotal, htimes⟩ := Prod.mk.inj (Option.some.inj hend)
    rw [htotal, htimes] at hlong
    exact absurd hlong (by decide)
  · intro h
    obtain ⟨k, hk⟩ : ∃ k, 1 + k = 2 ^ 32 - 3 := ⟨4294967292, rfl⟩
    have hstart := start_recorded 3 1 3
    obtain ⟨t, ht, hrecorded, htimes, hlast, htotal, -⟩ :=
      hstart.step (by decide) (by decide) (by decide) (by decide) ⟨0, 0, false, 3⟩
    have hnone : (start 3 1 3).decodeTime ⟨0, 0, false, 3⟩ = 0 := by decide
    have hzero : t.1.shortTotalDecodeTime.toNat = lastSum 1 t.2 % 2 ^ 64 := by
      rw [htotal, htimes]
      decide
    obtain ⟨s, hrun, hs, hone⟩ := late_run hk Nat.one_pos hrecorded htimes hlast hzero
    have hcalls := run_cons.mpr ⟨t, ht, hrun⟩
    obtain ⟨s', hrun', hshort, -⟩ := h 3 1 3 (start 3 1 3) ⟨0, 0, false, 3⟩
      (List.replicate k ⟨0, 0, false, 3⟩ ++ [⟨1, 0, false, 3⟩, ⟨1, 1, false, 3⟩]) rfl (by decide) (by decide)
      (by rw [List.length_append, List.length_replicate]; simp; omega) (by
        intro s' hrun'
        obtain rfl : s = s' := Option.some.inj (hcalls.symm.trans hrun')
        simp [hs])
    obtain rfl : s = s' := Option.some.inj (hcalls.symm.trans hrun')
    have hsum : lastSum 1 (List.replicate (1 + k) 0 ++ [1, 0]) = 0 := by
      simp [lastSum_eq, latest]
    rw [hone, hs, hsum] at hshort
    exact absurd hshort (by decide)

end Player2.DecodeTimes
