import Mathlib.Algebra.BigOperators.Ring.List
import Mathlib.Data.List.TakeWhile
import Player2.FrameCounts

/-! # Pan scan counts and display counts

The counts of the pan scan values are to divide the time for which the frame is shown.  They are scaled by the
same multiplier, with an error of their own that starts from the same one, so as long as the sums are exact
both lists add up to the floor of the same number (`sum_scaleValues`).  After that the display counts
are corrected and the pan scan counts are not: frames are lost for the synchronisation and single step
overrides the counts.  Three values on an interlaced display are not scaled at all, and a single field is shown
for one period whatever its value was scaled to.  In reverse play only the values of interlaced content are
reversed.

`partitions_iff` says when the counts of the record agree in spite of that. -/

namespace Player2.FrameTiming

open Rational (Plain)
open PresentationInterval (PlayDirection)

/-! ### Periods and order -/

/-- The periods of some pan scan values. -/
def periodsOf (values : List PanScanValue) : ℕ := (values.map fun v => v.displayCount.toNat).sum

/-- The periods for which a frame, or its two fields, are to be shown. -/
def VideoParameters.periods (p : VideoParameters) : ℕ :=
  p.displayCount0.toNat + if p.progressive then 0 else p.displayCount1.toNat

/-- The periods for which the frame is shown. -/
def Timing.periods (r : Timing) : ℕ := r.displayCount0.toNat + r.displayCount1.toNat

/-- Where a value puts the picture. -/
def PanScanValue.offset (v : PanScanValue) : Int32 × Int32 := (v.horizontalOffset, v.verticalOffset)

/-- What is shown one after the other, in a direction. -/
def inOrder {α : Type} (direction : PlayDirection) (xs : List α) : List α :=
  if direction = .playBackward then xs.reverse else xs

/-- The sums for the counts of the values are exact. -/
def ExactValues (countMultiplier : Rational) : Rational → List PanScanValue → Prop
  | _, [] => True
  | error, v :: vs =>
    Exact countMultiplier v.displayCount error ∧
      ExactValues countMultiplier (carry (frameCount countMultiplier v.displayCount error)) vs

theorem ExactValues.count_lt {countMultiplier error : Rational} {vs : List PanScanValue}
    (h : ExactValues countMultiplier error vs) : ∀ v ∈ vs, v.displayCount.toNat < 2 ^ 31 := by
  induction vs generalizing error with
  | nil => exact fun _ h => absurd h List.not_mem_nil
  | cons v vs ih =>
    rw [List.forall_mem_cons]
    exact ⟨h.1.count_lt, ih h.2⟩

variable {countMultiplier error : Rational}

/-- The periods of the display counts, before they are corrected. -/
def scheduled (t : Timer) (p : VideoParameters) (surface : Surface) : ℕ :=
  if p.partialFrame then 1
  else if p.interlacedOnInterlaced surface then
    2 * ⌊t.countMultiplier.value * p.displayCount0.toNat + t.accumulatedError.value⌋₊
  else ⌊t.countMultiplier.value * p.periods + t.accumulatedError.value⌋₊

/-- The periods of the pan scan values: those of the fields on an interlaced display, if there are at most two
values, and three are left as they are. -/
def scheduledValues (t : Timer) (p : VideoParameters) (surface : Surface) : ℕ :=
  if p.interlacedOnInterlaced surface then
    if p.panScan.values = [] then 0
    else if p.panScan.values.length ≤ 2 then scheduled t p surface
    else periodsOf p.panScan.values
  else ⌊t.countMultiplier.value * periodsOf p.panScan.values + t.accumulatedError.value⌋₊

variable {t : Timer} {p : VideoParameters} {surface : Surface}

/-- The periods lost for the synchronisation. -/
def taken (lose : ℕ) (paired : Bool) (total : ℕ) : ℕ :=
  if paired then 2 * min (lose / 2) (total / 2) else min lose total

theorem toNat_min (a b : UInt32) : (min a b).toNat = min a.toNat b.toNat := by
  show (if a ≤ b then a else b).toNat = _
  split
  next h => exact (Nat.min_eq_left (UInt32.le_iff_toNat_le.mp h)).symm
  next h =>
    have hlt : ¬a.toNat ≤ b.toNat := fun hle => h (UInt32.le_iff_toNat_le.mpr hle)
    exact (Nat.min_eq_right (by omega)).symm

/-- The periods shown in single step, after the loss: the second count of progressive content is kept. -/
def stepped (p : VideoParameters) (surface : Surface) (left : ℕ) : ℕ :=
  if p.progressive then 1 + (if p.interlacedOnInterlaced surface then left / 2 else 0) else 2

/-- The periods shown, after the corrections. -/
def shown (c : Call) (t : Timer) : ℕ :=
  let p := c.frame t
  let total := scheduled (c.convert t) p c.surface
  let left := total - taken t.loseFramesForSynchronization.toNat (p.paired c.surface) total
  if c.speed.equalsInt 0 then stepped p c.surface left else left

variable {c : Call}

/-- The pan scan values are not scaled like the display counts: there are three of them on an interlaced
display, or a single field is shown that is scaled, or has no value. -/
def Unlike (c : Call) (t : Timer) : Prop :=
  let p := c.frame t
  (p.interlacedOnInterlaced c.surface ∧ 2 < p.panScan.values.length) ∨
    (p.partialFrame ∧ (p.interlacedOnInterlaced c.surface = false ∨ p.panScan.values = []))

/-- The corrections leave the periods of the frame alone, or make up for one another. -/
structure Undisturbed (c : Call) (t : Timer) : Prop where
  /-- In single step as many periods are scheduled as are shown. -/
  step : c.speed.equalsInt 0 = true → scheduledValues (c.convert t) (c.frame t) c.surface =
    stepped (c.frame t) c.surface (scheduled (c.convert t) (c.frame t) c.surface -
      taken t.loseFramesForSynchronization.toNat ((c.frame t).paired c.surface)
        (scheduled (c.convert t) (c.frame t) c.surface))
  /-- The periods that the values are short of are lost. -/
  unlike : c.speed.equalsInt 0 = false → Unlike c t →
    scheduledValues (c.convert t) (c.frame t) c.surface +
      taken t.loseFramesForSynchronization.toNat ((c.frame t).paired c.surface)
        (scheduled (c.convert t) (c.frame t) c.surface) = scheduled (c.convert t) (c.frame t) c.surface
  /-- Nothing is to be lost, or there is nothing to lose it from; of a pair one field cannot be lost. -/
  alike : c.speed.equalsInt 0 = false → ¬Unlike c t →
    t.loseFramesForSynchronization.toNat = 0 ∨ scheduled (c.convert t) (c.frame t) c.surface = 0 ∨
      (c.frame t).paired c.surface ∧ t.loseFramesForSynchronization.toNat = 1

/-- Both lists are paid out from the same counts, or the values from the counts of the fields, and no
correction is made.  No sum needs to be exact. -/
structure SameCounts (c : Call) (t : Timer) : Prop where
  whole : (c.frame t).partialFrame = false
  kept : t.loseFramesForSynchronization = 0
  normal : c.speed.equalsInt 0 = false
  counts : (c.frame t).interlacedOnInterlaced c.surface = false →
    (c.frame t).panScan.values.map PanScanValue.displayCount =
      if (c.frame t).progressive then [(c.frame t).displayCount0]
      else [(c.frame t).displayCount0, (c.frame t).displayCount1]
  error : (c.frame t).interlacedOnInterlaced c.surface = false →
    (c.convert t).accumulatedError.restrict = (c.convert t).accumulatedError
  /-- The one value of two fields is their sum, which is a word. -/
  fields : (c.frame t).interlacedOnInterlaced c.surface = true →
    (c.frame t).progressive = false ∧ ((c.frame t).panScan.values.length = 2 ∨
      (c.frame t).panScan.values.length = 1 ∧ (FrameTiming.whole (frameCount (c.convert t).countMultiplier
        (c.frame t).displayCount0 (c.convert t).accumulatedError)).toNat < 2 ^ 31)

theorem SameCounts.periods (h : SameCounts c t) :
    periodsOf (c.record t).panScan.values = (c.record t).periods := by
  have hwhole := h.whole
  unfold Timing.periods Call.record
  rw [corrected_eq h.kept h.normal]
  unfold panScanCounts displayCounts
  simp only [hwhole, Bool.false_eq_true, if_false]
  cases hi : (c.frame t).interlacedOnInterlaced c.surface with
  | true =>
    simp only [if_true]
    obtain ⟨-, hlen | ⟨hlen, hlt⟩⟩ := h.fields hi
    · obtain ⟨v₀, v₁, hvalues⟩ := List.length_eq_two.mp hlen
      rw [hvalues]
      rfl
    · obtain ⟨v, hvalues⟩ := List.length_eq_one_iff.mp hlen
      rw [hvalues]
      show (_ + _ : UInt32).toNat + 0 = _
      rw [UInt32.toNat_add, Nat.mod_eq_of_lt (by omega)]
      rfl
  | false =>
    have hcounts := h.counts hi
    rw [h.error hi]
    cases hk : (c.frame t).progressive with
    | true =>
      rw [hk, if_pos rfl] at hcounts
      obtain ⟨v, hvalues, hv⟩ := List.map_eq_singleton_iff.mp hcounts
      rw [hvalues]
      simp only [scaleValues, hv]
      rfl
    | false =>
      rw [hk, if_neg Bool.false_ne_true] at hcounts
      obtain ⟨v₀, vs, hvalues, hv₀, hrest⟩ := List.map_eq_cons_iff.mp hcounts
      obtain ⟨v₁, rfl, hv₁⟩ := List.map_eq_singleton_iff.mp hrest
      rw [hvalues]
      simp only [scaleValues, hv₀, hv₁]
      rfl

theorem SameCounts.order (h : SameCounts c t) : (c.frame t).progressive = false ∨
    ((c.frame t).panScan.values.map PanScanValue.offset).reverse =
      (c.frame t).panScan.values.map PanScanValue.offset := by
  cases hk : (c.frame t).progressive with
  | false => exact .inl rfl
  | true =>
    cases hi : (c.frame t).interlacedOnInterlaced c.surface with
    | true => exact absurd ((h.fields hi).1.symm.trans hk) Bool.false_ne_true
    | false =>
      have hcounts := h.counts hi
      rw [hk, if_pos rfl] at hcounts
      obtain ⟨v, hvalues, -⟩ := List.map_eq_singleton_iff.mp hcounts
      rw [hvalues]
      exact .inr rfl

end Player2.FrameTiming
