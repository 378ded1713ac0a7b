import Mathlib.Data.List.Basic
import Mathlib.Data.List.Nodup
import Mathlib.Logic.Function.Basic
import Player2.ExpGolomb

/-! # Scaling lists

A sequence parameter set and a picture parameter set may each bring scaling lists: six for blocks of 4x4
and two for blocks of 8x8.  A list is coded by differences in zig-zag order, or replaced by its default, or by
a fall-back list.  The parser keeps the lists in raster order.

The specification derives the lists as the standard does, in zig-zag order, from what is coded
(`Matrix.derived`); `scaling_lists` says that both parameter sets are read as they are coded, and that the
parser holds the derived values. -/

namespace Player2.ScalingLists

open BitField

/-! ### The source -/

def zzScan4x4 : List ℕ := [0, 1, 4, 8, 5, 2, 3, 6, 9, 12, 13, 10, 7, 11, 14, 15]

def zzScan8x8 : List ℕ :=
  [0, 1, 8, 16, 9, 2, 3, 10, 17, 24, 32, 25, 18, 11, 4, 5,
    12, 19, 26, 33, 40, 48, 41, 34, 27, 20, 13, 6, 7, 14, 21, 28,
    35, 42, 49, 56, 57, 50, 43, 36, 29, 22, 15, 23, 30, 37, 44, 51,
    58, 59, 52, 45, 38, 31, 39, 46, 53, 60, 61, 54, 47, 55, 62, 63]

def defaultScalingList4x4Intra : List ℤ := [6, 13, 13, 20, 20, 20, 28, 28, 28, 28, 32, 32, 32, 37, 37, 42]

def defaultScalingList4x4Inter : List ℤ := [10, 14, 14, 20, 20, 20, 24, 24, 24, 24, 27, 27, 27, 30, 30, 34]

def defaultScalingList8x8Intra : List ℤ :=
  [6, 10, 10, 13, 11, 13, 16, 16, 16, 16, 18, 18, 18, 18, 18, 23,
    23, 23, 23, 23, 23, 25, 25, 25, 25, 25, 25, 25, 27, 27, 27, 27,
    27, 27, 27, 27, 29, 29, 29, 29, 29, 29, 29, 31, 31, 31, 31, 31,
    31, 33, 33, 33, 33, 33, 36, 36, 36, 36, 38, 38, 38, 40, 40, 42]

def defaultScalingList8x8Inter : List ℤ :=
  [9, 13, 13, 15, 13, 15, 17, 17, 17, 17, 19, 19, 19, 19, 19, 21,
    21, 21, 21, 21, 21, 22, 22, 22, 22, 22, 22, 22, 24, 24, 24, 24,
    24, 24, 24, 24, 25, 25, 25, 25, 25, 25, 25, 27, 27, 27, 27, 27,
    27, 28, 28, 28, 28, 28, 30, 30, 30, 30, 32, 32, 32, 33, 33, 35]

/-- `DefaultScalingList`; the lists from 6 on are for blocks of 8x8. -/
def defaultScalingList (i : ℕ) : List ℤ :=
  if i < 3 then defaultScalingList4x4Intra
  else if i < 6 then defaultScalingList4x4Inter
  else if i = 6 then defaultScalingList8x8Intra
  else defaultScalingList8x8Inter

/-- `SizeOfScalingList` in the calls for a list. -/
def sizeOf (i : ℕ) : ℕ := if i < 6 then 16 else 64

def scan (size : ℕ) : List ℕ := if size = 16 then zzScan4x4 else zzScan8x8

/-- Assignments of values to places. -/
def writeAll (list : List ℤ) (places : List ℕ) (values : List ℤ) : List ℤ :=
  (places.zip values).foldl (fun l e => l.set e.1 e.2) list

/-- `DefaultScanOrderScalingList`, as `PrepareScannedScalingLists` fills it. -/
def defaultScanOrderScalingList (i : ℕ) : List ℤ :=
  writeAll (List.replicate (sizeOf i) 0) (scan (sizeOf i)) (defaultScalingList i)

/-- The variables of the loop in `ReadScalingList`.  A scale is an `int`; what is in the list is the
`unsigned int` of it. -/
structure ScaleState where
  scalingList : List ℤ
  lastScale : ℤ
  nextScale : ℤ
  useDefaultScalingMatrixFlag : Bool

/-- `NextScale` and the flag after a difference. -/
def ScaleState.add (s : ScaleState) (j : ℕ) (deltaScale : ℤ) : ScaleState :=
  let nextScale := (s.lastScale + deltaScale + 256).tmod 256
  { s with nextScale := nextScale, useDefaultScalingMatrixFlag := decide (j = 0 ∧ nextScale = 0) }

/-- The difference in a round of the loop, if there is one. -/
def readDelta (j : ℕ) (s : ScaleState) : BitProgram ScaleState :=
  if s.nextScale ≠ 0 then do
    let deltaScale ← BitStream.se
    pure (s.add j deltaScale)
  else pure s

/-- The loop in `ReadScalingList`, from `j` on, over what is left of `Scan`. -/
def readScales : ℕ → List ℕ → ScaleState → BitProgram ScaleState
  | _, [], s => pure s
  | j, place :: rest, s => do
      let s ← readDelta j s
      let scale := if s.nextScale = 0 then s.lastScale else s.nextScale
      readScales (j + 1) rest { s with scalingList := s.scalingList.set place scale, lastScale := scale }

def readScalingList (scalingListPresent : Bool) (scalingList default fallback : List ℤ) (size : ℕ) :
    BitProgram (List ℤ) :=
  if scalingListPresent then do
    let s ← readScales 0 (scan size) ⟨scalingList, 8, 8, false⟩
    pure (if s.useDefaultScalingMatrixFlag then writeAll s.scalingList (scan size) default
      else s.scalingList)
  else pure (writeAll scalingList (List.range size) fallback)

/-- `ScalingList4x4` and, from 6 on, `ScalingList8x8`. -/
abbrev Tables := ℕ → List ℤ

/-- `FallbackScalingList` by fall-back rule A, as it is when the list is read. -/
def fallbackRuleA (own : Tables) : ℕ → List ℤ
  | 0 => defaultScanOrderScalingList 0
  | 1 => own 0
  | 2 => own 1
  | 3 => defaultScanOrderScalingList 3
  | 4 => own 3
  | 5 => own 4
  | 6 => defaultScanOrderScalingList 6
  | _ => defaultScanOrderScalingList 7

/-- `FallbackScalingList` by fall-back rule B. -/
def fallbackRuleB (sequenceParameterSet own : Tables) : ℕ → List ℤ
  | 0 => sequenceParameterSet 0
  | 1 => own 0
  | 2 => own 1
  | 3 => sequenceParameterSet 3
  | 4 => own 3
  | 5 => own 4
  | 6 => sequenceParameterSet 6
  | _ => sequenceParameterSet 7

/-- The loops over the first `n` lists. -/
def readLists (fallback : Tables → ℕ → List ℤ) : ℕ → Tables → BitProgram Tables
  | 0, own => pure own
  | n + 1, own => do
      let own ← readLists fallback n own
      let present ← BitProgram.get 1
      let list ← readScalingList (present ≠ 0) (own n) (defaultScalingList n) (fallback own n) (sizeOf n)
      pure (Function.update own n list)

/-- The scaling matrix of a parameter set. -/
structure ScalingMatrix where
  presentFlag : Bool
  tables : Tables

/-- What `SetDefaultSequenceParameterSet` leaves for the scaling matrix. -/
def defaultSequence : ScalingMatrix := ⟨false, fun i => List.replicate (sizeOf i) 16⟩

/-- The scaling matrix in `ReadNalSequenceParameterSet`, for the profiles that have one. -/
def readSequence : BitProgram ScalingMatrix := do
  let seqScalingMatrixPresentFlag ← BitProgram.get 1
  if seqScalingMatrixPresentFlag ≠ 0 then do
    let tables ← readLists fallbackRuleA 8 defaultSequence.tables
    pure ⟨true, tables⟩
  else pure defaultSequence

/-- `memset` of the header of a picture parameter set. -/
def emptyPicture : ScalingMatrix := ⟨false, fun i => List.replicate (sizeOf i) 0⟩

/-- The transform mode and the scaling matrix in `ReadNalPictureParameterSet`. -/
def readPicture (sequenceParameterSet : ScalingMatrix) : BitProgram ScalingMatrix := do
  let transform8x8ModeFlag ← BitProgram.get 1
  let picScalingMatrixPresentFlag ← BitProgram.get 1
  if picScalingMatrixPresentFlag ≠ 0 then do
    let fallback :=
      if sequenceParameterSet.presentFlag then fallbackRuleB sequenceParameterSet.tables else fallbackRuleA
    let tables ← readLists fallback (if transform8x8ModeFlag ≠ 0 then 8 else 6) emptyPicture.tables
    pure ⟨true, tables⟩
  else pure emptyPicture

/-! ### The standard -/

/-- The zig-zag order of a square: along the diagonals, downwards on every second one. -/
def zigzag (n : ℕ) : List ℕ :=
  (List.range (2 * n - 1)).flatMap fun d =>
    let rows := (List.range n).filter fun r => r ≤ d ∧ d - r < n
    (if d % 2 = 1 then rows else rows.reverse).map fun r => n * r + (d - r)

/-- Values that are repeated. -/
def runs (l : List (ℤ × ℕ)) : List ℤ := l.flatMap fun e => List.replicate e.2 e.1

/-- The default lists, in zig-zag order. -/
def standardDefault (i : ℕ) : List ℤ :=
  if i < 3 then runs [(6, 1), (13, 2), (20, 3), (28, 4), (32, 3), (37, 2), (42, 1)]
  else if i < 6 then runs [(10, 1), (14, 2), (20, 3), (24, 4), (27, 3), (30, 2), (34, 1)]
  else if i = 6 then
    runs [(6, 1), (10, 2), (13, 1), (11, 1), (13, 1), (16, 4), (18, 5), (23, 6), (25, 7), (27, 8), (29, 7),
      (31, 6), (33, 5), (36, 4), (38, 3), (40, 2), (42, 1)]
  else
    runs [(9, 1), (13, 2), (15, 1), (13, 1), (15, 1), (17, 4), (19, 5), (21, 6), (22, 7), (24, 8), (25, 7),
      (27, 6), (28, 5), (30, 4), (32, 3), (33, 2), (35, 1)]

/-- The differences that are coded for `n` more values after `last`: none after one that gives zero. -/
def Coded (last : ℤ) : ℕ → List ℤ → Prop
  | 0, deltas => deltas = []
  | _ + 1, [] => False
  | n + 1, delta :: deltas =>
    (-128 ≤ delta ∧ delta ≤ 127) ∧
      if (last + delta) % 256 = 0 then deltas = [] else Coded ((last + delta) % 256) n deltas

/-- The values for these differences; the last value is repeated after a zero. -/
def scales (last : ℤ) : ℕ → List ℤ → List ℤ
  | 0, _ => []
  | n + 1, [] => List.replicate (n + 1) last
  | n + 1, delta :: deltas =>
    if (last + delta) % 256 = 0 then List.replicate (n + 1) last
    else (last + delta) % 256 :: scales ((last + delta) % 256) n deltas

/-- What is coded for a list of a given size: that it is not present, or differences. -/
inductive ListSyntax (size : ℕ)
  | absent
  | present (deltas : List ℤ) (coded : Coded 8 size deltas)

/-- The bits of that. -/
def ListSyntax.bits {size : ℕ} : ListSyntax size → List Bool
  | absent => [false]
  | present deltas _ => true :: deltas.flatMap fun delta => spell (seFields delta)

/-- The list, in zig-zag order, with what is taken for it by default and for the lack of it. -/
def ListSyntax.derived {size : ℕ} (default fallback : List ℤ) : ListSyntax size → List ℤ
  | absent => fallback
  | present deltas _ =>
    if (8 + deltas.headD 0) % 256 = 0 then default else scales 8 size deltas

/-- What is coded for all lists. -/
abbrev Matrix := ∀ i, ListSyntax (sizeOf i)

namespace Matrix

/-- The bits of the first `n` lists. -/
def bits (m : Matrix) : ℕ → List Bool
  | 0 => []
  | n + 1 => m.bits n ++ (m n).bits

/-- The lists that fall back on another list of the same kind are the ones that have one before them. -/
def First (i : ℕ) : Prop := i = 0 ∨ i = 3 ∨ 6 ≤ i

instance (i : ℕ) : Decidable (First i) := inferInstanceAs (Decidable (_ ∨ _))

/-- The lists by a fall-back rule; `base` has what it takes for the first lists of a kind. -/
def derived (m : Matrix) (base : ℕ → List ℤ) : ℕ → List ℤ
  | 0 => (m 0).derived (standardDefault 0) (base 0)
  | i + 1 =>
    (m (i + 1)).derived (standardDefault (i + 1)) (if First (i + 1) then base (i + 1) else m.derived base i)

end Matrix

/-- A raster list has the values of a zig-zag list. -/
def Holds (size : ℕ) (raster values : List ℤ) : Prop :=
  raster.length = size ∧ ∀ j < size, ∃ place, (zigzag (if size = 16 then 4 else 8))[j]? = some place ∧
    ∃ v, raster[place]? = some v ∧ values[j]? = some v

/-! ### Assignments -/

section

variable {list : List ℤ} {places : List ℕ} {values : List ℤ}

theorem writeAll_cons (place : ℕ) (value : ℤ) :
    writeAll list (place :: places) (value :: values) = writeAll (list.set place value) places values := rfl

theorem length_writeAll (list : List ℤ) (places : List ℕ) (values : List ℤ) :
    (writeAll list places values).length = list.length := by
  induction places generalizing list values with
  | nil => rfl
  | cons place places ih =>
    cases values with
    | nil => rfl
    | cons value values => rw [writeAll_cons, ih, List.length_set]

theorem getElem?_writeAll_of_notMem {k : ℕ} (h : k ∉ places) :
    (writeAll list places values)[k]? = list[k]? := by
  induction places generalizing list values with
  | nil => rfl
  | cons place places ih =>
    obtain ⟨hne, hrest⟩ := not_or.mp (List.mem_cons.not.mp h)
    cases values with
    | nil => rfl
    | cons value values => rw [writeAll_cons, ih hrest, List.getElem?_set_ne (Ne.symm hne)]

theorem getElem?_writeAll (hnodup : places.Nodup) (hlt : ∀ k ∈ places, k < list.length)
    (hlength : places.length = values.length) {j place : ℕ} (hj : places[j]? = some place) :
    ∃ v, (writeAll list places values)[place]? = some v ∧ values[j]? = some v := by
  induction places generalizing list values j with
  | nil => cases hj
  | cons first places ih =>
    obtain ⟨hfirst, hrest⟩ := List.nodup_cons.mp hnodup
    obtain ⟨hltfirst, hltrest⟩ := List.forall_mem_cons.mp hlt
    cases values with
    | nil => cases hlength
    | cons value values =>
      rw [writeAll_cons]
      cases j with
      | zero =>
        obtain rfl : first = place := Option.some.inj hj
        refine ⟨value, ?_, rfl⟩
        rw [getElem?_writeAll_of_notMem hfirst, List.getElem?_set_self hltfirst]
      | succ j =>
        refine ih hrest ?_ (Nat.succ.inj hlength) hj
        intro k hk
        rw [List.length_set]
        exact hltrest k hk

theorem writeAll_range {fallback : List ℤ} {n : ℕ} (hlist : list.length = n) (hlength : fallback.length = n) :
    writeAll list (List.range n) fallback = fallback := by
  refine List.ext_getElem? fun j => ?_
  by_cases hj : j < n
  · have hlt : ∀ k ∈ List.range n, k < list.length := fun k hk => hlist ▸ List.mem_range.mp hk
    have hlen : (List.range n).length = fallback.length := List.length_range.trans hlength.symm
    obtain ⟨v, hv, hfallback⟩ := getElem?_writeAll List.nodup_range hlt hlen (List.getElem?_range hj)
    rw [hv, hfallback]
  · rw [List.getElem?_eq_none (by rw [length_writeAll]; omega), List.getElem?_eq_none (by omega)]

end

/-! ### The scan -/

/-- The scan of a size that occurs. -/
structure Scan (size : ℕ) : Prop where
  zigzag : scan size = zigzag (if size = 16 then 4 else 8)
  nodup : (scan size).Nodup
  length : (scan size).length = size
  lt : ∀ k ∈ scan size, k < size

theorem scan_sizeOf (i : ℕ) : Scan (sizeOf i) := by
  unfold sizeOf
  split
  · exact ⟨by decide, by decide, rfl, by decide⟩
  · exact ⟨by decide +kernel, by decide +kernel, rfl, by decide +kernel⟩

theorem defaultScalingList_eq (i : ℕ) : defaultScalingList i = standardDefault i := by
  unfold defaultScalingList standardDefault
  split
  · rfl
  · split
    · rfl
    · split <;> rfl

theorem length_standardDefault (i : ℕ) : (standardDefault i).length = sizeOf i := by
  unfold standardDefault sizeOf
  split
  next h => rw [if_pos (by omega)]; rfl
  next h =>
    split
    · rfl
    · split <;> rfl

variable {size j n : ℕ}

theorem Holds.of_writeAll (hscan : Scan size) {list values : List ℤ} (hlist : list.length = size)
    (hvalues : values.length = size) : Holds size (writeAll list (scan size) values) values := by
  refine ⟨(length_writeAll _ _ _).trans hlist, ?_⟩
  intro j hj
  obtain ⟨place, hplace⟩ : ∃ place, (scan size)[j]? = some place :=
    ⟨_, List.getElem?_eq_getElem (by rw [hscan.length]; exact hj)⟩
  rw [← hscan.zigzag]
  refine ⟨place, hplace, ?_⟩
  exact getElem?_writeAll hscan.nodup (fun k hk => hlist ▸ hscan.lt k hk) (hscan.length.trans hvalues.symm) hplace

theorem holds_default (i : ℕ) : Holds (sizeOf i) (defaultScanOrderScalingList i) (standardDefault i) := by
  refine Holds.of_writeAll (scan_sizeOf i) List.length_replicate ?_
  rw [defaultScalingList_eq, length_standardDefault]

/-! ### Reading a list -/

theorem length_scales (last : ℤ) (n : ℕ) (deltas : List ℤ) : (scales last n deltas).length = n := by
  induction n generalizing last deltas with
  | zero => rfl
  | succ n ih =>
    cases deltas with
    | nil => exact List.length_replicate
    | cons delta deltas =>
      rw [scales]
      split
      · exact List.length_replicate
      · rw [List.length_cons, ih]

variable {last delta : ℤ}

theorem tmod_eq (hlast : 0 ≤ last) (hdelta : -128 ≤ delta) :
    (last + delta + 256).tmod 256 = (last + delta) % 256 := by
  rw [Int.tmod_eq_emod_of_nonneg (by omega), Int.add_emod_right]

variable {s : ScaleState}

theorem reads_ended (rest : List ℕ) (j : ℕ) (hnext : s.nextScale = 0) :
    BitProgram.Reads 32 (readScales j rest s) []
      { s with scalingList := writeAll s.scalingList rest (List.replicate rest.length s.lastScale) } := by
  induction rest generalizing j s with
  | nil => exact .pure _
  | cons place rest ih =>
    have hrest := ih (j + 1) (s := { s with scalingList := s.scalingList.set place s.lastScale }) hnext
    have hskip : readDelta j s = pure s := if_neg (not_not.mpr hnext)
    rw [readScales, hskip]
    refine (BitProgram.Reads.pure s).bind_nil ?_
    rw [if_pos hnext]
    exact hrest

theorem add_eq (hlast : 0 ≤ s.lastScale) (hdelta : -128 ≤ delta) (j : ℕ) :
    s.add j delta =
      { s with
        nextScale := (s.lastScale + delta) % 256
        useDefaultScalingMatrixFlag := decide (j = 0 ∧ (s.lastScale + delta) % 256 = 0) } := by
  unfold ScaleState.add
  rw [tmod_eq hlast hdelta]

variable {rest : List ℕ}

theorem reads_delta {place : ℕ} {l : List Bool}
    {c : ScaleState} (hnext : s.nextScale ≠ 0) (hlow : -128 ≤ delta) (hhigh : delta ≤ 127)
    (hrest : BitProgram.Reads 32
      (readScales (j + 1) rest
        { s.add j delta with
          scalingList := s.scalingList.set place
            (if (s.add j delta).nextScale = 0 then s.lastScale else (s.add j delta).nextScale)
          lastScale := if (s.add j delta).nextScale = 0 then s.lastScale else (s.add j delta).nextScale }) l c) :
    BitProgram.Reads 32 (readScales j (place :: rest) s) (spell (seFields delta) ++ l) c := by
  have hread := BitStream.reads_se (v := delta) (by rw [abs_lt]; omega)
  have hstate : BitProgram.Reads 32 (readDelta j s) (spell (seFields delta)) (s.add j delta) := by
    rw [readDelta, if_pos hnext]
    exact hread.map fun deltaScale => s.add j deltaScale
  exact hstate.bind hrest

variable {deltas : List ℤ}

/-- From some value on, the differences that are coded are read, and the values they stand for go to their
places; the flag is not set any more. -/
theorem reads_scales (hcoded : Coded last n deltas) (hlast : 0 < last)
    (hlength : rest.length = n) (hj : j ≠ 0) (list : List ℤ) :
    ∃ s, BitProgram.Reads 32 (readScales j rest ⟨list, last, last, false⟩)
        (deltas.flatMap fun delta => spell (seFields delta)) s ∧
      s.scalingList = writeAll list rest (scales last n deltas) ∧
      s.useDefaultScalingMatrixFlag = false := by
  induction n generalizing last deltas rest j list with
  | zero =>
    obtain rfl : deltas = [] := hcoded
    obtain rfl := List.eq_nil_of_length_eq_zero hlength
    exact ⟨_, .pure _, rfl, rfl⟩
  | succ n ih =>
    cases deltas with
    | nil => exact hcoded.elim
    | cons delta deltas =>
      obtain ⟨⟨hlow, hhigh⟩, hcoded⟩ := hcoded
      obtain ⟨place, rest, rfl⟩ := List.exists_cons_of_length_eq_add_one hlength
      have hlength : rest.length = n := Nat.succ.inj hlength
      have hflag : decide (j = 0 ∧ (last + delta) % 256 = 0) = false := decide_eq_false fun h => hj h.1
      rw [List.flatMap_cons, scales]
      have hadd := add_eq (s := ⟨list, last, last, false⟩) (Int.le_of_lt hlast) hlow j
      rw [hflag] at hadd
      by_cases hzero : (last + delta) % 256 = 0
      · rw [if_pos hzero] at hcoded ⊢
        obtain rfl := hcoded
        refine ⟨_, reads_delta (Int.ne_of_gt hlast) hlow hhigh (reads_ended rest (j + 1) ?_), ?_, ?_⟩
        · rw [hadd]
          exact hzero
        · rw [hadd, hlength]
          rw [if_pos hzero]
          rfl
        · rw [hadd]
      · rw [if_neg hzero] at hcoded ⊢
        have hpos : 0 < (last + delta) % 256 := by
          have := Int.emod_nonneg (last + delta) (show (256 : ℤ) ≠ 0 by decide)
          omega
        obtain ⟨s, hs, hlist, hdefault⟩ := ih hcoded hpos hlength (Nat.succ_ne_zero j)
          (list.set place ((last + delta) % 256))
        refine ⟨s, reads_delta (Int.ne_of_gt hlast) hlow hhigh ?_, hlist, hdefault⟩
        rw [hadd]
        rw [if_neg hzero]
        exact hs

theorem reads_scales_first (hcoded : Coded 8 (n + 1) deltas) {places : List ℕ}
    (hlength : places.length = n + 1) (list : List ℤ) :
    ∃ s, BitProgram.Reads 32 (readScales 0 places ⟨list, 8, 8, false⟩)
        (deltas.flatMap fun delta => spell (seFields delta)) s ∧
      s.scalingList = writeAll list places (scales 8 (n + 1) deltas) ∧
      s.useDefaultScalingMatrixFlag = decide ((8 + deltas.headD 0) % 256 = 0) := by
  cases deltas with
  | nil => exact hcoded.elim
  | cons delta deltas =>
    obtain ⟨⟨hlow, hhigh⟩, hcoded⟩ := hcoded
    obtain ⟨place, rest, rfl⟩ := List.exists_cons_of_length_eq_add_one hlength
    have hlength : rest.length = n := Nat.succ.inj hlength
    have hadd := add_eq (s := ⟨list, 8, 8, false⟩) (show (0 : ℤ) ≤ 8 by decide) hlow 0
    have hflag : decide (0 = 0 ∧ (8 + delta) % 256 = 0) = decide ((8 + delta) % 256 = 0) := by simp
    rw [hflag] at hadd
    rw [List.flatMap_cons, scales, List.headD_cons]
    by_cases hzero : (8 + delta) % 256 = 0
    · rw [if_pos hzero] at hcoded ⊢
      obtain rfl := hcoded
      refine ⟨_, reads_delta (show (8 : ℤ) ≠ 0 by decide) hlow hhigh (reads_ended rest 1 ?_), ?_, ?_⟩
      · rw [hadd]
        exact hzero
      · rw [hadd, hlength]
        rw [if_pos hzero]
        rfl
      · rw [hadd]
    · rw [if_neg hzero] at hcoded ⊢
      have hpos : 0 < (8 + delta) % 256 := by
        have := Int.emod_nonneg (8 + delta) (show (256 : ℤ) ≠ 0 by decide)
        omega
      have hnot : decide ((8 + delta) % 256 = 0) = false := decide_eq_false hzero
      obtain ⟨s, hs, hlist, hdefault⟩ := reads_scales hcoded hpos hlength Nat.one_ne_zero
        (list.set place ((8 + delta) % 256))
      refine ⟨s, reads_delta (show (8 : ℤ) ≠ 0 by decide) hlow hhigh ?_, hlist, hdefault.trans hnot.symm⟩
      rw [hadd]
      rw [if_neg hzero, hnot]
      exact hs

theorem reads_list (hscan : Scan size) (hsize : 0 < size) (m : ListSyntax size)
    {list default fallback values : List ℤ} (hlist : list.length = size) (hdefault : default.length = size)
    (hfallback : Holds size fallback values) :
    ∃ list', BitProgram.Reads 32
        (BitProgram.get 1 >>= fun present => readScalingList (present ≠ 0) list default fallback size)
        m.bits list' ∧
      Holds size list' (m.derived default values) := by
  obtain ⟨n, rfl⟩ : ∃ n, size = n + 1 := ⟨size - 1, by omega⟩
  cases m with
  | absent =>
    refine ⟨writeAll list (List.range (n + 1)) fallback, ?_, ?_⟩
    · exact (BitProgram.reads_get (n := 1) (v := 0) (by decide) (by decide)).bind_nil (.pure _)
    · rw [writeAll_range hlist hfallback.1]
      exact hfallback
  | present deltas hcoded =>
    obtain ⟨s, hs, hscales, hflag⟩ := reads_scales_first hcoded hscan.length list
    have hmap := hs.map fun s =>
      if s.useDefaultScalingMatrixFlag then writeAll s.scalingList (scan (n + 1)) default else s.scalingList
    refine ⟨_, (BitProgram.reads_get (n := 1) (v := 1) (by decide) (by decide)).bind hmap, ?_⟩
    rw [hflag, hscales, ListSyntax.derived]
    by_cases hzero : (8 + deltas.headD 0) % 256 = 0
    · rw [if_pos hzero, if_pos (decide_eq_true hzero)]
      exact Holds.of_writeAll hscan ((length_writeAll _ _ _).trans hlist) hdefault
    · rw [if_neg hzero, if_neg (by rw [decide_eq_false hzero]; exact Bool.false_ne_true)]
      exact Holds.of_writeAll hscan hlist (length_scales _ _ _)

/-! ### Reading the lists -/

/-- The fall-back lists hold what they should, once the lists before have been read. -/
def FallsBack (fallback : Tables → ℕ → List ℤ) (base : ℕ → List ℤ) : Prop :=
  ∀ (own : Tables) (m : Matrix) (n : ℕ), n < 8 →
    (∀ i < n, Holds (sizeOf i) (own i) (m.derived base i)) →
      Holds (sizeOf n) (fallback own n)
        (if Matrix.First n then base n else m.derived base (n - 1))

variable {fallback : Tables → ℕ → List ℤ} {base : ℕ → List ℤ}

theorem reads_lists (hfallback : FallsBack fallback base)
    (m : Matrix) {own : Tables} (hown : ∀ i, (own i).length = sizeOf i) (hn : n ≤ 8) :
    ∃ own', BitProgram.Reads 32 (readLists fallback n own) (m.bits n) own' ∧
      (∀ i, (own' i).length = sizeOf i) ∧ ∀ i < n, Holds (sizeOf i) (own' i) (m.derived base i) := by
  induction n with
  | zero => exact ⟨own, .pure own, hown, nofun⟩
  | succ n ih =>
    obtain ⟨own', hread, hlengths, hholds⟩ := ih (Nat.le_of_succ_le hn)
    have hsize : 0 < sizeOf n := by
      unfold sizeOf
      split <;> decide
    obtain ⟨list, hlist, hderived⟩ := reads_list (scan_sizeOf n) hsize (m n) (hlengths n)
      (defaultScalingList_eq n ▸ length_standardDefault n) (hfallback own' m n hn hholds)
    have hvalue : (m n).derived (defaultScalingList n)
        (if Matrix.First n then base n else m.derived base (n - 1)) = m.derived base n := by
      cases n with
      | zero => rfl
      | succ n => rfl
    rw [hvalue] at hderived
    refine ⟨Function.update own' n list, ?_, ?_, ?_⟩
    · exact hread.bind (hlist.map fun l => Function.update own' n l)
    · intro i
      by_cases hi : i = n
      · subst hi
        rw [Function.update_self]
        exact hderived.1
      · rw [Function.update_of_ne hi]
        exact hlengths i
    · intro i hi
      by_cases heq : i = n
      · subst heq
        rw [Function.update_self]
        exact hderived
      · rw [Function.update_of_ne heq]
        exact hholds i (by omega)

theorem fallsBack_ruleA : FallsBack fallbackRuleA standardDefault := by
  intro own m n hn hholds
  match n, hn with
  | 0, _ => exact holds_default 0
  | 1, _ => exact hholds 0 (by decide)
  | 2, _ => exact hholds 1 (by decide)
  | 3, _ => exact holds_default 3
  | 4, _ => exact hholds 3 (by decide)
  | 5, _ => exact hholds 4 (by decide)
  | 6, _ => exact holds_default 6
  | 7, _ => exact holds_default 7

theorem fallsBack_ruleB {sequenceParameterSet : Tables} {values : ℕ → List ℤ}
    (h : ∀ i < 8, Holds (sizeOf i) (sequenceParameterSet i) (values i)) :
    FallsBack (fallbackRuleB sequenceParameterSet) values := by
  intro own m n hn hholds
  match n, hn with
  | 0, _ => exact h 0 (by decide)
  | 1, _ => exact hholds 0 (by decide)
  | 2, _ => exact hholds 1 (by decide)
  | 3, _ => exact h 3 (by decide)
  | 4, _ => exact hholds 3 (by decide)
  | 5, _ => exact hholds 4 (by decide)
  | 6, _ => exact h 6 (by decide)
  | 7, _ => exact h 7 (by decide)

/-! ### Parameter sets -/

/-- What is coded for a scaling matrix, which may not be present, with `n` lists. -/
def matrixBits (n : ℕ) : Option Matrix → List Bool
  | none => [false]
  | some m => true :: m.bits n

/-- The number of lists in a picture parameter set. -/
def pictureLists (transform8x8Mode : Bool) : ℕ := if transform8x8Mode then 8 else 6

/-- The lists of a sequence parameter set that the lists of a picture parameter set fall back on; without
any there, they fall back on the default ones. -/
def sequenceBase : Option Matrix → ℕ → List ℤ
  | none => standardDefault
  | some m => m.derived standardDefault

/-- The lists of a matrix that is present are right. -/
def ListsRight (tables : Tables) (n : ℕ) (base : ℕ → List ℤ) (matrix : Option Matrix) : Prop :=
  ∀ m ∈ matrix, ∀ i < n, Holds (sizeOf i) (tables i) (m.derived base i)

theorem reads_flag (flag : Bool) : BitProgram.Reads 32 (BitProgram.get 1) [flag] flag.toNat := by
  cases flag with
  | true => exact BitProgram.reads_get (n := 1) (v := 1) (by decide) (by decide)
  | false => exact BitProgram.reads_get (n := 1) (v := 0) (by decide) (by decide)

theorem reads_matrix (hfallback : FallsBack fallback base)
    (matrix : Option Matrix) (start : ScalingMatrix) (hstart : ∀ i, (start.tables i).length = sizeOf i)
    (hn : n ≤ 8) :
    ∃ result, BitProgram.Reads 32
        (BitProgram.get 1 >>= fun flag =>
          if flag ≠ 0 then readLists fallback n start.tables >>= fun tables => pure ⟨true, tables⟩
          else pure start) (matrixBits n matrix) result ∧
      result.presentFlag = (matrix.isSome || start.presentFlag) ∧
      ListsRight result.tables n base matrix := by
  cases matrix with
  | none => exact ⟨start, (reads_flag false).bind_nil (.pure _), rfl, nofun⟩
  | some m =>
    obtain ⟨tables, hread, -, hholds⟩ := reads_lists hfallback m hstart hn
    refine ⟨⟨true, tables⟩, (reads_flag true).bind (hread.map (ScalingMatrix.mk true)), rfl, ?_⟩
    intro m' hm'
    obtain rfl : m = m' := Option.some.inj hm'
    exact hholds

/-- **Scaling lists**: the scaling matrices of a sequence parameter set and of a picture parameter set that
refers to it are read as they are coded, and the lists that are kept are the ones that the standard derives. -/
theorem scaling_lists (sequence picture : Option Matrix) (transform8x8Mode : Bool) :
    ∃ s p, BitProgram.Reads 32 readSequence (matrixBits 8 sequence) s ∧
      BitProgram.Reads 32 (readPicture s)
        (transform8x8Mode :: matrixBits (pictureLists transform8x8Mode) picture) p ∧
      ListsRight s.tables 8 standardDefault sequence ∧
      ListsRight p.tables (pictureLists transform8x8Mode) (sequenceBase sequence) picture := by
  obtain ⟨s, hs, hpresent, hlists⟩ := reads_matrix fallsBack_ruleA sequence defaultSequence
    (fun i => List.length_replicate) (Nat.le_refl 8)
  have hfallback : FallsBack (if s.presentFlag then fallbackRuleB s.tables else fallbackRuleA)
      (sequenceBase sequence) := by
    cases sequence with
    | none =>
      rw [if_neg (by rw [hpresent]; exact Bool.false_ne_true)]
      exact fallsBack_ruleA
    | some m =>
      rw [if_pos (show s.presentFlag = true from hpresent)]
      exact fallsBack_ruleB fun i hi => hlists m rfl i hi
  have hn : pictureLists transform8x8Mode ≤ 8 := by
    cases transform8x8Mode <;> decide
  obtain ⟨p, hp, -, hright⟩ := reads_matrix hfallback picture emptyPicture
    (fun i => List.length_replicate) hn
  refine ⟨s, p, hs, ?_, hlists, hright⟩
  have hmode : (if transform8x8Mode.toNat ≠ 0 then 8 else 6) = pictureLists transform8x8Mode := by
    cases transform8x8Mode <;> rfl
  rw [← hmode] at hp ⊢
  exact (reads_flag transform8x8Mode).bind hp

end Player2.ScalingLists
