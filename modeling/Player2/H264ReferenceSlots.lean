import Mathlib.Data.Set.Basic
import Player2.CodecReferences

/-! # The reference frame slots of the H.264 codec

The H.264 codec keeps a slot of the transformer's reference frame array for each reference frame, next to
what the codec base class holds (`ReferenceState`).  `ReferenceFrameSlotAllocate` takes the first free slot,
or puts the request off until a slot is released; `H264ReleaseReferenceFrame` frees the slot of a frame
whose last reference of the frame parser goes, and `FillOutDecodeCommand` asks for one for a reference
frame that has no macroblock structure.

`SlotState.withBase` follows the calls of the base class: a `CodecBufferState_t` that `memset` clears there
loses its slot and its pointers here.  The slots of the reference frames stay distinct (`step_kept`), as
long as a reference field that is decoded into a buffer with a macroblock structure finds the frame still
referenced: after a release between its fields the slot is free, and is not asked for again. -/

namespace Player2.H264Codec

open Codec
open Codec.ReferenceState hiding Label step start

/-! ### Data -/

/-- `H264_MAX_REFERENCE_FRAMES`. -/
def maxReferenceFrames : ℕ := 16

/-- `H264_DecodedBufferAddress_t`, less the decimated pictures; also the pointers in the buffer state. -/
structure BufferAddress where
  luma : ℕ
  chroma : ℕ
  mbStruct : ℕ
deriving DecidableEq, Repr

/-- `CodecBufferState_t`, as far as the reference frame slots go. -/
structure SlotBuffer where
  referenceFrameSlot : Word
  address : BufferAddress
deriving DecidableEq

/-- What `memset (..., 0x00, ...)` makes of it. -/
def SlotBuffer.empty : SlotBuffer := ⟨0, ⟨0, 0, 0⟩⟩

/-- `H264_PictureDescriptorType_t`. -/
inductive DescriptorType
  | frame
  | aframe
  | fieldTop
  | fieldBottom
deriving DecidableEq, Repr

/-- `H264_ReferenceType_t`. -/
inductive ReferenceType
  | unused
  | shortTerm
  | longTerm
deriving DecidableEq, Repr

/-- `H264_HostData_t`. -/
structure HostData where
  pictureNumber : ℤ
  picOrderCntTop : ℤ
  picOrderCntBot : ℤ
  picOrderCnt : ℤ
  descriptorType : DescriptorType
  referenceType : ReferenceType
  idrFlag : Bool
deriving DecidableEq, Repr

/-- The codec.  Of `ReferenceFrameSlotUsed` only the first 16 entries are there. -/
structure SlotState where
  base : ReferenceState
  bufferState : Word → SlotBuffer
  recordedHostData : Word → HostData
  referenceFrameSlotUsed : ℕ → Bool
  outstandingSlotAllocationRequest : Word

namespace SlotState

def referenceFrameCount (s : SlotState) (i : Word) : ℕ := (s.base.bufferState i).referenceFrameCount

def slot (s : SlotState) (i : Word) : Word := (s.bufferState i).referenceFrameSlot

/-- The base class has gone on to another state. -/
def withBase (s : SlotState) (base : ReferenceState) : SlotState :=
  { s with
    base := base
    bufferState := fun i =>
      if (s.base.bufferState i).present ∧ ¬ (base.bufferState i).present then .empty else s.bufferState i }

/-! ### Slots -/

/-- The loop that looks for a free slot. -/
def freeSlot (s : SlotState) : Option ℕ :=
  (List.range maxReferenceFrames).find? fun i => !s.referenceFrameSlotUsed i

/-- A buffer gets a slot. -/
def giveSlot (s : SlotState) (b : Word) (i : ℕ) : SlotState :=
  { s with
    referenceFrameSlotUsed := Function.update s.referenceFrameSlotUsed i true
    bufferState := Function.update s.bufferState b ⟨BitVec.ofNat 32 i, (s.bufferState b).address⟩ }

/-- The first part of `ReferenceFrameSlotAllocate`: a request that was put off. -/
def satisfyOutstanding (s : SlotState) : SlotState :=
  let b := s.outstandingSlotAllocationRequest
  if b = invalidIndex then s
  else if s.referenceFrameCount b ≠ 0 then
    match s.freeSlot with
    | some i => { s.giveSlot b i with outstandingSlotAllocationRequest := invalidIndex }
    | none => s
  else { s with outstandingSlotAllocationRequest := invalidIndex }

/-- `ReferenceFrameSlotAllocate`, which fails while a request is put off. -/
def referenceFrameSlotAllocate (s : SlotState) (b : Word) : SlotState × Bool :=
  let t := s.satisfyOutstanding
  if b = invalidIndex then (t, true)
  else if t.outstandingSlotAllocationRequest ≠ invalidIndex then (t, false)
  else
    match t.freeSlot with
    | some i => (t.giveSlot b i, true)
    | none =>
      ({ t with
          bufferState := Function.update t.bufferState b ⟨invalidIndex, (t.bufferState b).address⟩
          outstandingSlotAllocationRequest := b }, true)

section
variable (limits : BufferLimits)

/-- The slots that `H264ReleaseReferenceFrame` frees. -/
def freeSlots (s : SlotState) (d : Word) : SlotState :=
  if d = invalidIndex then
    { s with referenceFrameSlotUsed := fun _ => false, outstandingSlotAllocationRequest := invalidIndex }
  else
    match s.base.translateDecodeIndex d with
    | none => s
    | some i =>
      if s.referenceFrameCount i = 1 ∧ s.slot i ≠ invalidIndex then
        { s with
          referenceFrameSlotUsed := Function.update s.referenceFrameSlotUsed (s.slot i).toNat false }
      else s

def h264ReleaseReferenceFrame (s : SlotState) (d : Word) : SlotState :=
  let t := ((s.freeSlots d).referenceFrameSlotAllocate invalidIndex).1
  t.withBase (t.base.releaseReferenceFrame limits d)

/-- The slot and the macroblock structure that `FillOutDecodeCommand` obtains; `structure?` is the structure
that it gets, if it gets one. -/
def obtainSlot (s : SlotState) (referenceFrame : Bool) (structure? : Option ℕ) : SlotState × Bool :=
  let b := s.base.currentDecodeBufferIndex
  if referenceFrame ∧ (s.bufferState b).address.mbStruct = 0 then
    match s.referenceFrameSlotAllocate b with
    | (t, false) => (t.h264ReleaseReferenceFrame limits invalidIndex, false)
    | (t, true) =>
      match structure? with
      | none => (t, false)
      | some mbStruct =>
        ({ t with
            bufferState := Function.update t.bufferState b
              ⟨t.slot b, { (t.bufferState b).address with mbStruct := mbStruct }⟩ }, true)
  else (s, true)

/-! ### Decodes -/

/-- A frame that is input: the decode context that it gets, the decode indices in its reference frame
lists, what `FillOutDecodeCommandHostData` says of it, the macroblock structure it obtains, if any, and
whether it has a pre-processed buffer. -/
structure Frame where
  context : ℕ
  lists : List (List Word)
  referenceFrame : Bool
  hostData : HostData
  mbStruct : Option ℕ
  preProcessed : Bool

/-- What `Input` does up to `FillOutDecodeCommandRefPicList`, and whether it gets there. -/
def prepare (s : SlotState) (frame : Frame) : SlotState × Bool :=
  let held := s.withBase
    (s.base.translateReferenceFrameLists limits frame.context frame.lists true frame.referenceFrame)
  match held.obtainSlot limits frame.referenceFrame frame.mbStruct with
  | (t, false) => (t, false)
  | (t, true) =>
    if frame.preProcessed ∧ frame.referenceFrame then
      ({ t with recordedHostData :=
          Function.update t.recordedHostData t.base.currentDecodeBufferIndex frame.hostData }, true)
    else (t, frame.preProcessed)

/-! ### Steps -/

/-- The calls.  `base` is one that the H.264 codec leaves to the base class. -/
inductive Label
  | base (l : Codec.ReferenceState.Label)
  | getDecodeBuffer (d i : Word) (luma chroma : ℕ)
  | releaseReferenceFrame (d : Word)
  | decode (frame : Frame)

/-- The calls of the base class that the H.264 codec makes with more around them. -/
def Overridden : Codec.ReferenceState.Label → Bool
  | .getDecodeBuffer _ _ => true
  | .translateReferenceFrameLists _ _ _ _ => true
  | .releaseReferenceFrame _ => true
  | _ => false

/-- One call. -/
def step (s : SlotState) : Label → Option SlotState
  | .base l =>
    if Overridden l then none
    else (Codec.ReferenceState.step limits s.base l).map s.withBase
  | .getDecodeBuffer d i luma chroma =>
    (Codec.ReferenceState.step limits s.base (.getDecodeBuffer d i)).map fun base =>
      if s.base.HasFree then
        { s.withBase base with
          bufferState := Function.update (s.withBase base).bufferState i ⟨0, ⟨luma, chroma, 0⟩⟩ }
      else s.withBase base
  | .releaseReferenceFrame d => some (s.h264ReleaseReferenceFrame limits d)
  | .decode frame =>
    if s.base.contexts[frame.context]? = some .fresh ∧ s.base.currentDecodeBufferIndex ≠ invalidIndex then
      some (s.prepare limits frame).1
    else none

/-- `RegisterOutputBufferRing`. -/
def start : SlotState where
  base := Codec.ReferenceState.start limits
  bufferState := fun _ => .empty
  recordedHostData := fun _ => ⟨0, 0, 0, 0, .frame, .unused, false⟩
  referenceFrameSlotUsed := fun _ => false
  outstandingSlotAllocationRequest := invalidIndex

end

/-! ### The base class -/

/-- The references of the frame parser only get fewer, and a buffer that is forgotten has none. -/
structure Shrinks (s t : ReferenceState) : Prop where
  count : ∀ i, (t.bufferState i).referenceFrameCount ≤ (s.bufferState i).referenceFrameCount
  forgotten : ∀ i, (s.bufferState i).present = true → (t.bufferState i).present = false →
    (t.bufferState i).referenceFrameCount = 0

variable {s t base : ReferenceState}

theorem Shrinks.of_eq (h : t.bufferState = s.bufferState) : Shrinks s t where
  count i := by rw [h]
  forgotten i hpresent hgone := by
    rw [h, hpresent] at hgone
    exact absurd hgone (by decide)

theorem Shrinks.refl (s : ReferenceState) : Shrinks s s := .of_eq rfl

theorem Shrinks.trans {s t u : ReferenceState} (hst : Shrinks s t) (htu : Shrinks t u) : Shrinks s u where
  count i := (htu.count i).trans (hst.count i)
  forgotten i hpresent hgone := by
    cases hmid : (t.bufferState i).present with
    | true => exact htu.forgotten i hmid hgone
    | false => exact Nat.le_zero.mp ((htu.count i).trans (hst.forgotten i hpresent hmid).le)

variable {i d : Word}

theorem Shrinks.of_update {b : BufferHold}
    (h : t.bufferState = Function.update s.bufferState i b)
    (hcount : b.referenceFrameCount ≤ (s.bufferState i).referenceFrameCount)
    (hgone : (s.bufferState i).present = true → b.present = false → b.referenceFrameCount = 0) :
    Shrinks s t := by
  constructor
  · intro j
    rw [h]
    by_cases hj : j = i
    · subst hj
      rw [Function.update_self]
      exact hcount
    · rw [Function.update_of_ne hj]
  · intro j
    rw [h]
    by_cases hj : j = i
    · subst hj
      rw [Function.update_self]
      exact hgone
    · rw [Function.update_of_ne hj]
      intro hpresent habsent
      exact absurd (hpresent.symm.trans habsent) (by decide)

theorem shrinks_decrementReferenceCount (s : ReferenceState) (i : Word) :
    Shrinks s (s.decrementReferenceCount i) := by
  unfold decrementReferenceCount
  split
  · split
    · exact Shrinks.of_update (b := .empty) rfl (Nat.zero_le _) fun _ _ => rfl
    · exact Shrinks.of_eq rfl
  · exact Shrinks.refl s

theorem shrinks_dropFrameReference (s : ReferenceState) (i : Word) : Shrinks s (s.dropFrameReference i) := by
  refine Shrinks.trans (t := s.setReferenceFrameCount i ((s.bufferState i).referenceFrameCount - 1)) ?_
    (shrinks_decrementReferenceCount _ i)
  exact Shrinks.of_update rfl (Nat.sub_le _ _) fun hpresent habsent =>
    absurd (hpresent.symm.trans habsent) (by decide)

theorem shrinks_foldl {α : Type*} {f : ReferenceState → α → ReferenceState} (hf : ∀ s a, Shrinks s (f s a))
    (l : List α) (s : ReferenceState) : Shrinks s (l.foldl f s) := by
  induction l generalizing s with
  | nil => exact Shrinks.refl s
  | cons a rest ih => exact (hf s a).trans (ih (f s a))

theorem shrinks_dropFrameReferences (count : ℕ) (s : ReferenceState) (i : Word) :
    Shrinks s (dropFrameReferences count s i) := by
  induction count generalizing s with
  | zero => exact Shrinks.refl s
  | succ count ih =>
    unfold dropFrameReferences
    split
    · exact (shrinks_dropFrameReference s i).trans (ih _)
    · exact Shrinks.refl s

theorem shrinks_releaseReferenceFrame (limits : BufferLimits) (s : ReferenceState) (d : Word) :
    Shrinks s (s.releaseReferenceFrame limits d) := by
  unfold releaseReferenceFrame
  split
  · exact shrinks_foldl (fun s i => shrinks_dropFrameReferences _ s _) _ s
  · split
    · exact Shrinks.refl s
    · split
      · exact Shrinks.refl s
      · exact shrinks_dropFrameReference s _

theorem dropFrameReference_count (s : ReferenceState) (i : Word) :
    ((s.dropFrameReference i).bufferState i).referenceFrameCount ≤
      (s.bufferState i).referenceFrameCount - 1 := by
  have hset : ((s.setReferenceFrameCount i ((s.bufferState i).referenceFrameCount - 1)).bufferState
      i).referenceFrameCount = (s.bufferState i).referenceFrameCount - 1 := by
    rw [setReferenceFrameCount]
    dsimp only
    rw [Function.update_self]
  exact ((shrinks_decrementReferenceCount _ i).count i).trans_eq hset

theorem dropFrameReferences_count {count : ℕ}
    (h : (s.bufferState i).referenceFrameCount ≤ count) :
    ((dropFrameReferences count s i).bufferState i).referenceFrameCount = 0 := by
  induction count generalizing s with
  | zero => exact Nat.le_zero.mp h
  | succ count ih =>
    unfold dropFrameReferences
    split
    next hne =>
      have hdrop := dropFrameReference_count s i
      exact ih (by omega)
    next hzero => exact not_not.mp hzero

variable {limits : BufferLimits}

theorem releaseReferenceFrame_all (s : ReferenceState)
    (hi : i.toNat < limits.decodeBufferCount) :
    ((s.releaseReferenceFrame limits invalidIndex).bufferState i).referenceFrameCount = 0 := by
  have hfold : ∀ (l : List ℕ) (s : ReferenceState), i.toNat ∈ l →
      ((l.foldl (fun s i => s.dropFrameReferences (s.bufferState (BitVec.ofNat 32 i)).referenceFrameCount
        (BitVec.ofNat 32 i)) s).bufferState i).referenceFrameCount = 0 := by
    intro l
    induction l with
    | nil => exact fun _ h => nomatch h
    | cons n rest ih =>
      intro s hmem
      rcases List.mem_cons.mp hmem with rfl | hrest
      · have hself : BitVec.ofNat 32 i.toNat = i := by rw [BitVec.ofNat_toNat, BitVec.setWidth_eq]
        rw [List.foldl_cons, hself]
        have hzero := dropFrameReferences_count (s := s) (i := i) (Nat.le_refl _)
        have hshrinks := (shrinks_foldl (fun s i => shrinks_dropFrameReferences
          (s.bufferState (BitVec.ofNat 32 i)).referenceFrameCount s (BitVec.ofNat 32 i)) rest
          (dropFrameReferences (s.bufferState i).referenceFrameCount s i)).count i
        exact Nat.le_zero.mp (hshrinks.trans hzero.le)
      · exact ih _ hrest
  unfold releaseReferenceFrame
  exact hfold _ s (List.mem_range.mpr hi)

theorem releaseReferenceFrame_last (hd : d ≠ invalidIndex) (hi : s.translateDecodeIndex d = some i)
    (hlast : (s.bufferState i).referenceFrameCount = 1) :
    ((s.releaseReferenceFrame limits d).bufferState i).referenceFrameCount = 0 := by
  unfold releaseReferenceFrame
  rw [if_neg hd, hi]
  dsimp only
  rw [if_neg (by omega)]
  have h := dropFrameReference_count s i
  omega

/-- The current buffer after a call that the H.264 codec leaves to the base class, or that obtains one. -/
structure Turns (limits : BufferLimits) (s t : ReferenceState) : Prop extends Shrinks s t where
  current : t.currentDecodeBufferIndex = s.currentDecodeBufferIndex ∨
    t.currentDecodeBufferIndex = invalidIndex ∨ InPool limits t.currentDecodeBufferIndex

theorem foldl_current {α : Type*} {f : ReferenceState → α → ReferenceState}
    (hf : ∀ s a, (f s a).currentDecodeBufferIndex = s.currentDecodeBufferIndex) (l : List α)
    (s : ReferenceState) :
    (l.foldl f s).currentDecodeBufferIndex = s.currentDecodeBufferIndex := by
  induction l generalizing s with
  | nil => rfl
  | cons a rest ih => exact (ih _).trans (hf s a)

theorem dropFrameReferences_current (count : ℕ) (s : ReferenceState) (i : Word) :
    (dropFrameReferences count s i).currentDecodeBufferIndex = s.currentDecodeBufferIndex := by
  induction count generalizing s with
  | zero => rfl
  | succ count ih =>
    unfold dropFrameReferences
    split
    · exact (ih _).trans (decrementReferenceCount_frame _ i).2.2
    · rfl

theorem releaseReferenceFrame_current (limits : BufferLimits) (s : ReferenceState) (d : Word) :
    (s.releaseReferenceFrame limits d).currentDecodeBufferIndex = s.currentDecodeBufferIndex := by
  unfold releaseReferenceFrame
  split
  · exact foldl_current (fun s i => dropFrameReferences_current _ s _) _ s
  · split
    · rfl
    · split
      · rfl
      · exact (decrementReferenceCount_frame _ _).2.2

theorem turns_step {l : Codec.ReferenceState.Label}
    (hl : ∀ k lists firstSlice referenceFrame,
      l ≠ .translateReferenceFrameLists k lists firstSlice referenceFrame)
    (h : Codec.ReferenceState.step limits s l = some t) : Turns limits s t := by
  cases l with
  | getDecodeContext =>
    obtain rfl := Option.some.inj h
    exact ⟨.of_eq rfl, .inl rfl⟩
  | getDecodeBuffer d i =>
    simp only [Codec.ReferenceState.step] at h
    split at h
    next hfree =>
      obtain rfl := Option.some.inj h
      unfold ReferenceState.getDecodeBuffer
      dsimp only
      cases hmap : mapBufferToDecodeIndex _ d i with
      | none => exact ⟨.of_eq rfl, .inr (.inr hfree.2.1)⟩
      | some u =>
        obtain ⟨entries, -, rfl⟩ := Option.map_eq_some_iff.mp hmap
        exact ⟨.of_update (b := ⟨true, 0⟩) rfl (Nat.zero_le _) fun _ _ => rfl, .inr (.inr hfree.2.1)⟩
    next => cases h
  | mapSecondField d =>
    simp only [Codec.ReferenceState.step] at h
    split at h
    · cases h
    · obtain rfl := Option.some.inj h
      unfold ReferenceState.mapSecondField
      cases hmap : mapBufferToDecodeIndex s d s.currentDecodeBufferIndex with
      | none => exact ⟨.of_eq rfl, .inr (.inl rfl)⟩
      | some u =>
        obtain ⟨entries, -, rfl⟩ := Option.map_eq_some_iff.mp hmap
        exact ⟨.of_eq rfl, .inl rfl⟩
  | translateReferenceFrameLists k lists firstSlice referenceFrame =>
    exact absurd rfl (hl k lists firstSlice referenceFrame)
  | launch k =>
    simp only [Codec.ReferenceState.step] at h
    split at h
    · cases h
    · split at h
      · cases h
      · obtain rfl := Option.some.inj h
        exact ⟨.of_eq rfl, .inl rfl⟩
  | forgetDecodeBuffer =>
    obtain rfl := Option.some.inj h
    exact ⟨.of_eq rfl, .inr (.inl rfl)⟩
  | releaseDecodeContext k =>
    simp only [Codec.ReferenceState.step] at h
    split at h
    · cases h
    next c _ =>
      obtain rfl := Option.some.inj h
      refine ⟨Shrinks.trans (t := { s with contexts := s.contexts.eraseIdx k }) (.of_eq rfl) ?_, ?_⟩
      · exact shrinks_foldl shrinks_decrementReferenceCount c.applied _
      · exact .inl (foldl_current (fun s i => (decrementReferenceCount_frame s i).2.2) _ _)
  | releaseReferenceFrame d =>
    obtain rfl := Option.some.inj h
    exact ⟨shrinks_releaseReferenceFrame limits s d, .inl (releaseReferenceFrame_current limits s d)⟩
  | releaseDecodeBuffer i =>
    obtain ⟨-, rfl⟩ := Option.ite_some_none_eq_some.mp h
    unfold ReferenceState.releaseDecodeBuffer
    split
    · refine ⟨Shrinks.trans (t := { s with others := Function.update s.others i (s.others i - 1) })
        (.of_eq rfl) (shrinks_decrementReferenceCount _ i), ?_⟩
      exact .inl (decrementReferenceCount_frame _ i).2.2
    · exact ⟨.of_eq rfl, .inl rfl⟩
  | addReference i =>
    simp only [Codec.ReferenceState.step] at h
    split at h
    · cases h
    · obtain rfl := Option.some.inj h
      exact ⟨.of_eq rfl, .inl rfl⟩
  | getMarkerBuffer i =>
    simp only [Codec.ReferenceState.step] at h
    split at h
    · obtain rfl := Option.some.inj h
      exact ⟨.of_eq rfl, .inl rfl⟩
    · cases h

/-! ### The translation of reference frame lists -/

theorem translateList_frame (limits : BufferLimits) (s : ReferenceState) (list : List Word) :
    (s.translateList limits list).1.bufferState = s.bufferState ∧
      (s.translateList limits list).1.currentDecodeBufferIndex = s.currentDecodeBufferIndex ∧
      (s.translateList limits list).1.contexts = s.contexts := by
  induction list generalizing s with
  | nil => exact ⟨rfl, rfl, rfl⟩
  | cons d rest ih =>
    unfold translateList
    split
    · exact ⟨rfl, rfl, rfl⟩
    · exact ih _

theorem translateLists_frame (limits : BufferLimits) (s : ReferenceState) (lists : List (List Word)) :
    (s.translateLists limits lists).1.bufferState = s.bufferState ∧
      (s.translateLists limits lists).1.currentDecodeBufferIndex = s.currentDecodeBufferIndex ∧
      (s.translateLists limits lists).1.contexts = s.contexts := by
  induction lists generalizing s with
  | nil => exact ⟨rfl, rfl, rfl⟩
  | cons list rest ih =>
    have hlist := translateList_frame limits s list
    unfold translateLists
    split
    next t taken heq =>
      rw [heq] at hlist
      exact ⟨(ih t).1.trans hlist.1, (ih t).2.1.trans hlist.2.1, (ih t).2.2.trans hlist.2.2⟩
    next t taken d left heq =>
      rw [heq] at hlist
      exact hlist

theorem translateReferenceFrameLists_bufferState (limits : BufferLimits) (s : ReferenceState) (k : ℕ)
    (lists : List (List Word)) (referenceFrame : Bool) :
    (s.translateReferenceFrameLists limits k lists true referenceFrame).bufferState =
        (if referenceFrame then
          Function.update s.bufferState s.currentDecodeBufferIndex
            ⟨(s.bufferState s.currentDecodeBufferIndex).present,
              (s.bufferState s.currentDecodeBufferIndex).referenceFrameCount + 1⟩
        else s.bufferState) ∧
      (s.translateReferenceFrameLists limits k lists true referenceFrame).currentDecodeBufferIndex =
        s.currentDecodeBufferIndex := by
  unfold translateReferenceFrameLists
  cases referenceFrame with
  | false =>
    have hframe := translateLists_frame limits s lists
    exact ⟨hframe.1, hframe.2.1⟩
  | true =>
    have hframe := translateLists_frame limits (s.takeFrameReference s.currentDecodeBufferIndex) lists
    exact ⟨hframe.1, hframe.2.1⟩

/-! ### Distinct slots -/

/-- A buffer is referenced and has a slot. -/
def HasSlot (s : SlotState) (i : Word) : Prop := s.referenceFrameCount i ≠ 0 ∧ s.slot i ≠ invalidIndex

instance (s : SlotState) (i : Word) : Decidable (s.HasSlot i) := inferInstanceAs (Decidable (_ ∧ _))

/-- The buffers that have a slot, other than the exempt ones, have different ones, which are in use. -/
structure Distinct (s : SlotState) (exempt : Set Word) : Prop where
  used : ∀ i ∉ exempt, s.HasSlot i →
    (s.slot i).toNat < maxReferenceFrames ∧ s.referenceFrameSlotUsed (s.slot i).toNat = true
  distinct : ∀ i ∉ exempt, ∀ j ∉ exempt, s.HasSlot i → s.HasSlot j → s.slot i = s.slot j → i = j

variable {s t : SlotState} {exempt exempt' : Set Word} {b : Word} {n : ℕ}

theorem Distinct.mono (h : Distinct s exempt)
    (hslots : ∀ i ∉ exempt', t.HasSlot i → i ∉ exempt ∧ s.HasSlot i ∧ t.slot i = s.slot i)
    (hused : ∀ i ∉ exempt', t.HasSlot i → s.referenceFrameSlotUsed (s.slot i).toNat = true →
      t.referenceFrameSlotUsed (s.slot i).toNat = true) : Distinct t exempt' := by
  constructor
  · intro i hi hslot
    obtain ⟨hi', hslot', heq⟩ := hslots i hi hslot
    obtain ⟨hlt, huse⟩ := h.used i hi' hslot'
    rw [heq]
    exact ⟨hlt, hused i hi hslot huse⟩
  · intro i hi j hj hsi hsj heq
    obtain ⟨hi', hsi', ei⟩ := hslots i hi hsi
    obtain ⟨hj', hsj', ej⟩ := hslots j hj hsj
    exact h.distinct i hi' j hj' hsi' hsj' (ei ▸ ej ▸ heq)

theorem Distinct.exempting (h : Distinct s exempt) (hsub : exempt ⊆ exempt') : Distinct s exempt' :=
  h.mono (fun _ hi hslot => ⟨fun hmem => hi (hsub hmem), hslot, rfl⟩) fun _ _ _ huse => huse

theorem slot_update_self (s : SlotState) (b : Word) (state : SlotBuffer) :
    (Function.update s.bufferState b state b).referenceFrameSlot = state.referenceFrameSlot := by
  rw [Function.update_self]

theorem slot_update_of_ne (s : SlotState) (state : SlotBuffer) (h : i ≠ b) :
    (Function.update s.bufferState b state i).referenceFrameSlot = s.slot i := by
  rw [Function.update_of_ne h]
  rfl

theorem freeSlot_spec (h : s.freeSlot = some n) :
    n < maxReferenceFrames ∧ s.referenceFrameSlotUsed n = false := by
  refine ⟨List.mem_range.mp (List.mem_of_find?_eq_some h), ?_⟩
  have hfree := List.find?_some h
  simpa using hfree

theorem toNat_slot (h : n < maxReferenceFrames) : (BitVec.ofNat 32 n).toNat = n :=
  Nat.mod_eq_of_lt (h.trans (by decide))

theorem Distinct.giveSlot (h : Distinct s exempt) (hfree : s.freeSlot = some n) (b : Word) :
    Distinct (s.giveSlot b n) (exempt \ {b}) := by
  obtain ⟨hlt, hunused⟩ := freeSlot_spec hfree
  have hself : (s.giveSlot b n).slot b = BitVec.ofNat 32 n := slot_update_self s b _
  have hother : ∀ {i : Word}, i ≠ b → (s.giveSlot b n).slot i = s.slot i := slot_update_of_ne s _
  -- what another buffer has was in use, and is not the slot that was free
  have hrest : ∀ {i : Word}, i ∉ exempt \ {b} → i ≠ b → (s.giveSlot b n).HasSlot i →
      i ∉ exempt ∧ s.HasSlot i := by
    intro i hi hne hslot
    refine ⟨fun hmem => hi ⟨hmem, hne⟩, hslot.1, ?_⟩
    rw [← hother hne]
    exact hslot.2
  have hnot : ∀ {i : Word}, i ∉ exempt → s.HasSlot i → (s.slot i).toNat ≠ n := by
    intro i hi hslot heq
    have huse := (h.used i hi hslot).2
    rw [heq, hunused] at huse
    exact absurd huse (by decide)
  constructor
  · intro i hi hslot
    by_cases hb : i = b
    · subst hb
      rw [hself, toNat_slot hlt]
      exact ⟨hlt, Function.update_self ..⟩
    · obtain ⟨hi', hslot'⟩ := hrest hi hb hslot
      obtain ⟨hlt', huse⟩ := h.used i hi' hslot'
      rw [hother hb]
      exact ⟨hlt', (Function.update_of_ne (hnot hi' hslot') ..).trans huse⟩
  · intro i hi j hj hsi hsj heq
    by_cases hbi : i = b
    · by_cases hbj : j = b
      · exact hbi.trans hbj.symm
      · obtain ⟨hj', hsj'⟩ := hrest hj hbj hsj
        rw [hbi, hself, hother hbj] at heq
        exact absurd (heq ▸ toNat_slot hlt) (hnot hj' hsj')
    · obtain ⟨hi', hsi'⟩ := hrest hi hbi hsi
      by_cases hbj : j = b
      · rw [hbj, hself, hother hbi] at heq
        exact absurd (heq ▸ toNat_slot hlt) (hnot hi' hsi')
      · obtain ⟨hj', hsj'⟩ := hrest hj hbj hsj
        rw [hother hbi, hother hbj] at heq
        exact h.distinct i hi' j hj' hsi' hsj' heq

theorem Distinct.putOff (h : Distinct s exempt) (b : Word) (address : BufferAddress) :
    Distinct { s with bufferState := Function.update s.bufferState b ⟨invalidIndex, address⟩ }
      (exempt \ {b}) := by
  refine h.mono ?_ fun _ _ _ huse => huse
  intro i hi hslot
  have hne : i ≠ b := by
    rintro rfl
    exact hslot.2 (slot_update_self s i _)
  have heq := slot_update_of_ne s ⟨invalidIndex, address⟩ hne
  exact ⟨fun hmem => hi ⟨hmem, hne⟩, ⟨hslot.1, heq ▸ hslot.2⟩, heq⟩

theorem Distinct.outstanding (h : Distinct s exempt) (b : Word) :
    Distinct { s with outstandingSlotAllocationRequest := b } exempt :=
  ⟨h.used, h.distinct⟩

theorem Distinct.satisfyOutstanding (h : Distinct s exempt) : Distinct s.satisfyOutstanding exempt := by
  unfold SlotState.satisfyOutstanding
  dsimp only
  split
  · exact h
  · split
    · split
      next n hfree =>
        have hgiven := h.giveSlot hfree s.outstandingSlotAllocationRequest
        exact (hgiven.exempting Set.sdiff_subset).outstanding invalidIndex
      next => exact h
    · exact h.outstanding invalidIndex

theorem satisfyOutstanding_base (s : SlotState) : s.satisfyOutstanding.base = s.base := by
  unfold SlotState.satisfyOutstanding
  dsimp only
  split
  · rfl
  · split
    · split
      · rfl
      · rfl
    · rfl

theorem allocate_base (s : SlotState) (b : Word) : (s.referenceFrameSlotAllocate b).1.base = s.base := by
  have hbase := satisfyOutstanding_base s
  unfold referenceFrameSlotAllocate
  dsimp only
  split
  · exact hbase
  · split
    · exact hbase
    · split
      · exact hbase
      · exact hbase

theorem Distinct.allocate (h : Distinct s exempt) (b : Word) :
    Distinct (s.referenceFrameSlotAllocate b).1 exempt ∧
      (b ≠ invalidIndex → (s.referenceFrameSlotAllocate b).2 = true →
        Distinct (s.referenceFrameSlotAllocate b).1 (exempt \ {b})) := by
  have hkept := h.satisfyOutstanding
  unfold referenceFrameSlotAllocate
  dsimp only
  split
  next hb => exact ⟨hkept, fun hne => absurd hb hne⟩
  next =>
    split
    · exact ⟨hkept, fun _ hfalse => nomatch hfalse⟩
    · split
      next n hfree =>
        have hdone := hkept.giveSlot hfree b
        exact ⟨hdone.exempting Set.sdiff_subset, fun _ _ => hdone⟩
      next =>
        have hdone := (hkept.putOff b (s.satisfyOutstanding.bufferState b).address).outstanding b
        exact ⟨hdone.exempting Set.sdiff_subset, fun _ _ => hdone⟩

theorem slot_withBase (h : Shrinks s.base base)
    (hslot : (s.withBase base).HasSlot i) : s.HasSlot i ∧ (s.withBase base).slot i = s.slot i := by
  have hcount : (base.bufferState i).referenceFrameCount ≠ 0 := hslot.1
  have hstate : (s.withBase base).bufferState i = s.bufferState i := by
    refine if_neg ?_
    rintro ⟨hpresent, habsent⟩
    exact hcount (h.forgotten i hpresent (Bool.not_eq_true _ ▸ habsent))
  have heq : (s.withBase base).slot i = s.slot i := congrArg SlotBuffer.referenceFrameSlot hstate
  refine ⟨⟨fun hzero => hcount (Nat.le_zero.mp ((h.count i).trans hzero.le)), ?_⟩, heq⟩
  rw [← heq]
  exact hslot.2

theorem Distinct.withBase (h : Distinct s exempt) (hbase : Shrinks s.base base)
    (hexempt : ∀ i ∈ exempt, i ∉ exempt' → (base.bufferState i).referenceFrameCount = 0) :
    Distinct (s.withBase base) exempt' := by
  refine h.mono ?_ fun _ _ _ huse => huse
  intro i hi hslot
  exact ⟨fun hmem => hslot.1 (hexempt i hmem hi), slot_withBase hbase hslot⟩

/-! ### The invariant -/

variable {limits : BufferLimits}

/-- The slots of the reference frames are distinct, and the codec's buffers are in the pool. -/
structure Kept (limits : BufferLimits) (s : SlotState) (exempt : Set Word) : Prop where
  slots : Distinct s exempt
  pooled : ∀ i, s.referenceFrameCount i ≠ 0 → i.toNat < limits.decodeBufferCount
  current : s.base.currentDecodeBufferIndex ≠ invalidIndex →
    s.base.currentDecodeBufferIndex.toNat < limits.decodeBufferCount

theorem Kept.withBase (h : Kept limits s exempt) (hbase : Turns limits s.base base)
    (hexempt : ∀ i ∈ exempt, i ∉ exempt' → (base.bufferState i).referenceFrameCount = 0) :
    Kept limits (s.withBase base) exempt' where
  slots := h.slots.withBase hbase.toShrinks hexempt
  pooled i hcount := h.pooled i fun hzero => hcount (Nat.le_zero.mp ((hbase.count i).trans hzero.le))
  current hne := by
    rcases hbase.current with hsame | hgone | hpool
    · exact hsame ▸ h.current (hsame ▸ hne)
    · exact absurd hgone hne
    · exact hpool.1

theorem turns_releaseReferenceFrame (limits : BufferLimits) (s : ReferenceState) (d : Word) :
    Turns limits s (s.releaseReferenceFrame limits d) :=
  ⟨shrinks_releaseReferenceFrame limits s d, .inl (releaseReferenceFrame_current limits s d)⟩

theorem Kept.releaseAll (h : Kept limits s exempt) :
    Kept limits (s.h264ReleaseReferenceFrame limits invalidIndex) ∅ := by
  have hbase : ((s.freeSlots invalidIndex).referenceFrameSlotAllocate invalidIndex).1.base = s.base := by
    rw [allocate_base, freeSlots, if_pos rfl]
  have hzero : ∀ i,
      ((s.base.releaseReferenceFrame limits invalidIndex).bufferState i).referenceFrameCount = 0 := by
    intro i
    by_cases hcount : s.referenceFrameCount i = 0
    · have hfewer := (shrinks_releaseReferenceFrame limits s.base invalidIndex).count i
      exact Nat.le_zero.mp (hfewer.trans hcount.le)
    · exact releaseReferenceFrame_all s.base (h.pooled i hcount)
  unfold h264ReleaseReferenceFrame
  dsimp only
  refine ⟨⟨fun i _ hslot => absurd (hzero i) hslot.1, fun i _ _ _ hslot => absurd (hzero i) hslot.1⟩, ?_, ?_⟩
  · exact fun i hcount => absurd (hzero i) hcount
  · intro hne
    have hsame := releaseReferenceFrame_current limits s.base invalidIndex
    exact hsame ▸ h.current (hsame ▸ hne)

theorem Distinct.free (h : Distinct s exempt) (hi : i ∉ exempt) (hslot : s.HasSlot i) :
    Distinct { s with
      referenceFrameSlotUsed := Function.update s.referenceFrameSlotUsed (s.slot i).toNat false }
      (insert i exempt) := by
  refine h.mono (fun j hj hslotj => ⟨fun hmem => hj (Set.mem_insert_of_mem i hmem), hslotj, rfl⟩) ?_
  intro j hj hslotj huse
  have hne : j ≠ i := fun heq => hj (heq ▸ Set.mem_insert i exempt)
  have hj' : j ∉ exempt := fun hmem => hj (Set.mem_insert_of_mem i hmem)
  refine (Function.update_of_ne ?_ ..).trans huse
  exact fun heq => hne (h.distinct j hj' i hi hslotj hslot (BitVec.eq_of_toNat_eq heq))

theorem Kept.allocate (h : Kept limits s exempt) (b : Word) :
    Kept limits (s.referenceFrameSlotAllocate b).1 exempt := by
  have hbase := allocate_base s b
  refine ⟨(h.slots.allocate b).1, ?_, hbase ▸ h.current⟩
  intro i hcount
  exact h.pooled i (by rwa [referenceFrameCount, hbase] at hcount)

theorem Kept.releaseReferenceFrame (h : Kept limits s ∅) (d : Word) :
    Kept limits (s.h264ReleaseReferenceFrame limits d) ∅ := by
  by_cases hd : d = invalidIndex
  · subst hd
    exact h.releaseAll
  unfold h264ReleaseReferenceFrame freeSlots
  rw [if_neg hd]
  cases htranslate : s.base.translateDecodeIndex d with
  | none => exact (h.allocate invalidIndex).withBase (turns_releaseReferenceFrame limits _ d) nofun
  | some i =>
    dsimp only
    split
    next hlast =>
      have hslot : s.HasSlot i := ⟨by omega, hlast.2⟩
      have hfreed : Kept limits { s with
          referenceFrameSlotUsed := Function.update s.referenceFrameSlotUsed (s.slot i).toNat false }
          (insert i ∅) := ⟨h.slots.free (Set.notMem_empty i) hslot, h.pooled, h.current⟩
      refine (hfreed.allocate invalidIndex).withBase (turns_releaseReferenceFrame limits _ d) ?_
      intro j hj _
      rcases hj with rfl | hj
      · rw [allocate_base]
        exact releaseReferenceFrame_last hd htranslate hlast.1
      · exact absurd hj (Set.notMem_empty j)
    next => exact (h.allocate invalidIndex).withBase (turns_releaseReferenceFrame limits _ d) nofun

/-! ### The steps keep it -/

/-- The codec while the frame is held: the lists are translated. -/
def translated (limits : BufferLimits) (s : SlotState) (frame : Frame) : SlotState :=
  s.withBase (s.base.translateReferenceFrameLists limits frame.context frame.lists true frame.referenceFrame)

variable {frame : Frame}

theorem translated_current (limits : BufferLimits) (s : SlotState) (frame : Frame) :
    (s.translated limits frame).base.currentDecodeBufferIndex = s.base.currentDecodeBufferIndex :=
  (translateReferenceFrameLists_bufferState limits s.base frame.context frame.lists frame.referenceFrame).2

theorem translated_count_of_ne (limits : BufferLimits) (s : SlotState) (frame : Frame)
    (hi : i ≠ s.base.currentDecodeBufferIndex) :
    (s.translated limits frame).referenceFrameCount i = s.referenceFrameCount i := by
  have h := (translateReferenceFrameLists_bufferState limits s.base frame.context frame.lists
    frame.referenceFrame).1
  show ((s.base.translateReferenceFrameLists limits frame.context frame.lists true
    frame.referenceFrame).bufferState i).referenceFrameCount = _
  rw [h]
  split
  · rw [Function.update_of_ne hi]
    rfl
  · rfl

theorem translated_count_of_held (hheld : frame.referenceFrame = true →
      s.referenceFrameCount s.base.currentDecodeBufferIndex ≠ 0)
    (hcount : (s.translated limits frame).referenceFrameCount i ≠ 0) : s.referenceFrameCount i ≠ 0 := by
  by_cases hi : i = s.base.currentDecodeBufferIndex
  · cases hframe : frame.referenceFrame with
    | true => exact hi ▸ hheld hframe
    | false =>
      have h := (translateReferenceFrameLists_bufferState limits s.base frame.context frame.lists
        frame.referenceFrame).1
      rw [hframe, if_neg Bool.false_ne_true] at h
      have hcount' : ((s.base.translateReferenceFrameLists limits frame.context frame.lists true
          frame.referenceFrame).bufferState i).referenceFrameCount ≠ 0 := hcount
      rw [hframe, h] at hcount'
      exact hcount'
  · rwa [translated_count_of_ne limits s frame hi] at hcount

theorem translated_bufferState (limits : BufferLimits) (s : SlotState) (frame : Frame) :
    (s.translated limits frame).bufferState = s.bufferState := by
  have h := (translateReferenceFrameLists_bufferState limits s.base frame.context frame.lists
    frame.referenceFrame).1
  funext i
  refine if_neg ?_
  rintro ⟨hpresent, habsent⟩
  rw [h] at habsent
  split at habsent
  · by_cases hi : i = s.base.currentDecodeBufferIndex
    · subst hi
      rw [Function.update_self] at habsent
      exact habsent hpresent
    · rw [Function.update_of_ne hi] at habsent
      exact habsent hpresent
  · exact habsent hpresent

theorem translated_slot (limits : BufferLimits) (s : SlotState) (frame : Frame) (i : Word) :
    (s.translated limits frame).slot i = s.slot i := by
  unfold slot
  rw [translated_bufferState]

theorem Kept.translated (h : Kept limits s ∅) (hcurrent : s.base.currentDecodeBufferIndex ≠ invalidIndex)
    (frame : Frame) : Kept limits (s.translated limits frame) {s.base.currentDecodeBufferIndex} := by
  refine ⟨h.slots.mono ?_ fun _ _ _ huse => huse, ?_, ?_⟩
  · intro i hi hslot
    have hne : i ≠ s.base.currentDecodeBufferIndex := fun heq => hi (Set.mem_singleton_iff.mpr heq)
    have hcount := hslot.1
    rw [translated_count_of_ne limits s frame hne] at hcount
    have heq := translated_slot limits s frame i
    exact ⟨Set.notMem_empty i, ⟨hcount, heq ▸ hslot.2⟩, heq⟩
  · intro i hcount
    by_cases hi : i = s.base.currentDecodeBufferIndex
    · exact hi ▸ h.current hcurrent
    · exact h.pooled i (by rwa [translated_count_of_ne limits s frame hi] at hcount)
  · intro _
    rw [translated_current]
    exact h.current hcurrent

theorem Kept.translated_of_held (h : Kept limits s ∅)
    (hcurrent : s.base.currentDecodeBufferIndex ≠ invalidIndex)
    (hheld : frame.referenceFrame = true → s.referenceFrameCount s.base.currentDecodeBufferIndex ≠ 0) :
    Kept limits (s.translated limits frame) ∅ := by
  have hkept := h.translated hcurrent frame
  refine ⟨h.slots.mono ?_ fun _ _ _ huse => huse, hkept.pooled, hkept.current⟩
  intro i _ hslot
  have heq := translated_slot limits s frame i
  exact ⟨Set.notMem_empty i, ⟨translated_count_of_held hheld hslot.1, heq ▸ hslot.2⟩, heq⟩

theorem Kept.readdress (h : Kept limits s exempt) (b : Word) (address : BufferAddress) :
    Kept limits { s with bufferState := Function.update s.bufferState b ⟨s.slot b, address⟩ } exempt := by
  refine ⟨h.slots.mono ?_ fun _ _ _ huse => huse, h.pooled, h.current⟩
  intro i hi hslot
  have heq : (Function.update s.bufferState b ⟨s.slot b, address⟩ i).referenceFrameSlot = s.slot i := by
    by_cases hib : i = b
    · subst hib
      exact slot_update_self s i _
    · exact slot_update_of_ne s _ hib
  exact ⟨hi, ⟨hslot.1, heq ▸ hslot.2⟩, heq⟩

theorem Kept.obtainSlot {referenceFrame : Bool} {structure? : Option ℕ}
    (h : Kept limits s {s.base.currentDecodeBufferIndex})
    (hcurrent : s.base.currentDecodeBufferIndex ≠ invalidIndex)
    (hheld : ¬ (referenceFrame ∧ (s.bufferState s.base.currentDecodeBufferIndex).address.mbStruct = 0) →
      Kept limits s ∅) : Kept limits (s.obtainSlot limits referenceFrame structure?).1 ∅ := by
  unfold SlotState.obtainSlot
  by_cases hneeds : referenceFrame ∧ (s.bufferState s.base.currentDecodeBufferIndex).address.mbStruct = 0
  · rw [if_pos hneeds]
    have hkept := h.allocate s.base.currentDecodeBufferIndex
    have hslots := (h.slots.allocate s.base.currentDecodeBufferIndex).2 hcurrent
    split
    next t heq =>
      rw [heq] at hkept
      exact hkept.releaseAll
    next t heq =>
      rw [heq] at hkept hslots
      have hdone : Kept limits t ∅ := by
        refine ⟨?_, hkept.pooled, hkept.current⟩
        have hslots' := hslots rfl
        rwa [Set.sdiff_self] at hslots'
      split
      · exact hdone
      · exact hdone.readdress _ _
  · rw [if_neg hneeds]
    exact hheld hneeds

/-- A reference field that is decoded into a buffer with a macroblock structure finds the frame still
referenced. -/
def StillHeld (s : SlotState) : Label → Prop
  | .decode frame => frame.referenceFrame = true →
      (s.bufferState s.base.currentDecodeBufferIndex).address.mbStruct ≠ 0 →
      s.referenceFrameCount s.base.currentDecodeBufferIndex ≠ 0
  | _ => True

theorem Kept.prepare (h : Kept limits s ∅) (hcurrent : s.base.currentDecodeBufferIndex ≠ invalidIndex)
    (hheld : s.StillHeld (.decode frame)) : Kept limits (s.prepare limits frame).1 ∅ := by
  have hsame := translated_current limits s frame
  have hobtained : Kept limits
      ((s.translated limits frame).obtainSlot limits frame.referenceFrame frame.mbStruct).1 ∅ := by
    refine Kept.obtainSlot (hsame.symm ▸ h.translated hcurrent frame) (hsame.symm ▸ hcurrent) ?_
    intro hneeds
    refine h.translated_of_held hcurrent fun hframe => hheld hframe fun hzero => hneeds ⟨hframe, ?_⟩
    rw [hsame, translated_bufferState]
    exact hzero
  unfold SlotState.prepare
  dsimp only
  split
  next t heq =>
    have hkept : Kept limits (t, false).1 ∅ := heq ▸ hobtained
    exact hkept
  next t heq =>
    have hkept : Kept limits (t, true).1 ∅ := heq ▸ hobtained
    split
    · exact ⟨⟨hkept.slots.used, hkept.slots.distinct⟩, hkept.pooled, hkept.current⟩
    · exact hkept

theorem Kept.reset (h : Kept limits s exempt) (hzero : s.referenceFrameCount b = 0) (state : SlotBuffer) :
    Kept limits { s with bufferState := Function.update s.bufferState b state } exempt := by
  refine ⟨h.slots.mono ?_ fun _ _ _ huse => huse, h.pooled, h.current⟩
  intro i hi hslot
  have hne : i ≠ b := by
    rintro rfl
    exact hslot.1 hzero
  have heq := slot_update_of_ne s state hne
  exact ⟨hi, ⟨hslot.1, heq ▸ hslot.2⟩, heq⟩

theorem getDecodeBuffer_count {base base' : ReferenceState} (hfree : base.HasFree)
    (h : Codec.ReferenceState.step limits base (.getDecodeBuffer d i) = some base') :
    (base'.bufferState i).referenceFrameCount = 0 := by
  obtain ⟨-, rfl⟩ := Option.ite_some_none_eq_some.mp h
  obtain ⟨entries, hentries⟩ := mapEntry_isSome (d := d) (i := i) hfree
  have hmap : mapBufferToDecodeIndex { base with
      owners := Function.update base.owners i 1
      others := Function.update base.others i 1
      currentDecodeBufferIndex := i } d i = some _ := Option.map_eq_some_iff.mpr ⟨entries, hentries, rfl⟩
  unfold ReferenceState.getDecodeBuffer
  dsimp only
  rw [hmap]
  dsimp only
  rw [Function.update_self]

/-- **Slots**: the reference frames keep slots of their own. -/
theorem step_kept {label : Label} (h : Kept limits s ∅) (hheld : s.StillHeld label)
    (hstep : step limits s label = some t) : Kept limits t ∅ := by
  cases label with
  | base l =>
    simp only [step] at hstep
    split at hstep
    · cases hstep
    next hl =>
      obtain ⟨base, hbase, rfl⟩ := Option.map_eq_some_iff.mp hstep
      refine h.withBase (turns_step ?_ hbase) nofun
      rintro k lists firstSlice referenceFrame rfl
      exact hl rfl
  | getDecodeBuffer d i luma chroma =>
    obtain ⟨base, hbase, rfl⟩ := Option.map_eq_some_iff.mp hstep
    have hkept : Kept limits (s.withBase base) ∅ :=
      h.withBase (turns_step (l := .getDecodeBuffer d i) nofun hbase) nofun
    split
    next hfree =>
      exact hkept.reset (getDecodeBuffer_count hfree hbase) _
    next => exact hkept
  | releaseReferenceFrame d =>
    obtain rfl := Option.some.inj hstep
    exact h.releaseReferenceFrame d
  | decode frame =>
    obtain ⟨hguard, rfl⟩ := Option.ite_some_none_eq_some.mp hstep
    exact h.prepare hguard.2 hheld

theorem start_kept (limits : BufferLimits) : Kept limits (start limits) ∅ where
  slots := ⟨fun _ _ hslot => absurd rfl hslot.1, fun _ _ _ _ hslot => absurd rfl hslot.1⟩
  pooled _ hcount := absurd rfl hcount
  current hne := absurd rfl hne

end SlotState

end Player2.H264Codec
