import Mathlib.Data.Finset.Card
import Player2.H264ReferenceSlots
import Player2.Interning

/-! # The reference picture lists of an H.264 decode command

`FillOutDecodeCommandRefPicList` writes the addresses of the reference frames at their slots, and for each
entry of the three reference lists looks up a picture descriptor under a key made of the slot of the buffer
and the way it is used; where there is none `FillOutNewDescriptor` makes one.  The keys are interned
(`Interning`): the table `DescriptorIndices` says where they are (`Represents`).

An entry is named right if its buffer is a reference frame that has a slot when the lists are filled out
(`names_of_slots`).  A missing reference is replaced by the frame being decoded, which has none if it is no
reference frame, or if its request for one is put off. -/

namespace Player2.H264Codec

open Codec Interning
open Codec.ReferenceState hiding Label step start
open SlotState

/-! ### The source -/

/-- `REF_PIC_USE_FRAME`, `REF_PIC_USE_FIELD_TOP` and `REF_PIC_USE_FIELD_BOT`. -/
inductive UsageCode
  | frame
  | fieldTop
  | fieldBot
deriving DecidableEq, Repr

def UsageCode.code : UsageCode → ℕ
  | .frame => 0
  | .fieldTop => 1
  | .fieldBot => 2

/-- `H264ReferenceDetails_t`. -/
structure ReferenceDetails where
  pictureNumber : ℤ
  picOrderCnt : ℤ
  picOrderCntTop : ℤ
  picOrderCntBot : ℤ
  usageCode : UsageCode
  longTermReference : Bool
deriving DecidableEq, Repr

/-- An entry of a translated reference frame list. -/
abbrev ListEntry := Word × ReferenceDetails

/-- `H264_PictureDescriptor_t`. -/
structure PictureDescriptor where
  hostData : HostData
  frameIndex : Word
deriving DecidableEq, Repr

/-- `H264_MAX_NUMBER_OF_REFERENCES_FIELD`. -/
def maxNumberOfReferencesField : ℕ := 32

/-- `H264_RefPictListAddress_t`. -/
structure RefPicLists where
  pictureDescriptor : List PictureDescriptor
  referenceDescriptorsBitsField : Word
  referenceFrameAddress : ℕ → BufferAddress
  initialPList0 : List ℕ
  initialBList0 : List ℕ
  initialBList1 : List ℕ

/-- What the loops work on; `NumberOfUsedDescriptors` is the number of descriptors. -/
structure Filling where
  descriptorIndices : ℕ → ℕ
  pictureDescriptor : List PictureDescriptor
  referenceDescriptorsBitsField : Word

/-- What the loops start with. -/
def Filling.empty : Filling := ⟨fun _ => 0xff, [], 0⟩

/-- The picture was coded as a frame. -/
def DescriptorType.isFrame : DescriptorType → Bool
  | .frame => true
  | .aframe => true
  | _ => false

namespace SlotState

/-- The key of an entry in `DescriptorIndices`. -/
def referenceId (s : SlotState) (entry : ListEntry) : ℕ :=
  (3 * s.slot entry.1 + BitVec.ofNat 32 entry.2.usageCode.code).toNat

/-- The host data of a descriptor: what was recorded of the frame, with the details of the reference. -/
def descriptorHostData (recorded : HostData) (details : ReferenceDetails) : HostData :=
  { recorded with
    pictureNumber := details.pictureNumber
    picOrderCnt := details.picOrderCnt
    picOrderCntTop := details.picOrderCntTop
    picOrderCntBot := details.picOrderCntBot
    referenceType := if details.longTermReference then .longTerm else .shortTerm
    descriptorType :=
      match details.usageCode with
      | .frame => if recorded.descriptorType.isFrame then recorded.descriptorType else .frame
      | .fieldTop => .fieldTop
      | .fieldBot => .fieldBottom }

def fillOutNewDescriptor (s : SlotState) (f : Filling) (entry : ListEntry) : Filling × ℕ :=
  let descriptorIndex := f.pictureDescriptor.length
  let slotIndex := s.slot entry.1
  let recorded := s.recordedHostData entry.1
  ({ descriptorIndices := Function.update f.descriptorIndices (s.referenceId entry) (descriptorIndex % 256)
     pictureDescriptor := f.pictureDescriptor ++ [⟨descriptorHostData recorded entry.2, slotIndex⟩]
     referenceDescriptorsBitsField :=
      if recorded.descriptorType.isFrame then f.referenceDescriptorsBitsField
      else f.referenceDescriptorsBitsField ||| (1 <<< slotIndex.toNat) }, descriptorIndex)

/-- One entry of a list. -/
def fillOutEntry (s : SlotState) (f : Filling) (entry : ListEntry) : Filling × ℕ :=
  let descriptorIndex := f.descriptorIndices (s.referenceId entry)
  if descriptorIndex = 0xff then s.fillOutNewDescriptor f entry else (f, descriptorIndex)

/-- One of the three loops. -/
def fillOutList (s : SlotState) (f : Filling) : List ListEntry → Filling × List ℕ
  | [] => (f, [])
  | entry :: rest =>
    let first := s.fillOutEntry f entry
    let others := s.fillOutList first.1 rest
    (others.1, first.2 :: others.2)

section
variable (limits : BufferLimits)

/-- The loop over the buffers. -/
def referenceFrameAddresses (s : SlotState) : ℕ → BufferAddress :=
  (List.range limits.decodeBufferCount).foldl (fun addresses i =>
    let b := BitVec.ofNat 32 i
    if s.HasSlot b then Function.update addresses (s.slot b).toNat (s.bufferState b).address
    else addresses) fun _ => ⟨0, 0, 0⟩

/-- `FillOutDecodeCommandRefPicList`, of the lists P, B0 and B1. -/
def fillOutDecodeCommandRefPicList (s : SlotState) (lists : List (List ListEntry)) : RefPicLists :=
  let p := s.fillOutList .empty (lists.getD 0 [])
  let b0 := s.fillOutList p.1 (lists.getD 1 [])
  let b1 := s.fillOutList b0.1 (lists.getD 2 [])
  { pictureDescriptor := b1.1.pictureDescriptor
    referenceDescriptorsBitsField := b1.1.referenceDescriptorsBitsField
    referenceFrameAddress := s.referenceFrameAddresses limits
    initialPList0 := p.2
    initialBList0 := b0.2
    initialBList1 := b1.2 }

/-- The entries of the lists of a decode context. -/
def listEntries (s : SlotState) (context : ℕ) (details : List (List ReferenceDetails)) :
    List (List ListEntry) :=
  let lists := ((s.base.contexts[context]?).map (·.referenceFrameLists)).getD []
  List.zipWith List.zip lists details

/-- The reference lists of the command for a frame, whose entries have the given details. -/
def command (s : SlotState) (frame : Frame) (details : List (List ReferenceDetails)) : Option RefPicLists :=
  match s.prepare limits frame with
  | (t, true) => some (t.fillOutDecodeCommandRefPicList limits (t.listEntries frame.context details))
  | (_, false) => none

end

/-! ### What is meant -/

/-- A picture refers to frames, if it is one, and to fields otherwise. -/
def Uniform (details : List (List ReferenceDetails)) : Prop :=
  (∀ list ∈ details, ∀ d ∈ list, d.usageCode = .frame) ∨
    ∀ list ∈ details, ∀ d ∈ list, d.usageCode ≠ .frame

instance (details : List (List ReferenceDetails)) : Decidable (Uniform details) :=
  inferInstanceAs (Decidable (_ ∨ _))

/-- The entries of the three lists, with what stands for them in the command. -/
def namedEntries (entries : List (List ListEntry)) (r : RefPicLists) : List (ListEntry × ℕ) :=
  (entries.getD 0 []).zip r.initialPList0 ++ (entries.getD 1 []).zip r.initialBList0 ++
    (entries.getD 2 []).zip r.initialBList1

/-- The command names the reference pictures of the entries. -/
structure Names (s : SlotState) (entries : List (List ListEntry)) (r : RefPicLists) : Prop where
  lengths : r.initialPList0.length = (entries.getD 0 []).length ∧
    r.initialBList0.length = (entries.getD 1 []).length ∧
    r.initialBList1.length = (entries.getD 2 []).length
  inside : ∀ named ∈ namedEntries entries r, s.referenceId named.1 < 3 * maxReferenceFrames
  points : ∀ named ∈ namedEntries entries r, named.2 < maxNumberOfReferencesField ∧
    ∃ descriptor, r.pictureDescriptor[named.2]? = some descriptor ∧
      descriptor.frameIndex.toNat < maxReferenceFrames ∧
      r.referenceFrameAddress descriptor.frameIndex.toNat = (s.bufferState named.1.1).address
  shared : ∀ named ∈ namedEntries entries r, ∀ named' ∈ namedEntries entries r,
    named.2 = named'.2 ↔ named.1.1 = named'.1.1 ∧ named.1.2.usageCode = named'.1.2.usageCode

/-- The command for a frame whose lists are all translated names the buffers that they are translated to. -/
def Named (limits : BufferLimits) (s : SlotState) : Label → Prop
  | .decode frame => ∀ details lists r, Uniform details →
      details.map List.length = frame.lists.map List.length →
      frame.lists.mapM (List.mapM (s.base.translateEntry limits)) = some lists →
      s.base.contexts[frame.context]? = some .fresh → s.base.currentDecodeBufferIndex ≠ invalidIndex →
      s.command limits frame details = some r →
      (s.prepare limits frame).1.Names (List.zipWith List.zip lists details) r
  | _ => True

/-- Each entry is translated to a reference frame that has a slot when the lists are filled out, and a
reference field that is decoded into a buffer with a macroblock structure finds the frame still
referenced. -/
def SlotsThere (limits : BufferLimits) (s : SlotState) (label : Label) : Prop :=
  s.StillHeld label ∧
    match label with
    | .decode frame => ∀ list ∈ frame.lists, ∀ d ∈ list, ∀ b ∈ s.base.translateEntry limits d,
        (s.prepare limits frame).1.HasSlot b
    | _ => True

/-- One looks at the entries that there are, not at all words. -/
instance (limits : BufferLimits) (s : SlotState) (frame : Frame) :
    Decidable (∀ list ∈ frame.lists, ∀ d ∈ list, ∀ b ∈ s.base.translateEntry limits d,
      (s.prepare limits frame).1.HasSlot b) :=
  decidable_of_iff ((frame.lists.all fun list => list.all fun d =>
    (s.base.translateEntry limits d).all ((s.prepare limits frame).1.HasSlot ·)) = true)
    (by simp only [List.all_eq_true, Option.all_eq_true, decide_eq_true_eq, Option.mem_def])

instance (limits : BufferLimits) (s : SlotState) (label : Label) : Decidable (SlotsThere limits s label) :=
  match label with
  | .decode frame => inferInstanceAs (Decidable ((_ → _ → _) ∧ ∀ list ∈ frame.lists, ∀ d ∈ list,
      ∀ b ∈ s.base.translateEntry limits d, (s.prepare limits frame).1.HasSlot b))
  | .base _ => inferInstanceAs (Decidable (True ∧ True))
  | .getDecodeBuffer _ _ _ _ => inferInstanceAs (Decidable (True ∧ True))
  | .releaseReferenceFrame _ => inferInstanceAs (Decidable (True ∧ True))

/-! ### The addresses -/

variable {limits : BufferLimits} {s : SlotState} {exempt : Set Word}

/-- A table that is written at the keys of some elements has, at a key, the value of the last element with
it. -/
theorem foldl_update_eq {ι α : Type*} (p : ι → Prop) [DecidablePred p] (key : ι → ℕ) (value : ι → α)
    (table : ℕ → α) {i : ι} {l : List ι} (hi : i ∈ l) (hp : p i)
    (h : ∀ j ∈ l, p j → key j = key i → value j = value i) :
    l.foldl (fun t j => if p j then Function.update t (key j) (value j) else t) table (key i) =
      value i := by
  induction l using List.reverseRecOn with
  | nil => cases hi
  | append_singleton l last ih =>
    rw [List.foldl_append, List.foldl_cons, List.foldl_nil]
    have hlast := h last (List.mem_append_right l (List.mem_singleton_self last))
    split
    next hplast =>
      by_cases hkey : key last = key i
      · rw [hkey, Function.update_self]
        exact hlast hplast hkey
      · rw [Function.update_of_ne fun heq => hkey heq.symm]
        refine ih ?_ fun j hj => h j (List.mem_append_left _ hj)
        rcases List.mem_append.mp hi with hmem | hmem
        · exact hmem
        · exact absurd (congrArg key (List.mem_singleton.mp hmem).symm) hkey
    next hplast =>
      refine ih ?_ fun j hj => h j (List.mem_append_left _ hj)
      rcases List.mem_append.mp hi with hmem | hmem
      · exact hmem
      · exact absurd (List.mem_singleton.mp hmem ▸ hp) hplast

theorem Kept.referenceFrameAddresses (h : Kept limits s ∅) {b : Word} (hslot : s.HasSlot b) :
    s.referenceFrameAddresses limits (s.slot b).toNat = (s.bufferState b).address := by
  have hself : BitVec.ofNat 32 b.toNat = b := by rw [BitVec.ofNat_toNat, BitVec.setWidth_eq]
  have hfold := foldl_update_eq (fun i => s.HasSlot (BitVec.ofNat 32 i))
    (fun i => (s.slot (BitVec.ofNat 32 i)).toNat) (fun i => (s.bufferState (BitVec.ofNat 32 i)).address)
    (fun _ => ⟨0, 0, 0⟩) (i := b.toNat) (l := List.range limits.decodeBufferCount)
    (List.mem_range.mpr (h.pooled b hslot.1)) (by rwa [hself]) ?_
  · rw [hself] at hfold
    exact hfold
  · intro j _ hj hkey
    have hsame := h.slots.distinct _ (Set.notMem_empty _) _ (Set.notMem_empty _) hj (by rwa [hself])
      (BitVec.eq_of_toNat_eq hkey)
    rw [hsame]

/-! ### The descriptors -/

/-- The descriptors are those of the keys of a table, in their places. -/
structure Represents (f : Filling) (table : List ℕ) : Prop where
  nodup : table.Nodup
  inside : ∀ k ∈ table, k < 3 * maxReferenceFrames
  indices : ∀ k, f.descriptorIndices k = if k ∈ table then table.idxOf k else 0xff
  length : f.pictureDescriptor.length = table.length
  frameIndex : ∀ x k : ℕ, table[x]? = some k →
    ∃ d : PictureDescriptor, f.pictureDescriptor[x]? = some d ∧ d.frameIndex.toNat = k / 3

variable {f : Filling} {table : List ℕ} {entry : ListEntry} {list : List ListEntry}
  {entries : List (List ListEntry)}

theorem represents_empty : Represents .empty [] where
  nodup := List.nodup_nil
  inside _ h := nomatch h
  indices _ := rfl
  length := rfl
  frameIndex _ _ h := nomatch h

theorem length_le_card {keys : Finset ℕ} (hnodup : table.Nodup) (h : ∀ k ∈ table, k ∈ keys) :
    table.length ≤ keys.card := by
  rw [← List.toFinset_card_of_nodup hnodup]
  exact Finset.card_le_card fun k hk => h k (List.mem_toFinset.mp hk)

theorem Represents.length_le (h : Represents f table) : table.length ≤ 3 * maxReferenceFrames := by
  exact length_le_card h.nodup fun k hk => Finset.mem_range.mpr (h.inside k hk)

theorem code_lt (usage : UsageCode) : usage.code < 3 := by
  cases usage <;> decide

theorem referenceId_eq (hslot : (s.slot entry.1).toNat < maxReferenceFrames) :
    s.referenceId entry = 3 * (s.slot entry.1).toNat + entry.2.usageCode.code := by
  have hcode := code_lt entry.2.usageCode
  rw [maxReferenceFrames] at hslot
  unfold referenceId
  have hthree : (3 : Word).toNat = 3 := rfl
  rw [BitVec.toNat_add, BitVec.toNat_mul, BitVec.toNat_ofNat, hthree]
  omega

theorem Represents.fillOutNewDescriptor (h : Represents f table)
    (hslot : (s.slot entry.1).toNat < maxReferenceFrames) (hnew : s.referenceId entry ∉ table) :
    Represents (s.fillOutNewDescriptor f entry).1 (table ++ [s.referenceId entry]) := by
  have hkey := referenceId_eq hslot
  have hcode := code_lt entry.2.usageCode
  constructor
  case nodup =>
    have hnodup := nodup_intern h.nodup (s.referenceId entry)
    rwa [intern_of_notMem hnew] at hnodup
  case inside =>
    intro k hk
    rcases List.mem_append.mp hk with hold | hlast
    · exact h.inside k hold
    · rw [List.mem_singleton.mp hlast, hkey]
      omega
  case indices =>
    intro k
    have hlength := h.length_le
    show Function.update f.descriptorIndices (s.referenceId entry) (f.pictureDescriptor.length % 256) k = _
    by_cases hk : k = s.referenceId entry
    · subst hk
      rw [Function.update_self, if_pos (List.mem_append_right table (List.mem_singleton_self _)),
        List.idxOf_append_of_notMem hnew, List.idxOf_cons_self, h.length]
      rw [maxReferenceFrames] at hlength
      omega
    · have hsame : k ∈ table ++ [s.referenceId entry] ↔ k ∈ table := by
        rw [List.mem_append, List.mem_singleton, or_iff_left hk]
      rw [Function.update_of_ne hk, h.indices]
      by_cases hold : k ∈ table
      · rw [if_pos hold, if_pos (hsame.mpr hold), List.idxOf_append_of_mem hold]
      · rw [if_neg hold, if_neg fun hin => hold (hsame.mp hin)]
  case length =>
    show (f.pictureDescriptor ++ [_]).length = _
    rw [List.length_append, List.length_append, h.length]
    rfl
  case frameIndex =>
    intro x k hx
    have hdescriptors : (s.fillOutNewDescriptor f entry).1.pictureDescriptor = f.pictureDescriptor ++
      [⟨descriptorHostData (s.recordedHostData entry.1) entry.2, s.slot entry.1⟩] := rfl
    rw [hdescriptors]
    rcases Nat.lt_or_ge x table.length with hlt | hge
    · rw [List.getElem?_append_left hlt] at hx
      rw [List.getElem?_append_left (h.length ▸ hlt)]
      exact h.frameIndex x k hx
    · rw [List.getElem?_append_right hge] at hx
      rw [List.getElem?_append_right (h.length ▸ hge), h.length]
      obtain ⟨hlast, rfl⟩ := List.getElem?_eq_some_iff.mp hx
      have hzero : x - table.length = 0 := Nat.lt_one_iff.mp hlast
      simp only [hzero]
      refine ⟨_, rfl, ?_⟩
      show (s.slot entry.1).toNat = s.referenceId entry / 3
      omega

theorem Represents.fillOutEntry (h : Represents f table)
    (hslot : (s.slot entry.1).toNat < maxReferenceFrames) :
    Represents (s.fillOutEntry f entry).1 (intern table (s.referenceId entry)).1 ∧
      (s.fillOutEntry f entry).2 = (intern table (s.referenceId entry)).2 := by
  have hindex := h.indices (s.referenceId entry)
  unfold SlotState.fillOutEntry
  by_cases hmem : s.referenceId entry ∈ table
  · have hplace := List.idxOf_lt_length_of_mem hmem
    have hlength := h.length_le
    rw [maxReferenceFrames] at hlength
    rw [if_pos hmem] at hindex
    rw [intern_of_mem hmem, hindex, if_neg (by omega)]
    exact ⟨h, rfl⟩
  · rw [if_neg hmem] at hindex
    rw [intern_of_notMem hmem, if_pos hindex]
    exact ⟨h.fillOutNewDescriptor hslot hmem, h.length⟩

theorem Represents.fillOutList (h : Represents f table)
    (hslots : ∀ e ∈ list, (s.slot e.1).toNat < maxReferenceFrames) :
    Represents (s.fillOutList f list).1 (internAll table (list.map s.referenceId)).1 ∧
      (s.fillOutList f list).2 = (internAll table (list.map s.referenceId)).2 := by
  induction list generalizing f table with
  | nil => exact ⟨h, rfl⟩
  | cons entry rest ih =>
    obtain ⟨hentry, hindex⟩ := h.fillOutEntry (hslots entry List.mem_cons_self)
    obtain ⟨hrest, hindices⟩ := ih hentry fun e he => hslots e (List.mem_cons_of_mem entry he)
    exact ⟨hrest, congrArg₂ List.cons hindex hindices⟩

/-! ### What the lists name -/

theorem code_injective : Function.Injective UsageCode.code := by
  intro usage usage' h
  cases usage <;> cases usage' <;> first | rfl | exact absurd h (by decide)

theorem Kept.referenceId_eq_iff (h : Kept limits s ∅) {entry entry' : ListEntry} (hslot : s.HasSlot entry.1)
    (hslot' : s.HasSlot entry'.1) :
    s.referenceId entry = s.referenceId entry' ↔
      entry.1 = entry'.1 ∧ entry.2.usageCode = entry'.2.usageCode := by
  have hlt := (h.slots.used _ (Set.notMem_empty _) hslot).1
  have hlt' := (h.slots.used _ (Set.notMem_empty _) hslot').1
  have hcode := code_lt entry.2.usageCode
  have hcode' := code_lt entry'.2.usageCode
  rw [referenceId_eq hlt, referenceId_eq hlt']
  constructor
  · intro hkey
    have hsame : (s.slot entry.1).toNat = (s.slot entry'.1).toNat := by omega
    refine ⟨?_, code_injective (by omega)⟩
    exact h.slots.distinct _ (Set.notMem_empty _) _ (Set.notMem_empty _) hslot hslot'
      (BitVec.eq_of_toNat_eq hsame)
  · rintro ⟨hbuffer, husage⟩
    rw [hbuffer, husage]

theorem exists_mem_of_mem_getD {α : Type*} {lists : List (List α)} {n : ℕ} {a : α}
    (h : a ∈ lists.getD n []) : ∃ l ∈ lists, a ∈ l := by
  rw [List.getD_eq_getElem?_getD] at h
  cases hget : lists[n]? with
  | none =>
    rw [hget] at h
    cases h
  | some l =>
    rw [hget] at h
    exact ⟨l, List.mem_of_getElem? hget, h⟩

theorem getElem?_of_fillOutList {named : ListEntry × ℕ} {places : List ℕ}
    (hplaces : places = (internAll table (list.map s.referenceId)).2) (h : named ∈ list.zip places) :
    (internAll table (list.map s.referenceId)).1[named.2]? = some (s.referenceId named.1) := by
  refine getElem?_internAll ?_
  rw [← hplaces, List.zip_map_left]
  exact List.mem_map.mpr ⟨named, h, rfl⟩

theorem exists_represents (limits : BufferLimits)
    (hslots : ∀ l ∈ entries, ∀ e ∈ l, (s.slot e.1).toNat < maxReferenceFrames) :
    ∃ f table, Represents f table ∧
      f.pictureDescriptor = (s.fillOutDecodeCommandRefPicList limits entries).pictureDescriptor ∧
      (∀ k ∈ table, ∃ l ∈ entries, ∃ e ∈ l, s.referenceId e = k) ∧
      ∀ named ∈ namedEntries entries (s.fillOutDecodeCommandRefPicList limits entries),
        table[named.2]? = some (s.referenceId named.1) := by
  have hlists : ∀ n, ∀ e ∈ entries.getD n [], (s.slot e.1).toNat < maxReferenceFrames := by
    intro n e he
    obtain ⟨l, hl, hel⟩ := exists_mem_of_mem_getD he
    exact hslots l hl e hel
  have hkeys : ∀ n, ∀ k ∈ (entries.getD n []).map s.referenceId,
      ∃ l ∈ entries, ∃ e ∈ l, s.referenceId e = k := by
    intro n k hk
    obtain ⟨e, he, rfl⟩ := List.mem_map.mp hk
    obtain ⟨l, hl, hel⟩ := exists_mem_of_mem_getD he
    exact ⟨l, hl, e, hel, rfl⟩
  obtain ⟨hp, hpIndices⟩ := represents_empty.fillOutList (hlists 0)
  obtain ⟨hb0, hb0Indices⟩ := hp.fillOutList (hlists 1)
  obtain ⟨hb1, hb1Indices⟩ := hb0.fillOutList (hlists 2)
  refine ⟨_, _, hb1, rfl, ?_, ?_⟩
  · intro k hk
    rcases mem_internAll.mp hk with hk | hk
    · rcases mem_internAll.mp hk with hk | hk
      · rcases mem_internAll.mp hk with hk | hk
        · cases hk
        · exact hkeys 0 k hk
      · exact hkeys 1 k hk
    · exact hkeys 2 k hk
  · intro named hnamed
    rcases List.mem_append.mp hnamed with hnamed | hnamed
    · rcases List.mem_append.mp hnamed with hnamed | hnamed
      · exact getElem?_internAll_of_some (getElem?_internAll_of_some
          (getElem?_of_fillOutList hpIndices hnamed) _) _
      · exact getElem?_internAll_of_some (getElem?_of_fillOutList hb0Indices hnamed) _
    · exact getElem?_of_fillOutList hb1Indices hnamed

theorem Represents.length_le_of_uniform (h : Represents f table) {details : List (List ReferenceDetails)}
    (huniform : Uniform details)
    (hkeys : ∀ k ∈ table, ∃ e : ListEntry, (s.slot e.1).toNat < maxReferenceFrames ∧ s.referenceId e = k ∧
      ∃ l ∈ details, e.2 ∈ l) : table.length ≤ maxNumberOfReferencesField := by
  rcases huniform with hframe | hfield
  · have hcard : ((Finset.range 48).filter (· % 3 = 0)).card ≤ maxNumberOfReferencesField := by decide
    refine (length_le_card h.nodup fun k hk => ?_).trans hcard
    obtain ⟨e, hslot, rfl, l, hl, hel⟩ := hkeys k hk
    have hcode : e.2.usageCode.code = 0 := by
      rw [hframe l hl e.2 hel]
      rfl
    rw [maxReferenceFrames] at hslot
    rw [referenceId_eq hslot, Finset.mem_filter, Finset.mem_range]
    omega
  · have hcard : ((Finset.range 48).filter (· % 3 ≠ 0)).card ≤ maxNumberOfReferencesField := by decide
    refine (length_le_card h.nodup fun k hk => ?_).trans hcard
    obtain ⟨e, hslot, rfl, l, hl, hel⟩ := hkeys k hk
    have hcode := code_lt e.2.usageCode
    have hne : e.2.usageCode.code ≠ UsageCode.frame.code := fun heq =>
      hfield l hl e.2 hel (code_injective heq)
    rw [UsageCode.code] at hne
    rw [maxReferenceFrames] at hslot
    rw [referenceId_eq hslot, Finset.mem_filter, Finset.mem_range]
    omega

theorem mem_of_mem_namedEntries {r : RefPicLists} {named : ListEntry × ℕ}
    (h : named ∈ namedEntries entries r) : ∃ l ∈ entries, named.1 ∈ l := by
  rcases List.mem_append.mp h with h | h
  · rcases List.mem_append.mp h with h | h
    · exact exists_mem_of_mem_getD (List.of_mem_zip h).1
    · exact exists_mem_of_mem_getD (List.of_mem_zip h).1
  · exact exists_mem_of_mem_getD (List.of_mem_zip h).1

theorem length_fillOutList (s : SlotState) (f : Filling) (list : List ListEntry) :
    (s.fillOutList f list).2.length = list.length := by
  induction list generalizing f with
  | nil => rfl
  | cons entry rest ih => exact congrArg (· + 1) (ih _)

/-- **Names**: entries whose buffers have slots are named right. -/
theorem Kept.names_of_slots (h : Kept limits s ∅) {details : List (List ReferenceDetails)}
    (huniform : Uniform details) (hslots : ∀ l ∈ entries, ∀ e ∈ l, s.HasSlot e.1)
    (hdetails : ∀ l ∈ entries, ∀ e ∈ l, ∃ l ∈ details, e.2 ∈ l) :
    s.Names entries (s.fillOutDecodeCommandRefPicList limits entries) := by
  have hlt : ∀ l ∈ entries, ∀ e ∈ l, (s.slot e.1).toNat < maxReferenceFrames := fun l hl e he =>
    (h.slots.used _ (Set.notMem_empty _) (hslots l hl e he)).1
  obtain ⟨f, table, hf, hdescriptors, hkeys, hplaces⟩ := exists_represents limits hlt
  have hlength : table.length ≤ maxNumberOfReferencesField := by
    refine hf.length_le_of_uniform (s := s) huniform fun k hk => ?_
    obtain ⟨l, hl, e, he, rfl⟩ := hkeys k hk
    exact ⟨e, hlt l hl e he, rfl, hdetails l hl e he⟩
  constructor
  case lengths => exact ⟨length_fillOutList .., length_fillOutList .., length_fillOutList ..⟩
  case inside =>
    intro named hnamed
    exact hf.inside _ (List.mem_of_getElem? (hplaces named hnamed))
  case points =>
    intro named hnamed
    obtain ⟨l, hl, he⟩ := mem_of_mem_namedEntries hnamed
    have hplace := hplaces named hnamed
    obtain ⟨hinside, -⟩ := List.getElem?_eq_some_iff.mp hplace
    obtain ⟨d, hd, hindex⟩ := hf.frameIndex _ _ hplace
    have hcode := code_lt named.1.2.usageCode
    have hslot : d.frameIndex.toNat = (s.slot named.1.1).toNat := by
      rw [hindex, referenceId_eq (hlt l hl _ he)]
      omega
    refine ⟨hinside.trans_le hlength, d, hdescriptors ▸ hd, hslot ▸ hlt l hl _ he, ?_⟩
    rw [hslot]
    exact h.referenceFrameAddresses (hslots l hl _ he)
  case shared =>
    intro named hnamed named' hnamed'
    obtain ⟨l, hl, he⟩ := mem_of_mem_namedEntries hnamed
    obtain ⟨l', hl', he'⟩ := mem_of_mem_namedEntries hnamed'
    rw [← h.referenceId_eq_iff (hslots l hl _ he) (hslots l' hl' _ he')]
    exact place_eq_iff hf.nodup (hplaces named hnamed) (hplaces named' hnamed')

/-! ### The translated lists -/

theorem translateList_translateEntry (limits : BufferLimits) (s : ReferenceState) (list : List Word)
    (d : Word) :
    (s.translateList limits list).1.translateEntry limits d = s.translateEntry limits d := by
  induction list generalizing s with
  | nil => rfl
  | cons first rest ih =>
    unfold translateList
    split
    · rfl
    next i _ => exact ih (s.takeReference i)

theorem translateList_of_mapM {s : ReferenceState} {list taken : List Word}
    (h : list.mapM (s.translateEntry limits) = some taken) :
    (s.translateList limits list).2 = (taken, []) := by
  induction list generalizing s taken with
  | nil =>
    obtain rfl := Option.some.inj h
    rfl
  | cons d rest ih =>
    rw [List.mapM_cons] at h
    obtain ⟨i, hi, h⟩ := Option.bind_eq_some_iff.mp h
    obtain ⟨others, hothers, h⟩ := Option.bind_eq_some_iff.mp h
    obtain rfl := Option.some.inj h
    have hrest := ih (s := s.takeReference i) hothers
    unfold translateList
    rw [hi]
    show (i :: ((s.takeReference i).translateList limits rest).2.1,
      ((s.takeReference i).translateList limits rest).2.2) = _
    rw [hrest]

theorem translateLists_of_mapM {s : ReferenceState} {lists translated : List (List Word)}
    (h : lists.mapM (List.mapM (s.translateEntry limits)) = some translated) :
    (s.translateLists limits lists).2.1 = translated := by
  induction lists generalizing s translated with
  | nil => exact Option.some.inj h
  | cons list rest ih =>
    rw [List.mapM_cons] at h
    obtain ⟨taken, htaken, h⟩ := Option.bind_eq_some_iff.mp h
    obtain ⟨others, hothers, h⟩ := Option.bind_eq_some_iff.mp h
    obtain rfl := Option.some.inj h
    have hfirst := translateList_of_mapM htaken
    have hsame : (s.translateList limits list).1.translateEntry limits = s.translateEntry limits :=
      funext (translateList_translateEntry limits s list)
    have hrest := ih (s := (s.translateList limits list).1) (hsame.symm ▸ hothers)
    unfold translateLists
    rw [← Prod.mk.eta (p := s.translateList limits list), hfirst]
    dsimp only
    rw [hrest]

theorem prepare_base {frame : Frame} (h : (s.prepare limits frame).2 = true) :
    (s.prepare limits frame).1.base = (s.translated limits frame).base := by
  have hobtained :
      ((s.translated limits frame).obtainSlot limits frame.referenceFrame frame.mbStruct).2 = true →
        ((s.translated limits frame).obtainSlot limits frame.referenceFrame frame.mbStruct).1.base =
          (s.translated limits frame).base := by
    unfold obtainSlot
    dsimp only
    split
    · have hbase := allocate_base (s.translated limits frame)
        (s.translated limits frame).base.currentDecodeBufferIndex
      split
      · exact nofun
      next t heq =>
        rw [heq] at hbase
        split
        · exact nofun
        · exact fun _ => hbase
    · exact fun _ => rfl
  unfold prepare at h ⊢
  dsimp only at h ⊢
  split
  next t heq =>
    rw [heq] at h
    exact absurd h Bool.false_ne_true
  next t heq =>
    have hbase : (t, true).1.base = (s.translated limits frame).base :=
      heq ▸ hobtained (congrArg Prod.snd heq)
    split
    · exact hbase
    · exact hbase

theorem listEntries_prepare {frame : Frame} {lists : List (List Word)}
    (h : frame.lists.mapM (List.mapM (s.base.translateEntry limits)) = some lists)
    (hfresh : s.base.contexts[frame.context]? = some .fresh) (hdone : (s.prepare limits frame).2 = true)
    (details : List (List ReferenceDetails)) :
    (s.prepare limits frame).1.listEntries frame.context details = List.zipWith List.zip lists details := by
  obtain ⟨hlt, -⟩ := List.getElem?_eq_some_iff.mp hfresh
  have hcontext : (s.translated limits frame).base.contexts[frame.context]?.map (·.referenceFrameLists) =
      some lists := by
    show ((s.base.translateReferenceFrameLists limits frame.context frame.lists true
      frame.referenceFrame).contexts[frame.context]?).map _ = _
    unfold ReferenceState.translateReferenceFrameLists
    rw [List.getElem?_set_self (by rw [(translateLists_frame ..).2.2]; split <;> exact hlt)]
    refine congrArg some (translateLists_of_mapM ?_)
    split
    · exact h
    · exact h
  unfold listEntries
  rw [prepare_base hdone, hcontext]
  rfl

theorem exists_of_mem_mapM {α β : Type*} {g : α → Option β} {l : List α} {l' : List β} {b : β}
    (h : l.mapM g = some l') (hb : b ∈ l') : ∃ a ∈ l, g a = some b := by
  induction l generalizing l' with
  | nil =>
    obtain rfl := Option.some.inj h
    cases hb
  | cons a rest ih =>
    rw [List.mapM_cons] at h
    obtain ⟨first, hfirst, h⟩ := Option.bind_eq_some_iff.mp h
    obtain ⟨others, hothers, h⟩ := Option.bind_eq_some_iff.mp h
    obtain rfl := Option.some.inj h
    rcases List.mem_cons.mp hb with rfl | hrest
    · exact ⟨a, List.mem_cons_self, hfirst⟩
    · obtain ⟨a', ha', heq⟩ := ih hothers hrest
      exact ⟨a', List.mem_cons_of_mem a ha', heq⟩

theorem mem_of_mem_zipWith_zip {lists : List (List Word)} {details : List (List ReferenceDetails)}
    (hlist : list ∈ List.zipWith List.zip lists details) (he : entry ∈ list) :
    (∃ l ∈ lists, entry.1 ∈ l) ∧ ∃ l ∈ details, entry.2 ∈ l := by
  rw [← List.map_uncurry_zip_eq_zipWith] at hlist
  obtain ⟨⟨l, l'⟩, hl, rfl⟩ := List.mem_map.mp hlist
  obtain ⟨hfirst, hsecond⟩ := List.of_mem_zip hl
  exact ⟨⟨l, hfirst, (List.of_mem_zip he).1⟩, l', hsecond, (List.of_mem_zip he).2⟩

/-! ### Every run -/

theorem Kept.named {label : Label} (h : Kept limits s ∅) (hlabel : SlotsThere limits s label) :
    Named limits s label := by
  cases label with
  | decode frame =>
    intro details lists r huniform _ hlists hfresh hcurrent hcommand
    have hkept := h.prepare hcurrent hlabel.1
    have hdone : (s.prepare limits frame).2 = true := by
      unfold command at hcommand
      split at hcommand
      next heq => exact congrArg Prod.snd heq
      next => cases hcommand
    have hr : r = (s.prepare limits frame).1.fillOutDecodeCommandRefPicList limits
        (List.zipWith List.zip lists details) := by
      rw [← listEntries_prepare hlists hfresh hdone details]
      unfold command at hcommand
      split at hcommand
      next heq =>
        rw [heq]
        exact (Option.some.inj hcommand).symm
      next => cases hcommand
    rw [hr]
    refine hkept.names_of_slots huniform ?_ fun l hl e he => (mem_of_mem_zipWith_zip hl he).2
    intro l hl e he
    obtain ⟨⟨buffers, hbuffers, hbuffer⟩, -⟩ := mem_of_mem_zipWith_zip hl he
    obtain ⟨indices, hindices, htranslated⟩ := exists_of_mem_mapM hlists hbuffers
    obtain ⟨d, hd, heq⟩ := exists_of_mem_mapM htranslated hbuffer
    exact hlabel.2 indices hindices d hd e.1 heq
  | base l => exact trivial
  | getDecodeBuffer d i luma chroma => exact trivial
  | releaseReferenceFrame d => exact trivial

/-- **References named**: in every run in which what is referred to has slots, each command for a frame
names the buffers of its reference frames. -/
theorem commands_named (limits : BufferLimits) {labels : List Label}
    (hslots : Lts.Along (step limits) (SlotsThere limits) (start limits) labels) :
    Lts.Along (step limits) (Named limits) (start limits) labels :=
  Lts.along_of_along (J := fun s => Kept limits s ∅)
    (fun _ _ _ h hlabel hstep => step_kept h hlabel.1 hstep)
    (fun _ _ h hlabel => h.named hlabel) (start_kept limits) hslots

/-- What is said of a picture whose counts are nought. -/
def firstPicture : HostData := ⟨0, 0, 0, 0, .frame, .shortTerm, true⟩

/-- A reference to it as a frame. -/
def toFirstPicture : ReferenceDetails := ⟨0, 0, 0, 0, .frame, false⟩

/-- A picture that refers to another twice. -/
def picture : Frame := ⟨1, [[0, 0], [], []], false, firstPicture, none, true⟩

/-- A reference frame, and a picture that refers to it. -/
def referenceAndPicture : List Label :=
  [.base .getDecodeContext, .getDecodeBuffer 0 0 0x100 0x200,
    .decode ⟨0, [[], [], []], true, firstPicture, some 0x300, true⟩, .base (.launch 0),
    .base .forgetDecodeBuffer, .base .getDecodeContext, .getDecodeBuffer 1 1 0x400 0x500, .decode picture]

/-- `commands_named` over a reference frame and a picture that refers to it. -/
theorem commands_named_referenceAndPicture :
    Lts.Along (step twoBuffers) (Named twoBuffers) (start twoBuffers) referenceAndPicture ∧
      ((Lts.run (step twoBuffers) (start twoBuffers) referenceAndPicture.dropLast).bind
        (·.command twoBuffers picture [[toFirstPicture, toFirstPicture], [], []])).map (·.initialPList0) =
          some [0, 0] :=
  ⟨commands_named twoBuffers (by decide +kernel), by decide +kernel⟩

/-- A picture that refers to one that is not known. -/
def unknownReference : List Label :=
  [.base .getDecodeContext, .getDecodeBuffer 5 0 0x100 0x200,
    .decode ⟨0, [[7], [], []], false, firstPicture, none, true⟩]

/-- The picture that takes the place of the missing one has no slot: the address is that of no buffer. -/
theorem not_commands_named : ¬ ∀ (limits : BufferLimits) (labels : List Label),
    Lts.Along (step limits) (Named limits) (start limits) labels := by
  intro hall
  obtain ⟨-, hafter⟩ := hall twoBuffers unknownReference
  obtain ⟨-, hafter⟩ := hafter _ rfl
  obtain ⟨hnamed, -⟩ := hafter _ rfl
  have hnames := hnamed [[toFirstPicture], [], []] [[0], [], []] _ (by decide) rfl rfl rfl (by decide) rfl
  obtain ⟨-, descriptor, hdescriptor, -, haddress⟩ :=
    hnames.points ((0, toFirstPicture), 0) List.mem_cons_self
  obtain rfl := Option.some.inj hdescriptor
  exact absurd haddress (by decide)

end SlotState

end Player2.H264Codec
