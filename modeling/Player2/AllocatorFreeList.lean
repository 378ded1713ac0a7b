import Player2.AllocatorSpec

/-! # The shape of the free list

`FreeList` is what `AllocatorSimple_c` keeps about its records: they lie below
`HighestUsedBlockIndex`, are non-empty whole segments, contain no 64 MB boundary of the
physical address space, and two of them that meet do so at such a boundary.  Every call keeps
it (`Grants.freeList`, `freeAll_spec`, `freeLocked_freeList`), and a `Free` without a record to
write reports an error and leaves the table as it was (`freeLocked_error`).

This needs the segments to fit the 64 MB grid (`Geometry`): where a boundary inside the
buffer is not a segment multiple, the records around it are not whole segments. -/

namespace Player2

open Tiling AllocatorSimpleBlock

namespace AllocatorSimple

/-! ### 64 MB boundaries -/

theorem on64MBBoundary_iff (a : AllocatorSimple) (x : ℕ) :
    a.on64MBBoundary x = true ↔ 2 ^ 26 ∣ x + a.physicalAddress := by
  unfold on64MBBoundary u32
  rw [decide_eq_true_eq, show (0x03ffffff : ℕ) = 2 ^ 26 - 1 from rfl, Nat.and_two_pow_sub_one_eq_mod,
    Nat.mod_mod_of_dvd _ (by norm_num), Nat.dvd_iff_mod_eq_zero]

/-- No 64 MB boundary lies strictly inside the span. -/
def NoSpan (a : AllocatorSimple) (r : Span) : Prop :=
  ∀ x, r.base < x → x < r.stop → a.on64MBBoundary x = false

/-- The span consists of whole segments. -/
def Aligned (a : AllocatorSimple) (r : Span) : Prop := a.segmentSize ∣ r.base ∧ a.segmentSize ∣ r.size

variable {a : AllocatorSimple}

theorem NoSpan.join {b s t : ℕ} (h1 : a.NoSpan ⟨b, s⟩) (h2 : a.NoSpan ⟨b + s, t⟩)
    (hm : a.on64MBBoundary (b + s) = false) : a.NoSpan ⟨b, s + t⟩ := by
  intro x hx hx'
  simp only [Span.stop] at hx'
  rcases lt_trichotomy x (b + s) with h | h | h
  · exact h1 x hx (by simpa [Span.stop] using h)
  · exact h ▸ hm
  · exact h2 x h (by simp only [Span.stop]; omega)

theorem NoSpan.mono {r r' : Span} (h : a.NoSpan r) (hb : r.base ≤ r'.base)
    (hs : r'.stop ≤ r.stop) : a.NoSpan r' :=
  fun x hx hx' => h x (by omega) (by omega)

/-! ### The free list -/

/-- The part of the invariant that concerns the records alone. -/
structure FreeList (a : AllocatorSimple) : Prop where
  indexed : a.Indexed
  nonEmpty : a.NonEmpty
  noSpan : ∀ i, (a.blocks i).inUse = true → a.NoSpan (a.blocks i).span
  notAdjacent : ∀ i j, (a.blocks i).inUse = true → (a.blocks j).inUse = true →
    (a.blocks i).span.stop = (a.blocks j).base → a.on64MBBoundary (a.blocks j).base = true
  aligned : ∀ i, (a.blocks i).inUse = true → a.Aligned (a.blocks i).span

/-- A grant of whole segments from a table that covers no address twice keeps the free list. -/
theorem Grants.freeList {a a' : AllocatorSimple} {i : ℕ} {r : Span} (h : Grants a a' i r)
    (hF : a.FreeList) (hone : ∀ x, a.coverage x ≤ 1) (hr : a.segmentSize ∣ r.size) : a'.FreeList := by
  have hI := hF.indexed
  have hkeep : ∃ b : AllocatorSimpleBlock, a' = a.setBlock i b ∧ (b.inUse = true →
      b = ⟨true, (a.blocks i).size - r.size, (a.blocks i).base + r.size⟩ ∧ r.size < (a.blocks i).size) := by
    rcases h.result with hr | ⟨-, hr⟩
    · refine ⟨_, hr, fun hu => ?_⟩
      simp only [decide_eq_true_eq] at hu
      exact ⟨by simp [hu], by omega⟩
    · exact ⟨_, hr, fun hu => absurd hu (by simp)⟩
  obtain ⟨b, rfl, hb⟩ := hkeep
  have hold : ∀ j, j ≠ i → (a.setBlock i b).blocks j = a.blocks j := fun j hj =>
    Function.update_of_ne hj _ _
  have hnew : (a.setBlock i b).blocks i = b := Function.update_self ..
  have hal := hF.aligned i h.inUse
  refine ⟨h.indexed hI, h.nonEmpty hF.nonEmpty, fun j hj => ?_, fun j k hj hk hjk => ?_, fun j hj => ?_⟩
  · by_cases hji : j = i
    · subst hji
      rw [hnew] at hj ⊢
      obtain ⟨rfl, hlt⟩ := hb hj
      exact (hF.noSpan j h.inUse).mono (Nat.le_add_right _ _)
        (by simp only [Span.stop, AllocatorSimpleBlock.span]; omega)
    · rw [hold j hji] at hj ⊢
      exact hF.noSpan j hj
  · by_cases hki : k = i
    · subst hki
      rw [hnew] at hk hjk ⊢
      obtain ⟨rfl, hlt⟩ := hb hk
      by_cases hji : j = k
      · subst hji
        rw [hnew] at hjk
        simp only [Span.stop, AllocatorSimpleBlock.span] at hjk
        omega
      · rw [hold j hji] at hj hjk
        simp only [Span.stop, AllocatorSimpleBlock.span] at hjk ⊢
        rcases Nat.eq_zero_or_pos r.size with hz | hpos
        · rw [hz] at hjk ⊢
          exact hF.notAdjacent j k hj h.inUse hjk
        · -- the record below would share its last address with the granted span
          exfalso
          have hjl := hI.lt (hI.index_le j hj)
          have h2 := add_le_total hjl (hI.lt h.index_le) hji
            (hits ((a.blocks k).base + r.size - 1)) a.blocks
          have h3 := hone ((a.blocks k).base + r.size - 1)
          have hjs := hF.nonEmpty j hj
          rw [hits_of_inUse hj, hits_of_inUse h.inUse] at h2
          have e1 : (a.blocks j).span.hits ((a.blocks k).base + r.size - 1) = 1 :=
            Span.hits_eq_one.mpr (by simp only [AllocatorSimpleBlock.span]; omega)
          have e2 : (a.blocks k).span.hits ((a.blocks k).base + r.size - 1) = 1 :=
            Span.hits_eq_one.mpr (by simp only [AllocatorSimpleBlock.span]; omega)
          unfold AllocatorSimple.coverage at h3
          omega
    · rw [hold k hki] at hk hjk ⊢
      by_cases hji : j = i
      · subst hji
        rw [hnew] at hj hjk
        obtain ⟨rfl, hlt⟩ := hb hj
        refine hF.notAdjacent j k h.inUse hk ?_
        simp only [Span.stop, AllocatorSimpleBlock.span] at hjk ⊢
        omega
      · rw [hold j hji] at hj hjk
        exact hF.notAdjacent j k hj hk hjk
  · by_cases hji : j = i
    · subst hji
      rw [hnew] at hj ⊢
      obtain ⟨rfl, hlt⟩ := hb hj
      exact ⟨Nat.dvd_add hal.1 hr, Nat.dvd_sub hal.2 hr⟩
    · rw [hold j hji] at hj ⊢
      exact hF.aligned j hj

/-! ### `Free(void)` and the constructor -/

/-- The sizes and addresses an allocator can be built with: the buffer and its physical
address are whole segments, and so is every 64 MB boundary inside the buffer. -/
structure Geometry (bufferSize segmentSize physicalAddress : ℕ) : Prop where
  segment_pos : 0 < segmentSize
  size_lt : bufferSize < 2 ^ 32
  size_dvd : segmentSize ∣ bufferSize
  address_dvd : segmentSize ∣ physicalAddress
  boundary_dvd : ∀ x, 0 < x → x < bufferSize → 2 ^ 26 ∣ x + physicalAddress → segmentSize ∣ x

/-- The allocator's fixed parameters form a `Geometry`. -/
def Placed (a : AllocatorSimple) : Prop := Geometry a.bufferSize a.segmentSize a.physicalAddress

/-- The table while `Free(void)` fills it: the records below `i` tile `[0, offset)`. -/
structure FillInv (a : AllocatorSimple) (i offset : ℕ) : Prop where
  freeList : a.FreeList
  below : ∀ j, (a.blocks j).inUse = true → j < i ∧ (a.blocks j).span.stop ≤ offset
  cover : Exact offset a.coverage
  dvd : a.segmentSize ∣ offset

theorem FillInv.extend {i offset size : ℕ} (h : FillInv a i offset)
    (hi : i < allocatorSimpleMaxBlocks) (hpos : 0 < size) (hbd : 0 < offset → a.on64MBBoundary offset = true)
    (hns : a.NoSpan ⟨offset, size⟩) (hd : a.segmentSize ∣ size) :
    FillInv { a.setBlock i ⟨true, size, offset⟩ with highestUsedBlockIndex := i } (i + 1) (offset + size) := by
  have hfree : (a.blocks i).inUse = false := by
    by_contra hne
    have := (h.below i (by simpa using hne)).1
    omega
  set a' := { a.setBlock i ⟨true, size, offset⟩ with highestUsedBlockIndex := i } with ha'
  have hold : ∀ j, j ≠ i → a'.blocks j = a.blocks j := fun j hj => Function.update_of_ne hj _ _
  have hnew : a'.blocks i = ⟨true, size, offset⟩ := Function.update_self ..
  refine ⟨⟨⟨hi, fun j hj => ?_⟩, fun j hj => ?_, fun j hj => ?_, fun j k hj hk hjk => ?_, fun j hj => ?_⟩,
    fun j hj => ?_, h.cover.extend fun x => ?_, Nat.dvd_add h.dvd hd⟩
  · by_cases hji : j = i
    · exact hji.le
    · rw [hold j hji] at hj
      exact (h.below j hj).1.le
  · by_cases hji : j = i
    · rw [hji, hnew]; exact hpos
    · rw [hold j hji] at hj ⊢
      exact h.freeList.nonEmpty j hj
  · by_cases hji : j = i
    · rw [hji, hnew]; exact hns
    · rw [hold j hji] at hj ⊢
      exact h.freeList.noSpan j hj
  · by_cases hki : k = i
    · rw [hki, hnew] at hjk ⊢
      by_cases hji : j = i
      · rw [hji, hnew] at hjk
        simp only [Span.stop, AllocatorSimpleBlock.span] at hjk
        omega
      · rw [hold j hji] at hj hjk
        have hjs := h.freeList.nonEmpty j hj
        refine hbd ?_
        simp only [Span.stop, AllocatorSimpleBlock.span] at hjk
        omega
    · rw [hold k hki] at hk hjk ⊢
      by_cases hji : j = i
      · rw [hji, hnew] at hjk
        have hks := h.freeList.nonEmpty k hk
        have := (h.below k hk).2
        simp only [Span.stop, AllocatorSimpleBlock.span] at hjk this
        omega
      · rw [hold j hji] at hj hjk
        exact h.freeList.notAdjacent j k hj hk hjk
  · by_cases hji : j = i
    · rw [hji, hnew]; exact ⟨h.dvd, hd⟩
    · rw [hold j hji] at hj ⊢
      exact h.freeList.aligned j hj
  · by_cases hji : j = i
    · rw [hji, hnew]; exact ⟨by omega, le_rfl⟩
    · rw [hold j hji] at hj ⊢
      have := h.below j hj
      exact ⟨by omega, by omega⟩
  · have h1 := coverage_setBlock a hi ⟨true, size, offset⟩ x
    rw [hits_of_not_inUse hfree, hits_of_inUse rfl, Nat.add_zero] at h1
    have h2 : a'.coverage x = (a.setBlock i ⟨true, size, offset⟩).coverage x := rfl
    rw [h2, h1]
    rfl

theorem freeAllLoop_inv : ∀ (slots : ℕ) {a : AllocatorSimple} {i rest offset maxBlockSize : ℕ},
    a.Placed → FillInv a i offset → i + slots = allocatorSimpleMaxBlocks →
    offset + rest = a.bufferSize → rest ≤ maxBlockSize + (slots - 1) * 2 ^ 26 → (slots = 0 → rest = 0) →
    (rest ≠ 0 → 0 < maxBlockSize ∧ maxBlockSize ≤ 2 ^ 26 ∧
      2 ^ 26 ∣ offset + maxBlockSize + a.physicalAddress ∧
      (0 < offset → a.on64MBBoundary offset = true)) →
    let a' := freeAllLoop a slots i rest offset maxBlockSize
    a'.FreeList ∧ Exact a.bufferSize a'.coverage ∧ a'.bufferSize = a.bufferSize ∧
      a'.segmentSize = a.segmentSize ∧ a'.physicalAddress = a.physicalAddress
  | 0, a, i, rest, offset, maxBlockSize, _, hF, _, hsum, _, hz, _ => by
      have : offset = a.bufferSize := by rw [← hsum, hz rfl]; rfl
      exact ⟨hF.freeList, this ▸ hF.cover, rfl, rfl, rfl⟩
  | slots + 1, a, i, rest, offset, maxBlockSize, hg, hF, hslots, hsum, hcap, _, hbd => by
      intro a'
      by_cases hr : rest = 0
      · have ha' : a' = a := by simp [a', freeAllLoop, hr]
        have : offset = a.bufferSize := by omega
        rw [ha']
        exact ⟨hF.freeList, this ▸ hF.cover, rfl, rfl, rfl⟩
      · obtain ⟨hm0, hm1, hm2, hoff⟩ := hbd hr
        set size := min rest maxBlockSize with hsize
        -- the block ends at the end of the buffer or at the next 64 MB boundary
        have hend : offset + size = a.bufferSize ∨
            (size = maxBlockSize ∧ offset + size < a.bufferSize) := by omega
        have hdend : a.segmentSize ∣ offset + size := by
          rcases hend with he | ⟨he, hlt⟩
          · rw [he]; exact hg.size_dvd
          · exact hg.boundary_dvd _ (by omega) hlt (he ▸ hm2)
        have hd : a.segmentSize ∣ size := (Nat.dvd_add_right hF.dvd).mp hdend
        have hns : a.NoSpan ⟨offset, size⟩ := by
          intro x hx hx'
          simp only [Span.stop] at hx hx'
          by_contra hne
          have h1 := (on64MBBoundary_iff a x).mp (by simpa using hne)
          have h2 := (Nat.dvd_sub hm2 h1)
          have := Nat.le_of_dvd (by omega) h2
          omega
        have hF' := hF.extend (by omega) (by omega : 0 < size) hoff hns hd
        have hsum' : offset + size + (rest - size) = a.bufferSize := by omega
        have hcap' : rest - size ≤ 0x4000000 + (slots - 1) * 2 ^ 26 := by omega
        have ih := freeAllLoop_inv slots
          (a := { a.setBlock i ⟨true, size, offset⟩ with highestUsedBlockIndex := i }) hg hF' (by omega)
          hsum' hcap' (by omega) (by
            intro hr'
            have he : size = maxBlockSize := by omega
            refine ⟨by norm_num, by norm_num, ?_, fun _ => ?_⟩
            · rw [he, Nat.add_right_comm]
              exact Nat.dvd_add hm2 (by norm_num)
            · rw [he]
              exact (on64MBBoundary_iff a _).mpr hm2)
        have ha' : a' = freeAllLoop { a.setBlock i ⟨true, size, offset⟩ with highestUsedBlockIndex := i }
            slots (i + 1) (rest - size) (offset + size) 0x4000000 := by
          simp only [a', freeAllLoop, if_neg hr, hsize]
        rw [ha']
        exact ih

theorem freeAll_spec (hg : a.Placed) :
    a.freeAll.FreeList ∧ Exact a.bufferSize a.freeAll.coverage ∧
      a.freeAll.bufferSize = a.bufferSize ∧ a.freeAll.segmentSize = a.segmentSize ∧
      a.freeAll.physicalAddress = a.physicalAddress := by
  have hsz := hg.size_lt
  have hmod : a.physicalAddress &&& 0x03ffffff = a.physicalAddress % 2 ^ 26 :=
    Nat.and_two_pow_sub_one_eq_mod a.physicalAddress 26
  refine freeAllLoop_inv allocatorSimpleMaxBlocks
    (a := { a with blocks := fun _ => .zero, highestUsedBlockIndex := 0 }) hg ?_ rfl
    (Nat.zero_add _) ?_ (fun h => by cases h) fun _ => ⟨?_, ?_, ?_, fun h => by omega⟩
  · exact ⟨⟨⟨Nat.zero_lt_succ _, fun _ hi => absurd hi Bool.false_ne_true⟩,
      fun _ hi => absurd hi Bool.false_ne_true, fun _ hi => absurd hi Bool.false_ne_true,
      fun _ _ hi => absurd hi Bool.false_ne_true, fun _ hi => absurd hi Bool.false_ne_true⟩,
      fun _ hi => absurd hi Bool.false_ne_true, fun x => total_eq_zero fun _ _ => rfl, Nat.dvd_zero _⟩
  · rw [hmod]
    show a.bufferSize ≤ 2 ^ 26 - a.physicalAddress % 2 ^ 26 + (256 - 1) * 2 ^ 26
    omega
  · rw [hmod]; omega
  · rw [hmod]; omega
  · show 2 ^ 26 ∣ 0 + (0x4000000 - (a.physicalAddress &&& 0x03ffffff)) + a.physicalAddress
    refine ⟨a.physicalAddress / 2 ^ 26 + 1, ?_⟩
    omega

theorem freeAllLoop_segmentSize (n : ℕ) : ∀ (slots : ℕ) (a : AllocatorSimple) (i rest offset max : ℕ),
    freeAllLoop { a with segmentSize := n } slots i rest offset max =
      { freeAllLoop a slots i rest offset max with segmentSize := n }
  | 0, _, _, _, _, _ => rfl
  | slots + 1, a, i, rest, offset, max => by
      by_cases hr : rest = 0
      · simp only [freeAllLoop, if_pos hr]
      · simp only [freeAllLoop, if_neg hr]
        exact freeAllLoop_segmentSize n slots
          { a.setBlock i ⟨true, min rest max, offset⟩ with highestUsedBlockIndex := i } _ _ _ _

theorem create_spec {bufferSize : ℕ} (hsize : bufferSize < 2 ^ 32) (segmentSize physicalAddress : ℕ) :
    (create bufferSize segmentSize physicalAddress).Indexed ∧
      (create bufferSize segmentSize physicalAddress).NonEmpty ∧
      (create bufferSize segmentSize physicalAddress).segmentSize = segmentSize ∧
      Exact bufferSize (create bufferSize segmentSize physicalAddress).coverage := by
  -- with segments of one byte every buffer is whole segments
  have hg : Geometry bufferSize 1 physicalAddress :=
    ⟨Nat.one_pos, hsize, Nat.one_dvd _, Nat.one_dvd _, fun _ _ _ _ => Nat.one_dvd _⟩
  obtain ⟨hF, hE, -, -, -⟩ := freeAll_spec
    (a := ⟨bufferSize, 1, physicalAddress, 0, fun _ => .zero⟩) hg
  have he : create bufferSize segmentSize physicalAddress =
      { create bufferSize 1 physicalAddress with segmentSize := segmentSize } :=
    freeAllLoop_segmentSize segmentSize _ ⟨bufferSize, 1, physicalAddress, 0, fun _ => .zero⟩ ..
  rw [he]
  exact ⟨⟨hF.indexed.highest_lt, hF.indexed.index_le⟩, hF.nonEmpty, rfl, hE⟩

/-! ### `Free(Size, Block)` -/

/-- What the scan of `Free` keeps about the edges of the block it builds. -/
structure ScanEdges (a : AllocatorSimple) (k : ℕ) (s : FreeScan) : Prop where
  noSpan : a.NoSpan ⟨s.block, s.size⟩
  aligned : a.Aligned ⟨s.block, s.size⟩
  above : ∀ j, j < k → (s.blocks j).inUse = true → s.block + s.size = (s.blocks j).base →
    a.on64MBBoundary (s.blocks j).base = true
  below : ∀ j, j < k → (s.blocks j).inUse = true → (s.blocks j).span.stop = s.block →
    a.on64MBBoundary s.block = true

theorem ScanEdges.step (hF : a.FreeList) {size block low k : ℕ} {s : FreeScan}
    (hs : ScanInv a size block low k s) (h : ScanEdges a k s) : ScanEdges a (k + 1) (s.step a k) := by
  have hk : s.blocks k = a.blocks k := hs.unseen k le_rfl
  have hother : ∀ {j : ℕ} {b : AllocatorSimpleBlock}, j < k + 1 → (Function.update s.blocks k { b with inUse := false } j).inUse = true →
      j < k ∧ j ≠ k ∧ s.blocks j = a.blocks j ∧ (a.blocks j).inUse = true := by
    intro j b hj hju
    by_cases hjk : j = k
    · subst hjk; simp at hju
    · rw [Function.update_of_ne hjk] at hju
      exact ⟨by omega, hjk, hs.kept j hju, hs.kept j hju ▸ hju⟩
  rcases FreeScan.step_cases a s k with ⟨hu, he⟩ | ⟨hu, hm, hb, he⟩ | ⟨hu, hm, hb, he⟩ | ⟨hu, hn1, hn2, he⟩
  · rw [he]
    refine ⟨h.noSpan, h.aligned, fun j hj hju => ?_, fun j hj hju => ?_⟩
    all_goals
      have hjk : j ≠ k := fun hjk => by rw [hjk] at hju; rw [hu] at hju; cases hju
    · exact h.above j (by omega) hju
    · exact h.below j (by omega) hju
  · rw [he]
    rw [hk] at hu hm hb ⊢
    have hal := hF.aligned k hu
    refine ⟨h.noSpan.join (hm ▸ hF.noSpan k hu) (hm ▸ hb), ⟨h.aligned.1, Nat.dvd_add h.aligned.2 hal.2⟩,
      fun j hj hju hjm => ?_, fun j hj hju hjm => ?_⟩
    · obtain ⟨hlt, hne, hja, hau⟩ := hother hj hju
      dsimp only at hjm ⊢
      rw [Function.update_of_ne hne, hja] at hjm ⊢
      refine hF.notAdjacent k j hu hau ?_
      simp only [Span.stop, AllocatorSimpleBlock.span]
      omega
    · obtain ⟨hlt, hne, -, -⟩ := hother hj hju
      dsimp only at hju hjm ⊢
      rw [Function.update_of_ne hne] at hju hjm
      exact h.below j hlt hju hjm
  · rw [he]
    rw [hk] at hu hm ⊢
    have hal := hF.aligned k hu
    have hns : a.NoSpan ⟨(a.blocks k).base, (a.blocks k).size + s.size⟩ :=
      (hF.noSpan k hu).join (hm ▸ h.noSpan) (hm ▸ hb)
    refine ⟨Nat.add_comm _ s.size ▸ hns, ⟨hal.1, Nat.dvd_add h.aligned.2 hal.2⟩,
      fun j hj hju hjm => ?_, fun j hj hju hjm => ?_⟩
    · obtain ⟨hlt, hne, -, -⟩ := hother hj hju
      dsimp only at hju hjm ⊢
      rw [Function.update_of_ne hne] at hju hjm ⊢
      exact h.above j hlt hju (by omega)
    · obtain ⟨hlt, hne, hja, hau⟩ := hother hj hju
      dsimp only at hjm ⊢
      rw [Function.update_of_ne hne, hja] at hjm
      exact hF.notAdjacent j k hau hu hjm
  · rw [he]
    refine ⟨h.noSpan, h.aligned, fun j hj hju => ?_, fun j hj hju => ?_⟩
    · by_cases hjk : j = k
      · subst hjk; exact hn1
      · exact h.above j (by omega) hju
    · by_cases hjk : j = k
      · subst hjk; exact fun hm => hn2 hm.symm
      · exact h.below j (by omega) hju

/-- `Free` keeps the free list when it has a record to write. -/
theorem freeLocked_freeList (hF : a.FreeList) {size block low : ℕ}
    (hsize : 0 < size) (hone : ∀ x, a.coverage x + Span.hits ⟨block, size⟩ x ≤ 1)
    (hns : a.NoSpan ⟨block, size⟩) (hal : a.Aligned ⟨block, size⟩)
    (h : a.SlotAvailable size block low) : (a.freeLocked size block low).2.FreeList := by
  obtain ⟨a', he, hI', hN', -, -⟩ := freeLocked_ok hF.indexed hF.nonEmpty hsize hone h
  have hs := freeScan_inv hF.indexed size block low
  have hE : ScanInv a size block low (a.highestUsedBlockIndex + 1) (a.freeScan size block low) ∧
      ScanEdges a (a.highestUsedBlockIndex + 1) (a.freeScan size block low) :=
    freeScan_induction (P := fun k s => ScanInv a size block low k s ∧ ScanEdges a k s)
      ⟨ScanInv.init a size block low, hns, hal, fun _ h => by omega, fun _ h => by omega⟩
      fun k s hk h => ⟨h.1.step (hF.indexed.lt hk), ScanEdges.step hF h.1 h.2⟩
  obtain ⟨-, hE⟩ := hE
  have hlow : (a.freeScan size block low).lowestFreeBlock ≠ allocatorSimpleMaxBlocks :=
    (h.lowestFreeBlock hF.indexed hF.nonEmpty hone).1.ne
  have hpos : 0 < (a.freeScan size block low).size := by have := hs.grows; omega
  have ha' : a' = { a with
      blocks := Function.update (a.freeScan size block low).blocks
        (a.freeScan size block low).lowestFreeBlock
        ⟨true, (a.freeScan size block low).size, (a.freeScan size block low).block⟩
      highestUsedBlockIndex := max (a.freeScan size block low).lowestFreeBlock
        (a.freeScan size block low).nextHighestUsedBlockIndex } := by
    unfold freeLocked at he
    simp only [if_neg hlow, Prod.mk.injEq, true_and] at he
    exact he.symm
  rw [he]
  generalize a.freeScan size block low = s at *
  have hnew : a'.blocks s.lowestFreeBlock = ⟨true, s.size, s.block⟩ := by
    rw [ha']; exact Function.update_self ..
  have hold : ∀ j, j ≠ s.lowestFreeBlock → (a'.blocks j).inUse = true →
      a'.blocks j = s.blocks j ∧ s.blocks j = a.blocks j ∧ j < a.highestUsedBlockIndex + 1 := by
    intro j hj hju
    have e : a'.blocks j = s.blocks j := by rw [ha']; exact Function.update_of_ne hj _ _
    rw [e] at hju
    have e' := hs.kept j hju
    exact ⟨e, e', Nat.lt_succ_of_le (hF.indexed.index_le j (e' ▸ hju))⟩
  have hbd : ∀ x, a'.on64MBBoundary x = a.on64MBBoundary x := fun x => by rw [ha']; rfl
  have hseg : a'.segmentSize = a.segmentSize := by rw [ha']
  refine ⟨hI', hN', fun j hj => ?_, fun j k hj hk hjk => ?_, fun j hj => ?_⟩
  · intro x hx hx'
    rw [hbd]
    by_cases hji : j = s.lowestFreeBlock
    · rw [hji, hnew] at hx hx'
      exact hE.noSpan x hx hx'
    · obtain ⟨e, e', -⟩ := hold j hji hj
      rw [e, e'] at hj hx hx'
      exact hF.noSpan j hj x hx hx'
  · rw [hbd]
    by_cases hji : j = s.lowestFreeBlock
    · rw [hji, hnew] at hjk
      by_cases hki : k = s.lowestFreeBlock
      · rw [hki, hnew] at hjk
        simp only [Span.stop, AllocatorSimpleBlock.span] at hjk
        omega
      · obtain ⟨e, e', hlt⟩ := hold k hki hk
        rw [e] at hk hjk ⊢
        exact hE.above k hlt hk hjk
    · obtain ⟨e, e', hlt⟩ := hold j hji hj
      rw [e] at hj hjk
      by_cases hki : k = s.lowestFreeBlock
      · rw [hki, hnew] at hjk ⊢
        exact hE.below j hlt hj hjk
      · obtain ⟨f, f', -⟩ := hold k hki hk
        rw [e'] at hj hjk
        rw [f, f'] at hk hjk ⊢
        exact hF.notAdjacent j k hj hk hjk
  · unfold Aligned
    rw [hseg]
    by_cases hji : j = s.lowestFreeBlock
    · rw [hji, hnew]; exact hE.aligned
    · obtain ⟨e, e', -⟩ := hold j hji hj
      rw [e, e'] at hj ⊢
      exact hF.aligned j hj

/-- Without a slot, a `Free` that no other thread disturbs reports an error and changes
nothing; every record is then in use and none of them adjoins the block. -/
theorem freeLocked_error (hI : a.Indexed) {size block : ℕ}
    (h : ¬ a.SlotAvailable size block (a.highestUsedBlockIndex + 1)) :
    a.freeLocked size block (a.highestUsedBlockIndex + 1) = (some .allocatorError, a) ∧
      ∀ j < allocatorSimpleMaxBlocks, (a.blocks j).inUse = true ∧ ¬ a.Adjoins size block j := by
  have hH := hI.highest_lt
  unfold SlotAvailable at h
  rw [not_or] at h
  obtain ⟨h1, h2⟩ := h
  have hfull : a.highestUsedBlockIndex + 1 = allocatorSimpleMaxBlocks := by omega
  have hall : ∀ j ≤ a.highestUsedBlockIndex, (a.blocks j).inUse = true ∧ ¬ a.Adjoins size block j := by
    intro j hj
    by_contra hne
    rw [not_and_or, not_not] at hne
    exact h1 ⟨j, hj, by omega, hne.imp (by simp) id⟩
  have hscan : (a.freeScan size block (a.highestUsedBlockIndex + 1)).blocks = a.blocks ∧
      (a.freeScan size block (a.highestUsedBlockIndex + 1)).block = block ∧
      (a.freeScan size block (a.highestUsedBlockIndex + 1)).size = size := by
    refine freeScan_induction (P := fun _ s => s.blocks = a.blocks ∧ s.block = block ∧ s.size = size)
      ⟨rfl, rfl, rfl⟩ ?_
    rintro k s hk ⟨e1, e2, e3⟩
    have hadj := (hall k hk).2
    rcases FreeScan.step_cases a s k with ⟨-, he⟩ | ⟨hu, hm, hb, -⟩ | ⟨hu, hm, hb, -⟩ | ⟨-, -, -, he⟩
    · rw [he]; exact ⟨e1, e2, e3⟩
    · rw [e1] at hu hm hb
      exact absurd ⟨hu, .inl ⟨by rw [← e2, ← e3]; exact hm, hb⟩⟩ hadj
    · rw [e1] at hu hm
      rw [e2] at hm hb
      exact absurd ⟨hu, .inr ⟨hm, hb⟩⟩ hadj
    · rw [he]; exact ⟨e1, e2, e3⟩
  refine ⟨?_, fun j hj => hall j (by omega)⟩
  have hs := freeScan_inv hI size block (a.highestUsedBlockIndex + 1)
  have hlow : (a.freeScan size block (a.highestUsedBlockIndex + 1)).lowestFreeBlock =
      allocatorSimpleMaxBlocks := by
    rcases hs.low_free with hl | ⟨hl, hu⟩
    · rw [hl, hfull]
    · rw [hscan.1] at hu
      rw [(hall _ (by omega)).1] at hu
      cases hu
  unfold freeLocked
  simp only [if_pos hlow, hscan.1]

/-! ### Rounding to segments -/

theorem Geometry.add_segment_le {bufferSize segmentSize physicalAddress : ℕ}
    (hg : Geometry bufferSize segmentSize physicalAddress) (hpos : 0 < bufferSize) :
    bufferSize + segmentSize ≤ 2 ^ 32 := by
  have hle : segmentSize ≤ bufferSize := Nat.le_of_dvd hpos hg.size_dvd
  have hlt := hg.size_lt
  by_cases hsmall : bufferSize ≤ 2 ^ 31
  · omega
  · -- two consecutive boundaries lie inside, so the segment divides 64 MB and hence 4 GB
    have hm : physicalAddress % 2 ^ 26 < 2 ^ 26 := Nat.mod_lt _ (by norm_num)
    have d1 := hg.boundary_dvd (2 ^ 26 - physicalAddress % 2 ^ 26) (by omega) (by omega)
      ⟨physicalAddress / 2 ^ 26 + 1, by omega⟩
    have d2 := hg.boundary_dvd (2 ^ 26 - physicalAddress % 2 ^ 26 + 2 ^ 26) (by omega) (by omega)
      ⟨physicalAddress / 2 ^ 26 + 2, by omega⟩
    have d3 : segmentSize ∣ 2 ^ 26 := (Nat.dvd_add_right d1).mp d2
    have d4 : segmentSize ∣ 2 ^ 32 - bufferSize :=
      Nat.dvd_sub (d3.trans (by norm_num)) hg.size_dvd
    have := Nat.le_of_dvd (by omega) d4
    omega

theorem dvd_roundToSegment (a : AllocatorSimple) (size : ℕ) : a.segmentSize ∣ a.roundToSegment size :=
  Nat.dvd_mul_left _ _

theorem roundToSegment_bounds (hg : a.Placed) {size m : ℕ} (hpos : 0 < size)
    (hsize : size ≤ a.bufferSize) (hm : a.segmentSize ∣ m) (hle : size ≤ m) :
    size ≤ a.roundToSegment size ∧ a.roundToSegment size ≤ m := by
  have hseg := hg.segment_pos
  have hadd := hg.add_segment_le (by omega)
  unfold roundToSegment
  rw [u32_of_lt (by omega)]
  obtain ⟨c, rfl⟩ := hm
  have h1 := Nat.div_add_mod (size + a.segmentSize - 1) a.segmentSize
  have h2 := Nat.mod_lt (size + a.segmentSize - 1) hseg
  have h3 : (size + a.segmentSize - 1) / a.segmentSize ≤ c := by
    rw [Nat.div_le_iff_le_mul_add_pred hseg]
    omega
  constructor
  · rw [Nat.mul_comm]; omega
  · rw [Nat.mul_comm]; exact Nat.mul_le_mul_left _ h3

end AllocatorSimple
end Player2
