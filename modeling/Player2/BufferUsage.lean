import Player2.BufferMemoryRuns

/-! # Usage accounting

`TotalUsedMemory` and `TotalAllocatedMemory` are kept up to date call by call.  `Used s p` says
that they are, as 32-bit values, the sums of the data sizes and of the block sizes of the records
of pool `p`, that data fits in its block, and that a record at rest has neither data nor, when
memory is allocated buffer by buffer, a block.  A pool that allocates no memory has no block
sizes to account for.

`UsageSafe` names the calls that do not keep the totals: those that change the size of a block
without going through the allocation functions, a partition that leaves more than there is data
or that is made of a buffer with its own memory, and a new data reference on a buffer in use. -/

namespace Player2.System

open Tiling AllocatorSimple

/-- The data of a record of pool `p`. -/
def usedIn (p : ℕ) (buf : Buffer) : ℕ := if buf.listed ∧ buf.pool = p then buf.dataSize else 0

/-- The size of the block of a record of pool `p`. -/
def sizeIn (p : ℕ) (buf : Buffer) : ℕ := if buf.listed ∧ buf.pool = p then buf.bufferBlock.size else 0

def usedMemory (s : System) (p : ℕ) : ℕ := total s.bufferCount (usedIn p) s.buffers

def blockMemory (s : System) (p : ℕ) : ℕ := total s.bufferCount (sizeIn p) s.buffers

/-- The totals of pool `p` are those of its records. -/
structure Used (s : System) (p : ℕ) : Prop where
  fits : ∀ b, s.InPool p b → (s.buffers b).dataSize ≤ (s.buffers b).bufferBlock.size
  small : ∀ b, s.InPool p b → (s.buffers b).bufferBlock.size < 2 ^ 32
  idle : ∀ b, s.InPool p b → (s.buffers b).referenceCount = 0 → b ∉ s.stack →
    (s.buffers b).dataSize = 0 ∧
      ((s.pools p).descriptor.perBuffer = true → (s.buffers b).bufferBlock.size = 0)
  unlimited : ∀ b, s.InPool p b → (s.pools p).descriptor.allocationSource ≠ .noAllocation →
    (s.pools p).descriptor.perBuffer = false → (s.pools p).numberOfBuffers = notSpecified →
    (s.buffers b).bufferBlock.size = 0
  used : (s.pools p).totalUsedMemory = u32 (s.usedMemory p)
  allocated : (s.pools p).totalAllocatedMemory =
    if (s.pools p).descriptor.allocationSource = .noAllocation then 0 else u32 (s.blockMemory p)

/-- The call keeps the totals of pool `p`. -/
def UsageSafe (p : ℕ) (s : System) : Call → Prop
  | .shrinkBuffer b n => (s.buffers b).pool = p →
      (s.pools p).descriptor.allocationSource = .allocateFromSuppliedBlock →
      (s.buffers b).dataSize ≤ n → n < (s.buffers b).bufferBlock.size →
      (s.pools p).descriptor.roundToUnit n = (s.buffers b).bufferBlock.size
  | .extendBuffer b up => (s.buffers b).pool = p → ∀ a ∈ (s.pools p).memoryPoolAllocator,
      (a.extendToLargest (s.buffers b).bufferBlock.span up).toBool = false
  | .partitionBuffer b leave _ _ _ => (s.buffers b).pool = p → leave ≤ (s.buffers b).dataSize ∧
      ((s.pools p).descriptor.perBuffer = true → (s.pools p).descriptor.hasFixedSize = true →
        (s.pools p).descriptor.fixedSize = 0)
  | .registerDataReference b _ => (s.buffers b).pool = p → (s.buffers b).dataSize = 0
  | _ => True

instance (p : ℕ) (s : System) : (c : Call) → Decidable (s.UsageSafe p c)
  | .shrinkBuffer .. | .extendBuffer .. | .partitionBuffer .. | .registerDataReference .. => by
      unfold UsageSafe
      infer_instance
  | .createPool .. | .getBuffer .. | .setUsedDataSize .. | .transferOwnership ..
  | .incrementReferenceCount .. | .decrementReferenceCount .. | .attachBuffer .. | .detachBuffer ..
  | .resume => inferInstanceAs (Decidable True)

/-! ### Changing one record -/

section
variable {s s' : System} {p b : ℕ}

theorem usedIn_of_inPool (h : s.InPool p b) : usedIn p (s.buffers b) = (s.buffers b).dataSize := if_pos h

theorem sizeIn_of_inPool (h : s.InPool p b) : sizeIn p (s.buffers b) = (s.buffers b).bufferBlock.size :=
  if_pos h

theorem usedIn_of_not_inPool (h : ¬ s.InPool p b) : usedIn p (s.buffers b) = 0 := if_neg h

theorem sizeIn_of_not_inPool (h : ¬ s.InPool p b) : sizeIn p (s.buffers b) = 0 := if_neg h

theorem Bounded.usedMemory_of_le (h : s.Bounded) {n : ℕ} (hn : s.bufferCount ≤ n) (p : ℕ) :
    total n (usedIn p) s.buffers = s.usedMemory p ∧ total n (sizeIn p) s.buffers = s.blockMemory p := by
  have hout : ∀ c, s.bufferCount ≤ c → ¬ s.InPool p c := fun c hc hin => by
    have := h c hin.1
    omega
  exact ⟨total_of_le hn fun c hc => usedIn_of_not_inPool (hout c hc),
    total_of_le hn fun c hc => sizeIn_of_not_inPool (hout c hc)⟩

theorem Used.same (h : Used s p) (hc : s.Bounded) (hcount : s.bufferCount ≤ s'.bufferCount)
    (hpool : (s'.pools p).descriptor = (s.pools p).descriptor ∧
      (s'.pools p).numberOfBuffers = (s.pools p).numberOfBuffers ∧
      (s'.pools p).totalUsedMemory = (s.pools p).totalUsedMemory ∧
      (s'.pools p).totalAllocatedMemory = (s.pools p).totalAllocatedMemory)
    (hin : ∀ c, s'.InPool p c ↔ s.InPool p c)
    (hbuf : ∀ c, s.InPool p c → (s'.buffers c).dataSize = (s.buffers c).dataSize ∧
      (s'.buffers c).bufferBlock.size = (s.buffers c).bufferBlock.size ∧
      ((s'.buffers c).referenceCount = 0 → c ∉ s'.stack →
        (s.buffers c).referenceCount = 0 ∧ c ∉ s.stack)) : Used s' p := by
  obtain ⟨hd, hN, hu, ha⟩ := hpool
  have hsum : s'.usedMemory p = s.usedMemory p ∧ s'.blockMemory p = s.blockMemory p := by
    rw [← (hc.usedMemory_of_le hcount p).1, ← (hc.usedMemory_of_le hcount p).2]
    refine ⟨total_congr fun c _ => ?_, total_congr fun c _ => ?_⟩
    · by_cases hs : s.InPool p c
      · rw [usedIn_of_inPool hs, usedIn_of_inPool ((hin c).mpr hs), (hbuf c hs).1]
      · rw [usedIn_of_not_inPool hs, usedIn_of_not_inPool fun h' => hs ((hin c).mp h')]
    · by_cases hs : s.InPool p c
      · rw [sizeIn_of_inPool hs, sizeIn_of_inPool ((hin c).mpr hs), (hbuf c hs).2.1]
      · rw [sizeIn_of_not_inPool hs, sizeIn_of_not_inPool fun h' => hs ((hin c).mp h')]
  refine ⟨fun c hc' => ?_, fun c hc' => ?_, fun c hc' hr hst => ?_, fun c hc' h1 h2 h3 => ?_, ?_, ?_⟩
  · have hs := (hin c).mp hc'
    rw [(hbuf c hs).1, (hbuf c hs).2.1]
    exact h.fits c hs
  · have hs := (hin c).mp hc'
    rw [(hbuf c hs).2.1]
    exact h.small c hs
  · have hs := (hin c).mp hc'
    obtain ⟨e1, e2, hidle⟩ := hbuf c hs
    obtain ⟨h1, h2⟩ := hidle hr hst
    rw [e1, e2, hd]
    exact h.idle c hs h1 h2
  · have hs := (hin c).mp hc'
    rw [hd] at h1 h2
    rw [hN] at h3
    rw [(hbuf c hs).2.1]
    exact h.unlimited c hs h1 h2 h3
  · rw [hu, hsum.1]; exact h.used
  · rw [ha, hsum.2, hd]; exact h.allocated

/-- A call that changes one record of pool `p`, and the totals with it. -/
theorem Used.change (h : Used s p) (hc : s.Bounded)
    (hcount : s.bufferCount ≤ s'.bufferCount ∧ b < s'.bufferCount)
    (hpool : (s'.pools p).descriptor = (s.pools p).descriptor ∧
      (s'.pools p).numberOfBuffers = (s.pools p).numberOfBuffers)
    (hbuf : ∀ c, c ≠ b → s'.buffers c = s.buffers c)
    (hst : ∀ c, c ≠ b → c ∉ s'.stack → c ∉ s.stack)
    (hfits : s'.InPool p b → (s'.buffers b).dataSize ≤ (s'.buffers b).bufferBlock.size)
    (hsmall : s'.InPool p b → (s'.buffers b).bufferBlock.size < 2 ^ 32)
    (hidle : s'.InPool p b → (s'.buffers b).referenceCount = 0 → b ∉ s'.stack →
      (s'.buffers b).dataSize = 0 ∧
        ((s.pools p).descriptor.perBuffer = true → (s'.buffers b).bufferBlock.size = 0))
    (hunl : s'.InPool p b → (s.pools p).descriptor.allocationSource ≠ .noAllocation →
      (s.pools p).descriptor.perBuffer = false → (s.pools p).numberOfBuffers = notSpecified →
      (s'.buffers b).bufferBlock.size = 0)
    (hused : (s'.pools p).totalUsedMemory < 2 ^ 32 ∧
      u32 ((s'.pools p).totalUsedMemory + usedIn p (s.buffers b)) =
        u32 ((s.pools p).totalUsedMemory + usedIn p (s'.buffers b)))
    (halloc : if (s.pools p).descriptor.allocationSource = .noAllocation then
        (s'.pools p).totalAllocatedMemory = (s.pools p).totalAllocatedMemory
      else (s'.pools p).totalAllocatedMemory < 2 ^ 32 ∧
        u32 ((s'.pools p).totalAllocatedMemory + sizeIn p (s.buffers b)) =
          u32 ((s.pools p).totalAllocatedMemory + sizeIn p (s'.buffers b))) :
    Used s' p := by
  obtain ⟨hd, hN⟩ := hpool
  have hsum : s'.usedMemory p + usedIn p (s.buffers b) = s.usedMemory p + usedIn p (s'.buffers b) ∧
      s'.blockMemory p + sizeIn p (s.buffers b) = s.blockMemory p + sizeIn p (s'.buffers b) := by
    rw [← (hc.usedMemory_of_le hcount.1 p).1, ← (hc.usedMemory_of_le hcount.1 p).2]
    exact ⟨total_change hcount.2 fun c hcb => by rw [hbuf c hcb],
      total_change hcount.2 fun c hcb => by rw [hbuf c hcb]⟩
  have hother : ∀ c, c ≠ b → s'.InPool p c → s.InPool p c := fun c hcb hin => by
    unfold InPool at hin ⊢
    rwa [hbuf c hcb] at hin
  refine ⟨fun c hin => ?_, fun c hin => ?_, fun c hin hr hs => ?_, fun c hin h1 h2 h3 => ?_, ?_, ?_⟩
  · by_cases hcb : c = b
    · subst hcb; exact hfits hin
    · rw [hbuf c hcb]; exact h.fits c (hother c hcb hin)
  · by_cases hcb : c = b
    · subst hcb; exact hsmall hin
    · rw [hbuf c hcb]; exact h.small c (hother c hcb hin)
  · by_cases hcb : c = b
    · subst hcb; rw [hd]; exact hidle hin hr hs
    · rw [hbuf c hcb] at hr ⊢
      rw [hd]
      exact h.idle c (hother c hcb hin) hr (hst c hcb hs)
  · rw [hd] at h1 h2
    rw [hN] at h3
    by_cases hcb : c = b
    · subst hcb; exact hunl hin h1 h2 h3
    · rw [hbuf c hcb]; exact h.unlimited c (hother c hcb hin) h1 h2 h3
  · have h1 := h.used
    unfold u32 at *
    omega
  · have h1 := h.allocated
    rw [hd]
    split
    · rename_i hs
      rw [if_pos hs] at h1 halloc
      exact halloc.trans h1
    · rename_i hs
      rw [if_neg hs] at h1 halloc
      unfold u32 at *
      omega

theorem Used.frame (h : Used s p) (hc : s.Bounded) (hcount : s.bufferCount ≤ s'.bufferCount)
    (hpool : s'.pools p = s.pools p) (hbuf : ∀ c, c ≠ b → s'.buffers c = s.buffers c)
    (hstack : ∀ c, c ≠ b → c ∉ s'.stack → c ∉ s.stack) (hb : ¬ s.InPool p b) (hb' : ¬ s'.InPool p b) :
    Used s' p := by
  refine h.same hc hcount (by rw [hpool]; exact ⟨rfl, rfl, rfl, rfl⟩) (fun c => ?_) fun c hin => ?_
  · by_cases hcb : c = b
    · subst hcb; exact ⟨fun hh => absurd hh hb', fun hh => absurd hh hb⟩
    · unfold InPool; rw [hbuf c hcb]
  · have hcb : c ≠ b := fun e => hb (e ▸ hin)
    rw [hbuf c hcb]
    exact ⟨rfl, rfl, fun h1 h2 => ⟨h1, hstack c hcb h2⟩⟩

end

/-! ### References -/

section
variable {s s' : System} {p b : ℕ} {st : BufferStatus}

theorem Used.modifyBuffer (h : Used s p) (hc : s.Bounded) (f : Buffer → Buffer)
    (hf : (f (s.buffers b)).pool = (s.buffers b).pool ∧ (f (s.buffers b)).listed = (s.buffers b).listed ∧
      (f (s.buffers b)).referenceCount = (s.buffers b).referenceCount ∧
      (f (s.buffers b)).dataSize = (s.buffers b).dataSize ∧
      (f (s.buffers b)).bufferBlock.size = (s.buffers b).bufferBlock.size) :
    Used (s.modifyBuffer b f) p := by
  obtain ⟨f1, f2, f3, f4, f5⟩ := hf
  refine h.same hc le_rfl ⟨rfl, rfl, rfl, rfl⟩ (fun c => ?_) fun c hin => ?_
  · by_cases hcb : c = b
    · subst hcb; simp [InPool, f1, f2]
    · simp [InPool, hcb]
  · by_cases hcb : c = b
    · subst hcb
      rw [modifyBuffer_buffers_self]
      exact ⟨f4, f5, fun h1 h2 => ⟨f3 ▸ h1, h2⟩⟩
    · rw [modifyBuffer_buffers_of_ne _ _ hcb]
      exact ⟨rfl, rfl, fun h1 h2 => ⟨h1, h2⟩⟩

theorem Used.incrementReferenceCount (h : Used s p) (hc : s.Counted)
    (hroom : (s.poolOf b).referenceCount + 1 < 2 ^ 32) {owner : ℕ}
    (he : s.incrementReferenceCount b owner = some (st, s')) : Used s' p := by
  obtain ⟨hb, owners, rfl⟩ := incrementReferenceCount_some he
  refine h.same hc.bounded le_rfl ?_ (fun c => ?_) fun c _ => ?_
  · by_cases hbp : p = (s.buffers b).pool
    · subst hbp; simp
    · simp [hbp]
  · by_cases hcb : c = b
    · subst hcb; simp [InPool]
    · simp [InPool, hcb]
  · by_cases hcb : c = b
    · subst hcb; simp [hc.increment_eq hb hroom]
    · rw [modifyBuffer_buffers_of_ne _ _ hcb]
      exact ⟨rfl, rfl, fun h1 h2 => ⟨h1, h2⟩⟩

theorem Used.decrementReferenceCount (h : Used s p) (hc : s.Counted) {owner : ℕ}
    (he : s.decrementReferenceCount b owner = some (st, s')) : Used s' p := by
  obtain ⟨hb, owners, hcase⟩ := decrementReferenceCount_some he
  have hpools : ((s.dropReference b owners).pools p).descriptor = (s.pools p).descriptor ∧
      ((s.dropReference b owners).pools p).numberOfBuffers = (s.pools p).numberOfBuffers ∧
      ((s.dropReference b owners).pools p).totalUsedMemory = (s.pools p).totalUsedMemory ∧
      ((s.dropReference b owners).pools p).totalAllocatedMemory = (s.pools p).totalAllocatedMemory := by
    by_cases hbp : p = (s.buffers b).pool
    · subst hbp; simp [dropReference]
    · simp [dropReference, hbp]
  have hin := fun c => s.dropReference_inPool b p c owners
  have hsizes : ∀ c, ((s.dropReference b owners).buffers c).dataSize = (s.buffers c).dataSize ∧
      ((s.dropReference b owners).buffers c).bufferBlock.size = (s.buffers c).bufferBlock.size :=
    fun c => (s.dropReference_sizes b c owners).imp_right (congrArg BlockDescriptor.size)
  have hother : ∀ c, c ≠ b → ((s.dropReference b owners).buffers c).referenceCount =
      (s.buffers c).referenceCount := fun c => s.dropReference_of_ne owners
  rcases hcase with ⟨-, rfl⟩ | ⟨hgt, rfl⟩
  · refine h.same hc.bounded le_rfl hpools hin fun c _ => ⟨(hsizes c).1, (hsizes c).2, fun h1 h2 => ?_⟩
    by_cases hcb : c = b
    · subst hcb; exact absurd (by simp [stack]) h2
    · exact ⟨(hother c hcb).symm.trans h1, fun hm => h2 (by simpa [stack, hcb] using hm)⟩
  · refine h.same hc.bounded le_rfl hpools hin fun c _ => ⟨(hsizes c).1, (hsizes c).2, fun h1 h2 => ?_⟩
    by_cases hcb : c = b
    · subst hcb
      simp only [dropReference, modifyBuffer_buffers_self, modifyPool_buffers] at h1
      omega
    · exact ⟨(hother c hcb).symm.trans h1, h2⟩

/-! ### Sizes -/

theorem Used.total_lt (h : Used s p) :
    (s.pools p).totalUsedMemory < 2 ^ 32 ∧ (s.pools p).totalAllocatedMemory < 2 ^ 32 := by
  rw [h.used, h.allocated]
  refine ⟨Nat.mod_lt _ (by norm_num), ?_⟩
  split
  · norm_num
  · exact Nat.mod_lt _ (by norm_num)

theorem Used.setUsedDataSize (h : Used s p) (hc : s.Counted) {n : ℕ}
    (he : s.setUsedDataSize b n = some (st, s')) : Used s' p := by
  obtain ⟨hb, rfl | ⟨hle, rfl⟩⟩ := setUsedDataSize_some he
  · exact h
  have hl := hc.listed_of_ne_zero hb
  by_cases hbp : (s.buffers b).pool = p
  · have hin : s.InPool p b := ⟨hl, hbp⟩
    subst hbp
    refine h.change (b := b) hc.bounded ⟨le_rfl, hc.bounded b hl⟩ (by simp) (fun c hcb => by simp [hcb])
      (fun c _ hst => hst) (fun _ => by simpa using hle) (fun _ => by simpa using h.small b hin)
      (fun _ hr => absurd (by simpa using hr) hb) (fun _ h1 h2 h3 => by simpa using h.unlimited b hin h1 h2 h3) ?_ ?_
    · simp only [modifyBuffer_pools, modifyPool_pools_self, modifyBuffer_buffers_self, modifyPool_buffers,
        usedIn, hl, and_self, if_true, sub32, u32]
      omega
    · have hlt := h.total_lt.2
      simpa [sizeIn, hl] using fun _ => hlt
  · have hpb : p ≠ (s.buffers b).pool := fun e => hbp e.symm
    exact h.frame (b := b) hc.bounded le_rfl (by simp [hpb]) (fun c hcb => by simp [hcb])
      (fun c _ hst => hst) (fun hh => hbp hh.2) fun hh => hbp (by simpa using hh.2)

theorem Used.registerDataReference (h : Used s p) (hc : s.Counted) {n : ℕ}
    (hsafe : (s.buffers b).pool = p → (s.buffers b).dataSize = 0)
    (he : s.registerDataReference b n = some (st, s')) : Used s' p := by
  obtain ⟨hb, rfl | ⟨hsrc, rfl⟩⟩ := registerDataReference_some he
  · exact h
  have hl := hc.listed_of_ne_zero hb
  by_cases hbp : (s.buffers b).pool = p
  · have hin : s.InPool p b := ⟨hl, hbp⟩
    rw [poolOf, hbp] at hsrc
    refine h.change (b := b) hc.bounded ⟨le_rfl, hc.bounded b hl⟩ ⟨rfl, rfl⟩ (fun c hcb => by simp [hcb])
      (fun c _ hst => hst) (fun _ => by simp) (fun _ => ?_) (fun _ hr => absurd (by simpa using hr) hb)
      (fun _ h1 => absurd hsrc h1) ⟨h.total_lt.1, ?_⟩ (by rw [if_pos hsrc]; rfl)
    · rw [modifyBuffer_buffers_self]
      exact Nat.mod_lt n (by norm_num)
    · rw [usedIn_of_inPool hin, hsafe hbp]
      simp [usedIn]
  · exact h.frame (b := b) hc.bounded le_rfl rfl (fun c hcb => by simp [hcb])
      (fun c _ hst => hst) (fun hh => hbp hh.2) fun hh => hbp (by simpa using hh.2)

/-- The end of a release takes the data and the block out of the totals. -/
theorem Used.finish (h : Used s p) (hc : s.Counted) {f : Frame} {rest : List Frame}
    (hf : s.releasing = f :: rest) : Used (finishRelease { s with releasing := rest } f.buffer).2 p := by
  have hmem : f.buffer ∈ s.stack := by simp [stack, hf]
  have hl := hc.listed_of_mem_stack hmem
  have hlt := hc.bounded _ hl
  have hfin := finishRelease_finishes (s := { s with releasing := rest }) (b := f.buffer) hl
  obtain ⟨count, hpool⟩ := hfin.pool
  have hbuf := hfin.buffer
  have hrel : System.releasedPool { s with releasing := rest } f.buffer = s.releasedPool f.buffer := rfl
  have hpoolOf : poolOf { s with releasing := rest } f.buffer = s.poolOf f.buffer := rfl
  generalize (finishRelease { s with releasing := rest } f.buffer).2 = s' at *
  rw [hrel] at hpool
  rw [hpoolOf] at hpool hbuf
  have hcount : s'.bufferCount = s.bufferCount := hfin.bufferCount
  have hstack : ∀ c, c ≠ f.buffer → c ∉ s'.stack → c ∉ s.stack := by
    intro c hcb hst
    rw [stack, hfin.releasing] at hst
    simpa [stack, hf, hcb] using hst
  by_cases hbp : (s.buffers f.buffer).pool = p
  · subst hbp
    obtain ⟨ht1, ht2⟩ := h.total_lt
    have hin : s.InPool (s.buffers f.buffer).pool f.buffer := ⟨hl, rfl⟩
    have hdata : (s'.buffers f.buffer).dataSize = 0 := by rw [hbuf]
    have hblock : (s'.buffers f.buffer).bufferBlock.size =
        if (s.poolOf f.buffer).descriptor.perBuffer then 0 else (s.buffers f.buffer).bufferBlock.size := by
      rw [hbuf]; dsimp only; split <;> rfl
    have husedIn : usedIn (s.buffers f.buffer).pool (s'.buffers f.buffer) = 0 := by
      unfold usedIn; rw [hdata]; split <;> rfl
    refine h.change (b := f.buffer) hc.bounded ⟨hcount.ge, hcount ▸ hlt⟩ (by rw [hpool]; exact ⟨rfl, rfl⟩)
      hfin.buffers hstack (fun _ => by rw [hdata]; exact Nat.zero_le _) (fun _ => ?_)
      (fun _ _ _ => ⟨hdata, fun hper => ?_⟩) (fun _ h1 h2 h3 => ?_) ?_ ?_
    · have := h.small _ hin
      rw [hblock]
      split <;> omega
    · rw [hblock, poolOf, if_pos hper]
    · rw [hblock, poolOf, h2]
      exact h.unlimited _ hin h1 h2 h3
    · rw [husedIn, usedIn_of_inPool hin, hpool]
      dsimp only [poolOf]
      unfold sub32 u32
      omega
    · have htotal : (s'.pools (s.buffers f.buffer).pool).totalAllocatedMemory =
          (s.releasedPool f.buffer).totalAllocatedMemory := by rw [hpool]
      have hsizeIn : sizeIn (s.buffers f.buffer).pool (s'.buffers f.buffer) =
          if (s.poolOf f.buffer).numberOfBuffers = notSpecified then 0
          else (s'.buffers f.buffer).bufferBlock.size := by
        rw [sizeIn, hbuf]
        by_cases hN : (s.poolOf f.buffer).numberOfBuffers = notSpecified <;> simp [hN]
      rw [htotal, hsizeIn, hblock, sizeIn_of_inPool hin]
      unfold releasedPool
      by_cases hper : (s.poolOf f.buffer).descriptor.perBuffer = true
      · have hsrc : (s.pools (s.buffers f.buffer).pool).descriptor.allocationSource ≠ .noAllocation := by
          intro e
          rw [poolOf, BufferDataDescriptor.perBuffer, e] at hper
          simp at hper
        rw [if_neg hsrc, if_pos hper, if_pos hper]
        unfold BufferPool.deAllocateMemoryBlock
        by_cases hz : (s.buffers f.buffer).bufferBlock.size = 0
        · rw [if_pos hz, hz, ite_self]
          exact ⟨ht2, rfl⟩
        · rw [if_neg hz]
          have hsub : ∀ pool : BufferPool, (if pool.descriptor.allocationSource = .allocateFromSuppliedBlock then
              { pool with memoryPoolAllocator := pool.memoryPoolAllocator.map fun a =>
                (a.free (s.buffers f.buffer).bufferBlock.size
                  (s.buffers f.buffer).bufferBlock.poolAllocatedOffset).2 }
              else pool).totalAllocatedMemory = pool.totalAllocatedMemory := fun pool => by split <;> rfl
          dsimp only
          rw [hsub, ite_self, poolOf]
          unfold sub32 u32
          omega
      · rw [if_neg hper, if_neg hper, poolOf]
        split
        · rfl
        · rename_i hsrc
          refine ⟨ht2, ?_⟩
          split
          · rename_i hN
            rw [h.unlimited _ hin hsrc (by simpa [poolOf] using hper) hN]
          · rfl
  · refine h.frame (b := f.buffer) hc.bounded hcount.ge (hfin.pools p fun e => hbp e.symm) hfin.buffers hstack
      (fun hh => hbp hh.2) fun hh => hbp ?_
    have := hh.2
    rw [hbuf] at this
    exact this

/-! ### Handing out a record -/

variable {t u : System} {q n owner : ℕ} {nb lb : Bool} {env : Environment}

/-- A record that has been taken has no data yet, and no block when it is to be given one. -/
theorem Used.take (h : Used s p) (hc : s.Counted) (hq : q < s.poolCount)
    (ht : s.takeRecord q nb env = some (.ok (b, t))) :
    Used t p ∧ (q = p → (t.buffers b).dataSize = 0 ∧
      ((s.pools p).descriptor.perBuffer = true → (t.buffers b).bufferBlock.size = 0)) ∧
      (t.pools p).descriptor = (s.pools p).descriptor := by
  obtain ⟨ht1, ht2⟩ := h.total_lt
  rcases takeRecord_some ht with ⟨hN, rfl, rfl⟩ | ⟨hN, rest, hring, rfl⟩
  · have hnew : ¬ s.InPool p s.bufferCount := fun hh => by
      have := hc.bounded _ hh.1
      omega
    have hpool : ((modifyPool s q fun pool => { pool with countOfBuffers := u32 (pool.countOfBuffers + 1) }).pools
        p).descriptor = (s.pools p).descriptor ∧
        ((modifyPool s q fun pool => { pool with countOfBuffers := u32 (pool.countOfBuffers + 1) }).pools
          p).numberOfBuffers = (s.pools p).numberOfBuffers ∧
        ((modifyPool s q fun pool => { pool with countOfBuffers := u32 (pool.countOfBuffers + 1) }).pools
          p).totalUsedMemory = (s.pools p).totalUsedMemory ∧
        ((modifyPool s q fun pool => { pool with countOfBuffers := u32 (pool.countOfBuffers + 1) }).pools
          p).totalAllocatedMemory = (s.pools p).totalAllocatedMemory := by
      by_cases hr : p = q
      · subst hr; simp
      · simp [hr]
    obtain ⟨p1, p2, p3, p4⟩ := hpool
    refine ⟨h.change (b := s.bufferCount) hc.bounded ⟨Nat.le_succ _, Nat.lt_succ_self _⟩ ⟨p1, p2⟩
      (fun c hcb => Function.update_of_ne hcb _ _) (fun c _ hst => hst) (fun _ => by simp [Buffer.create])
      (fun _ => by simp [Buffer.create]) (fun _ _ _ => by simp [Buffer.create]) (fun _ _ _ _ => by simp [Buffer.create]) ?_ ?_,
      fun _ => by simp [Buffer.create], p1⟩
    · have h0 : usedIn p (Buffer.create q) = 0 := by simp [usedIn, Buffer.create]
      refine ⟨lt_of_eq_of_lt p3 ht1, ?_⟩
      dsimp only
      rw [Function.update_self, usedIn_of_not_inPool hnew, h0, p3]
    · have h0 : sizeIn p (Buffer.create q) = 0 := by simp [sizeIn, Buffer.create]
      split
      · exact p4
      · refine ⟨lt_of_eq_of_lt p4 ht2, ?_⟩
        dsimp only
        rw [Function.update_self, sizeIn_of_not_inPool hnew, h0, p4]
  · have hmem : b ∈ (s.pools q).freeBuffer := by simp [hring]
    have hin := hc.ring q hq b hmem
    have hpool : ((modifyPool s q fun pool => { pool with freeBuffer := rest }).pools p).descriptor =
          (s.pools p).descriptor ∧
        ((modifyPool s q fun pool => { pool with freeBuffer := rest }).pools p).numberOfBuffers =
          (s.pools p).numberOfBuffers ∧
        ((modifyPool s q fun pool => { pool with freeBuffer := rest }).pools p).totalUsedMemory =
          (s.pools p).totalUsedMemory ∧
        ((modifyPool s q fun pool => { pool with freeBuffer := rest }).pools p).totalAllocatedMemory =
          (s.pools p).totalAllocatedMemory := by
      by_cases hr : p = q
      · subst hr; simp
      · simp [hr]
    have hplace := hc.place b hin.1
    rw [poolOf, hin.2, hring, List.count_cons_self] at hplace
    have hst : b ∉ s.stack := List.count_eq_zero.mp (by omega)
    have hrc := hc.unreferenced (.inl (hin.2.symm ▸ hmem))
    refine ⟨h.same hc.bounded le_rfl hpool (fun _ => Iff.rfl)
      fun c _ => ⟨rfl, rfl, fun h1 h2 => ⟨h1, h2⟩⟩, ?_, hpool.1⟩
    rintro rfl
    exact h.idle b hin hrc hst

theorem Used.obtain (h : Used t p) (hb : t.Bounded) (hin : t.InPool q b)
    (hsrc : (t.pools q).descriptor.allocationSource = .allocateFromSuppliedBlock)
    (hper : (t.pools q).descriptor.perBuffer = true)
    (hzero : q = p → (t.buffers b).dataSize = 0 ∧ (t.buffers b).bufferBlock.size = 0)
    (hsmall : q = p → (u.buffers b).bufferBlock.size < 2 ^ 32) (ho : t.Obtains u q b n lb) (owner : ℕ) : Used (u.handOut q b owner) p := by
  have hlt := hb b hin.1
  by_cases hqp : q = p
  · subst hqp
    obtain ⟨hz1, hz2⟩ := hzero rfl
    obtain ⟨ht1, ht2⟩ := h.total_lt
    have hu0 : usedIn q (t.buffers b) = 0 := by rw [usedIn_of_inPool hin, hz1]
    have hs0 : sizeIn q (t.buffers b) = 0 := by rw [sizeIn_of_inPool hin, hz2]
    have hne : (t.pools q).descriptor.allocationSource ≠ .noAllocation := by rw [hsrc]; decide
    rcases ho with ⟨-, rfl⟩ | ⟨-, block, alloc, rfl, -⟩
    · refine h.change (b := b) hb ⟨le_rfl, hlt⟩ (by simp [handOut]) (fun c hcb => by simp [handOut, hcb])
        (fun c _ hst => hst) (fun _ => by simp [handOut]) (fun _ => by simp [handOut])
        (fun _ hr => by simp [handOut] at hr)
        (fun _ _ _ _ => by simp [handOut]) ?_ ?_
      · rw [hu0]
        simpa [handOut, usedIn] using ht1
      · rw [if_neg hne, hs0]
        simpa [handOut, sizeIn] using ht2
    · refine h.change (b := b) hb ⟨le_rfl, hlt⟩ (by simp [handOut]) (fun c hcb => by simp [handOut, hcb])
        (fun c _ hst => hst) (fun _ => by simp [handOut]) (fun _ => by simpa [handOut] using hsmall rfl)
        (fun _ hr => by simp [handOut] at hr)
        (fun _ _ h2 _ => by rw [hper] at h2; cases h2) ?_ ?_
      · rw [hu0]
        simpa [handOut, usedIn] using ht1
      · rw [if_neg hne, hs0]
        simp only [handOut, modifyPool_pools_self, modifyBuffer_pools, modifyBuffer_buffers_self,
          modifyPool_buffers, sizeIn, hin.1, hin.2, and_self, if_true, u32]
        omega
  · have hb1 : ¬ t.InPool p b := fun hh => hqp (hin.2.symm.trans hh.2)
    obtain ⟨hcount, hpool, hothers, hstack, hb2⟩ := obtains_others hin ho hqp owner
    exact h.frame hb hcount hpool hothers (fun c _ hst => hstack ▸ hst) hb1 hb2

theorem Tiled.size_lt_of_inPool (h : Tiled (· ≤ ·) s p) (hb : s.Bounded) (hin : s.InPool p b) :
    (s.buffers b).bufferBlock.size < 2 ^ 32 := by
  by_cases hz : (s.buffers b).bufferBlock.size = 0
  · rw [hz]; norm_num
  · have h1 := h.stop_le hb (fun _ _ => id) hin hz
    have h2 := h.size_lt
    omega

theorem getBuffer_size_lt (hc : s.Counted) (hq : q < s.poolCount) (hr : s.releasing = [])
    (hroom : (s.pools q).referenceCount + 1 < 2 ^ 32)
    (htile : (s.pools q).Supplied → Tiled (· ≤ ·) s q)
    (hg : s.getBuffer q owner n nb lb env = some (.noError, some b, s'))
    (hper : (s.pools q).descriptor.perBuffer = true) : (s'.buffers b).bufferBlock.size < 2 ^ 32 := by
  have hC := hc.getBuffer hq hr hroom hg
  obtain ⟨-, -, hpool, hone, -⟩ := getBuffer_frame hc hq hg
  have hin : s'.InPool q b :=
    ⟨hC.listed_of_ne_zero (by rw [hone]; exact Nat.one_ne_zero), hpool⟩
  by_cases hsup : (s.pools q).Supplied
  · exact ((htile hsup).getBuffer hc hq hsup hg).size_lt_of_inPool hC.bounded hin
  rcases getBuffer_some hg with ⟨hne, -⟩ | ⟨-, c, t, u, hr, ht, hu, rfl⟩
  · exact absurd rfl hne
  obtain rfl : c = b := (Option.some.inj hr).symm
  rw [if_pos hper] at hu
  have halloc : (t.pools q).memoryPoolAllocator = (s.pools q).memoryPoolAllocator := by
    rcases takeRecord_some ht with ⟨-, -, rfl⟩ | ⟨-, rest, -, rfl⟩
    · simp [modifyPool]
    · simp
  rcases hu.2 with ⟨-, rfl⟩ | ⟨-, block, alloc, rfl, ⟨-, -, rfl⟩ | ⟨a, r, a', ha, -⟩⟩
  · simp [handOut]
  · simp only [handOut, modifyPool_buffers, modifyBuffer_buffers_self]
    exact Nat.mod_lt _ (by norm_num)
  · refine absurd ⟨hu.1, ?_, ?_⟩ hsup
    · simpa [BufferDataDescriptor.perBuffer, hu.1] using hper
    · rw [← halloc, ha]; rfl

theorem Used.getBuffer {r : Option ℕ} (h : Used s p) (hc : s.Counted) (hq : q < s.poolCount)
    (hr : s.releasing = []) (hroom : (s.pools q).referenceCount + 1 < 2 ^ 32)
    (htile : (s.pools p).Supplied → Tiled (· ≤ ·) s p)
    (hg : s.getBuffer q owner n nb lb env = some (st, r, s')) : Used s' p := by
  rcases getBuffer_some hg with ⟨-, -, rfl⟩ | ⟨rfl, b, t, u, rfl, ht, hu, rfl⟩
  · exact h
  obtain ⟨hT, hzero, hdesc⟩ := h.take hc hq ht
  obtain ⟨hB, hin⟩ := hc.take_inPool hq ht
  have hq' := takeRecord_descriptor ht
  split at hu
  · rename_i hper
    refine hT.obtain hB hin (by rw [hq']; exact hu.1) (by rw [hq']; exact hper) (fun e => ?_) (fun e => ?_)
      hu.2 owner
    · obtain ⟨h1, h2⟩ := hzero e
      exact ⟨h1, h2 (e ▸ hper)⟩
    · simpa [handOut] using getBuffer_size_lt hc hq hr hroom (e ▸ htile) hg hper
  · subst hu
    refine hT.same hB le_rfl ?_ (fun c => ?_) fun c hinc => ?_
    · by_cases hpq : p = q
      · subst hpq; simp [handOut]
      · simp [handOut, hpq]
    · by_cases hcb : c = b
      · subst hcb; simp [InPool, handOut]
      · simp [InPool, handOut, hcb]
    · by_cases hcb : c = b
      · subst hcb
        have hz := (hzero (hin.2.symm.trans hinc.2)).1
        simp [handOut, hz]
      · have e : (u.handOut q b owner).buffers c = u.buffers c := by simp [handOut, hcb]
        rw [e]
        exact ⟨rfl, rfl, fun h1 h2 => ⟨h1, h2⟩⟩

theorem Used.splitBlock (h : Used s p) (hc : s.Counted) {c leave : ℕ} (hbc : b ≠ c)
    (hb : (s.buffers b).referenceCount ≠ 0) (hcr : (s.buffers c).referenceCount ≠ 0)
    (hpool : (s.buffers c).pool = (s.buffers b).pool)
    (hsafe : (s.buffers b).pool = p → leave ≤ (s.buffers b).dataSize ∧
      (s.buffers c).dataSize = 0 ∧
      ((s.pools p).descriptor.allocationSource ≠ .noAllocation → (s.buffers c).bufferBlock.size = 0)) :
    Used (s.splitBlock b c leave) p := by
  have hlb := hc.listed_of_ne_zero hb
  have hlc := hc.listed_of_ne_zero hcr
  have hbuf : ∀ d, d ≠ b → d ≠ c → (s.splitBlock b c leave).buffers d = s.buffers d := by
    intro d h1 h2
    simp [System.splitBlock, h1, h2]
  have hinp : ∀ d, (s.splitBlock b c leave).InPool p d ↔ s.InPool p d := by
    intro d
    by_cases hdb : d = b
    · subst hdb; simp [InPool, System.splitBlock, hbc]
    · by_cases hdc : d = c
      · subst hdc; simp [InPool, System.splitBlock, hdb]
      · simp [InPool, hbuf d hdb hdc]
  by_cases hbp : (s.buffers b).pool = p
  · obtain ⟨hle, hz1, hz2⟩ := hsafe hbp
    have hin : s.InPool p b := ⟨hlb, hbp⟩
    have hlt := h.small b hin
    have hinc : s.InPool p c := ⟨hlc, hpool.trans hbp⟩
    have hfits := h.fits b hin
    have hsub1 : sub32 (s.buffers b).bufferBlock.size leave = (s.buffers b).bufferBlock.size - leave := by
      unfold sub32 u32; omega
    have hsub2 : sub32 (s.buffers b).dataSize leave = (s.buffers b).dataSize - leave := by
      unfold sub32 u32; omega
    have eb : (s.splitBlock b c leave).buffers b = { s.buffers b with
        bufferBlock := { (s.buffers b).bufferBlock with size := leave }, dataSize := leave } := by
      simp [System.splitBlock, hbc]
    have ec1 : ((s.splitBlock b c leave).buffers c).dataSize = (s.buffers b).dataSize - leave := by
      simp [System.splitBlock, hbc.symm, hsub2]
    have ec2 : ((s.splitBlock b c leave).buffers c).bufferBlock.size =
        (s.buffers b).bufferBlock.size - leave := by
      simp [System.splitBlock, hbc.symm, hsub1]
    -- the two records together weigh what they weighed before
    have hsum : ∀ w : Buffer → ℕ, w ((s.splitBlock b c leave).buffers b) +
        w ((s.splitBlock b c leave).buffers c) = w (s.buffers b) + w (s.buffers c) →
        total s.bufferCount w (s.splitBlock b c leave).buffers = total s.bufferCount w s.buffers := by
      intro w hw
      obtain ⟨t, ht⟩ : ∃ t, t = Function.update s.buffers c ((s.splitBlock b c leave).buffers c) := ⟨_, rfl⟩
      have h1 := total_update (hc.bounded c hlc) w s.buffers ((s.splitBlock b c leave).buffers c)
      have h2 := total_change (hc.bounded b hlb) (w := w) (f := t) (v := w)
        (g := (s.splitBlock b c leave).buffers) fun d hd => by
          rw [ht]
          by_cases hdc : d = c
          · subst hdc; rw [Function.update_self]
          · rw [Function.update_of_ne hdc, hbuf d hd hdc]
      have h3 : t b = s.buffers b := by rw [ht, Function.update_of_ne hbc]
      rw [h3] at h2
      rw [← ht] at h1
      omega
    have hinb' := (hinp b).mpr hin
    have hinc' := (hinp c).mpr hinc
    have hused : (s.splitBlock b c leave).usedMemory p = s.usedMemory p := by
      refine hsum (usedIn p) ?_
      rw [usedIn_of_inPool hinb', usedIn_of_inPool hinc', usedIn_of_inPool hin, usedIn_of_inPool hinc, eb, ec1,
        hz1]
      dsimp only
      omega
    refine ⟨fun d hd => ?_, fun d hd => ?_, fun d hd hr hst => ?_, fun d hd h1 h2 h3 => ?_, ?_, ?_⟩
    · by_cases hdb : d = b
      · subst hdb; rw [eb]
      · by_cases hdc : d = c
        · subst hdc; rw [ec1, ec2]; omega
        · rw [hbuf d hdb hdc]; exact h.fits d ((hinp d).mp hd)
    · by_cases hdb : d = b
      · subst hdb; rw [eb]; dsimp only; omega
      · by_cases hdc : d = c
        · subst hdc; rw [ec2]; omega
        · rw [hbuf d hdb hdc]; exact h.small d ((hinp d).mp hd)
    · by_cases hdb : d = b
      · subst hdb; rw [eb] at hr; exact absurd hr hb
      · by_cases hdc : d = c
        · subst hdc; exact absurd (by simpa [System.splitBlock, hdb] using hr) hcr
        · rw [hbuf d hdb hdc] at hr ⊢
          exact h.idle d ((hinp d).mp hd) hr hst
    · have hz := h.unlimited b hin h1 h2 h3
      by_cases hdb : d = b
      · subst hdb; rw [eb]; dsimp only; omega
      · by_cases hdc : d = c
        · subst hdc; rw [ec2]; omega
        · rw [hbuf d hdb hdc]; exact h.unlimited d ((hinp d).mp hd) h1 h2 h3
    · rw [hused]; exact h.used
    · have hall := h.allocated
      show (s.pools p).totalAllocatedMemory = if (s.pools p).descriptor.allocationSource = _ then _ else _
      by_cases hsrc : (s.pools p).descriptor.allocationSource = .noAllocation
      · rw [if_pos hsrc] at hall ⊢; exact hall
      · have hblock : (s.splitBlock b c leave).blockMemory p = s.blockMemory p := by
          refine hsum (sizeIn p) ?_
          rw [sizeIn_of_inPool hinb', sizeIn_of_inPool hinc', sizeIn_of_inPool hin, sizeIn_of_inPool hinc, eb,
            ec2, hz2 hsrc]
          dsimp only
          omega
        rw [hblock]
        exact hall
  · refine h.same hc.bounded le_rfl ⟨rfl, rfl, rfl, rfl⟩ hinp fun d hin => ?_
    have hdb : d ≠ b := fun e => hbp (e ▸ hin.2)
    have hdc : d ≠ c := fun e => hbp (hpool.symm.trans (e ▸ hin.2))
    rw [hbuf d hdb hdc]
    exact ⟨rfl, rfl, fun h1 h2 => ⟨h1, h2⟩⟩

theorem getBuffer_dataSize (hg : s.getBuffer q owner n nb lb env = some (.noError, some b, s')) :
    (s'.buffers b).dataSize = 0 := by
  rcases getBuffer_some hg with ⟨hne, -⟩ | ⟨-, c, t, u, hr, -, -, rfl⟩
  · exact absurd rfl hne
  obtain rfl : c = b := (Option.some.inj hr).symm
  simp [handOut]

theorem Used.partitionBuffer (h : Used s p) (hc : s.Counted) (hr : s.releasing = [])
    (hroom : (s.poolOf b).referenceCount + 1 < 2 ^ 32)
    (htile : (s.pools p).Supplied → Tiled (· ≤ ·) s p) {leave : ℕ}
    (hsafe : s.UsageSafe p (.partitionBuffer b leave owner nb env))
    (he : s.partitionBuffer b leave owner nb env = some (st, s')) : Used s' p := by
  obtain ⟨hb, rfl | ⟨c, t, hcr, hsrc, hg, rfl⟩⟩ := partitionBuffer_some he
  · exact h
  have hq := (hc.listed b (hc.listed_of_ne_zero hb)).2
  obtain ⟨f1, -, f3, f4, f5, f6, -⟩ := getBuffer_frame hc hq hg
  have hbc : b ≠ c := fun e => hb (e ▸ f5)
  have hbuf := f1 b hbc
  refine (h.getBuffer hc hq hr hroom htile hg).splitBlock (hc.getBuffer hq hr hroom hg) hbc
    (by rw [hbuf]; exact hb) (by rw [f4]; exact Nat.one_ne_zero) (by rw [f3, hbuf]) fun hbp => ?_
  rw [hbuf] at hbp ⊢
  subst hbp
  obtain ⟨hle, hfix⟩ := hsafe rfl
  refine ⟨hle, getBuffer_dataSize hg, fun hne => ?_⟩
  rw [f6] at hne
  have hper : (s.pools (s.buffers b).pool).descriptor.perBuffer = true := by
    simp only [poolOf] at hcr
    simp [BufferDataDescriptor.perBuffer, hcr, hne]
  exact getBuffer_zero hg hper (hfix hper)

theorem Used.shrinkBuffer (h : Used s p) (hc : s.Counted) (hsafe : s.UsageSafe p (.shrinkBuffer b n))
    (he : s.shrinkBuffer b n = some (st, s')) : Used s' p := by
  obtain ⟨hb, rfl | ⟨-, hsrc, h1, h2, m, hm, hcase⟩⟩ := shrinkBuffer_some he
  · exact h
  by_cases hbp : (s.buffers b).pool = p
  · subst hbp
    have heq := hsafe rfl hsrc h1 h2
    rcases hcase with ⟨hlt, -⟩ | ⟨-, rfl⟩
    · rw [hm, poolOf, heq] at hlt
      exact absurd hlt (Nat.lt_irrefl _)
    · refine h.modifyBuffer hc.bounded _ ⟨rfl, rfl, rfl, rfl, ?_⟩
      rw [hm, poolOf, heq]
  · have hpb : p ≠ (s.buffers b).pool := fun e => hbp e.symm
    rcases hcase with ⟨-, a, -, rfl⟩ | ⟨-, rfl⟩
    · exact h.frame (b := b) hc.bounded le_rfl (by simp [resize, hpb]) (fun c hcb => by simp [resize, hcb])
        (fun c _ hst => hst) (fun hh => hbp hh.2) fun hh => hbp (by simpa [resize] using hh.2)
    · exact h.frame (b := b) hc.bounded le_rfl rfl (fun c hcb => by simp [hcb])
        (fun c _ hst => hst) (fun hh => hbp hh.2) fun hh => hbp (by simpa using hh.2)

theorem Used.extendBuffer (h : Used s p) (hc : s.Counted) {up : Bool}
    (hsafe : s.UsageSafe p (.extendBuffer b up)) (he : s.extendBuffer b up = some (st, s')) :
    Used s' p := by
  obtain ⟨hb, rfl | ⟨-, -, a, r, a', ha, hext, rfl⟩⟩ := extendBuffer_some he
  · exact h
  by_cases hbp : (s.buffers b).pool = p
  · subst hbp
    have hno := hsafe rfl a ha
    rw [hext] at hno
    cases hno
  · have hpb : p ≠ (s.buffers b).pool := fun e => hbp e.symm
    exact h.frame (b := b) hc.bounded le_rfl (by simp [resize, hpb]) (fun c hcb => by simp [resize, hcb])
      (fun c _ hst => hst) (fun hh => hbp hh.2) fun hh => hbp (by simpa [resize] using hh.2)

end

/-! ### A new pool -/

theorem PoolParameters.itemSize_ok {q : PoolParameters} {m : Bool} {n : ℕ} (h : q.itemSize m = .ok n) :
    n < 2 ^ 32 ∧ (q.descriptor.allocateOnPoolCreation = false ∨ q.numberOfBuffers = notSpecified ∨
      q.descriptor.allocationSource = .noAllocation → n = 0) := by
  unfold PoolParameters.itemSize at h
  split at h
  · rename_i hcond
    split at h
    · cases h
    · rename_i itemSize hcheck
      split at h
      · cases h
      · obtain rfl := Except.ok.inj h
        refine ⟨Nat.mod_lt _ (by norm_num), ?_⟩
        rintro (h' | h' | h')
        · rw [h'] at hcond; cases hcond.2
        · exact absurd h' hcond.1
        · unfold BufferPool.checkMemoryParameters at hcheck
          rw [h'] at hcheck
          dsimp only at hcheck
          split_ifs at hcheck
  · obtain rfl := Except.ok.inj h
    exact ⟨by norm_num, fun _ => rfl⟩

section
variable {s : System} {p : ℕ}

theorem Used.createPool (h : Used s p) (hc : s.Counted) (hp : p < s.poolCount) (q : PoolParameters)
    (systemMemory : Bool) : Used (s.createPool q systemMemory).2 p := by
  unfold System.createPool
  cases hq : q.itemSize systemMemory with
  | error e => exact h
  | ok itemSize =>
    have hnew : ∀ c, s.bufferCount ≤ c → ¬ s.InPool p c := fun c hcc hh => by
      have := hc.bounded c hh.1
      omega
    refine h.same hc.bounded (Nat.le_add_right _ _) ?_ (fun c => ?_) fun c hh => ?_
    · dsimp only
      rw [Function.update_of_ne (by omega)]
      exact ⟨rfl, rfl, rfl, rfl⟩
    · unfold InPool
      dsimp only
      by_cases hcc : s.bufferCount ≤ c ∧ c < s.bufferCount + q.records
      · rw [if_pos hcc]
        exact ⟨fun hh => absurd hh.2 (by simp only [Buffer.create]; omega),
          fun hh => absurd hh (hnew c hcc.1)⟩
      · rw [if_neg hcc]
    · have hcc : ¬ (s.bufferCount ≤ c ∧ c < s.bufferCount + q.records) := fun hcc => hnew c hcc.1 hh
      dsimp only
      rw [if_neg hcc]
      exact ⟨rfl, rfl, fun h1 h2 => ⟨h1, h2⟩⟩

theorem used_new (hc : s.Counted) {q : PoolParameters} {m : Bool}
    (hnew : s.poolCount < (s.createPool q m).2.poolCount) : Used (s.createPool q m).2 s.poolCount := by
  unfold System.createPool at hnew ⊢
  cases hi : q.itemSize m with
  | error e => rw [hi] at hnew; exact absurd hnew (Nat.lt_irrefl _)
  | ok itemSize =>
    obtain ⟨hlt, hzero⟩ := PoolParameters.itemSize_ok hi
    have hold : ∀ b, ¬ s.InPool s.poolCount b := fun b hh => by
      have h1 := (hc.listed b hh.1).2
      have h2 := hh.2
      omega
    dsimp only
    generalize ht : ({ s with
      pools := Function.update s.pools s.poolCount (q.pool s.bufferCount itemSize)
      poolCount := s.poolCount + 1
      buffers := fun b =>
        if s.bufferCount ≤ b ∧ b < s.bufferCount + q.records then
          { Buffer.create s.poolCount with bufferBlock := ⟨itemSize, 0⟩ }
        else s.buffers b
      bufferCount := s.bufferCount + q.records } : System) = t
    have hbuf : ∀ b, t.InPool s.poolCount b →
        t.buffers b = { Buffer.create s.poolCount with bufferBlock := ⟨itemSize, 0⟩ } := by
      intro b hin
      rw [← ht] at hin ⊢
      by_cases hb : s.bufferCount ≤ b ∧ b < s.bufferCount + q.records
      · exact if_pos hb
      · unfold InPool at hin
        dsimp only at hin
        rw [if_neg hb] at hin
        exact absurd hin (hold b)
    have hpool : t.pools s.poolCount = q.pool s.bufferCount itemSize := by
      rw [← ht]; exact Function.update_self ..
    have hsum : ∀ w : Buffer → ℕ, (∀ b, ¬ s.InPool s.poolCount b → w (s.buffers b) = 0) →
        total t.bufferCount w t.buffers = q.records *
          w { Buffer.create s.poolCount with bufferBlock := ⟨itemSize, 0⟩ } := by
      intro w hw
      have h0 : total s.bufferCount w s.buffers = 0 := total_eq_zero fun b _ => hw b (hold b)
      have he : total (s.bufferCount + q.records) w t.buffers = total s.bufferCount w s.buffers +
          q.records * w { Buffer.create s.poolCount with bufferBlock := ⟨itemSize, 0⟩ } := by
        refine total_extend (fun b hb => ?_) fun b hb => ?_
        · rw [← ht]; dsimp only; rw [if_neg (by omega)]
        · rw [← ht]; dsimp only; rw [if_pos (by omega)]
      rw [h0, Nat.zero_add] at he
      rw [← he, ← ht]
    have hused : t.usedMemory s.poolCount = 0 := by
      unfold usedMemory
      rw [hsum _ fun b => usedIn_of_not_inPool]
      simp [usedIn, Buffer.create]
    have hblock : t.blockMemory s.poolCount = itemSize * q.records := by
      unfold blockMemory
      rw [hsum _ fun b => sizeIn_of_not_inPool]
      simp [sizeIn, Buffer.create, Nat.mul_comm]
    refine ⟨fun b hin => ?_, fun b hin => ?_, fun b hin _ _ => ⟨?_, fun hper => ?_⟩,
      fun b hin _ _ hN => ?_, ?_, ?_⟩
    · rw [hbuf b hin]; exact Nat.zero_le _
    · rw [hbuf b hin]; exact hlt
    · rw [hbuf b hin]; rfl
    · rw [hbuf b hin]
      rw [hpool] at hper
      refine hzero (.inl ?_)
      simp only [PoolParameters.pool, BufferDataDescriptor.perBuffer, Bool.and_eq_true,
        Bool.not_eq_true'] at hper
      exact hper.1
    · rw [hbuf b hin]
      rw [hpool] at hN
      exact hzero (.inr (.inl hN))
    · rw [hpool, hused]; rfl
    · rw [hpool, hblock]
      show u32 (itemSize * q.records) = if q.descriptor.allocationSource = .noAllocation then 0
        else u32 (itemSize * q.records)
      split
      · rename_i hsrc
        rw [hzero (.inr (.inr hsrc))]
        simp [u32]
      · rfl

end

/-! ### Every call -/

section
variable {s s' : System} {p : ℕ} {st : BufferStatus}

theorem Used.perform (h : Used s p) (hc : s.Counted) (hp : p < s.poolCount)
    (htile : (s.pools p).Supplied → Tiled (· ≤ ·) s p) (hr : s.releasing = []) {c : Call}
    (hroom : s.RoomToCount c) (hsafe : s.UsageSafe p c)
    (he : s.perform c = some (st, s')) : Used s' p := by
  cases c with
  | createPool q m =>
    simp only [System.perform] at he
    split_ifs at he
    have e : (s.createPool q m).2 = s' := congrArg Prod.snd (Option.some.inj he)
    exact e ▸ h.createPool hc hp q m
  | getBuffer q owner n nb lb env =>
    simp only [System.perform] at he
    split_ifs at he with hq
    obtain ⟨r, hget, e⟩ := Option.map_eq_some_iff.mp he
    rw [← (Prod.mk.inj e).2]
    exact h.getBuffer hc hq hr hroom htile hget
  | setUsedDataSize b n => exact h.setUsedDataSize hc he
  | shrinkBuffer b n => exact h.shrinkBuffer hc hsafe he
  | extendBuffer b up => exact h.extendBuffer hc hsafe he
  | partitionBuffer b leave owner nb env => exact h.partitionBuffer hc hr hroom htile hsafe he
  | registerDataReference b n => exact h.registerDataReference hc hsafe he
  | transferOwnership b owner0 owner1 =>
    obtain ⟨-, owners, rfl⟩ := transferOwnership_some he
    exact h.modifyBuffer hc.bounded _ ⟨rfl, rfl, rfl, rfl, rfl⟩
  | incrementReferenceCount b owner => exact h.incrementReferenceCount hc hroom he
  | decrementReferenceCount b owner => exact h.decrementReferenceCount hc he
  | attachBuffer b c =>
    obtain ⟨-, rfl | ⟨attached, hi⟩⟩ := attachBuffer_some he
    · exact h
    · exact (h.modifyBuffer hc.bounded _ ⟨rfl, rfl, rfl, rfl, rfl⟩).incrementReferenceCount
        (hc.congr (.modifyBuffer _ _ _ ⟨rfl, rfl, rfl⟩))
        (by rw [poolOf_modifyBuffer s rfl]; exact hroom) hi
  | detachBuffer b c =>
    obtain ⟨-, rfl | ⟨attached, hd⟩⟩ := detachBuffer_some he
    · exact h
    · exact (h.modifyBuffer hc.bounded _ ⟨rfl, rfl, rfl, rfl, rfl⟩).decrementReferenceCount
        (hc.congr (.modifyBuffer _ _ _ ⟨rfl, rfl, rfl⟩)) hd
  | resume => cases he

theorem Used.resume (h : Used s p) (hc : s.Counted) (he : s.resume = some (st, s')) : Used s' p := by
  obtain ⟨f, rest, hf, hcase⟩ := resume_some he
  have hstack : stack { s with releasing := ⟨f.buffer, f.slot + 1⟩ :: rest } = s.stack := by
    simp [stack, hf]
  have hnext : Counted { s with releasing := ⟨f.buffer, f.slot + 1⟩ :: rest } :=
    hc.congr ⟨rfl, rfl, hstack, fun _ => ⟨rfl, rfl, rfl, rfl⟩, fun _ => ⟨rfl, rfl, rfl⟩⟩
  have hU : Used { s with releasing := ⟨f.buffer, f.slot + 1⟩ :: rest } p :=
    h.same hc.bounded le_rfl ⟨rfl, rfl, rfl, rfl⟩ (fun _ => Iff.rfl) fun c _ =>
      ⟨rfl, rfl, fun h1 h2 => ⟨h1, hstack ▸ h2⟩⟩
  rcases hcase with ⟨-, -, rfl⟩ | ⟨-, c, -, hd⟩ | ⟨-, rfl⟩
  · exact hU
  · exact (hU.modifyBuffer hnext.bounded _ ⟨rfl, rfl, rfl, rfl, rfl⟩).decrementReferenceCount
      (hnext.congr (.modifyBuffer _ _ _ ⟨rfl, rfl, rfl⟩)) hd
  · exact h.finish hc hf

theorem Used.sizeSafe (h : Used s p) (hc : s.Counted) (hs : (s.pools p).Supplied) {c : Call}
    (hsafe : s.UsageSafe p c) (he : s.perform c = some (st, s')) : s.SizeSafe p c := by
  cases c with
  | shrinkBuffer b n => exact fun hbp h1 h2 => (hsafe hbp hs.1 h1 h2).le
  | partitionBuffer b leave owner nb env =>
    intro hbp
    obtain ⟨hb, -⟩ := partitionBuffer_some he
    obtain ⟨h1, h2⟩ := hsafe hbp
    exact ⟨h1.trans (h.fits b ⟨hc.listed_of_ne_zero hb, hbp⟩), h2 hs.perBuffer⟩
  | _ => trivial

theorem step_used {c : Call} (hc : s.Counted) (hroom : s.RoomToCount c) (hU : p < s.poolCount → Used s p)
    (hT : p < s.poolCount → (s.pools p).Supplied → Tiled (· ≤ ·) s p) (hsafe : s.UsageSafe p c)
    (hstep : s.step c = some s') (hp : p < s'.poolCount) :
    Used s' p ∧ ((s'.pools p).Supplied → Tiled (· ≤ ·) s' p) := by
  have hmono : ∀ m n k : ℕ, m ≤ n → n ≤ k → m ≤ k := fun _ _ _ => le_trans
  rcases step_pools hc hstep with hsame | ⟨q, m, rfl, hq, rfl⟩
  · have hp' : p < s.poolCount := hsame.poolCount ▸ hp
    obtain ⟨st, ⟨hr, hperf⟩ | ⟨-, rfl, hres⟩⟩ := step_some hstep
    · refine ⟨(hU hp').perform hc hp' (hT hp') hr hroom hsafe hperf, fun hs => ?_⟩
      have hs' := (hsame.supplied p).mp hs
      exact (hT hp' hs').perform (fun _ _ => id) hc hp' hs' hr hroom
        ((hU hp').sizeSafe hc hs' hsafe hperf) (.inr hmono) hperf
    · refine ⟨(hU hp').resume hc hres, fun hs => ?_⟩
      have hs' := (hsame.supplied p).mp hs
      exact (hT hp' hs').resume (fun _ _ => id) hc hs' (.inr hmono) hres
  · rcases createPool_poolCount q m hp with hp' | rfl
    · refine ⟨(hU hp').createPool hc hp' q m, fun hs => ?_⟩
      rw [createPool_pools q m hp'] at hs
      exact (hT hp' hs).createPool hc hp' q m
    · exact ⟨used_new hc hp, fun hs => tiled_new le_refl hc hq hs hp⟩

end

/-! ### What `GetPoolUsage` reports -/

/-- The data of the referenced buffers of pool `p`. -/
def referencedData (s : System) (p : ℕ) : ℕ :=
  total s.bufferCount (fun buf => if buf.referenceCount ≠ 0 then usedIn p buf else 0) s.buffers

/-- The blocks of the referenced buffers of pool `p`. -/
def referencedBlocks (s : System) (p : ℕ) : ℕ :=
  total s.bufferCount (fun buf => if buf.referenceCount ≠ 0 then sizeIn p buf else 0) s.buffers

/-- What `GetPoolUsage` reports for pool `p`, by the kind of the pool, and that what a call takes
off a total is never more than the total. -/
structure UsageExact (s : System) (p : ℕ) : Prop where
  inUse : (s.pools p).getPoolUsage.memoryInUse = u32 (s.referencedData p)
  noAllocation : (s.pools p).descriptor.allocationSource = .noAllocation →
    (s.pools p).getPoolUsage.memoryAllocated = 0
  perBuffer : (s.pools p).descriptor.perBuffer = true →
    (s.pools p).getPoolUsage.memoryAllocated = u32 (s.referencedBlocks p)
  onCreation : (s.pools p).descriptor.allocationSource ≠ .noAllocation →
    (s.pools p).descriptor.allocateOnPoolCreation = true →
    (s.pools p).getPoolUsage.memoryAllocated = u32 (s.blockMemory p)
  supplied : (s.pools p).Supplied → s.referencedData p ≤ s.referencedBlocks p ∧
    s.referencedBlocks p ≤ (s.pools p).size ∧
    (s.pools p).getPoolUsage.memoryInUse = s.referencedData p ∧
    (s.pools p).getPoolUsage.memoryAllocated = s.referencedBlocks p

/-- Neither total can go below zero: each is at least what any one record contributes to it. -/
def NoUnderflow (s : System) (p : ℕ) : Prop :=
  ∀ b, s.InPool p b →
    (s.usedMemory p < 2 ^ 32 ∨ (s.pools p).Supplied →
      (s.buffers b).dataSize ≤ (s.pools p).totalUsedMemory) ∧
    ((s.pools p).descriptor.allocationSource ≠ .noAllocation →
      s.blockMemory p < 2 ^ 32 ∨ (s.pools p).Supplied →
      (s.buffers b).bufferBlock.size ≤ (s.pools p).totalAllocatedMemory)

section
variable {s : System} {p : ℕ}

theorem Tiled.blockMemory_le (h : Tiled (· ≤ ·) s p) (hb : s.Bounded) :
    s.blockMemory p ≤ (s.pools p).size := by
  obtain ⟨a, ha, -⟩ := h.tiles
  have hspan : ∀ b, ∑ x ∈ Finset.range (s.pools p).size, spanIn p x (s.buffers b) =
      sizeIn p (s.buffers b) := by
    intro b
    by_cases hin : s.InPool p b
    · simp only [spanIn_of_inPool hin, sizeIn_of_inPool hin]
      exact Span.sum_hits fun hz => h.stop_le hb (fun _ _ => id) hin hz
    · simp only [spanIn_of_not_inPool hin, sizeIn_of_not_inPool hin, Finset.sum_const_zero]
  have hone : ∀ x ∈ Finset.range (s.pools p).size, s.blocksAt p x ≤ 1 := fun x _ => by
    have := h.le_one (fun _ _ => id) ha x
    split at this <;> omega
  calc s.blockMemory p
      = ∑ b ∈ Finset.range s.bufferCount, ∑ x ∈ Finset.range (s.pools p).size, spanIn p x (s.buffers b) :=
        by unfold blockMemory total; exact (Finset.sum_congr rfl fun b _ => hspan b).symm
    _ = ∑ x ∈ Finset.range (s.pools p).size, s.blocksAt p x := Finset.sum_comm
    _ ≤ ∑ _x ∈ Finset.range (s.pools p).size, 1 := Finset.sum_le_sum hone
    _ = (s.pools p).size := by simp

theorem Used.usedMemory_le (h : Used s p) : s.usedMemory p ≤ s.blockMemory p := by
  unfold usedMemory blockMemory total
  refine Finset.sum_le_sum fun b _ => ?_
  by_cases hin : s.InPool p b
  · rw [usedIn_of_inPool hin, sizeIn_of_inPool hin]
    exact h.fits b hin
  · rw [usedIn_of_not_inPool hin]
    exact Nat.zero_le _

theorem Used.referenced (h : Used s p) (hr : s.releasing = []) :
    s.referencedData p = s.usedMemory p ∧
      ((s.pools p).descriptor.perBuffer = true → s.referencedBlocks p = s.blockMemory p) := by
  have hst : ∀ b, b ∉ s.stack := fun b => by simp [stack, hr]
  refine ⟨total_congr fun b _ => ?_, fun hper => total_congr fun b _ => ?_⟩
  · by_cases hz : (s.buffers b).referenceCount = 0
    · rw [if_neg fun hne => hne hz]
      by_cases hin : s.InPool p b
      · rw [usedIn_of_inPool hin, (h.idle b hin hz (hst b)).1]
      · rw [usedIn_of_not_inPool hin]
    · rw [if_pos hz]
  · by_cases hz : (s.buffers b).referenceCount = 0
    · rw [if_neg fun hne => hne hz]
      by_cases hin : s.InPool p b
      · rw [sizeIn_of_inPool hin, (h.idle b hin hz (hst b)).2 hper]
      · rw [sizeIn_of_not_inPool hin]
    · rw [if_pos hz]

theorem Used.usageExact (h : Used s p) (hb : s.Bounded)
    (hT : (s.pools p).Supplied → Tiled (· ≤ ·) s p) (hr : s.releasing = []) : s.UsageExact p := by
  obtain ⟨hdata, hblocks⟩ := h.referenced hr
  have hper : (s.pools p).descriptor.perBuffer = true →
      (s.pools p).getPoolUsage.memoryAllocated = u32 (s.referencedBlocks p) := fun hper => by
    rw [hblocks hper]
    refine h.allocated.trans (if_neg fun hsrc => ?_)
    simp [BufferDataDescriptor.perBuffer, hsrc] at hper
  have hinUse : (s.pools p).getPoolUsage.memoryInUse = u32 (s.referencedData p) := hdata ▸ h.used
  refine ⟨hinUse, fun hsrc => h.allocated.trans (if_pos hsrc), hper,
    fun hsrc _ => h.allocated.trans (if_neg hsrc), fun hs => ?_⟩
  have h1 := h.usedMemory_le
  have h2 := (hT hs).blockMemory_le hb
  have h3 := (hT hs).size_lt
  rw [hinUse, hper hs.perBuffer, hblocks hs.perBuffer, hdata, u32_of_lt (by omega), u32_of_lt (by omega)]
  exact ⟨h1, h2, rfl, rfl⟩

theorem Used.noUnderflow (h : Used s p) (hb : s.Bounded)
    (hT : (s.pools p).Supplied → Tiled (· ≤ ·) s p) : s.NoUnderflow p := by
  intro b hin
  have hsup : (s.pools p).Supplied → s.usedMemory p < 2 ^ 32 ∧ s.blockMemory p < 2 ^ 32 := fun hs => by
    have h1 := h.usedMemory_le
    have h2 := (hT hs).blockMemory_le hb
    have h3 := (hT hs).size_lt
    omega
  refine ⟨fun hlt => ?_, fun hsrc hlt => ?_⟩
  · have hle := le_total (hb b hin.1) (usedIn p) s.buffers
    rw [usedIn_of_inPool hin] at hle
    rw [h.used, u32_of_lt (hlt.elim id fun hs => (hsup hs).1)]
    exact hle
  · have hle := le_total (hb b hin.1) (sizeIn p) s.buffers
    rw [sizeIn_of_inPool hin] at hle
    rw [h.allocated, if_neg hsrc, u32_of_lt (hlt.elim id fun hs => (hsup hs).2)]
    exact hle

end

/-- **Usage accounting.**  In every run whose calls on pool `p` keep the totals and that counts no
more than `2 ^ 32 - 1` references, `GetPoolUsage` reports the data of the referenced buffers and, by the kind of the pool, the blocks of the
referenced buffers, the blocks of all buffers, or nothing; and no total goes below zero. -/
theorem run_usage {p : ℕ} {calls : List Call} {s : System}
    (hsafe : Lts.Along step (UsageSafe p) start calls) (hroom : Lts.Along step RoomToCount start calls)
    (h : Lts.run step start calls = some s)
    (hp : p < s.poolCount) : (s.releasing = [] → s.UsageExact p) ∧ s.NoUnderflow p := by
  have hI := Lts.run_invariant_along
    (I := fun s => s.Counted ∧ (p < s.poolCount → Used s p ∧ ((s.pools p).Supplied → Tiled (· ≤ ·) s p)))
    (fun s c s' hI hm hstep => ⟨step_counted hI.1 hm.2 hstep, step_used hI.1 hm.2
      (fun hp => (hI.2 hp).1) (fun hp => (hI.2 hp).2) hm.1 hstep⟩)
    ⟨start_counted, fun hp => absurd hp (Nat.not_lt_zero p)⟩ (Lts.along_and.mpr ⟨hsafe, hroom⟩) h
  obtain ⟨hU, hT⟩ := hI.2 hp
  exact ⟨hU.usageExact hI.1.bounded hT, hU.noUnderflow hI.1.bounded hT⟩

/-- A buffer of a pool of 4 KB is filled, cut in two, and its first part released. -/
theorem run_usage_4KB : ∃ s, Lts.run step start
    [.createPool ⟨⟨.allocateFromSuppliedBlock, 64, false, false, 0⟩, 3, 0x1000, some 0, false, false⟩ true,
      .getBuffer 0 1 256 true false ⟨false, true, true⟩, .setUsedDataSize 0 200,
      .partitionBuffer 0 128 2 true ⟨false, true, true⟩, .shrinkBuffer 1 100,
      .decrementReferenceCount 0 1, .resume, .resume, .resume, .resume, .resume] = some s ∧
    s.releasing = [] ∧ 0 < s.poolCount ∧ (s.pools 0).Supplied ∧
    (s.pools 0).getPoolUsage.memoryInUse = 72 ∧ s.UsageExact 0 ∧ s.NoUnderflow 0 := by
  obtain ⟨calls, hcalls⟩ : ∃ calls : List Call, calls =
    [.createPool ⟨⟨.allocateFromSuppliedBlock, 64, false, false, 0⟩, 3, 0x1000, some 0, false, false⟩ true,
      .getBuffer 0 1 256 true false ⟨false, true, true⟩, .setUsedDataSize 0 200,
      .partitionBuffer 0 128 2 true ⟨false, true, true⟩, .shrinkBuffer 1 100,
      .decrementReferenceCount 0 1, .resume, .resume, .resume, .resume, .resume] := ⟨_, rfl⟩
  have hsafe : Lts.Along step (UsageSafe 0) start calls := by rw [hcalls]; decide +kernel
  have hroom : Lts.Along step RoomToCount start calls := by rw [hcalls]; decide +kernel
  have hend : ((Lts.run step start calls).map fun s => decide (s.releasing = [] ∧ 0 < s.poolCount ∧
      (s.pools 0).Supplied ∧ (s.pools 0).getPoolUsage.memoryInUse = 72)) = some true := by
    rw [hcalls]; decide +kernel
  obtain ⟨s, hs, hd⟩ := Option.map_eq_some_iff.mp hend
  obtain ⟨h1, h2, h3, h4⟩ := of_decide_eq_true hd
  obtain ⟨h5, h6⟩ := run_usage hsafe hroom hs h2
  exact ⟨s, hcalls ▸ hs, h1, h2, h3, h4, h5 h1, h6⟩

/-- A pool whose buffers are allocated with it has allocated memory before any buffer is
referenced. -/
theorem not_usage_allocated_on_creation :
    ¬ ∀ (p : ℕ) (calls : List Call) (s : System), Lts.run step start calls = some s → s.releasing = [] →
      p < s.poolCount → (s.pools p).getPoolUsage.memoryAllocated = s.referencedBlocks p := by
  intro hall
  obtain ⟨calls, hcalls⟩ : ∃ calls : List Call, calls =
    [.createPool ⟨⟨.allocateFromOSMemory, 64, true, true, 64⟩, 4, notSpecified, none, false, false⟩ true] :=
    ⟨_, rfl⟩
  have hend : ((Lts.run step start calls).map fun s => decide (s.releasing = [] ∧ 0 < s.poolCount ∧
      (s.pools 0).getPoolUsage.memoryAllocated = 256 ∧ s.referencedBlocks 0 = 0)) = some true := by
    rw [hcalls]; decide +kernel
  obtain ⟨s, hs, hd⟩ := Option.map_eq_some_iff.mp hend
  obtain ⟨h1, h2, h3, h4⟩ := of_decide_eq_true hd
  have := hall 0 calls s hs h1 h2
  omega

end Player2.System
