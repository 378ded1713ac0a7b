import Player2.BufferCalls

/-! # Reference counts and the free ring

`System.Counted` is the invariant that ties the counters of a pool to its records: the pool's
reference count is the sum of its buffers' counts, the number of referenced buffers is right,
and every record is referenced, in the free ring, or about to be released, in exactly one of
these places.  Calls that touch neither counts nor rings are dealt with once, by
`Counted.congr`; the others change one record and one pool. -/

namespace Player2.System

open Tiling

/-! ### What is counted -/

/-- The references on a record of pool `p`. -/
def referencesIn (p : ℕ) (buf : Buffer) : ℕ := if buf.listed ∧ buf.pool = p then buf.referenceCount else 0

/-- `1` on the records of pool `p`. -/
def recordIn (p : ℕ) (buf : Buffer) : ℕ := if buf.listed = true ∧ buf.pool = p then 1 else 0

/-- The buffers being released, innermost first. -/
def stack (s : System) : List ℕ := s.releasing.map Frame.buffer

/-- `1` on the records of pool `p` that are referenced or being released. -/
def occupied (s : System) (p b : ℕ) : ℕ :=
  if (s.buffers b).listed ∧ (s.buffers b).pool = p then
    s.stack.count b + if (s.buffers b).referenceCount = 0 then 0 else 1
  else 0

/-- Counters, records and rings agree. -/
structure Counted (s : System) : Prop where
  listed : ∀ b, (s.buffers b).listed = true → b < s.bufferCount ∧ (s.buffers b).pool < s.poolCount
  unlisted : ∀ b, (s.buffers b).listed = false → (s.buffers b).referenceCount = 0 ∧ b ∉ s.stack
  references : ∀ p < s.poolCount,
    (s.pools p).referenceCount = total s.bufferCount (referencesIn p) s.buffers
  referenced : ∀ p < s.poolCount,
    (s.pools p).countOfReferencedBuffers = total s.bufferCount (s.occupied p) id
  place : ∀ b, (s.buffers b).listed = true → (s.poolOf b).freeBuffer.count b + s.stack.count b +
    (if (s.buffers b).referenceCount = 0 then 0 else 1) = 1
  ring : ∀ p < s.poolCount, ∀ b ∈ (s.pools p).freeBuffer,
    (s.buffers b).listed = true ∧ (s.buffers b).pool = p
  records : ∀ p < s.poolCount, (s.pools p).numberOfBuffers ≠ notSpecified →
    total s.bufferCount (recordIn p) s.buffers = (s.pools p).numberOfBuffers
  unlimited : ∀ p < s.poolCount, (s.pools p).numberOfBuffers = notSpecified →
    (s.pools p).freeBuffer = []
  fits : ∀ p < s.poolCount,
    (s.pools p).referenceCount < 2 ^ 32 ∧ (s.pools p).countOfReferencedBuffers < 2 ^ 32

/-- The two systems agree on everything that `Counted` speaks about. -/
structure SameCounts (s s' : System) : Prop where
  poolCount : s'.poolCount = s.poolCount
  bufferCount : s'.bufferCount = s.bufferCount
  stack : s'.stack = s.stack
  pools : ∀ p, (s'.pools p).referenceCount = (s.pools p).referenceCount ∧
    (s'.pools p).countOfReferencedBuffers = (s.pools p).countOfReferencedBuffers ∧
    (s'.pools p).freeBuffer = (s.pools p).freeBuffer ∧
    (s'.pools p).numberOfBuffers = (s.pools p).numberOfBuffers
  buffers : ∀ b, (s'.buffers b).pool = (s.buffers b).pool ∧
    (s'.buffers b).listed = (s.buffers b).listed ∧
    (s'.buffers b).referenceCount = (s.buffers b).referenceCount

theorem SameCounts.refl (s : System) : SameCounts s s :=
  ⟨rfl, rfl, rfl, fun _ => ⟨rfl, rfl, rfl, rfl⟩, fun _ => ⟨rfl, rfl, rfl⟩⟩

theorem SameCounts.trans {s t u : System} (h : SameCounts s t) (h' : SameCounts t u) :
    SameCounts s u where
  poolCount := h'.poolCount.trans h.poolCount
  bufferCount := h'.bufferCount.trans h.bufferCount
  stack := h'.stack.trans h.stack
  pools p := by
    obtain ⟨a1, a2, a3, a4⟩ := h.pools p
    obtain ⟨b1, b2, b3, b4⟩ := h'.pools p
    exact ⟨b1.trans a1, b2.trans a2, b3.trans a3, b4.trans a4⟩
  buffers b := by
    obtain ⟨a1, a2, a3⟩ := h.buffers b
    obtain ⟨b1, b2, b3⟩ := h'.buffers b
    exact ⟨b1.trans a1, b2.trans a2, b3.trans a3⟩

theorem SameCounts.modifyBuffer (s : System) (b : ℕ) (f : Buffer → Buffer)
    (h : (f (s.buffers b)).pool = (s.buffers b).pool ∧ (f (s.buffers b)).listed = (s.buffers b).listed ∧
      (f (s.buffers b)).referenceCount = (s.buffers b).referenceCount) :
    SameCounts s (s.modifyBuffer b f) := by
  refine ⟨rfl, rfl, rfl, fun _ => ⟨rfl, rfl, rfl, rfl⟩, fun c => ?_⟩
  by_cases hc : c = b
  · subst hc
    simpa [System.modifyBuffer] using h
  · simp [System.modifyBuffer, Function.update_of_ne hc]

theorem SameCounts.modifyPool (s : System) (p : ℕ) (f : BufferPool → BufferPool)
    (h : (f (s.pools p)).referenceCount = (s.pools p).referenceCount ∧
      (f (s.pools p)).countOfReferencedBuffers = (s.pools p).countOfReferencedBuffers ∧
      (f (s.pools p)).freeBuffer = (s.pools p).freeBuffer ∧
      (f (s.pools p)).numberOfBuffers = (s.pools p).numberOfBuffers) :
    SameCounts s (s.modifyPool p f) := by
  refine ⟨rfl, rfl, rfl, fun q => ?_, fun _ => ⟨rfl, rfl, rfl⟩⟩
  by_cases hq : q = p
  · subst hq
    simpa [System.modifyPool] using h
  · simp [System.modifyPool, Function.update_of_ne hq]

variable {s s' : System}

theorem Counted.congr (h : s.Counted) (e : SameCounts s s') : s'.Counted := by
  have hw : ∀ p, total s'.bufferCount (referencesIn p) s'.buffers =
      total s.bufferCount (referencesIn p) s.buffers := fun p => by
    rw [e.bufferCount]
    exact total_congr fun i _ => by
      obtain ⟨e1, e2, e3⟩ := e.buffers i
      simp only [referencesIn, e1, e2, e3]
  have hw' : ∀ p, total s'.bufferCount (s'.occupied p) id = total s.bufferCount (s.occupied p) id :=
    fun p => by
    rw [e.bufferCount]
    exact total_congr fun i _ => by
      obtain ⟨e1, e2, e3⟩ := e.buffers i
      simp only [occupied, id, e1, e2, e3, e.stack]
  have hw'' : ∀ p, total s'.bufferCount (recordIn p) s'.buffers =
      total s.bufferCount (recordIn p) s.buffers := fun p => by
    rw [e.bufferCount]
    exact total_congr fun i _ => by
      obtain ⟨e1, e2, -⟩ := e.buffers i
      simp only [recordIn, e1, e2]
  refine ⟨fun b hb => ?_, fun b hb => ?_, fun p hp => ?_, fun p hp => ?_, fun b hb => ?_,
    fun p hp b hb => ?_, fun p hp hN => ?_, fun p hp hN => ?_, fun p hp => ?_⟩
  · rw [(e.buffers b).2.1] at hb
    rw [e.bufferCount, e.poolCount, (e.buffers b).1]
    exact h.listed b hb
  · rw [(e.buffers b).2.1] at hb
    rw [(e.buffers b).2.2, e.stack]
    exact h.unlisted b hb
  · rw [e.poolCount] at hp
    rw [(e.pools p).1, hw]
    exact h.references p hp
  · rw [e.poolCount] at hp
    rw [(e.pools p).2.1, hw']
    exact h.referenced p hp
  · rw [(e.buffers b).2.1] at hb
    have := h.place b hb
    unfold poolOf at this ⊢
    rw [(e.buffers b).1, (e.pools _).2.2.1, e.stack, (e.buffers b).2.2]
    exact this
  · rw [e.poolCount] at hp
    rw [(e.pools p).2.2.1] at hb
    rw [(e.buffers b).1, (e.buffers b).2.1]
    exact h.ring p hp b hb
  · rw [e.poolCount] at hp
    rw [(e.pools p).2.2.2] at hN ⊢
    rw [hw'']
    exact h.records p hp hN
  · rw [e.poolCount] at hp
    rw [(e.pools p).2.2.2] at hN
    rw [(e.pools p).2.2.1]
    exact h.unlimited p hp hN
  · rw [e.poolCount] at hp
    rw [(e.pools p).1, (e.pools p).2.1]
    exact h.fits p hp

/-! ### Changing one record -/

/-- What it takes to change one record `b` of pool `p` together with the pool, the ring and the
stack: the counters of the pool follow the record, and the record has one place. -/
structure Change (s s' : System) (p b : ℕ) : Prop where
  poolCount : s'.poolCount = s.poolCount
  bufferCount : s.bufferCount ≤ s'.bufferCount ∧ b < s'.bufferCount
  pool_lt : p < s.poolCount
  pool_eq : (s'.buffers b).pool = p ∧ ((s.buffers b).listed = true → (s.buffers b).pool = p)
  buffers : ∀ c, c ≠ b → s'.buffers c = s.buffers c
  pools : ∀ q, q ≠ p → s'.pools q = s.pools q
  references : (s'.pools p).referenceCount + referencesIn p (s.buffers b) =
    (s.pools p).referenceCount + referencesIn p (s'.buffers b)
  referenced : (s'.pools p).countOfReferencedBuffers + s.occupied p b =
    (s.pools p).countOfReferencedBuffers + s'.occupied p b
  stack : ∀ c, c ≠ b → s'.stack.count c = s.stack.count c
  ring : ∀ c, c ≠ b → (s'.pools p).freeBuffer.count c = (s.pools p).freeBuffer.count c
  place : (s'.pools p).freeBuffer.count b + s'.stack.count b +
    (if (s'.buffers b).referenceCount = 0 then 0 else 1) = if (s'.buffers b).listed then 1 else 0
  numberOfBuffers : (s'.pools p).numberOfBuffers = (s.pools p).numberOfBuffers
  records : (s.pools p).numberOfBuffers ≠ notSpecified → (s'.buffers b).listed = (s.buffers b).listed
  unlimited : (s.pools p).numberOfBuffers = notSpecified → (s'.pools p).freeBuffer = []
  fits : (s'.pools p).referenceCount < 2 ^ 32 ∧ (s'.pools p).countOfReferencedBuffers < 2 ^ 32

variable {p b : ℕ}

theorem Counted.change (h : s.Counted) (e : Change s s' p b) :
    s'.Counted := by
  have hmem : ∀ c, c ≠ b → (c ∈ s'.stack ↔ c ∈ s.stack) := fun c hc => by
    rw [← List.count_pos_iff, ← List.count_pos_iff, e.stack c hc]
  -- the totals over the longer table
  have hlong : ∀ (w : Buffer → ℕ), (∀ buf : Buffer, buf.listed = false → w buf = 0) →
      total s'.bufferCount w s.buffers = total s.bufferCount w s.buffers := fun w hw =>
    total_of_le e.bufferCount.1 fun i hi => hw _ (by
      by_contra hne
      have := (h.listed i (by simpa using hne)).1
      omega)
  have hocc : ∀ q, total s'.bufferCount (s.occupied q) id = total s.bufferCount (s.occupied q) id :=
    fun q => total_of_le e.bufferCount.1 fun i hi => by
      refine if_neg fun hl => ?_
      have := (h.listed i hl.1).1
      omega
  have hother : ∀ q, q ≠ p → referencesIn q (s'.buffers b) = 0 ∧ referencesIn q (s.buffers b) = 0 ∧
      recordIn q (s'.buffers b) = 0 ∧ recordIn q (s.buffers b) = 0 ∧ s'.occupied q b = 0 ∧
      s.occupied q b = 0 := by
    intro q hq
    have h1 : ¬ ((s'.buffers b).listed = true ∧ (s'.buffers b).pool = q) := fun hl =>
      hq (hl.2.symm.trans e.pool_eq.1)
    have h2 : ¬ ((s.buffers b).listed = true ∧ (s.buffers b).pool = q) := fun hl =>
      hq (hl.2.symm.trans (e.pool_eq.2 hl.1))
    exact ⟨if_neg h1, if_neg h2, if_neg h1, if_neg h2, if_neg h1, if_neg h2⟩
  have hrefs : ∀ q, total s'.bufferCount (referencesIn q) s'.buffers + referencesIn q (s.buffers b) =
      total s.bufferCount (referencesIn q) s.buffers + referencesIn q (s'.buffers b) := fun q => by
    rw [← hlong _ fun buf hb => by simp [referencesIn, hb]]
    exact total_change e.bufferCount.2 fun c hc => by rw [e.buffers c hc]
  have hrecs : ∀ q, total s'.bufferCount (recordIn q) s'.buffers + recordIn q (s.buffers b) =
      total s.bufferCount (recordIn q) s.buffers + recordIn q (s'.buffers b) := fun q => by
    rw [← hlong _ fun buf hb => by simp [recordIn, hb]]
    exact total_change e.bufferCount.2 fun c hc => by rw [e.buffers c hc]
  have hoccs : ∀ q, total s'.bufferCount (s'.occupied q) id + s.occupied q b =
      total s.bufferCount (s.occupied q) id + s'.occupied q b := fun q => by
    rw [← hocc]
    have hsame : ∀ c, c ≠ b → s'.occupied q (id c) = s.occupied q (id c) := fun c hc => by
      simp only [occupied, id, e.buffers c hc, e.stack c hc]
    exact total_change e.bufferCount.2 hsame
  refine ⟨fun c hc => ?_, fun c hc => ?_, fun q hq => ?_, fun q hq => ?_, fun c hc => ?_,
    fun q hq c hc => ?_, fun q hq hN => ?_, fun q hq hN => ?_, fun q hq => ?_⟩
  · by_cases hcb : c = b
    · subst hcb
      exact ⟨e.bufferCount.2, by rw [e.pool_eq.1, e.poolCount]; exact e.pool_lt⟩
    · rw [e.buffers c hcb] at hc ⊢
      obtain ⟨h1, h2⟩ := h.listed c hc
      exact ⟨by have := e.bufferCount.1; omega, by rw [e.poolCount]; exact h2⟩
  · by_cases hcb : c = b
    · subst hcb
      have := e.place
      rw [hc] at this
      simp only [Bool.false_eq_true, if_false] at this
      refine ⟨?_, fun hm => ?_⟩
      · by_contra hne
        rw [if_neg hne] at this
        omega
      · have := List.count_pos_iff.mpr hm
        omega
    · rw [e.buffers c hcb] at hc ⊢
      rw [hmem c hcb]
      exact h.unlisted c hc
  · have h1 := hrefs q
    rw [e.poolCount] at hq
    by_cases hqp : q = p
    · subst hqp
      have h2 := h.references q hq
      have h3 := e.references
      omega
    · obtain ⟨o1, o2, -⟩ := hother q hqp
      rw [e.pools q hqp, h.references q hq]
      omega
  · have h1 := hoccs q
    rw [e.poolCount] at hq
    by_cases hqp : q = p
    · subst hqp
      have h2 := h.referenced q hq
      have h3 := e.referenced
      omega
    · obtain ⟨-, -, -, -, o1, o2⟩ := hother q hqp
      rw [e.pools q hqp, h.referenced q hq]
      omega
  · by_cases hcb : c = b
    · subst hcb
      have := e.place
      rw [hc, if_pos rfl] at this
      unfold poolOf
      rw [e.pool_eq.1]
      exact this
    · rw [e.buffers c hcb] at hc
      have h1 := h.place c hc
      unfold poolOf at h1 ⊢
      rw [e.buffers c hcb, e.stack c hcb]
      by_cases hp : (s.buffers c).pool = p
      · rw [hp] at h1 ⊢
        rw [e.ring c hcb]
        exact h1
      · rw [e.pools _ hp]
        exact h1
  · rw [e.poolCount] at hq
    by_cases hqp : q = p
    · subst hqp
      by_cases hcb : c = b
      · subst hcb
        refine ⟨?_, e.pool_eq.1⟩
        by_contra hne
        have h1 := e.place
        rw [if_neg hne] at h1
        have := List.count_pos_iff.mpr hc
        omega
      · rw [e.buffers c hcb]
        refine h.ring q hq c (List.count_pos_iff.mp ?_)
        rw [← e.ring c hcb]
        exact List.count_pos_iff.mpr hc
    · rw [e.pools q hqp] at hc
      obtain ⟨h1, h2⟩ := h.ring q hq c hc
      by_cases hcb : c = b
      · subst hcb
        exact absurd (h2.symm.trans (e.pool_eq.2 h1)) hqp
      · rw [e.buffers c hcb]
        exact ⟨h1, h2⟩
  · have h1 := hrecs q
    rw [e.poolCount] at hq
    by_cases hqp : q = p
    · subst hqp
      rw [e.numberOfBuffers] at hN ⊢
      have h2 := h.records q hq hN
      have h3 : recordIn q (s'.buffers b) = recordIn q (s.buffers b) := by
        have h4 := e.records hN
        unfold recordIn
        rw [h4, e.pool_eq.1]
        by_cases hl : (s.buffers b).listed = true
        · rw [e.pool_eq.2 hl]
        · rw [if_neg fun hh => hl hh.1, if_neg fun hh => hl hh.1]
      omega
    · obtain ⟨-, -, o1, o2, -⟩ := hother q hqp
      rw [e.pools q hqp] at hN ⊢
      rw [← h.records q hq hN]
      omega
  · rw [e.poolCount] at hq
    by_cases hqp : q = p
    · subst hqp
      exact e.unlimited (e.numberOfBuffers ▸ hN)
    · rw [e.pools q hqp] at hN ⊢
      exact h.unlimited q hq hN
  · rw [e.poolCount] at hq
    by_cases hqp : q = p
    · exact hqp ▸ e.fits
    · exact (e.pools q hqp).symm ▸ h.fits q hq

/-! ### Taking and dropping references -/

namespace Counted
variable {s : System} (h : s.Counted)
include h

variable {b owner : ℕ}

theorem listed_of_ne_zero (hb : (s.buffers b).referenceCount ≠ 0) :
    (s.buffers b).listed = true := by
  by_contra hne
  exact hb (h.unlisted b (by simpa using hne)).1

theorem listed_of_mem_stack (hmem : b ∈ s.stack) : (s.buffers b).listed = true := by
  by_contra hne
  exact (h.unlisted b (by simpa using hne)).2 hmem

theorem apart (hb : (s.buffers b).referenceCount ≠ 0) :
    (s.pools (s.buffers b).pool).freeBuffer.count b = 0 ∧ s.stack.count b = 0 := by
  have := h.place b (h.listed_of_ne_zero hb)
  rw [if_neg hb, poolOf] at this
  omega

theorem unreferenced (hplace : b ∈ (s.pools (s.buffers b).pool).freeBuffer ∨ b ∈ s.stack) :
    (s.buffers b).referenceCount = 0 := by
  by_contra hne
  obtain ⟨hring, hstack⟩ := h.apart hne
  rcases hplace with hmem | hmem
  · exact List.count_eq_zero.mp hring hmem
  · exact List.count_eq_zero.mp hstack hmem

/-- The references on a buffer are among those that its pool counts. -/
theorem referenceCount_le (hl : (s.buffers b).listed = true) :
    (s.buffers b).referenceCount ≤ (s.poolOf b).referenceCount := by
  obtain ⟨hlt, hp⟩ := h.listed b hl
  rw [poolOf, h.references _ hp]
  have := le_total hlt (referencesIn (s.buffers b).pool) s.buffers
  rwa [referencesIn, if_pos ⟨hl, rfl⟩] at this

/-- Outside a release every buffer that is counted as referenced has a reference. -/
theorem referenced_le (hr : s.releasing = []) {p : ℕ} (hp : p < s.poolCount) :
    (s.pools p).countOfReferencedBuffers ≤ (s.pools p).referenceCount := by
  rw [h.references p hp, h.referenced p hp]
  refine Finset.sum_le_sum fun b _ => ?_
  simp only [occupied, referencesIn, id, stack, hr, List.map_nil, List.count_nil, Nat.zero_add]
  split_ifs <;> omega

theorem increment_eq (hb : (s.buffers b).referenceCount ≠ 0)
    (hroom : (s.poolOf b).referenceCount + 1 < 2 ^ 32) :
    u32 ((s.buffers b).referenceCount + 1) = (s.buffers b).referenceCount + 1 := by
  have hle := h.referenceCount_le (h.listed_of_ne_zero hb)
  exact u32_of_lt (by omega)

variable {st : BufferStatus} {s' : System}

theorem incrementReferenceCount (hroom : (s.poolOf b).referenceCount + 1 < 2 ^ 32)
    (he : s.incrementReferenceCount b owner = some (st, s')) : s'.Counted := by
  obtain ⟨hb, owners, rfl⟩ := incrementReferenceCount_some he
  have hl := h.listed_of_ne_zero hb
  obtain ⟨hlt, hp⟩ := h.listed b hl
  obtain ⟨ha1, ha2⟩ := h.apart hb
  have hbuffer := h.increment_eq hb hroom
  have hpool : u32 ((s.pools (s.buffers b).pool).referenceCount + 1) =
      (s.pools (s.buffers b).pool).referenceCount + 1 := u32_of_lt hroom
  refine h.change (p := (s.buffers b).pool) (b := b) ⟨rfl, ⟨le_rfl, hlt⟩, hp, ?_, ?_, ?_, ?_, ?_, ?_, ?_,
    ?_, ?_, ?_, ?_, ?_⟩
  · simp
  · intro c hc; simp [hc]
  · intro q hq; simp [hq]
  · simp [referencesIn, hl, hbuffer, hpool]; omega
  · simp [occupied, hl, stack, hb, hbuffer]
  · intro c _; rfl
  · intro c _; simp
  · simpa [hl, stack, hbuffer] using ⟨ha1, ha2⟩
  · simp
  · simp
  · intro hN
    simpa using h.unlimited _ hp hN
  · simpa [hpool] using ⟨hroom, (h.fits _ hp).2⟩

theorem decrementReferenceCount
    (he : s.decrementReferenceCount b owner = some (st, s')) : s'.Counted := by
  obtain ⟨hb, owners, hcase⟩ := decrementReferenceCount_some he
  have hl := h.listed_of_ne_zero hb
  obtain ⟨hlt, hp⟩ := h.listed b hl
  obtain ⟨ha1, ha2⟩ := h.apart hb
  obtain ⟨hfit, hfits⟩ := h.fits _ hp
  have hpos : (s.buffers b).referenceCount ≤ (s.pools (s.buffers b).pool).referenceCount :=
    h.referenceCount_le hl
  have hpool := sub32_one (by omega) hfit
  rcases hcase with ⟨hone, rfl⟩ | ⟨hone, rfl⟩
  · refine h.change (p := (s.buffers b).pool) (b := b) ⟨rfl, ⟨le_rfl, hlt⟩, hp, ?_, ?_, ?_, ?_, ?_, ?_,
      ?_, ?_, ?_, ?_, ?_, ?_⟩
    · simp [dropReference]
    · intro c hc; simp [dropReference, hc]
    · intro q hq; simp [dropReference, hq]
    · simp [dropReference, referencesIn, hl, hpool]; omega
    · simp [dropReference, occupied, hl, stack, hone]
    · intro c hc; simp [stack, hc.symm]
    · intro c _; simp [dropReference]
    · have ha2' : (s.releasing.map Frame.buffer).count b = 0 := ha2
      simp [dropReference, hl, stack, hone, ha1, ha2']
    · simp [dropReference]
    · simp [dropReference]
    · intro hN
      simpa [dropReference] using h.unlimited _ hp hN
    · simp only [dropReference, modifyBuffer_pools, modifyPool_pools_self, hpool]
      omega
  · have hne : (s.buffers b).referenceCount - 1 ≠ 0 := by omega
    refine h.change (p := (s.buffers b).pool) (b := b) ⟨rfl, ⟨le_rfl, hlt⟩, hp, ?_, ?_, ?_, ?_, ?_, ?_,
      ?_, ?_, ?_, ?_, ?_, ?_⟩
    · simp [dropReference]
    · intro c hc; simp [dropReference, hc]
    · intro q hq; simp [dropReference, hq]
    · simp [dropReference, referencesIn, hl, hpool]; omega
    · simp [dropReference, occupied, hl, stack, hb, hne]
    · intro c _; rfl
    · intro c _; simp [dropReference]
    · simpa [dropReference, hl, stack, hne] using ⟨ha1, ha2⟩
    · simp [dropReference]
    · simp [dropReference]
    · intro hN
      simpa [dropReference] using h.unlimited _ hp hN
    · simp only [dropReference, modifyBuffer_pools, modifyPool_pools_self, hpool]
      omega

theorem ring_length_lt (hl : (s.buffers b).listed = true) (hb : (s.poolOf b).freeBuffer.count b = 0)
    (hN : (s.poolOf b).numberOfBuffers ≠ notSpecified) :
    (s.poolOf b).freeBuffer.length < (s.poolOf b).numberOfBuffers := by
  obtain ⟨hlt, hp⟩ := h.listed b hl
  have hmem : b ∉ (s.poolOf b).freeBuffer := List.count_eq_zero.mp hb
  have hnodup : (s.poolOf b).freeBuffer.Nodup := by
    rw [List.nodup_iff_count_le_one]
    intro c
    by_cases hc : c ∈ (s.poolOf b).freeBuffer
    · obtain ⟨h1, h2⟩ := h.ring _ hp c hc
      have := h.place c h1
      unfold poolOf at this ⊢
      rw [h2] at this
      omega
    · rw [List.count_eq_zero.mpr hc]
      exact Nat.zero_le 1
  have hle := length_le_total (n := s.bufferCount) (l := b :: (s.poolOf b).freeBuffer)
    (P := fun buf : Buffer => buf.listed = true ∧ buf.pool = (s.buffers b).pool) (f := s.buffers)
    (List.nodup_cons.mpr ⟨hmem, hnodup⟩) fun c hc => by
      rcases List.mem_cons.mp hc with rfl | hc
      · exact ⟨hlt, hl, rfl⟩
      · obtain ⟨h1, h2⟩ := h.ring _ hp c hc
        exact ⟨(h.listed c h1).1, h1, h2⟩
  have := h.records _ hp hN
  rw [List.length_cons] at hle
  unfold recordIn at this
  unfold poolOf at hle ⊢
  omega

/-- The innermost release ends: its record leaves the stack for the ring, or is deleted. -/
theorem finish {rest : List Frame} {f : Frame} (hf : s.releasing = f :: rest)
    (hb : f.buffer = b) : (finishRelease { s with releasing := rest } b).2.Counted := by
  have hmem : b ∈ s.stack := by simp [stack, hf, hb]
  have hl := h.listed_of_mem_stack hmem
  obtain ⟨hlt, hp⟩ := h.listed b hl
  have hplace := h.place b hl
  have hcount : s.stack.count b = (rest.map Frame.buffer).count b + 1 := by simp [stack, hf, hb]
  have hrc := h.unreferenced (.inr hmem)
  have hpos : 1 ≤ (s.pools (s.buffers b).pool).countOfReferencedBuffers := by
    rw [h.referenced _ hp]
    have := le_total hlt (s.occupied (s.buffers b).pool) id
    simp only [id, occupied, hl, true_and, if_true] at this
    omega
  obtain ⟨hfit, hfits⟩ := h.fits _ hp
  have hcountOf := sub32_one hpos hfits
  have hfin := finishRelease_finishes (s := { s with releasing := rest }) (b := b) hl
  obtain ⟨count, hpool⟩ := hfin.pool
  have hbuf := hfin.buffer
  generalize (finishRelease { s with releasing := rest } b).2 = s' at *
  simp only [poolOf] at hplace hpool hbuf
  have hstack : s'.stack = rest.map Frame.buffer := by rw [stack, hfin.releasing]
  have hring : (s.pools (s.buffers b).pool).freeBuffer.count b = 0 := by omega
  have hroom : (s.pools (s.buffers b).pool).numberOfBuffers ≠ notSpecified →
      (s.pools (s.buffers b).pool).freeBuffer.length ≠ (s.pools (s.buffers b).pool).numberOfBuffers :=
    fun hN => ne_of_lt (h.ring_length_lt hl hring hN)
  refine h.change (p := (s.buffers b).pool) (b := b) ⟨hfin.poolCount, ?_, hp, ?_, hfin.buffers, hfin.pools,
    ?_, ?_, ?_, ?_, ?_, ?_, ?_, ?_, ?_⟩
  · rw [hfin.bufferCount]; exact ⟨le_rfl, hlt⟩
  · rw [hbuf]; exact ⟨rfl, fun _ => rfl⟩
  · rw [hpool, hbuf]; simp [referencesIn, hrc]
  · simp only [occupied, hstack, hcount, hl, hrc, hpool, hbuf, hcountOf]
    by_cases hN : (s.pools (s.buffers b).pool).numberOfBuffers = notSpecified
    · simp [hN]; omega
    · simp [hN]; omega
  · intro c hc; rw [hstack]; simp [stack, hf, hb, hc.symm]
  · intro c hc
    rw [hpool]
    by_cases hN : (s.pools (s.buffers b).pool).numberOfBuffers = notSpecified
    · simp [hN]
    · simp [hN, hroom hN, hc.symm]
  · rw [hpool, hbuf, hstack]
    by_cases hN : (s.pools (s.buffers b).pool).numberOfBuffers = notSpecified
    · simp [hN, hrc, hring]; omega
    · simp [hN, hrc, hring, hroom hN]; omega
  · rw [hpool]
  · intro hN; rw [hbuf]; simp [hN, hl]
  · intro hN
    rw [hpool]
    simpa [hN] using h.unlimited _ hp hN
  · rw [hpool]
    dsimp only
    omega

end Counted

/-! ### Handing out a record -/

variable {lb nb : Bool}

theorem Obtains.sameCounts {p b n : ℕ} (h : s.Obtains s' p b n lb) :
    SameCounts s s' := by
  rcases h with ⟨-, rfl⟩ | ⟨-, block, alloc, rfl, -⟩
  · exact .modifyBuffer _ _ _ ⟨rfl, rfl, rfl⟩
  · exact (SameCounts.modifyBuffer _ _ _ ⟨rfl, rfl, rfl⟩).trans (.modifyPool _ _ _ ⟨rfl, rfl, rfl, rfl⟩)

theorem SameCounts.handOut (h : SameCounts s s') (p b owner : ℕ) :
    SameCounts (s.handOut p b owner) (s'.handOut p b owner) := by
  refine ⟨h.poolCount, h.bufferCount, h.stack, fun q => ?_, fun c => ?_⟩
  · obtain ⟨e1, e2, e3, e4⟩ := h.pools q
    by_cases hq : q = p
    · subst hq
      simp [System.handOut, e1, e2, e3, e4]
    · simp [System.handOut, hq, e1, e2, e3, e4]
  · obtain ⟨e1, e2, e3⟩ := h.buffers c
    by_cases hc : c = b
    · subst hc
      simp [System.handOut, e1, e2]
    · simp [System.handOut, hc, e1, e2, e3]

variable {env : Environment}

/-- A record taken from the ring, or newly constructed, is handed out. -/
theorem Counted.takeRecord {s t : System} (h : s.Counted)
    (owner : ℕ) (hp : p < s.poolCount) (hr : s.releasing = [])
    (hroom : (s.pools p).referenceCount + 1 < 2 ^ 32)
    (ht : s.takeRecord p nb env = some (.ok (b, t))) : (t.handOut p b owner).Counted := by
  have hle := h.referenced_le hr hp
  have hreferences := u32_of_lt hroom
  have hreferenced : u32 ((s.pools p).countOfReferencedBuffers + 1) =
      (s.pools p).countOfReferencedBuffers + 1 := u32_of_lt (by omega)
  rcases takeRecord_some ht with ⟨hN, rfl, rfl⟩ | ⟨hN, rest, hring, rfl⟩
  · -- a record that no counter knows yet
    have hl : (s.buffers s.bufferCount).listed = false := by
      by_contra hne
      have := (h.listed _ (by simpa using hne)).1
      omega
    obtain ⟨-, hst⟩ := h.unlisted _ hl
    have hst' : (s.releasing.map Frame.buffer).count s.bufferCount = 0 := List.count_eq_zero.mpr hst
    have hring := h.unlimited p hp hN
    refine h.change (p := p) (b := s.bufferCount) ⟨rfl, ⟨Nat.le_succ _, Nat.lt_succ_self _⟩, hp, ?_, ?_, ?_, ?_,
      ?_, ?_, ?_, ?_, ?_, ?_, ?_, ?_⟩
    · simp [System.handOut, Buffer.create, hl]
    · intro c hc; simp [System.handOut, hc]
    · intro q hq; simp [System.handOut, modifyPool, modifyBuffer, hq]
    · simp [System.handOut, modifyPool, modifyBuffer, referencesIn, hl, Buffer.create, hreferences]
    · simp [System.handOut, modifyPool, modifyBuffer, occupied, hl, Buffer.create, stack, hst', hreferenced]
    · intro c _; rfl
    · intro c _; simp [System.handOut, modifyPool, modifyBuffer]
    · simp [System.handOut, modifyPool, modifyBuffer, Buffer.create, hring, stack, hst']
    · simp [System.handOut, modifyPool, modifyBuffer]
    · intro hN'; exact absurd hN hN'
    · intro _; simpa [System.handOut, modifyPool, modifyBuffer] using hring
    · simp [System.handOut, modifyPool, modifyBuffer, hreferences, hreferenced]; omega
  · have hmem : b ∈ (s.pools p).freeBuffer := by simp [hring]
    obtain ⟨hl, hpool⟩ := h.ring p hp b hmem
    obtain ⟨hlt, -⟩ := h.listed b hl
    have hplace := h.place b hl
    rw [poolOf, hpool, hring, List.count_cons_self] at hplace
    have hst : (s.releasing.map Frame.buffer).count b = 0 := by unfold stack at hplace; omega
    have hrest : rest.count b = 0 := by omega
    have hrc := h.unreferenced (.inl (hpool.symm ▸ hmem))
    refine h.change (p := p) (b := b) ⟨rfl, ⟨le_rfl, hlt⟩, hp, ?_, ?_, ?_, ?_, ?_, ?_, ?_, ?_, ?_, ?_, ?_, ?_⟩
    · simp [System.handOut, hpool]
    · intro c hc; simp [System.handOut, hc]
    · intro q hq; simp [System.handOut, hq]
    · simp [System.handOut, referencesIn, hl, hpool, hrc, hreferences]
    · simp [System.handOut, occupied, hl, hpool, stack, hst, hrc, hreferenced]
    · intro c _; rfl
    · intro c hc; simp [System.handOut, hring, hc.symm]
    · simp [System.handOut, hrest, stack, hst, hl]
    · simp [System.handOut]
    · simp [System.handOut]
    · intro hN'; exact absurd hN' hN
    · simp [System.handOut, hreferences, hreferenced]; omega

variable {st : BufferStatus}

theorem Counted.getBuffer (h : s.Counted) {p owner n : ℕ}
    {r : Option ℕ} (hp : p < s.poolCount)
    (hr : s.releasing = []) (hroom : (s.pools p).referenceCount + 1 < 2 ^ 32)
    (he : s.getBuffer p owner n nb lb env = some (st, r, s')) : s'.Counted := by
  rcases getBuffer_some he with ⟨-, -, rfl⟩ | ⟨-, b, t, u, -, ht, hu, rfl⟩
  · exact h
  · have hsame : SameCounts t u := by
      split at hu
      · exact hu.2.sameCounts
      · exact hu ▸ .refl t
    exact (h.takeRecord owner hp hr hroom ht).congr (hsame.handOut p b owner)

/-! ### A new pool -/

/-- The system with a pool whose records are numbered from `s.bufferCount`. -/
theorem Counted.addPool (h : s.Counted) (q : PoolParameters) (itemSize : ℕ) :
    Counted { s with
      pools := Function.update s.pools s.poolCount (q.pool s.bufferCount itemSize)
      poolCount := s.poolCount + 1
      buffers := fun b =>
        if s.bufferCount ≤ b ∧ b < s.bufferCount + q.records then
          { Buffer.create s.poolCount with bufferBlock := ⟨itemSize, 0⟩ }
        else s.buffers b
      bufferCount := s.bufferCount + q.records } := by
  set new : Buffer := { Buffer.create s.poolCount with bufferBlock := ⟨itemSize, 0⟩ } with hnew
  set s' : System := { s with
    pools := Function.update s.pools s.poolCount (q.pool s.bufferCount itemSize)
    poolCount := s.poolCount + 1
    buffers := fun b => if s.bufferCount ≤ b ∧ b < s.bufferCount + q.records then new else s.buffers b
    bufferCount := s.bufferCount + q.records } with hs'
  have hold : ∀ b, b < s.bufferCount → s'.buffers b = s.buffers b := fun b hb => if_neg (by omega)
  have hfresh : ∀ i, i < q.records → s'.buffers (s.bufferCount + i) = new := fun i hi => if_pos (by omega)
  have hcases : ∀ b, (s.bufferCount ≤ b ∧ b < s.bufferCount + q.records ∧ s'.buffers b = new) ∨
      s'.buffers b = s.buffers b := by
    intro b
    by_cases hb : s.bufferCount ≤ b ∧ b < s.bufferCount + q.records
    · exact .inl ⟨hb.1, hb.2, if_pos hb⟩
    · exact .inr (if_neg hb)
  have hstack : ∀ b, s.bufferCount ≤ b → s.stack.count b = 0 := by
    intro b hb
    refine List.count_eq_zero.mpr (h.unlisted b ?_).2
    by_contra hne
    have := (h.listed b (by simpa using hne)).1
    omega
  have hpools : ∀ p, p < s.poolCount → s'.pools p = s.pools p := fun p hp =>
    Function.update_of_ne (by omega) _ _
  have hpool : s'.pools s.poolCount = q.pool s.bufferCount itemSize := Function.update_self ..
  -- no old record belongs to the new pool
  have hnone : ∀ b, (s.buffers b).listed = true → (s.buffers b).pool ≠ s.poolCount := fun b hb => by
    have := (h.listed b hb).2
    omega
  have hsplit : ∀ p, p < s'.poolCount → p < s.poolCount ∨ p = s.poolCount := fun p hp =>
    Nat.lt_succ_iff_lt_or_eq.mp hp
  refine ⟨fun b hb => ?_, fun b hb => ?_, fun p hp => ?_, fun p hp => ?_, fun b hb => ?_,
    fun p hp b hb => ?_, fun p hp hN => ?_, fun p hp hN => ?_, fun p hp => ?_⟩
  · rcases hcases b with ⟨-, h2, e⟩ | e
    · exact ⟨h2, by rw [e]; exact Nat.lt_succ_self _⟩
    · rw [e] at hb ⊢
      obtain ⟨h1, h2⟩ := h.listed b hb
      exact ⟨Nat.lt_add_right _ h1, Nat.lt_succ_of_lt h2⟩
  · rcases hcases b with ⟨-, -, e⟩ | e
    · rw [e] at hb; cases hb
    · rw [e] at hb ⊢
      exact h.unlisted b hb
  · rcases hsplit p hp with hp | rfl
    · rw [hpools p hp, h.references p hp]
      refine (total_extend (c := 0) (fun b hb => by rw [hold b hb]) fun i hi => ?_).symm
      rw [hfresh i hi]
      simp [referencesIn, hnew, Buffer.create]
    · rw [hpool]
      refine (total_eq_zero fun b _ => ?_).symm
      rcases hcases b with ⟨-, -, e⟩ | e
      · rw [e]; simp [referencesIn, hnew, Buffer.create]
      · rw [e]; exact if_neg fun hb => hnone b hb.1 hb.2
  · rcases hsplit p hp with hp | rfl
    · rw [hpools p hp, h.referenced p hp]
      refine (total_extend (c := 0) (fun b hb => ?_) fun i hi => ?_).symm
      · simp only [id, occupied, hold b hb, stack]
        rfl
      · simp only [id, occupied, hfresh i hi]
        exact if_neg fun hb => by have : s.poolCount = p := hb.2; omega
    · rw [hpool]
      refine (total_eq_zero fun b _ => ?_).symm
      rcases hcases b with ⟨h1, -, e⟩ | e
      · have h2 : s'.stack.count b = 0 := hstack b h1
        simp [occupied, e, h2, hnew, Buffer.create]
      · simp only [id, occupied, e]
        exact if_neg fun hb => hnone b hb.1 hb.2
  · rcases hcases b with ⟨h1, h2, e⟩ | e
    · have h3 : s'.stack.count b = 0 := hstack b h1
      have h4 : (List.range' s.bufferCount q.records).count b = 1 :=
        List.count_eq_one_of_mem List.nodup_range' (List.mem_range'_1.mpr ⟨h1, h2⟩)
      have h5 : s'.poolOf b = q.pool s.bufferCount itemSize := by
        rw [poolOf, e]; exact hpool
      rw [h3, h5, e]
      show (List.range' s.bufferCount q.records).count b + 0 + 0 = 1
      omega
    · rw [e] at hb ⊢
      have h1 : s'.poolOf b = s.poolOf b := by
        rw [poolOf, e, poolOf, hpools _ (h.listed b hb).2]
      rw [h1]
      exact h.place b hb
  · rcases hsplit p hp with hp | rfl
    · rw [hpools p hp] at hb
      obtain ⟨h1, h2⟩ := h.ring p hp b hb
      rw [hold b (h.listed b h1).1]
      exact ⟨h1, h2⟩
    · rw [hpool] at hb
      obtain ⟨h1, h2⟩ := List.mem_range'_1.mp hb
      have e : s'.buffers b = new := if_pos ⟨h1, h2⟩
      rw [e]
      exact ⟨rfl, rfl⟩
  · rcases hsplit p hp with hp | rfl
    · rw [hpools p hp] at hN ⊢
      rw [← h.records p hp hN]
      refine total_extend (c := 0) (fun b hb => by rw [hold b hb]) fun i hi => ?_
      rw [hfresh i hi]
      exact if_neg fun hb => by have : s.poolCount = p := hb.2; omega
    · rw [hpool] at hN ⊢
      have hsum := total_extend (w := recordIn s.poolCount) (f := s.buffers) (v := recordIn s.poolCount)
        (g := s'.buffers) (c := 1) (fun b hb => by rw [hold b hb]) fun i hi => by
          rw [hfresh i hi]
          exact if_pos ⟨rfl, rfl⟩
      have hzero : total s.bufferCount (recordIn s.poolCount) s.buffers = 0 :=
        total_eq_zero fun b _ => if_neg fun hb => hnone b hb.1 hb.2
      have hrec : q.records = q.numberOfBuffers := if_neg hN
      rw [hzero, Nat.zero_add, Nat.mul_one] at hsum
      exact hsum.trans hrec
  · rcases hsplit p hp with hp | rfl
    · rw [hpools p hp] at hN ⊢
      exact h.unlimited p hp hN
    · rw [hpool] at hN ⊢
      have : q.records = 0 := if_pos hN
      show List.range' s.bufferCount q.records = []
      rw [this]
      rfl
  · rcases hsplit p hp with hp | rfl
    · exact (hpools p hp).symm ▸ h.fits p hp
    · rw [hpool]
      exact ⟨Nat.two_pow_pos 32, Nat.two_pow_pos 32⟩

theorem Counted.createPool (h : s.Counted) (q : PoolParameters) (systemMemory : Bool) :
    (s.createPool q systemMemory).2.Counted := by
  unfold System.createPool
  cases hq : q.itemSize systemMemory with
  | error e => exact h
  | ok itemSize => exact h.addPool q itemSize

/-! ### Every call -/

/-- A call that takes a reference finds room for it in the pool's 32-bit count. -/
def RoomToCount (s : System) : Call → Prop
  | .getBuffer p .. => (s.pools p).referenceCount + 1 < 2 ^ 32
  | .partitionBuffer b .. | .incrementReferenceCount b _ | .attachBuffer _ b =>
    (s.poolOf b).referenceCount + 1 < 2 ^ 32
  | _ => True

instance (s : System) : (c : Call) → Decidable (s.RoomToCount c)
  | .getBuffer .. | .partitionBuffer .. | .incrementReferenceCount .. | .attachBuffer .. =>
    inferInstanceAs (Decidable (_ < _))
  | .createPool .. | .setUsedDataSize .. | .shrinkBuffer .. | .extendBuffer .. | .registerDataReference ..
  | .transferOwnership .. | .decrementReferenceCount .. | .detachBuffer .. | .resume => isTrue trivial

variable {c : Call}

theorem Counted.perform (h : s.Counted) (hr : s.releasing = [])
    (hroom : s.RoomToCount c) (he : s.perform c = some (st, s')) : s'.Counted := by
  cases c with
  | createPool q systemMemory =>
    simp only [System.perform] at he
    split_ifs at he
    have e : (s.createPool q systemMemory).2 = s' := congrArg Prod.snd (Option.some.inj he)
    rw [← e]
    exact h.createPool q systemMemory
  | getBuffer p owner n nb lb env =>
    simp only [System.perform] at he
    split_ifs at he with hp
    obtain ⟨r, hget, e⟩ := Option.map_eq_some_iff.mp he
    rw [← (Prod.mk.inj e).2]
    exact h.getBuffer hp hr hroom hget
  | setUsedDataSize b n =>
    obtain ⟨-, rfl | ⟨-, rfl⟩⟩ := setUsedDataSize_some he
    · exact h
    · exact h.congr ((SameCounts.modifyPool _ _ _ ⟨rfl, rfl, rfl, rfl⟩).trans
        (.modifyBuffer _ _ _ ⟨rfl, rfl, rfl⟩))
  | shrinkBuffer b n =>
    obtain ⟨-, rfl | ⟨-, -, -, -, m, -, ⟨-, a, -, rfl⟩ | ⟨-, rfl⟩⟩⟩ := shrinkBuffer_some he
    · exact h
    · exact h.congr ((SameCounts.modifyBuffer _ _ _ ⟨rfl, rfl, rfl⟩).trans
        (.modifyPool _ _ _ ⟨rfl, rfl, rfl, rfl⟩))
    · exact h.congr (.modifyBuffer _ _ _ ⟨rfl, rfl, rfl⟩)
  | extendBuffer b up =>
    obtain ⟨-, rfl | ⟨-, -, a, r, a', -, -, rfl⟩⟩ := extendBuffer_some he
    · exact h
    · exact h.congr ((SameCounts.modifyBuffer _ _ _ ⟨rfl, rfl, rfl⟩).trans
        (.modifyPool _ _ _ ⟨rfl, rfl, rfl, rfl⟩))
  | partitionBuffer b leave owner nb env =>
    obtain ⟨hb, rfl | ⟨c, t, -, -, hg, rfl⟩⟩ := partitionBuffer_some he
    · exact h
    · have ht := h.getBuffer (h.listed b (h.listed_of_ne_zero hb)).2 hr hroom hg
      unfold splitBlock
      exact ht.congr ((SameCounts.modifyBuffer _ _ _ ⟨rfl, rfl, rfl⟩).trans
        (.modifyBuffer _ _ _ ⟨rfl, rfl, rfl⟩))
  | registerDataReference b n =>
    obtain ⟨-, rfl | ⟨-, rfl⟩⟩ := registerDataReference_some he
    · exact h
    · exact h.congr (.modifyBuffer _ _ _ ⟨rfl, rfl, rfl⟩)
  | transferOwnership b owner0 owner1 =>
    obtain ⟨-, owners, rfl⟩ := transferOwnership_some he
    exact h.congr (.modifyBuffer _ _ _ ⟨rfl, rfl, rfl⟩)
  | incrementReferenceCount b owner => exact h.incrementReferenceCount hroom he
  | decrementReferenceCount b owner => exact h.decrementReferenceCount he
  | attachBuffer b c =>
    obtain ⟨-, rfl | ⟨attached, hi⟩⟩ := attachBuffer_some he
    · exact h
    · exact (h.congr (.modifyBuffer _ _ _ ⟨rfl, rfl, rfl⟩)).incrementReferenceCount
        (by rw [poolOf_modifyBuffer s rfl]; exact hroom) hi
  | detachBuffer b c =>
    obtain ⟨-, rfl | ⟨attached, hd⟩⟩ := detachBuffer_some he
    · exact h
    · exact (h.congr (.modifyBuffer _ _ _ ⟨rfl, rfl, rfl⟩)).decrementReferenceCount hd
  | resume => cases he

/-- One round of the innermost release: the slot is passed over, or the reference of one
attached buffer is dropped, or the release ends. -/
theorem resume_some (he : s.resume = some (st, s')) :
    ∃ f rest, s.releasing = f :: rest ∧
      ((f.slot < maxAttachedBuffers ∧ (s.buffers f.buffer).attachedBuffers.getD f.slot none = none ∧
          s' = { s with releasing := ⟨f.buffer, f.slot + 1⟩ :: rest }) ∨
        (f.slot < maxAttachedBuffers ∧ ∃ c,
          (s.buffers f.buffer).attachedBuffers.getD f.slot none = some c ∧
          (modifyBuffer { s with releasing := ⟨f.buffer, f.slot + 1⟩ :: rest } f.buffer fun buf =>
            { buf with attachedBuffers := buf.attachedBuffers.set f.slot none }).decrementReferenceCount
              c notSpecified = some (st, s')) ∨
        (maxAttachedBuffers ≤ f.slot ∧ s' = (finishRelease { s with releasing := rest } f.buffer).2)) := by
  unfold resume at he
  split at he
  · cases he
  · rename_i f rest hf
    refine ⟨f, rest, hf, ?_⟩
    split at he
    · rename_i hslot
      dsimp only at he
      split at he
      · rename_i hnone
        exact .inl ⟨hslot, hnone, (Prod.mk.inj (Option.some.inj he)).2.symm⟩
      · rename_i c hc
        exact .inr (.inl ⟨hslot, c, hc, he⟩)
    · exact .inr (.inr ⟨by omega, (congrArg Prod.snd (Option.some.inj he)).symm⟩)

theorem Counted.resume (h : s.Counted)
    (he : s.resume = some (st, s')) : s'.Counted := by
  obtain ⟨f, rest, hf, ⟨-, -, rfl⟩ | ⟨-, c, -, hd⟩ | ⟨-, rfl⟩⟩ := resume_some he
  · exact h.congr ⟨rfl, rfl, by simp [stack, hf], fun _ => ⟨rfl, rfl, rfl, rfl⟩, fun _ => ⟨rfl, rfl, rfl⟩⟩
  · have hnext : Counted { s with releasing := ⟨f.buffer, f.slot + 1⟩ :: rest } :=
      h.congr ⟨rfl, rfl, by simp [stack, hf], fun _ => ⟨rfl, rfl, rfl, rfl⟩, fun _ => ⟨rfl, rfl, rfl⟩⟩
    exact (hnext.congr (.modifyBuffer _ _ _ ⟨rfl, rfl, rfl⟩)).decrementReferenceCount hd
  · exact h.finish hf rfl

theorem step_some (hs : s.step c = some s') :
    ∃ st, (s.releasing = [] ∧ s.perform c = some (st, s')) ∨
      (s.releasing ≠ [] ∧ c = .resume ∧ s.resume = some (st, s')) := by
  obtain ⟨r, hr, rfl⟩ := Option.map_eq_some_iff.mp hs
  unfold call at hr
  split_ifs at hr with h1 h2
  · exact ⟨r.1, .inl ⟨h1, hr⟩⟩
  · exact ⟨r.1, .inr ⟨h1, h2, hr⟩⟩

theorem step_counted (h : s.Counted) (hroom : s.RoomToCount c)
    (hs : s.step c = some s') : s'.Counted := by
  obtain ⟨st, ⟨hnone, hp⟩ | ⟨-, -, hr⟩⟩ := step_some hs
  · exact h.perform hnone hroom hp
  · exact h.resume hr

theorem start_counted : start.Counted where
  listed b hb := by cases hb
  unlisted b _ := ⟨rfl, List.not_mem_nil⟩
  references p hp := absurd hp (Nat.not_lt_zero p)
  referenced p hp := absurd hp (Nat.not_lt_zero p)
  place b hb := by cases hb
  ring p hp := absurd hp (Nat.not_lt_zero p)
  records p hp := absurd hp (Nat.not_lt_zero p)
  unlimited p hp := absurd hp (Nat.not_lt_zero p)
  fits p hp := absurd hp (Nat.not_lt_zero p)

variable {calls : List Call}

theorem run_counted (hroom : Lts.Along step RoomToCount start calls)
    (h : Lts.run step start calls = some s) : s.Counted :=
  Lts.run_invariant_along (fun _ _ _ h hroom hs => step_counted h hroom hs) start_counted hroom h

/-! ### Conservation -/

/-- The counters of pool `p` are those of its records, and every record of it is referenced or
once in its ring. -/
structure Conserved (s : System) (p : ℕ) : Prop where
  referenceCount : (s.pools p).referenceCount = total s.bufferCount
    (fun buf => if buf.listed ∧ buf.pool = p then buf.referenceCount else 0) s.buffers
  countOfReferencedBuffers : (s.pools p).countOfReferencedBuffers = total s.bufferCount
    (fun buf => if (buf.listed ∧ buf.pool = p) ∧ buf.referenceCount ≠ 0 then 1 else 0) s.buffers
  place : ∀ b, (s.buffers b).listed = true → (s.buffers b).pool = p →
    ((s.buffers b).referenceCount ≠ 0 ∧ (s.pools p).freeBuffer.count b = 0) ∨
      ((s.buffers b).referenceCount = 0 ∧ (s.pools p).freeBuffer.count b = 1)
  ring : ∀ b ∈ (s.pools p).freeBuffer, (s.buffers b).listed = true ∧ (s.buffers b).pool = p

theorem Counted.conserved (h : s.Counted) (hr : s.releasing = [])
    (hp : p < s.poolCount) : s.Conserved p := by
  have hstack : ∀ b, s.stack.count b = 0 := fun b => by simp [stack, hr]
  refine ⟨h.references p hp, ?_, fun b hl hpool => ?_, h.ring p hp⟩
  · rw [h.referenced p hp]
    refine total_congr fun b _ => ?_
    simp only [id, occupied, hstack, Nat.zero_add]
    by_cases h1 : (s.buffers b).listed = true ∧ (s.buffers b).pool = p
    · by_cases h2 : (s.buffers b).referenceCount = 0 <;> simp [h1, h2]
    · rw [if_neg h1, if_neg fun hh => h1 hh.1]
  · have := h.place b hl
    rw [hstack, poolOf, hpool] at this
    by_cases h2 : (s.buffers b).referenceCount = 0
    · rw [if_pos h2] at this
      exact .inr ⟨h2, by omega⟩
    · rw [if_neg h2] at this
      exact .inl ⟨h2, by omega⟩

/-- **Conservation of references and records.**  After every sequence of calls that counts no more
than `2 ^ 32 - 1` references in a pool, the counters of every pool are those of its records and each
record is referenced or once in the free ring; a `GetBuffer` that returns an error changes nothing. -/
theorem run_conserved {calls : List Call} {s : System} (hroom : Lts.Along step RoomToCount start calls)
    (h : Lts.run step start calls = some s) (hr : s.releasing = []) :
    (∀ p < s.poolCount, s.Conserved p) ∧
      ∀ p owner n nb lb env st r s', s.getBuffer p owner n nb lb env = some (st, r, s') →
        st ≠ .noError → s' = s := by
  refine ⟨fun p hp => (run_counted hroom h).conserved hr hp, fun p owner n nb lb env st r s' hg hst => ?_⟩
  rcases getBuffer_some hg with ⟨-, -, rfl⟩ | ⟨rfl, -⟩
  · rfl
  · exact absurd rfl hst

/-- Two buffers, one attached to the other, and a release that reaches both. -/
theorem run_conserved_attached : ∃ s, Lts.run step start
    [.createPool ⟨⟨.allocateFromSuppliedBlock, 64, false, false, 0⟩, 3, 0x1000, some 0, false, false⟩ true,
      .getBuffer 0 1 100 true false ⟨false, true, true⟩, .getBuffer 0 2 200 true false ⟨false, true, true⟩,
      .attachBuffer 0 1, .decrementReferenceCount 1 2, .decrementReferenceCount 0 1,
      .resume, .resume, .resume, .resume, .resume, .resume, .resume, .resume, .resume, .resume] = some s ∧
    s.releasing = [] ∧ ∀ p < s.poolCount, s.Conserved p := by
  obtain ⟨calls, hcalls⟩ : ∃ calls : List Call, calls =
    [.createPool ⟨⟨.allocateFromSuppliedBlock, 64, false, false, 0⟩, 3, 0x1000, some 0, false, false⟩ true,
      .getBuffer 0 1 100 true false ⟨false, true, true⟩, .getBuffer 0 2 200 true false ⟨false, true, true⟩,
      .attachBuffer 0 1, .decrementReferenceCount 1 2, .decrementReferenceCount 0 1,
      .resume, .resume, .resume, .resume, .resume, .resume, .resume, .resume, .resume, .resume] := ⟨_, rfl⟩
  have hroom : Lts.Along step RoomToCount start calls := by rw [hcalls]; decide +kernel
  have hend : (Lts.run step start calls).map System.releasing = some [] := by rw [hcalls]; decide +kernel
  obtain ⟨s, hs, hr⟩ := Option.map_eq_some_iff.mp hend
  exact ⟨s, hcalls ▸ hs, hr, (run_conserved hroom hs hr).1⟩

/-- References taken one after the other, up to the one that does not fit. -/
theorem run_increments (h : Lts.run step start calls = some s)
    (hr : s.releasing = []) (hb : (s.buffers b).referenceCount ≠ 0)
    (hlt : (s.buffers b).referenceCount < 2 ^ 32) : ∀ n, (s.buffers b).referenceCount + n ≤ 2 ^ 32 →
    ∃ t, Lts.run step start
        (calls ++ List.replicate n (.incrementReferenceCount b notSpecified)) = some t ∧
      t.releasing = [] ∧ t.poolCount = s.poolCount ∧ (t.buffers b).pool = (s.buffers b).pool ∧
      (t.buffers b).listed = (s.buffers b).listed ∧ (t.poolOf b).freeBuffer = (s.poolOf b).freeBuffer ∧
      (t.buffers b).referenceCount = u32 ((s.buffers b).referenceCount + n)
  | 0, _ => ⟨s, by simpa using h, hr, rfl, rfl, rfl, rfl, (u32_of_lt hlt).symm⟩
  | n + 1, hn => by
      obtain ⟨t, ht, hreleasing, hcount, hpool, hlisted, hring, hreference⟩ :=
        run_increments h hr hb hlt n (by omega)
      rw [u32_of_lt (by omega)] at hreference
      have hne : (t.buffers b).referenceCount ≠ 0 := by omega
      rw [List.replicate_succ', ← List.append_assoc, Lts.run_concat, ht, Option.bind_some]
      simp only [step, call, hreleasing, if_pos, perform, System.incrementReferenceCount, if_neg hne]
      refine ⟨_, rfl, hreleasing, hcount, ?_, ?_, ?_, ?_⟩
      · simpa using hpool
      · simpa using hlisted
      · simpa [poolOf] using hring
      · simp only [modifyBuffer_buffers_self, modifyPool_buffers, hreference, Nat.add_assoc]

/-- The reference after `2 ^ 32 - 1` others leaves a buffer that is handed out without a reference. -/
theorem not_conserved_wrapped : ¬ ∀ (calls : List Call) (s : System),
    Lts.run step start calls = some s → s.releasing = [] → ∀ p < s.poolCount, s.Conserved p := by
  intro hall
  have hend : ((Lts.run step start
    [.createPool ⟨⟨.noAllocation, 0, false, false, 0⟩, 1, 0, none, false, false⟩ true,
      .getBuffer 0 5 0 true false ⟨false, true, true⟩]).map fun s => decide (s.releasing = [] ∧
        s.poolCount = 1 ∧ (s.buffers 0).pool = 0 ∧ (s.buffers 0).listed = true ∧
        (s.poolOf 0).freeBuffer = [] ∧ (s.buffers 0).referenceCount = 1)) = some true := by decide +kernel
  obtain ⟨s, hs, hd⟩ := Option.map_eq_some_iff.mp hend
  obtain ⟨hr, hcount, hpool, hlisted, hring, hone⟩ := of_decide_eq_true hd
  obtain ⟨n, hn⟩ : ∃ n, n = 2 ^ 32 - 1 := ⟨_, rfl⟩
  obtain ⟨t, ht, hr', hcount', hpool', hlisted', hring', hreference⟩ :=
    run_increments (b := 0) hs hr (by omega) (by omega) n (by omega)
  have hzero : (t.buffers 0).referenceCount = 0 := by rw [hreference, hone, hn]; rfl
  have hplace := (hall _ t ht hr' 0 (by omega)).place 0
    (hlisted'.trans hlisted) (hpool'.trans hpool)
  rw [poolOf, hpool', hpool] at hring'
  simp [hzero, hring', hring] at hplace

end Player2.System
