import Player2.AntiEmulation
import Player2.Run

/-! # The bound of the anti-emulation buffer

`CheckAntiEmulationBuffer` allows for `ANTI_EMULATION_BUFFER_SIZE - 16` bytes and for the three bytes that its loop
looks ahead, but not for the byte more that it copies for each code it meets.  Whatever is read between the requests,
a run of them stays within the buffer exactly when each one finds room for what it keeps and what it copies, codes
included (`isSome_requests_iff`).

A parameter set is asked for as a whole, and may consist of codes; so may the data behind a short header, of which
the loop copies what was asked for (`not_isSome_requests`). -/

namespace Player2.AntiEmulation.Parser

open EmulationPrevention

/-! ### Requests -/

/-- A request, and what the parser has done with its bit stream since the one before. -/
structure Request where
  reads : (ℕ → UInt8) → BitStream → BitStream
  size : ℕ

/-- The state in which a request is made. -/
def moved (r : Request) (s : Parser) : Parser := { s with bits := r.reads s.mem s.bits }

/-- One request after the reads before it. -/
def request (src : ℕ → UInt8) (base : ℕ) (s : Parser) (r : Request) : Option Parser :=
  (s.moved r).checkAntiEmulationBuffer src base r.size

/-- The requests that the H.264 frame parser makes for a unit. -/
inductive Asked (unitLength : ℕ) : ℕ → Prop
  /-- `DEFAULT_ANTI_EMULATION_REQUEST`, for a slice header. -/
  | slice : Asked unitLength 32
  /-- `REF_LIST_REORDER_ANTI_EMULATION_REQUEST`. -/
  | refListReorder : Asked unitLength 128
  /-- `PRED_WEIGHT_TABLE_ANTI_EMULATION_REQUEST`. -/
  | predWeightTable : Asked unitLength 256
  /-- `MEM_MANAGEMENT_ANTI_EMULATION_REQUEST`. -/
  | memManagement : Asked unitLength 64
  /-- Parameter sets and the container parameters. -/
  | unit : Asked unitLength unitLength
  | supplementalEnhancement : Asked unitLength (min 32 unitLength)
  | payload (payloadSize consumedSize : ℕ) (hpayload : payloadSize ≤ antiEmulationBufferSize - 32)
      (hconsumed : consumedSize ≤ unitLength) :
      Asked unitLength (min (payloadSize + 4) (unitLength + payloadSize - consumedSize))
  | nextPayload (consumedSize : ℕ) (hconsumed : consumedSize ≤ unitLength) :
      Asked unitLength (min 32 (unitLength - consumedSize))

/-! ### Room -/

/-- What is in the buffer when a request starts to copy. -/
def start (base size : ℕ) (s : Parser) : ℕ := if s.antiEmulationContent = 0 then 0 else s.kept base size

/-- A request is refused, finds the buffer gone bad, is satisfied already, or has room behind what is kept for the
bytes that the loop counts and one more for each code that it meets. -/
def Room (src : ℕ → UInt8) (base size : ℕ) (s : Parser) : Prop :=
  let count := size + 3 - s.untouchedBytesInBuffer base
  antiEmulationBufferSize - 16 < size ∨
    (s.antiEmulationContent ≠ 0 ∧
      (s.testAntiEmulationBuffer base = false ∨ size ≤ s.untouchedBytesInBuffer base)) ∨
    s.start base size + count + codes src count s.antiEmulationSource ≤ antiEmulationBufferSize

section
variable {src : ℕ → UInt8} {base j n m size untouched newBase bitsInByte rounds : ℕ} {s s' : Parser}

theorem append_eq_some_iff : (s.append src base n m).isSome ↔ s.antiEmulationContent + n ≤ antiEmulationBufferSize := by
  unfold append
  split <;> simp_all

theorem append_content (h : s.append src base n m = some s') :
    s'.antiEmulationContent = s.antiEmulationContent + n ∧ s'.antiEmulationSource = s.antiEmulationSource + m ∧
      s.antiEmulationContent + n ≤ antiEmulationBufferSize := by
  have hroom := append_eq_some_iff.mp (by rw [h]; rfl)
  unfold append at h
  rw [if_pos hroom] at h
  obtain rfl := Option.some.inj h
  exact ⟨rfl, rfl, hroom⟩

theorem refill_room :
    ∀ rounds j s, s.antiEmulationContent + j + rounds + codes src rounds (s.antiEmulationSource + j) ≤
        antiEmulationBufferSize → (refill src base rounds j s).isSome := by
  intro rounds
  induction rounds with
  | zero => exact fun j s _ => rfl
  | succ rounds ih =>
    intro j s hroom
    rw [codes] at hroom
    rw [refill]
    split at hroom
    next hcode =>
      have hsome : (s.append src base (j + 2) (j + 3)).isSome := append_eq_some_iff.mpr (by omega)
      obtain ⟨t, ht⟩ := Option.isSome_iff_exists.mp hsome
      obtain ⟨hcontent, hsource, -⟩ := append_content ht
      rw [if_pos hcode, ht, Option.bind_some]
      refine ih 0 t ?_
      rw [hcontent, show t.antiEmulationSource + 0 = s.antiEmulationSource + j + 3 by omega]
      omega
    next hcode =>
      rw [if_neg hcode]
      refine ih (j + 1) s ?_
      rw [← Nat.add_assoc s.antiEmulationSource]
      omega

theorem refill_content :
    ∀ rounds j s r, refill src base rounds j s = some r → s.antiEmulationContent ≤ antiEmulationBufferSize →
      r.2.antiEmulationContent + r.1 =
          s.antiEmulationContent + j + rounds + codes src rounds (s.antiEmulationSource + j) ∧
        r.2.antiEmulationContent ≤ antiEmulationBufferSize := by
  intro rounds
  induction rounds with
  | zero =>
    intro j s r h hle
    obtain rfl := Option.some.inj h
    exact ⟨rfl, hle⟩
  | succ rounds ih =>
    intro j s r h hle
    rw [refill] at h
    rw [codes]
    by_cases hcode : CodeAt src (s.antiEmulationSource + j)
    · rw [if_pos hcode] at h ⊢
      obtain ⟨t, ht, hrest⟩ := Option.bind_eq_some_iff.mp h
      obtain ⟨hcontent, hsource, hroom⟩ := append_content ht
      obtain ⟨hsum, hend⟩ := ih 0 t r hrest (by omega)
      refine ⟨?_, hend⟩
      rw [hcontent, show t.antiEmulationSource + 0 = s.antiEmulationSource + j + 3 by omega] at hsum
      omega
    · rw [if_neg hcode] at h ⊢
      obtain ⟨hsum, hend⟩ := ih (j + 1) s r h hle
      rw [← Nat.add_assoc s.antiEmulationSource] at hsum
      exact ⟨by omega, hend⟩

theorem appendRest_isSome_iff (hle : s.antiEmulationContent ≤ antiEmulationBufferSize) :
    (s.appendRest src base j).isSome ↔ s.antiEmulationContent + j ≤ antiEmulationBufferSize := by
  unfold appendRest
  split
  next => exact append_eq_some_iff
  next hzero => exact iff_of_true rfl (by omega)

theorem appendRest_content (h : s.appendRest src base j = some s')
    (hle : s.antiEmulationContent ≤ antiEmulationBufferSize) :
    s'.antiEmulationContent ≤ antiEmulationBufferSize := by
  unfold appendRest at h
  split at h
  next =>
    obtain ⟨hcontent, -, hroom⟩ := append_content h
    omega
  next =>
    obtain rfl := Option.some.inj h
    exact hle

theorem fill_isSome_iff (hle : s.antiEmulationContent ≤ antiEmulationBufferSize) :
    (s.fill src base untouched size newBase bitsInByte).isSome ↔
      s.antiEmulationContent + (size + 3 - untouched) + codes src (size + 3 - untouched) s.antiEmulationSource ≤
        antiEmulationBufferSize := by
  have hroom : _ → (s.refill src base (size + 3 - untouched) 0).isSome = true :=
    refill_room (size + 3 - untouched) 0 s
  unfold fill
  cases hrefill : s.refill src base (size + 3 - untouched) 0 with
  | none =>
    rw [hrefill] at hroom
    simp only [Nat.add_zero, Option.isSome_none, Bool.false_eq_true, imp_false] at hroom
    exact iff_of_false (by simp) hroom
  | some r =>
    obtain ⟨hsum, hend⟩ := refill_content _ _ _ _ hrefill hle
    simp only [Nat.add_zero] at hsum
    rw [Option.bind_some, Option.isSome_map, appendRest_isSome_iff hend, hsum]

theorem fill_content (h : s.fill src base untouched size newBase bitsInByte = some s')
    (hle : s.antiEmulationContent ≤ antiEmulationBufferSize) :
    s'.antiEmulationContent ≤ antiEmulationBufferSize := by
  obtain ⟨r, hrefill, hrest⟩ := Option.bind_eq_some_iff.mp h
  obtain ⟨-, hend⟩ := refill_content _ _ _ _ hrefill hle
  obtain ⟨t, happend, heq⟩ := Option.map_eq_some_iff.mp hrest
  have hcontent := appendRest_content happend hend
  rw [← heq]
  exact hcontent

theorem inByte_le (s : Parser) : s.inByte ≤ 1 := by
  unfold inByte
  split <;> decide

theorem shuffled_le (hsize : ¬ antiEmulationBufferSize - 16 < size) (hmore : ¬ size ≤ s.untouchedBytesInBuffer base) :
    s.untouchedBytesInBuffer base + s.inByte ≤ antiEmulationBufferSize := by
  have hbyte := s.inByte_le
  have hbuffer : antiEmulationBufferSize = 1024 := rfl
  omega

theorem check_isSome_iff (hle : s.antiEmulationContent ≤ antiEmulationBufferSize) :
    (s.checkAntiEmulationBuffer src base size).isSome ↔ Room src base size s := by
  unfold checkAntiEmulationBuffer Room start kept
  by_cases hsize : antiEmulationBufferSize - 16 < size
  · rw [if_pos hsize]
    exact iff_of_true rfl (.inl hsize)
  rw [if_neg hsize]
  by_cases hempty : s.antiEmulationContent = 0
  · have hzero : s.untouchedBytesInBuffer base = 0 := if_neg (not_not_intro hempty)
    rw [if_neg (not_not_intro hempty), fill_isSome_iff hle, if_pos hempty, hzero, hempty]
    simp [hsize]
  rw [if_pos hempty, if_neg hempty]
  by_cases htest : s.testAntiEmulationBuffer base = false
  · rw [if_pos htest]
    exact iff_of_true rfl (.inr (.inl ⟨hempty, .inl htest⟩))
  rw [if_neg htest]
  by_cases henough : size ≤ s.untouchedBytesInBuffer base
  · rw [if_pos henough]
    exact iff_of_true rfl (.inr (.inl ⟨hempty, .inr henough⟩))
  rw [if_neg henough]
  rw [or_iff_right hsize, or_iff_right fun h => h.2.elim htest henough]
  split
  next =>
    refine fill_isSome_iff ?_
    exact shuffled_le hsize henough
  next => exact fill_isSome_iff hle

theorem check_content (h : s.checkAntiEmulationBuffer src base size = some s')
    (hle : s.antiEmulationContent ≤ antiEmulationBufferSize) :
    s'.antiEmulationContent ≤ antiEmulationBufferSize := by
  have hsame : some s = some s' → s'.antiEmulationContent ≤ antiEmulationBufferSize := fun heq => by
    obtain rfl := Option.some.inj heq
    exact hle
  unfold checkAntiEmulationBuffer at h
  by_cases hsize : antiEmulationBufferSize - 16 < size
  · rw [if_pos hsize] at h
    exact hsame h
  rw [if_neg hsize] at h
  by_cases hempty : s.antiEmulationContent = 0
  · rw [if_neg (not_not_intro hempty)] at h
    exact fill_content h hle
  rw [if_pos hempty] at h
  by_cases htest : s.testAntiEmulationBuffer base = false
  · rw [if_pos htest] at h
    exact hsame h
  rw [if_neg htest] at h
  by_cases henough : size ≤ s.untouchedBytesInBuffer base
  · rw [if_pos henough] at h
    exact hsame h
  rw [if_neg henough] at h
  split at h
  next => exact fill_content h (shuffled_le hsize henough)
  next => exact fill_content h hle

/-! ### Runs -/

/-- **The bound**: whatever the source and whatever is read between the requests, nothing is written beyond the
buffer exactly when each request has room. -/
theorem isSome_requests_iff (src : ℕ → UInt8) (base : ℕ) (mem : ℕ → UInt8) (requests : List Request) :
    (Lts.run (request src base) (loadAntiEmulationBuffer base mem) requests).isSome ↔
      Lts.Along (request src base) (fun s r => Room src base r.size (s.moved r)) (loadAntiEmulationBuffer base mem)
        requests := by
  refine Lts.run_isSome_iff_along (J := fun s => s.antiEmulationContent ≤ antiEmulationBufferSize) ?_ ?_
    (Nat.zero_le _)
  · intro s r s' hle h
    exact check_content (s := s.moved r) h hle
  · intro s r hle
    exact check_isSome_iff (s := s.moved r) hle

/-- A parameter set of codes is copied beyond the end of the buffer. -/
theorem not_isSome_requests : ¬ ∀ (src : ℕ → UInt8) (base : ℕ) (mem : ℕ → UInt8) (unitLength : ℕ)
    (requests : List Request), (∀ r ∈ requests, Asked unitLength r.size) →
    (Lts.run (request src base) (loadAntiEmulationBuffer base mem) requests).isSome := by
  intro h
  have hrun := h codesOnly 64 (fun _ => 0) 768 [⟨fun _ bits => bits, 768⟩] (by simpa using Asked.unit)
  revert hrun
  decide +kernel

end

end Player2.AntiEmulation.Parser
