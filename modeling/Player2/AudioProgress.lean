import Player2.AudioMpeg

/-! # Progress of the MPEG audio collator

Every pass of the loop of `HandleElementaryStream` takes a byte, or leads to a state that does, or
ends the recovery of an earlier byte: all but one.  An extension header of length zero sets the
collator back by a whole header, so that the next pass finds the header complete without reading a
byte, examines it again, and so on for ever.

`Framed` is the invariant that the number of header bytes at hand stays below a whole header in
all other cases.  Under it `step` lowers the measure of a configuration, in the lexicographic
order of the data of the outer call, the data that is processed again, and the data of the inner
call with the rank of the state; `returns_iff` states that a call comes back exactly if it does
not meet such a header with data left. -/

namespace Player2.Audio

open Collator

variable {maximum : ℕ}

/-! ### The invariant -/

/-- The last five bytes are an extension header of length zero. -/
def EmptyExtension (bytes : List UInt8) : Prop := parseExtensionHeader (lastBytes 5 bytes) = some 0

/-- The part of a header that is at hand is not the whole of it, save for an empty extension. -/
def Framed (s : Collator) : Prop :=
  match s.collatorState with
  | .seekingSyncWord => True
  | .gotSynchronized => s.gotPartialFrameHeaderBytes < 5
  | .seekingFrameEnd => s.gotPartialFrameHeaderBytes < 5 ∨
      s.gotPartialFrameHeaderBytes = 5 ∧ EmptyExtension s.accumulated
  | .readSubFrame => -5 < s.framePayloadRemaining ∨
      s.framePayloadRemaining = -5 ∧ EmptyExtension s.accumulated
  | .skipSubFrame => False
  | .gotCompleteFrame => -5 < s.framePayloadRemaining

/-- The bytes that the header still needs. -/
def bytesNeeded (s : Collator) : ℕ := 5 - s.gotPartialFrameHeaderBytes

/-- The next pass completes an extension header of length zero, with data left after it. -/
def EmptyExtensionAhead (maximum : ℕ) (c : Config) : Prop :=
  c.collator.collatorState = .seekingFrameEnd ∧
    bytesNeeded c.collator < c.remaining.length ∧
    c.collator.accumulated.length + bytesNeeded c.collator ≤ maximum ∧
    EmptyExtension (c.collator.accumulated ++ c.remaining.take (bytesNeeded c.collator))

instance (maximum : ℕ) (c : Config) : Decidable (EmptyExtensionAhead maximum c) :=
  inferInstanceAs (Decidable (_ ∧ _ ∧ _ ∧ parseExtensionHeader _ = some 0))

/-- The order of the states that do not take a byte. -/
def rank : CollatorState → ℕ
  | .gotSynchronized | .seekingFrameEnd => 0
  | .seekingSyncWord | .readSubFrame | .skipSubFrame => 1
  | .gotCompleteFrame => 2

theorem rank_le (state : CollatorState) : rank state ≤ 2 := by
  cases state <;> decide

/-! ### One pass -/

/-- A pass from `s` and `remaining` keeps the invariant and takes a byte or goes down in rank; a
bad header has taken a byte. -/
def Progresses (s : Collator) (remaining : List UInt8) : Outcome → Prop
  | .more t rest => Framed t ∧ (rest.length < remaining.length ∨
      rest = remaining ∧ rank t.collatorState < rank s.collatorState)
  | .missing _ rest => rest.length < remaining.length
  | .fail status _ => status ≠ .noError

variable {bytes remaining rest : List UInt8}

theorem findSync_lt {i : ℕ} (h : findSync bytes = some i) :
    i + 1 < bytes.length := by
  fun_induction findSync bytes generalizing i with
  | case1 a b bytes hsync =>
    obtain rfl := Option.some.inj h
    simp
  | case2 a b bytes hsync ih =>
    obtain ⟨j, hj, rfl⟩ := Option.map_eq_some_iff.mp h
    have := ih hj
    simp only [List.length_cons] at this ⊢
    omega
  | case3 => exact absurd h (by simp)

variable {e : Setting}

theorem accumulateData_some {s t : Collator}
    (h : s.accumulateData e bytes = some t) :
    s.accumulated.length + bytes.length ≤ e.maximumCodedFrameSize ∧
      t = { s with accumulated := s.accumulated ++ bytes } := by
  unfold accumulateData at h
  split at h
  · exact absurd h (by simp)
  · exact ⟨by omega, (Option.some.inj h).symm⟩

variable {s : Collator}

theorem accumulateData_of_le (h : s.accumulated.length + bytes.length ≤ e.maximumCodedFrameSize) :
    s.accumulateData e bytes = some { s with accumulated := s.accumulated ++ bytes } :=
  if_neg (Nat.not_lt.mpr h)

theorem searchForSyncWord_progresses
    (hstate : s.collatorState = .seekingSyncWord) (hrem : remaining ≠ []) :
    Progresses s remaining (s.searchForSyncWord (mpeg maximum) remaining) := by
  unfold searchForSyncWord
  split
  next codeOffset hfind =>
    dsimp only
    split
    next hpos =>
      refine ⟨by simp [Framed], ?_⟩
      rcases Nat.eq_zero_or_pos codeOffset.toNat with hzero | hlt
      · right
        rw [hzero, List.drop_zero, hstate]
        exact ⟨rfl, Nat.zero_lt_one⟩
      · left
        rw [List.length_drop]
        have := List.length_pos_iff.mpr hrem
        omega
    next hneg =>
      -- only the last byte of the previous data is ever part of the word
      have hone : codeOffset = -1 := by
        change mpegFindNextSyncWord _ _ = _ at hfind
        unfold mpegFindNextSyncWord at hfind
        split at hfind
        · exact (Option.some.inj hfind).symm
        · obtain ⟨i, -, hi⟩ := Option.map_eq_some_iff.mp hfind
          exact absurd (hi ▸ Int.natCast_nonneg _) hneg
      split
      next t hacc =>
        obtain ⟨-, rfl⟩ := accumulateData_some hacc
        refine ⟨?_, .inr ⟨rfl, ?_⟩⟩
        · simp [Framed, hone]
        · rw [hstate]
          exact Nat.zero_lt_one
      next => exact Status.noConfusion
  next =>
    refine ⟨by simp [Framed, hstate], .inl ?_⟩
    exact List.length_pos_iff.mpr hrem

theorem mpegDecideNextState_of_empty {header : List UInt8}
    (h : parseExtensionHeader header = some 0) :
    mpegDecideNextState .seekingFrameEnd header = some (.readSubFrame, 0) := by
  simp [mpegDecideNextState, h]

theorem framed_acceptHeader {next : CollatorState} {length : ℕ}
    (h : mpegDecideNextState s.collatorState (lastBytes 5 s.accumulated) = some (next, length)) :
    Framed (s.acceptHeader (mpeg maximum) next length) := by
  obtain ⟨hnext, hzero⟩ := mpegDecideNextState_cases h
  have hpayload : (s.acceptHeader (mpeg maximum) next length).framePayloadRemaining
      = (length : ℤ) - 5 := rfl
  rcases Nat.eq_zero_or_pos length with rfl | hpos
  · obtain ⟨hstate, hempty⟩ := hzero rfl
    rw [hstate, mpegDecideNextState_of_empty hempty] at h
    obtain ⟨rfl, -⟩ := Prod.mk.inj (Option.some.inj h)
    exact .inr ⟨hpayload, hempty⟩
  · rcases hnext with rfl | rfl
    · left
      omega
    · change -5 < (s.acceptHeader (mpeg maximum) .gotCompleteFrame length).framePayloadRemaining
      omega

variable {recovery : Option Recovery}

theorem emptyExtensionAhead_of_complete (hframed : Framed s)
    (hstate : s.collatorState = .gotSynchronized ∨ s.collatorState = .seekingFrameEnd)
    (hneeded : bytesNeeded s = 0) (hrem : remaining ≠ [])
    (hroom : s.accumulated.length ≤ maximum) :
    EmptyExtensionAhead maximum ⟨s, remaining, recovery⟩ := by
  unfold bytesNeeded at hneeded
  rcases hstate with hstate | hstate
  · simp only [Framed, hstate] at hframed
    omega
  · simp only [Framed, hstate] at hframed
    rcases hframed with hlt | ⟨hgot, hempty⟩
    · omega
    · have hneed : bytesNeeded s = 0 := by
        unfold bytesNeeded
        omega
      refine ⟨hstate, ?_, ?_, ?_⟩
      · rw [hneed]
        exact List.length_pos_iff.mpr hrem
      · rw [hneed]
        exact hroom
      · rw [hneed, List.take_zero, List.append_nil]
        exact hempty

theorem readPartialFrameHeader_progresses (hframed : Framed s)
    (hstate : s.collatorState = .gotSynchronized ∨ s.collatorState = .seekingFrameEnd)
    (hrem : remaining ≠ []) (hahead : ¬ EmptyExtensionAhead maximum ⟨s, remaining, recovery⟩) :
    Progresses s remaining (s.readPartialFrameHeader (mpeg maximum) remaining) := by
  have hlen : 0 < remaining.length := List.length_pos_iff.mpr hrem
  have hbytes : (mpeg maximum).frameHeaderLength - s.gotPartialFrameHeaderBytes = bytesNeeded s := rfl
  unfold readPartialFrameHeader
  dsimp only
  split
  next => exact Status.noConfusion
  next t hacc =>
    obtain ⟨hroom, rfl⟩ := accumulateData_some hacc
    have hneeded : 0 < bytesNeeded s := by
      by_contra hzero
      refine hahead (emptyExtensionAhead_of_complete hframed hstate (by omega) hrem ?_)
      exact le_trans (Nat.le_add_right _ _) hroom
    split
    next hall =>
      have hshort : (remaining.drop (min remaining.length (bytesNeeded s))).length
          < remaining.length := by
        rw [List.length_drop]
        omega
      unfold examineHeader
      split
      next next length hdecide =>
        split
        · exact hshort
        · exact ⟨framed_acceptHeader hdecide, .inl hshort⟩
      next => exact hshort
    next hpart =>
      refine ⟨?_, .inl ?_⟩
      · have hgot : s.gotPartialFrameHeaderBytes + min remaining.length (bytesNeeded s) < 5 := by
          have hdef : bytesNeeded s = 5 - s.gotPartialFrameHeaderBytes := rfl
          omega
        rcases hstate with hstate | hstate
        · simp only [Framed, hstate]
          exact hgot
        · simp only [Framed, hstate]
          exact .inl hgot
      · rw [List.length_drop]
        omega

theorem readFrame_progresses (hframed : Framed s)
    (hstate : s.collatorState = .readSubFrame) (hrem : remaining ≠ []) :
    Progresses s remaining (s.readFrame (mpeg maximum) remaining) := by
  have hlen : 0 < remaining.length := List.length_pos_iff.mpr hrem
  simp only [Framed, hstate] at hframed
  unfold readFrame
  split
  next hneg =>
    refine ⟨?_, .inr ⟨rfl, by rw [hstate]; exact Nat.zero_lt_one⟩⟩
    rcases hframed with hlt | ⟨heq, hempty⟩
    · left
      dsimp only
      omega
    · exact .inr ⟨by dsimp only; omega, hempty⟩
  next hpos =>
    dsimp only
    split
    next => exact Status.noConfusion
    next t hacc =>
      obtain ⟨-, rfl⟩ := accumulateData_some hacc
      by_cases hall : ((min s.framePayloadRemaining.toNat remaining.length : ℕ) : ℤ)
          = s.framePayloadRemaining
      · refine ⟨by simp [Framed, absorb, hall], ?_⟩
        rcases Nat.eq_zero_or_pos s.framePayloadRemaining.toNat with hzero | hlt
        · right
          rw [hzero, Nat.zero_min, List.drop_zero]
          refine ⟨rfl, ?_⟩
          have hpayload : s.framePayloadRemaining = 0 := by omega
          simp [absorb, hpayload, hstate, rank]
        · left
          rw [List.length_drop]
          omega
      · refine ⟨?_, .inl ?_⟩
        · simp only [Framed, absorb, hall, if_false, hstate]
          left
          omega
        · rw [List.length_drop]
          omega

theorem internalFrameFlush_framePayloadRemaining (e : Setting) (s : Collator) :
    (s.internalFrameFlush e).framePayloadRemaining = s.framePayloadRemaining := by
  have hacc : ∀ (t : Collator) (bytes : List UInt8),
      ((t.accumulateData e bytes).getD t).framePayloadRemaining = t.framePayloadRemaining := by
    intro t bytes
    unfold accumulateData
    split <;> rfl
  have hout : ∀ t : Collator, t.outputFrame.framePayloadRemaining = t.framePayloadRemaining := by
    intro t
    unfold outputFrame
    split <;> rfl
  unfold internalFrameFlush
  split
  · rw [hacc, hout]
  · exact hout s

theorem pass_progresses (hframed : Framed s) (hrem : remaining ≠ [])
    (hahead : ¬ EmptyExtensionAhead maximum ⟨s, remaining, recovery⟩) :
    Progresses s remaining (s.pass (mpeg maximum) remaining) := by
  unfold Collator.pass
  split
  next hstate => exact searchForSyncWord_progresses hstate hrem
  next hstate => exact readPartialFrameHeader_progresses hframed (.inl hstate) hrem hahead
  next hstate => exact readPartialFrameHeader_progresses hframed (.inr hstate) hrem hahead
  next hstate => exact readFrame_progresses hframed hstate hrem
  next hstate => simp [Framed, hstate] at hframed
  next hstate =>
    simp only [Framed, hstate] at hframed
    refine ⟨.inl ?_, .inr ⟨rfl, by rw [hstate]; exact Nat.one_lt_two⟩⟩
    rw [← internalFrameFlush_framePayloadRemaining (mpeg maximum)] at hframed
    exact hframed

/-! ### The measure -/

/-- The data of the outer call, the data that is processed again, and the work of the inner
call. -/
def weight (c : Config) : ℕ × ℕ × ℕ :=
  match c.recovery with
  | none => (c.remaining.length, 0, rank c.collator.collatorState)
  | some r => (r.remaining.length, r.reprocessing.length + 1,
      3 * c.remaining.length + rank c.collator.collatorState)

/-- The lexicographic order on weights. -/
def Lower (c' c : Config) : Prop :=
  Prod.Lex (· < ·) (Prod.Lex (· < ·) (· < ·)) (weight c') (weight c)

theorem lower_wellFounded : WellFounded Lower :=
  InvImage.wf weight (WellFounded.prod_lex Nat.lt_wfRel.wf
    (WellFounded.prod_lex Nat.lt_wfRel.wf Nat.lt_wfRel.wf))

/-- The step returns, or keeps the invariant and lowers the weight. -/
def Lowers (c : Config) : Next → Prop
  | .config c' => Framed c'.collator ∧ Lower c' c
  | .done _ _ => True

theorem length_snip_lt {data : List UInt8} (h : 1 < data.length) :
    (snip (mpeg maximum) data).length < data.length := by
  unfold snip
  split
  · rw [List.length_drop, List.length_drop]
    omega
  · unfold lastBytes
    rw [List.length_drop, List.length_drop]
    omega

variable {c c' : Config}

theorem step_more_lowers (hs : Framed s)
    (h : rest.length < c.remaining.length ∨
      rest = c.remaining ∧ rank s.collatorState < rank c.collator.collatorState) :
    Lowers c (.config ⟨s, rest, c.recovery⟩) := by
  refine ⟨hs, ?_⟩
  obtain ⟨collator, remaining, recovery⟩ := c
  cases recovery with
  | none =>
    rcases h with hlt | ⟨heq, hrank⟩
    · exact .left _ _ hlt
    · have heq' : rest = remaining := heq
      subst heq'
      exact .right _ (.right _ hrank)
  | some r =>
    refine .right _ (.right _ ?_)
    have hs' := rank_le s.collatorState
    dsimp only at h ⊢
    rcases h with hlt | ⟨heq, hrank⟩
    · omega
    · rw [heq]
      omega

theorem step_missing_lowers (h : rest.length < c.remaining.length) :
    Lowers c (missingHeader (mpeg maximum) s rest c.recovery) := by
  obtain ⟨collator, remaining, recovery⟩ := c
  cases recovery with
  | none =>
    simp only [missingHeader, mpeg, if_true, retry]
    split
    · exact ⟨trivial, .left _ _ h⟩
    · exact ⟨trivial, .left _ _ h⟩
  | some r =>
    simp only [missingHeader, retry]
    split
    next hlen =>
      refine ⟨trivial, .right _ (.left _ _ ?_)⟩
      exact Nat.succ_lt_succ (length_snip_lt hlen)
    next => trivial

theorem step_lowers (hframed : Framed c.collator)
    (hahead : ¬ EmptyExtensionAhead maximum c) : Lowers c (step (mpeg maximum) c) := by
  unfold step
  split
  next hrem =>
    split
    next => trivial
    next r hr =>
      refine ⟨hframed, ?_⟩
      obtain ⟨collator, remaining, recovery⟩ := c
      obtain rfl : recovery = some r := hr
      exact .right _ (.left _ _ (Nat.succ_pos _))
  next hrem =>
    have hpass : Progresses c.collator c.remaining (c.collator.pass (mpeg maximum) c.remaining) :=
      pass_progresses hframed hrem hahead
    split
    next s rest heq =>
      rw [heq] at hpass
      exact step_more_lowers hpass.1 hpass.2
    next s rest heq =>
      rw [heq] at hpass
      exact step_missing_lowers hpass
    next status s heq =>
      rw [heq] at hpass
      split
      · trivial
      · unfold resume
        rw [if_neg hpass]
        trivial

/-! ### Return -/

theorem run_succ_of_config (h : step e c = .config c') (n : ℕ) :
    run e (n + 1) c = run e n c' := by
  simp [run, h]

theorem returns_of_clear (hframed : Framed c.collator)
    (hclear : ∀ n c', run (mpeg maximum) n c = .config c' → ¬ EmptyExtensionAhead maximum c') :
    ∃ status s, Returns (mpeg maximum) c status s := by
  induction c using lower_wellFounded.induction with
  | _ c ih =>
    have hlowers := step_lowers hframed (hclear 0 c rfl)
    cases hstep : step (mpeg maximum) c with
    | done status s => exact ⟨status, s, 1, by simp [run, hstep]⟩
    | config c' =>
      rw [hstep] at hlowers
      obtain ⟨status, s, n, hn⟩ := ih c' hlowers.2 hlowers.1 (by
        intro n d hd
        exact hclear (n + 1) d (by rw [run_succ_of_config hstep, hd]))
      exact ⟨status, s, n + 1, by rw [run_succ_of_config hstep, hn]⟩

/-- The two states of the cycle around an empty extension header. -/
def Stalled (maximum : ℕ) (c : Config) : Prop :=
  EmptyExtensionAhead maximum c ∨
    c.collator.collatorState = .readSubFrame ∧ c.collator.framePayloadRemaining = -5 ∧
      EmptyExtension c.collator.accumulated ∧ c.collator.accumulated.length ≤ maximum ∧
      c.remaining ≠ []

theorem examineHeader_of_empty
    (hstate : s.collatorState = .seekingFrameEnd) (hempty : EmptyExtension s.accumulated) :
    s.examineHeader (mpeg maximum) remaining
      = .more (s.acceptHeader (mpeg maximum) .readSubFrame 0) remaining := by
  have hdecide : (mpeg maximum).decideNextState s.collatorState
      (lastBytes (mpeg maximum).frameHeaderLength s.accumulated) = some (.readSubFrame, 0) := by
    rw [hstate]
    exact mpegDecideNextState_of_empty hempty
  simp only [examineHeader, hdecide, gt_iff_lt, Nat.not_lt_zero, if_false]

theorem acceptHeader_readSubFrame (e : Setting) (s : Collator) (length : ℕ) :
    s.acceptHeader e .readSubFrame length = { s with
      collatorState := .readSubFrame
      framePayloadRemaining := length - e.frameHeaderLength } := by
  simp [acceptHeader]

theorem pass_of_emptyExtensionAhead (h : EmptyExtensionAhead maximum c) :
    ∃ t, c.collator.pass (mpeg maximum) c.remaining
        = .more t (c.remaining.drop (bytesNeeded c.collator)) ∧
      t.collatorState = .readSubFrame ∧ t.framePayloadRemaining = -5 ∧
      t.accumulated = c.collator.accumulated ++ c.remaining.take (bytesNeeded c.collator) := by
  obtain ⟨hstate, hneeded, hroom, hempty⟩ := h
  have hlen : (c.remaining.take (bytesNeeded c.collator)).length = bytesNeeded c.collator :=
    List.length_take_of_le (Nat.le_of_lt hneeded)
  have hacc : c.collator.accumulateData (mpeg maximum)
      (c.remaining.take (bytesNeeded c.collator)) = some _ :=
    accumulateData_of_le (by rw [hlen]; exact hroom)
  have hmin : min c.remaining.length (bytesNeeded c.collator) = bytesNeeded c.collator :=
    Nat.min_eq_right (Nat.le_of_lt hneeded)
  have hneed : (mpeg maximum).frameHeaderLength - c.collator.gotPartialFrameHeaderBytes
      = bytesNeeded c.collator := rfl
  have hread : c.collator.pass (mpeg maximum) c.remaining
      = c.collator.readPartialFrameHeader (mpeg maximum) c.remaining := by
    simp only [Collator.pass, hstate]
  refine ⟨{ c.collator with
    collatorState := .readSubFrame
    framePayloadRemaining := -5
    gotPartialFrameHeaderBytes := c.collator.gotPartialFrameHeaderBytes + bytesNeeded c.collator
    accumulated := c.collator.accumulated ++ c.remaining.take (bytesNeeded c.collator) },
    ?_, rfl, rfl, rfl⟩
  rw [hread, readPartialFrameHeader]
  simp only [hneed, hmin, hacc, if_true]
  rw [examineHeader_of_empty, acceptHeader_readSubFrame]
  · rfl
  · exact hstate
  · exact hempty

theorem stalled_of_emptyExtensionAhead (h : EmptyExtensionAhead maximum c) :
    ∃ c', step (mpeg maximum) c = .config c' ∧ Stalled maximum c' := by
  obtain ⟨t, hpass, hstate, hpayload, hacc⟩ := pass_of_emptyExtensionAhead h
  obtain ⟨-, hneeded, hroom, hempty⟩ := h
  have hrem : c.remaining ≠ [] := List.ne_nil_of_length_pos (Nat.zero_lt_of_lt hneeded)
  have hlen : (c.remaining.take (bytesNeeded c.collator)).length = bytesNeeded c.collator :=
    List.length_take_of_le (Nat.le_of_lt hneeded)
  refine ⟨⟨t, c.remaining.drop (bytesNeeded c.collator), c.recovery⟩, ?_,
    .inr ⟨hstate, hpayload, ?_, ?_, ?_⟩⟩
  · simp only [step, if_neg hrem, hpass]
  · rw [hacc]
    exact hempty
  · rw [hacc, List.length_append, hlen]
    exact hroom
  · exact List.ne_nil_of_length_pos (by rw [List.length_drop]; omega)

theorem stalled_step (h : Stalled maximum c) :
    ∃ c', step (mpeg maximum) c = .config c' ∧ Stalled maximum c' := by
  rcases h with h | ⟨hstate, hpayload, hempty, hroom, hrem⟩
  · exact stalled_of_emptyExtensionAhead h
  · refine ⟨⟨{ c.collator with gotPartialFrameHeaderBytes := 5, collatorState := .seekingFrameEnd },
      c.remaining, c.recovery⟩, ?_, .inl ⟨rfl, ?_, ?_, ?_⟩⟩
    · simp [step, hrem, Collator.pass, hstate, readFrame, hpayload]
    · exact List.length_pos_iff.mpr hrem
    · exact hroom
    · simpa [bytesNeeded] using hempty

theorem not_returns_of_stalled (h : Stalled maximum c) (n : ℕ) (status : Status)
    (s : Collator) : run (mpeg maximum) n c ≠ .done status s := by
  induction n generalizing c with
  | zero => simp [run]
  | succ n ih =>
    obtain ⟨c', hstep, hstalled⟩ := stalled_step h
    rw [run_succ_of_config hstep]
    exact ih hstalled

theorem run_add {n : ℕ} (h : run e n c = .config c') (m : ℕ) :
    run e (n + m) c = run e m c' := by
  induction n generalizing c with
  | zero =>
    simp only [run, Next.config.injEq] at h
    rw [h, Nat.zero_add]
  | succ n ih =>
    rw [Nat.succ_add]
    cases hstep : step e c with
    | done status s => simp [run, hstep] at h
    | config d =>
      rw [run_succ_of_config hstep] at h ⊢
      exact ih h

variable {status : Status}

theorem run_done_add {n : ℕ}
    (h : run e n c = .done status s) (m : ℕ) : run e (n + m) c = .done status s := by
  induction n generalizing c with
  | zero => simp [run] at h
  | succ n ih =>
    rw [Nat.succ_add]
    cases hstep : step e c with
    | done status' s' =>
      simp only [run, hstep] at h ⊢
      exact h
    | config d =>
      rw [run_succ_of_config hstep] at h ⊢
      exact ih h

/-! ### Reachable states -/

/-- No byte of a header is at hand.  A discard empties the buffer but goes on counting these bytes: when the
rest of the header arrives, the source takes the first bytes from the memory in front of the buffer. -/
def BetweenHeaders (s : Collator) : Prop :=
  match s.collatorState with
  | .seekingSyncWord => True
  | .gotSynchronized | .seekingFrameEnd => s.gotPartialFrameHeaderBytes = 0
  | .readSubFrame | .skipSubFrame | .gotCompleteFrame => 0 ≤ s.framePayloadRemaining

/-- The states between two calls: `HandleElementaryStream` on any payload, flushing, a discard (for a bad PES
header or a glitch), and a discard with a flush (a jump with surplus data). -/
inductive Reachable (e : Setting) : Collator → Prop
  | start : Reachable e Collator.start
  | handle {s t : Collator} {data : List UInt8} {status : Status} (hs : Reachable e s)
      (h : HandlesElementaryStream e s data status t) : Reachable e t
  | flush {s : Collator} (hs : Reachable e s) : Reachable e (s.internalFrameFlush e)
  | discard {s : Collator} (hs : Reachable e s) (hbetween : BetweenHeaders s) :
      Reachable e s.discardAccumulatedData
  | jump {s : Collator} (hs : Reachable e s) : Reachable e (s.discardAccumulatedData.internalFrameFlush e)

/-- A frame waits to be passed on only where the machine is about to do so. -/
def ReadyAtEnd (s : Collator) : Prop :=
  s.accumulatedFrameReady = true → s.collatorState = .gotCompleteFrame

theorem ReadyAtEnd.of_not_ready (h : s.accumulatedFrameReady = false) :
    ReadyAtEnd s := by
  intro hready
  rw [h] at hready
  exact absurd hready (by simp)

theorem ReadyAtEnd.not_ready (h : ReadyAtEnd s)
    (hstate : s.collatorState ≠ .gotCompleteFrame) : s.accumulatedFrameReady = false := by
  by_contra hready
  exact hstate (h (by simpa using hready))

/-- The collator of an outcome. -/
def Outcome.collator : Outcome → Collator
  | .more s _ => s
  | .missing s _ => s
  | .fail _ s => s

theorem readPartialFrameHeader_readyAtEnd (remaining : List UInt8)
    (hready : s.accumulatedFrameReady = false) :
    ReadyAtEnd (s.readPartialFrameHeader e remaining).collator := by
  unfold readPartialFrameHeader
  dsimp only
  split
  next => exact .of_not_ready hready
  next t hacc =>
    obtain ⟨-, rfl⟩ := accumulateData_some hacc
    split
    · unfold examineHeader
      split
      next state frameLength hdecide =>
        split
        · exact .of_not_ready hready
        · by_cases hcomplete : state = .gotCompleteFrame
          · exact fun _ => hcomplete
          · refine .of_not_ready ?_
            simp only [Outcome.collator, acceptHeader, hcomplete, if_false]
            exact hready
      next => exact .of_not_ready hready
    · exact .of_not_ready hready

theorem readFrame_readyAtEnd (remaining : List UInt8)
    (hready : s.accumulatedFrameReady = false) :
    ReadyAtEnd (s.readFrame e remaining).collator := by
  unfold readFrame
  split
  · exact .of_not_ready hready
  · dsimp only
    split
    · split
      next => exact .of_not_ready hready
      next t hacc =>
        obtain ⟨-, rfl⟩ := accumulateData_some hacc
        exact .of_not_ready hready
    · exact .of_not_ready hready

theorem searchForSyncWord_readyAtEnd (remaining : List UInt8)
    (hready : s.accumulatedFrameReady = false) :
    ReadyAtEnd (s.searchForSyncWord e remaining).collator := by
  unfold searchForSyncWord
  split
  · dsimp only
    split
    · exact .of_not_ready hready
    · split
      next t hacc =>
        obtain ⟨-, rfl⟩ := accumulateData_some hacc
        exact .of_not_ready hready
      next => exact .of_not_ready hready
  · exact .of_not_ready hready

theorem internalFrameFlush_not_ready (e : Setting) (s : Collator) :
    (s.internalFrameFlush e).accumulatedFrameReady = false := by
  unfold internalFrameFlush
  split
  · rfl
  next h =>
    have hout : s.outputFrame.accumulatedFrameReady = s.accumulatedFrameReady := by
      unfold outputFrame
      split <;> rfl
    rw [hout]
    simpa using h

theorem pass_readyAtEnd (hs : ReadyAtEnd s)
    (remaining : List UInt8) : ReadyAtEnd (s.pass e remaining).collator := by
  unfold Collator.pass
  split
  next h => exact searchForSyncWord_readyAtEnd remaining (hs.not_ready (by simp [h]))
  next h => exact readPartialFrameHeader_readyAtEnd remaining (hs.not_ready (by simp [h]))
  next h => exact readPartialFrameHeader_readyAtEnd remaining (hs.not_ready (by simp [h]))
  next h => exact readFrame_readyAtEnd remaining (hs.not_ready (by simp [h]))
  next h => exact readFrame_readyAtEnd remaining (hs.not_ready (by simp [h]))
  next h => exact .of_not_ready (internalFrameFlush_not_ready e s)

/-- The invariant of the states between two passes. -/
def Steady (s : Collator) : Prop := Framed s ∧ ReadyAtEnd s

theorem steady_of_seeking (hstate : s.collatorState = .seekingSyncWord)
    (hready : s.accumulatedFrameReady = false) : Steady s :=
  ⟨by simp [Framed, hstate], .of_not_ready hready⟩

/-- What a step leads to is steady. -/
def SteadyNext : Next → Prop
  | .config c => Steady c.collator
  | .done _ s => Steady s

theorem resume_steady (rest : List UInt8) (hs : Steady s) :
    SteadyNext (resume status s rest) := by
  unfold resume
  split
  · exact hs
  · exact steady_of_seeking rfl rfl

theorem retry_steady {last : Status} (r : Recovery)
    (hstate : s.collatorState = .seekingSyncWord) (hready : s.accumulatedFrameReady = false) :
    SteadyNext (retry e last s r) := by
  unfold retry
  split
  · exact steady_of_seeking hstate hready
  · exact resume_steady _ (steady_of_seeking hstate hready)

theorem step_steady (hc : Steady c.collator) :
    SteadyNext (step (mpeg maximum) c) := by
  unfold step
  split
  · split
    · exact hc
    · exact resume_steady _ hc
  next hrem =>
    have hready := pass_readyAtEnd (e := mpeg maximum) hc.2 c.remaining
    split
    next s rest heq =>
      refine ⟨?_, by rw [heq] at hready; exact hready⟩
      by_cases hahead : EmptyExtensionAhead maximum c
      · obtain ⟨t, hpass, hstate, hpayload, hacc⟩ := pass_of_emptyExtensionAhead hahead
        obtain ⟨rfl, -⟩ := Outcome.more.inj (heq.symm.trans hpass)
        simp only [Framed, hstate]
        exact .inr ⟨hpayload, by rw [hacc]; exact hahead.2.2.2⟩
      · have hpass : Progresses c.collator c.remaining
            (c.collator.pass (mpeg maximum) c.remaining) := pass_progresses hc.1 hrem hahead
        rw [heq] at hpass
        exact hpass.1
    next s rest heq =>
      unfold missingHeader
      split
      · exact retry_steady _ rfl rfl
      · split
        · exact retry_steady _ rfl rfl
        · exact steady_of_seeking rfl rfl
    next status s heq =>
      split
      · exact steady_of_seeking rfl rfl
      · exact resume_steady _ (steady_of_seeking rfl rfl)

theorem run_steady (hc : Steady c.collator) (n : ℕ) :
    SteadyNext (run (mpeg maximum) n c) := by
  induction n generalizing c with
  | zero => exact hc
  | succ n ih =>
    have hstep : SteadyNext (step (mpeg maximum) c) := step_steady hc
    rw [run]
    cases h : step (mpeg maximum) c with
    | config c' =>
      rw [h] at hstep
      exact ih hstep
    | done status s =>
      rw [h] at hstep
      exact hstep

theorem internalFrameFlush_steady (hs : Steady s) :
    Steady (s.internalFrameFlush (mpeg maximum)) := by
  refine ⟨?_, .of_not_ready (internalFrameFlush_not_ready _ _)⟩
  have hpayload := internalFrameFlush_framePayloadRemaining (mpeg maximum) s
  by_cases hready : s.accumulatedFrameReady = true
  · have hstate := hs.2 hready
    have hkeep : (s.internalFrameFlush (mpeg maximum)).collatorState = .gotCompleteFrame := by
      simp only [internalFrameFlush, hready, if_true]
      unfold accumulateData outputFrame
      split_ifs <;> exact hstate
    have hframed := hs.1
    simp only [Framed, hstate] at hframed
    simp only [Framed, hkeep, hpayload]
    exact hframed
  · have hseek : (s.internalFrameFlush (mpeg maximum)).collatorState = .seekingSyncWord := by
      simp [internalFrameFlush, hready]
    simp [Framed, hseek]

theorem discardAccumulatedData_steady (hs : Steady s) (hbetween : BetweenHeaders s) :
    Steady s.discardAccumulatedData := by
  refine ⟨?_, .of_not_ready rfl⟩
  have hframed := hs.1
  unfold BetweenHeaders at hbetween
  unfold Framed discardAccumulatedData at *
  cases hstate : s.collatorState <;> simp only [hstate] at hframed hbetween ⊢ <;> omega

theorem discard_flush (e : Setting) (s : Collator) :
    (s.discardAccumulatedData.internalFrameFlush e).collatorState = .seekingSyncWord ∧
      (s.discardAccumulatedData.internalFrameFlush e).accumulatedFrameReady = false :=
  ⟨rfl, internalFrameFlush_not_ready e _⟩

theorem Reachable.steady (hs : Reachable (mpeg maximum) s) : Steady s := by
  induction hs with
  | start => exact steady_of_seeking rfl rfl
  | @handle s t data status _ h ih =>
    obtain ⟨n, hn⟩ := h
    have hsteady : SteadyNext (run (mpeg maximum) n ⟨s, data, none⟩) := run_steady ih n
    rw [hn] at hsteady
    exact hsteady
  | flush _ ih => exact internalFrameFlush_steady ih
  | discard _ hbetween ih => exact discardAccumulatedData_steady ih hbetween
  | jump _ _ => exact steady_of_seeking (discard_flush _ _).1 (discard_flush _ _).2

/-- **When the elementary stream loop ends**: from every reachable state and on every payload the
call comes back if and only if no pass of the loop, also of the nested one, has an extension
header of length zero ahead with data left after it. -/
theorem handlesElementaryStream_iff {s : Collator} (hs : Reachable (mpeg maximum) s)
    (data : List UInt8) :
    (∃ status t, HandlesElementaryStream (mpeg maximum) s data status t) ↔
      ∀ n c, run (mpeg maximum) n ⟨s, data, none⟩ = .config c →
        ¬ EmptyExtensionAhead maximum c := by
  constructor
  · rintro ⟨status, t, m, hm⟩ n c hn hahead
    -- the run of `m` steps has come back, and the one past `c` never does
    have hlate := run_done_add hm n
    rw [Nat.add_comm, run_add hn] at hlate
    exact not_returns_of_stalled (.inl hahead) m status t hlate
  · intro hclear
    exact returns_of_clear hs.steady.1 hclear

theorem handlesElementaryStream_iff_one_frame :
    Reachable (mpeg 4096) Collator.start ∧
      ∀ n c, run (mpeg 4096) n ⟨Collator.start, [0xff, 0xf2, 0x14], none⟩ = .config c →
        ¬ EmptyExtensionAhead 4096 c := by
  refine ⟨.start, (handlesElementaryStream_iff .start _).mp ⟨.noError,
    { Collator.start with
      collatorState := .gotSynchronized
      gotPartialFrameHeaderBytes := 3
      accumulated := [0xff, 0xf2, 0x14] }, 3, ?_⟩⟩
  decide +kernel

/-- A frame of 24 bytes, an extension header of length zero, and one more byte. -/
def frameWithEmptyExtension : List UInt8 :=
  [0xff, 0xf2, 0x14, 0x00, 0x00] ++ List.replicate 19 0x55 ++ [0x7f, 0xf0, 0x00, 0x00, 0x00] ++ [0x00]

/-- On this payload the call never comes back. -/
theorem not_handles_empty_extension :
    ¬ ∀ (s : Collator) (data : List UInt8), Reachable (mpeg 4096) s →
      ∃ status t, HandlesElementaryStream (mpeg 4096) s data status t := by
  intro h
  obtain ⟨status, t, m, hm⟩ := h Collator.start frameWithEmptyExtension .start
  obtain ⟨c, hrun, hahead⟩ : ∃ c, run (mpeg 4096) 3 ⟨Collator.start, frameWithEmptyExtension, none⟩
      = .config c ∧ EmptyExtensionAhead 4096 c := ⟨_, rfl, by decide +kernel⟩
  have hlate := run_done_add hm 3
  rw [Nat.add_comm, run_add hrun] at hlate
  exact not_returns_of_stalled (.inl hahead) m status t hlate

end Player2.Audio
