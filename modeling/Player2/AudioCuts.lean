import Player2.AudioErrors

/-! # Cutting the elementary stream of the MPEG audio collator

A payload may end anywhere: inside a synchronization word, a frame header, a frame.  What the
machine has of the unfinished item is kept in `PotentialFrameHeader` or in the coded frame buffer,
and the next payload goes on from there.  `handles_append` states that a payload `a ++ b` is
handled as `a` and then `b`: step by step the two runs are in the same states, except where a pass
uses up `a`, and there the first pass on `b` makes up for it (`pass_append`).

Recovery makes no difference, since it works on the accumulated data only: the payload of the
interrupted call waits in the `Recovery`. -/

namespace Player2.Audio

open Collator

variable {maximum : ℕ}

/-! ### Synchronization words -/

variable {a b data bytes : List UInt8} {i n : ℕ}

theorem findSync_append_of_some (h : findSync a = some i) :
    findSync (a ++ b) = some i := by
  fun_induction findSync a generalizing i with
  | case1 x y a hsync => simpa [findSync, hsync] using h
  | case2 x y a hsync ih =>
    obtain ⟨j, hj, rfl⟩ := Option.map_eq_some_iff.mp h
    have hnext : findSync ((y :: a) ++ b) = some j := ih hj
    rw [List.cons_append] at hnext
    simp [findSync, hsync, hnext]
  | case3 => exact absurd h (by simp)

/-- Past a piece without a synchronization word, the next one spans the end of the piece or lies
beyond it. -/
theorem findSync_append_of_none (h : findSync a = none) {x y : UInt8}
    (hlast : a.getLast? = some x) (hfirst : b.head? = some y) :
    findSync (a ++ b) = if x = 0xff ∧ y &&& 0xe0 = 0xe0 then some (a.length - 1)
      else (findSync b).map (· + a.length) := by
  obtain ⟨b, rfl⟩ : ∃ b', b = y :: b' := by
    cases b with
    | nil => exact absurd hfirst (by simp)
    | cons z b => exact ⟨b, by simpa using hfirst⟩
  induction a with
  | nil => exact absurd hlast (by simp)
  | cons u a ih =>
    cases a with
    | nil =>
      obtain rfl : u = x := by simpa using hlast
      simp [findSync]
    | cons v a =>
      have hsync : ¬ (u = 0xff ∧ v &&& 0xe0 = 0xe0) := by
        intro hs
        simp [findSync, hs] at h
      have hrest : findSync (v :: a) = none := by
        simpa [findSync, hsync] using h
      have hlast' : (v :: a).getLast? = some x := by
        rw [← hlast, List.getLast?_cons_cons]
      have hnext := ih hrest hlast'
      rw [List.cons_append] at hnext
      rw [List.cons_append, List.cons_append, findSync, if_neg hsync, hnext]
      split
      · simp
      · rw [Option.map_map]
        congr 1

theorem lastBytes_append_lastBytes (n : ℕ) (a b : List UInt8) :
    lastBytes n (lastBytes n a ++ b) = lastBytes n (a ++ b) := by
  unfold lastBytes
  rcases Nat.le_total a.length n with hle | hlt
  · rw [Nat.sub_eq_zero_of_le hle, List.drop_zero]
  · have hdrop : a.drop (a.length - n) ++ b = (a ++ b).drop (a.length - n) := by
      rw [List.drop_append_of_le_length (Nat.sub_le _ _)]
    rw [hdrop, List.drop_drop, List.length_drop]
    congr 1
    rw [List.length_append]
    omega

theorem keepPotential_eq (e : Setting) (potential remaining : List UInt8) :
    keepPotential e potential remaining = lastBytes e.frameHeaderLength (potential ++ remaining) := by
  unfold keepPotential
  split
  next hshort =>
    split
    next hover =>
      unfold lastBytes
      rw [List.length_append, List.drop_append_of_le_length (by omega)]
      congr 2
      omega
    next hfit =>
      unfold lastBytes
      rw [Nat.sub_eq_zero_of_le (by rw [List.length_append]; omega), List.drop_zero]
  next hlong =>
    have hnil : potential.drop (potential.length + remaining.length - e.frameHeaderLength) = [] :=
      List.drop_eq_nil_of_le (by omega)
    unfold lastBytes
    rw [List.length_append, List.drop_append, hnil, List.nil_append]
    congr 1
    omega

theorem getLast?_lastBytes (hn : 0 < n) (a : List UInt8) :
    (lastBytes n a).getLast? = a.getLast? := by
  unfold lastBytes
  cases a with
  | nil => simp
  | cons x a =>
    rw [List.getLast?_drop]
    rw [if_neg]
    simp only [List.length_cons]
    omega

/-! ### Returns -/

variable {e : Setting} {status status' : Status} {t s s' : Collator}

theorem returns_of_step {c c' : Config} (h : step e c = .config c')
    : Returns e c status t ↔ Returns e c' status t := by
  constructor
  · rintro ⟨n, hn⟩
    cases n with
    | zero => simp [run] at hn
    | succ n => exact ⟨n, by rw [← hn, run_succ_of_config h]⟩
  · rintro ⟨n, hn⟩
    exact ⟨n + 1, by rw [run_succ_of_config h, hn]⟩

variable {c : Config}

theorem returns_of_done
    (h : step e c = .done status s) : Returns e c status' t ↔ status = status' ∧ s = t := by
  constructor
  · rintro ⟨n, hn⟩
    cases n with
    | zero => simp [run] at hn
    | succ n =>
      simp only [run, h, Next.done.injEq] at hn
      exact hn
  · rintro ⟨rfl, rfl⟩
    exact ⟨1, by simp [run, h]⟩

/-- The two states come back without an error in the same way. -/
def SameReturns (e : Setting) (c c' : Config) : Prop :=
  ∀ t, Returns e c .noError t ↔ Returns e c' .noError t

/-- The pass ends in an error. -/
def Fails (o : Outcome) : Prop := ∃ status s, o = .fail status s ∧ status ≠ .noError

theorem Fails.not_returns (hdata : data ≠ [])
    (h : Fails (s.pass e data)) (t : Collator) : ¬ Returns e ⟨s, data, none⟩ .noError t := by
  obtain ⟨status, s', hpass, hstatus⟩ := h
  have hstep : step e ⟨s, data, none⟩ = .done status s'.abandon := by
    simp [step, hdata, hpass]
  rw [returns_of_done hstep]
  exact fun hr => hstatus hr.1

/-- The two passes are the same, or both end in an error. -/
def SamePass (o o' : Outcome) : Prop := o = o' ∨ Fails o ∧ Fails o'

theorem SamePass.sameReturns {data data' : List UInt8}
    (hdata : data ≠ []) (hdata' : data' ≠ []) (h : SamePass (s.pass e data) (s'.pass e data')) :
    SameReturns e ⟨s, data, none⟩ ⟨s', data', none⟩ := by
  intro t
  rcases h with heq | ⟨hf, hf'⟩
  · have hstep : step e ⟨s, data, none⟩ = step e ⟨s', data', none⟩ := by
      simp [step, hdata, hdata', heq]
    cases hs : step e ⟨s', data', none⟩ with
    | config c => rw [returns_of_step hs, returns_of_step (hstep.trans hs)]
    | done status u => rw [returns_of_done hs, returns_of_done (hstep.trans hs)]
  · exact iff_of_false (hf.not_returns hdata t) (hf'.not_returns hdata' t)

/-! ### One pass -/

/-- The outcome with more data behind. -/
def Outcome.extend (b : List UInt8) : Outcome → Outcome
  | .more s rest => .more s (rest ++ b)
  | .missing s rest => .missing s (rest ++ b)
  | .fail status s => .fail status s

/-- The pass over `a ++ b` goes as the pass over `a`; or the pass over `a` uses it up and the call
goes on with `b` to the same end; or both fail. -/
def Joint (e : Setting) (s : Collator) (a b : List UInt8) : Prop :=
  s.pass e (a ++ b) = (s.pass e a).extend b ∨
    (∃ s', s.pass e a = .more s' [] ∧ SameReturns e ⟨s, a ++ b, none⟩ ⟨s', b, none⟩) ∨
    Fails (s.pass e a) ∧ Fails (s.pass e (a ++ b))

theorem accumulateData_append (e : Setting) (s : Collator) (a b : List UInt8) :
    s.accumulateData e (a ++ b) = (s.accumulateData e a).bind (fun t => t.accumulateData e b) := by
  unfold accumulateData
  by_cases ha : s.accumulated.length + a.length > e.maximumCodedFrameSize
  · have hab : s.accumulated.length + (a ++ b).length > e.maximumCodedFrameSize := by
      rw [List.length_append]
      omega
    rw [if_pos ha, if_pos hab, Option.bind_none]
  · rw [if_neg ha, Option.bind_some]
    by_cases hab : s.accumulated.length + (a ++ b).length > e.maximumCodedFrameSize
    · rw [if_pos hab, if_pos]
      simp only [List.length_append] at hab ⊢
      omega
    · rw [if_neg hab, if_neg]
      · simp
      · simp only [List.length_append] at hab ⊢
        omega

theorem accumulateData_with_got (e : Setting) (s : Collator) (got : ℕ) (bytes : List UInt8) :
    accumulateData e { s with gotPartialFrameHeaderBytes := got } bytes =
      (s.accumulateData e bytes).map (fun t => { t with gotPartialFrameHeaderBytes := got }) := by
  unfold accumulateData
  split <;> rfl

theorem pass_of_header
    (hstate : s.collatorState = .gotSynchronized ∨ s.collatorState = .seekingFrameEnd)
    (e : Setting) (data : List UInt8) : s.pass e data = s.readPartialFrameHeader e data := by
  unfold Collator.pass
  rcases hstate with h | h <;> rw [h]

theorem readPartialFrameHeader_append
    (hlt : a.length < e.frameHeaderLength - s.gotPartialFrameHeaderBytes)
    (hacc : s.accumulateData e a = some t) :
    SamePass (s.readPartialFrameHeader e (a ++ b))
      (readPartialFrameHeader e
        { t with gotPartialFrameHeaderBytes := s.gotPartialFrameHeaderBytes + a.length } b) := by
  obtain ⟨q, hq⟩ : ∃ q, e.frameHeaderLength - s.gotPartialFrameHeaderBytes = a.length + q :=
    ⟨_, (Nat.add_sub_cancel' (Nat.le_of_lt hlt)).symm⟩
  have hq' : e.frameHeaderLength - (s.gotPartialFrameHeaderBytes + a.length) = q := by omega
  have hmin : min (a ++ b).length (a.length + q) = a.length + min b.length q := by
    rw [List.length_append]
    omega
  have hall : (a.length + q = a.length + min b.length q) ↔ (q = min b.length q) := by omega
  simp only [readPartialFrameHeader, hq, hq', hmin, hall, List.take_length_add_append,
    List.drop_length_add_append, accumulateData_append, hacc, Option.bind_some,
    accumulateData_with_got]
  cases t.accumulateData e (b.take (min b.length q)) with
  | none =>
    right
    exact ⟨⟨_, _, rfl, Status.noConfusion⟩, ⟨_, _, rfl, Status.noConfusion⟩⟩
  | some u =>
    left
    simp only [Option.map_some, Nat.add_assoc]

theorem readPartialFrameHeader_joint (ha : a ≠ []) (hb : b ≠ [])
    (hstate : s.collatorState = .gotSynchronized ∨ s.collatorState = .seekingFrameEnd) :
    Joint e s a b := by
  have hpass := pass_of_header hstate e
  obtain ⟨q, hq⟩ : ∃ q, q = e.frameHeaderLength - s.gotPartialFrameHeaderBytes := ⟨_, rfl⟩
  rcases Nat.lt_or_ge a.length q with hlt | hge
  · -- the header is not complete in `a`
    right
    have hmin : min a.length q = a.length := Nat.min_eq_left (Nat.le_of_lt hlt)
    cases hacc : s.accumulateData e a with
    | none =>
      right
      have hread : s.pass e a = .fail .bufferOverflow s := by
        simp only [hpass, readPartialFrameHeader, ← hq, hmin, List.take_length, hacc]
      refine ⟨⟨_, _, hread, Status.noConfusion⟩, ⟨.bufferOverflow, s, ?_, Status.noConfusion⟩⟩
      have htake : (a ++ b).take (min (a ++ b).length q) = a ++ b.take (min b.length (q - a.length)) := by
        have hlen : min (a ++ b).length q = a.length + min b.length (q - a.length) := by
          rw [List.length_append]
          omega
        rw [hlen, List.take_length_add_append]
      simp only [hpass, readPartialFrameHeader, ← hq, htake, accumulateData_append, hacc,
        Option.bind_none]
    | some t =>
      left
      have hread : s.pass e a = .more { t with
          gotPartialFrameHeaderBytes := s.gotPartialFrameHeaderBytes + a.length } [] := by
        simp only [hpass, readPartialFrameHeader, ← hq, hmin, List.take_length, List.drop_length,
          Nat.ne_of_gt hlt, if_false, hacc]
      refine ⟨_, hread, ?_⟩
      apply SamePass.sameReturns (by simp [ha]) hb
      have hstate' : t.collatorState = s.collatorState := by
        obtain ⟨-, rfl⟩ := accumulateData_some hacc
        rfl
      rw [hpass, pass_of_header (by exact hstate' ▸ hstate)]
      exact readPartialFrameHeader_append (hq ▸ hlt) hacc
  · left
    have hmin : min a.length q = q := Nat.min_eq_right hge
    have hmin' : min (a ++ b).length q = q := by
      rw [List.length_append]
      omega
    simp only [hpass, readPartialFrameHeader, ← hq, hmin, hmin', if_true,
      List.take_append_of_le_length hge, List.drop_append_of_le_length hge]
    cases s.accumulateData e (a.take q) with
    | none => rfl
    | some t =>
      unfold examineHeader
      dsimp only
      split
      · split <;> rfl
      · rfl

theorem pass_of_frame (hstate : s.collatorState = .readSubFrame ∨ s.collatorState = .skipSubFrame)
    (e : Setting) (data : List UInt8) : s.pass e data = s.readFrame e data := by
  unfold Collator.pass
  rcases hstate with h | h <;> rw [h]

/-- What `ReadFrame` takes into the buffer. -/
def takeFrame (e : Setting) (s : Collator) (bytes : List UInt8) : Option Collator :=
  if s.collatorState = .readSubFrame then s.accumulateData e bytes else some s

theorem readFrame_of_nonneg (hpos : 0 ≤ s.framePayloadRemaining)
    (data : List UInt8) :
    s.readFrame e data =
      match takeFrame e s (data.take (min s.framePayloadRemaining.toNat data.length)) with
      | none => .fail .bufferOverflow s
      | some t => .more (t.absorb (min s.framePayloadRemaining.toNat data.length))
          (data.drop (min s.framePayloadRemaining.toNat data.length)) := by
  unfold readFrame takeFrame
  rw [if_neg (by omega)]
  dsimp only
  split
  · cases s.accumulateData e (data.take (min s.framePayloadRemaining.toNat data.length)) <;> rfl
  · rfl

theorem takeFrame_some (h : takeFrame e s bytes = some t) :
    ∃ accumulated, t = { s with accumulated := accumulated } := by
  unfold takeFrame at h
  split at h
  · obtain ⟨-, rfl⟩ := accumulateData_some h
    exact ⟨_, rfl⟩
  · exact ⟨_, (Option.some.inj h).symm⟩

theorem takeFrame_append (e : Setting) (s : Collator) (a b : List UInt8) :
    takeFrame e s (a ++ b) = (takeFrame e s a).bind (fun t => takeFrame e t b) := by
  unfold takeFrame
  by_cases hs : s.collatorState = .readSubFrame
  · simp only [hs, if_true, accumulateData_append]
    cases hacc : s.accumulateData e a with
    | none => rfl
    | some t =>
      obtain ⟨-, rfl⟩ := accumulateData_some hacc
      simp [hs]
  · simp [hs]

theorem takeFrame_absorb (hn : (n : ℤ) ≠ s.framePayloadRemaining) (bytes : List UInt8) :
    takeFrame e (s.absorb n) bytes = (takeFrame e s bytes).map (fun t => t.absorb n) := by
  unfold takeFrame accumulateData absorb
  simp only [hn, if_false]
  split
  · split
    · rfl
    · simp [hn]
  · simp [hn]

theorem absorb_absorb {n m : ℕ} (hn : (n : ℤ) ≠ s.framePayloadRemaining) :
    (s.absorb n).absorb m = s.absorb (n + m) := by
  have hend : ((m : ℤ) = s.framePayloadRemaining - n) ↔
      (((n + m : ℕ) : ℤ) = s.framePayloadRemaining) := by omega
  unfold absorb
  simp only [hn, if_false, hend]
  congr 1
  omega

theorem readFrame_joint (ha : a ≠ []) (hb : b ≠ [])
    (hstate : s.collatorState = .readSubFrame ∨ s.collatorState = .skipSubFrame) :
    Joint e s a b := by
  have hpass := pass_of_frame hstate e
  rcases Int.lt_or_le s.framePayloadRemaining 0 with hneg | hpos
  · left
    simp only [hpass, readFrame, if_pos hneg]
    rfl
  · obtain ⟨p, hp⟩ : ∃ p : ℕ, s.framePayloadRemaining = p := ⟨_, (Int.toNat_of_nonneg hpos).symm⟩
    have htoNat : s.framePayloadRemaining.toNat = p := by omega
    rcases Nat.lt_or_ge a.length p with hlt | hge
    · -- the frame goes on after `a`
      right
      have hne : (a.length : ℤ) ≠ s.framePayloadRemaining := by omega
      have hmin : min p a.length = a.length := Nat.min_eq_right (Nat.le_of_lt hlt)
      have hmin' : min p (a ++ b).length = a.length + min (p - a.length) b.length := by
        rw [List.length_append]
        omega
      have hread := readFrame_of_nonneg (e := e) hpos a
      have hread' := readFrame_of_nonneg (e := e) hpos (a ++ b)
      rw [htoNat, hmin, List.take_length, List.drop_length] at hread
      rw [htoNat, hmin', List.take_length_add_append, List.drop_length_add_append,
        takeFrame_append] at hread'
      cases htake : takeFrame e s a with
      | none =>
        right
        rw [htake] at hread hread'
        rw [hpass, hpass, hread, hread']
        exact ⟨⟨_, _, rfl, Status.noConfusion⟩, ⟨_, _, rfl, Status.noConfusion⟩⟩
      | some t =>
        left
        rw [htake] at hread hread'
        refine ⟨t.absorb a.length, by rw [hpass, hread], ?_⟩
        apply SamePass.sameReturns (by simp [ha]) hb
        obtain ⟨accumulated, rfl⟩ := takeFrame_some htake
        have hleft : (absorb { s with accumulated := accumulated } a.length).framePayloadRemaining
            = ((p - a.length : ℕ) : ℤ) := by
          simp only [absorb]
          omega
        have hkeep : (absorb { s with accumulated := accumulated } a.length).collatorState =
            s.collatorState := by
          simp [absorb, hne]
        have hnext := readFrame_of_nonneg (e := e)
          (s := absorb { s with accumulated := accumulated } a.length) (by omega) b
        rw [hleft, Int.toNat_natCast, takeFrame_absorb (by exact hne)] at hnext
        rw [hpass, hread', pass_of_frame (by rw [hkeep]; exact hstate), hnext]
        simp only [Option.bind_some]
        cases hlast : takeFrame e { s with accumulated := accumulated }
            (b.take (min (p - a.length) b.length)) with
        | none =>
          right
          exact ⟨⟨_, _, rfl, Status.noConfusion⟩, ⟨_, _, rfl, Status.noConfusion⟩⟩
        | some u =>
          left
          obtain ⟨accumulated', rfl⟩ := takeFrame_some hlast
          simp only [Option.map_some]
          rw [absorb_absorb (by exact hne)]
    · left
      have hmin : min p a.length = p := Nat.min_eq_left hge
      have hmin' : min p (a ++ b).length = p := by
        rw [List.length_append]
        omega
      simp only [hpass, readFrame_of_nonneg hpos, htoNat, hmin, hmin',
        List.take_append_of_le_length hge, List.drop_append_of_le_length hge]
      split <;> rfl

/-- A synchronization word that spans the cut: one run has its first byte ahead, the other has it
in the buffer. -/
theorem gotSynchronized_spanning (hb : b ≠ [])
    (hstate : s.collatorState = .gotSynchronized) (hgot : s.gotPartialFrameHeaderBytes = 0)
    (hlen : 1 < e.frameHeaderLength) (x : UInt8)
    (hacc : s.accumulateData e [x] = some t) :
    SameReturns e ⟨s, x :: b, none⟩ ⟨{ t with gotPartialFrameHeaderBytes := 1 }, b, none⟩ := by
  apply SamePass.sameReturns (by simp) hb
  have hstate' : t.collatorState = .gotSynchronized := by
    obtain ⟨-, rfl⟩ := accumulateData_some hacc
    exact hstate
  rw [pass_of_header (.inl hstate), pass_of_header (.inl (by exact hstate'))]
  have h := readPartialFrameHeader_append (b := b) (by simpa [hgot] using hlen) hacc
  simpa [hgot] using h

theorem pass_of_seeking (hstate : s.collatorState = .seekingSyncWord) (e : Setting)
    (data : List UInt8) : s.pass e data = s.searchForSyncWord e data := by
  unfold Collator.pass
  rw [hstate]

theorem searchForSyncWord_of_none (h : mpegFindNextSyncWord s.potentialFrameHeader data = none) :
    s.searchForSyncWord (mpeg maximum) data = .more
      { s with potentialFrameHeader := lastBytes 5 (s.potentialFrameHeader ++ data) } [] := by
  have hfind : (mpeg maximum).findNextSyncWord s.potentialFrameHeader data = none := h
  unfold searchForSyncWord
  rw [hfind, keepPotential_eq]
  rfl

/-- The state in which a synchronization word has been found, a number of its bytes being old
ones. -/
def synchronizedAt (s : Collator) (old : ℕ) : Collator :=
  { s with collatorState := .gotSynchronized, potentialFrameHeader := [],
           gotPartialFrameHeaderBytes := old }

theorem searchForSyncWord_of_some
    (h : mpegFindNextSyncWord s.potentialFrameHeader data = some (i : ℤ)) :
    s.searchForSyncWord (mpeg maximum) data = .more (synchronizedAt s 0) (data.drop i) := by
  have hfind : (mpeg maximum).findNextSyncWord s.potentialFrameHeader data = some (i : ℤ) := h
  unfold searchForSyncWord
  rw [hfind]
  simp [synchronizedAt]

theorem searchForSyncWord_of_earlier
    (h : mpegFindNextSyncWord s.potentialFrameHeader data = some (-1)) :
    s.searchForSyncWord (mpeg maximum) data =
      match (synchronizedAt s 1).accumulateData (mpeg maximum)
        (lastBytes 1 s.potentialFrameHeader) with
      | some t => .more t data
      | none => .fail .bufferOverflow (synchronizedAt s 1) := by
  have hfind : (mpeg maximum).findNextSyncWord s.potentialFrameHeader data = some (-1) := h
  unfold searchForSyncWord
  rw [hfind]
  rfl

theorem mpegFindNextSyncWord_of_not_spanning {potential data : List UInt8}
    (h : ¬ (potential.getLast? = some 0xff ∧ data.getD 0 0 &&& 0xe0 = 0xe0)) :
    mpegFindNextSyncWord potential data = (findSync data).map (fun i : ℕ => (i : ℤ)) := by
  rw [mpegFindNextSyncWord, if_neg h]

theorem step_of_pass {data rest : List UInt8} (hdata : data ≠ [])
    (h : s.pass e data = .more s' rest) :
    step e ⟨s, data, none⟩ = .config ⟨s', rest, none⟩ := by
  simp [step, hdata, h]

variable {x : UInt8}

theorem lastBytes_one (h : bytes.getLast? = some x) :
    lastBytes 1 bytes = [x] := by
  obtain ⟨front, rfl⟩ := List.getLast?_eq_some_iff.mp h
  simp [lastBytes]

theorem sameReturns_of_step {c c' d d' : Config} (hc : step e c = .config c')
    (hd : step e d = .config d') (h : SameReturns e c' d') : SameReturns e c d := by
  intro t
  rw [returns_of_step hc, returns_of_step hd]
  exact h t

theorem fails_readPartialFrameHeader (hlen : s.gotPartialFrameHeaderBytes < e.frameHeaderLength)
    (hacc : s.accumulateData e [x] = none) : Fails (s.readPartialFrameHeader e (x :: b)) := by
  refine ⟨.bufferOverflow, s, ?_, Status.noConfusion⟩
  obtain ⟨n, hn⟩ : ∃ n, min (x :: b).length (e.frameHeaderLength - s.gotPartialFrameHeaderBytes) =
      n + 1 := by
    refine ⟨min b.length (e.frameHeaderLength - s.gotPartialFrameHeaderBytes - 1), ?_⟩
    rw [List.length_cons]
    omega
  have htake : (x :: b).take (n + 1) = [x] ++ b.take n := rfl
  simp only [readPartialFrameHeader, hn, htake, accumulateData_append, hacc, Option.bind_none]

/-- The search goes on after `a` as if the bytes of `a` were still ahead. -/
theorem searchForSyncWord_boundary (ha : a ≠ []) (hb : b ≠ [])
    (hstate : s.collatorState = .seekingSyncWord)
    (hspan : ¬ (s.potentialFrameHeader.getLast? = some 0xff ∧ a.getD 0 0 &&& 0xe0 = 0xe0))
    (hnone : findSync a = none) :
    SameReturns (mpeg maximum) ⟨s, a ++ b, none⟩
      ⟨{ s with potentialFrameHeader := lastBytes 5 (s.potentialFrameHeader ++ a) }, b, none⟩ := by
  obtain ⟨x, hx⟩ : ∃ x, a.getLast? = some x := ⟨_, List.getLast?_eq_some_getLast ha⟩
  obtain ⟨y, b, rfl⟩ : ∃ y b', b = y :: b' := List.exists_cons_of_ne_nil hb
  have hjoin := findSync_append_of_none (b := y :: b) hnone hx rfl
  have hfirst : (a ++ y :: b).getD 0 0 = a.getD 0 0 := by
    cases a with
    | nil => exact absurd rfl ha
    | cons u a => rfl
  have huncut : mpegFindNextSyncWord s.potentialFrameHeader (a ++ y :: b) =
      (findSync (a ++ y :: b)).map (fun i : ℕ => (i : ℤ)) :=
    mpegFindNextSyncWord_of_not_spanning (by rw [hfirst]; exact hspan)
  have hlast : (lastBytes 5 (s.potentialFrameHeader ++ a)).getLast? = some x := by
    rw [getLast?_lastBytes (by omega), List.getLast?_append_of_ne_nil _ ha, hx]
  by_cases hsync : x = 0xff ∧ y &&& 0xe0 = 0xe0
  · -- one run goes back to the last byte of `a`, the other has kept it
    rw [hjoin, if_pos hsync, Option.map_some] at huncut
    have hdrop : (a ++ y :: b).drop (a.length - 1) = x :: y :: b := by
      obtain ⟨front, rfl⟩ := List.getLast?_eq_some_iff.mp hx
      simp
    have hcut : mpegFindNextSyncWord (lastBytes 5 (s.potentialFrameHeader ++ a)) (y :: b) =
        some (-1) := by
      rw [mpegFindNextSyncWord, if_pos]
      rw [hlast, hsync.1]
      exact ⟨rfl, hsync.2⟩
    have hstep : step (mpeg maximum) ⟨s, a ++ y :: b, none⟩ =
        .config ⟨synchronizedAt s 0, x :: y :: b, none⟩ := by
      apply step_of_pass (by simp)
      rw [pass_of_seeking hstate, searchForSyncWord_of_some huncut, hdrop]
    have hpass : Collator.pass (mpeg maximum)
        { s with potentialFrameHeader := lastBytes 5 (s.potentialFrameHeader ++ a) } (y :: b) =
          match (synchronizedAt s 1).accumulateData (mpeg maximum) [x] with
          | some t => .more t (y :: b)
          | none => .fail .bufferOverflow (synchronizedAt s 1) := by
      rw [pass_of_seeking (by exact hstate), searchForSyncWord_of_earlier (by exact hcut),
        lastBytes_one hlast]
      rfl
    have hacc1 : (synchronizedAt s 1).accumulateData (mpeg maximum) [x] =
        ((synchronizedAt s 0).accumulateData (mpeg maximum) [x]).map
          (fun t => { t with gotPartialFrameHeaderBytes := 1 }) :=
      accumulateData_with_got _ (synchronizedAt s 0) 1 [x]
    rw [hacc1] at hpass
    cases hacc : (synchronizedAt s 0).accumulateData (mpeg maximum) [x] with
    | none =>
      rw [hacc] at hpass
      intro t
      rw [returns_of_step hstep]
      refine iff_of_false (Fails.not_returns (by simp) ?_ t)
        (Fails.not_returns (by simp) ⟨_, _, hpass, Status.noConfusion⟩ t)
      exact fails_readPartialFrameHeader (Nat.succ_pos 4) hacc
    | some t =>
      rw [hacc] at hpass
      exact sameReturns_of_step hstep (step_of_pass (by simp) hpass)
        (gotSynchronized_spanning (by simp) rfl rfl (Nat.one_lt_succ_succ 3) x hacc)
  · -- both runs look for the next one in `b`
    rw [hjoin, if_neg hsync] at huncut
    have hcut : mpegFindNextSyncWord (lastBytes 5 (s.potentialFrameHeader ++ a)) (y :: b) =
        (findSync (y :: b)).map (fun i : ℕ => (i : ℤ)) := by
      apply mpegFindNextSyncWord_of_not_spanning
      rw [hlast]
      exact fun h => hsync ⟨Option.some.inj h.1, h.2⟩
    apply SamePass.sameReturns (by simp) (by simp)
    left
    rw [pass_of_seeking hstate, pass_of_seeking (by exact hstate)]
    cases hfound : findSync (y :: b) with
    | none =>
      rw [hfound] at huncut hcut
      rw [searchForSyncWord_of_none huncut, searchForSyncWord_of_none (by exact hcut)]
      simp only [lastBytes_append_lastBytes, List.append_assoc]
    | some i =>
      rw [hfound] at huncut hcut
      rw [searchForSyncWord_of_some huncut, searchForSyncWord_of_some (by exact hcut)]
      dsimp only
      rw [Nat.add_comm i, List.drop_length_add_append]
      rfl

theorem searchForSyncWord_joint (ha : a ≠ []) (hb : b ≠ [])
    (hstate : s.collatorState = .seekingSyncWord) : Joint (mpeg maximum) s a b := by
  have hpass := pass_of_seeking hstate (mpeg maximum)
  have hfirst : (a ++ b).getD 0 0 = a.getD 0 0 := by
    cases a with
    | nil => exact absurd rfl ha
    | cons u a => rfl
  by_cases hspan : s.potentialFrameHeader.getLast? = some 0xff ∧ a.getD 0 0 &&& 0xe0 = 0xe0
  · left
    have hfind : mpegFindNextSyncWord s.potentialFrameHeader a = some (-1) := by
      rw [mpegFindNextSyncWord, if_pos hspan]
    have hfind' : mpegFindNextSyncWord s.potentialFrameHeader (a ++ b) = some (-1) := by
      rw [mpegFindNextSyncWord, hfirst, if_pos hspan]
    rw [hpass, hpass, searchForSyncWord_of_earlier hfind, searchForSyncWord_of_earlier hfind']
    split <;> rfl
  · have hfind := mpegFindNextSyncWord_of_not_spanning hspan
    cases hsync : findSync a with
    | some i =>
      left
      have hfind' : mpegFindNextSyncWord s.potentialFrameHeader (a ++ b) = some (i : ℤ) := by
        rw [mpegFindNextSyncWord_of_not_spanning (by rw [hfirst]; exact hspan),
          findSync_append_of_some hsync]
        rfl
      rw [hsync] at hfind
      rw [hpass, hpass, searchForSyncWord_of_some hfind, searchForSyncWord_of_some hfind',
        List.drop_append_of_le_length (by have := findSync_lt hsync; omega)]
      rfl
    | none =>
      right; left
      rw [hsync] at hfind
      refine ⟨_, by rw [hpass, searchForSyncWord_of_none hfind], ?_⟩
      exact searchForSyncWord_boundary ha hb hstate hspan hsync

theorem pass_append (s : Collator) (ha : a ≠ []) (hb : b ≠ []) :
    Joint (mpeg maximum) s a b := by
  cases hstate : s.collatorState with
  | seekingSyncWord => exact searchForSyncWord_joint ha hb hstate
  | gotSynchronized => exact readPartialFrameHeader_joint ha hb (.inl hstate)
  | seekingFrameEnd => exact readPartialFrameHeader_joint ha hb (.inr hstate)
  | readSubFrame => exact readFrame_joint ha hb (.inl hstate)
  | skipSubFrame => exact readFrame_joint ha hb (.inr hstate)
  | gotCompleteFrame =>
    left
    unfold Collator.pass
    rw [hstate]
    rfl

/-! ### One step -/

/-- The state with more data behind the payload of the outermost call. -/
def Config.extend (b : List UInt8) (c : Config) : Config :=
  match c.recovery with
  | none => { c with remaining := c.remaining ++ b }
  | some r => { c with recovery := some { r with remaining := r.remaining ++ b } }

/-- What a step with more data behind does, compared with the step without. -/
def StepJoint (e : Setting) (c : Config) (b : List UInt8) : Prop :=
  (∃ c', step e c = .config c' ∧ step e (c.extend b) = .config (c'.extend b)) ∨
    (∃ s, step e c = .config ⟨s, [], none⟩ ∧ SameReturns e (c.extend b) ⟨s, b, none⟩) ∨
    ((∀ t, ¬ Returns e c .noError t) ∧ ∀ t, ¬ Returns e (c.extend b) .noError t)

/-- Two steps in lockstep, or two errors. -/
def NextJoint (b : List UInt8) (n n' : Next) : Prop :=
  (∃ c, n = .config c ∧ n' = .config (c.extend b)) ∨
    ∃ status s, n = .done status s ∧ n' = .done status s ∧ status ≠ .noError

theorem NextJoint.stepJoint
    (h : NextJoint b (step e c) (step e (c.extend b))) : StepJoint e c b := by
  rcases h with h | ⟨status, s, hd, hd', hstatus⟩
  · exact .inl h
  · refine .inr (.inr ⟨fun t ht => ?_, fun t ht => ?_⟩)
    · exact hstatus ((returns_of_done hd).mp ht).1
    · exact hstatus ((returns_of_done hd').mp ht).1

theorem resume_joint (status : Status) (s : Collator) (rest b : List UInt8) :
    NextJoint b (resume status s rest) (resume status s (rest ++ b)) := by
  unfold resume
  split
  · exact .inl ⟨_, rfl, rfl⟩
  · exact .inr ⟨_, _, rfl, rfl, ‹_›⟩

theorem retry_joint (e : Setting) (last : Status) (s : Collator) (r : Recovery) (b : List UInt8) :
    NextJoint b (retry e last s r) (retry e last s { r with remaining := r.remaining ++ b }) := by
  unfold retry
  split
  · exact .inl ⟨_, rfl, rfl⟩
  · exact resume_joint last s r.remaining b

theorem missingHeader_joint (e : Setting) (s : Collator) (rest b : List UInt8) :
    NextJoint b (missingHeader e s rest none) (missingHeader e s (rest ++ b) none) := by
  unfold missingHeader
  dsimp only
  split
  · exact retry_joint e .noError _ ⟨rest, s.accumulated⟩ b
  · exact .inl ⟨_, rfl, rfl⟩

theorem missingHeader_recovery_joint (e : Setting) (s : Collator) (rest b : List UInt8)
    (r : Recovery) : NextJoint b (missingHeader e s rest (some r))
      (missingHeader e s rest (some { r with remaining := r.remaining ++ b })) :=
  retry_joint e .unwindStack _ r b

theorem step_recovery_joint (e : Setting) (s : Collator) (rest b : List UInt8) (r : Recovery) :
    NextJoint b (step e ⟨s, rest, some r⟩)
      (step e ⟨s, rest, some { r with remaining := r.remaining ++ b }⟩) := by
  unfold step
  dsimp only
  split
  · exact resume_joint .noError s r.remaining b
  · split
    · exact .inl ⟨_, rfl, rfl⟩
    · exact missingHeader_recovery_joint e _ _ b r
    · exact resume_joint _ _ r.remaining b

theorem step_append (c : Config) (hb : b ≠ [])
    (hrest : c.recovery = none → c.remaining ≠ []) : StepJoint (mpeg maximum) c b := by
  obtain ⟨s, rest, recovery⟩ := c
  cases recovery with
  | some r => exact (step_recovery_joint (mpeg maximum) s rest b r).stepJoint
  | none =>
    have ha : rest ≠ [] := hrest rfl
    have hab : rest ++ b ≠ [] := by simp [ha]
    have hpass : Joint (mpeg maximum) s rest b := pass_append s ha hb
    rcases hpass with hext | ⟨s', hmore, hsame⟩ | ⟨hf, hf'⟩
    · apply NextJoint.stepJoint
      simp only [Config.extend, step, ha, hab, if_false, hext]
      cases hpass : s.pass (mpeg maximum) rest with
      | more s' rest' => exact .inl ⟨_, rfl, rfl⟩
      | missing s' rest' => exact missingHeader_joint _ s' rest' b
      | fail status s' =>
        refine .inr ⟨_, _, rfl, rfl, ?_⟩
        have hover : FailsOnOverflow (.fail status s') := hpass ▸ pass_failsOnOverflow _ s rest
        rw [show status = .bufferOverflow from hover]
        exact Status.noConfusion
    · exact .inr (.inl ⟨s', step_of_pass ha hmore, hsame⟩)
    · exact .inr (.inr ⟨hf.not_returns ha, hf'.not_returns hab⟩)

/-! ### A whole run -/

theorem handles_nil (e : Setting) (s t : Collator) :
    HandlesElementaryStream e s [] .noError t ↔ t = s := by
  have hstep : step e ⟨s, [], none⟩ = .done .noError s := rfl
  unfold HandlesElementaryStream
  rw [returns_of_done hstep]
  exact ⟨fun h => h.2.symm, fun h => ⟨rfl, h.symm⟩⟩

theorem returns_extend_of_run (hb : b ≠ []) {m t : Collator}
    (h : run (mpeg maximum) n c = .done .noError m)
    (ht : Returns (mpeg maximum) ⟨m, b, none⟩ .noError t) :
    Returns (mpeg maximum) (c.extend b) .noError t := by
  induction n generalizing c with
  | zero => exact absurd h (by simp [run])
  | succ n ih =>
    by_cases hend : c.recovery = none ∧ c.remaining = []
    · obtain ⟨s, rest, recovery⟩ := c
      obtain ⟨rfl, rfl⟩ := hend
      have hm : m = s := (handles_nil _ s m).mp ⟨n + 1, h⟩
      rw [hm] at ht
      exact ht
    · have hstep : StepJoint (mpeg maximum) c b :=
        step_append c hb (fun hr hn => hend ⟨hr, hn⟩)
      rcases hstep with ⟨c', hc, hext⟩ | ⟨s, hc, hsame⟩ | ⟨hno, -⟩
      · rw [run_succ_of_config hc] at h
        exact (returns_of_step hext).mpr (ih h)
      · rw [run_succ_of_config hc] at h
        have hm : m = s := (handles_nil _ s m).mp ⟨n, h⟩
        rw [hm] at ht
        exact (hsame t).mpr ht
      · exact absurd ⟨n + 1, h⟩ (hno m)

theorem run_extend (hb : b ≠ [])
    (h : run (mpeg maximum) n (c.extend b) = .done .noError t) :
    ∃ m, Returns (mpeg maximum) c .noError m ∧
      Returns (mpeg maximum) ⟨m, b, none⟩ .noError t := by
  induction n generalizing c with
  | zero => exact absurd h (by simp [run])
  | succ n ih =>
    by_cases hend : c.recovery = none ∧ c.remaining = []
    · obtain ⟨s, rest, recovery⟩ := c
      obtain ⟨rfl, rfl⟩ := hend
      exact ⟨s, (handles_nil _ s s).mpr rfl, n + 1, h⟩
    · have hstep : StepJoint (mpeg maximum) c b :=
        step_append c hb (fun hr hn => hend ⟨hr, hn⟩)
      rcases hstep with ⟨c', hc, hext⟩ | ⟨s, hc, hsame⟩ | ⟨-, hno⟩
      · rw [run_succ_of_config hext] at h
        obtain ⟨m, hm, ht⟩ := ih h
        exact ⟨m, (returns_of_step hc).mpr hm, ht⟩
      · refine ⟨s, (returns_of_step hc).mpr ((handles_nil _ s s).mpr rfl), ?_⟩
        exact (hsame t).mp ⟨n + 1, h⟩
      · exact absurd ⟨n + 1, h⟩ (hno t)

/-- **Cut**: a payload is handled as its pieces one after the other. -/
theorem handles_append (s t : Collator) (a b : List UInt8) :
    HandlesElementaryStream (mpeg maximum) s (a ++ b) .noError t ↔
      ∃ m, HandlesElementaryStream (mpeg maximum) s a .noError m ∧
        HandlesElementaryStream (mpeg maximum) m b .noError t := by
  by_cases hb : b = []
  · subst hb
    simp only [List.append_nil, handles_nil]
    exact ⟨fun h => ⟨t, h, rfl⟩, fun ⟨m, h, hm⟩ => hm ▸ h⟩
  · constructor
    · rintro ⟨n, hn⟩
      exact run_extend (c := ⟨s, a, none⟩) hb hn
    · rintro ⟨m, ⟨n, hn⟩, ht⟩
      exact returns_extend_of_run hb hn ht

/-- Successive payloads, all handled without an error. -/
inductive HandlesPayloads (e : Setting) : Collator → List (List UInt8) → Collator → Prop
  | nil (s : Collator) : HandlesPayloads e s [] s
  | cons {s m t : Collator} {payload : List UInt8} {payloads : List (List UInt8)} :
      HandlesElementaryStream e s payload .noError m → HandlesPayloads e m payloads t →
      HandlesPayloads e s (payload :: payloads) t

theorem handlesPayloads_iff_flatten (s t : Collator) (payloads : List (List UInt8)) :
    HandlesPayloads (mpeg maximum) s payloads t ↔
      HandlesElementaryStream (mpeg maximum) s payloads.flatten .noError t := by
  induction payloads generalizing s with
  | nil =>
    rw [List.flatten_nil, handles_nil]
    constructor
    · rintro ⟨⟩
      rfl
    · rintro rfl
      exact .nil _
  | cons payload payloads ih =>
    rw [List.flatten_cons, handles_append]
    constructor
    · rintro ⟨⟩
      next m hm ht => exact ⟨m, hm, (ih m).mp ht⟩
    · rintro ⟨m, hm, ht⟩
      exact .cons hm ((ih m).mpr ht)

theorem returns_unique {t t' : Collator}
    (h : Returns e c status t) (h' : Returns e c status' t') : status = status' ∧ t = t' := by
  obtain ⟨n, hn⟩ := h
  obtain ⟨n', hn'⟩ := h'
  have hlate := run_done_add hn n'
  rw [Nat.add_comm, run_done_add hn' n] at hlate
  exact (Next.done.inj hlate).imp Eq.symm Eq.symm

/-- **Cutting**: from every reachable state, if the call on the whole of a byte sequence comes back
and does not overflow the coded frame buffer, then every two cuttings of the sequence into payloads
are handled without an error and give the same frames, in the same order. -/
theorem frames_eq_of_cuttings {s t : Collator} (hs : Reachable (mpeg maximum) s)
    {bytes : List UInt8} {status : Status}
    (hreturns : HandlesElementaryStream (mpeg maximum) s bytes status t)
    (hlimit : status ≠ .bufferOverflow) {cutting cutting' : List (List UInt8)}
    (hcutting : cutting.flatten = bytes) (hcutting' : cutting'.flatten = bytes) :
    (∃ u u', HandlesPayloads (mpeg maximum) s cutting u ∧
      HandlesPayloads (mpeg maximum) s cutting' u') ∧
    ∀ u u', HandlesPayloads (mpeg maximum) s cutting u →
      HandlesPayloads (mpeg maximum) s cutting' u' → u.frames = u'.frames := by
  obtain rfl : status = .noError := (returns_status hs hreturns).resolve_right hlimit
  have hall : ∀ pieces : List (List UInt8), pieces.flatten = bytes → ∀ u,
      HandlesPayloads (mpeg maximum) s pieces u ↔
        HandlesElementaryStream (mpeg maximum) s bytes .noError u := by
    intro pieces hpieces u
    rw [handlesPayloads_iff_flatten, hpieces]
  constructor
  · exact ⟨t, t, (hall _ hcutting t).mpr hreturns, (hall _ hcutting' t).mpr hreturns⟩
  · intro u u' hu hu'
    have heq := returns_unique ((hall _ hcutting u).mp hu) ((hall _ hcutting' u').mp hu')
    rw [heq.2]

/-- A frame of 24 bytes. -/
def shortFrame : List UInt8 := [0xff, 0xf2, 0x14, 0x00, 0x00] ++ List.replicate 19 0x55

/-- Synchronization is lost after the first frame; the cut is inside the header of the third. -/
theorem frames_eq_of_cuttings_lost_frame :
    ∃ u, HandlesPayloads (mpeg 4096) Collator.start
      [shortFrame ++ [1, 2, 3, 4, 5, 6] ++ shortFrame ++ [0xff], [0xf2, 0x14, 0x00, 0x00, 0x55]] u ∧
      u.frames = [shortFrame] := by
  let t : Collator :=
    { Collator.start with
      collatorState := .readSubFrame
      gotPartialFrameHeaderBytes := 5
      framePayloadRemaining := 18
      accumulated := [0xff, 0xf2, 0x14, 0x00, 0x00, 0x55]
      frames := [shortFrame] }
  let whole := shortFrame ++ [1, 2, 3, 4, 5, 6] ++ shortFrame ++ [0xff, 0xf2, 0x14, 0x00, 0x00, 0x55]
  have hwhole : HandlesElementaryStream (mpeg 4096) Collator.start whole .noError t :=
    ⟨13, by decide +kernel⟩
  have hone : HandlesPayloads (mpeg 4096) Collator.start [whole] t := .cons hwhole (.nil t)
  have hcutting : [shortFrame ++ [1, 2, 3, 4, 5, 6] ++ shortFrame ++ [0xff],
      [0xf2, 0x14, 0x00, 0x00, 0x55]].flatten = whole := by decide +kernel
  have hcutting' : [whole].flatten = whole := by simp
  obtain ⟨⟨u, u', hu, hu'⟩, heq⟩ :=
    frames_eq_of_cuttings .start hwhole Status.noConfusion hcutting hcutting'
  exact ⟨u, hu, heq u t hu hone⟩

end Player2.Audio
