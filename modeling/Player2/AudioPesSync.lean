import Player2.AudioErrors
import Player2.AudioPes

/-! # PES synchronization of the audio collators

While the payload of a packet is handled, the PES machine keeps its place: it knows how much of the
packet is left and that a header follows.  A loss of the elementary synchronization does not
matter to it, as long as the recovery succeeds at the first attempt.  When the recovery meets a
second bad header, the nested call of `HandleElementaryStream` cleans up with
`DiscardAccumulatedData`, and this sets `SeekingPesHeader`: the rest of the packet is then searched
for a PES start code.  The same happens after a buffer overflow, and after any loss in a sub-class
without reprocessing.

`handles_seeking_iff` says that these are exactly the cases, and `run_synchronized` that without
them the machine keeps its place in a sequence of packets, whatever the calls. -/

namespace Player2.Audio

open Collator

variable {e : Setting}

/-! ### The elementary stream machine and the flags of the PES machine -/

/-- A pass that ends like this discards the accumulated data, and with it the place in the PES
stream: it overflows the buffer, or finds a bad header during a recovery, or without one. -/
def disturbs (e : Setting) (recovery : Option Recovery) : Outcome → Bool
  | .more _ _ => false
  | .missing _ _ => recovery.isSome || !e.reprocess
  | .fail _ _ => true

/-- The next pass does so. -/
def Disturbed (e : Setting) (c : Config) : Prop :=
  c.remaining ≠ [] ∧ disturbs e c.recovery (c.collator.pass e c.remaining) = true

instance (e : Setting) (c : Config) : Decidable (Disturbed e c) :=
  inferInstanceAs (Decidable (_ ∧ _))

/-- The first steps are not disturbed. -/
def Undisturbed (e : Setting) : ℕ → Config → Prop
  | 0, _ => True
  | n + 1, c => ¬ Disturbed e c ∧ ∀ c', step e c = .config c' → Undisturbed e n c'

/-- The condition can be checked by running the machine. -/
def decidableUndisturbed (e : Setting) : ∀ (n : ℕ) (c : Config), Decidable (Undisturbed e n c)
  | 0, _ => isTrue trivial
  | n + 1, c =>
    match h : step e c with
    | .config c' =>
      have := decidableUndisturbed e n c'
      decidable_of_iff (¬ Disturbed e c ∧ Undisturbed e n c') (by simp [Undisturbed, h])
    | .done _ _ => decidable_of_iff (¬ Disturbed e c) (by simp [Undisturbed, h])

instance (e : Setting) (n : ℕ) (c : Config) : Decidable (Undisturbed e n c) :=
  decidableUndisturbed e n c

/-- The two flags of the PES machine. -/
def flags (s : Collator) : Bool × Bool := (s.seekingPesHeader, s.gotPartialPesHeader)

theorem accumulateData_flags {s t : Collator} {bytes : List UInt8}
    (h : s.accumulateData e bytes = some t) : flags t = flags s := by
  obtain ⟨-, rfl⟩ := accumulateData_some h
  rfl

theorem internalFrameFlush_flags (s : Collator) : flags (s.internalFrameFlush e) = flags s := by
  have hout : ∀ t : Collator, flags t.outputFrame = flags t := by
    intro t
    unfold outputFrame
    split <;> rfl
  have hacc : ∀ (t : Collator) (bytes : List UInt8),
      flags ((t.accumulateData e bytes).getD t) = flags t := by
    intro t bytes
    unfold accumulateData
    split <;> rfl
  unfold internalFrameFlush
  split
  · exact (hacc _ _).trans (hout _)
  · exact hout s

theorem searchForSyncWord_flags (s : Collator) (data : List UInt8) :
    flags (s.searchForSyncWord e data).collator = flags s := by
  unfold searchForSyncWord
  dsimp only
  split
  · split
    · rfl
    · split
      next h => exact (accumulateData_flags h).trans rfl
      next => rfl
  · rfl

theorem readPartialFrameHeader_flags (s : Collator) (data : List UInt8) :
    flags (s.readPartialFrameHeader e data).collator = flags s := by
  unfold readPartialFrameHeader examineHeader
  dsimp only
  split
  · rfl
  next t h =>
    have hflags : flags t = flags s := accumulateData_flags h
    split
    · split
      · split <;> exact hflags
      · exact hflags
    · exact hflags

theorem readFrame_flags (s : Collator) (data : List UInt8) :
    flags (s.readFrame e data).collator = flags s := by
  unfold readFrame
  dsimp only
  split
  · rfl
  · split
    · split
      next => rfl
      next t h =>
        have hflags : flags t = flags s := accumulateData_flags h
        exact hflags
    · rfl

/-- No pass touches the flags by itself. -/
theorem pass_flags (s : Collator) (data : List UInt8) :
    flags (s.pass e data).collator = flags s := by
  unfold Collator.pass
  split
  · exact searchForSyncWord_flags s data
  · exact readPartialFrameHeader_flags s data
  · exact readPartialFrameHeader_flags s data
  · exact readFrame_flags s data
  · exact readFrame_flags s data
  · exact internalFrameFlush_flags s

/-- What a step leads to has these flags, and has not failed. -/
def KeepsFlags (f : Bool × Bool) : Next → Prop
  | .config c => flags c.collator = f
  | .done status s => status = .noError ∧ flags s = f

theorem retry_keepsFlags {s : Collator} (r : Recovery) : KeepsFlags (flags s) (retry e .noError s r) := by
  unfold retry
  split <;> exact rfl

variable {c : Config}

/-- A step that is not disturbed keeps the flags. -/
theorem step_keepsFlags (h : ¬ Disturbed e c) :
    KeepsFlags (flags c.collator) (step e c) := by
  unfold step
  split
  · split
    · exact ⟨rfl, rfl⟩
    · exact rfl
  next hrem =>
    have hflags := pass_flags (e := e) c.collator c.remaining
    cases hpass : c.collator.pass e c.remaining with
    | more s rest =>
      rw [hpass] at hflags
      exact hflags
    | missing s rest =>
      rw [hpass] at hflags
      have hno : (c.recovery.isSome || !e.reprocess) = false := by
        by_contra hyes
        exact h ⟨hrem, by rw [hpass]; exact Bool.not_eq_false _ |>.mp hyes⟩
      obtain ⟨hnone, hre⟩ := Bool.or_eq_false_iff.mp hno
      rw [Option.isSome_eq_false_iff, Option.isNone_iff_eq_none] at hnone
      rw [Bool.not_eq_false'] at hre
      simp only [hnone, missingHeader, hre, if_true]
      rw [← hflags]
      exact retry_keepsFlags _
    | fail status s => exact absurd ⟨hrem, by rw [hpass]; rfl⟩ h

/-- What a step leads to looks for a PES header. -/
def SeeksNext : Next → Prop
  | .config c => c.collator.seekingPesHeader = true
  | .done _ s => s.seekingPesHeader = true

variable {status : Status}

theorem resume_seeks {s : Collator} (rest : List UInt8)
    (h : s.seekingPesHeader = true) : SeeksNext (resume status s rest) := by
  unfold resume
  split
  · exact h
  · rfl

theorem retry_seeks {last : Status} {s : Collator} (r : Recovery)
    (h : s.seekingPesHeader = true) : SeeksNext (retry e last s r) := by
  unfold retry
  split
  · exact h
  · exact resume_seeks _ h

/-- Once the machine looks for a PES header it goes on to, and after a disturbance it does. -/
theorem step_seeks (h : c.collator.seekingPesHeader = true ∨ Disturbed e c) :
    SeeksNext (step e c) := by
  unfold step
  split
  next hrem =>
    have hseek := h.resolve_right (fun hd => hd.1 hrem)
    split
    · exact hseek
    · exact resume_seeks _ hseek
  next hrem =>
    have hflags := pass_flags (e := e) c.collator c.remaining
    cases hpass : c.collator.pass e c.remaining with
    | more s rest =>
      rw [hpass] at hflags
      have hseek := h.resolve_right (fun hd => by
        have := hd.2
        rw [hpass] at this
        cases this)
      exact (congrArg Prod.fst hflags).trans hseek
    | missing s rest =>
      rw [hpass] at hflags
      cases hr : c.recovery with
      | some r => exact retry_seeks r rfl
      | none =>
        simp only [missingHeader]
        split
        next hre =>
          have hseek := h.resolve_right (fun hd => by
            have := hd.2
            rw [hpass] at this
            simp [disturbs, hr, hre] at this)
          exact retry_seeks _ ((congrArg Prod.fst hflags).trans hseek)
        next => rfl
    | fail status s =>
      cases c.recovery with
      | none => rfl
      | some r => exact resume_seeks _ rfl

variable {n k steps : ℕ} {t : Collator}

theorem run_seeks (h : c.collator.seekingPesHeader = true)
    (hrun : run e n c = .done status t) : t.seekingPesHeader = true := by
  induction n generalizing c with
  | zero => exact absurd hrun (by simp [run])
  | succ n ih =>
    have hstep : SeeksNext (step e c) := step_seeks (.inl h)
    rw [run] at hrun
    cases hnext : step e c with
    | config c' =>
      rw [hnext] at hstep hrun
      exact ih hstep hrun
    | done status' s =>
      rw [hnext] at hstep hrun
      obtain ⟨-, rfl⟩ := Next.done.inj hrun
      exact hstep

/-- A call that comes back undisturbed has kept the flags, and has not failed. -/
theorem run_keepsFlags (hrun : run e n c = .done status t) (h : Undisturbed e n c) :
    status = .noError ∧ flags t = flags c.collator := by
  induction n generalizing c with
  | zero => exact absurd hrun (by simp [run])
  | succ n ih =>
    have hstep : KeepsFlags (flags c.collator) (step e c) := step_keepsFlags h.1
    rw [run] at hrun
    cases hnext : step e c with
    | config c' =>
      rw [hnext] at hstep hrun
      obtain ⟨hstatus, hflags⟩ := ih hrun (h.2 c' hnext)
      exact ⟨hstatus, hflags.trans hstep⟩
    | done status' s =>
      rw [hnext] at hstep hrun
      obtain ⟨rfl, rfl⟩ := Next.done.inj hrun
      exact hstep

/-- A call that comes back has lost the place in the PES stream exactly if it was disturbed. -/
theorem handles_seeking_iff {c : Config} (hseek : c.collator.seekingPesHeader = false) {n : ℕ}
    {status : Status} {t : Collator} (hrun : run e n c = .done status t) :
    t.seekingPesHeader = false ↔ Undisturbed e n c := by
  induction n generalizing c with
  | zero => exact absurd hrun (by simp [run])
  | succ n ih =>
    by_cases hd : Disturbed e c
    · have hstep : SeeksNext (step e c) := step_seeks (.inr hd)
      have htrue : t.seekingPesHeader = true := by
        rw [run] at hrun
        cases hnext : step e c with
        | config c' =>
          rw [hnext] at hstep hrun
          exact run_seeks hstep hrun
        | done status' s =>
          rw [hnext] at hstep hrun
          obtain ⟨-, rfl⟩ := Next.done.inj hrun
          exact hstep
      exact iff_of_false (by simp [htrue]) (fun hu => hu.1 hd)
    · have hstep : KeepsFlags (flags c.collator) (step e c) := step_keepsFlags hd
      rw [run] at hrun
      cases hnext : step e c with
      | config c' =>
        rw [hnext] at hstep hrun
        have hseek' : c'.collator.seekingPesHeader = false :=
          (congrArg Prod.fst hstep).trans hseek
        rw [ih hseek' hrun]
        constructor
        · intro hu
          refine ⟨hd, fun d hc => ?_⟩
          obtain rfl := Next.config.inj (hnext.symm.trans hc)
          exact hu
        · exact fun hu => hu.2 c' hnext
      | done status' s =>
        rw [hnext] at hstep hrun
        obtain ⟨-, rfl⟩ := Next.done.inj hrun
        refine iff_of_true ((congrArg Prod.fst hstep.2).trans hseek) ⟨hd, fun d hc => ?_⟩
        exact absurd (hnext.symm.trans hc) (by simp)

/-! ### The place in a sequence of packets -/

variable {e : PesSetting}

/-- A well formed packet: a header of the length it says, accepted by `ReadPesHeader`, and the
payload it announces. -/
structure Packet (e : PesSetting) where
  header : List UInt8
  payload : List UInt8
  header_length : header.length = pesHeaderSize header
  start_code : header.getD 0 0 = 0 ∧ header.getD 1 0 = 0 ∧ header.getD 2 0 = 1
  accepted : ∀ memory, (readPesTimes (header ++ memory) e.subStreamIdentifierMask
    e.subStreamIdentifierCode).isSome
  payload_length : payload.length = pesPayloadLength header

/-- The bytes of the packets. -/
def stream (packets : List (Packet e)) : List UInt8 :=
  packets.flatMap (fun p => p.header ++ p.payload)

/-- The bytes of their payloads. -/
def payloads (packets : List (Packet e)) : List UInt8 := packets.flatMap Packet.payload

/-- The PES machine has its place in a sequence of packets: with these bytes ahead of it, of which
those belong to payloads, it is in a payload, in a header, or at the end. -/
inductive Synchronized (e : PesSetting) (s : PesCollator) : List UInt8 → List UInt8 → Prop
  | payload (hseek : s.seekingPesHeader = false) (hgotPart : s.gotPartialPesHeader = false)
      (rest : List UInt8) (hrest : s.pesPayloadRemaining = rest.length)
      (packets : List (Packet e)) :
      Synchronized e s (rest ++ stream packets) (rest ++ payloads packets)
  | header (hseek : s.seekingPesHeader = false) (hgotPart : s.gotPartialPesHeader = true)
      (p : Packet e) (rest : List UInt8) (hsplit : p.header = s.storedPesHeader ++ rest)
      (hgot : s.storedPesHeader.length = s.gotPartialPesHeaderBytes) (packets : List (Packet e)) :
      Synchronized e s (rest ++ (p.payload ++ stream packets)) (p.payload ++ payloads packets)
  | last (hseek : s.seekingPesHeader = false) (hgotPart : s.gotPartialPesHeader = true)
      (hgot : s.gotPartialPesHeaderBytes = 0) : Synchronized e s [] []

variable {s : PesCollator}

theorem Synchronized.not_seeking {ahead payload : List UInt8}
    (h : Synchronized e s ahead payload) : s.seekingPesHeader = false := by
  cases h <;> assumption

/-- The payload bytes that have been offered to the elementary stream machine. -/
def offered (s : PesCollator) : List UInt8 := s.passed.flatMap Prod.snd

/-- The bytes that `ReadPartialPesHeader` wants. -/
def headerBytesNeeded (s : PesCollator) : ℕ :=
  (if s.gotPartialPesHeaderBytes < pesInitialHeaderSize then pesInitialHeaderSize
    else pesHeaderSize s.storedPesHeader) - s.gotPartialPesHeaderBytes

/-- The next pass keeps the place: there is room for a piece of a header, and the elementary
stream machine is not disturbed by a piece of a payload. -/
def Session.Undisturbed (e : PesSetting) (x : Session) (steps : ℕ) : Prop :=
  x.remaining ≠ [] →
    if x.collator.gotPartialPesHeader then
      x.collator.accumulated.length + min x.remaining.length (headerBytesNeeded x.collator) ≤
        e.maximumCodedFrameSize
    else Audio.Undisturbed e.toSetting steps ⟨x.collator.toCollator,
      x.remaining.take (min x.collator.pesPayloadRemaining x.remaining.length), none⟩

instance (e : PesSetting) (x : Session) (steps : ℕ) : Decidable (x.Undisturbed e steps) := by
  unfold Session.Undisturbed; infer_instance

/-- Two cuttings of the same bytes agree as far as both reach. -/
theorem take_drop_of_append_eq {a b c d : List UInt8} (h : a ++ b = c ++ d)
    (ha : k ≤ a.length) (hc : k ≤ c.length) :
    c.take k = a.take k ∧ a.drop k ++ b = c.drop k ++ d := by
  constructor
  · have htake := congrArg (List.take k) h
    rw [List.take_append_of_le_length ha, List.take_append_of_le_length hc] at htake
    exact htake.symm
  · have hdrop := congrArg (List.drop k) h
    rwa [List.drop_append_of_le_length ha, List.drop_append_of_le_length hc] at hdrop

theorem lastBytes_append (n : ℕ) (acc bytes : List UInt8) :
    lastBytes (n + bytes.length) (acc ++ bytes) = lastBytes n acc ++ bytes := by
  unfold lastBytes
  rw [List.length_append, Nat.add_sub_add_right, List.drop_append_of_le_length (Nat.sub_le _ _)]

theorem synchronized_boundary (hseek : s.seekingPesHeader = false)
    (hgotPart : s.gotPartialPesHeader = true) (hgot : s.gotPartialPesHeaderBytes = 0)
    (packets : List (Packet e)) : Synchronized e s (stream packets) (payloads packets) := by
  cases packets with
  | nil => exact .last hseek hgotPart hgot
  | cons p packets =>
    have hstored : s.storedPesHeader = [] := by
      simp [PesCollator.storedPesHeader, hgot, lastBytes]
    have h := Synchronized.header hseek hgotPart p p.header (by rw [hstored]; rfl)
      (by rw [hstored, hgot]; rfl) packets
    simpa [stream, payloads] using h

variable {data later rest total : List UInt8} {packets : List (Packet e)}

/-- A piece of a payload. -/
theorem readPesPacket_synchronized {c : Collator}
    (hseek : s.seekingPesHeader = false) (hgotPart : s.gotPartialPesHeader = false)
    (hflags : flags c = flags s.toCollator) (hrest : s.pesPayloadRemaining = rest.length)
    (hahead : rest ++ stream packets = data ++ later) :
    ∃ t rest' payload, s.readPesPacket data .noError c = .more t rest' ∧
      Synchronized e t (rest' ++ later) payload ∧
      offered t ++ payload = offered s ++ (rest ++ payloads packets) := by
  obtain ⟨k, hk⟩ : ∃ k, k = min rest.length data.length := ⟨_, rfl⟩
  obtain ⟨htake, hdrop⟩ := take_drop_of_append_eq hahead (k := k) (by omega) (by omega)
  have hseek' : c.seekingPesHeader = false := (congrArg Prod.fst hflags).trans hseek
  have hgotPart' : c.gotPartialPesHeader = false := (congrArg Prod.snd hflags).trans hgotPart
  simp only [PesCollator.readPesPacket, hrest, ← hk, if_true]
  have hoffered : ∀ tail : List UInt8, rest = rest.take k ++ tail →
      ∀ t : PesCollator, t.passed = s.passed ++ [(s.times, data.take k)] →
        offered t ++ (tail ++ payloads packets) = offered s ++ (rest ++ payloads packets) := by
    intro tail hsplit t ht
    simp only [offered, ht, List.flatMap_append, List.flatMap_cons, List.flatMap_nil,
      List.append_nil, List.append_assoc, htake]
    rw [← List.append_assoc (rest.take k), ← hsplit]
  by_cases hend : k = rest.length
  · -- the payload ends in the data
    refine ⟨_, _, payloads packets, rfl, ?_, ?_⟩
    · rw [← hdrop, hend, List.drop_length, List.nil_append]
      exact synchronized_boundary hseek' (if_pos rfl) (if_pos rfl) packets
    · exact hoffered [] (by rw [hend, List.take_length, List.append_nil]) _ rfl
  · refine ⟨_, _, rest.drop k ++ payloads packets, rfl, ?_, ?_⟩
    · rw [← hdrop]
      refine .payload hseek' ((if_neg hend).trans hgotPart') (rest.drop k) ?_ packets
      rw [List.length_drop]
    · exact hoffered (rest.drop k) (List.take_append_drop k rest).symm _ rfl

variable {p : Packet e}

/-- The header of a packet, complete. -/
theorem acceptPesHeader_synchronized (hseek : s.seekingPesHeader = false)
    (hstored : s.storedPesHeader = p.header) (packets : List (Packet e)) :
    Synchronized e (s.acceptPesHeader e) (p.payload ++ stream packets)
      (p.payload ++ payloads packets) ∧ (s.acceptPesHeader e).passed = s.passed := by
  obtain ⟨times, htimes⟩ := Option.isSome_iff_exists.mp (p.accepted (e.memory s.pesHeadersRead))
  obtain ⟨h0, h1, h2⟩ := p.start_code
  have haccept : s.acceptPesHeader e =
      { s with
        pesHeadersRead := s.pesHeadersRead + 1
        accumulated := s.accumulated.take (s.accumulated.length - pesHeaderSize p.header)
        pesPayloadRemaining := pesPayloadLength p.header
        gotPartialPesHeader := false
        times := times } := by
    simp only [PesCollator.acceptPesHeader, hstored, h0, h1, h2, ne_eq, not_true, or_self, if_false,
      htimes]
  rw [haccept]
  refine ⟨?_, rfl⟩
  apply Synchronized.payload
  · exact hseek
  · rfl
  · exact p.payload_length.symm

/-- The bytes that `ReadPartialPesHeader` wants are bytes of the header. -/
theorem headerBytesNeeded_le (hsplit : p.header = s.storedPesHeader ++ rest)
    (hgot : s.storedPesHeader.length = s.gotPartialPesHeaderBytes) :
    headerBytesNeeded s ≤ rest.length ∧
      (¬ s.gotPartialPesHeaderBytes < pesInitialHeaderSize → headerBytesNeeded s = rest.length) := by
  have hlen : s.storedPesHeader.length + rest.length = 9 + (p.header.getD 8 0).toNat := by
    rw [← List.length_append, ← hsplit]
    exact p.header_length
  unfold headerBytesNeeded pesInitialHeaderSize
  split
  next hlt => exact ⟨by omega, fun hge => absurd hlt hge⟩
  next hge =>
    have height : s.storedPesHeader.getD 8 0 = p.header.getD 8 0 := by
      rw [hsplit, List.getD_append _ _ _ _ (by omega)]
    unfold pesHeaderSize
    rw [height]
    omega

/-- What the next piece of a header does. -/
theorem readPartialPesHeader_eq (hk : k = min data.length (headerBytesNeeded s))
    (hroom : s.accumulated.length + min data.length (headerBytesNeeded s) ≤ e.maximumCodedFrameSize) :
    ∃ t : PesCollator, t = { s with
        accumulated := s.accumulated ++ data.take k
        gotPartialPesHeaderBytes := s.gotPartialPesHeaderBytes + k } ∧
      s.readPartialPesHeader e data = .more
        (if ¬ s.gotPartialPesHeaderBytes < pesInitialHeaderSize ∧ headerBytesNeeded s = k then
          t.acceptPesHeader e else t) (data.drop k) ∧
      t.storedPesHeader = s.storedPesHeader ++ data.take k ∧ (data.take k).length = k := by
  have hlen : (data.take k).length = k := List.length_take_of_le (by omega)
  have hacc : s.toCollator.accumulateData e.toSetting (data.take k) =
      some { s.toCollator with accumulated := s.accumulated ++ data.take k } :=
    accumulateData_of_le (by rw [hlen, hk]; exact hroom)
  refine ⟨_, rfl, ?_, ?_, hlen⟩
  · simp only [PesCollator.readPartialPesHeader]
    rw [← headerBytesNeeded, ← hk, hacc]
  · have h := lastBytes_append s.gotPartialPesHeaderBytes s.accumulated (data.take k)
    rw [hlen] at h
    exact h

/-- A piece of a header. -/
theorem readPartialPesHeader_synchronized
    (hseek : s.seekingPesHeader = false) (hgotPart : s.gotPartialPesHeader = true)
    (hsplit : p.header = s.storedPesHeader ++ rest)
    (hgot : s.storedPesHeader.length = s.gotPartialPesHeaderBytes)
    (hroom : s.accumulated.length + min data.length (headerBytesNeeded s) ≤ e.maximumCodedFrameSize)
    (hahead : rest ++ (p.payload ++ stream packets) = data ++ later) :
    ∃ t rest', s.readPartialPesHeader e data = .more t rest' ∧
      Synchronized e t (rest' ++ later) (p.payload ++ payloads packets) ∧ t.passed = s.passed := by
  obtain ⟨hle, hall⟩ := headerBytesNeeded_le hsplit hgot
  obtain ⟨k, hk⟩ : ∃ k, k = min data.length (headerBytesNeeded s) := ⟨_, rfl⟩
  obtain ⟨htake, hdrop⟩ := take_drop_of_append_eq hahead (k := k) (by omega) (by omega)
  obtain ⟨t, ht, hread, hstored, -⟩ := readPartialPesHeader_eq hk hroom
  rw [htake] at hstored
  refine ⟨_, _, hread, ?_⟩
  rw [← hdrop]
  by_cases hend : ¬ s.gotPartialPesHeaderBytes < pesInitialHeaderSize ∧ headerBytesNeeded s = k
  · rw [if_pos hend]
    have hkrest : k = rest.length := by rw [← hend.2, hall hend.1]
    rw [hkrest, List.drop_length, List.nil_append]
    rw [hkrest, List.take_length, ← hsplit] at hstored
    obtain ⟨hsync, hpassed⟩ := acceptPesHeader_synchronized (s := t) (by rw [ht]; exact hseek)
      hstored packets
    exact ⟨hsync, hpassed.trans (by rw [ht])⟩
  · rw [if_neg hend]
    refine ⟨.header (by rw [ht]; exact hseek) (by rw [ht]; exact hgotPart) p (rest.drop k) ?_ ?_
      packets, by rw [ht]⟩
    · rw [hstored, List.append_assoc, List.take_append_drop, hsplit]
    · rw [hstored, List.length_append, List.length_take_of_le (by omega), hgot, ht]

/-! ### Whole runs -/

/-- The machine has its place, and every byte of a payload has been offered or is ahead. -/
def Placed (e : PesSetting) (total : List UInt8) (x : Session) : Prop :=
  ∃ payload, Synchronized e x.collator (x.remaining ++ x.chunks.flatten) payload ∧
    offered x.collator ++ payload = total

theorem pass_placed {x : Session} (hrem : x.remaining ≠ [])
    (hplaced : Placed e total x) (hundisturbed : x.Undisturbed e steps)
    {o : PesOutcome} (hpass : x.collator.pass e steps x.remaining = some o) :
    ∃ t rest, o = .more t rest ∧ Placed e total ⟨t, rest, x.chunks⟩ := by
  obtain ⟨s, data, chunks⟩ := x
  obtain ⟨payload, hsync, htotal⟩ := hplaced
  have hcond := hundisturbed hrem
  dsimp only at hrem hpass hcond hsync htotal
  generalize hahead : data ++ chunks.flatten = ahead at hsync
  cases hsync with
  | payload hseek hgotPart rest hrest packets =>
    rw [if_neg (by simp [hgotPart])] at hcond
    simp only [PesCollator.pass, hseek, hgotPart, Bool.false_eq_true, if_false] at hpass
    cases hrun : run e.toSetting steps
        ⟨s.toCollator, data.take (min s.pesPayloadRemaining data.length), none⟩ with
    | config c => rw [hrun] at hpass; exact absurd hpass (by simp)
    | done status c =>
      rw [hrun] at hpass
      obtain ⟨rfl, hflags⟩ := run_keepsFlags hrun hcond
      obtain ⟨t, rest', payload', hread, hsync', hoffered⟩ :=
        readPesPacket_synchronized hseek hgotPart hflags hrest hahead.symm
      refine ⟨t, rest', ?_, payload', hsync', hoffered.trans htotal⟩
      rw [← hread]
      exact (Option.some.inj hpass).symm
  | header hseek hgotPart p rest hsplit hgot packets =>
    rw [if_pos hgotPart] at hcond
    simp only [PesCollator.pass, hseek, hgotPart, Bool.false_eq_true, if_false, if_true] at hpass
    obtain ⟨t, rest', hread, hsync', hpassed⟩ :=
      readPartialPesHeader_synchronized hseek hgotPart hsplit hgot hcond hahead.symm
    refine ⟨t, rest', ?_, _, hsync', ?_⟩
    · rw [← hread]
      exact (Option.some.inj hpass).symm
    · rw [← htotal]
      simp only [offered, hpassed]
  | last hseek hgotPart hgot => exact absurd (List.append_eq_nil_iff.mp hahead).1 hrem

theorem step_placed {x y : Session} (hplaced : Placed e total x)
    (hundisturbed : x.Undisturbed e steps) (hstep : x.step e steps = some y) :
    Placed e total y := by
  unfold Session.step at hstep
  split at hstep
  next hrem =>
    split at hstep
    · exact absurd hstep (by simp)
    next chunk chunks hchunks =>
      obtain rfl := Option.some.inj hstep
      obtain ⟨payload, hsync, htotal⟩ := hplaced
      rw [hrem, hchunks] at hsync
      exact ⟨payload, hsync, htotal⟩
  next hrem =>
    obtain ⟨o, hpass, rfl⟩ := Option.map_eq_some_iff.mp hstep
    obtain ⟨t, rest, rfl, hnext⟩ := pass_placed hrem hplaced hundisturbed hpass
    exact hnext

/-- **PES synchronization**: from a place in a sequence of well formed packets and for every
splitting of the bytes ahead into calls, in a run in which no pass of the elementary stream machine
overflows the buffer, or finds a bad header while it recovers from another, and in which the
headers fit, the PES machine has its place in every state: it is not looking for a header, it knows
how much of the packet is left, and every byte of the payloads has been offered to the elementary
stream machine or is still ahead. -/
theorem run_synchronized {s : PesCollator} {chunks : List (List UInt8)} {payload : List UInt8}
    (hsync : Synchronized e s chunks.flatten payload) {labels : List ℕ}
    (hundisturbed : Lts.Along (Session.step e) (Session.Undisturbed e) ⟨s, [], chunks⟩ labels)
    {x : Session} (hrun : Lts.run (Session.step e) ⟨s, [], chunks⟩ labels = some x) :
    ∃ payload', Synchronized e x.collator (x.remaining ++ x.chunks.flatten) payload' ∧
      offered x.collator ++ payload' = offered s ++ payload :=
  Lts.run_invariant_along (fun _ _ _ hI hP hstep => step_placed hI hP hstep)
    ⟨payload, hsync, rfl⟩ hundisturbed hrun

theorem pesPayloadLength_eq {header : List UInt8} {length : ℕ}
    (hlength : (header.getD 4 0).toNat * 256 + (header.getD 5 0).toNat = length)
    (h : (header.getD 8 0).toNat + 3 ≤ length) :
    pesPayloadLength header = length - (header.getD 8 0).toNat - 3 := by
  have hhigh := (header.getD 4 0).toNat_lt
  have hlow := (header.getD 5 0).toNat_lt
  have hsum : length + 2 ^ 32 - (header.getD 8 0).toNat - 3 =
      length - (header.getD 8 0).toNat - 3 + 2 ^ 32 := by omega
  unfold pesPayloadLength
  simp only [hlength]
  rw [if_neg (by omega), hsum, Nat.add_mod_right, Nat.mod_eq_of_lt (by omega)]

/-- A packet without times, and with a payload of less than 253 bytes. -/
def plainPacket (e : PesSetting) (payload : List UInt8) (h : payload.length < 253) : Packet e where
  header := [0, 0, 1, 0xc0, 0, UInt8.ofNat (payload.length + 3), 0x80, 0, 0]
  payload := payload
  header_length := rfl
  start_code := ⟨rfl, rfl, rfl⟩
  accepted := by
    intro memory
    have hpes : (128 : UInt8) &&& 192 = 128 := by decide
    have hclear : ¬ (128 : UInt8) &&& 32 = 32 := by decide
    simp [readPesTimes, readPesFields, isPesStartCodeExtendedStreamId, hpes, hclear]
  payload_length := by
    have hlow : (UInt8.ofNat (payload.length + 3)).toNat = payload.length + 3 := by
      rw [UInt8.toNat_ofNat']
      omega
    have hlength : (([0, 0, 1, 0xc0, 0, UInt8.ofNat (payload.length + 3), 0x80, 0, 0] :
        List UInt8).getD 4 0).toNat * 256 + (([0, 0, 1, 0xc0, 0, UInt8.ofNat (payload.length + 3),
          0x80, 0, 0] : List UInt8).getD 5 0).toNat = payload.length + 3 := by
      simp only [List.getD_cons_succ, List.getD_cons_zero, UInt8.toNat_zero, Nat.zero_mul,
        Nat.zero_add, hlow]
    rw [pesPayloadLength_eq hlength]
    · simp
    · simp

/-- The MPEG audio collator with the header of a packet complete: the payload is ahead. -/
def headerRead (length : UInt8) : PesCollator :=
  { PesCollator.start with
    seekingPesHeader := false
    gotPartialPesHeader := true
    gotPartialPesHeaderBytes := 9
    accumulated := [0, 0, 1, 0xc0, 0, length, 0x80, 0, 0] }

/-- A frame that is not followed by a header. -/
def lostOnce : List UInt8 :=
  [0xff, 0xf2, 0x14, 0x00, 0x00] ++ List.replicate 19 0x55 ++ [1, 2, 3, 4, 5]

/-- Such a frame with a synchronization word in it that is not followed by a header either. -/
def lostTwice : List UInt8 :=
  [0xff, 0xf2, 0x14, 0x00, 0x00, 0x55, 0xff, 0xe0, 0x00, 0x00, 0x00] ++ List.replicate 13 0x55 ++
    [1, 2, 3, 4, 5]

/-- In a call with the second frame the place is lost. -/
theorem handles_seeking_iff_lostTwice :
    ∃ status t, run (mpeg 4096) 40 ⟨{ Collator.start with seekingPesHeader := false }, lostTwice, none⟩ =
        .done status t ∧ t.seekingPesHeader = true ∧
      (t.seekingPesHeader = false ↔
        Undisturbed (mpeg 4096) 40 ⟨{ Collator.start with seekingPesHeader := false }, lostTwice, none⟩) := by
  have hdone : (match run (mpeg 4096) 40
      ⟨{ Collator.start with seekingPesHeader := false }, lostTwice, none⟩ with
    | .config _ => false
    | .done _ t => t.seekingPesHeader) = true := by decide +kernel
  cases hrun : run (mpeg 4096) 40 ⟨{ Collator.start with seekingPesHeader := false }, lostTwice, none⟩ with
  | config c =>
    rw [hrun] at hdone
    cases hdone
  | done status t =>
    rw [hrun] at hdone
    exact ⟨status, t, rfl, hdone, handles_seeking_iff rfl hrun⟩

theorem synchronized_headerRead {payload : List UInt8} (h : payload.length < 253) {length : UInt8}
    (hlength : length = UInt8.ofNat (payload.length + 3)) {chunks : List (List UInt8)}
    (hchunks : chunks.flatten = payload) :
    Synchronized (mpegPes 4096 fun _ => []) (headerRead length) chunks.flatten payload := by
  subst hlength
  have hsync := Synchronized.header (e := mpegPes 4096 fun _ => [])
    (s := headerRead (UInt8.ofNat (payload.length + 3))) rfl rfl (plainPacket _ payload h) [] rfl rfl []
  rw [hchunks]
  simpa [stream, payloads, plainPacket] using hsync

/-- Synchronization is lost once in the first call, and the packet goes on in the second. -/
theorem run_synchronized_lost_once :
    ∃ x, Lts.run (Session.step (mpegPes 4096 fun _ => []))
        ⟨headerRead 35, [], [lostOnce, [0x55, 0x55, 0x55]]⟩ [0, 0, 40] = some x ∧
      x.collator.seekingPesHeader = false ∧ x.collator.pesPayloadRemaining = 3 ∧
      ∃ payload, Synchronized (mpegPes 4096 fun _ => []) x.collator
        (x.remaining ++ x.chunks.flatten) payload := by
  have hsome : (Lts.run (Session.step (mpegPes 4096 fun _ => []))
      ⟨headerRead 35, [], [lostOnce, [0x55, 0x55, 0x55]]⟩ [0, 0, 40]).map (fun x =>
        (x.collator.seekingPesHeader, x.collator.pesPayloadRemaining)) = some (false, 3) := by
    decide +kernel
  obtain ⟨x, hrun, hx⟩ := Option.map_eq_some_iff.mp hsome
  have hsync : Synchronized (mpegPes 4096 fun _ => []) (headerRead 35)
      [lostOnce, [0x55, 0x55, 0x55]].flatten (lostOnce ++ [0x55, 0x55, 0x55]) :=
    synchronized_headerRead (by decide +kernel) (by decide +kernel) (by decide +kernel)
  obtain ⟨payload, hplaced, -⟩ := run_synchronized hsync (by decide +kernel) hrun
  exact ⟨x, hrun, congrArg Prod.fst hx, congrArg Prod.snd hx, payload, hplaced⟩

/-- After a second loss in the same packet the rest of the packet is searched for a PES header. -/
theorem not_synchronized_lost_twice :
    ¬ ∀ (s : PesCollator) (chunks : List (List UInt8)) (payload : List UInt8) (labels : List ℕ)
      (x : Session), (∃ labels₀ chunks₀, Lts.run (Session.step (mpegPes 4096 fun _ => []))
        ⟨PesCollator.start, [], chunks₀⟩ labels₀ = some ⟨s, [], []⟩) →
      Synchronized (mpegPes 4096 fun _ => []) s chunks.flatten payload →
      Lts.run (Session.step (mpegPes 4096 fun _ => [])) ⟨s, [], chunks⟩ labels = some x →
      ∃ payload', Synchronized (mpegPes 4096 fun _ => []) x.collator
        (x.remaining ++ x.chunks.flatten) payload' := by
  intro h
  have hsome : (Lts.run (Session.step (mpegPes 4096 fun _ => []))
      ⟨headerRead 35, [], [lostTwice, [0x55, 0x55, 0x55]]⟩ [0, 0, 40]).map (fun x =>
        x.collator.seekingPesHeader) = some true := by
    decide +kernel
  obtain ⟨x, hrun, hx⟩ := Option.map_eq_some_iff.mp hsome
  have hsync : Synchronized (mpegPes 4096 fun _ => []) (headerRead 35)
      [lostTwice, [0x55, 0x55, 0x55]].flatten (lostTwice ++ [0x55, 0x55, 0x55]) :=
    synchronized_headerRead (by decide +kernel) (by decide +kernel) (by decide +kernel)
  have hreach : Lts.run (Session.step (mpegPes 4096 fun _ => []))
      ⟨PesCollator.start, [], [[0, 0, 1, 0xc0, 0, 35, 0x80, 0, 0]]⟩ [0, 0, 0] =
        some ⟨headerRead 35, [], []⟩ := by
    decide +kernel
  obtain ⟨payload, hplaced⟩ := h _ _ _ _ x ⟨_, _, hreach⟩ hsync hrun
  rw [hplaced.not_seeking] at hx
  exact absurd hx (by simp)

end Player2.Audio
