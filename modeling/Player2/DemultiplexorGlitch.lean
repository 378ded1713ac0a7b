import Player2.DemultiplexorDemux
import Mathlib.Data.List.Induction

/-! # Glitches signalled by the demultiplexor

`Demux` calls `InputGlitch` for a packet whose continuity counter does not fit the expectation that
the last packet of the stream left.  What should be signalled is an unannounced loss: the counter
`jumps` from the last packet with a payload, and no discontinuity indicator was carried by the
packet itself or by a packet without a payload in between (`unannouncedLoss`).

The source tests the counter before it looks at the discontinuity indicator of the packet, and lets
the indicator suppress the test of the next packet instead; of a packet that repeats the counter,
as packets without a payload do, it forgets the indicator.  So what it compares with is the counter
of the last packet of any kind (`countLeft`), unless all the packets that repeat this counter have
an indicator.  `signals_iff` says for which packets the two agree. -/

namespace Player2.Demultiplexor

open Dvb

variable {σ : Type*}

/-! ### The specification -/

/-- The counter of `p` is neither that of `q` nor the next one. -/
def jumps (q p : List UInt8) : Bool :=
  continuityCount p != continuityCount q && continuityCount p != (continuityCount q + 1) % 16

/-- The last packet with a payload. -/
def lastPayload (history : List (List UInt8)) : Option (List UInt8) :=
  history.reverse.find? hasPayload

/-- The packets since the last one with a payload. -/
def sinceLastPayload (history : List (List UInt8)) : List (List UInt8) :=
  history.reverse.takeWhile fun p => !hasPayload p

/-- A discontinuity was announced by `p` or since the last packet with a payload. -/
def announced (history : List (List UInt8)) (p : List UInt8) : Bool :=
  discontinuity p || (sinceLastPayload history).any discontinuity

/-- There was a loss before `p` that was not announced. -/
def unannouncedLoss (history : List (List UInt8)) (p : List UInt8) : Bool :=
  (lastPayload history).any (fun r => jumps r p) && !announced history p

/-- The packets at the end that have the counter `count`. -/
def endingWith (history : List (List UInt8)) (count : ℕ) : List (List UInt8) :=
  history.reverse.takeWhile fun q => continuityCount q == count

/-- The counter of the last packet, unless all the packets at the end that have it have an indicator. -/
def countLeft (history : List (List UInt8)) : Option ℕ :=
  history.getLast?.bind fun q =>
    if (endingWith history (continuityCount q)).all discontinuity then none
    else some (continuityCount q)

/-- The counter of `p` jumps from the one that the packets have left. -/
def Strays (history : List (List UInt8)) (p : List UInt8) : Prop :=
  ∃ q, history.getLast? = some q ∧ jumps q p ∧
    (endingWith history (continuityCount q)).all discontinuity = false

/-- **The condition on a packet** with a payload. -/
structure Regular (history : List (List UInt8)) (p : List UInt8) : Prop where
  /-- Where a discontinuity is announced the counter does not stray: the source tests it all the same. -/
  announcement : announced history p → ¬ Strays history p
  /-- The first packet with a payload does not stray from packets without one. -/
  first : lastPayload history = none → ¬ Strays history p
  /-- A packet without a payload has no counter of its own, as far as `p` can tell. -/
  counts : ∀ r q, lastPayload history = some r → history.getLast? = some q → hasPayload q = false →
    announced history p = false → (jumps q p ↔ jumps r p)
  /-- There is no loss right behind packets that all have an indicator. -/
  indicator : ∀ r, history.getLast? = some r → hasPayload r → announced history p = false →
    jumps r p → (endingWith history (continuityCount r)).all discontinuity = false

namespace Context

/-- The context after a sequence of packets. -/
def after (c : Context σ) (ps : List (List UInt8)) : Context σ :=
  ps.foldl (fun c p => (c.packet p).1) c

/-- The packets of the stream of an entry. -/
def ofStream (c : Context σ) (entry : ℕ) (ps : List (List UInt8)) : List (List UInt8) :=
  ps.filter fun p => wellFormed p && pid p == pidTableIndex (c.base entry).identifier

/-- For the packets with a payload of an entry's stream, a glitch is signalled exactly on an
unannounced loss. -/
def Signals (c : Context σ) (entry : ℕ) (ps : List (List UInt8)) : Prop :=
  ∀ before p rest, ps = before ++ p :: rest → c.Matches entry p → hasPayload p →
    (.inputGlitch entry ∈ ((c.after before).packet p).2 ↔
      unannouncedLoss (c.ofStream entry before) p)

end Context

/-! ### One packet -/

theorem jumps_iff {q p : List UInt8} : jumps q p ↔
    continuityCount p ≠ continuityCount q ∧ continuityCount p ≠ (continuityCount q + 1) % 16 := by
  simp [jumps]

variable {s : StreamContext}

/-- The expected count is the one after the previous count. -/
theorem StreamContext.expected_of_previousCount {count : ℕ}
    (hs : s.expectedContinuityCount < 16) (h : s.previousCount = some count) :
    s.validExpectedContinuityCount ∧ s.expectedContinuityCount = (count + 1) % 16 := by
  unfold previousCount at h
  split at h
  next hvalid =>
    refine ⟨hvalid, ?_⟩
    have hcount := Option.some.inj h
    omega
  · cases h

theorem StreamContext.not_valid_of_previousCount (h : s.previousCount = none) :
    s.validExpectedContinuityCount = false := by
  unfold previousCount at h
  split at h
  · cases h
  next hvalid => exact Bool.eq_false_iff.mpr hvalid

namespace Context

theorem inputGlitch_not_mem_passOn (c : Context σ) (entry : ℕ) (bytes : List UInt8) (offset : ℕ) :
    .inputGlitch entry ∉ c.passOn entry bytes offset := by
  unfold passOn
  split
  · exact List.not_mem_nil
  · split <;> simp

variable {c : Context σ} {entry : ℕ} {p : List UInt8}

/-- **One packet** of the stream: what it leaves, and when a glitch is signalled. -/
theorem packet_signals (hc : c.Consistent) (hentry : entry < maxStreams)
    (hlive : (c.base entry).stream.isSome) (hp : p.length = packetSize)
    (hmatch : c.Matches entry p) :
    ((c.packet p).1.streams entry).previousCount =
        (if (c.streams entry).previousCount = some (continuityCount p) then some (continuityCount p)
          else if discontinuity p then none else some (continuityCount p)) ∧
      (.inputGlitch entry ∈ (c.packet p).2 ↔ ∃ count, (c.streams entry).previousCount = some count ∧
        continuityCount p ≠ count ∧ continuityCount p ≠ (count + 1) % 16) := by
  have htake : p.take packetSize = p := List.take_of_length_le hp.le
  have hcount := hc.count_lt entry
  rw [packet_of_matches hc hentry hlive (htake.symm ▸ hmatch), c.entryPacket_of_take entry p hcount,
    htake]
  by_cases hrepeat : (c.streams entry).previousCount = some (continuityCount p)
  · rw [if_pos hrepeat, if_pos hrepeat]
    refine ⟨hrepeat, ?_⟩
    simp [hrepeat]
  · rw [if_neg hrepeat, if_neg hrepeat]
    constructor
    · rw [expect_previousCount c entry (continuityCount_lt p)]
      cases discontinuity p <;> rfl
    · rw [List.mem_append, or_iff_left (inputGlitch_not_mem_passOn c entry p _)]
      cases hprevious : (c.streams entry).previousCount with
      | none =>
        rw [StreamContext.not_valid_of_previousCount hprevious]
        simp
      | some count =>
        obtain ⟨hvalid, hexpected⟩ := StreamContext.expected_of_previousCount hcount hprevious
        have hne : continuityCount p ≠ count := fun heq => hrepeat (by rw [hprevious, heq])
        rw [hvalid, hexpected]
        constructor
        · intro hmem
          refine ⟨count, rfl, hne, fun hnext => ?_⟩
          simp [hnext] at hmem
        · rintro ⟨count', hcount', -, hjumps⟩
          obtain rfl := Option.some.inj hcount'
          simp [hjumps]

/-- The loop body reads no more than the packet. -/
theorem packet_take (c : Context σ) (bytes : List UInt8) :
    c.packet (bytes.take packetSize) = c.packet bytes := by
  have hpass : ∀ entry off, c.passOn entry (bytes.take packetSize) off = c.passOn entry bytes off := by
    intro entry off
    rw [passOn, passOn, header_take, List.drop_take, List.take_take, Nat.min_self]
  have hfour : byteAt (bytes.take packetSize) headerSize = byteAt bytes headerSize :=
    byteAt_take (by decide)
  have hfive : byteAt (bytes.take packetSize) (headerSize + 1) = byteAt bytes (headerSize + 1) :=
    byteAt_take (by decide)
  simp only [packet, entryPacket, header_take, hpass, hfour, hfive]

/-! ### A sequence of packets -/

/-- The events of a sequence of packets. -/
def events : Context σ → List (List UInt8) → List (Event σ)
  | _, [] => []
  | c, p :: ps => (c.packet p).2 ++ (c.packet p).1.events ps

/-- A collator is given something of the packet with the number `i`, and has no room for it; `log` holds the events
before the packets. -/
def noRoom (overflow : List (Event σ) → Bool) :
    List (Event σ) → Context σ → List (List UInt8) → ℕ → Bool
  | _, _, [], _ => false
  | log, c, p :: _, 0 => (c.packet p).2.any Event.isInput && overflow (log ++ (c.packet p).2)
  | log, c, p :: ps, i + 1 => noRoom overflow (log ++ (c.packet p).2) (c.packet p).1 ps i

/-- What the status says after `n` of the packets: there was room for all, or for all but the last one. -/
def Ends (overflow : List (Event σ) → Bool) (log : List (Event σ)) (c : Context σ)
    (ps : List (List UInt8)) (status : Status) (n : ℕ) : Prop :=
  (status = .noError ∧ n = ps.length ∧ ∀ i < n, noRoom overflow log c ps i = false) ∨
    (status = .bufferOverflow ∧ ∃ i, n = i + 1 ∧ noRoom overflow log c ps i ∧
      ∀ j < i, noRoom overflow log c ps j = false)

variable {ps : List (List UInt8)}

theorem Ends.cons {overflow : List (Event σ) → Bool} {log : List (Event σ)}
    {status : Status} {n : ℕ}
    (hroom : noRoom overflow log c (p :: ps) 0 = false)
    (h : Ends overflow (log ++ (c.packet p).2) (c.packet p).1 ps status n) :
    Ends overflow log c (p :: ps) status (n + 1) := by
  have hbefore : ∀ k, (∀ i < k, noRoom overflow (log ++ (c.packet p).2) (c.packet p).1 ps i = false) →
      ∀ i < k + 1, noRoom overflow log c (p :: ps) i = false := by
    intro k hk i hi
    cases i with
    | zero => exact hroom
    | succ i => exact hk i (by omega)
  rcases h with ⟨hs, hn, hall⟩ | ⟨hs, i, hn, hlast, hall⟩
  · exact .inl ⟨hs, congrArg Nat.succ hn, hbefore n hall⟩
  · exact .inr ⟨hs, i + 1, congrArg Nat.succ hn, hlast, hbefore i hall⟩

/-- The loop goes through the packets of the buffer, up to one that finds no room. -/
theorem demuxLoop_events (overflow : List (Event σ) → Bool) (data : List UInt8) (n : ℕ)
    {fuel start : ℕ} (hfuel : n < fuel)
    (hlen : data.length = start + n * (packetSize + c.bluRayExtraData)) (log : List (Event σ)) :
    ∃ status m, demuxLoop overflow data fuel start c log = some (status,
        c.after ((packets c.bluRayExtraData n (data.drop start)).take m),
        log ++ c.events ((packets c.bluRayExtraData n (data.drop start)).take m)) ∧
      Ends overflow log c (packets c.bluRayExtraData n (data.drop start)) status m := by
  induction n generalizing fuel start c log with
  | zero =>
    obtain ⟨fuel, rfl⟩ := Nat.exists_eq_succ_of_ne_zero (Nat.ne_of_gt hfuel)
    refine ⟨.noError, 0, ?_, .inl ⟨rfl, rfl, nofun⟩⟩
    rw [demuxLoop, if_pos (by omega)]
    simp [after, events]
  | succ n ih =>
    obtain ⟨fuel, rfl⟩ := Nat.exists_eq_succ_of_ne_zero (Nat.ne_of_gt (Nat.zero_lt_of_lt hfuel))
    have hpackets : packets c.bluRayExtraData (n + 1) (data.drop start) =
        (data.drop (start + c.bluRayExtraData)).take packetSize ::
          packets c.bluRayExtraData n (data.drop (start + (packetSize + c.bluRayExtraData))) := by
      rw [packets, List.drop_drop, List.drop_drop]
    have hextra := c.packet_extraData (data.drop (start + c.bluRayExtraData))
    have htake := c.packet_take (data.drop (start + c.bluRayExtraData))
    rw [Nat.succ_mul] at hlen
    have hsize : 0 < packetSize := by decide
    rw [demuxLoop, if_neg (by omega), hpackets, ← htake]
    rw [← htake] at hextra
    generalize (data.drop (start + c.bluRayExtraData)).take packetSize = p at hextra ⊢
    dsimp only
    split
    next hfull =>
      refine ⟨.bufferOverflow, 1, ?_, .inr ⟨rfl, 0, rfl, hfull, nofun⟩⟩
      rw [List.take_succ_cons, List.take_zero, events, events, List.append_nil]
      rfl
    next hroom =>
      obtain ⟨status, m, hloop, hends⟩ := ih (show n < fuel by omega) (show data.length =
        start + (packetSize + c.bluRayExtraData) + n * (packetSize + (c.packet p).1.bluRayExtraData) by
          rw [hextra]; omega) (log ++ (c.packet p).2)
      rw [hextra] at hloop hends
      refine ⟨status, m + 1, ?_, hends.cons (Bool.eq_false_iff.mpr hroom)⟩
      rw [hloop, List.take_succ_cons, events, List.append_assoc]
      rfl

/-- **A call of `Demux`** is a run through the packets of its buffer, up to the first one for which a collator
has no room. -/
theorem demux_events (c : Context σ) (overflow : List (Event σ) → Bool) {data : List UInt8}
    (hdata : data.length % 188 = 0 ∨ data.length % 192 = 0) :
    ∃ status n, c.demux overflow data = some (status,
        (c.settlePacketSize data).after ((c.packetsOf data).take n),
        (c.settlePacketSize data).events ((c.packetsOf data).take n)) ∧
      Ends overflow [] (c.settlePacketSize data) (c.packetsOf data) status n := by
  have hfits := settlePacketSize_fits (c := c) hdata
  have hcount : data.length = 0 + data.length /
      (packetSize + (c.settlePacketSize data).bluRayExtraData) *
        (packetSize + (c.settlePacketSize data).bluRayExtraData) := by
    rw [Nat.zero_add, Nat.div_mul_cancel (Nat.dvd_of_mod_eq_zero hfits)]
  simp only [demux, hfits, ne_eq, not_true_eq_false, if_false]
  exact demuxLoop_events overflow data _ (Nat.lt_succ_of_le (Nat.div_le_self data.length _)) hcount []

/-- The collator has no room for the second of two packets. -/
theorem demux_events_twoPackets : ∃ status n,
    oneStream.demux (fun log => decide (2 ≤ log.length)) twoPackets = some (status,
        (oneStream.settlePacketSize twoPackets).after ((oneStream.packetsOf twoPackets).take n),
        (oneStream.settlePacketSize twoPackets).events ((oneStream.packetsOf twoPackets).take n)) ∧
      Ends (fun log => decide (2 ≤ log.length)) [] (oneStream.settlePacketSize twoPackets)
        (oneStream.packetsOf twoPackets) status n :=
  demux_events oneStream _ (by decide +kernel)

theorem after_frame (hc : c.Consistent) (ps : List (List UInt8)) :
    (c.after ps).Consistent ∧ (c.after ps).base = c.base := by
  induction ps generalizing c with
  | nil => exact ⟨hc, rfl⟩
  | cons p ps ih =>
    obtain ⟨hcons, hbase⟩ := ih (packet_consistent hc p)
    exact ⟨hcons, hbase.trans (c.packet_base p)⟩

/-- A packet leaves its own counter, unless it has an indicator and does not repeat the one before. -/
theorem countLeft_concat (history : List (List UInt8)) (p : List UInt8) :
    countLeft (history ++ [p]) =
      if countLeft history = some (continuityCount p) then some (continuityCount p)
      else if discontinuity p then none else some (continuityCount p) := by
  have hending : endingWith (history ++ [p]) (continuityCount p) =
      p :: endingWith history (continuityCount p) := by
    simp [endingWith]
  have hold : countLeft history = some (continuityCount p) ↔
      (endingWith history (continuityCount p)).all discontinuity = false := by
    rcases List.eq_nil_or_concat history with rfl | ⟨history, q, rfl⟩
    · simp [countLeft, endingWith]
    · by_cases hq : continuityCount q = continuityCount p
      · simp [countLeft, ← hq]
      · simp [countLeft, endingWith, hq]
  simp only [hold]
  simp only [countLeft, List.getLast?_concat, Option.bind_some, hending, List.all_cons]
  cases discontinuity p <;> cases (endingWith history (continuityCount p)).all discontinuity <;> rfl

/-- What a sequence of packets leaves to be compared with. -/
theorem after_previousCount (hc : c.Consistent)
    (hentry : entry < maxStreams) (hlive : (c.base entry).stream.isSome)
    (hps : ∀ p ∈ ps, p.length = packetSize) (hnew : (c.streams entry).previousCount = none) :
    ((c.after ps).streams entry).previousCount = countLeft (c.ofStream entry ps) := by
  induction ps using List.reverseRecOn with
  | nil => exact hnew
  | append_singleton ps p ih =>
    have hbefore := ih fun q hq => hps q (List.mem_append_left _ hq)
    have hp := hps p (by simp)
    obtain ⟨hcons, hbase⟩ := after_frame hc ps
    have hafter : c.after (ps ++ [p]) = ((c.after ps).packet p).1 := by simp [after]
    rw [hafter]
    by_cases hmatch : c.Matches entry p
    · have hfilter : c.ofStream entry (ps ++ [p]) = c.ofStream entry ps ++ [p] := by
        simp [ofStream, hmatch.1, hmatch.2]
      have hmatch' : (c.after ps).Matches entry p := by
        unfold Matches
        rw [hbase]
        exact hmatch
      rw [hfilter, countLeft_concat, ← hbefore]
      exact (packet_signals hcons hentry (hbase ▸ hlive) hp hmatch').1
    · have hfilter : c.ofStream entry (ps ++ [p]) = c.ofStream entry ps := by
        simpa [ofStream, Matches] using hmatch
      have htake : p.take packetSize = p := List.take_of_length_le hp.le
      have hmatch' : ¬ (c.after ps).Matches entry (p.take packetSize) := by
        unfold Matches
        rw [htake, hbase]
        exact hmatch
      rw [hfilter, (packet_of_not_matches hcons hmatch').2.1]
      exact hbefore

end Context

variable {history : List (List UInt8)} {p : List UInt8}

theorem strays_iff :
    (∃ count, countLeft history = some count ∧ continuityCount p ≠ count ∧
      continuityCount p ≠ (count + 1) % 16) ↔ Strays history p := by
  unfold Strays countLeft
  cases history.getLast? with
  | none => simp
  | some q => simp [jumps_iff, and_comm]

/-- The two tests agree on the regular packets. -/
theorem regular_iff :
    (Strays history p ↔ unannouncedLoss history p) ↔ Regular history p := by
  rcases List.eq_nil_or_concat history with rfl | ⟨history, q, rfl⟩
  · refine iff_of_true ?_ ⟨?_, ?_, ?_, ?_⟩ <;> simp [Strays, unannouncedLoss, lastPayload]
  rw [List.concat_eq_append]
  have hstrays : Strays (history ++ [q]) p ↔ jumps q p ∧
      (endingWith (history ++ [q]) (continuityCount q)).all discontinuity = false := by
    simp [Strays]
  by_cases hannounced : announced (history ++ [q]) p = true
  · have hloss : ¬ unannouncedLoss (history ++ [q]) p := by simp [unannouncedLoss, hannounced]
    rw [iff_false_right hloss]
    refine ⟨fun h => ⟨fun _ => h, fun _ => h, ?_, ?_⟩, fun h => h.announcement hannounced⟩
    · simp [hannounced]
    · simp [hannounced]
  rw [Bool.not_eq_true] at hannounced
  cases hlast : lastPayload (history ++ [q]) with
  | none =>
    have hloss : ¬ unannouncedLoss (history ++ [q]) p := by simp [unannouncedLoss, hlast]
    have hnone : hasPayload q = false := by
      simp only [lastPayload, List.reverse_append, List.reverse_singleton, List.singleton_append,
        List.find?_cons] at hlast
      split at hlast
      · cases hlast
      next hq => exact hq
    rw [iff_false_right hloss]
    refine ⟨fun h => ⟨fun _ => h, fun _ => h, ?_, ?_⟩, fun h => h.first hlast⟩
    · simp [hlast]
    · simp [hnone]
  | some r =>
    have hloss : unannouncedLoss (history ++ [q]) p ↔ jumps r p := by
      simp [unannouncedLoss, hlast, hannounced]
    rw [hloss, hstrays]
    cases hpayload : hasPayload q with
    | true =>
      obtain rfl : q = r := by simpa [lastPayload, hpayload] using hlast
      refine ⟨fun h => ⟨by simp [hannounced], by simp [hlast], by simp [hpayload], ?_⟩, fun h => ?_⟩
      · intro r hr _ _ hjumps
        obtain rfl : q = r := by simpa using hr
        exact (h.mpr hjumps).2
      · exact and_iff_left_of_imp (h.indicator q (by simp) hpayload hannounced)
    | false =>
      have hquiet : discontinuity q = false := by
        simp only [announced, sinceLastPayload, List.reverse_append, List.reverse_singleton,
          List.singleton_append, List.takeWhile_cons, hpayload, Bool.not_false, if_true,
          List.any_cons, Bool.or_eq_false_iff] at hannounced
        exact hannounced.2.1
      have hsome : (endingWith (history ++ [q]) (continuityCount q)).all discontinuity = false := by
        simp [endingWith, hquiet]
      rw [and_iff_left hsome]
      refine ⟨fun h => ⟨by simp [hannounced], by simp [hlast], ?_, ?_⟩, fun h => ?_⟩
      · intro r' q' hr' hq' _ _
        obtain rfl : r = r' := Option.some.inj (hlast.symm.trans hr')
        obtain rfl : q = q' := by simpa using hq'
        exact h
      · intro r' hr' hpayload'
        obtain rfl : q = r' := by simpa using hr'
        rw [hpayload] at hpayload'
        cases hpayload'
      · exact h.counts r q hlast (by simp) hpayload hannounced

namespace Context

/-- **Glitches**: for a stream that has been added or has jumped, glitches are signalled exactly
on the unannounced losses if and only if every packet with a payload is regular. -/
theorem signals_iff {c : Context σ} (hc : c.Consistent) {entry : ℕ} (hentry : entry < maxStreams)
    (hlive : (c.base entry).stream.isSome)
    (hnew : (c.streams entry).validExpectedContinuityCount = false) {ps : List (List UInt8)}
    (hps : ∀ p ∈ ps, p.length = packetSize) :
    c.Signals entry ps ↔ ∀ before p rest, ps = before ++ p :: rest → c.Matches entry p →
      hasPayload p → Regular (c.ofStream entry before) p := by
  have hnone : (c.streams entry).previousCount = none := by
    rw [StreamContext.previousCount, hnew]
    rfl
  refine forall₃_congr fun before p rest => forall₃_congr fun hsplit hmatch hpayload => ?_
  rw [hsplit] at hps
  obtain ⟨hcons, hbase⟩ := after_frame hc before
  have hprevious := after_previousCount hc hentry hlive
    (fun q hq => hps q (List.mem_append_left _ hq)) hnone
  have hmatch' : (c.after before).Matches entry p := by
    unfold Matches
    rw [hbase]
    exact hmatch
  rw [(packet_signals hcons hentry (hbase ▸ hlive) (hps p (by simp)) hmatch').2, hprevious, strays_iff]
  exact regular_iff

/-- Two packets of PID `0x11` with the counts 5 and 9; the second announces the discontinuity. -/
def announcedJump : List (List UInt8) :=
  [[0x47, 0x00, 0x11, 0x15] ++ List.replicate 184 0xbb,
    [0x47, 0x00, 0x11, 0x39, 0x01, 0x80] ++ List.replicate 182 0xaa]

/-- The announced jump is signalled as a glitch. -/
theorem not_signals_announcedJump : ¬ oneStream.Signals 0 announcedJump := by
  intro h
  have hsignal := h [announcedJump[0]] announcedJump[1] [] rfl (by unfold Matches; decide +kernel)
    (by decide +kernel)
  have hglitch : ((oneStream.after [announcedJump[0]]).packet announcedJump[1]).2.head? =
      some (.inputGlitch 0) := by rfl
  have hloss : unannouncedLoss (oneStream.ofStream 0 [announcedJump[0]]) announcedJump[1] = false := by
    decide +kernel
  have hsignalled := hsignal.mp (List.mem_of_mem_head? hglitch)
  exact absurd (hsignalled.symm.trans hloss) (by decide)

/-- Two packets with the counts 5 and 9, and no announcement. -/
def silentJump : List (List UInt8) :=
  [[0x47, 0x00, 0x11, 0x15] ++ List.replicate 184 0xbb,
    [0x47, 0x00, 0x11, 0x19] ++ List.replicate 184 0xbb]

theorem signals_silentJump : oneStream.Signals 0 silentJump := by
  refine (signals_iff oneStream_consistent (by decide) (by decide) rfl (by decide +kernel)).mpr ?_
  intro before p rest hsplit _ _
  rcases before with _ | ⟨x, _ | ⟨y, before⟩⟩
  · exact regular_iff.mp (by simp [Strays, unannouncedLoss, lastPayload, ofStream])
  · obtain ⟨rfl, htail⟩ := List.cons.inj hsplit
    obtain ⟨rfl, -⟩ := List.cons.inj htail
    exact regular_iff.mp (iff_of_true ⟨_, rfl, by decide +kernel, by decide +kernel⟩ (by decide +kernel))
  · have hlength := congrArg List.length hsplit
    simp [silentJump] at hlength

end Context

end Player2.Demultiplexor
