import Player2.NativeTime
import Player2.Run
import Mathlib.Data.Int.ModEq
import Mathlib.Data.List.Forall2

/-! # Queries between the frames

`SetNativePlaybackTime`, `TranslateNativePlaybackTime` and `SetPresentationInterval` translate the native
times that they are given with the same base line that the frames are translated with.  They move
`LastNativeTimeUsedInBaseline`, and a wrap is told from the last time used.

The base line counts wraps: `wraps` says how often the native times translated on a stream wrap, one after
the other.  A frame is given the same time as without the queries exactly when that number is the same,
modulo 2²⁹, with the queries and without them; and an interval bound that is `INVALID_TIME` is stored as such
only while there is no stream (`run_queries`). -/

namespace Player2.NativeTime

/-! ### Streams and playbacks -/

/-- The times of a stream: the fields of its frame parser and the interval asked for.  The last native time
of the playback at the first translation, and the native times translated, the latest first, are not in the
source. -/
structure StreamTimes where
  nativeTimeBaseLine : UInt64
  lastNativeTimeUsedInBaseline : UInt64
  requestedStart : UInt64
  requestedEnd : UInt64
  origin : UInt64
  translated : List UInt64
deriving DecidableEq

/-- The time that a frame is given: its stream and native time, what was translated on the stream by then,
and the normalized time. -/
structure Given where
  stream : ℕ
  nativeTime : UInt64
  origin : UInt64
  translated : List UInt64
  normalizedTime : UInt64
deriving DecidableEq

/-- The times of a playback.  The times given to frames are not in the source. -/
structure PlaybackTimes where
  streams : List StreamTimes
  lastNativeTime : UInt64
  requestedStart : UInt64
  requestedEnd : UInt64
  reversalLimitStart : UInt64
  reversalLimitEnd : UInt64
  given : List Given
deriving DecidableEq

/-- What a query comes to: the time was invalid, there is no stream, or a normalized time goes to the output
coordinator. -/
inductive Answer
  | invalid
  | unknownStream
  | time (normalizedTime : UInt64)
deriving DecidableEq

/-- The translation of the time of a frame, or one of the calls.  An interval is set for a stream or for all
of them. -/
inductive Label
  | frame (stream : ℕ) (nativeTime : UInt64)
  | setNativePlaybackTime (nativeTime : UInt64)
  | translateNativePlaybackTime (nativeTime : UInt64)
  | setPresentationInterval (stream : Option ℕ) (intervalStart intervalEnd : UInt64)
deriving DecidableEq

namespace PlaybackTimes

/-- The frame parser of a stream translates a native time. -/
def translate (p : PlaybackTimes) (i : ℕ) (nativeTime : UInt64) : PlaybackTimes × UInt64 :=
  match p.streams[i]? with
  | none => (p, 0)
  | some s =>
    let t : Times := ⟨s.nativeTimeBaseLine, s.lastNativeTimeUsedInBaseline, p.lastNativeTime⟩
    let r := t.translatePlaybackTimeNativeToNormalized nativeTime
    ({ p with
      streams := p.streams.set i
        { s with
          nativeTimeBaseLine := r.1.nativeTimeBaseLine
          lastNativeTimeUsedInBaseline := r.1.lastNativeTimeUsedInBaseline
          origin := if s.translated = [] then p.lastNativeTime else s.origin
          translated := nativeTime :: s.translated }
      lastNativeTime := r.1.lastNativeTime }, r.2)

/-- A query with a native time goes to the first stream. -/
def query (p : PlaybackTimes) (nativeTime : UInt64) : PlaybackTimes × Answer :=
  if nativeTime = invalidTime then (p, .invalid)
  else if p.streams = [] then (p, .unknownStream)
  else ((p.translate 0 nativeTime).1, .time (p.translate 0 nativeTime).2)

def setNativePlaybackTime (p : PlaybackTimes) (nativeTime : UInt64) : PlaybackTimes × Answer :=
  p.query nativeTime

def translateNativePlaybackTime (p : PlaybackTimes) (nativeTime : UInt64) : PlaybackTimes × Answer :=
  p.query nativeTime

/-- The interval of one stream. -/
def setIntervalOn (p : PlaybackTimes) (i : ℕ) (intervalStart intervalEnd : UInt64) :
    PlaybackTimes × UInt64 × UInt64 :=
  let r := p.translate i intervalStart
  let r' := r.1.translate i intervalEnd
  ({ r'.1 with
    streams := r'.1.streams.modify i fun s => { s with requestedStart := r.2, requestedEnd := r'.2 } },
    r.2, r'.2)

/-- The loop over the streams, with the bounds of the last one. -/
def setIntervals (intervalStart intervalEnd : UInt64) :
    List ℕ → PlaybackTimes × UInt64 × UInt64 → PlaybackTimes × UInt64 × UInt64
  | [], r => r
  | i :: rest, r => setIntervals intervalStart intervalEnd rest (r.1.setIntervalOn i intervalStart intervalEnd)

/-- A bound is translated as a standard time when there is no stream. -/
def standard (nativeTime : UInt64) : UInt64 :=
  if nativeTime = invalidTime then invalidTime else (nativeTime * 300 + 13) / 27

/-- The streams that the interval is set for. -/
def selected (p : PlaybackTimes) : Option ℕ → List ℕ
  | none => List.range p.streams.length
  | some i => [i]

def setPresentationInterval (p : PlaybackTimes) (stream : Option ℕ) (intervalStart intervalEnd : UInt64) :
    PlaybackTimes :=
  let initial := if p.streams = [] then (standard intervalStart, standard intervalEnd)
    else (invalidTime, invalidTime)
  let r := setIntervals intervalStart intervalEnd (p.selected stream) (p, initial)
  let t := { r.1 with reversalLimitStart := invalidTime, reversalLimitEnd := invalidTime }
  match stream with
  | none => { t with requestedStart := r.2.1, requestedEnd := r.2.2 }
  | some _ => t

/-- A frame is given its time. -/
def frame (p : PlaybackTimes) (i : ℕ) (nativeTime : UInt64) : PlaybackTimes :=
  let r := p.translate i nativeTime
  match r.1.streams[i]? with
  | none => r.1
  | some s => { r.1 with given := p.given ++ [⟨i, nativeTime, s.origin, s.translated, r.2⟩] }

/-- One step. -/
def step (p : PlaybackTimes) : Label → Option PlaybackTimes
  | .frame i nativeTime => if i < p.streams.length then some (p.frame i nativeTime) else none
  | .setNativePlaybackTime nativeTime => some (p.setNativePlaybackTime nativeTime).1
  | .translateNativePlaybackTime nativeTime => some (p.translateNativePlaybackTime nativeTime).1
  | .setPresentationInterval stream intervalStart intervalEnd =>
    if ∀ i ∈ stream, i < p.streams.length then
      some (p.setPresentationInterval stream intervalStart intervalEnd)
    else none

/-- A playback with so many new streams. -/
def start (count : ℕ) (lastNativeTime : UInt64) : PlaybackTimes where
  streams := List.replicate count ⟨0, invalidTime, invalidTime, invalidTime, invalidTime, []⟩
  lastNativeTime := lastNativeTime
  requestedStart := invalidTime
  requestedEnd := invalidTime
  reversalLimitStart := invalidTime
  reversalLimitEnd := invalidTime
  given := []

end PlaybackTimes

/-! ### Wraps -/

/-- The wrap from one native time to the next: from the last quarter of the range to the first, or back. -/
def wrap (m n : UInt64) : ℤ :=
  if 3 * 2 ^ 31 ≤ m.toNat ∧ n.toNat < 2 ^ 31 then 1
  else if m.toNat < 2 ^ 31 ∧ 3 * 2 ^ 31 ≤ n.toNat then -1
  else 0

/-- The number of ranges that lie before a native time, when it is taken next to the last native time of the
playback. -/
def ranges (origin nativeTime : UInt64) : ℤ :=
  if validTime origin then ((origin - nativeTime + 0x0000000100000000).toNat / 2 ^ 33 : ℕ) else 0

/-- How often the native times translated on a stream wrap, the latest first. -/
def wraps (origin : UInt64) : List UInt64 → ℤ
  | [] => 0
  | [n] => ranges origin n
  | n :: m :: rest => wraps origin (m :: rest) + wrap m n

/-- The base line counts the wraps. -/
structure StreamTimes.Counts (s : StreamTimes) : Prop where
  unsettled : s.translated = [] → s.lastNativeTimeUsedInBaseline = invalidTime
  last : ∀ n ∈ s.translated.head?, s.lastNativeTimeUsedInBaseline = n ∧ Native n
  line : s.translated ≠ [] →
    (s.nativeTimeBaseLine.toNat : ℤ) ≡ 2 ^ 33 * wraps s.origin s.translated [ZMOD 2 ^ 64]

/-- The time given to a frame is that of a base line which counts the wraps. -/
def Given.Sound (g : Given) : Prop :=
  ∃ line : UInt64, g.normalizedTime = normalized (line + g.nativeTime) ∧
    (line.toNat : ℤ) ≡ 2 ^ 33 * wraps g.origin g.translated [ZMOD 2 ^ 64]

namespace Times

theorem adjust_line (t : Times) {nativeTime : UInt64} (hlast : Native t.lastNativeTimeUsedInBaseline)
    (hn : Native nativeTime) : ((t.adjust nativeTime).nativeTimeBaseLine.toNat : ℤ) ≡
      t.nativeTimeBaseLine.toNat + 2 ^ 33 * wrap t.lastNativeTimeUsedInBaseline nativeTime
        [ZMOD 2 ^ 64] := by
  have hadd : (t.nativeTimeBaseLine + 0x0000000200000000).toNat =
      (t.nativeTimeBaseLine.toNat + 2 ^ 33) % 2 ^ 64 := UInt64.toNat_add _ _
  have hsub : (t.nativeTimeBaseLine - 0x0000000200000000).toNat =
      (2 ^ 64 - 2 ^ 33 + t.nativeTimeBaseLine.toNat) % 2 ^ 64 := UInt64.toNat_sub _ _
  unfold adjust wrap Int.ModEq
  simp only [and_wrapMask_eq_wrapMask hlast, and_wrapMask_eq_wrapMask hn,
    and_wrapMask_eq_zero hlast, and_wrapMask_eq_zero hn]
  split
  · omega
  · split
    · omega
    · rw [mul_zero, add_zero]

theorem settle_line {t : Times} (ht : t.lastNativeTimeUsedInBaseline = invalidTime)
    (nativeTime : UInt64) : ((t.settle nativeTime).nativeTimeBaseLine.toNat : ℤ) =
      2 ^ 33 * ranges t.lastNativeTime nativeTime := by
  rw [settle, if_pos ht]
  unfold ranges
  split
  · rw [toNat_and_lineMask]
    omega
  · rfl

end Times

theorem wrap_self (n : UInt64) : wrap n n = 0 := by
  unfold wrap
  rw [if_neg (by omega), if_neg (by omega)]

/-- A native time is translated on a stream: the base line counts its wrap, too. -/
theorem StreamTimes.Counts.translate {s : StreamTimes} (h : s.Counts) {l nativeTime : UInt64}
    (hn : Native nativeTime) {t : Times}
    (ht : t = (Times.translatePlaybackTimeNativeToNormalized
      ⟨s.nativeTimeBaseLine, s.lastNativeTimeUsedInBaseline, l⟩ nativeTime).1) :
    StreamTimes.Counts { s with
      nativeTimeBaseLine := t.nativeTimeBaseLine
      lastNativeTimeUsedInBaseline := t.lastNativeTimeUsedInBaseline
      origin := if s.translated = [] then l else s.origin
      translated := nativeTime :: s.translated } := by
  have hlast : t.lastNativeTimeUsedInBaseline = nativeTime := by
    rw [ht]
    rfl
  constructor
  case unsettled => exact fun hnil => absurd hnil (List.cons_ne_nil _ _)
  case last =>
    intro n hmem
    obtain rfl : nativeTime = n := Option.some.inj hmem
    exact ⟨hlast, hn⟩
  case line =>
    intro _
    rw [ht]
    dsimp only [Times.translatePlaybackTimeNativeToNormalized]
    cases htranslated : s.translated with
    | nil =>
      have hunsettled := h.unsettled htranslated
      have hsettle := Times.settle_line (t := ⟨s.nativeTimeBaseLine, s.lastNativeTimeUsedInBaseline, l⟩)
        hunsettled nativeTime
      have hused : (Times.settle ⟨s.nativeTimeBaseLine, s.lastNativeTimeUsedInBaseline, l⟩
          nativeTime).lastNativeTimeUsedInBaseline = nativeTime := by
        rw [Times.settle, if_pos hunsettled]
      have hadjust := Times.adjust_line
        (Times.settle ⟨s.nativeTimeBaseLine, s.lastNativeTimeUsedInBaseline, l⟩ nativeTime)
        (by rw [hused]; exact hn) hn
      rw [hused, wrap_self, mul_zero, add_zero, hsettle] at hadjust
      exact hadjust
    | cons m rest =>
      obtain ⟨hused, hm⟩ := h.last m (by rw [htranslated]; rfl)
      have hline := h.line (by rw [htranslated]; exact List.cons_ne_nil _ _)
      have hsettled : Times.settle ⟨s.nativeTimeBaseLine, s.lastNativeTimeUsedInBaseline, l⟩ nativeTime =
          ⟨s.nativeTimeBaseLine, s.lastNativeTimeUsedInBaseline, l⟩ := by
        rw [Times.settle, if_neg]
        rw [hused]
        exact Times.ne_invalidTime hm
      have hadjust := Times.adjust_line
        ⟨s.nativeTimeBaseLine, s.lastNativeTimeUsedInBaseline, l⟩ (hused ▸ hm) hn
      rw [hsettled, if_neg (List.cons_ne_nil _ _)]
      rw [htranslated] at hline
      refine hadjust.trans ?_
      rw [wraps, mul_add, hused]
      exact hline.add_right _

theorem translate_normalized (t : Times) (nativeTime : UInt64) :
    (t.translatePlaybackTimeNativeToNormalized nativeTime).2 =
      normalized ((t.translatePlaybackTimeNativeToNormalized nativeTime).1.nativeTimeBaseLine +
        nativeTime) := rfl

theorem dividend_spec (u : ℕ) : ∃ k r : ℕ,
    (u % 2 ^ 64 * 300 % 2 ^ 64 + 13) % 2 ^ 64 = r ∧ u * 300 + 13 = 2 ^ 64 * k + r := by
  have hmod : (u % 2 ^ 64 * 300 % 2 ^ 64 + 13) % 2 ^ 64 = (u * 300 + 13) % 2 ^ 64 := by
    rw [Nat.mod_mul_mod, Nat.mod_add_mod]
  exact ⟨(u * 300 + 13) / 2 ^ 64, (u * 300 + 13) % 2 ^ 64, hmod, (Nat.div_add_mod _ _).symm⟩

theorem toNat_normalized_add (u v : UInt64) : (normalized (u + v)).toNat =
    ((u.toNat + v.toNat) % 2 ^ 64 * 300 % 2 ^ 64 + 13) % 2 ^ 64 / 27 := by
  unfold normalized
  rfl

/-- Two base lines give a native time the same normalized one exactly when they count the same wraps
modulo 2²⁹. -/
theorem normalized_eq_iff {line line' : UInt64} {w w' : ℤ} (n : UInt64)
    (hline : (line.toNat : ℤ) ≡ 2 ^ 33 * w [ZMOD 2 ^ 64])
    (hline' : (line'.toNat : ℤ) ≡ 2 ^ 33 * w' [ZMOD 2 ^ 64]) :
    normalized (line + n) = normalized (line' + n) ↔ w ≡ w' [ZMOD 2 ^ 29] := by
  rw [← UInt64.toNat_inj, toNat_normalized_add, toNat_normalized_add]
  constructor
  · intro hsame
    obtain ⟨k, r, hr, hk⟩ := dividend_spec (line.toNat + n.toNat)
    obtain ⟨k', r', hr', hk'⟩ := dividend_spec (line'.toNat + n.toNat)
    rw [hr, hr'] at hsame
    clear hr hr'
    obtain ⟨j, hj⟩ := hline.dvd
    obtain ⟨j', hj'⟩ := hline'.dvd
    -- the dividends differ by less than 27, and by a multiple of 2³⁵
    have hzero : 75 * (w - w') - 75 * 2 ^ 31 * (j - j') - 2 ^ 29 * (k - k') = 0 := by omega
    unfold Int.ModEq
    omega
  · intro hsame
    unfold Int.ModEq at hline hline' hsame
    have hlow : line.toNat % 2 ^ 62 = line'.toNat % 2 ^ 62 := by omega
    have hproduct : (line.toNat + n.toNat) % 2 ^ 64 * 300 % 2 ^ 64 =
        (line'.toNat + n.toNat) % 2 ^ 64 * 300 % 2 ^ 64 := by omega
    rw [hproduct]

/-- Two frames wrap the same number of times, modulo 2²⁹. -/
def Given.SameWraps (g g' : Given) : Prop :=
  wraps g.origin g.translated ≡ wraps g'.origin g'.translated [ZMOD 2 ^ 29]

instance (g g' : Given) : Decidable (g.SameWraps g') := inferInstanceAs (Decidable (_ = _))

theorem Given.Sound.normalizedTime_eq_iff {g g' : Given} (h : g.Sound) (h' : g'.Sound)
    (hnative : g.nativeTime = g'.nativeTime) :
    g.normalizedTime = g'.normalizedTime ↔ g.SameWraps g' := by
  obtain ⟨line, heq, hline⟩ := h
  obtain ⟨line', heq', hline'⟩ := h'
  rw [heq, heq', hnative]
  exact normalized_eq_iff _ hline hline'

namespace PlaybackTimes

/-! ### Translations -/

theorem translate_eq (p : PlaybackTimes) (i : ℕ) (nativeTime : UInt64) :
    (p.translate i nativeTime).1.streams.length = p.streams.length ∧
      (p.translate i nativeTime).1.given = p.given := by
  unfold translate
  split
  next => exact ⟨rfl, rfl⟩
  next => exact ⟨List.length_set, rfl⟩

theorem query_eq (p : PlaybackTimes) (nativeTime : UInt64) :
    (p.query nativeTime).1.streams.length = p.streams.length ∧ (p.query nativeTime).1.given = p.given := by
  unfold query
  split
  next => exact ⟨rfl, rfl⟩
  next =>
    split
    next => exact ⟨rfl, rfl⟩
    next => exact p.translate_eq 0 nativeTime

theorem setIntervalOn_eq (p : PlaybackTimes) (i : ℕ) (a b : UInt64) :
    (p.setIntervalOn i a b).1.streams.length = p.streams.length ∧
      (p.setIntervalOn i a b).1.given = p.given := by
  obtain ⟨hlength, hgiven⟩ := p.translate_eq i a
  obtain ⟨hlength', hgiven'⟩ := (p.translate i a).1.translate_eq i b
  unfold setIntervalOn
  rw [List.length_modify]
  exact ⟨hlength'.trans hlength, hgiven'.trans hgiven⟩

theorem setIntervals_eq (a b : UInt64) (is : List ℕ) (r : PlaybackTimes × UInt64 × UInt64) :
    (setIntervals a b is r).1.streams.length = r.1.streams.length ∧
      (setIntervals a b is r).1.given = r.1.given := by
  induction is generalizing r with
  | nil => exact ⟨rfl, rfl⟩
  | cons i rest ih =>
    obtain ⟨hlength, hgiven⟩ := ih (r.1.setIntervalOn i a b)
    obtain ⟨hlength', hgiven'⟩ := r.1.setIntervalOn_eq i a b
    exact ⟨hlength.trans hlength', hgiven.trans hgiven'⟩

theorem setPresentationInterval_eq (p : PlaybackTimes) (stream : Option ℕ) (a b : UInt64) :
    (p.setPresentationInterval stream a b).streams.length = p.streams.length ∧
      (p.setPresentationInterval stream a b).given = p.given := by
  unfold setPresentationInterval
  cases stream with
  | none => exact setIntervals_eq a b _ _
  | some i => exact setIntervals_eq a b _ _

/-! ### The base lines count the wraps -/

/-- Every base line counts its wraps. -/
def Counting (p : PlaybackTimes) : Prop :=
  (∀ s ∈ p.streams, s.Counts) ∧ ∀ g ∈ p.given, g.Sound

variable {p : PlaybackTimes} {nativeTime a b : UInt64}

theorem Counting.translate (h : p.Counting) (i : ℕ)
    (hn : Native nativeTime) : (p.translate i nativeTime).1.Counting := by
  unfold PlaybackTimes.translate
  split
  next => exact h
  next s hs =>
    refine ⟨fun s' hs' => ?_, h.2⟩
    rcases List.mem_or_eq_of_mem_set hs' with hold | rfl
    · exact h.1 s' hold
    · exact (h.1 s (List.mem_of_getElem? hs)).translate hn rfl

theorem Counting.query (h : p.Counting)
    (hn : nativeTime = invalidTime ∨ Native nativeTime) : (p.query nativeTime).1.Counting := by
  unfold PlaybackTimes.query
  split
  next => exact h
  next hvalid =>
    split
    next => exact h
    next => exact h.translate 0 (hn.resolve_left hvalid)

variable {i j : ℕ}

theorem mem_modify {α : Type*} {l : List α} {f : α → α} {x : α} (h : x ∈ l.modify i f) :
    x ∈ l ∨ ∃ y ∈ l, x = f y := by
  obtain ⟨j, hj⟩ := List.mem_iff_getElem?.mp h
  rw [List.getElem?_modify, Option.map_eq_map, Option.map_eq_some_iff] at hj
  obtain ⟨y, hy, rfl⟩ := hj
  have hmem : y ∈ l := List.mem_of_getElem? hy
  split
  next => exact .inr ⟨y, hmem, rfl⟩
  next => exact .inl hmem

theorem Counting.setIntervalOn (h : p.Counting) (i : ℕ)
    (ha : Native a) (hb : Native b) : (p.setIntervalOn i a b).1.Counting := by
  have htranslate := (h.translate i ha).translate i hb
  refine ⟨fun s hs => ?_, htranslate.2⟩
  rcases mem_modify hs with hold | ⟨s', hs', rfl⟩
  · exact htranslate.1 s hold
  · have hcounts := htranslate.1 s' hs'
    exact ⟨hcounts.unsettled, hcounts.last, hcounts.line⟩

variable {is : List ℕ} {r : PlaybackTimes × UInt64 × UInt64}

theorem Counting.setIntervals
    (h : r.1.Counting) (hnative : is ≠ [] → Native a ∧ Native b) : (setIntervals a b is r).1.Counting := by
  induction is generalizing r with
  | nil => exact h
  | cons i rest ih =>
    obtain ⟨ha, hb⟩ := hnative (List.cons_ne_nil _ _)
    exact ih (h.setIntervalOn i ha hb) fun _ => ⟨ha, hb⟩

theorem Counting.setPresentationInterval (h : p.Counting) (stream : Option ℕ)
    (hnative : p.selected stream ≠ [] → Native a ∧ Native b) :
    (p.setPresentationInterval stream a b).Counting := by
  unfold PlaybackTimes.setPresentationInterval
  cases stream with
  | none => exact Counting.setIntervals (r := (p, _, _)) h hnative
  | some i => exact Counting.setIntervals (r := (p, _, _)) h hnative

theorem Counting.frame (h : p.Counting)
    (hn : Native nativeTime) : (p.frame i nativeTime).Counting := by
  have htranslate := h.translate i hn
  unfold PlaybackTimes.frame
  dsimp only
  split
  next => exact htranslate
  next s hs =>
    refine ⟨htranslate.1, fun g hg => ?_⟩
    rcases List.mem_append.mp hg with hold | hnew
    · exact h.2 g hold
    · obtain rfl := List.mem_singleton.mp hnew
      have hcounts := htranslate.1 s (List.mem_of_getElem? hs)
      unfold PlaybackTimes.translate at hs hcounts ⊢
      split at hs
      next hnone =>
        rw [hnone] at hs
        cases hs
      next s' hs' =>
        have hlt : i < p.streams.length := (List.getElem?_eq_some_iff.mp hs').1
        rw [List.getElem?_set_self hlt] at hs
        obtain rfl := Option.some.inj hs
        exact ⟨_, translate_normalized _ _, hcounts.line (List.cons_ne_nil _ _)⟩

/-! ### Invalid bounds -/

theorem normalized_ne_invalidTime (u : UInt64) : normalized u ≠ invalidTime := by
  intro h
  have hvalue : (normalized u).toNat = (u * 300 + 13).toNat / 27 := UInt64.toNat_div _ _
  have hlt := (u * 300 + 13).toNat_lt
  have hinvalid : invalidTime.toNat = 0xfeedfacedeadbeef := rfl
  rw [h, hinvalid] at hvalue
  omega

/-- The interval of a stream has valid bounds. -/
def ValidInterval (p : PlaybackTimes) (i : ℕ) : Prop :=
  ∀ s ∈ p.streams[i]?, s.requestedStart ≠ invalidTime ∧ s.requestedEnd ≠ invalidTime

theorem translate_ne_invalidTime (hi : i < p.streams.length)
    (nativeTime : UInt64) : (p.translate i nativeTime).2 ≠ invalidTime := by
  unfold translate
  split
  next hnone => exact absurd hi (Nat.not_lt.mpr (List.getElem?_eq_none_iff.mp hnone))
  next s hs => exact normalized_ne_invalidTime _

theorem ValidInterval.translate (h : p.ValidInterval j) (i : ℕ)
    (nativeTime : UInt64) : (p.translate i nativeTime).1.ValidInterval j := by
  unfold PlaybackTimes.translate
  split
  next => exact h
  next s hs =>
    intro s' hs'
    have hget : (p.streams.set i _)[j]? = some s' := hs'
    rw [List.getElem?_set] at hget
    split at hget
    next heq =>
      split at hget
      next =>
        obtain rfl := Option.some.inj hget
        exact h s (heq ▸ hs)
      next => cases hget
    next => exact h s' hget

theorem setIntervalOn_valid (p : PlaybackTimes) (a b : UInt64) (hi : i < p.streams.length)
    (hj : j = i ∨ p.ValidInterval j) : (p.setIntervalOn i a b).1.ValidInterval j := by
  have hstart := translate_ne_invalidTime hi a
  have hend := translate_ne_invalidTime (p := (p.translate i a).1) (i := i)
    (by rw [(p.translate_eq i a).1]; exact hi) b
  intro s hs
  have hget : (((p.translate i a).1.translate i b).1.streams.modify i fun s =>
      { s with
        requestedStart := (p.translate i a).2
        requestedEnd := ((p.translate i a).1.translate i b).2 })[j]? = some s := hs
  rw [List.getElem?_modify, Option.map_eq_map, Option.map_eq_some_iff] at hget
  obtain ⟨s', hs', rfl⟩ := hget
  split
  next => exact ⟨hstart, hend⟩
  next hne =>
    have hvalid := (hj.resolve_left fun heq => hne heq.symm).translate i a
    exact hvalid.translate i b s' hs'

theorem setIntervals_valid (a b : UInt64)
    (his : ∀ i ∈ is, i < r.1.streams.length) (hj : j ∈ is ∨ r.1.ValidInterval j) :
    (setIntervals a b is r).1.ValidInterval j := by
  induction is generalizing r with
  | nil => exact hj.resolve_left List.not_mem_nil
  | cons i rest ih =>
    have hi := his i List.mem_cons_self
    refine ih (r := r.1.setIntervalOn i a b) ?_ ?_
    · intro k hk
      rw [(r.1.setIntervalOn_eq i a b).1]
      exact his k (List.mem_cons_of_mem _ hk)
    · rcases hj with hmem | hvalid
      · rcases List.mem_cons.mp hmem with heq | hrest
        · exact .inr (setIntervalOn_valid _ a b hi (.inl heq))
        · exact .inl hrest
      · exact .inr (setIntervalOn_valid _ a b hi (.inr hvalid))

/-- Bounds that are `INVALID_TIME` are stored as such. -/
def StoresInvalid (p : PlaybackTimes) : Label → Prop
  | .setPresentationInterval stream a b =>
    let t := p.setPresentationInterval stream a b
    (a = invalidTime → (∀ i ∈ p.selected stream, ∀ s ∈ t.streams[i]?, s.requestedStart = invalidTime) ∧
      (stream = none → t.requestedStart = invalidTime)) ∧
    (b = invalidTime → (∀ i ∈ p.selected stream, ∀ s ∈ t.streams[i]?, s.requestedEnd = invalidTime) ∧
      (stream = none → t.requestedEnd = invalidTime))
  | _ => True

/-- A bound is `INVALID_TIME` only when there is no stream to set it for. -/
def BoundsMeant (p : PlaybackTimes) : Label → Prop
  | .setPresentationInterval stream a b => a = invalidTime ∨ b = invalidTime → p.selected stream = []
  | _ => True

instance (p : PlaybackTimes) (label : Label) : Decidable (p.BoundsMeant label) :=
  match label with
  | .setPresentationInterval _ _ _ => inferInstanceAs (Decidable (_ → _))
  | .frame _ _ | .setNativePlaybackTime _ | .translateNativePlaybackTime _ => isTrue trivial

/-- Bounds are stored as they are given exactly when none of them is `INVALID_TIME` for a stream. -/
theorem storesInvalid_iff {p t : PlaybackTimes} {label : Label} (h : p.step label = some t) :
    p.StoresInvalid label ↔ p.BoundsMeant label := by
  cases label with
  | setPresentationInterval stream a b =>
    have hbelow : ∀ i ∈ p.selected stream, i < p.streams.length := by
      obtain ⟨hstream, -⟩ := Option.ite_none_right_eq_some.mp h
      cases stream with
      | none => exact fun i hi => List.mem_range.mp hi
      | some i =>
        intro j hj
        obtain rfl := List.mem_singleton.mp hj
        exact hstream j rfl
    have hvalid : ∀ i ∈ p.selected stream, (p.setPresentationInterval stream a b).ValidInterval i := by
      intro i hi
      unfold setPresentationInterval
      cases stream with
      | none => exact setIntervals_valid a b (r := (p, _, _)) hbelow (.inl hi)
      | some k => exact setIntervals_valid a b (r := (p, _, _)) hbelow (.inl hi)
    constructor
    · rintro ⟨hstart, hend⟩ hinvalid
      by_contra hne
      obtain ⟨i, hi⟩ := List.exists_mem_of_ne_nil _ hne
      have hlt : i < (p.setPresentationInterval stream a b).streams.length := by
        rw [(p.setPresentationInterval_eq stream a b).1]
        exact hbelow i hi
      have hget := List.getElem?_eq_getElem hlt
      rcases hinvalid with ha | hb
      · exact (hvalid i hi _ hget).1 ((hstart ha).1 i hi _ hget)
      · exact (hvalid i hi _ hget).2 ((hend hb).1 i hi _ hget)
    · intro hmeant
      have hnone : ∀ x, x = invalidTime → (x = a ∨ x = b) → p.selected stream = [] := by
        rintro x hx (rfl | rfl)
        · exact hmeant (.inl hx)
        · exact hmeant (.inr hx)
      have hmaster : p.selected stream = [] → stream = none →
          (p.setPresentationInterval stream a b).requestedStart = standard a ∧
            (p.setPresentationInterval stream a b).requestedEnd = standard b := by
        rintro hempty rfl
        have hstreams : p.streams = [] := by
          have hlength : p.streams.length = 0 := List.range_eq_nil.mp hempty
          exact List.eq_nil_of_length_eq_zero hlength
        unfold setPresentationInterval
        rw [hempty, if_pos hstreams]
        exact ⟨rfl, rfl⟩
      refine ⟨fun ha => ?_, fun hb => ?_⟩
      · have hempty := hnone a ha (.inl rfl)
        refine ⟨fun i hi => ?_, fun hall => ?_⟩
        · rw [hempty] at hi
          exact absurd hi List.not_mem_nil
        · rw [(hmaster hempty hall).1, standard, if_pos ha]
      · have hempty := hnone b hb (.inr rfl)
        refine ⟨fun i hi => ?_, fun hall => ?_⟩
        · rw [hempty] at hi
          exact absurd hi List.not_mem_nil
        · rw [(hmaster hempty hall).2, standard, if_pos hb]
  | _ => exact Iff.rfl

/-! ### Runs -/

end PlaybackTimes

/-- The label is about a frame. -/
def Label.isFrame : Label → Bool
  | .frame _ _ => true
  | _ => false

/-- Native times are such, or `INVALID_TIME` where that is accepted. -/
def Label.Accepted : Label → Prop
  | .frame _ n => Native n
  | .setNativePlaybackTime n => n = invalidTime ∨ Native n
  | .translateNativePlaybackTime n => n = invalidTime ∨ Native n
  | .setPresentationInterval _ a b => (a = invalidTime ∨ Native a) ∧ (b = invalidTime ∨ Native b)

instance (n : UInt64) : Decidable (Native n) := inferInstanceAs (Decidable (_ < _))

instance : (label : Label) → Decidable label.Accepted
  | .frame _ _ => inferInstanceAs (Decidable (Native _))
  | .setNativePlaybackTime _ => inferInstanceAs (Decidable (_ ∨ _))
  | .translateNativePlaybackTime _ => inferInstanceAs (Decidable (_ ∨ _))
  | .setPresentationInterval _ _ _ => inferInstanceAs (Decidable (_ ∧ _))

namespace PlaybackTimes

variable {p t s q : PlaybackTimes} {label : Label}

theorem Counting.step (h : p.Counting) (haccepted : label.Accepted)
    (hmeant : p.BoundsMeant label) (hstep : p.step label = some t) : t.Counting := by
  cases label with
  | frame i n =>
    obtain ⟨-, rfl⟩ := Option.ite_some_none_eq_some.mp hstep
    exact h.frame haccepted
  | setNativePlaybackTime n =>
    obtain rfl := Option.some.inj hstep
    exact h.query haccepted
  | translateNativePlaybackTime n =>
    obtain rfl := Option.some.inj hstep
    exact h.query haccepted
  | setPresentationInterval stream a b =>
    obtain ⟨-, rfl⟩ := Option.ite_some_none_eq_some.mp hstep
    refine h.setPresentationInterval stream fun hne => ?_
    have hvalid : ¬ (a = invalidTime ∨ b = invalidTime) := fun hinvalid => hne (hmeant hinvalid)
    rw [not_or] at hvalid
    exact ⟨haccepted.1.resolve_left hvalid.1, haccepted.2.resolve_left hvalid.2⟩

variable {labels : List Label}

theorem Counting.run (hp : p.Counting)
    (haccepted : ∀ label ∈ labels, label.Accepted) (hmeant : Lts.Along PlaybackTimes.step BoundsMeant p labels)
    (h : Lts.run PlaybackTimes.step p labels = some s) : s.Counting := by
  have hlabels : Lts.Along PlaybackTimes.step (fun _ label => label.Accepted) p labels :=
    Lts.along_of_forall_mem (fun label hlabel _ => haccepted label hlabel) p
  exact Lts.run_invariant_along (fun _ _ _ hs hlabel hstep => hs.step hlabel.1 hlabel.2 hstep) hp
    (Lts.along_and.mpr ⟨hlabels, hmeant⟩) h

theorem start_counting (count : ℕ) (l : UInt64) : (start count l).Counting := by
  refine ⟨fun s hs => ?_, fun g hg => absurd hg List.not_mem_nil⟩
  obtain rfl := List.eq_of_mem_replicate hs
  exact ⟨fun _ => rfl, fun n hn => (by cases hn), fun hne => absurd rfl hne⟩

/-- The same frames were given times. -/
def SameFrames (p q : PlaybackTimes) : Prop :=
  List.Forall₂ (fun g g' : Given => g.stream = g'.stream ∧ g.nativeTime = g'.nativeTime) p.given q.given

theorem frame_eq {i : ℕ} (hi : i < p.streams.length) (nativeTime : UInt64) :
    (p.frame i nativeTime).streams.length = p.streams.length ∧
      ∃ g : Given, g.stream = i ∧ g.nativeTime = nativeTime ∧
        (p.frame i nativeTime).given = p.given ++ [g] := by
  obtain ⟨hlength, -⟩ := p.translate_eq i nativeTime
  unfold frame
  dsimp only
  split
  next hnone =>
    rw [List.getElem?_eq_none_iff, hlength] at hnone
    exact absurd hi (Nat.not_lt.mpr hnone)
  next s hs => exact ⟨hlength, _, rfl, rfl, rfl⟩

theorem step_call (hcall : label.isFrame = false)
    (hstep : p.step label = some t) : t.streams.length = p.streams.length ∧ t.given = p.given := by
  cases label with
  | frame i n => cases hcall
  | setNativePlaybackTime n =>
    obtain rfl := Option.some.inj hstep
    exact p.query_eq n
  | translateNativePlaybackTime n =>
    obtain rfl := Option.some.inj hstep
    exact p.query_eq n
  | setPresentationInterval stream a b =>
    obtain ⟨-, rfl⟩ := Option.ite_some_none_eq_some.mp hstep
    exact p.setPresentationInterval_eq stream a b

theorem run_frames (hlength : p.streams.length = q.streams.length) (hsame : p.SameFrames q)
    (h : Lts.run step p labels = some s) :
    ∃ s', Lts.run step q (labels.filter Label.isFrame) = some s' ∧ s.SameFrames s' := by
  induction labels generalizing p q with
  | nil =>
    obtain rfl := Option.some.inj h
    exact ⟨q, rfl, hsame⟩
  | cons label labels ih =>
    obtain ⟨t, ht, hrest⟩ := Lts.run_cons.mp h
    cases hframe : label.isFrame with
    | false =>
      obtain ⟨hlength', hgiven⟩ := step_call hframe ht
      rw [List.filter_cons_of_neg (by rw [hframe]; exact Bool.false_ne_true)]
      refine ih (hlength'.trans hlength) ?_ hrest
      unfold SameFrames
      rw [hgiven]
      exact hsame
    | true =>
      cases label with
      | frame i n =>
        obtain ⟨hi, rfl⟩ := Option.ite_some_none_eq_some.mp ht
        obtain ⟨hlengthP, g, hstream, hnative, hgiven⟩ := frame_eq hi n
        obtain ⟨hlengthQ, g', hstream', hnative', hgiven'⟩ := frame_eq (hlength ▸ hi) n
        obtain ⟨s', hs', hsame'⟩ := ih (q := q.frame i n)
          (hlengthP.trans (hlength.trans hlengthQ.symm)) (by
            unfold SameFrames
            rw [hgiven, hgiven']
            refine List.rel_append hsame (.cons ⟨?_, ?_⟩ .nil)
            · rw [hstream, hstream']
            · rw [hnative, hnative']) hrest
        exact ⟨s', Lts.run_cons.mpr ⟨_, if_pos (hlength ▸ hi), hs'⟩, hsame'⟩
      | _ => cases hframe

theorem SameFrames.normalizedTimes_eq_iff (h : p.SameFrames q) (hp : p.Counting)
    (hq : q.Counting) : p.given.map Given.normalizedTime = q.given.map Given.normalizedTime ↔
      List.Forall₂ Given.SameWraps p.given q.given := by
  have hsoundP := hp.2
  have hsoundQ := hq.2
  unfold SameFrames at h
  generalize p.given = gs at h hsoundP ⊢
  generalize q.given = gs' at h hsoundQ ⊢
  induction h with
  | nil => exact iff_of_true rfl .nil
  | cons hhead _ ih =>
    obtain ⟨hg, hrest⟩ := List.forall_mem_cons.mp hsoundP
    obtain ⟨hg', hrest'⟩ := List.forall_mem_cons.mp hsoundQ
    rw [List.map_cons, List.map_cons, List.cons_eq_cons, List.forall₂_cons]
    exact and_congr (hg.normalizedTime_eq_iff hg' hhead.2) (ih hrest hrest')

/-- **Queries between the frames**: the frames are given the same times as without the calls, and interval
bounds that are `INVALID_TIME` are stored as such, exactly when each frame wraps as often with the calls as
without them, modulo 2²⁹, and no such bound is set for a stream. -/
theorem run_queries {count : ℕ} {l : UInt64} {labels : List Label} {s : PlaybackTimes}
    (haccepted : ∀ label ∈ labels, label.Accepted)
    (h : Lts.run step (start count l) labels = some s) :
    ∃ s', Lts.run step (start count l) (labels.filter Label.isFrame) = some s' ∧
      (s.given.map Given.normalizedTime = s'.given.map Given.normalizedTime ∧
          Lts.Along step StoresInvalid (start count l) labels ↔
        List.Forall₂ Given.SameWraps s.given s'.given ∧
          Lts.Along step BoundsMeant (start count l) labels) := by
  obtain ⟨s', hs', hsame⟩ := run_frames (q := start count l) rfl List.Forall₂.nil h
  have hbounds : Lts.Along step StoresInvalid (start count l) labels ↔
      Lts.Along step BoundsMeant (start count l) labels :=
    Lts.along_iff_of_run (J := fun _ => True) (fun _ _ _ _ _ => trivial)
      (fun _ _ _ _ hstep => storesInvalid_iff hstep) trivial h
  have hmeant' : Lts.Along step BoundsMeant (start count l) (labels.filter Label.isFrame) := by
    refine Lts.along_of_forall_mem (fun label hlabel p => ?_) _
    cases label with
    | setPresentationInterval stream a b => cases (List.mem_filter.mp hlabel).2
    | _ => trivial
  have hcounting' : s'.Counting := by
    refine (start_counting count l).run (fun label hlabel => ?_) hmeant' hs'
    exact haccepted label (List.mem_of_mem_filter hlabel)
  refine ⟨s', hs', ?_⟩
  rw [hbounds]
  refine and_congr_left fun hmeant => ?_
  have hcounting : s.Counting := (start_counting count l).run haccepted hmeant h
  exact hsame.normalizedTimes_eq_iff hcounting hcounting'

/-- Calls near the frames, one of them across the wrap. -/
def nearQueries : List Label :=
  [.translateNativePlaybackTime 0x1ffffffe0, .frame 0 0x1fffffff0, .setNativePlaybackTime 0x8, .frame 0 0x10,
    .setPresentationInterval (some 0) 0x20 0x30, .setNativePlaybackTime invalidTime, .frame 0 0x18]

/-- `run_queries` with the calls near the frames. -/
theorem run_queries_nearQueries :
    ∃ s s', Lts.run step (start 1 invalidTime) nearQueries = some s ∧
      Lts.run step (start 1 invalidTime) (nearQueries.filter Label.isFrame) = some s' ∧
      s.given.length = 3 ∧ s.given.map Given.normalizedTime = s'.given.map Given.normalizedTime := by
  have haccepted : ∀ label ∈ nearQueries, label.Accepted := by decide +kernel
  have hmeant : Lts.Along step BoundsMeant (start 1 invalidTime) nearQueries := by decide +kernel
  obtain ⟨s, hs⟩ : ∃ s, Lts.run step (start 1 invalidTime) nearQueries = some s := ⟨_, rfl⟩
  obtain ⟨s', hs', hiff⟩ := run_queries haccepted hs
  have hwraps : ((Lts.run step (start 1 invalidTime) nearQueries).bind fun s =>
      (Lts.run step (start 1 invalidTime) (nearQueries.filter Label.isFrame)).map fun s' =>
        decide (s.given.length = 3 ∧ List.Forall₂ Given.SameWraps s.given s'.given)) = some true := by
    decide +kernel
  rw [hs, hs'] at hwraps
  obtain ⟨hlength, hsame⟩ := of_decide_eq_true (Option.some.inj hwraps)
  exact ⟨s, s', hs, hs', hlength, (hiff.mpr ⟨hsame, hmeant⟩).1⟩

/-- Two frames close to one another, and between them a query three quarters of the range away. -/
def farQuery : List Label :=
  [.frame 0 0x80000000, .translateNativePlaybackTime 0x1ffffffff, .frame 0 0x7fffffff]

/-- The second frame is taken for one behind a wrap; and a bound that is `INVALID_TIME` is translated. -/
theorem not_run_queries_farQuery :
    (Lts.run step (start 1 invalidTime) farQuery).map (fun s => s.given.map Given.normalizedTime) =
        some [23860929422, 119304647100] ∧
      (¬ ∀ (labels : List Label) (s s' : PlaybackTimes), (∀ label ∈ labels, label.Accepted) →
        Lts.run step (start 1 invalidTime) labels = some s →
        Lts.run step (start 1 invalidTime) (labels.filter Label.isFrame) = some s' →
        (s'.given.map Given.nativeTime).IsChain Close →
        s.given.map Given.normalizedTime = s'.given.map Given.normalizedTime) ∧
      ¬ ∀ (p : PlaybackTimes) (label : Label), label.Accepted → (p.step label).isSome = true →
        p.StoresInvalid label := by
  have hgiven : (Lts.run step (start 1 invalidTime) farQuery).map (fun s =>
      s.given.map Given.normalizedTime) = some [23860929422, 119304647100] := by decide +kernel
  have hframes : (Lts.run step (start 1 invalidTime) (farQuery.filter Label.isFrame)).map (fun s =>
      (s.given.map Given.nativeTime, s.given.map Given.normalizedTime)) =
        some ([0x80000000, 0x7fffffff], [23860929422, 23860929411]) := by decide +kernel
  refine ⟨hgiven, fun hall => ?_, fun hall => ?_⟩
  · obtain ⟨s, hs, hnormalized⟩ := Option.map_eq_some_iff.mp hgiven
    obtain ⟨s', hs', hpair⟩ := Option.map_eq_some_iff.mp hframes
    obtain ⟨hnative, hnormalized'⟩ := Prod.mk.inj hpair
    have hclose : (s'.given.map Given.nativeTime).IsChain Close := by
      rw [hnative]
      unfold Close
      decide +kernel
    have hsame := hall farQuery s s' (by decide +kernel) hs hs' hclose
    rw [hnormalized, hnormalized'] at hsame
    exact absurd hsame (by decide +kernel)
  · have hstep : (start 1 invalidTime).step (.setPresentationInterval (some 0) invalidTime 0x30) =
        some ((start 1 invalidTime).setPresentationInterval (some 0) invalidTime 0x30) := rfl
    have hstores := hall (start 1 invalidTime) (.setPresentationInterval (some 0) invalidTime 0x30)
      (by decide +kernel) (by rw [hstep]; rfl)
    have hmeant := (storesInvalid_iff hstep).mp hstores
    exact absurd (hmeant (.inl rfl)) (List.cons_ne_nil _ _)

end PlaybackTimes

end Player2.NativeTime
