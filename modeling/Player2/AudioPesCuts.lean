import Player2.AudioPesSync

/-! # Cutting the PES stream of the audio collators

A call of `Input` may end anywhere, also inside a start code or a header.  `Reader` is a machine
that takes the bytes one by one and so does not know where the calls end: it follows the trailing
bytes of a start code (`nextTrailing`), reads a header up to its length and counts the payload.
`step_agrees` shows that a pass of `Input` does what the reader does on the bytes it consumes.

There are two exceptions, both in `SearchForPesHeader`.  A trailing zero that is followed by another
one at the start of the next call still counts as one; and a chunk that ends in `00 00 01` without
a start code before leaves no trailing bytes at all, since only a last byte below one is looked at.
In a run without these, and without the disturbances of `Session.Undisturbed`, the payload bytes
and times passed on depend on the bytes only (`passed_eq_of_splittings`). -/

namespace Player2.Audio

open Collator

/-! ### Trailing bytes of a start code -/

/-- The number of trailing start code bytes after one more byte. -/
def nextTrailing (k : ℕ) (b : UInt8) : ℕ :=
  if b = 0 then (if k = 1 ∨ k = 2 then 2 else 1)
  else if b = 1 ∧ k = 2 then 3
  else 0

/-- The number of trailing start code bytes of a byte string. -/
def trailing (bytes : List UInt8) : ℕ := bytes.foldl nextTrailing 0

theorem trailing_concat (bytes : List UInt8) (b : UInt8) :
    trailing (bytes ++ [b]) = nextTrailing (trailing bytes) b := by
  simp [trailing]

theorem trailing_one (c : UInt8) : trailing [c] = if c = 0 then 1 else 0 := by
  simp [trailing, nextTrailing]

theorem trailing_two (b c : UInt8) :
    trailing [b, c] = if c = 0 then (if b = 0 then 2 else 1) else 0 := by
  have hsplit : [b, c] = [b] ++ [c] := rfl
  rw [hsplit, trailing_concat, trailing_one]
  unfold nextTrailing
  split_ifs <;> simp_all

theorem trailing_three (bytes : List UInt8) (a b c : UInt8) :
    trailing (bytes ++ [a, b, c]) =
      if c = 0 then (if b = 0 then 2 else 1) else if c = 1 ∧ b = 0 ∧ a = 0 then 3 else 0 := by
  have hsplit : bytes ++ [a, b, c] = bytes ++ [a] ++ [b] ++ [c] := by simp
  rw [hsplit, trailing_concat, trailing_concat, trailing_concat]
  unfold nextTrailing
  split_ifs <;> simp_all

theorem length_lt_three_or (bytes : List UInt8) :
    bytes = [] ∨ (∃ c, bytes = [c]) ∨ (∃ b c, bytes = [b, c]) ∨
      ∃ front a b c, bytes = front ++ [a, b, c] := by
  rcases h : bytes.reverse with _ | ⟨c, _ | ⟨b, _ | ⟨a, front⟩⟩⟩
  · exact .inl (by simpa using h)
  · exact .inr (.inl ⟨c, by simpa using congrArg List.reverse h⟩)
  · exact .inr (.inr (.inl ⟨b, c, by simpa using congrArg List.reverse h⟩))
  · exact .inr (.inr (.inr ⟨front.reverse, a, b, c, by simpa using congrArg List.reverse h⟩))

theorem trailing_eq_three_iff (bytes : List UInt8) :
    trailing bytes = 3 ↔ StartCode.endsInPrefix bytes = true := by
  rw [StartCode.endsInPrefix_iff]
  rcases length_lt_three_or bytes with rfl | ⟨c, rfl⟩ | ⟨b, c, rfl⟩ | ⟨front, a, b, c, rfl⟩
  · simp [trailing]
  · refine iff_of_false ?_ ?_
    · rw [trailing_one]
      split_ifs <;> simp
    · rintro ⟨base, h⟩
      have := congrArg List.length h
      simp at this
  · refine iff_of_false ?_ ?_
    · rw [trailing_two]
      split_ifs <;> simp
    · rintro ⟨base, h⟩
      have := congrArg List.length h
      simp at this
  · rw [trailing_three]
    constructor
    · intro h
      have hbytes : c = 1 ∧ b = 0 ∧ a = 0 := by
        split_ifs at h <;> simp_all
      obtain ⟨rfl, rfl, rfl⟩ := hbytes
      exact ⟨front, rfl⟩
    · rintro ⟨base, h⟩
      have hlen : front.length = base.length := by
        have := congrArg List.length h
        simp at this
        omega
      obtain ⟨-, hlast⟩ := List.append_inj h hlen
      obtain ⟨rfl, rfl, rfl⟩ : a = 0 ∧ b = 0 ∧ c = 1 := by simpa using hlast
      simp

variable {bytes data more : List UInt8}

/-- The trailing bytes that the collator counts at the end of a chunk are the right ones, unless
they are all three. -/
theorem trailingBytes_eq (hne : bytes ≠ [])
    (h : StartCode.endsInPrefix bytes = false) : trailingBytes bytes = trailing bytes := by
  have hlt : ∀ c : UInt8, c < 1 ↔ c = 0 := by
    intro c
    simp
  rcases length_lt_three_or bytes with rfl | ⟨c, rfl⟩ | ⟨b, c, rfl⟩ | ⟨front, a, b, c, rfl⟩
  · exact absurd rfl hne
  · rw [trailing_one]
    simp only [trailingBytes, hlt]
    simp
  · rw [trailing_two]
    simp only [trailingBytes, hlt]
    simp
    split_ifs <;> simp_all
  · have hthree : trailing (front ++ [a, b, c]) ≠ 3 := by
      rw [Ne, trailing_eq_three_iff, h]
      simp
    rw [trailing_three] at hthree ⊢
    simp only [trailingBytes, hlt]
    simp
    split_ifs at hthree ⊢ <;> simp_all

/-! ### The reader -/

/-- Where the reader is: looking for a start code with a number of trailing bytes, in a header
that begins with some bytes, or in a payload of which a number of bytes remain. -/
inductive Place
  | seeking (trailing : ℕ)
  | header (bytes : List UInt8)
  | payload (remaining : ℕ)
deriving DecidableEq, Repr

/-- The reader, with the payload bytes and the times that it has passed on. -/
structure Reader where
  place : Place
  headersRead : ℕ
  times : PesTimes
  passed : List (PesTimes × UInt8)

/-- The place in a payload, or after an empty one. -/
def Place.ofRemaining (n : ℕ) : Place := if n = 0 then .header [] else .payload n

namespace Reader

variable (e : PesSetting)

/-- A complete header. -/
def accept (r : Reader) (header : List UInt8) : Reader :=
  if header.getD 0 0 ≠ 0 ∨ header.getD 1 0 ≠ 0 ∨ header.getD 2 0 ≠ 1 then
    { r with place := .seeking 0 }
  else
    match readPesTimes (header ++ e.memory r.headersRead) e.subStreamIdentifierMask
      e.subStreamIdentifierCode with
    | none => { r with place := .seeking 0, headersRead := r.headersRead + 1 }
    | some times =>
      { r with
        place := .ofRemaining (pesPayloadLength header)
        headersRead := r.headersRead + 1
        times := times }

/-- A header as far as it has been read. -/
def settle (r : Reader) (bytes : List UInt8) : Reader :=
  if bytes.length = pesHeaderSize bytes then r.accept e bytes else { r with place := .header bytes }

/-- One more byte. -/
def feed (r : Reader) (b : UInt8) : Reader :=
  match r.place with
  | .seeking k =>
    if k = 3 ∧ e.ignored b = false then { r with place := .header [0, 0, 1, b] }
    else { r with place := .seeking (nextTrailing k b) }
  | .header bytes => r.settle e (bytes ++ [b])
  | .payload n => { r with place := .ofRemaining (n - 1), passed := r.passed ++ [(r.times, b)] }

/-- More bytes. -/
def feedAll (r : Reader) (bytes : List UInt8) : Reader := bytes.foldl (feed e) r

end Reader

variable {e : PesSetting}

open Reader

@[simp] theorem feedAll_nil (r : Reader) : r.feedAll e [] = r := rfl

@[simp] theorem feedAll_cons (r : Reader) (b : UInt8) (bytes : List UInt8) :
    r.feedAll e (b :: bytes) = (r.feed e b).feedAll e bytes := rfl

theorem feedAll_append (r : Reader) (a b : List UInt8) :
    r.feedAll e (a ++ b) = (r.feedAll e a).feedAll e b := List.foldl_append

theorem pesHeaderSize_ge (bytes : List UInt8) : 9 ≤ pesHeaderSize bytes := Nat.le_add_right 9 _

theorem settle_short (r : Reader) (h : bytes.length < 9) :
    r.settle e bytes = { r with place := .header bytes } := by
  have := pesHeaderSize_ge bytes
  rw [settle, if_neg (by omega)]

theorem feedAll_startCode (r : Reader) (b : UInt8) (bytes : List UInt8) :
    { r with place := .header [] }.feedAll e (0 :: 0 :: 1 :: b :: bytes) =
      { r with place := .header [0, 0, 1, b] }.feedAll e bytes := by
  simp [feed, settle_short]

theorem feedAll_scan (r : Reader) (acc data : List UInt8) :
    { r with place := .seeking (trailing acc) }.feedAll e data =
      match StartCode.scan e.ignored acc data with
      | none => { r with place := .seeking (trailing (acc ++ data)) }
      | some (_, b, rest) => { r with place := .header [0, 0, 1, b] }.feedAll e rest := by
  induction data generalizing acc with
  | nil => simp [StartCode.scan]
  | cons b data ih =>
    rw [feedAll_cons, StartCode.scan]
    by_cases hfound : trailing acc = 3 ∧ e.ignored b = false
    · have hcode := (trailing_eq_three_iff acc).mp hfound.1
      simp [feed, hfound, hcode]
    · have hno : ¬ (StartCode.endsInPrefix acc && !e.ignored b) = true := by
        rw [Bool.and_eq_true, Bool.not_eq_true', ← trailing_eq_three_iff]
        exact hfound
      rw [if_neg hno]
      have hnext := ih (acc ++ [b])
      rw [trailing_concat, List.append_assoc] at hnext
      simp only [feed, hfound, if_false]
      exact hnext

theorem feedAll_of_no_code (r : Reader)
    (h : findNextStartCode e.ignored data = none) :
    { r with place := .seeking 0 }.feedAll e data = { r with place := .seeking (trailing data) } := by
  have hscan : StartCode.scan e.ignored [] data = none :=
    StartCode.scan_of_none fun p _ => findNextStartCode_none h p
  have := feedAll_scan (e := e) r [] data
  rw [hscan] at this
  exact this

theorem feedAll_of_code (r : Reader) {p : ℕ}
    (h : findNextStartCode e.ignored data = some p) (later : List UInt8) :
    { r with place := .seeking 0 }.feedAll e (data ++ later) =
      { r with place := .header [] }.feedAll e (data.drop p ++ later) := by
  obtain ⟨hcode, hfirst⟩ := findNextStartCode_some h
  obtain ⟨base, b, rest, hdata, hbase, hb⟩ := StartCode.codeAt_iff.mp hcode
  have hscan : StartCode.scan e.ignored [] data = some (base, b, rest) := by
    apply StartCode.scan_of_first (by simpa using hdata) hb (Nat.zero_le _)
    intro q _ hq
    exact hfirst q (hbase ▸ hq)
  have hdrop : data.drop p = 0 :: 0 :: 1 :: b :: rest := by
    rw [hdata, ← hbase, List.drop_left]
  have hall := feedAll_scan (e := e) r [] data
  rw [hscan] at hall
  rw [feedAll_append, feedAll_append, hdrop, feedAll_startCode]
  exact congrArg (fun r' : Reader => r'.feedAll e later) hall

/-- What the loop over the trailing bytes makes of them. -/
def TrailingFollows (e : PesSetting) (r : Reader) (k : ℕ) (data : List UInt8) : Trailing → Prop
  | .found b rest => ∀ later, { r with place := .seeking k }.feedAll e (data ++ later) =
      { r with place := .header [0, 0, 1, b] }.feedAll e (rest ++ later)
  | .exhausted n => { r with place := .seeking k }.feedAll e data = { r with place := .seeking n } ∧
      n ≤ 3
  | .scan rest => ∀ later, { r with place := .seeking k }.feedAll e (data ++ later) =
      { r with place := .seeking 0 }.feedAll e (rest ++ later)
  | .illegal => False

variable {k steps : ℕ} {b : UInt8}

theorem feed_forget (r : Reader) (hfound : ¬ (k = 3 ∧ e.ignored b = false))
    (hnext : nextTrailing k b = nextTrailing 0 b) :
    { r with place := .seeking k }.feed e b = { r with place := .seeking 0 }.feed e b := by
  simp only [feed, hfound, if_false, hnext]
  rw [if_neg (by simp)]

variable {r : Reader}

theorem TrailingFollows.cons {k k' : ℕ} {o : Trailing}
    (hfound : ¬ (k = 3 ∧ e.ignored b = false)) (hnext : nextTrailing k b = k')
    (h : TrailingFollows e r k' data o) : TrailingFollows e r k (b :: data) o := by
  have hfeed : { r with place := .seeking k }.feed e b = { r with place := .seeking k' } := by
    simp only [feed, hfound, if_false, hnext]
  cases o with
  | found c rest =>
    intro later
    rw [List.cons_append, feedAll_cons, hfeed]
    exact h later
  | exhausted n =>
    refine ⟨?_, h.2⟩
    rw [feedAll_cons, hfeed]
    exact h.1
  | scan rest =>
    intro later
    rw [List.cons_append, feedAll_cons, hfeed]
    exact h later
  | illegal => exact h

theorem handleTrailing_follows (r : Reader) (hk : k ≤ 3)
    (hone : k = 1 → data.head? ≠ some 0) :
    TrailingFollows e r k data (handleTrailing e.ignored k data) := by
  fun_induction handleTrailing e.ignored k data with
  | case1 data => exact fun later => rfl
  | case2 t => exact ⟨rfl, hk⟩
  | case3 data hb => exact absurd rfl (hone rfl)
  | case4 b data hb =>
    intro later
    simp only [List.cons_append, feedAll_cons]
    rw [feed_forget r (by simp) (by simp [nextTrailing, hb])]
  | case5 data ih => exact (ih (by omega) (by omega)).cons (by simp) (by decide)
  | case6 data hb ih => exact (ih (by omega) (by omega)).cons (by simp) (by decide)
  | case7 b data hb hb' =>
    intro later
    simp only [List.cons_append, feedAll_cons]
    rw [feed_forget r (by simp) (by simp [nextTrailing, hb, hb'])]
  | case8 b data hb =>
    intro later
    simp only [List.cons_append, feedAll_cons]
    rw [feed_forget r (by simp [hb]) (by simp [nextTrailing])]
  | case9 b data hb =>
    intro later
    have hb' : e.ignored b = false := by simpa using hb
    simp [feed, hb']
  | case10 => omega

theorem feedAll_payload (r : Reader) {n : ℕ} (h : bytes.length ≤ n) :
    { r with place := .ofRemaining n }.feedAll e bytes =
      { r with place := .ofRemaining (n - bytes.length),
               passed := r.passed ++ bytes.map (fun b => (r.times, b)) } := by
  induction bytes generalizing r n with
  | nil => simp
  | cons b bytes ih =>
    have hpos : ¬ n = 0 := by
      rw [List.length_cons] at h
      omega
    have hfeed : { r with place := .ofRemaining n }.feed e b =
        { r with place := .ofRemaining (n - 1), passed := r.passed ++ [(r.times, b)] } := by
      simp [feed, Place.ofRemaining, hpos]
    have hrest : bytes.length ≤ n - 1 := by
      rw [List.length_cons] at h
      omega
    have hsub : n - 1 - bytes.length = n - (bytes.length + 1) := by omega
    rw [feedAll_cons, hfeed, List.length_cons, ← hsub]
    have hnext := ih { r with passed := r.passed ++ [(r.times, b)] } hrest
    rw [hnext]
    simp

theorem feedAll_settle (r : Reader)
    (h : ∀ i < more.length, (bytes ++ more.take i).length ≠ pesHeaderSize (bytes ++ more.take i)) :
    (r.settle e bytes).feedAll e more = r.settle e (bytes ++ more) := by
  induction more generalizing bytes with
  | nil => simp
  | cons b more ih =>
    have hopen : bytes.length ≠ pesHeaderSize bytes := by simpa using h 0 (by simp)
    have hsettle : r.settle e bytes = { r with place := .header bytes } := by
      rw [settle, if_neg hopen]
    have hfeed : (r.settle e bytes).feed e b = r.settle e (bytes ++ [b]) := by
      rw [hsettle]
      rfl
    rw [feedAll_cons, hfeed, ih]
    · simp
    · intro i hi
      have := h (i + 1) (by simpa using hi)
      simpa using this

theorem header_open
    (hmore : more.length ≤ (if bytes.length < pesInitialHeaderSize then pesInitialHeaderSize
      else pesHeaderSize bytes) - bytes.length) {i : ℕ} (hi : i < more.length) :
    (bytes ++ more.take i).length ≠ pesHeaderSize (bytes ++ more.take i) := by
  have hlen : (bytes ++ more.take i).length = bytes.length + i := by
    rw [List.length_append, List.length_take_of_le (Nat.le_of_lt hi)]
  unfold pesInitialHeaderSize at hmore
  split at hmore
  next hshort =>
    have := pesHeaderSize_ge (bytes ++ more.take i)
    omega
  next hlong =>
    have hsize : pesHeaderSize (bytes ++ more.take i) = pesHeaderSize bytes := by
      unfold pesHeaderSize
      rw [List.getD_append _ _ _ _ (by omega)]
    omega

/-! ### Passes -/

/-- The payload bytes passed on, each with the times of its packet. -/
def tagged (s : PesCollator) : List (PesTimes × UInt8) :=
  s.passed.flatMap (fun p => p.2.map (fun b => (p.1, b)))

/-- The reader that has passed on what the collator has. -/
def readerAt (s : PesCollator) (place : Place) : Reader :=
  ⟨place, s.pesHeadersRead, s.times, tagged s⟩

/-- The bytes ahead. -/
def Session.ahead (x : Session) : List UInt8 := x.remaining ++ x.chunks.flatten

/-- The collator is where the reader is. -/
inductive Agrees (e : PesSetting) (x : Session) (r : Reader) : Prop
  | seeking (hseek : x.collator.seekingPesHeader = true)
      (htrailing : x.collator.trailingStartCodeBytes ≤ 3) (k : ℕ)
      (hk : x.ahead ≠ [] → x.collator.trailingStartCodeBytes = k)
      (hr : r = readerAt x.collator (.seeking k))
  | header (hseek : x.collator.seekingPesHeader = false)
      (hgotPart : x.collator.gotPartialPesHeader = true)
      (htrailing : x.collator.trailingStartCodeBytes = 0)
      (hgot : x.collator.storedPesHeader.length = x.collator.gotPartialPesHeaderBytes)
      (hsize : ¬ x.collator.gotPartialPesHeaderBytes < pesInitialHeaderSize →
        x.collator.gotPartialPesHeaderBytes ≤ pesHeaderSize x.collator.storedPesHeader)
      (hr : r = (readerAt x.collator (.header [])).settle e x.collator.storedPesHeader)
  | payload (hseek : x.collator.seekingPesHeader = false)
      (hgotPart : x.collator.gotPartialPesHeader = false)
      (htrailing : x.collator.trailingStartCodeBytes = 0)
      (hr : r = readerAt x.collator (.ofRemaining x.collator.pesPayloadRemaining))

/-- The part of a chunk that is scanned for a start code. -/
def Trailing.scanned : Trailing → List UInt8
  | .scan rest => rest
  | _ => []

def Session.scanned (e : PesSetting) (x : Session) : List UInt8 :=
  (handleTrailing e.ignored x.collator.trailingStartCodeBytes x.remaining).scanned

/-- The next pass is free of the two slips of `SearchForPesHeader` and of disturbances: a trailing
zero is not followed by another one, the part of the chunk that is scanned does not end in
`00 00 01`, if anything follows, and there is room for what is accumulated. -/
def Session.Followed (e : PesSetting) (x : Session) (steps : ℕ) : Prop :=
  if x.collator.seekingPesHeader then
    (x.collator.trailingStartCodeBytes = 1 → x.remaining.head? ≠ some 0) ∧
    (findNextStartCode e.ignored (x.scanned e) = none → x.chunks.flatten ≠ [] →
      StartCode.endsInPrefix (x.scanned e) = false) ∧
    x.collator.accumulated.length + 4 ≤ e.maximumCodedFrameSize
  else x.Undisturbed e steps

instance (e : PesSetting) (x : Session) (steps : ℕ) : Decidable (x.Followed e steps) := by
  unfold Session.Followed; infer_instance

/-- The collator goes on to where the reader is after the same bytes. -/
def Follows (e : PesSetting) (x : Session) (r : Reader) (o : PesOutcome) : Prop :=
  ∃ t rest r', o = .more t rest ∧ Agrees e ⟨t, rest, x.chunks⟩ r' ∧
    r'.feedAll e (rest ++ x.chunks.flatten) = r.feedAll e (x.remaining ++ x.chunks.flatten)

theorem trailingBytes_le (bytes : List UInt8) : trailingBytes bytes ≤ 3 := by
  unfold trailingBytes
  dsimp only
  split_ifs <;> omega

variable {t s : PesCollator} {chunks : List (List UInt8)}

theorem agrees_of_stored {rest : List UInt8}
    (hseek : t.seekingPesHeader = false) (hgotPart : t.gotPartialPesHeader = true)
    (htrailing : t.trailingStartCodeBytes = 0) (hshort : bytes.length < 9)
    (hgot : t.gotPartialPesHeaderBytes = bytes.length) (hstored : t.storedPesHeader = bytes) :
    Agrees e ⟨t, rest, chunks⟩ (readerAt t (.header bytes)) := by
  refine .header hseek hgotPart htrailing ?_ ?_ ?_
  · exact (congrArg List.length hstored).trans hgot.symm
  · exact fun hlong => absurd (hgot.trans_lt hshort) hlong
  · rw [hstored, settle_short _ hshort]
    rfl

variable {x y : Session}

theorem searchForPesHeader_follows (hseek : x.collator.seekingPesHeader = true)
    (htrailing : x.collator.trailingStartCodeBytes ≤ 3)
    (hk : x.collator.trailingStartCodeBytes = k)
    (hone : x.collator.trailingStartCodeBytes = 1 → x.remaining.head? ≠ some 0)
    (hcode : ∀ rest,
      handleTrailing e.ignored x.collator.trailingStartCodeBytes x.remaining = .scan rest →
      findNextStartCode e.ignored rest = none → x.chunks.flatten ≠ [] →
      StartCode.endsInPrefix rest = false)
    (hroom : x.collator.accumulated.length + 4 ≤ e.maximumCodedFrameSize) :
    Follows e x (readerAt x.collator (.seeking k)) (x.collator.searchForPesHeader e x.remaining) := by
  subst hk
  have hfollows := handleTrailing_follows (e := e) (readerAt x.collator (.header [])) htrailing hone
  unfold PesCollator.searchForPesHeader
  cases htr : handleTrailing e.ignored x.collator.trailingStartCodeBytes x.remaining with
  | found b rest =>
    rw [htr] at hfollows
    have hacc : accumulateData e.toSetting
        { x.collator.toCollator with seekingPesHeader := false, gotPartialPesHeader := true }
        [0, 0, 1, b] = some
          { x.collator.toCollator with
            seekingPesHeader := false
            gotPartialPesHeader := true
            accumulated := x.collator.accumulated ++ [0, 0, 1, b] } :=
      accumulateData_of_le hroom
    dsimp only
    rw [hacc]
    have hstored : lastBytes 4 (x.collator.accumulated ++ [0, 0, 1, b]) = [0, 0, 1, b] := by
      simp [lastBytes]
    exact ⟨_, rest, _, rfl, agrees_of_stored rfl rfl rfl (by simp) rfl hstored,
      (hfollows x.chunks.flatten).symm⟩
  | exhausted n =>
    rw [htr] at hfollows
    refine ⟨_, [], _, rfl, .seeking hseek hfollows.2 n (fun _ => rfl) rfl, ?_⟩
    rw [feedAll_append _ x.remaining]
    exact congrArg (fun r' : Reader => r'.feedAll e x.chunks.flatten) hfollows.1.symm
  | illegal =>
    rw [htr] at hfollows
    exact hfollows.elim
  | scan rest =>
    rw [htr] at hfollows
    dsimp only
    split
    next hnil =>
      refine ⟨_, [], _, rfl, .seeking hseek (Nat.zero_le 3) 0 (fun _ => rfl) rfl, ?_⟩
      have h := hfollows x.chunks.flatten
      rw [hnil] at h
      exact h.symm
    next hne =>
      cases hfind : findNextStartCode e.ignored rest with
      | some p =>
        have hstored : lastBytes 0 x.collator.accumulated = [] := by simp [lastBytes]
        refine ⟨_, rest.drop p, _, rfl, agrees_of_stored rfl rfl rfl (by simp) rfl hstored, ?_⟩
        have h := feedAll_of_code (readerAt x.collator (.header [])) hfind x.chunks.flatten
        exact ((hfollows x.chunks.flatten).trans h).symm
      | none =>
        refine ⟨_, [], _, rfl, .seeking hseek (trailingBytes_le rest) (trailing rest) ?_ rfl, ?_⟩
        · intro hahead
          exact trailingBytes_eq hne (hcode rest htr hfind (by simpa [Session.ahead] using hahead))
        · have h := feedAll_of_no_code (readerAt x.collator (.header [])) hfind
          refine Eq.trans ?_ (hfollows x.chunks.flatten).symm
          rw [feedAll_append _ rest]
          exact congrArg (fun r' : Reader => r'.feedAll e x.chunks.flatten) h.symm

theorem acceptPesHeader_agrees (hseek : s.seekingPesHeader = false)
    (htrailing : s.trailingStartCodeBytes = 0) (rest : List UInt8) (chunks : List (List UInt8)) :
    Agrees e ⟨s.acceptPesHeader e, rest, chunks⟩
      ((readerAt s (.header [])).accept e s.storedPesHeader) := by
  unfold PesCollator.acceptPesHeader Reader.accept
  dsimp only
  split
  · exact .seeking rfl (htrailing.le.trans (Nat.zero_le 3)) 0 (fun _ => htrailing) rfl
  · have hread : (readerAt s (.header [])).headersRead = s.pesHeadersRead := rfl
    rw [hread]
    cases readPesTimes (s.storedPesHeader ++ e.memory s.pesHeadersRead) e.subStreamIdentifierMask
        e.subStreamIdentifierCode with
    | none => exact .seeking rfl (htrailing.le.trans (Nat.zero_le 3)) 0 (fun _ => htrailing) rfl
    | some times => exact .payload hseek rfl htrailing rfl

theorem readPartialPesHeader_follows (hseek : x.collator.seekingPesHeader = false)
    (hgotPart : x.collator.gotPartialPesHeader = true)
    (htrailing : x.collator.trailingStartCodeBytes = 0)
    (hgot : x.collator.storedPesHeader.length = x.collator.gotPartialPesHeaderBytes)
    (hsize : ¬ x.collator.gotPartialPesHeaderBytes < pesInitialHeaderSize →
      x.collator.gotPartialPesHeaderBytes ≤ pesHeaderSize x.collator.storedPesHeader)
    (hroom : x.collator.accumulated.length + min x.remaining.length (headerBytesNeeded x.collator) ≤
      e.maximumCodedFrameSize) :
    Follows e x ((readerAt x.collator (.header [])).settle e x.collator.storedPesHeader)
      (x.collator.readPartialPesHeader e x.remaining) := by
  obtain ⟨s, data, chunks⟩ := x
  dsimp only at hseek hgotPart htrailing hgot hsize hroom ⊢
  obtain ⟨k, hk⟩ : ∃ k, k = min data.length (headerBytesNeeded s) := ⟨_, rfl⟩
  obtain ⟨t, ht, hread, hstored, hlen⟩ := readPartialPesHeader_eq hk hroom
  have hgot' : t.storedPesHeader.length = t.gotPartialPesHeaderBytes := by
    rw [hstored, List.length_append, hlen, hgot, ht]
  -- the reader takes the same bytes
  have hsettle : ((readerAt s (.header [])).settle e s.storedPesHeader).feedAll e (data.take k) =
      (readerAt s (.header [])).settle e t.storedPesHeader := by
    rw [hstored]
    apply feedAll_settle
    intro i hi
    apply header_open _ hi
    rw [hlen, hgot]
    exact hk ▸ Nat.min_le_right _ _
  have hfeed : ((readerAt s (.header [])).settle e t.storedPesHeader).feedAll e
      (data.drop k ++ chunks.flatten) =
        ((readerAt s (.header [])).settle e s.storedPesHeader).feedAll e (data ++ chunks.flatten) := by
    rw [← hsettle, ← feedAll_append, ← List.append_assoc, List.take_append_drop]
  have hneeded : ¬ s.gotPartialPesHeaderBytes < pesInitialHeaderSize →
      headerBytesNeeded s = pesHeaderSize s.storedPesHeader - s.gotPartialPesHeaderBytes ∧
      pesHeaderSize t.storedPesHeader = pesHeaderSize s.storedPesHeader := by
    intro hlong
    constructor
    · rw [headerBytesNeeded, if_neg hlong]
    · unfold pesInitialHeaderSize at hlong
      unfold pesHeaderSize
      rw [hstored, List.getD_append _ _ _ _ (by omega)]
  refine ⟨_, _, _, hread, ?_, hfeed⟩
  have hreader : readerAt s (.header []) = readerAt t (.header []) := by rw [ht]; rfl
  rw [hreader]
  by_cases hend : ¬ s.gotPartialPesHeaderBytes < pesInitialHeaderSize ∧ headerBytesNeeded s = k
  · have hcomplete : t.storedPesHeader.length = pesHeaderSize t.storedPesHeader := by
      obtain ⟨hbytes, hsame⟩ := hneeded hend.1
      have := hsize hend.1
      rw [hsame, hstored, List.length_append, hlen, hgot]
      omega
    rw [if_pos hend, settle, if_pos hcomplete]
    exact acceptPesHeader_agrees (by rw [ht]; exact hseek) (by rw [ht]; exact htrailing) _ _
  · rw [if_neg hend]
    refine .header (by rw [ht]; exact hseek) (by rw [ht]; exact hgotPart) (by rw [ht]; exact htrailing)
      hgot' ?_ rfl
    intro hlong
    dsimp only at hlong ⊢
    have hgott : t.gotPartialPesHeaderBytes = s.gotPartialPesHeaderBytes + k := by rw [ht]
    by_cases hinitial : s.gotPartialPesHeaderBytes < pesInitialHeaderSize
    · have hle := pesHeaderSize_ge t.storedPesHeader
      have hbytes : headerBytesNeeded s = pesInitialHeaderSize - s.gotPartialPesHeaderBytes := by
        rw [headerBytesNeeded, if_pos hinitial]
      unfold pesInitialHeaderSize at hbytes hinitial
      omega
    · have := hsize hinitial
      omega

theorem readPesPacket_follows {c : Collator}
    (hseek : x.collator.seekingPesHeader = false)
    (hgotPart : x.collator.gotPartialPesHeader = false)
    (htrailing : x.collator.trailingStartCodeBytes = 0)
    (hflags : flags c = flags x.collator.toCollator) :
    Follows e x (readerAt x.collator (.ofRemaining x.collator.pesPayloadRemaining))
      (x.collator.readPesPacket x.remaining .noError c) := by
  obtain ⟨s, data, chunks⟩ := x
  obtain ⟨k, hk⟩ : ∃ k, k = min s.pesPayloadRemaining data.length := ⟨_, rfl⟩
  have hseek' : c.seekingPesHeader = false := (congrArg Prod.fst hflags).trans hseek
  have hgotPart' : c.gotPartialPesHeader = false := (congrArg Prod.snd hflags).trans hgotPart
  have hlen : (data.take k).length = k := List.length_take_of_le (by omega)
  have hfits : (data.take k).length ≤ s.pesPayloadRemaining := by omega
  have hpayload := feedAll_payload (e := e) (readerAt s (.header [])) hfits
  have hfeed : ∀ r' : Reader,
      r' = (readerAt s (.ofRemaining s.pesPayloadRemaining)).feedAll e (data.take k) →
      r'.feedAll e (data.drop k ++ chunks.flatten) =
        (readerAt s (.ofRemaining s.pesPayloadRemaining)).feedAll e (data ++ chunks.flatten) := by
    rintro r' rfl
    rw [← feedAll_append, ← List.append_assoc, List.take_append_drop]
  have htagged : ∀ t : PesCollator, t.passed = s.passed ++ [(s.times, data.take k)] →
      tagged t = tagged s ++ (data.take k).map (fun b => (s.times, b)) := by
    intro t ht
    simp [tagged, ht]
  have hreader : ∀ t : PesCollator, t.passed = s.passed ++ [(s.times, data.take k)] →
      t.pesHeadersRead = s.pesHeadersRead → t.times = s.times →
      readerAt t (.ofRemaining (s.pesPayloadRemaining - k)) =
        (readerAt s (.ofRemaining s.pesPayloadRemaining)).feedAll e (data.take k) := by
    intro t hpassed hheaders htimes
    rw [hlen] at hpayload
    refine Eq.trans ?_ hpayload.symm
    simp only [readerAt, htagged t hpassed, hheaders, htimes]
  obtain ⟨t, ht⟩ : ∃ t : PesCollator, t = { s with
      toCollator := { c with
        gotPartialPesHeader := if k = s.pesPayloadRemaining then true else c.gotPartialPesHeader }
      passed := s.passed ++ [(s.times, data.take k)]
      gotPartialPesHeaderBytes := if k = s.pesPayloadRemaining then 0 else s.gotPartialPesHeaderBytes
      pesPayloadRemaining := s.pesPayloadRemaining - k } := ⟨_, rfl⟩
  have hread : s.readPesPacket data .noError c = .more t (data.drop k) := by
    simp only [PesCollator.readPesPacket, ← hk, if_true, ht]
  refine ⟨t, _, _, hread, ?_, hfeed _ (hreader t (by rw [ht]) (by rw [ht]) (by rw [ht]))⟩
  have hseekt : t.seekingPesHeader = false := by rw [ht]; exact hseek'
  have htrailingt : t.trailingStartCodeBytes = 0 := by rw [ht]; exact htrailing
  by_cases hend : k = s.pesPayloadRemaining
  · -- the payload ends in the data
    have hgot : t.gotPartialPesHeaderBytes = 0 := by simp [ht, hend]
    have hplace : Place.ofRemaining (s.pesPayloadRemaining - k) = .header [] := by
      simp [Place.ofRemaining, hend]
    rw [hplace]
    apply agrees_of_stored hseekt _ htrailingt (by simp)
    · exact hgot
    · simp [PesCollator.storedPesHeader, hgot, lastBytes]
    · simp [ht, hend]
  · have hleft : s.pesPayloadRemaining - k = t.pesPayloadRemaining := by rw [ht]
    rw [hleft]
    refine .payload hseekt ?_ htrailingt rfl
    simp [ht, hend, hgotPart']

/-! ### Whole runs -/

theorem Agrees.of_ahead_eq (h : Agrees e x r)
    (hcollator : y.collator = x.collator) (hahead : y.ahead = x.ahead) : Agrees e y r := by
  obtain ⟨s, data, chunks⟩ := x
  obtain ⟨s', data', chunks'⟩ := y
  obtain rfl : s' = s := hcollator
  cases h with
  | seeking hseek htrailing k hk hr =>
    exact .seeking hseek htrailing k (fun hne => hk (hahead ▸ hne)) hr
  | header hseek hgotPart htrailing hgot hsize hr =>
    exact .header hseek hgotPart htrailing hgot hsize hr
  | payload hseek hgotPart htrailing hr => exact .payload hseek hgotPart htrailing hr

theorem pass_follows (hrem : x.remaining ≠ []) (hagrees : Agrees e x r)
    (hfollowed : x.Followed e steps) {o : PesOutcome}
    (hpass : x.collator.pass e steps x.remaining = some o) : Follows e x r o := by
  unfold PesCollator.pass at hpass
  unfold Session.Followed at hfollowed
  cases hagrees with
  | seeking hseek htrailing k hk hr =>
    rw [if_pos hseek] at hpass hfollowed
    obtain ⟨hone, hscanned, hroom⟩ := hfollowed
    have hcode : ∀ rest,
        handleTrailing e.ignored x.collator.trailingStartCodeBytes x.remaining = .scan rest →
        findNextStartCode e.ignored rest = none → x.chunks.flatten ≠ [] →
        StartCode.endsInPrefix rest = false := by
      intro rest hscan
      simpa only [Session.scanned, hscan, Trailing.scanned] using hscanned
    obtain rfl := Option.some.inj hpass
    rw [hr]
    exact searchForPesHeader_follows hseek htrailing
      (hk (by simp [Session.ahead, hrem])) hone hcode hroom
  | header hseek hgotPart htrailing hgot hsize hr =>
    rw [if_neg (by simp [hseek])] at hpass hfollowed
    rw [if_pos hgotPart] at hpass
    have hroom := hfollowed hrem
    rw [if_pos hgotPart] at hroom
    obtain rfl := Option.some.inj hpass
    rw [hr]
    exact readPartialPesHeader_follows hseek hgotPart htrailing hgot hsize hroom
  | payload hseek hgotPart htrailing hr =>
    rw [if_neg (by simp [hseek])] at hpass hfollowed
    rw [if_neg (by simp [hgotPart])] at hpass
    have hclean := hfollowed hrem
    rw [if_neg (by simp [hgotPart])] at hclean
    split at hpass
    next status c hrun =>
      obtain ⟨rfl, hflags⟩ := run_keepsFlags hrun hclean
      obtain rfl := Option.some.inj hpass
      rw [hr]
      exact readPesPacket_follows hseek hgotPart htrailing hflags
    next => exact absurd hpass (by simp)

/-- The collator is where a reader is that will be `final` at the end of the bytes. -/
def Reads (e : PesSetting) (final : Reader) (x : Session) : Prop :=
  ∃ r, Agrees e x r ∧ r.feedAll e x.ahead = final

theorem step_reads {final : Reader} (hreads : Reads e final x)
    (hfollowed : x.Followed e steps) (hstep : x.step e steps = some y) : Reads e final y := by
  obtain ⟨r, hagrees, hfinal⟩ := hreads
  unfold Session.step at hstep
  split at hstep
  next hrem =>
    split at hstep
    · exact absurd hstep (by simp)
    next chunk chunks hchunks =>
      obtain rfl := Option.some.inj hstep
      have hahead : Session.ahead ⟨x.collator, chunk, chunks⟩ = x.ahead := by
        simp [Session.ahead, hrem, hchunks]
      exact ⟨r, hagrees.of_ahead_eq rfl hahead, by rw [hahead]; exact hfinal⟩
  next hrem =>
    obtain ⟨o, hpass, rfl⟩ := Option.map_eq_some_iff.mp hstep
    obtain ⟨t, rest, r', rfl, hnext, hfeed⟩ := pass_follows hrem hagrees hfollowed hpass
    exact ⟨r', hnext, hfeed.trans hfinal⟩

theorem settle_passed (r : Reader) (bytes : List UInt8) : (r.settle e bytes).passed = r.passed := by
  unfold settle accept
  split
  · split
    · rfl
    · split <;> rfl
  · rfl

theorem Agrees.passed_eq (h : Agrees e x r) :
    r.passed = tagged x.collator := by
  cases h with
  | seeking _ _ k _ hr => rw [hr]; rfl
  | header _ _ _ _ _ hr => rw [hr, settle_passed]; rfl
  | payload _ _ _ hr => rw [hr]; rfl

theorem tagged_eq_feedAll (hseek : s.seekingPesHeader = true)
    (htrailing : s.trailingStartCodeBytes ≤ 3) {labels : List ℕ}
    (hfollowed : Lts.Along (Session.step e) (Session.Followed e) ⟨s, [], chunks⟩ labels)
    (hrun : Lts.run (Session.step e) ⟨s, [], chunks⟩ labels = some ⟨t, [], []⟩) :
    tagged t =
      ((readerAt s (.seeking s.trailingStartCodeBytes)).feedAll e chunks.flatten).passed := by
  have hstart : Reads e ((readerAt s (.seeking s.trailingStartCodeBytes)).feedAll e chunks.flatten)
      ⟨s, [], chunks⟩ := ⟨_, .seeking hseek htrailing _ (fun _ => rfl) rfl, rfl⟩
  obtain ⟨r, hagrees, hfinal⟩ := Lts.run_invariant_along
    (fun _ _ _ hI hP hstep => step_reads hI hP hstep) hstart hfollowed hrun
  rw [← hfinal]
  exact hagrees.passed_eq.symm

/-- **Cutting the PES stream**: from a state in which the collator looks for a header, two complete
runs over the same bytes, split into calls in any two ways, pass the same payload bytes with the
same times to the elementary stream machine, if every pass of both is free of the two slips of the
search and of disturbances. -/
theorem passed_eq_of_splittings {s : PesCollator} (hseek : s.seekingPesHeader = true)
    (htrailing : s.trailingStartCodeBytes ≤ 3) {chunks chunks' : List (List UInt8)}
    (hsame : chunks.flatten = chunks'.flatten) {labels labels' : List ℕ}
    (hfollowed : Lts.Along (Session.step e) (Session.Followed e) ⟨s, [], chunks⟩ labels)
    (hfollowed' : Lts.Along (Session.step e) (Session.Followed e) ⟨s, [], chunks'⟩ labels')
    {t t' : PesCollator}
    (hrun : Lts.run (Session.step e) ⟨s, [], chunks⟩ labels = some ⟨t, [], []⟩)
    (hrun' : Lts.run (Session.step e) ⟨s, [], chunks'⟩ labels' = some ⟨t', [], []⟩) :
    tagged t = tagged t' := by
  rw [tagged_eq_feedAll hseek htrailing hfollowed hrun,
    tagged_eq_feedAll hseek htrailing hfollowed' hrun', hsame]

/-- A packet with a payload of three bytes. -/
def threeBytes : List UInt8 := [0, 0, 1, 0xc0, 0, 6, 0x80, 0, 0, 0x11, 0x22, 0x33]

/-- The call ends after the two zeros of the start code. -/
theorem passed_eq_of_splittings_two_zeros :
    ∃ t t', Lts.run (Session.step (mpegPes 4096 fun _ => [])) ⟨PesCollator.start, [], [threeBytes]⟩
        [0, 0, 0, 0, 3] = some ⟨t, [], []⟩ ∧
      Lts.run (Session.step (mpegPes 4096 fun _ => []))
        ⟨PesCollator.start, [], [threeBytes.take 2, threeBytes.drop 2]⟩ [0, 0, 0, 0, 0, 0, 3] =
          some ⟨t', [], []⟩ ∧
      tagged t = tagged t' := by
  have hsome : ∀ {o : Option Session}, o.map (fun x => (x.remaining, x.chunks)) = some ([], []) →
      ∃ t, o = some ⟨t, [], []⟩ := by
    intro o ho
    obtain ⟨⟨t, rest, chunks⟩, rfl, hx⟩ := Option.map_eq_some_iff.mp ho
    obtain ⟨rfl, rfl⟩ := Prod.mk.inj hx
    exact ⟨t, rfl⟩
  obtain ⟨t, hrun⟩ := hsome (o := Lts.run (Session.step (mpegPes 4096 fun _ => []))
    ⟨PesCollator.start, [], [threeBytes]⟩ [0, 0, 0, 0, 3]) (by decide +kernel)
  obtain ⟨t', hrun'⟩ := hsome (o := Lts.run (Session.step (mpegPes 4096 fun _ => []))
    ⟨PesCollator.start, [], [threeBytes.take 2, threeBytes.drop 2]⟩ [0, 0, 0, 0, 0, 0, 3])
    (by decide +kernel)
  exact ⟨t, t', hrun, hrun', passed_eq_of_splittings rfl (by decide) (by decide +kernel)
    (by decide +kernel) (by decide +kernel) hrun hrun'⟩

/-- The call ends after the first zero of the start code, and the packet is not found. -/
theorem not_passed_eq_one_zero :
    ¬ ∀ (s : PesCollator) (chunks chunks' : List (List UInt8)) (labels labels' : List ℕ)
      (t t' : PesCollator), s.seekingPesHeader = true → s.trailingStartCodeBytes = 0 →
      chunks.flatten = chunks'.flatten →
      Lts.run (Session.step (mpegPes 4096 fun _ => [])) ⟨s, [], chunks⟩ labels = some ⟨t, [], []⟩ →
      Lts.run (Session.step (mpegPes 4096 fun _ => [])) ⟨s, [], chunks'⟩ labels' =
        some ⟨t', [], []⟩ →
      tagged t = tagged t' := by
  intro h
  have hwhole : (Lts.run (Session.step (mpegPes 4096 fun _ => []))
      ⟨PesCollator.start, [], [threeBytes]⟩ [0, 0, 0, 0, 3]).map (fun x =>
        (x.remaining, x.chunks, (tagged x.collator).length)) = some ([], [], 3) := by
    decide +kernel
  have hcut : (Lts.run (Session.step (mpegPes 4096 fun _ => []))
      ⟨PesCollator.start, [], [threeBytes.take 1, threeBytes.drop 1]⟩ [0, 0, 0, 0]).map (fun x =>
        (x.remaining, x.chunks, (tagged x.collator).length)) = some ([], [], 0) := by
    decide +kernel
  obtain ⟨⟨t, rest, chunks⟩, hrun, hx⟩ := Option.map_eq_some_iff.mp hwhole
  obtain ⟨⟨t', rest', chunks'⟩, hrun', hx'⟩ := Option.map_eq_some_iff.mp hcut
  simp only [Prod.mk.injEq] at hx hx'
  obtain ⟨rfl, rfl, hlength⟩ := hx
  obtain ⟨rfl, rfl, hlength'⟩ := hx'
  have heq := h PesCollator.start _ _ _ _ t t' rfl rfl (by decide +kernel) hrun hrun'
  rw [heq, hlength'] at hlength
  exact absurd hlength (by decide)

end Player2.Audio
