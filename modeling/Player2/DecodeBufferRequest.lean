import Mathlib.Data.List.Basic
import Player2.BufferStructure

/-! # Obtaining a decode buffer

`Manifestor_Base_c::GetDecodeBuffer` takes buffers out of the pool until one is clear of the picture on
display, keeps those that are not in a list, and puts the list back when it has found one; after
`BUFFER_OVERLAP_MAX_TRIES` it takes the last one.  `Manifestor_VideoStmfb_c::BufferAvailable` decides by the
two ends of the buffer.

A buffer that reaches over both ends of the displayed region has neither end in it (`Contains`), and one
that ends where the region starts is taken to be in it (`Touches`): these are the cases in which
`BufferAvailable` is wrong (`exact_iff`).  The early returns leave what was obtained so far with the caller.
`meets_iff` says exactly for which outcomes of the pool a request obtains one buffer or none. -/

namespace Player2.DecodeBufferRequest

/-! ### The source -/

/-- `InitialFrameState_t`. -/
inductive InitialFrameState
  | possible
  | queued
  | notQueued
  | onDisplay
  | notPossible
deriving DecidableEq, Repr

/-- What `Manifestor_VideoStmfb_c` knows of the picture on display. -/
structure Display where
  initialFrameState : InitialFrameState
  visible : Bool
  displayAddress : ℕ
  displaySize : ℕ
deriving DecidableEq, Repr

def bufferAvailable (d : Display) (address size : ℕ) : Bool :=
  if d.initialFrameState ≠ .possible ∧ d.initialFrameState ≠ .queued then true
  else if d.visible = false ∨ d.displaySize = 0 then true
  else
    let last := address + size
    let displayEnd := d.displayAddress + d.displaySize
    !decide ((d.displayAddress ≤ address ∧ address < displayEnd) ∨
      (d.displayAddress ≤ last ∧ last < displayEnd))

def bufferOverlapMaxTries : ℕ := 16

variable {ε : Type}

/-- A buffer that `GetBuffer` obtains, and what the calls on it return. -/
structure Obtained (ε : Type) where
  buffer : ℕ
  dataReference : Except ε ℕ
  metaDataReference : Except ε Unit

/-- A request, and what the calls that it makes return: `getBuffer i` is what the pool returns to try `i`. -/
structure Call (ε : Type) where
  display : Display
  requestedStructure : BufferStructure
  fillOutBufferStructure : BufferStructure → Except ε BufferStructure
  getBuffer : ℕ → Except ε (Obtained ε)

/-- How the loop ends: with the buffers that were obtained, or with a buffer and those that were rejected. -/
inductive Search (ε : Type)
  | failed (status : ε) (obtained : List (Obtained ε))
  | found (b : Obtained ε) (bufferList : List (Obtained ε))

/-- What a request leaves: the buffer or the failure, the buffers that the caller holds, and the structure
that is attached to the buffer.  `candidates`, which are not in the source, are the buffers that the pool
gave. -/
structure Outcome (ε : Type) where
  status : Except ε (Obtained ε)
  held : List ℕ
  attached : Option BufferStructure
  candidates : List (Obtained ε)

namespace Call

variable (c : Call ε)

/-- The request structure is fleshed out. -/
def fleshedOut : Except ε BufferStructure :=
  if c.requestedStructure.format = .markerFrame then .ok { c.requestedStructure with size := 0 }
  else c.fillOutBufferStructure c.requestedStructure

/-- The request is for a marker frame. -/
def isMarker : Bool := c.requestedStructure.format = .markerFrame

/-- The loop over the candidates: try `i`, when `n` more are left. -/
def search (size : ℕ) (n i : ℕ) (bufferList : List (Obtained ε)) : Search ε :=
  match c.getBuffer i with
  | .error e => .failed e bufferList
  | .ok b =>
    if c.isMarker then .found b bufferList
    else
      match b.dataReference with
      | .error e => .failed e (bufferList ++ [b])
      | .ok address =>
        if bufferAvailable c.display address size then .found b bufferList
        else
          match n with
          | 0 => .found b bufferList -- the last buffer is accepted regardless
          | n + 1 => search size n (i + 1) (bufferList ++ [b])

def getDecodeBuffer : Outcome ε :=
  match c.fleshedOut with
  | .error e => ⟨.error e, [], none, []⟩
  | .ok s =>
    match c.search s.size.toNat (bufferOverlapMaxTries - 1) 0 [] with
    | .failed e obtained => ⟨.error e, obtained.map (·.buffer), none, obtained⟩
    | .found b bufferList =>
      let candidates := bufferList ++ [b]
      -- the unwanted buffers are put back
      let held := (candidates.map (·.buffer)).diff (bufferList.map (·.buffer))
      match b.metaDataReference with
      | .error e => ⟨.error e, held, none, candidates⟩
      | .ok _ => ⟨.ok b, held, some s, candidates⟩

end Call

/-! ### The displayed region -/

/-- The displayed region, where `BufferAvailable` looks at it. -/
def Display.region (d : Display) : Set ℕ :=
  if (d.initialFrameState = .possible ∨ d.initialFrameState = .queued) ∧ d.visible = true then
    Set.Ico d.displayAddress (d.displayAddress + d.displaySize)
  else ∅

/-- A buffer shares an address with the displayed region. -/
def Display.Overlaps (d : Display) (address size : ℕ) : Prop :=
  ¬ Disjoint (Set.Ico address (address + size)) d.region

/-- The displayed region is looked at, and not empty. -/
def Display.Shown (d : Display) : Prop :=
  ((d.initialFrameState = .possible ∨ d.initialFrameState = .queued) ∧ d.visible = true) ∧ d.displaySize ≠ 0

instance (d : Display) : Decidable d.Shown := inferInstanceAs (Decidable (_ ∧ _))

/-- A buffer reaches over both ends of the displayed region. -/
def Display.Contains (d : Display) (address size : ℕ) : Prop :=
  d.Shown ∧ address < d.displayAddress ∧ d.displayAddress + d.displaySize ≤ address + size

/-- A buffer ends where the displayed region starts, or is an empty one within it. -/
def Display.Touches (d : Display) (address size : ℕ) : Prop :=
  d.Shown ∧ (address < d.displayAddress ∧ address + size = d.displayAddress ∨
    size = 0 ∧ d.displayAddress ≤ address ∧ address < d.displayAddress + d.displaySize)

variable {d : Display} {address size : ℕ}

theorem overlaps_iff : d.Overlaps address size ↔
    d.Shown ∧ size ≠ 0 ∧ address < d.displayAddress + d.displaySize ∧ d.displayAddress < address + size := by
  unfold Display.Overlaps Display.region Display.Shown
  split
  next h =>
    rw [Set.Ico_disjoint_Ico]
    simp only [h, true_and]
    omega
  next h => simp [h]

theorem bufferAvailable_eq_false_iff : bufferAvailable d address size = false ↔
    d.Shown ∧ ((d.displayAddress ≤ address ∧ address < d.displayAddress + d.displaySize) ∨
      (d.displayAddress ≤ address + size ∧ address + size < d.displayAddress + d.displaySize)) := by
  unfold bufferAvailable Display.Shown
  split
  next h =>
    refine iff_of_false (by decide) fun hc => ?_
    rcases hc.1.1.1 with h1 | h1
    · exact h.1 h1
    · exact h.2 h1
  next h =>
    have hstate : d.initialFrameState = .possible ∨ d.initialFrameState = .queued := by
      by_cases h1 : d.initialFrameState = .possible
      · exact .inl h1
      · exact .inr (not_not.mp fun h2 => h ⟨h1, h2⟩)
    split
    next h' =>
      refine iff_of_false (by decide) fun hc => ?_
      rcases h' with h1 | h1
      · exact absurd (h1.symm.trans hc.1.1.2) (by decide)
      · exact hc.1.2 h1
    next h' =>
      have hvisible : d.visible = true := by
        rcases Bool.eq_false_or_eq_true d.visible with h1 | h1
        · exact h1
        · exact absurd (.inl h1) h'
      have hsize : d.displaySize ≠ 0 := fun h1 => h' (.inr h1)
      simp only [hstate, hvisible, hsize, Bool.not_eq_false', decide_eq_true_eq, true_and, ne_eq,
        not_false_eq_true]

/-- A buffer that is taken to be available shares an address with the displayed region exactly when it
reaches over both ends of it. -/
theorem available_overlaps_iff :
    (bufferAvailable d address size = true ∧ d.Overlaps address size) ↔ d.Contains address size := by
  rw [← Bool.not_eq_false, bufferAvailable_eq_false_iff, overlaps_iff]
  constructor
  · rintro ⟨havailable, hshown, hover⟩
    have hends : ¬ (_ ∨ _) := fun h => havailable ⟨hshown, h⟩
    exact ⟨hshown, by omega, by omega⟩
  · rintro ⟨hshown, hlow, hhigh⟩
    have hsize := hshown.2
    exact ⟨fun h => by omega, hshown, by omega, by omega, by omega⟩

theorem unavailable_clear_iff :
    (bufferAvailable d address size = false ∧ ¬ d.Overlaps address size) ↔ d.Touches address size := by
  rw [bufferAvailable_eq_false_iff, overlaps_iff]
  constructor
  · rintro ⟨⟨hshown, hends⟩, hclear⟩
    have hover : ¬ (_ ∧ _ ∧ _) := fun h => hclear ⟨hshown, h⟩
    exact ⟨hshown, by omega⟩
  · rintro ⟨hshown, htouch⟩
    have hsize := hshown.2
    exact ⟨⟨hshown, by omega⟩, fun h => by omega⟩

/-- `BufferAvailable` is right about a buffer. -/
def Exact (d : Display) (address size : ℕ) : Prop :=
  bufferAvailable d address size = true ↔ Disjoint (Set.Ico address (address + size)) d.region

/-- `BufferAvailable` is right exactly about the buffers that neither reach over both ends of the displayed
region nor end where it starts. -/
theorem exact_iff : Exact d address size ↔ ¬ d.Contains address size ∧ ¬ d.Touches address size := by
  rw [← available_overlaps_iff, ← unavailable_clear_iff]
  unfold Exact Display.Overlaps
  cases bufferAvailable d address size <;> simp

/-! ### The loop -/

namespace Call

variable (c : Call ε) (size : ℕ)

/-- Candidate `j` is rejected. -/
def Rejected (j : ℕ) : Prop :=
  c.isMarker = false ∧ ∃ b a, c.getBuffer j = .ok b ∧ b.dataReference = .ok a ∧
    bufferAvailable c.display a size = false

/-- The loop ends with candidate `k`. -/
def Ends (k : ℕ) : Prop :=
  k < bufferOverlapMaxTries ∧ (∀ j < k, c.Rejected size j) ∧
    ¬ (k + 1 < bufferOverlapMaxTries ∧ c.Rejected size k)

/-- What the loop returns when it ends with candidate `k`. -/
def resultAt (k : ℕ) (bufferList : List (Obtained ε)) : Search ε :=
  match c.getBuffer k with
  | .error e => .failed e bufferList
  | .ok b =>
    if c.isMarker then .found b bufferList
    else
      match b.dataReference with
      | .error e => .failed e (bufferList ++ [b])
      | .ok _ => .found b bufferList

variable {c size}

theorem Ends.unique {k k' : ℕ} (h : c.Ends size k) (h' : c.Ends size k') : k = k' := by
  rcases Nat.lt_trichotomy k k' with hlt | heq | hlt
  · exact absurd ⟨by have := h'.1; omega, h'.2.1 k hlt⟩ h.2.2
  · exact heq
  · exact absurd ⟨by have := h.1; omega, h.2.1 k' hlt⟩ h'.2.2

variable {i k : ℕ}

theorem search_of_not_rejected (h : ¬ c.Rejected size i) (n : ℕ) (list : List (Obtained ε)) :
    c.search size n i list = c.resultAt i list := by
  unfold search resultAt
  split
  next => rfl
  next b hb =>
    split
    next => rfl
    next hmarker =>
      split
      next => rfl
      next a ha =>
        rw [if_pos]
        by_contra hnot
        exact h ⟨Bool.eq_false_iff.mpr hmarker, b, a, hb, ha, Bool.eq_false_iff.mpr hnot⟩

theorem search_of_rejected (h : c.Rejected size i) (list : List (Obtained ε)) :
    c.search size 0 i list = c.resultAt i list ∧ ∃ b, c.getBuffer i = .ok b ∧
      ∀ n, c.search size (n + 1) i list = c.search size n (i + 1) (list ++ [b]) := by
  obtain ⟨hmarker, b, a, hb, ha, hunavailable⟩ := h
  have hfalse : ¬ c.isMarker = true := Bool.eq_false_iff.mp hmarker
  have hnot : ¬ bufferAvailable c.display a size = true := Bool.eq_false_iff.mp hunavailable
  refine ⟨?_, b, hb, fun n => ?_⟩
  · unfold search resultAt
    simp only [hb, ha, if_neg hfalse, if_neg hnot]
  · rw [search]
    simp only [hb, ha, if_neg hfalse, if_neg hnot]

theorem search_eq (n i : ℕ) (bufferList : List (Obtained ε)) (hn : i + n + 1 = bufferOverlapMaxTries)
    (hrejected : ∀ j < i, c.Rejected size j)
    (hlist : bufferList.map Except.ok = (List.range i).map c.getBuffer) :
    ∃ k list, c.Ends size k ∧ list.map Except.ok = (List.range k).map c.getBuffer ∧
      c.search size n i bufferList = c.resultAt k list := by
  by_cases hi : c.Rejected size i
  · obtain ⟨hlast, b, hb, hstep⟩ := search_of_rejected hi bufferList
    cases n with
    | zero => exact ⟨i, bufferList, ⟨by omega, hrejected, fun h => by omega⟩, hlist, hlast⟩
    | succ n =>
      rw [hstep]
      apply search_eq
      · omega
      · intro j hj
        rcases Nat.lt_succ_iff_lt_or_eq.mp hj with h | rfl
        · exact hrejected j h
        · exact hi
      · rw [List.map_append, hlist, List.range_succ, List.map_append, List.map_singleton,
          List.map_singleton, hb]
  · exact ⟨i, bufferList, ⟨by omega, hrejected, fun h => hi h.2⟩, hlist, search_of_not_rejected hi n bufferList⟩

/-! ### One buffer or none -/

/-- A request leaves one buffer more with the caller, or none where it fails; and the buffer shares an
address with the displayed region only where all the candidates do, as many as may be tried. -/
structure Meets (c : Call ε) : Prop where
  one : ∀ b, c.getDecodeBuffer.status = .ok b → c.getDecodeBuffer.held = [b.buffer]
  none : ∀ e, c.getDecodeBuffer.status = .error e → c.getDecodeBuffer.held = []
  clear : ∀ s b a, c.fleshedOut = .ok s → c.getDecodeBuffer.status = .ok b → b.dataReference = .ok a →
    c.display.Overlaps a s.size.toNat → c.getDecodeBuffer.candidates.length = bufferOverlapMaxTries ∧
      ∀ b' ∈ c.getDecodeBuffer.candidates, ∃ a', b'.dataReference = .ok a' ∧
        c.display.Overlaps a' s.size.toNat

/-- Candidate `j` only touches the displayed region. -/
def TouchesAt (c : Call ε) (size j : ℕ) : Prop :=
  ∃ b a, c.getBuffer j = .ok b ∧ b.dataReference = .ok a ∧ c.display.Touches a size

/-- What is asked of the candidate with which the loop ends.  The pool has no failure to report after a
candidate was rejected; the candidate has an address and meta data; if it reaches over both ends of the
displayed region, or was rejected, then the ones before it were not rejected for merely touching the
region. -/
def FineAt (c : Call ε) (size k : ℕ) : Prop :=
  match c.getBuffer k with
  | .error _ => k = 0
  | .ok b =>
    if c.isMarker then b.metaDataReference = .ok ()
    else
      match b.dataReference with
      | .error _ => False
      | .ok a =>
        b.metaDataReference = .ok () ∧
        (c.display.Contains a size → k + 1 = bufferOverlapMaxTries ∧ ∀ j < k, ¬ c.TouchesAt size j) ∧
        (bufferAvailable c.display a size = false →
          c.display.Touches a size ∨ ∀ j < k, ¬ c.TouchesAt size j)

/-- The condition on a request. -/
def Fine (c : Call ε) : Prop := ∀ s, c.fleshedOut = .ok s → ∀ k, c.Ends s.size.toNat k → c.FineAt s.size.toNat k

theorem diff_of_append (l : List ℕ) (x : ℕ) : (l ++ [x]).diff l = [x] := by
  induction l with
  | nil => rfl
  | cons a l ih => rw [List.cons_append, List.diff_cons, List.erase_cons_head, ih]

variable {b : Obtained ε}

theorem rejected_overlaps_iff {j : ℕ} {a : ℕ} (h : c.Rejected size j) (hb : c.getBuffer j = .ok b)
    (ha : b.dataReference = .ok a) : c.display.Overlaps a size ↔ ¬ c.TouchesAt size j := by
  obtain ⟨-, b', a', hb', ha', hunavailable⟩ := h
  obtain rfl : b' = b := Except.ok.inj (hb'.symm.trans hb)
  obtain rfl : a' = a := Except.ok.inj (ha'.symm.trans ha)
  have htouch : c.TouchesAt size j ↔ c.display.Touches a' size := by
    constructor
    · rintro ⟨b2, a2, hb2, ha2, h⟩
      obtain rfl : b2 = b' := Except.ok.inj (hb2.symm.trans hb)
      obtain rfl : a2 = a' := Except.ok.inj (ha2.symm.trans ha)
      exact h
    · exact fun h => ⟨b', a', hb, ha, h⟩
  rw [htouch, ← unavailable_clear_iff, not_and, not_not]
  exact ⟨fun h _ => h, fun h => h hunavailable⟩

variable {list : List (Obtained ε)}

theorem rejected_overlap_iff (hrejected : ∀ j < k, c.Rejected size j)
    (hlist : list.map Except.ok = (List.range k).map c.getBuffer) :
    (∀ b ∈ list, ∃ a, b.dataReference = .ok a ∧ c.display.Overlaps a size) ↔
      ∀ j < k, ¬ c.TouchesAt size j := by
  constructor
  · intro h j hj
    obtain ⟨-, b, a, hb, ha, -⟩ := hrejected j hj
    have hmem : Except.ok b ∈ list.map (Except.ok (ε := ε)) := by
      rw [hlist, ← hb]
      exact List.mem_map_of_mem (List.mem_range.mpr hj)
    obtain ⟨b', hb', e⟩ := List.mem_map.mp hmem
    obtain rfl : b' = b := Except.ok.inj e
    obtain ⟨a', ha', hover⟩ := h b' hb'
    exact (rejected_overlaps_iff (hrejected j hj) hb ha').mp hover
  · intro h b hb
    have hmem : Except.ok b ∈ (List.range k).map c.getBuffer := by
      rw [← hlist]
      exact List.mem_map_of_mem hb
    obtain ⟨j, hj, hget⟩ := List.mem_map.mp hmem
    have hj := List.mem_range.mp hj
    obtain ⟨-, b', a, hb', ha, -⟩ := hrejected j hj
    obtain rfl : b' = b := Except.ok.inj (hb'.symm.trans hget)
    exact ⟨a, ha, (rejected_overlaps_iff (hrejected j hj) hget ha).mpr (h j hj)⟩

theorem meets_of_error {e : ε} (h : c.getDecodeBuffer.status = .error e) :
    c.Meets ↔ c.getDecodeBuffer.held = [] := by
  refine ⟨fun hm => hm.none e h, fun hheld => ⟨fun b hb => ?_, fun _ _ => hheld, fun s b a _ hb => ?_⟩⟩
  · cases h.symm.trans hb
  · cases h.symm.trans hb

variable {s : BufferStructure}

theorem meets_of_ok (hs : c.fleshedOut = .ok s)
    (h : c.getDecodeBuffer.status = .ok b) (hheld : c.getDecodeBuffer.held = [b.buffer]) :
    c.Meets ↔ ∀ a, b.dataReference = .ok a → c.display.Overlaps a s.size.toNat →
      c.getDecodeBuffer.candidates.length = bufferOverlapMaxTries ∧
        ∀ b' ∈ c.getDecodeBuffer.candidates, ∃ a', b'.dataReference = .ok a' ∧
          c.display.Overlaps a' s.size.toNat := by
  refine ⟨fun hm a => hm.clear s b a hs h, fun hclear => ⟨fun b' hb' => ?_, fun e he => ?_, ?_⟩⟩
  · obtain rfl : b' = b := Except.ok.inj (hb'.symm.trans h)
    exact hheld
  · cases h.symm.trans he
  · intro s' b' a hs' hb' ha
    obtain rfl : s' = s := Except.ok.inj (hs'.symm.trans hs)
    obtain rfl : b' = b := Except.ok.inj (hb'.symm.trans h)
    exact hclear a ha

/-- What is left when the loop ends with a buffer. -/
def foundWith (s : BufferStructure) (b : Obtained ε) (list : List (Obtained ε)) : Outcome ε :=
  match b.metaDataReference with
  | .error e => ⟨.error e, [b.buffer], none, list ++ [b]⟩
  | .ok _ => ⟨.ok b, [b.buffer], some s, list ++ [b]⟩

theorem getDecodeBuffer_of_found
    (hs : c.fleshedOut = .ok s) (h : c.search s.size.toNat (bufferOverlapMaxTries - 1) 0 [] = .found b list) :
    c.getDecodeBuffer = foundWith s b list := by
  unfold getDecodeBuffer foundWith
  rw [hs]
  dsimp only
  rw [h]
  dsimp only
  rw [List.map_append, List.map_singleton, diff_of_append]

theorem getDecodeBuffer_of_failed {e : ε}
    (hs : c.fleshedOut = .ok s) (h : c.search s.size.toNat (bufferOverlapMaxTries - 1) 0 [] = .failed e list) :
    c.getDecodeBuffer = ⟨.error e, list.map (·.buffer), none, list⟩ := by
  unfold getDecodeBuffer
  rw [hs]
  dsimp only
  rw [h]

/-- A buffer that is found meets the claim exactly when its meta data are there, and what it overlaps is
overlapped by all. -/
theorem meets_of_found
    (hs : c.fleshedOut = .ok s) (h : c.search s.size.toNat (bufferOverlapMaxTries - 1) 0 [] = .found b list) :
    c.Meets ↔ b.metaDataReference = .ok () ∧ ∀ a, b.dataReference = .ok a → c.display.Overlaps a s.size.toNat →
      list.length + 1 = bufferOverlapMaxTries ∧
        ∀ b' ∈ list, ∃ a', b'.dataReference = .ok a' ∧ c.display.Overlaps a' s.size.toNat := by
  have hout := getDecodeBuffer_of_found hs h
  unfold foundWith at hout
  cases hmeta : b.metaDataReference with
  | error e =>
    rw [hmeta] at hout
    refine iff_of_false (fun hm => ?_) (fun h => by cases h.1)
    have hheld := hm.none e (by rw [hout])
    rw [hout] at hheld
    cases hheld
  | ok _ =>
    rw [hmeta] at hout
    rw [meets_of_ok hs (by rw [hout]) (by rw [hout]), hout]
    rw [List.length_append, List.length_singleton]
    refine ⟨fun h => ⟨rfl, fun a ha hover => ?_⟩, fun h a ha hover => ?_⟩
    · obtain ⟨hlen, hall⟩ := h a ha hover
      exact ⟨hlen, fun b' hb' => hall b' (List.mem_append_left _ hb')⟩
    · obtain ⟨hlen, hall⟩ := h.2 a ha hover
      refine ⟨hlen, fun b' hb' => ?_⟩
      rcases List.mem_append.mp hb' with hb' | hb'
      · exact hall b' hb'
      · obtain rfl := List.mem_singleton.mp hb'
        exact ⟨a, ha, hover⟩

/-- A candidate with which the loop ends meets the claim exactly when it is fine. -/
theorem meets_iff_fineAt (hs : c.fleshedOut = .ok s)
    (hends : c.Ends s.size.toNat k) (hlist : list.map Except.ok = (List.range k).map c.getBuffer)
    (hsearch : c.search s.size.toNat (bufferOverlapMaxTries - 1) 0 [] = c.resultAt k list) :
    c.Meets ↔ c.FineAt s.size.toNat k := by
  have hlen : list.length = k := by
    have h := congrArg List.length hlist
    rwa [List.length_map, List.length_map, List.length_range] at h
  unfold FineAt
  unfold resultAt at hsearch
  cases hget : c.getBuffer k with
  | error e =>
    rw [hget] at hsearch
    have hout := getDecodeBuffer_of_failed hs hsearch
    rw [meets_of_error (by rw [hout]), hout]
    rw [List.map_eq_nil_iff, ← List.length_eq_zero_iff, hlen]
  | ok b =>
    rw [hget] at hsearch
    dsimp only at hsearch ⊢
    by_cases hmarker : c.isMarker = true
    · rw [if_pos hmarker] at hsearch ⊢
      rw [meets_of_found hs hsearch]
      refine and_iff_left fun a _ hover => ?_
      -- a marker frame has no address
      have hformat : c.requestedStructure.format = .markerFrame := of_decide_eq_true hmarker
      unfold fleshedOut at hs
      rw [if_pos hformat] at hs
      obtain rfl := Except.ok.inj hs
      exact absurd rfl (overlaps_iff.mp hover).2.1
    · rw [if_neg hmarker] at hsearch ⊢
      cases hdata : b.dataReference with
      | error e =>
        rw [hdata] at hsearch
        have hout := getDecodeBuffer_of_failed hs hsearch
        rw [meets_of_error (by rw [hout]), hout]
        refine iff_of_false (fun h => ?_) id
        rw [List.map_append] at h
        exact absurd (List.append_eq_nil_iff.mp h).2 (List.cons_ne_nil _ _)
      | ok a =>
        rw [hdata] at hsearch
        rw [meets_of_found hs hsearch, hlen, rejected_overlap_iff hends.2.1 hlist]
        have hk := hends.1
        have hlast : bufferAvailable c.display a s.size.toNat = false → k + 1 = bufferOverlapMaxTries := by
          intro h
          by_contra hne
          exact hends.2.2 ⟨by omega, Bool.eq_false_iff.mpr hmarker, b, a, hget, hdata, h⟩
        have hcontains : _ ↔ c.display.Contains a s.size.toNat := available_overlaps_iff
        have htouches : _ ↔ c.display.Touches a s.size.toNat := unavailable_clear_iff
        refine and_congr_right fun _ => ?_
        rw [← hcontains, ← htouches]
        constructor
        · intro h
          refine ⟨fun hc => h a hdata hc.2, fun hf => ?_⟩
          by_cases hover : c.display.Overlaps a s.size.toNat
          · exact .inr (h a hdata hover).2
          · exact .inl ⟨hf, hover⟩
        · rintro ⟨h1, h2⟩ a' ha' hover
          obtain rfl : a = a' := Except.ok.inj (hdata.symm.trans ha')
          cases hav : bufferAvailable c.display a s.size.toNat with
          | true => exact h1 ⟨hav, hover⟩
          | false => exact ⟨hlast hav, (h2 hav).resolve_left fun h => h.2 hover⟩

theorem meets_iff_fine (c : Call ε) : c.Meets ↔ c.Fine := by
  cases hs : c.fleshedOut with
  | error e =>
    have hout : c.getDecodeBuffer = ⟨.error e, [], none, []⟩ := by
      unfold getDecodeBuffer
      rw [hs]
    refine iff_of_true ((meets_of_error (by rw [hout])).mpr (by rw [hout])) fun s h => ?_
    cases hs.symm.trans h
  | ok s =>
    have hloop : ∃ k list, c.Ends s.size.toNat k ∧ list.map Except.ok = (List.range k).map c.getBuffer ∧
        c.search s.size.toNat (bufferOverlapMaxTries - 1) 0 [] = c.resultAt k list :=
      search_eq _ 0 [] rfl (fun j hj => absurd hj (Nat.not_lt_zero j)) rfl
    obtain ⟨k, list, hends, hlist, hsearch⟩ := hloop
    rw [meets_iff_fineAt hs hends hlist hsearch]
    constructor
    · intro h s' hs' k' hk'
      obtain rfl : s = s' := Except.ok.inj (hs.symm.trans hs')
      rwa [hk'.unique hends]
    · intro h
      exact h s hs k hends

end Call

/-- **Obtaining a decode buffer.**  A request leaves one buffer or none, clear of the picture on display,
exactly when the candidate with which its loop ends is fine; and `BufferAvailable` is right exactly about
the buffers that neither reach over both ends of the displayed region nor merely touch it. -/
theorem meets_iff (ε : Type) : (∀ c : Call ε, c.Meets ↔ c.Fine) ∧ ∀ (d : Display) (address size : ℕ),
    Exact d address size ↔ ¬ d.Contains address size ∧ ¬ d.Touches address size :=
  ⟨Call.meets_iff_fine, fun _ _ _ => exact_iff⟩

/-- The pool gives one buffer, in the displayed region, and then no more. -/
def exhaustedPool : Call Unit where
  display := ⟨.queued, true, 4096, 4096⟩
  requestedStructure := BufferStructure.request .video565Rgb false 32 32 0 0
  fillOutBufferStructure s := .ok (s.fillOutBufferStructure false)
  getBuffer i := if i = 0 then .ok ⟨0, .ok 4096, .ok ()⟩ else .error ()

/-- The request fails and one buffer is held; and a buffer around the displayed region is available. -/
theorem not_meets : ¬ exhaustedPool.Meets ∧ ¬ Exact ⟨.queued, true, 4096, 4096⟩ 0 16384 := by
  constructor
  · intro h
    have hheld := h.none () rfl
    exact absurd hheld (by decide)
  · intro h
    have hdisjoint := h.mp (by decide)
    exact overlaps_iff.mpr ⟨by decide, by decide, by decide, by decide⟩ hdisjoint

end Player2.DecodeBufferRequest
