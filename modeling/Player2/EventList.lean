import Player2.Threaded
import Mathlib.Data.List.Perm.Subperm

/-! # The player's list of events

`Player_Generic_c` keeps the events that nobody has collected yet in `EventList`, an array whose entries
are linked through `NextIndex`, from `EventListHead` to `EventListTail`; an entry is free when its code is
`EventIllegalIdentifier`.  `SignalEvent` adds an event, and discards the oldest one when every entry is
taken.  `GetEventRecord`, here without blocking, takes the first event that meets its criteria.

`Held` says what this is for: a bounded queue from which any element may be taken.  `run_queue` says that
the entries behave as this queue, for any sequence of calls. -/

namespace Player2.Events

/-! ### A bounded queue -/

/-- The elements held, the oldest one first. -/
structure Held (α : Type*) where
  elements : List α
deriving DecidableEq

namespace Held
variable {α : Type*}

/-- A new element; the oldest one goes when there is no room. -/
def signal (capacity : ℕ) (h : Held α) (a : α) : Held α :=
  if h.elements.length < capacity then ⟨h.elements ++ [a]⟩ else ⟨h.elements.tail ++ [a]⟩

/-- The oldest element that is asked for, and what is left. -/
def take (h : Held α) (wanted : α → Bool) : Held α × Option α :=
  (⟨h.elements.eraseP wanted⟩, h.elements.find? wanted)

end Held

/-! ### The source -/

def invalidIndex : ℕ := 0xffffffff

/-- `PLAYER_MAX_OUTSTANDING_EVENTS`. -/
def maxOutstandingEvents : ℕ := 32

/-- `PlayerEventIdentifier_t`, and `PlayerEventMask_t`. -/
abbrev Mask := BitVec 64

def eventIllegalIdentifier : Mask := 0

/-- `PlayerEventRecord_t`; a playback or a stream is a pointer, and `PlayerAllPlaybacks` and
`PlayerAllStreams` are null. -/
structure EventRecord (β : Type*) where
  code : Mask
  playback : ℕ
  stream : ℕ
  detail : β
deriving DecidableEq

/-- What a record is asked for. -/
structure Criteria where
  playback : ℕ
  stream : ℕ
  events : Mask
deriving DecidableEq

def eventMatchesCriteria {β : Type*} (c : Criteria) (r : EventRecord β) : Bool :=
  (c.playback == 0 || c.playback == r.playback) && (c.stream == 0 || c.stream == r.stream) &&
    c.events &&& r.code != 0

/-- `EventListHead`, `EventListTail` and `EventList`. -/
structure EventList (β : Type*) where
  head : ℕ
  tail : ℕ
  nextIndex : ℕ → ℕ
  record : ℕ → EventRecord β

/-- A pointer to an index: to `EventListHead`, or to the `NextIndex` of an entry. -/
inductive IndexPtr
  | head
  | next (i : ℕ)
deriving DecidableEq

namespace EventList
variable {β : Type*}

/-- `*IndexPtr`. -/
def read (q : EventList β) : IndexPtr → ℕ
  | .head => q.head
  | .next i => q.nextIndex i

/-- `*IndexPtr = i`. -/
def write (q : EventList β) (p : IndexPtr) (i : ℕ) : EventList β :=
  match p with
  | .head => { q with head := i }
  | .next j => { q with nextIndex := Function.update q.nextIndex j i }

/-- The code of an entry becomes `EventIllegalIdentifier`. -/
def markFree (q : EventList β) (i : ℕ) : EventList β :=
  { q with record := Function.update q.record i { q.record i with code := eventIllegalIdentifier } }

/-- The first entry that is free. -/
def emptyVessel (q : EventList β) : Option ℕ :=
  (List.range maxOutstandingEvents).find? fun i => (q.record i).code == eventIllegalIdentifier

/-- A record is put into a free entry, and the entry behind the tail. -/
def store (q : EventList β) (i : ℕ) (r : EventRecord β) : EventList β :=
  let next := Function.update q.nextIndex i invalidIndex
  let record := Function.update q.record i r
  if q.tail ≠ invalidIndex then ⟨q.head, i, Function.update next q.tail i, record⟩
  else ⟨i, i, next, record⟩

/-- The oldest event is discarded. -/
def discardOldest (q : EventList β) : EventList β :=
  { q.markFree q.head with head := q.nextIndex q.head }

/-- `SignalEvent`, which calls itself after it has discarded an event; the number bounds the calls. -/
def signalEvent : ℕ → EventList β → EventRecord β → Option (EventList β)
  | 0, _, _ => none
  | calls + 1, q, r =>
    match q.emptyVessel with
    | some i => some (q.store i r)
    | none => signalEvent calls q.discardOldest r

/-- `ScanEventListForMatch`, with a bound on the entries it looks at. -/
def scanEventListForMatch (c : Criteria) (q : EventList β) : ℕ → IndexPtr → Option (Option IndexPtr)
  | 0, _ => none
  | steps + 1, p =>
    if q.read p = invalidIndex then some none
    else if eventMatchesCriteria c (q.record (q.read p)) then some (some p)
    else scanEventListForMatch c q steps (.next (q.read p))

/-- The walk that finds the tail again. -/
def walkToTail (q : EventList β) : ℕ → ℕ → Option ℕ
  | 0, _ => none
  | steps + 1, i =>
    if i = invalidIndex then some i
    else if q.nextIndex i = invalidIndex then some i
    else walkToTail q steps (q.nextIndex i)

/-- The entry at `p` is unlinked and freed. -/
def unlink (q : EventList β) (p : IndexPtr) : EventList β :=
  let i := q.read p
  let q' := q.write p (q.nextIndex i)
  { q'.markFree i with nextIndex := Function.update q'.nextIndex i invalidIndex }

/-- An event is removed; the tail is found again if it was the tail. -/
def remove (q : EventList β) (p : IndexPtr) : Option (EventList β) :=
  let q' := q.unlink p
  if q.read p = q.tail then
    (q'.walkToTail (maxOutstandingEvents + 1) q'.head).map fun tail => { q' with tail := tail }
  else some q'

/-- `GetEventRecord` without blocking. -/
def getEventRecord (q : EventList β) (c : Criteria) :
    Option (EventList β × Option (EventRecord β)) :=
  match scanEventListForMatch c q (maxOutstandingEvents + 1) .head with
  | none => none
  | some none => some (q, none)
  | some (some p) => (q.remove p).map fun q' => (q', some (q.record (q.read p)))

/-- The list as the constructor leaves it; what the entries hold besides their code is never read. -/
def start (detail : β) : EventList β where
  head := invalidIndex
  tail := invalidIndex
  nextIndex := fun _ => invalidIndex
  record := fun _ => ⟨eventIllegalIdentifier, 0, 0, detail⟩

end EventList

/-- A call. -/
inductive Call (β : Type*)
  | signal (r : EventRecord β)
  | get (c : Criteria)

/-- The call signals no event with the illegal code. -/
def Call.Legal {β : Type*} : Call β → Prop
  | .signal r => r.code ≠ eventIllegalIdentifier
  | .get _ => True

namespace EventList
variable {β : Type*}

/-- A call, and what it gives: nothing for `SignalEvent`. -/
def call (q : EventList β) : Call β → Option (EventList β × Option (EventRecord β))
  | .signal r => (signalEvent 2 q r).map fun q' => (q', none)
  | .get c => q.getEventRecord c

/-- A sequence of calls, with what each of them gives. -/
def run (q : EventList β) : List (Call β) → Option (EventList β × List (Option (EventRecord β)))
  | [] => some (q, [])
  | c :: cs => (q.call c).bind fun (q', out) => (run q' cs).map fun (q'', outs) => (q'', out :: outs)

end EventList

namespace Held
variable {β : Type*}

/-- A call on the queue. -/
def call (h : Held (EventRecord β)) : Call β → Held (EventRecord β) × Option (EventRecord β)
  | .signal r => (h.signal maxOutstandingEvents r, none)
  | .get c => h.take (eventMatchesCriteria c)

/-- A sequence of calls on the queue. -/
def run (h : Held (EventRecord β)) :
    List (Call β) → Held (EventRecord β) × List (Option (EventRecord β))
  | [] => (h, [])
  | c :: cs =>
    let next := h.call c
    let rest := run next.1 cs
    (rest.1, next.2 :: rest.2)

end Held

namespace EventList
variable {β : Type*}

/-! ### The entries as a queue -/

/-- The entries of the list are `slots`: each of them once, from the head to the tail, and they are the
ones that are not free. -/
structure Threads (q : EventList β) (slots : List ℕ) : Prop where
  chain : Threaded.Chain q.nextIndex invalidIndex q.head slots
  nodup : slots.Nodup
  tail : q.tail = slots.getLast?.getD invalidIndex
  taken : ∀ i, i ∈ slots ↔ i < maxOutstandingEvents ∧ (q.record i).code ≠ eventIllegalIdentifier

/-- The list holds the elements of the queue, in the queue's order. -/
def Represents (q : EventList β) (h : Held (EventRecord β)) : Prop :=
  ∃ slots, q.Threads slots ∧ slots.map q.record = h.elements

variable {q : EventList β} {slots rest first : List ℕ} {i steps j : ℕ}

theorem Threads.lt (h : q.Threads slots) (hi : i ∈ slots) :
    i < maxOutstandingEvents := ((h.taken i).mp hi).1

theorem Threads.ne_invalid (h : q.Threads slots)
    (hi : i ∈ slots) : i ≠ invalidIndex := by
  rintro rfl
  exact h.chain.nil_not_mem hi

theorem Threads.length_le (h : q.Threads slots) :
    slots.length ≤ maxOutstandingEvents := by
  have hsub : slots ⊆ List.range maxOutstandingEvents := fun i hi => List.mem_range.mpr (h.lt hi)
  have hperm := (List.subperm_of_subset h.nodup hsub).length_le
  rwa [List.length_range] at hperm

/-! ### Signalling -/

theorem emptyVessel_some (h : q.emptyVessel = some i) :
    i < maxOutstandingEvents ∧ (q.record i).code = eventIllegalIdentifier := by
  have hcode := List.find?_some h
  have hmem := List.mem_range.mp (List.mem_of_find?_eq_some h)
  rw [beq_iff_eq] at hcode
  exact ⟨hmem, hcode⟩

theorem emptyVessel_none (h : q.emptyVessel = none)
    (hi : i < maxOutstandingEvents) : (q.record i).code ≠ eventIllegalIdentifier := by
  have hall := List.find?_eq_none.mp h i (List.mem_range.mpr hi)
  rwa [beq_iff_eq] at hall

theorem Threads.emptyVessel_none_iff (h : q.Threads slots) :
    q.emptyVessel = none ↔ maxOutstandingEvents ≤ slots.length := by
  constructor
  · intro hnone
    have hsub : List.range maxOutstandingEvents ⊆ slots := by
      intro i hi
      have hlt := List.mem_range.mp hi
      exact (h.taken i).mpr ⟨hlt, emptyVessel_none hnone hlt⟩
    have hperm := (List.subperm_of_subset List.nodup_range hsub).length_le
    rwa [List.length_range] at hperm
  · intro hlen
    cases hfind : q.emptyVessel with
    | none => rfl
    | some i =>
      obtain ⟨hlt, hfree⟩ := emptyVessel_some hfind
      have hnot : i ∉ slots := fun hmem => ((h.taken i).mp hmem).2 hfree
      have hsub : i :: slots ⊆ List.range maxOutstandingEvents := by
        intro j hj
        rcases List.mem_cons.mp hj with rfl | hmem
        · exact List.mem_range.mpr hlt
        · exact List.mem_range.mpr (h.lt hmem)
      have hnodup : (i :: slots).Nodup := List.nodup_cons.mpr ⟨hnot, h.nodup⟩
      have hperm := (List.subperm_of_subset hnodup hsub).length_le
      rw [List.length_range, List.length_cons] at hperm
      omega

variable {r : EventRecord β}

theorem Threads.store (h : q.Threads slots)
    (hi : i < maxOutstandingEvents) (hfree : (q.record i).code = eventIllegalIdentifier)
    (hr : r.code ≠ eventIllegalIdentifier) :
    (q.store i r).Threads (slots ++ [i]) := by
  have hnot : i ∉ slots := fun hmem => ((h.taken i).mp hmem).2 hfree
  have hinvalid : i ≠ invalidIndex := by
    rw [maxOutstandingEvents] at hi
    rw [invalidIndex]
    omega
  have hnodup : (slots ++ [i]).Nodup := by
    rw [List.nodup_append]
    refine ⟨h.nodup, List.pairwise_singleton _ i, ?_⟩
    rintro j hj _ hmem rfl
    exact hnot (List.mem_singleton.mp hmem ▸ hj)
  have hold : Threaded.Chain (Function.update q.nextIndex i invalidIndex) invalidIndex q.head slots :=
    h.chain.congr fun j hj => Function.update_of_ne (ne_of_mem_of_not_mem hj hnot) _ _
  have htaken : ∀ j, j ∈ slots ++ [i] ↔ j < maxOutstandingEvents ∧
      (Function.update q.record i r j).code ≠ eventIllegalIdentifier := by
    intro j
    rw [List.mem_append, List.mem_singleton]
    by_cases hj : j = i
    · subst hj
      rw [Function.update_self]
      exact iff_of_true (.inr rfl) ⟨hi, hr⟩
    · rw [Function.update_of_ne hj, ← h.taken j]
      exact or_iff_left hj
  have hlast : (slots ++ [i]).getLast?.getD invalidIndex = i := by
    rw [List.getLast?_concat]
    rfl
  cases hslots : slots.getLast? with
  | none =>
    have hempty : slots = [] := List.getLast?_eq_none_iff.mp hslots
    have htail : q.tail = invalidIndex := by
      rw [h.tail, hslots]
      rfl
    unfold EventList.store
    rw [if_neg (not_not_intro htail)]
    refine ⟨?_, hnodup, hlast.symm, htaken⟩
    subst hempty
    refine ⟨rfl, hinvalid, ?_⟩
    exact Function.update_self ..
  | some last =>
    obtain ⟨first, rfl⟩ := List.getLast?_eq_some_iff.mp hslots
    have htail : q.tail = last := by
      rw [h.tail, hslots]
      rfl
    have hne : q.tail ≠ invalidIndex := htail ▸
      h.ne_invalid (List.mem_append_right _ (List.mem_singleton_self _))
    unfold EventList.store
    rw [if_pos hne]
    refine ⟨?_, hnodup, hlast.symm, htaken⟩
    rw [htail]
    exact hold.link h.nodup hinvalid hnot (Function.update_self ..)

theorem store_record :
    (q.store i r).record = Function.update q.record i r := by
  unfold EventList.store
  split <;> rfl

theorem Threads.store_map (h : q.Threads slots)
    (hfree : (q.record i).code = eventIllegalIdentifier) (r : EventRecord β) :
    (slots ++ [i]).map (q.store i r).record = slots.map q.record ++ [r] := by
  have hnot : i ∉ slots := fun hmem => ((h.taken i).mp hmem).2 hfree
  rw [store_record, List.map_append, List.map_singleton, Function.update_self]
  congr 1
  refine List.map_congr_left fun j hj => ?_
  exact Function.update_of_ne (ne_of_mem_of_not_mem hj hnot) _ _

theorem Threads.discardOldest (h : q.Threads (i :: rest))
    (hrest : rest ≠ []) :
    q.discardOldest.Threads rest ∧ (q.discardOldest.record i).code = eventIllegalIdentifier ∧
      rest.map q.discardOldest.record = rest.map q.record := by
  obtain ⟨hhead, hinvalid, hchain⟩ := h.chain
  obtain ⟨hnot, hnodup⟩ := List.nodup_cons.mp h.nodup
  have hrecord : q.discardOldest.record =
      Function.update q.record i { q.record i with code := eventIllegalIdentifier } := by
    rw [← hhead]
    rfl
  have hother : ∀ j, j ≠ i → q.discardOldest.record j = q.record j := by
    intro j hj
    rw [hrecord, Function.update_of_ne hj]
  have hfree : (q.discardOldest.record i).code = eventIllegalIdentifier := by
    rw [hrecord, Function.update_self]
  refine ⟨⟨?_, hnodup, ?_, ?_⟩, hfree, ?_⟩
  · change Threaded.Chain q.nextIndex invalidIndex (q.nextIndex q.head) rest
    rw [hhead]
    exact hchain
  · change q.tail = rest.getLast?.getD invalidIndex
    rw [h.tail, List.getLast?_cons_of_ne_nil hrest]
  · intro j
    by_cases hj : j = i
    · subst hj
      exact iff_of_false hnot fun hboth => hboth.2 hfree
    · rw [hother j hj, ← h.taken j, List.mem_cons]
      exact (or_iff_right hj).symm
  · refine List.map_congr_left fun j hj => hother j ?_
    rintro rfl
    exact hnot hj

variable {h : Held (EventRecord β)}

theorem Represents.signal (hq : q.Represents h)
    (hr : r.code ≠ eventIllegalIdentifier) :
    ∃ q', signalEvent 2 q r = some q' ∧ q'.Represents (h.signal maxOutstandingEvents r) := by
  obtain ⟨slots, hthreads, hmap⟩ := hq
  have hlength : h.elements.length = slots.length := by rw [← hmap, List.length_map]
  unfold signalEvent
  cases hfind : q.emptyVessel with
  | some i =>
    obtain ⟨hlt, hfree⟩ := emptyVessel_some hfind
    have hroom : ¬ maxOutstandingEvents ≤ slots.length := by
      rw [← hthreads.emptyVessel_none_iff, hfind]
      exact Option.some_ne_none i
    refine ⟨_, rfl, slots ++ [i], hthreads.store hlt hfree hr, ?_⟩
    rw [hthreads.store_map hfree, hmap, Held.signal, if_pos (by omega)]
  | none =>
    have hfull := hthreads.emptyVessel_none_iff.mp hfind
    obtain ⟨i, rest, rfl⟩ : ∃ i rest, slots = i :: rest := by
      refine List.exists_cons_of_ne_nil ?_
      rintro rfl
      exact absurd hfull (by decide)
    have hrest : rest ≠ [] := by
      rintro rfl
      rw [List.length_singleton, maxOutstandingEvents] at hfull
      omega
    obtain ⟨hthreads', hfree, hmap'⟩ := hthreads.discardOldest hrest
    have hle := hthreads.length_le
    rw [List.length_cons] at hle hfull
    unfold signalEvent
    cases hagain : q.discardOldest.emptyVessel with
    | none =>
      have hstill := hthreads'.emptyVessel_none_iff.mp hagain
      omega
    | some j =>
      obtain ⟨hltj, hfreej⟩ := emptyVessel_some hagain
      refine ⟨_, rfl, rest ++ [j], hthreads'.store hltj hfreej hr, ?_⟩
      have hfullq : ¬ h.elements.length < maxOutstandingEvents := by
        rw [hlength, List.length_cons]
        omega
      rw [hthreads'.store_map hfreej, hmap', Held.signal, if_neg hfullq, ← hmap]
      rfl

/-! ### Collecting -/

/-- The pointer to the index behind the entries `first`. -/
def ptrAfter : IndexPtr → List ℕ → IndexPtr
  | p, [] => p
  | _, i :: rest => ptrAfter (.next i) rest

theorem ptrAfter_concat (p : IndexPtr) (first : List ℕ) (i : ℕ) :
    ptrAfter p (first ++ [i]) = .next i := by
  induction first generalizing p with
  | nil => rfl
  | cons j first ih => exact ih (.next j)

variable {p : IndexPtr}

theorem chain_ptrAfter (h : Threaded.Chain q.nextIndex invalidIndex (q.read p) (first ++ rest)) :
    Threaded.Chain q.nextIndex invalidIndex (q.read (ptrAfter p first)) rest := by
  induction first generalizing p with
  | nil => exact h
  | cons j first ih =>
    obtain ⟨-, -, hrest⟩ := h
    exact ih (p := .next j) hrest

theorem scan_spec {c : Criteria}
    (h : Threaded.Chain q.nextIndex invalidIndex (q.read p) slots) (hsteps : slots.length < steps) :
    (slots.map q.record).find? (eventMatchesCriteria c) = none ∧
        scanEventListForMatch c q steps p = some none ∨
      ∃ first j rest, slots = first ++ j :: rest ∧
        (∀ r ∈ first.map q.record, eventMatchesCriteria c r = false) ∧
        eventMatchesCriteria c (q.record j) = true ∧
        scanEventListForMatch c q steps p = some (some (ptrAfter p first)) := by
  induction slots generalizing p steps with
  | nil =>
    obtain ⟨steps, rfl⟩ := Nat.exists_eq_add_of_lt hsteps
    have hread : q.read p = invalidIndex := h
    left
    refine ⟨rfl, ?_⟩
    unfold scanEventListForMatch
    rw [if_pos hread]
  | cons i rest ih =>
    obtain ⟨steps, rfl⟩ : ∃ n, steps = n + 1 := ⟨steps - 1, by omega⟩
    obtain ⟨hread, hinvalid, hrest⟩ := h
    unfold scanEventListForMatch
    rw [hread, if_neg hinvalid]
    by_cases hmatch : eventMatchesCriteria c (q.record i) = true
    · rw [if_pos hmatch]
      right
      exact ⟨[], i, rest, rfl, fun _ hmem => absurd hmem List.not_mem_nil, hmatch, rfl⟩
    · rw [if_neg hmatch]
      rcases ih (p := .next i) hrest (Nat.lt_of_succ_lt_succ hsteps) with hnone | hsome
      · left
        rw [List.map_cons, List.find?_cons_of_neg hmatch]
        exact hnone
      · right
        obtain ⟨first, j, rest', rfl, hfirst, hj, hscan⟩ := hsome
        refine ⟨i :: first, j, rest', rfl, ?_, hj, hscan⟩
        intro r hr
        rcases List.mem_cons.mp hr with rfl | hmem
        · exact Bool.eq_false_iff.mpr hmatch
        · exact hfirst r hmem

theorem walkToTail_spec
    (h : Threaded.Chain q.nextIndex invalidIndex i slots) (hsteps : slots.length < steps) :
    q.walkToTail steps i = some (slots.getLast?.getD invalidIndex) := by
  induction slots generalizing i steps with
  | nil =>
    obtain ⟨steps, rfl⟩ : ∃ n, steps = n + 1 := ⟨steps - 1, by omega⟩
    obtain rfl : i = invalidIndex := h
    rfl
  | cons j rest ih =>
    obtain ⟨steps, rfl⟩ : ∃ n, steps = n + 1 := ⟨steps - 1, by omega⟩
    obtain ⟨rfl, hinvalid, hrest⟩ := h
    unfold walkToTail
    rw [if_neg hinvalid]
    cases rest with
    | nil =>
      have hnext : q.nextIndex i = invalidIndex := hrest
      rw [if_pos hnext]
      rfl
    | cons k more =>
      have hnext : q.nextIndex i ≠ invalidIndex := by
        obtain ⟨heq, hk, -⟩ := hrest
        rw [heq]
        exact hk
      rw [if_neg hnext, ih hrest (Nat.lt_of_succ_lt_succ hsteps), List.getLast?_cons_cons]

theorem unlink_record (q : EventList β) (p : IndexPtr) :
    (q.unlink p).record = (q.markFree (q.read p)).record := by
  cases p <;> rfl

theorem unlink_tail (q : EventList β) (p : IndexPtr) : (q.unlink p).tail = q.tail := by
  cases p <;> rfl

theorem Threads.unlink_chain (h : q.Threads (first ++ j :: rest)) :
    Threaded.Chain (q.unlink (ptrAfter .head first)).nextIndex invalidIndex
        (q.unlink (ptrAfter .head first)).head (first ++ rest) ∧
      (q.unlink (ptrAfter .head first)).record =
        Function.update q.record j { q.record j with code := eventIllegalIdentifier } := by
  have hchain : Threaded.Chain q.nextIndex invalidIndex (q.read .head) (first ++ j :: rest) := h.chain
  have hread : q.read (ptrAfter .head first) = j := (chain_ptrAfter hchain).1
  have hj : j ∉ first ++ rest := by
    have hnodup := List.perm_middle.nodup_iff.mp h.nodup
    exact (List.nodup_cons.mp hnodup).1
  rcases List.eq_nil_or_concat' first with rfl | ⟨init, before, rfl⟩
  · have hhead : q.head = j := hread
    have hrest : Threaded.Chain q.nextIndex invalidIndex (q.nextIndex j) rest := h.chain.2.2
    refine ⟨?_, ?_⟩
    · change Threaded.Chain (Function.update q.nextIndex q.head invalidIndex) invalidIndex
        (q.nextIndex q.head) rest
      rw [hhead]
      exact hrest.congr fun k hk => Function.update_of_ne (ne_of_mem_of_not_mem hk hj) _ _
    · rw [unlink_record, hread]
      rfl
  · rw [ptrAfter_concat] at hread ⊢
    have hnext : q.nextIndex before = j := hread
    have hlinked : Threaded.Chain q.nextIndex invalidIndex q.head (init ++ before :: j :: rest) := by
      have heq : init ++ [before] ++ j :: rest = init ++ before :: j :: rest := by
        rw [List.append_assoc, List.singleton_append]
      exact heq ▸ h.chain
    have hnodup : (init ++ before :: j :: rest).Nodup := by
      have heq : init ++ [before] ++ j :: rest = init ++ before :: j :: rest := by
        rw [List.append_assoc, List.singleton_append]
      exact heq ▸ h.nodup
    have heq : init ++ [before] ++ rest = init ++ before :: rest := by
      rw [List.append_assoc, List.singleton_append]
    refine ⟨?_, ?_⟩
    · change Threaded.Chain (Function.update (Function.update q.nextIndex before
        (q.nextIndex (q.nextIndex before))) (q.nextIndex before) invalidIndex) invalidIndex q.head _
      rw [hnext, heq]
      refine (hlinked.unlink hnodup).congr fun k hk => Function.update_of_ne ?_ _ _
      exact ne_of_mem_of_not_mem hk (heq ▸ hj)
    · rw [unlink_record, hread]
      rfl

theorem Threads.remove (h : q.Threads (first ++ j :: rest)) :
    ∃ q', q.remove (ptrAfter .head first) = some q' ∧ q'.Threads (first ++ rest) ∧
      (first ++ rest).map q'.record = (first ++ rest).map q.record := by
  obtain ⟨hchain, hrecord⟩ := h.unlink_chain
  have hread : q.read (ptrAfter .head first) = j :=
    (chain_ptrAfter (p := .head) (show Threaded.Chain _ _ _ (first ++ j :: rest) from h.chain)).1
  have hmiddle := List.perm_middle.nodup_iff.mp h.nodup
  obtain ⟨hj, hnodup⟩ := List.nodup_cons.mp hmiddle
  have hother : ∀ k, k ≠ j → (q.unlink (ptrAfter .head first)).record k = q.record k := by
    intro k hk
    rw [hrecord, Function.update_of_ne hk]
  have hmap : (first ++ rest).map (q.unlink (ptrAfter .head first)).record =
      (first ++ rest).map q.record :=
    List.map_congr_left fun k hk => hother k (ne_of_mem_of_not_mem hk hj)
  have htaken : ∀ k, k ∈ first ++ rest ↔ k < maxOutstandingEvents ∧
      ((q.unlink (ptrAfter .head first)).record k).code ≠ eventIllegalIdentifier := by
    intro k
    by_cases hk : k = j
    · subst hk
      refine iff_of_false hj fun hboth => hboth.2 ?_
      rw [hrecord, Function.update_self]
    · rw [hother k hk, ← h.taken k, List.perm_middle.mem_iff, List.mem_cons]
      exact (or_iff_right hk).symm
  have hlength : (first ++ rest).length < maxOutstandingEvents + 1 := by
    have hle := h.length_le
    rw [List.length_append, List.length_cons] at hle
    rw [List.length_append]
    omega
  unfold EventList.remove
  dsimp only
  split
  next htail =>
    rw [walkToTail_spec hchain hlength, Option.map_some]
    exact ⟨_, rfl, ⟨hchain, hnodup, rfl, htaken⟩, hmap⟩
  next htail =>
    refine ⟨_, rfl, ⟨hchain, hnodup, ?_, htaken⟩, hmap⟩
    have hrest : rest ≠ [] := by
      rintro rfl
      rw [hread, h.tail, List.getLast?_concat] at htail
      exact htail rfl
    rw [unlink_tail, h.tail, List.getLast?_append_of_ne_nil _ (List.cons_ne_nil j rest),
      List.getLast?_append_of_ne_nil _ hrest, List.getLast?_cons_of_ne_nil hrest]

theorem Represents.get (hq : q.Represents h)
    (c : Criteria) :
    ∃ q', q.getEventRecord c = some (q', (h.take (eventMatchesCriteria c)).2) ∧
      q'.Represents (h.take (eventMatchesCriteria c)).1 := by
  obtain ⟨slots, hthreads, hmap⟩ := hq
  have hlength : slots.length < maxOutstandingEvents + 1 := Nat.lt_succ_of_le hthreads.length_le
  have hchain : Threaded.Chain q.nextIndex invalidIndex (q.read .head) slots := hthreads.chain
  unfold EventList.getEventRecord Held.take
  rw [← hmap]
  rcases scan_spec (c := c) hchain hlength with ⟨hnone, hscan⟩ | hsome
  · rw [hscan, hnone]
    refine ⟨q, rfl, slots, hthreads, ?_⟩
    have hall : ∀ r ∈ slots.map q.record, ¬ eventMatchesCriteria c r = true :=
      List.find?_eq_none.mp hnone
    exact (List.eraseP_of_forall_not hall).symm
  · obtain ⟨first, j, rest, rfl, hfirst, hj, hscan⟩ := hsome
    have hnot : ∀ r ∈ first.map q.record, ¬ eventMatchesCriteria c r = true :=
      fun r hr hmatch => Bool.false_ne_true ((hfirst r hr).symm.trans hmatch)
    have hread : q.read (ptrAfter .head first) = j := (chain_ptrAfter hchain).1
    have hfind : ((first ++ j :: rest).map q.record).find? (eventMatchesCriteria c) =
        some (q.record j) := by
      rw [List.map_append, List.find?_append, List.find?_eq_none.mpr hnot, List.map_cons,
        List.find?_cons_of_pos hj]
      rfl
    have herase : ((first ++ j :: rest).map q.record).eraseP (eventMatchesCriteria c) =
        (first ++ rest).map q.record := by
      rw [List.map_append, List.eraseP_append_right _ hnot, List.map_cons, List.eraseP_cons_of_pos hj,
        List.map_append]
    obtain ⟨q', hremove, hthreads', hmap'⟩ := hthreads.remove
    rw [hscan, hfind, herase]
    refine ⟨q', ?_, first ++ rest, hthreads', hmap'⟩
    change (q.remove (ptrAfter .head first)).map _ = _
    rw [hremove, hread, Option.map_some]

/-! ### Sequences of calls -/

theorem Represents.call (hq : q.Represents h)
    {c : Call β} (hc : c.Legal) :
    ∃ q', q.call c = some (q', (h.call c).2) ∧ q'.Represents (h.call c).1 := by
  cases c with
  | signal r =>
    obtain ⟨q', hsignal, hq'⟩ := hq.signal hc
    refine ⟨q', ?_, hq'⟩
    change (signalEvent 2 q r).map _ = _
    rw [hsignal]
    rfl
  | get c => exact hq.get c

theorem Represents.run (hq : q.Represents h)
    {calls : List (Call β)} (hlegal : ∀ c ∈ calls, c.Legal) :
    ∃ q', q.run calls = some (q', (h.run calls).2) ∧ q'.Represents (h.run calls).1 := by
  induction calls generalizing q h with
  | nil => exact ⟨q, rfl, hq⟩
  | cons c cs ih =>
    obtain ⟨q₁, hcall, hq₁⟩ := hq.call (hlegal c (List.mem_cons_self ..))
    obtain ⟨q₂, hrun, hq₂⟩ := ih hq₁ fun c hc => hlegal c (List.mem_cons_of_mem _ hc)
    refine ⟨q₂, ?_, hq₂⟩
    unfold EventList.run
    rw [hcall]
    change (q₁.run cs).map _ = _
    rw [hrun]
    rfl

theorem start_represents (detail : β) : (start detail).Represents ⟨[]⟩ := by
  refine ⟨[], ⟨rfl, List.nodup_nil, rfl, ?_⟩, rfl⟩
  intro i
  exact iff_of_false List.not_mem_nil fun hboth => hboth.2 rfl

/-- **The event list is a bounded queue**: any sequence of calls with legal codes comes to an end, gives
what the queue gives, and leaves entries that represent the queue. -/
theorem run_queue (detail : β) (calls : List (Call β)) (hlegal : ∀ c ∈ calls, c.Legal) :
    ∃ q, (start detail).run calls = some (q, ((Held.mk []).run calls).2) ∧
      q.Represents ((Held.mk []).run calls).1 :=
  (start_represents detail).run hlegal

/-- An event of stream 1 and one of stream 2 are signalled, and the later one is collected. -/
def laterFirst : List (Call Unit) :=
  [.signal ⟨1, 1, 1, ()⟩, .signal ⟨2, 1, 2, ()⟩, .get ⟨0, 2, 3⟩]

/-- `run_queue` where the tail is removed. -/
theorem run_queue_laterFirst : ∃ q : EventList Unit,
    (start ()).run laterFirst = some (q, [none, none, some ⟨2, 1, 2, ()⟩]) ∧
      q.Represents ⟨[⟨1, 1, 1, ()⟩]⟩ := by
  have hlegal : ∀ c ∈ laterFirst, c.Legal := by
    intro c hc
    rcases List.mem_cons.mp hc with rfl | hc
    · exact fun h => absurd h (by decide)
    rcases List.mem_cons.mp hc with rfl | hc
    · exact fun h => absurd h (by decide)
    rcases List.mem_cons.mp hc with rfl | hc
    · trivial
    · exact absurd hc List.not_mem_nil
  exact run_queue () laterFirst hlegal

end EventList
end Player2.Events
