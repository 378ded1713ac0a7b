import Player2.Circular
import Player2.Run
import Mathlib.Data.List.DropRight

/-! # The ring

`RingGeneric_c` keeps values in an array with one slot more than it holds values, so that the two indices are
only equal when it is empty.  `Insert`, `Extract` and `Flush` do their work under the lock of the ring, one
after the other.  An `Extract` that blocks waits before it takes the lock; the wait changes nothing, and what
is done meanwhile comes before it.  Neither an access outside the array nor what follows it is modelled: there
the call is `none`.

`Queue.call` is what a queue of limited length does.  `call_queue` proves that the ring does the same, and
`boundedQueue_iff` says for which capacities. -/

namespace Player2

/-- `RingStatus_t`, as far as the calls return it. -/
inductive RingStatus where
  | noError
  | tooManyEntries
  | nothingToGet
deriving DecidableEq, Repr

/-- `RingGeneric_c`. -/
structure RingGeneric where
  limit : UInt32
  nextExtract : UInt32
  nextInsert : UInt32
  storage : List UInt32
deriving DecidableEq, Repr

namespace RingGeneric

/-! ### The source -/

/-- The constructor, when there is memory for the array, which has the contents of that memory.  The size that
`new` asks for is an `unsigned int`, and for no bytes it gets none (`RingNoMemory`). -/
def create (maxEntries : UInt32) (contents : ℕ → UInt32) : RingGeneric where
  limit := maxEntries + 1
  nextExtract := 0
  nextInsert := 0
  storage := (List.range (((maxEntries + 1) * 4).toNat / 4)).map contents

/-- An index is counted up. -/
def next (limit index : UInt32) : UInt32 := if index + 1 = limit then 0 else index + 1

/-- What a call returns: its status, and the value that is extracted. -/
abbrev Answer := RingStatus × Option UInt32

def insert (r : RingGeneric) (value : UInt32) : Option (Answer × RingGeneric) :=
  if r.nextInsert.toNat < r.storage.length then
    let storage := r.storage.set r.nextInsert.toNat value
    -- the array has been written, and only the index goes back
    if next r.limit r.nextInsert = r.nextExtract then some ((.tooManyEntries, none), { r with storage })
    else some ((.noError, none), { r with storage, nextInsert := next r.limit r.nextInsert })
  else none

/-- `Extract`, once it has the lock. -/
def extract (r : RingGeneric) : Option (Answer × RingGeneric) :=
  if r.nextExtract ≠ r.nextInsert then
    r.storage[r.nextExtract.toNat]?.map fun value =>
      ((.noError, some value), { r with nextExtract := next r.limit r.nextExtract })
  else some ((.nothingToGet, none), r)

def flush (r : RingGeneric) : Answer × RingGeneric :=
  ((.noError, none), { r with nextExtract := 0, nextInsert := 0 })

/-- The calls. -/
inductive Call where
  | insert (value : UInt32)
  | extract
  | flush
deriving DecidableEq, Repr

def call (r : RingGeneric) : Call → Option (Answer × RingGeneric)
  | .insert value => r.insert value
  | .extract => r.extract
  | .flush => some r.flush

/-- The calls so far, with their answers. -/
abbrev Log := List (Call × Answer)

/-- A call, which is put on record. -/
def step (s : RingGeneric × Log) (c : Call) : Option (RingGeneric × Log) :=
  (s.1.call c).map fun t => (t.2, s.2 ++ [(c, t.1)])

/-! ### What the ring is for -/

/-- The ring as a circular array. -/
def ring (r : RingGeneric) : Circular.Ring UInt32 :=
  ⟨fun i => r.storage.getD i 0, r.nextExtract.toNat, r.nextInsert.toNat⟩

/-- The values held. -/
def held (r : RingGeneric) : List UInt32 := r.ring.held r.limit.toNat

/-- The value that a call has put in. -/
def inserted : Call × Answer → Option UInt32
  | (.insert value, .noError, _) => some value
  | _ => none

/-- The value that a call has taken out. -/
def extracted : Call × Answer → Option UInt32
  | (.extract, _, value) => value
  | _ => none

/-- What is on record since the last `Flush`. -/
def sinceFlush (log : Log) : Log := log.rtakeWhile (·.1 ≠ .flush)

/-- The answers to some calls. -/
def answers (r : RingGeneric) (calls : List Call) : Option Log := (Lts.run step (r, []) calls).map Prod.snd

/-- The ring has the same indices and values as before, and it answers all further calls as it would have
before.  (The spare slot has been written.) -/
structure Unchanged (r r' : RingGeneric) : Prop where
  limit : r'.limit = r.limit
  nextExtract : r'.nextExtract = r.nextExtract
  nextInsert : r'.nextInsert = r.nextInsert
  held : r'.held = r.held
  answers : ∀ calls, r'.answers calls = r.answers calls

/-- The values come out in the order in which they went in, `Insert` fails exactly if the ring is full and then
changes nothing, and `Extract` fails exactly if it is empty. -/
structure Serves (maxEntries : UInt32) (r : RingGeneric) (log : Log) : Prop where
  order : (sinceFlush log).filterMap inserted = (sinceFlush log).filterMap extracted ++ r.held
  insert : ∀ value, ∃ status r', r.call (.insert value) = some ((status, none), r') ∧
    (if r.held.length = maxEntries.toNat then status = .tooManyEntries ∧ Unchanged r r' else status = .noError)
  extract : ∃ status value r', r.call .extract = some ((status, value), r') ∧
    status = if r.held = [] then .nothingToGet else .noError

/-- **The ring is a queue of limited length**, after every sequence of calls. -/
def BoundedQueue (maxEntries : UInt32) : Prop :=
  ∀ contents calls, ∃ r log, Lts.run step (create maxEntries contents, []) calls = some (r, log) ∧
    Serves maxEntries r log

/-! ### A queue of limited length -/

/-- What a call does to the values held. -/
def Queue.call (capacity : ℕ) (held : List UInt32) : Call → Answer × List UInt32
  | .insert value =>
    if held.length = capacity then ((.tooManyEntries, none), held) else ((.noError, none), held ++ [value])
  | .extract =>
    match held with
    | [] => ((.nothingToGet, none), [])
    | value :: rest => ((.noError, some value), rest)
  | .flush => ((.noError, none), [])

variable {capacity : ℕ}

/-- The values that went in since the last `Flush` are the ones that came out and the ones held. -/
theorem Queue.call_order {held : List UInt32} {log : Log} (c : Call)
    (h : (sinceFlush log).filterMap inserted = (sinceFlush log).filterMap extracted ++ held) :
    (sinceFlush (log ++ [(c, (call capacity held c).1)])).filterMap inserted =
      (sinceFlush (log ++ [(c, (call capacity held c).1)])).filterMap extracted ++ (call capacity held c).2 := by
  cases c with
  | insert value =>
    rw [sinceFlush, List.rtakeWhile_concat_pos _ _ _ (by simp), List.filterMap_append, List.filterMap_append]
    change (sinceFlush log).filterMap inserted ++ _ = (sinceFlush log).filterMap extracted ++ _ ++ _
    rw [h]
    by_cases hfull : held.length = capacity
    · simp [call, hfull, inserted, extracted, List.filterMap_cons]
    · simp [call, hfull, inserted, extracted, List.filterMap_cons]
  | extract =>
    rw [sinceFlush, List.rtakeWhile_concat_pos _ _ _ (by simp), List.filterMap_append, List.filterMap_append]
    change (sinceFlush log).filterMap inserted ++ _ = (sinceFlush log).filterMap extracted ++ _ ++ _
    rw [h]
    cases held with
    | nil => simp [call, inserted, extracted, List.filterMap_cons]
    | cons value rest => simp [call, inserted, extracted, List.filterMap_cons]
  | flush =>
    rw [sinceFlush, List.rtakeWhile_concat_neg _ _ _ (by simp)]
    rfl

/-! ### The ring does what the queue does -/

/-- The array has the slots that the indices run over. -/
structure Sound (r : RingGeneric) : Prop where
  length : r.storage.length = r.limit.toNat
  fits : r.ring.Fits r.limit.toNat

/-- The index runs through the slots of a circular array. -/
theorem toNat_next {limit index : UInt32} (h : index.toNat < limit.toNat) :
    (next limit index).toNat = Circular.advance limit.toNat index.toNat := by
  have hlimit := limit.toNat_lt
  have hadd : (index + 1).toNat = index.toNat + 1 := by
    change (index.toNat + 1) % 2 ^ 32 = _
    omega
  unfold next Circular.advance
  rw [← hadd]
  by_cases heq : index + 1 = limit
  · rw [if_pos heq, if_pos (congrArg UInt32.toNat heq)]
    rfl
  · rw [if_neg heq, if_neg (fun h => heq (UInt32.toNat_inj.mp h))]

variable {r r' : RingGeneric}

theorem Sound.slots_set (h : r.Sound) (value : UInt32) :
    (fun i => (r.storage.set r.nextInsert.toNat value).getD i 0) =
      Function.update r.ring.slots r.ring.last value := by
  have hlast : r.nextInsert.toNat < r.storage.length := h.length ▸ h.fits.last_lt
  funext i
  rw [Function.update_apply, List.getD_eq_getElem?_getD, List.getElem?_set]
  change _ = if i = r.nextInsert.toNat then value else r.storage.getD i 0
  by_cases hi : i = r.nextInsert.toNat
  · simp [hi, hlast]
  · simp [hi, Ne.symm hi]

/-- **One call**: the ring answers as the queue does, and holds what the queue holds. -/
theorem call_queue (h : r.Sound) (hcap : r.limit.toNat = capacity + 1)
    (c : Call) : ∃ r', r.call c = some ((Queue.call capacity r.held c).1, r') ∧ r'.Sound ∧
      r'.limit = r.limit ∧ r'.held = (Queue.call capacity r.held c).2 := by
  have hlength : r.held.length = r.ring.count r.limit.toNat := Circular.Ring.length_held _
  have hcount := Circular.Ring.count_lt h.fits
  have hlast : r.nextInsert.toNat < r.storage.length := h.length ▸ h.fits.last_lt
  have hsize (value : UInt32) : (r.storage.set r.nextInsert.toNat value).length = r.limit.toNat :=
    (List.length_set ..).trans h.length
  cases c with
  | insert value =>
    have hfull : next r.limit r.nextInsert = r.nextExtract ↔ r.held.length = capacity := by
      rw [← UInt32.toNat_inj, toNat_next h.fits.last_lt, hlength]
      change Circular.advance _ r.ring.last = r.ring.next ↔ _
      rw [Circular.Ring.advance_last_eq_iff h.fits]
      omega
    simp only [call, insert, Queue.call]
    rw [if_pos hlast]
    by_cases hc : r.held.length = capacity
    · rw [if_pos (hfull.mpr hc), if_pos hc]
      refine ⟨_, rfl, ⟨hsize value, h.fits.next_lt, h.fits.last_lt⟩, rfl, ?_⟩
      unfold held ring
      rw [h.slots_set]
      exact Circular.Ring.held_write_last h.fits value
    · rw [if_neg (fun e => hc (hfull.mp e)), if_neg hc]
      have hpush : ring { r with
          storage := r.storage.set r.nextInsert.toNat value
          nextInsert := next r.limit r.nextInsert } = r.ring.push r.limit.toNat value := by
        unfold ring
        rw [h.slots_set, toNat_next h.fits.last_lt]
        rfl
      refine ⟨_, rfl, ⟨hsize value, hpush ▸ Circular.Ring.push_fits h.fits value⟩, rfl, ?_⟩
      unfold held
      rw [hpush]
      exact Circular.Ring.held_push h.fits value (by omega)
  | extract =>
    have hempty : r.nextExtract = r.nextInsert ↔ r.held = [] := by
      rw [held, Circular.Ring.held_eq_nil_iff h.fits, ← UInt32.toNat_inj]
      rfl
    simp only [call, extract]
    by_cases he : r.nextExtract = r.nextInsert
    · rw [if_neg (not_not.mpr he), hempty.mp he]
      exact ⟨r, rfl, h, rfl, hempty.mp he⟩
    · rw [if_pos he]
      have hne : r.ring.next ≠ r.ring.last := fun e => he (UInt32.toNat_inj.mp e)
      have hfirst : r.nextExtract.toNat < r.storage.length := h.length ▸ h.fits.next_lt
      have hdrop : ring { r with nextExtract := next r.limit r.nextExtract } = r.ring.drop r.limit.toNat := by
        unfold ring
        rw [toNat_next h.fits.next_lt]
        rfl
      have hheld : r.held = r.storage[r.nextExtract.toNat] :: (r.ring.drop r.limit.toNat).held r.limit.toNat := by
        rw [held, Circular.Ring.held_drop h.fits hne]
        congr 1
        simp [ring, List.getD_eq_getElem?_getD, hfirst]
      rw [hheld, List.getElem?_eq_getElem hfirst]
      refine ⟨_, rfl, ⟨h.length, hdrop ▸ Circular.Ring.drop_fits h.fits⟩, rfl, ?_⟩
      rw [held, hdrop]
      rfl
  | flush =>
    have hzero : (0 : UInt32).toNat < r.limit.toNat := by
      rw [hcap]
      exact Nat.succ_pos capacity
    have hfits : (ring { r with nextExtract := 0, nextInsert := 0 }).Fits r.limit.toNat := ⟨hzero, hzero⟩
    exact ⟨_, rfl, ⟨h.length, hfits⟩, rfl, (Circular.Ring.held_eq_nil_iff hfits).mpr rfl⟩

/-! ### Runs -/

/-- What a run keeps. -/
structure Kept (capacity : ℕ) (s : RingGeneric × Log) : Prop where
  sound : s.1.Sound
  limit : s.1.limit.toNat = capacity + 1
  order : (sinceFlush s.2).filterMap inserted = (sinceFlush s.2).filterMap extracted ++ s.1.held

variable {s : RingGeneric × Log}

theorem Kept.step (h : Kept capacity s) (c : Call) :
    ∃ s', step s c = some s' ∧ Kept capacity s' := by
  obtain ⟨r', hcall, hsound, hlimit, hheld⟩ := call_queue h.sound h.limit c
  refine ⟨_, by rw [RingGeneric.step, hcall]; rfl, hsound, (congrArg _ hlimit).trans h.limit, ?_⟩
  rw [hheld]
  exact Queue.call_order c h.order

theorem Kept.run (h : Kept capacity s) (calls : List Call) :
    ∃ s', Lts.run RingGeneric.step s calls = some s' ∧ Kept capacity s' := by
  induction calls generalizing s with
  | nil => exact ⟨s, rfl, h⟩
  | cons c calls ih =>
    obtain ⟨t, ht, hkept⟩ := h.step c
    obtain ⟨s', hs', hkept'⟩ := ih hkept
    exact ⟨s', Lts.run_cons.mpr ⟨t, ht, hs'⟩, hkept'⟩

/-- Rings that hold the same values give the same answers. -/
theorem run_log_eq (h : r.Sound) (h' : r'.Sound)
    (hcap : r.limit.toNat = capacity + 1) (hlimit : r'.limit = r.limit) (hheld : r'.held = r.held) (log : Log)
    (calls : List Call) :
    (Lts.run step (r', log) calls).map Prod.snd = (Lts.run step (r, log) calls).map Prod.snd := by
  induction calls generalizing r r' log with
  | nil => rfl
  | cons c calls ih =>
    obtain ⟨t, hcall, hsound, hlimit₁, hheld₁⟩ := call_queue h hcap c
    obtain ⟨t', hcall', hsound', hlimit₂, hheld₂⟩ := call_queue h' ((congrArg _ hlimit).trans hcap) c
    rw [hheld] at hcall' hheld₂
    unfold Lts.run step
    rw [hcall, hcall']
    exact ih hsound hsound' ((congrArg _ hlimit₁).trans hcap) ((hlimit₂.trans hlimit).trans hlimit₁.symm)
      (hheld₂.trans hheld₁.symm) _

/-- An `Insert` that fails has written the spare slot. -/
theorem eq_of_insert_full {value : UInt32}
    (h : r.insert value = some ((.tooManyEntries, none), r')) :
    r' = { r with storage := r.storage.set r.nextInsert.toNat value } := by
  unfold insert at h
  split at h
  · split at h
    · exact (Prod.mk.inj (Option.some.inj h)).2.symm
    · cases h
  · cases h

variable {maxEntries : UInt32}

theorem Kept.serves (h : Kept maxEntries.toNat s) :
    Serves maxEntries s.1 s.2 := by
  refine ⟨h.order, ?_, ?_⟩
  · intro value
    obtain ⟨r', hcall, hsound, hlimit, hheld⟩ := call_queue h.sound h.limit (.insert value)
    simp only [Queue.call] at hcall hheld
    by_cases hfull : s.1.held.length = maxEntries.toNat
    · rw [if_pos hfull] at hcall hheld
      refine ⟨_, r', hcall, ?_⟩
      rw [if_pos hfull]
      have hsame := run_log_eq h.sound hsound h.limit hlimit hheld []
      obtain rfl := eq_of_insert_full hcall
      exact ⟨rfl, rfl, rfl, rfl, hheld, hsame⟩
    · rw [if_neg hfull] at hcall
      exact ⟨_, r', hcall, by rw [if_neg hfull]⟩
  · obtain ⟨r', hcall, -⟩ := call_queue h.sound h.limit .extract
    cases hheld : s.1.held with
    | nil =>
      rw [hheld] at hcall
      exact ⟨_, _, r', hcall, by simp⟩
    | cons value rest =>
      rw [hheld] at hcall
      exact ⟨_, _, r', hcall, by simp⟩

theorem length_create (maxEntries : UInt32) (contents : ℕ → UInt32) :
    (create maxEntries contents).storage.length = (maxEntries + 1).toNat % 0x40000000 := by
  have hbytes : ((maxEntries + 1) * 4).toNat = (maxEntries + 1).toNat * 4 % 2 ^ 32 := UInt32.toNat_mul ..
  simp only [create, List.length_map, List.length_range, hbytes]
  omega

theorem toNat_limit (h : maxEntries < 0x3fffffff) :
    (maxEntries + 1).toNat = maxEntries.toNat + 1 := by
  have hlt : maxEntries.toNat < 1073741823 := h
  change (maxEntries.toNat + 1) % 2 ^ 32 = _
  omega

theorem create_kept (h : maxEntries < 0x3fffffff) (contents : ℕ → UInt32) :
    Kept maxEntries.toNat (create maxEntries contents, []) := by
  have hlimit := toNat_limit h
  have hzero : (0 : UInt32).toNat < (maxEntries + 1).toNat := by
    rw [hlimit]
    exact Nat.succ_pos _
  have hfits : (create maxEntries contents).ring.Fits (maxEntries + 1).toNat := ⟨hzero, hzero⟩
  have hlength : (create maxEntries contents).storage.length = (maxEntries + 1).toNat := by
    have hlt : maxEntries.toNat < 1073741823 := h
    rw [length_create, Nat.mod_eq_of_lt (by omega)]
  refine ⟨⟨hlength, hfits⟩, hlimit, ?_⟩
  rfl

/-- On an array with fewer slots than the limit the indices do not turn back in time. -/
theorem run_overruns (hshort : r.storage.length ≤ r.limit.toNat)
    (hlimit : r.storage.length = r.limit.toNat → r.storage = []) (hextract : r.nextExtract = 0) (log : Log) :
    ∀ k, r.nextInsert.toNat + k = r.storage.length →
      Lts.run step (r, log) (List.replicate (k + 1) (.insert 0)) = none := by
  intro k
  induction k generalizing r log with
  | zero =>
    intro hend
    simp [Lts.run, step, call, insert, show ¬ r.nextInsert.toNat < r.storage.length by omega]
  | succ k ih =>
    intro hend
    have hlt : r.nextInsert.toNat < r.storage.length := by omega
    have hne : r.storage.length ≠ r.limit.toNat := fun h => by simp [hlimit h] at hlt
    have hadd : (r.nextInsert + 1).toNat = r.nextInsert.toNat + 1 := by
      have hbound := r.limit.toNat_lt
      change (r.nextInsert.toNat + 1) % 2 ^ 32 = _
      omega
    have hnext : next r.limit r.nextInsert = r.nextInsert + 1 :=
      if_neg fun h => by have := congrArg UInt32.toNat h; omega
    have hroom : r.nextInsert + 1 ≠ r.nextExtract := fun h => by
      have := congrArg UInt32.toNat h
      rw [hextract, hadd] at this
      simp at this
    rw [List.replicate_succ]
    simp only [Lts.run, step, call, insert, if_pos hlt, hnext, if_neg hroom, Option.map_some, Option.bind_some]
    refine ih (r := { r with nextInsert := r.nextInsert + 1, storage := r.storage.set r.nextInsert.toNat 0 })
      ?_ (fun h => absurd ((List.length_set ..).symm.trans h) hne) hextract _ ?_
    · rw [List.length_set]
      exact hshort
    · rw [List.length_set, hadd]
      omega

/-- **The ring is a bounded queue exactly for the capacities whose array has a size that fits 32 bits.** -/
theorem boundedQueue_iff (maxEntries : UInt32) : BoundedQueue maxEntries ↔ maxEntries < 0x3fffffff := by
  constructor
  · intro h
    by_contra hle
    have hlength := length_create maxEntries fun _ => 0
    have hlimit : (create maxEntries fun _ => 0).limit.toNat = (maxEntries + 1).toNat := rfl
    have hwraps : 2 ^ 30 ≤ (maxEntries + 1).toNat ∨ (maxEntries + 1).toNat = 0 := by
      have hge : ¬ maxEntries.toNat < 1073741823 := hle
      have hlt := maxEntries.toNat_lt
      change 2 ^ 30 ≤ (maxEntries.toNat + 1) % 2 ^ 32 ∨ (maxEntries.toNat + 1) % 2 ^ 32 = 0
      omega
    have hnone := run_overruns (r := create maxEntries fun _ => 0)
      (by rw [hlength, hlimit]; omega)
      (fun heq => List.length_eq_zero_iff.mp (by rw [hlength, hlimit] at heq; omega)) rfl [] _
      (Nat.zero_add _)
    obtain ⟨r, log, hrun, -⟩ := h (fun _ => 0) _
    exact absurd (hnone.symm.trans hrun) (by simp)
  · intro h contents calls
    obtain ⟨s, hrun, hkept⟩ := (create_kept h contents).run calls
    exact ⟨s.1, s.2, hrun, hkept.serves⟩

/-- A ring with a capacity of `2 ^ 30` has an array of one word: the second `Insert` is a write behind it. -/
theorem not_boundedQueue : ¬ ∀ maxEntries : UInt32, BoundedQueue maxEntries := by
  intro h
  obtain ⟨r, log, hrun, -⟩ := h 0x40000000 (fun _ => 0) [.insert 0, .insert 0]
  have hnone : Lts.run step (create 0x40000000 fun _ => 0, []) [.insert 0, .insert 0] = none := rfl
  exact absurd (hnone.symm.trans hrun) (by simp)

end RingGeneric
end Player2
