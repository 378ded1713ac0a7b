import Player2.ReverseStack
import Player2.Run

/-! # The stack

`StackGeneric_c` keeps values in an array, and the level they reach.  `run_bounded` says that it is a list of
limited length, for every capacity whose array has a size that fits 32 bits.  The two stacks of `OutputOnePartition` are such stacks: `run_refines`
says that what it does on the arrays is what `ReversePlay` says of lists. -/

namespace Player2

/-- `StackStatus_t`, as far as the calls return it. -/
inductive StackStatus where
  | noError
  | tooManyEntries
  | nothingToGet
deriving DecidableEq, Repr

/-- `StackGeneric_c`. -/
structure StackGeneric (α : Type*) where
  limit : UInt32
  level : UInt32
  storage : List α

namespace StackGeneric

variable {α : Type*}

/-! ### The source -/

/-- The constructor, when there is memory for the array, which has the contents of that memory.  The size of
its elements, which are `unsigned int`s, is asked for in an `unsigned int`. -/
def create (maxEntries : UInt32) (contents : ℕ → α) : StackGeneric α where
  limit := maxEntries
  level := 0
  storage := (List.range ((maxEntries * 4).toNat / 4)).map contents

/-- What a call returns: its status, and the value that is popped. -/
abbrev Answer (α : Type*) := StackStatus × Option α

/-- `Push`; `none` is a write outside the array. -/
def push (s : StackGeneric α) (value : α) : Option (Answer α × StackGeneric α) :=
  if s.level = s.limit then some ((.tooManyEntries, none), s)
  else if s.level.toNat < s.storage.length then
    some ((.noError, none), { s with level := s.level + 1, storage := s.storage.set s.level.toNat value })
  else none

/-- `Pop`; `none` is a read outside the array. -/
def pop (s : StackGeneric α) : Option (Answer α × StackGeneric α) :=
  if s.level ≠ 0 then
    s.storage[(s.level - 1).toNat]?.map fun value => ((.noError, some value), { s with level := s.level - 1 })
  else some ((.nothingToGet, none), s)

def flush (s : StackGeneric α) : Answer α × StackGeneric α := ((.noError, none), { s with level := 0 })

def nonEmpty (s : StackGeneric α) : Bool := s.level != 0

/-- The calls. -/
inductive Call (α : Type*) where
  | push (value : α)
  | pop
  | flush

def call (s : StackGeneric α) : Call α → Option (Answer α × StackGeneric α)
  | .push value => s.push value
  | .pop => s.pop
  | .flush => some s.flush

/-- A call, with its answer put on record. -/
def step (s : StackGeneric α × List (Answer α)) (c : Call α) : Option (StackGeneric α × List (Answer α)) :=
  (s.1.call c).map fun t => (t.2, s.2 ++ [t.1])

/-! ### A list of limited length -/

/-- What a call does to the values held, the last one first. -/
def Bounded.call (capacity : ℕ) (held : List α) : Call α → Answer α × List α
  | .push value =>
    if held.length = capacity then ((.tooManyEntries, none), held) else ((.noError, none), value :: held)
  | .pop =>
    match held with
    | [] => ((.nothingToGet, none), [])
    | value :: rest => ((.noError, some value), rest)
  | .flush => ((.noError, none), [])

def Bounded.step (capacity : ℕ) (s : List α × List (Answer α)) (c : Call α) : List α × List (Answer α) :=
  ((Bounded.call capacity s.1 c).2, s.2 ++ [(Bounded.call capacity s.1 c).1])

/-- The array holds the values, from the first one on, up to the level. -/
structure Holds (capacity : ℕ) (s : StackGeneric α) (held : List α) : Prop where
  limit : s.limit.toNat = capacity
  storage : s.storage.length = capacity
  level : s.level.toNat = held.length
  values : s.storage.take held.length = held.reverse

variable {capacity : ℕ} {s : StackGeneric α} {held : List α}

theorem Holds.length_le (h : Holds capacity s held) : held.length ≤ capacity := by
  have hlength := congrArg List.length h.values
  rw [List.length_take, List.length_reverse, h.storage] at hlength
  omega

theorem Holds.nonEmpty_iff (h : Holds capacity s held) : s.nonEmpty ↔ held ≠ [] := by
  rw [nonEmpty, bne_iff_ne, ← List.length_pos_iff, ← h.level, Nat.pos_iff_ne_zero]
  exact not_congr UInt32.toNat_inj.symm

theorem Holds.push (h : Holds capacity s held) (value : α) :
    ∃ s', s.push value = some ((Bounded.call capacity held (.push value)).1, s') ∧
      Holds capacity s' (Bounded.call capacity held (.push value)).2 := by
  have hle := h.length_le
  simp only [StackGeneric.push, Bounded.call]
  by_cases hfull : held.length = capacity
  · have hlevel : s.level = s.limit := by
      apply UInt32.toNat_inj.mp
      rw [h.level, h.limit, hfull]
    rw [if_pos hlevel, if_pos hfull]
    exact ⟨s, rfl, h⟩
  · have hlevel : s.level ≠ s.limit := by
      intro heq
      exact hfull (by rw [← h.level, heq, h.limit])
    have hroom : s.level.toNat < s.storage.length := by
      rw [h.level, h.storage]
      omega
    rw [if_neg hlevel, if_neg hfull, if_pos hroom]
    refine ⟨_, rfl, h.limit, by simpa using h.storage, ?_, ?_⟩
    · have hlimit := s.limit.toNat_lt
      have hlimit' := h.limit
      have hlevel' := h.level
      rw [UInt32.toNat_add, List.length_cons]
      change (s.level.toNat + 1) % 2 ^ 32 = _
      omega
    · have hlength : (s.storage.take held.length).length = held.length := by
        rw [h.values, List.length_reverse]
      rw [List.length_cons, List.reverse_cons, ← h.values, List.set_eq_take_append_cons_drop, if_pos hroom, h.level]
      simp [List.take_append, List.take_take, hlength]

theorem Holds.pop (h : Holds capacity s held) :
    ∃ s', s.pop = some ((Bounded.call capacity held .pop).1, s') ∧
      Holds capacity s' (Bounded.call capacity held .pop).2 := by
  simp only [StackGeneric.pop, Bounded.call]
  cases held with
  | nil =>
    have hlevel : s.level = 0 := UInt32.toNat_inj.mp h.level
    simp only [hlevel]
    exact ⟨s, rfl, h⟩
  | cons value rest =>
    have hlevel : s.level.toNat = rest.length + 1 := h.level
    have hne : s.level ≠ 0 := by
      rintro heq
      simp [heq] at hlevel
    have hsub : (s.level - 1).toNat = rest.length := by
      have hone : (1 : UInt32) ≤ s.level := by
        change 1 ≤ s.level.toNat
        omega
      rw [UInt32.toNat_sub_of_le _ _ hone, hlevel]
      rfl
    have hvalues := h.values
    rw [List.length_cons, List.reverse_cons] at hvalues
    have hget : s.storage[rest.length]? = some value := by
      rw [← List.getElem?_take_of_succ, hvalues]
      simp
    rw [if_pos hne, hsub, hget]
    refine ⟨_, rfl, h.limit, h.storage, hsub, ?_⟩
    have htake := congrArg (List.take rest.length) hvalues
    simpa [List.take_take] using htake

theorem Holds.call (h : Holds capacity s held) (c : Call α) :
    ∃ s', s.call c = some ((Bounded.call capacity held c).1, s') ∧
      Holds capacity s' (Bounded.call capacity held c).2 := by
  cases c with
  | push value => exact h.push value
  | pop => exact h.pop
  | flush => exact ⟨_, rfl, h.limit, h.storage, rfl, by simp [Bounded.call]⟩

theorem create_holds {maxEntries : UInt32} (hmax : maxEntries < 0x40000000) (contents : ℕ → α) :
    Holds maxEntries.toNat (create maxEntries contents) [] := by
  have hlt : maxEntries.toNat < 1073741824 := hmax
  have hbytes : (maxEntries * 4).toNat = maxEntries.toNat * 4 % 2 ^ 32 := UInt32.toNat_mul ..
  refine ⟨rfl, ?_, rfl, by simp⟩
  simp only [create, List.length_map, List.length_range, hbytes]
  omega

/-- **The stack is a list of limited length**, for every capacity below `2 ^ 30` and every sequence of calls: it
gives the answers of the list, holds what the list holds, and no call leaves the array. -/
theorem run_bounded {maxEntries : UInt32} (hmax : maxEntries < 0x40000000) (contents : ℕ → α)
    (calls : List (Call α)) :
    ∃ s held log, Lts.run step (create maxEntries contents, []) calls = some (s, log) ∧
      calls.foldl (Bounded.step maxEntries.toNat) ([], []) = (held, log) ∧ Holds maxEntries.toNat s held := by
  have hrun (calls : List (Call α)) : ∀ {s : StackGeneric α} {held : List α} (log : List (Answer α)),
      Holds maxEntries.toNat s held → ∃ s' held' log', Lts.run step (s, log) calls = some (s', log') ∧
        calls.foldl (Bounded.step maxEntries.toNat) (held, log) = (held', log') ∧
        Holds maxEntries.toNat s' held' := by
    induction calls with
    | nil => exact fun log h => ⟨_, _, log, rfl, rfl, h⟩
    | cons c calls ih =>
      intro s held log h
      obtain ⟨t, ht, hholds⟩ := h.call c
      obtain ⟨s', held', log', hs', hfold, hholds'⟩ := ih (log ++ [_]) hholds
      exact ⟨s', held', log', Lts.run_cons.mpr ⟨_, by rw [step, ht]; rfl, hs'⟩, hfold, hholds'⟩
  exact hrun calls [] (create_holds hmax contents)

/-- A stack of two takes two of three values, and gives the second one back. -/
theorem run_bounded_two : ∃ s held log,
    Lts.run step (create 2 fun _ => 0, []) [.push 7, .push 8, .push 9, .pop] = some (s, log) ∧
      ([.push 7, .push 8, .push 9, .pop] : List (Call ℕ)).foldl (Bounded.step 2) ([], []) = (held, log) ∧
      Holds 2 s held :=
  run_bounded (by decide) _ _

end StackGeneric

/-! ### The stacks of reverse play -/

namespace ReversePlay

open StackGeneric (Holds)

/-- `Output`, with the stacks as arrays. -/
structure Arrays where
  reverseFrameStack : StackGeneric Word
  temporaryHoldingStack : StackGeneric Word
  outputRing : List Word
  continuousReverseJump : Word → Bool

namespace Arrays

/-- The stacks as `RegisterOutputBufferRing` creates them. -/
def start (contents contents' : ℕ → Word) : Arrays :=
  ⟨.create 64 contents, .create 64 contents', [], fun _ => false⟩

/-- The first loop, for a limited number of rounds. -/
def seekPoint : ℕ → StackGeneric Word → StackGeneric Word → Word →
    Option (Word × StackGeneric Word × StackGeneric Word)
  | 0, _, _, _ => none
  | n + 1, stack, held, bufferAndFlag =>
    if stack.nonEmpty then do
      let popped ← stack.pop
      let bufferAndFlag := popped.1.2.getD bufferAndFlag
      if flagged bufferAndFlag then some (bufferAndFlag, popped.2, held)
      else
        let pushed ← held.push bufferAndFlag
        seekPoint n popped.2 pushed.2 bufferAndFlag
    else some (bufferAndFlag, stack, held)

/-- The loop that outputs the rest of the stack. -/
def outputRest : ℕ → StackGeneric Word → List Word → Word → Option (StackGeneric Word × List Word)
  | 0, _, _, _ => none
  | n + 1, stack, ring, bufferAndFlag =>
    if stack.nonEmpty then do
      let popped ← stack.pop
      let bufferAndFlag := popped.1.2.getD bufferAndFlag
      outputRest n popped.2 (ring ++ [bufferOf bufferAndFlag]) bufferAndFlag
    else some (stack, ring)

/-- The last loop. -/
def restore : ℕ → StackGeneric Word → StackGeneric Word → Word → Option (StackGeneric Word × StackGeneric Word)
  | 0, _, _, _ => none
  | n + 1, held, stack, bufferAndFlag =>
    if held.nonEmpty then do
      let popped ← held.pop
      let bufferAndFlag := popped.1.2.getD bufferAndFlag
      let pushed ← stack.push bufferAndFlag
      restore n popped.2 pushed.2 bufferAndFlag
    else some (held, stack)

/-- `OutputOnePartition` in backward play, with `rounds` rounds for each loop. -/
def outputOnePartition (rounds : ℕ) (hasParameters : Word → Bool) (a : Arrays) (d : Descriptor) :
    Option Arrays := do
  let pushed ← a.reverseFrameStack.push (bufferAndFlag d)
  if d.confirmReversiblePoint then
    let r ← seekPoint rounds pushed.2 a.temporaryHoldingStack (bufferAndFlag d)
    if flagged r.1 then
      if hasParameters (bufferOf r.1) then
        let rest ← outputRest rounds r.2.1 (a.outputRing ++ [bufferOf r.1]) r.1
        let back ← restore rounds r.2.2 rest.1 r.1
        some ⟨back.2, back.1, rest.2, Function.update a.continuousReverseJump (bufferOf r.1) true⟩
      else some { a with reverseFrameStack := r.2.1, temporaryHoldingStack := r.2.2 }
    else
      let back ← restore rounds r.2.2 r.2.1 r.1
      some { a with reverseFrameStack := back.2, temporaryHoldingStack := back.1 }
  else some { a with reverseFrameStack := pushed.2 }

/-- The arrays hold the lists. -/
structure Refines (a : Arrays) (s : Output) : Prop where
  stack : Holds maximumPartitionPoints a.reverseFrameStack s.reverseFrameStack
  held : Holds maximumPartitionPoints a.temporaryHoldingStack s.temporaryHoldingStack
  ring : a.outputRing = s.outputRing
  jump : a.continuousReverseJump = s.continuousReverseJump

variable {n : ℕ} {stack held : StackGeneric Word} {l k : List Word}

/-- The list is `push`ed as the array is. -/
theorem push_holds (h : Holds maximumPartitionPoints stack l) (w : Word) :
    ∃ r, stack.push w = some r ∧ Holds maximumPartitionPoints r.2 (push l w) := by
  obtain ⟨s', hs', hholds⟩ := h.push w
  refine ⟨_, hs', ?_⟩
  by_cases hfull : l.length = maximumPartitionPoints
  · simpa [push, StackGeneric.Bounded.call, hfull] using hholds
  · simpa [push, StackGeneric.Bounded.call, hfull] using hholds

theorem pop_holds {w : Word} (h : Holds maximumPartitionPoints stack (w :: l)) :
    stack.nonEmpty = true ∧ ∃ stack', stack.pop = some ((.noError, some w), stack') ∧
      Holds maximumPartitionPoints stack' l :=
  ⟨h.nonEmpty_iff.mpr (by simp), h.pop⟩

theorem not_nonEmpty (h : Holds maximumPartitionPoints stack []) : stack.nonEmpty = false := by
  simpa using h.nonEmpty_iff

theorem seekPoint_holds (hstack : Holds maximumPartitionPoints stack l)
    (hheld : Holds maximumPartitionPoints held k) (hn : l.length < n) (w : Word) :
    ∃ stack' held', seekPoint n stack held w = some ((ReversePlay.seekPoint l k w).1, stack', held') ∧
      Holds maximumPartitionPoints stack' (ReversePlay.seekPoint l k w).2.1 ∧
      Holds maximumPartitionPoints held' (ReversePlay.seekPoint l k w).2.2 := by
  induction l generalizing n stack held k w with
  | nil =>
    obtain ⟨n, rfl⟩ := Nat.exists_eq_succ_of_ne_zero (Nat.ne_of_gt hn)
    refine ⟨stack, held, ?_, hstack, hheld⟩
    simp [seekPoint, not_nonEmpty hstack, ReversePlay.seekPoint]
  | cons v l ih =>
    obtain ⟨n, rfl⟩ := Nat.exists_eq_succ_of_ne_zero (Nat.ne_of_gt (Nat.zero_lt_of_lt hn))
    obtain ⟨hne, stack', hpop, hstack'⟩ := pop_holds hstack
    obtain ⟨r, hpush, hheld'⟩ := push_holds hheld v
    cases hv : flagged v with
    | true => simp [seekPoint, hne, hpop, hv, ReversePlay.seekPoint, hstack', hheld]
    | false =>
      have hrest := ih hstack' hheld' (Nat.lt_of_succ_lt_succ hn) v
      simpa [seekPoint, hne, hpop, hv, hpush, ReversePlay.seekPoint] using hrest

theorem outputRest_holds (hstack : Holds maximumPartitionPoints stack l) (hn : l.length < n) (ring : List Word)
    (w : Word) : ∃ stack', outputRest n stack ring w = some (stack', ReversePlay.outputRest l ring) ∧
      Holds maximumPartitionPoints stack' [] := by
  induction l generalizing n stack ring w with
  | nil =>
    obtain ⟨n, rfl⟩ := Nat.exists_eq_succ_of_ne_zero (Nat.ne_of_gt hn)
    exact ⟨stack, by simp [outputRest, not_nonEmpty hstack, ReversePlay.outputRest], hstack⟩
  | cons v l ih =>
    obtain ⟨n, rfl⟩ := Nat.exists_eq_succ_of_ne_zero (Nat.ne_of_gt (Nat.zero_lt_of_lt hn))
    obtain ⟨hne, stack', hpop, hstack'⟩ := pop_holds hstack
    have hrest := ih hstack' (Nat.lt_of_succ_lt_succ hn) (ring ++ [bufferOf v]) v
    simpa [outputRest, hne, hpop, ReversePlay.outputRest] using hrest

theorem restore_holds (hheld : Holds maximumPartitionPoints held k)
    (hstack : Holds maximumPartitionPoints stack l) (hn : k.length < n) (w : Word) :
    ∃ held' stack', restore n held stack w = some (held', stack') ∧ Holds maximumPartitionPoints held' [] ∧
      Holds maximumPartitionPoints stack' (ReversePlay.restore k l) := by
  induction k generalizing n held stack l w with
  | nil =>
    obtain ⟨n, rfl⟩ := Nat.exists_eq_succ_of_ne_zero (Nat.ne_of_gt hn)
    exact ⟨held, stack, by simp [restore, not_nonEmpty hheld], hheld, hstack⟩
  | cons v k ih =>
    obtain ⟨n, rfl⟩ := Nat.exists_eq_succ_of_ne_zero (Nat.ne_of_gt (Nat.zero_lt_of_lt hn))
    obtain ⟨hne, held', hpop, hheld'⟩ := pop_holds hheld
    obtain ⟨r, hpush, hstack'⟩ := push_holds hstack v
    have hrest := ih hheld' hstack' (Nat.lt_of_succ_lt_succ hn) v
    simpa [restore, hne, hpop, hpush, ReversePlay.restore] using hrest

variable {hasParameters : Word → Bool} {a : Arrays} {s : Output}

/-- No loop takes more rounds than a stack has entries, and one to find it empty. -/
theorem Refines.step (h : Refines a s) (d : Descriptor) :
    ∃ a', outputOnePartition (maximumPartitionPoints + 1) hasParameters a d = some a' ∧
      Refines a' (ReversePlay.outputOnePartition hasParameters s d) := by
  obtain ⟨r, hpush, hstack⟩ := push_holds h.stack (bufferAndFlag d)
  unfold outputOnePartition ReversePlay.outputOnePartition
  rw [hpush]
  cases hconfirm : d.confirmReversiblePoint with
  | false => exact ⟨_, rfl, hstack, h.held, h.ring, h.jump⟩
  | true =>
    have hrounds {stack : StackGeneric Word} {l : List Word} (h : Holds maximumPartitionPoints stack l) :
        l.length < maximumPartitionPoints + 1 := Nat.lt_succ_of_le h.length_le
    obtain ⟨stack, held, hseek, hstack', hheld⟩ :=
      seekPoint_holds hstack h.held (hrounds hstack) (bufferAndFlag d)
    simp only [confirm, hseek, Option.bind_eq_bind, Option.bind_some, if_true]
    generalize ReversePlay.seekPoint _ _ _ = found at hstack' hheld ⊢
    split
    next hflag =>
      split
      next =>
        obtain ⟨rest, hrest, hempty⟩ :=
          outputRest_holds hstack' (hrounds hstack') (a.outputRing ++ [bufferOf found.1]) found.1
        obtain ⟨held', stack', hback, hheld', hrestored⟩ :=
          restore_holds hheld hempty (hrounds hheld) found.1
        simp only [hrest, hback, Option.bind_some]
        exact ⟨_, rfl, hrestored, hheld', by rw [h.ring], by rw [h.jump]⟩
      next => exact ⟨_, rfl, hstack', hheld, h.ring, h.jump⟩
    next =>
      obtain ⟨held', stack', hback, hheld', hrestored⟩ :=
        restore_holds hheld hstack' (hrounds hheld) found.1
      simp only [hback, Option.bind_some]
      exact ⟨_, rfl, hrestored, hheld', h.ring, h.jump⟩

/-- **The arrays do what the lists do**, for every sequence of partitions, beyond the capacity of the stacks
too: no access leaves an array, and no loop takes more rounds than a stack has entries, and one. -/
theorem run_refines (hasParameters : Word → Bool) (contents contents' : ℕ → Word) (ds : List Descriptor) :
    ∃ a, Lts.run (outputOnePartition (maximumPartitionPoints + 1) hasParameters) (start contents contents') ds =
      some a ∧ Refines a (outputAll hasParameters ReversePlay.start ds) := by
  have hrun : ∀ (ds : List Descriptor) {a : Arrays} {s : Output}, Refines a s →
      ∃ a', Lts.run (outputOnePartition (maximumPartitionPoints + 1) hasParameters) a ds = some a' ∧
        Refines a' (outputAll hasParameters s ds) := by
    intro ds
    induction ds with
    | nil => exact fun h => ⟨_, rfl, h⟩
    | cons d ds ih =>
      intro a s h
      obtain ⟨t, ht, href⟩ := h.step d
      obtain ⟨a', ha', href'⟩ := ih href
      exact ⟨a', Lts.run_cons.mpr ⟨t, ht, ha'⟩, href'⟩
  have hmax : (64 : UInt32) < 0x40000000 := by decide
  exact hrun ds ⟨StackGeneric.create_holds hmax contents, StackGeneric.create_holds hmax contents', rfl, rfl⟩

end Arrays
end ReversePlay
end Player2
