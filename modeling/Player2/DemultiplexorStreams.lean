import Mathlib.Logic.Function.Basic
import Mathlib.Data.List.Basic
import Player2.Run

/-! # The stream tables of the transport stream demultiplexor

`Demultiplexor_Base_c` keeps an array of four streams, each under the full 32 bit identifier it
was added with.  `Demultiplexor_Ts_c` adds a table of 8192 entries that maps a PID, the low 13
bits of an identifier, to one plus the index of a stream.  The two tables have different keys:
two identifiers that differ in the priority flags alone share a table entry.

`Registry` pairs a context with the registrations that are in force according to the calls made
so far.  `Registry.Reachable` says that every one of them is the target of the table entry of its
PID, `Registry.NoneStale` that no table entry refers to a stream that is gone.  The second holds
in every run; the first holds along a run exactly when every call is `Registry.Apart`
(`run_reachable_iff`). -/

namespace Player2.Demultiplexor

/-! ### The contexts -/

/-- `DEMULTIPLEXOR_MAX_STREAMS`. -/
def maxStreams : ℕ := 4
def invalidIndex : UInt32 := 0xffffffff
/-- `DEMULTIPLEXOR_SELECT_ON_PRIORITY`. -/
def selectOnPriorityFlag : UInt32 := 0x2000
/-- `DEMULTIPLEXOR_PRIORITY_HIGH`. -/
def priorityHighFlag : UInt32 := 0x4000

/-- `DemultiplexorStatus_t`, as far as the demultiplexor itself produces it. -/
inductive Status
  | noError
  | error
  | bufferOverflow
deriving DecidableEq, Repr

/-- `DemultiplexorBaseStreamContext_t` over stream handles `σ`; a `NULL` handle is `none`, and a
collator is named by the stream it belongs to. -/
structure BaseStream (σ : Type*) where
  stream : Option σ
  identifier : UInt32
  collator : Option σ
deriving DecidableEq

/-- `DemultiplexorStreamContext_t`. -/
structure StreamContext where
  validExpectedContinuityCount : Bool
  expectedContinuityCount : ℕ
  selectOnPriority : Bool
  desiredPriority : Bool
deriving DecidableEq

/-- `DemultiplexorContext_s` with its base part. -/
structure Context (σ : Type*) where
  lastStreamSet : ℕ
  base : ℕ → BaseStream σ
  streams : ℕ → StreamContext
  pidTable : ℕ → ℕ
  addedNewStream : Bool
  bluRayExtraData : ℕ

variable {σ : Type*}

/-- `CreateContext`: zeroed memory, no stream set. -/
def createContext : Context σ where
  lastStreamSet := 0
  base := fun _ => ⟨none, invalidIndex, none⟩
  streams := fun _ => ⟨false, 0, false, false⟩
  pidTable := fun _ => 0
  addedNewStream := false
  bluRayExtraData := 0

/-- `StreamIdentifier & (DVB_MAX_PIDS - 1)`. -/
def pidTableIndex (identifier : UInt32) : ℕ := (identifier &&& 0x1fff).toNat

namespace Context

/-! ### Adding and removing a stream -/

/-- The first entry of the stream array without a stream. -/
def freeEntry (c : Context σ) : Option ℕ :=
  (List.range maxStreams).find? (fun i => (c.base i).stream.isNone)

/-- `Demultiplexor_Base_c::AddStream`. -/
def baseAddStream (c : Context σ) (stream : σ) (identifier : UInt32) : Status × Context σ :=
  match c.freeEntry with
  | some i =>
    (.noError, { c with
      base := Function.update c.base i ⟨some stream, identifier, some stream⟩
      lastStreamSet := i })
  | none => (.error, c)

/-- What `Demultiplexor_Ts_c::AddStream` does after the base has taken the stream. -/
def setStream (c : Context σ) (identifier : UInt32) : Context σ :=
  { c with
    pidTable := Function.update c.pidTable (pidTableIndex identifier) (c.lastStreamSet + 1)
    streams := Function.update c.streams c.lastStreamSet
      { c.streams c.lastStreamSet with
        validExpectedContinuityCount := false
        selectOnPriority := identifier &&& selectOnPriorityFlag != 0
        desiredPriority := identifier &&& priorityHighFlag != 0 }
    addedNewStream := true }

/-- `Demultiplexor_Ts_c::AddStream`.  It reports `DemultiplexorError` in either case. -/
def addStream (c : Context σ) (stream : σ) (identifier : UInt32) : Status × Context σ :=
  match c.baseAddStream stream identifier with
  | (.noError, c') => (.error, c'.setStream identifier)
  | (status, c') => (status, c')

/-- The entries `Demultiplexor_Base_c::RemoveStream` releases. -/
def releases (c : Context σ) (identifier : UInt32) (i : ℕ) : Bool :=
  decide (i < maxStreams) && (c.base i).identifier == identifier

/-- `Demultiplexor_Base_c::RemoveStream`: every entry under the identifier is released. -/
def baseRemoveStream (c : Context σ) (identifier : UInt32) : Status × Context σ :=
  (.noError, { c with
    base := fun i =>
      if c.releases identifier i then
        { c.base i with stream := none, identifier := invalidIndex }
      else c.base i })

def removeStream (c : Context σ) (identifier : UInt32) : Status × Context σ :=
  baseRemoveStream
    { c with pidTable := Function.update c.pidTable (pidTableIndex identifier) 0 } identifier

def inputJump (c : Context σ) : Context σ :=
  { c with
    streams := fun i =>
      if i < maxStreams then { c.streams i with validExpectedContinuityCount := false }
      else c.streams i }

/-- Entry `i` of the stream array holds `stream` under `identifier`. -/
def Holds (c : Context σ) (i : ℕ) (stream : σ) (identifier : UInt32) : Prop :=
  i < maxStreams ∧ (c.base i).stream = some stream ∧ (c.base i).identifier = identifier

variable {c : Context σ} {i j : ℕ}

theorem freeEntry_some (h : c.freeEntry = some i) :
    i < maxStreams ∧ (c.base i).stream = none := by
  have hmem := List.mem_of_find?_eq_some h
  have hfree := List.find?_some h
  exact ⟨List.mem_range.mp hmem, Option.isNone_iff_eq_none.mp hfree⟩

theorem addStream_of_free (h : c.freeEntry = some i) (stream : σ)
    (identifier : UInt32) :
    (c.addStream stream identifier).2.base
        = Function.update c.base i ⟨some stream, identifier, some stream⟩ ∧
      (c.addStream stream identifier).2.pidTable
        = Function.update c.pidTable (pidTableIndex identifier) (i + 1) := by
  simp [addStream, baseAddStream, h, setStream]

theorem addStream_of_full (h : c.freeEntry = none) (stream : σ)
    (identifier : UInt32) : (c.addStream stream identifier).2 = c := by
  simp [addStream, baseAddStream, h]

variable {identifier id : UInt32}

theorem holds_addStream (h : c.freeEntry = some i) {stream s : σ}
    :
    (c.addStream stream identifier).2.Holds j s id ↔
      (j = i ∧ s = stream ∧ id = identifier) ∨ (j ≠ i ∧ c.Holds j s id) := by
  obtain ⟨hi, -⟩ := freeEntry_some h
  unfold Holds
  rw [(addStream_of_free h stream identifier).1]
  by_cases hj : j = i
  · subst hj
    simp only [Function.update_self, hi, true_and, ne_eq, not_true_eq_false, false_and, or_false,
      Option.some.injEq]
    constructor
    · rintro ⟨rfl, rfl⟩
      exact ⟨rfl, rfl⟩
    · rintro ⟨rfl, rfl⟩
      exact ⟨rfl, rfl⟩
  · simp [hj]

theorem holds_removeStream {s : σ} :
    (c.removeStream identifier).2.Holds j s id ↔ c.Holds j s id ∧ id ≠ identifier := by
  have hbase : (c.removeStream identifier).2.base j =
      if j < maxStreams ∧ (c.base j).identifier = identifier then
        { c.base j with stream := none, identifier := invalidIndex }
      else c.base j := by
    simp [removeStream, baseRemoveStream, releases]
  unfold Holds
  rw [hbase]
  split
  next h =>
    constructor
    · rintro ⟨-, hnone, -⟩
      exact absurd hnone (by simp)
    · rintro ⟨⟨-, -, hid⟩, hne⟩
      exact absurd (hid.symm.trans h.2) hne
  next h =>
    constructor
    · rintro ⟨hj, hs, rfl⟩
      exact ⟨⟨hj, hs, rfl⟩, fun hid => h ⟨hj, hid⟩⟩
    · rintro ⟨hholds, -⟩
      exact hholds

end Context

/-! ### Calls and registrations -/

/-- A call that changes the stream tables. -/
inductive Call (σ : Type*)
  | addStream (stream : σ) (identifier : UInt32)
  | removeStream (identifier : UInt32)
deriving DecidableEq

/-- A context with the streams accepted and not yet removed, each with its identifier.  A stream
is accepted when `Demultiplexor_Base_c::AddStream` finds an entry for it. -/
structure Registry (σ : Type*) where
  context : Context σ
  registered : List (σ × UInt32)

namespace Registry

/-- A new context, with no stream registered. -/
def start : Registry σ := ⟨createContext, []⟩

/-- Perform one call. -/
def perform (r : Registry σ) : Call σ → Registry σ
  | .addStream stream identifier =>
    { context := (r.context.addStream stream identifier).2
      registered :=
        if (r.context.baseAddStream stream identifier).1 = .noError then
          (stream, identifier) :: r.registered
        else r.registered }
  | .removeStream identifier =>
    { context := (r.context.removeStream identifier).2
      registered := r.registered.filter (fun x => x.2 != identifier) }

/-- `perform` as a step of a run; every call is possible in every state. -/
def step (r : Registry σ) (a : Call σ) : Option (Registry σ) := some (r.perform a)

/-- Every registered stream is the target of the table entry of its PID. -/
def Reachable (r : Registry σ) : Prop :=
  ∀ x ∈ r.registered, ∃ i, r.context.pidTable (pidTableIndex x.2) = i + 1 ∧
    r.context.Holds i x.1 x.2

/-- Every table entry in use refers to a registered stream of that PID. -/
def NoneStale (r : Registry σ) : Prop :=
  ∀ pid i, r.context.pidTable pid = i + 1 →
    ∃ x ∈ r.registered, pidTableIndex x.2 = pid ∧ r.context.Holds i x.1 x.2

/-- The stream array holds exactly the registered streams. -/
def Recorded (r : Registry σ) : Prop :=
  ∀ x, x ∈ r.registered ↔ ∃ i, r.context.Holds i x.1 x.2

/-- No registered stream other than the one the call is about has the PID of the call. -/
def Apart (r : Registry σ) : Call σ → Prop
  | .addStream stream identifier =>
    r.context.freeEntry = none ∨
      ∀ x ∈ r.registered, pidTableIndex x.2 = pidTableIndex identifier →
        x = (stream, identifier)
  | .removeStream identifier =>
    ∀ x ∈ r.registered, pidTableIndex x.2 = pidTableIndex identifier → x.2 = identifier

instance [DecidableEq σ] (r : Registry σ) : (a : Call σ) → Decidable (r.Apart a)
  | .addStream stream identifier => inferInstanceAs (Decidable (r.context.freeEntry = none ∨
      ∀ x ∈ r.registered, pidTableIndex x.2 = pidTableIndex identifier → x = (stream, identifier)))
  | .removeStream identifier => inferInstanceAs (Decidable
      (∀ x ∈ r.registered, pidTableIndex x.2 = pidTableIndex identifier → x.2 = identifier))

/-! ### One call -/

variable {r : Registry σ}

theorem perform_addStream_of_free {i : ℕ} (h : r.context.freeEntry = some i)
    (stream : σ) (identifier : UInt32) :
    (r.perform (.addStream stream identifier)).registered
      = (stream, identifier) :: r.registered := by
  simp [perform, Context.baseAddStream, h]

theorem perform_addStream_of_full (h : r.context.freeEntry = none)
    (stream : σ) (identifier : UInt32) : r.perform (.addStream stream identifier) = r := by
  simp [perform, Context.addStream_of_full h, Context.baseAddStream, h]

theorem mem_perform_removeStream {identifier : UInt32} {x : σ × UInt32} :
    x ∈ (r.perform (.removeStream identifier)).registered ↔
      x ∈ r.registered ∧ x.2 ≠ identifier := by
  simp [perform]

theorem perform_recorded (h : r.Recorded) (a : Call σ) :
    (r.perform a).Recorded := by
  cases a with
  | addStream stream identifier =>
    cases hfree : r.context.freeEntry with
    | none =>
      rw [perform_addStream_of_full hfree]
      exact h
    | some i =>
      obtain ⟨-, hnone⟩ := Context.freeEntry_some hfree
      intro x
      rw [perform_addStream_of_free hfree, List.mem_cons, h x]
      simp only [perform, Context.holds_addStream hfree]
      constructor
      · rintro (rfl | ⟨j, hj⟩)
        · exact ⟨i, .inl ⟨rfl, rfl, rfl⟩⟩
        · refine ⟨j, .inr ⟨?_, hj⟩⟩
          rintro rfl
          exact absurd (hnone.symm.trans hj.2.1) (by simp)
      · rintro ⟨j, ⟨-, hs, hid⟩ | ⟨-, hj⟩⟩
        · exact .inl (Prod.ext hs hid)
        · exact .inr ⟨j, hj⟩
  | removeStream identifier =>
    intro x
    rw [mem_perform_removeStream, h x]
    simp only [perform, Context.holds_removeStream, exists_and_right]

/-- A table entry is written for the entry just filled and cleared with the entries released, so
it never outlives its stream. -/
theorem perform_noneStale (h : r.NoneStale) (a : Call σ) :
    (r.perform a).NoneStale := by
  cases a with
  | addStream stream identifier =>
    cases hfree : r.context.freeEntry with
    | none =>
      rw [perform_addStream_of_full hfree]
      exact h
    | some i =>
      obtain ⟨-, hnone⟩ := Context.freeEntry_some hfree
      intro pid j hpid
      rw [perform_addStream_of_free hfree]
      simp only [perform, (Context.addStream_of_free hfree stream identifier).2] at hpid
      simp only [perform, Context.holds_addStream hfree]
      by_cases hp : pid = pidTableIndex identifier
      · rw [hp, Function.update_self] at hpid
        exact ⟨(stream, identifier), List.mem_cons_self, hp.symm,
          .inl ⟨by omega, rfl, rfl⟩⟩
      · rw [Function.update_of_ne hp] at hpid
        obtain ⟨x, hx, hxp, hj⟩ := h pid j hpid
        refine ⟨x, List.mem_cons_of_mem _ hx, hxp, .inr ⟨?_, hj⟩⟩
        rintro rfl
        exact absurd (hnone.symm.trans hj.2.1) (by simp)
  | removeStream identifier =>
    intro pid j hpid
    have htable : (r.perform (.removeStream identifier)).context.pidTable
        = Function.update r.context.pidTable (pidTableIndex identifier) 0 := rfl
    rw [htable] at hpid
    by_cases hp : pid = pidTableIndex identifier
    · rw [hp, Function.update_self] at hpid
      exact absurd hpid (by omega)
    · rw [Function.update_of_ne hp] at hpid
      obtain ⟨x, hx, hxp, hj⟩ := h pid j hpid
      have hne : x.2 ≠ identifier := by
        rintro rfl
        exact hp hxp.symm
      exact ⟨x, mem_perform_removeStream.mpr ⟨hx, hne⟩, hxp,
        Context.holds_removeStream.mpr ⟨hj, hne⟩⟩

/-- A call keeps every registered stream reachable exactly when it keeps apart from the PIDs of
the other registered streams. -/
theorem perform_reachable_iff (h : r.Reachable) (a : Call σ) :
    (r.perform a).Reachable ↔ r.Apart a := by
  cases a with
  | addStream stream identifier =>
    cases hfree : r.context.freeEntry with
    | none =>
      rw [perform_addStream_of_full hfree]
      exact iff_of_true h (.inl hfree)
    | some i =>
      obtain ⟨-, hnone⟩ := Context.freeEntry_some hfree
      unfold Reachable Apart
      rw [perform_addStream_of_free hfree]
      simp only [perform, (Context.addStream_of_free hfree stream identifier).2,
        Context.holds_addStream hfree, hfree]
      constructor
      · intro hall
        refine .inr fun x hx hpid => ?_
        obtain ⟨j, hj, hholds⟩ := hall x (List.mem_cons_of_mem _ hx)
        rw [hpid, Function.update_self] at hj
        -- the entry of this PID now refers to the new stream
        rcases hholds with ⟨-, hs, hid⟩ | ⟨hne, -⟩
        · exact Prod.ext hs hid
        · exact absurd hj (by omega)
      · rintro (habs | hapart) x hx
        · exact absurd habs (by simp)
        · by_cases hpid : pidTableIndex x.2 = pidTableIndex identifier
          · have hxe : x = (stream, identifier) := by
              rcases List.mem_cons.mp hx with hx | hx
              · exact hx
              · exact hapart x hx hpid
            subst hxe
            exact ⟨i, by rw [Function.update_self], .inl ⟨rfl, rfl, rfl⟩⟩
          · have hx' : x ∈ r.registered := by
              rcases List.mem_cons.mp hx with rfl | hx
              · exact absurd rfl hpid
              · exact hx
            obtain ⟨j, hj, hholds⟩ := h x hx'
            refine ⟨j, by rw [Function.update_of_ne hpid, hj], .inr ⟨?_, hholds⟩⟩
            rintro rfl
            exact absurd (hnone.symm.trans hholds.2.1) (by simp)
  | removeStream identifier =>
    have htable : (r.perform (.removeStream identifier)).context.pidTable
        = Function.update r.context.pidTable (pidTableIndex identifier) 0 := rfl
    constructor
    · intro hall x hx hpid
      by_contra hne
      obtain ⟨j, hj, -⟩ := hall x (mem_perform_removeStream.mpr ⟨hx, hne⟩)
      rw [htable, hpid, Function.update_self] at hj
      exact absurd hj (by omega)
    · intro hapart x hx
      obtain ⟨hx, hne⟩ := mem_perform_removeStream.mp hx
      obtain ⟨j, hj, hholds⟩ := h x hx
      have hpid : pidTableIndex x.2 ≠ pidTableIndex identifier :=
        fun hpid => hne (hapart x hx hpid)
      exact ⟨j, by rw [htable, Function.update_of_ne hpid, hj],
        Context.holds_removeStream.mpr ⟨hholds, hne⟩⟩

/-! ### Runs -/

theorem start_recorded : (start : Registry σ).Recorded := by
  intro x
  simp [start, createContext, Context.Holds]

theorem start_noneStale : (start : Registry σ).NoneStale := by
  intro pid i h
  exact absurd h (by simp [start, createContext])

theorem start_reachable : (start : Registry σ).Reachable := by
  intro x hx
  exact absurd hx (by simp [start])

theorem step_invariant (r : Registry σ) (a : Call σ) (r' : Registry σ)
    (h : r.Recorded ∧ r.NoneStale) (hstep : r.step a = some r') :
    r'.Recorded ∧ r'.NoneStale := by
  obtain rfl := Option.some.inj hstep
  exact ⟨perform_recorded h.1 a, perform_noneStale h.2 a⟩

/-- **The stream tables agree**: along any sequence of calls on a new context, every accepted and
not yet removed stream is the target of the table entry of its PID and no entry refers to a
removed one, in every state, if and only if every call is apart from the PIDs of the other
registered streams. -/
theorem run_reachable_iff (calls : List (Call σ)) :
    Lts.Throughout step (fun r => r.Reachable ∧ r.NoneStale) start calls ↔
      Lts.Along step Apart start calls := by
  refine Lts.throughout_iff_along (J := fun r => r.Recorded ∧ r.NoneStale) ?_ step_invariant ?_
    ⟨start_recorded, start_noneStale⟩ ⟨start_reachable, start_noneStale⟩
  · intro r a
    exact ⟨r.perform a, rfl⟩
  · intro r a r' hJ hI hstep
    have hJ' := step_invariant r a r' hJ hstep
    obtain rfl := Option.some.inj hstep
    rw [← perform_reachable_iff hI.1 a]
    exact and_iff_left hJ'.2

/-- The second of two streams that share a PID takes the table entry, and the first is no longer
reachable, although both are registered. -/
theorem not_reachable_shared_pid :
    ¬ Lts.Throughout step (fun r => r.Reachable ∧ r.NoneStale) start
      [Call.addStream 'a' 0x2011, Call.addStream 'b' 0x6011] := by
  rintro ⟨-, h⟩
  obtain ⟨hfirst, hsecond⟩ := h _ rfl
  have hapart := (perform_reachable_iff hfirst.1 (.addStream 'b' 0x6011)).mp (hsecond _ rfl).1
  revert hapart
  decide +kernel

end Registry

end Player2.Demultiplexor
