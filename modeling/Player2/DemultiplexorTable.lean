import Player2.Run

/-! # The table of demultiplexors

`RegisterDemultiplexor` puts a demultiplexor into a table, and `InjectData` looks there for the one that
handles the mux type of a buffer; data that are not multiplexed go to the collator of their stream.

`Routed` says what is asked of a call: a demultiplexor is accepted exactly when there is room and none in
the table handles its mux type, multiplexed data reach the one demultiplexor for them, and the reference on
the buffer is dropped once.  The loop that looks for a duplicate asks the new demultiplexor for its type
each time, not the ones in the table, so it finds one whenever the table is not empty; and `InjectData`
returns early, with the reference, when it finds no descriptor or no data.  `routed_iff` says exactly which
runs of calls meet the claim. -/

namespace Player2.DemultiplexorTable

/-! ### The source -/

def playerMaxDemultiplexors : ℕ := 4

def playerNoError : UInt32 := 1
def playerUnknowMuxType : UInt32 := 10
def demultiplexorBufferOverflow : UInt32 := 3

/-- `PlayerInputMuxType_t`. -/
inductive MuxType
  | unMuxed
  | transportStream
deriving DecidableEq, Repr

variable {μ : Type} [DecidableEq μ]

/-- A demultiplexor, and what its `GetHandledMuxType` returns. -/
structure Demultiplexor (μ : Type) where
  id : ℕ
  handledMuxType : μ
deriving DecidableEq, Repr

/-- Why a demultiplexor is not registered. -/
inductive Refusal
  | tooManyDemultiplexors
  | duplicatesPreviouslyRegistered
deriving DecidableEq, Repr

/-- `RegisterDemultiplexor`.  In the loop over the table it is the new demultiplexor that is asked for the
type previously handled. -/
def registerDemultiplexor (demultiplexors : List (Demultiplexor μ)) (d : Demultiplexor μ) :
    Except Refusal (List (Demultiplexor μ)) :=
  if playerMaxDemultiplexors ≤ demultiplexors.length then .error .tooManyDemultiplexors
  else if demultiplexors.any fun _ => d.handledMuxType = d.handledMuxType then
    .error .duplicatesPreviouslyRegistered
  else .ok (demultiplexors ++ [d])

/-- `PlayerInputDescriptor_t`, as far as the player reads it. -/
structure InputDescriptor (μ : Type) where
  muxType : μ
  demultiplexorContext : ℕ
  unMuxedStream : ℕ
deriving DecidableEq, Repr

/-- A buffer that is injected into a playback, and what the calls on the way return. -/
structure Injection (μ : Type) where
  metaDataReference : Except UInt32 (InputDescriptor μ)
  dataReference : Except UInt32 (List UInt8)
  collatorStatus : UInt32
  demuxStatus : UInt32
  listOfStreams : List ℕ

/-- What `InjectData` does. -/
inductive Effect
  | input (stream : ℕ) (data : List UInt8)
  | demux (id context : ℕ)
  | discardAccumulatedData (stream : ℕ)
  | decrementReferenceCount
deriving DecidableEq, Repr

/-- `InjectData`, with `unMuxed` for `MuxTypeUnMuxed`: the status, and what is done. -/
def injectData (unMuxed : μ) (demultiplexors : List (Demultiplexor μ)) (i : Injection μ) :
    UInt32 × List Effect :=
  match i.metaDataReference with
  | .error e => (e, [])
  | .ok descriptor =>
    if descriptor.muxType = unMuxed then
      match i.dataReference with
      | .error e => (e, [])
      | .ok data =>
        (i.collatorStatus, [.input descriptor.unMuxedStream data, .decrementReferenceCount])
    else
      match demultiplexors.find? (·.handledMuxType = descriptor.muxType) with
      | none => (playerUnknowMuxType, [.decrementReferenceCount])
      | some d =>
        let discarded := if i.demuxStatus = demultiplexorBufferOverflow then i.listOfStreams else []
        (playerNoError, .demux d.id descriptor.demultiplexorContext ::
          discarded.map .discardAccumulatedData ++ [.decrementReferenceCount])

/-! ### Runs -/

/-- A call of the player. -/
inductive Label (μ : Type)
  | registerDemultiplexor (d : Demultiplexor μ)
  | injectData (i : Injection μ)

/-- The table after a call. -/
def after (demultiplexors : List (Demultiplexor μ)) : Label μ → List (Demultiplexor μ)
  | .registerDemultiplexor d =>
    match registerDemultiplexor demultiplexors d with
    | .ok demultiplexors' => demultiplexors'
    | .error _ => demultiplexors
  | .injectData _ => demultiplexors

/-- Every call may be made at any time. -/
def step (demultiplexors : List (Demultiplexor μ)) (a : Label μ) : Option (List (Demultiplexor μ)) :=
  some (after demultiplexors a)

/-- The demultiplexors that a call passes data to. -/
def passedTo (effects : List Effect) : List ℕ :=
  effects.filterMap fun
    | .demux id _ => some id
    | _ => none

/-- What is asked of a call. -/
def Routed (unMuxed : μ) (demultiplexors : List (Demultiplexor μ)) : Label μ → Prop
  | .registerDemultiplexor d =>
    (registerDemultiplexor demultiplexors d).isOk = true ↔
      demultiplexors.length < playerMaxDemultiplexors ∧
        ∀ x ∈ demultiplexors, x.handledMuxType ≠ d.handledMuxType
  | .injectData i =>
    let result := injectData unMuxed demultiplexors i
    result.2.count .decrementReferenceCount = 1 ∧
    ∀ descriptor, i.metaDataReference = .ok descriptor → descriptor.muxType ≠ unMuxed →
      let handling := demultiplexors.filter (·.handledMuxType = descriptor.muxType)
      passedTo result.2 = handling.map (·.id) ∧ (result.1 = playerUnknowMuxType ↔ handling = [])

/-- The condition on a call: nothing is registered yet, or the table is full or has one for that type;
there is a descriptor, and data where they are not multiplexed. -/
def Fine (unMuxed : μ) (demultiplexors : List (Demultiplexor μ)) : Label μ → Prop
  | .registerDemultiplexor d =>
    demultiplexors = [] ∨ playerMaxDemultiplexors ≤ demultiplexors.length ∨
      ∃ x ∈ demultiplexors, x.handledMuxType = d.handledMuxType
  | .injectData i =>
    ∃ descriptor, i.metaDataReference = .ok descriptor ∧
      (descriptor.muxType = unMuxed → ∃ data, i.dataReference = .ok data)

/-- No two demultiplexors in the table handle the same type. -/
def Distinct (demultiplexors : List (Demultiplexor μ)) : Prop :=
  demultiplexors.Pairwise fun x y => x.handledMuxType ≠ y.handledMuxType

variable {unMuxed : μ} {demultiplexors : List (Demultiplexor μ)}

theorem registerDemultiplexor_eq (d : Demultiplexor μ) : registerDemultiplexor demultiplexors d =
    if playerMaxDemultiplexors ≤ demultiplexors.length then .error .tooManyDemultiplexors
    else if demultiplexors = [] then .ok [d]
    else .error .duplicatesPreviouslyRegistered := by
  unfold registerDemultiplexor
  cases demultiplexors with
  | nil => rfl
  | cons x rest => simp

theorem after_distinct (a : Label μ) (h : Distinct demultiplexors) : Distinct (after demultiplexors a) := by
  cases a with
  | injectData i => exact h
  | registerDemultiplexor d =>
    simp only [after, registerDemultiplexor_eq]
    split_ifs
    · exact h
    · exact List.pairwise_singleton _ _
    · exact h

theorem toList_find? (h : Distinct demultiplexors) (t : μ) :
    (demultiplexors.find? (·.handledMuxType = t)).toList = demultiplexors.filter (·.handledMuxType = t) := by
  induction demultiplexors with
  | nil => rfl
  | cons x rest ih =>
    obtain ⟨hx, hrest⟩ := List.pairwise_cons.mp h
    by_cases ht : x.handledMuxType = t
    · rw [List.find?_cons_of_pos (by simpa using ht), List.filter_cons_of_pos (by simpa using ht)]
      have hnone : rest.filter (·.handledMuxType = t) = [] := by
        rw [List.filter_eq_nil_iff]
        intro y hy
        simpa [← ht] using (hx y hy).symm
      rw [hnone]
      rfl
    · rw [List.find?_cons_of_neg (by simpa using ht), List.filter_cons_of_neg (by simpa using ht), ih hrest]

theorem isOk_registerDemultiplexor_iff (d : Demultiplexor μ) :
    (registerDemultiplexor demultiplexors d).isOk = true ↔
      demultiplexors.length < playerMaxDemultiplexors ∧ demultiplexors = [] := by
  rw [registerDemultiplexor_eq]
  split
  next h => exact iff_of_false Bool.false_ne_true fun hc => absurd hc.1 (Nat.not_lt.mpr h)
  next h =>
    split
    next hnil => exact iff_of_true rfl ⟨Nat.not_le.mp h, hnil⟩
    next hne => exact iff_of_false Bool.false_ne_true fun hc => hne hc.2

theorem routed_register_iff (d : Demultiplexor μ) :
    Routed unMuxed demultiplexors (.registerDemultiplexor d) ↔
      Fine unMuxed demultiplexors (.registerDemultiplexor d) := by
  unfold Routed Fine
  simp only [isOk_registerDemultiplexor_iff]
  constructor
  · intro h
    by_cases hlen : demultiplexors.length < playerMaxDemultiplexors
    · by_cases hall : ∀ x ∈ demultiplexors, x.handledMuxType ≠ d.handledMuxType
      · exact .inl (h.mpr ⟨hlen, hall⟩).2
      · push Not at hall
        exact .inr (.inr hall)
    · exact .inr (.inl (Nat.not_lt.mp hlen))
  · rintro (rfl | hfull | ⟨x, hx, hsame⟩)
    · exact iff_of_true ⟨Nat.zero_lt_succ _, rfl⟩ ⟨Nat.zero_lt_succ _, fun x hx => absurd hx List.not_mem_nil⟩
    · exact iff_of_false (fun h => absurd h.1 (Nat.not_lt.mpr hfull)) fun h => absurd h.1 (Nat.not_lt.mpr hfull)
    · refine iff_of_false (fun h => ?_) fun h => h.2 x hx hsame
      rw [h.2] at hx
      cases hx

theorem passedTo_demux (id context : ℕ) (effects : List Effect) :
    passedTo (.demux id context :: effects) = id :: passedTo effects := rfl

theorem passedTo_append (effects effects' : List Effect) :
    passedTo (effects ++ effects') = passedTo effects ++ passedTo effects' := List.filterMap_append

theorem passedTo_discarded (streams : List ℕ) : passedTo (streams.map .discardAccumulatedData) = [] := by
  unfold passedTo
  rw [List.filterMap_map]
  exact List.filterMap_eq_nil_iff.mpr fun _ _ => rfl

theorem count_discarded (streams : List ℕ) :
    (streams.map Effect.discardAccumulatedData).count .decrementReferenceCount = 0 := by
  rw [List.count_eq_zero]
  simp

/-- An injection is routed exactly when the descriptor is there, and the data where it asks for them. -/
theorem routed_inject_iff (h : Distinct demultiplexors) (i : Injection μ) :
    Routed unMuxed demultiplexors (.injectData i) ↔ Fine unMuxed demultiplexors (.injectData i) := by
  simp only [Routed, Fine]
  unfold injectData
  cases hmeta : i.metaDataReference with
  | error e =>
    refine iff_of_false (fun hr => ?_) fun hf => ?_
    · exact absurd hr.1 Nat.zero_ne_one
    · obtain ⟨_, h, -⟩ := hf
      cases h
  | ok descriptor =>
    dsimp only
    by_cases hmux : descriptor.muxType = unMuxed
    · rw [if_pos hmux]
      cases hdata : i.dataReference with
      | error e =>
        refine iff_of_false (fun hr => ?_) fun hf => ?_
        · exact absurd hr.1 Nat.zero_ne_one
        · obtain ⟨d', hd', h⟩ := hf
          obtain rfl := Except.ok.inj hd'
          obtain ⟨_, h⟩ := h hmux
          cases h
      | ok data =>
        refine iff_of_true ⟨rfl, fun d' hd' hne => ?_⟩ ⟨descriptor, rfl, fun _ => ⟨data, rfl⟩⟩
        obtain rfl := Except.ok.inj hd'
        exact absurd hmux hne
    · rw [if_neg hmux]
      refine iff_of_true ?_ ⟨descriptor, rfl, fun h => absurd h hmux⟩
      have hfind := toList_find? h descriptor.muxType
      cases hd : demultiplexors.find? (·.handledMuxType = descriptor.muxType) with
      | none =>
        refine ⟨rfl, fun d' hd' _ => ?_⟩
        obtain rfl := Except.ok.inj hd'
        rw [hd] at hfind
        rw [← hfind]
        exact ⟨rfl, iff_of_true rfl rfl⟩
      | some d =>
        rw [hd] at hfind
        refine ⟨?_, fun d' hd' _ => ?_⟩
        · dsimp only
          rw [List.cons_append, List.count_cons_of_ne Effect.noConfusion, List.count_append, count_discarded]
          rfl
        · obtain rfl := Except.ok.inj hd'
          rw [← hfind]
          refine ⟨?_, iff_of_false (show playerNoError ≠ playerUnknowMuxType by decide) (List.cons_ne_nil _ _)⟩
          dsimp only
          rw [List.cons_append, passedTo_demux, passedTo_append, passedTo_discarded]
          rfl

/-- **Registration and injection.**  In a run of calls every registration is accepted exactly when it should
be, multiplexed data reach the one demultiplexor for them, and each reference is dropped once, exactly when
nothing acceptable is registered behind another demultiplexor and every injection finds its descriptor and
its data. -/
theorem routed_iff (unMuxed : μ) (labels : List (Label μ)) :
    Lts.Along step (Routed unMuxed) [] labels ↔ Lts.Along step (Fine unMuxed) [] labels := by
  have hrun : Lts.run step [] labels = some (labels.foldl after []) := Lts.run_total after [] labels
  have hkeeps : ∀ (t : List (Demultiplexor μ)) (a : Label μ) t', Distinct t → step t a = some t' → Distinct t' := by
    intro t a t' h hs
    obtain rfl := Option.some.inj hs
    exact after_distinct a h
  refine Lts.along_iff_of_run hkeeps ?_ List.Pairwise.nil hrun
  intro t a t' h _
  cases a with
  | registerDemultiplexor d => exact routed_register_iff d
  | injectData i => exact routed_inject_iff h i

/-- A second demultiplexor, of another type, is refused; and a buffer without a descriptor is not released. -/
theorem not_routed :
    ¬ Lts.Along step (Routed MuxType.unMuxed) []
      [.registerDemultiplexor ⟨0, .transportStream⟩, .registerDemultiplexor ⟨1, .unMuxed⟩] ∧
    ¬ Lts.Along step (Routed MuxType.unMuxed) []
      [.injectData ⟨.error 2, .ok [], playerNoError, playerNoError, []⟩] := by
  constructor
  · rintro ⟨-, hsecond⟩
    have h := (hsecond _ rfl).1.mpr ⟨by decide, by decide⟩
    exact absurd h (by decide)
  · rintro ⟨⟨hcount, -⟩, -⟩
    exact Nat.zero_ne_one hcount

end Player2.DemultiplexorTable
