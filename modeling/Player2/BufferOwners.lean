import Player2.BufferReferences

/-! # Owners

A record has four slots for the identifiers of the owners that hold references on it, and
`CountBuffersReferencedBy` looks for an identifier in the slots of all records of a pool.  What it should count
is in the `Ledger`, which keeps, for each record, under which identifiers the references on it were taken that
have not been dropped.

Slots and ledger agree as long as every reference is dropped under the identifier it was taken under and finds a
slot when it is taken (`Accountable`): a release does not clear the slots, and the constructor leaves zeros in
them. -/

namespace Player2.System

open Function Lts

/-! ### The source -/

/-- `CountBuffersReferencedBy`; the listed records of a pool are its `ListOfBuffers`. -/
def countBuffersReferencedBy (s : System) (p ownerIdentifier : ℕ) : ℕ :=
  (List.range s.bufferCount).countP fun b =>
    (s.buffers b).listed ∧ (s.buffers b).pool = p ∧ ownerIdentifier ∈ (s.buffers b).ownerIdentifier

/-! ### The references and their owners -/

/-- The first `old` of a list gives way to `new`. -/
def replaceOwner (old new : ℕ) (l : List ℕ) : List ℕ := (replaceFirst (· == old) new l).getD l

/-- For each record, the identifiers under which the references on it were taken that have not been dropped, and
whether it has ever been handed out. -/
structure Ledger where
  references : ℕ → List ℕ
  handedOut : ℕ → Bool

namespace Ledger

def start : Ledger := ⟨fun _ => [], fun _ => false⟩

def set (g : Ledger) (b : ℕ) (owners : List ℕ) : Ledger :=
  ⟨update g.references b owners, update g.handedOut b true⟩

/-- A call, put on record.  Without a reference that was taken under the identifier, the last one is dropped;
without a new owner, `TransferOwnership` is about the reference that the first slot stands for. -/
def record (g : Ledger) (s : System) : Call → Ledger
  | .getBuffer p owner size nonBlocking lowerBound env =>
    match s.getBuffer p owner size nonBlocking lowerBound env with
    | some (_, some b, _) => g.set b [owner]
    | _ => g
  | .incrementReferenceCount b owner => g.set b (g.references b ++ [owner])
  | .decrementReferenceCount b owner => g.set b
      (if owner ∈ g.references b then (g.references b).erase owner else (g.references b).dropLast)
  | .transferOwnership b owner0 owner1 => g.set b
      (if owner1 ≠ notSpecified then replaceOwner owner0 owner1 (g.references b)
        else replaceOwner ((s.buffers b).ownerIdentifier.headD notSpecified) owner0 (g.references b))
  | _ => g

end Ledger

/-- One step of the system, put on record. -/
def ledgerStep (t : System × Ledger) (c : Call) : Option (System × Ledger) :=
  (t.1.step c).map fun s => (s, t.2.record t.1 c)

/-- The calls that the accounting is about. -/
def OwnerCall : Call → Prop
  | .createPool .. | .getBuffer .. | .incrementReferenceCount .. | .decrementReferenceCount ..
  | .transferOwnership .. | .resume => True
  | _ => False

/-- **The number of buffers that an owner references**: the records with a reference that was taken under the
identifier, none of which is in the free ring. -/
def OwnersCounted (t : System × Ledger) (p id : ℕ) : Prop :=
  t.1.countBuffersReferencedBy p id = ((List.range t.1.bufferCount).countP fun b =>
      (t.1.buffers b).listed ∧ (t.1.buffers b).pool = p ∧ (t.1.buffers b).referenceCount ≠ 0 ∧
        id ∈ t.2.references b) ∧
    ∀ b ∈ (t.1.pools p).freeBuffer, id ∉ (t.1.buffers b).ownerIdentifier

/-- **The condition on a call**: a reference that is taken under an identifier finds a slot, one that is dropped
was taken under the identifier, and where a slot that stands for no owner is given one, there is a reference
without an owner. -/
def Accountable (t : System × Ledger) : Call → Prop
  | .incrementReferenceCount b owner =>
    owner = notSpecified ∨ notSpecified ∈ (t.1.buffers b).ownerIdentifier
  | .decrementReferenceCount b owner => owner ∈ t.2.references b
  | .transferOwnership b owner0 owner1 =>
    if owner1 ≠ notSpecified then owner0 = notSpecified →
      (notSpecified ∈ (t.1.buffers b).ownerIdentifier ↔ notSpecified ∈ t.2.references b)
    else (t.1.buffers b).ownerIdentifier.headD notSpecified = notSpecified →
      owner0 = notSpecified ∨ notSpecified ∈ t.2.references b
  | c => OwnerCall c

instance : (c : Call) → Decidable (OwnerCall c)
  | .createPool .. | .getBuffer .. | .incrementReferenceCount .. | .decrementReferenceCount ..
  | .transferOwnership .. | .resume => isTrue trivial
  | .setUsedDataSize .. | .shrinkBuffer .. | .extendBuffer .. | .partitionBuffer ..
  | .registerDataReference .. | .attachBuffer .. | .detachBuffer .. => isFalse not_false

instance (t : System × Ledger) : (c : Call) → Decidable (Accountable t c)
  | .incrementReferenceCount .. => inferInstanceAs (Decidable (_ ∨ _))
  | .decrementReferenceCount .. => inferInstanceAs (Decidable (_ ∈ _))
  | .transferOwnership .. => by unfold Accountable; infer_instance
  | .createPool .. | .getBuffer .. | .resume => isTrue trivial
  | .setUsedDataSize .. | .shrinkBuffer .. | .extendBuffer .. | .partitionBuffer ..
  | .registerDataReference .. | .attachBuffer .. | .detachBuffer .. => isFalse not_false

/-! ### Replacing an owner -/

theorem replaceOwner_cons (old new b : ℕ) (l : List ℕ) :
    replaceOwner old new (b :: l) = if b = old then new :: l else b :: replaceOwner old new l := by
  by_cases h : b = old
  · simp [replaceOwner, replaceFirst, h]
  · cases hr : replaceFirst (· == old) new l with
    | none => simp [replaceOwner, replaceFirst, h, hr]
    | some l' => simp [replaceOwner, replaceFirst, h, hr]

theorem length_replaceOwner (old new : ℕ) (l : List ℕ) : (replaceOwner old new l).length = l.length := by
  induction l with
  | nil => rfl
  | cons b l ih =>
    rw [replaceOwner_cons]
    split
    · rfl
    · rw [List.length_cons, List.length_cons, ih]

theorem count_replaceOwner (old new id : ℕ) (l : List ℕ) :
    (replaceOwner old new l).count id + (if old ∈ l ∧ old = id then 1 else 0) =
      l.count id + if old ∈ l ∧ new = id then 1 else 0 := by
  induction l with
  | nil => rfl
  | cons b l ih =>
    rw [replaceOwner_cons]
    by_cases h : b = old
    · simp only [h, if_true, List.mem_cons_self, true_and, List.count_cons, beq_iff_eq]
      omega
    · have hmem : old ∈ b :: l ↔ old ∈ l := by simp [Ne.symm h]
      simp only [if_neg h, hmem, List.count_cons, beq_iff_eq]
      omega

/-! ### The slots of a record -/

/-- The slots of a record and the references on it agree; a record that has not been handed out has zeros in its
slots. -/
structure Agrees (buf : Buffer) (references : List ℕ) (handedOut : Bool) : Prop where
  length : buf.referenceCount = references.length
  slots : buf.ownerIdentifier.length = maxBufferOwnerIdentifiers
  fresh : handedOut = false → references = []
  owners : ∀ id, id ≠ notSpecified → (id = 0 → handedOut = true) →
    buf.ownerIdentifier.count id = references.count id
  unattached : buf.attachedBuffers = List.replicate maxAttachedBuffers none

section agrees
variable {buf : Buffer} {references : List ℕ} {handedOut : Bool} (h : Agrees buf references handedOut)
include h

theorem Agrees.handedOut_eq (hne : buf.referenceCount ≠ 0) : handedOut = true := by
  cases hout : handedOut with
  | false =>
    rw [h.length, h.fresh hout] at hne
    exact absurd rfl hne
  | true => rfl

variable {id owner : ℕ}

theorem Agrees.count_eq (hne : buf.referenceCount ≠ 0) (hid : id ≠ notSpecified) :
    buf.ownerIdentifier.count id = references.count id :=
  h.owners id hid fun _ => h.handedOut_eq hne

theorem Agrees.mem_iff (hne : buf.referenceCount ≠ 0) (hid : id ≠ notSpecified) :
    id ∈ buf.ownerIdentifier ↔ id ∈ references := by
  rw [← List.count_pos_iff, ← List.count_pos_iff, h.count_eq hne hid]

theorem Agrees.replace (hne : buf.referenceCount ≠ 0) {old new : ℕ}
    (hold : old = notSpecified → new = notSpecified ∨
      (notSpecified ∈ buf.ownerIdentifier ↔ notSpecified ∈ references)) :
    Agrees { buf with ownerIdentifier := replaceOwner old new buf.ownerIdentifier }
      (replaceOwner old new references) true := by
  refine ⟨h.length.trans (length_replaceOwner ..).symm, (length_replaceOwner ..).trans h.slots, nofun, ?_,
    h.unattached⟩
  intro id hid _
  have hslots := count_replaceOwner old new id buf.ownerIdentifier
  have hreferences := count_replaceOwner old new id references
  rw [h.count_eq hne hid] at hslots
  change (replaceOwner old new buf.ownerIdentifier).count id = _
  by_cases hnone : old = notSpecified ∧ new = notSpecified
  · simp only [hnone.1, hnone.2, Ne.symm hid, and_false, if_false] at hslots hreferences ⊢
    omega
  · have hmem : old ∈ buf.ownerIdentifier ↔ old ∈ references := by
      by_cases hspec : old = notSpecified
      · rw [hspec]
        exact (hold hspec).resolve_left fun hnew => hnone ⟨hspec, hnew⟩
      · exact h.mem_iff hne hspec
    simp only [hmem] at hslots
    omega

theorem Agrees.increment (hne : buf.referenceCount ≠ 0)
    (hcount : u32 (buf.referenceCount + 1) = buf.referenceCount + 1)
    (hroom : owner = notSpecified ∨ notSpecified ∈ buf.ownerIdentifier) :
    Agrees { buf with
      referenceCount := u32 (buf.referenceCount + 1)
      ownerIdentifier := if owner ≠ notSpecified then replaceOwner notSpecified owner buf.ownerIdentifier
        else buf.ownerIdentifier } (references ++ [owner]) true := by
  refine ⟨by simpa [h.length] using hcount, ?_, nofun, ?_, h.unattached⟩
  · split
    · exact (length_replaceOwner ..).trans h.slots
    · exact h.slots
  · intro id hid _
    rw [List.count_append, ← h.count_eq hne hid]
    by_cases hspec : owner = notSpecified
    · rw [if_neg (not_not.mpr hspec), List.count_singleton, hspec]
      simp [Ne.symm hid]
    · have hslots := count_replaceOwner notSpecified owner id buf.ownerIdentifier
      rw [if_pos hspec, List.count_singleton]
      simp only [hroom.resolve_left hspec, true_and, Ne.symm hid, if_false] at hslots
      simpa using hslots

theorem Agrees.decrement (hne : buf.referenceCount ≠ 0) (howner : owner ∈ references) :
    Agrees { buf with
      referenceCount := buf.referenceCount - 1
      ownerIdentifier := if owner ≠ notSpecified then replaceOwner owner notSpecified buf.ownerIdentifier
        else buf.ownerIdentifier } (references.erase owner) true := by
  refine ⟨by simp [h.length, List.length_erase_of_mem howner], ?_, nofun, ?_, h.unattached⟩
  · split
    · exact (length_replaceOwner ..).trans h.slots
    · exact h.slots
  · intro id hid _
    rw [List.count_erase, ← h.count_eq hne hid]
    by_cases hspec : owner = notSpecified
    · rw [if_neg (not_not.mpr hspec), hspec]
      simp [Ne.symm hid]
    · have hslots := count_replaceOwner owner notSpecified id buf.ownerIdentifier
      rw [if_pos hspec]
      simp only [(h.mem_iff hne hspec).mpr howner, true_and, Ne.symm hid, if_false] at hslots
      simp only [beq_iff_eq]
      omega

end agrees

/-! ### One step -/

/-- The slots of every record agree with the ledger. -/
structure Kept (t : System × Ledger) : Prop where
  counted : t.1.Counted
  agrees : ∀ b, Agrees (t.1.buffers b) (t.2.references b) (t.2.handedOut b)
  beyond : ∀ b, t.1.bufferCount ≤ b → t.2.handedOut b = false

variable {s s' : System} {g : Ledger}

theorem Kept.same (h : Kept (s, g)) (hs' : s'.Counted)
    (hcount : s'.bufferCount = s.bufferCount)
    (hbuffers : ∀ b, (s'.buffers b).referenceCount = (s.buffers b).referenceCount ∧
      (s'.buffers b).ownerIdentifier = (s.buffers b).ownerIdentifier ∧
      (s'.buffers b).attachedBuffers = (s.buffers b).attachedBuffers) : Kept (s', g) := by
  refine ⟨hs', ?_, fun b hb => h.beyond b (hcount ▸ hb)⟩
  intro b
  obtain ⟨hreference, howner, hattached⟩ := hbuffers b
  have hagrees := h.agrees b
  exact ⟨hreference.trans hagrees.length, (congrArg _ howner).trans hagrees.slots, hagrees.fresh,
    fun id hid hzero => howner ▸ hagrees.owners id hid hzero, hattached.trans hagrees.unattached⟩

variable {b owner : ℕ}

theorem Kept.set (h : Kept (s, g)) (hs' : s'.Counted) {owners : List ℕ}
    (hb : b < s'.bufferCount) (hcount : s.bufferCount ≤ s'.bufferCount)
    (hothers : ∀ c, c ≠ b → s'.buffers c = s.buffers c) (hagrees : Agrees (s'.buffers b) owners true) :
    Kept (s', g.set b owners) := by
  refine ⟨hs', ?_, ?_⟩
  · intro c
    by_cases hc : c = b
    · subst hc
      simpa [Ledger.set] using hagrees
    · simpa [Ledger.set, hc, hothers c hc] using h.agrees c
  · intro c hc
    have hne : c ≠ b := by
      rintro rfl
      exact absurd hb (Nat.not_lt.mpr hc)
    simpa [Ledger.set, hne] using h.beyond c (hcount.trans hc)

theorem Kept.lt (h : Kept (s, g)) (hne : (s.buffers b).referenceCount ≠ 0) :
    b < s.bufferCount := (h.counted.listed b (h.counted.listed_of_ne_zero hne)).1

theorem Kept.createPool (h : Kept (s, g)) (q : PoolParameters) (systemMemory : Bool)
    (hs' : (s.createPool q systemMemory).2.Counted) : Kept ((s.createPool q systemMemory).2, g) := by
  unfold System.createPool at hs' ⊢
  cases hitem : q.itemSize systemMemory with
  | error e => exact h
  | ok itemSize =>
    rw [hitem] at hs'
    refine ⟨hs', ?_, fun b hb => h.beyond b ((Nat.le_add_right _ _).trans hb)⟩
    intro b
    dsimp only
    split
    · rename_i hb
      have hout := h.beyond b hb.1
      have hnone := (h.agrees b).fresh hout
      rw [hout, hnone]
      refine ⟨rfl, rfl, fun _ => rfl, ?_, rfl⟩
      intro id _ hzero
      have hne : id ≠ 0 := fun h0 => Bool.noConfusion (hzero h0)
      simp [Buffer.create, List.count_replicate, Ne.symm hne]
    · exact h.agrees b

variable {st : BufferStatus}

theorem Kept.getBuffer (h : Kept (s, g)) (hs' : s'.Counted) {p owner n : ℕ}
    {nb lb : Bool} {env : Environment} {r : Option ℕ} (hp : p < s.poolCount)
    (hget : s.getBuffer p owner n nb lb env = some (st, r, s')) :
    Kept (s', g.record s (.getBuffer p owner n nb lb env)) := by
  simp only [Ledger.record, hget]
  obtain ⟨-, rfl, rfl⟩ | ⟨-, b, t, u, rfl, htake, hmemory, rfl⟩ := getBuffer_some hget
  · exact h
  have htaken : b < t.bufferCount ∧ s.bufferCount ≤ t.bufferCount ∧ ∀ c, c ≠ b → t.buffers c = s.buffers c := by
    obtain ⟨-, rfl, rfl⟩ | ⟨-, rest, hring, rfl⟩ := takeRecord_some htake
    · exact ⟨Nat.lt_succ_self _, Nat.le_succ _, fun c hc => update_of_ne hc ..⟩
    · have hlisted := (h.counted.ring p hp b (by rw [hring]; exact List.mem_cons_self)).1
      exact ⟨(h.counted.listed b hlisted).1, le_rfl, fun _ _ => rfl⟩
  have hobtained : u.bufferCount = t.bufferCount ∧ ∀ c, c ≠ b → u.buffers c = t.buffers c := by
    split at hmemory
    · obtain ⟨-, ⟨-, rfl⟩ | ⟨-, block, alloc, rfl, -⟩⟩ := hmemory
      · exact ⟨rfl, fun c hc => by simp [hc]⟩
      · exact ⟨rfl, fun c hc => by simp [hc]⟩
    · rw [hmemory]
      exact ⟨rfl, fun _ _ => rfl⟩
  obtain ⟨hlt, hle, hothers⟩ := htaken
  obtain ⟨hcount, hothers'⟩ := hobtained
  refine Kept.set h hs' ?_ ?_ ?_ (?_ : Agrees _ [owner] true)
  · exact hlt.trans_eq hcount.symm
  · exact hle.trans_eq hcount.symm
  · intro c hc
    simpa [handOut, hc] using (hothers' c hc).trans (hothers c hc)
  · simp only [handOut, modifyPool_buffers, modifyBuffer_buffers_self]
    refine ⟨rfl, rfl, by simp, ?_, rfl⟩
    intro id hid _
    simp [List.count_cons, List.count_replicate, Ne.symm hid]

theorem Kept.incrementReferenceCount (h : Kept (s, g)) (hs' : s'.Counted)
    (ha : Accountable (s, g) (.incrementReferenceCount b owner))
    (hroom : s.RoomToCount (.incrementReferenceCount b owner))
    (hi : s.incrementReferenceCount b owner = some (st, s')) :
    Kept (s', g.record s (.incrementReferenceCount b owner)) := by
  unfold System.incrementReferenceCount at hi
  dsimp only at hi
  split at hi
  · cases hi
  · rename_i hne
    obtain ⟨-, rfl⟩ := Prod.mk.inj (Option.some.inj hi)
    refine h.set hs' (h.lt hne) le_rfl (fun c hc => by simp [hc]) ?_
    simpa [replaceOwner] using (h.agrees b).increment hne (h.counted.increment_eq hne hroom) ha

theorem Kept.decrementReferenceCount (h : Kept (s, g)) (hs' : s'.Counted)
    (ha : Accountable (s, g) (.decrementReferenceCount b owner))
    (hd : s.decrementReferenceCount b owner = some (st, s')) :
    Kept (s', g.record s (.decrementReferenceCount b owner)) := by
  have howner : owner ∈ g.references b := ha
  simp only [Ledger.record, if_pos howner]
  unfold System.decrementReferenceCount at hd
  dsimp only at hd
  split at hd
  · cases hd
  · rename_i hne
    have hagrees := (h.agrees b).decrement hne howner
    split at hd
    · obtain ⟨-, rfl⟩ := Prod.mk.inj (Option.some.inj hd)
      exact h.set hs' (h.lt hne) le_rfl (fun c hc => by simp [hc]) (by simpa [replaceOwner] using hagrees)
    · obtain ⟨-, rfl⟩ := Prod.mk.inj (Option.some.inj hd)
      exact h.set hs' (h.lt hne) le_rfl (fun c hc => by simp [hc]) (by simpa [replaceOwner] using hagrees)

theorem Kept.transferOwnership (h : Kept (s, g)) (hs' : s'.Counted)
    {b owner0 owner1 : ℕ} (ha : Accountable (s, g) (.transferOwnership b owner0 owner1))
    (ht : s.transferOwnership b owner0 owner1 = some (st, s')) :
    Kept (s', g.record s (.transferOwnership b owner0 owner1)) := by
  unfold System.transferOwnership at ht
  split at ht
  · cases ht
  · rename_i hne
    obtain ⟨-, rfl⟩ := Prod.mk.inj (Option.some.inj ht)
    refine h.set hs' (h.lt hne) le_rfl (fun c hc => by simp [hc]) ?_
    have hagrees := h.agrees b
    simp only [modifyBuffer_buffers_self]
    simp only [Accountable] at ha
    by_cases hspec : owner1 ≠ notSpecified
    · rw [if_pos hspec] at ha ⊢
      rw [if_pos hspec]
      exact hagrees.replace hne fun hold => .inr (ha hold)
    · rw [if_neg hspec] at ha ⊢
      rw [if_neg hspec]
      obtain ⟨first, slots, hslots⟩ : ∃ first slots, (s.buffers b).ownerIdentifier = first :: slots :=
        List.exists_cons_of_length_eq_add_one hagrees.slots
      have hset : (s.buffers b).ownerIdentifier.set 0 owner0 =
          replaceOwner first owner0 (s.buffers b).ownerIdentifier := by
        rw [hslots, replaceOwner_cons, if_pos rfl, List.set_cons_zero]
      rw [hset]
      rw [hslots, List.headD_cons] at ha ⊢
      rw [← hslots]
      refine hagrees.replace hne fun hold => (ha hold).imp_right fun hmem => iff_of_true ?_ hmem
      rw [hslots, hold]
      exact List.mem_cons_self

theorem Kept.resume (h : Kept (s, g)) (hs' : s'.Counted)
    (hr : s.resume = some (st, s')) : Kept (s', g) := by
  obtain ⟨f, rest, hf, ⟨-, -, rfl⟩ | ⟨hslot, c, hc, -⟩ | ⟨-, rfl⟩⟩ := resume_some hr
  · exact h.same hs' rfl fun _ => ⟨rfl, rfl, rfl⟩
  · rw [(h.agrees f.buffer).unattached, List.getD_eq_getElem?_getD, List.getElem?_replicate, if_pos hslot] at hc
    cases hc
  · have hlisted : (s.buffers f.buffer).listed = true := by
      by_contra hne
      refine (h.counted.unlisted f.buffer (by simpa using hne)).2 ?_
      simp [stack, hf]
    have hfinishes := finishRelease_finishes (s := { s with releasing := rest }) hlisted
    refine h.same hs' hfinishes.bufferCount fun b => ?_
    by_cases hb : b = f.buffer
    · rw [hb, hfinishes.buffer]
      exact ⟨rfl, rfl, rfl⟩
    · rw [hfinishes.buffers b hb]
      exact ⟨rfl, rfl, rfl⟩

/-- **One step** of a call that the ledger can account for. -/
theorem Kept.step {t t' : System × Ledger} {c : Call} (h : Kept t) (ha : Accountable t c)
    (hroom : t.1.RoomToCount c) (hs : ledgerStep t c = some t') : Kept t' := by
  obtain ⟨s', hstep, rfl⟩ := Option.map_eq_some_iff.mp hs
  have hs' := step_counted h.counted hroom hstep
  obtain ⟨st, ⟨-, hp⟩ | ⟨-, rfl, hr⟩⟩ := step_some hstep
  · cases c with
    | createPool q systemMemory =>
      simp only [perform] at hp
      split at hp
      · obtain rfl := congrArg Prod.snd (Option.some.inj hp)
        exact h.createPool q systemMemory hs'
      · cases hp
    | getBuffer p owner size nonBlocking lowerBound env =>
      simp only [perform] at hp
      split at hp
      · rename_i hlt
        obtain ⟨⟨st', r, u⟩, hget, heq⟩ := Option.map_eq_some_iff.mp hp
        obtain ⟨-, rfl⟩ := Prod.mk.inj heq
        exact h.getBuffer hs' hlt hget
      · cases hp
    | incrementReferenceCount b owner => exact h.incrementReferenceCount hs' ha hroom hp
    | decrementReferenceCount b owner => exact h.decrementReferenceCount hs' ha hp
    | transferOwnership b owner0 owner1 => exact h.transferOwnership hs' ha hp
    | resume => cases hp
    | _ => exact absurd ha id
  · exact h.resume hs' hr

/-! ### Runs -/

theorem start_kept : Kept (start, Ledger.start) := by
  refine ⟨start_counted, fun _ => ⟨rfl, rfl, fun _ => rfl, ?_, rfl⟩, fun _ _ => rfl⟩
  intro id _ hzero
  have hne : id ≠ 0 := fun h0 => Bool.noConfusion (hzero h0)
  simp [start, Buffer.create, Ledger.start, List.count_replicate, Ne.symm hne]

theorem Kept.ownersCounted {t : System × Ledger} (h : Kept t) {p id : ℕ} (hp : p < t.1.poolCount)
    (hid : id ≠ notSpecified) (hzero : id = 0 → ∀ b, (t.1.buffers b).listed = true → (t.1.buffers b).pool = p →
      t.2.handedOut b = true) : OwnersCounted t p id := by
  have hmem (b : ℕ) (hlisted : (t.1.buffers b).listed = true) (hpool : (t.1.buffers b).pool = p) :
      id ∈ (t.1.buffers b).ownerIdentifier ↔ id ∈ t.2.references b := by
    rw [← List.count_pos_iff, ← List.count_pos_iff, (h.agrees b).owners id hid fun h0 => hzero h0 b hlisted hpool]
  constructor
  · refine List.countP_congr fun b _ => ?_
    simp only [decide_eq_true_eq]
    refine and_congr_right fun hlisted => and_congr_right fun hpool => ?_
    rw [hmem b hlisted hpool, iff_and_self]
    intro hreference
    rw [(h.agrees b).length]
    exact Nat.ne_of_gt (List.length_pos_of_mem hreference)
  · intro b hb
    obtain ⟨hlisted, hpool⟩ := h.counted.ring p hp b hb
    rw [hmem b hlisted hpool]
    intro hreference
    have hplace := h.counted.place b hlisted
    have hcount : 0 < (t.1.poolOf b).freeBuffer.count b := by
      rw [poolOf, hpool]
      exact List.count_pos_iff.mpr hb
    have hne : (t.1.buffers b).referenceCount ≠ 0 := by
      rw [(h.agrees b).length]
      exact Nat.ne_of_gt (List.length_pos_of_mem hreference)
    rw [if_neg hne] at hplace
    omega

/-- **Owner accounting.**  In every run whose calls the ledger can account for, and that counts no more than
`2 ^ 32 - 1` references in a pool, `CountBuffersReferencedBy` is the number of buffers that the owner references.  (A record that has never been handed out counts for the identifier
zero.) -/
theorem countBuffersReferencedBy_counts {calls : List Call} {t : System × Ledger}
    (hrun : run ledgerStep (start, Ledger.start) calls = some t)
    (halong : Along ledgerStep Accountable (start, Ledger.start) calls)
    (hroom : Along ledgerStep (fun t => t.1.RoomToCount) (start, Ledger.start) calls) {p id : ℕ} (hp : p < t.1.poolCount)
    (hid : id ≠ notSpecified) (hzero : id = 0 → ∀ b, (t.1.buffers b).listed = true → (t.1.buffers b).pool = p →
      t.2.handedOut b = true) : OwnersCounted t p id :=
  (run_invariant_along (fun _ _ _ h ha hs => h.step ha.1 ha.2 hs) start_kept (along_and.mpr ⟨halong, hroom⟩)
    hrun).ownersCounted hp hid hzero

/-- One of two buffers is handed out, referenced again, passed on to another owner, and the second reference
dropped. -/
theorem countBuffersReferencedBy_counts_twice : ∃ t, run ledgerStep (start, Ledger.start)
    [.createPool ⟨⟨.noAllocation, 0, false, false, 0⟩, 2, 0, none, false, false⟩ true,
      .getBuffer 0 5 0 true false ⟨false, true, true⟩, .incrementReferenceCount 0 7, .transferOwnership 0 5 9,
      .decrementReferenceCount 0 7] = some t ∧
    t.1.countBuffersReferencedBy 0 9 = 1 ∧ OwnersCounted t 0 9 := by
  obtain ⟨calls, hcalls⟩ : ∃ calls : List Call, calls =
    [.createPool ⟨⟨.noAllocation, 0, false, false, 0⟩, 2, 0, none, false, false⟩ true,
      .getBuffer 0 5 0 true false ⟨false, true, true⟩, .incrementReferenceCount 0 7, .transferOwnership 0 5 9,
      .decrementReferenceCount 0 7] := ⟨_, rfl⟩
  have halong : Along ledgerStep Accountable (start, Ledger.start) calls := by rw [hcalls]; decide +kernel
  have hroom : Along ledgerStep (fun t => t.1.RoomToCount) (start, Ledger.start) calls := by
    rw [hcalls]; decide +kernel
  have hend : (run ledgerStep (start, Ledger.start) calls).map (fun t =>
      (t.1.poolCount, t.1.countBuffersReferencedBy 0 9)) = some (1, 1) := by rw [hcalls]; decide +kernel
  obtain ⟨t, ht, hvalue⟩ := Option.map_eq_some_iff.mp hend
  obtain ⟨hcount, hone⟩ := Prod.mk.inj hvalue
  exact ⟨t, hcalls ▸ ht, hone, countBuffersReferencedBy_counts ht halong hroom
    (by rw [hcount]; exact Nat.one_pos) (by decide) nofun⟩

/-- A buffer whose only reference is dropped without the owner goes to the free ring, and is counted. -/
theorem not_countBuffersReferencedBy_counts : ¬ ∀ (calls : List Call) (t : System × Ledger),
    (∀ c ∈ calls, OwnerCall c) → run ledgerStep (start, Ledger.start) calls = some t →
      ∀ p < t.1.poolCount, ∀ id, id ≠ notSpecified → id ≠ 0 → OwnersCounted t p id := by
  intro h
  have hend : (run ledgerStep (start, Ledger.start)
    [.createPool ⟨⟨.noAllocation, 0, false, false, 0⟩, 1, 0, none, false, false⟩ true,
      .getBuffer 0 5 0 true false ⟨false, true, true⟩, .decrementReferenceCount 0 notSpecified,
      .resume, .resume, .resume, .resume, .resume]).map (fun t =>
        (t.1.poolCount, (t.1.pools 0).freeBuffer, (t.1.buffers 0).ownerIdentifier)) =
      some (1, [0], [5, notSpecified, notSpecified, notSpecified]) := by decide +kernel
  obtain ⟨t, ht, hvalue⟩ := Option.map_eq_some_iff.mp hend
  obtain ⟨hcount, hvalue⟩ := Prod.mk.inj hvalue
  obtain ⟨hfree, howners⟩ := Prod.mk.inj hvalue
  obtain ⟨-, hring⟩ := h _ t (by simp [OwnerCall]) ht 0 (by rw [hcount]; exact Nat.one_pos) 5 (by decide) (by decide)
  refine hring 0 ?_ ?_
  · rw [hfree]
    exact List.mem_singleton_self 0
  · rw [howners]
    exact List.mem_cons_self

end Player2.System
