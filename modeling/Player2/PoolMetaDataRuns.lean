import Player2.PoolMetaData
import Player2.Run

/-! # Meta data over runs

Meta data of a pool is detached as a unit when, in every list, the record that belongs to the pool
comes before all others of the type (`FirstOfType`): a record that was attached to the buffer itself
later, also by the duplication in `PartitionBuffer`, hides it.  A call of `AttachMetaData` that fails
leaves the lists alone unless it fails after it has threaded a record: for a buffer when there is no
memory for the data, for a pool when a record cannot be created but the first one can.

While the calls meet these conditions, every record that belongs to the pool has its block there
(`Backed`).  `keeps_iff_meets` is about a step and `keeps_along_iff` about a run. -/

namespace Player2.PoolMetaData

open BufferDataTypes (Descriptor Manager Status metaDataTypeBase bufferDataTypeBase)

/-! ### The specification -/

/-- The blocks that were attached to the buffer itself. -/
def own (blocks : List Block) : List Block := blocks.filter fun m => !m.attachedToPool

/-- Behind the first block of the type there is none that belongs to the pool. -/
def FirstOfType (type : UInt32) (blocks : List Block) : Prop :=
  ∀ m ∈ (blocks.filter fun m => m.type == type).tail, m.attachedToPool = false

/-- The data of the block comes from the system. -/
def needsMemory (block : Block) : Bool :=
  block.size != 0 && fromSystem block.descriptor.allocationSource

namespace Pool

/-- The lists of the buffers. -/
def lists (s : Pool) : List (List Block) := s.listOfBuffers.map Buffer.listOfMetaData

/-- No buffer has a block of the type that belongs to the pool any more, and all have the blocks of
their own that they had. -/
structure Detached (s s' : Pool) (type : UInt32) : Prop where
  gone : ∀ buf ∈ s'.listOfBuffers, ∀ m ∈ buf.listOfMetaData,
    m.type = type → m.attachedToPool = false
  survive : s'.lists.map own = s.lists.map own

/-- What is expected of the outcome of a call: meta data of the pool is detached as a unit, and all
lists are as they were when it fails to attach meta data. -/
def Preserves (s : Pool) (l : Label) (outcome : Pool × Status) : Prop :=
  match l with
  | .detachFromPool type => Detached s outcome.1 type
  | .attachToPool .. | .attach .. | .duplicate .. =>
    outcome.2 ≠ .noError → outcome.1.lists = s.lists
  | _ => True

/-- A call does what is expected. -/
def Keeps (s : Pool) (l : Label) : Prop :=
  match s.perform l with
  | some outcome => s.Preserves l outcome
  | none => True

/-- There is memory for the data of a request that is all right otherwise. -/
def Affordable (s : Pool) (r : Request) (env : Environment) : Prop :=
  match s.blockFor r env.record with
  | .ok block => needsMemory block = true → env.memory.isSome = true
  | .error _ => True

/-- The condition on a call. -/
def Meets (s : Pool) : Label → Prop
  | .detachFromPool type =>
    s.isAttached type → ∀ buf ∈ s.listOfBuffers, FirstOfType type buf.listOfMetaData
  | .attachToPool r env record =>
    s.isAttached r.type = false → (s.blockForPool r env).isOk = true →
      (∀ buf ∈ s.listOfBuffers, record buf.identity = true) ∨
        ∀ buf ∈ s.listOfBuffers.head?, record buf.identity = false
  | .attach _ r env => s.Affordable r env
  | .duplicate env =>
    match s.partitioning with
    | some ⟨_, datum :: _, memoryBlock⟩ => s.Affordable (requestFor datum memoryBlock) env
    | _ => True
  | _ => True

/-- Every block of a buffer that belongs to the pool is of a type that is attached to the pool. -/
def Backed (s : Pool) : Prop :=
  ∀ buf ∈ s.listOfBuffers, ∀ m ∈ buf.listOfMetaData, m.attachedToPool = true → s.isAttached m.type = true

instance (type : UInt32) (blocks : List Block) : Decidable (FirstOfType type blocks) :=
  inferInstanceAs (Decidable (∀ _ ∈ _, _))

instance (s s' : Pool) (type : UInt32) : Decidable (Detached s s' type) :=
  decidable_of_iff
    ((∀ buf ∈ s'.listOfBuffers, ∀ m ∈ buf.listOfMetaData, m.type = type → m.attachedToPool = false) ∧
      s'.lists.map own = s.lists.map own)
    ⟨fun h => ⟨h.1, h.2⟩, fun h => ⟨h.gone, h.survive⟩⟩

instance (s : Pool) (l : Label) (outcome : Pool × Status) : Decidable (s.Preserves l outcome) := by
  unfold Preserves
  cases l <;> infer_instance

instance (s : Pool) (l : Label) : Decidable (s.Keeps l) := by
  unfold Keeps
  split <;> infer_instance

instance (s : Pool) (r : Request) (env : Environment) : Decidable (s.Affordable r env) := by
  unfold Affordable
  split <;> infer_instance

instance (s : Pool) (l : Label) : Decidable (s.Meets l) := by
  unfold Meets
  cases l with
  | duplicate env =>
    dsimp only
    split <;> infer_instance
  | _ => infer_instance

end Pool

open Pool

/-! ### Unthreading -/

section Unthread

variable {type : UInt32} {m : Block} {blocks : List Block}

@[simp]
theorem unthread_nil : unthread type [] = [] := rfl

theorem unthread_cons_of_type (h : m.type = type) :
    unthread type (m :: blocks) = if m.attachedToPool then blocks else m :: blocks := by
  simp [unthread, h]

theorem unthread_cons_of_ne (h : m.type ≠ type) :
    unthread type (m :: blocks) = m :: unthread type blocks := by
  unfold unthread
  rw [List.find?_cons_of_neg (by simp [h]), List.eraseP_cons_of_neg (by simp [h])]
  split
  · split <;> rfl
  · rfl

theorem own_unthread (type : UInt32) (blocks : List Block) : own (unthread type blocks) = own blocks := by
  induction blocks with
  | nil => rfl
  | cons m rest ih =>
    by_cases htype : m.type = type
    · rw [unthread_cons_of_type htype]
      by_cases hpool : m.attachedToPool = true
      · simp [own, hpool]
      · simp [hpool]
    · rw [unthread_cons_of_ne htype]
      unfold own at ih ⊢
      rw [List.filter_cons, List.filter_cons, ih]

theorem mem_of_mem_unthread {x : Block} (h : x ∈ unthread type blocks) : x ∈ blocks := by
  unfold unthread at h
  split at h
  · split at h
    · exact List.mem_of_mem_eraseP h
    · exact h
  · exact h

theorem gone_unthread_iff (type : UInt32) (blocks : List Block) :
    (∀ m ∈ unthread type blocks, m.type = type → m.attachedToPool = false) ↔
      FirstOfType type blocks := by
  induction blocks with
  | nil => simp [FirstOfType]
  | cons m rest ih =>
    by_cases htype : m.type = type
    · have hfirst : FirstOfType type (m :: rest) ↔
          ∀ x ∈ rest, x.type = type → x.attachedToPool = false := by
        simp [FirstOfType, htype]
      rw [hfirst, unthread_cons_of_type htype]
      by_cases hpool : m.attachedToPool = true
      · simp [hpool]
      · simp [hpool]
    · have hfirst : FirstOfType type (m :: rest) ↔ FirstOfType type rest := by
        simp [FirstOfType, htype]
      rw [hfirst, unthread_cons_of_ne htype, List.forall_mem_cons, ih]
      exact and_iff_right fun h => absurd h htype

end Unthread

/-! ### Memory -/

theorem exists_allocateMemoryBlock (block : Block) (memoryPool : ℕ) (memory : Option ℕ) :
    ∃ address, (allocateMemoryBlock block memoryPool memory).1 = { block with address := address } := by
  unfold allocateMemoryBlock
  dsimp only
  split
  · exact ⟨0, rfl⟩
  · split
    · split
      · exact ⟨_, rfl⟩
      · exact ⟨0, rfl⟩
    · split
      · exact ⟨_, rfl⟩
      · exact ⟨0, rfl⟩

theorem memoryFor_attachedToPool (block : Block) (r : Request) (memory : Option ℕ) :
    (memoryFor block r memory).1.attachedToPool = block.attachedToPool := by
  unfold memoryFor
  split
  · obtain ⟨address, h⟩ := exists_allocateMemoryBlock block r.memoryBlock memory
    rw [h]
  · rfl

theorem memoryFor_noError_iff (block : Block) (r : Request) (memory : Option ℕ) :
    (memoryFor block r memory).2 = .noError ↔ (needsMemory block = true → memory.isSome = true) := by
  unfold memoryFor
  by_cases hsource : block.descriptor.allocationSource = .noAllocation
  · simp [hsource, needsMemory, fromSystem]
  · rw [if_pos hsource]
    unfold allocateMemoryBlock needsMemory
    by_cases hsize : block.size = 0
    · simp [hsize]
    · by_cases hsystem : fromSystem block.descriptor.allocationSource = true
      · cases memory with
        | none => simp [hsize, hsystem]
        | some address => simp [hsize, hsystem]
      · by_cases hsupplied : block.descriptor.allocationSource = .allocateFromSuppliedBlock
        · simp [hsize, hsupplied, fromSystem]
        · simp [hsize, hsystem, hsupplied]

/-! ### Threading -/

section Thread

variable {s : Pool} {b : ℕ} {block : Block} {r : Request} {env : Environment}

theorem lists_thread_ne (h : s.isInUse b = true) :
    (s.modifyBuffer b (Buffer.thread block)).lists ≠ s.lists := by
  intro hlists
  obtain ⟨buf, hbuf, hb⟩ := List.any_eq_true.mp h
  have hidentity : buf.identity = b := by simpa using (Bool.and_eq_true_iff.mp hb).1
  unfold lists modifyBuffer at hlists
  rw [List.map_map] at hlists
  have hsame := List.map_inj_left.mp hlists buf hbuf
  simp [hidentity, Buffer.thread] at hsame

theorem ok_of_ite {ε α : Type*} {c : Prop} [Decidable c] {a x : α} {e : ε}
    (h : (if c then .ok a else .error e : Except ε α) = .ok x) : a = x := by
  split at h
  · exact Except.ok.inj h
  · cases h

theorem blockFor_attachedToPool {record : Bool} (h : s.blockFor r record = .ok block) :
    block.attachedToPool = false := by
  unfold blockFor at h
  cases hlookup : s.manager.lookup r.type metaDataTypeBase with
  | error status => simp [hlookup, bind, Except.bind] at h
  | ok d =>
    simp only [hlookup, bind, Except.bind, throw, throwThe, MonadExceptOf.throw, pure,
      Except.pure] at h
    split at h
    · cases hcheck : checkMemoryParameters d s.numberOfBuffers false r with
      | error status => simp [hcheck] at h
      | ok itemSize =>
        rw [hcheck] at h
        obtain rfl := ok_of_ite h
        rfl
    · split at h
      · cases h
      · obtain rfl := ok_of_ite h
        rfl

theorem attachMetaDataToBuffer_cases (s : Pool) (b : ℕ) (r : Request) (env : Environment) :
    (∃ status, s.blockFor r env.record = .error status ∧
        s.attachMetaDataToBuffer b r env = (s, status)) ∨
      ∃ block, s.blockFor r env.record = .ok block ∧
        s.attachMetaDataToBuffer b r env =
          (s.modifyBuffer b (Buffer.thread (memoryFor block r env.memory).1),
            (memoryFor block r env.memory).2) := by
  unfold attachMetaDataToBuffer
  cases hblock : s.blockFor r env.record with
  | error status => exact Or.inl ⟨status, rfl, rfl⟩
  | ok block => exact Or.inr ⟨block, rfl, rfl⟩

theorem attachMetaDataToBuffer_keeps_iff (h : s.isInUse b = true) :
    ((s.attachMetaDataToBuffer b r env).2 ≠ .noError →
        (s.attachMetaDataToBuffer b r env).1.lists = s.lists) ↔ s.Affordable r env := by
  rcases attachMetaDataToBuffer_cases s b r env with ⟨status, hblock, hattach⟩ | ⟨block, hblock, hattach⟩
  · rw [hattach]
    refine iff_of_true (fun _ => rfl) ?_
    unfold Affordable
    rw [hblock]
    trivial
  · have hafford : s.Affordable r env ↔ (memoryFor block r env.memory).2 = .noError := by
      rw [memoryFor_noError_iff]
      unfold Affordable
      rw [hblock]
    rw [hattach, hafford]
    constructor
    · intro hkeeps
      by_contra hstatus
      exact lists_thread_ne h (hkeeps hstatus)
    · intro hstatus hne
      exact absurd hstatus hne

end Thread

section SubBlocks

variable (sub : Buffer → Block) (record : ℕ → Bool)

theorem threadSubBlocks_noError_iff (bufs : List Buffer) :
    (threadSubBlocks sub record bufs).2 = .noError ↔ ∀ buf ∈ bufs, record buf.identity = true := by
  induction bufs with
  | nil => simp [threadSubBlocks]
  | cons buf rest ih =>
    by_cases hrecord : record buf.identity = true
    · simp [threadSubBlocks, hrecord, ih]
    · simp [threadSubBlocks, hrecord]

theorem threadSubBlocks_lists_iff (bufs : List Buffer) :
    (threadSubBlocks sub record bufs).1.map Buffer.listOfMetaData = bufs.map Buffer.listOfMetaData ↔
      ∀ buf ∈ bufs.head?, record buf.identity = false := by
  cases bufs with
  | nil => simp [threadSubBlocks]
  | cons buf rest =>
    by_cases hrecord : record buf.identity = true
    · simp [threadSubBlocks, hrecord, Buffer.thread]
    · simp [threadSubBlocks, hrecord]

theorem mem_threadSubBlocks {bufs : List Buffer} {buf : Buffer} {m : Block}
    (hbuf : buf ∈ (threadSubBlocks sub record bufs).1) (hm : m ∈ buf.listOfMetaData) :
    (∃ old ∈ bufs, m ∈ old.listOfMetaData) ∨ ∃ old, m = sub old := by
  induction bufs with
  | nil => simp [threadSubBlocks] at hbuf
  | cons first rest ih =>
    unfold threadSubBlocks at hbuf
    split at hbuf
    · rcases List.mem_cons.mp hbuf with rfl | hrest
      · rcases List.mem_cons.mp hm with rfl | hold
        · exact Or.inr ⟨first, rfl⟩
        · exact Or.inl ⟨first, List.mem_cons_self, hold⟩
      · rcases ih hrest with ⟨old, hold, hmem⟩ | hsub
        · exact Or.inl ⟨old, List.mem_cons_of_mem _ hold, hmem⟩
        · exact Or.inr hsub
    · exact Or.inl ⟨buf, hbuf, hm⟩

end SubBlocks

/-! ### One call -/

section Call

variable {s s' : Pool} {l : Label} {outcome : Pool × Status}

theorem perform_cases :
    s.perform l = some outcome →
    match l with
    | .attachToPool r env record => outcome = s.attachMetaData r env record
    | .detachFromPool type => outcome = s.detachMetaData type
    | .attach b r env => s.isInUse b = true ∧ outcome = s.attachMetaDataToBuffer b r env
    | .detach b type => outcome = s.detachMetaDataFromBuffer b type
    | .getBuffer env => outcome = ((s.getBuffer env).1, (s.getBuffer env).2.1)
    | .releaseBuffer b => outcome = (s.releaseBuffer b, .noError)
    | .partitionBuffer b duplicateMetaData env memoryBlock =>
      outcome = s.partitionBuffer b duplicateMetaData env memoryBlock
    | .duplicate env =>
      ∃ p datum rest, s.partitioning = some p ∧ p.data = datum :: rest ∧
        s.isInUse p.second = true ∧ outcome = s.duplicate p datum rest env := by
  intro h
  cases hp : s.partitioning with
  | none =>
    cases l <;> simp only [perform, hp, Option.ite_none_right_eq_some, Option.some.injEq,
      reduceCtorEq] at h
    case attach => exact ⟨h.1, h.2.symm⟩
    case detach => exact h.2.symm
    case releaseBuffer => exact h.2.symm
    case partitionBuffer => exact h.2.symm
    all_goals exact h.symm
  | some p =>
    cases l with
    | duplicate env =>
      simp only [perform, hp] at h
      split at h
      · rename_i datum rest hdata
        obtain ⟨huse, hdone⟩ := Option.ite_none_right_eq_some.mp h
        exact ⟨p, datum, rest, rfl, hdata, huse, (Option.some.inj hdone).symm⟩
      · cases h
    | _ => simp [perform, hp] at h

theorem step_eq_some : s.step l = some s' ↔ ∃ outcome, s.perform l = some outcome ∧ outcome.1 = s' :=
  Option.map_eq_some_iff

theorem duplicate_attaches (s : Pool) (p : Partition) (datum : Block) (rest : List Block)
    (env : Environment) :
    let attached := s.attachMetaDataToBuffer p.second (requestFor datum p.memoryBlock) env
    let t := s.duplicate p datum rest env
    t.2 = attached.2 ∧ t.1.listOfBuffers = attached.1.listOfBuffers ∧
      t.1.listOfMetaData = attached.1.listOfMetaData := by
  intro attached t
  by_cases hstatus : attached.2 = .noError
  · have ht : t = _ := if_neg (not_not.mpr hstatus)
    rw [ht, hstatus]
    split
    · exact ⟨rfl, rfl, rfl⟩
    · split
      · exact ⟨rfl, rfl, rfl⟩
      · exact ⟨rfl, rfl, rfl⟩
  · have ht : t = _ := if_pos hstatus
    rw [ht]
    exact ⟨rfl, rfl, rfl⟩

theorem attachMetaData_keeps_iff (s : Pool) (r : Request) (env : Environment) (record : ℕ → Bool) :
    ((s.attachMetaData r env record).2 ≠ .noError → (s.attachMetaData r env record).1.lists = s.lists) ↔
      s.Meets (.attachToPool r env record) := by
  unfold attachMetaData Meets
  by_cases hattached : s.isAttached r.type = true
  · simp [hattached]
  · rw [if_neg hattached]
    cases hblock : s.blockForPool r env with
    | error status =>
      refine iff_of_true (fun _ => rfl) ?_
      intro _ hok
      simp [hblock, Except.isOk, Except.toBool] at hok
    | ok found =>
      obtain ⟨block, itemSize⟩ := found
      have hattached' : s.isAttached r.type = false := by simpa using hattached
      have hok : (s.blockForPool r env).isOk = true := by simp [hblock, Except.isOk, Except.toBool]
      have hall := threadSubBlocks_noError_iff (subBlock block itemSize r) record s.listOfBuffers
      have hhead := threadSubBlocks_lists_iff (subBlock block itemSize r) record s.listOfBuffers
      unfold lists
      dsimp only
      rw [hhead, ← hall, ne_eq, ← or_iff_not_imp_left]
      constructor
      · exact fun h _ _ => h
      · exact fun h => h hattached' hok

theorem detached_iff (hb : s.Backed) (type : UInt32) :
    Detached s (s.detachMetaData type).1 type ↔ s.Meets (.detachFromPool type) := by
  have hmeets : s.Meets (.detachFromPool type) ↔
      (s.isAttached type = true → ∀ buf ∈ s.listOfBuffers, FirstOfType type buf.listOfMetaData) := Iff.rfl
  rw [hmeets]
  unfold detachMetaData
  by_cases hattached : s.isAttached type = true
  · rw [if_pos hattached]
    have hgone : (∀ buf ∈ s.listOfBuffers, ∀ m ∈ unthread type buf.listOfMetaData,
          m.type = type → m.attachedToPool = false) ↔
        ∀ buf ∈ s.listOfBuffers, FirstOfType type buf.listOfMetaData :=
      forall₂_congr fun buf _ => gone_unthread_iff type buf.listOfMetaData
    rw [← hgone]
    constructor
    · intro h _ buf hbuf
      exact h.gone _ (List.mem_map_of_mem hbuf)
    · intro h
      constructor
      · intro buf' hbuf'
        obtain ⟨buf, hbuf, rfl⟩ := List.mem_map.mp hbuf'
        exact h hattached buf hbuf
      · simp [lists, Function.comp_def, own_unthread]
  · rw [if_neg hattached]
    refine iff_of_true ⟨?_, rfl⟩ fun h => absurd h hattached
    intro buf hbuf m hm htype
    by_contra hpool
    exact hattached (htype ▸ hb buf hbuf m hm (by simpa using hpool))

theorem keeps_iff_meets (hb : s.Backed) (h : s.step l = some s') : s.Keeps l ↔ s.Meets l := by
  obtain ⟨outcome, hperform, rfl⟩ := step_eq_some.mp h
  have hcase := perform_cases hperform
  have hkeeps : s.Keeps l ↔ s.Preserves l outcome := by
    unfold Keeps
    rw [hperform]
  rw [hkeeps]
  cases l with
  | attachToPool r env record =>
    rw [hcase]
    exact attachMetaData_keeps_iff s r env record
  | detachFromPool type =>
    rw [hcase]
    exact detached_iff hb type
  | attach b r env =>
    obtain ⟨huse, hattach⟩ := hcase
    rw [hattach]
    exact attachMetaDataToBuffer_keeps_iff huse
  | duplicate env =>
    obtain ⟨p, datum, rest, hp, hdata, huse, hround⟩ := hcase
    obtain ⟨hstatus, hbuffers, -⟩ := duplicate_attaches s p datum rest env
    have hmeets : s.Meets (.duplicate env) ↔ s.Affordable (requestFor datum p.memoryBlock) env := by
      obtain ⟨second, data, memoryBlock⟩ := p
      obtain rfl : data = datum :: rest := hdata
      unfold Meets
      rw [hp]
    have hlists := @attachMetaDataToBuffer_keeps_iff s p.second (requestFor datum p.memoryBlock) env huse
    rw [hmeets, ← hlists]
    unfold Preserves lists
    rw [hround, hstatus, hbuffers]
  | _ => exact Iff.rfl

end Call

/-! ### Backing -/

/-- The first pool has the same meta data of its own as the second, and no block of the pool in a list
that the second one does not have. -/
structure Within (t s : Pool) : Prop where
  pool : t.listOfMetaData = s.listOfMetaData
  blocks : ∀ buf ∈ t.listOfBuffers, ∀ m ∈ buf.listOfMetaData, m.attachedToPool = true →
    ∃ old ∈ s.listOfBuffers, m ∈ old.listOfMetaData

theorem Within.refl (s : Pool) : Within s s := ⟨rfl, fun buf hbuf _ hm _ => ⟨buf, hbuf, hm⟩⟩

theorem Within.trans {u t s : Pool} (h : Within u t) (h' : Within t s) : Within u s where
  pool := h.pool.trans h'.pool
  blocks buf hbuf m hm hpool := by
    obtain ⟨old, hold, hmem⟩ := h.blocks buf hbuf m hm hpool
    exact h'.blocks old hold m hmem hpool

theorem Within.backed {t s : Pool} (h : Within t s) (hb : s.Backed) : t.Backed := by
  intro buf hbuf m hm hpool
  obtain ⟨old, hold, hmem⟩ := h.blocks buf hbuf m hm hpool
  unfold isAttached
  rw [h.pool]
  exact hb old hold m hmem hpool

theorem within_modifyBuffer (s : Pool) (b : ℕ) {f : Buffer → Buffer}
    (hf : ∀ buf, ∀ m ∈ (f buf).listOfMetaData, m.attachedToPool = true → m ∈ buf.listOfMetaData) :
    Within (s.modifyBuffer b f) s where
  pool := rfl
  blocks buf hbuf m hm hpool := by
    obtain ⟨old, hold, rfl⟩ := List.mem_map.mp hbuf
    refine ⟨old, hold, ?_⟩
    split at hm
    · exact hf old m hm hpool
    · exact hm

theorem within_attachMetaDataToBuffer (s : Pool) (b : ℕ) (r : Request) (env : Environment) :
    Within (s.attachMetaDataToBuffer b r env).1 s := by
  rcases attachMetaDataToBuffer_cases s b r env with ⟨status, -, hattach⟩ | ⟨block, hblock, hattach⟩
  · rw [hattach]
    exact Within.refl s
  · rw [hattach]
    apply within_modifyBuffer
    intro buf m hm hpool
    rcases List.mem_cons.mp hm with rfl | hold
    · rw [memoryFor_attachedToPool, blockFor_attachedToPool hblock] at hpool
      cases hpool
    · exact hold

theorem within_detachMetaDataFromBuffer (s : Pool) (b : ℕ) (type : UInt32) :
    Within (s.detachMetaDataFromBuffer b type).1 s := by
  unfold detachMetaDataFromBuffer
  split
  · apply within_modifyBuffer
    intro buf m hm _
    exact List.mem_of_mem_eraseP hm
  · exact Within.refl s

theorem within_getBuffer (s : Pool) (env : BufferEnvironment) : Within (s.getBuffer env).1 s := by
  have htake : ∀ t b, s.takeBuffer env.record = .ok (t, b) → Within t s := by
    intro t b h
    unfold takeBuffer at h
    split at h
    · obtain ⟨rfl, -⟩ := Prod.mk.inj (ok_of_ite h)
      refine ⟨rfl, ?_⟩
      intro buf hbuf m hm _
      rcases List.mem_cons.mp hbuf with rfl | hold
      · cases hm
      · exact ⟨buf, hold, hm⟩
    · split at h
      · obtain ⟨rfl, -⟩ := Prod.mk.inj (Except.ok.inj h)
        exact ⟨rfl, (Within.refl s).blocks⟩
      · cases h
  unfold getBuffer
  split
  · exact Within.refl s
  · split
    · exact Within.refl s
    · rename_i t b h
      split
      · refine (within_modifyBuffer t b ?_).trans (htake t b h)
        exact fun buf m hm _ => hm
      · exact htake t b h

theorem within_releaseBuffer (s : Pool) (b : ℕ) : Within (s.releaseBuffer b) s := by
  have hown : Within (s.modifyBuffer b fun buf =>
      { buf with
        inUse := false
        listOfMetaData := buf.listOfMetaData.filter (·.attachedToPool) }) s :=
    within_modifyBuffer s b fun buf m hm _ => (List.mem_filter.mp hm).1
  unfold releaseBuffer
  dsimp only
  split
  · refine ⟨hown.pool, ?_⟩
    intro buf hbuf
    exact hown.blocks buf (List.mem_filter.mp hbuf).1
  · exact ⟨hown.pool, hown.blocks⟩

theorem within_partitionBuffer (s : Pool) (b : ℕ) (duplicateMetaData : Bool) (env : BufferEnvironment)
    (memoryBlock : ℕ) : Within (s.partitionBuffer b duplicateMetaData env memoryBlock).1 s := by
  have hget := within_getBuffer s env
  unfold partitionBuffer
  split
  · exact Within.refl s
  · split
    · rename_i hresult
      rw [hresult] at hget
      exact hget
    · rename_i hresult
      rw [hresult] at hget
      exact ⟨hget.pool, hget.blocks⟩

theorem Pool.Backed.attachMetaData {s : Pool} (hb : s.Backed) (r : Request) (env : Environment)
    (record : ℕ → Bool) : (s.attachMetaData r env record).1.Backed := by
  unfold Pool.attachMetaData
  split
  · exact hb
  · split
    · exact hb
    · intro buf hbuf m hm hpool
      unfold isAttached
      rw [List.any_cons, Bool.or_eq_true]
      rcases mem_threadSubBlocks _ _ hbuf hm with ⟨old, hold, hmem⟩ | ⟨old, rfl⟩
      · exact Or.inr (hb old hold m hmem hpool)
      · exact Or.inl (beq_self_eq_true _)

theorem Pool.Backed.detachMetaData {s : Pool} (hb : s.Backed) {type : UInt32}
    (hdetached : Detached s (s.detachMetaData type).1 type) : (s.detachMetaData type).1.Backed := by
  intro buf hbuf m hm hpool
  have hne : m.type ≠ type := by
    intro htype
    rw [hdetached.gone buf hbuf m hm htype] at hpool
    cases hpool
  unfold Pool.detachMetaData at hbuf ⊢
  split
  · rename_i hattached
    rw [if_pos hattached] at hbuf
    obtain ⟨old, hold, rfl⟩ := List.mem_map.mp hbuf
    obtain ⟨block, hblock, htype⟩ := List.any_eq_true.mp (hb old hold m (mem_of_mem_unthread hm) hpool)
    refine List.any_eq_true.mpr ⟨block, ?_, htype⟩
    refine (List.mem_eraseP_of_neg ?_).mpr hblock
    rw [beq_iff_eq] at htype ⊢
    rwa [htype]
  · rename_i hattached
    rw [if_neg hattached] at hbuf
    exact hb buf hbuf m hm hpool

theorem Pool.Backed.step {s s' : Pool} {l : Label} (hb : s.Backed) (hmeets : s.Meets l)
    (h : s.step l = some s') : s'.Backed := by
  obtain ⟨outcome, hperform, rfl⟩ := step_eq_some.mp h
  have hcase := perform_cases hperform
  cases l with
  | attachToPool r env record =>
    rw [hcase]
    exact hb.attachMetaData r env record
  | detachFromPool type =>
    rw [hcase]
    exact hb.detachMetaData ((detached_iff hb type).mpr hmeets)
  | attach b r env =>
    rw [hcase.2]
    exact (within_attachMetaDataToBuffer s b r env).backed hb
  | detach b type =>
    rw [hcase]
    exact (within_detachMetaDataFromBuffer s b type).backed hb
  | getBuffer env =>
    rw [hcase]
    exact (within_getBuffer s env).backed hb
  | releaseBuffer b =>
    rw [hcase]
    exact (within_releaseBuffer s b).backed hb
  | partitionBuffer b duplicateMetaData env memoryBlock =>
    rw [hcase]
    exact (within_partitionBuffer s b duplicateMetaData env memoryBlock).backed hb
  | duplicate env =>
    obtain ⟨p, datum, rest, -, -, -, hround⟩ := hcase
    obtain ⟨-, hbuffers, hpool⟩ := duplicate_attaches s p datum rest env
    have hattach := within_attachMetaDataToBuffer s p.second (requestFor datum p.memoryBlock) env
    have hwithin : Within (s.duplicate p datum rest env).1 s := by
      refine ⟨hpool.trans hattach.pool, ?_⟩
      rw [hbuffers]
      exact hattach.blocks
    rw [hround]
    exact hwithin.backed hb

theorem backed_create (manager : Manager) (descriptor : BufferDataDescriptor) (numberOfBuffers : ℕ) :
    (Pool.create manager descriptor numberOfBuffers).Backed := by
  intro buf hbuf m hm
  unfold Pool.create at hbuf
  split at hbuf
  · cases hbuf
  · obtain ⟨i, -, rfl⟩ := List.mem_map.mp hbuf
    cases hm

/-! ### Runs -/

/-- In a run every call does what is expected exactly when every call meets the condition. -/
theorem keeps_along_iff (manager : Manager) (descriptor : BufferDataDescriptor) (numberOfBuffers : ℕ)
    (ls : List Label) {s' : Pool}
    (hrun : Lts.run step (Pool.create manager descriptor numberOfBuffers) ls = some s') :
    Lts.Along step Keeps (Pool.create manager descriptor numberOfBuffers) ls ↔
      Lts.Along step Meets (Pool.create manager descriptor numberOfBuffers) ls := by
  have hsteps : Lts.Along step (fun s l => (s.step l).isSome = true)
      (Pool.create manager descriptor numberOfBuffers) ls := by
    refine (Lts.run_isSome_iff_along (J := fun _ => True) (fun _ _ _ _ _ => trivial)
      (fun _ _ _ => Iff.rfl) trivial).mp ?_
    rw [hrun]
    rfl
  refine Lts.along_iff_of_keeping (J := Backed) ?_ ?_ (backed_create _ _ _) hsteps
  · intro s l s' hb _ hmeets h
    exact hb.step hmeets h
  · intro s l hb hsome
    obtain ⟨t, ht⟩ := Option.isSome_iff_exists.mp hsome
    exact keeps_iff_meets hb ht

/-- A manager that knows one type of meta data. -/
def oneType : Manager :=
  ((Manager.constructed (Vector.replicate 256 Manager.unnamed)).createBufferDataType
    ⟨none, metaDataTypeBase, .allocateFromOSMemory, 32, 4096, true, false, 16⟩ true).1

/-- A buffer has no memory of its own. -/
def withoutMemory : BufferDataDescriptor := ⟨.noAllocation, 4096, false, false, 0⟩

/-- A request for meta data of the type. -/
def plain : Request := ⟨metaDataTypeBase, 16, 0, none, false⟩

/-- A buffer is in use, and meta data is attached to the pool. -/
def attached : List Label :=
  [.getBuffer ⟨true, true, true⟩, .attachToPool plain ⟨true, some 100⟩ fun _ => true]

/-- Meta data of the same type is attached to the buffer, and detached in time. -/
def inTime : List Label :=
  attached ++ [.attach 0 plain ⟨true, some 200⟩, .detach 0 metaDataTypeBase, .detachFromPool metaDataTypeBase]

/-- The buffer is partitioned, and what is attached to the pool is duplicated. -/
def duplicated : List Label :=
  attached ++ [.partitionBuffer 0 true ⟨true, true, true⟩ 0, .duplicate ⟨true, some 200⟩,
    .detachFromPool metaDataTypeBase]

/-- `keeps_along_iff` for meta data that is detached in time. -/
theorem keeps_along_inTime : Lts.Along step Keeps (Pool.create oneType withoutMemory 2) inTime := by
  have hsome : (Lts.run step (Pool.create oneType withoutMemory 2) inTime).isSome = true := by
    decide +kernel
  obtain ⟨s', hrun⟩ := Option.isSome_iff_exists.mp hsome
  refine (keeps_along_iff oneType withoutMemory 2 inTime hrun).mpr ?_
  decide +kernel

/-- The duplicate hides the record of the pool. -/
theorem not_keeps_along :
    ¬ ∀ (manager : Manager) (descriptor : BufferDataDescriptor) (numberOfBuffers : ℕ)
      (ls : List Label) (s' : Pool),
      Lts.run step (Pool.create manager descriptor numberOfBuffers) ls = some s' →
        Lts.Along step Keeps (Pool.create manager descriptor numberOfBuffers) ls := by
  intro h
  have hsome : (Lts.run step (Pool.create oneType withoutMemory 2) duplicated).isSome = true := by
    decide +kernel
  obtain ⟨s', hrun⟩ := Option.isSome_iff_exists.mp hsome
  exact absurd (h oneType withoutMemory 2 duplicated s' hrun) (by decide +kernel)

/-- A call of `AttachMetaData` that fails for want of memory leaves its record on the list. -/
example :
    ¬ Lts.Along step Keeps (Pool.create oneType withoutMemory 2)
      [.getBuffer ⟨true, true, true⟩, .attach 0 plain ⟨true, none⟩] := by
  decide +kernel

/-- One that cannot create the record for the second buffer leaves the one for the first. -/
example :
    ¬ Lts.Along step Keeps (Pool.create oneType withoutMemory 2)
      [.attachToPool plain ⟨true, some 100⟩ fun b => b != 0] := by
  decide +kernel

end Player2.PoolMetaData
