import Player2.RingGeneric

/-! # The ring between threads

Any number of threads call a `RingGeneric_c`.  What a call does under the lock is not one step for a thread
that looks at the ring without it: an `Extract` that is to block compares the indices before it takes the
lock, and an `Insert` moves `NextInsert` first and puts it back if the ring was full.  `perform` has a step for
everything that another thread can tell apart.

`run_serves` says that the calls do and answer what they would one after the other, in the order in which
they have the lock.  `run_signalled` is about the wait: while there is something to extract, and room, an
extractor that waits is woken.  On a full ring it need not be, and then it never is (`waits_forever`). -/

namespace Player2.RingThreads

/-! ### The source -/

/-- `BlockingPeriod`: `RING_NONE_BLOCKING`, some milliseconds, `OS_INFINITE`. -/
inductive Period where
  | nonBlocking
  | limited
  | infinite
deriving DecidableEq, Repr

/-- Where a thread is, with its local variables. -/
inductive Place where
  | outside
  | counted (value oldNextInsert : UInt32)
  | wrapped (value oldNextInsert : UInt32)
  | inserted
  | reset (period : Period)
  | read (period : Period) (nextExtract : UInt32)
  | waiting (period : Period)
  | ready
  | flushing
deriving DecidableEq, Repr

/-- A thread begins a call, goes on with it, or has waited long enough. -/
inductive Act where
  | insert (value : UInt32)
  | extract (period : Period)
  | flush
  | goOn
  | timeOut
deriving DecidableEq, Repr

variable {ι : Type*}

/-- The ring, `Signal` and `Lock`, and the calls that have had the lock, with their answers. -/
structure Shared (ι : Type*) where
  ring : RingGeneric
  signal : Bool
  lock : Option ι
  log : RingGeneric.Log

structure State (ι : Type*) where
  shared : Shared ι
  place : ι → Place

/-- What a thread in the middle of a call does next. -/
def goOn (m : Shared ι) : Place → Option (Shared ι × Place)
  | .outside => none
  | .counted value old => some ({ m with
      ring := { m.ring with
        nextInsert := if m.ring.nextInsert = m.ring.limit then 0 else m.ring.nextInsert } }, .wrapped value old)
  | .wrapped value old =>
    if m.ring.nextInsert = m.ring.nextExtract then
      some ({ m with
        ring := { m.ring with nextInsert := old }
        lock := none
        log := m.log ++ [(.insert value, .tooManyEntries, none)] }, .outside)
    else
      some ({ m with lock := none, log := m.log ++ [(.insert value, .noError, none)] }, .inserted)
  | .inserted => some ({ m with signal := true }, .outside)
  | .reset period => some (m, .read period m.ring.nextExtract)
  | .read period nextExtract =>
    some (m, if nextExtract = m.ring.nextInsert ∧ period ≠ .nonBlocking then .waiting period else .ready)
  | .waiting _ => if m.signal then some (m, .ready) else none
  | .ready =>
    if m.lock = none then
      m.ring.extract.map fun r => ({ m with ring := r.2, log := m.log ++ [(.extract, r.1)] }, .outside)
    else none
  | .flushing => some ({ m with
      ring := { m.ring with nextInsert := 0 }
      lock := none
      log := m.log ++ [(.flush, .noError, none)] }, .outside)

/-- What a thread does next. -/
def perform (t : ι) (m : Shared ι) (p : Place) : Act → Option (Shared ι × Place)
  | .insert value =>
    if p = .outside ∧ m.lock = none ∧ m.ring.nextInsert.toNat < m.ring.storage.length then
      some ({ m with
        ring := { m.ring with
          storage := m.ring.storage.set m.ring.nextInsert.toNat value
          nextInsert := m.ring.nextInsert + 1 }
        lock := some t }, .counted value m.ring.nextInsert)
    else none
  | .extract period => if p = .outside then some ({ m with signal := false }, .reset period) else none
  | .flush =>
    if p = .outside ∧ m.lock = none then
      some ({ m with ring := { m.ring with nextExtract := 0 }, lock := some t }, .flushing)
    else none
  | .goOn => goOn m p
  | .timeOut => if p = .waiting .limited then some (m, .ready) else none

/-- A step of one of the threads. -/
def step [DecidableEq ι] (s : State ι) (a : ι × Act) : Option (State ι) :=
  (perform a.1 s.shared (s.place a.1) a.2).map fun r => ⟨r.1, Function.update s.place a.1 r.2⟩

/-- The ring as it is created, with all threads outside. -/
def start (maxEntries : UInt32) (contents : ℕ → UInt32) : State ι :=
  ⟨⟨.create maxEntries contents, false, none, []⟩, fun _ => .outside⟩

/-- The assumption of the class: one thread takes values out, the others put them in. -/
def OneExtractor (e : ι) : State ι → ι × Act → Prop
  | _, (t, .extract _) => t = e
  | _, (t, .flush) => t = e
  | _, _ => True

/-! ### What a thread can do -/

/-- The steps of `perform`, with their conditions. -/
inductive Performs (t : ι) (m : Shared ι) : Place → Act → Shared ι → Place → Prop where
  | insert (value : UInt32) (hfree : m.lock = none) (hroom : m.ring.nextInsert.toNat < m.ring.storage.length) :
      Performs t m .outside (.insert value)
        ⟨⟨m.ring.limit, m.ring.nextExtract, m.ring.nextInsert + 1,
          m.ring.storage.set m.ring.nextInsert.toNat value⟩, m.signal, some t, m.log⟩
        (.counted value m.ring.nextInsert)
  | wrap (value old : UInt32) :
      Performs t m (.counted value old) .goOn
        ⟨{ m.ring with nextInsert := if m.ring.nextInsert = m.ring.limit then 0 else m.ring.nextInsert },
          m.signal, m.lock, m.log⟩ (.wrapped value old)
  | fail (value old : UInt32) (heq : m.ring.nextInsert = m.ring.nextExtract) :
      Performs t m (.wrapped value old) .goOn
        ⟨{ m.ring with nextInsert := old }, m.signal, none,
          m.log ++ [(.insert value, .tooManyEntries, none)]⟩ .outside
  | succeed (value old : UInt32) (hne : m.ring.nextInsert ≠ m.ring.nextExtract) :
      Performs t m (.wrapped value old) .goOn
        ⟨m.ring, m.signal, none, m.log ++ [(.insert value, .noError, none)]⟩ .inserted
  | setEvent : Performs t m .inserted .goOn ⟨m.ring, true, m.lock, m.log⟩ .outside
  | resetEvent (period : Period) :
      Performs t m .outside (.extract period) ⟨m.ring, false, m.lock, m.log⟩ (.reset period)
  | readExtract (period : Period) : Performs t m (.reset period) .goOn m (.read period m.ring.nextExtract)
  | test (period : Period) (nextExtract : UInt32) :
      Performs t m (.read period nextExtract) .goOn m
        (if nextExtract = m.ring.nextInsert ∧ period ≠ .nonBlocking then .waiting period else .ready)
  | wake (period : Period) (hsignal : m.signal = true) : Performs t m (.waiting period) .goOn m .ready
  | timeOut : Performs t m (.waiting .limited) .timeOut m .ready
  | take (hfree : m.lock = none) {r : RingGeneric.Answer × RingGeneric} (hr : m.ring.extract = some r) :
      Performs t m .ready .goOn ⟨r.2, m.signal, m.lock, m.log ++ [(.extract, r.1)]⟩ .outside
  | flush (hfree : m.lock = none) :
      Performs t m .outside .flush ⟨{ m.ring with nextExtract := 0 }, m.signal, some t, m.log⟩ .flushing
  | flushed :
      Performs t m .flushing .goOn
        ⟨{ m.ring with nextInsert := 0 }, m.signal, none, m.log ++ [(.flush, .noError, none)]⟩ .outside

variable {t : ι} {m m' : Shared ι} {p p' : Place}

theorem performs_of_goOn (h : goOn m p = some (m', p')) :
    Performs t m p .goOn m' p' := by
  cases p with
  | outside => cases h
  | counted value old =>
    cases h
    exact .wrap ..
  | wrapped value old =>
    rw [goOn] at h
    split at h
    next hc =>
      cases h
      exact .fail _ _ hc
    next hc =>
      cases h
      exact .succeed _ _ hc
  | inserted =>
    cases h
    exact .setEvent
  | reset period =>
    cases h
    exact .readExtract _
  | read period nextExtract =>
    cases h
    exact .test ..
  | waiting period =>
    rw [goOn] at h
    split at h
    next hc =>
      cases h
      exact .wake _ hc
    next => cases h
  | ready =>
    rw [goOn] at h
    split at h
    next hc =>
      obtain ⟨r, hr, heq⟩ := Option.map_eq_some_iff.mp h
      cases heq
      exact .take hc hr
    next => cases h
  | flushing =>
    cases h
    exact .flushed

variable {a : Act}

theorem performs_of_perform (h : perform t m p a = some (m', p')) : Performs t m p a m' p' := by
  cases a with
  | insert value =>
    rw [perform] at h
    split at h
    next hc =>
      obtain ⟨rfl, hfree, hroom⟩ := hc
      cases h
      exact .insert _ hfree hroom
    next => cases h
  | extract period =>
    rw [perform] at h
    split at h
    next hc =>
      subst hc
      cases h
      exact .resetEvent _
    next => cases h
  | flush =>
    rw [perform] at h
    split at h
    next hc =>
      obtain ⟨rfl, hfree⟩ := hc
      cases h
      exact .flush hfree
    next => cases h
  | goOn => exact performs_of_goOn h
  | timeOut =>
    rw [perform] at h
    split at h
    next hc =>
      subst hc
      cases h
      exact .timeOut
    next => cases h

theorem performs_of_step [DecidableEq ι] {s s' : State ι} (h : step s (t, a) = some s') :
    ∃ m p, Performs t s.shared (s.place t) a m p ∧ s' = ⟨m, Function.update s.place t p⟩ := by
  obtain ⟨r, hr, rfl⟩ := Option.map_eq_some_iff.mp h
  exact ⟨r.1, r.2, performs_of_perform hr, rfl⟩

/-! ### One call after the other -/

/-- What the ring is while a thread with the lock is at a place; it was `r` when the thread took the lock. -/
inductive Within (r : RingGeneric) : Place → RingGeneric → Prop where
  | counted (value : UInt32) (hroom : r.nextInsert.toNat < r.storage.length) :
      Within r (.counted value r.nextInsert)
        ⟨r.limit, r.nextExtract, r.nextInsert + 1, r.storage.set r.nextInsert.toNat value⟩
  | wrapped (value : UInt32) (hroom : r.nextInsert.toNat < r.storage.length) :
      Within r (.wrapped value r.nextInsert)
        ⟨r.limit, r.nextExtract, RingGeneric.next r.limit r.nextInsert, r.storage.set r.nextInsert.toNat value⟩
  | flushing : Within r .flushing { r with nextExtract := 0 }

/-- The thread has the lock. -/
def Place.inside : Place → Bool
  | .counted .. | .wrapped .. | .flushing => true
  | _ => false

variable {r ring : RingGeneric}

theorem Within.inside (h : Within r p ring) : p.inside = true := by
  cases h <;> rfl

/-- The calls that have had the lock have led from `first` to `r`, one after the other, and the thread that
has it now has led from `r` to the ring there is. -/
structure Simulates (first : RingGeneric) (s : State ι) (r : RingGeneric) : Prop where
  run : Lts.run RingGeneric.step (first, []) (s.shared.log.map Prod.fst) = some (r, s.shared.log)
  free : s.shared.lock = none → s.shared.ring = r
  inside : ∀ t, s.shared.lock = some t → Within r (s.place t) s.shared.ring
  outside : ∀ t, s.shared.lock ≠ some t → (s.place t).inside = false

namespace Simulates

variable {first r r' : RingGeneric} {s s' : State ι} {t : ι} {m : Shared ι} {p : Place}

theorem within (h : Simulates first s r) (hp : (s.place t).inside = true) :
    s.shared.lock = some t ∧ Within r (s.place t) s.shared.ring := by
  have hlock : s.shared.lock = some t := by
    by_contra hne
    rw [h.outside t hne] at hp
    cases hp
  exact ⟨hlock, h.inside t hlock⟩

theorem kept {maxEntries : UInt32} {contents : ℕ → UInt32} (h : Simulates (.create maxEntries contents) s r)
    (hmax : maxEntries < 0x3fffffff) : RingGeneric.Kept maxEntries.toNat (r, s.shared.log) := by
  obtain ⟨u, hu, hkept⟩ := (RingGeneric.create_kept hmax contents).run (s.shared.log.map Prod.fst)
  obtain rfl : (r, s.shared.log) = u := Option.some.inj (h.run.symm.trans hu)
  exact hkept

theorem eq_of_log (h : Simulates first s r) (h' : Simulates first s' r')
    (hlog : s'.shared.log = s.shared.log) : r' = r := by
  have heq := h'.run
  rw [hlog, h.run] at heq
  exact (Prod.mk.inj (Option.some.inj heq)).1.symm

variable {c : RingGeneric.Call} {answer : RingGeneric.Answer}

theorem call_of_log (h : Simulates first s r) (h' : Simulates first s' r')
    (hlog : s'.shared.log = s.shared.log ++ [(c, answer)]) :
    r.call c = some (answer, r') := by
  have hrun := h'.run
  rw [hlog, List.map_append, List.map_singleton, Lts.run_concat, h.run] at hrun
  obtain ⟨u, hu, heq⟩ := Option.map_eq_some_iff.mp hrun
  obtain ⟨rfl, hanswer⟩ := Prod.mk.inj heq
  obtain rfl : u.1 = answer := by simpa using hanswer
  exact hu

variable [DecidableEq ι]

/-- A thread without the lock goes from one place to another. -/
theorem stay (h : Simulates first s r) (hring : m.ring = s.shared.ring) (hlock : m.lock = s.shared.lock)
    (hlog : m.log = s.shared.log) (hout : (s.place t).inside = false) (hp : p.inside = false) :
    Simulates first ⟨m, Function.update s.place t p⟩ r := by
  constructor
  · simpa [hlog] using h.run
  · simpa [hlock, hring] using h.free
  · intro t' ht'
    have hin := h.inside t' (hlock ▸ ht')
    have hne : t' ≠ t := by
      rintro rfl
      rw [hin.inside] at hout
      cases hout
    simpa [hne, hring] using hin
  · intro t' ht'
    by_cases hne : t' = t
    · simpa [hne] using hp
    · simpa [hne] using h.outside t' (hlock ▸ ht')

/-- A thread that is alone with the lock, or takes it. -/
theorem hold (h : Simulates first s r) (hlog : m.log = s.shared.log) (hlock : m.lock = some t)
    (halone : ∀ t', t' ≠ t → s.shared.lock ≠ some t') (hin : Within r p m.ring) :
    Simulates first ⟨m, Function.update s.place t p⟩ r := by
  constructor
  · simpa [hlog] using h.run
  · simp [hlock]
  · intro t' ht'
    obtain rfl : t = t' := by simpa [hlock] using ht'
    simpa using hin
  · intro t' ht'
    have hne : t' ≠ t := by
      rintro rfl
      exact ht' hlock
    simpa [hne] using h.outside t' (halone t' hne)

/-- A thread that is alone with the lock, or takes it, has done its call and lets it go. -/
theorem leave (h : Simulates first s r)
    (hcall : r.call c = some (answer, m.ring)) (hlog : m.log = s.shared.log ++ [(c, answer)])
    (hlock : m.lock = none) (halone : ∀ t', t' ≠ t → s.shared.lock ≠ some t') (hp : p.inside = false) :
    Simulates first ⟨m, Function.update s.place t p⟩ m.ring := by
  constructor
  · simp [hlog, Lts.run_concat, h.run, RingGeneric.step, hcall]
  · simp
  · simp [hlock]
  · intro t' ht'
    by_cases hne : t' = t
    · simpa [hne] using hp
    · simpa [hne] using h.outside t' (halone t' hne)

/-- **One step of any thread.** -/
theorem step {a : Act} (h : Simulates first s r) (hs : step s (t, a) = some s') :
    ∃ r', Simulates first s' r' := by
  obtain ⟨m, p, hm, rfl⟩ := performs_of_step hs
  have halone (hlock : s.shared.lock = some t) (t' : ι) (hne : t' ≠ t) : s.shared.lock ≠ some t' := by
    rw [hlock]
    exact fun heq => hne (Option.some.inj heq).symm
  have hfree (hlock : s.shared.lock = none) (t' : ι) (_ : t' ≠ t) : s.shared.lock ≠ some t' := by
    rw [hlock]
    exact Option.some_ne_none t' ∘ Eq.symm
  generalize hplace : s.place t = q at hm
  cases hm with
  | insert value hlock hroom =>
    refine ⟨r, h.hold rfl rfl (hfree hlock) ?_⟩
    rw [h.free hlock] at hroom ⊢
    exact .counted value hroom
  | wrap value old =>
    obtain ⟨hlock, hin⟩ := h.within (t := t) (by rw [hplace]; rfl)
    refine ⟨r, h.hold rfl hlock (halone hlock) ?_⟩
    rw [hplace] at hin
    generalize s.shared.ring = ring at hin ⊢
    cases hin with
    | counted _ hroom => exact .wrapped value hroom
  | fail value old heq =>
    obtain ⟨hlock, hin⟩ := h.within (t := t) (by rw [hplace]; rfl)
    refine ⟨_, h.leave (c := .insert value) ?_ rfl rfl (halone hlock) rfl⟩
    rw [hplace] at hin
    generalize s.shared.ring = ring at hin heq ⊢
    cases hin with
    | wrapped _ hroom =>
      change r.insert value = _
      unfold RingGeneric.insert
      rw [if_pos hroom, if_pos heq]
  | succeed value old hne =>
    obtain ⟨hlock, hin⟩ := h.within (t := t) (by rw [hplace]; rfl)
    refine ⟨_, h.leave (c := .insert value) ?_ rfl rfl (halone hlock) rfl⟩
    rw [hplace] at hin
    change r.insert value = some (_, s.shared.ring)
    generalize s.shared.ring = ring at hin hne ⊢
    cases hin with
    | wrapped _ hroom =>
      unfold RingGeneric.insert
      rw [if_pos hroom, if_neg hne]
  | setEvent => exact ⟨r, h.stay rfl rfl rfl (by rw [hplace]; rfl) rfl⟩
  | resetEvent period => exact ⟨r, h.stay rfl rfl rfl (by rw [hplace]; rfl) rfl⟩
  | readExtract period => exact ⟨r, h.stay rfl rfl rfl (by rw [hplace]; rfl) rfl⟩
  | test period nextExtract =>
    refine ⟨r, h.stay rfl rfl rfl (by rw [hplace]; rfl) ?_⟩
    split <;> rfl
  | wake period hsignal => exact ⟨r, h.stay rfl rfl rfl (by rw [hplace]; rfl) rfl⟩
  | timeOut => exact ⟨r, h.stay rfl rfl rfl (by rw [hplace]; rfl) rfl⟩
  | take hlock hr =>
    refine ⟨_, h.leave (c := .extract) ?_ rfl hlock (hfree hlock) rfl⟩
    rw [h.free hlock] at hr
    exact hr
  | flush hlock =>
    refine ⟨r, h.hold rfl rfl (hfree hlock) ?_⟩
    rw [h.free hlock]
    exact .flushing
  | flushed =>
    obtain ⟨hlock, hin⟩ := h.within (t := t) (by rw [hplace]; rfl)
    refine ⟨_, h.leave (c := .flush) ?_ rfl rfl (halone hlock) rfl⟩
    rw [hplace] at hin
    generalize s.shared.ring = ring at hin ⊢
    cases hin
    rfl

end Simulates

variable {capacity : ℕ}

/-- An `Insert` that fails finds the ring full and leaves it so. -/
theorem full_of_fail {r r' : RingGeneric} (hsound : r.Sound)
    (hlimit : r.limit.toNat = capacity + 1) {value : UInt32}
    (h : r.call (.insert value) = some ((.tooManyEntries, none), r')) :
    r.held.length = capacity ∧ r'.held.length = capacity := by
  obtain ⟨u, hu, -, -, hheld⟩ := RingGeneric.call_queue hsound hlimit (.insert value)
  obtain ⟨hanswer, rfl⟩ := Prod.mk.inj (Option.some.inj (h.symm.trans hu))
  by_cases hfull : r.held.length = capacity
  · simp only [RingGeneric.Queue.call, if_pos hfull] at hheld
    exact ⟨hfull, hheld ▸ hfull⟩
  · simp [RingGeneric.Queue.call, hfull] at hanswer

/-- What an `Extract` can take for an empty ring in the middle of an `Insert`: a full one. -/
theorem Within.full (h : Within r p ring) (hsound : r.Sound)
    (hlimit : r.limit.toNat = capacity + 1) (hp : p ≠ .flushing) (heq : ring.nextExtract = ring.nextInsert) :
    r.held.length = capacity := by
  have hfull (hnext : RingGeneric.next r.limit r.nextInsert = r.nextExtract) : r.held.length = capacity := by
    have hcount : r.ring.count r.limit.toNat + 1 = r.limit.toNat := by
      apply (Circular.Ring.advance_last_eq_iff hsound.fits).mp
      have htoNat := RingGeneric.toNat_next hsound.fits.last_lt
      exact htoNat.symm.trans (congrArg UInt32.toNat hnext)
    rw [RingGeneric.held, Circular.Ring.length_held]
    omega
  cases h with
  | counted value =>
    apply hfull
    have heq : r.nextExtract = r.nextInsert + 1 := heq
    have hne : r.nextInsert + 1 ≠ r.limit := by
      intro hlast
      have hlt := hsound.fits.next_lt
      change r.nextExtract.toNat < _ at hlt
      simp [heq, hlast] at hlt
    rw [RingGeneric.next, if_neg hne, heq]
  | wrapped value => exact hfull heq.symm
  | flushing => exact absurd rfl hp

variable [DecidableEq ι] {maxEntries : UInt32} {contents : ℕ → UInt32} {s s' : State ι} {r r' : RingGeneric}
  {acts acts' : List (ι × Act)} {e t : ι} {m : Shared ι} {p : Place} {capacity : ℕ}

omit [DecidableEq ι] in
theorem start_simulates :
    Simulates (.create maxEntries contents) (start maxEntries contents : State ι) (.create maxEntries contents) :=
  ⟨rfl, fun _ => rfl, by simp [start], fun _ _ => rfl⟩

theorem run_simulates (hrun : Lts.run step (start maxEntries contents) acts = some s) :
    ∃ r, Simulates (.create maxEntries contents) s r := by
  refine Lts.run_invariant (I := fun s => ∃ r, Simulates (.create maxEntries contents) s r) ?_
    ⟨_, start_simulates⟩ hrun
  rintro s ⟨t, a⟩ s' ⟨r, h⟩ hs
  exact h.step hs

/-- A thread that has the lock to itself finds the slot that it writes or reads. -/
structure InArray (s : State ι) : Prop where
  insert : ∀ t value, s.shared.lock = none → s.place t = .outside → (step s (t, .insert value)).isSome
  extract : ∀ t, s.shared.lock = none → s.place t = .ready → (step s (t, .goOn)).isSome

theorem Simulates.inArray (h : Simulates (.create maxEntries contents) s r) (hmax : maxEntries < 0x3fffffff) :
    InArray s := by
  have hkept := h.kept hmax
  constructor
  · intro t value hfree hplace
    have hlast : s.shared.ring.nextInsert.toNat < s.shared.ring.storage.length := by
      rw [h.free hfree, hkept.sound.length]
      exact hkept.sound.fits.last_lt
    simp [RingThreads.step, perform, hfree, hplace, hlast]
  · intro t hfree hplace
    obtain ⟨r', hcall, -⟩ := RingGeneric.call_queue hkept.sound hkept.limit .extract
    rw [← h.free hfree] at hcall
    have hextract : s.shared.ring.extract = _ := hcall
    simp [RingThreads.step, perform, goOn, hfree, hplace, hextract]

/-- **Threads**: in every state of every interleaving the calls that have had the lock have done and answered
what they would have one after the other, only the thread with the lock is in the middle of a call, and no
thread reads or writes outside the array. -/
theorem run_serves (hmax : maxEntries < 0x3fffffff)
    (hrun : Lts.run step (start maxEntries contents) acts = some s) :
    ∃ r, Simulates (.create maxEntries contents) s r ∧ RingGeneric.Serves maxEntries r s.shared.log ∧
      InArray s := by
  obtain ⟨r, h⟩ := run_simulates hrun
  exact ⟨r, h, (h.kept hmax).serves, h.inArray hmax⟩

/-- Two threads insert, the second while the third extracts the value of the first. -/
def threeThreads : List (Fin 3 × Act) :=
  [(0, .insert 7), (0, .goOn), (2, .extract .limited), (0, .goOn), (2, .goOn), (1, .insert 8), (2, .goOn),
    (1, .goOn), (1, .goOn), (2, .goOn), (0, .goOn), (1, .goOn), (0, .insert 9)]

theorem run_serves_threeThreads : ∃ s, Lts.run step (start 2 fun _ => 0) threeThreads = some s ∧
    ∃ r, Simulates (.create 2 fun _ => 0) s r ∧ RingGeneric.Serves 2 r s.shared.log ∧ InArray s := by
  have hrun : Lts.run step (start 2 fun _ => 0) threeThreads = some _ := rfl
  exact ⟨_, hrun, run_serves (by decide) hrun⟩

/-! ### The wait -/

/-- The places of a thread that is in no call but `Insert`. -/
def Place.inserting : Place → Bool
  | .outside | .counted .. | .wrapped .. | .inserted => true
  | _ => false

/-- `Signal` is set or about to be, or the ring is empty or full. -/
def Woken (capacity : ℕ) (s : State ι) (r : RingGeneric) : Prop :=
  s.shared.signal = true ∨ (∃ t, s.place t = .inserted) ∨ r.held = [] ∨ r.held.length = capacity

/-- What is kept while only `e` extracts. -/
structure Watched (e : ι) (capacity : ℕ) (s : State ι) (r : RingGeneric) : Prop where
  others : ∀ t, t ≠ e → (s.place t).inserting = true
  read : ∀ period nextExtract, s.place e = .read period nextExtract → nextExtract = s.shared.ring.nextExtract
  waits : ∀ period, s.place e = .waiting period → Woken capacity s r

namespace Watched

/-- A step of another thread. -/
theorem of_other (h : Watched e capacity s r) (ht : t ≠ e) (hp : p.inserting = true)
    (hnext : m.ring.nextExtract = s.shared.ring.nextExtract)
    (hwoken : Woken capacity s r → Woken capacity ⟨m, Function.update s.place t p⟩ r') :
    Watched e capacity ⟨m, Function.update s.place t p⟩ r' := by
  constructor
  · intro t' ht'
    by_cases hne : t' = t
    · simpa [hne] using hp
    · simpa [hne] using h.others t' ht'
  · simpa [ht.symm, hnext] using h.read
  · intro period hplace
    exact hwoken (h.waits period (by simpa [ht.symm] using hplace))

/-- A step of the thread that extracts, when it does not lead to the test or to the wait. -/
theorem of_self (h : Watched e capacity s r) (hread : ∀ period nextExtract, p ≠ .read period nextExtract)
    (hwait : ∀ period, p ≠ .waiting period) : Watched e capacity ⟨m, Function.update s.place e p⟩ r' := by
  constructor
  · intro t' ht'
    simpa [ht'] using h.others t' ht'
  · intro period nextExtract hplace
    exact absurd (by simpa using hplace) (hread period nextExtract)
  · intro period hplace
    exact absurd (by simpa using hplace) (hwait period)

theorem woken_of_place (hring : m.signal = s.shared.signal) (hplace : s.place t ≠ .inserted)
    (h : Woken capacity s r) : Woken capacity ⟨m, Function.update s.place t p⟩ r := by
  obtain hsignal | ⟨t', ht'⟩ | hheld := h
  · exact .inl (hring.trans hsignal)
  · have hne : t' ≠ t := by
      rintro rfl
      exact hplace ht'
    exact .inr (.inl ⟨t', by simpa [hne] using ht'⟩)
  · exact .inr (.inr hheld)

/-- **One step of any thread**, when only `e` extracts. -/
theorem step {a : Act} (hmax : maxEntries < 0x3fffffff) (hsim : Simulates (.create maxEntries contents) s r)
    (hsim' : Simulates (.create maxEntries contents) s' r') (h : Watched e maxEntries.toNat s r)
    (hone : OneExtractor e s (t, a)) (hs : RingThreads.step s (t, a) = some s') :
    Watched e maxEntries.toNat s' r' := by
  have hkept := hsim.kept hmax
  obtain ⟨m, p, hm, rfl⟩ := performs_of_step hs
  by_cases ht : t = e
  · subst ht
    generalize hplace : s.place t = q at hm
    cases hm with
    | readExtract period =>
      constructor
      · intro t' ht'
        simpa [ht'] using h.others t' ht'
      · simp
      · simp
    | test period nextExtract =>
      obtain rfl := hsim.eq_of_log hsim' rfl
      constructor
      · intro t' ht'
        simpa [ht'] using h.others t' ht'
      · intro period' nextExtract' heq
        simp only [Function.update_self] at heq
        split at heq <;> cases heq
      · intro period' heq
        simp only [Function.update_self] at heq
        split at heq
        next hempty =>
          have heq : s.shared.ring.nextExtract = s.shared.ring.nextInsert :=
            (h.read _ _ hplace).symm.trans hempty.1
          cases hlock : s.shared.lock with
          | none =>
            rw [hsim.free hlock] at heq
            have hnil := (Circular.Ring.held_eq_nil_iff hkept.sound.fits).mpr (congrArg UInt32.toNat heq)
            exact .inr (.inr (.inl hnil))
          | some t' =>
            have hin := hsim.inside t' hlock
            have hne : t' ≠ t := by
              rintro rfl
              have hinside := hin.inside
              rw [hplace] at hinside
              cases hinside
            have hflush : s.place t' ≠ .flushing := by
              intro hflush
              have hother := h.others t' hne
              rw [hflush] at hother
              cases hother
            exact .inr (.inr (.inr (hin.full hkept.sound hkept.limit hflush heq)))
        next => cases heq
    | insert | wrap | fail | succeed | setEvent | resetEvent | wake | timeOut | take | flush | flushed =>
      exact h.of_self (by simp) (by simp)
  · have hother := h.others t ht
    generalize hplace : s.place t = q at hm hother
    cases hm with
    | insert value =>
      obtain rfl := hsim.eq_of_log hsim' rfl
      exact h.of_other ht rfl rfl (woken_of_place rfl (by simp [hplace]))
    | wrap value old =>
      obtain rfl := hsim.eq_of_log hsim' rfl
      exact h.of_other ht rfl rfl (woken_of_place rfl (by simp [hplace]))
    | fail value old =>
      have hfull := full_of_fail hkept.sound hkept.limit (hsim.call_of_log hsim' rfl)
      exact h.of_other ht rfl rfl fun _ => .inr (.inr (.inr hfull.2))
    | succeed value old => exact h.of_other ht rfl rfl fun _ => .inr (.inl ⟨t, Function.update_self ..⟩)
    | setEvent => exact h.of_other ht rfl rfl fun _ => .inl rfl
    | resetEvent | flush => exact absurd hone ht
    | readExtract | test | wake | timeOut | take | flushed => cases hother

end Watched

theorem run_watched (hmax : maxEntries < 0x3fffffff)
    (hone : Lts.Along step (OneExtractor e) (start maxEntries contents) acts)
    (hrun : Lts.run step (start maxEntries contents) acts = some s) :
    ∃ r, Simulates (.create maxEntries contents) s r ∧ Watched e maxEntries.toNat s r := by
  refine Lts.run_invariant_along
    (I := fun s => ∃ r, Simulates (.create maxEntries contents) s r ∧ Watched e maxEntries.toNat s r) ?_ ?_
    hone hrun
  · rintro s ⟨t, a⟩ s' ⟨r, hsim, h⟩ hone hs
    obtain ⟨r', hsim'⟩ := hsim.step hs
    exact ⟨r', hsim', h.step hmax hsim hsim' hone hs⟩
  · exact ⟨_, start_simulates, fun _ _ => rfl, by simp [start], by simp [start]⟩

/-- **No lost wake-up while there is room**: when one thread extracts and waits, and the ring holds something
and is not full, `Signal` is set, or an `Insert` that has put its value in is about to set it. -/
theorem run_signalled (hmax : maxEntries < 0x3fffffff)
    (hone : Lts.Along step (OneExtractor e) (start maxEntries contents) acts)
    (hrun : Lts.run step (start maxEntries contents) acts = some s) {period : Period}
    (hwait : s.place e = .waiting period) (hfree : s.shared.lock = none) (hheld : s.shared.ring.held ≠ [])
    (hroom : s.shared.ring.held.length ≠ maxEntries.toNat) :
    s.shared.signal = true ∨ ∃ t, s.place t = .inserted := by
  obtain ⟨r, hsim, h⟩ := run_watched hmax hone hrun
  obtain rfl := hsim.free hfree
  obtain hsignal | hinserted | hnil | hfull := h.waits period hwait
  · exact .inl hsignal
  · exact .inr hinserted
  · exact absurd hnil hheld
  · exact absurd hfull hroom

/-- A value comes in while the other thread waits. -/
def comesIn : List (Bool × Act) :=
  [(true, .extract .infinite), (true, .goOn), (true, .goOn), (false, .insert 7), (false, .goOn), (false, .goOn)]

theorem run_signalled_comesIn : ∃ s, Lts.run step (start 2 fun _ => 0) comesIn = some s ∧
    (s.shared.signal = true ∨ ∃ t, s.place t = .inserted) := by
  have hrun : Lts.run step (start 2 fun _ => 0) comesIn = some _ := rfl
  have hone : Lts.Along step (OneExtractor true) (start 2 fun _ => 0) comesIn :=
    Lts.along_of_forall_mem (by simp [OneExtractor, comesIn]) _
  exact ⟨_, hrun, run_signalled (by decide) hone hrun rfl rfl (by decide) (by decide)⟩

/-! ### The full ring -/

/-- The thread that extracts waits without end at a full ring. -/
structure Stuck (e : ι) (capacity : ℕ) (s : State ι) (r : RingGeneric) : Prop where
  others : ∀ t, t ≠ e → (s.place t).inserting = true
  waits : s.place e = .waiting .infinite
  signal : s.shared.signal = false
  inserted : ∀ t, s.place t ≠ .inserted
  full : r.held.length = capacity

/-- All these calls are an `Insert` that fails. -/
def Refused (calls : RingGeneric.Log) : Prop :=
  ∀ c ∈ calls, ∃ value, c = (.insert value, .tooManyEntries, none)

theorem Stuck.of_other (h : Stuck e capacity s r) (ht : t ≠ e) (hp : p.inserting = true) (hne : p ≠ .inserted)
    (hsignal : m.signal = s.shared.signal) (hfull : r'.held.length = capacity) :
    Stuck e capacity ⟨m, Function.update s.place t p⟩ r' := by
  constructor
  · intro t' ht'
    by_cases heq : t' = t
    · simpa [heq] using hp
    · simpa [heq] using h.others t' ht'
  · simpa [ht.symm] using h.waits
  · exact hsignal.trans h.signal
  · intro t'
    by_cases heq : t' = t
    · simpa [heq] using hne
    · simpa [heq] using h.inserted t'
  · exact hfull

/-- No step of any thread gets it out. -/
theorem Stuck.step (hmax : maxEntries < 0x3fffffff)
    (hsim : Simulates (.create maxEntries contents) s r) (hsim' : Simulates (.create maxEntries contents) s' r')
    (h : Stuck e maxEntries.toNat s r) (hone : OneExtractor e s (t, a))
    (hs : RingThreads.step s (t, a) = some s') :
    Stuck e maxEntries.toNat s' r' ∧ ∃ new, s'.shared.log = s.shared.log ++ new ∧ Refused new := by
  have hkept := hsim.kept hmax
  obtain ⟨m, p, hm, rfl⟩ := performs_of_step hs
  by_cases ht : t = e
  · subst ht
    rw [h.waits] at hm
    cases hm with
    | wake _ hsignal => cases h.signal.symm.trans hsignal
  · have hother := h.others t ht
    have hinserted := h.inserted t
    generalize hplace : s.place t = q at hm hother hinserted
    cases hm with
    | insert value =>
      obtain rfl := hsim.eq_of_log hsim' rfl
      exact ⟨h.of_other ht rfl (by simp) rfl h.full, [], by simp, by simp [Refused]⟩
    | wrap value old =>
      obtain rfl := hsim.eq_of_log hsim' rfl
      exact ⟨h.of_other ht rfl (by simp) rfl h.full, [], by simp, by simp [Refused]⟩
    | fail value old =>
      have hfull := full_of_fail hkept.sound hkept.limit (hsim.call_of_log hsim' rfl)
      exact ⟨h.of_other ht rfl (by simp) rfl hfull.2, _, rfl, by simp [Refused]⟩
    | succeed value old =>
      -- a full ring takes no value
      have hcall := hsim.call_of_log hsim' rfl
      obtain ⟨u, hu, -⟩ := RingGeneric.call_queue hkept.sound hkept.limit (.insert value)
      simp [RingGeneric.Queue.call, h.full, hcall] at hu
    | setEvent => exact absurd rfl hinserted
    | resetEvent | flush => exact absurd hone ht
    | readExtract | test | wake | timeOut | take | flushed => cases hother

/-- **A full ring**: when one thread extracts, and it waits for `OS_INFINITE` while the ring is full and nobody
is about to set `Signal`, it waits in every state that can follow, and every further `Insert` fails. -/
theorem waits_forever (hmax : maxEntries < 0x3fffffff)
    (hone : Lts.Along step (OneExtractor e) (start maxEntries contents) acts)
    (hrun : Lts.run step (start maxEntries contents) acts = some s) (hwait : s.place e = .waiting .infinite)
    (hsignal : s.shared.signal = false) (hinserted : ∀ t, s.place t ≠ .inserted)
    (hfree : s.shared.lock = none) (hfull : s.shared.ring.held.length = maxEntries.toNat)
    (hone' : Lts.Along step (OneExtractor e) s acts') (hrun' : Lts.run step s acts' = some s') :
    s'.place e = .waiting .infinite ∧ ∃ new, s'.shared.log = s.shared.log ++ new ∧ Refused new := by
  obtain ⟨r, hsim, h⟩ := run_watched hmax hone hrun
  obtain rfl := hsim.free hfree
  obtain ⟨r, -, h, hlog⟩ : ∃ r, Simulates (.create maxEntries contents) s' r ∧
      Stuck e maxEntries.toNat s' r ∧ ∃ new, s'.shared.log = s.shared.log ++ new ∧ Refused new := by
    refine Lts.run_invariant_along (I := fun u => ∃ r, Simulates (.create maxEntries contents) u r ∧
      Stuck e maxEntries.toNat u r ∧ ∃ new, u.shared.log = s.shared.log ++ new ∧ Refused new) ?_ ?_ hone' hrun'
    · rintro u ⟨t, a⟩ u' ⟨r, hsim, h, new, hlog, hnew⟩ hone hs
      obtain ⟨r', hsim'⟩ := hsim.step hs
      obtain ⟨h', more, hlog', hmore⟩ := h.step hmax hsim hsim' hone hs
      refine ⟨r', hsim', h', new ++ more, ?_, ?_⟩
      · rw [hlog', hlog, List.append_assoc]
      · exact List.forall_mem_append.mpr ⟨hnew, hmore⟩
    · exact ⟨_, hsim, ⟨h.others, hwait, hsignal, hinserted, hfull⟩, [], by simp, by simp [Refused]⟩
  exact ⟨h.waits, hlog⟩

/-- The ring is full, and the thread compares the indices while an `Insert` that is going to fail has moved
`NextInsert` on to `NextExtract`. -/
def fooled : List (Bool × Act) :=
  [(false, .insert 7), (false, .goOn), (false, .goOn), (false, .goOn), (true, .extract .infinite), (true, .goOn),
    (false, .insert 8), (false, .goOn), (true, .goOn), (false, .goOn)]

/-- So the wait without end is reached. -/
theorem waits_forever_fooled : ∃ s s', Lts.run step (start 1 fun _ => 0) fooled = some s ∧
    Lts.run step s [(false, .insert 9), (false, .goOn), (false, .goOn)] = some s' ∧
    s'.place true = .waiting .infinite ∧ ∃ new, s'.shared.log = s.shared.log ++ new ∧ Refused new := by
  have hrun : Lts.run step (start 1 fun _ => 0) fooled = some _ := rfl
  have hone : Lts.Along step (OneExtractor true) (start 1 fun _ => 0) fooled :=
    Lts.along_of_forall_mem (by simp [OneExtractor, fooled]) _
  have hone' (s : State Bool) :
      Lts.Along step (OneExtractor true) s [(false, .insert 9), (false, .goOn), (false, .goOn)] :=
    Lts.along_of_forall_mem (by simp [OneExtractor]) _
  exact ⟨_, _, hrun, rfl, waits_forever (by decide) hone hrun rfl rfl (by decide) rfl rfl (hone' _) rfl⟩

end Player2.RingThreads
