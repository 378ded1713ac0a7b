import Player2.BitField

/-! # Programs that read bits

A program shows some bits, decides from their value how many of them it uses up, and goes on.  `run` is what
it does to a bit sequence; `runOn` is what it does with a reader that has a state of its own, and where the
reader shows what is at its position, both agree (`runOn_eq`).

`Reads width x l a` says that the program `x`, wherever the bits `l` stand, returns `a` and uses up exactly
these bits, without ever showing more than `width` at a time.  It composes: what `x >>= f` reads is what `x`
reads, followed by what `f` reads then (`Reads.bind`). -/

open BitField

/-- A program that reads bits. -/
inductive BitProgram (α : Type) : Type
  | done (a : α)
  | read (n : ℕ) (uses : ℕ → ℕ) (k : ℕ → BitProgram α)

namespace BitProgram

variable {α β σ : Type}

/-! ### Programs -/

/-- Go on with another program. -/
def bind : BitProgram α → (α → BitProgram β) → BitProgram β
  | done a, f => f a
  | read n uses k, f => read n uses fun v => (k v).bind f

instance : Monad BitProgram where
  pure := done
  bind := bind

/-- Get and use up some bits. -/
def get (n : ℕ) : BitProgram ℕ := read n (fun _ => n) done

/-- Do something a number of times. -/
def times (x : BitProgram α) : ℕ → BitProgram (List α)
  | 0 => pure []
  | n + 1 => do
      let a ← x
      let l ← times x n
      pure (a :: l)

/-- The result, and the position after it. -/
def run (b : ℕ → Bool) : BitProgram α → ℕ → α × ℕ
  | done a, p => (a, p)
  | read n uses k, p => (k (field b p n)).run b (p + uses (field b p n))

/-- Along the run at most `width` bits are shown, and no more used up than were shown. -/
def Fits (width : ℕ) (b : ℕ → Bool) : BitProgram α → ℕ → Prop
  | done _, _ => True
  | read n uses k, p => n ≤ width ∧ uses (field b p n) ≤ n ∧
      (k (field b p n)).Fits width b (p + uses (field b p n))

variable {b : ℕ → Bool} {p width : ℕ}

theorem run_pure (a : α) : (pure a : BitProgram α).run b p = (a, p) := rfl

theorem run_bind (x : BitProgram α) (f : α → BitProgram β) :
    (x >>= f).run b p = (f (x.run b p).1).run b (x.run b p).2 := by
  induction x generalizing p with
  | done a => rfl
  | read n uses k ih => exact ih (field b p n)

theorem fits_bind (x : BitProgram α) (f : α → BitProgram β) :
    (x >>= f).Fits width b p ↔
      x.Fits width b p ∧ (f (x.run b p).1).Fits width b (x.run b p).2 := by
  induction x generalizing p with
  | done a => exact ⟨fun h => ⟨trivial, h⟩, fun h => h.2⟩
  | read n uses k ih =>
    have h := ih (field b p n) (p := p + uses (field b p n))
    constructor
    · rintro ⟨hn, hu, hk⟩
      exact ⟨⟨hn, hu, (h.mp hk).1⟩, (h.mp hk).2⟩
    · rintro ⟨⟨hn, hu, hk⟩, hf⟩
      exact ⟨hn, hu, h.mpr ⟨hk, hf⟩⟩

theorem run_get (n : ℕ) : (get n).run b p = (field b p n, p + n) := rfl

/-! ### What a program reads -/

/-- A program reads a list of bits as a value. -/
def Reads (width : ℕ) (x : BitProgram α) (l : List Bool) (a : α) : Prop :=
  ∀ b p, Spells b p l → x.run b p = (a, p + l.length) ∧ x.Fits width b p

variable {x : BitProgram α} {f : α → BitProgram β} {l l' : List Bool} {a : α} {c : β}

theorem Reads.pure (a : α) : Reads width (pure a) [] a := fun _ _ _ => ⟨rfl, trivial⟩

theorem Reads.bind (hx : Reads width x l a) (hf : Reads width (f a) l' c) :
    Reads width (x >>= f) (l ++ l') c := by
  intro b p h
  obtain ⟨hl, hl'⟩ := spells_append.mp h
  obtain ⟨ex, fx⟩ := hx b p hl
  obtain ⟨ef, ff⟩ := hf b (p + l.length) hl'
  rw [run_bind, fits_bind, ex, List.length_append, ← Nat.add_assoc]
  exact ⟨ef, fx, ff⟩

theorem Reads.map (hx : Reads width x l a) (g : α → β) :
    Reads width (x >>= fun a => Pure.pure (g a)) l (g a) := by
  have hpure : Reads width (Pure.pure (g a)) [] (g a) := Reads.pure (g a)
  have h := hx.bind hpure (f := fun a => Pure.pure (g a))
  rw [List.append_nil] at h
  exact h

theorem Reads.bind_nil (hx : Reads width x l a) (hf : Reads width (f a) [] c) :
    Reads width (x >>= f) l c :=
  l.append_nil ▸ hx.bind hf

theorem reads_get {n v : ℕ} (hn : n ≤ width) (hv : v < 2 ^ n) : Reads width (get n) (bitsOf n v) v := by
  intro b p h
  rw [run_get, length_bitsOf, field_of_spells h hv]
  exact ⟨rfl, hn, Nat.le_refl n, trivial⟩

theorem Reads.get_spell {n v : ℕ} {fields : List (ℕ × ℕ)} {f : ℕ → BitProgram β} (hn : n ≤ width)
    (hv : v < 2 ^ n) (hf : Reads width (f v) (spell fields) c) :
    Reads width (BitProgram.get n >>= f) (spell ((n, v) :: fields)) c :=
  (reads_get hn hv).bind hf

theorem Reads.bind_spell {fields fields' : List (ℕ × ℕ)} (hx : Reads width x (spell fields) a)
    (hf : Reads width (f a) (spell fields') c) : Reads width (x >>= f) (spell (fields ++ fields')) c := by
  rw [spell_append]
  exact hx.bind hf

/-! ### Programs that only get -/

/-- Nowhere are more than `width` bits shown, or more used up than were shown. -/
def Small (width : ℕ) : BitProgram α → Prop
  | done _ => True
  | read n uses k => n ≤ width ∧ ∀ v, uses v ≤ n ∧ (k v).Small width

theorem Small.fits (h : x.Small width) (b : ℕ → Bool) (p : ℕ) : x.Fits width b p := by
  induction x generalizing p with
  | done a => exact trivial
  | read n uses k ih => exact ⟨h.1, (h.2 _).1, ih _ (h.2 _).2 _⟩

theorem small_pure (a : α) : (Pure.pure a : BitProgram α).Small width := trivial

theorem Small.bind (hx : x.Small width) (hf : ∀ a, (f a).Small width) : (x >>= f).Small width := by
  induction x with
  | done a => exact hf a
  | read n uses k ih => exact ⟨hx.1, fun v => ⟨(hx.2 v).1, ih v (hx.2 v).2⟩⟩

theorem small_get {n : ℕ} (hn : n ≤ width) : (BitProgram.get n).Small width :=
  ⟨hn, fun _ => ⟨Nat.le_refl n, trivial⟩⟩

/-! ### Readers -/

/-- A reader shows bits, and flushes some that it has shown. -/
structure Reader (σ : Type) where
  show' : ℕ → σ → ℕ × σ
  flush : ℕ → σ → σ

/-- What a program does with a reader. -/
def runOn (r : Reader σ) : BitProgram α → σ → α × σ
  | done a, s => (a, s)
  | read n uses k, s => (k (r.show' n s).1).runOn r (r.flush (uses (r.show' n s).1) (r.show' n s).2)

/-- In the states related to a position, the reader shows what is there and flushes to a position
further on. -/
def Reader.Follows (r : Reader σ) (width : ℕ) (b : ℕ → Bool) (R : σ → ℕ → Prop) : Prop :=
  ∀ s p n m, R s p → n ≤ width → m ≤ n →
    (r.show' n s).1 = field b p n ∧ R (r.flush m (r.show' n s).2) (p + m)

theorem runOn_eq {r : Reader σ} {R : σ → ℕ → Prop} (hr : r.Follows width b R) (x : BitProgram α)
    {s : σ} (hs : R s p) (hx : x.Fits width b p) :
    (x.runOn r s).1 = (x.run b p).1 ∧ R (x.runOn r s).2 (x.run b p).2 := by
  induction x generalizing s p with
  | done a => exact ⟨rfl, hs⟩
  | read n uses k ih =>
    obtain ⟨hn, hu, hk⟩ := hx
    obtain ⟨e, hR⟩ := hr s p n (uses (field b p n)) hs hn hu
    unfold runOn run
    rw [e]
    exact ih _ hR hk

/-! ### Programs within a bound -/

/-- Along the run no bit from `limit` on is shown or used up. -/
def Within (limit : ℕ) (b : ℕ → Bool) : BitProgram α → ℕ → Prop
  | done _, p => p ≤ limit
  | read n uses k, p => p + n ≤ limit ∧ uses (field b p n) ≤ n ∧
      (k (field b p n)).Within limit b (p + uses (field b p n))

theorem Within.run_le {limit : ℕ} (x : BitProgram α) (hx : x.Within limit b p) : (x.run b p).2 ≤ limit := by
  induction x generalizing p with
  | done a => exact hx
  | read n uses k ih => exact ih _ hx.2.2

theorem Within.le_run {limit : ℕ} (x : BitProgram α) (hx : x.Within limit b p) : p ≤ (x.run b p).2 := by
  induction x generalizing p with
  | done a => exact le_rfl
  | read n uses k ih => exact (Nat.le_add_right _ _).trans (ih _ hx.2.2)

/-- A program does the same to another sequence of bits that has the same ones up to the bound, at another
place. -/
theorem run_congr {b' : ℕ → Bool} {limit p' : ℕ} (x : BitProgram α) (hx : x.Within limit b p)
    (h : ∀ i, p + i < limit → b (p + i) = b' (p' + i)) :
    (x.run b' p').1 = (x.run b p).1 ∧ (x.run b' p').2 + p = (x.run b p).2 + p' ∧
      (x.Fits width b p → x.Fits width b' p') := by
  induction x generalizing p p' with
  | done a => exact ⟨rfl, Nat.add_comm _ _, fun _ => trivial⟩
  | read n uses k ih =>
    obtain ⟨hn, huses, hk⟩ := hx
    have hfield : field b p n = field b' p' n := field_congr b p fun i hi => h i (by omega)
    have hrest : ∀ i, p + uses (field b p n) + i < limit →
        b (p + uses (field b p n) + i) = b' (p' + uses (field b p n) + i) := by
      intro i hi
      rw [Nat.add_assoc, Nat.add_assoc]
      exact h _ (by omega)
    obtain ⟨hvalue, hend, hfits⟩ := ih (field b p n) hk hrest
    unfold run Fits
    rw [← hfield]
    exact ⟨hvalue, by omega, fun hf => ⟨hf.1, hf.2.1, hfits hf.2.2⟩⟩

end BitProgram
