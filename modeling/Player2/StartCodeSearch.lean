import Player2.Alignment
import Player2.Pes

/-! # Searching for start codes

Two more searches of the PES collators, both over the bytes that remain to be looked at.

* `FindStartCode` looks for `00 00 01` in a block of memory.  It tests byte after byte up to an aligned
  address, skips words without a zero byte (`cmp/str` on the SH4, the arithmetic on `0x01010101`
  elsewhere) and tests the four addresses of the word it stopped at.  It gives what a test of one
  address after the other gives (`findStartCode_eq`).
* `FindPreviousStartCode` looks at every third byte from the end downwards, as `FindNextStartCode` does
  upwards, and tests the two lowest positions at last.  Its index is unsigned and runs until it is less
  than two, which `2 - 3` is not: when the length is a multiple of three and nothing was found on the
  way, it goes on at the top of the index range, outside the data. -/

namespace Player2

open StartCode

/-! ### `FindStartCode` -/

section
variable (memory : ℕ → UInt8)

/-- A pointer, moved upwards. -/
def advance (p k : ℕ) : ℕ := (p + k) % 2 ^ 32

/-- A pointer, moved downwards. -/
def retreat (p k : ℕ) : ℕ := (p + 2 ^ 32 - k) % 2 ^ 32

/-- The word at an address, its first byte the lowest. -/
def wordAt (p : ℕ) : BitVec 32 :=
  BitVec.ofNat 32 ((memory p).toNat + 2 ^ 8 * (memory (p + 1)).toNat + 2 ^ 16 * (memory (p + 2)).toNat +
    2 ^ 24 * (memory (p + 3)).toNat)

/-- `00 00 01` stands at an address. -/
def prefixAt (p : ℕ) : Bool := memory p == 0 && memory (p + 1) == 0 && memory (p + 2) == 1

/-- Test addresses while the guard holds, at most `rounds` of them: the function returns the address
of the code (`error`), or goes on at the address that was reached. -/
def testWhile (guard : ℕ → Bool) : ℕ → ℕ → Except ℕ ℕ
  | 0, p => pure p
  | rounds + 1, p =>
    if guard p then
      if prefixAt memory p then throw p else testWhile guard rounds (advance p 1)
    else pure p

/-- `(n - 0x01010101) & ~n & 0x80808080`. -/
def zeroByteTest (n : BitVec 32) : Bool := (n - 0x01010101) &&& ~~~n &&& 0x80808080 != 0

/-- The accelerated scan. -/
def accelerate (alend : ℕ) : ℕ → ℕ → ℕ
  | 0, p => p
  | rounds + 1, p =>
    if p < alend then
      -- `n = *p.i++`, which is taken back when the word has a zero byte
      if zeroByteTest (wordAt memory p) then p else accelerate alend rounds (advance p 4)
    else p

/-- `cmp/str`: the words agree in one of their bytes. -/
def cmpStr (n m : BitVec 32) : Bool :=
  (List.range 4).any fun k => n.extractLsb' (8 * k) 8 == m.extractLsb' (8 * k) 8

/-- The loop of the accelerated scan on the SH4, `n` the word that was loaded last and `p` the address
behind it.  The instruction after a branch is executed before the branch is taken. -/
def sh4Loop (alend : ℕ) : ℕ → ℕ → BitVec 32 → ℕ
  | 0, p, _ => p
  | rounds + 1, p, n =>
    if cmpStr n 0 then p
    else if p < alend then sh4Loop alend rounds (advance p 4) (wordAt memory p)
    else advance p 4

/-- The accelerated scan on the SH4. -/
def accelerateSh4 (alend rounds p : ℕ) : ℕ :=
  retreat (sh4Loop memory alend rounds (advance p 4) (wordAt memory p)) 4

/-- The two compilations of `FindStartCode`. -/
inductive Target
  | sh4
  | other
deriving DecidableEq, Repr

/-- The scan that is compiled. -/
def Target.accelerate : Target → ℕ → ℕ → ℕ → ℕ
  | .sh4 => accelerateSh4 memory
  | .other => Player2.accelerate memory

/-- The outer loop, from an aligned address. -/
def scanWords (target : Target) (finish words : ℕ) : ℕ → ℕ → Option ℕ
  | 0, _ => none
  | rounds + 1, p =>
    if p < finish then
      let alend := finish &&& 0xfffffffc
      match testWhile memory (fun q => decide (q < finish)) 4 (target.accelerate memory alend words p) with
      | .error found => some found
      | .ok p' => scanWords target finish words rounds p'
    else none

/-- `FindStartCode`: the address of the code.  `len` is the number of bytes in the block. -/
def findStartCode (target : Target) (d len : ℕ) : Option ℕ :=
  let finish := retreat (advance d len) 3
  match testWhile memory (fun q => q &&& 3 != 0 && decide (q < finish)) 4 d with
  | .error found => some found
  | .ok p => scanWords memory target finish (len + 1) (len + 1) p

/-- One address after the other. -/
def scanBytes (d len : ℕ) : Option ℕ := ((List.range (len - 3)).find? fun k => prefixAt memory (d + k)).map (d + ·)

end

/-- The block lies in the address space of the machine, behind its first and before its last
bytes, so that a pointer that is moved within it does not wrap. -/
structure Placed (d len : ℕ) : Prop where
  low : 3 ≤ d
  high : d + len + 8 ≤ 2 ^ 32

section
variable {memory : ℕ → UInt8} {p q d len finish alend rounds words : ℕ} {target : Target}

theorem advance_of_lt {k : ℕ} (h : p + k < 2 ^ 32) : advance p k = p + k := Nat.mod_eq_of_lt h

theorem retreat_of_le {k : ℕ} (hk : k ≤ p) (h : p < 2 ^ 32 + k) : retreat p k = p - k := by
  unfold retreat
  rw [show p + 2 ^ 32 - k = p - k + 2 ^ 32 by omega, Nat.add_mod_right]
  exact Nat.mod_eq_of_lt (by omega)

/-- No code stands from `p` on and before `q`. -/
def Clear (memory : ℕ → UInt8) (p q : ℕ) : Prop := ∀ x, p ≤ x → x < q → prefixAt memory x = false

theorem Clear.refl (memory : ℕ → UInt8) (p : ℕ) : Clear memory p p := fun x hp hq => by omega

theorem Clear.trans {r : ℕ} (h : Clear memory p q) (h' : Clear memory q r) : Clear memory p r :=
  fun x hp hr => (Nat.lt_or_ge x q).elim (h x hp) fun hq => h' x hq hr

theorem Clear.mono {q' : ℕ} (h : Clear memory p q) (hq : q' ≤ q) : Clear memory p q' :=
  fun x hp hx => h x hp (Nat.lt_of_lt_of_le hx hq)

/-- The tests went on to `q`: the guard held on the way, and no code was there. -/
structure Passed (memory : ℕ → UInt8) (guard : ℕ → Bool) (rounds p q : ℕ) : Prop where
  le : p ≤ q
  bound : q ≤ p + rounds
  held : ∀ x, p ≤ x → x < q → guard x = true
  clear : Clear memory p q
  stopped : guard q = false ∨ q = p + rounds

/-- What the tests find: the address of the first code, or an address that none stands before. -/
theorem testWhile_spec {guard : ℕ → Bool} (hguard : ∀ x, guard x = true → x < finish)
    (hfinish : finish < 2 ^ 32) :
    ∀ rounds p, (∀ q, testWhile memory guard rounds p = .error q →
        p ≤ q ∧ q < finish ∧ prefixAt memory q = true ∧ Clear memory p q) ∧
      (∀ q, testWhile memory guard rounds p = .ok q → Passed memory guard rounds p q) := by
  intro rounds
  induction rounds with
  | zero =>
    intro p
    refine ⟨fun q h => (by cases h), fun q h => ?_⟩
    obtain rfl := Except.ok.inj h
    exact ⟨le_rfl, le_rfl, fun x hp hx => by omega, Clear.refl memory p, Or.inr rfl⟩
  | succ rounds ih =>
    intro p
    rw [testWhile]
    split
    next hp =>
      have hlt := hguard p hp
      split
      next hcode =>
        refine ⟨fun q h => ?_, fun q h => by cases h⟩
        obtain rfl := Except.error.inj h
        exact ⟨le_rfl, hlt, hcode, Clear.refl memory p⟩
      next hcode =>
        have honly : ∀ x, p ≤ x → x < p + 1 → x = p := fun x hpx hx => by omega
        have hclear : Clear memory p (p + 1) := fun x hpx hx => by
          rw [honly x hpx hx]
          exact Bool.eq_false_of_not_eq_true hcode
        rw [advance_of_lt (by omega)]
        obtain ⟨herror, hok⟩ := ih (p + 1)
        refine ⟨fun q h => ?_, fun q h => ?_⟩
        · obtain ⟨hle, hq, hfound, hbefore⟩ := herror q h
          exact ⟨by omega, hq, hfound, hclear.trans hbefore⟩
        · obtain ⟨hle, hbound, hheld, hbefore, hstop⟩ := hok q h
          refine ⟨by omega, by omega, fun x hpx hx => ?_, hclear.trans hbefore,
            hstop.imp id fun h => by omega⟩
          rcases Nat.lt_or_ge x (p + 1) with hlow | hhigh
          · rw [honly x hpx hlow]
            exact hp
          · exact hheld x hhigh hx
    next hp =>
      refine ⟨fun q h => (by cases h), fun q h => ?_⟩
      obtain rfl := Except.ok.inj h
      exact ⟨le_rfl, by omega, fun x hpx hx => by omega, Clear.refl memory p,
        Or.inl (Bool.eq_false_of_not_eq_true hp)⟩

/-! ### Zero bytes -/

theorem toNat_wordAt : (wordAt memory p).toNat =
    (memory p).toNat + 2 ^ 8 * (memory (p + 1)).toNat + 2 ^ 16 * (memory (p + 2)).toNat +
      2 ^ 24 * (memory (p + 3)).toNat := by
  have h0 := (memory p).toNat_lt
  have h1 := (memory (p + 1)).toNat_lt
  have h2 := (memory (p + 2)).toNat_lt
  have h3 := (memory (p + 3)).toNat_lt
  unfold wordAt
  exact Nat.mod_eq_of_lt (by omega)

/-- The arithmetic test recognises a bit that is set in the mask and in `n - 0x01010101` but not in
`n`. -/
theorem zeroByteTest_of_bit {n : BitVec 32} {k : ℕ} (hmask : (0x80808080 : BitVec 32).getLsbD k = true)
    (hn : n.toNat / 2 ^ k % 2 = 0) (hsub : (2 ^ 32 - 0x01010101 + n.toNat) % 2 ^ 32 / 2 ^ k % 2 = 1) :
    zeroByteTest n = true := by
  have hk : k < 32 := BitVec.lt_of_getLsbD hmask
  unfold zeroByteTest
  rw [bne_iff_ne]
  intro hzero
  have hbit := congrArg (fun w => BitVec.getLsbD w k) hzero
  have hn' : n.getLsbD k = false := by
    rw [BitVec.getLsbD, Nat.testBit_eq_decide_div_mod_eq, hn]
    rfl
  have hsub' : (n - 0x01010101).getLsbD k = true := by
    rw [BitVec.getLsbD, Nat.testBit_eq_decide_div_mod_eq, BitVec.toNat_sub]
    exact decide_eq_true hsub
  simp only [BitVec.getLsbD_and, BitVec.getLsbD_not, hmask, hn', hsub', hk, decide_true, Bool.not_false,
    Bool.and_self] at hbit
  exact absurd hbit (by simp)

theorem zeroByteTest_of_zero (h : memory p = 0 ∨ memory (p + 1) = 0 ∨ memory (p + 2) = 0 ∨ memory (p + 3) = 0) :
    zeroByteTest (wordAt memory p) = true := by
  have h0 := (memory p).toNat_lt
  have h1 := (memory (p + 1)).toNat_lt
  have h2 := (memory (p + 2)).toNat_lt
  have h3 := (memory (p + 3)).toNat_lt
  have hzero : ∀ b : UInt8, b = 0 ↔ b.toNat = 0 := fun b => UInt8.toNat_inj.symm
  simp only [hzero] at h
  have hword : (wordAt memory p).toNat = _ := toNat_wordAt
  by_cases c0 : (memory p).toNat = 0
  · refine zeroByteTest_of_bit (show (0x80808080 : BitVec 32).getLsbD 7 = true by decide) ?_ ?_ <;> omega
  by_cases c1 : (memory (p + 1)).toNat = 0
  · refine zeroByteTest_of_bit (show (0x80808080 : BitVec 32).getLsbD 15 = true by decide) ?_ ?_ <;> omega
  by_cases c2 : (memory (p + 2)).toNat = 0
  · refine zeroByteTest_of_bit (show (0x80808080 : BitVec 32).getLsbD 23 = true by decide) ?_ ?_ <;> omega
  have c3 : (memory (p + 3)).toNat = 0 := by omega
  refine zeroByteTest_of_bit (show (0x80808080 : BitVec 32).getLsbD 31 = true by decide) ?_ ?_ <;> omega

theorem cmpStr_of_zero (h : memory p = 0 ∨ memory (p + 1) = 0 ∨ memory (p + 2) = 0 ∨ memory (p + 3) = 0) :
    cmpStr (wordAt memory p) 0 = true := by
  have h0 := (memory p).toNat_lt
  have h1 := (memory (p + 1)).toNat_lt
  have h2 := (memory (p + 2)).toNat_lt
  have hzero : ∀ b : UInt8, b = 0 ↔ b.toNat = 0 := fun b => UInt8.toNat_inj.symm
  simp only [hzero] at h
  have hword : (wordAt memory p).toNat = _ := toNat_wordAt
  have hbyte : ∀ k < 4, (wordAt memory p).toNat / 2 ^ (8 * k) % 2 ^ 8 = 0 → cmpStr (wordAt memory p) 0 = true := by
    intro k hk hb
    refine List.any_eq_true.mpr ⟨k, List.mem_range.mpr hk, beq_iff_eq.mpr ?_⟩
    apply BitVec.eq_of_toNat_eq
    rw [BitVec.extractLsb'_toNat, BitVec.extractLsb'_toNat, Nat.shiftRight_eq_div_pow, hb]
    simp
  rcases h with h | h | h | h
  · exact hbyte 0 (by omega) (by omega)
  · exact hbyte 1 (by omega) (by omega)
  · exact hbyte 2 (by omega) (by omega)
  · exact hbyte 3 (by omega) (by omega)

theorem clear_of_nonzero (h : ¬ (memory p = 0 ∨ memory (p + 1) = 0 ∨ memory (p + 2) = 0 ∨ memory (p + 3) = 0)) :
    Clear memory p (p + 4) := by
  simp only [not_or] at h
  intro x hp hx
  have hne : memory x ≠ 0 := by
    obtain rfl | rfl | rfl | rfl : x = p ∨ x = p + 1 ∨ x = p + 2 ∨ x = p + 3 := by omega
    exacts [h.1, h.2.1, h.2.2.1, h.2.2.2]
  unfold prefixAt
  rw [beq_eq_false_iff_ne.mpr hne]
  rfl

/-! ### The scans -/

theorem and_three (p : ℕ) : p &&& 3 = p % 4 := Nat.and_two_pow_sub_one_eq_mod p 2

theorem alend_eq (h : finish < 2 ^ 32) : finish &&& 0xfffffffc = finish - finish % 4 := by
  have := Alignment.and_shiftLeft_mask finish 2 30
  rw [show (2 ^ 30 - 1) <<< 2 = 0xfffffffc from rfl] at this
  omega

/-- What an accelerated scan does from an address: it goes on by words, and no code begins in what it
leaves behind. -/
structure Skipped (memory : ℕ → UInt8) (alend p q : ℕ) : Prop where
  le : p ≤ q
  aligned : q % 4 = 0
  bound : q ≤ alend + 4
  clear : Clear memory p q

theorem accelerate_spec (hend : alend + 8 < 2 ^ 32) (halend : alend % 4 = 0) :
    ∀ rounds p, p % 4 = 0 → p ≤ alend → Skipped memory alend p (accelerate memory alend rounds p) := by
  intro rounds
  induction rounds with
  | zero => exact fun p hp hle => ⟨le_rfl, hp, by unfold accelerate; omega, Clear.refl memory p⟩
  | succ rounds ih =>
    intro p hp hle
    have hstop : Skipped memory alend p p := ⟨le_rfl, hp, by omega, Clear.refl memory p⟩
    rw [accelerate]
    split
    next hlt =>
      split
      next => exact hstop
      next hword =>
        have hclear : Clear memory p (p + 4) :=
          clear_of_nonzero fun hzero => hword (zeroByteTest_of_zero hzero)
        rw [advance_of_lt (by omega)]
        obtain ⟨hle', haligned, hbound, hbefore⟩ := ih (p + 4) (by omega) (by omega)
        exact ⟨by omega, haligned, hbound, hclear.trans hbefore⟩
    next => exact hstop

theorem sh4Loop_spec (hend : alend + 8 < 2 ^ 32) (halend : alend % 4 = 0) :
    ∀ rounds p, p % 4 = 0 → p ≤ alend → alend < p + 4 * rounds →
      4 ≤ sh4Loop memory alend rounds (p + 4) (wordAt memory p) ∧
      Skipped memory alend p (sh4Loop memory alend rounds (p + 4) (wordAt memory p) - 4) := by
  intro rounds
  induction rounds with
  | zero => exact fun p hp hle hrounds => by omega
  | succ rounds ih =>
    intro p hp hle hrounds
    rw [sh4Loop]
    split
    next =>
      exact ⟨by omega, by omega, by omega, by omega, (Clear.refl memory p).mono (by omega)⟩
    next hword =>
      have hclear : Clear memory p (p + 4) :=
        clear_of_nonzero fun hzero => hword (cmpStr_of_zero hzero)
      split
      next hlt =>
        rw [advance_of_lt (by omega)]
        obtain ⟨hfour, hle', haligned, hbound, hbefore⟩ := ih (p + 4) (by omega) (by omega) (by omega)
        exact ⟨hfour, by omega, haligned, hbound, hclear.trans hbefore⟩
      next hlt =>
        -- the word behind the end has been loaded, but not looked at
        rw [advance_of_lt (by omega)]
        exact ⟨by omega, by omega, by omega, by omega, hclear.mono (by omega)⟩

theorem Target.accelerate_spec (target : Target) (hend : alend + 8 < 2 ^ 32) (halend : alend % 4 = 0)
    (hp : p % 4 = 0) (hle : p ≤ alend) (hrounds : alend < p + 4 * rounds) :
    Skipped memory alend p (target.accelerate memory alend rounds p) := by
  cases target with
  | other => exact Player2.accelerate_spec hend halend rounds p hp hle
  | sh4 =>
    obtain ⟨hfour, hskip⟩ := @sh4Loop_spec memory alend hend halend rounds p hp hle hrounds
    have hbound := hskip.bound
    show Skipped memory alend p (retreat (sh4Loop memory alend rounds (advance p 4) (wordAt memory p)) 4)
    rw [advance_of_lt (by omega), retreat_of_le hfour (by omega)]
    exact hskip

/-! ### The whole search -/

/-- What the search is to find between two addresses: the first code. -/
def FirstFrom (memory : ℕ → UInt8) (p finish : ℕ) : Option ℕ → Prop
  | some q => p ≤ q ∧ q < finish ∧ prefixAt memory q = true ∧ Clear memory p q
  | none => Clear memory p finish

theorem FirstFrom.of_clear {r : Option ℕ} (hpq : p ≤ q) (hclear : Clear memory p q)
    (h : FirstFrom memory q finish r) : FirstFrom memory p finish r := by
  cases r with
  | none => exact hclear.trans h
  | some x => exact ⟨hpq.trans h.1, h.2.1, h.2.2.1, hclear.trans h.2.2.2⟩

theorem FirstFrom.unique {r r' : Option ℕ} (h : FirstFrom memory p finish r) (h' : FirstFrom memory p finish r') :
    r = r' := by
  have hcontra : ∀ {x y}, p ≤ x → prefixAt memory x = true → Clear memory p y → ¬ x < y :=
    fun hx hcode hclear hlt => by
      rw [hclear _ hx hlt] at hcode
      cases hcode
  cases r with
  | none =>
    cases r' with
    | none => rfl
    | some y => exact absurd h'.2.1 (hcontra h'.1 h'.2.2.1 h)
  | some x =>
    cases r' with
    | none => exact absurd h.2.1 (hcontra h.1 h.2.2.1 h')
    | some y =>
      have hxy := hcontra h.1 h.2.2.1 h'.2.2.2
      have hyx := hcontra h'.1 h'.2.2.1 h.2.2.2
      exact congrArg some (by omega)

theorem scanWords_spec (hend : finish + 8 < 2 ^ 32) :
    ∀ rounds p, (p % 4 = 0 ∨ finish ≤ p) → finish < p + 4 * words → finish < p + rounds →
      FirstFrom memory p finish (scanWords memory target finish words rounds p) := by
  intro rounds
  induction rounds with
  | zero => exact fun p _ _ hrounds x hp hx => by omega
  | succ rounds ih =>
    intro p hp hwords hrounds
    rw [scanWords]
    dsimp only
    split
    next hlt =>
      have hskip : Skipped memory (finish - finish % 4) p
          (target.accelerate memory (finish &&& 0xfffffffc) words p) := by
        rw [alend_eq (by omega)]
        exact target.accelerate_spec (by omega) (by omega) (by omega) (by omega) (by omega)
      obtain ⟨herror, hok⟩ := @testWhile_spec memory finish
        (fun q => decide (q < finish)) (fun x hx => of_decide_eq_true hx) (by omega) 4
        (target.accelerate memory (finish &&& 0xfffffffc) words p)
      cases htest : testWhile memory (fun q => decide (q < finish)) 4
          (target.accelerate memory (finish &&& 0xfffffffc) words p) with
      | error found =>
        obtain ⟨hle, hfound, hcode, hclear⟩ := herror found htest
        exact ⟨hskip.le.trans hle, hfound, hcode, hskip.clear.trans hclear⟩
      | ok p' =>
        obtain ⟨hle, -, -, hclear, hstop⟩ := hok p' htest
        have haligned := hskip.aligned
        have hforward := hskip.le
        have hstop' : finish ≤ p' ∨ p' = target.accelerate memory (finish &&& 0xfffffffc) words p + 4 :=
          hstop.imp (fun h => Nat.le_of_not_lt (of_decide_eq_false h)) id
        refine FirstFrom.of_clear (hskip.le.trans hle) (hskip.clear.trans hclear) ?_
        exact ih p' (by omega) (by omega) (by omega)
    next hge => exact fun x hx hlt => by omega

/-- **`FindStartCode` finds what a test of one address after the other finds**, on either target, for every
content of the memory and every block in the address space. -/
theorem findStartCode_eq (hplaced : Placed d len) : findStartCode memory target d len = scanBytes memory d len := by
  obtain ⟨hlow, hhigh⟩ := hplaced
  have hfinish : retreat (advance d len) 3 = d + len - 3 := by
    rw [advance_of_lt (by omega), retreat_of_le (by omega) (by omega)]
  refine @FirstFrom.unique memory d (d + len - 3) _ _ ?_ ?_
  · unfold findStartCode
    rw [hfinish]
    obtain ⟨herror, hok⟩ := @testWhile_spec memory (d + len - 3)
      (fun q => q &&& 3 != 0 && decide (q < d + len - 3))
      (fun x hx => of_decide_eq_true (Bool.and_eq_true_iff.mp hx).2) (by omega) 4 d
    dsimp only
    cases htest : testWhile memory (fun q => q &&& 3 != 0 && decide (q < d + len - 3)) 4 d with
    | error found => exact herror found htest
    | ok p =>
      obtain ⟨hle, hbound, hheld, hclear, hstop⟩ := hok p htest
      have hguard : ∀ x, (x &&& 3 != 0 && decide (x < d + len - 3)) = true ↔ x % 4 ≠ 0 ∧ x < d + len - 3 := by
        intro x
        rw [and_three, Bool.and_eq_true, bne_iff_ne, decide_eq_true_iff]
      have hunaligned : ∀ x, d ≤ x → x < p → x % 4 ≠ 0 := fun x hx hlt => ((hguard x).mp (hheld x hx hlt)).1
      have haligned : p % 4 = 0 ∨ d + len - 3 ≤ p := by
        rcases hstop with hstop | hstop
        · by_contra hne
          exact Bool.eq_false_iff.mp hstop ((hguard p).mpr (by omega))
        · -- of four addresses in a row, one is aligned
          have h1 := hunaligned (d + 1) (by omega) (by omega)
          have h2 := hunaligned (d + 2) (by omega) (by omega)
          have h3 := hunaligned (d + 3) (by omega) (by omega)
          omega
      exact FirstFrom.of_clear hle hclear
        (scanWords_spec (by omega) (len + 1) p haligned (by omega) (by omega))
  · unfold scanBytes
    cases hfind : (List.range (len - 3)).find? fun k => prefixAt memory (d + k) with
    | none =>
      rw [List.find?_eq_none] at hfind
      intro x hx hlt
      have := hfind (x - d) (List.mem_range.mpr (by omega))
      rw [show d + (x - d) = x by omega] at this
      exact Bool.eq_false_of_not_eq_true this
    | some k =>
      rw [List.find?_range_eq_some] at hfind
      obtain ⟨hcode, hk, hbefore⟩ := hfind
      have hlt := List.mem_range.mp hk
      show d ≤ d + k ∧ d + k < d + len - 3 ∧ prefixAt memory (d + k) = true ∧ Clear memory d (d + k)
      refine ⟨by omega, by omega, hcode, fun x hx hlt => ?_⟩
      have := hbefore (x - d) (by omega)
      rw [show d + (x - d) = x by omega] at this
      simpa using this

end

/-! ### What is found in the remaining data -/

/-- The block of memory as a list. -/
def blockOf (memory : ℕ → UInt8) (d len : ℕ) : List UInt8 := (List.range len).map fun k => memory (d + k)

/-- The bytes `00 00 01 x` at a position, whatever `x` is. -/
def PrefixAt (l : List UInt8) (p : ℕ) : Prop := CodeAt (fun _ => false) l p

section
variable {memory : ℕ → UInt8} {d len p : ℕ} {target : Target}

theorem getD_blockOf {k : ℕ} (h : k < len) : (blockOf memory d len).getD k 0 = memory (d + k) := by
  unfold blockOf
  rw [List.getD_eq_getElem _ _ (by simpa using h)]
  simp

@[simp] theorem length_blockOf : (blockOf memory d len).length = len := by
  unfold blockOf
  simp

theorem prefixAt_blockOf : PrefixAt (blockOf memory d len) p ↔ p + 3 < len ∧ prefixAt memory (d + p) = true := by
  unfold PrefixAt CodeAt prefixAt
  rw [length_blockOf]
  constructor
  · rintro ⟨hlt, h0, h1, h2, -⟩
    rw [getD_blockOf (by omega)] at h0 h1 h2
    refine ⟨hlt, ?_⟩
    rw [Nat.add_assoc, Nat.add_assoc, h0, h1, h2]
    rfl
  · rintro ⟨hlt, hcode⟩
    rw [Bool.and_eq_true, Bool.and_eq_true, beq_iff_eq, beq_iff_eq, beq_iff_eq] at hcode
    refine ⟨hlt, ?_, ?_, ?_, rfl⟩
    · rw [getD_blockOf (by omega)]; exact hcode.1.1
    · rw [getD_blockOf (by omega)]; exact hcode.1.2
    · rw [getD_blockOf (by omega)]; exact hcode.2

theorem scanBytes_eq_some : scanBytes memory d len = some (d + p) ↔
    PrefixAt (blockOf memory d len) p ∧ ∀ q < p, ¬ PrefixAt (blockOf memory d len) q := by
  unfold scanBytes
  rw [Option.map_eq_some_iff]
  simp only [List.find?_range_eq_some, List.mem_range, prefixAt_blockOf]
  constructor
  · rintro ⟨k, ⟨hcode, hlt, hbefore⟩, hk⟩
    obtain rfl : k = p := by omega
    refine ⟨⟨by omega, hcode⟩, fun q hq h => ?_⟩
    have := hbefore q hq
    rw [h.2] at this
    cases this
  · rintro ⟨⟨hlt, hcode⟩, hbefore⟩
    refine ⟨p, ⟨hcode, by omega, fun q hq => ?_⟩, rfl⟩
    have := hbefore q hq
    simp only [not_and] at this
    simpa using this (by omega)

end

/-- What a search from the beginning is to find among the positions where something stands. -/
def IsFirst (at' : ℕ → Prop) (p : ℕ) : Prop := at' p ∧ ∀ q < p, ¬ at' q

theorem exists_isFirst {at' : ℕ → Prop} (h : ∃ p, at' p) : ∃ p, IsFirst at' p := by
  classical
  exact ⟨Nat.find h, Nat.find_spec h, fun _ hq => Nat.find_min h hq⟩

theorem findNextStartCode_eq_some_iff {ignored : UInt8 → Bool} {data : List UInt8} {p : ℕ} :
    findNextStartCode ignored data = some p ↔ IsFirst (CodeAt ignored data) p := by
  constructor
  · exact findNextStartCode_some
  · rintro ⟨hcode, hfirst⟩
    cases hfind : findNextStartCode ignored data with
    | none => exact absurd hcode (findNextStartCode_none hfind p)
    | some p' =>
      obtain ⟨hcode', hfirst'⟩ := findNextStartCode_some hfind
      have hle : p ≤ p' := Nat.le_of_not_lt fun hlt => hfirst p' hlt hcode'
      have hle' : p' ≤ p := Nat.le_of_not_lt fun hlt => hfirst' p hlt hcode
      exact congrArg some (Nat.le_antisymm hle' hle)

/-- **The search for start codes is exact**: `FindNextStartCode` succeeds if and only if some start code
that is not to be ignored lies in the remaining data, and gives the offset of the first one; and for
every content of the memory and every block in the address space, `FindStartCode` agrees with the
search byte by byte, which gives the first `00 00 01 x` in the block, on either target. -/
theorem startCodeSearch_exact (lower upper : UInt8) (data : List UInt8) :
    ((findNextStartCode (fun b => inrange b lower upper) data).isSome = true ↔
      ∃ p, CodeAt (fun b => inrange b lower upper) data p) ∧
    (∀ p, findNextStartCode (fun b => inrange b lower upper) data = some p ↔
      IsFirst (CodeAt (fun b => inrange b lower upper) data) p) ∧
    ∀ (memory : ℕ → UInt8) (target : Target) (d len : ℕ), Placed d len →
      findStartCode memory target d len = scanBytes memory d len ∧
      ∀ p, findStartCode memory target d len = some (d + p) ↔ IsFirst (PrefixAt (blockOf memory d len)) p := by
  refine ⟨?_, fun p => findNextStartCode_eq_some_iff, fun memory target d len hplaced => ?_⟩
  · rw [Option.isSome_iff_exists]
    constructor
    · rintro ⟨p, hfind⟩
      exact ⟨p, (findNextStartCode_some hfind).1⟩
    · intro h
      obtain ⟨p, hfirst⟩ := exists_isFirst h
      exact ⟨p, findNextStartCode_eq_some_iff.mpr hfirst⟩
  · refine ⟨findStartCode_eq hplaced, fun p => ?_⟩
    rw [findStartCode_eq hplaced]
    exact scanBytes_eq_some

theorem startCodeSearch_exact_unaligned :
    Placed 0x1003 12 ∧
      findStartCode (fun a => [9, 0, 0, 1, 0xb3].getD (a - 0x1007) 7) .sh4 0x1003 12 = some 0x1008 := by
  have hplaced : Placed 0x1003 12 := ⟨by decide, by decide⟩
  have hexact := ((startCodeSearch_exact 0 0xff []).2.2 (fun a => [9, 0, 0, 1, 0xb3].getD (a - 0x1007) 7) .sh4
    0x1003 12 hplaced).1
  exact ⟨hplaced, hexact.trans (by decide)⟩

/-! ### `FindPreviousStartCode` -/

/-- How a search fails to give an answer: it reads outside the data, or it does not end. -/
inductive Fault
  | outside (i : ℕ)
  | endless
deriving DecidableEq, Repr

section
variable (ignored : UInt8 → Bool) (data : List UInt8)

/-- `RemainingData[i]`. -/
def remainingData (i : ℕ) : Except Fault UInt8 :=
  if i < data.length then pure (data.getD i 0) else throw (.outside i)

/-- `RemainingData[i] == value`. -/
def remainingDataIs (i : ℕ) (value : UInt8) : Except Fault Bool := do
  return (← remainingData data i) == value

/-- `inrange(RemainingData[i], IgnoreLower, IgnoreUpper)` decides whether the code at `p` is given. -/
def unlessIgnored (i p : ℕ) : Except Fault (Option ℕ) := do
  return if ignored (← remainingData data i) then none else some p

/-- The body of the loop of `FindPreviousStartCode`; `none` goes on. -/
def examineDown (i : ℕ) : Except Fault (Option ℕ) := do
  if (← remainingData data i) ≤ 1 then
    if ← remainingDataIs data (i - 1) 0 then
      if ← (remainingDataIs data (i - 2) 0 <&&> remainingDataIs data i 1) then
        return ← unlessIgnored ignored data (i + 1) (i - 2)
      else if ← (remainingDataIs data (i + 1) 1 <&&> remainingDataIs data i 0) then
        return ← unlessIgnored ignored data (i + 2) (i - 1)
    if ← (remainingDataIs data (i + 1) 0 <&&> (remainingDataIs data (i + 2) 1 <&&> remainingDataIs data i 0)) then
      return ← unlessIgnored ignored data (i + 3) i
  return none

/-- The tests of the two lowest positions. -/
def searchLowest : Except Fault (Option ℕ) := do
  if ← remainingDataIs data 1 0 then
    if ← (pure (decide (5 ≤ data.length)) <&&> (remainingDataIs data 2 0 <&&> remainingDataIs data 3 1)) then
      return ← unlessIgnored ignored data 4 1
    else if ← (remainingDataIs data 0 0 <&&> remainingDataIs data 2 1) then
      return ← unlessIgnored ignored data 3 0
  return none

/-- The loop, with the unsigned index `i`, and what follows it. -/
def searchDown : ℕ → ℕ → Except Fault (Option ℕ)
  | 0, _ => throw .endless
  | rounds + 1, i =>
    if 2 ≤ i then do
      match ← examineDown ignored data i with
      | some p => return some p
      | none => searchDown rounds ((i + 2 ^ 32 - 3) % 2 ^ 32)
    else searchLowest ignored data

end

/-- `FindPreviousStartCode`: the offset of the code. -/
def findPreviousStartCode (lower upper : UInt8) (data : List UInt8) : Except Fault (Option ℕ) :=
  if data.length < 4 then return none
  else searchDown (fun b => inrange b lower upper) data (data.length + 1) (data.length - 4)

section
variable {ignored : UInt8 → Bool} {data : List UInt8} {i p : ℕ}

theorem remainingData_of_lt (h : i < data.length) : remainingData data i = .ok (data.getD i 0) := if_pos h

theorem remainingDataIs_of_lt {value : UInt8} (h : i < data.length) :
    remainingDataIs data i value = .ok (data.getD i 0 == value) := by
  unfold remainingDataIs
  rw [remainingData_of_lt h]
  rfl

theorem ok_bind {α β : Type} (a : α) (f : α → Except Fault β) : (Except.ok a >>= f) = f a := rfl

theorem ok_and (a b : Bool) : (Except.ok a <&&> Except.ok b : Except Fault Bool) = .ok (a && b) := by
  cases a <;> rfl

theorem examineDown_eq (hi : 2 ≤ i) (hlen : i + 3 < data.length) :
    examineDown ignored data i = .ok (examine ignored data i) := by
  unfold examineDown examine unlessIgnored
  simp only [remainingData_of_lt (show i < data.length by omega),
    remainingData_of_lt (show i + 1 < data.length by omega),
    remainingData_of_lt (show i + 2 < data.length by omega),
    remainingData_of_lt hlen, remainingDataIs_of_lt (show i < data.length by omega),
    remainingDataIs_of_lt (show i - 1 < data.length by omega),
    remainingDataIs_of_lt (show i - 2 < data.length by omega),
    remainingDataIs_of_lt (show i + 1 < data.length by omega),
    remainingDataIs_of_lt (show i + 2 < data.length by omega)]
  simp only [ok_bind, ok_and, Bool.and_eq_true, beq_iff_eq]
  by_cases hle : data.getD i 0 ≤ 1
  · by_cases h1 : data.getD (i - 1) 0 = 0
    · simp only [hle, h1, if_true, true_and]
      split_ifs <;> rfl
    · simp only [hle, h1, if_true, if_false, false_and]
      split_ifs <;> rfl
  · simp only [hle, if_false]
    rfl

theorem examineDown_outside (h : data.length ≤ i) : examineDown ignored data i = .error (.outside i) := by
  unfold examineDown remainingData
  rw [if_neg (by omega)]
  rfl

/-- What a search from the end is to find: the last position where something stands, if there is one. -/
def LastOf (at' : ℕ → Prop) : Option ℕ → Prop
  | some p => at' p ∧ ∀ q, p < q → ¬ at' q
  | none => ∀ q, ¬ at' q

theorem codeAt_zero : CodeAt ignored data 0 ↔ 4 ≤ data.length ∧ data.getD 0 0 = 0 ∧ data.getD 1 0 = 0 ∧
    data.getD 2 0 = 1 ∧ ignored (data.getD 3 0) = false :=
  and_congr_left fun _ => Nat.succ_le_iff.symm

theorem codeAt_one : CodeAt ignored data 1 ↔ 5 ≤ data.length ∧ data.getD 1 0 = 0 ∧ data.getD 2 0 = 0 ∧
    data.getD 3 0 = 1 ∧ ignored (data.getD 4 0) = false :=
  and_congr_left fun _ => Nat.succ_le_iff.symm

theorem searchLowest_eq (hlen : 4 ≤ data.length) : searchLowest ignored data = .ok (
    if data.getD 1 0 = 0 then
      if 5 ≤ data.length ∧ data.getD 2 0 = 0 ∧ data.getD 3 0 = 1 then
        if ignored (data.getD 4 0) then none else some 1
      else if data.getD 0 0 = 0 ∧ data.getD 2 0 = 1 then
        if ignored (data.getD 3 0) then none else some 0
      else none
    else none) := by
  unfold searchLowest unlessIgnored
  simp only [remainingDataIs_of_lt (show 0 < data.length by omega),
    remainingDataIs_of_lt (show 1 < data.length by omega),
    remainingDataIs_of_lt (show 2 < data.length by omega),
    remainingDataIs_of_lt (show 3 < data.length by omega),
    remainingData_of_lt (show 3 < data.length by omega), ok_bind, ok_and,
    show (pure (decide (5 ≤ data.length)) : Except Fault Bool) = .ok (decide (5 ≤ data.length)) from rfl,
    Bool.and_eq_true, beq_iff_eq, decide_eq_true_eq]
  by_cases h1 : data.getD 1 0 = 0
  · by_cases h5 : 5 ≤ data.length
    · simp only [remainingData_of_lt (show 4 < data.length by omega), ok_bind, h1, h5, if_true, true_and]
      split_ifs <;> rfl
    · simp only [h1, h5, if_true, false_and, if_false]
      split_ifs <;> rfl
  · simp only [h1, if_false]
    rfl

theorem searchLowest_spec (hlen : 4 ≤ data.length) (habove : ∀ q, 1 < q → ¬ CodeAt ignored data q) :
    ∃ r, searchLowest ignored data = .ok r ∧ LastOf (CodeAt ignored data) r := by
  refine ⟨_, searchLowest_eq hlen, ?_⟩
  have hcases : ∀ q, CodeAt ignored data q → q = 0 ∨ q = 1 := fun q hq => by
    by_contra hne
    exact habove q (by omega) hq
  have hzero : CodeAt ignored data 0 → ¬ CodeAt ignored data 1 → LastOf (CodeAt ignored data) (some 0) :=
    fun h h1 => ⟨h, fun q hq hcode => (hcases q hcode).elim (fun hq' => by omega) fun hq' => h1 (hq' ▸ hcode)⟩
  have hnone : ¬ CodeAt ignored data 0 → ¬ CodeAt ignored data 1 → LastOf (CodeAt ignored data) none :=
    fun h0 h1 q hcode => (hcases q hcode).elim (fun hq => h0 (hq ▸ hcode)) fun hq => h1 (hq ▸ hcode)
  -- the third byte tells the two positions apart
  have h01 : (0 : UInt8) ≠ 1 := by decide
  by_cases h1 : data.getD 1 0 = 0
  · rw [if_pos h1]
    by_cases hc1 : 5 ≤ data.length ∧ data.getD 2 0 = 0 ∧ data.getD 3 0 = 1
    · have hnot0 : ¬ CodeAt ignored data 0 := fun h0 => h01 (hc1.2.1.symm.trans (codeAt_zero.mp h0).2.2.2.1)
      rw [if_pos hc1]
      cases hx : ignored (data.getD 4 0) with
      | true =>
        refine hnone hnot0 fun hcode => ?_
        rw [(codeAt_one.mp hcode).2.2.2.2] at hx
        cases hx
      | false => exact ⟨codeAt_one.mpr ⟨hc1.1, h1, hc1.2.1, hc1.2.2, hx⟩, habove⟩
    · have hnot1 : ¬ CodeAt ignored data 1 := fun hcode =>
        hc1 ⟨(codeAt_one.mp hcode).1, (codeAt_one.mp hcode).2.2.1, (codeAt_one.mp hcode).2.2.2.1⟩
      rw [if_neg hc1]
      by_cases hc0 : data.getD 0 0 = 0 ∧ data.getD 2 0 = 1
      · rw [if_pos hc0]
        cases hx : ignored (data.getD 3 0) with
        | true =>
          refine hnone (fun hcode => ?_) hnot1
          rw [(codeAt_zero.mp hcode).2.2.2.2] at hx
          cases hx
        | false => exact hzero (codeAt_zero.mpr ⟨hlen, hc0.1, h1, hc0.2, hx⟩) hnot1
      · rw [if_neg hc0]
        exact hnone (fun hcode => hc0 ⟨(codeAt_zero.mp hcode).2.1, (codeAt_zero.mp hcode).2.2.2.1⟩) hnot1
  · rw [if_neg h1]
    exact hnone (fun hcode => h1 (codeAt_zero.mp hcode).2.2.1) fun hcode => h1 (codeAt_one.mp hcode).2.1

/-- The loop downwards, when no code stands above its index: it finds the last code, except that it leaves the
data when there is none and its index meets two. -/
theorem searchDown_spec (hlen : data.length < 2 ^ 32) :
    ∀ rounds i, i / 3 + 2 ≤ rounds → i + 3 < data.length → (∀ q, i < q → ¬ CodeAt ignored data q) →
      (i % 3 = 2 ∧ (∀ q, ¬ CodeAt ignored data q) ∧
        searchDown ignored data rounds i = .error (.outside (2 ^ 32 - 1))) ∨
      ((i % 3 ≠ 2 ∨ ∃ q, CodeAt ignored data q) ∧
        ∃ r, searchDown ignored data rounds i = .ok r ∧ LastOf (CodeAt ignored data) r) := by
  intro rounds
  induction rounds with
  | zero => exact fun i hrounds => by omega
  | succ rounds ih =>
    intro i hrounds hi habove
    rw [searchDown]
    split
    next h2 =>
      rw [examineDown_eq h2 hi]
      cases hfind : examine ignored data i with
      | some p =>
        obtain ⟨hcode, hlo, hhi⟩ := examine_some h2 hi hfind
        refine Or.inr ⟨Or.inr ⟨p, hcode⟩, some p, rfl, hcode, fun q hq hcode' => ?_⟩
        rcases Nat.lt_or_ge i q with h | h
        · exact habove q h hcode'
        · rw [examine_codeAt h2 (by omega) h hcode'] at hfind
          exact absurd (Option.some.inj hfind) (by omega)
      | none =>
        have hbody : ∀ q, i - 2 ≤ q → ¬ CodeAt ignored data q := fun q hq hcode => by
          rcases Nat.lt_or_ge i q with h | h
          · exact habove q h hcode
          · rw [examine_codeAt h2 hq h hcode] at hfind
            cases hfind
        by_cases hlast : i = 2
        · -- the index wraps
          refine Or.inl ⟨by omega, fun q => hbody q (by omega), ?_⟩
          obtain ⟨rounds, rfl⟩ : ∃ m, rounds = m + 1 := ⟨rounds - 1, by omega⟩
          rw [hlast, show (2 + 2 ^ 32 - 3) % 2 ^ 32 = 2 ^ 32 - 1 from rfl, searchDown, if_pos (by omega),
            examineDown_outside (by omega)]
          rfl
        · rw [show (i + 2 ^ 32 - 3) % 2 ^ 32 = i - 3 by omega]
          have := ih (i - 3) (by omega) (by omega) fun q hq => hbody q (by omega)
          rwa [show (i - 3) % 3 = i % 3 by omega] at this
    next h2 =>
      refine Or.inr ⟨Or.inl (by omega), searchLowest_spec (by omega) fun q hq => habove q (by omega)⟩

theorem findPreviousStartCode_cases {lower upper : UInt8} (h4 : 4 ≤ data.length) (hlen : data.length < 2 ^ 32) :
    (data.length % 3 = 0 ∧ (∀ q, ¬ CodeAt (fun b => inrange b lower upper) data q) ∧
      findPreviousStartCode lower upper data = .error (.outside (2 ^ 32 - 1))) ∨
    ((data.length % 3 ≠ 0 ∨ ∃ q, CodeAt (fun b => inrange b lower upper) data q) ∧
      ∃ r, findPreviousStartCode lower upper data = .ok r ∧
        LastOf (CodeAt (fun b => inrange b lower upper) data) r) := by
  have hcases := @searchDown_spec (fun b => inrange b lower upper) data hlen (data.length + 1)
    (data.length - 4) (by omega) (by omega) fun q hq hcode => by
      have := hcode.1
      omega
  unfold findPreviousStartCode
  rw [if_neg (by omega)]
  exact hcases.imp (And.imp_left fun h => by omega) (And.imp_left (Or.imp_left fun h => by omega))

end

/-- **The backward search is exact and stays in the data if and only if** the length of the data is not a
multiple of three or a start code that is not to be ignored lies in the data: it then ends with the offset of
the last one. -/
theorem findPreviousStartCode_exact_iff (lower upper : UInt8) (data : List UInt8) (h4 : 4 ≤ data.length)
    (hlen : data.length < 2 ^ 32) :
    (∃ r, findPreviousStartCode lower upper data = .ok r ∧
      LastOf (CodeAt (fun b => inrange b lower upper) data) r) ↔
    data.length % 3 ≠ 0 ∨ ∃ p, CodeAt (fun b => inrange b lower upper) data p := by
  rcases findPreviousStartCode_cases h4 hlen with ⟨hmod, hno, herror⟩ | ⟨hcond, hok⟩
  · constructor
    · rintro ⟨r, hr, -⟩
      rw [herror] at hr
      cases hr
    · rintro (hne | ⟨p, hcode⟩)
      · exact absurd hmod hne
      · exact absurd hcode (hno p)
  · exact ⟨fun _ => hcond, fun _ => hok⟩

theorem findPreviousStartCode_exact_iff_seven :
    ∃ r, findPreviousStartCode 0xbd 0xbd [0, 0, 1, 0xe0, 0, 0, 1] = .ok r ∧
      LastOf (CodeAt (fun b => inrange b 0xbd 0xbd) [0, 0, 1, 0xe0, 0, 0, 1]) r :=
  (findPreviousStartCode_exact_iff 0xbd 0xbd [0, 0, 1, 0xe0, 0, 0, 1] (by decide) (by decide)).mpr
    (Or.inl (by decide))

theorem not_findPreviousStartCode_exact :
    ¬ ∀ (lower upper : UInt8) (data : List UInt8), 4 ≤ data.length → data.length < 2 ^ 32 →
      ∃ r, findPreviousStartCode lower upper data = .ok r ∧
        LastOf (CodeAt (fun b => inrange b lower upper) data) r := by
  intro hall
  obtain ⟨r, hr, -⟩ := hall 0xbd 0xbd [9, 9, 9, 9, 9, 9] (by decide) (by decide)
  have : findPreviousStartCode 0xbd 0xbd [9, 9, 9, 9, 9, 9] = .error (.outside (2 ^ 32 - 1)) := by decide +kernel
  cases hr

end Player2
