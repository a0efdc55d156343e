import Mathlib.Data.Nat.Notation

/-!
# Fields of a word

The bits `lsb` to `msb` of a word as a mask, reading them and writing them.
-/
namespace WalkieTalkie.BitField

variable {w : ℕ}

def mask (w msb lsb : ℕ) : BitVec w :=
  BitVec.allOnes w <<< lsb &&& ~~~(BitVec.allOnes w <<< (msb + 1))

def get (msb lsb : ℕ) (v : BitVec w) : BitVec w := v &&& mask w msb lsb

def put (msb lsb : ℕ) (old new : BitVec w) : BitVec w :=
  (old &&& ~~~mask w msb lsb) ||| (new &&& mask w msb lsb)

@[simp] theorem getLsbD_mask (msb lsb i : ℕ) :
    (mask w msb lsb).getLsbD i = decide (i < w ∧ lsb ≤ i ∧ i ≤ msb) := by
  by_cases hi : i < w
  · have hm : i < msb + 1 ↔ i ≤ msb := Nat.lt_succ_iff
    by_cases hl : lsb ≤ i <;> simp [mask, hi, hl, hm]
  · simp [mask, hi]

theorem getLsbD_get (msb lsb i : ℕ) (v : BitVec w) :
    (get msb lsb v).getLsbD i = (v.getLsbD i && decide (lsb ≤ i ∧ i ≤ msb)) := by
  rw [get, BitVec.getLsbD_and, getLsbD_mask]
  by_cases hi : i < w
  · simp only [hi, true_and]
  · simp [BitVec.getLsbD_of_ge _ _ (Nat.le_of_not_lt hi)]

theorem getLsbD_put (msb lsb i : ℕ) (old new : BitVec w) :
    (put msb lsb old new).getLsbD i =
      if lsb ≤ i ∧ i ≤ msb then new.getLsbD i else old.getLsbD i := by
  rw [put, BitVec.getLsbD_or, BitVec.getLsbD_and, BitVec.getLsbD_and, BitVec.getLsbD_not,
    getLsbD_mask]
  by_cases hi : i < w
  · by_cases hf : lsb ≤ i ∧ i ≤ msb <;> simp only [hi, hf] <;> simp
  · simp [BitVec.getLsbD_of_ge _ _ (Nat.le_of_not_lt hi)]

@[simp] theorem get_put (msb lsb : ℕ) (old new : BitVec w) :
    get msb lsb (put msb lsb old new) = get msb lsb new := by
  apply BitVec.eq_of_getLsbD_eq
  intro i _
  rw [getLsbD_get, getLsbD_get, getLsbD_put]
  by_cases hf : lsb ≤ i ∧ i ≤ msb <;> simp [hf]

/-- Writing a field leaves every field beside it alone. -/
theorem get_put_of_disjoint {msb lsb msb' lsb' : ℕ} (h : msb < lsb' ∨ msb' < lsb)
    (old new : BitVec w) : get msb' lsb' (put msb lsb old new) = get msb' lsb' old := by
  apply BitVec.eq_of_getLsbD_eq
  intro i _
  rw [getLsbD_get, getLsbD_get, getLsbD_put]
  by_cases hf : lsb' ≤ i ∧ i ≤ msb'
  · rw [if_neg (by omega)]
  · simp [hf]

/-- Writing what a field already holds changes nothing. -/
theorem put_eq_self {msb lsb : ℕ} {old new : BitVec w} (h : get msb lsb old = get msb lsb new) :
    put msb lsb old new = old := by
  apply BitVec.eq_of_getLsbD_eq
  intro i _
  have hb := congrArg (BitVec.getLsbD · i) h
  simp only [getLsbD_get] at hb
  rw [getLsbD_put]
  by_cases hf : lsb ≤ i ∧ i ≤ msb
  · simpa [hf] using hb.symm
  · rw [if_neg hf]

end WalkieTalkie.BitField
