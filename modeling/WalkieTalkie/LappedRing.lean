import WalkieTalkie.RingWindow
import Mathlib.Algebra.Group.Fin.Basic
import Mathlib.Data.Finset.Card
import Mathlib.Data.Fintype.Basic

/-!
# A ring of flags whose writer does not look

The writer flags the slot at its index whether or not it is flagged already, so it may run
past the end of the flags that are up. The flags are numbered from `rd` up to `up`; the
writer stands at `wr`, somewhere in that range, and at its end as long as it has overwritten
nothing. Even where the reader passes the writer, the distance of the two indices tells how
many items have been overwritten.
-/
namespace WalkieTalkie

open RingWindow

variable {N : ℕ} [NeZero N]

/-- The flags numbered `taken` up to `up` are up, and the write index is number `write`. -/
structure LappedRing (ready : Fin N → Bool) (rd wr : Fin N) (taken write up : ℕ) : Prop where
  taken_le : taken ≤ write
  write_le : write ≤ up
  room : up ≤ taken + N
  read_eq : rd = Fin.ofNat N taken
  write_eq : wr = Fin.ofNat N write
  numbered : Numbered ready taken up

namespace LappedRing

variable {ready : Fin N → Bool} {rd wr : Fin N} {taken write up : ℕ}

theorem empty : LappedRing (fun _ : Fin N => false) 0 0 0 0 0 where
  taken_le := Nat.le_refl _
  write_le := Nat.le_refl _
  room := Nat.zero_le _
  read_eq := rfl
  write_eq := rfl
  numbered i := by simp

theorem ready_read (h : LappedRing ready rd wr taken write up) : ready rd = true ↔ taken < up := by
  rw [h.read_eq]
  exact h.numbered.first

theorem ready_eq_false (h : LappedRing ready rd wr taken taken taken) (i : Fin N) :
    ready i = false := by
  rw [← Bool.not_eq_true, h.numbered i]
  rintro ⟨k, hk, hl, _⟩
  omega

/-- All flags are up only if as many are numbered as there are slots. -/
theorem up_eq_of_full (h : LappedRing ready rd wr taken write up) (hf : ∀ i, ready i = true) :
    up = taken + N := by
  have hroom := h.room
  by_contra hc
  obtain ⟨k, hk, hl, he⟩ := (h.numbered _).mp (hf (Fin.ofNat N up))
  have := eq_of_slot_eq (by omega) (by omega) he
  omega

/-- Flagging a slot that is flagged already. -/
theorem overwrite (h : LappedRing ready rd wr taken write up) (hw : write < up) :
    LappedRing (Function.update ready wr true) rd (wr + 1) taken (write + 1) up := by
  have hle := h.taken_le
  have hr : ready wr = true := (h.numbered _).mpr ⟨write, hle, hw, h.write_eq.symm⟩
  have hsame : Function.update ready wr true = ready := by rw [← hr, Function.update_eq_self]
  rw [hsame]
  exact ⟨by omega, hw, h.room, h.read_eq, by rw [slot_succ, h.write_eq], h.numbered⟩

/-- A full ring whose writer stands at the end of the flags is one whose writer stands at
their beginning. -/
theorem wrap (h : LappedRing ready rd wr taken (taken + N) (taken + N)) :
    LappedRing ready rd wr taken taken (taken + N) :=
  ⟨Nat.le_refl _, Nat.le_add_right _ _, Nat.le_refl _, h.read_eq,
    h.write_eq.trans (slot_add_size _), h.numbered⟩

theorem unwrap (h : LappedRing ready rd wr taken taken (taken + N)) :
    LappedRing ready rd wr taken (taken + N) (taken + N) :=
  ⟨Nat.le_add_right _ _, Nat.le_refl _, Nat.le_refl _, h.read_eq,
    h.write_eq.trans (slot_add_size _).symm, h.numbered⟩

/-- Flagging the first slot after the flags that are up. -/
theorem push (h : LappedRing ready rd wr taken up up) (hw : up < taken + N) :
    LappedRing (Function.update ready wr true) rd (wr + 1) taken (up + 1) (up + 1) := by
  have hle := h.taken_le
  refine ⟨by omega, Nat.le_refl _, hw, h.read_eq, by rw [slot_succ, h.write_eq], ?_⟩
  rw [h.write_eq]
  exact h.numbered.push hle

/-- The writer flags a slot and moves on; if no flag was up, exactly this one is. -/
theorem publish (h : LappedRing ready rd wr taken write up) : ∃ write' up',
    LappedRing (Function.update ready wr true) rd (wr + 1) taken write' up' ∧ taken < up' ∧
      (taken = up → write' = taken + 1 ∧ up' = taken + 1) := by
  have hN := Nat.pos_of_ne_zero (NeZero.ne N)
  have hle := h.taken_le
  have hup := h.write_le
  have hroom := h.room
  by_cases hw : write < up
  · exact ⟨write + 1, up, h.overwrite hw, by omega, fun he => by omega⟩
  · obtain rfl : write = up := by omega
    by_cases hf : write < taken + N
    · exact ⟨write + 1, write + 1, h.push hf, by omega, fun he => by omega⟩
    · obtain rfl : write = taken + N := by omega
      exact ⟨taken + 1, taken + N, h.wrap.overwrite (by omega), by omega, fun he => by omega⟩

/-- Lowering the flag at the read index, with the writer further on. -/
theorem pop (h : LappedRing ready rd wr taken write up) (hw : taken < write) :
    LappedRing (Function.update ready rd false) (rd + 1) wr (taken + 1) write up := by
  have hroom := h.room
  refine ⟨hw, h.write_le, by omega, by rw [slot_succ, h.read_eq], h.write_eq, ?_⟩
  rw [h.read_eq]
  exact h.numbered.pop hroom

/-- The reader lowers the flag at its index and moves on. It would pass the writer if it found
the writer there, unless the whole ring is flagged. -/
theorem finish (h : LappedRing ready rd wr taken write up)
    (hf : wr = rd → ∀ i, ready i = true) : ∃ write',
    LappedRing (Function.update ready rd false) (rd + 1) wr (taken + 1) write' up := by
  have hN := Nat.pos_of_ne_zero (NeZero.ne N)
  have hle := h.taken_le
  by_cases hw : taken < write
  · exact ⟨write, h.pop hw⟩
  · obtain rfl : write = taken := by omega
    obtain rfl := h.up_eq_of_full (hf (h.write_eq.trans h.read_eq.symm))
    exact ⟨write + N, h.unwrap.pop (by omega)⟩

end LappedRing

/-- How many flags are up. -/
def raised (ready : Fin N → Bool) : ℕ := (Finset.univ.filter fun i => ready i = true).card

omit [NeZero N] in
theorem raised_raise {ready : Fin N → Bool} {i : Fin N} (h : ready i = false) :
    raised (Function.update ready i true) = raised ready + 1 := by
  have hset : (Finset.univ.filter fun j => Function.update ready i true j = true) =
      insert i (Finset.univ.filter fun j => ready j = true) := by
    ext j
    by_cases hj : j = i
    · simp [hj]
    · simp [hj]
  rw [raised, raised, hset, Finset.card_insert_of_notMem]
  simp [h]

omit [NeZero N] in
theorem raised_lower {ready : Fin N → Bool} {i : Fin N} (h : ready i = true) :
    raised ready = raised (Function.update ready i false) + 1 := by
  rw [← raised_raise (Function.update_self i false ready), Function.update_idem, ← h,
    Function.update_eq_self]

/-- The writer is ahead of the reader by the flags that are up and the items overwritten. -/
def Apart (ready : Fin N → Bool) (rd wr : Fin N) (overwritten : ℕ) : Prop :=
  wr = rd + Fin.ofNat N (raised ready + overwritten)

namespace Apart

variable {ready : Fin N → Bool} {rd wr : Fin N} {overwritten : ℕ}

theorem empty : Apart (fun _ : Fin N => false) 0 0 0 := by
  simp [Apart, raised]

theorem push (h : Apart ready rd wr overwritten) (hf : ready wr = false) :
    Apart (Function.update ready wr true) rd (wr + 1) overwritten := by
  rw [Apart, raised_raise hf, Nat.add_right_comm, slot_succ, ← add_assoc, ← h]

theorem overwrite (h : Apart ready rd wr overwritten) (hf : ready wr = true) :
    Apart (Function.update ready wr true) rd (wr + 1) (overwritten + 1) := by
  have hsame : Function.update ready wr true = ready := by rw [← hf, Function.update_eq_self]
  rw [Apart, hsame, ← Nat.add_assoc, slot_succ, ← add_assoc, ← h]

theorem pop (h : Apart ready rd wr overwritten) (hf : ready rd = true) :
    Apart (Function.update ready rd false) (rd + 1) wr overwritten := by
  rw [Apart, raised_lower hf, Nat.add_right_comm, slot_succ] at h
  rw [Apart, h, add_assoc, add_comm 1]

end Apart

/-- Each slot carries the number of the item last written to it, of the items numbered below
`written` that were written slot after slot. -/
structure LastWritten (carried : Fin N → Option ℕ) (written : ℕ) : Prop where
  lt : ∀ {i n}, carried i = some n → n < written
  recent : ∀ {i n}, carried i = some n → written ≤ n + N
  slot : ∀ {i n}, carried i = some n → Fin.ofNat N n = i

namespace LastWritten

variable {carried : Fin N → Option ℕ} {written : ℕ}

theorem empty : LastWritten (fun _ : Fin N => none) 0 where
  lt h := by cases h
  recent h := by cases h
  slot h := by cases h

theorem write (h : LastWritten carried written) :
    LastWritten (Function.update carried (Fin.ofNat N written) (some written)) (written + 1) := by
  have hN := Nat.pos_of_ne_zero (NeZero.ne N)
  have key : ∀ {i n}, Function.update carried (Fin.ofNat N written) (some written) i = some n →
      n < written + 1 ∧ written + 1 ≤ n + N ∧ Fin.ofNat N n = i := by
    intro i n hn
    by_cases hi : i = Fin.ofNat N written
    · rw [hi, Function.update_self] at hn
      cases hn
      exact ⟨Nat.lt_succ_self _, by omega, hi.symm⟩
    · rw [Function.update_of_ne hi] at hn
      have hlt := h.lt hn
      have hrec := h.recent hn
      have hslot := h.slot hn
      have hne : written ≠ n + N := by
        rintro rfl
        exact hi (by rw [slot_add_size, hslot])
      exact ⟨by omega, by omega, hslot⟩
  exact ⟨fun hn => (key hn).1, fun hn => (key hn).2.1, fun hn => (key hn).2.2⟩

end LastWritten

/-- The slot after that of `n` carries a later number, or the one that is a lap behind. -/
theorem later_or_lapped {n k : ℕ} (hslot : Fin.ofNat N k = Fin.ofNat N (n + 1))
    (hlt : n < k + N) : n < k ∨ k + N = n + 1 := by
  by_contra hc
  have := eq_of_slot_eq (by omega) (by omega) hslot
  omega

end WalkieTalkie
