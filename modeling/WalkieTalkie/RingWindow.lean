import Mathlib.Data.Fin.Basic
import Mathlib.Data.List.Basic
import Mathlib.Data.Nat.ModEq
import Mathlib.Logic.Function.Basic
import Mathlib.Tactic.Common

/-!
# A ring of flagged slots as a window on a numbered stream

The abstract object is a stream of items and the number of items already taken from
it. A ring of `N` slots shows the items not yet taken: item `k` sits in slot `k mod N`,
the flag of a slot says that it shows an item, and the two indices are the numbers of
the next item to take and to write. Writing and taking move the window by one.
-/
namespace WalkieTalkie

variable {N : ℕ} [NeZero N] {α : Type*}

namespace RingWindow

theorem slot_succ (k : ℕ) : Fin.ofNat N (k + 1) = Fin.ofNat N k + 1 := by
  apply Fin.ext
  simp [Fin.val_add, Fin.ofNat]

theorem slot_add (a b : ℕ) : Fin.ofNat N (a + b) = Fin.ofNat N a + Fin.ofNat N b := by
  apply Fin.ext
  simp [Fin.val_add, Fin.ofNat]

theorem slot_add_size (k : ℕ) : Fin.ofNat N (k + N) = Fin.ofNat N k := by
  apply Fin.ext
  simp [Fin.ofNat]

/-- Items less than `N` apart have different slots. -/
theorem eq_of_slot_eq {a b : ℕ} (hab : a ≤ b) (hb : b < a + N)
    (h : Fin.ofNat N a = Fin.ofNat N b) : a = b := by
  have hm : a % N = b % N := congrArg Fin.val h
  have hd : N ∣ b - a := (Nat.modEq_iff_dvd' hab).mp hm
  have hz := Nat.eq_zero_of_dvd_of_lt hd (by omega)
  omega

/-- The flags are up exactly on the cyclic interval from `rd` up to `wr`. -/
def CyclicInterval (ready : Fin N → Bool) (rd wr : Fin N) : Prop :=
  ∃ n ≤ N, wr = rd + Fin.ofNat N n ∧
    ∀ i, ready i = true ↔ ∃ k < n, i = rd + Fin.ofNat N k

/-- The flags that are up are those of the slots numbered `taken` up to `up`. -/
def Numbered (ready : Fin N → Bool) (taken up : ℕ) : Prop :=
  ∀ i, ready i = true ↔ ∃ k, taken ≤ k ∧ k < up ∧ Fin.ofNat N k = i

namespace Numbered

variable {ready : Fin N → Bool} {taken up : ℕ}

theorem first (h : Numbered ready taken up) : ready (Fin.ofNat N taken) = true ↔ taken < up := by
  rw [h]
  constructor
  · rintro ⟨k, hk, hl, _⟩
    omega
  · intro ht
    exact ⟨taken, Nat.le_refl _, ht, rfl⟩

/-- Raising the next flag. -/
theorem push (h : Numbered ready taken up) (hle : taken ≤ up) :
    Numbered (Function.update ready (Fin.ofNat N up) true) taken (up + 1) := by
  intro i
  by_cases hi : i = Fin.ofNat N up
  · rw [hi, Function.update_self]
    simp only [true_iff]
    exact ⟨up, hle, Nat.lt_succ_self _, rfl⟩
  · rw [Function.update_of_ne hi, h i]
    constructor
    · rintro ⟨k, hk, hl, he⟩
      exact ⟨k, hk, by omega, he⟩
    · rintro ⟨k, hk, hl, he⟩
      have hne : k ≠ up := by
        rintro rfl
        exact hi he.symm
      exact ⟨k, hk, by omega, he⟩

/-- Lowering the first flag. -/
theorem pop (h : Numbered ready taken up) (hroom : up ≤ taken + N) :
    Numbered (Function.update ready (Fin.ofNat N taken) false) (taken + 1) up := by
  intro i
  by_cases hi : i = Fin.ofNat N taken
  · rw [hi, Function.update_self]
    simp only [Bool.false_eq_true, false_iff]
    rintro ⟨k, hk, hl, he⟩
    have := eq_of_slot_eq (by omega) (by omega) he.symm
    omega
  · rw [Function.update_of_ne hi, h i]
    constructor
    · rintro ⟨k, hk, hl, he⟩
      have hne : k ≠ taken := by
        rintro rfl
        exact hi he.symm
      exact ⟨k, by omega, hl, he⟩
    · rintro ⟨k, hk, hl, he⟩
      exact ⟨k, by omega, hl, he⟩

end Numbered

end RingWindow

open RingWindow

/-- The ring shows the items of the stream from number `taken` on. -/
structure RingWindow (slot : Fin N → α) (ready : Fin N → Bool) (rd wr : Fin N)
    (items : List α) (taken : ℕ) : Prop where
  taken_le : taken ≤ items.length
  room : items.length ≤ taken + N
  read : rd = Fin.ofNat N taken
  write : wr = Fin.ofNat N items.length
  ready_iff : ∀ i, ready i = true ↔ ∃ k, taken ≤ k ∧ k < items.length ∧ Fin.ofNat N k = i
  content : ∀ k (h : k < items.length), taken ≤ k → slot (Fin.ofNat N k) = items[k]

namespace RingWindow

variable {slot slot' : Fin N → α} {ready : Fin N → Bool} {rd wr : Fin N} {items : List α}
  {taken : ℕ}

theorem empty (slot : Fin N → α) : RingWindow slot (fun _ => false) 0 0 [] 0 where
  taken_le := Nat.le_refl _
  room := Nat.zero_le _
  read := rfl
  write := rfl
  ready_iff i := by simp
  content k h := by simp at h

theorem ready_read (h : RingWindow slot ready rd wr items taken) :
    ready rd = true ↔ taken < items.length := by
  rw [h.read]
  exact Numbered.first h.ready_iff

theorem lt_of_write_clear (h : RingWindow slot ready rd wr items taken) (hw : ready wr = false) :
    items.length < taken + N := by
  have hN := Nat.pos_of_ne_zero (NeZero.ne N)
  have hr := h.room
  by_contra hc
  have he : items.length = taken + N := by omega
  have hrw : wr = rd := by
    rw [h.write, h.read, he]
    apply Fin.ext
    simp [Fin.ofNat]
  rw [hrw] at hw
  have ht := h.ready_read.mpr (by omega)
  simp [hw] at ht

theorem content_read (h : RingWindow slot ready rd wr items taken) (ht : taken < items.length) :
    slot rd = items[taken] := by
  rw [h.read]
  exact h.content taken ht (Nat.le_refl _)

/-- Slots that show no item may change. -/
theorem congr_slot (h : RingWindow slot ready rd wr items taken)
    (hs : ∀ i, ready i = true → slot' i = slot i) :
    RingWindow slot' ready rd wr items taken where
  taken_le := h.taken_le
  room := h.room
  read := h.read
  write := h.write
  ready_iff := h.ready_iff
  content k hk ht := by
    rw [hs _ ((h.ready_iff _).mpr ⟨k, ht, hk, rfl⟩)]
    exact h.content k hk ht

/-- Flagging the free slot at the write index writes its content to the stream. -/
theorem push (h : RingWindow slot ready rd wr items taken) (hw : ready wr = false) :
    RingWindow slot (Function.update ready wr true) rd (wr + 1) (items ++ [slot wr]) taken := by
  have hlt := h.lt_of_write_clear hw
  have hle := h.taken_le
  refine ⟨by simp; omega, by simp; omega, h.read, ?_, ?_, ?_⟩
  · rw [List.length_append, List.length_singleton, slot_succ, h.write]
  · rw [List.length_append, List.length_singleton, h.write]
    exact Numbered.push h.ready_iff hle
  · intro k hk ht
    simp only [List.length_append, List.length_singleton] at hk
    by_cases hl : k < items.length
    · rw [List.getElem_append_left hl]
      exact h.content k hl ht
    · have he : k = items.length := by omega
      subst he
      simp [h.write]

/-- Clearing the flag at the read index takes the oldest item. -/
theorem pop (h : RingWindow slot ready rd wr items taken) (ht : taken < items.length) :
    RingWindow slot (Function.update ready rd false) (rd + 1) wr items (taken + 1) := by
  have hr := h.room
  refine ⟨ht, by omega, by rw [slot_succ, h.read], h.write, ?_, ?_⟩
  · rw [h.read]
    exact Numbered.pop h.ready_iff h.room
  · intro k hk htk
    exact h.content k hk (by omega)

theorem cyclicInterval (h : RingWindow slot ready rd wr items taken) :
    CyclicInterval ready rd wr := by
  have hle := h.taken_le
  have hr := h.room
  refine ⟨items.length - taken, by omega, ?_, fun i => ?_⟩
  · rw [h.write, h.read, ← slot_add]
    congr
    omega
  · rw [h.ready_iff, h.read]
    constructor
    · rintro ⟨k, hk, hl, rfl⟩
      refine ⟨k - taken, by omega, ?_⟩
      rw [← slot_add]
      congr
      omega
    · rintro ⟨k, hk, rfl⟩
      exact ⟨taken + k, by omega, by omega, slot_add _ _⟩

end RingWindow

end WalkieTalkie
