import Mathlib.Logic.Function.Iterate
import Mathlib.Tactic.Common

/-!
# The cells of a window in reading order

A rectangle of cells numbered row by row, and a pointer that steps from cell to cell and
starts again after the last one. As many writes as there are cells fill the window, and
nothing else, from whichever contents.
-/
namespace WalkieTalkie

structure PixelWindow where
  x₀ : ℕ
  x₁ : ℕ
  y₀ : ℕ
  y₁ : ℕ

namespace PixelWindow

variable {α : Type*} (q : PixelWindow)

structure Proper : Prop where
  columns : q.x₀ ≤ q.x₁
  rows : q.y₀ ≤ q.y₁

def width : ℕ := q.x₁ - q.x₀ + 1

def height : ℕ := q.y₁ - q.y₀ + 1

def cell (n : ℕ) : ℕ × ℕ := (q.x₀ + n % q.width, q.y₀ + n / q.width % q.height)

def next (c : ℕ × ℕ) : ℕ × ℕ :=
  if c.1 < q.x₁ then (c.1 + 1, c.2) else (q.x₀, if c.2 < q.y₁ then c.2 + 1 else q.y₀)

/-- One write at the pointer. -/
def write (v : α) (s : (ℕ × ℕ) × (ℕ × ℕ → α)) : (ℕ × ℕ) × (ℕ × ℕ → α) :=
  (q.next s.1, Function.update s.2 s.1 v)

variable {q}

theorem succ_mod_eq (n m : ℕ) :
    (n + 1) % (m + 1) = if n % (m + 1) < m then n % (m + 1) + 1 else 0 := by
  have hlt : n % (m + 1) < m + 1 := Nat.mod_lt n (Nat.succ_pos m)
  have hsplit : (n + 1) % (m + 1) = (n % (m + 1) + 1) % (m + 1) := by
    rw [Nat.mod_add_mod]
  rw [hsplit]
  split_ifs with h
  · exact Nat.mod_eq_of_lt (by omega)
  · have he : n % (m + 1) = m := by omega
    rw [he, Nat.mod_self]

theorem succ_div_eq (n m : ℕ) : (n + 1) / (m + 1) =
    if n % (m + 1) < m then n / (m + 1) else n / (m + 1) + 1 := by
  have hm := succ_mod_eq n m
  split_ifs at hm ⊢ with h
  · refine Nat.succ_div_of_not_dvd fun hd => ?_
    rw [Nat.mod_eq_zero_of_dvd hd] at hm
    omega
  · exact Nat.succ_div_of_dvd (Nat.dvd_of_mod_eq_zero hm)

theorem cell_fst_lt_iff (h : q.Proper) (n : ℕ) :
    (q.cell n).1 < q.x₁ ↔ n % (q.x₁ - q.x₀ + 1) < q.x₁ - q.x₀ := by
  have hx := h.columns
  simp only [cell, width]
  omega

theorem cell_snd_lt_iff (h : q.Proper) (n : ℕ) :
    (q.cell n).2 < q.y₁ ↔ n / q.width % (q.y₁ - q.y₀ + 1) < q.y₁ - q.y₀ := by
  have hy := h.rows
  simp only [cell, height]
  omega

theorem next_cell (h : q.Proper) (n : ℕ) : q.next (q.cell n) = q.cell (n + 1) := by
  have hmod := succ_mod_eq n (q.x₁ - q.x₀)
  have hdiv := succ_div_eq n (q.x₁ - q.x₀)
  by_cases hc : (q.cell n).1 < q.x₁
  · have hlt := (cell_fst_lt_iff h n).mp hc
    rw [if_pos hlt] at hmod hdiv
    rw [next, if_pos hc, cell, cell, width, hmod, hdiv]
    rfl
  · have hlt := fun hl => hc ((cell_fst_lt_iff h n).mpr hl)
    rw [if_neg hlt] at hmod hdiv
    have hrow := succ_mod_eq (n / q.width) (q.y₁ - q.y₀)
    rw [next, if_neg hc]
    by_cases hr : (q.cell n).2 < q.y₁
    · rw [if_pos ((cell_snd_lt_iff h n).mp hr)] at hrow
      rw [if_pos hr, cell, cell, height, width, hmod, hdiv, ← width, hrow]
      rfl
    · rw [if_neg fun hl => hr ((cell_snd_lt_iff h n).mpr hl)] at hrow
      rw [if_neg hr, cell, height, width, hmod, hdiv, ← width, hrow]
      rfl

/-- The numbers below `width * height` reach the cells of the rectangle and no others. -/
theorem exists_cell_iff (h : q.Proper) {x y : ℕ} : (∃ i < q.width * q.height, q.cell i = (x, y)) ↔
    (q.x₀ ≤ x ∧ x ≤ q.x₁) ∧ q.y₀ ≤ y ∧ y ≤ q.y₁ := by
  obtain ⟨hx, hy⟩ := h
  constructor
  · rintro ⟨i, _, hi⟩
    obtain ⟨rfl, rfl⟩ := Prod.ext_iff.mp hi
    have hw : i % q.width < q.x₁ - q.x₀ + 1 := Nat.mod_lt i (Nat.succ_pos _)
    have hh : i / q.width % q.height < q.y₁ - q.y₀ + 1 := Nat.mod_lt _ (Nat.succ_pos _)
    rw [cell]
    omega
  · rintro ⟨⟨hx₀, hx₁⟩, hy₀, hy₁⟩
    have hw : x - q.x₀ < q.width := by
      rw [width]
      omega
    have hh : y - q.y₀ < q.height := by
      rw [height]
      omega
    refine ⟨x - q.x₀ + q.width * (y - q.y₀), ?_, ?_⟩
    · calc x - q.x₀ + q.width * (y - q.y₀) < q.width + q.width * (y - q.y₀) := by omega
        _ = q.width * (y - q.y₀ + 1) := by rw [Nat.mul_add, Nat.mul_one, Nat.add_comm]
        _ ≤ q.width * q.height := Nat.mul_le_mul_left _ hh
    · rw [cell, Nat.add_mul_mod_self_left, Nat.mod_eq_of_lt hw,
        Nat.add_mul_div_left _ _ (Nat.zero_lt_of_lt hw), Nat.div_eq_of_lt hw, Nat.zero_add,
        Nat.mod_eq_of_lt hh]
      exact Prod.ext (Nat.add_sub_cancel' hx₀) (Nat.add_sub_cancel' hy₀)

/-- Writes from cell `k` on: what has been passed is written, the rest is as it was. -/
theorem write_iterate (h : q.Proper) (v : α) (k n : ℕ) (f : ℕ × ℕ → α) : ∃ g,
    (q.write v)^[n] (q.cell k, f) = (q.cell (k + n), g) ∧
      (∀ i, k ≤ i → i < k + n → g (q.cell i) = v) ∧
      ∀ c, (∀ i, k ≤ i → i < k + n → q.cell i ≠ c) → g c = f c := by
  induction n with
  | zero => exact ⟨f, rfl, fun i hk hi => by omega, fun _ _ => rfl⟩
  | succ n ih =>
    obtain ⟨g, hg, hin, hout⟩ := ih
    refine ⟨Function.update g (q.cell (k + n)) v, ?_, ?_, ?_⟩
    · rw [Function.iterate_succ_apply', hg, write, next_cell h]
      rfl
    · intro i hk hi
      by_cases he : q.cell i = q.cell (k + n)
      · rw [he, Function.update_self]
      · have hne : i ≠ k + n := fun hc => he (hc ▸ rfl)
        rw [Function.update_of_ne he]
        exact hin i hk (by omega)
    · intro c hc
      rw [Function.update_of_ne (hc (k + n) (by omega) (by omega)).symm]
      exact hout c fun i hk hi => hc i hk (by omega)

/-- A whole round of writes from the first cell. -/
theorem write_all (h : q.Proper) (v : α) (f : ℕ × ℕ → α) : ∃ g,
    (q.write v)^[q.width * q.height] (q.cell 0, f) = (q.cell (q.width * q.height), g) ∧
      ∀ x y, g (x, y) =
        if (q.x₀ ≤ x ∧ x ≤ q.x₁) ∧ q.y₀ ≤ y ∧ y ≤ q.y₁ then v else f (x, y) := by
  obtain ⟨g, hg, hin, hout⟩ := write_iterate h v 0 (q.width * q.height) f
  rw [Nat.zero_add] at hg hin hout
  refine ⟨g, hg, fun x y => ?_⟩
  split_ifs with hc
  · obtain ⟨i, hi, hcell⟩ := (exists_cell_iff h).mpr hc
    rw [← hcell]
    exact hin i (Nat.zero_le i) hi
  · exact hout _ fun i _ hi he => hc ((exists_cell_iff h).mp ⟨i, hi, he⟩)

end PixelWindow

end WalkieTalkie
