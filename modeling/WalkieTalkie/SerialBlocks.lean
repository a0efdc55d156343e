import Mathlib.Data.List.OfFn
import Mathlib.Tactic.Common

/-!
# Blocks of a fixed length laid end to end

A stream cut into blocks of `n` items. Position `n * k + j` of the stream is position
`j` of block `k`.
-/
namespace WalkieTalkie

variable {n : ℕ} {α β : Type*}

def serial (bs : List (Fin n → α)) : List α := bs.flatMap List.ofFn

@[simp] theorem serial_nil : serial ([] : List (Fin n → α)) = [] := rfl

@[simp] theorem serial_append (bs cs : List (Fin n → α)) :
    serial (bs ++ cs) = serial bs ++ serial cs := List.flatMap_append

@[simp] theorem serial_singleton (b : Fin n → α) : serial [b] = List.ofFn b := by
  simp [serial]

@[simp] theorem length_serial (bs : List (Fin n → α)) : (serial bs).length = n * bs.length := by
  induction bs with
  | nil => simp
  | cons b bs ih =>
    simp only [serial, List.flatMap_cons, List.length_append, List.length_ofFn,
      List.length_cons] at ih ⊢
    rw [ih, Nat.mul_succ, Nat.add_comm]

theorem serial_map (f : α → β) (bs : List (Fin n → α)) :
    serial (bs.map fun b i => f (b i)) = (serial bs).map f := by
  induction bs with
  | nil => rfl
  | cons b bs ih =>
    simp only [serial, List.map_cons, List.flatMap_cons, List.map_append] at ih ⊢
    rw [ih, List.map_ofFn]
    rfl

theorem serial_prefix {bs cs : List (Fin n → α)} (h : bs <+: cs) : serial bs <+: serial cs := by
  obtain ⟨ds, rfl⟩ := h
  exact ⟨serial ds, (serial_append bs ds).symm⟩

theorem getElem?_serial {bs : List (Fin n → α)} {k : ℕ} (hk : k < bs.length) (j : Fin n) :
    (serial bs)[n * k + j]? = some (bs[k] j) := by
  induction bs generalizing k with
  | nil => simp at hk
  | cons b bs ih =>
    cases k with
    | zero => simp [serial, List.getElem?_append_left]
    | succ k =>
      have hk' : k < bs.length := by simpa using hk
      have hle : (List.ofFn b).length ≤ n * (k + 1) + j := by
        simp only [List.length_ofFn, Nat.mul_succ]
        omega
      have hsub : n * (k + 1) + j - (List.ofFn b).length = n * k + j := by
        simp only [List.length_ofFn, Nat.mul_succ]
        omega
      simp only [serial, List.flatMap_cons, List.getElem_cons_succ]
      rw [List.getElem?_append_right hle, hsub]
      exact ih hk'

/-- One more item of block `k` extends a prefix that ends inside it. -/
theorem take_serial_succ {bs : List (Fin n → α)} {k : ℕ} (hk : k < bs.length) (j : Fin n) :
    (serial bs).take (n * k + j + 1) = (serial bs).take (n * k + j) ++ [bs[k] j] := by
  rw [List.take_add_one, getElem?_serial hk j]
  rfl

/-- A block is taken item by item. -/
theorem take_ofFn_succ (b : Fin n → α) (j : Fin n) :
    (List.ofFn b).take (j + 1) = (List.ofFn b).take j ++ [b j] := by
  simpa using @take_serial_succ n α [b] 0 (by simp) j

theorem take_ofFn_congr {b c : Fin n → α} {l : ℕ} (h : ∀ i : Fin n, (i : ℕ) < l → b i = c i) :
    (List.ofFn b).take l = (List.ofFn c).take l := by
  apply List.ext_getElem (by simp)
  intro i hb hc
  simp only [List.length_take, List.length_ofFn] at hb
  obtain ⟨hl, hn⟩ := Nat.lt_min.mp hb
  simpa using h ⟨i, hn⟩ hl

/-- One more item copied into a block. -/
theorem update_eq_of_lt_succ {b c : Fin n → α} {i : Fin n}
    (h : ∀ j : Fin n, (j : ℕ) < i → b j = c j) (j : Fin n) (hj : (j : ℕ) < i + 1) :
    Function.update b i (c i) j = c j := by
  by_cases hji : j = i
  · rw [hji, Function.update_self]
  · have hlt : (j : ℕ) < i := by
      have := Fin.val_ne_of_ne hji
      omega
    rw [Function.update_of_ne hji]
    exact h j hlt

/-- More blocks behind do not change a prefix that ends before them. -/
theorem take_serial_append {bs cs : List (Fin n → α)} {l : ℕ} (h : l ≤ n * bs.length) :
    (serial (bs ++ cs)).take l = (serial bs).take l := by
  rw [serial_append, List.take_append_of_le_length (by simpa using h)]

end WalkieTalkie
