import Mathlib.Tactic.SplitIfs

/-!
# Triples for stateful computations that may be refused

From every state of its precondition the computation goes through, and its result and the
state it leaves meet the postcondition.
-/
namespace WalkieTalkie.StateTriples

variable {σ α β : Type} {P P' : σ → Prop} {f : StateT σ Option α} {Q Q' : α → σ → Prop}

def Triple (P : σ → Prop) (f : StateT σ Option α) (Q : α → σ → Prop) : Prop :=
  ∀ s, P s → ∃ a t, f.run s = some (a, t) ∧ Q a t

theorem Triple.pure {a : α} (h : ∀ s, P s → Q a s) : Triple P (pure a) Q :=
  fun s hs => ⟨a, s, rfl, h s hs⟩

theorem Triple.bind {g : α → StateT σ Option β} {R : β → σ → Prop} (hf : Triple P f Q)
    (hg : ∀ a, Triple (Q a) (g a) R) : Triple P (f >>= g) R := by
  intro s hs
  obtain ⟨a, t, hrun, hq⟩ := hf s hs
  obtain ⟨b, u, hrun', hr⟩ := hg a t hq
  exact ⟨b, u, by rw [StateT.run_bind, hrun]; exact hrun', hr⟩

theorem Triple.weaken (hf : Triple P f Q) (hp : ∀ s, P' s → P s) (hq : ∀ a s, Q a s → Q' a s) :
    Triple P' f Q' := by
  intro s hs
  obtain ⟨a, t, hrun, h⟩ := hf s (hp s hs)
  exact ⟨a, t, hrun, hq a t h⟩

theorem Triple.modify {g : σ → σ} {R : PUnit → σ → Prop} (h : ∀ s, P s → R ⟨⟩ (g s)) :
    Triple P (modify g) R :=
  fun s hs => ⟨_, g s, rfl, h s hs⟩

theorem Triple.ite {c : Prop} [Decidable c] {g : StateT σ Option α} (hf : c → Triple P f Q)
    (hg : ¬c → Triple P g Q) : Triple P (if c then f else g) Q := by
  split_ifs with h
  · exact hf h
  · exact hg h

/-- A fact about the start that does not depend on the state. -/
theorem Triple.of_pure {p : Prop} (h : p → Triple P f Q) : Triple (fun s => p ∧ P s) f Q :=
  fun s hs => h hs.1 s hs.2

theorem Triple.of_exists {ι : Type} {P : ι → σ → Prop} (h : ∀ i, Triple (P i) f Q) :
    Triple (fun s => ∃ i, P i s) f Q :=
  fun s ⟨i, hs⟩ => h i s hs

/-- A computation with a known result. -/
theorem Triple.bind_eq {k : α → StateT σ Option β} {R : β → σ → Prop} {a : α} {T : σ → Prop}
    (hf : Triple P f fun r s => r = a ∧ T s) (hk : Triple T (k a) R) : Triple P (f >>= k) R :=
  hf.bind fun _ => Triple.of_pure fun hr => hr ▸ hk

theorem Triple.get_bind {k : σ → StateT σ Option β} {R : β → σ → Prop}
    (h : ∀ s, P s → Triple P (k s) R) : Triple P (get >>= k) R :=
  fun s hs => h s hs s hs

end WalkieTalkie.StateTriples
