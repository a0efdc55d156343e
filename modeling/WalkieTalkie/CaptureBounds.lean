import WalkieTalkie.CaptureSide

/-!
# Channel 0 stays inside its slot

The write address is never checked. It stays inside the slot at the write index because the
transfer count runs out at the slot's end, whatever presses and releases did to the
channel before, as long as no sample follows a trigger chained onto a finished chunk.
-/
namespace WalkieTalkie.CaptureBounds
open PartialRuns

/-- The transfer under way ends at the end of the slot at the latest. -/
structure InSlot (v : CaptureSide) : Prop where
  running : v.mic.busy = true
  lower : chunkSize * (v.dmaWriteInd : ℕ) ≤ v.mic.writeAddr
  upper : v.mic.writeAddr + v.mic.left ≤ chunkSize * (v.dmaWriteInd : ℕ) + chunkSize

structure Bounded (v : CaptureSide) : Prop where
  reload : v.mic.reload = chunkSize
  left_le : v.mic.left ≤ chunkSize
  left_pos : v.mic.busy = true → 0 < v.mic.left
  slot : v.adcOn = true → v.mic.irq = false → InSlot v

/-- A trigger leaves the channel busy with no more than a chunk to go. -/
theorem trigger_left {c : MicChannel} (hr : c.reload = chunkSize) (hl : c.left ≤ chunkSize)
    (hp : c.busy = true → 0 < c.left) : c.trigger.left ≤ chunkSize ∧ 0 < c.trigger.left := by
  cases hb : c.busy with
  | true => simpa [MicChannel.trigger, hb] using ⟨hl, hp hb⟩
  | false => simp [MicChannel.trigger, hb, hr]

theorem setTransCount_left {c : MicChannel} (hl : c.left ≤ chunkSize)
    (hp : c.busy = true → 0 < c.left) : (c.setTransCount chunkSize).left ≤ chunkSize ∧
      0 < (c.setTransCount chunkSize).left :=
  trigger_left (c := { c with reload := chunkSize }) rfl hl hp

theorem Bounded.trigger {v : CaptureSide} (h : Bounded v) :
    Bounded { v with mic := v.mic.trigger } := by
  obtain ⟨hle, hpos⟩ := trigger_left h.reload h.left_le h.left_pos
  refine ⟨by simpa using h.reload, hle, fun _ => hpos, fun ha hi => ?_⟩
  have hs := h.slot ha (by simpa using hi)
  rw [MicChannel.trigger_of_busy hs.running]
  exact hs

theorem Bounded.sample {v : CaptureSide} (h : Bounded v) (ha : v.adcOn = true)
    (hi : v.mic.irq = false) (x : UInt8) : Bounded (v.sample x) := by
  have hs := h.slot ha hi
  have hle := h.left_le
  have hlo := hs.lower
  have hup := hs.upper
  by_cases hlast : v.mic.left ≤ 1
  · have hadv : v.mic.advance =
        { v.mic with writeAddr := v.mic.writeAddr + 1, left := 0, busy := false, irq := true } := by
      rw [MicChannel.advance, if_pos hlast]
    refine ⟨?_, ?_, ?_, ?_⟩ <;> simp [CaptureSide.sample, hadv, h.reload]
  · have hadv : v.mic.advance =
        { v.mic with writeAddr := v.mic.writeAddr + 1, left := v.mic.left - 1 } := by
      rw [MicChannel.advance, if_neg hlast]
    refine ⟨?_, ?_, fun _ => ?_, fun _ _ => ⟨?_, ?_, ?_⟩⟩ <;>
      simp only [CaptureSide.sample, hadv, h.reload, hs.running, chunkSize] at hle hlo hup ⊢ <;>
      omega

theorem Bounded.flagSlot {v : CaptureSide} (h : Bounded v) : Bounded v.flagSlot := by
  obtain ⟨hle, hpos⟩ := setTransCount_left
    (c := { v.mic with irq := false }.setWriteAddr (chunkSize * (v.dmaWriteInd + 1 : TxSlot)))
    h.left_le h.left_pos
  refine ⟨MicChannel.setTransCount_reload _ _, hle, fun _ => hpos, fun _ _ => ⟨?_, ?_, ?_⟩⟩
  · exact MicChannel.setTransCount_busy _ _
  · simp [CaptureSide.flagSlot]
  · simpa [CaptureSide.flagSlot] using hle

theorem Bounded.press {v : CaptureSide} (h : Bounded v) : Bounded v.press := by
  obtain ⟨hle, hpos⟩ := setTransCount_left (c := v.mic.setWriteAddr 0) h.left_le h.left_pos
  refine ⟨MicChannel.setTransCount_reload _ _, hle, fun _ => hpos, fun _ _ => ⟨?_, ?_, ?_⟩⟩
  · exact MicChannel.setTransCount_busy _ _
  · simp [CaptureSide.press]
  · simpa [CaptureSide.press] using hle

theorem Bounded.release {v : CaptureSide} (h : Bounded v) : Bounded v.release :=
  ⟨h.reload, h.left_le, (fun hb => by cases hb), fun ha => by cases ha⟩

/-- No sample goes through channel 0 while DMA_IRQ_0 is pending. -/
def Unchained (s : Cfg Pc) : Event → Prop
  | .env (.sample _) => s.m.mic.irq = false
  | _ => True

instance (s : Cfg Pc) (e : Event) : Decidable (Unchained s e) := by
  induction e using Event.casesOn with
  | main rc => exact isTrue trivial
  | env e => induction e using Env.casesOn <;> unfold Unchained <;> infer_instance

theorem Bounded.effect {pc : Pc} {m : Machine} {e : Env} {v : CaptureSide}
    (h : Bounded m.captureSide) (hu : Unchained ⟨pc, m⟩ (.env e)) (he : CaptureSide.Effect m e v) :
    Bounded v := by
  cases he with
  | quiet => exact h
  | chain => exact h.trigger
  | sample ha => exact h.sample ha hu _
  | flagSlot => exact h.flagSlot
  | press => exact h.press
  | release => exact h.release
  | pressRelease => exact h.press.release

theorem Bounded.step {s t : Cfg Pc} {e : Event} (h : Bounded s.m.captureSide)
    (hu : Unchained s e) (ht : WalkieTalkie.step s e = some t) : Bounded t.m.captureSide := by
  obtain ⟨rc, rfl, rfl⟩ | ⟨f, m, rfl, hf, rfl⟩ := step_cases ht
  · obtain ⟨pc, m⟩ := s
    have hs := h.slot
    cases pc <;> exact ⟨h.reload, h.left_le, h.left_pos, fun ha hi =>
      ⟨(hs ha hi).running, (hs ha hi).lower, (hs ha hi).upper⟩⟩
  · exact h.effect hu (CaptureSide.envStep_effect hf)

theorem bounded_boot : Bounded boot.m.captureSide :=
  ⟨rfl, Nat.zero_le _, (fun hb => by cases hb), fun ha => by cases ha⟩

/-- The next sample has its place in the slot at the write index. -/
theorem InSlot.place {v : CaptureSide} (h : InSlot v) (hp : 0 < v.mic.left) :
    ∃ i : Sample, v.mic.writeAddr = ringAddr v.dmaWriteInd i := by
  have hlo := h.lower
  have hup := h.upper
  have hlt : v.mic.writeAddr - chunkSize * (v.dmaWriteInd : ℕ) < chunkSize := by omega
  refine ⟨⟨_, hlt⟩, ?_⟩
  simp only [ringAddr]
  omega

theorem ringAddr_inj {c d : TxSlot} {i j : Sample} :
    ringAddr c i = ringAddr d j ↔ c = d ∧ i = j := by
  have hi := i.isLt
  have hj := j.isLt
  simp only [ringAddr, chunkSize, Fin.ext_iff] at hi hj ⊢
  omega

/-- In every run in which no sample goes through channel 0 while its interrupt is pending, a
sample changes one byte of the slot at the write index and nothing else of the ring. -/
theorem sample_stays_in_slot {es : List Event} {s t : Cfg Pc} {x : UInt8}
    (hu : Along step Unchained boot es) (hr : run step boot es = some s)
    (hi : s.m.mic.irq = false) (ht : step s (.env (.sample x)) = some t) :
    ∃ i : Sample, s.m.mic.writeAddr = ringAddr s.m.dmaWriteInd i ∧
      t.m.txRing = Function.update s.m.txRing s.m.dmaWriteInd
        (Function.update (s.m.txRing s.m.dmaWriteInd) i x) := by
  have hb : Bounded s.m.captureSide := hu.invariant (fun s => Bounded s.m.captureSide)
    (fun _ _ _ hb hc ht => hb.step hc ht) bounded_boot hr
  obtain ⟨_, hc, _⟩ | ⟨_, m, hc, hf, rfl⟩ := step_cases ht <;> cases hc
  simp only [envStep, Machine.micSample] at hf
  split_ifs at hf with hon
  obtain ⟨i, ha⟩ := (hb.slot hon.1 hi).place (hb.left_pos hon.2)
  refine ⟨i, ha, ?_⟩
  cases hf
  funext c j
  have hadr : chunkSize * (c : ℕ) + (j : ℕ) = s.m.mic.writeAddr ↔ c = s.m.dmaWriteInd ∧ j = i := by
    rw [show s.m.mic.writeAddr = ringAddr s.m.dmaWriteInd i from ha]
    exact ringAddr_inj
  simp only [hadr]
  by_cases hcs : c = s.m.dmaWriteInd
  · subst hcs
    by_cases hji : j = i <;> simp [hji]
  · simp [hcs]

/-- Two sessions, the second press in the middle of a chunk. -/
def pressInChunk : List Event :=
  mains 6 ++ button 100000 ++ samples 60 ++ [.env .micIrq] ++ samples 20 ++ button 200000 ++
    button 300000 ++ samples 59

def pressInChunkEnd : Cfg Pc := ends step boot pressInChunk (by decide +kernel)

def pressInChunkNext : Cfg Pc :=
  ends step pressInChunkEnd [Event.env (.sample 7)] (by decide +kernel)

theorem sample_stays_in_slot_last : ∃ i : Sample,
    pressInChunkEnd.m.mic.writeAddr = ringAddr pressInChunkEnd.m.dmaWriteInd i ∧
      pressInChunkNext.m.txRing = Function.update pressInChunkEnd.m.txRing
        pressInChunkEnd.m.dmaWriteInd
        (Function.update (pressInChunkEnd.m.txRing pressInChunkEnd.m.dmaWriteInd) i 7) :=
  sample_stays_in_slot (by decide +kernel) (run_ends _) (by decide +kernel)
    (t := pressInChunkNext) ((run_singleton _ _).symm.trans (run_ends _))

/-- A transfer of channel 1 ends between the last sample of the last slot and the microphone
handler, and a sample follows. -/
def chainedAtRingEnd : List Event :=
  mains 6 ++ [.env (.payload (List.replicate chunkSize 7)), .env (.radioIrq .payloadReady)] ++
    mains 74 ++ [.env .spkTransfer] ++ button 100000 ++ [.env .spkIrq] ++
    (List.replicate 7 (samples 60 ++ [Event.env .micIrq])).flatten ++ samples 60 ++ [.env .spkTransfer]

/-- The sample is written behind the end of `tx_ring`. -/
theorem chained_sample_leaves_ring : ∃ s, run step boot chainedAtRingEnd = some s ∧
    s.m.adcOn = true ∧ s.m.mic.busy = true ∧ s.m.mic.writeAddr = chunkSize * txRingChunks :=
  exists_of_run_any (by decide +kernel)

end WalkieTalkie.CaptureBounds
