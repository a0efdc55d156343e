import WalkieTalkie.RadioSide

/-!
# The play side: the staged chunks, their flags and channel 1

What the environment can do to the play side is listed once.
-/
namespace WalkieTalkie

structure PlaySide where
  spkStaging : RxSlot → Chunk UInt32
  rxChunkReady : RxSlot → Bool
  spkReadChunkInd : RxSlot
  spkReadPacketInd : Sample
  spk : SpkChannel

def Machine.playSide (m : Machine) : PlaySide :=
  ⟨m.spkStaging, m.rxChunkReady, m.spkReadChunkInd, m.spkReadPacketInd, m.spk⟩

namespace PlaySide

/-- Channel 1 has done its transfer. -/
def transfer (v : PlaySide) : PlaySide :=
  { v with spk := { v.spk with busy := false, irq := true } }

def finishSample (v : PlaySide) : PlaySide :=
  if h : (v.spkReadPacketInd : ℕ) + 1 < chunkSize then
    { v with spkReadPacketInd := ⟨v.spkReadPacketInd + 1, h⟩ }
  else
    { v with
      rxChunkReady := Function.update v.rxChunkReady v.spkReadChunkInd false
      spkReadPacketInd := 0
      spkReadChunkInd := v.spkReadChunkInd + 1 }

def rearmOrDisable (v : PlaySide) : PlaySide :=
  if v.rxChunkReady v.spkReadChunkInd then
    { v with spk := (v.spk.setReadAddr (.staging v.spkReadChunkInd v.spkReadPacketInd)).trigger }
  else { v with spk := v.spk.disable }

/-- The completion interrupt has been served. -/
def serve (v : PlaySide) : PlaySide :=
  { v with spk := { v.spk with irq := false } }.finishSample.rearmOrDisable

def press (v : PlaySide) : PlaySide := { v with spk := v.spk.abort }

def release (v : PlaySide) : PlaySide :=
  { v with spk := { v.spk with
    readAddr := .rxRing v.spkReadChunkInd, ctrl := Machine.releaseCtrlbits &&& ~~~1#32 } }

theorem finishSample_next {v : PlaySide} (h : (v.spkReadPacketInd : ℕ) + 1 < chunkSize) :
    v.finishSample = { v with spkReadPacketInd := ⟨v.spkReadPacketInd + 1, h⟩ } := dif_pos h

theorem finishSample_last {v : PlaySide} (h : ¬ (v.spkReadPacketInd : ℕ) + 1 < chunkSize) :
    v.finishSample = { v with
      rxChunkReady := Function.update v.rxChunkReady v.spkReadChunkInd false
      spkReadPacketInd := 0
      spkReadChunkInd := v.spkReadChunkInd + 1 } := dif_neg h

theorem rearm_of_ready {v : PlaySide} (h : v.rxChunkReady v.spkReadChunkInd = true) :
    v.rearmOrDisable = { v with
      spk := (v.spk.setReadAddr (.staging v.spkReadChunkInd v.spkReadPacketInd)).trigger } :=
  if_pos h

theorem disable_of_empty {v : PlaySide} (h : ¬ v.rxChunkReady v.spkReadChunkInd = true) :
    v.rearmOrDisable = { v with spk := v.spk.disable } := if_neg h

theorem finishSample_playSide (m : Machine) :
    m.finishSample.playSide = m.playSide.finishSample := by
  by_cases h : (m.spkReadPacketInd : ℕ) + 1 < chunkSize
  · rw [Machine.finishSample, dif_pos h]
    exact (finishSample_next (v := m.playSide) h).symm
  · rw [Machine.finishSample, dif_neg h]
    exact (finishSample_last (v := m.playSide) h).symm

theorem rearmOrDisable_playSide (m : Machine) :
    m.rearmOrDisable.playSide = m.playSide.rearmOrDisable := by
  by_cases h : m.rxChunkReady m.spkReadChunkInd = true
  · rw [Machine.rearmOrDisable, if_pos h]
    exact (rearm_of_ready (v := m.playSide) h).symm
  · rw [Machine.rearmOrDisable, if_neg h]
    exact (disable_of_empty (v := m.playSide) h).symm

@[simp] theorem rearmOrDisable_ready (v : PlaySide) :
    v.rearmOrDisable.rxChunkReady = v.rxChunkReady := by
  unfold rearmOrDisable
  split_ifs <;> rfl

@[simp] theorem serve_staging (v : PlaySide) : v.serve.spkStaging = v.spkStaging := by
  unfold serve rearmOrDisable finishSample
  split_ifs <;> rfl

/-- The handler only lowers flags. -/
theorem serve_ready {v : PlaySide} {c : RxSlot} (h : v.rxChunkReady c = false) :
    v.serve.rxChunkReady c = false := by
  rw [serve, rearmOrDisable_ready, finishSample]
  split_ifs
  · exact h
  · by_cases hc : c = v.spkReadChunkInd
    · simp [hc]
    · simpa [Function.update_of_ne hc] using h

/-- Inside a chunk the channel is armed for the next sample of it. -/
theorem serve_next {v : PlaySide} (h : (v.spkReadPacketInd : ℕ) + 1 < chunkSize)
    (hr : v.rxChunkReady v.spkReadChunkInd = true) :
    v.serve = { v with
      spkReadPacketInd := ⟨v.spkReadPacketInd + 1, h⟩
      spk := { v.spk with
        readAddr := .staging v.spkReadChunkInd ⟨v.spkReadPacketInd + 1, h⟩
        busy := v.spk.busy || v.spk.en
        irq := false } } := by
  rw [serve, finishSample_next (by exact h), rearm_of_ready (by exact hr)]
  rfl

/-- At the end of a chunk its slot is released and the channel moves on to the next one. -/
theorem serve_last {v : PlaySide} (h : ¬ (v.spkReadPacketInd : ℕ) + 1 < chunkSize)
    (hr : Function.update v.rxChunkReady v.spkReadChunkInd false (v.spkReadChunkInd + 1) = true) :
    v.serve = { v with
      rxChunkReady := Function.update v.rxChunkReady v.spkReadChunkInd false
      spkReadPacketInd := 0
      spkReadChunkInd := v.spkReadChunkInd + 1
      spk := { v.spk with
        readAddr := .staging (v.spkReadChunkInd + 1) 0
        busy := v.spk.busy || v.spk.en
        irq := false } } := by
  rw [serve, finishSample_last (by exact h), rearm_of_ready (by exact hr)]
  rfl

/-- If there is none it is disabled. -/
theorem serve_last_empty {v : PlaySide} (h : ¬ (v.spkReadPacketInd : ℕ) + 1 < chunkSize)
    (hr : ¬ Function.update v.rxChunkReady v.spkReadChunkInd false (v.spkReadChunkInd + 1) = true) :
    v.serve = { v with
      rxChunkReady := Function.update v.rxChunkReady v.spkReadChunkInd false
      spkReadPacketInd := 0
      spkReadChunkInd := v.spkReadChunkInd + 1
      spk := { v.spk.disable with irq := false } } := by
  rw [serve, finishSample_last (by exact h), disable_of_empty (by exact hr)]
  rfl

theorem dmaReadIrqHandler_playSide (m : Machine) :
    m.dmaReadIrqHandler.playSide = m.playSide.serve := by
  rw [Machine.dmaReadIrqHandler, rearmOrDisable_playSide, finishSample_playSide]
  rfl

/-- An event that is neither a transfer of channel 1, its interrupt, nor an accepted entry
of the button handler. -/
def Quiet (m : Machine) : Env → Prop
  | .spkTransfer | .spkIrq => False
  | .pbIrq t => m.accepts t = false
  | _ => True

/-- Every effect an event outside `main` can have on the play side. -/
inductive Effect (m : Machine) : Env → PlaySide → Prop
  | quiet {e : Env} (hq : Quiet m e) : Effect m e m.playSide
  | transfer (hb : m.spk.busy = true) (he : m.spk.en = true) :
      Effect m .spkTransfer m.playSide.transfer
  | serve (hi : m.spk.irq = true) : Effect m .spkIrq m.playSide.serve
  | press {t : UInt32} (ha : m.accepts t = true) (hf : m.pin.fall = false) :
      Effect m (.pbIrq t) m.playSide.press
  | release {t : UInt32} (ha : m.accepts t = true) (hr : m.pin.rise = false) :
      Effect m (.pbIrq t) m.playSide.release
  | pressRelease {t : UInt32} (ha : m.accepts t = true) :
      Effect m (.pbIrq t) m.playSide.press.release

theorem pbIsrHandler_effect (m : Machine) (t : UInt32) :
    Effect m (.pbIrq t) (m.pbIsrHandler t).playSide := by
  cases ha : m.accepts t with
  | false =>
    rw [Machine.pbIsrHandler_rejected ha]
    exact .quiet ha
  | true =>
    rw [Machine.pbIsrHandler_accepted ha]
    cases hr : m.pin.rise <;> cases hf : m.pin.fall <;>
      simp only [Machine.pbBranches, Pin.events, hr, hf, if_true, Bool.false_eq_true, if_false]
    · simp [Machine.accepts, Pin.events, Events.isEmpty, hr, hf] at ha
    · exact .release ha hr
    · exact .press ha hf
    · exact .pressRelease ha

theorem envStep_effect {m m' : Machine} {e : Env} (h : envStep m e = some m') :
    Effect m e m'.playSide := by
  cases e with
  | edge => cases h; exact .quiet trivial
  | pbIrq t => cases h; exact pbIsrHandler_effect m t
  | sample | micIrq =>
    simp only [envStep, Machine.micSample] at h
    split_ifs at h
    cases h
    exact .quiet trivial
  | spkTransfer =>
    simp only [envStep, Machine.spkTransfer] at h
    split_ifs at h with hc
    cases h
    exact .transfer hc.1 hc.2
  | spkIrq =>
    simp only [envStep] at h
    split_ifs at h with hc
    cases h
    rw [dmaReadIrqHandler_playSide]
    exact .serve hc
  | payload | packetSent | radioIrq | spurious =>
    obtain ⟨_, _, _, rfl⟩ := envStep_ofRadio rfl h
    exact .quiet trivial

end PlaySide

end WalkieTalkie
