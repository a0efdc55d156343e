import WalkieTalkie.Microphone

/-! # The speaker channel and the handler of `speaker.c` -/
namespace WalkieTalkie.Machine

/-- The control word of `init_dma_speaker`, still enabled: timer request, ring of
eight bytes, incrementing reads, word transfers. -/
def initCtrlbits : BitVec 32 :=
  (dreqDmaTimer0 <<< 17) ||| (0x0#32 <<< 12) ||| (0x3#32 <<< 8) ||| (0x1#32 <<< 4) |||
    (0x2#32 <<< 2) ||| 1#32

/-- Four bytes of `rx_ring[c]`, read as a little-endian word. -/
def rxRingWord (m : Machine) (c : RxSlot) : UInt32 :=
  (m.rxRing c 0).toUInt32 ||| ((m.rxRing c 1).toUInt32 <<< 8) |||
    ((m.rxRing c 2).toUInt32 <<< 16) ||| ((m.rxRing c 3).toUInt32 <<< 24)

def readWord (m : Machine) : SpkAddr → UInt32
  | .staging c i => m.spkStaging c i
  | .rxRing c => m.rxRingWord c

theorem readWord_of_staging {m : Machine} {c : RxSlot} {i : Sample}
    (h : m.spk.readAddr = .staging c i) : m.readWord m.spk.readAddr = m.spkStaging c i := by
  rw [h]
  rfl

/-- What a transfer of the size in bits 3:2 leaves in the PWM compare register:
a narrow value is repeated on every byte lane. -/
def pwmLanes (ctrl : BitVec 32) (w : UInt32) : UInt32 :=
  if (ctrl >>> 2) &&& 3#32 = 0#32 then (w &&& 0xff) * 0x01010101
  else if (ctrl >>> 2) &&& 3#32 = 1#32 then (w &&& 0xffff) * 0x00010001
  else w

/-- Channel 1 does its one transfer. `CHAIN_TO` is zero in every control word the
firmware writes, so the completion also triggers channel 0. -/
def spkTransfer (m : Machine) : Option Machine :=
  if m.spk.busy ∧ m.spk.en then
    some { m with
      spk := { m.spk with busy := false, irq := true }
      pwmCc := pwmLanes m.spk.ctrl (m.readWord m.spk.readAddr)
      mic := m.mic.trigger }
  else none

/-- Only an enabled channel transfers. -/
theorem ready_of_spkTransfer {m m' : Machine} (h : m.spkTransfer = some m') :
    m.spk.busy = true ∧ m.spk.en = true := by
  simp only [spkTransfer] at h
  split_ifs at h with hc
  exact hc

/-- The handler's index update: the slot of a finished chunk is released and zeroed. -/
def finishSample (m : Machine) : Machine :=
  if h : (m.spkReadPacketInd : ℕ) + 1 < chunkSize then
    { m with spkReadPacketInd := ⟨m.spkReadPacketInd + 1, h⟩ }
  else
    { m with
      rxChunkReady := Function.update m.rxChunkReady m.spkReadChunkInd false
      rxRing := Function.update m.rxRing m.spkReadChunkInd fun _ => 0
      spkReadPacketInd := 0
      spkReadChunkInd := m.spkReadChunkInd + 1 }

/-- Rearm only when data is available; otherwise disable the channel. -/
def rearmOrDisable (m : Machine) : Machine :=
  if m.rxChunkReady m.spkReadChunkInd then
    { m with spk := (m.spk.setReadAddr (.staging m.spkReadChunkInd m.spkReadPacketInd)).trigger }
  else { m with spk := m.spk.disable }

def dmaReadIrqHandler (m : Machine) : Machine :=
  { m with spk := { m.spk with irq := false } }.finishSample.rearmOrDisable

/-- The handler touches the receive ring, its flags, its read indices and channel 1. -/
theorem dmaReadIrqHandler_frame (m : Machine) : ∃ ring ready chunk packet spk,
    m.dmaReadIrqHandler =
      { m with rxRing := ring, rxChunkReady := ready, spkReadChunkInd := chunk,
               spkReadPacketInd := packet, spk := spk } := by
  simp only [dmaReadIrqHandler, rearmOrDisable, finishSample]
  split_ifs <;> exact ⟨_, _, _, _, _, rfl⟩

end WalkieTalkie.Machine
