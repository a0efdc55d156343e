import WalkieTalkie.SharedState

/-! # The handlers of `microphone.c` -/
namespace WalkieTalkie.Machine

/-- The microphone handler flags the slot just filled and arms the next one. -/
def dmaIrqHandler (m : Machine) : Machine :=
  let next := m.dmaWriteInd + 1
  { m with
    mic := ({ m.mic with irq := false }.setWriteAddr (chunkSize * next)).setTransCount chunkSize
    txChunkReady := Function.update m.txChunkReady m.dmaWriteInd true
    dmaWriteInd := next }

def debounceUs : UInt64 := 50000

/-- The low 32 bits of the timer are widened before the subtraction. -/
def debounced (m : Machine) (timerawl : UInt32) : Bool :=
  decide (timerawl.toUInt64 - m.lastButtonIrqUs < debounceUs)

/-- The `GPIO_IRQ_EDGE_RISE` branch. It aborts channel 1 and restarts channel 0. -/
def pbRise (m : Machine) (e : Events) : Machine :=
  { m with
    pin := m.pin.acknowledge e
    txEnable := true
    txDone := true
    loraReadInd := 0
    dmaWriteInd := 0
    txChunkReady := fun _ => false
    spk := m.spk.abort
    mic := (m.mic.setWriteAddr 0).setTransCount chunkSize
    adcOn := true
    state := .tx }

/-- `DREQ_DMA_TIMER0`, the request line of DMA timer 0. -/
def dreqDmaTimer0 : BitVec 32 := 0x3b#32

/-- The control word written on release, still enabled. -/
def releaseCtrlbits : BitVec 32 := (dreqDmaTimer0 <<< 17) ||| (0x0#32 <<< 2) ||| 1#32

/-- The `GPIO_IRQ_EDGE_FALL` branch. Its enabled write of the control word comes
with a transfer count of zero, so only the disabled one after it matters. -/
def pbFall (m : Machine) (e : Events) : Machine :=
  { m with
    pin := m.pin.acknowledge e
    txEnable := false
    rxDone := true
    rxArmNeeded := true
    rxPacketReady := false
    mic := m.mic.abort
    spk := { m.spk with readAddr := .rxRing m.spkReadChunkInd, ctrl := releaseCtrlbits &&& ~~~1#32 }
    adcOn := false
    state := .rx }

/-- The two branches, one after the other, on the mask read at entry. -/
def pbBranches (m : Machine) (e : Events) : Machine :=
  let m := if e.rise then m.pbRise e else m
  if e.fall then m.pbFall e else m

def pbIsrHandler (m : Machine) (timerawl : UInt32) : Machine :=
  let events := m.pin.events
  if events.isEmpty then m
  else if m.debounced timerawl then m
  else { m with lastButtonIrqUs := timerawl.toUInt64 }.pbBranches events

/-- One handler for payload-ready and packet-sent. -/
def packetRecSendIsr (m : Machine) : Machine :=
  match m.state with
  | .rx => { m with rxPacketReady := true }
  | .tx => { m with txNeedsFinish := true }

theorem packetRecSendIsr_frame (m : Machine) : ∃ ready finish,
    m.packetRecSendIsr = { m with rxPacketReady := ready, txNeedsFinish := finish } := by
  cases h : m.state
  · exact ⟨true, m.txNeedsFinish, by simp [packetRecSendIsr, h]⟩
  · exact ⟨m.rxPacketReady, true, by simp [packetRecSendIsr, h]⟩

def micLoopbackStart (m : Machine) : Machine :=
  { m with
    txEnable := true
    txDone := true
    state := .tx
    loraReadInd := 0
    dmaWriteInd := 0
    txChunkReady := fun _ => false
    mic := (m.mic.abort.setWriteAddr 0).setTransCount chunkSize
    adcOn := true }

/-- One ADC sample through channel 0. A write past the ring hits other memory. -/
def micSample (m : Machine) (v : UInt8) : Option Machine :=
  if m.adcOn ∧ m.mic.busy then
    some { m with
      txRing := fun c i =>
        if chunkSize * (c : ℕ) + (i : ℕ) = m.mic.writeAddr then v else m.txRing c i
      mic := m.mic.advance }
  else none

end WalkieTalkie.Machine
