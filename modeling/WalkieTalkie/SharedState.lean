import Mathlib.Algebra.GroupWithZero.Nat
import Mathlib.Data.Fin.Basic
import Mathlib.Logic.Function.Basic

/-!
# The globals of `shared_state.c` and the peripherals they are shared with

Ring slots are indices below the ring size, so the modulo of every index update
is the addition of the index type. The peripherals carry what the firmware reads
or writes of them: DMA channels 0 (microphone) and 1 (speaker), the ADC run bit,
the button pin with its edge latches, and the radio.
-/
namespace WalkieTalkie

abbrev chunkSize : ℕ := 60
abbrev txRingChunks : ℕ := 8
abbrev rxRingChunks : ℕ := 8

instance : NeZero chunkSize := ⟨Nat.succ_ne_zero _⟩
instance : NeZero txRingChunks := ⟨Nat.succ_ne_zero _⟩

abbrev TxSlot := Fin txRingChunks
abbrev RxSlot := Fin rxRingChunks
abbrev Sample := Fin chunkSize
abbrev Chunk (α : Type) := Sample → α

inductive LoraState | rx | tx deriving DecidableEq, Repr

/-- GPIO 39: high is pressed. Both edges are latched until acknowledged. -/
structure Pin where
  level : Bool
  rise : Bool
  fall : Bool
  deriving DecidableEq, Repr

/-- The event mask of GPIO 39 as read by a handler. -/
structure Events where
  rise : Bool
  fall : Bool
  deriving DecidableEq, Repr

namespace Pin

def events (p : Pin) : Events := ⟨p.rise, p.fall⟩

def edge (p : Pin) : Pin :=
  if p.level then { p with level := false, fall := true }
  else { p with level := true, rise := true }

def acknowledge (p : Pin) (e : Events) : Pin :=
  { p with rise := p.rise && !e.rise, fall := p.fall && !e.fall }

end Pin

def Events.isEmpty (e : Events) : Bool := !e.rise && !e.fall

/-- DMA channel 0. The write address is counted in bytes from `tx_ring[0][0]`,
`reload` is the transfer count a trigger starts with, `irq` is DMA_IRQ_0. -/
structure MicChannel where
  writeAddr : ℕ
  busy : Bool
  left : ℕ
  reload : ℕ
  irq : Bool
  deriving DecidableEq, Repr

namespace MicChannel

/-- A busy channel ignores a trigger. -/
def trigger (c : MicChannel) : MicChannel :=
  if c.busy then c else { c with busy := true, left := c.reload }

/-- A new write address counts at once, also in the middle of a transfer. -/
def setWriteAddr (c : MicChannel) (a : ℕ) : MicChannel := { c with writeAddr := a }

/-- `dma_channel_set_trans_count(0, n, true)`. -/
def setTransCount (c : MicChannel) (n : ℕ) : MicChannel := { c with reload := n }.trigger

def abort (c : MicChannel) : MicChannel := { c with busy := false }

/-- The channel after one sample; the last one raises the interrupt. -/
def advance (c : MicChannel) : MicChannel :=
  if c.left ≤ 1 then
    { c with writeAddr := c.writeAddr + 1, left := 0, busy := false, irq := true }
  else { c with writeAddr := c.writeAddr + 1, left := c.left - 1 }

theorem trigger_of_busy {c : MicChannel} (h : c.busy = true) : c.trigger = c := if_pos h

@[simp] theorem trigger_busy (c : MicChannel) : c.trigger.busy = true := by
  cases h : c.busy <;> simp [trigger, h]

@[simp] theorem trigger_writeAddr (c : MicChannel) : c.trigger.writeAddr = c.writeAddr := by
  cases h : c.busy <;> simp [trigger, h]

@[simp] theorem trigger_reload (c : MicChannel) : c.trigger.reload = c.reload := by
  cases h : c.busy <;> simp [trigger, h]

@[simp] theorem trigger_irq (c : MicChannel) : c.trigger.irq = c.irq := by
  cases h : c.busy <;> simp [trigger, h]

/-- A trigger that is ignored does no harm if the busy channel has its whole count to go. -/
theorem trigger_left {c : MicChannel} (h : c.busy = true → c.left = c.reload) :
    c.trigger.left = c.reload := by
  cases hb : c.busy with
  | false => simp [trigger, hb]
  | true => simp [trigger, hb, h hb]

@[simp] theorem setWriteAddr_writeAddr (c : MicChannel) (a : ℕ) :
    (c.setWriteAddr a).writeAddr = a := rfl

@[simp] theorem setWriteAddr_irq (c : MicChannel) (a : ℕ) : (c.setWriteAddr a).irq = c.irq := rfl

@[simp] theorem setTransCount_busy (c : MicChannel) (n : ℕ) : (c.setTransCount n).busy = true :=
  trigger_busy _

@[simp] theorem setTransCount_writeAddr (c : MicChannel) (n : ℕ) :
    (c.setTransCount n).writeAddr = c.writeAddr := trigger_writeAddr _

@[simp] theorem setTransCount_reload (c : MicChannel) (n : ℕ) :
    (c.setTransCount n).reload = n := trigger_reload _

@[simp] theorem setTransCount_irq (c : MicChannel) (n : ℕ) : (c.setTransCount n).irq = c.irq :=
  trigger_irq _

theorem setTransCount_left {c : MicChannel} {n : ℕ} (h : c.busy = true → c.left = n) :
    (c.setTransCount n).left = n := trigger_left h

end MicChannel

/-- Addresses the firmware hands to DMA channel 1 as its source. -/
inductive SpkAddr
  | staging (c : RxSlot) (i : Sample)
  | rxRing (c : RxSlot)
  deriving DecidableEq, Repr

/-- DMA channel 1, with its raw control word. A transfer is one word; `busy` is
a transfer not yet done, `irq` is DMA_IRQ_1. -/
structure SpkChannel where
  ctrl : BitVec 32
  readAddr : SpkAddr
  busy : Bool
  irq : Bool
  deriving DecidableEq, Repr

namespace SpkChannel

def en (c : SpkChannel) : Bool := c.ctrl.getLsbD 0
def enable (c : SpkChannel) : SpkChannel := { c with ctrl := c.ctrl ||| 1#32 }
def disable (c : SpkChannel) : SpkChannel := { c with ctrl := c.ctrl &&& ~~~1#32 }
def setReadAddr (c : SpkChannel) (a : SpkAddr) : SpkChannel := { c with readAddr := a }

/-- `dma_channel_set_trans_count(1, 1, true)`: a disabled channel ignores the trigger,
a busy one keeps its single transfer. -/
def trigger (c : SpkChannel) : SpkChannel := { c with busy := c.busy || c.en }

def abort (c : SpkChannel) : SpkChannel := { c with busy := false }

@[simp] theorem en_enable (c : SpkChannel) : c.enable.en = true := by
  simp [en, enable]

@[simp] theorem en_disable (c : SpkChannel) : c.disable.en = false := by
  simp [en, disable]

end SpkChannel

/-- What the transceiver is doing. A packet whose packet-sent event has been
raised is no longer being transmitted. -/
inductive RadioMode | standby | listening | transmitting deriving DecidableEq, Repr

/-- The transceiver. `waiting` is a received payload not yet read, the two counts
are raised calls of `packet_rec_send_isr` that have not run yet. -/
structure Radio where
  mode : RadioMode
  waiting : Option (List UInt8)
  payloadIrqs : ℕ
  sentIrqs : ℕ
  deriving DecidableEq, Repr

/-- Everything the handlers and `main` share. -/
structure Machine where
  txDone : Bool
  txNeedsFinish : Bool
  rxDone : Bool
  rxArmNeeded : Bool
  rxPacketReady : Bool
  txRing : TxSlot → Chunk UInt8
  rxRing : RxSlot → Chunk UInt8
  txChunkReady : TxSlot → Bool
  rxChunkReady : RxSlot → Bool
  loraReadInd : TxSlot
  dmaWriteInd : TxSlot
  spkReadChunkInd : RxSlot
  spkReadPacketInd : Sample
  spkStaging : RxSlot → Chunk UInt32
  rxWriteInd : RxSlot
  txEnable : Bool
  state : LoraState
  lastButtonIrqUs : UInt64
  mic : MicChannel
  adcOn : Bool
  spk : SpkChannel
  pwmCc : UInt32
  pin : Pin
  radio : Radio

end WalkieTalkie
