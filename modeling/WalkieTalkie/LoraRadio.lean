import WalkieTalkie.SharedState

/-!
# The radio calls of `lora_radio.cpp`

The return code is the radio's answer. Every driver call that changes the mode
commands standby first, so a call that fails leaves the radio there.
-/
namespace WalkieTalkie.Radio

def flagPayloadReady : UInt8 := 0x04

/-- Register 0x3F as far as the firmware masks it. -/
def irqFlags2 (r : Radio) : UInt8 := if r.waiting.isSome then flagPayloadReady else 0

def rfm9xStartReceive (r : Radio) (rc : Int) : Radio :=
  if rc = 0 then { r with mode := .listening, waiting := none } else { r with mode := .standby }

/-- The first half of `rfm9x_start_transmit`: standby, before the FIFO is filled. -/
def stageTransmit (r : Radio) : Radio := { r with mode := .standby }

/-- The last step of `rfm9x_start_transmit`, once the FIFO holds the packet. -/
def launchTransmit (r : Radio) (rc : Int) : Radio :=
  if rc = 0 then { r with mode := .transmitting, waiting := none } else r

def rfm9xFinishTransmit (r : Radio) : Radio := { r with mode := .standby }

/-- The bytes `rfm9x_read_data(buf, len)` writes into `buf`. -/
def readBytes (r : Radio) (len : ℕ) : List UInt8 := (r.waiting.getD []).take len

def rfm9xReadData (r : Radio) : Radio := { r with waiting := none }

/-- A payload can become waiting only while the radio listens and none waits. -/
def receive (r : Radio) (p : List UInt8) : Option Radio :=
  if r.mode = .listening ∧ r.waiting = none then
    some { r with waiting := some p, payloadIrqs := r.payloadIrqs + 1 }
  else none

def packetSent (r : Radio) : Option Radio :=
  if r.mode = .transmitting then
    some { r with mode := .standby, sentIrqs := r.sentIrqs + 1 }
  else none

end WalkieTalkie.Radio
