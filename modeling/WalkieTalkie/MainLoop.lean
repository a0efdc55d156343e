import WalkieTalkie.LoraRadio
import WalkieTalkie.Speaker

/-!
# The loop of `main.c`

One constructor for every statement between which an interrupt can be taken. The
call of `rfm9x_start_transmit` is split where the radio leaves receive mode, at
every byte it takes from the ring, and where the radio is told to transmit.
Printing and the rate log touch nothing shared and are left out.
-/
namespace WalkieTalkie

/-- Where `main` is, with the locals that are live there. -/
inductive Pc
  | loopHead
  | finishTest | finishClear | finishCall | finishDone
  | sendTest | sendIndex
  | sendCall (txIdx : TxSlot)
  | sendLoad (txIdx : TxSlot) (i : Sample) (buf : List UInt8)
  | sendLaunch (buf : List UInt8)
  | sendNotDone (rc : Int) | sendStatus (rc : Int) | sendFailed
  | sendClear | sendAdvance
  | rxTest
  | armTest | armClear | armCall | armFailed
  | readyTest | readyClear | spuriousTest | spuriousArm
  | readCall
  | stageByte (i : Sample)
  | stageFlag | stageAdvance
  | restartTest | restartAddr | restartEnable | restartCount
  | rearm
  deriving DecidableEq, Repr

/-- `main` is between the test of `STATE_TX` and the end of that branch. -/
def Pc.inTransmit : Pc → Bool
  | .finishTest | .finishClear | .finishCall | .finishDone | .sendTest | .sendIndex | .sendCall _
  | .sendLoad _ _ _ | .sendLaunch _ | .sendNotDone _ | .sendStatus _ | .sendFailed | .sendClear
  | .sendAdvance => true
  | _ => false

namespace Machine

/-- The slot `rfm9x_read_data` has filled: its bytes, then what was there before. -/
def fillSlot (m : Machine) (bytes : List UInt8) : Machine :=
  { m with
    rxRing := Function.update m.rxRing m.rxWriteInd fun i =>
      (bytes[(i : ℕ)]?).getD (m.rxRing m.rxWriteInd i) }

/-- One iteration of the staging loop. -/
def stageSample (m : Machine) (i : Sample) : Machine :=
  { m with
    spkStaging := Function.update m.spkStaging m.rxWriteInd
      (Function.update (m.spkStaging m.rxWriteInd) i (m.rxRing m.rxWriteInd i).toUInt32) }

end Machine

/-- The loop variable after an iteration, and where the loop goes. -/
def nextSample {π : Type} (i : Sample) (body : Sample → π) (done : π) : π :=
  if h : (i : ℕ) + 1 < chunkSize then body ⟨i + 1, h⟩ else done

/-- What holds at the next iteration and at the end of a loop holds after its body. -/
theorem nextSample_ind {π : Type} {P : π → Prop} {i : Sample} {body : Sample → π} {done : π}
    (hb : ∀ h : (i : ℕ) + 1 < chunkSize, P (body ⟨i + 1, h⟩))
    (hd : (i : ℕ) + 1 = chunkSize → P done) : P (nextSample i body done) := by
  by_cases h : (i : ℕ) + 1 < chunkSize
  · simpa [nextSample, h] using hb h
  · have hi := i.isLt
    simpa [nextSample, h] using hd (by omega)

open Machine in
/-- One statement of `main`; `rc` is what a radio call of the statement returns. -/
def mainStep (rc : Int) (m : Machine) : Pc → Pc × Machine
  -- if (state == STATE_TX)
  | .loopHead => (if m.state = .tx then .finishTest else .rxTest, m)
  | .finishTest => (if m.txNeedsFinish then .finishClear else .sendTest, m)
  | .finishClear => (.finishCall, { m with txNeedsFinish := false })
  | .finishCall => (.finishDone, { m with radio := m.radio.rfm9xFinishTransmit })
  | .finishDone => (.sendTest, { m with txDone := true })
  | .sendTest =>
    (if m.txDone && m.txEnable && m.txChunkReady m.loraReadInd then .sendIndex else .loopHead, m)
  | .sendIndex => (.sendCall m.loraReadInd, m)
  -- rc = rfm9x_start_transmit(tx_ring[tx_idx], CHUNK_SIZE)
  | .sendCall txIdx => (.sendLoad txIdx 0 [], { m with radio := m.radio.stageTransmit })
  | .sendLoad txIdx i buf =>
    let buf := buf ++ [m.txRing txIdx i]
    (nextSample i (fun j => .sendLoad txIdx j buf) (.sendLaunch buf), m)
  | .sendLaunch _ => (.sendNotDone rc, { m with radio := m.radio.launchTransmit rc })
  | .sendNotDone rc => (.sendStatus rc, { m with txDone := false })
  | .sendStatus rc => (if rc = 0 then .sendClear else .sendFailed, m)
  | .sendFailed => (.loopHead, { m with txDone := true })
  -- both statements use the shared index, not tx_idx
  | .sendClear =>
    (.sendAdvance, { m with txChunkReady := Function.update m.txChunkReady m.loraReadInd false })
  | .sendAdvance => (.loopHead, { m with loraReadInd := m.loraReadInd + 1 })
  -- else if (state == STATE_RX) reads the volatile state a second time
  | .rxTest => (if m.state = .rx then .armTest else .loopHead, m)
  | .armTest => (if m.rxArmNeeded then .armClear else .readyTest, m)
  | .armClear => (.armCall, { m with rxArmNeeded := false })
  | .armCall =>
    (if rc = 0 then .readyTest else .armFailed,
      { m with radio := m.radio.rfm9xStartReceive rc })
  | .armFailed => (.readyTest, { m with rxArmNeeded := true })
  | .readyTest => (if m.rxPacketReady then .readyClear else .loopHead, m)
  | .readyClear => (.spuriousTest, { m with rxPacketReady := false })
  | .spuriousTest =>
    (if m.radio.irqFlags2 &&& Radio.flagPayloadReady = 0 then .spuriousArm else .readCall, m)
  | .spuriousArm => (.loopHead, { m with rxArmNeeded := true })
  -- rc = rfm9x_read_data(rx_ring[rx_write_ind], CHUNK_SIZE)
  | .readCall =>
    (if rc = 0 then .stageByte 0 else .rearm,
      { m.fillSlot (m.radio.readBytes chunkSize) with radio := m.radio.rfm9xReadData })
  | .stageByte i => (nextSample i .stageByte .stageFlag, m.stageSample i)
  | .stageFlag =>
    (.stageAdvance, { m with rxChunkReady := Function.update m.rxChunkReady m.rxWriteInd true })
  | .stageAdvance => (.restartTest, { m with rxWriteInd := m.rxWriteInd + 1 })
  | .restartTest => (if m.spk.en then .rearm else .restartAddr, m)
  | .restartAddr =>
    (.restartEnable, { m with spk := m.spk.setReadAddr (.staging m.spkReadChunkInd 0) })
  | .restartEnable => (.restartCount, { m with spk := m.spk.enable })
  | .restartCount => (.rearm, { m with spk := m.spk.trigger })
  | .rearm => (.loopHead, { m with rxArmNeeded := true })

end WalkieTalkie
