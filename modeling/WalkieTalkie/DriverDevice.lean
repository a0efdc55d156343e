import WalkieTalkie.Carrier
import WalkieTalkie.PacketRoundTrip

/-!
# The device with its driver

The statements of `main` that talk to the radio run the driver over the chip, and the
chip decides what the radio does. Only the raised calls of the radio handler are kept in
`m.radio`. A switch to the receiver or the transmitter may not take.
-/
namespace WalkieTalkie
open PartialRuns

structure Board where
  m : Machine
  drv : Sx127x
  /-- What the first half of `startTransmit` has returned. -/
  staged : Int

inductive DriverEvent
  /-- The next statement of `main`; the chip may refuse to switch over in it. -/
  | main (refuse : Bool)
  | env (e : Env)
  deriving Repr

def Board.driver (b : Board) (refuse : Bool) : Sx127x :=
  b.drv.withChip { b.drv.chip with refuses := refuse }

/-- One statement of `main`, with the driver behind its radio calls. -/
def driverStatement (refuse : Bool) (b : Board) : Pc → Option (Pc × Board)
  | .finishCall => (Sx127x.finishTransmit.run (b.driver refuse)).map fun r =>
      (.finishDone, { b with drv := r.2 })
  | .sendCall txIdx => ((Sx127x.stageHead chunkSize 0).run (b.driver refuse)).map fun r =>
      (.sendLoad txIdx 0 [], { b with drv := r.2, staged := r.1 })
  | .sendLaunch buf => ((Sx127x.sendPacket b.staged buf).run (b.driver refuse)).map fun r =>
      (.sendNotDone r.1, { b with drv := r.2 })
  | .armCall => (Sx127x.startReceive.run (b.driver refuse)).map fun r =>
      (if r.1 = 0 then .readyTest else .armFailed, { b with drv := r.2 })
  | .spuriousTest => ((Sx127x.readRegister regIrqFlags2).run (b.driver refuse)).map fun r =>
      (if r.1 &&& flagPayloadReady = 0 then .spuriousArm else .readCall, { b with drv := r.2 })
  | .readCall => ((Sx127x.readData chunkSize).run (b.driver refuse)).map fun r =>
      (if r.1.1 = 0 then .stageByte 0 else .rearm, { b with m := b.m.fillSlot r.1.2, drv := r.2 })
  | pc => some ((mainStep 0 b.m pc).1, { b with m := (mainStep 0 b.m pc).2 })

namespace Machine

def withRadio (m : Machine) (r : Radio) : Machine := { m with radio := r }

/-- An event of the chip calls the radio handler, if DIO0 shows it. -/
def raise (m : Machine) (k : RadioIrq) (shown : Bool) : Machine :=
  if shown then match k with
    | .payloadReady => m.withRadio { m.radio with payloadIrqs := m.radio.payloadIrqs + 1 }
    | .packetSent => m.withRadio { m.radio with sentIrqs := m.radio.sentIrqs + 1 }
  else m

end Machine

/-- What happens outside `main`; the radio's part of it happens in the chip. -/
def driverEnv (b : Board) : Env → Option Board
  | .payload p => (b.drv.chip.packetIn p).map fun c =>
      { b with m := b.m.raise .payloadReady c.raises, drv := b.drv.withChip c }
  | .packetSent => b.drv.chip.packetOut.map fun c =>
      { b with m := b.m.raise .packetSent c.raises, drv := b.drv.withChip c }
  | e => (envStep b.m e).map fun m => { b with m := m }

structure DriverCfg where
  pc : Pc
  b : Board

namespace DriverCfg

def step (s : DriverCfg) : DriverEvent → Option DriverCfg
  | .main refuse => (driverStatement refuse s.b s.pc).map fun r => ⟨r.1, r.2⟩
  | .env e => (driverEnv s.b e).map fun b => ⟨s.pc, b⟩

end DriverCfg

/-- Where a statement of `main` runs the driver. -/
def Pc.callsDriver : Pc → Bool
  | .finishCall | .sendCall _ | .sendLaunch _ | .armCall | .spuriousTest | .readCall => true
  | _ => false

theorem driverStatement_plain {refuse : Bool} {b : Board} {pc : Pc} (h : pc.callsDriver = false) :
    driverStatement refuse b pc =
      some ((mainStep 0 b.m pc).1, { b with m := (mainStep 0 b.m pc).2 }) := by
  cases pc <;> first | rfl | cases h

/-- The other statements of `main` do not look at the radio. -/
theorem mainStep_withRadio {rc : Int} {m : Machine} {r : Radio} {pc : Pc}
    (h : pc.callsDriver = false) : mainStep rc (m.withRadio r) pc =
      ((mainStep 0 m pc).1, (mainStep 0 m pc).2.withRadio r) := by
  cases pc <;> first | rfl | cases h

theorem packetRecSendIsr_withRadio (m : Machine) (r : Radio) :
    (m.withRadio r).packetRecSendIsr = m.packetRecSendIsr.withRadio r := by
  cases h : m.state <;> simp [Machine.packetRecSendIsr, Machine.withRadio, h]

theorem pbBranches_withRadio (m : Machine) (r : Radio) (e : Events) :
    (m.withRadio r).pbBranches e = (m.pbBranches e).withRadio r := by
  cases hr : e.rise <;> cases hf : e.fall <;> simp only [Machine.pbBranches, hr, hf] <;> rfl

theorem pbIsrHandler_withRadio (m : Machine) (r : Radio) (t : UInt32) :
    (m.withRadio r).pbIsrHandler t = (m.pbIsrHandler t).withRadio r := by
  have hd : (m.withRadio r).debounced t = m.debounced t := rfl
  have he : (m.withRadio r).pin.events = m.pin.events := rfl
  simp only [Machine.pbIsrHandler, hd, he]
  split_ifs
  · rfl
  · rfl
  · exact pbBranches_withRadio { m with lastButtonIrqUs := t.toUInt64 } r _

theorem finishSample_withRadio (m : Machine) (r : Radio) :
    (m.withRadio r).finishSample = m.finishSample.withRadio r := by
  by_cases h : (m.spkReadPacketInd : ℕ) + 1 < chunkSize
  · have h1 : m.finishSample = _ := dif_pos h
    have h2 : (m.withRadio r).finishSample = _ := dif_pos h
    rw [h1, h2]
    rfl
  · have h1 : m.finishSample = _ := dif_neg h
    have h2 : (m.withRadio r).finishSample = _ := dif_neg h
    rw [h1, h2]
    rfl

theorem rearmOrDisable_withRadio (m : Machine) (r : Radio) :
    (m.withRadio r).rearmOrDisable = m.rearmOrDisable.withRadio r := by
  cases h : m.rxChunkReady m.spkReadChunkInd <;>
    simp [Machine.rearmOrDisable, Machine.withRadio, h]

theorem dmaReadIrqHandler_withRadio (m : Machine) (r : Radio) :
    (m.withRadio r).dmaReadIrqHandler = m.dmaReadIrqHandler.withRadio r := by
  have hf := finishSample_withRadio { m with spk := { m.spk with irq := false } } r
  exact (congrArg Machine.rearmOrDisable hf).trans (rearmOrDisable_withRadio _ r)

/-- Nor does the environment, but for the radio's own events. -/
theorem envStep_withRadio {m : Machine} {r : Radio} {e : Env} (h : e.ofRadio = false) :
    envStep (m.withRadio r) e = (envStep m e).map (·.withRadio r) := by
  cases e with
  | payload | packetSent | radioIrq | spurious => cases h
  | edge => rfl
  | pbIrq t => exact congrArg some (pbIsrHandler_withRadio m r t)
  | sample v =>
    show (m.withRadio r).micSample v = (m.micSample v).map _
    by_cases h : m.adcOn = true ∧ m.mic.busy = true
    · have h1 : m.micSample v = some _ := if_pos h
      have h2 : (m.withRadio r).micSample v = some _ := if_pos h
      rw [h1, h2]
      rfl
    · have h1 : m.micSample v = none := if_neg h
      have h2 : (m.withRadio r).micSample v = none := if_neg h
      rw [h1, h2]
      rfl
  | spkTransfer =>
    show (m.withRadio r).spkTransfer = m.spkTransfer.map _
    by_cases h : m.spk.busy = true ∧ m.spk.en = true
    · have h1 : m.spkTransfer = some _ := if_pos h
      have h2 : (m.withRadio r).spkTransfer = some _ := if_pos h
      rw [h1, h2]
      rfl
    · have h1 : m.spkTransfer = none := if_neg h
      have h2 : (m.withRadio r).spkTransfer = none := if_neg h
      rw [h1, h2]
      rfl
  | micIrq =>
    cases h : m.mic.irq <;> simp only [envStep, Machine.withRadio, h] <;> rfl
  | spkIrq =>
    have hi : (m.withRadio r).spk.irq = m.spk.irq := rfl
    cases h : m.spk.irq <;> simp only [envStep, hi, h, dmaReadIrqHandler_withRadio] <;> rfl

/-- What the driver relies on at the statements in the middle of a send or a read. -/
def Held (pc : Pc) (b : Board) : Prop :=
  match pc with
  | .sendLoad _ _ _ | .sendLaunch _ =>
    b.staged = errNone ∧ b.drv.chip.mode = modeStandby ∧
      b.drv.chip.fifo = [UInt8.ofNat chunkSize] ∧ b.drv.chip.payloadReady = false ∧
      field 7 6 (b.drv.chip.reg regDioMapping1) = dio0PackPacketSent
  | .readCall => b.drv.chip.payloadReady = true
  | _ => True

theorem Board.ready_driver {b : Board} (h : b.drv.Ready) (refuse : Bool) :
    (b.driver refuse).Ready := { h with }

section
variable {b : Board} (hd : b.drv.Ready) (refuse : Bool)
include hd

theorem statement_finishCall : driverStatement refuse b .finishCall = some (.finishDone,
    { b with
      drv := (b.driver refuse).withChip ((b.driver refuse).chip.dump.enter modeStandby) }) := by
  simp only [driverStatement, (b.ready_driver hd refuse).finishTransmit_run, Option.map_some]

theorem statement_sendCall (txIdx : TxSlot) : driverStatement refuse b (.sendCall txIdx) =
    some (.sendLoad txIdx 0 [], ⟨b.m,
      (b.driver refuse).withChip ((b.driver refuse).chip.stagedHead chunkSize), errNone⟩) := by
  have hl : chunkSize ≤ maxPacketLengthFsk := by decide
  have hs := (b.ready_driver hd refuse).stageHead_run hl 0
  simp only [driverStatement, hs, Option.map_some]

theorem statement_sendLaunch {buf : List UInt8} (hh : Held (.sendLaunch buf) b)
    (hl : buf.length = chunkSize) : driverStatement refuse b (.sendLaunch buf) =
      some (if refuse then
        (.sendNotDone errSpiWriteFailed, { b with drv := (b.driver refuse).unlaunched buf })
      else (.sendNotDone errNone, { b with drv := (b.driver refuse).launched buf })) := by
  obtain ⟨hstaged, hmode, hfifo, _⟩ := hh
  have hfit : (b.driver refuse).chip.fifo.length + buf.length ≤ fifoSize := by
    show b.drv.chip.fifo.length + buf.length ≤ fifoSize
    rw [hfifo, hl]
    decide
  have hs := (b.ready_driver hd refuse).sendPacket_run hmode hfit
  simp only [driverStatement, hstaged, hs]
  cases refuse <;> rfl

theorem statement_armCall : driverStatement refuse b .armCall =
    some (if refuse then (.armFailed, { b with drv := (b.driver refuse).unarmed })
      else (.readyTest, { b with drv := (b.driver refuse).armed })) := by
  simp only [driverStatement, (b.ready_driver hd refuse).startReceive_run]
  cases refuse <;> rfl

theorem statement_readCall {n : UInt8} {p : List UInt8} (hf : b.drv.chip.fifo = n :: p)
    (hp : p.length = n.toNat) : driverStatement refuse b .readCall = some (.stageByte 0,
      { b with
        m := b.m.fillSlot (Sx127x.cutTo chunkSize p)
        drv := { (b.driver refuse).withChip (b.driver refuse).chip.dump with
          packetLength := n.toNat } }) := by
  have hread := (b.ready_driver hd refuse).readData_run hf hp chunkSize
  simp only [driverStatement, hread, Option.map_some]
  rfl

end

theorem statement_spuriousTest (b : Board) (refuse : Bool) :
    driverStatement refuse b .spuriousTest = some
      (if b.drv.chip.payloadReady = false then .spuriousArm else .readCall,
        { b with drv := b.driver refuse }) := by
  have hread := Sx127x.readRegister_run (show regIrqFlags2 < 0x80 by decide) (b.driver refuse)
  rw [Chip.read, if_neg (by decide), if_pos rfl] at hread
  simp only [driverStatement, hread, Option.map_some, Chip.flags2_payloadReady]
  rfl

end WalkieTalkie
