import WalkieTalkie.RadioSide

/-!
# The capture side: the transmit ring, channel 0 and the log of a press session

What the environment can do to the capture side is listed once. The log follows one
session: a press, that is an accepted entry with RISE, starts a new one.
-/
namespace WalkieTalkie

structure CaptureSide where
  txRing : TxSlot → Chunk UInt8
  txChunkReady : TxSlot → Bool
  loraReadInd : TxSlot
  dmaWriteInd : TxSlot
  mic : MicChannel
  adcOn : Bool

def Machine.captureSide (m : Machine) : CaptureSide :=
  ⟨m.txRing, m.txChunkReady, m.loraReadInd, m.dmaWriteInd, m.mic, m.adcOn⟩

/-- Byte `i` of slot `c`, as an address of channel 0. -/
def ringAddr (c : TxSlot) (i : Sample) : ℕ := chunkSize * (c : ℕ) + (i : ℕ)

namespace CaptureSide

def sample (v : CaptureSide) (x : UInt8) : CaptureSide :=
  { v with
    txRing := fun c i => if ringAddr c i = v.mic.writeAddr then x else v.txRing c i
    mic := v.mic.advance }

def flagSlot (v : CaptureSide) : CaptureSide :=
  { v with
    mic := ({ v.mic with irq := false }.setWriteAddr
      (chunkSize * (v.dmaWriteInd + 1 : TxSlot))).setTransCount chunkSize
    txChunkReady := Function.update v.txChunkReady v.dmaWriteInd true
    dmaWriteInd := v.dmaWriteInd + 1 }

def press (v : CaptureSide) : CaptureSide :=
  { v with
    txChunkReady := fun _ => false
    loraReadInd := 0
    dmaWriteInd := 0
    mic := (v.mic.setWriteAddr 0).setTransCount chunkSize
    adcOn := true }

def release (v : CaptureSide) : CaptureSide := { v with mic := v.mic.abort, adcOn := false }

/-- An event that neither writes a sample, serves or triggers channel 0 nor enters the button
handler with success. -/
def Quiet (m : Machine) : Env → Prop
  | .sample _ | .micIrq | .spkTransfer => False
  | .pbIrq t => m.accepts t = false
  | _ => True

/-- Every effect an event outside `main` can have on the capture side. -/
inductive Effect (m : Machine) : Env → CaptureSide → Prop
  | quiet {e : Env} (hq : Quiet m e) : Effect m e m.captureSide
  | chain : Effect m .spkTransfer { m.captureSide with mic := m.mic.trigger }
  | sample {x : UInt8} (ha : m.adcOn = true) (hb : m.mic.busy = true) :
      Effect m (.sample x) (m.captureSide.sample x)
  | flagSlot (hi : m.mic.irq = true) : Effect m .micIrq m.captureSide.flagSlot
  | press {t : UInt32} (ha : m.accepts t = true) (hr : m.pin.rise = true)
      (hf : m.pin.fall = false) : Effect m (.pbIrq t) m.captureSide.press
  | release {t : UInt32} (ha : m.accepts t = true) (hr : m.pin.rise = false)
      (hf : m.pin.fall = true) : Effect m (.pbIrq t) m.captureSide.release
  | pressRelease {t : UInt32} (ha : m.accepts t = true) (hr : m.pin.rise = true)
      (hf : m.pin.fall = true) : Effect m (.pbIrq t) m.captureSide.press.release

@[simp] theorem pbRise_captureSide (m : Machine) (e : Events) :
    (m.pbRise e).captureSide = m.captureSide.press := rfl

@[simp] theorem pbFall_captureSide (m : Machine) (e : Events) :
    (m.pbFall e).captureSide = m.captureSide.release := rfl

theorem pbIsrHandler_effect (m : Machine) (t : UInt32) :
    Effect m (.pbIrq t) (m.pbIsrHandler t).captureSide := by
  cases ha : m.accepts t with
  | false =>
    rw [Machine.pbIsrHandler_rejected ha]
    exact .quiet ha
  | true =>
    rw [Machine.pbIsrHandler_accepted ha]
    cases hr : m.pin.rise <;> cases hf : m.pin.fall <;>
      simp only [Machine.pbBranches, Pin.events, hr, hf, if_true, Bool.false_eq_true, if_false,
        pbRise_captureSide, pbFall_captureSide]
    · simp [Machine.accepts, Pin.events, Events.isEmpty, hr, hf] at ha
    · exact .release ha hr hf
    · exact .press ha hr hf
    · exact .pressRelease ha hr hf

theorem envStep_effect {m m' : Machine} {e : Env} (h : envStep m e = some m') :
    Effect m e m'.captureSide := by
  cases e with
  | edge => cases h; exact .quiet trivial
  | pbIrq t => cases h; exact pbIsrHandler_effect m t
  | sample x =>
    simp only [envStep, Machine.micSample] at h
    split_ifs at h with hc
    cases h
    exact .sample hc.1 hc.2
  | micIrq =>
    simp only [envStep] at h
    split_ifs at h with hc
    cases h
    exact .flagSlot hc
  | spkTransfer =>
    simp only [envStep, Machine.spkTransfer] at h
    split_ifs at h
    cases h
    exact .chain
  | spkIrq =>
    simp only [envStep] at h
    split_ifs at h
    cases h
    obtain ⟨_, _, _, _, _, hf⟩ := m.dmaReadIrqHandler_frame
    rw [hf]
    exact .quiet trivial
  | payload | packetSent | radioIrq | spurious =>
    obtain ⟨_, _, _, rfl⟩ := envStep_ofRadio rfl h
    exact .quiet trivial

end CaptureSide

/-- What has happened since the last press. -/
structure CaptureLog where
  /-- The samples channel 0 has written. -/
  samples : List UInt8
  /-- The chunks completed and flagged, as they stood in their slots. -/
  captured : List (Chunk UInt8)
  /-- The buffers of the successful transmissions whose call began in the session. -/
  sent : List (List UInt8)
  /-- No further button interrupt has been accepted. -/
  opened : Bool
  /-- The transmission in progress began while the session was open. -/
  live : Bool
  /-- A sample has been written into a slot whose flag was set. -/
  overrun : Bool
  /-- The press came after the last test before a transmission. -/
  stale : Bool
  /-- The press left an interrupt of an earlier chunk pending. -/
  oldIrq : Bool
  /-- The last accepted entry left a microphone interrupt pending, not yet served. -/
  unserved : Bool

namespace CaptureLog

def start : CaptureLog := ⟨[], [], [], false, false, false, false, false, false⟩

/-- The slot the next sample goes to has its flag set. -/
def hitsFlag (m : Machine) : Bool :=
  decide (∃ c : TxSlot, chunkSize * (c : ℕ) ≤ m.mic.writeAddr ∧
    m.mic.writeAddr < chunkSize * (c : ℕ) + chunkSize ∧ m.txChunkReady c = true)

def recordEnv (m : Machine) (e : Env) (h : CaptureLog) : CaptureLog :=
  match e with
  | .sample x => { h with samples := h.samples ++ [x], overrun := h.overrun || hitsFlag m }
  | .micIrq =>
    { h with
      captured := if h.oldIrq then h.captured else h.captured ++ [m.txRing m.dmaWriteInd]
      oldIrq := false
      unserved := false }
  | .pbIrq t =>
    if m.accepts t then
      if m.pin.rise then
        { start with opened := true, stale := true, oldIrq := m.mic.irq, unserved := m.mic.irq }
      else { h with opened := false, unserved := m.mic.irq }
    else h
  | _ => h

def recordMain (pc : Pc) (rc : Int) (h : CaptureLog) : CaptureLog :=
  match pc with
  | .sendTest => { h with stale := false }
  | .sendCall _ => { h with live := h.opened }
  | .sendLaunch buf => if rc = 0 ∧ h.live = true then { h with sent := h.sent ++ [buf] } else h
  | _ => h

def record (s : Cfg Pc) (e : Event) (h : CaptureLog) : CaptureLog :=
  match e with
  | .main rc => h.recordMain s.pc rc
  | .env e => h.recordEnv s.m e

theorem recordEnv_quiet {m : Machine} {e : Env} (hq : CaptureSide.Quiet m e) (h : CaptureLog) :
    h.recordEnv m e = h := by
  cases e <;> simp_all [CaptureSide.Quiet, recordEnv]

end CaptureLog

/-- The device with the log of its press session. -/
def sessionStep : Cfg Pc × CaptureLog → Event → Option (Cfg Pc × CaptureLog) :=
  PartialRuns.tracked step CaptureLog.record

/-- The log neither adds nor removes a run of the device. -/
theorem sessionStep_run (s : Cfg Pc) (h : CaptureLog) (es : List Event) :
    (PartialRuns.run sessionStep (s, h) es).map Prod.fst = PartialRuns.run step s es :=
  PartialRuns.tracked_run_fst s h es

end WalkieTalkie
