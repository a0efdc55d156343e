import WalkieTalkie.CaptureSide
import WalkieTalkie.PlaySide

/-!
# The loop of the `LOOPBACK_TEST` build

The microphone ring is copied to the staging ring, slot by slot. The statements of
`spk_loopback_push` are statements of `main` here; neither the button handler nor the radio
is set up.
-/
namespace WalkieTalkie

inductive LoopPc
  | test
  | push
  | stageByte (chunkIdx : RxSlot) (i : Sample)
  | stageFlag (chunkIdx : RxSlot)
  | restartTest | restartAddr | restartEnable | restartCount
  | clear | advance
  deriving DecidableEq, Repr

namespace LoopPc

/-- `main` is inside `spk_loopback_push`. -/
def inPush : LoopPc → Bool
  | .stageByte _ _ | .stageFlag _ | .restartTest | .restartAddr | .restartEnable | .restartCount =>
    true
  | _ => false

end LoopPc

/-- One iteration of the copy in `spk_loopback_push`. -/
def Machine.pushSample (m : Machine) (c : RxSlot) (i : Sample) : Machine :=
  { m with
    spkStaging := Function.update m.spkStaging c
      (Function.update (m.spkStaging c) i (m.txRing c i).toUInt32) }

def loopMainStep (m : Machine) : LoopPc → LoopPc × Machine
  | .test => (if m.txChunkReady m.loraReadInd then .push else .test, m)
  -- spk_loopback_push(lora_read_ind)
  | .push => (.stageByte m.loraReadInd 0, m)
  | .stageByte c i => (nextSample i (.stageByte c) (.stageFlag c), m.pushSample c i)
  | .stageFlag c =>
    (.restartTest, { m with rxChunkReady := Function.update m.rxChunkReady c true })
  | .restartTest => (if m.spk.en then .clear else .restartAddr, m)
  | .restartAddr =>
    (.restartEnable,
      { m with spk := m.spk.setReadAddr (.staging m.spkReadChunkInd m.spkReadPacketInd) })
  | .restartEnable => (.restartCount, { m with spk := m.spk.enable })
  | .restartCount => (.clear, { m with spk := m.spk.trigger })
  | .clear =>
    (.advance, { m with txChunkReady := Function.update m.txChunkReady m.loraReadInd false })
  | .advance => (.test, { m with loraReadInd := m.loraReadInd + 1 })

/-- The events of the two audio channels. -/
def Env.audio : Env → Bool
  | .sample _ | .micIrq | .spkTransfer | .spkIrq => true
  | _ => false

def loopStep (s : Cfg LoopPc) : Event → Option (Cfg LoopPc)
  | .main _ => some ⟨(loopMainStep s.m s.pc).1, (loopMainStep s.m s.pc).2⟩
  | .env e =>
    if e.audio then
      match envStep s.m e with
      | none => none
      | some m => some ⟨s.pc, m⟩
    else none

/-- A step of the loopback build is a statement of its `main` or an audio event. -/
theorem loopStep_cases {s t : Cfg LoopPc} {e : Event} (h : loopStep s e = some t) :
    (∃ rc, e = .main rc ∧ t = ⟨(loopMainStep s.m s.pc).1, (loopMainStep s.m s.pc).2⟩) ∨
      ∃ f m, e = .env f ∧ f.audio = true ∧ envStep s.m f = some m ∧ t = ⟨s.pc, m⟩ := by
  cases e with
  | main rc => exact .inl ⟨rc, rfl, (Option.some.inj h).symm⟩
  | env f =>
    simp only [loopStep] at h
    split_ifs at h with ha
    cases hf : envStep s.m f with
    | none => simp [hf] at h
    | some m =>
      simp only [hf, Option.some.injEq] at h
      exact .inr ⟨f, m, rfl, ha, hf, h.symm⟩

/-- `mic_loopback_start` has returned. -/
def loopBoot : Cfg LoopPc :=
  ⟨.test, { bootMachine with rxArmNeeded := false }.micLoopbackStart⟩

structure LoopLog where
  /-- What channel 0 has written and completed. -/
  capture : CaptureLog
  /-- The chunks staged and flagged. -/
  chunks : List (Chunk UInt32)
  /-- The words channel 1 has read. -/
  played : List UInt32
  /-- A sample has been staged into a slot whose flag was set. -/
  restaged : Bool

namespace LoopLog

def start : LoopLog := ⟨CaptureLog.start, [], [], false⟩

def record (s : Cfg LoopPc) (e : Event) (h : LoopLog) : LoopLog :=
  match e with
  | .main _ => match s.pc with
    | .stageByte c _ => { h with restaged := h.restaged || s.m.rxChunkReady c }
    | .stageFlag c => { h with chunks := h.chunks ++ [s.m.spkStaging c] }
    | _ => h
  | .env .spkTransfer => { h with played := h.played ++ [s.m.readWord s.m.spk.readAddr] }
  | .env e => { h with capture := h.capture.recordEnv s.m e }

end LoopLog

/-- The loopback build with its log. -/
def loopbackStep : Cfg LoopPc × LoopLog → Event → Option (Cfg LoopPc × LoopLog) :=
  PartialRuns.tracked loopStep LoopLog.record

theorem loopbackStep_run (s : Cfg LoopPc) (h : LoopLog) (es : List Event) :
    (PartialRuns.run loopbackStep (s, h) es).map Prod.fst = PartialRuns.run loopStep s es :=
  PartialRuns.tracked_run_fst s h es

end WalkieTalkie
