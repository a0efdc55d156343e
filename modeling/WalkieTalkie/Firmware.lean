import WalkieTalkie.PartialRuns
import WalkieTalkie.MainLoop

/-!
# The device: `main`, the handlers and the hardware, interleaved

A handler is one event, so it is atomic between two statements of `main`. Only
`main` moves its own program counter.
-/
namespace WalkieTalkie

inductive RadioIrq | payloadReady | packetSent deriving DecidableEq, Repr

/-- What can happen between two statements of `main`. -/
inductive Env
  /-- The button changes its level. -/
  | edge
  /-- `pb_isr_handler` is entered with this value of the timer's low word. -/
  | pbIrq (timerawl : UInt32)
  /-- The microphone channel writes one sample. -/
  | sample (v : UInt8)
  /-- `dma_irq_handler` is served. -/
  | micIrq
  /-- The speaker channel does its transfer. -/
  | spkTransfer
  /-- `dma_read_irq_handler` is served. -/
  | spkIrq
  /-- The radio receives a payload. -/
  | payload (p : List UInt8)
  /-- The radio has sent its packet. -/
  | packetSent
  /-- A raised call of `packet_rec_send_isr` runs. -/
  | radioIrq (k : RadioIrq)
  /-- `packet_rec_send_isr` runs without a cause. -/
  | spurious
  deriving Repr

inductive Event
  /-- The next statement of `main`, a radio call in it returning `rc`. -/
  | main (rc : Int)
  | env (e : Env)
  deriving Repr

/-- Not an entry of the button handler. -/
def ButtonFree : Event → Prop
  | .env (.pbIrq _) => False
  | _ => True

instance (e : Event) : Decidable (ButtonFree e) := by
  induction e using Event.casesOn with
  | main rc => exact isTrue trivial
  | env e => induction e using Env.casesOn <;> unfold ButtonFree <;> infer_instance

/-- Take one raised call of the radio handler, if there is one. -/
def Radio.takeIrq (r : Radio) : RadioIrq → Option Radio
  | .payloadReady =>
    if 0 < r.payloadIrqs then some { r with payloadIrqs := r.payloadIrqs - 1 } else none
  | .packetSent =>
    if 0 < r.sentIrqs then some { r with sentIrqs := r.sentIrqs - 1 } else none

open Machine in
/-- One event outside `main`, refused where it cannot happen. -/
def envStep (m : Machine) : Env → Option Machine
  | .edge => some { m with pin := m.pin.edge }
  | .pbIrq t => some (m.pbIsrHandler t)
  | .sample v => m.micSample v
  | .micIrq => if m.mic.irq then some m.dmaIrqHandler else none
  | .spkTransfer => m.spkTransfer
  | .spkIrq => if m.spk.irq then some m.dmaReadIrqHandler else none
  | .payload p => (m.radio.receive p).map fun r => { m with radio := r }
  | .packetSent => m.radio.packetSent.map fun r => { m with radio := r }
  | .radioIrq k => (m.radio.takeIrq k).map fun r => { m with radio := r }.packetRecSendIsr
  | .spurious => some m.packetRecSendIsr

/-- `main` at one of its statements, over the shared state. -/
structure Cfg (π : Type) where
  pc : π
  m : Machine

def step (s : Cfg Pc) : Event → Option (Cfg Pc)
  | .main rc => some ⟨(mainStep rc s.m s.pc).1, (mainStep rc s.m s.pc).2⟩
  | .env e => match envStep s.m e with
    | none => none
    | some m => some ⟨s.pc, m⟩

/-- A step is a statement of `main`, or an event outside it that is not refused. -/
theorem step_cases {s t : Cfg Pc} {e : Event} (h : step s e = some t) :
    (∃ rc, e = .main rc ∧ t = ⟨(mainStep rc s.m s.pc).1, (mainStep rc s.m s.pc).2⟩) ∨
      ∃ f m, e = .env f ∧ envStep s.m f = some m ∧ t = ⟨s.pc, m⟩ := by
  cases e with
  | main rc => exact .inl ⟨rc, rfl, (Option.some.inj h).symm⟩
  | env f =>
    cases hf : envStep s.m f with
    | none => simp [step, hf] at h
    | some m =>
      simp only [step, hf, Option.some.injEq] at h
      exact .inr ⟨f, m, rfl, hf, h.symm⟩

/-- The same with a history beside the device. -/
theorem tracked_step_cases {γ : Type*} {record : Cfg Pc → Event → γ → γ} {x y : Cfg Pc × γ}
    {e : Event} (h : PartialRuns.tracked step record x e = some y) :
    (∃ rc, e = .main rc ∧ y = (⟨(mainStep rc x.1.m x.1.pc).1, (mainStep rc x.1.m x.1.pc).2⟩,
      record x.1 e x.2)) ∨
      ∃ f m, e = .env f ∧ envStep x.1.m f = some m ∧ y = (⟨x.1.pc, m⟩, record x.1 e x.2) := by
  obtain ⟨t, h'⟩ := y
  obtain ⟨ht, rfl⟩ := PartialRuns.tracked_eq_some.mp h
  obtain ⟨rc, rfl, rfl⟩ | ⟨f, m, rfl, hf, rfl⟩ := step_cases ht
  · exact .inl ⟨rc, rfl, rfl⟩
  · exact .inr ⟨f, m, rfl, hf, rfl⟩

/-- An event of the radio or a call of its handler. -/
def Env.ofRadio : Env → Bool
  | .payload _ | .packetSent | .radioIrq _ | .spurious => true
  | _ => false

/-- The radio and its handler touch the two flags of the handler and nothing else. -/
theorem envStep_ofRadio {m m' : Machine} {e : Env} (he : e.ofRadio = true)
    (h : envStep m e = some m') : ∃ ready finish radio,
      m' = { m with rxPacketReady := ready, txNeedsFinish := finish, radio := radio } := by
  cases e with
  | payload | packetSent =>
    simp only [envStep, Option.map_eq_some_iff] at h
    obtain ⟨r, _, rfl⟩ := h
    exact ⟨_, _, _, rfl⟩
  | radioIrq k =>
    simp only [envStep, Option.map_eq_some_iff] at h
    obtain ⟨r, _, rfl⟩ := h
    obtain ⟨_, _, hf⟩ := { m with radio := r }.packetRecSendIsr_frame
    exact ⟨_, _, _, hf⟩
  | spurious =>
    cases h
    obtain ⟨_, _, hf⟩ := m.packetRecSendIsr_frame
    exact ⟨_, _, _, hf⟩
  | edge | pbIrq | sample | micIrq | spkTransfer | spkIrq => cases he

/-- The shared state when `main` reaches `for(;;)`: the globals as `main` sets them,
the channels as their `init` functions leave them, the button released. -/
def bootMachine : Machine where
  txDone := true
  txNeedsFinish := false
  rxDone := false
  rxArmNeeded := true
  rxPacketReady := false
  txRing := fun _ _ => 0
  rxRing := fun _ _ => 0
  txChunkReady := fun _ => false
  rxChunkReady := fun _ => false
  loraReadInd := 0
  dmaWriteInd := 0
  spkReadChunkInd := 0
  spkReadPacketInd := 0
  spkStaging := fun _ _ => 0
  rxWriteInd := 0
  txEnable := false
  state := .rx
  lastButtonIrqUs := 0
  mic := { writeAddr := 0, busy := false, left := 0, reload := chunkSize, irq := false }
  adcOn := false
  spk :=
    { ctrl := Machine.initCtrlbits &&& ~~~1#32, readAddr := .staging 0 0, busy := false, irq := false }
  pwmCc := 0
  pin := { level := false, rise := false, fall := false }
  radio := { mode := .standby, waiting := none, payloadIrqs := 0, sentIrqs := 0 }

def boot : Cfg Pc := ⟨.loopHead, bootMachine⟩

/-- `n` statements of `main`, every radio call among them succeeding. -/
def mains (n : ℕ) : List Event := List.replicate n (.main 0)

/-- One edge of the button, served at time `t`. -/
def button (t : UInt32) : List Event := [.env .edge, .env (.pbIrq t)]

/-- `n` samples through the microphone channel, numbered from one. -/
def samples (n : ℕ) : List Event := (List.range n).map fun i => .env (.sample (.ofNat (i + 1)))

/-- `n` transfers of channel 1, each one served. -/
def plays (n : ℕ) : List Event :=
  (List.replicate n [Event.env .spkTransfer, .env .spkIrq]).flatten

end WalkieTalkie
