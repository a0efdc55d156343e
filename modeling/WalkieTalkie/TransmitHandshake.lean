import WalkieTalkie.RadioSide

/-!
# The packet-sent handshake of the transmitter

`tx_done` is cleared only after `rfm9x_start_transmit` has returned, and the handler
cannot tell packet-sent from payload-ready. Both leave a window: a press between the
start and the clearing, and a payload between the finish test and the start.
-/
namespace WalkieTalkie.TransmitHandshake
open PartialRuns

/-- A finish is asked for, a packet is in the air, or its interrupt is on its way. -/
def InFlight (v : RadioSide) : Prop :=
  v.txNeedsFinish = true ∨ v.radio.mode = .transmitting ∨ 0 < v.radio.sentIrqs

instance (v : RadioSide) : Decidable (InFlight v) := inferInstanceAs (Decidable (_ ∨ _ ∨ _))

/-- What `tx_done` promises at each statement while the device talks. In the receive
branch a press must have come since the state was read, and it set `tx_done`. -/
def Unwedged (pc : Pc) (v : RadioSide) : Prop :=
  v.state = .tx → match pc with
    | .finishCall | .finishDone | .sendFailed => True
    | .sendNotDone rc => v.txDone = true ∧ (rc = 0 → InFlight v)
    | .sendStatus rc => rc = 0 → v.txDone = true ∨ InFlight v
    | .loopHead | .finishTest | .finishClear | .sendTest | .sendClear | .sendAdvance =>
      v.txDone = true ∨ InFlight v
    | _ => v.txDone = true

/-- A press taken after a successful start and before `tx_done` is cleared finds that
packet still in the air, its interrupt not yet served, or the finish recorded. -/
def PressInFlight (s : Cfg Pc) : Event → Prop
  | .env (.pbIrq t) => s.pc = .sendNotDone 0 → s.m.presses t = true → InFlight s.m.radioSide
  | _ => True

instance (s : Cfg Pc) (e : Event) : Decidable (PressInFlight s e) := by
  induction e using Event.casesOn with
  | main rc => exact isTrue trivial
  | env e => induction e using Env.casesOn <;> unfold PressInFlight <;> infer_instance

theorem Unwedged.of_txDone {pc : Pc} {v : RadioSide} (h : v.txDone = true)
    (hf : pc = .sendNotDone 0 → InFlight v) : Unwedged pc v := by
  intro _
  cases pc <;> simp_all

theorem Unwedged.effect {pc : Pc} {m : Machine} {e : Env} {v : RadioSide}
    (h : Unwedged pc m.radioSide) (hp : PressInFlight ⟨pc, m⟩ (.env e))
    (he : RadioSide.Effect m e v) : Unwedged pc v := by
  cases he with
  | audio => exact h
  | press ha hr hf =>
    exact .of_txDone rfl fun hpc => hp hpc (by simp [Machine.presses, ha, hr, hf])
  | release | pressRelease => intro hs; cases hs
  | payload | packetSent =>
    intro hs
    have hh := h hs
    cases pc <;> simp_all [InFlight, Machine.radioSide]
  | payloadIsr | sentIsr | spurious =>
    intro hs
    cases hst : m.state with
    | rx => simp [RadioSide.isr, Machine.radioSide, hst] at hs
    | tx =>
      have hh := h hst
      cases pc <;> simp_all [InFlight, RadioSide.isr, Machine.radioSide]

theorem Unwedged.main {pc : Pc} {m : Machine} (rc : Int) (h : Unwedged pc m.radioSide) :
    Unwedged (mainStep rc m pc).1 (mainStep rc m pc).2.radioSide := by
  cases pc with
  | sendLoad txIdx i buf =>
    simp only [mainStep]
    exact nextSample_ind (P := fun pc => Unwedged pc m.radioSide) (fun _ => h) fun _ => h
  | stageByte i =>
    simp only [mainStep]
    exact nextSample_ind (P := fun pc => Unwedged pc m.radioSide) (fun _ => h) fun _ => h
  | loopHead | rxTest =>
    cases hst : m.state <;> simp_all [mainStep, Unwedged, Machine.radioSide]
  | sendLaunch buf =>
    by_cases hr : rc = 0 <;>
      simp_all [mainStep, Unwedged, InFlight, Machine.radioSide, Radio.launchTransmit]
  | finishTest | sendTest | sendStatus | armTest | armCall | readyTest | spuriousTest | readCall
    | restartTest =>
    intro hs
    have hh := h hs
    simp only [mainStep]
    split_ifs <;> simp_all [Machine.radioSide, Machine.fillSlot]
  | _ => simp_all [mainStep, Unwedged, InFlight, Machine.radioSide]

theorem Unwedged.step {s t : Cfg Pc} {e : Event} (h : Unwedged s.pc s.m.radioSide)
    (hp : PressInFlight s e) (ht : WalkieTalkie.step s e = some t) :
    Unwedged t.pc t.m.radioSide := by
  obtain ⟨rc, rfl, rfl⟩ | ⟨f, m, rfl, hf, rfl⟩ := step_cases ht
  · exact h.main rc
  · exact h.effect hp (RadioSide.envStep_effect hf)

/-- While the device talks and `main` is at the loop head, `tx_done` is set or something
is on its way that will set it, unless a press came in the window before line 133 after
the packet-sent interrupt of the packet just started had been taken in `STATE_RX`. -/
theorem transmitter_not_wedged {es : List Event} {s : Cfg Pc}
    (hp : Along step PressInFlight boot es) (hr : run step boot es = some s)
    (hpc : s.pc = .loopHead) (hst : s.m.state = .tx) (hd : s.m.txDone = false) :
    s.m.txNeedsFinish = true ∨ s.m.radio.mode = .transmitting ∨ 0 < s.m.radio.sentIrqs := by
  have h : Unwedged s.pc s.m.radioSide :=
    hp.invariant (fun s => Unwedged s.pc s.m.radioSide) (fun _ _ _ hi hp ht => hi.step hp ht)
      (.of_txDone rfl fun hpc => by cases hpc) hr
  rw [hpc] at h
  rcases h hst with hd' | hf
  · cases hd.symm.trans hd'
  · exact hf

/-- Press, one chunk captured, and `main` up to the return of a successful start. -/
def startPacket : List Event :=
  button 100000 ++ samples 60 ++ [.env .micIrq] ++ mains 66

def startPacketEnd : Cfg Pc := ends step boot (startPacket ++ mains 4) (by decide +kernel)

theorem transmitter_not_wedged_sending :
    startPacketEnd.m.txNeedsFinish = true ∨ startPacketEnd.m.radio.mode = .transmitting ∨
      0 < startPacketEnd.m.radio.sentIrqs :=
  transmitter_not_wedged (by decide +kernel) (run_ends _) (by decide +kernel) (by decide +kernel)
    (by decide +kernel)

/-- Release, the packet-sent interrupt in `STATE_RX`, and a press, all before line 133. -/
def chatterInWindow : List Event :=
  startPacket ++ button 200000 ++ [.env .packetSent, .env (.radioIrq .packetSent)] ++
    button 300000 ++ mains 4

/-- Nothing is left that would set `tx_done` again while the button is held. -/
theorem transmitter_wedges : ∃ s, run step boot chatterInWindow = some s ∧ s.pc = .loopHead ∧
    s.m.state = .tx ∧ s.m.txDone = false ∧ ¬ (s.m.txNeedsFinish = true ∨
      s.m.radio.mode = .transmitting ∨ 0 < s.m.radio.sentIrqs) :=
  exists_of_run_any (by decide +kernel)

/-- While a packet is in the air no finish is asked for, recorded or about to run. -/
def NotCut (pc : Pc) (v : RadioSide) : Prop :=
  v.radio.mode = .transmitting → v.txNeedsFinish = false ∧ v.radio.payloadIrqs = 0 ∧
    v.radio.sentIrqs = 0 ∧ pc ≠ .finishClear ∧ pc ≠ .finishCall

/-- A start succeeds only with no finish recorded and no radio interrupt unserved. -/
def StartClean (s : Cfg Pc) : Event → Prop
  | .main rc => match s.pc with
    | .sendLaunch _ => rc = 0 →
      s.m.txNeedsFinish = false ∧ s.m.radio.payloadIrqs = 0 ∧ s.m.radio.sentIrqs = 0
    | _ => True
  | .env _ => True

instance (s : Cfg Pc) (e : Event) : Decidable (StartClean s e) := by
  induction e using Event.casesOn with
  | main rc =>
    unfold StartClean
    generalize s.pc = pc
    induction pc using Pc.casesOn <;> infer_instance
  | env e => exact isTrue trivial

/-- The radio handler is called by the radio only. -/
def RadioCalled : Event → Prop
  | .env .spurious => False
  | _ => True

instance (e : Event) : Decidable (RadioCalled e) := by
  induction e using Event.casesOn with
  | main rc => exact isTrue trivial
  | env e => induction e using Env.casesOn <;> unfold RadioCalled <;> infer_instance

theorem NotCut.effect {pc : Pc} {m : Machine} {e : Env} {v : RadioSide}
    (h : NotCut pc m.radioSide) (hc : RadioCalled (.env e)) (he : RadioSide.Effect m e v) :
    NotCut pc v := by
  cases he with
  | audio | press | release | pressRelease => exact h
  | payload hm => intro ht; cases hm.symm.trans ht
  | packetSent => intro ht; cases ht
  | payloadIsr hn | sentIsr hn =>
    intro ht
    have hh := h (by cases hst : m.state <;> simpa [RadioSide.isr, Machine.radioSide, hst] using ht)
    simp only [Machine.radioSide] at hh
    omega
  | spurious => exact False.elim hc

theorem NotCut.main {pc : Pc} {m : Machine} (rc : Int) (h : NotCut pc m.radioSide)
    (hc : StartClean ⟨pc, m⟩ (.main rc)) :
    NotCut (mainStep rc m pc).1 (mainStep rc m pc).2.radioSide := by
  cases pc with
  | sendLoad txIdx i buf =>
    simp only [mainStep]
    exact nextSample_ind (P := fun pc => NotCut pc m.radioSide)
      (fun _ ht => by simpa using h ht) fun _ ht => by simpa using h ht
  | stageByte i =>
    simp only [mainStep]
    exact nextSample_ind (P := fun pc => NotCut pc m.radioSide)
      (fun _ ht => by simpa using h ht) fun _ ht => by simpa using h ht
  | sendLaunch buf =>
    by_cases hr : rc = 0 <;>
      simp_all [mainStep, NotCut, StartClean, Machine.radioSide, Radio.launchTransmit]
  | armCall =>
    by_cases hr : rc = 0 <;>
      simp_all [mainStep, NotCut, Machine.radioSide, Radio.rfm9xStartReceive]
  | loopHead | finishTest | sendTest | sendStatus | rxTest | armTest | readyTest | spuriousTest
    | readCall | restartTest =>
    intro ht
    have hh := h ht
    simp only [mainStep]
    split_ifs <;> simp_all [Machine.radioSide, Machine.fillSlot, Radio.rfm9xReadData]
  | _ => simp_all [mainStep, NotCut, Machine.radioSide, Radio.rfm9xFinishTransmit,
      Radio.stageTransmit]

theorem NotCut.step {s t : Cfg Pc} {e : Event} (h : NotCut s.pc s.m.radioSide)
    (hc : StartClean s e ∧ RadioCalled e) (ht : WalkieTalkie.step s e = some t) :
    NotCut t.pc t.m.radioSide := by
  obtain ⟨rc, rfl, rfl⟩ | ⟨f, m, rfl, hf, rfl⟩ := step_cases ht
  · exact h.main rc hc.1
  · exact h.effect hc.2 (RadioSide.envStep_effect hf)

/-- `main` does not call `rfm9x_finish_transmit` on a packet still in the air, when every
start that succeeds finds no finish recorded and no radio interrupt unserved. -/
theorem finish_after_packetSent {es : List Event} {s : Cfg Pc}
    (hc : Along step (fun s e => StartClean s e ∧ RadioCalled e) boot es)
    (hr : run step boot es = some s) (hpc : s.pc = .finishCall) :
    s.m.radio.mode ≠ .transmitting := by
  have h : NotCut s.pc s.m.radioSide :=
    hc.invariant (fun s => NotCut s.pc s.m.radioSide) (fun _ _ _ hi hc ht => hi.step hc ht)
      (fun ht => by cases ht) hr
  intro ht
  exact (h ht).2.2.2.2 hpc

/-- The first packet of a press, sent, its interrupt served, and `main` about to finish it. -/
def finishPacket : List Event :=
  startPacket ++ [.env .packetSent, .env (.radioIrq .packetSent)] ++ mains 7

def finishPacketEnd : Cfg Pc := ends step boot finishPacket (by decide +kernel)

theorem finish_after_packetSent_once : finishPacketEnd.m.radio.mode ≠ .transmitting :=
  finish_after_packetSent (by decide +kernel) (run_ends _) (by decide +kernel)

/-- A payload-ready interrupt taken in `STATE_TX` after the finish test and before the
radio has left receive mode. -/
def payloadBeforeStart : List Event :=
  mains 6 ++ button 100000 ++ samples 60 ++ [.env .micIrq] ++ mains 2 ++
    [.env (.payload [1]), .env (.radioIrq .payloadReady)] ++ mains 71

/-- The packet started next is cut off in the air. -/
theorem finish_cuts_packet : (∀ e ∈ payloadBeforeStart, RadioCalled e) ∧
    ∃ s, run step boot payloadBeforeStart = some s ∧
      s.pc = .finishCall ∧ s.m.radio.mode = .transmitting :=
  ⟨by decide +kernel, exists_of_run_any (by decide +kernel)⟩

end WalkieTalkie.TransmitHandshake
