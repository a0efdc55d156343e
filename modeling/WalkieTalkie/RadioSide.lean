import WalkieTalkie.Firmware

/-!
# What the environment can do to the radio flags

The flags that `main`, the button and the radio handler share, apart from the
audio rings. Audio events leave them alone; the rest is listed once.
-/
namespace WalkieTalkie

structure RadioSide where
  txDone : Bool
  txNeedsFinish : Bool
  rxArmNeeded : Bool
  rxPacketReady : Bool
  txEnable : Bool
  state : LoraState
  radio : Radio

namespace Machine

def radioSide (m : Machine) : RadioSide :=
  ⟨m.txDone, m.txNeedsFinish, m.rxArmNeeded, m.rxPacketReady, m.txEnable, m.state, m.radio⟩

/-- An entry of the button handler that gets past the mask and the debounce test. -/
def accepts (m : Machine) (t : UInt32) : Bool := !m.pin.events.isEmpty && !m.debounced t

/-- An accepted entry that leaves the device talking. -/
def presses (m : Machine) (t : UInt32) : Bool := m.accepts t && m.pin.rise && !m.pin.fall

theorem pbIsrHandler_accepted {m : Machine} {t : UInt32} (h : m.accepts t = true) :
    m.pbIsrHandler t = { m with lastButtonIrqUs := t.toUInt64 }.pbBranches m.pin.events := by
  simp only [accepts, Bool.and_eq_true, Bool.not_eq_true'] at h
  simp [pbIsrHandler, h.1, h.2]

theorem pbIsrHandler_rejected {m : Machine} {t : UInt32} (h : m.accepts t = false) :
    m.pbIsrHandler t = m := by
  cases hm : m.pin.events.isEmpty <;> simp_all [accepts, pbIsrHandler]

end Machine

namespace RadioSide

def isr (v : RadioSide) : RadioSide :=
  match v.state with
  | .rx => { v with rxPacketReady := true }
  | .tx => { v with txNeedsFinish := true }

def press (v : RadioSide) : RadioSide := { v with txEnable := true, txDone := true, state := .tx }

def release (v : RadioSide) : RadioSide :=
  { v with txEnable := false, rxArmNeeded := true, rxPacketReady := false, state := .rx }

/-- Every effect an event outside `main` can have on the radio flags. -/
inductive Effect (m : Machine) : Env → RadioSide → Prop
  | audio (e : Env) : Effect m e m.radioSide
  | press {t : UInt32} (ha : m.accepts t = true) (hr : m.pin.rise = true)
      (hf : m.pin.fall = false) : Effect m (.pbIrq t) m.radioSide.press
  | release {t : UInt32} (ha : m.accepts t = true) (hf : m.pin.fall = true) :
      Effect m (.pbIrq t) m.radioSide.release
  | pressRelease {t : UInt32} (ha : m.accepts t = true) (hf : m.pin.fall = true) :
      Effect m (.pbIrq t) m.radioSide.press.release
  | payload {p : List UInt8} (hm : m.radio.mode = .listening) (hw : m.radio.waiting = none) :
      Effect m (.payload p) { m.radioSide with
        radio := { m.radio with waiting := some p, payloadIrqs := m.radio.payloadIrqs + 1 } }
  | packetSent (hm : m.radio.mode = .transmitting) :
      Effect m .packetSent { m.radioSide with
        radio := { m.radio with mode := .standby, sentIrqs := m.radio.sentIrqs + 1 } }
  | payloadIsr (hn : 0 < m.radio.payloadIrqs) :
      Effect m (.radioIrq .payloadReady) { m.radioSide with
        radio := { m.radio with payloadIrqs := m.radio.payloadIrqs - 1 } }.isr
  | sentIsr (hn : 0 < m.radio.sentIrqs) :
      Effect m (.radioIrq .packetSent) { m.radioSide with
        radio := { m.radio with sentIrqs := m.radio.sentIrqs - 1 } }.isr
  | spurious : Effect m .spurious m.radioSide.isr

theorem packetRecSendIsr_radioSide (m : Machine) :
    m.packetRecSendIsr.radioSide = m.radioSide.isr := by
  cases h : m.state <;> simp [Machine.packetRecSendIsr, isr, Machine.radioSide, h]

theorem dmaReadIrqHandler_radioSide (m : Machine) :
    m.dmaReadIrqHandler.radioSide = m.radioSide := by
  obtain ⟨_, _, _, _, _, hf⟩ := m.dmaReadIrqHandler_frame
  rw [hf]
  rfl

@[simp] theorem pbRise_radioSide (m : Machine) (e : Events) :
    (m.pbRise e).radioSide = m.radioSide.press := rfl

@[simp] theorem pbFall_radioSide (m : Machine) (e : Events) :
    (m.pbFall e).radioSide = m.radioSide.release := rfl

theorem pbIsrHandler_effect (m : Machine) (t : UInt32) :
    Effect m (.pbIrq t) (m.pbIsrHandler t).radioSide := by
  cases ha : m.accepts t with
  | false =>
    rw [Machine.pbIsrHandler_rejected ha]
    exact .audio _
  | true =>
    rw [Machine.pbIsrHandler_accepted ha]
    cases hr : m.pin.rise <;> cases hf : m.pin.fall <;>
      simp only [Machine.pbBranches, Pin.events, hr, hf, if_true, Bool.false_eq_true, if_false,
        pbRise_radioSide, pbFall_radioSide]
    · exact .audio _
    · exact .release ha hf
    · exact .press ha hr hf
    · exact .pressRelease ha hf

theorem envStep_effect {m m' : Machine} {e : Env} (h : envStep m e = some m') :
    Effect m e m'.radioSide := by
  cases e with
  | edge => cases h; exact .audio _
  | pbIrq t => cases h; exact pbIsrHandler_effect m t
  | sample v =>
    simp only [envStep, Machine.micSample] at h
    split_ifs at h
    cases h; exact .audio _
  | micIrq =>
    simp only [envStep] at h
    split_ifs at h
    cases h; exact .audio _
  | spkTransfer =>
    simp only [envStep, Machine.spkTransfer] at h
    split_ifs at h
    cases h; exact .audio _
  | spkIrq =>
    simp only [envStep] at h
    split_ifs at h
    cases h
    rw [dmaReadIrqHandler_radioSide]
    exact .audio _
  | payload p =>
    simp only [envStep, Radio.receive] at h
    split_ifs at h with hc
    · cases h; exact .payload hc.1 hc.2
    · cases h
  | packetSent =>
    simp only [envStep, Radio.packetSent] at h
    split_ifs at h with hc
    · cases h; exact .packetSent hc
    · cases h
  | radioIrq k =>
    cases k with
    | payloadReady =>
      simp only [envStep, Radio.takeIrq] at h
      split_ifs at h with hc
      · cases h
        rw [packetRecSendIsr_radioSide]
        exact .payloadIsr hc
      · cases h
    | packetSent =>
      simp only [envStep, Radio.takeIrq] at h
      split_ifs at h with hc
      · cases h
        rw [packetRecSendIsr_radioSide]
        exact .sentIsr hc
      · cases h
  | spurious =>
    cases h
    rw [packetRecSendIsr_radioSide]
    exact .spurious

end RadioSide

end WalkieTalkie
