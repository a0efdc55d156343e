import WalkieTalkie.RadioSide

/-!
# The receiver never stays deaf

In `STATE_RX` something is always scheduled to arm the radio, or it is armed. While
`main` is still in the transmit branch only the release can have set the state,
and the release asks for an arm.
-/
namespace WalkieTalkie.ReceiveArming
open PartialRuns

/-- An arm or a check is asked for, a radio interrupt is on its way, or the radio listens. -/
def Scheduled (v : RadioSide) : Prop :=
  v.rxArmNeeded = true ∨ v.rxPacketReady = true ∨ 0 < v.radio.payloadIrqs + v.radio.sentIrqs ∨
    (v.radio.mode = .listening ∧ v.radio.waiting = none)

/-- Between the tests of the receive branch the radio stays scheduled. The other
statements of that branch end in an arm request or in a successful arm. -/
def Awake (pc : Pc) (v : RadioSide) : Prop :=
  v.state = .rx → match pc with
    | .loopHead | .rxTest | .armTest | .readyTest => Scheduled v
    | pc => pc.inTransmit = true → v.rxArmNeeded = true

theorem Awake.of_arm {pc : Pc} {v : RadioSide} (h : v.rxArmNeeded = true) : Awake pc v := by
  intro _
  cases pc <;> first | exact Or.inl h | exact fun _ => h

/-- An event that leaves the radio scheduled and the arm request alone. -/
theorem Awake.scheduled {pc : Pc} {v v' : RadioSide} (h : Awake pc v) (hst : v'.state = v.state)
    (ha : v'.rxArmNeeded = v.rxArmNeeded) (hs : Scheduled v') : Awake pc v' := by
  intro hrx
  have hh := h (hst.symm.trans hrx)
  cases pc <;> first | exact hs | exact fun hp => ha.trans (hh hp)

theorem Awake.isr {pc : Pc} {v v' : RadioSide} (h : Awake pc v) (hst : v'.state = v.state)
    (ha : v'.rxArmNeeded = v.rxArmNeeded) : Awake pc v'.isr := by
  cases hv : v'.state with
  | tx =>
    intro hs
    simp [RadioSide.isr, hv] at hs
  | rx =>
    have hisr : v'.isr = { v' with rxPacketReady := true } := by simp [RadioSide.isr, hv]
    rw [hisr]
    exact h.scheduled hst ha (.inr (.inl rfl))

theorem Awake.effect {pc : Pc} {m : Machine} {e : Env} {v : RadioSide}
    (h : Awake pc m.radioSide) (he : RadioSide.Effect m e v) : Awake pc v := by
  cases he with
  | audio => exact h
  | press => intro hs; cases hs
  | release | pressRelease => exact .of_arm rfl
  | payload =>
    exact h.scheduled rfl rfl (.inr (.inr (.inl (Nat.add_pos_left (Nat.succ_pos _) _))))
  | packetSent =>
    exact h.scheduled rfl rfl (.inr (.inr (.inl (Nat.add_pos_right _ (Nat.succ_pos _)))))
  | payloadIsr | sentIsr | spurious => exact h.isr rfl rfl

theorem Awake.main {pc : Pc} {m : Machine} (rc : Int) (h : Awake pc m.radioSide) :
    Awake (mainStep rc m pc).1 (mainStep rc m pc).2.radioSide := by
  cases pc with
  | sendLoad txIdx i buf =>
    simp only [mainStep]
    exact nextSample_ind (P := fun pc => Awake pc m.radioSide) (fun _ => h) fun _ => h
  | stageByte i =>
    simp only [mainStep]
    exact nextSample_ind (P := fun pc => Awake pc m.radioSide) (fun _ _ hp => by cases hp)
      fun _ _ hp => by cases hp
  | armCall =>
    by_cases hr : rc = 0 <;>
      simp [mainStep, Awake, Scheduled, Machine.radioSide, Radio.rfm9xStartReceive, hr,
        Pc.inTransmit]
  | loopHead | rxTest =>
    cases hst : m.state <;>
      simp_all [mainStep, Awake, Scheduled, Machine.radioSide]
  | finishTest | sendTest | sendStatus | armTest | readyTest | spuriousTest | readCall
    | restartTest =>
    intro hs
    have hh := h hs
    simp only [mainStep]
    split_ifs <;> simp_all [Scheduled, Machine.radioSide, Pc.inTransmit]
  | _ => simp_all [mainStep, Awake, Scheduled, Machine.radioSide, Pc.inTransmit]

theorem Awake.step {s t : Cfg Pc} {e : Event} (h : Awake s.pc s.m.radioSide)
    (ht : WalkieTalkie.step s e = some t) : Awake t.pc t.m.radioSide := by
  obtain ⟨rc, rfl, rfl⟩ | ⟨f, m, rfl, hf, rfl⟩ := step_cases ht
  · exact h.main rc
  · exact h.effect (RadioSide.envStep_effect hf)

theorem awake_boot : Awake boot.pc boot.m.radioSide := .of_arm rfl

/-- At the loop head in `STATE_RX` an arm is asked for, a check is asked for, a radio
interrupt is raised and not yet served, or the radio listens with nothing waiting. -/
theorem receiver_never_wedges {es : List Event} {s : Cfg Pc} (hr : run step boot es = some s)
    (hpc : s.pc = .loopHead) (hst : s.m.state = .rx) :
    s.m.rxArmNeeded = true ∨ s.m.rxPacketReady = true ∨
      0 < s.m.radio.payloadIrqs + s.m.radio.sentIrqs ∨
      (s.m.radio.mode = .listening ∧ s.m.radio.waiting = none) := by
  have h : Awake s.pc s.m.radioSide :=
    run_invariant (fun s => Awake s.pc s.m.radioSide) (fun _ _ _ hi ht => hi.step ht)
      awake_boot hr
  rw [hpc] at h
  exact h hst

/-- A payload interrupt taken in `STATE_TX`, then a release while `main` is in the
transmit branch. -/
def payloadInTransmit : List Event :=
  mains 6 ++ button 100000 ++ [.env (.payload [1]), .env (.radioIrq .payloadReady)] ++ mains 1 ++
    button 200000 ++ mains 5

def payloadInTransmitEnd : Cfg Pc := ends step boot payloadInTransmit (by decide +kernel)

theorem receiver_scheduled_after_release :
    payloadInTransmitEnd.m.rxArmNeeded = true ∨ payloadInTransmitEnd.m.rxPacketReady = true ∨
      0 < payloadInTransmitEnd.m.radio.payloadIrqs + payloadInTransmitEnd.m.radio.sentIrqs ∨
      (payloadInTransmitEnd.m.radio.mode = .listening ∧
        payloadInTransmitEnd.m.radio.waiting = none) :=
  receiver_never_wedges (run_ends _) (by decide +kernel) (by decide +kernel)

end WalkieTalkie.ReceiveArming
