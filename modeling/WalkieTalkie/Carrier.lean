import WalkieTalkie.DeviceLog
import WalkieTalkie.ReceiveArming

/-!
# A released device goes off the air

In `STATE_RX` a radio that still transmits has an arm coming, since the release asks for one
and `main` clears the request only on its way to the call. Between the release and that call
lies at most the rest of one send step.
-/
namespace WalkieTalkie.Carrier
open PartialRuns ReceiveArming

/-- `main` has tested `rx_arm_needed` in this iteration and is past the call. -/
def pastArm : Pc → Bool
  | .armFailed | .readyTest | .readyClear | .spuriousTest | .spuriousArm | .readCall
  | .stageByte _ | .stageFlag | .stageAdvance | .restartTest | .restartAddr | .restartEnable
  | .restartCount | .rearm => true
  | _ => false

/-- The statements at which an arm is tested or called for. -/
def arming : Pc → Bool
  | .armTest | .armClear | .armCall => true
  | _ => false

/-- `main` calls for an arm before it looks at the radio again. -/
structure ArmOwed (pc : Pc) (v : RadioSide) : Prop where
  before : pastArm pc = false
  asked : v.state = .rx ∨ pc = .armTest → v.rxArmNeeded = true ∨ pc = .armClear ∨ pc = .armCall

namespace ArmOwed

variable {pc pc' : Pc} {m : Machine} {v v' : RadioSide}

theorem of_inTransmit (hp : pc.inTransmit = true) (hw : Awake pc v) : ArmOwed pc v := by
  refine ⟨?_, fun hs => .inl ?_⟩
  · cases pc <;> first | rfl | cases hp
  · rcases hs with hs | rfl
    · have ha := hw hs
      cases pc <;> first | exact ha rfl | cases hp
    · cases hp

theorem isr (h : ArmOwed pc v) : ArmOwed pc v.isr := by
  obtain ⟨hp, ha⟩ := h
  cases hst : v.state <;> exact ⟨hp, by simpa [RadioSide.isr, hst] using ha⟩

theorem effect {e : Env} (h : ArmOwed pc m.radioSide) (he : RadioSide.Effect m e v) :
    ArmOwed pc v := by
  cases he with
  | audio | payload | packetSent => exact ⟨h.before, h.asked⟩
  | press => exact ⟨h.before, fun hs => h.asked (hs.imp_left fun hc => by cases hc)⟩
  | release | pressRelease => exact ⟨h.before, fun _ => .inl rfl⟩
  | payloadIsr | sentIsr =>
    apply isr
    exact ⟨h.before, h.asked⟩
  | spurious => exact h.isr

/-- In `STATE_RX` the arm is asked for, away from the test and the call. -/
theorem needed (h : ArmOwed pc v) (hs : v.state = .rx) (hc : arming pc = false) :
    v.rxArmNeeded = true := by
  rcases h.asked (.inl hs) with ha | rfl | rfl
  · exact ha
  · cases hc
  · cases hc

/-- Going on with the same flags, away from the test and the call. -/
theorem goto (h : ArmOwed pc v) (hst : v'.state = v.state) (ha : v'.rxArmNeeded = v.rxArmNeeded)
    (hp : pastArm pc' = false) (hc : arming pc = false) (hc' : arming pc' = false) :
    ArmOwed pc' v' := by
  refine ⟨hp, fun hs => .inl (ha.trans (h.needed (hst.symm.trans ?_) hc))⟩
  exact hs.elim id fun h => by cases h; cases hc'

/-- Every statement but the call itself leaves the arm owed. -/
theorem main (rc : Int) (h : ArmOwed pc m.radioSide) (hc : pc ≠ .armCall) :
    ArmOwed (mainStep rc m pc).1 (mainStep rc m pc).2.radioSide := by
  cases pc with
  | armCall => exact absurd rfl hc
  | sendLoad txIdx i buf =>
    simp only [mainStep]
    exact nextSample_ind (P := fun pc => ArmOwed pc m.radioSide)
      (fun _ => h.goto rfl rfl rfl rfl rfl) fun _ => h.goto rfl rfl rfl rfl rfl
  | armTest =>
    have ha : m.rxArmNeeded = true := by simpa [Machine.radioSide] using h.asked (.inr rfl)
    exact ⟨by simp [mainStep, ha, pastArm], by simp [mainStep, ha]⟩
  | armClear => exact ⟨rfl, fun _ => .inr (.inr rfl)⟩
  | rxTest =>
    simp only [mainStep]
    split_ifs with hs
    · exact ⟨rfl, fun _ => .inl (h.needed hs rfl)⟩
    · exact h.goto rfl rfl rfl rfl rfl
  | loopHead | finishTest | sendTest | sendStatus =>
    simp only [mainStep]
    split_ifs <;> exact h.goto rfl rfl rfl rfl rfl
  | finishClear | finishCall | finishDone | sendIndex | sendCall | sendLaunch | sendNotDone
  | sendFailed | sendClear | sendAdvance => exact h.goto rfl rfl rfl rfl rfl
  | _ => cases h.before

end ArmOwed

/-- A transmitting radio of a listening device will be armed. -/
def Keyed (pc : Pc) (v : RadioSide) : Prop := v.radio.mode = .transmitting → ArmOwed pc v

theorem Keyed.of_mode {pc : Pc} {v : RadioSide} (h : v.radio.mode ≠ .transmitting) : Keyed pc v :=
  fun hm => absurd hm h

/-- Nothing but `main` starts a transmission. -/
theorem effect_transmitting {m : Machine} {e : Env} {v : RadioSide} (he : RadioSide.Effect m e v)
    (hm : v.radio.mode = .transmitting) : m.radio.mode = .transmitting := by
  cases he with
  | payload hl => exact hm
  | packetSent => cases hm
  | payloadIsr | sentIsr | spurious =>
    cases hst : m.state <;> simpa [RadioSide.isr, Machine.radioSide, hst] using hm
  | _ => exact hm

theorem Keyed.effect {pc : Pc} {m : Machine} {e : Env} {v : RadioSide} (h : Keyed pc m.radioSide)
    (he : RadioSide.Effect m e v) : Keyed pc v :=
  fun hm => (h (effect_transmitting he hm)).effect he

theorem Keyed.main {pc : Pc} {m : Machine} (rc : Int) (h : Keyed pc m.radioSide)
    (hw : Awake pc m.radioSide) :
    Keyed (mainStep rc m pc).1 (mainStep rc m pc).2.radioSide := by
  cases pc with
  | finishCall | sendCall => exact .of_mode fun hc => by cases hc
  | armCall =>
    apply Keyed.of_mode
    by_cases hr : rc = 0 <;> simp [mainStep, Machine.radioSide, Radio.rfm9xStartReceive, hr]
  | sendLaunch buf => exact fun _ => (ArmOwed.of_inTransmit rfl hw).main rc (by simp)
  | _ => exact fun hm => (h hm).main rc (by simp)

/-- How many statements `main` is at most away from the end of the arm call, if it is on its
way there. -/
def toArm : Pc → ℕ
  | .armCall => 1
  | .armClear => 2
  | .armTest => 3
  | .rxTest => 4
  | .loopHead => 5
  | .sendAdvance | .sendFailed => 6
  | .sendClear => 7
  | .sendStatus _ => 8
  | .sendNotDone _ => 9
  | .sendLaunch _ => 10
  | .sendLoad _ i _ => 10 + (chunkSize - i)
  | .sendCall _ => 71
  | .sendIndex => 72
  | .sendTest => 73
  | .finishDone => 74
  | .finishCall => 75
  | .finishClear => 76
  | .finishTest => 77
  | _ => 0

theorem toArm_le (pc : Pc) : toArm pc ≤ 77 := by
  cases pc <;> simp only [toArm, chunkSize] <;> omega

/-- The device listens, does not transmit, and is not about to. -/
structure Off (pc : Pc) (v : RadioSide) : Prop where
  listening : v.state = .rx
  silent : v.radio.mode ≠ .transmitting
  outside : pc.inTransmit = false

/-- A listening device that is on its way off the air. -/
structure Leaving (pc : Pc) (v : RadioSide) : Prop where
  listening : v.state = .rx
  awake : Awake pc v
  keyed : Keyed pc v

def Event.isMain : Event → Bool
  | .main _ => true
  | .env _ => false

theorem effect_listening {m : Machine} {e : Env} {v : RadioSide} (hb : ButtonFree (.env e))
    (he : RadioSide.Effect m e v) (hs : m.state = .rx) :
    v.state = .rx ∧ (m.radio.mode ≠ .transmitting → v.radio.mode ≠ .transmitting) := by
  cases he with
  | audio => exact ⟨hs, id⟩
  | press | release | pressRelease => cases hb
  | payload => exact ⟨hs, id⟩
  | packetSent => exact ⟨hs, fun _ hc => by cases hc⟩
  | payloadIsr | sentIsr | spurious => simp [RadioSide.isr, Machine.radioSide, hs]

theorem mainStep_state {rc : Int} {m : Machine} {pc : Pc} :
    (mainStep rc m pc).2.state = m.state := by
  cases pc <;> rfl

theorem Off.main {pc : Pc} {m : Machine} (rc : Int) (h : Off pc m.radioSide) :
    Off (mainStep rc m pc).1 (mainStep rc m pc).2.radioSide := by
  obtain ⟨hs, hm, ho⟩ := h
  have hs' : m.state = .rx := hs
  cases pc with
  | stageByte i =>
    exact ⟨hs, hm, nextSample_ind (P := fun pc => Pc.inTransmit pc = false) (fun _ => rfl)
      fun _ => rfl⟩
  | armCall =>
    by_cases hr : rc = 0 <;>
      exact ⟨hs, by simp [mainStep, Machine.radioSide, Radio.rfm9xStartReceive, hr],
        by simp [mainStep, hr, Pc.inTransmit]⟩
  | loopHead => exact ⟨hs, hm, by simp [mainStep, hs', Pc.inTransmit]⟩
  | rxTest | armTest | readyTest | spuriousTest | readCall | restartTest =>
    refine ⟨hs, hm, ?_⟩
    simp only [mainStep]
    split_ifs <;> rfl
  | finishTest | finishClear | finishCall | finishDone | sendTest | sendIndex | sendCall | sendLoad
  | sendLaunch | sendNotDone | sendStatus | sendFailed | sendClear | sendAdvance => cases ho
  | _ => exact ⟨hs, hm, rfl⟩

theorem Leaving.main {pc : Pc} {m : Machine} (rc : Int) (h : Leaving pc m.radioSide) :
    Leaving (mainStep rc m pc).1 (mainStep rc m pc).2.radioSide :=
  ⟨mainStep_state.trans h.listening, h.awake.main rc, h.keyed.main rc h.awake⟩

/-- Every statement of `main` brings a device that is not off the air nearer to the arm. -/
theorem Leaving.nearer {pc : Pc} {m : Machine} (rc : Int) (h : Leaving pc m.radioSide) :
    Off (mainStep rc m pc).1 (mainStep rc m pc).2.radioSide ∨
      toArm (mainStep rc m pc).1 + 1 ≤ toArm pc := by
  by_cases hoff : Off pc m.radioSide
  · exact .inl (hoff.main rc)
  have hs : m.state = .rx := h.listening
  have key : pc.inTransmit = false → m.radio.mode = .transmitting := by
    intro ho
    by_contra hm
    exact hoff ⟨hs, hm, ho⟩
  cases pc with
  | sendLoad txIdx i buf =>
    have hi := i.isLt
    refine .inr ?_
    simp only [mainStep]
    refine nextSample_ind (P := fun pc => toArm pc + 1 ≤ toArm (.sendLoad txIdx i buf))
      (fun hn => ?_) fun hn => ?_ <;> simp only [toArm, chunkSize] at hn hi ⊢ <;> omega
  | loopHead | rxTest => simp [mainStep, hs, toArm]
  | finishTest | sendTest | sendStatus =>
    refine .inr ?_
    simp only [mainStep]
    split_ifs <;> simp [toArm]
  | armTest =>
    have ha' : m.rxArmNeeded = true := by
      simpa [Machine.radioSide] using (h.keyed (key rfl)).asked (.inr rfl)
    simp [mainStep, ha', toArm]
  | armCall =>
    by_cases hr : rc = 0 <;>
      exact .inl ⟨hs, by simp [mainStep, Machine.radioSide, Radio.rfm9xStartReceive, hr],
        by simp [mainStep, hr, Pc.inTransmit]⟩
  | finishClear | finishCall | finishDone | sendIndex | sendCall | sendLaunch | sendNotDone
  | sendFailed | sendClear | sendAdvance | armClear => exact .inr (by simp [mainStep, toArm, chunkSize])
  | _ => cases (h.keyed (key rfl)).before

/-- The arming of the receiver and the end of a transmission go together. -/
structure Settled (s : Cfg Pc) : Prop where
  awake : Awake s.pc s.m.radioSide
  keyed : Keyed s.pc s.m.radioSide

theorem Settled.step {s t : Cfg Pc} {e : Event} (h : Settled s)
    (ht : WalkieTalkie.step s e = some t) : Settled t := by
  refine ⟨h.awake.step ht, ?_⟩
  obtain ⟨rc, rfl, rfl⟩ | ⟨f, m, rfl, hf, rfl⟩ := step_cases ht
  · exact h.keyed.main rc h.awake
  · exact h.keyed.effect (RadioSide.envStep_effect hf)

theorem settled_boot : Settled boot := ⟨awake_boot, .of_mode fun hc => by cases hc⟩

theorem Leaving.step {s t : Cfg Pc} {e : Event} (h : Leaving s.pc s.m.radioSide)
    (hb : ButtonFree e) (ht : WalkieTalkie.step s e = some t) : Leaving t.pc t.m.radioSide := by
  obtain ⟨rc, rfl, rfl⟩ | ⟨f, m, rfl, hf, rfl⟩ := step_cases ht
  · exact h.main rc
  · have he := RadioSide.envStep_effect hf
    exact ⟨(effect_listening hb he h.listening).1, h.awake.effect he, h.keyed.effect he⟩

theorem Off.step {s t : Cfg Pc} {e : Event} (h : Off s.pc s.m.radioSide) (hb : ButtonFree e)
    (ht : WalkieTalkie.step s e = some t) : Off t.pc t.m.radioSide := by
  obtain ⟨rc, rfl, rfl⟩ | ⟨f, m, rfl, hf, rfl⟩ := step_cases ht
  · exact h.main rc
  · obtain ⟨hs, hm⟩ := effect_listening hb (RadioSide.envStep_effect hf) h.listening
    exact ⟨hs, hm h.silent, h.outside⟩

/-- A device found in `STATE_RX` in any reachable state is off the air after seventy-eight
statements of `main` without a button interrupt, whatever the radio calls return, and stays so. -/
theorem released_goes_off_the_air {es fs : List Event} {s t : Cfg Pc}
    (hr : run step boot es = some s) (hst : s.m.state = .rx) (hb : ∀ e ∈ fs, ButtonFree e)
    (hf : run step s fs = some t) (hn : 78 ≤ fs.countP Event.isMain) :
    t.m.radio.mode ≠ .transmitting := by
  have hs : Settled s := run_invariant Settled (fun _ _ _ hi ht => hi.step ht) settled_boot hr
  have hl : toArm s.pc < fs.countP Event.isMain := (toArm_le s.pc).trans_lt hn
  have hoff : Off t.pc t.m.radioSide := by
    refine (along_of_forall hb s).reaches (fun s => Leaving s.pc s.m.radioSide)
      (fun s => Off s.pc s.m.radioSide) Event.isMain (fun s => toArm s.pc)
      (fun _ _ _ hi hc ht => hi.step hc ht) (fun _ _ _ _ hc ht ho => ho.step hc ht) ?_
      ⟨hst, hs.awake, hs.keyed⟩ hf hl
    intro u e w hi hc ht
    obtain ⟨rc, rfl, rfl⟩ | ⟨f, m, rfl, _, rfl⟩ := step_cases ht
    · exact hi.nearer rc
    · exact .inr (Nat.le_refl _)
  exact hoff.silent

/-- A release while the first packet of the press is being loaded. -/
def releaseWhileLoading : List Event :=
  button 100000 ++ samples 60 ++ [.env .micIrq] ++ mains 30 ++ button 200000

def releaseWhileLoadingEnd : Cfg Pc := ends step boot releaseWhileLoading (by decide +kernel)

def afterRelease : Cfg Pc := ends step releaseWhileLoadingEnd (mains 78) (by decide +kernel)

theorem released_goes_off_the_air_loading : afterRelease.m.radio.mode ≠ .transmitting :=
  released_goes_off_the_air (run_ends _) (by decide +kernel) (by decide +kernel)
    (run_ends (s := releaseWhileLoadingEnd) _) (by decide +kernel)

/-- The talk flag is down while the device listens. -/
def Disabled (v : RadioSide) : Prop := v.state = .rx → v.txEnable = false

theorem mainStep_txEnable {rc : Int} {m : Machine} {pc : Pc} :
    (mainStep rc m pc).2.txEnable = m.txEnable := by
  cases pc <;> rfl

theorem Disabled.step {s t : Cfg Pc} {e : Event} (h : Disabled s.m.radioSide)
    (ht : WalkieTalkie.step s e = some t) : Disabled t.m.radioSide := by
  obtain ⟨rc, rfl, rfl⟩ | ⟨f, m, rfl, hf, rfl⟩ := step_cases ht
  · exact fun hs => mainStep_txEnable.trans (h (mainStep_state.symm.trans hs))
  · have he := RadioSide.envStep_effect hf
    show Disabled m.radioSide
    generalize m.radioSide = v at he
    cases he with
    | audio | payload | packetSent => exact h
    | press => exact fun hs => by cases hs
    | release | pressRelease => exact fun _ => rfl
    | payloadIsr | sentIsr | spurious =>
      cases hst : s.m.state <;> simp_all [Disabled, RadioSide.isr, Machine.radioSide]

/-- What the device has put on the air since `x`, counted with what it still may. -/
structure Winding (x y : Device) : Prop where
  listening : y.1.m.state = .rx
  disabled : Disabled y.1.m.radioSide
  budget : ∃ more, y.2.air.aired = x.2.air.aired ++ more ∧
    more.length + (CaptureSession.holdsTest y.1.pc).toNat ≤
      (CaptureSession.holdsTest x.1.pc).toNat

open CaptureSession in
/-- With the flag down no statement begins a send step. -/
theorem holdsTest_mainStep {rc : Int} {m : Machine} {pc : Pc} (hd : m.txEnable = false) :
    (holdsTest (mainStep rc m pc).1).toNat + (airs ⟨pc, m⟩ (.main rc)).toList.length ≤
      (holdsTest pc).toNat := by
  cases pc with
  | sendTest => simp [mainStep, hd, holdsTest, airs]
  | sendLoad txIdx i buf =>
    simp only [mainStep]
    exact nextSample_ind (P := fun pc => (holdsTest pc).toNat + 0 ≤ 1) (fun _ => Nat.le_refl _)
      fun _ => Nat.le_refl _
  | stageByte i =>
    simp only [mainStep]
    exact nextSample_ind (P := fun pc => (holdsTest pc).toNat + 0 ≤ 0) (fun _ => Nat.le_refl _)
      fun _ => Nat.le_refl _
  | sendLaunch buf => by_cases hr : rc = 0 <;> simp [mainStep, holdsTest, airs, hr]
  | loopHead | finishTest | sendStatus | rxTest | armTest | armCall | readyTest | spuriousTest
  | readCall | restartTest =>
    simp only [mainStep]
    split_ifs <;> simp [holdsTest, airs]
  | _ => simp [mainStep, holdsTest, airs]

theorem Winding.step {x y z : Device} {e : Event} (h : Winding x y) (hb : ButtonFree e)
    (ht : Device.step y e = some z) : Winding x z := by
  obtain ⟨more, hm, hn⟩ := h.budget
  have hd : y.1.m.txEnable = false := h.disabled h.listening
  have hs : WalkieTalkie.step y.1 e = some z.1 := (tracked_eq_some.mp ht).1
  refine ⟨?_, h.disabled.step hs, more ++ (airs y.1 e).toList, ?_, ?_⟩
  · obtain ⟨rc, rfl, hz⟩ | ⟨f, m, rfl, hf, hz⟩ := step_cases hs
    · rw [hz]
      exact mainStep_state.trans h.listening
    · rw [hz]
      exact (effect_listening hb (RadioSide.envStep_effect hf) h.listening).1
  · rw [Device.aired_step ht, hm, List.append_assoc]
  · rw [List.length_append]
    obtain ⟨rc, rfl, hz⟩ | ⟨f, m, rfl, hf, hz⟩ := step_cases hs
    · have hc : (CaptureSession.holdsTest (mainStep rc y.1.m y.1.pc).1).toNat +
          (airs y.1 (.main rc)).toList.length ≤ (CaptureSession.holdsTest y.1.pc).toNat :=
        holdsTest_mainStep hd
      rw [hz]
      simp only
      omega
    · rw [hz]
      exact hn

/-- A device found in `STATE_RX` in any reachable state puts nothing more on the air until the
next button interrupt but the one packet whose test at line 124 it has already passed. -/
theorem released_sends_at_most_one {es fs : List Event} {x y : Device}
    (hr : run Device.step Device.boot es = some x) (hst : x.1.m.state = .rx)
    (hb : ∀ e ∈ fs, ButtonFree e) (hf : run Device.step x fs = some y) :
    ∃ more, y.2.air.aired = x.2.air.aired ++ more ∧
      more.length ≤ (CaptureSession.holdsTest x.1.pc).toNat := by
  have hd : Disabled x.1.m.radioSide :=
    run_invariant (fun x => Disabled x.1.m.radioSide)
      (fun _ _ _ hi ht => hi.step (tracked_eq_some.mp ht).1) (fun _ => rfl) hr
  have hw : Winding x y := (along_of_forall hb x).invariant (Winding x)
    (fun _ _ _ hi hc ht => hi.step hc ht) ⟨hst, hd, [], by simp, by simp⟩ hf
  obtain ⟨more, hm, hn⟩ := hw.budget
  exact ⟨more, hm, by omega⟩

def loadingDevice : Device := ends Device.step Device.boot releaseWhileLoading (by decide +kernel)

def loadingDeviceEnd : Device := ends Device.step loadingDevice (mains 78) (by decide +kernel)

theorem released_sends_at_most_one_loading : ∃ more,
    loadingDeviceEnd.2.air.aired = loadingDevice.2.air.aired ++ more ∧ more.length ≤
      (CaptureSession.holdsTest loadingDevice.1.pc).toNat :=
  released_sends_at_most_one (run_ends _) (by decide +kernel) (by decide +kernel)
    (run_ends (s := loadingDevice) _)

end WalkieTalkie.Carrier
