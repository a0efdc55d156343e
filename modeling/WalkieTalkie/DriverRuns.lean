import WalkieTalkie.DriverRefinement

/-!
# Runs of the device with its driver

What the refinement gives for the chip itself: the receiver never stays deaf, the driver
never gets stuck and never fails to read, and the chip sends whole chunks.
-/
namespace WalkieTalkie.DriverRuns
open PartialRuns ReceiveArming

variable {drv : Sx127x} {es : List DriverEvent} {x : DriverDevice}

/-- An arm that is refused, one that is not, a payload of two bytes, and one chunk sent. -/
def hearAndTalk : List DriverEvent :=
  (mains 4).map granted ++ [.main true] ++
    (mains 7 ++ [Event.env (.payload [7, 8]), .env (.radioIrq .payloadReady)] ++ mains 71 ++
      button 100000 ++ samples 60 ++ [Event.env .micIrq] ++ mains 69).map granted

def hearAndTalkEnd : DriverDevice :=
  ends DriverDevice.step (DriverDevice.boot idleDriver) hearAndTalk (by decide +kernel)

/-- Every run of the device with its driver, in which no arm is refused that finds a packet
received and not read or dropped unread, is a run of the device with the abstract radio: the same
events outside `main`, and as many statements of `main`, each radio call returning some code. At
its end both are at the same statement with the same shared state, the radio is in the mode of
the chip, it holds the payload of the FIFO unless the driver has dropped one, and both have put
the same packets on the air. -/
theorem driver_refines_radio (hd : Idle drv)
    (hk : Along DriverDevice.step Spares (DriverDevice.boot drv) es)
    (hr : run DriverDevice.step (DriverDevice.boot drv) es = some x) :
    ∃ ds y, List.Forall₂ Matches es ds ∧ run Device.step Device.boot ds = some y ∧ Agrees x y := by
  obtain ⟨ds, y, hm, hy, h⟩ := exists_refined_run hd hk hr
  exact ⟨ds, y, hm, hy, h.agrees⟩

theorem driver_refines_radio_once : ∃ ds y, List.Forall₂ Matches hearAndTalk ds ∧
    run Device.step Device.boot ds = some y ∧ Agrees hearAndTalkEnd y :=
  driver_refines_radio idle_idleDriver (by decide +kernel) (run_ends _)

theorem mode_of_listening {c : Chip} (h : c.radioMode = .listening) : c.mode = modeRx := by
  by_contra hm
  rw [Chip.radioMode, if_neg hm] at h
  split_ifs at h

theorem ready_of_waiting {c : Chip} (h : c.radioWaiting = none) : c.payloadReady = false := by
  cases hp : c.payloadReady with
  | false => rfl
  | true =>
    rw [Chip.radioWaiting, if_pos hp] at h
    cases h

/-- In every run, refused switches included, at the loop head in `STATE_RX` an arm is asked for,
a check is asked for, a radio interrupt is raised and not yet served, or the chip is in receive
mode with nothing received. -/
theorem chip_never_deaf (hd : Idle drv)
    (hr : run DriverDevice.step (DriverDevice.boot drv) es = some x) (hpc : x.1.pc = .loopHead)
    (hst : x.1.b.m.state = .rx) :
    x.1.b.m.rxArmNeeded = true ∨ x.1.b.m.rxPacketReady = true ∨
      0 < x.1.b.m.radio.payloadIrqs + x.1.b.m.radio.sentIrqs ∨
      (x.1.b.drv.chip.mode = modeRx ∧ x.1.b.drv.chip.payloadReady = false) := by
  obtain ⟨y, h, _⟩ := run_simulated hd hr
  have hm := h.agrees.machine
  have ha : Scheduled y.1.m.radioSide := by
    have hw := h.awake
    rw [h.agrees.pc, hpc] at hw
    apply hw
    rw [hm]
    exact hst
  rcases ha with ha | ha | ha | ⟨hl, hw⟩
  · exact .inl (by rw [hm] at ha; exact ha)
  · exact .inr (.inl (by rw [hm] at ha; exact ha))
  · apply Or.inr ∘ Or.inr ∘ Or.inl
    rw [← h.agrees.payloadIrqs, ← h.agrees.sentIrqs]
    exact ha
  · have hmode := mode_of_listening (h.agrees.mode.symm.trans hl)
    have hlost := h.sane.not_lost (by rw [hmode]; decide)
    exact .inr (.inr (.inr ⟨hmode, ready_of_waiting ((h.agrees.waiting hlost).symm.trans hw)⟩))

/-- The payload has been queued. -/
def heardEnd : DriverDevice :=
  ends DriverDevice.step (DriverDevice.boot idleDriver) (hearAndTalk.take 85) (by decide +kernel)

theorem chip_never_deaf_once : heardEnd.1.b.m.rxArmNeeded = true ∨
    heardEnd.1.b.m.rxPacketReady = true ∨
      0 < heardEnd.1.b.m.radio.payloadIrqs + heardEnd.1.b.m.radio.sentIrqs ∨
      (heardEnd.1.b.drv.chip.mode = modeRx ∧ heardEnd.1.b.drv.chip.payloadReady = false) :=
  chip_never_deaf (x := heardEnd) idle_idleDriver (run_ends _) (by decide +kernel)
    (by decide +kernel)

/-- What `main` finds after a statement that runs the driver: a read always succeeds, and a
send or an arm fails only by a refused switch. -/
def Answers (refuse : Bool) (b : Board) : Pc → Pc → Prop
  | .readCall, pc => pc = .stageByte 0
  | .sendLaunch _, pc => pc = .sendNotDone (if refuse then errSpiWriteFailed else errNone)
  | .armCall, pc => pc = (if refuse then .armFailed else .readyTest) ∧
      (Sx127x.startReceive.run (b.driver refuse)).map Prod.fst =
        some (if refuse then errSpiWriteFailed else errNone)
  | _, _ => True

theorem exists_answer {y : Device} (h : Refines x y) (refuse : Bool) :
    ∃ r, driverStatement refuse x.1.b x.1.pc = some r ∧ Answers refuse x.1.b x.1.pc r.1 := by
  have hheld := h.sane.held
  have hbuf := h.buffer
  rw [h.agrees.pc] at hbuf
  cases hpc : x.1.pc with
  | finishCall => exact ⟨_, statement_finishCall h.sane.ready refuse, trivial⟩
  | sendCall txIdx => exact ⟨_, statement_sendCall h.sane.ready refuse txIdx, trivial⟩
  | sendLaunch buf =>
    rw [hpc] at hheld hbuf
    refine ⟨_, statement_sendLaunch h.sane.ready refuse hheld hbuf, ?_⟩
    cases refuse <;> rfl
  | armCall =>
    have hrun := (x.1.b.ready_driver h.sane.ready refuse).startReceive_run
    refine ⟨_, statement_armCall h.sane.ready refuse, ?_, ?_⟩
    · cases refuse <;> rfl
    · rw [hrun]
      cases refuse <;> rfl
  | spuriousTest => exact ⟨_, statement_spuriousTest x.1.b refuse, trivial⟩
  | readCall =>
    rw [hpc] at hheld
    obtain ⟨n, p, hf, hp⟩ := h.sane.packet hheld
    exact ⟨_, statement_readCall h.sane.ready refuse hf hp, rfl⟩
  | _ => exact ⟨_, driverStatement_plain rfl, trivial⟩

/-- The driver never gets stuck, and none of its calls fails but by a refused switch. -/
theorem driver_never_fails (hd : Idle drv)
    (hr : run DriverDevice.step (DriverDevice.boot drv) es = some x) (refuse : Bool) :
    ∃ x', DriverDevice.step x (.main refuse) = some x' ∧ Answers refuse x.1.b x.1.pc x'.1.pc := by
  obtain ⟨y, h, _⟩ := run_simulated hd hr
  obtain ⟨r, hs, ha⟩ := exists_answer h refuse
  refine ⟨(⟨r.1, r.2⟩, x.2.record x.1 (.main refuse)), tracked_eq_some.mpr ⟨?_, rfl⟩, ha⟩
  simp only [DriverCfg.step, hs, Option.map_some]

/-- `main` is about to read. -/
def readEnd : DriverDevice :=
  ends DriverDevice.step (DriverDevice.boot idleDriver) (hearAndTalk.take 17) (by decide +kernel)

theorem driver_never_fails_once : ∃ x', DriverDevice.step readEnd (.main true) = some x' ∧
    Answers true readEnd.1.b readEnd.1.pc x'.1.pc :=
  driver_never_fails (x := readEnd) idle_idleDriver (run_ends _) true

/-- Every packet the chip takes out of its FIFO and puts on the air has sixty bytes. -/
theorem frames_are_whole (hd : Idle drv)
    (hr : run DriverDevice.step (DriverDevice.boot drv) es = some x) :
    ∀ p ∈ x.2.frames, p.length = chunkSize := by
  obtain ⟨y, h, hf⟩ := run_simulated hd hr
  rw [← h.agrees.aired]
  exact hf.aired

theorem frames_are_whole_once :
    hearAndTalkEnd.2.frames.all (fun p => decide (p.length = chunkSize)) = true := by
  apply List.all_eq_true.mpr
  intro p hp
  exact decide_eq_true (frames_are_whole (x := hearAndTalkEnd) idle_idleDriver (run_ends _) p hp)

end WalkieTalkie.DriverRuns
