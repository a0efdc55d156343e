import WalkieTalkie.DriverDevice

/-!
# The driver refines the radio

Every run of the device with its driver is matched step by step by a run of the device
with the abstract radio: the mode is read off the mode register, a waiting payload off the
FIFO. The abstract radio keeps a payload where the driver drops it unread, on its way to
standby; the two agree again once a switch to the receiver or the transmitter takes.
-/
namespace WalkieTalkie
open PartialRuns ReceiveArming Carrier

structure DriverLog where
  /-- A payload has been dropped unread, with no arm and no start of a packet since. -/
  lost : Bool
  /-- What was in the FIFO each time the transmitter was on after a start of a packet. -/
  frames : List (List UInt8)

namespace DriverLog

def start : DriverLog := ⟨false, []⟩

def record (s : DriverCfg) (e : DriverEvent) (h : DriverLog) : DriverLog :=
  match e with
  | .env _ => h
  | .main _ => match s.pc with
    | .finishCall | .sendCall _ => { h with lost := h.lost || s.b.drv.chip.payloadReady }
    | .sendLaunch _ => match s.step e with
      | none => h
      | some t =>
        if t.b.drv.chip.mode = modeTx then
          { lost := false, frames := h.frames ++ [t.b.drv.chip.frame] }
        else h
    | .armCall => { h with lost := false }
    | _ => h

end DriverLog

abbrev DriverDevice := DriverCfg × DriverLog

namespace DriverDevice

def step : DriverDevice → DriverEvent → Option DriverDevice :=
  tracked DriverCfg.step DriverLog.record

/-- The device when `main` reaches `for(;;)`, over a driver that `beginFSK` has set up. -/
def boot (drv : Sx127x) : DriverDevice := (⟨.loopHead, ⟨bootMachine, drv, 0⟩⟩, DriverLog.start)

end DriverDevice

namespace Chip

def radioMode (c : Chip) : RadioMode :=
  if c.mode = modeRx then .listening
  else if c.mode = modeTx ∧ c.packetSent = false then .transmitting
  else .standby

def radioWaiting (c : Chip) : Option (List UInt8) :=
  if c.payloadReady then some c.fifo.tail else none

theorem radioMode_standby {c : Chip} (h : c.mode = modeStandby) : c.radioMode = .standby := by
  rw [radioMode, h, if_neg (by decide), if_neg fun hc => absurd hc.1 (by decide)]

theorem radioMode_rx {c : Chip} (h : c.mode = modeRx) : c.radioMode = .listening := if_pos h

theorem radioMode_tx {c : Chip} (h : c.mode = modeTx) (hs : c.packetSent = false) :
    c.radioMode = .transmitting := by
  rw [radioMode, if_neg (by rw [h]; decide), if_pos ⟨h, hs⟩]

theorem radioWaiting_none {c : Chip} (h : c.payloadReady = false) : c.radioWaiting = none := by
  simp [radioWaiting, h]

end Chip

/-- The chip between two statements of `main`. -/
structure Sane (x : DriverDevice) : Prop where
  ready : x.1.b.drv.Ready
  packet : x.1.b.drv.chip.payloadReady = true →
    ∃ n p, x.1.b.drv.chip.fifo = n :: p ∧ p.length = n.toNat
  silent : x.1.b.drv.chip.mode = modeTx → x.1.b.drv.chip.payloadReady = false
  lost : x.2.lost = true → x.1.b.drv.chip.mode = modeStandby ∧ x.1.b.drv.chip.payloadReady = false
  held : Held x.1.pc x.1.b

/-- The abstract device shows the same, but for a payload the driver has dropped. -/
structure Agrees (x : DriverDevice) (y : Device) : Prop where
  pc : y.1.pc = x.1.pc
  machine : y.1.m = x.1.b.m.withRadio y.1.m.radio
  mode : y.1.m.radio.mode = x.1.b.drv.chip.radioMode
  payloadIrqs : y.1.m.radio.payloadIrqs = x.1.b.m.radio.payloadIrqs
  sentIrqs : y.1.m.radio.sentIrqs = x.1.b.m.radio.sentIrqs
  waiting : x.2.lost = false → y.1.m.radio.waiting = x.1.b.drv.chip.radioWaiting
  aired : y.2.air.aired = x.2.frames

structure Refines (x : DriverDevice) (y : Device) : Prop where
  sane : Sane x
  agrees : Agrees x y
  owed : x.2.lost = true → ArmOwed y.1.pc y.1.m.radioSide
  awake : Awake y.1.pc y.1.m.radioSide
  buffer : BufferLength y.1.pc

/-- An event of the driver's device and the abstract one it is matched by. -/
def Matches : DriverEvent → Event → Prop
  | .main _, .main _ => True
  | .env e, .env f => e = f
  | _, _ => False

/-- An arm that is refused finds no packet received and not read, nor one dropped unread since the
last arm or start of a packet. -/
def Spares (x : DriverDevice) : DriverEvent → Prop
  | .main true => x.1.pc = .armCall → x.2.lost = false ∧ x.1.b.drv.chip.payloadReady = false
  | _ => True

theorem Refines.step_main {x x' : DriverDevice} {y : Device} (h : Refines x y) (refuse : Bool)
    (rc : Int) (hs : Sane x') (ha : Agrees x' (⟨(mainStep rc y.1.m y.1.pc).1,
      (mainStep rc y.1.m y.1.pc).2⟩, y.2.record y.1 (.main rc)))
    (ho : x'.2.lost = true → y.1.pc.inTransmit = true ∨ x.2.lost = true ∧ y.1.pc ≠ .armCall) :
    ∃ d v, Matches (.main refuse) d ∧ Device.step y d = some v ∧ Refines x' v := by
  refine ⟨.main rc, _, trivial, rfl, hs, ha, fun hl => ?_, h.awake.main rc, h.buffer.main⟩
  rcases ho hl with ht | ⟨hx, hc⟩
  · refine (ArmOwed.of_inTransmit ht h.awake).main rc ?_
    intro hc
    rw [hc] at ht
    cases ht
  · exact (h.owed hx).main rc hc

theorem DriverDevice.step_statement {x x' : DriverDevice} {refuse : Bool} {pc : Pc} {b : Board}
    (hx : DriverDevice.step x (.main refuse) = some x')
    (hr : driverStatement refuse x.1.b x.1.pc = some (pc, b)) :
    x' = (⟨pc, b⟩, x.2.record x.1 (.main refuse)) := by
  obtain ⟨s, l⟩ := x
  obtain ⟨s', l'⟩ := x'
  obtain ⟨hs, rfl⟩ := tracked_eq_some.mp hx
  have ht : DriverCfg.step s (.main refuse) = some ⟨pc, b⟩ := by
    simp only [DriverCfg.step, hr, Option.map_some]
  rw [Option.some.inj (hs.symm.trans ht)]

theorem DriverLog.record_sendLaunch {b : Board} {refuse : Bool} {buf : List UInt8}
    {r : Pc × Board} (hr : driverStatement refuse b (.sendLaunch buf) = some r) (h : DriverLog) :
    DriverLog.record ⟨.sendLaunch buf, b⟩ (.main refuse) h =
      if r.2.drv.chip.mode = modeTx then
        { lost := false, frames := h.frames ++ [r.2.drv.chip.frame] }
      else h := by
  simp only [DriverLog.record, DriverCfg.step, hr, Option.map_some]

section
variable {x' : DriverDevice} {b : Board} {l : DriverLog} {buf : List UInt8} (hr : b.drv.Ready)
  (hh : Held (.sendLaunch buf) b) (hlen : buf.length = chunkSize)
include hr hh hlen

/-- A start of a packet that is refused puts nothing on the air. -/
theorem DriverDevice.step_refusedLaunch
    (hx : DriverDevice.step (⟨.sendLaunch buf, b⟩, l) (.main true) = some x') :
    x' = (⟨.sendNotDone errSpiWriteFailed, { b with drv := (b.driver true).unlaunched buf }⟩,
      l) := by
  have hrun := statement_sendLaunch hr true hh hlen
  rw [if_pos rfl] at hrun
  have hm : ((b.driver true).unlaunched buf).chip.mode ≠ modeTx := by
    rw [show ((b.driver true).unlaunched buf).chip.mode = modeStandby from hh.2.1]
    decide
  have hx' := DriverDevice.step_statement hx hrun
  rwa [DriverLog.record_sendLaunch hrun, if_neg hm] at hx'

/-- One that is not has the FIFO sent. -/
theorem DriverDevice.step_launch
    (hx : DriverDevice.step (⟨.sendLaunch buf, b⟩, l) (.main false) = some x') :
    x' = (⟨.sendNotDone errNone, { b with drv := (b.driver false).launched buf }⟩,
      ⟨false, l.frames ++ [((b.driver false).launched buf).chip.frame]⟩) := by
  have hrun := statement_sendLaunch hr false hh hlen
  rw [if_neg Bool.false_ne_true] at hrun
  have hm : ((b.driver false).launched buf).chip.mode = modeTx := Chip.enter_mode ..
  have hx' := DriverDevice.step_statement hx hrun
  rwa [DriverLog.record_sendLaunch hrun, if_pos hm] at hx'

end

theorem Held.plain {pc : Pc} {b : Board} (h : Held pc b) (hc : pc.callsDriver = false)
    (m : Machine) : Held (mainStep 0 b.m pc).1 { b with m := m } := by
  cases pc with
  | sendLoad txIdx i buf =>
    simp only [mainStep]
    exact nextSample_ind (P := fun pc => Held pc { b with m := m }) (fun _ => h) fun _ => h
  | stageByte i =>
    simp only [mainStep]
    exact nextSample_ind (P := fun pc => Held pc { b with m := m }) (fun _ => trivial)
      fun _ => trivial
  | finishCall | sendCall | sendLaunch | armCall | spuriousTest | readCall => cases hc
  | _ =>
    simp only [mainStep]
    (try split_ifs) <;> trivial

theorem mainStep_radio {m : Machine} {pc : Pc} (h : pc.callsDriver = false) :
    (mainStep 0 m pc).2.radio = m.radio := by
  cases pc <;> first | rfl | cases h

theorem withRadio_of_eq {m n : Machine} (hm : m = n.withRadio m.radio) (r : Radio) :
    m.withRadio r = n.withRadio r := by
  rw [hm]
  rfl

theorem fillSlot_of_eq {m n : Machine} (hm : m = n.withRadio m.radio) (bytes : List UInt8)
    (r : Radio) : (m.fillSlot bytes).withRadio r = (n.fillSlot bytes).withRadio r := by
  rw [hm]
  rfl

theorem aired_silent {s : Cfg Pc} {rc : Int} (h : airs s (.main rc) = none) (log : DeviceLog) :
    (log.record s (.main rc)).air.aired = log.air.aired := by
  show log.air.aired ++ (airs s (.main rc)).toList = _
  rw [h, Option.toList_none, List.append_nil]

theorem airs_plain {m : Machine} {pc : Pc} (h : pc.callsDriver = false) (rc : Int) :
    airs ⟨pc, m⟩ (.main rc) = none := by
  cases pc <;> first | rfl | cases h

/-- A statement that does not call the driver. -/
theorem Refines.plain {x x' : DriverDevice} {y : Device} {refuse : Bool} (h : Refines x y)
    (hc : x.1.pc.callsDriver = false) (hx : DriverDevice.step x (.main refuse) = some x') :
    ∃ d v, Matches (.main refuse) d ∧ Device.step y d = some v ∧ Refines x' v := by
  have hx' := DriverDevice.step_statement hx (driverStatement_plain hc)
  obtain ⟨⟨pc, b⟩, lost, frames⟩ := x
  obtain ⟨⟨pc', m⟩, log⟩ := y
  have hpc : pc' = pc := h.agrees.pc
  subst hpc
  have hm : m = b.m.withRadio m.radio := h.agrees.machine
  have hl : DriverLog.record ⟨pc', b⟩ (.main refuse) ⟨lost, frames⟩ = ⟨lost, frames⟩ := by
    cases pc' <;> first | rfl | cases hc
  rw [hl] at hx'
  subst hx'
  have hstep : mainStep 0 m pc' =
      ((mainStep 0 b.m pc').1, (mainStep 0 b.m pc').2.withRadio m.radio) := by
    rw [hm]
    exact mainStep_withRadio hc
  refine h.step_main refuse 0 ?_ ?_ fun hlost => .inr ⟨hlost, ?_⟩
  · exact ⟨h.sane.ready, h.sane.packet, h.sane.silent, h.sane.lost, h.sane.held.plain hc _⟩
  · refine ⟨?_, ?_, ?_, ?_, ?_, ?_, (aired_silent (airs_plain hc 0) log).trans h.agrees.aired⟩ <;>
      simp only [hstep]
    · rfl
    · exact h.agrees.mode
    · exact h.agrees.payloadIrqs.trans (congrArg Radio.payloadIrqs (mainStep_radio hc).symm)
    · exact h.agrees.sentIrqs.trans (congrArg Radio.sentIrqs (mainStep_radio hc).symm)
    · exact h.agrees.waiting
  · rintro rfl
    cases hc

/-- A chip in standby with nothing received. -/
theorem sane_standby {s : DriverCfg} {l : DriverLog} (hr : s.b.drv.Ready)
    (hm : s.b.drv.chip.mode = modeStandby) (hp : s.b.drv.chip.payloadReady = false)
    (hh : Held s.pc s.b) : Sane (s, l) where
  ready := hr
  packet := fun hc => by
    rw [hp] at hc
    cases hc
  silent := fun _ => hp
  lost := fun _ => ⟨hm, hp⟩
  held := hh

/-- The two calls that go to standby drop what the FIFO holds. -/
theorem Refines.toStandby {x x' : DriverDevice} {y : Device} {refuse : Bool} {pc₀ pc₁ : Pc}
    {c : Chip} {n : ℤ} (h : Refines x y) (hpc : x.1.pc = pc₀)
    (hx : DriverDevice.step x (.main refuse) = some x')
    (hrun : driverStatement refuse x.1.b pc₀ =
      some (pc₁, ⟨x.1.b.m, (x.1.b.driver refuse).withChip c, n⟩))
    (hmain : ∀ m : Machine, mainStep 0 m pc₀ =
      (pc₁, m.withRadio { m.radio with mode := .standby }))
    (hlog : ∀ b l, DriverLog.record ⟨pc₀, b⟩ (.main refuse) l =
      { l with lost := l.lost || b.drv.chip.payloadReady })
    (hairs : ∀ m, airs ⟨pc₀, m⟩ (.main 0) = none) (ht : pc₀.inTransmit = true)
    (hr : ((x.1.b.driver refuse).withChip c).Ready) (hm : c.mode = modeStandby)
    (hp : c.payloadReady = false) (hh : Held pc₁ ⟨x.1.b.m, (x.1.b.driver refuse).withChip c, n⟩) :
    ∃ d v, Matches (.main refuse) d ∧ Device.step y d = some v ∧ Refines x' v := by
  subst hpc
  have hx' := DriverDevice.step_statement hx hrun
  obtain ⟨⟨pc, b⟩, l⟩ := x
  obtain ⟨⟨pc', m⟩, log⟩ := y
  have hpc' : pc' = pc := h.agrees.pc
  subst hpc'
  rw [hlog] at hx'
  subst hx'
  refine h.step_main refuse 0 (sane_standby hr hm hp hh) ?_ fun _ => .inl ht
  refine ⟨?_, ?_, ?_, ?_, ?_, fun hl => ?_, (aired_silent (hairs m) log).trans h.agrees.aired⟩ <;>
    simp only [hmain]
  · exact withRadio_of_eq h.agrees.machine _
  · exact (Chip.radioMode_standby hm).symm
  · exact h.agrees.payloadIrqs
  · exact h.agrees.sentIrqs
  · obtain ⟨hl, hq⟩ := Bool.or_eq_false_iff.mp hl
    exact ((h.agrees.waiting hl).trans (Chip.radioWaiting_none hq)).trans
      (Chip.radioWaiting_none hp).symm

theorem Refines.finishCall {x x' : DriverDevice} {y : Device} {refuse : Bool} (h : Refines x y)
    (hpc : x.1.pc = .finishCall) (hx : DriverDevice.step x (.main refuse) = some x') :
    ∃ d v, Matches (.main refuse) d ∧ Device.step y d = some v ∧ Refines x' v := by
  have hr := x.1.b.ready_driver h.sane.ready refuse
  exact h.toStandby hpc hx (statement_finishCall h.sane.ready refuse) (fun _ => rfl)
    (fun _ _ => rfl) (fun _ => rfl) rfl hr.dump.standby (Chip.enter_mode ..) rfl trivial

theorem Refines.sendCall {x x' : DriverDevice} {y : Device} {refuse : Bool} {txIdx : TxSlot}
    (h : Refines x y) (hpc : x.1.pc = .sendCall txIdx)
    (hx : DriverDevice.step x (.main refuse) = some x') :
    ∃ d v, Matches (.main refuse) d ∧ Device.step y d = some v ∧ Refines x' v := by
  have hr := x.1.b.ready_driver h.sane.ready refuse
  exact h.toStandby hpc hx (statement_sendCall h.sane.ready refuse txIdx) (fun _ => rfl)
    (fun _ _ => rfl) (fun _ => rfl) rfl (hr.stagedHead _) (Chip.stagedHead_mode ..)
    rfl ⟨rfl, Chip.stagedHead_mode .., rfl, rfl, Chip.stagedHead_dio0 ..⟩

theorem Refines.sendLaunch {x x' : DriverDevice} {y : Device} {refuse : Bool} {buf : List UInt8}
    (h : Refines x y) (hpc : x.1.pc = .sendLaunch buf)
    (hx : DriverDevice.step x (.main refuse) = some x') :
    ∃ d v, Matches (.main refuse) d ∧ Device.step y d = some v ∧ Refines x' v := by
  obtain ⟨⟨pc, b⟩, l⟩ := x
  obtain ⟨⟨pc', m⟩, log⟩ := y
  have hpc' : pc' = pc := h.agrees.pc
  subst hpc'
  subst hpc
  have hlen : buf.length = chunkSize := h.buffer
  obtain ⟨_, hmode, hfifo, hready, hdio⟩ := h.sane.held
  have hr := b.ready_driver h.sane.ready refuse
  have hw : l.lost = false → m.radio.waiting = none := fun hl =>
    (h.agrees.waiting hl).trans (Chip.radioWaiting_none hready)
  cases refuse with
  | true =>
    have hx' := DriverDevice.step_refusedLaunch h.sane.ready h.sane.held hlen hx
    subst hx'
    refine h.step_main true errSpiWriteFailed
      (sane_standby (hr.unlaunched buf) hmode hready trivial)
      ⟨rfl, h.agrees.machine, ?_, h.agrees.payloadIrqs, h.agrees.sentIrqs, fun hl => ?_, ?_⟩
      fun _ => .inl rfl
    · exact h.agrees.mode
    · exact (hw hl).trans
        (Chip.radioWaiting_none (c := ((b.driver true).unlaunched buf).chip) hready).symm
    · exact (aired_silent rfl log).trans h.agrees.aired
  | false =>
    have hx' := DriverDevice.step_launch h.sane.ready h.sane.held hlen hx
    subst hx'
    have htx : ((b.driver false).launched buf).chip.mode = modeTx := Chip.enter_mode ..
    have hsent : ((b.driver false).launched buf).chip.packetSent = false := by
      have hs : b.drv.chip.packetSent = false := by
        by_contra hs
        have hm := h.sane.ready.sent (by simpa using hs)
        rw [show b.drv.chip.mode = modeStandby from hmode] at hm
        exact absurd hm (by decide)
      show (b.drv.chip.packetSent && modeTx == modeTx) = false
      rw [hs, Bool.false_and]
    have hframe : (b.drv.chip.append buf).frame = buf := by
      rw [Chip.append, show b.drv.chip.fifo = _ from hfifo]
      show buf.take (UInt8.ofNat chunkSize).toNat = buf
      exact List.take_of_length_le (by rw [hlen]; decide)
    refine h.step_main false errNone
      ⟨hr.launched buf hdio, fun hc => ?_, fun _ => hready, fun hc => ?_, trivial⟩
      ⟨rfl, withRadio_of_eq h.agrees.machine _, ?_, h.agrees.payloadIrqs, h.agrees.sentIrqs,
        fun _ => ?_, ?_⟩ fun _ => .inl rfl
    · rw [show b.drv.chip.payloadReady = true from hc] at hready
      cases hready
    · cases hc
    · exact (Chip.radioMode_tx htx hsent).symm
    · exact (Chip.radioWaiting_none (c := ((b.driver false).launched buf).chip) hready).symm
    · show log.air.aired ++ [buf] = l.frames ++ [(b.drv.chip.append buf).frame]
      rw [hframe, show log.air.aired = l.frames from h.agrees.aired]

theorem Refines.armCall {x x' : DriverDevice} {y : Device} {refuse : Bool} (h : Refines x y)
    (hpc : x.1.pc = .armCall) (hk : Spares x (.main refuse))
    (hx : DriverDevice.step x (.main refuse) = some x') :
    ∃ d v, Matches (.main refuse) d ∧ Device.step y d = some v ∧ Refines x' v := by
  obtain ⟨⟨pc, b⟩, l⟩ := x
  obtain ⟨⟨pc', m⟩, log⟩ := y
  have hpc' : pc' = pc := h.agrees.pc
  subst hpc'
  subst hpc
  have hr := b.ready_driver h.sane.ready refuse
  have hrun := statement_armCall h.sane.ready refuse
  cases refuse with
  | true =>
    obtain ⟨hl, hp⟩ := hk rfl
    have hx' := DriverDevice.step_statement hx hrun
    subst hx'
    refine h.step_main true errSpiWriteFailed
      (sane_standby hr.unarmed (Chip.stagedReceive_mode _) rfl trivial)
      ⟨rfl, withRadio_of_eq h.agrees.machine _, ?_, h.agrees.payloadIrqs, h.agrees.sentIrqs,
        fun _ => ?_, (aired_silent rfl log).trans h.agrees.aired⟩ fun hc => by cases hc
    · exact (Chip.radioMode_standby (Chip.stagedReceive_mode _)).symm
    · exact (h.agrees.waiting hl).trans (Chip.radioWaiting_none hp)
  | false =>
    have hx' := DriverDevice.step_statement hx hrun
    subst hx'
    refine h.step_main false errNone
      ⟨hr.armed, (fun hc => by cases hc), fun _ => rfl, (fun hc => by cases hc), trivial⟩
      ⟨rfl, withRadio_of_eq h.agrees.machine _, ?_, h.agrees.payloadIrqs, h.agrees.sentIrqs,
        fun _ => rfl, (aired_silent rfl log).trans h.agrees.aired⟩ fun hc => by cases hc
    exact (Chip.radioMode_rx (Sx127x.armed_mode _)).symm

/-- After an arm that is refused the chip is as after one that found nothing. -/
theorem Refines.refusedArm {x x' : DriverDevice} {y : Device} (h : Refines x y)
    (hpc : x.1.pc = .armCall) (hx : DriverDevice.step x (.main true) = some x') :
    Refines x' (⟨.armFailed, y.1.m.withRadio
      { y.1.m.radio with mode := .standby, waiting := none }⟩, y.2) := by
  obtain ⟨⟨pc, b⟩, l⟩ := x
  subst hpc
  have hx' := DriverDevice.step_statement hx (statement_armCall h.sane.ready true)
  subst hx'
  have hr := b.ready_driver h.sane.ready true
  exact
    { sane := sane_standby hr.unarmed (Chip.stagedReceive_mode _) rfl trivial
      agrees := ⟨rfl, withRadio_of_eq h.agrees.machine _,
        (Chip.radioMode_standby (Chip.stagedReceive_mode _)).symm, h.agrees.payloadIrqs,
        h.agrees.sentIrqs, fun _ => rfl, h.agrees.aired⟩
      owed := fun hc => by cases hc
      awake := fun _ hp => by cases hp
      buffer := trivial }

/-- In the receive branch nothing has been dropped. -/
theorem Refines.kept {x : DriverDevice} {y : Device} (h : Refines x y)
    (hp : pastArm x.1.pc = true) : x.2.lost = false := by
  cases hl : x.2.lost with
  | false => rfl
  | true =>
    have hb := (h.owed hl).before
    rw [h.agrees.pc, hp] at hb
    cases hb

theorem Refines.spuriousTest {x x' : DriverDevice} {y : Device} {refuse : Bool} (h : Refines x y)
    (hpc : x.1.pc = .spuriousTest) (hx : DriverDevice.step x (.main refuse) = some x') :
    ∃ d v, Matches (.main refuse) d ∧ Device.step y d = some v ∧ Refines x' v := by
  have hk : x.2.lost = false := h.kept (by rw [hpc]; rfl)
  obtain ⟨⟨pc, b⟩, l⟩ := x
  obtain ⟨⟨pc', m⟩, log⟩ := y
  have hpc' : pc' = pc := h.agrees.pc
  subst hpc'
  subst hpc
  have hflag : (m.radio.irqFlags2 &&& Radio.flagPayloadReady = 0) ↔
      b.drv.chip.payloadReady = false := by
    rw [Radio.irqFlags2, show m.radio.waiting = _ from h.agrees.waiting hk, Chip.radioWaiting]
    cases b.drv.chip.payloadReady with
    | false =>
      have hz : 0 &&& Radio.flagPayloadReady = 0 := by decide
      exact iff_of_true hz rfl
    | true =>
      have hne : Radio.flagPayloadReady &&& Radio.flagPayloadReady ≠ 0 := by decide
      exact iff_of_false hne (by decide)
  have hx' := DriverDevice.step_statement hx (statement_spuriousTest b refuse)
  subst hx'
  refine h.step_main refuse 0
    ⟨b.ready_driver h.sane.ready refuse, h.sane.packet, h.sane.silent, h.sane.lost, ?_⟩
    ⟨?_, h.agrees.machine, h.agrees.mode, h.agrees.payloadIrqs, h.agrees.sentIrqs,
      h.agrees.waiting, (aired_silent rfl log).trans h.agrees.aired⟩
    fun hc => by cases hk.symm.trans hc
  · cases hp : b.drv.chip.payloadReady with
    | false => trivial
    | true => exact hp
  · show (if m.radio.irqFlags2 &&& Radio.flagPayloadReady = 0 then Pc.spuriousArm
      else .readCall) = _
    simp only [hflag]

theorem Refines.readCall {x x' : DriverDevice} {y : Device} {refuse : Bool} (h : Refines x y)
    (hpc : x.1.pc = .readCall) (hx : DriverDevice.step x (.main refuse) = some x') :
    ∃ d v, Matches (.main refuse) d ∧ Device.step y d = some v ∧ Refines x' v := by
  have hk : x.2.lost = false := h.kept (by rw [hpc]; rfl)
  obtain ⟨⟨pc, b⟩, l⟩ := x
  obtain ⟨⟨pc', m⟩, log⟩ := y
  have hpc' : pc' = pc := h.agrees.pc
  subst hpc'
  subst hpc
  have hready : b.drv.chip.payloadReady = true := h.sane.held
  obtain ⟨n, p, hf, hp⟩ := h.sane.packet hready
  have hr := b.ready_driver h.sane.ready refuse
  have hw : m.radio.waiting = some p := by
    rw [show m.radio.waiting = _ from h.agrees.waiting hk, Chip.radioWaiting,
      show b.drv.chip.fifo = _ from hf, if_pos hready]
    rfl
  have hbytes : m.radio.readBytes chunkSize = Sx127x.cutTo chunkSize p := by
    rw [Radio.readBytes, hw]
    rfl
  have hx' := DriverDevice.step_statement hx (statement_readCall h.sane.ready refuse hf hp)
  subst hx'
  refine h.step_main refuse 0
    ⟨{ hr.dump with }, (fun hc => by cases hc), fun _ => rfl, (fun hc => by cases hk.symm.trans hc),
      trivial⟩
    ⟨rfl, ?_, h.agrees.mode, h.agrees.payloadIrqs, h.agrees.sentIrqs, fun _ => rfl,
      (aired_silent rfl log).trans h.agrees.aired⟩ fun hc => by cases hk.symm.trans hc
  show (m.fillSlot (m.radio.readBytes chunkSize)).withRadio m.radio.rfm9xReadData =
    (b.m.fillSlot (Sx127x.cutTo chunkSize p)).withRadio m.radio.rfm9xReadData
  rw [hbytes]
  exact fillSlot_of_eq h.agrees.machine _ _

theorem aired_env (s : Cfg Pc) (e : Env) (log : DeviceLog) :
    (log.record s (.env e)).air.aired = log.air.aired := by
  cases e <;> simp [DeviceLog.record, AirLog.record, airs]

theorem DriverDevice.step_env {x x' : DriverDevice} {e : Env} {b : Board}
    (hx : DriverDevice.step x (.env e) = some x') (hb : driverEnv x.1.b e = some b) :
    x' = (⟨x.1.pc, b⟩, x.2) := by
  obtain ⟨s, l⟩ := x
  obtain ⟨s', l'⟩ := x'
  obtain ⟨hs, rfl⟩ := tracked_eq_some.mp hx
  have ht : DriverCfg.step s (.env e) = some ⟨s.pc, b⟩ := by
    simp only [DriverCfg.step, hb, Option.map_some]
  rw [Option.some.inj (hs.symm.trans ht)]

theorem DriverDevice.env_some {x x' : DriverDevice} {e : Env}
    (hx : DriverDevice.step x (.env e) = some x') : ∃ b, driverEnv x.1.b e = some b := by
  obtain ⟨s, l⟩ := x
  obtain ⟨s', l'⟩ := x'
  obtain ⟨hs, _⟩ := tracked_eq_some.mp hx
  obtain ⟨b, hb, _⟩ := Option.map_eq_some_iff.mp hs
  exact ⟨b, hb⟩

theorem Refines.step_env {x x' : DriverDevice} {y : Device} {e : Env} {m : Machine}
    (h : Refines x y) (hy : envStep y.1.m e = some m) (hs : Sane x')
    (ha : Agrees x' (⟨y.1.pc, m⟩, y.2.record y.1 (.env e))) (hl : x'.2 = x.2) :
    ∃ d v, Matches (.env e) d ∧ Device.step y d = some v ∧ Refines x' v := by
  have hv : Device.step y (.env e) = some (⟨y.1.pc, m⟩, y.2.record y.1 (.env e)) := by
    refine tracked_eq_some.mpr ⟨?_, rfl⟩
    simp only [WalkieTalkie.step, hy]
  have he := RadioSide.envStep_effect hy
  exact ⟨.env e, _, rfl, hv, hs, ha, fun hc => (h.owed (hl ▸ hc)).effect he, h.awake.effect he,
    h.buffer⟩

/-- An event that leaves the chip and the raised calls alone. -/
theorem Refines.quiet {x x' : DriverDevice} {y : Device} {e : Env} {m : Machine} {r : Radio}
    (h : Refines x y) (hx : DriverDevice.step x (.env e) = some x')
    (hb : driverEnv x.1.b e = some { x.1.b with m := m })
    (hy : envStep y.1.m e = some (m.withRadio r)) (hm : r.mode = y.1.m.radio.mode)
    (hw : r.waiting = y.1.m.radio.waiting) (hp : r.payloadIrqs = m.radio.payloadIrqs)
    (hs : r.sentIrqs = m.radio.sentIrqs) :
    ∃ d v, Matches (.env e) d ∧ Device.step y d = some v ∧ Refines x' v := by
  have hx' := DriverDevice.step_env hx hb
  subst hx'
  exact h.step_env hy
    ⟨h.sane.ready, h.sane.packet, h.sane.silent, h.sane.lost, h.sane.held⟩
    ⟨h.agrees.pc, rfl, hm.trans h.agrees.mode, hp, hs, fun hl => hw.trans (h.agrees.waiting hl),
      (aired_env _ _ _).trans h.agrees.aired⟩ rfl

/-- A chip that listens or transmits is not in the middle of a send. -/
theorem Held.of_mode {pc : Pc} {b b' : Board} (h : Held pc b)
    (hm : b.drv.chip.mode ≠ modeStandby)
    (hr : b.drv.chip.payloadReady = true → b'.drv.chip.payloadReady = true) : Held pc b' := by
  cases pc with
  | sendLoad | sendLaunch => exact absurd h.2.1 hm
  | readCall => exact hr h
  | _ => trivial

theorem Sane.not_lost {x : DriverDevice} (h : Sane x) (hm : x.1.b.drv.chip.mode ≠ modeStandby) :
    x.2.lost = false := by
  cases hl : x.2.lost with
  | false => rfl
  | true => exact absurd (h.lost hl).1 hm

theorem Refines.payload {x x' : DriverDevice} {y : Device} {p : List UInt8} (h : Refines x y)
    (hx : DriverDevice.step x (.env (.payload p)) = some x') :
    ∃ d v, Matches (.env (.payload p)) d ∧ Device.step y d = some v ∧ Refines x' v := by
  obtain ⟨b', hb'⟩ := DriverDevice.env_some hx
  obtain ⟨⟨pc, b⟩, l⟩ := x
  obtain ⟨⟨pc', m⟩, log⟩ := y
  obtain ⟨c, hc, _⟩ := Option.map_eq_some_iff.mp hb'
  simp only [Chip.packetIn] at hc
  split_ifs at hc with hcond
  obtain ⟨hrx, hfifo, hready, hlen⟩ := hcond
  have hne : b.drv.chip.mode ≠ modeStandby := by
    rw [hrx]
    decide
  have hl : l.lost = false := h.sane.not_lost hne
  have hraise : (b.drv.heard p).chip.raises = true :=
    beq_iff_eq.mpr (h.sane.ready.dio0 (.inl hrx))
  have hin : b.drv.chip.packetIn p = some (b.drv.heard p).chip :=
    if_pos ⟨hrx, hfifo, hready, hlen⟩
  have hb : driverEnv b (.payload p) = some
      ⟨b.m.withRadio { b.m.radio with payloadIrqs := b.m.radio.payloadIrqs + 1 }, b.drv.heard p,
        b.staged⟩ := by
    simp only [driverEnv, hin, Option.map_some, Machine.raise, hraise, if_true]
    rfl
  have hx' := DriverDevice.step_env hx hb
  subst hx'
  have hmode : m.radio.mode = .listening := h.agrees.mode.trans (Chip.radioMode_rx hrx)
  have hw : m.radio.waiting = none := (h.agrees.waiting hl).trans (Chip.radioWaiting_none hready)
  have hy : envStep m (.payload p) = some (m.withRadio
      { m.radio with waiting := some p, payloadIrqs := m.radio.payloadIrqs + 1 }) := by
    simp [envStep, Radio.receive, hmode, hw, Machine.withRadio]
  refine h.step_env hy
    ⟨h.sane.ready.heard p, fun _ => ⟨_, p, rfl, (toNat_length hlen).symm⟩, fun hc => ?_,
      (fun hc => by cases hl.symm.trans hc), h.sane.held.of_mode hne fun _ => rfl⟩
    ⟨h.agrees.pc, withRadio_of_eq h.agrees.machine _, h.agrees.mode,
      congrArg (· + 1) h.agrees.payloadIrqs, h.agrees.sentIrqs, fun _ => rfl,
      (aired_env _ _ _).trans h.agrees.aired⟩ rfl
  rw [show b.drv.chip.mode = modeTx from hc] at hrx
  exact absurd hrx (by decide)

theorem Refines.packetSent {x x' : DriverDevice} {y : Device} (h : Refines x y)
    (hx : DriverDevice.step x (.env .packetSent) = some x') :
    ∃ d v, Matches (.env .packetSent) d ∧ Device.step y d = some v ∧ Refines x' v := by
  obtain ⟨b', hb'⟩ := DriverDevice.env_some hx
  obtain ⟨⟨pc, b⟩, l⟩ := x
  obtain ⟨⟨pc', m⟩, log⟩ := y
  obtain ⟨c, hc, _⟩ := Option.map_eq_some_iff.mp hb'
  simp only [Chip.packetOut] at hc
  split_ifs at hc with hcond
  cases hc
  obtain ⟨htx, hsent⟩ := hcond
  have hne : b.drv.chip.mode ≠ modeStandby := by
    rw [htx]
    decide
  have hready : b.drv.chip.payloadReady = false := h.sane.silent htx
  have hl : l.lost = false := h.sane.not_lost hne
  have hout : b.drv.chip.packetOut = some b.drv.chip.emptied := if_pos ⟨htx, hsent⟩
  have hraise : b.drv.chip.emptied.raises = true :=
    beq_iff_eq.mpr (h.sane.ready.dio0 (.inr htx))
  have hb : driverEnv b .packetSent = some
      ⟨b.m.withRadio { b.m.radio with sentIrqs := b.m.radio.sentIrqs + 1 },
        b.drv.withChip b.drv.chip.emptied, b.staged⟩ := by
    simp only [driverEnv, hout, Option.map_some, Machine.raise, hraise, if_true]
  have hx' := DriverDevice.step_env hx hb
  subst hx'
  have hmode : m.radio.mode = .transmitting := h.agrees.mode.trans (Chip.radioMode_tx htx hsent)
  have hw : m.radio.waiting = none := (h.agrees.waiting hl).trans (Chip.radioWaiting_none hready)
  have hy : envStep m .packetSent = some (m.withRadio
      { m.radio with mode := .standby, sentIrqs := m.radio.sentIrqs + 1 }) := by
    simp [envStep, Radio.packetSent, hmode, Machine.withRadio]
  refine h.step_env hy
    ⟨{ h.sane.ready with sent := fun _ => htx }, (fun hc => by cases hc), fun _ => rfl,
      (fun hc => by cases hl.symm.trans hc), h.sane.held.of_mode hne fun hc => ?_⟩
    ⟨h.agrees.pc, withRadio_of_eq h.agrees.machine _, ?_, h.agrees.payloadIrqs,
      congrArg (· + 1) h.agrees.sentIrqs, fun _ => hw, (aired_env _ _ _).trans h.agrees.aired⟩ rfl
  · cases hready.symm.trans hc
  · have hm : b.drv.chip.emptied.mode = modeTx := htx
    show RadioMode.standby = b.drv.chip.emptied.radioMode
    rw [Chip.radioMode, hm, if_neg (by decide), if_neg fun hc => by cases hc.2]

/-- A raised call is there for both or for neither. -/
theorem takeIrq_congr {r q : Radio} (hp : q.payloadIrqs = r.payloadIrqs)
    (hs : q.sentIrqs = r.sentIrqs) {k : RadioIrq} {r' : Radio} (h : r.takeIrq k = some r') :
    ∃ q', q.takeIrq k = some q' ∧ q'.mode = q.mode ∧ q'.waiting = q.waiting ∧
      q'.payloadIrqs = r'.payloadIrqs ∧ q'.sentIrqs = r'.sentIrqs := by
  cases k with
  | payloadReady =>
    simp only [Radio.takeIrq] at h ⊢
    split_ifs at h with hn
    cases h
    exact ⟨_, if_pos (hp ▸ hn), rfl, rfl, congrArg (· - 1) hp, hs⟩
  | packetSent =>
    simp only [Radio.takeIrq] at h ⊢
    split_ifs at h with hn
    cases h
    exact ⟨_, if_pos (hs ▸ hn), rfl, rfl, hp, congrArg (· - 1) hs⟩

theorem driverEnv_plain {b : Board} {e : Env} (he : e.ofRadio = false) :
    driverEnv b e = (envStep b.m e).map fun m => { b with m := m } := by
  cases e <;> first | rfl | cases he

theorem envStep_radio {m m' : Machine} {e : Env} (he : e.ofRadio = false)
    (h : envStep m e = some m') : m'.radio = m.radio := by
  have hw : envStep (m.withRadio m.radio) e = some (m'.withRadio m.radio) := by
    rw [envStep_withRadio he, h, Option.map_some]
  have hm : m' = m'.withRadio m.radio := Option.some.inj (h.symm.trans hw)
  rw [hm]
  rfl

theorem Refines.env {x x' : DriverDevice} {y : Device} {e : Env} (h : Refines x y)
    (hx : DriverDevice.step x (.env e) = some x') :
    ∃ d v, Matches (.env e) d ∧ Device.step y d = some v ∧ Refines x' v := by
  cases e with
  | payload p => exact h.payload hx
  | packetSent => exact h.packetSent hx
  | radioIrq k =>
    obtain ⟨b', hb'⟩ := DriverDevice.env_some hx
    obtain ⟨m, hm, _⟩ := Option.map_eq_some_iff.mp hb'
    obtain ⟨r, hr, rfl⟩ := Option.map_eq_some_iff.mp hm
    obtain ⟨q, hq, hmode, hwaiting, hp, hs⟩ :=
      takeIrq_congr h.agrees.payloadIrqs h.agrees.sentIrqs hr
    obtain ⟨ready, finish, hf⟩ := { x.1.b.m with radio := r }.packetRecSendIsr_frame
    have hy : envStep y.1.m (.radioIrq k) =
        some ({ x.1.b.m with radio := r }.packetRecSendIsr.withRadio q) := by
      have hb : { y.1.m with radio := q } = ({ x.1.b.m with radio := r }).withRadio q :=
        withRadio_of_eq h.agrees.machine q
      simp only [envStep, hq, Option.map_some, hb, packetRecSendIsr_withRadio]
    refine h.quiet hx (m := { x.1.b.m with radio := r }.packetRecSendIsr) ?_ hy hmode hwaiting ?_ ?_
    · simp only [driverEnv, hm, Option.map_some]
    · rw [hf, hp]
    · rw [hf, hs]
  | spurious =>
    obtain ⟨ready, finish, hf⟩ := x.1.b.m.packetRecSendIsr_frame
    refine h.quiet hx (m := x.1.b.m.packetRecSendIsr) (r := y.1.m.radio) rfl ?_ rfl rfl ?_ ?_
    · rw [← packetRecSendIsr_withRadio, ← h.agrees.machine]
      rfl
    · rw [hf]
      exact h.agrees.payloadIrqs
    · rw [hf]
      exact h.agrees.sentIrqs
  | edge | pbIrq | sample | micIrq | spkTransfer | spkIrq =>
    obtain ⟨b', hb⟩ := DriverDevice.env_some hx
    have hb' := hb
    rw [driverEnv_plain rfl] at hb'
    obtain ⟨m, hm, rfl⟩ := Option.map_eq_some_iff.mp hb'
    have hradio := envStep_radio rfl hm
    refine h.quiet hx (r := y.1.m.radio) hb ?_ rfl rfl ?_ ?_
    · rw [h.agrees.machine, envStep_withRadio rfl, hm, Option.map_some]
      rfl
    · rw [hradio]
      exact h.agrees.payloadIrqs
    · rw [hradio]
      exact h.agrees.sentIrqs

theorem Refines.main {x x' : DriverDevice} {y : Device} {refuse : Bool} (h : Refines x y)
    (hk : Spares x (.main refuse)) (hx : DriverDevice.step x (.main refuse) = some x') :
    ∃ d v, Matches (.main refuse) d ∧ Device.step y d = some v ∧ Refines x' v := by
  cases hpc : x.1.pc with
  | finishCall => exact h.finishCall hpc hx
  | sendCall txIdx => exact h.sendCall hpc hx
  | sendLaunch buf => exact h.sendLaunch hpc hx
  | armCall => exact h.armCall hpc hk hx
  | spuriousTest => exact h.spuriousTest hpc hx
  | readCall => exact h.readCall hpc hx
  | _ => exact h.plain (by rw [hpc]; rfl) hx

theorem refines_boot {drv : Sx127x} (h : Idle drv) :
    Refines (DriverDevice.boot drv) Device.boot where
  sane := sane_standby h.ready h.mode h.empty trivial
  agrees := ⟨rfl, rfl, (Chip.radioMode_standby h.mode).symm, rfl, rfl,
    fun _ => (Chip.radioWaiting_none h.empty).symm, rfl⟩
  owed := fun hl => by cases hl
  awake := awake_boot
  buffer := trivial

/-- A run of the device with its driver is matched by a run with the abstract radio. -/
theorem exists_refined_run {drv : Sx127x} {es : List DriverEvent} {x : DriverDevice}
    (hd : Idle drv) (hk : Along DriverDevice.step Spares (DriverDevice.boot drv) es)
    (hr : run DriverDevice.step (DriverDevice.boot drv) es = some x) :
    ∃ ds y, List.Forall₂ Matches es ds ∧ run Device.step Device.boot ds = some y ∧ Refines x y := by
  refine hk.simulates Refines Matches (fun x e x' y hR hs hx => ?_) (refines_boot hd) hr
  cases e with
  | main refuse => exact hR.main hs hx
  | env e => exact hR.env hx

/-- A device of the radio model shows the same, and has put only whole packets on the air. -/
def Simulated (x : DriverDevice) : Prop := ∃ y : Device, Refines x y ∧ FullChunks y

theorem Simulated.step {x x' : DriverDevice} {e : DriverEvent} (h : Simulated x)
    (hx : DriverDevice.step x e = some x') : Simulated x' := by
  obtain ⟨y, hR, hf⟩ := h
  cases e with
  | env e =>
    obtain ⟨d, v, _, hv, hR'⟩ := hR.env hx
    exact ⟨v, hR', hf.step hv⟩
  | main refuse =>
    by_cases ha : refuse = true ∧ x.1.pc = .armCall
    · obtain ⟨rfl, hpc⟩ := ha
      exact ⟨_, hR.refusedArm hpc hx, trivial, hf.aired⟩
    · have hk : Spares x (.main refuse) := by
        cases refuse with
        | false => trivial
        | true => exact fun hpc => absurd ⟨rfl, hpc⟩ ha
      obtain ⟨d, v, _, hv, hR'⟩ := hR.main hk hx
      exact ⟨v, hR', hf.step hv⟩

theorem run_simulated {drv : Sx127x} {es : List DriverEvent} {x : DriverDevice} (hd : Idle drv)
    (hr : run DriverDevice.step (DriverDevice.boot drv) es = some x) : Simulated x :=
  run_invariant Simulated (fun _ _ _ hi ht => hi.step ht) ⟨_, refines_boot hd, fullChunks_boot⟩ hr

instance (x : DriverDevice) (e : DriverEvent) : Decidable (Spares x e) := by
  induction e using DriverEvent.casesOn with
  | main refuse => induction refuse using Bool.casesOn <;> unfold Spares <;> infer_instance
  | env e => exact .isTrue trivial

def granted : Event → DriverEvent
  | .main _ => .main false
  | .env e => .env e

end WalkieTalkie
