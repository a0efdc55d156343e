import WalkieTalkie.Sx127xCalls

/-!
# A packet from one driver to the other

What the chip does on the air: it sends the frame in its FIFO, and a listening chip with
an empty FIFO takes a frame in. Between the two drivers a packet is not changed.
-/
namespace WalkieTalkie

namespace Chip

/-- The packet a chip sends: the first byte of the FIFO counts the others. -/
def frame (c : Chip) : List UInt8 :=
  match c.fifo with
  | [] => []
  | n :: p => p.take n.toNat

def emptied (c : Chip) : Chip := { c with fifo := [], payloadReady := false, packetSent := true }

/-- The packet is out. -/
def packetOut (c : Chip) : Option Chip :=
  if c.mode = modeTx ∧ c.packetSent = false then some c.emptied else none

/-- A packet comes in, behind its length. -/
def packetIn (c : Chip) (p : List UInt8) : Option Chip :=
  if c.mode = modeRx ∧ c.fifo = [] ∧ c.payloadReady = false ∧ p.length < fifoSize then
    some { c with fifo := UInt8.ofNat p.length :: p, payloadReady := true }
  else none

/-- An event of the chip reaches the handler over DIO0. -/
def raises (c : Chip) : Bool := field 7 6 (c.reg regDioMapping1) == dio0PackPayloadReady

end Chip

theorem toNat_length {p : List UInt8} (h : p.length < fifoSize) :
    (UInt8.ofNat p.length).toNat = p.length := by
  rw [UInt8.toNat_ofNat']
  exact Nat.mod_eq_of_lt (h.trans (by decide))

namespace Sx127x

variable {x y : Sx127x}

theorem launched_frame (x : Sx127x) {data : List UInt8} (hl : data.length < fifoSize) :
    ((x.withChip (x.chip.stagedHead data.length)).launched data).chip.frame = data := by
  show data.take (UInt8.ofNat data.length).toNat = data
  rw [toNat_length hl, List.take_length]

/-- What a listening chip with an empty FIFO does with a packet. -/
def heard (x : Sx127x) (p : List UInt8) : Sx127x :=
  x.withChip { x.chip with fifo := UInt8.ofNat p.length :: p, payloadReady := true }

theorem Ready.heard (h : Ready x) (p : List UInt8) : Ready (x.heard p) := h.withFifo _ _

theorem armed_mode (x : Sx127x) : x.armed.chip.mode = modeRx := Chip.enter_mode ..

theorem armed_hears (x : Sx127x) {p : List UInt8} (hl : p.length < fifoSize) :
    x.armed.chip.packetIn p = some (x.armed.heard p).chip :=
  if_pos ⟨x.armed_mode, rfl, rfl, hl⟩

/-- Two drivers are as `beginFSK` leaves them, and their chips refuse no switch. A packet shorter
than the FIFO that one of them sends, and that the receiver the other one has armed takes in, is
read back unchanged, cut to the length asked for, without an error; it is announced, and it leaves
the FIFO empty. -/
theorem packet_round_trip (hx : Ready x) (hy : Ready y) (hxr : x.chip.refuses = false)
    (hyr : y.chip.refuses = false) {data : List UInt8} (hl : data.length < fifoSize) (addr : UInt8)
    (len : ℕ) : ∃ x' y' c z, (startTransmit data addr).run x = some (errNone, x') ∧
      startReceive.run y = some (errNone, y') ∧ y'.chip.packetIn x'.chip.frame = some c ∧
      c.raises = true ∧ c.flags2 &&& flagPayloadReady ≠ 0 ∧
      (readData len).run (y'.withChip c) = some ((errNone, cutTo len data), z) ∧
      z.chip.fifo = [] ∧ z.chip.mode = modeRx ∧ Ready z := by
  have ht := hx.startTransmit_run hl addr
  have hr := hy.startReceive_run
  rw [if_neg (by simp [hxr])] at ht
  rw [if_neg (by simp [hyr])] at hr
  have hq := (hy.armed.heard data).readData_run (n := UInt8.ofNat data.length) rfl
    (toNat_length hl).symm len
  refine ⟨_, _, _, _, ht, hr, ?_, ?_, ?_, hq, rfl, y.armed_mode, ?_⟩
  · rw [launched_frame x hl]
    exact y.armed_hears hl
  · exact beq_iff_eq.mpr ((hy.armed.heard data).dio0 (.inl y.armed_mode))
  · rw [ne_eq, Chip.flags2_payloadReady]
    exact Bool.noConfusion
  · exact { (hy.armed.heard data).dump with }

end Sx127x

/-- A driver in standby, its registers zero but for the mode and the packet format. -/
def idleDriver : Sx127x where
  chip :=
    { reg := fun a =>
        if a = regOpMode then modeStandby else if a = regPacketConfig1 then 0x90 else 0
      fifo := []
      payloadReady := false
      packetSent := false
      refuses := false }
  polls := 1
  irqMap i := if i = irqRxDone then flagPayloadReady.toUInt32 <<< 8 else irqNotSupported
  packetLength := 0
  packetLengthQueried := false
  packetLengthConfig := packetVariable
  ookEnabled := false
  rxMode := modeRxContinuous
  stagedMode := .none

theorem ready_idleDriver : idleDriver.Ready where
  polls := by decide
  modem := by decide
  filter := by decide
  bandwidth := by decide
  lengths := rfl
  queried := rfl
  rxDone := rfl
  sent := fun hs => by cases hs
  dio0 := fun _ => by decide

theorem idle_idleDriver : Idle idleDriver := ⟨ready_idleDriver, by decide, rfl⟩

theorem Sx127x.packet_round_trip_once : ∃ x' y' c z,
    (startTransmit [1, 2, 3] 0).run idleDriver = some (errNone, x') ∧
      startReceive.run idleDriver = some (errNone, y') ∧ y'.chip.packetIn x'.chip.frame = some c ∧
      c.raises = true ∧ c.flags2 &&& flagPayloadReady ≠ 0 ∧
      (readData 60).run (y'.withChip c) = some ((errNone, cutTo 60 [1, 2, 3]), z) ∧
      z.chip.fifo = [] ∧ z.chip.mode = modeRx ∧ Ready z :=
  packet_round_trip ready_idleDriver ready_idleDriver rfl rfl (by decide) 0 60

end WalkieTalkie
