import WalkieTalkie.SpiModule

/-!
# The radio driver

The functions of `SX127x.cpp` and `PhysicalLayer.cpp` behind `rfm9x_start_receive`,
`rfm9x_read_data`, `rfm9x_start_transmit`, `rfm9x_finish_transmit` and `rfm9x_read_reg`.
The branches for the LoRa modem are left out and refused. Waiting, the RF switch and
debug output change nothing the driver reads.
-/
namespace WalkieTalkie

abbrev regIrqFlags : UInt8 := 0x12
abbrev regRxTimeout3 : UInt8 := 0x22
abbrev regPacketConfig1 : UInt8 := 0x30
abbrev regPayloadLengthFsk : UInt8 := 0x32
abbrev regFifoThresh : UInt8 := 0x35
abbrev regDioMapping1 : UInt8 := 0x40
abbrev regDioMapping2 : UInt8 := 0x41

abbrev fskOok : Int := 0x00
abbrev lora : Int := 0x80
abbrev modeRxContinuous : UInt8 := 0x05

abbrev flagSyncAddressMatch : UInt32 := 0x01
abbrev flagPreambleDetect : UInt32 := 0x02
abbrev flagTimeout : UInt32 := 0x04
abbrev flagsAll : UInt32 := 0xFFFF

abbrev packetVariable : UInt8 := 0x80
abbrev addressFilteringNode : Int := 0x02
abbrev addressFilteringNodeBroadcast : Int := 0x04
abbrev clearIrqFlagPayloadCrcError : Int := 0x20

abbrev dio0PackPayloadReady : UInt8 := 0x00
abbrev dio0PackPacketSent : UInt8 := 0x00
abbrev dio1PackFifoEmpty : UInt8 := 0x10
abbrev dio2PackTimeout : UInt8 := 0x08
abbrev dio2PackSyncAddress : UInt8 := 0x18
abbrev dio4PackRssiPreambleDetect : UInt8 := 0xC0

abbrev maxPacketLengthFsk : ℕ := 64
abbrev fifoThresh : ℕ := 0x1F
abbrev txStartFifoNotEmpty : UInt8 := 0x80

abbrev irqRxDone : ℕ := 1
abbrev irqNotSupported : UInt32 := 0x1F
/-- `RX_DONE`, `TIMEOUT`, `CRC_ERR`, `HEADER_VALID` and `HEADER_ERR`. -/
abbrev irqRxDefaultFlags : UInt32 := 0x272
abbrev irqRxDefaultMask : UInt32 := 0x002

abbrev errUnknown : Int := -1
abbrev errCrcMismatch : Int := -7
abbrev errUnsupported : Int := -25
abbrev errInvalidIrq : Int := -29

inductive RadioModeType | none | standby | rx | tx | scan | sleep deriving DecidableEq, Repr

/-- The driver object with the chip behind it. -/
structure Sx127x where
  chip : Chip
  /-- How often a register can be read within one check interval. -/
  polls : ℕ
  irqMap : ℕ → UInt32
  packetLength : ℕ
  packetLengthQueried : Bool
  packetLengthConfig : UInt8
  ookEnabled : Bool
  rxMode : UInt8
  stagedMode : RadioModeType

abbrev Drv := StateT Sx127x Option

namespace Sx127x

/-- Where the driver would go on with the LoRa modem. -/
def loraModem : Drv Unit := fun _ => none

def withChip (x : Sx127x) (c : Chip) : Sx127x := { x with chip := c }

def onChip {α : Type} (f : Chip → α × Chip) : Drv α := fun x =>
  some ((f x.chip).1, x.withChip (f x.chip).2)

def readRegister (reg : UInt8) : Drv UInt8 := onChip (spiReadRegister reg)

def readRegisterBurst (reg : UInt8) (numBytes : ℕ) : Drv (List UInt8) :=
  onChip (spiReadRegisterBurst reg numBytes)

def writeRegister (reg data : UInt8) : Drv Unit := onChip fun c => ((), spiWriteRegister reg data c)

def writeRegisterBurst (reg : UInt8) (data : List UInt8) : Drv Unit :=
  onChip fun c => ((), spiWriteRegisterBurst reg data c)

def getRegValue (reg : UInt8) (msb lsb : ℕ) : Drv Int := onChip (spiGetRegValue reg msb lsb)

def setRegValue (reg value : UInt8) (msb lsb : ℕ) (checkMask : UInt8) : Drv Int := fun x =>
  onChip (spiSetRegValue x.polls reg value msb lsb checkMask false) x

def getActiveModem : Drv Int := getRegValue regOpMode 7 7

def setMode (mode : UInt8) : Drv Int := do
  let modem ← getActiveModem
  -- the lowest bit of the receive mode is not checked
  let checkMask := if modem = fskOok ∧ mode = modeRx then 0xFE else 0xFF
  setRegValue regOpMode mode 2 0 checkMask

def standby : Drv Int := setMode modeStandby

def clearIrqFlags (irq : UInt32) : Drv Int := do
  let modem ← getActiveModem
  if modem = lora then loraModem
  writeRegister regIrqFlags1 irq.toUInt8
  writeRegister regIrqFlags2 (irq >>> 8).toUInt8
  return errNone

/-- The DIO pin an event of the FSK modem is shown on, and the mapping that shows it. -/
def decodeIrq (irqBit : UInt32) : Option (ℕ × UInt8) :=
  if irqBit = flagPacketSent.toUInt32 <<< 8 then some (0, dio0PackPacketSent)
  else if irqBit = flagPayloadReady.toUInt32 <<< 8 then some (0, dio0PackPayloadReady)
  else if irqBit = flagPreambleDetect then some (4, dio4PackRssiPreambleDetect)
  else if irqBit = flagSyncAddressMatch then some (2, dio2PackSyncAddress)
  else if irqBit = flagTimeout then some (2, dio2PackTimeout)
  else none

def setIrqLoop (irq : UInt32) : List ℕ → UInt8 → Bool → Int → Drv Int
  | [], _, conflict, state => return if conflict then errInvalidIrq else state
  | i :: is, usedPinFlags, conflict, state =>
    let irqBit := irq &&& (1 <<< UInt32.ofNat i)
    if irqBit = 0 then setIrqLoop irq is usedPinFlags conflict state
    else match decodeIrq irqBit with
      | none => return errUnsupported
      | some (dioNum, regVal) =>
        let pin : UInt8 := 1 <<< UInt8.ofNat dioNum
        if usedPinFlags &&& pin ≠ 0 then setIrqLoop irq is usedPinFlags true state
        else do
          let addr := if dioNum > 3 then regDioMapping2 else regDioMapping1
          let msb := 7 - 2 * (dioNum % 4)
          let state ← setRegValue addr regVal msb (msb - 1) 0xFF
          if state ≠ errNone then return state
          setIrqLoop irq is (usedPinFlags ||| pin) conflict state

def setIrqFlags (irq : UInt32) : Drv Int := do
  let modem ← getActiveModem
  if modem = lora then loraModem
  setIrqLoop irq (List.range 32) 0 false errNone

def getIrqMapped (irqMap : ℕ → UInt32) (irq : UInt32) : UInt32 :=
  (List.range 32).foldl (fun irqRaw i =>
    if irq &&& (1 <<< UInt32.ofNat i) ≠ 0 ∧ irqMap i ≠ irqNotSupported then irqRaw ||| irqMap i
    else irqRaw) 0

/-- `stageMode` for `RADIOLIB_RADIO_MODE_RX`. -/
def stageReceive (timeout irqFlags irqMask : UInt32) : Drv Int := do
  modify fun x => { x with rxMode := modeRxContinuous }
  let state ← setMode modeStandby
  if state ≠ errNone then return state
  let x ← get
  let state ← setIrqFlags (getIrqMapped x.irqMap (irqFlags &&& irqMask))
  if state ≠ errNone then return state
  let modem ← getActiveModem
  if modem = lora then loraModem
  let state ← setRegValue regRxTimeout3 (timeout &&& 0xFF).toUInt8 7 0 0xFF
  if state ≠ errNone then return state
  let _ ← clearIrqFlags flagsAll
  modify fun x => { x with rxMode := modeRx }
  modify fun x => { x with stagedMode := .rx }
  return state

/-- `stageMode` for `RADIOLIB_RADIO_MODE_TX`, up to the packet itself. -/
def stageHead (len : ℕ) (addr : UInt8) : Drv Int := do
  let state ← setMode modeStandby
  let modem ← getActiveModem
  if modem = lora then loraModem
  let _ ← clearIrqFlags flagsAll
  let _ ← if len > maxPacketLengthFsk then
      setRegValue regDioMapping1 dio1PackFifoEmpty 5 4 0xFF
    else setRegValue regDioMapping1 dio0PackPacketSent 7 6 0xFF
  let filter ← getRegValue regPacketConfig1 2 1
  let x ← get
  if x.packetLengthConfig = packetVariable then
    if filter = addressFilteringNode ∨ filter = addressFilteringNodeBroadcast then
      writeRegister regFifo (UInt8.ofNat (len + 1))
      writeRegister regFifo addr
    else writeRegister regFifo (UInt8.ofNat len)
  return state

/-- The rest of it: the packet is written to the FIFO. -/
def stagePacket (state : Int) (data : List UInt8) : Drv Int := do
  if data.length > maxPacketLengthFsk then
    let _ ← setRegValue regFifoThresh txStartFifoNotEmpty 7 7 0xFF
    writeRegisterBurst regFifo (data.take (fifoThresh - 1))
  else writeRegisterBurst regFifo data
  modify fun x => { x with stagedMode := .tx }
  return state

def launchMode : Drv Int := do
  let x ← get
  match x.stagedMode with
  | .rx =>
    let state ← setMode x.rxMode
    if state ≠ errNone then return state
    modify fun x => { x with stagedMode := .none }
    return state
  | .tx =>
    let state ← setMode modeTx
    if state ≠ errNone then return state
    modify fun x => { x with stagedMode := .none }
    return state
  | _ => return errUnsupported

def startReceive : Drv Int := do
  let state ← stageReceive 0 irqRxDefaultFlags irqRxDefaultMask
  if state ≠ errNone then return state
  launchMode

/-- The end of `startTransmit`, once `stageMode` has written the length. -/
def sendPacket (state : Int) (data : List UInt8) : Drv Int := do
  let state ← stagePacket state data
  if state ≠ errNone then return state
  launchMode

def startTransmit (data : List UInt8) (addr : UInt8) : Drv Int := do
  let state ← stageHead data.length addr
  sendPacket state data

def finishTransmit : Drv Int := do
  let _ ← clearIrqFlags flagsAll
  standby

def getPacketLength (update : Bool) : Drv ℕ := do
  let modem ← getActiveModem
  if modem = lora then loraModem
  let x ← get
  if x.packetLengthQueried = false ∧ update = true then
    let length ← readRegister
      (if x.packetLengthConfig = packetVariable then regFifo else regPayloadLengthFsk)
    modify fun x => { x with packetLength := length.toNat, packetLengthQueried := true }
  let x ← get
  return x.packetLength

def clearFifo : ℕ → Drv Unit
  | 0 => return ()
  | count + 1 => do
    let _ ← readRegister regFifo
    clearFifo count

/-- The status and the bytes written to `data`. -/
def readData (len : ℕ) : Drv (Int × List UInt8) := do
  let modem ← getActiveModem
  let packetLength ← getPacketLength true
  -- a shorter request than the packet leaves bytes to be dumped
  let cut := len ≠ 0 ∧ len < packetLength
  let length := if cut then len else packetLength
  let dumpLen := if cut then packetLength - len else 0
  let crc ← getRegValue regIrqFlags 5 5
  let state := if crc = clearIrqFlagPayloadCrcError then errCrcMismatch else errNone
  if modem = lora then loraModem
  let filter ← getRegValue regPacketConfig1 2 1
  if filter = addressFilteringNode ∨ filter = addressFilteringNodeBroadcast then
    let _ ← readRegister regFifo
  let data ← readRegisterBurst regFifo length
  if dumpLen ≠ 0 then clearFifo dumpLen
  modify fun x => { x with packetLengthQueried := false }
  let _ ← clearIrqFlags flagsAll
  return (state, data)

end Sx127x

end WalkieTalkie
