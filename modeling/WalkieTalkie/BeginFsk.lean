import Mathlib.Data.Int.Bitwise
import WalkieTalkie.Sx127x

/-!
# The configuration of the radio

`rfm9x_begin_fsk` with the setters of `SX127x.cpp` and `SX1278.cpp` it calls, for FSK. The
floating-point arithmetic of the setters is an argument: the outcome of each range check and
the register values. A reset gives the chip a register file, which may differ from try to try.
-/
namespace WalkieTalkie

abbrev regBitrateMsb : UInt8 := 0x02
abbrev regBitrateLsb : UInt8 := 0x03
abbrev regFdevMsb : UInt8 := 0x04
abbrev regFdevLsb : UInt8 := 0x05
abbrev regFrfMsb : UInt8 := 0x06
abbrev regFrfMid : UInt8 := 0x07
abbrev regFrfLsb : UInt8 := 0x08
abbrev regPaConfig : UInt8 := 0x09
abbrev regPaRamp : UInt8 := 0x0A
abbrev regOcp : UInt8 := 0x0B
abbrev regRxConfig : UInt8 := 0x0D
abbrev regRssiConfig : UInt8 := 0x0E
abbrev regRssiThresh : UInt8 := 0x10
abbrev regRxBw : UInt8 := 0x12
abbrev regAfcBw : UInt8 := 0x13
abbrev regPreambleDetect : UInt8 := 0x1F
abbrev regRxTimeout1 : UInt8 := 0x20
abbrev regRxTimeout2 : UInt8 := 0x21
abbrev regHopPeriod : UInt8 := 0x24
abbrev regPreambleMsbFsk : UInt8 := 0x25
abbrev regPreambleLsbFsk : UInt8 := 0x26
abbrev regSyncConfig : UInt8 := 0x27
abbrev regSyncValue1 : UInt8 := 0x28
abbrev regPacketConfig2 : UInt8 := 0x31
abbrev regNodeAdrs : UInt8 := 0x33
abbrev regBroadcastAdrs : UInt8 := 0x34
abbrev regVersion : UInt8 := 0x42
abbrev regPllHop : UInt8 := 0x44
abbrev regPaDac : UInt8 := 0x4D
abbrev regBitRateFrac : UInt8 := 0x5D

abbrev modulationFsk : UInt8 := 0x00
abbrev modulationOok : UInt8 := 0x20
abbrev rxTriggerRssiInterrupt : UInt8 := 0x01
abbrev rxTriggerBoth : UInt8 := 0x07
abbrev afcAutoOff : UInt8 := 0x00
abbrev afcAutoOn : UInt8 := 0x10
abbrev ocpOff : UInt8 := 0x00
abbrev ocpOn : UInt8 := 0x20
abbrev preamblePolarityAA : UInt8 := 0x00
abbrev preamblePolarity55 : UInt8 := 0x20
abbrev syncOff : UInt8 := 0x00
abbrev syncOn : UInt8 := 0x10
abbrev addressFilteringOff : UInt8 := 0x00
abbrev dcFreeNone : UInt8 := 0x00
abbrev dcFreeManchester : UInt8 := 0x20
abbrev dcFreeWhitening : UInt8 := 0x40
abbrev crcOn : UInt8 := 0x10
abbrev crcAutoclearOn : UInt8 := 0x00
abbrev crcWhiteningTypeCcitt : UInt8 := 0x00
abbrev dataModePacket : UInt8 := 0x40
abbrev ioHomeOff : UInt8 := 0x00
abbrev preambleDetector : UInt8 := 0x80 ||| 0x20 ||| 0x0A
abbrev fastHopOn : UInt8 := 0x80
abbrev rssiThreshold : UInt8 := 0xFF
abbrev hopPeriodOff : Int := 0
abbrev paSelectRfo : UInt8 := 0x00
abbrev paSelectBoost : UInt8 := 0x80
abbrev lowPower : UInt8 := 0x20
abbrev maxPower : UInt8 := 0x70
abbrev paBoostOff : UInt8 := 0x04
abbrev paBoostOn : UInt8 := 0x07
abbrev noShaping : UInt8 := 0x00

abbrev errChipNotFound : Int := -2
abbrev errPacketTooLong : Int := -4
abbrev errInvalidFrequency : Int := -12
abbrev errInvalidOutputPower : Int := -13
abbrev errInvalidCurrentLimit : Int := -17
abbrev errWrongModem : Int := -20
abbrev errInvalidNumSamples : Int := -21
abbrev errInvalidRssiOffset : Int := -22
abbrev errInvalidBitRate : Int := -101
abbrev errInvalidFrequencyDeviation : Int := -102
abbrev errInvalidRxBandwidth : Int := -104
abbrev errInvalidSyncWord : Int := -105
abbrev errInvalidModulation : Int := -107

/-- The arguments of `rfm9x_begin_fsk`, the floating-point ones as the setters turn them into
range checks and register values. -/
structure FskArgs where
  freqOk : Bool
  frf : UInt32
  brOk : Bool
  bitRateRaw : UInt16
  bitRateFrac : UInt8
  freqDevOk : Bool
  fdev : UInt32
  rxBwOk : Bool
  rxBwManExp : UInt8
  power : Int
  preambleLength : UInt16

/-- The chip after a reset that leaves it the registers `file`. -/
def Chip.reset (file : UInt8 → UInt8) (c : Chip) : Chip :=
  { reg := file, fifo := [], payloadReady := false, packetSent := false, refuses := c.refuses }

namespace Sx127x

/-- `state |= f()` -/
def orState (state : Int) (f : Drv Int) : Drv Int := do
  let rc ← f
  return Int.lor state rc

/-- A setter that asks for the FSK modem. -/
def inFsk (f : Drv Int) : Drv Int := do
  let modem ← getActiveModem
  if modem ≠ fskOok then return errWrongModem
  f

def setReg (reg value : UInt8) : Drv Int := setRegValue reg value 7 0 0xFF

def forceReg (reg value : UInt8) : Drv Int := fun x =>
  onChip (spiSetRegValue x.polls reg value 7 0 0xFF true) x

def setActiveModem (modem : UInt8) : Drv Int := do
  let state ← setMode modeSleep
  let state ← orState state (setRegValue regOpMode modem 7 7 0xF7)
  orState state (setMode modeStandby)

def setAfcAgcTrigger (trigger : UInt8) : Drv Int :=
  inFsk (setRegValue regRxConfig trigger 2 0 0xFF)

def setOok (enableOok : Bool) : Drv Int := inFsk do
  let state ← setRegValue regOpMode (if enableOok then modulationOok else modulationFsk) 6 5 0xFF
  let state ← orState state
    (setAfcAgcTrigger (if enableOok then rxTriggerRssiInterrupt else rxTriggerBoth))
  if state = errNone then modify fun x => { x with ookEnabled := enableOok }
  return state

def setFrequencyDeviation (a : FskArgs) : Drv Int := inFsk do
  if a.freqDevOk = false then return errInvalidFrequencyDeviation
  let state ← setMode modeStandby
  if state ≠ errNone then return state
  let state ← setRegValue regFdevMsb ((a.fdev &&& 0xFF00) >>> 8).toUInt8 5 0 0xFF
  orState state (setRegValue regFdevLsb (a.fdev &&& 0x00FF).toUInt8 7 0 0xFF)

/-- `setRxBandwidth` and `setAFCBandwidth` -/
def setBandwidthReg (reg : UInt8) (a : FskArgs) : Drv Int := inFsk do
  if a.rxBwOk = false then return errInvalidRxBandwidth
  let state ← setMode modeStandby
  if state ≠ errNone then return state
  setRegValue reg a.rxBwManExp 4 0 0xFF

def setRxBandwidth (a : FskArgs) : Drv Int := setBandwidthReg regRxBw a

def setAfcBandwidth (a : FskArgs) : Drv Int := setBandwidthReg regAfcBw a

def setAfc (isEnabled : Bool) : Drv Int :=
  inFsk (setRegValue regRxConfig (if isEnabled then afcAutoOn else afcAutoOff) 4 4 0xFF)

def setCurrentLimit (currentLimit : UInt8) : Drv Int := do
  if ¬((45 ≤ currentLimit ∧ currentLimit ≤ 240) ∨ currentLimit = 0) then
    return errInvalidCurrentLimit
  let state ← setMode modeStandby
  if currentLimit = 0 then orState state (setRegValue regOcp ocpOff 5 5 0xFF)
  else if currentLimit ≤ 120 then
    orState state (setRegValue regOcp (ocpOn ||| (currentLimit - 45) / 5) 5 0 0xFF)
  else
    let raw := UInt8.ofNat ((currentLimit.toNat + 30) / 10)
    orState state (setRegValue regOcp (ocpOn ||| raw) 5 0 0xFF)

def setPreambleLength (preambleLength : UInt16) : Drv Int := do
  let state ← setMode modeStandby
  if state ≠ errNone then return state
  let modem ← getActiveModem
  if modem = lora then loraModem
  if modem ≠ fskOok then return errUnknown
  let numBytes := preambleLength / 8
  let state ← setReg regPreambleMsbFsk (numBytes >>> 8 &&& 0xFF).toUInt8
  orState state (setReg regPreambleLsbFsk (numBytes &&& 0xFF).toUInt8)

def invertPreamble (enable : Bool) : Drv Int := do
  let state ← setMode modeStandby
  if state ≠ errNone then return state
  let modem ← getActiveModem
  if modem = lora then return errWrongModem
  if modem ≠ fskOok then return errUnknown
  setRegValue regSyncConfig (if enable then preamblePolarityAA else preamblePolarity55) 5 5 0xFF

def setSyncWord (syncWord : List UInt8) : Drv Int := do
  let modem ← getActiveModem
  if modem = lora then loraModem
  if modem ≠ fskOok then return errWrongModem
  if syncWord = [] then setRegValue regSyncConfig syncOff 4 4 0xFF
  else if 8 < syncWord.length then return errInvalidSyncWord
  else if 0x00 ∈ syncWord then return errInvalidSyncWord
  else
    let state ← setRegValue regSyncConfig syncOn 4 4 0xFF
    let state ← orState state
      (setRegValue regSyncConfig (UInt8.ofNat (syncWord.length - 1)) 2 0 0xFF)
    if state ≠ errNone then return state
    writeRegisterBurst regSyncValue1 syncWord
    return errNone

def disableAddressFiltering : Drv Int := inFsk do
  let state ← setRegValue regPacketConfig1 addressFilteringOff 2 1 0xFF
  if state ≠ errNone then return state
  let state ← setReg regNodeAdrs 0x00
  if state ≠ errNone then return state
  setReg regBroadcastAdrs 0x00

def setRssiConfig (smoothingSamples : UInt8) (offset : Int) : Drv Int := inFsk do
  let state ← standby
  if state ≠ errNone then return state
  if 7 < smoothingSamples then return errInvalidNumSamples
  if ¬(-16 ≤ offset ∧ offset ≤ 15) then return errInvalidRssiOffset
  let offsetRaw := ((UInt8.ofNat offset.natAbs ^^^ 0x1F) + 1) &&& 0x1F
  let state ← setRegValue regRssiConfig (offsetRaw <<< 3) 7 3 0xFF
  orState state (setRegValue regRssiConfig smoothingSamples 2 0 0xFF)

inductive Encoding | nrz | manchester | whitening deriving DecidableEq, Repr

def setEncoding (encoding : Encoding) : Drv Int := inFsk <| match encoding with
  | .nrz => setRegValue regPacketConfig1 dcFreeNone 6 5 0xFF
  | .manchester => setRegValue regPacketConfig1 dcFreeManchester 6 5 0xFF
  | .whitening => setRegValue regPacketConfig1 dcFreeWhitening 6 5 0xFF

def setPacketMode (mode len : UInt8) : Drv Int := do
  if maxPacketLengthFsk < len.toNat then return errPacketTooLong
  inFsk do
    let state ← setRegValue regPacketConfig1 mode 7 7 0xFF
    if state ≠ errNone then return state
    let state ← setReg regPayloadLengthFsk len
    if state ≠ errNone then return state
    modify fun x => { x with packetLengthConfig := mode }
    return state

def variablePacketLengthMode (maxLen : UInt8) : Drv Int := setPacketMode packetVariable maxLen

def reset (file : UInt8 → UInt8) : Drv Unit := modify fun x => x.withChip (x.chip.reset file)

def getChipVersion : Drv Int := getRegValue regVersion 7 0

/-- The tries that are left, each with the register file its reset gives. -/
def findLoop (vers : List UInt8) : List (UInt8 → UInt8) → Drv Bool
  | [] => return false
  | file :: files => do
    reset file
    let version ← getChipVersion
    if ∃ v ∈ vers, version = v.toNat then return true
    findLoop vers files

def findChip (resets : ℕ → UInt8 → UInt8) (vers : List UInt8) : Drv Bool :=
  findLoop vers ((List.range 10).map resets)

def fskIrqMap : ℕ → UInt32
  | 0x00 => flagPacketSent.toUInt32 <<< 8
  | 0x01 => flagPayloadReady.toUInt32 <<< 8
  | 0x02 => flagPreambleDetect
  | 0x03 => flagSyncAddressMatch
  | 0x09 => flagTimeout
  | _ => irqNotSupported

/-- `SX127x::beginFSK` with `enableOOK` off. -/
def beginFskCommon (resets : ℕ → UInt8 → UInt8) (vers : List UInt8) (a : FskArgs) : Drv Int := do
  modify fun x => { x with irqMap := fskIrqMap }
  let found ← findChip resets vers
  if found = false then return errChipNotFound
  let state ← standby
  if state ≠ errNone then return state
  let modem ← getActiveModem
  let state ← (if modem ≠ fskOok then setActiveModem 0x00 else pure state : Drv Int)
  if state ≠ errNone then return state
  let state ← setOok false
  if state ≠ errNone then return state
  let state ← setFrequencyDeviation a
  if state ≠ errNone then return state
  let state ← setAfcBandwidth a
  if state ≠ errNone then return state
  let state ← setAfcAgcTrigger rxTriggerRssiInterrupt
  if state ≠ errNone then return state
  let state ← setAfc false
  if state ≠ errNone then return state
  let state ← setRxBandwidth a
  if state ≠ errNone then return state
  let state ← setCurrentLimit 60
  if state ≠ errNone then return state
  let state ← setPreambleLength a.preambleLength
  if state ≠ errNone then return state
  let state ← invertPreamble false
  if state ≠ errNone then return state
  let state ← setSyncWord [0x12, 0xAD]
  if state ≠ errNone then return state
  let state ← disableAddressFiltering
  if state ≠ errNone then return state
  let state ← setRssiConfig 2 0
  if state ≠ errNone then return state
  let state ← setEncoding .nrz
  if state ≠ errNone then return state
  variablePacketLengthMode (UInt8.ofNat maxPacketLengthFsk)

/-- `SX1278::configFSK`, with the part of `SX127x::configFSK` first. -/
def configFsk : Drv Int := do
  let state ← setReg regRssiThresh rssiThreshold
  if state ≠ errNone then return state
  writeRegister regIrqFlags2 flagFifoOverrun
  let state ← setRegValue regPacketConfig1 (packetVariable ||| dcFreeNone ||| crcOn |||
    crcAutoclearOn ||| addressFilteringOff ||| crcWhiteningTypeCcitt) 7 0 0xFF
  let state ← orState state (setRegValue regPacketConfig2 (dataModePacket ||| ioHomeOff) 6 5 0xFF)
  if state ≠ errNone then return state
  let state ← setRegValue regFifoThresh txStartFifoNotEmpty 7 7 0xFF
  let state ← orState state (setRegValue regFifoThresh (UInt8.ofNat fifoThresh) 5 0 0xFF)
  if state ≠ errNone then return state
  let state ← setReg regRxTimeout1 0x00
  let state ← orState state (setReg regRxTimeout2 0x00)
  let state ← orState state (setReg regRxTimeout3 0x00)
  if state ≠ errNone then return state
  let state ← setReg regPreambleDetect preambleDetector
  if state ≠ errNone then return state
  setRegValue regPllHop fastHopOn 7 7 0xFF

def setFrequencyRaw (frf : UInt32) : Drv Int := do
  let hop ← getRegValue regHopPeriod 7 0
  let state ← (if hop = hopPeriodOff then setMode modeStandby else pure errNone : Drv Int)
  let state ← orState state (setReg regFrfMsb ((frf &&& 0xFF0000) >>> 16).toUInt8)
  let state ← orState state (setReg regFrfMid ((frf &&& 0x00FF00) >>> 8).toUInt8)
  orState state (forceReg regFrfLsb (frf &&& 0x0000FF).toUInt8)

def setFrequency (a : FskArgs) : Drv Int :=
  if a.freqOk = false then return errInvalidFrequency else setFrequencyRaw a.frf

/-- The range check in `a` is that of `setBitRateCommon` for FSK. -/
def setBitRate (a : FskArgs) : Drv Int := inFsk do
  if a.brOk = false then return errInvalidBitRate
  let state ← setMode modeStandby
  if state ≠ errNone then return state
  let state ← setRegValue regBitrateMsb ((a.bitRateRaw &&& 0xFF00) >>> 8).toUInt8 7 0 0xFF
  let state ← orState state (setRegValue regBitrateLsb (a.bitRateRaw &&& 0x00FF).toUInt8 7 0 0xFF)
  let x ← get
  if x.ookEnabled = false then orState state (setRegValue regBitRateFrac a.bitRateFrac 7 0 0xFF)
  else return state

def checkOutputPower (power : Int) (useRfo : Bool) : Int :=
  if useRfo then if -4 ≤ power ∧ power ≤ 15 then errNone else errInvalidOutputPower
  else if power = 20 ∨ (2 ≤ power ∧ power ≤ 17) then errNone else errInvalidOutputPower

def setOutputPower (power : Int) : Drv Int := do
  let useRfo := decide (power < 2)
  let state := checkOutputPower power useRfo
  if state ≠ errNone then return state
  let state ← standby
  if useRfo then
    let paCfg := if power < 0 then lowPower ||| UInt8.ofInt (power + 3)
      else maxPower ||| UInt8.ofInt power
    let state ← orState state (setRegValue regPaConfig paSelectRfo 7 7 0xFF)
    let state ← orState state (setRegValue regPaConfig paCfg 6 0 0xFF)
    orState state (setRegValue regPaDac paBoostOff 2 0 0xFF)
  else if power ≠ 20 then
    let state ← orState state (setRegValue regPaConfig paSelectBoost 7 7 0xFF)
    let state ← orState state
      (setRegValue regPaConfig (maxPower ||| UInt8.ofInt (power - 2)) 6 0 0xFF)
    orState state (setRegValue regPaDac paBoostOff 2 0 0xFF)
  else
    let state ← orState state (setRegValue regPaConfig paSelectBoost 7 7 0xFF)
    let state ← orState state (setRegValue regPaConfig (maxPower ||| 0x0F) 6 0 0xFF)
    orState state (setRegValue regPaDac paBoostOn 2 0 0xFF)

/-- `setDataShapingOOK(0)` -/
def setDataShapingOokNone : Drv Int := inFsk do
  let x ← get
  if x.ookEnabled = false then return errInvalidModulation
  let state ← standby
  orState state (setRegValue regPaRamp noShaping 6 5 0xFF)

/-- `setDataShaping(RADIOLIB_SHAPING_NONE)` -/
def setDataShapingNone : Drv Int := inFsk do
  let x ← get
  if x.ookEnabled then setDataShapingOokNone
  else
    let state ← standby
    if state ≠ errNone then return state
    setRegValue regPaRamp noShaping 6 5 0xFF

def chipVersions : List UInt8 := [0x12, 0x13, 0x11]

/-- `SX1276::beginFSK` with `enableOOK` off, as `rfm9x_begin_fsk` calls it. -/
def beginFsk (resets : ℕ → UInt8 → UInt8) (a : FskArgs) : Drv Int := do
  let state ← beginFskCommon resets chipVersions a
  if state ≠ errNone then return state
  let state ← configFsk
  if state ≠ errNone then return state
  let state ← setFrequency a
  if state ≠ errNone then return state
  let state ← setBitRate a
  if state ≠ errNone then return state
  let state ← setOutputPower a.power
  if state ≠ errNone then return state
  setDataShapingNone

end Sx127x

end WalkieTalkie
