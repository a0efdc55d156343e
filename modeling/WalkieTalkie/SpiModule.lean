import WalkieTalkie.BitField
import Mathlib.Data.Fin.Basic
import Mathlib.Data.List.TakeDrop
import Mathlib.Logic.Function.Basic
import Mathlib.Tactic.SplitIfs

/-!
# The transceiver chip and the register access of `Module.cpp`

The SX1276 in FSK packet mode carries what the driver reads or writes of it: the register
file, the FIFO and two of its event flags. A frame on the SPI bus is a command byte and
the data bytes; the address advances with every byte but stays on the FIFO. The check
interval of `SPIsetRegValue` is counted in readings of the register.
-/
namespace WalkieTalkie

abbrev regFifo : UInt8 := 0x00
abbrev regOpMode : UInt8 := 0x01
abbrev regIrqFlags1 : UInt8 := 0x3E
abbrev regIrqFlags2 : UInt8 := 0x3F

abbrev modeSleep : UInt8 := 0x00
abbrev modeStandby : UInt8 := 0x01
abbrev modeTx : UInt8 := 0x03
abbrev modeRx : UInt8 := 0x05

abbrev flagFifoEmpty : UInt8 := 0x40
abbrev flagFifoOverrun : UInt8 := 0x10
abbrev flagPacketSent : UInt8 := 0x08
abbrev flagPayloadReady : UInt8 := 0x04

abbrev fifoSize : ℕ := 64

/-- The field `msb` to `lsb` of a register value. -/
def field (msb lsb : ℕ) (v : UInt8) : UInt8 := ⟨BitField.get msb lsb v.toBitVec⟩

def putField (msb lsb : ℕ) (old new : UInt8) : UInt8 :=
  ⟨BitField.put msb lsb old.toBitVec new.toBitVec⟩

@[simp] theorem field_putField (msb lsb : ℕ) (old new : UInt8) :
    field msb lsb (putField msb lsb old new) = field msb lsb new :=
  congrArg UInt8.ofBitVec (BitField.get_put msb lsb _ _)

theorem field_putField_of_disjoint {msb lsb msb' lsb' : ℕ} (h : msb < lsb' ∨ msb' < lsb)
    (old new : UInt8) : field msb' lsb' (putField msb lsb old new) = field msb' lsb' old :=
  congrArg UInt8.ofBitVec (BitField.get_put_of_disjoint h _ _)

theorem putField_eq_self {msb lsb : ℕ} {old new : UInt8}
    (h : field msb lsb old = field msb lsb new) : putField msb lsb old new = old :=
  congrArg UInt8.ofBitVec (BitField.put_eq_self (congrArg UInt8.toBitVec h))

structure Chip where
  reg : UInt8 → UInt8
  fifo : List UInt8
  payloadReady : Bool
  packetSent : Bool
  /-- The next switch to the transmitter or the receiver does not take. -/
  refuses : Bool

namespace Chip

def setReg (c : Chip) (a v : UInt8) : Chip := { c with reg := Function.update c.reg a v }

def setField (c : Chip) (a : UInt8) (msb lsb : ℕ) (v : UInt8) : Chip :=
  c.setReg a (putField msb lsb (c.reg a) v)

def mode (c : Chip) : UInt8 := field 2 0 (c.reg regOpMode)

/-- A write of the mode register. Leaving the transmitter clears the packet-sent flag. -/
def switch (c : Chip) (v : UInt8) : Chip :=
  if c.refuses ∧ (field 2 0 v = modeTx ∨ field 2 0 v = modeRx) then c
  else { c.setReg regOpMode v with packetSent := c.packetSent && field 2 0 v == modeTx }

/-- Register 0x3F as far as the firmware masks it. -/
def flags2 (c : Chip) : UInt8 :=
  (if c.fifo = [] then flagFifoEmpty else 0) ||| (if c.packetSent then flagPacketSent else 0) |||
    (if c.payloadReady then flagPayloadReady else 0)

theorem flags2_payloadReady (c : Chip) :
    c.flags2 &&& flagPayloadReady = 0 ↔ c.payloadReady = false := by
  have key : ∀ e s r : Bool, (((if e then flagFifoEmpty else 0) |||
      (if s then flagPacketSent else 0) ||| if r then flagPayloadReady else 0) &&&
        flagPayloadReady = 0 ↔ r = false) := by decide
  simpa [flags2] using key (decide (c.fifo = [])) c.packetSent c.payloadReady

/-- Clearing the overrun flag empties the FIFO. -/
def dump (c : Chip) : Chip := { c with fifo := [], payloadReady := false }

/-- The payload-ready flag falls with the last byte. -/
def pop (c : Chip) : UInt8 × Chip :=
  match c.fifo with
  | [] => (0, c)
  | v :: vs => (v, { c with fifo := vs, payloadReady := c.payloadReady && !vs.isEmpty })

def push (c : Chip) (v : UInt8) : Chip :=
  if c.fifo.length < fifoSize then { c with fifo := c.fifo ++ [v] } else c

def read (c : Chip) (a : UInt8) : UInt8 × Chip :=
  if a = regFifo then c.pop
  else if a = regIrqFlags2 then (c.flags2, c)
  else (c.reg a, c)

def write (c : Chip) (a v : UInt8) : Chip :=
  if a = regFifo then c.push v
  else if a = regOpMode then c.switch v
  else if a = regIrqFlags1 then c
  else if a = regIrqFlags2 then (if v &&& flagFifoOverrun = 0 then c else c.dump)
  else c.setReg a v

def nextAddr (a : UInt8) : UInt8 := if a = regFifo then regFifo else a + 1

def readBurst (a : UInt8) : ℕ → Chip → List UInt8 × Chip
  | 0, c => ([], c)
  | n + 1, c =>
    let (v, c) := c.read a
    let (vs, c) := readBurst (nextAddr a) n c
    (v :: vs, c)

def writeBurst (a : UInt8) : List UInt8 → Chip → Chip
  | [], c => c
  | v :: vs, c => writeBurst (nextAddr a) vs (c.write a v)

/-- One frame, full duplex: bit 7 of the first byte asks for a write. -/
def transfer (c : Chip) : List UInt8 → List UInt8 × Chip
  | [] => ([], c)
  | cmd :: out =>
    if cmd &&& 0x80 = 0 then
      let (vs, c) := readBurst cmd out.length c
      (0 :: vs, c)
    else (List.replicate (out.length + 1) 0, writeBurst (cmd &&& 0x7F) out c)

end Chip

abbrev errNone : Int := 0
abbrev errInvalidBitRange : Int := -11
abbrev errSpiWriteFailed : Int := -16

abbrev cmdRead : UInt8 := 0x00
abbrev cmdWrite : UInt8 := 0x80
abbrev cmdNop : UInt8 := 0x00

/-- `SPItransfer` with the one address byte of this chip. -/
def spiTransfer (cmd reg : UInt8) (dataOut : List UInt8) (numBytes : ℕ) (c : Chip) :
    List UInt8 × Chip :=
  let buffOut := (reg ||| cmd) ::
    if cmd = cmdWrite then dataOut.take numBytes else List.replicate numBytes cmdNop
  let (buffIn, c) := c.transfer buffOut
  (if cmd = cmdRead then (buffIn.drop 1).take numBytes else [], c)

def spiReadRegisterBurst (reg : UInt8) (numBytes : ℕ) (c : Chip) : List UInt8 × Chip :=
  spiTransfer cmdRead reg [] numBytes c

def spiReadRegister (reg : UInt8) (c : Chip) : UInt8 × Chip :=
  let (resp, c) := spiTransfer cmdRead reg [] 1 c
  (resp.headD 0, c)

def spiWriteRegisterBurst (reg : UInt8) (data : List UInt8) (c : Chip) : Chip :=
  (spiTransfer cmdWrite reg data data.length c).2

def spiWriteRegister (reg data : UInt8) (c : Chip) : Chip :=
  (spiTransfer cmdWrite reg [data] 1 c).2

/-- The mask of `SPIgetRegValue`, as the code shifts it. -/
def getMask (msb lsb : ℕ) : UInt8 := UInt8.ofNat (0xFF <<< lsb &&& 0xFF >>> (7 - msb))

/-- The mask of `SPIsetRegValue`, which is computed from the bits outside the field. -/
def setMask (msb lsb : ℕ) : UInt8 := ~~~UInt8.ofNat (0xFF <<< (msb + 1) ||| 0xFF >>> (8 - lsb))

def badRange (msb lsb : ℕ) : Bool := msb > 7 || lsb > 7 || lsb > msb

def spiGetRegValue (reg : UInt8) (msb lsb : ℕ) (c : Chip) : Int × Chip :=
  if badRange msb lsb then (errInvalidBitRange, c)
  else
    let (rawValue, c) := spiReadRegister reg c
    ((rawValue &&& getMask msb lsb).toNat, c)

/-- The check after a write, with as many readings as the interval allows. -/
def checkLoop (reg newValue checkMask : UInt8) : ℕ → Chip → Int × Chip
  | 0, c => (errSpiWriteFailed, c)
  | polls + 1, c =>
    let (val, c) := spiReadRegister reg c
    if val &&& checkMask = newValue &&& checkMask then (errNone, c)
    else checkLoop reg newValue checkMask polls c

def spiSetRegValue (polls : ℕ) (reg value : UInt8) (msb lsb : ℕ) (checkMask : UInt8) (force : Bool)
    (c : Chip) : Int × Chip :=
  if badRange msb lsb then (errInvalidBitRange, c)
  else
    let (currentValue, c) := spiReadRegister reg c
    let mask := setMask msb lsb
    if currentValue &&& mask = value &&& mask ∧ force = false then (errNone, c)
    else
      let newValue := (currentValue &&& ~~~mask) ||| (value &&& mask)
      checkLoop reg newValue checkMask polls (spiWriteRegister reg newValue c)

theorem badRange_eq_false {msb lsb : ℕ} : badRange msb lsb = false ↔ lsb ≤ msb ∧ msb ≤ 7 := by
  simp [badRange]
  omega

/-- Both ways of shifting the mask give the field. -/
theorem masks_eq {msb lsb : ℕ} (h : badRange msb lsb = false) :
    (getMask msb lsb).toBitVec = BitField.mask 8 msb lsb ∧
      (setMask msb lsb).toBitVec = BitField.mask 8 msb lsb := by
  obtain ⟨hl, hm⟩ := badRange_eq_false.mp h
  have key : ∀ m < 8, ∀ l < 8, l ≤ m → (getMask m l).toBitVec = BitField.mask 8 m l ∧
      (setMask m l).toBitVec = BitField.mask 8 m l := by decide +kernel
  exact key msb (by omega) lsb (by omega) hl

theorem and_getMask {msb lsb : ℕ} (h : badRange msb lsb = false) (v : UInt8) :
    v &&& getMask msb lsb = field msb lsb v := by
  apply UInt8.toBitVec_inj.mp
  rw [UInt8.toBitVec_and, (masks_eq h).1]
  rfl

theorem and_setMask {msb lsb : ℕ} (h : badRange msb lsb = false) (v : UInt8) :
    v &&& setMask msb lsb = field msb lsb v := by
  apply UInt8.toBitVec_inj.mp
  rw [UInt8.toBitVec_and, (masks_eq h).2]
  rfl

theorem put_setMask {msb lsb : ℕ} (h : badRange msb lsb = false) (old new : UInt8) :
    (old &&& ~~~setMask msb lsb) ||| field msb lsb new = putField msb lsb old new := by
  rw [← and_setMask h]
  apply UInt8.toBitVec_inj.mp
  rw [UInt8.toBitVec_or, UInt8.toBitVec_and, UInt8.toBitVec_and, UInt8.toBitVec_not, (masks_eq h).2]
  rfl

/-- An address leaves bit 7 of the command byte to the command. -/
theorem command_byte {a : UInt8} (h : a < 0x80) : (a ||| cmdRead) &&& 0x80 = 0 ∧
    a ||| cmdRead = a ∧ (a ||| cmdWrite) &&& 0x80 ≠ 0 ∧ (a ||| cmdWrite) &&& 0x7F = a := by
  have key : ∀ i : Fin 128, (UInt8.ofNat i ||| cmdRead) &&& 0x80 = 0 ∧
      UInt8.ofNat i ||| cmdRead = UInt8.ofNat i ∧ (UInt8.ofNat i ||| cmdWrite) &&& 0x80 ≠ 0 ∧
      (UInt8.ofNat i ||| cmdWrite) &&& 0x7F = UInt8.ofNat i := by decide +kernel
  simpa using key ⟨a.toNat, h⟩

@[simp] theorem Chip.length_readBurst (a : UInt8) (n : ℕ) (c : Chip) :
    (Chip.readBurst a n c).1.length = n := by
  induction n generalizing a c with
  | zero => rfl
  | succ n ih => simp [Chip.readBurst, ih]

theorem spiReadRegisterBurst_eq {a : UInt8} (h : a < 0x80) (n : ℕ) (c : Chip) :
    spiReadRegisterBurst a n c = Chip.readBurst a n c := by
  obtain ⟨hr, ha, _⟩ := command_byte h
  rw [ha] at hr
  have hl : (Chip.readBurst a n c).1.take n = (Chip.readBurst a n c).1 :=
    List.take_of_length_le (Chip.length_readBurst a n c).le
  have hc : cmdRead ≠ cmdWrite := by decide
  simp [spiReadRegisterBurst, spiTransfer, Chip.transfer, hr, hl, hc]

theorem spiReadRegister_eq {a : UInt8} (h : a < 0x80) (c : Chip) :
    spiReadRegister a c = c.read a := by
  have hb := spiReadRegisterBurst_eq h 1 c
  rw [spiReadRegisterBurst] at hb
  rw [spiReadRegister, hb]
  rfl

theorem spiWriteRegisterBurst_eq {a : UInt8} (h : a < 0x80) (data : List UInt8) (c : Chip) :
    spiWriteRegisterBurst a data c = Chip.writeBurst a data c := by
  obtain ⟨_, _, hw, ha⟩ := command_byte h
  simp only [spiWriteRegisterBurst, spiTransfer, if_true, Chip.transfer, if_neg hw, ha,
    List.take_length]

theorem spiWriteRegister_eq {a : UInt8} (h : a < 0x80) (v : UInt8) (c : Chip) :
    spiWriteRegister a v c = c.write a v := spiWriteRegisterBurst_eq h [v] c

namespace Chip

/-- A burst write to the FIFO that fits is appended to it. -/
theorem writeBurst_fifo {data : List UInt8} {c : Chip}
    (h : c.fifo.length + data.length ≤ fifoSize) :
    writeBurst regFifo data c = { c with fifo := c.fifo ++ data } := by
  induction data generalizing c with
  | nil => simp [writeBurst]
  | cons v vs ih =>
    rw [List.length_cons] at h
    have hp : c.write regFifo v = { c with fifo := c.fifo ++ [v] } :=
      if_pos (show c.fifo.length < fifoSize by omega)
    rw [writeBurst, hp, nextAddr, if_pos rfl, ih (by simp; omega)]
    simp

/-- A burst read from the FIFO takes its bytes from the front. -/
theorem readBurst_fifo {n : ℕ} {c : Chip} (h : n ≤ c.fifo.length) : ∃ ready,
    readBurst regFifo n c =
      (c.fifo.take n, { c with fifo := c.fifo.drop n, payloadReady := ready }) := by
  induction n generalizing c with
  | zero => exact ⟨c.payloadReady, rfl⟩
  | succ n ih =>
    cases hf : c.fifo with
    | nil => simp [hf] at h
    | cons v vs =>
      rw [hf, List.length_cons] at h
      have hr : c.read regFifo =
          (v, { c with fifo := vs, payloadReady := c.payloadReady && !vs.isEmpty }) := by
        simp [read, pop, hf]
      obtain ⟨ready, hb⟩ := ih (c := { c with
        fifo := vs, payloadReady := c.payloadReady && !vs.isEmpty }) (Nat.le_of_succ_le_succ h)
      exact ⟨ready, by simp [readBurst, hr, nextAddr, hb]⟩

end Chip

/-- A register that keeps what is written to it and does nothing else. -/
structure Stored (a : UInt8) : Prop where
  address : a < 0x80
  not_fifo : a ≠ regFifo
  not_opMode : a ≠ regOpMode
  not_flags1 : a ≠ regIrqFlags1
  not_flags2 : a ≠ regIrqFlags2

namespace Chip

variable {a : UInt8} {c : Chip}

theorem read_reg (hf : a ≠ regFifo) (h2 : a ≠ regIrqFlags2) : c.read a = (c.reg a, c) := by
  simp [read, hf, h2]

theorem write_stored (h : Stored a) (v : UInt8) : c.write a v = c.setReg a v := by
  simp [write, h.not_fifo, h.not_opMode, h.not_flags1, h.not_flags2]

@[simp] theorem setReg_same (v : UInt8) : (c.setReg a v).reg a = v := Function.update_self ..

@[simp] theorem setReg_of_ne {b : UInt8} (h : b ≠ a) (v : UInt8) :
    (c.setReg a v).reg b = c.reg b := Function.update_of_ne h ..

theorem setReg_eq_self {v : UInt8} (h : c.reg a = v) : c.setReg a v = c := by
  subst h
  rw [setReg, Function.update_eq_self]

end Chip

theorem checkLoop_eq {reg newValue checkMask val : UInt8} {c : Chip}
    (hr : spiReadRegister reg c = (val, c)) (polls : ℕ) :
    checkLoop reg newValue checkMask polls c =
      (if 0 < polls ∧ val &&& checkMask = newValue &&& checkMask then errNone
        else errSpiWriteFailed, c) := by
  induction polls with
  | zero => rfl
  | succ polls ih =>
    rw [checkLoop, hr]
    by_cases hm : val &&& checkMask = newValue &&& checkMask
    · simp [hm]
    · simp [hm, ih]

theorem spiReadRegister_stored {a : UInt8} (h : Stored a) (c : Chip) :
    spiReadRegister a c = (c.reg a, c) := by
  rw [spiReadRegister_eq h.address, Chip.read_reg h.not_fifo h.not_flags2]

theorem spiReadRegister_opMode (c : Chip) : spiReadRegister regOpMode c = (c.reg regOpMode, c) :=
  spiReadRegister_eq (by decide) c

theorem spiGetRegValue_of_read {a v : UInt8} {msb lsb : ℕ} {c : Chip}
    (hr : spiReadRegister a c = (v, c)) (h : badRange msb lsb = false) :
    spiGetRegValue a msb lsb c = (((field msb lsb v).toNat : Int), c) := by
  rw [spiGetRegValue, h, hr]
  simp [and_getMask h]

/-- A field of a stored register is written whether or not the write is skipped. -/
theorem spiSetRegValue_stored {a : UInt8} {msb lsb polls : ℕ} (ha : Stored a) (hp : 0 < polls)
    (h : badRange msb lsb = false) (v checkMask : UInt8) (force : Bool) (c : Chip) :
    spiSetRegValue polls a v msb lsb checkMask force c =
      (errNone, c.setField a msb lsb v) := by
  rw [Chip.setField, spiSetRegValue, h, spiReadRegister_stored ha]
  simp only [Bool.false_eq_true, if_false, and_setMask h, put_setMask h]
  split_ifs with hs
  · rw [putField_eq_self hs.1, Chip.setReg_eq_self rfl]
  · rw [spiWriteRegister_eq ha.address, Chip.write_stored ha,
      checkLoop_eq (spiReadRegister_stored ha _), Chip.setReg_same]
    simp [hp]

/-- A register that can be read without an effect, and whose value is a value of the file. -/
def Readable (a : UInt8) : Prop := a < 0x80 ∧ a ≠ regFifo ∧ a ≠ regIrqFlags2

theorem Readable.get {a : UInt8} (ha : Readable a) {msb lsb : ℕ} (h : badRange msb lsb = false)
    (c : Chip) : spiGetRegValue a msb lsb c = (((field msb lsb (c.reg a)).toNat : Int), c) :=
  spiGetRegValue_of_read (by rw [spiReadRegister_eq ha.1, Chip.read_reg ha.2.1 ha.2.2]) h

/-- A field that was set reads back as set, and every other field of every register, the FIFO
and the event flags are as they were. -/
theorem spiSetRegValue_sets_field {a v checkMask : UInt8} {msb lsb polls : ℕ} {force : Bool}
    {c : Chip} (ha : Stored a) (hp : 0 < polls) (h : badRange msb lsb = false) :
    ∃ c', spiSetRegValue polls a v msb lsb checkMask force c = (errNone, c') ∧
      spiGetRegValue a msb lsb c' = (((field msb lsb v).toNat : Int), c') ∧
      (∀ b m l, Readable b → badRange m l = false → (b = a → m < lsb ∨ msb < l) →
        (spiGetRegValue b m l c').1 = (spiGetRegValue b m l c).1) ∧
      c' = { c with reg := c'.reg } := by
  refine ⟨_, spiSetRegValue_stored ha hp h v checkMask force c, ?_, ?_, rfl⟩
  · rw [spiGetRegValue_of_read (spiReadRegister_stored ha _) h, Chip.setField, Chip.setReg_same,
      field_putField]
  · intro b m l hb hr hd
    rw [hb.get hr, hb.get hr, Chip.setField]
    by_cases hab : b = a
    · subst hab
      rw [Chip.setReg_same, field_putField_of_disjoint (hd rfl).symm]
    · rw [Chip.setReg_of_ne hab]

def allOnes : Chip := ⟨fun _ => 0xFF, [], false, false, false⟩

/-- The address filter of a chip whose registers are all ones is switched off. -/
theorem spiSetRegValue_sets_field_once : ∃ c',
    spiSetRegValue 1 0x30 0 2 1 0xFF false allOnes = (errNone, c') ∧
      spiGetRegValue 0x30 2 1 c' = (((field 2 1 0).toNat : Int), c') := by
  have hs : Stored 0x30 := ⟨by decide, by decide, by decide, by decide, by decide⟩
  have hrange : badRange 2 1 = false := rfl
  obtain ⟨c', hset, hget, _⟩ := spiSetRegValue_sets_field hs Nat.one_pos hrange
  exact ⟨c', hset, hget⟩

end WalkieTalkie
