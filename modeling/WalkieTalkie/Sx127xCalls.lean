import WalkieTalkie.Sx127x

/-!
# What the driver calls do to the chip

With the FSK modem, variable packet length and no address filter, every call is a
sequence of writes to the mode register, to stored registers and to the FIFO.
-/
namespace WalkieTalkie

namespace Chip

/-- The mode field is written and taken. -/
def enter (c : Chip) (m : UInt8) : Chip :=
  { c with
    reg := Function.update c.reg regOpMode (putField 2 0 (c.reg regOpMode) m)
    packetSent := c.packetSent && m == modeTx }

variable (c : Chip) (m v : UInt8) (msb lsb : ℕ)

@[simp] theorem enter_packetSent : (c.enter m).packetSent = (c.packetSent && m == modeTx) := rfl

@[simp] theorem enter_mode : (c.enter m).mode = field 2 0 m := by
  simp [mode, enter]

theorem enter_modem : field 7 7 ((c.enter m).reg regOpMode) = field 7 7 (c.reg regOpMode) := by
  simp only [enter, Function.update_self]
  exact field_putField_of_disjoint (.inl (by decide)) _ _

theorem enter_reg {b : UInt8} (h : b ≠ regOpMode) : (c.enter m).reg b = c.reg b :=
  Function.update_of_ne h ..

@[simp] theorem enter_opMode : (c.enter m).reg regOpMode = putField 2 0 (c.reg regOpMode) m := by
  simp [enter]

theorem setField_of_ne {a b : UInt8} (h : b ≠ a) : (c.setField a msb lsb v).reg b = c.reg b :=
  setReg_of_ne h _

theorem setField_mode {a : UInt8} (h : a ≠ regOpMode) :
    (c.setField a msb lsb v).mode = c.mode := by
  rw [mode, setField_of_ne _ _ _ _ h.symm]
  rfl

@[simp] theorem dump_mode : c.dump.mode = c.mode := rfl

@[simp] theorem dump_reg : c.dump.reg = c.reg := rfl

/-- The chip once `stageMode` has prepared the receiver. -/
def stagedReceive : Chip :=
  (((c.enter modeStandby).setField regDioMapping1 7 6 dio0PackPayloadReady).setField regRxTimeout3
    7 0 0).dump

@[simp] theorem stagedReceive_mode : c.stagedReceive.mode = modeStandby := by
  rw [stagedReceive, dump_mode, setField_mode _ _ _ _ (by decide),
    setField_mode _ _ _ _ (by decide), enter_mode]
  rfl

theorem setField_dio0 (c : Chip) (v : UInt8) (hv : field 7 6 v = v) :
    field 7 6 ((c.setField regDioMapping1 7 6 v).reg regDioMapping1) = v := by
  rw [setField, setReg_same, field_putField, hv]

@[simp] theorem stagedReceive_dio0 :
    field 7 6 (c.stagedReceive.reg regDioMapping1) = dio0PackPayloadReady := by
  rw [stagedReceive, dump_reg, setField_of_ne _ _ _ _ (by decide)]
  exact setField_dio0 _ _ rfl

/-- The chip once `stageMode` has written the length of a packet. -/
def stagedHead (len : ℕ) : Chip :=
  { (c.enter modeStandby).dump.setField regDioMapping1 7 6 dio0PackPacketSent with
    fifo := [UInt8.ofNat len] }

@[simp] theorem stagedHead_mode (len : ℕ) : (c.stagedHead len).mode = modeStandby := by
  have hm : (c.stagedHead len).mode =
      ((c.enter modeStandby).dump.setField regDioMapping1 7 6 dio0PackPacketSent).mode := rfl
  rw [hm, setField_mode _ _ _ _ (by decide), dump_mode, enter_mode]
  rfl

@[simp] theorem stagedHead_dio0 (len : ℕ) :
    field 7 6 ((c.stagedHead len).reg regDioMapping1) = dio0PackPacketSent :=
  setField_dio0 _ _ rfl

def append (data : List UInt8) : Chip := { c with fifo := c.fifo ++ data }

end Chip

/-- The first call of a sequence, once it is known what it does. -/
theorem Drv.bind_run {α β : Type} {f : Drv α} {g : α → Drv β} {x y : Sx127x} {a : α}
    (h : f.run x = some (a, y)) : (f >>= g).run x = (g a).run y := by
  rw [StateT.run_bind, h]
  rfl

namespace Sx127x

@[simp] theorem withChip_chip (x : Sx127x) (c : Chip) : (x.withChip c).chip = c := rfl

/-- The driver and the chip as `beginFSK` leaves them and as every call finds them. -/
structure Ready (x : Sx127x) : Prop where
  polls : 0 < x.polls
  modem : field 7 7 (x.chip.reg regOpMode) = 0
  filter : field 2 1 (x.chip.reg regPacketConfig1) = 0
  /-- Bit 5 of the bandwidth register, which `readData` takes for a CRC error. -/
  bandwidth : field 5 5 (x.chip.reg regIrqFlags) = 0
  lengths : x.packetLengthConfig = packetVariable
  queried : x.packetLengthQueried = false
  rxDone : x.irqMap irqRxDone = flagPayloadReady.toUInt32 <<< 8
  sent : x.chip.packetSent = true → x.chip.mode = modeTx
  /-- DIO0 shows the end of a reception and of a transmission. -/
  dio0 : x.chip.mode = modeRx ∨ x.chip.mode = modeTx →
    field 7 6 (x.chip.reg regDioMapping1) = dio0PackPayloadReady

variable {x : Sx127x}

theorem getActiveModem_run (h : field 7 7 (x.chip.reg regOpMode) = 0) :
    getActiveModem.run x = some (fskOok, x) := by
  have hrange : badRange 7 7 = false := rfl
  have hg := spiGetRegValue_of_read (spiReadRegister_opMode x.chip) hrange
  rw [h] at hg
  show some ((spiGetRegValue regOpMode 7 7 x.chip).1,
    { x with chip := (spiGetRegValue regOpMode 7 7 x.chip).2 }) = _
  rw [hg]
  rfl

theorem Ready.getActiveModem (h : Ready x) : getActiveModem.run x = some (fskOok, x) :=
  getActiveModem_run h.modem

end Sx127x

/-- The check fails on a mode register that kept its value. -/
theorem refused_mode_fails {v m checkMask : UInt8} (hv : field 2 0 v = modeStandby)
    (hm : (m = modeTx ∧ checkMask = 0xFF) ∨ (m = modeRx ∧ checkMask = 0xFE)) :
    v &&& checkMask ≠ putField 2 0 v m &&& checkMask := by
  have key : ∀ i : Fin 256, field 2 0 (UInt8.ofNat i) = modeStandby →
      UInt8.ofNat i &&& 0xFF ≠ putField 2 0 (UInt8.ofNat i) modeTx &&& 0xFF ∧
      UInt8.ofNat i &&& 0xFE ≠ putField 2 0 (UInt8.ofNat i) modeRx &&& 0xFE := by decide +kernel
  have hk := key ⟨v.toNat, v.toNat_lt⟩ (by simpa using hv)
  rcases hm with ⟨rfl, rfl⟩ | ⟨rfl, rfl⟩
  · simpa using hk.1
  · simpa using hk.2

theorem spiSetRegValue_mode {polls : ℕ} (m checkMask : UInt8) (c : Chip) :
    spiSetRegValue polls regOpMode m 2 0 checkMask false c =
      if c.mode = field 2 0 m then (errNone, c)
      else checkLoop regOpMode (putField 2 0 (c.reg regOpMode) m) checkMask polls
        (c.switch (putField 2 0 (c.reg regOpMode) m)) := by
  have hw (v : UInt8) : spiWriteRegister regOpMode v c = c.switch v :=
    spiWriteRegister_eq (by decide) v c
  rw [spiSetRegValue, spiReadRegister_opMode]
  simp only [show badRange 2 0 = false from rfl, Bool.false_eq_true, if_false,
    and_setMask (show badRange 2 0 = false from rfl),
    put_setMask (show badRange 2 0 = false from rfl), and_true, hw]
  rfl

/-- A switch that is taken passes the check. -/
theorem checkLoop_taken {polls : ℕ} (hp : 0 < polls) {c' : Chip} {v checkMask : UInt8}
    (h : c'.reg regOpMode = v) : checkLoop regOpMode v checkMask polls c' = (errNone, c') := by
  rw [checkLoop_eq (spiReadRegister_opMode c'), h]
  simp [hp]

namespace Chip

variable {c : Chip} {m : UInt8}

theorem switch_taken (hm : field 2 0 m = m) (h : c.refuses = false ∨ (m ≠ modeTx ∧ m ≠ modeRx)) :
    c.switch (putField 2 0 (c.reg regOpMode) m) = c.enter m := by
  rw [switch, field_putField, hm, if_neg]
  · rfl
  · rcases h with h | h
    · simp [h]
    · simp [h.1, h.2]

theorem switch_refused (hm : field 2 0 m = m) (hr : c.refuses = true)
    (h : m = modeTx ∨ m = modeRx) : c.switch (putField 2 0 (c.reg regOpMode) m) = c :=
  if_pos ⟨hr, by rwa [field_putField, hm]⟩

theorem write_flags1 (v : UInt8) : c.write regIrqFlags1 v = c := by
  rw [write, if_neg (by decide), if_neg (by decide), if_pos rfl]

theorem write_flags2 {v : UInt8} (h : v &&& flagFifoOverrun ≠ 0) :
    c.write regIrqFlags2 v = c.dump := by
  rw [write, if_neg (by decide), if_neg (by decide), if_neg (by decide), if_pos rfl, if_neg h]

theorem write_fifo (h : c.fifo.length < fifoSize) (v : UInt8) :
    c.write regFifo v = { c with fifo := c.fifo ++ [v] } := by
  rw [write, if_pos rfl, push, if_pos h]

/-- Entering the mode the chip is in changes nothing. -/
theorem enter_eq_self (hm : c.mode = field 2 0 m) (hs : c.packetSent = true → m = modeTx) :
    c.enter m = c := by
  have hp : (c.packetSent && m == modeTx) = c.packetSent := by
    cases h : c.packetSent with
    | false => rfl
    | true => simp [hs h]
  rw [enter, putField_eq_self hm, Function.update_eq_self, hp]

end Chip

namespace Sx127x

variable {x : Sx127x}

theorem Ready.setMode_run (h : Ready x) {m : UInt8} {rc : Int} {c : Chip}
    (hr : spiSetRegValue x.polls regOpMode m 2 0 (if m = modeRx then 0xFE else 0xFF) false x.chip =
      (rc, c)) : (setMode m).run x = some (rc, x.withChip c) := by
  rw [setMode, Drv.bind_run h.getActiveModem]
  simp only [true_and]
  show some _ = _
  rw [hr]

theorem Ready.setMode_standby (h : Ready x) :
    (setMode modeStandby).run x = some (errNone, x.withChip (x.chip.enter modeStandby)) := by
  apply h.setMode_run
  rw [spiSetRegValue_mode]
  by_cases hm : x.chip.mode = field 2 0 modeStandby
  · rw [if_pos hm, Chip.enter_eq_self hm]
    exact fun hp => absurd (hm.symm.trans (h.sent hp)) (by decide)
  · rw [if_neg hm, Chip.switch_taken rfl (.inr (by decide)), checkLoop_taken h.polls]
    exact x.chip.enter_opMode _

theorem setRegValue_run {a msb lsb : _} (hp : 0 < x.polls) (ha : Stored a)
    (h : badRange msb lsb = false) (v checkMask : UInt8) :
    (setRegValue a v msb lsb checkMask).run x =
      some (errNone, x.withChip (x.chip.setField a msb lsb v)) := by
  show some _ = _
  rw [spiSetRegValue_stored ha hp h]

theorem getRegValue_run {a : UInt8} (ha : Readable a) {msb lsb : ℕ}
    (h : badRange msb lsb = false) (x : Sx127x) :
    (getRegValue a msb lsb).run x = some (((field msb lsb (x.chip.reg a)).toNat : Int), x) := by
  show some _ = _
  rw [ha.get h]
  rfl

theorem readRegister_run {a : UInt8} (ha : a < 0x80) (x : Sx127x) : (readRegister a).run x =
    some ((x.chip.read a).1, x.withChip (x.chip.read a).2) := by
  show some _ = _
  rw [spiReadRegister_eq ha]

theorem writeRegister_run {a : UInt8} (ha : a < 0x80) (v : UInt8) (x : Sx127x) :
    (writeRegister a v).run x = some ((), x.withChip (x.chip.write a v)) := by
  rw [← spiWriteRegister_eq ha]
  rfl

theorem Ready.clearIrqFlags_run (h : Ready x) :
    (clearIrqFlags flagsAll).run x = some (errNone, x.withChip x.chip.dump) := by
  have h2 : x.chip.write regIrqFlags2 (flagsAll >>> 8).toUInt8 = x.chip.dump :=
    Chip.write_flags2 (by decide)
  rw [clearIrqFlags, Drv.bind_run h.getActiveModem, if_neg (by decide),
    Drv.bind_run (writeRegister_run (by decide) _ _), Chip.write_flags1,
    Drv.bind_run (writeRegister_run (by decide) _ _)]
  exact congrArg (fun c => some (errNone, x.withChip c)) h2

/-- Switching the transmitter or the receiver on succeeds exactly when the chip takes it. -/
theorem Ready.setMode_on (h : Ready x) (hs : x.chip.mode = modeStandby) {m : UInt8}
    (hm : m = modeTx ∨ m = modeRx) : (setMode m).run x =
      if x.chip.refuses then some (errSpiWriteFailed, x)
      else some (errNone, x.withChip (x.chip.enter m)) := by
  have hf : field 2 0 m = m := by rcases hm with rfl | rfl <;> rfl
  have hne : x.chip.mode ≠ field 2 0 m := by
    rw [hs]
    rcases hm with rfl | rfl <;> decide
  cases hr : x.chip.refuses with
  | true =>
    refine h.setMode_run ?_
    rw [spiSetRegValue_mode, if_neg hne, Chip.switch_refused hf hr hm,
      checkLoop_eq (spiReadRegister_opMode _), if_neg]
    exact fun hc => refused_mode_fails hs (by rcases hm with rfl | rfl <;> decide) hc.2
  | false =>
    refine h.setMode_run ?_
    rw [spiSetRegValue_mode, if_neg hne, Chip.switch_taken hf (.inl hr), checkLoop_taken h.polls]
    exact x.chip.enter_opMode _

namespace Ready

theorem enter (h : Ready x) {m : UInt8} (hm : field 2 0 m = m)
    (hd : m = modeRx ∨ m = modeTx → field 7 6 (x.chip.reg regDioMapping1) = dio0PackPayloadReady) :
    Ready (x.withChip (x.chip.enter m)) where
  polls := h.polls
  modem := (Chip.enter_modem ..).trans h.modem
  filter := (congrArg (field 2 1) (Chip.enter_reg _ _ (by decide))).trans h.filter
  bandwidth := (congrArg (field 5 5) (Chip.enter_reg _ _ (by decide))).trans h.bandwidth
  lengths := h.lengths
  queried := h.queried
  rxDone := h.rxDone
  sent := fun hs => by
    rw [withChip_chip, Chip.enter_packetSent, Bool.and_eq_true, beq_iff_eq] at hs
    rw [withChip_chip, Chip.enter_mode, hm, hs.2]
  dio0 := fun hs => by
    rw [withChip_chip, Chip.enter_mode, hm] at hs
    rw [withChip_chip, Chip.enter_reg _ _ (by decide)]
    exact hd hs

theorem standby (h : Ready x) : Ready (x.withChip (x.chip.enter modeStandby)) :=
  h.enter rfl fun hs => absurd hs (by decide)

theorem dump (h : Ready x) : Ready (x.withChip x.chip.dump) := { h with }

theorem setField (h : Ready x) {a : UInt8} (msb lsb : ℕ) (v : UInt8) (hm : a ≠ regOpMode)
    (hf : a ≠ regPacketConfig1) (hb : a ≠ regIrqFlags) (hd : a = regDioMapping1 →
      field 7 6 (putField msb lsb (x.chip.reg a) v) = dio0PackPayloadReady) :
    Ready (x.withChip (x.chip.setField a msb lsb v)) where
  polls := h.polls
  modem := (congrArg (field 7 7) (Chip.setField_of_ne _ _ _ _ hm.symm)).trans h.modem
  filter := (congrArg (field 2 1) (Chip.setField_of_ne _ _ _ _ hf.symm)).trans h.filter
  bandwidth := (congrArg (field 5 5) (Chip.setField_of_ne _ _ _ _ hb.symm)).trans h.bandwidth
  lengths := h.lengths
  queried := h.queried
  rxDone := h.rxDone
  sent := fun hs => (Chip.setField_mode _ _ _ _ hm).trans (h.sent hs)
  dio0 := fun hs => by
    rw [withChip_chip, Chip.setField_mode _ _ _ _ hm] at hs
    by_cases ha : a = regDioMapping1
    · subst ha
      rw [withChip_chip, Chip.setField, Chip.setReg_same]
      exact hd rfl
    · rw [withChip_chip, Chip.setField_of_ne _ _ _ _ (Ne.symm ha)]
      exact h.dio0 hs

theorem setDio0 (h : Ready x) :
    Ready (x.withChip (x.chip.setField regDioMapping1 7 6 dio0PackPayloadReady)) :=
  h.setField 7 6 _ (by decide) (by decide) (by decide) fun _ => (field_putField ..).trans rfl

theorem setRxTimeout3 (h : Ready x) (v : UInt8) :
    Ready (x.withChip (x.chip.setField regRxTimeout3 7 0 v)) :=
  h.setField 7 0 v (by decide) (by decide) (by decide) fun ha => absurd ha (by decide)

/-- What `Ready` says of the chip, it says of the registers and of the packet-sent flag. -/
theorem withFifo (h : Ready x) (fifo : List UInt8) (ready : Bool) :
    Ready (x.withChip { x.chip with fifo := fifo, payloadReady := ready }) := { h with }

end Ready

theorem setIrqLoop_skip {irq : UInt32} {is : List ℕ}
    (h : ∀ i ∈ is, irq &&& (1 <<< UInt32.ofNat i) = 0) (js : List ℕ) (used : UInt8)
    (conflict : Bool) (state : Int) : setIrqLoop irq (is ++ js) used conflict state =
      setIrqLoop irq js used conflict state := by
  induction is with
  | nil => rfl
  | cons i is ih =>
    rw [List.cons_append, setIrqLoop]
    simp only [h i (by simp), if_true]
    exact ih fun j hj => h j (by simp [hj])

theorem stored_dioMapping1 : Stored regDioMapping1 :=
  ⟨by decide, by decide, by decide, by decide, by decide⟩

/-- The payload-ready event is shown on DIO0. -/
theorem Ready.setIrqFlags_run (h : Ready x) :
    (setIrqFlags (flagPayloadReady.toUInt32 <<< 8)).run x = some (errNone,
      x.withChip (x.chip.setField regDioMapping1 7 6 dio0PackPayloadReady)) := by
  have hl : List.range 32 = List.range 10 ++ 10 :: (List.range' 11 21 ++ []) := by decide
  have hloop : setIrqLoop (flagPayloadReady.toUInt32 <<< 8) (List.range 32) 0 false errNone =
      (do
        let state ← setRegValue regDioMapping1 dio0PackPayloadReady 7 6 0xFF
        if state ≠ errNone then return state
        return state) := by
    rw [hl, setIrqLoop_skip (by decide), setIrqLoop]
    have hclear : ∀ i ∈ List.range' 11 21,
        flagPayloadReady.toUInt32 <<< 8 &&& (1 <<< UInt32.ofNat i) = 0 := by decide
    simp only [fun js => setIrqLoop_skip hclear js]
    rfl
  rw [setIrqFlags, Drv.bind_run h.getActiveModem, if_neg (by decide), hloop,
    Drv.bind_run (setRegValue_run h.polls stored_dioMapping1 rfl _ _)]
  rfl

/-- The steps of `getIrqMapped` at bits that are clear. -/
theorem getIrqMapped_skip {irqMap : ℕ → UInt32} {irq : UInt32} {is : List ℕ}
    (h : ∀ i ∈ is, irq &&& (1 <<< UInt32.ofNat i) = 0) (raw : UInt32) :
    is.foldl (fun irqRaw i => if irq &&& (1 <<< UInt32.ofNat i) ≠ 0 ∧
      irqMap i ≠ irqNotSupported then irqRaw ||| irqMap i else irqRaw) raw = raw := by
  induction is generalizing raw with
  | nil => rfl
  | cons i is ih =>
    rw [List.foldl_cons, if_neg (by simp [h i (by simp)])]
    exact ih (fun j hj => h j (by simp [hj])) raw

theorem getIrqMapped_rxDone {irqMap : ℕ → UInt32}
    (h : irqMap irqRxDone = flagPayloadReady.toUInt32 <<< 8) :
    getIrqMapped irqMap (irqRxDefaultFlags &&& irqRxDefaultMask) =
      flagPayloadReady.toUInt32 <<< 8 := by
  have hl : List.range 32 = [0] ++ irqRxDone :: List.range' 2 30 := by decide
  rw [getIrqMapped, hl, List.foldl_append, List.foldl_cons,
    getIrqMapped_skip (by decide : ∀ i ∈ [0], _), getIrqMapped_skip (by decide), h]
  decide

theorem stored_rxTimeout3 : Stored regRxTimeout3 :=
  ⟨by decide, by decide, by decide, by decide, by decide⟩

theorem Ready.stageReceive_run (h : Ready x) :
    (stageReceive 0 irqRxDefaultFlags irqRxDefaultMask).run x = some (errNone,
      { x.withChip x.chip.stagedReceive with rxMode := modeRx, stagedMode := .rx }) := by
  have h0 : Ready { x with rxMode := modeRxContinuous } := { h with }
  have h1 := h0.standby
  have h2 := h1.setDio0
  have h3 := h2.setRxTimeout3 ((0 : UInt32) &&& 0xFF).toUInt8
  rw [stageReceive, Drv.bind_run (StateT.run_modify ..), Drv.bind_run h0.setMode_standby,
    if_neg (by simp), Drv.bind_run (StateT.run_get ..), getIrqMapped_rxDone h1.rxDone,
    Drv.bind_run h1.setIrqFlags_run, if_neg (by simp), Drv.bind_run h2.getActiveModem,
    if_neg (by decide), Drv.bind_run (setRegValue_run h2.polls stored_rxTimeout3 rfl _ _),
    if_neg (by simp), Drv.bind_run h3.clearIrqFlags_run]
  rfl

theorem Ready.launchMode_rx (h : Ready x) (hs : x.chip.mode = modeStandby)
    (hst : x.stagedMode = .rx) (hr : x.rxMode = modeRx) : launchMode.run x =
      if x.chip.refuses then some (errSpiWriteFailed, x)
      else some (errNone, { x.withChip (x.chip.enter modeRx) with stagedMode := .none }) := by
  rw [launchMode, Drv.bind_run (StateT.run_get ..)]
  simp only [hst, hr]
  have hm := h.setMode_on hs (.inr rfl)
  cases hc : x.chip.refuses <;> rw [hc] at hm <;> rw [Drv.bind_run hm]
  · rfl
  · rfl

theorem Ready.launchMode_tx (h : Ready x) (hs : x.chip.mode = modeStandby)
    (hst : x.stagedMode = .tx) : launchMode.run x =
      if x.chip.refuses then some (errSpiWriteFailed, x)
      else some (errNone, { x.withChip (x.chip.enter modeTx) with stagedMode := .none }) := by
  rw [launchMode, Drv.bind_run (StateT.run_get ..)]
  simp only [hst]
  have hm := h.setMode_on hs (.inl rfl)
  cases hc : x.chip.refuses <;> rw [hc] at hm <;> rw [Drv.bind_run hm]
  · rfl
  · rfl

theorem Ready.stagedReceive (h : Ready x) : Ready (x.withChip x.chip.stagedReceive) :=
  ((h.standby.setDio0).setRxTimeout3 0).dump

/-- The driver after `rfm9x_start_receive`, with the receiver on or not. -/
def armed (x : Sx127x) : Sx127x :=
  { x.withChip (x.chip.stagedReceive.enter modeRx) with rxMode := modeRx, stagedMode := .none }

def unarmed (x : Sx127x) : Sx127x :=
  { x.withChip x.chip.stagedReceive with rxMode := modeRx, stagedMode := .rx }

theorem Ready.armed (h : Ready x) : Ready x.armed :=
  { h.stagedReceive.enter (m := modeRx) rfl fun _ => x.chip.stagedReceive_dio0 with }

theorem Ready.unarmed (h : Ready x) : Ready x.unarmed := { h.stagedReceive with }

/-- `rfm9x_start_receive`: the receiver is on exactly when the call returns no error. -/
theorem Ready.startReceive_run (h : Ready x) : startReceive.run x =
    if x.chip.refuses then some (errSpiWriteFailed, x.unarmed) else some (errNone, x.armed) := by
  rw [startReceive, Drv.bind_run h.stageReceive_run, if_neg (by simp)]
  exact h.unarmed.launchMode_rx x.chip.stagedReceive_mode rfl rfl

theorem Ready.stagedHead (h : Ready x) (len : ℕ) : Ready (x.withChip (x.chip.stagedHead len)) :=
  h.standby.dump.setDio0.withFifo _ _

theorem getRegValue_clear {a : UInt8} (ha : Readable a) {msb lsb : ℕ}
    (hb : badRange msb lsb = false) (h : field msb lsb (x.chip.reg a) = 0) :
    (getRegValue a msb lsb).run x = some (0, x) := by
  rw [getRegValue_run ha hb, h]
  rfl

theorem readable_packetConfig1 : Readable regPacketConfig1 := ⟨by decide, by decide, by decide⟩

theorem readable_irqFlags : Readable regIrqFlags := ⟨by decide, by decide, by decide⟩

theorem Ready.stageHead_run (h : Ready x) {len : ℕ} (hl : len ≤ maxPacketLengthFsk) (addr : UInt8) :
    (stageHead len addr).run x = some (errNone, x.withChip (x.chip.stagedHead len)) := by
  have h1 := h.standby
  have h2 := h1.dump
  have h3 := h2.setDio0
  rw [stageHead, Drv.bind_run h.setMode_standby, Drv.bind_run h1.getActiveModem,
    if_neg (by decide), Drv.bind_run h1.clearIrqFlags_run, if_neg (by omega),
    Drv.bind_run (setRegValue_run h2.polls stored_dioMapping1 rfl _ _),
    Drv.bind_run (getRegValue_clear readable_packetConfig1 rfl h3.filter),
    Drv.bind_run (StateT.run_get ..), if_pos h3.lengths, if_neg (by decide),
    Drv.bind_run (writeRegister_run (by decide) _ _), Chip.write_fifo]
  · rfl
  · exact Nat.zero_lt_succ _

theorem Ready.finishTransmit_run (h : Ready x) : finishTransmit.run x =
    some (errNone, x.withChip (x.chip.dump.enter modeStandby)) := by
  rw [finishTransmit, Drv.bind_run h.clearIrqFlags_run]
  exact h.dump.setMode_standby

theorem Ready.append (h : Ready x) (data : List UInt8) : Ready (x.withChip (x.chip.append data)) :=
  { h with }

theorem writeRegisterBurst_fifo {data : List UInt8}
    (hl : x.chip.fifo.length + data.length ≤ fifoSize) :
    (writeRegisterBurst regFifo data).run x = some ((), x.withChip (x.chip.append data)) := by
  rw [Chip.append, ← Chip.writeBurst_fifo hl, ← spiWriteRegisterBurst_eq (by decide)]
  rfl

/-- The driver after the end of `rfm9x_start_transmit`, with the transmitter on or not. -/
def launched (x : Sx127x) (data : List UInt8) : Sx127x :=
  { x.withChip ((x.chip.append data).enter modeTx) with stagedMode := .none }

def unlaunched (x : Sx127x) (data : List UInt8) : Sx127x :=
  { x.withChip (x.chip.append data) with stagedMode := .tx }

theorem Ready.launched (h : Ready x) (data : List UInt8)
    (hd : field 7 6 (x.chip.reg regDioMapping1) = dio0PackPacketSent) : Ready (x.launched data) :=
  { (h.append data).enter (m := modeTx) rfl fun _ => hd with }

theorem Ready.unlaunched (h : Ready x) (data : List UInt8) : Ready (x.unlaunched data) :=
  { h.append data with }

theorem Ready.sendPacket_run (h : Ready x) (hs : x.chip.mode = modeStandby) {data : List UInt8}
    (hl : x.chip.fifo.length + data.length ≤ fifoSize) : (sendPacket errNone data).run x =
      if x.chip.refuses then some (errSpiWriteFailed, x.unlaunched data)
      else some (errNone, x.launched data) := by
  have hp : (stagePacket errNone data).run x = some (errNone, x.unlaunched data) := by
    rw [stagePacket, if_neg (by simp only [fifoSize, maxPacketLengthFsk] at hl ⊢; omega),
      Drv.bind_run (writeRegisterBurst_fifo hl)]
    rfl
  rw [sendPacket, Drv.bind_run hp, if_neg (by simp)]
  exact (h.unlaunched data).launchMode_tx hs rfl

/-- `rfm9x_start_transmit` of a packet that fits the FIFO leaves its length and its bytes there. -/
theorem Ready.startTransmit_run (h : Ready x) {data : List UInt8} (hl : data.length < fifoSize)
    (addr : UInt8) : (startTransmit data addr).run x =
      if x.chip.refuses then some (errSpiWriteFailed,
        (x.withChip (x.chip.stagedHead data.length)).unlaunched data)
      else some (errNone, (x.withChip (x.chip.stagedHead data.length)).launched data) := by
  have hf : (x.chip.stagedHead data.length).fifo.length + data.length ≤ fifoSize :=
    (Nat.add_comm 1 _).trans_le hl
  rw [startTransmit, Drv.bind_run (h.stageHead_run (Nat.le_of_lt hl) addr)]
  exact (h.stagedHead data.length).sendPacket_run (x.chip.stagedHead_mode _) hf

/-- The driver in the middle of `readData`. -/
def reading (x : Sx127x) (n : UInt8) (fifo : List UInt8) (ready : Bool) : Sx127x :=
  { x.withChip { x.chip with fifo := fifo, payloadReady := ready } with
    packetLength := n.toNat, packetLengthQueried := true }

theorem Ready.getPacketLength_run (h : Ready x) {n : UInt8} {p : List UInt8}
    (hf : x.chip.fifo = n :: p) :
    ∃ ready, (getPacketLength true).run x = some (n.toNat, x.reading n p ready) := by
  have hr : (readRegister regFifo).run x = some (n, x.withChip { x.chip with
      fifo := p, payloadReady := x.chip.payloadReady && !p.isEmpty }) := by
    rw [readRegister_run (by decide)]
    simp [Chip.read, Chip.pop, hf]
  refine ⟨x.chip.payloadReady && !p.isEmpty, ?_⟩
  rw [getPacketLength, Drv.bind_run h.getActiveModem, if_neg (by decide),
    Drv.bind_run (StateT.run_get ..), if_pos ⟨h.queried, rfl⟩, if_pos h.lengths, Drv.bind_run hr]
  rfl

theorem readRegisterBurst_reading {p : List UInt8} {length : ℕ} (hl : length ≤ p.length)
    (n : UInt8) (ready : Bool) : ∃ ready',
      (readRegisterBurst regFifo length).run (x.reading n p ready) =
        some (p.take length, x.reading n (p.drop length) ready') := by
  obtain ⟨ready', hb⟩ := Chip.readBurst_fifo (c := (x.reading n p ready).chip) hl
  refine ⟨ready', ?_⟩
  show some _ = _
  rw [spiReadRegisterBurst_eq (by decide), hb]
  rfl

theorem clearFifo_reading {n : UInt8} (count : ℕ) (fifo : List UInt8) (ready : Bool) :
    ∃ fifo' ready', (clearFifo count).run (x.reading n fifo ready) =
      some ((), x.reading n fifo' ready') := by
  induction count generalizing fifo ready with
  | zero => exact ⟨fifo, ready, rfl⟩
  | succ count ih =>
    obtain ⟨v, fifo₁, ready₁, hr⟩ : ∃ v fifo₁ ready₁,
        (readRegister regFifo).run (x.reading n fifo ready) =
          some (v, x.reading n fifo₁ ready₁) := by
      rw [readRegister_run (by decide)]
      cases fifo with
      | nil => exact ⟨_, _, _, rfl⟩
      | cons v vs => exact ⟨_, _, _, rfl⟩
    obtain ⟨fifo', ready', hc⟩ := ih fifo₁ ready₁
    exact ⟨fifo', ready', by rw [clearFifo, Drv.bind_run hr, hc]⟩

/-- The bytes of a packet a request takes. -/
def cutTo (len : ℕ) (p : List UInt8) : List UInt8 := if len = 0 then p else p.take len

/-- The last steps of `readData`. -/
theorem Ready.finish_reading (h : Ready x) (n : UInt8) (fifo : List UInt8) (ready : Bool)
    (r : Int × List UInt8) :
    ((do
      modify fun x : Sx127x => { x with packetLengthQueried := false }
      let _ ← clearIrqFlags flagsAll
      return r : Drv (Int × List UInt8))).run (x.reading n fifo ready) =
        some (r, { x.withChip x.chip.dump with packetLength := n.toNat }) := by
  have hz : Ready { x.reading n fifo ready with packetLengthQueried := false } :=
    { h with queried := rfl }
  rw [Drv.bind_run (StateT.run_modify ..), Drv.bind_run hz.clearIrqFlags_run]
  have hq := h.queried
  cases x
  cases hq
  rfl

/-- `rfm9x_read_data` returns the packet, cut to the request, and leaves an empty FIFO. The CRC
branch is never taken. -/
theorem Ready.readData_run (h : Ready x) {n : UInt8} {p : List UInt8} (hf : x.chip.fifo = n :: p)
    (hp : p.length = n.toNat) (len : ℕ) : (readData len).run x =
      some ((errNone, cutTo len p), { x.withChip x.chip.dump with packetLength := n.toNat }) := by
  obtain ⟨ready, hg⟩ := h.getPacketLength_run hf
  have hcrc : (getRegValue regIrqFlags 5 5).run (x.reading n p ready) =
      some (0, x.reading n p ready) := getRegValue_clear readable_irqFlags rfl h.bandwidth
  have hfilter : (getRegValue regPacketConfig1 2 1).run (x.reading n p ready) =
      some (0, x.reading n p ready) := getRegValue_clear readable_packetConfig1 rfl h.filter
  rw [readData, Drv.bind_run h.getActiveModem, Drv.bind_run hg, Drv.bind_run hcrc,
    if_neg (by decide), Drv.bind_run hfilter, if_neg (by decide)]
  by_cases hc : len ≠ 0 ∧ len < n.toNat
  · obtain ⟨ready₁, hb⟩ :=
      readRegisterBurst_reading (x := x) (show len ≤ p.length by omega) n ready
    obtain ⟨fifo, ready₂, hd⟩ :=
      clearFifo_reading (x := x) (n := n) (n.toNat - len) (p.drop len) ready₁
    simp only [if_pos hc]
    rw [Drv.bind_run hb, if_pos (by omega), Drv.bind_run hd, h.finish_reading, cutTo, if_neg hc.1]
    rfl
  · obtain ⟨ready₁, hb⟩ :=
      readRegisterBurst_reading (x := x) (show n.toNat ≤ p.length by omega) n ready
    have hcut : cutTo len p = p.take n.toNat := by
      rw [← hp, List.take_length, cutTo]
      split_ifs with h0
      · rfl
      · exact List.take_of_length_le (by omega)
    simp only [if_neg hc]
    rw [Drv.bind_run hb, if_neg (by omega), h.finish_reading, hcut]
    rfl

end Sx127x

/-- A driver as `beginFSK` leaves it: configured, in standby, with nothing received. -/
structure Idle (drv : Sx127x) : Prop where
  ready : drv.Ready
  mode : drv.chip.mode = modeStandby
  empty : drv.chip.payloadReady = false

end WalkieTalkie
