import WalkieTalkie.BeginFsk
import WalkieTalkie.StateTriples
import WalkieTalkie.Sx127xCalls

/-!
# What the configuration leaves behind

Every setter finds the chip in FSK standby and leaves it there, and says so with its
result. Each one keeps the packet format, the setters of the format apart.
-/
namespace WalkieTalkie
open StateTriples

namespace Sx127x

/-- The chip in FSK standby; `p` is its packet format, `l` the length format the driver has
noted and `o` its modulation. -/
structure Fsk (p l : UInt8) (o : Bool) (x : Sx127x) : Prop where
  polls : 0 < x.polls
  modem : field 7 7 (x.chip.reg regOpMode) = 0
  mode : x.chip.mode = modeStandby
  bandwidth : field 5 5 (x.chip.reg regRxBw) = 0
  packet : x.chip.reg regPacketConfig1 = p
  lengths : x.packetLengthConfig = l
  ook : x.ookEnabled = o
  queried : x.packetLengthQueried = false
  rxDone : x.irqMap irqRxDone = flagPayloadReady.toUInt32 <<< 8
  silent : x.chip.packetSent = false
  unread : x.chip.payloadReady = false

/-- The call succeeds and takes `P` to `Q`. -/
def Sets (P : Sx127x → Prop) (f : Drv Int) (Q : Sx127x → Prop) : Prop :=
  Triple P f fun rc x => rc = errNone ∧ Q x

/-- The call returns `e` if its check fails. -/
def Tests (ok : Bool) (e : Int) (P : Sx127x → Prop) (f : Drv Int) (Q : Sx127x → Prop) : Prop :=
  Triple P f fun rc x => rc = (if ok then errNone else e) ∧ Q x

section
variable {P Q R : Sx127x → Prop} {f g : Drv Int} {S : Int → Sx127x → Prop}

theorem Sets.assert {k : Int → Drv Int} (hf : Sets P f Q) (hk : Triple Q (k errNone) S) :
    Triple P (f >>= fun state => if state ≠ errNone then pure state else k state) S := by
  refine hf.bind_eq ?_
  rw [if_neg (by simp)]
  exact hk

theorem Sets.orState (hf : Sets P f Q) : Sets P (orState errNone f) Q :=
  hf.bind_eq (Triple.pure fun _ hs => ⟨rfl, hs⟩)

/-- A second write, its status taken in. -/
theorem Sets.or (hf : Sets P f Q) (hg : Sets Q g R) :
    Sets P (f >>= fun state => Sx127x.orState state g) R :=
  hf.bind_eq hg.orState

theorem Tests.assert {ok : Bool} {e : Int} (he : e ≠ errNone) (hf : Tests ok e P f Q)
    (hfail : ok = false → ∀ x, Q x → S e x) (hg : ok = true → Triple Q g S) :
    Triple P (f >>= fun state => if state ≠ errNone then pure state else g) S := by
  refine hf.bind_eq ?_
  cases ok with
  | false =>
    have hne : (if false = true then errNone else e) ≠ errNone := he
    rw [if_pos hne]
    exact Triple.pure (hfail rfl)
  | true =>
    rw [if_neg (by simp)]
    exact hg rfl

/-- A check in front of a call that succeeds. -/
theorem Sets.test {ok : Bool} {e : Int} (hf : Sets P f P) :
    Tests ok e P (if ok = false then pure e else f) P := by
  cases ok with
  | false => exact Triple.pure fun _ hs => ⟨rfl, hs⟩
  | true => exact hf

end

variable {p l : UInt8} {o : Bool}

abbrev Keeps (f : Drv Int) : Prop := ∀ p l o, Sets (Fsk p l o) f (Fsk p l o)

theorem Fsk.getActiveModem {T : Sx127x → Prop}
    (hT : ∀ x, T x → field 7 7 (x.chip.reg regOpMode) = 0) :
    Triple T getActiveModem fun rc x => rc = fskOok ∧ T x :=
  fun _ hs => ⟨_, _, getActiveModem_run (hT _ hs), rfl, hs⟩

theorem Fsk.inFsk {f : Drv Int} {S : Int → Sx127x → Prop} (hf : Triple (Fsk p l o) f S) :
    Triple (Fsk p l o) (inFsk f) S :=
  (Fsk.getActiveModem fun _ h => h.modem).bind_eq (by rw [if_neg (by simp)]; exact hf)

theorem Fsk.setStandby : Keeps (setMode modeStandby) := by
  refine fun p l o x h => ⟨errNone, x, ?_, rfl, h⟩
  rw [setMode, Drv.bind_run (getActiveModem_run h.modem), if_neg (by decide)]
  show some _ = _
  rw [spiSetRegValue_mode, if_pos (show x.chip.mode = field 2 0 modeStandby from h.mode)]
  rfl

theorem Fsk.standby : Keeps standby := Fsk.setStandby

/-- A register of the FSK page whose bits the setters write at will. -/
structure Free (a : UInt8) (msb lsb : ℕ) : Prop where
  stored : Stored a
  range : badRange msb lsb = false
  format : a ≠ regPacketConfig1
  bandwidth : a = regRxBw → msb < 5

instance (a : UInt8) : Decidable (Stored a) :=
  decidable_of_iff (a < 0x80 ∧ a ≠ regFifo ∧ a ≠ regOpMode ∧ a ≠ regIrqFlags1 ∧ a ≠ regIrqFlags2)
    ⟨fun h => ⟨h.1, h.2.1, h.2.2.1, h.2.2.2.1, h.2.2.2.2⟩,
      fun h => ⟨h.1, h.2, h.3, h.4, h.5⟩⟩

instance (a : UInt8) (msb lsb : ℕ) : Decidable (Free a msb lsb) :=
  decidable_of_iff
    (Stored a ∧ badRange msb lsb = false ∧ a ≠ regPacketConfig1 ∧ (a = regRxBw → msb < 5))
    ⟨fun h => ⟨h.1, h.2.1, h.2.2.1, h.2.2.2⟩, fun h => ⟨h.1, h.2, h.3, h.4⟩⟩

theorem Fsk.setField {x : Sx127x} {a : UInt8} {msb lsb : ℕ} (h : Fsk p l o x) (ha : Free a msb lsb)
    (v : UInt8) : Fsk p l o (x.withChip (x.chip.setField a msb lsb v)) where
  polls := h.polls
  modem := by
    rw [withChip_chip, Chip.setField_of_ne _ _ _ _ ha.stored.not_opMode.symm]
    exact h.modem
  mode := (Chip.setField_mode _ _ _ _ ha.stored.not_opMode).trans h.mode
  bandwidth := by
    by_cases hb : a = regRxBw
    · subst hb
      rw [withChip_chip, Chip.setField, Chip.setReg_same,
        field_putField_of_disjoint (.inl (ha.bandwidth rfl))]
      exact h.bandwidth
    · rw [withChip_chip, Chip.setField_of_ne _ _ _ _ (Ne.symm hb)]
      exact h.bandwidth
  packet := (Chip.setField_of_ne _ _ _ _ ha.format.symm).trans h.packet
  lengths := h.lengths
  ook := h.ook
  queried := h.queried
  rxDone := h.rxDone
  silent := h.silent
  unread := h.unread

theorem Fsk.setRegValue {a : UInt8} {msb lsb : ℕ} (ha : Free a msb lsb) (v checkMask : UInt8) :
    Keeps (setRegValue a v msb lsb checkMask) :=
  fun _ _ _ _ h =>
    ⟨_, _, setRegValue_run h.polls ha.stored ha.range v checkMask, rfl, h.setField ha v⟩

/-- The packet format is written in part. -/
theorem Fsk.setPacket {msb lsb : ℕ} (hr : badRange msb lsb = false) (v : UInt8) :
    Sets (Fsk p l o) (Sx127x.setRegValue regPacketConfig1 v msb lsb 0xFF)
      (Fsk (putField msb lsb p v) l o) := by
  intro x h
  have hs : Stored regPacketConfig1 := by decide
  refine ⟨_, _, setRegValue_run h.polls hs hr v 0xFF, rfl, ?_⟩
  have hreg := h.packet
  exact
    { h with
      modem := (congrArg (field 7 7) (Chip.setField_of_ne _ _ _ _ (by decide))).trans h.modem
      mode := (Chip.setField_mode _ _ _ _ (by decide)).trans h.mode
      bandwidth :=
        (congrArg (field 5 5) (Chip.setField_of_ne _ _ _ _ (by decide))).trans h.bandwidth
      packet := by
        rw [withChip_chip, Chip.setField, Chip.setReg_same, hreg] }

theorem Chip.switch_standby {c : Chip} {v : UInt8} (hv : field 2 0 v = modeStandby)
    (hs : c.packetSent = false) : c.switch v = c.setReg regOpMode v := by
  rw [Chip.switch, hv, if_neg fun hc => absurd hc.2 (by decide), hs]
  simp [Chip.setReg, hs]

/-- The bits of the mode register between the mode and the modem. -/
theorem Fsk.setOpMode {msb lsb : ℕ} (hr : badRange msb lsb = false) (hl : 2 < lsb) (hm : msb < 7)
    (v : UInt8) : Keeps (Sx127x.setRegValue regOpMode v msb lsb 0xFF) := by
  intro p l o x h
  have hput : field 2 0 (putField msb lsb (x.chip.reg regOpMode) v) = modeStandby :=
    (field_putField_of_disjoint (.inr hl) _ _).trans h.mode
  have hw : spiWriteRegister regOpMode (putField msb lsb (x.chip.reg regOpMode) v) x.chip =
      x.chip.setField regOpMode msb lsb v :=
    (spiWriteRegister_eq (by decide) _ _).trans (Chip.switch_standby hput h.silent)
  have hset : spiSetRegValue x.polls regOpMode v msb lsb 0xFF false x.chip =
      (errNone, x.chip.setField regOpMode msb lsb v) := by
    rw [spiSetRegValue, hr, spiReadRegister_opMode]
    simp only [Bool.false_eq_true, if_false, and_setMask hr, put_setMask hr, hw]
    split_ifs with hc
    · rw [Chip.setField, putField_eq_self hc.1, Chip.setReg_eq_self rfl]
    · exact checkLoop_taken h.polls (Chip.setReg_same _)
  refine ⟨errNone, x.withChip (x.chip.setField regOpMode msb lsb v), ?_, rfl, ?_⟩
  · show some _ = _
    rw [hset]
  · exact
      { h with
        modem := by
          rw [withChip_chip, Chip.setField, Chip.setReg_same, field_putField_of_disjoint (.inl hm)]
          exact h.modem
        mode := by
          rw [withChip_chip, Chip.mode, Chip.setField, Chip.setReg_same]
          exact hput
        bandwidth :=
          (congrArg (field 5 5) (Chip.setField_of_ne _ _ _ _ (by decide))).trans h.bandwidth
        packet := (Chip.setField_of_ne _ _ _ _ (by decide)).trans h.packet }

theorem Fsk.forceReg {a : UInt8} (ha : Free a 7 0) (v : UInt8) : Keeps (forceReg a v) := by
  intro p l o x h
  refine ⟨errNone, x.withChip (x.chip.setField a 7 0 v), ?_, rfl, h.setField ha v⟩
  show some _ = _
  rw [spiSetRegValue_stored ha.stored h.polls rfl]

theorem Fsk.setReg {a : UInt8} (ha : Free a 7 0) (v : UInt8) : Keeps (setReg a v) :=
  Fsk.setRegValue ha v 0xFF

theorem Fsk.setAfcAgcTrigger (trigger : UInt8) : Keeps (setAfcAgcTrigger trigger) :=
  fun p l o => Fsk.inFsk (Fsk.setRegValue (by decide) trigger 0xFF p l o)

theorem Fsk.setAfc (isEnabled : Bool) : Keeps (setAfc isEnabled) :=
  fun p l o => Fsk.inFsk (Fsk.setRegValue (by decide) _ 0xFF p l o)

theorem Fsk.setOok (enableOok : Bool) :
    Sets (Fsk p l o) (setOok enableOok) (Fsk p l enableOok) := by
  refine Fsk.inFsk ((Fsk.setOpMode rfl (by decide) (by decide) _ p l o).bind_eq ?_)
  refine ((Fsk.setAfcAgcTrigger _ p l o).orState).bind_eq ?_
  rw [if_pos rfl]
  refine Triple.bind (Q := fun _ => Fsk p l enableOok) (Triple.modify fun x h => ?_) fun _ =>
    Triple.pure fun _ h => ⟨rfl, h⟩
  exact { h with ook := rfl }

theorem Fsk.setFrequencyDeviation (a : FskArgs) : Tests a.freqDevOk errInvalidFrequencyDeviation
    (Fsk p l o) (setFrequencyDeviation a) (Fsk p l o) := by
  refine Fsk.inFsk (Sets.test ((Fsk.setStandby p l o).assert ?_))
  exact (Fsk.setRegValue (by decide) _ 0xFF p l o).or (Fsk.setRegValue (by decide) _ 0xFF p l o)

theorem Fsk.setBandwidthReg {reg : UInt8} (hf : Free reg 4 0) (a : FskArgs) :
    Tests a.rxBwOk errInvalidRxBandwidth (Fsk p l o) (setBandwidthReg reg a) (Fsk p l o) :=
  Fsk.inFsk (Sets.test ((Fsk.setStandby p l o).assert (Fsk.setRegValue hf _ 0xFF p l o)))

theorem Fsk.setCurrentLimit {currentLimit : UInt8}
    (hc : 45 ≤ currentLimit ∧ currentLimit ≤ 240 ∨ currentLimit = 0) :
    Keeps (setCurrentLimit currentLimit) := by
  intro p l o
  rw [Sx127x.setCurrentLimit, if_neg (not_not.mpr hc)]
  refine (Fsk.setStandby p l o).bind_eq (Triple.ite (fun _ => ?_) fun _ => ?_)
  · exact (Fsk.setRegValue (by decide) _ 0xFF p l o).orState
  refine Triple.ite (fun _ => ?_) fun _ => ?_
  · exact (Fsk.setRegValue (by decide) _ 0xFF p l o).orState
  · exact (Fsk.setRegValue (by decide) _ 0xFF p l o).orState

theorem Fsk.setPreambleLength (n : UInt16) : Keeps (setPreambleLength n) := by
  intro p l o
  refine (Fsk.setStandby p l o).assert ((Fsk.getActiveModem fun _ h => h.modem).bind_eq ?_)
  rw [if_neg (by decide), if_neg (by simp)]
  exact (Fsk.setReg (by decide) _ p l o).or (Fsk.setReg (by decide) _ p l o)

theorem Fsk.invertPreamble (enable : Bool) : Keeps (invertPreamble enable) := by
  intro p l o
  refine (Fsk.setStandby p l o).assert ((Fsk.getActiveModem fun _ h => h.modem).bind_eq ?_)
  rw [if_neg (by decide), if_neg (by simp)]
  exact Fsk.setRegValue (by decide) _ 0xFF p l o

theorem putField_all (old new : UInt8) : putField 7 0 old new = new := by
  have hm : BitField.mask 8 7 0 = BitVec.allOnes 8 := by decide
  apply UInt8.toBitVec_inj.mp
  show BitField.put 7 0 old.toBitVec new.toBitVec = new.toBitVec
  rw [BitField.put, hm, BitVec.and_allOnes]
  simp [-BitVec.reduceAllOnes]

/-- A burst of bytes to registers that can be written at will. -/
theorem Fsk.writeBurst {data : List UInt8} {a : UInt8} {x : Sx127x} (h : Fsk p l o x)
    (ha : ∀ i < data.length, Free (a + UInt8.ofNat i) 7 0) :
    Fsk p l o (x.withChip (Chip.writeBurst a data x.chip)) := by
  induction data generalizing a x with
  | nil => exact h
  | cons v vs ih =>
    have h0 : Free a 7 0 := by simpa using ha 0 (Nat.zero_lt_succ _)
    have hw : x.chip.write a v = x.chip.setField a 7 0 v := by
      rw [Chip.write_stored h0.stored, Chip.setField, putField_all]
    rw [Chip.writeBurst, Chip.nextAddr, if_neg h0.stored.not_fifo, hw]
    refine ih (h.setField h0 v) fun i hi => ?_
    have hs := ha (i + 1) (Nat.succ_lt_succ hi)
    rw [UInt8.ofNat_add, UInt8.add_comm (UInt8.ofNat i), ← UInt8.add_assoc] at hs
    exact hs

theorem Fsk.setSyncWord {w : List UInt8} (hne : w ≠ []) (hl : w.length ≤ 8) (h0 : 0x00 ∉ w) :
    Keeps (setSyncWord w) := by
  intro p l o
  refine (Fsk.getActiveModem fun _ h => h.modem).bind_eq ?_
  rw [if_neg (by decide), if_neg (by simp), if_neg hne, if_neg (by omega), if_neg h0]
  refine (Fsk.setRegValue (by decide) _ 0xFF p l o).bind_eq ?_
  refine ((Fsk.setRegValue (by decide) _ 0xFF p l o).orState).assert ?_
  intro x h
  have hfree : ∀ i < w.length, Free (regSyncValue1 + UInt8.ofNat i) 7 0 := by
    have key : ∀ i < 8, Free (regSyncValue1 + UInt8.ofNat i) 7 0 := by decide
    exact fun i hi => key i (hi.trans_le hl)
  have hb : (writeRegisterBurst regSyncValue1 w).run x =
      some ((), x.withChip (Chip.writeBurst regSyncValue1 w x.chip)) := by
    rw [← spiWriteRegisterBurst_eq (by decide)]
    rfl
  exact ⟨errNone, _, Drv.bind_run hb, rfl, h.writeBurst hfree⟩

theorem Fsk.disableAddressFiltering :
    Sets (Fsk p l o) disableAddressFiltering (fun x => ∃ q, Fsk q l o x) := by
  refine Fsk.inFsk ((Fsk.setPacket rfl _).assert ((Fsk.setReg (by decide) _ _ l o).assert ?_))
  exact (Fsk.setReg (by decide) _ _ l o).weaken (fun _ h => h) fun _ _ h => ⟨h.1, _, h.2⟩

theorem Fsk.setRssiConfig {n : UInt8} {offset : Int} (hn : n ≤ 7)
    (ho : -16 ≤ offset ∧ offset ≤ 15) : Keeps (setRssiConfig n offset) := by
  intro p l o
  refine Fsk.inFsk ((Fsk.standby p l o).assert ?_)
  rw [if_neg (UInt8.not_lt.mpr hn), if_neg (not_not.mpr ho)]
  exact (Fsk.setRegValue (by decide) _ 0xFF p l o).or (Fsk.setRegValue (by decide) _ 0xFF p l o)

theorem Fsk.setEncoding (e : Encoding) :
    Sets (Fsk p l o) (setEncoding e) (fun x => ∃ q, Fsk q l o x) := by
  refine Fsk.inFsk ?_
  cases e <;> exact (Fsk.setPacket rfl _).weaken (fun _ h => h) fun _ _ h => ⟨h.1, _, h.2⟩

theorem Fsk.setPacketMode (mode : UInt8) {len : UInt8} (hl : len.toNat ≤ maxPacketLengthFsk) :
    Sets (Fsk p l o) (setPacketMode mode len) (fun x => ∃ q, Fsk q mode o x) := by
  rw [Sx127x.setPacketMode, if_neg (by omega)]
  have hreg : Free regPayloadLengthFsk 7 0 := by decide
  refine Fsk.inFsk ((Fsk.setPacket rfl _).assert ((Fsk.setReg hreg _ _ l o).assert ?_))
  refine Triple.bind (Q := fun _ x => ∃ q, Fsk q mode o x) (Triple.modify fun x h => ?_) fun _ =>
    Triple.pure fun _ h => ⟨rfl, h⟩
  exact ⟨_, { h with lengths := rfl }⟩

/-- `configFSK` writes the packet format as a whole. -/
theorem Fsk.configFsk : Sets (fun x => ∃ q, Fsk q l o x) configFsk (Fsk 0x90 l o) := by
  refine Triple.of_exists fun q => ?_
  refine (Fsk.setReg (by decide) _ q l o).assert ?_
  have hdump : Triple (Fsk q l o) (writeRegister regIrqFlags2 flagFifoOverrun)
      fun _ => Fsk q l o := by
    intro x h
    refine ⟨_, _, writeRegister_run (by decide) _ x, ?_⟩
    rw [Chip.write_flags2 (by decide)]
    exact { h with unread := rfl }
  have hformat : Sets (Fsk q l o) (Sx127x.setRegValue regPacketConfig1
      (packetVariable ||| dcFreeNone ||| crcOn ||| crcAutoclearOn ||| addressFilteringOff |||
        crcWhiteningTypeCcitt) 7 0 0xFF) (Fsk 0x90 l o) := by
    refine (Fsk.setPacket rfl _).weaken (fun _ h => h) fun _ _ h => ?_
    rw [putField_all] at h
    exact h
  refine hdump.bind fun _ => hformat.bind_eq ?_
  refine ((Fsk.setRegValue (by decide) _ 0xFF 0x90 l o).orState).assert ?_
  refine (Fsk.setRegValue (by decide) _ 0xFF 0x90 l o).bind_eq ?_
  refine ((Fsk.setRegValue (by decide) _ 0xFF 0x90 l o).orState).assert ?_
  refine (Fsk.setReg (by decide) _ 0x90 l o).bind_eq ?_
  refine ((Fsk.setReg (by decide) _ 0x90 l o).orState).bind_eq ?_
  refine ((Fsk.setReg (by decide) _ 0x90 l o).orState).assert ?_
  refine (Fsk.setReg (by decide) _ 0x90 l o).assert ?_
  exact Fsk.setRegValue (by decide) _ 0xFF 0x90 l o

theorem Fsk.setFrequencyRaw (frf : UInt32) : Keeps (setFrequencyRaw frf) := by
  intro p l o
  have hread : Triple (Fsk p l o) (getRegValue regHopPeriod 7 0) fun _ => Fsk p l o :=
    fun x h => ⟨_, x, getRegValue_run ⟨by decide, by decide, by decide⟩ rfl x, h⟩
  refine hread.bind fun hop => ?_
  have hstandby : Sets (Fsk p l o)
      (if hop = hopPeriodOff then setMode modeStandby else pure errNone) (Fsk p l o) :=
    Triple.ite (fun _ => Fsk.setStandby p l o) fun _ => Triple.pure fun _ h => ⟨rfl, h⟩
  refine hstandby.bind_eq ?_
  refine ((Fsk.setReg (by decide) _ p l o).orState).bind_eq ?_
  refine ((Fsk.setReg (by decide) _ p l o).orState).bind_eq ?_
  exact (Fsk.forceReg (by decide) _ p l o).orState

theorem Fsk.setFrequency (a : FskArgs) :
    Tests a.freqOk errInvalidFrequency (Fsk p l o) (setFrequency a) (Fsk p l o) :=
  Sets.test (Fsk.setFrequencyRaw a.frf p l o)

theorem Fsk.setBitRate (a : FskArgs) :
    Tests a.brOk errInvalidBitRate (Fsk p l o) (setBitRate a) (Fsk p l o) := by
  refine Fsk.inFsk (Sets.test ((Fsk.setStandby p l o).assert ?_))
  refine (Fsk.setRegValue (by decide) _ 0xFF p l o).bind_eq ?_
  refine ((Fsk.setRegValue (by decide) _ 0xFF p l o).orState).bind_eq ?_
  refine Triple.get_bind fun _ _ => ?_
  refine Triple.ite (fun _ => ?_) fun _ => Triple.pure fun _ h => ⟨rfl, h⟩
  exact (Fsk.setRegValue (by decide) _ 0xFF p l o).orState

/-- Three writes after a standby, the last two with the status taken in. -/
theorem Fsk.setOutputPower (power : Int) : Triple (Fsk p l o) (setOutputPower power)
    fun rc x => rc = checkOutputPower power (decide (power < 2)) ∧ Fsk p l o x := by
  have hpa (v w d : UInt8) : Sets (Fsk p l o) (do
      let state ← orState errNone (Sx127x.setRegValue regPaConfig v 7 7 0xFF)
      let state ← orState state (Sx127x.setRegValue regPaConfig w 6 0 0xFF)
      orState state (Sx127x.setRegValue regPaDac d 2 0 0xFF)) (Fsk p l o) := by
    refine ((Fsk.setRegValue (by decide) v 0xFF p l o).orState).bind_eq ?_
    refine ((Fsk.setRegValue (by decide) w 0xFF p l o).orState).bind_eq ?_
    exact (Fsk.setRegValue (by decide) d 0xFF p l o).orState
  rw [Sx127x.setOutputPower]
  by_cases hc : checkOutputPower power (decide (power < 2)) = errNone
  · simp only [hc]
    rw [if_neg (by simp)]
    refine (Fsk.standby p l o).bind_eq (Triple.ite (fun _ => hpa _ _ _) fun _ => ?_)
    exact Triple.ite (fun _ => hpa _ _ _) fun _ => hpa _ _ _
  · simp only []
    rw [if_pos hc]
    exact Triple.pure fun _ h => ⟨rfl, h⟩

theorem Fsk.setDataShapingNone : Sets (Fsk p l false) setDataShapingNone (Fsk p l false) := by
  refine Fsk.inFsk (Triple.get_bind fun x h => ?_)
  rw [h.ook, if_neg (by decide)]
  exact (Fsk.standby p l false).assert (Fsk.setRegValue (by decide) _ 0xFF p l false)

theorem Fsk.idle {x : Sx127x} (h : Fsk p packetVariable o x) (hp : field 2 1 p = 0) : Idle x where
  ready :=
    { polls := h.polls
      modem := h.modem
      filter := by rw [h.packet, hp]
      bandwidth := h.bandwidth
      lengths := h.lengths
      queried := h.queried
      rxDone := h.rxDone
      sent := fun hs => by
        rw [h.silent] at hs
        cases hs
      dio0 := fun hm => by
        rw [h.mode] at hm
        exact absurd hm (by decide) }
  mode := h.mode
  empty := h.unread

theorem field_all (v : UInt8) : field 7 0 v = v := by
  have hm : BitField.mask 8 7 0 = BitVec.allOnes 8 := by decide
  apply UInt8.toBitVec_inj.mp
  show BitField.get 7 0 v.toBitVec = v.toBitVec
  rw [BitField.get, hm, BitVec.and_allOnes]

/-- What the data sheet says of the registers after a reset, as far as it matters here. -/
structure AfterReset (file : UInt8 → UInt8) : Prop where
  modem : field 7 7 (file regOpMode) = 0
  mode : field 2 0 (file regOpMode) = modeStandby
  bandwidth : field 5 5 (file regRxBw) = 0

/-- The driver object with the interrupt map of `beginFSK`. -/
structure Made (x : Sx127x) : Prop where
  polls : 0 < x.polls
  queried : x.packetLengthQueried = false
  rxDone : x.irqMap irqRxDone = flagPayloadReady.toUInt32 <<< 8

def InFsk (x : Sx127x) : Prop := ∃ p l o, Fsk p l o x

theorem InFsk.made {x : Sx127x} (h : InFsk x) : Made x := by
  obtain ⟨p, l, o, h⟩ := h
  exact ⟨h.polls, h.queried, h.rxDone⟩

theorem reset_inFsk {file : UInt8 → UInt8} (hf : AfterReset file) : Triple Made (reset file)
    fun _ x => InFsk x ∧ x.chip.reg regVersion = file regVersion :=
  Triple.modify fun x h => ⟨⟨file regPacketConfig1, x.packetLengthConfig, x.ookEnabled,
    h.polls, hf.modem, hf.mode, hf.bandwidth, rfl, rfl, rfl, h.queried, h.rxDone, rfl, rfl⟩, rfl⟩

def known (vers : List UInt8) (file : UInt8 → UInt8) : Bool := decide (file regVersion ∈ vers)

theorem findLoop_triple (vers : List UInt8) {files : List (UInt8 → UInt8)}
    (hf : ∀ file ∈ files, AfterReset file) : Triple Made (findLoop vers files)
      fun b x => b = files.any (known vers) ∧ (b = true → InFsk x) := by
  induction files with
  | nil => exact Triple.pure fun _ _ => ⟨rfl, fun hb => by cases hb⟩
  | cons file files ih =>
    have ih := ih fun g hg => hf g (List.mem_cons_of_mem _ hg)
    refine (reset_inFsk (hf file List.mem_cons_self)).bind fun _ => ?_
    have hver : Triple (fun x => InFsk x ∧ x.chip.reg regVersion = file regVersion) getChipVersion
        fun v x => v = ((file regVersion).toNat : Int) ∧ InFsk x := fun x h =>
      ⟨_, x, getRegValue_run ⟨by decide, by decide, by decide⟩ rfl x, by rw [h.2, field_all], h.1⟩
    refine hver.bind_eq ?_
    have hk : (∃ v ∈ vers, ((file regVersion).toNat : Int) = v.toNat) ↔ known vers file = true := by
      rw [known, decide_eq_true_iff]
      constructor
      · rintro ⟨v, hv, he⟩
        rwa [UInt8.toNat_inj.mp (Int.ofNat.inj he)]
      · exact fun hv => ⟨_, hv, rfl⟩
    rw [List.any_cons]
    refine Triple.ite (fun hc => ?_) fun hc => ?_
    · rw [hk.mp hc]
      exact Triple.pure fun _ h => ⟨rfl, fun _ => h⟩
    · rw [Bool.eq_false_iff.mpr (hc ∘ hk.mpr), Bool.false_or]
      exact ih.weaken (fun _ h => h.made) fun _ _ h => h

/-- One of the ten tries finds a version that is known. -/
def chipFound (resets : ℕ → UInt8 → UInt8) : Bool :=
  ((List.range 10).map resets).any (known chipVersions)

/-- What `SX127x::beginFSK` returns. -/
def commonCode (found : Bool) (a : FskArgs) : Int :=
  if found = false then errChipNotFound
  else if a.freqDevOk = false then errInvalidFrequencyDeviation
  else if a.rxBwOk = false then errInvalidRxBandwidth
  else errNone

/-- What `rfm9x_begin_fsk` returns. -/
def beginCode (found : Bool) (a : FskArgs) : Int :=
  if commonCode found a ≠ errNone then commonCode found a
  else if a.freqOk = false then errInvalidFrequency
  else if a.brOk = false then errInvalidBitRate
  else checkOutputPower a.power (decide (a.power < 2))

theorem beginFskCommon_triple {resets : ℕ → UInt8 → UInt8} (hr : ∀ i, AfterReset (resets i))
    (a : FskArgs) : Triple (fun x => 0 < x.polls ∧ x.packetLengthQueried = false)
      (beginFskCommon resets chipVersions a) fun rc x => rc = commonCode (chipFound resets) a ∧
        (rc = errNone → ∃ p, Fsk p packetVariable false x) := by
  have hmap : Triple (fun x : Sx127x => 0 < x.polls ∧ x.packetLengthQueried = false)
      (modify fun x => { x with irqMap := fskIrqMap }) fun _ => Made :=
    Triple.modify fun x h => ⟨h.1, h.2, rfl⟩
  have hfind : Triple Made (findChip resets chipVersions) fun b x =>
      b = chipFound resets ∧ (b = true → InFsk x) := by
    refine findLoop_triple _ fun file hf => ?_
    obtain ⟨i, _, rfl⟩ := List.mem_map.mp hf
    exact hr i
  refine hmap.bind fun _ => hfind.bind fun found => Triple.of_pure fun hfound => ?_
  rw [← hfound]
  cases found with
  | false =>
    rw [if_pos rfl]
    exact Triple.pure fun _ _ => ⟨rfl, fun hc => by cases hc⟩
  | true =>
    rw [if_neg (by decide)]
    refine Triple.weaken (P := InFsk) ?_ (fun x h => h rfl) fun _ _ h => h
    refine Triple.of_exists fun p => Triple.of_exists fun l => Triple.of_exists fun o => ?_
    refine (Fsk.standby p l o).assert ((Fsk.getActiveModem fun _ h => h.modem).bind_eq ?_)
    rw [if_neg (by simp)]
    refine Sets.assert (Triple.pure fun _ h => ⟨rfl, h⟩) ((Fsk.setOok false).assert ?_)
    refine (Fsk.setFrequencyDeviation a).assert (by decide) (fun hd _ _ => ?_) fun hd => ?_
    · exact ⟨by simp [commonCode, hd], fun hc => by cases hc⟩
    refine (Fsk.setBandwidthReg (by decide) a).assert (by decide) (fun hb _ _ => ?_) fun hb => ?_
    · exact ⟨by simp [commonCode, hd, hb], fun hc => by cases hc⟩
    refine (Fsk.setAfcAgcTrigger _ p l false).assert ((Fsk.setAfc _ p l false).assert ?_)
    refine (Fsk.setBandwidthReg (by decide) a).assert (by decide) (fun hc _ _ => ?_) fun _ => ?_
    · cases hb.symm.trans hc
    refine (Fsk.setCurrentLimit (by decide) p l false).assert ?_
    refine (Fsk.setPreambleLength _ p l false).assert ((Fsk.invertPreamble _ p l false).assert ?_)
    refine (Fsk.setSyncWord (by decide) (by decide) (by decide) p l false).assert ?_
    refine Fsk.disableAddressFiltering.assert (Triple.of_exists fun q => ?_)
    refine (Fsk.setRssiConfig (by decide) (by decide) q l false).assert ?_
    refine (Fsk.setEncoding .nrz).assert (Triple.of_exists fun q => ?_)
    have hcode : commonCode true a = errNone := by simp [commonCode, hd, hb]
    rw [hcode]
    exact (Fsk.setPacketMode packetVariable (by decide)).weaken (fun _ h => h) fun _ _ h =>
      ⟨h.1, fun _ => h.2⟩

/-- `rfm9x_begin_fsk`, whatever the chip did before and whatever `lora_init_default` has left, as
long as no length is cached, a reset does what the data sheet says and a register is read at least
once in a check: the code it returns is that of the first check that fails, and a driver that
`main` lets into `for(;;)`, with the code 0, is in FSK standby with nothing received and sends
and receives packets of variable length with a CRC and without an address filter. -/
theorem begin_fsk_configures {resets : ℕ → UInt8 → UInt8} (hr : ∀ i, AfterReset (resets i))
    (a : FskArgs) {x : Sx127x} (hp : 0 < x.polls) (hq : x.packetLengthQueried = false) :
    ∃ x', (beginFsk resets a).run x = some (beginCode (chipFound resets) a, x') ∧
      (beginCode (chipFound resets) a = errNone →
        Idle x' ∧ x'.chip.reg regPacketConfig1 = packetVariable ||| crcOn) := by
  have ht : Triple (fun x => 0 < x.polls ∧ x.packetLengthQueried = false) (beginFsk resets a)
      fun rc x => rc = beginCode (chipFound resets) a ∧
        (rc = errNone → Fsk 0x90 packetVariable false x) := by
    refine (beginFskCommon_triple hr a).bind fun rc => Triple.of_pure fun hrc => ?_
    subst hrc
    by_cases hc : commonCode (chipFound resets) a = errNone
    · rw [hc, if_neg (by simp)]
      refine Triple.weaken (P := fun x => ∃ p, Fsk p packetVariable false x) ?_
        (fun x h => h rfl) fun _ _ h => h
      refine Fsk.configFsk.assert ?_
      refine (Fsk.setFrequency a).assert (by decide) (fun hf _ _ => ?_) fun hf => ?_
      · exact ⟨by simp [beginCode, hc, hf], fun hc => by cases hc⟩
      refine (Fsk.setBitRate a).assert (by decide) (fun hb _ _ => ?_) fun hb => ?_
      · exact ⟨by simp [beginCode, hc, hf, hb], fun hc => by cases hc⟩
      have hcode : beginCode (chipFound resets) a =
          checkOutputPower a.power (decide (a.power < 2)) := by
        simp [beginCode, hc, hf, hb]
      rw [hcode]
      refine (Fsk.setOutputPower a.power).bind fun rc => Triple.of_pure fun hrc => ?_
      refine Triple.ite (fun hne => ?_) fun he => ?_
      · exact Triple.pure fun _ _ => ⟨hrc, fun hc => absurd hc hne⟩
      · rw [← hrc, not_not.mp he]
        exact Fsk.setDataShapingNone.weaken (fun _ h => h) fun _ _ h => ⟨h.1, fun _ => h.2⟩
    · rw [if_pos hc]
      exact Triple.pure fun _ _ => ⟨by rw [beginCode, if_pos hc], fun h => absurd h hc⟩
  obtain ⟨rc, x', hrun, hrc, hok⟩ := ht x ⟨hp, hq⟩
  subst hrc
  exact ⟨x', hrun, fun h => ⟨(hok h).idle rfl, (hok h).packet⟩⟩

/-- The call of `main`. -/
def mainArgs : FskArgs where
  freqOk := true
  frf := 0x6C4000
  brOk := true
  bitRateRaw := 106
  bitRateFrac := 10
  freqDevOk := true
  fdev := 1228
  rxBwOk := true
  rxBwManExp := 0x01
  power := 10
  preambleLength := 16

/-- A chip that answers from the second reset on. -/
def lateChip (i : ℕ) (a : UInt8) : UInt8 :=
  if a = regOpMode then 0x09 else if a = regRxBw then 0x15
  else if a = regVersion ∧ i ≠ 0 then 0x12 else 0

/-- Listening as a LoRa radio, with a packet received. -/
def loraDriver : Sx127x where
  chip := ⟨fun a => if a = regOpMode then 0x85 else 0xFF, [1, 2], true, false, false⟩
  polls := 1
  irqMap _ := irqNotSupported
  packetLength := 0
  packetLengthQueried := false
  packetLengthConfig := packetVariable
  ookEnabled := false
  rxMode := modeRxContinuous
  stagedMode := .rx

theorem begin_fsk_configures_main : ∃ x', (beginFsk lateChip mainArgs).run loraDriver =
    some (errNone, x') ∧ Idle x' ∧ x'.chip.reg regPacketConfig1 = packetVariable ||| crcOn := by
  have hreset (i : ℕ) : AfterReset (lateChip i) :=
    ⟨show field 7 7 0x09 = 0 by decide, show field 2 0 0x09 = modeStandby by decide,
      show field 5 5 0x15 = 0 by decide⟩
  have hcode : beginCode (chipFound lateChip) mainArgs = errNone := by decide
  obtain ⟨x', hrun, hok⟩ := begin_fsk_configures hreset mainArgs (x := loraDriver) Nat.one_pos rfl
  exact ⟨x', hcode ▸ hrun, hok hcode⟩

end Sx127x

end WalkieTalkie
