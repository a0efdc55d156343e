import WalkieTalkie.PlaySide

/-!
# The level at which a staged byte is played

The control word of channel 1 is written whole in two places and patched in its enable bit
elsewhere, so its transfer size is that of the last whole write. A release leaves it at one
byte, which the compare register repeats on all its lanes.
-/
namespace WalkieTalkie.PwmLevel
open PartialRuns

/-- Whether an entry of the button handler that carried FALL has been accepted. -/
def recordRelease (s : Cfg Pc) (e : Event) (released : Bool) : Bool :=
  match e with
  | .env (.pbIrq t) => released || (s.m.accepts t && s.m.pin.fall)
  | _ => released

def releaseStep : Cfg Pc × Bool → Event → Option (Cfg Pc × Bool) := tracked step recordRelease

/-- The control word last written whole. -/
def ctrlbits : Bool → BitVec 32
  | false => Machine.initCtrlbits
  | true => Machine.releaseCtrlbits

/-- The control word is the one written last, the enable bit aside. -/
def Configured (ctrl : BitVec 32) (released : Bool) : Prop := ctrl ||| 1#32 = ctrlbits released

/-- Bits that are set at the end need not have been kept. -/
theorem and_not_or {w : ℕ} (a b : BitVec w) : (a &&& ~~~b) ||| b = a ||| b := by
  ext i hi
  simp only [BitVec.getElem_or, BitVec.getElem_and, BitVec.getElem_not]
  cases a[i] <;> cases b[i] <;> rfl

theorem disable_ctrl (c : SpkChannel) : c.disable.ctrl ||| 1#32 = c.ctrl ||| 1#32 :=
  and_not_or _ _

theorem enable_ctrl (c : SpkChannel) : c.enable.ctrl ||| 1#32 = c.ctrl ||| 1#32 := by
  simp [SpkChannel.enable, BitVec.or_assoc]

/-- The enable bit is not one of the size bits. -/
theorem size_or_one (ctrl : BitVec 32) :
    ((ctrl ||| 1#32) >>> 2) &&& 3#32 = (ctrl >>> 2) &&& 3#32 := by
  rw [BitVec.ushiftRight_or_distrib, show (1#32 >>> 2) = 0#32 from rfl, BitVec.or_zero]

theorem pbIsrHandler_ctrl (m : Machine) (t : UInt32) : (m.pbIsrHandler t).spk.ctrl =
    if m.accepts t && m.pin.fall then Machine.releaseCtrlbits &&& ~~~1#32 else m.spk.ctrl := by
  cases ha : m.accepts t with
  | false => simp [Machine.pbIsrHandler_rejected ha]
  | true =>
    rw [Machine.pbIsrHandler_accepted ha]
    cases hr : m.pin.rise <;> cases hf : m.pin.fall <;>
      simp [Machine.pbBranches, Machine.pbRise, Machine.pbFall, Pin.events, SpkChannel.abort, hr,
        hf]

theorem serve_ctrl (v : PlaySide) : v.serve.spk.ctrl ||| 1#32 = v.spk.ctrl ||| 1#32 := by
  unfold PlaySide.serve PlaySide.rearmOrDisable PlaySide.finishSample
  split_ifs <;> first | rfl | exact disable_ctrl _

theorem Configured.env {m m' : Machine} {e : Env} {pc : Pc} {r : Bool}
    (h : Configured m.spk.ctrl r) (he : envStep m e = some m') :
    Configured m'.spk.ctrl (recordRelease ⟨pc, m⟩ (.env e) r) := by
  have hp := PlaySide.envStep_effect he
  have hv : m'.spk.ctrl = m'.playSide.spk.ctrl := rfl
  cases e with
  | pbIrq t =>
    cases he
    simp only [Configured, pbIsrHandler_ctrl, recordRelease]
    by_cases hc : (m.accepts t && m.pin.fall) = true
    · rw [if_pos hc, hc, Bool.or_true]
      exact and_not_or _ _
    · rw [if_neg hc, Bool.eq_false_iff.mpr hc, Bool.or_false]
      exact h
  | spkIrq =>
    rw [hv]
    generalize m'.playSide = v at hp
    cases hp with
    | quiet hq => exact False.elim hq
    | serve => exact (serve_ctrl m.playSide).trans h
  | edge | sample | micIrq | spkTransfer | payload | packetSent | radioIrq | spurious =>
    rw [hv]
    generalize m'.playSide = v at hp
    cases hp <;> exact h

theorem Configured.main {m : Machine} {pc : Pc} {r : Bool} (rc : Int)
    (h : Configured m.spk.ctrl r) : Configured (mainStep rc m pc).2.spk.ctrl r := by
  cases pc with
  | restartEnable => exact (enable_ctrl m.spk).trans h
  | _ => exact h

theorem Configured.step {x y : Cfg Pc × Bool} {e : Event} (h : Configured x.1.m.spk.ctrl x.2)
    (hstep : releaseStep x e = some y) : Configured y.1.m.spk.ctrl y.2 := by
  obtain ⟨rc, rfl, rfl⟩ | ⟨f, m, rfl, hf, rfl⟩ := tracked_step_cases hstep
  · exact h.main rc
  · exact h.env hf

theorem configured_boot : Configured boot.m.spk.ctrl false := and_not_or _ _

/-- Before a release channel 1 writes a staged word as it is, after one its low byte on
every lane. -/
theorem Configured.pwmLanes {ctrl : BitVec 32} {released : Bool} (h : Configured ctrl released)
    (w : UInt32) : Machine.pwmLanes ctrl w =
      if released then (w &&& 0xff) * 0x01010101 else w := by
  have hs := size_or_one ctrl
  rw [h] at hs
  cases released with
  | false =>
    have h2 : (ctrl >>> 2) &&& 3#32 = 2#32 := hs.symm.trans (by decide)
    simp [Machine.pwmLanes, h2]
  | true =>
    have h0 : (ctrl >>> 2) &&& 3#32 = 0#32 := hs.symm.trans (by decide)
    simp [Machine.pwmLanes, h0]

/-- The byte repeated on two lanes is that byte only if it is zero. -/
theorem lanes_eq_iff (v : UInt8) :
    ((v.toUInt32 &&& 0xff) * 0x01010101).toUInt16 = v.toUInt16 ↔ v = 0 := by
  have hv := v.toNat_lt
  have hlow : v.toNat &&& 255 = v.toNat := by
    rw [show 255 = 2 ^ 8 - 1 from rfl, Nat.and_two_pow_sub_one_eq_mod]
    exact Nat.mod_eq_of_lt hv
  rw [← UInt16.toNat_inj, ← UInt8.toNat_inj]
  simp [hlow]
  omega

/-- In every run, a transfer of a staged byte leaves that byte as the level of the speaker
exactly when no release has been accepted since boot or the byte is zero. -/
theorem played_byte_is_level_iff {es : List Event} {x : Cfg Pc × Bool} {m : Machine} {c : RxSlot}
    {i : Sample} {v : UInt8} (hr : run releaseStep (boot, false) es = some x)
    (ha : x.1.m.spk.readAddr = .staging c i) (hv : x.1.m.spkStaging c i = v.toUInt32)
    (ht : x.1.m.spkTransfer = some m) :
    m.pwmCc.toUInt16 = v.toUInt16 ↔ x.2 = false ∨ v = 0 := by
  have h : Configured x.1.m.spk.ctrl x.2 :=
    run_invariant (fun x => Configured x.1.m.spk.ctrl x.2) (fun _ _ _ hi ht => hi.step ht)
      configured_boot hr
  have hm : m.pwmCc = Machine.pwmLanes x.1.m.spk.ctrl v.toUInt32 := by
    simp only [Machine.spkTransfer] at ht
    split_ifs at ht
    cases ht
    simp only [Machine.readWord_of_staging ha, hv]
  rw [hm, h.pwmLanes]
  cases x.2 with
  | false => simp
  | true => simpa using lanes_eq_iff v

/-- A packet of fives, received and staged, and channel 1 started on it. -/
def fives : List Event :=
  mains 6 ++ [.env (.payload (List.replicate chunkSize 5)), .env (.radioIrq .payloadReady)] ++
    mains 76

def fivesEnd : Cfg Pc × Bool := ends releaseStep (boot, false) fives (by decide +kernel)

def fivesPlayed : Machine := fivesEnd.1.m.spkTransfer.get (by decide +kernel)

theorem played_byte_is_level_before_release :
    fivesPlayed.pwmCc.toUInt16 = (5 : UInt8).toUInt16 ↔ fivesEnd.2 = false ∨ (5 : UInt8) = 0 :=
  played_byte_is_level_iff (c := 0) (i := 0) (run_ends _) (by decide +kernel) (by decide +kernel)
    (Option.some_get _).symm

/-- After a press and a release the same byte is played at level 1285. -/
theorem level_wrong_after_release : ∃ s, run step boot (button 100000 ++ button 200000 ++ fives) =
    some s ∧ s.m.spk.readAddr = .staging 0 0 ∧ s.m.spkStaging 0 0 = (5 : UInt8).toUInt32 ∧
      s.m.spkTransfer.map (fun m => m.pwmCc.toUInt16) = some 1285 :=
  exists_of_run_any (by decide +kernel)

end WalkieTalkie.PwmLevel
