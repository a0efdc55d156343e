import WalkieTalkie.Loopback
import WalkieTalkie.ReceiveFifo

/-!
# Where channel 1 is restarted

Three places start the channel. The handler and `spk_loopback_push` take the address of the
sample that the read indices name, `main` that of the first sample of the chunk.
-/
namespace WalkieTalkie.PlaybackResume
open PartialRuns ReceiveFifo

/-- The sample that the read indices name. -/
def indexed (v : PlaySide) : SpkAddr := .staging v.spkReadChunkInd v.spkReadPacketInd

/-- The sample that the indices named when the outstanding transfer was started. -/
abbrev Aim := Option SpkAddr

def newAim (v v' : PlaySide) (aim : Aim) : Aim :=
  if !v.spk.busy && v'.spk.busy then some (indexed v') else aim

def recordAim {π : Type} (stp : Cfg π → Event → Option (Cfg π)) (s : Cfg π) (e : Event)
    (aim : Aim) : Aim :=
  match stp s e with
  | none => aim
  | some t => newAim s.m.playSide t.m.playSide aim

/-- The device, and the loopback build, with what channel 1 was last started for. -/
def aimedStep : Cfg Pc × Aim → Event → Option (Cfg Pc × Aim) := tracked step (recordAim step)

def loopAimedStep : Cfg LoopPc × Aim → Event → Option (Cfg LoopPc × Aim) :=
  tracked loopStep (recordAim loopStep)

/-- A release finds the speaker between two chunks and not half restarted, and a restart finds
the slot of the read index staged and no completion pending. -/
def Resumable (s : Cfg Pc) : Event → Prop
  | .main _ => match s.pc with
    | .restartTest => s.m.spk.en = false → s.m.rxChunkReady s.m.spkReadChunkInd = true
    | .restartCount => s.m.spk.irq = false
    | _ => True
  | .env (.pbIrq t) => s.m.accepts t = true → s.m.pin.fall = true →
      s.m.spkReadPacketInd = 0 ∧ s.m.spk.irq = false ∧ s.pc ≠ .restartEnable
  | .env _ => True

instance (s : Cfg Pc) (e : Event) : Decidable (Resumable s e) := by
  induction e using Event.casesOn with
  | main rc =>
    unfold Resumable
    generalize s.pc = pc
    induction pc using Pc.casesOn <;> infer_instance
  | env e => induction e using Env.casesOn <;> unfold Resumable <;> infer_instance

variable {v : PlaySide} {aim : Aim}

theorem newAim_self : newAim v v aim = aim := by
  cases hb : v.spk.busy <;> simp [newAim, hb]

theorem newAim_of_busy {v' : PlaySide} (h : v'.spk.busy = true → v.spk.busy = true) :
    newAim v v' aim = aim := by
  cases hb : v.spk.busy <;> cases hb' : v'.spk.busy <;> simp_all [newAim]

theorem newAim_of_start {v' : PlaySide} (hb : v.spk.busy = false) (hb' : v'.spk.busy = true) :
    newAim v v' aim = some (indexed v') := by
  simp [newAim, hb, hb']

theorem release_en (v : PlaySide) : v.release.spk.en = false := by
  change (Machine.releaseCtrlbits &&& ~~~1#32).getLsbD 0 = false
  decide

theorem recordAim_step {π : Type} {stp : Cfg π → Event → Option (Cfg π)} {s t : Cfg π} {e : Event}
    (h : stp s e = some t) : recordAim stp s e aim = newAim s.m.playSide t.m.playSide aim := by
  simp [recordAim, h]

/-! ### What the handler leaves -/

theorem finishSample_spk (v : PlaySide) : v.finishSample.spk = v.spk := by
  unfold PlaySide.finishSample
  split_ifs <;> rfl

/-- Only at the end of a chunk does the handler find no chunk to go on with. -/
theorem finishSample_first (hr : v.rxChunkReady v.spkReadChunkInd = true)
    (hn : ¬ v.finishSample.rxChunkReady v.finishSample.spkReadChunkInd = true) :
    v.finishSample.spkReadPacketInd = 0 := by
  by_cases h : (v.spkReadPacketInd : ℕ) + 1 < chunkSize
  · rw [PlaySide.finishSample_next h] at hn
    exact absurd hr hn
  · rw [PlaySide.finishSample_last h]

/-- The channel has been started for the sample of the indices. -/
structure Rearmed (v : PlaySide) : Prop where
  enabled : v.spk.en = true
  busy : v.spk.busy = true
  served : v.spk.irq = false
  addr : v.spk.readAddr = indexed v
  ready : v.rxChunkReady v.spkReadChunkInd = true

/-- The channel has been disabled, between two chunks if it was playing one. -/
structure Stopped (v v' : PlaySide) : Prop where
  disabled : v'.spk.en = false
  idle : v'.spk.busy = false
  served : v'.spk.irq = false
  first : v.rxChunkReady v.spkReadChunkInd = true → v'.spkReadPacketInd = 0

theorem serve_cases (he : v.spk.en = true) (hb : v.spk.busy = false) :
    Rearmed v.serve ∨ Stopped v v.serve := by
  have hspk := finishSample_spk { v with spk := { v.spk with irq := false } }
  have hfirst := finishSample_first (v := { v with spk := { v.spk with irq := false } })
  unfold PlaySide.serve
  generalize PlaySide.finishSample _ = w at hspk hfirst ⊢
  have hwe : w.spk.en = true := by rw [hspk]; exact he
  have hwb : w.spk.busy = false := by rw [hspk]; exact hb
  have hwi : w.spk.irq = false := by rw [hspk]
  by_cases hr : w.rxChunkReady w.spkReadChunkInd = true
  · rw [PlaySide.rearm_of_ready hr]
    refine .inl ⟨hwe, ?_, hwi, rfl, hr⟩
    have hse : (w.spk.setReadAddr (.staging w.spkReadChunkInd w.spkReadPacketInd)).en = true := hwe
    simp [SpkChannel.trigger, hse]
  · rw [PlaySide.disable_of_empty hr]
    exact .inr ⟨SpkChannel.en_disable _, hwb, hwi, fun h => hfirst h hr⟩

/-! ### The device -/

/-- What `main` relies on between lines 193 and 195. -/
def Restarting (pc : Pc) (v : PlaySide) : Prop :=
  match pc with
  | .restartAddr => v.spk.en = false ∧ v.rxChunkReady v.spkReadChunkInd = true
  | .restartEnable => v.spk.en = false ∧ v.rxChunkReady v.spkReadChunkInd = true ∧
      v.spk.readAddr = .staging v.spkReadChunkInd 0
  | .restartCount => v.spk.en = true → v.rxChunkReady v.spkReadChunkInd = true ∧
      (v.spk.irq = false → v.spk.readAddr = indexed v)
  | _ => True

/-- An outstanding transfer is for the sample of the indices, and a disabled channel stands at
the first sample of a chunk. -/
structure Aligned (pc : Pc) (v : PlaySide) (aim : Aim) : Prop where
  aimed : v.spk.busy = true → v.spk.irq = false ∧ aim = some (indexed v)
  addr : v.spk.busy = true → v.spk.en = true → v.spk.readAddr = indexed v
  pending : v.spk.irq = true → v.spk.en = true ∧ v.spk.busy = false
  ready : v.spk.en = true → v.spk.busy = true ∨ v.spk.irq = true →
    v.rxChunkReady v.spkReadChunkInd = true
  first : v.spk.en = false → v.spkReadPacketInd = 0
  restarting : Restarting pc v

namespace Aligned

variable {pc pc' : Pc}

theorem move (h : Aligned pc v aim) (hp : Restarting pc' v) : Aligned pc' v aim :=
  ⟨h.aimed, h.addr, h.pending, h.ready, h.first, hp⟩

theorem transfer (h : Aligned pc v aim) (hb : v.spk.busy = true) (he : v.spk.en = true) :
    Aligned pc v.transfer (newAim v v.transfer aim) := by
  have hr := h.restarting
  refine ⟨fun hc => (by cases hc), fun hc => (by cases hc), fun _ => ⟨he, rfl⟩,
    fun _ _ => h.ready he (.inl hb), h.first, ?_⟩
  cases pc with
  | restartAddr | restartEnable => cases hr.1.symm.trans he
  | restartCount => exact fun _ => ⟨(hr he).1, fun hc => by cases hc⟩
  | _ => trivial

theorem serve (h : Aligned pc v aim) (hi : v.spk.irq = true) :
    Aligned pc v.serve (newAim v v.serve aim) := by
  obtain ⟨he, hb⟩ := h.pending hi
  have hready := h.ready he (.inr hi)
  have hr := h.restarting
  rcases serve_cases he hb with hs | hs
  · rw [newAim_of_start hb hs.busy]
    refine ⟨fun _ => ⟨hs.served, rfl⟩, fun _ _ => hs.addr, fun hc => ?_, fun _ _ => hs.ready,
      fun hc => ?_, ?_⟩
    · cases hs.served.symm.trans hc
    · cases hs.enabled.symm.trans hc
    · cases pc with
      | restartAddr | restartEnable => cases hr.1.symm.trans he
      | restartCount => exact fun _ => ⟨hs.ready, fun _ => hs.addr⟩
      | _ => trivial
  · have hd {p : Prop} (hc : v.serve.spk.en = true) : p := by cases hs.disabled.symm.trans hc
    refine ⟨fun hc => ?_, fun _ => hd, fun hc => ?_, hd, fun _ => hs.first hready, ?_⟩
    · cases hs.idle.symm.trans hc
    · cases hs.served.symm.trans hc
    · cases pc with
      | restartAddr | restartEnable => cases hr.1.symm.trans he
      | restartCount => exact hd
      | _ => trivial

theorem press (h : Aligned pc v aim) : Aligned pc v.press aim := by
  refine ⟨fun hc => (by cases hc), fun hc => (by cases hc), fun hc => ⟨(h.pending hc).1, rfl⟩, ?_,
    h.first, ?_⟩
  · rintro he (hc | hc)
    · cases hc
    · exact h.ready he (.inr hc)
  · have hr := h.restarting
    cases pc <;> exact hr

/-- A release between two chunks, with the channel not half restarted. -/
theorem release (h : Aligned pc v aim) (h0 : v.spkReadPacketInd = 0) (hi : v.spk.irq = false)
    (hp : pc ≠ .restartEnable) : Aligned pc v.release aim := by
  have hd {p : Prop} (hc : v.release.spk.en = true) : p := by
    cases (release_en v).symm.trans hc
  refine ⟨h.aimed, fun _ => hd, fun hc => ?_, hd, fun _ => h0, ?_⟩
  · cases hi.symm.trans hc
  · have hr := h.restarting
    cases pc with
    | restartAddr => exact ⟨release_en v, hr.2⟩
    | restartEnable => exact absurd rfl hp
    | restartCount => exact hd
    | _ => trivial

theorem setReadAddr (h : Aligned .restartAddr v aim) : Aligned .restartEnable
    { v with spk := v.spk.setReadAddr (.staging v.spkReadChunkInd 0) } aim := by
  obtain ⟨he, hr⟩ := h.restarting
  refine ⟨h.aimed, fun _ hc => ?_, h.pending, h.ready, h.first, he, hr, rfl⟩
  cases he.symm.trans hc

theorem enable (h : Aligned .restartEnable v aim) :
    Aligned .restartCount { v with spk := v.spk.enable } aim := by
  obtain ⟨he, hr, ha⟩ := h.restarting
  have haddr : v.spk.readAddr = indexed v := by rw [ha, indexed, h.first he]
  refine ⟨h.aimed, fun _ _ => haddr, fun hc => ?_, fun _ _ => hr, fun hc => ?_,
    fun _ => ⟨hr, fun _ => haddr⟩⟩
  · cases he.symm.trans (h.pending hc).1
  · cases (SpkChannel.en_enable v.spk).symm.trans hc

theorem trigger (h : Aligned .restartCount v aim) (hi : v.spk.irq = false) : Aligned .rearm
    { v with spk := v.spk.trigger } (newAim v { v with spk := v.spk.trigger } aim) := by
  cases hb : v.spk.busy with
  | true =>
    rw [newAim_of_busy fun _ => hb]
    refine ⟨fun _ => h.aimed hb, fun _ => h.addr hb, fun hc => ?_,
      fun he _ => h.ready he (.inl hb), h.first, trivial⟩
    cases hi.symm.trans hc
  | false =>
    cases he : v.spk.en with
    | true =>
      obtain ⟨hr, ha⟩ := h.restarting he
      rw [newAim_of_start hb (by simp [SpkChannel.trigger, he])]
      refine ⟨fun _ => ⟨hi, rfl⟩, fun _ _ => ha hi, fun hc => ?_, fun _ _ => hr, fun hc => ?_,
        trivial⟩
      · cases hi.symm.trans hc
      · cases he.symm.trans hc
    | false =>
      have hsame : v.spk.trigger = v.spk := by simp [SpkChannel.trigger, he]
      rw [hsame, newAim_self]
      exact h.move trivial

/-- A statement of `main` that leaves the play side alone, or only raises flags in it. -/
theorem raise (h : Aligned pc v aim) {staging : RxSlot → Chunk UInt32} {ready : RxSlot → Bool}
    (hf : ∀ c, v.rxChunkReady c = true → ready c = true)
    (hp : Restarting pc' { v with spkStaging := staging, rxChunkReady := ready }) :
    Aligned pc' { v with spkStaging := staging, rxChunkReady := ready } aim :=
  ⟨h.aimed, h.addr, h.pending, fun he hb => hf _ (h.ready he hb), h.first, hp⟩

end Aligned

/-- An accepted entry of the button handler aborts the channel, reconfigures it, or does both. -/
theorem pbIsrHandler_playSide {m : Machine} {t : UInt32} (ha : m.accepts t = true) :
    (m.pbIsrHandler t).playSide = m.playSide.press ∨ m.pin.fall = true ∧
      ((m.pbIsrHandler t).playSide = m.playSide.release ∨
        (m.pbIsrHandler t).playSide = m.playSide.press.release) := by
  rw [Machine.pbIsrHandler_accepted ha]
  cases hr : m.pin.rise <;> cases hf : m.pin.fall <;>
    simp only [Machine.pbBranches, Pin.events, hr, hf, if_true, Bool.false_eq_true, if_false]
  · simp [Machine.accepts, Pin.events, Events.isEmpty, hr, hf] at ha
  · exact .inr ⟨trivial, .inl rfl⟩
  · exact .inl rfl
  · exact .inr ⟨trivial, .inr rfl⟩

variable {s t : Cfg Pc}

theorem Aligned.pbIrq (h : Aligned s.pc s.m.playSide aim) {now : UInt32}
    (hc : Resumable s (.env (.pbIrq now))) : Aligned s.pc (s.m.pbIsrHandler now).playSide
      (newAim s.m.playSide (s.m.pbIsrHandler now).playSide aim) := by
  cases ha : s.m.accepts now with
  | false =>
    rw [Machine.pbIsrHandler_rejected ha, newAim_self]
    exact h
  | true =>
    rcases pbIsrHandler_playSide ha with hv | ⟨hf, hv⟩
    · rw [hv, newAim_of_busy (by rintro ⟨⟩)]
      exact h.press
    · obtain ⟨h0, hi, hp⟩ := hc ha hf
      rcases hv with hv | hv
      · rw [hv, newAim_of_busy (by exact id)]
        exact h.release h0 hi hp
      · rw [hv, newAim_of_busy (by rintro ⟨⟩)]
        exact h.press.release h0 hi hp

theorem Aligned.env (h : Aligned s.pc s.m.playSide aim) {e : Env} {m : Machine}
    (hc : Resumable s (.env e)) (he : envStep s.m e = some m) :
    Aligned s.pc m.playSide (newAim s.m.playSide m.playSide aim) := by
  have hv := PlaySide.envStep_effect he
  cases e with
  | pbIrq now =>
    cases he
    exact h.pbIrq hc
  | spkTransfer =>
    generalize m.playSide = v' at hv
    cases hv with
    | quiet hq => cases hq
    | transfer hb he => exact h.transfer hb he
  | spkIrq =>
    generalize m.playSide = v' at hv
    cases hv with
    | quiet hq => cases hq
    | serve hi => exact h.serve hi
  | _ =>
    generalize m.playSide = v' at hv
    cases hv
    rw [newAim_self]
    exact h

theorem flag_kept {ready : RxSlot → Bool} {c : RxSlot} (w : RxSlot) (h : ready c = true) :
    Function.update ready w true c = true := by
  by_cases hc : c = w
  · rw [hc, Function.update_self]
  · rw [Function.update_of_ne hc, h]

/-- Only line 195 starts a transfer. -/
theorem mainStep_busy {pc : Pc} {m : Machine} {rc : Int} (h : pc ≠ .restartCount) :
    (mainStep rc m pc).2.spk.busy = m.spk.busy := by
  cases pc <;> first | rfl | exact absurd rfl h

theorem Aligned.statement {pc : Pc} {m : Machine} {rc : Int} (h : Aligned pc m.playSide aim)
    (hc : Resumable ⟨pc, m⟩ (.main rc)) (hp : pc ≠ .restartCount) :
    Aligned (mainStep rc m pc).1 (mainStep rc m pc).2.playSide aim := by
  cases pc with
  | sendLoad c i buf =>
    simp only [mainStep]
    exact nextSample_ind (P := fun pc => Aligned pc m.playSide aim) (fun _ => h.move trivial)
      fun _ => h.move trivial
  | stageByte i =>
    have hs : ∀ pc, Restarting pc (m.stageSample i).playSide →
        Aligned pc (m.stageSample i).playSide aim := fun _ hp => h.raise (fun _ hr => hr) hp
    simp only [mainStep]
    exact nextSample_ind (P := fun pc => Aligned pc (m.stageSample i).playSide aim)
      (fun _ => hs _ trivial) fun _ => hs _ trivial
  | stageFlag => exact h.raise (fun _ hr => flag_kept _ hr) trivial
  | restartTest =>
    simp only [mainStep]
    split_ifs with he
    · exact h.move trivial
    · have he' : m.spk.en = false := by simpa using he
      exact h.move ⟨he', hc he'⟩
  | restartAddr => exact h.setReadAddr
  | restartEnable => exact h.enable
  | restartCount => exact absurd rfl hp
  | _ =>
    simp only [mainStep]
    (try split_ifs) <;> exact h.move trivial

theorem Aligned.main {pc : Pc} {m : Machine} {rc : Int} (h : Aligned pc m.playSide aim)
    (hc : Resumable ⟨pc, m⟩ (.main rc)) :
    Aligned (mainStep rc m pc).1 (mainStep rc m pc).2.playSide
      (newAim m.playSide (mainStep rc m pc).2.playSide aim) := by
  by_cases hp : pc = .restartCount
  · subst hp
    exact h.trigger hc
  · rw [newAim_of_busy fun hb => (mainStep_busy hp).symm.trans hb]
    exact h.statement hc hp

theorem Aligned.step {x y : Cfg Pc × Aim} {e : Event}
    (h : Aligned x.1.pc x.1.m.playSide x.2) (hc : Resumable x.1 e)
    (hs : aimedStep x e = some y) : Aligned y.1.pc y.1.m.playSide y.2 := by
  obtain ⟨t, aim⟩ := y
  obtain ⟨ht, rfl⟩ := tracked_eq_some.mp hs
  rw [recordAim_step ht]
  obtain ⟨rc, rfl, rfl⟩ | ⟨f, m, rfl, hf, rfl⟩ := step_cases ht
  · exact h.main hc
  · exact h.env hc hf

theorem aligned_boot : Aligned boot.pc boot.m.playSide none :=
  ⟨fun hb => (by cases hb), fun hb => (by cases hb), fun hi => (by cases hi),
    fun he => (by revert he; decide), fun _ => rfl, trivial⟩

/-! ### The loopback build -/

/-- What `spk_loopback_push` relies on from its test of the channel on. -/
def LoopRestarting (pc : LoopPc) (v : PlaySide) : Prop :=
  match pc with
  | .restartAddr => v.spk.en = false
  | .restartEnable => v.spk.en = false ∧ v.spk.readAddr = indexed v
  | .restartCount => v.spk.en = true ∧ v.spk.busy = false ∧ v.spk.irq = false ∧
      v.spk.readAddr = indexed v
  | _ => True

structure LoopAligned (pc : LoopPc) (v : PlaySide) (aim : Aim) : Prop where
  aimed : v.spk.busy = true → v.spk.en = true ∧ v.spk.irq = false ∧
    v.spk.readAddr = indexed v ∧ aim = some (indexed v)
  pending : v.spk.irq = true → v.spk.en = true ∧ v.spk.busy = false
  restarting : LoopRestarting pc v

namespace LoopAligned

variable {pc pc' : LoopPc}

theorem move (h : LoopAligned pc v aim) (hp : LoopRestarting pc' v) : LoopAligned pc' v aim :=
  ⟨h.aimed, h.pending, hp⟩

/-- A channel with something outstanding is enabled, so it is not being restarted. -/
theorem not_restarting (h : LoopAligned pc v aim) (hb : v.spk.busy = true ∨ v.spk.irq = true)
    (v' : PlaySide) : LoopRestarting pc v' := by
  have he : v.spk.en = true := hb.elim (fun hb => (h.aimed hb).1) fun hi => (h.pending hi).1
  have hr := h.restarting
  cases pc with
  | restartAddr => cases hr.symm.trans he
  | restartEnable => cases hr.1.symm.trans he
  | restartCount => rcases hb with hb | hb <;> simp [hr.2.1, hr.2.2.1] at hb
  | _ => trivial

theorem transfer (h : LoopAligned pc v aim) (hb : v.spk.busy = true) :
    LoopAligned pc v.transfer (newAim v v.transfer aim) :=
  ⟨fun hc => (by cases hc), fun _ => ⟨(h.aimed hb).1, rfl⟩, h.not_restarting (.inl hb) _⟩

theorem serve (h : LoopAligned pc v aim) (hi : v.spk.irq = true) :
    LoopAligned pc v.serve (newAim v v.serve aim) := by
  obtain ⟨he, hb⟩ := h.pending hi
  refine ⟨fun hc => ?_, fun hc => ?_, h.not_restarting (.inr hi) _⟩ <;>
    rcases serve_cases he hb with hs | hs
  · rw [newAim_of_start hb hs.busy]
    exact ⟨hs.enabled, hs.served, hs.addr, rfl⟩
  · cases hs.idle.symm.trans hc
  · cases hs.served.symm.trans hc
  · cases hs.served.symm.trans hc

theorem setReadAddr (h : LoopAligned .restartAddr v aim) :
    LoopAligned .restartEnable { v with spk := v.spk.setReadAddr (indexed v) } aim := by
  have he : v.spk.en = false := h.restarting
  refine ⟨fun hb => ?_, h.pending, he, rfl⟩
  cases he.symm.trans (h.aimed hb).1

theorem enable (h : LoopAligned .restartEnable v aim) :
    LoopAligned .restartCount { v with spk := v.spk.enable } aim := by
  obtain ⟨he, ha⟩ := h.restarting
  have hb : v.spk.busy = false := by
    cases hb : v.spk.busy with
    | false => rfl
    | true => cases he.symm.trans (h.aimed hb).1
  have hi : v.spk.irq = false := by
    cases hi : v.spk.irq with
    | false => rfl
    | true => cases he.symm.trans (h.pending hi).1
  refine ⟨fun hc => ?_, fun hc => ?_, SpkChannel.en_enable _, hb, hi, ha⟩
  · cases hb.symm.trans hc
  · cases hi.symm.trans hc

theorem trigger (h : LoopAligned .restartCount v aim) : LoopAligned .clear
    { v with spk := v.spk.trigger } (newAim v { v with spk := v.spk.trigger } aim) := by
  obtain ⟨he, hb, hi, ha⟩ := h.restarting
  rw [newAim_of_start hb (by simp [SpkChannel.trigger, he])]
  refine ⟨fun _ => ⟨he, hi, ha, rfl⟩, fun hc => ?_, trivial⟩
  cases hi.symm.trans hc

end LoopAligned

theorem loopMainStep_busy {pc : LoopPc} {m : Machine} (h : pc ≠ .restartCount) :
    (loopMainStep m pc).2.spk.busy = m.spk.busy := by
  cases pc <;> first | rfl | exact absurd rfl h

theorem LoopAligned.statement {pc : LoopPc} {m : Machine} (h : LoopAligned pc m.playSide aim)
    (hp : pc ≠ .restartCount) :
    LoopAligned (loopMainStep m pc).1 (loopMainStep m pc).2.playSide aim := by
  cases pc with
  | restartTest =>
    simp only [loopMainStep]
    split_ifs with he
    · exact h.move trivial
    · have he' : m.spk.en = false := by simpa using he
      exact h.move he'
  | restartAddr => exact h.setReadAddr
  | restartEnable => exact h.enable
  | restartCount => exact absurd rfl hp
  | stageByte c i =>
    have hs : ∀ pc, LoopRestarting pc (m.pushSample c i).playSide →
        LoopAligned pc (m.pushSample c i).playSide aim := fun _ hp => ⟨h.aimed, h.pending, hp⟩
    simp only [loopMainStep]
    exact nextSample_ind (P := fun pc => LoopAligned pc (m.pushSample c i).playSide aim)
      (fun _ => hs _ trivial) fun _ => hs _ trivial
  | stageFlag c => exact ⟨h.aimed, h.pending, trivial⟩
  | _ =>
    simp only [loopMainStep]
    (try split_ifs) <;> exact h.move trivial

theorem LoopAligned.main {pc : LoopPc} {m : Machine} (h : LoopAligned pc m.playSide aim) :
    LoopAligned (loopMainStep m pc).1 (loopMainStep m pc).2.playSide
      (newAim m.playSide (loopMainStep m pc).2.playSide aim) := by
  by_cases hp : pc = .restartCount
  · subst hp
    exact h.trigger
  · rw [newAim_of_busy fun hb => (loopMainStep_busy hp).symm.trans hb]
    exact h.statement hp

theorem LoopAligned.env {s : Cfg LoopPc} (h : LoopAligned s.pc s.m.playSide aim) {e : Env}
    {m : Machine} (ha : e.audio = true) (he : envStep s.m e = some m) :
    LoopAligned s.pc m.playSide (newAim s.m.playSide m.playSide aim) := by
  have hv := PlaySide.envStep_effect he
  generalize m.playSide = v' at hv
  cases hv with
  | quiet =>
    rw [newAim_self]
    exact h
  | transfer hb => exact h.transfer hb
  | serve hi => exact h.serve hi
  | press | release | pressRelease => cases ha

theorem LoopAligned.step {x y : Cfg LoopPc × Aim} {e : Event}
    (h : LoopAligned x.1.pc x.1.m.playSide x.2) (hs : loopAimedStep x e = some y) :
    LoopAligned y.1.pc y.1.m.playSide y.2 := by
  obtain ⟨t, aim⟩ := y
  obtain ⟨ht, rfl⟩ := tracked_eq_some.mp hs
  rw [recordAim_step ht]
  obtain ⟨rc, rfl, rfl⟩ | ⟨f, m, rfl, ha, hf, rfl⟩ := loopStep_cases ht
  · exact h.main
  · exact h.env ha hf

theorem loopAligned_boot : LoopAligned loopBoot.pc loopBoot.m.playSide none :=
  ⟨fun hb => (by cases hb), fun hi => (by cases hi), trivial⟩

/-- Every transfer reads the sample that the indices named when it was started, and a disabled
channel stands at the first sample of a chunk, in every run of the device in which it is not
released within a chunk; in the loopback build every transfer does so without condition. -/
theorem playback_resumes_at_indices (es : List Event) :
    (∀ x, Along aimedStep (fun x e => Resumable x.1 e) (boot, none) es →
      run aimedStep (boot, none) es = some x →
        (∀ m, x.1.m.spkTransfer = some m → x.2 = some x.1.m.spk.readAddr) ∧
          (x.1.m.spk.en = false → x.1.m.spkReadPacketInd = 0)) ∧
      ∀ x, run loopAimedStep (loopBoot, none) es = some x →
        ∀ m, x.1.m.spkTransfer = some m → x.2 = some x.1.m.spk.readAddr := by
  refine ⟨fun x hc hr => ?_, fun x hr m hm => ?_⟩
  · have ha := hc.invariant (fun x => Aligned x.1.pc x.1.m.playSide x.2)
      (fun _ _ _ hi hp hs => hi.step hp hs) aligned_boot hr
    refine ⟨fun m hm => ?_, ha.first⟩
    obtain ⟨hb, he⟩ := Machine.ready_of_spkTransfer hm
    rw [(ha.aimed hb).2, ← ha.addr hb he]
    rfl
  · have ha := run_invariant (fun x => LoopAligned x.1.pc x.1.m.playSide x.2)
      (fun _ _ _ hi hs => hi.step hs) loopAligned_boot hr
    obtain ⟨hb, _⟩ := Machine.ready_of_spkTransfer hm
    obtain ⟨_, _, hv, hx⟩ := ha.aimed hb
    rw [hx, ← hv]
    rfl

/-- A press and its release before the first packet. -/
def talkedFirst : List Event := button 60000 ++ button 120000 ++ mains 8 ++ packetOf 2 ++ mains 74

def talkedFirstEnd : Cfg Pc × Aim :=
  ends aimedStep (boot, none) talkedFirst (by decide +kernel)

theorem playback_resumes_at_indices_talked :
    ∀ m, talkedFirstEnd.1.m.spkTransfer = some m →
      talkedFirstEnd.2 = some talkedFirstEnd.1.m.spk.readAddr :=
  ((playback_resumes_at_indices talkedFirst).1 talkedFirstEnd (by decide +kernel) (run_ends _)).1

/-- A press and its release in the middle of a packet. -/
def talkedWithin : List Event :=
  mains 6 ++ packetOf 1 ++ mains 74 ++ plays 30 ++ button 60000 ++ button 120000

/-- The channel stands at sample 30, and `main` restarts it at sample 0 with the next packet. -/
theorem restart_repeats_samples :
    (∃ x, run aimedStep (boot, none) talkedWithin = some x ∧
      x.1.m.spk.en = false ∧ x.1.m.spkReadPacketInd = 30) ∧
      ∃ x, run aimedStep (boot, none) (talkedWithin ++ mains 8 ++ packetOf 2 ++ mains 74) = some x ∧
        x.1.m.spkTransfer.isSome = true ∧ x.2 = some (.staging 0 30) ∧
        x.1.m.spk.readAddr = .staging 0 0 :=
  ⟨exists_of_run_any (by decide +kernel), exists_of_run_any (by decide +kernel)⟩

end WalkieTalkie.PlaybackResume
