import WalkieTalkie.CaptureIntegrity
import WalkieTalkie.CaptureSession
import WalkieTalkie.Loopback
import WalkieTalkie.Playback

/-!
# The loopback build plays what it samples

Two windows one behind the other: the transmit ring on the captured chunks, the staging ring
on the chunks pushed. `main` moves the first chunk not yet pushed from one to the other, and
both rings are written at `lora_read_ind`.
-/
namespace WalkieTalkie.LoopbackFifo
open PartialRuns CaptureSession CaptureIntegrity

def restartOf : LoopPc → Restart
  | .restartTest => .published
  | .restartAddr => .chosen
  | .restartEnable => .addressed
  | .restartCount => .enabled
  | _ => .away

/-- The slot of the first chunk not yet taken from the transmit ring. -/
def readInd (pc : LoopPc) (v : CaptureSide) : TxSlot :=
  if pc = .advance then v.loraReadInd + 1 else v.loraReadInd

/-- The slot the next chunk is pushed to. -/
def writeInd (pc : LoopPc) (v : CaptureSide) : RxSlot :=
  match pc with
  | .test | .push | .stageByte _ _ | .stageFlag _ => v.loraReadInd
  | _ => v.loraReadInd + 1

/-- How far the chunk at the read index is on its way, `sent` chunks being through. -/
def Pushing (pc : LoopPc) (v : CaptureSide) (w : PlaySide) (h : LoopLog) (sent : ℕ) : Prop :=
  match pc with
  | .test | .advance => h.chunks.length = sent
  | .push => h.chunks.length = sent ∧ sent < h.capture.captured.length
  | .stageByte c i => h.chunks.length = sent ∧ sent < h.capture.captured.length ∧
      c = v.loraReadInd ∧ (∀ j : Sample, (j : ℕ) < i → w.spkStaging c j = words (v.txRing c) j) ∧
      (0 < (i : ℕ) → w.rxChunkReady c = false)
  | .stageFlag c => h.chunks.length = sent ∧ sent < h.capture.captured.length ∧
      c = v.loraReadInd ∧ w.spkStaging c = words (v.txRing c) ∧ w.rxChunkReady c = false
  | _ => h.chunks.length = sent + 1 ∧ sent < h.capture.captured.length

structure Loop (pc : LoopPc) (v : CaptureSide) (w : PlaySide) (h : LoopLog) (sent taken : ℕ) :
    Prop where
  window : RingWindow v.txRing v.txChunkReady (readInd pc v) v.dmaWriteInd h.capture.captured sent
  fill : FillsClear v
  filling : Filling v h.capture
  playback : Playback (restartOf pc) w (writeInd pc v) h.chunks h.played taken
  copied : h.chunks = (h.capture.captured.take h.chunks.length).map words
  pushing : Pushing pc v w h sent

/-- No sample goes through channel 0 while its interrupt is pending, and channel 1 has not
played the new chunk out before the test that would restart it. -/
def Unraced (x : Cfg LoopPc × LoopLog) : Event → Prop
  | .env (.sample _) => x.1.m.mic.irq = false
  | .main _ => match x.1.pc with
    | .restartTest => x.1.m.spk.en = false → x.1.m.rxChunkReady x.1.m.spkReadChunkInd = true
    | _ => True
  | _ => True

instance (x : Cfg LoopPc × LoopLog) (e : Event) : Decidable (Unraced x e) := by
  induction e using Event.casesOn with
  | main rc =>
    unfold Unraced
    generalize x.1.pc = pc
    induction pc using LoopPc.casesOn <;> infer_instance
  | env e => induction e using Env.casesOn <;> unfold Unraced <;> infer_instance

section Effects

variable {pc : LoopPc} {v v' : CaptureSide} {w w' : PlaySide} {h h' : LoopLog} {sent taken : ℕ}

/-- What the chunk at the read index needs of the rest to stay on its way. -/
theorem Loop.pushing_congr (hs : Loop pc v w h sent taken)
    (hl : v'.loraReadInd = v.loraReadInd)
    (ht : ∀ c, v.txChunkReady c = true → v'.txRing c = v.txRing c)
    (hst : w'.spkStaging = w.spkStaging)
    (hr : ∀ c, w.rxChunkReady c = false → w'.rxChunkReady c = false)
    (hc : h'.chunks = h.chunks)
    (hg : h.capture.captured.length ≤ h'.capture.captured.length) : Pushing pc v' w' h' sent := by
  have hp := hs.pushing
  cases pc with
  | test | advance => exact (congrArg List.length hc).trans hp
  | push => exact ⟨hc ▸ hp.1, Nat.lt_of_lt_of_le hp.2 hg⟩
  | stageByte c i =>
    obtain ⟨hlen, hlt, rfl, hcopy, hf⟩ := hp
    have hslot : v'.txRing v.loraReadInd = v.txRing v.loraReadInd :=
      ht _ (hs.window.ready_read.mpr hlt)
    refine ⟨hc ▸ hlen, Nat.lt_of_lt_of_le hlt hg, hl.symm, fun j hj => ?_, fun hi => hr _ (hf hi)⟩
    rw [hst, hslot]
    exact hcopy j hj
  | stageFlag c =>
    obtain ⟨hlen, hlt, rfl, hcopy, hf⟩ := hp
    have hslot : v'.txRing v.loraReadInd = v.txRing v.loraReadInd :=
      ht _ (hs.window.ready_read.mpr hlt)
    refine ⟨hc ▸ hlen, Nat.lt_of_lt_of_le hlt hg, hl.symm, ?_, hr _ hf⟩
    rw [hst, hslot]
    exact hcopy
  | restartTest | restartAddr | restartEnable | restartCount | clear =>
    exact ⟨hc ▸ hp.1, Nat.lt_of_lt_of_le hp.2 hg⟩

theorem Loop.sample {m : Machine} (hs : Loop pc m.captureSide w h sent taken)
    (ha : m.adcOn = true) (hf : CaptureLog.hitsFlag m = false) (hi : m.mic.irq = false) (x : UInt8) :
    Loop pc (m.captureSide.sample x) w
      { h with capture := h.capture.recordEnv m (.sample x) } sent taken :=
  ⟨hs.window.congr_slot fun _ hc => sample_txRing x hf hc, hs.fill.sample x (hs.fill.clear ha hf),
    hs.filling.sample hi x rfl, hs.playback, hs.copied,
    hs.pushing_congr rfl (fun _ hc => sample_txRing x hf hc) rfl (fun _ hc => hc) rfl
      (Nat.le_refl _)⟩

theorem Loop.flagSlot {m : Machine} (hs : Loop pc m.captureSide w h sent taken)
    (hi : m.mic.irq = true) :
    Loop pc m.captureSide.flagSlot w { h with capture := h.capture.recordEnv m .micIrq } sent
      taken := by
  have hrec : h.capture.recordEnv m .micIrq = { h.capture with
      captured := h.capture.captured ++ [m.txRing m.dmaWriteInd], oldIrq := false,
      unserved := false } := by
    simp only [CaptureLog.recordEnv, hs.filling.fresh, Bool.false_eq_true, if_false]
  rw [hrec]
  have hle : h.chunks.length ≤ h.capture.captured.length := by
    have hcl := congrArg List.length hs.copied
    simp only [List.length_map, List.length_take] at hcl
    omega
  refine ⟨hs.window.push (hs.fill.irq hi), fillsClear_flagSlot _, hs.filling.flagSlot hi,
    hs.playback, ?_, hs.pushing_congr rfl (fun _ _ => rfl) rfl (fun _ hc => hc) rfl (by simp)⟩
  simpa only [List.take_append_of_le_length hle] using hs.copied

/-- A completion of channel 1 also triggers channel 0. -/
theorem Loop.transfer {m : Machine} (hs : Loop pc m.captureSide m.playSide h sent taken)
    (hb : m.spk.busy = true) :
    Loop pc { m.captureSide with mic := m.mic.trigger } m.playSide.transfer
      { h with played := h.played ++ [m.readWord m.spk.readAddr] } sent taken := by
  obtain ⟨ha, hp⟩ := hs.playback.transfer hb
  rw [Machine.readWord_of_staging (m := m) ha]
  exact ⟨hs.window, hs.fill.trigger, hs.filling.trigger, hp, hs.copied,
    hs.pushing_congr rfl (fun _ _ => rfl) rfl (fun _ hc => hc) rfl (Nat.le_refl _)⟩

theorem Loop.serve (hs : Loop pc v w h sent taken) (hi : w.spk.irq = true) :
    ∃ taken', Loop pc v w.serve h sent taken' := by
  obtain ⟨taken', hp⟩ := hs.playback.serve hi
  exact ⟨taken', hs.window, hs.fill, hs.filling, hp, hs.copied,
    hs.pushing_congr rfl (fun _ _ => rfl) (PlaySide.serve_staging w)
      (fun _ hc => PlaySide.serve_ready hc) rfl (Nat.le_refl _)⟩

/-- Moving on while the transmit ring is as it was. -/
theorem Loop.goto {pc' : LoopPc} (hs : Loop pc v w h sent taken)
    (hr : readInd pc' v = readInd pc v)
    (hb : Playback (restartOf pc') w' (writeInd pc' v) h.chunks h.played taken)
    (hp : Pushing pc' v w' h sent) : Loop pc' v w' h sent taken :=
  ⟨hr ▸ hs.window, hs.fill, hs.filling, hb, hs.copied, hp⟩

end Effects

section Main

variable {m : Machine} {h : LoopLog} {sent taken : ℕ}

theorem Loop.test (hs : Loop .test m.captureSide m.playSide h sent taken) :
    Loop (loopMainStep m .test).1 m.captureSide m.playSide h sent taken := by
  simp only [loopMainStep]
  split_ifs with hf
  · exact hs.goto rfl hs.playback ⟨hs.pushing, hs.window.ready_read.mp hf⟩
  · exact hs

/-- A sample is copied into a slot that shows no chunk. -/
theorem Loop.stageByte {c : RxSlot} {i : Sample}
    (hs : Loop (.stageByte c i) m.captureSide m.playSide h sent taken)
    (hf : m.rxChunkReady c = false) (r : Bool) :
    Loop (nextSample i (.stageByte c) (.stageFlag c)) m.captureSide (m.pushSample c i).playSide
      { h with restaged := r } sent taken := by
  obtain ⟨hlen, hlt, hc, hcopy, _⟩ := hs.pushing
  have hplay := hs.playback.stage (c := c) hf
    (Function.update (m.spkStaging c) i (words (m.txRing c) i))
  have hslot : (m.pushSample c i).spkStaging c =
      Function.update (m.spkStaging c) i (words (m.txRing c) i) := Function.update_self ..
  have hnew : ∀ j : Sample, (j : ℕ) < i + 1 →
      (m.pushSample c i).spkStaging c j = words (m.txRing c) j := by
    intro j hj
    rw [hslot]
    exact update_eq_of_lt_succ hcopy j hj
  refine nextSample_ind (P := fun pc => Loop pc m.captureSide (m.pushSample c i).playSide
    { h with restaged := r } sent taken) (fun hi => ?_) fun hi => ?_
  · exact ⟨hs.window, hs.fill, hs.filling, hplay, hs.copied, hlen, hlt, hc, hnew, fun _ => hf⟩
  · refine ⟨hs.window, hs.fill, hs.filling, hplay, hs.copied, hlen, hlt, hc, ?_, hf⟩
    funext j
    exact hnew j (by have := j.isLt; omega)

/-- The chunk pushed is the next one captured. -/
theorem Loop.stageFlag {c : RxSlot}
    (hs : Loop (.stageFlag c) m.captureSide m.playSide h sent taken) :
    Loop .restartTest m.captureSide
      { m.playSide with rxChunkReady := Function.update m.rxChunkReady c true }
      { h with chunks := h.chunks ++ [m.spkStaging c] } sent taken := by
  obtain ⟨hlen, hlt, rfl, hcopy, hf⟩ := hs.pushing
  have hslot : m.txRing m.loraReadInd = h.capture.captured[sent] := hs.window.content_read hlt
  have hchunk : m.spkStaging m.loraReadInd = words h.capture.captured[sent] := by
    rw [← hslot]
    exact hcopy
  have hold : h.chunks = (h.capture.captured.take sent).map words := hlen ▸ hs.copied
  have hlen' : (h.chunks ++ [m.spkStaging m.loraReadInd]).length = sent + 1 := by simp [hlen]
  have hnew : h.chunks ++ [m.spkStaging m.loraReadInd] =
      (h.capture.captured.take (sent + 1)).map words := by
    rw [List.take_add_one, List.getElem?_eq_getElem hlt, List.map_append, ← hold, hchunk]
    rfl
  exact ⟨hs.window, hs.fill, hs.filling, hs.playback.publish hf, hlen' ▸ hnew, hlen', hlt⟩

/-- The slot is released once its chunk is staged. -/
theorem Loop.clear (hs : Loop .clear m.captureSide m.playSide h sent taken) :
    Loop .advance
      { m.captureSide with txChunkReady := Function.update m.txChunkReady m.loraReadInd false }
      m.playSide h (sent + 1) taken := by
  obtain ⟨hlen, hlt⟩ := hs.pushing
  have hfill : Filling
      { m.captureSide with txChunkReady := Function.update m.txChunkReady m.loraReadInd false }
      h.capture := (show Ordered .tx _ _ from hs.filling).congr rfl rfl
  exact ⟨hs.window.pop hlt, hs.fill.clearFlag _, hfill, hs.playback, hs.copied, hlen⟩

theorem Loop.advance (hs : Loop .advance m.captureSide m.playSide h sent taken) :
    Loop .test { m.captureSide with loraReadInd := m.loraReadInd + 1 } m.playSide h sent taken := by
  have hfill : Filling { m.captureSide with loraReadInd := m.loraReadInd + 1 } h.capture :=
    (show Ordered .tx _ _ from hs.filling).congr rfl rfl
  exact ⟨hs.window, ⟨hs.fill.irq, hs.fill.busy⟩, hfill, hs.playback, hs.copied, hs.pushing⟩

theorem Loop.main {pc : LoopPc} {rc : Int} (hs : Loop pc m.captureSide m.playSide h sent taken)
    (hu : Unraced (⟨pc, m⟩, h) (.main rc))
    (hr : (h.record ⟨pc, m⟩ (.main rc)).restaged = false) :
    ∃ sent', Loop (loopMainStep m pc).1 (loopMainStep m pc).2.captureSide
      (loopMainStep m pc).2.playSide (h.record ⟨pc, m⟩ (.main rc)) sent' taken := by
  cases pc with
  | test => exact ⟨sent, hs.test⟩
  | push =>
    obtain ⟨hlen, hlt⟩ := hs.pushing
    exact ⟨sent, hs.goto rfl hs.playback ⟨hlen, hlt, rfl,
      fun _ hj => absurd hj (Nat.not_lt_zero _), fun hi => absurd hi (Nat.lt_irrefl _)⟩⟩
  | stageByte c i =>
    simp only [LoopLog.record, Bool.or_eq_false_iff] at hr
    exact ⟨sent, hs.stageByte hr.2 _⟩
  | stageFlag c => exact ⟨sent, hs.stageFlag⟩
  | restartTest =>
    refine ⟨sent, ?_⟩
    simp only [loopMainStep]
    split_ifs with he
    · exact hs.goto rfl (hs.playback.leave he) hs.pushing
    · have he' : m.spk.en = false := by simpa using he
      exact hs.goto rfl (hs.playback.choose he' (hu he')) hs.pushing
  | restartAddr =>
    -- a stopped channel stands at the first sample of its chunk
    have hfirst : m.spkReadPacketInd = 0 := hs.playback.speaker.1.first
    have haddr : SpkAddr.staging m.spkReadChunkInd m.spkReadPacketInd =
        .staging m.spkReadChunkInd 0 := by rw [hfirst]
    refine ⟨sent, hs.goto rfl ?_ hs.pushing⟩
    simp only [loopMainStep, haddr]
    exact hs.playback.setReadAddr
  | restartEnable => exact ⟨sent, hs.goto rfl hs.playback.enable hs.pushing⟩
  | restartCount => exact ⟨sent, hs.goto rfl hs.playback.trigger hs.pushing⟩
  | clear => exact ⟨sent + 1, hs.clear⟩
  | advance => exact ⟨sent, hs.advance⟩

end Main

/-- The device is in order until one of the rings is overrun. -/
def Sound (x : Cfg LoopPc × LoopLog) : Prop :=
  x.2.capture.overrun = true ∨ x.2.restaged = true ∨
    ∃ sent taken, Loop x.1.pc x.1.m.captureSide x.1.m.playSide x.2 sent taken

theorem Sound.main {pc : LoopPc} {m : Machine} {h : LoopLog} {rc : Int}
    (hs : Sound (⟨pc, m⟩, h)) (hu : Unraced (⟨pc, m⟩, h) (.main rc)) :
    Sound (⟨(loopMainStep m pc).1, (loopMainStep m pc).2⟩, h.record ⟨pc, m⟩ (.main rc)) := by
  have hcap : (h.record ⟨pc, m⟩ (.main rc)).capture = h.capture := by cases pc <;> rfl
  rcases hs with ho | hr | ⟨sent, taken, hs⟩
  · exact .inl (hcap ▸ ho)
  · refine .inr (.inl ?_)
    have hr' : h.restaged = true := hr
    cases pc <;> simp [LoopLog.record, hr']
  · cases hr : (h.record ⟨pc, m⟩ (.main rc)).restaged with
    | true => exact .inr (.inl hr)
    | false =>
      obtain ⟨sent', hs'⟩ := hs.main hu hr
      exact .inr (.inr ⟨sent', taken, hs'⟩)

/-- What the events of the audio channels do to both sides. -/
inductive AudioEffect (m : Machine) : Env → CaptureSide → PlaySide → Prop
  | sample {x : UInt8} (ha : m.adcOn = true) :
      AudioEffect m (.sample x) (m.captureSide.sample x) m.playSide
  | micIrq (hi : m.mic.irq = true) : AudioEffect m .micIrq m.captureSide.flagSlot m.playSide
  | spkTransfer (hb : m.spk.busy = true) :
      AudioEffect m .spkTransfer { m.captureSide with mic := m.mic.trigger } m.playSide.transfer
  | spkIrq (hi : m.spk.irq = true) : AudioEffect m .spkIrq m.captureSide m.playSide.serve

theorem envStep_audioEffect {m m' : Machine} {e : Env} (ha : e.audio = true)
    (he : envStep m e = some m') : AudioEffect m e m'.captureSide m'.playSide := by
  have hcap := CaptureSide.envStep_effect he
  have hplay := PlaySide.envStep_effect he
  generalize m'.captureSide = v at hcap
  generalize m'.playSide = w at hplay
  cases hplay with
  | quiet hq =>
    cases hcap with
    | quiet hq' =>
      cases e <;> first | exact False.elim hq | exact False.elim hq' | cases ha
    | chain => cases hq
    | sample hadc => exact .sample hadc
    | flagSlot hi => exact .micIrq hi
    | press | release | pressRelease => cases ha
  | transfer hb =>
    cases hcap with
    | quiet hq' => exact False.elim hq'
    | chain => exact .spkTransfer hb
  | serve hi =>
    cases hcap with
    | quiet => exact .spkIrq hi
  | press | release | pressRelease => cases ha

theorem AudioEffect.overrun {m : Machine} {e : Env} {v : CaptureSide} {w : PlaySide} {pc : LoopPc}
    {h : LoopLog} (he : AudioEffect m e v w) (ho : h.capture.overrun = true) :
    (h.record ⟨pc, m⟩ (.env e)).capture.overrun = true := by
  cases he with
  | sample => simp [LoopLog.record, CaptureLog.recordEnv, ho]
  | _ => exact ho

theorem AudioEffect.restaged {m : Machine} {e : Env} {v : CaptureSide} {w : PlaySide}
    {pc : LoopPc} {h : LoopLog} (he : AudioEffect m e v w) (hr : h.restaged = true) :
    (h.record ⟨pc, m⟩ (.env e)).restaged = true := by
  cases he <;> exact hr

/-- An audio event keeps the two rings in order, unless its sample overruns a flag. -/
theorem Loop.effect {pc : LoopPc} {m : Machine} {h : LoopLog} {e : Env} {v : CaptureSide}
    {w : PlaySide} {sent taken : ℕ} (hs : Loop pc m.captureSide m.playSide h sent taken)
    (hu : Unraced (⟨pc, m⟩, h) (.env e)) (he : AudioEffect m e v w) :
    (h.record ⟨pc, m⟩ (.env e)).capture.overrun = true ∨
      ∃ taken', Loop pc v w (h.record ⟨pc, m⟩ (.env e)) sent taken' := by
  cases he with
  | @sample x ha =>
    cases hf : CaptureLog.hitsFlag m with
    | true => exact .inl (by simp [LoopLog.record, CaptureLog.recordEnv, hf])
    | false => exact .inr ⟨taken, hs.sample ha hf hu x⟩
  | micIrq hi => exact .inr ⟨taken, hs.flagSlot hi⟩
  | spkTransfer hb => exact .inr ⟨taken, hs.transfer hb⟩
  | spkIrq hi => exact .inr (hs.serve hi)

theorem Sound.env {pc : LoopPc} {m m' : Machine} {h : LoopLog} {e : Env}
    (hs : Sound (⟨pc, m⟩, h)) (hu : Unraced (⟨pc, m⟩, h) (.env e))
    (he : AudioEffect m e m'.captureSide m'.playSide) :
    Sound (⟨pc, m'⟩, h.record ⟨pc, m⟩ (.env e)) := by
  rcases hs with ho | hr | ⟨sent, taken, hs⟩
  · exact .inl (he.overrun ho)
  · exact .inr (.inl (he.restaged hr))
  · rcases hs.effect hu he with ho | ⟨taken', hs'⟩
    · exact .inl ho
    · exact .inr (.inr ⟨sent, taken', hs'⟩)

theorem Sound.step {x y : Cfg LoopPc × LoopLog} {e : Event} (hs : Sound x) (hu : Unraced x e)
    (hstep : loopbackStep x e = some y) : Sound y := by
  obtain ⟨t, h'⟩ := y
  obtain ⟨ht, rfl⟩ := tracked_eq_some.mp hstep
  obtain ⟨rc, rfl, rfl⟩ | ⟨f, m, rfl, ha, hf, rfl⟩ := loopStep_cases ht
  · exact hs.main hu
  · exact hs.env hu (envStep_audioEffect ha hf)

theorem sound_boot : Sound (loopBoot, LoopLog.start) := by
  refine .inr (.inr ⟨0, 0, RingWindow.empty _, ⟨(fun hi => by cases hi), fun _ _ => ⟨rfl, .inl rfl⟩⟩,
    ⟨rfl, rfl, rfl, .inl ⟨0, rfl, rfl, rfl, by decide, rfl, rfl⟩⟩,
    ⟨RingWindow.empty _, .inr ⟨⟨rfl, rfl, rfl, rfl⟩, by decide, rfl⟩⟩, rfl, rfl⟩)

theorem Loop.in_order {pc : LoopPc} {v : CaptureSide} {w : PlaySide} {h : LoopLog}
    {sent taken : ℕ} (hs : Loop pc v w h sent taken) :
    h.played <+: h.capture.samples.map UInt8.toUInt32 := by
  refine hs.playback.in_order.trans ?_
  have hc : serial h.chunks <+: serial (h.capture.captured.map words) := by
    rw [hs.copied]
    exact serial_prefix ((List.take_prefix _ _).map _)
  rw [show h.capture.captured.map words = h.capture.captured.map fun c i => (c i).toUInt32 from rfl,
    serial_map] at hc
  exact hc.trans (hs.filling.in_order.map _)

/-- Until one of the rings is overrun, in every run without a race: channel 1 plays the
samples of channel 0 in order, each one once, and outside `spk_loopback_push` it does not
stand still while a staged sample is unplayed. -/
theorem loopback_plays_samples {es : List Event} {x : Cfg LoopPc × LoopLog}
    (hu : Along loopbackStep Unraced (loopBoot, LoopLog.start) es)
    (hr : run loopbackStep (loopBoot, LoopLog.start) es = some x)
    (ho : x.2.capture.overrun = false) (hx : x.2.restaged = false) :
    x.2.played <+: x.2.capture.samples.map UInt8.toUInt32 ∧
      (x.1.pc.inPush = false → (∃ c, x.1.m.rxChunkReady c = true) →
        x.1.m.spk.busy = true ∨ x.1.m.spk.irq = true) := by
  have hs : Sound x := hu.invariant Sound (fun _ _ _ hi hc ht => hi.step hc ht) sound_boot hr
  rcases hs with hc | hc | ⟨sent, taken, hs⟩
  · cases ho.symm.trans hc
  · cases hx.symm.trans hc
  · refine ⟨hs.in_order, fun hp hc => ?_⟩
    have hb := hs.playback
    have haway : restartOf x.1.pc = .away := by
      cases hpc : x.1.pc <;> simp_all [LoopPc.inPush, restartOf]
    rw [haway] at hb
    exact hb.not_stalled hc

/-- Two chunks sampled and pushed, the first one played. -/
def loopTwoChunks : List Event :=
  samples 60 ++ [.env .micIrq] ++ mains 69 ++ plays 30 ++ samples 60 ++ [.env .micIrq] ++ plays 20 ++
    mains 69 ++ plays 20

def loopTwoChunksEnd : Cfg LoopPc × LoopLog :=
  ends loopbackStep (loopBoot, LoopLog.start) loopTwoChunks (by decide +kernel)

theorem loopback_plays_samples_two :
    loopTwoChunksEnd.2.played <+: loopTwoChunksEnd.2.capture.samples.map UInt8.toUInt32 :=
  (loopback_plays_samples (x := loopTwoChunksEnd) (by decide +kernel) (run_ends _) (by decide +kernel)
    (by decide +kernel)).1

/-- Two chunks, both played out between the flag of the second and the test after it. -/
def loopDrained : List Event :=
  samples 60 ++ [.env .micIrq] ++ mains 69 ++ samples 60 ++ [.env .micIrq] ++ mains 63 ++
    plays 120 ++ mains 6 ++ [.env .spkTransfer]

/-- The channel is restarted on an empty ring and plays a word that was never sampled. -/
theorem loopback_restart_plays_stale_word :
    ∃ x, run loopbackStep (loopBoot, LoopLog.start) loopDrained = some x ∧
      x.2.capture.overrun = false ∧ x.2.restaged = false ∧
      ¬ x.2.played <+: x.2.capture.samples.map UInt8.toUInt32 :=
  exists_of_run_any (by decide +kernel)

end WalkieTalkie.LoopbackFifo
