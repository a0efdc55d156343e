import WalkieTalkie.ButtonLatch
import WalkieTalkie.CaptureSide
import WalkieTalkie.RingWindow
import WalkieTalkie.SerialBlocks

/-!
# Every slot flagged in a press session holds the next sixty samples

While the device listens channel 0 is at rest: its converter is stopped and, if it has
been left busy, it still has a whole chunk to go. While the device talks the slot at the
write index holds the samples behind the chunks already flagged.
-/
namespace WalkieTalkie.CaptureIntegrity
open PartialRuns ButtonLatch

/-- Channel 0 while the device listens. -/
structure Resting (v : CaptureSide) (h : CaptureLog) : Prop where
  stopped : v.adcOn = false
  reload : v.mic.reload = chunkSize
  whole : v.mic.busy = true → v.mic.left = chunkSize
  unserved : v.mic.irq = true → h.unserved = true

/-- The slot at the write index has its first `n` samples, and takes the next one. -/
structure InSlot (v : CaptureSide) (h : CaptureLog) (n : ℕ) : Prop where
  quiet : v.mic.irq = false
  busy : v.mic.busy = true
  left : v.mic.left + n = chunkSize
  more : n < chunkSize
  addr : v.mic.writeAddr = chunkSize * (v.dmaWriteInd : ℕ) + n
  samples : h.samples = serial h.captured ++ (List.ofFn (v.txRing v.dmaWriteInd)).take n

/-- The slot at the write index is full and waits for its interrupt to be served. -/
structure Full (v : CaptureSide) (h : CaptureLog) : Prop where
  irq : v.mic.irq = true
  whole : v.mic.busy = true → v.mic.left = chunkSize
  samples : h.samples = serial h.captured ++ List.ofFn (v.txRing v.dmaWriteInd)

/-- Channel 0 while the device talks. -/
structure Filling (v : CaptureSide) (h : CaptureLog) : Prop where
  running : v.adcOn = true
  reload : v.mic.reload = chunkSize
  fresh : h.oldIrq = false
  phase : (∃ n, InSlot v h n) ∨ Full v h

theorem Resting.trigger {v : CaptureSide} {h : CaptureLog} (hs : Resting v h) :
    Resting { v with mic := v.mic.trigger } h := by
  refine ⟨hs.stopped, by simpa using hs.reload, fun _ => ?_, by simpa using hs.unserved⟩
  exact (MicChannel.trigger_left fun hb => (hs.whole hb).trans hs.reload.symm).trans hs.reload

theorem Resting.flagSlot {v : CaptureSide} {h : CaptureLog} (hs : Resting v h)
    (cs : List (Chunk UInt8)) :
    Resting v.flagSlot { h with captured := cs, oldIrq := false, unserved := false } := by
  refine ⟨hs.stopped, ?_, fun _ => MicChannel.setTransCount_left hs.whole, fun hi => ?_⟩
  · simp [CaptureSide.flagSlot]
  · simp [CaptureSide.flagSlot] at hi

theorem resting_release {v : CaptureSide} {h : CaptureLog} (hr : v.mic.reload = chunkSize)
    (hu : v.mic.irq = true → h.unserved = true) : Resting v.release h :=
  ⟨rfl, hr, (fun hb => by cases hb), hu⟩

/-- The trigger of a press that finds the channel busy is ignored, but what the channel
was left with is a whole chunk. -/
theorem Resting.press {v : CaptureSide} {h h' : CaptureLog} (hs : Resting v h)
    (hu : h.unserved = false) (hf : h'.oldIrq = false) (hc : h'.captured = [])
    (hm : h'.samples = []) : Filling v.press h' := by
  have hi : v.mic.irq = false := by
    cases hi : v.mic.irq with
    | false => rfl
    | true => cases hu.symm.trans (hs.unserved hi)
  have hl : v.press.mic.left = chunkSize := MicChannel.setTransCount_left hs.whole
  refine ⟨rfl, by simp [CaptureSide.press], hf, .inl ⟨0, ?_, ?_, hl, by decide, ?_, ?_⟩⟩
  · simpa [CaptureSide.press] using hi
  · simp [CaptureSide.press]
  · simp [CaptureSide.press]
  · simp [hm, hc]

theorem Filling.trigger {v : CaptureSide} {h : CaptureLog} (hs : Filling v h) :
    Filling { v with mic := v.mic.trigger } h := by
  obtain ⟨hru, hre, hfr, ⟨n, hn⟩ | hn⟩ := hs
  · rw [MicChannel.trigger_of_busy hn.busy]
    exact ⟨hru, hre, hfr, .inl ⟨n, hn⟩⟩
  · refine ⟨hru, by simpa using hre, hfr, .inr ⟨by simpa using hn.irq, fun _ => ?_, hn.samples⟩⟩
    exact (MicChannel.trigger_left fun hb => (hn.whole hb).trans hre.symm).trans hre

/-- The slot at the write index after the sample that is its number `n`. -/
theorem take_sample {v : CaptureSide} {n : ℕ} (hn : n < chunkSize)
    (ha : v.mic.writeAddr = chunkSize * (v.dmaWriteInd : ℕ) + n) (x : UInt8) :
    (List.ofFn ((v.sample x).txRing v.dmaWriteInd)).take (n + 1) =
      (List.ofFn (v.txRing v.dmaWriteInd)).take n ++ [x] := by
  have hslot : ∀ i : Sample, (v.sample x).txRing v.dmaWriteInd i =
      if (i : ℕ) = n then x else v.txRing v.dmaWriteInd i := by
    intro i
    simp [CaptureSide.sample, ringAddr, ha]
  have hstep := take_ofFn_succ ((v.sample x).txRing v.dmaWriteInd) ⟨n, hn⟩
  rw [hstep, hslot, if_pos rfl]
  congr 1
  apply take_ofFn_congr
  intro i (hi : (i : ℕ) < n)
  rw [hslot, if_neg (by omega)]

/-- A sample goes behind the ones the slot already has. -/
theorem Filling.sample {v : CaptureSide} {h h' : CaptureLog} (hs : Filling v h)
    (hi : v.mic.irq = false) (x : UInt8)
    (hh : h' = { h with samples := h.samples ++ [x], overrun := h'.overrun }) :
    Filling (v.sample x) h' := by
  obtain ⟨hru, hre, hfr, ⟨n, hn⟩ | hn⟩ := hs
  swap
  · cases hi.symm.trans hn.irq
  have hsm := take_sample hn.more hn.addr x
  have hl := hn.left
  have hm := hn.more
  simp only [chunkSize] at hl hm
  rw [hh]
  by_cases hlast : v.mic.left ≤ 1
  · have hadv : v.mic.advance =
        { v.mic with writeAddr := v.mic.writeAddr + 1, left := 0, busy := false, irq := true } := by
      rw [MicChannel.advance, if_pos hlast]
    rw [List.take_of_length_le (by simp; omega)] at hsm
    refine ⟨hru, ?_, hfr, .inr ⟨?_, ?_, ?_⟩⟩
    · simpa [CaptureSide.sample, hadv] using hre
    · simp [CaptureSide.sample, hadv]
    · simp [CaptureSide.sample, hadv]
    · simp only [hn.samples, List.append_assoc, ← hsm]
      rfl
  · have hadv : v.mic.advance =
        { v.mic with writeAddr := v.mic.writeAddr + 1, left := v.mic.left - 1 } := by
      rw [MicChannel.advance, if_neg hlast]
    refine ⟨hru, ?_, hfr, .inl ⟨n + 1, ?_, ?_, ?_, ?_, ?_, ?_⟩⟩
    · simpa [CaptureSide.sample, hadv] using hre
    · simpa [CaptureSide.sample, hadv] using hi
    · simpa [CaptureSide.sample, hadv] using hn.busy
    · simp only [CaptureSide.sample, hadv, chunkSize]
      omega
    · simp only [chunkSize]
      omega
    · simp only [CaptureSide.sample, hadv, hn.addr]
      omega
    · simp only [hn.samples, List.append_assoc, ← hsm]
      rfl

theorem Filling.flagSlot {v : CaptureSide} {h : CaptureLog} (hs : Filling v h)
    (hi : v.mic.irq = true) :
    Filling v.flagSlot { h with
      captured := h.captured ++ [v.txRing v.dmaWriteInd], oldIrq := false, unserved := false } := by
  obtain ⟨hru, hre, hfr, ⟨n, hn⟩ | hn⟩ := hs
  · cases hn.quiet.symm.trans hi
  have hl : v.flagSlot.mic.left = chunkSize := MicChannel.setTransCount_left hn.whole
  refine ⟨hru, by simp [CaptureSide.flagSlot], rfl, .inl ⟨0, ?_, ?_, hl, by decide, ?_, ?_⟩⟩
  · simp [CaptureSide.flagSlot]
  · simp [CaptureSide.flagSlot]
  · simp [CaptureSide.flagSlot]
  · simpa using hn.samples

theorem edge_of_accepts {m : Machine} {t : UInt32} (ha : m.accepts t = true) :
    m.pin.rise = true ∨ m.pin.fall = true := by
  simp only [Machine.accepts, Pin.events, Events.isEmpty, Bool.and_eq_true] at ha
  cases hr : m.pin.rise <;> cases hf : m.pin.fall <;> simp_all

/-- What the flagged slots and the slot being filled hold is what was sampled. -/
theorem Filling.in_order {v : CaptureSide} {h : CaptureLog} (hs : Filling v h) :
    serial h.captured <+: h.samples := by
  rcases hs.phase with ⟨n, hn⟩ | hn
  · rw [hn.samples]
    exact List.prefix_append _ _
  · rw [hn.samples]
    exact List.prefix_append _ _

/-- The button's edges alternate, so a latched event of a talking device is a release. -/
structure Held (m : Machine) : Prop where
  single : SingleEdge m.pin
  talking : m.state = .tx → m.pin.fall = true ∨ (m.pin.rise = false ∧ m.pin.level = true)

theorem Held.effect {m m' : Machine} {e : Event} (hs : Held m) (he : ButtonEffect m e m') :
    Held m' := by
  refine ⟨hs.single.effect he, ?_⟩
  cases he with
  | other hp hst => simpa [hp, hst] using hs.talking
  | edge hp hst =>
    rw [hp, hst]
    intro ht
    rcases hs.talking ht with hf | ⟨hr, hl⟩
    · cases hl : m.pin.level <;> simp [Pin.edge, hl, hf]
    · simp [Pin.edge, hl]
  | entry ha hp hst =>
    rw [hp, hst]
    intro ht
    cases hf : m.pin.fall with
    | true => simp [hf] at ht
    | false =>
      rcases edge_of_accepts ha with hr | hf'
      · exact .inr ⟨rfl, hs.single.1 hr hf⟩
      · cases hf.symm.trans hf'

/-- An accepted entry of a talking device carries FALL. -/
theorem Held.fall {m : Machine} {t : UInt32} (hs : Held m) (hst : m.state = .tx)
    (ha : m.accepts t = true) : m.pin.fall = true := by
  rcases hs.talking hst with hf | ⟨hr, _⟩
  · exact hf
  · rcases edge_of_accepts ha with hr' | hf
    · cases hr.symm.trans hr'
    · exact hf

theorem state_of_quiet {m m' : Machine} {e : Env} (hb : ButtonEffect m (.env e) m')
    (hn : ∀ t, e = .pbIrq t → m.accepts t = false) : m'.state = m.state := by
  cases hb with
  | other _ hst => exact hst
  | edge _ hst => exact hst
  | entry ha => cases ha.symm.trans (hn _ rfl)

theorem state_of_entry {m m' : Machine} {t : UInt32} (hb : ButtonEffect m (.env (.pbIrq t)) m')
    (ha : m.accepts t = true) : m'.state = if m.pin.fall then .rx else .tx := by
  cases hb with
  | other _ _ _ hn => cases ha.symm.trans (hn t rfl)
  | entry _ _ hst => exact hst

/-- Channel 0 is where the talk state says it should be. -/
def Ordered (st : LoraState) (v : CaptureSide) (h : CaptureLog) : Prop :=
  match st with
  | .rx => Resting v h
  | .tx => Filling v h

/-- A microphone interrupt left pending by an accepted entry of the button handler has been
served before the next one. -/
def ServedBefore (x : Cfg Pc × CaptureLog) : Event → Prop
  | .env (.pbIrq t) => x.1.m.accepts t = true → x.2.unserved = false
  | _ => True

instance (x : Cfg Pc × CaptureLog) (e : Event) : Decidable (ServedBefore x e) := by
  induction e using Event.casesOn with
  | main rc => exact isTrue trivial
  | env e => induction e using Env.casesOn <;> unfold ServedBefore <;> infer_instance

/-- No sample goes through channel 0 while DMA_IRQ_0 is pending. -/
def WaitsForIrq (x : Cfg Pc × CaptureLog) : Event → Prop
  | .env (.sample _) => x.1.m.mic.irq = false
  | _ => True

instance (x : Cfg Pc × CaptureLog) (e : Event) : Decidable (WaitsForIrq x e) := by
  induction e using Event.casesOn with
  | main rc => exact isTrue trivial
  | env e => induction e using Env.casesOn <;> unfold WaitsForIrq <;> infer_instance

theorem Ordered.reload {st : LoraState} {v : CaptureSide} {h : CaptureLog}
    (hs : Ordered st v h) : v.mic.reload = chunkSize := by
  cases st with
  | rx => exact Resting.reload hs
  | tx => exact Filling.reload hs

theorem Ordered.trigger {st : LoraState} {v : CaptureSide} {h : CaptureLog}
    (hs : Ordered st v h) : Ordered st { v with mic := v.mic.trigger } h := by
  cases st with
  | rx => exact Resting.trigger hs
  | tx => exact Filling.trigger hs

theorem Ordered.sample {st : LoraState} {v : CaptureSide} {h h' : CaptureLog}
    (hs : Ordered st v h) (ha : v.adcOn = true) (hi : v.mic.irq = false) (x : UInt8)
    (hh : h' = { h with samples := h.samples ++ [x], overrun := h'.overrun }) :
    Ordered st (v.sample x) h' := by
  cases st with
  | rx => cases (Resting.stopped hs).symm.trans ha
  | tx => exact Filling.sample hs hi x hh

theorem Ordered.flagSlot {st : LoraState} {m : Machine} {h : CaptureLog}
    (hs : Ordered st m.captureSide h) (hi : m.mic.irq = true) :
    Ordered st m.captureSide.flagSlot (h.recordEnv m .micIrq) := by
  cases st with
  | rx => exact Resting.flagSlot hs _
  | tx =>
    simp only [CaptureLog.recordEnv, Filling.fresh hs, Bool.false_eq_true, if_false]
    exact Filling.flagSlot hs hi

theorem Ordered.effect {m m' : Machine} {pc : Pc} {h : CaptureLog} {e : Env} (hh : Held m)
    (hs : Ordered m.state m.captureSide h) (hb : ButtonEffect m (.env e) m')
    (hsv : ServedBefore (⟨pc, m⟩, h) (.env e)) (hw : WaitsForIrq (⟨pc, m⟩, h) (.env e))
    (he : CaptureSide.Effect m e m'.captureSide) :
    Ordered m'.state m'.captureSide (h.recordEnv m e) := by
  generalize m'.captureSide = v at he
  cases he with
  | quiet hq =>
    rw [CaptureLog.recordEnv_quiet hq, state_of_quiet hb (by rintro t rfl; exact hq)]
    exact hs
  | chain =>
    rw [state_of_quiet hb (by simp)]
    exact hs.trigger
  | @sample x ha =>
    rw [state_of_quiet hb (by simp)]
    exact hs.sample ha hw x rfl
  | flagSlot hi =>
    rw [state_of_quiet hb (by simp)]
    exact hs.flagSlot hi
  | press ha hr hf =>
    have hrx : m.state = .rx := by
      cases hst : m.state with
      | rx => rfl
      | tx => cases hf.symm.trans (hh.fall hst ha)
    rw [hrx] at hs
    rw [state_of_entry hb ha, hf]
    refine Resting.press hs (hsv ha) ?_ ?_ ?_ <;>
      simp only [CaptureLog.recordEnv, ha, hr, if_true, CaptureLog.start]
    cases hi : m.mic.irq with
    | false => rfl
    | true => cases (hsv ha).symm.trans (Resting.unserved hs hi)
  | release ha hr hf =>
    rw [state_of_entry hb ha, hf]
    refine resting_release hs.reload fun hi => ?_
    simp only [CaptureLog.recordEnv, ha, hr, if_true, Bool.false_eq_true, if_false]
    exact hi
  | pressRelease ha hr hf =>
    rw [state_of_entry hb ha, hf]
    refine resting_release (by simp [CaptureSide.press]) fun hi => ?_
    simpa [CaptureLog.recordEnv, ha, hr, CaptureSide.press, Machine.captureSide] using hi

/-- Flags, the read index and the record of transmissions do not matter to channel 0. -/
theorem Ordered.congr {st : LoraState} {v v' : CaptureSide} {h h' : CaptureLog}
    (hs : Ordered st v h)
    (hv : v' = { v with txChunkReady := v'.txChunkReady, loraReadInd := v'.loraReadInd })
    (hh : h' = { h with sent := h'.sent, live := h'.live, stale := h'.stale }) :
    Ordered st v' h' := by
  rw [hv, hh]
  cases st with
  | rx =>
    obtain ⟨hst, hre, hwh, hun⟩ := hs
    exact ⟨hst, hre, hwh, hun⟩
  | tx =>
    obtain ⟨hru, hre, hfr, ⟨n, hq, hb, hl, hm, ha, hsm⟩ | ⟨hi, hw, hsm⟩⟩ := hs
    · exact ⟨hru, hre, hfr, .inl ⟨n, hq, hb, hl, hm, ha, hsm⟩⟩
    · exact ⟨hru, hre, hfr, .inr ⟨hi, hw, hsm⟩⟩

theorem Ordered.main {pc : Pc} {m : Machine} {h : CaptureLog} (rc : Int)
    (hs : Ordered m.state m.captureSide h) :
    Ordered (mainStep rc m pc).2.state (mainStep rc m pc).2.captureSide (h.recordMain pc rc) := by
  rw [(mainStep_button rc m pc).2.1]
  refine hs.congr ?_ ?_
  · cases pc <;> rfl
  · cases pc <;> simp only [CaptureLog.recordMain]
    split_ifs <;> rfl

structure Integrity (x : Cfg Pc × CaptureLog) : Prop where
  held : Held x.1.m
  ordered : Ordered x.1.m.state x.1.m.captureSide x.2

theorem Integrity.step {x y : Cfg Pc × CaptureLog} {e : Event} (hs : Integrity x)
    (hc : ServedBefore x e ∧ WaitsForIrq x e) (hstep : sessionStep x e = some y) :
    Integrity y := by
  obtain ⟨t, h'⟩ := y
  obtain ⟨ht, rfl⟩ := tracked_eq_some.mp hstep
  refine ⟨hs.held.effect (step_buttonEffect ht), ?_⟩
  obtain ⟨rc, rfl, rfl⟩ | ⟨f, m, rfl, hf, rfl⟩ := step_cases ht
  · exact hs.ordered.main rc
  · exact hs.ordered.effect hs.held (envStep_buttonEffect hf) hc.1 hc.2
      (CaptureSide.envStep_effect hf)

theorem integrity_boot : Integrity (boot, CaptureLog.start) :=
  ⟨⟨⟨by simp [boot, bootMachine], by simp [boot, bootMachine]⟩, fun ht => by cases ht⟩,
    ⟨rfl, rfl, (fun hb => by cases hb), fun hi => by cases hi⟩⟩

/-- In every run in which no sample goes through channel 0 while its interrupt is pending,
the slot flagged in `STATE_TX` holds the sixty samples taken behind the chunks flagged
since the press. -/
theorem flagged_slot_holds_samples {es : List Event} {x : Cfg Pc × CaptureLog}
    (hc : Along sessionStep (fun x e => ServedBefore x e ∧ WaitsForIrq x e)
      (boot, CaptureLog.start) es)
    (hr : run sessionStep (boot, CaptureLog.start) es = some x)
    (hst : x.1.m.state = .tx) (hi : x.1.m.mic.irq = true) :
    x.2.samples = serial x.2.captured ++ List.ofFn (x.1.m.txRing x.1.m.dmaWriteInd) := by
  have hx : Integrity x := hc.invariant Integrity (fun _ _ _ hi hc ht => hi.step hc ht)
    integrity_boot hr
  have ho := hx.ordered
  rw [hst] at ho
  rcases Filling.phase ho with ⟨n, hn⟩ | hn
  · cases hn.quiet.symm.trans hi
  · exact hn.samples

/-- A release with a microphone interrupt pending, and the first chunk of the next press. -/
def releaseWhilePending : List Event :=
  mains 6 ++ button 100000 ++ samples 60 ++ button 200000 ++ [.env .micIrq] ++ button 300000 ++
    samples 60

def releaseWhilePendingEnd : Cfg Pc × CaptureLog :=
  ends sessionStep (boot, CaptureLog.start) releaseWhilePending (by decide +kernel)

theorem flagged_slot_holds_samples_again :
    releaseWhilePendingEnd.2.samples = serial releaseWhilePendingEnd.2.captured ++
      List.ofFn (releaseWhilePendingEnd.1.m.txRing releaseWhilePendingEnd.1.m.dmaWriteInd) :=
  flagged_slot_holds_samples (by decide +kernel) (run_ends _) (by decide +kernel)
    (by decide +kernel)

/-- A press finds a speaker interrupt pending; the transfer it starts ends between the end of
the first chunk and the microphone handler. -/
def chainedTrigger : List Event :=
  mains 6 ++ [.env (.payload (List.replicate chunkSize 7)), .env (.radioIrq .payloadReady)] ++
    mains 74 ++ [.env .spkTransfer] ++ button 100000 ++ [.env .spkIrq] ++ samples 60 ++
    [.env .spkTransfer] ++ samples 1 ++ [.env .micIrq] ++ samples 59

/-- The second slot is flagged with fifty-nine new samples and a byte that was never
sampled. -/
theorem chained_trigger_cuts_chunk :
    Along sessionStep ServedBefore (boot, CaptureLog.start) chainedTrigger ∧
      ∃ x, run sessionStep (boot, CaptureLog.start) chainedTrigger = some x ∧
        x.1.m.state = .tx ∧ x.1.m.mic.irq = true ∧
        ¬ List.ofFn (x.1.m.txRing x.1.m.dmaWriteInd) <:+: x.2.samples :=
  ⟨by decide +kernel, exists_of_run_any (by decide +kernel)⟩

end WalkieTalkie.CaptureIntegrity
