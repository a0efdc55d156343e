import WalkieTalkie.LappedRing
import WalkieTalkie.ReceiveFifo

/-!
# The staging ring when packets come faster than they play

`main` stages a packet over one that has not been played and never looks at the flag. The
channel is started at the first sample of a flagged chunk all the same, and the distance of
the two indices tells how many packets have been overwritten. The indices come together
again as long as the handler does not pass the write index.
-/
namespace WalkieTalkie.PlaybackResync
open PartialRuns ReceiveFifo

/-- Count the packets that are flagged over one that has not been played. -/
def recordOverwritten (s : Cfg Pc) (e : Event) (n : ℕ) : ℕ :=
  match e with
  | .main _ => match s.pc with
    | .stageFlag => if s.m.rxChunkReady s.m.rxWriteInd then n + 1 else n
    | _ => n
  | .env _ => n

def lapStep : Cfg Pc × ℕ → Event → Option (Cfg Pc × ℕ) := tracked step recordOverwritten

/-- The button is left alone, and line 192 finds the channel disabled only with the flag of its
slot up. -/
def Timely (x : Cfg Pc × ℕ) : Event → Prop
  | .main _ => match x.1.pc with
    | .restartTest => x.1.m.spk.en = false → x.1.m.rxChunkReady x.1.m.spkReadChunkInd = true
    | _ => True
  | .env (.pbIrq t) => x.1.m.accepts t = false
  | .env _ => True

instance (x : Cfg Pc × ℕ) (e : Event) : Decidable (Timely x e) := by
  induction e using Event.casesOn with
  | main rc =>
    unfold Timely
    generalize x.1.pc = pc
    induction pc using Pc.casesOn <;> infer_instance
  | env e => induction e using Env.casesOn <;> unfold Timely <;> infer_instance

/-- The chunk at the write index is finished only with all flags up. -/
def Unpassed (x : Cfg Pc × ℕ) : Event → Prop
  | .env .spkIrq => (x.1.m.spkReadPacketInd : ℕ) + 1 = chunkSize →
      writeInd x.1.pc x.1.m = x.1.m.spkReadChunkInd → ∀ c, x.1.m.rxChunkReady c = true
  | _ => True

instance (x : Cfg Pc × ℕ) (e : Event) : Decidable (Unpassed x e) := by
  induction e using Event.casesOn with
  | main rc => exact isTrue trivial
  | env e => induction e using Env.casesOn <;> unfold Unpassed <;> infer_instance

variable {v : PlaySide}

def Flagged (v : PlaySide) : Prop := v.rxChunkReady v.spkReadChunkInd = true

/-- A transfer is outstanding, or done and not served. -/
structure Active (v : PlaySide) : Prop where
  enabled : v.spk.en = true
  busy_eq : v.spk.busy = !v.spk.irq
  flagged : Flagged v

/-- The channel has nothing outstanding and stands at the first sample of a chunk. -/
structure Still (v : PlaySide) : Prop where
  idle : v.spk.busy = false
  served : v.spk.irq = false
  first : v.spkReadPacketInd = 0

/-- What the channel is doing while `main` is there. -/
def Stage (v : PlaySide) : Restart → Prop
  | .away => Active v ∨ Still v ∧ v.spk.en = false ∧ ¬ Flagged v
  | .published => Active v ∨ Still v ∧ v.spk.en = false
  | .chosen => Still v ∧ v.spk.en = false ∧ Flagged v
  | .addressed => Still v ∧ v.spk.en = false ∧ Flagged v ∧
      v.spk.readAddr = .staging v.spkReadChunkInd 0
  | .enabled => Still v ∧ v.spk.en = true ∧ Flagged v ∧
      v.spk.readAddr = .staging v.spkReadChunkInd 0

structure Coherent (r : Restart) (v : PlaySide) (wr : RxSlot) (overwritten : ℕ) : Prop where
  apart : Apart v.rxChunkReady v.spkReadChunkInd wr overwritten
  stage : Stage v r

/-- The handler ends a chunk, or goes on within it. -/
inductive Served (v : PlaySide) : PlaySide → Prop
  | next {w : PlaySide} (hs : w.rxChunkReady = v.rxChunkReady)
      (hr : w.spkReadChunkInd = v.spkReadChunkInd) (hw : Active w) : Served v w
  | last {w : PlaySide} (hp : (v.spkReadPacketInd : ℕ) + 1 = chunkSize)
      (hs : w.rxChunkReady = Function.update v.rxChunkReady v.spkReadChunkInd false)
      (hr : w.spkReadChunkInd = v.spkReadChunkInd + 1)
      (hw : Active w ∨ Still w ∧ w.spk.en = false ∧ ¬ Flagged w) : Served v w

theorem Active.outstanding (h : Active v) (hb : v.spk.busy = false) : v.spk.irq = true := by
  simpa [hb] using h.busy_eq

theorem Active.serve (h : Active v) (hi : v.spk.irq = true) : Served v v.serve := by
  have hb : v.spk.busy = false := by simpa [hi] using h.busy_eq
  by_cases hlast : (v.spkReadPacketInd : ℕ) + 1 < chunkSize
  · rw [PlaySide.serve_next hlast h.flagged]
    refine .next rfl rfl ⟨h.enabled, ?_, h.flagged⟩
    simpa using .inr h.enabled
  · have hpk : (v.spkReadPacketInd : ℕ) + 1 = chunkSize := by
      have := v.spkReadPacketInd.isLt
      omega
    by_cases hn : Function.update v.rxChunkReady v.spkReadChunkInd false
        (v.spkReadChunkInd + 1) = true
    · rw [PlaySide.serve_last hlast hn]
      refine .last hpk rfl rfl (.inl ⟨h.enabled, ?_, hn⟩)
      simpa using .inr h.enabled
    · rw [PlaySide.serve_last_empty hlast hn]
      exact .last hpk rfl rfl (.inr ⟨⟨hb, rfl, rfl⟩, SpkChannel.en_disable _, hn⟩)

namespace Coherent

variable {r : Restart} {wr : RxSlot} {overwritten : ℕ}

/-- Only an active channel is busy or has its interrupt pending, and it is not being restarted. -/
theorem active (h : Coherent r v wr overwritten) (hb : v.spk.busy = true ∨ v.spk.irq = true) :
    Active v ∧ (r = .away ∨ r = .published) := by
  have hq : ¬ Still v := by
    intro hq
    rcases hb with hb | hb
    · cases hq.idle.symm.trans hb
    · cases hq.served.symm.trans hb
  have hs := h.stage
  cases r with
  | away => exact ⟨hs.resolve_right fun hn => hq hn.1, .inl rfl⟩
  | published => exact ⟨hs.resolve_right fun hn => hq hn.1, .inr rfl⟩
  | chosen | addressed | enabled => exact absurd hs.1 hq

theorem stage_of (hr : r = .away ∨ r = .published)
    (hv : Active v ∨ Still v ∧ v.spk.en = false ∧ ¬ Flagged v) : Stage v r := by
  rcases hr with rfl | rfl
  · exact hv
  · exact hv.imp_right fun h => ⟨h.1, h.2.1⟩

theorem transfer (h : Coherent r v wr overwritten) (hb : v.spk.busy = true) :
    Coherent r v.transfer wr overwritten := by
  obtain ⟨ha, hr⟩ := h.active (.inl hb)
  exact ⟨h.apart, stage_of hr (.inl ⟨ha.enabled, rfl, ha.flagged⟩)⟩

theorem serve (h : Coherent r v wr overwritten) (hi : v.spk.irq = true) :
    Coherent r v.serve wr overwritten := by
  obtain ⟨ha, hr⟩ := h.active (.inr hi)
  have hv := ha.serve hi
  generalize v.serve = w at hv
  cases hv with
  | next hs hr' hw => exact ⟨by rw [hs, hr']; exact h.apart, stage_of hr (.inl hw)⟩
  | last _ hs hr' hw => exact ⟨by rw [hs, hr']; exact h.apart.pop ha.flagged, stage_of hr hw⟩

theorem publish (h : Coherent .away v wr overwritten) :
    Coherent .published { v with rxChunkReady := Function.update v.rxChunkReady wr true } (wr + 1)
      (if v.rxChunkReady wr then overwritten + 1 else overwritten) := by
  refine ⟨?_, ?_⟩
  · split_ifs with hf
    · exact h.apart.overwrite hf
    · exact h.apart.push (by simpa using hf)
  · rcases h.stage with ⟨he, hb, hf⟩ | ⟨⟨h1, h2, h3⟩, he, _⟩
    · refine .inl ⟨he, hb, ?_⟩
      by_cases hw : v.spkReadChunkInd = wr
      · simp [Flagged, hw]
      · simpa [Flagged, Function.update_of_ne hw] using hf
    · exact .inr ⟨⟨h1, h2, h3⟩, he⟩

/-- The staged samples do not matter here. -/
theorem stage_sample (h : Coherent r v wr overwritten) (staging : RxSlot → Chunk UInt32) :
    Coherent r { v with spkStaging := staging } wr overwritten := by
  refine ⟨h.apart, ?_⟩
  have hs := h.stage
  cases r with
  | away | published =>
    rcases hs with ⟨h1, h2, h3⟩ | ⟨⟨h1, h2, h3⟩, h4⟩
    · exact .inl ⟨h1, h2, h3⟩
    · exact .inr ⟨⟨h1, h2, h3⟩, h4⟩
  | chosen | addressed | enabled =>
    obtain ⟨⟨h1, h2, h3⟩, h4⟩ := hs
    exact ⟨⟨h1, h2, h3⟩, h4⟩

theorem leave (h : Coherent .published v wr overwritten) (he : v.spk.en = true) :
    Coherent .away v wr overwritten := by
  rcases h.stage with hr | ⟨_, hd⟩
  · exact ⟨h.apart, .inl hr⟩
  · cases hd.symm.trans he

theorem choose (h : Coherent .published v wr overwritten) (he : v.spk.en = false)
    (hf : Flagged v) : Coherent .chosen v wr overwritten := by
  rcases h.stage with ha | ⟨hq, _⟩
  · cases he.symm.trans ha.enabled
  · exact ⟨h.apart, hq, he, hf⟩

theorem setReadAddr (h : Coherent .chosen v wr overwritten) :
    Coherent .addressed { v with spk := v.spk.setReadAddr (.staging v.spkReadChunkInd 0) } wr
      overwritten := by
  obtain ⟨hw, ⟨h1, h2, h3⟩, he, hf⟩ := h
  exact ⟨hw, ⟨h1, h2, h3⟩, he, hf, rfl⟩

theorem enable (h : Coherent .addressed v wr overwritten) :
    Coherent .enabled { v with spk := v.spk.enable } wr overwritten := by
  obtain ⟨hw, ⟨h1, h2, h3⟩, _, hf, ha⟩ := h
  exact ⟨hw, ⟨h1, h2, h3⟩, SpkChannel.en_enable _, hf, ha⟩

theorem trigger (h : Coherent .enabled v wr overwritten) :
    Coherent .away { v with spk := v.spk.trigger } wr overwritten := by
  obtain ⟨hw, ⟨h1, h2, _⟩, he, hf, _⟩ := h
  refine ⟨hw, .inl ⟨he, ?_, hf⟩⟩
  simp [SpkChannel.trigger, h1, h2, he]

end Coherent

/-- At rest the ring is empty or holds the one chunk the channel stands at. -/
structure InStep (v : PlaySide) (wr : RxSlot) (taken write up : ℕ) : Prop where
  ring : LappedRing v.rxChunkReady v.spkReadChunkInd wr taken write up
  rest : v.spk.busy = false → v.spk.irq = false → taken < up → write = taken + 1 ∧ up = taken + 1

/-- A channel that is active is not at rest, and one that has stopped finds no flag. -/
theorem InStep.of_ring {wr : RxSlot} {taken write up : ℕ}
    (h : LappedRing v.rxChunkReady v.spkReadChunkInd wr taken write up)
    (hv : Active v ∨ Still v ∧ v.spk.en = false ∧ ¬ Flagged v) : InStep v wr taken write up := by
  refine ⟨h, fun hb hi ht => ?_⟩
  rcases hv with ha | ⟨_, _, hn⟩
  · cases (ha.outstanding hb).symm.trans hi
  · exact absurd (h.ready_read.mpr ht) hn

/-- What a statement of `main` does to the play side, the write index and the count. -/
inductive Move (v : PlaySide) (wr : RxSlot) (n : ℕ) :
    Restart → Restart → PlaySide → RxSlot → ℕ → Prop
  | stage {r : Restart} (staging : RxSlot → Chunk UInt32) :
      Move v wr n r r { v with spkStaging := staging } wr n
  | publish : Move v wr n .away .published
      { v with rxChunkReady := Function.update v.rxChunkReady wr true } (wr + 1)
      (if v.rxChunkReady wr then n + 1 else n)
  | leave (he : v.spk.en = true) : Move v wr n .published .away v wr n
  | choose (he : v.spk.en = false) (hf : Flagged v) : Move v wr n .published .chosen v wr n
  | setReadAddr : Move v wr n .chosen .addressed
      { v with spk := v.spk.setReadAddr (.staging v.spkReadChunkInd 0) } wr n
  | enable : Move v wr n .addressed .enabled { v with spk := v.spk.enable } wr n
  | trigger : Move v wr n .enabled .away { v with spk := v.spk.trigger } wr n

variable {wr wr' : RxSlot} {n n' : ℕ} {r r' : Restart} {w : PlaySide}

theorem Coherent.move (h : Coherent r v wr n) (hm : Move v wr n r r' w wr' n') :
    Coherent r' w wr' n' := by
  cases hm with
  | stage staging => exact h.stage_sample staging
  | publish => exact h.publish
  | leave he => exact h.leave he
  | choose he hf => exact h.choose he hf
  | setReadAddr => exact h.setReadAddr
  | enable => exact h.enable
  | trigger => exact h.trigger

theorem InStep.move {taken write up : ℕ} (h : InStep v wr taken write up) (hv : Coherent r v wr n)
    (hm : Move v wr n r r' w wr' n') : ∃ write' up', InStep w wr' taken write' up' := by
  cases hm with
  | stage | leave | choose | setReadAddr | enable => exact ⟨write, up, h.ring, h.rest⟩
  | publish =>
    obtain ⟨write', up', hw, _, hs⟩ := h.ring.publish
    refine ⟨write', up', hw, fun hb hi _ => hs ?_⟩
    rcases hv.stage with ha | ⟨_, _, hn⟩
    · cases (ha.outstanding hb).symm.trans hi
    · have hle := h.ring.taken_le.trans h.ring.write_le
      exact Nat.le_antisymm hle (Nat.le_of_not_lt fun ht => hn (h.ring.ready_read.mpr ht))
  | trigger =>
    refine ⟨write, up, h.ring, fun hb => ?_⟩
    have he := hv.stage.2.1
    simp [SpkChannel.trigger, he] at hb

theorem mainStep_move {pc : Pc} {m : Machine} {rc : Int} (hc : Timely (⟨pc, m⟩, n) (.main rc)) :
    Move m.playSide (writeInd pc m) n (restartOf pc) (restartOf (mainStep rc m pc).1)
      (mainStep rc m pc).2.playSide (writeInd (mainStep rc m pc).1 (mainStep rc m pc).2)
      (recordOverwritten ⟨pc, m⟩ (.main rc) n) := by
  cases pc with
  | sendLoad c i buf =>
    simp only [mainStep]
    exact nextSample_ind (P := fun pc => Move m.playSide m.rxWriteInd n .away (restartOf pc)
      m.playSide (writeInd pc m) n) (fun _ => .stage _) fun _ => .stage _
  | stageByte i =>
    simp only [mainStep]
    exact nextSample_ind (P := fun pc => Move m.playSide m.rxWriteInd n .away (restartOf pc)
      (m.stageSample i).playSide (writeInd pc (m.stageSample i)) n) (fun _ => .stage _)
      fun _ => .stage _
  | stageFlag => exact .publish
  | restartTest =>
    simp only [mainStep]
    split_ifs with he
    · exact .leave he
    · have he' : m.spk.en = false := by simpa using he
      exact .choose he' (hc he')
  | restartAddr => exact .setReadAddr
  | restartEnable => exact .enable
  | restartCount => exact .trigger
  | _ =>
    simp only [mainStep]
    (try split_ifs) <;> exact .stage _

/-- The channel is started where its chunk is, and the indices show what has been overwritten. -/
def Paced (x : Cfg Pc × ℕ) : Prop :=
  Coherent (restartOf x.1.pc) x.1.m.playSide (writeInd x.1.pc x.1.m) x.2

/-- The ring and the channel are in step. -/
def Resynced (x : Cfg Pc × ℕ) : Prop :=
  ∃ taken write up, InStep x.1.m.playSide (writeInd x.1.pc x.1.m) taken write up

theorem Paced.step {x y : Cfg Pc × ℕ} {e : Event} (h : Paced x) (hc : Timely x e)
    (hs : lapStep x e = some y) : Paced y := by
  obtain ⟨rc, rfl, rfl⟩ | ⟨f, m, rfl, hf, rfl⟩ := tracked_step_cases hs
  · exact Coherent.move h (mainStep_move hc)
  · have hw := writeInd_effect (envStep_bufferEffect hf) x.1.pc
    have hv := PlaySide.envStep_effect hf
    unfold Paced at h ⊢
    rw [hw]
    generalize m.playSide = v at hv
    cases hv with
    | quiet => exact h
    | transfer hb => exact h.transfer hb
    | serve hi => exact h.serve hi
    | press ha | release ha | pressRelease ha => cases ha.symm.trans hc

theorem Resynced.step {x y : Cfg Pc × ℕ} {e : Event} (h : Resynced x) (hp : Paced x)
    (hc : Timely x e) (hu : Unpassed x e) (hs : lapStep x e = some y) : Resynced y := by
  obtain ⟨taken, write, up, h⟩ := h
  obtain ⟨rc, rfl, rfl⟩ | ⟨f, m, rfl, hf, rfl⟩ := tracked_step_cases hs
  · obtain ⟨write', up', h'⟩ := h.move hp (mainStep_move hc)
    exact ⟨taken, write', up', h'⟩
  · have hw := writeInd_effect (envStep_bufferEffect hf) x.1.pc
    have hv := PlaySide.envStep_effect hf
    unfold Resynced
    rw [hw]
    generalize m.playSide = v at hv
    cases hv with
    | quiet => exact ⟨taken, write, up, h⟩
    | transfer => exact ⟨taken, write, up, h.ring, fun _ hi => by cases hi⟩
    | serve hi =>
      have hserved := (hp.active (.inr hi)).1.serve hi
      generalize x.1.m.playSide.serve = w at hserved
      cases hserved with
      | next hs hr ha => exact ⟨taken, write, up, .of_ring (by rw [hs, hr]; exact h.ring) (.inl ha)⟩
      | last hpk hs hr hw =>
        obtain ⟨write', hring⟩ := h.ring.finish (hu hpk)
        exact ⟨taken + 1, write', up, .of_ring (by rw [hs, hr]; exact hring) hw⟩
    | press ha | release ha | pressRelease ha => cases ha.symm.trans hc

theorem paced_boot : Paced (boot, 0) :=
  ⟨Apart.empty, .inr ⟨⟨rfl, rfl, rfl⟩, by decide, Bool.false_ne_true⟩⟩

theorem resynced_boot : Resynced (boot, 0) :=
  ⟨0, 0, 0, LappedRing.empty, fun _ _ ht => absurd ht (Nat.lt_irrefl 0)⟩

/-- The channel is disabled with nothing outstanding, and `main` is not between lines 190 and
195. -/
structure Stopped (s : Cfg Pc) : Prop where
  outside : outsidePublish s.pc = true
  disabled : s.m.spk.en = false
  idle : s.m.spk.busy = false
  served : s.m.spk.irq = false

instance (s : Cfg Pc) : Decidable (Stopped s) :=
  decidable_of_iff (outsidePublish s.pc = true ∧ s.m.spk.en = false ∧ s.m.spk.busy = false ∧
    s.m.spk.irq = false) ⟨fun ⟨h1, h2, h3, h4⟩ => ⟨h1, h2, h3, h4⟩,
      fun ⟨h1, h2, h3, h4⟩ => ⟨h1, h2, h3, h4⟩⟩

theorem restartOf_outside {pc : Pc} (h : outsidePublish pc = true) : restartOf pc = .away := by
  cases pc <;> first | rfl | cases h

theorem writeInd_outside {pc : Pc} (h : outsidePublish pc = true) (m : Machine) :
    writeInd pc m = m.rxWriteInd := by
  cases pc <;> first | rfl | cases h

variable {x : Cfg Pc × ℕ}

theorem Paced.stopped (h : Paced x) (hs : Stopped x.1) :
    Still x.1.m.playSide ∧ ¬ Flagged x.1.m.playSide := by
  have hst := h.stage
  rw [restartOf_outside hs.outside] at hst
  rcases hst with ha | ⟨hq, _, hn⟩
  · cases hs.disabled.symm.trans ha.enabled
  · exact ⟨hq, hn⟩

theorem Paced.starting (h : Paced x) (hp : x.1.pc = .restartCount) :
    Still x.1.m.playSide ∧ x.1.m.spk.en = true ∧ Flagged x.1.m.playSide ∧
      x.1.m.spk.readAddr = .staging x.1.m.spkReadChunkInd 0 := by
  have hst := h.stage
  rw [hp] at hst
  exact hst

/-- A stopped channel leaves an empty ring. -/
theorem Resynced.stopped (h : Resynced x) (hp : Paced x) (hs : Stopped x.1) :
    (∀ c, x.1.m.rxChunkReady c = false) ∧ x.1.m.spkReadChunkInd = x.1.m.rxWriteInd := by
  obtain ⟨taken, write, up, hring, _⟩ := h
  rw [writeInd_outside hs.outside] at hring
  have hup : up ≤ taken := Nat.le_of_not_lt fun ht =>
    (hp.stopped hs).2 (hring.ready_read.mpr ht)
  obtain rfl : write = taken := Nat.le_antisymm (hring.write_le.trans hup) hring.taken_le
  obtain rfl : up = write := Nat.le_antisymm hup hring.write_le
  exact ⟨hring.ready_eq_false, hring.read_eq.trans hring.write_eq.symm⟩

/-- The chunk the channel is started at is the one staged last. -/
theorem Resynced.starting (h : Resynced x) (hp : Paced x) (hpc : x.1.pc = .restartCount) :
    x.1.m.spkReadChunkInd + 1 = x.1.m.rxWriteInd := by
  obtain ⟨taken, write, up, hring, hrest⟩ := h
  obtain ⟨hq, _, hf, _⟩ := hp.starting hpc
  obtain ⟨rfl, rfl⟩ := hrest hq.idle hq.served (hring.ready_read.mp hf)
  have hw := hring.write_eq
  rw [hpc] at hw
  have hr := hring.read_eq
  rw [RingWindow.slot_succ, ← hr] at hw
  exact hw.symm

/-- In every timely run, however many packets are staged over ones that have not been played, the
write index is ahead of the read index by the flags that are up and the packets overwritten; a
channel that has stopped stands at the first sample of a chunk, and `main` starts it at the first
sample of a flagged one. If the reader has not passed the writer either, a stopped channel leaves
no flag up and equal indices, and the chunk it is started at is the one staged last. -/
theorem playback_resyncs {es : List Event} (hc : Along lapStep Timely (boot, 0) es)
    (hr : run lapStep (boot, 0) es = some x) :
    writeInd x.1.pc x.1.m =
        x.1.m.spkReadChunkInd + Fin.ofNat _ (raised x.1.m.rxChunkReady + x.2) ∧
      (Stopped x.1 → x.1.m.spkReadPacketInd = 0) ∧
      (x.1.pc = .restartCount → x.1.m.spk.en = true ∧ x.1.m.spk.busy = false ∧
        x.1.m.spk.readAddr = .staging x.1.m.spkReadChunkInd 0 ∧ x.1.m.spkReadPacketInd = 0 ∧
        x.1.m.rxChunkReady x.1.m.spkReadChunkInd = true) ∧
      (Along lapStep Unpassed (boot, 0) es →
        (Stopped x.1 → (∀ c, x.1.m.rxChunkReady c = false) ∧
          x.1.m.spkReadChunkInd = x.1.m.rxWriteInd) ∧
        (x.1.pc = .restartCount → x.1.m.spkReadChunkInd + 1 = x.1.m.rxWriteInd)) := by
  have hp : Paced x := hc.invariant Paced (fun _ _ _ hi hp ht => hi.step hp ht) paced_boot hr
  refine ⟨hp.apart, fun hs => (hp.stopped hs).1.first, fun hpc => ?_, fun hu => ?_⟩
  · obtain ⟨hq, he, hf, ha⟩ := hp.starting hpc
    exact ⟨he, hq.idle, ha, hq.first, hf⟩
  · have hboth : Paced x ∧ Resynced x := (hc.and hu).invariant (fun x => Paced x ∧ Resynced x)
      (fun _ _ _ hi hq ht => ⟨hi.1.step hq.1 ht, hi.2.step hi.1 hq.1 hq.2 ht⟩)
      ⟨paced_boot, resynced_boot⟩ hr
    exact ⟨hboth.2.stopped hp, hboth.2.starting hp⟩

/-- `n` packets, each one staged before the next. -/
def packets (n : ℕ) : List Event := (List.range n).flatMap fun _ => packetOf 1 ++ mains 80

/-- Twice as many packets as the ring has slots before the first sample is played, then the eight
chunks that are flagged. -/
def roundOver : List Event := mains 6 ++ packets 16 ++ plays 480

/-- Eight packets are overwritten, and the indices come together again. -/
theorem playback_resyncs_round : ∃ x, run lapStep (boot, 0) roundOver = some x ∧ x.2 = 8 ∧
    Stopped x.1 ∧ writeInd x.1.pc x.1.m =
      x.1.m.spkReadChunkInd + Fin.ofNat _ (raised x.1.m.rxChunkReady + x.2) ∧
    x.1.m.spkReadPacketInd = 0 ∧ (∀ c, x.1.m.rxChunkReady c = false) ∧
    x.1.m.spkReadChunkInd = x.1.m.rxWriteInd := by
  obtain ⟨x, hr, hn, hs⟩ : ∃ x, run lapStep (boot, 0) roundOver = some x ∧ x.2 = 8 ∧ Stopped x.1 :=
    exists_of_run_any (by decide +kernel)
  have hc : Along lapStep (fun x e => Timely x e ∧ Unpassed x e) (boot, 0) roundOver :=
    along_of_checks (by decide +kernel)
  obtain ⟨hw, hstop, _, hstep⟩ := playback_resyncs (hc.mono fun _ _ h => h.1) hr
  exact ⟨x, hr, hn, hs, hw, hstop hs, (hstep (hc.mono fun _ _ h => h.2)).1 hs⟩

/-- Nine packets before the first sample is played, then the eight chunks that are flagged. -/
def oneOver : List Event := mains 6 ++ packets 9 ++ plays 480

/-- The channel stops at slot 0 and the next packet goes to slot 1. It also stops within a chunk
if a packet is played out before `main` tests the channel for it. -/
theorem playback_stays_out_of_step :
    ((∀ e ∈ oneOver, ButtonFree e) ∧ ∃ s, run step boot oneOver = some s ∧
      outsidePublish s.pc = true ∧ s.m.state = .rx ∧ s.m.spk.en = false ∧ s.m.spk.busy = false ∧
      s.m.spk.irq = false ∧ s.m.spkReadPacketInd = 0 ∧ s.m.spkReadChunkInd = 0 ∧
      s.m.rxWriteInd = 1) ∧
      (∀ e ∈ drainedBeforeTest, ButtonFree e) ∧
        ∃ s, run step boot (drainedBeforeTest ++ [.env .spkIrq]) = some s ∧
          outsidePublish s.pc = true ∧ s.m.state = .rx ∧ s.m.spk.en = false ∧
          s.m.spk.busy = false ∧ s.m.spk.irq = false ∧ s.m.spkReadPacketInd = 1 :=
  ⟨⟨by decide +kernel, exists_of_run_any (by decide +kernel)⟩, by decide +kernel,
    exists_of_run_any (by decide +kernel)⟩

end WalkieTalkie.PlaybackResync
