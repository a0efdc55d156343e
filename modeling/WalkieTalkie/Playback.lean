import WalkieTalkie.PlaySide
import WalkieTalkie.RingWindow
import WalkieTalkie.SerialBlocks

/-!
# Channel 1 as the consumer of the staged chunks

The staging ring is a window on the published chunks and the channel is where the window
says it is: either it runs, with one transfer outstanding or its completion pending, or it
has stopped between two chunks. A producer publishes a chunk, then restarts the channel in
three writes if it finds it stopped.
-/
namespace WalkieTalkie

/-- A chunk of bytes as it is staged. -/
def words (c : Chunk UInt8) : Chunk UInt32 := fun i => (c i).toUInt32

variable {v : PlaySide} {items : List (Chunk UInt32)} {played : List UInt32} {taken : ℕ}

/-- A transfer of the sample at the read indices is outstanding, or done and not served. -/
structure Running (v : PlaySide) (items : List (Chunk UInt32)) (played : List UInt32)
    (taken : ℕ) : Prop where
  enabled : v.spk.en = true
  busy_eq : v.spk.busy = !v.spk.irq
  addr : v.spk.busy = true → v.spk.readAddr = .staging v.spkReadChunkInd v.spkReadPacketInd
  more : taken < items.length
  played_eq : played =
    (serial items).take (chunkSize * taken + v.spkReadPacketInd + v.spk.irq.toNat)

/-- The channel has nothing outstanding and stands at the first sample of a chunk. -/
structure Quiescent (v : PlaySide) (items : List (Chunk UInt32)) (played : List UInt32)
    (taken : ℕ) : Prop where
  idle : v.spk.busy = false
  served : v.spk.irq = false
  first : v.spkReadPacketInd = 0
  played_eq : played = (serial items).take (chunkSize * taken)

/-- How far the producer is with restarting the channel. -/
inductive Restart | away | published | chosen | addressed | enabled deriving DecidableEq, Repr

/-- What the channel is doing while the producer is there. -/
def Speaker (v : PlaySide) (items : List (Chunk UInt32)) (played : List UInt32) (taken : ℕ) :
    Restart → Prop
  | .away => Running v items played taken ∨
      Quiescent v items played taken ∧ v.spk.en = false ∧ taken = items.length
  | .published => Running v items played taken ∨
      Quiescent v items played taken ∧ v.spk.en = false
  | .chosen => Quiescent v items played taken ∧ v.spk.en = false ∧ taken < items.length
  | .addressed => Quiescent v items played taken ∧ v.spk.en = false ∧ taken < items.length ∧
      v.spk.readAddr = .staging v.spkReadChunkInd 0
  | .enabled => Quiescent v items played taken ∧ v.spk.en = true ∧ taken < items.length ∧
      v.spk.readAddr = .staging v.spkReadChunkInd 0

/-- The published chunks, played up to where the channel is. -/
structure Playback (r : Restart) (v : PlaySide) (wr : RxSlot) (items : List (Chunk UInt32))
    (played : List UInt32) (taken : ℕ) : Prop where
  window : RingWindow v.spkStaging v.rxChunkReady v.spkReadChunkInd wr items taken
  speaker : Speaker v items played taken r

namespace Playback

variable {r : Restart} {wr : RxSlot}

/-- Only a running channel is busy or has its interrupt pending. -/
theorem running (h : Playback r v wr items played taken)
    (hb : v.spk.busy = true ∨ v.spk.irq = true) : Running v items played taken := by
  have hq : ¬ Quiescent v items played taken := by
    intro hq
    rcases hb with hb | hb
    · cases hq.idle.symm.trans hb
    · cases hq.served.symm.trans hb
  have hs := h.speaker
  cases r with
  | away => exact hs.resolve_right fun hn => hq hn.1
  | published => exact hs.resolve_right fun hn => hq hn.1
  | chosen | addressed | enabled => exact absurd hs.1 hq

/-- A running channel has a producer that is not restarting it. -/
theorem not_restarting (h : Playback r v wr items played taken)
    (hr : Running v items played taken) : r = .away ∨ r = .published := by
  have hq : ¬ Quiescent v items played taken := by
    intro hq
    have hb := hr.busy_eq
    simp [hq.idle, hq.served] at hb
  have hs := h.speaker
  cases r with
  | away => exact .inl rfl
  | published => exact .inr rfl
  | chosen | addressed | enabled => exact absurd hs.1 hq

theorem of_running (hr : r = .away ∨ r = .published)
    (hw : RingWindow v.spkStaging v.rxChunkReady v.spkReadChunkInd wr items taken)
    (hv : Running v items played taken) : Playback r v wr items played taken := by
  rcases hr with rfl | rfl <;> exact ⟨hw, .inl hv⟩

theorem of_stopped (hr : r = .away ∨ r = .published)
    (hw : RingWindow v.spkStaging v.rxChunkReady v.spkReadChunkInd wr items taken)
    (hv : Quiescent v items played taken) (he : v.spk.en = false) (ht : taken = items.length) :
    Playback r v wr items played taken := by
  rcases hr with rfl | rfl
  · exact ⟨hw, .inr ⟨hv, he, ht⟩⟩
  · exact ⟨hw, .inr ⟨hv, he⟩⟩

/-- A transfer reads the next sample of the published chunks. -/
theorem transfer (h : Playback r v wr items played taken) (hb : v.spk.busy = true) :
    v.spk.readAddr = .staging v.spkReadChunkInd v.spkReadPacketInd ∧
      Playback r v.transfer wr items
        (played ++ [v.spkStaging v.spkReadChunkInd v.spkReadPacketInd]) taken := by
  have hr := h.running (.inl hb)
  have hi : v.spk.irq = false := by simpa [hb] using hr.busy_eq
  have hp := hr.played_eq
  rw [hi, Bool.toNat_false, Nat.add_zero] at hp
  refine ⟨hr.addr hb, of_running (h.not_restarting hr) h.window ?_⟩
  refine ⟨hr.enabled, rfl, (fun hc => by cases hc), hr.more, ?_⟩
  have hc := h.window.content_read hr.more
  simp only [hc, hp]
  exact (take_serial_succ hr.more v.spkReadPacketInd).symm

/-- Serving a completion moves on to the next sample, if there is one. -/
theorem serve (h : Playback r v wr items played taken) (hi : v.spk.irq = true) :
    ∃ taken', Playback r v.serve wr items played taken' := by
  have hr := h.running (.inr hi)
  have hnr := h.not_restarting hr
  have hb : v.spk.busy = false := by simpa [hi] using hr.busy_eq
  have hp := hr.played_eq
  rw [hi, Bool.toNat_true] at hp
  by_cases hlast : (v.spkReadPacketInd : ℕ) + 1 < chunkSize
  · refine ⟨taken, ?_⟩
    rw [PlaySide.serve_next hlast (h.window.ready_read.mpr hr.more)]
    refine of_running hnr h.window ⟨hr.enabled, ?_, fun _ => rfl, hr.more, ?_⟩
    · simpa using .inr hr.enabled
    · simpa [Nat.add_assoc] using hp
  · have hw := h.window.pop hr.more
    have hpk : (v.spkReadPacketInd : ℕ) + 1 = chunkSize := by
      have := v.spkReadPacketInd.isLt
      omega
    have hp' : played = (serial items).take (chunkSize * (taken + 1)) := by
      rw [hp, Nat.mul_succ, Nat.add_assoc, hpk]
    refine ⟨taken + 1, ?_⟩
    by_cases hn : taken + 1 < items.length
    · rw [PlaySide.serve_last hlast (hw.ready_read.mpr hn)]
      refine of_running hnr hw ⟨hr.enabled, ?_, fun _ => rfl, hn, ?_⟩
      · simpa using .inr hr.enabled
      · simpa using hp'
    · rw [PlaySide.serve_last_empty hlast fun hc => hn (hw.ready_read.mp hc)]
      refine of_stopped hnr hw ⟨hb, rfl, rfl, hp'⟩ (SpkChannel.en_disable _) ?_
      have := hr.more
      omega

/-- A chunk is published by flagging its slot. -/
theorem publish (h : Playback .away v wr items played taken) (hw : v.rxChunkReady wr = false) :
    Playback .published { v with rxChunkReady := Function.update v.rxChunkReady wr true } (wr + 1)
      (items ++ [v.spkStaging wr]) played taken := by
  have hle := h.window.taken_le
  refine ⟨h.window.push hw, ?_⟩
  rcases h.speaker with hr | ⟨hq, he, _⟩
  · have hm := hr.more
    refine .inl ⟨hr.enabled, hr.busy_eq, hr.addr, ?_, ?_⟩
    · simp only [List.length_append, List.length_singleton]
      omega
    · refine hr.played_eq.trans (take_serial_append ?_).symm
      have hpk := v.spkReadPacketInd.isLt
      have hi : v.spk.irq.toNat ≤ 1 := Bool.toNat_le _
      have hmul : chunkSize * (taken + 1) ≤ chunkSize * items.length := Nat.mul_le_mul_left _ hm
      rw [Nat.mul_succ] at hmul
      omega
  · refine .inr ⟨⟨hq.idle, hq.served, hq.first, ?_⟩, he⟩
    rw [hq.played_eq, take_serial_append (Nat.mul_le_mul_left _ hle)]

/-- Slots that show no chunk may be written. -/
theorem stage (h : Playback r v wr items played taken) {c : RxSlot}
    (hc : v.rxChunkReady c = false) (chunk : Chunk UInt32) :
    Playback r { v with spkStaging := Function.update v.spkStaging c chunk } wr items played
      taken := by
  refine ⟨h.window.congr_slot fun i hi => Function.update_of_ne ?_ _ _, ?_⟩
  · rintro rfl
    cases hc.symm.trans hi
  · have hs := h.speaker
    cases r with
    | away =>
      rcases hs with ⟨h1, h2, h3, h4, h5⟩ | ⟨⟨h1, h2, h3, h4⟩, h5⟩
      · exact .inl ⟨h1, h2, h3, h4, h5⟩
      · exact .inr ⟨⟨h1, h2, h3, h4⟩, h5⟩
    | published =>
      rcases hs with ⟨h1, h2, h3, h4, h5⟩ | ⟨⟨h1, h2, h3, h4⟩, h5⟩
      · exact .inl ⟨h1, h2, h3, h4, h5⟩
      · exact .inr ⟨⟨h1, h2, h3, h4⟩, h5⟩
    | chosen | addressed | enabled =>
      obtain ⟨⟨h1, h2, h3, h4⟩, h5⟩ := hs
      exact ⟨⟨h1, h2, h3, h4⟩, h5⟩

/-- A channel found enabled is running. -/
theorem leave (h : Playback .published v wr items played taken) (he : v.spk.en = true) :
    Playback .away v wr items played taken := by
  rcases h.speaker with hr | ⟨_, hd⟩
  · exact ⟨h.window, .inl hr⟩
  · cases hd.symm.trans he

/-- A channel found disabled may be restarted if the slot it stands at shows a chunk. -/
theorem choose (h : Playback .published v wr items played taken) (he : v.spk.en = false)
    (hr : v.rxChunkReady v.spkReadChunkInd = true) :
    Playback .chosen v wr items played taken := by
  rcases h.speaker with hrun | ⟨hq, hd⟩
  · cases he.symm.trans hrun.enabled
  · exact ⟨h.window, hq, hd, h.window.ready_read.mp hr⟩

theorem setReadAddr (h : Playback .chosen v wr items played taken) :
    Playback .addressed { v with spk := v.spk.setReadAddr (.staging v.spkReadChunkInd 0) } wr items
      played taken := by
  obtain ⟨hw, ⟨h1, h2, h3, h4⟩, hd, ht⟩ := h
  exact ⟨hw, ⟨h1, h2, h3, h4⟩, hd, ht, rfl⟩

theorem enable (h : Playback .addressed v wr items played taken) :
    Playback .enabled { v with spk := v.spk.enable } wr items played taken := by
  obtain ⟨hw, ⟨h1, h2, h3, h4⟩, hd, ht, ha⟩ := h
  exact ⟨hw, ⟨h1, h2, h3, h4⟩, SpkChannel.en_enable _, ht, ha⟩

theorem trigger (h : Playback .enabled v wr items played taken) :
    Playback .away { v with spk := v.spk.trigger } wr items played taken := by
  obtain ⟨hw, ⟨h1, h2, h3, h4⟩, he, ht, ha⟩ := h
  refine ⟨hw, .inl ⟨he, ?_, fun _ => ?_, ht, ?_⟩⟩
  · simp [SpkChannel.trigger, h1, h2, he]
  · simpa [SpkChannel.trigger, h3] using ha
  · simpa [SpkChannel.trigger, h2, h3] using h4

/-- What has been played is the beginning of what has been published. -/
theorem in_order (h : Playback r v wr items played taken) : played <+: serial items := by
  have hp : ∃ n, played = (serial items).take n := by
    have hs := h.speaker
    cases r with
    | away | published =>
      rcases hs with hr | ⟨hq, _⟩
      · exact ⟨_, hr.played_eq⟩
      · exact ⟨_, hq.played_eq⟩
    | chosen | addressed | enabled => exact ⟨_, hs.1.played_eq⟩
  obtain ⟨n, rfl⟩ := hp
  exact List.take_prefix n _

/-- While a published sample is unplayed the channel does not stand still. -/
theorem not_stalled (h : Playback .away v wr items played taken)
    (hc : ∃ c, v.rxChunkReady c = true) : v.spk.busy = true ∨ v.spk.irq = true := by
  rcases h.speaker with hr | ⟨_, _, ht⟩
  · have hb := hr.busy_eq
    cases hi : v.spk.irq with
    | true => exact .inr rfl
    | false => exact .inl (by simpa [hi] using hb)
  · obtain ⟨c, hc⟩ := hc
    obtain ⟨k, hk, hl, _⟩ := (h.window.ready_iff c).mp hc
    omega

end Playback

end WalkieTalkie
