import WalkieTalkie.AiredChunks
import WalkieTalkie.Link

/-!
# From one microphone to the other loudspeaker

The link joins the two halves: the packets of the talker are its captured chunks, those of
the listener are packets of the talker, and the speaker channel plays what was accepted.
-/
namespace WalkieTalkie.VoicePath
open PartialRuns AiredChunks

/-- What has been accepted was received, as far as sixty bytes of it go. -/
def Accepting (x : Cfg Pc × ReceiveLog) : Prop :=
  ∃ consumed, x.2.received = consumed ++ x.1.m.radio.waiting.toList ∧
    x.2.accepted.Sublist (consumed.map (List.take chunkSize))

theorem Accepting.discard {x y : Cfg Pc × ReceiveLog} (h : Accepting x)
    (hr : y.2.received = x.2.received) (ha : y.2.accepted = x.2.accepted)
    (hw : y.1.m.radio.waiting = x.1.m.radio.waiting ∨ y.1.m.radio.waiting = none) :
    Accepting y := by
  obtain ⟨consumed, hc, hs⟩ := h
  rcases hw with hw | hw
  · exact ⟨consumed, by rw [hr, hw, hc], ha ▸ hs⟩
  · refine ⟨x.2.received, by simp [hr, hw], ?_⟩
    rw [ha, hc, List.map_append]
    exact hs.trans (List.sublist_append_left _ _)

/-- A read is made with a payload waiting. -/
theorem Accepting.readCall {m : Machine} {h : ReceiveLog} {p : List UInt8}
    (hs : Accepting (⟨.readCall, m⟩, h)) (hw : m.radio.waiting = some p) (rc : Int) :
    Accepting (⟨(mainStep rc m .readCall).1, (mainStep rc m .readCall).2⟩,
      h.recordMain ⟨.readCall, m⟩ rc) := by
  by_cases hrc : rc = 0
  · obtain ⟨consumed, hc, hs⟩ := hs
    have hc' : h.received = consumed ++ [p] := by simpa [hw] using hc
    refine ⟨consumed ++ [p], ?_, ?_⟩
    · simpa [mainStep, Radio.rfm9xReadData, ReceiveLog.recordMain, hrc] using hc'
    · simp only [ReceiveLog.recordMain, hrc, if_true, Radio.readBytes, hw, Option.getD_some,
        List.map_append]
      exact hs.append (List.Sublist.refl _)
  · refine hs.discard ?_ ?_ (.inr rfl) <;> simp [ReceiveLog.recordMain, hrc]

theorem mainStep_waiting {rc : Int} {m : Machine} {pc : Pc} :
    (mainStep rc m pc).2.radio.waiting = m.radio.waiting ∨
      (mainStep rc m pc).2.radio.waiting = none := by
  cases pc with
  | readCall => exact .inr rfl
  | armCall =>
    simp only [mainStep, Radio.rfm9xStartReceive]
    split_ifs
    · exact .inr rfl
    · exact .inl rfl
  | sendLaunch =>
    simp only [mainStep, Radio.launchTransmit]
    split_ifs
    · exact .inr rfl
    · exact .inl rfl
  | _ => exact .inl rfl

theorem Accepting.step {x y : Cfg Pc × ReceiveLog} {e : Event} (h : Accepting x)
    (hp : PayloadStaging.Staging x.1.pc x.1.m x.2) (ht : receiveStep x e = some y) :
    Accepting y := by
  obtain ⟨rc, rfl, rfl⟩ | ⟨f, m, rfl, hf, rfl⟩ := tracked_step_cases ht
  · obtain ⟨⟨pc, m⟩, log⟩ := x
    cases pc with
    | readCall =>
      obtain ⟨_, p, _, hw, _⟩ := hp
      exact h.readCall hw rc
    | _ => exact h.discard rfl rfl mainStep_waiting
  · obtain ⟨consumed, hc, hs⟩ := h
    have ha : (x.2.recordEnv x.1 f).accepted = x.2.accepted := by cases f <;> rfl
    rcases PayloadStaging.envStep_waiting (s := x.1) (h := x.2) hf with ⟨hw, hr⟩ | ⟨p, hn, hw, hr⟩
    · exact ⟨consumed, by simp [ReceiveLog.record, hr, hw, hc], ha ▸ hs⟩
    · exact ⟨consumed, by simp [ReceiveLog.record, hr, hw, hc, hn], ha ▸ hs⟩

theorem accepting_boot : Accepting (boot, ReceiveLog.start) := ⟨[], rfl, .slnil⟩

theorem Accepting.received {x : Cfg Pc × ReceiveLog} (h : Accepting x) :
    x.2.accepted.Sublist (x.2.received.map (List.take chunkSize)) := by
  obtain ⟨consumed, hc, hs⟩ := h
  rw [hc, List.map_append]
  exact hs.trans (List.sublist_append_left _ _)

/-- A device that only listens, its channel 1 outrunning `main` at no point. -/
def Listens (x : Device) (e : Event) : Prop := ButtonFree e ∧ ReceiveFifo.Unraced x.receive e

/-- One side talks with care and the other one listens. -/
def Talks (s : Side) (l : Link) (e : LinkEvent) : Prop :=
  l.Meets (fun x f => Spared x.session f) s e ∧ l.Meets Listens s.other e

/-- Both halves of the path are in order. -/
structure Voice (s : Side) (l : Link) : Prop where
  sides : l.Sides
  talker : Accounted (l.device s)
  accepting : Accepting (l.device s.other).receive
  listener : ReceiveFifo.Sound (l.device s.other).receive

/-- Packets of the link are full. -/
theorem Voice.fullPackets {s : Side} {l : Link} (h : Voice s l) {e : Event} (he : ButtonFree e) :
    ReceiveFifo.FullPackets (l.device s.other).receive e := by
  have hst := h.sides.staging s.other
  cases e with
  | env f => cases f <;> trivial
  | main rc =>
    simp only [ReceiveFifo.FullPackets, Device.receive]
    cases hpc : (l.device s.other).1.pc with
    | readCall =>
      intro _
      rw [hpc] at hst
      obtain ⟨consumed, p, hr, hw, _⟩ := hst
      have hmem : p ∈ (l.device s).2.air.aired := by
        refine (h.sides.received s).subset ?_
        rw [hr]
        simp
      have hlen := (h.sides.full s).aired p hmem
      simp [Radio.readBytes, hw, hlen]
    | _ => trivial

theorem Voice.step {s : Side} {l l' : Link} {e : LinkEvent} (h : Voice s l) (he : Talks s l e)
    (ht : l.step e = some l') : Voice s l' where
  sides := h.sides.step ht
  talker := Link.step_invariant Accounted (fun _ _ _ hi hp hs => hi.step hp hs) h.talker he.1 ht
  accepting := by
    have hp := h.sides.staging s.other
    exact (Link.step_invariant (P := fun _ _ => True)
      (fun x => Accepting x.receive ∧ PayloadStaging.Staging x.1.pc x.1.m x.2.receive)
      (fun x f y hi _ hs => ⟨hi.1.step hi.2 (Device.receiveStep hs),
        hi.2.step (Device.receiveStep hs)⟩) ⟨h.accepting, hp⟩ (fun _ _ => trivial) ht).1
  listener := by
    have hm : l.Meets (fun x f => ReceiveFifo.FullPackets x.receive f ∧
        ReceiveFifo.Unraced x.receive f) s.other e :=
      fun f hf => ⟨h.fullPackets (he.2 f hf).1, (he.2 f hf).2⟩
    exact Link.step_invariant (fun x => ReceiveFifo.Sound x.receive)
      (fun x f y hi hc hs => hi.step hc (Device.receiveStep hs)) h.listener hm ht

theorem voice_boot (s : Side) : Voice s Link.boot :=
  ⟨Link.sides_boot, accounted_boot, accepting_boot, ReceiveFifo.sound_boot⟩

/-- The accepted packets are captured chunks of the other side. -/
theorem Voice.accepted {s : Side} {l : Link} (h : Voice s l) :
    (l.device s.other).2.receive.accepted.Sublist
      ((l.device s).2.air.captured.map List.ofFn) := by
  have hr := h.sides.received s
  have hfull : (l.device s.other).2.receive.received.map (List.take chunkSize) =
      (l.device s.other).2.receive.received := by
    refine (List.map_congr_left fun p hp => ?_).trans (List.map_id _)
    exact List.take_of_length_le ((h.sides.full s).aired p (hr.subset hp)).le
  have ha := h.accepting.received
  rw [show (l.device s.other).receive.2.received = (l.device s.other).2.receive.received from rfl,
    hfull] at ha
  exact (ha.trans hr).trans h.talker.captured

/-- In every run of the link in which one side talks, its presses sparing the send step and its
microphone overrunning no flagged slot, and the other side listens: until a packet is staged
over an unplayed one, what the listener's speaker channel has played is the beginning of a
subsequence of the chunks the talker's microphone has captured, laid end to end. -/
theorem played_was_captured {s : Side} {es : List LinkEvent} {l : Link}
    (ht : Along Link.step (Talks s) Link.boot es) (hr : run Link.step Link.boot es = some l)
    (hx : (l.device s.other).2.receive.restaged = false) :
    ∃ heard, heard.Sublist (l.device s).2.air.captured ∧
      (l.device s.other).2.receive.played <+: (serial heard).map UInt8.toUInt32 := by
  have h : Voice s l := ht.invariant (Voice s) (fun _ _ _ hi hc hs => hi.step hc hs)
    (voice_boot s) hr
  obtain ⟨heard, hs, he⟩ := List.sublist_map_iff.mp h.accepted
  refine ⟨heard, hs, ?_⟩
  rcases h.listener with hc | ⟨taken, hf⟩
  · cases hx.symm.trans hc
  · have hstream : (l.device s.other).receive.2.stream = (serial heard).map UInt8.toUInt32 := by
      rw [ReceiveLog.stream, show (l.device s.other).receive.2.accepted = heard.map List.ofFn from he]
      rfl
    exact hstream ▸ hf.in_order

instance (x : Device) (e : Event) : Decidable (Listens x e) := by
  unfold Listens
  infer_instance

instance (P : Device → Event → Prop) [∀ x e, Decidable (P x e)] (t : Side) (l : Link)
    (e : LinkEvent) : Decidable (l.Meets P t e) :=
  inferInstanceAs (Decidable (∀ f ∈ l.events t e, P (l.device t) f))

instance (s : Side) (l : Link) (e : LinkEvent) : Decidable (Talks s l e) := by
  unfold Talks
  infer_instance

theorem played_was_captured_once : ∃ heard,
    heard.Sublist (Link.oneWayEnd.device .left).2.air.captured ∧
      (Link.oneWayEnd.device (Side.other .left)).2.receive.played <+: (serial heard).map UInt8.toUInt32 :=
  played_was_captured (s := .left) (l := Link.oneWayEnd) (by decide +kernel) (run_ends _)
    (by decide +kernel)

/-- All sixty samples of the chunk have reached the loudspeaker. -/
example : (Link.oneWayEnd.device .right).2.receive.played.length = 60 := by decide +kernel

end WalkieTalkie.VoicePath
