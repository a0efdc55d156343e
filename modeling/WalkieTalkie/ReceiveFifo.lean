import WalkieTalkie.Playback
import WalkieTalkie.ReceiveLog

/-!
# Playback of what was received

Without a button interrupt the receive branch is a producer for channel 1: it copies a
packet into a free slot, flags it, moves its index and restarts the channel.
-/
namespace WalkieTalkie.ReceiveFifo
open PartialRuns

def restartOf : Pc → Restart
  | .stageAdvance | .restartTest => .published
  | .restartAddr => .chosen
  | .restartEnable => .addressed
  | .restartCount => .enabled
  | _ => .away

/-- The write index, between lines 190 and 191 as it will be after them. -/
def writeInd (pc : Pc) (m : Machine) : RxSlot :=
  if pc = .stageAdvance then m.rxWriteInd + 1 else m.rxWriteInd

theorem writeInd_effect {m m' : Machine} {e : Env} (hb : BufferEffect m e m') (pc : Pc) :
    writeInd pc m' = writeInd pc m := by
  simp only [writeInd, hb.writeInd]

/-- How the bytes of the accepted packets are spread over the staged chunks and the chunk
`main` is copying. -/
def Copying (pc : Pc) (m : Machine) (h : ReceiveLog) : Prop :=
  match pc with
  | .stageByte i => h.stream = serial h.chunks ++ List.ofFn (words (m.rxRing m.rxWriteInd)) ∧
      (∀ j : Sample, (j : ℕ) < i →
        m.spkStaging m.rxWriteInd j = words (m.rxRing m.rxWriteInd) j) ∧
      (0 < (i : ℕ) → m.rxChunkReady m.rxWriteInd = false)
  | .stageFlag => h.stream = serial h.chunks ++ List.ofFn (m.spkStaging m.rxWriteInd) ∧
      m.rxChunkReady m.rxWriteInd = false
  | _ => h.stream = serial h.chunks

structure Fifo (pc : Pc) (m : Machine) (h : ReceiveLog) (taken : ℕ) : Prop where
  playback : Playback (restartOf pc) m.playSide (writeInd pc m) h.chunks h.played taken
  copying : Copying pc m h

/-- No button interrupt, and a read that returns zero finds a packet of sixty bytes. -/
def FullPackets (x : Cfg Pc × ReceiveLog) : Event → Prop
  | .env (.pbIrq _) => False
  | .main rc => match x.1.pc with
    | .readCall => rc = 0 → (x.1.m.radio.readBytes chunkSize).length = chunkSize
    | _ => True
  | _ => True

instance (x : Cfg Pc × ReceiveLog) (e : Event) : Decidable (FullPackets x e) := by
  induction e using Event.casesOn with
  | main rc =>
    unfold FullPackets
    generalize x.1.pc = pc
    induction pc using Pc.casesOn <;> infer_instance
  | env e => induction e using Env.casesOn <;> unfold FullPackets <;> infer_instance

/-- The speaker handler has not played the new chunk out before line 192, nor does it clear
the slot that is being copied. -/
def Unraced (x : Cfg Pc × ReceiveLog) : Event → Prop
  | .env .spkIrq => wipes x.1 = false
  | .main _ => match x.1.pc with
    | .restartTest => x.1.m.spk.en = false → x.1.m.rxChunkReady x.1.m.spkReadChunkInd = true
    | _ => True
  | _ => True

instance (x : Cfg Pc × ReceiveLog) (e : Event) : Decidable (Unraced x e) := by
  induction e using Event.casesOn with
  | main rc =>
    unfold Unraced
    generalize x.1.pc = pc
    induction pc using Pc.casesOn <;> infer_instance
  | env e => induction e using Env.casesOn <;> unfold Unraced <;> infer_instance

theorem Copying.effect {pc : Pc} {m m' : Machine} {h h' : ReceiveLog} {e : Env}
    (hc : Copying pc m h) (hb : BufferEffect m e m')
    (hr : m.rxChunkReady m.rxWriteInd = false → m'.rxChunkReady m.rxWriteInd = false)
    (hn : e = .spkIrq → wipes ⟨pc, m⟩ = false)
    (hs : h'.stream = h.stream) (hk : h'.chunks = h.chunks) : Copying pc m' h' := by
  cases pc with
  | stageByte i =>
    have hslot := hb.slot fun he => by simpa [wipes] using hn he
    obtain ⟨h1, h2, h3⟩ := hc
    refine ⟨?_, ?_, ?_⟩ <;> simp only [hb.writeInd, hb.staging, hslot, hs, hk]
    · exact h1
    · exact h2
    · exact fun hi => hr (h3 hi)
  | stageFlag =>
    obtain ⟨h1, h2⟩ := hc
    refine ⟨?_, ?_⟩ <;> simp only [hb.writeInd, hb.staging, hs, hk]
    · exact h1
    · exact hr h2
  | _ => exact (hs.trans hc).trans (by rw [hk])

theorem Fifo.effect {pc : Pc} {m m' : Machine} {h : ReceiveLog} {e : Env} {taken : ℕ}
    (hs : Fifo pc m h taken) (hf : FullPackets (⟨pc, m⟩, h) (.env e))
    (ho : Unraced (⟨pc, m⟩, h) (.env e)) (hb : BufferEffect m e m')
    (he : PlaySide.Effect m e m'.playSide) : ∃ taken', Fifo pc m' (h.recordEnv ⟨pc, m⟩ e) taken' := by
  have hw := writeInd_effect hb pc
  have hready : ∀ c, m'.rxChunkReady c = m'.playSide.rxChunkReady c := fun _ => rfl
  generalize hv : m'.playSide = v at he
  cases he with
  | quiet hq =>
    have hrec : h.recordEnv ⟨pc, m⟩ e = { h with received := (h.recordEnv ⟨pc, m⟩ e).received } := by
      cases e <;> simp_all [ReceiveLog.recordEnv, PlaySide.Quiet]
    refine ⟨taken, ?_, hs.copying.effect hb ?_ ?_ ?_ ?_⟩
    · rw [hv, hw, hrec]
      exact hs.playback
    · intro hc
      rw [hready, hv]
      exact hc
    · rintro rfl
      cases hq
    · rw [hrec]
      rfl
    · rw [hrec]
      rfl
  | transfer hbusy =>
    obtain ⟨ha, hp⟩ := hs.playback.transfer hbusy
    have hword := Machine.readWord_of_staging (m := m) ha
    refine ⟨taken, ?_, hs.copying.effect hb ?_ ?_ rfl rfl⟩
    · rw [hv, hw]
      simp only [ReceiveLog.recordEnv, hword]
      exact hp
    · intro hc
      rw [hready, hv]
      exact hc
    · simp
  | serve hi =>
    obtain ⟨taken', hp⟩ := hs.playback.serve hi
    refine ⟨taken', ?_, hs.copying.effect hb ?_ ?_ rfl rfl⟩
    · rw [hv, hw]
      exact hp
    · intro hc
      rw [hready, hv]
      exact PlaySide.serve_ready hc
    · exact fun _ => ho
  | press | release | pressRelease => cases hf

/-- Neither copying nor restarting the channel. -/
def plain : Pc → Bool
  | .stageByte _ | .stageFlag | .stageAdvance | .restartTest | .restartAddr | .restartEnable
  | .restartCount => false
  | _ => true

theorem Fifo.plain {pc pc' : Pc} {m m' : Machine} {h : ReceiveLog} {taken : ℕ}
    (hs : Fifo pc m h taken) (hp : plain pc = true) (hp' : plain pc' = true)
    (hv : m'.playSide = m.playSide) (hw : m'.rxWriteInd = m.rxWriteInd) : Fifo pc' m' h taken := by
  obtain ⟨hb, hc⟩ := hs
  have hr : restartOf pc = .away := by cases pc <;> first | rfl | cases hp
  have hr' : restartOf pc' = .away := by cases pc' <;> first | rfl | cases hp'
  have hi : writeInd pc m = m.rxWriteInd := if_neg (by rintro rfl; cases hp)
  have hi' : writeInd pc' m' = m'.rxWriteInd := if_neg (by rintro rfl; cases hp')
  have hc' : h.stream = serial h.chunks := by cases pc <;> first | exact hc | cases hp
  refine ⟨?_, ?_⟩
  · rw [hr', hi', hv, hw, ← hr, ← hi]
    exact hb
  · cases pc' <;> first | exact hc' | cases hp'

/-- The bytes of a successful read are in the slot that is copied next. -/
theorem Fifo.readCall {m : Machine} {h : ReceiveLog} {taken : ℕ} (hs : Fifo .readCall m h taken)
    (hlen : (m.radio.readBytes chunkSize).length = chunkSize) :
    Fifo (.stageByte 0)
      { m.fillSlot (m.radio.readBytes chunkSize) with radio := m.radio.rfm9xReadData }
      (h.recordMain ⟨.readCall, m⟩ 0) taken := by
  obtain ⟨hb, hc⟩ := hs
  have hbytes : List.ofFn (words ((m.fillSlot (m.radio.readBytes chunkSize)).rxRing m.rxWriteInd)) =
      (m.radio.readBytes chunkSize).map UInt8.toUInt32 := by
    apply List.ext_getElem
    · simp [hlen]
    · intro i hi hm
      rw [List.length_map] at hm
      have hget := List.getElem?_eq_getElem hm
      rw [List.getElem_ofFn, List.getElem_map]
      simp [words, Machine.fillSlot, hget]
  refine ⟨hb, ?_, fun j hj => absurd hj (Nat.not_lt_zero _), fun hi => absurd hi (Nat.lt_irrefl _)⟩
  have hstream : (h.recordMain ⟨.readCall, m⟩ 0).stream =
      h.stream ++ (m.radio.readBytes chunkSize).map UInt8.toUInt32 := by
    simp [ReceiveLog.recordMain, ReceiveLog.stream]
  rw [hstream, ← hbytes, show h.stream = serial h.chunks from hc]
  rfl

/-- A sample is copied into a slot that shows no chunk. -/
theorem Fifo.stageByte {m : Machine} {h : ReceiveLog} {taken : ℕ} {i : Sample}
    (hs : Fifo (.stageByte i) m h taken) (hf : m.rxChunkReady m.rxWriteInd = false) :
    Fifo (nextSample i .stageByte .stageFlag) (m.stageSample i)
      { h with restaged := h.restaged || m.rxChunkReady m.rxWriteInd } taken := by
  obtain ⟨hb, hst, hcopy, _⟩ := hs
  have hplay := hb.stage (c := m.rxWriteInd) hf
    (Function.update (m.spkStaging m.rxWriteInd) i (words (m.rxRing m.rxWriteInd) i))
  have hslot : (m.stageSample i).spkStaging m.rxWriteInd =
      Function.update (m.spkStaging m.rxWriteInd) i (words (m.rxRing m.rxWriteInd) i) :=
    Function.update_self ..
  have hnew : ∀ j : Sample, (j : ℕ) < i + 1 →
      (m.stageSample i).spkStaging m.rxWriteInd j = words (m.rxRing m.rxWriteInd) j := by
    intro j hj
    rw [hslot]
    exact update_eq_of_lt_succ hcopy j hj
  refine nextSample_ind (P := fun pc => Fifo pc (m.stageSample i)
    { h with restaged := h.restaged || m.rxChunkReady m.rxWriteInd } taken)
    (fun hi => ⟨hplay, hst, hnew, fun _ => hf⟩) fun hi => ⟨hplay, ?_, hf⟩
  have hall : (m.stageSample i).spkStaging m.rxWriteInd = words (m.rxRing m.rxWriteInd) := by
    funext j
    exact hnew j (by have := j.isLt; omega)
  rw [show (m.stageSample i).rxWriteInd = m.rxWriteInd from rfl, hall]
  exact hst

theorem Fifo.stageFlag {m : Machine} {h : ReceiveLog} {taken : ℕ}
    (hs : Fifo .stageFlag m h taken) :
    Fifo .stageAdvance
      { m with rxChunkReady := Function.update m.rxChunkReady m.rxWriteInd true }
      { h with staged := h.staged ++ [⟨m.spkStaging m.rxWriteInd, h.wiped⟩] } taken := by
  obtain ⟨hb, hst, hf⟩ := hs
  have hchunks : ReceiveLog.chunks
      { h with staged := h.staged ++ [⟨m.spkStaging m.rxWriteInd, h.wiped⟩] } =
      h.chunks ++ [m.spkStaging m.rxWriteInd] := by simp [ReceiveLog.chunks]
  refine ⟨?_, ?_⟩
  · rw [hchunks]
    exact hb.publish hf
  · simp only [Copying, hchunks, serial_append, serial_singleton]
    exact hst

theorem Fifo.main {pc : Pc} {m : Machine} {h : ReceiveLog} {taken : ℕ} {rc : Int}
    (hs : Fifo pc m h taken) (hf : FullPackets (⟨pc, m⟩, h) (.main rc))
    (ho : Unraced (⟨pc, m⟩, h) (.main rc))
    (hr : (h.recordMain ⟨pc, m⟩ rc).restaged = false) :
    Fifo (mainStep rc m pc).1 (mainStep rc m pc).2 (h.recordMain ⟨pc, m⟩ rc) taken := by
  cases pc with
  | readCall =>
    by_cases hrc : rc = 0
    · subst hrc
      exact hs.readCall (hf rfl)
    · simp only [mainStep, ReceiveLog.recordMain, hrc, if_false]
      exact hs.plain rfl rfl rfl rfl
  | stageByte i =>
    simp only [ReceiveLog.recordMain, Bool.or_eq_false_iff] at hr
    exact hs.stageByte hr.2
  | stageFlag => exact hs.stageFlag
  | sendLoad =>
    have key : ∀ pc, ReceiveFifo.plain pc = true → Fifo pc m h taken :=
      fun _ hp => hs.plain rfl hp rfl rfl
    simp only [mainStep]
    exact nextSample_ind (P := fun pc => Fifo pc m h taken) (fun _ => key _ rfl) fun _ => key _ rfl
  | stageAdvance => exact ⟨hs.playback, hs.copying⟩
  | restartTest =>
    simp only [mainStep]
    split_ifs with he
    · exact ⟨hs.playback.leave he, hs.copying⟩
    · have he' : m.spk.en = false := by simpa using he
      exact ⟨hs.playback.choose he' (ho he'), hs.copying⟩
  | restartAddr => exact ⟨hs.playback.setReadAddr, hs.copying⟩
  | restartEnable => exact ⟨hs.playback.enable, hs.copying⟩
  | restartCount => exact ⟨hs.playback.trigger, hs.copying⟩
  | _ =>
    simp only [mainStep]
    (try split_ifs) <;> exact hs.plain rfl rfl rfl rfl

/-- The receive side is in order until a packet is staged over an unplayed one. -/
def Sound (x : Cfg Pc × ReceiveLog) : Prop :=
  x.2.restaged = true ∨ ∃ taken, Fifo x.1.pc x.1.m x.2 taken

theorem recordMain_restaged {s : Cfg Pc} {rc : Int} {h : ReceiveLog} (hr : h.restaged = true) :
    (h.recordMain s rc).restaged = true := by
  cases hpc : s.pc <;> simp only [ReceiveLog.recordMain, hpc]
  case readCall => split_ifs <;> exact hr
  case stageByte => simp [hr]
  all_goals exact hr

theorem recordEnv_restaged {s : Cfg Pc} {e : Env} {h : ReceiveLog} :
    (h.recordEnv s e).restaged = h.restaged := by
  cases e <;> rfl

theorem Sound.step {x y : Cfg Pc × ReceiveLog} {e : Event} (hs : Sound x)
    (ho : FullPackets x e ∧ Unraced x e) (hstep : receiveStep x e = some y) : Sound y := by
  obtain ⟨rc, rfl, rfl⟩ | ⟨f, m, rfl, hf, rfl⟩ := tracked_step_cases hstep
  · rcases hs with hr | ⟨taken, hs⟩
    · exact .inl (recordMain_restaged hr)
    · cases hr : (x.2.recordMain x.1 rc).restaged with
      | true => exact .inl hr
      | false => exact .inr ⟨taken, hs.main ho.1 ho.2 hr⟩
  · rcases hs with hr | ⟨taken, hs⟩
    · exact .inl (recordEnv_restaged.trans hr)
    · exact .inr (hs.effect ho.1 ho.2 (envStep_bufferEffect hf) (PlaySide.envStep_effect hf))

theorem sound_boot : Sound (boot, ReceiveLog.start) :=
  .inr ⟨0, ⟨RingWindow.empty _, .inr ⟨⟨rfl, rfl, rfl, rfl⟩, by decide, rfl⟩⟩, rfl⟩

/-- `main` is not between the flag and the restart of the channel. -/
def outsidePublish : Pc → Bool
  | .stageAdvance | .restartTest | .restartAddr | .restartEnable | .restartCount => false
  | _ => true

theorem Fifo.in_order {pc : Pc} {m : Machine} {h : ReceiveLog} {taken : ℕ}
    (hs : Fifo pc m h taken) : h.played <+: h.stream := by
  refine hs.playback.in_order.trans ?_
  have hc := hs.copying
  cases pc with
  | stageByte | stageFlag =>
    rw [hc.1]
    exact List.prefix_append _ _
  | _ =>
    have hst : h.stream = serial h.chunks := hc
    exact hst ▸ List.prefix_rfl

/-- Until a packet is staged over an unplayed one, in every run without a race: the flags are up on
the cyclic interval between the indices, channel 1 plays the bytes of the accepted packets
in order, and it does not stand still while a staged sample is unplayed. -/
theorem playback_is_fifo {es : List Event} {x : Cfg Pc × ReceiveLog}
    (ho : Along receiveStep (fun x e => FullPackets x e ∧ Unraced x e) (boot, ReceiveLog.start) es)
    (hr : run receiveStep (boot, ReceiveLog.start) es = some x) (hx : x.2.restaged = false) :
    RingWindow.CyclicInterval x.1.m.rxChunkReady x.1.m.spkReadChunkInd (writeInd x.1.pc x.1.m) ∧
      x.2.played <+: x.2.accepted.flatten.map UInt8.toUInt32 ∧
      (outsidePublish x.1.pc = true → (∃ c, x.1.m.rxChunkReady c = true) →
        x.1.m.spk.busy = true ∨ x.1.m.spk.irq = true) := by
  have hs : Sound x := ho.invariant Sound (fun _ _ _ hi hc ht => hi.step hc ht) sound_boot hr
  rcases hs with hc | ⟨taken, hs⟩
  · cases hx.symm.trans hc
  · refine ⟨hs.playback.window.cyclicInterval, hs.in_order, fun hp hc => ?_⟩
    have hb := hs.playback
    have haway : restartOf x.1.pc = .away := by
      cases hpc : x.1.pc <;> simp_all [outsidePublish, restartOf]
    rw [haway] at hb
    exact hb.not_stalled hc

/-- A packet of equal bytes, its interrupt served. -/
def packetOf (x : UInt8) : List Event :=
  [.env (.payload (List.replicate chunkSize x)), .env (.radioIrq .payloadReady)]

/-- Two packets, the second one received while the first one plays. -/
def twoPackets : List Event :=
  mains 6 ++ packetOf 1 ++ mains 74 ++ plays 30 ++ mains 6 ++ packetOf 2 ++ mains 70 ++ plays 70

def twoPacketsEnd : Cfg Pc × ReceiveLog :=
  ends receiveStep (boot, ReceiveLog.start) twoPackets (by decide +kernel)

theorem playback_is_fifo_two :
    twoPacketsEnd.2.played <+: twoPacketsEnd.2.accepted.flatten.map UInt8.toUInt32 :=
  (playback_is_fifo (x := twoPacketsEnd) (by decide +kernel) (run_ends _) (by decide +kernel)).2.1

/-- Two packets, both played out while `main` is between lines 190 and 191 of the second. -/
def drainedBeforeTest : List Event :=
  mains 6 ++ packetOf 1 ++ mains 80 ++ packetOf 2 ++ mains 68 ++ plays 120 ++ mains 6 ++
    [.env .spkTransfer]

/-- The channel is restarted on an empty ring and plays a word of no packet. -/
theorem restart_plays_stale_word :
    Along receiveStep FullPackets (boot, ReceiveLog.start) drainedBeforeTest ∧
      ∃ x, run receiveStep (boot, ReceiveLog.start) drainedBeforeTest = some x ∧
        x.2.restaged = false ∧ ¬ x.2.played <+: x.2.accepted.flatten.map UInt8.toUInt32 :=
  ⟨by decide +kernel, exists_of_run_any (by decide +kernel)⟩

end WalkieTalkie.ReceiveFifo
