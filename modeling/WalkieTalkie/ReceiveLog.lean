import WalkieTalkie.PlaySide

/-!
# The log of the receive branch

What the radio received, what `main` read and staged of it, and what channel 1 played.
-/
namespace WalkieTalkie

/-- A chunk as it stood in `spk_staging` when its flag was set. -/
structure Staged where
  chunk : Chunk UInt32
  /-- Its slot of `rx_ring` was cleared by the speaker handler while it was copied. -/
  wiped : Bool

structure ReceiveLog where
  /-- The payloads the radio received. -/
  received : List (List UInt8)
  /-- The bytes of the reads that returned zero. -/
  accepted : List (List UInt8)
  staged : List Staged
  /-- The words channel 1 has read. -/
  played : List UInt32
  /-- A sample has been staged into a slot whose flag was set. -/
  restaged : Bool
  /-- The slot being copied has been cleared since it was read. -/
  wiped : Bool

/-- The speaker handler would now clear the slot that `main` is copying. -/
def wipes (s : Cfg Pc) : Bool :=
  match s.pc with
  | .stageByte _ => decide ((s.m.spkReadPacketInd : ℕ) + 1 = chunkSize ∧
      s.m.spkReadChunkInd = s.m.rxWriteInd)
  | _ => false

namespace ReceiveLog

def start : ReceiveLog := ⟨[], [], [], [], false, false⟩

def recordMain (s : Cfg Pc) (rc : Int) (h : ReceiveLog) : ReceiveLog :=
  match s.pc with
  | .readCall =>
    if rc = 0 then
      { h with accepted := h.accepted ++ [s.m.radio.readBytes chunkSize], wiped := false }
    else h
  | .stageByte _ => { h with restaged := h.restaged || s.m.rxChunkReady s.m.rxWriteInd }
  | .stageFlag => { h with staged := h.staged ++ [⟨s.m.spkStaging s.m.rxWriteInd, h.wiped⟩] }
  | _ => h

def recordEnv (s : Cfg Pc) (e : Env) (h : ReceiveLog) : ReceiveLog :=
  match e with
  | .payload p => { h with received := h.received ++ [p] }
  | .spkTransfer => { h with played := h.played ++ [s.m.readWord s.m.spk.readAddr] }
  | .spkIrq => { h with wiped := h.wiped || wipes s }
  | _ => h

def record (s : Cfg Pc) (e : Event) (h : ReceiveLog) : ReceiveLog :=
  match e with
  | .main rc => h.recordMain s rc
  | .env e => h.recordEnv s e

/-- The chunks staged so far. -/
def chunks (h : ReceiveLog) : List (Chunk UInt32) := h.staged.map Staged.chunk

/-- The bytes of the accepted packets, as the words they are staged as. -/
def stream (h : ReceiveLog) : List UInt32 := h.accepted.flatten.map UInt8.toUInt32

end ReceiveLog

/-- The device with the log of its receive branch. -/
def receiveStep : Cfg Pc × ReceiveLog → Event → Option (Cfg Pc × ReceiveLog) :=
  PartialRuns.tracked step ReceiveLog.record

theorem receiveStep_run (s : Cfg Pc) (h : ReceiveLog) (es : List Event) :
    (PartialRuns.run receiveStep (s, h) es).map Prod.fst = PartialRuns.run step s es :=
  PartialRuns.tracked_run_fst s h es

/-- The receive buffers as `m'` has them after an event in `m`: only the speaker handler
writes there, and only the slot of the chunk it finishes. -/
structure BufferEffect (m : Machine) (e : Env) (m' : Machine) : Prop where
  writeInd : m'.rxWriteInd = m.rxWriteInd
  staging : m'.spkStaging = m.spkStaging
  ring : m'.rxRing = m.rxRing ∨ e = .spkIrq ∧ (m.spkReadPacketInd : ℕ) + 1 = chunkSize ∧
    m'.rxRing = Function.update m.rxRing m.spkReadChunkInd fun _ => 0

theorem BufferEffect.of_eq {m m' : Machine} {e : Env} (hw : m'.rxWriteInd = m.rxWriteInd)
    (hs : m'.spkStaging = m.spkStaging) (hr : m'.rxRing = m.rxRing) : BufferEffect m e m' :=
  ⟨hw, hs, .inl hr⟩

theorem pbIsrHandler_bufferEffect (m : Machine) (t : UInt32) :
    BufferEffect m (.pbIrq t) (m.pbIsrHandler t) := by
  cases ha : m.accepts t with
  | false =>
    rw [Machine.pbIsrHandler_rejected ha]
    exact .of_eq rfl rfl rfl
  | true =>
    rw [Machine.pbIsrHandler_accepted ha]
    cases hr : m.pin.rise <;> cases hf : m.pin.fall <;>
      simp only [Machine.pbBranches, Pin.events, hr, hf, if_true, Bool.false_eq_true, if_false] <;>
      exact .of_eq rfl rfl rfl

theorem dmaReadIrqHandler_bufferEffect (m : Machine) :
    BufferEffect m .spkIrq m.dmaReadIrqHandler := by
  have hlt := m.spkReadPacketInd.isLt
  by_cases h : (m.spkReadPacketInd : ℕ) + 1 < chunkSize
  · simp only [Machine.dmaReadIrqHandler, Machine.finishSample, dif_pos h, Machine.rearmOrDisable]
    split_ifs <;> exact .of_eq rfl rfl rfl
  · simp only [Machine.dmaReadIrqHandler, Machine.finishSample, dif_neg h, Machine.rearmOrDisable]
    split_ifs <;> exact ⟨rfl, rfl, .inr ⟨rfl, by omega, rfl⟩⟩

theorem envStep_bufferEffect {m m' : Machine} {e : Env} (h : envStep m e = some m') :
    BufferEffect m e m' := by
  cases e with
  | edge => cases h; exact .of_eq rfl rfl rfl
  | pbIrq t => cases h; exact pbIsrHandler_bufferEffect m t
  | sample | micIrq | spkTransfer =>
    simp only [envStep, Machine.micSample, Machine.spkTransfer] at h
    split_ifs at h
    cases h
    exact .of_eq rfl rfl rfl
  | spkIrq =>
    simp only [envStep] at h
    split_ifs at h
    cases h
    exact dmaReadIrqHandler_bufferEffect m
  | payload | packetSent | radioIrq | spurious =>
    obtain ⟨_, _, _, rfl⟩ := envStep_ofRadio rfl h
    exact .of_eq rfl rfl rfl

/-- The slot that `main` copies keeps its bytes, unless it is the one just finished. -/
theorem BufferEffect.slot {m m' : Machine} {e : Env} (h : BufferEffect m e m')
    (hn : e = .spkIrq →
      ¬ ((m.spkReadPacketInd : ℕ) + 1 = chunkSize ∧ m.spkReadChunkInd = m.rxWriteInd)) :
    m'.rxRing m.rxWriteInd = m.rxRing m.rxWriteInd := by
  rcases h.ring with hr | ⟨he, hp, hr⟩
  · rw [hr]
  · rw [hr, Function.update_of_ne fun hc => hn he ⟨hp, hc.symm⟩]

end WalkieTalkie
