import WalkieTalkie.CaptureSession
import WalkieTalkie.ReceiveFifo

/-!
# The whole history of one device

The log of the press session, the log of the receive branch, and what the device has
captured and put on the air over all its sessions.
-/
namespace WalkieTalkie
open PartialRuns

structure AirLog where
  /-- The chunks completed and flagged since boot, as they stood in their slots. -/
  captured : List (Chunk UInt8)
  /-- The buffers of the successful calls of `rfm9x_start_transmit` since boot. -/
  aired : List (List UInt8)

/-- The buffer this event puts on the air. -/
def airs (s : Cfg Pc) (e : Event) : Option (List UInt8) :=
  match e with
  | .main rc => match s.pc with
    | .sendLaunch buf => if rc = 0 then some buf else none
    | _ => none
  | .env _ => none

namespace AirLog

def start : AirLog := ⟨[], []⟩

def record (s : Cfg Pc) (e : Event) (a : AirLog) : AirLog :=
  match e with
  | .env .micIrq => { a with captured := a.captured ++ [s.m.txRing s.m.dmaWriteInd] }
  | _ => { a with aired := a.aired ++ (airs s e).toList }

end AirLog

structure DeviceLog where
  session : CaptureLog
  air : AirLog
  receive : ReceiveLog

namespace DeviceLog

def start : DeviceLog := ⟨CaptureLog.start, AirLog.start, ReceiveLog.start⟩

def record (s : Cfg Pc) (e : Event) (h : DeviceLog) : DeviceLog :=
  ⟨h.session.record s e, h.air.record s e, h.receive.record s e⟩

end DeviceLog

abbrev Device := Cfg Pc × DeviceLog

namespace Device

def step : Device → Event → Option Device := tracked WalkieTalkie.step DeviceLog.record

def boot : Device := (WalkieTalkie.boot, DeviceLog.start)

/-- The device with one part of its history. -/
def session (x : Device) : Cfg Pc × CaptureLog := (x.1, x.2.session)

def receive (x : Device) : Cfg Pc × ReceiveLog := (x.1, x.2.receive)

variable {x y : Device} {e : Event}

theorem sessionStep (h : step x e = some y) :
    WalkieTalkie.sessionStep x.session e = some y.session :=
  tracked_map DeviceLog.session (fun _ _ _ => rfl) h

theorem receiveStep (h : step x e = some y) :
    WalkieTalkie.receiveStep x.receive e = some y.receive :=
  tracked_map DeviceLog.receive (fun _ _ _ => rfl) h

theorem aired_step (h : step x e = some y) :
    y.2.air.aired = x.2.air.aired ++ (airs x.1 e).toList := by
  obtain ⟨rc, rfl, rfl⟩ | ⟨f, m, rfl, _, rfl⟩ := tracked_step_cases h
  · rfl
  · cases f <;> simp [DeviceLog.record, AirLog.record, airs]

end Device

/-- What a buffer on its way to the FIFO has taken of its sixty bytes. -/
def BufferLength : Pc → Prop
  | .sendLoad _ i buf => buf.length = i
  | .sendLaunch buf => buf.length = chunkSize
  | _ => True

theorem BufferLength.main {rc : Int} {m : Machine} {pc : Pc} (h : BufferLength pc) :
    BufferLength (mainStep rc m pc).1 := by
  cases pc with
  | sendLoad txIdx i buf =>
    have hl : (buf ++ [m.txRing txIdx i]).length = (i : ℕ) + 1 := by
      rw [List.length_append, List.length_singleton]
      exact congrArg (· + 1) h
    simp only [mainStep]
    exact nextSample_ind (P := BufferLength) (fun _ => hl) fun hi => hl.trans hi
  | stageByte i => exact nextSample_ind (P := BufferLength) (fun _ => trivial) fun _ => trivial
  | sendCall => rfl
  | _ =>
    simp only [mainStep]
    (try split_ifs) <;> trivial

/-- Every packet the device has put on the air has sixty bytes. -/
structure FullChunks (x : Device) : Prop where
  buffer : BufferLength x.1.pc
  aired : ∀ p ∈ x.2.air.aired, p.length = chunkSize

theorem airs_length {s : Cfg Pc} {e : Event} {p : List UInt8} (h : BufferLength s.pc)
    (ha : airs s e = some p) : p.length = chunkSize := by
  cases e with
  | env => cases ha
  | main rc =>
    cases hpc : s.pc <;> simp only [airs, hpc] at ha <;> try cases ha
    rw [hpc] at h
    split_ifs at ha
    cases ha
    exact h

theorem FullChunks.step {x y : Device} {e : Event} (h : FullChunks x)
    (ht : Device.step x e = some y) : FullChunks y := by
  refine ⟨?_, fun p hp => ?_⟩
  · obtain ⟨rc, rfl, rfl⟩ | ⟨f, m, rfl, _, rfl⟩ := tracked_step_cases ht
    · exact h.buffer.main
    · exact h.buffer
  · rw [Device.aired_step ht, List.mem_append, Option.mem_toList] at hp
    exact hp.elim (h.aired p) fun ha => airs_length h.buffer ha

theorem fullChunks_boot : FullChunks Device.boot := ⟨trivial, fun _ hp => by cases hp⟩

end WalkieTalkie
