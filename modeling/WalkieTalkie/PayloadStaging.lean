import Mathlib.Data.List.Forall2
import WalkieTalkie.ReceiveLog

/-!
# Each received payload is staged at most once

A payload waits in the radio until a read or a radio command takes it away. The payloads no
longer waiting are the consumed ones, and what has been staged is a subsequence of them.
-/
namespace WalkieTalkie.PayloadStaging
open PartialRuns

section Subsequence

variable {α β : Type*} {R : α → β → Prop} {as : List α} {bs : List β}

theorem sublist_append_right (h : List.SublistForall₂ R as bs) (cs : List β) :
    List.SublistForall₂ R as (bs ++ cs) := by
  obtain ⟨l, hl, hs⟩ := List.sublistForall₂_iff.mp h
  exact List.sublistForall₂_iff.mpr ⟨l, hl, hs.trans (List.sublist_append_left bs cs)⟩

theorem sublist_concat (h : List.SublistForall₂ R as bs) {a : α} {b : β} (hr : R a b) :
    List.SublistForall₂ R (as ++ [a]) (bs ++ [b]) := by
  obtain ⟨l, hl, hs⟩ := List.sublistForall₂_iff.mp h
  exact List.sublistForall₂_iff.mpr ⟨l ++ [b], List.rel_append hl (.cons hr .nil),
    hs.append (List.Sublist.refl [b])⟩

end Subsequence

/-- A staged chunk holds the bytes of the payload, unless its slot was cleared meanwhile. -/
def Holds (s : Staged) (p : List UInt8) : Prop :=
  s.wiped = false → ∀ i : Sample, ∀ b, p[(i : ℕ)]? = some b → s.chunk i = b.toUInt32

/-- The payloads received are those consumed and the one that waits. What has been staged is
a subsequence of the consumed ones, the one being copied not counted. -/
def Staging (pc : Pc) (m : Machine) (h : ReceiveLog) : Prop :=
  match pc with
  | .stageByte i => ∃ consumed p, h.received = consumed ++ [p] ++ m.radio.waiting.toList ∧
      List.SublistForall₂ Holds h.staged consumed ∧ (h.wiped = false → ∀ j : Sample, ∀ b,
        p[(j : ℕ)]? = some b → m.rxRing m.rxWriteInd j = b ∧
          ((j : ℕ) < i → m.spkStaging m.rxWriteInd j = b.toUInt32))
  | .stageFlag => ∃ consumed p, h.received = consumed ++ [p] ++ m.radio.waiting.toList ∧
      List.SublistForall₂ Holds h.staged consumed ∧
      Holds ⟨m.spkStaging m.rxWriteInd, h.wiped⟩ p
  | .readCall => ∃ consumed p, h.received = consumed ++ [p] ∧ m.radio.waiting = some p ∧
      List.SublistForall₂ Holds h.staged consumed
  | _ => ∃ consumed, h.received = consumed ++ m.radio.waiting.toList ∧
      List.SublistForall₂ Holds h.staged consumed

/-- Neither reading nor copying a payload. -/
def plain : Pc → Bool
  | .readCall | .stageByte _ | .stageFlag => false
  | _ => true

theorem staging_iff {pc : Pc} {m : Machine} {h : ReceiveLog} (hp : plain pc = true) :
    Staging pc m h ↔ ∃ consumed, h.received = consumed ++ m.radio.waiting.toList ∧
      List.SublistForall₂ Holds h.staged consumed := by
  cases pc <;> first | rfl | cases hp

/-- Between two plain statements a waiting payload stays or is discarded. -/
theorem Staging.plain {pc pc' : Pc} {m m' : Machine} {h : ReceiveLog} (hs : Staging pc m h)
    (hp : plain pc = true) (hp' : plain pc' = true)
    (hw : m'.radio.waiting = m.radio.waiting ∨ m'.radio.waiting = none) : Staging pc' m' h := by
  obtain ⟨consumed, hr, hsub⟩ := (staging_iff hp).mp hs
  refine (staging_iff hp').mpr ?_
  rcases hw with hw | hw
  · exact ⟨consumed, by rw [hw, hr], hsub⟩
  · exact ⟨h.received, by simp [hw], hr ▸ sublist_append_right hsub _⟩

/-- A read takes the waiting payload, whatever it returns. -/
theorem Staging.readCall {m : Machine} {h : ReceiveLog} (hs : Staging .readCall m h) (rc : Int) :
    Staging (mainStep rc m .readCall).1 (mainStep rc m .readCall).2
      (h.recordMain ⟨.readCall, m⟩ rc) := by
  obtain ⟨consumed, p, hr, hw, hsub⟩ := hs
  by_cases hrc : rc = 0
  · simp only [mainStep, ReceiveLog.recordMain, if_pos hrc]
    refine ⟨consumed, p, by simpa [Radio.rfm9xReadData] using hr, hsub, fun _ j b hb => ⟨?_, ?_⟩⟩
    · have hj := j.isLt
      have hget : (m.radio.readBytes chunkSize)[(j : ℕ)]? = some b := by
        simpa [Radio.readBytes, hw, List.getElem?_take, hj] using hb
      simp [Machine.fillSlot, hget]
    · exact fun hlt => absurd hlt (Nat.not_lt_zero _)
  · simp only [mainStep, ReceiveLog.recordMain, if_neg hrc]
    exact ⟨h.received, by simp [Radio.rfm9xReadData], hr ▸ sublist_append_right hsub _⟩

theorem Staging.stageByte {m : Machine} {h : ReceiveLog} {i : Sample}
    (hs : Staging (.stageByte i) m h) (r : Bool) :
    Staging (nextSample i .stageByte .stageFlag) (m.stageSample i) { h with restaged := r } := by
  obtain ⟨consumed, p, hr, hsub, hb⟩ := hs
  have hnew : h.wiped = false → ∀ j : Sample, ∀ b, p[(j : ℕ)]? = some b →
      m.rxRing m.rxWriteInd j = b ∧
        ((j : ℕ) < i + 1 → (m.stageSample i).spkStaging m.rxWriteInd j = b.toUInt32) := by
    intro hwi j b hj
    obtain ⟨hring, hcopy⟩ := hb hwi j b hj
    refine ⟨hring, fun hlt => ?_⟩
    by_cases hji : j = i
    · subst hji
      simp [Machine.stageSample, hring]
    · have hlt' : (j : ℕ) < i := by
        have := Fin.val_ne_of_ne hji
        omega
      simpa [Machine.stageSample, hji] using hcopy hlt'
  refine nextSample_ind
    (P := fun pc => Staging pc (m.stageSample i) { h with restaged := r })
    (fun hi => ⟨consumed, p, hr, hsub, hnew⟩) fun hi => ⟨consumed, p, hr, hsub, ?_⟩
  intro hwi j b hj
  exact (hnew hwi j b hj).2 (by have := j.isLt; omega)

theorem Staging.stageFlag {m : Machine} {h : ReceiveLog} (hs : Staging .stageFlag m h) :
    Staging .stageAdvance
      { m with rxChunkReady := Function.update m.rxChunkReady m.rxWriteInd true }
      { h with staged := h.staged ++ [⟨m.spkStaging m.rxWriteInd, h.wiped⟩] } := by
  obtain ⟨consumed, p, hr, hsub, hb⟩ := hs
  exact ⟨consumed ++ [p], hr, sublist_concat hsub hb⟩

theorem Staging.main {pc : Pc} {m : Machine} {h : ReceiveLog} (hs : Staging pc m h) (rc : Int) :
    Staging (mainStep rc m pc).1 (mainStep rc m pc).2 (h.recordMain ⟨pc, m⟩ rc) := by
  cases pc with
  | readCall => exact hs.readCall rc
  | stageByte i => exact hs.stageByte _
  | stageFlag => exact hs.stageFlag
  | spuriousTest =>
    simp only [mainStep]
    split_ifs with hf
    · exact hs.plain rfl rfl (.inl rfl)
    · obtain ⟨consumed, hr, hsub⟩ := hs
      cases hw : m.radio.waiting with
      | none => simp [Radio.irqFlags2, hw] at hf
      | some p =>
        rw [hw] at hr
        exact ⟨consumed, p, hr, hw, hsub⟩
  | sendLoad =>
    have key : ∀ pc, PayloadStaging.plain pc = true → Staging pc m h :=
      fun _ hp => hs.plain rfl hp (.inl rfl)
    simp only [mainStep]
    exact nextSample_ind (P := fun pc => Staging pc m h) (fun _ => key _ rfl) fun _ => key _ rfl
  | armCall =>
    simp only [mainStep, Radio.rfm9xStartReceive]
    split_ifs
    · exact hs.plain rfl rfl (.inr rfl)
    · exact hs.plain rfl rfl (.inl rfl)
  | sendLaunch =>
    simp only [mainStep, Radio.launchTransmit]
    split_ifs
    · exact hs.plain rfl rfl (.inr rfl)
    · exact hs.plain rfl rfl (.inl rfl)
  | _ =>
    simp only [mainStep]
    (try split_ifs) <;> exact hs.plain rfl rfl (.inl rfl)

/-- Outside `main` a payload may arrive where none waits, and what waits stays. -/
theorem envStep_waiting {m m' : Machine} {e : Env} {s : Cfg Pc} {h : ReceiveLog}
    (he : envStep m e = some m') :
    (m'.radio.waiting = m.radio.waiting ∧ (h.recordEnv s e).received = h.received) ∨
      ∃ p, m.radio.waiting = none ∧ m'.radio.waiting = some p ∧
        (h.recordEnv s e).received = h.received ++ [p] := by
  by_cases hp : ∃ p, e = .payload p
  · obtain ⟨p, rfl⟩ := hp
    simp only [envStep, Option.map_eq_some_iff, Radio.receive] at he
    obtain ⟨r, hr, rfl⟩ := he
    split_ifs at hr with hc
    cases hr
    exact .inr ⟨p, hc.2, rfl, rfl⟩
  · have hrec : (h.recordEnv s e).received = h.received := by
      cases e <;> first | rfl | exact absurd ⟨_, rfl⟩ hp
    have hv : m'.radioSide.radio.waiting = m.radio.waiting := by
      have hv := RadioSide.envStep_effect he
      generalize m'.radioSide = v at hv
      cases hv with
      | payload => exact absurd ⟨_, rfl⟩ hp
      | payloadIsr | sentIsr | spurious =>
        cases hst : m.state <;> simp [RadioSide.isr, Machine.radioSide, hst]
      | _ => rfl
    exact .inl ⟨hv, hrec⟩

theorem Staging.effect {pc : Pc} {m m' : Machine} {h : ReceiveLog} {e : Env}
    (hs : Staging pc m h) (he : envStep m e = some m') :
    Staging pc m' (h.recordEnv ⟨pc, m⟩ e) := by
  have hb := envStep_bufferEffect he
  have hst : (h.recordEnv ⟨pc, m⟩ e).staged = h.staged := by cases e <;> rfl
  have hwi : (h.recordEnv ⟨pc, m⟩ e).wiped = false →
      h.wiped = false ∧ (e = .spkIrq → wipes ⟨pc, m⟩ = false) := by
    cases e <;> simp [ReceiveLog.recordEnv]
  have hrec : ∀ consumed, h.received = consumed ++ m.radio.waiting.toList →
      (h.recordEnv ⟨pc, m⟩ e).received = consumed ++ m'.radio.waiting.toList := by
    intro consumed hr
    rcases envStep_waiting (s := ⟨pc, m⟩) (h := h) he with ⟨hw, hr'⟩ | ⟨p, hw, hw', hr'⟩
    · rw [hr', hw, hr]
    · rw [hr', hw', hr, hw]
      simp
  cases pc with
  | stageByte i =>
    obtain ⟨consumed, p, hr, hsub, hbytes⟩ := hs
    refine ⟨consumed, p, hrec _ hr, hst ▸ hsub, fun hf j b hj => ?_⟩
    obtain ⟨hf', hn⟩ := hwi hf
    have hslot := hb.slot fun hi => by simpa [wipes] using hn hi
    rw [hb.writeInd, hb.staging, hslot]
    exact hbytes hf' j b hj
  | stageFlag =>
    obtain ⟨consumed, p, hr, hsub, hbytes⟩ := hs
    refine ⟨consumed, p, hrec _ hr, hst ▸ hsub, fun hf => ?_⟩
    rw [hb.writeInd, hb.staging]
    exact hbytes (hwi hf).1
  | readCall =>
    obtain ⟨consumed, p, hr, hw, hsub⟩ := hs
    rcases envStep_waiting (s := ⟨.readCall, m⟩) (h := h) he with ⟨hw', hr'⟩ | ⟨q, hn, _⟩
    · exact ⟨consumed, p, hr'.trans hr, hw'.trans hw, hst ▸ hsub⟩
    · cases hw.symm.trans hn
  | _ =>
    obtain ⟨consumed, hr, hsub⟩ := hs
    exact ⟨consumed, hrec _ hr, hst ▸ hsub⟩

theorem Staging.step {x y : Cfg Pc × ReceiveLog} {e : Event} (hs : Staging x.1.pc x.1.m x.2)
    (hstep : receiveStep x e = some y) : Staging y.1.pc y.1.m y.2 := by
  obtain ⟨rc, rfl, rfl⟩ | ⟨f, m, rfl, hf, rfl⟩ := tracked_step_cases hstep
  · exact hs.main rc
  · exact hs.effect hf

theorem staging_boot : Staging boot.pc boot.m ReceiveLog.start := ⟨[], rfl, .nil⟩

theorem Staging.subsequence {pc : Pc} {m : Machine} {h : ReceiveLog} (hs : Staging pc m h) :
    List.SublistForall₂ Holds h.staged h.received := by
  cases pc with
  | stageByte | stageFlag =>
    obtain ⟨consumed, p, hr, hsub, _⟩ := hs
    rw [hr, List.append_assoc]
    exact sublist_append_right hsub _
  | readCall =>
    obtain ⟨consumed, p, hr, _, hsub⟩ := hs
    rw [hr]
    exact sublist_append_right hsub _
  | _ =>
    obtain ⟨consumed, hr, hsub⟩ := hs
    rw [hr]
    exact sublist_append_right hsub _

/-- No slot has been cleared while it was copied. -/
def Unwiped (h : ReceiveLog) : Prop := h.wiped = false ∧ ∀ s ∈ h.staged, s.wiped = false

theorem Unwiped.step {x y : Cfg Pc × ReceiveLog} {e : Event} (hs : Unwiped x.2)
    (he : e ≠ .env .spkIrq) (hstep : receiveStep x e = some y) : Unwiped y.2 := by
  obtain ⟨t, h'⟩ := y
  obtain ⟨_, rfl⟩ := tracked_eq_some.mp hstep
  obtain ⟨hw, hall⟩ := hs
  cases e with
  | main rc =>
    cases hpc : x.1.pc <;> simp only [ReceiveLog.record, ReceiveLog.recordMain, hpc]
    case readCall => split_ifs <;> first | exact ⟨rfl, hall⟩ | exact ⟨hw, hall⟩
    case stageFlag =>
      refine ⟨hw, fun s hs => ?_⟩
      rcases List.mem_append.mp hs with hm | hm
      · exact hall s hm
      · rw [List.mem_singleton.mp hm]
        exact hw
    all_goals exact ⟨hw, hall⟩
  | env e => cases e <;> first | exact ⟨hw, hall⟩ | exact absurd rfl he

/-- `y` is `x` with nothing staged or flagged in between, apart from the flags that the
speaker handler lowers. -/
structure Unstaged (quiet : Prop) (x y : Cfg Pc × ReceiveLog) : Prop where
  staged : y.2.staged = x.2.staged
  staging : y.1.m.spkStaging = x.1.m.spkStaging
  writeInd : y.1.m.rxWriteInd = x.1.m.rxWriteInd
  ready : quiet → y.1.m.rxChunkReady = x.1.m.rxChunkReady

theorem Unstaged.trans {p : Prop} {x y z : Cfg Pc × ReceiveLog} (h : Unstaged p x y)
    (h' : Unstaged p y z) : Unstaged p x z :=
  ⟨h'.staged.trans h.staged, h'.staging.trans h.staging, h'.writeInd.trans h.writeInd,
    fun hp => (h'.ready hp).trans (h.ready hp)⟩

theorem Unstaged.mono {p q : Prop} {x y : Cfg Pc × ReceiveLog} (h : Unstaged p x y)
    (hq : q → p) : Unstaged q x y := ⟨h.staged, h.staging, h.writeInd, fun hh => h.ready (hq hh)⟩

theorem unstaged_env {x y : Cfg Pc × ReceiveLog} {e : Env}
    (hstep : receiveStep x (.env e) = some y) : y.1.pc = x.1.pc ∧ Unstaged (e ≠ .spkIrq) x y := by
  obtain ⟨t, h'⟩ := y
  obtain ⟨ht, rfl⟩ := tracked_eq_some.mp hstep
  obtain ⟨rc, hc, _⟩ | ⟨f, m, hc, hf, rfl⟩ := step_cases ht <;> cases hc
  have hb := envStep_bufferEffect hf
  refine ⟨rfl, by cases e <;> rfl, hb.staging, hb.writeInd, fun hn => ?_⟩
  have hv : m.playSide.rxChunkReady = x.1.m.rxChunkReady := by
    have hv := PlaySide.envStep_effect hf
    generalize m.playSide = v at hv
    cases hv with
    | serve => exact absurd rfl hn
    | _ => rfl
  exact hv

theorem unstaged_envs {fs : List Env} {x y : Cfg Pc × ReceiveLog}
    (hr : run receiveStep x (fs.map .env) = some y) :
    y.1.pc = x.1.pc ∧ Unstaged (∀ f ∈ fs, f ≠ .spkIrq) x y := by
  induction fs generalizing x with
  | nil =>
    cases hr
    exact ⟨rfl, rfl, rfl, rfl, fun _ => rfl⟩
  | cons f fs ih =>
    obtain ⟨z, hz, hr⟩ := run_cons_eq_some.mp hr
    obtain ⟨hpc, hu⟩ := unstaged_env hz
    obtain ⟨hpc', hu'⟩ := ih hr
    refine ⟨hpc'.trans hpc, (hu.mono ?_).trans (hu'.mono ?_)⟩
    · exact fun hall => hall f (by simp)
    · exact fun hall g hg => hall g (by simp [hg])

/-- With no payload waiting at the register check `main` returns to the loop head and stages
nothing, whatever happens before its next statement. -/
theorem spurious_stages_nothing {x y : Cfg Pc × ReceiveLog} {rc rc' : Int} {fs : List Env}
    (hpc : x.1.pc = .spuriousTest) (hw : x.1.m.radio.waiting = none)
    (hr : run receiveStep x (.main rc :: (fs.map .env ++ [.main rc'])) = some y) :
    y.1.pc = .loopHead ∧ Unstaged (∀ f ∈ fs, f ≠ .spkIrq) x y := by
  obtain ⟨⟨pc, m⟩, h⟩ := x
  subst hpc
  obtain ⟨z, hz, hr⟩ := run_cons_eq_some.mp hr
  have hz' : z = (⟨.spuriousArm, m⟩, h) := by
    have hw' : m.radio.waiting = none := hw
    have hs : receiveStep (⟨.spuriousTest, m⟩, h) (.main rc) = some (⟨.spuriousArm, m⟩, h) := by
      simp [receiveStep, tracked, WalkieTalkie.step, mainStep, Radio.irqFlags2, hw',
        ReceiveLog.record, ReceiveLog.recordMain]
    exact Option.some.inj (hz.symm.trans hs)
  subst hz'
  obtain ⟨w, hws, hr⟩ := run_append_eq_some.mp hr
  obtain ⟨hpc, hu⟩ := unstaged_envs hws
  obtain ⟨⟨pc', m'⟩, h'⟩ := w
  cases hpc
  obtain ⟨v, hv, hr⟩ := run_cons_eq_some.mp hr
  cases hr
  cases hv
  exact ⟨rfl, hu.staged, hu.staging, hu.writeInd, hu.ready⟩

/-- In every run: what `main` stages is, in order, a subsequence of the payloads received,
each chunk holding the bytes of its own payload unless the speaker handler cleared its slot
during the copy; and a spurious packet flag stages nothing. -/
theorem only_received_payloads_staged {es : List Event} {x : Cfg Pc × ReceiveLog}
    (hr : run receiveStep (boot, ReceiveLog.start) es = some x) :
    List.SublistForall₂ Holds x.2.staged x.2.received ∧
      ((∀ e ∈ es, e ≠ .env .spkIrq) → ∀ s ∈ x.2.staged, s.wiped = false) ∧
      (x.1.pc = .spuriousTest → x.1.m.radio.waiting = none →
        ∀ (rc rc' : Int) (fs : List Env) (y : Cfg Pc × ReceiveLog),
        run receiveStep x (.main rc :: (fs.map .env ++ [.main rc'])) = some y →
          y.1.pc = .loopHead ∧ Unstaged (∀ f ∈ fs, f ≠ .spkIrq) x y) := by
  refine ⟨?_, fun hes => ?_, fun hpc hw rc rc' fs y hy => spurious_stages_nothing hpc hw hy⟩
  · exact (run_invariant (fun x => Staging x.1.pc x.1.m x.2) (fun _ _ _ hi ht => hi.step ht)
      staging_boot hr).subsequence
  · exact ((along_of_forall hes (boot, ReceiveLog.start)).invariant (fun x => Unwiped x.2)
      (fun _ _ _ hi he ht => hi.step he ht) ⟨rfl, by simp [ReceiveLog.start]⟩ hr).2

/-- A payload discarded by a press and a new one after the release, read and staged. -/
def discardedPayload : List Event :=
  mains 6 ++ [.env (.payload [1]), .env (.radioIrq .payloadReady)] ++ button 100000 ++
    samples 60 ++ [.env .micIrq] ++ mains 72 ++ button 200000 ++ mains 8 ++
    [.env (.payload [2, 3]), .env (.radioIrq .payloadReady)] ++ mains 72

def discardedPayloadEnd : Cfg Pc × ReceiveLog :=
  ends receiveStep (boot, ReceiveLog.start) discardedPayload (by decide +kernel)

theorem discarded_payload_not_staged :
    List.SublistForall₂ Holds discardedPayloadEnd.2.staged discardedPayloadEnd.2.received :=
  (only_received_payloads_staged (x := discardedPayloadEnd) (run_ends _)).1

end WalkieTalkie.PayloadStaging
