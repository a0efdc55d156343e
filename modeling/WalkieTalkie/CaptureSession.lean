import WalkieTalkie.CaptureSide
import WalkieTalkie.RingWindow
import WalkieTalkie.SerialBlocks

/-!
# A press session sends what it captures

The transmit ring is a window on the chunks captured since the press, up to the first
overrun. Main's send step holds an index and a flag of that window from its test at
line 124 to line 156, so the session is clean as long as no press falls in between.
-/
namespace WalkieTalkie.CaptureSession
open PartialRuns

/-- The slot channel 0 is filling shows no chunk, unless nothing was written to it yet. -/
structure FillsClear (v : CaptureSide) : Prop where
  irq : v.mic.irq = true → v.txChunkReady v.dmaWriteInd = false
  busy : v.adcOn = true → v.mic.irq = false → v.mic.busy = true ∧
    (v.mic.writeAddr = chunkSize * (v.dmaWriteInd : ℕ) ∨ v.txChunkReady v.dmaWriteInd = false)

theorem FillsClear.trigger {v : CaptureSide} (h : FillsClear v) :
    FillsClear { v with mic := v.mic.trigger } := by
  refine ⟨by simpa using h.irq, fun ha hi => ⟨by simp, ?_⟩⟩
  simpa using (h.busy ha (by simpa using hi)).2

theorem FillsClear.release {v : CaptureSide} (h : FillsClear v) : FillsClear v.release :=
  ⟨h.irq, fun ha => by cases ha⟩

theorem fillsClear_press (v : CaptureSide) : FillsClear v.press := by
  exact ⟨fun _ => rfl, fun _ _ => ⟨MicChannel.setTransCount_busy _ _, Or.inr rfl⟩⟩

theorem fillsClear_flagSlot (v : CaptureSide) : FillsClear v.flagSlot := by
  constructor <;> simp [CaptureSide.flagSlot]

/-- A sample that overruns nothing shows that the slot being filled is clear. -/
theorem FillsClear.clear {m : Machine} (h : FillsClear m.captureSide) (ha : m.adcOn = true)
    (hf : CaptureLog.hitsFlag m = false) : m.txChunkReady m.dmaWriteInd = false := by
  cases hi : m.mic.irq with
  | true => exact h.irq hi
  | false =>
    rcases (h.busy ha hi).2 with hw | hr
    · have hw' : m.mic.writeAddr = 60 * (m.dmaWriteInd : ℕ) := hw
      simp only [CaptureLog.hitsFlag, chunkSize, decide_eq_false_iff_not, not_exists, not_and,
        Bool.not_eq_true] at hf
      exact hf m.dmaWriteInd (by omega) (by omega)
    · exact hr

theorem FillsClear.sample {v : CaptureSide} (h : FillsClear v) (x : UInt8)
    (hc : v.txChunkReady v.dmaWriteInd = false) : FillsClear (v.sample x) := by
  refine ⟨fun _ => hc, fun ha hi => ⟨?_, Or.inr hc⟩⟩
  simp only [CaptureSide.sample, MicChannel.advance] at hi ⊢
  split_ifs at hi ⊢
  exact (h.busy ha hi).1

theorem FillsClear.clearFlag {v : CaptureSide} (h : FillsClear v) (c : TxSlot) :
    FillsClear { v with txChunkReady := Function.update v.txChunkReady c false } := by
  have hclear : v.txChunkReady v.dmaWriteInd = false →
      Function.update v.txChunkReady c false v.dmaWriteInd = false := by
    intro hr
    by_cases he : v.dmaWriteInd = c
    · simp [he]
    · simpa [Function.update_of_ne he] using hr
  refine ⟨fun hi => hclear (h.irq hi), fun ha hi => ?_⟩
  obtain ⟨hb, hw⟩ := h.busy ha hi
  exact ⟨hb, hw.imp_right hclear⟩

/-- Overrun-free samples leave every slot that shows a chunk alone. -/
theorem sample_txRing {m : Machine} (x : UInt8) (hf : CaptureLog.hitsFlag m = false) {c : TxSlot}
    (hc : m.txChunkReady c = true) : (m.captureSide.sample x).txRing c = m.txRing c := by
  funext i
  have hi := i.isLt
  simp only [CaptureLog.hitsFlag, chunkSize, decide_eq_false_iff_not, not_exists, not_and] at hf
  have hne : ringAddr c i ≠ m.mic.writeAddr := by
    intro he
    simp only [ringAddr, chunkSize] at he hi
    exact hf c (by omega) (by omega) hc
  simp [CaptureSide.sample, Machine.captureSide, hne]

/-- The chunk at the read index has been sent but its flag is still set. -/
def owes : Pc → Bool
  | .sendNotDone rc | .sendStatus rc => rc = 0
  | .sendClear => true
  | _ => false

/-- `main` is past a successful start and has not finished with the read index. -/
def committed (pc : Pc) : Bool := owes pc || pc = .sendAdvance

/-- The read index, at line 156 as it will be after it. -/
def readInd (pc : Pc) (v : CaptureSide) : TxSlot :=
  if pc = .sendAdvance then v.loraReadInd + 1 else v.loraReadInd

/-- What the send step holds of the window, unless a press has come since its test. -/
def Progress (pc : Pc) (v : CaptureSide) (h : CaptureLog) (taken : ℕ) : Prop :=
  match pc with
  | .sendIndex => h.stale = false → taken < h.captured.length
  | .sendCall txIdx => h.stale = false → txIdx = v.loraReadInd ∧ taken < h.captured.length
  | .sendLoad txIdx i buf => h.stale = false → txIdx = v.loraReadInd ∧
      (h.opened = true → h.live = true) ∧ (h.live = true → h.sent.length = taken) ∧
      ∃ c, h.captured[taken]? = some c ∧ buf = (List.ofFn c).take i
  | .sendLaunch buf => h.stale = false →
      (h.opened = true → h.live = true) ∧ (h.live = true → h.sent.length = taken) ∧
      ∃ c, h.captured[taken]? = some c ∧ buf = List.ofFn c
  | .sendNotDone rc | .sendStatus rc => rc = 0 → taken < h.captured.length
  | .sendClear => taken < h.captured.length
  | _ => True

structure Session (pc : Pc) (v : CaptureSide) (h : CaptureLog) (taken : ℕ) : Prop where
  window : RingWindow v.txRing v.txChunkReady (readInd pc v) v.dmaWriteInd h.captured taken
  fill : FillsClear v
  fresh : h.oldIrq = false
  in_order : h.sent <+: h.captured.map List.ofFn
  sent_count : h.opened = true → h.sent.length = taken + (owes pc).toNat
  progress : Progress pc v h taken

/-- A press starts a session from any state of the ring, provided `main` is not past a
successful start and no interrupt of an earlier chunk is pending. -/
theorem session_press {pc : Pc} (v : CaptureSide) (hc : committed pc = false) {h : CaptureLog}
    (hh : h = { CaptureLog.start with opened := true, stale := true, unserved := h.unserved }) :
    Session pc v.press h 0 := by
  simp only [committed, Bool.or_eq_false_iff, decide_eq_false_iff_not] at hc
  rw [hh]
  refine ⟨?_, fillsClear_press v, rfl, List.nil_prefix, by simp [CaptureLog.start, hc.1], ?_⟩
  · simpa [readInd, hc.2, CaptureSide.press, CaptureLog.start] using RingWindow.empty v.txRing
  · have ho := hc.1
    cases pc <;> simp_all [Progress, owes]

theorem Session.trigger {pc : Pc} {v : CaptureSide} {h : CaptureLog} {taken : ℕ}
    (hs : Session pc v h taken) : Session pc { v with mic := v.mic.trigger } h taken :=
  ⟨hs.window, hs.fill.trigger, hs.fresh, hs.in_order, hs.sent_count, hs.progress⟩

theorem Session.release {pc : Pc} {v : CaptureSide} {h : CaptureLog} {taken : ℕ}
    (hs : Session pc v h taken) : Session pc v.release h taken :=
  ⟨hs.window, hs.fill.release, hs.fresh, hs.in_order, hs.sent_count, hs.progress⟩

theorem Session.close {pc : Pc} {v : CaptureSide} {h : CaptureLog} {taken : ℕ}
    (hs : Session pc v h taken) (u : Bool) :
    Session pc v { h with opened := false, unserved := u } taken := by
  refine ⟨hs.window, hs.fill, hs.fresh, hs.in_order, (fun ho => by cases ho), ?_⟩
  have hp := hs.progress
  cases pc <;> simp_all [Progress]

theorem Session.sample {pc : Pc} {m : Machine} {h : CaptureLog} {taken : ℕ}
    (hs : Session pc m.captureSide h taken) (ha : m.adcOn = true)
    (hf : CaptureLog.hitsFlag m = false) (x : UInt8) {h' : CaptureLog}
    (hh : h' = { h with samples := h'.samples, overrun := h'.overrun }) :
    Session pc (m.captureSide.sample x) h' taken := by
  rw [hh]
  exact ⟨hs.window.congr_slot fun c hc => sample_txRing x hf hc,
    hs.fill.sample x (hs.fill.clear ha hf), hs.fresh, hs.in_order, hs.sent_count, hs.progress⟩

theorem Progress.flagSlot {pc : Pc} {v : CaptureSide} {h : CaptureLog} {taken : ℕ}
    (hp : Progress pc v h taken) (c : Chunk UInt8) :
    Progress pc v.flagSlot { h with captured := h.captured ++ [c], oldIrq := false,
                                    unserved := false } taken := by
  cases pc with
  | sendLoad txIdx i buf =>
    intro hst
    obtain ⟨hx, ho, hl, d, hd, hb⟩ := hp hst
    exact ⟨hx, ho, hl, d, List.getElem?_append_left (List.getElem?_eq_some_iff.mp hd).1 ▸ hd, hb⟩
  | sendLaunch buf =>
    intro hst
    obtain ⟨ho, hl, d, hd, hb⟩ := hp hst
    exact ⟨ho, hl, d, List.getElem?_append_left (List.getElem?_eq_some_iff.mp hd).1 ▸ hd, hb⟩
  | sendIndex =>
    intro hst
    have hh := hp hst
    simp only [List.length_append]
    omega
  | sendCall txIdx =>
    intro hst
    obtain ⟨hx, hh⟩ := hp hst
    refine ⟨hx, ?_⟩
    simp only [List.length_append]
    omega
  | sendNotDone rc | sendStatus rc =>
    intro hr
    have hh := hp hr
    simp only [List.length_append]
    omega
  | sendClear =>
    have hh : taken < h.captured.length := hp
    simp only [Progress, List.length_append]
    omega
  | _ => trivial

theorem Session.flagSlot {pc : Pc} {v : CaptureSide} {h : CaptureLog} {taken : ℕ}
    (hs : Session pc v h taken) (hi : v.mic.irq = true) :
    Session pc v.flagSlot { h with captured := h.captured ++ [v.txRing v.dmaWriteInd],
                                   oldIrq := false, unserved := false } taken := by
  refine ⟨hs.window.push (hs.fill.irq hi), fillsClear_flagSlot v, rfl, ?_, hs.sent_count,
    hs.progress.flagSlot _⟩
  rw [List.map_append]
  exact hs.in_order.trans (List.prefix_append _ _)

/-- No press (the RISE branch) is accepted between the test at line 124 and line 156 of an
iteration whose start succeeds, nor while the interrupt of a completed chunk is pending. -/
def Uninterrupted (x : Cfg Pc × CaptureLog) : Event → Prop
  | .env (.pbIrq t) => x.1.m.accepts t = true → x.1.m.pin.rise = true →
      x.1.m.mic.irq = false ∧ committed x.1.pc = false
  | .main rc => match x.1.pc with
    | .sendLaunch _ => rc = 0 → x.2.stale = false
    | _ => True
  | _ => True

instance (x : Cfg Pc × CaptureLog) (e : Event) : Decidable (Uninterrupted x e) := by
  induction e using Event.casesOn with
  | main rc =>
    unfold Uninterrupted
    generalize x.1.pc = pc
    induction pc using Pc.casesOn <;> infer_instance
  | env e => induction e using Env.casesOn <;> unfold Uninterrupted <;> infer_instance

/-- The session is sound, as long as it has had no overrun. -/
def Clean (pc : Pc) (v : CaptureSide) (h : CaptureLog) : Prop :=
  h.overrun = true ∨ ∃ taken, Session pc v h taken

theorem Clean.effect {pc : Pc} {m : Machine} {h : CaptureLog} {e : Env} {v : CaptureSide}
    (hs : Clean pc m.captureSide h) (hu : Uninterrupted (⟨pc, m⟩, h) (.env e))
    (he : CaptureSide.Effect m e v) : Clean pc v (h.recordEnv m e) := by
  cases he with
  | quiet hq =>
    rw [CaptureLog.recordEnv_quiet hq]
    exact hs
  | chain =>
    rcases hs with ho | ⟨taken, hs⟩
    · exact .inl ho
    · exact .inr ⟨taken, hs.trigger⟩
  | @sample x ha hb =>
    cases hf : CaptureLog.hitsFlag m with
    | true => exact .inl (by simp [CaptureLog.recordEnv, hf])
    | false =>
      rcases hs with ho | ⟨taken, hs⟩
      · exact .inl (by simp [CaptureLog.recordEnv, ho])
      · exact .inr ⟨taken, hs.sample ha hf x rfl⟩
  | flagSlot hi =>
    rcases hs with ho | ⟨taken, hs⟩
    · exact .inl ho
    · refine .inr ⟨taken, ?_⟩
      simp only [CaptureLog.recordEnv, hs.fresh, Bool.false_eq_true, if_false]
      exact hs.flagSlot hi
  | press ha hr hf =>
    obtain ⟨hi, hc⟩ := hu ha hr
    refine .inr ⟨0, session_press _ hc ?_⟩
    simp [CaptureLog.recordEnv, ha, hr, CaptureLog.start, show m.mic.irq = false from hi]
  | @release t ha hr hf =>
    have hh : h.recordEnv m (.pbIrq t) = { h with opened := false, unserved := m.mic.irq } := by
      simp [CaptureLog.recordEnv, ha, hr]
    rw [hh]
    rcases hs with ho | ⟨taken, hs⟩
    · exact .inl ho
    · exact .inr ⟨taken, hs.release.close _⟩
  | pressRelease ha hr hf =>
    obtain ⟨hi, hc⟩ := hu ha hr
    refine .inr ⟨0, (session_press _ hc ?_).release⟩
    simp [CaptureLog.recordEnv, ha, hr, CaptureLog.start, show m.mic.irq = false from hi]

/-- Statements outside the send step leave the capture side alone. -/
theorem mainStep_captureSide {rc : Int} {m : Machine} {pc : Pc} (hc : pc ≠ .sendClear)
    (ha : pc ≠ .sendAdvance) : (mainStep rc m pc).2.captureSide = m.captureSide := by
  cases pc <;> first | rfl | exact absurd rfl hc | exact absurd rfl ha

/-- Moving on with the same debt, where the new statement's promise is known. -/
theorem Session.goto {pc pc' : Pc} {v : CaptureSide} {h : CaptureLog} {taken : ℕ}
    (hs : Session pc v h taken) (ha : pc ≠ .sendAdvance) (ha' : pc' ≠ .sendAdvance)
    (ho : owes pc' = owes pc) (hp : Progress pc' v h taken) : Session pc' v h taken := by
  refine ⟨?_, hs.fill, hs.fresh, hs.in_order, ?_, hp⟩
  · have hw := hs.window
    simp only [readInd, if_neg ha] at hw
    simpa only [readInd, if_neg ha'] using hw
  · rw [ho]
    exact hs.sent_count

theorem Session.sendTest {m : Machine} {h : CaptureLog} {taken : ℕ} {rc : Int}
    (hs : Session .sendTest m.captureSide h taken) :
    Session (mainStep rc m .sendTest).1 m.captureSide { h with stale := false } taken := by
  have hs' : Session .sendTest m.captureSide { h with stale := false } taken :=
    ⟨hs.window, hs.fill, hs.fresh, hs.in_order, hs.sent_count, trivial⟩
  simp only [mainStep]
  split_ifs with hc
  · refine hs'.goto (by simp) (by simp) rfl fun _ => ?_
    simp only [Bool.and_eq_true] at hc
    exact hs.window.ready_read.mp hc.2
  · exact hs'.goto (by simp) (by simp) rfl trivial

theorem Session.sendCall {v : CaptureSide} {h : CaptureLog} {taken : ℕ} {txIdx : TxSlot}
    (hs : Session (.sendCall txIdx) v h taken) :
    Session (.sendLoad txIdx 0 []) v { h with live := h.opened } taken := by
  refine ⟨hs.window, hs.fill, hs.fresh, hs.in_order, hs.sent_count, fun hst => ?_⟩
  obtain ⟨hx, ht⟩ := hs.progress hst
  exact ⟨hx, id, hs.sent_count, h.captured[taken], List.getElem?_eq_getElem ht, rfl⟩

/-- The FIFO takes the bytes of the chunk at the read index. -/
theorem Session.sendLoad {v : CaptureSide} {h : CaptureLog} {taken : ℕ} {txIdx : TxSlot}
    {i : Sample} {buf : List UInt8} (hs : Session (.sendLoad txIdx i buf) v h taken) :
    Session (nextSample i (fun j => .sendLoad txIdx j (buf ++ [v.txRing txIdx i]))
      (.sendLaunch (buf ++ [v.txRing txIdx i]))) v h taken := by
  have hload : h.stale = false → txIdx = v.loraReadInd ∧
      (h.opened = true → h.live = true) ∧ (h.live = true → h.sent.length = taken) ∧
      ∃ c, h.captured[taken]? = some c ∧
        buf ++ [v.txRing txIdx i] = (List.ofFn c).take (i + 1) := by
    intro hst
    obtain ⟨hx, ho, hl, c, hc, rfl⟩ := hs.progress hst
    obtain ⟨ht, he⟩ := List.getElem?_eq_some_iff.mp hc
    have hslot : v.txRing v.loraReadInd = h.captured[taken] := hs.window.content_read ht
    exact ⟨hx, ho, hl, c, hc, by rw [take_ofFn_succ, hx, hslot, he]⟩
  refine nextSample_ind (P := fun pc => Session pc v h taken) (fun hi => ?_) fun hi => ?_
  · exact hs.goto (by simp) (by simp) rfl hload
  · refine hs.goto (by simp) (by simp) rfl fun hst => ?_
    obtain ⟨_, ho, hl, c, hc, hb⟩ := hload hst
    rw [hi, List.take_of_length_le (by simp)] at hb
    exact ⟨ho, hl, c, hc, hb⟩

theorem Session.sendLaunch {v : CaptureSide} {h : CaptureLog} {taken : ℕ} {rc : Int}
    {buf : List UInt8} (hs : Session (.sendLaunch buf) v h taken)
    (hst : rc = 0 → h.stale = false) :
    Session (.sendNotDone rc) v (h.recordMain (.sendLaunch buf) rc) taken := by
  by_cases hr : rc = 0
  · obtain ⟨ho, hl, c, hc, rfl⟩ := hs.progress (hst hr)
    obtain ⟨ht, he⟩ := List.getElem?_eq_some_iff.mp hc
    cases hlive : h.live with
    | false =>
      have hclosed : h.opened = false := by
        cases hop : h.opened with
        | false => rfl
        | true => cases hlive.symm.trans (ho hop)
      simp only [CaptureLog.recordMain, hlive, Bool.false_eq_true, and_false, if_false]
      exact ⟨hs.window, hs.fill, hs.fresh, hs.in_order,
        (fun hop => by cases hclosed.symm.trans hop), fun _ => ht⟩
    | true =>
      simp only [CaptureLog.recordMain, hlive, hr, and_self, if_true]
      refine ⟨hs.window, hs.fill, hs.fresh, ?_, fun _ => ?_, fun _ => ht⟩
      · have hp := List.prefix_iff_eq_take.mp hs.in_order
        rw [hl hlive] at hp
        have hmap : (h.captured.map List.ofFn)[taken]? = some (List.ofFn c) := by simp [hc]
        refine List.prefix_iff_eq_take.mpr ?_
        simp only [List.length_append, List.length_singleton, hl hlive]
        rw [List.take_add_one, hmap, ← hp]
        rfl
      · simp [owes, hl hlive]
  · simp only [CaptureLog.recordMain, hr, false_and, if_false]
    exact hs.goto (by simp) (by simp) (by simp [owes, hr]) fun h0 => absurd h0 hr

theorem Session.sendClear {v : CaptureSide} {h : CaptureLog} {taken : ℕ}
    (hs : Session .sendClear v h taken) :
    Session .sendAdvance { v with txChunkReady := Function.update v.txChunkReady v.loraReadInd false }
      h (taken + 1) := by
  have ht : taken < h.captured.length := hs.progress
  exact ⟨hs.window.pop ht, hs.fill.clearFlag _, hs.fresh, hs.in_order,
    fun ho => by simpa [owes] using hs.sent_count ho, trivial⟩

/-- A statement of `main` outside the send step. -/
def outsideSend : Pc → Bool
  | .sendTest | .sendIndex | .sendCall _ | .sendLoad _ _ _ | .sendLaunch _ | .sendNotDone _
  | .sendStatus _ | .sendClear | .sendAdvance => false
  | _ => true

theorem owes_outsideSend {pc : Pc} (h : outsideSend pc = true) : owes pc = false := by
  cases pc <;> first | rfl | cases h

theorem progress_outsideSend {pc : Pc} (h : outsideSend pc = true) (v : CaptureSide)
    (l : CaptureLog) (taken : ℕ) : Progress pc v l taken := by
  cases pc <;> trivial

theorem committed_outsideSend {pc : Pc} (h : outsideSend pc = true) : committed pc = false := by
  cases pc <;> first | rfl | cases h

/-- `main` comes to the send step at its test. -/
theorem mainStep_outsideSend {rc : Int} {m : Machine} {pc : Pc} (h : outsideSend pc = true) :
    outsideSend (mainStep rc m pc).1 = true ∨ (mainStep rc m pc).1 = .sendTest := by
  cases pc with
  | stageByte i =>
    exact nextSample_ind (P := fun pc => outsideSend pc = true ∨ pc = .sendTest)
      (fun _ => .inl rfl) fun _ => .inl rfl
  | sendTest | sendIndex | sendCall | sendLoad | sendLaunch | sendNotDone | sendStatus | sendClear
  | sendAdvance => cases h
  | _ =>
    simp only [mainStep]
    (try split_ifs) <;> simp [outsideSend]

/-- A statement outside the send step promises and owes nothing, before it and after it. -/
theorem Session.idle {pc : Pc} {m : Machine} {h : CaptureLog} {taken : ℕ} {rc : Int}
    (hs : Session pc m.captureSide h taken) (hi : outsideSend pc = true) :
    Session (mainStep rc m pc).1 m.captureSide h taken := by
  have ho := owes_outsideSend hi
  have ha : pc ≠ .sendAdvance := by
    rintro rfl
    cases hi
  have hnext : outsideSend (mainStep rc m pc).1 = true ∨ (mainStep rc m pc).1 = .sendTest :=
    mainStep_outsideSend hi
  rcases hnext with hi' | hi'
  · refine hs.goto ha ?_ ((owes_outsideSend hi').trans ho.symm) (progress_outsideSend hi' _ _ _)
    intro hc
    rw [hc] at hi'
    cases hi'
  · rw [hi']
    exact hs.goto ha (by simp) ho.symm trivial

theorem Session.main {pc : Pc} {m : Machine} {h : CaptureLog} {taken : ℕ} {rc : Int}
    (hs : Session pc m.captureSide h taken) (hu : Uninterrupted (⟨pc, m⟩, h) (.main rc)) :
    ∃ taken', Session (mainStep rc m pc).1 (mainStep rc m pc).2.captureSide (h.recordMain pc rc)
      taken' := by
  cases pc with
  | sendTest => exact ⟨taken, hs.sendTest⟩
  | sendIndex =>
    exact ⟨taken, hs.goto (by simp) (by simp [mainStep]) rfl fun hst => ⟨rfl, hs.progress hst⟩⟩
  | sendCall txIdx => exact ⟨taken, hs.sendCall⟩
  | sendLoad txIdx i buf => exact ⟨taken, hs.sendLoad⟩
  | sendLaunch buf => exact ⟨taken, hs.sendLaunch hu⟩
  | sendNotDone rc' => exact ⟨taken, hs.goto (by simp) (by simp [mainStep]) rfl hs.progress⟩
  | sendStatus rc' =>
    refine ⟨taken, ?_⟩
    simp only [mainStep]
    split_ifs with hr
    · exact hs.goto (by simp) (by simp) (by simp [owes, hr]) (hs.progress hr)
    · exact hs.goto (by simp) (by simp) (by simp [owes, hr]) trivial
  | sendClear => exact ⟨taken + 1, hs.sendClear⟩
  | sendAdvance =>
    exact ⟨taken, hs.window, ⟨hs.fill.irq, hs.fill.busy⟩, hs.fresh, hs.in_order, hs.sent_count,
      trivial⟩
  | _ =>
    rw [mainStep_captureSide (by simp) (by simp)]
    exact ⟨taken, hs.idle rfl⟩

/-- Neither a statement of `main` nor a handler without RISE forgets an overrun. -/
theorem recordMain_overrun {pc : Pc} {rc : Int} {h : CaptureLog} :
    (h.recordMain pc rc).overrun = h.overrun := by
  cases pc <;> simp only [CaptureLog.recordMain]
  split_ifs <;> rfl

theorem Clean.step {x y : Cfg Pc × CaptureLog} {e : Event}
    (hs : Clean x.1.pc x.1.m.captureSide x.2) (hu : Uninterrupted x e)
    (hstep : sessionStep x e = some y) : Clean y.1.pc y.1.m.captureSide y.2 := by
  obtain ⟨rc, rfl, rfl⟩ | ⟨f, m, rfl, hf, rfl⟩ := tracked_step_cases hstep
  · rcases hs with ho | ⟨taken, hs⟩
    · exact .inl (recordMain_overrun.trans ho)
    · exact .inr (hs.main hu)
  · exact hs.effect hu (CaptureSide.envStep_effect hf)

theorem clean_boot : Clean boot.pc boot.m.captureSide CaptureLog.start :=
  .inr ⟨0, RingWindow.empty _, ⟨fun _ => rfl, fun ha => by cases ha⟩, rfl, List.nil_prefix,
    (fun ho => by cases ho), trivial⟩

theorem Clean.in_order {pc : Pc} {v : CaptureSide} {h : CaptureLog} (hs : Clean pc v h)
    (ho : h.overrun = false) : h.sent <+: h.captured.map List.ofFn := by
  rcases hs with hc | ⟨_, hs⟩
  · cases ho.symm.trans hc
  · exact hs.in_order

/-- In every run whose presses spare the send step, a session sends the chunks captured
since its press, in order and from the first one, until it is overrun. -/
theorem session_sends_its_chunks {es : List Event} {x : Cfg Pc × CaptureLog}
    (hu : Along sessionStep Uninterrupted (boot, CaptureLog.start) es)
    (hr : run sessionStep (boot, CaptureLog.start) es = some x) (ho : x.2.overrun = false) :
    x.2.sent <+: x.2.captured.map List.ofFn :=
  (hu.invariant (fun x => Clean x.1.pc x.1.m.captureSide x.2) (fun _ _ _ hi hc ht => hi.step hc ht)
    clean_boot hr).in_order ho

/-- Two sessions of one chunk each, the chunk of the second one sent. -/
def twoSessions : List Event :=
  mains 6 ++ button 100000 ++ samples 60 ++ [.env .micIrq] ++ mains 68 ++ button 200000 ++
    [.env .packetSent, .env (.radioIrq .packetSent)] ++ mains 12 ++ button 300000 ++ samples 60 ++
    [.env .micIrq] ++ mains 76

def twoSessionsEnd : Cfg Pc × CaptureLog :=
  ends sessionStep (boot, CaptureLog.start) twoSessions (by decide +kernel)

theorem session_sends_its_chunks_twice :
    twoSessionsEnd.2.sent <+: twoSessionsEnd.2.captured.map List.ofFn :=
  session_sends_its_chunks (by decide +kernel) (run_ends _) (by decide +kernel)

/-- One chunk of equal samples, its interrupt served. -/
def chunkOf (x : UInt8) : List Event :=
  List.replicate chunkSize (.env (.sample x)) ++ [.env .micIrq]

/-- A release and a press between the successful start and line 155, then two chunks. -/
def pressInSendStep : List Event :=
  mains 6 ++ button 100000 ++ chunkOf 1 ++ mains 66 ++ button 200000 ++ button 300000 ++ mains 4 ++
    chunkOf 2 ++ chunkOf 3 ++ [.env .packetSent, .env (.radioIrq .packetSent)] ++ mains 72

/-- The new session starts with its second chunk. -/
theorem press_skips_first_chunk :
    ∃ x, run sessionStep (boot, CaptureLog.start) pressInSendStep = some x ∧
      x.2.overrun = false ∧ x.2.opened = true ∧ ¬ x.2.sent <+: x.2.captured.map List.ofFn :=
  exists_of_run_any (by decide +kernel)

/-- `main` is between a successful test at line 124 and the end of the start call. -/
def holdsTest : Pc → Bool
  | .sendIndex | .sendCall _ | .sendLoad _ _ _ | .sendLaunch _ => true
  | _ => false

/-- A test at line 124 that still counts was made after the press. -/
def Retested (x : Cfg Pc × CaptureLog) : Prop :=
  holdsTest x.1.pc = true → x.2.stale = false

theorem Retested.main {pc : Pc} {m : Machine} {h : CaptureLog} {rc : Int}
    (hs : holdsTest pc = true → h.stale = false) :
    holdsTest (mainStep rc m pc).1 = true → (h.recordMain pc rc).stale = false := by
  cases pc with
  | sendTest => exact fun _ => rfl
  | sendIndex | sendCall => exact fun _ => hs rfl
  | sendLoad txIdx i buf => exact fun _ => hs rfl
  | stageByte i =>
    exact nextSample_ind (P := fun pc => holdsTest pc = true → h.stale = false)
      (fun _ hc => by cases hc) fun _ hc => by cases hc
  | loopHead | finishTest | sendStatus | rxTest | armTest | armCall | readyTest | spuriousTest
  | readCall | restartTest =>
    simp only [mainStep]
    split_ifs <;> exact fun hc => by cases hc
  | _ => exact fun hc => by cases hc

theorem Retested.env {m : Machine} {h : CaptureLog} {e : Env} (he : ButtonFree (.env e)) :
    (h.recordEnv m e).stale = h.stale := by
  cases e with
  | pbIrq t => cases he
  | _ => rfl

theorem Retested.step {x y : Cfg Pc × CaptureLog} {e : Event} (hs : Retested x)
    (he : ButtonFree e) (hstep : sessionStep x e = some y) : Retested y := by
  obtain ⟨rc, rfl, rfl⟩ | ⟨f, m, rfl, _, rfl⟩ := tracked_step_cases hstep
  · exact Retested.main hs
  · exact fun hc => (Retested.env he).trans (hs hc)

theorem Retested.uninterrupted {x : Cfg Pc × CaptureLog} {e : Event} (hs : Retested x)
    (he : ButtonFree e) : Uninterrupted x e := by
  unfold Uninterrupted
  split
  · cases he
  · split
    · rename_i hpc
      exact fun _ => hs (by simp [hpc, holdsTest])
    · trivial
  · trivial

/-- The device and the log when a press handler returns. -/
def pressed (s : Cfg Pc) (t : UInt32) : Cfg Pc × CaptureLog :=
  (⟨s.pc, s.m.pbIsrHandler t⟩, { CaptureLog.start with opened := true, stale := true })

theorem clean_pressed {s : Cfg Pc} {t : UInt32} (ha : s.m.accepts t = true)
    (hr : s.m.pin.rise = true) (hpc : s.pc.inTransmit = false) :
    Clean s.pc (s.m.pbIsrHandler t).captureSide (pressed s t).2 := by
  have hc : committed s.pc = false := by
    cases hs : s.pc <;> simp_all [Pc.inTransmit, committed, owes]
  have he := CaptureSide.pbIsrHandler_effect s.m t
  generalize (s.m.pbIsrHandler t).captureSide = v at he
  cases he with
  | quiet hq => cases ha.symm.trans hq
  | press => exact .inr ⟨0, session_press _ hc rfl⟩
  | release _ hf => cases hr.symm.trans hf
  | pressRelease => exact .inr ⟨0, (session_press _ hc rfl).release⟩

/-- From a press handler's return on, until the next one or an overrun, the ring is a
cyclic interval and the chunks captured are sent in order, each one once. -/
theorem capture_is_fifo {s : Cfg Pc} {t : UInt32} {es : List Event} {x : Cfg Pc × CaptureLog}
    (ha : s.m.accepts t = true) (hr : s.m.pin.rise = true) (hpc : s.pc.inTransmit = false)
    (hes : ∀ e ∈ es, ButtonFree e) (hrun : run sessionStep (pressed s t) es = some x)
    (ho : x.2.overrun = false) :
    RingWindow.CyclicInterval x.1.m.txChunkReady (readInd x.1.pc x.1.m.captureSide)
        x.1.m.dmaWriteInd ∧
      x.2.sent <+: x.2.captured.map List.ofFn := by
  have hx : Clean x.1.pc x.1.m.captureSide x.2 ∧ Retested x :=
    (along_of_forall hes (pressed s t)).invariant
      (fun x => Clean x.1.pc x.1.m.captureSide x.2 ∧ Retested x)
      (fun x e y hx he hy => ⟨hx.1.step (hx.2.uninterrupted he) hy, hx.2.step he hy⟩)
      ⟨clean_pressed ha hr hpc, fun hh => by cases hs : s.pc <;>
        simp_all [pressed, holdsTest, Pc.inTransmit]⟩ hrun
  refine ⟨?_, hx.1.in_order ho⟩
  rcases hx.1 with hc | ⟨taken, hs⟩
  · cases ho.symm.trans hc
  · exact hs.window.cyclicInterval

/-- The button has just been pressed. -/
def beforePress : Cfg Pc := ⟨.loopHead, { bootMachine with pin := bootMachine.pin.edge }⟩

def oneChunk : List Event := samples 60 ++ [.env .micIrq] ++ mains 68

def oneChunkEnd : Cfg Pc × CaptureLog :=
  ends sessionStep (pressed beforePress 100000) oneChunk (by decide +kernel)

theorem capture_is_fifo_once :
    RingWindow.CyclicInterval oneChunkEnd.1.m.txChunkReady
        (readInd oneChunkEnd.1.pc oneChunkEnd.1.m.captureSide) oneChunkEnd.1.m.dmaWriteInd ∧
      oneChunkEnd.2.sent <+: oneChunkEnd.2.captured.map List.ofFn :=
  capture_is_fifo (s := beforePress) (t := 100000) (by decide) (by decide) (by decide)
    (by decide +kernel) (run_ends _) (by decide +kernel)

end WalkieTalkie.CaptureSession
