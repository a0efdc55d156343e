import Mathlib.Data.List.Chain
import WalkieTalkie.CaptureSession
import WalkieTalkie.LappedRing

/-!
# The order in which an overrun session is sent

The chunks of a session are numbered as the microphone handler completes them, and a slot
carries the number of the chunk completed in it last. `main` visits the slots in turn.
-/
namespace WalkieTalkie.CaptureOrder
open PartialRuns CaptureSession

structure OrderLog where
  /-- How many chunks have been completed. -/
  completed : ℕ
  /-- The number of the chunk last completed in each slot. -/
  carried : TxSlot → Option ℕ
  /-- What the slot carried when `rfm9x_start_transmit` was called on it. -/
  calling : Option ℕ
  /-- The numbers of the calls that returned zero. -/
  sent : List ℕ
  /-- A chunk has been completed in a slot whose flag was set. -/
  lapped : Bool

namespace OrderLog

def start : OrderLog := ⟨0, fun _ => none, none, [], false⟩

def record (s : Cfg Pc) (e : Event) (h : OrderLog) : OrderLog :=
  match e with
  | .main rc => match s.pc with
    | .sendCall txIdx => { h with calling := h.carried txIdx }
    | .sendLaunch _ => if rc = 0 then { h with sent := h.sent ++ h.calling.toList } else h
    | _ => h
  | .env .micIrq =>
    { h with
      completed := h.completed + 1
      carried := Function.update h.carried s.m.dmaWriteInd (some h.completed)
      lapped := h.lapped || s.m.txChunkReady s.m.dmaWriteInd }
  | .env _ => h

end OrderLog

/-- The device with the numbers of its press session. -/
def orderStep : Cfg Pc × OrderLog → Event → Option (Cfg Pc × OrderLog) :=
  tracked step OrderLog.record

/-- The device and the log when a press handler returns. -/
def begun (s : Cfg Pc) (t : UInt32) : Cfg Pc × OrderLog :=
  (⟨s.pc, s.m.pbIsrHandler t⟩, OrderLog.start)

/-- Not the press that starts the next session. -/
def SameSession (s : Cfg Pc) : Event → Prop
  | .env (.pbIrq t) => s.m.accepts t = true → s.m.pin.rise = false
  | _ => True

instance (s : Cfg Pc) (e : Event) : Decidable (SameSession s e) := by
  induction e using Event.casesOn with
  | main rc => exact isTrue trivial
  | env e => induction e using Env.casesOn <;> unfold SameSession <;> infer_instance

/-- The slot `main` will test next. -/
def nextInd (pc : Pc) (v : CaptureSide) : TxSlot :=
  if committed pc then v.loraReadInd + 1 else v.loraReadInd

/-- What the send step holds: the number it is about to send is new, and less than a lap
behind every number sent. -/
def Calling (pc : Pc) (v : CaptureSide) (h : OrderLog) : Prop :=
  match pc with
  | .sendIndex => ∃ n, h.carried v.loraReadInd = some n ∧ n ∉ h.sent
  | .sendCall txIdx => txIdx = v.loraReadInd ∧ ∃ n, h.carried v.loraReadInd = some n ∧ n ∉ h.sent
  | .sendLoad _ _ _ | .sendLaunch _ => ∃ n, h.calling = some n ∧ n ∉ h.sent ∧ n < h.completed ∧
      v.loraReadInd = Fin.ofNat _ n ∧ ∀ k ∈ h.sent, k < n + txRingChunks
  | _ => True

structure Ordered (pc : Pc) (v : CaptureSide) (h : OrderLog) : Prop where
  slots : LastWritten h.carried h.completed
  write : v.dmaWriteInd = Fin.ofNat _ h.completed
  flagged : ∀ i, v.txChunkReady i = true → ∃ n, h.carried i = some n ∧
    (n ∈ h.sent → owes pc = true ∧ i = v.loraReadInd)
  sent_lt : ∀ n ∈ h.sent, n < h.completed
  next : ∀ n ∈ h.sent.getLast?, nextInd pc v = Fin.ofNat _ (n + 1)
  pairwise : h.sent.Pairwise fun n k => n ≠ k ∧ n < k + txRingChunks
  chain : h.sent.IsChain fun n k => n < k ∨ k + txRingChunks = n + 1
  calling : Calling pc v h

namespace Ordered

variable {pc pc' : Pc} {v : CaptureSide} {h : OrderLog}

theorem mic (hs : Ordered pc v h) (mic : MicChannel) (ring : TxSlot → Chunk UInt8) (on : Bool) :
    Ordered pc { v with mic := mic, txRing := ring, adcOn := on } h :=
  ⟨hs.slots, hs.write, hs.flagged, hs.sent_lt, hs.next, hs.pairwise, hs.chain, hs.calling⟩

/-- The number of a completed chunk has not been sent. -/
theorem completed_notMem (hs : Ordered pc v h) : h.completed ∉ h.sent :=
  fun hc => Nat.lt_irrefl _ (hs.sent_lt _ hc)

/-- A slot that carries an unsent number does so after the next completion. -/
theorem unsent_update (hs : Ordered pc v h) {i : TxSlot}
    (hi : ∃ n, h.carried i = some n ∧ n ∉ h.sent) (w : TxSlot) :
    ∃ n, Function.update h.carried w (some h.completed) i = some n ∧ n ∉ h.sent := by
  by_cases hw : i = w
  · exact ⟨h.completed, by rw [hw, Function.update_self], hs.completed_notMem⟩
  · rwa [Function.update_of_ne hw]

theorem flagSlot (hs : Ordered pc v h) (lapped : Bool) : Ordered pc v.flagSlot
    { h with
      completed := h.completed + 1
      carried := Function.update h.carried v.dmaWriteInd (some h.completed)
      lapped := lapped } := by
  refine ⟨?_, ?_, fun i hi => ?_, fun n hn => Nat.lt_succ_of_lt (hs.sent_lt n hn), hs.next,
    hs.pairwise, hs.chain, ?_⟩
  · rw [hs.write]
    exact hs.slots.write
  · rw [RingWindow.slot_succ, ← hs.write]
    rfl
  · by_cases hw : i = v.dmaWriteInd
    · refine ⟨h.completed, by simp only [hw, Function.update_self], fun hn => ?_⟩
      exact absurd hn hs.completed_notMem
    · simp only [CaptureSide.flagSlot, Function.update_of_ne hw] at hi ⊢
      exact hs.flagged i hi
  · have hc := hs.calling
    cases pc with
    | sendIndex => exact hs.unsent_update hc _
    | sendCall txIdx => exact ⟨hc.1, hs.unsent_update hc.2 _⟩
    | sendLoad | sendLaunch =>
      obtain ⟨n, hn, hnew, hlt, hslot, hlap⟩ := hc
      exact ⟨n, hn, hnew, Nat.lt_succ_of_lt hlt, hslot, hlap⟩
    | _ => trivial

/-- Moving on with the same debt. -/
theorem goto (hs : Ordered pc v h) (hc : committed pc' = committed pc) (ho : owes pc' = owes pc)
    (hp : Calling pc' v h) : Ordered pc' v h := by
  refine ⟨hs.slots, hs.write, ?_, hs.sent_lt, ?_, hs.pairwise, hs.chain, hp⟩
  · rw [ho]
    exact hs.flagged
  · simp only [nextInd, hc]
    exact hs.next

theorem sendTest {m : Machine} {rc : Int} (hs : Ordered .sendTest m.captureSide h) :
    Ordered (mainStep rc m .sendTest).1 m.captureSide h := by
  simp only [mainStep]
  split_ifs with hc
  · simp only [Bool.and_eq_true] at hc
    obtain ⟨n, hn, hnew⟩ := hs.flagged _ hc.2
    exact hs.goto rfl rfl ⟨n, hn, fun hm => by cases (hnew hm).1⟩
  · exact hs.goto rfl rfl trivial

/-- At the call the number of the slot is less than a lap behind every number completed. -/
theorem sendCall {txIdx : TxSlot} (hs : Ordered (.sendCall txIdx) v h) :
    Ordered (.sendLoad txIdx 0 []) v { h with calling := h.carried txIdx } := by
  obtain ⟨rfl, n, hn, hnew⟩ := hs.calling
  refine ⟨hs.slots, hs.write, hs.flagged, hs.sent_lt, hs.next, hs.pairwise, hs.chain, n, hn, hnew,
    hs.slots.lt hn, (hs.slots.slot hn).symm, fun k hk => ?_⟩
  exact Nat.lt_of_lt_of_le (hs.sent_lt k hk) (hs.slots.recent hn)

/-- A successful call. -/
theorem sendLaunch {buf : List UInt8} (hs : Ordered (.sendLaunch buf) v h) :
    Ordered (.sendNotDone 0) v { h with sent := h.sent ++ h.calling.toList } := by
  obtain ⟨n, hn, hnew, hlt, hslot, hlap⟩ := hs.calling
  simp only [hn, Option.toList_some]
  refine ⟨hs.slots, hs.write, fun i hi => ?_, ?_, ?_, ?_, ?_, trivial⟩
  · obtain ⟨k, hk, hsent⟩ := hs.flagged i hi
    refine ⟨k, hk, fun hm => ⟨rfl, ?_⟩⟩
    rcases List.mem_append.mp hm with hm | hm
    · exact (hsent hm).2
    · obtain rfl : k = n := by simpa using hm
      rw [hslot, hs.slots.slot hk]
  · intro k hk
    rcases List.mem_append.mp hk with hk | hk
    · exact hs.sent_lt k hk
    · obtain rfl : k = n := by simpa using hk
      exact hlt
  · intro k hk
    obtain rfl : k = n := by simpa using hk.symm
    rw [RingWindow.slot_succ, ← hslot]
    rfl
  · refine List.pairwise_append.mpr ⟨hs.pairwise, List.pairwise_singleton _ _, fun k hk j hj => ?_⟩
    obtain rfl : j = n := by simpa using hj
    exact ⟨fun he => hnew (he ▸ hk), hlap k hk⟩
  · refine hs.chain.append (List.isChain_singleton _) fun k hk j hj => ?_
    obtain rfl : n = j := by simpa using hj
    have hnext := hs.next k hk
    have hrd : nextInd (.sendLaunch buf) v = v.loraReadInd := rfl
    rw [hrd, hslot] at hnext
    exact later_or_lapped hnext (hlap k (List.mem_of_getLast? hk))

/-- Line 155 lowers the flag of the slot just sent. -/
theorem sendClear (hs : Ordered .sendClear v h) : Ordered .sendAdvance
    { v with txChunkReady := Function.update v.txChunkReady v.loraReadInd false } h := by
  refine ⟨hs.slots, hs.write, fun i hi => ?_, hs.sent_lt, hs.next, hs.pairwise, hs.chain, trivial⟩
  have hne : i ≠ v.loraReadInd := by
    rintro rfl
    simp at hi
  simp only [Function.update_of_ne hne] at hi
  obtain ⟨n, hn, hsent⟩ := hs.flagged i hi
  exact ⟨n, hn, fun hm => absurd (hsent hm).2 hne⟩

theorem sendAdvance (hs : Ordered .sendAdvance v h) :
    Ordered .loopHead { v with loraReadInd := v.loraReadInd + 1 } h := by
  refine ⟨hs.slots, hs.write, fun i hi => ?_, hs.sent_lt, hs.next, hs.pairwise, hs.chain, trivial⟩
  obtain ⟨n, hn, hsent⟩ := hs.flagged i hi
  exact ⟨n, hn, fun hm => by cases (hsent hm).1⟩

end Ordered

/-- The ring is a window on the numbered chunks, and all numbers before it have been sent. -/
def InTurn (pc : Pc) (v : CaptureSide) (h : OrderLog) : Prop :=
  ∃ taken, RingWindow h.carried v.txChunkReady (readInd pc v) v.dmaWriteInd
      ((List.range h.completed).map some) taken ∧
    h.sent = List.range (taken + (owes pc).toNat)

namespace InTurn

variable {pc pc' : Pc} {v : CaptureSide} {h : OrderLog}

theorem goto (hs : InTurn pc v h) (ha : pc ≠ .sendAdvance) (ha' : pc' ≠ .sendAdvance)
    (ho : owes pc' = owes pc) : InTurn pc' v h := by
  unfold InTurn at hs ⊢
  rw [ho]
  simpa only [readInd, if_neg ha, if_neg ha'] using hs

theorem flagSlot (hs : InTurn pc v h) (hf : v.txChunkReady v.dmaWriteInd = false) (lapped : Bool) :
    InTurn pc v.flagSlot
      { h with
        completed := h.completed + 1
        carried := Function.update h.carried v.dmaWriteInd (some h.completed)
        lapped := lapped } := by
  obtain ⟨taken, hw, hsent⟩ := hs
  have hkept : ∀ i, v.txChunkReady i = true →
      Function.update h.carried v.dmaWriteInd (some h.completed) i = h.carried i := by
    intro i hi
    refine Function.update_of_ne ?_ _ _
    rintro rfl
    cases hf.symm.trans hi
  have hpush := (hw.congr_slot hkept).push hf
  rw [Function.update_self] at hpush
  refine ⟨taken, ?_, hsent⟩
  rw [List.range_succ, List.map_append]
  exact hpush

theorem sendLaunch {buf : List UInt8} (hs : InTurn (.sendLaunch buf) v h)
    (ho : Ordered (.sendLaunch buf) v h) :
    InTurn (.sendNotDone 0) v { h with sent := h.sent ++ h.calling.toList } := by
  obtain ⟨taken, hw, hsent⟩ := hs
  obtain ⟨n, hn, hnew, hlt, hslot, _⟩ := ho.calling
  have hroom := hw.room
  have hread : v.loraReadInd = Fin.ofNat _ taken := hw.read
  simp only [owes, Bool.toNat_false, Nat.add_zero] at hsent
  rw [hsent, List.mem_range] at hnew
  rw [List.length_map, List.length_range] at hroom
  obtain rfl : taken = n :=
    RingWindow.eq_of_slot_eq (by omega) (by omega) (hread.symm.trans hslot)
  refine ⟨taken, hw, ?_⟩
  simp only [hn, Option.toList_some, hsent]
  exact List.range_succ.symm

theorem sendClear (hs : InTurn .sendClear v h) (ho : Ordered .sendClear v h) : InTurn .sendAdvance
    { v with txChunkReady := Function.update v.txChunkReady v.loraReadInd false } h := by
  obtain ⟨taken, hw, hsent⟩ := hs
  have ht : taken < h.completed := by
    apply ho.sent_lt
    rw [hsent, List.mem_range]
    exact Nat.lt_succ_self _
  exact ⟨taken + 1, hw.pop (by simpa using ht), hsent⟩

end InTurn

/-- The numbers sent are in order up to a lap, and in order until the ring is lapped. -/
def Sound (pc : Pc) (v : CaptureSide) (h : OrderLog) : Prop :=
  Ordered pc v h ∧ (h.lapped = true ∨ InTurn pc v h)

theorem Sound.goto {pc pc' : Pc} {v : CaptureSide} {h : OrderLog} (hs : Sound pc v h)
    (hc : committed pc' = committed pc) (ho : owes pc' = owes pc)
    (ha : pc ≠ .sendAdvance) (ha' : pc' ≠ .sendAdvance) (hp : Calling pc' v h) :
    Sound pc' v h :=
  ⟨hs.1.goto hc ho hp, hs.2.imp_right fun hi => hi.goto ha ha' ho⟩

/-- A statement outside the send step neither owes nor holds anything, before it and after it. -/
theorem Sound.idle {pc : Pc} {m : Machine} {h : OrderLog} {rc : Int}
    (hs : Sound pc m.captureSide h) (hi : outsideSend pc = true) :
    Sound (mainStep rc m pc).1 m.captureSide h := by
  have hc := committed_outsideSend hi
  have ho := owes_outsideSend hi
  have hne : ∀ {pc : Pc}, outsideSend pc = true → pc ≠ .sendAdvance := by
    rintro pc hp rfl
    cases hp
  have hnext : outsideSend (mainStep rc m pc).1 = true ∨ (mainStep rc m pc).1 = .sendTest :=
    mainStep_outsideSend hi
  rcases hnext with hi' | hi'
  · refine hs.goto ((committed_outsideSend hi').trans hc.symm)
      ((owes_outsideSend hi').trans ho.symm) (hne hi) (hne hi') ?_
    generalize (mainStep rc m pc).1 = pc' at hi'
    cases pc' <;> trivial
  · rw [hi']
    exact hs.goto hc.symm ho.symm (hne hi) (by simp) trivial

theorem Sound.main {pc : Pc} {m : Machine} {h : OrderLog} {rc : Int}
    (hs : Sound pc m.captureSide h) :
    Sound (mainStep rc m pc).1 (mainStep rc m pc).2.captureSide
      (OrderLog.record ⟨pc, m⟩ (.main rc) h) := by
  obtain ⟨hord, hturn⟩ := hs
  cases pc with
  | sendTest =>
    refine ⟨hord.sendTest, hturn.imp_right fun hi => ?_⟩
    simp only [mainStep]
    split_ifs <;> exact hi.goto (by simp) (by simp) rfl
  | sendIndex =>
    exact Sound.goto ⟨hord, hturn⟩ rfl rfl (by simp) (by simp [mainStep]) ⟨rfl, hord.calling⟩
  | sendCall txIdx =>
    exact ⟨hord.sendCall, hturn.imp_right fun hi => hi.goto (by simp) (by simp [mainStep]) rfl⟩
  | sendLoad txIdx i buf =>
    have hs' : Sound (.sendLoad txIdx i buf) m.captureSide h := ⟨hord, hturn⟩
    simp only [mainStep]
    exact nextSample_ind (P := fun pc => Sound pc m.captureSide h)
      (fun _ => hs'.goto rfl rfl (by simp) (by simp) hord.calling)
      fun _ => hs'.goto rfl rfl (by simp) (by simp) hord.calling
  | sendLaunch buf =>
    by_cases hr : rc = 0
    · subst hr
      exact ⟨hord.sendLaunch, hturn.imp_right fun hi => hi.sendLaunch hord⟩
    · simp only [mainStep, OrderLog.record, hr, if_false]
      exact Sound.goto ⟨hord, hturn⟩ (by simp [committed, owes, hr]) (by simp [owes, hr]) (by simp)
        (by simp) trivial
  | sendNotDone rc' =>
    exact Sound.goto ⟨hord, hturn⟩ rfl rfl (by simp) (by simp [mainStep]) trivial
  | sendStatus rc' =>
    simp only [mainStep]
    split_ifs with hr
    · exact Sound.goto ⟨hord, hturn⟩ (by simp [committed, owes, hr]) (by simp [owes, hr]) (by simp)
        (by simp) trivial
    · exact Sound.goto ⟨hord, hturn⟩ (by simp [committed, owes, hr]) (by simp [owes, hr]) (by simp)
        (by simp) trivial
  | sendClear => exact ⟨hord.sendClear, hturn.imp_right fun hi => hi.sendClear hord⟩
  | sendAdvance => exact ⟨hord.sendAdvance, hturn⟩
  | _ =>
    rw [mainStep_captureSide (by simp) (by simp)]
    exact Sound.idle ⟨hord, hturn⟩ rfl

theorem record_quiet {s : Cfg Pc} {e : Env} (hq : CaptureSide.Quiet s.m e) (h : OrderLog) :
    OrderLog.record s (.env e) h = h := by
  cases e with
  | micIrq => cases hq
  | _ => rfl

theorem Sound.env {s : Cfg Pc} {h : OrderLog} {e : Env} {v : CaptureSide}
    (hs : Sound s.pc s.m.captureSide h) (hc : SameSession s (.env e))
    (he : CaptureSide.Effect s.m e v) : Sound s.pc v (OrderLog.record s (.env e) h) := by
  obtain ⟨hord, hturn⟩ := hs
  cases he with
  | quiet hq =>
    rw [record_quiet hq]
    exact ⟨hord, hturn⟩
  | chain => exact ⟨hord.mic _ _ _, hturn⟩
  | sample => exact ⟨hord.mic _ _ _, hturn⟩
  | flagSlot =>
    refine ⟨hord.flagSlot _, ?_⟩
    cases hf : s.m.txChunkReady s.m.dmaWriteInd with
    | true => exact .inl (by simp [OrderLog.record, hf])
    | false =>
      rcases hturn with hl | hi
      · exact .inl (by simp [OrderLog.record, hl])
      · exact .inr (hi.flagSlot hf _)
  | press ha hr => cases hr.symm.trans (hc ha)
  | release => exact ⟨hord.mic _ _ _, hturn⟩
  | pressRelease ha hr => cases hr.symm.trans (hc ha)

theorem Sound.step {x y : Cfg Pc × OrderLog} {e : Event}
    (hs : Sound x.1.pc x.1.m.captureSide x.2) (hc : SameSession x.1 e)
    (hstep : orderStep x e = some y) : Sound y.1.pc y.1.m.captureSide y.2 := by
  obtain ⟨rc, rfl, rfl⟩ | ⟨f, m, rfl, hf, rfl⟩ := tracked_step_cases hstep
  · exact hs.main
  · exact hs.env hc (CaptureSide.envStep_effect hf)

/-- A press starts the numbers again, with `main` outside the send step. -/
theorem sound_press {pc : Pc} (hh : holdsTest pc = false) (hc : committed pc = false)
    (v : CaptureSide) : Sound pc v.press OrderLog.start := by
  have ho : owes pc = false := by
    simp only [committed, Bool.or_eq_false_iff] at hc
    exact hc.1
  have ha : pc ≠ .sendAdvance := by
    rintro rfl
    cases hc
  refine ⟨⟨LastWritten.empty, rfl, fun i hi => (by cases hi), fun n hn => (by cases hn),
    fun n hn => (by cases hn), List.Pairwise.nil, List.isChain_nil, ?_⟩, .inr ⟨0, ?_, ?_⟩⟩
  · cases pc <;> trivial
  · simpa [readInd, ha, CaptureSide.press, OrderLog.start] using RingWindow.empty _
  · simp [ho, OrderLog.start]

theorem sound_begun {s : Cfg Pc} {t : UInt32} (ha : s.m.accepts t = true)
    (hr : s.m.pin.rise = true) (hh : holdsTest s.pc = false) (hc : committed s.pc = false) :
    Sound s.pc (s.m.pbIsrHandler t).captureSide OrderLog.start := by
  have he := CaptureSide.pbIsrHandler_effect s.m t
  generalize (s.m.pbIsrHandler t).captureSide = v at he
  cases he with
  | quiet hq => cases ha.symm.trans hq
  | press => exact sound_press hh hc _
  | release _ hf => cases hr.symm.trans hf
  | pressRelease =>
    obtain ⟨hord, hturn⟩ := sound_press hh hc s.m.captureSide
    exact ⟨hord.mic _ _ _, hturn⟩

/-- From a press that finds `main` outside lines 124 to 156 on, until the next one: no number is
sent twice, none is sent after one that is a lap or more ahead, the next one is later or exactly
a lap behind its turn, and until a chunk is completed over an unsent one they are in order. -/
theorem sent_in_order_within_lap {s : Cfg Pc} {t : UInt32} {es : List Event}
    {x : Cfg Pc × OrderLog} (ha : s.m.accepts t = true) (hr : s.m.pin.rise = true)
    (hh : holdsTest s.pc = false) (hc : committed s.pc = false)
    (hes : Along orderStep (fun x e => SameSession x.1 e) (begun s t) es)
    (hrun : run orderStep (begun s t) es = some x) :
    (x.2.sent.Pairwise fun n k => n ≠ k ∧ n < k + txRingChunks) ∧
      (x.2.sent.IsChain fun n k => n < k ∨ k + txRingChunks = n + 1) ∧
      (x.2.lapped = false → x.2.sent.Pairwise (· < ·)) := by
  obtain ⟨hord, hturn⟩ := hes.invariant (fun x => Sound x.1.pc x.1.m.captureSide x.2)
    (fun _ _ _ hi hp ht => hi.step hp ht) (sound_begun ha hr hh hc) hrun
  refine ⟨hord.pairwise, hord.chain, fun hl => ?_⟩
  rcases hturn with hc | ⟨taken, _, hsent⟩
  · cases hl.symm.trans hc
  · rw [hsent]
    exact List.pairwise_lt_range

/-- `n` chunks captured, then two sent. -/
def twoSent (n : ℕ) : List Event :=
  ((List.range n).flatMap fun _ => chunkOf 1) ++ mains 71 ++
    [.env .packetSent, .env (.radioIrq .packetSent)] ++ mains 75

def twoSentEnd : Cfg Pc × OrderLog :=
  ends orderStep (begun beforePress 100000) (twoSent 2) (by decide +kernel)

/-- Two chunks are sent in order; of nine the last one is sent, then the one that is seven behind
it. -/
theorem sent_in_order_within_lap_two : twoSentEnd.2.sent.Pairwise (· < ·) ∧
    ∃ x, run orderStep (begun beforePress 100000) (twoSent 9) = some x ∧ x.2.lapped = true ∧
      x.2.sent = [8, 1] ∧ (x.2.sent.Pairwise fun n k => n ≠ k ∧ n < k + txRingChunks) ∧
      x.2.sent.IsChain fun n k => n < k ∨ k + txRingChunks = n + 1 := by
  constructor
  · exact (sent_in_order_within_lap (s := beforePress) (t := 100000) (x := twoSentEnd) (by decide)
      (by decide) (by decide) (by decide) (by decide +kernel) (run_ends _)).2.2 (by decide +kernel)
  · obtain ⟨x, hr, hl, hs⟩ : ∃ x, run orderStep (begun beforePress 100000) (twoSent 9) = some x ∧
        x.2.lapped = true ∧ x.2.sent = [8, 1] := exists_of_run_any (by decide +kernel)
    obtain ⟨hp, hch, _⟩ := sent_in_order_within_lap (s := beforePress) (t := 100000) (by decide)
      (by decide) (by decide) (by decide) (by decide +kernel) hr
    exact ⟨x, hr, hl, hs, hp, hch⟩

/-- A second press comes just before `main` calls `rfm9x_start_transmit` on slot 1. -/
def pressAtCall : List Event :=
  mains 6 ++ button 100000 ++ chunkOf 1 ++ mains 71 ++
    [.env .packetSent, .env (.radioIrq .packetSent)] ++ chunkOf 2 ++ mains 6 ++ button 200000 ++
    [.env .edge]

def atCall : Cfg Pc := ends step boot pressAtCall (by decide +kernel)

/-- With nine chunks captured before the first one is sent, slot 0 is sent with chunk 8 and slot 1
with chunk 1. A press that finds `main` at the call has chunk 1 sent twice. -/
theorem session_sends_out_of_order :
    ((∀ e ∈ twoSent 9, ButtonFree e) ∧ ∃ x,
      run orderStep (begun beforePress 100000) (twoSent 9) = some x ∧ x.2.sent = [8, 1]) ∧
      run step boot pressAtCall = some atCall ∧ atCall.m.accepts 300000 = true ∧
        atCall.m.pin.rise = true ∧ ∃ x, run orderStep (begun atCall 300000) (twoSent 2) = some x ∧
          x.2.lapped = false ∧ x.2.sent = [1, 1] :=
  ⟨⟨by decide +kernel, exists_of_run_any (by decide +kernel)⟩, run_ends _, by decide +kernel,
    by decide +kernel, exists_of_run_any (by decide +kernel)⟩

end WalkieTalkie.CaptureOrder
