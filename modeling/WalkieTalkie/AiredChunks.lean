import Mathlib.Data.List.Infix
import WalkieTalkie.DeviceLog

/-!
# Everything put on the air was captured

Over all the sessions of a device, its packets are a subsequence of the chunks its
microphone filled: each whole, in the order of capture and at most once.
-/
namespace WalkieTalkie.AiredChunks
open PartialRuns CaptureSession

/-- The packets on the air are chunks of earlier sessions and of the part of this one that
has been sent, the chunk just started included. -/
structure Traced (pc : Pc) (v : CaptureSide) (h : CaptureLog) (a : AirLog) (taken : ℕ) : Prop where
  session : Session pc v h taken
  aired : ∃ old, a.captured = old ++ h.captured ∧
    a.aired.Sublist ((old ++ h.captured.take (taken + (owes pc).toNat)).map List.ofFn)

theorem Traced.captured {pc : Pc} {v : CaptureSide} {h : CaptureLog} {a : AirLog} {taken : ℕ}
    (ht : Traced pc v h a taken) : a.aired.Sublist (a.captured.map List.ofFn) := by
  obtain ⟨old, hc, ha⟩ := ht.aired
  rw [hc]
  exact ha.trans (((List.Sublist.refl old).append (List.take_sublist _ _)).map _)

/-- A step within a session that puts nothing on the air. -/
theorem Traced.keep {pc pc' : Pc} {v v' : CaptureSide} {h h' : CaptureLog} {a : AirLog}
    {taken taken' : ℕ} (ht : Traced pc v h a taken) (hs : Session pc' v' h' taken')
    (hc : h'.captured = h.captured)
    (ho : taken' + (owes pc').toNat = taken + (owes pc).toNat) : Traced pc' v' h' a taken' := by
  refine ⟨hs, ?_⟩
  rw [hc, ho]
  exact ht.aired

/-- A press closes the books of its predecessor. -/
theorem Traced.restart {pc pc' : Pc} {v v' : CaptureSide} {h h' : CaptureLog} {a : AirLog}
    {taken : ℕ} (ht : Traced pc v h a taken) (hs : Session pc' v' h' 0) (hc : h'.captured = []) :
    Traced pc' v' h' a 0 := by
  refine ⟨hs, a.captured, by simp [hc], ?_⟩
  simpa [hc] using ht.captured

theorem Traced.flagSlot {pc : Pc} {v : CaptureSide} {h : CaptureLog} {a : AirLog} {taken : ℕ}
    (ht : Traced pc v h a taken) (hi : v.mic.irq = true) :
    Traced pc v.flagSlot { h with captured := h.captured ++ [v.txRing v.dmaWriteInd],
                                  oldIrq := false, unserved := false }
      { a with captured := a.captured ++ [v.txRing v.dmaWriteInd] } taken := by
  obtain ⟨old, hc, ha⟩ := ht.aired
  refine ⟨ht.session.flagSlot hi, old, by simp [hc], ha.trans (List.Sublist.map _ ?_)⟩
  exact (List.Sublist.refl old).append (List.IsPrefix.take (List.prefix_append _ _) _).sublist

/-- The packet just started is the chunk at the read index. -/
theorem Traced.sendLaunch {v : CaptureSide} {h : CaptureLog} {a : AirLog} {taken : ℕ}
    {buf : List UInt8} (ht : Traced (.sendLaunch buf) v h a taken) (hst : h.stale = false) :
    Traced (.sendNotDone 0) v (h.recordMain (.sendLaunch buf) 0)
      { a with aired := a.aired ++ [buf] } taken := by
  obtain ⟨old, hc, ha⟩ := ht.aired
  obtain ⟨_, _, c, hget, rfl⟩ := ht.session.progress hst
  have hcap : (h.recordMain (.sendLaunch (List.ofFn c)) 0).captured = h.captured := by
    simp only [CaptureLog.recordMain]
    split_ifs <;> rfl
  refine ⟨ht.session.sendLaunch fun _ => hst, old, hc.trans (by rw [hcap]), ?_⟩
  have htake : h.captured.take (taken + 1) = h.captured.take taken ++ [c] := by
    rw [List.take_add_one, hget]
    rfl
  rw [hcap]
  simp only [owes, decide_true, Bool.toNat_true, htake]
  rw [← List.append_assoc, List.map_append]
  exact List.Sublist.append (by simpa [owes] using ha) (List.Sublist.refl [List.ofFn c])

theorem owes_nextSample {i : Sample} {body : Sample → Pc} {done : Pc}
    (hb : ∀ j, owes (body j) = false) (hd : owes done = false) :
    owes (nextSample i body done) = false :=
  nextSample_ind (P := fun pc => owes pc = false) (fun _ => hb _) fun _ => hd

theorem mainStep_owes_of_outsideSend {rc : Int} {m : Machine} {pc : Pc}
    (h : outsideSend pc = true) : owes (mainStep rc m pc).1 = false := by
  have hn : outsideSend (mainStep rc m pc).1 = true ∨ (mainStep rc m pc).1 = .sendTest :=
    mainStep_outsideSend h
  rcases hn with hn | hn
  · exact owes_outsideSend hn
  · rw [hn]
    rfl

theorem Traced.idle {pc : Pc} {m : Machine} {h : CaptureLog} {a : AirLog} {taken : ℕ} {rc : Int}
    (ht : Traced pc m.captureSide h a taken) (hi : outsideSend pc = true) :
    Traced (mainStep rc m pc).1 m.captureSide h a taken := by
  refine ht.keep (ht.session.idle hi) rfl ?_
  rw [owes_outsideSend hi, mainStep_owes_of_outsideSend hi]

/-- Every statement but the last of `rfm9x_start_transmit` puts nothing on the air. -/
theorem Traced.silent {pc : Pc} {m : Machine} {h : CaptureLog} {a : AirLog} {taken : ℕ} {rc : Int}
    (ht : Traced pc m.captureSide h a taken) (hl : ∀ buf, pc ≠ .sendLaunch buf) :
    ∃ taken', Traced (mainStep rc m pc).1 (mainStep rc m pc).2.captureSide (h.recordMain pc rc)
      a taken' := by
  have hs := ht.session
  cases pc with
  | sendTest =>
    refine ⟨taken, ht.keep hs.sendTest rfl ?_⟩
    simp only [mainStep]
    split_ifs <;> rfl
  | sendIndex =>
    have hn : Session (.sendCall m.loraReadInd) m.captureSide h taken :=
      hs.goto (by simp) (by simp) rfl fun hst => ⟨rfl, hs.progress hst⟩
    exact ⟨taken, ht.keep hn rfl rfl⟩
  | sendCall txIdx => exact ⟨taken, ht.keep hs.sendCall rfl rfl⟩
  | sendLoad txIdx i buf =>
    have ho : owes (mainStep rc m (.sendLoad txIdx i buf)).1 = false := by
      simp only [mainStep]
      exact owes_nextSample (fun _ => rfl) rfl
    exact ⟨taken, ht.keep hs.sendLoad rfl (by rw [ho]; rfl)⟩
  | sendLaunch buf => exact absurd rfl (hl buf)
  | sendNotDone rc' =>
    have hn : Session (.sendStatus rc') m.captureSide h taken :=
      hs.goto (by simp) (by simp) rfl hs.progress
    exact ⟨taken, ht.keep hn rfl rfl⟩
  | sendStatus rc' =>
    refine ⟨taken, ?_⟩
    simp only [mainStep]
    split_ifs with hr
    · have hn : Session .sendClear m.captureSide h taken :=
        hs.goto (by simp) (by simp) (by simp [owes, hr]) (hs.progress hr)
      exact ht.keep hn rfl (by simp [owes, hr])
    · have hn : Session .sendFailed m.captureSide h taken :=
        hs.goto (by simp) (by simp) (by simp [owes, hr]) trivial
      exact ht.keep hn rfl (by simp [owes, hr])
  | sendClear => exact ⟨taken + 1, ht.keep hs.sendClear rfl rfl⟩
  | sendAdvance =>
    exact ⟨taken, ht.keep ⟨hs.window, ⟨hs.fill.irq, hs.fill.busy⟩, hs.fresh, hs.in_order,
      hs.sent_count, trivial⟩ rfl rfl⟩
  | _ =>
    rw [mainStep_captureSide (by simp) (by simp)]
    exact ⟨taken, ht.idle rfl⟩

theorem Traced.main {pc : Pc} {m : Machine} {h : CaptureLog} {a : AirLog} {taken : ℕ} {rc : Int}
    (ht : Traced pc m.captureSide h a taken) (hu : Uninterrupted (⟨pc, m⟩, h) (.main rc)) :
    ∃ taken', Traced (mainStep rc m pc).1 (mainStep rc m pc).2.captureSide (h.recordMain pc rc)
      (a.record ⟨pc, m⟩ (.main rc)) taken' := by
  have hnone : airs ⟨pc, m⟩ (.main rc) = none → a.record ⟨pc, m⟩ (.main rc) = a := by
    intro ha
    simp [AirLog.record, ha]
  cases pc with
  | sendLaunch buf =>
    refine ⟨taken, ?_⟩
    by_cases hr : rc = 0
    · subst hr
      exact ht.sendLaunch (hu rfl)
    · have hs : Session (.sendNotDone rc) m.captureSide (h.recordMain (.sendLaunch buf) rc) taken :=
        ht.session.sendLaunch fun h0 => absurd h0 hr
      rw [hnone (if_neg hr)]
      exact ht.keep hs (by simp [CaptureLog.recordMain, hr]) (by simp [mainStep, owes, hr])
  | _ =>
    rw [hnone rfl]
    exact ht.silent (by simp)

/-- A press comes outside the send step, and no sample goes to a slot whose flag is set. -/
def Spared (x : Cfg Pc × CaptureLog) (e : Event) : Prop :=
  Uninterrupted x e ∧ match e with
    | .env (.sample _) => CaptureLog.hitsFlag x.1.m = false
    | _ => True

instance (x : Cfg Pc × CaptureLog) (e : Event) : Decidable (Spared x e) := by
  unfold Spared
  induction e using Event.casesOn with
  | main rc => infer_instance
  | env e => induction e using Env.casesOn <;> infer_instance

theorem record_quiet {pc : Pc} {m : Machine} {e : Env} (hq : CaptureSide.Quiet m e) (a : AirLog) :
    a.record ⟨pc, m⟩ (.env e) = a := by
  cases e <;> simp_all [AirLog.record, airs, CaptureSide.Quiet]

theorem Traced.effect {pc : Pc} {m : Machine} {h : CaptureLog} {a : AirLog} {taken : ℕ} {e : Env}
    {v : CaptureSide} (ht : Traced pc m.captureSide h a taken)
    (hu : Spared (⟨pc, m⟩, h) (.env e)) (he : CaptureSide.Effect m e v) :
    ∃ taken', Traced pc v (h.recordEnv m e) (a.record ⟨pc, m⟩ (.env e)) taken' := by
  have hs := ht.session
  cases he with
  | quiet hq =>
    rw [CaptureLog.recordEnv_quiet hq, record_quiet hq]
    exact ⟨taken, ht⟩
  | chain =>
    have ha : a.record ⟨pc, m⟩ (.env .spkTransfer) = a := by simp [AirLog.record, airs]
    rw [ha]
    exact ⟨taken, ht.keep hs.trigger rfl rfl⟩
  | @sample x ha hb =>
    have hr : a.record ⟨pc, m⟩ (.env (.sample x)) = a := by simp [AirLog.record, airs]
    rw [hr]
    exact ⟨taken, ht.keep (hs.sample ha hu.2 x rfl) rfl rfl⟩
  | flagSlot hi =>
    have hr : h.recordEnv m .micIrq = { h with captured := h.captured ++ [m.txRing m.dmaWriteInd],
                                               oldIrq := false, unserved := false } := by
      simp [CaptureLog.recordEnv, hs.fresh]
    rw [hr]
    exact ⟨taken, ht.flagSlot hi⟩
  | @press t ha hr hf =>
    obtain ⟨hi, hc⟩ := hu.1 ha hr
    have hrec : a.record ⟨pc, m⟩ (.env (.pbIrq t)) = a := by simp [AirLog.record, airs]
    rw [hrec]
    refine ⟨0, ht.restart (session_press _ hc ?_) ?_⟩ <;>
      simp [CaptureLog.recordEnv, ha, hr, CaptureLog.start, show m.mic.irq = false from hi]
  | @release t ha hr hf =>
    have hrec : a.record ⟨pc, m⟩ (.env (.pbIrq t)) = a := by simp [AirLog.record, airs]
    have hh : h.recordEnv m (.pbIrq t) = { h with opened := false, unserved := m.mic.irq } := by
      simp [CaptureLog.recordEnv, ha, hr]
    rw [hrec, hh]
    exact ⟨taken, ht.keep (hs.release.close _) rfl rfl⟩
  | @pressRelease t ha hr hf =>
    obtain ⟨hi, hc⟩ := hu.1 ha hr
    have hrec : a.record ⟨pc, m⟩ (.env (.pbIrq t)) = a := by simp [AirLog.record, airs]
    rw [hrec]
    refine ⟨0, ht.restart (session_press _ hc ?_).release ?_⟩ <;>
      simp [CaptureLog.recordEnv, ha, hr, CaptureLog.start, show m.mic.irq = false from hi]

/-- The books of a device whose presses spare the send step are in order. -/
def Accounted (x : Device) : Prop :=
  ∃ taken, Traced x.1.pc x.1.m.captureSide x.2.session x.2.air taken

theorem Accounted.step {x y : Device} {e : Event} (h : Accounted x) (hu : Spared x.session e)
    (ht : Device.step x e = some y) : Accounted y := by
  obtain ⟨taken, h⟩ := h
  obtain ⟨rc, rfl, rfl⟩ | ⟨f, m, rfl, hf, rfl⟩ := tracked_step_cases ht
  · exact h.main hu.1
  · exact h.effect hu (CaptureSide.envStep_effect hf)

theorem accounted_boot : Accounted Device.boot :=
  ⟨0, ⟨RingWindow.empty _, ⟨fun _ => rfl, fun ha => by cases ha⟩, rfl, List.nil_prefix,
    (fun ho => by cases ho), trivial⟩, [], rfl, List.Sublist.refl _⟩

theorem Accounted.captured {x : Device} (h : Accounted x) :
    x.2.air.aired.Sublist (x.2.air.captured.map List.ofFn) :=
  h.elim fun _ h => h.captured

/-- In every run whose presses spare the send step and whose microphone overruns no flagged
slot, the packets put on the air over all sessions are captured chunks, each one whole, in
the order of capture and at most once. -/
theorem aired_were_captured {es : List Event} {x : Device}
    (hu : Along Device.step (fun x e => Spared x.session e) Device.boot es)
    (hr : run Device.step Device.boot es = some x) :
    x.2.air.aired.Sublist (x.2.air.captured.map List.ofFn) :=
  (hu.invariant Accounted (fun _ _ _ hi hc ht => hi.step hc ht) accounted_boot hr).captured

def twoSessionsEnd : Device := ends Device.step Device.boot twoSessions (by decide +kernel)

theorem aired_were_captured_twice :
    twoSessionsEnd.2.air.aired.Sublist (twoSessionsEnd.2.air.captured.map List.ofFn) :=
  aired_were_captured (by decide +kernel) (run_ends _)

end WalkieTalkie.AiredChunks
