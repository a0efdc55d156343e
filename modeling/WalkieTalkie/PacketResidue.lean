import WalkieTalkie.Playback
import WalkieTalkie.ReceiveLog

/-!
# What a short packet is padded with

All sixty bytes of a slot are staged whatever the length of the packet, so the rest of the
slot must be zero before the read. The speaker handler clears a slot once it is played; a
read that fails, or one into a slot not yet played, leaves its bytes there.
-/
namespace WalkieTalkie.PacketResidue
open PartialRuns

/-- How far the reads have written into each slot since it was last cleared. -/
abbrev Residue := RxSlot → ℕ

def recordResidue (x : Cfg Pc × ReceiveLog) (e : Event) (d : Residue) : Residue :=
  match e with
  | .main _ => match x.1.pc with
    | .readCall => Function.update d x.1.m.rxWriteInd
        (max (d x.1.m.rxWriteInd) (x.1.m.radio.readBytes chunkSize).length)
    | _ => d
  | .env .spkIrq =>
    if (x.1.m.spkReadPacketInd : ℕ) + 1 < chunkSize then d
    else Function.update d x.1.m.spkReadChunkInd 0
  | .env _ => d

/-- The device with its receive log and the residue of its slots. -/
def residueStep : (Cfg Pc × ReceiveLog) × Residue → Event →
    Option ((Cfg Pc × ReceiveLog) × Residue) := tracked receiveStep recordResidue

def start : (Cfg Pc × ReceiveLog) × Residue := ((boot, ReceiveLog.start), fun _ => 0)

/-- The bytes of a packet, then zeros. -/
def padded (p : List UInt8) : Chunk UInt32 := fun i => ((p[(i : ℕ)]?).getD 0).toUInt32

/-- A packet that is read successfully covers what earlier reads have left in its slot, and
the slot is not cleared while it is copied. -/
def Covers (y : (Cfg Pc × ReceiveLog) × Residue) : Event → Prop
  | .main rc => match y.1.1.pc with
    | .readCall =>
      rc = 0 → y.2 y.1.1.m.rxWriteInd ≤ (y.1.1.m.radio.readBytes chunkSize).length
    | _ => True
  | .env .spkIrq => wipes y.1.1 = false
  | .env _ => True

instance (y : (Cfg Pc × ReceiveLog) × Residue) (e : Event) : Decidable (Covers y e) := by
  induction e using Event.casesOn with
  | main rc =>
    unfold Covers
    generalize y.1.1.pc = pc
    induction pc using Pc.casesOn <;> infer_instance
  | env e => induction e using Env.casesOn <;> unfold Covers <;> infer_instance

/-- A slot is zero from its residue on. -/
def Cleared (ring : RxSlot → Chunk UInt8) (d : Residue) : Prop :=
  ∀ c, ∀ i : Sample, d c ≤ i → ring c i = 0

/-- The chunks staged are the packets accepted, the one being copied not counted. -/
def Copied (pc : Pc) (m : Machine) (h : ReceiveLog) : Prop :=
  match pc with
  | .stageByte i => ∃ done p, h.accepted = done ++ [p] ∧ h.chunks = done.map padded ∧
      words (m.rxRing m.rxWriteInd) = padded p ∧
      ∀ j : Sample, (j : ℕ) < i → m.spkStaging m.rxWriteInd j = padded p j
  | .stageFlag => ∃ done p, h.accepted = done ++ [p] ∧ h.chunks = done.map padded ∧
      m.spkStaging m.rxWriteInd = padded p
  | _ => h.chunks = h.accepted.map padded

structure Clean (pc : Pc) (m : Machine) (h : ReceiveLog) (d : Residue) : Prop where
  cleared : Cleared m.rxRing d
  copied : Copied pc m h

/-- A read writes its bytes and keeps the rest of the slot. -/
theorem Cleared.fillSlot {m : Machine} {d : Residue} (h : Cleared m.rxRing d)
    (bytes : List UInt8) : Cleared (m.fillSlot bytes).rxRing
      (Function.update d m.rxWriteInd (max (d m.rxWriteInd) bytes.length)) := by
  intro c i hi
  by_cases hc : c = m.rxWriteInd
  · subst hc
    rw [Function.update_self] at hi
    have hnone : bytes[(i : ℕ)]? = none := List.getElem?_eq_none (by omega)
    simpa [Machine.fillSlot, hnone] using h _ i (by omega)
  · rw [Function.update_of_ne hc] at hi
    simpa [Machine.fillSlot, Function.update_of_ne hc] using h c i hi

/-- A packet that covers the residue of its slot is padded with zeros. -/
theorem Cleared.words_fillSlot {m : Machine} {d : Residue} (h : Cleared m.rxRing d)
    {bytes : List UInt8} (hd : d m.rxWriteInd ≤ bytes.length) :
    words ((m.fillSlot bytes).rxRing m.rxWriteInd) = padded bytes := by
  funext i
  by_cases hi : (i : ℕ) < bytes.length
  · simp [words, padded, Machine.fillSlot, hi]
  · have hz := h m.rxWriteInd i (by omega)
    simp [words, padded, Machine.fillSlot, hi, hz]

theorem dmaReadIrqHandler_rxRing (m : Machine) : m.dmaReadIrqHandler.rxRing =
    if (m.spkReadPacketInd : ℕ) + 1 < chunkSize then m.rxRing
    else Function.update m.rxRing m.spkReadChunkInd fun _ => 0 := by
  simp only [Machine.dmaReadIrqHandler, Machine.rearmOrDisable, Machine.finishSample]
  split_ifs <;> rfl

theorem Cleared.env {s : Cfg Pc} {h : ReceiveLog} {m' : Machine} {e : Env} {d : Residue}
    (hc : Cleared s.m.rxRing d) (he : envStep s.m e = some m') :
    Cleared m'.rxRing (recordResidue (s, h) (.env e) d) := by
  cases e with
  | spkIrq =>
    simp only [envStep] at he
    split_ifs at he
    cases he
    rw [dmaReadIrqHandler_rxRing]
    simp only [recordResidue]
    split_ifs with hp
    · exact hc
    · intro c i hi
      by_cases hcr : c = s.m.spkReadChunkInd
      · rw [hcr, Function.update_self]
      · rw [Function.update_of_ne hcr] at hi ⊢
        exact hc c i hi
  | edge | pbIrq | sample | micIrq | spkTransfer | payload | packetSent | radioIrq | spurious =>
    rcases (envStep_bufferEffect he).ring with hr | ⟨hs, _⟩
    · rw [hr]
      exact hc
    · cases hs

theorem Copied.env {s : Cfg Pc} {h : ReceiveLog} {m' : Machine} {e : Env}
    (hc : Copied s.pc s.m h) (hb : BufferEffect s.m e m')
    (hw : e = .spkIrq → wipes s = false) : Copied s.pc m' (h.recordEnv s e) := by
  have ha : (h.recordEnv s e).accepted = h.accepted := by cases e <;> rfl
  have hk : (h.recordEnv s e).chunks = h.chunks := by cases e <;> rfl
  obtain ⟨pc, m⟩ := s
  cases pc with
  | stageByte i =>
    have hslot := hb.slot fun he => by simpa [wipes] using hw he
    obtain ⟨done, p, h1, h2, h3, h4⟩ := hc
    refine ⟨done, p, ha.trans h1, hk.trans h2, ?_, ?_⟩
    · rw [hb.writeInd, hslot]
      exact h3
    · rw [hb.writeInd, hb.staging]
      exact h4
  | stageFlag =>
    obtain ⟨done, p, h1, h2, h3⟩ := hc
    refine ⟨done, p, ha.trans h1, hk.trans h2, ?_⟩
    rw [hb.writeInd, hb.staging]
    exact h3
  | _ => exact (hk.trans hc).trans (congrArg _ ha.symm)

/-- Not a statement of the copy. -/
def plain : Pc → Bool
  | .stageByte _ | .stageFlag => false
  | _ => true

theorem Copied.plain {pc pc' : Pc} {m m' : Machine} {h : ReceiveLog} (hc : Copied pc m h)
    (hp : plain pc = true) (hp' : plain pc' = true) : Copied pc' m' h := by
  have hk : h.chunks = h.accepted.map padded := by cases pc <;> first | exact hc | cases hp
  cases pc' <;> first | exact hk | cases hp'

theorem Clean.readCall {m : Machine} {h : ReceiveLog} {d : Residue} {rc : Int}
    (hs : Clean .readCall m h d)
    (hd : rc = 0 → d m.rxWriteInd ≤ (m.radio.readBytes chunkSize).length) :
    Clean (mainStep rc m .readCall).1 (mainStep rc m .readCall).2
      (h.recordMain ⟨.readCall, m⟩ rc) (Function.update d m.rxWriteInd
        (max (d m.rxWriteInd) (m.radio.readBytes chunkSize).length)) := by
  refine ⟨hs.cleared.fillSlot _, ?_⟩
  by_cases hr : rc = 0
  · simp only [mainStep, ReceiveLog.recordMain, if_pos hr]
    refine ⟨h.accepted, _, rfl, hs.copied, hs.cleared.words_fillSlot (hd hr), fun j hj => ?_⟩
    exact absurd hj (Nat.not_lt_zero _)
  · simp only [mainStep, ReceiveLog.recordMain, if_neg hr]
    exact hs.copied

theorem Copied.stageByte {m : Machine} {h : ReceiveLog} {i : Sample}
    (hc : Copied (.stageByte i) m h) (r : Bool) :
    Copied (nextSample i .stageByte .stageFlag) (m.stageSample i) { h with restaged := r } := by
  obtain ⟨done, p, h1, h2, h3, h4⟩ := hc
  have hslot : (m.stageSample i).spkStaging m.rxWriteInd =
      Function.update (m.spkStaging m.rxWriteInd) i (words (m.rxRing m.rxWriteInd) i) :=
    Function.update_self ..
  have hnew : ∀ j : Sample, (j : ℕ) < i + 1 →
      (m.stageSample i).spkStaging m.rxWriteInd j = padded p j := by
    intro j hj
    rw [hslot, h3]
    exact update_eq_of_lt_succ h4 j hj
  refine nextSample_ind (P := fun pc => Copied pc (m.stageSample i) { h with restaged := r })
    (fun _ => ⟨done, p, h1, h2, h3, hnew⟩) fun hi => ⟨done, p, h1, h2, ?_⟩
  funext j
  exact hnew j (by have := j.isLt; omega)

theorem Copied.stageFlag {m m' : Machine} {h : ReceiveLog} (hc : Copied .stageFlag m h) :
    Copied .stageAdvance m'
      { h with staged := h.staged ++ [⟨m.spkStaging m.rxWriteInd, h.wiped⟩] } := by
  obtain ⟨done, p, h1, h2, h3⟩ := hc
  have hk : h.staged.map Staged.chunk = done.map padded := h2
  simp only [Copied, ReceiveLog.chunks, List.map_append, hk, h1, h3]
  rfl

theorem Clean.main {pc : Pc} {m : Machine} {h : ReceiveLog} {d : Residue} {rc : Int}
    (hs : Clean pc m h d) (hc : Covers ((⟨pc, m⟩, h), d) (.main rc)) :
    Clean (mainStep rc m pc).1 (mainStep rc m pc).2 (h.recordMain ⟨pc, m⟩ rc)
      (recordResidue (⟨pc, m⟩, h) (.main rc) d) := by
  cases pc with
  | readCall => exact hs.readCall hc
  | stageByte i => exact ⟨hs.cleared, hs.copied.stageByte _⟩
  | stageFlag => exact ⟨hs.cleared, hs.copied.stageFlag⟩
  | sendLoad =>
    have key : ∀ pc, PacketResidue.plain pc = true → Clean pc m h d :=
      fun _ hp => ⟨hs.cleared, hs.copied.plain rfl hp⟩
    simp only [mainStep]
    exact nextSample_ind (P := fun pc => Clean pc m h d) (fun _ => key _ rfl) fun _ => key _ rfl
  | _ =>
    refine ⟨hs.cleared, ?_⟩
    simp only [mainStep]
    (try split_ifs) <;> exact hs.copied.plain rfl rfl

theorem Clean.step {y z : (Cfg Pc × ReceiveLog) × Residue} {e : Event}
    (hs : Clean y.1.1.pc y.1.1.m y.1.2 y.2) (hc : Covers y e) (hstep : residueStep y e = some z) :
    Clean z.1.1.pc z.1.1.m z.1.2 z.2 := by
  obtain ⟨⟨t, h'⟩, d'⟩ := z
  obtain ⟨hx, rfl⟩ := tracked_eq_some.mp hstep
  obtain ⟨ht, rfl⟩ := tracked_eq_some.mp hx
  obtain ⟨rc, rfl, rfl⟩ | ⟨f, m, rfl, hf, rfl⟩ := step_cases ht
  · exact hs.main hc
  · refine ⟨hs.cleared.env hf, hs.copied.env (envStep_bufferEffect hf) ?_⟩
    rintro rfl
    exact hc

theorem clean_start : Clean boot.pc boot.m ReceiveLog.start fun _ => 0 :=
  ⟨fun _ _ _ => rfl, rfl⟩

theorem Copied.in_order {pc : Pc} {m : Machine} {h : ReceiveLog} (hc : Copied pc m h) :
    h.chunks <+: h.accepted.map padded := by
  cases pc with
  | stageByte =>
    obtain ⟨done, p, h1, h2, _⟩ := hc
    rw [h1, h2, List.map_append]
    exact List.prefix_append _ _
  | stageFlag =>
    obtain ⟨done, p, h1, h2, _⟩ := hc
    rw [h1, h2, List.map_append]
    exact List.prefix_append _ _
  | _ =>
    have hk : h.chunks = h.accepted.map padded := hc
    exact hk ▸ List.prefix_rfl

/-- In every run whose successful reads cover the residue of their slots, each chunk staged
is the bytes of its own packet followed by zeros. -/
theorem staged_chunks_are_padded {es : List Event} {y : (Cfg Pc × ReceiveLog) × Residue}
    (hc : Along residueStep Covers start es) (hr : run residueStep start es = some y) :
    y.1.2.chunks <+: y.1.2.accepted.map padded :=
  (hc.invariant (fun y => Clean y.1.1.pc y.1.1.m y.1.2 y.2) (fun _ _ _ hi hc ht => hi.step hc ht)
    clean_start hr).copied.in_order

/-- A packet is received, and its interrupt taken. -/
def packet (p : List UInt8) : List Event := [.env (.payload p), .env (.radioIrq .payloadReady)]

/-- A short packet, played, and a longer one. -/
def shortThenLong : List Event :=
  mains 6 ++ packet [2, 3] ++ mains 80 ++ packet [4, 5, 6] ++ mains 74

def shortThenLongEnd : (Cfg Pc × ReceiveLog) × Residue :=
  ends residueStep start shortThenLong (by decide +kernel)

theorem staged_chunks_are_padded_twice :
    shortThenLongEnd.1.2.chunks <+: shortThenLongEnd.1.2.accepted.map padded :=
  staged_chunks_are_padded (by decide +kernel) (run_ends _)

/-- A read of sixty bytes fails, and one of two bytes into the same slot succeeds. -/
def shortAfterFailedRead : List Event :=
  mains 6 ++ packet (List.replicate chunkSize 1) ++ mains 6 ++ [.main (-1)] ++ mains 7 ++
    packet [2, 3] ++ mains 68

/-- Every read succeeds, but the packet of two bytes goes to a slot that has not been played. -/
def shortOverUnplayed : List Event :=
  mains 6 ++ ((List.range 8).flatMap fun _ => packet (List.replicate chunkSize 1) ++ mains 80) ++
    packet [2, 3] ++ mains 75

/-- The rest of the packet before is staged behind the two bytes. -/
theorem failed_read_leaves_bytes :
    (∃ y, run residueStep start shortOverUnplayed = some y ∧
      ¬ y.1.2.chunks <+: y.1.2.accepted.map padded) ∧
      ∃ y, run residueStep start shortAfterFailedRead = some y ∧
        ¬ y.1.2.chunks <+: y.1.2.accepted.map padded := by
  constructor
  · obtain ⟨y, hy, hn⟩ : ∃ y, run residueStep start shortOverUnplayed = some y ∧
        ¬ y.1.2.chunks.map List.ofFn <+: (y.1.2.accepted.map padded).map List.ofFn :=
      exists_of_run_any (by decide +kernel)
    exact ⟨y, hy, fun hp => hn (hp.map List.ofFn)⟩
  · obtain ⟨y, hy, hn⟩ : ∃ y, run residueStep start shortAfterFailedRead = some y ∧
        ¬ y.1.2.chunks.map List.ofFn <+: (y.1.2.accepted.map padded).map List.ofFn :=
      exists_of_run_any (by decide +kernel)
    exact ⟨y, hy, fun hp => hn (hp.map List.ofFn)⟩

end WalkieTalkie.PacketResidue
