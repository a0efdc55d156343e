import WalkieTalkie.DriverRefinement
import WalkieTalkie.Link

/-!
# Two devices with their drivers

The packet of one chip goes from its FIFO to that of the other, or is lost. Together the
two drivers refine the link.
-/
namespace WalkieTalkie
open PartialRuns

structure DriverLink where
  device : Side → DriverDevice

inductive DriverLinkEvent
  /-- An event of one device. -/
  | own (s : Side) (e : DriverEvent)
  /-- The packet of one chip ends, and the other one has heard it or not. -/
  | carry (s : Side) (heard : Bool)

def DriverEvent.ofEther : DriverEvent → Bool
  | .env (.payload _) | .env .packetSent => true
  | _ => false

/-- The packet in the FIFO of a device. -/
def DriverDevice.frame (x : DriverDevice) : List UInt8 := x.1.b.drv.chip.frame

def DriverDevice.sending (x : DriverDevice) : Prop := x.1.b.drv.chip.radioMode = .transmitting

namespace DriverLink

def step (L : DriverLink) : DriverLinkEvent → Option DriverLink
  | .own s e =>
    if e.ofEther then none
    else (DriverDevice.step (L.device s) e).map fun x => ⟨Function.update L.device s x⟩
  | .carry s heard => match DriverDevice.step (L.device s) (.env .packetSent) with
    | none => none
    | some x =>
      if heard then
        (DriverDevice.step (L.device s.other) (.env (.payload (L.device s).frame))).map fun y =>
          ⟨Function.update (Function.update L.device s x) s.other y⟩
      else some ⟨Function.update L.device s x⟩

def boot (drv : Side → Sx127x) : DriverLink := ⟨fun s => DriverDevice.boot (drv s)⟩

end DriverLink

theorem Chip.transmitting_of_radioMode {c : Chip} (h : c.radioMode = .transmitting) :
    c.mode = modeTx ∧ c.packetSent = false := by
  rw [Chip.radioMode] at h
  split_ifs at h with _ ht
  exact ht

theorem driverEnv_drv {b b' : Board} {f : Env} (hf : (DriverEvent.env f).ofEther = false)
    (h : driverEnv b f = some b') : b'.drv = b.drv := by
  have hm : driverEnv b f = (envStep b.m f).map fun m => { b with m := m } := by
    cases f <;> first | rfl | cases hf
  rw [hm] at h
  obtain ⟨m, _, rfl⟩ := Option.map_eq_some_iff.mp h
  rfl

/-- A device that is sending after a step has just started to, or was at it before. -/
theorem Refines.sending_step {x x' : DriverDevice} {y : Device} {e : DriverEvent} (h : Refines x y)
    (he : e.ofEther = false) (hx : DriverDevice.step x e = some x') (hs : x'.sending) :
    x'.2.frames = x.2.frames ++ [x'.frame] ∨
      x'.2.frames = x.2.frames ∧ x.sending ∧ x'.frame = x.frame := by
  have hmode : x'.1.b.drv.chip.mode ≠ modeStandby := by
    rw [(Chip.transmitting_of_radioMode hs).1]
    decide
  cases e with
  | env f =>
    obtain ⟨b, hb⟩ := DriverDevice.env_some hx
    have hdrv := driverEnv_drv he hb
    have hx' := DriverDevice.step_env hx hb
    subst hx'
    refine .inr ⟨rfl, ?_, ?_⟩
    · rw [DriverDevice.sending, ← hdrv]
      exact hs
    · rw [DriverDevice.frame, DriverDevice.frame, hdrv]
  | main refuse =>
    have hr := x.1.b.ready_driver h.sane.ready refuse
    have hheld := h.sane.held
    have hbuf := h.buffer
    rw [h.agrees.pc] at hbuf
    obtain ⟨⟨pc, b⟩, l⟩ := x
    cases pc with
    | finishCall =>
      have hx' := DriverDevice.step_statement hx (statement_finishCall h.sane.ready refuse)
      subst hx'
      exact absurd (Chip.enter_mode ..) hmode
    | sendCall txIdx =>
      have hx' := DriverDevice.step_statement hx (statement_sendCall h.sane.ready refuse txIdx)
      subst hx'
      exact absurd (Chip.stagedHead_mode ..) hmode
    | sendLaunch buf =>
      cases refuse with
      | true =>
        have hx' := DriverDevice.step_refusedLaunch h.sane.ready hheld hbuf hx
        subst hx'
        exact absurd hheld.2.1 hmode
      | false =>
        have hx' := DriverDevice.step_launch h.sane.ready hheld hbuf hx
        subst hx'
        exact .inl rfl
    | armCall =>
      have hx' := DriverDevice.step_statement hx (statement_armCall h.sane.ready refuse)
      have htx := (Chip.transmitting_of_radioMode hs).1
      cases refuse with
      | true =>
        subst hx'
        exact absurd (Chip.stagedReceive_mode _) hmode
      | false =>
        subst hx'
        exact absurd ((Sx127x.armed_mode (b.driver false)).symm.trans htx) (by decide)
    | spuriousTest =>
      have hx' := DriverDevice.step_statement hx (statement_spuriousTest b refuse)
      subst hx'
      exact .inr ⟨rfl, hs, rfl⟩
    | readCall =>
      obtain ⟨n, p, hf, hp⟩ := h.sane.packet hheld
      have hx' := DriverDevice.step_statement hx (statement_readCall h.sane.ready refuse hf hp)
      subst hx'
      have hready := h.sane.silent (Chip.transmitting_of_radioMode hs).1
      rw [show b.drv.chip.payloadReady = true from hheld] at hready
      cases hready
    | _ =>
      have hx' := DriverDevice.step_statement hx (driverStatement_plain rfl)
      subst hx'
      exact .inr ⟨rfl, hs, rfl⟩

structure RefinesLink (L : DriverLink) (l : Link) : Prop where
  device : ∀ s, Refines (L.device s) (l.device s)
  air : ∀ s, (L.device s).sending → l.air s = some (L.device s).frame

def LinkMatches : DriverLinkEvent → LinkEvent → Prop
  | .own s e, .own t d => s = t ∧ Matches e d
  | .carry s heard, .carry t heard' => s = t ∧ heard = heard'
  | _, _ => False

/-- An arm that is refused finds no packet received and not read, nor one dropped unread. -/
def LinkSpares (L : DriverLink) : DriverLinkEvent → Prop
  | .own s e => Spares (L.device s) e
  | .carry _ _ => True

theorem Refines.step {x x' : DriverDevice} {y : Device} {e : DriverEvent} (h : Refines x y)
    (hk : Spares x e) (hx : DriverDevice.step x e = some x') :
    ∃ d v, Matches e d ∧ Device.step y d = some v ∧ Refines x' v := by
  cases e with
  | main refuse => exact h.main hk hx
  | env e => exact h.env hx

theorem Matches.ofEther {e : DriverEvent} {d : Event} (h : Matches e d) :
    d.ofEther = e.ofEther := by
  cases e with
  | main refuse =>
    cases d with
    | main rc => rfl
    | env f => cases h
  | env f =>
    cases d with
    | main rc => cases h
    | env g =>
      obtain rfl : f = g := h
      cases f <;> rfl

/-- What a device sends after a step, by the packets it has put on the air. -/
theorem Refines.onAir {x x' : DriverDevice} {y v : Device} {e : DriverEvent} {d : Event}
    (h : Refines x y) (h' : Refines x' v) (he : e.ofEther = false)
    (hx : DriverDevice.step x e = some x') (hy : Device.step y d = some v)
    {p : Option (List UInt8)} (hp : x.sending → p = some x.frame) (hs : x'.sending) :
    onAir y d v p = some x'.frame := by
  have haired := Device.aired_step hy
  rw [h.agrees.aired, h'.agrees.aired] at haired
  rw [WalkieTalkie.onAir, if_pos (h'.agrees.mode.trans hs)]
  rcases h.sending_step he hx hs with hf | ⟨hf, hw, hframe⟩
  · rw [hf, List.append_cancel_left_eq] at haired
    cases ha : airs y.1 d with
    | none => simp [ha] at haired
    | some q => simpa [ha] using haired.symm
  · rw [hf, List.self_eq_append_right, Option.toList_eq_nil_iff] at haired
    rw [haired, Option.none_or, hp hw, hframe]

theorem RefinesLink.own {L L' : DriverLink} {l : Link} {s : Side} {e : DriverEvent}
    (h : RefinesLink L l) (hk : Spares (L.device s) e) (hL : L.step (.own s e) = some L') :
    ∃ d l', LinkMatches (.own s e) d ∧ l.step d = some l' ∧ RefinesLink L' l' := by
  simp only [DriverLink.step] at hL
  split_ifs at hL with he
  obtain ⟨x', hx, rfl⟩ := Option.map_eq_some_iff.mp hL
  obtain ⟨d, v, hm, hv, hR⟩ := (h.device s).step hk hx
  have he' : e.ofEther = false := by simpa using he
  refine ⟨.own s d, ⟨Function.update l.device s v,
    Function.update l.air s (WalkieTalkie.onAir (l.device s) d v (l.air s))⟩, ⟨rfl, hm⟩, ?_, ?_, ?_⟩
  · simp only [Link.step, hm.ofEther, he', Bool.false_eq_true, if_false, hv]
  · intro t
    by_cases ht : t = s
    · subst ht
      simpa using hR
    · simpa [Function.update_of_ne ht] using h.device t
  · intro t
    by_cases ht : t = s
    · subst ht
      simpa using (h.device t).onAir hR he' hx hv (h.air t)
    · simpa [Function.update_of_ne ht] using h.air t

/-- A chip that is done with a packet was sending it. -/
theorem DriverDevice.sending_packetSent {x x' : DriverDevice}
    (hx : DriverDevice.step x (.env .packetSent) = some x') : x.sending ∧ ¬x'.sending := by
  obtain ⟨b, hb⟩ := DriverDevice.env_some hx
  have hx' := DriverDevice.step_env hx hb
  subst hx'
  obtain ⟨c, hc, rfl⟩ := Option.map_eq_some_iff.mp hb
  simp only [Chip.packetOut] at hc
  split_ifs at hc with hcond
  cases hc
  refine ⟨Chip.radioMode_tx hcond.1 hcond.2, fun hs => ?_⟩
  cases (Chip.transmitting_of_radioMode hs).2

theorem DriverDevice.not_sending_payload {x x' : DriverDevice} {p : List UInt8}
    (hx : DriverDevice.step x (.env (.payload p)) = some x') : ¬x'.sending := by
  obtain ⟨b, hb⟩ := DriverDevice.env_some hx
  have hx' := DriverDevice.step_env hx hb
  subst hx'
  obtain ⟨c, hc, rfl⟩ := Option.map_eq_some_iff.mp hb
  simp only [Chip.packetIn] at hc
  split_ifs at hc with hcond
  cases hc
  intro hs
  have htx : x.1.b.drv.chip.mode = modeTx := (Chip.transmitting_of_radioMode hs).1
  exact absurd (hcond.1.symm.trans htx) (by decide)

theorem RefinesLink.carry {L L' : DriverLink} {l : Link} {s : Side} {heard : Bool}
    (h : RefinesLink L l) (hL : L.step (.carry s heard) = some L') :
    ∃ d l', LinkMatches (.carry s heard) d ∧ l.step d = some l' ∧ RefinesLink L' l' := by
  cases hx : DriverDevice.step (L.device s) (.env .packetSent) with
  | none => simp [DriverLink.step, hx] at hL
  | some x =>
    obtain ⟨hs, hns⟩ := DriverDevice.sending_packetSent hx
    have hair := h.air s hs
    obtain ⟨d, v, hm, hv, hR⟩ := (h.device s).packetSent hx
    cases d with
    | main rc => cases hm
    | env f =>
    obtain rfl : Env.packetSent = f := hm
    cases heard with
    | false =>
      simp only [DriverLink.step, hx, Bool.false_eq_true, if_false, Option.some.injEq] at hL
      subst hL
      refine ⟨.carry s false, ⟨Function.update l.device s v, Function.update l.air s none⟩,
        ⟨rfl, rfl⟩, by simp only [Link.step, hair, hv, Bool.false_eq_true, if_false], ?_, ?_⟩
      · intro t
        by_cases ht : t = s
        · subst ht
          simpa using hR
        · simpa [Function.update_of_ne ht] using h.device t
      · intro t
        by_cases ht : t = s
        · subst ht
          simpa using fun hc => absurd hc hns
        · simpa [Function.update_of_ne ht] using h.air t
    | true =>
      simp only [DriverLink.step, hx, if_true] at hL
      obtain ⟨x₂, hx₂, rfl⟩ := Option.map_eq_some_iff.mp hL
      obtain ⟨d, w, hm, hw, hR₂⟩ := (h.device s.other).payload hx₂
      cases d with
      | main rc => cases hm
      | env f =>
      obtain rfl : Env.payload (L.device s).frame = f := hm
      have hns₂ := DriverDevice.not_sending_payload hx₂
      refine ⟨.carry s true, ⟨Function.update (Function.update l.device s v) s.other w,
        Function.update l.air s none⟩, ⟨rfl, rfl⟩,
        by simp only [Link.step, hair, hv, hw, if_true], ?_, ?_⟩
      · intro t
        by_cases ht : t = s.other
        · subst ht
          simpa using hR₂
        · obtain rfl : t = s := by
            cases s <;> cases t <;> first | rfl | exact absurd rfl ht
          simpa [Function.update_of_ne ht] using hR
      · intro t
        by_cases ht : t = s.other
        · subst ht
          simpa using fun hc => absurd hc hns₂
        · obtain rfl : t = s := by
            cases s <;> cases t <;> first | rfl | exact absurd rfl ht
          simpa [Function.update_of_ne ht] using fun hc => absurd hc hns

theorem refinesLink_boot {drv : Side → Sx127x} (hd : ∀ s, Idle (drv s)) :
    RefinesLink (DriverLink.boot drv) Link.boot where
  device s := refines_boot (hd s)
  air s hs := by
    have hm := (hd s).mode
    rw [show (drv s).chip.mode = modeTx from (Chip.transmitting_of_radioMode hs).1] at hm
    exact absurd hm (by decide)

theorem exists_refined_link_run {drv : Side → Sx127x} {es : List DriverLinkEvent} {L : DriverLink}
    (hd : ∀ s, Idle (drv s)) (hk : Along DriverLink.step LinkSpares (DriverLink.boot drv) es)
    (hr : run DriverLink.step (DriverLink.boot drv) es = some L) :
    ∃ ds l, List.Forall₂ LinkMatches es ds ∧ run Link.step Link.boot ds = some l ∧
      RefinesLink L l := by
  refine hk.simulates RefinesLink LinkMatches (fun L e L' l hR hs hL => ?_) (refinesLink_boot hd) hr
  cases e with
  | own s e => exact hR.own hs hL
  | carry s heard => exact hR.carry hL

namespace DriverLink

variable {drv : Side → Sx127x} {es : List DriverLinkEvent} {L : DriverLink}

/-- One arm is refused, then both sides listen; the left side sends one chunk, the right side
hears it and queues it. -/
def oneWay : List DriverLinkEvent :=
  ((mains 4).map granted ++ [DriverEvent.main true] ++ (mains 7).map granted).map (.own .right) ++
    ((mains 6 ++ button 100000 ++ samples 60 ++ [Event.env .micIrq] ++ mains 68).map granted).map
      (.own .left) ++
    [.carry .left true] ++
    ((Event.env (.radioIrq .payloadReady) :: mains 80).map granted).map (.own .right)

def oneWayEnd : DriverLink := ends step (boot fun _ => idleDriver) oneWay (by decide +kernel)

instance (L : DriverLink) (e : DriverLinkEvent) : Decidable (LinkSpares L e) := by
  induction e using DriverLinkEvent.casesOn with
  | own s e => exact inferInstanceAs (Decidable (Spares (L.device s) e))
  | carry s heard => exact .isTrue trivial

/-- Two devices with their drivers and chips, whatever the buttons, the chips and the ether do:
as long as no arm is refused that finds a packet received and not read or dropped unread, they do
what two devices with abstract radios do that send each other their packets. At the end each
device agrees with its counterpart; what the chip of one side took in is a subsequence of what the
chip of the other side sent out of its FIFO, and so are the chunks queued for the speaker, but for
the bytes of those whose slot the speaker handler cleared while it was copied. -/
theorem driver_link_refines_link (hd : ∀ s, Idle (drv s))
    (hk : Along step LinkSpares (boot drv) es) (hr : run step (boot drv) es = some L) :
    ∃ ds l, List.Forall₂ LinkMatches es ds ∧ run Link.step Link.boot ds = some l ∧
      ∀ s : Side, Agrees (L.device s) (l.device s) ∧
        (l.device s.other).2.receive.received.Sublist (L.device s).2.frames ∧
        List.SublistForall₂ PayloadStaging.Holds (l.device s.other).2.receive.staged
          (L.device s).2.frames := by
  obtain ⟨ds, l, hm, hl, h⟩ := exists_refined_link_run hd hk hr
  have hs : l.Sides := run_invariant Link.Sides (fun _ _ _ hi ht => hi.step ht) Link.sides_boot hl
  refine ⟨ds, l, hm, hl, fun s => ⟨(h.device s).agrees, ?_, ?_⟩⟩
  · rw [← (h.device s).agrees.aired]
    exact hs.received s
  · rw [← (h.device s).agrees.aired]
    exact hs.staged s

theorem driver_link_refines_link_once : ∃ ds l, List.Forall₂ LinkMatches oneWay ds ∧
    run Link.step Link.boot ds = some l ∧
      ∀ s : Side, Agrees (oneWayEnd.device s) (l.device s) ∧
        (l.device s.other).2.receive.received.Sublist (oneWayEnd.device s).2.frames ∧
        List.SublistForall₂ PayloadStaging.Holds (l.device s.other).2.receive.staged
          (oneWayEnd.device s).2.frames :=
  driver_link_refines_link (L := oneWayEnd) (fun _ => idle_idleDriver) (by decide +kernel)
    (run_ends _)

end DriverLink

end WalkieTalkie
