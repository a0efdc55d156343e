import WalkieTalkie.DeviceLog
import WalkieTalkie.PayloadStaging

/-!
# Two devices on one frequency

A packet is sent in the time from a successful start to the packet-sent event. At its end
the other radio has it, if it listened and no payload waited there, or has lost it. What
takes the sender out of transmit mode earlier cuts its packet off.
-/
namespace WalkieTalkie
open PartialRuns

inductive Side | left | right deriving DecidableEq, Repr

def Side.other : Side → Side
  | .left => .right
  | .right => .left

theorem Side.other_ne (s : Side) : s.other ≠ s := by
  cases s <;> decide

theorem Side.eq_other_of_ne {s t : Side} (h : t ≠ s) : t = s.other := by
  cases s <;> cases t <;> first | rfl | exact absurd rfl h

theorem Side.other_other (s : Side) : s.other.other = s := by
  cases s <;> rfl

structure Link where
  device : Side → Device
  /-- The packet a radio is sending. -/
  air : Side → Option (List UInt8)

inductive LinkEvent
  /-- An event of one device. -/
  | own (s : Side) (e : Event)
  /-- The packet of one device ends, and the other one has heard it or not. -/
  | carry (s : Side) (heard : Bool)

/-- The two events of a device that the ether decides on. -/
def Event.ofEther : Event → Bool
  | .env (.payload _) | .env .packetSent => true
  | _ => false

/-- What `x` is sending after the event, having been sending `p`. -/
def onAir (x : Device) (e : Event) (y : Device) (p : Option (List UInt8)) : Option (List UInt8) :=
  if y.1.m.radio.mode = .transmitting then (airs x.1 e).or p else none

namespace Link

def step (l : Link) : LinkEvent → Option Link
  | .own s e =>
    if e.ofEther then none
    else match Device.step (l.device s) e with
      | none => none
      | some y => some
        ⟨Function.update l.device s y, Function.update l.air s (onAir (l.device s) e y (l.air s))⟩
  | .carry s heard => match l.air s with
    | none => none
    | some p => match Device.step (l.device s) (.env .packetSent) with
      | none => none
      | some x =>
        if heard then match Device.step (l.device s.other) (.env (.payload p)) with
          | none => none
          | some y => some ⟨Function.update (Function.update l.device s x) s.other y,
              Function.update l.air s none⟩
        else some ⟨Function.update l.device s x, Function.update l.air s none⟩

def boot : Link := ⟨fun _ => Device.boot, fun _ => none⟩

/-- What one device takes part in of an event of the link. -/
def events (l : Link) (t : Side) : LinkEvent → List Event
  | .own s e => if s = t then [e] else []
  | .carry s heard =>
    if s = t then [.env .packetSent]
    else if heard then (l.air s).toList.map fun p => .env (.payload p) else []

/-- Every effect of a step of the link. -/
inductive Effect (l : Link) : LinkEvent → Link → Prop
  | own {s : Side} {e : Event} {y : Device} (he : e.ofEther = false)
      (hy : Device.step (l.device s) e = some y) : Effect l (.own s e)
        ⟨Function.update l.device s y, Function.update l.air s (onAir (l.device s) e y (l.air s))⟩
  | lost {s : Side} {p : List UInt8} {x : Device} (hp : l.air s = some p)
      (hx : Device.step (l.device s) (.env .packetSent) = some x) : Effect l (.carry s false)
        ⟨Function.update l.device s x, Function.update l.air s none⟩
  | heard {s : Side} {p : List UInt8} {x y : Device} (hp : l.air s = some p)
      (hx : Device.step (l.device s) (.env .packetSent) = some x)
      (hy : Device.step (l.device s.other) (.env (.payload p)) = some y) :
      Effect l (.carry s true) ⟨Function.update (Function.update l.device s x) s.other y,
        Function.update l.air s none⟩

theorem step_effect {l l' : Link} {e : LinkEvent} (h : l.step e = some l') : Effect l e l' := by
  cases e with
  | own s e =>
    simp only [step] at h
    split_ifs at h with he
    cases hy : Device.step (l.device s) e with
    | none => simp [hy] at h
    | some y =>
      simp only [hy, Option.some.injEq] at h
      exact h ▸ .own (by simpa using he) hy
  | carry s heard =>
    cases hp : l.air s with
    | none => simp [step, hp] at h
    | some p =>
      cases hx : Device.step (l.device s) (.env .packetSent) with
      | none => simp [step, hp, hx] at h
      | some x =>
        cases heard with
        | false =>
          simp only [step, hp, hx, Bool.false_eq_true, if_false, Option.some.injEq] at h
          exact h ▸ .lost hp hx
        | true =>
          cases hy : Device.step (l.device s.other) (.env (.payload p)) with
          | none => simp [step, hp, hx, hy] at h
          | some y =>
            simp only [step, hp, hx, hy, if_true, Option.some.injEq] at h
            exact h ▸ .heard hp hx hy

/-- A step of the link is one step of each device that takes part in it. -/
theorem step_device {l l' : Link} {e : LinkEvent} (h : l.step e = some l') (t : Side) :
    run Device.step (l.device t) (l.events t e) = some (l'.device t) := by
  cases step_effect h with
  | @own s e y _ hy =>
    by_cases hs : s = t
    · subst hs
      simpa [events, run_singleton] using hy
    · simp [events, hs, Function.update_of_ne (Ne.symm hs)]
  | @lost s p x hp hx =>
    by_cases hs : s = t
    · subst hs
      simpa [events, run_singleton] using hx
    · simp [events, hs, Function.update_of_ne (Ne.symm hs)]
  | @heard s p x y hp hx hy =>
    by_cases hs : s = t
    · subst hs
      simpa [events, run_singleton, Function.update_of_ne s.other_ne.symm] using hx
    · obtain rfl := Side.eq_other_of_ne (Ne.symm hs)
      simpa [events, run_singleton, hs, hp] using hy

/-- Every event of side `t` meets `P`. -/
def Meets (P : Device → Event → Prop) (t : Side) (l : Link) (e : LinkEvent) : Prop :=
  ∀ f ∈ l.events t e, P (l.device t) f

theorem events_length (l : Link) (t : Side) (e : LinkEvent) :
    l.events t e = [] ∨ ∃ f, l.events t e = [f] := by
  cases e with
  | own s e => by_cases hs : s = t <;> simp [events, hs]
  | carry s heard =>
    by_cases hs : s = t
    · simp [events, hs]
    · cases heard <;> cases hp : l.air s <;> simp [events, hs, hp]

/-- What one step of a device keeps, the link keeps on that side. -/
theorem step_invariant {P : Device → Event → Prop} (Inv : Device → Prop) {t : Side}
    (hstep : ∀ x f y, Inv x → P x f → Device.step x f = some y → Inv y) {l l' : Link}
    {e : LinkEvent} (hi : Inv (l.device t)) (hm : l.Meets P t e) (h : l.step e = some l') :
    Inv (l'.device t) := by
  have hr := step_device h t
  rcases l.events_length t e with hf | ⟨f, hf⟩
  · rw [hf] at hr
    exact Option.some.inj hr ▸ hi
  · rw [hf, run_singleton] at hr
    exact hstep _ f _ hi (hm f (by simp [hf])) hr

/-- What `s` has put on the air has reached the other side, or has not ended yet, or was
lost: in order and at most once. -/
def Carried (l : Link) (s : Side) : Prop :=
  ((l.device s.other).2.receive.received ++ (l.air s).toList).Sublist (l.device s).2.air.aired

/-- The payload this event brings. -/
def hears : Event → Option (List UInt8)
  | .env (.payload p) => some p
  | _ => none

theorem hears_of_not_ofEther {e : Event} (he : e.ofEther = false) : hears e = none := by
  cases e with
  | main => rfl
  | env f => cases f <;> first | rfl | cases he

theorem received_step {x y : Device} {e : Event} (h : Device.step x e = some y) :
    y.2.receive.received = x.2.receive.received ++ (hears e).toList := by
  obtain ⟨rc, rfl, rfl⟩ | ⟨f, m, rfl, _, rfl⟩ := tracked_step_cases h
  · cases hpc : x.1.pc <;>
      simp only [DeviceLog.record, ReceiveLog.record, ReceiveLog.recordMain, hpc, hears,
        Option.toList_none, List.append_nil]
    split_ifs <;> rfl
  · cases f <;> simp [DeviceLog.record, ReceiveLog.record, ReceiveLog.recordEnv, hears]

/-- Whatever is on the air afterwards, it is what was there or what has just started. -/
theorem onAir_sublist {x y : Device} {e : Event} {p : Option (List UInt8)}
    {received aired : List (List UInt8)} (h : (received ++ p.toList).Sublist aired) :
    (received ++ (onAir x e y p).toList).Sublist (aired ++ (airs x.1 e).toList) := by
  have hr : received.Sublist aired := (List.sublist_append_left _ _).trans h
  simp only [onAir]
  split_ifs
  · cases ha : airs x.1 e with
    | none => simpa using h
    | some buf => exact hr.append (List.Sublist.refl _)
  · simpa using hr.trans (List.sublist_append_left _ _)

theorem Carried.step {l l' : Link} {e : LinkEvent} {s : Side} (hc : l.Carried s)
    (h : l.step e = some l') : l'.Carried s := by
  cases step_effect h with
  | @own t e y he hy =>
    have hr := received_step hy
    have ha := Device.aired_step hy
    simp only [hears_of_not_ofEther he, Option.toList_none, List.append_nil] at hr
    by_cases hs : t = s
    · subst hs
      simpa [Carried, Function.update_of_ne t.other_ne, ha] using onAir_sublist hc
    · obtain rfl := Side.eq_other_of_ne hs
      simpa [Carried, Function.update_of_ne (Ne.symm hs), hr] using hc
  | @lost t p x hp hx =>
    have hr := received_step hx
    have ha := Device.aired_step hx
    simp only [airs, hears, Option.toList_none, List.append_nil] at ha hr
    by_cases hs : t = s
    · subst hs
      simpa [Carried, Function.update_of_ne t.other_ne, ha] using
        (List.sublist_append_left _ _).trans hc
    · obtain rfl := Side.eq_other_of_ne hs
      simpa [Carried, Function.update_of_ne (Ne.symm hs), hr] using hc
  | @heard t p x y hp hx hy =>
    have hr := received_step hx
    have ha := Device.aired_step hx
    have hr' := received_step hy
    have ha' := Device.aired_step hy
    simp only [airs, hears, Option.toList_none, List.append_nil] at ha hr ha' hr'
    by_cases hs : t = s
    · subst hs
      simpa [Carried, Function.update_of_ne t.other_ne.symm, ha, hr', hp] using hc
    · obtain rfl := Side.eq_other_of_ne hs
      simp only [Side.other_other] at hr' ha'
      simpa [Carried, Function.update_of_ne hs, Function.update_of_ne (Ne.symm hs), hr, ha',
        Side.other_other] using hc

theorem carried_boot (s : Side) : boot.Carried s := List.Sublist.refl _

/-- Each device's buffers are full, and its staged chunks are payloads of its radio. -/
structure Sides (l : Link) : Prop where
  full : ∀ s, FullChunks (l.device s)
  staging : ∀ s, PayloadStaging.Staging (l.device s).1.pc (l.device s).1.m (l.device s).2.receive
  carried : ∀ s, l.Carried s

theorem Sides.step {l l' : Link} {e : LinkEvent} (hs : l.Sides) (h : l.step e = some l') :
    l'.Sides where
  full s := step_invariant (P := fun _ _ => True) FullChunks (fun _ _ _ hi _ ht => hi.step ht)
    (hs.full s) (fun _ _ => trivial) h
  staging s := step_invariant (P := fun _ _ => True)
    (fun x => PayloadStaging.Staging x.1.pc x.1.m x.2.receive)
    (fun _ _ _ hi _ ht => hi.step (Device.receiveStep ht)) (hs.staging s) (fun _ _ => trivial) h
  carried s := (hs.carried s).step h

theorem sides_boot : boot.Sides :=
  ⟨fun _ => fullChunks_boot, fun _ => PayloadStaging.staging_boot, carried_boot⟩

theorem Sides.received {l : Link} (hs : l.Sides) (s : Side) :
    (l.device s.other).2.receive.received.Sublist (l.device s).2.air.aired :=
  (List.sublist_append_left _ _).trans (hs.carried s)

theorem Sides.staged {l : Link} (hs : l.Sides) (s : Side) :
    List.SublistForall₂ PayloadStaging.Holds (l.device s.other).2.receive.staged
      (l.device s).2.air.aired := by
  obtain ⟨ps, hf, hp⟩ := List.sublistForall₂_iff.mp (hs.staging s.other).subsequence
  exact List.sublistForall₂_iff.mpr ⟨ps, hf, hp.trans (hs.received s)⟩

/-- In every run of two devices, whatever the buttons, the radio calls and the ether do: what a
radio receives is a subsequence of what the other one was told to send, every such packet
has sixty bytes, and the chunks queued for the speaker are a subsequence of those packets, but
for the bytes of those whose slot the speaker handler cleared while it was copied. -/
theorem packets_come_from_the_other {es : List LinkEvent} {l : Link}
    (hr : run step boot es = some l) (s : Side) :
    (l.device s.other).2.receive.received.Sublist (l.device s).2.air.aired ∧
      (∀ p ∈ (l.device s).2.air.aired, p.length = chunkSize) ∧
      List.SublistForall₂ PayloadStaging.Holds (l.device s.other).2.receive.staged
        (l.device s).2.air.aired := by
  have h : l.Sides := run_invariant Sides (fun _ _ _ hi ht => hi.step ht) sides_boot hr
  exact ⟨h.received s, (h.full s).aired, h.staged s⟩

/-- The left side sends one chunk, the right side hears it and plays it. -/
def oneWay : List LinkEvent :=
  (mains 6).map (.own .right) ++
    (mains 6 ++ button 100000 ++ samples 60 ++ [Event.env .micIrq] ++ mains 68).map (.own .left) ++
    [.carry .left true] ++
    (Event.env (.radioIrq .payloadReady) :: mains 80 ++ plays 60).map (.own .right)

def oneWayEnd : Link := ends step boot oneWay (by decide +kernel)

theorem packets_come_from_the_other_once :
    (oneWayEnd.device (Side.other .left)).2.receive.received.Sublist
      (oneWayEnd.device .left).2.air.aired :=
  (packets_come_from_the_other (l := oneWayEnd) (run_ends _) .left).1

end Link

end WalkieTalkie
