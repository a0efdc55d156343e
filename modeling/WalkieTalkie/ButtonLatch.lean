import WalkieTalkie.RadioSide

/-!
# The talk state and the button

Here the button handler is not atomic: edges may be latched between the reading of
the mask, its first branch and its second. The branches run in the order RISE, FALL
whatever the order of the edges was.
-/
namespace WalkieTalkie.ButtonLatch
open PartialRuns

/-- Where the handler is, with the mask it has read. -/
inductive Stage | idle | rise (e : Events) | fall (e : Events) deriving DecidableEq, Repr

structure Latched where
  m : Machine
  stage : Stage

inductive Move
  | edge
  | enter (timerawl : UInt32)
  | proceed
  deriving Repr

/-- An entry needs a latched event. A rejected one returns at once and acknowledges nothing. -/
def move (c : Latched) : Move → Option Latched
  | .edge => some { c with m := { c.m with pin := c.m.pin.edge } }
  | .enter t => match c.stage with
    | .idle =>
      if c.m.pin.events.isEmpty then none
      else if c.m.debounced t then some c
      else some ⟨{ c.m with lastButtonIrqUs := t.toUInt64 }, .rise c.m.pin.events⟩
    | _ => none
  | .proceed => match c.stage with
    | .idle => none
    | .rise e => some ⟨if e.rise then c.m.pbRise e else c.m, .fall e⟩
    | .fall e => some ⟨if e.fall then c.m.pbFall e else c.m, .idle⟩

/-- Without an edge in between, an entry does what the handler of the device does. -/
theorem run_entry_eq_pbIsrHandler (m : Machine) (t : UInt32)
    (he : m.pin.events.isEmpty = false) (hd : m.debounced t = false) :
    run move ⟨m, .idle⟩ [.enter t, .proceed, .proceed] = some ⟨m.pbIsrHandler t, .idle⟩ := by
  simp [run, move, Machine.pbIsrHandler, Machine.pbBranches, he, hd]

/-- With nothing latched and the handler not running, the device talks exactly when
the button is pressed. -/
def Settled (c : Latched) : Prop :=
  c.stage = .idle → c.m.pin.events.isEmpty = true →
    ((c.m.state = .tx ∧ c.m.txEnable = true) ↔ c.m.pin.level = true)

/-- When an accepted entry returns with nothing latched, the button is released if its
mask carried FALL, and pressed if it carried RISE alone. -/
def ReturnFits (c : Latched) : Move → Prop
  | .proceed => match c.stage with
    | .fall e =>
      (if e.fall then c.m.pin.acknowledge e else c.m.pin).events.isEmpty = true →
        (c.m.pin.level = true ↔ e.fall = false)
    | _ => True
  | _ => True

/-- A running handler has a mask with an event in it, and talks once RISE is done. -/
def Masked (c : Latched) : Prop :=
  match c.stage with
  | .idle => True
  | .rise e => e.isEmpty = false
  | .fall e => e.isEmpty = false ∧ (e.rise = true → c.m.state = .tx ∧ c.m.txEnable = true)

theorem masked_step {c d : Latched} {v : Move} (h : Masked c) (hd : move c v = some d) :
    Masked d := by
  cases v with
  | edge =>
    cases hd
    exact h
  | enter t =>
    cases hs : c.stage with
    | idle =>
      simp only [move, hs] at hd
      split_ifs at hd with he hb
      · cases hd; exact h
      · cases hd; simpa [Masked] using he
    | rise e | fall e => simp [move, hs] at hd
  | proceed =>
    cases hs : c.stage with
    | idle => simp [move, hs] at hd
    | rise e =>
      simp only [move, hs, Option.some.injEq] at hd
      subst hd
      simp only [Masked, hs] at h ⊢
      refine ⟨h, fun hr => ?_⟩
      simp [hr, Machine.pbRise]
    | fall e =>
      simp only [move, hs, Option.some.injEq] at hd
      subst hd
      trivial

@[simp] theorem acknowledge_level (p : Pin) (e : Events) : (p.acknowledge e).level = p.level := rfl

/-- One step from a settled state is settled exactly when it is not an unfit return. -/
theorem settled_step_iff {c d : Latched} {v : Move} (hm : Masked c) (h : Settled c)
    (hd : move c v = some d) : Settled d ↔ ReturnFits c v := by
  cases v with
  | edge =>
    cases hd
    refine iff_of_true ?_ trivial
    intro _ he
    cases hl : c.m.pin.level <;> simp [Pin.edge, Pin.events, Events.isEmpty, hl] at he
  | enter t =>
    refine iff_of_true ?_ trivial
    cases hs : c.stage with
    | idle =>
      simp only [move, hs] at hd
      split_ifs at hd with he hb
      · cases hd; exact h
      · cases hd; intro hi; cases hi
    | rise e | fall e => simp [move, hs] at hd
  | proceed =>
    cases hs : c.stage with
    | idle => simp [move, hs] at hd
    | rise e =>
      simp only [move, hs, Option.some.injEq] at hd
      subst hd
      refine iff_of_true (fun hi => by cases hi) (by simp [ReturnFits, hs])
    | fall e =>
      simp only [move, hs, Option.some.injEq] at hd
      subst hd
      simp only [Masked, hs] at hm
      simp only [Settled, ReturnFits, hs, true_imp_iff]
      cases hf : e.fall with
      | true => simp [Machine.pbFall]
      | false =>
        have hr : e.rise = true := by simpa [Events.isEmpty, hf] using hm.1
        have ht := hm.2 hr
        simp [ht.1, ht.2]

def boot : Latched := ⟨bootMachine, .idle⟩

theorem masked_boot : Masked boot := trivial

theorem settled_boot : Settled boot := fun _ _ => by decide

theorem returnFits_of_refused {c : Latched} {v : Move} (h : move c v = none) :
    ReturnFits c v := by
  cases v with
  | proceed => cases hs : c.stage <;> simp_all [move, ReturnFits]
  | edge | enter => trivial

/-- The talk state follows the button in every state of a run exactly when every return
of the run fits. -/
theorem talk_follows_button_iff (vs : List Move) :
    Always move Settled boot vs ↔ Along move ReturnFits boot vs :=
  always_iff_along Masked Settled (fun _ _ _ => masked_step) (fun _ _ _ => settled_step_iff)
    (fun _ _ => returnFits_of_refused) masked_boot settled_boot vs

/-- Press, release and press again before the handler is entered: one mask with both events. -/
def chatter : List Move := [.edge, .edge, .edge, .enter 100000, .proceed, .proceed]

theorem talk_lost_on_chatter : ∃ c, run move boot chatter = some c ∧ c.stage = .idle ∧
    c.m.pin.events.isEmpty = true ∧
    ¬ ((c.m.state = .tx ∧ c.m.txEnable = true) ↔ c.m.pin.level = true) :=
  exists_of_run_any (by decide +kernel)

/-! ## The atomic handler of the device -/

theorem mainStep_button (rc : Int) (m : Machine) (pc : Pc) :
    (mainStep rc m pc).2.pin = m.pin ∧ (mainStep rc m pc).2.state = m.state ∧
      (mainStep rc m pc).2.txEnable = m.txEnable := by
  cases pc <;> exact ⟨rfl, rfl, rfl⟩

/-- What one event of the device can do to the pin and to the talk state. -/
inductive ButtonEffect (m : Machine) : Event → Machine → Prop
  | other {e : Event} {m' : Machine} (hp : m'.pin = m.pin) (hs : m'.state = m.state)
      (ht : m'.txEnable = m.txEnable)
      (hn : ∀ t, e = .env (.pbIrq t) → m.accepts t = false) : ButtonEffect m e m'
  | edge {m' : Machine} (hp : m'.pin = m.pin.edge) (hs : m'.state = m.state)
      (ht : m'.txEnable = m.txEnable) : ButtonEffect m (.env .edge) m'
  | entry {t : UInt32} {m' : Machine} (ha : m.accepts t = true)
      (hp : m'.pin = ⟨m.pin.level, false, false⟩)
      (hs : m'.state = if m.pin.fall then .rx else .tx)
      (ht : m'.txEnable = !m.pin.fall) : ButtonEffect m (.env (.pbIrq t)) m'

theorem pbIsrHandler_buttonEffect (m : Machine) (t : UInt32) :
    ButtonEffect m (.env (.pbIrq t)) (m.pbIsrHandler t) := by
  cases ha : m.accepts t with
  | false =>
    rw [Machine.pbIsrHandler_rejected ha]
    refine .other rfl rfl rfl fun u hu => ?_
    cases hu
    exact ha
  | true =>
    rw [Machine.pbIsrHandler_accepted ha]
    refine .entry ha ?_ ?_ ?_ <;> cases hr : m.pin.rise <;> cases hf : m.pin.fall <;>
      simp_all [Machine.accepts, Pin.events, Events.isEmpty, Machine.pbBranches, Machine.pbRise,
        Machine.pbFall, Pin.acknowledge]

theorem envStep_buttonEffect {m m' : Machine} {e : Env} (h : envStep m e = some m') :
    ButtonEffect m (.env e) m' := by
  cases e with
  | edge => cases h; exact .edge rfl rfl rfl
  | pbIrq t => cases h; exact pbIsrHandler_buttonEffect m t
  | spkIrq =>
    simp only [envStep] at h
    split_ifs at h
    cases h
    obtain ⟨_, _, _, _, _, hf⟩ := m.dmaReadIrqHandler_frame
    rw [hf]
    exact .other rfl rfl rfl fun _ hu => by cases hu
  | payload | packetSent | radioIrq | spurious =>
    obtain ⟨_, _, _, rfl⟩ := envStep_ofRadio rfl h
    exact .other rfl rfl rfl fun _ hu => by cases hu
  | sample | micIrq | spkTransfer =>
    simp only [envStep, Machine.micSample, Machine.spkTransfer] at h
    split_ifs at h
    cases h
    exact .other rfl rfl rfl fun _ hu => by cases hu

theorem step_buttonEffect {s t : Cfg Pc} {e : Event} (h : WalkieTalkie.step s e = some t) :
    ButtonEffect s.m e t.m := by
  obtain ⟨rc, rfl, rfl⟩ | ⟨f, m, rfl, hf, rfl⟩ := step_cases h
  · obtain ⟨hp, hs, ht⟩ := mainStep_button rc s.m s.pc
    exact .other hp hs ht fun _ hu => by cases hu
  · exact envStep_buttonEffect hf

/-- A single latched edge tells the level. -/
def SingleEdge (p : Pin) : Prop :=
  (p.rise = true → p.fall = false → p.level = true) ∧
    (p.fall = true → p.rise = false → p.level = false)

theorem SingleEdge.edge {p : Pin} (h : SingleEdge p) : SingleEdge p.edge := by
  obtain ⟨level, rise, fall⟩ := p
  cases level <;> cases rise <;> cases fall <;> simp_all [SingleEdge, Pin.edge]

theorem SingleEdge.effect {m m' : Machine} {e : Event} (h : SingleEdge m.pin)
    (he : ButtonEffect m e m') : SingleEdge m'.pin := by
  cases he with
  | other hp => rwa [hp]
  | edge hp => rw [hp]; exact h.edge
  | entry _ hp => simp [hp, SingleEdge]

/-- The law of the button for the device, whose handler is atomic. -/
def TalkFollows (m : Machine) : Prop :=
  m.pin.events.isEmpty = true → ((m.state = .tx ∧ m.txEnable = true) ↔ m.pin.level = true)

/-- No accepted entry finds both edges latched and the button pressed. -/
def NoChatter (s : Cfg Pc) : Event → Prop
  | .env (.pbIrq t) =>
    s.m.accepts t = true → ¬ (s.m.pin.rise = true ∧ s.m.pin.fall = true ∧ s.m.pin.level = true)
  | _ => True

theorem talkFollows_effect_iff {s : Cfg Pc} {m' : Machine} {e : Event} (hs : SingleEdge s.m.pin)
    (h : TalkFollows s.m) (he : ButtonEffect s.m e m') : TalkFollows m' ↔ NoChatter s e := by
  cases he with
  | other hp hst ht hn =>
    refine iff_of_true (by simpa [TalkFollows, hp, hst, ht] using h) ?_
    unfold NoChatter
    split
    · exact fun ha => by cases (hn _ rfl).symm.trans ha
    · trivial
  | edge hp =>
    refine iff_of_true (fun hi => ?_) trivial
    cases hl : s.m.pin.level <;> simp [hp, Pin.edge, Pin.events, Events.isEmpty, hl] at hi
  | entry ha hp hst ht =>
    obtain ⟨hr, hf⟩ := hs
    simp only [Machine.accepts, Pin.events, Events.isEmpty, Bool.and_eq_true] at ha
    simp only [TalkFollows, NoChatter, hp, hst, ht, Pin.events, Events.isEmpty]
    cases hl : s.m.pin.level <;> cases hrise : s.m.pin.rise <;> cases hfall : s.m.pin.fall <;>
      simp_all [Machine.accepts, Pin.events, Events.isEmpty]

theorem noChatter_of_refused {s : Cfg Pc} {e : Event} (h : WalkieTalkie.step s e = none) :
    NoChatter s e := by
  cases e with
  | main => trivial
  | env e => cases e <;> trivial

/-- With the atomic handler, whatever else the device does: the talk state follows the
button throughout a run exactly when no accepted entry of it is such a chatter. -/
theorem talkFollows_iff_noChatter {s : Cfg Pc} (hs : SingleEdge s.m.pin) (h : TalkFollows s.m)
    (es : List Event) :
    Always WalkieTalkie.step (fun s => TalkFollows s.m) s es ↔
      Along WalkieTalkie.step NoChatter s es :=
  always_iff_along (fun s => SingleEdge s.m.pin) (fun s => TalkFollows s.m)
    (fun _ _ _ hi ht => hi.effect (step_buttonEffect ht))
    (fun _ _ _ hi hq ht => talkFollows_effect_iff hi hq (step_buttonEffect ht))
    (fun _ _ => noChatter_of_refused) hs h es

end WalkieTalkie.ButtonLatch
