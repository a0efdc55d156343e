import WalkieTalkie.RadioSide

/-!
# The debounce test against the true time

`timerawl` is the low word of a microsecond counter that never stops. The device runs
under a clock: an entry of the button handler reads the low word of the time at which it
happens, and the true time of the last accepted entry is kept beside the state.
-/
namespace WalkieTalkie.DebounceClock
open PartialRuns

/-- The period of `timerawl` in microseconds. -/
abbrev timerPeriod : ℕ := 2 ^ 32

def timerawl (t : ℕ) : UInt32 := .ofNat t

/-- The device, the true time, and that of the last accepted entry, 0 if there was none. -/
structure Clocked where
  s : Cfg Pc
  now : ℕ
  last : ℕ

inductive ClockEvent
  /-- Time passes. -/
  | tick (us : ℕ)
  /-- `pb_isr_handler` is entered. -/
  | enter
  /-- Anything else happens to the device. -/
  | device (e : Event)

def clockedStep (c : Clocked) : ClockEvent → Option Clocked
  | .tick us => some { c with now := c.now + us }
  | .enter => (step c.s (.env (.pbIrq (timerawl c.now)))).map fun s =>
    { c with s := s, last := if c.s.m.accepts (timerawl c.now) then c.now else c.last }
  | .device e => if ButtonFree e then (step c.s e).map fun s => { c with s := s } else none

/-- `main` reaches `for(;;)` at time `t`. -/
def clockBoot (t : ℕ) : Clocked := ⟨boot, t, 0⟩

/-- An entry with an event latched is accepted exactly when fifty milliseconds of true
time have passed since the last accepted one. -/
def Exact (c : Clocked) : ClockEvent → Prop
  | .enter => c.s.m.pin.events.isEmpty = false →
      (c.s.m.accepts (timerawl c.now) = true ↔ 50000 ≤ c.now - c.last)
  | _ => True

/-- The timer has not wrapped since the last accepted entry, or it has and its low word
tells the same: behind the old one with the time past, or fifty milliseconds ahead of it. -/
def WrapAgrees (c : Clocked) : ClockEvent → Prop
  | .enter => c.s.m.pin.events.isEmpty = false →
      c.now / timerPeriod = c.last / timerPeriod ∨
        (if c.now % timerPeriod < c.last % timerPeriod then 50000 ≤ c.now - c.last
          else c.last % timerPeriod + 50000 ≤ c.now % timerPeriod)
  | _ => True

/-- The handler remembers the low word of the last accepted time. -/
structure Remembers (c : Clocked) : Prop where
  low : c.s.m.lastButtonIrqUs = (timerawl c.last).toUInt64
  past : c.last ≤ c.now

theorem toNat_timerawl (t : ℕ) : (timerawl t).toUInt64.toNat = t % timerPeriod := by
  simp [timerawl, timerPeriod]

/-- The 64-bit difference is small only if the new low word is not behind the old one. -/
theorem debounced_iff {m : Machine} {a : ℕ} (h : m.lastButtonIrqUs = (timerawl a).toUInt64)
    (t : ℕ) : m.debounced (timerawl t) = true ↔
      a % timerPeriod ≤ t % timerPeriod ∧ t % timerPeriod < a % timerPeriod + 50000 := by
  have ha : a % timerPeriod < timerPeriod := Nat.mod_lt _ (by decide)
  have ht : t % timerPeriod < timerPeriod := Nat.mod_lt _ (by decide)
  simp only [Machine.debounced, decide_eq_true_eq, UInt64.lt_iff_toNat_lt, UInt64.toNat_sub, h,
    toNat_timerawl, Machine.debounceUs]
  simp only [timerPeriod] at ha ht ⊢
  simp
  omega

theorem pbIsrHandler_lastButtonIrqUs (m : Machine) (t : UInt32) :
    (m.pbIsrHandler t).lastButtonIrqUs =
      if m.accepts t then t.toUInt64 else m.lastButtonIrqUs := by
  cases ha : m.accepts t with
  | false => simp [Machine.pbIsrHandler_rejected ha]
  | true =>
    rw [Machine.pbIsrHandler_accepted ha]
    cases hr : m.pin.rise <;> cases hf : m.pin.fall <;>
      simp [Machine.pbBranches, Machine.pbRise, Machine.pbFall, Pin.events, hr, hf]

/-- Only the button handler writes the remembered time. -/
theorem envStep_lastButtonIrqUs {m m' : Machine} {e : Env} (hb : ButtonFree (.env e))
    (h : envStep m e = some m') : m'.lastButtonIrqUs = m.lastButtonIrqUs := by
  cases e with
  | edge => cases h; rfl
  | pbIrq t => cases hb
  | sample | micIrq | spkTransfer =>
    simp only [envStep, Machine.micSample, Machine.spkTransfer] at h
    split_ifs at h
    cases h
    rfl
  | spkIrq =>
    simp only [envStep] at h
    split_ifs at h
    cases h
    obtain ⟨_, _, _, _, _, hf⟩ := m.dmaReadIrqHandler_frame
    rw [hf]
  | payload | packetSent | radioIrq | spurious =>
    obtain ⟨_, _, _, rfl⟩ := envStep_ofRadio rfl h
    rfl

theorem step_lastButtonIrqUs {s t : Cfg Pc} {e : Event} (hb : ButtonFree e)
    (h : step s e = some t) : t.m.lastButtonIrqUs = s.m.lastButtonIrqUs := by
  obtain ⟨rc, rfl, rfl⟩ | ⟨f, m, rfl, hf, rfl⟩ := step_cases h
  · cases s.pc <;> rfl
  · exact envStep_lastButtonIrqUs hb hf

theorem remembers_boot (t : ℕ) : Remembers (clockBoot t) := ⟨rfl, Nat.zero_le t⟩

theorem Remembers.step {c d : Clocked} {e : ClockEvent} (h : Remembers c)
    (hd : clockedStep c e = some d) : Remembers d := by
  cases e with
  | tick us =>
    cases hd
    exact ⟨h.low, Nat.le_add_right_of_le h.past⟩
  | enter =>
    simp only [clockedStep, WalkieTalkie.step, envStep, Option.map_some, Option.some.injEq] at hd
    subst hd
    refine ⟨?_, ?_⟩
    · rw [pbIsrHandler_lastButtonIrqUs]
      split_ifs
      · rfl
      · exact h.low
    · split_ifs
      · exact Nat.le_refl _
      · exact h.past
  | device e =>
    simp only [clockedStep] at hd
    split_ifs at hd with hb
    obtain ⟨s, hs, rfl⟩ := Option.map_eq_some_iff.mp hd
    exact ⟨(step_lastButtonIrqUs hb hs).trans h.low, h.past⟩

/-- With both times split into wraps and low word. -/
theorem exact_iff_wrapAgrees {c : Clocked} (h : Remembers c) (e : ClockEvent) :
    Exact c e ↔ WrapAgrees c e := by
  cases e with
  | tick | device => rfl
  | enter =>
    refine forall_congr' fun he => ?_
    have hd := debounced_iff h.low c.now
    have hp := h.past
    have ha : c.s.m.accepts (timerawl c.now) = true ↔
        ¬ (c.last % timerPeriod ≤ c.now % timerPeriod ∧
          c.now % timerPeriod < c.last % timerPeriod + 50000) := by
      rw [← hd]
      simp [Machine.accepts, he]
    rw [ha]
    simp only [timerPeriod]
    split_ifs <;> omega

/-- The debounce test of a run is exact at every entry exactly when no entry is confused by
a wrap of the timer. -/
theorem debounce_exact_iff (t : ℕ) (es : List ClockEvent) :
    Along clockedStep Exact (clockBoot t) es ↔ Along clockedStep WrapAgrees (clockBoot t) es :=
  along_iff_of_invariant Remembers (fun _ _ _ hi hd => hi.step hd)
    (fun _ e hi => exact_iff_wrapAgrees hi e) (remembers_boot t) es

instance (c : Clocked) (e : ClockEvent) : Decidable (Exact c e) := by
  induction e using ClockEvent.casesOn <;> unfold Exact <;> infer_instance

/-- An entry just before a wrap, and one six microseconds later. -/
def acrossWrap : List ClockEvent :=
  [.device (.env .edge), .tick (timerPeriod - 1), .enter, .device (.env .edge), .tick 6, .enter]

/-- The first entry comes a whole period after the start. -/
def afterPeriod : List ClockEvent := [.device (.env .edge), .tick (timerPeriod + 10), .enter]

/-- The early entry is accepted and the late one is rejected. -/
theorem debounce_confused_by_wrap : ¬ Along clockedStep Exact (clockBoot 0) acrossWrap ∧
    ¬ Along clockedStep Exact (clockBoot 0) afterPeriod :=
  ⟨by decide +kernel, by decide +kernel⟩

end WalkieTalkie.DebounceClock
