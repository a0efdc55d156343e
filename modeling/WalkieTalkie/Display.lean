import WalkieTalkie.PixelWindow
import WalkieTalkie.SharedState
import Mathlib.Data.List.Flatten

/-!
# The state display of `TFT.c`

The driver is the sequence of what it does to the wires of the ILI9341: chip select,
data/command, reset, the bytes of the SPI bus, and its waits. The panel executes the
commands sent to it. A pixel holds the bytes it was written with, two or three of them as
the pixel format says, and a panel that is still busy with a reset takes no byte.
-/
namespace WalkieTalkie.Display

inductive Wire
  | cs (v : Bool)
  | dc (v : Bool)
  | rst (v : Bool)
  | byte (v : UInt8)
  | sleepMs (n : ℕ)

abbrev swReset : UInt8 := 0x01
abbrev slpOut : UInt8 := 0x11
abbrev dispOn : UInt8 := 0x29
abbrev colAddr : UInt8 := 0x2A
abbrev rowAddr : UInt8 := 0x2B
abbrev ramWrite : UInt8 := 0x2C
abbrev colMod : UInt8 := 0x3A

abbrev colorGreen : UInt16 := 0x07E0
abbrev colorRed : UInt16 := 0x001F

def dispCmd (cmd : UInt8) : List Wire := [.dc false, .cs false, .byte cmd, .cs true]

def dispData (buf : List UInt8) : List Wire :=
  .dc true :: .cs false :: (buf.map .byte ++ [.cs true])

/-- The start of `disp_init`, with the pins low as `gpio_init` leaves them. -/
def hardReset : List Wire :=
  [.cs false, .dc false, .rst false, .cs true, .dc true, .rst false, .sleepMs 10, .rst true,
    .sleepMs 120]

def dispInit : List Wire :=
  hardReset ++ dispCmd swReset ++ [.sleepMs 150] ++ dispCmd slpOut ++ [.sleepMs 150] ++
    dispCmd colMod ++ dispData [0x55] ++ dispCmd dispOn

def pixels (hi lo : UInt8) : ℕ → List Wire
  | 0 => []
  | n + 1 => .byte hi :: .byte lo :: pixels hi lo n

def dispFill (color : UInt16) : List Wire :=
  dispCmd colAddr ++ dispData [0x00, 0x00, 0x00, 0xEF] ++
    dispCmd rowAddr ++ dispData [0x00, 0x00, 0x01, 0x3F] ++
    dispCmd ramWrite ++ [.dc true, .cs false] ++
    pixels (color >>> 8).toUInt8 (color &&& 0xFF).toUInt8 (240 * 320) ++ [.cs true]

def stateColor : LoraState → UInt16
  | .tx => colorGreen
  | .rx => colorRed

def dispShowState (state : LoraState) : List Wire := dispFill (stateColor state)

/-- The two bytes of a 16-bit parameter or pixel. -/
def word (hi lo : UInt8) : ℕ := hi.toNat * 256 + lo.toNat

structure Panel where
  cs : Bool
  dc : Bool
  rst : Bool
  /-- Milliseconds until the next byte is taken. -/
  busy : ℕ
  cmd : UInt8
  args : List UInt8
  window : PixelWindow
  pointer : ℕ × ℕ
  colmod : UInt8
  asleep : Bool
  on : Bool
  mem : ℕ × ℕ → List UInt8

namespace Panel

/-- The registers after a reset of either kind, which leaves the panel dark and asleep. -/
def reset (p : Panel) : Panel :=
  { p with
    busy := 120, cmd := 0, args := [], window := ⟨0, 239, 0, 319⟩, pointer := (0, 0)
    colmod := 0x66, asleep := true, on := false }

def pixelSize (p : Panel) : ℕ := if p.colmod &&& 0x07 = 0x05 then 2 else 3

def command (p : Panel) (v : UInt8) : Panel :=
  if v = swReset then p.reset
  else if v = slpOut then { p with cmd := v, args := [], asleep := false, busy := 5 }
  else if v = dispOn then { p with cmd := v, args := [], on := true }
  else if v = ramWrite then
    { p with cmd := v, args := [], pointer := (p.window.x₀, p.window.y₀) }
  else { p with cmd := v, args := [] }

def setColumns (p : Panel) : List UInt8 → Panel
  | [a, b, c, d] => { p with window := { p.window with x₀ := word a b, x₁ := word c d } }
  | _ => p

def setRows (p : Panel) : List UInt8 → Panel
  | [a, b, c, d] => { p with window := { p.window with y₀ := word a b, y₁ := word c d } }
  | _ => p

def setFormat (p : Panel) : List UInt8 → Panel
  | [v] => { p with colmod := v }
  | _ => p

def setPixel (p : Panel) (bytes : List UInt8) : Panel :=
  if bytes.length < p.pixelSize then p
  else
    let (pointer, mem) := p.window.write bytes (p.pointer, p.mem)
    { p with args := [], pointer := pointer, mem := mem }

def param (p : Panel) (v : UInt8) : Panel :=
  let args := p.args ++ [v]
  let p := { p with args := args }
  if p.cmd = colAddr then p.setColumns args
  else if p.cmd = rowAddr then p.setRows args
  else if p.cmd = colMod then p.setFormat args
  else if p.cmd = ramWrite then p.setPixel args
  else p

def byte (p : Panel) (v : UInt8) : Panel :=
  if p.cs || !p.rst || p.busy != 0 then p else if p.dc then p.param v else p.command v

def step (p : Panel) : Wire → Panel
  | .cs v => { p with cs := v }
  | .dc v => { p with dc := v }
  | .rst v => if v = p.rst then p else { p.reset with rst := v }
  | .byte v => p.byte v
  | .sleepMs n => { p with busy := p.busy - n }

def run (p : Panel) (ws : List Wire) : Panel := ws.foldl step p

/-- As many pixels of the same bytes. -/
def paint (p : Panel) (bytes : List UInt8) (n : ℕ) : Panel :=
  let (pointer, mem) := (p.window.write bytes)^[n] (p.pointer, p.mem)
  { p with pointer := pointer, mem := mem }

/-- The 16-bit value of a pixel. -/
def color (p : Panel) (c : ℕ × ℕ) : Option ℕ :=
  match p.mem c with
  | [hi, lo] => some (word hi lo)
  | _ => none

/-- The picture is one color from edge to edge. -/
structure Shows (p : Panel) (color : UInt16) : Prop where
  on : p.on = true
  awake : p.asleep = false
  full : ∀ x < 240, ∀ y < 320, p.color (x, y) = some color.toNat

/-- Between two calls of the driver. -/
structure Ready (p : Panel) : Prop where
  cs : p.cs = true
  rst : p.rst = true
  busy : p.busy = 0
  format : p.pixelSize = 2
  on : p.on = true
  awake : p.asleep = false

/-- In the middle of a memory write, at the start of a pixel. -/
structure Filling (p : Panel) : Prop where
  cs : p.cs = false
  dc : p.dc = true
  rst : p.rst = true
  busy : p.busy = 0
  cmd : p.cmd = ramWrite
  args : p.args = []
  format : p.pixelSize = 2

theorem run_append (p : Panel) (ws ws' : List Wire) : p.run (ws ++ ws') = (p.run ws).run ws' :=
  List.foldl_append

@[simp] theorem command_swReset (p : Panel) : p.command swReset = p.reset := rfl

@[simp] theorem command_slpOut (p : Panel) :
    p.command slpOut = { p with cmd := slpOut, args := [], asleep := false, busy := 5 } := rfl

@[simp] theorem command_dispOn (p : Panel) :
    p.command dispOn = { p with cmd := dispOn, args := [], on := true } := rfl

@[simp] theorem command_ramWrite (p : Panel) :
    p.command ramWrite =
      { p with cmd := ramWrite, args := [], pointer := (p.window.x₀, p.window.y₀) } := rfl

/-- The commands that wait for their parameters. -/
@[simp] theorem command_colAddr (p : Panel) :
    p.command colAddr = { p with cmd := colAddr, args := [] } := rfl

@[simp] theorem command_rowAddr (p : Panel) :
    p.command rowAddr = { p with cmd := rowAddr, args := [] } := rfl

@[simp] theorem command_colMod (p : Panel) :
    p.command colMod = { p with cmd := colMod, args := [] } := rfl

theorem param_colAddr {p : Panel} (h : p.cmd = colAddr) (v : UInt8) :
    p.param v = ({ p with args := p.args ++ [v] } : Panel).setColumns (p.args ++ [v]) :=
  if_pos h

theorem param_rowAddr {p : Panel} (h : p.cmd = rowAddr) (v : UInt8) :
    p.param v = ({ p with args := p.args ++ [v] } : Panel).setRows (p.args ++ [v]) := by
  simp [param, h, rowAddr, colAddr]

theorem param_colMod {p : Panel} (h : p.cmd = colMod) (v : UInt8) :
    p.param v = ({ p with args := p.args ++ [v] } : Panel).setFormat (p.args ++ [v]) := by
  simp [param, h, rowAddr, colAddr, colMod]

theorem param_ramWrite {p : Panel} (h : p.cmd = ramWrite) (v : UInt8) :
    p.param v = ({ p with args := p.args ++ [v] } : Panel).setPixel (p.args ++ [v]) := by
  simp [param, h, rowAddr, colAddr, colMod, ramWrite]

end Panel

open Panel

theorem word_bytes (c : UInt16) : word (c >>> 8).toUInt8 (c &&& 0xFF).toUInt8 = c.toNat := by
  have hlt := c.toNat_lt
  have hand : c.toNat &&& 255 = c.toNat % 256 := Nat.and_two_pow_sub_one_eq_mod c.toNat 8
  simp only [word, UInt16.toNat_toUInt8, UInt16.toNat_shiftRight, UInt16.toNat_and,
    UInt16.reduceToNat, Nat.reduceMod, Nat.shiftRight_eq_div_pow, Nat.reducePow, hand]
  omega

theorem run_dispCmd {p : Panel} (hrst : p.rst = true) (hbusy : p.busy = 0) (cmd : UInt8) :
    p.run (dispCmd cmd) =
      { ({ p with dc := false, cs := false } : Panel).command cmd with cs := true } := by
  simp [run, dispCmd, step, byte, hrst, hbusy]

theorem run_reset (p : Panel) :
    p.run hardReset = { p.reset with cs := true, dc := true, rst := true, busy := 0 } := by
  cases hrst : p.rst <;> simp [run, hardReset, step, reset, hrst]

theorem step_byte {p : Panel} (v : UInt8) (hcs : p.cs = false) (hdc : p.dc = true)
    (hrst : p.rst = true) (hbusy : p.busy = 0) : p.step (.byte v) = p.param v := by
  simp [step, byte, hcs, hdc, hrst, hbusy]

theorem run_colMod {p : Panel} (hrst : p.rst = true) (hbusy : p.busy = 0) (v : UInt8) :
    p.run (dispCmd colMod ++ dispData [v]) =
      { p with dc := true, cs := true, cmd := colMod, args := [v], colmod := v } := by
  rw [run_append, run_dispCmd hrst hbusy, command_colMod]
  simp [run, dispData, step, byte, hrst, hbusy, param_colMod, setFormat]

theorem run_colAddr {p : Panel} (hrst : p.rst = true) (hbusy : p.busy = 0) (a b c d : UInt8) :
    p.run (dispCmd colAddr ++ dispData [a, b, c, d]) =
      { p with
        dc := true, cs := true, cmd := colAddr, args := [a, b, c, d]
        window := { p.window with x₀ := word a b, x₁ := word c d } } := by
  rw [run_append, run_dispCmd hrst hbusy, command_colAddr]
  simp [run, dispData, step, byte, hrst, hbusy, param_colAddr, setColumns]

theorem run_rowAddr {p : Panel} (hrst : p.rst = true) (hbusy : p.busy = 0) (a b c d : UInt8) :
    p.run (dispCmd rowAddr ++ dispData [a, b, c, d]) =
      { p with
        dc := true, cs := true, cmd := rowAddr, args := [a, b, c, d]
        window := { p.window with y₀ := word a b, y₁ := word c d } } := by
  rw [run_append, run_dispCmd hrst hbusy, command_rowAddr]
  simp [run, dispData, step, byte, hrst, hbusy, param_rowAddr, setRows]

theorem run_sleepMs (p : Panel) (n : ℕ) : p.run [.sleepMs n] = { p with busy := p.busy - n } :=
  rfl

theorem run_swReset {p : Panel} (hrst : p.rst = true) (hbusy : p.busy = 0) :
    p.run (dispCmd swReset ++ [.sleepMs 150]) =
      { p.reset with dc := false, cs := true, busy := 0 } := by
  rw [run_append, run_dispCmd hrst hbusy, command_swReset, run_sleepMs]
  simp [reset]

theorem run_slpOut {p : Panel} (hrst : p.rst = true) (hbusy : p.busy = 0) :
    p.run (dispCmd slpOut ++ [.sleepMs 150]) =
      { p with
        dc := false, cs := true, busy := 0, cmd := slpOut, args := [], asleep := false } := by
  rw [run_append, run_dispCmd hrst hbusy, command_slpOut, run_sleepMs]
  simp

theorem run_dispOn {p : Panel} (hrst : p.rst = true) (hbusy : p.busy = 0) :
    p.run (dispCmd dispOn) =
      { p with dc := false, cs := true, cmd := dispOn, args := [], on := true } := by
  rw [run_dispCmd hrst hbusy, command_dispOn]

theorem dispInit_eq : dispInit =
    hardReset ++ ((dispCmd swReset ++ [.sleepMs 150]) ++ ((dispCmd slpOut ++ [.sleepMs 150]) ++
      ((dispCmd colMod ++ dispData [0x55]) ++ dispCmd dispOn))) := by
  simp only [dispInit, List.append_assoc]

theorem run_init (p : Panel) : (p.run dispInit).Ready := by
  have hformat : (0x55 : UInt8) &&& 0x07 = 0x05 := by decide
  rw [dispInit_eq, run_append, run_reset, run_append, run_swReset, run_append, run_slpOut,
    run_append, run_colMod, run_dispOn]
  · exact ⟨rfl, rfl, rfl, if_pos hformat, rfl, rfl⟩
  all_goals rfl

theorem Panel.Filling.paint {p : Panel} (h : p.Filling) (bytes : List UInt8) (n : ℕ) :
    (p.paint bytes n).Filling :=
  ⟨h.cs, h.dc, h.rst, h.busy, h.cmd, h.args, h.format⟩

theorem step_pixel {p : Panel} (h : p.Filling) (hi lo : UInt8) :
    (p.step (.byte hi)).step (.byte lo) = p.paint [hi, lo] 1 := by
  have hfst : p.step (.byte hi) = { p with args := [hi] } := by
    rw [step_byte hi h.cs h.dc h.rst h.busy, param_ramWrite h.cmd, h.args]
    exact if_pos (show 1 < p.pixelSize by rw [h.format]; exact Nat.one_lt_two)
  have hsnd : ({ p with args := [hi] } : Panel).step (.byte lo) =
      ({ p with args := [hi, lo] } : Panel).setPixel [hi, lo] := by
    rw [step_byte, param_ramWrite]
    · rfl
    · exact h.cmd
    · exact h.cs
    · exact h.dc
    · exact h.rst
    · exact h.busy
  calc (p.step (.byte hi)).step (.byte lo)
      = ({ p with args := [hi, lo] } : Panel).setPixel [hi, lo] := by rw [hfst, hsnd]
    _ = { p.paint [hi, lo] 1 with args := [] } :=
      if_neg (show ¬2 < p.pixelSize by rw [h.format]; exact lt_irrefl 2)
    _ = { p.paint [hi, lo] 1 with args := p.args } := by rw [h.args]
    _ = p.paint [hi, lo] 1 := rfl

theorem run_pixels {p : Panel} (h : p.Filling) (hi lo : UInt8) (n : ℕ) :
    p.run (pixels hi lo n) = p.paint [hi, lo] n := by
  induction n generalizing p with
  | zero => rfl
  | succ n ih =>
    calc p.run (pixels hi lo (n + 1))
        = ((p.step (.byte hi)).step (.byte lo)).run (pixels hi lo n) := rfl
      _ = (p.paint [hi, lo] 1).paint [hi, lo] n := by rw [step_pixel h, ih (h.paint _ 1)]
      _ = p.paint [hi, lo] (n + 1) := rfl

theorem run_ramWrite {p : Panel} (hrst : p.rst = true) (hbusy : p.busy = 0) :
    p.run (dispCmd ramWrite ++ [.dc true, .cs false]) =
      { p with
        dc := true, cs := false, cmd := ramWrite, args := []
        pointer := (p.window.x₀, p.window.y₀) } := by
  rw [run_append, run_dispCmd hrst hbusy, command_ramWrite]
  rfl

theorem run_deselect (p : Panel) : p.run [.cs true] = { p with cs := true } := rfl

theorem dispFill_eq (color : UInt16) : dispFill color =
    ((dispCmd colAddr ++ dispData [0x00, 0x00, 0x00, 0xEF]) ++
      ((dispCmd rowAddr ++ dispData [0x00, 0x00, 0x01, 0x3F]) ++
        (dispCmd ramWrite ++ [.dc true, .cs false]))) ++
      (pixels (color >>> 8).toUInt8 (color &&& 0xFF).toUInt8 (240 * 320) ++ [.cs true]) := by
  simp only [dispFill, List.append_assoc]

def screen : PixelWindow := ⟨0, 239, 0, 319⟩

theorem screen_proper : screen.Proper := ⟨Nat.zero_le _, Nat.zero_le _⟩

theorem screen_count : screen.width * screen.height = 240 * 320 := rfl

/-- A memory write of the whole screen before its first pixel. -/
def Panel.opened (p : Panel) : Panel :=
  { p with
    dc := true, cs := false, cmd := ramWrite, args := [], window := screen
    pointer := screen.cell 0 }

theorem Panel.Ready.opened {p : Panel} (h : p.Ready) : p.opened.Filling :=
  ⟨rfl, rfl, h.rst, h.busy, rfl, rfl, h.format⟩

theorem Panel.painted_mem (p : Panel) (bytes : List UInt8) (n : ℕ) :
    ({ p.opened.paint bytes n with cs := true } : Panel).mem =
      ((screen.write bytes)^[n] (screen.cell 0, p.mem)).2 :=
  rfl

theorem Panel.Ready.painted {p : Panel} (h : p.Ready) (bytes : List UInt8) (n : ℕ) :
    ({ p.opened.paint bytes n with cs := true } : Panel).Ready :=
  ⟨rfl, h.rst, h.busy, h.format, h.on, h.awake⟩

theorem run_open {p : Panel} (h : p.Ready) :
    p.run ((dispCmd colAddr ++ dispData [0x00, 0x00, 0x00, 0xEF]) ++
      ((dispCmd rowAddr ++ dispData [0x00, 0x00, 0x01, 0x3F]) ++
        (dispCmd ramWrite ++ [.dc true, .cs false]))) = p.opened := by
  rw [run_append, run_colAddr h.rst h.busy, run_append, run_rowAddr, run_ramWrite]
  · rfl
  · exact h.rst
  · exact h.busy
  · exact h.rst
  · exact h.busy

theorem run_fill {p : Panel} (h : p.Ready) (color : UInt16) :
    (p.run (dispFill color)).Ready ∧ (p.run (dispFill color)).Shows color := by
  let bytes := [(color >>> 8).toUInt8, (color &&& 0xFF).toUInt8]
  have hrun : p.run (dispFill color) =
      { p.opened.paint bytes (240 * 320) with cs := true } := by
    rw [dispFill_eq, run_append, run_open h, run_append, run_pixels h.opened, run_deselect]
  obtain ⟨g, hg, hcells⟩ := PixelWindow.write_all screen_proper bytes p.mem
  rw [screen_count] at hg
  have hmem : (p.run (dispFill color)).mem = g :=
    (congrArg Panel.mem hrun).trans
      ((p.painted_mem bytes (240 * 320)).trans (congrArg Prod.snd hg))
  have hready : (p.run (dispFill color)).Ready := hrun ▸ h.painted bytes (240 * 320)
  refine ⟨hready, hready.on, hready.awake, fun x hx y hy => ?_⟩
  have hcell : g (x, y) = bytes := by
    rw [hcells, if_pos]
    exact ⟨⟨Nat.zero_le x, Nat.le_of_lt_succ hx⟩, Nat.zero_le y, Nat.le_of_lt_succ hy⟩
  rw [Panel.color, hmem, hcell]
  exact congrArg some (word_bytes color)

theorem ready_of_calls {p : Panel} (h : p.Ready) (calls : List LoraState) :
    (p.run (calls.flatMap dispShowState)).Ready := by
  induction calls generalizing p with
  | nil => exact h
  | cons s calls ih =>
    rw [List.flatMap_cons, run_append]
    exact ih (run_fill h (stateColor s)).1

/-- Whatever the panel was doing before `disp_init`, after every later call of
`disp_show_state` it is lit and filled with the color of that call. -/
theorem disp_shows_last_state (p : Panel) (calls : List LoraState) (s : LoraState) :
    (p.run (dispInit ++ (calls ++ [s]).flatMap dispShowState)).Shows (stateColor s) := by
  rw [run_append, List.flatMap_append, run_append, List.flatMap_singleton]
  exact (run_fill (ready_of_calls (run_init p) calls) (stateColor s)).2

end WalkieTalkie.Display
