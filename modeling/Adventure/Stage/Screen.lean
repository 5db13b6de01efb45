import Adventure.Stage.Basic
import Adventure.Picture.Palette
import Adventure.Rect

/-! Drawing on the screen of the stage. -/

namespace Adventure.Stage

/-- The colour of a palette entry. -/
def color (palette : ByteArray) (c : UInt8) : Rgb :=
  let i := 3 * c.toNat
  ⟨Bytes.at0 palette i, Bytes.at0 palette (i + 1), Bytes.at0 palette (i + 2)⟩

/-- Sets the pixel with the given number. -/
@[inline] def setPixel (screen : ByteArray) (i : Nat) (c : Rgb) : ByteArray :=
  Bytes.put (Bytes.put (Bytes.put screen (3 * i) c.r) (3 * i + 1) c.g) (3 * i + 2) c.b

@[inline] def getPixel (screen : ByteArray) (i : Nat) : Rgb :=
  ⟨Bytes.at0 screen (3 * i), Bytes.at0 screen (3 * i + 1), Bytes.at0 screen (3 * i + 2)⟩

/-- The pixel at a column and a row. -/
def pixel? (s : Stage) (x y : Nat) : Option Rgb :=
  if x < screenWidth ∧ y < screenHeight then some (getPixel s.screen (y * screenWidth + x)) else none

/-- Sets the first `n` entries of the palette, as far as they are given, each as blue,
green, red and a spare byte. -/
def setPalette (s : Stage) (colors : ByteArray) (n : Nat) : Stage :=
  let set (p : ByteArray) (i : Nat) : ByteArray :=
    setPixel p i ⟨Bytes.at0 colors (4 * i + 2), Bytes.at0 colors (4 * i + 1), Bytes.at0 colors (4 * i)⟩
  { s with palette := (List.range (min (colors.size / 4) (min n 256))).foldl set s.palette }

/-- The part of a rectangle that lies on the screen. -/
def clip? (x y w h : Int) : Option Rect :=
  match (Rect.mk x y w h).clipTo ⟨0, 0, screenWidth, screenHeight⟩ with
  | (true, r) => some r
  | (false, _) => none

/-- Changes the `n` pixels from number `i` on. -/
@[specialize] def changeRow (f : Rgb → Rgb) (i : Nat) : Nat → ByteArray → ByteArray
  | 0, screen => screen
  | n + 1, screen => changeRow f (i + 1) n (setPixel screen i (f (getPixel screen i)))

/-- Changes `w` pixels in each of the `n` rows from row `y` on. -/
@[specialize] def changeRows (f : Rgb → Rgb) (x w y : Nat) : Nat → ByteArray → ByteArray
  | 0, screen => screen
  | n + 1, screen => changeRows f x w (y + 1) n (changeRow f (y * screenWidth + x) w screen)

/-- Changes the pixels of a rectangle. -/
@[specialize] def changeRect (s : Stage) (f : Rgb → Rgb) (x y w h : Int) : Stage :=
  match clip? x y w h with
  | none => s
  | some r => { s with screen := changeRows f r.x.toNat r.w.toNat r.y.toNat r.h.toNat s.screen }

def fillRect (s : Stage) (x y w h : Int) (c : UInt8) : Stage :=
  let rgb := color s.palette c
  s.changeRect (fun _ => rgb) x y w h

/-- Halves the brightness of a rectangle. -/
def darkenRect (s : Stage) (x y w h : Int) : Stage :=
  s.changeRect (fun c => ⟨c.r >>> 1, c.g >>> 1, c.b >>> 1⟩) x y w h

/-- Copies `n` colours from place `src` on to the pixels from number `i` on, as far as
there are colours. -/
def copyRow (palette buffer : ByteArray) (transparent : Bool) (src i : Nat) : Nat → ByteArray → ByteArray
  | 0, screen => screen
  | n + 1, screen =>
    if h : src < buffer.size then
      let c := buffer[src]
      copyRow palette buffer transparent (src + 1) (i + 1) n
        (if transparent && c == 0 then screen else setPixel screen i (color palette c))
    else screen

/-- Copies `n` rows downwards, the first of them from row `last` of the buffer, those
behind it from the rows before that one. -/
def copyRows (palette buffer : ByteArray) (transparent : Bool) (pitch column x w last y : Nat) :
    Nat → ByteArray → ByteArray
  | 0, screen => screen
  | n + 1, screen =>
    copyRows palette buffer transparent pitch column x w (last - 1) (y + 1) n
      (copyRow palette buffer transparent (last * pitch + column) (y * screenWidth + x) w screen)

/-- Copies a buffer of colours, stored from the bottom row up, to a rectangle.
Colour zero can be left out. -/
def copyRect (s : Stage) (x y w h : Int) (buffer : ByteArray) (pitch : Nat) (transparent : Bool) : Stage :=
  match clip? x y w h with
  | none => s
  | some r =>
    let column := (r.x - x).toNat
    let last := (h - 1 - (r.y - y)).toNat
    { s with
      screen := copyRows s.palette buffer transparent pitch column r.x.toNat r.w.toNat last r.y.toNat
        r.h.toNat s.screen }

end Adventure.Stage
