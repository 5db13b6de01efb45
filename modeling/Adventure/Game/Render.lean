import Adventure.Codec.Lzss
import Adventure.Game.Basic
import Adventure.Game.Depth
import Adventure.Picture.Block
import Adventure.Picture.Sprite

/-! Drawing a scene: its layers into the frame, then the signs of the interface. The
frame is shown and becomes the background again. -/

namespace Adventure

/-- A sprite and the place of its lower left corner. -/
structure PlacedSprite where
  x : Int
  y : Int
  sprite : ByteArray

/-- Draws sprites one over the other. -/
def PlacedSprite.drawAll (l : List PlacedSprite) (s : Surface) : Surface :=
  l.foldl (fun s p => Sprite.draw p.x p.y p.sprite s) s

namespace Interface

/-- A sprite whose upper edge lies so many rows under the top of a surface. -/
def hang (s : Surface) (x : Int) (down : Int) (sprite : ByteArray) : PlacedSprite :=
  ⟨x, s.h - down - Sprite.height sprite, sprite⟩

/-- The icon of the gun, which shows the shots that are left. -/
def gunIcon? (i : Interface) (vars : Vars) : Option ByteArray :=
  i.sprites.weaponIcons[(max 0 (min 13 (13 - (vars.get Var.shots).toInt))).toNat]?

/-- The icon of the magazines that are left, up to four. -/
def ammoIcon? (i : Interface) (vars : Vars) : Option ByteArray := do
  let n := vars.get Var.ammo
  if n < 0 ∨ 5 ≤ n then none
  let icons ← i.sprites.ammoIcons[if vars.get Var.shots ≤ 0 then 0 else 1]?
  icons[n.toInt.toNat]?

/-- The picture of the life bar that is due. -/
def lifeIcon? (i : Interface) (vars : Vars) : Option ByteArray := do
  let level ← i.sprites.lifeBar[(max 0 (min 10 (vars.get Var.damage).toInt)).toNat]?
  level[i.lifeBarFrame]?

/-- The life bar, and the weapon at hand. -/
def lifeBar (i : Interface) (vars : Vars) (frame : Surface) : List PlacedSprite :=
  let bar := i.sprites.lifeBarImage
  let at_ := hang frame
  at_ 386 18 bar ::
    (if vars.get Var.sword = 1 then
      at_ 150 18 bar :: i.sprites.swordIcon.toList.map (at_ 173 18)
    else if vars.get Var.gun = 1 then
      at_ 150 18 bar :: (i.gunIcon? vars).toList.map (at_ 173 31) ++ (i.ammoIcon? vars).toList.map (at_ 184 41)
    else []) ++
    (i.lifeIcon? vars).toList.map (at_ 409 36)

/-- The selected entry of the bag while it is to be used. -/
def usedEntry (i : Interface) (b : Bag) (frame : Surface) : List PlacedSprite :=
  match b.selected? with
  | none => []
  | some e =>
    if b.action = Bag.useEntry then
      let icon := i.sprites.iconBackground
      let x := b.x.toInt
      let y := b.y.toInt
      let w := Sprite.width icon
      let h := Sprite.height icon
      let entryW := Sprite.width e.data
      let entryH := Sprite.height e.data
      [⟨x, frame.h + 1 - y - h, icon⟩,
       ⟨x + ((w : Int) - entryW).tdiv 2, frame.h + 1 - y - ((h : Int) - entryH).tdiv 2 - entryH, e.data⟩]
    else []

/-- Turns to the next picture of the life bar. -/
def nextLifeFrame (i : Interface) : Interface := { i with lifeBarFrame := (i.lifeBarFrame + 1) % 12 }

end Interface

namespace Game

/-- The number of scenes without signs of the interface. -/
def bareScene : Int16 := -1000

/-- Draws an object as it stands at a moment. -/
def drawObject (m : Moment) (slot : Nat) : M Unit := do
  let g ← get
  let o := g.object slot
  let f ← ofExcept (g.tables.frame (o.frameAt m))
  let sprite ← ofExcept (GameError.wrap .codec f.decode)
  let x := (o.posAt .x m).toInt
  let y := (o.posAt .y m).toInt
  onFrame fun s =>
    let y := s.h + 1 - y - f.header.h.toInt
    if o.flipAt m = flipX then Sprite.drawMirrored x y sprite s else Sprite.draw x y sprite s

/-- Draws the part of the background in a box, but for the colours that it leaves out. -/
def drawBox (b : SceneBox) : M Unit := do
  let background := (← get).background
  let x := b.x₁.toInt
  let w := b.x₂.toInt - b.x₁.toInt + 1
  let h := b.y₂.toInt - b.y₁.toInt + 1
  let start := b.startColor.toInt
  onFrame fun s =>
    let y := s.h + 1 - b.y₂.toInt
    if b.endColor = 0 then Block.copy x y w h background s
    else Block.mix x y w h background s start (start + b.endColor.toInt - 1)

/-- Draws layers but for objects of the ranks that are left out. -/
def drawLayers (m : Moment) (leaveOut : Nat → Bool) : List Layer → M Unit
  | [] => pure ()
  | .object rank slot :: r => do
    if !leaveOut rank then drawObject m slot
    drawLayers m leaveOut r
  | .box b :: r => do
    drawBox b
    drawLayers m leaveOut r

/-- In the first scene of the demo one object would hide others. -/
def hidden (g : Game) (rank : Nat) : Bool := g.demo ∧ g.sceneNumber = 1 ∧ rank = 14

/-- The banner of a lost game. -/
def drawBanner : M Unit := do
  let g ← get
  if !g.demo ∧ g.lost then
    match g.ui.banner with
    | none => pure ()
    | some packed =>
      let banner ← ofExcept (GameError.wrap .codec (Lzss.decode (packed.extract 2 packed.size)))
      onFrame fun s => Sprite.draw 93 (s.h - 230) banner s

def drawInterface : M Unit := do
  drawBanner
  let g ← get
  onFrame fun s => PlacedSprite.drawAll (g.ui.usedEntry g.bag s) s
  if g.ui.lifeBarShown then
    onFrame fun s => PlacedSprite.drawAll (g.ui.lifeBar g.vars s) s
    onUi Interface.nextLifeFrame

/-- Puts the frame on the screen and clears it. -/
def showFrame : M Unit := modify fun g =>
  let f := g.frame
  { g with
    stage := g.stage.copyRect 0 0 (min f.width screenWidth : Nat) (min f.height screenHeight : Nat) f.bits f.pitch false
    frame := g.background }

/-- Draws the scene and shows it. -/
def drawScene : M Unit := do
  let g ← get
  drawLayers .next g.hidden (g.tables.layers .next)
  if g.sceneNumber ≠ bareScene ∧ g.tables.objectsCount ≠ 0 then drawInterface
  showFrame

end Game

end Adventure
