import Adventure.Game.Render

/-! The window of the bag. It chooses what the player does next, an entry of the bag,
and the weapon at hand. -/

namespace Adventure

namespace Interface

/-- The number of entries that the window shows. -/
def shownEntries : Nat := 4

def blinkFrames : Nat := 10

/-- Where the icons of the actions hang in the window. -/
def actionPlaces : List (Int × Int) := [(121, 17), (164, 26), (222, 16)]

/-- The left column and the top row of the window on the screen. -/
def windowPlace (i : Interface) : Int × Int :=
  (((screenWidth : Int) - i.window.width).tdiv 2, ((screenHeight : Int) - i.window.height).tdiv 4)

/-- Where the marks of the entries start. -/
def marksLeft (demo : Bool) : Int := if demo then 247 else 269

/-- The places of the entries as they are when none is selected. -/
def marks (i : Interface) (demo : Bool) : List PlacedSprite :=
  i.sprites.objectBlink.head?.toList.flatMap fun mark =>
    (List.range shownEntries).map fun (n : Nat) => hang i.window (marksLeft demo + n * 32) 32 mark

/-- The weapons that are carried. -/
def carried (i : Interface) (demo : Bool) (vars : Vars) : List PlacedSprite :=
  (if vars.get Var.gun ≠ 0 then
    (i.gunIcon? vars).toList.map (hang i.window 22 (if demo then 19 else 21)) ++
      (i.ammoIcon? vars).toList.map (hang i.window 33 (if demo then 29 else 31))
  else []) ++
  if !demo ∧ vars.get Var.sword ≠ 0 then i.sprites.swordIcon.toList.map (hang i.window 22 36) else []

def lifeSign (i : Interface) (demo : Bool) (vars : Vars) : List PlacedSprite :=
  (i.lifeIcon? vars).toList.map (hang i.window (if demo then 23 else 314) (if demo then 52 else 51))

/-- The sign of the action. -/
def actionSign (i : Interface) (demo : Bool) (b : Bag) : List PlacedSprite :=
  if b.action < 0 then []
  else
    let n := b.action.toInt.toNat
    match actionPlaces[n]?, i.sprites.bagActions[n]? with
    | some (x, y), some icon => [hang i.window (if demo then x - 22 else x) y icon]
    | _, _ => []

/-- The first entries of the bag, each in the middle of its place. -/
def entries (i : Interface) (demo : Bool) (b : Bag) : List PlacedSprite :=
  (b.entries.take shownEntries).zipIdx.map fun (e, n) =>
    let w := Sprite.width e.data
    let h := Sprite.height e.data
    ⟨(if demo then 239 else 261) + n * 32 + ((32 : Int) - w).tdiv 2,
     i.window.h - 3 - ((40 : Int) - h).tdiv 2 - h, e.data⟩

/-- A selected entry is one of those that the window shows. -/
def isShown (b : Bag) : Bool := 0 ≤ b.selected ∧ b.selected < 4 ∧ !b.entries.isEmpty

/-- The mark of the selected entry, which blinks while it is to be used. -/
def selectedMark (i : Interface) (demo : Bool) (b : Bag) : List PlacedSprite :=
  if isShown b then
    (i.sprites.objectBlink[if b.action = Bag.useEntry then i.entryBlink else 0]?).toList.map
      (hang i.window (marksLeft demo + b.selected.toInt * 32) 32)
  else []

/-- The marks of the weapons, of which the one at hand blinks. -/
def weaponMarks (i : Interface) (demo : Bool) (vars : Vars) : List PlacedSprite :=
  let mark (weapon : Fin numVars) (down : Int) : List PlacedSprite :=
    (i.sprites.weaponBlink[if vars.get weapon = 1 then i.weaponBlink else 0]?).toList.map (hang i.window 87 down)
  if demo then [] else mark Var.sword 38 ++ mark Var.gun 25

/-- The window with its content; the marks stay on it. -/
def drawWindow (i : Interface) (demo : Bool) (vars : Vars) (b : Bag) : Surface × Interface :=
  let i := { i with window := PlacedSprite.drawAll (i.marks demo) i.window }
  let signs := i.carried demo vars ++ i.lifeSign demo vars ++ i.actionSign demo b ++ i.entries demo b ++
    i.selectedMark demo b ++ i.weaponMarks demo vars
  (PlacedSprite.drawAll signs i.window, i)

/-- Turns to the next pictures of all that moves in the window. -/
def nextFrames (i : Interface) (vars : Vars) (b : Bag) : Interface :=
  let i := i.nextLifeFrame
  let i := if isShown b ∧ b.action = Bag.useEntry then { i with entryBlink := (i.entryBlink + 1) % blinkFrames } else i
  if vars.get Var.sword = 1 ∨ vars.get Var.gun = 1 then
    { i with weaponBlink := (i.weaponBlink + 1) % blinkFrames }
  else i

end Interface

namespace Bag

/-- One action, or one entry while entries are used, to the left. -/
def moveLeft (b : Bag) : Bag :=
  if b.action = 0 then b
  else if b.action ≠ useEntry ∨ b.selected ≤ 0 then { b with action := b.action - 1 }
  else { b with selected := b.selected - 1 }

/-- One action, or one entry while entries are used, to the right. -/
def moveRight (b : Bag) : Bag :=
  if b.action = useEntry then
    if b.selected < Int16.ofNat b.entries.length - 1 ∧ b.selected ≠ -1 then { b with selected := b.selected + 1 } else b
  else { b with action := b.action + 1 }

/-- A point lies in a rectangle given by its left column, its width, and its rows. -/
def isIn (x y left w low h : Int) : Bool := left ≤ x ∧ x < left + w ∧ low ≤ y ∧ y < low + h

/-- Clicking an action chooses it; clicking an entry uses it. -/
def click (b : Bag) (x y : Int) : Bag :=
  let b := (List.range 3).foldl
    (fun b (n : Nat) => if isIn x y (n * 45 + 118) 42 15 40 then { b with action := Int16.ofNat n } else b) b
  (List.range (min b.entries.length Interface.shownEntries)).foldl
    (fun b (n : Nat) =>
      if isIn x y (n * 32 + 261) 32 4 40 then { b with selected := Int16.ofNat n, action := useEntry } else b) b

end Bag

namespace Game

/-- Takes the sword to hand in place of the gun. -/
def selectSword : M Unit := do
  let vars := (← get).vars
  if vars.get Var.gun = 1 ∧ vars.get Var.sword ≠ 0 then
    setVar Var.gun 2
    setVar Var.sword 1

/-- Takes the gun to hand in place of the sword. -/
def selectGun : M Unit := do
  let vars := (← get).vars
  if vars.get Var.sword = 1 ∧ vars.get Var.gun ≠ 0 then
    setVar Var.gun 1
    setVar Var.sword 2

/-- A point of the window lies on a sprite there. -/
def hitsSprite (x y low : Int) (sprite : Option ByteArray) : Bool :=
  match sprite with
  | some s => Bag.isIn x y 22 (Sprite.width s) low (Sprite.height s)
  | none => false

/-- A click at a point of the window. -/
def clickBag (x y : Int) : M Unit := do
  onBag fun b => b.click x y
  let sprites := (← get).ui.sprites
  if hitsSprite x y 22 sprites.weaponIcons.head? then selectGun
  if hitsSprite x y 37 sprites.swordIcon then selectSword

/-- Uses up a direction that is held, and says whether it was. -/
def takeDirection (i : Input) (d : Direction) : M Bool := do
  if i.holds d then
    onInput fun i => i.release d
    return true
  return false

def drawBag : M Unit := modify fun g =>
  let (x, y) := g.ui.windowPlace
  let (w, ui) := g.ui.drawWindow g.demo g.vars g.bag
  { g with ui := ui, stage := g.stage.copyRect x y w.width w.height w.bits w.pitch false }

/-- One frame of the window. -/
def bagFrame : M Unit := do
  let i ← input
  let (left, low) := (← get).ui.windowPlace
  if i.leftButton then
    onInput fun i => { i with leftButton := false }
    clickBag (i.mouseX - left) (i.mouseY - low)
  if i.tab || i.enter then
    onInput fun i => { i with tab := false, enter := false }
    modify fun g => { g with mode := .game }
  else
    if ← takeDirection i .left then onBag Bag.moveLeft
    if ← takeDirection i .right then onBag Bag.moveRight
    if ← takeDirection i .down then selectSword
    if ← takeDirection i .up then selectGun
    drawBag
    modify fun g => { g with ui := g.ui.nextFrames g.vars g.bag }

end Game

end Adventure
