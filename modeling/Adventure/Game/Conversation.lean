import Adventure.Game.Render
import Adventure.Game.Sound
import Adventure.Resource.SpriteBank
import Adventure.Text.Comments

/-! Dialogues within the game. The scene stands still as it was drawn last; a part of the
screen is darkened and shows the speaker. The choices are shown elsewhere. -/

namespace Adventure

namespace Conversation

/-- The part of the screen that is darkened. -/
def area : Rect := ⟨33, 165, 574, 150⟩

/-- The left column of the frame around a speaker, and where the choices go beside it. -/
def layout (s : Speaker) (frameWidth : Nat) : Int × Rect :=
  let w : Int := frameWidth
  let (left, textLeft) := match s with
    | .jack => (area.x + 13, area.x + 13 + w + 10)
    | .other => (area.x + area.w - w - 13, area.x + 10)
    | .kiss => (area.x + (area.w - w).tdiv 2, area.x)
  (left, ⟨textLeft, area.y + 10, area.w - 10 - w - 13, area.h - 20⟩)

end Conversation

namespace Game

/-- The music of dialogues. -/
def dialogueMusic : String := "..\\midi\\sadialog.mid"

def frameFile : String := "..\\wgp\\frame.spr"

def kissFile : String := "..\\wgp\\kiss.spr"

/-- Does what a step of a dialogue asks for. -/
def followEvent : DialogueEvent → M Unit
  | .speak file => startSound file
  | .silence => stopSound
  | _ => pure ()

def readDialogue (name : String) : M Dialogue := do
  let text := Text.latin1 (Text.stripComments (← readFile name).toList)
  return Dialogue.ofEntries (← ofExcept (GameError.wrap .dialogue (Dialogue.parse text)))

/-- Begins the dialogue that a script asked for. -/
def beginDialogue : M Unit := do
  playMusic dialogueMusic
  let r := (← get).dialogueRequest
  let frame ← readFile frameFile
  let jack ← readResource decodeTalkingHead r.jack
  let other ← readResource decodeTalkingHead r.other
  let kiss ← readResource decodeTalkingHead kissFile
  let (event, dialogue) := (← readDialogue r.file).setup r.id
  modify fun g => { g with
    conversation := some { dialogue, frame, heads := ⟨jack, other, kiss⟩, textRect := Conversation.area } }
  followEvent event
  onInput fun i => { i with directions := 0, escape := false, enter := false }
  modify fun g => { g with mode := .dialogue }

/-- Runs a step of the dialogue, if there is one. -/
def onDialogue (f : Dialogue → DialogueEvent × Dialogue) : M DialogueEvent := modifyGet fun g =>
  match g.conversation with
  | none => (.leave, g)
  | some c =>
    let (event, dialogue) := f c.dialogue
    (event, { g with conversation := some { c with dialogue } })

/-- Back to the scene. -/
def leaveDialogue : M Unit := modify fun g => { g with mode := .game }

/-- Draws the scene as it was drawn last, with a dark area. -/
def drawDialogueScene : M Unit := do
  let t := (← get).tables
  drawLayers .last (fun _ => false) (t.layers .last)
  let a := Conversation.area
  modify fun g =>
    let f := g.frame
    let stage :=
      if a.y + a.h ≤ f.height ∧ a.x + a.w ≤ f.width then
        let start := (f.height - a.y - a.h).toNat * f.pitch + a.x.toNat
        g.stage.copyRect a.x a.y a.w a.h (f.bits.extract start f.bits.size) f.pitch false
      else g.stage
    { g with stage := stage.darkenRect a.x a.y a.w a.h }

/-- Puts the background back where an animated object was drawn. -/
def eraseObject (slot : Nat) : M Unit := do
  let g ← get
  let o := g.object slot
  if o.statePrev = 1 then
    let h ← ofExcept (g.tables.frameHeader o.frameNumPrev)
    onFrame fun s =>
      Block.copy o.xPrev.toInt (s.h + 1 - o.yPrev.toInt - h.h.toInt) h.w.toInt h.h.toInt g.background s

def eraseObjects : List Nat → M Unit
  | [] => pure ()
  | i :: r => do
    eraseObject i
    eraseObjects r

/-- Shows a sprite in the middle of a rectangle given by its corner and its size. -/
def showSprite (x y : Int) (w h : Nat) (sprite : ByteArray) : M Unit :=
  let sw := Sprite.width sprite
  let sh := Sprite.height sprite
  onStage fun s => s.copyRect (x + ((w : Int) - sw).tdiv 2) (y + ((h : Int) - sh).tdiv 2) sw sh
    (sprite.extract 4 sprite.size) sw false

/-- Draws the frame around a speaker, and in it the picture that comes next. -/
def drawSpeaker (c : Conversation) (speaker : Speaker) : M Unit := do
  let frame ← ofExcept (GameError.wrap .codec (Lzss.decode (c.frame.extract 2 c.frame.size)))
  let w := Sprite.width frame
  let h := Sprite.height frame
  let (x, textRect) := Conversation.layout speaker w
  let y := Conversation.area.y + (Conversation.area.h - h).tdiv 2
  let c := { c with textRect }
  modify fun g => { g with conversation := some c }
  showSprite x y w h frame
  let heads := c.heads.get speaker
  let n := c.head.get speaker % heads.length
  match heads[n]? with
  | none => pure ()
  | some packed =>
    showSprite x y w h (← ofExcept (GameError.wrap .codec (Lzss.decode packed)))
    modify fun g =>
      { g with conversation := some { c with head := c.head.set speaker ((n + 1) % heads.length) } }

/-- Draws the dialogue. It is over when the kiss has been shown to its end. -/
def drawDialogue : M Unit := do
  drawDialogueScene
  eraseObjects (← get).tables.sortedSlots
  match (← get).conversation with
  | none => pure ()
  | some c =>
    drawSpeaker c c.dialogue.speaker
    let shown := match (← get).conversation with
      | some d => d.head.kiss
      | none => 0
    if c.dialogue.speaker = .kiss ∧ shown = 0 then
      modify fun g => { g with ending := { g.ending with fresh := true } }
      leaveDialogue

/-- Goes on when what was chosen has been spoken. Gives true when the dialogue is over. -/
def goOn : M Bool := do
  match ← onDialogue Dialogue.speechFinished with
  | .leave =>
    leaveDialogue
    return true
  | .ended number =>
    modify fun g => { g with ending := { number, fresh := true } }
    leaveDialogue
    return true
  | event =>
    followEvent event
    return false

def isSelected (g : Game) : Bool := g.conversation.any fun c => c.dialogue.selected

/-- The player moves between the choices and confirms one. -/
def chooseLine (i : Input) : M Unit := do
  if i.holds .down then discard (onDialogue fun d => (.nothing, d.moveDown))
  if i.holds .up then discard (onDialogue fun d => (.nothing, d.moveUp))
  onInput fun i => (i.release .down).release .up

/-- One frame of a dialogue. -/
def dialogueFrame : M Unit := do
  let i ← input
  if (← get).conversation.isNone then leaveDialogue
  else
    chooseLine i
    if i.escape then
      onInput fun i => { i with escape := false }
      leaveDialogue
    else
      if i.enter then
        onInput fun i => { i with enter := false }
        followEvent (← onDialogue Dialogue.confirm)
      let g ← get
      let ended ← if g.isSelected && g.soundOver then goOn else pure false
      if !ended then drawDialogue

/-- Back to the music of the scene. -/
def endDialogue : M Unit := do
  modify fun g => { g with conversation := none }
  playMusic (← get).music.name
  clearKeys

end Game

end Adventure
