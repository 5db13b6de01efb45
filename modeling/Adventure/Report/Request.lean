import Adventure.Json.Reader
import Adventure.Stage.Input

/-! What a run without a player is to do: for how many frames, and with which input. -/

namespace Adventure

structure RunRequest where
  frames : Nat
  skipIntro : Bool := false
  seed : Option UInt16 := none
  inputs : List ScheduledInput := []
  deriving DecidableEq, Repr, Inhabited

namespace RunRequest

def natBelow? (bound : Nat) : Json → Option Nat
  | .int n => if 0 ≤ n ∧ n < bound then some n.toNat else none
  | _ => none

def bool? : Json → Option Bool
  | .bool b => some b
  | _ => none

def inputFields : List String := ["at_frame", "enter", "space", "shift", "tab", "escape", "dir_mask"]

def setInput (s : ScheduledInput) (name : String) (v : Json) : Option ScheduledInput := do
  let i := s.input
  match name with
  | "at_frame" => return { s with atFrame := ← natBelow? UInt64.size v }
  | "enter" => return { s with input := { i with enter := ← bool? v } }
  | "space" => return { s with input := { i with space := ← bool? v } }
  | "shift" => return { s with input := { i with shift := ← bool? v } }
  | "tab" => return { s with input := { i with tab := ← bool? v } }
  | "escape" => return { s with input := { i with escape := ← bool? v } }
  | "dir_mask" => return { s with input := { i with directions := (← natBelow? 256 v).toUInt8 } }
  | _ => none

/-- Some of the keys from a frame on. Frames are not waited for. -/
def input? (v : Json) : Option ScheduledInput := do
  let fields ← v.fields? inputFields
  if (Json.member? fields "at_frame").isNone then none
  fields.foldlM (fun s m => setInput s m.1 m.2) ⟨0, { fast := true }⟩

def inputs? : Json → Option (List ScheduledInput)
  | .arr items => items.mapM input?
  | _ => none

def fieldNames : List String := ["frames", "skip_intro", "seed", "inputs"]

def seed? : Json → Option (Option UInt16)
  | .null => some none
  | v => (natBelow? 65536 v).map fun n => some n.toUInt16

def set (r : RunRequest) (name : String) (v : Json) : Option RunRequest := do
  match name with
  | "frames" => return { r with frames := ← natBelow? UInt64.size v }
  | "skip_intro" => return { r with skipIntro := ← bool? v }
  | "seed" => return { r with seed := ← seed? v }
  | "inputs" => return { r with inputs := ← inputs? v }
  | _ => none

/-- The number of frames has to be given. -/
def ofJson? (v : Json) : Option RunRequest := do
  let fields ← v.fields? fieldNames
  if (Json.member? fields "frames").isNone then none
  fields.foldlM (fun r m => r.set m.1 m.2) { frames := 0 }

/-- What of a text is looked at: the fields of the request and of its inputs. -/
def shape : Json.Shape :=
  .members <| fieldNames.map fun name =>
    (name, if name = "inputs" then .items (.members (inputFields.map (·, .whole))) else .whole)

def ofText? (text : String) : Option RunRequest := (Json.parse? shape text).bind ofJson?

end RunRequest

end Adventure
