import Adventure.DataDir

/-! The folder of saved games, with one file for each slot that is in use. -/

namespace Adventure

/-- The files are missing when there is no folder. -/
structure SaveFolder where
  path : String
  files : Option (List StoredFile)

namespace SaveFolder

/-- The files with the given names, in place of others of that name. -/
def insert (file : StoredFile) (files : List StoredFile) : List StoredFile :=
  files.filter (fun f => f.path ≠ file.path) ++ [file]

def slotPath (d : SaveFolder) (slot : Nat) : String := Settings.joinPath d.path (Settings.slotName slot)

/-- The content of a file of the folder. -/
def find? (d : SaveFolder) (name : String) : Option ByteArray := do
  let files ← d.files
  (files.find? fun f => f.path = name).map (·.content)

def readSlot? (d : SaveFolder) (slot : Nat) : Option ByteArray := d.find? (Settings.slotName slot)

/-- Fails without a folder. -/
def writeSlot? (d : SaveFolder) (slot : Nat) (content : ByteArray) : Option SaveFolder :=
  d.files.map fun files => { d with files := some (insert ⟨Settings.slotName slot, content⟩ files) }

end SaveFolder

end Adventure
