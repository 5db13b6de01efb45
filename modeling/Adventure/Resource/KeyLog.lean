import Adventure.Bytes.Basic

/-! Recorded keys: a table of 128 keys for each frame. -/

namespace Adventure

/-- The tables that are still to be played, and how many were. -/
structure KeyLog where
  records : List ByteArray
  played : Nat := 0

namespace KeyLog

def recordSize : Nat := 128

/-- Splits the data; what is left behind the last whole table is dropped. -/
def ofBytes (data : ByteArray) : KeyLog where
  records := (List.range (data.size / recordSize)).map fun i =>
    data.extract (i * recordSize) ((i + 1) * recordSize)

def next (k : KeyLog) : Option ByteArray × KeyLog :=
  match k.records[k.played]? with
  | some r => (some r, { k with played := k.played + 1 })
  | none => (none, k)

end KeyLog

end Adventure
