import Adventure.Cli.Execute
import Adventure.Game.Start
import Adventure.Json.Canonical
import Adventure.Json.Pretty
import Adventure.Main
import Adventure.Report.Describe
import Adventure.Report.Run
import Adventure.Save.Folder
import Adventure.Scene.Description
import Adventure.Script.Run
import Adventure.Stage.Screen
import Adventure.Video.Playback
import Adventure.Proofs.Script.Layout
import Adventure.Proofs.Script.Alignment
import Adventure.Proofs.Bytes.Fields
import Adventure.Proofs.Codec.LzssEncoding
import Adventure.Proofs.Codec.LzssBlock
import Adventure.Proofs.Codec.LzssRoundTrip
import Adventure.Proofs.Bytes.Reading
import Adventure.Proofs.Save.Layout
import Adventure.Proofs.Save.RoundTrip
import Adventure.Proofs.Game.Slots
import Adventure.Proofs.Scene.Steps
import Adventure.Proofs.Scene.Rounds
import Adventure.Proofs.Scene.Guards
import Adventure.Proofs.Picture.Shape
import Adventure.Proofs.Game.Bag
import Adventure.Proofs.Game.Ground
import Adventure.Proofs.Game.Dialogues
import Adventure.Proofs.Game.Frames
import Adventure.Proofs.Game.Stock
import Adventure.Proofs.Game.Calls
import Adventure.Proofs.Game.Partition
import Adventure.Proofs.Game.Reachable
import Adventure.Proofs.Text.Case
import Adventure.Proofs.Game.Building
import Adventure.Proofs.Game.Scenes
import Adventure.Proofs.Game.Restoring
import Adventure.Proofs.Game.Frozen
import Adventure.Proofs.Game.Anchor
import Adventure.Proofs.Video.CinepakBlocks
import Adventure.Proofs.Video.CinepakBooks
import Adventure.Proofs.Video.CinepakRoundTrip
import Adventure.Proofs.Sound.Parts
import Adventure.Proofs.Sound.Plays
import Adventure.Proofs.Video.Demuxing
import Adventure.Proofs.Abreast
import Adventure.Proofs.Sound.Voices
import Adventure.Proofs.Game.Alike
import Adventure.Proofs.Game.Blind
import Adventure.Proofs.Script.Blind
import Adventure.Proofs.Scene.Abreast
import Adventure.Proofs.Game.BlindScenes
import Adventure.Proofs.Game.BlindFrames
import Adventure.Proofs.Game.Restarting
import Adventure.Proofs.Save.Accepted
import Adventure.Proofs.Scene.Naming
import Adventure.Proofs.Game.Bounds
import Adventure.Proofs.Game.Underway
import Adventure.Proofs.Game.Names
import Adventure.Proofs.Game.Carrying
import Adventure.Proofs.Game.Saving
import Adventure.Proofs.Dialogue
import Adventure.Proofs.Video.Tally
import Adventure.Proofs.Game.Endings
import Adventure.Proofs.Bytes.Words
import Adventure.Proofs.Bytes.Forward
import Adventure.Proofs.Codec.LzssSafety
import Adventure.Proofs.Codec.LzssChecksum
import Adventure.Proofs.Save.Truncated
import Adventure.Proofs.Script.Untouched
import Adventure.Proofs.Script.Statements
import Adventure.Proofs.Script.Turns
import Adventure.Proofs.Game.Sorting
import Adventure.Proofs.Resource.InterfaceSprites
import Adventure.Proofs.Bytes.Loops
import Adventure.Proofs.Resource.MovieFile
import Adventure.Proofs.Resource.MovieReading
import Adventure.Proofs.Video.CinepakChunks
import Adventure.Proofs.Rounds
import Adventure.Proofs.Video.CinepakLoops
import Adventure.Proofs.Video.CinepakEnding
import Adventure.Proofs.Bytes.Local
import Adventure.Proofs.Video.HeaderChunks
import Adventure.Proofs.Text.Lines
import Adventure.Proofs.DialogueText
import Adventure.Proofs.Sound.Streaming
import Adventure.Proofs.Sound.Resampling
import Adventure.Proofs.Sound.Drained
import Adventure.Proofs.Text.Comments
import Adventure.Proofs.Picture.Blocks
import Adventure.Proofs.Picture.Sprites
import Adventure.Proofs.Stage.Blitting
import Adventure.Proofs.Picture.Packets
import Adventure.Proofs.Scene.Sight
import Adventure.Proofs.Script.Snapping
import Adventure.Proofs.Script.Approach
import Adventure.Proofs.Game.Origins
import Adventure.Proofs.Json.Reading
import Adventure.Proofs.Json.Canonical
import Adventure.Proofs.Random
import Adventure.Proofs.Stage.Schedule
import Adventure.Proofs.Game.Newcomers
import Adventure.Proofs.Text.Numerals
import Adventure.Proofs.Text.Scanner
import Adventure.Proofs.Text.Progress
import Adventure.Proofs.Scene.Loops
import Adventure.Proofs.Reading
