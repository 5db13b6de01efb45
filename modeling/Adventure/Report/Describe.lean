import Adventure.Dialogue
import Adventure.Digest.Sha256
import Adventure.Json.Basic
import Adventure.Resource.Background
import Adventure.Resource.Movie
import Adventure.Resource.SpriteBank
import Adventure.Save.State
import Adventure.Scene.Tables
import Adventure.Video.Avi

/-! Descriptions of resources and of what they hold, as JSON. -/

namespace Adventure

namespace Describe

def word (v : Int16) : Json := .int v.toInt

/-- The digest of a picture: of its palette, then of its colours. -/
def pictureDigest (bits palette : ByteArray) : String := Sha256.hexDigest (palette ++ bits)

def background (b : Background) : Json :=
  .obj [("width", .int b.surface.width), ("height", .int b.surface.height), ("pitch", .int b.surface.pitch),
    ("sha256", .str (pictureDigest b.surface.bits b.palette))]

def packing : Packing → Json
  | .blocks => .str "lzss"
  | .stream => .str "zlib"

def frame (h : FrameHeader) : Json :=
  .obj [("num", word h.num), ("w", word h.w), ("h", word h.h), ("x_pos", word h.xPos), ("y_pos", word h.yPos)]

def bank (b : SpriteBank) : Json :=
  .obj [("compression", packing b.packing), ("frames", .int b.framesCount),
    ("motions", .arr (b.motions.map fun m => .arr (m.map fun f => frame f.header)))]

def movieBox (b : MovieBox) : Json :=
  .obj [("group", .int b.group), ("state", .int b.state.toNat), ("x1", word b.x₁), ("y1", word b.y₁),
    ("x2", word b.x₂), ("y2", word b.y₂)]

def movieObject (o : MovieObject) : Json :=
  .obj [("name", .str o.name), ("class_name", .str o.className), ("mode", word o.mode),
    ("mode_rnd_mul", word o.modeRandom), ("x_init", word o.xInit), ("y_init", word o.yInit),
    ("z_init", word o.zInit), ("flip_init", word o.flipInit), ("motion_num", word o.motionNum),
    ("motion_frame_num", word o.motionFrameNum),
    ("vars", .arr (o.vars.map fun (i, v) => .arr [.int i, word v]))]

/-- All of a movie but its script. -/
def movie (m : Movie) : Json :=
  .obj [("spr_name", .str m.bankName), ("wgp_name", .str m.backgroundName), ("speed", .int m.speed.toNat),
    ("sounds", .arr (m.sounds.map .str)), ("boxes", .arr (m.boxes.map movieBox)),
    ("objects", .arr (m.objects.map movieObject)), ("unk26", word m.unused)]

def object (o : SceneObject) : Json :=
  .obj [("x_init", word o.xInit), ("y_init", word o.yInit), ("x", word o.x), ("y", word o.y),
    ("x_prev", word o.xPrev), ("y_prev", word o.yPrev), ("z_init", word o.zInit), ("z_prev", word o.zPrev),
    ("z", word o.z), ("frame_num", word o.frameNum), ("frame_num_prev", word o.frameNumPrev),
    ("flip_init", word o.flipInit), ("flip", word o.flip), ("flip_prev", word o.flipPrev),
    ("motion_num", word o.motionNum), ("motion_init", word o.motionInit), ("motion_num1", word o.motionNum1),
    ("motion_num2", word o.motionNum2), ("motion_frame_num", word o.motionFrameNum), ("mode", word o.mode),
    ("mode_rnd_mul", word o.modeRandom), ("state_prev", word o.statePrev), ("state", word o.state),
    ("name", .str o.name), ("class_name", .str o.className), ("vars", .arr (o.vars.toList.map word))]

def nextScene (s : NextScene) : Json := .obj [("num", word s.num), ("name", .str s.name)]

def entry (e : DialogueEntry) : Json :=
  .obj [("id", .str e.id), ("goto_flag", .bool e.goes), ("next_id", .str e.next),
    ("speech_sound_file", .str e.speech), ("text", .str e.text)]

/-- The speakers are numbered. -/
def speaker : Speaker → Json
  | .jack => .int 0
  | .other => .int 1
  | .kiss => .int 2

def savedMusic (m : SavedMusic) : Json := .obj [("track", .int m.track.toNat), ("name", .str m.name)]

/-- A saved game in short. -/
def saved (s : SaveState) : Json :=
  .obj [("scene_name", .str s.sceneName), ("objects", .int s.objects.length),
    ("bag_objects", .arr (s.bag.map fun e => .str e.name)), ("current_bag_object", word s.bagObject),
    ("current_bag_action", word s.bagAction), ("music", s.music.elim .null savedMusic)]

def video (h : AviHeader) : Json :=
  .obj [("frames", .int h.frames.toNat), ("width", .int h.width.toNat), ("height", .int h.height.toNat),
    ("streams", .int h.streams.toNat), ("frame_rate", .int h.frameRate.toNat),
    ("audio_buffer_size", .int h.audioBuffer.toNat), ("video_buffer_size", .int h.videoBuffer.toNat)]

end Describe

end Adventure
