import Adventure.Codec.Error
import Adventure.Codec.Inflate

/-! Resources compressed with zlib: the decoded size in front of a zlib stream. -/

namespace Adventure.Zlib

/-- Decodes a stream. If output beyond the declared size is handed on, this is reported
before any fault behind it; output that is too short is filled up with zeros. -/
def decode (src : ByteArray) : Except CodecError ByteArray :=
  match Bytes.le32? src 0 with
  | none => .error (.noHeader src.size)
  | some declared =>
    let declared := declared.toNat
    if maxDecodedSize < declared then .error (.declaredSize declared src.size maxDecodedSize)
    else
      let (s, stop) := Inflate.run (src.extract 4 src.size)
      let seen := if stop = some .invalid then s.handedOn else s.out.size
      if declared < seen then .error (.tooLong declared)
      else match stop with
        | some .short => .error (.deflate .incomplete)
        | some .invalid => .error (.deflate .corrupt)
        | none => .ok (Bytes.pushN s.out 0 (declared - s.out.size))

end Adventure.Zlib
