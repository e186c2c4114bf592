import MoqLiveCast.Rtmp.Amf0RoundTrip
import MoqLiveCast.Rtmp.ChunkRoundTrip
/-!
# CommandTransfer — commands that are sent in chunks, and read from them
-/
namespace MoqLiveCast

def releaseCommand : RtmpMessage := ⟨3, 0, 20, 0, [0x02, 0x00, 0x01, 0x61, 0x05]⟩

def releaseHandled : List RtmpMessage :=
  ((writeDataByChunkStream releaseCommand 2).foldl (RtmpInput.onRead (sessionReader 2)) freshInput).handled

end MoqLiveCast
