import MpQuic.Protocol
import MpQuic.Wire.Parse

namespace MpQuic.Wire

open MpQuic.Library MpQuic.Protocol

-- The errors of `Unpack`. Those of a parser are wrapped where the source does so.
inductive UnpackError where
  | decryptionFailure
  | missingPayload
  | invalidStreamData (err : ParseError)
  | unencryptedStreamData (streamID : Nat)
  | invalidAckData (err : ParseError)
  | unimplementedCongestionFeedback
  | invalidRstStreamData (err : ParseError)
  | invalidConnectionCloseData (err : ParseError)
  | invalidGoawayData (err : ParseError)
  | invalidWindowUpdateData (err : ParseError)
  | invalidBlockedData (err : ParseError)
  | invalidStopWaitingData (err : ParseError)
  | parse (err : ParseError)
  | unknownTypeByte (typeByte : UInt8)
  deriving DecidableEq, Repr

-- The fields of the public header that the frames depend on, and the level of the encryption.
structure FrameContext where
  version : Int
  packetNumber : Nat
  packetNumberLen : Nat
  encryptionLevel : EncryptionLevel
  deriving DecidableEq, Repr

abbrev Unpacker := Parser UInt8 UnpackError

namespace FrameContext

-- Only the crypto stream can be read without encryption.
def unpackStreamFrame (ctx : FrameContext) : Unpacker (Frame StreamFrame) := do
  let frame ← (parseStreamFrame ctx.version).mapError .invalidStreamData
  Parser.check
    (!(frame.streamID ≠ 1 && ctx.encryptionLevel.rank ≤ EncryptionLevel.unencrypted.rank))
    (.unencryptedStreamData frame.streamID)
  return .stream frame

def unpackControlFrame {α : Type} (toControl : α → ControlFrame) (wrap : ParseError → UnpackError)
    (parser : FrameParser α) : Unpacker (Frame StreamFrame) :=
  (fun frame => .control (toControl frame)) <$> parser.mapError wrap

def unpackFrame (ctx : FrameContext) (typeByte : UInt8) : Unpacker (Frame StreamFrame) :=
  if typeByte &&& 0x80 = 0x80 then ctx.unpackStreamFrame
  else if typeByte &&& 0xc0 = 0x40 then
    unpackControlFrame .ack .invalidAckData (parseAckFrame ctx.version)
  else if typeByte &&& 0xe0 = 0x20 then throw .unimplementedCongestionFeedback
  else if typeByte = 0x01 then
    unpackControlFrame .rstStream .invalidRstStreamData (parseRstStreamFrame ctx.version)
  else if typeByte = 0x02 then
    unpackControlFrame .connectionClose .invalidConnectionCloseData
      (parseConnectionCloseFrame ctx.version)
  else if typeByte = 0x03 then
    unpackControlFrame .goaway .invalidGoawayData (parseGoawayFrame ctx.version)
  else if typeByte = 0x04 then
    unpackControlFrame .windowUpdate .invalidWindowUpdateData (parseWindowUpdateFrame ctx.version)
  else if typeByte = 0x05 then
    unpackControlFrame .blocked .invalidBlockedData (parseBlockedFrame ctx.version)
  else if typeByte = 0x06 then
    unpackControlFrame .stopWaiting .invalidStopWaitingData
      (parseStopWaitingFrame ctx.version ctx.packetNumber ctx.packetNumberLen)
  else if typeByte = 0x07 then unpackControlFrame (fun _ => .ping) .parse parsePingFrame
  else if typeByte = 0x10 then
    unpackControlFrame .addAddress .parse (parseAddAddressFrame ctx.version)
  else if typeByte = 0x11 then
    unpackControlFrame .closePath .parse (parseClosePathFrame ctx.version)
  else if typeByte = 0x12 then unpackControlFrame .paths .parse (parsePathsFrame ctx.version)
  else throw (.unknownTypeByte typeByte)

-- The loop over the frames. A zero byte is padding. Every round reads at least one byte, so
-- there are no more rounds than bytes.
def unpackFrames (ctx : FrameContext) :
    Nat → List UInt8 → Except UnpackError (List (Frame StreamFrame))
  | _, [] => .ok []
  | 0, _ => .ok []
  | fuel + 1, typeByte :: rest =>
    if typeByte = 0x00 then ctx.unpackFrames fuel rest
    else
      match (ctx.unpackFrame typeByte).run (typeByte :: rest) with
      | .error err => .error err
      | .ok (frame, left) => (ctx.unpackFrames fuel left).map (frame :: ·)

end FrameContext

structure UnpackedPacket where
  encryptionLevel : EncryptionLevel
  frames : List (Frame StreamFrame)
  deriving DecidableEq, Repr

-- What `Open` makes of the data, the packet number and the public header: the payload with the
-- level of its encryption, or nothing if it fails.
abbrev Opener := List UInt8 → Nat → List UInt8 → Option (List UInt8 × EncryptionLevel)

def unpack (version : Int) (aead : Opener) (publicHeaderBinary : List UInt8)
    (packetNumber packetNumberLen : Nat) (data : List UInt8) :
    Except UnpackError UnpackedPacket :=
  match aead data packetNumber publicHeaderBinary with
  | none => .error .decryptionFailure
  | some (decrypted, encryptionLevel) =>
    if decrypted.length = 0 then .error .missingPayload
    else
      let ctx : FrameContext := ⟨version, packetNumber, packetNumberLen, encryptionLevel⟩
      (ctx.unpackFrames decrypted.length decrypted).map (⟨encryptionLevel, ·⟩)

end MpQuic.Wire
