import ZetMQ.ByteBuffer

/-! Frames on the wire: a fixed header of 22 bytes, a headers section and a
payload. Decoding peeks at the two lengths first and takes a frame off the buffer
only when all of it is there. -/
namespace ZetMQ.Frames
open Utf8Text ByteBuffer

def zetmqMagic : ℕ := 0x5A4D
def currentVersion : UInt8 := 1
def frameHeaderSize : ℕ := 22

inductive ProtocolError where
  | invalidMagic (expected got : ℕ)
  | unsupportedVersion (version : UInt8)
  | unknownFrameType (value : UInt8)
  | frameTooLarge (size limit : ℕ)
  | incompleteFrame (needed available : ℕ)
  | decodingError (message : Str)
deriving DecidableEq

def ProtocolError.display : ProtocolError → Str
  | .invalidMagic expected got =>
    "invalid magic bytes: expected 0x".toList ++ hex4 expected ++ ", got 0x".toList ++ hex4 got
  | .unsupportedVersion version =>
    "unsupported protocol version: ".toList ++ decimal version.toNat
  | .unknownFrameType value => "unknown frame type: ".toList ++ decimal value.toNat
  | .frameTooLarge size limit =>
    "frame too large: ".toList ++ decimal size ++ " > ".toList ++ decimal limit
  | .incompleteFrame needed available =>
    "incomplete frame: need ".toList ++ decimal needed ++ " bytes, have ".toList ++
      decimal available
  | .decodingError message => "decoding error: ".toList ++ message

inductive FrameType where
  | connect | connack | ping | pong | drain | drainack | pub | msg | sub | suback | unsub
  | unsuback | createStream | streamInfo | deleteStream | ack | nack | error
deriving DecidableEq

namespace FrameType

def asU8 : FrameType → UInt8
  | connect => 0x01
  | connack => 0x02
  | ping => 0x10
  | pong => 0x11
  | drain => 0x40
  | drainack => 0x41
  | pub => 0x20
  | msg => 0x21
  | sub => 0x30
  | suback => 0x31
  | unsub => 0x32
  | unsuback => 0x33
  | createStream => 0x60
  | streamInfo => 0x61
  | deleteStream => 0x62
  | ack => 0x50
  | nack => 0x51
  | error => 0xE0

def fromU8 (value : UInt8) : Except ProtocolError FrameType :=
  match value with
  | 0x01 => .ok connect
  | 0x02 => .ok connack
  | 0x10 => .ok ping
  | 0x11 => .ok pong
  | 0x40 => .ok drain
  | 0x41 => .ok drainack
  | 0x20 => .ok pub
  | 0x21 => .ok msg
  | 0x30 => .ok sub
  | 0x31 => .ok suback
  | 0x32 => .ok unsub
  | 0x33 => .ok unsuback
  | 0x60 => .ok createStream
  | 0x61 => .ok streamInfo
  | 0x62 => .ok deleteStream
  | 0x50 => .ok ack
  | 0x51 => .ok nack
  | 0xE0 => .ok error
  | _ => .error (.unknownFrameType value)

def debugName : FrameType → Str
  | connect => "Connect".toList
  | connack => "Connack".toList
  | ping => "Ping".toList
  | pong => "Pong".toList
  | drain => "Drain".toList
  | drainack => "Drainack".toList
  | pub => "Pub".toList
  | msg => "Msg".toList
  | sub => "Sub".toList
  | suback => "Suback".toList
  | unsub => "Unsub".toList
  | unsuback => "Unsuback".toList
  | createStream => "CreateStream".toList
  | streamInfo => "StreamInfo".toList
  | deleteStream => "DeleteStream".toList
  | ack => "Ack".toList
  | nack => "Nack".toList
  | error => "Error".toList

end FrameType

structure FrameHeader where
  magic : ℕ
  version : UInt8
  frameType : UInt8
  flags : ℕ
  correlationId : ℕ
  headerLen : ℕ
  payloadLen : ℕ
deriving DecidableEq

namespace FrameHeader

def new (frameType : UInt8) (correlationId : ℕ) : FrameHeader :=
  ⟨zetmqMagic, currentVersion, frameType, 0, correlationId, 0, 0⟩

def withPayloadSize (header : FrameHeader) (headerLen payloadLen : ℕ) : FrameHeader :=
  { header with headerLen := headerLen, payloadLen := payloadLen }

def encode (header : FrameHeader) : Bytes :=
  toBe 2 header.magic ++ [header.version, header.frameType] ++ toBe 2 header.flags ++
    toBe 8 header.correlationId ++ toBe 4 header.headerLen ++ toBe 4 header.payloadLen

def decode (buf : Bytes) : Except ProtocolError FrameHeader :=
  if buf.length < frameHeaderSize then .error (.incompleteFrame frameHeaderSize buf.length)
  else if beAt buf 0 2 ≠ zetmqMagic then .error (.invalidMagic zetmqMagic (beAt buf 0 2))
  else if byteAt buf 2 ≠ currentVersion then .error (.unsupportedVersion (byteAt buf 2))
  else .ok
    { magic := beAt buf 0 2
      version := byteAt buf 2
      frameType := byteAt buf 3
      flags := beAt buf 4 2
      correlationId := beAt buf 6 8
      headerLen := beAt buf 14 4
      payloadLen := beAt buf 18 4 }

end FrameHeader

structure Frame where
  header : FrameHeader
  headers : Bytes
  payload : Bytes
deriving DecidableEq

namespace Frame

def new (frameType : FrameType) (correlationId : ℕ) : Frame :=
  ⟨.new frameType.asU8 correlationId, [], []⟩

/-- The length fields are `u32`. -/
def withPayload (frame : Frame) (payload : Bytes) : Frame :=
  { frame with
    header := { frame.header with payloadLen := payload.length % 2 ^ 32 }
    payload := payload }

def withHeaders (frame : Frame) (headers : Bytes) : Frame :=
  { frame with
    header := { frame.header with headerLen := headers.length % 2 ^ 32 }
    headers := headers }

def encode (frame : Frame) : Bytes := frame.header.encode ++ frame.headers ++ frame.payload

def announced (buf : Bytes) : ℕ := frameHeaderSize + beAt buf 14 4 + beAt buf 18 4

/-- The result and the buffer that is left: a whole frame is taken off even when
its header turns out to be invalid. -/
def decodeFrom (buf : Bytes) (maxFrameSize : ℕ) : Except ProtocolError (Option Frame) × Bytes :=
  if buf.length < frameHeaderSize then (.ok none, buf)
  else
    let headerLen := beAt buf 14 4
    let payloadLen := beAt buf 18 4
    let total := announced buf
    if maxFrameSize < total then (.error (.frameTooLarge total maxFrameSize), buf)
    else if buf.length < total then (.ok none, buf)
    else
      let frameBytes := buf.take total
      match FrameHeader.decode (slice frameBytes 0 frameHeaderSize) with
      | .error e => (.error e, buf.drop total)
      | .ok header =>
        let headers := if 0 < headerLen
          then slice frameBytes frameHeaderSize (frameHeaderSize + headerLen) else []
        let payload := if 0 < payloadLen
          then slice frameBytes (frameHeaderSize + headerLen) total else []
        (.ok (some ⟨header, headers, payload⟩), buf.drop total)

end Frame

set_option maxRecDepth 2000 in
example : Frame.decodeFrom ((Frame.new .ping 7).encode ++ [0]) 64 =
    (.ok (some (Frame.new .ping 7)), [0]) := by decide

end ZetMQ.Frames
