import Mathlib.Data.Nat.Basic

/-!
# The message types of the protocol (rpc.h)

The byte that opens every message after the handshake's first, in either direction.
-/

namespace SerialRpc

/-- `ProtocolVersion` (rpc.h:9). -/
def ProtocolVersion : UInt32 := 1

/-- `ClientMessageType::ClientHello` (rpc.h:27), which opens a session. -/
def clientHelloByte : UInt8 := 0xF1

/-- `enum ServerMessageType` (rpc.h:11-23). -/
inductive ServerMessageType where
  | reply
  | errorReply
  | event
  | log
  | unknown
  | tooBig
  | badMessage
  | fatalError
  | serverHello
  | serverGoodbye
deriving DecidableEq, Repr

/-- The enumerator's byte. -/
def ServerMessageType.toUInt8 : ServerMessageType → UInt8
  | .reply => 0xF0
  | .errorReply => 0xF1
  | .event => 0xF2
  | .log => 0xF3
  | .unknown => 0xF4
  | .tooBig => 0xF5
  | .badMessage => 0xF6
  | .fatalError => 0xF7
  | .serverHello => 0xF9
  | .serverGoodbye => 0xFA

/-- The enumerator of a byte. -/
def ServerMessageType.ofUInt8 (b : UInt8) : Option ServerMessageType :=
  [.reply, .errorReply, .event, .log, .unknown, .tooBig, .badMessage, .fatalError, .serverHello,
    .serverGoodbye].find? fun type => type.toUInt8 = b

theorem ServerMessageType.ofUInt8_toUInt8 (type : ServerMessageType) :
    ofUInt8 type.toUInt8 = some type := by
  cases type <;> decide

theorem ServerMessageType.toUInt8_of_ofUInt8 {b : UInt8} {type : ServerMessageType}
    (h : ofUInt8 b = some type) : type.toUInt8 = b := by
  rw [ofUInt8] at h
  simpa using List.find?_some h

end SerialRpc
