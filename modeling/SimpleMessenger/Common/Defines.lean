import SimpleMessenger.Foundations.CMemory

/-!
# The data types of `defines.hpp` and `proto_defines.proto`

Both sides of the message codec: the raw structures that the program copies
byte by byte, and the protobuf messages generated from the schema.  An
enumeration of the raw side has a fixed underlying byte, so every byte is one of
its values; an enumeration of the schema is open and travels as a 32-bit
integer.  A protobuf submessage may be absent, and its accessor then reads the
default message.

Main results:

- Theorem {lit}`sizeofPayload_eq`: the text array of an envelope has 976 bytes.
-/

namespace SimpleMessenger

open CMemory

/-! ## Raw structures -/

abbrev UserID := UInt64
abbrev Timestamp := UInt32

/-- `enum DataType : uint8_t` -/
structure DataType where
  raw : UInt8
deriving DecidableEq

def DataType.TextMessage : DataType := ⟨0⟩
def DataType.FileMessage : DataType := ⟨1⟩

/-- `enum MessageType : uint8_t` -/
structure MessageType where
  raw : UInt8
deriving DecidableEq

def MessageType.UserMessage : MessageType := ⟨0⟩
def MessageType.ServiceMessage : MessageType := ⟨1⟩
def MessageType.AckMessage : MessageType := ⟨2⟩

structure Header where
  payloadSize : UInt64 := 0
  totalSize : UInt64 := 0
  messageType : MessageType := ⟨0⟩
  timestamp : Timestamp := 0
deriving DecidableEq

structure EnvelopeMeta where
  header : Header := {}
  type : DataType := ⟨0⟩
  senderId : UserID := 0
  recepientId : UserID := 0
deriving DecidableEq

/-- `sizeof(Header)`, from the sizes and alignments of its four members. -/
def sizeofHeader : Nat :=
  structSize [(8, 8), (8, 8), (1, 1), (4, 4)]

/-- `sizeof(EnvelopeMeta)` -/
def sizeofEnvelopeMeta : Nat :=
  structSize [(sizeofHeader, 8), (1, 1), (8, 8), (8, 8)]

/-- `Envelope::size` -/
def Envelope.size : Nat := 1024

/-- `sizeof(Envelope::payload)` -/
def sizeofPayload : Nat :=
  Envelope.size - sizeofEnvelopeMeta

theorem sizeofPayload_eq : sizeofPayload = 976 :=
  rfl

structure Envelope where
  metaData : EnvelopeMeta
  payload : CharArray sizeofPayload
deriving DecidableEq

/-- `Envelope raw_env{}` -/
def Envelope.zero : Envelope where
  metaData := {}
  payload := CharArray.zeros sizeofPayload

/-- Size of each of the two arrays of `UserCredentials`. -/
def sizeofCredential : Nat := 256

structure UserCredentials where
  email : CharArray sizeofCredential
  password : CharArray sizeofCredential
deriving DecidableEq

/-! ## Messages of the schema -/

namespace ProtobufItf

def TextMessage : Int32 := 0
def FileMessage : Int32 := 1

def UserMessage : Int32 := 0
def ServiceMessage : Int32 := 1
def AckMessage : Int32 := 2

structure Header where
  payloadSize : UInt64 := 0
  totalSize : UInt64 := 0
  messageType : Int32 := 0
  timestamp : UInt32 := 0
deriving DecidableEq

structure EnvelopeMeta where
  header? : Option Header := none
  type : Int32 := 0
  senderId : UInt64 := 0
  recepientId : UInt64 := 0
deriving DecidableEq

structure Envelope where
  metaData? : Option EnvelopeMeta := none
  payload : Bytes := []
deriving DecidableEq

structure UserCredentials where
  email : Bytes := []
  password : Bytes := []
deriving DecidableEq

/-- The accessor `header()`, and the message that `mutable_header()` starts
from. -/
def EnvelopeMeta.header (m : EnvelopeMeta) : Header :=
  m.header?.getD {}

/-- The accessor `meta_data()`, and the message that `mutable_meta_data()`
starts from. -/
def Envelope.metaData (p : Envelope) : EnvelopeMeta :=
  p.metaData?.getD {}

end ProtobufItf

end SimpleMessenger
