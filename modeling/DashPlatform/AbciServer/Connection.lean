import DashPlatform.Lib.Double
import DashPlatform.Lib.Runs
import DashPlatform.Lib.Varint
import DashPlatform.Merk.Basic

/-! # Connections of the ABCI server

A connection reads requests from a socket one after the other. Chunks of data arrive at any time, and the
handler of a request answers at any time. -/

inductive ConnectionError where
  | emptyRequest
  | maxRequestSize (size : Nat)
  | unableToParseRequest
deriving DecidableEq, Repr

/-- The messages of the protocol: how requests are decoded and responses are encoded. -/
structure AbciMessages (Request Response : Type) where
  decodeRequest : Buffer → Option Request
  encodeResponse : Response → Buffer

/-- What `readNextRequest` waits for. -/
inductive Reading (Request : Type) where
  | idle
  | handling (request : Request)
  /-- The response is written, and the request is left with the next task. -/
  | written
deriving DecidableEq

/-- A call of the handler, or a response that is written. -/
inductive ConnectionCall (Request Response : Type) where
  | handleRequest (request : Request)
  | write (response : Response)
deriving DecidableEq

structure Connection (Request Response : Type) where
  readerBuffer : Buffer
  isReading : Bool
  isClosing : Bool
  reading : Reading Request
  /-- The socket is paused. Data that is on its way may still arrive. -/
  isPaused : Bool
  /-- The error that the socket is destroyed with, `none` inside for none. -/
  destroyed : Option (Option ConnectionError)
  /-- What is written to the socket. -/
  output : List Buffer
  /-- What has been called so far. -/
  calls : List (ConnectionCall Request Response)

inductive ConnectionEvent (Response : Type) where
  | data (chunk : Buffer)
  /-- The handler answers. -/
  | respond (response : Response)
  /-- The handler rejects with a response. -/
  | responseException (response : Response)
  /-- The handler rejects with another error. -/
  | fail
  /-- The task behind the written response. -/
  | proceed
  | close

namespace Connection
variable {Request Response : Type} (messages : AbciMessages Request Response)

/-- `Connection.MAX_MESSAGE_SIZE` -/
def maxMessageSize : Nat := 104857600

def new : Connection Request Response where
  readerBuffer := []
  isReading := false
  isClosing := false
  reading := .idle
  isPaused := false
  destroyed := none
  output := []
  calls := []

/-- The number that `varint.decode` returns: its sum of seven bits each is exact up to 2 ^ 53. -/
def number (value : Nat) : Nat := if value ≤ 2 ^ 53 then value else ⌊Double.round value⌋.toNat

/-- `value >> 1`, on 32 bits with a sign. -/
def shiftRight (value : Nat) : Int := (BitVec.ofNat 32 (number value)).toInt / 2

/-- `length << 1`, as `varint.encode` takes it. -/
def shiftLeft (length : Nat) : Nat := (BitVec.ofNat 32 (2 * length)).toNat

/-- `slice(start, end)`, where a negative end is counted from the last byte. -/
def slice (bytes : Buffer) (start : Nat) (stop : Int) : Buffer :=
  (bytes.take (if stop < 0 then stop + bytes.length else stop).toNat).drop start

/-- `consume(count)`, which does nothing for a negative count. -/
def consume (bytes : Buffer) (count : Int) : Buffer := bytes.drop count.toNat

/-- The state is left in the middle of reading. -/
def destroy (self : Connection Request Response) (error : Option ConnectionError) : Connection Request Response :=
  { self with isReading := true, reading := .idle, destroyed := some error }

def write (self : Connection Request Response) (response : Response) : Connection Request Response :=
  let responseBuffer := messages.encodeResponse response
  { self with
    output := self.output ++ [Varint.encode (shiftLeft responseBuffer.length), responseBuffer]
    calls := self.calls ++ [.write response] }

/-- `readNextRequest`, up to the call of the handler. -/
def readNextRequest (self : Connection Request Response) : Connection Request Response :=
  if self.isClosing || self.isReading then self
  else
    match Varint.decode (self.readerBuffer.take 8) with
    -- buffering message, don't read yet
    | none => self
    | some (value, varintLength) =>
      let requestLength := shiftRight value
      if requestLength = 0 then self.destroy (some .emptyRequest)
      else if (maxMessageSize : Int) < requestLength then self.destroy (some (.maxRequestSize maxMessageSize))
      -- buffering message, don't read yet
      else if (self.readerBuffer.length : Int) < varintLength + requestLength then self
      else
        match messages.decodeRequest (slice self.readerBuffer varintLength (varintLength + requestLength)) with
        | none => self.destroy (some .unableToParseRequest)
        | some request =>
          { self with
            readerBuffer := consume self.readerBuffer (varintLength + requestLength)
            isReading := true
            reading := .handling request
            isPaused := true
            calls := self.calls ++ [.handleRequest request] }

/-- The end of `readNextRequest`, behind the written response. -/
def proceed (self : Connection Request Response) : Connection Request Response :=
  let self := { self with isReading := false, reading := .idle, isPaused := self.isPaused && self.isClosing }
  if self.readerBuffer.isEmpty then self else self.readNextRequest messages

/-- A destroyed socket gives no more data. -/
def step (self : Connection Request Response) : ConnectionEvent Response → Option (Connection Request Response)
  | .data chunk =>
    if self.destroyed.isSome then none
    else some ({ self with readerBuffer := self.readerBuffer ++ chunk }.readNextRequest messages)
  | .respond response =>
    match self.reading with
    | .handling _ => some { self.write messages response with reading := .written }
    | _ => none
  | .responseException response =>
    match self.reading with
    | .handling _ => some ((self.write messages response).destroy none)
    | _ => none
  | .fail =>
    match self.reading with
    -- nothing sets `isReading` back
    | .handling _ => some { self with reading := .idle }
    | _ => none
  | .proceed =>
    match self.reading with
    | .written => some (self.proceed messages)
    | _ => none
  | .close => some { self with isClosing := true, isPaused := true }

def Step (self : Connection Request Response) (event : ConnectionEvent Response)
    (next : Connection Request Response) : Prop := self.step messages event = some next

end Connection
