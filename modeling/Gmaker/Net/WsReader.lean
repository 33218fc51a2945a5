import Gmaker.Lib.WebSocket
import Gmaker.Net.RingBuffer

/-!
# Gmaker.Net.WsReader — the read side of a WebSocket connection

`OnDataReceived` and `ProcessWSFrames` after the handshake: the read buffer, the message
that is being put together from fragments, and what a protocol error and a close frame
leave behind. A frame that is refused stays at the front of the buffer, and so is refused
again each time more bytes come, until the connection is closed.

`AsyncEventLoop::Post` runs its task at once on the loop's own thread, so that a message
callback that closes the connection, or a pong that cannot be written, closes it in the
middle of the loop. What callbacks and writes do to the connection is an `Env`, given
everything that has been handled so far.
-/

namespace Gmaker.Net.WsReader

open Gmaker.Lib
open Gmaker.Lib.WebSocket (Kind Output Part)

/-! ## Constants -/

def opcodeContinuation : UInt8 := 0x0
def opcodeText : UInt8 := 0x1
def opcodeBinary : UInt8 := 0x2
def opcodeClose : UInt8 := 0x8
def opcodePing : UInt8 := 0x9
def opcodePong : UInt8 := 0xA

/-- `MAX_READ_BUF_BYTES`. -/
def maxReadBufBytes : ℕ := 64 * 1024 * 1024
/-- `MAX_MESSAGE_BYTES`. -/
def maxMessageBytes : ℕ := 16 * 1024 * 1024
/-- `SIZE_MAX`. -/
def sizeMax : ℕ := 2 ^ 64 - 1

/-! ## Frames of the server -/

/-- `EncodeWSFrameHeader`: the server does not mask. -/
def encodeWSFrameHeader (opcode : UInt8) (payloadLen : ℕ) : Bytes :=
  (0x80 ||| (opcode &&& 0x0F)) ::
    (if payloadLen < 126 then [UInt8.ofNat payloadLen]
     else if payloadLen ≤ 0xFFFF then 126 :: toBE 2 payloadLen
     else 127 :: toBE 8 payloadLen)

/-- `EncodeWSFrame`. -/
def encodeWSFrame (opcode : UInt8) (payload : Bytes) : Bytes :=
  encodeWSFrameHeader opcode payload.length ++ payload

/-- `EncodeWSCloseFrame`, without a reason. -/
def encodeWSCloseFrame (code : UInt16) : Bytes := encodeWSFrame opcodeClose (writeU16BE code)

/-- `EncodeWSPongFrame`. -/
def encodeWSPongFrame (payload : Bytes) : Bytes := encodeWSFrame opcodePong (payload.take 125)

/-! ## The header of a frame -/

/-- `WSFrame`. -/
structure WSFrame where
  fin : Bool
  opcode : UInt8
  masked : Bool
  payloadLen : ℕ
  maskKey : Bytes

/-- `UnmaskWSPayload`. -/
def unmaskWSPayload (payload maskKey : Bytes) : Bytes :=
  payload.mapIdx fun i b => b ^^^ maskKey.getD (i &&& 3) 0

/-- The length of the payload and of the header in front of the key, or what is wrong. -/
inductive Length where
  | wait
  | fail (code : UInt16)
  | known (payloadLen headerLen : ℕ)

/-- `payload_len = (payload_len << 8) | ext[i]`, over the bytes. -/
def shiftIn (ext : Bytes) : ℕ := ext.foldl (fun payloadLen b => payloadLen <<< 8 ||| b.toNat) 0

/-- The extended payload length. -/
def extendedLength (wsReadBuf : RingBuffer) (payloadLen : ℕ) : Length :=
  if payloadLen = 126 then
    if wsReadBuf.size < 4 then .wait
    else
      let payloadLen := shiftIn (wsReadBuf.readAt 2 2)
      if payloadLen < 126 then .fail 1002 else .known payloadLen 4
  else if payloadLen = 127 then
    if wsReadBuf.size < 10 then .wait
    else
      let ext := wsReadBuf.readAt 2 8
      if ext.getD 0 0 &&& 0x80 ≠ 0 then .fail 1002
      else
        let payloadLen := shiftIn ext
        if payloadLen < 65536 then .fail 1002 else .known payloadLen 10
  else .known payloadLen 2

/-- Whether the opcode is one of the six. -/
def isKnownOpcode (opcode : UInt8) : Bool :=
  opcode == opcodeContinuation || opcode == opcodeText || opcode == opcodeBinary ||
    opcode == opcodeClose || opcode == opcodePing || opcode == opcodePong

/-- `IsControlOpcode`. -/
def isControlOpcode (opcode : UInt8) : Bool :=
  opcode == opcodeClose || opcode == opcodePing || opcode == opcodePong

/-- `IsMessageOpcode`. -/
def isMessageOpcode (opcode : UInt8) : Bool := opcode == opcodeText || opcode == opcodeBinary

/-- `ToMessageType`. -/
def toMessageType (opcode : UInt8) : Kind := if opcode = opcodeText then .text else .binary

/-- What the front of the buffer is: a part of a frame, none, or one with its header's
length. -/
inductive Front where
  | wait
  | fail (code : UInt16)
  | ready (frame : WSFrame) (headerLen : ℕ)

/-- A pass of `ProcessWSFrames`, up to where the frame is known to be complete and of a
known kind. -/
def readFront (wsReadBuf : RingBuffer) : Front :=
  if wsReadBuf.size < 2 then .wait
  else
    let hdr := wsReadBuf.readAt 0 2
    let hdr0 := hdr.getD 0 0
    let hdr1 := hdr.getD 1 0
    let masked := hdr1 &&& 0x80 ≠ 0
    if hdr0 &&& 0x70 ≠ 0 ∨ ¬masked then .fail 1002
    else
      match extendedLength wsReadBuf (hdr1 &&& 0x7F).toNat with
      | .wait => .wait
      | .fail code => .fail code
      | .known payloadLen headerLen =>
        let headerLen := headerLen + 4
        if maxMessageBytes < payloadLen ∨ sizeMax - headerLen < payloadLen then .fail 1009
        else if wsReadBuf.size < headerLen + payloadLen then .wait
        else
          let fin := decide (hdr0 &&& 0x80 ≠ 0)
          let opcode := hdr0 &&& 0x0F
          if isKnownOpcode opcode = false then .fail 1002
          else if isControlOpcode opcode = true ∧ (fin = false ∨ 125 < payloadLen) then .fail 1002
          else
            .ready
              { fin
                opcode
                masked := true
                payloadLen
                maskKey := wsReadBuf.readAt (headerLen - 4) 4 }
              headerLen

/-! ## The connection -/

/-- `WebSocketConnection::State`, after the handshake. -/
inductive State where
  | connected
  | closing
  | closed
deriving DecidableEq

/-- What a callback, or the write of a frame, does to the connection: nothing;
`CloseAfterWrite` with a write under way; or `DoClose` has run before it returns. -/
inductive Reaction where
  | stay
  | drain
  | close
deriving DecidableEq

/-- The message callback and the writes: `react` is what the last of what has been handled
leads to, `closeWritten` whether the write of a close frame can be begun. -/
structure Env where
  react : List Output → Reaction
  closeWritten : Bool

/-- `WebSocketConnection`. `queued` is all that was given to `QueueFrame`, `handled` the
messages that were delivered and the pings that were answered. -/
structure Conn where
  state : State := .connected
  closed : Bool := false
  closing : Bool := false
  closeAfterWrite : Bool := false
  handle : Bool := true
  wsReadBuf : RingBuffer
  fragmenting : Bool := false
  fragmentedOpcode : UInt8 := 0
  fragmentedPayload : Bytes := []
  pingOutstanding : Bool := false
  queued : List Bytes := []
  handled : List Output := []

namespace Conn

/-- `DoClose`. -/
def doClose (c : Conn) : Conn := { c with closing := true, state := .closing }

def react (c : Conn) : Reaction → Conn
  | .stay => c
  | .drain => { c with closed := true, closeAfterWrite := true }
  | .close => { c with closed := true }.doClose

/-- `QueueFrame`. -/
def queueFrame (c : Conn) (frame : Bytes) : Conn :=
  if c.closed ∨ c.closing ∨ c.handle = false then c
  else { c with queued := c.queued ++ [frame] }

/-- `Close`, up to its `Post`. -/
def close (c : Conn) : Conn :=
  if c.closed then c else { c with closed := true, closing := true }

/-- `CloseAfterWrite`, up to its `Post`. -/
def callCloseAfterWrite (c : Conn) : Conn :=
  if c.closed ∨ c.closing ∨ c.closeAfterWrite ∨ c.handle = false then c
  else { c with closed := true, closeAfterWrite := true }

/-- `SendCloseAndDrain`. -/
def sendCloseAndDrain (env : Env) (c : Conn) (code : UInt16) : Conn :=
  if c.closed ∨ c.closing then c
  else if c.handle then
    let c := { c.queueFrame (encodeWSCloseFrame code) with closed := true, closeAfterWrite := true }
    if env.closeWritten then c else c.doClose
  else c.close.doClose

/-- `FailProtocol`. -/
def failProtocol (env : Env) (c : Conn) (code : UInt16) : Conn := c.sendCloseAndDrain env code

/-- `ws_read_buf_.Consume`. -/
def consume (c : Conn) (len : ℕ) : Conn := { c with wsReadBuf := c.wsReadBuf.consume len }

/-- `on_message_`. -/
def onMessage (env : Env) (c : Conn) (kind : Kind) (msg : Bytes) : Conn :=
  let handled := c.handled ++ [.message kind msg]
  { c with handled }.react (env.react handled)

/-- A ping is answered with a pong. -/
def answerPing (env : Env) (c : Conn) (controlData : Bytes) : Conn :=
  let handled := c.handled ++ [.ping controlData]
  ({ c with handled }.queueFrame (encodeWSPongFrame controlData)).react (env.react handled)

/-! ## The frame loop -/

/-- What a pass does with a complete frame; `true` is `continue`, `false` is `return`. -/
def takeFrame (env : Env) (c : Conn) (frame : WSFrame) (headerLen : ℕ) : Bool × Conn :=
  let totalLen := headerLen + frame.payloadLen
  let payload := unmaskWSPayload (c.wsReadBuf.readAt headerLen frame.payloadLen) frame.maskKey
  if isControlOpcode frame.opcode then
    if frame.opcode = opcodeClose then (false, c.sendCloseAndDrain env 1000)
    else if frame.opcode = opcodePing then (true, (c.answerPing env payload).consume totalLen)
    else (true, { c with pingOutstanding := false }.consume totalLen)
  else if isMessageOpcode frame.opcode then
    if c.fragmenting then (false, c.failProtocol env 1002)
    else if frame.fin then
      (true, (c.consume totalLen).onMessage env (toMessageType frame.opcode) payload)
    else
      (true, { c with
        fragmenting := true
        fragmentedOpcode := frame.opcode
        fragmentedPayload := payload }.consume totalLen)
  else if frame.opcode = opcodeContinuation then
    if c.fragmenting = false then (false, c.failProtocol env 1002)
    else if maxMessageBytes < c.fragmentedPayload.length + frame.payloadLen then
      (false, c.failProtocol env 1009)
    else if frame.fin then
      let msg := c.fragmentedPayload ++ payload
      let msgType := toMessageType c.fragmentedOpcode
      (true, ({ c with
        fragmenting := false
        fragmentedOpcode := 0
        fragmentedPayload := [] }.consume totalLen).onMessage env msgType msg)
    else
      (true, { c with fragmentedPayload := c.fragmentedPayload ++ payload }.consume totalLen)
  else (false, c.failProtocol env 1002)

/-- One pass of the loop. -/
def pass (env : Env) (c : Conn) : Bool × Conn :=
  match readFront c.wsReadBuf with
  | .wait => (false, c)
  | .fail code => (false, c.failProtocol env code)
  | .ready frame headerLen => c.takeFrame env frame headerLen

/-- `ProcessWSFrames`: a pass that goes on consumes a frame, so that one more than the
bytes in the buffer is enough of `passes`. -/
def processWSFrames (env : Env) : ℕ → Conn → Conn
  | 0, c => c
  | passes + 1, c =>
    if c.state = .connected then
      let r := c.pass env
      if r.1 then processWSFrames env passes r.2 else r.2
    else c

/-- `OnDataReceived`, after the handshake. -/
def onDataReceived (env : Env) (c : Conn) (data : Bytes) : Conn :=
  if c.state = .connected then
    if maxReadBufBytes < c.wsReadBuf.size + data.length then c.failProtocol env 1009
    else
      let c := { c with wsReadBuf := c.wsReadBuf.append data }
      processWSFrames env (c.wsReadBuf.size + 1) c
  else c

/-- `CheckLiveness`, when it is time for a ping. -/
def checkLiveness (c : Conn) : Conn :=
  if c.closed ∨ c.closing ∨ c.state ≠ .connected ∨ c.pingOutstanding then c
  else { c.queueFrame (encodeWSFrame opcodePing []) with pingOutstanding := true }

/-- `OnCloseDone`, after `DoClose`. -/
def onCloseDone (c : Conn) : Conn :=
  if c.state = .closing then { c with handle := false, state := .closed } else c

end Conn

/-- The end of the handshake: `rest` came in one read with the request. -/
def afterHandshake (env : Env) (rest : Bytes) : Conn :=
  let wsReadBuf := RingBuffer.new RingBuffer.defaultCap (by decide)
  let c : Conn := { wsReadBuf := if rest ≠ [] then wsReadBuf.append rest else wsReadBuf }
  c.processWSFrames env (c.wsReadBuf.size + 1)

/-! ## Runs -/

/-- What happens to the connection. The calls from other threads are cut where they post;
`doClose` is what they post, what a failed write leads to, and what the last write of a
connection that drains leads to. -/
inductive Event where
  | data (chunk : Bytes)
  | send (frame : Bytes)
  | ping
  | close
  | closeAfterWrite
  | doClose
  | closeDone

def step (env : Env) (c : Conn) : Event → Conn
  | .data chunk => c.onDataReceived env chunk
  | .send frame => c.queueFrame frame
  | .ping => c.checkLiveness
  | .close => c.close
  | .closeAfterWrite => c.callCloseAfterWrite
  | .doClose => c.doClose
  | .closeDone => c.onCloseDone

def run (env : Env) : Conn → List Event → Conn := List.foldl (step env)

/-- The bytes an event brings. -/
def Event.bytes : Event → Bytes
  | .data chunk => chunk
  | _ => []

/-- The bytes that come before the connection is closed. -/
def received (env : Env) : Conn → List Event → Bytes
  | _, [] => []
  | c, e :: es => (if c.state = .connected then e.bytes else []) ++ received env (step env c e) es

end Gmaker.Net.WsReader
