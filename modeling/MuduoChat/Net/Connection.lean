import MuduoChat.Lib.Machine
import MuduoChat.Net.OutputCodec

/-!
# The output side of a TCP connection

A connection belongs to one loop thread.  Any thread may call `send`; it reserves room for the
message in a shared counter and hands the message to the loop thread, which writes it to the
socket or keeps what the socket does not take in the output buffer.  A thread that is told to
pause its production is woken by a callback when the counter falls to the resume mark, and a
timer closes a connection that stays full.

The model is a machine.  A step is what a thread does between two accesses to what it shares with
the others: the state of the connection, the counter of outstanding bytes and the queue of the
loop.  What the loop thread does to its own data in between belongs to the same step.

The callback is run by the loop thread in the middle of a function of the connection, and may itself
call `send` and `forceClose`.  The functions that wait for it to return are kept in a list.
-/

namespace MuduoChat

/-! ### Parameters -/

/-- The limits of the output side.  Limits that `setWriteBufferLimits` would not accept cannot be
built. -/
structure WriteBufferLimits where
  pauseReadBytes : ℕ := 16 * 1024 * 1024
  resumeReadBytes : ℕ := 8 * 1024 * 1024
  hardLimitBytes : ℕ := 64 * 1024 * 1024
  stallTimeout : ℕ := 5000
  resume_lt_pause : resumeReadBytes < pauseReadBytes := by decide
  resume_lt_hard : resumeReadBytes < hardLimitBytes := by decide
  hard_le : hardLimitBytes ≤ sizeMax := by decide

/-- The limits of a connection that is not given others. -/
def WriteBufferLimits.standard : WriteBufferLimits := {}

/-- Limits that are not accepted are ignored. -/
def setWriteBufferLimits (limits : WriteBufferLimits)
    (pauseReadBytes resumeReadBytes hardLimitBytes stallTimeout : ℕ)
    (hsize : hardLimitBytes ≤ sizeMax) : WriteBufferLimits :=
  if h : resumeReadBytes < pauseReadBytes ∧ resumeReadBytes < hardLimitBytes then
    { pauseReadBytes, resumeReadBytes, hardLimitBytes, stallTimeout
      resume_lt_pause := h.1
      resume_lt_hard := h.2
      hard_le := hsize }
  else limits

structure ConnectionConfig where
  limits : WriteBufferLimits := .standard
  codec : Option OutputCodec := none

/-- The bytes of a message on the wire. -/
def ConnectionConfig.frame? (cfg : ConnectionConfig) (message : List UInt8) :
    Option (List UInt8) :=
  match cfg.codec with
  | some codec => codec.frame? message
  | none => some message

/-- The room that is reserved for a message. -/
def ConnectionConfig.frameSize (cfg : ConnectionConfig) (message : List UInt8) : ℕ :=
  max 1 (match cfg.codec with
    | some codec => codec.encodedSize message.length
    | none => message.length)

/-! ### The state -/

inductive ConnectionState where
  | disconnected
  | connecting
  | connected
  | disconnecting
  deriving DecidableEq, Repr

inductive Disposition where
  | accepted
  | wouldBlock
  | closed
  | tooLarge
  deriving DecidableEq, Repr

inductive Pressure where
  | normal
  | pauseProducer
  deriving DecidableEq, Repr

structure SendOutcome where
  disposition : Disposition
  pressure : Pressure
  deriving DecidableEq, Repr

/-- A call of `send` in a thread other than the loop thread: it has found the connection to be
connected; it has reserved room; it has been refused and is about to have the stall timer
started. -/
inductive Caller where
  | checked (message : List UInt8)
  | reserved (message : List UInt8) (frameSize : ℕ)
  | refused
  deriving DecidableEq

/-- What waits in the queue of the loop. -/
inductive LoopFunctor where
  | sendInLoop (message : List UInt8) (frameSize : ℕ)
  | startStallTimer
  | forceCloseInLoop
  deriving DecidableEq

/-- What the loop thread is doing: nothing, a call of `send` of its own, or `sendInLoop` between
its look at the counter and its writing. -/
inductive LoopPhase where
  | idle
  | checked (message : List UInt8)
  | reserved (message : List UInt8) (frameSize : ℕ)
  | writing (message bytes : List UInt8) (frameSize : ℕ)
  deriving DecidableEq

/-- What the loop thread has still to do when the pressure callback returns: keep the rest of a frame,
or finish `handleWrite`. -/
inductive Interrupted where
  | sendInLoop (rest : List UInt8)
  | handleWrite
  deriving DecidableEq

/-- A connection that has been established.  The timer is given by the time at which it fires, and
`inside` has the functions that wait for the callback, the latest first.  The last four components
are about the surroundings: the time, the bytes that the socket has taken, the messages for which
`sendInLoop` has run, and the calls of the pressure callback. -/
structure TcpConnection where
  state : ConnectionState := .connected
  reading : Bool := true
  writing : Bool := false
  outstandingBytes : ℕ := 0
  lowWaterArmed : Bool := false
  stallTimer : Option ℕ := none
  outputBuffer : Buffer := .new
  callers : List Caller := []
  pendingFunctors : List LoopFunctor := []
  loop : LoopPhase := .idle
  inside : List Interrupted := []
  clock : ℕ := 0
  socket : List UInt8 := []
  ran : List (List UInt8) := []
  pressureCalls : ℕ := 0
  deriving DecidableEq

/-- What a call of `write` comes to: some bytes are taken, the socket is full, the other side is
gone, or there is another error. -/
inductive WriteResult where
  | wrote (n : ℕ)
  | wouldBlock
  | fault
  | error
  deriving DecidableEq, Repr

namespace TcpConnection

variable (cfg : ConnectionConfig)

/-! ### The counter -/

/-- Subtraction of 64-bit numbers. -/
def sub64 (a b : ℕ) : ℕ := (a + 2 ^ 64 - b % 2 ^ 64) % 2 ^ 64

/-- Reserve room, unless the hard limit would be passed.  The answer is the new value of the
counter, or the greatest number. -/
def tryReserve (n : ℕ) (c : TcpConnection) : ℕ × TcpConnection :=
  if c.outstandingBytes > cfg.limits.hardLimitBytes - n then (sizeMax, c)
  else
    (c.outstandingBytes + n, { c with outstandingBytes := c.outstandingBytes + n })

/-- The callback is called when the counter falls to the resume mark, if that is waited for. -/
def callsBack (n : ℕ) (c : TcpConnection) : Prop :=
  c.lowWaterArmed = true ∧ c.outstandingBytes > cfg.limits.resumeReadBytes ∧
    sub64 c.outstandingBytes n ≤ cfg.limits.resumeReadBytes

instance (n : ℕ) (c : TcpConnection) : Decidable (callsBack cfg n c) :=
  inferInstanceAs (Decidable (_ ∧ _))

/-- Give room back.  What the callback does is not part of this step. -/
def releaseOutstanding (n : ℕ) (c : TcpConnection) : TcpConnection :=
  let after := sub64 c.outstandingBytes n
  if callsBack cfg n c then
    { c with
      outstandingBytes := after
      lowWaterArmed := false
      pressureCalls := c.pressureCalls + 1 }
  else
    { c with outstandingBytes := after }

def resetOutstanding (c : TcpConnection) : TcpConnection :=
  { c with outstandingBytes := 0, lowWaterArmed := false }

/-- The part of `send` that reserves room for the message, and what `send` will return. -/
def reserve (message : List UInt8) (c : TcpConnection) : SendOutcome × TcpConnection :=
  let frameSize := cfg.frameSize message
  if frameSize > cfg.limits.hardLimitBytes then (⟨.tooLarge, .normal⟩, c)
  else
    let (after, c) := tryReserve cfg frameSize c
    if after = sizeMax then (⟨.wouldBlock, .pauseProducer⟩, c)
    else
      (⟨.accepted, if after > cfg.limits.pauseReadBytes then .pauseProducer else .normal⟩, c)

/-! ### The stall timer and the end of the connection -/

def startStallTimer (c : TcpConnection) : TcpConnection :=
  match c.stallTimer with
  | some _ => c
  | none => { c with stallTimer := some (c.clock + cfg.limits.stallTimeout) }

def cancelStallTimer (c : TcpConnection) : TcpConnection := { c with stallTimer := none }

/-- Stop reading when the buffer has grown to the pause mark. -/
def checkPause (c : TcpConnection) : TcpConnection :=
  if c.outputBuffer.readableBytes ≥ cfg.limits.pauseReadBytes ∧ c.reading = true then
    startStallTimer cfg { c with reading := false }
  else c

def forceCloseInLoop (c : TcpConnection) : TcpConnection :=
  let c := cancelStallTimer c
  if c.state = .connected ∨ c.state = .disconnecting then
    resetOutstanding { c with state := .disconnected, writing := false }
  else c

def handleClose (c : TcpConnection) : TcpConnection :=
  { cancelStallTimer c with state := .disconnected, writing := false }

def connectDestroyed (c : TcpConnection) : TcpConnection :=
  let c := if c.state = .connected then { c with state := .disconnected, writing := false } else c
  resetOutstanding (cancelStallTimer c)

/-! ### Writing -/

/-- The first part of `sendInLoop`: encode the message, and note that the counter is above the
resume mark if it is. -/
def sendInLoop (message : List UInt8) (frameSize : ℕ) (c : TcpConnection) : TcpConnection :=
  if c.state = .disconnected then releaseOutstanding cfg frameSize c
  else
    let encoded : EncodeResult × List UInt8 :=
      match cfg.codec with
      | some codec =>
        let r := codec.encode message .new
        (r.1, r.2.contents)
      | none => (.ok, message)
    if encoded.1 ≠ .ok then releaseOutstanding cfg frameSize c
    else
      { c with
        lowWaterArmed := c.lowWaterArmed ||
          decide (c.outstandingBytes > cfg.limits.resumeReadBytes)
        loop := .writing message encoded.2 frameSize }

/-- Keep what the socket has not taken. -/
def keep (bytes : List UInt8) (c : TcpConnection) : TcpConnection :=
  if 0 < bytes.length then
    checkPause cfg { c with outputBuffer := c.outputBuffer.append bytes, writing := true }
  else c

/-- The socket is written to directly if nothing is waiting to be written. -/
def direct (c : TcpConnection) : Prop := c.writing = false ∧ c.outputBuffer.readableBytes = 0

instance (c : TcpConnection) : Decidable c.direct := inferInstanceAs (Decidable (_ ∧ _))

/-- Read again when the buffer has drained to the resume mark. -/
def checkResume (c : TcpConnection) : TcpConnection :=
  if c.reading = false ∧ c.outputBuffer.readableBytes ≤ cfg.limits.resumeReadBytes then
    cancelStallTimer { c with reading := true }
  else c

/-- The rest of a function that has given room back. -/
def resume : Interrupted → TcpConnection → TcpConnection
  | .sendInLoop rest, c => keep cfg rest c
  | .handleWrite, c =>
    checkResume cfg (if c.outputBuffer.readableBytes = 0 then { c with writing := false } else c)

/-- Give room back in the middle of a function.  If the callback is called, the rest of the function
waits for it. -/
def releaseThen (n : ℕ) (k : Interrupted) (c : TcpConnection) : TcpConnection :=
  if callsBack cfg n c then { releaseOutstanding cfg n c with inside := k :: c.inside }
  else resume cfg k (releaseOutstanding cfg n c)

/-- The second part of `sendInLoop`.  The socket takes no more than it is handed. -/
def finishSend (bytes : List UInt8) (frameSize : ℕ) (r : WriteResult) (c : TcpConnection) :
    Option TcpConnection :=
  if c.direct then
    match r with
    | .wrote n =>
      if n ≤ bytes.length then
        some (releaseThen cfg (if bytes.length - n = 0 then frameSize else n)
          (.sendInLoop (bytes.drop n)) { c with socket := c.socket ++ bytes.take n })
      else none
    | .wouldBlock => some (keep cfg bytes c)
    | .error => some (keep cfg bytes c)
    | .fault => some c
  else some (keep cfg bytes c)

/-- The socket can take more. -/
def handleWrite (r : WriteResult) (c : TcpConnection) : Option TcpConnection :=
  if c.writing then
    match r with
    | .wrote n =>
      if n ≤ c.outputBuffer.readableBytes then
        if n > 0 then
          some (releaseThen cfg n .handleWrite
            { c with
              outputBuffer := c.outputBuffer.retrieve n
              socket := c.socket ++ c.outputBuffer.contents.take n })
        else some c
      else none
    | _ => some c
  else some c

/-! ### The machine -/

/-- The steps.  A thread other than the loop thread calls `send`, and later reserves room and puts
its message into the queue; the loop thread does the same for a call of its own, runs what is in
the queue, finishes a `sendInLoop`, handles an event, or returns from the callback. -/
inductive Act where
  | call (message : List UInt8)
  | reserve (k : ℕ)
  | post (k : ℕ)
  | callInLoop (message : List UInt8)
  | reserveInLoop
  | enter
  | run
  | write (r : WriteResult)
  | resume
  | handleWrite (r : WriteResult)
  | forceClose
  | forceCloseInLoop
  | handleClose
  | connectDestroyed
  | tick (ms : ℕ)
  | fireStall

/-- The place of a caller after its reservation. -/
def afterReserve (message : List UInt8) : Disposition → List Caller
  | .accepted => [.reserved message (cfg.frameSize message)]
  | .wouldBlock => [.refused]
  | _ => []

def replaceCaller (k : ℕ) (callers : List Caller) (c : TcpConnection) : TcpConnection :=
  { c with callers := c.callers.take k ++ callers ++ c.callers.drop (k + 1) }

/-- The next state.  In the callback, the loop thread can call `send` and `forceClose`; it comes to
the queue and to events when all functions have returned. -/
def next (c : TcpConnection) : Act → Option TcpConnection
  | .call message =>
    if c.state = .connected then some { c with callers := c.callers ++ [.checked message] }
    else some c
  | .reserve k =>
    match c.callers[k]? with
    | some (.checked message) =>
      let (outcome, c) := c.reserve cfg message
      some (c.replaceCaller k (afterReserve cfg message outcome.disposition))
    | _ => none
  | .post k =>
    match c.callers[k]? with
    | some (.reserved message frameSize) =>
      some { c.replaceCaller k [] with
        pendingFunctors := c.pendingFunctors ++ [.sendInLoop message frameSize] }
    | some .refused =>
      some { c.replaceCaller k [] with
        pendingFunctors := c.pendingFunctors ++ [.startStallTimer] }
    | _ => none
  | .callInLoop message =>
    match c.loop with
    | .idle => if c.state = .connected then some { c with loop := .checked message } else some c
    | _ => none
  | .reserveInLoop =>
    match c.loop with
    | .checked message =>
      let (outcome, c) := c.reserve cfg message
      match outcome.disposition with
      | .accepted => some { c with loop := .reserved message (cfg.frameSize message) }
      | .wouldBlock => some (startStallTimer cfg { c with loop := .idle })
      | _ => some { c with loop := .idle }
    | _ => none
  | .enter =>
    match c.loop with
    | .reserved message frameSize =>
      some (sendInLoop cfg message frameSize { c with loop := .idle })
    | _ => none
  | .run =>
    match c.loop, c.inside, c.pendingFunctors with
    | .idle, [], .sendInLoop message frameSize :: rest =>
      some (sendInLoop cfg message frameSize { c with pendingFunctors := rest })
    | .idle, [], .startStallTimer :: rest =>
      some (startStallTimer cfg { c with pendingFunctors := rest })
    | .idle, [], .forceCloseInLoop :: rest =>
      some (forceCloseInLoop { c with pendingFunctors := rest })
    | _, _, _ => none
  | .write r =>
    match c.loop with
    | .writing message bytes frameSize =>
      finishSend cfg bytes frameSize r
        { c with loop := .idle, ran := c.ran ++ [message] }
    | _ => none
  | .resume =>
    match c.loop, c.inside with
    | .idle, k :: inside => some (resume cfg k { c with inside := inside })
    | _, _ => none
  | .handleWrite r =>
    match c.loop, c.inside with
    | .idle, [] => handleWrite cfg r c
    | _, _ => none
  | .forceClose => some { c with pendingFunctors := c.pendingFunctors ++ [.forceCloseInLoop] }
  | .forceCloseInLoop =>
    match c.loop with
    | .idle => some c.forceCloseInLoop
    | _ => none
  | .handleClose =>
    match c.loop, c.inside with
    | .idle, [] => some c.handleClose
    | _, _ => none
  | .connectDestroyed =>
    match c.loop, c.inside with
    | .idle, [] => some c.connectDestroyed
    | _, _ => none
  | .tick ms => some { c with clock := c.clock + ms }
  | .fireStall =>
    match c.loop, c.inside, c.stallTimer with
    | .idle, [], some deadline => if deadline ≤ c.clock then some c.forceCloseInLoop else none
    | _, _, _ => none

def machine : Machine TcpConnection Act := ⟨next cfg⟩

end TcpConnection

end MuduoChat
