import Telegravim.Foundation.Cursor

set_option autoImplicit false

/-!
# The socket in the disguise of TLS

The socket starts with a greeting of the server, which has to carry the digest that its key gives. What follows are
records with payload. One buffer holds the greeting, the empty records that are skipped and the record that is read;
the place of the payload is kept as an offset and a limit. What is written is put into records in turn.

The plain socket below is the bytes that have come and have not been read yet. Each arrival queues a task, as do a check
of what comes behind the greeting, and an error that `read` finds. The result is `none` where an assertion fails or where
the reading of the greeting goes into itself more than twice.

## Main definitions

* `Tls.TlsSocket` — the socket.
* `Tls.readHello`, `Tls.checkNextPacket`, `Tls.read`, `Tls.write` — what the source does.
* `Tls.Session`, `Tls.step`, `Tls.run` — arrivals, tasks and calls in any order.
-/

namespace Tls

open Positional (bigEndian ofBigEndian)

def kHelloDigestLength : ℕ := 32

def kLengthSize : ℕ := 2

def kMaxServerHelloLength : ℕ := 65536

def kServerHelloPart1 : Bytes := [0x16, 0x03, 0x03]

def kServerHelloPart3 : Bytes := [0x14, 0x03, 0x03, 0x00, 0x01, 0x01, 0x17, 0x03, 0x03]

def kServerHelloDigestPosition : ℕ := 11

def kServerHeader : Bytes := [0x17, 0x03, 0x03]

def kClientPartSize : ℕ := 2878

def kClientPrefix : Bytes := [0x14, 0x03, 0x03, 0x00, 0x01, 0x01]

def kClientHeader : Bytes := [0x17, 0x03, 0x03]

def CheckPart (data check : Bytes) : Bool :=
  if data.length < check.length then false else data.take check.length = check

def ReadPartLength (data : Bytes) (offset : ℕ) : ℕ := ofBigEndian ((data.drop offset).take kLengthSize)

/-! ### The socket -/

inductive State where
  | NotConnected | Connecting | WaitingHello | Connected | Error
  deriving DecidableEq

/-- A task in the queue of the thread. -/
inductive Task where
  | plainReadyRead
  | checkNextPacket
  | handleError
  deriving DecidableEq

/-- What the socket tells its owner. -/
inductive Event where
  | connected
  | readyRead
  | syncTimeRequests
  | error
  deriving DecidableEq

/-- **The socket**, with what the plain socket holds, the tasks that wait, what was written and what was told. -/
structure TlsSocket where
  keyFromSecret : Bytes
  state : State
  incoming : Bytes
  incomingGoodDataOffset : ℕ
  incomingGoodDataLimit : ℕ
  serverHelloLength : ℕ
  available : Bytes
  queue : List Task
  written : Bytes
  events : List Event
  deriving DecidableEq

def fire (socket : TlsSocket) (event : Event) : TlsSocket := { socket with events := socket.events ++ [event] }

def invokeQueued (socket : TlsSocket) (task : Task) : TlsSocket := { socket with queue := socket.queue ++ [task] }

def isConnected (socket : TlsSocket) : Bool := socket.state = .Connected

def hasBytesAvailable (socket : TlsSocket) : Bool :=
  socket.incomingGoodDataLimit > 0 ∧ socket.incomingGoodDataOffset < socket.incoming.length

def handleError (socket : TlsSocket) : TlsSocket :=
  let socket := if socket.state ≠ .Connected then fire socket .syncTimeRequests else socket
  fire { socket with state := .Error } .error

/-- The buffer without its first bytes. No payload may be marked in it. -/
def shiftIncomingBy (socket : TlsSocket) (amount : ℕ) : Option TlsSocket :=
  if socket.incomingGoodDataOffset ≠ 0 ∨ socket.incomingGoodDataLimit ≠ 0 then none
  else if socket.incoming.length > amount then some { socket with incoming := socket.incoming.drop amount }
  else some { socket with incoming := [] }

/-! ### The greeting of the server -/

section Hello

variable (HmacSha256 : Bytes → Bytes → Bytes)

def requiredHelloPartReady (socket : TlsSocket) : Bool :=
  socket.incoming.length ≥ kHelloDigestLength + socket.serverHelloLength

def checkHelloDigest (socket : TlsSocket) : Option TlsSocket :=
  if socket.serverHelloLength < kServerHelloDigestPosition + kHelloDigestLength then some (handleError socket)
  else
    let fulldata := socket.incoming.take (kHelloDigestLength + socket.serverHelloLength)
    let before := fulldata.take (kHelloDigestLength + kServerHelloDigestPosition)
    let digest := (fulldata.drop (kHelloDigestLength + kServerHelloDigestPosition)).take kHelloDigestLength
    let behind := fulldata.drop (kHelloDigestLength + kServerHelloDigestPosition + kHelloDigestLength)
    let zeroed := before ++ List.replicate kHelloDigestLength 0 ++ behind
    let rest := socket.incoming.drop (kHelloDigestLength + socket.serverHelloLength)
    let socket := { socket with incoming := zeroed ++ rest }
    if digest ≠ HmacSha256 socket.keyFromSecret zeroed then some (handleError socket)
    else
      (shiftIncomingBy socket fulldata.length).map fun socket =>
        let socket := if socket.incoming ≠ [] then invokeQueued socket .checkNextPacket else socket
        fire { socket with incomingGoodDataOffset := 0, incomingGoodDataLimit := 0, state := .Connected } .connected

/-- The third and the fourth part of the greeting. -/
def checkHelloParts34 (readHello : TlsSocket → Option TlsSocket) (socket : TlsSocket) (parts123Size : ℕ) :
    Option TlsSocket :=
  let data := (socket.incoming.drop kHelloDigestLength).take parts123Size
  let part4Size := ReadPartLength data (parts123Size - kLengthSize)
  let full := parts123Size + part4Size
  if full > kMaxServerHelloLength then some (handleError socket)
  else if socket.serverHelloLength = parts123Size then
    let part3Offset := parts123Size - kLengthSize - kServerHelloPart3.length
    if CheckPart (data.drop part3Offset) kServerHelloPart3 = false then some (handleError socket)
    else
      let socket := { socket with serverHelloLength := full }
      if requiredHelloPartReady socket = false then readHello socket else checkHelloDigest HmacSha256 socket
  else checkHelloDigest HmacSha256 socket

/-- The first and the second part of the greeting. -/
def checkHelloParts12 (readHello : TlsSocket → Option TlsSocket) (socket : TlsSocket) (parts1Size : ℕ) :
    Option TlsSocket :=
  let data := (socket.incoming.drop kHelloDigestLength).take parts1Size
  let part2Size := ReadPartLength data (parts1Size - kLengthSize)
  let parts123Size := parts1Size + part2Size + kServerHelloPart3.length + kLengthSize
  if parts123Size > kMaxServerHelloLength then some (handleError socket)
  else if socket.serverHelloLength = parts1Size then
    let part1Offset := parts1Size - kLengthSize - kServerHelloPart1.length
    if CheckPart (data.drop part1Offset) kServerHelloPart1 = false then some (handleError socket)
    else
      let socket := { socket with serverHelloLength := parts123Size }
      if requiredHelloPartReady socket = false then readHello socket
      else checkHelloParts34 HmacSha256 readHello socket parts123Size
  else checkHelloParts34 HmacSha256 readHello socket parts123Size

/-- More is read off the plain socket while the part that is required has not come, as long as there is more. -/
def fill (socket : TlsSocket) : TlsSocket :=
  if requiredHelloPartReady socket then socket
  else { socket with incoming := socket.incoming ++ socket.available, available := [] }

/-- **The greeting is read**, as far as it has come. The number bounds how often this goes into itself. -/
def readHello : ℕ → TlsSocket → Option TlsSocket
  | 0, _ => none
  | depth + 1, socket =>
    let parts1Size := kServerHelloPart1.length + kLengthSize
    let socket := if socket.serverHelloLength = 0 then { socket with serverHelloLength := parts1Size } else socket
    let socket := fill socket
    if requiredHelloPartReady socket = false then some socket
    else checkHelloParts12 HmacSha256 (readHello depth) socket parts1Size

end Hello

/-! ### Records -/

/-- The loop over the records from an offset on: empty ones are skipped. -/
def checkNextPacketFrom (socket : TlsSocket) (offset : ℕ) : Option (Bool × TlsSocket) :=
  if socket.incomingGoodDataLimit ≠ 0 then some (true, socket)
  else
    let fullHeader := kServerHeader.length + kLengthSize
    if socket.incoming.length ≤ offset + fullHeader then some (true, socket)
    else if CheckPart (socket.incoming.drop offset) kServerHeader = false then some (false, socket)
    else
      let length := ReadPartLength socket.incoming (offset + kServerHeader.length)
      if length > 0 then
        (if offset > 0 then shiftIncomingBy socket offset else some socket).map fun socket =>
          (true, { socket with incomingGoodDataOffset := fullHeader, incomingGoodDataLimit := length })
      else checkNextPacketFrom socket (offset + (kServerHeader.length + kLengthSize + length))
termination_by socket.incoming.length - offset
decreasing_by
  have hlength : 0 < kServerHeader.length := by decide
  omega

/-- **The next record is marked** in the buffer, if none is and its header has come. -/
def checkNextPacket (socket : TlsSocket) : Option (Bool × TlsSocket) := checkNextPacketFrom socket 0

def readData (socket : TlsSocket) : Option TlsSocket :=
  if isConnected socket = false then some socket
  else
    (checkNextPacket { socket with incoming := socket.incoming ++ socket.available, available := [] }).map
      fun (ok, socket) =>
        if ok = false then handleError socket
        else if hasBytesAvailable socket then fire socket .readyRead
        else socket

/-- **Payload is read** into a buffer of so many bytes. -/
def read (socket : TlsSocket) (size : ℕ) : Option (Bytes × TlsSocket) :=
  if socket.incomingGoodDataLimit = 0 then some ([], socket)
  else
    let available := min socket.incomingGoodDataLimit (socket.incoming.length - socket.incomingGoodDataOffset)
    if available = 0 then some ([], socket)
    else
      let write := min available size
      if write = 0 then some ([], socket)
      else
        let copied := (socket.incoming.drop socket.incomingGoodDataOffset).take write
        let limit := socket.incomingGoodDataLimit - write
        let offset := socket.incomingGoodDataOffset + write
        if limit ≠ 0 then
          some (copied, { socket with incomingGoodDataLimit := limit, incomingGoodDataOffset := offset })
        else
          match shiftIncomingBy { socket with incomingGoodDataLimit := limit, incomingGoodDataOffset := 0 } offset with
          | none => none
          | some shifted =>
            match checkNextPacket shifted with
            | none => none
            | some (false, socket) => some (copied, invokeQueued { socket with state := .Error } .handleError)
            | some (true, socket) => (read socket (size - write)).map fun (more, socket) => (copied ++ more, socket)
termination_by size

/-- The records for a buffer, the first of them with what comes before it. -/
def writeParts (start buffer : Bytes) : Bytes :=
  if buffer = [] then []
  else
    let write := min (Cursor.difference kClientPartSize start.length) buffer.length
    kClientHeader ++ bigEndian kLengthSize (start.length + write) ++ start ++ buffer.take write ++
      writeParts [] (buffer.drop write)
termination_by start.length + buffer.length
decreasing_by
  rename_i hbuffer
  have hpositive := List.length_pos_iff.mpr hbuffer
  rw [List.length_drop, List.length_nil]
  rcases start with - | ⟨byte, start⟩
  · have hwrite : Cursor.difference kClientPartSize ([] : Bytes).length = 2878 := rfl
    omega
  · rw [List.length_cons]
    omega

/-- **A buffer is written**, with a start before it. There has to be a buffer. -/
def write (socket : TlsSocket) (start buffer : Bytes) : Option TlsSocket :=
  if buffer = [] then none
  else if isConnected socket = false then some socket
  else
    some { socket with
      written := socket.written ++ (if start = [] then [] else kClientPrefix) ++ writeParts start buffer }

/-! ### Sessions -/

/-- A session: the socket, all that has come, all that `read` has returned, and all that `write` has been given while
the socket was connected. -/
structure Session where
  socket : TlsSocket
  received : Bytes
  returned : Bytes
  sent : Bytes

/-- A socket that has sent its greeting with a digest. -/
def waiting (keyFromSecret digest : Bytes) : TlsSocket where
  keyFromSecret := keyFromSecret
  state := .WaitingHello
  incoming := digest
  incomingGoodDataOffset := 0
  incomingGoodDataLimit := 0
  serverHelloLength := 0
  available := []
  queue := []
  written := []
  events := []

def start (keyFromSecret digest : Bytes) : Session := ⟨waiting keyFromSecret digest, [], [], []⟩

/-- What may happen: bytes come, the next task runs, or the owner reads or writes. -/
inductive Op where
  | receive (chunk : Bytes)
  | turn
  | read (size : ℕ)
  | write (start buffer : Bytes)

section Session

variable (HmacSha256 : Bytes → Bytes → Bytes)

def plainReadyRead (socket : TlsSocket) : Option TlsSocket :=
  match socket.state with
  | .WaitingHello => readHello HmacSha256 3 socket
  | .Connected => readData socket
  | _ => some socket

def runTask (socket : TlsSocket) : Task → Option TlsSocket
  | .plainReadyRead => plainReadyRead HmacSha256 socket
  | .checkNextPacket =>
    (checkNextPacket socket).map fun (ok, socket) => if ok = false then handleError socket else socket
  | .handleError => some (handleError socket)

def step (session : Session) : Op → Option Session
  | .receive chunk =>
    some { session with
      socket := invokeQueued { session.socket with available := session.socket.available ++ chunk } .plainReadyRead
      received := session.received ++ chunk }
  | .turn =>
    match session.socket.queue with
    | [] => some session
    | task :: tasks =>
      (runTask HmacSha256 { session.socket with queue := tasks } task).map fun socket =>
        { session with socket := socket }
  | .read size =>
    (read session.socket size).map fun (bytes, socket) =>
      { session with socket := socket, returned := session.returned ++ bytes }
  | .write start buffer =>
    (write session.socket start buffer).map fun socket =>
      { session with
        socket := socket
        sent := session.sent ++ if isConnected session.socket then start ++ buffer else [] }

/-- **What happens in some order.** -/
def run (session : Session) (ops : List Op) : Option Session := ops.foldlM (step HmacSha256) session

end Session

end Tls
