import Mathlib.Algebra.Group.Int.Defs
import Mathlib.Data.Finset.Dedup
import Mathlib.Logic.Function.Basic
import Mocha.Assoc
import Mocha.CameraMetadata
import Mocha.Transition

/-!
# The camera HAL3.0 adapter

The adapter between a HAL3.2 client and the stock HAL3.0 device. The request
thread holds `requestMutex` for a whole call and stands between two calls to the
stock device or to gralloc; a stock callback holds `callbackMutex` and stands
between its locked section and the client's answers. Locked sections of
`stateMutex` are single steps.

Objects on the heap are named by numbers that are never used again. The fields
`entry`, `requested` and `log` are history. No step reads them.
-/
namespace Camera3

open CameraMetadata

def einval : Int := 22
def enomem : Int := 12
def enodev : Int := 19
def ebusy : Int := 16
def enosys : Int := 38
def etimedout : Int := 110

section Streams

def streamOutput : Nat := 0
def formatRgba8888 : Nat := 0x1
def formatBlob : Nat := 0x21
def formatImplementationDefined : Nat := 0x22
def formatYCbCr420888 : Nat := 0x23
def formatYv12 : Nat := 0x32315659
def usageHwVideoEncoder : BitVec 32 := 0x10000#32

/-- `camera3_stream_t`. -/
structure StreamInfo where
  streamType : Nat
  width : Nat
  height : Nat
  format : Nat
  usage : BitVec 32
  maxBuffers : Nat
  priv : Option Nat
  deriving DecidableEq, Repr

/-- A pinned buffer; `token` is the number of the gralloc registration it stands for. -/
structure BufferReference where
  handle : Nat
  token : Nat
  deriving DecidableEq, Repr

/-- The adapter's stream, at address `id`, for the client's stream object `client`. -/
structure Stream where
  id : Nat
  legacy : StreamInfo
  client : Nat
  buffers : List BufferReference
  deriving DecidableEq, Repr

def Stream.handles (st : Stream) : List Nat := st.buffers.map fun (b : BufferReference) => b.handle

/-- The map `streams`, from client stream objects. -/
abbrev StreamMap := Assoc Nat Stream

def isProcessedFormat (format : Nat) : Bool :=
  format = formatImplementationDefined || format = formatYCbCr420888 ||
    format = formatRgba8888 || format = formatYv12

/-- The streams whose size decides the sensor mode. -/
def decidesMode (info : StreamInfo) : Bool :=
  isProcessedFormat info.format && decide (info.usage &&& usageHwVideoEncoder = 0#32)

/-- The sizes of the client's stream objects as they are now. -/
def processedGeometry (clients : Nat → StreamInfo) (m : StreamMap) : Finset (Nat × Nat) :=
  (((m.map fun e => clients e.2.client).filter decidesMode).map fun i => (i.width, i.height)).toFinset

end Streams

section Buffers

inductive StreamPtr where
  | null
  | client (p : Nat)
  | legacy (id : Nat)
  deriving DecidableEq, Repr

/-- A pointer to a buffer handle: the client's own, or the adapter's copy in a reference. -/
inductive HandlePtr where
  | client (address handle : Nat)
  | reference (stream handle : Nat)
  deriving DecidableEq, Repr

def HandlePtr.target : HandlePtr → Nat
  | .client _ handle => handle
  | .reference _ handle => handle

/-- `camera3_stream_buffer_t`. -/
structure StreamBuffer where
  stream : StreamPtr
  buffer : Option HandlePtr
  status : Int
  acquireFence : Int
  releaseFence : Int
  deriving DecidableEq, Repr

/-- `serial` tells the accepted requests apart, also those with one frame number. -/
structure Frame where
  serial : Nat
  settings : Metadata
  partials : Metadata
  clientBuffers : List StreamBuffer
  vendorBuffers : List StreamBuffer
  returned : List Bool
  remaining : Int
  metadataDone : Bool
  shutterDone : Bool
  deriving DecidableEq, Repr

/-- The map `frames`, from frame numbers. -/
abbrev FrameMap := Assoc Nat Frame

/-- Nothing is missing: `retire` may remove the frame. -/
def Frame.complete (f : Frame) : Bool := f.remaining = 0 && f.metadataDone && f.shutterDone

/-- A buffer record for the client. It is for buffer `index` of request `serial`, and it answers
the buffer at `position` of a stock result. -/
structure Delivery where
  serial : Nat
  index : Nat
  callback : Nat
  position : Nat
  record : StreamBuffer
  deriving DecidableEq, Repr

/-- A release fence of a stock result: which callback, and which of its buffers. -/
structure Fence where
  callback : Nat
  position : Nat
  fd : Int
  deriving DecidableEq, Repr

structure StockBuffer where
  stream : StreamPtr
  buffer : Option Nat
  status : Int
  releaseFence : Int
  deriving DecidableEq, Repr

structure StockResult where
  frame : Nat
  metadata : Option Metadata
  buffers : List StockBuffer
  deriving DecidableEq, Repr

inductive ErrorCode where
  | device
  | request
  | result
  | buffer
  | other (code : Int)
  deriving DecidableEq, Repr

inductive Message where
  | shutter (frame : Nat) (timestamp : Nat)
  | error (frame : Nat) (code : ErrorCode) (stream : StreamPtr)
  | other (type : Nat)
  deriving DecidableEq, Repr

end Buffers

section States

/-- A call into the client. -/
inductive ClientCall where
  | notify (m : Message)
  | result (frame : Nat) (metadata : Option Metadata) (buffers : List Delivery) (partialResult : Nat)
  deriving DecidableEq, Repr

inductive Api where
  | initializeDevice
  | configure
  | defaultRequest
  | capture
  | flush
  | close
  deriving DecidableEq, Repr

/-- The calls out of the adapter, what the stock device hands in, and what its own calls return.
A request is named by its `serial` and a client call by the request it is about. -/
inductive Event where
  | stockOpen (device : Nat)
  | stockClose (device : Nat)
  | stockInitialize (device : Nat) (result : Int)
  | stockConfigure (streams : List Nat) (result : Int)
  | stockDefaults (type : Nat)
  | stockRegister (stream : Nat) (handles : List Nat) (result : Int)
  | stockCapture (frame serial : Nat) (clientBuffers vendorBuffers : List StreamBuffer)
      (settings : Option Metadata)
  | stockAnswer (frame serial : Nat) (result : Int)
  | grallocRegister (handle token : Nat) (result : Int)
  | grallocUnregister (handle token : Nat)
  | stockResult (callback : Nat) (r : StockResult)
  | fenceClosed (f : Fence)
  | client (owner : Option Nat) (c : ClientCall)
  | returned (api : Api) (result : Int)
  deriving DecidableEq, Repr

/-- `camera3_stream_configuration_t`; the streams are a null pointer or an array of pointers. -/
structure Config where
  streams : Option (List (Option Nat))
  normalMode : Bool
  deriving DecidableEq, Repr

structure CaptureRequest where
  frameNumber : Nat
  settings : Option Metadata
  inputBuffer : Bool
  outputBuffers : Option (List StreamBuffer)
  deriving DecidableEq, Repr

/-- The locals of `capture`; `streams` are the keys of `requestedStreams`. -/
structure Capturing where
  request : CaptureRequest
  buffers : List StreamBuffer
  streams : List Nat
  deriving DecidableEq, Repr

/-- Where the holder of `requestMutex` stands. -/
inductive Request where
  | idle
  | initializing
  | restarting (next : StreamMap)
  | configuring (next : StreamMap)
  | draining (c : Capturing)
  | registering (c : Capturing) (i : Nat)
  | building (c : Capturing)
  | calling (frame serial : Nat)
  | flushing
  | closing
  | closed
  deriving DecidableEq, Repr

/-- Where the holder of `callbackMutex` stands: the frame number to retire in the end, the request
it was about, and the client calls that have not returned. -/
inductive Callback where
  | idle
  | delivering (frame owner : Option Nat) (calls : List ClientCall)
  deriving DecidableEq, Repr

/-- What `configure` was called with, and what it found. -/
structure Entry where
  config : List (Option Nat)
  streams : StreamMap
  failedStreams : List Stream
  clients : Nat → StreamInfo
  geometry : Finset (Nat × Nat)

structure State where
  clients : Nat → StreamInfo
  characteristics : Metadata
  vendor : Option Nat
  clientCallbacks : Bool
  streams : StreamMap
  failedStreams : List Stream
  frames : FrameMap
  templates : Nat → Metadata
  lastSettings : Metadata
  afTriggerId : Int
  aeTriggerId : Int
  fatal : Bool
  closing : Bool
  request : Request
  callback : Callback
  devices : Nat
  nextStream : Nat
  nextFrame : Nat
  nextToken : Nat
  callbacks : Nat
  entry : Entry
  requested : Option (Finset (Nat × Nat))
  log : List Event

def State.record (s : State) (es : List Event) : State := { s with log := s.log ++ es }

/-- The call of the request thread returns. -/
def State.finish (s : State) (api : Api) (result : Int) : State :=
  { s with request := .idle, log := s.log ++ [.returned api result] }

end States

section Configure

structure Building where
  next : StreamMap
  processed : Nat
  jpeg : Nat
  deriving DecidableEq, Repr

def Building.count (b : Building) (isJpeg : Bool) : Nat × Nat :=
  if isJpeg then (b.processed, b.jpeg + 1) else (b.processed + 1, b.jpeg)

/-- One turn of the loop over the requested streams; `alloc` is the new `Stream`. -/
def buildStream (s : State) (alloc : Bool) (b : Building) : Option Nat → Except Int Building
  | none => .error (-einval)
  | some p =>
    let info := s.clients p
    if info.streamType ≠ streamOutput ∨ info.width = 0 ∨ info.height = 0 ∨ p ∈ b.next.keys then
      .error (-einval)
    else
      let isJpeg := decide (info.format = formatBlob)
      let isProcessed := decide (info.format = formatImplementationDefined) ||
        decide (info.format = formatYCbCr420888) || decide (info.format = formatRgba8888) ||
        (decide (info.format = formatYv12) && (s.streams.get p).isSome)
      if !isJpeg && !isProcessed then .error (-einval)
      else
        let counts := b.count isJpeg
        if counts.1 > 3 ∨ counts.2 > 1 then .error (-einval)
        else if !alloc then .error (-enomem)
        else
          let stream : Stream :=
            { id := s.nextStream + b.next.length, legacy := { info with priv := none }, client := p,
              buffers := [] }
          .ok ⟨b.next ++ [(p, stream)], counts.1, counts.2⟩

def buildStreams (s : State) (alloc : Nat → Bool) : Building → List (Option Nat) → Except Int Building
  | b, [] => .ok b
  | b, p :: ps =>
    match buildStream s (alloc b.next.length) b p with
    | .error e => .error e
    | .ok b => buildStreams s alloc b ps

/-- The part of `configure` before the stock device is contacted. -/
def configureBegin (s : State) (config : Option Config) (alloc : Nat → Bool) : State :=
  match config.bind fun c => if c.normalMode then c.streams else none with
  | none => s.finish .configure (-einval)
  | some ptrs =>
    if ptrs = [] then s.finish .configure (-einval)
    else if s.fatal || s.closing || !s.clientCallbacks then s.finish .configure (-enodev)
    else if s.frames ≠ [] then s.finish .configure (-ebusy)
    else
      match buildStreams s alloc ⟨[], 0, 0⟩ ptrs with
      | .error e => s.finish .configure e
      | .ok b =>
        let geometryChanged := decide (s.streams ≠ []) &&
          decide (processedGeometry s.clients s.streams ≠ processedGeometry s.clients b.next)
        { s with
          request := if geometryChanged then .restarting b.next else .configuring b.next
          nextStream := s.nextStream + b.next.length
          entry := ⟨ptrs, s.streams, s.failedStreams, s.clients, processedGeometry s.clients b.next⟩ }

/-- What the stock module answers to a restart. `opened` is a null device, or whether the device
has the right version and entry points. -/
structure Reopen where
  usable : Bool
  openResult : Int
  opened : Option Bool
  initializeResult : Int
  deriving DecidableEq, Repr

def closeVendor (s : State) : State :=
  match s.vendor with
  | none => s
  | some d => { s with vendor := none }.record [.stockClose d]

def reopenVendor (s : State) (o : Reopen) : Int × State :=
  if !o.usable then (-enodev, s)
  else
    let s := closeVendor s
    if o.openResult ≠ 0 then (o.openResult, s)
    else
      match o.opened with
      | none => (-enodev, s)
      | some valid =>
        let s := { s with vendor := some s.devices, devices := s.devices + 1 }.record
          [.stockOpen s.devices]
        if !valid then (-enodev, closeVendor s)
        else
          let s := s.record [.stockInitialize (s.devices - 1) o.initializeResult]
          if o.initializeResult ≠ 0 then (o.initializeResult, closeVendor s) else (0, s)

/-- The new streams are kept, since the stock device may have adopted their addresses. -/
def failConfigure (s : State) (next : StreamMap) (result : Int) : State :=
  { s with failedStreams := s.failedStreams ++ next.values, fatal := true }.finish
    .configure result

def restart (s : State) (next : StreamMap) (o : Reopen) : State :=
  let r := reopenVendor s o
  if r.1 ≠ 0 then failConfigure r.2 next r.1 else { r.2 with request := .configuring next }

/-- The unregistrations when the streams of a map are destroyed. -/
def destroyed (m : List Stream) : List Event :=
  m.flatMap fun st => st.buffers.map fun (b : BufferReference) => .grallocUnregister b.handle b.token

/-- The client's stream object after a successful configuration. -/
def publish (clients : Nat → StreamInfo) (next : StreamMap) : Nat → StreamInfo := fun p =>
  match next.get p with
  | none => clients p
  | some st =>
    { clients p with
      format := st.legacy.format, usage := st.legacy.usage, maxBuffers := st.legacy.maxBuffers,
      priv := none }

/-- The stock device may change every field of its streams. -/
def adopt (next : StreamMap) (answer : Nat → StreamInfo) : StreamMap :=
  next.map fun e => (e.1, { e.2 with legacy := answer e.2.id })

/-- `configure_streams` of the stock device, and what `configure` does after it. -/
def configureStreams (s : State) (next : StreamMap) (answer : Nat → StreamInfo) (result : Int) :
    State :=
  let next := adopt next answer
  let s := s.record [.stockConfigure (next.map fun (e : Nat × Stream) => e.2.id) result]
  if result ≠ 0 then failConfigure s next result
  else
    ({ s with
      clients := publish s.clients next, streams := next, lastSettings := []
      requested := some s.entry.geometry }.record
        (destroyed s.streams.values)).finish .configure 0

end Configure

section Capture

/-- The loop over the output buffers: their streams, and whether a handle is new. -/
def checkBuffers (s : State) (seen : List Nat) : List StreamBuffer → Option (List Nat × Bool)
  | [] => some ([], false)
  | b :: bs =>
    match b.stream with
    | .client p =>
      match s.streams.get p, b.buffer with
      | some st, some h =>
        if h.target = 0 ∨ p ∈ seen then none
        else (checkBuffers s (seen ++ [p]) bs).map fun r =>
          (p :: r.1, decide (h.target ∉ st.handles) || r.2)
      | _, _ => none
    | _ => none

def captureBegin (s : State) (request : Option CaptureRequest) : State :=
  match request.bind fun r => if r.inputBuffer then none else r.outputBuffers.map fun bs => (r, bs) with
  | none => s.finish .capture (-einval)
  | some (r, buffers) =>
    if buffers = [] then s.finish .capture (-einval)
    else if s.fatal || s.closing || !s.clientCallbacks then s.finish .capture (-enodev)
    else if (s.frames.get r.frameNumber).isSome then s.finish .capture (-einval)
    else
      match checkBuffers s [] buffers with
      | none => s.finish .capture (-einval)
      | some (streams, newBuffer) =>
        let c : Capturing := ⟨r, buffers, streams⟩
        { s with request := if newBuffer then .draining c else .building c }

/-- What `drain` returns: it waits for no frames or a fatal error, three seconds at most. -/
def drain (s : State) (timeout : Bool) : Option Int :=
  let ready := decide (s.frames = []) || s.fatal
  if timeout then (if ready then none else some (-etimedout))
  else if ready then some (if s.fatal then -enodev else 0)
  else none

def captureDrained (s : State) (c : Capturing) (result : Int) : State :=
  if result ≠ 0 then s.finish .capture result else { s with request := .registering c 0 }

/-- One turn of the registration loop: gralloc, the reference, and the stock device. -/
def registerBuffer (s : State) (c : Capturing) (i : Nat) (gralloc : Int) (alloc : Bool) (stock : Int) :
    State :=
  match c.streams[i]?, c.buffers[i]? with
  | some p, some b =>
    match s.streams.get p, b.buffer with
    | some st, some h =>
      if h.target ∈ st.handles then { s with request := .registering c (i + 1) }
      else
        let s := { s with nextToken := s.nextToken + 1 }.record
          [.grallocRegister h.target s.nextToken gralloc]
        if gralloc ≠ 0 then s.finish .capture gralloc
        else if !alloc then
          (s.record [.grallocUnregister h.target (s.nextToken - 1)]).finish .capture (-enomem)
        else
          let buffers := st.buffers ++ [⟨h.target, s.nextToken - 1⟩]
          let s := { s with streams := s.streams.adjust p fun st => { st with buffers := buffers } }.record
            [.stockRegister st.id (buffers.map fun (b : BufferReference) => b.handle) stock]
          if stock ≠ 0 then { s with fatal := true }.finish .capture stock
          else { s with request := .registering c (i + 1) }
    | _, _ => { s with request := .building c }
  | _, _ => { s with request := .building c }

def nextTrigger (id : Int) : Int := if id = 2 ^ 31 - 1 then 1 else id + 1

/-- HAL3.0 tells trigger events apart by their ids, which a HAL3.2 client does not change. -/
def advanceTriggers (s : State) (m : Metadata) : State :=
  let started := (find m controlAfTrigger).head?.any fun v => v ≠ afTriggerIdle
  let precapture := (find m controlAePrecaptureTrigger).head?.any fun v => v = aePrecaptureTriggerStart
  { s with
    afTriggerId := if started then nextTrigger s.afTriggerId else s.afTriggerId
    aeTriggerId := if precapture then nextTrigger s.aeTriggerId else s.aeTriggerId }

/-- The settings of a request that has some; an error leaves only the trigger ids behind. -/
def requestSettings (s : State) (raw : Metadata) (clone : Bool) (alloc : Allocations) :
    Except Int Metadata × State :=
  if !clone ∨ raw = [] then (.error (-einval), s)
  else
    match normalizeRequest alloc raw s.characteristics with
    | none => (.error (-einval), s)
    | some o =>
      if !o.ok then (.error (-einval), s)
      else
        let s := advanceTriggers s o.metadata
        let af := tryUpdate o.rest o.metadata controlAfTriggerId [s.afTriggerId]
        if !af.ok then (.error (-enomem), s)
        else
          let ae := tryUpdate af.rest af.metadata controlAePrecaptureId [s.aeTriggerId]
          if !ae.ok then (.error (-enomem), s)
          else (.ok ae.metadata, { s with lastSettings := ae.metadata })

/-- The record that the stock device gets instead of the client's. -/
def vendorBuffer (m : StreamMap) (b : StreamBuffer) (p : Nat) : StreamBuffer :=
  match m.get p, b.buffer with
  | some st, some h =>
    { b with stream := .legacy st.id, buffer := some (.reference st.id h.target) }
  | _, _ => b

/-- The frame enters `frames`, and the stock device is called. -/
def submit (s : State) (c : Capturing) (settings : Metadata) : State :=
  let frame : Frame :=
    { serial := s.nextFrame, settings := settings, partials := [], clientBuffers := c.buffers
      vendorBuffers := List.zipWith (vendorBuffer s.streams) c.buffers c.streams
      returned := List.replicate c.buffers.length false, remaining := c.buffers.length
      metadataDone := false, shutterDone := false }
  { s with
    nextFrame := s.nextFrame + 1, frames := s.frames ++ [(c.request.frameNumber, frame)]
    request := .calling c.request.frameNumber frame.serial }.record
      [.stockCapture c.request.frameNumber frame.serial c.buffers frame.vendorBuffers
        (c.request.settings.map fun _ => settings)]

def buildFrame (s : State) (c : Capturing) (clone : Bool) (alloc : Allocations) : State :=
  match c.request.settings with
  | some raw =>
    match requestSettings s raw clone alloc with
    | (.error e, s) => s.finish .capture e
    | (.ok settings, s) => submit s c settings
  | none => if s.lastSettings = [] then s.finish .capture (-einval) else submit s c []

/-- `process_capture_request` of the stock device returns. -/
def captureAnswered (s : State) (frame serial : Nat) (result : Int) : State :=
  ({ s with frames := if result ≠ 0 then s.frames.erase frame else s.frames }.record
    [.stockAnswer frame serial result]).finish .capture result

end Capture

section Callbacks

structure Returning where
  frame : Frame
  output : List Delivery
  closed : List Fence
  fatal : Bool
  deriving DecidableEq, Repr

/-- The first buffer of the frame that the stock buffer can stand for and that is still out. -/
def matchBuffer (f : Frame) (b : StockBuffer) : Option Nat :=
  (f.vendorBuffers.zip f.returned).findIdx? fun e =>
    decide (b.stream = e.1.stream) && b.buffer.isSome &&
      decide (b.buffer = e.1.buffer.map HandlePtr.target) && !e.2

/-- One stock buffer: passed on as the client's record, or refused. -/
def returnBuffer (callback i : Nat) (r : Returning) (b : StockBuffer) : Returning :=
  let refused := { r with
    closed := if b.releaseFence ≥ 0 then r.closed ++ [⟨callback, i, b.releaseFence⟩] else r.closed
    fatal := true }
  match matchBuffer r.frame b with
  | none => refused
  | some n =>
    match r.frame.clientBuffers[n]? with
    | none => refused
    | some client =>
      let converted := { client with
        status := b.status, acquireFence := -1, releaseFence := b.releaseFence }
      { r with
        output := r.output ++ [⟨r.frame.serial, n, callback, i, converted⟩]
        frame := { r.frame with
          returned := r.frame.returned.set n true, remaining := r.frame.remaining - 1 } }

def returnBuffers (callback : Nat) : Nat → Returning → List StockBuffer → Returning
  | _, r, [] => r
  | i, r, b :: bs => returnBuffers callback (i + 1) (returnBuffer callback i r b) bs

/-- The metadata part of a stock result: the frame, what the client gets, and an error. -/
def resultMetadata (a : Allocations) (f : Frame) : Option Metadata → Frame × Option Metadata × Bool
  | none => (f, none, false)
  | some raw =>
    if f.metadataDone then (f, none, false)
    else if isPartial raw then
      let merged := mergeMetadata a f.partials raw
      ({ f with partials := merged.metadata, metadataDone := !merged.ok }, none, !merged.ok)
    else
      let merged := mergeMetadata a [] raw
      let final := finishResult merged.rest merged.metadata f.partials
      let hasMetadata := merged.ok && final.ok
      ({ f with metadataDone := true }, if hasMetadata then some final.metadata else none, !hasMetadata)

/-- The release fences of a stock result, from buffer `i` on. -/
def handedFences (callback : Nat) : Nat → List StockBuffer → List Fence
  | _, [] => []
  | i, b :: bs =>
    if b.releaseFence ≥ 0 then ⟨callback, i, b.releaseFence⟩ :: handedFences callback (i + 1) bs
    else handedFences callback (i + 1) bs

/-- The calls that `result` makes to the client. -/
def resultCalls (frame : Nat) (metadata : Option Metadata) (error : Bool) (output : List Delivery) :
    List ClientCall :=
  (if error then [.notify (.error frame .result .null)] else []) ++
    if metadata.isSome || decide (output ≠ []) then
      [.result frame metadata output (if metadata.isSome then 1 else 0)]
    else []

/-- `result` up to the end of its locked section. -/
def stockResult (s : State) (r : StockResult) (a : Allocations) : State :=
  let callback := s.callbacks
  let s := { s with callbacks := callback + 1 }.record [.stockResult callback r]
  match s.frames.get r.frame with
  | none => s.record ((handedFences callback 0 r.buffers).map .fenceClosed)
  | some f =>
    let m := resultMetadata a f r.metadata
    let d := returnBuffers callback 0 ⟨m.1, [], [], false⟩ r.buffers
    { s with
      frames := s.frames.adjust r.frame fun _ => d.frame, fatal := s.fatal || d.fatal
      callback := .delivering (some r.frame) (some f.serial)
        (resultCalls r.frame m.2.1 m.2.2 d.output) }.record (d.closed.map .fenceClosed)

/-- The client's stream for the address of an adapter's stream. -/
def clientStream (m : StreamMap) (stream : StreamPtr) : StreamPtr :=
  match m.find? fun e => decide (stream = .legacy e.2.id) with
  | some e => .client e.2.client
  | none => .null

/-- What a notification says about a frame that is in flight. -/
def notifyFrame (f : Frame) : Message → Frame
  | .shutter .. => { f with shutterDone := true }
  | .error _ code _ =>
    { f with
      metadataDone := f.metadataDone || decide (code = .request) || decide (code = .result)
      shutterDone := f.shutterDone || decide (code = .request) }
  | .other _ => f

def Message.frame : Message → Option Nat
  | .shutter frame _ => some frame
  | .error frame _ _ => some frame
  | .other _ => none

/-- The message with its stream translated. -/
def convertMessage (m : StreamMap) : Message → Message
  | .error frame code stream => .error frame code (clientStream m stream)
  | message => message

def Message.isDeviceError : Message → Bool
  | .error _ .device _ => true
  | _ => false

/-- The frame in flight under a number that may be missing. -/
def FrameMap.lookup (m : FrameMap) (frame : Option Nat) : Option (Nat × Frame) :=
  frame.bind fun n => (m.get n).map fun f => (n, f)

/-- `notify` up to the end of its locked section. -/
def stockNotify (s : State) (m : Message) : State :=
  { s with
    frames := match s.frames.lookup m.frame with
      | some (n, f) => s.frames.adjust n fun _ => notifyFrame f m
      | none => s.frames
    fatal := s.fatal || m.isDeviceError
    callback := .delivering m.frame ((s.frames.lookup m.frame).map fun e => e.2.serial)
      [.notify (convertMessage s.streams m)] }

def retire (s : State) (frame : Option Nat) : State :=
  { s with
    callback := .idle
    frames := match s.frames.lookup frame with
      | some (n, f) => if f.complete then s.frames.erase n else s.frames
      | none => s.frames }

end Callbacks

section Steps

/-- `initialize` up to the call of the stock device, which may already use the callbacks. -/
def initializeDevice (s : State) (valid : Bool) : State :=
  if !valid then s.finish .initializeDevice (-einval)
  else if s.clientCallbacks then s.finish .initializeDevice (-enosys)
  else { s with clientCallbacks := true, request := .initializing }

def initializeEnd (s : State) (result : Int) : State :=
  ({ s with clientCallbacks := s.clientCallbacks && decide (result = 0) }.record
    [.stockInitialize (s.vendor.getD 0) result]).finish .initializeDevice result

/-- A template: from the cache, or a normalised copy of the stock one. The result is 1 for a
template and 0 for null. -/
def defaultRequest (s : State) (type : Nat) (stock : Option Metadata) (copy : Bool)
    (alloc : Allocations) : State :=
  if type < 1 ∨ 7 ≤ type ∨ s.vendor.isNone then s.finish .defaultRequest 0
  else if s.templates type ≠ [] then s.finish .defaultRequest 1
  else
    let s := s.record [.stockDefaults type]
    match stock with
    | none => s.finish .defaultRequest 0
    | some raw =>
      if !copy then s.finish .defaultRequest 0
      else
        match normalizeRequest alloc raw s.characteristics with
        | none => s.finish .defaultRequest 0
        | some o =>
          if !o.ok then s.finish .defaultRequest 0
          else { s with templates := Function.update s.templates type o.metadata }.finish
            .defaultRequest 1

/-- The rest of `close`, after which the adapter is deleted. -/
def closeEnd (s : State) (result : Int) : State :=
  let final := if s.vendor.isSome then result else 0
  let s := closeVendor s
  { s with frames := [], streams := [], failedStreams := [], request := .closed }.record
    (destroyed s.streams.values ++ destroyed s.failedStreams ++
      [Event.returned .close final])

inductive Action where
  | initializeDevice (valid : Bool)
  | initializeEnd (result : Int)
  | configure (config : Option Config) (alloc : Nat → Bool)
  | restart (o : Reopen)
  | configureStreams (answer : Nat → StreamInfo) (result : Int)
  | defaultRequest (type : Nat) (stock : Option Metadata) (copy : Bool) (alloc : Allocations)
  | capture (request : Option CaptureRequest)
  | drain (timeout : Bool)
  | registerBuffer (gralloc : Int) (alloc : Bool) (stock : Int)
  | build (clone : Bool) (alloc : Allocations)
  | answer (result : Int)
  | flush
  | close
  | closeEnd (result : Int)
  | result (r : StockResult) (alloc : Allocations)
  | notify (m : Message)
  | deliver
  | retire
  | writeStream (p : Nat) (info : StreamInfo)

/-- The step of the request thread, which stands at `s.request`. A step that calls the stock
device needs one. -/
def requestStep (s : State) (a : Action) : Option State :=
  match s.request, a with
  | .idle, .initializeDevice valid => some (initializeDevice s valid)
  | .initializing, .initializeEnd result =>
    if s.vendor.isSome then some (initializeEnd s result) else none
  | .idle, .configure config alloc => some (configureBegin s config alloc)
  | .restarting next, .restart o => some (restart s next o)
  | .configuring next, .configureStreams answer result =>
    if s.vendor.isSome then some (configureStreams s next answer result) else none
  | .idle, .defaultRequest type stock copy alloc => some (defaultRequest s type stock copy alloc)
  | .idle, .capture request => some (captureBegin s request)
  | .draining c, .drain timeout => (drain s timeout).map (captureDrained s c)
  | .registering c i, .registerBuffer gralloc alloc stock =>
    if s.vendor.isSome then some (registerBuffer s c i gralloc alloc stock) else none
  | .building c, .build clone alloc =>
    if s.vendor.isSome then some (buildFrame s c clone alloc) else none
  | .calling frame serial, .answer result => some (captureAnswered s frame serial result)
  | .idle, .flush => some { s with request := .flushing }
  | .flushing, .drain timeout => (drain s timeout).map fun r => s.finish .flush r
  | .idle, .close => some { s with closing := true, request := .closing }
  | .closing, .closeEnd result => some (closeEnd s result)
  | _, _ => none

/-- A step of a stock thread. It needs the client's callbacks and an adapter. -/
def callbackStep (s : State) (a : Action) : Option State :=
  match s.callback, a with
  | .idle, .result r alloc =>
    if s.clientCallbacks ∧ s.request ≠ .closed then some (stockResult s r alloc) else none
  | .idle, .notify m =>
    if s.clientCallbacks ∧ s.request ≠ .closed then some (stockNotify s m) else none
  | .delivering frame owner (c :: calls), .deliver =>
    some ({ s with callback := .delivering frame owner calls }.record [.client owner c])
  | .delivering frame _ [], .retire => some (retire s frame)
  | _, _ => none

/-- The client may write its stream objects while no `configure` is running. -/
def writeStream (s : State) (p : Nat) (info : StreamInfo) : Option State :=
  match s.request with
  | .restarting _ => none
  | .configuring _ => none
  | _ => some { s with clients := Function.update s.clients p info }

def step (s : State) (a : Action) : Option State :=
  match a with
  | .result .. => callbackStep s a
  | .notify .. => callbackStep s a
  | .deliver => callbackStep s a
  | .retire => callbackStep s a
  | .writeStream p info => writeStream s p info
  | _ => requestStep s a

/-- What a step of the request thread can be. -/
inductive RequestStep (s : State) : Action → State → Prop
  | initializeDevice (valid : Bool) (hq : s.request = .idle) :
      RequestStep s (.initializeDevice valid) (initializeDevice s valid)
  | initializeEnd (result : Int) (hq : s.request = .initializing) (hv : s.vendor.isSome = true) :
      RequestStep s (.initializeEnd result) (initializeEnd s result)
  | configure (config : Option Config) (alloc : Nat → Bool) (hq : s.request = .idle) :
      RequestStep s (.configure config alloc) (configureBegin s config alloc)
  | restart (next : StreamMap) (o : Reopen) (hq : s.request = .restarting next) :
      RequestStep s (.restart o) (restart s next o)
  | configureStreams (next : StreamMap) (answer : Nat → StreamInfo) (result : Int)
      (hq : s.request = .configuring next) (hv : s.vendor.isSome = true) :
      RequestStep s (.configureStreams answer result) (configureStreams s next answer result)
  | defaultRequest (type : Nat) (stock : Option Metadata) (copy : Bool) (alloc : Allocations)
      (hq : s.request = .idle) :
      RequestStep s (.defaultRequest type stock copy alloc) (defaultRequest s type stock copy alloc)
  | capture (request : Option CaptureRequest) (hq : s.request = .idle) :
      RequestStep s (.capture request) (captureBegin s request)
  | captureDrain (c : Capturing) (timeout : Bool) (r : Int) (hq : s.request = .draining c)
      (hr : drain s timeout = some r) : RequestStep s (.drain timeout) (captureDrained s c r)
  | registerBuffer (c : Capturing) (i : Nat) (gralloc : Int) (alloc : Bool) (stock : Int)
      (hq : s.request = .registering c i) (hv : s.vendor.isSome = true) :
      RequestStep s (.registerBuffer gralloc alloc stock) (registerBuffer s c i gralloc alloc stock)
  | build (c : Capturing) (clone : Bool) (alloc : Allocations) (hq : s.request = .building c)
      (hv : s.vendor.isSome = true) : RequestStep s (.build clone alloc) (buildFrame s c clone alloc)
  | answer (frame serial : Nat) (result : Int) (hq : s.request = .calling frame serial) :
      RequestStep s (.answer result) (captureAnswered s frame serial result)
  | flush (hq : s.request = .idle) : RequestStep s .flush { s with request := .flushing }
  | flushDrain (timeout : Bool) (r : Int) (hq : s.request = .flushing)
      (hr : drain s timeout = some r) : RequestStep s (.drain timeout) (s.finish .flush r)
  | close (hq : s.request = .idle) : RequestStep s .close { s with closing := true, request := .closing }
  | closeEnd (result : Int) (hq : s.request = .closing) :
      RequestStep s (.closeEnd result) (closeEnd s result)

/-- What a step of a stock thread can be. -/
inductive CallbackStep (s : State) : Action → State → Prop
  | result (r : StockResult) (alloc : Allocations) (hc : s.callback = .idle)
      (hg : s.clientCallbacks = true ∧ s.request ≠ .closed) :
      CallbackStep s (.result r alloc) (stockResult s r alloc)
  | notify (m : Message) (hc : s.callback = .idle)
      (hg : s.clientCallbacks = true ∧ s.request ≠ .closed) :
      CallbackStep s (.notify m) (stockNotify s m)
  | deliver (frame owner : Option Nat) (c : ClientCall) (calls : List ClientCall)
      (hc : s.callback = .delivering frame owner (c :: calls)) :
      CallbackStep s .deliver
        ({ s with callback := .delivering frame owner calls }.record [.client owner c])
  | retire (frame owner : Option Nat) (hc : s.callback = .delivering frame owner []) :
      CallbackStep s .retire (retire s frame)

inductive Step (s : State) : Action → State → Prop
  | request {a : Action} {t : State} : RequestStep s a t → Step s a t
  | callback {a : Action} {t : State} : CallbackStep s a t → Step s a t
  | write {p : Nat} {info : StreamInfo} {t : State} : writeStream s p info = some t →
      Step s (.writeStream p info) t

theorem requestStep_cases {s t : State} {a : Action} (h : requestStep s a = some t) :
    RequestStep s a t := by
  unfold requestStep at h
  split at h
  case h_1 valid hq =>
    cases h
    exact .initializeDevice valid hq
  case h_2 result hq =>
    obtain ⟨hv, ht⟩ := Option.ite_none_right_eq_some.mp h
    cases ht
    exact .initializeEnd result hq hv
  case h_3 config alloc hq =>
    cases h
    exact .configure config alloc hq
  case h_4 next o hq =>
    cases h
    exact .restart next o hq
  case h_5 next answer result hq =>
    obtain ⟨hv, ht⟩ := Option.ite_none_right_eq_some.mp h
    cases ht
    exact .configureStreams next answer result hq hv
  case h_6 type stock copy alloc hq =>
    cases h
    exact .defaultRequest type stock copy alloc hq
  case h_7 request hq =>
    cases h
    exact .capture request hq
  case h_8 c timeout hq =>
    obtain ⟨r, hr, rfl⟩ := Option.map_eq_some_iff.mp h
    exact .captureDrain c timeout r hq hr
  case h_9 c i gralloc alloc stock hq =>
    obtain ⟨hv, ht⟩ := Option.ite_none_right_eq_some.mp h
    cases ht
    exact .registerBuffer c i gralloc alloc stock hq hv
  case h_10 c clone alloc hq =>
    obtain ⟨hv, ht⟩ := Option.ite_none_right_eq_some.mp h
    cases ht
    exact .build c clone alloc hq hv
  case h_11 frame serial result hq =>
    cases h
    exact .answer frame serial result hq
  case h_12 hq =>
    cases h
    exact .flush hq
  case h_13 timeout hq =>
    obtain ⟨r, hr, rfl⟩ := Option.map_eq_some_iff.mp h
    exact .flushDrain timeout r hq hr
  case h_14 hq =>
    cases h
    exact .close hq
  case h_15 result hq =>
    cases h
    exact .closeEnd result hq
  case h_16 => cases h

theorem callbackStep_cases {s t : State} {a : Action} (h : callbackStep s a = some t) :
    CallbackStep s a t := by
  unfold callbackStep at h
  split at h
  case h_1 r alloc hc =>
    obtain ⟨hg, ht⟩ := Option.ite_none_right_eq_some.mp h
    cases ht
    exact .result r alloc hc hg
  case h_2 m hc =>
    obtain ⟨hg, ht⟩ := Option.ite_none_right_eq_some.mp h
    cases ht
    exact .notify m hc hg
  case h_3 frame owner c calls hc =>
    cases h
    exact .deliver frame owner c calls hc
  case h_4 frame owner hc =>
    cases h
    exact .retire frame owner hc
  case h_5 => cases h

theorem step_cases {s t : State} {a : Action} (h : step s a = some t) : Step s a t := by
  cases a with
  | result r alloc => exact .callback (callbackStep_cases h)
  | notify m => exact .callback (callbackStep_cases h)
  | deliver => exact .callback (callbackStep_cases h)
  | retire => exact .callback (callbackStep_cases h)
  | writeStream p info => exact .write h
  | _ => exact .request (requestStep_cases h)

/-- A freshly opened adapter, with the stock device number 0. -/
structure Initial (s : State) : Prop where
  vendor : s.vendor = some 0
  devices : s.devices = 1
  clientCallbacks : s.clientCallbacks = false
  streams : s.streams = []
  failedStreams : s.failedStreams = []
  frames : s.frames = []
  templates : s.templates = fun _ => []
  lastSettings : s.lastSettings = []
  triggers : s.afTriggerId = 0 ∧ s.aeTriggerId = 0
  fatal : s.fatal = false
  closing : s.closing = false
  request : s.request = .idle
  callback : s.callback = .idle
  counters : s.nextStream = 0 ∧ s.nextFrame = 0 ∧ s.nextToken = 0 ∧ s.callbacks = 0
  requested : s.requested = none
  log : s.log = [.stockOpen 0]

abbrev Reachable : State → Prop := Transition.Reachable step Initial

/-- The adapter that `camera3_device_open` returns. -/
def opened (clients : Nat → StreamInfo) (characteristics : Metadata) : State :=
  { clients := clients, characteristics := characteristics, vendor := some 0, clientCallbacks := false
    streams := [], failedStreams := [], frames := [], templates := fun _ => [], lastSettings := []
    afTriggerId := 0, aeTriggerId := 0, fatal := false, closing := false, request := .idle
    callback := .idle, devices := 1, nextStream := 0, nextFrame := 0, nextToken := 0, callbacks := 0
    entry := ⟨[], [], [], clients, processedGeometry clients []⟩, requested := none, log := [.stockOpen 0] }

theorem opened_initial (clients : Nat → StreamInfo) (characteristics : Metadata) :
    Initial (opened clients characteristics) := by
  constructor <;> first | rfl | exact ⟨rfl, rfl⟩ | exact ⟨rfl, rfl, rfl, rfl⟩

/-- A preview stream under 1 and a recorder's stream under 2. -/
def recorderClients : Nat → StreamInfo
  | 2 => ⟨streamOutput, 3840, 2160, formatImplementationDefined, usageHwVideoEncoder, 0, none⟩
  | _ => ⟨streamOutput, 1920, 1080, formatImplementationDefined, 0#32, 0, none⟩

/-- `initialize` and a first configuration of the preview alone. -/
def previewStart : List Action :=
  [.initializeDevice true, .initializeEnd 0,
    .configure (some ⟨some [some 1], true⟩) fun _ => true,
    .configureStreams (fun _ => ⟨streamOutput, 1920, 1080, formatYv12, 0x20000#32, 4, none⟩) 0]

/-- A request with the client's buffer 7, up to the answer of the stock device. -/
def previewCapture (number : Nat) : List Action :=
  [.capture (some ⟨number, some [(controlAeTargetFpsRange, [15, 30]), (controlAfTrigger, [1])], false,
      some [⟨.client 1, some (.client 100 7), 0, -1, -1⟩]⟩),
    .drain false, .registerBuffer 0 true 0, .registerBuffer 0 true 0, .build true [], .answer 0]

end Steps

end Camera3
