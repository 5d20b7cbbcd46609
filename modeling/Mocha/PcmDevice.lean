import Mocha.Custody
import Mocha.PcmRing

/-!
# PCM devices

`pcm.c` from `pcm_open` to `pcm_close`, without the mapped transfers. The kernel and
the C library answer each call with an error number, 0 for success, and `HW_PARAMS` also
with the period size and count that it has chosen. What was asked for, and what was
answered, is kept as a log.
-/
namespace TinyAlsa

open Custody Transition

def epipe : Nat := 32
def ebadf : Nat := 9
def enomem : Nat := 12
def einval : Nat := 22

inductive PcmFormat where
  | s16Le
  | s32Le
  | s8
  | s24Le
  deriving DecidableEq, Repr

def pcmFormatToBits : PcmFormat → Nat
  | .s32Le | .s24Le => 32
  | .s16Le | .s8 => 16

structure PcmConfig where
  channels : Nat
  rate : Nat
  periodSize : Nat
  periodCount : Nat
  format : PcmFormat
  startThreshold : Nat
  stopThreshold : Nat
  silenceThreshold : Nat
  deriving DecidableEq, Repr

structure PcmFlags where
  capture : Bool
  mmap : Bool
  noirq : Bool
  norestart : Bool
  monotonic : Bool
  deriving DecidableEq, Repr

inductive Syscall (α : Type) where
  | calloc
  | openDevice (name : String)
  | info
  | hwParams (config : PcmConfig) (flags : PcmFlags)
  | mapBuffer
  | swParams (startThreshold stopThreshold silenceThreshold boundary : Nat)
  | mapStatus
  | mapControl
  | callocSync
  | syncPtr
  | ttstamp
  | prepare
  | start
  | drop
  | writei (data : List α)
  | readi (frames : Nat)
  | unmapBuffer
  | unmapStatus
  | unmapControl
  | freeSync
  | closeDevice
  | free
  deriving DecidableEq, Repr

structure Answer where
  errno : Nat
  periodSize : Nat
  periodCount : Nat
  deriving DecidableEq, Repr

/-- A call for the PCM with this number, and its answer. -/
structure Entry (α : Type) where
  pcm : Nat
  call : Syscall α
  errno : Nat
  deriving DecidableEq, Repr

/-- The answers to come (success after the last of them), the last error and the log. -/
structure Kernel (α : Type) where
  answers : List Answer
  errno : Nat
  log : List (Entry α)
  deriving DecidableEq, Repr

structure PcmDevice where
  id : Nat
  fd : Bool
  flags : PcmFlags
  running : Bool
  prepared : Bool
  underruns : Nat
  bufferSize : Nat
  boundary : Nat
  error : Option (String × Int)
  config : PcmConfig
  mmapStatus : Bool
  mmapControl : Bool
  syncPtr : Bool
  mmapBuffer : Bool
  noirqFramesPerMsec : Nat
  deriving DecidableEq, Repr

variable {α : Type}

section Kernel

def Kernel.call (k : Kernel α) (pcm : Nat) (c : Syscall α) : Answer × Kernel α :=
  let answer := k.answers.headD ⟨0, 0, 0⟩
  (answer, { answers := k.answers.tail
             errno := if answer.errno ≠ 0 then answer.errno else k.errno
             log := k.log ++ [⟨pcm, c, answer.errno⟩] })

/-- A call whose answer nobody looks at. -/
def Kernel.note (k : Kernel α) (pcm : Nat) (c : Syscall α) : Kernel α :=
  { k with log := k.log ++ [⟨pcm, c, 0⟩] }

/-- On a file descriptor of -1 nothing but the error number changes. -/
def ioctl (p : PcmDevice) (k : Kernel α) (c : Syscall α) : Answer × Kernel α :=
  if p.fd then k.call p.id c else (⟨ebadf, 0, 0⟩, { k with errno := ebadf })

def oops (p : PcmDevice) (e : Int) (text : String) : PcmDevice := { p with error := some (text, e) }

end Kernel

section Transfers

def pcmIsReady (p : PcmDevice) : Bool := p.fd

def pcmBytesToFrames (p : PcmDevice) (bytes : Nat) : Nat :=
  bytes / (p.config.channels * (pcmFormatToBits p.config.format >>> 3))

def pcmSyncPtr (p : PcmDevice) (k : Kernel α) : Int × Kernel α :=
  if p.syncPtr then
    let synced := ioctl p k .syncPtr
    (if synced.1.errno ≠ 0 then -1 else 0, synced.2)
  else (0, k)

def pcmPrepare (p : PcmDevice) (k : Kernel α) : Int × PcmDevice × Kernel α :=
  if p.prepared then (0, p, k)
  else
    let done := ioctl p k .prepare
    if done.1.errno ≠ 0 then (-1, oops p done.2.errno "cannot prepare channel", done.2)
    else (0, { p with prepared := true }, done.2)

def pcmStart (p : PcmDevice) (k : Kernel α) : Int × PcmDevice × Kernel α :=
  let prepared := pcmPrepare p k
  if prepared.1 ≠ 0 then prepared
  else
    let p := prepared.2.1
    let k := if p.flags.mmap then (pcmSyncPtr p prepared.2.2).2 else prepared.2.2
    let done := ioctl p k .start
    if done.1.errno ≠ 0 then (-1, oops p done.2.errno "cannot start channel", done.2)
    else (0, { p with running := true }, done.2)

def pcmStop (p : PcmDevice) (k : Kernel α) : Int × PcmDevice × Kernel α :=
  let done := ioctl p k .drop
  if done.1.errno ≠ 0 then (-1, oops p done.2.errno "cannot stop channel", done.2)
  else (0, { p with prepared := false, running := false }, done.2)

def PcmConfig.frameBytes (config : PcmConfig) : Nat :=
  config.channels * pcmFormatToBits config.format / 8

/-- The frames that a buffer has whole. -/
def PcmConfig.whole (config : PcmConfig) (data : List α) : List α :=
  data.take (data.length / config.frameBytes * config.frameBytes)

/-- The first write prepares the device and leaves it so if it fails. -/
def pcmWriteLoop (data : List α) : Nat → PcmDevice → Kernel α → Int × PcmDevice × Kernel α
  | 0, p, k => (-1, p, k)
  | fuel + 1, p, k =>
    if !p.running then
      let prepared := pcmPrepare p k
      if prepared.1 ≠ 0 then prepared
      else
        let p := prepared.2.1
        let done := ioctl p prepared.2.2 (.writei (p.config.whole data))
        if done.1.errno ≠ 0 then (-1, oops p done.2.errno "cannot write initial data", done.2)
        else (0, { p with running := true }, done.2)
    else
      let done := ioctl p k (.writei (p.config.whole data))
      if done.1.errno ≠ 0 then
        let p := { p with prepared := false, running := false }
        if done.2.errno = epipe then
          let p := { p with underruns := p.underruns + 1 }
          if p.flags.norestart then (-epipe, p, done.2) else pcmWriteLoop data fuel p done.2
        else (-1, oops p done.2.errno "cannot write stream data", done.2)
      else (0, p, done.2)

/-- A second round finds the device stopped, and is the last. -/
def pcmWrite (p : PcmDevice) (data : List α) (k : Kernel α) : Int × PcmDevice × Kernel α :=
  if p.flags.capture then (-einval, p, k) else pcmWriteLoop data 2 p k

def pcmReadLoop (frames : Nat) : Nat → PcmDevice → Kernel α → Int × PcmDevice × Kernel α
  | 0, p, k => (-1, p, k)
  | fuel + 1, p, k =>
    let started := if !p.running then pcmStart p k else (0, p, k)
    if started.1 < 0 then (-started.2.2.errno, started.2)
    else
      let p := started.2.1
      let done := ioctl p started.2.2 (.readi frames)
      if done.1.errno ≠ 0 then
        let p := { p with prepared := false, running := false }
        if done.2.errno = epipe then
          pcmReadLoop frames fuel { p with underruns := p.underruns + 1 } done.2
        else (-1, oops p done.2.errno "cannot read stream data", done.2)
      else (0, p, done.2)

/-- Every round but the last takes an answer of the kernel. -/
def pcmRead (p : PcmDevice) (count : Nat) (k : Kernel α) : Int × PcmDevice × Kernel α :=
  if !p.flags.capture then (-einval, p, k)
  else pcmReadLoop (count / p.config.frameBytes) (k.answers.length + 1) p k

end Transfers

section Opening

/-- Where the status cannot be mapped it is asked for. -/
def syncStatus (p : PcmDevice) (k : Kernel α) : Int × PcmDevice × Kernel α :=
  let got := k.call p.id .callocSync
  if got.1.errno ≠ 0 then (-enomem, p, got.2)
  else
    let p := { p with syncPtr := true, mmapStatus := true, mmapControl := true }
    (0, p, (pcmSyncPtr p got.2).2)

def pcmHwMmapStatus (p : PcmDevice) (k : Kernel α) : Int × PcmDevice × Kernel α :=
  if p.syncPtr then (0, p, k)
  else
    let status := k.call p.id .mapStatus
    if status.1.errno ≠ 0 then syncStatus { p with mmapStatus := false } status.2
    else
      let control := status.2.call p.id .mapControl
      if control.1.errno ≠ 0 then
        syncStatus { p with mmapStatus := false, mmapControl := false }
          (control.2.note p.id .unmapStatus)
      else (0, { p with mmapStatus := true, mmapControl := true }, control.2)

def pcmHwMunmapStatus (p : PcmDevice) (k : Kernel α) : PcmDevice × Kernel α :=
  let k := if p.syncPtr then k.note p.id .freeSync
    else
      let k := if p.mmapStatus then k.note p.id .unmapStatus else k
      if p.mmapControl then k.note p.id .unmapControl else k
  ({ p with syncPtr := false, mmapStatus := false, mmapControl := false }, k)

/-- The pointer to the buffer is kept. -/
def munmapBuffer (p : PcmDevice) (k : Kernel α) : Kernel α :=
  if p.mmapBuffer then k.note p.id .unmapBuffer else k

def failClose (p : PcmDevice) (k : Kernel α) : PcmDevice × Kernel α :=
  ({ p with fd := false }, k.note p.id .closeDevice)

def fail (p : PcmDevice) (k : Kernel α) : PcmDevice × Kernel α :=
  failClose p (if p.flags.mmap then munmapBuffer p k else k)

def setTimestamp (p : PcmDevice) (k : Kernel α) : PcmDevice × Kernel α :=
  if p.flags.monotonic then
    let done := ioctl p k .ttstamp
    if done.1.errno ≠ 0 then fail (oops p (-1) "cannot set timestamp type") done.2
    else ({ p with underruns := 0 }, done.2)
  else ({ p with underruns := 0 }, k)

def mapStatus (p : PcmDevice) (k : Kernel α) : PcmDevice × Kernel α :=
  let mapped := pcmHwMmapStatus p k
  if mapped.1 < 0 then fail (oops mapped.2.1 mapped.1 "mmap status failed") mapped.2.2
  else setTimestamp mapped.2.1 mapped.2.2

/-- Thresholds that are not given. -/
def startThreshold (capture : Bool) (config : PcmConfig) : Nat :=
  if config.startThreshold ≠ 0 then config.startThreshold
  else if capture then 1
  else config.periodCount * config.periodSize % 4294967296 / 2

def stopThreshold (capture : Bool) (config : PcmConfig) : Nat :=
  if config.stopThreshold ≠ 0 then config.stopThreshold
  else if capture then config.periodCount * config.periodSize * 10 % 4294967296
  else config.periodCount * config.periodSize % 4294967296

def setThresholds (p : PcmDevice) (config : PcmConfig) : PcmDevice :=
  { p with
    config := { p.config with
      startThreshold := startThreshold p.flags.capture config
      stopThreshold := stopThreshold p.flags.capture config }
    boundary := pcmBoundary p.bufferSize }

def setSwParams (p : PcmDevice) (config : PcmConfig) (k : Kernel α) : PcmDevice × Kernel α :=
  let p := setThresholds p config
  let done := ioctl p k (.swParams p.config.startThreshold p.config.stopThreshold
    config.silenceThreshold p.bufferSize)
  if done.1.errno ≠ 0 then fail (oops p done.2.errno "cannot set sw params") done.2
  else mapStatus p done.2

def mapBuffer (p : PcmDevice) (config : PcmConfig) (k : Kernel α) : PcmDevice × Kernel α :=
  if p.flags.mmap then
    let mapped := k.call p.id .mapBuffer
    if mapped.1.errno ≠ 0 then
      failClose (oops p (-mapped.2.errno) "failed to mmap buffer %d bytes\n") mapped.2
    else setSwParams { p with mmapBuffer := true } config mapped.2
  else setSwParams p config k

/-- The caller's configuration gets the sizes that the kernel has chosen. -/
def setHwParams (p : PcmDevice) (config : PcmConfig) (k : Kernel α) :
    PcmDevice × PcmConfig × Kernel α :=
  if p.flags.noirq && !p.flags.mmap then
    let failed := fail (oops p (-einval) "noirq only currently supported with mmap().") k
    (failed.1, config, failed.2)
  else
    let p := if p.flags.noirq then { p with noirqFramesPerMsec := config.rate / 1000 } else p
    let done := ioctl p k (.hwParams config p.flags)
    if done.1.errno ≠ 0 then
      let failed := failClose (oops p done.2.errno "cannot set hw params") done.2
      (failed.1, config, failed.2)
    else
      let config := { config with
        periodSize := done.1.periodSize, periodCount := done.1.periodCount }
      let bufferSize := config.periodCount * config.periodSize % 4294967296
      let opened := mapBuffer { p with bufferSize := bufferSize } config done.2
      (opened.1, config, opened.2)

def newPcm (id : Nat) (flags : PcmFlags) (config : PcmConfig) : PcmDevice where
  id := id
  fd := false
  flags := flags
  running := false
  prepared := false
  underruns := 0
  bufferSize := 0
  boundary := 0
  error := none
  config := config
  mmapStatus := false
  mmapControl := false
  syncPtr := false
  mmapBuffer := false
  noirqFramesPerMsec := 0

def deviceName (card device : Nat) (capture : Bool) : String :=
  "/dev/snd/pcmC" ++ toString card ++ "D" ++ toString device ++ if capture then "c" else "p"

/-- Without memory the result is `bad_pcm`, which is `none` here. -/
def pcmOpen (id card device : Nat) (flags : PcmFlags) (config : PcmConfig) (k : Kernel α) :
    Option PcmDevice × PcmConfig × Kernel α :=
  let got := k.call id .calloc
  if got.1.errno ≠ 0 then (none, config, got.2)
  else
    let p := newPcm id flags config
    let name := deviceName card device flags.capture
    let done := got.2.call id (.openDevice name)
    if done.1.errno ≠ 0 then
      (some (oops p done.2.errno ("cannot open device '" ++ name ++ "'")), config, done.2)
    else
      let p := { p with fd := true }
      let info := ioctl p done.2 .info
      if info.1.errno ≠ 0 then
        let failed := failClose (oops p info.2.errno "cannot get info") info.2
        (some failed.1, config, failed.2)
      else
        let opened := setHwParams p config info.2
        (some opened.1, opened.2)

def pcmClose (p : PcmDevice) (k : Kernel α) : Kernel α :=
  let unmapped := pcmHwMunmapStatus p k
  let p := unmapped.1
  let k := if p.flags.mmap then munmapBuffer p (pcmStop p unmapped.2).2.2 else unmapped.2
  let k := if p.fd then k.note p.id .closeDevice else k
  k.note p.id .free

end Opening

section Clients

inductive PcmPart where
  | memory
  | fd
  | buffer
  | status
  | control
  | syncPtr
  deriving DecidableEq, Repr

structure PcmObject where
  pcm : Nat
  part : PcmPart
  deriving DecidableEq, Repr

def Syscall.uses (pcm : Nat) (ok : Bool) : Syscall α → List (Use PcmObject)
  | .calloc => if ok then [.acquire ⟨pcm, .memory⟩] else []
  | .openDevice _ => .touch ⟨pcm, .memory⟩ :: if ok then [.acquire ⟨pcm, .fd⟩] else []
  | .mapBuffer => .touch ⟨pcm, .fd⟩ :: if ok then [.acquire ⟨pcm, .buffer⟩] else []
  | .mapStatus => .touch ⟨pcm, .fd⟩ :: if ok then [.acquire ⟨pcm, .status⟩] else []
  | .mapControl => .touch ⟨pcm, .fd⟩ :: if ok then [.acquire ⟨pcm, .control⟩] else []
  | .callocSync => .touch ⟨pcm, .memory⟩ :: if ok then [.acquire ⟨pcm, .syncPtr⟩] else []
  | .syncPtr => [.touch ⟨pcm, .memory⟩, .touch ⟨pcm, .fd⟩, .touch ⟨pcm, .syncPtr⟩]
  | .unmapBuffer => [.touch ⟨pcm, .memory⟩, .release ⟨pcm, .buffer⟩]
  | .unmapStatus => [.touch ⟨pcm, .memory⟩, .release ⟨pcm, .status⟩]
  | .unmapControl => [.touch ⟨pcm, .memory⟩, .release ⟨pcm, .control⟩]
  | .freeSync => [.touch ⟨pcm, .memory⟩, .release ⟨pcm, .syncPtr⟩]
  | .closeDevice => [.touch ⟨pcm, .memory⟩, .release ⟨pcm, .fd⟩]
  | .free => [.release ⟨pcm, .memory⟩]
  | _ => [.touch ⟨pcm, .memory⟩, .touch ⟨pcm, .fd⟩]

def uses (log : List (Entry α)) : List (Use PcmObject) :=
  log.flatMap fun e => e.call.uses e.pcm (e.errno = 0)

/-- What a PCM holds. A pointer to a buffer may outlive the mapping. -/
def PcmDevice.held (p : PcmDevice) : List PcmObject :=
  (if p.syncPtr then [⟨p.id, .syncPtr⟩]
    else (if p.mmapControl then [⟨p.id, .control⟩] else []) ++
      if p.mmapStatus then [⟨p.id, .status⟩] else []) ++
    (if p.fd && p.mmapBuffer then [⟨p.id, .buffer⟩] else []) ++
    (if p.fd then [⟨p.id, .fd⟩] else []) ++ [⟨p.id, .memory⟩]

/-- A client with one PCM at a time. `lost` is history: a write has failed that left the
device marked as prepared. -/
structure Client (α : Type) where
  pcm : Option PcmDevice
  opened : Nat
  kernel : Kernel α
  lost : Bool
  deriving DecidableEq, Repr

inductive PcmCall (α : Type) where
  | opens (card device : Nat) (flags : PcmFlags) (config : PcmConfig)
  | prepare
  | start
  | stop
  | write (data : List α)
  | read (count : Nat)
  | close
  deriving DecidableEq, Repr

def newClient : Client α := ⟨none, 0, ⟨[], 0, []⟩, false⟩

def Client.got (s : Client α) (lost : Bool) (done : Int × PcmDevice × Kernel α) : Client α :=
  { s with pcm := some done.2.1, kernel := done.2.2, lost := lost }

/-- Each call comes with the kernel's answers. -/
def pcmStep (s : Client α) (c : PcmCall α × List Answer) : Option (Client α) :=
  let k := { s.kernel with answers := c.2 }
  match c.1, s.pcm with
  | .opens card device flags config, none =>
    let done := pcmOpen s.opened card device flags config k
    some { pcm := done.1, opened := s.opened + 1, kernel := done.2.2, lost := false }
  | .prepare, some p => some (s.got s.lost (pcmPrepare p k))
  | .start, some p =>
    let done := pcmStart p k
    some (s.got (s.lost && done.1 ≠ 0) done)
  | .stop, some p =>
    let done := pcmStop p k
    some (s.got (s.lost && done.1 ≠ 0) done)
  | .write data, some p =>
    let done := pcmWrite p data k
    some (s.got (!p.flags.capture && done.2.1.prepared && done.1 ≠ 0) done)
  | .read count, some p => some (s.got s.lost (pcmRead p count k))
  | .close, some p => some { s with pcm := none, kernel := pcmClose p k, lost := false }
  | _, _ => none

/-- A PCM is closed that failed to open after its buffer was mapped. -/
def remaps (s : Client α) (c : PcmCall α × List Answer) : Bool :=
  match c.1, s.pcm with
  | .close, some p => p.mmapBuffer && !p.fd
  | _, _ => false

/-- A write follows one that failed and left the device marked as prepared. -/
def rewrites (s : Client α) (c : PcmCall α × List Answer) : Bool :=
  s.lost && match c.1 with
    | .write _ => true
    | _ => false

end Clients

end TinyAlsa
