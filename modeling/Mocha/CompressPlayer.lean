import Mocha.Custody
import Mocha.CompressWorker

/-!
# The player of a compressed output stream

The calls of the framework on one stream do not overlap. Between them, between the
sections of a write, and while the stream is being closed, the worker
`out_compress_async_fn` works on the same device without the stream's lock: it reads
`compress` for each call into the compress library, is inside that call until it
returns, and only then clears `started`.
-/
namespace TinyHal

open Custody Transition

/-- `-EBADFD` without the sign. -/
def ebadfd : Int := 77

structure GaplessMdata where
  encoderDelay : BitVec 32
  encoderPadding : BitVec 32
  deriving DecidableEq, Repr

/-- The functions of the compress library. A wait and a drain take their time: they begin
and end. -/
inductive ComprCall where
  | opens
  | isReady
  | getError
  | setMaxPollWait
  | nonblock (on : Bool)
  | write
  | start (ok : Bool)
  | stop
  | pause
  | resume
  | setGaplessMetadata (data : GaplessMdata)
  | getTstamp
  | nextTrack
  | drainBegin
  | drainEnd
  | waitBegin
  | waitEnd
  | close
  deriving DecidableEq, Repr

/-- A call and the pointer it is made on. -/
structure ComprUse where
  call : ComprCall
  on : Option Nat
  deriving DecidableEq, Repr

def ComprUse.use (u : ComprUse) : Use (Option Nat) :=
  match u.call with
  | .opens => .acquire u.on
  | .close => .release u.on
  | _ => .touch u.on

/-- `opened` and `calls` are history: the devices that were opened are numbered. -/
structure StreamOutCompress where
  compress : Option Nat
  paused : Bool
  started : Bool
  useAsync : Bool
  bufferSize : Nat
  refreshGaplessMeta : Bool
  gData : GaplessMdata
  opened : Nat
  calls : List ComprUse
  deriving DecidableEq, Repr

/-- What the compress library answers during one call of the framework. -/
structure ComprAnswers where
  ready : Bool
  fragmentSize : Nat
  fragments : Nat
  written : Int
  start : Int
  result : Int
  nextTrack : Int
  deriving DecidableEq, Repr

/-- Where a write stands between its sections, with the size that is asked for and what the library
has taken. -/
inductive Writing where
  | opened (bytes : Nat)
  | written (bytes : Nat) (ret : Int)
  | starting (bytes : Nat) (ret : Int)
  | begun (bytes : Nat) (ret : Int)
  deriving DecidableEq, Repr

namespace StreamOutCompress

variable (out : StreamOutCompress)

def uses : List (Use (Option Nat)) := out.calls.map ComprUse.use

/-- A call on a pointer that is not the stream's own any more, or not yet. -/
def noteOn (call : ComprCall) (on : Option Nat) : StreamOutCompress :=
  { out with calls := out.calls ++ [⟨call, on⟩] }

def note (call : ComprCall) : StreamOutCompress := out.noteOn call out.compress

end StreamOutCompress

section Player

variable (answers : ComprAnswers) (out : StreamOutCompress)

def doStandbyCompressL : StreamOutCompress :=
  if out.compress.isSome && !out.paused then
    let out := if out.started then { out.note .stop with started := false } else out
    { out.note .close with compress := none }
  else out

def openOutputCompress : Int × StreamOutCompress :=
  if out.compress = none then
    let cmpr := some out.opened
    let out := ({ out with opened := out.opened + 1 }.noteOn .opens cmpr).noteOn .isReady cmpr
    if answers.ready then
      let out := (out.noteOn .setMaxPollWait cmpr).noteOn (.nonblock out.useAsync) cmpr
      (0, { out with compress := cmpr, bufferSize := answers.fragmentSize * answers.fragments })
    else (-ebusy, (out.noteOn .getError cmpr).noteOn .close cmpr)
  else (0, out)

/-- Metadata that was set since the last start goes to the device with this one. -/
def startOutputCompress : Int × StreamOutCompress :=
  let out := out.note (.start (0 ≤ answers.start))
  if answers.start < 0 then (answers.start, doStandbyCompressL out)
  else
    let out := { out with started := true }
    if out.refreshGaplessMeta then
      (answers.start, { out.note (.setGaplessMetadata out.gData) with
        refreshGaplessMeta := false, gData := ⟨0#32, 0#32⟩ })
    else (answers.start, out)

/-- A write opens the device under the lock. It returns a result or goes on. -/
def outCompressWrite (bytes : Nat) : (Int ⊕ Writing) × StreamOutCompress :=
  let opened := openOutputCompress answers out
  (if opened.1 < 0 then .inl opened.1 else .inr (.opened bytes), opened.2)

/-- The next section of a write: the data is handed over and `started` is read without the lock,
the device is started under it, and at the end the worker is asked to poll, with `async.mutex`. -/
def outCompressWriteOn : Writing → (Int ⊕ Writing) × StreamOutCompress × Option AsyncMode
  | .opened bytes =>
    (if answers.written < 0 then .inl answers.written else .inr (.written bytes answers.written),
      out.note .write, none)
  | .written bytes ret =>
    (.inr (if out.started then .begun bytes ret else .starting bytes ret), out, none)
  | .starting bytes ret =>
    let begun := startOutputCompress answers out
    (if begun.1 < 0 then .inl (-1) else .inr (.begun bytes ret), begun.2, none)
  | .begun bytes ret =>
    (.inl ret, out, if out.useAsync && ret.toNat < bytes then some .poll else none)

def outCompressPause : Int × StreamOutCompress :=
  if !out.paused && out.compress.isSome then
    (answers.result, { out.note .pause with paused := true })
  else (-ebadfd, out)

def outCompressResume : Int × StreamOutCompress :=
  if out.paused && out.compress.isSome then
    (answers.result, { out.note .resume with paused := false })
  else (-ebadfd, out)

/-- A drain that waits for its end, of a stream without a worker. -/
def drainAtOnce (early : Bool) : Int × StreamOutCompress :=
  let out := if early then out.note .nextTrack else out
  if early && answers.nextTrack ≠ 0 then (answers.nextTrack, out)
  else (answers.result, { (out.note .drainBegin).note .drainEnd with started := false })

def outCompressDrain (early : Bool) : Int × StreamOutCompress × Option AsyncMode :=
  if out.useAsync then (0, out, some (drainRequest early))
  else ((drainAtOnce answers out early).1, (drainAtOnce answers out early).2, none)

def outCompressFlush : StreamOutCompress :=
  if out.compress.isSome && out.started then
    { out.note .stop with paused := false, started := false }
  else out

def outCompressGetRenderPosition : StreamOutCompress :=
  if out.started then out.note .getTstamp else out

/-- The values that `AUDIO_OFFLOAD_CODEC_DELAY_SAMPLES` and its sibling have in the pairs. -/
def outCompressSetParameters (delay padding : Option (BitVec 32)) : StreamOutCompress :=
  { out with
    gData := ⟨delay.getD out.gData.encoderDelay, padding.getD out.gData.encoderPadding⟩
    refreshGaplessMeta := out.refreshGaplessMeta || delay.isSome || padding.isSome }

/-- The first half of `out_compress_close`. A paused stream is closed as well. -/
def outCompressClose : StreamOutCompress := doStandbyCompressL { out with paused := false }

end Player

/-- Where the worker stands within a request. -/
inductive Serving where
  | fresh
  | nextTrack
  | waiting (on : Option Nat)
  | draining (on : Option Nat)
  | drained
  | served
  deriving DecidableEq, Repr

/-- The pointer that the call was made on that the worker is inside of. -/
@[simp] def Serving.inside : Serving → Option (Option Nat)
  | .waiting on | .draining on => some on
  | .fresh | .nextTrack | .drained | .served => none

/-- How far `adev_close_output_stream` has come. -/
inductive PlayerStage where
  | playing
  | closing
  | freed
  deriving DecidableEq, Repr

/-- A stream with its worker, once `out_set_callback` has made one. -/
structure Player where
  out : StreamOutCompress
  async : Option AsyncCommon
  serving : Serving
  stage : PlayerStage
  writing : Option Writing
  deriving DecidableEq, Repr

/-- What `do_init_out_compress` leaves: the device is opened to see that it exists. -/
def newPlayer (answers : ComprAnswers) : Player where
  out := (openOutputCompress { answers with ready := true }
    ⟨none, false, false, false, 0, false, ⟨0#32, 0#32⟩, 0, []⟩).2
  async := none
  serving := .fresh
  stage := .playing
  writing := none

inductive PlayerCall where
  | setCallback
  | write (answers : ComprAnswers) (bytes : Nat)
  | writeOn (answers : ComprAnswers)
  | pause (answers : ComprAnswers)
  | resume (answers : ComprAnswers)
  | drain (answers : ComprAnswers) (early : Bool)
  | flush
  | getRenderPosition
  | setParameters (delay padding : Option (BitVec 32))
  | standby
  | close
  | closeSignal
  | closeJoin
  | work
  deriving DecidableEq, Repr

/-- A call that may leave a request for the worker. -/
def request (s : Player) (out : StreamOutCompress) : Option AsyncMode → Option Player
  | none => some { s with out := out }
  | some mode => s.async.bind fun async =>
    (requestStep async (some mode)).map fun async => { s with out := out, async := some async }

/-- The first call into the library of a request. -/
def serveFirst (s : Player) : AsyncMode → Player
  | .none => { s with serving := .served }
  | .poll => { s with out := s.out.note .waitBegin, serving := .waiting s.out.compress }
  | .earlyDrain => { s with out := s.out.note .nextTrack, serving := .nextTrack }
  | .fullDrain => { s with out := s.out.note .drainBegin, serving := .draining s.out.compress }

/-- The worker within a request, up to the call back. -/
def serve (s : Player) (mode : AsyncMode) : Player :=
  match s.serving with
  | .fresh => serveFirst s mode
  | .nextTrack => { s with out := s.out.note .drainBegin, serving := .draining s.out.compress }
  | .waiting on => { s with out := s.out.noteOn .waitEnd on, serving := .served }
  | .draining on => { s with out := s.out.noteOn .drainEnd on, serving := .drained }
  | .drained => { s with out := { s.out with started := false }, serving := .served }
  | .served => s

def workPlayer (s : Player) (async : AsyncCommon) : Option Player :=
  match async.worker with
  | .working mode =>
    if s.serving = .served then
      (asyncStep async .work).map fun async => { s with async := some async, serving := .fresh }
    else some (serve s mode)
  | _ => (asyncStep async .work).map fun async => { s with async := some async }

/-- A call of the framework, on a stream that is not being closed. -/
def playerCall (s : Player) : PlayerCall → Option Player
  | .setCallback => if s.async = none then
      some { s with out := { s.out with useAsync := true }, async := some newAsync } else none
  | .write answers bytes =>
    let done := outCompressWrite answers s.out bytes
    some { s with out := done.2, writing := done.1.getRight? }
  | .writeOn answers => s.writing.bind fun writing =>
    let done := outCompressWriteOn answers s.out writing
    request { s with writing := done.1.getRight? } done.2.1 done.2.2
  | .pause answers => some { s with out := (outCompressPause answers s.out).2 }
  | .resume answers => some { s with out := (outCompressResume answers s.out).2 }
  | .drain answers early =>
    let done := (outCompressDrain answers s.out early).2
    request s done.1 done.2
  | .flush => some { s with out := outCompressFlush s.out }
  | .getRenderPosition => some { s with out := outCompressGetRenderPosition s.out }
  | .setParameters delay padding =>
    some { s with out := outCompressSetParameters s.out delay padding }
  | .standby => some { s with out := doStandbyCompressL s.out }
  | .close => some { s with out := outCompressClose s.out, stage := .closing }
  | .closeSignal | .closeJoin | .work => none

/-- A call that goes on with a write. -/
def PlayerCall.goesOn : PlayerCall → Bool
  | .writeOn _ => true
  | _ => false

/-- A write that has begun is gone on with before any other call. -/
def playerStep (s : Player) (c : PlayerCall) : Option Player :=
  match s.stage, c with
  | .freed, _ => none
  | _, .work => s.async.bind fun async => workPlayer s async
  | .playing, c => if s.writing.isSome = c.goesOn then playerCall s c else none
  | .closing, .closeSignal => s.async.bind fun async =>
    (asyncStep async .closeSignal).map fun async => { s with async := some async }
  | .closing, .closeJoin =>
    match s.async with
    | none => some { s with stage := .freed }
    | some async => (asyncStep async .closeJoin).map fun async =>
      { s with async := some async, stage := .freed }
  | .closing, _ => none

/-- What a step is: a call of the framework, a step of the worker, or the rest of closing, which
leaves the stream as it is. -/
inductive PlayerMove (s t : Player) : PlayerCall → Prop
  | call {c : PlayerCall} : s.stage = .playing → s.writing.isSome = c.goesOn →
      playerCall s c = some t → PlayerMove s t c
  | work {async : AsyncCommon} : s.async = some async → workPlayer s async = some t →
      PlayerMove s t .work
  | leave {c : PlayerCall} : s.stage = .closing → t.out = s.out → t.serving = s.serving →
      t.writing = s.writing → c = .closeSignal ∨ c = .closeJoin →
      (∀ async, s.async = some async → ∃ async', t.async = some async' ∧
        (asyncStep async .closeSignal = some async' ∨ asyncStep async .closeJoin = some async')) →
      PlayerMove s t c

theorem playerStep_cases {s t : Player} {c : PlayerCall} (h : playerStep s c = some t) :
    PlayerMove s t c := by
  have hwork (hstep : (s.async.bind fun async => workPlayer s async) = some t) :
      PlayerMove s t .work := by
    obtain ⟨async, hasync, hwork⟩ := Option.bind_eq_some_iff.mp hstep
    exact .work hasync hwork
  unfold playerStep at h
  cases hstage : s.stage with
  | freed =>
    rw [hstage] at h
    cases h
  | playing =>
    rw [hstage] at h
    cases c with
    | work => exact hwork h
    | _ =>
      obtain ⟨hturn, hcall⟩ := Option.ite_none_right_eq_some.mp h
      exact .call hstage hturn hcall
  | closing =>
    rw [hstage] at h
    cases c with
    | work => exact hwork h
    | closeSignal =>
      obtain ⟨async, hasync, hsignal⟩ := Option.bind_eq_some_iff.mp h
      obtain ⟨async', hasync', rfl⟩ := Option.map_eq_some_iff.mp hsignal
      refine .leave hstage rfl rfl rfl (.inl rfl) fun async₁ h₁ => ⟨async', rfl, .inl ?_⟩
      cases hasync.symm.trans h₁
      exact hasync'
    | closeJoin =>
      dsimp only at h
      cases hasync : s.async with
      | none =>
        rw [hasync] at h
        cases h
        exact .leave hstage rfl rfl rfl (.inr rfl) fun async₁ h₁ => by rw [hasync] at h₁; cases h₁
      | some async =>
        rw [hasync] at h
        obtain ⟨async', hasync', rfl⟩ := Option.map_eq_some_iff.mp h
        refine .leave hstage rfl rfl rfl (.inr rfl) fun async₁ h₁ => ⟨async', rfl, .inr ?_⟩
        cases hasync.symm.trans h₁
        exact hasync'
    | _ => cases h

/-- Within a request the worker moves neither the device nor the pause. -/
theorem serve_same (s : Player) (mode : AsyncMode) : (serve s mode).stage = s.stage ∧
    (serve s mode).out.paused = s.out.paused ∧ (serve s mode).out.compress = s.out.compress := by
  unfold serve
  cases s.serving with
  | fresh => cases mode <;> exact ⟨rfl, rfl, rfl⟩
  | _ => exact ⟨rfl, rfl, rfl⟩

theorem serve_async (s : Player) (mode : AsyncMode) : (serve s mode).async = s.async := by
  unfold serve
  cases s.serving with
  | fresh => cases mode <;> rfl
  | _ => rfl

theorem request_eq {s t : Player} {out : StreamOutCompress} {mode : Option AsyncMode}
    (h : request s out mode = some t) :
    t.out = out ∧ t.serving = s.serving ∧ t.stage = s.stage ∧ t.writing = s.writing := by
  cases mode with
  | none =>
    cases h
    exact ⟨rfl, rfl, rfl, rfl⟩
  | some mode =>
    obtain ⟨async, -, hrequest⟩ := Option.bind_eq_some_iff.mp h
    obtain ⟨_, -, rfl⟩ := Option.map_eq_some_iff.mp hrequest
    exact ⟨rfl, rfl, rfl, rfl⟩

/-- A request does not disturb a worker that is busy. -/
theorem request_working {s t : Player} {out : StreamOutCompress} {request' : Option AsyncMode}
    (h : request s out request' = some t) {async : AsyncCommon} {mode : AsyncMode}
    (hasync : s.async = some async) (hw : async.worker = .working mode) :
    ∃ async', t.async = some async' ∧ async'.worker = .working mode := by
  cases request' with
  | none =>
    cases h
    exact ⟨async, hasync, hw⟩
  | some asked =>
    rw [request, hasync] at h
    obtain ⟨async', hrequest, rfl⟩ := Option.map_eq_some_iff.mp h
    refine ⟨async', rfl, ?_⟩
    unfold requestStep signalAsyncThread at hrequest
    dsimp only at hrequest
    split at hrequest
    · cases hrequest
    · cases hrequest
      split
      · exact hw
      · simp [hw, Worker.signal]

end TinyHal
