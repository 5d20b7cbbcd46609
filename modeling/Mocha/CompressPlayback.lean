import Mocha.CompressDevices

/-!
# Pausing and starting a compressed output stream

A paused stream keeps its device, and `paused` ends in three ways only. `started` is
what the stream believes about its device; the worker clears it some time after a
drain has ended, whatever happened to the device in between.
-/
namespace TinyHal

open Transition

/-- What a device does, as far as the calls on it say. -/
inductive ComprState where
  | idle
  | running
  | draining
  deriving DecidableEq, Repr

def ComprState.after : ComprState → ComprCall → ComprState
  | _, .opens | _, .stop | _, .close => .idle
  | _, .start true => .running
  | .running, .drainBegin => .draining
  | .draining, .drainEnd => .idle
  | state, _ => state

def stateOn (calls : List ComprUse) (on : Option Nat) : ComprState :=
  calls.foldl (fun state u => if u.on = on then state.after u.call else state) .idle

/-- The stream's own device. -/
def StreamOutCompress.device (out : StreamOutCompress) : ComprState :=
  if out.compress.isSome then stateOn out.calls out.compress else .idle

/-- Only an idle device is started, and only an idle one is closed. -/
def Tidy (calls : List ComprUse) : Prop :=
  ∀ before u rest, calls = before ++ u :: rest → (u.call = .close ∨ ∃ ok, u.call = .start ok) →
    stateOn before u.on = .idle

/-- The stream knows that its device plays, and this stays so while the worker goes on alone. -/
def Player.Kept (s : Player) : Prop :=
  ∀ n t, run playerStep s (List.replicate n .work) = some t →
    t.out.device ≠ .idle → t.out.started = true

/-- A write starts the device, and it starts. -/
def startsDevice (answers : ComprAnswers) : Writing → Bool
  | .starting _ _ => 0 ≤ answers.start
  | _ => false

/-- A device is started after the worker has begun a drain and before it has cleared `started`. -/
def restarts (s : Player) : PlayerCall → Bool
  | .writeOn answers => s.writing.any (startsDevice answers) && match s.serving with
    | .draining _ | .drained => true
    | _ => false
  | _ => false

/-- A flush ends a pause only on a stream that is started. -/
def unpauses (s : Player) : PlayerCall → Bool
  | .resume _ | .close => true
  | .flush => s.out.started
  | _ => false

section Paused

@[simp] theorem note_paused (out : StreamOutCompress) (call : ComprCall) :
    (out.note call).paused = out.paused := rfl

@[simp] theorem noteOn_paused (out : StreamOutCompress) (call : ComprCall) (on : Option Nat) :
    (out.noteOn call on).paused = out.paused := rfl

@[simp] theorem doStandbyCompressL_paused (out : StreamOutCompress) :
    (doStandbyCompressL out).paused = out.paused := by
  unfold doStandbyCompressL
  split
  · cases out.started <;> rfl
  · rfl

@[simp] theorem openOutputCompress_paused (answers : ComprAnswers) (out : StreamOutCompress) :
    (openOutputCompress answers out).2.paused = out.paused := by
  unfold openOutputCompress
  split
  · cases answers.ready <;> rfl
  · rfl

@[simp] theorem startOutputCompress_paused (answers : ComprAnswers) (out : StreamOutCompress) :
    (startOutputCompress answers out).2.paused = out.paused := by
  unfold startOutputCompress
  dsimp only
  split
  · simp
  · split <;> rfl

@[simp] theorem outCompressWriteOn_paused (answers : ComprAnswers) (out : StreamOutCompress)
    (writing : Writing) : (outCompressWriteOn answers out writing).2.1.paused = out.paused := by
  cases writing with
  | starting bytes ret => exact startOutputCompress_paused answers out
  | _ => rfl

@[simp] theorem drainAtOnce_paused (answers : ComprAnswers) (out : StreamOutCompress) (early : Bool) :
    (drainAtOnce answers out early).2.paused = out.paused := by
  unfold drainAtOnce
  cases early with
  | false => rfl
  | true =>
    dsimp only
    split <;> rfl

/-- A step of the worker leaves the pause and the device alone. -/
theorem workPlayer_pause {s t : Player} {async : AsyncCommon} (hstep : workPlayer s async = some t) :
    t.out.paused = s.out.paused ∧ t.out.compress = s.out.compress := by
  unfold workPlayer at hstep
  split at hstep
  · split at hstep
    · obtain ⟨_, -, rfl⟩ := Option.map_eq_some_iff.mp hstep
      exact ⟨rfl, rfl⟩
    · cases hstep
      exact (serve_same s _).2
  · obtain ⟨_, -, rfl⟩ := Option.map_eq_some_iff.mp hstep
    exact ⟨rfl, rfl⟩

/-- What a step does to a stream: it goes on as it was, it is paused, or the pause ends. -/
inductive PauseStep (s t : Player) (c : PlayerCall) : Prop
  | goes : t.out.paused = s.out.paused →
      (s.out.paused = true → unpauses s c = false ∧ t.out.compress = s.out.compress) →
      PauseStep s t c
  | pauses : s.out.paused = false → s.out.compress.isSome = true →
      t.out.compress = s.out.compress → PauseStep s t c
  | ends : unpauses s c = true → t.out.paused = false → PauseStep s t c

theorem doStandbyCompressL_open {out : StreamOutCompress} (h : out.paused = true) :
    (doStandbyCompressL out).compress = out.compress := by
  rw [doStandbyCompressL_compress, if_pos h]

theorem drainAtOnce_compress (answers : ComprAnswers) (out : StreamOutCompress) (early : Bool) :
    (drainAtOnce answers out early).2.compress = out.compress :=
  (stays_drainAtOnce answers out early).same

theorem playerCall_pause {s t : Player} {c : PlayerCall} (hstep : playerCall s c = some t)
    (hheld : s.out.paused = true → s.out.compress.isSome = true) : PauseStep s t c := by
  cases c with
  | setCallback =>
    rw [playerCall] at hstep
    split at hstep
    case isFalse => cases hstep
    case isTrue =>
      cases hstep
      exact .goes rfl fun _ => ⟨rfl, rfl⟩
  | write answers bytes =>
    cases hstep
    refine .goes (openOutputCompress_paused answers s.out) fun hpaused => ⟨rfl, ?_⟩
    simp only [outCompressWrite, openOutputCompress_idle answers (hheld hpaused)]
  | writeOn answers =>
    obtain ⟨writing, -, hrequest⟩ := Option.bind_eq_some_iff.mp hstep
    obtain ⟨hout, -, -, -⟩ := request_eq hrequest
    refine .goes (by rw [hout, outCompressWriteOn_paused]) fun hpaused => ⟨rfl, ?_⟩
    rw [hout, outCompressWriteOn_compress]
    cases writing <;> simp [startFails, hpaused]
  | pause answers =>
    cases hstep
    have hsame := (stays_pause answers s.out).same
    cases hp : s.out.paused with
    | true => exact .goes (by simp [outCompressPause, hp]) fun _ => ⟨rfl, hsame⟩
    | false =>
      cases hc : s.out.compress with
      | none => exact .goes (by simp [outCompressPause, hp, hc]) fun _ => ⟨rfl, hsame⟩
      | some k => exact .pauses hp (by rw [hc]; rfl) hsame
  | resume answers =>
    cases hstep
    refine .ends rfl ?_
    cases hp : s.out.paused with
    | false => simp [outCompressResume, hp]
    | true => simp [outCompressResume, hp, hheld hp]
  | drain answers early =>
    obtain ⟨hout, -, -, -⟩ := request_eq hstep
    unfold outCompressDrain at hout
    split at hout
    · exact .goes (by rw [hout]) fun _ => ⟨rfl, by rw [hout]⟩
    · refine .goes (by rw [hout, drainAtOnce_paused]) fun _ => ⟨rfl, ?_⟩
      rw [hout, drainAtOnce_compress]
  | flush =>
    cases hstep
    have hsame := (stays_flush s.out).same
    cases hs : s.out.started with
    | false =>
      exact .goes (by simp [outCompressFlush, hs]) fun _ => ⟨hs, hsame⟩
    | true =>
      cases hc : s.out.compress with
      | some k => exact .ends hs (by simp [outCompressFlush, hs, hc])
      | none =>
        refine .goes (by simp [outCompressFlush, hc]) fun hp => ?_
        have hopen := hheld hp
        simp [hc] at hopen
  | getRenderPosition =>
    cases hstep
    refine .goes ?_ fun _ => ⟨rfl, ?_⟩
    · simp only [outCompressGetRenderPosition]
      split <;> rfl
    · simp only [outCompressGetRenderPosition]
      split <;> rfl
  | setParameters delay padding =>
    cases hstep
    exact .goes rfl fun _ => ⟨rfl, rfl⟩
  | standby =>
    cases hstep
    exact .goes (doStandbyCompressL_paused s.out) fun hp => ⟨rfl, doStandbyCompressL_open hp⟩
  | close =>
    cases hstep
    exact .ends rfl (doStandbyCompressL_paused _)
  | closeSignal | closeJoin | work => cases hstep

theorem playerStep_pause {s t : Player} {c : PlayerCall} (hstep : playerStep s c = some t)
    (hheld : s.out.paused = true → s.out.compress.isSome = true) : PauseStep s t c := by
  cases playerStep_cases hstep with
  | call _ _ hcall => exact playerCall_pause hcall hheld
  | work _ hwork =>
    obtain ⟨hpaused, hcompress⟩ := workPlayer_pause hwork
    exact .goes hpaused fun _ => ⟨rfl, hcompress⟩
  | leave _ hout _ _ hc _ =>
    refine .goes (by rw [hout]) fun _ => ⟨?_, by rw [hout]⟩
    rcases hc with rfl | rfl <;> rfl

/-- A paused stream has a device. -/
theorem PauseStep.held {s t : Player} {c : PlayerCall} (h : PauseStep s t c)
    (hheld : s.out.paused = true → s.out.compress.isSome = true) :
    t.out.paused = true → t.out.compress.isSome = true := by
  intro hpaused
  cases h with
  | goes hsame hkeep =>
    rw [hsame] at hpaused
    rw [(hkeep hpaused).2]
    exact hheld hpaused
  | pauses _ hopen hsame =>
    rw [hsame]
    exact hopen
  | ends _ hnot =>
    rw [hnot] at hpaused
    cases hpaused

/-- One step of a paused stream. -/
theorem PauseStep.iff {s t : Player} {c : PlayerCall} (h : PauseStep s t c)
    (hpaused : s.out.paused = true) :
    (t.out.paused = true ∧ t.out.compress = s.out.compress) ↔ unpauses s c = false := by
  cases h with
  | goes hsame hkeep =>
    obtain ⟨hquiet, hcompress⟩ := hkeep hpaused
    rw [hsame, hquiet]
    exact iff_of_true ⟨hpaused, hcompress⟩ rfl
  | pauses hnot _ _ =>
    rw [hpaused] at hnot
    cases hnot
  | ends hends hnot => simp [hends, hnot]

end Paused

/-- A paused stream has a device, and it stays paused with that device, through writes, drains,
standby and whatever the worker does, exactly until it is resumed, closed, or flushed while
started. -/
theorem paused_iff (answers : ComprAnswers) (calls more : List PlayerCall) {s : Player}
    (hrun : run playerStep (newPlayer answers) calls = some s) (hpaused : s.out.paused = true) :
    s.out.compress.isSome = true ∧
      (Along playerStep (fun _ _ t => t.out.paused = true ∧ t.out.compress = s.out.compress) s more ↔
        Along playerStep (fun t c _ => unpauses t c = false) s more) := by
  have hreach : Reachable playerStep (newPlayer answers = ·) s := (Reachable.start rfl).run hrun
  have hheld : s.out.paused = true → s.out.compress.isSome = true :=
    hreach.invariant (fun s => s.out.paused = true → s.out.compress.isSome = true)
      (fun s hs => by rw [← hs]; exact fun h => nomatch h)
      (fun _ _ _ _ h hstep => (playerStep_pause hstep h).held h)
  have hopen := hheld hpaused
  let kept (t : Player) : Prop := t.out.paused = true ∧ t.out.compress = s.out.compress
  have hstep (u : Player) (c : PlayerCall) (t : Player) (hu : kept u)
      (h : playerStep u c = some t) : kept t ↔ unpauses u c = false := by
    obtain ⟨hup, huc⟩ := hu
    rw [← (playerStep_pause h fun _ => huc ▸ hopen).iff hup, huc]
  refine ⟨hopen, ?_, ?_⟩
  · intro halong
    exact halong.mono kept (fun u c t hu h ht => ⟨(hstep u c t hu h).mp ht, ht⟩) ⟨hpaused, rfl⟩
  · intro halong
    refine halong.mono kept (fun u c t hu h hc => ?_) ⟨hpaused, rfl⟩
    have ht := (hstep u c t hu h).mpr hc
    exact ⟨ht, ht⟩

/-- A stream that is paused when it has drained. -/
def pausedAfterDrain : Player :=
  let answers : ComprAnswers := ⟨true, 4096, 4, 4096, 0, 0, 0⟩
  (run playerStep (newPlayer answers)
    (wholeWrite answers 4096 ++ [.drain answers false, .pause answers])).getD (newPlayer answers)

/-- Neither a flush nor standby ends the pause. -/
theorem flush_keeps_pause : Along playerStep
    (fun _ _ t => t.out.paused = true ∧ t.out.compress = pausedAfterDrain.out.compress)
    pausedAfterDrain [.flush, .standby] := by
  let answers : ComprAnswers := ⟨true, 4096, 4, 4096, 0, 0, 0⟩
  have hrun : run playerStep (newPlayer answers)
      (wholeWrite answers 4096 ++ [.drain answers false, .pause answers]) =
        some pausedAfterDrain := by decide
  exact (paused_iff answers _ [.flush, .standby] hrun (by decide)).2.mpr (by decide)

section Device

variable {out : StreamOutCompress}

theorem stateOn_append (calls : List ComprUse) (u : ComprUse) (on : Option Nat) :
    stateOn (calls ++ [u]) on =
      if u.on = on then (stateOn calls on).after u.call else stateOn calls on := by
  rw [stateOn, List.foldl_append]
  rfl

theorem device_note (out : StreamOutCompress) {call : ComprCall}
    (hidle : ComprState.idle.after call = .idle ∨ out.compress.isSome = true) :
    (out.note call).device = out.device.after call := by
  have hcompress : (out.note call).compress = out.compress := rfl
  have hcalls : (out.note call).calls = out.calls ++ [⟨call, out.compress⟩] := rfl
  unfold StreamOutCompress.device
  rw [hcompress, hcalls, stateOn_append, if_pos rfl]
  cases hopen : out.compress.isSome with
  | true => rfl
  | false => exact (hidle.resolve_right (by simp [hopen])).symm

/-- A call that leaves a device as it is. -/
def ComprCall.inert : ComprCall → Bool
  | .opens | .start _ | .stop | .drainBegin | .drainEnd | .close => false
  | _ => true

theorem after_inert {call : ComprCall} (h : call.inert = true) (state : ComprState) :
    state.after call = state := by
  cases call <;> cases state <;> first | rfl | cases h

/-- What the log says about the stream's device agrees with `started`. -/
structure Attuned (out : StreamOutCompress) : Prop where
  tidy : Tidy out.calls
  agrees : out.device ≠ .idle → out.started = true

theorem tidy_noteOn (h : Tidy out.calls) {call : ComprCall} {on : Option Nat}
    (hidle : (call = .close ∨ ∃ ok, call = .start ok) → stateOn out.calls on = .idle) :
    Tidy (out.noteOn call on).calls := by
  intro before u rest heq hu
  have heq : out.calls ++ [⟨call, on⟩] = before ++ u :: rest := heq
  rcases List.eq_nil_or_concat rest with rfl | ⟨rest, last, rfl⟩
  · obtain ⟨rfl, hlast⟩ := List.append_inj' heq rfl
    cases hlast
    exact hidle hu
  · rw [List.concat_eq_append, ← List.cons_append, ← List.append_assoc] at heq
    obtain ⟨hinit, -⟩ := List.append_inj' heq rfl
    exact h before u rest hinit hu

/-- What a call of the framework does to the device, unless it starts it: the device goes on as
it was, or it is idle. -/
structure Attunes (out out' : StreamOutCompress) : Prop where
  attuned : Attuned out → Attuned out'
  device : (out'.device = out.device ∧ out'.compress = out.compress) ∨ out'.device = .idle

theorem Attunes.trans {a b c : StreamOutCompress} (hab : Attunes a b) (hbc : Attunes b c) :
    Attunes a c where
  attuned := fun h => hbc.attuned (hab.attuned h)
  device := by
    rcases hbc.device with ⟨hsame, hcompress⟩ | hidle
    · rw [hsame, hcompress]
      exact hab.device
    · exact .inr hidle

theorem Attunes.same {out' : StreamOutCompress} (hcompress : out'.compress = out.compress)
    (hcalls : out'.calls = out.calls) (hstarted : out.started = true → out'.started = true) :
    Attunes out out' := by
  have hdevice : out'.device = out.device := by
    rw [StreamOutCompress.device, hcompress, hcalls, StreamOutCompress.device]
  refine ⟨fun h => ⟨?_, ?_⟩, .inl ⟨hdevice, hcompress⟩⟩
  · rw [hcalls]
    exact h.tidy
  · rw [hdevice]
    exact fun hnot => hstarted (h.agrees hnot)

theorem attunes_note (out : StreamOutCompress) (call : ComprCall) (hcall : call.inert = true) :
    Attunes out (out.note call) := by
  have hdevice : (out.note call).device = out.device := by
    rw [device_note out (.inl (after_inert hcall _)), after_inert hcall]
  refine ⟨fun h => ⟨tidy_noteOn h.tidy ?_, ?_⟩, .inl ⟨hdevice, rfl⟩⟩
  · rintro (rfl | ⟨ok, rfl⟩) <;> cases hcall
  · rw [hdevice]
    exact h.agrees

/-- The device comes to rest with a stop, and `started` with it. -/
theorem attunes_stop (out : StreamOutCompress) (paused : Bool) :
    Attunes out { out.note .stop with paused := paused, started := false } := by
  have hdevice : (out.note .stop).device = .idle := by
    rw [device_note out (.inl rfl)]
    cases out.device <;> rfl
  refine ⟨fun h => ⟨?_, fun hnot => absurd hdevice hnot⟩, .inr hdevice⟩
  exact tidy_noteOn h.tidy (by rintro (hc | ⟨ok, hc⟩) <;> cases hc)

theorem stateOn_of_open {k : Nat} (hk : out.compress = some k) :
    stateOn out.calls out.compress = out.device := by
  rw [StreamOutCompress.device, hk]
  rfl

theorem Attuned.idle (h : Attuned out) (hstopped : out.started = false) : out.device = .idle := by
  by_contra hplays
  rw [h.agrees hplays] at hstopped
  cases hstopped

theorem Attunes.idle {out' : StreamOutCompress} (h : Attunes out out') (hidle : out.device = .idle) :
    out'.device = .idle := by
  rcases h.device with ⟨hsame, -⟩ | hrests
  · rw [hsame, hidle]
  · exact hrests

/-- A device that is idle is closed. -/
theorem attunes_close (hopen : out.compress.isSome = true)
    (hidle : Attuned out → out.device = .idle) :
    Attunes out { out.note .close with compress := none } where
  attuned := by
    intro h
    obtain ⟨k, hk⟩ := Option.isSome_iff_exists.mp hopen
    refine ⟨tidy_noteOn h.tidy fun _ => ?_, fun hnot => absurd rfl hnot⟩
    rw [stateOn_of_open hk]
    exact hidle h
  device := .inr rfl

theorem attunes_standby (out : StreamOutCompress) : Attunes out (doStandbyCompressL out) := by
  unfold doStandbyCompressL
  split
  case isFalse => exact .same rfl rfl id
  case isTrue h =>
    have hopen : out.compress.isSome := by simp_all
    cases hs : out.started with
    | false => exact attunes_close hopen fun h => h.idle hs
    | true => exact (attunes_stop out out.paused).trans (attunes_close hopen fun h => h.idle rfl)

/-- The device that is opened is idle. -/
theorem attunes_opens (out : StreamOutCompress) (n : Nat) :
    Attunes out { out.noteOn .opens (some n) with compress := some n, opened := n + 1 } := by
  have hdevice : StreamOutCompress.device
      { out.noteOn .opens (some n) with compress := some n, opened := n + 1 } = .idle := by
    have hstate : stateOn (out.noteOn .opens (some n)).calls (some n) = .idle := by
      change stateOn (out.calls ++ [⟨.opens, some n⟩]) (some n) = .idle
      rw [stateOn_append, if_pos rfl]
      cases stateOn out.calls (some n) <;> rfl
    exact hstate
  refine ⟨fun h => ⟨?_, fun hnot => absurd hdevice hnot⟩, .inr hdevice⟩
  exact tidy_noteOn h.tidy (by rintro (hc | ⟨ok, hc⟩) <;> cases hc)

theorem attunes_openOutput (answers : ComprAnswers) (out : StreamOutCompress) :
    Attunes out (openOutputCompress answers out).2 := by
  unfold openOutputCompress
  split
  case isFalse => exact .same rfl rfl id
  case isTrue hclosed =>
    let opened : StreamOutCompress := { out.noteOn .opens (some out.opened) with
      compress := some out.opened, opened := out.opened + 1 }
    have hopened : Attunes out opened := attunes_opens out out.opened
    have hready : Attunes opened (opened.note .isReady) := attunes_note opened _ rfl
    cases answers.ready with
    | true =>
      have hset : Attunes out
          (((opened.note .isReady).note .setMaxPollWait).note (.nonblock out.useAsync)) :=
        ((hopened.trans hready).trans (attunes_note _ _ rfl)).trans (attunes_note _ _ rfl)
      exact hset.trans (.same rfl rfl id)
    | false =>
      have herror : Attunes opened ((opened.note .isReady).note .getError) :=
        hready.trans (attunes_note _ _ rfl)
      have hidle : ((opened.note .isReady).note .getError).device = .idle := by
        apply herror.idle
        rcases hopened.device with ⟨-, hsame⟩ | hidle
        · rw [hclosed] at hsame
          cases hsame
        · exact hidle
      have hclose := (hopened.trans herror).trans (attunes_close rfl fun _ => hidle)
      exact hclose.trans (.same hclosed rfl id)

/-- Only an idle device is started. -/
theorem tidy_start (h : Attuned out) (hopen : out.compress.isSome = true)
    (hstopped : out.started = false) (ok : Bool) : Tidy (out.note (.start ok)).calls := by
  obtain ⟨k, hk⟩ := Option.isSome_iff_exists.mp hopen
  refine tidy_noteOn h.tidy fun _ => ?_
  rw [stateOn_of_open hk]
  exact h.idle hstopped

/-- A start that fails ends in standby, unless the stream is paused. -/
theorem attunes_startFailed {answers : ComprAnswers} (hopen : out.compress.isSome = true)
    (hstopped : out.started = false) (hfail : answers.start < 0) :
    Attunes out (startOutputCompress answers out).2 := by
  have hdecide : decide (0 ≤ answers.start) = false := by simpa using hfail
  have hdevice : (out.note (.start (0 ≤ answers.start))).device = out.device := by
    rw [device_note out (.inr hopen), hdecide]
    cases out.device <;> rfl
  have hnote : Attunes out (out.note (.start (0 ≤ answers.start))) := by
    refine ⟨fun h => ⟨tidy_start h hopen hstopped _, ?_⟩, .inl ⟨hdevice, rfl⟩⟩
    rw [hdevice]
    exact h.agrees
  unfold startOutputCompress
  dsimp only
  rw [if_pos hfail]
  exact hnote.trans (attunes_standby _)

theorem attuned_started {answers : ComprAnswers} (h : Attuned out)
    (hopen : out.compress.isSome = true) (hstopped : out.started = false)
    (hstart : 0 ≤ answers.start) :
    Attuned (startOutputCompress answers out).2 ∧
      (startOutputCompress answers out).2.device = .running := by
  have htidy := tidy_start h hopen hstopped (decide (0 ≤ answers.start))
  have hdevice : (out.note (.start (0 ≤ answers.start))).device = .running := by
    rw [device_note out (.inr hopen), decide_eq_true hstart]
    cases out.device <;> rfl
  let begun : StreamOutCompress := { out.note (.start (0 ≤ answers.start)) with started := true }
  have hbegun : Attuned begun := ⟨htidy, fun _ => rfl⟩
  have hsent : Attunes begun (begun.note (.setGaplessMetadata begun.gData)) := attunes_note begun _ rfl
  unfold startOutputCompress
  dsimp only
  rw [if_neg (by omega)]
  split
  · have hsame : (begun.note (.setGaplessMetadata begun.gData)).device = .running := by
      rw [device_note begun (.inl rfl), ← hdevice]
      exact after_inert rfl _
    have hcleared : Attunes (begun.note (.setGaplessMetadata begun.gData))
        { begun.note (.setGaplessMetadata begun.gData) with
          refreshGaplessMeta := false, gData := ⟨0#32, 0#32⟩ } := .same rfl rfl id
    exact ⟨(hsent.trans hcleared).attuned hbegun, hsame⟩
  · exact ⟨hbegun, hdevice⟩

/-- A section of a write either starts the device, or lets it go on, or brings it to rest. -/
theorem outCompressWriteOn_device (answers : ComprAnswers) {out : StreamOutCompress}
    {writing : Writing} (hopen : out.compress.isSome = true)
    (hstopped : ∀ bytes ret, writing = .starting bytes ret → out.started = false) :
    (startsDevice answers writing = false →
      Attunes out (outCompressWriteOn answers out writing).2.1) ∧
    (startsDevice answers writing = true → Attuned out →
      Attuned (outCompressWriteOn answers out writing).2.1 ∧
        (outCompressWriteOn answers out writing).2.1.device = .running) := by
  cases writing with
  | opened bytes => exact ⟨fun _ => attunes_note _ _ rfl, fun hno => nomatch hno⟩
  | written bytes ret => exact ⟨fun _ => .same rfl rfl id, fun hno => nomatch hno⟩
  | starting bytes ret =>
    have hstopped := hstopped bytes ret rfl
    refine ⟨fun hfail => ?_, fun hstart h => ?_⟩
    · exact attunes_startFailed hopen hstopped (by simpa [startsDevice] using hfail)
    · exact attuned_started h hopen hstopped (by simpa [startsDevice] using hstart)
  | begun bytes ret => exact ⟨fun _ => .same rfl rfl id, fun hno => nomatch hno⟩

theorem attunes_pause (answers : ComprAnswers) (out : StreamOutCompress) :
    Attunes out (outCompressPause answers out).2 := by
  unfold outCompressPause
  split
  · exact (attunes_note out .pause rfl).trans (.same rfl rfl id)
  · exact .same rfl rfl id

theorem attunes_resume (answers : ComprAnswers) (out : StreamOutCompress) :
    Attunes out (outCompressResume answers out).2 := by
  unfold outCompressResume
  split
  · exact (attunes_note out .resume rfl).trans (.same rfl rfl id)
  · exact .same rfl rfl id

theorem attunes_flush (out : StreamOutCompress) : Attunes out (outCompressFlush out) := by
  unfold outCompressFlush
  split
  · exact attunes_stop out false
  · exact .same rfl rfl id

theorem attunes_position (out : StreamOutCompress) :
    Attunes out (outCompressGetRenderPosition out) := by
  unfold outCompressGetRenderPosition
  split
  · exact attunes_note out _ rfl
  · exact .same rfl rfl id

theorem tidy_drains (h : Tidy out.calls) {call : ComprCall} {on : Option Nat}
    (hcall : call = .drainBegin ∨ call = .drainEnd) : Tidy (out.noteOn call on).calls := by
  refine tidy_noteOn h fun hmust => ?_
  rcases hcall with rfl | rfl <;> rcases hmust with hc | ⟨ok, hc⟩ <;> cases hc

/-- After a drain that was waited for the device is idle. -/
theorem attunes_drainAtOnce (answers : ComprAnswers) (out : StreamOutCompress) (early : Bool) :
    Attunes out (drainAtOnce answers out early).2 := by
  have hdrain (out : StreamOutCompress) :
      Attunes out { (out.note .drainBegin).note .drainEnd with started := false } := by
    have hdevice : ((out.note .drainBegin).note .drainEnd).device = .idle := by
      rw [device_note _ (.inl rfl), device_note _ (.inl rfl)]
      cases out.device <;> rfl
    refine ⟨fun h => ⟨?_, fun hnot => absurd hdevice hnot⟩, .inr hdevice⟩
    exact tidy_drains (tidy_drains h.tidy (.inl rfl)) (.inr rfl)
  unfold drainAtOnce
  cases early with
  | false => exact hdrain out
  | true =>
    have hnext : Attunes out (out.note .nextTrack) := attunes_note out _ rfl
    dsimp only
    split
    · exact hnext
    · exact hnext.trans (hdrain _)

end Device

section Kept

/-- The stream knows that its device plays, and the worker that is about to clear `started` has
nothing to hide: a device that drains is the one that the worker is inside of, which does not
run meanwhile, and rests when it has drained. -/
structure KeptOk (s : Player) : Prop where
  attuned : Attuned s.out
  own : s.out.device = .draining → s.serving = .draining s.out.compress
  quiet : (∃ on, s.serving = .draining on) → s.out.device ≠ .running
  rests : s.serving = .drained → s.out.device = .idle

theorem KeptOk.call {s t : Player} (h : KeptOk s) (hserving : t.serving = s.serving)
    (hout : Attunes s.out t.out) : KeptOk t where
  attuned := hout.attuned h.attuned
  own := by
    intro hdraining
    rcases hout.device with ⟨hsame, hcompress⟩ | hidle
    · rw [hserving, hcompress]
      exact h.own (hsame ▸ hdraining)
    · rw [hidle] at hdraining
      cases hdraining
  quiet := by
    rintro ⟨on, hon⟩ hrunning
    rcases hout.device with ⟨hsame, -⟩ | hidle
    · exact h.quiet ⟨on, hserving ▸ hon⟩ (hsame ▸ hrunning)
    · rw [hidle] at hrunning
      cases hrunning
  rests := by
    intro hdrained
    exact hout.idle (h.rests (hserving ▸ hdrained))

theorem KeptOk.not_draining {s : Player} (h : KeptOk s)
    (hserving : ∀ on, s.serving ≠ .draining on) : s.out.device ≠ .draining :=
  fun hdraining => hserving _ (h.own hdraining)

/-- The worker goes on to something else than a drain. -/
theorem KeptOk.goes {s t : Player} (h : KeptOk s) (hbefore : ∀ on, s.serving ≠ .draining on)
    (hafter : ∀ on, t.serving ≠ .draining on) (hdrained : t.serving ≠ .drained)
    (hdevice : t.out.device = s.out.device) (hattuned : Attuned t.out) : KeptOk t where
  attuned := hattuned
  own := fun hdraining => absurd (hdevice.symm.trans hdraining) (h.not_draining hbefore)
  quiet := by
    rintro ⟨on, hon⟩
    exact absurd hon (hafter on)
  rests := fun hrests => absurd hrests hdrained

/-- The worker begins a drain. -/
theorem KeptOk.drains {s : Player} (h : KeptOk s) (hbefore : ∀ on, s.serving ≠ .draining on) :
    KeptOk { s with out := s.out.note .drainBegin, serving := .draining s.out.compress } := by
  have hdevice : (s.out.note .drainBegin).device = s.out.device.after .drainBegin :=
    device_note _ (.inl rfl)
  have hnot := h.not_draining hbefore
  refine ⟨⟨tidy_drains h.attuned.tidy (.inl rfl), ?_⟩, fun _ => rfl, fun _ => ?_, by simp⟩
  · intro hplays
    apply h.attuned.agrees
    intro hidle
    rw [hdevice, hidle] at hplays
    exact hplays rfl
  · change (s.out.note .drainBegin).device ≠ .running
    rw [hdevice]
    cases hd : s.out.device with
    | idle => decide
    | running => decide
    | draining => exact absurd hd hnot

theorem device_noteOn (out : StreamOutCompress) (call : ComprCall) {k : Nat}
    (hk : out.compress = some k) (on : Option Nat) : (out.noteOn call on).device =
      if on = some k then out.device.after call else out.device := by
  have hcalls : (out.noteOn call on).calls = out.calls ++ [⟨call, on⟩] := rfl
  have hcompress : (out.noteOn call on).compress = some k := hk
  unfold StreamOutCompress.device
  rw [hcalls, hcompress, hk, stateOn_append]
  simp

/-- The drain ends on the pointer that it began on. -/
theorem KeptOk.ends {s : Player} (h : KeptOk s) {on : Option Nat} (hon : s.serving = .draining on) :
    KeptOk { s with out := s.out.noteOn .drainEnd on, serving := .drained } := by
  have hrests : (s.out.noteOn .drainEnd on).device = .idle := by
    cases hc : s.out.compress with
    | none =>
      have hcompress : (s.out.noteOn .drainEnd on).compress = none := hc
      rw [StreamOutCompress.device, hcompress]
      rfl
    | some k =>
      rw [device_noteOn _ _ hc]
      cases hd : s.out.device with
      | idle => simp [ComprState.after]
      | running => exact absurd hd (h.quiet ⟨on, hon⟩)
      | draining =>
        have hown := h.own hd
        rw [hon, hc] at hown
        cases hown
        simp [ComprState.after]
  refine ⟨⟨tidy_drains h.attuned.tidy (.inr rfl), fun hnot => absurd hrests hnot⟩, ?_, ?_,
    fun _ => hrests⟩
  · intro hd
    exact absurd (hrests.symm.trans hd) (by decide)
  · rintro ⟨on, hon⟩
    cases hon

theorem KeptOk.serve {s : Player} (h : KeptOk s) (mode : AsyncMode) : KeptOk (serve s mode) := by
  unfold TinyHal.serve
  cases hserving : s.serving with
  | fresh =>
    have hbefore (on : Option Nat) : s.serving ≠ .draining on := by simp [hserving]
    cases mode with
    | none => exact h.goes hbefore (by simp [serveFirst]) (by simp [serveFirst]) rfl h.attuned
    | poll =>
      have hwait := attunes_note s.out .waitBegin rfl
      exact h.goes hbefore (by simp [serveFirst]) (by simp [serveFirst])
        (device_note _ (.inl rfl) |>.trans (after_inert rfl _)) (hwait.attuned h.attuned)
    | earlyDrain =>
      have hnext := attunes_note s.out .nextTrack rfl
      exact h.goes hbefore (by simp [serveFirst]) (by simp [serveFirst])
        (device_note _ (.inl rfl) |>.trans (after_inert rfl _)) (hnext.attuned h.attuned)
    | fullDrain => exact h.drains hbefore
  | nextTrack => exact h.drains (by simp [hserving])
  | waiting on =>
    have hdevice : (s.out.noteOn .waitEnd on).device = s.out.device := by
      cases hc : s.out.compress with
      | none => simp [StreamOutCompress.device, StreamOutCompress.noteOn, hc]
      | some k => rw [device_noteOn _ _ hc, after_inert rfl, ite_self]
    have htidy : Tidy (s.out.noteOn .waitEnd on).calls :=
      tidy_noteOn h.attuned.tidy (by rintro (hc | ⟨ok, hc⟩) <;> cases hc)
    refine h.goes (by simp [hserving]) (by simp) (by simp) hdevice ⟨htidy, ?_⟩
    rw [hdevice]
    exact h.attuned.agrees
  | draining on => exact h.ends hserving
  | drained =>
    have hidle := h.rests hserving
    refine ⟨⟨h.attuned.tidy, fun hnot => absurd hidle hnot⟩, ?_, ?_, by simp⟩
    · intro hd
      exact absurd (hidle.symm.trans hd) (by decide)
    · rintro ⟨on, hon⟩
      cases hon
  | served => exact h

/-- While the worker is within a request its state says so. -/
def Busy (s : Player) : Prop :=
  s.serving ≠ .fresh → ∃ async mode, s.async = some async ∧ async.worker = .working mode

theorem KeptOk.workPlayer {s t : Player} (h : KeptOk s) {async : AsyncCommon}
    (hstep : workPlayer s async = some t) : KeptOk t := by
  unfold TinyHal.workPlayer at hstep
  split at hstep
  · split at hstep
    case isTrue hserved =>
      obtain ⟨_, -, rfl⟩ := Option.map_eq_some_iff.mp hstep
      exact h.goes (by simp [hserved]) (by simp) (by simp) rfl h.attuned
    case isFalse =>
      cases hstep
      exact h.serve _
  · obtain ⟨_, -, rfl⟩ := Option.map_eq_some_iff.mp hstep
    exact h.call rfl (.same rfl rfl id)

/-- A call of the framework that does not start the device under a drain. -/
theorem KeptOk.playerCall {s t : Player} {c : PlayerCall} (h : KeptOk s) (hwrites : WriteOk s)
    (hstep : playerCall s c = some t) (hc : restarts s c = false) : KeptOk t := by
  cases c with
  | setCallback =>
    rw [TinyHal.playerCall] at hstep
    split at hstep
    · cases hstep
      exact h.call rfl (.same rfl rfl id)
    · cases hstep
  | write answers bytes =>
    cases hstep
    exact h.call rfl (attunes_openOutput answers s.out)
  | writeOn answers =>
    obtain ⟨writing, hw, hrequest⟩ := Option.bind_eq_some_iff.mp hstep
    obtain ⟨hout, hserving, -, -⟩ := request_eq hrequest
    obtain ⟨hopen, hstopped⟩ := hwrites writing hw
    obtain ⟨hrest, hstart⟩ := outCompressWriteOn_device answers hopen hstopped
    rw [← hout] at hrest hstart
    cases hstarts : startsDevice answers writing with
    | false => exact h.call hserving (hrest hstarts)
    | true =>
      obtain ⟨hattuned, hrunning⟩ := hstart hstarts h.attuned
      have hfree : (∀ on, s.serving ≠ .draining on) ∧ s.serving ≠ .drained := by
        cases hs : s.serving <;> simp [restarts, hw, hstarts, hs] at hc ⊢
      refine ⟨hattuned, ?_, ?_, ?_⟩
      · exact fun hd => absurd (hrunning.symm.trans hd) (by decide)
      · rintro ⟨on, hon⟩
        exact absurd (hserving ▸ hon) (hfree.1 on)
      · intro hd
        exact absurd (hserving ▸ hd) hfree.2
  | pause answers =>
    cases hstep
    exact h.call rfl (attunes_pause answers s.out)
  | resume answers =>
    cases hstep
    exact h.call rfl (attunes_resume answers s.out)
  | drain answers early =>
    obtain ⟨hout, hserving, -, -⟩ := request_eq hstep
    unfold outCompressDrain at hout
    split at hout
    · exact h.call hserving (hout ▸ .same rfl rfl id)
    · exact h.call hserving (hout ▸ attunes_drainAtOnce answers s.out early)
  | flush =>
    cases hstep
    exact h.call rfl (attunes_flush s.out)
  | getRenderPosition =>
    cases hstep
    exact h.call rfl (attunes_position s.out)
  | setParameters delay padding =>
    cases hstep
    exact h.call rfl (.same rfl rfl id)
  | standby =>
    cases hstep
    exact h.call rfl (attunes_standby s.out)
  | close =>
    cases hstep
    have hunpaused : Attunes s.out { s.out with paused := false } := .same rfl rfl id
    exact h.call rfl (hunpaused.trans (attunes_standby _))
  | closeSignal | closeJoin | work => cases hstep

theorem KeptOk.step {s t : Player} {c : PlayerCall} (h : KeptOk s) (hwrites : WriteOk s)
    (hstep : playerStep s c = some t) (hc : restarts s c = false) : KeptOk t := by
  cases playerStep_cases hstep with
  | call _ _ hcall => exact h.playerCall hwrites hcall hc
  | work _ hwork => exact h.workPlayer hwork
  | leave _ hout hserving _ _ _ => exact h.call hserving (hout ▸ .same rfl rfl id)

/-- The worker on its own starts nothing. -/
theorem KeptOk.kept {s : Player} (h : KeptOk s) (hwrites : WriteOk s) : s.Kept := by
  intro n
  induction n generalizing s with
  | zero =>
    intro t hrun
    cases hrun
    exact h.attuned.agrees
  | succ n ih =>
    intro t hrun
    obtain ⟨u, hu, hrest⟩ := Option.bind_eq_some_iff.mp hrun
    exact ih (h.step hwrites hu rfl) (hwrites.step hu) t hrest

theorem asyncStep_closing {async async' : AsyncCommon} {mode : AsyncMode}
    (hw : async.worker = .working mode)
    (h : asyncStep async .closeSignal = some async' ∨ asyncStep async .closeJoin = some async') :
    async'.worker = .working mode := by
  rcases h with h | h
  · unfold asyncStep at h
    split at h
    · cases h
    · dsimp only at h
      split at h
      · cases h
        simp [hw, Worker.signal]
      · cases h
  · simp [asyncStep, hw] at h

theorem Busy.playerCall {s t : Player} {c : PlayerCall} (h : Busy s)
    (hstep : playerCall s c = some t) : Busy t := by
  have hrequest {u : Player} (hu : Busy u) {out : StreamOutCompress} {mode : Option AsyncMode}
      (hstep : request u out mode = some t) : Busy t := by
    intro hbusy
    rw [(request_eq hstep).2.1] at hbusy
    obtain ⟨async, mode, hasync, hw⟩ := hu hbusy
    obtain ⟨async', hasync', hw'⟩ := request_working hstep hasync hw
    exact ⟨async', mode, hasync', hw'⟩
  cases c with
  | setCallback =>
    rw [TinyHal.playerCall] at hstep
    split at hstep
    case isFalse => cases hstep
    case isTrue hnone =>
      cases hstep
      intro hbusy
      obtain ⟨async, _, hasync, -⟩ := h hbusy
      rw [hnone] at hasync
      cases hasync
  | writeOn answers =>
    obtain ⟨writing, -, hstep⟩ := Option.bind_eq_some_iff.mp hstep
    have hgoes : Busy { s with
        writing := (outCompressWriteOn answers s.out writing).1.getRight? } := h
    exact hrequest hgoes hstep
  | drain answers early => exact hrequest h hstep
  | closeSignal | closeJoin | work => cases hstep
  | _ =>
    cases hstep
    exact h

theorem Busy.step {s t : Player} {c : PlayerCall} (h : Busy s) (hstep : playerStep s c = some t) :
    Busy t := by
  cases playerStep_cases hstep with
  | call _ _ hcall => exact h.playerCall hcall
  | @work async hasync hwork =>
    unfold TinyHal.workPlayer at hwork
    split at hwork
    case h_1 mode hw =>
      split at hwork
      · obtain ⟨_, -, rfl⟩ := Option.map_eq_some_iff.mp hwork
        exact fun hbusy => absurd rfl hbusy
      · cases hwork
        exact fun _ => ⟨async, mode, by rw [serve_async, hasync], hw⟩
    case h_2 hnot =>
      obtain ⟨_, -, rfl⟩ := Option.map_eq_some_iff.mp hwork
      intro hbusy
      obtain ⟨async₁, mode, h₁, hw⟩ := h hbusy
      cases hasync.symm.trans h₁
      exact absurd hw (hnot mode)
  | leave _ _ hserving _ _ hclose =>
    intro hbusy
    obtain ⟨async, mode, hasync, hw⟩ := h (hserving ▸ hbusy)
    obtain ⟨async', hasync', hstep'⟩ := hclose async hasync
    exact ⟨async', mode, hasync', asyncStep_closing hw hstep'⟩

/-- A device that runs under a worker that has only to clear `started`. -/
theorem not_kept_drained {s : Player} (hbusy : Busy s) (hstage : s.stage = .playing)
    (hdrained : s.serving = .drained) (hruns : s.out.device ≠ .idle) : ¬ s.Kept := by
  obtain ⟨async, mode, hasync, hw⟩ := hbusy (by simp [hdrained])
  intro hkept
  let cleared : Player := { s with out := { s.out with started := false }, serving := .served }
  have hclears : playerStep s .work = some cleared := by
    simp [playerStep, hstage, hasync, workPlayer, hw, hdrained, serve, cleared]
  have hrun : run playerStep s (List.replicate 1 .work) = some cleared := by
    rw [List.replicate_one, run_cons, hclears]
    rfl
  have hstarted : false = true := hkept 1 cleared hrun hruns
  cases hstarted

/-- A device that runs under a worker inside of a drain. -/
theorem not_kept_draining {s : Player} (hbusy : Busy s) (hstage : s.stage = .playing) {on : Option Nat}
    (hdraining : s.serving = .draining on) (hruns : s.out.device = .running) : ¬ s.Kept := by
  obtain ⟨async, mode, hasync, hw⟩ := hbusy (by simp [hdraining])
  intro hkept
  let drained : Player := { s with out := s.out.noteOn .drainEnd on, serving := .drained }
  have hends : playerStep s .work = some drained := by
    simp [playerStep, hstage, hasync, workPlayer, hw, hdraining, serve, drained]
  have hdevice : drained.out.device = .running := by
    cases hc : s.out.compress with
    | none =>
      rw [StreamOutCompress.device, hc] at hruns
      cases hruns
    | some k =>
      have hnoted : drained.out.device = _ := device_noteOn s.out .drainEnd hc on
      rw [hnoted, hruns]
      exact ite_self _
  refine not_kept_drained (fun _ => ⟨async, mode, hasync, hw⟩) hstage (s := drained) rfl
    (by rw [hdevice]; decide) ?_
  intro n t hrun
  apply hkept (n + 1) t
  rw [List.replicate_succ, run_cons, hends]
  exact hrun

/-- A start under a drain is forgotten once the worker gets on. -/
theorem not_kept {s t : Player} {c : PlayerCall} (h : KeptOk s) (hbusy : Busy s) (hwrites : WriteOk s)
    (hstep : playerStep s c = some t) (hc : restarts s c = true) : ¬ t.Kept := by
  have hbusy' := hbusy.step hstep
  cases c with
  | writeOn answers =>
    cases playerStep_cases hstep with
    | leave _ _ _ _ hclose _ => rcases hclose with hclose | hclose <;> cases hclose
    | call hstage _ hcall =>
      obtain ⟨writing, hw, hrequest⟩ := Option.bind_eq_some_iff.mp hcall
      obtain ⟨hout, hserving, hkeep, -⟩ := request_eq hrequest
      obtain ⟨hopen, hstopped⟩ := hwrites writing hw
      have hstarts : startsDevice answers writing = true := by
        rw [restarts, hw, Bool.and_eq_true] at hc
        exact hc.1
      have hrunning := ((outCompressWriteOn_device answers hopen hstopped).2 hstarts h.attuned).2
      rw [← hout] at hrunning
      have hstage' := hkeep.trans hstage
      cases hs : s.serving with
      | draining on => exact not_kept_draining hbusy' hstage' (hserving.trans hs) hrunning
      | drained =>
        exact not_kept_drained hbusy' hstage' (hserving.trans hs) (by rw [hrunning]; decide)
      | _ => simp [restarts, hs] at hc
  | _ => cases hc

theorem newPlayer_kept (answers : ComprAnswers) :
    KeptOk (newPlayer answers) ∧ Busy (newPlayer answers) := by
  let idle : StreamOutCompress :=
    ⟨none, false, false, false, 0, false, ⟨0#32, 0#32⟩, 0, []⟩
  have hidle : Attuned idle := by
    refine ⟨?_, fun hnot => absurd rfl hnot⟩
    intro before u rest heq
    exact absurd heq (by simp [idle])
  have hopened := attunes_openOutput { answers with ready := true } idle
  have hdevice : (newPlayer answers).out.device = .idle := hopened.idle rfl
  refine ⟨⟨hopened.attuned hidle, ?_, ?_, ?_⟩, fun hbusy => absurd rfl hbusy⟩
  · intro hd
    exact absurd (hdevice.symm.trans hd) (by decide)
  · rintro ⟨on, hon⟩
    cases hon
  · intro hd
    cases hd

end Kept

/-- In every state of a run the stream knows that its device plays, and goes on knowing it,
exactly if no write starts the device between the beginning of a drain by the worker and the
worker's `started = false`. Then only idle devices have been started, and only idle ones
closed. -/
theorem kept_iff (answers : ComprAnswers) (calls : List PlayerCall) {t : Player}
    (hrun : run playerStep (newPlayer answers) calls = some t) :
    (Along playerStep (fun _ _ u => u.Kept) (newPlayer answers) calls ↔
      Along playerStep (fun s c _ => restarts s c = false) (newPlayer answers) calls) ∧
    (Along playerStep (fun s c _ => restarts s c = false) (newPlayer answers) calls →
      Tidy t.out.calls) := by
  let fine (s : Player) : Prop := KeptOk s ∧ Busy s ∧ WriteOk s
  have hfine : fine (newPlayer answers) :=
    ⟨(newPlayer_kept answers).1, (newPlayer_kept answers).2, writeOk_none rfl⟩
  have hstep (s : Player) (c : PlayerCall) (u : Player) (h : fine s)
      (hstep : playerStep s c = some u) (hc : restarts s c = false) : fine u :=
    ⟨h.1.step h.2.2 hstep hc, h.2.1.step hstep, h.2.2.step hstep⟩
  refine ⟨⟨?_, ?_⟩, ?_⟩
  · intro halong
    refine halong.mono fine (fun s c u h hu hkept => ?_) hfine
    have hc : restarts s c = false := by
      cases hc : restarts s c with
      | false => rfl
      | true => exact absurd hkept (not_kept h.1 h.2.1 h.2.2 hu hc)
    exact ⟨hc, hstep s c u h hu hc⟩
  · intro halong
    refine halong.mono fine (fun s c u h hu hc => ?_) hfine
    have hu := hstep s c u h hu hc
    exact ⟨hu.1.kept hu.2.2, hu⟩
  · intro halong
    exact (halong.invariant fine (fun s c u h hu hc => hstep s c u h hu hc) hfine hrun).1.attuned.tidy

/-- A flush cuts a drain short, and the next write starts the device again. -/
def flushInDrain : List PlayerCall :=
  let answers : ComprAnswers := ⟨true, 4096, 4, 4096, 0, 0, 0⟩
  .setCallback :: wholeWrite answers 4096 ++
    [.work, .work, .drain answers false, .work, .work, .flush] ++ wholeWrite answers 4096

theorem flushInDrain_forgotten : ¬ Along playerStep (fun _ _ u => u.Kept)
    (newPlayer ⟨true, 4096, 4, 0, 0, 0, 0⟩) flushInDrain := by
  obtain ⟨t, hrun⟩ : ∃ t,
      run playerStep (newPlayer ⟨true, 4096, 4, 0, 0, 0, 0⟩) flushInDrain = some t := by
    rw [← Option.isSome_iff_exists]
    decide
  rw [(kept_iff ⟨true, 4096, 4, 0, 0, 0, 0⟩ flushInDrain hrun).1]
  decide

end TinyHal
