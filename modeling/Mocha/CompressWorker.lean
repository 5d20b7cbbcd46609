import Mocha.AudioOutput

/-!
# The worker of a compressed output stream

`out_compress_write` and `out_compress_drain` leave a request in `mode` and signal
the worker `out_compress_async_fn`; `do_close_out_common` sets `exit`, signals and
joins. A step is one section under the mutex, or what a thread does between two of
them. The signal reaches the worker only while it waits, and the worker waits
without looking at `mode` and `exit` first.
-/
namespace TinyHal

open Transition

inductive AsyncMode where
  | none
  | poll
  | earlyDrain
  | fullDrain
  deriving DecidableEq, Repr

inductive StreamEvent where
  | writeReady
  | drainReady
  deriving DecidableEq, Repr

/-- Where the worker stands: at the loop's test of `exit`, between the test and the wait,
waiting, signalled, busy with a request, or gone. -/
inductive Worker where
  | test
  | lock
  | waiting
  | woken
  | working (mode : AsyncMode)
  | done
  deriving DecidableEq, Repr

/-- `joining` and `joined` are `do_close_out_common` before and after `pthread_join`. -/
inductive Closing where
  | opened
  | joining
  | joined
  deriving DecidableEq, Repr

/-- `locked` says that the worker left the loop with the mutex. The last two fields are
history: the requests that were accepted, and those that the worker took. -/
structure AsyncCommon where
  exit : Bool
  mode : AsyncMode
  locked : Bool
  worker : Worker
  closing : Closing
  callbacks : List StreamEvent
  accepted : List AsyncMode
  taken : List AsyncMode
  deriving DecidableEq, Repr

/-- After `out_set_callback`, with the worker at its start. -/
def newAsync : AsyncCommon := ⟨false, .none, false, .test, .opened, [], [], []⟩

/-- `pthread_cond_signal`. -/
def Worker.signal : Worker → Worker
  | .waiting => .woken
  | w => w

def signalAsyncThread (async : AsyncCommon) (mode : AsyncMode) : Int × AsyncCommon :=
  if async.mode ≠ .none then (-ebusy, async)
  else (0, { async with
    mode := mode, worker := async.worker.signal, accepted := async.accepted ++ [mode] })

/-- How `open_output_compress`, `compress_write` and `start_output_compress` end. -/
structure WriteAnswers where
  opened : Bool
  written : Int
  started : Bool
  deriving DecidableEq, Repr

/-- The request of `out_compress_write`: for a call back unless all bytes were written. -/
def writeRequest (answers : WriteAnswers) (bytes : Nat) : Option AsyncMode :=
  if answers.opened && answers.written ≥ 0 && answers.started && answers.written.toNat < bytes
  then some .poll else none

def drainRequest (early : Bool) : AsyncMode := if early then .earlyDrain else .fullDrain

/-- What the worker calls back after a request. -/
def callbackEvent : AsyncMode → List StreamEvent
  | .none => []
  | .poll => [.writeReady]
  | .earlyDrain | .fullDrain => [.drainReady]

/-- The next step of the worker. It leaves the loop from within with the mutex locked. -/
def workerStep (async : AsyncCommon) : Option AsyncCommon :=
  match async.worker with
  | .test => some { async with worker := if async.exit then .done else .lock }
  | .lock => some { async with worker := .waiting }
  | .waiting => none
  | .woken =>
    if async.exit then some { async with worker := .done, locked := true }
    else some { async with
      worker := .working async.mode, mode := .none, taken := async.taken ++ [async.mode] }
  | .working mode =>
    some { async with worker := .test, callbacks := async.callbacks ++ callbackEvent mode }
  | .done => none

inductive AsyncCall where
  | write (answers : WriteAnswers) (bytes : Nat)
  | drain (early : Bool)
  | closeSignal
  | closeJoin
  | work
  deriving DecidableEq, Repr

/-- The section of `signal_async_thread` for the request of a call, if it makes one. -/
def requestStep (async : AsyncCommon) : Option AsyncMode → Option AsyncCommon
  | none => some async
  | some mode => if async.locked then none else some (signalAsyncThread async mode).2

/-- A section under the mutex needs it, and a stream that is closed is freed. -/
def asyncStep (async : AsyncCommon) (c : AsyncCall) : Option AsyncCommon :=
  if async.closing = .joined then none
  else match c with
  | .write answers bytes => requestStep async (writeRequest answers bytes)
  | .drain early => requestStep async (some (drainRequest early))
  | .closeSignal =>
    if async.closing = .opened ∧ async.locked = false then
      some { async with exit := true, worker := async.worker.signal, closing := .joining }
    else none
  | .closeJoin =>
    if async.closing = .joining ∧ async.worker = .done then some { async with closing := .joined }
    else none
  | .work => workerStep async

/-- The worker waits, nobody is about to wake it, and there is something to do. -/
def Unheard (async : AsyncCommon) : Prop :=
  async.worker = .waiting ∧ (async.mode ≠ .none ∨ async.exit = true)

/-- What the worker comes to when it runs alone for `n` steps. -/
def alone (async : AsyncCommon) (n : Nat) : Option AsyncCommon :=
  run asyncStep async (List.replicate n .work)

/-- No request is lost. The worker left to itself does not fall asleep on a request or on the
exit flag; it takes the request there is, and it ends when it should. -/
structure Attended (async : AsyncCommon) : Prop where
  heard : ∀ n t, alone async n = some t → ¬ Unheard t
  accounted : async.accepted = async.taken ++ if async.mode = .none then [] else [async.mode]
  served : async.mode ≠ .none →
    ∃ n t, alone async n = some t ∧ t.worker = .working async.mode ∧ t.mode = .none
  joined : async.closing ≠ .joined → async.exit = true →
    ∃ n t, alone async n = some t ∧ t.worker = .done

/-- The worker is neither waiting nor about to leave the wait. -/
def Worker.absent : Worker → Bool
  | .test | .lock | .working _ => true
  | .waiting | .woken | .done => false

/-- A request is accepted while the worker does not wait, or is to exit. -/
def requestUnheard (async : AsyncCommon) (request : Option AsyncMode) : Bool :=
  request.isSome && async.mode = .none && (async.exit || async.worker.absent)

/-- Such a request, and a close while a request is pending or between the worker's test of the exit
flag and its wait. -/
def unattended (async : AsyncCommon) : AsyncCall → Bool
  | .write answers bytes => requestUnheard async (writeRequest answers bytes)
  | .drain early => requestUnheard async (some (drainRequest early))
  | .closeSignal => async.mode ≠ .none || async.worker = .lock
  | .closeJoin | .work => false

section Invariant

/-- A request is only there together with the wake-up for it, and once the exit flag is set there
is none and the worker is on its way out. -/
structure AsyncOk (async : AsyncCommon) : Prop where
  accounted : async.accepted = async.taken ++ if async.mode = .none then [] else [async.mode]
  request : async.exit = false → (async.mode ≠ .none ↔ async.worker = .woken)
  empty : async.exit = true → async.mode = .none
  leaving : async.exit = true → async.worker ≠ .waiting ∧ async.worker ≠ .lock
  flag : async.exit = true ↔ async.closing ≠ .opened
  free : async.locked = true → async.worker = .done
  gone : async.worker = .done → async.exit = true

theorem newAsync_ok : AsyncOk newAsync where
  accounted := rfl
  request := fun _ => by decide
  empty := by decide
  leaving := by decide
  flag := by decide
  free := by decide
  gone := by decide

theorem workerStep_ok {async t : AsyncCommon} (h : AsyncOk async) (hstep : workerStep async = some t) :
    AsyncOk t := by
  obtain ⟨hacc, hrequest, hempty, hleaving, hflag, hfree, hgone⟩ := h
  unfold workerStep at hstep
  cases hw : async.worker with
  | test =>
    simp only [hw, Option.some.injEq] at hstep hrequest hfree
    subst hstep
    by_cases hexit : async.exit = true
    · exact ⟨hacc, by simp [hexit], hempty, by simp [hexit], hflag, by simp [hexit], by simp [hexit]⟩
    · have hfree : async.locked = false := by simpa using hfree
      refine ⟨hacc, ?_, hempty, by simp [hexit], hflag, by simp [hfree], by simp [hexit]⟩
      simpa [hexit] using hrequest
  | lock =>
    simp only [hw, Option.some.injEq] at hstep hrequest hfree hleaving
    subst hstep
    have hexit : ¬ async.exit = true := fun hexit => (hleaving hexit).2 rfl
    refine ⟨hacc, ?_, hempty, by simp [hexit], hflag, by simpa using hfree, by simp⟩
    simpa [hexit] using hrequest
  | waiting => simp [hw] at hstep
  | woken =>
    simp only [hw] at hstep hfree
    by_cases hexit : async.exit = true
    · rw [if_pos hexit, Option.some.injEq] at hstep
      subst hstep
      exact ⟨hacc, by simp [hexit], hempty, by simp, hflag, by simp, by simp [hexit]⟩
    · have hmode : async.mode ≠ .none := (hrequest (by simpa using hexit)).mpr hw
      rw [if_neg hexit, Option.some.injEq] at hstep
      subst hstep
      rw [if_neg hmode] at hacc
      exact ⟨by simpa using hacc, by simp, by simp, by simp, hflag, by simpa using hfree, by simp⟩
  | working mode =>
    simp only [hw, Option.some.injEq] at hstep hrequest hfree
    subst hstep
    exact ⟨hacc, by simpa using hrequest, hempty, by simp, hflag, by simpa using hfree, by simp⟩
  | done => simp [hw] at hstep

/-- A request on the way in: the worker is woken for it. -/
theorem signalAsyncThread_ok {async : AsyncCommon} (h : AsyncOk async) {mode : AsyncMode}
    (hmode : mode ≠ .none)
    (hheard : async.mode = .none → async.exit = false ∧ async.worker.absent = false) :
    AsyncOk (signalAsyncThread async mode).2 := by
  unfold signalAsyncThread
  by_cases hbusy : async.mode ≠ .none
  · rw [if_pos hbusy]
    exact h
  · rw [if_neg hbusy]
    obtain ⟨hacc, hrequest, hempty, hleaving, hflag, hfree, hgone⟩ := h
    have hnone : async.mode = .none := not_not.mp hbusy
    rw [if_pos hnone] at hacc
    obtain ⟨hexit, hheard⟩ := hheard hnone
    have hnot : async.worker ≠ .woken := fun hw => (hrequest hexit).mpr hw hnone
    have hstay : async.worker ≠ .done := fun hw => by simp [hgone hw] at hexit
    have hwait : async.worker = .waiting := by
      cases hw : async.worker <;> simp_all [Worker.absent]
    refine ⟨?_, ?_, by simp [hexit], by simp [hexit], hflag, ?_, ?_⟩
    · simp [hacc, hmode]
    · intro _
      simp [hmode, hwait, Worker.signal]
    · intro hlocked
      exact absurd (hfree hlocked) hstay
    · intro hdone
      rw [hwait] at hdone
      cases hdone

theorem writeRequest_ne_none {answers : WriteAnswers} {bytes : Nat} :
    ∀ mode ∈ writeRequest answers bytes, mode ≠ .none := by
  unfold writeRequest
  split <;> simp

theorem requestStep_ok {async t : AsyncCommon} (h : AsyncOk async) {request : Option AsyncMode}
    (hmode : ∀ mode ∈ request, mode ≠ .none) (hstep : requestStep async request = some t)
    (hc : requestUnheard async request = false) : AsyncOk t := by
  cases request with
  | none =>
    cases hstep
    exact h
  | some mode =>
    unfold requestStep at hstep
    dsimp only at hstep
    split at hstep
    · cases hstep
    · cases hstep
      refine signalAsyncThread_ok h (hmode mode rfl) ?_
      intro hnone
      simpa [requestUnheard, hnone] using hc

theorem asyncStep_ok {async t : AsyncCommon} {c : AsyncCall} (h : AsyncOk async)
    (hstep : asyncStep async c = some t) (hc : unattended async c = false) : AsyncOk t := by
  unfold asyncStep at hstep
  split at hstep
  · cases hstep
  cases c with
  | write answers bytes => exact requestStep_ok h writeRequest_ne_none hstep hc
  | drain early =>
    refine requestStep_ok h ?_ hstep hc
    cases early <;> simp [drainRequest]
  | work => exact workerStep_ok h hstep
  | closeSignal =>
    dsimp only at hstep
    split at hstep
    case isFalse => cases hstep
    case isTrue hopen =>
      cases hstep
      obtain ⟨hacc, hrequest, hempty, hleaving, hflag, hfree, hgone⟩ := h
      obtain ⟨hnone, hlock⟩ : async.mode = .none ∧ async.worker ≠ .lock := by
        simpa [unattended] using hc
      refine ⟨hacc, by simp, fun _ => hnone, ?_, by simp, by simp [hopen.2], by simp⟩
      intro _
      cases hw : async.worker <;> simp_all [Worker.signal]
  | closeJoin =>
    dsimp only at hstep
    split at hstep
    case isFalse => cases hstep
    case isTrue hjoin =>
      cases hstep
      obtain ⟨hacc, hrequest, hempty, hleaving, hflag, hfree, hgone⟩ := h
      have hexit : async.exit = true := hgone hjoin.2
      exact ⟨hacc, hrequest, hempty, hleaving, by simp [hexit], hfree, hgone⟩

theorem AsyncOk.not_unheard {async : AsyncCommon} (h : AsyncOk async) : ¬ Unheard async := by
  rintro ⟨hwait, hwork⟩
  by_cases hexit : async.exit = true
  · exact (h.leaving hexit).1 hwait
  · have hwoken := (h.request (by simpa using hexit)).mp (hwork.resolve_right hexit)
    rw [hwait] at hwoken
    cases hwoken

theorem AsyncOk.alone {async t : AsyncCommon} (h : AsyncOk async) {n : Nat}
    (hrun : alone async n = some t) : AsyncOk t := by
  induction n generalizing async with
  | zero =>
    cases hrun
    exact h
  | succ n ih =>
    obtain ⟨u, hu, hrest⟩ := Option.bind_eq_some_iff.mp hrun
    exact ih (asyncStep_ok h hu rfl) hrest

theorem alone_zero (async : AsyncCommon) : alone async 0 = some async := rfl

theorem alone_succ {async : AsyncCommon} (hopen : async.closing ≠ .joined) (n : Nat) :
    alone async (n + 1) = (workerStep async).bind fun t => alone t n := by
  have hstep : asyncStep async .work = workerStep async := if_neg hopen
  rw [alone, List.replicate_succ, run_cons, hstep]
  rfl

theorem AsyncOk.attended {async : AsyncCommon} (h : AsyncOk async) : Attended async where
  heard := fun _ _ hrun => (h.alone hrun).not_unheard
  accounted := h.accounted
  served := by
    intro hmode
    have hexit : async.exit = false := by
      cases hexit : async.exit with
      | false => rfl
      | true => exact absurd (h.empty hexit) hmode
    have hopen : async.closing ≠ .joined := by
      intro hjoined
      rw [h.flag.mpr (by simp [hjoined])] at hexit
      cases hexit
    have hwoken := (h.request hexit).mp hmode
    let served : AsyncCommon := { async with
      worker := .working async.mode, mode := .none, taken := async.taken ++ [async.mode] }
    refine ⟨1, served, ?_, rfl, rfl⟩
    simp [alone_succ hopen, workerStep, hwoken, hexit, alone_zero, served]
  joined := by
    intro hopen hexit
    cases hw : async.worker with
    | test =>
      refine ⟨1, { async with worker := .done }, ?_, rfl⟩
      simp [alone_succ hopen, workerStep, hw, hexit, alone_zero]
    | lock => exact absurd hw (h.leaving hexit).2
    | waiting => exact absurd hw (h.leaving hexit).1
    | woken =>
      refine ⟨1, { async with worker := .done, locked := true }, ?_, rfl⟩
      simp [alone_succ hopen, workerStep, hw, hexit, alone_zero]
    | working mode =>
      let left : AsyncCommon := { async with
        worker := .test, callbacks := async.callbacks ++ callbackEvent mode }
      have hleft : left.closing ≠ .joined := hopen
      refine ⟨2, { left with worker := .done }, ?_, rfl⟩
      rw [alone_succ hopen, workerStep, hw, Option.bind_some, alone_succ hleft]
      simp [workerStep, hexit, alone_zero, left]
    | done => exact ⟨0, async, rfl, hw⟩

/-- A worker at the test or before the wait goes to sleep on a request. -/
theorem sleeps_soon {async : AsyncCommon} (hopen : async.closing ≠ .joined)
    (hmode : async.mode ≠ .none) (hexit : async.exit = false)
    (hw : async.worker = .test ∨ async.worker = .lock) :
    ∃ n t, alone async n = some t ∧ Unheard t := by
  rcases hw with hw | hw
  · let tested : AsyncCommon := { async with worker := .lock }
    have htested : tested.closing ≠ .joined := hopen
    have htest : workerStep async = some tested := by simp [workerStep, hw, hexit, tested]
    refine ⟨2, { async with worker := .waiting }, ?_, rfl, .inl hmode⟩
    rw [alone_succ hopen, htest, Option.bind_some, alone_succ htested]
    rfl
  · refine ⟨1, { async with worker := .waiting }, ?_, rfl, .inl hmode⟩
    rw [alone_succ hopen, workerStep, hw]
    rfl

/-- A worker that is absent with a request there goes to sleep on it. -/
theorem sleeps_on_request {async : AsyncCommon} (hopen : async.closing ≠ .joined)
    (hmode : async.mode ≠ .none) (hexit : async.exit = false)
    (habsent : async.worker.absent = true) : ∃ n t, alone async n = some t ∧ Unheard t := by
  cases hw : async.worker with
  | test => exact sleeps_soon hopen hmode hexit (.inl hw)
  | lock => exact sleeps_soon hopen hmode hexit (.inr hw)
  | working mode =>
    let finished : AsyncCommon := { async with
      worker := .test, callbacks := async.callbacks ++ callbackEvent mode }
    have hfinished : finished.closing ≠ .joined := hopen
    obtain ⟨n, t, hrun, hunheard⟩ := sleeps_soon hfinished hmode hexit (.inl rfl)
    refine ⟨n + 1, t, ?_, hunheard⟩
    rw [alone_succ hopen, workerStep, hw]
    exact hrun
  | waiting => simp [hw, Worker.absent] at habsent
  | woken => simp [hw, Worker.absent] at habsent
  | done => simp [hw, Worker.absent] at habsent

/-- A worker that is to exit takes no request. -/
theorem alone_leaving {async t : AsyncCommon} (hexit : async.exit = true) {n : Nat}
    (hrun : alone async n = some t) : t.mode = async.mode := by
  induction n generalizing async with
  | zero =>
    cases hrun
    rfl
  | succ n ih =>
    obtain ⟨u, hu, hrest⟩ := Option.bind_eq_some_iff.mp hrun
    have hu : u.exit = true ∧ u.mode = async.mode := by
      unfold asyncStep at hu
      split at hu
      · cases hu
      · dsimp only at hu
        unfold workerStep at hu
        cases hw : async.worker with
        | test =>
          rw [hw] at hu
          cases hu
          exact ⟨hexit, rfl⟩
        | lock =>
          rw [hw] at hu
          cases hu
          exact ⟨hexit, rfl⟩
        | woken =>
          simp only [hw, hexit, if_true, Option.some.injEq] at hu
          subst hu
          exact ⟨rfl, rfl⟩
        | working mode =>
          rw [hw] at hu
          cases hu
          exact ⟨hexit, rfl⟩
        | waiting => simp [hw] at hu
        | done => simp [hw] at hu
    exact (ih hu.1 hrest).trans hu.2

/-- A request that is pending when the worker is to exit is lost. -/
theorem leaving_unattended {async : AsyncCommon} (hexit : async.exit = true)
    (hmode : async.mode ≠ .none) : ¬ Attended async := by
  intro hattended
  obtain ⟨n, t, hrun, -, hnone⟩ := hattended.served hmode
  rw [alone_leaving hexit hrun] at hnone
  exact hmode hnone

theorem requestStep_unattended {async t : AsyncCommon} {request : Option AsyncMode}
    (hmode : ∀ mode ∈ request, mode ≠ .none) (hopen : async.closing ≠ .joined)
    (hmake : requestStep async request = some t) (hunheard : requestUnheard async request = true) :
    ¬ Attended t := by
  simp only [requestUnheard, Bool.and_eq_true, Bool.or_eq_true, decide_eq_true_eq] at hunheard
  obtain ⟨⟨hsome, hnone⟩, hcause⟩ := hunheard
  obtain ⟨mode, rfl⟩ := Option.isSome_iff_exists.mp hsome
  unfold requestStep signalAsyncThread at hmake
  dsimp only at hmake
  split at hmake
  · cases hmake
  · rw [if_neg (not_not.mpr hnone)] at hmake
    cases hmake
    by_cases hexit : async.exit = true
    · exact leaving_unattended hexit (hmode mode rfl)
    · have habsent : async.worker.absent = true := hcause.resolve_left hexit
      have hsignal : async.worker.signal = async.worker := by
        cases hw : async.worker <;> simp_all [Worker.signal, Worker.absent]
      rw [hsignal]
      intro hattended
      obtain ⟨n, t, hrun, hsleeps⟩ := @sleeps_on_request
        { async with mode := mode, accepted := async.accepted ++ [mode] } hopen (hmode mode rfl)
        (by simpa using hexit) habsent
      exact hattended.heard n t hrun hsleeps

theorem asyncStep_unattended {async t : AsyncCommon} {c : AsyncCall}
    (hstep : asyncStep async c = some t) (hc : unattended async c = true) : ¬ Attended t := by
  unfold asyncStep at hstep
  split at hstep
  case isTrue => cases hstep
  case isFalse hopen =>
    cases c with
    | write answers bytes => exact requestStep_unattended writeRequest_ne_none hopen hstep hc
    | drain early =>
      refine requestStep_unattended ?_ hopen hstep hc
      cases early <;> simp [drainRequest]
    | closeSignal =>
      dsimp only at hstep
      split at hstep
      case isFalse => cases hstep
      case isTrue =>
        cases hstep
        simp only [unattended, Bool.or_eq_true, decide_eq_true_eq] at hc
        rcases hc with hpending | hlock
        · exact leaving_unattended rfl hpending
        · intro hattended
          refine hattended.heard 1
            { async with exit := true, worker := .waiting, closing := .joining } ?_ ⟨rfl, .inr rfl⟩
          rw [alone_succ (by simp), workerStep, hlock]
          rfl
    | closeJoin => cases hc
    | work => cases hc

end Invariant

/-- From `out_set_callback` on, no request and no exit is lost on the worker exactly in the
runs in which every accepted request finds it in its wait and not told to exit, and no close comes
while a request is pending or between the worker's test of the exit flag and its wait. -/
theorem attended_iff (calls : List AsyncCall) :
    Along asyncStep (fun async c _ => unattended async c = false) newAsync calls ↔
      Along asyncStep (fun _ _ t => Attended t) newAsync calls := by
  constructor
  · intro hgood
    refine Along.mono AsyncOk ?_ newAsync_ok hgood
    intro async c t h hstep hc
    have ht := asyncStep_ok h hstep hc
    exact ⟨ht.attended, ht⟩
  · intro hattended
    refine Along.mono AsyncOk ?_ newAsync_ok hattended
    intro async c t h hstep ht
    cases hc : unattended async c with
    | false => exact ⟨rfl, asyncStep_ok h hstep hc⟩
    | true => exact absurd ht (asyncStep_unattended hstep hc)

/-- A request that was not heard stays, and blocks all others, until the stream is closed. -/
theorem unheard_refuses {async t : AsyncCommon} (h : Unheard async) (hmode : async.mode ≠ .none)
    {calls : List AsyncCall} (hclose : .closeSignal ∉ calls)
    (hrun : run asyncStep async calls = some t) :
    t = async ∧ ∀ mode, signalAsyncThread t mode = (-ebusy, t) := by
  have hbusy (mode : AsyncMode) : signalAsyncThread async mode = (-ebusy, async) := if_pos hmode
  have hrequest {u : AsyncCommon} (request : Option AsyncMode)
      (hu : requestStep async request = some u) : u = async := by
    cases request with
    | none =>
      cases hu
      rfl
    | some mode =>
      simp only [requestStep, hbusy] at hu
      split at hu
      · cases hu
      · cases hu
        rfl
  induction calls with
  | nil =>
    cases hrun
    exact ⟨rfl, hbusy⟩
  | cons c calls ih =>
    obtain ⟨u, hu, hrest⟩ := Option.bind_eq_some_iff.mp hrun
    obtain ⟨hne, hnot⟩ : .closeSignal ≠ c ∧ .closeSignal ∉ calls := by simpa using hclose
    have hsame : u = async := by
      unfold asyncStep at hu
      split at hu
      · cases hu
      · cases c with
        | write answers bytes => exact hrequest _ hu
        | drain early => exact hrequest _ hu
        | closeSignal => exact absurd rfl hne
        | closeJoin => simp [h.1] at hu
        | work => simp [workerStep, h.1] at hu
    rw [hsame] at hrest
    exact ih hnot hrest

section Offload

/-- The worker reaches its wait, and 3000 of 4096 bytes are written. -/
def partialWrite : List AsyncCall := [.work, .work, .write ⟨true, 3000, true⟩ 4096]

example : Along asyncStep (fun async c _ => unattended async c = false) newAsync
    (partialWrite ++ [.work, .work, .work, .work, .drain false, .work, .work, .closeSignal, .work,
      .closeJoin]) := by decide

/-- A drain that is accepted while the worker is busy with a write is not heard. -/
theorem drain_unheard : ∃ t,
    run asyncStep newAsync (partialWrite ++ [.work, .drain false, .work, .work, .work]) = some t ∧
      Unheard t ∧ t.accepted = [.poll, .fullDrain] ∧ t.taken = [.poll] ∧
      t.callbacks = [.writeReady] ∧ (signalAsyncThread t .poll).1 = -ebusy ∧ ¬ Attended t := by
  refine ⟨⟨false, .fullDrain, false, .waiting, .opened, [.writeReady], [.poll, .fullDrain], [.poll]⟩,
    by decide, ⟨rfl, .inl (by decide)⟩, rfl, rfl, rfl, rfl, ?_⟩
  intro hattended
  exact hattended.heard 0 _ rfl ⟨rfl, .inl (by decide)⟩

-- a close between the test of the exit flag and the wait leaves the join waiting as well
example : run asyncStep newAsync [.work, .closeSignal, .work] =
    some ⟨true, .none, false, .waiting, .joining, [], [], []⟩ := by decide

-- and one that overtakes the signalled worker loses the request
example : run asyncStep newAsync [.work, .work, .drain false, .closeSignal, .work, .closeJoin] =
    some ⟨true, .fullDrain, true, .done, .joined, [], [.fullDrain], []⟩ := by decide

end Offload

end TinyHal
