import Mocha.SensorRouting

/-!
# The calls that `open_sensors` makes

The opening of the sensors device again, with what it calls in their order: the
opens of the sub-HALs, the closes after a failure, the new context, and one
writer thread for each sub-HAL device.
-/
namespace Multihal

open SensorHandles

section Calls

inductive Call where
  | moduleOpen (i : Nat) (answer : Opened)
  | deviceClose (d : Device)
  | newContext
  | pthreadCreate (d : Device) (queue : Nat)
  deriving DecidableEq, Repr

/-- What `open_sensors` returns and writes, and its calls. -/
structure Attempt where
  returned : Int
  hwDeviceOut : Option Context
  calls : List Call

/-- The calls of the opening loop, which ends at the first error. -/
def openCalls (opens : Nat → Opened) : Nat → List SubModule → List Call
  | _, [] => []
  | i, _ :: rest =>
    .moduleOpen i (opens i) :: if (opens i).error ≠ 0 then [] else openCalls opens (i + 1) rest

/-- The loop over the opened devices, each of which starts a writer. -/
def addSubHwDevices (c : Context) : List Device → Context × List Call
  | [] => (c, [])
  | d :: ds =>
    let r := addSubHwDevices (addSubHwDevice c d) ds
    (r.1, .pthreadCreate d c.queues :: r.2)

/-- `open_sensors`; `hwDeviceOut` is what the pointer was before. -/
def attempt (libraries : List Library) (g : Globals) (out name : Bool) (opens : Nat → Opened)
    (hwDeviceOut : Option Context) : Attempt :=
  if !out || !name then ⟨-einval, hwDeviceOut, []⟩
  else
    let modules := (lazyInitModules libraries g).subHwModules.getD []
    if modules = [] then ⟨-enodev, none, []⟩
    else
      let r := openSubs opens 0 modules
      let calls := openCalls opens 0 modules
      if r.2 ≠ 0 then
        ⟨r.2, none, calls ++ (r.1.filter fun d => d.close).map .deviceClose⟩
      else
        let added := addSubHwDevices ⟨[], 0, [], []⟩ r.1
        ⟨0, some added.1, calls ++ .newContext :: added.2⟩

def Call.opened : Call → Option Nat
  | .moduleOpen i _ => some i
  | _ => none

def Call.handedOut : Call → Option Device
  | .moduleOpen _ answer => answer.sub
  | _ => none

def Call.closed : Call → Option Device
  | .deviceClose d => some d
  | _ => none

def Call.writer : Call → Option (Device × Nat)
  | .pthreadCreate d queue => some (d, queue)
  | _ => none

end Calls

section Loops

theorem addSubHwDevices_foldl (c : Context) (ds : List Device) :
    (addSubHwDevices c ds).1 = ds.foldl addSubHwDevice c := by
  induction ds generalizing c with
  | nil => rfl
  | cons d ds ih => exact ih (addSubHwDevice c d)

/-- Every new device starts one writer, with its own queue. -/
theorem addSubHwDevices_calls (c : Context) (ds : List Device) :
    (addSubHwDevices c ds).2 = (ds.zipIdx c.queues).map fun t => .pthreadCreate t.1 t.2 := by
  induction ds generalizing c with
  | nil => rfl
  | cons d ds ih =>
    have hrest := ih (addSubHwDevice c d)
    rw [addSubHwDevices, hrest]
    rfl

/-- The loop opens the modules in order and stops after the first error. -/
theorem openCalls_opens (opens : Nat → Opened) (i : Nat) (modules : List SubModule) :
    ∃ n ≤ modules.length,
      openCalls opens i modules = (List.range' i n).map (fun k => .moduleOpen k (opens k)) ∧
      ∀ k, i ≤ k → k + 1 < i + n → (opens k).error = 0 := by
  induction modules generalizing i with
  | nil => exact ⟨0, by simp, rfl, by omega⟩
  | cons m rest ih =>
    rw [openCalls]
    by_cases herror : (opens i).error = 0
    · obtain ⟨n, hn, hcalls, hfine⟩ := ih (i + 1)
      refine ⟨n + 1, by simpa using hn, ?_, ?_⟩
      · rw [if_neg (not_not.mpr herror), hcalls]
        rfl
      · intro k hk hlt
        by_cases hki : k = i
        · rw [hki]
          exact herror
        · exact hfine k (by omega) (by omega)
    · refine ⟨1, by simp, ?_, by omega⟩
      rw [if_pos herror]
      rfl

/-- The vector `opened` holds what the opens handed out, also the device of the one that failed. -/
theorem openCalls_handedOut (opens : Nat → Opened) (i : Nat) (modules : List SubModule) :
    (openCalls opens i modules).filterMap Call.handedOut = (openSubs opens i modules).1 := by
  induction modules generalizing i with
  | nil => rfl
  | cons m rest ih =>
    rw [openCalls, openSubs]
    have hhead : ∀ rest : List Call, (Call.moduleOpen i (opens i) :: rest).filterMap Call.handedOut =
        (opens i).sub.toList ++ rest.filterMap Call.handedOut := by
      intro rest
      rw [List.filterMap_cons, Call.handedOut]
      cases (opens i).sub <;> rfl
    rw [hhead]
    dsimp only
    by_cases herror : (opens i).error = 0
    · rw [if_neg (not_not.mpr herror), if_neg (not_not.mpr herror), ih]
    · rw [if_pos herror, if_pos herror]
      simp

theorem openCalls_only {opens : Nat → Opened} {i : Nat} {modules : List SubModule} {call : Call}
    (h : call ∈ openCalls opens i modules) : ∃ k, call = .moduleOpen k (opens k) := by
  obtain ⟨n, -, hcalls, -⟩ := openCalls_opens opens i modules
  rw [hcalls] at h
  obtain ⟨k, -, rfl⟩ := List.mem_map.mp h
  exact ⟨k, rfl⟩

/-- Nothing is found among the opens that is not an open. -/
theorem openCalls_none {α : Type} {f : Call → Option α}
    (hf : ∀ k answer, f (.moduleOpen k answer) = none) (opens : Nat → Opened)
    (modules : List SubModule) : (openCalls opens 0 modules).filterMap f = [] := by
  rw [List.filterMap_eq_nil_iff]
  intro call hc
  obtain ⟨k, rfl⟩ := openCalls_only hc
  exact hf _ _

theorem addSubHwDevices_closed (c : Context) (ds : List Device) :
    (addSubHwDevices c ds).2.filterMap Call.closed = [] := by
  rw [addSubHwDevices_calls, List.filterMap_map]
  simp [Function.comp_def, Call.closed]

theorem openCalls_closed (opens : Nat → Opened) (modules : List SubModule) :
    (openCalls opens 0 modules).filterMap Call.closed = [] :=
  openCalls_none (fun _ _ => rfl) opens modules

/-- The context or the error, and the closes, are those of `openSensors`. -/
theorem attempt_openSensors (libraries : List Library) (g : Globals) (opens : Nat → Opened)
    (before : Option Context) :
    (openSensors libraries g true true opens).result =
      ((attempt libraries g true true opens before).hwDeviceOut.elim
        (.error (attempt libraries g true true opens before).returned) .ok) ∧
    (openSensors libraries g true true opens).closed =
      (attempt libraries g true true opens before).calls.filterMap Call.closed := by
  unfold openSensors attempt
  simp only [Bool.not_true, Bool.or_self, Bool.false_eq_true, if_false]
  by_cases hempty : (lazyInitModules libraries g).subHwModules.getD [] = []
  · simp only [if_pos hempty]
    exact ⟨rfl, rfl⟩
  · simp only [if_neg hempty]
    by_cases herror : (openSubs opens 0 ((lazyInitModules libraries g).subHwModules.getD [])).2 = 0
    · simp only [if_neg (not_not.mpr herror)]
      refine ⟨?_, ?_⟩
      · rw [addSubHwDevices_foldl]
        rfl
      · rw [List.filterMap_append, openCalls_closed, List.filterMap_cons_none rfl,
          addSubHwDevices_closed]
        rfl
    · simp only [if_pos herror]
      refine ⟨rfl, ?_⟩
      rw [List.filterMap_append, openCalls_closed, List.filterMap_map]
      simp [Function.comp_def, Call.closed]

end Loops

section Theorem

/-- After a failure nothing is left of the attempt. -/
structure Failed (r : Attempt) : Prop where
  out : r.hwDeviceOut = none
  context : .newContext ∉ r.calls
  writers : r.calls.filterMap Call.writer = []
  opened : ∃ n, r.calls.filterMap Call.opened = List.range n
  first : ∀ i answer j other, .moduleOpen i answer ∈ r.calls → .moduleOpen j other ∈ r.calls →
    i < j → answer.error = 0
  closed : r.calls.filterMap Call.closed =
    (r.calls.filterMap Call.handedOut).filter fun d => d.close

/-- After a success all vectors of the context are indexed by the loaded modules. -/
structure Complete (opens : Nat → Opened) (modules : List SubModule) (r : Attempt) : Prop where
  closed : r.calls.filterMap Call.closed = []
  opened : r.calls.filterMap Call.opened = List.range modules.length
  context : ∃ c, r.hwDeviceOut = some c ∧ c.subHwDevices.length = modules.length ∧
    c.queues = modules.length ∧ c.consumedEvents.length = modules.length ∧
    c.tasks.length = modules.length ∧ r.calls.filterMap Call.writer = c.tasks ∧
    ∀ i < modules.length, ∃ d, opens i = ⟨0, some d⟩ ∧ d.complete ∧ c.subHwDevices[i]? = some d ∧
      c.consumedEvents[i]? = some 0 ∧ c.tasks[i]? = some (d, i)

theorem opened_map (opens : Nat → Opened) (n : Nat) :
    ((List.range' 0 n).map fun k => Call.moduleOpen k (opens k)).filterMap Call.opened =
      List.range n := by
  rw [List.filterMap_map, List.range_eq_range']
  simp [Function.comp_def, Call.opened]

/-- Without an error no module is left out. -/
theorem openCalls_all {opens : Nat → Opened} {i : Nat} {modules : List SubModule}
    (h : (openSubs opens i modules).2 = 0) : openCalls opens i modules =
      (List.range' i modules.length).map fun k => .moduleOpen k (opens k) := by
  induction modules generalizing i with
  | nil => rfl
  | cons m rest ih =>
    rw [openSubs] at h
    dsimp only at h
    by_cases herror : (opens i).error = 0
    · rw [if_neg (not_not.mpr herror)] at h
      rw [openCalls, if_neg (not_not.mpr herror), ih h]
      rfl
    · rw [if_pos herror] at h
      exact absurd h herror

theorem Device.complete.error {d : Device} (h : d.complete) : Opened.error ⟨0, some d⟩ = 0 := by
  obtain ⟨hversion, hclose, hactivate, hdelay, hpoll⟩ := h
  have hok : ¬((d.version < sensorsDeviceApiVersion10 || !d.close || !d.activate || !d.setDelay ||
      !d.poll) = true) := by
    simp [hclose, hactivate, hdelay, hpoll, Nat.not_lt.mpr hversion]
  rw [Opened.error, if_pos rfl]
  exact if_neg hok

/-- The loop ends without an error exactly when every open hands out a usable device. -/
theorem openSubs_ok_iff (opens : Nat → Opened) (i : Nat) (modules : List SubModule) :
    (openSubs opens i modules).2 = 0 ↔
      ∀ k < modules.length, ∃ d : Device, opens (i + k) = ⟨0, some d⟩ ∧ d.complete := by
  constructor
  · intro h k hk
    obtain ⟨d, -, hopen, hcomplete⟩ := (openSubs_ok h).2 k hk
    exact ⟨d, hopen, hcomplete⟩
  · intro h
    induction modules generalizing i with
    | nil => rfl
    | cons m rest ih =>
      obtain ⟨d, hopen, hcomplete⟩ := h 0 (Nat.zero_lt_succ _)
      have herror : (opens i).error = 0 := by
        rw [← Nat.add_zero i, hopen]
        exact hcomplete.error
      rw [openSubs]
      dsimp only
      rw [if_neg (not_not.mpr herror)]
      refine ih (i + 1) fun k hk => ?_
      obtain ⟨e, hlater, hfine⟩ := h (k + 1) (Nat.succ_lt_succ hk)
      refine ⟨e, ?_, hfine⟩
      rw [← hlater]
      congr 1
      omega

/-- The calls of an attempt that failed in the loop: the opens, then the closes. -/
theorem failed_calls (opens : Nat → Opened) (modules : List SubModule) (error : Int) :
    Failed ⟨error, none, openCalls opens 0 modules ++
      ((openSubs opens 0 modules).1.filter fun d => d.close).map .deviceClose⟩ := by
  have honly {i : Nat} {answer : Opened} (h : Call.moduleOpen i answer ∈ openCalls opens 0 modules ++
      ((openSubs opens 0 modules).1.filter fun d => d.close).map .deviceClose) :
      .moduleOpen i answer ∈ openCalls opens 0 modules := by
    rcases List.mem_append.mp h with h | h
    · exact h
    · obtain ⟨d, -, hd⟩ := List.mem_map.mp h
      cases hd
  obtain ⟨n, -, hcalls, hfine⟩ := openCalls_opens opens 0 modules
  constructor
  case out => rfl
  case context =>
    intro h
    rcases List.mem_append.mp h with h | h
    · obtain ⟨k, hk⟩ := openCalls_only h
      cases hk
    · obtain ⟨d, -, hd⟩ := List.mem_map.mp h
      cases hd
  case writers =>
    rw [List.filterMap_append, openCalls_none fun _ _ => rfl, List.filterMap_map]
    simp [Function.comp_def, Call.writer]
  case opened =>
    refine ⟨n, ?_⟩
    rw [List.filterMap_append, hcalls, opened_map, List.filterMap_map]
    simp [Function.comp_def, Call.opened]
  case first =>
    intro i answer j other hi hj hlt
    have hopen := honly hi
    have hlater := honly hj
    rw [hcalls] at hopen hlater
    obtain ⟨k, hk, hik⟩ := List.mem_map.mp hopen
    obtain ⟨l, hl, hjl⟩ := List.mem_map.mp hlater
    cases hik
    cases hjl
    have hbound := (List.mem_range'_1.mp hl).2
    exact hfine i (Nat.zero_le i) (by omega)
  case closed =>
    rw [List.filterMap_append, openCalls_closed, List.filterMap_append, openCalls_handedOut,
      List.filterMap_map, List.filterMap_map]
    simp [Function.comp_def, Call.closed, Call.handedOut]

/-- The calls of an attempt that succeeds: the opens, the context, and the writers. -/
theorem complete_calls {opens : Nat → Opened} {modules : List SubModule}
    (h : (openSubs opens 0 modules).2 = 0) :
    Complete opens modules ⟨0,
      some (addSubHwDevices ⟨[], 0, [], []⟩ (openSubs opens 0 modules).1).1,
      openCalls opens 0 modules ++ .newContext ::
        (addSubHwDevices ⟨[], 0, [], []⟩ (openSubs opens 0 modules).1).2⟩ := by
  obtain ⟨hlen, hopened⟩ := openSubs_ok h
  have hempty : Aligned [] ⟨[], 0, [], []⟩ := ⟨rfl, rfl, rfl, rfl⟩
  have haligned := hempty.foldl (openSubs opens 0 modules).1
  rw [List.nil_append, ← addSubHwDevices_foldl] at haligned
  constructor
  case closed =>
    rw [List.filterMap_append, openCalls_closed, List.filterMap_cons_none rfl,
      addSubHwDevices_closed]
    rfl
  case opened =>
    rw [List.filterMap_append, openCalls_all h, opened_map, List.filterMap_cons_none rfl,
      addSubHwDevices_calls, List.filterMap_map]
    simp [Function.comp_def, Call.opened]
  case context =>
    refine ⟨_, rfl, ?_, ?_, ?_, ?_, ?_, ?_⟩
    · rw [haligned.devices, hlen]
    · rw [haligned.queues, hlen]
    · rw [haligned.consumed, List.length_replicate, hlen]
    · rw [haligned.tasks, List.length_zipIdx, hlen]
    · rw [List.filterMap_append, openCalls_none fun _ _ => rfl, List.filterMap_cons_none rfl,
        addSubHwDevices_calls, List.filterMap_map, haligned.tasks]
      simp [Function.comp_def, Call.writer]
    · intro i hi
      obtain ⟨d, hd, hopen, hcomplete⟩ := hopened i hi
      rw [Nat.zero_add] at hopen
      refine ⟨d, hopen, hcomplete, ?_, ?_, ?_⟩
      · rw [haligned.devices, hd]
      · rw [haligned.consumed, List.getElem?_replicate, if_pos (hlen ▸ hi)]
      · rw [haligned.tasks, List.getElem?_zipIdx, hd]
        simp

/-- `open_sensors` opens every loaded module and builds a context whose vectors they index, or it
closes again whatever was handed out and leaves nothing behind. The former is what happens when there
are modules and each of them opens a usable device. -/
theorem open_sensors_atomic (libraries : List Library) (g : Globals) (opens : Nat → Opened)
    (before : Option Context) :
    ((attempt libraries g true true opens before).returned ≠ 0 →
      Failed (attempt libraries g true true opens before)) ∧
    ((attempt libraries g true true opens before).returned = 0 →
      Complete opens ((lazyInitModules libraries g).subHwModules.getD [])
        (attempt libraries g true true opens before)) ∧
    ((attempt libraries g true true opens before).returned = 0 ↔
      (lazyInitModules libraries g).subHwModules.getD [] ≠ [] ∧
      ∀ k < ((lazyInitModules libraries g).subHwModules.getD []).length,
        ∃ d : Device, opens k = ⟨0, some d⟩ ∧ d.complete) := by
  unfold attempt
  simp only [Bool.not_true, Bool.or_self, Bool.false_eq_true, if_false]
  generalize (lazyInitModules libraries g).subHwModules.getD [] = modules
  by_cases hempty : modules = []
  · simp only [if_pos hempty]
    refine ⟨fun _ => ?_, fun h => absurd h (by decide), fun h => absurd h (by decide),
      fun h => absurd hempty h.1⟩
    exact ⟨rfl, by simp, rfl, ⟨0, rfl⟩, by simp, rfl⟩
  · simp only [if_neg hempty]
    have hiff := openSubs_ok_iff opens 0 modules
    simp only [Nat.zero_add] at hiff
    by_cases herror : (openSubs opens 0 modules).2 = 0
    · simp only [if_neg (not_not.mpr herror)]
      exact ⟨fun h => absurd rfl h, fun _ => complete_calls herror,
        fun _ => ⟨hempty, hiff.mp herror⟩, fun _ => trivial⟩
    · simp only [if_pos herror]
      exact ⟨fun _ => failed_calls opens modules _, fun h => absurd h herror,
        fun h => absurd h herror, fun h => absurd (hiff.mpr h.2) herror⟩

/-- The second sub-HAL hands out a device and fails; then both succeed. -/
theorem second_open_fails : Failed (attempt sampleLibraries .start true true
      (fun k => ⟨if k = 1 then -5 else 0, some (sampleDevice k)⟩) none) ∧
    Complete (fun k => ⟨0, some (sampleDevice k)⟩)
      ((lazyInitModules sampleLibraries .start).subHwModules.getD [])
      (attempt sampleLibraries .start true true (fun k => ⟨0, some (sampleDevice k)⟩) none) :=
  ⟨(open_sensors_atomic _ _ _ _).1 (by decide), (open_sensors_atomic _ _ _ _).2.1 (by decide)⟩

end Theorem

end Multihal
