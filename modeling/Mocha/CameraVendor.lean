import Mocha.CameraStreams

/-!
# The stock device

The adapter holds a pointer to the stock device, which is null only after a
restart that failed, and after `close`. Some entry points test the pointer, some
test `fatal`, and `initialize` tests whether it was called before.
-/
namespace Camera3

open CameraMetadata

section Dump

/-- What `dump` prints, and the device whose own `dump` it calls. The locks are only tried, so that
a stuck stock device does not block it. -/
def dump (s : State) (stateLock : Bool) (hasDump : Bool) : String × Option Nat :=
  if s.request ≠ .idle then ("Mocha HAL3.0 adapter: request busy; stock dump skipped\n", none)
  else if !stateLock then ("Mocha HAL3.0 adapter: state busy; stock dump skipped\n", none)
  else
    let inflight := s.frames.length
    let fatal := if s.fatal then 1 else 0
    let closing := if s.closing then 1 else 0
    (s!"Mocha HAL3.0 adapter: inflight={inflight} fatal={fatal} closing={closing}\n",
      if hasDump then s.vendor else none)

end Dump

section Devices

/-- The devices that successful opens handed out. -/
def Event.opens : Event → Option Nat
  | .stockOpen d => some d
  | _ => none

def Event.closes : Event → Option Nat
  | .stockClose d => some d
  | _ => none

def opens (log : List Event) : List Nat := log.filterMap Event.opens
def closes (log : List Event) : List Nat := log.filterMap Event.closes

/-- The device that is open after an event, or `none` when the event is refused: a second device, a
close or an `initialize` of another device, or a call with no device at all. -/
def Event.track (device : Option Nat) : Event → Option (Option Nat)
  | .stockOpen d => if device = none then some (some d) else none
  | .stockClose d => if device = some d then some none else none
  | .stockInitialize d _ => if device = some d then some device else none
  | .stockConfigure .. => if device.isSome then some device else none
  | .stockDefaults _ => if device.isSome then some device else none
  | .stockRegister .. => if device.isSome then some device else none
  | .stockCapture .. => if device.isSome then some device else none
  | _ => some device

/-- The device that is open after a log none of whose events is refused. -/
def track (log : List Event) : Option (Option Nat) := Transition.run Event.track none log

theorem opens_append (l m : List Event) : opens (l ++ m) = opens l ++ opens m := List.filterMap_append

/-- The history is followed in two parts. -/
theorem track_append {log : List Event} {device : Option Nat} (h : track log = some device)
    (es : List Event) : track (log ++ es) = Transition.run Event.track device es := by
  have ha := Transition.run_append Event.track none log es
  rw [track] at h
  rw [h] at ha
  exact ha

/-- What was opened is closed, but for the device that is open. -/
theorem run_track_balanced {device last : Option Nat} {log : List Event}
    (h : Transition.run Event.track device log = some last) :
    (device.toList ++ opens log).Perm (closes log ++ last.toList) := by
  induction log generalizing device with
  | nil =>
    cases h
    simp [opens, closes]
  | cons e es ih =>
    obtain ⟨u, hu, hrest⟩ := Option.bind_eq_some_iff.mp h
    have hes := ih hrest
    have hkeep (ho : e.opens = none) (hc : e.closes = none) (hd : u = device) :
        (device.toList ++ opens (e :: es)).Perm (closes (e :: es) ++ last.toList) := by
      subst hd
      simpa [opens, closes, ho, hc] using hes
    cases e with
    | stockOpen d =>
      rw [Event.track] at hu
      split at hu <;> cases hu
      rename_i hd
      subst hd
      exact hes
    | stockClose d =>
      rw [Event.track] at hu
      split at hu <;> cases hu
      rename_i hd
      subst hd
      exact hes.cons d
    | stockInitialize =>
      rw [Event.track] at hu
      split at hu <;> cases hu
      exact hkeep rfl rfl rfl
    | stockConfigure =>
      rw [Event.track] at hu
      split at hu <;> cases hu
      exact hkeep rfl rfl rfl
    | stockDefaults =>
      rw [Event.track] at hu
      split at hu <;> cases hu
      exact hkeep rfl rfl rfl
    | stockRegister =>
      rw [Event.track] at hu
      split at hu <;> cases hu
      exact hkeep rfl rfl rfl
    | stockCapture =>
      rw [Event.track] at hu
      split at hu <;> cases hu
      exact hkeep rfl rfl rfl
    | _ =>
      cases hu
      exact hkeep rfl rfl rfl

end Devices

section Upkeep

/-- The request thread is about to call the stock device, or is inside such a call. -/
def Request.usesVendor : Request → Bool
  | .initializing => true
  | .configuring _ => true
  | .draining _ => true
  | .registering .. => true
  | .building _ => true
  | .calling .. => true
  | _ => false

/-- The request that the stock device is asked for. -/
def Request.asks : Request → Option (Nat × Nat)
  | .calling frame serial => some (frame, serial)
  | _ => none

/-- The event says nothing about the settings of the stock device. -/
def Event.neutral : Event → Bool
  | .stockCapture .. => false
  | .stockAnswer .. => false
  | .returned api r => decide (api = .configure → r ≠ 0)
  | _ => true

/-- The event leaves the device as it is, and needs none that is not there. -/
def Event.keeps (device : Option Nat) (e : Event) : Prop :=
  e.opens = none ∧ e.track device = some device

/-- The event leaves the device and its settings as they are. -/
def Event.steady (device : Option Nat) (e : Event) : Prop := e.keeps device ∧ e.neutral = true

/-- Events that concern no other device leave the open one open. -/
theorem run_keeps {device : Option Nat} {es : List Event} (h : ∀ e ∈ es, e.keeps device) :
    opens es = [] ∧ Transition.run Event.track device es = some device := by
  induction es with
  | nil => exact ⟨rfl, rfl⟩
  | cons e es ih =>
    obtain ⟨ho, ht⟩ := h e List.mem_cons_self
    obtain ⟨hopens, hrun⟩ := ih fun e he => h e (List.mem_cons_of_mem _ he)
    refine ⟨?_, ?_⟩
    · rw [← hopens]
      exact List.filterMap_cons_none ho
    · rw [Transition.run_cons, ht]
      exact hrun

/-- The stock device stays what it is, and so does what the adapter believes of it. -/
structure Steady (s t : State) : Prop where
  lastSettings : t.lastSettings = s.lastSettings
  nextFrame : t.nextFrame = s.nextFrame
  vendor : t.vendor = s.vendor
  devices : t.devices = s.devices
  clientCallbacks : t.clientCallbacks = s.clientCallbacks
  fatal : s.fatal = true → t.fatal = true
  log : ∃ es, t.log = s.log ++ es ∧ ∀ e ∈ es, e.steady s.vendor

theorem Steady.silent {s t : State} (hs : t.lastSettings = s.lastSettings)
    (hn : t.nextFrame = s.nextFrame) (hv : t.vendor = s.vendor) (hd : t.devices = s.devices)
    (hc : t.clientCallbacks = s.clientCallbacks) (hf : t.fatal = s.fatal) (hl : t.log = s.log) :
    Steady s t :=
  ⟨hs, hn, hv, hd, hc, fun h => hf.trans h, [], by simp [hl], by simp⟩

theorem Steady.refl (s : State) : Steady s s := .silent rfl rfl rfl rfl rfl rfl rfl

theorem Steady.trans {s t u : State} (h : Steady s t) (k : Steady t u) : Steady s u := by
  obtain ⟨es, hes, hep⟩ := h.log
  obtain ⟨fs, hfs, hfp⟩ := k.log
  refine ⟨k.lastSettings.trans h.lastSettings, k.nextFrame.trans h.nextFrame,
    k.vendor.trans h.vendor, k.devices.trans h.devices,
    k.clientCallbacks.trans h.clientCallbacks, fun hf => k.fatal (h.fatal hf), es ++ fs, ?_, ?_⟩
  · rw [hfs, hes, List.append_assoc]
  · intro e he
    rcases List.mem_append.mp he with he | he
    · exact hep e he
    · rw [← h.vendor]
      exact hfp e he

theorem Steady.record {s t : State} (h : Steady s t) (es : List Event)
    (hes : ∀ e ∈ es, e.steady s.vendor) : Steady s (t.record es) := by
  rw [← h.vendor] at hes
  exact h.trans ⟨rfl, rfl, rfl, rfl, rfl, id, es, rfl, hes⟩

theorem keeps_returned (device : Option Nat) (api : Api) (r : Int) :
    ∀ e ∈ [Event.returned api r], e.keeps device := by
  intro e he
  rw [List.mem_singleton.mp he]
  exact ⟨rfl, rfl⟩

theorem steady_returned (device : Option Nat) (api : Api) (r : Int) (hr : api = .configure → r ≠ 0) :
    ∀ e ∈ [Event.returned api r], e.steady device := by
  intro e he
  refine ⟨keeps_returned device api r e he, ?_⟩
  rw [List.mem_singleton.mp he]
  exact decide_eq_true hr

theorem keeps_destroyed (device : Option Nat) (m : List Stream) :
    ∀ e ∈ destroyed m, e.keeps device := by
  intro e he
  obtain ⟨st, -, hb⟩ := List.mem_flatMap.mp he
  obtain ⟨b, -, rfl⟩ := List.mem_map.mp hb
  exact ⟨rfl, rfl⟩

theorem Steady.finish {s t : State} (h : Steady s t) (api : Api) (r : Int)
    (hr : api = .configure → r ≠ 0) : Steady s (t.finish api r) :=
  h.trans ⟨rfl, rfl, rfl, rfl, rfl, id, [.returned api r], rfl, steady_returned _ api r hr⟩

/-- The request goes to the stock device: with new settings, or with none and the old ones known. -/
structure Forwarded (s : State) (c : Capturing) (last : Metadata) : Prop where
  known : last ≠ []
  repeats : c.request.settings = none → last = s.lastSettings

/-- The steps as the stock device sees them. -/
inductive Upkeep (s : State) : Action → State → Prop where
  | steady (a : Action) (t : State) (h : Steady s t)
      (hu : t.request.usesVendor = true → s.request.usesVendor = true ∨ s.fatal = false)
      (hr : ∀ next, t.request = .restarting next → s.request = .restarting next ∨ s.clientCallbacks = true)
      (hc : t.request = .closed → s.request = .closed)
      (ha : t.request.asks = s.request.asks) : Upkeep s a t
  | configured (answer : Nat → StreamInfo) (next : StreamMap) (hq : s.request = .configuring next)
      (hv : s.vendor.isSome = true) :
      Upkeep s (.configureStreams answer 0) (configureStreams s next answer 0)
  | submit (clone : Bool) (alloc : Allocations) (c : Capturing) (af ae : Int) (last settings : Metadata)
      (hq : s.request = .building c) (hv : s.vendor.isSome = true) (h : Forwarded s c last) :
      Upkeep s (.build clone alloc)
        (submit { s with afTriggerId := af, aeTriggerId := ae, lastSettings := last } c settings)
  | answered (frame serial : Nat) (r : Int) (hq : s.request = .calling frame serial) :
      Upkeep s (.answer r) (captureAnswered s frame serial r)
  | starting (valid : Bool) (hq : s.request = .idle) (hc : s.clientCallbacks = false) :
      Upkeep s (.initializeDevice valid) { s with clientCallbacks := true, request := .initializing }
  | started (r : Int) (hq : s.request = .initializing) : Upkeep s (.initializeEnd r) (initializeEnd s r)
  | restart (o : Reopen) (next : StreamMap) (hq : s.request = .restarting next) :
      Upkeep s (.restart o) (restart s next o)
  | closeEnd (r : Int) (hq : s.request = .closing) : Upkeep s (.closeEnd r) (closeEnd s r)

/-- A step after which the request thread stands where it stood. -/
theorem Upkeep.aside {s t : State} {a : Action} (h : Steady s t) (hq : t.request = s.request) :
    Upkeep s a t := by
  refine .steady _ t h ?_ ?_ ?_ ?_
  · intro hu
    rw [hq] at hu
    exact .inl hu
  · intro next hr
    rw [hq] at hr
    exact .inl hr
  · intro hc
    rw [hq] at hc
    exact hc
  · rw [hq]

/-- A step to a place that needs no stock device, and is not the end. -/
theorem Upkeep.away {s t : State} {a : Action} (h : Steady s t) (hs : s.request.asks = none)
    (hu : t.request.usesVendor = false) (hr : ∀ next, t.request ≠ .restarting next)
    (hc : t.request ≠ .closed) : Upkeep s a t := by
  refine .steady _ t h ?_ ?_ ?_ ?_
  · intro hv
    rw [hu] at hv
    cases hv
  · intro next hn
    exact absurd hn (hr next)
  · intro hn
    exact absurd hn hc
  · rw [hs]
    cases hq : t.request <;> simp_all [Request.asks, Request.usesVendor]

theorem Upkeep.finish {s t : State} {a : Action} (h : Steady s t) (hs : s.request.asks = none) (api : Api)
    (r : Int) (hr : api = .configure → r ≠ 0) : Upkeep s a (t.finish api r) :=
  .away (h.finish api r hr) hs rfl (fun _ => Request.noConfusion) Request.noConfusion

/-- A step of `capture` on its way to the stock device. -/
theorem Upkeep.onwards {s t : State} {a : Action} (h : Steady s t) (hs : s.request.asks = none)
    (hq : s.request.usesVendor = true ∨ s.fatal = false) (ht : t.request.capturing.isSome = true) :
    Upkeep s a t := by
  refine .steady _ t h (fun _ => hq) ?_ ?_ ?_
  · intro next hn
    rw [hn] at ht
    cases ht
  · intro hn
    rw [hn] at ht
    cases ht
  · rw [hs]
    cases hq : t.request <;> simp_all [Request.asks, Request.capturing]

theorem upkeep_defaultRequest {s : State} {a : Action} (hq : s.request = .idle) (type : Nat)
    (stock : Option Metadata) (copy : Bool) (alloc : Allocations) : Upkeep s a (defaultRequest s type stock copy alloc) := by
  have hs : s.request.asks = none := by
    rw [hq]
    rfl
  unfold defaultRequest
  split
  · exact .finish (.refl s) hs _ _ nofun
  · rename_i hguard
    split
    · exact .finish (.refl s) hs _ _ nofun
    · have hv : s.vendor.isSome = true := by
        simp only [not_or, Option.isNone_iff_eq_none] at hguard
        exact Option.isSome_iff_ne_none.mpr hguard.2.2
      have hd : Steady s (s.record [.stockDefaults type]) :=
        (Steady.refl s).record _ (by simp [Event.steady, Event.keeps, Event.opens, Event.track, Event.neutral, hv])
      dsimp only
      split
      · exact .finish hd hs _ _ nofun
      · split
        · exact .finish hd hs _ _ nofun
        · split
          · exact .finish hd hs _ _ nofun
          · split
            · exact .finish hd hs _ _ nofun
            · refine .finish ?_ hs _ _ nofun
              exact hd.trans (.silent rfl rfl rfl rfl rfl rfl rfl)

/-- `configure` goes on only with callbacks and without a fatal error. -/
theorem upkeep_configureBegin {s : State} (hq : s.request = .idle) (config : Option Config)
    (alloc : Nat → Bool) : Upkeep s (.configure config alloc) (configureBegin s config alloc) := by
  have hs : s.request.asks = none := by
    rw [hq]
    rfl
  rcases configureBegin_cases s config alloc with ⟨r, heq, hr, -⟩ | ⟨ptrs, next, heq, -, hlive, -⟩
  · rw [heq]
    exact .finish (.refl s) hs _ _ fun _ => hr
  · rw [heq]
    refine .steady _ _ (.silent rfl rfl rfl rfl rfl rfl rfl) (fun _ => .inr hlive.1)
      (fun _ _ => .inr hlive.2) ?_ ?_
    · unfold contacting
      dsimp only
      split
      · exact Request.noConfusion
      · exact Request.noConfusion
    · rw [hs]
      unfold contacting
      dsimp only
      split
      · rfl
      · rfl

/-- Registering a buffer talks to the device that is open. -/
theorem upkeep_registering {s t : State} {a : Action} {c : Capturing} {i : Nat}
    (hq : s.request = .registering c i) (hv : s.vendor.isSome = true) (h : Registering s c i t) : Upkeep s a t := by
  have hs : s.request.asks = none := by
    rw [hq]
    rfl
  have hu : s.request.usesVendor = true ∨ s.fatal = false := by
    rw [hq]
    exact .inl rfl
  cases h with
  | finished h => exact .onwards (.silent rfl rfl rfl rfl rfl rfl rfl) hs hu rfl
  | known hat hk => exact .onwards (.silent rfl rfl rfl rfl rfl rfl rfl) hs hu rfl
  | refused hat hk r hr =>
    refine .finish ?_ hs _ _ nofun
    refine ⟨rfl, rfl, rfl, rfl, rfl, id, _, rfl, ?_⟩
    simp [Event.steady, Event.keeps, Event.opens, Event.track, Event.neutral]
  | unstored hat hk =>
    refine .finish (Steady.record ?_ _ ?_) hs _ _ nofun
    · refine ⟨rfl, rfl, rfl, rfl, rfl, id, _, rfl, ?_⟩
      simp [Event.steady, Event.keeps, Event.opens, Event.track, Event.neutral]
    · simp [Event.steady, Event.keeps, Event.opens, Event.track, Event.neutral]
  | rejected hat hk r hr =>
    refine .finish ?_ hs _ _ nofun
    refine ⟨rfl, rfl, rfl, rfl, rfl, fun _ => rfl, _, rfl, ?_⟩
    simp [Event.steady, Event.keeps, Event.opens, Event.track, Event.neutral, hv]
  | accepted hat hk =>
    refine .onwards ?_ hs hu rfl
    refine ⟨rfl, rfl, rfl, rfl, rfl, id, _, rfl, ?_⟩
    simp [Event.steady, Event.keeps, Event.opens, Event.track, Event.neutral, hv]

/-- The device is there while the streams are configured. -/
theorem upkeep_configureStreams {s : State} {next : StreamMap} (hq : s.request = .configuring next)
    (hv : s.vendor.isSome = true) (answer : Nat → StreamInfo) (r : Int) :
    Upkeep s (.configureStreams answer r) (configureStreams s next answer r) := by
  by_cases hr : r = 0
  · subst hr
    exact .configured answer next hq hv
  · have hs : Steady s (s.record
        [.stockConfigure ((adopt next answer).map fun (e : Nat × Stream) => e.2.id) r]) :=
      (Steady.refl s).record _ (by simp [Event.steady, Event.keeps, Event.opens, Event.track, Event.neutral, hv])
    have hfail : configureStreams s next answer r = failConfigure (s.record
        [.stockConfigure ((adopt next answer).map fun (e : Nat × Stream) => e.2.id) r])
        (adopt next answer) r := by
      simp [configureStreams, hr]
    rw [hfail]
    refine .finish ?_ (by rw [hq]; rfl) _ _ fun _ => hr
    exact hs.trans ⟨rfl, rfl, rfl, rfl, rfl, fun _ => rfl, [], (List.append_nil _).symm, by simp⟩

/-- The settings of a request are built as a whole, or the last ones stay. -/
theorem requestSettings_cases (s : State) (raw : Metadata) (clone : Bool) (alloc : Allocations) :
    ∃ af ae, (∃ e, requestSettings s raw clone alloc =
        (.error e, { s with afTriggerId := af, aeTriggerId := ae })) ∨
      ∃ settings, settings ≠ [] ∧ requestSettings s raw clone alloc =
        (.ok settings, { s with afTriggerId := af, aeTriggerId := ae, lastSettings := settings }) := by
  unfold requestSettings
  split
  · exact ⟨_, _, .inl ⟨_, rfl⟩⟩
  · split
    · exact ⟨_, _, .inl ⟨_, rfl⟩⟩
    · split
      · exact ⟨_, _, .inl ⟨_, rfl⟩⟩
      · dsimp only
        split
        · exact ⟨_, _, .inl ⟨_, rfl⟩⟩
        · split
          · exact ⟨_, _, .inl ⟨_, rfl⟩⟩
          · rename_i hok
            refine ⟨_, _, .inr ⟨_, ?_, rfl⟩⟩
            rw [tryUpdate_ok (by simpa using hok)]
            exact update_ne_nil _ _ _

theorem upkeep_buildFrame {s : State} {c : Capturing} (hq : s.request = .building c)
    (hv : s.vendor.isSome = true) (clone : Bool) (alloc : Allocations) :
    Upkeep s (.build clone alloc) (buildFrame s c clone alloc) := by
  have hs : s.request.asks = none := by
    rw [hq]
    rfl
  unfold buildFrame
  split
  · rename_i raw hraw
    obtain ⟨af, ae, hcases⟩ := requestSettings_cases s raw clone alloc
    rcases hcases with ⟨e, heq⟩ | ⟨settings, hne, heq⟩
    · rw [heq]
      refine .finish ?_ hs _ _ nofun
      exact .silent rfl rfl rfl rfl rfl rfl rfl
    · rw [heq]
      refine .submit clone alloc c af ae settings settings hq hv ⟨hne, ?_⟩
      intro hnone
      rw [hraw] at hnone
      cases hnone
  · split
    · exact .finish (.refl s) hs _ _ nofun
    · rename_i hlast
      exact .submit clone alloc c s.afTriggerId s.aeTriggerId s.lastSettings [] hq hv ⟨hlast, fun _ => rfl⟩

theorem steady_stockResult (s : State) (r : StockResult) (alloc : Allocations) :
    Steady s (stockResult s r alloc) := by
  have hfences (callback : Nat) (fs : List Fence) :
      ∀ e ∈ Event.stockResult callback r :: fs.map .fenceClosed, e.steady s.vendor := by
    intro e he
    rcases List.mem_cons.mp he with rfl | he
    · exact ⟨⟨rfl, rfl⟩, rfl⟩
    · obtain ⟨f, -, rfl⟩ := List.mem_map.mp he
      exact ⟨⟨rfl, rfl⟩, rfl⟩
  cases hg : s.frames.get r.frame with
  | none =>
    rw [stockResult_unknown alloc hg]
    exact ⟨rfl, rfl, rfl, rfl, rfl, id, _, rfl, hfences _ _⟩
  | some f =>
    rw [stockResult_known alloc hg]
    exact ⟨rfl, rfl, rfl, rfl, rfl, fun hf => by simp [hf], _, rfl, hfences _ _⟩

/-- The callback thread never opens or closes a device. -/
theorem callbackStep_upkeep {s t : State} {a : Action} (h : CallbackStep s a t) : Upkeep s a t := by
  cases h with
  | result r alloc hc hg => exact .aside (steady_stockResult s r alloc) (stockResult_request s r alloc)
  | notify m hc hg =>
    refine .aside ?_ rfl
    exact ⟨rfl, rfl, rfl, rfl, rfl, fun hf => by simp [stockNotify, hf], [],
      (List.append_nil _).symm, by simp⟩
  | deliver frame owner c calls hc =>
    refine .aside ?_ rfl
    refine ⟨rfl, rfl, rfl, rfl, rfl, id, _, rfl, ?_⟩
    simp [Event.steady, Event.keeps, Event.opens, Event.track, Event.neutral]
  | retire frame owner hc => exact .aside (.silent rfl rfl rfl rfl rfl rfl rfl) rfl

/-- The steps of the request thread, by cases. -/
theorem requestStep_upkeep {s t : State} {a : Action} (h : RequestStep s a t) : Upkeep s a t := by
  cases h with
  | initializeDevice valid hq =>
    have hs : s.request.asks = none := by
      rw [hq]
      rfl
    unfold initializeDevice
    split
    · exact .finish (.refl s) hs _ _ nofun
    · split
      · exact .finish (.refl s) hs _ _ nofun
      · rename_i hc
        exact .starting valid hq (by simpa using hc)
  | initializeEnd result hq hv => exact .started result hq
  | configure config alloc hq => exact upkeep_configureBegin hq config alloc
  | restart next o hq => exact .restart o next hq
  | configureStreams next answer result hq hv => exact upkeep_configureStreams hq hv answer result
  | defaultRequest type stock copy alloc hq => exact upkeep_defaultRequest hq type stock copy alloc
  | capture request hq =>
    have hs : s.request.asks = none := by
      rw [hq]
      rfl
    rcases captureBegin_cases s request with ⟨r, hr, -⟩ | ⟨c, new, heq, hfatal, -⟩
    · rw [hr]
      exact .finish (.refl s) hs _ _ nofun
    · rw [heq]
      refine .onwards (.silent rfl rfl rfl rfl rfl rfl rfl) hs (.inr hfatal) ?_
      cases new <;> rfl
  | captureDrain c timeout r hq hr =>
    have hs : s.request.asks = none := by
      rw [hq]
      rfl
    unfold captureDrained
    split
    · exact .finish (.refl s) hs _ _ nofun
    · refine .onwards (.silent rfl rfl rfl rfl rfl rfl rfl) hs (.inl ?_) rfl
      rw [hq]
      rfl
  | registerBuffer c i gralloc alloc stock hq hv =>
    exact upkeep_registering hq hv (registerBuffer_cases s c i gralloc alloc stock)
  | build c clone alloc hq hv => exact upkeep_buildFrame hq hv clone alloc
  | answer frame serial result hq => exact .answered _ _ _ hq
  | flush hq =>
    exact .away (.silent rfl rfl rfl rfl rfl rfl rfl) (by rw [hq]; rfl) rfl
      (fun _ => Request.noConfusion) Request.noConfusion
  | flushDrain timeout r hq hr => exact .finish (.refl s) (by rw [hq]; rfl) _ _ nofun
  | close hq =>
    exact .away (.silent rfl rfl rfl rfl rfl rfl rfl) (by rw [hq]; rfl) rfl
      (fun _ => Request.noConfusion) Request.noConfusion
  | closeEnd result hq => exact .closeEnd result hq

theorem step_upkeep {s t : State} {a : Action} (h : step s a = some t) : Upkeep s a t := by
  cases step_cases h with
  | request hstep => exact requestStep_upkeep hstep
  | callback hstep => exact callbackStep_upkeep hstep
  | write hwrite =>
    unfold writeStream at hwrite
    split at hwrite <;> cases hwrite
    exact .aside (.silent rfl rfl rfl rfl rfl rfl rfl) rfl

end Upkeep

section Attached

/-- The log agrees with the pointer, and the devices are numbered as they were opened. -/
structure Accounts (vendor : Option Nat) (devices : Nat) (log : List Event) : Prop where
  tracked : track log = some vendor
  numbered : opens log = List.range devices

/-- The accounts stay right when only the open device is named. -/
theorem Accounts.keeps {vendor : Option Nat} {devices : Nat} {log : List Event}
    (h : Accounts vendor devices log) (es : List Event) (hes : ∀ e ∈ es, e.keeps vendor) :
    Accounts vendor devices (log ++ es) := by
  obtain ⟨hopens, hrun⟩ := run_keeps hes
  refine ⟨?_, ?_⟩
  · rw [track_append h.tracked, hrun]
  · rw [opens_append, hopens, List.append_nil, h.numbered]

theorem accounts_closeVendor {s : State} (h : Accounts s.vendor s.devices s.log) :
    Accounts none (closeVendor s).devices (closeVendor s).log := by
  unfold closeVendor
  split
  · rename_i hv
    rw [← hv]
    exact h
  · rename_i d hv
    refine ⟨?_, ?_⟩
    · rw [State.record]
      dsimp only
      rw [track_append h.tracked, hv]
      simp [Event.track]
    · rw [State.record]
      dsimp only
      rw [opens_append, h.numbered]
      exact List.append_nil _

theorem closeVendor_vendor (s : State) : (closeVendor s).vendor = none := by
  unfold closeVendor
  split
  · assumption
  · rfl

theorem closeVendor_clientCallbacks (s : State) :
    (closeVendor s).clientCallbacks = s.clientCallbacks := by
  unfold closeVendor
  split
  · rfl
  · rfl

/-- The device opened next has a number not used before. -/
theorem Accounts.opened {devices : Nat} {log : List Event} (h : Accounts none devices log) :
    Accounts (some devices) (devices + 1) (log ++ [.stockOpen devices]) := by
  refine ⟨?_, ?_⟩
  · rw [track_append h.tracked]
    simp [Event.track]
  · rw [opens_append, h.numbered, List.range_succ]
    rfl

/-- The state after a restart has opened a device. -/
def reopened (s : State) : State :=
  { closeVendor s with
    vendor := some (closeVendor s).devices, devices := (closeVendor s).devices + 1 }.record
      [.stockOpen (closeVendor s).devices]

theorem accounts_reopened {s : State} (h : Accounts s.vendor s.devices s.log) :
    Accounts (reopened s).vendor (reopened s).devices (reopened s).log :=
  (accounts_closeVendor h).opened

/-- What a restart that went wrong leaves: no device, unless it did not begin. -/
theorem detached_closeVendor {s t : State} {r : Int} (hr : r ≠ 0)
    (h : Accounts s.vendor s.devices s.log) (hc : s.clientCallbacks = t.clientCallbacks) :
    Accounts (closeVendor s).vendor (closeVendor s).devices (closeVendor s).log ∧
    (closeVendor s).clientCallbacks = t.clientCallbacks ∧ (r = 0 → (closeVendor s).vendor ≠ none) := by
  refine ⟨?_, (closeVendor_clientCallbacks s).trans hc, fun hz => absurd hz hr⟩
  rw [closeVendor_vendor]
  exact accounts_closeVendor h

/-- Opening again: either a new device, or none and the failure is returned. -/
theorem reopenVendor_spec {s : State} (o : Reopen) (h : Accounts s.vendor s.devices s.log) :
    Accounts (reopenVendor s o).2.vendor (reopenVendor s o).2.devices (reopenVendor s o).2.log ∧
    (reopenVendor s o).2.clientCallbacks = s.clientCallbacks ∧
    ((reopenVendor s o).1 = 0 → (reopenVendor s o).2.vendor ≠ none) := by
  have henodev : -enodev ≠ 0 := by decide
  have hb := closeVendor_clientCallbacks s
  have ho := accounts_reopened h
  have hi := ho.keeps [.stockInitialize (closeVendor s).devices o.initializeResult]
    (by simp [Event.keeps, Event.opens, Event.track, reopened, State.record])
  unfold reopenVendor
  split
  · exact ⟨h, rfl, fun hz => absurd hz henodev⟩
  · dsimp only
    split
    · rename_i hr
      exact detached_closeVendor hr h rfl
    · split
      · exact detached_closeVendor henodev h rfl
      · split
        · exact detached_closeVendor (s := reopened s) henodev ho hb
        · split
          · rename_i hr
            exact detached_closeVendor (s := (reopened s).record
              [.stockInitialize (closeVendor s).devices o.initializeResult]) hr hi hb
          · exact ⟨hi, hb, fun _ => by simp [State.record]⟩

/-- The pointer, the callbacks and the fatal error go together. -/
structure Attached (s : State) : Prop where
  lost : s.request ≠ .closed → s.vendor = none → s.clientCallbacks = true ∧ s.fatal = true
  used : s.request.usesVendor = true → s.vendor ≠ none
  restarting : ∀ next, s.request = .restarting next → s.clientCallbacks = true
  closed : s.request = .closed → s.vendor = none
  accounts : Accounts s.vendor s.devices s.log

theorem initial_attached {s : State} (h : Initial s) : Attached s := by
  refine ⟨?_, ?_, ?_, ?_, ?_⟩
  · intro _ hv
    rw [h.vendor] at hv
    cases hv
  · intro hu
    rw [h.request] at hu
    cases hu
  · intro next hq
    rw [h.request] at hq
    cases hq
  · intro hq
    rw [h.request] at hq
    cases hq
  · rw [h.vendor, h.devices, h.log]
    exact ⟨rfl, rfl⟩

theorem Steady.accounts {s t : State} (h : Steady s t) (ha : Accounts s.vendor s.devices s.log) :
    Accounts t.vendor t.devices t.log := by
  obtain ⟨es, hes, hsteady⟩ := h.log
  rw [h.vendor, h.devices, hes]
  exact ha.keeps _ fun e he => (hsteady e he).1

theorem Attached.restart {s : State} {next : StreamMap} (h : Attached s) (o : Reopen)
    (hq : s.request = .restarting next) : Attached (restart s next o) := by
  obtain ⟨hacc, hcb, hopen⟩ := reopenVendor_spec o h.accounts
  have hcalls : (reopenVendor s o).2.clientCallbacks = true := hcb.trans (h.restarting next hq)
  unfold Camera3.restart
  dsimp only
  split
  · refine ⟨fun _ _ => ⟨hcalls, rfl⟩, fun hu => ?_, fun _ hn => ?_, fun hn => ?_, ?_⟩
    · cases hu
    · cases hn
    · cases hn
    · exact hacc.keeps _ (keeps_returned _ _ _)
  · rename_i hr
    have hv := hopen (not_not.mp hr)
    refine ⟨fun _ hn => absurd hn hv, fun _ => hv, fun _ hn => ?_, fun hn => ?_, hacc⟩
    · cases hn
    · cases hn

/-- The invariant does not see a steady step. -/
theorem Attached.steady {s t : State} (h : Attached s) (hs : Steady s t)
    (hu : t.request.usesVendor = true → s.request.usesVendor = true ∨ s.fatal = false)
    (hr : ∀ next, t.request = .restarting next → s.request = .restarting next ∨ s.clientCallbacks = true)
    (hc : t.request = .closed ↔ s.request = .closed) : Attached t := by
  refine ⟨?_, ?_, ?_, ?_, hs.accounts h.accounts⟩
  · intro hq hv
    obtain ⟨hcalls, hfatal⟩ := h.lost (fun hn => hq (hc.mpr hn)) (hs.vendor.symm.trans hv)
    exact ⟨hs.clientCallbacks.trans hcalls, hs.fatal hfatal⟩
  · intro hq
    rw [hs.vendor]
    rcases hu hq with hq | hfatal
    · exact h.used hq
    · intro hv
      have hopen : s.request ≠ .closed := by
        intro hn
        rw [hc.mpr hn] at hq
        cases hq
      rw [(h.lost hopen hv).2] at hfatal
      cases hfatal
  · intro next hq
    rw [hs.clientCallbacks]
    rcases hr next hq with hq | hcalls
    · exact h.restarting next hq
    · exact hcalls
  · intro hq
    rw [hs.vendor]
    exact h.closed (hc.mp hq)

/-- From the upkeep of one step the invariant of the next state. -/
theorem Upkeep.attached {s t : State} {a : Action} (hu : Upkeep s a t)
    (hstay : s.request = .closed → t.request = .closed) (h : Attached s) : Attached t := by
  cases hu with
  | steady a t hs hu hr hc ha => exact h.steady hs hu hr ⟨hc, hstay⟩
  | configured answer next hq hv =>
    have hne : s.vendor ≠ none := Option.isSome_iff_ne_none.mp hv
    refine ⟨fun _ hn => absurd hn hne, fun hu => ?_, fun _ hn => ?_, fun hn => ?_, ?_⟩
    · cases hu
    · cases hn
    · cases hn
    · refine ((h.accounts.keeps _ ?_).keeps _ (keeps_destroyed _ _)).keeps _ (keeps_returned _ _ _)
      simp [Event.keeps, Event.opens, Event.track, hv]
  | submit clone alloc c af ae last settings hq hv hf =>
    have hne : s.vendor ≠ none := Option.isSome_iff_ne_none.mp hv
    refine ⟨fun _ hn => absurd hn hne, fun _ => hne, fun _ hn => ?_, fun hn => ?_, h.accounts.keeps _ ?_⟩
    · cases hn
    · cases hn
    · simp [Event.keeps, Event.opens, Event.track, hv]
  | answered frame serial r hq =>
    have hv : s.vendor ≠ none := h.used (by rw [hq]; rfl)
    refine ⟨fun _ hn => absurd hn hv, fun hu => ?_, fun _ hn => ?_, fun hn => ?_, ?_⟩
    · cases hu
    · cases hn
    · cases hn
    · refine (h.accounts.keeps _ ?_).keeps _ (keeps_returned _ _ _)
      simp [Event.keeps, Event.opens, Event.track]
  | starting valid hq hc =>
    -- Without callbacks the pointer is not null, although `initialize` does not test it.
    have hv : s.vendor ≠ none := by
      intro hv
      rw [(h.lost (by rw [hq]; exact Request.noConfusion) hv).1] at hc
      cases hc
    refine ⟨fun _ hn => absurd hn hv, fun _ => hv, fun _ _ => rfl, fun hn => ?_, h.accounts⟩
    cases hn
  | started r hq =>
    have hv : s.vendor ≠ none := h.used (by rw [hq]; rfl)
    obtain ⟨d, hd⟩ := Option.ne_none_iff_exists'.mp hv
    refine ⟨fun _ hn => absurd hn hv, fun hu => ?_, fun _ hn => ?_, fun hn => ?_, ?_⟩
    · cases hu
    · cases hn
    · cases hn
    · refine (h.accounts.keeps _ ?_).keeps _ (keeps_returned _ _ _)
      simp [Event.keeps, Event.opens, Event.track, hd]
  | restart o next hq => exact h.restart o hq
  | closeEnd r hq =>
    have hclosed := accounts_closeVendor h.accounts
    refine ⟨fun hn => absurd rfl hn, fun hu => ?_, fun _ hn => ?_, fun _ => closeVendor_vendor s, ?_⟩
    · cases hu
    · cases hn
    · rw [← closeVendor_vendor s] at hclosed
      refine hclosed.keeps _ ?_
      intro e he
      rcases List.mem_append.mp he with he | he
      · rcases List.mem_append.mp he with he | he
        · exact keeps_destroyed _ _ e he
        · exact keeps_destroyed _ _ e he
      · exact keeps_returned _ _ _ e he

theorem Reachable.attached {s : State} (h : Reachable s) : Attached s := by
  apply h.invariant Attached
  · intro s hi
    exact initial_attached hi
  · intro s a t _ hs ht
    exact (step_upkeep ht).attached (step_closed ht) hs

/-- In every reachable state: with the request lock free and the adapter not closed, a null pointer
comes with callbacks and a fatal error; no call is under way or prepared on a null pointer; every
call in the log was made while a device was open, and the pointer is that device; and after `close`
every device that was opened has been closed, once. -/
theorem vendor_never_null (s : State) (h : Reachable s) :
    (s.request = .idle → s.vendor = none → s.clientCallbacks = true ∧ s.fatal = true) ∧
    (s.request.usesVendor = true → s.vendor ≠ none) ∧
    (∀ stateLock hasDump d, (dump s stateLock hasDump).2 = some d → s.vendor = some d) ∧
    track s.log = some s.vendor ∧ (opens s.log).Nodup ∧
    (s.request = .closed → (opens s.log).Perm (closes s.log)) := by
  have ha := Reachable.attached h
  refine ⟨?_, ha.used, ?_, ha.accounts.tracked, ?_, ?_⟩
  · intro hq
    apply ha.lost
    rw [hq]
    exact Request.noConfusion
  · intro stateLock hasDump d hd
    unfold dump at hd
    split at hd
    · cases hd
    · split at hd
      · cases hd
      · dsimp only at hd
        split at hd
        · exact hd
        · cases hd
  · rw [ha.accounts.numbered]
    exact List.nodup_range
  · intro hq
    have hb := run_track_balanced ha.accounts.tracked
    rw [ha.closed hq] at hb
    simpa using hb

/-- A configuration without the preview restarts the stock device: it opens again, as device 1, and
does not accept the callbacks. -/
def failedRestart : List Action :=
  previewStart ++
    [.configure (some ⟨some [some 2], true⟩) fun _ => true, .restart ⟨true, 0, some true, -19⟩]

theorem failed_restart_vendor : ∃ s t,
    Transition.run step (opened recorderClients []) failedRestart = some s ∧
    Transition.run step s [.initializeDevice true, .defaultRequest 1 none true [], .close, .closeEnd 0] =
      some t ∧
    s.request = .idle ∧ s.vendor = none ∧ (s.clientCallbacks = true ∧ s.fatal = true) ∧
    opens t.log = [0, 1] ∧ (opens t.log).Perm (closes t.log) := by
  have hs : (Transition.run step (opened recorderClients []) failedRestart).map
      (fun s => (s.request, s.vendor)) = some (.idle, none) := by
    decide +kernel
  have ht : (Transition.run step (opened recorderClients []) (failedRestart ++
      [.initializeDevice true, .defaultRequest 1 none true [], .close, .closeEnd 0])).map
        (fun t => (t.request, opens t.log)) = some (.closed, [0, 1]) := by
    decide +kernel
  obtain ⟨s, hs, hend⟩ := Option.map_eq_some_iff.mp hs
  obtain ⟨t, ht, hclosed⟩ := Option.map_eq_some_iff.mp ht
  rw [Transition.run_append, hs] at ht
  have hreach : Reachable s := (Transition.Reachable.start (opened_initial _ _)).run hs
  have hq := congrArg Prod.fst hend
  have hv := congrArg Prod.snd hend
  refine ⟨s, t, hs, ht, hq, hv, (vendor_never_null s hreach).1 hq hv, congrArg Prod.snd hclosed, ?_⟩
  exact (vendor_never_null t (hreach.run ht)).2.2.2.2.2 (congrArg Prod.fst hclosed)

end Attached

end Camera3
