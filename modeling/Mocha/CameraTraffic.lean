import Mocha.Camera3

/-!
# What a step does to the requests in flight

Nine kinds of steps. Most are calm: they touch neither `frames` nor the running
callback, and log nothing about a request. The step function is unfolded here
and nowhere else in the theory of the requests.
-/
namespace Camera3

open CameraMetadata

/-- The event is not about a request in flight. -/
def Event.calm : Event → Bool
  | .stockCapture .. => false
  | .stockAnswer .. => false
  | .stockResult .. => false
  | .fenceClosed _ => false
  | .client .. => false
  | _ => true

/-- The request whose `capture` is being prepared. -/
def Request.capturing : Request → Option Capturing
  | .draining c => some c
  | .registering c _ => some c
  | .building c => some c
  | _ => none

/-- Neither a `capture` nor a closed adapter. -/
def Request.passive : Request → Bool
  | .draining _ => false
  | .registering .. => false
  | .building _ => false
  | .calling .. => false
  | .closed => false
  | _ => true

/-- A passive request thread carries no capture. -/
theorem Request.capturing_of_passive {r : Request} (h : r.passive = true) : r.capturing = none := by
  cases r <;> simp_all [Request.passive, Request.capturing]

/-- What `capture` has checked of its request when it goes on. -/
structure Admitted (s : State) (c : Capturing) : Prop where
  free : s.frames.get c.request.frameNumber = none
  nonempty : c.buffers ≠ []
  length : c.streams.length = c.buffers.length

structure Calm (s t : State) : Prop where
  frames : t.frames = s.frames
  callback : t.callback = s.callback
  callbacks : t.callbacks = s.callbacks
  nextFrame : t.nextFrame = s.nextFrame
  log : ∃ es, t.log = s.log ++ es ∧ ∀ e ∈ es, e.calm = true
  request : t.request = s.request ∨ t.request.passive = true ∨
    ∃ c, t.request.capturing = some c ∧ (s.request.capturing = some c ∨ Admitted s c)

/-- A step that logs nothing. -/
theorem Calm.silent {s t : State} (hf : t.frames = s.frames) (hc : t.callback = s.callback)
    (hn : t.callbacks = s.callbacks) (hs : t.nextFrame = s.nextFrame) (hl : t.log = s.log)
    (hr : t.request = s.request ∨ t.request.passive = true ∨
      ∃ c, t.request.capturing = some c ∧ (s.request.capturing = some c ∨ Admitted s c)) : Calm s t :=
  ⟨hf, hc, hn, hs, ⟨[], by simp [hl]⟩, hr⟩

theorem Calm.refl (s : State) : Calm s s := .silent rfl rfl rfl rfl rfl (.inl rfl)

theorem Calm.trans {s t u : State} (h : Calm s t) (k : Calm t u) : Calm s u := by
  obtain ⟨es, hes, hec⟩ := h.log
  obtain ⟨fs, hfs, hfc⟩ := k.log
  have hlog : u.log = s.log ++ (es ++ fs) := by rw [hfs, hes, List.append_assoc]
  have hcalm : ∀ e ∈ es ++ fs, e.calm = true := by
    intro e he
    rcases List.mem_append.mp he with he | he
    · exact hec e he
    · exact hfc e he
  refine ⟨k.frames.trans h.frames, k.callback.trans h.callback, k.callbacks.trans h.callbacks,
    k.nextFrame.trans h.nextFrame, ⟨es ++ fs, hlog, hcalm⟩, ?_⟩
  rcases k.request with hk | hk | ⟨c, hc, hk⟩
  · rw [hk]
    exact h.request
  · exact .inr (.inl hk)
  · refine .inr (.inr ⟨c, hc, ?_⟩)
    rcases hk with hk | hk
    · rcases h.request with ht | ht | ⟨d, hd, ht⟩
      · exact .inl (by rw [← ht]; exact hk)
      · rw [Request.capturing_of_passive ht] at hk
        cases hk
      · rw [hd] at hk
        cases hk
        exact ht
    · exact .inr ⟨by rw [← h.frames]; exact hk.free, hk.nonempty, hk.length⟩

theorem Calm.finish {s t : State} (h : Calm s t) (api : Api) (r : Int) : Calm s (t.finish api r) :=
  h.trans ⟨rfl, rfl, rfl, rfl, ⟨[.returned api r], rfl, by simp [Event.calm]⟩, .inr (.inl rfl)⟩

theorem Calm.record {s t : State} (h : Calm s t) (es : List Event) (hes : ∀ e ∈ es, e.calm = true) :
    Calm s (t.record es) :=
  h.trans ⟨rfl, rfl, rfl, rfl, ⟨es, rfl, hes⟩, .inl rfl⟩

theorem calm_finish (s : State) (api : Api) (r : Int) : Calm s (s.finish api r) :=
  (Calm.refl s).finish api r

theorem calm_initializeDevice (s : State) (valid : Bool) : Calm s (initializeDevice s valid) := by
  unfold initializeDevice
  split
  · exact calm_finish s _ _
  · split
    · exact calm_finish s _ _
    · exact .silent rfl rfl rfl rfl rfl (.inr (.inl rfl))

theorem calm_initializeEnd (s : State) (r : Int) : Calm s (initializeEnd s r) := by
  have h : Calm s { s with clientCallbacks := s.clientCallbacks && decide (r = 0) } :=
    .silent rfl rfl rfl rfl rfl (.inl rfl)
  exact (h.record _ (by simp [Event.calm])).finish _ _

theorem calm_configureBegin (s : State) (config : Option Config) (alloc : Nat → Bool) :
    Calm s (configureBegin s config alloc) := by
  unfold configureBegin
  split
  · exact calm_finish s _ _
  · split
    · exact calm_finish s _ _
    · split
      · exact calm_finish s _ _
      · split
        · exact calm_finish s _ _
        · split
          · exact calm_finish s _ _
          · refine .silent rfl rfl rfl rfl rfl (.inr (.inl ?_))
            dsimp only
            split <;> rfl

theorem calm_closeVendor (s : State) : Calm s (closeVendor s) := by
  unfold closeVendor
  split
  · exact Calm.refl s
  · exact ⟨rfl, rfl, rfl, rfl, ⟨_, rfl, by simp [Event.calm]⟩, .inl rfl⟩

/-- Opening the stock device again, whichever part of it fails. -/
theorem calm_reopenVendor (s : State) (o : Reopen) : Calm s (reopenVendor s o).2 := by
  have hc := calm_closeVendor s
  have ho : Calm s ({ closeVendor s with
      vendor := some (closeVendor s).devices, devices := (closeVendor s).devices + 1 }.record
        [.stockOpen (closeVendor s).devices]) :=
    hc.trans ⟨rfl, rfl, rfl, rfl, ⟨_, rfl, by simp [Event.calm]⟩, .inl rfl⟩
  unfold reopenVendor
  split
  · exact Calm.refl s
  · dsimp only
    split
    · exact hc
    · split
      · exact hc
      · split
        · exact ho.trans (calm_closeVendor _)
        · have hi := ho.record [.stockInitialize (closeVendor s).devices o.initializeResult]
            (by simp [Event.calm])
          split
          · exact hi.trans (calm_closeVendor _)
          · exact hi

theorem calm_failConfigure (s : State) (next : StreamMap) (r : Int) : Calm s (failConfigure s next r) := by
  have h : Calm s { s with failedStreams := s.failedStreams ++ next.values, fatal := true } :=
    .silent rfl rfl rfl rfl rfl (.inl rfl)
  exact h.finish _ _

/-- A restart tears down and opens again without any frame. -/
theorem calm_restart (s : State) (next : StreamMap) (o : Reopen) : Calm s (restart s next o) := by
  have hr := calm_reopenVendor s o
  unfold restart
  dsimp only
  split
  · exact hr.trans (calm_failConfigure _ _ _)
  · exact hr.trans (.silent rfl rfl rfl rfl rfl (.inr (.inl rfl)))

theorem destroyed_calm (m : List Stream) : ∀ e ∈ destroyed m, e.calm = true := by
  intro e he
  simp only [destroyed, List.mem_flatMap, List.mem_map] at he
  obtain ⟨st, -, b, -, rfl⟩ := he
  rfl

/-- Streams are replaced while no frame is in flight. -/
theorem calm_configureStreams (s : State) (next : StreamMap) (answer : Nat → StreamInfo) (r : Int) :
    Calm s (configureStreams s next answer r) := by
  unfold configureStreams
  dsimp only
  split
  · exact ((Calm.refl s).record _ (by simp [Event.calm])).trans (calm_failConfigure _ _ _)
  · refine Calm.finish (Calm.record ?_ _ (destroyed_calm _)) _ _
    exact ⟨rfl, rfl, rfl, rfl, ⟨_, rfl, by simp [Event.calm]⟩, .inl rfl⟩

theorem calm_defaultRequest (s : State) (type : Nat) (stock : Option Metadata) (copy : Bool)
    (alloc : Allocations) : Calm s (defaultRequest s type stock copy alloc) := by
  have hd : Calm s (s.record [.stockDefaults type]) := (Calm.refl s).record _ (by simp [Event.calm])
  unfold defaultRequest
  split
  · exact calm_finish s _ _
  · split
    · exact calm_finish s _ _
    · dsimp only
      split
      · exact hd.finish _ _
      · split
        · exact hd.finish _ _
        · split
          · exact hd.finish _ _
          · split
            · exact hd.finish _ _
            · refine Calm.finish ?_ _ _
              exact hd.trans (.silent rfl rfl rfl rfl rfl (.inl rfl))

/-- Accepted buffers have their streams found, one for each. -/
theorem checkBuffers_length (s : State) {buffers : List StreamBuffer} {seen streams : List Nat}
    {new : Bool} (h : checkBuffers s seen buffers = some (streams, new)) :
    streams.length = buffers.length := by
  induction buffers generalizing seen streams new with
  | nil =>
    cases h
    rfl
  | cons b bs ih =>
    rw [checkBuffers] at h
    split at h
    · split at h
      · split at h
        · cases h
        · obtain ⟨r, hr, heq⟩ := Option.map_eq_some_iff.mp h
          cases heq
          obtain ⟨rest, flag⟩ := r
          have hlen := ih hr
          simp [hlen]
      · cases h
    · cases h

/-- Checking a request changes nothing yet. -/
theorem calm_captureBegin (s : State) (request : Option CaptureRequest) :
    Calm s (captureBegin s request) := by
  unfold captureBegin
  split
  · exact calm_finish s _ _
  · rename_i r buffers _
    split
    · exact calm_finish s _ _
    · rename_i hne
      split
      · exact calm_finish s _ _
      · split
        · exact calm_finish s _ _
        · rename_i hfree
          split
          · exact calm_finish s _ _
          · rename_i streams new hc
            have hadm : Admitted s ⟨r, buffers, streams⟩ := by
              refine ⟨?_, hne, checkBuffers_length s hc⟩
              simpa using hfree
            refine .silent rfl rfl rfl rfl rfl (.inr (.inr ⟨⟨r, buffers, streams⟩, ?_, .inr hadm⟩))
            dsimp only
            split <;> rfl

theorem calm_captureDrained (s : State) (c : Capturing) (r : Int) (hq : s.request = .draining c) :
    Calm s (captureDrained s c r) := by
  unfold captureDrained
  split
  · exact calm_finish s _ _
  · exact .silent rfl rfl rfl rfl rfl (.inr (.inr ⟨c, rfl, .inl (by rw [hq]; rfl)⟩))

/-- A buffer is registered with the vendor before the frame exists. -/
theorem calm_registerBuffer (s : State) (c : Capturing) (i : Nat) (gralloc : Int) (alloc : Bool)
    (stock : Int) (hq : s.request = .registering c i) :
    Calm s (registerBuffer s c i gralloc alloc stock) := by
  have hc : s.request.capturing = some c := by rw [hq]; rfl
  have hbuild : Calm s { s with request := .building c } :=
    .silent rfl rfl rfl rfl rfl (.inr (.inr ⟨c, rfl, .inl hc⟩))
  unfold registerBuffer
  split
  · split
    · rename_i p b _ _ st h _ _
      split
      · exact .silent rfl rfl rfl rfl rfl (.inr (.inr ⟨c, rfl, .inl hc⟩))
      · have hg : Calm s ({ s with nextToken := s.nextToken + 1 }.record
            [.grallocRegister h.target s.nextToken gralloc]) :=
          ⟨rfl, rfl, rfl, rfl, ⟨_, rfl, by simp [Event.calm]⟩, .inl rfl⟩
        dsimp only
        split
        · exact hg.finish _ _
        · split
          · exact (hg.record _ (by simp [Event.calm])).finish _ _
          · split
            · refine Calm.finish (hg.trans ?_) _ _
              exact ⟨rfl, rfl, rfl, rfl, ⟨_, rfl, by simp [Event.calm]⟩, .inl rfl⟩
            · refine hg.trans ⟨rfl, rfl, rfl, rfl, ⟨_, rfl, by simp [Event.calm]⟩, ?_⟩
              exact .inr (.inr ⟨c, rfl, .inl hc⟩)
    · exact hbuild
  · exact hbuild

/-- The settings of a request change the trigger ids and `lastSettings` at most. -/
theorem requestSettings_state (s : State) (raw : Metadata) (clone : Bool) (alloc : Allocations) :
    ∃ af ae last, (requestSettings s raw clone alloc).2 =
      { s with afTriggerId := af, aeTriggerId := ae, lastSettings := last } := by
  unfold requestSettings
  split
  · exact ⟨_, _, _, rfl⟩
  · split
    · exact ⟨_, _, _, rfl⟩
    · split
      · exact ⟨_, _, _, rfl⟩
      · dsimp only
        split
        · exact ⟨_, _, _, rfl⟩
        · split
          · exact ⟨_, _, _, rfl⟩
          · exact ⟨_, _, _, rfl⟩

/-- The frame that `submit` puts in flight. -/
def newFrame (s : State) (c : Capturing) (settings : Metadata) : Frame :=
  { serial := s.nextFrame, settings := settings, partials := [], clientBuffers := c.buffers
    vendorBuffers := List.zipWith (vendorBuffer s.streams) c.buffers c.streams
    returned := List.replicate c.buffers.length false, remaining := c.buffers.length
    metadataDone := false, shutterDone := false }

/-- The stock device gets the request, with whatever settings were built for it. -/
def Submitted (s : State) (c : Capturing) (t : State) : Prop :=
  ∃ af ae last settings,
    t = submit { s with afTriggerId := af, aeTriggerId := ae, lastSettings := last } c settings

/-- What submitting a frame adds: the frame itself, in flight from here on. -/
theorem Submitted.spec {s t : State} {c : Capturing} (h : Submitted s c t) : ∃ settings shown,
    t.frames = s.frames ++ [(c.request.frameNumber, newFrame s c settings)] ∧
    t.callback = s.callback ∧ t.request = .calling c.request.frameNumber s.nextFrame ∧
    t.log = s.log ++ [.stockCapture c.request.frameNumber s.nextFrame c.buffers
      (newFrame s c settings).vendorBuffers shown] := by
  obtain ⟨af, ae, last, settings, rfl⟩ := h
  exact ⟨settings, _, rfl, rfl, rfl, rfl⟩

/-- `buildFrame` refuses the request, or it calls the stock device. -/
theorem buildFrame_cases (s : State) (c : Capturing) (clone : Bool) (alloc : Allocations) :
    (∃ af ae last r, buildFrame s c clone alloc =
      ({ s with afTriggerId := af, aeTriggerId := ae, lastSettings := last } : State).finish .capture r) ∨
    Submitted s c (buildFrame s c clone alloc) := by
  unfold buildFrame
  split
  · rename_i raw _
    obtain ⟨af, ae, last, hu⟩ := requestSettings_state s raw clone alloc
    split
    · rename_i e u he
      rw [he] at hu
      dsimp only at hu
      exact .inl ⟨af, ae, last, e, by rw [hu]⟩
    · rename_i settings u he
      rw [he] at hu
      dsimp only at hu
      exact .inr ⟨af, ae, last, settings, by rw [hu]⟩
  · split
    · exact .inl ⟨s.afTriggerId, s.aeTriggerId, s.lastSettings, _, rfl⟩
    · exact .inr ⟨s.afTriggerId, s.aeTriggerId, s.lastSettings, _, rfl⟩

/-- The steps as the requests in flight see them. -/
inductive Traffic (s : State) : Action → State → Prop where
  | calm (a : Action) (t : State) (h : Calm s t) : Traffic s a t
  | submit (clone : Bool) (alloc : Allocations) (c : Capturing) (t : State)
      (hq : s.request = .building c) (h : Submitted s c t) : Traffic s (.build clone alloc) t
  | answer (r : Int) (n k : Nat) (hq : s.request = .calling n k) :
      Traffic s (.answer r) (captureAnswered s n k r)
  | closeEnd (r : Int) (t : State) (hq : s.request = .closing) (hr : t.request = .closed)
      (hf : t.frames = []) (hc : t.callback = s.callback) (hn : t.callbacks = s.callbacks)
      (hs : t.nextFrame = s.nextFrame)
      (hl : ∃ es, t.log = s.log ++ es ∧ ∀ e ∈ es, e.calm = true) : Traffic s (.closeEnd r) t
  | result (r : StockResult) (alloc : Allocations) (hc : s.callback = .idle)
      (hq : s.request ≠ .closed) : Traffic s (.result r alloc) (stockResult s r alloc)
  | notify (m : Message) (hc : s.callback = .idle) (hq : s.request ≠ .closed) :
      Traffic s (.notify m) (stockNotify s m)
  | deliver (frame owner : Option Nat) (c : ClientCall) (calls : List ClientCall)
      (hc : s.callback = .delivering frame owner (c :: calls)) :
      Traffic s .deliver
        ({ s with callback := .delivering frame owner calls }.record [.client owner c])
  | retire (frame owner : Option Nat) (hc : s.callback = .delivering frame owner []) :
      Traffic s .retire (retire s frame)

/-- The end of the close is the one step that drops all frames at once. -/
theorem closeEnd_traffic (s : State) (r : Int) (hq : s.request = .closing) :
    Traffic s (.closeEnd r) (closeEnd s r) := by
  have hv := calm_closeVendor s
  have hr : Calm s ((closeVendor s).record (destroyed (closeVendor s).streams.values ++
      destroyed (closeVendor s).failedStreams ++
        [Event.returned .close (if s.vendor.isSome then r else 0)])) := by
    apply hv.record
    intro e he
    simp only [List.mem_append, List.mem_singleton] at he
    rcases he with (he | he) | rfl
    · exact destroyed_calm _ e he
    · exact destroyed_calm _ e he
    · rfl
  exact .closeEnd r _ hq rfl rfl hv.callback hv.callbacks hv.nextFrame hr.log

/-- Every step of the request thread is one kind of traffic. -/
theorem requestStep_traffic {s t : State} {a : Action} (h : RequestStep s a t) : Traffic s a t := by
  cases h with
  | initializeDevice valid hq => exact .calm _ _ (calm_initializeDevice s valid)
  | initializeEnd result hq hv => exact .calm _ _ (calm_initializeEnd s result)
  | configure config alloc hq => exact .calm _ _ (calm_configureBegin s config alloc)
  | restart next o hq => exact .calm _ _ (calm_restart s next o)
  | configureStreams next answer result hq hv =>
    exact .calm _ _ (calm_configureStreams s next answer result)
  | defaultRequest type stock copy alloc hq =>
    exact .calm _ _ (calm_defaultRequest s type stock copy alloc)
  | capture request hq => exact .calm _ _ (calm_captureBegin s request)
  | captureDrain c timeout r hq hr => exact .calm _ _ (calm_captureDrained s c r hq)
  | registerBuffer c i gralloc alloc stock hq hv =>
    exact .calm _ _ (calm_registerBuffer s c i gralloc alloc stock hq)
  | build c clone alloc hq hv =>
    rcases buildFrame_cases s c clone alloc with ⟨af, ae, last, r, hb⟩ | hb
    · rw [hb]
      apply Traffic.calm
      apply Calm.finish
      exact .silent rfl rfl rfl rfl rfl (.inl rfl)
    · exact .submit clone alloc c _ hq hb
  | answer frame serial result hq => exact .answer _ _ _ hq
  | flush hq => exact .calm _ _ (.silent rfl rfl rfl rfl rfl (.inr (.inl rfl)))
  | flushDrain timeout r hq hr => exact .calm _ _ (calm_finish s _ r)
  | close hq => exact .calm _ _ (.silent rfl rfl rfl rfl rfl (.inr (.inl rfl)))
  | closeEnd result hq => exact closeEnd_traffic s result hq

theorem callbackStep_traffic {s t : State} {a : Action} (h : CallbackStep s a t) : Traffic s a t := by
  cases h with
  | result r alloc hc hg => exact .result r alloc hc hg.2
  | notify m hc hg => exact .notify m hc hg.2
  | deliver frame owner c calls hc => exact .deliver _ _ _ _ hc
  | retire frame owner hc => exact .retire _ _ hc

theorem writeStream_calm {s t : State} {p : Nat} {info : StreamInfo}
    (h : writeStream s p info = some t) : Calm s t := by
  unfold writeStream at h
  split at h <;> cases h
  exact .silent rfl rfl rfl rfl rfl (.inl rfl)

/-- Every step is of one of these kinds. -/
theorem step_traffic {s t : State} {a : Action} (h : step s a = some t) : Traffic s a t := by
  cases step_cases h with
  | request hstep => exact requestStep_traffic hstep
  | callback hstep => exact callbackStep_traffic hstep
  | write hwrite => exact .calm _ _ (writeStream_calm hwrite)

/-- A result for a frame that is not in flight is counted and dropped. -/
theorem stockResult_unknown {s : State} {r : StockResult} (alloc : Allocations)
    (h : s.frames.get r.frame = none) : stockResult s r alloc =
      { s with
        callbacks := s.callbacks + 1
        log := s.log ++ (.stockResult s.callbacks r ::
          (handedFences s.callbacks 0 r.buffers).map .fenceClosed) } := by
  have hg : ({ s with callbacks := s.callbacks + 1 }.record [.stockResult s.callbacks r]).frames.get
      r.frame = none := h
  simp only [stockResult, hg]
  simp [State.record]

/-- The frame of a result after the loop over its buffers. -/
def returning (s : State) (r : StockResult) (alloc : Allocations) (f : Frame) : Returning :=
  returnBuffers s.callbacks 0 ⟨(resultMetadata alloc f r.metadata).1, [], [], false⟩ r.buffers

/-- A result for a frame in flight updates that frame. -/
theorem stockResult_known {s : State} {r : StockResult} (alloc : Allocations) {f : Frame}
    (h : s.frames.get r.frame = some f) : stockResult s r alloc =
      { s with
        callbacks := s.callbacks + 1
        frames := s.frames.adjust r.frame fun _ => (returning s r alloc f).frame
        fatal := s.fatal || (returning s r alloc f).fatal
        callback := .delivering (some r.frame) (some f.serial)
          (resultCalls r.frame (resultMetadata alloc f r.metadata).2.1
            (resultMetadata alloc f r.metadata).2.2 (returning s r alloc f).output)
        log := s.log ++ (.stockResult s.callbacks r ::
          (returning s r alloc f).closed.map .fenceClosed) } := by
  have hg : ({ s with callbacks := s.callbacks + 1 }.record [.stockResult s.callbacks r]).frames.get
      r.frame = some f := h
  simp only [stockResult, hg]
  simp [State.record, returning]

theorem lookup_some {m : FrameMap} {frame : Option Nat} {n : Nat} {f : Frame}
    (h : m.lookup frame = some (n, f)) : frame = some n ∧ m.get n = some f := by
  obtain ⟨k, hk, hm⟩ := Option.bind_eq_some_iff.mp h
  obtain ⟨g, hg, heq⟩ := Option.map_eq_some_iff.mp hm
  cases heq
  exact ⟨hk, hg⟩

/-- Only `submit` adds a frame number. -/
theorem stockResult_keys (s : State) (r : StockResult) (alloc : Allocations) :
    (stockResult s r alloc).frames.keys = s.frames.keys := by
  cases hg : s.frames.get r.frame with
  | none => rw [stockResult_unknown alloc hg]
  | some f =>
    rw [stockResult_known alloc hg]
    dsimp only
    rw [Assoc.keys_adjust]

theorem stockResult_request (s : State) (r : StockResult) (alloc : Allocations) :
    (stockResult s r alloc).request = s.request := by
  cases hg : s.frames.get r.frame with
  | none => rw [stockResult_unknown alloc hg]
  | some f => rw [stockResult_known alloc hg]

/-- A message removes no frame from the table. -/
theorem stockNotify_keys (s : State) (m : Message) : (stockNotify s m).frames.keys = s.frames.keys := by
  unfold stockNotify
  dsimp only
  split
  · exact Assoc.keys_adjust _ _ _
  · rfl

theorem lookup_of_get {m : FrameMap} {n : Nat} {f : Frame} (h : m.get n = some f) :
    m.lookup (some n) = some (n, f) := by
  simp [FrameMap.lookup, h]

/-- `retire` removes a complete frame, and nothing else. -/
theorem retire_frames (s : State) (frame : Option Nat) :
    ((retire s frame).frames = s.frames ∧
      ∀ n f, frame = some n → s.frames.get n = some f → f.complete = false) ∨
    ∃ n f, frame = some n ∧ s.frames.get n = some f ∧ f.complete = true ∧
      (retire s frame).frames = s.frames.erase n := by
  unfold retire
  dsimp only
  split
  · rename_i n f hl
    obtain ⟨rfl, hf⟩ := lookup_some hl
    split
    · rename_i hc
      exact .inr ⟨n, f, rfl, hf, hc, rfl⟩
    · rename_i hc
      refine .inl ⟨rfl, ?_⟩
      intro m g hm hg
      cases hm
      rw [hf] at hg
      cases hg
      simpa using hc
  · rename_i hl
    refine .inl ⟨rfl, ?_⟩
    rintro n f rfl hf
    rw [lookup_of_get hf] at hl
    cases hl

/-- While `capture` prepares a request, its number stays free. -/
def Prepared (s : State) : Prop := ∀ c, s.request.capturing = some c → Admitted s c

/-- Frames that leave the table cannot collide with a new one. -/
theorem Prepared.shrink {s t : State} (h : Prepared s) (hr : t.request = s.request)
    (hk : t.frames.keys ⊆ s.frames.keys) : Prepared t := by
  intro c hc
  rw [hr] at hc
  have hs := h c hc
  refine ⟨?_, hs.nonempty, hs.length⟩
  have hfree := (Assoc.get_eq_none_iff _ _).mp hs.free
  exact (Assoc.get_eq_none_iff _ _).mpr fun hmem => hfree (hk hmem)

/-- By cases of the traffic. -/
theorem Traffic.prepared {s t : State} {a : Action} (ht : Traffic s a t) (h : Prepared s) :
    Prepared t := by
  cases ht with
  | calm a t hc =>
    intro c hcap
    have hs : Admitted s c := by
      rcases hc.request with hr | hr | ⟨d, hd, hr⟩
      · rw [hr] at hcap
        exact h c hcap
      · rw [Request.capturing_of_passive hr] at hcap
        cases hcap
      · rw [hd] at hcap
        cases hcap
        rcases hr with hr | hr
        · exact h _ hr
        · exact hr
    exact ⟨by rw [hc.frames]; exact hs.free, hs.nonempty, hs.length⟩
  | submit clone alloc c t hq hsub =>
    obtain ⟨af, ae, last, settings, rfl⟩ := hsub
    intro d hd
    cases hd
  | answer r n k hq =>
    intro c hc
    cases hc
  | closeEnd r t hq hr =>
    intro c hc
    rw [hr] at hc
    cases hc
  | result r alloc hc hq =>
    refine h.shrink (stockResult_request s r alloc) ?_
    rw [stockResult_keys]
    exact List.Subset.refl _
  | notify m hc hq =>
    refine h.shrink rfl ?_
    rw [stockNotify_keys]
    exact List.Subset.refl _
  | deliver frame owner c calls hc => exact h.shrink rfl (List.Subset.refl _)
  | retire frame owner hc =>
    refine h.shrink rfl ?_
    rcases retire_frames s frame with ⟨hf, -⟩ | ⟨n, f, -, -, -, hf⟩
    · rw [hf]
      exact List.Subset.refl _
    · rw [hf]
      exact (Assoc.keys_erase_sublist _ _).subset

theorem Reachable.prepared {s : State} (h : Reachable s) : Prepared s := by
  apply h.invariant Prepared
  · intro s hi c hc
    rw [hi.request] at hc
    cases hc
  · intro s a t _ hs ht
    exact (step_traffic ht).prepared hs

/-- A closed adapter stays closed. -/
theorem step_closed {s t : State} {a : Action} (h : step s a = some t) (hq : s.request = .closed) :
    t.request = .closed := by
  cases step_cases h with
  | request hstep => cases hstep <;> simp_all
  | callback hstep =>
    cases hstep with
    | result r alloc hc hg => exact absurd hq hg.2
    | notify m hc hg => exact absurd hq hg.2
    | deliver => exact hq
    | retire => exact hq
  | write hwrite =>
    unfold writeStream at hwrite
    split at hwrite <;> cases hwrite
    exact hq

end Camera3
