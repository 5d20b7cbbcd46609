import Mocha.CameraTraffic

/-!
# What a step does to the streams

The same steps as the configuration sees them: what `configure` builds, what a
failure leaves behind, and where `capture` stands with its buffers. A callback
never touches the streams.
-/
namespace Camera3

open CameraMetadata

section Building

/-- The streams that `configure` builds for the pointers of its array. -/
structure Built (clients : Nat → StreamInfo) (first : Nat) (ptrs : List (Option Nat))
    (next : StreamMap) : Prop where
  keys : next.keys.map some = ptrs
  nodup : next.keys.Nodup
  ids : next.map (fun e => e.2.id) = List.range' first next.length
  fresh : ∀ e ∈ next, e.2.client = e.1 ∧ e.2.buffers = [] ∧
    e.2.legacy = { clients e.1 with priv := none }

theorem Built.empty (clients : Nat → StreamInfo) (first : Nat) : Built clients first [] [] :=
  ⟨rfl, List.nodup_nil, rfl, by simp⟩

/-- One turn refuses the configuration, or it adds the stream of its pointer. -/
theorem buildStream_cases (s : State) (alloc : Bool) (b : Building) (ptr : Option Nat) :
    (∃ e, buildStream s alloc b ptr = .error e ∧ (e = -einval ∨ e = -enomem)) ∨
    ∃ p b', ptr = some p ∧ buildStream s alloc b ptr = .ok b' ∧ p ∉ b.next.keys ∧
      b'.next = b.next ++ [(p, ⟨s.nextStream + b.next.length, { s.clients p with priv := none }, p, []⟩)] := by
  unfold buildStream
  split
  · exact .inl ⟨_, rfl, .inl rfl⟩
  · rename_i p
    dsimp only
    split
    · exact .inl ⟨_, rfl, .inl rfl⟩
    · rename_i hok
      split
      · exact .inl ⟨_, rfl, .inl rfl⟩
      · split
        · exact .inl ⟨_, rfl, .inl rfl⟩
        · split
          · exact .inl ⟨_, rfl, .inr rfl⟩
          · have hnew : p ∉ b.next.keys := fun hp => hok (.inr (.inr (.inr hp)))
            exact .inr ⟨p, _, rfl, rfl, hnew, rfl⟩

/-- A pointer not seen before gets the next stream. -/
theorem Built.snoc {clients : Nat → StreamInfo} {first : Nat} {ptrs : List (Option Nat)}
    {next : StreamMap} (h : Built clients first ptrs next) {p : Nat} (hp : p ∉ next.keys) :
    Built clients first (ptrs ++ [some p])
      (next ++ [(p, ⟨first + next.length, { clients p with priv := none }, p, []⟩)]) := by
  refine ⟨?_, ?_, ?_, ?_⟩
  · rw [Assoc.keys_append, List.map_append, h.keys]
    rfl
  · rw [Assoc.keys_append]
    refine List.nodup_append.mpr ⟨h.nodup, List.nodup_singleton _, ?_⟩
    rintro k hk m hm rfl
    rw [List.mem_singleton.mp hm] at hk
    exact hp hk
  · simp [h.ids, List.range'_concat]
  · intro e he
    rcases List.mem_append.mp he with he | he
    · exact h.fresh e he
    · rw [List.mem_singleton.mp he]
      exact ⟨rfl, rfl, rfl⟩

/-- The loop over the client's streams, by induction on those still to come. -/
theorem buildStreams_spec (s : State) (alloc : Nat → Bool) (ptrs : List (Option Nat))
    {done : List (Option Nat)} {b : Building} (h : Built s.clients s.nextStream done b.next) :
    (∃ e, buildStreams s alloc b ptrs = .error e ∧ (e = -einval ∨ e = -enomem)) ∨
    ∃ b', buildStreams s alloc b ptrs = .ok b' ∧ Built s.clients s.nextStream (done ++ ptrs) b'.next := by
  induction ptrs generalizing done b with
  | nil => exact .inr ⟨b, rfl, by simpa using h⟩
  | cons ptr ptrs ih =>
    rw [buildStreams]
    rcases buildStream_cases s (alloc b.next.length) b ptr with ⟨e, he, hcode⟩ | ⟨p, b', rfl, hb, hp, hnext⟩
    · rw [he]
      exact .inl ⟨e, rfl, hcode⟩
    · rw [hb]
      have hbuilt : Built s.clients s.nextStream (done ++ [some p]) b'.next := by
        rw [hnext]
        exact h.snoc hp
      have hrest := ih hbuilt
      rw [List.append_assoc] at hrest
      exact hrest

/-- The state in which `configure` contacts the stock device. -/
def contacting (s : State) (ptrs : List (Option Nat)) (next : StreamMap) : State :=
  { s with
    request :=
      if s.streams ≠ [] ∧ processedGeometry s.clients s.streams ≠ processedGeometry s.clients next then
        .restarting next
      else .configuring next
    nextStream := s.nextStream + next.length
    entry := ⟨ptrs, s.streams, s.failedStreams, s.clients, processedGeometry s.clients next⟩ }

/-- `configure` fails at once, with a reason, or it has built its streams. -/
theorem configureBegin_cases (s : State) (config : Option Config) (alloc : Nat → Bool) :
    (∃ r, configureBegin s config alloc = s.finish .configure r ∧ r ≠ 0 ∧
      (r = -ebusy → s.frames ≠ [])) ∨
    ∃ ptrs next, configureBegin s config alloc = contacting s ptrs next ∧
      (config.bind fun c => if c.normalMode then c.streams else none) = some ptrs ∧
      (s.fatal = false ∧ s.clientCallbacks = true) ∧ s.frames = [] ∧ ptrs ≠ [] ∧
      Built s.clients s.nextStream ptrs next := by
  unfold configureBegin
  split
  · exact .inl ⟨_, rfl, by decide, fun h => absurd h (by decide)⟩
  · rename_i ptrs hptrs
    split
    · exact .inl ⟨_, rfl, by decide, fun h => absurd h (by decide)⟩
    · rename_i hne
      split
      · exact .inl ⟨_, rfl, by decide, fun h => absurd h (by decide)⟩
      · rename_i hlive
        split
        · rename_i hbusy
          exact .inl ⟨_, rfl, by decide, fun _ => hbusy⟩
        · rename_i hfree
          have hspec := buildStreams_spec s alloc ptrs (b := ⟨[], 0, 0⟩) (Built.empty _ _)
          rcases hspec with ⟨e, he, hcode⟩ | ⟨b, hb, hbuilt⟩
          · rw [he]
            rcases hcode with rfl | rfl
            · exact .inl ⟨_, rfl, by decide, fun h => absurd h (by decide)⟩
            · exact .inl ⟨_, rfl, by decide, fun h => absurd h (by decide)⟩
          · rw [hb]
            simp only [Bool.or_eq_true, Bool.not_eq_true', not_or, Bool.not_eq_true,
              Bool.not_eq_false] at hlive
            refine .inr ⟨ptrs, b.next, ?_, hptrs, ⟨hlive.1.1, hlive.2⟩, not_not.mp hfree, hne, hbuilt⟩
            simp [contacting]

end Building

section Registering

/-- The buffer at which the registration loop stands: its stream and its handle. -/
structure At (s : State) (c : Capturing) (i p : Nat) (stream : Stream) (h : HandlePtr) : Prop where
  key : c.streams[i]? = some p
  stream : s.streams.get p = some stream
  handle : ∃ b, c.buffers[i]? = some b ∧ b.buffer = some h

/-- The state after gralloc was asked for a handle. -/
def asked (s : State) (handle : Nat) (result : Int) : State :=
  { s with
    nextToken := s.nextToken + 1, log := s.log ++ [.grallocRegister handle s.nextToken result] }

/-- The buffers of a stream with one more reference. -/
def pinned (s : State) (stream : Stream) (handle : Nat) : List BufferReference :=
  stream.buffers ++ [⟨handle, s.nextToken⟩]

/-- The state after the stock device was given the buffers of a stream. -/
def offered (s : State) (p : Nat) (stream : Stream) (handle : Nat) (result : Int) : State :=
  { asked s handle 0 with
    streams := s.streams.adjust p fun st => { st with buffers := pinned s stream handle }
    log := s.log ++ [.grallocRegister handle s.nextToken 0,
      .stockRegister stream.id ((pinned s stream handle).map fun b => b.handle) result] }

/-- One turn of the registration loop. -/
inductive Registering (s : State) (c : Capturing) (i : Nat) : State → Prop where
  | finished (h : ∀ p stream h, ¬At s c i p stream h) : Registering s c i { s with request := .building c }
  | known {p : Nat} {stream : Stream} {h : HandlePtr} (hat : At s c i p stream h)
      (hk : h.target ∈ stream.handles) : Registering s c i { s with request := .registering c (i + 1) }
  | refused {p : Nat} {stream : Stream} {h : HandlePtr} (hat : At s c i p stream h)
      (hk : h.target ∉ stream.handles) (r : Int) (hr : r ≠ 0) :
      Registering s c i ((asked s h.target r).finish .capture r)
  | unstored {p : Nat} {stream : Stream} {h : HandlePtr} (hat : At s c i p stream h)
      (hk : h.target ∉ stream.handles) :
      Registering s c i (((asked s h.target 0).record [.grallocUnregister h.target s.nextToken]).finish
        .capture (-enomem))
  | rejected {p : Nat} {stream : Stream} {h : HandlePtr} (hat : At s c i p stream h)
      (hk : h.target ∉ stream.handles) (r : Int) (hr : r ≠ 0) :
      Registering s c i ({ offered s p stream h.target r with fatal := true }.finish .capture r)
  | accepted {p : Nat} {stream : Stream} {h : HandlePtr} (hat : At s c i p stream h)
      (hk : h.target ∉ stream.handles) :
      Registering s c i { offered s p stream h.target 0 with request := .registering c (i + 1) }

/-- What a buffer leaves in the history when gralloc refuses it. -/
theorem refused_log (s : State) (handle : Nat) (r : Int) : ((asked s handle r).finish .capture r).log =
    s.log ++ [.grallocRegister handle s.nextToken r, .returned .capture r] := by
  simp [asked, State.finish]

/-- What it leaves when no memory is left to note it: the registration is undone. -/
theorem unstored_log (s : State) (handle : Nat) :
    (((asked s handle 0).record [.grallocUnregister handle s.nextToken]).finish .capture (-enomem)).log =
      s.log ++ [.grallocRegister handle s.nextToken 0, .grallocUnregister handle s.nextToken,
        .returned .capture (-enomem)] := by
  simp [asked, State.record, State.finish]

/-- The inversion lemma of the registration of one buffer. -/
theorem registerBuffer_cases (s : State) (c : Capturing) (i : Nat) (gralloc : Int) (alloc : Bool)
    (stock : Int) : Registering s c i (registerBuffer s c i gralloc alloc stock) := by
  unfold registerBuffer
  split
  · rename_i p b hp hb
    split
    · rename_i stream h hs hh
      have hat : At s c i p stream h := ⟨hp, hs, b, hb, hh⟩
      split
      · rename_i hk
        exact .known hat hk
      · rename_i hk
        dsimp only
        split
        · rename_i hr
          exact .refused hat hk gralloc hr
        · rename_i hg
          obtain rfl : gralloc = 0 := not_not.mp hg
          split
          · exact .unstored hat hk
          · split
            · rename_i hr
              have hrej := Registering.rejected hat hk stock hr
              simpa [offered, pinned, asked, State.record, State.finish] using hrej
            · rename_i hr
              obtain rfl : stock = 0 := not_not.mp hr
              have hacc := Registering.accepted hat hk
              simpa [offered, pinned, asked, State.record] using hacc
    · rename_i hnone
      refine .finished fun q stream h hat => ?_
      obtain ⟨b', hb', hh⟩ := hat.handle
      have hq : q = p := Option.some.inj (hat.key.symm.trans hp)
      have hbb : b' = b := Option.some.inj (hb'.symm.trans hb)
      subst hq hbb
      exact hnone _ _ hat.stream hh
  · rename_i hnone
    refine .finished fun p stream h hat => ?_
    obtain ⟨b, hb, -⟩ := hat.handle
    exact hnone _ _ hat.key hb

end Registering

section Turns

/-- The event is not about a buffer of a stream. -/
def Event.plain : Event → Bool
  | .stockRegister .. => false
  | .stockCapture .. => false
  | .grallocRegister .. => false
  | .grallocUnregister .. => false
  | _ => true

/-- The streams that `configure` is about to publish. -/
def Request.configuring? : Request → Option StreamMap
  | .restarting next => some next
  | .configuring next => some next
  | _ => none

/-- Neither a `configure` nor a `capture` is under way. -/
def Request.resting : Request → Bool
  | .idle => true
  | .initializing => true
  | .flushing => true
  | .closing => true
  | .calling .. => true
  | _ => false

theorem Request.resting_spec {r : Request} (h : r.resting = true) :
    r.configuring? = none ∧ r.capturing = none ∧ r ≠ .closed := by
  cases r <;> simp_all [Request.resting, Request.configuring?, Request.capturing]

/-- The streams are untouched. -/
structure Same (s t : State) : Prop where
  streams : t.streams = s.streams
  failedStreams : t.failedStreams = s.failedStreams
  clients : t.clients = s.clients
  nextStream : t.nextStream = s.nextStream
  nextToken : t.nextToken = s.nextToken
  entry : t.entry = s.entry
  requested : t.requested = s.requested
  fatal : s.fatal = true → t.fatal = true
  log : ∃ es, t.log = s.log ++ es ∧ ∀ e ∈ es, e.plain = true

theorem Same.refl (s : State) : Same s s :=
  ⟨rfl, rfl, rfl, rfl, rfl, rfl, rfl, id, [], by simp, by simp⟩

theorem Same.trans {s t u : State} (h : Same s t) (k : Same t u) : Same s u := by
  obtain ⟨es, hes, hep⟩ := h.log
  obtain ⟨fs, hfs, hfp⟩ := k.log
  refine ⟨k.streams.trans h.streams, k.failedStreams.trans h.failedStreams, k.clients.trans h.clients,
    k.nextStream.trans h.nextStream, k.nextToken.trans h.nextToken, k.entry.trans h.entry,
    k.requested.trans h.requested, fun hf => k.fatal (h.fatal hf), es ++ fs, ?_, ?_⟩
  · rw [hfs, hes, List.append_assoc]
  · intro e he
    rcases List.mem_append.mp he with he | he
    · exact hep e he
    · exact hfp e he

theorem Same.finish {s t : State} (h : Same s t) (api : Api) (r : Int) : Same s (t.finish api r) :=
  h.trans ⟨rfl, rfl, rfl, rfl, rfl, rfl, rfl, id, [.returned api r], rfl, by simp [Event.plain]⟩

theorem Same.record {s t : State} (h : Same s t) (es : List Event) (hes : ∀ e ∈ es, e.plain = true) :
    Same s (t.record es) :=
  h.trans ⟨rfl, rfl, rfl, rfl, rfl, rfl, rfl, id, es, rfl, hes⟩

/-- The new streams after a failure: kept under their addresses, with no buffers. -/
structure Kept (next : StreamMap) (new : List Stream) : Prop where
  ids : new.map (fun st => st.id) = next.map fun e => e.2.id
  clients : new.map (fun st => st.client) = next.map fun e => e.2.client
  buffers : new.map (fun st => st.buffers) = next.map fun e => e.2.buffers

/-- The steps as the streams see them. -/
inductive Turn (s : State) : Action → State → Prop where
  | aside (a : Action) (t : State) (h : Same s t) (hr : t.request = s.request)
      (hf : s.frames = [] → t.frames = []) : Turn s a t
  | rest (a : Action) (t : State) (h : Same s t) (hq : s.request.configuring? = none)
      (hr : t.request.resting = true) : Turn s a t
  | write (p : Nat) (info : StreamInfo) (hq : s.request.configuring? = none) :
      Turn s (.writeStream p info) { s with clients := Function.update s.clients p info }
  | configure (config : Option Config) (alloc : Nat → Bool) (ptrs : List (Option Nat))
      (next : StreamMap) (hq : s.request = .idle) (hf : s.frames = []) (hne : ptrs ≠ [])
      (hb : Built s.clients s.nextStream ptrs next) :
      Turn s (.configure config alloc) (contacting s ptrs next)
  | restarted (o : Reopen) (next : StreamMap) (t : State) (hq : s.request = .restarting next)
      (h : Same s t) (hr : t.request = .configuring next) (hf : t.frames = s.frames) :
      Turn s (.restart o) t
  | failed (a : Action) (next : StreamMap) (u t : State) (new : List Stream) (r : Int)
      (hq : s.request.configuring? = some next) (h : Same s u) (hk : Kept next new) (hr : r ≠ 0)
      (ht : t = { u with failedStreams := u.failedStreams ++ new, fatal := true }.finish .configure r) :
      Turn s a t
  | configured (answer : Nat → StreamInfo) (next : StreamMap) (hq : s.request = .configuring next) :
      Turn s (.configureStreams answer 0) (configureStreams s next answer 0)
  | capture (request : Option CaptureRequest) (c : Capturing) (new : Bool) (hq : s.request = .idle)
      (hfatal : s.fatal = false) (hc : checkBuffers s [] c.buffers = some (c.streams, new)) :
      Turn s (.capture request) { s with request := if new then .draining c else .building c }
  | drained (timeout : Bool) (c : Capturing) (hq : s.request = .draining c) (hf : s.frames = []) :
      Turn s (.drain timeout) { s with request := .registering c 0 }
  | registering (gralloc : Int) (alloc : Bool) (stock : Int) (c : Capturing) (i : Nat) (t : State)
      (hq : s.request = .registering c i) (h : Registering s c i t) :
      Turn s (.registerBuffer gralloc alloc stock) t
  | submit (clone : Bool) (alloc : Allocations) (c : Capturing) (t : State)
      (hq : s.request = .building c) (h : Submitted s c t) : Turn s (.build clone alloc) t
  | closeEnd (r : Int) (hq : s.request = .closing) : Turn s (.closeEnd r) (closeEnd s r)

theorem same_finish (s : State) (api : Api) (r : Int) : Same s (s.finish api r) :=
  (Same.refl s).finish api r

/-- A step that logs nothing and does not touch the streams. -/
theorem Same.silent {s t : State} (h1 : t.streams = s.streams) (h2 : t.failedStreams = s.failedStreams)
    (h3 : t.clients = s.clients) (h4 : t.nextStream = s.nextStream) (h5 : t.nextToken = s.nextToken)
    (h6 : t.entry = s.entry) (h7 : t.requested = s.requested) (h8 : t.fatal = s.fatal)
    (h9 : t.log = s.log) : Same s t :=
  ⟨h1, h2, h3, h4, h5, h6, h7, fun h => h8.trans h, [], by simp [h9], by simp⟩

theorem same_initializeEnd (s : State) (r : Int) : Same s (initializeEnd s r) := by
  have h : Same s { s with clientCallbacks := s.clientCallbacks && decide (r = 0) } :=
    .silent rfl rfl rfl rfl rfl rfl rfl rfl rfl
  exact (h.record _ (by simp [Event.plain])).finish _ _

theorem same_defaultRequest (s : State) (type : Nat) (stock : Option Metadata) (copy : Bool)
    (alloc : Allocations) : Same s (defaultRequest s type stock copy alloc) ∧
      (defaultRequest s type stock copy alloc).request = .idle := by
  have hd : Same s (s.record [.stockDefaults type]) := (Same.refl s).record _ (by simp [Event.plain])
  unfold defaultRequest
  split
  · exact ⟨same_finish s _ _, rfl⟩
  · split
    · exact ⟨same_finish s _ _, rfl⟩
    · dsimp only
      split
      · exact ⟨hd.finish _ _, rfl⟩
      · split
        · exact ⟨hd.finish _ _, rfl⟩
        · split
          · exact ⟨hd.finish _ _, rfl⟩
          · split
            · exact ⟨hd.finish _ _, rfl⟩
            · refine ⟨Same.finish ?_ _ _, rfl⟩
              exact hd.trans (.silent rfl rfl rfl rfl rfl rfl rfl rfl rfl)

theorem same_closeVendor (s : State) : Same s (closeVendor s) := by
  unfold closeVendor
  split
  · exact Same.refl s
  · exact ⟨rfl, rfl, rfl, rfl, rfl, rfl, rfl, id, _, rfl, by simp [Event.plain]⟩

/-- `close` destroys the streams, those of failed configurations too. -/
theorem closeEnd_log (s : State) (r : Int) : ∃ es, (∀ e ∈ es, e.plain = true) ∧
    (closeEnd s r).log = s.log ++ (es ++ (destroyed s.streams.values ++ destroyed s.failedStreams ++
      [Event.returned .close (if s.vendor.isSome then r else 0)])) := by
  have hv := same_closeVendor s
  obtain ⟨es, hes, hplain⟩ := hv.log
  refine ⟨es, hplain, ?_⟩
  rw [← List.append_assoc, ← hes, ← hv.streams, ← hv.failedStreams]
  rfl

theorem same_reopenVendor (s : State) (o : Reopen) : Same s (reopenVendor s o).2 := by
  have hc := same_closeVendor s
  have ho : Same s ({ closeVendor s with
      vendor := some (closeVendor s).devices, devices := (closeVendor s).devices + 1 }.record
        [.stockOpen (closeVendor s).devices]) :=
    hc.trans ⟨rfl, rfl, rfl, rfl, rfl, rfl, rfl, id, _, rfl, by simp [Event.plain]⟩
  unfold reopenVendor
  split
  · exact Same.refl s
  · dsimp only
    split
    · exact hc
    · split
      · exact hc
      · split
        · exact ho.trans (same_closeVendor _)
        · have hi := ho.record [.stockInitialize (closeVendor s).devices o.initializeResult]
            (by simp [Event.plain])
          split
          · exact hi.trans (same_closeVendor _)
          · exact hi

/-- `capture` fails at once, or it has checked its buffers. -/
theorem captureBegin_cases (s : State) (request : Option CaptureRequest) :
    (∃ r, captureBegin s request = s.finish .capture r ∧ r ≠ 0) ∨
    ∃ c new, captureBegin s request = { s with request := if new then .draining c else .building c } ∧
      s.fatal = false ∧ checkBuffers s [] c.buffers = some (c.streams, new) := by
  unfold captureBegin
  split
  · exact .inl ⟨_, rfl, by decide⟩
  · rename_i r buffers _
    split
    · exact .inl ⟨_, rfl, by decide⟩
    · split
      · exact .inl ⟨_, rfl, by decide⟩
      · rename_i hlive
        split
        · exact .inl ⟨_, rfl, by decide⟩
        · split
          · exact .inl ⟨_, rfl, by decide⟩
          · rename_i streams new hc
            simp only [Bool.or_eq_true, not_or, Bool.not_eq_true] at hlive
            exact .inr ⟨⟨r, buffers, streams⟩, new, rfl, hlive.1.1, hc⟩

/-- What `drain` returns. -/
theorem drain_spec {s : State} {timeout : Bool} {r : Int} (h : drain s timeout = some r) :
    (r = 0 → s.frames = [] ∧ s.fatal = false) := by
  rintro rfl
  unfold drain at h
  dsimp only at h
  split at h
  · split at h
    · cases h
    · exact absurd (Option.some.inj h) (by decide)
  · split at h
    · rename_i hready
      split at h
      · exact absurd (Option.some.inj h) (by decide)
      · rename_i hfatal
        simp only [Bool.or_eq_true, decide_eq_true_eq] at hready
        rcases hready with hf | hf
        · exact ⟨hf, by simpa using hfatal⟩
        · exact absurd hf hfatal
    · cases h

/-- Results do not touch the streams. -/
theorem same_stockResult (s : State) (r : StockResult) (alloc : Allocations) :
    Same s (stockResult s r alloc) := by
  cases hg : s.frames.get r.frame with
  | none =>
    rw [stockResult_unknown alloc hg]
    refine ⟨rfl, rfl, rfl, rfl, rfl, rfl, rfl, id, _, rfl, ?_⟩
    intro e he
    rcases List.mem_cons.mp he with rfl | he
    · rfl
    · obtain ⟨f, -, rfl⟩ := List.mem_map.mp he
      rfl
  | some f =>
    rw [stockResult_known alloc hg]
    refine ⟨rfl, rfl, rfl, rfl, rfl, rfl, rfl, fun hf => by simp [hf], _, rfl, ?_⟩
    intro e he
    rcases List.mem_cons.mp he with rfl | he
    · rfl
    · obtain ⟨f, -, rfl⟩ := List.mem_map.mp he
      rfl

theorem nil_of_keys {m m' : FrameMap} (h : m'.keys ⊆ m.keys) (hm : m = []) : m' = [] := by
  subst hm
  cases m' with
  | nil => rfl
  | cons e es => exact absurd (h List.mem_cons_self) List.not_mem_nil

/-- No step of the callback thread changes the streams. -/
theorem callbackStep_turn {s t : State} {a : Action} (h : CallbackStep s a t) : Turn s a t := by
  cases h with
  | result r alloc hc hg =>
    refine .aside _ _ (same_stockResult s r alloc) (stockResult_request s r alloc) (nil_of_keys ?_)
    rw [stockResult_keys]
    exact List.Subset.refl _
  | notify m hc hg =>
    refine .aside _ _ ?_ rfl (nil_of_keys ?_)
    · exact ⟨rfl, rfl, rfl, rfl, rfl, rfl, rfl, fun hf => by simp [stockNotify, hf], [],
        (List.append_nil _).symm, by simp⟩
    · rw [stockNotify_keys]
      exact List.Subset.refl _
  | deliver frame owner c calls hc =>
    refine .aside _ _ ?_ rfl id
    exact ⟨rfl, rfl, rfl, rfl, rfl, rfl, rfl, id, _, rfl, by simp [Event.plain]⟩
  | retire frame owner hc =>
    refine .aside _ _ (.silent rfl rfl rfl rfl rfl rfl rfl rfl rfl) rfl (nil_of_keys ?_)
    rcases retire_frames s frame with ⟨hf, -⟩ | ⟨n, f, -, -, -, hf⟩
    · rw [hf]
      exact List.Subset.refl _
    · rw [hf]
      exact (Assoc.keys_erase_sublist _ _).subset

/-- Where the new streams take the place of the old ones, or the call fails. -/
theorem configureStreams_turn (s : State) (next : StreamMap) (answer : Nat → StreamInfo) (r : Int)
    (hq : s.request = .configuring next) :
    Turn s (.configureStreams answer r) (configureStreams s next answer r) := by
  by_cases hr : r = 0
  · subst hr
    exact .configured answer next hq
  · have hfail : configureStreams s next answer r = failConfigure (s.record
        [.stockConfigure ((adopt next answer).map fun (e : Nat × Stream) => e.2.id) r])
        (adopt next answer) r := by
      simp [configureStreams, hr]
    have hk : Kept next (adopt next answer).values := by
      refine ⟨?_, ?_, ?_⟩ <;> simp [adopt, Assoc.values]
    have hs : Same s (s.record
        [.stockConfigure ((adopt next answer).map fun (e : Nat × Stream) => e.2.id) r]) :=
      (Same.refl s).record _ (by simp [Event.plain])
    have hn : s.request.configuring? = some next := by rw [hq]; rfl
    rw [hfail]
    exact .failed _ next _ _ _ r hn hs hk hr rfl

/-- A restart that fails ends the call; otherwise the call goes on to the configuration. -/
theorem restart_turn (s : State) (next : StreamMap) (o : Reopen) (hq : s.request = .restarting next) :
    Turn s (.restart o) (restart s next o) := by
  have hs := same_reopenVendor s o
  have hn : s.request.configuring? = some next := by rw [hq]; rfl
  unfold restart
  dsimp only
  split
  · rename_i hr
    exact .failed _ next _ _ _ _ hn hs ⟨by simp [Assoc.values], by simp [Assoc.values],
      by simp [Assoc.values]⟩ hr rfl
  · refine .restarted o next _ hq ?_ rfl (calm_reopenVendor s o).frames
    exact hs.trans (.silent rfl rfl rfl rfl rfl rfl rfl rfl rfl)

/-- The steps of the request thread, by cases. -/
theorem requestStep_turn {s t : State} {a : Action} (h : RequestStep s a t) : Turn s a t := by
  cases h with
  | initializeDevice valid hq =>
    have hn : s.request.configuring? = none := by rw [hq]; rfl
    unfold initializeDevice
    split
    · exact .rest _ _ (same_finish s _ _) hn rfl
    · split
      · exact .rest _ _ (same_finish s _ _) hn rfl
      · exact .rest _ _ (.silent rfl rfl rfl rfl rfl rfl rfl rfl rfl) hn rfl
  | initializeEnd result hq hv =>
    exact .rest _ _ (same_initializeEnd s result) (by rw [hq]; rfl) rfl
  | configure config alloc hq =>
    rcases configureBegin_cases s config alloc with ⟨r, hr, -⟩ | ⟨ptrs, next, heq, -, -, hf, hne, hb⟩
    · rw [hr]
      exact .rest _ _ (same_finish s _ _) (by rw [hq]; rfl) rfl
    · rw [heq]
      exact .configure config alloc ptrs next hq hf hne hb
  | restart next o hq => exact restart_turn s next o hq
  | configureStreams next answer result hq hv => exact configureStreams_turn s next answer result hq
  | defaultRequest type stock copy alloc hq =>
    obtain ⟨hs, hr⟩ := same_defaultRequest s type stock copy alloc
    exact .rest _ _ hs (by rw [hq]; rfl) (by rw [hr]; rfl)
  | capture request hq =>
    rcases captureBegin_cases s request with ⟨r, hr, -⟩ | ⟨c, new, heq, hfatal, hc⟩
    · rw [hr]
      exact .rest _ _ (same_finish s _ _) (by rw [hq]; rfl) rfl
    · rw [heq]
      exact .capture request c new hq hfatal hc
  | captureDrain c timeout r hq hr =>
    unfold captureDrained
    split
    · exact .rest _ _ (same_finish s _ _) (by rw [hq]; rfl) rfl
    · rename_i hzero
      exact .drained timeout c hq (drain_spec hr (not_not.mp hzero)).1
  | registerBuffer c i gralloc alloc stock hq hv =>
    exact .registering _ _ _ _ _ _ hq (registerBuffer_cases s c i gralloc alloc stock)
  | build c clone alloc hq hv =>
    rcases buildFrame_cases s c clone alloc with ⟨af, ae, last, r, hb⟩ | hb
    · rw [hb]
      refine .rest _ _ (Same.finish ?_ _ _) (by rw [hq]; rfl) rfl
      exact .silent rfl rfl rfl rfl rfl rfl rfl rfl rfl
    · exact .submit clone alloc c _ hq hb
  | answer frame serial result hq =>
    refine .rest _ _ (Same.finish (Same.record ?_ _ ?_) _ _) (by rw [hq]; rfl) rfl
    · exact .silent rfl rfl rfl rfl rfl rfl rfl rfl rfl
    · simp [Event.plain]
  | flush hq => exact .rest _ _ (.silent rfl rfl rfl rfl rfl rfl rfl rfl rfl) (by rw [hq]; rfl) rfl
  | flushDrain timeout r hq hr => exact .rest _ _ (same_finish s _ r) (by rw [hq]; rfl) rfl
  | close hq => exact .rest _ _ (.silent rfl rfl rfl rfl rfl rfl rfl rfl rfl) (by rw [hq]; rfl) rfl
  | closeEnd result hq => exact .closeEnd result hq

theorem writeStream_turn {s t : State} {p : Nat} {info : StreamInfo}
    (h : writeStream s p info = some t) : Turn s (.writeStream p info) t := by
  unfold writeStream at h
  split at h
  · cases h
  · cases h
  · rename_i h1 h2
    cases h
    refine .write p info ?_
    cases hq : s.request <;> simp_all [Request.configuring?]

theorem step_turn {s t : State} {a : Action} (h : step s a = some t) : Turn s a t := by
  cases step_cases h with
  | request hstep => exact requestStep_turn hstep
  | callback hstep => exact callbackStep_turn hstep
  | write hwrite => exact writeStream_turn hwrite

theorem step_configure {s t : State} {config : Option Config} {alloc : Nat → Bool}
    (h : step s (.configure config alloc) = some t) :
    s.request = .idle ∧ t = configureBegin s config alloc := by
  cases requestStep_cases h with
  | configure _ _ hq => exact ⟨hq, rfl⟩

theorem step_capture {s t : State} {request : Option CaptureRequest}
    (h : step s (.capture request) = some t) : s.request = .idle ∧ t = captureBegin s request := by
  cases requestStep_cases h with
  | capture _ hq => exact ⟨hq, rfl⟩

end Turns

end Camera3
