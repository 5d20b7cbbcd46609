import Mocha.CameraStreams

/-!
# Configuration of the streams

`configure` is all or fatal. Before the stock device is contacted a failure is
not seen by anyone; after it, the old streams stay, the new ones are kept for the
stock device, and the adapter refuses every later request.
-/
namespace Camera3

/-- While `configure` waits for the stock device, nothing it started from has changed. -/
structure Held (s : State) (next : StreamMap) : Prop where
  streams : s.streams = s.entry.streams
  failedStreams : s.failedStreams = s.entry.failedStreams
  clients : s.clients = s.entry.clients
  frames : s.frames = []
  nonempty : next ≠ []
  built : ∃ first, first + next.length = s.nextStream ∧ Built s.clients first s.entry.config next
  geometry : s.entry.geometry = processedGeometry s.clients next

def Holding (s : State) : Prop := ∀ next, s.request.configuring? = some next → Held s next

/-- What a configuration in progress holds is kept by steps that keep the streams. -/
theorem Held.same {s t : State} {next : StreamMap} (h : Held s next) (hs : Same s t)
    (hf : t.frames = []) : Held t next := by
  refine ⟨?_, ?_, ?_, hf, h.nonempty, ?_, ?_⟩
  · rw [hs.streams, hs.entry]
    exact h.streams
  · rw [hs.failedStreams, hs.entry]
    exact h.failedStreams
  · rw [hs.clients, hs.entry]
    exact h.clients
  · rw [hs.nextStream, hs.clients, hs.entry]
    exact h.built
  · rw [hs.entry, hs.clients]
    exact h.geometry

theorem holding_of_none {s : State} (h : s.request.configuring? = none) : Holding s := by
  intro next hn
  rw [h] at hn
  cases hn

theorem contacting_configuring (s : State) (ptrs : List (Option Nat)) (next : StreamMap) :
    (contacting s ptrs next).request.configuring? = some next := by
  unfold contacting
  dsimp only
  split <;> rfl

theorem registering_request {s t : State} {c : Capturing} {i : Nat} (h : Registering s c i t) :
    t.request.configuring? = none := by
  cases h <;> rfl

theorem Turn.holding {s t : State} {a : Action} (ht : Turn s a t) (h : Holding s) : Holding t := by
  cases ht with
  | aside a t hs hr hf =>
    intro next hn
    rw [hr] at hn
    have hheld := h next hn
    exact hheld.same hs (hf hheld.frames)
  | rest a t hs hq hr => exact holding_of_none (Request.resting_spec hr).1
  | write p info hq => exact holding_of_none hq
  | configure config alloc ptrs next hq hf hne hb =>
    intro next' hn
    rw [contacting_configuring] at hn
    cases hn
    refine ⟨rfl, rfl, rfl, hf, ?_, ⟨s.nextStream, rfl, hb⟩, rfl⟩
    rintro rfl
    exact hne hb.keys.symm
  | restarted o next t hq hs hr hf =>
    intro next' hn
    rw [hr] at hn
    cases hn
    have hheld := h next (by rw [hq]; rfl)
    exact hheld.same hs (hf.trans hheld.frames)
  | failed a next u t new r hq hs hk hr heq =>
    subst heq
    exact holding_of_none rfl
  | configured answer next hq =>
    apply holding_of_none
    simp [configureStreams, State.finish, Request.configuring?]
  | capture request c new hq hfatal hc =>
    apply holding_of_none
    dsimp only
    split <;> rfl
  | drained timeout c hq hf => exact holding_of_none rfl
  | registering gralloc alloc stock c i t hq hreg => exact holding_of_none (registering_request hreg)
  | submit clone alloc c t hq hsub =>
    obtain ⟨af, ae, last, settings, rfl⟩ := hsub
    exact holding_of_none rfl
  | closeEnd r hq => exact holding_of_none rfl

theorem Reachable.holding {s : State} (h : Reachable s) : Holding s := by
  apply h.invariant Holding
  · intro s hi
    apply holding_of_none
    rw [hi.request]
    rfl
  · intro s a t _ hs ht
    exact (step_turn ht).holding hs

/-- The call returns an error and leaves everything as it was. -/
def Refused (s t : State) (api : Api) : Prop :=
  ∃ r, r ≠ 0 ∧ t = { s with log := s.log ++ [.returned api r] }

theorem refused_finish {s : State} (hq : s.request = .idle) (api : Api) {r : Int} (hr : r ≠ 0) :
    Refused s (s.finish api r) api := by
  refine ⟨r, hr, ?_⟩
  rw [State.finish, ← hq]

/-- What `configure` leaves behind when it returns after it has contacted the stock device: `s` is
the state in which it was called, with the pointers `ptrs`. -/
structure Concluded (s : State) (ptrs : List (Option Nat)) (next : StreamMap) (a : Action) (t : State)
    (r : Int) : Prop where
  failure : r ≠ 0 → t.streams = s.streams ∧ t.clients = s.clients ∧ t.fatal = true ∧
    ∃ new, t.failedStreams = s.failedStreams ++ new ∧ Kept next new
  success : r = 0 → t.streams.keys.map some = ptrs ∧ t.lastSettings = [] ∧
    ∃ answer, a = .configureStreams answer 0 ∧ ∀ e ∈ t.streams, t.clients e.1 =
      { s.clients e.1 with
        format := (answer e.2.id).format, usage := (answer e.2.id).usage
        maxBuffers := (answer e.2.id).maxBuffers, priv := none }

/-- The answer of the stock device fills in streams; it adds none. -/
theorem adopt_keys (next : StreamMap) (answer : Nat → StreamInfo) :
    (adopt next answer).keys = next.keys := by
  simp [adopt, Assoc.keys]

/-- Every stream of the new set gets its data written back. -/
theorem publish_of_mem {next : StreamMap} (hn : next.keys.Nodup) (clients : Nat → StreamInfo)
    {e : Nat × Stream} (he : e ∈ next) : publish clients next e.1 =
      { clients e.1 with
        format := e.2.legacy.format, usage := e.2.legacy.usage
        maxBuffers := e.2.legacy.maxBuffers, priv := none } := by
  have hg : next.get e.1 = some e.2 := Assoc.get_of_mem hn he
  simp [publish, hg]

/-- The successful end of `configure`. -/
theorem configureStreams_success (s : State) (next : StreamMap) (answer : Nat → StreamInfo) :
    configureStreams s next answer 0 =
      { s with
        clients := publish s.clients (adopt next answer), streams := adopt next answer
        lastSettings := [], requested := some s.entry.geometry, request := .idle
        log := s.log ++ (.stockConfigure (next.map fun (e : Nat × Stream) => e.2.id) 0 ::
          destroyed s.streams.values) ++ [.returned .configure 0] } := by
  have hids : (adopt next answer).map (fun (e : Nat × Stream) => e.2.id) =
      next.map fun (e : Nat × Stream) => e.2.id := by simp [adopt]
  simp [configureStreams, State.record, State.finish, hids]

/-- The step with which `configure` returns. -/
theorem Turn.concludes {s t : State} {a : Action} (ht : Turn s a t) {next : StreamMap}
    (hn : s.request.configuring? = some next) (hheld : Held s next)
    (hr : t.request.configuring? = none) : ∃ es r,
      t.log = s.log ++ es ++ [.returned .configure r] ∧ Concluded s s.entry.config next a t r := by
  cases ht with
  | aside a t hs hreq hf =>
    rw [hreq, hn] at hr
    cases hr
  | rest a t hs hq hreq =>
    rw [hn] at hq
    cases hq
  | write p info hq =>
    rw [hn] at hq
    cases hq
  | configure config alloc ptrs next hq hf hne hb =>
    rw [contacting_configuring] at hr
    cases hr
  | restarted o next t hq hs hreq hf =>
    rw [hreq] at hr
    cases hr
  | failed a next' u t new r hq hs hk hne heq =>
    rw [hn] at hq
    cases hq
    subst heq
    obtain ⟨es, hes, -⟩ := hs.log
    refine ⟨es, r, by simp [State.finish, hes], ?_, fun hzero => absurd hzero hne⟩
    intro _
    exact ⟨hs.streams, hs.clients, rfl, new, by simp [State.finish, hs.failedStreams], hk⟩
  | configured answer next' hq =>
    rw [hq] at hn
    cases hn
    rw [configureStreams_success]
    obtain ⟨first, -, hbuilt⟩ := hheld.built
    have hnodup : (adopt next answer).keys.Nodup := by
      rw [adopt_keys]
      exact hbuilt.nodup
    refine ⟨_, 0, rfl, fun hzero => absurd rfl hzero, ?_⟩
    intro _
    refine ⟨?_, rfl, answer, rfl, ?_⟩
    · dsimp only
      rw [adopt_keys]
      exact hbuilt.keys
    · intro e he
      have hlegacy : e.2.legacy = answer e.2.id := by
        obtain ⟨d, -, rfl⟩ := List.mem_map.mp he
        rfl
      have hp := publish_of_mem hnodup s.clients he
      rw [hlegacy] at hp
      exact hp
  | capture request c new hq hfatal hc =>
    rw [hq] at hn
    cases hn
  | drained timeout c hq hf =>
    rw [hq] at hn
    cases hn
  | registering gralloc alloc stock c i t hq hreg =>
    rw [hq] at hn
    cases hn
  | submit clone alloc c t hq hsub =>
    rw [hq] at hn
    cases hn
  | closeEnd r hq =>
    rw [hq] at hn
    cases hn

/-- Until the next call of `configure`, what it found is remembered. -/
theorem Turn.entry {s t : State} {a : Action} (ht : Turn s a t)
    (ha : ∀ config alloc, a ≠ .configure config alloc) :
    t.entry = s.entry ∧ (s.request.configuring? = none → t.request.configuring? = none) := by
  cases ht with
  | aside a t hs hr hf => exact ⟨hs.entry, fun h => by rw [hr]; exact h⟩
  | rest a t hs hq hr => exact ⟨hs.entry, fun _ => (Request.resting_spec hr).1⟩
  | write p info hq => exact ⟨rfl, id⟩
  | configure config alloc => exact absurd rfl (ha config alloc)
  | restarted o next t hq hs hr hf =>
    refine ⟨hs.entry, fun h => ?_⟩
    rw [hq] at h
    cases h
  | failed a next u t new r hq hs hk hne heq =>
    subst heq
    exact ⟨hs.entry, fun _ => rfl⟩
  | configured answer next hq =>
    rw [configureStreams_success]
    exact ⟨rfl, fun _ => rfl⟩
  | capture request c new hq hfatal hc =>
    refine ⟨rfl, fun _ => ?_⟩
    dsimp only
    split <;> rfl
  | drained timeout c hq hf => exact ⟨rfl, fun _ => rfl⟩
  | registering gralloc alloc stock c i t hq hreg =>
    refine ⟨?_, fun _ => registering_request hreg⟩
    cases hreg <;> rfl
  | submit clone alloc c t hq hsub =>
    obtain ⟨af, ae, last, settings, rfl⟩ := hsub
    exact ⟨rfl, fun _ => rfl⟩
  | closeEnd r hq => exact ⟨(same_closeVendor s).entry, fun _ => rfl⟩

theorem run_entry {s t : State} {as : List Action} (h : Transition.run step s as = some t)
    (ha : ∀ config alloc, Action.configure config alloc ∉ as) :
    t.entry = s.entry ∧ (s.request.configuring? = none → t.request.configuring? = none) := by
  induction as generalizing s with
  | nil =>
    cases h
    exact ⟨rfl, id⟩
  | cons a as ih =>
    obtain ⟨u, hu, hrest⟩ := Option.bind_eq_some_iff.mp h
    have hhead : ∀ config alloc, a ≠ .configure config alloc := by
      rintro config alloc rfl
      exact ha config alloc List.mem_cons_self
    obtain ⟨he, hq⟩ := (step_turn hu).entry hhead
    obtain ⟨he', hq'⟩ := ih hrest fun config alloc hm => ha config alloc (List.mem_cons_of_mem a hm)
    exact ⟨he'.trans he, fun hs => hq' (hq hs)⟩

theorem Same.kept {s t : State} (h : Same s t) : s.failedStreams ⊆ t.failedStreams := by
  rw [h.failedStreams]
  exact List.Subset.refl _

/-- A fatal error stays, and what is kept for the stock device is kept until `close`. -/
theorem Turn.lasting {s t : State} {a : Action} (ht : Turn s a t) :
    (s.fatal = true → t.fatal = true) ∧
      ((∀ r, a ≠ .closeEnd r) → s.failedStreams ⊆ t.failedStreams) := by
  cases ht with
  | aside a t hs hr hf => exact ⟨hs.fatal, fun _ => hs.kept⟩
  | rest a t hs hq hr => exact ⟨hs.fatal, fun _ => hs.kept⟩
  | write p info hq => exact ⟨id, fun _ => List.Subset.refl _⟩
  | configure config alloc ptrs next hq hf hne hb => exact ⟨id, fun _ => List.Subset.refl _⟩
  | restarted o next t hq hs hr hf => exact ⟨hs.fatal, fun _ => hs.kept⟩
  | failed a next u t new r hq hs hk hne heq =>
    subst heq
    refine ⟨fun _ => rfl, fun _ => ?_⟩
    rw [← hs.failedStreams]
    exact List.subset_append_left _ _
  | configured answer next hq =>
    rw [configureStreams_success]
    exact ⟨id, fun _ => List.Subset.refl _⟩
  | capture request c new hq hfatal hc => exact ⟨id, fun _ => List.Subset.refl _⟩
  | drained timeout c hq hf => exact ⟨id, fun _ => List.Subset.refl _⟩
  | registering gralloc alloc stock c i t hq hreg =>
    cases hreg with
    | rejected => exact ⟨fun _ => rfl, fun _ => List.Subset.refl _⟩
    | _ => exact ⟨id, fun _ => List.Subset.refl _⟩
  | submit clone alloc c t hq hsub =>
    obtain ⟨af, ae, last, settings, rfl⟩ := hsub
    exact ⟨id, fun _ => List.Subset.refl _⟩
  | closeEnd r hq => exact ⟨(same_closeVendor s).fatal, fun hr => absurd rfl (hr r)⟩

/-- What is once fatal stays so, and failed streams are kept until the close. -/
theorem run_lasting {s t : State} {as : List Action} (h : Transition.run step s as = some t) :
    (s.fatal = true → t.fatal = true) ∧
      ((∀ r, Action.closeEnd r ∉ as) → s.failedStreams ⊆ t.failedStreams) := by
  induction as generalizing s with
  | nil =>
    cases h
    exact ⟨id, fun _ => List.Subset.refl _⟩
  | cons a as ih =>
    obtain ⟨u, hu, hrest⟩ := Option.bind_eq_some_iff.mp h
    obtain ⟨hf, hk⟩ := (step_turn hu).lasting
    obtain ⟨hf', hk'⟩ := ih hrest
    refine ⟨fun hs => hf' (hf hs), fun ha => ?_⟩
    have hhead : ∀ r, a ≠ .closeEnd r := by
      rintro r rfl
      exact ha r List.mem_cons_self
    have htail : ∀ r, Action.closeEnd r ∉ as := fun r hm => ha r (List.mem_cons_of_mem a hm)
    exact List.Subset.trans (hk hhead) (hk' htail)

/-- The pointers of a configuration that passes the first check. -/
def pointers (config : Option Config) : Option (List (Option Nat)) :=
  config.bind fun c => if c.normalMode then c.streams else none

/-- A configure is refused at once or goes on from a state that is not fatal. -/
theorem configure_call {s t : State} {config : Option Config} {alloc : Nat → Bool}
    (h : step s (.configure config alloc) = some t) : Refused s t .configure ∨
      s.fatal = false ∧ ∃ ptrs next, pointers config = some ptrs ∧ t = contacting s ptrs next := by
  obtain ⟨hq, rfl⟩ := step_configure h
  rcases configureBegin_cases s config alloc with ⟨r, heq, hr, -⟩ | ⟨ptrs, next, heq, hp, ⟨hfatal, -⟩, -⟩
  · rw [heq]
    exact .inl (refused_finish hq .configure hr)
  · exact .inr ⟨hfatal, ptrs, next, hp, heq⟩

theorem capture_fatal {s t : State} {request : Option CaptureRequest} (hs : s.fatal = true)
    (h : step s (.capture request) = some t) : Refused s t .capture := by
  obtain ⟨hq, rfl⟩ := step_capture h
  rcases captureBegin_cases s request with ⟨r, heq, hr⟩ | ⟨c, new, heq, hfatal, -⟩
  · rw [heq]
    exact refused_finish hq .capture hr
  · rw [hs] at hfatal
    cases hfatal

/-- `configure` is all or fatal. -/
theorem configure_all_or_fatal (s : State) (h : Reachable s) :
    (∀ config alloc t, step s (.configure config alloc) = some t → Refused s t .configure ∨
      s.fatal = false ∧ ∃ ptrs next, pointers config = some ptrs ∧ t = contacting s ptrs next) ∧
    (∀ config alloc u as v next a t, step s (.configure config alloc) = some u →
      Transition.run step u as = some v → (∀ config alloc, Action.configure config alloc ∉ as) →
      v.request.configuring? = some next → step v a = some t → t.request.configuring? = none →
      ∃ ptrs es r, pointers config = some ptrs ∧ t.log = v.log ++ es ++ [.returned .configure r] ∧
        Concluded s ptrs next a t r) ∧
    (s.fatal = true →
      (∀ config alloc t, step s (.configure config alloc) = some t → Refused s t .configure) ∧
      ∀ request t, step s (.capture request) = some t → Refused s t .capture) ∧
    (∀ as t, Transition.run step s as = some t → (s.fatal = true → t.fatal = true) ∧
      ((∀ r, Action.closeEnd r ∉ as) → s.failedStreams ⊆ t.failedStreams)) := by
  refine ⟨fun config alloc t => configure_call, ?_, ?_, fun as t => run_lasting⟩
  · intro config alloc u as v next a t hu hrun has hn ht hnone
    obtain ⟨hentry, hquiet⟩ := run_entry hrun has
    rcases configure_call hu with ⟨r, -, heq⟩ | ⟨-, ptrs, next₀, hp, heq⟩
    · have hidle : u.request.configuring? = none := by
        rw [heq]
        dsimp only
        rw [(step_configure hu).1]
        rfl
      rw [hquiet hidle] at hn
      cases hn
    · have hv : Reachable v := (h.next hu).run hrun
      have hheld := hv.holding next hn
      obtain ⟨es, r, hlog, hc⟩ := (step_turn ht).concludes hn hheld hnone
      have hue : u.entry = ⟨ptrs, s.streams, s.failedStreams, s.clients,
          processedGeometry s.clients next₀⟩ := by
        rw [heq]
        rfl
      have hstreams := hheld.streams
      have hfailed := hheld.failedStreams
      have hclients := hheld.clients
      have hconfig : v.entry.config = ptrs := by rw [hentry, hue]
      rw [hentry, hue] at hstreams hfailed hclients
      dsimp only at hstreams hfailed hclients
      refine ⟨ptrs, es, r, hp, hlog, ?_, ?_⟩
      · intro hr
        have hf := hc.failure hr
        rw [hstreams, hclients, hfailed] at hf
        exact hf
      · intro hr
        have hs := hc.success hr
        rw [hconfig, hclients] at hs
        exact hs
  · intro hfatal
    constructor
    · intro config alloc t ht
      rcases configure_call ht with hr | ⟨hlive, -⟩
      · exact hr
      · rw [hfatal] at hlive
        cases hlive
    · intro request t ht
      exact capture_fatal hfatal ht

/-- The recorder's stream replaces the preview, and the stock module cannot open its device again. -/
def recorderOnly : Action := .configure (some ⟨some [some 2], true⟩) fun _ => true

def cannotOpen : Action := .restart ⟨true, -enodev, none, 0⟩

theorem failed_restart_is_fatal : ∃ s u t next,
    Transition.run step (opened recorderClients []) previewStart = some s ∧
    step s recorderOnly = some u ∧ u.request.configuring? = some next ∧ step u cannotOpen = some t ∧
    t.fatal = true ∧ t.streams.keys = [1] ∧ ∃ ptrs es r, pointers (some ⟨some [some 2], true⟩) = some ptrs ∧
      t.log = u.log ++ es ++ [.returned .configure r] ∧ Concluded s ptrs next cannotOpen t r := by
  have hrun : ((Transition.run step (opened recorderClients []) previewStart).bind fun s =>
      (step s recorderOnly).bind fun u => (step u cannotOpen).map fun t =>
        (u.request.configuring?.isSome, t.request.configuring?, t.fatal, t.streams.keys)) =
      some (true, none, true, [1]) := by decide +kernel
  obtain ⟨s, hs, hrun⟩ := Option.bind_eq_some_iff.mp hrun
  obtain ⟨u, hu, hrun⟩ := Option.bind_eq_some_iff.mp hrun
  obtain ⟨t, ht, hfacts⟩ := Option.map_eq_some_iff.mp hrun
  simp only [Prod.mk.injEq] at hfacts
  obtain ⟨hsome, hnone, hfatal, hkeys⟩ := hfacts
  obtain ⟨next, hn⟩ := Option.isSome_iff_exists.mp hsome
  have hreach : Reachable s := (Transition.Reachable.start (opened_initial _ _)).run hs
  have hend := (configure_all_or_fatal s hreach).2.1 _ _ u [] u next cannotOpen t hu rfl
    (fun _ _ => List.not_mem_nil) hn ht hnone
  exact ⟨s, u, t, next, hs, hu, hn, ht, hfatal, hkeys, hend⟩

end Camera3
