import Mocha.CameraConfigure

/-!
# When the stock device is restarted

The stock device must be restarted when the sizes that decide the sensor mode
change. `configure` does not store the sizes of the last configuration. It reads
them again from the client's stream objects, in which it has stored the stock
formats and usages, and which the client may have written since.
-/
namespace Camera3

/-- The sizes that a client asks for: those of its processed streams, without the encoder's. -/
def requestedGeometry (clients : Nat → StreamInfo) (ptrs : List (Option Nat)) : Finset (Nat × Nat) :=
  (((ptrs.filterMap fun p => p.map clients).filter decidesMode).map fun i => (i.width, i.height)).toFinset

/-- The geometry computed from the map is the one of the streams requested. -/
theorem processedGeometry_eq (clients : Nat → StreamInfo) {m : StreamMap} (h : ∀ e ∈ m, e.2.client = e.1) :
    processedGeometry clients m = requestedGeometry clients (m.keys.map some) := by
  have hmap : m.map (fun e => clients e.2.client) = (m.keys.map some).filterMap fun p => p.map clients := by
    simp only [Assoc.keys, List.map_map, List.filterMap_map]
    rw [← List.filterMap_eq_map]
    apply List.filterMap_congr
    intro e he
    simp [h e he]
  rw [processedGeometry, requestedGeometry, hmap]

/-- Registration of buffers does not change any size. -/
theorem processedGeometry_adjust (clients : Nat → StreamInfo) (m : StreamMap) (p : Nat)
    (buffers : List BufferReference) :
    processedGeometry clients (m.adjust p fun st => { st with buffers := buffers }) =
      processedGeometry clients m := by
  have hmap : (m.adjust p fun st => { st with buffers := buffers }).map (fun e => clients e.2.client) =
      m.map fun e => clients e.2.client := by
    simp only [Assoc.adjust, List.map_map]
    apply List.map_congr_left
    intro e _
    by_cases h : e.1 = p <;> simp [h]
  rw [processedGeometry, hmap]
  rfl

/-- A stream as the client asks for it, with the format and usage that the stock device wants. -/
def overridden (info answer : StreamInfo) : StreamInfo :=
  { info with format := answer.format, usage := answer.usage }

/-- The sizes when the streams are counted by the stock device's formats and usages. -/
def overriddenGeometry (clients : Nat → StreamInfo) (answer : Nat → StreamInfo) (next : StreamMap) :
    Finset (Nat × Nat) :=
  (((next.map fun e => overridden (clients e.1) (answer e.2.id)).filter decidesMode).map
    fun i => (i.width, i.height)).toFinset

/-- Streams that agree on usage and size lead to the same mode. -/
theorem sizes_congr {β : Type} {l : List β} {f g : β → StreamInfo}
    (h : ∀ e ∈ l, decidesMode (f e) = decidesMode (g e) ∧ (f e).width = (g e).width ∧
      (f e).height = (g e).height) :
    ((l.map f).filter decidesMode).map (fun i => (i.width, i.height)) =
      ((l.map g).filter decidesMode).map fun i => (i.width, i.height) := by
  induction l with
  | nil => rfl
  | cons e l ih =>
    obtain ⟨hd, hw, hh⟩ := h e List.mem_cons_self
    have hrest := ih fun x hx => h x (List.mem_cons_of_mem e hx)
    simp only [List.map_cons, List.filter_cons, hd]
    split
    · simp only [List.map_cons, hw, hh, hrest]
    · exact hrest

/-- What `configure` reads the next time. -/
theorem publishedGeometry_eq {clients : Nat → StreamInfo} {answer : Nat → StreamInfo} {next : StreamMap}
    (hnodup : next.keys.Nodup) (hclient : ∀ e ∈ next, e.2.client = e.1) :
    processedGeometry (publish clients (adopt next answer)) (adopt next answer) =
      overriddenGeometry clients answer next := by
  have hnodup' : (adopt next answer).keys.Nodup := by
    rw [adopt_keys]
    exact hnodup
  have hmap : (adopt next answer).map (fun e => publish clients (adopt next answer) e.2.client) =
      next.map fun e => { clients e.1 with
        format := (answer e.2.id).format, usage := (answer e.2.id).usage
        maxBuffers := (answer e.2.id).maxBuffers, priv := none } := by
    rw [adopt, List.map_map]
    apply List.map_congr_left
    intro e he
    have hmem : (e.1, { e.2 with legacy := answer e.2.id }) ∈ adopt next answer :=
      List.mem_map_of_mem he
    have hp := publish_of_mem hnodup' clients hmem
    simp only [Function.comp_apply, hclient e he]
    exact hp
  rw [processedGeometry, overriddenGeometry, hmap]
  congr 1
  apply sizes_congr
  intro e _
  exact ⟨rfl, rfl, rfl⟩

/-- The step leaves the sizes as requested: the stock device's own formats and usages count the same
sizes, and the client does not write other sizes into the objects of the configuration. -/
def keepsGeometry (s : State) (a : Action) : Bool :=
  match a, s.request with
  | .configureStreams answer r, .configuring next => decide (r ≠ 0) ||
      decide (overriddenGeometry s.clients answer next = processedGeometry s.clients next)
  | .writeStream p info, _ => decide (processedGeometry (Function.update s.clients p info) s.streams =
      processedGeometry s.clients s.streams)
  | _, _ => true

/-- The client's objects still show what was requested last. -/
structure Shown (s : State) : Prop where
  configured : s.streams = [] ↔ s.requested = none
  geometry : ∀ g, s.requested = some g → processedGeometry s.clients s.streams = g

theorem Shown.frame {s t : State} (h : Shown s) (hs : t.streams = s.streams) (hc : t.clients = s.clients)
    (hr : t.requested = s.requested) : Shown t := by
  constructor
  · rw [hs, hr]
    exact h.configured
  · rw [hs, hc, hr]
    exact h.geometry

/-- An accepted configuration shows the geometry that was asked for. -/
theorem shown_configured {s : State} {next : StreamMap} {answer : Nat → StreamInfo} (hheld : Held s next)
    (hk : overriddenGeometry s.clients answer next = processedGeometry s.clients next) :
    Shown (configureStreams s next answer 0) := by
  obtain ⟨first, -, hbuilt⟩ := hheld.built
  rw [configureStreams_success]
  constructor
  · have hne : adopt next answer ≠ [] := by
      simpa [adopt] using hheld.nonempty
    simp [hne]
  · intro g hg
    cases hg
    dsimp only
    rw [publishedGeometry_eq hbuilt.nodup fun e he => (hbuilt.fresh e he).1, hk, hheld.geometry]

theorem shown_registering {s t : State} {c : Capturing} {i : Nat} (h : Shown s)
    (hreg : Registering s c i t) : Shown t := by
  have hadjust : ∀ p buffers, Shown { s with
      streams := s.streams.adjust p fun st => { st with buffers := buffers } } := by
    intro p buffers
    constructor
    · simp only [Assoc.adjust, List.map_eq_nil_iff]
      exact h.configured
    · intro g hg
      dsimp only
      rw [processedGeometry_adjust]
      exact h.geometry g hg
  cases hreg with
  | finished => exact h.frame rfl rfl rfl
  | known => exact h.frame rfl rfl rfl
  | refused => exact h.frame rfl rfl rfl
  | unstored => exact h.frame rfl rfl rfl
  | rejected => exact (hadjust _ _).frame rfl rfl rfl
  | accepted => exact (hadjust _ _).frame rfl rfl rfl

/-- The step lemma, for steps that keep the geometry. -/
theorem Turn.shown {s t : State} {a : Action} (ht : Turn s a t) (hh : Holding s)
    (hk : keepsGeometry s a = true) (ha : ∀ r, a ≠ .closeEnd r) (h : Shown s) : Shown t := by
  cases ht with
  | aside a t hs hr hf => exact h.frame hs.streams hs.clients hs.requested
  | rest a t hs hq hr => exact h.frame hs.streams hs.clients hs.requested
  | write p info hq =>
    have hsame := of_decide_eq_true hk
    constructor
    · exact h.configured
    · intro g hg
      exact hsame.trans (h.geometry g hg)
  | configure config alloc ptrs next hq hf hne hb => exact h.frame rfl rfl rfl
  | restarted o next t hq hs hr hf => exact h.frame hs.streams hs.clients hs.requested
  | failed a next u t new r hq hs hkept hne heq =>
    subst heq
    exact h.frame hs.streams hs.clients hs.requested
  | configured answer next hq =>
    have hheld := hh next (by rw [hq]; rfl)
    have hsame : overriddenGeometry s.clients answer next = processedGeometry s.clients next := by
      simpa [keepsGeometry, hq] using hk
    exact shown_configured hheld hsame
  | capture request c new hq hfatal hc => exact h.frame rfl rfl rfl
  | drained timeout c hq hf => exact h.frame rfl rfl rfl
  | registering gralloc alloc stock c i t hq hreg => exact shown_registering h hreg
  | submit clone alloc c t hq hsub =>
    obtain ⟨af, ae, last, settings, rfl⟩ := hsub
    exact h.frame rfl rfl rfl
  | closeEnd r hq => exact absurd rfl (ha r)

theorem step_closeEnd {s t : State} {r : Int} (h : step s (.closeEnd r) = some t) :
    t.request = .closed := by
  cases hq : s.request <;> simp_all [step, requestStep]
  rw [← h]
  rfl

theorem initial_shown {s : State} (h : Initial s) : Shown s := by
  constructor
  · rw [h.streams, h.requested]
    simp
  · intro g hg
    rw [h.requested] at hg
    cases hg

theorem run_shown {s₀ s : State} (h₀ : Initial s₀) {as : List Action}
    (hk : Transition.Along step (fun s a _ => keepsGeometry s a = true) s₀ as) (hs : Transition.run step s₀ as = some s)
    (hopen : s.request ≠ .closed) : Shown s := by
  have hboth : Reachable s ∧ (s.request ≠ .closed → Shown s) := by
    apply hk.invariant (fun s => Reachable s ∧ (s.request ≠ .closed → Shown s)) ?_ ?_ hs
    · rintro s a t ⟨hreach, hshown⟩ ht hkeep
      refine ⟨hreach.next ht, fun hne => ?_⟩
      have hopen' : s.request ≠ .closed := fun hq => hne (step_closed ht hq)
      have hend : ∀ r, a ≠ .closeEnd r := by
        rintro r rfl
        exact hne (step_closeEnd ht)
      exact (step_turn ht).shown hreach.holding hkeep hend (hshown hopen')
    · exact ⟨.start h₀, fun _ => initial_shown h₀⟩
  exact hboth.2 hopen

/-- In a run in which the objects keep showing the requested sizes, `configure` restarts the stock
device if and only if there was a configuration before and the requested sizes have changed. -/
theorem restart_iff_geometry_changes (s₀ : State) (h₀ : Initial s₀) (as : List Action)
    (hk : Transition.Along step (fun s a _ => keepsGeometry s a = true) s₀ as) (s : State)
    (hs : Transition.run step s₀ as = some s) (config : Option Config) (alloc : Nat → Bool) (t : State)
    (ht : step s (.configure config alloc) = some t) (hgo : t.request.configuring?.isSome = true)
    (ptrs : List (Option Nat)) (hp : pointers config = some ptrs) :
    (∃ next, t.request = .restarting next) ↔
      ∃ g, s.requested = some g ∧ g ≠ requestedGeometry s.clients ptrs := by
  obtain ⟨hq, rfl⟩ := step_configure ht
  have hshown := run_shown h₀ hk hs (by rw [hq]; simp)
  rcases configureBegin_cases s config alloc with ⟨r, heq, -⟩ | ⟨ptrs', next, heq, hp', -, -, -, hb⟩
  · rw [heq] at hgo
    cases hgo
  · obtain rfl : ptrs' = ptrs := Option.some.inj (hp'.symm.trans hp)
    have hnew : processedGeometry s.clients next = requestedGeometry s.clients ptrs' := by
      rw [processedGeometry_eq s.clients fun e he => (hb.fresh e he).1, hb.keys]
    rw [heq, ← hnew]
    unfold contacting
    dsimp only
    cases hreq : s.requested with
    | none =>
      have hempty := hshown.configured.mpr hreq
      simp [hempty]
    | some g =>
      have hne : s.streams ≠ [] := by
        intro hempty
        rw [hshown.configured.mp hempty] at hreq
        cases hreq
      have hold := hshown.geometry g hreq
      by_cases hg : g = processedGeometry s.clients next
      · simp [hold, hg]
      · simp [hne, hold, hg]

/-- Preview and recorder together; the stock device answers with its own format and usage. -/
def recordingStart (encoderUsage : BitVec 32) : List Action :=
  [.initializeDevice true, .initializeEnd 0,
    .configure (some ⟨some [some 1, some 2], true⟩) fun _ => true,
    .configureStreams (fun id =>
      if id = 0 then ⟨streamOutput, 1920, 1080, formatYv12, 0x20000#32, 4, none⟩
      else ⟨streamOutput, 3840, 2160, formatYv12, encoderUsage, 4, none⟩) 0]

/-- The recorder's stream is removed. -/
def previewOnly : Option Config := some ⟨some [some 1], true⟩

theorem encoder_removed_without_restart : ∃ s t,
    Transition.run step (opened recorderClients []) (recordingStart 0x30000#32) = some s ∧
    step s (.configure previewOnly fun _ => true) = some t ∧
    s.requested = some (requestedGeometry s.clients [some 1]) ∧ ¬∃ next, t.request = .restarting next := by
  have hrun : ((Transition.run step (opened recorderClients []) (recordingStart 0x30000#32)).bind fun s =>
      (step s (.configure previewOnly fun _ => true)).map fun t =>
        (t.request.configuring?.isSome,
          decide (s.requested = some (requestedGeometry s.clients [some 1])))) =
      some (true, true) := by decide +kernel
  have hk : Transition.Along step (fun s a _ => keepsGeometry s a = true) (opened recorderClients [])
      (recordingStart 0x30000#32) := by decide +kernel
  obtain ⟨s, hs, hrun⟩ := Option.bind_eq_some_iff.mp hrun
  obtain ⟨t, ht, hfacts⟩ := Option.map_eq_some_iff.mp hrun
  simp only [Prod.mk.injEq, decide_eq_true_eq] at hfacts
  obtain ⟨hgo, hreq⟩ := hfacts
  have hiff := restart_iff_geometry_changes _ (opened_initial _ _) _ hk s hs previewOnly _ t ht hgo _ rfl
  refine ⟨s, t, hs, ht, hreq, ?_⟩
  intro hnext
  obtain ⟨g, hg, hne⟩ := hiff.mp hnext
  rw [hreq] at hg
  cases hg
  exact hne rfl

/-- The stock device answers with a usage that has lost the encoder's bit, and the removal of the
recorder's stream restarts it although the requested sizes are the same. -/
theorem encoder_removed_restarts : ∃ s t next,
    Transition.run step (opened recorderClients []) (recordingStart 0x20000#32) = some s ∧ Reachable s ∧
    step s (.configure previewOnly fun _ => true) = some t ∧ t.request = .restarting next ∧
    s.requested = some (requestedGeometry s.clients [some 1]) := by
  have hrun : ((Transition.run step (opened recorderClients []) (recordingStart 0x20000#32)).bind fun s =>
      (step s (.configure previewOnly fun _ => true)).map fun t =>
        (match t.request with | .restarting _ => true | _ => false,
          decide (s.requested = some (requestedGeometry s.clients [some 1])))) =
      some (true, true) := by decide +kernel
  obtain ⟨s, hs, hrun⟩ := Option.bind_eq_some_iff.mp hrun
  obtain ⟨t, ht, hfacts⟩ := Option.map_eq_some_iff.mp hrun
  simp only [Prod.mk.injEq, decide_eq_true_eq] at hfacts
  obtain ⟨hrestart, hreq⟩ := hfacts
  have hreach : Reachable s := (Transition.Reachable.start (opened_initial _ _)).run hs
  cases hq : t.request with
  | restarting next => exact ⟨s, t, next, hs, hreach, ht, hq, hreq⟩
  | _ =>
    rw [hq] at hrestart
    cases hrestart

end Camera3
