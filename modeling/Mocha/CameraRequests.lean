import Mocha.CameraVendor

/-!
# The requests that the adapter hands on

`normalizeRequest` repairs four entries of a request: the two modes, the frame
rate range, and video stabilization, which the stock device must never run. The
trigger ids that `capture` adds afterwards are other entries.
-/
namespace CameraMetadata

section Normalize

/-- What an entry of a request must satisfy for some characteristics. -/
def Met (characteristics : Metadata) (t : Tag) (v : Value) : Prop :=
  if t = controlAeMode then ∀ mode, v = [mode] → mode ∈ find characteristics controlAeAvailableModes
  else if t = controlAfMode then
    ∀ mode, v = [mode] → mode ∈ find characteristics controlAfAvailableModes
  else if t = controlAeTargetFpsRange then ∃ low high, v = [low, high] ∧ 0 < low ∧ low ≤ high
  else if t = controlVideoStabilizationMode then v = [videoStabilizationModeOff]
  else True

/-- The characteristics offer what the repairs put in. -/
structure Repairable (characteristics : Metadata) : Prop where
  ae : aeModeOn ∈ find characteristics controlAeAvailableModes
  af : afModeOff ∈ find characteristics controlAfAvailableModes
  fps : ∃ low high,
    (find characteristics controlAeAvailableTargetFpsRanges).take 2 = [low, high] ∧
      0 < low ∧ low ≤ high

/-- One entry gets a value, unless it is fine. -/
structure Repaired (fine : Prop) (t : Tag) (v : Value) (m r : Metadata) : Prop where
  kept : fine → r = m
  replaced : ¬fine → lookup r t = some v
  others : ∀ u, u ≠ t → lookup r u = lookup m u

theorem Repaired.refl {fine : Prop} (h : fine) (t : Tag) (v : Value) (m : Metadata) :
    Repaired fine t v m m :=
  ⟨fun _ => rfl, fun hn => absurd h hn, fun _ _ => rfl⟩

/-- Any other is replaced. -/
theorem Repaired.update {fine : Prop} (h : ¬fine) (t : Tag) (v : Value) (m : Metadata) :
    Repaired fine t v m (update m t v) := by
  refine ⟨fun hf => absurd hf h, fun _ => ?_, fun u hu => ?_⟩
  · rw [lookup_update, if_pos rfl]
  · rw [lookup_update, if_neg hu]

/-- The mode is offered, or the entry is not a single mode. -/
def ModeFine (characteristics : Metadata) (supported : Tag) (v : Value) : Prop :=
  ∀ mode, v = [mode] → mode ∈ find characteristics supported

/-- A mode is kept when the sensor supports it, otherwise replaced. -/
theorem normalizeMode_ok {o r : Outcome} {characteristics : Metadata} {control supported : Tag}
    {replacement : Int}
    (h : normalizeMode o characteristics control supported replacement = some r)
    (hok : r.ok = true) : o.ok = true ∧
      Repaired (ModeFine characteristics supported (find o.metadata control)) control [replacement]
        o.metadata r.metadata := by
  unfold normalizeMode at h
  split at h
  · rename_i mode hmode
    obtain ⟨-, h⟩ := Option.ite_none_left_eq_some.mp h
    split at h
    · rename_i hmem
      cases h
      refine ⟨hok, .refl ?_ _ _ _⟩
      intro other hother
      rw [hmode] at hother
      cases hother
      exact List.contains_iff_mem.mp hmem
    · rename_i hnot
      cases h
      obtain ⟨ho, htry⟩ := Bool.and_eq_true_iff.mp hok
      refine ⟨ho, ?_⟩
      rw [tryUpdate_ok htry]
      refine .update ?_ _ _ _
      intro hfine
      exact hnot (List.contains_iff_mem.mpr (hfine mode hmode))
  · rename_i hother
    cases h
    refine ⟨hok, .refl ?_ _ _ _⟩
    intro mode hmode
    exact absurd hmode (hother mode)

/-- A supported mode costs no write. -/
theorem normalizeMode_fine {o : Outcome} {characteristics : Metadata} {control supported : Tag}
    (replacement : Int) (h : ModeFine characteristics supported (find o.metadata control)) :
    normalizeMode o characteristics control supported replacement = some o := by
  unfold normalizeMode
  split
  · rename_i mode hmode
    have hmem := h mode hmode
    have hne : find characteristics supported ≠ [] := List.ne_nil_of_mem hmem
    rw [if_neg hne, if_pos (List.contains_iff_mem.mpr hmem)]
  · rfl

/-- Two positive rates in order, and nothing else. -/
theorem validFpsRange_iff (v : Value) :
    validFpsRange v = true ↔ ∃ low high, v = [low, high] ∧ 0 < low ∧ low ≤ high := by
  unfold validFpsRange
  split
  · rename_i low high
    rw [Bool.and_eq_true, decide_eq_true_eq, decide_eq_true_eq]
    constructor
    · intro h
      exact ⟨low, high, rfl, h⟩
    · rintro ⟨a, b, hab, h⟩
      cases hab
      exact h
  · rename_i hother
    constructor
    · intro h
      cases h
    · rintro ⟨low, high, h, -⟩
      exact absurd h (hother low high)

/-- A bad range is replaced by one of the sensor's. -/
theorem normalizeFpsRange_ok {o r : Outcome} {characteristics : Metadata}
    (h : normalizeFpsRange o characteristics = some r) (hok : r.ok = true) : o.ok = true ∧
      Repaired (validFpsRange (find o.metadata controlAeTargetFpsRange) = true)
        controlAeTargetFpsRange ((find characteristics controlAeAvailableTargetFpsRanges).take 2)
        o.metadata r.metadata := by
  unfold normalizeFpsRange at h
  by_cases hfine : validFpsRange (find o.metadata controlAeTargetFpsRange) = true
  · rw [if_pos hfine] at h
    cases h
    exact ⟨hok, .refl hfine _ _ _⟩
  · rw [if_neg hfine] at h
    obtain ⟨-, h⟩ := Option.ite_none_left_eq_some.mp h
    cases h
    obtain ⟨ho, htry⟩ := Bool.and_eq_true_iff.mp hok
    refine ⟨ho, ?_⟩
    rw [tryUpdate_ok htry]
    exact .update hfine _ _ _

/-- Stabilization is switched off unless it is off. -/
theorem normalizeStabilization_ok {o : Outcome} (hok : (normalizeStabilization o).ok = true) :
    o.ok = true ∧
      Repaired (find o.metadata controlVideoStabilizationMode = [videoStabilizationModeOff])
        controlVideoStabilizationMode [videoStabilizationModeOff] o.metadata
        (normalizeStabilization o).metadata := by
  unfold normalizeStabilization at hok ⊢
  by_cases hfine : find o.metadata controlVideoStabilizationMode = [videoStabilizationModeOff]
  · rw [if_pos hfine] at hok ⊢
    exact ⟨hok, .refl hfine _ _ _⟩
  · rw [if_neg hfine] at hok ⊢
    obtain ⟨ho, htry⟩ := Bool.and_eq_true_iff.mp hok
    refine ⟨ho, ?_⟩
    rw [tryUpdate_ok htry]
    exact .update hfine _ _ _

theorem met_ae (characteristics : Metadata) (v : Value) : Met characteristics controlAeMode v ↔
    ModeFine characteristics controlAeAvailableModes v := by
  rw [Met, if_pos rfl, ModeFine]

theorem met_af (characteristics : Metadata) (v : Value) : Met characteristics controlAfMode v ↔
    ModeFine characteristics controlAfAvailableModes v := by
  rw [Met, if_neg (by decide), if_pos rfl, ModeFine]

theorem met_fps (characteristics : Metadata) (v : Value) :
    Met characteristics controlAeTargetFpsRange v ↔ validFpsRange v = true := by
  rw [Met, if_neg (by decide), if_neg (by decide), if_pos rfl, validFpsRange_iff]

theorem met_stabilization (characteristics : Metadata) (v : Value) :
    Met characteristics controlVideoStabilizationMode v ↔ v = [videoStabilizationModeOff] := by
  rw [Met, if_neg (by decide), if_neg (by decide), if_neg (by decide), if_pos rfl]

/-- Some entries of a request are repaired: they are fine now, and nothing that was fine, and
nothing else, has changed. -/
structure Sound (characteristics : Metadata) (done : List Tag) (request r : Metadata) : Prop where
  met : ∀ t ∈ done, Met characteristics t (find r t)
  kept : ∀ t, Met characteristics t (find request t) ∨ t ∉ done → lookup r t = lookup request t

/-- Before the first setting was looked at. -/
theorem Sound.start (characteristics request : Metadata) : Sound characteristics [] request request :=
  ⟨by simp, fun _ _ => rfl⟩

theorem find_congr {m r : Metadata} {t : Tag} (h : lookup r t = lookup m t) : find r t = find m t :=
  congrArg (fun v => v.getD []) h

theorem Sound.repaired {characteristics request m r : Metadata} {done : List Tag} {t : Tag}
    {v : Value} (h : Sound characteristics done request m) (hnew : t ∉ done)
    (hr : Repaired (Met characteristics t (find m t)) t v m r) (hv : Met characteristics t v) :
    Sound characteristics (t :: done) request r := by
  constructor
  case met =>
    intro u hu
    by_cases hut : u = t
    · subst hut
      by_cases hfine : Met characteristics u (find m u)
      · rw [hr.kept hfine]
        exact hfine
      · have hfind : find r u = v := congrArg (fun w => w.getD []) (hr.replaced hfine)
        rw [hfind]
        exact hv
    · rw [find_congr (hr.others u hut)]
      exact h.met u ((List.mem_cons.mp hu).resolve_left hut)
  case kept =>
    intro u hu
    by_cases hut : u = t
    · subst hut
      have hsame : lookup m u = lookup request u := h.kept u (.inr hnew)
      rcases hu with hmet | hnot
      · rw [← find_congr hsame] at hmet
        rw [hr.kept hmet, hsame]
      · exact absurd List.mem_cons_self hnot
    · rw [hr.others u hut]
      apply h.kept
      exact hu.imp_right fun hnot hmem => hnot (List.mem_cons_of_mem _ hmem)

/-- The four repairs, one after the other. -/
theorem normalizeRequest_repairs {a b : Allocations} {request characteristics r : Metadata}
    (h : normalizeRequest a request characteristics = some ⟨true, r, b⟩) : ∃ ae af fps,
      Repaired (Met characteristics controlAeMode (find request controlAeMode)) controlAeMode
        [aeModeOn] request ae ∧
      Repaired (Met characteristics controlAfMode (find ae controlAfMode)) controlAfMode
        [afModeOff] ae af ∧
      Repaired (Met characteristics controlAeTargetFpsRange (find af controlAeTargetFpsRange))
        controlAeTargetFpsRange
        ((find characteristics controlAeAvailableTargetFpsRanges).take 2) af fps ∧
      Repaired (Met characteristics controlVideoStabilizationMode
        (find fps controlVideoStabilizationMode)) controlVideoStabilizationMode
        [videoStabilizationModeOff] fps r := by
  obtain ⟨ae, hae, h⟩ := Option.bind_eq_some_iff.mp h
  obtain ⟨af, haf, h⟩ := Option.bind_eq_some_iff.mp h
  obtain ⟨fps, hfps, h⟩ := Option.map_eq_some_iff.mp h
  have hok : (normalizeStabilization fps).ok = true := by rw [h]
  have hr : (normalizeStabilization fps).metadata = r := by rw [h]
  obtain ⟨hfpsOk, hstabilization⟩ := normalizeStabilization_ok hok
  obtain ⟨hafOk, hrange⟩ := normalizeFpsRange_ok hfps hfpsOk
  obtain ⟨haeOk, hfocus⟩ := normalizeMode_ok haf hafOk
  obtain ⟨-, hexposure⟩ := normalizeMode_ok hae haeOk
  rw [hr] at hstabilization
  simp only [met_ae, met_af, met_fps, met_stabilization]
  exact ⟨ae.metadata, af.metadata, fps.metadata, hexposure, hfocus, hrange, hstabilization⟩

/-- The four settings in their order, each through its own repair. -/
theorem normalizeRequest_sound {a b : Allocations} {request characteristics r : Metadata}
    (hc : Repairable characteristics)
    (h : normalizeRequest a request characteristics = some ⟨true, r, b⟩) :
    (∀ t, Met characteristics t (find r t)) ∧
    ∀ t, Met characteristics t (find request t) → lookup r t = lookup request t := by
  obtain ⟨ae, af, fps, hae, haf, hfps, hstabilization⟩ := normalizeRequest_repairs h
  have hon : Met characteristics controlAeMode [aeModeOn] := by
    rw [met_ae]
    intro mode hmode
    cases hmode
    exact hc.ae
  have hoff : Met characteristics controlAfMode [afModeOff] := by
    rw [met_af]
    intro mode hmode
    cases hmode
    exact hc.af
  have hrange : Met characteristics controlAeTargetFpsRange
      ((find characteristics controlAeAvailableTargetFpsRanges).take 2) := by
    rw [met_fps, validFpsRange_iff]
    exact hc.fps
  have hstill : Met characteristics controlVideoStabilizationMode [videoStabilizationModeOff] := by
    rw [met_stabilization]
  have hsound := (((Sound.start characteristics request).repaired (by simp) hae hon).repaired
    (by decide) haf hoff).repaired (by decide) hfps hrange
  have hall := hsound.repaired (by decide) hstabilization hstill
  refine ⟨?_, fun t ht => hall.kept t (.inl ht)⟩
  intro t
  by_cases ht : t ∈ [controlVideoStabilizationMode, controlAeTargetFpsRange, controlAfMode,
      controlAeMode]
  · exact hall.met t ht
  · simp only [List.mem_cons, List.not_mem_nil, or_false, not_or] at ht
    obtain ⟨hv, hf, ha, he⟩ := ht
    rw [Met, if_neg he, if_neg ha, if_neg hf, if_neg hv]
    trivial

/-- A request all of whose entries are fine is a fixed point, and needs no memory. -/
theorem normalizeRequest_fine {request characteristics : Metadata}
    (h : ∀ t, Met characteristics t (find request t)) (a : Allocations) :
    normalizeRequest a request characteristics = some ⟨true, request, a⟩ := by
  have hae := (met_ae characteristics _).mp (h controlAeMode)
  have haf := (met_af characteristics _).mp (h controlAfMode)
  have hfps := (met_fps characteristics _).mp (h controlAeTargetFpsRange)
  have hstabilization := (met_stabilization characteristics _).mp (h controlVideoStabilizationMode)
  have hexposure := normalizeMode_fine (o := ⟨true, request, a⟩) aeModeOn hae
  have hfocus := normalizeMode_fine (o := ⟨true, request, a⟩) afModeOff haf
  have hrange : normalizeFpsRange ⟨true, request, a⟩ characteristics = some ⟨true, request, a⟩ :=
    if_pos hfps
  have hkeep : normalizeStabilization ⟨true, request, a⟩ = ⟨true, request, a⟩ :=
    if_pos hstabilization
  rw [normalizeRequest, hexposure, Option.bind_some, hfocus, Option.bind_some, hrange,
    Option.map_some, hkeep]

/-- Whatever the characteristics are, video stabilization is off. -/
theorem normalizeRequest_stabilization {a : Allocations} {request characteristics : Metadata}
    {o : Outcome} (h : normalizeRequest a request characteristics = some o) (hok : o.ok = true) :
    find o.metadata controlVideoStabilizationMode = [videoStabilizationModeOff] := by
  obtain ⟨ok, r, b⟩ := o
  cases hok
  obtain ⟨-, -, fps, -, -, -, hr⟩ := normalizeRequest_repairs h
  by_cases hfine : Met characteristics controlVideoStabilizationMode
      (find fps controlVideoStabilizationMode)
  · rw [hr.kept hfine]
    exact (met_stabilization _ _).mp hfine
  · exact congrArg (fun v => v.getD []) (hr.replaced hfine)

end Normalize

end CameraMetadata

namespace Camera3

open CameraMetadata

section Stabilization

/-- The settings that are forwarded with a request, if any. -/
def Event.settings : Event → Option Metadata
  | .stockCapture _ _ _ _ settings => settings
  | _ => none

/-- Video stabilization is the single value OFF. -/
def Still (m : Metadata) : Prop :=
  find m controlVideoStabilizationMode = [videoStabilizationModeOff]

/-- The templates and everything forwarded keep video stabilization off. -/
structure Stabilized (s : State) : Prop where
  forwarded : ∀ e ∈ s.log, ∀ m, e.settings = some m → Still m
  templates : ∀ type, s.templates type ≠ [] → Still (s.templates type)

/-- A write to another tag leaves the stabilization off. -/
theorem still_update {m : Metadata} (h : Still m) {t : Tag} (ht : t ≠ controlVideoStabilizationMode)
    (v : Value) : Still (update m t v) := by
  have hlookup : lookup (update m t v) controlVideoStabilizationMode =
      lookup m controlVideoStabilizationMode := by
    rw [lookup_update, if_neg ht.symm]
  exact (find_congr hlookup).trans h

/-- The trigger ids leave video stabilization alone. -/
theorem requestSettings_still {s u : State} {raw settings : Metadata} {clone : Bool}
    {alloc : Allocations} (h : requestSettings s raw clone alloc = (.ok settings, u)) :
    Still settings := by
  unfold requestSettings at h
  split at h
  · cases h
  · split at h
    · cases h
    · rename_i o ho
      split at h
      · cases h
      · rename_i hok
        dsimp only at h
        split at h
        · cases h
        · rename_i haf
          split at h
          · cases h
          · rename_i hae
            cases h
            have hnormal : Still o.metadata :=
              normalizeRequest_stabilization ho (by simpa using hok)
            rw [tryUpdate_ok (by simpa using hae), tryUpdate_ok (by simpa using haf)]
            exact still_update (still_update hnormal (by decide) _) (by decide) _

/-- One event is recorded, and settings that go out with it were normalised. -/
theorem buildFrame_log (s : State) (c : Capturing) (clone : Bool) (alloc : Allocations) :
    ∃ e, (buildFrame s c clone alloc).log = s.log ++ [e] ∧ ∀ m, e.settings = some m → Still m := by
  unfold buildFrame
  split
  · rename_i raw hraw
    obtain ⟨af, ae, last, hu⟩ := requestSettings_state s raw clone alloc
    split
    · rename_i e u he
      rw [he] at hu
      dsimp only at hu
      rw [hu]
      exact ⟨_, rfl, nofun⟩
    · rename_i settings u he
      have hstill := requestSettings_still he
      rw [he] at hu
      dsimp only at hu
      rw [hu]
      refine ⟨_, rfl, ?_⟩
      rw [hraw]
      intro m hm
      cases hm
      exact hstill
  · rename_i hraw
    split
    · exact ⟨_, rfl, nofun⟩
    · refine ⟨_, rfl, ?_⟩
      rw [hraw]
      exact nofun

theorem closeVendor_templates (s : State) : (closeVendor s).templates = s.templates := by
  unfold closeVendor
  split <;> rfl

theorem reopenVendor_templates (s : State) (o : Reopen) :
    (reopenVendor s o).2.templates = s.templates := by
  have hc := closeVendor_templates s
  unfold reopenVendor
  split
  · rfl
  · dsimp only
    split
    · exact hc
    · split
      · exact hc
      · split
        · exact (closeVendor_templates _).trans hc
        · split
          · exact (closeVendor_templates _).trans hc
          · exact hc

theorem restart_templates (s : State) (next : StreamMap) (o : Reopen) :
    (restart s next o).templates = s.templates := by
  have hr := reopenVendor_templates s o
  unfold restart
  dsimp only
  split
  · exact hr
  · exact hr

theorem registering_templates {s t : State} {c : Capturing} {i : Nat} (h : Registering s c i t) :
    t.templates = s.templates := by
  cases h <;> rfl

theorem callbackStep_templates {s t : State} {a : Action} (h : CallbackStep s a t) :
    t.templates = s.templates := by
  cases h with
  | result r alloc hc hg =>
    cases hr : s.frames.get r.frame with
    | none => rw [stockResult_unknown alloc hr]
    | some f => rw [stockResult_known alloc hr]
  | notify => rfl
  | deliver => rfl
  | retire => rfl

/-- Only `defaultRequest` writes a template. -/
theorem requestStep_templates {s t : State} {a : Action} (h : RequestStep s a t) :
    t.templates = s.templates ∨ ∃ type stock copy alloc,
      a = .defaultRequest type stock copy alloc ∧ t = defaultRequest s type stock copy alloc := by
  cases h with
  | initializeDevice valid hq =>
    unfold initializeDevice
    split
    · exact .inl rfl
    · split
      · exact .inl rfl
      · exact .inl rfl
  | configure config alloc hq =>
    rcases configureBegin_cases s config alloc with ⟨r, heq, -⟩ | ⟨ptrs, next, heq, -⟩
    · rw [heq]
      exact .inl rfl
    · rw [heq]
      exact .inl rfl
  | restart next o hq => exact .inl (restart_templates s next o)
  | configureStreams next answer result hq hv =>
    unfold configureStreams
    dsimp only
    split
    · exact .inl rfl
    · exact .inl rfl
  | defaultRequest type stock copy alloc hq => exact .inr ⟨type, stock, copy, alloc, rfl, rfl⟩
  | capture request hq =>
    rcases captureBegin_cases s request with ⟨r, hr, -⟩ | ⟨c, new, heq, -⟩
    · rw [hr]
      exact .inl rfl
    · rw [heq]
      exact .inl rfl
  | captureDrain c timeout r hq hr =>
    unfold captureDrained
    split
    · exact .inl rfl
    · exact .inl rfl
  | registerBuffer c i gralloc alloc stock hq hv =>
    exact .inl (registering_templates (registerBuffer_cases s c i gralloc alloc stock))
  | build c clone alloc hq hv =>
    rcases buildFrame_cases s c clone alloc with ⟨af, ae, last, r, hb⟩ | ⟨af, ae, last, settings, hb⟩
    · rw [hb]
      exact .inl rfl
    · rw [hb]
      exact .inl rfl
  | closeEnd result hq => exact .inl (closeVendor_templates s)
  | initializeEnd => exact .inl rfl
  | answer => exact .inl rfl
  | flush => exact .inl rfl
  | flushDrain => exact .inl rfl
  | close => exact .inl rfl

/-- Calm events carry no settings. -/
theorem calm_settings {e : Event} (h : e.calm = true) : e.settings = none := by
  cases e <;> first | rfl | cases h

/-- Only `build` forwards anything. -/
theorem Traffic.forwards {s t : State} {a : Action} (h : Traffic s a t)
    (ha : ∀ clone alloc, a ≠ .build clone alloc) :
    ∃ es, t.log = s.log ++ es ∧ ∀ e ∈ es, e.settings = none := by
  cases h with
  | calm a t h =>
    obtain ⟨es, hes, hcalm⟩ := h.log
    exact ⟨es, hes, fun e he => calm_settings (hcalm e he)⟩
  | submit clone alloc c t hq h => exact absurd rfl (ha clone alloc)
  | answer r n k hq =>
    refine ⟨[.stockAnswer n k r, .returned .capture r], ?_, ?_⟩
    · simp [captureAnswered, State.finish, State.record]
    · simp [Event.settings]
  | closeEnd r t hq hr hf hc hn hs hl =>
    obtain ⟨es, hes, hcalm⟩ := hl
    exact ⟨es, hes, fun e he => calm_settings (hcalm e he)⟩
  | result r alloc hc hq =>
    have hfences (fs : List Fence) : ∀ e ∈ Event.stockResult s.callbacks r :: fs.map .fenceClosed,
        e.settings = none := by
      intro e he
      rcases List.mem_cons.mp he with rfl | he
      · rfl
      · obtain ⟨f, -, rfl⟩ := List.mem_map.mp he
        rfl
    cases hg : s.frames.get r.frame with
    | none =>
      rw [stockResult_unknown alloc hg]
      exact ⟨_, rfl, hfences _⟩
    | some f =>
      rw [stockResult_known alloc hg]
      exact ⟨_, rfl, hfences _⟩
  | notify m hc hq => exact ⟨[], (List.append_nil _).symm, by simp⟩
  | deliver frame owner c calls hc => exact ⟨_, rfl, by simp [Event.settings]⟩
  | retire frame owner hc => exact ⟨[], (List.append_nil _).symm, by simp⟩

/-- The step lemma on what is forwarded. -/
theorem step_forwards {s t : State} {a : Action} (h : step s a = some t) :
    ∃ es, t.log = s.log ++ es ∧ ∀ e ∈ es, ∀ m, e.settings = some m → Still m := by
  by_cases hb : ∃ clone alloc, a = .build clone alloc
  · obtain ⟨clone, alloc, rfl⟩ := hb
    cases hq : s.request with
    | building c =>
      simp only [step, requestStep, hq] at h
      obtain ⟨-, hbuild⟩ := Option.ite_none_right_eq_some.mp h
      cases hbuild
      obtain ⟨e, hlog, he⟩ := buildFrame_log s c clone alloc
      refine ⟨[e], hlog, ?_⟩
      intro x hx
      rw [List.mem_singleton.mp hx]
      exact he
    | _ => simp [step, requestStep, hq] at h
  · obtain ⟨es, hes, hnone⟩ := (step_traffic h).forwards fun clone alloc heq => hb ⟨clone, alloc, heq⟩
    refine ⟨es, hes, fun e he m hm => ?_⟩
    rw [hnone e he] at hm
    cases hm

/-- The step lemma on templates: only the request for one adds one. -/
theorem step_templates {s t : State} {a : Action} (h : step s a = some t) :
    t.templates = s.templates ∨ ∃ type stock copy alloc,
      a = .defaultRequest type stock copy alloc ∧ t = defaultRequest s type stock copy alloc := by
  cases step_cases h with
  | request hstep => exact requestStep_templates hstep
  | callback hstep => exact .inl (callbackStep_templates hstep)
  | write hwrite =>
    unfold writeStream at hwrite
    split at hwrite <;> cases hwrite
    exact .inl rfl

/-- What `defaultRequest` stores is normalized, and what it hands out is stored. -/
theorem defaultRequest_templates {s : State} (h : Stabilized s) (type : Nat)
    (stock : Option Metadata) (copy : Bool) (alloc : Allocations) :
    (∀ k, (defaultRequest s type stock copy alloc).templates k ≠ [] →
      Still ((defaultRequest s type stock copy alloc).templates k)) ∧
    ((defaultRequest s type stock copy alloc).log.getLast? = some (.returned .defaultRequest 1) →
      Still ((defaultRequest s type stock copy alloc).templates type)) := by
  have hfails (u : State) (hu : u.templates = s.templates) :
      (∀ k, (u.finish .defaultRequest 0).templates k ≠ [] →
        Still ((u.finish .defaultRequest 0).templates k)) ∧
      ((u.finish .defaultRequest 0).log.getLast? = some (.returned .defaultRequest 1) →
        Still ((u.finish .defaultRequest 0).templates type)) := by
    refine ⟨?_, ?_⟩
    · intro k hk
      have hsame : (u.finish .defaultRequest 0).templates = s.templates := hu
      rw [hsame] at hk ⊢
      exact h.templates k hk
    · intro hlast
      simp [State.finish] at hlast
  unfold defaultRequest
  split
  · exact hfails s rfl
  · split
    · rename_i hcached
      exact ⟨h.templates, fun _ => h.templates type hcached⟩
    · dsimp only
      split
      · exact hfails _ rfl
      · split
        · exact hfails _ rfl
        · split
          · exact hfails _ rfl
          · rename_i o ho
            split
            · exact hfails _ rfl
            · rename_i hok
              have hstill : Still o.metadata :=
                normalizeRequest_stabilization ho (by simpa using hok)
              refine ⟨?_, fun _ => ?_⟩
              · intro k hk
                by_cases hkt : k = type
                · subst hkt
                  simpa [State.finish] using hstill
                · simp only [State.finish, Function.update_of_ne hkt] at hk ⊢
                  exact h.templates k hk
              · simpa [State.finish] using hstill

theorem step_stabilized {s t : State} {a : Action} (h : Stabilized s) (ht : step s a = some t) :
    Stabilized t := by
  constructor
  case forwarded =>
    obtain ⟨es, hes, hstill⟩ := step_forwards ht
    intro e he m hm
    rw [hes] at he
    rcases List.mem_append.mp he with he | he
    · exact h.forwarded e he m hm
    · exact hstill e he m hm
  case templates =>
    rcases step_templates ht with hsame | ⟨type, stock, copy, alloc, -, rfl⟩
    · rw [hsame]
      exact h.templates
    · exact (defaultRequest_templates h type stock copy alloc).1

theorem reachable_stabilized {s : State} (h : Reachable s) : Stabilized s := by
  refine h.invariant Stabilized ?_ fun s a t _ hs ht => step_stabilized hs ht
  intro s hs
  constructor
  case forwarded =>
    rw [hs.log]
    simp [Event.settings]
  case templates =>
    rw [hs.templates]
    intro type hne
    exact absurd rfl hne

/-- A normalized request meets its conditions, differs only where it did not, and is a fixed point.
In every run what is forwarded, and what `defaultRequest` hands out, has video stabilization off. -/
theorem requests_normalized :
    (∀ (a b : Allocations) (request characteristics r : Metadata), Repairable characteristics →
      normalizeRequest a request characteristics = some ⟨true, r, b⟩ →
      (∀ t, Met characteristics t (find r t)) ∧
      (∀ t, Met characteristics t (find request t) → lookup r t = lookup request t) ∧
      ∀ c, normalizeRequest c r characteristics = some ⟨true, r, c⟩) ∧
    ∀ s, Reachable s →
      (∀ frame serial clientBuffers vendorBuffers settings,
        .stockCapture frame serial clientBuffers vendorBuffers (some settings) ∈ s.log →
        Still settings) ∧
      ∀ type stock copy alloc t, step s (.defaultRequest type stock copy alloc) = some t →
        t.log.getLast? = some (.returned .defaultRequest 1) → Still (t.templates type) := by
  refine ⟨?_, ?_⟩
  · intro a b request characteristics r hc h
    obtain ⟨hmet, hkept⟩ := normalizeRequest_sound hc h
    exact ⟨hmet, hkept, normalizeRequest_fine hmet⟩
  · intro s hs
    have hstable := reachable_stabilized hs
    refine ⟨?_, ?_⟩
    · intro frame serial clientBuffers vendorBuffers settings he
      exact hstable.forwarded _ he settings rfl
    · intro type stock copy alloc t ht hlast
      cases hq : s.request with
      | idle =>
        simp only [step, requestStep, hq, Option.some.injEq] at ht
        cases ht
        exact (defaultRequest_templates hstable type stock copy alloc).2 hlast
      | _ => simp [step, requestStep, hq] at ht

/-- The front camera offers no automatic focus. -/
def fixedFocus : Metadata :=
  [(controlAeAvailableModes, [aeModeOn]), (controlAfAvailableModes, [afModeOff]),
    (controlAeAvailableTargetFpsRanges, [15, 30, 30, 30])]

/-- A request for automatic focus and video stabilization, with a range of its own. -/
def focusRequest : Metadata :=
  [(controlAfMode, [4]), (controlAeTargetFpsRange, [30, 30]), (controlVideoStabilizationMode, [1])]

theorem focusRequest_normalized :
    Still [(controlAfMode, [afModeOff]), (controlAeTargetFpsRange, [30, 30]),
      (controlVideoStabilizationMode, [videoStabilizationModeOff])] ∧
    ∃ s e settings, Transition.run step (opened recorderClients fixedFocus)
      (previewStart ++ previewCapture 5) = some s ∧ e ∈ s.log ∧ e.settings = some settings ∧
      Still settings := by
  have hfront : Repairable fixedFocus :=
    ⟨by decide, by decide, 15, 30, by decide, by decide, by decide⟩
  have hrequest : normalizeRequest [] focusRequest fixedFocus = some ⟨true,
      [(controlAfMode, [afModeOff]), (controlAeTargetFpsRange, [30, 30]),
        (controlVideoStabilizationMode, [videoStabilizationModeOff])], []⟩ := by
    decide +kernel
  refine ⟨(met_stabilization fixedFocus _).mp
    ((requests_normalized.1 [] [] focusRequest fixedFocus _ hfront hrequest).1 _), ?_⟩
  have hrun : ((Transition.run step (opened recorderClients fixedFocus)
      (previewStart ++ previewCapture 5)).bind fun s => s.log.find? fun e => e.settings.isSome).isSome =
        true := by
    decide +kernel
  obtain ⟨e, hbind⟩ := Option.isSome_iff_exists.mp hrun
  obtain ⟨s, hs, hfind⟩ := Option.bind_eq_some_iff.mp hbind
  have hmem : e ∈ s.log := List.mem_of_find?_eq_some hfind
  have hsome := List.find?_some hfind
  have hall := (requests_normalized.2 s
    (Transition.Reachable.run (.start (opened_initial _ _)) hs)).1
  cases e with
  | stockCapture frame serial clientBuffers vendorBuffers shown =>
    obtain ⟨settings, rfl⟩ := Option.isSome_iff_exists.mp hsome
    exact ⟨s, _, settings, hs, hmem, rfl, hall _ _ _ _ settings hmem⟩
  | _ => cases hsome

end Stabilization

end Camera3
