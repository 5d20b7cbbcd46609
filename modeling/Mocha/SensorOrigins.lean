import Mocha.SensorDelivery
import Mocha.SensorTables

/-!
# Where delivered records come from

Every record upstream is the remapped copy of an event that some sub-HAL
reported, or a completion that the adapter made for an accepted flush. `poll`
tests the `sensor` field of the copy, which is the remapped one only when the
event is not META_DATA.
-/
namespace Multihal

open SensorHandles

/-- The handle that a record is about: inside the payload for META_DATA. -/
def named (e : Event) : Int := if e.type = sensorTypeMetaData then e.metaData.sensor else e.sensor

theorem named_copyEvent (t : Tables) (e : Event) (m : Nat) :
    named (copyEventRemapHandle t e m) = getGlobalHandle t ⟨m, named e⟩ := by
  by_cases he : e.type = sensorTypeMetaData
  · simp [named, copyEventRemapHandle, he]
  · simp [named, copyEventRemapHandle, he]

/-- Everything in the context has an origin. -/
structure Traced (hal : Hal) (s : State) : Prop where
  pending : ∀ q ∈ s.pendingFlushes, q.handle ∈ globalHandles hal.published
  transit : ∀ m, ∀ e ∈ transit s m, e ∈ validEvents (s.polls m)
  origin : ∀ r ∈ delivered s, (∃ g ∈ globalHandles hal.published, r = flushComplete g) ∨
    ∃ m, ∃ e ∈ validEvents (s.polls m), r = copyEventRemapHandle hal.tables e m ∧ r.sensor ≠ -1

theorem initial_traced (hal : Hal) (s : State) (h : Initial s) : Traced hal s := by
  obtain ⟨hq, -, hpending, -, -, -, -, hw, hr, hret, -, -⟩ := h
  refine ⟨by simp [hpending], ?_, by simp [delivered, hr, hret, Reader.data]⟩
  intro m e he
  obtain ⟨data, hd⟩ := hq m
  simp [transit, hw, hd, Writer.rest, Writer.batch] at he

/-- The step lemma: events only move on from where they came. -/
theorem Traced.flow {hal : Hal} {s t : State} (h : Traced hal s) (hf : Flow hal s t) : Traced hal t := by
  have hrecords := lazyInit_records hal.modules
  cases hf with
  | still hd ht hv hp =>
    refine ⟨?_, ?_, ?_⟩
    · intro q hq
      rcases hp q hq with hq | hq
      · exact h.pending q hq
      · exact hrecords.mem_globalHandles hq
    · intro m
      rw [ht, hv]
      exact h.transit m
    · simp only [hd, hv]
      exact h.origin
  | polled n batch hd ht hv hp =>
    refine ⟨by rw [hp]; exact h.pending, ?_, ?_⟩
    · intro m e he
      rw [ht] at he
      rw [hv]
      rcases List.mem_append.mp he with he | he
      · exact List.mem_append_left _ (h.transit m e he)
      · exact List.mem_append_right _ he
    · intro r hr
      rw [hd] at hr
      rcases h.origin r hr with hflush | ⟨m, e, he, hcopy⟩
      · exact .inl hflush
      · refine .inr ⟨m, e, ?_, hcopy⟩
        rw [hv]
        exact List.mem_append_left _ he
  | emitted ps hd hps ht hv hp =>
    refine ⟨fun q hq => h.pending q (hp q hq), ?_, ?_⟩
    · intro m
      rw [ht, hv]
      exact h.transit m
    · intro r hr
      rw [hd] at hr
      rw [hv]
      rcases List.mem_append.mp hr with hr | hr
      · exact h.origin r hr
      · obtain ⟨q, hq, rfl⟩ := List.mem_map.mp hr
        exact .inl ⟨q.handle, h.pending q (hps q hq), rfl⟩
  | read n e ht hd hv hp =>
    have hmem : e ∈ validEvents (s.polls n) := by
      apply h.transit n
      rw [ht, if_pos rfl]
      exact List.mem_cons_self
    refine ⟨by rw [hp]; exact h.pending, ?_, ?_⟩
    · intro m x hx
      rw [hv]
      apply h.transit m
      rw [ht]
      split
      · exact List.mem_cons_of_mem _ hx
      · exact hx
    · intro r hr
      rw [hd] at hr
      rw [hv]
      rcases List.mem_append.mp hr with hr | hr
      · exact h.origin r hr
      · split at hr
        · cases hr
        · rename_i hkeep
          rw [List.mem_singleton.mp hr]
          exact .inr ⟨n, e, hmem, rfl, hkeep⟩

theorem Reachable.traced {hal : Hal} {s : State} (h : Reachable hal s) : Traced hal s :=
  (Reachable.of_moves (Traced hal) (initial_traced hal)
    (fun _ _ hok hs hm => hs.flow (hm.flow hok)) h).2

/-- A handle that was found is one of the published ones. -/
theorem getGlobalHandle_published (hal : Hal) {f : FullHandle} (hf : getGlobalHandle hal.tables f ≠ -1) :
    getGlobalHandle hal.tables f ∈ globalHandles hal.published := by
  have hwf : TablesWf hal.tables := lazyInit_wf hal.modules
  have hrecords := lazyInit_records hal.modules
  unfold getGlobalHandle at hf ⊢
  split at hf
  · rename_i g hg
    have hback := (hwf.forth f g hg).2.2
    exact (hrecords.handles g).mp (by rw [Hal.tables, Hal.published] at hback; rw [hback]; rfl)
  · exact absurd rfl hf

/-- A listed sensor has a published handle. -/
theorem getGlobalHandle_listed (hal : Hal) {f : FullHandle} (hf : Listed hal.modules f) :
    getGlobalHandle hal.tables f ∈ globalHandles hal.published := by
  have hwf : TablesWf hal.tables := lazyInit_wf hal.modules
  have hrecords := lazyInit_records hal.modules
  obtain ⟨g, hg⟩ := Option.isSome_iff_exists.mp ((hrecords.listed f).mpr ((listed_iff _ f).mp hf))
  have hfound : hal.tables.fullToGlobal f = some g := hg
  have hpos := (hwf.forth f g hfound).1
  apply getGlobalHandle_published
  simp only [getGlobalHandle, hfound]
  omega

/-- Every delivered record is about a published sensor, when the META_DATA events that the sub-HALs
reported are about sensors of theirs, or carry -1 in the field that `poll` tests. -/
theorem delivered_published (hal : Hal) (s : State) (h : Reachable hal s)
    (hmeta : ∀ m, ∀ e ∈ validEvents (s.polls m), e.type = sensorTypeMetaData → e.sensor ≠ -1 →
      Listed hal.modules ⟨m, e.metaData.sensor⟩) :
    ∀ r ∈ delivered s, named r ∈ globalHandles hal.published ∧ named r ≠ -1 := by
  have hpublished : ∀ r ∈ delivered s, named r ∈ globalHandles hal.published := by
    intro r hr
    rcases h.traced.origin r hr with ⟨g, hg, rfl⟩ | ⟨m, e, he, rfl, hkeep⟩
    · exact hg
    · rw [named_copyEvent]
      by_cases htype : e.type = sensorTypeMetaData
      · apply getGlobalHandle_listed
        simp only [copyEventRemapHandle, htype, if_true] at hkeep
        simpa only [named, htype, if_true] using hmeta m e he htype hkeep
      · apply getGlobalHandle_published
        simpa only [copyEventRemapHandle, named, htype, if_false] using hkeep
  intro r hr
  have hpos := (lazyInit_records hal.modules).handle_pos (hpublished r hr)
  exact ⟨hpublished r hr, by omega⟩

def sampleMetaEvent (localHandle : Int) : Event :=
  ⟨metaDataVersion, 0, sensorTypeMetaData, 0, ⟨metaDataFlushComplete, localHandle⟩, []⟩

/-- A sub-HAL reports one META_DATA event about its local handle, and `poll` reads it. -/
def sampleMeta (localHandle : Int) : List Action :=
  [.writerLock 0, .writerPolled 0 (1, Vector.ofFn fun _ => sampleMetaEvent localHandle),
    .writerLock 0, .writerRun 0, .writerRun 0, .pollCall true 8, .readerLock, .readerRun]

theorem listed_meta_delivered :
    let s := (sampleRun (sampleMeta 101)).get (by decide)
    delivered s = [flushComplete 1] ∧
    ∀ r ∈ delivered s, named r ∈ globalHandles sampleHal.published ∧ named r ≠ -1 := by
  intro s
  refine ⟨by decide, delivered_published sampleHal s (sampleRun_reachable _ _) ?_⟩
  intro m e he _ _
  have hpolls : s.polls m =
      if m = 0 then [(1, Vector.ofFn fun _ => sampleMetaEvent 101)] else [] := by
    have hs : s.polls = Function.update (fun (_ : Nat) => ([] : List PollResult)) 0
        [(1, Vector.ofFn fun _ => sampleMetaEvent 101)] := rfl
    rw [hs, Function.update_apply]
  rw [hpolls] at he
  split at he
  · rename_i hm
    subst hm
    obtain rfl : e = sampleMetaEvent 101 := by
      have hmem : e ∈ [sampleMetaEvent 101] := he
      exact List.mem_singleton.mp hmem
    exact ⟨0, _, rfl, rfl, _, List.mem_singleton_self _, rfl⟩
  · cases he

/-- The same with a local handle that no sensor has: the record goes upstream with -1. -/
theorem unlisted_meta_delivered :
    let s := (sampleRun (sampleMeta 7)).get (by decide)
    ∃ r ∈ delivered s, r.type = sensorTypeMetaData ∧ r.metaData.sensor = -1 ∧
      named r ∉ globalHandles sampleHal.published := by
  refine ⟨flushComplete (-1), ?_, rfl, rfl, ?_⟩
  · decide
  · decide

end Multihal
