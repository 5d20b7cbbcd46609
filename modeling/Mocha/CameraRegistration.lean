import Mocha.CameraConfigure

/-!
# Registration of buffers

What the adapter holds of the client's buffers against what the stock device and
gralloc were told. The stock device knows the buffers of a stream from the last
registration that succeeded; gralloc counts every registration until it is undone.
-/
namespace Camera3

section Log

/-- A successful call of `register_stream_buffers` for a stream. -/
def Event.registers (id : Nat) : Event → Option (List Nat)
  | .stockRegister i hs r => if i = id ∧ r = 0 then some hs else none
  | _ => none

/-- The handles of the most recent successful registration of a stream, none without one. -/
def registered (log : List Event) (id : Nat) : List Nat :=
  (log.filterMap (Event.registers id)).getLast?.getD []

/-- Successful gralloc registrations, as handles with the number of the registration. -/
def Event.pins : Event → Option (Nat × Nat)
  | .grallocRegister handle token r => if r = 0 then some (handle, token) else none
  | _ => none

def Event.unpins : Event → Option (Nat × Nat)
  | .grallocUnregister handle token => some (handle, token)
  | _ => none

def pins (log : List Event) : List (Nat × Nat) := log.filterMap Event.pins
def unpins (log : List Event) : List (Nat × Nat) := log.filterMap Event.unpins

/-- The registrations that a stream's references stand for. -/
def Stream.pinned (st : Stream) : List (Nat × Nat) := st.buffers.map fun b => (b.handle, b.token)

def live (s : State) : List (Nat × Nat) :=
  s.streams.values.flatMap Stream.pinned ++ s.failedStreams.flatMap Stream.pinned

/-- Plain events neither register a stream nor pin a buffer. -/
theorem plain_projections {e : Event} (h : e.plain = true) :
    (∀ id, e.registers id = none) ∧ e.pins = none ∧ e.unpins = none := by
  cases e <;> simp_all [Event.plain, Event.registers, Event.pins, Event.unpins]

/-- The last registration of a stream is what counts. -/
theorem registered_append (log : List Event) {es : List Event} {id : Nat}
    (h : ∀ e ∈ es, e.registers id = none) : registered (log ++ es) id = registered log id := by
  have hes : es.filterMap (Event.registers id) = [] := List.filterMap_eq_nil_iff.mpr h
  rw [registered, List.filterMap_append, hes, List.append_nil]
  rfl

theorem registered_last (log : List Event) (id : Nat) (hs : List Nat) :
    registered (log ++ [.stockRegister id hs 0]) id = hs := by
  simp [registered, Event.registers]

theorem pins_append (log es : List Event) : pins (log ++ es) = pins log ++ pins es := by
  simp [pins]

theorem unpins_append (log es : List Event) : unpins (log ++ es) = unpins log ++ unpins es := by
  simp [unpins]

theorem pins_plain {es : List Event} (h : ∀ e ∈ es, e.plain = true) : pins es = [] ∧ unpins es = [] := by
  constructor
  · exact List.filterMap_eq_nil_iff.mpr fun e he => (plain_projections (h e he)).2.1
  · exact List.filterMap_eq_nil_iff.mpr fun e he => (plain_projections (h e he)).2.2

/-- The destruction of streams undoes what they pinned. -/
theorem destroyed_projections (m : List Stream) :
    pins (destroyed m) = [] ∧ unpins (destroyed m) = m.flatMap Stream.pinned ∧
      ∀ e ∈ destroyed m, ∀ id, e.registers id = none := by
  refine ⟨?_, ?_, ?_⟩
  · apply List.filterMap_eq_nil_iff.mpr
    intro e he
    simp only [destroyed, List.mem_flatMap, List.mem_map] at he
    obtain ⟨st, -, b, -, rfl⟩ := he
    rfl
  · induction m with
    | nil => rfl
    | cons st m ih =>
      have hsplit : destroyed (st :: m) =
          st.buffers.map (fun b => Event.grallocUnregister b.handle b.token) ++ destroyed m := rfl
      have hhead : unpins (st.buffers.map fun b => Event.grallocUnregister b.handle b.token) =
          st.pinned := by
        simp [unpins, Stream.pinned, List.filterMap_map, Function.comp_def, Event.unpins]
      rw [hsplit, unpins_append, hhead, ih, List.flatMap_cons]
  · intro e he id
    simp only [destroyed, List.mem_flatMap, List.mem_map] at he
    obtain ⟨st, -, b, -, rfl⟩ := he
    rfl

end Log

section Streams

/-- The streams have their own addresses, and the stock device was never told of a later one. -/
structure Distinct (s : State) : Prop where
  keys : s.streams.keys.Nodup
  ids : (s.streams.map fun e => e.2.id).Nodup
  bound : ∀ e ∈ s.streams, e.2.id < s.nextStream
  told : ∀ id hs r, Event.stockRegister id hs r ∈ s.log → id < s.nextStream
  fresh : ∀ next, s.request.configuring? = some next → ∀ e ∈ next, ∀ hs r,
    Event.stockRegister e.2.id hs r ∉ s.log

theorem not_told_plain {es : List Event} (h : ∀ e ∈ es, e.plain = true) {id : Nat} {hs : List Nat}
    {r : Int} : Event.stockRegister id hs r ∉ es := by
  intro hmem
  have hp := h _ hmem
  cases hp

/-- Steps that add no stream and no registration. -/
theorem Distinct.plain {s t : State} (h : Distinct s) (hs : t.streams = s.streams)
    (hn : t.nextStream = s.nextStream)
    (hl : ∃ es, t.log = s.log ++ es ∧ ∀ id hs r, Event.stockRegister id hs r ∉ es)
    (hr : ∀ next, t.request.configuring? = some next → s.request.configuring? = some next) :
    Distinct t := by
  obtain ⟨es, hes, hnone⟩ := hl
  constructor
  · rw [hs]
    exact h.keys
  · rw [hs]
    exact h.ids
  · rw [hs, hn]
    exact h.bound
  · intro id hds r hmem
    rw [hes] at hmem
    rw [hn]
    rcases List.mem_append.mp hmem with hmem | hmem
    · exact h.told id hds r hmem
    · exact absurd hmem (hnone id hds r)
  · intro next hnext e he hds r hmem
    rw [hes] at hmem
    rcases List.mem_append.mp hmem with hmem | hmem
    · exact h.fresh next (hr next hnext) e he hds r hmem
    · exact hnone _ hds r hmem

theorem Distinct.same {s t : State} (h : Distinct s) (hs : Same s t)
    (hr : ∀ next, t.request.configuring? = some next → s.request.configuring? = some next) :
    Distinct t := by
  obtain ⟨es, hes, hplain⟩ := hs.log
  exact h.plain hs.streams hs.nextStream ⟨es, hes, fun _ _ _ => not_told_plain hplain⟩ hr

/-- The streams that `configure` builds have addresses that were never used. -/
theorem Built.id_range {clients : Nat → StreamInfo} {first : Nat} {ptrs : List (Option Nat)}
    {next : StreamMap} (h : Built clients first ptrs next) {e : Nat × Stream} (he : e ∈ next) :
    first ≤ e.2.id ∧ e.2.id < first + next.length := by
  have hmem : e.2.id ∈ next.map fun e => e.2.id := List.mem_map_of_mem he
  rw [h.ids, List.mem_range'_1] at hmem
  exact hmem

/-- The streams built for a configuration have ids not used before. -/
theorem distinct_contacting {s : State} {ptrs : List (Option Nat)} {next : StreamMap} (h : Distinct s)
    (hb : Built s.clients s.nextStream ptrs next) : Distinct (contacting s ptrs next) := by
  constructor
  · exact h.keys
  · exact h.ids
  · intro e he
    have hlt := h.bound e he
    exact Nat.lt_add_right _ hlt
  · intro id hs r hmem
    have hlt := h.told id hs r hmem
    exact Nat.lt_add_right _ hlt
  · intro next' hnext e he hs r hmem
    rw [contacting_configuring] at hnext
    cases hnext
    have hlt := h.told _ hs r hmem
    have hge := (hb.id_range he).1
    omega

theorem distinct_configured {s : State} {next : StreamMap} {answer : Nat → StreamInfo}
    (h : Distinct s) (hheld : Held s next) : Distinct (configureStreams s next answer 0) := by
  obtain ⟨first, hfirst, hb⟩ := hheld.built
  have hids : (adopt next answer).map (fun e => e.2.id) = next.map fun e => e.2.id := by simp [adopt]
  have hnone : ∀ id hs r, Event.stockRegister id hs r ∉
      (.stockConfigure (next.map fun (e : Nat × Stream) => e.2.id) 0 ::
        destroyed s.streams.values) ++ [.returned .configure 0] := by
    intro id hs r hmem
    simp [destroyed] at hmem
  rw [configureStreams_success]
  constructor
  · dsimp only
    rw [adopt_keys]
    exact hb.nodup
  · dsimp only
    rw [hids, hb.ids]
    exact List.nodup_range'
  · intro e he
    have hmem : e.2.id ∈ next.map fun e => e.2.id := by
      rw [← hids]
      exact List.mem_map_of_mem he
    rw [hb.ids, List.mem_range'_1] at hmem
    dsimp only
    omega
  · intro id hs r hmem
    dsimp only at hmem
    rw [List.append_assoc] at hmem
    rcases List.mem_append.mp hmem with hmem | hmem
    · exact h.told id hs r hmem
    · exact absurd hmem (hnone id hs r)
  · intro next' hnext
    cases hnext

theorem adjust_ids (m : StreamMap) (p : Nat) (buffers : List BufferReference) :
    (m.adjust p fun st => { st with buffers := buffers }).map (fun e => e.2.id) =
      m.map fun e => e.2.id := by
  simp only [Assoc.adjust, List.map_map]
  apply List.map_congr_left
  intro e _
  by_cases h : e.1 = p <;> simp [h]

/-- Offering a buffer changes no id. -/
theorem distinct_offered {s t : State} {c : Capturing} {i p : Nat} {stream : Stream} {h : HandlePtr}
    {r : Int} (hd : Distinct s) (hat : At s c i p stream h)
    (hs : t.streams = (offered s p stream h.target r).streams) (hn : t.nextStream = s.nextStream)
    (hl : ∃ es, t.log = (offered s p stream h.target r).log ++ es ∧
      ∀ id hs r, Event.stockRegister id hs r ∉ es)
    (hr : t.request.configuring? = none) : Distinct t := by
  obtain ⟨es, hes, hnone⟩ := hl
  have hmem : (p, stream) ∈ s.streams := Assoc.mem_of_get hat.stream
  have hids : t.streams.map (fun e => e.2.id) = s.streams.map fun e => e.2.id := by
    rw [hs]
    exact adjust_ids _ _ _
  constructor
  · rw [hs]
    dsimp only [offered]
    rw [Assoc.keys_adjust]
    exact hd.keys
  · rw [hids]
    exact hd.ids
  · intro e he
    have hid : e.2.id ∈ s.streams.map fun e => e.2.id := by
      rw [← hids]
      exact List.mem_map_of_mem he
    obtain ⟨d, hdm, hde⟩ := List.mem_map.mp hid
    rw [← hde, hn]
    exact hd.bound d hdm
  · intro id hds r' hev
    rw [hes] at hev
    rw [hn]
    simp only [offered, List.mem_append, List.mem_cons, List.not_mem_nil, or_false] at hev
    rcases hev with (hev | hev | hev) | hev
    · exact hd.told id hds r' hev
    · cases hev
    · cases hev
      exact hd.bound _ hmem
    · exact absurd hev (hnone id hds r')
  · intro next hnext
    rw [hr] at hnext
    cases hnext

theorem distinct_registering {s t : State} {c : Capturing} {i : Nat} (h : Distinct s)
    (hreg : Registering s c i t) : Distinct t := by
  have hq := registering_request hreg
  have hrest : ∀ next, t.request.configuring? = some next → s.request.configuring? = some next := by
    intro next hnext
    rw [hq] at hnext
    cases hnext
  cases hreg with
  | finished => exact h.plain rfl rfl ⟨[], (List.append_nil _).symm, by simp⟩ hrest
  | known => exact h.plain rfl rfl ⟨[], (List.append_nil _).symm, by simp⟩ hrest
  | refused hat hk r hr => exact h.plain rfl rfl ⟨_, refused_log s _ r, by simp⟩ hrest
  | unstored hat hk => exact h.plain rfl rfl ⟨_, unstored_log s _, by simp⟩ hrest
  | rejected hat hk r hr =>
    exact distinct_offered h hat rfl rfl ⟨[.returned .capture r], rfl, by simp⟩ rfl
  | accepted hat hk =>
    exact distinct_offered h hat rfl rfl ⟨[], (List.append_nil _).symm, by simp⟩ rfl

theorem Turn.distinct {s t : State} {a : Action} (ht : Turn s a t) (hh : Holding s) (h : Distinct s) :
    Distinct t := by
  cases ht with
  | aside a t hs hr hf => exact h.same hs fun next hn => by rw [← hr]; exact hn
  | rest a t hs hq hr =>
    refine h.same hs fun next hn => ?_
    rw [(Request.resting_spec hr).1] at hn
    cases hn
  | write p info hq => exact h.plain rfl rfl ⟨[], (List.append_nil _).symm, by simp⟩ fun _ hn => hn
  | configure config alloc ptrs next hq hf hne hb => exact distinct_contacting h hb
  | restarted o next t hq hs hr hf =>
    refine h.same hs fun next' hn => ?_
    rw [hr] at hn
    rw [hq]
    exact hn
  | failed a next u t new r hq hs hk hne heq =>
    subst heq
    obtain ⟨es, hes, hplain⟩ := hs.log
    refine h.plain hs.streams hs.nextStream ⟨es ++ [.returned .configure r], ?_, ?_⟩ ?_
    · simp [State.finish, hes]
    · intro id hds r' hmem
      rcases List.mem_append.mp hmem with hmem | hmem
      · exact not_told_plain hplain hmem
      · cases List.mem_singleton.mp hmem
    · intro next' hn
      cases hn
  | configured answer next hq =>
    have hn : s.request.configuring? = some next := by rw [hq]; rfl
    exact distinct_configured h (hh next hn)
  | capture request c new hq hfatal hc =>
    refine h.plain rfl rfl ⟨[], (List.append_nil _).symm, by simp⟩ fun next hn => ?_
    dsimp only at hn
    split at hn <;> cases hn
  | drained timeout c hq hf =>
    refine h.plain rfl rfl ⟨[], (List.append_nil _).symm, by simp⟩ fun next hn => ?_
    cases hn
  | registering gralloc alloc stock c i t hq hreg => exact distinct_registering h hreg
  | submit clone alloc c t hq hsub =>
    obtain ⟨settings, shown, -, -, hrequest, hlog⟩ := hsub.spec
    obtain ⟨af, ae, last, settings', rfl⟩ := hsub
    refine h.plain rfl rfl ⟨_, hlog, by simp⟩ fun next hn => ?_
    rw [hrequest] at hn
    cases hn
  | closeEnd r hq =>
    obtain ⟨es, hplain, hlog⟩ := closeEnd_log s r
    constructor
    · exact List.nodup_nil
    · exact List.nodup_nil
    · intro e he
      cases he
    · intro id hds r' hmem
      rw [hlog] at hmem
      refine lt_of_lt_of_eq ?_ (same_closeVendor s).nextStream.symm
      rcases List.mem_append.mp hmem with hmem | hmem
      · exact h.told id hds r' hmem
      · rcases List.mem_append.mp hmem with hmem | hmem
        · exact absurd hmem (not_told_plain hplain)
        · simp [destroyed] at hmem
    · intro next hn
      cases hn

theorem Reachable.distinct {s : State} (h : Reachable s) : Distinct s := by
  apply h.invariant Distinct
  · intro s hi
    constructor
    · rw [hi.streams]
      exact List.nodup_nil
    · rw [hi.streams]
      exact List.nodup_nil
    · intro e he
      rw [hi.streams] at he
      cases he
    · intro id hs r hmem
      rw [hi.log] at hmem
      simp at hmem
    · intro next hn
      rw [hi.request] at hn
      cases hn
  · intro s a t hs hd ht
    exact (step_turn ht).distinct (Reachable.holding hs) hd

end Streams

section Gralloc

/-- Every registration was undone once or is held by a stream. -/
structure Balanced (s : State) : Prop where
  perm : (pins s.log).Perm (unpins s.log ++ live s)
  nodup : ((pins s.log).map fun e => e.2).Nodup
  bound : ∀ e ∈ pins s.log, e.2 < s.nextToken

/-- Only pins, unpins and the buffers that live on matter for the balance. -/
theorem Balanced.frame {s t : State} (h : Balanced s) (hp : pins t.log = pins s.log)
    (hu : unpins t.log = unpins s.log) (hl : live t = live s) (hn : s.nextToken ≤ t.nextToken) :
    Balanced t := by
  constructor
  · rw [hp, hu, hl]
    exact h.perm
  · rw [hp]
    exact h.nodup
  · intro e he
    rw [hp] at he
    exact lt_of_lt_of_le (h.bound e he) hn

theorem Balanced.plain {s t : State} (h : Balanced s)
    (hl : ∃ es, t.log = s.log ++ es ∧ ∀ e ∈ es, e.plain = true) (hs : t.streams = s.streams)
    (hf : t.failedStreams = s.failedStreams) (hn : t.nextToken = s.nextToken) : Balanced t := by
  obtain ⟨es, hes, hplain⟩ := hl
  obtain ⟨hp, hu⟩ := pins_plain hplain
  apply h.frame
  · rw [hes, pins_append, hp, List.append_nil]
  · rw [hes, unpins_append, hu, List.append_nil]
  · rw [live, live, hs, hf]
  · exact le_of_eq hn.symm

theorem Balanced.same {s t : State} (h : Balanced s) (hs : Same s t) : Balanced t :=
  h.plain hs.log hs.streams hs.failedStreams hs.nextToken

/-- One more registration, which is undone at once or held. -/
theorem Balanced.pin {s t : State} (h : Balanced s) (handle : Nat) (held undone : List (Nat × Nat))
    (hp : pins t.log = pins s.log ++ [(handle, s.nextToken)])
    (hu : unpins t.log = unpins s.log ++ undone) (hl : (live t).Perm (live s ++ held))
    (hone : undone ++ held = [(handle, s.nextToken)]) (hn : t.nextToken = s.nextToken + 1) :
    Balanced t := by
  constructor
  · rw [hp, hu, ← hone]
    calc (pins s.log ++ (undone ++ held)).Perm ((unpins s.log ++ live s) ++ (undone ++ held)) :=
          h.perm.append_right _
      _ |>.Perm (unpins s.log ++ (undone ++ (live s ++ held))) := by
          rw [List.append_assoc]
          exact (List.perm_append_comm_assoc _ _ _).append_left _
      _ |>.Perm ((unpins s.log ++ undone) ++ live t) := by
          rw [List.append_assoc]
          exact (hl.symm.append_left _).append_left _
  · rw [hp, List.map_append]
    refine List.nodup_append.mpr ⟨h.nodup, List.nodup_singleton _, ?_⟩
    rintro k hk m hm rfl
    obtain ⟨e, he, hek⟩ := List.mem_map.mp hk
    have hlt := h.bound e he
    have hkm : k = s.nextToken := List.mem_singleton.mp hm
    omega
  · intro e he
    rw [hp] at he
    rw [hn]
    rcases List.mem_append.mp he with he | he
    · exact Nat.lt_succ_of_lt (h.bound e he)
    · rw [List.mem_singleton.mp he]
      exact Nat.lt_succ_self _

/-- A buffer that is offered joins those that live. -/
theorem live_offered {s : State} (hd : Distinct s) {c : Capturing} {i p : Nat} {stream : Stream}
    {h : HandlePtr} (hat : At s c i p stream h) {t : State} (r : Int)
    (hs : t.streams = (offered s p stream h.target r).streams)
    (hf : t.failedStreams = s.failedStreams) :
    (live t).Perm (live s ++ [(h.target, s.nextToken)]) := by
  have hmem : (p, stream) ∈ s.streams := Assoc.mem_of_get hat.stream
  have hgrow : (Stream.pinned { stream with buffers := pinned s stream h.target }).Perm
      (stream.pinned ++ [(h.target, s.nextToken)]) := by
    simp [Stream.pinned, pinned]
  have hvalues := Assoc.flatMap_adjust_perm hd.keys hmem
    (f := fun st => { st with buffers := pinned s stream h.target }) (g := Stream.pinned) hgrow
  have hstreams : t.streams = s.streams.adjust p fun st =>
      { st with buffers := pinned s stream h.target } := hs
  rw [live, live, hstreams, hf]
  refine (hvalues.append_right _).trans ?_
  rw [List.append_assoc, List.append_assoc]
  exact List.perm_append_comm.append_left _

/-- A registration pins one buffer, or undoes the pin when it cannot be noted. -/
theorem balanced_registering {s t : State} {c : Capturing} {i : Nat} (hd : Distinct s) (h : Balanced s)
    (hreg : Registering s c i t) : Balanced t := by
  cases hreg with
  | finished => exact h.frame rfl rfl rfl le_rfl
  | known => exact h.frame rfl rfl rfl le_rfl
  | @refused p stream hp hat hk r hr =>
    apply h.frame
    · rw [refused_log, pins_append]
      simp [pins, Event.pins, hr]
    · rw [refused_log, unpins_append]
      simp [unpins, Event.unpins]
    · rfl
    · exact Nat.le_succ _
  | @unstored p stream hp hat hk =>
    apply h.pin hp.target [] [(hp.target, s.nextToken)]
    · rw [unstored_log, pins_append]
      simp [pins, Event.pins]
    · rw [unstored_log, unpins_append]
      rfl
    · rw [List.append_nil]
      exact List.Perm.refl _
    · rfl
    · rfl
  | @rejected p stream hp hat hk r hr =>
    apply h.pin hp.target [(hp.target, s.nextToken)] []
    · simp [offered, State.finish, pins, Event.pins]
    · simp [offered, State.finish, unpins, Event.unpins]
    · exact live_offered hd hat r rfl rfl
    · rfl
    · rfl
  | @accepted p stream hp hat hk =>
    apply h.pin hp.target [(hp.target, s.nextToken)] []
    · simp [offered, pins, Event.pins]
    · simp [offered, unpins, Event.unpins]
    · exact live_offered hd hat 0 rfl rfl
    · rfl
    · rfl

/-- Streams without buffers hold nothing. -/
theorem flatMap_pinned_nil {l : List Stream} (h : ∀ st ∈ l, st.buffers = []) :
    l.flatMap Stream.pinned = [] := by
  apply List.flatMap_eq_nil_iff.mpr
  intro st hst
  rw [Stream.pinned, h st hst]
  rfl

/-- Streams that were built without buffers are kept without. -/
theorem Kept.unbuffered {next : StreamMap} {new : List Stream} (h : Kept next new)
    (hn : ∀ e ∈ next, e.2.buffers = []) : ∀ st ∈ new, st.buffers = [] := by
  intro st hst
  have hmem : st.buffers ∈ new.map fun st => st.buffers := List.mem_map_of_mem hst
  rw [h.buffers] at hmem
  obtain ⟨e, he, heq⟩ := List.mem_map.mp hmem
  rw [← heq]
  exact hn e he

theorem Held.unbuffered {s : State} {next : StreamMap} (h : Held s next) :
    ∀ e ∈ next, e.2.buffers = [] := by
  obtain ⟨first, -, hb⟩ := h.built
  exact fun e he => (hb.fresh e he).2.1

/-- Buffers of streams that are gone are unpinned, in the same step. -/
theorem balanced_configured {s : State} {next : StreamMap} {answer : Nat → StreamInfo}
    (h : Balanced s) (hheld : Held s next) : Balanced (configureStreams s next answer 0) := by
  obtain ⟨hdp, hdu, -⟩ := destroyed_projections s.streams.values
  have hnew : (adopt next answer).values.flatMap Stream.pinned = [] := by
    apply flatMap_pinned_nil
    intro st hst
    simp only [adopt, Assoc.values, List.map_map, List.mem_map] at hst
    obtain ⟨e, he, rfl⟩ := hst
    exact hheld.unbuffered e he
  have hp : pins (configureStreams s next answer 0).log = pins s.log := by
    rw [configureStreams_success]
    have hnone : ∀ es : List Nat, pins [Event.stockConfigure es 0] = [] := fun _ => rfl
    dsimp only
    rw [pins_append, pins_append, ← List.singleton_append, pins_append, hdp, hnone]
    simp [pins, Event.pins]
  have hu : unpins (configureStreams s next answer 0).log =
      unpins s.log ++ s.streams.values.flatMap Stream.pinned := by
    rw [configureStreams_success]
    have hnone : ∀ es : List Nat, unpins [Event.stockConfigure es 0] = [] := fun _ => rfl
    dsimp only
    rw [unpins_append, unpins_append, ← List.singleton_append, unpins_append, hdu, hnone]
    simp [unpins, Event.unpins]
  have hl : live (configureStreams s next answer 0) = s.failedStreams.flatMap Stream.pinned := by
    rw [configureStreams_success, live]
    dsimp only
    rw [hnew, List.nil_append]
  constructor
  · rw [hp, hu, hl, List.append_assoc]
    exact h.perm
  · rw [hp]
    exact h.nodup
  · rw [hp, configureStreams_success]
    exact h.bound

/-- The close unpins what is left. -/
theorem balanced_closeEnd {s : State} (r : Int) (h : Balanced s) : Balanced (closeEnd s r) := by
  obtain ⟨es, hplain, hlog⟩ := closeEnd_log s r
  obtain ⟨hep, heu⟩ := pins_plain hplain
  obtain ⟨hsp, hsu, -⟩ := destroyed_projections s.streams.values
  obtain ⟨hfp, hfu, -⟩ := destroyed_projections s.failedStreams
  have hp : pins (closeEnd s r).log = pins s.log := by
    rw [hlog, pins_append, pins_append, pins_append, pins_append, hep, hsp, hfp]
    simp [pins, Event.pins]
  have hu : unpins (closeEnd s r).log = unpins s.log ++ live s := by
    rw [hlog, unpins_append, unpins_append, unpins_append, unpins_append, heu, hsu, hfu, live]
    simp [unpins, Event.unpins]
  constructor
  · rw [hp, hu]
    have hl : live (closeEnd s r) = [] := rfl
    rw [hl, List.append_nil]
    exact h.perm
  · rw [hp]
    exact h.nodup
  · intro e he
    rw [hp] at he
    exact lt_of_lt_of_eq (h.bound e he) (same_closeVendor s).nextToken.symm

theorem Turn.balanced {s t : State} {a : Action} (ht : Turn s a t) (hh : Holding s) (hd : Distinct s)
    (h : Balanced s) : Balanced t := by
  cases ht with
  | aside a t hs hr hf => exact h.same hs
  | rest a t hs hq hr => exact h.same hs
  | write p info hq => exact h.frame rfl rfl rfl le_rfl
  | configure config alloc ptrs next hq hf hne hb => exact h.frame rfl rfl rfl le_rfl
  | restarted o next t hq hs hr hf => exact h.same hs
  | failed a next u t new r hq hs hk hne heq =>
    subst heq
    have hu := h.same hs
    have hnew : new.flatMap Stream.pinned = [] :=
      flatMap_pinned_nil (hk.unbuffered (hh next hq).unbuffered)
    apply hu.frame
    · simp [State.finish, pins, Event.pins]
    · simp [State.finish, unpins, Event.unpins]
    · simp [live, State.finish, hnew]
    · exact le_rfl
  | configured answer next hq =>
    have hn : s.request.configuring? = some next := by rw [hq]; rfl
    exact balanced_configured h (hh next hn)
  | capture request c new hq hfatal hc => exact h.frame rfl rfl rfl le_rfl
  | drained timeout c hq hf => exact h.frame rfl rfl rfl le_rfl
  | registering gralloc alloc stock c i t hq hreg => exact balanced_registering hd h hreg
  | submit clone alloc c t hq hsub =>
    obtain ⟨settings, shown, -, -, -, hlog⟩ := hsub.spec
    obtain ⟨af, ae, last, settings', rfl⟩ := hsub
    apply h.frame
    · rw [hlog, pins_append]
      simp [pins, Event.pins]
    · rw [hlog, unpins_append]
      simp [unpins, Event.unpins]
    · rfl
    · exact le_rfl
  | closeEnd r hq => exact balanced_closeEnd r h

theorem Reachable.balanced {s : State} (h : Reachable s) : Balanced s := by
  apply h.invariant Balanced
  · intro s hi
    have hp : pins s.log = [] := by simp [hi.log, pins, Event.pins]
    have hu : unpins s.log = [] := by simp [hi.log, unpins, Event.unpins]
    have hl : live s = [] := by simp [live, hi.streams, hi.failedStreams, Assoc.values]
    constructor
    · rw [hp, hu, hl]
      exact List.Perm.refl _
    · rw [hp]
      exact List.nodup_nil
    · rw [hp]
      intro e he
      cases he
  · intro s a t hs hb ht
    exact (step_turn ht).balanced (Reachable.holding hs) (Reachable.distinct hs) hb

end Gralloc

section Agreement

/-- The adapter and the stock device have the same buffers for every stream. -/
def Agrees (s : State) : Prop := ∀ e ∈ s.streams, e.2.handles = registered s.log e.2.id

/-- Every buffer of the request has its stream and its handle. -/
def Known (s : State) (c : Capturing) : Prop :=
  ∀ j p, c.streams[j]? = some p → ∃ stream h, At s c j p stream h

/-- The first `n` handles of the request are registered. -/
def Ready (s : State) (c : Capturing) (n : Nat) : Prop :=
  ∀ j < n, ∀ p, c.streams[j]? = some p → ∃ stream h, At s c j p stream h ∧ h.target ∈ stream.handles

structure Aligned (s : State) : Prop where
  agrees : s.fatal = false ∨ s.request.capturing ≠ none → Agrees s
  quiet : ∀ c i, s.request = .registering c i → s.frames = []
  known : ∀ c, s.request.capturing = some c → Known s c
  begun : ∀ c i, s.request = .registering c i → Ready s c i
  ready : ∀ c, s.request = .building c → Ready s c c.streams.length

/-- Accepted buffers name streams that are configured, in their order. -/
theorem checkBuffers_spec (s : State) {buffers : List StreamBuffer} {seen streams : List Nat} {new : Bool}
    (h : checkBuffers s seen buffers = some (streams, new)) {j p : Nat} (hp : streams[j]? = some p) :
    ∃ b stream hd, buffers[j]? = some b ∧ b.buffer = some hd ∧ s.streams.get p = some stream ∧
      (new = false → hd.target ∈ stream.handles) := by
  induction buffers generalizing seen streams new j with
  | nil =>
    cases h
    cases hp
  | cons b bs ih =>
    rw [checkBuffers] at h
    split at h
    · rename_i q _
      split at h
      · rename_i stream hd hs hb
        split at h
        · cases h
        · obtain ⟨⟨rest, flag⟩, hr, heq⟩ := Option.map_eq_some_iff.mp h
          simp only [Prod.mk.injEq] at heq
          obtain ⟨rfl, rfl⟩ := heq
          cases j with
          | zero =>
            cases hp
            refine ⟨b, stream, hd, rfl, hb, hs, fun hnew => ?_⟩
            simp only [Bool.or_eq_false_iff, decide_eq_false_iff_not, not_not] at hnew
            exact hnew.1
          | succ j =>
            obtain ⟨b', stream', hd', hb', hbuf, hs', hnew⟩ := ih hr hp
            refine ⟨b', stream', hd', hb', hbuf, hs', fun hflag => ?_⟩
            simp only [Bool.or_eq_false_iff] at hflag
            exact hnew hflag.2
      · cases h
    · cases h

theorem At.same {s t : State} {c : Capturing} {j p : Nat} {stream : Stream} {h : HandlePtr}
    (hat : At s c j p stream h) (hs : t.streams = s.streams) : At t c j p stream h :=
  ⟨hat.key, by rw [hs]; exact hat.stream, hat.handle⟩

theorem Known.same {s t : State} {c : Capturing} (h : Known s c) (hs : t.streams = s.streams) :
    Known t c := by
  intro j p hp
  obtain ⟨stream, hd, hat⟩ := h j p hp
  exact ⟨stream, hd, hat.same hs⟩

theorem Ready.same {s t : State} {c : Capturing} {n : Nat} (h : Ready s c n)
    (hs : t.streams = s.streams) : Ready t c n := by
  intro j hj p hp
  obtain ⟨stream, hd, hat, hmem⟩ := h j hj p hp
  exact ⟨stream, hd, hat.same hs, hmem⟩

theorem Agrees.frame {s t : State} (h : Agrees s) (hs : t.streams = s.streams)
    (hl : ∃ es, t.log = s.log ++ es ∧ ∀ e ∈ es, ∀ id, e.registers id = none) : Agrees t := by
  obtain ⟨es, hes, hnone⟩ := hl
  intro e he
  rw [hs] at he
  rw [hes, registered_append s.log fun x hx => hnone x hx e.2.id]
  exact h e he

theorem Agrees.same {s t : State} (h : Agrees s) (hs : Same s t) : Agrees t := by
  obtain ⟨es, hes, hplain⟩ := hs.log
  exact h.frame hs.streams ⟨es, hes, fun e he => (plain_projections (hplain e he)).1⟩

/-- A state in which no request is prepared. -/
theorem aligned_resting {t : State} (hq : t.request.capturing = none)
    (h : t.fatal = false → Agrees t) : Aligned t := by
  constructor
  · rintro (hf | hc)
    · exact h hf
    · exact absurd hq hc
  · intro c i hr
    rw [hr] at hq
    cases hq
  · intro c hc
    rw [hq] at hc
    cases hc
  · intro c i hr
    rw [hr] at hq
    cases hq
  · intro c hr
    rw [hr] at hq
    cases hq

/-- The registration loop has done its first `i` turns. -/
theorem aligned_registering_at {t : State} {c : Capturing} {i : Nat} (hq : t.request = .registering c i)
    (hagrees : Agrees t) (hquiet : t.frames = []) (hknown : Known t c) (hbegun : Ready t c i) :
    Aligned t := by
  constructor
  · intro _
    exact hagrees
  · intro d j hr
    exact hquiet
  · intro d hr
    rw [hq] at hr
    cases hr
    exact hknown
  · intro d j hr
    rw [hq] at hr
    cases hr
    exact hbegun
  · intro d hr
    rw [hq] at hr
    cases hr

/-- Every buffer of the request is registered. -/
theorem aligned_building {t : State} {c : Capturing} (hq : t.request = .building c)
    (hagrees : Agrees t) (hknown : Known t c) (hready : Ready t c c.streams.length) : Aligned t := by
  constructor
  · intro _
    exact hagrees
  · intro d j hr
    rw [hq] at hr
    cases hr
  · intro d hr
    rw [hq] at hr
    cases hr
    exact hknown
  · intro d j hr
    rw [hq] at hr
    cases hr
  · intro d hr
    rw [hq] at hr
    cases hr
    exact hready

theorem fatal_back {s t : State} (h : s.fatal = true → t.fatal = true) (ht : t.fatal = false) :
    s.fatal = false := by
  cases hs : s.fatal with
  | false => rfl
  | true =>
    rw [h hs] at ht
    cases ht

theorem aligned_aside {s t : State} (h : Aligned s) (hs : Same s t) (hr : t.request = s.request)
    (hf : s.frames = [] → t.frames = []) : Aligned t := by
  constructor
  · intro hc
    apply Agrees.same _ hs
    apply h.agrees
    rcases hc with hc | hc
    · exact .inl (fatal_back hs.fatal hc)
    · exact .inr (by rw [← hr]; exact hc)
  · intro c i hq
    rw [hr] at hq
    exact hf (h.quiet c i hq)
  · intro c hc
    rw [hr] at hc
    exact (h.known c hc).same hs.streams
  · intro c i hq
    rw [hr] at hq
    exact (h.begun c i hq).same hs.streams
  · intro c hq
    rw [hr] at hq
    exact (h.ready c hq).same hs.streams

/-- A capture that begins still has all its buffers to register. -/
theorem aligned_capture {s : State} {c : Capturing} {new : Bool} (h : Aligned s) (hfatal : s.fatal = false)
    (hc : checkBuffers s [] c.buffers = some (c.streams, new)) :
    Aligned { s with request := if new then .draining c else .building c } := by
  have hcap : (if new then Request.draining c else .building c).capturing = some c := by
    split <;> rfl
  have hknown : Known s c := by
    intro j p hp
    obtain ⟨b, stream, hd, hb, hbuf, hs, -⟩ := checkBuffers_spec s hc hp
    exact ⟨stream, hd, hp, hs, b, hb, hbuf⟩
  constructor
  · intro _
    exact h.agrees (.inl hfatal)
  · intro d i hq
    dsimp only at hq
    split at hq <;> cases hq
  · intro d hd
    dsimp only at hd
    rw [hcap] at hd
    cases hd
    exact hknown.same rfl
  · intro d i hq
    dsimp only at hq
    split at hq <;> cases hq
  · intro d hq j hj p hp
    dsimp only at hq
    split at hq
    · cases hq
    · rename_i hold
      cases hq
      obtain ⟨b, stream, hd, hb, hbuf, hs, hmem⟩ := checkBuffers_spec s hc hp
      exact ⟨stream, hd, ⟨hp, hs, b, hb, hbuf⟩, hmem (by simpa using hold)⟩

/-- A stream after its new reference: the old handles are still there, and the new one. -/
theorem At.offered {s t : State} {c : Capturing} {i p : Nat} {stream : Stream} {h : HandlePtr}
    (hd : Distinct s) (hat : At s c i p stream h) {r : Int}
    (hs : t.streams = (Camera3.offered s p stream h.target r).streams) {j q : Nat} {other : Stream}
    {k : HandlePtr} (hother : At s c j q other k) : ∃ other', At t c j q other' k ∧
      other.handles ⊆ other'.handles ∧ (j = i → k.target ∈ other'.handles) := by
  have hstreams : t.streams = s.streams.adjust p fun st =>
      { st with buffers := pinned s stream h.target } := hs
  by_cases hq : q = p
  · subst hq
    have heq : stream = other := Option.some.inj (hat.stream.symm.trans hother.stream)
    subst heq
    refine ⟨{ stream with buffers := pinned s stream h.target }, ⟨hother.key, ?_, hother.handle⟩, ?_, ?_⟩
    · rw [hstreams]
      exact Assoc.get_adjust_same hd.keys hat.stream _
    · simp [Stream.handles, pinned]
    · rintro rfl
      obtain ⟨b, hb, hh⟩ := hat.handle
      obtain ⟨b', hb', hh'⟩ := hother.handle
      rw [hb] at hb'
      cases hb'
      rw [hh] at hh'
      cases hh'
      simp [Stream.handles, pinned]
  · refine ⟨other, ⟨hother.key, ?_, hother.handle⟩, List.Subset.refl _, ?_⟩
    · rw [hstreams]
      exact Assoc.get_adjust_ne hd.keys hother.stream hq _
    · rintro rfl
      exact absurd (Option.some.inj (hother.key.symm.trans hat.key)) hq

/-- The handles noted are those the stock device was told last. -/
theorem agrees_offered {s t : State} {c : Capturing} {i p : Nat} {stream : Stream} {h : HandlePtr}
    (hd : Distinct s) (ha : Agrees s) (hat : At s c i p stream h)
    (hs : t.streams = (offered s p stream h.target 0).streams)
    (hl : t.log = (offered s p stream h.target 0).log) : Agrees t := by
  have hmem : (p, stream) ∈ s.streams := Assoc.mem_of_get hat.stream
  have hlog : t.log = (s.log ++ [.grallocRegister h.target s.nextToken 0]) ++
      [.stockRegister stream.id ((pinned s stream h.target).map fun b => b.handle) 0] := by
    rw [hl]
    simp [offered]
  have hstreams : t.streams = s.streams.adjust p fun st =>
      { st with buffers := pinned s stream h.target } := hs
  intro e he
  rw [hstreams] at he
  rcases Assoc.mem_adjust.mp he with ⟨he, hne⟩ | ⟨b, hb, rfl⟩
  · have hid : e.2.id ≠ stream.id := by
      intro hid
      have heq := List.inj_on_of_nodup_map hd.ids he hmem hid
      exact hne (congrArg Prod.fst heq)
    rw [hl]
    dsimp only [offered]
    rw [registered_append]
    · exact ha e he
    · intro x hx
      simp only [List.mem_cons, List.not_mem_nil, or_false] at hx
      rcases hx with rfl | rfl
      · rfl
      · simp [Event.registers, Ne.symm hid]
  · have heq := Assoc.eq_of_mem hd.keys hb hmem rfl
    cases heq
    rw [hlog, registered_last]
    rfl

theorem aligned_registering {s t : State} {c : Capturing} {i : Nat} (hq : s.request = .registering c i)
    (hd : Distinct s) (h : Aligned s) (hreg : Registering s c i t) : Aligned t := by
  have hcap : s.request.capturing = some c := by rw [hq]; rfl
  have hagrees : Agrees s := h.agrees (.inr (by rw [hcap]; simp))
  have hknown := h.known c hcap
  have hbegun := h.begun c i hq
  have hquiet := h.quiet c i hq
  cases hreg with
  | finished hend =>
    have hlen : c.streams.length ≤ i := by
      by_contra hlt
      have hsome : c.streams[i]? = some c.streams[i] := List.getElem?_eq_getElem (Nat.lt_of_not_le hlt)
      obtain ⟨stream, hd, hat⟩ := hknown i _ hsome
      exact hend _ _ _ hat
    refine aligned_building rfl hagrees (hknown.same rfl) ?_
    intro j hj p hp
    obtain ⟨stream, hd, hat, hmem⟩ := hbegun j (lt_of_lt_of_le hj hlen) p hp
    exact ⟨stream, hd, hat.same rfl, hmem⟩
  | @known p stream k hat hk =>
    refine aligned_registering_at rfl hagrees hquiet (hknown.same rfl) ?_
    intro l hl q hp
    rcases Nat.lt_succ_iff_lt_or_eq.mp hl with hl | rfl
    · obtain ⟨stream', hd', hat', hmem⟩ := hbegun l hl q hp
      exact ⟨stream', hd', hat'.same rfl, hmem⟩
    · have hpq : p = q := Option.some.inj (hat.key.symm.trans hp)
      subst hpq
      exact ⟨stream, k, hat.same rfl, hk⟩
  | @refused p stream k hat hk r hr =>
    apply aligned_resting rfl
    intro _
    refine hagrees.frame rfl ⟨_, refused_log s _ r, ?_⟩
    simp [Event.registers]
  | @unstored p stream k hat hk =>
    apply aligned_resting rfl
    intro _
    refine hagrees.frame rfl ⟨_, unstored_log s _, ?_⟩
    simp [Event.registers]
  | @rejected p stream k hat hk r hr =>
    apply aligned_resting rfl
    intro hf
    cases hf
  | @accepted p stream k hat hk =>
    have hgrow := fun {j q : Nat} {other : Stream} {m : HandlePtr} (ho : At s c j q other m) =>
      At.offered (t := { offered s p stream k.target 0 with request := .registering c (i + 1) })
        (r := 0) hd hat rfl ho
    refine aligned_registering_at rfl (agrees_offered hd hagrees hat rfl rfl) hquiet ?_ ?_
    · intro j q hj
      obtain ⟨other, m, ho⟩ := hknown j q hj
      obtain ⟨other', hat', -⟩ := hgrow ho
      exact ⟨other', m, hat'⟩
    · intro l hl q hp
      rcases Nat.lt_succ_iff_lt_or_eq.mp hl with hl | rfl
      · obtain ⟨other, m, ho, hmem⟩ := hbegun l hl q hp
        obtain ⟨other', hat', hsub, -⟩ := hgrow ho
        exact ⟨other', m, hat', hsub hmem⟩
      · obtain ⟨other, m, ho⟩ := hknown l q hp
        obtain ⟨other', hat', -, hnew⟩ := hgrow ho
        exact ⟨other', m, hat', hnew rfl⟩

/-- New streams have no buffers and none registered. -/
theorem aligned_configured {s : State} {next : StreamMap} {answer : Nat → StreamInfo} (hd : Distinct s)
    (hn : s.request.configuring? = some next) (hheld : Held s next) :
    Aligned (configureStreams s next answer 0) := by
  obtain ⟨-, -, hnone⟩ := destroyed_projections s.streams.values
  apply aligned_resting
  · rw [configureStreams_success]
    rfl
  · intro _ e he
    rw [configureStreams_success] at he ⊢
    dsimp only at he ⊢
    obtain ⟨d, hdm, rfl⟩ := List.mem_map.mp he
    have hempty : registered s.log d.2.id = [] := by
      have hnil : s.log.filterMap (Event.registers d.2.id) = [] := by
        apply List.filterMap_eq_nil_iff.mpr
        intro ev hev
        cases ev with
        | stockRegister id hs r =>
          have hne : id ≠ d.2.id := by
            rintro rfl
            exact hd.fresh next hn d hdm hs r hev
          simp [Event.registers, hne]
        | _ => rfl
      rw [registered, hnil]
      rfl
    have hhandles : d.2.handles = [] := by
      rw [Stream.handles, hheld.unbuffered d hdm]
      rfl
    rw [List.append_assoc, registered_append]
    · exact hhandles.trans hempty.symm
    · intro ev hev
      simp only [List.cons_append, List.mem_cons, List.mem_append, List.not_mem_nil, or_false] at hev
      rcases hev with rfl | hev | rfl
      · rfl
      · exact hnone ev hev _
      · rfl

theorem Turn.aligned {s t : State} {a : Action} (ht : Turn s a t) (hh : Holding s) (hd : Distinct s)
    (h : Aligned s) : Aligned t := by
  cases ht with
  | aside a t hs hr hf => exact aligned_aside h hs hr hf
  | rest a t hs hq hr =>
    apply aligned_resting (Request.resting_spec hr).2.1
    intro hf
    exact (h.agrees (.inl (fatal_back hs.fatal hf))).same hs
  | write p info hq =>
    exact ⟨h.agrees, h.quiet, fun c hc => (h.known c hc).same rfl,
      fun c i hr => (h.begun c i hr).same rfl, fun c hr => (h.ready c hr).same rfl⟩
  | configure config alloc ptrs next hq hf hne hb =>
    apply aligned_resting
    · unfold contacting
      dsimp only
      split <;> rfl
    · intro hfatal
      exact h.agrees (.inl hfatal)
  | restarted o next t hq hs hr hf =>
    apply aligned_resting
    · rw [hr]
      rfl
    · intro hfatal
      exact (h.agrees (.inl (fatal_back hs.fatal hfatal))).same hs
  | failed a next u t new r hq hs hk hne heq =>
    subst heq
    apply aligned_resting rfl
    intro hfatal
    cases hfatal
  | configured answer next hq =>
    have hn : s.request.configuring? = some next := by rw [hq]; rfl
    exact aligned_configured hd hn (hh next hn)
  | capture request c new hq hfatal hc => exact aligned_capture h hfatal hc
  | drained timeout c hq hf =>
    have hcap : s.request.capturing = some c := by rw [hq]; rfl
    have hagrees : Agrees s := h.agrees (.inr (by rw [hcap]; simp))
    refine aligned_registering_at rfl hagrees hf ((h.known c hcap).same rfl) ?_
    intro j hj
    cases hj
  | registering gralloc alloc stock c i t hq hreg => exact aligned_registering hq hd h hreg
  | submit clone alloc c t hq hsub =>
    have hcap : s.request.capturing = some c := by rw [hq]; rfl
    have hagrees : Agrees s := h.agrees (.inr (by rw [hcap]; simp))
    obtain ⟨settings, shown, -, -, hrequest, hlog⟩ := hsub.spec
    apply aligned_resting
    · rw [hrequest]
      rfl
    · intro _
      obtain ⟨af, ae, last, settings', rfl⟩ := hsub
      exact hagrees.frame rfl ⟨_, hlog, by simp [Event.registers]⟩
  | closeEnd r hq =>
    apply aligned_resting rfl
    intro _ e he
    cases he

theorem Reachable.aligned {s : State} (h : Reachable s) : Aligned s := by
  apply h.invariant Aligned
  · intro s hi
    apply aligned_resting
    · rw [hi.request]
      rfl
    · intro _ e he
      rw [hi.streams] at he
      cases he
  · intro s a t hs ha ht
    exact (step_turn ht).aligned (Reachable.holding hs) (Reachable.distinct hs) ha

/-- The records that the stock device gets name registered buffers by the adapter's own copies. -/
theorem newFrame_vendorBuffers {s : State} {c : Capturing} (settings : CameraMetadata.Metadata)
    (ha : Agrees s) (hr : Ready s c c.streams.length) {v : StreamBuffer}
    (hv : v ∈ (newFrame s c settings).vendorBuffers) : ∃ e ∈ s.streams, ∃ handle,
      v.stream = .legacy e.2.id ∧ v.buffer = some (.reference e.2.id handle) ∧
      handle ∈ registered s.log e.2.id := by
  obtain ⟨j, hj, rfl⟩ := List.getElem_of_mem hv
  have hlen : j < c.buffers.length ∧ j < c.streams.length := by
    have hlt := hj
    simp only [newFrame, List.length_zipWith] at hlt
    omega
  have hkey : c.streams[j]? = some c.streams[j] := List.getElem?_eq_getElem hlen.2
  obtain ⟨stream, h, hat, hmem⟩ := hr j hlen.2 _ hkey
  obtain ⟨b, hb, hbuf⟩ := hat.handle
  have hbj : c.buffers[j] = b := Option.some.inj ((List.getElem?_eq_getElem hlen.1).symm.trans hb)
  have hstream : (c.streams[j], stream) ∈ s.streams := Assoc.mem_of_get hat.stream
  have hget := hat.stream
  refine ⟨_, hstream, h.target, ?_, ?_, ?_⟩
  · simp [newFrame, vendorBuffer, hbj, hget, hbuf]
  · simp [newFrame, vendorBuffer, hbj, hget, hbuf]
  · rw [← ha _ hstream]
    exact hmem

end Agreement

section Results

/-- What a step can log about buffers. -/
inductive News (s : State) : Action → List Event → Prop where
  | plain (a : Action) (es : List Event) (h : ∀ e ∈ es, e.plain = true) : News s a es
  | captured (a : Action) (n k : Nat) (c : Capturing) (settings : CameraMetadata.Metadata)
      (shown : Option CameraMetadata.Metadata) (hq : s.request = .building c) :
      News s a [.stockCapture n k c.buffers (newFrame s c settings).vendorBuffers shown]
  | refused (a : Action) (handle token : Nat) (r : Int) :
      News s a [.grallocRegister handle token r, .returned .capture r]
  | unstored (a : Action) (handle token : Nat) :
      News s a [.grallocRegister handle token 0, .grallocUnregister handle token,
        .returned .capture (-enomem)]
  | offered (a : Action) (c : Capturing) (i handle token id : Nat) (hs : List Nat) (r : Int)
      (rest : List Event) (hq : s.request = .registering c i) (hrest : ∀ e ∈ rest, e.plain = true) :
      News s a (.grallocRegister handle token 0 :: .stockRegister id hs r :: rest)
  | configured (answer : Nat → StreamInfo) (ids : List Nat) : News s (.configureStreams answer 0)
      ((.stockConfigure ids 0 :: destroyed s.streams.values) ++ [.returned .configure 0])
  | closed (r : Int) (es rest : List Event) (hes : ∀ e ∈ es, e.plain = true)
      (hrest : ∀ e ∈ rest, e.plain = true) : News s (.closeEnd r)
        (es ++ (destroyed s.streams.values ++ destroyed s.failedStreams ++ rest))

theorem registering_news {s t : State} {c : Capturing} {i : Nat} (a : Action)
    (hq : s.request = .registering c i) (hreg : Registering s c i t) :
    ∃ es, t.log = s.log ++ es ∧ News s a es := by
  cases hreg with
  | finished => exact ⟨[], (List.append_nil _).symm, .plain a [] (by simp)⟩
  | known => exact ⟨[], (List.append_nil _).symm, .plain a [] (by simp)⟩
  | refused hat hk r hr => exact ⟨_, refused_log s _ r, .refused a _ _ r⟩
  | unstored hat hk => exact ⟨_, unstored_log s _, .unstored a _ _⟩
  | @rejected p stream h hat hk r hr =>
    refine ⟨_, List.append_assoc _ _ _, ?_⟩
    exact .offered a c i _ _ _ _ r [.returned .capture r] hq (by simp [Event.plain])
  | @accepted p stream h hat hk =>
    exact ⟨_, rfl, .offered a c i _ _ _ _ 0 [] hq (by simp)⟩

/-- What a step adds to the history. -/
theorem Turn.news {s t : State} {a : Action} (ht : Turn s a t) :
    ∃ es, t.log = s.log ++ es ∧ News s a es := by
  have hsame : ∀ {u : State}, Same s u → ∃ es, u.log = s.log ++ es ∧ News s a es := by
    intro u hs
    obtain ⟨es, hes, hplain⟩ := hs.log
    exact ⟨es, hes, .plain a es hplain⟩
  cases ht with
  | aside a t hs hr hf => exact hsame hs
  | rest a t hs hq hr => exact hsame hs
  | write p info hq => exact ⟨[], (List.append_nil _).symm, .plain _ [] (by simp)⟩
  | configure config alloc ptrs next hq hf hne hb =>
    exact ⟨[], (List.append_nil _).symm, .plain _ [] (by simp)⟩
  | restarted o next t hq hs hr hf => exact hsame hs
  | failed a next u t new r hq hs hk hne heq =>
    subst heq
    obtain ⟨es, hes, hplain⟩ := hs.log
    refine ⟨es ++ [.returned .configure r], by simp [State.finish, hes], .plain a _ ?_⟩
    intro e he
    rcases List.mem_append.mp he with he | he
    · exact hplain e he
    · rw [List.mem_singleton.mp he]
      rfl
  | configured answer next hq =>
    rw [configureStreams_success]
    exact ⟨_, List.append_assoc _ _ _, .configured answer _⟩
  | capture request c new hq hfatal hc => exact ⟨[], (List.append_nil _).symm, .plain _ [] (by simp)⟩
  | drained timeout c hq hf => exact ⟨[], (List.append_nil _).symm, .plain _ [] (by simp)⟩
  | registering gralloc alloc stock c i t hq hreg => exact registering_news _ hq hreg
  | submit clone alloc c t hq hsub =>
    obtain ⟨settings, shown, -, -, -, hlog⟩ := hsub.spec
    exact ⟨_, hlog, .captured _ _ _ c settings shown hq⟩
  | closeEnd r hq =>
    obtain ⟨es, hplain, hlog⟩ := closeEnd_log s r
    exact ⟨_, hlog, .closed r es _ hplain (by simp [Event.plain])⟩

theorem destroyed_events {m : List Stream} {e : Event} (h : e ∈ destroyed m) :
    ∃ handle token, e = .grallocUnregister handle token := by
  simp only [destroyed, List.mem_flatMap, List.mem_map] at h
  obtain ⟨st, -, b, -, rfl⟩ := h
  exact ⟨_, _, rfl⟩

/-- A registration at the stock device belongs to a running `capture`. -/
theorem News.stockRegister {s : State} {a : Action} {es : List Event} (h : News s a es) {id : Nat}
    {hs : List Nat} {r : Int} (hmem : Event.stockRegister id hs r ∈ es) :
    ∃ c i, s.request = .registering c i := by
  cases h with
  | plain a es hp => cases hp _ hmem
  | captured => simp at hmem
  | refused => simp at hmem
  | unstored => simp at hmem
  | offered a c i handle token id hs r rest hq => exact ⟨c, i, hq⟩
  | configured => simp [destroyed] at hmem
  | closed r es rest hes hrest =>
    simp only [List.mem_append] at hmem
    rcases hmem with hmem | (hmem | hmem) | hmem
    · cases hes _ hmem
    · obtain ⟨_, _, heq⟩ := destroyed_events hmem
      cases heq
    · obtain ⟨_, _, heq⟩ := destroyed_events hmem
      cases heq
    · cases hrest _ hmem

/-- A capture reaches the stock device from one action only. -/
theorem News.stockCapture {s : State} {a : Action} {es : List Event} (h : News s a es) {n k : Nat}
    {cs vs : List StreamBuffer} {shown : Option CameraMetadata.Metadata}
    (hmem : Event.stockCapture n k cs vs shown ∈ es) :
    ∃ c settings, s.request = .building c ∧ vs = (newFrame s c settings).vendorBuffers := by
  cases h with
  | plain a es hp => cases hp _ hmem
  | captured a n k c settings shown hq =>
    cases List.mem_singleton.mp hmem
    exact ⟨c, settings, hq, rfl⟩
  | refused => simp at hmem
  | unstored => simp at hmem
  | offered a c i handle token id hs r rest hq hrest =>
    simp only [List.mem_cons, reduceCtorEq, false_or] at hmem
    cases hrest _ hmem
  | configured => simp [destroyed] at hmem
  | closed r es rest hes hrest =>
    simp only [List.mem_append] at hmem
    rcases hmem with hmem | (hmem | hmem) | hmem
    · cases hes _ hmem
    · obtain ⟨_, _, heq⟩ := destroyed_events hmem
      cases heq
    · obtain ⟨_, _, heq⟩ := destroyed_events hmem
      cases heq
    · cases hrest _ hmem

/-- Three occasions to undo a registration. -/
theorem News.unregister {s : State} {a : Action} {es : List Event} (h : News s a es) {handle token : Nat}
    (hmem : Event.grallocUnregister handle token ∈ es) :
    (∃ answer, a = .configureStreams answer 0) ∨ (∃ r, a = .closeEnd r) ∨
      es = [.grallocRegister handle token 0, .grallocUnregister handle token,
        .returned .capture (-enomem)] := by
  cases h with
  | plain a es hp => cases hp _ hmem
  | captured => simp at hmem
  | refused => simp at hmem
  | unstored a handle' token' =>
    simp only [List.mem_cons, reduceCtorEq, false_or, Event.grallocUnregister.injEq,
      List.not_mem_nil, or_false] at hmem
    obtain ⟨rfl, rfl⟩ := hmem
    exact .inr (.inr rfl)
  | offered a c i handle' token' id hs r rest hq hrest =>
    simp only [List.mem_cons, reduceCtorEq, false_or] at hmem
    cases hrest _ hmem
  | configured answer ids => exact .inl ⟨answer, rfl⟩
  | closed r => exact .inr (.inl ⟨r, rfl⟩)

/-- Nothing is held after `close`. -/
theorem Reachable.emptied {s : State} (h : Reachable s) :
    s.request = .closed → s.streams = [] ∧ s.failedStreams = [] := by
  apply h.invariant fun s => s.request = .closed → s.streams = [] ∧ s.failedStreams = []
  · intro s hi hq
    rw [hi.request] at hq
    cases hq
  · intro s a t _ ih ht hq
    cases step_turn ht with
    | aside a t hs hr hf =>
      rw [hs.streams, hs.failedStreams]
      exact ih (hr ▸ hq)
    | rest a t hs hq' hr => exact absurd hq (Request.resting_spec hr).2.2
    | write p info hq' => exact ih hq
    | configure config alloc ptrs next hq' hf hne hb =>
      have hc := contacting_configuring s ptrs next
      rw [hq] at hc
      cases hc
    | restarted o next t hq' hs hr hf =>
      rw [hr] at hq
      cases hq
    | failed a next u t new r hq' hs hk hne heq =>
      subst heq
      cases hq
    | configured answer next hq' =>
      rw [configureStreams_success] at hq
      cases hq
    | capture request c new hq' hfatal hc =>
      dsimp only at hq
      split at hq <;> cases hq
    | drained timeout c hq' hf => cases hq
    | registering gralloc alloc stock c i t hq' hreg => cases hreg <;> cases hq
    | submit clone alloc c t hq' hsub =>
      obtain ⟨settings, shown, -, -, hrequest, -⟩ := hsub.spec
      rw [hrequest] at hq
      cases hq
    | closeEnd r hq' => exact ⟨rfl, rfl⟩

/-- Buffer registration agrees with the stock device and with gralloc. -/
theorem registration_agrees (s : State) (h : Reachable s) :
    (s.fatal = false → s.request = .idle →
      ∀ e ∈ s.streams, e.2.handles = registered s.log e.2.id) ∧
    (∀ a t es, step s a = some t → t.log = s.log ++ es →
      (∀ id hs r, Event.stockRegister id hs r ∈ es → s.frames = []) ∧
      (∀ n k cs vs shown, Event.stockCapture n k cs vs shown ∈ es → ∀ v ∈ vs, ∃ e ∈ s.streams,
        ∃ handle, v.stream = .legacy e.2.id ∧ v.buffer = some (.reference e.2.id handle) ∧
          handle ∈ registered s.log e.2.id) ∧
      (∀ handle token, Event.grallocUnregister handle token ∈ es →
        (∃ answer, a = .configureStreams answer 0) ∨ (∃ r, a = .closeEnd r) ∨
          es = [.grallocRegister handle token 0, .grallocUnregister handle token,
            .returned .capture (-enomem)])) ∧
    ((pins s.log).map fun e => e.2).Nodup ∧ (pins s.log).Perm (unpins s.log ++ live s) ∧
    (s.request = .closed → (pins s.log).Perm (unpins s.log)) := by
  have halign := h.aligned
  have hbal := h.balanced
  refine ⟨fun hf _ => halign.agrees (.inl hf), ?_, hbal.nodup, hbal.perm, ?_⟩
  · intro a t es ht hl
    obtain ⟨es', hes, hnews⟩ := (step_turn ht).news
    obtain rfl : es = es' := List.append_cancel_left (hl.symm.trans hes)
    refine ⟨?_, ?_, fun handle token => hnews.unregister⟩
    · intro id hs r hmem
      obtain ⟨c, i, hq⟩ := hnews.stockRegister hmem
      exact halign.quiet c i hq
    · intro n k cs vs shown hmem v hv
      obtain ⟨c, settings, hq, rfl⟩ := hnews.stockCapture hmem
      have hcap : s.request.capturing ≠ none := by
        rw [hq]
        simp [Request.capturing]
      exact newFrame_vendorBuffers settings (halign.agrees (.inr hcap)) (halign.ready c hq) hv
  · intro hq
    obtain ⟨hs, hf⟩ := h.emptied hq
    have hl : live s = [] := by simp [live, hs, hf, Assoc.values]
    have hp := hbal.perm
    rw [hl, List.append_nil] at hp
    exact hp

theorem preview_registration_agrees : ∃ s,
    Transition.run step (opened recorderClients []) (previewStart ++ previewCapture 5) = some s ∧
    s.streams.values.map Stream.handles = [[7]] ∧ pins s.log = [(7, 0)] ∧
    (∀ e ∈ s.streams, e.2.handles = registered s.log e.2.id) ∧
    (pins s.log).Perm (unpins s.log ++ live s) := by
  have hrun : (Transition.run step (opened recorderClients []) (previewStart ++ previewCapture 5)).map
      (fun s => (s.fatal, s.request, s.streams.values.map Stream.handles, pins s.log)) =
      some (false, .idle, [[7]], [(7, 0)]) := by decide +kernel
  obtain ⟨s, hs, hfacts⟩ := Option.map_eq_some_iff.mp hrun
  simp only [Prod.mk.injEq] at hfacts
  obtain ⟨hfatal, hq, hhandles, hpins⟩ := hfacts
  have hreach : Reachable s := (Transition.Reachable.start (opened_initial _ _)).run hs
  have hall := registration_agrees s hreach
  exact ⟨s, hs, hhandles, hpins, hall.1 hfatal hq, hall.2.2.2.1⟩

end Results

end Camera3
