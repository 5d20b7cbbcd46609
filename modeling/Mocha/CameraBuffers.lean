import Mathlib.Data.List.Nodup
import Mathlib.Data.List.Perm.Basic
import Mocha.CameraTraffic

/-!
# Output buffers and release fences

The books of the adapter: the requests the stock device was given, the results it
handed in, the records that went to the client or are about to, and the fences
that were closed. Every buffer is returned once and every fence has one fate.
-/
namespace Camera3

open CameraMetadata

section Projections

/-- A call of `process_capture_request`. -/
structure Capture where
  frame : Nat
  serial : Nat
  clientBuffers : List StreamBuffer
  vendorBuffers : List StreamBuffer
  deriving DecidableEq, Repr

def Event.captures : Event → List Capture
  | .stockCapture n k cs vs _ => [⟨n, k, cs, vs⟩]
  | _ => []

def Event.results : Event → List (Nat × StockResult)
  | .stockResult c r => [(c, r)]
  | _ => []

def Event.closed : Event → List Fence
  | .fenceClosed f => [f]
  | _ => []

/-- The buffer records of a call to the client, under its frame number. -/
def ClientCall.deliveries : ClientCall → List (Nat × Delivery)
  | .result n _ ds _ => ds.map fun d => (n, d)
  | .notify _ => []

def Event.deliveries : Event → List (Nat × Delivery)
  | .client _ c => c.deliveries
  | _ => []

def captures (log : List Event) : List Capture := log.flatMap Event.captures
def results (log : List Event) : List (Nat × StockResult) := log.flatMap Event.results
def closed (log : List Event) : List Fence := log.flatMap Event.closed
def delivered (log : List Event) : List (Nat × Delivery) := log.flatMap Event.deliveries

/-- The records that the running callback still has to pass on. -/
def Callback.pending : Callback → List (Nat × Delivery)
  | .idle => []
  | .delivering _ _ calls => calls.flatMap ClientCall.deliveries

def issued (s : State) : List (Nat × Delivery) := delivered s.log ++ s.callback.pending

/-- The release fence that a record carries to the client. -/
def Delivery.fence (d : Delivery) : List Fence :=
  if d.record.releaseFence ≥ 0 then [⟨d.callback, d.position, d.record.releaseFence⟩] else []

def passed (ds : List (Nat × Delivery)) : List Fence := ds.flatMap fun e => e.2.fence

def handed (rs : List (Nat × StockResult)) : List Fence :=
  rs.flatMap fun e => handedFences e.1 0 e.2.buffers

theorem Event.calm_projections {e : Event} (h : e.calm = true) :
    e.captures = [] ∧ e.results = [] ∧ e.closed = [] ∧ e.deliveries = [] := by
  cases e <;> simp_all [Event.calm, Event.captures, Event.results, Event.closed, Event.deliveries]

end Projections

section Fences

theorem handedFences_append (cb i : Nat) (as bs : List StockBuffer) :
    handedFences cb i (as ++ bs) = handedFences cb i as ++ handedFences cb (i + as.length) bs := by
  induction as generalizing i with
  | nil => simp [handedFences]
  | cons a as ih =>
    have hlen : i + (a :: as).length = i + 1 + as.length := by
      simp only [List.length_cons]
      omega
    simp only [List.cons_append, handedFences, ih (i + 1), hlen]
    split <;> simp

/-- The fence of one more buffer. -/
theorem handedFences_take_succ (cb : Nat) {bs : List StockBuffer} {i : Nat} {b : StockBuffer}
    (h : bs[i]? = some b) : handedFences cb 0 (bs.take (i + 1)) =
      handedFences cb 0 (bs.take i) ++ if b.releaseFence ≥ 0 then [⟨cb, i, b.releaseFence⟩] else [] := by
  have hlen : (bs.take i).length = i := by
    have hi := (List.getElem?_eq_some_iff.mp h).1
    simp only [List.length_take]
    omega
  rw [List.take_add_one, h, handedFences_append, hlen]
  simp only [Option.toList_some, Nat.zero_add, handedFences]

theorem mem_handedFences {cb i : Nat} {bs : List StockBuffer} {f : Fence}
    (h : f ∈ handedFences cb i bs) : f.callback = cb ∧ i ≤ f.position := by
  induction bs generalizing i with
  | nil => cases h
  | cons b bs ih =>
    have hrest : f ∈ handedFences cb (i + 1) bs → f.callback = cb ∧ i ≤ f.position := by
      intro hf
      obtain ⟨hc, hp⟩ := ih hf
      exact ⟨hc, by omega⟩
    rw [handedFences] at h
    split at h
    · rcases List.mem_cons.mp h with rfl | hf
      · exact ⟨rfl, le_rfl⟩
      · exact hrest hf
    · exact hrest h

theorem handedFences_nodup (cb i : Nat) (bs : List StockBuffer) : (handedFences cb i bs).Nodup := by
  induction bs generalizing i with
  | nil => exact List.nodup_nil
  | cons b bs ih =>
    rw [handedFences]
    split
    · refine List.nodup_cons.mpr ⟨?_, ih (i + 1)⟩
      intro hmem
      have hp := (mem_handedFences hmem).2
      dsimp only at hp
      omega
    · exact ih (i + 1)

/-- Callbacks are numbered, so no fence is handed in twice. -/
theorem handed_nodup {rs : List (Nat × StockResult)} (h : (rs.map fun e => e.1).Nodup) :
    (handed rs).Nodup := by
  refine List.nodup_flatMap.mpr ⟨fun e _ => handedFences_nodup e.1 0 e.2.buffers, ?_⟩
  refine (List.pairwise_map.mp h).imp ?_
  intro d e hne f hd he
  exact hne ((mem_handedFences hd).1.symm.trans (mem_handedFences he).1)

end Fences

section Returning

theorem matchBuffer_spec {f : Frame} {b : StockBuffer} {n : Nat} (h : matchBuffer f b = some n) :
    ∃ v, f.vendorBuffers[n]? = some v ∧ f.returned[n]? = some false ∧ b.stream = v.stream ∧
      b.buffer.isSome = true ∧ b.buffer = v.buffer.map HandlePtr.target := by
  obtain ⟨hn, hp, -⟩ := List.findIdx?_eq_some_iff_getElem.mp h
  have hz : n < f.vendorBuffers.length ∧ n < f.returned.length := by
    rw [List.length_zip] at hn
    omega
  simp only [List.getElem_zip, Bool.and_eq_true, decide_eq_true_eq, Bool.not_eq_true'] at hp
  obtain ⟨⟨⟨hs, hsome⟩, hb⟩, hr⟩ := hp
  exact ⟨_, List.getElem?_eq_getElem hz.1, by rw [List.getElem?_eq_getElem hz.2, hr], hs, hsome, hb⟩

/-- The record is what the client gave for that buffer, with the status and the release fence of
the stock buffer it answers. -/
structure Answers (n cb : Nat) (client vendor : List StreamBuffer) (r : StockResult) (d : Delivery) :
    Prop where
  frame : r.frame = n
  callback : d.callback = cb
  record : ∃ b v c, r.buffers[d.position]? = some b ∧ vendor[d.index]? = some v ∧
    b.stream = v.stream ∧ b.buffer.isSome = true ∧ b.buffer = v.buffer.map HandlePtr.target ∧
    client[d.index]? = some c ∧ d.record =
      { c with status := b.status, acquireFence := -1, releaseFence := b.releaseFence }

/-- The state of the loop over the buffers of a result, of which the first `i` are done. -/
structure Returns (cb : Nat) (f : Frame) (r : StockResult) (i : Nat) (d : Returning) : Prop where
  frame : d.frame = { f with returned := d.frame.returned, remaining := d.frame.remaining }
  length : d.frame.returned.length = f.returned.length
  remaining : d.frame.remaining = d.frame.returned.count false
  once : (d.output.map fun e => e.index).Nodup
  serial : ∀ e ∈ d.output, e.serial = f.serial
  fresh : ∀ e ∈ d.output, f.returned[e.index]? = some false
  returned : ∀ j, d.frame.returned[j]? = some true ↔
    f.returned[j]? = some true ∨ ∃ e ∈ d.output, e.index = j
  answers : ∀ e ∈ d.output, Answers r.frame cb f.clientBuffers f.vendorBuffers r e
  fences : (handedFences cb 0 (r.buffers.take i)).Perm
    (d.closed ++ d.output.flatMap Delivery.fence)

/-- One stock buffer is refused, or it returns a buffer that was still out. -/
theorem returnBuffer_cases (cb i : Nat) (d : Returning) (b : StockBuffer) :
    returnBuffer cb i d b = { d with
      closed := if b.releaseFence ≥ 0 then d.closed ++ [⟨cb, i, b.releaseFence⟩] else d.closed
      fatal := true } ∨
    ∃ n v c, d.frame.vendorBuffers[n]? = some v ∧ d.frame.returned[n]? = some false ∧
      b.stream = v.stream ∧ b.buffer.isSome = true ∧ b.buffer = v.buffer.map HandlePtr.target ∧
      d.frame.clientBuffers[n]? = some c ∧ returnBuffer cb i d b = { d with
        output := d.output ++ [⟨d.frame.serial, n, cb, i,
          { c with status := b.status, acquireFence := -1, releaseFence := b.releaseFence }⟩]
        frame := { d.frame with
          returned := d.frame.returned.set n true, remaining := d.frame.remaining - 1 } } := by
  unfold returnBuffer
  dsimp only
  split
  · exact .inl rfl
  · rename_i n hn
    split
    · exact .inl rfl
    · rename_i c hc
      obtain ⟨v, hv, hr, hs, hsome, hb⟩ := matchBuffer_spec hn
      exact .inr ⟨n, v, c, hv, hr, hs, hsome, hb, hc, rfl⟩

theorem count_set_true {l : List Bool} {n : Nat} (h : l[n]? = some false) :
    (l.set n true).count false + 1 = l.count false := by
  obtain ⟨hn, hv⟩ := List.getElem?_eq_some_iff.mp h
  have hpos : 0 < l.count false := List.count_pos_iff.mpr (hv ▸ List.getElem_mem hn)
  rw [List.count_set hn]
  simp only [hv, beq_self_eq_true, ↓reduceIte, Bool.true_beq, Bool.false_eq_true]
  omega

theorem Returns.refuse {cb : Nat} {f : Frame} {r : StockResult} {i : Nat} {d : Returning}
    (h : Returns cb f r i d) {b : StockBuffer} (hb : r.buffers[i]? = some b) :
    Returns cb f r (i + 1) { d with
      closed := if b.releaseFence ≥ 0 then d.closed ++ [⟨cb, i, b.releaseFence⟩] else d.closed
      fatal := true } := by
  refine ⟨h.frame, h.length, h.remaining, h.once, h.serial, h.fresh, h.returned, h.answers, ?_⟩
  rw [handedFences_take_succ cb hb]
  dsimp only
  split
  · have hperm := h.fences.append_right [⟨cb, i, b.releaseFence⟩]
    refine hperm.trans ?_
    simp only [List.append_assoc]
    exact List.perm_append_comm.append_left d.closed
  · simpa using h.fences

/-- A buffer that the frame counts as missing was missing before the result, and nothing in the
output stands for it. -/
theorem Returns.missing {cb : Nat} {f : Frame} {r : StockResult} {i : Nat} {d : Returning}
    (h : Returns cb f r i d) {n : Nat} (hr : d.frame.returned[n]? = some false) :
    (∀ e ∈ d.output, e.index ≠ n) ∧ f.returned[n]? = some false := by
  constructor
  · rintro e he rfl
    have ht := (h.returned e.index).mpr (.inr ⟨e, he, rfl⟩)
    rw [hr] at ht
    cases ht
  · have hn : n < f.returned.length := by
      rw [← h.length]
      exact (List.getElem?_eq_some_iff.mp hr).1
    cases hv : f.returned[n] with
    | false => rw [List.getElem?_eq_getElem hn, hv]
    | true =>
      have ht := (h.returned n).mpr (.inl (by rw [List.getElem?_eq_getElem hn, hv]))
      rw [hr] at ht
      cases ht

theorem Returns.accept {cb : Nat} {f : Frame} {r : StockResult} {i : Nat} {d : Returning}
    (h : Returns cb f r i d) {b : StockBuffer} (hb : r.buffers[i]? = some b) {n : Nat}
    {v c : StreamBuffer} (hv : f.vendorBuffers[n]? = some v) (hr : d.frame.returned[n]? = some false)
    (hs : b.stream = v.stream) (hsome : b.buffer.isSome = true)
    (hbuf : b.buffer = v.buffer.map HandlePtr.target) (hc : f.clientBuffers[n]? = some c) :
    Returns cb f r (i + 1) { d with
      output := d.output ++ [⟨f.serial, n, cb, i,
        { c with status := b.status, acquireFence := -1, releaseFence := b.releaseFence }⟩]
      frame := { d.frame with
        returned := d.frame.returned.set n true, remaining := d.frame.remaining - 1 } } := by
  obtain ⟨hout, hfresh⟩ := h.missing hr
  have hframe := h.frame
  refine ⟨?_, ?_, ?_, ?_, ?_, ?_, ?_, ?_, ?_⟩
  · rw [hframe]
  · simpa using h.length
  · have hcount := count_set_true hr
    have hrem := h.remaining
    dsimp only
    omega
  · simp only [List.map_append, List.map_cons, List.map_nil]
    refine List.nodup_append.mpr ⟨h.once, List.nodup_singleton _, ?_⟩
    intro j hj k hk
    obtain ⟨e, he, rfl⟩ := List.mem_map.mp hj
    rw [List.mem_singleton.mp hk]
    exact hout e he
  · intro e he
    rcases List.mem_append.mp he with he | he
    · exact h.serial e he
    · rw [List.mem_singleton.mp he]
  · intro e he
    rcases List.mem_append.mp he with he | he
    · exact h.fresh e he
    · rw [List.mem_singleton.mp he]
      exact hfresh
  · intro j
    have hn := (List.getElem?_eq_some_iff.mp hr).1
    by_cases hj : n = j
    · subst hj
      simp [hn]
    · have hold := h.returned j
      simp only [List.getElem?_set_ne hj, List.mem_append, List.mem_singleton]
      rw [hold]
      constructor
      · rintro (hf | ⟨e, he, hej⟩)
        · exact .inl hf
        · exact .inr ⟨e, .inl he, hej⟩
      · rintro (hf | ⟨e, he | rfl, hej⟩)
        · exact .inl hf
        · exact .inr ⟨e, he, hej⟩
        · exact absurd hej hj
  · intro e he
    rcases List.mem_append.mp he with he | he
    · exact h.answers e he
    · rw [List.mem_singleton.mp he]
      exact ⟨rfl, rfl, b, v, c, hb, hv, hs, hsome, hbuf, hc, rfl⟩
  · rw [handedFences_take_succ cb hb]
    simp only [List.flatMap_append, List.flatMap_cons, List.flatMap_nil, List.append_nil]
    rw [← List.append_assoc]
    exact h.fences.append (List.Perm.refl _)

theorem Returns.step {cb : Nat} {f : Frame} {r : StockResult} {i : Nat} {d : Returning}
    (h : Returns cb f r i d) {b : StockBuffer} (hb : r.buffers[i]? = some b) :
    Returns cb f r (i + 1) (returnBuffer cb i d b) := by
  rcases returnBuffer_cases cb i d b with heq | ⟨n, v, c, hv, hr, hs, hsome, hbuf, hc, heq⟩
  · rw [heq]
    exact h.refuse hb
  · have hframe := h.frame
    have hvendor : d.frame.vendorBuffers = f.vendorBuffers := by rw [hframe]
    have hclient : d.frame.clientBuffers = f.clientBuffers := by rw [hframe]
    have hserial : d.frame.serial = f.serial := by rw [hframe]
    rw [heq, hserial]
    exact h.accept hb (hvendor ▸ hv) hr hs hsome hbuf (hclient ▸ hc)

theorem Returns.run {cb : Nat} {f : Frame} {r : StockResult} {i : Nat} {d : Returning}
    {bs : List StockBuffer} (h : Returns cb f r i d) (hbs : r.buffers.drop i = bs) :
    Returns cb f r r.buffers.length (returnBuffers cb i d bs) := by
  induction bs generalizing i d with
  | nil =>
    have hlen : r.buffers.length ≤ i := List.drop_eq_nil_iff.mp hbs
    have hf := h.fences
    rw [List.take_of_length_le hlen] at hf
    rw [returnBuffers]
    refine ⟨h.frame, h.length, h.remaining, h.once, h.serial, h.fresh, h.returned, h.answers, ?_⟩
    rw [List.take_length]
    exact hf
  | cons b bs ih =>
    have hb : r.buffers[i]? = some b := by
      have hhead := congrArg (fun l => l[0]?) hbs
      simpa using hhead
    have hrest : r.buffers.drop (i + 1) = bs := by
      have htail := congrArg List.tail hbs
      simpa using htail
    rw [returnBuffers]
    exact ih (h.step hb) hrest

/-- The loop of `result`, from a frame whose count is right. -/
theorem returnBuffers_spec (cb : Nat) (f : Frame) (r : StockResult)
    (h : f.remaining = f.returned.count false) :
    Returns cb f r r.buffers.length (returnBuffers cb 0 ⟨f, [], [], false⟩ r.buffers) := by
  have hstart : Returns cb f r 0 ⟨f, [], [], false⟩ := by
    refine ⟨rfl, rfl, h, List.nodup_nil, ?_, ?_, ?_, ?_, List.Perm.refl _⟩
    · intro e he
      cases he
    · intro e he
      cases he
    · intro j
      simp
    · intro e he
      cases he
  exact hstart.run rfl

end Returning

section Books

structure Books where
  frames : FrameMap
  nextFrame : Nat
  callbacks : Nat
  captures : List Capture
  results : List (Nat × StockResult)
  issued : List (Nat × Delivery)
  closed : List Fence

def books (s : State) : Books :=
  ⟨s.frames, s.nextFrame, s.callbacks, captures s.log, results s.log, issued s, closed s.log⟩

/-- The frame has its request in the books, and it counts its own buffers. -/
structure FrameOk (b : Books) (n : Nat) (f : Frame) : Prop where
  capture : ⟨n, f.serial, f.clientBuffers, f.vendorBuffers⟩ ∈ b.captures
  length : f.returned.length = f.clientBuffers.length
  remaining : f.remaining = f.returned.count false
  returned : ∀ i, f.returned[i]? = some true ↔
    ∃ e ∈ b.issued, e.2.serial = f.serial ∧ e.2.index = i

/-- The record of a delivery goes back to a request and a stock result. -/
def Returned (captures : List Capture) (results : List (Nat × StockResult)) (n : Nat) (d : Delivery) :
    Prop :=
  ∃ c ∈ captures, c.serial = d.serial ∧ c.frame = n ∧ ∃ e ∈ results,
    Answers n e.1 c.clientBuffers c.vendorBuffers e.2 d

structure Books.Ok (b : Books) : Prop where
  keys : b.frames.keys.Nodup
  serials : (b.captures.map fun c => c.serial).Nodup
  serialBound : ∀ c ∈ b.captures, c.serial < b.nextFrame
  numbers : (b.results.map fun e => e.1).Nodup
  numberBound : ∀ e ∈ b.results, e.1 < b.callbacks
  frame : ∀ e ∈ b.frames, FrameOk b e.1 e.2
  once : (b.issued.map fun e => (e.2.serial, e.2.index)).Nodup
  returned : ∀ e ∈ b.issued, Returned b.captures b.results e.1 e.2
  fences : (handed b.results).Perm (b.closed ++ passed b.issued)

/-- Requests in flight have different serials. -/
theorem Books.Ok.serial_inj {b : Books} (h : b.Ok) {d e : Nat × Frame} (hd : d ∈ b.frames)
    (he : e ∈ b.frames) (hs : d.2.serial = e.2.serial) : d = e := by
  have hc := List.inj_on_of_nodup_map h.serials (h.frame d hd).capture (h.frame e he).capture hs
  have hn : d.1 = e.1 := congrArg Capture.frame hc
  exact Assoc.eq_of_mem h.keys hd he hn

/-- Removing frames keeps the books. -/
theorem Books.Ok.drop {b : Books} (h : b.Ok) {frames : FrameMap} (hf : frames.Sublist b.frames) :
    Books.Ok { b with frames := frames } := by
  refine ⟨h.keys.sublist (hf.map _), h.serials, h.serialBound, h.numbers, h.numberBound, ?_, h.once,
    h.returned, h.fences⟩
  intro e he
  have hok := h.frame e (hf.subset he)
  exact ⟨hok.capture, hok.length, hok.remaining, hok.returned⟩

/-- Two frames that agree about their buffers. -/
structure SameBuffers (f g : Frame) : Prop where
  serial : g.serial = f.serial
  clientBuffers : g.clientBuffers = f.clientBuffers
  vendorBuffers : g.vendorBuffers = f.vendorBuffers
  returned : g.returned = f.returned
  remaining : g.remaining = f.remaining

theorem FrameOk.same {b : Books} {n : Nat} {f g : Frame} (h : FrameOk b n f) (hg : SameBuffers f g) :
    FrameOk b n g := by
  obtain ⟨hs, hc, hv, hr, hm⟩ := hg
  refine ⟨?_, ?_, ?_, ?_⟩
  · rw [hs, hc, hv]
    exact h.capture
  · rw [hr, hc]
    exact h.length
  · rw [hr, hm]
    exact h.remaining
  · rw [hr, hs]
    exact h.returned

/-- So does a change of a frame that is not about its buffers. -/
theorem Books.Ok.touch {b : Books} (h : b.Ok) {n : Nat} {f g : Frame} (hn : (n, f) ∈ b.frames)
    (hg : SameBuffers f g) : Books.Ok { b with frames := b.frames.adjust n fun _ => g } := by
  have hframe : ∀ e ∈ b.frames.adjust n fun _ => g, FrameOk b e.1 e.2 := by
    intro e he
    rcases Assoc.mem_adjust.mp he with ⟨he, -⟩ | ⟨_, _, rfl⟩
    · exact h.frame e he
    · exact (h.frame _ hn).same hg
  refine ⟨by simpa using h.keys, h.serials, h.serialBound, h.numbers, h.numberBound, ?_, h.once,
    h.returned, h.fences⟩
  intro e he
  have hok := hframe e he
  exact ⟨hok.capture, hok.length, hok.remaining, hok.returned⟩

theorem Returned.mono {cs ds : List Capture} {rs qs : List (Nat × StockResult)} {n : Nat} {d : Delivery}
    (h : Returned cs rs n d) (hc : cs ⊆ ds) (hr : rs ⊆ qs) : Returned ds qs n d := by
  obtain ⟨c, hmem, hs, hn, e, he, ha⟩ := h
  exact ⟨c, hc hmem, hs, hn, e, hr he, ha⟩

theorem Books.Ok.issued_bound {b : Books} (h : b.Ok) {e : Nat × Delivery} (he : e ∈ b.issued) :
    e.2.serial < b.nextFrame := by
  obtain ⟨c, hc, hs, -⟩ := h.returned e he
  rw [← hs]
  exact h.serialBound c hc

/-- A new request. -/
theorem Books.Ok.submit {b : Books} (h : b.Ok) {n : Nat} {f : Frame} (hn : n ∉ b.frames.keys)
    (hs : f.serial = b.nextFrame) (hr : f.returned = List.replicate f.clientBuffers.length false)
    (hm : f.remaining = f.clientBuffers.length) :
    Books.Ok { b with
      frames := b.frames ++ [(n, f)], nextFrame := b.nextFrame + 1
      captures := b.captures ++ [⟨n, f.serial, f.clientBuffers, f.vendorBuffers⟩] } := by
  refine ⟨?_, ?_, ?_, h.numbers, h.numberBound, ?_, h.once, ?_, h.fences⟩
  · dsimp only
    rw [Assoc.keys_append]
    refine List.nodup_append.mpr ⟨h.keys, List.nodup_singleton _, ?_⟩
    rintro k hk m hm rfl
    rw [List.mem_singleton.mp hm] at hk
    exact hn hk
  · dsimp only
    rw [List.map_append]
    refine List.nodup_append.mpr ⟨h.serials, List.nodup_singleton _, ?_⟩
    rintro k hk m hm rfl
    obtain ⟨c, hc, hck⟩ := List.mem_map.mp hk
    have hlt := h.serialBound c hc
    have hkm : k = f.serial := List.mem_singleton.mp hm
    omega
  · intro c hc
    rcases List.mem_append.mp hc with hc | hc
    · have hlt := h.serialBound c hc
      exact Nat.lt_succ_of_lt hlt
    · rw [List.mem_singleton.mp hc]
      dsimp only
      omega
  · intro e he
    rcases List.mem_append.mp he with he | he
    · have hok := h.frame e he
      exact ⟨List.mem_append_left _ hok.capture, hok.length, hok.remaining, hok.returned⟩
    · rw [List.mem_singleton.mp he]
      refine ⟨List.mem_append_right _ (List.mem_singleton_self _), by simp [hr], by simp [hr, hm], ?_⟩
      intro i
      constructor
      · intro hi
        rw [hr, List.getElem?_replicate] at hi
        split at hi <;> cases hi
      · rintro ⟨e, hei, hes, -⟩
        have hlt := h.issued_bound hei
        dsimp only at hes
        omega
  · intro e he
    exact (h.returned e he).mono (List.subset_append_left _ _) (List.Subset.refl _)

/-- Results are numbered in the order of their callbacks. -/
theorem Books.Ok.numbered {b : Books} (h : b.Ok) (r : StockResult) :
    ((b.results ++ [(b.callbacks, r)]).map fun e => e.1).Nodup ∧
      ∀ e ∈ b.results ++ [(b.callbacks, r)], e.1 < b.callbacks + 1 := by
  constructor
  · rw [List.map_append]
    refine List.nodup_append.mpr ⟨h.numbers, List.nodup_singleton _, ?_⟩
    rintro k hk m hm rfl
    obtain ⟨e, he, hek⟩ := List.mem_map.mp hk
    have hlt := h.numberBound e he
    have hkm : k = b.callbacks := List.mem_singleton.mp hm
    omega
  · intro e he
    rcases List.mem_append.mp he with he | he
    · exact Nat.lt_succ_of_lt (h.numberBound e he)
    · rw [List.mem_singleton.mp he]
      exact Nat.lt_succ_self _

/-- New fences, of which some are closed and the others passed on. -/
theorem Books.Ok.fences_append {b : Books} (h : b.Ok) {r : StockResult} {shut : List Fence}
    {out : List (Nat × Delivery)}
    (hp : (handedFences b.callbacks 0 r.buffers).Perm (shut ++ passed out)) :
    (handed (b.results ++ [(b.callbacks, r)])).Perm ((b.closed ++ shut) ++ passed (b.issued ++ out)) := by
  have hsplit : handed (b.results ++ [(b.callbacks, r)]) =
      handed b.results ++ handedFences b.callbacks 0 r.buffers := by simp [handed]
  have hpassed : passed (b.issued ++ out) = passed b.issued ++ passed out := by simp [passed]
  rw [hsplit, hpassed]
  refine (h.fences.append hp).trans ?_
  rw [List.append_assoc, List.append_assoc]
  exact (List.perm_append_comm_assoc _ _ _).append_left _

/-- A result for no frame in flight: its fences are closed. -/
theorem Books.Ok.unknown {b : Books} (h : b.Ok) (r : StockResult) :
    Books.Ok { b with
      callbacks := b.callbacks + 1, results := b.results ++ [(b.callbacks, r)]
      closed := b.closed ++ handedFences b.callbacks 0 r.buffers } := by
  obtain ⟨hnodup, hbound⟩ := h.numbered r
  refine ⟨h.keys, h.serials, h.serialBound, hnodup, hbound, ?_, h.once, ?_, ?_⟩
  · intro e he
    have hok := h.frame e he
    exact ⟨hok.capture, hok.length, hok.remaining, hok.returned⟩
  · intro e he
    exact (h.returned e he).mono (List.Subset.refl _) (List.subset_append_left _ _)
  · have hp : (handedFences b.callbacks 0 r.buffers).Perm
        (handedFences b.callbacks 0 r.buffers ++ passed []) := by simp [passed]
    have hf := h.fences_append hp
    rw [List.append_nil] at hf
    exact hf

/-- Deliveries for other requests change nothing about a frame. -/
theorem FrameOk.other {b : Books} {n : Nat} {f : Frame} (h : FrameOk b n f) {out : List (Nat × Delivery)}
    (hout : ∀ x ∈ out, x.2.serial ≠ f.serial) :
    FrameOk { b with issued := b.issued ++ out } n f := by
  refine ⟨h.capture, h.length, h.remaining, ?_⟩
  intro i
  rw [h.returned i]
  constructor
  · rintro ⟨x, hx, hxs⟩
    exact ⟨x, List.mem_append_left _ hx, hxs⟩
  · rintro ⟨x, hx, hxs, hxi⟩
    rcases List.mem_append.mp hx with hx | hx
    · exact ⟨x, hx, hxs, hxi⟩
    · exact absurd hxs (hout x hx)

/-- The frame after a stock result has marked what was issued. -/
theorem FrameOk.answered {b : Books} {n k : Nat} {g : Frame} {r : StockResult} {d : Returning}
    (h : FrameOk b n g) (hd : Returns b.callbacks g r k d) :
    FrameOk { b with issued := b.issued ++ d.output.map fun e => (n, e) } n d.frame := by
  rw [hd.frame]
  refine ⟨h.capture, hd.length.trans h.length, hd.remaining, ?_⟩
  intro i
  dsimp only
  rw [hd.returned i, h.returned i]
  constructor
  · rintro (⟨x, hx, hxs⟩ | ⟨y, hy, hyi⟩)
    · exact ⟨x, List.mem_append_left _ hx, hxs⟩
    · exact ⟨(n, y), List.mem_append_right _ (List.mem_map_of_mem hy), hd.serial y hy, hyi⟩
  · rintro ⟨x, hx, hxs, hxi⟩
    rcases List.mem_append.mp hx with hx | hx
    · exact .inl ⟨x, hx, hxs, hxi⟩
    · obtain ⟨y, hy, rfl⟩ := List.mem_map.mp hx
      exact .inr ⟨y, hy, hxi⟩

/-- What a stock result adds was never issued before: its frame still counted it as missing. -/
theorem FrameOk.once {b : Books} {n k : Nat} {g : Frame} {r : StockResult} {d : Returning}
    (h : FrameOk b n g) (hd : Returns b.callbacks g r k d)
    (honce : (b.issued.map fun e => (e.2.serial, e.2.index)).Nodup) :
    ((b.issued ++ d.output.map fun e => (n, e)).map fun e => (e.2.serial, e.2.index)).Nodup := by
  rw [List.map_append, List.map_map]
  refine List.nodup_append.mpr ⟨honce, ?_, ?_⟩
  · have hmap : d.output.map ((fun e : Nat × Delivery => (e.2.serial, e.2.index)) ∘ fun e => (n, e)) =
        (d.output.map fun e => e.index).map fun i => (g.serial, i) := by
      rw [List.map_map]
      apply List.map_congr_left
      intro e he
      simp [hd.serial e he]
    rw [hmap]
    exact hd.once.map fun i j hij => (Prod.mk.inj hij).2
  · rintro p hp q hq rfl
    obtain ⟨x, hx, hxp⟩ := List.mem_map.mp hp
    obtain ⟨y, hy, hyp⟩ := List.mem_map.mp hq
    obtain ⟨hs, hi⟩ := Prod.mk.inj (hxp.trans hyp.symm)
    have hserial : x.2.serial = g.serial := hs.trans (hd.serial y hy)
    have htrue := (h.returned y.index).mpr ⟨x, hx, hserial, hi⟩
    have hfalse := hd.fresh y hy
    rw [htrue] at hfalse
    cases hfalse

/-- A result for a frame in flight. -/
theorem Books.Ok.result {b : Books} (h : b.Ok) {n : Nat} {f g : Frame} {r : StockResult} {d : Returning}
    (hn : (n, f) ∈ b.frames) (hg : SameBuffers f g) (hr : r.frame = n)
    (hd : Returns b.callbacks g r r.buffers.length d) :
    Books.Ok { b with
      frames := b.frames.adjust n fun _ => d.frame
      callbacks := b.callbacks + 1, results := b.results ++ [(b.callbacks, r)]
      issued := b.issued ++ d.output.map fun e => (n, e)
      closed := b.closed ++ d.closed } := by
  obtain ⟨hnodup, hbound⟩ := h.numbered r
  have hok : FrameOk b n g := (h.frame _ hn).same hg
  have hframe : ∀ e ∈ b.frames.adjust n fun _ => d.frame, FrameOk { b with
      issued := b.issued ++ d.output.map fun e => (n, e) } e.1 e.2 := by
    intro e he
    rcases Assoc.mem_adjust.mp he with ⟨he, hne⟩ | ⟨_, _, rfl⟩
    · apply (h.frame e he).other
      intro x hx hxs
      obtain ⟨y, hy, rfl⟩ := List.mem_map.mp hx
      have hserial : f.serial = e.2.serial := hg.serial.symm.trans ((hd.serial y hy).symm.trans hxs)
      exact hne (congrArg Prod.fst (h.serial_inj hn he hserial)).symm
    · exact hok.answered hd
  refine ⟨by simpa using h.keys, h.serials, h.serialBound, hnodup, hbound, ?_, hok.once hd h.once, ?_, ?_⟩
  · intro e he
    have hfr := hframe e he
    exact ⟨hfr.capture, hfr.length, hfr.remaining, hfr.returned⟩
  · intro e he
    rcases List.mem_append.mp he with he | he
    · exact (h.returned e he).mono (List.Subset.refl _) (List.subset_append_left _ _)
    · obtain ⟨y, hy, rfl⟩ := List.mem_map.mp he
      have ha := hd.answers y hy
      rw [hr] at ha
      exact ⟨_, hok.capture, (hd.serial y hy).symm, rfl, (b.callbacks, r),
        List.mem_append_right _ (List.mem_singleton_self _), ha⟩
  · apply h.fences_append
    have hf := hd.fences
    rw [List.take_length] at hf
    have hout : passed (d.output.map fun e => (n, e)) = d.output.flatMap Delivery.fence := by
      simp [passed, List.flatMap_map]
    rw [hout]
    exact hf

end Books

section Runs

theorem append_calm {β : Type} (f : Event → List β) (log : List Event) {es : List Event}
    (h : ∀ e ∈ es, f e = []) : (log ++ es).flatMap f = log.flatMap f := by
  rw [List.flatMap_append, List.flatMap_eq_nil_iff.mpr h, List.append_nil]

/-- The four projections of a log do not see calm events. -/
theorem projections_calm (log : List Event) {es : List Event} (h : ∀ e ∈ es, e.calm = true) :
    captures (log ++ es) = captures log ∧ results (log ++ es) = results log ∧
      closed (log ++ es) = closed log ∧ delivered (log ++ es) = delivered log := by
  refine ⟨append_calm _ _ ?_, append_calm _ _ ?_, append_calm _ _ ?_, append_calm _ _ ?_⟩
  · exact fun e he => (Event.calm_projections (h e he)).1
  · exact fun e he => (Event.calm_projections (h e he)).2.1
  · exact fun e he => (Event.calm_projections (h e he)).2.2.1
  · exact fun e he => (Event.calm_projections (h e he)).2.2.2

theorem Calm.books {s t : State} (h : Calm s t) : books t = books s := by
  obtain ⟨es, hes, hcalm⟩ := h.log
  obtain ⟨hc, hr, hcl, hd⟩ := projections_calm s.log hcalm
  simp only [Camera3.books, issued, h.frames, h.nextFrame, h.callbacks, h.callback, hes, hc, hr, hcl, hd]

theorem resultMetadata_same (alloc : Allocations) (f : Frame) (m : Option Metadata) :
    SameBuffers f (resultMetadata alloc f m).1 := by
  unfold resultMetadata
  split
  · exact ⟨rfl, rfl, rfl, rfl, rfl⟩
  · split
    · exact ⟨rfl, rfl, rfl, rfl, rfl⟩
    · split
      · exact ⟨rfl, rfl, rfl, rfl, rfl⟩
      · exact ⟨rfl, rfl, rfl, rfl, rfl⟩

theorem notifyFrame_same (f : Frame) (m : Message) : SameBuffers f (notifyFrame f m) := by
  cases m <;> exact ⟨rfl, rfl, rfl, rfl, rfl⟩

theorem resultCalls_deliveries (n : Nat) (metadata : Option Metadata) (error : Bool)
    (output : List Delivery) :
    (resultCalls n metadata error output).flatMap ClientCall.deliveries =
      output.map fun d => (n, d) := by
  have herr : (if error then [ClientCall.notify (.error n .result .null)] else []).flatMap
      ClientCall.deliveries = [] := by
    split <;> rfl
  simp only [resultCalls, List.flatMap_append, herr, List.nil_append]
  split
  · simp [ClientCall.deliveries]
  · rename_i hnone
    have hempty : output = [] := by
      by_contra hne
      exact hnone (by simp [hne])
    simp [hempty]

/-- The projections of what a stock result logs. -/
theorem projections_result (log : List Event) (c : Nat) (r : StockResult) (fs : List Fence) :
    captures (log ++ (.stockResult c r :: fs.map .fenceClosed)) = captures log ∧
      results (log ++ (.stockResult c r :: fs.map .fenceClosed)) = results log ++ [(c, r)] ∧
      closed (log ++ (.stockResult c r :: fs.map .fenceClosed)) = closed log ++ fs ∧
      delivered (log ++ (.stockResult c r :: fs.map .fenceClosed)) = delivered log := by
  simp [captures, results, closed, delivered, Event.captures, Event.results, Event.closed,
    Event.deliveries, List.flatMap_map]

theorem stockResult_books {s : State} {r : StockResult} (alloc : Allocations) (h : (books s).Ok)
    (hc : s.callback = .idle) : (books (stockResult s r alloc)).Ok := by
  have hissued : issued s = delivered s.log := by simp [issued, hc, Callback.pending]
  cases hg : s.frames.get r.frame with
  | none =>
    obtain ⟨hcap, hres, hclo, hdel⟩ :=
      projections_result s.log s.callbacks r (handedFences s.callbacks 0 r.buffers)
    have hb : books (stockResult s r alloc) = { books s with
        callbacks := s.callbacks + 1, results := results s.log ++ [(s.callbacks, r)]
        closed := closed s.log ++ handedFences s.callbacks 0 r.buffers } := by
      rw [stockResult_unknown alloc hg]
      simp only [books, issued, hcap, hres, hclo, hdel]
    rw [hb]
    exact h.unknown r
  | some f =>
    obtain ⟨hcap, hres, hclo, hdel⟩ :=
      projections_result s.log s.callbacks r (returning s r alloc f).closed
    have hb : books (stockResult s r alloc) = { books s with
        frames := s.frames.adjust r.frame fun _ => (returning s r alloc f).frame
        callbacks := s.callbacks + 1, results := results s.log ++ [(s.callbacks, r)]
        issued := issued s ++ (returning s r alloc f).output.map fun d => (r.frame, d)
        closed := closed s.log ++ (returning s r alloc f).closed } := by
      rw [stockResult_known alloc hg, hissued]
      simp only [books, issued, hcap, hres, hclo, hdel, Callback.pending, resultCalls_deliveries]
    have hmem : (r.frame, f) ∈ s.frames := Assoc.mem_of_get hg
    have hsame := resultMetadata_same alloc f r.metadata
    have hcount := ((h.frame _ hmem).same hsame).remaining
    rw [hb]
    exact h.result hmem hsame rfl (returnBuffers_spec s.callbacks _ r hcount)

theorem stockNotify_books {s : State} (m : Message) (h : (books s).Ok) (hc : s.callback = .idle) :
    (books (stockNotify s m)).Ok := by
  have hissued : issued s = delivered s.log := by simp [issued, hc, Callback.pending]
  have hb : books (stockNotify s m) = { books s with frames := (stockNotify s m).frames } := by
    simp only [books, hissued]
    simp [stockNotify, issued, Callback.pending, ClientCall.deliveries]
  rw [hb]
  unfold stockNotify
  dsimp only
  split
  · rename_i n f hl
    exact h.touch (Assoc.mem_of_get (lookup_some hl).2) (notifyFrame_same f m)
  · exact h

theorem submit_books {s t : State} {c : Capturing} (h : (books s).Ok) (hadm : Admitted s c)
    (hsub : Submitted s c t) : (books t).Ok := by
  obtain ⟨af, ae, last, settings, rfl⟩ := hsub
  have hfree := (Assoc.get_eq_none_iff _ _).mp hadm.free
  have hs := h.submit (f := newFrame s c settings) hfree rfl rfl rfl
  have hb : books (submit { s with afTriggerId := af, aeTriggerId := ae, lastSettings := last } c
      settings) = { books s with
        frames := s.frames ++ [(c.request.frameNumber, newFrame s c settings)]
        nextFrame := s.nextFrame + 1
        captures := captures s.log ++ [⟨c.request.frameNumber, s.nextFrame, c.buffers,
          (newFrame s c settings).vendorBuffers⟩] } := by
    simp [books, submit, State.record, issued, captures, results, closed, delivered, Event.captures,
      Event.results, Event.closed, Event.deliveries, newFrame]
  rw [hb]
  exact hs

theorem captureAnswered_books {s : State} (n k : Nat) (r : Int) (h : (books s).Ok) :
    (books (captureAnswered s n k r)).Ok := by
  have hb : books (captureAnswered s n k r) = { books s with
      frames := (captureAnswered s n k r).frames } := by
    simp [books, captureAnswered, State.finish, State.record, issued, captures, results, closed,
      delivered, Event.captures, Event.results, Event.closed, Event.deliveries]
  rw [hb]
  apply h.drop
  simp only [captureAnswered, State.finish, State.record]
  split
  · exact List.filter_sublist
  · exact List.Sublist.refl _

/-- A client call moves its records from the callback to the log. -/
theorem deliver_books {s : State} {frame owner : Option Nat} {c : ClientCall} {calls : List ClientCall}
    (hc : s.callback = .delivering frame owner (c :: calls)) :
    books ({ s with callback := .delivering frame owner calls }.record [.client owner c]) = books s := by
  simp [books, State.record, issued, hc, Callback.pending, captures, results, closed, delivered,
    Event.captures, Event.results, Event.closed, Event.deliveries]

theorem retire_books {s : State} {frame owner : Option Nat} (h : (books s).Ok)
    (hc : s.callback = .delivering frame owner []) : (books (retire s frame)).Ok := by
  have hb : books (retire s frame) = { books s with frames := (retire s frame).frames } := by
    simp [books, retire, issued, hc, Callback.pending]
  rw [hb]
  apply h.drop
  rcases retire_frames s frame with ⟨hf, -⟩ | ⟨n, f, -, -, -, hf⟩
  · rw [hf]
    exact List.Sublist.refl _
  · rw [hf]
    exact List.filter_sublist

theorem Traffic.books_ok {s t : State} {a : Action} (ht : Traffic s a t) (hp : Prepared s)
    (h : (books s).Ok) : (books t).Ok := by
  cases ht with
  | calm a t hc =>
    rw [hc.books]
    exact h
  | submit clone alloc c t hq hsub =>
    have hcap : s.request.capturing = some c := by rw [hq]; rfl
    exact submit_books h (hp c hcap) hsub
  | answer r n k hq => exact captureAnswered_books n k r h
  | closeEnd r t hq hr hf hc hn hs hl =>
    obtain ⟨es, hes, hcalm⟩ := hl
    obtain ⟨hcap, hres, hclo, hdel⟩ := projections_calm s.log hcalm
    have hb : books t = { books s with frames := [] } := by
      simp only [books, issued, hf, hn, hs, hc, hes, hcap, hres, hclo, hdel]
    rw [hb]
    exact h.drop (List.nil_sublist _)
  | result r alloc hc hq => exact stockResult_books alloc h hc
  | notify m hc hq => exact stockNotify_books m h hc
  | deliver frame owner c calls hc =>
    rw [deliver_books hc]
    exact h
  | retire frame owner hc => exact retire_books h hc

theorem initial_books {s : State} (h : Initial s) : (books s).Ok := by
  have hb : books s = ⟨[], 0, 0, [], [], [], []⟩ := by
    simp [books, issued, h.frames, h.counters, h.log, h.callback, Callback.pending, captures, results,
      closed, delivered, Event.captures, Event.results, Event.closed, Event.deliveries]
  rw [hb]
  refine ⟨List.nodup_nil, List.nodup_nil, ?_, List.nodup_nil, ?_, ?_, List.nodup_nil, ?_, List.Perm.refl _⟩
  all_goals
    intro e he
    cases he

theorem Reachable.books_ok {s : State} (h : Reachable s) : (books s).Ok := by
  apply h.invariant fun s => (books s).Ok
  · intro s hi
    exact initial_books hi
  · intro s a t hs hok ht
    exact (step_traffic ht).books_ok (Reachable.prepared hs) hok

/-- In every reachable state every buffer of a request was issued to the client once at most, as the
client's own record with the status and fence of a stock buffer for it; the frames count what is
missing; and every release fence of a stock result is closed or passed on, once. -/
theorem buffers_returned_once (s : State) (h : Reachable s) :
    ((captures s.log).map fun c => c.serial).Nodup ∧
    ((issued s).map fun e => (e.2.serial, e.2.index)).Nodup ∧
    (∀ e ∈ issued s, Returned (captures s.log) (results s.log) e.1 e.2) ∧
    (∀ e ∈ s.frames, e.2.remaining = e.2.returned.count false ∧
      e.2.returned.length = e.2.clientBuffers.length) ∧
    (handed (results s.log)).Nodup ∧
    (handed (results s.log)).Perm (closed s.log ++ passed (issued s)) ∧
    (s.callback = .idle → issued s = delivered s.log) := by
  have hok := h.books_ok
  refine ⟨hok.serials, hok.once, hok.returned, ?_, handed_nodup hok.numbers, hok.fences, ?_⟩
  · intro e he
    exact ⟨(hok.frame e he).remaining, (hok.frame e he).length⟩
  · intro hc
    simp [issued, hc, Callback.pending]

/-- One buffer for which the stock device hands in two results, the second of them refused. -/
def returnedTwice : Option State :=
  Transition.run step (opened recorderClients []) (previewStart ++ previewCapture 5 ++
    [.result ⟨5, none, [⟨.legacy 0, some 7, 0, 11⟩, ⟨.legacy 0, some 7, 0, 12⟩]⟩ [], .deliver, .retire])

theorem preview_buffer_returned_once : ∃ s, returnedTwice = some s ∧
    (delivered s.log).map (fun e => (e.1, e.2.record)) =
      [(5, ⟨.client 1, some (.client 100 7), 0, -1, 11⟩)] ∧
    closed s.log = [⟨0, 1, 12⟩] ∧
    ((issued s).map fun e => (e.2.serial, e.2.index)).Nodup ∧
    (handed (results s.log)).Perm (closed s.log ++ passed (issued s)) := by
  have hsome : returnedTwice.isSome = true := by decide +kernel
  obtain ⟨s, hs⟩ := Option.isSome_iff_exists.mp hsome
  have hreach : Reachable s := (Transition.Reachable.start (opened_initial _ _)).run hs
  have hrecords : returnedTwice.map (fun s => ((delivered s.log).map (fun e => (e.1, e.2.record)),
      closed s.log)) = some ([(5, ⟨.client 1, some (.client 100 7), 0, -1, 11⟩)], [⟨0, 1, 12⟩]) := by
    decide +kernel
  rw [hs] at hrecords
  obtain ⟨hd, hc⟩ := Prod.mk.inj (Option.some.inj hrecords)
  have hall := buffers_returned_once s hreach
  exact ⟨s, hs, hd, hc, hall.2.1, hall.2.2.2.2.2.1⟩

end Runs

end Camera3
