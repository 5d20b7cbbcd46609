import Mathlib.Data.List.TakeWhile
import Mocha.CameraInflight

/-!
# Result metadata

The stock device sends partial packets and a final one. The client gets one
result with metadata, or an error, and nothing about metadata after either. What
it gets is a function of the packets that were logged since the request was
submitted.
-/
namespace Camera3

open CameraMetadata

section Statements

def ClientCall.carriesMetadata : ClientCall → Bool
  | .result _ metadata _ _ => metadata.isSome
  | _ => false

/-- The call says that there will be no metadata. -/
def ClientCall.reportsError : ClientCall → Bool
  | .notify (.error _ code _) => decide (code = .result) || decide (code = .request)
  | _ => false

/-- The calls about one request, in order: those made, then those of the running callback. -/
def toldAbout (s : State) (k : Nat) : List ClientCall :=
  (said s).filterMap fun e => if e.1 = some k then some e.2 else none

/-- The metadata packet that the event hands in for frame `n`. -/
def Event.packet (n : Nat) : Event → Option Metadata
  | .stockResult _ r => if r.frame = n then r.metadata else none
  | _ => none

/-- Request `k` is submitted. -/
def Event.starts (k : Nat) : Event → Bool
  | .stockCapture _ serial _ _ _ => decide (serial = k)
  | _ => false

/-- The packets for frame `n` since request `k` was submitted. -/
def packets (log : List Event) (n k : Nat) : List Metadata :=
  (log.dropWhile fun e => !e.starts k).filterMap (Event.packet n)

/-- The metadata for frame `n` of request `k` is made of the partial packets since the request was
submitted, and of the first packet after them, which is final. -/
def Composed (log : List Event) (n k : Nat) (metadata : Metadata) : Prop :=
  ∃ before cb r after final, log = before ++ .stockResult cb r :: after ∧ r.frame = n ∧
    r.metadata = some final ∧ isPartial final = false ∧ (∃ e ∈ before, e.starts k = true) ∧
    (∀ raw ∈ packets before n k, isPartial raw = true) ∧
    ∀ t, lookup metadata t = expected (packets before n k) final t

/-- The request for which a step makes the adapter report an error of its own. -/
def generates (s : State) : Action → Option Nat
  | .result r alloc => (s.frames.get r.frame).bind fun f =>
    if (resultMetadata alloc f r.metadata).2.2 then some f.serial else none
  | _ => none

/-- The adapter's own errors along a run. -/
def generated : State → List Action → List Nat
  | _, [] => []
  | s, a :: as =>
    match step s a with
    | none => []
    | some t => (generates s a).toList ++ generated t as

end Statements

section Packets

/-- Packets of a frame are counted from its start on. -/
theorem packets_append {log : List Event} {k : Nat} (h : ∃ e ∈ log, e.starts k = true) (n : Nat)
    (es : List Event) : packets (log ++ es) n k = packets log n k ++ es.filterMap (Event.packet n) := by
  have hne : (log.dropWhile fun e => !e.starts k).isEmpty = false := by
    obtain ⟨e, he, hs⟩ := h
    rw [← Bool.not_eq_true, List.isEmpty_iff, List.dropWhile_eq_nil_iff]
    intro hall
    have hnot := hall e he
    rw [hs] at hnot
    cases hnot
  rw [packets, List.dropWhile_append, hne]
  exact List.filterMap_append

/-- At its start a frame has no packets yet. -/
theorem packets_start {log : List Event} {k : Nat} (h : ∀ e ∈ log, e.starts k = false) (n : Nat)
    {e : Event} (he : e.starts k = true) (hp : e.packet n = none) : packets (log ++ [e]) n k = [] := by
  have hall : (log.dropWhile fun e => !e.starts k) = [] := by
    rw [List.dropWhile_eq_nil_iff]
    intro x hx
    rw [h x hx]
    rfl
  rw [packets, List.dropWhile_append, hall]
  simp [he, hp]

/-- Events that hand in no packet for the frame. -/
theorem packets_silent {log es : List Event} {n k : Nat} (h : ∃ e ∈ log, e.starts k = true)
    (hes : ∀ e ∈ es, e.packet n = none) : packets (log ++ es) n k = packets log n k := by
  rw [packets_append h, List.filterMap_eq_nil_iff.mpr hes, List.append_nil]

theorem calm_packet {e : Event} (h : e.calm = true) (n : Nat) : e.packet n = none := by
  cases e <;> simp_all [Event.calm, Event.packet]

/-- What was composed stays so when the history goes on. -/
theorem Composed.mono {log : List Event} {n k : Nat} {metadata : Metadata}
    (h : Composed log n k metadata) (es : List Event) : Composed (log ++ es) n k metadata := by
  obtain ⟨before, cb, r, after, final, rfl, hrest⟩ := h
  exact ⟨before, cb, r, after ++ es, final, by simp, hrest⟩

end Packets

section Invariant

def ClientCall.ends (c : ClientCall) : Bool := c.carriesMetadata || c.reportsError

/-- The frame has collected the packets since its request was submitted, and nobody was told
anything about metadata yet. -/
structure Collecting (s : State) (n : Nat) (f : Frame) : Prop where
  started : ∃ e ∈ s.log, e.starts f.serial = true
  partials : ∀ raw ∈ packets s.log n f.serial, isPartial raw = true
  collects : Collects (packets s.log n f.serial) f.partials
  silent : ∀ c ∈ toldAbout s f.serial, c.ends = false

structure Measured (s : State) : Prop where
  collecting : ∀ e ∈ s.frames, e.2.metadataDone = false → Collecting s e.1 e.2
  owners : ∀ e ∈ said s, ∀ k, e.1 = some k → k < s.nextFrame
  order : ∀ k, (toldAbout s k).Pairwise fun a b => a.ends = true → b.carriesMetadata = false
  counts : ∀ k n metadata ds p, .result n metadata ds p ∈ toldAbout s k →
    p = if metadata.isSome then 1 else 0
  composed : ∀ k n metadata ds p, .result n (some metadata) ds p ∈ toldAbout s k →
    Composed s.log n k metadata

theorem initial_measured {s : State} (h : Initial s) : Measured s := by
  have hsaid : said s = [] := by simp [said, h.log, h.callback, calls, Event.calls, Callback.calls]
  have htold : ∀ k, toldAbout s k = [] := by simp [toldAbout, hsaid]
  constructor
  · simp [h.frames]
  · simp [hsaid]
  · simp [htold]
  · simp [htold]
  · simp [htold]

theorem mem_toldAbout {s : State} {k : Nat} {c : ClientCall} :
    c ∈ toldAbout s k ↔ (some k, c) ∈ said s := by
  simp only [toldAbout, List.mem_filterMap]
  constructor
  · rintro ⟨e, he, hc⟩
    split at hc
    · rename_i ho
      cases hc
      exact ho ▸ he
    · cases hc
  · intro h
    exact ⟨_, h, by simp⟩

/-- Events of other frames leave what a frame has collected. -/
theorem Collecting.keep {s t : State} {n : Nat} {f : Frame} {es : List Event} (h : Collecting s n f)
    (hl : t.log = s.log ++ es) (hes : ∀ e ∈ es, e.packet n = none)
    (htold : toldAbout t f.serial = toldAbout s f.serial) : Collecting t n f := by
  have hp : packets t.log n f.serial = packets s.log n f.serial := by
    rw [hl]
    exact packets_silent h.started hes
  constructor
  · obtain ⟨e, he, hs⟩ := h.started
    exact ⟨e, hl ▸ List.mem_append_left _ he, hs⟩
  · rw [hp]
    exact h.partials
  · rw [hp]
    exact h.collects
  · rw [htold]
    exact h.silent

/-- Steps that tell nothing about a request, start none, and hand in no packet for one. -/
theorem Measured.quiet {s t : State} {es : List Event} (h : Measured s) (hf : t.frames ⊆ s.frames)
    (hn : t.nextFrame = s.nextFrame) (hsaid : ∀ e ∈ said t, e ∈ said s ∨ e.1 = none)
    (htold : ∀ k, toldAbout t k = toldAbout s k) (hl : t.log = s.log ++ es)
    (hes : ∀ e ∈ es, ∀ n ∈ t.frames.keys, e.packet n = none) : Measured t := by
  constructor
  · intro e he hopen
    exact (h.collecting e (hf he) hopen).keep hl (fun x hx => hes x hx e.1 (Assoc.mem_keys he)) (htold _)
  · intro e he k hk
    rw [hn]
    rcases hsaid e he with hold | hnone
    · exact h.owners e hold k hk
    · rw [hnone] at hk
      cases hk
  · intro k
    rw [htold]
    exact h.order k
  · intro k
    rw [htold]
    exact h.counts k
  · intro k n metadata ds p hmem
    rw [htold] at hmem
    rw [hl]
    exact (h.composed k n metadata ds p hmem).mono es

/-- A frame that is submitted starts collecting with nothing. -/
theorem measured_submit {s t : State} {c : Capturing} (hb : (books s).Ok) (hsub : Submitted s c t)
    (h : Measured s) : Measured t := by
  obtain ⟨settings, shown, hframes, hcallback, hrequest, hlog⟩ := hsub.spec
  have hnext : t.nextFrame = s.nextFrame + 1 := by
    obtain ⟨af, ae, last, settings, rfl⟩ := hsub
    rfl
  have hsaid : said t = said s := by
    simp [said, hlog, hcallback, Camera3.calls, Event.calls]
  have htold : ∀ k, toldAbout t k = toldAbout s k := by simp [toldAbout, hsaid]
  have hfresh : ∀ x ∈ s.log, x.starts s.nextFrame = false := by
    intro x hx
    cases x <;> simp only [Event.starts, decide_eq_false_iff_not]
    rename_i n k cs vs sh
    have hmem : (⟨n, k, cs, vs⟩ : Capture) ∈ captures s.log :=
      List.mem_flatMap.mpr ⟨_, hx, List.mem_singleton_self _⟩
    exact Nat.ne_of_lt (hb.serialBound _ hmem)
  constructor
  · intro e he hopen
    rw [hframes] at he
    rcases List.mem_append.mp he with he | he
    · exact (h.collecting e he hopen).keep hlog (by simp [Event.packet]) (htold _)
    · rw [List.mem_singleton.mp he]
      have hserial : (newFrame s c settings).serial = s.nextFrame := rfl
      have hp : packets t.log c.request.frameNumber s.nextFrame = [] := by
        rw [hlog]
        exact packets_start hfresh _ (by simp [Event.starts]) rfl
      constructor
      · exact ⟨_, hlog ▸ List.mem_append_right _ (List.mem_singleton_self _),
          by simp [Event.starts, hserial]⟩
      · intro raw hraw
        rw [hserial, hp] at hraw
        cases hraw
      · rw [hserial, hp]
        exact Collects.empty
      · intro d hd
        rw [htold] at hd
        exact absurd (h.owners _ (mem_toldAbout.mp hd) _ rfl) (Nat.lt_irrefl _)
  · intro e he k hk
    rw [hsaid] at he
    rw [hnext]
    exact Nat.lt_succ_of_lt (h.owners e he k hk)
  · intro k
    rw [htold]
    exact h.order k
  · intro k
    rw [htold]
    exact h.counts k
  · intro k n metadata ds p hmem
    rw [htold] at hmem
    rw [hlog]
    exact (h.composed k n metadata ds p hmem).mono _

/-- What a callback may say about a frame, and what it makes of the packets. -/
structure Progress (s : State) (n : Nat) (f g : Frame) (es : List Event) (cs : List ClientCall) :
    Prop where
  serial : g.serial = f.serial
  others : ∀ e ∈ es, ∀ m, m ≠ n → e.packet m = none
  still : g.metadataDone = false → f.metadataDone = false
  silent : g.metadataDone = false → ∀ c ∈ cs, c.ends = false
  partials : g.metadataDone = false → ∀ raw ∈ es.filterMap (Event.packet n), isPartial raw = true
  collects : g.metadataDone = false → Collects (packets s.log n f.serial) f.partials →
    Collects (packets s.log n f.serial ++ es.filterMap (Event.packet n)) g.partials
  carries : ∀ c ∈ cs, c.carriesMetadata = true → f.metadataDone = false
  order : cs.Pairwise fun a b => a.ends = true → b.carriesMetadata = false
  counts : ∀ m metadata ds p, .result m metadata ds p ∈ cs → p = if metadata.isSome then 1 else 0
  composed : Collecting s n f → ∀ m metadata ds p, .result m (some metadata) ds p ∈ cs →
    Composed (s.log ++ es) m f.serial metadata

/-- A callback that delivers `cs` tells them about its own frame only. -/
theorem toldAbout_delivered {s t : State} {k : Nat} {cs : List ClientCall}
    (hsaid : said t = said s ++ cs.map fun c => (some k, c)) (j : Nat) :
    toldAbout t j = toldAbout s j ++ if j = k then cs else [] := by
  rw [toldAbout, hsaid, List.filterMap_append, List.filterMap_map]
  by_cases hj : j = k
  · simp [toldAbout, hj]
  · have hnone : cs.filterMap ((fun e : Option Nat × ClientCall =>
        if e.1 = some j then some e.2 else none) ∘ fun c => (some k, c)) = [] := by
      simp [Ne.symm hj]
    rw [hnone, if_neg hj]
    rfl

theorem mem_toldAbout_delivered {s t : State} {k : Nat} {cs : List ClientCall}
    (hsaid : said t = said s ++ cs.map fun c => (some k, c)) {j : Nat} {c : ClientCall}
    (hc : c ∈ toldAbout t j) : c ∈ toldAbout s j ∨ (j = k ∧ c ∈ cs) := by
  rw [toldAbout_delivered hsaid] at hc
  rcases List.mem_append.mp hc with hold | hnew
  · exact .inl hold
  · split at hnew
    · exact .inr ⟨‹_›, hnew⟩
    · cases hnew

/-- A frame that a callback leaves open goes on collecting. -/
theorem Progress.collecting {s t : State} {n : Nat} {f g : Frame} {es : List Event}
    {cs : List ClientCall} (hp : Progress s n f g es cs) (hold : Collecting s n f)
    (hopen : g.metadataDone = false) (hlog : t.log = s.log ++ es)
    (hsaid : said t = said s ++ cs.map fun c => (some f.serial, c)) : Collecting t n g := by
  have hpackets : packets t.log n g.serial =
      packets s.log n f.serial ++ es.filterMap (Event.packet n) := by
    rw [hlog, hp.serial]
    exact packets_append hold.started n es
  constructor
  · obtain ⟨x, hx, hs⟩ := hold.started
    exact ⟨x, hlog ▸ List.mem_append_left _ hx, hp.serial ▸ hs⟩
  · rw [hpackets]
    intro raw hraw
    rcases List.mem_append.mp hraw with hraw | hraw
    · exact hold.partials raw hraw
    · exact hp.partials hopen raw hraw
  · rw [hpackets]
    exact hp.collects hopen hold.collects
  · intro c hc
    rw [hp.serial] at hc
    rcases mem_toldAbout_delivered hsaid hc with hc | ⟨-, hc⟩
    · exact hold.silent c hc
    · exact hp.silent hopen c hc

/-- One frame changes, the others keep what they collected. -/
theorem measured_change {s t : State} {n : Nat} {f g : Frame} {es : List Event} {cs : List ClientCall}
    (h : Measured s) (hb : (books s).Ok) (hc : s.callback = .idle) (hmem : (n, f) ∈ s.frames)
    (hframes : t.frames = s.frames.adjust n fun _ => g) (hnext : t.nextFrame = s.nextFrame)
    (hcallback : t.callback = .delivering (some n) (some f.serial) cs) (hlog : t.log = s.log ++ es)
    (hcalls : calls es = []) (hp : Progress s n f g es cs) : Measured t := by
  have hsaid : said t = said s ++ cs.map fun c => (some f.serial, c) := by
    simp [said, hlog, calls_append, hcalls, hc, hcallback, Callback.calls]
  have htold := toldAbout_delivered hsaid
  have hquiet : f.metadataDone = false → ∀ c ∈ toldAbout s f.serial, c.ends = false :=
    fun hopen => (h.collecting _ hmem hopen).silent
  constructor
  · intro e he hopen
    rw [hframes] at he
    rcases Assoc.mem_adjust.mp he with ⟨he, hne⟩ | ⟨_, _, rfl⟩
    · have hserial : e.2.serial ≠ f.serial := by
        intro heq
        exact hne (congrArg Prod.fst (hb.serial_inj he hmem heq))
      have hother : toldAbout t e.2.serial = toldAbout s e.2.serial := by
        rw [htold, if_neg hserial, List.append_nil]
      exact (h.collecting e he hopen).keep hlog (fun x hx => hp.others x hx e.1 hne) hother
    · exact hp.collecting (h.collecting _ hmem (hp.still hopen)) hopen hlog hsaid
  · intro e he k hk
    rw [hsaid] at he
    rw [hnext]
    rcases List.mem_append.mp he with he | he
    · exact h.owners e he k hk
    · obtain ⟨c, -, rfl⟩ := List.mem_map.mp he
      cases hk
      exact hb.serialBound _ (hb.frame _ hmem).capture
  · intro k
    rw [htold]
    split
    case isTrue hk =>
      rw [hk]
      refine List.pairwise_append.mpr ⟨h.order _, hp.order, ?_⟩
      intro a ha b hbmem hends
      rw [← Bool.not_eq_true]
      intro hcarry
      rw [hquiet (hp.carries b hbmem hcarry) a ha] at hends
      cases hends
    case isFalse =>
      rw [List.append_nil]
      exact h.order k
  · intro k m metadata ds p hmemt
    rcases mem_toldAbout_delivered hsaid hmemt with hold | ⟨-, hnew⟩
    · exact h.counts k m metadata ds p hold
    · exact hp.counts m metadata ds p hnew
  · intro k m metadata ds p hmemt
    rw [hlog]
    rcases mem_toldAbout_delivered hsaid hmemt with hold | ⟨hk, hnew⟩
    · exact (h.composed k m metadata ds p hold).mono es
    · have hopen := hp.carries _ hnew rfl
      rw [hk]
      exact hp.composed (h.collecting _ hmem hopen) m metadata ds p hnew

/-- What the metadata part of a stock result can do. -/
inductive MetadataPart (f : Frame) : Option Metadata → Frame × Option Metadata × Bool → Prop where
  | untouched (m : Option Metadata) (h : m = none ∨ f.metadataDone = true) :
      MetadataPart f m (f, none, false)
  | merged (a : Allocations) (raw : Metadata) (hopen : f.metadataDone = false)
      (hpacket : isPartial raw = true) (hok : (mergeMetadata a f.partials raw).ok = true) :
      MetadataPart f (some raw)
        ({ f with partials := (mergeMetadata a f.partials raw).metadata, metadataDone := false },
          none, false)
  | lost (raw : Metadata) (g : Frame) (hopen : f.metadataDone = false) (hg : g.metadataDone = true) :
      MetadataPart f (some raw) (g, none, true)
  | final (a b : Allocations) (raw : Metadata) (hopen : f.metadataDone = false)
      (hfinal : isPartial raw = false) (hok : (mergeMetadata a [] raw).ok = true)
      (hend : (finishResult b (mergeMetadata a [] raw).metadata f.partials).ok = true) :
      MetadataPart f (some raw) ({ f with metadataDone := true },
        some (finishResult b (mergeMetadata a [] raw).metadata f.partials).metadata, false)

/-- A final packet, a partial one, or none at all. -/
theorem resultMetadata_cases (a : Allocations) (f : Frame) (m : Option Metadata) :
    MetadataPart f m (resultMetadata a f m) := by
  unfold resultMetadata
  split
  · exact .untouched none (.inl rfl)
  · rename_i raw
    cases hopen : f.metadataDone with
    | true => exact .untouched _ (.inr hopen)
    | false =>
      rw [if_neg (by simp)]
      split
      · rename_i hpacket
        dsimp only
        cases hok : (mergeMetadata a f.partials raw).ok with
        | true => exact .merged a raw hopen hpacket hok
        | false => exact .lost raw _ hopen rfl
      · rename_i hfinal
        dsimp only
        cases hok : (mergeMetadata a [] raw).ok with
        | false => exact .lost raw _ hopen rfl
        | true =>
          cases hend : (finishResult (mergeMetadata a [] raw).rest (mergeMetadata a [] raw).metadata
              f.partials).ok with
          | false => exact .lost raw _ hopen rfl
          | true => exact .final a _ raw hopen (by simpa using hfinal) hok hend

theorem returning_partials {s : State} (r : StockResult) (alloc : Allocations) {f : Frame}
    (hcount : f.remaining = f.returned.count false) :
    (returning s r alloc f).frame.partials = (resultMetadata alloc f r.metadata).1.partials := by
  have hsame := resultMetadata_same alloc f r.metadata
  have hspec := returnBuffers_spec s.callbacks (resultMetadata alloc f r.metadata).1 r
    (by rw [hsame.remaining, hsame.returned]; exact hcount)
  unfold returning
  rw [hspec.frame]

/-- The calls of a result: an error, or a result with or without metadata. -/
theorem mem_resultCalls {n : Nat} {metadata : Option Metadata} {error : Bool} {output : List Delivery}
    {c : ClientCall} (h : c ∈ resultCalls n metadata error output) :
    (error = true ∧ c = .notify (.error n .result .null)) ∨
      c = .result n metadata output (if metadata.isSome then 1 else 0) := by
  unfold resultCalls at h
  rcases List.mem_append.mp h with h | h
  · split at h
    · rename_i herror
      exact .inl ⟨herror, List.mem_singleton.mp h⟩
    · cases h
  · split at h
    · exact .inr (List.mem_singleton.mp h)
    · cases h

theorem resultCalls_order (n : Nat) {metadata : Option Metadata} {error : Bool} (output : List Delivery)
    (h : error = true → metadata = none) : (resultCalls n metadata error output).Pairwise
      fun a b => a.ends = true → b.carriesMetadata = false := by
  unfold resultCalls
  refine List.pairwise_append.mpr ⟨?_, ?_, ?_⟩
  · split <;> simp
  · split <;> simp
  · intro a ha b hbmem _
    split at ha
    · rename_i herror
      rw [h herror] at hbmem
      split at hbmem
      · rw [List.mem_singleton.mp hbmem]
        rfl
      · cases hbmem
    · cases ha

theorem resultCalls_none {n : Nat} {error : Bool} {output : List Delivery} {c : ClientCall}
    (h : c ∈ resultCalls n none error output) : c.carriesMetadata = false := by
  rcases mem_resultCalls h with ⟨-, rfl⟩ | rfl <;> rfl

theorem resultCalls_silent {n : Nat} {output : List Delivery} {c : ClientCall}
    (h : c ∈ resultCalls n none false output) : c.ends = false := by
  rcases mem_resultCalls h with ⟨herror, -⟩ | rfl
  · cases herror
  · rfl

/-- Of the events of a result only the result itself carries a packet, and for its frame. -/
theorem result_packets (callbacks : Nat) (r : StockResult) (fences : List Fence) (n : Nat) :
    (Event.stockResult callbacks r :: fences.map .fenceClosed).filterMap (Event.packet n) =
      (if r.frame = n then r.metadata else none).toList := by
  have hnil : (fences.map Event.fenceClosed).filterMap (Event.packet n) = [] := by
    simp [List.filterMap_map, Function.comp_def, Event.packet]
  rw [List.filterMap_cons, hnil]
  simp only [Event.packet]
  split <;> simp_all

/-- What one result adds for its frame. -/
theorem result_progress {s : State} (r : StockResult) (alloc : Allocations) {f : Frame}
    (hcount : f.remaining = f.returned.count false) :
    Progress s r.frame f (returning s r alloc f).frame
      (.stockResult s.callbacks r :: (returning s r alloc f).closed.map .fenceClosed)
      (resultCalls r.frame (resultMetadata alloc f r.metadata).2.1
        (resultMetadata alloc f r.metadata).2.2 (returning s r alloc f).output) := by
  obtain ⟨hserial, hdone, -⟩ := returning_frame (s := s) r alloc hcount
  have hcollected := returning_partials (s := s) r alloc hcount
  generalize (returning s r alloc f).frame = g at hserial hdone hcollected ⊢
  generalize (returning s r alloc f).output = output
  have hothers : ∀ e ∈ (Event.stockResult s.callbacks r ::
      (returning s r alloc f).closed.map .fenceClosed), ∀ m, m ≠ r.frame → e.packet m = none := by
    intro e he m hm
    apply List.filterMap_eq_nil_iff.mp _ e he
    rw [result_packets, if_neg (Ne.symm hm)]
    rfl
  have hown := result_packets s.callbacks r (returning s r alloc f).closed r.frame
  rw [if_pos rfl] at hown
  have hcases := resultMetadata_cases alloc f r.metadata
  generalize resultMetadata alloc f r.metadata = m at hcases hdone hcollected ⊢
  generalize hraw : r.metadata = metadata at hcases hown
  have hcounts : ∀ n md ds p, .result n md ds p ∈ resultCalls r.frame m.2.1 m.2.2 output →
      p = if md.isSome then 1 else 0 := by
    intro n md ds p hmem
    rcases mem_resultCalls hmem with ⟨-, heq⟩ | heq <;> cases heq
    rfl
  have hnone : m.2.1 = none → ∀ n md ds p,
      .result n (some md) ds p ∈ resultCalls r.frame m.2.1 m.2.2 output → False := by
    intro hm n md ds p hmem
    rw [hm] at hmem
    cases resultCalls_none hmem
  cases hcases with
  | untouched metadata h =>
    have hempty : g.metadataDone = false → metadata = none := by
      intro hopen
      rcases h with h | h
      · exact h
      · rw [hdone, h] at hopen
        cases hopen
    refine ⟨hserial, hothers, fun hopen => hdone ▸ hopen, fun _ c hc => resultCalls_silent hc, ?_, ?_,
      ?_, resultCalls_order _ _ (by simp), hcounts, fun _ n md ds p hmem => (hnone rfl n md ds p hmem).elim⟩
    · intro hopen
      rw [hown, hempty hopen]
      simp
    · intro hopen hold
      rw [hown, hempty hopen, hcollected]
      simpa using hold
    · intro c hc hcarry
      rw [resultCalls_none hc] at hcarry
      cases hcarry
  | merged a raw hopen hpacket hok =>
    refine ⟨hserial, hothers, fun _ => hopen, fun _ c hc => resultCalls_silent hc, ?_, ?_,
      fun _ _ _ => hopen, resultCalls_order _ _ (by simp), hcounts,
      fun _ n md ds p hmem => (hnone rfl n md ds p hmem).elim⟩
    · intro _ x hx
      rw [hown] at hx
      rw [List.mem_singleton.mp hx]
      exact hpacket
    · intro _ hold
      rw [hown, hcollected]
      exact hold.snoc hok
  | lost raw g' hopen hg =>
    have hend : g.metadataDone ≠ false := by
      rw [hdone]
      dsimp only
      rw [hg]
      simp
    exact ⟨hserial, hothers, fun _ => hopen, fun h => absurd h hend, fun h => absurd h hend,
      fun h => absurd h hend, fun _ _ _ => hopen, resultCalls_order _ _ (by simp), hcounts,
      fun _ n md ds p hmem => (hnone rfl n md ds p hmem).elim⟩
  | final a b raw hopen hfinal hok hend =>
    have hdone' : g.metadataDone ≠ false := by
      rw [hdone]
      simp
    refine ⟨hserial, hothers, fun _ => hopen, fun h => absurd h hdone', fun h => absurd h hdone',
      fun h => absurd h hdone', fun _ _ _ => hopen, resultCalls_order _ _ (by simp), hcounts, ?_⟩
    intro hold n md ds p hmem
    rcases mem_resultCalls hmem with ⟨herror, -⟩ | heq
    · cases herror
    · cases heq
      exact ⟨s.log, s.callbacks, r, _, raw, rfl, rfl, hraw, hfinal, hold.started, hold.partials,
        finishResult_expected hold.collects hok hend⟩

/-- What one message adds for its frame. -/
theorem notify_progress {s : State} (f : Frame) (m : Message) (streams : StreamMap) (n : Nat) :
    Progress s n f (notifyFrame f m) [] [.notify (convertMessage streams m)] := by
  have hstill : (notifyFrame f m).metadataDone = false → f.metadataDone = false := by
    cases m <;> simp_all [notifyFrame]
  have hcollected : (notifyFrame f m).partials = f.partials := by
    cases m <;> rfl
  refine ⟨(notifyFrame_same f m).serial, by simp, hstill, ?_, by simp, ?_, ?_, by simp, by simp, by simp⟩
  · intro hopen c hc
    rw [List.mem_singleton.mp hc]
    cases m <;> simp_all [notifyFrame, convertMessage, ClientCall.ends, ClientCall.carriesMetadata,
      ClientCall.reportsError]
  · intro _ hold
    rw [hcollected]
    simpa using hold
  · intro c hc hcarry
    rw [List.mem_singleton.mp hc] at hcarry
    cases hcarry

theorem measured_notify {s : State} (m : Message) (hc : s.callback = .idle) (hb : (books s).Ok)
    (h : Measured s) : Measured (stockNotify s m) := by
  have hlog : (stockNotify s m).log = s.log ++ [] := (List.append_nil _).symm
  cases hl : s.frames.lookup m.frame with
  | none =>
    have hframes : (stockNotify s m).frames = s.frames := by simp [stockNotify, hl]
    have hsaid : said (stockNotify s m) = said s ++ [(none, .notify (convertMessage s.streams m))] := by
      simp [said, stockNotify, hl, hc, Callback.calls]
    refine h.quiet (by rw [hframes]; exact List.Subset.refl _) rfl ?_ ?_ hlog (by simp)
    · intro e he
      rw [hsaid] at he
      rcases List.mem_append.mp he with he | he
      · exact .inl he
      · rw [List.mem_singleton.mp he]
        exact .inr rfl
    · intro k
      simp [toldAbout, hsaid]
  | some e =>
    obtain ⟨n, f⟩ := e
    obtain ⟨hn, hg⟩ := lookup_some hl
    have hframes : (stockNotify s m).frames = s.frames.adjust n fun _ => notifyFrame f m := by
      simp [stockNotify, hl]
    have hcallback : (stockNotify s m).callback = .delivering (some n) (some f.serial)
        [.notify (convertMessage s.streams m)] := by
      rw [hn] at hl
      simp [stockNotify, hl, hn]
    exact measured_change h hb hc (Assoc.mem_of_get hg) hframes rfl hcallback hlog rfl
      (notify_progress f m s.streams n)

theorem Traffic.measured {s t : State} {a : Action} (ht : Traffic s a t) (hb : (books s).Ok)
    (h : Measured s) : Measured t := by
  have hquiet : ∀ {t : State} {es : List Event}, t.frames ⊆ s.frames → t.nextFrame = s.nextFrame →
      said t = said s → t.log = s.log ++ es → (∀ e ∈ es, ∀ n ∈ t.frames.keys, e.packet n = none) →
      Measured t := by
    intro t es hf hn hsaid hl hes
    exact h.quiet hf hn (fun e he => .inl (hsaid ▸ he)) (by simp [toldAbout, hsaid]) hl hes
  cases ht with
  | calm a t hc =>
    obtain ⟨es, hes, hcalm⟩ := hc.log
    refine hquiet (by rw [hc.frames]; exact List.Subset.refl _) hc.nextFrame ?_ hes ?_
    · simp [said, hes, calls_append, calls_calm hcalm, hc.callback]
    · intro e he n _
      exact calm_packet (hcalm e he) n
  | submit clone alloc c t hq hsub => exact measured_submit hb hsub h
  | answer r n k hq =>
    have hlog : (captureAnswered s n k r).log =
        s.log ++ [.stockAnswer n k r, .returned .capture r] := by
      simp [captureAnswered, State.record, State.finish]
    refine hquiet ?_ rfl ?_ hlog ?_
    · rw [captureAnswered_frames]
      split
      · exact fun e he => (Assoc.mem_erase.mp he).1
      · exact List.Subset.refl _
    · simp [said, captureAnswered, State.record, State.finish, Camera3.calls, Event.calls]
    · simp [Event.packet]
  | closeEnd r t hq hr hf hc hn hs hl =>
    obtain ⟨es, hes, hcalm⟩ := hl
    refine hquiet (by rw [hf]; exact List.nil_subset _) hs ?_ hes ?_
    · simp [said, hes, calls_append, calls_calm hcalm, hc]
    · intro e he n _
      exact calm_packet (hcalm e he) n
  | result r alloc hc hq =>
    cases hg : s.frames.get r.frame with
    | none =>
      rw [stockResult_unknown alloc hg]
      refine hquiet (List.Subset.refl _) rfl ?_ rfl ?_
      · simp [said, Camera3.calls, Event.calls, List.flatMap_map]
      · intro e he n hn
        have hne : r.frame ≠ n := by
          rintro rfl
          exact (Assoc.get_eq_none_iff _ _).mp hg hn
        rcases List.mem_cons.mp he with rfl | he
        · simp [Event.packet, hne]
        · obtain ⟨x, -, rfl⟩ := List.mem_map.mp he
          rfl
    | some f =>
      have hmem : (r.frame, f) ∈ s.frames := Assoc.mem_of_get hg
      rw [stockResult_known alloc hg]
      refine measured_change h hb hc hmem rfl rfl rfl rfl ?_
        (result_progress r alloc (hb.frame _ hmem).remaining)
      simp [Camera3.calls, Event.calls, List.flatMap_map]
  | notify m hc hq => exact measured_notify m hc hb h
  | deliver frame owner c calls hc =>
    refine hquiet (List.Subset.refl _) rfl ?_ rfl (by simp [Event.packet])
    simp [said, State.record, hc, Callback.calls, Camera3.calls, Event.calls]
  | retire frame owner hc =>
    refine hquiet ?_ rfl ?_ (List.append_nil _).symm (by simp)
    · rcases retire_frames s frame with ⟨hf, -⟩ | ⟨n, f, -, -, -, hf⟩
      · rw [hf]
        exact List.Subset.refl _
      · rw [hf]
        exact fun e he => (Assoc.mem_erase.mp he).1
    · simp [said, Camera3.retire, hc, Callback.calls]

theorem Reachable.measured {s : State} (h : Reachable s) : Measured s := by
  apply h.invariant Measured
  · intro s hi
    exact initial_measured hi
  · intro s a t hs hm ht
    exact (step_traffic ht).measured (Reachable.books_ok hs) hm

end Invariant

section Results

theorem step_result {s t : State} {r : StockResult} {alloc : Allocations}
    (h : step s (.result r alloc) = some t) : s.callback = .idle ∧ t = stockResult s r alloc := by
  cases hc : s.callback with
  | delivering frame owner cs => simp [step, callbackStep, hc] at h
  | idle =>
    simp only [step, callbackStep, hc, Option.ite_none_right_eq_some] at h
    exact ⟨rfl, (Option.some.inj h.2).symm⟩

/-- Nothing that was said is taken back. -/
theorem Traffic.said_subset {s t : State} {a : Action} (ht : Traffic s a t) : said s ⊆ said t := by
  have hidle : ∀ {t : State} {es : List Event}, s.callback = .idle → t.log = s.log ++ es →
      said s ⊆ said t := by
    intro t es hc hl
    have hs : said s = calls s.log := by simp [said, hc, Callback.calls]
    rw [hs, said, hl, calls_append, List.append_assoc]
    exact List.subset_append_left _ _
  have hsame : ∀ {t : State}, said t = said s → said s ⊆ said t := by
    intro t h
    rw [h]
    exact List.Subset.refl _
  cases ht with
  | calm a t hc =>
    obtain ⟨es, hes, hcalm⟩ := hc.log
    exact hsame (by simp [said, hes, calls_append, calls_calm hcalm, hc.callback])
  | submit clone alloc c t hq hsub =>
    obtain ⟨settings, shown, -, hcallback, -, hlog⟩ := hsub.spec
    exact hsame (by simp [said, hlog, hcallback, Camera3.calls, Event.calls])
  | answer r n k hq =>
    exact hsame (by simp [said, captureAnswered, State.record, State.finish, Camera3.calls, Event.calls])
  | closeEnd r t hq hr hf hc hn hs hl =>
    obtain ⟨es, hes, hcalm⟩ := hl
    exact hsame (by simp [said, hes, calls_append, calls_calm hcalm, hc])
  | result r alloc hc hq =>
    cases hg : s.frames.get r.frame with
    | none =>
      rw [stockResult_unknown alloc hg]
      exact hidle hc rfl
    | some f =>
      rw [stockResult_known alloc hg]
      exact hidle hc rfl
  | notify m hc hq => exact hidle hc (List.append_nil _).symm
  | deliver frame owner c calls hc =>
    exact hsame (by simp [said, State.record, hc, Callback.calls, Camera3.calls, Event.calls])
  | retire frame owner hc => exact hsame (by simp [said, Camera3.retire, hc, Callback.calls])

/-- The adapter reports an error only about a request of which nothing was said, and says so. -/
theorem generates_spec {s t : State} {a : Action} {k : Nat} (h : Reachable s) (ht : step s a = some t)
    (hk : generates s a = some k) : (∀ c ∈ toldAbout s k, c.ends = false) ∧
      ∃ c ∈ toldAbout t k, c.ends = true := by
  cases a with
  | result r alloc =>
    obtain ⟨hc, rfl⟩ := step_result ht
    obtain ⟨f, hg, hf⟩ := Option.bind_eq_some_iff.mp hk
    split at hf
    · rename_i herror
      cases hf
      have hmem : (r.frame, f) ∈ s.frames := Assoc.mem_of_get hg
      have hopen : f.metadataDone = false := by
        have hcases := resultMetadata_cases alloc f r.metadata
        generalize resultMetadata alloc f r.metadata = m at hcases herror
        generalize r.metadata = metadata at hcases
        cases hcases with
        | lost raw g hopen hg => exact hopen
        | untouched m h => cases herror
        | merged a raw hopen hpacket hok => cases herror
        | final a b raw hopen hfinal hok hend => cases herror
      refine ⟨(h.measured.collecting _ hmem hopen).silent, .notify (.error r.frame .result .null), ?_, rfl⟩
      rw [mem_toldAbout, stockResult_known alloc hg]
      refine List.mem_append_right _ (List.mem_map_of_mem ?_)
      simp [resultCalls, herror]
    · cases hf
  | _ => cases hk

/-- What is going to be generated has not been ended before. -/
theorem generated_silent {s : State} (h : Reachable s) {as : List Action} {k : Nat}
    (hk : k ∈ generated s as) : ∀ c ∈ toldAbout s k, c.ends = false := by
  induction as generalizing s with
  | nil => cases hk
  | cons a as ih =>
    rw [generated] at hk
    split at hk
    · cases hk
    · rename_i t ht
      rcases List.mem_append.mp hk with hk | hk
      · exact (generates_spec h ht (Option.mem_toList.mp hk)).1
      · intro c hc
        apply ih (h.next ht) hk c
        exact mem_toldAbout.mpr ((step_traffic ht).said_subset (mem_toldAbout.mp hc))

/-- No frame is generated twice in a run. -/
theorem generated_nodup {s : State} (h : Reachable s) (as : List Action) : (generated s as).Nodup := by
  induction as generalizing s with
  | nil => exact List.nodup_nil
  | cons a as ih =>
    rw [generated]
    split
    · exact List.nodup_nil
    · rename_i t ht
      have hrest := ih (h.next ht)
      cases hk : generates s a with
      | none => exact hrest
      | some k =>
        refine List.nodup_cons.mpr ⟨?_, hrest⟩
        intro hmem
        obtain ⟨-, c, hc, hends⟩ := generates_spec h ht hk
        rw [generated_silent (h.next ht) hmem c hc] at hends
        cases hends

/-- In such an order the metadata is carried at most once. -/
theorem carried_once {cs : List ClientCall}
    (h : cs.Pairwise fun a b => a.ends = true → b.carriesMetadata = false) :
    (cs.filter ClientCall.carriesMetadata).length ≤ 1 := by
  have hfilter := h.filter ClientCall.carriesMetadata
  match hl : cs.filter ClientCall.carriesMetadata with
  | [] => simp
  | [_] => simp
  | a :: b :: rest =>
    exfalso
    rw [hl] at hfilter
    have ha : a.carriesMetadata = true := (List.mem_filter.mp (hl ▸ List.mem_cons_self)).2
    have hb : b.carriesMetadata = true :=
      (List.mem_filter.mp (hl ▸ List.mem_cons_of_mem a List.mem_cons_self)).2
    have hnot := (List.pairwise_cons.mp hfilter).1 b List.mem_cons_self (by simp [ClientCall.ends, ha])
    rw [hb] at hnot
    cases hnot

/-- In every run, for every request: one result at most has metadata, it is the one with partial
result 1, and none follows an error; the adapter reports one error of its own at most; and the
metadata is composed of the packets of the stock device. -/
theorem metadata_delivered_once (s₀ : State) (h₀ : Initial s₀) (as : List Action) (s : State)
    (hs : Transition.run step s₀ as = some s) :
    (∀ k, ((toldAbout s k).filter ClientCall.carriesMetadata).length ≤ 1) ∧
    (∀ k n metadata ds p, .result n metadata ds p ∈ toldAbout s k →
      p = if metadata.isSome then 1 else 0) ∧
    (generated s₀ as).Nodup ∧
    (∀ k, (toldAbout s k).Pairwise fun a b => a.reportsError = true → b.carriesMetadata = false) ∧
    ∀ k n metadata ds p, .result n (some metadata) ds p ∈ toldAbout s k →
      Composed s.log n k metadata := by
  have hreach : Reachable s := (Transition.Reachable.start h₀).run hs
  have hm := hreach.measured
  refine ⟨fun k => carried_once (hm.order k), hm.counts, generated_nodup (.start h₀) as, ?_, hm.composed⟩
  intro k
  refine (hm.order k).imp ?_
  intro a b hab herror
  exact hab (by simp [ClientCall.ends, herror])

/-- A partial packet with a measured exposure, then the final one, which echoes the requested one. -/
def measuredRun : List Action :=
  previewStart ++ previewCapture 5 ++
    [.result ⟨5, some [(quirksPartialResult, [1]), (0xE0000, [700])], []⟩ [], .retire,
      .result ⟨5, some [(0xE0000, [100]), (flashState, [2])], []⟩ [], .deliver]

theorem measured_value_delivered : ∃ s metadata,
    Transition.run step (opened recorderClients []) measuredRun = some s ∧
    .result 5 (some metadata) [] 1 ∈ toldAbout s 0 ∧ Composed s.log 5 0 metadata ∧
    lookup metadata 0xE0000 = some [700] ∧ lookup metadata flashState = some [0] := by
  have hrun : (Transition.run step (opened recorderClients []) measuredRun).map (fun s => toldAbout s 0) =
      some [.result 5 (some [(0xE0000, [700]), (flashState, [0]), (requestPipelineDepth, [8])]) [] 1] := by
    decide +kernel
  obtain ⟨s, hs, htold⟩ := Option.map_eq_some_iff.mp hrun
  have hmem : .result 5 (some [(0xE0000, [700]), (flashState, [0]), (requestPipelineDepth, [8])]) [] 1 ∈
      toldAbout s 0 := by
    rw [htold]
    exact List.mem_singleton_self _
  have hall := metadata_delivered_once _ (opened_initial _ _) _ s hs
  exact ⟨s, _, hs, hmem, hall.2.2.2.2 0 5 _ [] 1 hmem, by decide, by decide⟩

end Results

end Camera3
