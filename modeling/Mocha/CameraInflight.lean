import Mocha.CameraBuffers
import Mocha.CameraStreams

/-!
# Requests in flight

A frame leaves `frames` when the client has everything it was promised, and not
before. The three conditions are set by two kinds of callbacks in any order; a
frame that meets all of them belongs to the callback that is running.
-/
namespace Camera3

open CameraMetadata

section Statements

def Event.calls : Event → List (Option Nat × ClientCall)
  | .client owner c => [(owner, c)]
  | _ => []

/-- The client calls that were made, each with the request it is about. -/
def calls (log : List Event) : List (Option Nat × ClientCall) := log.flatMap Event.calls

def Callback.calls : Callback → List (Option Nat × ClientCall)
  | .idle => []
  | .delivering _ owner cs => cs.map fun c => (owner, c)

/-- The client calls that were made, and those of the running callback. -/
def said (s : State) : List (Option Nat × ClientCall) := Camera3.calls s.log ++ s.callback.calls

/-- The call brings the metadata of frame `n`, or says that there will be none. -/
def ClientCall.endsMetadata (n : Nat) : ClientCall → Bool
  | .result m metadata _ _ => decide (m = n) && metadata.isSome
  | .notify (.error m code _) => decide (m = n) && (decide (code = .result) || decide (code = .request))
  | _ => false

/-- The call brings the shutter of frame `n`, or says that there will be none. -/
def ClientCall.endsShutter (n : Nat) : ClientCall → Bool
  | .notify (.shutter m _) => decide (m = n)
  | .notify (.error m code _) => decide (m = n) && decide (code = .request)
  | _ => false

/-- The client got every buffer of the request, its metadata and its shutter, or an error instead
of these two. -/
structure Finished (log : List Event) (c : Capture) : Prop where
  buffers : ∀ i < c.clientBuffers.length,
    ∃ e ∈ delivered log, e.1 = c.frame ∧ e.2.serial = c.serial ∧ e.2.index = i
  metadata : ∃ call, (some c.serial, call) ∈ calls log ∧ call.endsMetadata c.frame = true
  shutter : ∃ call, (some c.serial, call) ∈ calls log ∧ call.endsShutter c.frame = true

/-- The request of a frame in flight. -/
def captured (e : Nat × Frame) : Capture := ⟨e.1, e.2.serial, e.2.clientBuffers, e.2.vendorBuffers⟩

/-- The stock device refused the request. -/
def Rejected (log : List Event) (serial : Nat) : Prop :=
  ∃ n r, r ≠ 0 ∧ Event.stockAnswer n serial r ∈ log

theorem calls_append (log es : List Event) : calls (log ++ es) = calls log ++ calls es := by
  simp [calls]

theorem calls_calm {es : List Event} (h : ∀ e ∈ es, e.calm = true) : calls es = [] := by
  apply List.flatMap_eq_nil_iff.mpr
  intro e he
  have hc := h e he
  cases e <;> simp_all [Event.calm, Event.calls]

/-- What the client has heard it does not unhear. -/
theorem Finished.mono {log : List Event} {c : Capture} (h : Finished log c) (es : List Event) :
    Finished (log ++ es) c := by
  have hd : delivered (log ++ es) = delivered log ++ delivered es := by simp [delivered]
  refine ⟨?_, ?_, ?_⟩
  · intro i hi
    obtain ⟨e, he, hspec⟩ := h.buffers i hi
    exact ⟨e, hd ▸ List.mem_append_left _ he, hspec⟩
  · obtain ⟨call, hc, hspec⟩ := h.metadata
    exact ⟨call, calls_append log es ▸ List.mem_append_left _ hc, hspec⟩
  · obtain ⟨call, hc, hspec⟩ := h.shutter
    exact ⟨call, calls_append log es ▸ List.mem_append_left _ hc, hspec⟩

theorem Rejected.mono {log : List Event} {k : Nat} (h : Rejected log k) (es : List Event) :
    Rejected (log ++ es) k := by
  obtain ⟨n, r, hr, he⟩ := h
  exact ⟨n, r, hr, List.mem_append_left _ he⟩

end Statements

section Invariant

/-- What the frame counts as done was said to the client, or is about to be. -/
structure Told (s : State) (n : Nat) (f : Frame) : Prop where
  metadata : f.metadataDone = true →
    ∃ call, (some f.serial, call) ∈ said s ∧ call.endsMetadata n = true
  shutter : f.shutterDone = true →
    ∃ call, (some f.serial, call) ∈ said s ∧ call.endsShutter n = true

/-- Where a request of the stock device is now. -/
def Accounted (s : State) (c : Capture) : Prop :=
  (∃ f, (c.frame, f) ∈ s.frames ∧ f.serial = c.serial) ∨ Finished s.log c ∨ Rejected s.log c.serial

structure Inflight (s : State) : Prop where
  told : ∀ e ∈ s.frames, Told s e.1 e.2
  running : ∀ e ∈ s.frames, e.2.complete = true →
    ∃ cs, s.callback = .delivering (some e.1) (some e.2.serial) cs
  calling : ∀ n k, s.request = .calling n k → ∀ f, (n, f) ∈ s.frames → f.serial = k
  accounted : s.request ≠ .closed → ∀ c ∈ captures s.log, Accounted s c

theorem Told.mono {s t : State} {n : Nat} {f : Frame} (h : Told s n f) (hs : said s ⊆ said t) :
    Told t n f := by
  constructor
  · intro hm
    obtain ⟨call, hc, hend⟩ := h.metadata hm
    exact ⟨call, hs hc, hend⟩
  · intro hm
    obtain ⟨call, hc, hend⟩ := h.shutter hm
    exact ⟨call, hs hc, hend⟩

/-- A request that is still in flight, or whose fate was already settled, under a longer log. -/
theorem Accounted.step {s t : State} {c : Capture} (h : Accounted s c)
    (hl : ∃ es, t.log = s.log ++ es)
    (hf : ∀ f, (c.frame, f) ∈ s.frames → f.serial = c.serial → Accounted t c) : Accounted t c := by
  obtain ⟨es, hes⟩ := hl
  rcases h with ⟨f, hmem, hs⟩ | hfin | hrej
  · exact hf f hmem hs
  · exact .inr (.inl (hes ▸ hfin.mono es))
  · exact .inr (.inr (hes ▸ hrej.mono es))

theorem initial_inflight {s : State} (h : Initial s) : Inflight s := by
  have hcap : captures s.log = [] := by simp [h.log, captures, Event.captures]
  constructor
  · intro e he
    rw [h.frames] at he
    cases he
  · intro e he
    rw [h.frames] at he
    cases he
  · intro n k hq
    rw [h.request] at hq
    cases hq
  · intro _ c hc
    rw [hcap] at hc
    cases hc

/-- The invariant does not see a calm step. -/
theorem inflight_calm {s t : State} (hc : Calm s t) (hopen : t.request ≠ .closed → s.request ≠ .closed)
    (h : Inflight s) : Inflight t := by
  obtain ⟨es, hes, hcalm⟩ := hc.log
  have hsaid : said t = said s := by
    simp [said, hes, calls_append, calls_calm hcalm, hc.callback]
  constructor
  · intro e he
    rw [hc.frames] at he
    exact (h.told e he).mono (by rw [hsaid]; exact List.Subset.refl _)
  · intro e he hcomp
    rw [hc.frames] at he
    rw [hc.callback]
    exact h.running e he hcomp
  · intro n k hq
    rw [hc.frames]
    rcases hc.request with hr | hr | ⟨c, hr, -⟩
    · rw [hr] at hq
      exact h.calling n k hq
    · rw [hq] at hr
      cases hr
    · rw [hq] at hr
      cases hr
  · intro ht c hcap
    rw [hes, (projections_calm s.log hcalm).1] at hcap
    apply (h.accounted (hopen ht) c hcap).step ⟨es, hes⟩
    intro f hmem hs
    exact .inl ⟨f, by rw [hc.frames]; exact hmem, hs⟩

theorem newFrame_incomplete (s : State) (c : Capturing) (settings : Metadata) :
    (newFrame s c settings).complete = false := by simp [newFrame, Frame.complete]

/-- A frame that is submitted has nothing done yet. -/
theorem inflight_submit {s t : State} {c : Capturing} (hadm : Admitted s c) (hsub : Submitted s c t)
    (hopen : t.request ≠ .closed → s.request ≠ .closed) (h : Inflight s) : Inflight t := by
  obtain ⟨settings, shown, hframes, hcallback, hrequest, hlog⟩ := hsub.spec
  have hfree := (Assoc.get_eq_none_iff _ _).mp hadm.free
  have hsaid : said t = said s := by
    simp [said, hlog, hcallback, Camera3.calls, Event.calls]
  constructor
  · intro e he
    rw [hframes] at he
    rcases List.mem_append.mp he with he | he
    · exact (h.told e he).mono (by rw [hsaid]; exact List.Subset.refl _)
    · rw [List.mem_singleton.mp he]
      constructor <;> intro hdone <;> cases hdone
  · intro e he hcomp
    rw [hframes] at he
    rw [hcallback]
    rcases List.mem_append.mp he with he | he
    · exact h.running e he hcomp
    · rw [List.mem_singleton.mp he] at hcomp
      dsimp only at hcomp
      rw [newFrame_incomplete] at hcomp
      cases hcomp
  · intro n k hq f hmem
    rw [hrequest] at hq
    cases hq
    rw [hframes] at hmem
    rcases List.mem_append.mp hmem with hmem | hmem
    · exact absurd (Assoc.mem_keys hmem) hfree
    · cases List.mem_singleton.mp hmem
      rfl
  · intro ht d hd
    have hcap : captures t.log = captures s.log ++ [⟨c.request.frameNumber, s.nextFrame, c.buffers,
        (newFrame s c settings).vendorBuffers⟩] := by
      simp [hlog, captures, Event.captures]
    rw [hcap] at hd
    rcases List.mem_append.mp hd with hd | hd
    · apply (h.accounted (hopen ht) d hd).step ⟨_, hlog⟩
      intro f hmem hs
      exact .inl ⟨f, by rw [hframes]; exact List.mem_append_left _ hmem, hs⟩
    · rw [List.mem_singleton.mp hd]
      refine .inl ⟨newFrame s c settings, ?_, rfl⟩
      rw [hframes]
      exact List.mem_append_right _ (List.mem_singleton_self _)

theorem captureAnswered_frames (s : State) (n k : Nat) (r : Int) :
    (captureAnswered s n k r).frames = if r ≠ 0 then s.frames.erase n else s.frames := rfl

/-- A frame the stock device refuses is dropped with its capture. -/
theorem inflight_answer {s : State} {n k : Nat} (r : Int) (hq : s.request = .calling n k)
    (h : Inflight s) : Inflight (captureAnswered s n k r) := by
  have hsub : ∀ e ∈ (captureAnswered s n k r).frames, e ∈ s.frames := by
    intro e he
    rw [captureAnswered_frames] at he
    split at he
    · exact (Assoc.mem_erase.mp he).1
    · exact he
  have hsaid : said (captureAnswered s n k r) = said s := by
    simp [said, captureAnswered, State.record, State.finish, Camera3.calls, Event.calls]
  have hlog : (captureAnswered s n k r).log =
      s.log ++ [.stockAnswer n k r, .returned .capture r] := by
    simp [captureAnswered, State.record, State.finish]
  constructor
  · intro e he
    exact (h.told e (hsub e he)).mono (by rw [hsaid]; exact List.Subset.refl _)
  · intro e he hcomp
    exact h.running e (hsub e he) hcomp
  · intro n' k' hq'
    cases hq'
  · intro _ c hc
    have hcap : captures (captureAnswered s n k r).log = captures s.log := by
      simp [hlog, captures, Event.captures]
    rw [hcap] at hc
    apply (h.accounted (by rw [hq]; simp) c hc).step ⟨_, hlog⟩
    intro f hmem hs
    by_cases hr : r = 0
    · exact .inl ⟨f, by rw [captureAnswered_frames, if_neg (not_not.mpr hr)]; exact hmem, hs⟩
    · by_cases hn : c.frame = n
      · -- the refused request is the one whose call returns
        have hk : f.serial = k := h.calling n k hq f (hn ▸ hmem)
        have hrej : Rejected (captureAnswered s n k r).log c.serial := by
          rw [← hs, hk, hlog]
          exact ⟨n, r, hr, by simp⟩
        exact .inr (.inr hrej)
      · have hkeep : (c.frame, f) ∈ s.frames.erase n := Assoc.mem_erase.mpr ⟨hmem, hn⟩
        exact .inl ⟨f, by rw [captureAnswered_frames, if_pos hr]; exact hkeep, hs⟩

theorem resultCalls_error (n : Nat) (metadata : Option Metadata) (output : List Delivery) :
    ∃ call ∈ resultCalls n metadata true output, call.endsMetadata n = true :=
  ⟨.notify (.error n .result .null), by simp [resultCalls], by simp [ClientCall.endsMetadata]⟩

theorem resultCalls_metadata (n : Nat) (m : Metadata) (error : Bool) (output : List Delivery) :
    ∃ call ∈ resultCalls n (some m) error output, call.endsMetadata n = true :=
  ⟨.result n (some m) output 1, by simp [resultCalls], by simp [ClientCall.endsMetadata]⟩

/-- The metadata part of a result tells the client when it ends the metadata. -/
theorem resultMetadata_told (alloc : Allocations) (f : Frame) (m : Option Metadata) (n : Nat)
    (output : List Delivery) (hdone : (resultMetadata alloc f m).1.metadataDone = true) :
    f.metadataDone = true ∨ ∃ call ∈ resultCalls n (resultMetadata alloc f m).2.1
      (resultMetadata alloc f m).2.2 output, call.endsMetadata n = true := by
  unfold resultMetadata at hdone ⊢
  split
  · exact .inl hdone
  · rename_i raw
    by_cases hold : f.metadataDone = true
    · exact .inl hold
    · right
      simp only [hold, Bool.false_eq_true, if_false] at hdone ⊢
      split
      · rename_i hpart
        simp only [hpart, if_true] at hdone
        dsimp only
        rw [hdone]
        exact resultCalls_error n _ output
      · dsimp only
        split
        · exact resultCalls_metadata n _ _ output
        · rename_i hbad
          simp only [hbad, Bool.not_false]
          exact resultCalls_error n _ output

theorem resultMetadata_shutter (alloc : Allocations) (f : Frame) (m : Option Metadata) :
    (resultMetadata alloc f m).1.shutterDone = f.shutterDone := by
  unfold resultMetadata
  split
  · rfl
  · split
    · rfl
    · split <;> rfl

/-- The frame of a result keeps its request, and it is done with what the metadata part says. -/
theorem returning_frame {s : State} (r : StockResult) (alloc : Allocations) {f : Frame}
    (hcount : f.remaining = f.returned.count false) :
    (returning s r alloc f).frame.serial = f.serial ∧
      (returning s r alloc f).frame.metadataDone = (resultMetadata alloc f r.metadata).1.metadataDone ∧
      (returning s r alloc f).frame.shutterDone = f.shutterDone := by
  have hsame := resultMetadata_same alloc f r.metadata
  have hspec := returnBuffers_spec s.callbacks (resultMetadata alloc f r.metadata).1 r
    (by rw [hsame.remaining, hsame.returned]; exact hcount)
  have hframe := hspec.frame
  unfold returning
  rw [hframe]
  exact ⟨hsame.serial, rfl, resultMetadata_shutter alloc f r.metadata⟩

/-- No frame is complete when no callback runs. -/
theorem Inflight.incomplete {s : State} (h : Inflight s) (hc : s.callback = .idle) {e : Nat × Frame}
    (he : e ∈ s.frames) : e.2.complete = false := by
  cases hcomp : e.2.complete with
  | false => rfl
  | true =>
    obtain ⟨cs, hcs⟩ := h.running e he hcomp
    rw [hc] at hcs
    cases hcs

/-- A callback changes one frame, keeps its request, and says what it has done. -/
theorem inflight_change {s t : State} {n : Nat} {f g : Frame} {es : List Event} {cs : List ClientCall}
    (h : Inflight s) (hc : s.callback = .idle)
    (hkeys : s.frames.keys.Nodup) (hmem : (n, f) ∈ s.frames) (hserial : g.serial = f.serial)
    (hframes : t.frames = s.frames.adjust n fun _ => g) (hrequest : t.request = s.request)
    (hcallback : t.callback = .delivering (some n) (some f.serial) cs) (hlog : t.log = s.log ++ es)
    (hcalls : Camera3.calls es = []) (hcaps : captures es = [])
    (hmeta : g.metadataDone = true → f.metadataDone = true ∨ ∃ c ∈ cs, c.endsMetadata n = true)
    (hshutter : g.shutterDone = true → f.shutterDone = true ∨ ∃ c ∈ cs, c.endsShutter n = true) :
    Inflight t := by
  have hsaid : said t = said s ++ cs.map fun c => (some f.serial, c) := by
    simp [said, hlog, calls_append, hcalls, hc, hcallback, Callback.calls]
  have hgrow : said s ⊆ said t := by
    rw [hsaid]
    exact List.subset_append_left _ _
  have hnew : ∀ c ∈ cs, (some g.serial, c) ∈ said t := by
    intro c hcmem
    rw [hsaid, hserial]
    exact List.mem_append_right _ (List.mem_map_of_mem hcmem)
  constructor
  · intro e he
    rw [hframes] at he
    rcases Assoc.mem_adjust.mp he with ⟨he, -⟩ | ⟨_, _, rfl⟩
    · exact (h.told e he).mono hgrow
    · constructor
      · intro hdone
        rcases hmeta hdone with hold | ⟨c, hcmem, hend⟩
        · obtain ⟨call, hcall, hend⟩ := (h.told _ hmem).metadata hold
          exact ⟨call, hserial ▸ hgrow hcall, hend⟩
        · exact ⟨c, hnew c hcmem, hend⟩
      · intro hdone
        rcases hshutter hdone with hold | ⟨c, hcmem, hend⟩
        · obtain ⟨call, hcall, hend⟩ := (h.told _ hmem).shutter hold
          exact ⟨call, hserial ▸ hgrow hcall, hend⟩
        · exact ⟨c, hnew c hcmem, hend⟩
  · intro e he hcomp
    rw [hframes] at he
    rcases Assoc.mem_adjust.mp he with ⟨he, -⟩ | ⟨_, _, rfl⟩
    · rw [h.incomplete hc he] at hcomp
      cases hcomp
    · exact ⟨cs, by rw [hcallback, hserial]⟩
  · intro m k hq d hd
    rw [hrequest] at hq
    rw [hframes] at hd
    rcases Assoc.mem_adjust.mp hd with ⟨hd, -⟩ | ⟨b, hb, heq⟩
    · exact h.calling m k hq d hd
    · cases heq
      rw [hserial]
      exact h.calling n k hq f hmem
  · intro ht c hcap
    have hcap' : captures t.log = captures s.log := by
      rw [hlog]
      simp only [captures, List.flatMap_append] at hcaps ⊢
      rw [hcaps, List.append_nil]
    rw [hcap'] at hcap
    rw [hrequest] at ht
    apply (h.accounted ht c hcap).step ⟨es, hlog⟩
    intro d hd hs
    left
    rw [hframes]
    by_cases hn : c.frame = n
    · have heq := Assoc.eq_of_mem hkeys hd hmem hn
      cases heq
      exact ⟨g, Assoc.mem_adjust.mpr (.inr ⟨f, hmem, rfl⟩), hserial.trans hs⟩
    · exact ⟨d, Assoc.mem_adjust.mpr (.inl ⟨hd, hn⟩), hs⟩

theorem inflight_result {s : State} {r : StockResult} (alloc : Allocations) (hb : (books s).Ok)
    (hc : s.callback = .idle) (h : Inflight s) : Inflight (stockResult s r alloc) := by
  cases hg : s.frames.get r.frame with
  | none =>
    rw [stockResult_unknown alloc hg]
    have hlog := projections_result s.log s.callbacks r (handedFences s.callbacks 0 r.buffers)
    have hsaid : calls (s.log ++ (.stockResult s.callbacks r ::
        (handedFences s.callbacks 0 r.buffers).map .fenceClosed)) = calls s.log := by
      rw [calls_append]
      simp [Camera3.calls, Event.calls, List.flatMap_map]
    constructor
    · intro e he
      refine (h.told e he).mono ?_
      simp only [said, hsaid]
      exact List.Subset.refl _
    · exact h.running
    · exact h.calling
    · intro ht c hcap
      rw [hlog.1] at hcap
      apply (h.accounted ht c hcap).step ⟨_, rfl⟩
      intro f hmem hs
      exact .inl ⟨f, hmem, hs⟩
  | some f =>
    have hmem : (r.frame, f) ∈ s.frames := Assoc.mem_of_get hg
    obtain ⟨hserial, hmeta, hshutter⟩ := returning_frame (s := s) r alloc (hb.frame _ hmem).remaining
    have hknown := stockResult_known alloc hg
    have hframes := congrArg State.frames hknown
    have hrequest := congrArg State.request hknown
    have hcallback := congrArg State.callback hknown
    have hlog := congrArg State.log hknown
    apply inflight_change h hc hb.keys hmem hserial hframes hrequest hcallback hlog
    · simp [Camera3.calls, Event.calls, List.flatMap_map]
    · simp [captures, Event.captures, List.flatMap_map]
    · intro hdone
      rw [hmeta] at hdone
      exact resultMetadata_told alloc f r.metadata r.frame _ hdone
    · intro hdone
      exact .inl (hshutter ▸ hdone)

/-- A message sets a flag only where it tells the client. -/
theorem notifyFrame_told (f : Frame) (m : Message) (streams : StreamMap) {n : Nat}
    (hn : m.frame = some n) :
    ((notifyFrame f m).metadataDone = true → f.metadataDone = true ∨
      (ClientCall.notify (convertMessage streams m)).endsMetadata n = true) ∧
    ((notifyFrame f m).shutterDone = true → f.shutterDone = true ∨
      (ClientCall.notify (convertMessage streams m)).endsShutter n = true) := by
  cases m with
  | shutter k timestamp =>
    cases hn
    simp [notifyFrame, convertMessage, ClientCall.endsMetadata, ClientCall.endsShutter]
  | error k code stream =>
    cases hn
    simp only [notifyFrame, convertMessage, ClientCall.endsMetadata, ClientCall.endsShutter,
      Bool.or_eq_true, Bool.and_eq_true, decide_eq_true_eq, true_and]
    constructor
    · rintro ((hold | hreq) | hres)
      · exact .inl hold
      · exact .inr (.inr hreq)
      · exact .inr (.inl hres)
    · rintro (hold | hreq)
      · exact .inl hold
      · exact .inr hreq
  | other type => cases hn

theorem inflight_notify {s : State} (m : Message) (hb : (books s).Ok) (hc : s.callback = .idle)
    (h : Inflight s) : Inflight (stockNotify s m) := by
  have hlog : (stockNotify s m).log = s.log ++ [] := (List.append_nil _).symm
  cases hl : s.frames.lookup m.frame with
  | none =>
    have hframes : (stockNotify s m).frames = s.frames := by simp [stockNotify, hl]
    constructor
    · intro e he
      rw [hframes] at he
      refine (h.told e he).mono ?_
      have hs : said s = calls s.log := by simp [said, hc, Callback.calls]
      rw [hs]
      exact List.subset_append_left _ _
    · intro e he hcomp
      rw [hframes] at he
      rw [h.incomplete hc he] at hcomp
      cases hcomp
    · intro n k hq
      rw [hframes]
      exact h.calling n k hq
    · intro ht c hcap
      apply (h.accounted ht c hcap).step ⟨[], hlog⟩
      intro f hmem hs
      exact .inl ⟨f, by rw [hframes]; exact hmem, hs⟩
  | some e =>
    obtain ⟨n, f⟩ := e
    obtain ⟨hn, hg⟩ := lookup_some hl
    obtain ⟨hmeta, hshutter⟩ := notifyFrame_told f m s.streams hn
    have hframes : (stockNotify s m).frames = s.frames.adjust n fun _ => notifyFrame f m := by
      simp [stockNotify, hl]
    have hcallback : (stockNotify s m).callback = .delivering (some n) (some f.serial)
        [.notify (convertMessage s.streams m)] := by
      rw [hn] at hl
      simp [stockNotify, hl, hn]
    apply inflight_change h hc hb.keys (Assoc.mem_of_get hg) (notifyFrame_same f m).serial hframes rfl
      hcallback hlog rfl rfl
    · simpa using hmeta
    · simpa using hshutter

theorem inflight_deliver {s : State} {frame owner : Option Nat} {c : ClientCall} {cs : List ClientCall}
    (hc : s.callback = .delivering frame owner (c :: cs)) (h : Inflight s) :
    Inflight ({ s with callback := .delivering frame owner cs }.record [.client owner c]) := by
  have hsaid : said ({ s with callback := .delivering frame owner cs }.record [.client owner c]) =
      said s := by
    simp [said, State.record, hc, Callback.calls, Camera3.calls, Event.calls]
  constructor
  · intro e he
    exact (h.told e he).mono (by rw [hsaid]; exact List.Subset.refl _)
  · intro e he hcomp
    obtain ⟨ds, hds⟩ := h.running e he hcomp
    rw [hc] at hds
    cases hds
    exact ⟨cs, rfl⟩
  · exact h.calling
  · intro ht d hd
    have hcap : captures (s.log ++ [.client owner c]) = captures s.log := by
      simp [captures, Event.captures]
    apply (h.accounted ht d (hcap ▸ hd)).step ⟨[.client owner c], rfl⟩
    intro f hmem hs
    exact .inl ⟨f, hmem, hs⟩

/-- Everything a complete frame waits for has reached the client when its callback is done. -/
theorem finished_of_complete {s : State} (hb : (books s).Ok) (h : Inflight s) {n : Nat} {f : Frame}
    (hmem : (n, f) ∈ s.frames) (hcomp : f.complete = true)
    (hc : s.callback = .delivering (some n) (some f.serial) []) :
    Finished s.log (captured (n, f)) := by
  have hok := hb.frame _ hmem
  have hissued : issued s = delivered s.log := by simp [issued, hc, Callback.pending]
  have hsaid : said s = calls s.log := by simp [said, hc, Callback.calls]
  simp only [Frame.complete, Bool.and_eq_true, decide_eq_true_eq] at hcomp
  obtain ⟨⟨hzero, hmeta⟩, hshutter⟩ := hcomp
  have hcount : f.returned.count false = 0 := by
    have hrem := hok.remaining
    dsimp only at hrem
    omega
  constructor
  · intro i hi
    have hlen : i < f.returned.length := by
      have hl := hok.length
      dsimp only [captured] at hl hi
      omega
    have htrue : f.returned[i]? = some true := by
      rw [List.getElem?_eq_getElem hlen]
      cases hv : f.returned[i] with
      | true => rfl
      | false => exact absurd (hv ▸ List.getElem_mem hlen) (List.count_eq_zero.mp hcount)
    obtain ⟨e, he, hs, hidx⟩ := (hok.returned i).mp htrue
    obtain ⟨c, hcap, hcs, hcn, -⟩ := hb.returned e he
    have hsame := List.inj_on_of_nodup_map hb.serials hcap hok.capture (hcs.trans hs)
    have hn : c.frame = n := congrArg Capture.frame hsame
    have hdel : e ∈ delivered s.log := hissued ▸ he
    exact ⟨e, hdel, hcn.symm.trans hn, hs, hidx⟩
  · have ht := (h.told _ hmem).metadata hmeta
    rw [hsaid] at ht
    exact ht
  · have ht := (h.told _ hmem).shutter hshutter
    rw [hsaid] at ht
    exact ht

/-- A frame is retired once its client has everything. -/
theorem inflight_retire {s : State} {frame owner : Option Nat} (hb : (books s).Ok)
    (hc : s.callback = .delivering frame owner []) (h : Inflight s) : Inflight (retire s frame) := by
  have hsub : ∀ e ∈ (retire s frame).frames, e ∈ s.frames := by
    intro e he
    rcases retire_frames s frame with ⟨hf, -⟩ | ⟨n, f, -, -, -, hf⟩
    · rw [hf] at he
      exact he
    · rw [hf] at he
      exact (Assoc.mem_erase.mp he).1
  have hsaid : said (retire s frame) = said s := by
    simp [said, retire, hc, Callback.calls]
  constructor
  · intro e he
    exact (h.told e (hsub e he)).mono (by rw [hsaid]; exact List.Subset.refl _)
  · intro e he hcomp
    obtain ⟨cs, hcs⟩ := h.running e (hsub e he) hcomp
    rw [hc] at hcs
    cases hcs
    have hget : s.frames.get e.1 = some e.2 := Assoc.get_of_mem hb.keys (hsub e he)
    rcases retire_frames s (some e.1) with ⟨-, hkept⟩ | ⟨n, f, hn, -, -, hf⟩
    · rw [hkept e.1 e.2 rfl hget] at hcomp
      cases hcomp
    · rw [hf] at he
      cases hn
      exact absurd rfl (Assoc.mem_erase.mp he).2
  · intro n k hq f hmem
    exact h.calling n k hq f (hsub _ hmem)
  · intro ht c hcap
    have hlog : (retire s frame).log = s.log ++ [] := (List.append_nil _).symm
    apply (h.accounted ht c hcap).step ⟨[], hlog⟩
    intro f hmem hs
    rcases retire_frames s frame with ⟨hf, -⟩ | ⟨n, g, hn, hg, hcomp, hf⟩
    · exact .inl ⟨f, by rw [hf]; exact hmem, hs⟩
    · by_cases hcn : c.frame = n
      · have hgmem : (n, g) ∈ s.frames := Assoc.mem_of_get hg
        have heq := Assoc.eq_of_mem hb.keys hmem hgmem hcn
        cases heq
        obtain ⟨cs, hcs⟩ := h.running _ hmem hcomp
        have hnil : cs = [] := by
          rw [hc] at hcs
          cases hcs
          rfl
        subst hnil
        have hfin := finished_of_complete hb h hmem hcomp hcs
        have hsame := List.inj_on_of_nodup_map hb.serials hcap (hb.frame _ hmem).capture hs.symm
        rw [hsame]
        exact .inr (.inl hfin)
      · exact .inl ⟨f, by rw [hf]; exact Assoc.mem_erase.mpr ⟨hmem, hcn⟩, hs⟩

theorem Traffic.inflight {s t : State} {a : Action} (ht : Traffic s a t) (hp : Prepared s)
    (hb : (books s).Ok) (hopen : t.request ≠ .closed → s.request ≠ .closed) (h : Inflight s) :
    Inflight t := by
  cases ht with
  | calm a t hc => exact inflight_calm hc hopen h
  | submit clone alloc c t hq hsub =>
    have hcap : s.request.capturing = some c := by rw [hq]; rfl
    exact inflight_submit (hp c hcap) hsub hopen h
  | answer r n k hq => exact inflight_answer r hq h
  | closeEnd r t hq hr hf hc hn hs hl =>
    constructor
    · intro e he
      rw [hf] at he
      cases he
    · intro e he
      rw [hf] at he
      cases he
    · intro n k hk
      rw [hr] at hk
      cases hk
    · intro hne
      exact absurd hr hne
  | result r alloc hc hq => exact inflight_result alloc hb hc h
  | notify m hc hq => exact inflight_notify m hb hc h
  | deliver frame owner c calls hc => exact inflight_deliver hc h
  | retire frame owner hc => exact inflight_retire hb hc h

theorem Reachable.inflight {s : State} (h : Reachable s) : Inflight s := by
  apply h.invariant Inflight
  · intro s hi
    exact initial_inflight hi
  · intro s a t hs hin ht
    have hopen : t.request ≠ .closed → s.request ≠ .closed := fun hne hq => hne (step_closed ht hq)
    exact (step_traffic ht).inflight (Reachable.prepared hs) (Reachable.books_ok hs) hopen hin

end Invariant

section Converse

/-- The converse of `Told`: what was said about a request counts as done in its frame. A call with
an owner is about a request that the stock device once got. -/
structure Heard (s : State) : Prop where
  owned : ∀ e ∈ said s, ∀ k, e.1 = some k → ∃ c ∈ captures s.log, c.serial = k
  metadata : ∀ e ∈ s.frames, ∀ call, (some e.2.serial, call) ∈ said s →
    call.endsMetadata e.1 = true → e.2.metadataDone = true
  shutter : ∀ e ∈ s.frames, ∀ call, (some e.2.serial, call) ∈ said s →
    call.endsShutter e.1 = true → e.2.shutterDone = true

theorem initial_heard {s : State} (h : Initial s) : Heard s := by
  have hsaid : said s = [] := by
    simp [said, h.log, h.callback, Camera3.calls, Event.calls, Callback.calls]
  constructor
  · intro e he
    rw [hsaid] at he
    cases he
  · intro e he
    rw [h.frames] at he
    cases he
  · intro e he
    rw [h.frames] at he
    cases he

/-- Frames may leave, and calls without an owner may be added. -/
theorem Heard.keep {s t : State} (h : Heard s) (hframes : ∀ e ∈ t.frames, e ∈ s.frames)
    (hsaid : ∀ e ∈ said t, e ∈ said s ∨ e.1 = none)
    (hcaps : ∀ c ∈ captures s.log, c ∈ captures t.log) : Heard t := by
  have hold : ∀ k call, (some k, call) ∈ said t → (some k, call) ∈ said s := by
    intro k call hcall
    rcases hsaid _ hcall with hcall | hnone
    · exact hcall
    · cases hnone
  constructor
  · intro e he k hk
    rcases hsaid e he with he | hnone
    · obtain ⟨c, hc, hserial⟩ := h.owned e he k hk
      exact ⟨c, hcaps c hc, hserial⟩
    · rw [hnone] at hk
      cases hk
  · intro e he call hcall hends
    exact h.metadata e (hframes e he) call (hold _ call hcall) hends
  · intro e he call hcall hends
    exact h.shutter e (hframes e he) call (hold _ call hcall) hends

theorem heard_calm {s t : State} (hc : Calm s t) (h : Heard s) : Heard t := by
  obtain ⟨es, hes, hcalm⟩ := hc.log
  have hsaid : said t = said s := by
    simp [said, hes, calls_append, calls_calm hcalm, hc.callback]
  apply h.keep
  · intro e he
    rw [hc.frames] at he
    exact he
  · intro e he
    rw [hsaid] at he
    exact .inl he
  · intro c hcap
    rw [hes, (projections_calm s.log hcalm).1]
    exact hcap

/-- Nothing was ever said about a request that is new. -/
theorem heard_submit {s t : State} {c : Capturing} (hb : (books s).Ok) (hsub : Submitted s c t)
    (h : Heard s) : Heard t := by
  obtain ⟨settings, shown, hframes, hcallback, -, hlog⟩ := hsub.spec
  have hsaid : said t = said s := by
    simp [said, hlog, hcallback, Camera3.calls, Event.calls]
  have hnew : ∀ call, (some s.nextFrame, call) ∉ said s := by
    intro call hcall
    obtain ⟨d, hd, hserial⟩ := h.owned _ hcall _ rfl
    have hbound : d.serial < s.nextFrame := hb.serialBound d hd
    omega
  constructor
  · intro e he k hk
    rw [hsaid] at he
    obtain ⟨d, hd, hserial⟩ := h.owned e he k hk
    refine ⟨d, ?_, hserial⟩
    rw [hlog]
    simp only [captures, List.flatMap_append] at hd ⊢
    exact List.mem_append_left _ hd
  · intro e he call hcall hends
    rw [hsaid] at hcall
    rw [hframes] at he
    rcases List.mem_append.mp he with he | he
    · exact h.metadata e he call hcall hends
    · rw [List.mem_singleton.mp he] at hcall
      exact absurd hcall (hnew call)
  · intro e he call hcall hends
    rw [hsaid] at hcall
    rw [hframes] at he
    rcases List.mem_append.mp he with he | he
    · exact h.shutter e he call hcall hends
    · rw [List.mem_singleton.mp he] at hcall
      exact absurd hcall (hnew call)

/-- An answer tells the client nothing. -/
theorem heard_answer {s : State} {n k : Nat} (r : Int) (h : Heard s) :
    Heard (captureAnswered s n k r) := by
  apply h.keep
  · intro e he
    rw [captureAnswered_frames] at he
    split at he
    · exact (Assoc.mem_erase.mp he).1
    · exact he
  · intro e he
    left
    simpa [said, captureAnswered, State.record, State.finish, Camera3.calls, Event.calls] using he
  · intro c hc
    simpa [captureAnswered, State.record, State.finish, captures, Event.captures] using hc

/-- A callback changes one frame; what it says about the request the frame counts as done. -/
theorem heard_change {s t : State} {n : Nat} {f g : Frame} {es : List Event} {cs : List ClientCall}
    (hb : (books s).Ok) (h : Heard s) (hc : s.callback = .idle) (hmem : (n, f) ∈ s.frames)
    (hserial : g.serial = f.serial) (hframes : t.frames = s.frames.adjust n fun _ => g)
    (hcallback : t.callback = .delivering (some n) (some f.serial) cs) (hlog : t.log = s.log ++ es)
    (hcalls : Camera3.calls es = [])
    (hmeta : ∀ c ∈ cs, c.endsMetadata n = true → g.metadataDone = true)
    (hshutter : ∀ c ∈ cs, c.endsShutter n = true → g.shutterDone = true)
    (hmetaOld : f.metadataDone = true → g.metadataDone = true)
    (hshutterOld : f.shutterDone = true → g.shutterDone = true) : Heard t := by
  have hsaid : said t = said s ++ cs.map fun c => (some f.serial, c) := by
    simp [said, hlog, calls_append, hcalls, hc, hcallback, Callback.calls]
  have hcaps : ∀ c ∈ captures s.log, c ∈ captures t.log := by
    intro c hcap
    rw [hlog]
    simp only [captures, List.flatMap_append] at hcap ⊢
    exact List.mem_append_left _ hcap
  -- the calls are about this request, and other frames belong to other requests
  have hother : ∀ e ∈ s.frames, e.1 ≠ n → ∀ call, (some e.2.serial, call) ∈ said t →
      (some e.2.serial, call) ∈ said s := by
    intro e he hne call hcall
    rw [hsaid] at hcall
    rcases List.mem_append.mp hcall with hcall | hcall
    · exact hcall
    · obtain ⟨c, -, heq⟩ := List.mem_map.mp hcall
      have hsame : e.2.serial = f.serial := (Option.some.inj (congrArg Prod.fst heq)).symm
      exact absurd (congrArg Prod.fst (hb.serial_inj he hmem hsame)) hne
  have hown : ∀ call, (some g.serial, call) ∈ said t → (some f.serial, call) ∈ said s ∨ call ∈ cs := by
    intro call hcall
    rw [hsaid, hserial] at hcall
    rcases List.mem_append.mp hcall with hcall | hcall
    · exact .inl hcall
    · obtain ⟨c, hcmem, heq⟩ := List.mem_map.mp hcall
      cases heq
      exact .inr hcmem
  constructor
  · intro e he k hk
    rw [hsaid] at he
    rcases List.mem_append.mp he with he | he
    · obtain ⟨c, hcap, hs⟩ := h.owned e he k hk
      exact ⟨c, hcaps c hcap, hs⟩
    · obtain ⟨c, -, rfl⟩ := List.mem_map.mp he
      cases hk
      exact ⟨_, hcaps _ (hb.frame _ hmem).capture, rfl⟩
  · intro e he call hcall hends
    rw [hframes] at he
    rcases Assoc.mem_adjust.mp he with ⟨he, hne⟩ | ⟨_, _, rfl⟩
    · exact h.metadata e he call (hother e he hne call hcall) hends
    · rcases hown call hcall with hold | hnew
      · exact hmetaOld (h.metadata _ hmem call hold hends)
      · exact hmeta call hnew hends
  · intro e he call hcall hends
    rw [hframes] at he
    rcases Assoc.mem_adjust.mp he with ⟨he, hne⟩ | ⟨_, _, rfl⟩
    · exact h.shutter e he call (hother e he hne call hcall) hends
    · rcases hown call hcall with hold | hnew
      · exact hshutterOld (h.shutter _ hmem call hold hends)
      · exact hshutter call hnew hends

/-- The metadata part of a result ends the metadata whenever the client hears that it does. -/
theorem resultMetadata_heard (alloc : Allocations) (f : Frame) (m : Option Metadata) (n : Nat)
    (output : List Delivery) : ∀ call ∈ resultCalls n (resultMetadata alloc f m).2.1
      (resultMetadata alloc f m).2.2 output, call.endsMetadata n = true →
        (resultMetadata alloc f m).1.metadataDone = true := by
  have hnothing : ∀ call ∈ resultCalls n none false output, call.endsMetadata n = false := by
    intro call hcall
    simp only [resultCalls, Bool.false_eq_true, if_false, List.nil_append, Option.isSome_none,
      Bool.false_or] at hcall
    split at hcall
    · rw [List.mem_singleton.mp hcall]
      simp [ClientCall.endsMetadata]
    · cases hcall
  have hsilent : ∀ g : Frame, ∀ call ∈ resultCalls n none false output,
      call.endsMetadata n = true → g.metadataDone = true := by
    intro g call hcall hends
    rw [hnothing call hcall] at hends
    cases hends
  unfold resultMetadata
  split
  · exact hsilent f
  · split
    · exact hsilent f
    · split
      · dsimp only
        cases hok : (mergeMetadata alloc f.partials _).ok with
        | true =>
          intro call hcall hends
          rw [hnothing call hcall] at hends
          cases hends
        | false => exact fun _ _ _ => rfl
      · exact fun _ _ _ => rfl

/-- Metadata that is done stays done. -/
theorem resultMetadata_keeps (alloc : Allocations) (f : Frame) (m : Option Metadata)
    (hdone : f.metadataDone = true) : (resultMetadata alloc f m).1.metadataDone = true := by
  unfold resultMetadata
  split
  · exact hdone
  · rw [if_pos hdone]
    exact hdone

/-- A result does not speak of the shutter. -/
theorem resultCalls_shutter (n : Nat) (metadata : Option Metadata) (error : Bool)
    (output : List Delivery) :
    ∀ call ∈ resultCalls n metadata error output, call.endsShutter n = false := by
  intro call hcall
  simp only [resultCalls, List.mem_append] at hcall
  rcases hcall with hcall | hcall
  · split at hcall
    · rw [List.mem_singleton.mp hcall]
      simp [ClientCall.endsShutter]
    · cases hcall
  · split at hcall
    · rw [List.mem_singleton.mp hcall]
      rfl
    · cases hcall

/-- What a result says to the client shows in the flags of its frame. -/
theorem heard_result {s : State} {r : StockResult} (alloc : Allocations) (hb : (books s).Ok)
    (hc : s.callback = .idle) (h : Heard s) : Heard (stockResult s r alloc) := by
  cases hg : s.frames.get r.frame with
  | none =>
    rw [stockResult_unknown alloc hg]
    have hlog := projections_result s.log s.callbacks r (handedFences s.callbacks 0 r.buffers)
    apply h.keep
    · exact fun e he => he
    · intro e he
      left
      simpa [said, calls_append, Camera3.calls, Event.calls, List.flatMap_map] using he
    · intro c hcap
      rw [hlog.1]
      exact hcap
  | some f =>
    have hmem : (r.frame, f) ∈ s.frames := Assoc.mem_of_get hg
    obtain ⟨hserial, hmeta, hshutter⟩ := returning_frame (s := s) r alloc (hb.frame _ hmem).remaining
    have hknown := stockResult_known alloc hg
    have hframes := congrArg State.frames hknown
    have hcallback := congrArg State.callback hknown
    have hlog := congrArg State.log hknown
    apply heard_change hb h hc hmem hserial hframes hcallback hlog
    · simp [Camera3.calls, Event.calls, List.flatMap_map]
    · intro call hcall hends
      rw [hmeta]
      exact resultMetadata_heard alloc f r.metadata r.frame _ call hcall hends
    · intro call hcall hends
      rw [resultCalls_shutter r.frame _ _ _ call hcall] at hends
      cases hends
    · intro hdone
      rw [hmeta]
      exact resultMetadata_keeps alloc f r.metadata hdone
    · intro hdone
      rw [hshutter]
      exact hdone

/-- A notification that ends the metadata or the shutter for the client ends it in the frame. -/
theorem notifyFrame_heard (f : Frame) (m : Message) (streams : StreamMap) {n : Nat}
    (hn : m.frame = some n) :
    ((ClientCall.notify (convertMessage streams m)).endsMetadata n = true →
      (notifyFrame f m).metadataDone = true) ∧
    ((ClientCall.notify (convertMessage streams m)).endsShutter n = true →
      (notifyFrame f m).shutterDone = true) := by
  cases m with
  | shutter k timestamp => simp [notifyFrame, convertMessage, ClientCall.endsMetadata]
  | error k code stream =>
    cases hn
    simp only [notifyFrame, convertMessage, ClientCall.endsMetadata, ClientCall.endsShutter,
      Bool.or_eq_true, Bool.and_eq_true, decide_eq_true_eq, true_and]
    constructor
    · rintro (hres | hreq)
      · exact .inr hres
      · exact .inl (.inr hreq)
    · exact fun hreq => .inr hreq
  | other type => cases hn

/-- No message takes a flag back. -/
theorem notifyFrame_keeps (f : Frame) (m : Message) :
    (f.metadataDone = true → (notifyFrame f m).metadataDone = true) ∧
    (f.shutterDone = true → (notifyFrame f m).shutterDone = true) := by
  cases m with
  | shutter k timestamp => exact ⟨id, fun _ => rfl⟩
  | error k code stream => exact ⟨fun h => by simp [notifyFrame, h], fun h => by simp [notifyFrame, h]⟩
  | other type => exact ⟨id, id⟩

/-- What a message says to the client shows in the flags of its frame. -/
theorem heard_notify {s : State} (m : Message) (hb : (books s).Ok) (hc : s.callback = .idle)
    (h : Heard s) : Heard (stockNotify s m) := by
  have hlog : (stockNotify s m).log = s.log ++ [] := (List.append_nil _).symm
  cases hl : s.frames.lookup m.frame with
  | none =>
    apply h.keep
    · intro e he
      simpa [stockNotify, hl] using he
    · intro e he
      simp only [said, stockNotify, hl, Callback.calls, Option.map_none, List.map_cons, List.map_nil] at he
      rcases List.mem_append.mp he with he | he
      · exact .inl (List.mem_append_left _ he)
      · rw [List.mem_singleton.mp he]
        exact .inr rfl
    · exact fun c hcap => hcap
  | some e =>
    obtain ⟨n, f⟩ := e
    obtain ⟨hn, hg⟩ := lookup_some hl
    obtain ⟨hmeta, hshutter⟩ := notifyFrame_heard f m s.streams hn
    obtain ⟨hmetaOld, hshutterOld⟩ := notifyFrame_keeps f m
    have hframes : (stockNotify s m).frames = s.frames.adjust n fun _ => notifyFrame f m := by
      simp [stockNotify, hl]
    have hcallback : (stockNotify s m).callback = .delivering (some n) (some f.serial)
        [.notify (convertMessage s.streams m)] := by
      rw [hn] at hl
      simp [stockNotify, hl, hn]
    apply heard_change hb h hc (Assoc.mem_of_get hg) (notifyFrame_same f m).serial hframes hcallback
      hlog rfl
    · simpa using hmeta
    · simpa using hshutter
    · exact hmetaOld
    · exact hshutterOld

/-- A call that is made was counted as said before. -/
theorem heard_deliver {s : State} {frame owner : Option Nat} {c : ClientCall} {cs : List ClientCall}
    (hc : s.callback = .delivering frame owner (c :: cs)) (h : Heard s) :
    Heard ({ s with callback := .delivering frame owner cs }.record [.client owner c]) := by
  apply h.keep
  · exact fun e he => he
  · intro e he
    left
    simpa [said, State.record, hc, Callback.calls, Camera3.calls, Event.calls] using he
  · intro d hd
    simpa [State.record, captures, Event.captures] using hd

theorem heard_retire {s : State} {frame owner : Option Nat}
    (hc : s.callback = .delivering frame owner []) (h : Heard s) : Heard (retire s frame) := by
  apply h.keep
  · intro e he
    rcases retire_frames s frame with ⟨hf, -⟩ | ⟨n, f, -, -, -, hf⟩
    · rw [hf] at he
      exact he
    · rw [hf] at he
      exact (Assoc.mem_erase.mp he).1
  · intro e he
    left
    simpa [said, retire, hc, Callback.calls] using he
  · exact fun d hd => hd

/-- The step lemma, the other way round than for `Told`. -/
theorem Traffic.heard {s t : State} {a : Action} (ht : Traffic s a t) (hb : (books s).Ok)
    (h : Heard s) : Heard t := by
  cases ht with
  | calm a t hc => exact heard_calm hc h
  | submit clone alloc c t hq hsub => exact heard_submit hb hsub h
  | answer r n k hq => exact heard_answer r h
  | closeEnd r t hq hr hf hc hn hs hl =>
    obtain ⟨es, hes, hcalm⟩ := hl
    apply h.keep
    · intro e he
      rw [hf] at he
      cases he
    · intro e he
      left
      simpa [said, hes, calls_append, calls_calm hcalm, hc] using he
    · intro c hcap
      rw [hes, (projections_calm s.log hcalm).1]
      exact hcap
  | result r alloc hc hq => exact heard_result alloc hb hc h
  | notify m hc hq => exact heard_notify m hb hc h
  | deliver frame owner c calls hc => exact heard_deliver hc h
  | retire frame owner hc => exact heard_retire hc h

theorem Reachable.heard {s : State} (h : Reachable s) : Heard s := by
  apply h.invariant Heard
  · intro s hi
    exact initial_heard hi
  · intro s a t hs hin ht
    exact (step_traffic ht).heard (Reachable.books_ok hs) hin

/-- A frame is complete as soon as its request is finished for the client. -/
theorem complete_of_finished {s : State} (hb : (books s).Ok) (h : Heard s) {n : Nat} {f : Frame}
    (hmem : (n, f) ∈ s.frames) (hfin : Finished s.log (captured (n, f))) : f.complete = true := by
  have hok := hb.frame _ hmem
  have hall : ∀ i < f.returned.length, f.returned[i]? = some true := by
    intro i hi
    have hlen : i < f.clientBuffers.length := by
      have hl := hok.length
      dsimp only at hl
      omega
    obtain ⟨e, he, -, hserial, hidx⟩ := hfin.buffers i hlen
    exact (hok.returned i).mpr ⟨e, List.mem_append_left _ he, hserial, hidx⟩
  have hcount : f.returned.count false = 0 := by
    apply List.count_eq_zero.mpr
    intro hfalse
    obtain ⟨i, hi, hget⟩ := List.mem_iff_getElem.mp hfalse
    have htrue := hall i hi
    rw [List.getElem?_eq_getElem hi, hget] at htrue
    cases htrue
  have hzero : f.remaining = 0 := by
    have hrem := hok.remaining
    dsimp only at hrem
    omega
  obtain ⟨m, hm, hmends⟩ := hfin.metadata
  obtain ⟨c, hc, hcends⟩ := hfin.shutter
  have hmeta := h.metadata _ hmem m (List.mem_append_left _ hm) hmends
  have hshutter := h.shutter _ hmem c (List.mem_append_left _ hc) hcends
  simp only [Frame.complete, hzero, decide_true, Bool.true_and, Bool.and_eq_true]
  exact ⟨hmeta, hshutter⟩

end Converse

section Results

/-- The request is no longer in flight. -/
def Gone (t : State) (e : Nat × Frame) : Prop := ∀ f, (e.1, f) ∈ t.frames → f.serial ≠ e.2.serial

theorem not_gone {t : State} {e : Nat × Frame} {f : Frame} (hf : (e.1, f) ∈ t.frames)
    (hs : f.serial = e.2.serial) : ¬Gone t e := fun h => h f hf hs

/-- A callback changes a frame in place. -/
theorem not_gone_adjust {s t : State} {n : Nat} {f g : Frame} (hkeys : s.frames.keys.Nodup)
    (hf : (n, f) ∈ s.frames) (hg : g.serial = f.serial)
    (hframes : t.frames = s.frames.adjust n fun _ => g) {e : Nat × Frame} (he : e ∈ s.frames) :
    ¬Gone t e := by
  by_cases hn : e.1 = n
  · have heq := Assoc.eq_of_mem hkeys he hf hn
    subst heq
    have hmem : (n, g) ∈ t.frames := by
      rw [hframes]
      exact Assoc.mem_adjust.mpr (.inr ⟨f, hf, rfl⟩)
    exact not_gone hmem hg
  · have hmem : (e.1, e.2) ∈ t.frames := by
      rw [hframes]
      exact Assoc.mem_adjust.mpr (.inl ⟨he, hn⟩)
    exact not_gone hmem rfl

/-- Three ways for a request to leave. -/
theorem Traffic.gone {s t : State} {a : Action} (ht : Traffic s a t) (hb : (books s).Ok)
    (h : Inflight s) {e : Nat × Frame} (he : e ∈ s.frames) (hgone : Gone t e) :
    (a = .retire ∧ s.callback = .delivering (some e.1) (some e.2.serial) [] ∧ e.2.complete = true) ∨
    (∃ r, a = .answer r ∧ r ≠ 0 ∧ s.request = .calling e.1 e.2.serial) ∨ ∃ r, a = .closeEnd r := by
  cases ht with
  | calm a t hc =>
    have hmem : (e.1, e.2) ∈ t.frames := by
      rw [hc.frames]
      exact he
    exact absurd hgone (not_gone hmem rfl)
  | submit clone alloc c t hq hsub =>
    obtain ⟨settings, shown, hframes, -⟩ := hsub.spec
    have hmem : (e.1, e.2) ∈ t.frames := by
      rw [hframes]
      exact List.mem_append_left _ he
    exact absurd hgone (not_gone hmem rfl)
  | answer r n k hq =>
    right
    left
    by_cases hr : r = 0
    · have hmem : (e.1, e.2) ∈ (captureAnswered s n k r).frames := by
        rw [captureAnswered_frames, if_neg (not_not.mpr hr)]
        exact he
      exact absurd hgone (not_gone hmem rfl)
    · by_cases hn : e.1 = n
      · subst hn
        exact ⟨r, rfl, hr, by rw [h.calling e.1 k hq e.2 he]; exact hq⟩
      · have hmem : (e.1, e.2) ∈ (captureAnswered s n k r).frames := by
          rw [captureAnswered_frames, if_pos hr]
          exact Assoc.mem_erase.mpr ⟨he, hn⟩
        exact absurd hgone (not_gone hmem rfl)
  | closeEnd r t => exact .inr (.inr ⟨r, rfl⟩)
  | result r alloc hc hq =>
    cases hg : s.frames.get r.frame with
    | none =>
      rw [stockResult_unknown alloc hg] at hgone
      exact absurd hgone (not_gone he rfl)
    | some f =>
      have hf : (r.frame, f) ∈ s.frames := Assoc.mem_of_get hg
      have hserial := (returning_frame (s := s) r alloc (hb.frame _ hf).remaining).1
      have hframes := congrArg State.frames (stockResult_known alloc hg)
      exact absurd hgone (not_gone_adjust hb.keys hf hserial hframes he)
  | notify m hc hq =>
    cases hl : s.frames.lookup m.frame with
    | none =>
      have hframes : (stockNotify s m).frames = s.frames := by simp [stockNotify, hl]
      exact absurd hgone (not_gone (hframes ▸ he) rfl)
    | some d =>
      obtain ⟨n, f⟩ := d
      have hf : (n, f) ∈ s.frames := Assoc.mem_of_get (lookup_some hl).2
      have hframes : (stockNotify s m).frames = s.frames.adjust n fun _ => notifyFrame f m := by
        simp [stockNotify, hl]
      exact absurd hgone (not_gone_adjust hb.keys hf (notifyFrame_same f m).serial hframes he)
  | deliver frame owner c calls hc => exact absurd hgone (not_gone he rfl)
  | retire frame owner hc =>
    left
    rcases retire_frames s frame with ⟨hf, -⟩ | ⟨n, f, rfl, hg, hcomp, hf⟩
    · exact absurd hgone (not_gone (hf ▸ he) rfl)
    · by_cases hn : e.1 = n
      · have heq := Assoc.eq_of_mem hb.keys he (Assoc.mem_of_get hg) hn
        subst heq
        obtain ⟨cs, hcs⟩ := h.running _ he hcomp
        have hnil : cs = [] := by
          rw [hc] at hcs
          cases hcs
          rfl
        subst hnil
        exact ⟨rfl, hcs, hcomp⟩
      · have hmem : (e.1, e.2) ∈ (Camera3.retire s (some n)).frames := by
          rw [hf]
          exact Assoc.mem_erase.mpr ⟨he, hn⟩
        exact absurd hgone (not_gone hmem rfl)

theorem step_flush {s t : State} {timeout : Bool} (hq : s.request = .flushing)
    (h : step s (.drain timeout) = some t) (hl : t.log = s.log ++ [.returned .flush 0]) :
    s.frames = [] := by
  simp only [step, requestStep, hq] at h
  obtain ⟨r, hr, rfl⟩ := Option.map_eq_some_iff.mp h
  have hzero : r = 0 := by
    simp only [State.finish, List.append_cancel_left_eq, List.cons.injEq, Event.returned.injEq] at hl
    exact hl.1.2
  exact (drain_spec hr hzero).1

/-- A configure that answers busy has found a frame in flight. -/
theorem step_configure_busy {s t : State} {config : Option Config} {alloc : Nat → Bool}
    (h : step s (.configure config alloc) = some t)
    (hl : t.log = s.log ++ [.returned .configure (-ebusy)]) : s.frames ≠ [] := by
  obtain ⟨-, rfl⟩ := step_configure h
  rcases configureBegin_cases s config alloc with ⟨r, heq, -, hbusy⟩ | ⟨ptrs, next, heq, -⟩
  · rw [heq] at hl
    simp only [State.finish, List.append_cancel_left_eq, List.cons.injEq, Event.returned.injEq] at hl
    exact hbusy hl.1.2
  · rw [heq] at hl
    simp [contacting] at hl

/-- A request is in flight exactly until the client has all of it. Without a running callback no
frame is complete and no request in flight is finished for the client; a frame leaves when it is
complete and its last callback has returned, when the stock device refuses it, or on `close`; after
a successful `flush` nothing is owed; and a frame that makes `configure` fail is unfinished or
belongs to the running callback. -/
theorem inflight_exact (s : State) (h : Reachable s) :
    (s.callback = .idle → ∀ e ∈ s.frames, e.2.complete = false ∧ ¬Finished s.log (captured e)) ∧
    (∀ a t, step s a = some t → ∀ e ∈ s.frames, Gone t e →
      (a = .retire ∧ s.callback = .delivering (some e.1) (some e.2.serial) [] ∧
        e.2.complete = true ∧ Finished s.log (captured e)) ∨
      (∃ r, a = .answer r ∧ r ≠ 0 ∧ s.request = .calling e.1 e.2.serial) ∨ ∃ r, a = .closeEnd r) ∧
    (∀ timeout t, s.request = .flushing → step s (.drain timeout) = some t →
      t.log = s.log ++ [.returned .flush 0] → ∀ c ∈ captures s.log,
        ¬Rejected s.log c.serial → Finished s.log c) ∧
    (∀ config alloc t, step s (.configure config alloc) = some t →
      t.log = s.log ++ [.returned .configure (-ebusy)] → s.frames ≠ [] ∧
        ∀ e ∈ s.frames, (e.2.complete = false ∧ ¬Finished s.log (captured e)) ∨
          ∃ cs, s.callback = .delivering (some e.1) (some e.2.serial) cs) := by
  have hb := h.books_ok
  have hin := h.inflight
  have hunfinished : ∀ e ∈ s.frames, e.2.complete = false → ¬Finished s.log (captured e) := by
    intro e he hcomp hfin
    rw [complete_of_finished hb h.heard he hfin] at hcomp
    cases hcomp
  refine ⟨?_, ?_, ?_, ?_⟩
  · intro hc e he
    have hcomp := hin.incomplete hc he
    exact ⟨hcomp, hunfinished e he hcomp⟩
  · intro a t ht e he hgone
    rcases (step_traffic ht).gone hb hin he hgone with ⟨ha, hc, hcomp⟩ | hrest
    · exact .inl ⟨ha, hc, hcomp, finished_of_complete hb hin he hcomp hc⟩
    · exact .inr hrest
  · intro timeout t hq ht hl c hc hrej
    have hempty := step_flush hq ht hl
    rcases hin.accounted (by rw [hq]; simp) c hc with ⟨f, hf, -⟩ | hfin | hr
    · rw [hempty] at hf
      cases hf
    · exact hfin
    · exact absurd hr hrej
  · intro config alloc t ht hl
    refine ⟨step_configure_busy ht hl, ?_⟩
    intro e he
    cases hcomp : e.2.complete with
    | false => exact .inl ⟨rfl, hunfinished e he hcomp⟩
    | true => exact .inr (hin.running e he hcomp)

/-- Shutter, metadata and buffer of frame 5, up to the last return of the client. -/
def previewFinished : List Action :=
  previewStart ++ previewCapture 5 ++ [.notify (.shutter 5 100), .deliver, .retire,
    .result ⟨5, some [(flashState, [0])], [⟨.legacy 0, some 7, 0, 11⟩]⟩ [], .deliver]

theorem preview_flushed : ∃ s t c,
    Transition.run step (opened recorderClients []) (previewFinished ++ [.retire, .flush]) = some s ∧
    step s (.drain false) = some t ∧ t.log = s.log ++ [.returned .flush 0] ∧ c ∈ captures s.log ∧
    c.frame = 5 ∧ Finished s.log c := by
  have hrun : ((Transition.run step (opened recorderClients []) (previewFinished ++
      [.retire, .flush])).bind fun s => (step s (.drain false)).map fun t =>
        (s.request, decide (t.log = s.log ++ [.returned .flush 0]),
          (captures s.log).map fun c => (c.frame, c.serial),
          s.log.all fun e => match e with | .stockAnswer _ _ r => decide (r = 0) | _ => true)) =
      some (.flushing, true, [(5, 0)], true) := by decide +kernel
  obtain ⟨s, hs, hrun⟩ := Option.bind_eq_some_iff.mp hrun
  obtain ⟨t, ht, hfacts⟩ := Option.map_eq_some_iff.mp hrun
  simp only [Prod.mk.injEq, decide_eq_true_eq, List.all_eq_true] at hfacts
  obtain ⟨hq, hlog, hcaps, hanswers⟩ := hfacts
  have hone : (5, 0) ∈ (captures s.log).map fun c => (c.frame, c.serial) := by
    rw [hcaps]
    exact List.mem_singleton_self _
  obtain ⟨c, hc, hcs⟩ := List.mem_map.mp hone
  have hrej : ¬Rejected s.log c.serial := by
    rintro ⟨n, r, hr, he⟩
    exact hr (of_decide_eq_true (hanswers _ he))
  have hreach : Reachable s := (Transition.Reachable.start (opened_initial _ _)).run hs
  have hfin := (inflight_exact s hreach).2.2.1 false t hq ht hlog c hc hrej
  exact ⟨s, t, c, hs, ht, hlog, hc, congrArg Prod.fst hcs, hfin⟩

/-- The client has all of frame 5 and its last call has returned, but `retire` has not run yet. -/
theorem finished_frame_blocks_configure : ∃ s t,
    Transition.run step (opened recorderClients []) previewFinished = some s ∧ Reachable s ∧
    step s (.configure (some ⟨some [some 1], true⟩) fun _ => true) = some t ∧
    t.log = s.log ++ [.returned .configure (-ebusy)] ∧ s.frames ≠ [] ∧
    ∀ e ∈ s.frames, e.2.complete = true ∧
      Finished s.log (captured e) := by
  have hrun : ((Transition.run step (opened recorderClients []) previewFinished).bind fun s =>
      (step s (.configure (some ⟨some [some 1], true⟩) fun _ => true)).map fun t =>
        (decide (t.log = s.log ++ [.returned .configure (-ebusy)]), decide (s.frames ≠ []),
          s.frames.all fun e => e.2.complete && decide (s.callback =
            .delivering (some e.1) (some e.2.serial) []))) = some (true, true, true) := by
    decide +kernel
  obtain ⟨s, hs, hrun⟩ := Option.bind_eq_some_iff.mp hrun
  obtain ⟨t, ht, hfacts⟩ := Option.map_eq_some_iff.mp hrun
  simp only [Prod.mk.injEq, decide_eq_true_eq, List.all_eq_true, Bool.and_eq_true] at hfacts
  obtain ⟨hlog, hne, hall⟩ := hfacts
  have hreach : Reachable s := (Transition.Reachable.start (opened_initial _ _)).run hs
  refine ⟨s, t, hs, hreach, ht, hlog, hne, ?_⟩
  intro e he
  obtain ⟨hcomp, hc⟩ := hall e he
  exact ⟨hcomp, finished_of_complete hreach.books_ok hreach.inflight he hcomp hc⟩

end Results

end Camera3
