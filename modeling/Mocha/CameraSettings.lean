import Mocha.CameraVendor

/-!
# The settings that a request repeats

A request without settings repeats the last ones. The adapter remembers whether
there are any in `lastSettings`, which it writes before the stock device has
answered and does not take back.
-/
namespace Camera3

open CameraMetadata

section Accepted

/-- The request, when it goes to the stock device with settings. -/
def Event.sends : Event → Option (Nat × Nat)
  | .stockCapture frame serial _ _ (some _) => some (frame, serial)
  | _ => none

def sent (log : List Event) : List (Nat × Nat) := log.filterMap Event.sends

theorem sent_append (l m : List Event) : sent (l ++ m) = sent l ++ sent m := List.filterMap_append

/-- Since the last successful configuration the stock device accepted a request with settings. -/
def Accepted (log : List Event) : Prop :=
  ∃ before after frame serial, log = before ++ .stockAnswer frame serial 0 :: after ∧
    (frame, serial) ∈ sent before ∧ .returned .configure 0 ∉ after

theorem not_accepted_nil : ¬Accepted [] := by
  rintro ⟨before, after, frame, serial, h, -⟩
  exact absurd h (by simp)

/-- A configuration ends an acceptance, the answer to a request that was sent makes one. -/
theorem accepted_snoc (log : List Event) (e : Event) :
    Accepted (log ++ [e]) ↔ (Accepted log ∧ e ≠ .returned .configure 0) ∨
      ∃ frame serial, e = .stockAnswer frame serial 0 ∧ (frame, serial) ∈ sent log := by
  constructor
  · rintro ⟨before, after, frame, serial, hlog, hsent, hnot⟩
    rcases List.eq_nil_or_concat after with rfl | ⟨rest, x, rfl⟩
    · obtain ⟨hl, he⟩ := List.append_inj' hlog rfl
      injection he with he
      subst hl
      exact .inr ⟨frame, serial, he, hsent⟩
    · rw [List.concat_eq_append, ← List.cons_append, ← List.append_assoc] at hlog
      obtain ⟨hl, he⟩ := List.append_inj' hlog rfl
      injection he with he
      subst he
      rw [List.concat_eq_append, List.mem_append, not_or] at hnot
      refine .inl ⟨⟨before, rest, frame, serial, hl, hsent, hnot.1⟩, ?_⟩
      rintro rfl
      exact hnot.2 (List.mem_singleton_self _)
  · rintro (⟨⟨before, after, frame, serial, rfl, hsent, hnot⟩, hne⟩ | ⟨frame, serial, rfl, hsent⟩)
    · refine ⟨before, after ++ [e], frame, serial, by simp, hsent, ?_⟩
      rw [List.mem_append, not_or, List.mem_singleton]
      exact ⟨hnot, fun h => hne h.symm⟩
    · exact ⟨log, [], frame, serial, rfl, hsent, List.not_mem_nil⟩

/-- The event accepts one of the requests. -/
def Event.accepts (requests : List (Nat × Nat)) : Event → Bool
  | .stockAnswer frame serial r => decide (r = 0) && decide ((frame, serial) ∈ requests)
  | _ => false

theorem accepts_iff (requests : List (Nat × Nat)) (e : Event) : e.accepts requests = true ↔
    ∃ frame serial, e = .stockAnswer frame serial 0 ∧ (frame, serial) ∈ requests := by
  cases e with
  | stockAnswer frame serial r =>
    simp only [Event.accepts, Bool.and_eq_true, decide_eq_true_eq, Event.stockAnswer.injEq]
    constructor
    · rintro ⟨rfl, hmem⟩
      exact ⟨frame, serial, ⟨rfl, rfl, rfl⟩, hmem⟩
    · rintro ⟨n, k, ⟨rfl, rfl, rfl⟩, hmem⟩
      exact ⟨rfl, hmem⟩
  | _ => simp [Event.accepts]

/-- The same, for a log with the latest event first. -/
def acceptedIn : List Event → Bool
  | [] => false
  | e :: older =>
    (acceptedIn older && decide (e ≠ .returned .configure 0)) || e.accepts (sent older.reverse)

/-- The computable check looks for the acceptance from the end of the history. -/
theorem acceptedIn_iff (log : List Event) : acceptedIn log = true ↔ Accepted log.reverse := by
  induction log with
  | nil => simp [acceptedIn, not_accepted_nil]
  | cons e older ih =>
    rw [List.reverse_cons, accepted_snoc, ← ih, ← accepts_iff, acceptedIn]
    simp

instance (log : List Event) : Decidable (Accepted log) :=
  decidable_of_iff (acceptedIn log.reverse = true) (by rw [acceptedIn_iff, List.reverse_reverse])

/-- Every request without settings had some to repeat. -/
def Repeatable (log : List Event) : Prop :=
  ∀ before after frame serial clientBuffers vendorBuffers,
    log = before ++ .stockCapture frame serial clientBuffers vendorBuffers none :: after → Accepted before

theorem Repeatable.snoc {log : List Event} (h : Repeatable log) {e : Event}
    (he : ∀ frame serial clientBuffers vendorBuffers,
      e = .stockCapture frame serial clientBuffers vendorBuffers none → Accepted log) :
    Repeatable (log ++ [e]) := by
  intro before after frame serial clientBuffers vendorBuffers hlog
  rcases List.eq_nil_or_concat after with rfl | ⟨rest, x, rfl⟩
  · obtain ⟨hl, hx⟩ := List.append_inj' hlog rfl
    injection hx with hx
    rw [← hl]
    exact he _ _ _ _ hx
  · rw [List.concat_eq_append, ← List.cons_append, ← List.append_assoc] at hlog
    obtain ⟨hl, -⟩ := List.append_inj' hlog rfl
    exact h before rest frame serial clientBuffers vendorBuffers hl

end Accepted

section Repeats

theorem neutral_snoc (log : List Event) {e : Event} (he : e.neutral = true) :
    sent (log ++ [e]) = sent log ∧ (Accepted (log ++ [e]) ↔ Accepted log) ∧
      (Repeatable log → Repeatable (log ++ [e])) := by
  have hsends : e.sends = none := by
    cases e <;> first | rfl | cases he
  refine ⟨?_, ?_, ?_⟩
  · rw [sent_append]
    simp [sent, hsends]
  · rw [accepted_snoc]
    constructor
    · rintro (h | ⟨frame, serial, rfl, -⟩)
      · exact h.1
      · cases he
    · intro h
      refine .inl ⟨h, ?_⟩
      rintro rfl
      exact absurd he (by decide)
  · intro h
    refine h.snoc ?_
    rintro frame serial clientBuffers vendorBuffers rfl
    cases he

/-- Neutral events are not seen by any of the three notions. -/
theorem neutral_append (log : List Event) {es : List Event} (hes : ∀ e ∈ es, e.neutral = true) :
    sent (log ++ es) = sent log ∧ (Accepted (log ++ es) ↔ Accepted log) ∧
      (Repeatable log → Repeatable (log ++ es)) := by
  induction es generalizing log with
  | nil => simp
  | cons e es ih =>
    obtain ⟨hs, ha, hr⟩ := neutral_snoc log (hes e List.mem_cons_self)
    obtain ⟨ks, ka, kr⟩ := ih (log ++ [e]) fun x hx => hes x (List.mem_cons_of_mem _ hx)
    rw [List.append_assoc] at ks ka kr
    exact ⟨ks.trans hs, ka.trans ha, fun h => kr (hr h)⟩

/-- The stock device refuses no request with settings before it has accepted one. -/
def Excused (s : State) (a : Action) (_ : State) : Prop :=
  match s.request, a with
  | .calling frame serial, .answer r => r ≠ 0 → (frame, serial) ∈ sent s.log → Accepted s.log
  | _, _ => True

instance (s : State) (a : Action) (t : State) : Decidable (Excused s a t) := by
  unfold Excused
  split <;> infer_instance

/-- What the adapter believes of the settings of the stock device is true, except inside a call that
has settings of its own. -/
structure Repeats (s : State) : Prop where
  known : s.lastSettings ≠ [] ↔ Accepted s.log ∨ ∃ q ∈ sent s.log, s.request.asks = some q
  fresh : ∀ q ∈ sent s.log, q.2 < s.nextFrame
  repeatable : Repeatable s.log

/-- Nothing is said about the settings, and nothing believed of them changes. -/
structure Neutral (s t : State) : Prop where
  lastSettings : t.lastSettings = s.lastSettings
  nextFrame : t.nextFrame = s.nextFrame
  log : ∃ es, t.log = s.log ++ es ∧ ∀ e ∈ es, e.neutral = true

theorem Neutral.silent {s t : State} (hs : t.lastSettings = s.lastSettings)
    (hn : t.nextFrame = s.nextFrame) (hl : t.log = s.log) : Neutral s t :=
  ⟨hs, hn, [], by rw [hl, List.append_nil], by simp⟩

theorem Neutral.trans {s t u : State} (h : Neutral s t) (k : Neutral t u) : Neutral s u := by
  obtain ⟨es, hes, hen⟩ := h.log
  obtain ⟨fs, hfs, hfn⟩ := k.log
  refine ⟨k.lastSettings.trans h.lastSettings, k.nextFrame.trans h.nextFrame, es ++ fs, ?_, ?_⟩
  · rw [hfs, hes, List.append_assoc]
  · intro e he
    rcases List.mem_append.mp he with he | he
    · exact hen e he
    · exact hfn e he

theorem Neutral.record {s t : State} (h : Neutral s t) (es : List Event)
    (hes : ∀ e ∈ es, e.neutral = true) : Neutral s (t.record es) :=
  h.trans ⟨rfl, rfl, es, rfl, hes⟩

theorem Steady.neutral {s t : State} (h : Steady s t) : Neutral s t := by
  obtain ⟨es, hes, hsteady⟩ := h.log
  exact ⟨h.lastSettings, h.nextFrame, es, hes, fun e he => (hsteady e he).2⟩

theorem neutral_destroyed (m : List Stream) : ∀ e ∈ destroyed m, e.neutral = true := by
  intro e he
  obtain ⟨st, -, hb⟩ := List.mem_flatMap.mp he
  obtain ⟨b, -, rfl⟩ := List.mem_map.mp hb
  rfl

theorem neutral_closeVendor (s : State) : Neutral s (closeVendor s) := by
  unfold closeVendor
  split
  · exact .silent rfl rfl rfl
  · exact ⟨rfl, rfl, _, rfl, by simp [Event.neutral]⟩

/-- Opening again sends no request, whichever part of it fails. -/
theorem neutral_reopenVendor (s : State) (o : Reopen) : Neutral s (reopenVendor s o).2 := by
  have hc := neutral_closeVendor s
  have ho : Neutral s (reopened s) := hc.trans ⟨rfl, rfl, _, rfl, by simp [Event.neutral]⟩
  have hi := ho.record [.stockInitialize (closeVendor s).devices o.initializeResult]
    (by simp [Event.neutral])
  unfold reopenVendor
  split
  · exact .silent rfl rfl rfl
  · dsimp only
    split
    · exact hc
    · split
      · exact hc
      · split
        · exact ho.trans (neutral_closeVendor (reopened s))
        · split
          · exact hi.trans (neutral_closeVendor _)
          · exact hi

theorem neutral_restart (s : State) (next : StreamMap) (o : Reopen) : Neutral s (restart s next o) := by
  have hr := neutral_reopenVendor s o
  unfold Camera3.restart
  dsimp only
  split
  · rename_i hne
    refine hr.trans ⟨rfl, rfl, _, rfl, ?_⟩
    simpa [Event.neutral] using hne
  · exact hr.trans (.silent rfl rfl rfl)

theorem neutral_closeEnd (s : State) (r : Int) : Neutral s (closeEnd s r) := by
  refine (neutral_closeVendor s).trans ⟨rfl, rfl, _, rfl, ?_⟩
  intro e he
  rcases List.mem_append.mp he with he | he
  · rcases List.mem_append.mp he with he | he
    · exact neutral_destroyed _ e he
    · exact neutral_destroyed _ e he
  · rw [List.mem_singleton.mp he]
    simp [Event.neutral]

/-- The invariant does not see a neutral step. -/
theorem Repeats.neutral {s t : State} (h : Repeats s) (hn : Neutral s t)
    (ha : t.request.asks = s.request.asks) : Repeats t := by
  obtain ⟨es, hlog, hes⟩ := hn.log
  obtain ⟨hsent, haccepted, hrepeatable⟩ := neutral_append s.log hes
  rw [← hlog] at hsent haccepted hrepeatable
  refine ⟨?_, ?_, hrepeatable h.repeatable⟩
  · rw [hn.lastSettings, haccepted, hsent, ha]
    exact h.known
  · rw [hsent, hn.nextFrame]
    exact h.fresh

/-- A successful configuration forgets the settings, and so does the stock device. -/
theorem configured_repeats {s : State} (h : Repeats s) (next : StreamMap) (answer : Nat → StreamInfo) :
    Repeats (configureStreams s next answer 0) := by
  have hneutral : ∀ e ∈ Event.stockConfigure ((adopt next answer).map fun e => e.2.id) 0 ::
      destroyed s.streams.values, e.neutral = true := by
    intro e he
    rcases List.mem_cons.mp he with rfl | he
    · rfl
    · exact neutral_destroyed _ e he
  obtain ⟨hsent, -, hrepeatable⟩ := neutral_append s.log hneutral
  have hlog : (configureStreams s next answer 0).log = s.log ++ (Event.stockConfigure
      ((adopt next answer).map fun e => e.2.id) 0 :: destroyed s.streams.values) ++
      [.returned .configure 0] := by
    simp [configureStreams, State.record, State.finish]
  refine ⟨?_, ?_, ?_⟩
  · constructor
    · intro hl
      exact absurd rfl hl
    · rintro (hacc | ⟨q, -, hq⟩)
      · rw [hlog, accepted_snoc] at hacc
        rcases hacc with ⟨-, hne⟩ | ⟨frame, serial, he, -⟩
        · exact absurd rfl hne
        · cases he
      · cases hq
  · intro q hq
    rw [hlog, sent_append, hsent] at hq
    rcases List.mem_append.mp hq with hq | hq
    · exact h.fresh q hq
    · cases hq
  · rw [hlog]
    refine (hrepeatable h.repeatable).snoc ?_
    intro frame serial clientBuffers vendorBuffers he
    cases he

/-- A request goes out. One without settings passed the test of `lastSettings`, which is right while
no call is under way. -/
theorem submit_repeats {s : State} {c : Capturing} {last settings : Metadata} {af ae : Int}
    (hq : s.request = .building c) (hf : Forwarded s c last) (h : Repeats s) :
    Repeats (submit { s with afTriggerId := af, aeTriggerId := ae, lastSettings := last } c settings) := by
  have hknown : s.lastSettings ≠ [] ↔ Accepted s.log := by
    rw [h.known, hq]
    simp [Request.asks]
  have hplain (log : List Event) (n k : Nat) (cb vb : List StreamBuffer) (m : Option Metadata) :
      Accepted (log ++ [.stockCapture n k cb vb m]) ↔ Accepted log := by
    rw [accepted_snoc]
    simp
  cases hset : c.request.settings with
  | none =>
    have hlast := hf.repeats hset
    have hsame := hf.known
    rw [hlast] at hsame
    refine ⟨?_, ?_, ?_⟩
    · simp only [submit, State.record, hset, Option.map_none]
      rw [hplain, hlast, sent_append]
      constructor
      · intro _
        exact .inl (hknown.mp hsame)
      · intro _
        exact hsame
    · simp only [submit, State.record, hset, Option.map_none]
      intro q hmem
      rw [sent_append] at hmem
      rcases List.mem_append.mp hmem with hmem | hmem
      · exact Nat.lt_succ_of_lt (h.fresh q hmem)
      · cases hmem
    · simp only [submit, State.record, hset, Option.map_none]
      refine h.repeatable.snoc ?_
      intro _ _ _ _ _
      exact hknown.mp hsame
  | some raw =>
    refine ⟨?_, ?_, ?_⟩
    · simp only [submit, State.record, hset, Option.map_some]
      constructor
      · intro _
        refine .inr ⟨(c.request.frameNumber, s.nextFrame), ?_, rfl⟩
        rw [sent_append]
        exact List.mem_append_right _ (List.mem_singleton_self _)
      · intro _
        exact hf.known
    · simp only [submit, State.record, hset, Option.map_some]
      intro q hmem
      rw [sent_append] at hmem
      rcases List.mem_append.mp hmem with hmem | hmem
      · exact Nat.lt_succ_of_lt (h.fresh q hmem)
      · rw [List.mem_singleton.mp hmem]
        exact Nat.lt_succ_self _
    · simp only [submit, State.record, hset, Option.map_some]
      refine h.repeatable.snoc ?_
      intro _ _ _ _ he
      cases he

/-- The answer of the stock device. A refused request with settings leaves them in `lastSettings`,
which does no harm when others were accepted before. -/
theorem answered_repeats {s : State} {frame serial : Nat} {r : Int}
    (hq : s.request = .calling frame serial)
    (hex : r ≠ 0 → (frame, serial) ∈ sent s.log → Accepted s.log) (h : Repeats s) :
    Repeats (captureAnswered s frame serial r) := by
  have hknown : s.lastSettings ≠ [] ↔ Accepted s.log ∨ (frame, serial) ∈ sent s.log := by
    rw [h.known, hq]
    simp [Request.asks]
  have hlog : (captureAnswered s frame serial r).log =
      s.log ++ [.stockAnswer frame serial r] ++ [.returned .capture r] := by
    simp [captureAnswered, State.record, State.finish]
  obtain ⟨hsent, haccepted, hrepeatable⟩ := neutral_snoc (s.log ++ [.stockAnswer frame serial r])
    (e := .returned .capture r) (by simp [Event.neutral])
  have hsame : sent (s.log ++ [.stockAnswer frame serial r]) = sent s.log := by
    rw [sent_append]
    exact List.append_nil _
  rw [← hlog] at hsent haccepted hrepeatable
  refine ⟨?_, ?_, ?_⟩
  · rw [haccepted, accepted_snoc]
    have hlast : (captureAnswered s frame serial r).lastSettings = s.lastSettings := rfl
    rw [hlast, hknown]
    constructor
    · intro hk
      by_cases hr : r = 0
      · rcases hk with hk | hk
        · exact .inl (.inl ⟨hk, Event.noConfusion⟩)
        · exact .inl (.inr ⟨frame, serial, by rw [hr], hk⟩)
      · have hacc : Accepted s.log := hk.elim id (hex hr)
        exact .inl (.inl ⟨hacc, Event.noConfusion⟩)
    · rintro ((⟨hacc, -⟩ | ⟨n, k, he, hk⟩) | ⟨q, -, hidle⟩)
      · exact .inl hacc
      · injection he with hn hk'
        subst hn hk'
        exact .inr hk
      · cases hidle
  · rw [hsent, hsame]
    exact h.fresh
  · apply hrepeatable
    refine h.repeatable.snoc ?_
    intro _ _ _ _ he
    cases he

/-- The step lemma, for the steps that the excuse does not name. -/
theorem Upkeep.repeats {s t : State} {a : Action} (hu : Upkeep s a t) (hex : Excused s a t)
    (h : Repeats s) : Repeats t := by
  cases hu with
  | steady a t hs hu hr hc ha => exact h.neutral hs.neutral ha
  | configured answer next hq hv => exact configured_repeats h next answer
  | submit clone alloc c af ae last settings hq hv hf => exact submit_repeats hq hf h
  | answered frame serial r hq =>
    simp only [Excused, hq] at hex
    exact answered_repeats hq hex h
  | starting valid hq hc => exact h.neutral (.silent rfl rfl rfl) (by rw [hq]; rfl)
  | started r hq =>
    refine h.neutral ?_ (by rw [hq]; rfl)
    have hn : Neutral s { s with clientCallbacks := s.clientCallbacks && decide (r = 0) } :=
      .silent rfl rfl rfl
    exact (hn.record _ (by simp [Event.neutral])).trans ⟨rfl, rfl, _, rfl, by simp [Event.neutral]⟩
  | restart o next hq =>
    refine h.neutral (neutral_restart s next o) ?_
    rw [hq]
    unfold Camera3.restart
    dsimp only
    split
    · rfl
    · rfl
  | closeEnd r hq => exact h.neutral (neutral_closeEnd s r) (by rw [hq]; rfl)

end Repeats

end Camera3
