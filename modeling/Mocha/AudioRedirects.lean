import Mocha.AudioStack
import Mocha.Chain

/-!
# Redirects between configuration files

A `<codec_probe>` names a file whose first line picks another configuration
file. The parser then starts over with that one. The file name and the redirect
of the probe are reset on the way, the array of cases is not: a file is looked
up in the cases of all the files before it, and then in its own.
-/
namespace TinyHal

/-- The text of an attribute that an element was given. -/
def attribText (e : Elem) (attribs : List (String × String)) (a : Attrib) : String :=
  ((extractAttribs e attribs).bind fun value => value a).getD ""

/-- A `<codec_probe>` with its cases, all with the attributes they need. -/
structure ProbeBlock where
  attribs : List (String × String)
  cases : List (List (String × String))
  probeValid : (extractAttribs .codecProbe attribs).isSome = true
  casesValid : ∀ a ∈ cases, (extractAttribs .codecCase a).isSome = true

def ProbeBlock.file (b : ProbeBlock) : String := attribText .codecProbe b.attribs .file

def codecCase (attribs : List (String × String)) : CodecCase :=
  ⟨attribText .codecCase attribs .name, attribText .codecCase attribs .file⟩

def ProbeBlock.codecCases (b : ProbeBlock) : List CodecCase := b.cases.map codecCase

def caseEvents (attribs : List (String × String)) : List XmlEvent :=
  [.start "case" attribs, .finish "case"]

def ProbeBlock.events (b : ProbeBlock) : List XmlEvent :=
  .start "codec_probe" b.attribs :: (b.cases.flatMap caseEvents ++ [.finish "codec_probe"])

/-- The events of a file: the block can only stand in front of everything else in `<audiohal>`. -/
def fileEvents (probe : Option ProbeBlock) (rest : List XmlEvent) : List XmlEvent :=
  match probe with
  | none => rest
  | some b => .start "audiohal" [] :: (b.events ++ rest)

/-- A configuration file with at most one probe block. -/
structure ConfigFile where
  probe : Option ProbeBlock
  rest : List XmlEvent
  wellFormed : Bool
  noOther : ∀ attribs, XmlEvent.start "codec_probe" attribs ∉ rest
  nested : WellNested (fileEvents probe rest)

def ConfigFile.xml (f : ConfigFile) : XmlFile := ⟨fileEvents f.probe f.rest, f.wellFormed⟩

def ConfigFile.codecCases (f : ConfigFile) : List CodecCase :=
  match f.probe with
  | none => []
  | some b => b.codecCases

/-- The first of some cases that has the name of the codec. -/
def caseFor (env : Env) (b : ProbeBlock) (cases : List CodecCase) : Option String :=
  (env.firstLine b.file).bind fun line =>
    (cases.find? fun cc => cc.codecName = probeTrimSpaces line).map CodecCase.file

/-- Where a file redirects to by its own cases. -/
def ConfigFile.target (env : Env) (f : ConfigFile) : Option String :=
  f.probe.bind fun b => caseFor env b b.codecCases

/-- The size an array grows to, when it starts with room for `m`. -/
def capacity (m : Nat) : Nat := if m > 65519 then m else m + 16 * ((65535 - m) / 16)

/-- Where a file redirects to with the cases of earlier files in the array. -/
def ConfigFile.redirect (env : Env) (stale : List CodecCase) (f : ConfigFile) : Option String :=
  f.probe.bind fun b =>
    if stale.length + b.cases.length ≤ capacity stale.length then
      caseFor env b (stale ++ b.codecCases)
    else none

section Block

variable {env : Env} {st st' : ParseState}

theorem newCodecCase_ok {probe : CodecProbe} (cc : CodecCase)
    (hle : probe.cases.length ≤ probe.maxCount)
    (hroom : probe.cases.length < capacity probe.maxCount) :
    ∃ m, newCodecCase probe cc =
        .ok { probe with cases := probe.cases ++ [cc], maxCount := m } ∧
      probe.cases.length + 1 ≤ m ∧ capacity m = capacity probe.maxCount := by
  unfold newCodecCase
  by_cases hfull : probe.cases.length + 1 > probe.maxCount
  · have hgrow : ¬ probe.maxCount > 65519 := by
      intro hmax
      rw [capacity, if_pos hmax] at hroom
      omega
    rw [if_pos hfull, if_neg hgrow]
    refine ⟨probe.maxCount + 16, rfl, by omega, ?_⟩
    rw [capacity, capacity, if_neg hgrow]
    split <;> omega
  · rw [if_neg hfull]
    exact ⟨probe.maxCount, rfl, by omega, rfl⟩

theorem newCodecCase_full {probe : CodecProbe} (cc : CodecCase)
    (hle : probe.cases.length ≤ probe.maxCount)
    (hroom : capacity probe.maxCount ≤ probe.cases.length) :
    newCodecCase probe cc = .error (.errno (-enomem)) := by
  have hmax : probe.maxCount > 65519 := by
    by_contra hgrow
    rw [capacity, if_neg hgrow] at hroom
    omega
  rw [capacity, if_pos hmax] at hroom
  rw [newCodecCase, if_pos (by omega), if_pos hmax]

theorem le_capacity (m : Nat) : m ≤ capacity m := by
  unfold capacity
  split <;> omega

/-- An element that is allowed here, with its attributes in order, runs its start handler. -/
theorem parseEvent_start {name : String} {attribs : List (String × String)} {e : Elem}
    {value : Attrib → Option String} (hrun : st.stop = .running) (hok : st.parseError = 0)
    (hpick : pick (st.entry st.index).validSubelem name = some e) (hdepth : st.index < maxParseDepth)
    (hvalue : extractAttribs e attribs = some value) :
    parseEvent env st (.start name attribs) =
      settle (enter st e value) (startFn env e (enter st e value)) := by
  unfold pick at hpick
  rw [parseEvent, if_pos hrun, parseSectionStart, if_neg (not_not_intro hok)]
  dsimp only
  rw [hpick]
  dsimp only
  rw [if_neg (by omega), hvalue]
  rfl

theorem enter_top (st : ParseState) (e : Elem) (value : Attrib → Option String) :
    (enter st e value).entry (st.index + 1) = ⟨e, (elemTable e).validSubelem⟩ :=
  Function.update_self _ _ _

theorem enter_below (st : ParseState) (e : Elem) (value : Attrib → Option String) {j : Int}
    (hj : j ≤ st.index) : (enter st e value).entry j = st.entry j :=
  Function.update_of_ne (by omega) _ _

/-- The end of an element runs the end handler of the innermost one. -/
theorem parseEvent_finish {e : Elem} (name : String) (hrun : st.stop = .running)
    (hok : st.parseError = 0) (helem : (st.entry st.index).elem = e) {st₁ : ParseState}
    (hend : endFn env e st = .ok st₁) : parseEvent env st (.finish name) = some (leave st₁) := by
  rw [parseEvent, if_pos hrun, parseSectionEnd, if_neg (not_not_intro hok)]
  dsimp only
  rw [helem, hend]
  rfl

/-- Inside the probe block of a file, with `cases` in the array so far. -/
structure AtCases (b : ProbeBlock) (name : String) (room : Nat) (cases : List CodecCase)
    (st : ParseState) : Prop where
  stop : st.stop = .running
  parseError : st.parseError = 0
  index : st.index = 2
  entry : st.entry 2 = ⟨.codecProbe, [.codecCase]⟩
  below : ∀ j ≤ 1, (st.entry j).elem ≠ .codecProbe
  inside : st.current.codecProbe = true
  file : st.initProbe.file = some b.file
  newXmlFile : st.initProbe.newXmlFile = none
  gathered : st.initProbe.cases = cases
  fits : cases.length ≤ st.initProbe.maxCount
  room : capacity st.initProbe.maxCount = room
  curXmlFile : st.curXmlFile = name

/-- The parser has not been stopped, and cannot come to the end of a probe block any more: either
no open element is one, or an error keeps the handlers from running. -/
structure Quiet (st : ParseState) : Prop where
  stop : st.stop = .running
  newXmlFile : st.initProbe.newXmlFile = none
  entry : st.parseError = 0 → ∀ j ≤ st.index, (st.entry j).elem ≠ .codecProbe

theorem parseCodecCaseStart_inside (h : st.current.codecProbe = true) :
    parseCodecCaseStart st = (newCodecCase st.initProbe
      ⟨(st.attribs .name).getD "", (st.attribs .file).getD ""⟩).map fun probe =>
        { st with initProbe := probe } := by
  rw [parseCodecCaseStart, h]
  cases newCodecCase st.initProbe ⟨(st.attribs .name).getD "", (st.attribs .file).getD ""⟩ with
  | ok probe => rfl
  | error f => rfl

/-- The start of a case, with the case that its attributes make. -/
theorem parseEvent_case {b : ProbeBlock} {name : String} {room : Nat} {cases : List CodecCase}
    {attribs : List (String × String)} {value : Attrib → Option String}
    (hvalue : extractAttribs .codecCase attribs = some value) (h : AtCases b name room cases st) :
    parseEvent env st (.start "case" attribs) = settle (enter st .codecCase value)
      ((newCodecCase st.initProbe (codecCase attribs)).map fun probe =>
        { enter st .codecCase value with initProbe := probe }) := by
  have hcase : codecCase attribs = ⟨(value .name).getD "", (value .file).getD ""⟩ := by
    simp [codecCase, attribText, hvalue]
  rw [parseEvent_start h.stop h.parseError (by rw [h.index, h.entry]; decide)
    (by rw [h.index]; decide) hvalue, startFn, parseCodecCaseStart_inside (by exact h.inside), hcase]
  rfl

/-- A case that finds room. -/
theorem case_added (env : Env) {b : ProbeBlock} {name : String} {room : Nat} {cases : List CodecCase}
    {attribs : List (String × String)} (hvalid : (extractAttribs .codecCase attribs).isSome = true)
    (h : AtCases b name room cases st) (hroom : cases.length < room) :
    ∃ st', parseEvents env st (caseEvents attribs) = some st' ∧
      AtCases b name room (cases ++ [codecCase attribs]) st' := by
  obtain ⟨value, hvalue⟩ := Option.isSome_iff_exists.mp hvalid
  have hlen : st.initProbe.cases.length < capacity st.initProbe.maxCount := by
    rw [h.gathered, h.room]
    exact hroom
  obtain ⟨m, hnew, hm, hcap⟩ := newCodecCase_ok (codecCase attribs)
    (by rw [h.gathered]; exact h.fits) hlen
  obtain ⟨st₁, hst₁⟩ : ∃ s, s = clear { enter st .codecCase value with initProbe :=
      { st.initProbe with cases := st.initProbe.cases ++ [codecCase attribs], maxCount := m } } :=
    ⟨_, rfl⟩
  have hstart : parseEvent env st (.start "case" attribs) = some st₁ := by
    rw [parseEvent_case hvalue h, hnew, hst₁]
    rfl
  have hentry : ∀ j ≤ 2, st₁.entry j = st.entry j := by
    intro j hj
    rw [hst₁]
    exact enter_below st .codecCase value (by rw [h.index]; exact hj)
  have helem : (st₁.entry st₁.index).elem = .codecCase := by
    rw [hst₁]
    exact congrArg StackEntry.elem (enter_top st .codecCase value)
  have hfinish : parseEvent env st₁ (.finish "case") = some (leave st₁) :=
    parseEvent_finish "case" (by rw [hst₁]; exact h.stop) (by rw [hst₁]; rfl) helem rfl
  refine ⟨leave st₁, ?_, ?_⟩
  · simp only [caseEvents, parseEvents, hstart, Option.bind_some, hfinish]
  · subst hst₁
    constructor
    · exact h.stop
    · rfl
    · show st.index + 1 - 1 = 2
      rw [h.index]
      rfl
    · exact (hentry 2 (by omega)).trans h.entry
    · intro j hj
      have hsame := hentry j (by omega)
      exact (congrArg StackEntry.elem hsame).trans_ne (h.below j hj)
    · exact h.inside
    · exact h.file
    · exact h.newXmlFile
    · rw [← h.gathered]
      rfl
    · rw [List.length_append, ← h.gathered]
      exact hm
    · rw [← h.room]
      exact hcap
    · exact h.curXmlFile

/-- A case that finds no room leaves an error, which ends the probing. -/
theorem case_refused (env : Env) {b : ProbeBlock} {name : String} {room : Nat} {cases : List CodecCase}
    {attribs : List (String × String)} (hvalid : (extractAttribs .codecCase attribs).isSome = true)
    (h : AtCases b name room cases st) (hroom : room ≤ cases.length) :
    ∃ st', parseEvents env st (caseEvents attribs) = some st' ∧ st'.parseError ≠ 0 ∧ Quiet st' := by
  obtain ⟨value, hvalue⟩ := Option.isSome_iff_exists.mp hvalid
  have hfull := newCodecCase_full (codecCase attribs) (by rw [h.gathered]; exact h.fits)
    (by rw [h.gathered, h.room]; exact hroom)
  have hstart : parseEvent env st (.start "case" attribs) =
      some { enter st .codecCase value with parseError := -enomem } := by
    rw [parseEvent_case hvalue h, hfull]
    rfl
  have herror : (-enomem : Int) ≠ 0 := by decide
  refine ⟨{ enter st .codecCase value with parseError := -enomem }, ?_, herror, ?_⟩
  · rw [caseEvents, parseEvents, hstart, Option.bind_some]
    exact parseEvents_idle (parseEvent_failed env herror) _
  · exact ⟨h.stop, h.newXmlFile, fun hok => absurd hok herror⟩

/-- The cases of the block: all of them are added, or one of them leaves an error. -/
theorem cases_gathered (env : Env) {b : ProbeBlock} {name : String} {room : Nat}
    (own : List (List (String × String)))
    (hvalid : ∀ a ∈ own, (extractAttribs .codecCase a).isSome = true) {cases : List CodecCase}
    (h : AtCases b name room cases st) :
    ∃ st', parseEvents env st (own.flatMap caseEvents) = some st' ∧
      (cases.length + own.length ≤ room ∧ AtCases b name room (cases ++ own.map codecCase) st' ∨
        room < cases.length + own.length ∧ st'.parseError ≠ 0 ∧ Quiet st') := by
  induction own generalizing cases st with
  | nil =>
    have hroom := le_capacity st.initProbe.maxCount
    have hfits := h.fits
    rw [h.room] at hroom
    exact ⟨st, rfl, .inl ⟨by simp only [List.length_nil]; omega, by simpa using h⟩⟩
  | cons a own ih =>
    have ha := hvalid a List.mem_cons_self
    rw [List.flatMap_cons, parseEvents_append]
    by_cases hroom : cases.length < room
    · obtain ⟨st₁, hcase, hat⟩ := case_added env ha h hroom
      obtain ⟨st', hrest, hst'⟩ := ih (fun a' ha' => hvalid a' (List.mem_cons_of_mem _ ha')) hat
      refine ⟨st', by rw [hcase]; exact hrest, ?_⟩
      rw [List.length_append, List.length_singleton, List.append_assoc] at hst'
      rw [List.length_cons, List.map_cons, ← List.singleton_append]
      have hlen : cases.length + (own.length + 1) = cases.length + 1 + own.length := by omega
      rw [hlen]
      exact hst'
    · obtain ⟨st₁, hcase, herror, hquiet⟩ := case_refused env ha h (by omega)
      refine ⟨st₁, ?_, .inr ⟨?_, herror, hquiet⟩⟩
      · rw [hcase, Option.bind_some]
        exact parseEvents_idle (parseEvent_failed env herror) _
      · rw [List.length_cons]
        omega

/-- A start handler pushes nothing below its own entry, and stops nothing. -/
theorem startFn_quiet {e : Elem} {value : Attrib → Option String} {st₁ : ParseState}
    (hindex : ∀ j ≤ st.index, (st.entry j).elem ≠ .codecProbe) (hne : e ≠ .codecProbe)
    (hstart : startFn env e (enter st e value) = .ok st₁) :
    ∀ j ≤ st₁.index, (st₁.entry j).elem ≠ .codecProbe := by
  have hentered : ∀ j ≤ (enter st e value).index,
      ((enter st e value).entry j).elem ≠ .codecProbe := by
    intro j hj
    simp only [enter] at hj ⊢
    by_cases htop : j = st.index + 1
    · rw [htop, Function.update_self]
      exact hne
    · rw [Function.update_of_ne htop]
      exact hindex j (by omega)
  by_cases hplain : e.plain = true
  · have hframe := (startFn_writes env hplain _ st₁ hstart).toFrame
    intro j hj
    rw [hframe.index] at hj
    rw [hframe.entry j hj]
    exact hentered j hj
  · cases e with
    | mixer =>
      simp only [startFn, parseMixerStart] at hstart
      obtain ⟨card, -, hopen⟩ := bind_ok hstart
      cases hmixer : env.mixerOpen card with
      | none => rw [hmixer] at hopen; cases hopen
      | some mixer =>
        rw [hmixer] at hopen
        cases hopen
        intro j hj
        simp only [Function.update_apply]
        by_cases hroot : j = (enter st .mixer value).index - 1
        · rw [if_pos hroot]
          exact hentered _ (by omega)
        · rw [if_neg hroot]
          exact hentered j hj
    | audiohal =>
      cases hstart
      exact hentered
    | codecProbe => exact absurd rfl hne
    | _ => exact absurd rfl hplain

theorem quiet_start {name : String} {attribs : List (String × String)} (h : Quiet st)
    (hname : name ≠ "codec_probe") (hstep : parseSectionStart env st name attribs = some st') :
    Quiet st' := by
  unfold parseSectionStart at hstep
  by_cases hok : st.parseError = 0
  case neg =>
    rw [if_pos hok] at hstep
    cases hstep
    exact h
  rw [if_neg (not_not_intro hok)] at hstep
  dsimp only at hstep
  have heinval : (-einval : Int) ≠ 0 := by decide
  cases hfound : Elem.all.find? fun e =>
      decide (e ∈ (st.entry st.index).validSubelem) && decide ((elemTable e).name = name) with
  | none =>
    rw [hfound] at hstep
    cases hstep
    exact ⟨h.stop, h.newXmlFile, fun hok' => absurd hok' heinval⟩
  | some e =>
    rw [hfound] at hstep
    dsimp only at hstep
    have hne : e ≠ .codecProbe := by
      intro he
      have hpick := (pick_mem hfound).2
      rw [he] at hpick
      exact hname hpick.symm
    by_cases hdepth : st.index ≥ maxParseDepth
    · rw [if_pos hdepth] at hstep
      cases hstep
      exact ⟨h.stop, h.newXmlFile, fun hok' => absurd hok' heinval⟩
    rw [if_neg hdepth] at hstep
    cases hvalue : extractAttribs e attribs with
    | none =>
      rw [hvalue] at hstep
      cases hstep
      exact ⟨h.stop, h.newXmlFile, fun hok' => absurd hok' heinval⟩
    | some value =>
      rw [hvalue] at hstep
      cases settle_cases (startFn_refuses env e (enter st e value)) hstep with
      | inl hdone =>
        obtain ⟨st₁, hstart, rfl⟩ := hdone
        obtain ⟨hstop, hnew⟩ := startFn_redirect env e _ st₁ hstart
        have hentry := startFn_quiet (h.entry hok) hne hstart
        exact ⟨hstop.trans h.stop, hnew.trans h.newXmlFile, fun _ => hentry⟩
      | inr hfailed =>
        obtain ⟨code, hcode, rfl⟩ := hfailed
        exact ⟨h.stop, h.newXmlFile, fun hok' => absurd hok' (Int.ne_of_lt hcode)⟩

theorem quiet_finish (h : Quiet st) (hstep : parseSectionEnd env st = some st') : Quiet st' := by
  unfold parseSectionEnd at hstep
  by_cases hok : st.parseError = 0
  case neg =>
    rw [if_pos hok] at hstep
    cases hstep
    exact h
  rw [if_neg (not_not_intro hok)] at hstep
  obtain ⟨st₂, hsettle, rfl⟩ := Option.map_eq_some_iff.mp hstep
  have helem := h.entry hok st.index (Int.le_refl _)
  cases settle_cases (endFn_refuses env _ st) hsettle with
  | inr hfailed =>
    obtain ⟨code, hcode, rfl⟩ := hfailed
    exact ⟨h.stop, h.newXmlFile, fun hok' => absurd hok' (Int.ne_of_lt hcode)⟩
  | inl hdone =>
    obtain ⟨st₁, hend, rfl⟩ := hdone
    have hframe : st₁.stop = st.stop ∧ st₁.initProbe.newXmlFile = st.initProbe.newXmlFile ∧
        st₁.index = st.index ∧ ∀ j ≤ st.index, st₁.entry j = st.entry j := by
      by_cases hplain : ((st.entry st.index).elem).plain = true
      · have hw := (endFn_writes env hplain st st₁ hend).toFrame
        exact ⟨hw.stop, hw.newXmlFile, hw.index, hw.entry⟩
      · generalize (st.entry st.index).elem = e at helem hend hplain
        cases e with
        | mixer => cases hend; exact ⟨rfl, rfl, rfl, fun _ _ => rfl⟩
        | audiohal => cases hend; exact ⟨rfl, rfl, rfl, fun _ _ => rfl⟩
        | codecProbe => exact absurd rfl helem
        | _ => exact absurd rfl hplain
    obtain ⟨hstop, hnew, hindex, hentry⟩ := hframe
    refine ⟨hstop.trans h.stop, hnew.trans h.newXmlFile, ?_⟩
    intro _ j hj
    have hle : j ≤ st₁.index - 1 := hj
    show (st₁.entry j).elem ≠ _
    rw [hentry j (by omega)]
    exact h.entry hok j (by omega)

theorem quiet_events {es : List XmlEvent} (hes : ∀ attribs, XmlEvent.start "codec_probe" attribs ∉ es)
    (h : Quiet st) (hrun : parseEvents env st es = some st') : Quiet st' := by
  induction es generalizing st with
  | nil =>
    cases hrun
    exact h
  | cons e es ih =>
    obtain ⟨st₁, hone, hrest⟩ := Option.bind_eq_some_iff.mp hrun
    refine ih (fun attribs hmem => hes attribs (List.mem_cons_of_mem _ hmem)) ?_ hrest
    cases e with
    | start name attribs =>
      rw [parseEvent, if_pos h.stop] at hone
      refine quiet_start h ?_ hone
      intro hname
      rw [hname] at hes
      exact hes attribs List.mem_cons_self
    | finish name =>
      rw [parseEvent, if_pos h.stop] at hone
      exact quiet_finish h hone

/-- The parser at the end of a file, or where it has been stopped: how the probe of the file has
come out, when `target` is the redirect. -/
structure Probed (name : String) (gathered : List CodecCase) (target : Option String)
    (st : ParseState) : Prop where
  stop : st.stop =
    if target = none then .running else if target = some name then .aborted else .suspended
  newXmlFile : st.initProbe.newXmlFile = if target = some name then none else target
  array : target ≠ none →
    st.initProbe.cases = gathered ∧ st.initProbe.maxCount = gathered.length
  root : target ≠ none → ∀ j ≤ 0, (st.entry j).elem ≠ .codecProbe

theorem Quiet.probed {name : String} {gathered : List CodecCase} (h : Quiet st) :
    Probed name gathered none st :=
  ⟨h.stop, h.newXmlFile, fun hne => absurd rfl hne, fun hne => absurd rfl hne⟩

theorem begun_elem (st : ParseState) (j : Int) : ((begun st).entry j).elem = (st.entry j).elem := by
  rw [begun]
  simp only [Function.update_apply]
  by_cases hzero : j = 0
  · rw [if_pos hzero, hzero]
  · rw [if_neg hzero]

/-- Inside `<audiohal>`, with no block so far. -/
structure AtRoot (name : String) (stale : List CodecCase) (st : ParseState) : Prop where
  stop : st.stop = .running
  parseError : st.parseError = 0
  index : st.index = 1
  entry : st.entry 1 = ⟨.audiohal, [.mixer, .codecProbe]⟩
  below : ∀ j ≤ 0, (st.entry j).elem ≠ .codecProbe
  probe : st.initProbe = ⟨none, none, stale, stale.length⟩
  curXmlFile : st.curXmlFile = name

theorem root_opened (env : Env) {name : String} {stale : List CodecCase}
    (hprobe : st.initProbe = ⟨none, none, stale, stale.length⟩) (hname : st.curXmlFile = name)
    (hroot : ∀ j ≤ 0, (st.entry j).elem ≠ .codecProbe) :
    ∃ st', parseEvent env (begun st) (.start "audiohal" []) = some st' ∧ AtRoot name stale st' := by
  obtain ⟨value, hvalue⟩ : ∃ value, extractAttribs .audiohal [] = some value := ⟨_, rfl⟩
  have hdepth : (begun st).index < maxParseDepth := by
    show (0 : Int) < maxParseDepth
    decide
  refine ⟨clear (enter (begun st) .audiohal value), ?_, ?_⟩
  · rw [parseEvent_start rfl rfl (e := .audiohal) (by simp [begun]; decide) hdepth hvalue]
    rfl
  · constructor
    · rfl
    · rfl
    · rfl
    · exact enter_top (begun st) .audiohal value
    · intro j hj
      have hbelow : (enter (begun st) .audiohal value).entry j = (begun st).entry j :=
        enter_below (begun st) .audiohal value hj
      show ((enter (begun st) .audiohal value).entry j).elem ≠ _
      rw [hbelow, begun_elem]
      exact hroot j hj
    · exact hprobe
    · exact hname

theorem probe_opened (env : Env) {b : ProbeBlock} {name : String} {stale : List CodecCase}
    (h : AtRoot name stale st) :
    ∃ st', parseEvent env st (.start "codec_probe" b.attribs) = some st' ∧
      AtCases b name (capacity stale.length) stale st' := by
  obtain ⟨value, hvalue⟩ := Option.isSome_iff_exists.mp b.probeValid
  have hfile : b.file = (value .file).getD "" := by
    rw [ProbeBlock.file, attribText, hvalue]
    rfl
  have hnone : (enter st .codecProbe value).initProbe.file = none := by
    show st.initProbe.file = none
    rw [h.probe]
  obtain ⟨st', hst'⟩ : ∃ s, s = clear { enter st .codecProbe value with
      initProbe := { st.initProbe with file := some ((value .file).getD "") }
      current := { st.current with codecProbe := true } } := ⟨_, rfl⟩
  have hstart : parseEvent env st (.start "codec_probe" b.attribs) = some st' := by
    rw [parseEvent_start h.stop h.parseError (e := .codecProbe) (by rw [h.index, h.entry]; decide)
      (by rw [h.index]; decide) hvalue, startFn, parseCodecProbeStart, hnone, hst']
    rfl
  refine ⟨st', hstart, ?_⟩
  subst hst'
  constructor
  · exact h.stop
  · rfl
  · show st.index + 1 = 2
    rw [h.index]
    rfl
  · have htop := enter_top st .codecProbe value
    rw [h.index] at htop
    exact htop
  · intro j hj
    show ((enter st .codecProbe value).entry j).elem ≠ _
    rw [enter_below st .codecProbe value (by rw [h.index]; exact hj)]
    by_cases hone : j = 1
    · rw [hone, h.entry]
      decide
    · exact h.below j (by omega)
  · rfl
  · rw [hfile]
    rfl
  · show st.initProbe.newXmlFile = none
    rw [h.probe]
  · show st.initProbe.cases = stale
    rw [h.probe]
  · show stale.length ≤ st.initProbe.maxCount
    rw [h.probe]
  · show capacity st.initProbe.maxCount = capacity stale.length
    rw [h.probe]
  · exact h.curXmlFile

/-- The parser inside `<audiohal>` when it comes to the block, at the first of its cases. -/
theorem block_opened (env : Env) {b : ProbeBlock} {name : String} {stale : List CodecCase}
    (hprobe : st.initProbe = ⟨none, none, stale, stale.length⟩) (hname : st.curXmlFile = name)
    (hroot : ∀ j ≤ 0, (st.entry j).elem ≠ .codecProbe) :
    ∃ st', parseEvents env (begun st) [.start "audiohal" [], .start "codec_probe" b.attribs] =
        some st' ∧ AtCases b name (capacity stale.length) stale st' := by
  obtain ⟨st₁, hfirst, hat⟩ := root_opened env hprobe hname hroot
  obtain ⟨st₂, hsecond, hcases⟩ := probe_opened env (b := b) hat
  refine ⟨st₂, ?_, hcases⟩
  simp only [parseEvents, hfirst, Option.bind_some, hsecond]

/-- The end of the block looks the codec up in all the cases that are in the array. -/
theorem block_closed {b : ProbeBlock} {name : String} {room : Nat} {cases : List CodecCase}
    (h : AtCases b name room cases st) (hread : (env.firstLine b.file).isSome = true) :
    ∃ st', parseEvent env st (.finish "codec_probe") = some st' ∧
      Probed name cases (caseFor env b cases) st' ∧ (caseFor env b cases = none → Quiet st') := by
  obtain ⟨line, hline⟩ := Option.isSome_iff_exists.mp hread
  obtain ⟨st₁, hst₁⟩ : ∃ s, s = ({ st with
      initProbe := compressProbe st.initProbe
      current := { st.current with codecProbe := false } } : ParseState) := ⟨_, rfl⟩
  have hend : endFn env .codecProbe st = .ok (probeConfigFile env st₁) := by
    rw [endFn, parseCodecProbeEnd, h.inside, hst₁]
    rfl
  have helem : (st.entry st.index).elem = .codecProbe := by
    rw [h.index, h.entry]
  have hfile : st₁.initProbe.file = some b.file := by
    rw [hst₁]
    exact h.file
  have hcases : st₁.initProbe.cases = cases := by
    rw [hst₁]
    exact h.gathered
  have hmax : st₁.initProbe.maxCount = cases.length := by
    rw [hst₁, ← h.gathered]
    rfl
  have hname : st₁.curXmlFile = name := by
    rw [hst₁]
    exact h.curXmlFile
  have hrun : st₁.stop = .running := by
    rw [hst₁]
    exact h.stop
  have hindex : st₁.index = 2 := by
    rw [hst₁]
    exact h.index
  have hentry : ∀ j ≤ 1, (st₁.entry j).elem ≠ .codecProbe := by
    rw [hst₁]
    exact h.below
  refine ⟨leave (probeConfigFile env st₁),
    parseEvent_finish "codec_probe" h.stop h.parseError helem hend, ?_⟩
  rw [caseFor, hline, Option.bind_some, probeConfigFile, hfile, Option.bind_some, hline, hcases]
  dsimp only
  cases hfound : cases.find? fun cc => cc.codecName = probeTrimSpaces line with
  | none =>
    have hquiet : Quiet (leave { st₁ with initProbe := { st₁.initProbe with newXmlFile := none } }) := by
      refine ⟨hrun, rfl, fun _ j hj => hentry j ?_⟩
      have hle : j ≤ st₁.index - 1 := hj
      omega
    exact ⟨hquiet.probed, fun _ => hquiet⟩
  | some cc =>
    refine ⟨?_, fun hnone => by cases hnone⟩
    dsimp only [Option.map_some]
    by_cases hself : cc.file = st₁.curXmlFile
    · rw [if_pos hself]
      rw [hname] at hself
      constructor
      · rw [hself]
        simp [leave]
      · rw [hself]
        simp [leave]
      · exact fun _ => ⟨hcases, hmax⟩
      · exact fun _ j hj => hentry j (by omega)
    · rw [if_neg hself]
      rw [hname] at hself
      constructor
      · simp [leave, hself]
      · simp [leave, hself]
      · exact fun _ => ⟨hcases, hmax⟩
      · exact fun _ j hj => hentry j (by omega)

end Block

section File

variable {env : Env} {st : ParseState}

theorem entered_next {file : XmlFile} {r : Int} {st' : ParseState} (hst : Entered env st)
    (hnest : WellNested file.events) (h : doParse env st file = some (r, st')) (name : String)
    (probe : CodecProbe) : Entered env { st' with curXmlFile := name, initProbe := probe } := by
  rw [doParse_begun] at h
  obtain ⟨st₁, hrun, heq⟩ := Option.map_eq_some_iff.mp h
  cases heq
  obtain ⟨n, hn⟩ := parseEvents_feed env file.events (begun st)
  refine .again name probe hst ?_ (hn.symm.trans hrun)
  rw [List.map_map]
  exact (List.map_id (file.events.take n)).symm ▸ hnest.take n

/-- The events of a file with a block, from the start of the parser. -/
theorem block_events {b : ProbeBlock} {name : String} {stale : List CodecCase}
    (rest : List XmlEvent) (hprobe : st.initProbe = ⟨none, none, stale, stale.length⟩)
    (hname : st.curXmlFile = name) (hroot : ∀ j ≤ 0, (st.entry j).elem ≠ .codecProbe)
    (hread : (env.firstLine b.file).isSome = true)
    (hrest : ∀ attribs, XmlEvent.start "codec_probe" attribs ∉ rest) {st' : ParseState}
    (hrun : parseEvents env (begun st) (fileEvents (some b) rest) = some st') :
    Probed name (stale ++ b.codecCases)
      (if stale.length + b.cases.length ≤ capacity stale.length then
        caseFor env b (stale ++ b.codecCases) else none) st' := by
  have hsplit : fileEvents (some b) rest =
      [.start "audiohal" [], .start "codec_probe" b.attribs] ++
        (b.cases.flatMap caseEvents ++ ([.finish "codec_probe"] ++ rest)) := by
    simp [fileEvents, ProbeBlock.events]
  obtain ⟨st₁, hopen, hat⟩ := block_opened env (b := b) hprobe hname hroot
  obtain ⟨st₂, hcases, hgathered⟩ := cases_gathered env b.cases b.casesValid hat
  rw [hsplit, parseEvents_append, hopen, Option.bind_some, parseEvents_append, hcases,
    Option.bind_some] at hrun
  cases hgathered with
  | inr hfull =>
    obtain ⟨hroom, herror, hquiet⟩ := hfull
    rw [parseEvents_idle (parseEvent_failed env herror)] at hrun
    cases hrun
    rw [if_neg (by omega)]
    exact hquiet.probed
  | inl hall =>
    obtain ⟨hroom, hat₂⟩ := hall
    obtain ⟨st₃, hclose, hprobed, hquiet⟩ := block_closed hat₂ hread
    change Probed name (stale ++ b.codecCases) (caseFor env b (stale ++ b.codecCases)) st₃ at hprobed
    rw [if_pos hroom]
    rw [List.singleton_append, parseEvents, hclose, Option.bind_some] at hrun
    by_cases hnone : caseFor env b (stale ++ b.codecCases) = none
    · rw [hnone]
      exact (quiet_events hrest (hquiet hnone) hrun).probed
    · have hstopped : st₃.stop ≠ .running := by
        rw [hprobed.stop, if_neg hnone]
        split <;> decide
      rw [parseEvents_idle (parseEvent_stopped env hstopped)] at hrun
      cases hrun
      exact hprobed

/-- One configuration file, with the cases of the files before it in the array. -/
theorem doParse_probed {f : ConfigFile} {name : String} {stale : List CodecCase}
    (hst : Entered env st) (hprobe : st.initProbe = ⟨none, none, stale, stale.length⟩)
    (hname : st.curXmlFile = name) (hroot : ∀ j ≤ 0, (st.entry j).elem ≠ .codecProbe)
    (hread : ∀ b, f.probe = some b → (env.firstLine b.file).isSome = true) :
    ∃ r st', doParse env st f.xml = some (r, st') ∧
      Probed name (stale ++ f.codecCases) (f.redirect env stale) st' := by
  have hreturns : (doParse env st f.xml).isSome = true := doParse_returns hst f.nested
  obtain ⟨done, hdone⟩ := Option.isSome_iff_exists.mp hreturns
  refine ⟨done.1, done.2, hdone, ?_⟩
  rw [doParse_begun] at hdone
  obtain ⟨st', hrun, rfl⟩ := Option.map_eq_some_iff.mp hdone
  obtain ⟨probe, rest, wellFormed, hrest, hnest⟩ := f
  cases probe with
  | none =>
    have hquiet : Quiet (begun st) := by
      refine ⟨rfl, by rw [begun, hprobe], fun _ j hj => ?_⟩
      rw [begun_elem]
      exact hroot j hj
    exact (quiet_events hrest hquiet hrun).probed
  | some b => exact block_events rest hprobe hname hroot (hread b rfl) hrest hrun

end File

/-- The state in which `do_parse` gets a file. -/
def openFile (st : ParseState) (name : String) : ParseState :=
  { st with
    curXmlFile := name
    initProbe := { st.initProbe with
      file := if st.initProbe.newXmlFile.isSome then none else st.initProbe.file
      newXmlFile := none } }

/-- The files that `parse_config_file` gives to `do_parse`, in order. -/
def parsedFiles (env : Env) : Nat → ParseState → List String
  | 0, _ => []
  | fuel + 1, st =>
    let name := st.initProbe.newXmlFile.getD env.defaultFile
    match env.files name with
    | none => []
    | some file =>
      match doParse env (openFile st name) file with
      | none => [name]
      | some done =>
        if done.2.initProbe.newXmlFile.isSome then name :: parsedFiles env fuel done.2 else [name]

/-- A finite set of configuration files. Their probe files are readable, and their redirects lead to
files of the set and not round in a circle. -/
structure ConfigSet (env : Env) where
  names : List String
  file : String → ConfigFile
  given : ∀ n ∈ names, env.files n = some (file n).xml
  readable : ∀ n ∈ names, ∀ b, (file n).probe = some b →
    ∃ line, env.firstLine b.file = some line ∧ line ≠ "" ∧ line.length < 39
  default : env.defaultFile ∈ names
  closed : ∀ n ∈ names, ∀ m, (file n).target env = some m → m ∈ names
  acyclic : ∀ n, ¬ Relation.TransGen (fun a b => a ∈ names ∧ (file a).target env = some b) n n

namespace ConfigSet

variable {env : Env} (c : ConfigSet env)

/-- Where a file of the set redirects to by its own cases. -/
def next (name : String) : Option String :=
  if name ∈ c.names then (c.file name).target env else none

/-- The files parsed are those of the default file's chain, each one by its own cases, and the
parser gets through the last one without being stopped. -/
def FollowsOwn : Prop :=
  ∃ fuel r st, parseFiles env fuel initState = some (r, st) ∧ st.stop = .running ∧
    Chain.Follows c.next env.defaultFile (parsedFiles env fuel initState)

/-- At none of these files do the cases of those before it change where the file redirects to. -/
def Undisturbed : List CodecCase → List String → Prop
  | _, [] => True
  | stale, name :: rest =>
    (c.file name).redirect env stale = c.next name ∧
      Undisturbed (stale ++ (c.file name).codecCases) rest

/-- Before a file: its name, and what is left of the files before it. -/
structure Ready (env : Env) (name : String) (stale : List CodecCase) (st : ParseState) : Prop where
  upcoming : st.initProbe.newXmlFile.getD env.defaultFile = name
  probe : (openFile st name).initProbe = ⟨none, none, stale, stale.length⟩
  root : ∀ j ≤ 0, (st.entry j).elem ≠ .codecProbe
  entered : ∀ file probe, Entered env { st with curXmlFile := file, initProbe := probe }

theorem next_of_mem {name : String} (h : name ∈ c.names) :
    c.next name = (c.file name).target env := if_pos h

theorem next_closed : ∀ n ∈ c.names, ∀ m, c.next n = some m → m ∈ c.names := by
  intro n hn m hm
  rw [c.next_of_mem hn] at hm
  exact c.closed n hn m hm

theorem next_acyclic (n : String) : ¬ Relation.TransGen (fun a b => c.next a = some b) n n := by
  intro hcycle
  have hle : (fun a b => c.next a = some b) ≤
      fun a b => a ∈ c.names ∧ (c.file a).target env = some b :=
    fun a b hab => Option.ite_none_right_eq_some.mp hab
  exact c.acyclic n (Relation.TransGen.mono hle n n hcycle)

theorem next_ne {n m : String} (h : c.next n = some m) : m ≠ n := by
  intro hself
  rw [hself] at h
  exact c.next_acyclic n (.single h)

theorem initial_ready : Ready env env.defaultFile [] initState :=
  ⟨rfl, rfl, fun _ _ => by simp [initState], fun file probe => .first file probe⟩

theorem file_step {name : String} {stale : List CodecCase} {st : ParseState}
    (h : Ready env name stale st) (hname : name ∈ c.names) :
    ∃ r st', doParse env (openFile st name) (c.file name).xml = some (r, st') ∧
      Probed name (stale ++ (c.file name).codecCases) ((c.file name).redirect env stale) st' ∧
      ∀ m, (c.file name).redirect env stale = some m → m ≠ name →
        Ready env m (stale ++ (c.file name).codecCases) st' := by
  have hentered : Entered env (openFile st name) := h.entered _ _
  have hread : ∀ b, (c.file name).probe = some b → (env.firstLine b.file).isSome = true := by
    intro b hb
    obtain ⟨line, hline, -⟩ := c.readable name hname b hb
    rw [hline]
    rfl
  have hcur : (openFile st name).curXmlFile = name := rfl
  obtain ⟨r, st', hdo, hprobed⟩ := doParse_probed hentered h.probe hcur h.root hread
  refine ⟨r, st', hdo, hprobed, ?_⟩
  intro m hm hne
  obtain ⟨-, hnew, harray, hroot⟩ := hprobed
  have hsome : (c.file name).redirect env stale ≠ none := by
    rw [hm]
    simp
  have hself : ¬ (c.file name).redirect env stale = some name := by
    rw [hm]
    exact fun heq => hne (Option.some_inj.mp heq)
  rw [if_neg hself, hm] at hnew
  obtain ⟨hcases, hmax⟩ := harray hsome
  refine ⟨by rw [hnew]; rfl, ?_, hroot hsome, fun file probe => entered_next hentered
    (c.file name).nested hdo file probe⟩
  simp only [openFile, hnew, hcases, hmax]
  rfl

theorem parseFiles_succ (env : Env) (fuel : Nat) (st : ParseState) :
    parseFiles env (fuel + 1) st =
      match env.files (st.initProbe.newXmlFile.getD env.defaultFile) with
      | none => some (-enomem, st)
      | some file =>
        (doParse env (openFile st (st.initProbe.newXmlFile.getD env.defaultFile)) file).bind
          fun done => if done.2.initProbe.newXmlFile.isSome then parseFiles env fuel done.2
            else some done := rfl

/-- A file that redirects nowhere, or to itself, is the last one. -/
theorem parseFiles_last {env : Env} {name : String} {st st' : ParseState} {r : Int} {file : XmlFile}
    (fuel : Nat) (hname : st.initProbe.newXmlFile.getD env.defaultFile = name)
    (hfile : env.files name = some file) (hdo : doParse env (openFile st name) file = some (r, st'))
    (hnew : st'.initProbe.newXmlFile = none) :
    parseFiles env (fuel + 1) st = some (r, st') ∧ parsedFiles env (fuel + 1) st = [name] := by
  constructor
  · rw [parseFiles_succ, hname, hfile]
    dsimp only
    rw [hdo, Option.bind_some, hnew]
    rfl
  · rw [parsedFiles, hname, hfile]
    dsimp only
    rw [hdo]
    dsimp only
    rw [hnew]
    rfl

/-- A redirect goes on with the next file. -/
theorem parseFiles_hop {env : Env} {name m : String} {st st' : ParseState} {r : Int} {file : XmlFile}
    (fuel : Nat) (hname : st.initProbe.newXmlFile.getD env.defaultFile = name)
    (hfile : env.files name = some file) (hdo : doParse env (openFile st name) file = some (r, st'))
    (hnew : st'.initProbe.newXmlFile = some m) :
    parseFiles env (fuel + 1) st = parseFiles env fuel st' ∧
      parsedFiles env (fuel + 1) st = name :: parsedFiles env fuel st' := by
  constructor
  · rw [parseFiles_succ, hname, hfile]
    dsimp only
    rw [hdo, Option.bind_some, hnew]
    rfl
  · rw [parsedFiles, hname, hfile]
    dsimp only
    rw [hdo]
    dsimp only
    rw [hnew]
    rfl

/-- A run that goes on has parsed the file that comes next, or has failed to open it. -/
theorem parsedFiles_head {env : Env} {m : String} {fuel : Nat} {st st' : ParseState} {r : Int}
    (hname : st.initProbe.newXmlFile.getD env.defaultFile = m)
    (hrun : parseFiles env fuel st = some (r, st')) :
    st' = st ∧ parsedFiles env fuel st = [] ∨ ∃ rest, parsedFiles env fuel st = m :: rest := by
  cases fuel with
  | zero => cases hrun
  | succ fuel =>
    rw [parseFiles_succ, hname] at hrun
    rw [parsedFiles, hname]
    cases hfile : env.files m with
    | none =>
      rw [hfile] at hrun
      cases hrun
      exact .inl ⟨rfl, rfl⟩
    | some file =>
      right
      dsimp only
      cases doParse env (openFile st m) file with
      | none => exact ⟨[], rfl⟩
      | some done =>
        dsimp only
        by_cases hsome : done.2.initProbe.newXmlFile.isSome
        · rw [if_pos hsome]
          exact ⟨_, rfl⟩
        · rw [if_neg hsome]
          exact ⟨[], rfl⟩

/-- The chain is followed as long as no earlier case gets in the way. -/
theorem run_undisturbed {name : String} {chain : List String} (h : Chain.Follows c.next name chain)
    {stale : List CodecCase} {st : ParseState} (hready : Ready env name stale st)
    (hname : name ∈ c.names) (hcalm : c.Undisturbed stale chain) :
    ∃ fuel r st', parseFiles env fuel st = some (r, st') ∧ st'.stop = .running ∧
      parsedFiles env fuel st = chain := by
  induction h generalizing stale st with
  | @stop name hnone =>
    obtain ⟨r, st', hdo, hprobed, -⟩ := c.file_step hready hname
    rw [hcalm.1, hnone] at hprobed
    obtain ⟨hrun, hparsed⟩ := parseFiles_last 0 hready.upcoming (c.given name hname) hdo
      hprobed.newXmlFile
    exact ⟨1, r, st', hrun, hprobed.stop, hparsed⟩
  | @hop name m rest hnext hrest ih =>
    obtain ⟨hredirect, hcalm⟩ := hcalm
    rw [hnext] at hredirect
    obtain ⟨r, st₁, hdo, hprobed, hready₁⟩ := c.file_step hready hname
    have hne := c.next_ne hnext
    have hnew := hprobed.newXmlFile
    rw [hredirect, if_neg fun heq => hne (Option.some_inj.mp heq)] at hnew
    obtain ⟨fuel, r', st', hrun, hstop, hparsed⟩ :=
      ih (hready₁ m hredirect hne) (c.next_closed name hname m hnext) hcalm
    obtain ⟨hhop, hlist⟩ := parseFiles_hop fuel hready.upcoming (c.given name hname) hdo hnew
    exact ⟨fuel + 1, r', st', hhop.trans hrun, hstop, by rw [hlist, hparsed]⟩

/-- A run along the chain of the files themselves has met no earlier case. -/
theorem undisturbed_of_run (fuel : Nat) {name : String} {stale : List CodecCase}
    {st st' : ParseState} {r : Int} (hready : Ready env name stale st)
    (hname : name ∈ c.names) (hrun : parseFiles env fuel st = some (r, st'))
    (hstop : st'.stop = .running) (h : Chain.Follows c.next name (parsedFiles env fuel st)) :
    c.Undisturbed stale (parsedFiles env fuel st) := by
  induction fuel generalizing name stale st with
  | zero => cases hrun
  | succ fuel ih =>
    obtain ⟨r₁, st₁, hdo, hprobed, hready₁⟩ := c.file_step hready hname
    have hgiven := c.given name hname
    have hstop₁ := hprobed.stop
    have hnew := hprobed.newXmlFile
    cases hredirect : (c.file name).redirect env stale with
    | none =>
      rw [hredirect] at hnew
      obtain ⟨-, hlist⟩ := parseFiles_last fuel hready.upcoming hgiven hdo hnew
      rw [hlist] at h ⊢
      cases h with
      | stop hnone => exact ⟨hredirect.trans hnone.symm, trivial⟩
      | hop _ hrest => cases hrest
    | some m =>
      rw [hredirect] at hnew hstop₁
      by_cases hself : m = name
      · -- its own file: the parser has been aborted
        rw [hself, if_pos rfl] at hnew
        obtain ⟨hlast, -⟩ := parseFiles_last fuel hready.upcoming hgiven hdo hnew
        rw [hlast] at hrun
        cases hrun
        rw [hself] at hstop₁
        simp [hstop] at hstop₁
      · have hne : ¬ some m = some name := fun heq => hself (Option.some_inj.mp heq)
        rw [if_neg hne] at hnew
        obtain ⟨hhop, hlist⟩ := parseFiles_hop fuel hready.upcoming hgiven hdo hnew
        have hready₂ := hready₁ m hredirect hself
        rw [hhop] at hrun
        rw [hlist] at h ⊢
        cases parsedFiles_head hready₂.upcoming hrun with
        | inl hmissing =>
          -- a file that cannot be opened leaves the parser suspended
          rw [hmissing.1, hstop₁, if_neg (by simp), if_neg hne] at hstop
          cases hstop
        | inr hhead =>
          obtain ⟨rest, hrest⟩ := hhead
          rw [hrest] at h
          obtain ⟨hnext, hfollows⟩ := h.hop_inv
          refine ⟨hredirect.trans hnext.symm, ?_⟩
          exact ih hready₂ (c.next_closed name hname m hnext) hrun (hrest ▸ hfollows)

theorem undisturbed_of_followsOwn (h : c.FollowsOwn) (chain : List String)
    (hchain : Chain.Follows c.next env.defaultFile chain) : c.Undisturbed [] chain := by
  obtain ⟨fuel, r, st, hrun, hstop, hfollows⟩ := h
  rw [hchain.unique hfollows]
  exact c.undisturbed_of_run fuel initial_ready c.default hrun hstop hfollows

/-- The redirects follow each file's own probe list exactly when at every file of the chain the
cases of the files before it do not change what its own list gives. -/
theorem followsOwn_iff : c.FollowsOwn ↔
    ∀ chain, Chain.Follows c.next env.defaultFile chain → c.Undisturbed [] chain := by
  constructor
  · exact c.undisturbed_of_followsOwn
  · intro hcalm
    obtain ⟨chain, hchain⟩ := Chain.exists_follows c.next_closed c.next_acyclic c.default
    obtain ⟨fuel, r, st, hrun, hstop, hparsed⟩ :=
      c.run_undisturbed hchain initial_ready c.default (hcalm chain hchain)
    exact ⟨fuel, r, st, hrun, hstop, hparsed ▸ hchain⟩

end ConfigSet

/-- A file that leads to another one for a codec. -/
def leadingTo (probeFile codec file : String) : ConfigFile where
  probe := some
    { attribs := [("file", probeFile)]
      cases := [[("name", codec), ("file", file)]]
      probeValid := rfl
      casesValid := by
        intro a ha
        rw [List.mem_singleton.mp ha]
        rfl }
  rest := [.finish "audiohal"]
  wellFormed := true
  noOther := by simp
  nested := rfl

/-- A file without a probe. -/
def plainFile : ConfigFile where
  probe := none
  rest := [.start "audiohal" [], .finish "audiohal"]
  wellFormed := true
  noOther := by simp
  nested := by decide

/-- The file of the codec asks for the card again, or for the revision of the codec. -/
def revisionFile (again : Bool) (name : String) : ConfigFile :=
  if name = "audio.mocha.xml" then
    leadingTo "/sys/class/sound/card0/id" "wm5102" "audio.wm5102.xml"
  else if name = "audio.wm5102.xml" then
    if again then leadingTo "/sys/class/sound/card0/id" "wm5102" "audio.wm5102v2.xml"
    else leadingTo "/data/misc/codec_revision" "v2" "audio.wm5102v2.xml"
  else plainFile

def revisionNames : List String := ["audio.mocha.xml", "audio.wm5102.xml", "audio.wm5102v2.xml"]

def revisionEnv (again : Bool) : Env where
  defaultFile := "audio.mocha.xml"
  files name := if name ∈ revisionNames then some (revisionFile again name).xml else none
  firstLine file := some (if file = "/sys/class/sound/card0/id" then "wm5102\n" else "v2\n")
  mixerOpen _ := none

/-- Where in the chain a file stands. -/
def revisionRank (name : String) : Nat :=
  if name = "audio.mocha.xml" then 0 else if name = "audio.wm5102.xml" then 1 else 2

theorem revision_targets (again : Bool) :
    (revisionFile again "audio.mocha.xml").target (revisionEnv again) = some "audio.wm5102.xml" ∧
    (revisionFile again "audio.wm5102.xml").target (revisionEnv again) =
      some "audio.wm5102v2.xml" := by
  cases again with
  | false => exact ⟨by decide +kernel, by decide +kernel⟩
  | true => exact ⟨by decide +kernel, by decide +kernel⟩

theorem revision_step (again : Bool) : ∀ n ∈ revisionNames, ∀ m,
    (revisionFile again n).target (revisionEnv again) = some m →
    m ∈ revisionNames ∧ revisionRank n < revisionRank m := by
  intro n hn m hm
  obtain ⟨hfirst, hsecond⟩ := revision_targets again
  simp only [revisionNames, List.mem_cons, List.not_mem_nil, or_false] at hn
  rcases hn with rfl | rfl | rfl
  · rw [hfirst] at hm
    cases hm
    decide
  · rw [hsecond] at hm
    cases hm
    decide
  · cases hm

/-- The default file, the file of the codec, and the file of its revision. -/
def revisionSet (again : Bool) : ConfigSet (revisionEnv again) where
  names := revisionNames
  file := revisionFile again
  given _ hn := if_pos hn
  readable _ _ b _ := by
    refine ⟨_, rfl, ?_⟩
    split
    · exact ⟨by decide, by decide⟩
    · exact ⟨by decide, by decide⟩
  default := List.mem_cons_self
  closed n hn m hm := (revision_step again n hn m hm).1
  acyclic n hcycle := by
    have hrank : ∀ a b, Relation.TransGen (fun a b =>
        a ∈ revisionNames ∧ (revisionFile again a).target (revisionEnv again) = some b) a b →
        revisionRank a < revisionRank b := by
      intro a b hab
      induction hab with
      | single hstep => exact (revision_step again _ hstep.1 _ hstep.2).2
      | tail _ hstep ih => exact Nat.lt_trans ih (revision_step again _ hstep.1 _ hstep.2).2
    exact Nat.lt_irrefl _ (hrank n n hcycle)

theorem revision_follows (again : Bool) :
    Chain.Follows (revisionSet again).next "audio.mocha.xml" revisionNames := by
  obtain ⟨hfirst, hsecond⟩ := revision_targets again
  refine .hop ?_ (.hop ?_ (.stop rfl))
  · rw [ConfigSet.next_of_mem _ (show "audio.mocha.xml" ∈ revisionNames by decide)]
    exact hfirst
  · rw [ConfigSet.next_of_mem _ (show "audio.wm5102.xml" ∈ revisionNames by decide)]
    exact hsecond

/-- With names that differ, both redirects are followed. -/
theorem revision_followed :
    parsedFiles (revisionEnv false) 4 initState = revisionNames ∧ (revisionSet false).FollowsOwn := by
  refine ⟨by decide +kernel, (ConfigSet.followsOwn_iff (revisionSet false)).mpr ?_⟩
  intro chain hchain
  rw [← (revision_follows false).unique hchain]
  exact ⟨by decide +kernel, by decide +kernel, by decide +kernel, trivial⟩

/-- The second redirect finds the case of the first file, which leads to the file itself. -/
theorem second_redirect_refused :
    parsedFiles (revisionEnv true) 3 initState = ["audio.mocha.xml", "audio.wm5102.xml"] ∧
      (parseFiles (revisionEnv true) 3 initState).map Prod.fst = some (-einval) ∧
      Chain.Follows (revisionSet true).next "audio.mocha.xml" revisionNames ∧
      ¬ (revisionSet true).FollowsOwn := by
  refine ⟨by decide +kernel, by decide +kernel, revision_follows true, ?_⟩
  intro hfollows
  have hcalm := (revisionSet true).undisturbed_of_followsOwn hfollows _ (revision_follows true)
  have hsecond : ¬ ((revisionSet true).file "audio.wm5102.xml").redirect (revisionEnv true)
      ([] ++ ((revisionSet true).file "audio.mocha.xml").codecCases) =
        (revisionSet true).next "audio.wm5102.xml" := by decide +kernel
  exact hsecond hcalm.2.1

end TinyHal
