import Mathlib.Data.List.Find
import Mocha.AudioContents

/-!
# The parser on a document

An element that leaves no error has run its start handler, its children and its
end handler, so a document has the effect of its tree. `<mixer>` and
`<codec_probe>` act on the parser itself and are followed by hand, at the top
level of the document, which is the only place they can stand.
-/
namespace TinyHal

section Refusals

/-- Every error code is negative. -/
def Refuses {α : Type} (x : Except Fault α) : Prop := ∀ e, x = .error (.errno e) → e < 0

variable {α β : Type}

theorem refuses_ok (a : α) : Refuses (.ok a : Except Fault α) := by
  intro e h
  cases h

theorem refuses_null : Refuses (.error .nullParent : Except Fault α) := by
  intro e h
  cases h

theorem refuses_errno {e : Int} (he : e < 0) : Refuses (.error (.errno e) : Except Fault α) := by
  intro e' h
  cases h
  exact he

theorem refuses_einval : Refuses (.error (.errno (-einval)) : Except Fault α) :=
  refuses_errno (by decide)

/-- A sequence that stops does so with the code of the part that stopped. -/
theorem refuses_bind {x : Except Fault α} {f : α → Except Fault β} (hx : Refuses x)
    (hf : ∀ a, Refuses (f a)) : Refuses (x >>= f) := by
  intro e h
  cases x with
  | error f =>
    cases h
    exact hx e rfl
  | ok a => exact hf a e h

theorem dynArrayExtend_refuses (array : List α) (x : α) : Refuses (dynArrayExtend array x) := by
  unfold dynArrayExtend
  split
  · exact refuses_ok _
  · exact refuses_errno (by decide)

theorem deref_refuses (o : Option α) : Refuses (deref o) := by
  cases o
  · exact refuses_null
  · exact refuses_ok _

/-- Reading a number can only fail with its negative code. -/
theorem attribToUint_refuses (st : ParseState) (a : Attrib) (init : α) (conv : Nat → α) :
    Refuses (attribToUint st a init conv) := by
  unfold attribToUint
  split
  · exact refuses_ok _
  · split
    · exact refuses_einval
    · exact refuses_ok _

/-- A text that is no number is refused with a negative code. -/
theorem stringToUint_error {text : Option String} {e : Int} (h : stringToUint text = .error e) :
    e < 0 := by
  unfold stringToUint at h
  split at h
  · cases h
    decide
  · dsimp only at h
    split at h
    · cases h
    · cases h
      decide

/-- One bad byte refuses the whole list. -/
theorem tokenBytes_error {tokens : List (List Char)} {e : Int} (h : tokenBytes tokens = .error e) :
    e < 0 := by
  induction tokens with
  | nil => cases h
  | cons t ts ih =>
    unfold tokenBytes at h
    split at h
    case h_1 e' he =>
      cases h
      exact stringToUint_error he
    case h_2 =>
      split at h
      case h_1 e' he =>
        cases h
        exact ih he
      case h_2 => cases h

theorem einval_le : -einval ≤ 0 := by decide

theorem enoent_le : -enoent ≤ 0 := by decide

/-- The array is made, or a negative code says why not. -/
theorem makeByteArray_code (c : Ctl) (ctl : MixerCtl) : (makeByteArray c ctl).1 ≤ 0 := by
  unfold makeByteArray
  dsimp only
  split
  · exact einval_le
  · split
    · exact einval_le
    · split
      · exact einval_le
      · split
        case h_1 e he => exact Int.le_of_lt (tokenBytes_error he)
        case h_2 => exact Int.le_refl 0

/-- Opening a control never answers with a positive code. -/
theorem ctlOpen_code (mixer : Mixer) (pctl : Ctl) : (ctlOpen mixer pctl).1 ≤ 0 := by
  unfold ctlOpen
  split
  · exact Int.le_refl 0
  · split
    · exact enoent_le
    · split
      · exact enoent_le
      case h_2 i _ ctl _ =>
        split
        case h_1 =>
          have hcode := makeByteArray_code
            (if pctl.index = invalidCtlIndex then { pctl with index := 0 } else pctl) ctl
          generalize makeByteArray _ ctl = opened at hcode ⊢
          dsimp only
          split
          · exact hcode
          · exact Int.le_refl 0
        case h_2 | h_3 =>
          split
          · split
            · exact einval_le
            · exact Int.le_refl 0
          · exact Int.le_refl 0
        case h_4 => exact Int.le_refl 0
        case h_5 | h_6 | h_7 => exact einval_le

theorem ctlArray_refuses (st : ParseState) : Refuses (ctlArray st) := by
  unfold ctlArray
  split
  · exact refuses_ok _
  · refine refuses_bind (deref_refuses _) fun device => ?_
    exact refuses_bind (deref_refuses _) fun path => refuses_ok _
  · refine refuses_bind (deref_refuses _) fun at_ => ?_
    refine refuses_bind (deref_refuses _) fun stream => ?_
    refine refuses_bind (deref_refuses _) fun usecase => ?_
    exact refuses_bind (deref_refuses _) fun scase => refuses_ok _

theorem parseCtlStart_refuses (st : ParseState) : Refuses (parseCtlStart st) := by
  refine refuses_bind (ctlArray_refuses st) fun array => ?_
  refine refuses_bind (dynArrayExtend_refuses _ _) fun _ => ?_
  refine refuses_bind (attribToUint_refuses _ _ _ _) fun index => ?_
  dsimp only
  split
  case isTrue h => exact refuses_errno (Int.lt_iff_le_and_ne.mpr ⟨ctlOpen_code _ _, h.1⟩)
  case isFalse => exact refuses_ok _

theorem addPathName_refuses (st : ParseState) (name : String) : Refuses (addPathName st name) := by
  unfold addPathName
  split
  · exact refuses_ok _
  · exact refuses_bind (dynArrayExtend_refuses _ _) fun _ => refuses_ok _

theorem parsePathStart_refuses (st : ParseState) : Refuses (parsePathStart st) := by
  refine refuses_bind (deref_refuses _) fun d => ?_
  refine refuses_bind (addPathName_refuses _ _) fun named => ?_
  refine refuses_bind (deref_refuses _) fun device => ?_
  exact refuses_bind (dynArrayExtend_refuses _ _) fun _ => refuses_ok _

theorem parseCaseStart_refuses (st : ParseState) : Refuses (parseCaseStart st) := by
  refine refuses_bind (deref_refuses _) fun at_ => ?_
  refine refuses_bind (deref_refuses _) fun stream => ?_
  refine refuses_bind (deref_refuses _) fun usecase => ?_
  exact refuses_bind (dynArrayExtend_refuses _ _) fun _ => refuses_ok _

theorem parseUsecaseStart_refuses (st : ParseState) : Refuses (parseUsecaseStart st) := by
  refine refuses_bind (deref_refuses _) fun i => ?_
  refine refuses_bind (deref_refuses _) fun stream => ?_
  exact refuses_bind (dynArrayExtend_refuses _ _) fun _ => refuses_ok _

theorem parseEnableDisableStart_refuses (isEnable : Bool) (st : ParseState) :
    Refuses (parseEnableDisableStart isEnable st) := by
  unfold parseEnableDisableStart
  split
  · exact refuses_einval
  · exact refuses_bind (deref_refuses _) fun _ => refuses_ok _

theorem controlLimit_refuses (st : ParseState) (a : Attrib) (range : Int) :
    Refuses (controlLimit st a range) := by
  unfold controlLimit
  split
  · exact refuses_ok _
  · split
    · exact refuses_einval
    · split
      case isTrue h => exact refuses_errno h
      case isFalse => exact refuses_ok _

theorem parseStreamCtlStart_refuses (st : ParseState) : Refuses (parseStreamCtlStart st) := by
  unfold parseStreamCtlStart
  split
  · exact refuses_einval
  · refine refuses_bind (deref_refuses _) fun ctl => ?_
    refine refuses_bind (attribToUint_refuses _ _ _ _) fun idxVal => ?_
    refine refuses_bind (deref_refuses _) fun i => ?_
    dsimp only
    split
    · exact refuses_einval
    · refine refuses_bind (controlLimit_refuses _ _ _) fun min => ?_
      exact refuses_bind (controlLimit_refuses _ _ _) fun max => refuses_ok _

theorem streamDir_refuses (st : ParseState) (global : Bool) : Refuses (streamDir st global) := by
  unfold streamDir
  split
  · split
    · exact refuses_ok _
    · exact refuses_einval
  · split
    · exact refuses_ok _
    · split
      · exact refuses_ok _
      · exact refuses_einval

theorem streamType_refuses (st : ParseState) (global out : Bool) :
    Refuses (streamType st global out) := by
  unfold streamType
  dsimp only
  split
  · exact refuses_ok _
  · split
    · split
      · exact refuses_einval
      · exact refuses_ok _
    · split
      · exact refuses_ok _
      · split
        · exact refuses_ok _
        · exact refuses_einval

theorem parseStreamStart_refuses (st : ParseState) : Refuses (parseStreamStart st) := by
  unfold parseStreamStart
  dsimp only
  split
  · exact refuses_einval
  · refine refuses_bind (dynArrayExtend_refuses _ _) fun _ => ?_
    refine refuses_bind (streamDir_refuses _ _) fun out => ?_
    refine refuses_bind (streamType_refuses _ _ _) fun type => ?_
    iterate 6
      refine refuses_bind (attribToUint_refuses _ _ _ _) fun _ => ?_
    exact refuses_ok _

theorem supportDevice_refuses (cm : ConfigMgr) (t : BitVec 32) : Refuses (supportDevice cm t) := by
  unfold supportDevice
  split
  · exact refuses_ok _
  · split <;> split
    · exact refuses_einval
    · exact refuses_ok _
    · exact refuses_einval
    · exact refuses_ok _

theorem parseDeviceStart_refuses (st : ParseState) : Refuses (parseDeviceStart st) := by
  unfold parseDeviceStart
  split
  · exact refuses_einval
  · refine refuses_bind (supportDevice_refuses _ _) fun cm => ?_
    exact refuses_bind (dynArrayExtend_refuses _ _) fun _ => refuses_ok _

theorem parseMixerStart_refuses (env : Env) (st : ParseState) : Refuses (parseMixerStart env st) := by
  refine refuses_bind (attribToUint_refuses _ _ _ _) fun card => ?_
  dsimp only
  split
  · exact refuses_einval
  · exact refuses_ok _

theorem parseCodecProbeStart_refuses (st : ParseState) : Refuses (parseCodecProbeStart st) := by
  unfold parseCodecProbeStart
  split
  · exact refuses_einval
  · exact refuses_ok _

theorem newCodecCase_refuses (probe : CodecProbe) (cc : CodecCase) :
    Refuses (newCodecCase probe cc) := by
  unfold newCodecCase
  split
  · split
    · exact refuses_errno (by decide)
    · exact refuses_ok _
  · exact refuses_ok _

theorem parseCodecCaseStart_refuses (st : ParseState) : Refuses (parseCodecCaseStart st) := by
  unfold parseCodecCaseStart
  split
  · exact refuses_null
  · exact refuses_bind (newCodecCase_refuses _ _) fun _ => refuses_ok _

theorem parseCodecProbeEnd_refuses (env : Env) (st : ParseState) :
    Refuses (parseCodecProbeEnd env st) := by
  unfold parseCodecProbeEnd
  split
  · exact refuses_null
  · exact refuses_ok _

/-- All start handlers: a failure always shows in the error code. -/
theorem startFn_refuses (env : Env) (e : Elem) (st : ParseState) : Refuses (startFn env e st) := by
  cases e with
  | ctl => exact parseCtlStart_refuses st
  | path => exact parsePathStart_refuses st
  | device => exact parseDeviceStart_refuses st
  | stream => exact parseStreamStart_refuses st
  | enable => exact parseEnableDisableStart_refuses true st
  | disable => exact parseEnableDisableStart_refuses false st
  | case => exact parseCaseStart_refuses st
  | usecase => exact parseUsecaseStart_refuses st
  | streamCtl => exact parseStreamCtlStart_refuses st
  | init => exact refuses_ok _
  | mixer => exact parseMixerStart_refuses env st
  | audiohal => exact refuses_ok _
  | codecProbe => exact parseCodecProbeStart_refuses st
  | codecCase => exact parseCodecCaseStart_refuses st

theorem endFn_refuses (env : Env) (e : Elem) (st : ParseState) : Refuses (endFn env e st) := by
  cases e with
  | path => exact refuses_bind (deref_refuses _) fun _ => refuses_ok _
  | device => exact refuses_bind (deref_refuses _) fun _ => refuses_ok _
  | stream => exact refuses_bind (deref_refuses _) fun _ => refuses_ok _
  | case => exact refuses_bind (deref_refuses _) fun _ => refuses_ok _
  | usecase => exact refuses_bind (deref_refuses _) fun _ => refuses_ok _
  | codecProbe => exact parseCodecProbeEnd_refuses env st
  | ctl => exact refuses_ok _
  | enable => exact refuses_ok _
  | disable => exact refuses_ok _
  | streamCtl => exact refuses_ok _
  | init => exact refuses_ok _
  | mixer => exact refuses_ok _
  | audiohal => exact refuses_ok _
  | codecCase => exact refuses_ok _

end Refusals

section Events

/-- The events of a document are gone through in two parts. -/
theorem parseEvents_append (env : Env) (st : ParseState) (xs ys : List XmlEvent) :
    parseEvents env st (xs ++ ys) = (parseEvents env st xs).bind fun st => parseEvents env st ys := by
  induction xs generalizing st with
  | nil => rfl
  | cons x xs ih =>
    simp only [List.cons_append, parseEvents]
    cases parseEvent env st x with
    | none => rfl
    | some st₁ => exact ih st₁

theorem parseEvent_failed (env : Env) {st : ParseState} (h : st.parseError ≠ 0) (e : XmlEvent) :
    parseEvent env st e = some st := by
  cases e <;> simp [parseEvent, parseSectionStart, parseSectionEnd, h]

theorem parseEvent_stopped (env : Env) {st : ParseState} (h : st.stop ≠ .running) (e : XmlEvent) :
    parseEvent env st e = some st := by
  cases e <;> simp [parseEvent, h]

/-- After an error or a stop the events change nothing. -/
theorem parseEvents_idle {env : Env} {st : ParseState} (h : ∀ e, parseEvent env st e = some st)
    (es : List XmlEvent) : parseEvents env st es = some st := by
  induction es with
  | nil => rfl
  | cons e es ih => rw [parseEvents, h e, Option.bind_some, ih]

/-- An error is never taken back, so a clean end had a clean start. -/
theorem parseEvents_parseError {env : Env} {st st' : ParseState} {es : List XmlEvent}
    (h : parseEvents env st es = some st') (hok : st'.parseError = 0) : st.parseError = 0 := by
  by_contra hne
  rw [parseEvents_idle (parseEvent_failed env hne)] at h
  cases h
  exact hne hok

/-- The state in which a start handler runs. -/
def enter (st : ParseState) (e : Elem) (value : Attrib → Option String) : ParseState :=
  { st with
    index := st.index + 1
    entry := Function.update st.entry (st.index + 1) ⟨e, (elemTable e).validSubelem⟩
    attribs := value }

/-- A successful handler leaves error code 0. -/
def clear (st : ParseState) : ParseState := { st with parseError := 0 }

/-- The end of an element goes back to its parent. -/
def leave (st : ParseState) : ParseState := { st with parseError := 0, index := st.index - 1 }

/-- A handler succeeds, or leaves a negative error code and nothing else. -/
theorem settle_cases {st st' : ParseState} {r : Except Fault ParseState} (hr : Refuses r)
    (h : settle st r = some st') :
    (∃ st₁, r = .ok st₁ ∧ st' = clear st₁) ∨ ∃ e < 0, st' = { st with parseError := e } := by
  cases r with
  | ok st₁ =>
    cases h
    exact .inl ⟨st₁, rfl, rfl⟩
  | error f =>
    cases f with
    | errno e =>
      cases h
      exact .inr ⟨e, hr e rfl, rfl⟩
    | nullParent => cases h

theorem settle_ok {st st' : ParseState} {r : Except Fault ParseState} (hr : Refuses r)
    (h : settle st r = some st') (hok : st'.parseError = 0) :
    ∃ st₁, r = .ok st₁ ∧ st' = clear st₁ := by
  obtain hst | ⟨e, he, rfl⟩ := settle_cases hr h
  · exact hst
  · simp only at hok
    omega

theorem Attrib.text_injective {a b : Attrib} (h : a.text = b.text) : a = b := by
  have hall : (Attrib.all.all fun a => Attrib.all.all fun b =>
      decide (a.text = b.text → a = b)) = true := by decide +kernel
  have hmem : ∀ a : Attrib, a ∈ Attrib.all := by
    intro a
    cases a <;> decide
  have hab := List.all_eq_true.mp (List.all_eq_true.mp hall a (hmem a)) b (hmem b)
  exact of_decide_eq_true hab h

/-- The attributes that are handed over are those of the element. -/
theorem extractAttribs_eq {e : Elem} {x : Xml} {value : Attrib → Option String}
    (h : extractAttribs e x.attribs = some value) : value = x.attrib := by
  unfold extractAttribs at h
  dsimp only at h
  split at h
  case isFalse => cases h
  case isTrue hall =>
    split at h
    case isFalse => cases h
    case isTrue =>
      cases h
      funext a
      unfold Xml.attrib
      congr 1
      apply List.find?_congr
      intro p hp
      have hknown := List.all_eq_true.mp hall p (List.mem_reverse.mp hp)
      obtain ⟨b, hb⟩ := Option.isSome_iff_exists.mp hknown
      have hfound := List.find?_some hb
      have htext : b.text = p.1 := of_decide_eq_true hfound
      rw [decide_eq_decide, hb, Option.some_inj]
      constructor
      · rintro rfl
        exact htext.symm
      · intro hp
        exact Attrib.text_injective (htext.trans hp)

/-- A start tag that is accepted was a known child, its handler succeeded, and its level is
entered. -/
theorem parseSectionStart_ok {env : Env} {st st' : ParseState} {x : Xml}
    (h : parseSectionStart env st x.name x.attribs = some st') (hok : st'.parseError = 0) :
    ∃ e st₁, pick (st.entry st.index).validSubelem x.name = some e ∧
      startFn env e (enter st e x.attrib) = .ok st₁ ∧ st' = clear st₁ := by
  unfold parseSectionStart at h
  dsimp only at h
  split at h
  case isTrue hne =>
    cases h
    exact absurd hok hne
  case isFalse =>
    split at h
    · cases h
      cases hok
    case h_2 e he =>
      split at h
      · cases h
        cases hok
      · split at h
        · cases h
          cases hok
        case h_2 value hvalue =>
          obtain ⟨st₁, hst, heq⟩ := settle_ok (startFn_refuses _ _ _) h hok
          rw [extractAttribs_eq hvalue] at hst
          exact ⟨e, st₁, he, hst, heq⟩

/-- An end tag that is accepted ran the end handler and left the level. -/
theorem parseSectionEnd_ok {env : Env} {st st' : ParseState} (hrun : st.parseError = 0)
    (h : parseSectionEnd env st = some st') (hok : st'.parseError = 0) :
    ∃ st₁, endFn env (st.entry st.index).elem st = .ok st₁ ∧ st' = leave st₁ := by
  unfold parseSectionEnd at h
  rw [if_neg (by simpa using hrun)] at h
  obtain ⟨st₂, hst, rfl⟩ := Option.map_eq_some_iff.mp h
  obtain ⟨st₁, hend, rfl⟩ := settle_ok (endFn_refuses _ _ _) hst hok
  exact ⟨st₁, hend, rfl⟩

/-- The events of an element that leave no error: its start handler, its children, and
its end handler, unless a child stops the parser. -/
theorem element_ok {env : Env} {st st' : ParseState} {x : Xml} (hrun : st.stop = .running)
    (h : parseEvents env st x.events = some st') (hok : st'.parseError = 0) :
    ∃ e st₁ st₂, pick (st.entry st.index).validSubelem x.name = some e ∧
      startFn env e (enter st e x.attrib) = .ok st₁ ∧
      parseEvents env (clear st₁) (Xml.eventsAll x.children) = some st₂ ∧ st₂.parseError = 0 ∧
      (st₂.stop = .running →
        ∃ st₃, endFn env (st₂.entry st₂.index).elem st₂ = .ok st₃ ∧ st' = leave st₃) ∧
      (st₂.stop ≠ .running → st' = st₂) := by
  have hevents : x.events = .start x.name x.attribs :: (Xml.eventsAll x.children ++ [.finish x.name]) := by
    cases x
    rw [Xml.events]
    rfl
  rw [hevents] at h
  obtain ⟨st₀, hstart, hinner⟩ := Option.bind_eq_some_iff.mp h
  rw [parseEvents_append] at hinner
  obtain ⟨st₂, hchildren, hfinish⟩ := Option.bind_eq_some_iff.mp hinner
  have hok₂ := parseEvents_parseError hfinish hok
  have hok₀ := parseEvents_parseError hchildren hok₂
  simp only [parseEvent, hrun, if_true] at hstart
  obtain ⟨e, st₁, he, hst, rfl⟩ := parseSectionStart_ok hstart hok₀
  refine ⟨e, st₁, st₂, he, hst, hchildren, hok₂, ?_, ?_⟩
  · intro hrun₂
    obtain ⟨st₃, hlast, heq⟩ := Option.bind_eq_some_iff.mp hfinish
    cases heq
    simp only [parseEvent, hrun₂, if_true] at hlast
    exact parseSectionEnd_ok hok₂ hlast hok
  · intro hstop
    rw [parseEvents_idle (parseEvent_stopped env hstop)] at hfinish
    cases hfinish
    rfl

/-- The element that is picked is allowed here and has the name of the tag. -/
theorem pick_mem {valid : List Elem} {name : String} {e : Elem} (h : pick valid name = some e) :
    e ∈ valid ∧ (elemTable e).name = name := by
  have hfound := List.find?_some h
  simpa using hfound

/-- Two handlers after each other write what the second makes of the first. -/
theorem Writes.comp {f g : Contents → Contents} {st st₁ st₂ : ParseState} (hf : Writes f st st₁)
    (hg : Writes g st₁ st₂) (hlabel : ∀ s : Contents, s.Labelled → (f s).Labelled) :
    Writes (fun s => g (f s)) st st₂ := by
  refine ⟨hf.toFrame.trans hg.toFrame, ?_⟩
  intro h
  have h₁ := hf.contents h
  rw [hg.contents (by rw [h₁]; exact hlabel _ h), h₁]

theorem Writes.clear {f : Contents → Contents} {st st₁ : ParseState} (h : Writes f st st₁) :
    Writes f st (clear st₁) := ⟨⟨h.index, h.entry, h.stop, h.mixer, h.newXmlFile, h.curXmlFile⟩, h.contents⟩

/-- An element between entering and leaving it. -/
theorem Writes.leave {f : Contents → Contents} {st st₃ : ParseState} {e : Elem}
    {value : Attrib → Option String} (h : Writes f (enter st e value) st₃) :
    Writes f st (leave st₃) where
  index := by
    have hindex : st₃.index = st.index + 1 := h.index
    show st₃.index - 1 = st.index
    omega
  entry := by
    intro j hj
    have hentry := h.entry j (by simp only [enter]; omega)
    simp only [enter] at hentry
    rw [Function.update_of_ne (by omega)] at hentry
    exact hentry
  stop := h.stop
  mixer := h.mixer
  newXmlFile := h.newXmlFile
  curXmlFile := h.curXmlFile
  contents := h.contents

mutual

/-- An element that the parser accepts is one of its parent's, and has its effect. -/
theorem effect_writes {env : Env} : ∀ (x : Xml) {st st' : ParseState}, st.stop = .running →
    (∀ e ∈ (st.entry st.index).validSubelem, e.plain = true) →
    parseEvents env st x.events = some st' → st'.parseError = 0 →
    Writes (x.effect st.cm.mixer (st.entry st.index).validSubelem) st st' ∧
      (pick (st.entry st.index).validSubelem x.name).isSome = true
  | .element name attribs children, st, st', hrun, hplain, h, hok => by
    obtain ⟨e, st₁, st₂, he, hst, hchildren, hok₂, hend, -⟩ := element_ok hrun h hok
    have hpe := hplain e (pick_mem he).1
    have hw₁ := (startFn_writes env hpe _ st₁ hst).clear
    -- the children run under the entry that the start pushed
    have hentry : (clear st₁).entry (clear st₁).index = ⟨e, (elemTable e).validSubelem⟩ := by
      rw [hw₁.index, hw₁.entry _ (le_refl _)]
      simp [enter]
    have hw₂ := (effects_writes children (hw₁.stop.trans hrun) (by
      rw [hentry]
      exact plain_subelem hpe) hchildren hok₂).1
    have hentry₂ : (st₂.entry st₂.index).elem = e := by
      rw [hw₂.index, hw₂.entry _ (le_refl _), hentry]
    obtain ⟨st₃, hfin, rfl⟩ := hend (hw₂.stop.trans (hw₁.stop.trans hrun))
    rw [hentry₂] at hfin
    have hw₃ := endFn_writes env hpe st₂ st₃ hfin
    rw [hentry, hw₁.mixer] at hw₂
    refine ⟨?_, Option.isSome_iff_exists.mpr ⟨e, he⟩⟩
    have hall := (hw₁.comp hw₂ fun s hs => hs.start _ _ _).comp hw₃ fun s hs =>
      (hs.start _ _ _).effects _ _ _
    have heffect : (Xml.element name attribs children).effect st.cm.mixer
        (st.entry st.index).validSubelem = fun s => (Xml.effects st.cm.mixer (elemTable e).validSubelem
          children (s.start st.cm.mixer e (Xml.element name attribs children).attrib)).finish e := by
      funext s
      rw [Xml.effect, show pick (st.entry st.index).validSubelem name = some e from he]
    rw [heffect]
    exact hall.leave

/-- The children one after the other; every one of them has an allowed name. -/
theorem effects_writes {env : Env} : ∀ (xs : List Xml) {st st' : ParseState}, st.stop = .running →
    (∀ e ∈ (st.entry st.index).validSubelem, e.plain = true) →
    parseEvents env st (Xml.eventsAll xs) = some st' → st'.parseError = 0 →
    Writes (Xml.effects st.cm.mixer (st.entry st.index).validSubelem xs) st st' ∧
      ∀ x ∈ xs, (pick (st.entry st.index).validSubelem x.name).isSome = true
  | [], st, st', hrun, hplain, h, hok => by
    rw [Xml.eventsAll] at h
    cases h
    refine ⟨⟨frame_refl st, fun _ => by rw [Xml.effects]⟩, ?_⟩
    intro x hx
    cases hx
  | x :: xs, st, st', hrun, hplain, h, hok => by
    rw [Xml.eventsAll, parseEvents_append] at h
    obtain ⟨st₁, hone, hrest⟩ := Option.bind_eq_some_iff.mp h
    obtain ⟨hw₁, hx⟩ := effect_writes x hrun hplain hone (parseEvents_parseError hrest hok)
    have hentry : st₁.entry st₁.index = st.entry st.index := by
      rw [hw₁.index, hw₁.entry _ (le_refl _)]
    obtain ⟨hw₂, hxs⟩ := effects_writes xs (hw₁.stop.trans hrun) (by rw [hentry]; exact hplain) hrest hok
    rw [hentry] at hw₂ hxs
    rw [hw₁.mixer] at hw₂
    constructor
    · have heffects : Xml.effects st.cm.mixer (st.entry st.index).validSubelem (x :: xs) = fun s =>
          Xml.effects st.cm.mixer (st.entry st.index).validSubelem xs
            (x.effect st.cm.mixer (st.entry st.index).validSubelem s) := by
        funext s
        rw [Xml.effects]
      rw [heffects]
      exact hw₁.comp hw₂ fun s hs => hs.effect _ _ x
    · intro y hy
      rcases List.mem_cons.mp hy with rfl | hy
      · exact hx
      · exact hxs y hy

end

end Events

section Redirects

/-- A file is either suspended with a new file to go to, or has none. -/
def Settled (st : ParseState) : Prop :=
  (st.stop = .suspended ∧ st.initProbe.newXmlFile.isSome = true ∧ st.parseError = 0) ∨
    (st.stop ≠ .suspended ∧ st.initProbe.newXmlFile = none ∧ st.parseError ≤ 0)

/-- Either no file is picked, or the parser is stopped for it. -/
theorem probeConfigFile_settled (env : Env) {st : ParseState} (hrun : st.stop = .running)
    (hnone : st.initProbe.newXmlFile = none) : Settled (clear (probeConfigFile env st)) := by
  unfold probeConfigFile
  split
  · right
    simp [clear, hrun, hnone]
  · dsimp only
    split
    · right
      simp [clear, hrun]
    · split
      · right
        simp [clear]
      · left
        simp [clear]

/-- Start handlers neither stop the parser nor pick a file. -/
theorem startFn_redirect (env : Env) (e : Elem) (st : ParseState) :
    Yields (startFn env e st) fun st' =>
      st'.stop = st.stop ∧ st'.initProbe.newXmlFile = st.initProbe.newXmlFile := by
  intro st' h
  by_cases hplain : e.plain = true
  · have hw := startFn_writes env hplain st st' h
    exact ⟨hw.stop, hw.newXmlFile⟩
  · cases e with
    | mixer =>
      simp only [startFn, parseMixerStart] at h
      obtain ⟨card, -, h⟩ := bind_ok h
      split at h
      · cases h
      · cases h
        exact ⟨rfl, rfl⟩
    | audiohal =>
      cases h
      exact ⟨rfl, rfl⟩
    | codecProbe =>
      simp only [startFn, parseCodecProbeStart] at h
      split at h
      · cases h
      · cases h
        exact ⟨rfl, rfl⟩
    | _ => exact absurd rfl hplain

/-- Only the end of `<codec_probe>` can stop the parser, with a file picked. -/
theorem endFn_settled (env : Env) (e : Elem) {st : ParseState} (hrun : st.stop = .running)
    (hnone : st.initProbe.newXmlFile = none) :
    Yields (endFn env e st) fun st' => Settled (clear st') := by
  intro st' h
  by_cases hplain : e.plain = true
  · have hw := endFn_writes env hplain st st' h
    right
    simp [clear, hw.stop, hrun, hw.newXmlFile, hnone]
  · cases e with
    | mixer =>
      cases h
      right
      simp [clear, hrun, hnone]
    | audiohal =>
      cases h
      right
      simp [clear, hrun, hnone]
    | codecProbe =>
      simp only [endFn, parseCodecProbeEnd] at h
      split at h
      · cases h
      · cases h
        exact probeConfigFile_settled env hrun hnone
    | _ => exact absurd rfl hplain

/-- One event keeps the two in step; by cases of how the handler ended. -/
theorem parseSectionStart_settled {env : Env} {st st' : ParseState} {name : String}
    {attribs : List (String × String)} (hrun : st.stop = .running) (hs : Settled st)
    (h : parseSectionStart env st name attribs = some st') : Settled st' := by
  obtain ⟨hstop, -⟩ | ⟨hstop, hnone, hle⟩ := hs
  · cases hrun.symm.trans hstop
  · unfold parseSectionStart at h
    dsimp only at h
    split at h
    · cases h
      exact .inr ⟨hstop, hnone, hle⟩
    · split at h
      · cases h
        exact .inr ⟨hstop, hnone, einval_le⟩
      · split at h
        · cases h
          exact .inr ⟨hstop, hnone, einval_le⟩
        · split at h
          · cases h
            exact .inr ⟨hstop, hnone, einval_le⟩
          · obtain ⟨st₁, hst, rfl⟩ | ⟨e, he, rfl⟩ := settle_cases (startFn_refuses _ _ _) h
            · obtain ⟨hstop₁, hnew₁⟩ := startFn_redirect _ _ _ _ hst
              exact .inr ⟨by rw [clear, hstop₁]; exact hstop, hnew₁.trans hnone, Int.le_refl 0⟩
            · exact .inr ⟨hstop, hnone, Int.le_of_lt he⟩

theorem parseSectionEnd_settled {env : Env} {st st' : ParseState} (hrun : st.stop = .running)
    (hs : Settled st) (h : parseSectionEnd env st = some st') : Settled st' := by
  obtain ⟨hstop, -⟩ | ⟨hstop, hnone, hle⟩ := hs
  · cases hrun.symm.trans hstop
  · unfold parseSectionEnd at h
    split at h
    · cases h
      exact .inr ⟨hstop, hnone, hle⟩
    · obtain ⟨st₂, hst, rfl⟩ := Option.map_eq_some_iff.mp h
      obtain ⟨st₁, hend, rfl⟩ | ⟨e, he, rfl⟩ := settle_cases (endFn_refuses _ _ _) hst
      · have hs₁ : Settled (clear st₁) := endFn_settled env _ hrun hnone _ hend
        exact hs₁
      · exact .inr ⟨hstop, hnone, Int.le_of_lt he⟩

theorem parseEvents_settled {env : Env} {st st' : ParseState} {es : List XmlEvent}
    (hs : Settled st) (h : parseEvents env st es = some st') : Settled st' := by
  induction es generalizing st with
  | nil =>
    cases h
    exact hs
  | cons e es ih =>
    obtain ⟨st₁, hone, hrest⟩ := Option.bind_eq_some_iff.mp h
    refine ih ?_ hrest
    cases e with
    | start name attribs =>
      simp only [parseEvent] at hone
      split at hone
      case isTrue hrun => exact parseSectionStart_settled hrun hs hone
      case isFalse =>
        cases hone
        exact hs
    | finish name =>
      simp only [parseEvent] at hone
      split at hone
      case isTrue hrun => exact parseSectionEnd_settled hrun hs hone
      case isFalse =>
        cases hone
        exact hs

end Redirects

section Root

/-- Where no child is allowed, children have no effect. -/
theorem effects_nil (mixer : Mixer) (xs : List Xml) (s : Contents) : Xml.effects mixer [] xs s = s := by
  induction xs with
  | nil => rw [Xml.effects]
  | cons x xs ih =>
    obtain ⟨name, attribs, children⟩ := x
    rw [Xml.effects, Xml.effect]
    exact ih

/-- The cases of a codec probe have nothing to do with controls. -/
theorem effects_codecCase (mixer : Mixer) (xs : List Xml) (s : Contents) :
    Xml.effects mixer [.codecCase] xs s = s := by
  induction xs with
  | nil => rw [Xml.effects]
  | cons x xs ih =>
    obtain ⟨name, attribs, children⟩ := x
    rw [Xml.effects, Xml.effect]
    split
    · exact ih
    case h_2 e he =>
      cases List.mem_singleton.mp (pick_mem he).1
      rw [show (elemTable .codecCase).validSubelem = [] from rfl, effects_nil]
      exact ih

/-- What the sections of an accepted document do: probes first, then the mixer, then
devices and streams. -/
inductive Filled (mixer : Mixer) : List Xml → Contents → Contents → Prop
  | nil (s : Contents) : Filled mixer [] s s
  | probe {x : Xml} {xs : List Xml} {s s' : Contents} :
      x.name = "codec_probe" → Filled mixer xs s s' → Filled mixer (x :: xs) s s'
  | mixer {x : Xml} {xs : List Xml} {s : Contents} :
      x.name = "mixer" → (∀ y ∈ xs, y.name = "device" ∨ y.name = "stream") →
      Filled mixer (x :: xs) s
        (Xml.effects mixer [.device, .stream] xs (Xml.effects mixer [.init] x.children s))

theorem parseCodecProbeStart_writes (st : ParseState) :
    Yields (parseCodecProbeStart st) (Writes id st) := by
  unfold parseCodecProbeStart
  split
  · exact yields_throw _
  · exact yields_pure ⟨⟨rfl, fun _ _ => rfl, rfl, rfl, rfl, rfl⟩, fun _ => rfl⟩

/-- Probing leaves everything but the choice of the next file. -/
theorem probeConfigFile_keeps (env : Env) (st : ParseState) :
    (probeConfigFile env st).contents = st.contents ∧
      (probeConfigFile env st).curXmlFile = st.curXmlFile ∧
      (probeConfigFile env st).index = st.index ∧ (probeConfigFile env st).entry = st.entry := by
  unfold probeConfigFile
  split
  · exact ⟨rfl, rfl, rfl, rfl⟩
  · dsimp only
    split
    · exact ⟨rfl, rfl, rfl, rfl⟩
    · split <;> exact ⟨rfl, rfl, rfl, rfl⟩

/-- A probe leaves the contents alone, and the parser at the same place. -/
theorem codecProbe_reads {env : Env} {st st' : ParseState} {x : Xml} (hrun : st.stop = .running)
    (hlabel : st.contents.Labelled)
    (hpick : pick (st.entry st.index).validSubelem x.name = some .codecProbe)
    (h : parseEvents env st x.events = some st') (hok : st'.parseError = 0) :
    st'.contents = st.contents ∧ st'.curXmlFile = st.curXmlFile ∧ st'.index = st.index ∧
      ∀ j ≤ st.index, st'.entry j = st.entry j := by
  obtain ⟨e, st₁, st₂, he, hst, hchildren, hok₂, hend, -⟩ := element_ok hrun h hok
  cases hpick.symm.trans he
  have hw₁ := (parseCodecProbeStart_writes _ st₁ hst).clear
  have hentry : (clear st₁).entry (clear st₁).index =
      ⟨.codecProbe, (elemTable .codecProbe).validSubelem⟩ := by
    rw [hw₁.index, hw₁.entry _ (le_refl _)]
    simp [enter]
  have hw₂ := (effects_writes _ (hw₁.stop.trans hrun) (by rw [hentry]; decide) hchildren hok₂).1
  have hentry₂ : (st₂.entry st₂.index).elem = .codecProbe := by
    rw [hw₂.index, hw₂.entry _ (le_refl _), hentry]
  obtain ⟨st₃, hfin, rfl⟩ := hend (hw₂.stop.trans (hw₁.stop.trans hrun))
  rw [hentry₂] at hfin
  simp only [endFn, parseCodecProbeEnd] at hfin
  split at hfin
  · cases hfin
  · cases hfin
    obtain ⟨hcontents, hfile, hindex, hentries⟩ := probeConfigFile_keeps env
      { st₂ with
        initProbe := compressProbe st₂.initProbe
        current := { st₂.current with codecProbe := false } }
    have hw := (hw₁.comp hw₂ fun s hs => hs)
    have hsame : st₂.contents = st.contents := by
      rw [hw.contents hlabel, hentry]
      exact effects_codecCase _ _ _
    have hwl := hw.leave
    refine ⟨hcontents.trans hsame, hfile.trans hw.curXmlFile, ?_, ?_⟩
    · rw [leave, hindex]
      exact hwl.index
    · intro j hj
      rw [leave, hentries]
      exact hwl.entry j hj

/-- The mixer section opens the card, fills the `<init>` path, and leaves the root with
devices and streams to come. -/
theorem mixer_reads {env : Env} {st st' : ParseState} {x : Xml} (hrun : st.stop = .running)
    (hlabel : st.contents.Labelled)
    (hpick : pick (st.entry st.index).validSubelem x.name = some .mixer)
    (h : parseEvents env st x.events = some st') (hok : st'.parseError = 0) :
    st'.contents = Xml.effects st'.cm.mixer [.init] x.children st.contents ∧
      st'.stop = .running ∧ st'.curXmlFile = st.curXmlFile ∧ st'.index = st.index ∧
      st'.entry st.index = { st.entry st.index with validSubelem := [.device, .stream] } := by
  obtain ⟨e, st₁, st₂, he, hst, hchildren, hok₂, hend, -⟩ := element_ok hrun h hok
  cases hpick.symm.trans he
  simp only [startFn, parseMixerStart] at hst
  obtain ⟨card, -, hopen⟩ := bind_ok hst
  cases hmixer : env.mixerOpen card with
  | none =>
    rw [hmixer] at hopen
    cases hopen
  | some mixer =>
    rw [hmixer] at hopen
    cases hopen
    have hback : st.index + 1 - 1 = st.index := by omega
    have hne : st.index + 1 ≠ st.index := by omega
    have hvalid : ∀ st₁ : ParseState, st₁.index = st.index + 1 →
        st₁.entry (st.index + 1) = ⟨.mixer, [.init]⟩ → (st₁.entry st₁.index).validSubelem = [.init] := by
      intro st₁ hindex hentry
      rw [hindex, hentry]
    have hw := (effects_writes _ (by exact hrun) (by
      rw [hvalid _ rfl (by simp [clear, enter, hback, hne, elemTable])]
      decide) hchildren hok₂).1
    rw [hvalid _ rfl (by simp [clear, enter, hback, hne, elemTable])] at hw
    have hentry₂ : (st₂.entry st₂.index).elem = .mixer := by
      rw [hw.index, hw.entry _ (le_refl _)]
      simp [clear, enter, hback, hne]
    obtain ⟨st₃, hfin, rfl⟩ := hend (hw.stop.trans hrun)
    rw [hentry₂] at hfin
    cases hfin
    have hcontents := hw.contents hlabel
    refine ⟨?_, hw.stop.trans hrun, hw.curXmlFile, ?_, ?_⟩
    · show st₂.contents = Xml.effects st₂.cm.mixer [.init] x.children st.contents
      rw [hcontents, hw.mixer]
      rfl
    · have hindex := hw.index
      simp only [clear, enter] at hindex
      simp only [leave, hindex]
      omega
    · have hentry := hw.entry st.index (by simp only [clear, enter]; omega)
      simp only [clear, enter, hback, Function.update_self] at hentry
      simp only [leave, hentry]
      rw [Function.update_of_ne (by omega)]

/-- What may stand directly below the root. -/
theorem pick_root {name : String} {e : Elem} (h : pick [.mixer, .codecProbe] name = some e) :
    (e = .codecProbe ∧ name = "codec_probe") ∨ (e = .mixer ∧ name = "mixer") := by
  obtain ⟨hmem, hname⟩ := pick_mem h
  rcases List.mem_cons.mp hmem with rfl | hmem
  · exact .inr ⟨rfl, hname.symm⟩
  · cases List.mem_singleton.mp hmem
    exact .inl ⟨rfl, hname.symm⟩

/-- What may stand directly below `<mixer>`, after the codec part. -/
theorem pick_section {name : String} (h : (pick [.device, .stream] name).isSome = true) :
    name = "device" ∨ name = "stream" := by
  obtain ⟨e, he⟩ := Option.isSome_iff_exists.mp h
  obtain ⟨hmem, hname⟩ := pick_mem he
  rcases List.mem_cons.mp hmem with rfl | hmem
  · exact .inl hname.symm
  · cases List.mem_singleton.mp hmem
    exact .inr hname.symm

/-- The sections of a document. A probe that stops the parser leaves the contents alone. -/
theorem sections_read {env : Env} (xs : List Xml) {st st' : ParseState} (hrun : st.stop = .running)
    (hlabel : st.contents.Labelled)
    (hvalid : (st.entry st.index).validSubelem = [.mixer, .codecProbe])
    (h : parseEvents env st (Xml.eventsAll xs) = some st') (hok : st'.parseError = 0) :
    st'.curXmlFile = st.curXmlFile ∧
      (st'.stop ≠ .running → st'.contents = st.contents) ∧
      (st'.stop = .running → Filled st'.cm.mixer xs st.contents st'.contents ∧
        (st'.entry st'.index).elem = (st.entry st.index).elem) := by
  induction xs generalizing st with
  | nil =>
    rw [Xml.eventsAll] at h
    cases h
    exact ⟨rfl, fun _ => rfl, fun _ => ⟨.nil _, rfl⟩⟩
  | cons x xs ih =>
    rw [Xml.eventsAll, parseEvents_append] at h
    obtain ⟨st₁, hone, hrest⟩ := Option.bind_eq_some_iff.mp h
    have hok₁ := parseEvents_parseError hrest hok
    obtain ⟨e, -, -, he, -⟩ := element_ok hrun hone hok₁
    obtain ⟨rfl, hname⟩ | ⟨rfl, hname⟩ := pick_root (hvalid ▸ he)
    · obtain ⟨hsame, hfile, hindex, hentry⟩ := codecProbe_reads hrun hlabel he hone hok₁
      have hentry₁ : st₁.entry st₁.index = st.entry st.index := by
        rw [hindex, hentry _ (le_refl _)]
      by_cases hrun₁ : st₁.stop = .running
      · obtain ⟨hfile', hstopped, hfilled⟩ := ih hrun₁ (by rw [hsame]; exact hlabel)
          (by rw [hentry₁]; exact hvalid) hrest
        rw [hsame] at hstopped hfilled
        refine ⟨hfile'.trans hfile, hstopped, ?_⟩
        intro hrun'
        obtain ⟨hfill, helem⟩ := hfilled hrun'
        exact ⟨.probe hname hfill, by rw [helem, hentry₁]⟩
      · rw [parseEvents_idle (parseEvent_stopped env hrun₁)] at hrest
        cases hrest
        exact ⟨hfile, fun _ => hsame, fun hrun' => absurd hrun' hrun₁⟩
    · obtain ⟨hcontents, hrun₁, hfile, hindex, hentry⟩ := mixer_reads hrun hlabel he hone hok₁
      have hentry₁ : st₁.entry st₁.index =
          { st.entry st.index with validSubelem := [.device, .stream] } := by
        rw [hindex, hentry]
      have hlabel₁ : st₁.contents.Labelled := by
        rw [hcontents]
        exact hlabel.effects _ _ _
      obtain ⟨hw, hnames⟩ := effects_writes xs hrun₁ (by
        rw [hentry₁]
        show ∀ e ∈ [Elem.device, .stream], e.plain = true
        decide) hrest hok
      rw [hentry₁] at hw hnames
      refine ⟨hw.curXmlFile.trans hfile, fun hstop => absurd (hw.stop.trans hrun₁) hstop, ?_⟩
      intro _
      constructor
      · rw [hw.contents hlabel₁, hcontents, ← hw.mixer]
        exact .mixer hname fun y hy => pick_section (hnames y hy)
      · rw [hw.index, hw.entry _ (le_refl _), hentry₁]

/-- A document that no probe stopped leaves the contents its elements stand for. -/
theorem document_read {env : Env} {root : Xml} {st st' : ParseState} (hrun : st.stop = .running)
    (hlabel : st.contents.Labelled) (hvalid : (st.entry st.index).validSubelem = [.audiohal])
    (h : parseEvents env st root.events = some st') (hok : st'.parseError = 0) :
    st'.curXmlFile = st.curXmlFile ∧
      (st'.stop ≠ .running → st'.contents = st.contents) ∧
      (st'.stop = .running → root.name = "audiohal" ∧
        Filled st'.cm.mixer root.children st.contents st'.contents) := by
  obtain ⟨e, st₁, st₂, he, hst, hchildren, hok₂, hend, hstopped⟩ := element_ok hrun h hok
  rw [hvalid] at he
  obtain ⟨hmem, hname⟩ := pick_mem he
  cases List.mem_singleton.mp hmem
  cases hst
  have hentry : (clear (enter st .audiohal root.attrib)).entry
      (clear (enter st .audiohal root.attrib)).index = ⟨.audiohal, [.mixer, .codecProbe]⟩ := by
    simp [clear, enter, elemTable]
  obtain ⟨hfile, hsame, hfilled⟩ := sections_read root.children (by exact hrun) (by exact hlabel)
    (by rw [hentry]) hchildren hok₂
  by_cases hrun₂ : st₂.stop = .running
  · obtain ⟨st₃, hfin, rfl⟩ := hend hrun₂
    obtain ⟨hfill, helem⟩ := hfilled hrun₂
    rw [helem, hentry] at hfin
    cases hfin
    exact ⟨hfile, fun hne => absurd hrun₂ hne, fun _ => ⟨hname.symm, hfill⟩⟩
  · cases hstopped hrun₂
    exact ⟨hfile, hsame, fun hrun' => absurd hrun' hrun₂⟩

/-- What expat promises: the events of a file are those of its document, up to the place
where it finds the file ill formed. -/
def Expat (env : Env) (doc : String → Xml) : Prop :=
  ∀ name file, env.files name = some file →
    file.events <+: (doc name).events ∧ (file.wellFormed = true → file.events = (doc name).events)

/-- One file: an accepted one fills the contents from its document, one that goes on to
another file leaves them alone. -/
theorem doParse_read {env : Env} {doc : String → Xml} {st : ParseState} {file : XmlFile}
    {done : Int × ParseState} (hexpat : Expat env doc) (hfile : env.files st.curXmlFile = some file)
    (hnew : st.initProbe.newXmlFile = none) (hlabel : st.contents.Labelled)
    (h : doParse env st file = some done) :
    (done.2.initProbe.newXmlFile.isSome = true → done.2.contents = st.contents) ∧
      (done.2.initProbe.newXmlFile = none → done.1 = 0 → done.2.curXmlFile = st.curXmlFile ∧
        (doc st.curXmlFile).name = "audiohal" ∧
        Filled done.2.cm.mixer (doc st.curXmlFile).children st.contents done.2.contents) := by
  obtain ⟨st', hst', rfl⟩ := Option.map_eq_some_iff.mp h
  obtain ⟨hread, hwhole⟩ := hexpat _ _ hfile
  have hsettled : Settled st' := by
    refine parseEvents_settled ?_ hst'
    exact .inr ⟨Stop.noConfusion, hnew, Int.le_refl 0⟩
  constructor
  · intro hsome
    obtain ⟨hstop, -, hok⟩ | ⟨-, hnone, -⟩ := hsettled
    · -- the rest of the document changes nothing any more
      obtain ⟨rest, hrest⟩ := hread
      have hall := congrArg (fun st => Option.bind st fun st => parseEvents env st rest) hst'
      simp only [Option.bind_some] at hall
      have hidle : ∀ e, parseEvent env st' e = some st' :=
        parseEvent_stopped env (by rw [hstop]; exact Stop.noConfusion)
      rw [← parseEvents_append, hrest, parseEvents_idle hidle] at hall
      obtain ⟨-, hsame, -⟩ := document_read rfl (by exact hlabel) (by simp) hall hok
      exact hsame (by rw [hstop]; exact Stop.noConfusion)
    · rw [hnone] at hsome
      cases hsome
  · intro hnone hzero
    obtain ⟨-, hsome, -⟩ | ⟨hstop, -, hle⟩ := hsettled
    · rw [hnone] at hsome
      cases hsome
    · have hfine : ¬ (st'.parseError < 0 ∨ st'.stop = .aborted ∨
          (st'.stop = .running ∧ (!file.wellFormed) = true)) := by
        intro hbad
        rw [if_pos hbad] at hzero
        cases hzero
      have hok : st'.parseError = 0 := by omega
      have hrun : st'.stop = .running := by
        cases hs : st'.stop with
        | running => rfl
        | suspended => exact absurd hs hstop
        | aborted => exact absurd (.inr (.inl hs)) hfine
      have hwell : file.wellFormed = true := by
        cases hw : file.wellFormed with
        | true => rfl
        | false => exact absurd (.inr (.inr ⟨hrun, by rw [hw]; rfl⟩)) hfine
      rw [hwhole hwell] at hst'
      obtain ⟨hcur, -, hread⟩ := document_read rfl (by exact hlabel) (by simp) hst' hok
      exact ⟨hcur, hread hrun⟩

/-- The file that the parser ends with fills the contents of a new manager. -/
theorem parseFiles_read {env : Env} {doc : String → Xml} (hexpat : Expat env doc) {fuel : Nat}
    {st st' : ParseState} (hlabel : st.contents.Labelled)
    (h : parseFiles env fuel st = some (0, st')) :
    (doc st'.curXmlFile).name = "audiohal" ∧
      Filled st'.cm.mixer (doc st'.curXmlFile).children st.contents st'.contents := by
  induction fuel generalizing st with
  | zero => cases h
  | succ fuel ih =>
    unfold parseFiles at h
    dsimp only at h
    split at h
    · cases h
    case h_2 file hfile =>
      obtain ⟨done, hdone, hnext⟩ := Option.bind_eq_some_iff.mp h
      obtain ⟨hgo, hend⟩ := doParse_read hexpat (by exact hfile) rfl (by exact hlabel) hdone
      split at hnext
      case isTrue hsome =>
        have hsame := hgo hsome
        have hread := ih (by rw [hsame]; exact hlabel) hnext
        rw [hsame] at hread
        exact hread
      case isFalse hsome =>
        cases hnext
        obtain ⟨hcur, hread⟩ := hend (by simpa using hsome) rfl
        rw [hcur]
        exact hread

end Root

end TinyHal
