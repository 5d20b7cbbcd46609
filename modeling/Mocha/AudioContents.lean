import Mocha.AudioParsed

/-!
# What the parser has collected

A document is a tree of elements, and the parser sees its start and end events.
What it has collected, with its current pointers, is a `Contents`. Every start
handler and every end handler changes it by a function of the element and its
attributes alone, so a tree changes it by a function of the tree, `Xml.effect`.
-/
namespace TinyHal

inductive Xml where
  | element (name : String) (attribs : List (String × String)) (children : List Xml)

namespace Xml

def name : Xml → String
  | element name _ _ => name

def attribs : Xml → List (String × String)
  | element _ attribs _ => attribs

def children : Xml → List Xml
  | element _ _ children => children

/-- The children with a given name, in document order. -/
def named (x : Xml) (name : String) : List Xml := x.children.filter fun c => c.name = name

def attrib (x : Xml) (a : Attrib) : Option String :=
  (x.attribs.reverse.find? fun p => p.1 = a.text).map fun p => p.2

/-- The name attribute. -/
def label (x : Xml) : String := (x.attrib .name).getD ""

mutual

/-- The events of an element, as expat reports them. -/
def events : Xml → List XmlEvent
  | element name attribs children => .start name attribs :: (eventsAll children ++ [.finish name])

def eventsAll : List Xml → List XmlEvent
  | [] => []
  | x :: xs => x.events ++ eventsAll xs

end

end Xml

/-- The control that a `<ctl>` with these attributes stands for. -/
def ctlFrom (mixer : Mixer) (value : Attrib → Option String) : Ctl :=
  let c := newCtl ((value .name).getD "")
  let index := match stringToUint (value .index) with
    | .ok v => v
    | .error _ => c.index
  (ctlOpen mixer { c with index := index, value := .string ((value .val).getD "") }).2

/-- The controls collected so far, by device and path and by stream, usecase and
case, with the pointers to the current objects. A path carries its name. -/
structure Contents where
  device : Option Nat
  stream : Option Nat
  path : Option PathRef
  usecase : Option (Nat × Nat)
  scase : Option (Nat × Nat × Nat)
  devices : List (BitVec 32 × List (Option String × List Ctl))
  streams : List (Option String × List (String × List (String × List Ctl)))
  init : List Ctl

def pathContents (names : List String) (p : Path) : Option String × List Ctl :=
  (names[p.id.toNat]?, p.ctls)

def deviceContents (names : List String) (d : Device) :
    BitVec 32 × List (Option String × List Ctl) :=
  (d.type, d.paths.map (pathContents names))

def caseContents (c : SCase) : String × List Ctl := (c.name, c.ctls)

def usecaseContents (u : Usecase) : String × List (String × List Ctl) :=
  (u.name, u.cases.map caseContents)

def streamContents (s : Stream) : Option String × List (String × List (String × List Ctl)) :=
  (s.name, s.usecases.map usecaseContents)

def ParseState.contents (st : ParseState) : Contents where
  device := st.current.device
  stream := st.current.stream
  path := st.current.path
  usecase := st.current.usecase
  scase := st.current.scase
  devices := st.cm.devices.map (deviceContents st.pathNames)
  streams := st.cm.streams.map streamContents
  init := st.initPath.ctls

namespace Contents

/-- Every path refers to a known path name. -/
def Labelled (s : Contents) : Prop := ∀ d ∈ s.devices, ∀ p ∈ d.2, p.1.isSome = true

/-- A control goes to the current path, and to the current case only if there is no path. -/
def appendCtl (s : Contents) (ctl : Ctl) : Contents :=
  match s.path, s.scase with
  | some .init, _ => { s with init := s.init ++ [ctl] }
  | some (.device d p), _ =>
    { s with devices := s.devices.modify d fun device =>
        (device.1, device.2.modify p fun path => (path.1, path.2 ++ [ctl])) }
  | none, some (i, u, c) =>
    { s with streams := s.streams.modify i fun stream =>
        (stream.1, stream.2.modify u fun usecase =>
          (usecase.1, usecase.2.modify c fun scase => (scase.1, scase.2 ++ [ctl]))) }
  | none, none => s

def addPath (s : Contents) (name : String) : Contents :=
  match s.device with
  | none => s
  | some d =>
    { s with
      devices := s.devices.modify d fun device => (device.1, device.2 ++ [(some name, [])])
      path := (s.devices[d]?).map fun device => .device d device.2.length }

def addUsecase (s : Contents) (name : String) : Contents :=
  match s.stream with
  | none => s
  | some i =>
    { s with
      streams := s.streams.modify i fun stream => (stream.1, stream.2 ++ [(name, [])])
      usecase := (s.streams[i]?).map fun stream => (i, stream.2.length) }

def addCase (s : Contents) (name : String) : Contents :=
  match s.usecase with
  | none => s
  | some (i, u) =>
    { s with
      streams := s.streams.modify i fun stream =>
        (stream.1, stream.2.modify u fun usecase => (usecase.1, usecase.2 ++ [(name, [])]))
      scase := ((s.streams[i]?).bind fun stream => stream.2[u]?).map fun usecase =>
        (i, u, usecase.2.length) }

/-- What the start of an element does. -/
def start (mixer : Mixer) (e : Elem) (value : Attrib → Option String) (s : Contents) : Contents :=
  let name := (value .name).getD ""
  match e with
  | .ctl => s.appendCtl (ctlFrom mixer value)
  | .path => s.addPath name
  | .device =>
    { s with
      devices := s.devices ++ [((parseMatchDevice name).getD 0#32, [])]
      device := some s.devices.length }
  | .stream =>
    { s with streams := s.streams ++ [(value .name, [])], stream := some s.streams.length }
  | .case => s.addCase name
  | .usecase => s.addUsecase name
  | .init => { s with path := some .init }
  | .enable | .disable | .streamCtl | .mixer | .audiohal | .codecProbe | .codecCase => s

/-- What the end of an element does. Nothing ends an `<init>`. -/
def finish (e : Elem) (s : Contents) : Contents :=
  match e with
  | .path => { s with path := none }
  | .case => { s with scase := none }
  | .ctl | .device | .stream | .usecase | .init | .enable | .disable | .streamCtl | .mixer
  | .audiohal | .codecProbe | .codecCase => s

end Contents

/-- The element that a name stands for under a parent with these subelements. -/
def pick (valid : List Elem) (name : String) : Option Elem :=
  Elem.all.find? fun e => decide (e ∈ valid) && decide ((elemTable e).name = name)

namespace Xml

mutual

/-- What the events of an element do to the contents. -/
def effect (mixer : Mixer) (valid : List Elem) : Xml → Contents → Contents
  | element name attribs children, s =>
    match pick valid name with
    | none => s
    | some e =>
      (effects mixer (elemTable e).validSubelem children
        (s.start mixer e (element name attribs children).attrib)).finish e

def effects (mixer : Mixer) (valid : List Elem) : List Xml → Contents → Contents
  | [], s => s
  | x :: xs, s => effects mixer valid xs (effect mixer valid x s)

end

end Xml

section Handlers

/-- `modify` at a position commutes with a map that commutes with it there. -/
theorem map_modify {α β : Type} {l : List α} {i : Nat} {f : α → α} {g : α → β} {f' : β → β}
    (h : ∀ x, l[i]? = some x → g (f x) = f' (g x)) :
    (l.modify i f).map g = (l.map g).modify i f' := by
  apply List.ext_getElem?
  intro k
  rw [List.getElem?_map, List.getElem?_modify, List.getElem?_modify, List.getElem?_map]
  cases hk : l[k]? with
  | none => rfl
  | some x =>
    by_cases hik : i = k
    · subst hik
      simpa using h x hk
    · simp [hik]

/-- A map that a change at one position does not disturb. -/
theorem map_modify_same {α β : Type} {l : List α} {i : Nat} {f : α → α} {g : α → β}
    (h : ∀ x, g (f x) = g x) : (l.modify i f).map g = l.map g := by
  have hmap : (l.modify i f).map g = (l.map g).modify i id := map_modify fun x _ => h x
  rw [hmap, List.modify_id]

/-- What no handler inside the document's sections touches. -/
structure Frame (st st' : ParseState) : Prop where
  index : st'.index = st.index
  entry : ∀ j ≤ st.index, st'.entry j = st.entry j
  stop : st'.stop = st.stop
  mixer : st'.cm.mixer = st.cm.mixer
  newXmlFile : st'.initProbe.newXmlFile = st.initProbe.newXmlFile
  curXmlFile : st'.curXmlFile = st.curXmlFile

theorem Frame.trans {st st₁ st₂ : ParseState} (h₁ : Frame st st₁) (h₂ : Frame st₁ st₂) :
    Frame st st₂ where
  index := h₂.index.trans h₁.index
  entry := by
    intro j hj
    rw [h₂.entry j (by rw [h₁.index]; exact hj), h₁.entry j hj]
  stop := h₂.stop.trans h₁.stop
  mixer := h₂.mixer.trans h₁.mixer
  newXmlFile := h₂.newXmlFile.trans h₁.newXmlFile
  curXmlFile := h₂.curXmlFile.trans h₁.curXmlFile

/-- A change of the contents by `f` that leaves the frame alone. -/
structure Writes (f : Contents → Contents) (st st' : ParseState) : Prop extends Frame st st' where
  contents : st.contents.Labelled → st'.contents = f st.contents

theorem frame_refl (st : ParseState) : Frame st st := ⟨rfl, fun _ _ => rfl, rfl, rfl, rfl, rfl⟩

/-- A handler that adds nothing to the contents. -/
theorem writes_id (st : ParseState) : Writes id st st := ⟨frame_refl st, fun _ => rfl⟩

theorem setCtlArray_frame (st : ParseState) (ctls : List Ctl) : Frame st (setCtlArray st ctls) := by
  unfold setCtlArray
  split <;> exact ⟨rfl, fun _ _ => rfl, rfl, rfl, rfl, rfl⟩

theorem deref_ok {α : Type} {o : Option α} {x : α} (h : deref o = .ok x) : o = some x := by
  cases o with
  | none => cases h
  | some y =>
    cases h
    rfl

/-- A sequence succeeds only when each part of it did. -/
theorem bind_ok {α β : Type} {x : Except Fault α} {f : α → Except Fault β} {b : β}
    (h : x >>= f = .ok b) : ∃ a, x = .ok a ∧ f a = .ok b := by
  cases x with
  | error e => cases h
  | ok a => exact ⟨a, rfl, h⟩

/-- Putting back a longer control array is one more control at the path being read. -/
theorem setCtlArray_contents {st : ParseState} {array : List Ctl} (h : ctlArray st = .ok array)
    (ctl : Ctl) : (setCtlArray st (array ++ [ctl])).contents = st.contents.appendCtl ctl := by
  unfold ctlArray at h
  cases hpath : st.current.path with
  | some p =>
    cases p with
    | init =>
      rw [hpath] at h
      cases h
      simp only [setCtlArray, Contents.appendCtl, ParseState.contents, hpath]
    | device d p =>
      rw [hpath] at h
      obtain ⟨device, hd, h⟩ := bind_ok h
      obtain ⟨path, hp, h⟩ := bind_ok h
      cases h
      simp only [setCtlArray, Contents.appendCtl, ParseState.contents, hpath, modifyDevice]
      congr 1
      apply map_modify
      intro x hx
      cases (deref_ok hd).symm.trans hx
      simp only [deviceContents, Prod.mk.injEq, true_and]
      apply map_modify
      intro y hy
      cases (deref_ok hp).symm.trans hy
      rfl
  | none =>
    rw [hpath] at h
    obtain ⟨⟨i, u, c⟩, hcase, h⟩ := bind_ok h
    obtain ⟨stream, hs, h⟩ := bind_ok h
    obtain ⟨usecase, hu, h⟩ := bind_ok h
    obtain ⟨scase, hc, h⟩ := bind_ok h
    cases h
    simp only [setCtlArray, Contents.appendCtl, ParseState.contents, hpath, deref_ok hcase, modifyStream]
    congr 1
    apply map_modify
    intro x hx
    cases (deref_ok hs).symm.trans hx
    simp only [streamContents, Prod.mk.injEq, true_and]
    apply map_modify
    intro y hy
    cases (deref_ok hu).symm.trans hy
    simp only [usecaseContents, Prod.mk.injEq, true_and]
    apply map_modify
    intro z hz
    cases (deref_ok hc).symm.trans hz
    rfl

/-- The `index` attribute is read as a number, and a text that is none leaves the default. -/
theorem attribToUint_index {st : ParseState} {init index : Nat}
    (h : attribToUint st .index init id = .ok index) :
    index = match stringToUint (st.attribs .index) with
      | .ok v => v
      | .error _ => init := by
  unfold attribToUint at h
  cases hv : stringToUint (st.attribs .index) with
  | ok v =>
    rw [hv] at h
    cases h
    rfl
  | error e =>
    rw [hv] at h
    dsimp only at h
    split at h
    · cases h
    · cases h
      rfl

/-- `<ctl>` appends one control, or nothing when the mixer does not know it. -/
theorem parseCtlStart_writes (st : ParseState) :
    Yields (parseCtlStart st) (Writes (Contents.start st.cm.mixer .ctl st.attribs) st) := by
  apply yields_bind
  intro array harray
  apply yields_bind
  intro _ _
  apply yields_bind
  intro index hindex
  dsimp only
  split
  · exact yields_throw _
  · apply yields_pure
    refine ⟨setCtlArray_frame _ _, ?_⟩
    intro _
    rw [setCtlArray_contents harray, attribToUint_index hindex]
    rfl

theorem parseInitStart_writes (st : ParseState) :
    Yields (parseInitStart st) (Writes (Contents.start st.cm.mixer .init st.attribs) st) :=
  yields_pure ⟨⟨rfl, fun _ _ => rfl, rfl, rfl, rfl, rfl⟩, fun _ => rfl⟩

/-- Noting a codec case does not pick the next file. -/
theorem newCodecCase_newXmlFile (probe : CodecProbe) (cc : CodecCase) :
    Yields (newCodecCase probe cc) fun probe' => probe'.newXmlFile = probe.newXmlFile := by
  unfold newCodecCase
  split
  · split
    · exact yields_throw _
    · exact yields_pure rfl
  · exact yields_pure rfl

theorem parseCodecCaseStart_writes (st : ParseState) :
    Yields (parseCodecCaseStart st) (Writes (Contents.start st.cm.mixer .codecCase st.attribs) st) := by
  unfold parseCodecCaseStart
  split
  · exact yields_throw _
  · apply yields_bind
    intro probe hprobe
    have hredirect := newCodecCase_newXmlFile _ _ probe hprobe
    exact yields_pure ⟨⟨rfl, fun _ _ => rfl, rfl, rfl, hredirect, rfl⟩, fun _ => rfl⟩

/-- A name that is found stands at the place returned. -/
theorem findPathName_get {st : ParseState} {name : String} {i : Nat}
    (h : findPathName st name = some i) : st.pathNames[i]? = some name := by
  unfold findPathName at h
  split at h
  case h_1 k hk =>
    cases h
    obtain ⟨hlt, hname, -⟩ := List.findIdx?_eq_some_iff_getElem.mp hk
    have hget : st.pathNames.reverse[k]? = some name := by
      rw [List.getElem?_eq_getElem hlt]
      exact congrArg some (of_decide_eq_true hname)
    rwa [List.getElem?_reverse (by simpa using hlt)] at hget
  case h_2 => cases h

/-- A name keeps the id it got; a new one goes behind all known ones. -/
theorem addPathName_spec (st : ParseState) (name : String) :
    Yields (addPathName st name) fun r =>
      r.2 = { st with pathNames := r.2.pathNames } ∧ st.pathNames <+: r.2.pathNames ∧
        r.2.pathNames[r.1]? = some name := by
  unfold addPathName
  split
  case h_1 i hi => exact yields_pure ⟨rfl, List.prefix_rfl, findPathName_get hi⟩
  case h_2 =>
    apply yields_bind
    intro names hnames
    have hnames := dynArrayExtend_eq _ _ _ hnames
    subst hnames
    exact yields_pure ⟨rfl, List.prefix_append _ _, by simp⟩

/-- A longer table of names leaves the names of the paths alone. -/
theorem deviceContents_prefix {names names' : List String} (h : names <+: names') {d : Device}
    (hd : ∀ p ∈ (deviceContents names d).2, p.1.isSome = true) :
    deviceContents names' d = deviceContents names d := by
  unfold deviceContents
  congr 1
  apply List.map_congr_left
  intro p hp
  have hsome := hd _ (List.mem_map_of_mem hp)
  obtain ⟨name, hname⟩ := Option.isSome_iff_exists.mp hsome
  simp only [pathContents] at hname ⊢
  obtain ⟨more, rfl⟩ := h
  obtain ⟨hlt, -⟩ := List.getElem?_eq_some_iff.mp hname
  rw [List.getElem?_append_left hlt]

/-- `<path>` opens an empty path of the device under its id. -/
theorem parsePathStart_writes (st : ParseState) :
    Yields (parsePathStart st) (Writes (Contents.start st.cm.mixer .path st.attribs) st) := by
  apply yields_bind
  intro d hd
  apply yields_bind
  rintro ⟨id, st₁⟩ hst
  obtain ⟨heq, hpre, hid⟩ := addPathName_spec _ _ _ hst
  simp only at heq hpre hid
  generalize st₁.pathNames = names at heq hpre hid
  subst heq
  apply yields_bind
  intro device hdev
  apply yields_bind
  intro paths hpaths
  have hpaths := dynArrayExtend_eq _ _ _ hpaths
  subst hpaths
  apply yields_pure
  refine ⟨⟨rfl, fun _ _ => rfl, rfl, rfl, rfl, rfl⟩, ?_⟩
  intro hlabel
  have hsame : st.cm.devices.map (deviceContents names) =
      st.cm.devices.map (deviceContents st.pathNames) := by
    apply List.map_congr_left
    intro x hx
    exact deviceContents_prefix hpre (hlabel _ (List.mem_map_of_mem hx))
  have hmod : (st.cm.devices.modify d fun x => { x with paths := device.paths ++ [⟨id, []⟩] }).map
      (deviceContents names) = (st.contents.devices).modify d fun x =>
        (x.1, x.2 ++ [(some ((st.attribs .name).getD ""), [])]) := by
    rw [ParseState.contents, ← hsame]
    apply map_modify
    intro x hx
    cases (deref_ok hdev).symm.trans hx
    simp [deviceContents, pathContents, hid]
  have hlen : (st.contents.devices[d]?).map (fun x => PathRef.device d x.2.length) =
      some (.device d device.paths.length) := by
    simp [ParseState.contents, deref_ok hdev, deviceContents]
  simp only [Contents.start, Contents.addPath]
  have hcur : st.contents.device = some d := deref_ok hd
  rw [hcur]
  dsimp only
  rw [hlen, ← hmod, ← hcur]
  rfl

/-- `<usecase>` opens an empty use case of the stream. -/
theorem parseUsecaseStart_writes (st : ParseState) :
    Yields (parseUsecaseStart st) (Writes (Contents.start st.cm.mixer .usecase st.attribs) st) := by
  apply yields_bind
  intro i hi
  apply yields_bind
  intro stream hstream
  apply yields_bind
  intro usecases husecases
  have husecases := dynArrayExtend_eq _ _ _ husecases
  subst husecases
  apply yields_pure
  refine ⟨⟨rfl, fun _ _ => rfl, rfl, rfl, rfl, rfl⟩, ?_⟩
  intro _
  have hmod : (st.cm.streams.modify i fun x => { x with
      usecases := stream.usecases ++ [⟨(st.attribs .name).getD "", []⟩] }).map streamContents =
      (st.contents.streams).modify i fun x => (x.1, x.2 ++ [((st.attribs .name).getD "", [])]) := by
    apply map_modify
    intro x hx
    cases (deref_ok hstream).symm.trans hx
    simp [streamContents, usecaseContents]
  have hlen : (st.contents.streams[i]?).map (fun x => (i, x.2.length)) =
      some (i, stream.usecases.length) := by
    simp [ParseState.contents, deref_ok hstream, streamContents]
  simp only [Contents.start, Contents.addUsecase]
  have hcur : st.contents.stream = some i := deref_ok hi
  rw [hcur]
  dsimp only
  rw [hlen, ← hmod, ← hcur]
  rfl

/-- `<case>` opens an empty case of the use case being read. -/
theorem parseCaseStart_writes (st : ParseState) :
    Yields (parseCaseStart st) (Writes (Contents.start st.cm.mixer .case st.attribs) st) := by
  apply yields_bind
  rintro ⟨i, u⟩ hi
  apply yields_bind
  intro stream hstream
  apply yields_bind
  intro usecase husecase
  apply yields_bind
  intro cases hcases
  have hcases := dynArrayExtend_eq _ _ _ hcases
  subst hcases
  apply yields_pure
  refine ⟨⟨rfl, fun _ _ => rfl, rfl, rfl, rfl, rfl⟩, ?_⟩
  intro _
  have hmod : (st.cm.streams.modify i fun x => { x with
      usecases := x.usecases.modify u fun y => { y with
        cases := usecase.cases ++ [⟨(st.attribs .name).getD "", []⟩] } }).map streamContents =
      (st.contents.streams).modify i fun x =>
        (x.1, x.2.modify u fun y => (y.1, y.2 ++ [((st.attribs .name).getD "", [])])) := by
    apply map_modify
    intro x hx
    cases (deref_ok hstream).symm.trans hx
    simp only [streamContents, Prod.mk.injEq, true_and]
    apply map_modify
    intro y hy
    cases (deref_ok husecase).symm.trans hy
    simp [usecaseContents, caseContents]
  have hlen : ((st.contents.streams[i]?).bind fun x => x.2[u]?).map (fun y => (i, u, y.2.length)) =
      some (i, u, usecase.cases.length) := by
    simp [ParseState.contents, deref_ok hstream, streamContents, deref_ok husecase, usecaseContents]
  simp only [Contents.start, Contents.addCase]
  have hcur : st.contents.usecase = some (i, u) := deref_ok hi
  rw [hcur]
  dsimp only
  rw [hlen, ← hmod, ← hcur]
  rfl

/-- A change of streams that keeps names and usecases is not seen. -/
theorem modifyStream_writes (st : ParseState) (i : Nat) (f : Stream → Stream)
    (hf : ∀ s, (f s).name = s.name ∧ (f s).usecases = s.usecases) :
    Writes id st { st with cm := modifyStream st.cm i f } := by
  refine ⟨⟨rfl, fun _ _ => rfl, rfl, rfl, rfl, rfl⟩, ?_⟩
  intro _
  have hsame : (st.cm.streams.modify i f).map streamContents = st.cm.streams.map streamContents := by
    apply map_modify_same
    intro s
    simp only [streamContents, (hf s).1, (hf s).2]
  simp only [ParseState.contents, modifyStream, hsame, id]

/-- `<enable>` and `<disable>` refer to paths and add no control. -/
theorem parseEnableDisableStart_writes (isEnable : Bool) (st : ParseState) :
    Yields (parseEnableDisableStart isEnable st) (Writes id st) := by
  unfold parseEnableDisableStart
  split
  · exact yields_throw _
  · apply yields_bind
    intro i _
    apply yields_pure
    apply modifyStream_writes
    intro s
    cases isEnable <;> exact ⟨rfl, rfl⟩

theorem parseStreamCtlStart_writes (st : ParseState) :
    Yields (parseStreamCtlStart st) (Writes id st) := by
  unfold parseStreamCtlStart
  split
  · exact yields_throw _
  · apply yields_bind
    intro ctl _
    apply yields_bind
    intro idxVal _
    apply yields_bind
    intro i _
    dsimp only
    split
    · exact yields_throw _
    · apply yields_bind
      intro min _
      apply yields_bind
      intro max _
      apply yields_pure
      apply modifyStream_writes
      intro s
      split <;> exact ⟨rfl, rfl⟩

/-- A `<stream>` begins with no use case. -/
theorem parseStreamStart_writes (st : ParseState) :
    Yields (parseStreamStart st) (Writes (Contents.start st.cm.mixer .stream st.attribs) st) := by
  unfold parseStreamStart
  dsimp only
  split
  · exact yields_throw _
  · apply yields_bind
    intro _ _
    apply yields_bind
    intro out _
    apply yields_bind
    rintro ⟨type, numbered⟩ _
    iterate 6
      apply yields_bind
      intro _ _
    apply yields_pure
    refine ⟨⟨rfl, fun _ _ => rfl, rfl, rfl, rfl, rfl⟩, ?_⟩
    intro _
    simp [ParseState.contents, Contents.start, streamContents, newStream]

/-- The masks of supported devices have no say in which controls exist. -/
theorem supportDevice_mixer (cm : ConfigMgr) (t : BitVec 32) :
    Yields (supportDevice cm t) fun cm' => cm'.mixer = cm.mixer := by
  unfold supportDevice
  split
  · exact yields_pure rfl
  · split <;> split
    · exact yields_throw _
    · exact yields_pure rfl
    · exact yields_throw _
    · exact yields_pure rfl

/-- A `<device>` begins with no path. -/
theorem parseDeviceStart_writes (st : ParseState) :
    Yields (parseDeviceStart st) (Writes (Contents.start st.cm.mixer .device st.attribs) st) := by
  unfold parseDeviceStart
  split
  · exact yields_throw _
  case h_2 t ht =>
    apply yields_bind
    intro cm hcm
    obtain ⟨hdev, hstr, -⟩ := supportDevice_spec _ _ _ hcm
    have hmixer : cm.mixer = st.cm.mixer := supportDevice_mixer _ _ _ hcm
    apply yields_bind
    intro devices hdevices
    have hdevices := dynArrayExtend_eq _ _ _ hdevices
    subst hdevices
    apply yields_pure
    refine ⟨⟨rfl, fun _ _ => rfl, rfl, hmixer, rfl, rfl⟩, ?_⟩
    intro _
    simp [ParseState.contents, Contents.start, deviceContents, hdev, hstr, ht]

theorem parsePathEnd_writes (st : ParseState) :
    Yields (parsePathEnd st) (Writes (Contents.finish .path) st) :=
  yields_bind fun _ _ => yields_pure ⟨⟨rfl, fun _ _ => rfl, rfl, rfl, rfl, rfl⟩, fun _ => rfl⟩

theorem parseCaseEnd_writes (st : ParseState) :
    Yields (parseCaseEnd st) (Writes (Contents.finish .case) st) :=
  yields_bind fun _ _ => yields_pure ⟨⟨rfl, fun _ _ => rfl, rfl, rfl, rfl, rfl⟩, fun _ => rfl⟩

theorem deref_writes {α : Type} (st : ParseState) (o : Option α) :
    Yields (do let _ ← deref o; return st) (Writes id st) :=
  yields_bind fun _ _ => yields_pure (writes_id st)

/-- The elements that change neither the mixer nor what the root takes, and redirect nowhere. -/
def Elem.plain (e : Elem) : Bool := e ≠ .mixer && e ≠ .audiohal && e ≠ .codecProbe

/-- What may stand inside an element without codec probing has none inside either. -/
theorem plain_subelem {e : Elem} (h : e.plain = true) :
    ∀ e' ∈ (elemTable e).validSubelem, e'.plain = true := by
  cases e <;> first | decide | cases h

/-- All start handlers write what the grammar says their element stands for. -/
theorem startFn_writes (env : Env) {e : Elem} (he : e.plain = true) (st : ParseState) :
    Yields (startFn env e st) (Writes (Contents.start st.cm.mixer e st.attribs) st) := by
  cases e with
  | ctl => exact parseCtlStart_writes st
  | path => exact parsePathStart_writes st
  | device => exact parseDeviceStart_writes st
  | stream => exact parseStreamStart_writes st
  | enable => exact parseEnableDisableStart_writes true st
  | disable => exact parseEnableDisableStart_writes false st
  | case => exact parseCaseStart_writes st
  | usecase => exact parseUsecaseStart_writes st
  | streamCtl => exact parseStreamCtlStart_writes st
  | init => exact parseInitStart_writes st
  | codecCase => exact parseCodecCaseStart_writes st
  | mixer => cases he
  | audiohal => cases he
  | codecProbe => cases he

/-- At the end of an element only the position moves, never what was collected. -/
theorem endFn_writes (env : Env) {e : Elem} (he : e.plain = true) (st : ParseState) :
    Yields (endFn env e st) (Writes (Contents.finish e) st) := by
  cases e with
  | path => exact parsePathEnd_writes st
  | case => exact parseCaseEnd_writes st
  | device => exact deref_writes st _
  | stream => exact deref_writes st _
  | usecase => exact deref_writes st _
  | ctl => exact yields_pure (writes_id st)
  | enable => exact yields_pure (writes_id st)
  | disable => exact yields_pure (writes_id st)
  | streamCtl => exact yields_pure (writes_id st)
  | init => exact yields_pure (writes_id st)
  | codecCase => exact yields_pure (writes_id st)
  | mixer => cases he
  | audiohal => cases he
  | codecProbe => cases he

end Handlers

section Labels

theorem forall_mem_modify {α : Type} {P : α → Prop} {l : List α} {i : Nat} {f : α → α}
    (h : ∀ x ∈ l, P x) (hf : ∀ x, P x → P (f x)) : ∀ x ∈ l.modify i f, P x := by
  intro x hx
  obtain ⟨k, hk⟩ := List.mem_iff_getElem?.mp hx
  rw [List.getElem?_modify] at hk
  obtain ⟨y, hy, rfl⟩ := Option.map_eq_some_iff.mp hk
  have hP := h y (List.mem_of_getElem? hy)
  split
  · exact hf y hP
  · exact hP

/-- Opening an element labels what it adds with the names it stands under. -/
theorem Contents.Labelled.start {s : Contents} (h : s.Labelled) (mixer : Mixer) (e : Elem)
    (value : Attrib → Option String) : (s.start mixer e value).Labelled := by
  cases e with
  | ctl =>
    simp only [Contents.start, Contents.appendCtl]
    split
    · exact h
    · apply forall_mem_modify h
      intro x hx
      exact forall_mem_modify hx fun _ hp => hp
    · exact h
    · exact h
  | path =>
    simp only [Contents.start, Contents.addPath]
    split
    · exact h
    · apply forall_mem_modify h
      intro x hx p hp
      rcases List.mem_append.mp hp with hp | hp
      · exact hx p hp
      · cases List.mem_singleton.mp hp
        rfl
  | device =>
    intro d hd
    rcases List.mem_append.mp hd with hd | hd
    · exact h d hd
    · cases List.mem_singleton.mp hd
      simp
  | case =>
    simp only [Contents.start, Contents.addCase]
    split <;> exact h
  | usecase =>
    simp only [Contents.start, Contents.addUsecase]
    split <;> exact h
  | stream => exact h
  | enable => exact h
  | disable => exact h
  | streamCtl => exact h
  | init => exact h
  | mixer => exact h
  | audiohal => exact h
  | codecProbe => exact h
  | codecCase => exact h

theorem Contents.Labelled.finish {s : Contents} (h : s.Labelled) (e : Elem) :
    (s.finish e).Labelled := by
  cases e <;> exact h

mutual

/-- The induction is on the element, its children by the mutual case below. -/
theorem Contents.Labelled.effect {s : Contents} (h : s.Labelled) (mixer : Mixer) (valid : List Elem) :
    ∀ x : Xml, (x.effect mixer valid s).Labelled
  | .element name attribs children => by
    unfold Xml.effect
    split
    · exact h
    · exact (Contents.Labelled.effects (h.start _ _ _) _ _ children).finish _

theorem Contents.Labelled.effects {s : Contents} (h : s.Labelled) (mixer : Mixer) (valid : List Elem) :
    ∀ xs : List Xml, (Xml.effects mixer valid xs s).Labelled
  | [] => by
    unfold Xml.effects
    exact h
  | x :: xs => by
    unfold Xml.effects
    exact Contents.Labelled.effects (Contents.Labelled.effect h mixer valid x) mixer valid xs

end

end Labels

end TinyHal
