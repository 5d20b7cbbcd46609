import Mathlib.Data.List.TakeWhile
import Mocha.AudioDocument

/-!
# Where the controls of a document end up

The parser keeps one current path and one current case. `<init>` makes the init
path current and nothing ends it but the next `</path>`, so the controls of the
cases before that are taken for controls of `<init>`. All others end up where
the document has them.
-/
namespace TinyHal

/-- The controls inside an element, in document order. -/
def ctlsOf (mixer : Mixer) (x : Xml) : List Ctl :=
  (x.named "ctl").map fun c => ctlFrom mixer c.attrib

def pathsOf (mixer : Mixer) (device : Xml) : List (Option String × List Ctl) :=
  (device.named "path").map fun p => (some p.label, ctlsOf mixer p)

/-- The devices among the sections of a document. -/
def devicesOf (mixer : Mixer) (sections : List Xml) :
    List (BitVec 32 × List (Option String × List Ctl)) :=
  (sections.filter fun x => x.name = "device").map fun d =>
    ((parseMatchDevice d.label).getD 0#32, pathsOf mixer d)

def casesOf (ctls : Xml → List Ctl) (usecase : Xml) : List (String × List Ctl) :=
  (usecase.named "case").map fun c => (c.label, ctls c)

def usecasesOf (ctls : Xml → List Ctl) (stream : Xml) : List (String × List (String × List Ctl)) :=
  (stream.named "usecase").map fun u => (u.label, casesOf ctls u)

/-- The streams among the sections, when a case holds the controls that `ctls` says. -/
def streamsOf (ctls : Xml → List Ctl) (sections : List Xml) :
    List (Option String × List (String × List (String × List Ctl))) :=
  (sections.filter fun x => x.name = "stream").map fun s => (s.attrib .name, usecasesOf ctls s)

def initElements (sections : List Xml) : List Xml :=
  (sections.filter fun x => x.name = "mixer").flatMap fun m => m.named "init"

/-- The contents are those of the document: every control is where it stands there. -/
structure Mirrors (mixer : Mixer) (sections : List Xml) (s : Contents) : Prop where
  devices : s.devices = devicesOf mixer sections
  streams : s.streams = streamsOf (ctlsOf mixer) sections
  init : s.init = (initElements sections).flatMap (ctlsOf mixer)

/-- The `<ctl>` elements inside the cases of a stream. -/
def caseCtls (stream : Xml) : List Xml :=
  (stream.named "usecase").flatMap fun u => (u.named "case").flatMap fun c => c.named "ctl"

def Xml.hasPath (x : Xml) : Bool := x.name = "device" && !(x.named "path").isEmpty

/-- The `<ctl>` elements of cases that stand before the first `<path>`. -/
def earlyCaseCtls (sections : List Xml) : List Xml :=
  ((sections.takeWhile fun x => !x.hasPath).filter fun x => x.name = "stream").flatMap caseCtls

section Effects

variable {mixer : Mixer} {valid : List Elem}

theorem modify_last {α : Type} (l : List α) (x : α) (f : α → α) :
    (l ++ [x]).modify l.length f = l ++ [f x] := by
  induction l with
  | nil => rfl
  | cons y l ih => simpa using ih

/-- A known child opens its element, then its children have their effect. -/
theorem effect_picked {x : Xml} {e : Elem} (h : pick valid x.name = some e) (s : Contents) :
    x.effect mixer valid s =
      (Xml.effects mixer (elemTable e).validSubelem x.children (s.start mixer e x.attrib)).finish e := by
  obtain ⟨name, attribs, children⟩ := x
  rw [Xml.effect, show pick valid name = some e from h]
  rfl

/-- An unknown one has none. -/
theorem effect_ignored {x : Xml} (h : pick valid x.name = none) (s : Contents) :
    x.effect mixer valid s = s := by
  obtain ⟨name, attribs, children⟩ := x
  rw [Xml.effect, show pick valid name = none from h]

theorem effects_append (xs ys : List Xml) (s : Contents) :
    Xml.effects mixer valid (xs ++ ys) s =
      Xml.effects mixer valid ys (Xml.effects mixer valid xs s) := by
  induction xs generalizing s with
  | nil => rw [List.nil_append, Xml.effects]
  | cons x xs ih => rw [List.cons_append, Xml.effects, Xml.effects, ih]

/-- A parent with one kind of child: a child is picked by that name, or not at all. -/
theorem pick_single {e : Elem} {name : String} :
    pick [e] name = if (elemTable e).name = name then some e else none := by
  cases h : pick [e] name with
  | none =>
    rw [if_neg]
    intro hname
    have hnone := List.find?_eq_none.mp h e (by cases e <;> decide)
    simp [hname] at hnone
  | some e' =>
    obtain ⟨hmem, hname⟩ := pick_mem h
    cases List.mem_singleton.mp hmem
    rw [if_pos hname]

theorem foldl_appendCtl_init {s : Contents} (h : s.path = some .init) (ctls : List Ctl) :
    ctls.foldl Contents.appendCtl s = { s with init := s.init ++ ctls } := by
  induction ctls generalizing s with
  | nil => simp
  | cons c ctls ih =>
    have hone : s.appendCtl c = { s with init := s.init ++ [c] } := by
      simp only [Contents.appendCtl, h]
    rw [List.foldl_cons, hone, ih (by exact h)]
    simp

/-- Controls below a path are collected at the last path of the last device. -/
theorem foldl_appendCtl_path {s : Contents} {ds : List (BitVec 32 × List (Option String × List Ctl))}
    {ps : List (Option String × List Ctl)} {t : BitVec 32} {n : Option String} {old : List Ctl}
    (hpath : s.path = some (.device ds.length ps.length))
    (hdevices : s.devices = ds ++ [(t, ps ++ [(n, old)])]) (ctls : List Ctl) :
    ctls.foldl Contents.appendCtl s =
      { s with devices := ds ++ [(t, ps ++ [(n, old ++ ctls)])] } := by
  induction ctls generalizing s old with
  | nil => simp [← hdevices]
  | cons c ctls ih =>
    have hone : s.appendCtl c = { s with devices := ds ++ [(t, ps ++ [(n, old ++ [c])])] } := by
      simp only [Contents.appendCtl, hpath, hdevices, modify_last]
    rw [List.foldl_cons, hone, ih (by exact hpath) (by exact rfl)]
    simp

/-- Controls below a case are collected at the innermost case. -/
theorem foldl_appendCtl_case {s : Contents}
    {ss : List (Option String × List (String × List (String × List Ctl)))}
    {us : List (String × List (String × List Ctl))} {cs : List (String × List Ctl)}
    {n : Option String} {u c : String} {old : List Ctl} (hpath : s.path = none)
    (hcase : s.scase = some (ss.length, us.length, cs.length))
    (hstreams : s.streams = ss ++ [(n, us ++ [(u, cs ++ [(c, old)])])]) (ctls : List Ctl) :
    ctls.foldl Contents.appendCtl s =
      { s with streams := ss ++ [(n, us ++ [(u, cs ++ [(c, old ++ ctls)])])] } := by
  induction ctls generalizing s old with
  | nil => simp [← hstreams]
  | cons ctl ctls ih =>
    have hone : s.appendCtl ctl =
        { s with streams := ss ++ [(n, us ++ [(u, cs ++ [(c, old ++ [ctl])])])] } := by
      simp only [Contents.appendCtl, hpath, hcase, hstreams, modify_last]
    rw [List.foldl_cons, hone, ih (by exact hpath) (by exact hcase) (by exact rfl)]
    simp

/-- The children of a path, a case or `<init>` are appended one after the other. -/
theorem ctls_effects (xs : List Xml) (s : Contents) :
    Xml.effects mixer [.ctl] xs s =
      ((xs.filter fun x => x.name = "ctl").map fun c => ctlFrom mixer c.attrib).foldl
        Contents.appendCtl s := by
  induction xs generalizing s with
  | nil => rw [Xml.effects]; rfl
  | cons x xs ih =>
    rw [Xml.effects, ih]
    by_cases hx : x.name = "ctl"
    · have hpick : pick [.ctl] x.name = some .ctl := by
        rw [pick_single, hx]
        rfl
      rw [effect_picked hpick, show (elemTable .ctl).validSubelem = [] from rfl, effects_nil,
        List.filter_cons_of_pos (by simpa using hx)]
      rfl
    · have hpick : pick [.ctl] x.name = none := by
        rw [pick_single, if_neg]
        exact fun h => hx h.symm
      rw [effect_ignored hpick, List.filter_cons_of_neg (by simpa using hx)]

theorem path_effect {s : Contents} {ds : List (BitVec 32 × List (Option String × List Ctl))}
    {ps : List (Option String × List Ctl)} {t : BitVec 32} (hdevice : s.device = some ds.length)
    (hdevices : s.devices = ds ++ [(t, ps)]) {x : Xml} (hx : x.name = "path") :
    x.effect mixer [.path] s =
      { s with path := none, devices := ds ++ [(t, ps ++ [(some x.label, ctlsOf mixer x)])] } := by
  have hpick : pick [.path] x.name = some .path := by
    rw [pick_single, hx]
    rfl
  have hstart : s.start mixer .path x.attrib =
      { s with
        devices := ds ++ [(t, ps ++ [(some x.label, [])])]
        path := some (.device ds.length ps.length) } := by
    simp [Contents.start, Contents.addPath, hdevice, hdevices, modify_last, Xml.label]
  rw [effect_picked hpick, hstart, show (elemTable .path).validSubelem = [.ctl] from rfl, ctls_effects,
    foldl_appendCtl_path (by exact rfl) (by exact rfl)]
  rfl

theorem paths_effects {s : Contents} {ds : List (BitVec 32 × List (Option String × List Ctl))}
    {ps : List (Option String × List Ctl)} {t : BitVec 32} (hdevice : s.device = some ds.length)
    (hdevices : s.devices = ds ++ [(t, ps)]) (xs : List Xml) :
    Xml.effects mixer [.path] xs s =
      { s with
        path := if (xs.filter fun x => x.name = "path").isEmpty then s.path else none
        devices := ds ++ [(t, ps ++
          (xs.filter fun x => x.name = "path").map fun p => (some p.label, ctlsOf mixer p))] } := by
  induction xs generalizing s ps with
  | nil =>
    rw [Xml.effects]
    simp [← hdevices]
  | cons x xs ih =>
    rw [Xml.effects]
    by_cases hx : x.name = "path"
    · rw [path_effect hdevice hdevices hx, ih (by exact hdevice) (by exact rfl),
        List.filter_cons_of_pos (by simpa using hx)]
      simp
    · have hpick : pick [.path] x.name = none := by
        rw [pick_single, if_neg]
        exact fun h => hx h.symm
      rw [effect_ignored hpick, ih hdevice hdevices, List.filter_cons_of_neg (by simpa using hx)]

/-- A device with a path clears the current path, a device without leaves it. -/
theorem device_effect {x : Xml} (hx : x.name = "device") (s : Contents) :
    x.effect mixer [.device, .stream] s =
      { s with
        device := some s.devices.length
        path := if (x.named "path").isEmpty then s.path else none
        devices := s.devices ++ [((parseMatchDevice x.label).getD 0#32, pathsOf mixer x)] } := by
  have hpick : pick [.device, .stream] x.name = some .device := by
    rw [hx]
    decide
  rw [effect_picked hpick, show (elemTable .device).validSubelem = [.path] from rfl,
    @paths_effects _ _ s.devices [] _ (by exact rfl) (by exact rfl)]
  rfl

/-- What a case keeps of its controls, and what goes to the init path, when that is the
current path or there is none. -/
def kept (stray : Bool) (ctls : List Ctl) : List Ctl := if stray then [] else ctls

def strayed (stray : Bool) (ctls : List Ctl) : List Ctl := if stray then ctls else []

theorem strayed_append (stray : Bool) (as bs : List Ctl) :
    strayed stray (as ++ bs) = strayed stray as ++ strayed stray bs := by
  cases stray <;> rfl

theorem strayed_nil (stray : Bool) : strayed stray [] = [] := by
  cases stray <;> rfl

/-- The current path where `stray` says whether it is the init path. -/
def strayPath (stray : Bool) : Option PathRef := if stray then some .init else none

theorem case_effect {s : Contents} {stray : Bool}
    {ss : List (Option String × List (String × List (String × List Ctl)))}
    {us : List (String × List (String × List Ctl))} {cs : List (String × List Ctl)}
    {n : Option String} {u : String} (hpath : s.path = strayPath stray)
    (husecase : s.usecase = some (ss.length, us.length))
    (hstreams : s.streams = ss ++ [(n, us ++ [(u, cs)])]) {x : Xml} (hx : x.name = "case") :
    x.effect mixer [.case] s =
      { s with
        scase := none
        streams := ss ++ [(n, us ++ [(u, cs ++ [(x.label, kept stray (ctlsOf mixer x))])])]
        init := s.init ++ strayed stray (ctlsOf mixer x) } := by
  have hpick : pick [.case] x.name = some .case := by
    rw [pick_single, hx]
    rfl
  have hstart : s.start mixer .case x.attrib =
      { s with
        streams := ss ++ [(n, us ++ [(u, cs ++ [(x.label, [])])])]
        scase := some (ss.length, us.length, cs.length) } := by
    simp [Contents.start, Contents.addCase, husecase, hstreams, modify_last, Xml.label]
  rw [effect_picked hpick, hstart, show (elemTable .case).validSubelem = [.ctl] from rfl, ctls_effects]
  cases stray with
  | true =>
    rw [foldl_appendCtl_init (by exact hpath)]
    rfl
  | false =>
    rw [foldl_appendCtl_case (by exact hpath) (by exact rfl) (by exact rfl)]
    simp [Contents.finish, kept, strayed, ctlsOf, Xml.named]

theorem cases_effects {s : Contents} {stray : Bool}
    {ss : List (Option String × List (String × List (String × List Ctl)))}
    {us : List (String × List (String × List Ctl))} {cs : List (String × List Ctl)}
    {n : Option String} {u : String} (hpath : s.path = strayPath stray) (hcase : s.scase = none)
    (husecase : s.usecase = some (ss.length, us.length))
    (hstreams : s.streams = ss ++ [(n, us ++ [(u, cs)])]) (xs : List Xml) :
    Xml.effects mixer [.case] xs s =
      { s with
        streams := ss ++ [(n, us ++ [(u, cs ++ (xs.filter fun x => x.name = "case").map fun c =>
          (c.label, kept stray (ctlsOf mixer c)))])]
        init := s.init ++
          strayed stray ((xs.filter fun x => x.name = "case").flatMap (ctlsOf mixer)) } := by
  induction xs generalizing s cs with
  | nil =>
    rw [Xml.effects]
    simp [← hstreams, strayed_nil]
  | cons x xs ih =>
    rw [Xml.effects]
    by_cases hx : x.name = "case"
    · rw [case_effect hpath husecase hstreams hx, ih (by exact hpath) (by exact rfl) (by exact husecase)
        (by exact rfl), List.filter_cons_of_pos (by simpa using hx)]
      simp [hcase, strayed_append]
    · have hpick : pick [.case] x.name = none := by
        rw [pick_single, if_neg]
        exact fun h => hx h.symm
      rw [effect_ignored hpick, ih hpath hcase husecase hstreams,
        List.filter_cons_of_neg (by simpa using hx)]

theorem usecase_effect {s : Contents} {stray : Bool}
    {ss : List (Option String × List (String × List (String × List Ctl)))}
    {us : List (String × List (String × List Ctl))} {n : Option String}
    (hpath : s.path = strayPath stray) (hcase : s.scase = none) (hstream : s.stream = some ss.length)
    (hstreams : s.streams = ss ++ [(n, us)]) {x : Xml} (hx : x.name = "usecase") :
    x.effect mixer [.streamCtl, .enable, .disable, .usecase] s =
      { s with
        usecase := some (ss.length, us.length)
        streams := ss ++ [(n, us ++ [(x.label, casesOf (fun c => kept stray (ctlsOf mixer c)) x)])]
        init := s.init ++ strayed stray ((x.named "case").flatMap (ctlsOf mixer)) } := by
  have hpick : pick [.streamCtl, .enable, .disable, .usecase] x.name = some .usecase := by
    rw [hx]
    decide
  have hstart : s.start mixer .usecase x.attrib =
      { s with
        streams := ss ++ [(n, us ++ [(x.label, [])])]
        usecase := some (ss.length, us.length) } := by
    simp [Contents.start, Contents.addUsecase, hstream, hstreams, modify_last, Xml.label]
  rw [effect_picked hpick, hstart, show (elemTable .usecase).validSubelem = [.case] from rfl,
    cases_effects (by exact hpath) (by exact hcase) (by exact rfl) (by exact rfl)]
  rfl

/-- The other children of a stream hold no controls of a path or a case. -/
theorem streamPart_effect {x : Xml} (hx : x.name ≠ "usecase") (s : Contents) :
    x.effect mixer [.streamCtl, .enable, .disable, .usecase] s = s := by
  cases hpick : pick [.streamCtl, .enable, .disable, .usecase] x.name with
  | none => exact effect_ignored hpick s
  | some e =>
    obtain ⟨hmem, hname⟩ := pick_mem hpick
    rw [effect_picked hpick]
    simp only [List.mem_cons, List.not_mem_nil, or_false] at hmem
    obtain rfl | rfl | rfl | rfl := hmem
    · rw [show (elemTable .streamCtl).validSubelem = [] from rfl, effects_nil]
      rfl
    · rw [show (elemTable .enable).validSubelem = [] from rfl, effects_nil]
      rfl
    · rw [show (elemTable .disable).validSubelem = [] from rfl, effects_nil]
      rfl
    · exact absurd hname.symm hx

theorem usecases_effects {s : Contents} {stray : Bool}
    {ss : List (Option String × List (String × List (String × List Ctl)))}
    {us : List (String × List (String × List Ctl))} {n : Option String}
    (hpath : s.path = strayPath stray) (hcase : s.scase = none) (hstream : s.stream = some ss.length)
    (hstreams : s.streams = ss ++ [(n, us)]) (xs : List Xml) :
    ∃ last, Xml.effects mixer [.streamCtl, .enable, .disable, .usecase] xs s =
      { s with
        usecase := last
        streams := ss ++ [(n, us ++ (xs.filter fun x => x.name = "usecase").map fun u =>
          (u.label, casesOf (fun c => kept stray (ctlsOf mixer c)) u))]
        init := s.init ++ strayed stray ((xs.filter fun x => x.name = "usecase").flatMap fun u =>
          (u.named "case").flatMap (ctlsOf mixer)) } := by
  induction xs generalizing s us with
  | nil =>
    refine ⟨s.usecase, ?_⟩
    rw [Xml.effects]
    simp [← hstreams, strayed_nil]
  | cons x xs ih =>
    rw [Xml.effects]
    by_cases hx : x.name = "usecase"
    · rw [usecase_effect hpath hcase hstream hstreams hx]
      obtain ⟨last, hlast⟩ := ih (s := { s with
          usecase := some (ss.length, us.length)
          streams := ss ++ [(n, us ++ [(x.label, casesOf (fun c => kept stray (ctlsOf mixer c)) x)])]
          init := s.init ++ strayed stray ((x.named "case").flatMap (ctlsOf mixer)) })
        hpath hcase hstream rfl
      refine ⟨last, ?_⟩
      rw [hlast, List.filter_cons_of_pos (by simpa using hx)]
      simp [strayed_append]
    · rw [streamPart_effect hx, List.filter_cons_of_neg (by simpa using hx)]
      exact ih hpath hcase hstream hstreams

theorem stream_effect {s : Contents} {stray : Bool} (hpath : s.path = strayPath stray)
    (hcase : s.scase = none) {x : Xml} (hx : x.name = "stream") :
    ∃ last, x.effect mixer [.device, .stream] s =
      { s with
        stream := some s.streams.length
        usecase := last
        streams := s.streams ++
          [(x.attrib .name, usecasesOf (fun c => kept stray (ctlsOf mixer c)) x)]
        init := s.init ++ strayed stray ((caseCtls x).map fun c => ctlFrom mixer c.attrib) } := by
  have hpick : pick [.device, .stream] x.name = some .stream := by
    rw [hx]
    decide
  have hctls : (caseCtls x).map (fun c => ctlFrom mixer c.attrib) =
      (x.named "usecase").flatMap fun u => (u.named "case").flatMap (ctlsOf mixer) := by
    simp only [caseCtls, List.map_flatMap]
    rfl
  obtain ⟨last, hlast⟩ := @usecases_effects mixer (s.start mixer .stream x.attrib) stray s.streams []
    (x.attrib .name) hpath hcase rfl rfl x.children
  refine ⟨last, ?_⟩
  rw [effect_picked hpick, show (elemTable .stream).validSubelem =
    [.streamCtl, .enable, .disable, .usecase] from rfl, hlast, hctls]
  rfl

/-- What sections add to the contents while the current path stays what it is. -/
structure Gains (mixer : Mixer) (stray : Bool) (xs : List Xml) (s s' : Contents) : Prop where
  path : s'.path = strayPath stray
  scase : s'.scase = none
  devices : s'.devices = s.devices ++ devicesOf mixer xs
  streams : s'.streams = s.streams ++ streamsOf (fun c => kept stray (ctlsOf mixer c)) xs
  init : s'.init = s.init ++ strayed stray
    (((xs.filter fun x => x.name = "stream").flatMap caseCtls).map fun c => ctlFrom mixer c.attrib)

/-- The sections one after the other. -/
theorem Gains.cons {stray : Bool} {x : Xml} {xs : List Xml} {s s₁ s₂ : Contents}
    (hx : Gains mixer stray [x] s s₁) (hxs : Gains mixer stray xs s₁ s₂) :
    Gains mixer stray (x :: xs) s s₂ where
  path := hxs.path
  scase := hxs.scase
  devices := by
    rw [hxs.devices, hx.devices, List.append_assoc]
    simp only [devicesOf, ← List.map_append, ← List.filter_append, List.singleton_append]
  streams := by
    rw [hxs.streams, hx.streams, List.append_assoc]
    simp only [streamsOf, ← List.map_append, ← List.filter_append, List.singleton_append]
  init := by
    rw [hxs.init, hx.init, List.append_assoc, ← strayed_append]
    simp only [← List.map_append, ← List.flatMap_append, ← List.filter_append, List.singleton_append]

theorem section_gains {stray : Bool} {x : Xml} {s : Contents}
    (hstray : stray = true → x.hasPath = false) (hpath : s.path = strayPath stray)
    (hcase : s.scase = none) (hname : x.name = "device" ∨ x.name = "stream") :
    Gains mixer stray [x] s (x.effect mixer [.device, .stream] s) := by
  rcases hname with hname | hname
  · rw [device_effect hname]
    have hkeep : (if (x.named "path").isEmpty then s.path else none) = strayPath stray := by
      cases stray with
      | true =>
        have hempty := hstray rfl
        simp only [Xml.hasPath, hname, decide_true, Bool.true_and, Bool.not_eq_false'] at hempty
        rw [hempty, if_pos rfl, hpath]
      | false =>
        rw [hpath]
        split <;> rfl
    exact ⟨hkeep, hcase, by simp [devicesOf, hname], by simp [streamsOf, hname],
      by simp [hname, strayed_nil]⟩
  · obtain ⟨last, heq⟩ := stream_effect hpath hcase hname
    rw [heq]
    exact ⟨hpath, hcase, by simp [devicesOf, hname], by simp [streamsOf, hname], by simp [hname]⟩

theorem sections_gain {stray : Bool} (xs : List Xml) {s : Contents}
    (hstray : stray = true → ∀ x ∈ xs, x.hasPath = false) (hpath : s.path = strayPath stray)
    (hcase : s.scase = none) (hnames : ∀ x ∈ xs, x.name = "device" ∨ x.name = "stream") :
    Gains mixer stray xs s (Xml.effects mixer [.device, .stream] xs s) := by
  induction xs generalizing s with
  | nil =>
    rw [Xml.effects]
    exact ⟨hpath, hcase, by simp [devicesOf], by simp [streamsOf], by simp [strayed_nil]⟩
  | cons x xs ih =>
    rw [Xml.effects]
    have hone : Gains mixer stray [x] s (x.effect mixer [.device, .stream] s) :=
      section_gains (fun h => hstray h x (List.mem_cons_self ..)) hpath hcase
        (hnames x (List.mem_cons_self ..))
    exact hone.cons (ih (fun h y hy => hstray h y (List.mem_cons_of_mem _ hy)) hone.path hone.scase
      fun y hy => hnames y (List.mem_cons_of_mem _ hy))

/-- The `<init>` elements are collected in one list. -/
theorem inits_effects (xs : List Xml) (s : Contents) :
    Xml.effects mixer [.init] xs s =
      { s with
        path := if (xs.filter fun x => x.name = "init").isEmpty then s.path else some .init
        init := s.init ++ (xs.filter fun x => x.name = "init").flatMap (ctlsOf mixer) } := by
  induction xs generalizing s with
  | nil =>
    rw [Xml.effects]
    simp
  | cons x xs ih =>
    rw [Xml.effects]
    by_cases hx : x.name = "init"
    · have hpick : pick [.init] x.name = some .init := by
        rw [pick_single, hx]
        rfl
      rw [effect_picked hpick, show (elemTable .init).validSubelem = [.ctl] from rfl, ctls_effects,
        foldl_appendCtl_init (by exact rfl), ih, List.filter_cons_of_pos (by simpa using hx)]
      simp [Contents.finish, Contents.start, ctlsOf, Xml.named]
    · have hpick : pick [.init] x.name = none := by
        rw [pick_single, if_neg]
        exact fun h => hx h.symm
      rw [effect_ignored hpick, ih, List.filter_cons_of_neg (by simpa using hx)]

end Effects

/-- A new manager. -/
def blank : Contents := ⟨none, none, none, none, none, [], [], []⟩

section Mirror

variable {mixer : Mixer}

theorem streamsOf_kept (sections : List Xml) :
    streamsOf (fun c => kept false (ctlsOf mixer c)) sections = streamsOf (ctlsOf mixer) sections := rfl

/-- With the first path the controls of the cases go where they belong. -/
theorem late_sections {xs : List Xml} {s : Contents} (hhead : ∀ x ∈ xs.head?, x.hasPath = true)
    (hcase : s.scase = none) (hnames : ∀ x ∈ xs, x.name = "device" ∨ x.name = "stream") :
    (Xml.effects mixer [.device, .stream] xs s).devices = s.devices ++ devicesOf mixer xs ∧
      (Xml.effects mixer [.device, .stream] xs s).streams =
        s.streams ++ streamsOf (ctlsOf mixer) xs ∧
      (Xml.effects mixer [.device, .stream] xs s).init = s.init := by
  cases xs with
  | nil =>
    rw [Xml.effects]
    simp [devicesOf, streamsOf]
  | cons x xs =>
    have hpath := hhead x rfl
    simp only [Xml.hasPath, Bool.and_eq_true, decide_eq_true_eq, Bool.not_eq_true'] at hpath
    obtain ⟨hx, hpaths⟩ := hpath
    rw [Xml.effects, device_effect hx, hpaths, if_neg Bool.false_ne_true]
    have hgain := @sections_gain mixer false xs
      { s with
        device := some s.devices.length
        path := none
        devices := s.devices ++ [((parseMatchDevice x.label).getD 0#32, pathsOf mixer x)] }
      (fun h => by cases h) rfl hcase fun y hy => hnames y (List.mem_cons_of_mem _ hy)
    refine ⟨?_, ?_, ?_⟩
    · rw [hgain.devices]
      simp [devicesOf, hx]
    · rw [hgain.streams, streamsOf_kept]
      simp [streamsOf, hx]
    · rw [hgain.init]
      simp [strayed]

/-- Below `<mixer>` there are only devices and streams besides `<init>`. -/
theorem mixer_only {x : Xml} {xs : List Xml} (hx : x.name = "mixer")
    (hnames : ∀ y ∈ xs, y.name = "device" ∨ y.name = "stream") :
    initElements (x :: xs) = x.named "init" ∧ earlyCaseCtls (x :: xs) = earlyCaseCtls xs ∧
      devicesOf mixer (x :: xs) = devicesOf mixer xs ∧
      ∀ ctls : Xml → List Ctl, streamsOf ctls (x :: xs) = streamsOf ctls xs := by
  have hnone : xs.filter (fun y => y.name = "mixer") = [] := by
    apply List.filter_eq_nil_iff.mpr
    intro y hy
    rcases hnames y hy with h | h <;> simp [h]
  refine ⟨?_, ?_, ?_, ?_⟩
  · simp [initElements, hx, hnone]
  · simp [earlyCaseCtls, Xml.hasPath, hx]
  · simp [devicesOf, hx]
  · intro ctls
    simp [streamsOf, hx]

/-- No control in a case before the first path: what the cases keep is what they have. -/
theorem early_streams {xs : List Xml} (h : (xs.filter fun x => x.name = "stream").flatMap caseCtls = []) :
    streamsOf (fun c => kept true (ctlsOf mixer c)) xs = streamsOf (ctlsOf mixer) xs := by
  apply List.map_congr_left
  intro s hs
  have hnone := List.flatMap_eq_nil_iff.mp h s hs
  have huse : usecasesOf (fun c => kept true (ctlsOf mixer c)) s = usecasesOf (ctlsOf mixer) s := by
    apply List.map_congr_left
    intro u hu
    have hcases : casesOf (fun c => kept true (ctlsOf mixer c)) u = casesOf (ctlsOf mixer) u := by
      apply List.map_congr_left
      intro c hc
      have hctl : c.named "ctl" = [] :=
        List.flatMap_eq_nil_iff.mp (List.flatMap_eq_nil_iff.mp hnone u hu) c hc
      simp [kept, ctlsOf, hctl]
    rw [hcases]
  rw [huse]

/-- The sections of a document with an `<init>`: the early controls of cases stray. -/
theorem init_sections {xs : List Xml} {s : Contents} (hpath : s.path = some .init)
    (hcase : s.scase = none) (hnames : ∀ x ∈ xs, x.name = "device" ∨ x.name = "stream") :
    (Xml.effects mixer [.device, .stream] xs s).devices = s.devices ++ devicesOf mixer xs ∧
      (Xml.effects mixer [.device, .stream] xs s).init =
        s.init ++ (earlyCaseCtls xs).map (fun c => ctlFrom mixer c.attrib) ∧
      (earlyCaseCtls xs = [] → (Xml.effects mixer [.device, .stream] xs s).streams =
        s.streams ++ streamsOf (ctlsOf mixer) xs) := by
  have hsplit := List.takeWhile_append_dropWhile (p := fun x : Xml => !x.hasPath) (l := xs)
  have hearly : earlyCaseCtls xs = ((xs.takeWhile fun x => !x.hasPath).filter fun x =>
    x.name = "stream").flatMap caseCtls := rfl
  have hhead : ∀ x ∈ (xs.dropWhile fun x => !x.hasPath).head?, x.hasPath = true := by
    intro x hx
    have hnot := List.head?_dropWhile_not (fun x : Xml => !x.hasPath) xs
    rw [Option.mem_def.mp hx] at hnot
    simpa using hnot
  have hbefore : ∀ x ∈ xs.takeWhile fun x => !x.hasPath, x.hasPath = false := by
    intro x hx
    simpa using List.mem_takeWhile_imp hx
  generalize xs.takeWhile (fun x => !x.hasPath) = before at hsplit hearly hbefore
  generalize xs.dropWhile (fun x => !x.hasPath) = after at hsplit hhead
  subst hsplit
  have hgain : Gains mixer true before s (Xml.effects mixer [.device, .stream] before s) :=
    sections_gain before (fun _ => hbefore) hpath hcase fun x hx =>
      hnames x (List.mem_append_left _ hx)
  obtain ⟨hdevices, hstreams, hinit⟩ := late_sections hhead hgain.scase fun x hx =>
    hnames x (List.mem_append_right _ hx)
  rw [effects_append]
  refine ⟨?_, ?_, ?_⟩
  · rw [hdevices, hgain.devices]
    simp [devicesOf]
  · rw [hinit, hgain.init, hearly]
    rfl
  · intro hnone
    rw [hstreams, hgain.streams, early_streams (hearly ▸ hnone)]
    simp [streamsOf]

/-- The contents mirror the document exactly when nothing strayed. -/
theorem mixer_mirrors {x : Xml} {xs : List Xml} (hx : x.name = "mixer")
    (hnames : ∀ y ∈ xs, y.name = "device" ∨ y.name = "stream") :
    Mirrors mixer (x :: xs)
        (Xml.effects mixer [.device, .stream] xs (Xml.effects mixer [.init] x.children blank)) ↔
      initElements (x :: xs) = [] ∨ earlyCaseCtls (x :: xs) = [] := by
  obtain ⟨hinit, hearly, hdevices, hstreams⟩ := @mixer_only mixer x xs hx hnames
  rw [inits_effects, hinit, hearly]
  have hinits : (x.children.filter fun c => c.name = "init") = x.named "init" := rfl
  rw [hinits]
  by_cases hnone : x.named "init" = []
  · -- no init path was ever current
    simp only [hnone, List.isEmpty_nil, if_true, List.flatMap_nil, List.append_nil, true_or, iff_true]
    have hgain : Gains mixer false xs blank (Xml.effects mixer [.device, .stream] xs blank) :=
      sections_gain xs (fun h => by cases h) rfl rfl hnames
    constructor
    · rw [hdevices]
      exact hgain.devices
    · rw [hstreams]
      exact hgain.streams
    · rw [hinit, hnone]
      exact hgain.init
  · have hcurrent : (x.named "init").isEmpty = false := by simpa using hnone
    rw [hcurrent, if_neg Bool.false_ne_true]
    obtain ⟨hdev, hini, hstr⟩ := @init_sections mixer xs
      { blank with path := some .init, init := blank.init ++ (x.named "init").flatMap (ctlsOf mixer) }
      rfl rfl hnames
    constructor
    · intro hmirror
      right
      have hsame := hmirror.init
      rw [hini, hinit] at hsame
      have hempty := List.append_right_eq_self.mp hsame
      exact List.map_eq_nil_iff.mp hempty
    · rintro (h | h)
      · exact absurd h hnone
      · constructor
        · rw [hdev, hdevices]
          rfl
        · rw [hstr h, hstreams]
          rfl
        · rw [hini, h, hinit, List.map_nil, List.append_nil]
          rfl

theorem filled_mirrors {xs : List Xml} {s s' : Contents} (h : Filled mixer xs s s') (hs : s = blank) :
    Mirrors mixer xs s' ↔ initElements xs = [] ∨ earlyCaseCtls xs = [] := by
  induction h with
  | nil s =>
    subst hs
    simp only [initElements, List.filter_nil, List.flatMap_nil, true_or, iff_true]
    exact ⟨rfl, rfl, rfl⟩
  | @probe x xs s s' hx _ ih =>
    have hinit : initElements (x :: xs) = initElements xs := by simp [initElements, hx]
    have hearly : earlyCaseCtls (x :: xs) = earlyCaseCtls xs := by
      simp [earlyCaseCtls, Xml.hasPath, hx]
    have hdevices : devicesOf mixer (x :: xs) = devicesOf mixer xs := by simp [devicesOf, hx]
    have hstreams : streamsOf (ctlsOf mixer) (x :: xs) = streamsOf (ctlsOf mixer) xs := by
      simp [streamsOf, hx]
    rw [hinit, hearly, ← ih hs]
    constructor
    · intro hm
      exact ⟨hdevices ▸ hm.devices, hstreams ▸ hm.streams, hinit ▸ hm.init⟩
    · intro hm
      exact ⟨hdevices ▸ hm.devices, hstreams ▸ hm.streams, hinit ▸ hm.init⟩
  | mixer hx hnames =>
    subst hs
    exact mixer_mirrors hx hnames

end Mirror

/-- The manager mirrors the document that the parser ended with, and only the controls of
its `<init>` are applied, exactly when no `<init>` is there to be left open or no case
has a control before the first path. -/
theorem controls_placed {env : Env} {doc : String → Xml} (hexpat : Expat env doc) {fuel : Nat}
    {st : ParseState} (h : parseFiles env fuel initState = some (0, st)) :
    (Mirrors st.cm.mixer (doc st.curXmlFile).children st.contents ∧
      initAudioConfig env fuel = some (some { st.cm with
        mixer := (applyCtlsL st.cm.mixer
          ((initElements (doc st.curXmlFile).children).flatMap (ctlsOf st.cm.mixer))).1 })) ↔
      initElements (doc st.curXmlFile).children = [] ∨
        earlyCaseCtls (doc st.curXmlFile).children = [] := by
  have hlabel : initState.contents.Labelled := by
    intro d hd
    cases hd
  obtain ⟨-, hfilled⟩ := parseFiles_read hexpat hlabel h
  have hmirrors := filled_mirrors hfilled rfl
  rw [← hmirrors]
  constructor
  · exact fun hm => hm.1
  · intro hm
    refine ⟨hm, ?_⟩
    rw [initAudioConfig, h, ← hm.init]
    rfl

def ctlElement (name val : String) : Xml := .element "ctl" [("name", name), ("val", val)] []

/-- A document with one control in `<init>`, and then these sections. -/
def documentWith (sections : List Xml) : Xml :=
  .element "audiohal" []
    (.element "mixer" [("card", "1")] [.element "init" [] [ctlElement "Speaker Mixer" "1"]] :: sections)

def speakerSection : Xml :=
  .element "device" [("name", "speaker")] [.element "path" [("name", "on")] [ctlElement "Speaker Switch" "1"]]

/-- A hardware stream with a use case whose case holds one control. -/
def voiceSection : Xml :=
  .element "stream" [("type", "hw"), ("name", "voice"), ("dir", "out")]
    [.element "usecase" [("name", "gain")]
      [.element "case" [("name", "loud")] [ctlElement "Voice Volume" "40"]]]

def treeEnv (root : Xml) : Env := documentEnv ⟨root.events, true⟩

theorem treeEnv_expat (root : Xml) : Expat (treeEnv root) fun _ => root := by
  intro name file h
  simp only [treeEnv, documentEnv] at h
  split at h
  · cases h
    exact ⟨List.prefix_rfl, fun _ => rfl⟩
  · cases h

/-- How many controls each case of a stream holds. -/
def caseSizes (s : Contents) : List (List Nat) :=
  s.streams.flatMap fun stream => stream.2.map fun usecase => usecase.2.map fun c => c.2.length

/-- With the device first, as in the shipped file, the case keeps its control. -/
theorem device_before_case : ∃ st,
    parseFiles (treeEnv (documentWith [speakerSection, voiceSection])) 1 initState = some (0, st) ∧
      Mirrors st.cm.mixer (documentWith [speakerSection, voiceSection]).children st.contents := by
  have hcode : (parseFiles (treeEnv (documentWith [speakerSection, voiceSection])) 1 initState).map
      (fun done => done.1) = some 0 := by decide +kernel
  obtain ⟨⟨code, st⟩, hparse, hzero⟩ := Option.map_eq_some_iff.mp hcode
  cases hzero
  exact ⟨st, hparse, ((controls_placed (treeEnv_expat _) hparse).mpr (.inr (by decide))).1⟩

/-- With the stream first, the parser applies the control of the case at initialisation,
and the case is left empty. -/
theorem case_before_device :
    Expat (treeEnv (documentWith [voiceSection, speakerSection]))
      (fun _ => documentWith [voiceSection, speakerSection]) ∧
    ∃ st, parseFiles (treeEnv (documentWith [voiceSection, speakerSection])) 1 initState = some (0, st) ∧
      st.contents.init.map (fun c => c.name) = ["Speaker Mixer", "Voice Volume"] ∧
      caseSizes st.contents = [[0]] ∧
      ¬ Mirrors st.cm.mixer (documentWith [voiceSection, speakerSection]).children st.contents := by
  have hrun : (parseFiles (treeEnv (documentWith [voiceSection, speakerSection])) 1 initState).map
      (fun done => (done.1, done.2.contents.init.map (fun c => c.name), caseSizes done.2.contents)) =
      some (0, ["Speaker Mixer", "Voice Volume"], [[0]]) := by
    decide +kernel
  obtain ⟨⟨code, st⟩, hparse, hvalues⟩ := Option.map_eq_some_iff.mp hrun
  simp only [Prod.mk.injEq] at hvalues
  obtain ⟨rfl, hinit, hsizes⟩ := hvalues
  refine ⟨treeEnv_expat _, st, hparse, hinit, hsizes, ?_⟩
  intro hmirrors
  have hcount := congrArg List.length hmirrors.init
  have hlen : st.contents.init.length = 2 := by
    rw [← List.length_map (fun c : Ctl => c.name), hinit]
    rfl
  rw [hlen] at hcount
  simp [initElements, documentWith, Xml.children, Xml.named, Xml.name, voiceSection, speakerSection,
    ctlsOf, ctlElement] at hcount

end TinyHal
