import Mocha.AudioParents
import Mocha.Transition

/-!
# The stack of open elements

The stack has `MAX_PARSE_DEPTH` entries, and the guard of `parse_section_start`
lets the index reach one more. What bounds the index is the grammar: an element
is lower than its parent, and the children that `<mixer>` gives to the root are
no higher than a `<stream>`.
-/
namespace TinyHal

section Events

/-- `parse_section_start` up to the attributes: the element, pushed on the stack. -/
def push (st : ParseState) (name : String) : Option (Elem × ParseState) :=
  match pick (st.entry st.index).validSubelem name with
  | none => none
  | some e =>
    if st.index ≥ maxParseDepth then none
    else
      some (e, { st with
        index := st.index + 1
        entry := Function.update st.entry (st.index + 1) ⟨e, (elemTable e).validSubelem⟩ })

/-- A handler's result, with the code `r` in place of a success. -/
def returning (r : Int) : Except Fault ParseState → Except Fault ParseState
  | .ok st => if r = 0 then .ok st else .error (.errno r)
  | .error f => .error f

def feedStart (env : Env) (r : Int) (st : ParseState) (name : String)
    (attribs : List (String × String)) : Option ParseState :=
  if st.parseError ≠ 0 then some st
  else
    match push st name with
    | none => some { st with parseError := -einval }
    | some (e, st) =>
      match extractAttribs e attribs with
      | none => some { st with parseError := -einval }
      | some value =>
        let st := { st with attribs := value }
        settle st (returning r (startFn env e st))

def feedEnd (env : Env) (r : Int) (st : ParseState) : Option ParseState :=
  if st.parseError ≠ 0 then some st
  else
    let i := (st.entry st.index).elem
    (settle st (returning r (endFn env i st))).map fun st => { st with index := st.index - 1 }

/-- An event, and what its handler returns if it does not fail by itself. Events keep coming
when the parser has been told to stop. -/
def feedEvent (env : Env) (st : ParseState) : XmlEvent × Int → Option ParseState
  | (.start name attribs, r) => feedStart env r st name attribs
  | (.finish _, r) => feedEnd env r st

theorem returning_zero (x : Except Fault ParseState) : returning 0 x = x := by
  cases x <;> rfl

/-- The handler of start tags, as one event that is fed in. -/
theorem parseSectionStart_feed (env : Env) (st : ParseState) (name : String)
    (attribs : List (String × String)) :
    parseSectionStart env st name attribs = feedStart env 0 st name attribs := by
  unfold parseSectionStart feedStart push pick
  by_cases herr : st.parseError ≠ 0
  · rw [if_pos herr, if_pos herr]
  · rw [if_neg herr, if_neg herr]
    dsimp only
    generalize (Elem.all.find? fun e =>
      decide (e ∈ (st.entry st.index).validSubelem) && decide ((elemTable e).name = name)) = found
    cases found with
    | none => rfl
    | some e =>
      by_cases hdeep : st.index ≥ maxParseDepth
      · simp only [if_pos hdeep]
      · cases hattribs : extractAttribs e attribs with
        | none => simp only [if_neg hdeep, hattribs]
        | some value => simp only [if_neg hdeep, hattribs, returning_zero]

theorem parseSectionEnd_feed (env : Env) (st : ParseState) :
    parseSectionEnd env st = feedEnd env 0 st := by
  unfold parseSectionEnd feedEnd
  simp only [returning_zero]

/-- The open names after an event, innermost first. An end names the element it closes. -/
def nest : List String → XmlEvent → Option (List String)
  | names, .start name _ => some (name :: names)
  | name :: names, .finish n => if n = name then some names else none
  | [], .finish _ => none

/-- Whether every end event closes the last element that is open. -/
def WellNested (events : List XmlEvent) : Prop := (Transition.run nest [] events).isSome = true

instance (events : List XmlEvent) : Decidable (WellNested events) :=
  inferInstanceAs (Decidable ((Transition.run nest [] events).isSome = true))

/-- The positions of the stack that an event reads or writes. -/
def accesses (st : ParseState) : XmlEvent → List Int
  | .start name attribs =>
    st.index :: match if st.parseError ≠ 0 then none else push st name with
      | none => []
      | some (e, st) =>
        st.index :: if e = .mixer ∧ (extractAttribs e attribs).isSome then [st.index - 1] else []
  | .finish _ => [st.index]

/-- The element whose handler an event runs. -/
def handled (st : ParseState) : XmlEvent → Option Elem
  | .start name attribs =>
    if st.parseError ≠ 0 then none
    else (push st name).bind fun pushed => (extractAttribs pushed.1 attribs).map fun _ => pushed.1
  | .finish _ => if st.parseError ≠ 0 then none else some (st.entry st.index).elem

/-- Whether the parent pointer that the handler of an element uses is set. -/
def hasParent (c : Current) (e : Elem) : XmlEvent → Bool
  | .start _ _ => startParent c e
  | .finish _ => endParent c e

/-- The state in which `do_parse` gives the parser its first event. -/
def begun (st : ParseState) : ParseState :=
  let root : StackEntry := { st.entry 0 with validSubelem := [.audiohal] }
  { st with parseError := 0, index := 0, stop := .running, entry := Function.update st.entry 0 root }

theorem doParse_begun (env : Env) (st : ParseState) (file : XmlFile) :
    doParse env st file = (parseEvents env (begun st) file.events).map fun st =>
      (if st.parseError < 0 ∨ st.stop = .aborted ∨ (st.stop = .running ∧ !file.wellFormed) then -einval
        else 0, st) := rfl

end Events

section Stack

/-- The entries of the open elements, and that of the document under them. -/
def Entries (entry : Int → StackEntry) : List Elem → Prop
  | [] => (entry 0).validSubelem = [.audiohal]
  | e :: es =>
    (entry (es.length + 1)).elem = e ∧ (entry (es.length + 1)).validSubelem ⊆ children e ∧
      Entries entry es

theorem table_children (e : Elem) : (elemTable e).validSubelem ⊆ children e := by
  cases e <;> decide

/-- What may come next stands below the innermost element in the grammar. -/
theorem Entries.valid {entry : Int → StackEntry} {es : List Elem} (h : Entries entry es) :
    (entry es.length).validSubelem ⊆ below es := by
  cases es with
  | nil =>
    have hroot : (entry 0).validSubelem = [.audiohal] := h
    show (entry 0).validSubelem ⊆ [.audiohal]
    rw [hroot]
    exact List.Subset.refl _
  | cons e es => exact h.2.1

theorem Entries.congr {entry entry' : Int → StackEntry} {es : List Elem} (h : Entries entry es)
    (hsame : ∀ i ≤ (es.length : Int), entry' i = entry i) : Entries entry' es := by
  induction es with
  | nil =>
    unfold Entries
    rw [hsame 0 (le_refl _)]
    exact h
  | cons e es ih =>
    have htop : entry' (es.length + 1) = entry (es.length + 1) := by
      apply hsame
      simp
    unfold Entries
    rw [htop]
    refine ⟨h.1, h.2.1, ih h.2.2 ?_⟩
    intro i hi
    apply hsame
    simp only [List.length_cons]
    omega

theorem Entries.push {entry : Int → StackEntry} {es : List Elem} (h : Entries entry es) (e : Elem) :
    Entries (Function.update entry (es.length + 1) ⟨e, (elemTable e).validSubelem⟩) (e :: es) := by
  unfold Entries
  rw [Function.update_self]
  refine ⟨rfl, table_children e, h.congr ?_⟩
  intro i hi
  exact Function.update_of_ne (by omega) _ _

/-- Under an open `<mixer>` the root gets its other children. -/
theorem Entries.mixed {entry : Int → StackEntry} {e : Elem} {es : List Elem}
    (h : Entries entry (e :: .audiohal :: es)) :
    Entries (Function.update entry (es.length + 1)
      { entry (es.length + 1) with validSubelem := [.device, .stream] }) (e :: .audiohal :: es) := by
  obtain ⟨he, hsub, hroot, -, hrest⟩ := h
  have hne : ((Elem.audiohal :: es).length + 1 : Int) ≠ es.length + 1 := by
    simp only [List.length_cons]
    omega
  refine ⟨?_, ?_, ?_, ?_, ?_⟩
  · rw [Function.update_of_ne hne]
    exact he
  · rw [Function.update_of_ne hne]
    exact hsub
  · rw [Function.update_self]
    exact hroot
  · rw [Function.update_self]
    show [Elem.device, .stream] ⊆ children .audiohal
    decide
  · apply hrest.congr
    intro i hi
    exact Function.update_of_ne (by omega) _ _

/-- The parser between two events that have left no error. -/
structure Standing (es : List Elem) (st : ParseState) : Prop where
  error : st.parseError = 0
  index : st.index = es.length
  nested : Nested es
  entries : Entries st.entry es
  held : ∀ p ∈ es, p.held st.current = true

/-- The parser at nesting depth `n`: it follows the open elements until an error stops it
where it is. -/
def Stands (n : Nat) (st : ParseState) : Prop :=
  Located st.cm st.current ∧
    ((∃ es : List Elem, es.length = n ∧ Standing es st) ∨
      (st.parseError ≠ 0 ∧ 0 ≤ st.index ∧ st.index ≤ 5))

/-- The index stays within the array of entries. -/
theorem Stands.bounds {n : Nat} {st : ParseState} (h : Stands n st) :
    0 ≤ st.index ∧ st.index ≤ 5 := by
  obtain ⟨-, ⟨es, -, hst⟩ | ⟨-, hindex⟩⟩ := h
  · have hlen := hst.nested.length_le
    rw [hst.index]
    omega
  · exact hindex

/-- An element that is pushed is a child of the innermost one. -/
theorem Standing.push {es : List Elem} {st : ParseState} (h : Standing es st) {name : String}
    {e : Elem} {st' : ParseState} (hpush : push st name = some (e, st')) :
    e ∈ below es ∧ st' = { st with
      index := st.index + 1
      entry := Function.update st.entry (st.index + 1) ⟨e, (elemTable e).validSubelem⟩ } := by
  unfold TinyHal.push at hpush
  split at hpush
  case h_1 => cases hpush
  case h_2 e' hpick =>
    split at hpush
    · cases hpush
    · cases hpush
      have hmem := (pick_mem hpick).1
      rw [h.index] at hmem
      exact ⟨h.entries.valid hmem, rfl⟩

/-- What a handler leaves: its result, or an error code. -/
theorem settle_returning {x : Except Fault ParseState} {Q : ParseState → Prop} (st : ParseState)
    (r : Int) (hx : Fares x Q) (hr : Refuses x) :
    (∃ st', Q st' ∧ settle st (returning r x) = some (clear st')) ∨
      ∃ e ≠ 0, settle st (returning r x) = some { st with parseError := e } := by
  cases x with
  | ok st' =>
    by_cases hzero : r = 0
    · refine .inl ⟨st', hx.2 st' rfl, ?_⟩
      rw [hzero, returning_zero]
      rfl
    · refine .inr ⟨r, hzero, ?_⟩
      rw [returning, if_neg hzero]
      rfl
  | error f =>
    cases f with
    | errno e =>
      have hneg := hr e rfl
      exact .inr ⟨e, by omega, rfl⟩
    | nullParent => exact absurd rfl hx.1

/-- `<mixer>` stands directly below the root. -/
theorem below_mixer {es : List Elem} (h : Elem.mixer ∈ below es) : ∃ rest, es = .audiohal :: rest := by
  cases es with
  | nil => cases List.mem_singleton.mp h
  | cons p rest =>
    have hp : Elem.mixer ∈ children p → p = .audiohal := by cases p <;> decide
    cases hp h
    exact ⟨rest, rfl⟩

/-- A start handler that succeeds adds its element to those that are open. -/
theorem Opens.standing {es : List Elem} {e : Elem} {st st' : ParseState}
    {value : Attrib → Option String} (hst : Standing es st) (he : e ∈ below es)
    (h : Opens e (enter st e value) st') : Standing (e :: es) (clear st') where
  error := rfl
  index := by
    show st'.index = _
    rw [h.index]
    simp [enter, hst.index]
  nested := ⟨he, hst.nested⟩
  entries := by
    show Entries st'.entry (e :: es)
    have hpush := hst.entries.push e
    rw [← hst.index] at hpush
    rw [h.entry]
    cases e with
    | mixer =>
      obtain ⟨rest, rfl⟩ := below_mixer he
      have hmixed := hpush.mixed
      have hparent : (enter st .mixer value).index - 1 = rest.length + 1 := by
        simp [enter, hst.index]
      unfold startEntry
      rw [hparent]
      exact hmixed
    | _ => exact hpush
  held := by
    intro p hp
    rcases List.mem_cons.mp hp with rfl | hp
    · exact h.own
    · exact h.keeps p (hst.held p hp)

/-- A start tag, whatever its handler returns. -/
theorem feedStart_stands (env : Env) (r : Int) {n : Nat} {st : ParseState} (h : Stands n st)
    (name : String) (attribs : List (String × String)) :
    ∃ st', feedStart env r st name attribs = some st' ∧ Stands (n + 1) st' := by
  obtain ⟨hl, ⟨es, rfl, hst⟩ | ⟨herr, hindex⟩⟩ := h
  case inr => exact ⟨st, if_pos herr, hl, .inr ⟨herr, hindex⟩⟩
  have hbounds : 0 ≤ st.index ∧ st.index ≤ 5 := Stands.bounds ⟨hl, .inl ⟨es, rfl, hst⟩⟩
  unfold feedStart
  rw [if_neg (by simpa using hst.error)]
  have hne : -einval ≠ 0 := by decide
  cases hp : push st name with
  | none => exact ⟨_, rfl, hl, .inr ⟨hne, hbounds⟩⟩
  | some pushed =>
    obtain ⟨e, st₁⟩ := pushed
    obtain ⟨he, rfl⟩ := hst.push hp
    have hdeep := hst.nested.deep he
    have hpos := height_pos e
    have hpushed : 0 ≤ st.index + 1 ∧ st.index + 1 ≤ 5 := by
      rw [hst.index]
      omega
    cases hv : extractAttribs e attribs with
    | none =>
      simp only [hv]
      exact ⟨_, rfl, hl, .inr ⟨hne, hpushed⟩⟩
    | some value =>
      have hparent : startParent (enter st e value).current e = true :=
        startParent_of_below he hst.held
      have hfares : Fares (startFn env e (enter st e value)) (Opens e (enter st e value)) :=
        startFn_opens env hl hparent
      have hrefuses := startFn_refuses env e (enter st e value)
      obtain ⟨st', hopens, hsettle⟩ | ⟨code, hcode, hsettle⟩ :=
        settle_returning (enter st e value) r hfares hrefuses
      · simp only [hv]
        exact ⟨_, hsettle, hopens.located, .inl ⟨e :: es, rfl, hopens.standing hst he⟩⟩
      · simp only [hv]
        exact ⟨_, hsettle, hl, .inr ⟨hcode, hpushed⟩⟩

/-- An end handler that succeeds leaves the elements around its own as they are. -/
theorem Closes.standing {es : List Elem} {e : Elem} {st st' : ParseState}
    (hst : Standing (e :: es) st) (h : Closes e st st') : Standing es (leave st') where
  error := rfl
  index := by
    show st'.index - 1 = _
    rw [h.index, hst.index]
    simp
  nested := hst.nested.2
  entries := by
    show Entries st'.entry es
    rw [h.entry]
    exact hst.entries.2.2
  held := by
    intro p hp
    exact h.keeps p (hst.nested.2.higher hst.nested.1 p hp) (hst.held p (List.mem_cons_of_mem _ hp))

/-- An end tag, whatever its handler returns. -/
theorem feedEnd_stands (env : Env) (r : Int) {n : Nat} {st : ParseState} (h : Stands (n + 1) st) :
    ∃ st', feedEnd env r st = some st' ∧ Stands n st' := by
  obtain ⟨hl, ⟨es, hn, hst⟩ | ⟨herr, hindex⟩⟩ := h
  case inr => exact ⟨st, if_pos herr, hl, .inr ⟨herr, hindex⟩⟩
  cases es with
  | nil => cases hn
  | cons e es =>
    cases hn
    have hlen := hst.nested.length_le
    have helem : (st.entry st.index).elem = e := by
      rw [hst.index]
      exact hst.entries.1
    have hindex : st.index - 1 = es.length := by
      rw [hst.index]
      simp
    unfold feedEnd
    rw [if_neg (by simpa using hst.error), helem]
    dsimp only
    simp only [List.length_cons] at hlen
    have hfares := endFn_closes env hl (endParent_of_held (hst.held e List.mem_cons_self))
    obtain ⟨st', hcloses, hsettle⟩ | ⟨code, hcode, hsettle⟩ :=
      settle_returning st r hfares (endFn_refuses env e st)
    · rw [hsettle]
      exact ⟨leave st', rfl, hcloses.located, .inl ⟨es, rfl, hcloses.standing hst⟩⟩
    · have hpopped : 0 ≤ st.index - 1 ∧ st.index - 1 ≤ 5 := by omega
      rw [hsettle]
      exact ⟨_, rfl, hl, .inr ⟨hcode, hpopped⟩⟩

/-- The step lemma; the names say how deep the document is. -/
theorem feedEvent_stands (env : Env) {names names' : List String} {st : ParseState}
    (h : Stands names.length st) (event : XmlEvent × Int) (hnest : nest names event.1 = some names') :
    ∃ st', feedEvent env st event = some st' ∧ Stands names'.length st' := by
  obtain ⟨event, r⟩ := event
  cases event with
  | start name attribs =>
    cases hnest
    exact feedStart_stands env r h name attribs
  | finish name =>
    cases names with
    | nil => cases hnest
    | cons top names =>
      obtain ⟨-, hsome⟩ := Option.ite_none_right_eq_some.mp hnest
      cases hsome
      exact feedEnd_stands env r h

theorem feed_stands (env : Env) (events : List (XmlEvent × Int)) {names names' : List String}
    {st : ParseState} (h : Stands names.length st)
    (hnest : Transition.run nest names (events.map Prod.fst) = some names') :
    ∃ st', Transition.run (feedEvent env) st events = some st' ∧ Stands names'.length st' := by
  induction events generalizing names st with
  | nil =>
    cases hnest
    exact ⟨st, rfl, h⟩
  | cons event events ih =>
    obtain ⟨names₁, hone, hrest⟩ := Option.bind_eq_some_iff.mp hnest
    obtain ⟨st₁, hfeed, hst₁⟩ := feedEvent_stands env h event hone
    obtain ⟨st', hrun, hst'⟩ := ih hst₁ hrest
    refine ⟨st', ?_, hst'⟩
    rw [Transition.run_cons, hfeed]
    exact hrun

/-- An event reads and writes inside the array. -/
theorem Stands.accesses {n : Nat} {st : ParseState} (h : Stands n st) (next : XmlEvent) :
    ∀ i ∈ accesses st next, 0 ≤ i ∧ i < maxParseDepth := by
  have hbounds := h.bounds
  have htop : 0 ≤ st.index ∧ st.index < maxParseDepth := by
    unfold maxParseDepth
    omega
  intro i hi
  cases next with
  | finish name =>
    cases List.mem_singleton.mp hi
    exact htop
  | start name attribs =>
    unfold TinyHal.accesses at hi
    rcases List.mem_cons.mp hi with rfl | hi
    · exact htop
    · obtain ⟨-, ⟨es, -, hst⟩ | ⟨herr, -⟩⟩ := h
      · rw [if_neg (by simpa using hst.error)] at hi
        cases hp : push st name with
        | none =>
          rw [hp] at hi
          cases hi
        | some pushed =>
          obtain ⟨e, st₁⟩ := pushed
          rw [hp] at hi
          obtain ⟨he, rfl⟩ := hst.push hp
          have hdeep := hst.nested.deep he
          have hpos := height_pos e
          have hindex := hst.index
          unfold maxParseDepth
          rcases List.mem_cons.mp hi with rfl | hi
          · dsimp only
            omega
          · split at hi
            · cases List.mem_singleton.mp hi
              dsimp only
              omega
            · cases hi
      · rw [if_pos herr] at hi
        cases hi

/-- A handler that an event runs finds its parent object. -/
theorem Stands.parent {names names' : List String} {st : ParseState} (h : Stands names.length st)
    {next : XmlEvent} (hnest : nest names next = some names') {e : Elem}
    (hrun : handled st next = some e) : hasParent st.current e next = true := by
  cases next with
  | start name attribs =>
    obtain ⟨hok, hsome⟩ := Option.ite_none_left_eq_some.mp hrun
    obtain ⟨⟨e', st₁⟩, hpush, hattribs⟩ := Option.bind_eq_some_iff.mp hsome
    obtain ⟨value, -, rfl⟩ := Option.map_eq_some_iff.mp hattribs
    obtain ⟨-, ⟨es, -, hst⟩ | ⟨herr, -⟩⟩ := h
    · exact startParent_of_below (hst.push hpush).1 hst.held
    · exact absurd herr hok
  | finish name =>
    obtain ⟨hok, hsome⟩ := Option.ite_none_left_eq_some.mp hrun
    cases hsome
    obtain ⟨-, ⟨es, hn, hst⟩ | ⟨herr, -⟩⟩ := h
    · cases es with
      | nil =>
        cases names with
        | nil => cases hnest
        | cons top names => cases hn
      | cons e es =>
        have helem : (st.entry st.index).elem = e := by
          rw [hst.index]
          exact hst.entries.1
        rw [helem]
        exact endParent_of_held (hst.held e List.mem_cons_self)
    · exact absurd herr hok

/-- The states in which `do_parse` is entered: a new one, and those that an earlier file left. -/
inductive Entered (env : Env) : ParseState → Prop
  | first (file : String) (probe : CodecProbe) :
      Entered env { initState with curXmlFile := file, initProbe := probe }
  | again {st st' : ParseState} {events : List (XmlEvent × Int)} (file : String) (probe : CodecProbe) :
      Entered env st → WellNested (events.map Prod.fst) →
      Transition.run (feedEvent env) (begun st) events = some st' →
      Entered env { st' with curXmlFile := file, initProbe := probe }

theorem begun_stands {st : ParseState} (h : Located st.cm st.current) :
    Stands ([] : List String).length (begun st) := by
  refine ⟨h, .inl ⟨[], rfl, ?_⟩⟩
  constructor
  · rfl
  · rfl
  · trivial
  · show ((begun st).entry 0).validSubelem = [.audiohal]
    unfold begun
    dsimp only
    rw [Function.update_self]
  · intro p hp
    cases hp

/-- The parser is entered with positions that exist. -/
theorem Entered.located {env : Env} {st : ParseState} (h : Entered env st) :
    Located st.cm st.current := by
  induction h with
  | first file probe =>
    refine ⟨?_, ?_, ?_, ?_, ?_⟩
    all_goals
      intros
      rename_i heq
      cases heq
  | again file probe _ hnest hrun ih =>
    obtain ⟨names, hnames⟩ := Option.isSome_iff_exists.mp hnest
    obtain ⟨st', hfeed, hst'⟩ := feed_stands env _ (begun_stands ih) hnames
    cases hrun.symm.trans hfeed
    exact hst'.1

/-- Whatever the document and the handlers' return codes, the index stays within the stack,
every access is inside it, and every handler finds its parent object. -/
theorem sections_within_stack {env : Env} {st : ParseState} (hst : Entered env st)
    (events : List (XmlEvent × Int)) (hnest : WellNested (events.map Prod.fst)) :
    ∃ st', Transition.run (feedEvent env) (begun st) events = some st' ∧
      0 ≤ st'.index ∧ st'.index ≤ maxParseDepth - 1 ∧
      ∀ next, WellNested (events.map Prod.fst ++ [next]) →
        (∀ i ∈ accesses st' next, 0 ≤ i ∧ i < maxParseDepth) ∧
        ∀ e, handled st' next = some e → hasParent st'.current e next = true := by
  obtain ⟨names, hnames⟩ := Option.isSome_iff_exists.mp hnest
  obtain ⟨st', hfeed, hst'⟩ := feed_stands env events (begun_stands hst.located) hnames
  obtain ⟨h₀, h₅⟩ := hst'.bounds
  refine ⟨st', hfeed, h₀, h₅, ?_⟩
  intro next hnext
  obtain ⟨names', hnames'⟩ := Option.isSome_iff_exists.mp hnext
  rw [Transition.run_append, hnames, Option.bind_some] at hnames'
  obtain ⟨names₁, hone, -⟩ := Option.bind_eq_some_iff.mp hnames'
  exact ⟨hst'.accesses next, fun e he => hst'.parent hone he⟩

/-- A case of a stream that is open down to its control. -/
def deepest : List XmlEvent :=
  [.start "audiohal" [], .start "mixer" [], .finish "mixer",
    .start "stream" [("type", "pcm"), ("dir", "out")], .start "usecase" [("name", "u")],
    .start "case" [("name", "c")], .start "ctl" [("name", "Volume"), ("val", "1")]]

theorem deepest_within_stack :
    ∃ st', Transition.run (feedEvent (documentEnv mochaDocument)) (begun initState)
        (deepest.map fun e => (e, 0)) = some st' ∧
      0 ≤ st'.index ∧ st'.index ≤ maxParseDepth - 1 ∧
      ∀ next, WellNested ((deepest.map fun e => (e, (0 : Int))).map Prod.fst ++ [next]) →
        (∀ i ∈ accesses st' next, 0 ≤ i ∧ i < maxParseDepth) ∧
        ∀ e, handled st' next = some e → hasParent st'.current e next = true :=
  sections_within_stack (Entered.first "" ⟨none, none, [], 0⟩) _ (by decide +kernel)

/-- The last entry of the stack is used. -/
example : (Transition.run (feedEvent (documentEnv mochaDocument)) (begun initState)
    (deepest.map fun e => (e, 0))).map (fun st => st.index) = some (maxParseDepth - 1) := by
  decide +kernel

/-- While the parser runs, an event of the document is one whose result is not overruled. -/
theorem feedEvent_zero (env : Env) {st : ParseState} (hrun : st.stop = .running) (event : XmlEvent) :
    parseEvent env st event = feedEvent env st (event, 0) := by
  cases event with
  | start name attribs =>
    rw [parseEvent, if_pos hrun]
    exact parseSectionStart_feed env st name attribs
  | finish name =>
    rw [parseEvent, if_pos hrun]
    exact parseSectionEnd_feed env st

/-- The parser handles the events up to the one that stops it. -/
theorem parseEvents_feed (env : Env) (events : List XmlEvent) (st : ParseState) :
    ∃ n, parseEvents env st events =
      Transition.run (feedEvent env) st ((events.take n).map fun e => (e, 0)) := by
  induction events generalizing st with
  | nil => exact ⟨0, rfl⟩
  | cons event events ih =>
    by_cases hrun : st.stop = .running
    · rw [parseEvents, feedEvent_zero env hrun]
      cases hfeed : feedEvent env st (event, 0) with
      | none =>
        refine ⟨1, ?_⟩
        simp [hfeed]
      | some st₁ =>
        obtain ⟨n, hn⟩ := ih st₁
        refine ⟨n + 1, ?_⟩
        simpa [hfeed] using hn
    · exact ⟨0, parseEvents_idle (parseEvent_stopped env hrun) _⟩

/-- The beginning of a well nested document is well nested as far as it goes. -/
theorem WellNested.take {events : List XmlEvent} (h : WellNested events) (n : Nat) :
    WellNested (events.take n) := by
  unfold WellNested at h ⊢
  rw [← List.take_append_drop n events, Transition.run_append] at h
  obtain ⟨names, hnames⟩ := Option.isSome_iff_exists.mp h
  obtain ⟨names₁, hone, -⟩ := Option.bind_eq_some_iff.mp hnames
  exact Option.isSome_iff_exists.mpr ⟨names₁, hone⟩

/-- A file's parser run uses no null pointer. -/
theorem doParse_returns {env : Env} {st : ParseState} {file : XmlFile} (hst : Entered env st)
    (hnest : WellNested file.events) : (doParse env st file).isSome = true := by
  obtain ⟨n, hn⟩ := parseEvents_feed env file.events (begun st)
  have hmap : ((file.events.take n).map fun e => (e, (0 : Int))).map Prod.fst = file.events.take n := by
    rw [List.map_map]
    exact List.map_id _
  obtain ⟨names, hnames⟩ := Option.isSome_iff_exists.mp (hnest.take n)
  rw [← hmap] at hnames
  obtain ⟨st', hfeed, -⟩ := feed_stands env _ (begun_stands hst.located) hnames
  rw [doParse_begun, hn, hfeed]
  rfl

end Stack

end TinyHal
