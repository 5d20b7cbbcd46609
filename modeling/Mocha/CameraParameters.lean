import Mathlib.Data.Char
import Mathlib.Data.List.Lex
import Mocha.SignedNumeral
import Mocha.SortedAssoc

/-!
# Camera parameters

`CameraParameters.cpp`. The settings of the old camera interface are strings under string
keys, and they cross the process boundary as one text `key=value;key=value`. The keys
ascend; adding a key again replaces its value.
-/
namespace CameraParameters

open CString

abbrev Str := List Char

/-- `strchr`: what stands before the first `c`, and what follows it. -/
def strchr (c : Char) : Str → Option (Str × Str)
  | [] => none
  | d :: s => if d = c then some ([], s) else (strchr c s).map fun b => (d :: b.1, b.2)

section Text

def flattenLoop (flattened : Str) : Assoc Str Str → Str
  | [] => flattened
  | e :: m =>
    let flattened := flattened ++ e.1 ++ ['='] ++ e.2
    flattenLoop (if m.isEmpty then flattened else flattened ++ [';']) m

/-- The loop of `unflatten`, for a map with its way of adding a key. -/
def unflattenLoop {M : Type} (add : Str → Str → M → M) : Nat → Str → M → M
  | 0, _, m => m
  | fuel + 1, a, m =>
    match strchr '=' a with
    | none => m
    | some (k, a) =>
      match strchr ';' a with
      | none => add k a m  -- no semicolon: this is the last item
      | some (v, a) => unflattenLoop add fuel a (add k v m)

/-- What a text can carry: no key with `=`, no value with `;`. -/
def Legal (m : Assoc Str Str) : Prop := ∀ e ∈ m, '=' ∉ e.1 ∧ ';' ∉ e.2

/-- What stands before the first hit does not contain the character. -/
theorem strchr_some {c : Char} {s before rest : Str} (h : strchr c s = some (before, rest)) :
    s = before ++ c :: rest ∧ c ∉ before := by
  induction s generalizing before with
  | nil => cases h
  | cons d s ih =>
    rw [strchr] at h
    split_ifs at h with hd
    · cases h
      simp [hd]
    · obtain ⟨b, hb, heq⟩ := Option.map_eq_some_iff.mp h
      cases heq
      obtain ⟨hs, hc⟩ := ih hb
      simp [hs, hc, Ne.symm hd]

/-- The first hit is found where it was put. -/
theorem strchr_append {c : Char} {before : Str} (h : c ∉ before) (rest : Str) :
    strchr c (before ++ c :: rest) = some (before, rest) := by
  induction before with
  | nil => simp [strchr]
  | cons d before ih =>
    have hd : d ≠ c := fun he => h (he ▸ List.mem_cons_self)
    have hrest := ih fun hmem => h (List.mem_cons_of_mem d hmem)
    rw [List.cons_append, strchr, if_neg hd, hrest]
    rfl

theorem strchr_eq_none {c : Char} {s : Str} : strchr c s = none ↔ c ∉ s := by
  induction s with
  | nil => simp [strchr]
  | cons d s ih =>
    by_cases hd : d = c
    · simp [strchr, hd]
    · simp [strchr, hd, ih, Ne.symm hd]

/-- The loop only appends to the text it is given. -/
theorem flattenLoop_append (flattened : Str) (m : Assoc Str Str) :
    flattenLoop flattened m = flattened ++ flattenLoop [] m := by
  induction m generalizing flattened with
  | nil => simp [flattenLoop]
  | cons e m ih =>
    simp only [flattenLoop, List.nil_append]
    by_cases hlast : m.isEmpty
    · rw [if_pos hlast, if_pos hlast, ih, ih (e.1 ++ ['='] ++ e.2)]
      simp
    · rw [if_neg hlast, if_neg hlast, ih, ih (e.1 ++ ['='] ++ e.2 ++ [';'])]
      simp

theorem flattenLoop_single (e : Str × Str) : flattenLoop [] [e] = e.1 ++ '=' :: e.2 := by
  simp [flattenLoop]

/-- Between two entries stands one separator. -/
theorem flattenLoop_cons (e d : Str × Str) (m : Assoc Str Str) :
    flattenLoop [] (e :: d :: m) = e.1 ++ '=' :: (e.2 ++ ';' :: flattenLoop [] (d :: m)) := by
  rw [flattenLoop, flattenLoop_append]
  simp

/-- The fields of a text. What stands behind the last `;` counts only if it has a `=`. -/
inductive Fields : Str → Assoc Str Str → Prop
  | done {a : Str} : '=' ∉ a → Fields a []
  | last {k v : Str} : '=' ∉ k → ';' ∉ v → Fields (k ++ '=' :: v) [(k, v)]
  | more {k v a : Str} {m : Assoc Str Str} : '=' ∉ k → ';' ∉ v → Fields a m →
      Fields (k ++ '=' :: (v ++ ';' :: a)) ((k, v) :: m)

/-- The fields in their order, read by the loop itself. -/
def fields (params : Str) : Assoc Str Str :=
  unflattenLoop (fun k v m => m ++ [(k, v)]) (params.length + 1) params []

/-- Fields that were split at the separators hold none of them. -/
theorem Fields.legal {a : Str} {m : Assoc Str Str} (h : Fields a m) : Legal m := by
  induction h with
  | done _ =>
    intro e he
    cases he
  | last hk hv =>
    intro e he
    rw [List.mem_singleton.mp he]
    exact ⟨hk, hv⟩
  | more hk hv _ ih =>
    intro e he
    rcases List.mem_cons.mp he with rfl | hmem
    · exact ⟨hk, hv⟩
    · exact ih e hmem

/-- Every text has fields, by recursion on its length. -/
theorem exists_fields (a : Str) : ∃ m, Fields a m := by
  induction hn : a.length using Nat.strong_induction_on generalizing a with
  | _ n ih =>
    cases hkey : strchr '=' a with
    | none => exact ⟨[], .done (strchr_eq_none.mp hkey)⟩
    | some b =>
      obtain ⟨hb, hk⟩ := strchr_some hkey
      cases hvalue : strchr ';' b.2 with
      | none =>
        rw [hb]
        exact ⟨[(b.1, b.2)], .last hk (strchr_eq_none.mp hvalue)⟩
      | some d =>
        obtain ⟨hd, hv⟩ := strchr_some hvalue
        have hlen : d.2.length < n := by
          rw [← hn, hb, hd]
          simp only [List.length_append, List.length_cons]
          omega
        obtain ⟨m, hm⟩ := ih d.2.length hlen d.2 rfl
        rw [hb, hd]
        exact ⟨(b.1, d.1) :: m, .more hk hv hm⟩

/-- The loop adds the fields in their order, and it ends before the fuel does. -/
theorem Fields.loop {M : Type} (add : Str → Str → M → M) {a : Str} {n : Assoc Str Str}
    (h : Fields a n) {fuel : Nat} (hfuel : a.length < fuel) (m : M) :
    unflattenLoop add fuel a m = n.foldl (fun m e => add e.1 e.2 m) m := by
  induction h generalizing fuel m with
  | done hk =>
    cases fuel with
    | zero => rfl
    | succ fuel =>
      rw [unflattenLoop, strchr_eq_none.mpr hk]
      rfl
  | last hk hv =>
    cases fuel with
    | zero => omega
    | succ fuel =>
      rw [unflattenLoop, strchr_append hk]
      simp only [strchr_eq_none.mpr hv]
      rfl
  | more hk hv _ ih =>
    cases fuel with
    | zero => omega
    | succ fuel =>
      rw [unflattenLoop, strchr_append hk]
      simp only [strchr_append hv]
      simp only [List.length_append, List.length_cons] at hfuel
      rw [ih (by omega)]
      rfl

theorem foldl_append (n m : Assoc Str Str) :
    n.foldl (fun m e => m ++ [(e.1, e.2)]) m = m ++ n := by
  induction n generalizing m with
  | nil => simp
  | cons e n ih =>
    rw [List.foldl_cons, ih, List.append_assoc]
    rfl

theorem Fields.eq {params : Str} {n : Assoc Str Str} (h : Fields params n) : fields params = n :=
  (h.loop _ (Nat.lt_succ_self _) []).trans (foldl_append n [])

/-- The computable splitting is the relation of the loop. -/
theorem fields_spec (params : Str) : Fields params (fields params) := by
  obtain ⟨n, hn⟩ := exists_fields params
  rw [hn.eq]
  exact hn

/-- The fields of the text of a legal list are its entries. -/
theorem fields_flatten {m : Assoc Str Str} (hm : Legal m) : Fields (flattenLoop [] m) m := by
  induction m with
  | nil => exact .done (by simp [flattenLoop])
  | cons e m ih =>
    obtain ⟨hkey, hvalue⟩ := hm e List.mem_cons_self
    have hrest : Legal m := fun d hd => hm d (List.mem_cons_of_mem e hd)
    cases m with
    | nil =>
      rw [flattenLoop_single]
      exact .last hkey hvalue
    | cons d m =>
      rw [flattenLoop_cons]
      exact .more hkey hvalue (ih hrest)

end Text

section Operations

/-- A string that the text could not carry back. -/
def invalid (s : Str) : Bool := (strchr '=' s).isSome || (strchr ';' s).isSome

def flatten (m : Assoc Str Str) : Str := flattenLoop [] m

def unflatten (params : Str) : Assoc Str Str :=
  unflattenLoop Assoc.put (params.length + 1) params []

/-- The arguments are pointers: either may be null. -/
def set (m : Assoc Str Str) : Option Str → Option Str → Assoc Str Str
  | some key, some value =>
    if invalid key then m else if invalid value then m else Assoc.put key value m
  | _, _ => m

def setInt (m : Assoc Str Str) (key : Str) (value : Int) : Assoc Str Str :=
  set m (some key) (some (printDecimal value))

/-- `valueFor` gives the empty string for a key that is missing. -/
def get (m : Assoc Str Str) (key : Str) : Option Str :=
  let v := (Assoc.get m key).getD []
  if v.length = 0 then none else some v

def getInt (m : Assoc Str Str) (key : Str) : Int :=
  match get m key with
  | none => -1
  | some v => (strtol 0 v).1

def remove (m : Assoc Str Str) (key : Str) : Assoc Str Str := Assoc.erase m key

def isEmpty (m : Assoc Str Str) : Bool := List.isEmpty m

end Operations

section Runs

/-- The calls that change the parameters. -/
inductive Call
  | set (key value : Option Str)
  | setInt (key : Str) (value : Int)
  | remove (key : Str)
  | unflatten (params : Str)
  deriving DecidableEq

def call (m : Assoc Str Str) : Call → Assoc Str Str
  | .set key value => set m key value
  | .setInt key value => setInt m key value
  | .remove key => remove m key
  | .unflatten params => unflatten params

/-- Every state the calls lead to: the keys ascend, and the text can carry them. -/
def Sound (m : Assoc Str Str) : Prop := Assoc.Ascending m ∧ Legal m

/-- A key or value is accepted exactly when it holds no separator. -/
theorem invalid_eq_false {s : Str} : invalid s = false ↔ '=' ∉ s ∧ ';' ∉ s := by
  simp [invalid, Bool.or_eq_false_iff, strchr_eq_none]

/-- A printed number holds no separator. -/
theorem printDecimal_clean (value : Int) : '=' ∉ printDecimal value ∧ ';' ∉ printDecimal value := by
  constructor
  · intro h
    rcases mem_printDecimal h with hc | hc
    · exact absurd hc (by decide)
    · exact absurd hc (by decide)
  · intro h
    rcases mem_printDecimal h with hc | hc
    · exact absurd hc (by decide)
    · exact absurd hc (by decide)

/-- An entry without separators keeps the map sound. -/
theorem Sound.put {m : Assoc Str Str} (hm : Sound m) {k v : Str} (hk : '=' ∉ k) (hv : ';' ∉ v) :
    Sound (Assoc.put k v m) := by
  refine ⟨hm.1.put k v, fun e he => ?_⟩
  rcases Assoc.mem_put he with rfl | hmem
  · exact ⟨hk, hv⟩
  · exact hm.2 e hmem

theorem sound_nil : Sound [] := ⟨List.Pairwise.nil, fun _ he => by cases he⟩

theorem unflatten_eq {params : Str} {n : Assoc Str Str} (h : Fields params n) :
    unflatten params = n.foldl (fun m e => Assoc.put e.1 e.2 m) [] :=
  h.loop Assoc.put (Nat.lt_succ_self _) []

theorem Sound.puts {n : Assoc Str Str} (hn : Legal n) {m : Assoc Str Str} (hm : Sound m) :
    Sound (n.foldl (fun m e => Assoc.put e.1 e.2 m) m) := by
  induction n generalizing m with
  | nil => exact hm
  | cons e n ih =>
    obtain ⟨hk, hv⟩ := hn e List.mem_cons_self
    exact ih (fun d hd => hn d (List.mem_cons_of_mem e hd)) (hm.put hk hv)

/-- Whatever text is read, the map read from it is sound. -/
theorem sound_unflatten (params : Str) : Sound (unflatten params) := by
  rw [unflatten_eq (fields_spec params)]
  exact Sound.puts (fields_spec params).legal sound_nil

theorem Sound.set {m : Assoc Str Str} (hm : Sound m) (key value : Option Str) :
    Sound (set m key value) := by
  cases key with
  | none => exact hm
  | some key =>
    cases value with
    | none => exact hm
    | some value =>
      simp only [CameraParameters.set]
      split_ifs with hk hv
      · exact hm
      · exact hm
      · exact hm.put (invalid_eq_false.mp (by simpa using hk)).1
          (invalid_eq_false.mp (by simpa using hv)).2

theorem Sound.call {m : Assoc Str Str} (hm : Sound m) (c : Call) : Sound (call m c) := by
  cases c with
  | set key value => exact hm.set key value
  | setInt key value => exact hm.set (some key) (some (printDecimal value))
  | remove key => exact ⟨hm.1.erase key, fun e he => hm.2 e (Assoc.mem_erase.mp he).1⟩
  | unflatten params => exact sound_unflatten params

theorem sound_run (calls : List Call) {m : Assoc Str Str} (hm : Sound m) :
    Sound (calls.foldl call m) := by
  induction calls generalizing m with
  | nil => exact hm
  | cons c calls ih => exact ih (hm.call c)

theorem Sound.unflatten_flatten {m : Assoc Str Str} (hm : Sound m) : unflatten (flatten m) = m :=
  (unflatten_eq (fields_flatten hm.2)).trans (Assoc.foldl_put hm.1)

end Runs

section Registers

/-- The value a list of fields leaves under a key: that of the last field with this key. -/
def lastField (key : Str) (fields : Assoc Str Str) (old : Option Str) : Option Str :=
  fields.foldl (fun old e => if e.1 = key then some e.2 else old) old

/-- What a call makes of one key, seen alone. -/
def rewritten (key : Str) (old : Option Str) : Call → Option Str
  | .set (some k) (some v) =>
    if k = key ∧ invalid k = false ∧ invalid v = false then some v else old
  | .set _ _ => old
  | .setInt k value => if k = key ∧ invalid k = false then some (printDecimal value) else old
  | .remove k => if k = key then none else old
  | .unflatten params => lastField key (fields params) none

/-- Of several fields with one key the last is read back. -/
theorem get_puts (key : Str) (n m : Assoc Str Str) :
    Assoc.get (n.foldl (fun m e => Assoc.put e.1 e.2 m) m) key =
      lastField key n (Assoc.get m key) := by
  induction n generalizing m with
  | nil => rfl
  | cons e n ih =>
    rw [List.foldl_cons, ih, Assoc.get_put, lastField, lastField, List.foldl_cons]
    simp only [eq_comm]

/-- `set` is seen under its key, unless a separator makes it refused. -/
theorem get_set (m : Assoc Str Str) (key k v : Str) :
    Assoc.get (set m (some k) (some v)) key =
      if k = key ∧ invalid k = false ∧ invalid v = false then some v else Assoc.get m key := by
  simp only [set]
  cases hk : invalid k with
  | true => simp
  | false =>
    cases hv : invalid v with
    | true => simp
    | false =>
      simp only [Bool.false_eq_true, if_false, Assoc.get_put, and_true, eq_comm]

/-- A call changes a key as if there were no other keys. -/
theorem get_call (m : Assoc Str Str) (key : Str) (c : Call) :
    Assoc.get (call m c) key = rewritten key (Assoc.get m key) c := by
  cases c with
  | set k v =>
    cases k with
    | none => rfl
    | some k =>
      cases v with
      | none => rfl
      | some v => exact get_set m key k v
  | setInt k value =>
    have hprint : invalid (printDecimal value) = false :=
      invalid_eq_false.mpr (printDecimal_clean value)
    have hset := get_set m key k (printDecimal value)
    simp only [hprint, and_true] at hset
    exact hset
  | remove k =>
    have herase := Assoc.get_erase m key k
    simp only [eq_comm (a := key)] at herase
    exact herase
  | unflatten params =>
    have hputs := get_puts key (fields params) []
    rw [← unflatten_eq (fields_spec params)] at hputs
    exact hputs

theorem get_run (m : Assoc Str Str) (key : Str) (calls : List Call) :
    Assoc.get (calls.foldl call m) key = calls.foldl (rewritten key) (Assoc.get m key) := by
  induction calls generalizing m with
  | nil => rfl
  | cons c calls ih => rw [List.foldl_cons, List.foldl_cons, ih, get_call]

/-- Each key is a register of its own: after any calls `get` gives what the last call that
rewrites the key left there, and a null pointer for the empty string. -/
theorem parameters_registers (calls : List Call) (key : Str) :
    get (calls.foldl call []) key =
      (calls.foldl (rewritten key) none).filter fun v => v ≠ [] := by
  have hrun := get_run [] key calls
  rw [Assoc.get_nil] at hrun
  simp only [get, hrun]
  cases calls.foldl (rewritten key) none with
  | none => rfl
  | some v =>
    cases v with
    | nil => rfl
    | cons d v => simp [Option.filter]

end Registers

end CameraParameters
