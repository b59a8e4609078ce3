import KvServer.Proofs.Settings.Layers
import KvServer.Proofs.Settings.Limits

/-!
# Which value stands for a name

The keys of a layer may lead to places inside a name as well, and several keys may be for one
name.  The last of them decides what the name stands for (`Layer.alike_assign`): its value if the
key is the name, and something that no setting takes if it leads inside.  So a setting is what the
environment states for it, else what the file does (`Settings.alike_stated`).
-/

namespace KvServer

open Text

/-! ## Values -/

namespace Value

/-- A value of a kind that settings take: no table, no list and not nothing. -/
def IsScalar : Value → Prop
  | text _ | integer _ | real _ | flag _ => True
  | nothing | table _ | list _ => False

def IsTable : Value → Prop
  | table _ => True
  | nothing | text _ | integer _ | real _ | flag _ | list _ => False

variable {v w old new : Value}

theorem text?_of_not_isScalar (h : ¬ v.IsScalar) : v.text? = none := by
  cases v with
  | nothing | table | list => rfl
  | text | integer | real | flag => exact absurd trivial h

theorem word?_of_not_isScalar (h : ¬ v.IsScalar) : v.word? = none := by
  cases v with
  | nothing | table | list => rfl
  | text | integer | real | flag => exact absurd trivial h

theorem flag?_of_not_isScalar (h : ¬ v.IsScalar) : v.flag? = none := by
  cases v with
  | nothing | table | list => rfl
  | text | integer | real | flag => exact absurd trivial h

theorem port?_of_not_isScalar (h : ¬ v.IsScalar) : v.port? = none := by
  rw [port?, word?_of_not_isScalar h, Option.map_none]

/-- Two places are the same for every setting: they hold the same, or neither holds a scalar. -/
def Alike (a b : Option Value) : Prop :=
  a = b ∨ ∃ v w, a = some v ∧ b = some w ∧ ¬ v.IsScalar ∧ ¬ w.IsScalar

theorem alike_some (hv : ¬ v.IsScalar) (hw : ¬ w.IsScalar) : Alike (some v) (some w) :=
  .inr ⟨v, w, rfl, rfl, hv, hw⟩

theorem Alike.trans {a b c : Option Value} (hab : Alike a b) (hbc : Alike b c) : Alike a c := by
  rcases hab with rfl | ⟨v, w, rfl, rfl, hv, hw⟩
  · exact hbc
  · rcases hbc with rfl | ⟨w', x, hw', rfl, -, hx⟩
    · exact alike_some hv hw
    · exact alike_some hv hx

theorem Alike.or_left {a b : Option Value} (h : Alike a b) (c : Option Value) :
    Alike (c.or a) (c.or b) := by
  cases c with
  | none => simpa using h
  | some v => exact .inl rfl

theorem Alike.not_isScalar {a b : Option Value} (h : Alike a b) (hb : ∀ w ∈ b, ¬ w.IsScalar) :
    ∀ v ∈ a, ¬ v.IsScalar := by
  rcases h with rfl | ⟨v, w, rfl, rfl, hv, -⟩
  · exact hb
  · intro v' hv'
    obtain rfl := Option.some.inj hv'
    exact hv

theorem not_isScalar_mergeEntries (h : ¬ old.IsScalar) (es : List (String × Value)) :
    ¬ (mergeEntries old es).IsScalar := by
  induction es generalizing old with
  | nil =>
      rw [mergeEntries]
      exact h
  | cons e es ih =>
      rw [mergeEntries]
      exact ih id

/-- A table in a place that holds no scalar leaves none there. -/
theorem alike_merge (h : v.IsTable → ¬ old.IsScalar) : Alike (some (merge old v)) (some v) := by
  cases v with
  | table es =>
      refine alike_some ?_ id
      rw [merge]
      exact not_isScalar_mergeEntries (h trivial) es
  | nothing | text | integer | real | flag | list => exact .inl (by rw [merge]; simp)

/-- On the way to a place inside, a table or a list is made. -/
theorem not_isScalar_of_assign {step : Step} {path : List Step}
    (h : assign v (step :: path) old = some new) : ¬ new.IsScalar := by
  cases step with
  | entry name =>
      cases path with
      | nil =>
          rw [assign_entry] at h
          obtain rfl := Option.some.inj h
          exact id
      | cons step path =>
          obtain ⟨inner, -, rfl⟩ := Option.map_eq_some_iff.mp h
          exact id
  | item index =>
      simp only [assign, Option.bind_eq_bind, Option.bind_eq_some_iff, Option.some.injEq] at h
      obtain ⟨i, -, inner, -, rfl⟩ := h
      exact id

end Value

/-! ## Keys -/

namespace Key

variable {key name : String}

theorem eq_nil_of_steps {fuel : Nat} {cs : List Char} (h : steps? fuel cs = some []) : cs = [] := by
  unfold steps? at h
  split at h
  · cases h
  · rfl
  · simp at h
  · split at h
    · simp at h
    · cases h
  · cases h

theorem exists_path_eq (key : String) : ∃ name steps, path key = .entry name :: steps := by
  rw [path]
  split
  · split <;> exact ⟨_, _, rfl⟩
  · exact ⟨_, _, rfl⟩

/-- Only a name leads to itself. -/
theorem eq_of_path_eq (h : path key = [.entry name]) : key = name := by
  rw [path] at h
  split at h
  next steps hsteps =>
    split at h
    · simpa using h
    next hname =>
      obtain ⟨hname, rfl⟩ : .ofList (key.toList.takeWhile isNameChar) = name ∧ steps = [] := by
        simpa using h
      have hsplit := key.toList.takeWhile_append_dropWhile (p := isNameChar)
      rw [eq_nil_of_steps hsteps, List.append_nil] at hsplit
      rw [← hname, hsplit, String.ofList_toList]
  · simpa using h

end Key

/-! ## Layers -/

namespace Layer

variable {layer : Layer} {tree new : Value} {key : String} {v : Value}

/-- What a key gives to a name.  A value for a place inside is none of the name itself. -/
def given? (name key : String) (v : Value) : Option Value :=
  if (Key.path key).head? = some (.entry name) then
    some (if Key.path key = [.entry name] then v else .nothing)
  else none

/-- What the last key for a name gives to it. -/
def value? (name : String) : Layer → Option Value
  | [] => none
  | (key, v) :: layer => (value? name layer).or (given? name key v)

theorem value?_append (name : String) (a b : Layer) :
    value? name (a ++ b) = (value? name b).or (value? name a) := by
  induction a with
  | nil => rw [List.nil_append, value?, Option.or_none]
  | cons e a ih => rw [List.cons_append, value?, value?, ih, Option.or_assoc]

theorem given?_of_path {top : String} {steps : List Value.Step}
    (hpath : Key.path key = .entry top :: steps) (name : String) (v : Value) :
    given? name key v =
      if name = top then some (if steps = [] then v else .nothing) else none := by
  rw [given?, hpath]
  by_cases hname : name = top
  · simp [hname]
  · simp [hname, Ne.symm hname]

theorem not_isScalar_of_given {name : String} (hne : key ≠ name) :
    ∀ w ∈ given? name key v, ¬ w.IsScalar := by
  intro w hw
  rw [given?, if_neg (mt Key.eq_of_path_eq hne)] at hw
  split at hw
  · obtain rfl := Option.some.inj hw
    exact id
  · cases hw

/-- A value that is put into a tree is what its name stands for then. -/
theorem alike_given (htable : v.IsTable → ∀ old ∈ tree.get? key, ¬ old.IsScalar)
    (h : Value.assign v (Key.path key) tree = some new) (name : String) :
    Value.Alike (new.get? name) ((given? name key v).or (tree.get? name)) := by
  obtain ⟨top, steps, hpath⟩ := Key.exists_path_eq key
  rw [given?_of_path hpath]
  rw [hpath] at h
  cases steps with
  | nil =>
      obtain rfl := Key.eq_of_path_eq hpath
      rw [Value.assign_entry] at h
      obtain rfl := Option.some.inj h
      rw [Value.get?_set]
      by_cases hname : name = key
      · subst hname
        rw [if_pos rfl, if_pos rfl, if_pos rfl, Option.some_or]
        refine Value.alike_merge fun hv ↦ ?_
        cases hold : tree.get? name with
        | none => exact id
        | some old => exact htable hv old hold
      · rw [if_neg hname, if_neg hname]
        exact .inl rfl
  | cons step steps =>
      obtain ⟨inner, hinner, rfl⟩ := Option.map_eq_some_iff.mp h
      rw [Value.get?_set]
      by_cases hname : name = top
      · rw [if_pos hname, if_pos hname, if_neg (List.cons_ne_nil _ _), Option.some_or]
        exact Value.alike_some (Value.not_isScalar_of_assign hinner) id
      · rw [if_neg hname, if_neg hname]
        exact .inl rfl

/-- Where no table comes after another value for its key, the last key for a name decides what the
name stands for. -/
theorem alike_assign (hdistinct : layer.Pairwise fun a b ↦ b.2.IsTable → a.1 ≠ b.1)
    (htables : ∀ e ∈ layer, e.2.IsTable → ∀ old ∈ tree.get? e.1, ¬ old.IsScalar)
    (h : layer.assign tree = .ok new) (name : String) :
    Value.Alike (new.get? name) ((layer.value? name).or (tree.get? name)) := by
  induction layer generalizing tree with
  | nil =>
      obtain rfl := Except.ok.inj h
      exact .inl rfl
  | cons e layer ih =>
      obtain ⟨key, v⟩ := e
      obtain ⟨hkey, hdistinct⟩ := List.pairwise_cons.mp hdistinct
      obtain ⟨htable, htables⟩ := List.forall_mem_cons.mp htables
      rw [assign] at h
      split at h
      next next hnext =>
        have hgiven := alike_given htable hnext
        have htables' : ∀ e ∈ layer, e.2.IsTable → ∀ old ∈ next.get? e.1, ¬ old.IsScalar := by
          intro e he htable
          refine (hgiven e.1).not_isScalar fun w hw ↦ ?_
          rcases Option.or_eq_some_iff.mp hw with hw | ⟨-, hw⟩
          · exact not_isScalar_of_given (hkey e he htable) w hw
          · exact htables e he htable w hw
        rw [value?, Option.or_assoc]
        exact (ih hdistinct htables' h).trans ((hgiven name).or_left _)
      · cases h

/-- Where the keys are plain and differ, a name stands for the value of its key. -/
theorem value?_eq_lookup (hplain : ∀ e ∈ layer, Key.Plain e.1)
    (hdistinct : (layer.map (·.1)).Nodup) (name : String) :
    layer.lookup name = value? name layer := by
  induction layer with
  | nil => rfl
  | cons e layer ih =>
      obtain ⟨key, v⟩ := e
      obtain ⟨hnew, hdistinct⟩ := List.nodup_cons.mp hdistinct
      obtain ⟨hkey, hplain⟩ := List.forall_mem_cons.mp hplain
      rw [value?, ← ih hplain hdistinct, given?_of_path (Key.path_of_plain hkey), List.lookup_cons]
      by_cases hname : name = key
      · subst hname
        have hnone : layer.lookup name = none := by
          rw [List.lookup_eq_none_iff]
          rintro e he
          simpa using fun h ↦ hnew (List.mem_map.mpr ⟨e, he, h.symm⟩)
        simp [hnone]
      · simp [beq_eq_false_iff_ne.mpr hname, hname]

theorem exists_assign_of_plain (hplain : ∀ e ∈ layer, Key.Plain e.1) (tree : Value) :
    ∃ new, layer.assign tree = .ok new := by
  induction layer generalizing tree with
  | nil => exact ⟨tree, rfl⟩
  | cons e layer ih =>
      obtain ⟨hkey, hplain⟩ := List.forall_mem_cons.mp hplain
      rw [assign, Key.path_of_plain hkey, Value.assign_entry]
      exact ih hplain _

end Layer

namespace Settings

/-- What is stated for a setting: what the environment gives to it, else what the file does. -/
def stated? (file : Layer) (env : List (String × String)) (f : Field) : Option Value :=
  (Layer.value? f.name (.ofEnvironment env)).or (Layer.value? f.name file)

variable {content? : Option Bytes} {file : Layer} {env : List (String × String)} {values : Value}

theorem not_isTable_of_environment (env : List (String × String)) :
    ∀ e ∈ Layer.ofEnvironment env, ¬ e.2.IsTable := by
  intro e he
  obtain ⟨v, -, hentry⟩ := List.mem_filterMap.mp he
  obtain ⟨key, -, rfl⟩ := Option.map_eq_some_iff.mp hentry
  exact id

/-- The tree of a file and an environment has what is stated for a setting. -/
theorem alike_stated (hfile : fileLayer content? = .ok file)
    (htree : tree file (.ofEnvironment env) = .ok values) (f : Field) :
    Value.Alike (values.get? f.name) (stated? file env f) := by
  have htexts := not_isTable_of_environment env
  have hdistinct :
      (file ++ Layer.ofEnvironment env).Pairwise fun a b ↦ b.2.IsTable → a.1 ≠ b.1 := by
    refine List.pairwise_append.mpr ⟨?_, ?_, fun a _ b hb htable ↦ absurd htable (htexts b hb)⟩
    · apply (List.pairwise_map.mp (nodup_of_fileLayer hfile)).imp
      exact fun hne _ ↦ hne
    · exact List.pairwise_of_forall_mem_list fun a _ b hb htable ↦ absurd htable (htexts b hb)
  have hassign := eq_ok_of_mapError htree
  have halike := Layer.alike_assign hdistinct (fun e _ _ old hold ↦ by cases hold) hassign f.name
  rwa [Layer.value?_append, show (Value.table []).get? f.name = none from rfl, Option.or_none]
    at halike

end Settings

end KvServer
