import KvServer.Settings.Load
import Mathlib.Data.List.Nodup

/-!
# Keys and values of layers

A plain key leads to the entry of its name (`Key.path_of_plain`), and a value put there changes no
other entry (`Value.get?_set`).  The entries of a document always differ (`Toml.nodup_of_parse`),
and the environment gives a setting what the variable of its name says
(`Layer.lookup_ofEnvironment`).
-/

namespace KvServer

/-! ## Keys -/

namespace Key

variable {key : String}

/-- A key that leads to no place inside what has the name. -/
def Plain (key : String) : Prop := '.' ∉ key.toList ∧ '[' ∉ key.toList

instance (key : String) : Decidable (Plain key) := inferInstanceAs (Decidable (_ ∧ _))

theorem steps?_eq_none {c : Char} (hdot : c ≠ '.') (hbracket : c ≠ '[') (fuel : Nat)
    (cs : List Char) : steps? fuel (c :: cs) = none := by
  cases fuel with
  | zero => rfl
  | succ fuel => rw [steps?] <;> simp_all

theorem path_of_plain (h : Plain key) : path key = [.entry key] := by
  have hsplit := key.toList.takeWhile_append_dropWhile (p := isNameChar)
  rw [path]
  cases hinwards : key.toList.dropWhile isNameChar with
  | nil =>
      rw [hinwards, List.append_nil] at hsplit
      simp [steps?, hsplit]
  | cons c cs =>
      have hc : c ∈ key.toList := by
        rw [← hsplit, hinwards]
        simp
      have hdot : c ≠ '.' := fun hdot ↦ h.1 (hdot ▸ hc)
      have hbracket : c ≠ '[' := fun hbracket ↦ h.2 (hbracket ▸ hc)
      simp only [steps?_eq_none hdot hbracket]

end Key

/-! ## Trees of values -/

namespace Value

theorem lookup_setEntry (name other : String) (v : Value) (es : List (String × Value)) :
    (setEntry name v es).lookup other = if other = name then some v else es.lookup other := by
  induction es with
  | nil =>
      rw [setEntry, List.lookup_cons, List.lookup_nil]
      cases h : other == name <;> simp_all
  | cons e es ih =>
      rw [setEntry]
      split <;> grind

theorem get?_set (name other : String) (v old : Value) :
    (set name v old).get? other = if other = name then some v else old.get? other :=
  lookup_setEntry name other v old.entries

theorem assign_entry (name : String) (v old : Value) :
    assign v [.entry name] old =
      some (set name (merge ((old.get? name).getD (table [])) v) old) := by
  rw [assign, merge, mergeEntries, mergeEntries]

end Value

/-! ## Documents -/

namespace Toml

theorem nodup_of_distinct {names : List (List Char)} (h : distinct names = true) :
    names.Nodup := by
  induction names with
  | nil => exact .nil
  | cons name names ih => simp_all [distinct]

theorem names_of_entryValues {entries : Entries} {vs : List (String × Value)}
    (h : entryValues? entries = some vs) : vs.map (·.1) = entries.map fun e ↦ .ofList e.1 := by
  induction entries generalizing vs with
  | nil =>
      cases h
      rfl
  | cons e entries ih =>
      simp only [entryValues?, Option.bind_eq_bind, Option.bind_eq_some_iff, Option.some.injEq] at h
      obtain ⟨v, -, vs, hvs, rfl⟩ := h
      simp [ih hvs]

theorem nodup_of_tableValue {entries : Entries} {v : Value}
    (h : tableValue? entries (entryValues? entries) = some v) : (v.entries.map (·.1)).Nodup := by
  unfold tableValue? at h
  split at h
  · split at h
    · cases h
    · obtain ⟨m, -, rfl⟩ := Option.map_eq_some_iff.mp h
      exact .nil
  · cases h
  · split at h
    next hdistinct =>
      obtain ⟨vs, hvs, rfl⟩ := Option.map_eq_some_iff.mp h
      rw [Value.entries, List.map_reverse, List.nodup_reverse, names_of_entryValues hvs]
      have hnames := (nodup_of_distinct hdistinct).map fun _ _ ↦ String.ofList_injective
      rwa [List.map_map] at hnames
    · cases h

/-- The entries of a document have names that differ. -/
theorem nodup_of_parse {document : List Char} {entries : List (String × Value)}
    (h : parse? document = some entries) : (entries.map (·.1)).Nodup := by
  simp only [parse?, Option.bind_eq_bind, Option.bind_eq_some_iff, Option.map_eq_some_iff] at h
  obtain ⟨ts, -, lines, -, blocks, -, v, hv, rfl⟩ := h
  unfold rootValue? at hv
  split at hv
  · exact nodup_of_tableValue hv
  · obtain ⟨items, -, hv⟩ := Option.bind_eq_some_iff.mp hv
    exact nodup_of_tableValue hv

end Toml

theorem Settings.nodup_of_fileLayer {content? : Option Text.Bytes} {file : Layer}
    (h : fileLayer content? = .ok file) : (file.map (·.1)).Nodup := by
  unfold fileLayer at h
  split at h
  · split at h
    next hparse =>
      cases h
      exact Toml.nodup_of_parse hparse
    · cases h
  all_goals
    cases h
    exact .nil

/-! ## Variables -/

namespace Layer

/-- The name of the variable for a setting, in whatever case it is written. -/
def IsVariableOf (key name : String) : Prop :=
  name.toList.map lowerChar = ("kece_" ++ key).toList

instance (key name : String) : Decidable (IsVariableOf key name) :=
  inferInstanceAs (Decidable (_ = _))

theorem isVariableOf_iff {key name : String} :
    IsVariableOf key name ↔ variableKey? name = some key := by
  have hkey : ("kece_" ++ key).toList = 'k' :: 'e' :: 'c' :: 'e' :: '_' :: key.toList := by
    simp
  rw [IsVariableOf, hkey, variableKey?]
  split
  next cs hcs => simp [hcs, ← String.toList_inj]
  next hcs =>
    constructor
    · exact fun h ↦ absurd h (hcs _)
    · nofun

theorem keys_ofEnvironment (env : List (String × String)) :
    (ofEnvironment env).map (·.1) = env.filterMap fun v ↦ variableKey? v.1 := by
  simp [ofEnvironment, List.map_filterMap, Function.comp_def]

/-- The value of a key is what its variable says, the first one if there are several. -/
theorem lookup_ofEnvironment (env : List (String × String)) (key : String) :
    (ofEnvironment env).lookup key =
      (env.find? fun v ↦ IsVariableOf key v.1).map (.text ·.2) := by
  induction env with
  | nil => rfl
  | cons v env ih =>
      rw [ofEnvironment] at ih ⊢
      rw [List.find?_cons, List.filterMap_cons]
      cases hkey : variableKey? v.1 with
      | none => simp [isVariableOf_iff, hkey, ih]
      | some k =>
          by_cases h : key = k
          · simp [isVariableOf_iff, hkey, h]
          · have hne : (key == k) = false := beq_eq_false_iff_ne.mpr h
            simp [isVariableOf_iff, hkey, Ne.symm h, List.lookup_cons, hne, ih]

end Layer

end KvServer
