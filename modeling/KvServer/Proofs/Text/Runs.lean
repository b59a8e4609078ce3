import KvServer.Text.Blank

/-!
# Maximal runs

`Runs` says, without any splitting, what the maximal runs of characters that are not blank are.  A
text has exactly one such list of runs, and it is the list of its fields (`runs_iff`).
-/

namespace KvServer.Text

/-- The code points with the property `White_Space`. -/
def whiteSpace : List Nat :=
  [0x09, 0x0A, 0x0B, 0x0C, 0x0D, 0x20, 0x85, 0xA0, 0x1680, 0x2000, 0x2001, 0x2002, 0x2003, 0x2004,
    0x2005, 0x2006, 0x2007, 0x2008, 0x2009, 0x200A, 0x2028, 0x2029, 0x202F, 0x205F, 0x3000]

theorem isBlank_iff {c : Char} : isBlank c = true ↔ c.toNat ∈ whiteSpace := by
  simp only [isBlank, covers, blankRanges, whiteSpace, List.any_cons, List.any_nil, Bool.or_false,
    Bool.or_eq_true, Bool.and_eq_true, decide_eq_true_eq, List.mem_cons, List.not_mem_nil, or_false]
  omega

theorem isBlank_eq_false_iff {c : Char} : isBlank c = false ↔ c.toNat ∉ whiteSpace := by
  rw [← isBlank_iff, Bool.not_eq_true]

theorem atBlank_iff {cs : List Char} :
    atBlank cs = true ↔ ∀ c ∈ cs.head?, c.toNat ∈ whiteSpace := by
  cases cs with
  | nil => simp [atBlank]
  | cons c cs => simp [atBlank, isBlank_iff]

/-- A field is not empty and has no blank. -/
structure IsField (w : List Char) : Prop where
  nonempty : w ≠ []
  free : ∀ c ∈ w, c.toNat ∉ whiteSpace

theorem dropWhile_isBlank_of_free {w : List Char} (h : ∀ c ∈ w, isBlank c = false) :
    w.dropWhile isBlank = w := by
  cases w with
  | nil => rfl
  | cons c w => exact List.dropWhile_cons_of_neg (by simp [h c List.mem_cons_self])

/-- A field has nothing to trim. -/
theorem IsField.trim_eq {w : List Char} (h : IsField w) : trim w = w := by
  have hfree : ∀ c ∈ w, isBlank c = false := fun c hc ↦ isBlank_eq_false_iff.mpr (h.free c hc)
  have hback : ∀ c ∈ w.reverse, isBlank c = false :=
    fun c hc ↦ hfree c (List.mem_reverse.mp hc)
  rw [trim, dropWhile_isBlank_of_free hfree, dropWhile_isBlank_of_free hback, List.reverse_reverse]

/-- `ws` are the maximal runs of characters of `cs` that are not blank, in order. -/
inductive Runs : (cs : List Char) → (ws : List (List Char)) → Prop
  | blank {pad : List Char} (hpad : ∀ c ∈ pad, c.toNat ∈ whiteSpace) : Runs pad []
  | run {pad w rest : List Char} {ws : List (List Char)}
      (hpad : ∀ c ∈ pad, c.toNat ∈ whiteSpace) (hw : IsField w)
      (hend : ∀ c ∈ rest.head?, c.toNat ∈ whiteSpace) (hrest : Runs rest ws) :
      Runs (pad ++ (w ++ rest)) (w :: ws)

theorem Runs.fields_eq {cs : List Char} {ws : List (List Char)} (h : Runs cs ws) :
    fields cs = ws := by
  induction h with
  | @blank pad hpad =>
      have hfields := fields_blank_append (fun c hc ↦ isBlank_iff.mpr (hpad c hc)) []
      rwa [List.append_nil] at hfields
  | @run pad w rest ws hpad hw hend _ ih =>
      have hfree : ∀ c ∈ w, isBlank c = false := fun c hc ↦
        isBlank_eq_false_iff.mpr (hw.free c hc)
      rw [fields_blank_append fun c hc ↦ isBlank_iff.mpr (hpad c hc),
        fields_append hw.nonempty hfree (atBlank_iff.mpr hend), ih]

theorem Runs.cons_blank {c : Char} {cs : List Char} {ws : List (List Char)}
    (hc : c.toNat ∈ whiteSpace) (h : Runs cs ws) : Runs (c :: cs) ws := by
  cases h with
  | blank hpad => exact .blank (List.forall_mem_cons.mpr ⟨hc, hpad⟩)
  | @run pad w rest ws hpad hw hend hrest =>
      exact @Runs.run (c :: pad) _ _ _ (List.forall_mem_cons.mpr ⟨hc, hpad⟩) hw hend hrest

/-- A character before a text that begins with a run belongs to this run. -/
theorem Runs.cons_run {c d : Char} {cs w : List Char} {ws : List (List Char)}
    (hc : c.toNat ∉ whiteSpace) (hd : d.toNat ∉ whiteSpace) (h : Runs (d :: cs) (w :: ws)) :
    Runs (c :: d :: cs) ((c :: w) :: ws) := by
  generalize htext : d :: cs = text at h
  cases h with
  | @run pad w rest ws hpad hw hend hrest =>
      cases pad with
      | nil =>
          have hlonger : IsField (c :: w) := ⟨by simp, List.forall_mem_cons.mpr ⟨hc, hw.free⟩⟩
          exact @Runs.run [] (c :: w) _ _ (by simp) hlonger hend hrest
      | cons e pad =>
          obtain ⟨rfl, -⟩ := List.cons.inj htext
          exact absurd (hpad d (by simp)) hd

theorem Runs.head_blank {cs : List Char} (h : Runs cs []) :
    ∀ c ∈ cs.head?, c.toNat ∈ whiteSpace := by
  cases h with
  | blank hpad => exact fun c hc ↦ hpad c (List.mem_of_mem_head? hc)

theorem runs_fields (cs : List Char) : Runs cs (fields cs) := by
  induction cs with
  | nil => exact .blank (by simp)
  | cons c cs ih =>
      rw [fields]
      split
      · exact ih.cons_blank (isBlank_iff.mp ‹_›)
      · rename_i hc
        rw [isBlank_iff] at hc
        split
        · rename_i hcs
          exact @Runs.run [] [c] _ _ (by simp) ⟨by simp, by simpa using hc⟩
            (atBlank_iff.mp hcs) ih
        · rename_i hcs
          rw [atBlank_iff] at hcs
          cases hfields : fields cs with
          | nil =>
              rw [hfields] at ih
              exact absurd ih.head_blank hcs
          | cons w ws =>
              rw [hfields] at ih
              cases cs with
              | nil => exact absurd (by simp) hcs
              | cons d cs => exact ih.cons_run hc fun hd ↦ hcs (by simpa using hd)

/-- A text has exactly one list of maximal runs, that of its fields. -/
theorem runs_iff {cs : List Char} {ws : List (List Char)} : Runs cs ws ↔ fields cs = ws := by
  constructor
  · exact Runs.fields_eq
  · rintro rfl
    exact runs_fields cs

theorem isField_of_mem {cs w : List Char} (h : w ∈ fields cs) : IsField w :=
  ⟨fields_nonempty cs w h, fun c hc ↦ isBlank_eq_false_iff.mp (fields_free cs w h c hc)⟩

end KvServer.Text
