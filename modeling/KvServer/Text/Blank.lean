/-!
# Blanks and fields

A blank is a character with the Unicode property `White_Space`.  The fields of a text are its
maximal runs of other characters.  `fields_append` takes a finished field off the front, and
`fields_nonempty` and `fields_free` say that every field has a character and no blank.
-/

namespace KvServer.Text

/-- The first and last code points of each run of blanks. -/
def blankRanges : List (Nat × Nat) :=
  [(0x09, 0x0D), (0x20, 0x20), (0x85, 0x85), (0xA0, 0xA0), (0x1680, 0x1680), (0x2000, 0x200A),
    (0x2028, 0x2029), (0x202F, 0x202F), (0x205F, 0x205F), (0x3000, 0x3000)]

def covers (ranges : List (Nat × Nat)) (n : Nat) : Bool :=
  ranges.any fun r ↦ r.1 ≤ n && n ≤ r.2

def isBlank (c : Char) : Bool := covers blankRanges c.toNat

def atBlank (cs : List Char) : Bool := cs.head?.all isBlank

/-- The fields with `c` put before the first of them. -/
def extendFirst (c : Char) : List (List Char) → List (List Char)
  | [] => [[c]]
  | w :: ws => (c :: w) :: ws

/-- The maximal runs of characters that are not blank, in order. -/
def fields : List Char → List (List Char)
  | [] => []
  | c :: cs =>
      if isBlank c then fields cs
      else if atBlank cs then [c] :: fields cs
      else extendFirst c (fields cs)

/-- A text without the blanks at its ends. -/
def trim (cs : List Char) : List Char :=
  ((cs.dropWhile isBlank).reverse.dropWhile isBlank).reverse

@[simp] theorem fields_nil : fields [] = [] := rfl

theorem fields_cons_blank {c : Char} (h : isBlank c = true) (cs : List Char) :
    fields (c :: cs) = fields cs := by simp [fields, h]

theorem fields_blank_append {pad : List Char} (h : ∀ c ∈ pad, isBlank c = true)
    (cs : List Char) : fields (pad ++ cs) = fields cs := by
  induction pad with
  | nil => rfl
  | cons c pad ih =>
      rw [List.cons_append, fields_cons_blank (h c (by simp))]
      exact ih fun d hd ↦ h d (by simp [hd])

/-- A run of other characters is one field when it ends the text or a blank follows it. -/
theorem fields_append {w : List Char} (hw : w ≠ [])
    (hfree : ∀ c ∈ w, isBlank c = false) {rest : List Char} (hrest : atBlank rest = true) :
    fields (w ++ rest) = w :: fields rest := by
  induction w with
  | nil => exact absurd rfl hw
  | cons c w ih =>
      have hc := hfree c (by simp)
      cases w with
      | nil => simp [fields, hc, hrest]
      | cons d w =>
          have hd := hfree d (by simp)
          have hih := ih (by simp) fun e he ↦ hfree e (by simp [he])
          rw [List.cons_append, fields, hih]
          simp [hc, hd, atBlank, extendFirst]

theorem fields_nonempty (cs : List Char) : ∀ w ∈ fields cs, w ≠ [] := by
  induction cs with
  | nil => simp
  | cons c cs ih =>
      rw [fields]
      split
      · exact ih
      · split
        · simpa using ih
        · cases hf : fields cs with
          | nil => simp [extendFirst]
          | cons v vs =>
              rw [hf] at ih
              simpa [extendFirst] using fun w hw ↦ ih w (by simp [hw])

theorem fields_free (cs : List Char) : ∀ w ∈ fields cs, ∀ c ∈ w, isBlank c = false := by
  induction cs with
  | nil => simp
  | cons c cs ih =>
      rw [fields]
      split
      · exact ih
      · rename_i hc
        split
        · simpa [hc] using ih
        · cases hf : fields cs with
          | nil => simp [extendFirst, hc]
          | cons v vs =>
              rw [hf] at ih
              simp only [extendFirst, List.mem_cons, forall_eq_or_imp]
              refine ⟨⟨by simpa using hc, ih v (by simp)⟩, fun w hw ↦ ih w (by simp [hw])⟩

end KvServer.Text
