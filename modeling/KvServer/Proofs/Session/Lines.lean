import KvServer.Session.Framing

/-!
# Lines

What a reader takes off its input are the lines of the bytes that have come in, one after the other
and as long as they fit into a frame.  `front` looks at the first of them only; `lines` tells them
all, and what is left after the last.
-/

namespace KvServer

open Text

/-- The lines of some bytes, each with its line feed, and the bytes after the last of them. -/
def lines : Bytes → List Bytes × Bytes
  | [] => ([], [])
  | b :: bs =>
      if b = 0x0A then ([b] :: (lines bs).1, (lines bs).2)
      else match lines bs with
        | ([], rest) => ([], b :: rest)
        | (l :: ls, rest) => ((b :: l) :: ls, rest)

/-- No frame of the bytes is too long. -/
def Fits (bs : Bytes) : Prop :=
  (∀ l ∈ (lines bs).1, l.length ≤ maxFrame) ∧ (lines bs).2.length < maxFrame

/-- The bytes are the beginning of a frame. -/
def Unfinished (bs : Bytes) : Prop := lines bs = ([], bs) ∧ bs.length < maxFrame

instance (bs : Bytes) : Decidable (Fits bs) := inferInstanceAs (Decidable (_ ∧ _))

instance (bs : Bytes) : Decidable (Unfinished bs) := inferInstanceAs (Decidable (_ ∧ _))

theorem lines_nil : lines [] = ([], []) := rfl

theorem unfinished_nil : Unfinished [] := by decide

theorem lines_cons_feed (bs : Bytes) :
    lines (0x0A :: bs) = ([0x0A] :: (lines bs).1, (lines bs).2) := rfl

theorem lines_cons_of_nil {b : UInt8} {bs rest : Bytes} (hb : b ≠ 0x0A)
    (h : lines bs = ([], rest)) : lines (b :: bs) = ([], b :: rest) := by
  simp [lines, hb, h]

theorem lines_cons_of_cons {b : UInt8} {bs l rest : Bytes} {ls : List Bytes} (hb : b ≠ 0x0A)
    (h : lines bs = (l :: ls, rest)) : lines (b :: bs) = ((b :: l) :: ls, rest) := by
  simp [lines, hb, h]

/-- The first line ends with the first line feed. -/
theorem lines_append_feed {l : Bytes} (h : 0x0A ∉ l) (rest : Bytes) :
    lines (l ++ 0x0A :: rest) = ((l ++ [0x0A]) :: (lines rest).1, (lines rest).2) := by
  induction l with
  | nil => rfl
  | cons b l ih =>
      simp only [List.mem_cons, not_or] at h
      exact lines_cons_of_cons (Ne.symm h.1) (ih h.2)

/-- Bytes that end with a line feed and have no other. -/
def IsLine (l : Bytes) : Prop := ∃ body, l = body ++ [0x0A] ∧ 0x0A ∉ body

theorem lines_of_not_mem {bs : Bytes} (h : 0x0A ∉ bs) : lines bs = ([], bs) := by
  induction bs with
  | nil => rfl
  | cons b bs ih =>
      simp only [List.mem_cons, not_or] at h
      exact lines_cons_of_nil (Ne.symm h.1) (ih h.2)

/-- Lines are found again in front of any bytes. -/
theorem lines_flatten_append {ls : List Bytes} (h : ∀ l ∈ ls, IsLine l) (bs : Bytes) :
    lines (ls.flatten ++ bs) = (ls ++ (lines bs).1, (lines bs).2) := by
  induction ls with
  | nil => rfl
  | cons l ls ih =>
      obtain ⟨body, rfl, hbody⟩ := h l (by simp)
      have hrest := ih fun l hl ↦ h l (List.mem_cons_of_mem _ hl)
      have hfirst := lines_append_feed hbody (ls.flatten ++ bs)
      rw [hrest] at hfirst
      simpa using hfirst

theorem flatten_lines (bs : Bytes) : (lines bs).1.flatten ++ (lines bs).2 = bs := by
  induction bs with
  | nil => rfl
  | cons b bs ih =>
      by_cases hb : b = 0x0A
      · subst hb
        rw [lines_cons_feed, List.flatten_cons, List.append_assoc, ih]
        rfl
      · rcases h : lines bs with ⟨_ | ⟨l, ls⟩, rest⟩
        · rw [h] at ih
          rw [lines_cons_of_nil hb h, ← ih]
          rfl
        · rw [h] at ih
          rw [lines_cons_of_cons hb h, ← ih]
          rfl

theorem isLine_of_mem_lines {bs l : Bytes} (h : l ∈ (lines bs).1) : IsLine l := by
  induction bs generalizing l with
  | nil => cases h
  | cons b bs ih =>
      by_cases hb : b = 0x0A
      · subst hb
        rw [lines_cons_feed] at h
        rcases List.mem_cons.mp h with rfl | h
        · exact ⟨[], rfl, by simp⟩
        · exact ih h
      · rcases hlines : lines bs with ⟨_ | ⟨first, ls⟩, rest⟩
        · rw [lines_cons_of_nil hb hlines] at h
          cases h
        · rw [hlines] at ih
          rw [lines_cons_of_cons hb hlines] at h
          rcases List.mem_cons.mp h with rfl | h
          · obtain ⟨body, rfl, hbody⟩ := ih List.mem_cons_self
            exact ⟨b :: body, rfl, by simp [Ne.symm hb, hbody]⟩
          · exact ih (List.mem_cons_of_mem _ h)

theorem not_mem_rest (bs : Bytes) : 0x0A ∉ (lines bs).2 := by
  induction bs with
  | nil => simp [lines_nil]
  | cons b bs ih =>
      by_cases hb : b = 0x0A
      · subst hb
        exact ih
      · rcases hlines : lines bs with ⟨_ | ⟨first, ls⟩, rest⟩
        · rw [hlines] at ih
          rw [lines_cons_of_nil hb hlines]
          simp [Ne.symm hb, ih]
        · rw [hlines] at ih
          rw [lines_cons_of_cons hb hlines]
          exact ih

/-- The front of bytes is their first line, unless there is none or it is too long. -/
theorem front_eq (limit : Nat) (bs : Bytes) :
    match lines bs with
    | ([], rest) => rest = bs ∧ front limit bs = if bs.length < limit then .short else .overlong
    | (l :: ls, rest) => ∃ after, lines after = (ls, rest) ∧
        front limit bs = if l.length ≤ limit then .line l after else .overlong := by
  induction bs generalizing limit with
  | nil =>
      rw [lines_nil]
      cases limit with
      | zero => exact ⟨rfl, rfl⟩
      | succ limit => exact ⟨rfl, rfl⟩
  | cons b bs ih =>
      by_cases hb : b = 0x0A
      · subst hb
        rw [lines_cons_feed]
        refine ⟨bs, rfl, ?_⟩
        cases limit with
        | zero => rfl
        | succ limit => simp [front]
      · cases limit with
        | zero =>
            have hzero := ih 0
            rcases h : lines bs with ⟨_ | ⟨l, ls⟩, rest⟩
            · rw [h] at hzero
              rw [lines_cons_of_nil hb h]
              exact ⟨by rw [hzero.1], rfl⟩
            · rw [h] at hzero
              obtain ⟨after, hafter, -⟩ := hzero
              rw [lines_cons_of_cons hb h]
              exact ⟨after, hafter, rfl⟩
        | succ limit =>
            have hrest := ih limit
            rcases h : lines bs with ⟨_ | ⟨l, ls⟩, rest⟩
            · rw [h] at hrest
              rw [lines_cons_of_nil hb h]
              refine ⟨by rw [hrest.1], ?_⟩
              simp only [front, hb, if_false, hrest.2, List.length_cons, Nat.add_lt_add_iff_right]
              split <;> rfl
            · rw [h] at hrest
              obtain ⟨after, hafter, hfront⟩ := hrest
              rw [lines_cons_of_cons hb h]
              refine ⟨after, hafter, ?_⟩
              simp only [front, hb, if_false, hfront, List.length_cons, Nat.add_le_add_iff_right]
              split <;> rfl

theorem lines_of_no_line {bs : Bytes} (h : (lines bs).1 = []) : lines bs = ([], bs) := by
  have hflatten := flatten_lines bs
  rw [h] at hflatten
  exact Prod.ext h hflatten

theorem lines_rest (bs : Bytes) : lines (lines bs).2 = ([], (lines bs).2) := by
  induction bs with
  | nil => rfl
  | cons b bs ih =>
      by_cases hb : b = 0x0A
      · subst hb
        exact ih
      · rcases h : lines bs with ⟨_ | ⟨l, ls⟩, rest⟩
        · rw [lines_cons_of_nil hb h]
          rw [h] at ih
          exact lines_cons_of_nil hb ih
        · rw [lines_cons_of_cons hb h]
          rw [h] at ih
          exact ih

theorem Fits.unfinished_rest {bs : Bytes} (h : Fits bs) : Unfinished (lines bs).2 :=
  ⟨lines_rest bs, h.2⟩

theorem Fits.unfinished {bs : Bytes} (h : Fits bs) (hlines : (lines bs).1 = []) :
    Unfinished bs := by
  have hrest := h.2
  have hall := lines_of_no_line hlines
  rw [hall] at hrest
  exact ⟨hall, hrest⟩

theorem Fits.of_line {bs after l : Bytes} (h : Fits bs)
    (hlines : lines bs = (l :: (lines after).1, (lines after).2)) : Fits after := by
  obtain ⟨hframes, hrest⟩ := h
  rw [hlines] at hframes hrest
  exact ⟨fun l hl ↦ hframes l (List.mem_cons_of_mem _ hl), hrest⟩

namespace Inbox

variable {i : Inbox}

theorem next_of_open (h : Unfinished i.unread) (hopen : i.inputEnd = none) : i.next = .wait := by
  have hfront := front_eq maxFrame i.unread
  rw [h.1, if_pos h.2] at hfront
  simp [next, hfront.2, hopen]

/-- A reader takes the first line as a frame; if there is none it waits. -/
theorem next_of_fits (h : Fits i.unread) (hopen : i.inputEnd = none) :
    ((lines i.unread).1 = [] ∧ i.next = .wait) ∨
      ∃ l after, lines i.unread = (l :: (lines after).1, (lines after).2) ∧
        i.next = .frame l { i with unread := after } := by
  rcases hlines : lines i.unread with ⟨_ | ⟨l, ls⟩, rest⟩
  · exact Or.inl ⟨rfl, next_of_open (h.unfinished (by rw [hlines])) hopen⟩
  · have hfront := front_eq maxFrame i.unread
    rw [hlines] at hfront
    obtain ⟨after, hafter, hline⟩ := hfront
    have hfits : l.length ≤ maxFrame := h.1 l (by simp [hlines])
    rw [if_pos hfits] at hline
    exact Or.inr ⟨l, after, by rw [hafter], by simp [next, hline]⟩

theorem next_of_ended {e : InputEnd} (h : Unfinished i.unread) (hended : i.inputEnd = some e) :
    ∃ ending, i.next = .stop ending := by
  have hfront := front_eq maxFrame i.unread
  rw [h.1, if_pos h.2] at hfront
  cases e with
  | closed =>
      obtain ⟨unread, inputEnd⟩ := i
      obtain rfl : inputEnd = some .closed := hended
      cases unread with
      | nil => exact ⟨.closed, by simp [next, hfront.2]⟩
      | cons b bs => exact ⟨.truncated (b :: bs).length, by simp [next, hfront.2]⟩
  | failed message => simp [next, hended, hfront.2]

end Inbox

end KvServer
