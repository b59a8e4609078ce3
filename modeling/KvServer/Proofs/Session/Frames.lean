import KvServer.Proofs.Session.Lines

/-!
# Frames of an input

`framing` says, by the segments of a whole input, which frames are in it and how it ends: the lines
before the first segment that is too long, or all lines.  A reader has seen only the beginning of an
input.  The frames that it has taken are frames of the whole (`taken_prefix_framing`), and when it
stops they are all of them (`framing_of_stop`).
-/

namespace KvServer

open Text

/-- The lines of an input, and last what comes after them. -/
def segments (bs : Bytes) : List Bytes := (lines bs).1 ++ [(lines bs).2]

/-- As many bytes as a frame may have, without a line feed among them. -/
def Overlong (bs : Bytes) : Prop := maxFrame ≤ bs.length ∧ 0x0A ∉ bs.take maxFrame

instance : DecidablePred Overlong := fun bs ↦
  inferInstanceAs (Decidable (maxFrame ≤ bs.length ∧ 0x0A ∉ bs.take maxFrame))

/-- How an input ends when nothing in it is too long. -/
def InputEnd.ending (tail : Bytes) : InputEnd → Ending
  | .closed => if tail = [] then .closed else .truncated tail.length
  | .failed message => .io message

/-- The frames of an input, and why there are no more. -/
def framing (bs : Bytes) (e : InputEnd) : List Bytes × Ending :=
  if ∃ p ∈ segments bs, Overlong p then
    ((segments bs).takeWhile fun p ↦ ¬ Overlong p, .frameTooLong)
  else ((lines bs).1, e.ending (lines bs).2)

/-- What a reader may take as a frame. -/
structure IsFrame (f : Bytes) : Prop where
  isLine : IsLine f
  length_le : f.length ≤ maxFrame

/-! ## The front of some bytes -/

theorem Front.push_eq_line_iff {b : UInt8} {f : Front} {l rest : Bytes} :
    f.push b = .line l rest ↔ ∃ l', l = b :: l' ∧ f = .line l' rest := by
  cases f with
  | line first after =>
      simp only [push, line.injEq]
      constructor
      · rintro ⟨rfl, rfl⟩
        exact ⟨first, rfl, rfl, rfl⟩
      · rintro ⟨l', rfl, rfl, rfl⟩
        exact ⟨rfl, rfl⟩
  | overlong => simp [push]
  | short => simp [push]

theorem Front.push_eq_overlong_iff {b : UInt8} {f : Front} :
    f.push b = .overlong ↔ f = .overlong := by
  cases f <;> simp [push]

theorem Front.push_eq_short_iff {b : UInt8} {f : Front} : f.push b = .short ↔ f = .short := by
  cases f <;> simp [push]

theorem front_eq_overlong_iff {limit : Nat} {bs : Bytes} :
    front limit bs = .overlong ↔ limit ≤ bs.length ∧ 0x0A ∉ bs.take limit := by
  induction limit generalizing bs with
  | zero => simp [front]
  | succ limit ih =>
      cases bs with
      | nil => simp [front]
      | cons b bs =>
          by_cases hb : b = 0x0A
          · simp [front, hb]
          · simp [front, hb, Front.push_eq_overlong_iff, ih, Ne.symm hb]

theorem front_eq_short_iff {limit : Nat} {bs : Bytes} :
    front limit bs = .short ↔ bs.length < limit ∧ 0x0A ∉ bs := by
  induction limit generalizing bs with
  | zero => simp [front]
  | succ limit ih =>
      cases bs with
      | nil => simp [front]
      | cons b bs =>
          by_cases hb : b = 0x0A
          · simp [front, hb]
          · simp [front, hb, Front.push_eq_short_iff, ih, Ne.symm hb]

theorem front_eq_line {limit : Nat} {bs l rest : Bytes} (h : front limit bs = .line l rest) :
    bs = l ++ rest ∧ IsLine l ∧ l.length ≤ limit := by
  induction limit generalizing bs l with
  | zero => cases h
  | succ limit ih =>
      cases bs with
      | nil => cases h
      | cons b bs =>
          by_cases hb : b = 0x0A
          · simp only [front, hb, if_true, Front.line.injEq] at h
            obtain ⟨rfl, rfl⟩ := h
            exact ⟨by rw [hb]; rfl, ⟨[], rfl, by simp⟩, by simp⟩
          · rw [front, if_neg hb, Front.push_eq_line_iff] at h
            obtain ⟨l, rfl, hl⟩ := h
            obtain ⟨rfl, ⟨body, rfl, hbody⟩, hlength⟩ := ih hl
            refine ⟨rfl, ⟨b :: body, rfl, by simp [Ne.symm hb, hbody]⟩, ?_⟩
            simpa using hlength

namespace Inbox

variable {i : Inbox}

/-- A frame is the first line of what is unread. -/
theorem next_eq_frame {f : Bytes} {rest : Inbox} (h : i.next = .frame f rest) :
    IsFrame f ∧ i.unread = f ++ rest.unread ∧ rest.inputEnd = i.inputEnd := by
  unfold next at h
  split at h
  · rename_i l after hfront
    cases h
    obtain ⟨hunread, hline, hlength⟩ := front_eq_line hfront
    exact ⟨⟨hline, hlength⟩, hunread, rfl⟩
  · cases h
  · split at h <;> cases h

/-- A reader stops for what is too long, or at the end of an input that is not. -/
theorem next_eq_stop {e : Ending} (h : i.next = .stop e) :
    (e = .frameTooLong ∧ Overlong i.unread) ∨
      ∃ ended, i.inputEnd = some ended ∧ e = ended.ending i.unread ∧
        i.unread.length < maxFrame ∧ 0x0A ∉ i.unread := by
  unfold next at h
  split at h
  · cases h
  · rename_i hfront
    cases h
    exact Or.inl ⟨rfl, front_eq_overlong_iff.mp hfront⟩
  · rename_i hfront
    obtain ⟨hlength, hfeed⟩ := front_eq_short_iff.mp hfront
    refine Or.inr ?_
    obtain ⟨unread, inputEnd⟩ := i
    cases inputEnd with
    | none => cases h
    | some ended =>
        refine ⟨ended, rfl, ?_, hlength, hfeed⟩
        cases ended with
        | closed =>
            cases unread with
            | nil =>
                cases h
                rfl
            | cons b bs =>
                cases h
                rfl
        | failed message =>
            cases h
            rfl

end Inbox

/-! ## The frames of an input -/

theorem Overlong.append {bs : Bytes} (h : Overlong bs) (more : Bytes) : Overlong (bs ++ more) := by
  obtain ⟨hlength, hfeed⟩ := h
  refine ⟨by simp only [List.length_append]; omega, ?_⟩
  rwa [List.take_append_of_le_length hlength]

/-- A line is too long exactly if it has more bytes than a frame may have. -/
theorem overlong_iff_of_isLine {l : Bytes} (h : IsLine l) : Overlong l ↔ maxFrame < l.length := by
  obtain ⟨body, rfl, hbody⟩ := h
  constructor
  · rintro ⟨-, hfeed⟩
    refine Nat.lt_of_not_le fun hle ↦ ?_
    rw [List.take_of_length_le hle] at hfeed
    simp at hfeed
  · intro hlt
    rw [List.length_append, List.length_singleton] at hlt
    have hlong : maxFrame ≤ body.length := by omega
    refine Overlong.append ⟨hlong, fun hmem ↦ hbody (List.mem_of_mem_take hmem)⟩ _

theorem IsFrame.not_overlong {f : Bytes} (h : IsFrame f) : ¬ Overlong f := by
  rw [overlong_iff_of_isLine h.isLine]
  exact Nat.not_lt.mpr h.length_le

theorem segments_flatten_append {fs : List Bytes} (h : ∀ f ∈ fs, IsLine f) (bs : Bytes) :
    segments (fs.flatten ++ bs) = fs ++ segments bs := by
  rw [segments, lines_flatten_append h, segments, List.append_assoc]

/-- Whether some bytes are too long is told by their first segment. -/
theorem exists_segments_eq_cons (bs : Bytes) :
    ∃ p ps, segments bs = p :: ps ∧ (Overlong bs ↔ Overlong p) := by
  rcases hlines : lines bs with ⟨_ | ⟨l, ls⟩, rest⟩
  · have hall := @lines_of_no_line bs (by rw [hlines])
    exact ⟨bs, [], by rw [segments, hall]; rfl, Iff.rfl⟩
  · have hflatten := flatten_lines bs
    have hline := @isLine_of_mem_lines bs l (by rw [hlines]; simp)
    rw [hlines, List.flatten_cons, List.append_assoc] at hflatten
    refine ⟨l, ls ++ [rest], by rw [segments, hlines]; rfl, ?_, ?_⟩
    · rintro ⟨-, hfeed⟩
      rw [overlong_iff_of_isLine hline]
      refine Nat.lt_of_not_le fun hle ↦ ?_
      obtain ⟨body, rfl, -⟩ := hline
      apply hfeed
      rw [← hflatten, List.take_append, List.take_of_length_le hle]
      simp
    · intro hlong
      rw [← hflatten]
      exact hlong.append _

/-- Frames in front of an input are frames of the whole. -/
theorem framing_flatten_append {fs : List Bytes} (h : ∀ f ∈ fs, IsFrame f) (bs : Bytes)
    (e : InputEnd) :
    framing (fs.flatten ++ bs) e = (fs ++ (framing bs e).1, (framing bs e).2) := by
  have hlines : ∀ f ∈ fs, IsLine f := fun f hf ↦ (h f hf).isLine
  have hexists : (∃ p ∈ fs ++ segments bs, Overlong p) ↔ ∃ p ∈ segments bs, Overlong p := by
    constructor
    · rintro ⟨p, hp, hlong⟩
      rcases List.mem_append.mp hp with hp | hp
      · exact absurd hlong (h p hp).not_overlong
      · exact ⟨p, hp, hlong⟩
    · rintro ⟨p, hp, hlong⟩
      exact ⟨p, List.mem_append_right _ hp, hlong⟩
  rw [framing, framing, segments_flatten_append hlines, lines_flatten_append hlines]
  by_cases hlong : ∃ p ∈ segments bs, Overlong p
  · rw [if_pos hlong, if_pos (hexists.mpr hlong), List.takeWhile_append_of_pos]
    intro f hf
    simpa using (h f hf).not_overlong
  · rw [if_neg hlong, if_neg (mt hexists.mp hlong)]

/-- What is cut off at the end of an input is not empty and not too long. -/
theorem truncated_lt {bs : Bytes} {e : InputEnd} {n : Nat} (h : (framing bs e).2 = .truncated n) :
    0 < n ∧ n < maxFrame := by
  unfold framing at h
  split at h
  · cases h
  · rename_i hnone
    cases e with
    | failed message => cases h
    | closed =>
        simp only [InputEnd.ending] at h
        split at h
        · cases h
        · rename_i htail
          obtain rfl := Ending.truncated.inj h
          refine ⟨List.length_pos_iff.mpr htail, Nat.lt_of_not_le fun hle ↦ hnone ?_⟩
          refine ⟨(lines bs).2, by simp [segments], hle, fun hmem ↦ ?_⟩
          exact not_mem_rest bs (List.mem_of_mem_take hmem)

/-- There is no frame where a reader stops. -/
theorem framing_of_stop {i : Inbox} {e : InputEnd} {x : Ending} (hended : i.inputEnd = some e)
    (hstop : i.next = .stop x) : framing i.unread e = ([], x) := by
  obtain ⟨p, ps, hsegments, hoverlong⟩ := exists_segments_eq_cons i.unread
  rcases Inbox.next_eq_stop hstop with ⟨rfl, hlong⟩ | ⟨e', he', rfl, hlength, hfeed⟩
  · have hp := hoverlong.mp hlong
    have hexists : ∃ p ∈ segments i.unread, Overlong p := ⟨p, by simp [hsegments], hp⟩
    rw [framing, if_pos hexists, hsegments]
    simp [hp]
  · rw [hended] at he'
    cases he'
    have hlines := lines_of_not_mem hfeed
    have hnone : ¬ ∃ p ∈ segments i.unread, Overlong p := by
      rintro ⟨q, hq, hlong, -⟩
      rw [segments, hlines] at hq
      obtain rfl : q = i.unread := List.mem_singleton.mp hq
      omega
    rw [framing, if_neg hnone, hlines]

namespace Inbox

variable {i : Inbox}

/-- A reader does not wait at the end of its input. -/
theorem next_ne_wait {e : InputEnd} (h : i.inputEnd = some e) : i.next ≠ .wait := by
  intro hwait
  obtain ⟨unread, inputEnd⟩ := i
  obtain rfl : inputEnd = some e := h
  unfold next at hwait
  split at hwait
  · cases hwait
  · cases hwait
  · cases e with
    | closed => cases unread <;> cases hwait
    | failed message => cases hwait

end Inbox

end KvServer
