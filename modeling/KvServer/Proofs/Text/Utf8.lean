import KvServer.Text.Utf8

/-!
# Decoding undoes encoding

`Move.Spells` says which bytes finish a character after a move.  A first byte and the bytes that
finish its character are together the code of that character, and nothing else is
(`encodeChar_of_spells`, `spells_of_encodeChar`).  So bytes decode to a text exactly if they are its
code (`decode_eq_ok_iff`), and bytes that are the code of no text are refused.
-/

namespace KvServer.Text

/-! ## One character -/

/-- The bytes that finish a character after a move. -/
inductive Move.Spells : Move → Bytes → Char → Prop
  | done (c : Char) : (Move.emit c).Spells [] c
  | more {s : Begun} {b : UInt8} {bs : Bytes} {c : Char} (hb : s.accepts b = true)
      (hrest : (s.next b).Spells bs c) : (Move.wait s).Spells (b :: bs) c

theorem toNat_val_ofNat {n : Nat} (h : n.isValidChar) : (Char.ofNat n).val.toNat = n := by
  rw [Char.ofNat, dif_pos h]
  rfl

theorem accepts_iff {s : Begun} {b : UInt8} :
    s.accepts b = true ↔ s.low.toNat ≤ b.toNat ∧ b.toNat ≤ s.high.toNat := by
  simp [Begun.accepts, UInt8.le_iff_toNat_le]

theorem accepts_ite_iff {bits owed seen : Nat} {p q : Prop} [Decidable p] [Decidable q]
    {x y z w b : UInt8} :
    Begun.accepts ⟨bits, owed, if p then x else y, if q then z else w, seen⟩ b = true ↔
      ((p → x.toNat ≤ b.toNat) ∧ (¬ p → y.toNat ≤ b.toNat)) ∧
        (q → b.toNat ≤ z.toNat) ∧ (¬ q → b.toNat ≤ w.toNat) := by
  by_cases p <;> by_cases q <;> simp_all [accepts_iff]

theorem encodeChar_one {a : UInt8} (ha : a.toNat < 0x80) :
    String.utf8EncodeChar (Char.ofNat a.toNat) = [a] := by
  have hval := toNat_val_ofNat (n := a.toNat) (by
    unfold Nat.isValidChar
    omega)
  unfold String.utf8EncodeChar
  simp only [hval]
  rw [if_pos (by omega), UInt8.ofNat_toNat]

theorem encodeChar_two {a b : UInt8} (ha : 0xC2 ≤ a.toNat) (ha' : a.toNat < 0xE0)
    (hb : 0x80 ≤ b.toNat) (hb' : b.toNat ≤ 0xBF) :
    String.utf8EncodeChar (Char.ofNat ((a.toNat - 0xC0) * 64 + (b.toNat - 0x80))) = [a, b] := by
  have hval := toNat_val_ofNat (n := (a.toNat - 0xC0) * 64 + (b.toNat - 0x80)) (by
    unfold Nat.isValidChar
    omega)
  unfold String.utf8EncodeChar
  simp only [hval]
  rw [if_neg (by omega), if_pos (by omega)]
  simp only [List.cons.injEq, ← UInt8.toNat_inj, UInt8.toNat_ofNat', and_true]
  omega

theorem encodeChar_three {a b c : UInt8} (ha : 0xE0 ≤ a.toNat) (ha' : a.toNat < 0xF0)
    (hb : 0x80 ≤ b.toNat) (hb' : b.toNat ≤ 0xBF) (hlong : a.toNat = 0xE0 → 0xA0 ≤ b.toNat)
    (hscalar : a.toNat = 0xED → b.toNat ≤ 0x9F) (hc : 0x80 ≤ c.toNat) (hc' : c.toNat ≤ 0xBF) :
    String.utf8EncodeChar (Char.ofNat
      (((a.toNat - 0xE0) * 64 + (b.toNat - 0x80)) * 64 + (c.toNat - 0x80))) = [a, b, c] := by
  have hval := toNat_val_ofNat
    (n := ((a.toNat - 0xE0) * 64 + (b.toNat - 0x80)) * 64 + (c.toNat - 0x80)) (by
      unfold Nat.isValidChar
      omega)
  unfold String.utf8EncodeChar
  simp only [hval]
  rw [if_neg (by omega), if_neg (by omega), if_pos (by omega)]
  simp only [List.cons.injEq, ← UInt8.toNat_inj, UInt8.toNat_ofNat', and_true]
  omega

theorem encodeChar_four {a b c d : UInt8} (ha : 0xF0 ≤ a.toNat) (ha' : a.toNat < 0xF5)
    (hb : 0x80 ≤ b.toNat) (hb' : b.toNat ≤ 0xBF) (hlong : a.toNat = 0xF0 → 0x90 ≤ b.toNat)
    (hscalar : a.toNat = 0xF4 → b.toNat ≤ 0x8F) (hc : 0x80 ≤ c.toNat) (hc' : c.toNat ≤ 0xBF)
    (hd : 0x80 ≤ d.toNat) (hd' : d.toNat ≤ 0xBF) :
    String.utf8EncodeChar (Char.ofNat
      ((((a.toNat - 0xF0) * 64 + (b.toNat - 0x80)) * 64 + (c.toNat - 0x80)) * 64 +
        (d.toNat - 0x80))) = [a, b, c, d] := by
  have hval := toNat_val_ofNat
    (n := (((a.toNat - 0xF0) * 64 + (b.toNat - 0x80)) * 64 + (c.toNat - 0x80)) * 64 +
      (d.toNat - 0x80)) (by
      unfold Nat.isValidChar
      omega)
  unfold String.utf8EncodeChar
  simp only [hval]
  rw [if_neg (by omega), if_neg (by omega), if_neg (by omega)]
  simp only [List.cons.injEq, ← UInt8.toNat_inj, UInt8.toNat_ofNat', and_true]
  omega

theorem first_eq (a : UInt8) :
    Move.first a =
      if a.toNat < 0x80 then .emit (Char.ofNat a.toNat)
      else if a.toNat < 0xC2 then .refuse
      else if a.toNat < 0xE0 then .wait ⟨a.toNat - 0xC0, 1, 0x80, 0xBF, 1⟩
      else if a.toNat < 0xF0 then
        .wait ⟨a.toNat - 0xE0, 2, if a.toNat = 0xE0 then 0xA0 else 0x80,
          if a.toNat = 0xED then 0x9F else 0xBF, 1⟩
      else if a.toNat < 0xF5 then
        .wait ⟨a.toNat - 0xF0, 3, if a.toNat = 0xF0 then 0x90 else 0x80,
          if a.toNat = 0xF4 then 0x8F else 0xBF, 1⟩
      else .refuse := by
  simp only [Move.first, UInt8.lt_iff_toNat_lt, ← UInt8.toNat_inj]
  rfl

theorem spells_emit_iff {d c : Char} {bs : Bytes} :
    (Move.emit d).Spells bs c ↔ bs = [] ∧ c = d := by
  constructor
  · intro h
    cases h
    exact ⟨rfl, rfl⟩
  · rintro ⟨rfl, rfl⟩
    exact .done c

theorem spells_wait_iff {s : Begun} {bs : Bytes} {c : Char} :
    (Move.wait s).Spells bs c ↔
      ∃ b rest, bs = b :: rest ∧ s.accepts b = true ∧ (s.next b).Spells rest c := by
  constructor
  · intro h
    cases h with
    | more hb hrest => exact ⟨_, _, rfl, hb, hrest⟩
  · rintro ⟨b, rest, rfl, hb, hrest⟩
    exact .more hb hrest

theorem next_last (bits seen : Nat) (low high b : UInt8) :
    Begun.next ⟨bits, 1, low, high, seen⟩ b = .emit (Char.ofNat (bits * 64 + (b.toNat - 0x80))) :=
  rfl

theorem next_more (bits owed seen : Nat) (low high b : UInt8) :
    Begun.next ⟨bits, owed + 2, low, high, seen⟩ b =
      .wait ⟨bits * 64 + (b.toNat - 0x80), owed + 1, 0x80, 0xBF, seen + 1⟩ := by
  simp [Begun.next]

/-- What the moves from a first byte spell is the code of a character. -/
theorem encodeChar_of_spells {a : UInt8} {bs : Bytes} {c : Char}
    (h : (Move.first a).Spells bs c) : String.utf8EncodeChar c = a :: bs := by
  rw [first_eq] at h
  split at h
  · obtain ⟨rfl, hchar⟩ := spells_emit_iff.mp h
    rw [hchar]
    exact encodeChar_one ‹_›
  split at h
  · cases h
  split at h
  · obtain ⟨b, bs, rfl, hb, h⟩ := spells_wait_iff.mp h
    obtain ⟨rfl, hchar⟩ := spells_emit_iff.mp h
    rw [accepts_iff] at hb
    rw [hchar]
    exact encodeChar_two (by omega) (by omega) hb.1 hb.2
  split at h
  · obtain ⟨b, bs, rfl, hb, h⟩ := spells_wait_iff.mp h
    rw [next_more] at h
    obtain ⟨d, bs, rfl, hd, h⟩ := spells_wait_iff.mp h
    obtain ⟨rfl, hchar⟩ := spells_emit_iff.mp h
    rw [accepts_iff] at hd
    simp only [accepts_ite_iff, UInt8.reduceToNat] at hb
    rw [hchar]
    exact encodeChar_three (by omega) (by omega) (by omega) (by omega) (by omega) (by omega)
      hd.1 hd.2
  split at h
  · obtain ⟨b, bs, rfl, hb, h⟩ := spells_wait_iff.mp h
    rw [next_more] at h
    obtain ⟨d, bs, rfl, hd, h⟩ := spells_wait_iff.mp h
    rw [next_more] at h
    obtain ⟨e, bs, rfl, he, h⟩ := spells_wait_iff.mp h
    obtain ⟨rfl, hchar⟩ := spells_emit_iff.mp h
    rw [accepts_iff] at hd he
    simp only [accepts_ite_iff, UInt8.reduceToNat] at hb
    rw [hchar]
    exact encodeChar_four (by omega) (by omega) (by omega) (by omega) (by omega) (by omega)
      hd.1 hd.2 he.1 he.2
  · cases h

theorem accepts_tail {bits owed seen : Nat} (n : Nat) :
    Begun.accepts ⟨bits, owed, 0x80, 0xBF, seen⟩ (UInt8.ofNat (n % 64 + 0x80)) = true := by
  rw [accepts_iff]
  simp only [UInt8.toNat_ofNat', UInt8.reduceToNat]
  omega

theorem toNat_tail (n : Nat) : (UInt8.ofNat (n % 64 + 0x80)).toNat - 0x80 = n % 64 := by
  rw [UInt8.toNat_ofNat']
  omega

/-- The last byte of the code of a character. -/
theorem spells_last {bits seen v : Nat} (h : bits = v / 64) :
    (Move.wait ⟨bits, 1, 0x80, 0xBF, seen⟩).Spells [UInt8.ofNat (v % 64 + 0x80)]
      (Char.ofNat v) := by
  refine .more (accepts_tail v) ?_
  have hv : bits * 64 + v % 64 = v := by omega
  rw [next_last, toNat_tail, hv]
  exact .done _

theorem spells_last_two {bits seen v : Nat} (h : bits = v / 4096) :
    (Move.wait ⟨bits, 2, 0x80, 0xBF, seen⟩).Spells
      [UInt8.ofNat (v / 64 % 64 + 0x80), UInt8.ofNat (v % 64 + 0x80)] (Char.ofNat v) := by
  refine .more (accepts_tail (v / 64)) ?_
  rw [next_more, toNat_tail]
  exact spells_last (by omega)

/-- The moves from a first byte spell the code of a character. -/
theorem spells_of_encodeChar {a : UInt8} {bs : Bytes} {c : Char}
    (h : String.utf8EncodeChar c = a :: bs) : (Move.first a).Spells bs c := by
  have hvalid : c.val.toNat < 0xD800 ∨ 0xDFFF < c.val.toNat ∧ c.val.toNat < 0x110000 := c.valid
  have hchar : Char.ofNat c.val.toNat = c := Char.ofNat_toNat c
  unfold String.utf8EncodeChar at h
  generalize c.val.toNat = v at h hvalid hchar
  subst hchar
  simp only at h
  split at h
  · obtain ⟨rfl, rfl⟩ := List.cons.inj h
    have hv : (UInt8.ofNat v).toNat = v := by
      rw [UInt8.toNat_ofNat']
      omega
    rw [first_eq, hv, if_pos (by omega)]
    exact .done _
  split at h
  · obtain ⟨hfirst, rfl⟩ := List.cons.inj h
    have ha : a.toNat = v / 64 + 0xC0 := by
      rw [← hfirst, UInt8.toNat_ofNat']
      omega
    rw [first_eq, if_neg (by omega), if_neg (by omega), if_pos (by omega)]
    exact spells_last (by omega)
  split at h
  · obtain ⟨hfirst, rfl⟩ := List.cons.inj h
    have ha : a.toNat = v / 4096 + 0xE0 := by
      rw [← hfirst, UInt8.toNat_ofNat']
      omega
    rw [first_eq, if_neg (by omega), if_neg (by omega), if_neg (by omega), if_pos (by omega)]
    refine .more (accepts_ite_iff.mpr ?_) ?_
    · simp only [UInt8.toNat_ofNat', UInt8.reduceToNat]
      omega
    · rw [next_more, toNat_tail]
      exact spells_last (by omega)
  · obtain ⟨hfirst, rfl⟩ := List.cons.inj h
    have ha : a.toNat = v / 262144 + 0xF0 := by
      rw [← hfirst, UInt8.toNat_ofNat']
      omega
    rw [first_eq, if_neg (by omega), if_neg (by omega), if_neg (by omega), if_neg (by omega),
      if_pos (by omega)]
    refine .more (accepts_ite_iff.mpr ?_) ?_
    · simp only [UInt8.toNat_ofNat', UInt8.reduceToNat]
      omega
    · rw [next_more, toNat_tail]
      exact spells_last_two (by omega)

/-! ## Texts -/

/-- What is read from the bytes after a move. -/
def Move.goOn (bs : Bytes) : Move → List Piece
  | .emit c => .char c :: piecesFrom none bs
  | .wait s => piecesFrom (some s) bs
  | .refuse => .malformed 1 :: piecesFrom none bs

theorem piecesFrom_cons (s? : Option Begun) (b : UInt8) (bs : Bytes) :
    piecesFrom s? (b :: bs) = (Move.after s? b).1 ++ (Move.after s? b).2.goOn bs := by
  cases s? <;> rfl

theorem Move.Spells.goOn_append {m : Move} {bs : Bytes} {c : Char} (h : m.Spells bs c)
    (rest : Bytes) : m.goOn (bs ++ rest) = .char c :: piecesFrom none rest := by
  induction h with
  | done c => rfl
  | more hb _ ih =>
      rw [goOn, List.cons_append, piecesFrom_cons, after, if_pos hb]
      exact ih

theorem pieces_encode (cs : List Char) : pieces (encode cs) = cs.map .char := by
  induction cs with
  | nil => rfl
  | cons c cs ih =>
      obtain ⟨a, bs, hcode⟩ := List.exists_cons_of_ne_nil (String.utf8EncodeChar_ne_nil (c := c))
      rw [encode, List.flatMap_cons, hcode, pieces, List.cons_append, piecesFrom_cons,
        List.map_cons, ← ih]
      exact (spells_of_encodeChar hcode).goOn_append _

theorem encode_append (cs ds : List Char) : encode (cs ++ ds) = encode cs ++ encode ds :=
  List.flatMap_append

/-- A byte below `0x80` stands for the character with its number and occurs in no other code. -/
theorem mem_encodeChar_iff {b : UInt8} (hb : b.toNat < 0x80) {c : Char} :
    b ∈ String.utf8EncodeChar c ↔ c.val.toNat = b.toNat := by
  unfold String.utf8EncodeChar
  generalize c.val.toNat = v
  simp only
  repeat' split
  all_goals
    simp only [List.mem_cons, List.not_mem_nil, or_false, ← UInt8.toNat_inj, UInt8.toNat_ofNat']
    omega

theorem mem_encode_iff {b : UInt8} (hb : b.toNat < 0x80) {cs : List Char} :
    b ∈ encode cs ↔ ∃ c ∈ cs, c.val.toNat = b.toNat := by
  simp only [encode, List.mem_flatMap, mem_encodeChar_iff hb]

theorem join_map_char (index : Nat) (cs : List Char) : join index (cs.map .char) = .ok cs := by
  induction cs generalizing index with
  | nil => rfl
  | cons c cs ih =>
      rw [List.map_cons, join, ih]
      rfl

theorem decode_encode (cs : List Char) : decode (encode cs) = .ok cs := by
  rw [decode, pieces_encode, join_map_char]

theorem join_char_eq_ok {index : Nat} {c : Char} {ps : List Piece} {cs : List Char}
    (h : join index (.char c :: ps) = .ok cs) :
    ∃ rest, cs = c :: rest ∧ join (index + c.utf8Size) ps = .ok rest := by
  rw [join] at h
  cases hrest : join (index + c.utf8Size) ps with
  | error e =>
      rw [hrest] at h
      cases h
  | ok rest =>
      rw [hrest] at h
      cases h
      exact ⟨rest, rfl, rfl⟩

/-- Bytes without a fault begin with those that finish the character. -/
theorem exists_spells {index : Nat} {m : Move} {bs : Bytes} {cs : List Char}
    (h : join index (m.goOn bs) = .ok cs) :
    ∃ own rest c later i, bs = own ++ rest ∧ m.Spells own c ∧ cs = c :: later ∧
      join i (piecesFrom none rest) = .ok later := by
  induction bs generalizing m with
  | nil =>
      cases m with
      | emit c =>
          obtain ⟨later, rfl, hlater⟩ := join_char_eq_ok h
          exact ⟨[], [], c, later, _, rfl, .done c, rfl, hlater⟩
      | wait s => cases h
      | refuse => cases h
  | cons b bs ih =>
      cases m with
      | emit c =>
          obtain ⟨later, rfl, hlater⟩ := join_char_eq_ok h
          exact ⟨[], b :: bs, c, later, _, rfl, .done c, rfl, hlater⟩
      | wait s =>
          rw [Move.goOn, piecesFrom_cons, Move.after] at h
          split at h
          · obtain ⟨own, rest, c, later, i, rfl, hown, rfl, hlater⟩ := ih h
            exact ⟨b :: own, rest, c, later, i, rfl, .more ‹_› hown, rfl, hlater⟩
          · cases h
      | refuse => cases h

theorem encode_of_join {index : Nat} {bs : Bytes} {cs : List Char}
    (h : join index (piecesFrom none bs) = .ok cs) : encode cs = bs := by
  match bs with
  | [] =>
      cases h
      rfl
  | b :: bs =>
      rw [piecesFrom_cons] at h
      obtain ⟨own, rest, c, later, i, hbs, hown, rfl, hlater⟩ := exists_spells h
      have hshorter : rest.length < (b :: bs).length := by
        rw [hbs, List.length_cons, List.length_append]
        omega
      have hrest := encode_of_join hlater
      rw [encode, List.flatMap_cons, encodeChar_of_spells hown, hbs]
      exact congrArg (b :: own ++ ·) hrest
termination_by bs.length

/-- Bytes decode to a text exactly if they are its code. -/
theorem decode_eq_ok_iff {bs : Bytes} {cs : List Char} : decode bs = .ok cs ↔ encode cs = bs := by
  constructor
  · exact encode_of_join
  · rintro rfl
    exact decode_encode cs

/-- Bytes are refused exactly if they are the code of no text. -/
theorem exists_decode_eq_error_iff {bs : Bytes} :
    (∃ f, decode bs = .error f) ↔ ∀ cs, encode cs ≠ bs := by
  constructor
  · rintro ⟨f, hf⟩ cs hcs
    rw [decode_eq_ok_iff.mpr hcs] at hf
    cases hf
  · intro h
    cases hdecode : decode bs with
    | error f => exact ⟨f, rfl⟩
    | ok cs => exact absurd (decode_eq_ok_iff.mp hdecode) (h cs)

theorem encode_injective {cs ds : List Char} (h : encode cs = encode ds) : cs = ds := by
  have hdecode := decode_encode cs
  rw [h, decode_encode] at hdecode
  exact (Except.ok.inj hdecode).symm

end KvServer.Text
