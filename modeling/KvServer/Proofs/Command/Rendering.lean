import KvServer.Proofs.Command.Grammar

/-!
# Renderings

A command may be written with any blanks around its fields and between them: `Renders` says which
texts are renderings of it.  Every rendering of a command with proper fields is parsed to this very
command.  What a frame is parsed to has proper fields, whatever the frame looked like, so its
canonical line is parsed to it again (`parse_renders_and_back`).
-/

namespace KvServer

namespace Text

def Blanks (cs : List Char) : Prop := ∀ c ∈ cs, c.toNat ∈ whiteSpace

-- the characters of the list are tried, not all characters there are
instance (cs : List Char) : Decidable (Blanks cs) :=
  List.decidableBAll (fun c : Char ↦ c.toNat ∈ whiteSpace) cs

/-- Fields one after the other, with blanks between any two of them. -/
inductive Spaced : (ws : List (List Char)) → (cs : List Char) → Prop
  | last {w after : List Char} (hafter : Blanks after) : Spaced [w] (w ++ after)
  | more {w gap rest : List Char} {ws : List (List Char)} (hgap : Blanks gap) (hne : gap ≠ [])
      (hrest : Spaced ws rest) : Spaced (w :: ws) (w ++ (gap ++ rest))

theorem Blanks.head {cs : List Char} (h : Blanks cs) : ∀ c ∈ cs.head?, c.toNat ∈ whiteSpace :=
  fun c hc ↦ h c (List.mem_of_mem_head? hc)

/-- Fields with blanks between them are the maximal runs of the text. -/
theorem Spaced.runs {ws : List (List Char)} {cs before : List Char} (h : Spaced ws cs)
    (hws : ∀ w ∈ ws, IsField w) (hbefore : Blanks before) : Runs (before ++ cs) ws := by
  induction h generalizing before with
  | last hafter => exact .run hbefore (hws _ (by simp)) hafter.head (.blank hafter)
  | @more w gap rest ws hgap hne hrest ih =>
      have hnext := ih (fun w hw ↦ hws w (List.mem_cons_of_mem _ hw)) hgap
      refine .run hbefore (hws w (by simp)) ?_ hnext
      cases gap with
      | nil => exact absurd rfl hne
      | cons d gap => exact hgap.head

/-- Single spaces are blanks enough. -/
theorem spaced_intercalate (after : List Char) {w : List Char} {ws : List (List Char)}
    (hafter : Blanks after) :
    Spaced (w :: ws) ([' '].intercalate (w :: ws) ++ after) := by
  induction ws generalizing w with
  | nil =>
      rw [List.intercalate_singleton]
      exact .last hafter
  | cons v ws ih =>
      rw [List.intercalate_cons_cons, List.append_assoc, List.append_assoc]
      exact .more (by decide) (by simp) ih

end Text

namespace Number

open Text

theorem ofDigitChars_eq (n : Nat) (cs : List Char) :
    Nat.ofDigitChars 10 cs n = ofDigits n (cs.map digitValue) := by
  rw [Nat.ofDigitChars, ofDigits, List.foldl_map]
  simp only [digitValue, Nat.mul_comm]

theorem not_blank_of_isDigit {c : Char} (h : c.isDigit = true) : c.toNat ∉ whiteSpace := by
  have hrange : 48 ≤ c.toNat ∧ c.toNat ≤ 57 := by
    simpa [Char.isDigit, UInt32.le_iff_toNat_le] using h
  simp only [whiteSpace, List.mem_cons, List.not_mem_nil, or_false]
  omega

theorem isField_toString (n : Nat) : IsField (toString n).toList := by
  rw [Nat.toString_eq_repr, Nat.toList_repr]
  refine ⟨Nat.toDigits_ne_nil, fun d hd ↦ ?_⟩
  exact not_blank_of_isDigit (Nat.isDigit_of_mem_toDigits (by decide) (by decide) hd)

/-- A number is written as a numeral of it. -/
theorem numeral_toString (n : Nat) : Numeral (toString n).toList n := by
  rw [Nat.toString_eq_repr, Nat.toList_repr]
  refine ⟨Nat.toDigits 10 n, Or.inl rfl, Nat.toDigits_ne_nil, ?_, ?_⟩
  · intro d hd
    exact Nat.isDigit_of_mem_toDigits (by decide) (by decide) hd
  · have hvalue := ofDigitChars_eq 0 (Nat.toDigits 10 n)
    rw [Nat.ofDigitChars_ten_toDigits, ofDigits_eq, Nat.zero_mul, Nat.zero_add] at hvalue
    exact hvalue.symm

end Number

namespace Command

open Text Number

/-- The texts of a command are fields, and its expiry is a positive number that fits a word. -/
def Proper : Command → Prop
  | .auth secret => IsField secret.toList
  | .set key value expiry =>
      IsField key.toList ∧ IsField value.toList ∧ ∀ n ∈ expiry, 1 ≤ n ∧ n < 2 ^ 64
  | .get key | .del key => IsField key.toList

/-- What a command is written with: its verb, its texts and the decimal of its expiry. -/
def words (c : Command) : List String := c.verb :: c.arguments

/-- A text in which the words of a command stand with blanks between any two of them, and with or
without blanks before the first and after the last. -/
def Renders (c : Command) (text : String) : Prop :=
  ∃ before rest, Blanks before ∧ Spaced (c.words.map String.toList) rest ∧
    text.toList = before ++ rest

variable {c : Command}

theorem isField_of_mem_verbs {verb : String} (h : verb ∈ verbs) : IsField verb.toList := by
  have hall : ∀ v ∈ verbs, v.toList ≠ [] ∧ ∀ n ∈ v.toList.map Char.toNat, n ∉ whiteSpace := by
    decide
  obtain ⟨hne, hblank⟩ := hall verb h
  exact ⟨hne, fun d hd ↦ hblank _ (List.mem_map_of_mem hd)⟩

theorem verb_mem_verbs (c : Command) : c.verb ∈ verbs := by
  cases c <;> simp [verb, verbs]

theorem Proper.isField_of_mem (h : c.Proper) : ∀ w ∈ c.words.map String.toList, IsField w := by
  have hargs : ∀ a ∈ c.arguments, IsField a.toList := by
    cases c with
    | auth secret => exact List.forall_mem_singleton.mpr h
    | get key => exact List.forall_mem_singleton.mpr h
    | del key => exact List.forall_mem_singleton.mpr h
    | set key value expiry =>
        obtain ⟨hkey, hvalue, -⟩ := h
        cases expiry with
        | none =>
            simp only [arguments, List.forall_mem_cons]
            exact ⟨hkey, hvalue, by simp⟩
        | some n =>
            simp only [arguments, List.forall_mem_cons]
            exact ⟨hkey, hvalue, isField_toString n, by simp⟩
  simpa [words] using ⟨isField_of_mem_verbs c.verb_mem_verbs, hargs⟩

/-- The words of a proper command say it. -/
theorem Proper.says (h : c.Proper) : Says (c.words.map String.toList) (.ok c) := by
  cases c with
  | auth secret => exact .one .auth secret
  | get key => exact .one .get key
  | del key => exact .one .del key
  | set key value expiry =>
      cases expiry with
      | none => exact .set key value
      | some n =>
          obtain ⟨-, -, hn⟩ := h
          obtain ⟨hpos, hlt⟩ := hn n rfl
          have hsays := Says.setExpiry key value (numeral_toString n) hlt
          rwa [if_neg (Nat.ne_of_gt hpos)] at hsays

theorem Renders.parse_eq {text : String} (h : c.Renders text) (hc : c.Proper) :
    parse (bytesOf text) = .ok c := by
  obtain ⟨before, rest, hbefore, hspaced, htext⟩ := h
  have hruns := hspaced.runs hc.isField_of_mem hbefore
  rw [parse, bytesOf, decode_encode, htext]
  simp only [hruns.fields_eq]
  exact hc.says.ofFields_eq

/-- The line of a command is a rendering of it. -/
theorem renders_line (c : Command) : c.Renders (c.line ++ "\n") := by
  refine ⟨[], _, by simp [Blanks], spaced_intercalate ['\n'] (by decide), ?_⟩
  rw [line, String.toList_append, String.toList_intercalate]
  rfl

/-- What the fields of a line say is proper. -/
theorem Says.proper {ws : List (List Char)} (h : Says ws (.ok c)) (hws : ∀ w ∈ ws, IsField w) :
    c.Proper := by
  cases h with
  | one hverb arg =>
      have harg : IsField arg.toList := hws _ (by simp)
      cases hverb <;> exact harg
  | set key value => exact ⟨hws _ (by simp), hws _ (by simp), by simp⟩
  | @setExpiry key value arg n harg hn =>
      refine ⟨hws _ (by simp), hws _ (by simp), ?_⟩
      intro m hm
      split at hm
      · cases hm
      · cases hm
        omega

theorem proper_of_parse {frame : Bytes} (h : parse frame = .ok c) : c.Proper := by
  rcases says_of_parse h with herror | ⟨ws, hws, hsays⟩
  · cases herror
  · exact hsays.proper hws

/-- Trimming the secret that a frame presents changes nothing, so neither the parser nor the
dispatcher has to. -/
theorem trim_of_parse {frame : Bytes} {secret : String} (h : parse frame = .ok (.auth secret)) :
    trim secret.toList = secret.toList := IsField.trim_eq (proper_of_parse h)

/-- Every rendering of a command with proper fields is parsed to it.  And whatever frame is parsed
to a command, the command is proper, so its own line is parsed to it as well. -/
theorem parse_renders_and_back (c : Command) :
    (c.Proper → ∀ text, c.Renders text → parse (bytesOf text) = .ok c) ∧
      ∀ frame, parse frame = .ok c → c.Proper ∧ parse c.render = .ok c := by
  constructor
  · intro hc text htext
    exact htext.parse_eq hc
  · intro frame hframe
    have hc := proper_of_parse hframe
    exact ⟨hc, (renders_line c).parse_eq hc⟩

/-- A rendering with blanks of all kinds, and a frame that is not one. -/
theorem parse_loose_set :
    let c : Command := .set "k" "v" (some 7)
    c.Proper ∧ c.Renders "\tSET\u00a0k \u3000v  7\r\n" ∧
      parse (bytesOf "\tSET\u00a0k \u3000v  7\r\n") = .ok c ∧
      parse (bytesOf "SET k v +007") = .ok c ∧ parse (bytesOf "SET k v 7\n") = .ok c := by
  intro c
  have hframe : parse (bytesOf "SET k v +007") = .ok c := by decide +kernel
  obtain ⟨hrenders, hback⟩ := parse_renders_and_back c
  obtain ⟨hc, hline⟩ := hback _ hframe
  have hlast : Spaced ["7".toList] _ := @Spaced.last _ ['\r', '\n'] (by decide)
  have hvalue : Spaced ["v".toList, "7".toList] _ :=
    @Spaced.more _ [' ', ' '] _ _ (by decide) (by simp) hlast
  have hkey : Spaced ["k".toList, "v".toList, "7".toList] _ :=
    @Spaced.more _ [' ', '\u3000'] _ _ (by decide) (by simp) hvalue
  have hwords : Spaced (c.words.map String.toList) _ :=
    @Spaced.more "SET".toList ['\u00a0'] _ _ (by decide) (by simp) hkey
  have htext : c.Renders "\tSET\u00a0k \u3000v  7\r\n" :=
    ⟨['\t'], _, by decide, hwords, by decide +kernel⟩
  exact ⟨hc, htext, hrenders hc _ htext, hframe, hline⟩

end Command

end KvServer
