import KvServer.Command.Basic
import KvServer.Proofs.Number.Numeral
import KvServer.Proofs.Text.Runs
import KvServer.Proofs.Text.Utf8

/-!
# The grammar of commands

`Says` tells what the fields of a line say, one rule for each verb and number of arguments, and
`Parses` what a frame says: first its bytes have to be UTF-8, then the maximal runs between blanks
are its fields.  Every frame says exactly one thing, and `parse` finds it (`parse_eq_iff_parses`).
-/

namespace KvServer.Command

open Text Number

/-- The verbs with one argument: what the argument is, and the command that holds it. -/
inductive Single : (verb what : String) → (command : String → Command) → Prop
  | auth : Single "AUTH" "a secret" .auth
  | get : Single "GET" "a key" .get
  | del : Single "DEL" "a key" .del

def verbs : List String := ["AUTH", "SET", "GET", "DEL"]

/-- What the fields of a line say. -/
inductive Says : List (List Char) → Except FrameError Command → Prop
  | nothing : Says [] (.error .emptyCommand)
  | unknown {verb : String} {args : List (List Char)} (h : verb ∉ verbs) :
      Says (verb.toList :: args) (.error (.unknownCommand verb))
  | one {verb what : String} {command : String → Command} (hverb : Single verb what command)
      (arg : String) : Says [verb.toList, arg.toList] (.ok (command arg))
  | missing {verb what : String} {command : String → Command} (hverb : Single verb what command) :
      Says [verb.toList] (.error (.missingArgument verb what))
  | tooMany {verb what : String} {command : String → Command} (hverb : Single verb what command)
      {args : List (List Char)} (h : 1 < args.length) :
      Says (verb.toList :: args) (.error (.tooManyArguments verb 1))
  | setMissing {args : List (List Char)} (h : args.length < 2) :
      Says ("SET".toList :: args) (.error (.missingArgument "SET" "a key and value"))
  | setTooMany {args : List (List Char)} (h : 3 < args.length) :
      Says ("SET".toList :: args) (.error (.tooManyArguments "SET" 3))
  | set (key value : String) :
      Says ["SET".toList, key.toList, value.toList] (.ok (.set key value none))
  /-- Zero seconds stand for no expiry. -/
  | setExpiry (key value : String) {arg : String} {n : Nat} (harg : Numeral arg.toList n)
      (hn : n < 2 ^ 64) :
      Says ["SET".toList, key.toList, value.toList, arg.toList]
        (.ok (.set key value (if n = 0 then none else some n)))
  | setInvalid (key value : String) {arg : String}
      (harg : ∀ n < 2 ^ 64, ¬ Numeral arg.toList n) :
      Says ["SET".toList, key.toList, value.toList, arg.toList] (.error (.invalidExpiry arg))

/-- What a frame says. -/
inductive Parses (frame : Bytes) : Except FrameError Command → Prop
  | malformed (h : ¬ frame.toByteArray.IsValidUTF8) : Parses frame (.error .invalidText)
  | line {cs : List Char} {ws : List (List Char)} {r : Except FrameError Command}
      (htext : frame.toByteArray = cs.utf8Encode) (hruns : Runs cs ws) (hrule : Says ws r) :
      Parses frame r

/-! ## Arguments -/

theorem word?_eq_some_iff {cs : List Char} {n : Nat} :
    word? cs = some n ↔ Numeral cs n ∧ n < 2 ^ 64 := unsigned?_eq_some_iff

theorem expiry?_of_numeral {cs : List Char} {n : Nat} (h : Numeral cs n) (hn : n < 2 ^ 64) :
    expiry? cs = .ok (if n = 0 then none else some n) := by
  have hword := word?_eq_some_iff.mpr ⟨h, hn⟩
  cases n with
  | zero => simp [expiry?, hword]
  | succ n => simp [expiry?, hword]

theorem expiry?_of_not_numeral {cs : List Char} (h : ∀ n < 2 ^ 64, ¬ Numeral cs n) :
    expiry? cs = .error (.invalidExpiry (.ofList cs)) := by
  have hword : word? cs = none := by
    rw [Option.eq_none_iff_forall_ne_some]
    intro n hn
    obtain ⟨hnumeral, hlt⟩ := word?_eq_some_iff.mp hn
    exact h n hlt hnumeral
  simp [expiry?, hword]

theorem ofFields_single {verb what : String} {command : String → Command}
    (h : Single verb what command) (args : List (List Char)) :
    ofFields (verb.toList :: args) = (onlyArgument verb what args).map command := by
  cases h <;> simp [ofFields]

theorem ofFields_set (args : List (List Char)) :
    ofFields ("SET".toList :: args) = ofSetArguments args := by
  simp [ofFields]

theorem ofFields_unknown {verb : String} (h : verb ∉ verbs) (args : List (List Char)) :
    ofFields (verb.toList :: args) = .error (.unknownCommand verb) := by
  simp only [verbs, List.mem_cons, List.not_mem_nil, or_false, not_or] at h
  rw [ofFields, String.ofList_toList]
  split <;> simp_all

/-! ## Fields -/

theorem Says.ofFields_eq {ws : List (List Char)} {r : Except FrameError Command} (h : Says ws r) :
    ofFields ws = r := by
  cases h with
  | nothing => rfl
  | unknown h => exact ofFields_unknown h _
  | one hverb arg =>
      rw [ofFields_single hverb, onlyArgument, String.ofList_toList]
      rfl
  | missing hverb =>
      rw [ofFields_single hverb]
      rfl
  | @tooMany verb what command hverb args h =>
      rw [ofFields_single hverb]
      match args, h with
      | _ :: _ :: _, _ => rfl
  | @setMissing args h =>
      rw [ofFields_set]
      match args, h with
      | [], _ => rfl
      | [_], _ => rfl
  | @setTooMany args h =>
      rw [ofFields_set]
      match args, h with
      | _ :: _ :: _ :: _ :: _, _ => rfl
  | set key value => rw [ofFields_set, ofSetArguments, String.ofList_toList, String.ofList_toList]
  | setExpiry key value harg hn =>
      rw [ofFields_set, ofSetArguments, expiry?_of_numeral harg hn, String.ofList_toList,
        String.ofList_toList]
      rfl
  | setInvalid key value harg =>
      rw [ofFields_set, ofSetArguments, expiry?_of_not_numeral harg]
      simp only [String.ofList_toList]
      rfl

theorem exists_toList_eq (cs : List Char) : ∃ s : String, s.toList = cs :=
  ⟨.ofList cs, String.toList_ofList⟩

theorem exists_says_single {verb what : String} {command : String → Command}
    (hverb : Single verb what command) (args : List (List Char)) :
    ∃ r, Says (verb.toList :: args) r := by
  match args with
  | [] => exact ⟨_, .missing hverb⟩
  | [arg] =>
      obtain ⟨arg, rfl⟩ := exists_toList_eq arg
      exact ⟨_, .one hverb arg⟩
  | _ :: _ :: _ => exact ⟨_, .tooMany hverb (by simp)⟩

theorem exists_says_set (args : List (List Char)) : ∃ r, Says ("SET".toList :: args) r := by
  match args with
  | [] => exact ⟨_, .setMissing (by simp)⟩
  | [_] => exact ⟨_, .setMissing (by simp)⟩
  | [key, value] =>
      obtain ⟨key, rfl⟩ := exists_toList_eq key
      obtain ⟨value, rfl⟩ := exists_toList_eq value
      exact ⟨_, .set key value⟩
  | [key, value, arg] =>
      obtain ⟨key, rfl⟩ := exists_toList_eq key
      obtain ⟨value, rfl⟩ := exists_toList_eq value
      obtain ⟨arg, rfl⟩ := exists_toList_eq arg
      by_cases harg : ∃ n < 2 ^ 64, Numeral arg.toList n
      · obtain ⟨n, hn, hnumeral⟩ := harg
        exact ⟨_, .setExpiry key value hnumeral hn⟩
      · exact ⟨_, .setInvalid key value fun n hn hnumeral ↦ harg ⟨n, hn, hnumeral⟩⟩
  | _ :: _ :: _ :: _ :: _ => exact ⟨_, .setTooMany (by simp)⟩

/-- There is a rule for any fields. -/
theorem exists_says (ws : List (List Char)) : ∃ r, Says ws r := by
  cases ws with
  | nil => exact ⟨_, .nothing⟩
  | cons w args =>
      obtain ⟨verb, rfl⟩ := exists_toList_eq w
      by_cases hverb : verb ∈ verbs
      · simp only [verbs, List.mem_cons, List.not_mem_nil, or_false] at hverb
        rcases hverb with rfl | rfl | rfl | rfl
        · exact exists_says_single .auth args
        · exact exists_says_set args
        · exact exists_says_single .get args
        · exact exists_says_single .del args
      · exact ⟨_, .unknown hverb⟩

theorem says_iff {ws : List (List Char)} {r : Except FrameError Command} :
    Says ws r ↔ ofFields ws = r := by
  constructor
  · exact Says.ofFields_eq
  · rintro rfl
    obtain ⟨r, hr⟩ := exists_says ws
    rwa [hr.ofFields_eq]

/-! ## Frames -/

/-- A frame is refused for its bytes, or its fields say what it is parsed to. -/
theorem says_of_parse {frame : Bytes} {r : Except FrameError Command} (h : parse frame = r) :
    r = .error .invalidText ∨ ∃ ws, (∀ w ∈ ws, IsField w) ∧ Says ws r := by
  unfold parse at h
  cases hdecode : decode frame with
  | error f =>
      rw [hdecode] at h
      exact Or.inl h.symm
  | ok cs =>
      rw [hdecode] at h
      exact Or.inr ⟨fields cs, fun w hw ↦ isField_of_mem hw, says_iff.mpr h⟩

/-- Every frame says exactly one thing, and this is what it is parsed to. -/
theorem parse_eq_iff_parses (frame : Bytes) (r : Except FrameError Command) :
    parse frame = r ↔ Parses frame r := by
  constructor
  · rintro rfl
    unfold parse
    cases hdecode : decode frame with
    | error f =>
        refine .malformed ?_
        rintro ⟨cs, hcs⟩
        exact exists_decode_eq_error_iff.mp ⟨f, hdecode⟩ cs (List.toByteArray_inj.mp hcs.symm)
    | ok cs =>
        have htext := decode_eq_ok_iff.mp hdecode
        exact .line (congrArg List.toByteArray htext.symm) (runs_fields cs) (says_iff.mpr rfl)
  · intro h
    cases h with
    | malformed h =>
        obtain ⟨f, hf⟩ := exists_decode_eq_error_iff.mpr fun cs hcs ↦
          h ⟨cs, congrArg List.toByteArray hcs.symm⟩
        rw [parse, hf]
    | line htext hruns hrule =>
        have hdecode := decode_eq_ok_iff.mpr (List.toByteArray_inj.mp htext).symm
        rw [parse, hdecode]
        simp only [hruns.fields_eq]
        exact hrule.ofFields_eq

example : parse (bytesOf "\tSET k v +007\r\n") = .ok (.set "k" "v" (some 7)) := by decide +kernel

end KvServer.Command
