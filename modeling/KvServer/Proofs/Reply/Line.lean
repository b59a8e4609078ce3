import KvServer.Proofs.Session.Lines
import KvServer.Proofs.Text.Runs
import KvServer.Proofs.Text.Utf8
import KvServer.Reply

/-!
# Replies as lines

A reply is regular when its value has no blank, and when its message has no line end and is not one
of the two fixed refusals.  A regular reply is one line (`Regular.terminated`), so a stream of them
falls apart into the replies in one way only (`eq_of_flatten_eq`).  `read` tells a regular reply
from its text, as far as this can be done: a value that reads `OK` or `ERROR` looks like the plain
reply (`Regular.read_text`).
-/

namespace KvServer

open Text

/-- A text without blanks. -/
def BlankFree (text : String) : Prop := ∀ c ∈ text.toList, c.toNat ∉ whiteSpace

instance (text : String) : Decidable (BlankFree text) :=
  inferInstanceAs (Decidable (∀ c ∈ text.toList, c.toNat ∉ whiteSpace))

theorem BlankFree.not_mem {text : String} (h : BlankFree text) {c : Char}
    (hc : c.toNat ∈ whiteSpace) : c ∉ text.toList := fun hmem ↦ h c hmem hc

theorem BlankFree.of_isField {text : String} (h : IsField text.toList) : BlankFree text := h.free

/-- Some bytes end with a carriage return and a line feed, and have no other of either. -/
def Terminated (bs : Bytes) : Prop := ∃ line, bs = line ++ [0x0D, 0x0A] ∧ 0x0D ∉ line ∧ 0x0A ∉ line

theorem Terminated.isLine {bs : Bytes} (h : Terminated bs) : IsLine bs := by
  obtain ⟨line, rfl, -, hfeed⟩ := h
  exact ⟨line ++ [0x0D], by simp, by simp [hfeed]⟩

theorem lines_flatten_of_terminated {ps : List Bytes} (h : ∀ p ∈ ps, Terminated p) :
    lines ps.flatten = (ps, []) := by
  have hlines := lines_flatten_append (fun p hp ↦ (h p hp).isLine) []
  rwa [List.append_nil, lines_nil, List.append_nil] at hlines

/-- Lines that end so are told apart in one way only. -/
theorem eq_of_flatten_eq {ps qs : List Bytes} (hp : ∀ p ∈ ps, Terminated p)
    (hq : ∀ q ∈ qs, Terminated q) (h : ps.flatten = qs.flatten) : ps = qs := by
  have hlines := congrArg lines h
  rw [lines_flatten_of_terminated hp, lines_flatten_of_terminated hq] at hlines
  exact congrArg Prod.fst hlines

theorem bytesOf_append (s t : String) : bytesOf (s ++ t) = bytesOf s ++ bytesOf t := by
  rw [bytesOf, String.toList_append, encode_append]
  rfl

theorem bytesOf_injective {s t : String} (h : bytesOf s = bytesOf t) : s = t :=
  String.toList_inj.mp (encode_injective h)

/-- A text has the byte of a line end only if it has a line end. -/
theorem not_mem_bytesOf {b : UInt8} {c : Char} (hb : b.toNat < 0x80) (hc : c.toNat = b.toNat)
    {text : String} (h : c ∉ text.toList) : b ∉ bytesOf text := by
  intro hmem
  obtain ⟨d, hd, hval⟩ := (mem_encode_iff hb).mp hmem
  obtain rfl : d = c := Char.toNat_inj.mp (hval.trans hc.symm)
  exact h hd

namespace Reply

/-- What every reply of a dispatcher is like. -/
def Regular : Reply → Prop
  | .value text => BlankFree text
  | .invalid message =>
      '\r' ∉ message.toList ∧ '\n' ∉ message.toList ∧
        message ≠ "invalid auth" ∧ message ≠ "invalid command"
  | .ok | .error | .invalidAuth | .invalidCommand => True

instance : DecidablePred Regular
  | .value text => inferInstanceAs (Decidable (BlankFree text))
  | .invalid _ => inferInstanceAs (Decidable (_ ∧ _ ∧ _ ∧ _))
  | .ok | .error | .invalidAuth | .invalidCommand => instDecidableTrue

/-- The value that a reply without a message looks like. -/
def plain : Reply → Reply
  | .ok => .value "OK"
  | .error => .value "ERROR"
  | r => r

/-- The reply that a text stands for. -/
def read (text : String) : Reply :=
  if ' ' ∉ text.toList then .value text
  else if text = "ERROR invalid auth" then .invalidAuth
  else if text = "ERROR invalid command" then .invalidCommand
  else .invalid (.ofList (text.toList.drop 6))

variable {r r₁ r₂ : Reply}

theorem Regular.not_mem_text (h : r.Regular) : '\r' ∉ r.text.toList ∧ '\n' ∉ r.text.toList := by
  cases r with
  | value text => exact ⟨BlankFree.not_mem h (by decide), BlankFree.not_mem h (by decide)⟩
  | invalid message => simpa [text] using ⟨h.1, h.2.1⟩
  | ok => decide
  | error => decide
  | invalidAuth => decide
  | invalidCommand => decide

/-- A regular reply is one line. -/
theorem Regular.terminated (h : r.Regular) : Terminated r.bytes := by
  obtain ⟨hreturn, hfeed⟩ := h.not_mem_text
  refine ⟨bytesOf r.text, ?_, not_mem_bytesOf (by decide) rfl hreturn,
    not_mem_bytesOf (by decide) rfl hfeed⟩
  rw [bytes, bytesOf_append]
  rfl

theorem Regular.read_text (h : r.Regular) : read r.text = r.plain := by
  cases r with
  | value text => simp [read, plain, Reply.text, BlankFree.not_mem h (c := ' ') (by decide)]
  | invalid message =>
      obtain ⟨-, -, hauth, hcommand⟩ := h
      have hspace : ' ' ∈ ("ERROR " ++ message).toList := by simp
      have hne_auth : "ERROR " ++ message ≠ "ERROR invalid auth" := fun heq ↦
        hauth (String.append_right_inj "ERROR " |>.mp heq)
      have hne_command : "ERROR " ++ message ≠ "ERROR invalid command" := fun heq ↦
        hcommand (String.append_right_inj "ERROR " |>.mp heq)
      have hrest : ("ERROR " ++ message).toList.drop 6 = message.toList := by simp
      rw [Reply.text, read, if_neg (not_not_intro hspace), if_neg hne_auth, if_neg hne_command,
        hrest, String.ofList_toList]
      rfl
  | ok => decide
  | error => decide
  | invalidAuth => decide
  | invalidCommand => decide

theorem text_eq_of_bytes_eq (h : r₁.bytes = r₂.bytes) : r₁.text = r₂.text :=
  bytesOf_injective (by simpa [bytes, bytesOf_append] using h)

/-- Two regular replies that read the same are the same, but for a value that reads like a reply
without one. -/
theorem Regular.eq_or_of_bytes_eq (h₁ : r₁.Regular) (h₂ : r₂.Regular) (h : r₁.bytes = r₂.bytes)
    (hne : r₁ ≠ r₂) :
    (r₁ = .value "OK" ∧ r₂ = .ok) ∨ (r₁ = .ok ∧ r₂ = .value "OK") ∨
      (r₁ = .value "ERROR" ∧ r₂ = .error) ∨ (r₁ = .error ∧ r₂ = .value "ERROR") := by
  have hplain : r₁.plain = r₂.plain := by
    rw [← h₁.read_text, ← h₂.read_text, text_eq_of_bytes_eq h]
  cases r₁ <;> cases r₂ <;> simp_all [plain]

end Reply

end KvServer
