import KvServer.Proofs.Command.Grammar
import KvServer.Proofs.Dispatch.Effect
import KvServer.Proofs.Dispatch.TtlMap
import KvServer.Proofs.Reply.Line

/-!
# The replies of a dispatcher

A store is clean when no value in it has a blank.  The only values that frames put there are fields
of a line, so every event keeps a clean store clean (`Clean.step`), and each of its replies is
regular: a value comes from the store, and what a reply echoes is a field.  So whatever clients
send, the stream of replies falls apart into them in one way only, and only a value that reads `OK`
or `ERROR` can be mistaken for another reply.
-/

namespace KvServer

open Function Text

namespace Command

/-- The value that a command puts into the store. -/
def stored : Command → Option String
  | .auth secret => some secret
  | .set _ value _ => some value
  | .get _ | .del _ => none

theorem Says.isField_stored {ws : List (List Char)} {c : Command} (h : Says ws (.ok c))
    (hws : ∀ w ∈ ws, IsField w) : ∀ value ∈ c.stored, IsField value.toList := by
  cases h with
  | one hverb arg =>
      have harg := hws arg.toList (by simp)
      cases hverb <;> simp [stored, harg]
  | set key value => simpa [stored] using hws value.toList (by simp)
  | setExpiry key value => simpa [stored] using hws value.toList (by simp)

/-- A value that a frame puts into the store is a field. -/
theorem isField_stored {frame : Bytes} {c : Command} (h : parse frame = .ok c) :
    ∀ value ∈ c.stored, IsField value.toList := by
  obtain herror | ⟨ws, hws, hrule⟩ := says_of_parse h
  · cases herror
  · exact hrule.isField_stored hws

theorem message_invalidExpiry (arg : String) :
    (FrameError.invalidExpiry arg).message =
      "SET expiry must be a whole number of seconds, got '" ++ arg ++ "'" := rfl

/-- An expiry that is no number is echoed; as a field it cannot end the line. -/
theorem regular_invalidExpiry {arg : String} (h : IsField arg.toList) :
    (Reply.ofFrameError (.invalidExpiry arg)).Regular := by
  have hfree := BlankFree.of_isField h
  have hreturn : '\r' ∉ arg.toList := hfree.not_mem (by decide)
  have hfeed : '\n' ∉ arg.toList := hfree.not_mem (by decide)
  have hmessage : (FrameError.invalidExpiry arg).message.toList =
      "SET expiry must be a whole number of seconds, got '".toList ++
        (arg.toList ++ "'".toList) := by
    rw [message_invalidExpiry, String.toList_append, String.toList_append, List.append_assoc]
  have hne : ∀ other : String, other.toList.head? ≠ some 'S' →
      (FrameError.invalidExpiry arg).message ≠ other := by
    rintro other hother rfl
    exact hother (by rw [hmessage]; rfl)
  simp only [Reply.ofFrameError, Reply.Regular]
  refine ⟨?_, ?_, hne _ (by decide), hne _ (by decide)⟩
  · rw [hmessage]
    simpa using hreturn
  · rw [hmessage]
    simpa using hfeed

theorem Says.regular_error {ws : List (List Char)} {e : FrameError} (h : Says ws (.error e))
    (hws : ∀ w ∈ ws, IsField w) : (Reply.ofFrameError e).Regular := by
  cases h with
  | nothing => decide
  | unknown hverb => trivial
  | missing hverb => cases hverb <;> decide
  | tooMany hverb => cases hverb <;> decide
  | setMissing => decide
  | setTooMany => decide
  | @setInvalid key value arg => exact regular_invalidExpiry (hws arg.toList (by simp))

theorem regular_error {frame : Bytes} {e : FrameError} (h : parse frame = .error e) :
    (Reply.ofFrameError e).Regular := by
  obtain herror | ⟨ws, hws, hrule⟩ := says_of_parse h
  · cases herror
    decide
  · exact hrule.regular_error hws

end Command

namespace Dispatch

variable {σ : Type} [Store σ] [MapStore σ] {s : TimedStore σ} {secret : Option String}
  {identity key : String}

omit [MapStore σ] in
theorem regular_replyOf {α : Type} (o : Except StoreError α) : (replyOf o).Regular := by
  unfold replyOf
  split <;> trivial

/-- A reply is a refusal, or the body has given it on the same values. -/
theorem regular_authorized {body : TimedStore σ → Reply × TimedStore σ}
    (hbody : ∀ s' : TimedStore σ, s'.contents = s.contents → (body s').1.Regular) :
    (authorized secret identity body s).1.Regular := by
  cases secret with
  | none => exact hbody s rfl
  | some secret =>
      by_cases hmarked : (s.call (.get identity)).1 = .ok secret
      · rw [authorized_of_marked body hmarked]
        exact hbody _ TimedStore.contents_call_get
      · rw [authorized_of_not_marked body hmarked]
        trivial

theorem get_fst (key : String) (s : TimedStore σ) :
    (get key s).1 = .error ∨
      ∃ value, s.contents key = some value ∧ (get key s).1 = .value value := by
  rw [get_eq]
  cases hcall : (s.call (.get key)).1 with
  | error e => exact Or.inl rfl
  | ok value => exact Or.inr ⟨value, TimedStore.eq_some_of_call_get hcall, rfl⟩

/-- No value of a map has a blank. -/
def Tidy (v : String → Option String) : Prop := ∀ key value, v key = some value → BlankFree value

theorem Tidy.put {v : String → Option String} (h : Tidy v) {value : String}
    (hvalue : BlankFree value) (key : String) : Tidy (update v key (some value)) := by
  intro other held hheld
  by_cases hother : other = key
  · subst hother
    rw [update_self] at hheld
    cases hheld
    exact hvalue
  · rw [update_of_ne hother] at hheld
    exact h other held hheld

theorem Tidy.drop {v : String → Option String} (h : Tidy v) (key : String) :
    Tidy (update v key none) := by
  intro other held hheld
  by_cases hother : other = key
  · simp [hother] at hheld
  · rw [update_of_ne hother] at hheld
    exact h other held hheld

/-- What a frame puts into the store is a field. -/
theorem Effect.tidy {frame : Bytes} {p : Except FrameError Command} {r : Reply}
    {v v' : String → Option String} (heffect : Effect secret identity v p r v')
    (hparse : Command.parse frame = p) (h : Tidy v) : Tidy v' := by
  cases heffect with
  | same => exact h
  | mark hsecret => exact h.put (.of_isField (Command.isField_stored hparse _ rfl)) _
  | put hmark => exact h.put (.of_isField (Command.isField_stored hparse _ rfl)) _
  | drop hmark => exact h.drop _

/-- A store without blanks in its values. -/
structure Clean (s : TimedStore σ) : Prop where
  coherent : s.Coherent
  tidy : Tidy s.contents

/-- A reply to a frame is regular: its value is in the store, or it is fixed but for a field. -/
theorem Clean.regular_execute (h : Clean s) (frame : Bytes) :
    (execute secret identity frame s).1.Regular := by
  cases hparse : Command.parse frame with
  | error e =>
      rw [execute_of_error hparse]
      exact Command.regular_error hparse
  | ok c =>
      rw [execute_of_ok hparse]
      cases c with
      | auth candidate =>
          cases secret with
          | none => trivial
          | some secret =>
              rw [run, authenticate_some]
              split
              · exact regular_replyOf _
              · trivial
      | set key value ttl =>
          refine regular_authorized fun s' _ ↦ ?_
          rw [set_eq]
          exact regular_replyOf _
      | get key =>
          refine regular_authorized fun s' hs' ↦ ?_
          obtain herror | ⟨value, hvalue, hget⟩ := get_fst key s'
          · rw [herror]
            trivial
          · rw [hs'] at hvalue
            rw [hget]
            exact h.tidy key value hvalue
      | del key =>
          refine regular_authorized fun s' _ ↦ ?_
          rw [del_eq]
          exact regular_replyOf _

theorem Clean.execute (h : Clean s) (frame : Bytes) :
    Clean (execute secret identity frame s).2 where
  coherent := coherent_execute frame h.coherent
  tidy := (execute_effect frame).tidy rfl h.tidy

theorem Clean.settle (h : Clean s) : Clean s.settle where
  coherent := h.coherent.settled_settle.coherent
  tidy key value hvalue := h.tidy key value (TimedStore.contents_settle_of_some h.coherent hvalue)

theorem Clean.revoke (h : Clean s) : Clean (revoke secret identity s) := by
  unfold Dispatch.revoke
  split
  · refine ⟨h.coherent.setStore _, ?_⟩
    rcases TimedStore.contents_call_cases (.delete identity) s with ⟨e, -, hsame⟩ | ⟨-, hdrop⟩
    · rw [hsame]
      exact h.tidy
    · rw [hdrop]
      exact h.tidy.drop identity
  · exact h

variable {t : TimedStore (Recorded σ)}

/-- Every event keeps a clean store clean, and is answered by a regular reply, if by any. -/
theorem Clean.step (h : Clean t) (e : TtlMap.Event) :
    Clean (step secret e.step t).2 ∧ ∀ r, (step secret e.step t).1 = .reply r → r.Regular := by
  cases e with
  | frame identity bytes =>
      refine ⟨(h.execute bytes).settle, ?_⟩
      rintro r ⟨⟩
      exact h.regular_execute bytes
  | revoke identity => exact ⟨h.revoke, by rintro r ⟨⟩⟩
  | advance ms =>
      have hlater : Clean { t with now := t.now + ms } := ⟨h.coherent.setNow _, h.tidy⟩
      exact ⟨hlater.settle, by rintro r ⟨⟩⟩
  | signal sig =>
      have hafter : Clean { t with channel := t.channel.after sig } :=
        ⟨h.coherent.setChannel _, h.tidy⟩
      exact ⟨hafter.settle, by rintro r ⟨⟩⟩

theorem Clean.regular_of_mem (h : Clean t) (es : List TtlMap.Event) {r : Reply}
    (hr : .reply r ∈ (runSteps secret (es.map TtlMap.Event.step) t).1) : r.Regular := by
  induction es generalizing t with
  | nil => cases hr
  | cons e es ih =>
      obtain ⟨hnext, hreply⟩ := @Clean.step σ _ _ secret t h e
      rw [List.map_cons, runSteps, List.mem_cons] at hr
      rcases hr with hr | hr
      · exact hreply r hr.symm
      · exact ih hnext hr

/-- Some run gives the reply: frames of clients, departures, time and signals, on a store in memory
that has no blanks in its values at first and whose calls may fail as they like. -/
def Occurs (r : Reply) : Prop :=
  ∃ (secret : Option String) (store : Memory) (plan : Nat → Option StoreError) (now : Nat)
    (channel : Channel) (es : List TtlMap.Event),
    (∀ key value : String, store.values[key]? = some value → BlankFree value) ∧
      .reply r ∈ (runSteps secret (es.map TtlMap.Event.step)
        { store := { store := { store, plan } }, now, channel : TimedStore (Recorded (Faulty Memory)) }).1

theorem Occurs.regular {r : Reply} (h : Occurs r) : r.Regular := by
  obtain ⟨secret, store, plan, now, channel, es, htidy, hr⟩ := h
  have hclean : Clean ({ store := { store := { store, plan } }, now, channel } :
      TimedStore (Recorded (Faulty Memory))) := ⟨.empty _ now channel, htidy⟩
  exact hclean.regular_of_mem es hr

/-- Take any replies that occur.  Each is one line, ended by a carriage return and a line feed and
without any other; their stream falls apart into lines in this one way; and two of them that look
the same are the same, but for the value `OK` and the value `ERROR`, which look like plain
replies. -/
theorem replies_told_apart {rs : List Reply} (h : ∀ r ∈ rs, Occurs r) :
    (∀ r ∈ rs, Terminated r.bytes) ∧
      (∀ ps : List Bytes, (∀ p ∈ ps, Terminated p) →
        (ps.flatten = (rs.map Reply.bytes).flatten ↔ ps = rs.map Reply.bytes)) ∧
      ∀ r₁ ∈ rs, ∀ r₂ ∈ rs, r₁.bytes = r₂.bytes → r₁ ≠ r₂ →
        (r₁ = .value "OK" ∧ r₂ = .ok) ∨ (r₁ = .ok ∧ r₂ = .value "OK") ∨
          (r₁ = .value "ERROR" ∧ r₂ = .error) ∨ (r₁ = .error ∧ r₂ = .value "ERROR") := by
  have hterminated : ∀ r ∈ rs, Terminated r.bytes := fun r hr ↦ (h r hr).regular.terminated
  refine ⟨hterminated, ?_, ?_⟩
  · intro ps hps
    constructor
    · apply eq_of_flatten_eq hps
      simpa using hterminated
    · rintro rfl
      rfl
  · intro r₁ h₁ r₂ h₂ hbytes hne
    exact (h r₁ h₁).regular.eq_or_of_bytes_eq (h r₂ h₂).regular hbytes hne

/-- A plain reply, the value that looks like it, and a message that echoes what it was sent. -/
theorem three_replies_told_apart :
    let rs : List Reply :=
      [.ok, .value "OK", .invalid "SET expiry must be a whole number of seconds, got '+-1'"]
    (∀ r ∈ rs, Occurs r) ∧ (∀ r ∈ rs, Terminated r.bytes) ∧
      (∀ ps : List Bytes, (∀ p ∈ ps, Terminated p) →
        (ps.flatten = (rs.map Reply.bytes).flatten ↔ ps = rs.map Reply.bytes)) ∧
      Reply.ok.bytes = (Reply.value "OK").bytes := by
  intro rs
  have hrun : (runSteps none
      ([.frame "a" (bytesOf "SET k OK\n"), .frame "a" (bytesOf "GET k\r\n"),
        .frame "b" (bytesOf "SET k v +-1\n")] : List Step)
      ({ store := { store := { store := {}, plan := fun _ ↦ none } } } :
        TimedStore (Recorded (Faulty Memory)))).1 = rs.map .reply := rfl
  have hall : ∀ r ∈ rs, Occurs r := by
    intro r hr
    refine ⟨none, {}, fun _ ↦ none, 0, {}, [.frame "a" (bytesOf "SET k OK\n"),
      .frame "a" (bytesOf "GET k\r\n"), .frame "b" (bytesOf "SET k v +-1\n")], by simp, ?_⟩
    exact hrun ▸ List.mem_map_of_mem hr
  obtain ⟨hlines, hsplit, -⟩ := replies_told_apart hall
  exact ⟨hall, hlines, hsplit, rfl⟩

end Dispatch

end KvServer
