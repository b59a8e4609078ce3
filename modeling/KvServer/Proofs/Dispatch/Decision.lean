import KvServer.Proofs.Dispatch.Execution

/-!
# The calls that a frame makes

`Decision` lists, clause by clause, which calls a dispatcher makes for a frame, with which outcomes,
and what it replies then.  A logged store keeps all its calls with all that it answers, so the log
shows that a frame makes these calls in this order and no others, whatever the store answers
(`execute_decides`).
-/

namespace KvServer

open Text

/-- A call with its outcome. -/
structure Exchange where
  call : Call
  outcome : call.Outcome

/-- A store with a log of its calls and what it answers, the latest first. -/
structure Logged (σ : Type) where
  store : σ
  log : List Exchange := []

namespace Logged

variable {σ : Type} [Store σ]

instance : Store (Logged σ) where
  call c l :=
    let (o, store) := Store.call c l.store
    (o, ⟨store, ⟨c, o⟩ :: l.log⟩)

end Logged

/-- The call that a command is about, once the client may have it carried out. -/
def Command.call? : Command → Option Call
  | .auth _ => none
  | .set key value _ => some (.set key value)
  | .get key => some (.get key)
  | .del key => some (.delete key)

namespace Dispatch

/-- What a client is told of the outcome of a call. -/
def told : (c : Call) → c.Outcome → Reply
  | .get _, .ok value => .value value
  | .set .., .ok _ | .delete _, .ok _ | .auth .., .ok _ | .flush, .ok _ => .ok
  | _, .error _ => .error

/-- The calls that a frame of a client makes, in order, and its reply. -/
inductive Decision (secret : Option String) (identity : String) :
    Except FrameError Command → List Exchange → Reply → Prop
  | unknown {token : String} :
      Decision secret identity (.error (.unknownCommand token)) [] .invalidCommand
  | malformed {e : FrameError} (he : ∀ token, e ≠ .unknownCommand token) :
      Decision secret identity (.error e) [] (.invalid e.message)
  | nothingToPresent {candidate : String} (hsecret : secret = none) :
      Decision secret identity (.ok (.auth candidate)) [] .error
  | wrong {candidate x : String} (hsecret : secret = some x) (hne : candidate ≠ x) :
      Decision secret identity (.ok (.auth candidate)) [] .invalidAuth
  | right {x : String} (hsecret : secret = some x) (o : Call.Outcome (.auth identity x)) :
      Decision secret identity (.ok (.auth x)) [⟨.auth identity x, o⟩]
        (told (.auth identity x) o)
  | refused {c : Command} {call : Call} {x : String} (hc : c.call? = some call)
      (hsecret : secret = some x) {o : Call.Outcome (.get identity)} (ho : o ≠ .ok x) :
      Decision secret identity (.ok c) [⟨.get identity, o⟩] .invalidAuth
  | granted {c : Command} {call : Call} {x : String} (hc : c.call? = some call)
      (hsecret : secret = some x) (o : call.Outcome) :
      Decision secret identity (.ok c) [⟨.get identity, .ok x⟩, ⟨call, o⟩] (told call o)
  | unguarded {c : Command} {call : Call} (hc : c.call? = some call) (hsecret : secret = none)
      (o : call.Outcome) :
      Decision secret identity (.ok c) [⟨call, o⟩] (told call o)

variable {σ : Type} [Store σ] {s : TimedStore (Logged σ)} {secret : Option String}
  {identity : String}

/-- A command is carried out by its one call, and the reply tells the outcome. -/
def CarriesOut (run : TimedStore (Logged σ) → Reply × TimedStore (Logged σ)) (call : Call) : Prop :=
  ∀ s, ∃ o : call.Outcome,
    (run s).1 = told call o ∧ (run s).2.store.log = ⟨call, o⟩ :: s.store.log

theorem carriesOut_get (key : String) : CarriesOut (σ := σ) (get key) (.get key) := by
  intro s
  refine ⟨(s.call (.get key)).1, ?_, ?_⟩
  · rw [get_eq]
    cases (s.call (.get key)).1 <;> rfl
  · rw [get_snd]
    rfl

theorem carriesOut_set (key value : String) (ttl : Option Nat) :
    CarriesOut (σ := σ) (set key value ttl) (.set key value) := by
  intro s
  refine ⟨(Store.call (.set key value) s.store).1, ?_, ?_⟩
  · rw [set_eq, replyOf_write]
    cases (Store.call (.set key value) s.store).1 <;> rfl
  · rw [set_eq, TimedStore.write_store]
    rfl

theorem carriesOut_del (key : String) : CarriesOut (σ := σ) (del key) (.delete key) := by
  intro s
  refine ⟨(Store.call (.delete key) s.store).1, ?_, ?_⟩
  · rw [del_eq, replyOf_write]
    cases (Store.call (.delete key) s.store).1 <;> rfl
  · rw [del_eq, TimedStore.write_store]
    rfl

theorem authenticate_decides (candidate : String) (s : TimedStore (Logged σ)) :
    ∃ es, (authenticate secret identity candidate s).2.store.log = es.reverse ++ s.store.log ∧
      Decision secret identity (.ok (.auth candidate)) es
        (authenticate secret identity candidate s).1 := by
  cases secret with
  | none => exact ⟨[], rfl, .nothingToPresent rfl⟩
  | some x =>
      rw [authenticate_some]
      by_cases hx : candidate = x
      · subst hx
        have htold : replyOf (s.call (.auth identity candidate)).1 =
            told (.auth identity candidate) (s.call (.auth identity candidate)).1 := by
          cases (s.call (.auth identity candidate)).1 <;> rfl
        rw [if_pos rfl, htold]
        exact ⟨[⟨_, _⟩], rfl, .right rfl _⟩
      · rw [if_neg hx]
        exact ⟨[], rfl, .wrong rfl hx⟩

/-- A command that needs a mark is carried out after the mark has been looked up, or refused. -/
theorem authorized_decides {c : Command} {call : Call} (hc : c.call? = some call)
    {run : TimedStore (Logged σ) → Reply × TimedStore (Logged σ)} (hrun : CarriesOut run call)
    (s : TimedStore (Logged σ)) :
    ∃ es, (authorized secret identity run s).2.store.log = es.reverse ++ s.store.log ∧
      Decision secret identity (.ok c) es (authorized secret identity run s).1 := by
  cases secret with
  | none =>
      obtain ⟨o, hreply, hlog⟩ := hrun s
      refine ⟨[⟨call, o⟩], hlog, ?_⟩
      rw [authorized, hreply]
      exact .unguarded hc rfl o
  | some x =>
      by_cases hmarked : (s.call (.get identity)).1 = .ok x
      · obtain ⟨o, hreply, hlog⟩ := hrun (s.call (.get identity)).2
        refine ⟨[⟨.get identity, .ok x⟩, ⟨call, o⟩], ?_, ?_⟩
        · rw [authorized_of_marked run hmarked, hlog, ← hmarked]
          rfl
        · rw [authorized_of_marked run hmarked, hreply]
          exact .granted hc rfl o
      · rw [authorized_of_not_marked run hmarked]
        exact ⟨[⟨.get identity, _⟩], rfl, .refused hc rfl hmarked⟩

/-- Whatever a store answers, a frame makes the calls of its decision, in order and no others, and
gets the reply that goes with their outcomes.  An empty secret is none. -/
theorem execute_decides (text : Option String) (identity : String) (frame : Bytes)
    (s : TimedStore (Logged σ)) :
    let secret := Secret.ofText text
    let out := execute secret identity frame s
    ∃ es, out.2.store.log = es.reverse ++ s.store.log ∧
      Decision secret identity (Command.parse frame) es out.1 := by
  intro secret out
  cases hparse : Command.parse frame with
  | error e =>
      have hout : out = (.ofFrameError e, s) := execute_of_error hparse
      rw [hout]
      refine ⟨[], rfl, ?_⟩
      cases e with
      | unknownCommand token => exact .unknown
      | emptyCommand | invalidText | missingArgument | tooManyArguments | invalidExpiry =>
          exact .malformed (by simp)
  | ok c =>
      have hout : out = run secret identity c s := execute_of_ok hparse
      rw [hout]
      cases c with
      | auth candidate => exact authenticate_decides candidate s
      | set key value ttl => exact authorized_decides rfl (carriesOut_set key value ttl) s
      | get key => exact authorized_decides rfl (carriesOut_get key) s
      | del key => exact authorized_decides rfl (carriesOut_del key) s

end Dispatch

end KvServer
