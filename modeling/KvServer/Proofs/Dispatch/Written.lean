import KvServer.Proofs.Dispatch.Effect
import KvServer.Proofs.Dispatch.Failure

/-!
# What a request has written

A request that is answered `OK` has done to the map of the store what its command says
(`exists_written`), and any other request has left the map alone (`contents_execute_of_ne_ok`).
-/

namespace KvServer

open Function Text

namespace TimedStore

variable {σ : Type} [Store σ] [MapStore σ] {s : TimedStore σ}

theorem contents_call_of_ok {c : Call} (h : ∀ e, (s.call c).1 ≠ .error e) :
    (s.call c).2.contents = c.contentsAfter s.contents := by
  rcases contents_call_cases c s with ⟨e, he, -⟩ | ⟨-, hv⟩
  · exact absurd he (h e)
  · exact hv

end TimedStore

namespace Dispatch

/-- What a command that is answered `OK` has done to a map. -/
inductive Written (secret : Option String) (identity : String) (v : String → Option String) :
    Command → (String → Option String) → Prop
  | mark {x : String} (hsecret : secret = some x) :
      Written secret identity v (.auth x) (update v identity (some x))
  | put {key value : String} {ttl : Option Nat} :
      Written secret identity v (.set key value ttl) (update v key (some value))
  | drop {key : String} : Written secret identity v (.del key) (update v key none)

theorem Written.eq_of_ne {secret : Option String} {identity key : String}
    {v v' : String → Option String} {c : Command} (h : Written secret identity v c v')
    (hne : key ≠ c.subject identity) : v' key = v key := by
  cases h with
  | mark | put | drop => exact update_of_ne hne _ _

section

variable {σ : Type} [Store σ] [MapStore σ] {s : TimedStore σ} {secret : Option String}
  {identity : String}

theorem authenticate_written {candidate : String}
    (h : (authenticate secret identity candidate s).1 = .ok) :
    Written secret identity s.contents (.auth candidate)
      (authenticate secret identity candidate s).2.contents := by
  cases secret with
  | none => cases h
  | some x =>
      rw [authenticate_some] at h ⊢
      by_cases hx : candidate = x
      · subst hx
        rw [if_pos rfl] at h ⊢
        have hcall := replyOf_eq_ok_iff.mp h
        rw [TimedStore.contents_call_of_ok fun e he ↦ by cases hcall.symm.trans he]
        exact .mark rfl
      · rw [if_neg hx] at h
        cases h

theorem set_written {key value : String} {ttl : Option Nat} (h : (set key value ttl s).1 = .ok) :
    Written secret identity s.contents (.set key value ttl) (set key value ttl s).2.contents := by
  rw [set_eq] at h ⊢
  rw [replyOf_write, replyOf_eq_ok_iff] at h
  have hcall : (s.call (.set key value)).2.contents = update s.contents key (some value) :=
    TimedStore.contents_call_of_ok fun e he ↦ by cases h.symm.trans he
  rw [TimedStore.contents_write_of_ok _ (Prod.ext h rfl)]
  change Written _ _ _ _ (s.call (.set key value)).2.contents
  rw [hcall]
  exact .put

theorem del_written {key : String} (h : (del key s).1 = .ok) :
    Written secret identity s.contents (.del key) (del key s).2.contents := by
  rw [del_eq] at h ⊢
  rw [replyOf_write, replyOf_eq_ok_iff] at h
  have hcall : (s.call (.delete key)).2.contents = update s.contents key none :=
    TimedStore.contents_call_of_ok fun e he ↦ by cases h.symm.trans he
  rw [TimedStore.contents_write_of_ok _ (Prod.ext h rfl)]
  change Written _ _ _ _ (s.call (.delete key)).2.contents
  rw [hcall]
  exact .drop

theorem authorized_written {c : Command} {body : TimedStore σ → Reply × TimedStore σ}
    (hbody : ∀ {s : TimedStore σ}, (body s).1 = .ok →
      Written secret identity s.contents c (body s).2.contents)
    (h : (authorized secret identity body s).1 = .ok) :
    Written secret identity s.contents c (authorized secret identity body s).2.contents := by
  cases secret with
  | none => exact hbody h
  | some x =>
      by_cases hmarked : (s.call (.get identity)).1 = .ok x
      · have hget : (s.call (.get identity)).2.contents = s.contents := TimedStore.contents_call_get
        rw [authorized_of_marked body hmarked] at h ⊢
        rw [← hget]
        exact hbody h
      · rw [authorized_of_not_marked body hmarked] at h
        cases h

end

variable {σ : Type} [Store σ] [MapStore σ] {s : TimedStore (Recorded σ)} {secret : Option String}
  {identity : String} {frame : Bytes}

/-- A request that is answered `OK` has written what its command says. -/
theorem exists_written (h : (execute secret identity frame s).1 = .ok) :
    ∃ c, Command.parse frame = .ok c ∧
      Written secret identity s.contents c (execute secret identity frame s).2.contents := by
  cases hparse : Command.parse frame with
  | error e =>
      rw [execute_of_error hparse] at h
      exact absurd h (ofFrameError_ne_ok e)
  | ok c =>
      refine ⟨c, rfl, ?_⟩
      rw [execute_of_ok hparse] at h ⊢
      cases c with
      | auth candidate => exact authenticate_written h
      | set key value ttl => exact authorized_written set_written h
      | get key =>
          -- a `GET` is never answered `OK`
          exact authorized_written (fun hok ↦ absurd hok get_ne_ok) h
      | del key => exact authorized_written del_written h

theorem contents_execute_of_ne_ok [KeyedStore σ]
    (h : (execute secret identity frame s).1 ≠ .ok) :
    (execute secret identity frame s).2.contents = s.contents :=
  congrArg (fun t ↦ MapStore.contents t.store.store) (forget_execute h)

end Dispatch

end KvServer
