import KvServer.Proofs.Dispatch.Execution
import KvServer.Proofs.Store.Contents

/-!
# What a frame changes

On a store that keeps a map, `execute_effect` sums up all that a frame may do to the values of the
keys: nothing, or one of three changes, each under its own condition and with the reply `OK`.
Settling only takes values away (`contents_settle_of_some`).  A command other than `AUTH` is refused
exactly if the look-up of the mark does not give the secret (`run_eq_invalidAuth_iff`).
-/

namespace KvServer

open Function Text

namespace TimedStore

variable {σ : Type} [Store σ] [MapStore σ] {s : TimedStore σ} {key value : String} {token : Nat}

def contents (s : TimedStore σ) : String → Option String := MapStore.contents s.store

theorem contents_call_cases (c : Call) (s : TimedStore σ) :
    (∃ e, (s.call c).1 = .error e ∧ (s.call c).2.contents = s.contents) ∨
      ((s.call c).1 = c.outcomeOn s.contents ∧
        (s.call c).2.contents = c.contentsAfter s.contents) :=
  MapStore.call_cases c s.store

@[simp] theorem contents_call_get : (s.call (.get key)).2.contents = s.contents := by
  rcases contents_call_cases (.get key) s with ⟨e, -, h⟩ | ⟨-, h⟩ <;> exact h

theorem eq_some_of_call_get (h : (s.call (.get key)).1 = .ok value) :
    s.contents key = some value := by
  rcases contents_call_cases (.get key) s with ⟨e, he, -⟩ | ⟨ho, -⟩
  · rw [he] at h
    cases h
  · rw [ho] at h
    cases hv : s.contents key with
    | none => simp [Call.outcomeOn, hv] at h
    | some other =>
        simp only [Call.outcomeOn, hv, Except.ok.injEq] at h
        rw [h]

theorem contents_write_of_error {apply : σ → Except StoreError Unit × σ} {e : StoreError}
    {store : σ} (ttl : Option Nat) (h : apply s.store = (.error e, store)) :
    (s.write key ttl apply).2.contents = MapStore.contents store := by
  rw [write_of_error ttl h]
  rfl

theorem contents_write_of_ok {apply : σ → Except StoreError Unit × σ} {store : σ}
    (ttl : Option Nat) (h : apply s.store = (.ok (), store)) :
    (s.write key ttl apply).2.contents = MapStore.contents store := by
  rw [write_of_ok ttl h, contents, rearm_store]

/-- A timer that runs out only takes a value away. -/
theorem contents_fire_of_some (hs : s.Coherent)
    (h : (s.fire token).contents key = some value) : s.contents key = some value := by
  obtain ⟨own, -, hfire⟩ | ⟨-, hfire⟩ := hs.fire_cases token
  · rw [hfire] at h
    rcases contents_call_cases (.delete own) s with ⟨e, -, hv⟩ | ⟨-, hv⟩
    · rwa [← hv]
    · change (s.call (.delete own)).2.contents key = some value at h
      rw [hv, Call.contentsAfter] at h
      by_cases hk : key = own
      · simp [hk] at h
      · rwa [update_of_ne hk] at h
  · rw [hfire] at h
    exact h

theorem contents_settle_of_some (hs : s.Coherent) (h : s.settle.contents key = some value) :
    s.contents key = some value := by
  refine hs.settle_induction
    (P := fun s' ↦ s'.contents key = some value → s.contents key = some value) id id ?_ h
  exact fun s' token hs' hkept hvalue ↦ hkept (contents_fire_of_some hs' hvalue)

end TimedStore

/-- A command for which a client has to hold the secret. -/
def Command.NeedsMark : Command → Prop
  | .auth _ => False
  | .set .. | .get _ | .del _ => True

namespace Dispatch

variable {σ : Type} [Store σ] {s : TimedStore σ} {secret : Option String} {identity : String}

theorem replyOf_ne_invalidAuth {α : Type} (o : Except StoreError α) : replyOf o ≠ .invalidAuth := by
  unfold replyOf
  split <;> simp

theorem exists_authorized {c : Command} (hc : c.NeedsMark) (secret : Option String)
    (identity : String) :
    ∃ body : TimedStore σ → Reply × TimedStore σ, (∀ s, (body s).1 ≠ .invalidAuth) ∧
      ∀ s, run secret identity c s = authorized secret identity body s := by
  cases c with
  | auth candidate => exact hc.elim
  | set key value ttl =>
      refine ⟨set key value ttl, fun s ↦ ?_, fun s ↦ rfl⟩
      rw [set_eq]
      exact replyOf_ne_invalidAuth _
  | get key =>
      refine ⟨get key, fun s ↦ ?_, fun s ↦ rfl⟩
      unfold get
      rcases s.call (.get key) with ⟨e | value, s'⟩ <;> simp
  | del key =>
      refine ⟨del key, fun s ↦ ?_, fun s ↦ rfl⟩
      rw [del_eq]
      exact replyOf_ne_invalidAuth _

/-- Who is refused, and that nothing happens then but the look-up. -/
theorem run_eq_invalidAuth_iff {c : Command} (hc : c.NeedsMark) (secret identity : String)
    (s : TimedStore σ) :
    ((run (some secret) identity c s).1 = .invalidAuth ↔
        (s.call (.get identity)).1 ≠ .ok secret) ∧
      ((run (some secret) identity c s).1 = .invalidAuth →
        (run (some secret) identity c s).2 = (s.call (.get identity)).2) := by
  obtain ⟨body, hbody, hrun⟩ := exists_authorized (σ := σ) hc (some secret) identity
  rw [hrun]
  by_cases hmarked : (s.call (.get identity)).1 = .ok secret
  · rw [authorized_of_marked body hmarked]
    exact ⟨⟨fun h ↦ absurd h (hbody _), fun h ↦ absurd hmarked h⟩, fun h ↦ absurd h (hbody _)⟩
  · rw [authorized_of_not_marked body hmarked]
    exact ⟨⟨fun _ ↦ hmarked, fun _ ↦ rfl⟩, fun _ ↦ rfl⟩

/-- What a frame may do to the values of the keys, by the command that it holds. -/
inductive Effect (secret : Option String) (identity : String) (v : String → Option String) :
    Except FrameError Command → Reply → (String → Option String) → Prop
  | same {p : Except FrameError Command} {r : Reply} : Effect secret identity v p r v
  | mark {x : String} (hsecret : secret = some x) :
      Effect secret identity v (.ok (.auth x)) .ok (update v identity (some x))
  | put {key value : String} {ttl : Option Nat} (hmark : ∀ x ∈ secret, v identity = some x) :
      Effect secret identity v (.ok (.set key value ttl)) .ok (update v key (some value))
  | drop {key : String} (hmark : ∀ x ∈ secret, v identity = some x) :
      Effect secret identity v (.ok (.del key)) .ok (update v key none)

variable [MapStore σ]

theorem authorized_effect {c : Command} {body : TimedStore σ → Reply × TimedStore σ}
    (hbody : ∀ s' : TimedStore σ, (∀ x ∈ secret, s'.contents identity = some x) →
      Effect secret identity s'.contents (.ok c) (body s').1 (body s').2.contents) :
    Effect secret identity s.contents (.ok c) (authorized secret identity body s).1
      (authorized secret identity body s).2.contents := by
  cases secret with
  | none => exact hbody s (by simp)
  | some secret =>
      by_cases hmarked : (s.call (.get identity)).1 = .ok secret
      · have hmark : ∀ x ∈ some secret, s.contents identity = some x := by
          rintro x ⟨⟩
          exact TimedStore.eq_some_of_call_get hmarked
        rw [authorized_of_marked body hmarked]
        have heffect := hbody (s.call (.get identity)).2
        rw [TimedStore.contents_call_get] at heffect
        exact heffect hmark
      · rw [authorized_of_not_marked body hmarked, TimedStore.contents_call_get]
        exact .same

theorem set_effect {key value : String} {ttl : Option Nat}
    (hmark : ∀ x ∈ secret, s.contents identity = some x) :
    Effect secret identity s.contents (.ok (.set key value ttl)) (set key value ttl s).1
      (set key value ttl s).2.contents := by
  rw [set_eq]
  rcases TimedStore.contents_call_cases (.set key value) s with ⟨e, he, hv⟩ | ⟨ho, hv⟩
  · have happly : Store.call (.set key value) s.store =
        (.error e, (s.call (.set key value)).2.store) := Prod.ext he rfl
    rw [TimedStore.contents_write_of_error _ happly]
    change Effect _ _ _ _ _ (s.call (.set key value)).2.contents
    rw [hv]
    exact .same
  · have happly : Store.call (.set key value) s.store =
        (.ok (), (s.call (.set key value)).2.store) := Prod.ext ho rfl
    rw [TimedStore.contents_write_of_ok _ happly, TimedStore.write_of_ok _ happly]
    change Effect _ _ _ _ _ (s.call (.set key value)).2.contents
    rw [hv]
    exact .put hmark

theorem del_effect {key : String} (hmark : ∀ x ∈ secret, s.contents identity = some x) :
    Effect secret identity s.contents (.ok (.del key)) (del key s).1 (del key s).2.contents := by
  rw [del_eq]
  have hcases := TimedStore.contents_call_cases (.delete key) s
  rcases hcall : Store.call (.delete key) s.store with ⟨e | ⟨⟩, store⟩
  · have hsame : (s.call (.delete key)).2.contents = s.contents := by
      rcases hcases with ⟨-, -, hv⟩ | ⟨ho, hv⟩
      · exact hv
      · -- the key had no value to delete
        rw [TimedStore.call_fst, hcall] at ho
        cases hvalue : s.contents key with
        | none => rw [hv, Call.contentsAfter, ← hvalue, update_eq_self]
        | some value => simp [Call.outcomeOn, hvalue] at ho
    rw [TimedStore.contents_write_of_error none hcall]
    rw [TimedStore.contents, TimedStore.call_snd, hcall] at hsame
    rw [hsame]
    exact .same
  · have hdrop : (s.call (.delete key)).2.contents = update s.contents key none := by
      rcases hcases with ⟨e, he, -⟩ | ⟨-, hv⟩
      · rw [TimedStore.call_fst, hcall] at he
        cases he
      · exact hv
    rw [TimedStore.contents_write_of_ok none hcall, TimedStore.write_of_ok none hcall]
    rw [TimedStore.contents, TimedStore.call_snd, hcall] at hdrop
    rw [hdrop]
    exact .drop hmark

theorem authenticate_effect {candidate : String} :
    Effect secret identity s.contents (.ok (.auth candidate))
      (authenticate secret identity candidate s).1
      (authenticate secret identity candidate s).2.contents := by
  cases secret with
  | none => exact .same
  | some secret =>
      rw [authenticate_some]
      by_cases hc : candidate = secret
      · subst hc
        rw [if_pos rfl]
        rcases TimedStore.contents_call_cases (.auth identity candidate) s with
          ⟨e, he, hv⟩ | ⟨ho, hv⟩
        · rw [hv]
          exact .same
        · rw [hv, ho]
          exact .mark rfl
      · rw [if_neg hc]
        exact .same

/-- All that a frame may do to the values of the keys. -/
theorem execute_effect (frame : Bytes) :
    Effect secret identity s.contents (Command.parse frame) (execute secret identity frame s).1
      (execute secret identity frame s).2.contents := by
  cases hparse : Command.parse frame with
  | error e =>
      rw [execute_of_error hparse]
      exact .same
  | ok c =>
      rw [execute_of_ok hparse]
      cases c with
      | auth candidate => exact authenticate_effect
      | set key value ttl => exact authorized_effect fun s' ↦ set_effect
      | get key =>
          refine authorized_effect fun s' _ ↦ ?_
          rw [get_snd, TimedStore.contents_call_get]
          exact .same
      | del key => exact authorized_effect fun s' ↦ del_effect

end Dispatch

end KvServer
