import KvServer.Proofs.Reply.Line
import KvServer.Proofs.Store.Contents
import KvServer.Store.Choice

/-!
# Calls and their keys

Every call but a flush is about one key.  In a keyed store what a look-up of another key finds stays
as it is, and a call that fails, or only looks up, leaves the store as it was.  The store in memory
and the durable tree are keyed, so any choice of them is.
-/

namespace KvServer

open Text

/-- The key that a call is about. -/
def Call.key? : Call → Option String
  | .get key | .set key _ | .delete key | .auth key _ => some key
  | .flush => none

/-- What a look-up of a key finds. -/
def Store.lookUp {σ : Type} [Store σ] (key : String) (s : σ) : Except StoreError String :=
  (Store.call (.get key) s).1

/-- A store that a call changes at its own key only, and only if it succeeds. -/
class KeyedStore (σ : Type) [Store σ] : Prop where
  eq_of_error : ∀ {c : Call} {s : σ} {e : StoreError},
    (Store.call c s).1 = .error e → (Store.call c s).2 = s
  eq_of_get : ∀ (key : String) (s : σ), (Store.call (.get key) s).2 = s
  lookUp_of_ne : ∀ {c : Call} {other : String} (s : σ), c.key? ≠ some other →
    Store.lookUp other (Store.call c s).2 = Store.lookUp other s

namespace Memory

variable {m : Memory} {key other : String}

theorem get_set_of_ne (h : key ≠ other) (value : String) :
    (m.set key value).get other = m.get other := by
  simp [get, set, Std.ExtTreeMap.getElem?_insert, h]

theorem get_delete_of_ne (h : key ≠ other) : (m.delete key).2.get other = m.get other := by
  unfold delete
  split
  · simp [get, Std.ExtTreeMap.getElem?_erase, h]
  · rfl

instance : KeyedStore Memory where
  eq_of_error := by
    intro c m e h
    cases c with
    | get key => rfl
    | delete key =>
        by_cases hmem : key ∈ m.values
        · simp [Store.call, delete, hmem] at h
        · simp [Store.call, delete, hmem]
    | set key value | auth key value | flush => cases h
  eq_of_get _ _ := rfl
  lookUp_of_ne := by
    intro c other m h
    cases c with
    | get key | flush => rfl
    | set key value | auth key value =>
        exact get_set_of_ne (fun hkey ↦ h (congrArg some hkey)) value
    | delete key => exact get_delete_of_ne fun hkey ↦ h (congrArg some hkey)

end Memory

namespace Tree

variable {t : Tree} {key other : String}

theorem get_put_of_ne (h : key ≠ other) (value : Bytes) :
    (t.put key value).get other = t.get other := by
  have hbytes : bytesOf key ≠ bytesOf other := fun hbytes ↦ h (bytesOf_injective hbytes)
  simp [get, put, Std.ExtTreeMap.getElem?_insert, hbytes]

theorem get_delete_of_ne (h : key ≠ other) : (t.delete key).2.get other = t.get other := by
  have hbytes : bytesOf key ≠ bytesOf other := fun hbytes ↦ h (bytesOf_injective hbytes)
  unfold delete
  split
  · simp [get, Std.ExtTreeMap.getElem?_erase, hbytes]
  · rfl

instance : KeyedStore Tree where
  eq_of_error := by
    intro c t e h
    cases c with
    | get key => rfl
    | delete key =>
        by_cases hmem : bytesOf key ∈ t.entries
        · simp [Store.call, delete, hmem] at h
        · simp [Store.call, delete, hmem]
    | set key value | auth key value | flush => cases h
  eq_of_get _ _ := rfl
  lookUp_of_ne := by
    intro c other t h
    cases c with
    | get key | flush => rfl
    | set key value | auth key value =>
        exact get_put_of_ne (fun hkey ↦ h (congrArg some hkey)) (bytesOf value)
    | delete key => exact get_delete_of_ne fun hkey ↦ h (congrArg some hkey)

end Tree

instance : KeyedStore AnyStore where
  eq_of_error := by
    intro c s e h
    cases s with
    | memory m => exact congrArg AnyStore.memory (KeyedStore.eq_of_error (σ := Memory) h)
    | tree t => exact congrArg AnyStore.tree (KeyedStore.eq_of_error (σ := Tree) h)
  eq_of_get := by
    intro key s
    cases s with
    | memory m => rfl
    | tree t => rfl
  lookUp_of_ne := by
    intro c other s h
    cases s with
    | memory m => exact KeyedStore.lookUp_of_ne (σ := Memory) m h
    | tree t => exact KeyedStore.lookUp_of_ne (σ := Tree) t h

namespace Recorded

variable {σ : Type} [Store σ] [KeyedStore σ] {r : Recorded σ} {c : Call}

omit [Store σ] [KeyedStore σ] in
@[simp] theorem forget_note (c : Call) (o : c.Outcome) (r : Recorded σ) :
    (r.note c o).forget = r.forget := rfl

/-- A call that fails leaves its note and nothing else. -/
theorem forget_call_of_error {e : StoreError} (h : (Store.call c r).1 = .error e) :
    (Store.call c r).2.forget = r.forget := by
  cases hfault : r.faults c.kind with
  | some e => rw [call_of_fault hfault, forget_note]
  | none =>
      rw [call_of_no_fault hfault] at h ⊢
      rw [forget_note, KeyedStore.eq_of_error h]

theorem forget_call_get (key : String) (r : Recorded σ) :
    (Store.call (.get key) r).2.forget = r.forget := by
  cases hfault : r.faults (Call.get key).kind with
  | some e => rw [call_of_fault hfault, forget_note]
  | none => rw [call_of_no_fault hfault, forget_note, KeyedStore.eq_of_get]

theorem lookUp_call_of_ne {other : String} (h : c.key? ≠ some other) (r : Recorded σ) :
    Store.lookUp other (Store.call c r).2.store = Store.lookUp other r.store := by
  cases hfault : r.faults c.kind with
  | some e => rw [call_of_fault hfault]; rfl
  | none =>
      rw [call_of_no_fault hfault]
      exact KeyedStore.lookUp_of_ne r.store h

end Recorded

end KvServer
