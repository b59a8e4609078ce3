import KvServer.Store.Memory
import KvServer.Store.Recorded
import Mathlib.Logic.Function.Basic

/-!
# The map behind a store

`Call.outcomeOn` and `Call.contentsAfter` say what a call does to a map from keys to values.  A
store keeps a map when each call either does this or fails and leaves the map alone.  The store in
memory never fails on its own; a schedule of faults and a record of calls may be put around any
store that keeps a map.
-/

namespace KvServer

open Function

/-- What a call answers on a map from keys to values. -/
def Call.outcomeOn (c : Call) (v : String → Option String) : c.Outcome :=
  match c with
  | .get key =>
      match v key with
      | some value => .ok value
      | none => .error (.notFound key)
  | .delete key =>
      match v key with
      | some _ => .ok ()
      | none => .error (.notFound key)
  | .set .. | .auth .. | .flush => .ok ()

def Call.contentsAfter (c : Call) (v : String → Option String) : String → Option String :=
  match c with
  | .set key value | .auth key value => update v key (some value)
  | .delete key => update v key none
  | .get _ | .flush => v

/-- A store that keeps a map from keys to values: a call acts on the map or fails without a
trace in it. -/
class MapStore (σ : Type) [Store σ] where
  contents : σ → String → Option String
  call_cases : ∀ (c : Call) (s : σ),
    (∃ e, (Store.call c s).1 = .error e ∧ contents (Store.call c s).2 = contents s) ∨
      ((Store.call c s).1 = c.outcomeOn (contents s) ∧
        contents (Store.call c s).2 = c.contentsAfter (contents s))

namespace Memory

def contents (m : Memory) (key : String) : Option String := m.values[key]?

theorem contents_set (key value : String) (m : Memory) :
    (m.set key value).contents = update m.contents key (some value) := by
  funext other
  by_cases h : key = other
  · subst h
    simp [contents, Memory.set]
  · simp [contents, Memory.set, Std.ExtTreeMap.getElem?_insert, h, update_of_ne (Ne.symm h)]

theorem contents_delete (key : String) (m : Memory) :
    (m.delete key).2.contents = update m.contents key none := by
  by_cases hmem : key ∈ m.values
  · funext other
    by_cases h : key = other
    · subst h
      simp [contents, Memory.delete, hmem]
    · simp [contents, Memory.delete, hmem, Std.ExtTreeMap.getElem?_erase, h,
        update_of_ne (Ne.symm h)]
  · have hnone : m.contents key = none := Std.ExtTreeMap.getElem?_eq_none hmem
    rw [← hnone, update_eq_self]
    simp [Memory.delete, hmem]

/-- A call on the store in memory does what it does on the map. -/
theorem call_eq (c : Call) (m : Memory) :
    (Store.call c m).1 = c.outcomeOn m.contents ∧
      (Store.call c m).2.contents = c.contentsAfter m.contents := by
  cases c with
  | get key => exact ⟨rfl, rfl⟩
  | set key value => exact ⟨rfl, m.contents_set key value⟩
  | auth identity secret => exact ⟨rfl, m.contents_set identity secret⟩
  | flush => exact ⟨rfl, rfl⟩
  | delete key =>
      refine ⟨?_, m.contents_delete key⟩
      by_cases hmem : key ∈ m.values <;>
        simp [Store.call, Memory.delete, Call.outcomeOn, contents, hmem]

instance : MapStore Memory where
  contents := contents
  call_cases c m := Or.inr (call_eq c m)

end Memory

/-- A store whose calls meet the faults of a schedule: the call made as the `n`-th fails with
`plan n`, if that is an error, and does not reach the store inside. -/
structure Faulty (σ : Type) where
  store : σ
  plan : Nat → Option StoreError
  made : Nat := 0

namespace Faulty

variable {σ : Type} [Store σ]

instance : Store (Faulty σ) where
  call c f :=
    match f.plan f.made with
    | some e => (.error e, { f with made := f.made + 1 })
    | none =>
        let (o, store) := Store.call c f.store
        (o, { f with store, made := f.made + 1 })

instance [MapStore σ] : MapStore (Faulty σ) where
  contents f := MapStore.contents f.store
  call_cases c f := by
    cases h : f.plan f.made with
    | some e => exact Or.inl ⟨e, by simp [Store.call, h]⟩
    | none => simpa [Store.call, h] using MapStore.call_cases c f.store

end Faulty

namespace Recorded

variable {σ : Type} [Store σ] {r : Recorded σ}

theorem call_of_fault {c : Call} {e : StoreError} (h : r.faults c.kind = some e) :
    Store.call c r = (.error e, r.note c (.error e)) := by
  simp [Store.call, h]

theorem call_of_no_fault {c : Call} (h : r.faults c.kind = none) :
    Store.call c r =
      ((Store.call c r.store).1,
        Recorded.note c (Store.call c r.store).1
          { r with store := (Store.call c r.store).2 }) := by
  simp [Store.call, h, direct]

theorem notes_call (c : Call) (r : Recorded σ) :
    (Store.call c r).2.notes = ⟨c, (Store.call c r).1.error?⟩ :: r.notes := by
  cases h : r.faults c.kind with
  | some e => rw [call_of_fault h]; rfl
  | none => rw [call_of_no_fault h]; rfl

theorem faults_call (c : Call) (r : Recorded σ) : (Store.call c r).2.faults = r.faults := by
  cases h : r.faults c.kind with
  | some e => rw [call_of_fault h]; rfl
  | none => rw [call_of_no_fault h]; rfl

instance [MapStore σ] : MapStore (Recorded σ) where
  contents r := MapStore.contents r.store
  call_cases c r := by
    cases h : r.faults c.kind with
    | some e => exact Or.inl ⟨e, by rw [call_of_fault h]; exact ⟨rfl, rfl⟩⟩
    | none =>
        rw [call_of_no_fault h]
        exact MapStore.call_cases c r.store

end Recorded

end KvServer
