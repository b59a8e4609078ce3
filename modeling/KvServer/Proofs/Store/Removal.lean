import KvServer.Proofs.Store.Keyed

/-!
# Removals

After a removal nothing is found under the key, whether it has succeeded or not.  Removals of two
keys do not see each other: each is answered as without the other, and both together leave the same
store in either order.  The store in memory and the durable tree are of this kind, so any choice of
them is.
-/

namespace KvServer

open Std (ExtTreeMap)
open Text

/-- A store in which a removal leaves nothing under its key, and removals of two keys do not see
each other. -/
class ErasingStore (σ : Type) [Store σ] : Prop where
  lookUp_ne_ok : ∀ (key value : String) (s : σ),
    Store.lookUp key (Store.call (.delete key) s).2 ≠ .ok value
  outcome_eq : ∀ {key other : String} (s : σ), key ≠ other →
    (Store.call (.delete key) (Store.call (.delete other) s).2).1 = (Store.call (.delete key) s).1
  comm : ∀ (key other : String) (s : σ),
    (Store.call (.delete key) (Store.call (.delete other) s).2).2 =
      (Store.call (.delete other) (Store.call (.delete key) s).2).2

theorem erase_of_notMem {α β : Type} [Ord α] [Std.TransOrd α] [Std.LawfulEqOrd α]
    {m : ExtTreeMap α β} {a : α} (h : a ∉ m) : m.erase a = m := by
  apply ExtTreeMap.ext_getElem?
  intro b
  rw [ExtTreeMap.getElem?_erase]
  by_cases hab : a = b
  · simp [← hab, ExtTreeMap.getElem?_eq_none h]
  · simp [hab]

theorem erase_comm {α β : Type} [Ord α] [Std.TransOrd α] [Std.LawfulEqOrd α]
    (m : ExtTreeMap α β) (a b : α) : (m.erase a).erase b = (m.erase b).erase a := by
  apply ExtTreeMap.ext_getElem?
  intro c
  simp only [ExtTreeMap.getElem?_erase]
  split
  · rw [ite_self]
  · rfl

namespace Memory

variable {m : Memory} {key other : String}

theorem delete_fst (key : String) (m : Memory) :
    (m.delete key).1 = if key ∈ m.values then .ok () else .error (.notFound key) := by
  unfold delete
  split <;> rfl

theorem delete_snd (key : String) (m : Memory) : (m.delete key).2 = ⟨m.values.erase key⟩ := by
  unfold delete
  split
  · rfl
  · rename_i h
    rw [erase_of_notMem h]

instance : ErasingStore Memory where
  lookUp_ne_ok := by
    intro key value m
    change (m.delete key).2.get key ≠ .ok value
    simp [delete_snd, get]
  outcome_eq := by
    intro key other m hne
    change ((m.delete other).2.delete key).1 = (m.delete key).1
    simp [delete_fst, delete_snd, hne.symm]
  comm := by
    intro key other m
    change ((m.delete other).2.delete key).2 = ((m.delete key).2.delete other).2
    rw [delete_snd, delete_snd, delete_snd, delete_snd, erase_comm]

end Memory

namespace Tree

variable {t : Tree} {key other : String}

theorem delete_fst (key : String) (t : Tree) :
    (t.delete key).1 = if bytesOf key ∈ t.entries then .ok () else .error (.notFound key) := by
  unfold delete
  split <;> rfl

theorem delete_snd (key : String) (t : Tree) :
    (t.delete key).2 = ⟨t.entries.erase (bytesOf key)⟩ := by
  unfold delete
  split
  · rfl
  · rename_i h
    rw [erase_of_notMem h]

instance : ErasingStore Tree where
  lookUp_ne_ok := by
    intro key value t
    change (t.delete key).2.get key ≠ .ok value
    simp [delete_snd, get]
  outcome_eq := by
    intro key other t hne
    have hbytes : bytesOf other ≠ bytesOf key := fun h ↦ hne (bytesOf_injective h).symm
    change ((t.delete other).2.delete key).1 = (t.delete key).1
    simp [delete_fst, delete_snd, hbytes]
  comm := by
    intro key other t
    change ((t.delete other).2.delete key).2 = ((t.delete key).2.delete other).2
    rw [delete_snd, delete_snd, delete_snd, delete_snd, erase_comm]

end Tree

instance : ErasingStore AnyStore where
  lookUp_ne_ok := by
    intro key value s
    cases s with
    | memory m => exact ErasingStore.lookUp_ne_ok (σ := Memory) key value m
    | tree t => exact ErasingStore.lookUp_ne_ok (σ := Tree) key value t
  outcome_eq := by
    intro key other s hne
    cases s with
    | memory m => exact ErasingStore.outcome_eq (σ := Memory) m hne
    | tree t => exact ErasingStore.outcome_eq (σ := Tree) t hne
  comm := by
    intro key other s
    cases s with
    | memory m => exact congrArg AnyStore.memory (ErasingStore.comm (σ := Memory) key other m)
    | tree t => exact congrArg AnyStore.tree (ErasingStore.comm (σ := Tree) key other t)

namespace Recorded

variable {σ : Type} [Store σ] [ErasingStore σ] {key value : String} {r : Recorded σ}

/-- A removal, also one that fails, gives no key a value that it did not have. -/
theorem lookUp_delete_ne_ok [KeyedStore σ] (h : Store.lookUp key r.store ≠ .ok value)
    (other : String) : Store.lookUp key (Store.call (.delete other) r).2.store ≠ .ok value := by
  by_cases hkey : other = key
  · subst hkey
    cases hfault : r.faults (Call.delete other).kind with
    | some e =>
        rw [call_of_fault hfault]
        exact h
    | none =>
        rw [call_of_no_fault hfault]
        exact ErasingStore.lookUp_ne_ok other value r.store
  · have hne : (Call.delete other).key? ≠ some key := by simpa [Call.key?] using hkey
    rwa [lookUp_call_of_ne hne]

end Recorded

end KvServer
