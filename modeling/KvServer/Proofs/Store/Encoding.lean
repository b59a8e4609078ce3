import KvServer.Proofs.Dispatch.Bisimulation
import KvServer.Proofs.Reply.Line
import KvServer.Store.Memory
import KvServer.Store.Tree
import Mathlib.Data.List.Nodup

/-!
# A tree of bytes that holds texts

A tree encodes a store in memory when it holds the UTF-8 bytes of its keys and values and nothing
else.  The encoding is injective, so calls cannot tell the two apart: reads never meet bytes that
are no text, and writes to one key leave the others alone.  This survives whatever keeps the
contents of the tree, such as closing it and opening it again.  `Durable` is a tree that is subject
to this before every call.
-/

namespace KvServer

open Text

theorem Text.stringOf_eq_ok_iff {bytes : Bytes} {s : String} :
    stringOf bytes = .ok s ↔ bytesOf s = bytes := by
  cases hdecode : decode bytes with
  | error f =>
      simp only [stringOf, hdecode, Except.map, reduceCtorEq, false_iff]
      exact exists_decode_eq_error_iff.mp ⟨f, hdecode⟩ s.toList
  | ok cs =>
      rw [← decode_eq_ok_iff.mp hdecode]
      simp only [stringOf, decode_encode, Except.map, Except.ok.injEq]
      constructor
      · rintro rfl
        rw [bytesOf, String.toList_ofList]
      · intro hs
        rw [← encode_injective hs, String.ofList_toList]

theorem nodup_toList {α β : Type} [Ord α] [Std.TransOrd α] [Std.LawfulEqOrd α]
    (m : Std.ExtTreeMap α β) : m.toList.Nodup := by
  apply List.Pairwise.imp _ Std.ExtTreeMap.distinct_keys_toList
  intro e e' hkeys he
  exact hkeys (by rw [he, Std.compare_self])

namespace Tree

variable {t : Tree}

theorem mem_texts_iff {key value : String} :
    (key, value) ∈ t.texts ↔ (bytesOf key, bytesOf value) ∈ t.entries.toList := by
  simp only [texts, List.mem_filterMap]
  constructor
  · rintro ⟨⟨k, v⟩, hmem, htext⟩
    split at htext
    · rename_i hkey hvalue
      cases htext
      rwa [stringOf_eq_ok_iff.mp hkey, stringOf_eq_ok_iff.mp hvalue]
    · cases htext
  · intro hmem
    refine ⟨_, hmem, ?_⟩
    simp only [stringOf_eq_ok_iff.mpr rfl]

theorem nodup_texts (t : Tree) : t.texts.Nodup := by
  apply List.Nodup.filterMap _ (nodup_toList t.entries)
  rintro ⟨k, v⟩ ⟨k', v'⟩ text htext htext'
  simp only [Option.mem_def] at htext htext'
  split at htext
  · rename_i hkey hvalue
    cases htext
    split at htext'
    · rename_i hkey' hvalue'
      cases htext'
      rw [← stringOf_eq_ok_iff.mp hkey, ← stringOf_eq_ok_iff.mp hvalue,
        ← stringOf_eq_ok_iff.mp hkey', ← stringOf_eq_ok_iff.mp hvalue']
    · cases htext'
  · cases htext

end Tree

/-- The tree holds the encoded keys and values of the store in memory and nothing else. -/
structure Tree.Encodes (t : Tree) (m : Memory) : Prop where
  value : ∀ key : String, t.entries[bytesOf key]? = m.values[key]?.map bytesOf
  key : ∀ bytes ∈ t.entries, ∃ text, bytesOf text = bytes

namespace Tree.Encodes

variable {t : Tree} {m : Memory}

theorem empty : Encodes {} {} where
  value := by simp
  key := by simp

theorem get (h : t.Encodes m) (key : String) : t.get key = m.get key := by
  rw [Tree.get, Memory.get, h.value]
  cases m.values[key]? with
  | none => rfl
  | some value => simp [readValue, stringOf_eq_ok_iff.mpr rfl, Except.mapError]

theorem put (h : t.Encodes m) (key value : String) :
    (t.put key (bytesOf value)).Encodes (m.set key value) where
  value other := by
    simp only [Tree.put, Memory.set, Std.ExtTreeMap.getElem?_insert, Std.compare_eq_iff_eq, h.value]
    by_cases hkey : key = other
    · simp [hkey]
    · have hbytes : bytesOf key ≠ bytesOf other := fun hbytes ↦ hkey (bytesOf_injective hbytes)
      simp [hkey, hbytes]
  key bytes hbytes := by
    rcases Std.ExtTreeMap.mem_insert.mp hbytes with hnew | hold
    · exact ⟨key, Std.compare_eq_iff_eq.mp hnew⟩
    · exact h.key bytes hold

theorem mem_iff (h : t.Encodes m) (key : String) : bytesOf key ∈ t.entries ↔ key ∈ m.values := by
  rw [Std.ExtTreeMap.mem_iff_isSome_getElem?, Std.ExtTreeMap.mem_iff_isSome_getElem?, h.value,
    Option.isSome_map]

theorem delete (h : t.Encodes m) (key : String) :
    (t.delete key).1 = (m.delete key).1 ∧ (t.delete key).2.Encodes (m.delete key).2 := by
  by_cases hmem : key ∈ m.values
  · rw [Tree.delete, Memory.delete, if_pos hmem, if_pos ((h.mem_iff key).mpr hmem)]
    refine ⟨rfl, ?_, ?_⟩
    · intro other
      simp only [Std.ExtTreeMap.getElem?_erase, Std.compare_eq_iff_eq, h.value]
      by_cases hkey : key = other
      · simp [hkey]
      · have hbytes : bytesOf key ≠ bytesOf other := fun hbytes ↦ hkey (bytesOf_injective hbytes)
        simp [hkey, hbytes]
    · intro bytes hbytes
      exact h.key bytes (Std.ExtTreeMap.mem_of_mem_erase hbytes)
  · rw [Tree.delete, Memory.delete, if_neg hmem, if_neg fun hbytes ↦ hmem ((h.mem_iff key).mp hbytes)]
    exact ⟨rfl, h⟩

/-- A call on the tree is answered as on the store in memory, errors included. -/
theorem call (h : t.Encodes m) (c : Call) :
    (Store.call c t).1 = (Store.call c m).1 ∧ (Store.call c t).2.Encodes (Store.call c m).2 := by
  cases c with
  | get key => exact ⟨h.get key, h⟩
  | set key value => exact ⟨rfl, h.put key value⟩
  | delete key => exact h.delete key
  | auth identity secret => exact ⟨rfl, h.put identity secret⟩
  | flush => exact ⟨rfl, h⟩

/-- All that the tree holds is text, and it is what the store in memory holds. -/
theorem texts_perm (h : t.Encodes m) : t.texts.Perm m.entries := by
  apply (List.perm_ext_iff_of_nodup t.nodup_texts (nodup_toList m.values)).mpr
  rintro ⟨key, value⟩
  rw [mem_texts_iff, Std.ExtTreeMap.mem_toList_iff_getElem?_eq_some,
    Std.ExtTreeMap.mem_toList_iff_getElem?_eq_some, h.value, Option.map_eq_some_iff]
  constructor
  · rintro ⟨text, htext, hbytes⟩
    rwa [← bytesOf_injective hbytes]
  · intro hvalue
    exact ⟨value, hvalue, rfl⟩

end Tree.Encodes

/-! ## Interruptions -/

/-- What keeps the contents of every tree. -/
def Tree.Survives (interrupt : Tree → Tree) : Prop :=
  ∀ (t : Tree) (bytes : Bytes), (interrupt t).entries[bytes]? = t.entries[bytes]?

theorem Tree.survives_reopen : Tree.Survives Tree.reopen := fun _ _ ↦ rfl

theorem Tree.Encodes.interrupt {t : Tree} {m : Memory} (h : t.Encodes m) {interrupt : Tree → Tree}
    (hi : Tree.Survives interrupt) : (interrupt t).Encodes m where
  value key := (hi t _).trans (h.value key)
  key bytes hbytes := by
    apply h.key
    rw [Std.ExtTreeMap.mem_iff_isSome_getElem?] at hbytes ⊢
    rwa [hi] at hbytes

/-- A tree that is interrupted before every call: before the one made as the `n`-th it becomes what
`interrupt n` makes of it. -/
structure Durable where
  tree : Tree := {}
  interrupt : Nat → Tree → Tree
  made : Nat := 0

namespace Durable

instance : Store Durable where
  call c d :=
    let (o, tree) := Store.call c (d.interrupt d.made d.tree)
    (o, { d with tree, made := d.made + 1 })

/-- The tree encodes the store in memory, and all interruptions keep its contents. -/
structure Mirrors (m : Memory) (d : Durable) : Prop where
  encodes : d.tree.Encodes m
  survives : ∀ n, Tree.Survives (d.interrupt n)

theorem bisimulation : Store.Bisimulation Mirrors where
  answer h c := ((h.encodes.interrupt (h.survives _)).call c).1.symm
  next h c := ⟨((h.encodes.interrupt (h.survives _)).call c).2, h.survives⟩

end Durable

end KvServer
